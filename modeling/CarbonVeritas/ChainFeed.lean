/-
# Faithful sync events

The sync events that a faithful feed hands to the processors of the indexer for the events
that a transaction publishes: the published data, and from the storage after the transaction
what the event lacks, such as the metadata of a submitted credit, the comments of a vote and
the token of a minted credit.

The feed of a registry also carries the events of the retirement tracker and of the bridge.
Within a transaction the registry publishes before the contract that calls it.
-/
import CarbonVeritas.ContractEvents
import CarbonVeritas.World

namespace CarbonVeritas

/-! ## Appended entries -/

/-- What a list has beyond an earlier state of it. -/
def appended {α : Type} (before after : List α) : List α := after.drop before.length

@[simp] theorem appended_self {α : Type} (l : List α) : appended l l = [] :=
  List.drop_length

@[simp] theorem appended_append {α : Type} (l new : List α) : appended l (l ++ new) = new :=
  List.drop_left

/-- What a feed takes from outside the contracts. -/
structure Feed {T : Type} (ch : Chain T) where
  sdk : StellarSdk
  /-- the text of a time in seconds -/
  dateText : ℕ → String
  /-- the hash of a transaction -/
  txHash : Tx ch → String

namespace Feed

variable {T : Type} {ch : Chain T}

/-! ## Events of the contracts -/

section Events

variable (feed : Feed ch) (tx : Tx ch)

/-- The submission of a credit with the metadata `m`. -/
def submittedEvent (m : CreditMetadata) (creditId : ℕ) (issuer : Address)
    (ipfsHash : SorobanString) : CreditSubmittedEvent where
  creditId := .finite creditId
  issuer := feed.sdk.addressText issuer
  projectId := feed.sdk.decodeText m.projectId
  methodology := feed.sdk.decodeText m.methodology
  vintageStart := feed.dateText m.vintageStart
  vintageEnd := feed.dateText m.vintageEnd
  tonnes := .finite m.tonnes
  geography := feed.sdk.decodeText m.geography
  serialPrefix := feed.sdk.decodeText m.serialPrefix
  sdgFlags := .finite m.sdgFlags
  permanenceRating := .finite m.permanenceRating
  bufferContributionPct := .finite m.bufferContributionPct
  additionalityType := .finite m.additionalityType
  ipfsHash := feed.sdk.decodeText ipfsHash
  timestamp := .finite tx.timestamp
  txHash := feed.txHash tx

def approvedEvent (record : ApprovalRecord) (creditId : ℕ) : CreditApprovedEvent where
  creditId := .finite creditId
  verifier := feed.sdk.addressText record.verifier
  approved := record.approved
  comments := some (feed.sdk.decodeText record.comments)
  timestamp := .finite record.timestamp
  txHash := feed.txHash tx

def mintedEvent (m : CreditMetadata) (creditId : ℕ) : CreditMintedEvent where
  creditId := .finite creditId
  tokenId := hexText m.tokenId.toBytes
  timestamp := .finite tx.timestamp
  txHash := feed.txHash tx

def rejectedEvent (record : ApprovalRecord) (creditId : ℕ) : CreditRejectedEvent where
  creditId := .finite creditId
  verifier := feed.sdk.addressText record.verifier
  reason := feed.sdk.decodeText record.comments
  timestamp := .finite record.timestamp
  txHash := feed.txHash tx

def transferredEvent (creditId : ℕ) (fromAddr toAddr : Address) : CreditTransferredEvent where
  creditId := .finite creditId
  fromAddr := feed.sdk.addressText fromAddr
  toAddr := feed.sdk.addressText toAddr
  timestamp := .finite tx.timestamp
  txHash := feed.txHash tx

/-- The vote of a verifier on a credit. -/
def voteOf (s : CreditRegistry) (creditId : ℕ) (verifier : Address) : Option ApprovalRecord :=
  (s.approvals creditId).find? fun r => r.verifier = verifier

/-- The sync event of a registry with the storage `s`; there is none for a new configuration. -/
def registryEvent (s : CreditRegistry) : RegistryEvent → Option SyncEvent
  | .creditSubmitted creditId issuer ipfsHash =>
      (s.credits creditId).map fun m =>
        .creditSubmitted (feed.submittedEvent tx m creditId issuer ipfsHash)
  | .creditApproved creditId verifier =>
      (voteOf s creditId verifier).map fun record =>
        .creditApproved (feed.approvedEvent tx record creditId)
  | .creditMinted creditId =>
      (s.credits creditId).map fun m => .creditMinted (feed.mintedEvent tx m creditId)
  | .creditRejected creditId verifier =>
      (voteOf s creditId verifier).map fun record =>
        .creditRejected (feed.rejectedEvent tx record creditId)
  | .creditTransferred creditId fromAddr toAddr =>
      some (.creditTransferred (feed.transferredEvent tx creditId fromAddr toAddr))
  | .configUpdated _ => none

/-- The record is published as a whole. -/
def retiredEvent (record : RetirementRecord) : CreditRetiredEvent where
  creditId := .finite record.creditId
  retiredBy := feed.sdk.addressText record.retiredBy
  beneficiary := feed.sdk.decodeText record.beneficiary
  reason := feed.sdk.decodeText record.reason
  accountingPeriod := feed.sdk.decodeText record.accountingPeriod
  tonnesRetired := .finite record.tonnesRetired
  txHash := hexText record.txHash.toBytes
  ledgerSequence := .finite record.ledgerSequence
  timestamp := .finite record.timestamp

def bridgeEvent : BridgeEvent → SyncEvent
  | .creditBridged registry serial creditId => .creditBridged {
      creditId := .finite creditId
      sourceRegistry := feed.sdk.decodeText registry
      sourceSerial := feed.sdk.decodeText serial
      txHash := feed.txHash tx
      timestamp := .finite tx.timestamp }
  | .bridgeOut creditId owner => .creditBridgedOut {
      creditId := .finite creditId
      owner := feed.sdk.addressText owner
      txHash := feed.txHash tx
      timestamp := .finite tx.timestamp }
  | .rootUpdated registry root => .registryRootUpdated {
      registry := feed.sdk.decodeText registry
      root := hexText root.toBytes
      ledgerSequence := .finite tx.sequence
      txHash := feed.txHash tx
      timestamp := .finite tx.timestamp }

/-! ## Faithfulness -/

/-- The sync event of a registry carries what was published. -/
theorem matches_registryEvent {s : CreditRegistry} {e : RegistryEvent} {event : SyncEvent}
    (h : feed.registryEvent tx s e = some event) : Matches feed.sdk (.registry e) event := by
  cases e with
  | creditSubmitted creditId issuer ipfsHash =>
      obtain ⟨m, -, rfl⟩ := Option.map_eq_some_iff.mp h
      exact ⟨rfl, rfl, rfl⟩
  | creditApproved creditId verifier =>
      obtain ⟨record, hrecord, rfl⟩ := Option.map_eq_some_iff.mp h
      have hverifier : record.verifier = verifier := by simpa using List.find?_some hrecord
      exact ⟨rfl, congrArg feed.sdk.addressText hverifier⟩
  | creditMinted creditId =>
      obtain ⟨m, -, rfl⟩ := Option.map_eq_some_iff.mp h
      rfl
  | creditRejected creditId verifier =>
      obtain ⟨record, hrecord, rfl⟩ := Option.map_eq_some_iff.mp h
      have hverifier : record.verifier = verifier := by simpa using List.find?_some hrecord
      exact ⟨rfl, congrArg feed.sdk.addressText hverifier⟩
  | creditTransferred creditId fromAddr toAddr =>
      obtain rfl := Option.some.inj h
      exact ⟨rfl, rfl, rfl⟩
  | configUpdated admin => cases h

/-- The sync event of a retirement matches it. -/
theorem matches_retiredEvent (record : RetirementRecord) :
    Matches feed.sdk (.tracker record) (.creditRetired (feed.retiredEvent record)) :=
  ⟨rfl, rfl, rfl, rfl, rfl, rfl, rfl, rfl⟩

/-- The sync event of the bridge matches what it publishes. -/
theorem matches_bridgeEvent (e : BridgeEvent) :
    Matches feed.sdk (.bridge e) (feed.bridgeEvent tx e) := by
  cases e with
  | creditBridged registry serial creditId => exact ⟨rfl, rfl, rfl⟩
  | bridgeOut creditId owner => exact ⟨rfl, rfl⟩
  | rootUpdated registry root => exact ⟨rfl, Or.inl rfl⟩

end Events

/-! ## Events of a transaction -/

section Transactions

variable (feed : Feed ch) (tx : Tx ch)

/-- What the registry published between two states of it. -/
def registryEvents (s s' : CreditRegistry) : List SyncEvent :=
  (appended s.events s'.events).filterMap (feed.registryEvent tx s')

def trackerEvents (t t' : RetirementTracker) : List SyncEvent :=
  (appended t.events t'.events).map fun record => .creditRetired (feed.retiredEvent record)

def bridgeEvents (b b' : MerkleBridge) : List SyncEvent :=
  (appended b.events b'.events).map (feed.bridgeEvent tx)

/-- The sync events of a transaction that changes the deployment from `w` to `w'`. -/
def worldEvents (R : Address) (w w' : World T) : List SyncEvent :=
  feed.registryEvents tx (w.registry R) (w'.registry R) ++
    (feed.trackerEvents w.tracker w'.tracker ++ feed.bridgeEvents tx w.bridge w'.bridge)

/-- The sync events of a transaction. -/
def syncEvents (R : Address) (w : World T) (tx : Tx ch) : List SyncEvent :=
  feed.worldEvents tx R w (World.apply ch w tx)

/-- A registry that stays as it is publishes nothing. -/
@[simp] theorem registryEvents_self (s : CreditRegistry) : feed.registryEvents tx s s = [] := by
  simp [registryEvents]

/-- Neither does such a tracker. -/
@[simp] theorem trackerEvents_self (t : RetirementTracker) : feed.trackerEvents t t = [] := by
  simp [trackerEvents]

/-- Nor does such a bridge. -/
@[simp] theorem bridgeEvents_self (b : MerkleBridge) : feed.bridgeEvents tx b b = [] := by
  simp [bridgeEvents]

/-- The sync events of a transaction from what each contract adds to its events. -/
theorem worldEvents_of_append (R : Address) (w w' : World T) (new : List RegistryEvent)
    (records : List RetirementRecord) (events : List BridgeEvent)
    (hregistry : (w'.registry R).events = (w.registry R).events ++ new)
    (htracker : w'.tracker.events = w.tracker.events ++ records)
    (hbridge : w'.bridge.events = w.bridge.events ++ events) :
    feed.worldEvents tx R w w' = new.filterMap (feed.registryEvent tx (w'.registry R)) ++
      (records.map (fun record => .creditRetired (feed.retiredEvent record)) ++
        events.map (feed.bridgeEvent tx)) := by
  unfold worldEvents registryEvents trackerEvents bridgeEvents
  rw [hregistry, htracker, hbridge, appended_append, appended_append, appended_append]

/-- A transaction that changes neither the tracker nor the bridge. -/
theorem worldEvents_ledger (R : Address) (w : World T) (m : Marketplace) (l : Ledger T) :
    feed.worldEvents tx R w { w with marketplace := m, ledger := l } =
      feed.registryEvents tx (w.registry R) (l.registries R) := by
  show feed.registryEvents tx (w.registry R) (l.registries R) ++
    (feed.trackerEvents w.tracker w.tracker ++ feed.bridgeEvents tx w.bridge w.bridge) = _
  rw [trackerEvents_self, bridgeEvents_self, List.append_nil, List.append_nil]

/-- A submission is fed for a credit that is on chain. -/
theorem credit_of_mem_worldEvents {R : Address} {w w' : World T} {data : CreditSubmittedEvent}
    (h : .creditSubmitted data ∈ feed.worldEvents tx R w w') :
    ∃ id : ℕ, data.creditId = .finite id ∧ ((w'.registry R).credits id).isSome = true := by
  rcases List.mem_append.mp h with hregistry | hother
  · obtain ⟨e, -, he⟩ := List.mem_filterMap.mp hregistry
    cases e with
    | creditSubmitted id issuer ipfsHash =>
        obtain ⟨m, hm, hdata⟩ := Option.map_eq_some_iff.mp he
        cases hdata
        exact ⟨id, rfl, by rw [hm]; rfl⟩
    | creditApproved id verifier =>
        obtain ⟨_, -, hdata⟩ := Option.map_eq_some_iff.mp he
        cases hdata
    | creditMinted id =>
        obtain ⟨_, -, hdata⟩ := Option.map_eq_some_iff.mp he
        cases hdata
    | creditRejected id verifier =>
        obtain ⟨_, -, hdata⟩ := Option.map_eq_some_iff.mp he
        cases hdata
    | creditTransferred id fromAddr toAddr => cases he
    | configUpdated admin => cases he
  · rcases List.mem_append.mp hother with htracker | hbridge
    · obtain ⟨record, -, he⟩ := List.mem_map.mp htracker
      cases he
    · obtain ⟨e, -, he⟩ := List.mem_map.mp hbridge
      cases e <;> cases he

/-- Every sync event carries what one of the contracts published. -/
theorem matches_of_mem_worldEvents {R : Address} {w w' : World T} {event : SyncEvent}
    (h : event ∈ feed.worldEvents tx R w w') :
    (∃ e ∈ appended (w.registry R).events (w'.registry R).events,
        Matches feed.sdk (.registry e) event) ∨
      (∃ record ∈ appended w.tracker.events w'.tracker.events,
        Matches feed.sdk (.tracker record) event) ∨
      ∃ e ∈ appended w.bridge.events w'.bridge.events, Matches feed.sdk (.bridge e) event := by
  rcases List.mem_append.mp h with hregistry | hother
  · obtain ⟨e, he, hevent⟩ := List.mem_filterMap.mp hregistry
    exact Or.inl ⟨e, he, feed.matches_registryEvent tx hevent⟩
  · rcases List.mem_append.mp hother with htracker | hbridge
    · obtain ⟨record, hrecord, rfl⟩ := List.mem_map.mp htracker
      exact Or.inr (Or.inl ⟨record, hrecord, feed.matches_retiredEvent record⟩)
    · obtain ⟨e, he, rfl⟩ := List.mem_map.mp hbridge
      exact Or.inr (Or.inr ⟨e, he, feed.matches_bridgeEvent tx e⟩)

/-- A transaction that panics publishes nothing. -/
theorem syncEvents_of_not_succeeds {R : Address} {w : World T}
    (h : ¬ World.Succeeds ch w tx) : feed.syncEvents R w tx = [] := by
  unfold syncEvents worldEvents
  rw [World.apply_of_not_succeeds h]
  simp

end Transactions

/-! ## Events of a registry call -/

end Feed

namespace CreditRegistry

/-- One more rejection decides the credit. -/
def RejectionDecides (s : CreditRegistry) (id : ℕ) : Prop :=
  ∃ config, s.config = some config ∧
    u32Sub config.verifierQuorum config.verifierThreshold < s.countRejections id + 1

instance (s : CreditRegistry) (id : ℕ) : Decidable (s.RejectionDecides id) :=
  decidable_of_iff ((s.config.any fun config => decide
    (u32Sub config.verifierQuorum config.verifierThreshold < s.countRejections id + 1)) = true)
    (by simp [RejectionDecides, Option.any_eq_true])

/-- A rejection counts. -/
theorem countRejections_rejectionRecorded (env : Env) (s : CreditRegistry) (verifier : Address)
    (id : ℕ) (reason : SorobanString) :
    (rejectionRecorded env s verifier id reason).countRejections id =
      s.countRejections id + 1 := by
  simp [countRejections, rejectionRecorded, voteRecord]

/-- A first vote is found in the log that it ends. -/
theorem find_voteRecord {env : Env} {s : CreditRegistry} {id : ℕ} {verifier : Address}
    {approved : Bool} {comments : SorobanString} (hfresh : s.hasApproval id verifier = false) :
    (s.approvals id ++ [voteRecord env verifier approved comments]).find?
      (fun r => r.verifier = verifier) = some (voteRecord env verifier approved comments) := by
  have hnone : (s.approvals id).find? (fun r => r.verifier = verifier) = none := by
    rw [List.find?_eq_none]
    intro r hr
    have hany := List.any_eq_false.mp hfresh r hr
    simpa using hany
  rw [List.find?_append, hnone, Option.none_or]
  simp [voteRecord]

end CreditRegistry

namespace Feed

open CreditRegistry

section RegistryCalls

variable {T : Type} {ch : Chain T} (feed : Feed ch) (tx : Tx ch)

/-- The changes of the credits and their owners that a call of the registry makes, with the
sync events of the call. -/
inductive CallFeed (s s' : CreditRegistry) : CreditRegistry.Call → List SyncEvent → Prop where
  | quiet {call : CreditRegistry.Call} (hcredits : s'.credits = s.credits)
      (howners : s'.owners = s.owners)
      (hquiet : (∀ v id reason, call ≠ .rejectCredit v id reason) ∧
        (∀ b a m, call ≠ .mintBridged b a m) ∧ ∀ a id, call ≠ .markRetired a id) :
      CallFeed s s' call []
  | submit {issuer : Address} {metadata m : CreditMetadata} {ipfsHash : SorobanString}
      (hpending : m.status = .pending)
      (hcredits : s'.credits = Function.update s.credits (s.creditCounter + 1) (some m))
      (howners : s'.owners = Function.update s.owners (s.creditCounter + 1) (some issuer)) :
      CallFeed s s' (.submitCredit issuer metadata ipfsHash)
        [.creditSubmitted (feed.submittedEvent tx m (s.creditCounter + 1) issuer ipfsHash)]
  | bridged {bridge toAddr : Address} {metadata m : CreditMetadata}
      (hcredits : s'.credits = Function.update s.credits (s.creditCounter + 1) (some m)) :
      CallFeed s s' (.mintBridged bridge toAddr metadata)
        [.creditMinted (feed.mintedEvent tx m (s.creditCounter + 1))]
  | approve {verifier : Address} {id : ℕ} {comments : SorobanString} {credit : CreditMetadata}
      {record : ApprovalRecord} (hstored : s.credits id = some credit)
      (hcredits : s'.credits = s.credits) (howners : s'.owners = s.owners) :
      CallFeed s s' (.approveAndMint verifier id comments)
        [.creditApproved (feed.approvedEvent tx record id)]
  | mint {verifier : Address} {id : ℕ} {comments : SorobanString} {credit m : CreditMetadata}
      {record : ApprovalRecord} (hstored : s.credits id = some credit)
      (hactive : m.status = .active)
      (hcredits : s'.credits = Function.update s.credits id (some m))
      (howners : s'.owners = s.owners) :
      CallFeed s s' (.approveAndMint verifier id comments)
        [.creditApproved (feed.approvedEvent tx record id),
          .creditMinted (feed.mintedEvent tx m id)]
  | oppose {verifier : Address} {id : ℕ} {reason : SorobanString} {credit : CreditMetadata}
      {record : ApprovalRecord} (hstored : s.credits id = some credit)
      (hpending : credit.status = .pending) (hdecides : ¬ s.RejectionDecides id)
      (hcredits : s'.credits = s.credits) (howners : s'.owners = s.owners) :
      CallFeed s s' (.rejectCredit verifier id reason)
        [.creditRejected (feed.rejectedEvent tx record id)]
  | reject {verifier : Address} {id : ℕ} {reason : SorobanString} {credit m : CreditMetadata}
      {record : ApprovalRecord} (hstored : s.credits id = some credit)
      (hdecides : s.RejectionDecides id) (hrejected : m.status = .rejected)
      (hcredits : s'.credits = Function.update s.credits id (some m))
      (howners : s'.owners = s.owners) :
      CallFeed s s' (.rejectCredit verifier id reason)
        [.creditRejected (feed.rejectedEvent tx record id)]
  | transfer {fromAddr toAddr : Address} {id : ℕ} {credit : CreditMetadata}
      (hstored : s.credits id = some credit) (hcredits : s'.credits = s.credits)
      (howners : s'.owners = Function.update s.owners id (some toAddr)) :
      CallFeed s s' (.transferCredit fromAddr toAddr id)
        [.creditTransferred (feed.transferredEvent tx id fromAddr toAddr)]
  | retire {caller : Address} {id : ℕ} {credit m : CreditMetadata}
      (hstored : s.credits id = some credit) (hactive : credit.status = .active)
      (hretired : m.status = .retired)
      (hcredits : s'.credits = Function.update s.credits id (some m))
      (howners : s'.owners = s.owners) :
      CallFeed s s' (.markRetired caller id) []

/-- The feed of a call is that of the events it appends. -/
theorem registryEvents_of_append (s : CreditRegistry) {s' : CreditRegistry}
    (new : List RegistryEvent) (h : s'.events = s.events ++ new) :
    feed.registryEvents tx s s' = new.filterMap (feed.registryEvent tx s') := by
  unfold registryEvents
  rw [h, appended_append]

/-- A call that publishes nothing and keeps the credits. -/
theorem CallFeed.of_eq {s s' s₁ : CreditRegistry} {call : CreditRegistry.Call} (hs' : s' = s₁)
    (hcredits : s₁.credits = s.credits) (howners : s₁.owners = s.owners)
    (hevents : s₁.events = s.events)
    (hquiet : (∀ v id reason, call ≠ .rejectCredit v id reason) ∧
      (∀ b a m, call ≠ .mintBridged b a m) ∧ ∀ a id, call ≠ .markRetired a id) :
    feed.CallFeed tx s s' call (feed.registryEvents tx s s') := by
  rw [hs', feed.registryEvents_of_append tx s [] (by rw [hevents, List.append_nil])]
  exact .quiet hcredits howners hquiet

section Cases

variable {env : Env} {s s' : CreditRegistry}

/-- A submission publishes one event, filled from the metadata it has stored. -/
theorem callFeed_submitCredit {issuer : Address} {metadata : CreditMetadata}
    {ipfsHash : SorobanString}
    (hcredits : s'.credits = Function.update s.credits (s.creditCounter + 1)
      (some (submittedMetadata env metadata ipfsHash)))
    (howners : s'.owners = Function.update s.owners (s.creditCounter + 1) (some issuer))
    (hevents : s'.events =
      s.events ++ [.creditSubmitted (s.creditCounter + 1) issuer ipfsHash]) :
    feed.CallFeed tx s s' (.submitCredit issuer metadata ipfsHash)
      (feed.registryEvents tx s s') := by
  have hm : s'.credits (s.creditCounter + 1) =
      some (submittedMetadata env metadata ipfsHash) := by
    rw [hcredits, Function.update_self]
  rw [feed.registryEvents_of_append tx s _ hevents]
  simp only [List.filterMap_cons, List.filterMap_nil, registryEvent, hm, Option.map_some]
  exact .submit rfl hcredits howners

/-- A bridged mint publishes the mint alone, without a submission. -/
theorem callFeed_mintBridged {bridge toAddr : Address} {metadata m : CreditMetadata}
    (hcredits : s'.credits = Function.update s.credits (s.creditCounter + 1) (some m))
    (hevents : s'.events = s.events ++ [.creditMinted (s.creditCounter + 1)]) :
    feed.CallFeed tx s s' (.mintBridged bridge toAddr metadata)
      (feed.registryEvents tx s s') := by
  have hm : s'.credits (s.creditCounter + 1) = some m := by
    rw [hcredits, Function.update_self]
  rw [feed.registryEvents_of_append tx s _ hevents]
  simp only [List.filterMap_cons, List.filterMap_nil, registryEvent, hm, Option.map_some]
  exact .bridged hcredits

section Votes

variable {verifier : Address} {id : ℕ} {comments : SorobanString} {credit : CreditMetadata}

/-- The comments of a vote are read back from the log that the vote ends. -/
theorem voteOf_recorded {approved : Bool} (hfresh : s.hasApproval id verifier = false)
    (happrovals : s'.approvals id =
      s.approvals id ++ [voteRecord env verifier approved comments]) :
    voteOf s' id verifier = some (voteRecord env verifier approved comments) := by
  unfold voteOf
  rw [happrovals, find_voteRecord hfresh]

/-- An approval below the threshold publishes itself. -/
theorem callFeed_approve (hvote : MayVote env s verifier id credit)
    (happrovals : s'.approvals id = s.approvals id ++ [voteRecord env verifier true comments])
    (hcredits : s'.credits = s.credits) (howners : s'.owners = s.owners)
    (hevents : s'.events = s.events ++ [.creditApproved id verifier]) :
    feed.CallFeed tx s s' (.approveAndMint verifier id comments)
      (feed.registryEvents tx s s') := by
  rw [feed.registryEvents_of_append tx s _ hevents]
  simp only [List.filterMap_cons, List.filterMap_nil, registryEvent,
    voteOf_recorded hvote.fresh happrovals, Option.map_some]
  exact .approve hvote.stored hcredits howners

/-- The approval that reaches the threshold publishes itself and the mint. -/
theorem callFeed_mint {m : CreditMetadata} (hvote : MayVote env s verifier id credit)
    (happrovals : s'.approvals id = s.approvals id ++ [voteRecord env verifier true comments])
    (hactive : m.status = .active)
    (hcredits : s'.credits = Function.update s.credits id (some m))
    (howners : s'.owners = s.owners)
    (hevents : s'.events = s.events ++ [.creditApproved id verifier, .creditMinted id]) :
    feed.CallFeed tx s s' (.approveAndMint verifier id comments)
      (feed.registryEvents tx s s') := by
  have hm : s'.credits id = some m := by
    rw [hcredits, Function.update_self]
  rw [feed.registryEvents_of_append tx s _ hevents]
  simp only [List.filterMap_cons, List.filterMap_nil, registryEvent,
    voteOf_recorded hvote.fresh happrovals, hm, Option.map_some]
  exact .mint hvote.stored hactive hcredits howners

/-- A rejection below the threshold publishes itself. -/
theorem callFeed_oppose {config : ContractConfig} (hvote : MayVote env s verifier id credit)
    (hconfig : s.config = some config)
    (hcount : (rejectionRecorded env s verifier id comments).countRejections id ≤
      u32Sub config.verifierQuorum config.verifierThreshold)
    (happrovals : s'.approvals id = s.approvals id ++ [voteRecord env verifier false comments])
    (hcredits : s'.credits = s.credits) (howners : s'.owners = s.owners)
    (hevents : s'.events = s.events ++ [.creditRejected id verifier]) :
    feed.CallFeed tx s s' (.rejectCredit verifier id comments)
      (feed.registryEvents tx s s') := by
  have hdecides : ¬ s.RejectionDecides id := by
    rintro ⟨config', hconfig', hmore⟩
    obtain rfl : config = config' := Option.some.inj (hconfig.symm.trans hconfig')
    rw [countRejections_rejectionRecorded] at hcount
    omega
  rw [feed.registryEvents_of_append tx s _ hevents]
  simp only [List.filterMap_cons, List.filterMap_nil, registryEvent,
    voteOf_recorded hvote.fresh happrovals, Option.map_some]
  exact .oppose hvote.stored hvote.pending hdecides hcredits howners

/-- The rejection that decides publishes itself and nothing more. -/
theorem callFeed_reject {config : ContractConfig} {m : CreditMetadata}
    (hvote : MayVote env s verifier id credit) (hconfig : s.config = some config)
    (hcount : u32Sub config.verifierQuorum config.verifierThreshold <
      (rejectionRecorded env s verifier id comments).countRejections id)
    (happrovals : s'.approvals id = s.approvals id ++ [voteRecord env verifier false comments])
    (hrejected : m.status = .rejected)
    (hcredits : s'.credits = Function.update s.credits id (some m))
    (howners : s'.owners = s.owners)
    (hevents : s'.events = s.events ++ [.creditRejected id verifier]) :
    feed.CallFeed tx s s' (.rejectCredit verifier id comments)
      (feed.registryEvents tx s s') := by
  have hdecides : s.RejectionDecides id := by
    rw [countRejections_rejectionRecorded] at hcount
    exact ⟨config, hconfig, hcount⟩
  rw [feed.registryEvents_of_append tx s _ hevents]
  simp only [List.filterMap_cons, List.filterMap_nil, registryEvent,
    voteOf_recorded hvote.fresh happrovals, Option.map_some]
  exact .reject hvote.stored hdecides hrejected hcredits howners

end Votes

end Cases

/-- **Inversion.**  Every call that returns is fed in one of these ways. -/
theorem callFeed_of_exec {env : Env} {s s' : CreditRegistry} {call : CreditRegistry.Call}
    (h : CreditRegistry.exec ch.sha256 env s call = .ok s') :
    feed.CallFeed tx s s' call (feed.registryEvents tx s s') := by
  have hret := exec_returns h
  -- the storage after the call keeps its name, with an equation for it
  obtain ⟨s₁, hs'⟩ : ∃ s₁, s' = s₁ := ⟨s', rfl⟩
  rw [hs'] at hret
  have hcredits : s'.credits = s₁.credits := congrArg credits hs'
  have howners : s'.owners = s₁.owners := congrArg owners hs'
  have hevents : s'.events = s₁.events := congrArg events hs'
  have happrovals : ∀ id, s'.approvals id = s₁.approvals id := fun id => by rw [hs']
  cases hret with
  | submitCredit _ _ =>
      exact feed.callFeed_submitCredit tx hcredits howners hevents
  | mintBridged _ _ _ =>
      exact feed.callFeed_mintBridged tx hcredits hevents
  | approve hvote _ _ =>
      exact feed.callFeed_approve tx hvote ((happrovals _).trans (Function.update_self ..))
        hcredits howners hevents
  | mint hvote _ _ =>
      exact feed.callFeed_mint tx hvote ((happrovals _).trans (Function.update_self ..)) rfl
        hcredits howners (hevents.trans (List.append_assoc ..))
  | oppose hvote hconfig hcount =>
      exact feed.callFeed_oppose tx hvote hconfig hcount
        ((happrovals _).trans (Function.update_self ..)) hcredits howners hevents
  | reject hvote hconfig hcount =>
      exact feed.callFeed_reject tx hvote hconfig hcount
        ((happrovals _).trans (Function.update_self ..)) rfl hcredits howners hevents
  | @transferCredit fromAddr toAddr id credit _ _ hstored _ =>
      rw [feed.registryEvents_of_append tx s [.creditTransferred id fromAddr toAddr] hevents]
      exact .transfer hstored hcredits howners
  | @markRetired caller id credit _ _ hstored hactive =>
      rw [feed.registryEvents_of_append tx s [] (hevents.trans (List.append_nil _).symm)]
      exact .retire hstored hactive rfl hcredits howners
  | updateConfig _ _ _ =>
      rw [feed.registryEvents_of_append tx s [.configUpdated _] hevents]
      exact .quiet hcredits howners ⟨nofun, nofun, nofun⟩
  | _ => exact CallFeed.of_eq feed tx hs' rfl rfl rfl ⟨nofun, nofun, nofun⟩

end RegistryCalls

end Feed

/-! ## Nothing published is left out -/

namespace CreditRegistry

section Fillable

variable {sha256 : (n : ℕ) → BitVec n → Bytes32} {env : Env} {s s' : CreditRegistry}

/-- What the sync event of a published event is filled from is stored. -/
def Fillable (s : CreditRegistry) : RegistryEvent → Prop
  | .creditSubmitted id _ _ => (s.credits id).isSome = true
  | .creditApproved id verifier => s.hasApproval id verifier = true
  | .creditMinted id => (s.credits id).isSome = true
  | .creditRejected id verifier => s.hasApproval id verifier = true
  | .creditTransferred _ _ _ => True
  | .configUpdated _ => True

/-- Credits and votes stay, so an event can be filled later too. -/
theorem fillable_append {new : List RegistryEvent} (h : ∀ e ∈ s.events, Fillable s e)
    (hevents : s'.events = s.events ++ new)
    (hcredits : ∀ id, (s.credits id).isSome = true → (s'.credits id).isSome = true)
    (hvotes : ∀ id v, s.hasApproval id v = true → s'.hasApproval id v = true)
    (hnew : ∀ e ∈ new, Fillable s' e) : ∀ e ∈ s'.events, Fillable s' e := by
  intro e he
  rw [hevents] at he
  rcases List.mem_append.mp he with hold | hmem
  · have hfilled := h e hold
    cases e with
    | creditSubmitted id issuer ipfsHash => exact hcredits id hfilled
    | creditApproved id verifier => exact hvotes id verifier hfilled
    | creditMinted id => exact hcredits id hfilled
    | creditRejected id verifier => exact hvotes id verifier hfilled
    | creditTransferred id fromAddr toAddr => trivial
    | configUpdated admin => trivial
  · exact hnew e hmem

/-- A credit that is written stays stored, and so do the others. -/
theorem isSome_of_write {id : ℕ} {m : CreditMetadata}
    (hcredits : s'.credits = Function.update s.credits id (some m)) :
    ∀ i, (s.credits i).isSome = true → (s'.credits i).isSome = true := by
  intro i hi
  rw [hcredits]
  by_cases hid : i = id
  · rw [hid, Function.update_self]
    rfl
  · rwa [Function.update_of_ne hid]

/-- A credit that was written is stored. -/
theorem isSome_written {id : ℕ} {m : CreditMetadata}
    (hcredits : s'.credits = Function.update s.credits id (some m)) :
    (s'.credits id).isSome = true := by
  rw [hcredits, Function.update_self]
  rfl

/-- A vote is found after it is recorded, and so are the earlier ones. -/
theorem hasApproval_of_vote {id : ℕ} {record : ApprovalRecord}
    (hlog : s'.approvals = Function.update s.approvals id (s.approvals id ++ [record])) :
    ∀ i v, s.hasApproval i v = true → s'.hasApproval i v = true := by
  intro i v hi
  unfold hasApproval at hi ⊢
  rw [hlog]
  by_cases hid : i = id
  · subst hid
    rw [Function.update_self, List.any_append, hi, Bool.true_or]
  · rwa [Function.update_of_ne hid]

/-- After an approval the verifier has voted. -/
theorem hasApproval_approvalRecorded (env : Env) (s : CreditRegistry) (verifier : Address)
    (id : ℕ) (comments : SorobanString) :
    (approvalRecorded env s verifier id comments).hasApproval id verifier = true := by
  simp [hasApproval, approvalRecorded, voteRecord]

/-- After a rejection the verifier has voted. -/
theorem hasApproval_rejectionRecorded (env : Env) (s : CreditRegistry) (verifier : Address)
    (id : ℕ) (reason : SorobanString) :
    (rejectionRecorded env s verifier id reason).hasApproval id verifier = true := by
  simp [hasApproval, rejectionRecorded, voteRecord]

/-- Every call keeps the published events fillable. -/
theorem fillable_step {call : Call} (h : ∀ e ∈ s.events, Fillable s e)
    (hexec : exec sha256 env s call = .ok s') : ∀ e ∈ s'.events, Fillable s' e := by
  -- the old events stay fillable, and the new ones are about what was just written
  cases exec_returns hexec with
  | submitCredit _ _ =>
      exact fillable_append h rfl (isSome_of_write rfl) (fun _ _ hv => hv)
        (List.forall_mem_singleton.mpr (isSome_written rfl))
  | mintBridged _ _ _ =>
      exact fillable_append h rfl (isSome_of_write rfl) (fun _ _ hv => hv)
        (List.forall_mem_singleton.mpr (isSome_written rfl))
  | approve _ _ _ =>
      have hvote := hasApproval_approvalRecorded env s
      exact fillable_append h rfl (fun _ hc => hc) (hasApproval_of_vote rfl)
        (List.forall_mem_singleton.mpr (hvote ..))
  | mint _ _ _ =>
      have hvote := hasApproval_approvalRecorded env s
      refine fillable_append h (List.append_assoc ..) (isSome_of_write rfl)
        (hasApproval_of_vote rfl) ?_
      exact List.forall_mem_cons.mpr
        ⟨hvote .., List.forall_mem_singleton.mpr (isSome_written rfl)⟩
  | oppose _ _ _ =>
      have hvote := hasApproval_rejectionRecorded env s
      exact fillable_append h rfl (fun _ hc => hc) (hasApproval_of_vote rfl)
        (List.forall_mem_singleton.mpr (hvote ..))
  | reject _ _ _ =>
      have hvote := hasApproval_rejectionRecorded env s
      exact fillable_append h rfl (isSome_of_write rfl) (hasApproval_of_vote rfl)
        (List.forall_mem_singleton.mpr (hvote ..))
  | transferCredit _ _ _ _ =>
      exact fillable_append h rfl (fun _ hc => hc) (fun _ _ hv => hv)
        (List.forall_mem_singleton.mpr trivial)
  | markRetired _ _ _ _ =>
      exact fillable_append h (List.append_nil _).symm (isSome_of_write rfl) (fun _ _ hv => hv)
        (List.forall_mem_nil _)
  | updateConfig _ _ _ =>
      exact fillable_append h rfl (fun _ hc => hc) (fun _ _ hv => hv)
        (List.forall_mem_singleton.mpr trivial)
  | _ => exact h

end Fillable

end CreditRegistry

namespace Feed

open Transition

variable {T : Type} {ch : Chain T} (feed : Feed ch) (tx : Tx ch)

/-- Every published event that can be filled is fed, but for a change of the configuration. -/
theorem exists_registryEvent {s : CreditRegistry} {e : RegistryEvent} (h : s.Fillable e) :
    (∃ admin, e = .configUpdated admin) ∨ ∃ event, feed.registryEvent tx s e = some event := by
  have hvote : ∀ {id : ℕ} {v : Address}, s.hasApproval id v = true →
      ∃ record, voteOf s id v = some record := by
    intro id v hv
    refine Option.isSome_iff_exists.mp ?_
    rw [voteOf, List.find?_isSome]
    exact List.any_eq_true.mp hv
  cases e with
  | creditSubmitted id issuer ipfsHash =>
      obtain ⟨m, hm⟩ := Option.isSome_iff_exists.mp h
      exact Or.inr ⟨_, by rw [registryEvent, hm]; rfl⟩
  | creditApproved id verifier =>
      obtain ⟨record, hrecord⟩ := hvote h
      exact Or.inr ⟨_, by rw [registryEvent, hrecord]; rfl⟩
  | creditMinted id =>
      obtain ⟨m, hm⟩ := Option.isSome_iff_exists.mp h
      exact Or.inr ⟨_, by rw [registryEvent, hm]; rfl⟩
  | creditRejected id verifier =>
      obtain ⟨record, hrecord⟩ := hvote h
      exact Or.inr ⟨_, by rw [registryEvent, hrecord]; rfl⟩
  | creditTransferred id fromAddr toAddr => exact Or.inr ⟨_, rfl⟩
  | configUpdated admin => exact Or.inl ⟨admin, rfl⟩

/-- In every run, everything that a registry has published except new configurations has a
faithful sync event. -/
theorem published_fed (R : Address) (tokens : T) (ts : List (Tx ch)) (e : RegistryEvent)
    (he : e ∈ ((run (World.apply ch) (World.genesis tokens) ts).registry R).events) :
    (∃ admin, e = .configUpdated admin) ∨ ∃ event,
      feed.registryEvent tx ((run (World.apply ch) (World.genesis tokens) ts).registry R) e
        = some event ∧ Matches feed.sdk (.registry e) event := by
  have hfillable : ∀ e ∈ ((run (World.apply ch) (World.genesis tokens) ts).registry R).events,
      ((run (World.apply ch) (World.genesis tokens) ts).registry R).Fillable e := by
    refine run_invariant (C := fun _ _ => True)
      (I := fun w : World T => ∀ e ∈ (w.registry R).events, (w.registry R).Fillable e)
      ?_ nofun fun _ _ => trivial
    intro w t hw _
    exact World.apply_registry_rule (P := fun s => ∀ e ∈ s.events, s.Fillable e)
      (fun _ _ _ hs _ hexec => CreditRegistry.fillable_step hs hexec) hw
  rcases feed.exists_registryEvent tx (hfillable e he) with hconfig | ⟨event, hevent⟩
  · exact Or.inl hconfig
  · exact Or.inr ⟨event, hevent, feed.matches_registryEvent tx hevent⟩

end Feed

end CarbonVeritas
