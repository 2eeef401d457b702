/-
# The mirror follows the contracts

The database of an indexer that starts empty and processes the faithful sync events of a
deployment, against the registry on chain: after every transaction each credit should have a
row with its status and its owner (`Shows`).  `follows_chain_iff` says for which runs this
holds.

Three kinds of transactions break it.  A rejection that does not decide its credit is published
like one that does, and the processor rejects the credit at once.  A bridged credit is minted
without a submission, so its mint finds no row to update, and the processor throws.  A
retirement by `mark_retired` itself publishes nothing.  The remaining transactions are followed
exactly when the values of their events fit the columns of the database.

`mirrored_call` settles one call of the registry, `mirrored_retireAll` a batch of retirements,
and `mirrored_step` a transaction; the runs follow by `follows_iff_always`.
-/
import CarbonVeritas.ChainFeed
import CarbonVeritas.Follower
import CarbonVeritas.MirrorFits

namespace CarbonVeritas

open Transition

namespace Mirror

/-! ## Agreement -/

/-- Every credit on chain has a row with its status and its owner. -/
def Shows (sdk : StellarSdk) (s : CreditRegistry) (db : Mirror) : Prop :=
  ∀ id m, s.credits id = some m → ∃ row owner, db.credits id = some row ∧
    s.owners id = some owner ∧ row.status = m.status ∧ row.owner = sdk.addressText owner

/-- Every row is one of a credit on chain. -/
def Confined (s : CreditRegistry) (db : Mirror) : Prop :=
  ∀ c, (db.credits c).isSome = true → ∃ id : ℕ, c = id ∧ (s.credits id).isSome = true

/-- The events are processed, and then the database shows the registry. -/
def Mirrored (client : DbClient) (sdk : StellarSdk) (s : CreditRegistry)
    (events : List SyncEvent) (db : Mirror) : Prop :=
  ∃ db', processAll client events db = .ok () db' ∧ Shows sdk s db'

section Agreement

variable {client : DbClient} {sdk : StellarSdk} {s s' : CreditRegistry} {db db' : Mirror}

theorem Shows.congr (h : Shows sdk s db) (hcredits : s'.credits = s.credits)
    (howners : s'.owners = s.owners) (hdb : db'.credits = db.credits) : Shows sdk s' db' := by
  intro id m hm
  rw [hcredits] at hm
  rw [howners, hdb]
  exact h id m hm

/-- Writing a credit on chain and its row keeps the agreement. -/
theorem Shows.update {i : ℕ} {m : CreditMetadata} {a : Address} {row : CreditRow}
    (h : Shows sdk s db) (hcredits : s'.credits = Function.update s.credits i (some m))
    (howners : s'.owners = Function.update s.owners i (some a))
    (hdb : db'.credits = Function.update db.credits i (some row))
    (hstatus : row.status = m.status) (howner : row.owner = sdk.addressText a) :
    Shows sdk s' db' := by
  intro id m' hm'
  rw [hcredits] at hm'
  rw [howners, hdb]
  by_cases hid : id = i
  · subst hid
    rw [Function.update_self] at hm' ⊢
    rw [Function.update_self]
    obtain rfl := Option.some.inj hm'
    exact ⟨row, a, rfl, rfl, hstatus, howner⟩
  · have hcast : (id : ℤ) ≠ i := fun heq => hid (Int.ofNat.inj heq)
    rw [Function.update_of_ne hid] at hm' ⊢
    rw [Function.update_of_ne hcast]
    exact h id m' hm'

/-- An event that sets the status which the registry has written keeps the agreement. -/
theorem Shows.setStatus {id : ℕ} {m credit : CreditMetadata} {e : SyncEvent}
    (h : Shows sdk s db) (hset : Mirror.setStatus e = some (.finite id, m.status))
    (hstored : s.credits id = some credit)
    (hcredits : s'.credits = Function.update s.credits id (some m))
    (howners : s'.owners = s.owners) (hbridge : db.bridgeRecords = [])
    (hprocess : processEvent client e db = .ok () db') : Shows sdk s' db' := by
  obtain ⟨row, owner, hrow, howner, -, hshown⟩ := h id credit hstored
  obtain ⟨row', hdb, hstatus, hkept⟩ := processEvent_setStatus hset
    (fun _ => eq_of_intColumn_natCast) hrow hbridge hprocess
  refine h.update hcredits ?_ hdb hstatus (hkept.trans hshown)
  rw [howners, ← howner, Function.update_eq_self]

/-- A credit on chain has a row. -/
theorem Shows.hasRow (h : Shows sdk s db) {id : ℕ} {m : CreditMetadata}
    (hm : s.credits id = some m) : db.HasRow (.finite id) := by
  intro c hc
  obtain ⟨row, -, hrow, -⟩ := h id m hm
  obtain rfl := eq_of_intColumn_natCast hc
  exact ⟨row, hrow⟩

@[simp] theorem mirrored_nil : Mirrored client sdk s [] db ↔ Shows sdk s db := by
  simp [Mirrored]

/-- A list of events is mirrored when its first event fits and the rest is mirrored after it. -/
theorem mirrored_cons {e : SyncEvent} {events : List SyncEvent} (hknown : db.Known e)
    (hbridge : db.bridgeRecords = [])
    (hrest : ∀ db₁, processEvent client e db = .ok () db₁ →
      (Mirrored client sdk s events db₁ ↔ ∀ x ∈ events, Fits client x)) :
    Mirrored client sdk s (e :: events) db ↔ ∀ x ∈ e :: events, Fits client x := by
  have hcompletes := @processEvent_completes_iff client db e hknown hbridge
  rw [List.forall_mem_cons, ← hcompletes]
  constructor
  · rintro ⟨db', hall, hshows⟩
    obtain ⟨db₁, he, hevents⟩ := processAll_cons_eq_ok.mp hall
    exact ⟨⟨db₁, he⟩, (hrest db₁ he).mp ⟨db', hevents, hshows⟩⟩
  · rintro ⟨⟨db₁, he⟩, hfits⟩
    obtain ⟨db', hevents, hshows⟩ := (hrest db₁ he).mpr hfits
    exact ⟨db', processAll_cons_eq_ok.mpr ⟨db₁, he, hevents⟩, hshows⟩

theorem mirrored_singleton {e : SyncEvent} (hknown : db.Known e)
    (hbridge : db.bridgeRecords = [])
    (hshows : ∀ db₁, processEvent client e db = .ok () db₁ → Shows sdk s db₁) :
    Mirrored client sdk s [e] db ↔ ∀ x ∈ [e], Fits client x := by
  refine mirrored_cons hknown hbridge fun db₁ he => ?_
  rw [mirrored_nil]
  exact iff_of_true (hshows db₁ he) (List.forall_mem_nil _)

end Agreement

/-! ## Calls of the registry -/

/-- The mirror can follow a call that the registry accepts: a rejection decides its credit, and
the call neither mints a bridged credit nor retires one by itself. -/
def Followable (s : CreditRegistry) : CreditRegistry.Call → Prop
  | .rejectCredit _ id _ => s.RejectionDecides id
  | .mintBridged _ _ _ => False
  | .markRetired _ _ => False
  | _ => True

instance (s : CreditRegistry) (call : CreditRegistry.Call) : Decidable (Followable s call) :=
  match call with
  | .rejectCredit _ id _ => inferInstanceAs (Decidable (s.RejectionDecides id))
  | .mintBridged _ _ _ => isFalse id
  | .markRetired _ _ => isFalse id
  | .submitCredit .. | .approveAndMint .. | .transferCredit .. | .getCredit .. => isTrue trivial
  | .getProvenance .. | .getCreditsByIssuer .. | .getOwner .. => isTrue trivial
  | .getCreditsByOwner .. | .init .. | .getConfig | .updateConfig .. => isTrue trivial
  | .addVerifier .. | .removeVerifier .. | .addBridge .. | .removeBridge .. => isTrue trivial
  | .addRetirer .. | .removeRetirer .. | .isRetirer .. => isTrue trivial

section Calls

variable {T : Type} {ch : Chain T} {client : DbClient} {feed : Feed ch} {tx : Tx ch}
  {s s' : CreditRegistry} {db : Mirror}

/-- The mint of a bridged credit finds no row. -/
theorem not_processed_bridged (hidx : s.CreditsIndexed) (hconfined : Confined s db)
    {m : CreditMetadata} {db' : Mirror} :
    ¬ processEvent client (.creditMinted (feed.mintedEvent tx m (s.creditCounter + 1))) db
      = .ok () db' := by
  intro h
  obtain ⟨-, c, row, hc, hrow, -⟩ := processCreditMinted_eq_ok.mp h
  obtain rfl := eq_of_intColumn_natCast hc
  obtain ⟨id, hid, hsome⟩ := hconfined _ (by rw [hrow]; rfl)
  obtain rfl : s.creditCounter + 1 = id := Int.ofNat.inj hid
  rw [hidx.fresh.1] at hsome
  cases hsome

theorem mirrored_of_followable {call : CreditRegistry.Call} {events : List SyncEvent}
    (hcall : Followable s call)
    (h : Mirrored client feed.sdk s' events db ↔ ∀ e ∈ events, Fits client e) :
    Mirrored client feed.sdk s' events db ↔ Followable s call ∧ ∀ e ∈ events, Fits client e := by
  rw [h, and_iff_right hcall]

/-- A submitted credit gets its row, which shows it pending and its issuer as owner. -/
theorem mirrored_submit {issuer : Address} {m : CreditMetadata} {ipfsHash : SorobanString}
    (hpending : m.status = .pending)
    (hcredits : s'.credits = Function.update s.credits (s.creditCounter + 1) (some m))
    (howners : s'.owners = Function.update s.owners (s.creditCounter + 1) (some issuer))
    (hidx : s.CreditsIndexed) (hshows : Shows feed.sdk s db) (hconfined : Confined s db)
    (hbridge : db.bridgeRecords = []) :
    let e := SyncEvent.creditSubmitted
      (feed.submittedEvent tx m (s.creditCounter + 1) issuer ipfsHash)
    Mirrored client feed.sdk s' [e] db ↔ ∀ x ∈ [e], Fits client x := by
  have hnew : db.credits (s.creditCounter + 1 : ℕ) = none := by
    rw [← Option.not_isSome_iff_eq_none]
    intro hsome
    obtain ⟨id, hid, hstored⟩ := hconfined _ hsome
    obtain rfl : s.creditCounter + 1 = id := Int.ofNat.inj hid
    rw [hidx.fresh.1] at hstored
    cases hstored
  refine mirrored_singleton trivial hbridge fun db₁ h => ?_
  obtain ⟨row, hdb, hstatus, howner⟩ := credits_of_submitted h
    (fun _ => eq_of_intColumn_natCast) hnew
  exact hshows.update hcredits howners hdb (hstatus.trans hpending.symm) howner

/-- The approval that mints finds the row of the credit, and the mint makes it active. -/
theorem mirrored_mint {id : ℕ} {credit m : CreditMetadata} {record : ApprovalRecord}
    (hstored : s.credits id = some credit) (hactive : m.status = .active)
    (hcredits : s'.credits = Function.update s.credits id (some m))
    (howners : s'.owners = s.owners) (hshows : Shows feed.sdk s db)
    (hbridge : db.bridgeRecords = []) :
    let events := [SyncEvent.creditApproved (feed.approvedEvent tx record id),
      .creditMinted (feed.mintedEvent tx m id)]
    Mirrored client feed.sdk s' events db ↔ ∀ e ∈ events, Fits client e := by
  refine mirrored_cons (hshows.hasRow hstored) hbridge fun db₁ h => ?_
  have hshows₁ : Shows feed.sdk s db₁ := hshows.congr rfl rfl (credits_of_approved h)
  have hbridge₁ := processEvent_bridgeRecords h hbridge
  refine mirrored_singleton (hshows₁.hasRow hstored) hbridge₁ fun db₂ h₂ => ?_
  refine hshows₁.setStatus ?_ hstored hcredits howners hbridge₁ h₂
  rw [hactive]
  rfl

/-- A rejection below the threshold leaves the credit pending while its row is rejected. -/
theorem not_mirrored_oppose {id : ℕ} {credit : CreditMetadata} {record : ApprovalRecord}
    (hstored : s.credits id = some credit) (hpending : credit.status = .pending)
    (hcredits : s'.credits = s.credits) (hshows : Shows feed.sdk s db)
    (hbridge : db.bridgeRecords = []) :
    ¬ Mirrored client feed.sdk s' [.creditRejected (feed.rejectedEvent tx record id)] db := by
  rintro ⟨db', hall, hshows'⟩
  obtain ⟨db₁, h, hnil⟩ := processAll_cons_eq_ok.mp hall
  obtain rfl := processAll_nil_eq_ok.mp hnil
  obtain ⟨row, -, hrow, -⟩ := hshows id credit hstored
  obtain ⟨row', hdb, hstatus, -⟩ := processEvent_setStatus rfl
    (fun _ => eq_of_intColumn_natCast) hrow hbridge h
  obtain ⟨shown, -, hshown, -, hpend, -⟩ := hshows' id credit (by rw [hcredits, hstored])
  rw [hdb, Function.update_self] at hshown
  obtain rfl := Option.some.inj hshown
  rw [hstatus, hpending] at hpend
  cases hpend

/-- A transfer leaves the row its status and gives it the new owner. -/
theorem mirrored_transferred {fromAddr toAddr : Address} {id : ℕ} {credit : CreditMetadata}
    (hstored : s.credits id = some credit) (hcredits : s'.credits = s.credits)
    (howners : s'.owners = Function.update s.owners id (some toAddr))
    (hshows : Shows feed.sdk s db) (hbridge : db.bridgeRecords = []) :
    let e := SyncEvent.creditTransferred (feed.transferredEvent tx id fromAddr toAddr)
    Mirrored client feed.sdk s' [e] db ↔ ∀ x ∈ [e], Fits client x := by
  refine mirrored_singleton (hshows.hasRow hstored) hbridge fun db₁ h => ?_
  obtain ⟨row, owner, hrow, -, hstatus, -⟩ := hshows id credit hstored
  have hdb := credits_of_transferred h (fun _ => eq_of_intColumn_natCast) hrow
  refine hshows.update ?_ howners hdb hstatus rfl
  rw [hcredits, ← hstored, Function.update_eq_self]

/-- A retirement by the registry alone publishes nothing, and the row stays active. -/
theorem not_shows_retired {id : ℕ} {credit m : CreditMetadata}
    (hstored : s.credits id = some credit) (hactive : credit.status = .active)
    (hretired : m.status = .retired)
    (hcredits : s'.credits = Function.update s.credits id (some m))
    (hshows : Shows feed.sdk s db) : ¬ Shows feed.sdk s' db := by
  intro hshows'
  obtain ⟨row, -, hrow, -, hstatus, -⟩ := hshows id credit hstored
  obtain ⟨row', -, hrow', -, hstatus', -⟩ := hshows' id m
    (by rw [hcredits, Function.update_self])
  obtain rfl : row = row' := Option.some.inj (hrow.symm.trans hrow')
  rw [hstatus, hactive, hretired] at hstatus'
  cases hstatus'

/-- **Calls.**  A call of the registry is mirrored exactly when it can be followed and its
events fit. -/
theorem mirrored_call {call : CreditRegistry.Call} {events : List SyncEvent}
    (hfeed : feed.CallFeed tx s s' call events) (hidx : s.CreditsIndexed)
    (hshows : Shows feed.sdk s db) (hconfined : Confined s db) (hbridge : db.bridgeRecords = []) :
    Mirrored client feed.sdk s' events db ↔
      Followable s call ∧ ∀ e ∈ events, Fits client e := by
  cases hfeed with
  | quiet hcredits howners hquiet =>
      rw [mirrored_nil]
      refine iff_of_true (hshows.congr hcredits howners rfl) ⟨?_, List.forall_mem_nil _⟩
      obtain ⟨hreject, hmint, hretire⟩ := hquiet
      cases call with
      | rejectCredit v id reason => exact absurd rfl (hreject v id reason)
      | mintBridged b a m => exact absurd rfl (hmint b a m)
      | markRetired a id => exact absurd rfl (hretire a id)
      | _ => trivial
  | submit hpending hcredits howners =>
      exact mirrored_of_followable trivial
        (mirrored_submit hpending hcredits howners hidx hshows hconfined hbridge)
  | bridged hcredits =>
      refine iff_of_false ?_ fun h => h.1
      rintro ⟨db', hall, -⟩
      obtain ⟨db₁, h, -⟩ := processAll_cons_eq_ok.mp hall
      exact not_processed_bridged hidx hconfined h
  | approve hstored hcredits howners =>
      refine mirrored_of_followable trivial ?_
      refine mirrored_singleton (hshows.hasRow hstored) hbridge fun db₁ h => ?_
      exact hshows.congr hcredits howners (credits_of_approved h)
  | mint hstored hactive hcredits howners =>
      exact mirrored_of_followable trivial
        (mirrored_mint hstored hactive hcredits howners hshows hbridge)
  | oppose hstored hpending hdecides hcredits howners =>
      exact iff_of_false (not_mirrored_oppose hstored hpending hcredits hshows hbridge)
        fun h => hdecides h.1
  | reject hstored hdecides hrejected hcredits howners =>
      refine mirrored_of_followable hdecides ?_
      refine mirrored_singleton (hshows.hasRow hstored) hbridge fun db₁ h => ?_
      refine hshows.setStatus ?_ hstored hcredits howners hbridge h
      rw [hrejected]
      rfl
  | transfer hstored hcredits howners =>
      exact mirrored_of_followable trivial
        (mirrored_transferred hstored hcredits howners hshows hbridge)
  | retire hstored hactive hretired hcredits howners =>
      rw [mirrored_nil]
      exact iff_of_false (not_shows_retired hstored hactive hretired hcredits hshows)
        fun h => h.1

end Calls

/-! ## Batches of retirements -/

section Batches

variable {T : Type} {ch : Chain T} {env : Env} {client : DbClient} {feed : Feed ch}
  {R r owner : Address} {t t' : RetirementTracker} {l l' : Ledger T} {db : Mirror}

/-- A batch publishes its records, and the registry publishes nothing. -/
theorem retireAll_events {inputs : List RetireInput} {records : List RetirementRecord}
    (h : RetirementTracker.retireAll ch env r owner inputs t l = .ok (records, t', l')) :
    t'.events = t.events ++ records ∧ (l'.registries R).events = (l.registries R).events := by
  induction inputs generalizing t l records with
  | nil =>
      obtain ⟨rfl, rfl, rfl⟩ := RetirementTracker.retireAll_nil_eq_ok.mp h
      exact ⟨(List.append_nil _).symm, rfl⟩
  | cons input inputs ih =>
      obtain ⟨record, t₁, l₁, rest, hitem, hrest, rfl⟩ :=
        RetirementTracker.retireAll_cons_eq_ok.mp h
      obtain ⟨credit, -, rfl, rfl, rfl⟩ := RetirementTracker.retireItem_eq_ok.mp hitem
      obtain ⟨htracker, hregistry⟩ := ih hrest
      constructor
      · rw [htracker, ← List.singleton_append, ← List.append_assoc]
        rfl
      · rw [hregistry]
        by_cases hr : R = r
        · subst hr
          rw [Ledger.registry_writeRegistry_self]
          rfl
        · rw [Ledger.registry_writeRegistry_ne hr]

/-- **Batches.**  By induction on the items: each finds the row of its credit and retires it. -/
theorem mirrored_retireAll {inputs : List RetireInput} {records : List RetirementRecord}
    (h : RetirementTracker.retireAll ch env r owner inputs t l = .ok (records, t', l'))
    (hwired : ch.isRegistry r = true → r = R) (hshows : Shows feed.sdk (l.registries R) db)
    (hbridge : db.bridgeRecords = []) :
    Mirrored client feed.sdk (l'.registries R)
        (records.map fun record => .creditRetired (feed.retiredEvent record)) db ↔
      ∀ e ∈ records.map fun record => SyncEvent.creditRetired (feed.retiredEvent record),
        Fits client e := by
  induction inputs generalizing t l records db with
  | nil =>
      obtain ⟨rfl, rfl, rfl⟩ := RetirementTracker.retireAll_nil_eq_ok.mp h
      rw [List.map_nil, mirrored_nil]
      exact iff_of_true hshows (List.forall_mem_nil _)
  | cons input inputs ih =>
      obtain ⟨record, t₁, l₁, rest, hitem, hrest, rfl⟩ :=
        RetirementTracker.retireAll_cons_eq_ok.mp h
      obtain ⟨credit, hchecks, rfl, rfl, rfl⟩ := RetirementTracker.retireItem_eq_ok.mp hitem
      obtain rfl := hwired hchecks.isRegistry
      rw [List.map_cons]
      refine mirrored_cons (hshows.hasRow hchecks.stored) hbridge fun db₁ he => ?_
      refine ih hrest ?_ (processEvent_bridgeRecords he hbridge)
      rw [Ledger.registry_writeRegistry_self]
      exact hshows.setStatus rfl hchecks.stored rfl rfl hbridge he

end Batches

/-! ## Transactions -/

section Transactions

variable {T : Type} {ch : Chain T}

/-- The mirror of the registry at `R` can follow an accepted call. -/
def FollowableCall (R : Address) (w : World T) : Call → Prop
  | .registry r call => r = R → Followable (w.registry R) call
  | .bridge (.bridgeIn ..) => False
  | _ => True

instance (R : Address) (w : World T) (call : Call) : Decidable (FollowableCall R w call) :=
  match call with
  | .registry r call => inferInstanceAs (Decidable (r = R → Followable (w.registry R) call))
  | .marketplace _ => isTrue trivial
  | .tracker _ => isTrue trivial
  | .bridge (.bridgeIn ..) => isFalse id
  | .bridge (.init ..) | .bridge (.bridgeOut ..) => isTrue trivial
  | .bridge (.verifyProof ..) | .bridge (.updateRegistryRoot ..) => isTrue trivial
  | .bridge (.getRegistryRoot ..) => isTrue trivial

/-- If the transaction is accepted, then its call can be followed and its events fit. -/
def KeepsUp (client : DbClient) (feed : Feed ch) (R : Address) (w : World T) (tx : Tx ch) : Prop :=
  World.Succeeds ch w tx →
    FollowableCall R w tx.call ∧ ∀ e ∈ feed.syncEvents R w tx, Fits client e

/-- What the mirror of the registry at `R` keeps, apart from the agreement. -/
structure Tracked (ch : Chain T) (R : Address) (w : World T) (db : Mirror) : Prop where
  indexed : (w.registry R).CreditsIndexed
  tracker : World.WiredWithin ch R .tracker w
  bridge : World.WiredWithin ch R .bridge w
  confined : Confined (w.registry R) db
  noBridgeRecords : db.bridgeRecords = []

variable {client : DbClient} {feed : Feed ch} {R : Address} {w w' : World T} {tx : Tx ch}
  {db : Mirror}

/-- A call that the transaction makes of one registry. -/
theorem mirrored_writeRegistry {r : Address} {s : CreditRegistry} {l : Ledger T} {env : Env}
    {call : CreditRegistry.Call}
    (hexec : CreditRegistry.exec ch.sha256 env (l.registries r) call = .ok s)
    (hidx : (l.registries R).CreditsIndexed) (hshows : Shows feed.sdk (l.registries R) db)
    (hconfined : Confined (l.registries R) db) (hbridge : db.bridgeRecords = []) :
    Mirrored client feed.sdk ((l.writeRegistry r s).registries R)
        (feed.registryEvents tx (l.registries R) ((l.writeRegistry r s).registries R)) db ↔
      (r = R → Followable (l.registries R) call) ∧
        ∀ e ∈ feed.registryEvents tx (l.registries R) ((l.writeRegistry r s).registries R),
          Fits client e := by
  by_cases hr : R = r
  · subst hr
    rw [Ledger.registry_writeRegistry_self, forall_prop_of_true rfl]
    exact mirrored_call (feed.callFeed_of_exec tx hexec) hidx hshows hconfined hbridge
  · rw [Ledger.registry_writeRegistry_ne hr, Feed.registryEvents_self, mirrored_nil]
    exact iff_of_true hshows ⟨fun heq => absurd heq.symm hr, List.forall_mem_nil _⟩

theorem mirrored_of_follow {call : Call} {s : CreditRegistry} {events : List SyncEvent}
    (hcall : FollowableCall R w call)
    (h : Mirrored client feed.sdk s events db ↔ ∀ e ∈ events, Fits client e) :
    Mirrored client feed.sdk s events db ↔
      FollowableCall R w call ∧ ∀ e ∈ events, Fits client e := by
  rw [h, and_iff_right hcall]

/-- A transfer that the marketplace asks a registry for. -/
theorem mirrored_transfer {r fromAddr toAddr : Address} {id : ℕ} {s : CreditRegistry}
    {l : Ledger T} {env : Env}
    (hexec : CreditRegistry.exec ch.sha256 env (l.registries r)
      (.transferCredit fromAddr toAddr id) = .ok s)
    (hidx : (l.registries R).CreditsIndexed) (hshows : Shows feed.sdk (l.registries R) db)
    (hconfined : Confined (l.registries R) db) (hbridge : db.bridgeRecords = []) :
    Mirrored client feed.sdk ((l.writeRegistry r s).registries R)
        (feed.registryEvents tx (l.registries R) ((l.writeRegistry r s).registries R)) db ↔
      ∀ e ∈ feed.registryEvents tx (l.registries R) ((l.writeRegistry r s).registries R),
        Fits client e := by
  rw [mirrored_writeRegistry hexec hidx hshows hconfined hbridge]
  exact and_iff_right fun _ => trivial

/-- A transaction that publishes nothing and keeps the registry. -/
theorem mirrored_silent (hshows : Shows feed.sdk (w'.registry R) db)
    (hregistry : (w'.registry R).events = (w.registry R).events)
    (htracker : w'.tracker.events = w.tracker.events)
    (hbridge : w'.bridge.events = w.bridge.events) :
    Mirrored client feed.sdk (w'.registry R) (feed.worldEvents tx R w w') db ↔
      ∀ e ∈ feed.worldEvents tx R w w', Fits client e := by
  have hevents : feed.worldEvents tx R w w' = [] := by
    rw [feed.worldEvents_of_append tx R w w' [] [] [] (by rw [hregistry, List.append_nil])
      (by rw [htracker, List.append_nil]) (by rw [hbridge, List.append_nil])]
    rfl
  rw [hevents, mirrored_nil]
  exact iff_of_true hshows (List.forall_mem_nil _)

/-- A bridged mint is not mirrored. -/
theorem not_mirrored_bridgeIn {bridger : Address} {metadata : CreditMetadata} {env : Env}
    {s s' : CreditRegistry} {rest : List SyncEvent}
    (hexec : CreditRegistry.exec ch.sha256 env s
      (.mintBridged (ch.address .bridge) bridger metadata) = .ok s')
    (hidx : s.CreditsIndexed) (hconfined : Confined s db) :
    ¬ Mirrored client feed.sdk s' (feed.registryEvents tx s s' ++ rest) db := by
  rintro ⟨db', hall, -⟩
  obtain ⟨db₁, hmint, -⟩ := processAll_append_eq_ok.mp hall
  have hfeed := feed.callFeed_of_exec tx hexec
  generalize feed.registryEvents tx s s' = events at hfeed hmint
  cases hfeed with
  | quiet _ _ hquiet => exact hquiet.2.1 _ _ _ rfl
  | bridged _ =>
      obtain ⟨db₂, h, -⟩ := processAll_cons_eq_ok.mp hmint
      exact not_processed_bridged hidx hconfined h

/-- Every call of the marketplace is followed: it publishes what the transfer it asks for
publishes. -/
theorem mirrored_marketplace {call : Marketplace.Call} {m : Marketplace} {l : Ledger T}
    (hchange : Marketplace.MarketplaceChange ch tx.env w.marketplace w.ledger m l call)
    (htracked : Tracked ch R w db) (hshows : Shows feed.sdk (w.registry R) db) :
    Mirrored client feed.sdk (l.registries R)
        (feed.worldEvents tx R w { w with marketplace := m, ledger := l }) db ↔
      ∀ e ∈ feed.worldEvents tx R w { w with marketplace := m, ledger := l }, Fits client e := by
  obtain ⟨hidx, -, -, hconfined, hbridge⟩ := htracked
  cases hchange with
  | keep _ hl _ =>
      subst hl
      exact mirrored_silent hshows rfl rfl rfl
  | init _ _ hl =>
      subst hl
      exact mirrored_silent hshows rfl rfl rfl
  | create hchecks _ hl =>
      subst hl
      rw [feed.worldEvents_ledger tx]
      exact mirrored_transfer (hchecks.transferable.exec_eq _) hidx hshows hconfined hbridge
  | @buy _ _ _ _ _ tokens hchecks _ hl =>
      subst hl
      rw [feed.worldEvents_ledger tx]
      -- the payment comes first and leaves the registries
      exact mirrored_transfer (l := { w.ledger with tokens := tokens })
        (hchecks.transferable.exec_eq _) hidx hshows hconfined hbridge
  | cancel hchecks _ hl =>
      subst hl
      rw [feed.worldEvents_ledger tx]
      exact mirrored_transfer (hchecks.transferable.exec_eq _) hidx hshows hconfined hbridge

/-- Every call of the tracker is followed: it publishes the retirements of its batch. -/
theorem mirrored_tracker {call : RetirementTracker.Call} {t : RetirementTracker} {l : Ledger T}
    (hchange : RetirementTracker.TrackerChange ch tx.env w.tracker w.ledger t l call)
    (htracked : Tracked ch R w db) (hshows : Shows feed.sdk (w.registry R) db) :
    Mirrored client feed.sdk (l.registries R)
        (feed.worldEvents tx R w { w with tracker := t, ledger := l }) db ↔
      ∀ e ∈ feed.worldEvents tx R w { w with tracker := t, ledger := l }, Fits client e := by
  cases hchange with
  | keep ht hl _ =>
      subst ht hl
      exact mirrored_silent hshows rfl rfl rfl
  | init _ ht hl =>
      subst ht hl
      exact mirrored_silent hshows rfl rfl rfl
  | @retire _ r owner records _ _ hwired hall =>
      obtain ⟨hrecords, hregistry⟩ := retireAll_events (R := R) hall
      have hevents := feed.worldEvents_of_append tx R w { w with tracker := t, ledger := l }
        [] records [] (hregistry.trans (List.append_nil _).symm) hrecords
        (List.append_nil _).symm
      rw [List.filterMap_nil, List.nil_append, List.map_nil, List.append_nil] at hevents
      rw [hevents]
      exact mirrored_retireAll hall (htracked.tracker r hwired) hshows htracked.noBridgeRecords

/-- A new root of a registry concerns no credit. -/
theorem mirrored_updateRoot {registry : SorobanString} {newRoot : Bytes32} {b : MerkleBridge}
    (hb : b.events = w.bridge.events ++ [.rootUpdated registry newRoot])
    (htracked : Tracked ch R w db) (hshows : Shows feed.sdk (w.registry R) db) :
    Mirrored client feed.sdk (w.registry R) (feed.worldEvents tx R w { w with bridge := b }) db ↔
      ∀ e ∈ feed.worldEvents tx R w { w with bridge := b }, Fits client e := by
  have hevents := feed.worldEvents_of_append tx R w { w with bridge := b } [] []
    [.rootUpdated registry newRoot] (List.append_nil _).symm (List.append_nil _).symm hb
  rw [hevents]
  refine mirrored_singleton trivial htracked.noBridgeRecords fun db₁ h => ?_
  obtain ⟨-, rfl⟩ := pure_eq_ok.mp h
  exact hshows

/-- A credit that leaves over the bridge is retired in the registry and in its row. -/
theorem mirrored_bridgeOut {owner : Address} {id : ℕ} {credit : CreditMetadata}
    {b : MerkleBridge} {l : Ledger T} (hstored : (w.registry R).credits id = some credit)
    (hb : b.events = w.bridge.events ++ [.bridgeOut id owner])
    (hl : l.registries R = (w.registry R).writeCredit id { credit with status := .retired })
    (htracked : Tracked ch R w db) (hshows : Shows feed.sdk (w.registry R) db) :
    Mirrored client feed.sdk (l.registries R)
        (feed.worldEvents tx R w { w with bridge := b, ledger := l }) db ↔
      ∀ e ∈ feed.worldEvents tx R w { w with bridge := b, ledger := l }, Fits client e := by
  have hevents := feed.worldEvents_of_append tx R w { w with bridge := b, ledger := l } [] []
    [.bridgeOut id owner] ((congrArg CreditRegistry.events hl).trans (List.append_nil _).symm)
    (List.append_nil _).symm hb
  rw [hevents]
  refine mirrored_singleton (hshows.hasRow hstored) htracked.noBridgeRecords fun db₁ h => ?_
  rw [hl]
  exact hshows.setStatus rfl hstored rfl rfl htracked.noBridgeRecords h

/-- A call of the bridge is followed unless it brings a credit in. -/
theorem mirrored_bridge {call : MerkleBridge.Call} {b : MerkleBridge} {l : Ledger T}
    (hchange : MerkleBridge.BridgeChange ch tx.env w.bridge w.ledger b l call)
    (htracked : Tracked ch R w db) (hshows : Shows feed.sdk (w.registry R) db) :
    Mirrored client feed.sdk (l.registries R)
        (feed.worldEvents tx R w { w with bridge := b, ledger := l }) db ↔
      FollowableCall R w (.bridge call) ∧
        ∀ e ∈ feed.worldEvents tx R w { w with bridge := b, ledger := l }, Fits client e := by
  cases hchange with
  | keep hb hl hread =>
      subst hb hl
      refine mirrored_of_follow ?_ (mirrored_silent hshows rfl rfl rfl)
      rcases hread with ⟨_, _, _, rfl⟩ | ⟨_, rfl⟩
      · trivial
      · trivial
  | init _ hb hl =>
      subst hb hl
      exact mirrored_of_follow trivial (mirrored_silent hshows rfl rfl rfl)
  | updateRoot _ _ hb hl =>
      subst hb hl
      exact mirrored_of_follow trivial (mirrored_updateRoot rfl htracked hshows)
  | @bridgeIn bridger sourceRegistry sourceSerial leaf proof metadata r id s hchecks hb hl =>
      subst hb hl
      refine iff_of_false ?_ fun h => h.1
      obtain rfl := htracked.bridge r hchecks.wired hchecks.isRegistry
      unfold Feed.worldEvents World.registry
      rw [Ledger.registry_writeRegistry_self]
      exact not_mirrored_bridgeIn hchecks.exec_eq htracked.indexed htracked.confined
  | @bridgeOut owner id r credit hchecks hb hl =>
      obtain rfl := htracked.bridge r hchecks.wired hchecks.isRegistry
      refine mirrored_of_follow trivial (mirrored_bridgeOut hchecks.stored
        (congrArg MerkleBridge.events hb) ?_ htracked hshows)
      rw [hl, Ledger.registry_writeRegistry_self]
      rfl

/-- **Transactions.**  A transaction that takes effect is mirrored exactly when its call can be
followed and its events fit. -/
theorem mirrored_step (hexec : World.exec ch w tx = .ok w') (htracked : Tracked ch R w db)
    (hshows : Shows feed.sdk (w.registry R) db) :
    Mirrored client feed.sdk (w'.registry R) (feed.worldEvents tx R w w') db ↔
      FollowableCall R w tx.call ∧ ∀ e ∈ feed.worldEvents tx R w w', Fits client e := by
  have hstep := World.exec_step hexec
  generalize tx.call = call at hstep
  cases hstep with
  | registry _ hcall =>
      rw [feed.worldEvents_ledger tx]
      exact mirrored_writeRegistry hcall htracked.indexed hshows htracked.confined
        htracked.noBridgeRecords
  | marketplace hchange =>
      exact mirrored_of_follow trivial (mirrored_marketplace hchange htracked hshows)
  | tracker hchange =>
      exact mirrored_of_follow trivial (mirrored_tracker hchange htracked hshows)
  | bridge hchange => exact mirrored_bridge hchange htracked hshows

/-- A transaction is mirrored exactly when the mirror keeps up with it. -/
theorem mirrored_apply_iff (htracked : Tracked ch R w db)
    (hshows : Shows feed.sdk (w.registry R) db) :
    Mirrored client feed.sdk ((World.apply ch w tx).registry R) (feed.syncEvents R w tx) db ↔
      KeepsUp client feed R w tx := by
  unfold KeepsUp
  by_cases hsucc : World.Succeeds ch w tx
  · rw [forall_prop_of_true hsucc]
    exact mirrored_step hsucc.exec_eq htracked hshows
  · rw [World.apply_of_not_succeeds hsucc, feed.syncEvents_of_not_succeeds tx hsucc, mirrored_nil]
    exact iff_of_true hshows fun h => absurd h hsucc

/-- Rows appear with their credits, and nothing else that is tracked changes. -/
theorem Tracked.apply {db' : Mirror} (htracked : Tracked ch R w db)
    (hinits : World.InitsOn R .tracker w tx ∧ World.InitsOn R .bridge w tx)
    (h : processAll client (feed.syncEvents R w tx) db = .ok () db') :
    Tracked ch R (World.apply ch w tx) db' := by
  obtain ⟨hidx, htracker, hbridged, hconfined, hbridge⟩ := htracked
  refine ⟨World.indexed_apply hidx, htracker.apply hinits.1, hbridged.apply hinits.2, ?_,
    processAll_bridgeRecords h hbridge⟩
  intro c hc
  rcases processAll_rows h hc with hold | ⟨data, hmem, hdata⟩
  · obtain ⟨id, rfl, hsome⟩ := hconfined c hold
    obtain ⟨m, hm⟩ := Option.isSome_iff_exists.mp hsome
    obtain ⟨m', hm', -⟩ := World.credit_reaches hidx hm tx
    exact ⟨id, rfl, by rw [hm']; rfl⟩
  · obtain ⟨id, hid, hsome⟩ := feed.credit_of_mem_worldEvents tx hmem
    rw [hid] at hdata
    exact ⟨id, eq_of_intColumn_natCast hdata, hsome⟩

end Transactions

/-! ## Runs -/

section Runs

variable {T : Type} {ch : Chain T}

/-- The indexer as a follower of the chain. -/
def follower (client : DbClient) : Follower SyncEvent Mirror where
  Processes events db db' := processAll client events db = .ok () db'
  processes_nil _ _ := processAll_nil_eq_ok
  processes_append _ _ _ _ := processAll_append_eq_ok
  functional events db db₁ db₂ h₁ h₂ := by
    rw [h₁] at h₂
    cases h₂
    rfl

theorem tracked_genesis (R : Address) (tokens : T) :
    Tracked ch R (World.genesis tokens) {} :=
  ⟨World.indexed_genesis R tokens, World.wiredWithin_genesis R .tracker tokens,
    World.wiredWithin_genesis R .bridge tokens, nofun, rfl⟩

/-- An indexer that starts empty has processed all the events, and shows every credit with its
status and its owner, after every transaction of a run exactly when it keeps up with each. -/
theorem follows_chain_iff (client : DbClient) (feed : Feed ch) (R : Address) (tokens : T)
    (ts : List (Tx ch))
    (hinits : Always (World.apply ch) (fun w tx => World.InitsOn R .tracker w tx ∧
      World.InitsOn R .bridge w tx) (World.genesis tokens) ts) :
    (∀ us, us <+: ts → ∃ db,
      processAll client (emitted (World.apply ch) (feed.syncEvents R) (World.genesis tokens) us) {}
        = .ok () db ∧
      Shows feed.sdk ((run (World.apply ch) (World.genesis tokens) us).registry R) db) ↔
      Always (World.apply ch) (KeepsUp client feed R) (World.genesis tokens) ts := by
  have hgenesis : Shows feed.sdk ((World.genesis tokens).registry R) {} := nofun
  show (follower client).Follows (World.apply ch) (feed.syncEvents R)
    (fun w db => Shows feed.sdk (w.registry R) db) (World.genesis tokens) {} ts ↔ _
  refine Follower.follows_iff_always (J := Tracked ch R) ?_ ?_ (tracked_genesis R tokens)
    hgenesis hinits
  · intro w tx db db' htracked hinit h
    exact htracked.apply hinit h
  · intro w tx db htracked _ hshows
    exact mirrored_apply_iff htracked hshows

end Runs

end Mirror

namespace Sample

/-- A time of less than ten seconds. -/
def secondText (n : ℕ) : String := "1970-01-01T00:00:0" ++ toString n ++ "Z"

/-- A database that takes every text, and an engine that reads the first ten seconds. -/
def secondsClient : DbClient where
  storesText _ := true
  dateOfText s := ((List.range 10).find? fun n => secondText n = s).map fun n => (1000 * n : ℤ)

def feed : Feed chain where
  sdk := sdk
  dateText := secondText
  txHash tx := toString tx.timestamp

/-- One of two verifiers rejects a credit whose rejection takes both. -/
def opposed : List (Tx chain) :=
  [tx 0 1 (.registry registry (.init (.account 0) 1 2)),
   tx 0 2 (.registry registry (.addVerifier (.account 0) (.account 1))),
   tx 2 3 (.registry registry (.submitCredit (.account 2) metadata [73])),
   tx 1 4 (.registry registry (.rejectCredit (.account 1) 1 [78]))]

/-- Credit 1 is minted and retired, and credit 2 is rejected. -/
def settled : List (Tx chain) :=
  setup ++
    [tx 2 11 (.registry registry (.submitCredit (.account 2) metadata [73])),
     tx 1 12 (.registry registry (.rejectCredit (.account 1) 2 [78])),
     retireOne]

/-- The status of a credit in the database that is left. -/
def statusAfter (r : EStateM.Result DbError Mirror Unit) (c : ℤ) : Option CreditStatus :=
  match r with
  | .ok _ db => db.creditStatus c
  | .error _ db => db.creditStatus c

end Sample

open Sample in
/-- Credits that are minted, rejected and retired are followed. -/
theorem Mirror.follows_chain_iff_settled :
    ∃ db, Mirror.processAll secondsClient
        (emitted (World.apply chain) (feed.syncEvents registry) start settled) {} = .ok () db ∧
      Mirror.Shows sdk ((run (World.apply chain) start settled).registry registry) db := by
  refine (Mirror.follows_chain_iff secondsClient feed registry _ settled ?_).mpr ?_ settled
    List.prefix_rfl
  · exact (World.always_initsOn (by decide) _).and (World.always_initsOn (by decide) _)
  · have hkeeps : ((steps (World.apply chain) start settled).all fun p => decide
        (Mirror.FollowableCall registry p.1 p.2.call ∧
          ∀ e ∈ feed.syncEvents registry p.1 p.2, Mirror.Fits secondsClient e)) = true := by
      decide +kernel
    intro p hp _
    exact of_decide_eq_true (List.all_eq_true.mp hkeeps p hp)

open Sample in
/-- A credit that one of two verifiers rejects is pending on chain and rejected in its row. -/
theorem Mirror.opposed_not_shown :
    ¬ ∀ (client : DbClient) (feed : Feed chain) (R : Address) (ts : List (Tx chain)),
      Always (World.apply chain) (fun w tx => World.InitsOn R .tracker w tx ∧
        World.InitsOn R .bridge w tx) start ts →
      ∀ us, us <+: ts → ∃ db,
        Mirror.processAll client (emitted (World.apply chain) (feed.syncEvents R) start us) {}
          = .ok () db ∧
        Mirror.Shows feed.sdk ((run (World.apply chain) start us).registry R) db := by
  intro h
  obtain ⟨db, hdb, hshows⟩ := h secondsClient feed registry opposed
    ((World.always_initsOn (by decide) _).and (World.always_initsOn (by decide) _)) opposed
    List.prefix_rfl
  have hstatus : statusAfter (Mirror.processAll secondsClient
      (emitted (World.apply chain) (feed.syncEvents registry) start opposed) {}) 1 =
        some .rejected := by
    decide +kernel
  rw [hdb] at hstatus
  have hpending : (((run (World.apply chain) start opposed).registry registry).credits 1).map
      CreditMetadata.status = some .pending := by
    decide +kernel
  obtain ⟨m, hm, hmstatus⟩ := Option.map_eq_some_iff.mp hpending
  obtain ⟨row, -, hrow, -, hshown, -⟩ := hshows 1 m hm
  have hrejected : row.status = .rejected := by
    have hrow' : db.creditStatus 1 = some row.status := congrArg (Option.map CreditRow.status) hrow
    exact Option.some.inj (hrow'.symm.trans hstatus)
  rw [hmstatus, hrejected] at hshown
  cases hshown

end CarbonVeritas
