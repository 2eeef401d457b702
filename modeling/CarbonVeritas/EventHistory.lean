/-
# The events of a registry as an audit log

Whoever reads the events of a registry in their order learns what the registry has stored of a
credit.  `CreditView.observe` reads one event and fails on an event that does not fit the ones
before it: a second submission or mint, a second vote of a verifier, a vote on a minted credit,
a mint that neither follows an approval nor opens the history, a transfer by somebody else than
the holder.

`events_consistent` : the events of a run are read without a failure, and the view that results
is the stored credit, its votes and its owner.  The recipient of a bridged credit is the one fact
that the events leave out, up to the first transfer of the credit.
-/
import CarbonVeritas.BridgeOrigin

namespace CarbonVeritas

open Transition

/-! ## Reading the events -/

/-- What the events of a credit tell. -/
structure CreditView where
  issuer : Option Address := none
  votes : List (Address × Bool) := []
  minted : Bool := false
  holder : Option Address := none
  deriving DecidableEq

namespace CreditView

/-- A vote follows the submission and precedes the mint, and a verifier votes once. -/
def vote (v : CreditView) (verifier : Address) (approved : Bool) : Option CreditView :=
  if v.issuer ≠ none ∧ v.minted = false ∧ ∀ p ∈ v.votes, p.1 ≠ verifier then
    some { v with votes := v.votes ++ [(verifier, approved)] }
  else none

/-- Nothing is known of a bridged credit before its mint; a submitted one is minted by the
approval before. -/
def mint (v : CreditView) : Option CreditView :=
  if v = {} ∨ v.minted = false ∧ ∃ p ∈ v.votes.getLast?, p.2 = true then
    some { v with minted := true }
  else none

def transfer (v : CreditView) (fromAddr toAddr : Address) : Option CreditView :=
  if v.minted = true ∧ (v.holder = none ∨ v.holder = some fromAddr) then
    some { v with holder := some toAddr }
  else none

/-- Read one event. -/
def observe (id : ℕ) (v : CreditView) : RegistryEvent → Option CreditView
  | .creditSubmitted i issuer _ =>
      if i = id then
        if v = {} then some { v with issuer := some issuer, holder := some issuer } else none
      else some v
  | .creditApproved i verifier => if i = id then v.vote verifier true else some v
  | .creditRejected i verifier => if i = id then v.vote verifier false else some v
  | .creditMinted i => if i = id then v.mint else some v
  | .creditTransferred i fromAddr toAddr =>
      if i = id then v.transfer fromAddr toAddr else some v
  | .configUpdated _ => some v

/-- Read the events in their order. -/
def ofEvents (id : ℕ) (events : List RegistryEvent) : Option CreditView :=
  events.foldlM (observe id) {}

end CreditView

namespace CreditRegistry

variable {sha256 : (n : ℕ) → BitVec n → Bytes32} {env : Env} {s s' : CreditRegistry} {id : ℕ}
  {v : CreditView}

/-- The view tells what is stored of the credit. -/
structure Shows (s : CreditRegistry) (id : ℕ) (v : CreditView) : Prop where
  unknown : v = {} ↔ s.credits id = none
  issuer : ∀ a, v.issuer = some a ↔ id ∈ s.issuerCredits a
  votes : v.votes = (s.approvals id).map fun r => (r.verifier, r.approved)
  minted : v.minted = true ↔ Live s id
  /-- The holder is known of every credit that was submitted. -/
  known : v.issuer ≠ none → v.holder ≠ none
  holder : ∀ a, v.holder = some a → s.owners id = some a
  /-- A credit that is not minted was submitted. -/
  submitted : s.credits id ≠ none → v.minted = false → v.issuer ≠ none

/-! ## One step -/

/-- The events of a step carry on the view of the credit. -/
def Follows (id : ℕ) (s s' : CreditRegistry) : Prop :=
  ∃ new, s'.events = s.events ++ new ∧ ∀ v, Shows s id v →
    ∃ v', new.foldlM (CreditView.observe id) v = some v' ∧ Shows s' id v'

theorem Follows.trans {s'' : CreditRegistry} (h : Follows id s s') (h' : Follows id s' s'') :
    Follows id s s'' := by
  obtain ⟨new, hevents, hview⟩ := h
  obtain ⟨new', hevents', hview'⟩ := h'
  refine ⟨new ++ new', by rw [hevents', hevents, List.append_assoc], fun v hv => ?_⟩
  obtain ⟨v', hread, hv'⟩ := hview v hv
  obtain ⟨v'', hread', hv''⟩ := hview' v' hv'
  refine ⟨v'', ?_, hv''⟩
  rw [List.foldlM_append, hread]
  exact hread'

theorem follows_silent (hevents : s'.events = s.events)
    (h : ∀ v, Shows s id v → Shows s' id v) : Follows id s s' :=
  ⟨[], by rw [hevents, List.append_nil], fun v hv => ⟨v, rfl, h v hv⟩⟩

theorem follows_event {e : RegistryEvent} (hevents : s'.events = s.events ++ [e])
    (h : ∀ v, Shows s id v → ∃ v', v.observe id e = some v' ∧ Shows s' id v') :
    Follows id s s' := by
  refine ⟨[e], hevents, fun v hv => ?_⟩
  obtain ⟨v', hread, hv'⟩ := h v hv
  refine ⟨v', ?_, hv'⟩
  rw [List.foldlM_cons, hread]
  rfl

/-- A step that leaves the credit leaves its view. -/
theorem Shows.frame (h : Shows s id v) (hcredits : s'.credits id = s.credits id)
    (howners : s'.owners id = s.owners id) (hlog : s'.approvals id = s.approvals id)
    (hissuers : ∀ a, id ∈ s'.issuerCredits a ↔ id ∈ s.issuerCredits a) : Shows s' id v where
  unknown := by rw [h.unknown, hcredits]
  issuer a := by rw [h.issuer, hissuers]
  votes := by rw [h.votes, hlog]
  minted := by
    rw [h.minted]
    unfold Live
    rw [hcredits]
  known := h.known
  holder a ha := by rw [howners, h.holder a ha]
  submitted := by
    rw [hcredits]
    exact h.submitted

theorem Shows.not_live_of_pending (h : Shows s id v) {m : CreditMetadata}
    (hm : s.credits id = some m) (hpending : m.status = .pending) : v.minted = false := by
  rw [← Bool.not_eq_true, h.minted]
  rintro ⟨m', hm', hstatus⟩
  obtain rfl := Option.some.inj (hm.symm.trans hm')
  simp [hpending] at hstatus

/-- The next credit is created: submitted by an issuer, or bridged in. -/
theorem follows_create {m : CreditMetadata} {a : Address} {e : RegistryEvent}
    (hidx : CreditsIndexed s) (hlogs : LogsStored s)
    (hevents : s'.events = s.events ++ [e])
    (hcredits : s'.credits = Function.update s.credits (s.creditCounter + 1) (some m))
    (howners : s'.owners = Function.update s.owners (s.creditCounter + 1) (some a))
    (hlog : s'.approvals = s.approvals)
    (hkind : (∃ hash, e = .creditSubmitted (s.creditCounter + 1) a hash) ∧ m.status = .pending ∧
        (∀ b, s'.issuerCredits b =
          if b = a then s.issuerCredits b ++ [s.creditCounter + 1] else s.issuerCredits b) ∨
      e = .creditMinted (s.creditCounter + 1) ∧ m.status = .active ∧
        s'.issuerCredits = s.issuerCredits) : Follows id s s' := by
  refine follows_event hevents fun v hv => ?_
  by_cases hid : id = s.creditCounter + 1
  · subst hid
    -- nothing is known of the new credit
    obtain rfl : v = {} := hv.unknown.mpr hidx.fresh.1
    have hempty : s.approvals (s.creditCounter + 1) = [] := hlogs _ hidx.fresh.1
    have hissuers : ∀ b, s.creditCounter + 1 ∉ s.issuerCredits b := fun b hb => by
      cases (hv.issuer b).mpr hb
    have hlive : Live s' (s.creditCounter + 1) ↔ m.status = .active ∨ m.status = .retired := by
      unfold Live
      rw [hcredits, Function.update_self]
      simp
    rcases hkind with ⟨⟨hash, rfl⟩, hpending, hlist⟩ | ⟨rfl, hactive, hlist⟩
    · refine ⟨{ issuer := some a, holder := some a }, by simp [CreditView.observe], ?_⟩
      exact {
        unknown := by simp [hcredits]
        issuer := fun b => by
          rw [hlist]
          by_cases hb : b = a
          · simp [hb]
          · simpa [hb, Ne.symm hb] using hissuers b
        votes := by simp [hlog, hempty]
        minted := by simp [hlive, hpending]
        known := by simp
        holder := fun b hb => by simpa [howners] using hb
        submitted := by simp }
    · refine ⟨{ minted := true }, by simp [CreditView.observe, CreditView.mint], ?_⟩
      exact {
        unknown := by simp [hcredits]
        issuer := fun b => by simpa [hlist] using hissuers b
        votes := by simp [hlog, hempty]
        minted := by simp [hlive, hactive]
        known := by simp
        holder := by simp
        submitted := by simp }
  · refine ⟨v, ?_, hv.frame (by rw [hcredits, Function.update_of_ne hid])
      (by rw [howners, Function.update_of_ne hid]) (by rw [hlog]) ?_⟩
    · rcases hkind with ⟨⟨hash, rfl⟩, -⟩ | ⟨rfl, -⟩
      · simp [CreditView.observe, Ne.symm hid]
      · simp [CreditView.observe, Ne.symm hid]
    · intro b
      rcases hkind with ⟨-, -, hlist⟩ | ⟨-, -, hlist⟩
      · rw [hlist]
        split_ifs with hb
        · simp [hid]
        · rfl
      · rw [hlist]

/-- A vote on a pending credit. -/
theorem follows_vote {verifier : Address} {i : ℕ} {approved : Bool} {comments : SorobanString}
    {credit : CreditMetadata} {e : RegistryEvent} (hvote : MayVote env s verifier i credit)
    (he : e = if approved then .creditApproved i verifier else .creditRejected i verifier) :
    Follows id s ((s.writeApproval i (voteRecord env verifier approved comments)).emit e) := by
  refine follows_event rfl fun v hv => ?_
  have hread : v.observe id e = if i = id then v.vote verifier approved else some v := by
    subst he
    cases approved <;> rfl
  rw [hread]
  by_cases hid : i = id
  · subst hid
    have hunminted := hv.not_live_of_pending hvote.stored hvote.pending
    have hissuer := hv.submitted (by simp [hvote.stored]) hunminted
    have hfirst : ∀ p ∈ v.votes, p.1 ≠ verifier := by
      intro p hp
      rw [hv.votes] at hp
      obtain ⟨r, hr, rfl⟩ := List.mem_map.mp hp
      exact hasApproval_eq_false.mp hvote.fresh r hr
    refine ⟨{ v with votes := v.votes ++ [(verifier, approved)] }, ?_, ?_⟩
    · rw [if_pos rfl]
      exact if_pos ⟨hissuer, hunminted, hfirst⟩
    · exact {
        unknown := by
          have hstored : s.credits i ≠ none := by simp [hvote.stored]
          refine iff_of_false (fun heq => ?_) hstored
          have hvotes := congrArg CreditView.votes heq
          simp at hvotes
        issuer := hv.issuer
        votes := by simp [hv.votes, voteRecord]
        minted := hv.minted
        known := hv.known
        holder := hv.holder
        submitted := hv.submitted }
  · refine ⟨v, if_neg hid, hv.frame rfl rfl ?_ fun _ => Iff.rfl⟩
    exact Function.update_of_ne (Ne.symm hid) _ _

/-- The approval that reaches the threshold mints. -/
theorem follows_mint {i : ℕ} {r : ApprovalRecord} {log : List ApprovalRecord}
    {credit credit' : CreditMetadata} (hm : s.credits i = some credit)
    (hpending : credit.status = .pending) (hlog : s.approvals i = log ++ [r])
    (happroved : r.approved = true) (hactive : credit'.status = .active) :
    Follows id s ((s.writeCredit i credit').emit (.creditMinted i)) := by
  refine follows_event rfl fun v hv => ?_
  by_cases hid : i = id
  · subst hid
    have hunminted := hv.not_live_of_pending hm hpending
    have hlast : ∃ p ∈ v.votes.getLast?, p.2 = true := by
      rw [hv.votes, hlog]
      simp [happroved]
    refine ⟨{ v with minted := true }, ?_, ?_⟩
    · show (if i = i then v.mint else some v) = _
      rw [if_pos rfl]
      exact if_pos (Or.inr ⟨hunminted, hlast⟩)
    · exact {
        unknown := by
          refine iff_of_false (fun heq => ?_) (by simp)
          have hminted := congrArg CreditView.minted heq
          simp at hminted
        issuer := hv.issuer
        votes := hv.votes
        minted := by simp [Live, hactive]
        known := hv.known
        holder := hv.holder
        submitted := by simp }
  · have hne : id ≠ i := Ne.symm hid
    refine ⟨v, by simp [CreditView.observe, hid], hv.frame ?_ rfl rfl fun _ => Iff.rfl⟩
    exact Function.update_of_ne hne _ _

/-- A decision or a retirement that publishes nothing leaves the view. -/
theorem follows_rewrite {i : ℕ} {credit credit' : CreditMetadata}
    (hm : s.credits i = some credit)
    (hsame : (credit'.status = .active ∨ credit'.status = .retired) ↔
      (credit.status = .active ∨ credit.status = .retired)) :
    Follows id s (s.writeCredit i credit') := by
  refine follows_silent rfl fun v hv => ?_
  by_cases hid : i = id
  · subst hid
    exact {
      unknown := by simp [hv.unknown, hm]
      issuer := hv.issuer
      votes := hv.votes
      minted := by simp [hv.minted, Live, hm, hsame]
      known := hv.known
      holder := hv.holder
      submitted := fun _ => hv.submitted (by simp [hm]) }
  · exact hv.frame (Function.update_of_ne (Ne.symm hid) _ _) rfl rfl fun _ => Iff.rfl

theorem follows_transfer {fromAddr toAddr : Address} {i : ℕ} {credit : CreditMetadata}
    (howner : s.owners i = some fromAddr) (hm : s.credits i = some credit)
    (hactive : credit.status = .active) : Follows id s (s.transferred fromAddr toAddr i) := by
  refine follows_event rfl fun v hv => ?_
  by_cases hid : i = id
  · subst hid
    have hminted : v.minted = true := hv.minted.mpr ⟨credit, hm, Or.inl hactive⟩
    have hholder : v.holder = none ∨ v.holder = some fromAddr := by
      cases hcase : v.holder with
      | none => exact Or.inl rfl
      | some a =>
          rw [← hv.holder a hcase, howner]
          exact Or.inr rfl
    refine ⟨{ v with holder := some toAddr }, ?_, ?_⟩
    · show (if i = i then v.transfer fromAddr toAddr else some v) = _
      rw [if_pos rfl]
      exact if_pos ⟨hminted, hholder⟩
    · exact {
        unknown := by simp [hm]
        issuer := hv.issuer
        votes := hv.votes
        minted := hv.minted
        known := by simp
        holder := fun a ha => by simpa using ha
        submitted := hv.submitted }
  · have hne : id ≠ i := Ne.symm hid
    refine ⟨v, by simp [CreditView.observe, hid], hv.frame rfl ?_ rfl fun _ => Iff.rfl⟩
    exact Function.update_of_ne hne _ _

/-- **One call.**  The events of a call carry on the view of every credit. -/
theorem exec_follows {call : Call} (hidx : CreditsIndexed s) (hlogs : LogsStored s)
    (hexec : exec sha256 env s call = .ok s') (id : ℕ) : Follows id s s' := by
  cases exec_returns hexec with
  | @submitCredit issuer metadata ipfsHash hauth hvalid =>
      refine follows_create (a := issuer) hidx hlogs rfl rfl rfl rfl (Or.inl ⟨⟨_, rfl⟩, rfl, ?_⟩)
      intro b
      by_cases hb : b = issuer
      · simp [hb]
      · simp [hb]
  | mintBridged hauth hbridge hvalid =>
      exact follows_create hidx hlogs rfl rfl rfl rfl (Or.inr ⟨rfl, rfl, rfl⟩)
  | approve hvote _ _ => exact follows_vote hvote rfl
  | @mint verifier i comments credit config hvote _ _ =>
      have hvoted : Follows id s (approvalRecorded env s verifier i comments) :=
        follows_vote hvote rfl
      have hlog : (approvalRecorded env s verifier i comments).approvals i =
          s.approvals i ++ [voteRecord env verifier true comments] :=
        Function.update_self _ _ _
      exact hvoted.trans (follows_mint hvote.stored hvote.pending hlog rfl rfl)
  | oppose hvote _ _ => exact follows_vote hvote rfl
  | @reject verifier i reason credit config hvote _ _ =>
      have hvoted : Follows id s (rejectionRecorded env s verifier i reason) :=
        follows_vote hvote rfl
      have hstored : (rejectionRecorded env s verifier i reason).credits i = some credit :=
        hvote.stored
      exact hvoted.trans (follows_rewrite hstored (by simp [hvote.pending]))
  | transferCredit _ howner hstored hactive => exact follows_transfer howner hstored hactive
  | markRetired _ _ hstored hactive => exact follows_rewrite hstored (by simp [hactive])
  | updateConfig _ _ _ =>
      refine follows_event (e := .configUpdated _) rfl fun v hv => ⟨v, rfl, ?_⟩
      exact hv.frame rfl rfl rfl fun _ => Iff.rfl
  | _ => exact follows_silent rfl fun v hv => hv.frame rfl rfl rfl fun _ => Iff.rfl

/-- The events read so far show the credit. -/
def Recorded (s : CreditRegistry) (id : ℕ) : Prop :=
  ∃ v, CreditView.ofEvents id s.events = some v ∧ Shows s id v

theorem recorded_empty (id : ℕ) : Recorded empty id := by
  refine ⟨{}, rfl, ?_⟩
  exact {
    unknown := by simp [empty]
    issuer := by simp [empty]
    votes := rfl
    minted := by simp [Live, empty]
    known := by simp
    holder := by simp
    submitted := by simp [empty] }

theorem Recorded.follows (h : Recorded s id) (hstep : Follows id s s') : Recorded s' id := by
  obtain ⟨v, hread, hv⟩ := h
  obtain ⟨new, hevents, hview⟩ := hstep
  obtain ⟨v', hread', hv'⟩ := hview v hv
  refine ⟨v', ?_, hv'⟩
  unfold CreditView.ofEvents at hread ⊢
  rw [hevents, List.foldlM_append, hread]
  exact hread'

end CreditRegistry

namespace World

variable {T : Type} {ch : Chain T} {w : World T}

theorem recorded_apply (tx : Tx ch) (R : Address) (id : ℕ)
    (h : (w.registry R).CreditsIndexed ∧ (w.registry R).LogsStored ∧ (w.registry R).Recorded id) :
    ((apply ch w tx).registry R).CreditsIndexed ∧ ((apply ch w tx).registry R).LogsStored ∧
      ((apply ch w tx).registry R).Recorded id := by
  refine apply_registry_rule
    (P := fun s => s.CreditsIndexed ∧ s.LogsStored ∧ s.Recorded id) ?_ h
  rintro s call s' ⟨hidx, hlogs, hrecorded⟩ - hok
  exact ⟨hidx.step hok, hlogs.exec hidx hok,
    hrecorded.follows (CreditRegistry.exec_follows hidx hlogs hok id)⟩

/-- **Audit log.**  In every run of the deployment the events of a registry are read without a
failure for each credit, and what they tell is what is stored: whether the credit exists, its
issuer, its votes in their order, whether it was minted, and its owner as soon as the credit was
submitted or transferred. -/
theorem events_consistent (ch : Chain T) (tokens : T) (ts : List (Tx ch)) (R : Address) (id : ℕ) :
    ∃ v, CreditView.ofEvents id ((run (apply ch) (genesis tokens) ts).registry R).events = some v ∧
      ((run (apply ch) (genesis tokens) ts).registry R).Shows id v := by
  have hinv : ((run (apply ch) (genesis tokens) ts).registry R).CreditsIndexed ∧
      ((run (apply ch) (genesis tokens) ts).registry R).LogsStored ∧
      ((run (apply ch) (genesis tokens) ts).registry R).Recorded id :=
    run_invariant (C := fun _ _ => True)
      (I := fun w : World T => (w.registry R).CreditsIndexed ∧ (w.registry R).LogsStored ∧
        (w.registry R).Recorded id)
      (fun w tx h _ => recorded_apply tx R id h)
      ⟨indexed_genesis R tokens, CreditRegistry.logsStored_empty,
        CreditRegistry.recorded_empty id⟩ fun _ _ => trivial
  exact hinv.2.2

end World

end CarbonVeritas
