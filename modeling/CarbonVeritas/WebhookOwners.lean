/-
# Webhooks and their owners

What the requests for webhooks do to each other, in every run of any requests of any users among
deliveries of events, in any order of their queries and with a database that fails at any of them.

* `only_owners_change` : a row of `Webhook` comes and goes by requests of its own user only, does
  not change in between, and a test is posted to a webhook of the user who asked for it;
* `lists_own` : a list shows the rows of the user at one moment of the request, in order;
* `removable_until_delivered` : a webhook can be removed until its first delivery is recorded, and
  never again; once it is removed nothing refers to it any more.
-/
import CarbonVeritas.WebhookRequests

namespace CarbonVeritas

open Program Transition TableQueries

variable {host : WebhooksHost} {s s' u : WebhookState host}

/-! ## One query -/

namespace WebhooksHost

variable {R : Type} {answer : Except PrismaError R × WebhookState host}

/-- An answer arrives when the database is up and it is no error. -/
theorem reach_eq_ok {r : R} :
    (host.reach s answer).1 = .ok r ↔ host.outage s.served = none ∧ answer.1 = .ok r := by
  unfold reach
  cases host.outage s.served with
  | some message => simp
  | none =>
      obtain ⟨a, s'⟩ := answer
      cases a <;> simp

/-- Whether it arrives or not, the tables are as before or as the answer leaves them. -/
theorem reach_snd (s : WebhookState host) (answer : Except PrismaError R × WebhookState host) :
    (host.reach s answer).2 = s.tick ∨ (host.reach s answer).2 = answer.2 := by
  unfold reach
  cases host.outage s.served with
  | some message => exact Or.inl rfl
  | none =>
      obtain ⟨a, s'⟩ := answer
      cases a <;> exact Or.inr rfl

/-- While the database is up, the answer arrives as it is. -/
theorem reach_of_answers {r : R} (h : host.outage s.served = none) :
    host.reach s (.ok r, s') = (.ok r, s') := by
  unfold reach
  rw [h]

/-- When an answer arrives, the tables are as the answer leaves them. -/
theorem reach_of_ok {r : R} (h : (host.reach s answer).1 = .ok r) :
    (host.reach s answer).2 = answer.2 := by
  obtain ⟨hout, -⟩ := reach_eq_ok.mp h
  unfold reach
  rw [hout]
  obtain ⟨a, s'⟩ := answer
  cases a <;> rfl

end WebhooksHost

/-- What a query leaves of the tables. -/
inductive WebhookChange (s : WebhookState host) : WebhooksQuery → WebhookState host → Prop where
  | keeps (q : WebhooksQuery) : WebhookChange s q s.tick
  | creates (userId url secret : String) (events : List String) :
      WebhookChange s (.createWebhook userId url secret events)
        (s.insertWebhook userId url secret events)
  | deletes (id : String) (h : ∀ d ∈ s.db.deliveries, d.webhookId ≠ id) :
      WebhookChange s (.deleteWebhook id) (s.deleteWebhook id h)
  | records (row : WebhookDelivery) (h : ∃ w ∈ s.db.webhooks, w.id = row.webhookId) :
      WebhookChange s (.delivery (.createDelivery row)) (s.insertDelivery row h)

/-- **Inversion.**  A query does one of four things. -/
theorem handle_change (s : WebhookState host) (q : WebhooksQuery) :
    WebhookChange s q (host.handle q s).2 := by
  have hreach : ∀ {R : Type} {answer : Except PrismaError R × WebhookState host},
      WebhookChange s q answer.2 → WebhookChange s q (host.reach s answer).2 := by
    intro R answer h
    rcases WebhooksHost.reach_snd s answer with hsnd | hsnd
    · rw [hsnd]
      exact .keeps q
    · rw [hsnd]
      exact h
  cases q with
  | randomBytes => exact .keeps _
  | createWebhook userId url secret events =>
      refine hreach ?_
      split_ifs with hu
      · exact .creates userId url secret events
      · exact .keeps _
  | findWebhooks userId => exact hreach (.keeps _)
  | findWebhookIds userId => exact hreach (.keeps _)
  | findWebhook id => exact hreach (.keeps _)
  | deleteWebhook id =>
      refine hreach ?_
      split_ifs with hw hd
      · exact .deletes id hd
      · exact .keeps _
      · exact .keeps _
  | findDeliveries ids eventType take => exact hreach (.keeps _)
  | delivery q =>
      cases q with
      | now => exact .keeps _
      | fetch post => exact .keeps _
      | sleep ms => exact .keeps _
      | createDelivery row =>
          show WebhookChange s _ (host.handleDelivery (.createDelivery row) s).2
          unfold WebhooksHost.handleDelivery
          dsimp only
          cases (host.outage s.served).or (host.refuses row) with
          | some message => exact .keeps _
          | none =>
              dsimp only
              split_ifs with hw
              · exact .records row hw
              · exact .keeps _

/-- What is so of every later state. -/
structure WebhookLater (s u : WebhookState host) : Prop where
  served_le : s.served ≤ u.served
  rows : ∀ w ∈ u.db.webhooks, w ∈ s.db.webhooks ∨ ∃ n, s.served ≤ n ∧ w.id = host.cuid n
  recorded : s.db.deliveries ⊆ u.db.deliveries

namespace WebhookLater

/-- No time passes. -/
theorem refl (s : WebhookState host) : WebhookLater s s :=
  ⟨le_rfl, fun _ hw => Or.inl hw, List.Subset.refl _⟩

/-- Later than later is later. -/
theorem trans (h : WebhookLater s s') (h' : WebhookLater s' u) : WebhookLater s u where
  served_le := h.served_le.trans h'.served_le
  rows w hw := by
    rcases h'.rows w hw with hold | ⟨n, hn, hid⟩
    · exact h.rows w hold
    · exact Or.inr ⟨n, h.served_le.trans hn, hid⟩
  recorded := List.Subset.trans h.recorded h'.recorded

/-- A query takes the tables to a later moment. -/
theorem handle (s : WebhookState host) (q : WebhooksQuery) :
    WebhookLater s (host.handle q s).2 := by
  have hchange := handle_change s q
  generalize (host.handle q s).2 = s' at hchange
  cases hchange with
  | keeps => exact ⟨Nat.le_succ _, fun _ hw => Or.inl hw, List.Subset.refl _⟩
  | creates userId url secret events =>
      refine ⟨Nat.le_succ _, fun w hw => ?_, List.Subset.refl _⟩
      rcases List.mem_append.mp hw with hold | hnew
      · exact Or.inl hold
      · rw [List.mem_singleton.mp hnew]
        exact Or.inr ⟨s.served, le_rfl, rfl⟩
  | deletes id h =>
      exact ⟨Nat.le_succ _, fun w hw => Or.inl (List.mem_of_mem_filter hw), List.Subset.refl _⟩
  | records row h =>
      exact ⟨Nat.le_succ _, fun _ hw => Or.inl hw, List.subset_append_left _ _⟩

/-- An id stands for one row for ever. -/
theorem same_row (h : WebhookLater s u) {w w' : WebhookRow} (hw : w ∈ s.db.webhooks)
    (hw' : w' ∈ u.db.webhooks) (hid : w'.id = w.id) : w' = w := by
  rcases h.rows w' hw' with hold | ⟨n, hn, hfresh⟩
  · exact List.inj_on_of_nodup_map s.db.distinct hold hw hid
  · obtain ⟨m, hm, hmid⟩ := s.numbered w hw
    have hsame := host.cuid_injective (hfresh.symm.trans (hid.trans hmid))
    omega

/-- An id that was in use and is not any more is not used again. -/
theorem gone (h : WebhookLater s s') (h' : WebhookLater s' u) {w : WebhookRow}
    (hw : w ∈ s.db.webhooks) (hgone : ∀ w' ∈ s'.db.webhooks, w'.id ≠ w.id) :
    ∀ w' ∈ u.db.webhooks, w'.id ≠ w.id := by
  intro w' hw' hid
  have hsame := (h.trans h').same_row hw hw' hid
  subst hsame
  rcases h'.rows w' hw' with hold | ⟨n, hn, hfresh⟩
  · exact hgone w' hold rfl
  · obtain ⟨m, hm, hmid⟩ := s.numbered w' hw
    have hle := h.served_le
    have hmn := host.cuid_injective (hmid.symm.trans hfresh)
    omega

/-- A webhook with a recorded delivery stays. -/
theorem kept (h : WebhookLater s u) {d : DeliveryRow} (hd : d ∈ s.db.deliveries)
    {w : WebhookRow} (hw : w ∈ s.db.webhooks) (hid : w.id = d.webhookId) : w ∈ u.db.webhooks := by
  obtain ⟨w', hw', hid'⟩ := u.db.referenced d (h.recorded hd)
  rwa [h.same_row hw hw' (hid'.trans hid.symm)] at hw'

end WebhookLater

/-! ## The answers -/

/-- A webhook that is found is in the table, under its id. -/
theorem findWebhook_ok {id : String} {w : WebhookRow}
    (h : (host.handle (.findWebhook id) s).1 = .ok (some w)) : w ∈ s.db.webhooks ∧ w.id = id := by
  obtain ⟨-, hanswer⟩ := WebhooksHost.reach_eq_ok.mp h
  have hfind : s.db.webhooks.find? (fun w => w.id = id) = some w := Except.ok.inj hanswer
  exact ⟨List.mem_of_find?_eq_some hfind, by simpa using List.find?_some hfind⟩

/-- A list of webhooks shows those of the user, latest first. -/
theorem findWebhooks_ok {userId : String} {rows : List WebhookRow}
    (h : (host.handle (.findWebhooks userId) s).1 = .ok rows) :
    Selects (Descending WebhookRow.createdAt) (fun w => w.userId = userId) s.db.webhooks rows := by
  obtain ⟨-, hanswer⟩ := WebhooksHost.reach_eq_ok.mp h
  obtain rfl := Except.ok.inj hanswer
  exact ⟨host.newestFirst_perm _ _ _, host.newestFirst_sorted _ _ _⟩

/-- The ids of the user's webhooks are read from the table. -/
theorem findWebhookIds_ok {userId : String} {ids : List String}
    (h : (host.handle (.findWebhookIds userId) s).1 = .ok ids) :
    ids = (s.db.webhooks.filter fun w => w.userId = userId).map fun w => w.id := by
  obtain ⟨-, hanswer⟩ := WebhooksHost.reach_eq_ok.mp h
  exact (Except.ok.inj hanswer).symm

/-- A list of deliveries answers the filter, latest first. -/
theorem findDeliveries_ok {ids : List String} {eventType : Option String} {take : ℕ}
    {rows : List DeliveryRow}
    (h : (host.handle (.findDeliveries ids eventType take) s).1 = .ok rows) :
    Answers (Descending DeliveryRow.createdAt) (selectsDelivery ids eventType) s.db.deliveries
      0 take rows := by
  obtain ⟨-, hanswer⟩ := WebhooksHost.reach_eq_ok.mp h
  obtain rfl := Except.ok.inj hanswer
  exact ⟨_, ⟨host.newestFirst_perm _ _ _, host.newestFirst_sorted _ _ _⟩, rfl⟩

/-- A webhook without deliveries is deleted when the database is up. -/
theorem handle_deleteWebhook {id : String} (hout : host.outage s.served = none)
    (hw : ∃ w ∈ s.db.webhooks, w.id = id) (hd : ∀ d ∈ s.db.deliveries, d.webhookId ≠ id) :
    host.handle (.deleteWebhook id) s = (.ok (), s.deleteWebhook id hd) := by
  show host.reach s _ = _
  rw [if_pos hw, dif_pos hd]
  exact WebhooksHost.reach_of_answers hout

/-- A webhook that was deleted was there and had no deliveries. -/
theorem deleteWebhook_ok {id : String} {r : Unit}
    (h : (host.handle (.deleteWebhook id) s).1 = .ok r) :
    (∃ w ∈ s.db.webhooks, w.id = id) ∧ ∃ hd : ∀ d ∈ s.db.deliveries, d.webhookId ≠ id,
      (host.handle (.deleteWebhook id) s).2 = s.deleteWebhook id hd := by
  obtain ⟨-, hanswer⟩ := WebhooksHost.reach_eq_ok.mp h
  have hsnd : (host.handle (.deleteWebhook id) s).2 = _ := WebhooksHost.reach_of_ok h
  by_cases hw : ∃ w ∈ s.db.webhooks, w.id = id
  · rw [if_pos hw] at hanswer hsnd
    by_cases hd : ∀ d ∈ s.db.deliveries, d.webhookId ≠ id
    · rw [dif_pos hd] at hsnd
      exact ⟨hw, hd, hsnd⟩
    · rw [dif_neg hd] at hanswer
      cases hanswer
  · rw [if_neg hw] at hanswer
    cases hanswer

/-! ## The queries of a request -/

/-- The queries that a request may make. -/
def WebhookRequest.Asks : WebhookRequest → WebhooksQuery → Prop
  | register userId dto, q =>
      q = .randomBytes ∨ ∃ secret, q = .createWebhook userId dto.url secret dto.events
  | list userId, q => q = .findWebhooks userId
  | remove _ webhookId, q => q = .findWebhook webhookId ∨ q = .deleteWebhook webhookId
  | test _ webhookId, q => q = .findWebhook webhookId ∨ ∃ d, q = .delivery d
  | deliveries userId _ _, q =>
      q = .findWebhookIds userId ∨ ∃ ids t take, q = .findDeliveries ids t take
  | deliver _ _ _, q => ∃ d, q = .delivery d

/-- Only a request to remove deletes a webhook. -/
theorem WebhookRequest.Asks.deleteWebhook {request : WebhookRequest} {id : String}
    (h : request.Asks (.deleteWebhook id)) : ∃ userId, request = .remove userId id := by
  cases request with
  | remove userId webhookId =>
      rcases h with hq | hq
      · cases hq
      · exact ⟨userId, by rw [WebhooksQuery.deleteWebhook.inj hq]⟩
  | _ => simp [WebhookRequest.Asks] at h

/-- Only a request to register creates a webhook, with its own address and events. -/
theorem WebhookRequest.Asks.createWebhook {request : WebhookRequest} {userId url secret : String}
    {events : List String} (h : request.Asks (.createWebhook userId url secret events)) :
    ∃ dto, request = .register userId dto ∧ url = dto.url ∧ events = dto.events := by
  cases request with
  | register userId' dto =>
      rcases h with hq | ⟨secret', hq⟩
      · cases hq
      · cases hq
        exact ⟨dto, rfl, rfl, rfl⟩
  | _ => simp [WebhookRequest.Asks] at h

/-- A delivery asks the queries of a delivery. -/
theorem uses_ofDelivery {α : Type} (p : WebhookProgram α) :
    (WebhooksService.ofDelivery p).Uses fun q => ∃ d, q = .delivery d := by
  induction p with
  | ret a => trivial
  | throw e => exact e.elim
  | query q next ih => exact ⟨⟨q, rfl⟩, ih⟩

/-- A request asks no other queries than it may. -/
theorem uses_program (request : WebhookRequest) :
    (request.program host).Uses request.Asks := by
  cases request with
  | register userId dto =>
      exact ⟨Or.inl rfl, fun secret => ⟨Or.inr ⟨secret, rfl⟩, fun _ => trivial⟩⟩
  | list userId => exact ⟨rfl, fun _ => trivial⟩
  | remove userId webhookId =>
      refine ⟨Or.inl rfl, fun webhook => (uses_orThrow _ _).bind fun w => ?_⟩
      exact (uses_throwIf _ _).bind fun _ => ⟨Or.inr rfl, fun _ => trivial⟩
  | test userId webhookId =>
      have hdelivery : ∀ {α : Type} (p : WebhookProgram α),
          (WebhooksService.ofDelivery p).Uses (WebhookRequest.test userId webhookId).Asks :=
        fun p => (uses_ofDelivery p).mono fun _ h => Or.inr h
      refine ⟨Or.inl rfl, fun webhook => (uses_orThrow _ _).bind fun w => ?_⟩
      refine (uses_throwIf _ _).bind fun _ => (hdelivery _).bind fun now => ?_
      exact (hdelivery _).bind fun _ => trivial
  | deliveries userId eventType limit =>
      refine ⟨Or.inl rfl, fun (ids : List String) => ?_⟩
      show Uses _ (if ids = [] then _ else _)
      split_ifs with hnil
      · trivial
      · exact ⟨Or.inr ⟨ids, _, _, rfl⟩, fun _ => trivial⟩
  | deliver webhook eventType payload => exact (uses_ofDelivery _).bind fun _ => trivial

/-! ## The check of the owner -/

/-- What `remove` and `sendTest` do with the webhook that they find. -/
def checked (userId : String) (k : WebhookRow → WebhooksProgram WebhookResponse)
    (webhook : Option WebhookRow) : WebhooksProgram WebhookResponse := do
  let webhook ← orThrow webhook (.notFound "Webhook not found")
  throwIf (webhook.userId ≠ userId) (.forbidden "You do not own this webhook")
  k webhook

/-- The check of a webhook throws, or goes on with the user's own. -/
theorem checked_cases (userId : String) (k : WebhookRow → WebhooksProgram WebhookResponse)
    (webhook : Option WebhookRow) :
    (∃ e, checked userId k webhook = .throw e) ∨
      ∃ w, webhook = some w ∧ w.userId = userId ∧ checked userId k webhook = k w := by
  cases webhook with
  | none => exact Or.inl ⟨_, rfl⟩
  | some w =>
      unfold checked
      rw [orThrow_some, ret_bind, throwIf_bind]
      split_ifs with hown
      · exact Or.inl ⟨_, rfl⟩
      · exact Or.inr ⟨w, rfl, not_not.mp hown, rfl⟩

namespace WebhookRequest

/-- A removal looks for the webhook, checks its user and deletes it. -/
theorem program_remove (userId webhookId : String) :
    (remove userId webhookId).program host =
      .query (.findWebhook webhookId) (checked userId fun _ =>
        .query (.deleteWebhook webhookId) fun _ => .ret (.deleted webhookId)) := rfl

/-- A test looks for the webhook, checks its user and delivers to it. -/
theorem program_test (userId webhookId : String) :
    (test userId webhookId).program host =
      .query (.findWebhook webhookId) (checked userId fun webhook => do
        let now ← WebhooksService.ofDelivery WebhooksService.Date.now
        let payload := WebhooksService.testPayload webhookId now
        let result ← WebhooksService.ofDelivery
          (WebhooksService.dispatch host.toWebhookHost webhook.url payload
            (WebhooksService.signPayload host.toWebhookHost webhook.secret payload))
        return .tested (decide (200 ≤ result.status ∧ result.status < 300)) result.status
          result.error webhookId) := rfl

end WebhookRequest

/-- A request that is past its check has found a webhook of its user. -/
theorem after_check {userId webhookId : String} {k : WebhookRow → WebhooksProgram WebhookResponse}
    {l : List (WebhookState host)} {p : WebhooksProgram WebhookResponse}
    (h : after host.handle l (.query (.findWebhook webhookId) (checked userId k)) = p)
    (hthrow : ∀ e, p ≠ .throw e) (hfind : ∀ next, p ≠ .query (.findWebhook webhookId) next) :
    ∃ s l' w, l = s :: l' ∧ w ∈ s.db.webhooks ∧ w.id = webhookId ∧ w.userId = userId ∧
      after host.handle [s] (.query (.findWebhook webhookId) (checked userId k)) = k w ∧
      after host.handle l' (k w) = p := by
  rcases after_query_cases host.handle l (.findWebhook webhookId) (checked userId k) with
    hasks | ⟨e, hfails⟩ | ⟨s, l', r, rfl, hanswer, hrest⟩
  · exact absurd (h.symm.trans hasks) (hfind _)
  · exact absurd (h.symm.trans hfails) (hthrow e)
  · have hp := hrest.symm.trans h
    rcases checked_cases userId k r with ⟨e, hchecked⟩ | ⟨w, rfl, hown, hchecked⟩
    · rw [hchecked, after_throw] at hp
      exact absurd hp.symm (hthrow e)
    · obtain ⟨hw, hid⟩ := findWebhook_ok hanswer
      have hstep : resume (q := .findWebhook webhookId) (checked userId k)
          (host.handle (.findWebhook webhookId) s).1 = checked userId k (some w) := by
        rw [hanswer]
        rfl
      refine ⟨s, l', w, rfl, hw, hid, hown, hstep.trans hchecked, ?_⟩
      rwa [hchecked] at hp

/-! ## Runs -/

namespace WebhookRuns

variable {ι : Type} [DecidableEq ι] (s₀ : WebhookState host) (requests : ι → WebhookRequest)

/-- The requests before their first queries. -/
def start : Pool ι (WebhookState host) WebhooksQuery.Reply WebhookError WebhookResponse where
  state := s₀
  programs i := (requests i).program host

/-- The requests after some turns. -/
def reached (ts : List ι) :
    Pool ι (WebhookState host) WebhooksQuery.Reply WebhookError WebhookResponse :=
  run (Pool.next host.handle) (start s₀ requests) ts

/-- The rows of `Webhook` after some turns. -/
abbrev webhooks (ts : List ι) : List WebhookRow := (reached s₀ requests ts).state.db.webhooks

/-- The rows of `WebhookDelivery` after some turns. -/
abbrev deliveries (ts : List ι) : List DeliveryRow := (reached s₀ requests ts).state.db.deliveries

variable {us vs ts : List ι} {i : ι}

/-- The state after a turn is what the answer leaves. -/
theorem turn_state {q : WebhooksQuery} {next : q.Reply → WebhooksProgram WebhookResponse}
    (h : (reached s₀ requests us).programs i = .query q next) :
    (reached s₀ requests (us ++ [i])).state = (host.handle q (reached s₀ requests us).state).2 := by
  unfold reached
  rw [run_concat]
  exact Pool.next_state h

/-- The request whose turn it was goes on with the answer. -/
theorem turn_program {q : WebhooksQuery} {next : q.Reply → WebhooksProgram WebhookResponse}
    (h : (reached s₀ requests us).programs i = .query q next) :
    (reached s₀ requests (us ++ [i])).programs i =
      resume next (host.handle q (reached s₀ requests us).state).1 := by
  unfold reached
  rw [run_concat]
  exact Pool.next_programs_self h

/-- A turn is a query of the request, or does nothing. -/
theorem turn_cases (us : List ι) (i : ι) :
    (∃ q next, (reached s₀ requests us).programs i = .query q next ∧
      (reached s₀ requests (us ++ [i])).state =
        (host.handle q (reached s₀ requests us).state).2) ∨
      reached s₀ requests (us ++ [i]) = reached s₀ requests us := by
  rcases Pool.next_cases host.handle (reached s₀ requests us) i with ⟨q, next, hquery⟩ | hidle
  · exact Or.inl ⟨q, next, hquery, turn_state s₀ requests hquery⟩
  · right
    unfold reached
    rw [run_concat]
    exact hidle

/-- Each further turn takes the tables to a later moment. -/
theorem later_reached (h : us <+: vs) :
    WebhookLater (reached s₀ requests us).state (reached s₀ requests vs).state := by
  obtain ⟨ws, rfl⟩ := h
  induction ws using List.reverseRecOn with
  | nil =>
      rw [List.append_nil]
      exact WebhookLater.refl _
  | append_singleton ws i ih =>
      rw [← List.append_assoc]
      rcases turn_cases s₀ requests (us ++ ws) i with ⟨q, next, -, hstate⟩ | hidle
      · rw [hstate]
        exact ih.trans (WebhookLater.handle _ q)
      · rwa [hidle]

variable {s₀ requests}

/-- A request asks what it may ask. -/
theorem asks {q : WebhooksQuery} {next : q.Reply → WebhooksProgram WebhookResponse}
    (h : (reached s₀ requests us).programs i = .query q next) : (requests i).Asks q := by
  obtain ⟨moments, -, -, -, hprogram⟩ := Pool.exists_moments host.handle (start s₀ requests) us i
  exact (uses_program (requests i)).asks (hprogram.symm.trans h)

/-- A request that is past its check has found a webhook of its user at an earlier moment. -/
theorem exists_checked {userId webhookId : String}
    {k : WebhookRow → WebhooksProgram WebhookResponse}
    (hrequest : (requests i).program host = .query (.findWebhook webhookId) (checked userId k))
    {p : WebhooksProgram WebhookResponse} (hp : (reached s₀ requests ts).programs i = p)
    (hthrow : ∀ e, p ≠ .throw e) (hfind : ∀ next, p ≠ .query (.findWebhook webhookId) next) :
    ∃ us w, us ++ [i] <+: ts ∧ w ∈ webhooks s₀ requests us ∧ w.id = webhookId ∧
      w.userId = userId ∧ ∃ moments : List (List ι),
        (∀ vs ∈ moments, us ++ [i] <+: vs ∧ vs ++ [i] <+: ts) ∧
        (∀ vs later, moments = vs :: later → (reached s₀ requests vs).programs i = k w) ∧
        after host.handle (moments.map fun vs => (reached s₀ requests vs).state) (k w) = p := by
  obtain ⟨moments, hsorted, hwithin, hearlier, hprogram⟩ :=
    Pool.exists_moments host.handle (start s₀ requests) ts i
  have hstart : (start s₀ requests).programs i =
      .query (.findWebhook webhookId) (checked userId k) := hrequest
  rw [hstart] at hprogram hearlier
  obtain ⟨s, l', w, hl, hw, hid, hown, hk, hrest⟩ :=
    after_check (hprogram.symm.trans hp) hthrow hfind
  cases moments with
  | nil => cases hl
  | cons us moments =>
      obtain ⟨rfl, rfl⟩ := List.cons.inj hl
      refine ⟨us, w, hwithin us List.mem_cons_self, hw, hid, hown, moments, fun vs hvs => ?_, ?_,
        hrest⟩
      · exact ⟨(List.pairwise_cons.mp hsorted).1 vs hvs, hwithin vs (List.mem_cons_of_mem _ hvs)⟩
      · rintro vs later rfl
        exact (hearlier [us] vs later rfl).trans hk

/-! ### Who changes a row -/

/-- A row goes when its user removes it. -/
theorem removed_row {w : WebhookRow} (hw : w ∈ webhooks s₀ requests us)
    (hgone : w ∉ webhooks s₀ requests (us ++ [i])) : requests i = .remove w.userId w.id := by
  rcases turn_cases s₀ requests us i with ⟨q, next, hquery, hstate⟩ | hidle
  · unfold webhooks at hgone
    rw [hstate] at hgone
    have hchange := handle_change (reached s₀ requests us).state q
    generalize (host.handle q (reached s₀ requests us).state).2 = s' at hchange hgone
    cases hchange with
    | keeps => exact absurd hw hgone
    | creates userId url secret events => exact absurd (List.mem_append_left _ hw) hgone
    | records row h => exact absurd hw hgone
    | deletes id h =>
        have hid : w.id = id := by
          by_contra hne
          exact hgone (List.mem_filter.mpr ⟨hw, by simpa using hne⟩)
        -- the request has found the row of its user before
        obtain ⟨userId, hrequest⟩ := (asks hquery).deleteWebhook
        obtain ⟨vs, w', hvs, hw', hid', hown, -⟩ := exists_checked
          ((congrArg (WebhookRequest.program host) hrequest).trans
            (WebhookRequest.program_remove userId id)) hquery (by simp) (by simp)
        have hlater := later_reached s₀ requests ((List.prefix_append vs [i]).trans hvs)
        rw [hrequest, hlater.same_row hw' hw (hid.trans hid'.symm), hown, hid']
  · unfold webhooks at hgone
    rw [hidle] at hgone
    exact absurd hw hgone

/-- A row comes when its user registers it. -/
theorem registered_row {w : WebhookRow} (hw : w ∈ webhooks s₀ requests (us ++ [i]))
    (hnew : w ∉ webhooks s₀ requests us) :
    ∃ dto, requests i = .register w.userId dto ∧ w.url = dto.url ∧ w.events = dto.events := by
  rcases turn_cases s₀ requests us i with ⟨q, next, hquery, hstate⟩ | hidle
  · unfold webhooks at hw
    rw [hstate] at hw
    have hchange := handle_change (reached s₀ requests us).state q
    generalize (host.handle q (reached s₀ requests us).state).2 = s' at hchange hw
    cases hchange with
    | keeps => exact absurd hw hnew
    | deletes id h => exact absurd (List.mem_of_mem_filter hw) hnew
    | records row h => exact absurd hw hnew
    | creates userId url secret events =>
        obtain rfl := List.mem_singleton.mp ((List.mem_append.mp hw).resolve_left hnew)
        exact (asks hquery).createWebhook
  · unfold webhooks at hw
    rw [hidle] at hw
    exact absurd hw hnew

/-- A test is posted to a webhook of its user. -/
theorem test_post {userId webhookId : String} {post : HttpPost}
    {next : FetchOutcome → WebhooksProgram WebhookResponse}
    (hrequest : requests i = .test userId webhookId)
    (hquery : (reached s₀ requests us).programs i = .query (.delivery (.fetch post)) next) :
    ∃ vs w now, vs <+: us ∧ w ∈ webhooks s₀ requests vs ∧ w.id = webhookId ∧ w.userId = userId ∧
      post = WebhooksService.signedPost host.toWebhookHost w.toWebhook
        (WebhooksService.testPayload webhookId now) := by
  obtain ⟨vs, w, hvs, hw, hid, hown, moments, -, -, hrest⟩ := exists_checked
    ((congrArg (WebhookRequest.program host) hrequest).trans
      (WebhookRequest.program_test userId webhookId)) hquery (by simp) fun _ h => by cases h
  rcases after_query_asks hrest with hnow | ⟨s, l', now, -, -, hfetch⟩
  · cases hnow
  · rcases after_query_asks hfetch with hpost | ⟨s', l'', outcome, -, -, hended⟩
    · cases hpost
      exact ⟨vs, w, now, (List.prefix_append vs [i]).trans hvs, hw, hid, hown, rfl⟩
    · cases outcome with
      | response status => cases (after_ret _ _).symm.trans hended
      | failed message => cases (after_ret _ _).symm.trans hended

/-- **Owners.**  A row of `Webhook` goes in a turn of a request by which its user removes it, and
comes in a turn of one by which its user registers it.  A test is posted to a webhook of the user
who asks for it, signed with the secret of that webhook. -/
theorem only_owners_change (s₀ : WebhookState host) (requests : ι → WebhookRequest) (us : List ι)
    (i : ι) :
    (∀ w ∈ webhooks s₀ requests us, w ∉ webhooks s₀ requests (us ++ [i]) →
      requests i = .remove w.userId w.id) ∧
    (∀ w ∈ webhooks s₀ requests (us ++ [i]), w ∉ webhooks s₀ requests us →
      ∃ dto, requests i = .register w.userId dto ∧ w.url = dto.url ∧ w.events = dto.events) ∧
    (∀ userId webhookId post next, requests i = .test userId webhookId →
      (reached s₀ requests us).programs i = .query (.delivery (.fetch post)) next →
      ∃ vs w now, vs <+: us ∧ w ∈ webhooks s₀ requests vs ∧ w.id = webhookId ∧
        w.userId = userId ∧ post = WebhooksService.signedPost host.toWebhookHost w.toWebhook
          (WebhooksService.testPayload webhookId now)) :=
  ⟨fun _ hw hgone => removed_row hw hgone, fun _ hw hnew => registered_row hw hnew,
    fun _ _ _ _ hrequest hquery => test_post hrequest hquery⟩

/-! ### What a user is shown -/

/-- The number of deliveries in an answer is between 1 and 200. -/
theorem clampedLimit_bounds (x : JsNumber) :
    1 ≤ WebhooksService.clampedLimit x ∧ WebhooksService.clampedLimit x ≤ 200 := by
  cases x with
  | nan => decide
  | infinity a =>
      show 1 ≤ 50 ∧ 50 ≤ 200
      decide
  | finite q =>
      have hlow : (1 : ℤ) ≤ ⌊min (max q 1) 200⌋ :=
        Int.le_floor.mpr (le_min (by push_cast; exact le_max_right q 1) (by norm_num))
      have hhigh : ⌊min (max q 1) 200⌋ ≤ (200 : ℤ) := by
        have hle := Int.floor_le_floor (min_le_right (max q 1) 200)
        simpa using hle
      show 1 ≤ ⌊min (max q 1) 200⌋.toNat ∧ ⌊min (max q 1) 200⌋.toNat ≤ 200
      omega

/-- Whatever limit the request gives, at most 200 deliveries are read. -/
theorem deliveriesLimit_bounds (limit : Option String) :
    1 ≤ WebhooksService.deliveriesLimit limit ∧ WebhooksService.deliveriesLimit limit ≤ 200 :=
  clampedLimit_bounds _

/-- A list of webhooks shows those that the user had at one moment of the request. -/
theorem list_shows {userId : String} {views : List WebhookView}
    (hrequest : requests i = .list userId)
    (hret : (reached s₀ requests ts).programs i = .ret (.webhooks views)) :
    ∃ us rows, us ++ [i] <+: ts ∧
      Selects (Descending WebhookRow.createdAt) (fun w => w.userId = userId)
        (webhooks s₀ requests us) rows ∧ views = rows.map WebhookRow.view := by
  obtain ⟨moments, -, hwithin, -, hprogram⟩ :=
    Pool.exists_moments host.handle (start s₀ requests) ts i
  have hstart : (start s₀ requests).programs i =
      .query (.findWebhooks userId) fun rows =>
        .ret (.webhooks (List.map WebhookRow.view rows)) :=
    congrArg (WebhookRequest.program host) hrequest
  rw [hstart] at hprogram
  obtain ⟨s, l', rows, hl, hrows, hended⟩ := after_query_ret (hprogram.symm.trans hret)
  rw [after_ret] at hended
  cases hended
  cases moments with
  | nil => cases hl
  | cons us moments =>
      obtain ⟨rfl, -⟩ := List.cons.inj hl
      exact ⟨us, rows, hwithin us List.mem_cons_self, findWebhooks_ok hrows, rfl⟩

/-- The deliveries of an event to the webhooks of the user among the rows; an empty text is no
filter. -/
def ofUser (rows : List WebhookRow) (userId : String) (eventType : Option String)
    (d : DeliveryRow) : Bool :=
  (∃ w ∈ rows, w.userId = userId ∧ w.id = d.webhookId) ∧
    (eventType = none ∨ eventType = some "" ∨ eventType = some d.eventType)

/-- The filter on the ids of the user's webhooks selects the deliveries of the user. -/
theorem selectsDelivery_eq (rows : List WebhookRow) (userId : String) (eventType : Option String) :
    selectsDelivery ((rows.filter fun w => w.userId = userId).map fun w => w.id)
      (eventType.filter fun t => t ≠ "") = ofUser rows userId eventType := by
  funext d
  have hids : d.webhookId ∈ ((rows.filter fun w => w.userId = userId).map fun w => w.id) ↔
      ∃ w ∈ rows, w.userId = userId ∧ w.id = d.webhookId := by
    simp [and_assoc]
  have htype : ((eventType.filter fun t => t ≠ "").all fun t => d.eventType = t) = true ↔
      eventType = none ∨ eventType = some "" ∨ eventType = some d.eventType := by
    cases eventType with
    | none => simp
    | some t =>
        by_cases ht : t = ""
        · simp [ht, Option.filter]
        · simp [ht, Option.filter, eq_comm]
  unfold selectsDelivery ofUser
  rw [decide_eq_decide]
  exact and_congr hids htype

/-- A user without webhooks has no deliveries. -/
theorem not_ofUser {rows : List WebhookRow} {userId : String} {eventType : Option String}
    (h : (rows.filter fun w => w.userId = userId).map (fun w => w.id) = []) (d : DeliveryRow) :
    ofUser rows userId eventType d = false := by
  rw [← selectsDelivery_eq, h]
  simp [selectsDelivery]

/-- A list of deliveries answers the filter of the user at one moment of the request, by the
webhooks that the user had at an earlier one. -/
theorem deliveries_show {userId : String} {eventType limit : Option String}
    {views : List DeliveryView} (hrequest : requests i = .deliveries userId eventType limit)
    (hret : (reached s₀ requests ts).programs i = .ret (.deliveries views)) :
    ∃ us vs rows, us <+: vs ∧ vs ++ [i] <+: ts ∧
      Answers (Descending DeliveryRow.createdAt) (ofUser (webhooks s₀ requests us) userId eventType)
        (deliveries s₀ requests vs) 0 (WebhooksService.deliveriesLimit limit) rows ∧
      views = rows.map DeliveryRow.view := by
  obtain ⟨moments, hsorted, hwithin, -, hprogram⟩ :=
    Pool.exists_moments host.handle (start s₀ requests) ts i
  have hstart : (start s₀ requests).programs i =
      .query (.findWebhookIds userId) fun (ids : List String) =>
        if ids = [] then .ret (.deliveries []) else
          .query (.findDeliveries ids (eventType.filter fun t => t ≠ "")
            (WebhooksService.deliveriesLimit limit)) fun rows =>
              .ret (.deliveries (List.map DeliveryRow.view rows)) :=
    congrArg (WebhookRequest.program host) hrequest
  rw [hstart] at hprogram
  obtain ⟨s, l', ids, hl, hids, hrest⟩ := after_query_ret (hprogram.symm.trans hret)
  obtain rfl := findWebhookIds_ok hids
  cases moments with
  | nil => cases hl
  | cons us moments =>
      obtain ⟨rfl, rfl⟩ := List.cons.inj hl
      split_ifs at hrest with hnil
      · rw [after_ret] at hrest
        cases hrest
        exact ⟨us, us, [], List.prefix_rfl, hwithin us List.mem_cons_self,
          answers_nil fun d _ => not_ofUser hnil d, rfl⟩
      · obtain ⟨s', l'', rows, hl', hrows, hended⟩ := after_query_ret hrest
        rw [after_ret] at hended
        cases hended
        cases moments with
        | nil => cases hl'
        | cons vs moments =>
            obtain ⟨rfl, -⟩ := List.cons.inj hl'
            have hsince := (List.pairwise_cons.mp hsorted).1 vs List.mem_cons_self
            refine ⟨us, vs, rows, (List.prefix_append us [i]).trans hsince,
              hwithin vs (List.mem_cons_of_mem _ List.mem_cons_self), ?_, rfl⟩
            rw [← selectsDelivery_eq]
            exact findDeliveries_ok hrows

/-- **Lists.**  A list of webhooks shows the user's rows at one moment of the request, newest
first.  A list of deliveries shows the newest deliveries at one moment to the webhooks that were
the user's at an earlier one, as many as the limit and never more than 200. -/
theorem lists_own (s₀ : WebhookState host) (requests : ι → WebhookRequest) (ts : List ι) (i : ι) :
    (∀ userId views, requests i = .list userId →
      (reached s₀ requests ts).programs i = .ret (.webhooks views) →
      ∃ us rows, us ++ [i] <+: ts ∧
        Selects (Descending WebhookRow.createdAt) (fun w => w.userId = userId)
          (webhooks s₀ requests us) rows ∧ views = rows.map WebhookRow.view) ∧
    (∀ userId eventType limit views, requests i = .deliveries userId eventType limit →
      (reached s₀ requests ts).programs i = .ret (.deliveries views) →
      ∃ us vs rows, us <+: vs ∧ vs ++ [i] <+: ts ∧
        Answers (Descending DeliveryRow.createdAt)
          (ofUser (webhooks s₀ requests us) userId eventType) (deliveries s₀ requests vs)
          0 (WebhooksService.deliveriesLimit limit) rows ∧
        views = rows.map DeliveryRow.view ∧ views.length ≤ 200 ∧
        ∀ d ∈ rows, ∃ w ∈ webhooks s₀ requests vs, w.id = d.webhookId ∧ w.userId = userId) := by
  refine ⟨fun _ _ hrequest hret => list_shows hrequest hret, ?_⟩
  intro userId eventType limit views hrequest hret
  obtain ⟨us, vs, rows, hsince, hwithin, hrows, rfl⟩ := deliveries_show hrequest hret
  refine ⟨us, vs, rows, hsince, hwithin, hrows, rfl, ?_, fun d hd => ?_⟩
  · rw [List.length_map, hrows.length_eq]
    exact (min_le_left _ _).trans (deliveriesLimit_bounds limit).2
  · -- the webhook of a recorded delivery is still the user's
    obtain ⟨hd, hof⟩ := hrows.mem hd
    obtain ⟨⟨w, hw, hown, hid⟩, -⟩ := of_decide_eq_true hof
    obtain ⟨w', hw', hid'⟩ := (reached s₀ requests vs).state.db.referenced d hd
    have hsame := (later_reached s₀ requests hsince).same_row hw hw' (hid'.trans hid.symm)
    exact ⟨w', hw', hid', by rw [hsame, hown]⟩

/-! ### Removing a webhook -/

/-- A webhook that is removed had no deliveries, and is gone for good. -/
theorem remove_removes {userId webhookId : String} {a : WebhookResponse}
    (hrequest : requests i = .remove userId webhookId)
    (hret : (reached s₀ requests ts).programs i = .ret a) :
    ∃ us, us ++ [i] <+: ts ∧
      (∃ w ∈ webhooks s₀ requests us, w.id = webhookId ∧ w.userId = userId) ∧
      (∀ vs, vs <+: us → ∀ d ∈ deliveries s₀ requests vs, d.webhookId ≠ webhookId) ∧
      ∀ vs, us ++ [i] <+: vs → (∀ w ∈ webhooks s₀ requests vs, w.id ≠ webhookId) ∧
        ∀ d ∈ deliveries s₀ requests vs, d.webhookId ≠ webhookId := by
  obtain ⟨us₀, w, -, hw, hid, hown, moments, hmoments, hfirst, hrest⟩ := exists_checked
    ((congrArg (WebhookRequest.program host) hrequest).trans
      (WebhookRequest.program_remove userId webhookId)) hret (by simp) (by simp)
  obtain ⟨s, l', r, hl, hdelete, -⟩ := after_query_ret hrest
  cases moments with
  | nil => cases hl
  | cons us later =>
      obtain ⟨rfl, -⟩ := List.cons.inj hl
      obtain ⟨hbefore, hwithin⟩ := hmoments us List.mem_cons_self
      obtain ⟨⟨w', hw', hid'⟩, hd, hstate⟩ := deleteWebhook_ok hdelete
      have hsince := later_reached s₀ requests ((List.prefix_append us₀ [i]).trans hbefore)
      have hsame := hsince.same_row hw hw' (hid'.trans hid.symm)
      refine ⟨us, hwithin, ⟨w', hw', hid', by rw [hsame, hown]⟩, fun vs hvs d hdv => ?_,
        fun vs hvs => ?_⟩
      · exact hd d ((later_reached s₀ requests hvs).recorded hdv)
      · have hgone : ∀ w ∈ webhooks s₀ requests vs, w.id ≠ webhookId := by
          have hturn := later_reached s₀ requests (List.prefix_append us [i])
          rw [← hid']
          refine hturn.gone (later_reached s₀ requests hvs) hw' fun v hv hvid => ?_
          rw [turn_state s₀ requests (hfirst us later rfl), hstate] at hv
          obtain ⟨-, hne⟩ := List.mem_filter.mp hv
          exact of_decide_eq_true hne (hvid.trans hid')
        refine ⟨hgone, fun d hdv hdid => ?_⟩
        obtain ⟨v, hv, hvid⟩ := (reached s₀ requests vs).state.db.referenced d hdv
        exact hgone v hv (hvid.trans hdid)

/-- A webhook without deliveries can be removed. -/
theorem remove_returns {w : WebhookRow} (hw : w ∈ webhooks s₀ requests ts)
    (hd : ∀ d ∈ deliveries s₀ requests ts, d.webhookId ≠ w.id)
    (hreach : ∀ n, host.outage n = none) (hrequest : requests i = .remove w.userId w.id)
    (hfresh : (reached s₀ requests ts).programs i = (requests i).program host) :
    (reached s₀ requests (ts ++ [i] ++ [i])).programs i = .ret (.deleted w.id) := by
  have hquery := hfresh.trans ((congrArg (WebhookRequest.program host) hrequest).trans
    (WebhookRequest.program_remove w.userId w.id))
  have hfind : (webhooks s₀ requests ts).find? (fun v => v.id = w.id) = some w := by
    cases hfound : (webhooks s₀ requests ts).find? fun v => v.id = w.id with
    | none =>
        have hne := List.find?_eq_none.mp hfound w hw
        simp at hne
    | some v =>
        have hvid : v.id = w.id := by simpa using List.find?_some hfound
        exact congrArg some (List.inj_on_of_nodup_map (reached s₀ requests ts).state.db.distinct
          (List.mem_of_find?_eq_some hfound) hw hvid)
  have hfirst : host.handle (.findWebhook w.id) (reached s₀ requests ts).state =
      (.ok (some w), (reached s₀ requests ts).state.tick) := by
    rw [← hfind]
    exact WebhooksHost.reach_of_answers (hreach _)
  have hprogram := turn_program s₀ requests hquery
  have hstate := turn_state s₀ requests hquery
  rw [hfirst] at hprogram hstate
  have hchecked : (reached s₀ requests (ts ++ [i])).programs i =
      .query (.deleteWebhook w.id) fun _ => .ret (.deleted w.id) := by
    refine hprogram.trans ?_
    show checked w.userId _ (some w) = _
    simp [checked, throwIf_bind]
  rw [turn_program s₀ requests hchecked, hstate]
  rw [handle_deleteWebhook (s := (reached s₀ requests ts).state.tick) (hreach _) ⟨w, hw, rfl⟩ hd]
  rfl

/-- **Removal.**  A request that removes a webhook returns only if no delivery to the webhook was
recorded before its last query, and from there on nothing refers to the webhook.  A webhook with a
recorded delivery is there for ever. -/
theorem removable_until_delivered (s₀ : WebhookState host) (requests : ι → WebhookRequest)
    (ts : List ι) (i : ι) :
    (∀ userId webhookId a, requests i = .remove userId webhookId →
      (reached s₀ requests ts).programs i = .ret a →
      ∃ us, us ++ [i] <+: ts ∧
        (∃ w ∈ webhooks s₀ requests us, w.id = webhookId ∧ w.userId = userId) ∧
        (∀ vs, vs <+: us → ∀ d ∈ deliveries s₀ requests vs, d.webhookId ≠ webhookId) ∧
        ∀ vs, us ++ [i] <+: vs → (∀ w ∈ webhooks s₀ requests vs, w.id ≠ webhookId) ∧
          ∀ d ∈ deliveries s₀ requests vs, d.webhookId ≠ webhookId) ∧
    (∀ d ∈ deliveries s₀ requests ts, ∀ w ∈ webhooks s₀ requests ts, w.id = d.webhookId →
      ∀ us, w ∈ webhooks s₀ requests (ts ++ us)) ∧
    (∀ w ∈ webhooks s₀ requests ts, (∀ d ∈ deliveries s₀ requests ts, d.webhookId ≠ w.id) →
      (∀ n, host.outage n = none) → requests i = .remove w.userId w.id →
      (reached s₀ requests ts).programs i = (requests i).program host →
      (reached s₀ requests (ts ++ [i] ++ [i])).programs i = .ret (.deleted w.id)) :=
  ⟨fun _ _ _ hrequest hret => remove_removes hrequest hret,
    fun _ hd _ hw hid us =>
      (later_reached s₀ requests (List.prefix_append ts us)).kept hd hw hid,
    fun _ hw hd hreach hrequest hfresh => remove_returns hw hd hreach hrequest hfresh⟩

end WebhookRuns

end CarbonVeritas
