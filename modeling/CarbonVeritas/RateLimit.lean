/-
# The rate limiter

`api/src/common/guards/rate-limit.guard.ts` and `api/src/auth/jwt-auth.guard.ts`, in the order in
which `api/src/app.module.ts` registers them.

The limiter keeps a token bucket for each key, and wants the wallet of the user for the key.  But
the user of a request is set by the guard that runs after it, so that the key is the address of
the client and the capacity that of an anonymous client (`appliedLimit_eq`).  The buckets make
the requests of one address independent of those of another (`admitted_of_source`), and not the
requests of one wallet (`starved`).
-/
import CarbonVeritas.AuthService
import CarbonVeritas.KeyedRuns

namespace CarbonVeritas

open Transition

/-! ## Requests -/

/-- A request on arrival. -/
structure Arrival where
  /-- what `Date.now()` returns to the guards -/
  now : ℤ
  ip : Option String
  /-- the user that `AuthGuard('jwt')` finds for the bearer token; `none` without a valid one -/
  bearer : Option JwtStrategy.AuthUser
  /-- the `IS_PUBLIC_KEY` metadata of the handler or its class -/
  isPublic : Bool

/-- What the limiter leaves on a request. -/
structure RateLimit where
  remaining : ℤ
  limit : ℤ
  deriving DecidableEq

/-- A request on its way through the guards. -/
structure HttpRequest extends Arrival where
  user : Option JwtStrategy.AuthUser := none
  rateLimit : Option RateLimit := none

structure HttpException where
  status : ℕ
  message : String
  deriving DecidableEq

structure TokenBucket where
  tokens : ℤ
  lastRefill : ℤ
  deriving DecidableEq

/-! ## The guards -/

namespace RateLimitGuard

def unauthenticatedCapacity : ℤ := 100
def authenticatedCapacity : ℤ := 1000
def refillRate : ℤ := 1
def refillInterval : ℤ := 1000

abbrev Buckets := String → Option TokenBucket

def capacity (request : HttpRequest) : ℤ :=
  if request.isPublic ∨ request.user.isNone then unauthenticatedCapacity
  else authenticatedCapacity

/-- `request.user?.wallet ?? request.ip ?? 'unknown'` -/
def key (request : HttpRequest) : String :=
  ((request.user.map JwtStrategy.AuthUser.wallet).or request.ip).getD "unknown"

def refill (capacity now : ℤ) (bucket : TokenBucket) : TokenBucket :=
  let elapsed := now - bucket.lastRefill
  let refillTokens := elapsed / refillInterval * refillRate
  if refillTokens > 0 then
    { tokens := min capacity (bucket.tokens + refillTokens), lastRefill := now }
  else bucket

def canActivate (nodeEnv : Option String) (buckets : Buckets) (request : HttpRequest) :
    Buckets × Except HttpException HttpRequest :=
  if nodeEnv = some "test" then (buckets, .ok request)
  else
    let capacity := capacity request
    let key := key request
    let bucket := refill capacity request.now ((buckets key).getD ⟨capacity, request.now⟩)
    -- the bucket is stored and refilled before the limiter throws
    if bucket.tokens ≤ 0 then
      (Function.update buckets key (some bucket), .error ⟨429, "Too many requests"⟩)
    else
      let bucket := { bucket with tokens := bucket.tokens - 1 }
      (Function.update buckets key (some bucket),
        .ok { request with rateLimit := some { remaining := bucket.tokens, limit := capacity } })

end RateLimitGuard

namespace JwtAuthGuard

def canActivate (request : HttpRequest) : Except HttpException HttpRequest :=
  if request.isPublic then .ok request
  else
    match request.bearer with
    | some user => .ok { request with user := some user }
    | none => .error ⟨401, "Unauthorized"⟩

end JwtAuthGuard

/-! ## The guard chain -/

/-- The classes that are registered for `APP_GUARD`. -/
inductive AppGuard where
  | rateLimitGuard
  | jwtAuthGuard
  deriving DecidableEq

namespace AppGuard

/-- The guards of `AppModule`, in the order of its providers. -/
def registered : List AppGuard := [.rateLimitGuard, .jwtAuthGuard]

def activate (nodeEnv : Option String) (buckets : RateLimitGuard.Buckets) (request : HttpRequest) :
    AppGuard → RateLimitGuard.Buckets × Except HttpException HttpRequest
  | .rateLimitGuard => RateLimitGuard.canActivate nodeEnv buckets request
  | .jwtAuthGuard => (buckets, JwtAuthGuard.canActivate request)

/-- The guards run one after the other, until one of them throws. -/
def activateAll (nodeEnv : Option String) (buckets : RateLimitGuard.Buckets)
    (request : HttpRequest) :
    List AppGuard → RateLimitGuard.Buckets × Except HttpException HttpRequest
  | [] => (buckets, .ok request)
  | guard :: guards =>
      match activate nodeEnv buckets request guard with
      | (buckets, .ok request) => activateAll nodeEnv buckets request guards
      | (buckets, .error e) => (buckets, .error e)

end AppGuard

namespace Arrival

/-- The request, as no guard has seen it yet. -/
def request (a : Arrival) : HttpRequest := { a with }

/-- The address that a request comes from. -/
def source (a : Arrival) : String := a.ip.getD "unknown"

/-- A request with a valid token of a wallet. -/
def IsOf (W : String) (a : Arrival) : Prop := a.bearer.map JwtStrategy.AuthUser.wallet = some W

instance (W : String) : DecidablePred (IsOf W) :=
  fun a => inferInstanceAs (Decidable (a.bearer.map _ = some W))

/-- Such a request to an endpoint that is not public. -/
def Guarded (W : String) (a : Arrival) : Prop := IsOf W a ∧ a.isPublic = false

instance (W : String) : DecidablePred (Guarded W) :=
  fun a => inferInstanceAs (Decidable (IsOf W a ∧ a.isPublic = false))

end Arrival

namespace RateLimiting

open RateLimitGuard AppGuard

variable (nodeEnv : Option String)

/-- The buckets after a request. -/
def next (buckets : Buckets) (a : Arrival) : Buckets :=
  (activateAll nodeEnv buckets a.request registered).1

/-- Whether the guards admit a request. -/
def admits (buckets : Buckets) (a : Arrival) : Bool :=
  (activateAll nodeEnv buckets a.request registered).2.isOk

/-- The limiter starts without buckets. -/
def initial : Buckets := fun _ => none

/-- The capacity that the limiter counts a request against: that of the request as the guards
before the limiter leave it. -/
def appliedLimit (buckets : Buckets) (a : Arrival) : Option ℤ :=
  match activateAll nodeEnv buckets a.request (registered.takeWhile (· ≠ .rateLimitGuard)) with
  | (_, .ok request) => if nodeEnv = some "test" then none else some (capacity request)
  | (_, .error _) => none

/-- What becomes of the guarded requests of a wallet in a history. -/
def decisions (W : String) (history : List Arrival) : List Bool :=
  ((steps (next nodeEnv) initial history).filter fun p => p.2.Guarded W).map
    fun p => admits nodeEnv p.1 p.2

/-- The requests of a wallet in a history. -/
def requestsOf (W : String) (history : List Arrival) : List Arrival :=
  history.filter fun a => a.IsOf W

/-- The guarded requests of a wallet get the same decisions in every history that contains the
same requests of the wallet, and are counted against the capacity of an authenticated client. -/
def PerWallet (W : String) (history : List Arrival) : Prop :=
  ∀ history', requestsOf W history' = requestsOf W history →
    decisions nodeEnv W history' = decisions nodeEnv W history ∧
      ∀ p ∈ steps (next nodeEnv) initial history', p.2.Guarded W →
        ∀ limit ∈ appliedLimit nodeEnv p.1 p.2, limit = authenticatedCapacity

/-! ## One request -/

variable {nodeEnv} {W : String} {buckets : Buckets} {a : Arrival}

/-- Before authentication the capacity is that of an unknown client. -/
theorem capacity_request (a : Arrival) : capacity a.request = unauthenticatedCapacity :=
  if_pos (Or.inr rfl)

/-- The limiter counts every request as one of an anonymous client. -/
theorem appliedLimit_eq (htest : nodeEnv ≠ some "test") :
    appliedLimit nodeEnv buckets a = some unauthenticatedCapacity := by
  show (if nodeEnv = some "test" then none else some (capacity a.request)) = _
  rw [if_neg htest, capacity_request]

/-- Under test there is no limit. -/
theorem appliedLimit_test : appliedLimit (some "test") buckets a = none := rfl

/-- The bucket of a source when the limiter looks for tokens in it. -/
def found (entry : Option TokenBucket) (a : Arrival) : TokenBucket :=
  refill unauthenticatedCapacity a.now (entry.getD ⟨unauthenticatedCapacity, a.now⟩)

/-- The bucket of a source after a request from it. -/
def entryNext (nodeEnv : Option String) (entry : Option TokenBucket) (a : Arrival) :
    Option TokenBucket :=
  if nodeEnv = some "test" then entry
  else if (found entry a).tokens ≤ 0 then some (found entry a)
  else some { found entry a with tokens := (found entry a).tokens - 1 }

/-- Whether the guards admit a request that finds the given bucket. -/
def Passes (nodeEnv : Option String) (entry : Option TokenBucket) (a : Arrival) : Prop :=
  (nodeEnv = some "test" ∨ 0 < (found entry a).tokens) ∧ (a.isPublic ∨ a.bearer.isSome)

instance (nodeEnv : Option String) (entry : Option TokenBucket) (a : Arrival) :
    Decidable (Passes nodeEnv entry a) :=
  inferInstanceAs (Decidable ((_ ∨ _) ∧ (_ ∨ _)))

/-- The limiter has no user to key the buckets by. -/
theorem canActivate_request :
    RateLimitGuard.canActivate nodeEnv buckets a.request =
      (tableNext Arrival.source (entryNext nodeEnv) buckets a,
        if nodeEnv = some "test" then .ok a.request
        else if (found (buckets a.source) a).tokens ≤ 0 then .error ⟨429, "Too many requests"⟩
        else .ok { a.request with
          rateLimit := some
            { remaining := (found (buckets a.source) a).tokens - 1
              limit := unauthenticatedCapacity } }) := by
  have hkey : key a.request = a.source := rfl
  unfold RateLimitGuard.canActivate tableNext entryNext
  by_cases htest : nodeEnv = some "test"
  · rw [if_pos htest, if_pos htest, if_pos htest, Function.update_eq_self]
  · rw [if_neg htest, if_neg htest, if_neg htest, capacity_request, hkey]
    by_cases htokens : (found (buckets a.source) a).tokens ≤ 0
    · rw [if_pos htokens, if_pos htokens]
      exact if_pos htokens
    · rw [if_neg htokens, if_neg htokens]
      exact if_neg htokens

/-- A request passes when its route is public or it has a token. -/
theorem jwt_isOk {request : HttpRequest} :
    (JwtAuthGuard.canActivate request).isOk = true ↔ request.isPublic ∨ request.bearer.isSome := by
  unfold JwtAuthGuard.canActivate
  cases request.isPublic with
  | true => exact iff_of_true rfl (Or.inl rfl)
  | false =>
      cases request.bearer with
      | some user => exact iff_of_true rfl (Or.inr rfl)
      | none => exact iff_of_false Bool.false_ne_true (by simp)

/-- The limit is applied before the token is read. -/
theorem activateAll_registered {request : HttpRequest} :
    activateAll nodeEnv buckets request registered =
      match RateLimitGuard.canActivate nodeEnv buckets request with
      | (buckets, .ok request) => (buckets, JwtAuthGuard.canActivate request)
      | (buckets, .error e) => (buckets, .error e) := by
  show (match RateLimitGuard.canActivate nodeEnv buckets request with
    | (buckets, .ok request) => activateAll nodeEnv buckets request [.jwtAuthGuard]
    | (buckets, .error e) => (buckets, .error e)) = _
  obtain ⟨buckets', _ | request'⟩ := RateLimitGuard.canActivate nodeEnv buckets request
  · rfl
  · show (match (buckets', JwtAuthGuard.canActivate request') with
      | (buckets, .ok request) => (buckets, Except.ok request)
      | (buckets, .error e) => (buckets, .error e)) = (buckets', JwtAuthGuard.canActivate request')
    cases JwtAuthGuard.canActivate request' <;> rfl

/-- A request takes a token from the bucket of its source. -/
theorem next_eq : next nodeEnv = tableNext Arrival.source (entryNext nodeEnv) := by
  funext buckets a
  rw [next, activateAll_registered, canActivate_request]
  split <;> rename_i heq <;> exact (congrArg Prod.fst heq).symm

/-- The guards decide by the bucket of the source. -/
theorem admits_iff : admits nodeEnv buckets a = true ↔ Passes nodeEnv (buckets a.source) a := by
  rw [admits, activateAll_registered, canActivate_request, Passes]
  by_cases htest : nodeEnv = some "test"
  · rw [if_pos htest]
    exact jwt_isOk.trans (and_iff_right (Or.inl htest)).symm
  · rw [if_neg htest]
    by_cases htokens : (found (buckets a.source) a).tokens ≤ 0
    · rw [if_pos htokens]
      constructor
      · intro h
        cases h
      · rintro ⟨h | h, -⟩
        · exact absurd h htest
        · omega
    · rw [if_neg htokens]
      exact jwt_isOk.trans (and_iff_right (Or.inr (by omega))).symm

/-- Reading the token leaves the limit that was applied. -/
theorem jwt_rateLimit {request request' : HttpRequest}
    (h : JwtAuthGuard.canActivate request = .ok request') :
    request'.rateLimit = request.rateLimit := by
  unfold JwtAuthGuard.canActivate at h
  split at h
  · cases h
    rfl
  · split at h <;> cases h
    rfl

/-- An admitted request carries the capacity that it was counted against. -/
theorem limit_of_admitted {request : HttpRequest} (htest : nodeEnv ≠ some "test")
    (h : (activateAll nodeEnv buckets a.request registered).2 = .ok request) :
    request.rateLimit.map RateLimit.limit = appliedLimit nodeEnv buckets a := by
  rw [activateAll_registered, canActivate_request, if_neg htest] at h
  by_cases htokens : (found (buckets a.source) a).tokens ≤ 0
  · rw [if_pos htokens] at h
    cases h
  · rw [if_neg htokens] at h
    rw [jwt_rateLimit h, appliedLimit_eq htest]
    rfl

/-! ## The requests of one source -/

/-- **Independence of the sources.**  In two histories with the same requests from a source,
these are decided alike. -/
theorem admitted_of_source {k : String} {history history' : List Arrival}
    (hsame : labelsOf Arrival.source k history = labelsOf Arrival.source k history') :
    (((steps (next nodeEnv) initial history).filter fun p => p.2.source = k).map
        fun p => admits nodeEnv p.1 p.2) =
      (((steps (next nodeEnv) initial history').filter fun p => p.2.source = k).map
        fun p => admits nodeEnv p.1 p.2) := by
  have hentries : ∀ history : List Arrival,
      (((steps (next nodeEnv) initial history).filter fun p => p.2.source = k).map
          fun p => admits nodeEnv p.1 p.2) =
        (steps (entryNext nodeEnv) none (labelsOf Arrival.source k history)).map
          fun p => decide (Passes nodeEnv p.1 p.2) := by
    intro history
    have hsteps : _ = steps (entryNext nodeEnv) none (labelsOf Arrival.source k history) :=
      steps_entry Arrival.source (entryNext nodeEnv) k initial history
    rw [next_eq, ← hsteps, List.map_map]
    refine List.map_congr_left fun p hp => ?_
    obtain rfl : p.2.source = k := of_decide_eq_true (List.mem_filter.mp hp).2
    exact Bool.eq_iff_iff.mpr (admits_iff.trans decide_eq_true_iff.symm)
  rw [hentries, hentries, hsame]

/-- A request without a token. -/
def anonymous (now : ℤ) (ip : Option String) : Arrival where
  now := now
  ip := ip
  bearer := none
  isPublic := false

/-- A guarded arrival has a token. -/
theorem bearer_of_guarded (ha : a.Guarded W) : a.bearer.isSome := by
  obtain ⟨user, huser, -⟩ := Option.map_eq_some_iff.mp ha.1
  rw [huser]
  rfl

/-- An anonymous arrival is no wallet's. -/
theorem not_isOf_anonymous {now : ℤ} {ip : Option String} : ¬ (anonymous now ip).IsOf W := nofun

/-- A bucket is not refilled at the time of its last refill. -/
theorem refill_same (limit now tokens : ℤ) : refill limit now ⟨tokens, now⟩ = ⟨tokens, now⟩ := by
  have hnone : ¬ (now - now) / refillInterval * refillRate > 0 := by
    rw [sub_self]
    decide
  exact if_neg hnone

/-- Up to a hundred requests at once take a token each. -/
theorem run_anonymous (htest : nodeEnv ≠ some "test") (now : ℤ) (ip : Option String) {n : ℕ}
    (hn : n ≤ 100) :
    (run (entryNext nodeEnv) none (List.replicate n (anonymous now ip))).getD
      ⟨unauthenticatedCapacity, now⟩ = ⟨100 - n, now⟩ := by
  induction n with
  | zero => rfl
  | succ n ih =>
      rw [List.replicate_succ', run_concat]
      have hfound : found (run (entryNext nodeEnv) none (List.replicate n (anonymous now ip)))
          (anonymous now ip) = ⟨100 - n, now⟩ := by
        show refill unauthenticatedCapacity now (Option.getD _ ⟨unauthenticatedCapacity, now⟩) = _
        rw [ih (by omega), refill_same]
      have htokens : ¬ (100 - n : ℤ) ≤ 0 := by omega
      rw [entryNext, if_neg htest, hfound, if_neg htokens, Option.getD_some]
      show (⟨100 - n - 1, now⟩ : TokenBucket) = _
      rw [Nat.cast_add_one, sub_add_eq_sub_sub]

/-- What the source of a request has left after a hundred anonymous requests. -/
theorem found_flooded (htest : nodeEnv ≠ some "test") (a : Arrival) :
    found (run (next nodeEnv) initial (List.replicate 100 (anonymous a.now a.ip)) a.source) a =
      ⟨0, a.now⟩ := by
  have hlabels : labelsOf Arrival.source a.source (List.replicate 100 (anonymous a.now a.ip)) =
      List.replicate 100 (anonymous a.now a.ip) := by
    refine List.filter_eq_self.mpr fun b hb => ?_
    rw [List.eq_of_mem_replicate hb]
    exact decide_eq_true rfl
  rw [next_eq, run_entry, hlabels]
  show refill unauthenticatedCapacity a.now (Option.getD _ ⟨unauthenticatedCapacity, a.now⟩) = _
  rw [show initial a.source = none from rfl, run_anonymous htest a.now a.ip le_rfl, refill_same]
  rfl

/-! ## The requests of one wallet -/

/-- Without arrivals of the wallet nothing is decided. -/
theorem decisions_of_forall_not {history : List Arrival} (h : ∀ a ∈ history, ¬ a.Guarded W) :
    decisions nodeEnv W history = [] := by
  have hsteps : Always (next nodeEnv) (fun _ a => ¬ a.Guarded W) initial history :=
    always_labels_iff.mpr h
  rw [decisions, List.map_eq_nil_iff, List.filter_eq_nil_iff]
  intro p hp
  rw [decide_eq_true_eq]
  exact hsteps p hp

/-- One more arrival of the wallet is decided by the buckets before it. -/
theorem decisions_concat (nodeEnv : Option String) (history : List Arrival) (ha : a.Guarded W) :
    decisions nodeEnv W (history ++ [a]) =
      decisions nodeEnv W history ++ [admits nodeEnv (run (next nodeEnv) initial history) a] := by
  have hlast : [(run (next nodeEnv) initial history, a)].filter (fun p => p.2.Guarded W) =
      [(run (next nodeEnv) initial history, a)] :=
    List.filter_cons_of_pos (decide_eq_true ha)
  rw [decisions, steps_concat, List.filter_append, List.map_append, hlast]
  rfl

/-- **Starvation.**  A request of a wallet that is admitted when it comes alone is refused after a
hundred anonymous requests from its address. -/
theorem starved (htest : nodeEnv ≠ some "test") (ha : a.Guarded W) :
    requestsOf W (List.replicate 100 (anonymous a.now a.ip) ++ [a]) = requestsOf W [a] ∧
      decisions nodeEnv W [a] = [true] ∧
      decisions nodeEnv W (List.replicate 100 (anonymous a.now a.ip) ++ [a]) = [false] := by
  have hanonymous : ∀ b ∈ List.replicate 100 (anonymous a.now a.ip), ¬ b.IsOf W := by
    intro b hb
    rw [List.eq_of_mem_replicate hb]
    exact not_isOf_anonymous
  refine ⟨?_, ?_, ?_⟩
  · have hnone : (List.replicate 100 (anonymous a.now a.ip)).filter (fun b => b.IsOf W) = [] := by
      rw [List.filter_eq_nil_iff]
      intro b hb
      rw [decide_eq_true_eq]
      exact hanonymous b hb
    rw [requestsOf, List.filter_append, hnone, List.nil_append]
    rfl
  · -- alone, the request finds a full bucket
    have hpasses : Passes nodeEnv (initial a.source) a := by
      refine ⟨Or.inr ?_, Or.inr (bearer_of_guarded ha)⟩
      show 0 < (refill unauthenticatedCapacity a.now ⟨unauthenticatedCapacity, a.now⟩).tokens
      rw [refill_same]
      exact (by decide : 0 < unauthenticatedCapacity)
    have hdecisions := decisions_concat nodeEnv [] ha
    rw [run_nil, admits_iff.mpr hpasses] at hdecisions
    exact hdecisions
  · -- after the flood, the bucket of the address is empty
    have hrefused : ¬ Passes nodeEnv
        (run (next nodeEnv) initial (List.replicate 100 (anonymous a.now a.ip)) a.source) a := by
      rintro ⟨h | h, -⟩
      · exact htest h
      · rw [found_flooded htest] at h
        exact lt_irrefl 0 h
    have hunguarded : ∀ b ∈ List.replicate 100 (anonymous a.now a.ip), ¬ b.Guarded W :=
      fun b hb hguarded => hanonymous b hb hguarded.1
    rw [decisions_concat nodeEnv _ ha, decisions_of_forall_not hunguarded,
      Bool.eq_false_iff.mpr fun h => hrefused (admits_iff.mp h), List.nil_append]

/-- With the limiter switched off, every guarded request of the wallet is admitted. -/
theorem decisions_test (history : List Arrival) :
    decisions (some "test") W history =
      ((requestsOf W history).filter fun a => a.Guarded W).map fun _ => true := by
  have hadmits : ∀ p ∈ (steps (next (some "test")) initial history).filter
      (fun p => p.2.Guarded W), admits (some "test") p.1 p.2 = true := by
    intro p hp
    have hguarded : p.2.Guarded W := of_decide_eq_true (List.mem_filter.mp hp).2
    exact admits_iff.mpr ⟨Or.inl rfl, Or.inr (bearer_of_guarded hguarded)⟩
  have hfilter : (requestsOf W history).filter (fun a => a.Guarded W) =
      history.filter fun a => a.Guarded W := by
    rw [requestsOf, List.filter_filter]
    refine List.filter_congr fun a _ => ?_
    rw [← Bool.decide_and]
    exact decide_eq_decide.mpr ⟨And.left, fun h => ⟨h, h.1⟩⟩
  rw [decisions, List.map_congr_left hadmits, hfilter]
  conv_rhs => rw [← steps_map_snd (next (some "test")) initial history, List.filter_map,
    List.map_map]
  rfl

/-- The requests of the wallet are the same in both histories. -/
theorem guarded_of_requestsOf {history history' : List Arrival}
    (hsame : requestsOf W history' = requestsOf W history) (ha : a ∈ history')
    (hguarded : a.Guarded W) : a ∈ history := by
  have hmem : a ∈ requestsOf W history' := List.mem_filter.mpr ⟨ha, decide_eq_true hguarded.1⟩
  rw [hsame] at hmem
  exact (List.mem_filter.mp hmem).1

/-- **Rate limiting per wallet.**  The limiter counts the requests of a wallet for itself, and
against the capacity of an authenticated client, if it is switched off or if the wallet makes
no guarded request at all; and in no other case. -/
theorem per_wallet_iff (nodeEnv : Option String) (W : String) (history : List Arrival) :
    PerWallet nodeEnv W history ↔
      nodeEnv = some "test" ∨ ∀ a ∈ history, ¬ a.Guarded W := by
  constructor
  · intro hper
    by_cases htest : nodeEnv = some "test"
    · exact Or.inl htest
    · right
      have hunguarded : Always (next nodeEnv) (fun _ a => ¬ a.Guarded W) initial history := by
        intro p hp hguarded
        have hlimit := (hper history rfl).2 p hp hguarded _ (appliedLimit_eq htest)
        exact absurd hlimit (by decide)
      exact always_labels_iff.mp hunguarded
  · rintro (rfl | hnone) history' hsame
    · refine ⟨?_, fun p _ _ limit hlimit => ?_⟩
      · rw [decisions_test, decisions_test, hsame]
      · rw [appliedLimit_test] at hlimit
        cases hlimit
    · have hnone' : ∀ a ∈ history', ¬ a.Guarded W := fun a ha hguarded =>
        hnone a (guarded_of_requestsOf hsame ha hguarded) hguarded
      have hsteps : Always (next nodeEnv) (fun _ a => ¬ a.Guarded W) initial history' :=
        always_labels_iff.mpr hnone'
      refine ⟨?_, fun p hp hguarded => absurd hguarded (hsteps p hp)⟩
      rw [decisions_of_forall_not hnone, decisions_of_forall_not hnone']

end RateLimiting

namespace Sample

/-- A request of a user to an endpoint that is not public. -/
def guardedArrival : Arrival where
  now := 1750000000000
  ip := some "203.0.113.7"
  bearer := some { id := "user", wallet := "GW" }
  isPublic := false

end Sample

namespace RateLimiting

open Sample in
/-- A hundred anonymous requests from the address of a wallet lock the wallet out. -/
theorem not_per_wallet :
    ¬ ∀ (nodeEnv : Option String) (W : String) (history : List Arrival),
      PerWallet nodeEnv W history := by
  intro h
  have hproduction : some "production" ≠ some "test" := by decide
  have hguarded : guardedArrival.Guarded "GW" := by decide
  obtain ⟨hsame, halone, hflooded⟩ := starved hproduction hguarded
  have hdecisions := (h (some "production") "GW" [guardedArrival] _ hsame).1
  rw [halone, hflooded] at hdecisions
  exact absurd hdecisions (by decide)

end RateLimiting

end CarbonVeritas
