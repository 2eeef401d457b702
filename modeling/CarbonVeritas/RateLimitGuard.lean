/-
# The budget of a key

The table of buckets of `api/src/common/guards/rate-limit.guard.ts`, run over the requests that
reach the guard, whatever user they carry.

A request reads and writes the bucket of its own key only (`next_eq`).  The bucket of a key whose
requests all have one capacity is a token bucket of that capacity (`serve_stored`), worth a token
every second: its tokens stay within the capacity, it grants no more than the capacity and a
token for every second that a window touches, and it is full after a pause of as many seconds
(`canActivate_tokenBucket`).
-/
import CarbonVeritas.RateLimit
import CarbonVeritas.TokenBuckets

namespace CarbonVeritas

open Transition

namespace RateLimitGuard

variable (nodeEnv : Option String)

/-- The buckets after a request. -/
def next (buckets : Buckets) (request : HttpRequest) : Buckets :=
  (canActivate nodeEnv buckets request).1

/-- Whether the guard admits a request. -/
def admits (buckets : Buckets) (request : HttpRequest) : Bool :=
  (canActivate nodeEnv buckets request).2.isOk

/-- The requests of a key, each with what the guard answers to it. -/
def decisions (k : String) (buckets : Buckets) (requests : List HttpRequest) :
    List (HttpRequest × Bool) :=
  ((steps (next nodeEnv) buckets requests).filter fun p => key p.2 = k).map
    fun p => (p.2, admits nodeEnv p.1 p.2)

/-! ## The bucket of one key -/

/-- The bucket of a key when the guard looks for tokens in it. -/
def found (entry : Option TokenBucket) (request : HttpRequest) : TokenBucket :=
  refill (capacity request) request.now (entry.getD ⟨capacity request, request.now⟩)

/-- The bucket of a key after a request. -/
def serve (entry : Option TokenBucket) (request : HttpRequest) : Option TokenBucket :=
  let bucket := found entry request
  some (if bucket.tokens ≤ 0 then bucket else { bucket with tokens := bucket.tokens - 1 })

variable {nodeEnv} {buckets : Buckets} {request : HttpRequest}

/-- The guard serves a request from the bucket of its key. -/
theorem canActivate_of_ne_test (htest : nodeEnv ≠ some "test") :
    canActivate nodeEnv buckets request =
      (tableNext key serve buckets request,
        if (found (buckets (key request)) request).tokens ≤ 0 then
          .error ⟨429, "Too many requests"⟩
        else .ok { request with
          rateLimit := some
            { remaining := (found (buckets (key request)) request).tokens - 1
              limit := capacity request } }) := by
  unfold canActivate tableNext serve
  rw [if_neg htest]
  by_cases htokens : (found (buckets (key request)) request).tokens ≤ 0
  · rw [if_pos htokens]
    simp only [if_pos htokens]
    exact if_pos htokens
  · rw [if_neg htokens]
    simp only [if_neg htokens]
    exact if_neg htokens

/-- Outside tests a request changes the bucket of its key. -/
theorem next_eq (htest : nodeEnv ≠ some "test") : next nodeEnv = tableNext key serve := by
  funext buckets request
  unfold next
  rw [canActivate_of_ne_test htest]

/-- Outside tests a request is admitted when its bucket has a token. -/
theorem admits_iff (htest : nodeEnv ≠ some "test") :
    admits nodeEnv buckets request = true ↔
      0 < (found (buckets (key request)) request).tokens := by
  unfold admits
  rw [canActivate_of_ne_test htest]
  by_cases htokens : (found (buckets (key request)) request).tokens ≤ 0
  · rw [if_pos htokens]
    exact iff_of_false Bool.false_ne_true htokens.not_gt
  · rw [if_neg htokens]
    exact iff_of_true rfl (not_le.mp htokens)

/-- The answers to a key depend on the requests of the key alone. -/
theorem decisions_eq (htest : nodeEnv ≠ some "test") (k : String) (buckets : Buckets)
    (requests : List HttpRequest) :
    decisions nodeEnv k buckets requests =
      (steps serve (buckets k) (labelsOf key k requests)).map
        fun p => (p.2, decide (0 < (found p.1 p.2).tokens)) := by
  rw [← steps_entry key serve k buckets requests, List.map_map, decisions, next_eq htest]
  refine List.map_congr_left fun p hp => ?_
  obtain rfl : key p.2 = k := of_decide_eq_true (List.mem_filter.mp hp).2
  exact Prod.ext rfl (Bool.eq_iff_iff.mpr ((admits_iff htest).trans decide_eq_true_iff.symm))

/-! ## A key with one capacity -/

/-- The bucket of a key as a token bucket. -/
def policy (C : ℕ) : TokenBuckets.Policy where
  capacity := C
  rate := refillRate.toNat
  interval := refillInterval.toNat
  rate_pos := by decide
  interval_pos := by decide

/-- A token bucket as the guard stores it. -/
def stored {C : ℕ} (bucket : TokenBuckets.Bucket (policy C)) : TokenBucket where
  tokens := bucket.tokens
  lastRefill := bucket.filledAt

abbrev time (request : HttpRequest) : ℤ := request.now

variable {C : ℕ}

/-- Refilling what is stored is refilling the bucket. -/
theorem refill_stored (now : ℤ) (bucket : TokenBuckets.Bucket (policy C)) :
    refill C now (stored bucket) = stored (bucket.refill now) := by
  unfold refill TokenBuckets.Bucket.refill
  by_cases h : 0 < bucket.accrued now
  · rw [dif_pos h]
    exact if_pos h
  · rw [dif_neg h]
    exact if_neg h

/-- What a request finds is its bucket, refilled. -/
theorem found_stored (hC : capacity request = C)
    (entry : Option (TokenBuckets.Bucket (policy C))) :
    found (entry.map stored) request =
      stored (TokenBuckets.found time entry request) := by
  unfold found
  rw [hC]
  cases entry with
  | none => exact refill_stored request.now (.full (policy C) request.now)
  | some bucket => exact refill_stored request.now bucket

/-- **Refinement.**  A request of the capacity takes a token of the token bucket. -/
theorem serve_stored (hC : capacity request = C)
    (entry : Option (TokenBuckets.Bucket (policy C))) :
    serve (entry.map stored) request =
      (TokenBuckets.serve time entry request).map stored := by
  unfold serve TokenBuckets.serve TokenBuckets.Bucket.take
  rw [found_stored hC]
  by_cases h : 0 < (TokenBuckets.found time entry request).tokens
  · rw [dif_pos h]
    exact congrArg some (if_neg (not_le.mpr h))
  · rw [dif_neg h]
    exact congrArg some (if_pos (not_lt.mp h))

variable {k : String} {requests : List HttpRequest}

/-- The requests of a key share its capacity. -/
theorem capacity_labelsOf (hC : ∀ r ∈ requests, key r = k → capacity r = C) :
    ∀ r ∈ labelsOf key k requests, capacity r = C := by
  intro r hr
  obtain ⟨hmem, hk⟩ := mem_labelsOf_iff.mp hr
  exact hC r hmem hk

/-- What the guard stores for the key is a token bucket. -/
theorem run_stored (htest : nodeEnv ≠ some "test")
    (hC : ∀ r ∈ requests, key r = k → capacity r = C) :
    run (next nodeEnv) RateLimiting.initial requests k =
      (run (TokenBuckets.serve (P := policy C) time) none (labelsOf key k requests)).map
        stored := by
  rw [next_eq htest, run_entry]
  exact run_hom (fun r hr entry => serve_stored (capacity_labelsOf hC r hr) entry) none

/-- The guard admits the requests that the token bucket grants. -/
theorem decisions_stored (htest : nodeEnv ≠ some "test")
    (hC : ∀ r ∈ requests, key r = k → capacity r = C)
    {entry : Option (TokenBuckets.Bucket (policy C))} (hentry : buckets k = entry.map stored) :
    decisions nodeEnv k buckets requests =
      (steps (TokenBuckets.serve time) entry (labelsOf key k requests)).map
        fun p => (p.2, decide (TokenBuckets.Grants time p.1 p.2)) := by
  rw [decisions_eq htest, hentry,
    steps_hom (fun r hr entry => serve_stored (capacity_labelsOf hC r hr) entry), List.map_map]
  refine List.map_congr_left fun p hp => Prod.ext rfl (decide_eq_decide.mpr ?_)
  have hr : p.2 ∈ labelsOf key k requests := by
    rw [← steps_map_snd (TokenBuckets.serve time) entry (labelsOf key k requests)]
    exact List.mem_map_of_mem hp
  show 0 < (found (p.1.map stored) p.2).tokens ↔ _
  rw [found_stored (capacity_labelsOf hC p.2 hr)]
  exact Iff.rfl

/-! ## The bound -/

/-- A request leaves the buckets of other keys. -/
theorem next_other (htest : nodeEnv ≠ some "test") (hk : key request ≠ k) :
    next nodeEnv buckets request k = buckets k := by
  rw [next_eq htest]
  exact tableNext_other hk buckets

/-- A bucket never holds less than no token, or more than its capacity. -/
theorem tokens_within (htest : nodeEnv ≠ some "test")
    (hC : ∀ r ∈ requests, key r = k → capacity r = C) :
    ∀ bucket ∈ run (next nodeEnv) RateLimiting.initial requests k,
      0 ≤ bucket.tokens ∧ bucket.tokens ≤ C := by
  intro bucket hbucket
  rw [run_stored htest hC] at hbucket
  obtain ⟨b, -, rfl⟩ := Option.map_eq_some_iff.mp hbucket
  exact ⟨b.tokens_nonneg, b.tokens_le⟩

/-- In a window of time no more is admitted than the capacity and the refill. -/
theorem admitted_window (htest : nodeEnv ≠ some "test")
    (hclock : requests.Pairwise fun r r' => r.now ≤ r'.now)
    (hC : ∀ r ∈ requests, key r = k → capacity r = C) (t : ℤ) (w : ℕ) :
    ((decisions nodeEnv k RateLimiting.initial requests).filter fun d =>
      d.2 ∧ t ≤ d.1.now ∧ d.1.now ≤ t + w).length ≤ C + w ⌈/⌉ 1000 := by
  have hgranted : ((decisions nodeEnv k RateLimiting.initial requests).filter fun d =>
      d.2 ∧ t ≤ d.1.now ∧ d.1.now ≤ t + w).length =
        (TokenBuckets.grantedIn (P := policy C) time t (t + w) none
          (labelsOf key k requests)).length := by
    have hnone : RateLimiting.initial k = Option.map (stored (C := C)) none := rfl
    rw [decisions_stored htest hC hnone, List.filter_map, List.length_map]
    refine congrArg List.length (List.filter_congr fun p _ => decide_eq_decide.mpr ?_)
    rw [decide_eq_true_iff]
  have hsorted : (labelsOf key k requests).Pairwise fun r r' => time r ≤ time r' :=
    hclock.filter fun r => key r = k
  rw [hgranted]
  calc _ ≤ C + 1 * (w ⌈/⌉ 1000) :=
        TokenBuckets.length_grantedIn hsorted (fun b hb => by cases hb) t w
    _ = C + w ⌈/⌉ 1000 := by rw [Nat.one_mul]

/-- After a pause that refills the bucket, as many requests are admitted as it holds. -/
theorem admitted_after_pause (htest : nodeEnv ≠ some "test") {before after : List HttpRequest}
    (hC : ∀ r ∈ before ++ after, key r = k → capacity r = C)
    (hpause : ∀ r ∈ before, ∀ r' ∈ after, key r = k → key r' = k → r.now + 1000 * C ≤ r'.now) :
    ∀ d ∈ (decisions nodeEnv k (run (next nodeEnv) RateLimiting.initial before) after).take C,
      d.2 = true := by
  have hC' : ∀ r ∈ before, key r = k → capacity r = C :=
    fun r hr => hC r (List.mem_append_left _ hr)
  have hpause' : ∀ r ∈ labelsOf key k before, ∀ r' ∈ labelsOf key k after,
      time r + (policy C).interval * (policy C).capacity ≤ time r' := by
    intro r hr r' hr'
    obtain ⟨hr, hk⟩ := mem_labelsOf_iff.mp hr
    obtain ⟨hr', hk'⟩ := mem_labelsOf_iff.mp hr'
    exact hpause r hr r' hr' hk hk'
  intro d hd
  rw [decisions_stored htest (fun r hr => hC r (List.mem_append_right _ hr))
    (run_stored htest hC'), ← List.map_take] at hd
  obtain ⟨p, hp, rfl⟩ := List.mem_map.mp hd
  exact decide_eq_true (TokenBuckets.granted_of_idle hpause' p hp)

/-- **The token bucket of a key.**  Over any requests of any keys that come in the order of the
clock, for a key whose requests all have the capacity `C`: the stored tokens of the key are
between zero and `C`, and no request of another key changes them; a window of `w` milliseconds
has at most `C` and a token for each of its seconds admitted; and after a pause of `C` seconds
the next `C` requests of the key are admitted. -/
theorem canActivate_tokenBucket (htest : nodeEnv ≠ some "test")
    (hclock : requests.Pairwise fun r r' => r.now ≤ r'.now)
    (hC : ∀ r ∈ requests, key r = k → capacity r = C) :
    Throughout (next nodeEnv)
      (fun buckets => ∀ bucket ∈ buckets k, 0 ≤ bucket.tokens ∧ bucket.tokens ≤ C)
      RateLimiting.initial requests ∧
    Always (next nodeEnv)
      (fun buckets r => key r ≠ k → next nodeEnv buckets r k = buckets k)
      RateLimiting.initial requests ∧
    (∀ (t : ℤ) (w : ℕ),
      ((decisions nodeEnv k RateLimiting.initial requests).filter fun d =>
        d.2 ∧ t ≤ d.1.now ∧ d.1.now ≤ t + w).length ≤ C + w ⌈/⌉ 1000) ∧
    ∀ before after, requests = before ++ after →
      (∀ r ∈ before, ∀ r' ∈ after, key r = k → key r' = k → r.now + 1000 * C ≤ r'.now) →
      ∀ d ∈ (decisions nodeEnv k (run (next nodeEnv) RateLimiting.initial before) after).take C,
        d.2 = true := by
  refine ⟨?_, fun p _ hk => next_other htest hk, admitted_window htest hclock hC, ?_⟩
  · rintro us ⟨vs, rfl⟩
    exact tokens_within htest fun r hr => hC r (List.mem_append_left _ hr)
  · rintro before after rfl hpause
    exact admitted_after_pause htest hC hpause

end RateLimitGuard

namespace Sample

/-- A request of a client without a wallet. -/
def anonymousRequest (now : ℤ) (ip : String) : HttpRequest where
  now := now
  ip := some ip
  bearer := none
  isPublic := true

/-- A client at its work, another client in between, and a pause. -/
def keyedRequests : List HttpRequest :=
  [anonymousRequest 1750000000000 "203.0.113.7", anonymousRequest 1750000000400 "203.0.113.8",
    anonymousRequest 1750000000900 "203.0.113.7", anonymousRequest 1750000001900 "203.0.113.7"]

/-- The requests after the pause. -/
def laterRequests : List HttpRequest :=
  [anonymousRequest 1750000101900 "203.0.113.7", anonymousRequest 1750000101900 "203.0.113.7"]

end Sample

namespace RateLimitGuard

open Sample in
/-- The bounds for the requests of the sample. -/
theorem canActivate_tokenBucket_sample :
    ((decisions (some "production") "203.0.113.7" RateLimiting.initial
        (keyedRequests ++ laterRequests)).filter fun d =>
      d.2 ∧ 1750000000500 ≤ d.1.now ∧
        d.1.now ≤ (1750000000500 : ℤ) + (1500 : ℕ)).length ≤ 100 + 1500 ⌈/⌉ 1000 ∧
    ∀ d ∈ (decisions (some "production") "203.0.113.7"
        (run (next (some "production")) RateLimiting.initial keyedRequests) laterRequests).take 100,
      d.2 = true := by
  have htest : some "production" ≠ some "test" := by decide
  have hclock : (keyedRequests ++ laterRequests).Pairwise fun r r' => r.now ≤ r'.now := by decide
  have hC : ∀ r ∈ keyedRequests ++ laterRequests,
      key r = "203.0.113.7" → capacity r = (100 : ℕ) := by decide
  obtain ⟨-, -, hwindow, hpause⟩ := canActivate_tokenBucket htest hclock hC
  exact ⟨hwindow 1750000000500 1500, hpause keyedRequests laterRequests rfl (by decide)⟩

end RateLimitGuard

end CarbonVeritas
