/-
# Webhook deliveries

`api/src/webhooks/webhooks.service.ts`: `dispatchEvent`, `deliverWithRetry`, `recordDelivery`,
`dispatch`, `maxAttempts` and `backoffDelayMs`.

The delivery to a webhook is a program that waits for the clock, for its HTTP calls, for the
database and for the timer.  The deliveries of an event take turns in any order; a turn reads and
writes the delivery of one webhook, so that the table of deliveries is one of independent entries
(`KeyedRuns`).  An attempt takes four turns (`run_attempt`), and the loop ends with one record
(`run_attempts`).  The loggers are left out.
-/
import CarbonVeritas.JsValues
import CarbonVeritas.KeyedRuns
import CarbonVeritas.Programs
import CarbonVeritas.UtcCalendar

/-- `parseInt(s, 10)` : the integer that a string begins with. -/
def JsNumber.parseInt (s : List Char) : JsNumber :=
  let number (digits : List Char) : JsNumber :=
    match JsNumber.digitsValue 10 (digits.takeWhile Char.isDigit) with
    | some n => .roundDouble n
    | none => .nan
  match s.dropWhile JsNumber.isSpace with
  | '-' :: digits => (number digits).neg
  | '+' :: digits => number digits
  | digits => number digits

namespace JsNumber

/-- The double of a natural number is a natural number, or beyond the integers that all are
doubles. -/
theorem roundDouble_natCast_cases {n : ℕ} {r : ℚ} (h : roundDouble n = .finite r) :
    (∃ m : ℕ, r = m) ∨ 2 ^ 53 ≤ r := by
  rcases le_or_gt n (2 ^ 53) with hn | hn
  · have hround := roundDouble_intCast (z := (n : ℤ)) (by
      rw [Nat.abs_cast]
      exact_mod_cast hn)
    rw [Int.cast_natCast, h] at hround
    exact Or.inl ⟨n, finite.inj hround⟩
  · exact Or.inr (two_pow_le_of_roundDouble (by exact_mod_cast hn.le) h)

/-- A positive number that is parsed is an integer, or large. -/
theorem parseInt_cases {s : List Char} {q : ℚ} (h : parseInt s = .finite q) (hq : 1 ≤ q) :
    (∃ m : ℕ, q = m) ∨ 2 ^ 53 ≤ q := by
  have hnumber : ∀ (digits : List Char) (r : ℚ),
      (match digitsValue 10 (digits.takeWhile Char.isDigit) with
        | some n => roundDouble n
        | none => .nan) = .finite r → (∃ m : ℕ, r = m) ∨ 2 ^ 53 ≤ r := by
    intro digits r hr
    split at hr
    · exact roundDouble_natCast_cases hr
    · cases hr
  unfold parseInt at h
  dsimp only at h
  split at h
  case h_1 digits _ =>
    -- a negative number is not positive
    generalize hx : (match digitsValue 10 (digits.takeWhile Char.isDigit) with
      | some n => roundDouble n
      | none => .nan) = x at h
    cases x with
    | nan => cases h
    | infinity a => cases h
    | finite r =>
        have hneg : -r = q := finite.inj h
        rcases hnumber digits r hx with ⟨m, rfl⟩ | hlarge
        · have := Nat.cast_nonneg (α := ℚ) m
          linarith
        · linarith
  case h_2 digits _ => exact hnumber digits q h
  case h_3 digits _ _ => exact hnumber _ q h

example : parseInt " 12abc".toList = .finite 12 := by
  decide +kernel

end JsNumber

namespace CarbonVeritas

open Transition

/-! ## Webhooks and their calls -/

structure Webhook where
  id : String
  url : String
  secret : String
  events : List String
  active : Bool

structure WebhookTable where
  rows : List Webhook
  distinct : (rows.map Webhook.id).Nodup

structure WebhookPayload where
  event : String
  timestamp : String
  data : JsValue

/-- A row of `WebhookDelivery`. -/
structure WebhookDelivery where
  webhookId : String
  eventType : String
  payload : WebhookPayload
  success : Bool
  attempts : ℕ
  statusCode : Option ℕ
  durationMs : ℤ
  error : Option String

/-- A status code has three digits. -/
def HttpStatus : Type := { code : ℕ // 100 ≤ code ∧ code ≤ 999 }

/-- A call of `fetch` returns a response, or fails with a message. -/
inductive FetchOutcome where
  | response (status : HttpStatus)
  | failed (message : Option String)

/-- What of a call is sent: the URL, the headers that vary, and the body. -/
structure HttpPost where
  url : String
  signature : String
  timestamp : String
  body : String

/-- What the service is run with. -/
structure WebhookHost where
  WEBHOOK_MAX_ATTEMPTS : Option String
  WEBHOOK_RETRY_BASE_MS : Option String
  /-- `JSON.stringify` -/
  stringify : WebhookPayload → String
  /-- the hexadecimal HMAC of a text under a secret -/
  hmacSha256 : String → String → String
  /-- the message with which the database refuses a delivery -/
  refuses : WebhookDelivery → Option String

/-! ## The service -/

inductive WebhookQuery where
  /-- `Date.now()` -/
  | now
  | fetch (post : HttpPost)
  | createDelivery (row : WebhookDelivery)
  | sleep (ms : JsNumber)

def WebhookQuery.Reply : WebhookQuery → Type
  | now => ℤ
  | fetch _ => FetchOutcome
  | createDelivery _ => Except String Unit
  | sleep _ => Unit

/-- Nothing is thrown. -/
abbrev WebhookProgram := Program WebhookQuery.Reply Empty

namespace WebhooksService

def Date.now : WebhookProgram ℤ := .query .now .ret

def fetch (post : HttpPost) : WebhookProgram FetchOutcome := .query (.fetch post) .ret

def webhookDelivery.create (row : WebhookDelivery) : WebhookProgram (Except String Unit) :=
  .query (.createDelivery row) .ret

def sleep (ms : JsNumber) : WebhookProgram Unit := .query (.sleep ms) .ret

structure DispatchResult where
  status : ℕ
  error : Option String := none

/-- The columns of a delivery that sum it up. -/
structure DeliverySummary where
  success : Bool
  attempts : ℕ
  statusCode : Option ℕ
  durationMs : ℤ
  error : Option String := none

section Service

variable (host : WebhookHost)

def maxAttempts : JsNumber :=
  let parsed : JsNumber := match host.WEBHOOK_MAX_ATTEMPTS with
    | some raw => if raw = "" then .finite 3 else .parseInt raw.toList
    | none => .finite 3
  match parsed with
  | .finite q => if 1 ≤ q then .finite (min q 5) else .finite 3
  | _ => .finite 3

def backoffDelayMs (attempt : ℕ) : JsNumber :=
  let base : JsNumber := match host.WEBHOOK_RETRY_BASE_MS with
    | some raw => if raw = "" then .finite 1000 else .parseInt raw.toList
    | none => .finite 1000
  let safeBase : JsNumber := match base with
    | .finite q => if 0 < q then .finite q else .finite 1000
    | _ => .finite 1000
  safeBase.mul (.finite (2 ^ (attempt - 1)))

def signPayload (secret : String) (payload : WebhookPayload) : String :=
  host.hmacSha256 secret (host.stringify payload)

def dispatch (url : String) (payload : WebhookPayload) (signature : String) :
    WebhookProgram DispatchResult := do
  match ← fetch {
      url, signature, timestamp := payload.timestamp, body := host.stringify payload } with
  | .response status => return { status := status.1 }
  | .failed message => return { status := 0, error := message }

def recordDelivery (webhook : Webhook) (eventType : String) (payload : WebhookPayload)
    (summary : DeliverySummary) : WebhookProgram Unit := do
  match ← webhookDelivery.create {
      webhookId := webhook.id, eventType, payload, success := summary.success
      attempts := summary.attempts, statusCode := summary.statusCode
      durationMs := summary.durationMs, error := summary.error } with
  | .ok () => return
  | .error _ => return

/-- The values of `attempt` in the loop of `deliverWithRetry`. -/
def attemptsUpTo : JsNumber → List ℕ
  | .finite q => List.range' 1 ⌊q⌋.toNat
  | _ => []

/-- The loop of `deliverWithRetry`, from a value of `attempt` on. -/
def deliverAttempts (webhook : Webhook) (eventType : String) (payload : WebhookPayload)
    (signature : String) : List ℕ → WebhookProgram Unit
  | [] => .ret ()
  | attempt :: attempts => do
      let started ← Date.now
      let result ← dispatch host webhook.url payload signature
      let ended ← Date.now
      let durationMs := ended - started
      if 200 ≤ result.status ∧ result.status < 300 then
        recordDelivery webhook eventType payload {
          success := true, attempts := attempt, statusCode := result.status, durationMs }
      else if ¬ (result.status = 0 ∨ 500 ≤ result.status) ∨
          JsNumber.finite attempt = maxAttempts host then
        recordDelivery webhook eventType payload {
          success := false
          attempts := attempt
          statusCode := if result.status = 0 then none else result.status
          durationMs
          error := result.error.getD ("HTTP " ++ toString result.status) }
      else do
        sleep (backoffDelayMs host attempt)
        deliverAttempts webhook eventType payload signature attempts

def deliverWithRetry (webhook : Webhook) (eventType : String) (payload : WebhookPayload) :
    WebhookProgram Unit :=
  deliverAttempts host webhook eventType payload (signPayload host webhook.secret payload)
    (attemptsUpTo (maxAttempts host))

end Service

/-! ## The deliveries of an event -/

/-- A delivery on its way, with the calls that it has made and the records that it has left. -/
structure Delivering where
  /-- what its calls return, one by one -/
  endpoint : ℕ → FetchOutcome
  program : WebhookProgram Unit
  posts : List HttpPost := []
  rows : List WebhookDelivery := []

/-- What one webhook has waited for has arrived, at a time of the clock. -/
structure Turn where
  webhookId : String
  now : ℤ

section Deliveries

variable (host : WebhookHost)

/-- A delivery goes on to what it waits for next. -/
def proceed (d : Delivering) (t : Turn) : Delivering :=
  match d.program with
  | .query .now next => { d with program := next t.now }
  | .query (.fetch post) next =>
      { d with program := next (d.endpoint d.posts.length), posts := d.posts ++ [post] }
  | .query (.createDelivery row) next =>
      match host.refuses row with
      | none => { d with program := next (.ok ()), rows := d.rows ++ [row] }
      | some message => { d with program := next (.error message) }
  | .query (.sleep _) next => { d with program := next () }
  | _ => d

/-- The active webhooks with the event. -/
def subscribed (table : WebhookTable) (eventType : String) : List Webhook :=
  table.rows.filter fun w => eventType ∈ w.events ∧ w.active

def eventPayload (eventType : String) (data : JsValue) (now : ℤ) : WebhookPayload where
  event := eventType
  timestamp := JsDate.toISOString now
  data := data

/-- `dispatchEvent` up to its `Promise.allSettled` : the deliveries, by the ids of the webhooks. -/
def dispatchEvent (table : WebhookTable) (endpoints : String → ℕ → FetchOutcome)
    (eventType : String) (data : JsValue) (now : ℤ) (id : String) : Delivering where
  endpoint := endpoints id
  program := match (subscribed table eventType).find? fun w => w.id = id with
    | some webhook => deliverWithRetry host webhook eventType (eventPayload eventType data now)
    | none => .ret ()

/-- The deliveries after some turns. -/
def deliveries (table : WebhookTable) (endpoints : String → ℕ → FetchOutcome)
    (eventType : String) (data : JsValue) (now : ℤ) (ts : List Turn) : String → Delivering :=
  run (tableNext Turn.webhookId (proceed host))
    (dispatchEvent host table endpoints eventType data now) ts

/-- `Promise.allSettled` is fulfilled. -/
def Settled (webhooks : List Webhook) (reached : String → Delivering) : Prop :=
  ∀ w ∈ webhooks, (reached w.id).program.Ended

end Deliveries

/-! ## The limit of the attempts -/

/-- The limit is an integer from 1 to 5, whatever is configured. -/
theorem maxAttempts_eq (host : WebhookHost) :
    ∃ n : ℕ, 1 ≤ n ∧ n ≤ 5 ∧ maxAttempts host = .finite n := by
  have hlimit : ∀ parsed : JsNumber,
      (∀ q, parsed = .finite q → 1 ≤ q → (∃ m : ℕ, q = m) ∨ 2 ^ 53 ≤ q) →
      ∃ n : ℕ, 1 ≤ n ∧ n ≤ 5 ∧ (match parsed with
        | .finite q => if 1 ≤ q then JsNumber.finite (min q 5) else .finite 3
        | _ => .finite 3) = .finite n := by
    intro parsed hparsed
    cases parsed with
    | nan => exact ⟨3, by decide, by decide, rfl⟩
    | infinity a => exact ⟨3, by decide, by decide, rfl⟩
    | finite q =>
        dsimp only
        split_ifs with hq
        · rcases hparsed q rfl hq with ⟨m, rfl⟩ | hlarge
          · refine ⟨min m 5, ?_, min_le_right m 5, by push_cast; rfl⟩
            exact le_min (by exact_mod_cast hq) (by decide)
          · refine ⟨5, by decide, le_rfl, ?_⟩
            rw [min_eq_right (by linarith)]
            rfl
        · exact ⟨3, by decide, by decide, rfl⟩
  unfold maxAttempts
  refine hlimit _ ?_
  intro q hq hpos
  split at hq
  · split_ifs at hq
    · exact Or.inl ⟨3, (JsNumber.finite.inj hq).symm⟩
    · exact JsNumber.parseInt_cases hq hpos
  · exact Or.inl ⟨3, (JsNumber.finite.inj hq).symm⟩

/-! ## One delivery -/

def result : FetchOutcome → DispatchResult
  | .response status => { status := status.1 }
  | .failed message => { status := 0, error := message }

/-- A response with a status from 200 to 299. -/
def Succeeded : FetchOutcome → Prop
  | .response status => 200 ≤ status.1 ∧ status.1 < 300
  | .failed _ => False

/-- A network error, or a status of 500 or above. -/
def Retryable : FetchOutcome → Prop
  | .response status => 500 ≤ status.1
  | .failed _ => True

instance (o : FetchOutcome) : Decidable (Succeeded o) := by
  cases o <;> unfold Succeeded <;> infer_instance

instance (o : FetchOutcome) : Decidable (Retryable o) := by
  cases o <;> unfold Retryable <;> infer_instance

/-- An attempt succeeds with a status from 200 to 299. -/
theorem succeeded_iff {o : FetchOutcome} :
    Succeeded o ↔ 200 ≤ (result o).status ∧ (result o).status < 300 := by
  cases o with
  | response status => exact Iff.rfl
  | failed message =>
      exact iff_of_false id fun h => absurd h.1 (by simp [result])

/-- An attempt is made again without a status, or with one from 500 on. -/
theorem retryable_iff {o : FetchOutcome} :
    Retryable o ↔ (result o).status = 0 ∨ 500 ≤ (result o).status := by
  cases o with
  | response status =>
      show 500 ≤ status.1 ↔ status.1 = 0 ∨ 500 ≤ status.1
      have := status.2
      omega
  | failed message => exact iff_of_true trivial (Or.inl rfl)

/-- A success is not tried again. -/
theorem Succeeded.not_retryable {o : FetchOutcome} (h : Succeeded o) : ¬ Retryable o := by
  rw [succeeded_iff] at h
  rw [retryable_iff]
  omega

section Delivery

variable (host : WebhookHost) (webhook : Webhook) (eventType : String) (payload : WebhookPayload)

/-- What every call sends. -/
def signedPost : HttpPost where
  url := webhook.url
  signature := signPayload host webhook.secret payload
  timestamp := payload.timestamp
  body := host.stringify payload

/-- The record of a delivery whose last call returned `o`. -/
def deliveryRow (attempt : ℕ) (o : FetchOutcome) (durationMs : ℤ) : WebhookDelivery where
  webhookId := webhook.id
  eventType := eventType
  payload := payload
  success := decide (Succeeded o)
  attempts := attempt
  statusCode := if (result o).status = 0 then none else (result o).status
  durationMs := durationMs
  error := if Succeeded o then none
    else (result o).error.getD ("HTTP " ++ toString (result o).status)

/-- The loop from a value of `attempt` on. -/
abbrev attemptsFrom : List ℕ → WebhookProgram Unit :=
  deliverAttempts host webhook eventType payload (signPayload host webhook.secret payload)

variable {host webhook eventType payload}

/-! ### Single turns -/

/-- A turn answers a query of the clock. -/
theorem proceed_now {d : Delivering} {next : ℤ → WebhookProgram Unit}
    (h : d.program = .query .now next) (t : Turn) :
    proceed host d t = { d with program := next t.now } := by
  unfold proceed
  rw [h]

/-- A turn sends the request that waits to be sent. -/
theorem proceed_fetch {d : Delivering} {post : HttpPost} {next : FetchOutcome → WebhookProgram Unit}
    (h : d.program = .query (.fetch post) next) (t : Turn) :
    proceed host d t =
      { d with program := next (d.endpoint d.posts.length), posts := d.posts ++ [post] } := by
  unfold proceed
  rw [h]

/-- A turn ends the wait between two attempts. -/
theorem proceed_sleep {d : Delivering} {ms : JsNumber} {next : Unit → WebhookProgram Unit}
    (h : d.program = .query (.sleep ms) next) (t : Turn) :
    proceed host d t = { d with program := next () } := by
  unfold proceed
  rw [h]

/-- A turn writes the row that waits to be written. -/
theorem proceed_create {d : Delivering} {row : WebhookDelivery}
    {next : Except String Unit → WebhookProgram Unit} (hrow : host.refuses row = none)
    (h : d.program = .query (.createDelivery row) next) (t : Turn) :
    proceed host d t = { d with program := next (.ok ()), rows := d.rows ++ [row] } := by
  unfold proceed
  rw [h]
  dsimp only
  rw [hrow]

/-- A delivery that has ended stays as it is. -/
theorem proceed_ended {d : Delivering} (h : d.program = .ret ()) (t : Turn) :
    proceed host d t = d := by
  unfold proceed
  rw [h]

/-- So it does in all further turns. -/
theorem run_ended {d : Delivering} (h : d.program = .ret ()) (ts : List Turn) :
    run (proceed host) d ts = d := by
  induction ts with
  | nil => rfl
  | cons t ts ih => rw [run_cons, proceed_ended h, ih]

/-! ### One attempt -/

/-- What an attempt does with the result of its call. -/
def settle (host : WebhookHost) (webhook : Webhook) (eventType : String)
    (payload : WebhookPayload) (attempt : ℕ) (attempts : List ℕ) (result : DispatchResult)
    (durationMs : ℤ) : WebhookProgram Unit :=
  if 200 ≤ result.status ∧ result.status < 300 then
    recordDelivery webhook eventType payload {
      success := true, attempts := attempt, statusCode := result.status, durationMs }
  else if ¬ (result.status = 0 ∨ 500 ≤ result.status) ∨
      JsNumber.finite attempt = maxAttempts host then
    recordDelivery webhook eventType payload {
      success := false
      attempts := attempt
      statusCode := if result.status = 0 then none else result.status
      durationMs
      error := result.error.getD ("HTTP " ++ toString result.status) }
  else do
    sleep (backoffDelayMs host attempt)
    attemptsFrom host webhook eventType payload attempts

/-- An attempt sends the signed request, and settles by what came back. -/
theorem attemptsFrom_cons (attempt : ℕ) (attempts : List ℕ) :
    attemptsFrom host webhook eventType payload (attempt :: attempts) =
      .query .now fun (started : ℤ) => .query (.fetch (signedPost host webhook payload)) fun o =>
        .query .now fun (ended : ℤ) =>
          settle host webhook eventType payload attempt attempts (result o) (ended - started) := by
  have hfetch : ∀ started : ℤ, (do
      let result ← dispatch host webhook.url payload (signPayload host webhook.secret payload)
      let ended ← Date.now
      settle host webhook eventType payload attempt attempts result (ended - started)) =
      .query (.fetch (signedPost host webhook payload)) fun o => .query .now fun (ended : ℤ) =>
        settle host webhook eventType payload attempt attempts (result o) (ended - started) := by
    intro started
    refine congrArg (Program.query _) (funext fun o => ?_)
    cases o <;> rfl
  exact congrArg (Program.query _) (funext hfetch)

/-- A retryable outcome before the limit is slept on. -/
theorem settle_of_retryable {attempt : ℕ} {attempts : List ℕ} {o : FetchOutcome}
    (ho : Retryable o) (hlimit : JsNumber.finite attempt ≠ maxAttempts host) (durationMs : ℤ) :
    settle host webhook eventType payload attempt attempts (result o) durationMs =
      .query (.sleep (backoffDelayMs host attempt)) fun _ =>
        attemptsFrom host webhook eventType payload attempts := by
  have hsucceeded : ¬ Succeeded o := fun h => h.not_retryable ho
  unfold settle
  rw [if_neg (succeeded_iff.not.mp hsucceeded), if_neg]
  · rfl
  · rintro (hno | hlast)
    · exact hno (retryable_iff.mp ho)
    · exact hlimit hlast

/-- Every other outcome is recorded. -/
theorem settle_of_last {attempt : ℕ} {attempts : List ℕ} {o : FetchOutcome}
    (h : ¬ (Retryable o ∧ JsNumber.finite attempt ≠ maxAttempts host)) (durationMs : ℤ) :
    ∃ next, settle host webhook eventType payload attempt attempts (result o) durationMs =
        .query (.createDelivery (deliveryRow webhook eventType payload attempt o durationMs))
          next ∧
      next (.ok ()) = .ret () := by
  unfold settle
  by_cases hsucceeded : Succeeded o
  · have hstatus : (result o).status ≠ 0 := by
      have := succeeded_iff.mp hsucceeded
      omega
    have hrow : deliveryRow webhook eventType payload attempt o durationMs = {
        webhookId := webhook.id, eventType, payload, success := true, attempts := attempt
        statusCode := (result o).status, durationMs, error := none } := by
      unfold deliveryRow
      rw [decide_eq_true hsucceeded, if_neg hstatus, if_pos hsucceeded]
    rw [if_pos (succeeded_iff.mp hsucceeded), hrow]
    refine ⟨_, rfl, ?_⟩
    rfl
  · have hlast : ¬ ((result o).status = 0 ∨ 500 ≤ (result o).status) ∨
        JsNumber.finite attempt = maxAttempts host := by
      rw [retryable_iff, not_and_or, not_not] at h
      exact h
    have hrow : deliveryRow webhook eventType payload attempt o durationMs = {
        webhookId := webhook.id, eventType, payload, success := false, attempts := attempt
        statusCode := if (result o).status = 0 then none else (result o).status
        durationMs
        error := (result o).error.getD ("HTTP " ++ toString (result o).status) } := by
      unfold deliveryRow
      rw [decide_eq_false hsucceeded, if_neg hsucceeded]
    rw [if_neg (succeeded_iff.not.mp hsucceeded), if_pos hlast, hrow]
    refine ⟨_, rfl, ?_⟩
    rfl

/-- **An attempt takes four turns.**  It ends with a record, or with the next attempt. -/
theorem run_attempt (hwrites : ∀ row, host.refuses row = none) {d : Delivering} {attempt : ℕ}
    {attempts : List ℕ}
    (hd : d.program = attemptsFrom host webhook eventType payload (attempt :: attempts))
    (t₁ t₂ t₃ t₄ : Turn) :
    run (proceed host) d [t₁, t₂, t₃, t₄] =
      if Retryable (d.endpoint d.posts.length) ∧ JsNumber.finite attempt ≠ maxAttempts host then
        { d with
          program := attemptsFrom host webhook eventType payload attempts
          posts := d.posts ++ [signedPost host webhook payload] }
      else
        { d with
          program := .ret ()
          posts := d.posts ++ [signedPost host webhook payload]
          rows := d.rows ++ [deliveryRow webhook eventType payload attempt
            (d.endpoint d.posts.length) (t₃.now - t₁.now)] } := by
  rw [attemptsFrom_cons] at hd
  rw [run_cons, proceed_now hd, run_cons, proceed_fetch rfl, run_cons, proceed_now rfl, run_cons,
    run_nil]
  split_ifs with hretry
  · rw [settle_of_retryable hretry.1 hretry.2, proceed_sleep rfl]
  · obtain ⟨next, hsettle, hnext⟩ := settle_of_last hretry (t₃.now - t₁.now)
    rw [hsettle, proceed_create (hwrites _) rfl, hnext]

/-! ### The loop -/

/-- Four turns are enough for one attempt. -/
theorem exists_four_turns {ts : List Turn} (h : 4 ≤ ts.length) :
    ∃ t₁ t₂ t₃ t₄ rest, ts = [t₁, t₂, t₃, t₄] ++ rest := by
  match ts, h with
  | t₁ :: t₂ :: t₃ :: t₄ :: rest, _ => exact ⟨t₁, t₂, t₃, t₄, rest, rfl⟩

/-- The delivery ends with its next attempt if the outcome is not retryable or the limit is
reached. -/
theorem run_last (hwrites : ∀ row, host.refuses row = none) {d : Delivering} {attempt : ℕ}
    {attempts : List ℕ}
    (hd : d.program = attemptsFrom host webhook eventType payload (attempt :: attempts))
    (h : ¬ (Retryable (d.endpoint d.posts.length) ∧
      JsNumber.finite attempt ≠ maxAttempts host))
    (ts : List Turn) (hts : 4 ≤ ts.length) :
    ∃ durationMs, run (proceed host) d ts = { d with
      program := .ret ()
      posts := d.posts ++ [signedPost host webhook payload]
      rows := d.rows ++ [deliveryRow webhook eventType payload attempt
        (d.endpoint d.posts.length) durationMs] } := by
  obtain ⟨t₁, t₂, t₃, t₄, rest, rfl⟩ := exists_four_turns hts
  refine ⟨t₃.now - t₁.now, ?_⟩
  rw [run_append, run_attempt hwrites hd, if_neg h, run_ended rfl]

/-- The next attempt follows otherwise. -/
theorem run_retried (hwrites : ∀ row, host.refuses row = none) {d : Delivering} {attempt : ℕ}
    {attempts : List ℕ}
    (hd : d.program = attemptsFrom host webhook eventType payload (attempt :: attempts))
    (h : Retryable (d.endpoint d.posts.length) ∧ JsNumber.finite attempt ≠ maxAttempts host)
    {ts : List Turn} (hts : 4 ≤ ts.length) :
    run (proceed host) d ts = run (proceed host) { d with
      program := attemptsFrom host webhook eventType payload attempts
      posts := d.posts ++ [signedPost host webhook payload] } (ts.drop 4) := by
  obtain ⟨t₁, t₂, t₃, t₄, rest, rfl⟩ := exists_four_turns hts
  rw [run_append, run_attempt hwrites hd, if_pos h]
  rfl

/-- The state in which the loop ends, `m` retries after the delivery `d`. -/
def ended (host : WebhookHost) (webhook : Webhook) (eventType : String)
    (payload : WebhookPayload) (d : Delivering) (m : ℕ) (durationMs : ℤ) : Delivering :=
  { d with
    program := .ret ()
    posts := d.posts ++ List.replicate (m + 1) (signedPost host webhook payload)
    rows := d.rows ++ [deliveryRow webhook eventType payload (d.posts.length + m + 1)
      (d.endpoint (d.posts.length + m)) durationMs] }

/-- The last attempt is the one with the number of the limit. -/
theorem attempt_eq_limit_iff {n : ℕ} (hlimit : maxAttempts host = .finite n) (attempt : ℕ) :
    JsNumber.finite attempt = maxAttempts host ↔ attempt = n := by
  rw [hlimit, JsNumber.finite.injEq, Nat.cast_inj]

/-- **The loop ends with one record.**  Four turns an attempt are enough; the outcomes before the
last are retryable, and the last is not or is that of the last attempt. -/
theorem run_attempts (hwrites : ∀ row, host.refuses row = none) {n : ℕ}
    (hlimit : maxAttempts host = .finite n) {k : ℕ} {d : Delivering} {ts : List Turn}
    (hk : d.posts.length + (k + 1) = n)
    (hd : d.program = attemptsFrom host webhook eventType payload
      (List.range' (d.posts.length + 1) (k + 1)))
    (hts : 4 * (k + 1) ≤ ts.length) :
    ∃ m durationMs, d.posts.length + m < n ∧
      run (proceed host) d ts = ended host webhook eventType payload d m durationMs ∧
      (∀ j < m, Retryable (d.endpoint (d.posts.length + j))) ∧
      (d.posts.length + m + 1 = n ∨ ¬ Retryable (d.endpoint (d.posts.length + m))) := by
  -- on the number of attempts that are left after this one
  induction k generalizing d ts with
  | zero =>
      have hlast := (attempt_eq_limit_iff hlimit (d.posts.length + 1)).mpr hk
      obtain ⟨durationMs, hrun⟩ := run_last hwrites hd (fun h => h.2 hlast) ts hts
      exact ⟨0, durationMs, by omega, hrun, fun j hj => absurd hj (by omega), Or.inl hk⟩
  | succ k ih =>
      rw [List.range'_succ] at hd
      by_cases hretryable : Retryable (d.endpoint d.posts.length)
      · have hnot : JsNumber.finite ((d.posts.length + 1 : ℕ) : ℚ) ≠ maxAttempts host := by
          rw [Ne, attempt_eq_limit_iff hlimit]
          omega
        rw [run_retried hwrites hd ⟨hretryable, hnot⟩ (by omega)]
        let d' : Delivering := { d with
          program := attemptsFrom host webhook eventType payload
            (List.range' (d.posts.length + 1 + 1) (k + 1))
          posts := d.posts ++ [signedPost host webhook payload] }
        have hlength : d'.posts.length = d.posts.length + 1 := List.length_append
        obtain ⟨m, durationMs, hm, hrun, hbefore, hafter⟩ := @ih d' (ts.drop 4)
          (by omega) (by rw [hlength]) (by rw [List.length_drop]; omega)
        have hplace : ∀ j, d'.posts.length + j = d.posts.length + (j + 1) := by omega
        rw [hplace] at hm hafter
        refine ⟨m + 1, durationMs, hm, hrun.trans ?_, fun j hj => ?_, hafter⟩
        · unfold ended
          rw [hplace]
          simp [d', List.replicate_succ]
        · cases j with
          | zero => exact hretryable
          | succ j =>
              rw [← hplace]
              exact hbefore j (by omega)
      · obtain ⟨durationMs, hrun⟩ := run_last hwrites hd (fun h => hretryable h.1) ts (by omega)
        exact ⟨0, durationMs, by omega, hrun, fun j hj => absurd hj (by omega), Or.inr hretryable⟩

/-! ### A delivery from its beginning -/

/-- The record of a delivery tells what its calls returned. -/
structure Recorded (host : WebhookHost) (webhook : Webhook) (eventType : String)
    (payload : WebhookPayload) (d : Delivering) (row : WebhookDelivery) : Prop where
  posts : ∀ post ∈ d.posts, post = signedPost host webhook payload
  webhookId : row.webhookId = webhook.id
  eventType : row.eventType = eventType
  payload : row.payload = payload
  /-- the attempts are the calls that were made -/
  attempts : row.attempts = d.posts.length
  bounds : 1 ≤ row.attempts ∧ row.attempts ≤ 5
  /-- every outcome before the last is a network error or a status of 500 or above -/
  retried : ∀ j, j + 1 < row.attempts → Retryable (d.endpoint j)
  /-- the last is none, or the limit is reached -/
  stopped : JsNumber.finite row.attempts = maxAttempts host ∨
    ¬ Retryable (d.endpoint (row.attempts - 1))
  success : row.success = true ↔ Succeeded (d.endpoint (row.attempts - 1))
  statusCode : row.statusCode = if (result (d.endpoint (row.attempts - 1))).status = 0 then none
    else (result (d.endpoint (row.attempts - 1))).status

/-- The delivery has ended with exactly one record. -/
def Delivered (host : WebhookHost) (webhook : Webhook) (eventType : String)
    (payload : WebhookPayload) (d : Delivering) : Prop :=
  d.program = .ret () ∧ ∃ row, d.rows = [row] ∧ Recorded host webhook eventType payload d row

/-- A delivery that has not begun. -/
def undelivered (host : WebhookHost) (webhook : Webhook) (eventType : String)
    (payload : WebhookPayload) (endpoint : ℕ → FetchOutcome) : Delivering where
  endpoint := endpoint
  program := deliverWithRetry host webhook eventType payload

/-- The loop makes the attempts up to the limit. -/
theorem deliverWithRetry_eq {n : ℕ} (hlimit : maxAttempts host = .finite n) :
    deliverWithRetry host webhook eventType payload =
      attemptsFrom host webhook eventType payload (List.range' 1 n) := by
  show attemptsFrom host webhook eventType payload (attemptsUpTo (maxAttempts host)) = _
  rw [hlimit]
  show attemptsFrom host webhook eventType payload (List.range' 1 ⌊(n : ℚ)⌋.toNat) = _
  rw [Int.floor_natCast, Int.toNat_natCast]

/-- After twenty turns the webhook is delivered. -/
theorem delivered_of_turns (hwrites : ∀ row, host.refuses row = none)
    (endpoint : ℕ → FetchOutcome) {ts : List Turn} (hts : 20 ≤ ts.length) :
    Delivered host webhook eventType payload (run (proceed host)
      (undelivered host webhook eventType payload endpoint) ts) := by
  obtain ⟨n, hpos, hfive, hlimit⟩ := maxAttempts_eq host
  obtain ⟨k, rfl⟩ := Nat.exists_eq_add_of_le' hpos
  have hprogram : (undelivered host webhook eventType payload endpoint).program =
      attemptsFrom host webhook eventType payload (List.range' 1 (k + 1)) :=
    deliverWithRetry_eq hlimit
  obtain ⟨m, durationMs, hm, hrun, hbefore, hafter⟩ :=
    run_attempts hwrites hlimit (Nat.zero_add _) hprogram (show 4 * (k + 1) ≤ ts.length by omega)
  have hplace : (undelivered host webhook eventType payload endpoint).posts.length + m = m :=
    Nat.zero_add m
  rw [hplace] at hm hafter
  rw [hrun]
  refine ⟨rfl, _, List.nil_append _, ?_⟩
  rw [hplace]
  exact {
    posts := fun post hpost => List.eq_of_mem_replicate hpost
    webhookId := rfl
    eventType := rfl
    payload := rfl
    attempts := by
      unfold ended
      rw [List.length_append, List.length_replicate]
      exact (Nat.zero_add _).symm
    bounds := ⟨Nat.le_add_left 1 m, (show m + 1 ≤ 5 by omega)⟩
    retried := fun j hj => by
      have hj : j < m := Nat.lt_of_succ_lt_succ hj
      have hretryable := hbefore j hj
      rwa [show (undelivered host webhook eventType payload endpoint).posts.length + j = j from
        Nat.zero_add j] at hretryable
    stopped := hafter.imp_left (attempt_eq_limit_iff hlimit (m + 1)).mpr
    success := decide_eq_true_iff
    statusCode := rfl }

/-- Every run goes on to the end of the delivery. -/
theorem exists_delivered (hwrites : ∀ row, host.refuses row = none)
    (endpoint : ℕ → FetchOutcome) (ts : List Turn) :
    ∃ more, Delivered host webhook eventType payload (run (proceed host)
      (undelivered host webhook eventType payload endpoint) (ts ++ more)) := by
  refine ⟨List.replicate 20 { webhookId := webhook.id, now := 0 }, ?_⟩
  refine delivered_of_turns hwrites endpoint ?_
  rw [List.length_append, List.length_replicate]
  omega

/-- A delivery that has ended is one. -/
theorem delivered_of_ended (hwrites : ∀ row, host.refuses row = none)
    (endpoint : ℕ → FetchOutcome) {ts : List Turn}
    (hended : (run (proceed host)
      (undelivered host webhook eventType payload endpoint) ts).program.Ended) :
    Delivered host webhook eventType payload (run (proceed host)
      (undelivered host webhook eventType payload endpoint) ts) := by
  have hret : (run (proceed host)
      (undelivered host webhook eventType payload endpoint) ts).program = .ret () := by
    cases hprogram : (run (proceed host)
        (undelivered host webhook eventType payload endpoint) ts).program with
    | ret u => rfl
    | throw e => exact e.elim
    | query q next =>
        rw [hprogram] at hended
        exact hended.elim
  -- more turns change nothing
  obtain ⟨more, hmore⟩ : ∃ more, Delivered host webhook eventType payload (run (proceed host)
      (undelivered host webhook eventType payload endpoint) (ts ++ more)) :=
    exists_delivered hwrites endpoint ts
  rwa [run_append, run_ended hret] at hmore

/-- Calls and records are only appended. -/
theorem proceed_prefix (host : WebhookHost) (d : Delivering) (t : Turn) :
    d.posts <+: (proceed host d t).posts ∧ d.rows <+: (proceed host d t).rows := by
  unfold proceed
  split
  · exact ⟨List.prefix_rfl, List.prefix_rfl⟩
  · exact ⟨List.prefix_append _ _, List.prefix_rfl⟩
  · split
    · exact ⟨List.prefix_rfl, List.prefix_append _ _⟩
    · exact ⟨List.prefix_rfl, List.prefix_rfl⟩
  · exact ⟨List.prefix_rfl, List.prefix_rfl⟩
  · exact ⟨List.prefix_rfl, List.prefix_rfl⟩

/-- Turns only add requests and rows. -/
theorem run_prefix (host : WebhookHost) (d : Delivering) (ts : List Turn) :
    d.posts <+: (run (proceed host) d ts).posts ∧ d.rows <+: (run (proceed host) d ts).rows := by
  induction ts generalizing d with
  | nil => exact ⟨List.prefix_rfl, List.prefix_rfl⟩
  | cons t ts ih =>
      obtain ⟨hposts, hrows⟩ := proceed_prefix host d t
      exact ⟨hposts.trans (ih _).1, hrows.trans (ih _).2⟩

/-- At no time are there more than one record or more than five calls. -/
theorem length_rows_le (hwrites : ∀ row, host.refuses row = none)
    (endpoint : ℕ → FetchOutcome) (ts : List Turn) :
    (run (proceed host) (undelivered host webhook eventType payload endpoint) ts).rows.length ≤ 1 ∧
    (run (proceed host) (undelivered host webhook eventType payload endpoint) ts).posts.length ≤
      5 := by
  obtain ⟨more, -, row, hrows, hrecorded⟩ : ∃ more, Delivered host webhook eventType payload
      (run (proceed host) (undelivered host webhook eventType payload endpoint) (ts ++ more)) :=
    exists_delivered hwrites endpoint ts
  rw [run_append] at hrows hrecorded
  obtain ⟨hposts, hprefix⟩ := run_prefix host
    (run (proceed host) (undelivered host webhook eventType payload endpoint) ts) more
  constructor
  · have hlength := hprefix.length_le
    rw [hrows] at hlength
    exact hlength
  · exact hposts.length_le.trans (hrecorded.attempts ▸ hrecorded.bounds.2)

end Delivery

/-! ## All deliveries -/

section Deliveries

variable {host : WebhookHost} {table : WebhookTable} {endpoints : String → ℕ → FetchOutcome}
  {eventType : String} {data : JsValue} {now : ℤ} {w : Webhook}

/-- A webhook is found by its id. -/
theorem find_subscribed (hw : w ∈ subscribed table eventType) :
    (subscribed table eventType).find? (fun w' => w'.id = w.id) = some w := by
  have hdistinct : ((subscribed table eventType).map Webhook.id).Nodup :=
    table.distinct.sublist (List.filter_sublist.map _)
  obtain ⟨w', hfind⟩ : ∃ w', (subscribed table eventType).find? (fun w' => w'.id = w.id) =
      some w' := by
    rw [← Option.isSome_iff_exists, List.find?_isSome]
    exact ⟨w, hw, decide_eq_true rfl⟩
  have hid : w'.id = w.id := by simpa using List.find?_some hfind
  rw [hfind, List.inj_on_of_nodup_map hdistinct (List.mem_of_find?_eq_some hfind) hw hid]

/-- Every subscribed webhook starts undelivered. -/
theorem dispatchEvent_subscribed (hw : w ∈ subscribed table eventType) :
    dispatchEvent host table endpoints eventType data now w.id =
      undelivered host w eventType (eventPayload eventType data now) (endpoints w.id) := by
  unfold dispatchEvent
  rw [find_subscribed hw]
  rfl

/-- The delivery to a webhook depends on its own turns. -/
theorem deliveries_subscribed (hw : w ∈ subscribed table eventType) (ts : List Turn) :
    deliveries host table endpoints eventType data now ts w.id =
      run (proceed host)
        (undelivered host w eventType (eventPayload eventType data now) (endpoints w.id))
        (labelsOf Turn.webhookId w.id ts) := by
  unfold deliveries
  rw [run_entry, dispatchEvent_subscribed hw]

/-- Nothing is delivered to other webhooks. -/
theorem deliveries_other {id : String} (hid : ∀ w ∈ subscribed table eventType, w.id ≠ id)
    (ts : List Turn) :
    (deliveries host table endpoints eventType data now ts id).posts = [] ∧
      (deliveries host table endpoints eventType data now ts id).rows = [] := by
  have hnone : (subscribed table eventType).find? (fun w => w.id = id) = none := by
    rw [List.find?_eq_none]
    exact fun w hw => by simpa using hid w hw
  have hret : (dispatchEvent host table endpoints eventType data now id).program = .ret () := by
    unfold dispatchEvent
    rw [hnone]
  unfold deliveries
  rw [run_entry, run_ended hret]
  exact ⟨rfl, rfl⟩

/-- Twenty turns are enough for a delivery. -/
theorem delivered_of_twenty (hwrites : ∀ row, host.refuses row = none)
    (hw : w ∈ subscribed table eventType) {ts : List Turn}
    (hts : 20 ≤ (labelsOf Turn.webhookId w.id ts).length) :
    Delivered host w eventType (eventPayload eventType data now)
      (deliveries host table endpoints eventType data now ts w.id) := by
  rw [deliveries_subscribed hw]
  exact delivered_of_turns hwrites (endpoints w.id) hts

/-- In a fair schedule every delivery gets its turns. -/
theorem settled_of_fair (hwrites : ∀ row, host.refuses row = none) {schedule : ℕ → Turn}
    (hfair : ∀ w ∈ subscribed table eventType, ∀ n, ∃ m, n ≤ m ∧ (schedule m).webhookId = w.id) :
    ∃ n, ∀ m, n ≤ m → Settled (subscribed table eventType)
      (deliveries host table endpoints eventType data now ((List.range m).map schedule)) := by
  obtain ⟨n, hn⟩ := exists_forall_length_labelsOf
    ((subscribed table eventType).map Webhook.id) (by simpa using hfair) 20
  refine ⟨n, fun m hm w hw => ?_⟩
  have hdelivered : Delivered host w eventType (eventPayload eventType data now)
      (deliveries host table endpoints eventType data now ((List.range m).map schedule) w.id) :=
    delivered_of_twenty hwrites hw (hn m hm w.id (List.mem_map_of_mem hw))
  rw [hdelivered.1]
  trivial

/-- What is recorded at any time, for a webhook of the event or another. -/
theorem length_deliveries_le (hwrites : ∀ row, host.refuses row = none) (ts : List Turn)
    (id : String) :
    (deliveries host table endpoints eventType data now ts id).rows.length ≤ 1 ∧
      (deliveries host table endpoints eventType data now ts id).posts.length ≤ 5 ∧
      ((∀ w ∈ subscribed table eventType, w.id ≠ id) →
        (deliveries host table endpoints eventType data now ts id).rows = []) := by
  by_cases hid : ∃ w ∈ subscribed table eventType, w.id = id
  · obtain ⟨w, hw, rfl⟩ := hid
    rw [deliveries_subscribed hw]
    obtain ⟨hrows, hposts⟩ : (run (proceed host) (undelivered host w eventType
          (eventPayload eventType data now) (endpoints w.id))
          (labelsOf Turn.webhookId w.id ts)).rows.length ≤ 1 ∧ _ :=
      length_rows_le hwrites (endpoints w.id) (labelsOf Turn.webhookId w.id ts)
    exact ⟨hrows, hposts, fun hother => absurd rfl (hother w hw)⟩
  · push Not at hid
    obtain ⟨hposts, hrows⟩ := deliveries_other hid ts
    rw [hposts, hrows]
    exact ⟨Nat.zero_le _, Nat.zero_le _, fun _ => rfl⟩

/-- **Webhook deliveries.**  In every fair schedule the event is settled from some turn on.  When
it is, every subscribed webhook has exactly one record, which tells what its calls returned; at
no time has it more, and no other webhook has any.  What becomes of a delivery depends neither on
the other webhooks nor on their endpoints and turns. -/
theorem dispatchEvent_delivers (host : WebhookHost) (hwrites : ∀ row, host.refuses row = none)
    (table : WebhookTable) (endpoints : String → ℕ → FetchOutcome) (eventType : String)
    (data : JsValue) (now : ℤ) :
    (∀ schedule : ℕ → Turn,
      (∀ w ∈ subscribed table eventType, ∀ n, ∃ m, n ≤ m ∧ (schedule m).webhookId = w.id) →
      ∃ n, ∀ m, n ≤ m → Settled (subscribed table eventType)
        (deliveries host table endpoints eventType data now ((List.range m).map schedule))) ∧
    (∀ ts : List Turn,
      Settled (subscribed table eventType)
        (deliveries host table endpoints eventType data now ts) →
      ∀ w ∈ subscribed table eventType,
        Delivered host w eventType (eventPayload eventType data now)
          (deliveries host table endpoints eventType data now ts w.id)) ∧
    (∀ (ts : List Turn) (id : String),
      (deliveries host table endpoints eventType data now ts id).rows.length ≤ 1 ∧
      (deliveries host table endpoints eventType data now ts id).posts.length ≤ 5 ∧
      ((∀ w ∈ subscribed table eventType, w.id ≠ id) →
        (deliveries host table endpoints eventType data now ts id).rows = [])) ∧
    (∀ (table' : WebhookTable) (endpoints' : String → ℕ → FetchOutcome) (ts ts' : List Turn),
      ∀ w ∈ subscribed table eventType, w ∈ subscribed table' eventType →
      endpoints' w.id = endpoints w.id →
      labelsOf Turn.webhookId w.id ts' = labelsOf Turn.webhookId w.id ts →
      deliveries host table' endpoints' eventType data now ts' w.id =
        deliveries host table endpoints eventType data now ts w.id) := by
  refine ⟨fun _ hfair => settled_of_fair hwrites hfair, fun ts hsettled w hw => ?_,
    length_deliveries_le hwrites, ?_⟩
  · have hended := hsettled w hw
    rw [deliveries_subscribed hw] at hended ⊢
    exact delivered_of_ended hwrites (endpoints w.id) hended
  · intro table' endpoints' ts ts' w hw hw' hendpoints hlabels
    rw [deliveries_subscribed hw, deliveries_subscribed hw', hendpoints, hlabels]

end Deliveries

/-! ## Two webhooks -/

section Sample

def sampleHost : WebhookHost where
  WEBHOOK_MAX_ATTEMPTS := none
  WEBHOOK_RETRY_BASE_MS := some "250"
  stringify payload := payload.event ++ payload.timestamp
  hmacSha256 secret body := secret ++ body
  refuses _ := none

def sampleWebhook (id : String) : Webhook where
  id := id
  url := "https://example.com/" ++ id
  secret := "secret"
  events := ["credit.retired"]
  active := true

def sampleTable : WebhookTable where
  rows := [sampleWebhook "webhook-1", sampleWebhook "webhook-2"]
  distinct := by decide

/-- The first endpoint answers its second call, the other one none. -/
def sampleEndpoints (id : String) (call : ℕ) : FetchOutcome :=
  if id = "webhook-1" then
    if call = 0 then .response ⟨503, by decide⟩ else .response ⟨200, by decide⟩
  else .failed (some "timeout")

/-- The webhooks take turns. -/
def sampleTurns : List Turn :=
  (List.replicate 12 [{ webhookId := "webhook-1", now := 0 },
    { webhookId := "webhook-2", now := 0 }]).flatten

example : (deliveries sampleHost sampleTable sampleEndpoints "credit.retired" .null 0 sampleTurns
    "webhook-1").rows.map (fun row => (row.success, row.attempts, row.statusCode)) =
      [(true, 2, some 200)] := by
  decide +kernel

/-- The two webhooks of the example get their deliveries. -/
theorem dispatchEvent_delivers_sample :
    Delivered sampleHost (sampleWebhook "webhook-1") "credit.retired"
        (eventPayload "credit.retired" .null 0)
        (deliveries sampleHost sampleTable sampleEndpoints "credit.retired" .null 0 sampleTurns
          "webhook-1") ∧
      Delivered sampleHost (sampleWebhook "webhook-2") "credit.retired"
        (eventPayload "credit.retired" .null 0)
        (deliveries sampleHost sampleTable sampleEndpoints "credit.retired" .null 0 sampleTurns
          "webhook-2") := by
  obtain ⟨-, hsettled, -, -⟩ := dispatchEvent_delivers sampleHost (fun _ => rfl) sampleTable
    sampleEndpoints "credit.retired" .null 0
  have hsubscribed : subscribed sampleTable "credit.retired" =
      [sampleWebhook "webhook-1", sampleWebhook "webhook-2"] :=
    List.filter_eq_self.mpr (by decide)
  have hdelivered := hsettled sampleTurns (by unfold Settled; decide +kernel)
  rw [hsubscribed] at hdelivered
  exact ⟨hdelivered _ List.mem_cons_self,
    hdelivered _ (List.mem_cons_of_mem _ List.mem_cons_self)⟩

end Sample

end WebhooksService

end CarbonVeritas
