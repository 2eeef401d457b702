/-
# Requests for webhooks

The endpoints of `api/src/webhooks/webhooks.controller.ts` with the methods of the service behind
them: `register`, `list`, `remove`, `sendTest` and `listDeliveries`.  They share the tables with
each other and with the deliveries of events (`WebhooksService`).

The tables keep the constraints of `schema.prisma` : the primary key of `Webhook` and the foreign
keys of `Webhook` and `WebhookDelivery`, the latter with `ON DELETE RESTRICT`.  A query is answered
at one point of time, or the database does not answer it.  The order of rows with one time of
creation is left open.  The validation of a URL (`@IsUrl`) and the loggers are left out.
-/
import CarbonVeritas.ProgramTraces
import CarbonVeritas.TableQueries
import CarbonVeritas.WebhooksService

namespace CarbonVeritas

open TableQueries

/-! ## Tables -/

/-- A row of `Webhook`. -/
structure WebhookRow extends Webhook where
  userId : String
  createdAt : ℤ
  updatedAt : ℤ

/-- A row of `WebhookDelivery` with its generated columns. -/
structure DeliveryRow extends WebhookDelivery where
  id : String
  createdAt : ℤ

structure WebhookDb where
  /-- the ids of the users -/
  users : List String
  webhooks : List WebhookRow
  deliveries : List DeliveryRow
  /-- `Webhook_pkey` -/
  distinct : (webhooks.map fun w => w.id).Nodup
  /-- `WebhookDelivery_webhookId_fkey` -/
  referenced : ∀ d ∈ deliveries, ∃ w ∈ webhooks, w.id = d.webhookId

inductive PrismaError where
  | unavailable (message : String)
  | foreignKey
  | recordNotFound
  deriving DecidableEq

inductive WebhookError where
  | notFound (message : String)
  | forbidden (message : String)
  | database (e : PrismaError)
  deriving DecidableEq

/-- What the requests are served with. -/
structure WebhooksHost extends WebhookHost where
  /-- the clock at each query, in milliseconds -/
  time : ℕ → ℤ
  /-- the id that a row created by a query gets -/
  cuid : ℕ → String
  cuid_injective : Function.Injective cuid
  /-- `crypto.randomBytes(32).toString('hex')` -/
  randomBytes : ℕ → String
  /-- what a call of `fetch` returns -/
  endpoint : ℕ → HttpPost → FetchOutcome
  /-- the database does not answer the query -/
  outage : ℕ → Option String
  /-- the message of an error of the database -/
  message : PrismaError → String
  /-- `orderBy: { createdAt: 'desc' }` -/
  newestFirst : ℕ → {α : Type} → (α → ℤ) → List α → List α
  newestFirst_perm : ∀ (n : ℕ) {α : Type} (key : α → ℤ) (rows : List α),
    (newestFirst n key rows).Perm rows
  newestFirst_sorted : ∀ (n : ℕ) {α : Type} (key : α → ℤ) (rows : List α),
    (newestFirst n key rows).Pairwise (Descending key)

/-- The database after some queries. -/
structure WebhookState (host : WebhooksHost) where
  db : WebhookDb
  /-- the number of queries so far -/
  served : ℕ
  /-- the ids of the webhooks were generated -/
  numbered : ∀ w ∈ db.webhooks, ∃ n < served, w.id = host.cuid n

namespace WebhookState

variable {host : WebhooksHost} (s : WebhookState host)

/-- After one more query. -/
def tick : WebhookState host where
  db := s.db
  served := s.served + 1
  numbered w hw := by
    obtain ⟨n, hn, hid⟩ := s.numbered w hw
    exact ⟨n, by omega, hid⟩

/-- The row that a query inserts. -/
def newRow (userId url secret : String) (events : List String) : WebhookRow where
  id := host.cuid s.served
  url := url
  secret := secret
  events := events
  active := true
  userId := userId
  createdAt := host.time s.served
  updatedAt := host.time s.served

/-- A generated id is new. -/
theorem cuid_notMem : host.cuid s.served ∉ s.db.webhooks.map fun w => w.id := by
  intro hmem
  obtain ⟨w, hw, hid⟩ := List.mem_map.mp hmem
  obtain ⟨n, hn, hnid⟩ := s.numbered w hw
  have hsame := host.cuid_injective (hnid.symm.trans hid)
  omega

def insertWebhook (userId url secret : String) (events : List String) : WebhookState host where
  db :=
    { users := s.db.users
      webhooks := s.db.webhooks ++ [s.newRow userId url secret events]
      deliveries := s.db.deliveries
      distinct := by
        rw [List.map_append, List.nodup_append]
        refine ⟨s.db.distinct, List.nodup_singleton _, ?_⟩
        rintro id hid id' hnew rfl
        rw [List.map_singleton, List.mem_singleton] at hnew
        subst hnew
        exact s.cuid_notMem hid
      referenced := by
        intro d hd
        obtain ⟨w, hw, hid⟩ := s.db.referenced d hd
        exact ⟨w, List.mem_append_left _ hw, hid⟩ }
  served := s.served + 1
  numbered := by
    intro w hw
    rcases List.mem_append.mp hw with hold | hnew
    · obtain ⟨n, hn, hid⟩ := s.numbered w hold
      exact ⟨n, by omega, hid⟩
    · rw [List.mem_singleton.mp hnew]
      exact ⟨s.served, by omega, rfl⟩

/-- The database refuses to delete a webhook that a delivery refers to. -/
def deleteWebhook (id : String) (h : ∀ d ∈ s.db.deliveries, d.webhookId ≠ id) :
    WebhookState host where
  db :=
    { users := s.db.users
      webhooks := s.db.webhooks.filter fun w => w.id ≠ id
      deliveries := s.db.deliveries
      distinct := s.db.distinct.sublist (List.filter_sublist.map _)
      referenced := by
        intro d hd
        obtain ⟨w, hw, hid⟩ := s.db.referenced d hd
        have hkept : w.id ≠ id := fun heq => h d hd (hid.symm.trans heq)
        exact ⟨w, List.mem_filter.mpr ⟨hw, by simpa using hkept⟩, hid⟩ }
  served := s.served + 1
  numbered := by
    intro w hw
    obtain ⟨n, hn, hid⟩ := s.numbered w (List.mem_of_mem_filter hw)
    exact ⟨n, by omega, hid⟩

def newDelivery (row : WebhookDelivery) : DeliveryRow where
  toWebhookDelivery := row
  id := host.cuid s.served
  createdAt := host.time s.served

def insertDelivery (row : WebhookDelivery) (h : ∃ w ∈ s.db.webhooks, w.id = row.webhookId) :
    WebhookState host where
  db :=
    { users := s.db.users
      webhooks := s.db.webhooks
      deliveries := s.db.deliveries ++ [s.newDelivery row]
      distinct := s.db.distinct
      referenced := by
        intro d hd
        rcases List.mem_append.mp hd with hold | hnew
        · exact s.db.referenced d hold
        · rw [List.mem_singleton.mp hnew]
          exact h }
  served := s.served + 1
  numbered := s.tick.numbered

end WebhookState

/-! ## Queries -/

inductive WebhooksQuery where
  | randomBytes
  | createWebhook (userId url secret : String) (events : List String)
  | findWebhooks (userId : String)
  | findWebhookIds (userId : String)
  | findWebhook (id : String)
  | deleteWebhook (id : String)
  | findDeliveries (webhookIds : List String) (eventType : Option String) (take : ℕ)
  | delivery (q : WebhookQuery)

def WebhooksQuery.Reply : WebhooksQuery → Type
  | randomBytes => String
  | createWebhook _ _ _ _ => WebhookRow
  | findWebhooks _ => List WebhookRow
  | findWebhookIds _ => List String
  | findWebhook _ => Option WebhookRow
  | deleteWebhook _ => Unit
  | findDeliveries _ _ _ => List DeliveryRow
  | delivery q => q.Reply

abbrev WebhooksProgram := Program WebhooksQuery.Reply WebhookError

/-- The deliveries that a query selects. -/
def selectsDelivery (webhookIds : List String) (eventType : Option String) (d : DeliveryRow) :
    Bool :=
  d.webhookId ∈ webhookIds ∧ eventType.all fun t => d.eventType = t

namespace WebhooksHost

variable (host : WebhooksHost)

/-- The answer of the database, if it answers. -/
def reach {R : Type} (s : WebhookState host) (answer : Except PrismaError R × WebhookState host) :
    Except WebhookError R × WebhookState host :=
  match host.outage s.served with
  | some message => (.error (.database (.unavailable message)), s.tick)
  | none =>
      match answer with
      | (.ok r, s') => (.ok r, s')
      | (.error e, s') => (.error (.database e), s')

/-- The answer to a query of a delivery, which handles the errors of the database itself. -/
def handleDelivery : (q : WebhookQuery) → WebhookState host → q.Reply × WebhookState host
  | .now, s => (host.time s.served, s.tick)
  | .fetch post, s => (host.endpoint s.served post, s.tick)
  | .sleep _, s => ((), s.tick)
  | .createDelivery row, s =>
      match (host.outage s.served).or (host.refuses row) with
      | some message => (.error message, s.tick)
      | none =>
          if h : ∃ w ∈ s.db.webhooks, w.id = row.webhookId then (.ok (), s.insertDelivery row h)
          else (.error (host.message .foreignKey), s.tick)

/-- The answer to a query, and the state after it. -/
def handle : (q : WebhooksQuery) → WebhookState host →
    Except WebhookError q.Reply × WebhookState host
  | .randomBytes, s => (.ok (host.randomBytes s.served), s.tick)
  | .createWebhook userId url secret events, s =>
      host.reach s <|
        if userId ∈ s.db.users then
          (.ok (s.newRow userId url secret events), s.insertWebhook userId url secret events)
        else (.error .foreignKey, s.tick)
  | .findWebhooks userId, s =>
      host.reach s
        (.ok (host.newestFirst s.served WebhookRow.createdAt
          (s.db.webhooks.filter fun w => w.userId = userId)), s.tick)
  | .findWebhookIds userId, s =>
      host.reach s
        (.ok ((s.db.webhooks.filter fun w => w.userId = userId).map fun w => w.id), s.tick)
  | .findWebhook id, s => host.reach s (.ok (s.db.webhooks.find? fun w => w.id = id), s.tick)
  | .deleteWebhook id, s =>
      host.reach s <|
        if ∃ w ∈ s.db.webhooks, w.id = id then
          if h : ∀ d ∈ s.db.deliveries, d.webhookId ≠ id then (.ok (), s.deleteWebhook id h)
          else (.error .foreignKey, s.tick)
        else (.error .recordNotFound, s.tick)
  | .findDeliveries webhookIds eventType take, s =>
      host.reach s
        (.ok ((host.newestFirst s.served DeliveryRow.createdAt
          (s.db.deliveries.filter (selectsDelivery webhookIds eventType))).take take), s.tick)
  | .delivery q, s => (.ok (host.handleDelivery q s).1, (host.handleDelivery q s).2)

end WebhooksHost

/-! ## The service -/

/-- A body that passes the validation of `CreateWebhookDto`. -/
structure CreateWebhookDto where
  url : String
  events : List String
  nonempty : events ≠ []
  unique : events.Nodup

/-- The columns of a webhook that its user is shown. -/
structure WebhookView where
  id : String
  url : String
  events : List String
  active : Bool
  createdAt : ℤ
  updatedAt : ℤ

/-- The columns of a delivery that are shown. -/
structure DeliveryView where
  id : String
  webhookId : String
  eventType : String
  success : Bool
  attempts : ℕ
  statusCode : Option ℕ
  durationMs : ℤ
  error : Option String
  createdAt : ℤ

def WebhookRow.view (w : WebhookRow) : WebhookView where
  id := w.id
  url := w.url
  events := w.events
  active := w.active
  createdAt := w.createdAt
  updatedAt := w.updatedAt

def DeliveryRow.view (d : DeliveryRow) : DeliveryView where
  id := d.id
  webhookId := d.webhookId
  eventType := d.eventType
  success := d.success
  attempts := d.attempts
  statusCode := d.statusCode
  durationMs := d.durationMs
  error := d.error
  createdAt := d.createdAt

inductive WebhookResponse where
  | registered (id url : String) (events : List String) (secret : String) (active : Bool)
      (createdAt : ℤ)
  | webhooks (views : List WebhookView)
  | deleted (id : String)
  | tested (success : Bool) (statusCode : ℕ) (error : Option String) (webhookId : String)
  | deliveries (views : List DeliveryView)
  | delivered

namespace WebhooksService

open Program (throwIf orThrow)

/-- The queries of a delivery, as queries of the service. -/
def ofDelivery {α : Type} : WebhookProgram α → WebhooksProgram α
  | .ret a => .ret a
  | .throw e => e.elim
  | .query q next => .query (.delivery q) fun r => ofDelivery (next r)

def generateSecret : WebhooksProgram String := .query .randomBytes .ret

namespace prisma

def webhook.create (userId url secret : String) (events : List String) :
    WebhooksProgram WebhookRow :=
  .query (.createWebhook userId url secret events) .ret

def webhook.findMany (userId : String) : WebhooksProgram (List WebhookRow) :=
  .query (.findWebhooks userId) .ret

def webhook.findManyIds (userId : String) : WebhooksProgram (List String) :=
  .query (.findWebhookIds userId) .ret

def webhook.findUnique (id : String) : WebhooksProgram (Option WebhookRow) :=
  .query (.findWebhook id) .ret

def webhook.delete (id : String) : WebhooksProgram Unit := .query (.deleteWebhook id) .ret

def webhookDelivery.findMany (webhookIds : List String) (eventType : Option String) (take : ℕ) :
    WebhooksProgram (List DeliveryRow) :=
  .query (.findDeliveries webhookIds eventType take) .ret

end prisma

def register (userId : String) (dto : CreateWebhookDto) : WebhooksProgram WebhookResponse := do
  let secret ← generateSecret
  let webhook ← prisma.webhook.create userId dto.url secret dto.events
  return .registered webhook.id webhook.url webhook.events secret webhook.active webhook.createdAt

def list (userId : String) : WebhooksProgram WebhookResponse := do
  let webhooks ← prisma.webhook.findMany userId
  return .webhooks (webhooks.map WebhookRow.view)

def remove (userId webhookId : String) : WebhooksProgram WebhookResponse := do
  let webhook ← prisma.webhook.findUnique webhookId
  let webhook ← orThrow webhook (.notFound "Webhook not found")
  throwIf (webhook.userId ≠ userId) (.forbidden "You do not own this webhook")
  prisma.webhook.delete webhookId
  return .deleted webhookId

/-- The payload of a test. -/
def testPayload (webhookId : String) (now : ℤ) : WebhookPayload where
  event := "test.ping"
  timestamp := JsDate.toISOString now
  data := .object [("message", .string "This is a test webhook payload from CarbonVeritas"),
    ("webhookId", .string webhookId)]

def sendTest (host : WebhooksHost) (userId webhookId : String) :
    WebhooksProgram WebhookResponse := do
  let webhook ← prisma.webhook.findUnique webhookId
  let webhook ← orThrow webhook (.notFound "Webhook not found")
  throwIf (webhook.userId ≠ userId) (.forbidden "You do not own this webhook")
  let now ← ofDelivery Date.now
  let payload := testPayload webhookId now
  let result ← ofDelivery (dispatch host.toWebhookHost webhook.url payload
    (signPayload host.toWebhookHost webhook.secret payload))
  return .tested (decide (200 ≤ result.status ∧ result.status < 300)) result.status result.error
    webhookId

/-- A limit that is no finite number is 50, and a number is brought into the range. -/
def clampedLimit : JsNumber → ℕ
  | .finite q => ⌊min (max q 1) 200⌋.toNat
  | _ => 50

/-- The limit of `deliveries`, from the text of the request. -/
def deliveriesLimit (limit : Option String) : ℕ :=
  clampedLimit (match limit with
    | some raw => if raw = "" then .finite 50 else .parseInt raw.toList
    | none => .finite 50)

def listDeliveries (userId : String) (eventType : Option String) (limit : ℕ) :
    WebhooksProgram WebhookResponse := do
  let ids ← prisma.webhook.findManyIds userId
  if ids = [] then return .deliveries []
  -- an empty text is no filter
  let rows ← prisma.webhookDelivery.findMany ids (eventType.filter fun t => t ≠ "") limit
  return .deliveries (rows.map DeliveryRow.view)

end WebhooksService

/-! ## The requests -/

/-- The requests of users, and the deliveries of events: a delivery is on its way to a webhook as
the table held it at some time. -/
inductive WebhookRequest where
  | register (userId : String) (dto : CreateWebhookDto)
  | list (userId : String)
  | remove (userId webhookId : String)
  | test (userId webhookId : String)
  | deliveries (userId : String) (eventType limit : Option String)
  | deliver (webhook : Webhook) (eventType : String) (payload : WebhookPayload)

open WebhooksService in
/-- What a request does. -/
def WebhookRequest.program (host : WebhooksHost) : WebhookRequest → WebhooksProgram WebhookResponse
  | register userId dto => WebhooksService.register userId dto
  | list userId => WebhooksService.list userId
  | remove userId webhookId => WebhooksService.remove userId webhookId
  | test userId webhookId => sendTest host userId webhookId
  | deliveries userId eventType limit => listDeliveries userId eventType (deliveriesLimit limit)
  | deliver webhook eventType payload => do
      ofDelivery (deliverWithRetry host.toWebhookHost webhook eventType payload)
      return .delivered

end CarbonVeritas
