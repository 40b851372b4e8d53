import FattyTrader.Leases
import FattyTrader.Programs
import FattyTrader.VenueClient

/-!
# The notification sender

`NotificationWorker.run_once` claims one row of `notifications_outbox` under a lease, fans it out to
the push subscriptions, sends it to the Telegram bot where `should_deliver_to_telegram` says so, and
settles the row with the token of its claim. A payload that is not an object is retired by the
claim itself.

Only a `NotificationDeliveryError` of the sender is caught. A payload is formatted inside the same
`try`, so an exception of a formatter leaves `run_once` with the row still claimed, as another
exception of the sender or of the storage does.
-/

set_option linter.unusedSectionVars false

open Tables Leases Programs Prog

namespace FattyTrader

/-! ## Payloads -/

abbrev JsonObject := List (String × Json)

namespace JsonObject

variable (payload : JsonObject)

/-- The text of a field, when it is one. -/
def word (key : String) : Option String := (payload.lookup key).bind Json.text

/-- `str(payload.get(key, ""))`. Of a list or an object only the first character is kept, which
decides the comparisons below. -/
def textOf (key : String) : String :=
  match payload.lookup key with
  | none => ""
  | some .null => "None"
  | some (.bool b) => if b then "True" else "False"
  | some (.number text) => text
  | some (.str s) => s
  | some (.arr _) => "["
  | some (.obj _) => "\x7b"

def truthy (key : String) : Bool := (payload.lookup key).any Json.truthy

end JsonObject

def shouldDeliverToTelegram (payload : JsonObject) : Bool :=
  match payload.word "kind" with
  | some "source-forward" => false
  | some "signal-analysis" => payload.truthy "canonical_signal" || payload.truthy "management_action"
  | some "execution-event" =>
    let reason := payload.textOf "reason"
    let toState := payload.textOf "to_state"
    let fromState := payload.textOf "from_state"
    if "recovery-missing-protection:".isPrefixOf reason ||
        "recovery-filled-protection-unverified".isPrefixOf reason ||
        "cutover-gated".isPrefixOf reason then true
    else if reason = "approved-provider-flat-readback-no-order-or-intent" then true
    else if toState ∈ ["PREFLIGHT", "SIZED", "VALIDATED", "SUBMITTING", "QUEUED"] then false
    else if reason = "recovery-protection-verified" || (toState = "FILLED" && fromState = "FILLED")
    then false
    else toState ∈ ["FILLED", "REJECTED", "EXPIRED", "CANCELLED"]
  | some "system-event" => payload.word "state" ≠ some "cancelled-flat"
  | _ => true

/-! ## Formatters -/

/-- What a formatter raises : the `NotificationPayloadError` of this module, or another exception. -/
inductive FormatError
  | payload (message : String)
  | other
deriving DecidableEq

abbrev Formatter := JsonObject → Except FormatError String

/-- The formatters of the kinds of payloads, each with its `bounded_html`. -/
structure Formatters where
  healthReport : Formatter
  kakaDigest : Formatter
  heartbeat : Formatter
  sourceForward : Formatter
  signalAnalysis : Formatter
  executionEvent : Formatter
  executionAlert : Formatter
  systemEvent : Formatter
  operatorAlert : Formatter

/-- The fields of the snapshot of a health report. -/
def healthFields : List String :=
  ["positions", "pending_orders", "sltp", "pnl", "messages", "metrics", "account", "modes", "codex",
    "services"]

/-- `set(snapshot) == fields`. -/
def isHealthSnapshot (snapshot : JsonObject) : Bool :=
  healthFields.all (fun field => field ∈ snapshot.map Prod.fst) &&
    snapshot.all fun field => field.1 ∈ healthFields

def formatNotificationHtml (f : Formatters) : Formatter := fun payload =>
  match payload.word "kind" with
  | some "console-health-report" =>
    match payload.lookup "snapshot" with
    | some (.obj snapshot) =>
      if isHealthSnapshot snapshot then f.healthReport snapshot
      else .error (.payload "invalid console health snapshot")
    | _ => .error (.payload "invalid console health snapshot")
  | some "kaka-paper-digest" => f.kakaDigest payload
  | some "heartbeat" => f.heartbeat payload
  | some "source-forward" => f.sourceForward payload
  | some "signal-analysis" => f.signalAnalysis payload
  | some "execution-event" => f.executionEvent payload
  | some "execution-alert" => f.executionAlert payload
  | some "system-event" => f.systemEvent payload
  | _ => f.operatorAlert payload

/-! ## The sender -/

/-- How a request to the bot ends : the `timeout` of the worker, an `HTTPError`, or a response with
its status and whether its body is an object with `ok` true. -/
inductive BotAnswer
  | timeout
  | httpError
  | response (status : ℕ) (delivered : Bool)
deriving DecidableEq

/-- `NotificationDeliveryError`. -/
structure DeliveryError where
  retryable : Bool

/-- `TelegramBotSender.send`, inside `asyncio.timeout`. -/
def BotAnswer.result : BotAnswer → Except DeliveryError Unit
  | .timeout => .error ⟨true⟩
  | .httpError => .error ⟨true⟩
  | .response status delivered =>
    if status = 429 ∨ 500 ≤ status then .error ⟨true⟩
    else if 400 ≤ status then .error ⟨false⟩
    else if delivered then .ok ()
    else .error ⟨true⟩

/-! ## The outbox -/

/-- `worker_id:uuid4()`. -/
structure ClaimToken where
  worker : String
  uuid : ℕ
deriving DecidableEq

structure OutboxNotification where
  id : Uuid
  payload : JsonObject
  attempts : ℕ
  claimToken : ClaimToken

/-- The outbox, the time, and the number of tokens drawn : the next one is new. -/
structure OutboxWorld where
  outbox : Queue Uuid Json ClaimToken
  clock : Instant := 0
  tokens : ℕ := 0

inductive OutboxOp
  | claim (worker : String) (leaseSeconds : ℕ)
  | fanOut (id : Uuid)
  | send (text : String)
  | markSent (id : Uuid) (token : ClaimToken)
  | markRetry (id : Uuid) (token : ClaimToken) (delaySeconds : ℕ)
  | markFailed (id : Uuid) (token : ClaimToken)

abbrev OutboxAns : OutboxOp → Type
  | .claim _ _ => Option OutboxNotification
  | .fanOut _ => Unit
  | .send _ => BotAnswer
  | .markSent _ _ => Bool
  | .markRetry _ _ _ => Bool
  | .markFailed _ _ => Bool

inductive NotifierError
  | value (message : String)
  | payload (message : String)
  | fanOut
  | format (e : FormatError)
  | sender
  | database

abbrev NotifierProg := Prog OutboxOp OutboxAns NotifierError

abbrev OutboxEvent := Event OutboxOp OutboxAns NotifierError

def microseconds (seconds : ℕ) : ℤ := seconds * 1000000

/-- What the other parties of an operation do : the rows other statements have locked, how a
statement and its commit end, whether the fan-out raises, and how the bot answers, if the request
does not end with another exception. -/
structure OutboxChoice where
  locked : Uuid → Bool := fun _ => false
  delivery : Delivery := .answered
  fanOutFails : Bool := false
  answer : Option BotAnswer := some (.response 200 true)

/-- A transaction, which may raise after or without its effect. -/
def Delivery.transact {ε α W : Type} (delivery : Delivery) (database : ε) (world : W)
    (tx : Except ε α × W) : Except ε α × W :=
  match delivery with
  | .answered => tx
  | .lost => (.error database, tx.2)
  | .failed => (.error database, world)

/-- `claim`, for one row. -/
def OutboxWorld.claim (world : OutboxWorld) (worker : String) (leaseSeconds : ℕ)
    (locked : Uuid → Bool) : Except NotifierError (Option OutboxNotification) × OutboxWorld :=
  match world.outbox.picks world.clock locked 1 with
  | [] => (.ok none, world)
  | r :: _ =>
    let token : ClaimToken := ⟨worker, world.tokens⟩
    let outbox := world.outbox.claim [r.key] ⟨token, world.clock + microseconds leaseSeconds⟩
    match r.payload with
    | .obj payload =>
      (.ok (some ⟨r.key, payload, r.attempts + 1, token⟩),
        { world with outbox, tokens := world.tokens + 1 })
    | _ =>
      (.error (.payload "notification payload must be an object"),
        { world with
          outbox := (outbox.settle r.key token (.failed world.clock none)).2
          tokens := world.tokens + 1 })

/-- `_update_claimed`. -/
def OutboxWorld.settle (world : OutboxWorld) (delivery : Delivery) (id : Uuid) (token : ClaimToken)
    (s : Settlement) : Except NotifierError Bool × OutboxWorld :=
  delivery.transact .database world
    (.ok (world.outbox.settle id token s).1,
      { world with outbox := (world.outbox.settle id token s).2 })

def outboxExec (world : OutboxWorld) (c : OutboxChoice) :
    (o : OutboxOp) → Except NotifierError (OutboxAns o) × OutboxWorld
  | .claim worker leaseSeconds =>
    c.delivery.transact .database world (world.claim worker leaseSeconds c.locked)
  | .fanOut _ => (if c.fanOutFails then .error .fanOut else .ok (), world)
  | .send _ => (c.answer.elim (.error .sender) .ok, world)
  | .markSent id token => world.settle c.delivery id token (.sent world.clock)
  | .markRetry id token delaySeconds =>
    world.settle c.delivery id token (.retry (world.clock + microseconds delaySeconds) none)
  | .markFailed id token => world.settle c.delivery id token (.failed world.clock none)

/-! ## The worker -/

structure NotificationWorker where
  maxAttempts : ℕ
  retrySeconds : ℕ
  fanOut : Bool
  max_pos : 0 < maxAttempts
  retry_pos : 0 < retrySeconds

def minLeaseSeconds : ℕ := 15

theorem microseconds_pos {seconds : ℕ} (h : minLeaseSeconds ≤ seconds) : 0 < microseconds seconds := by
  unfold minLeaseSeconds at h
  unfold microseconds
  omega

namespace NotificationWorker

variable (w : NotificationWorker) (f : Formatters)

/-- What follows the fan-out of a claimed notification. -/
def deliver (n : OutboxNotification) : NotifierProg String :=
  if shouldDeliverToTelegram n.payload = false then do
    let owned ← perform (.markSent n.id n.claimToken)
    pure (if owned then "sent" else "claim-lost")
  else
    match formatNotificationHtml f n.payload with
    | .error e => raise (.format e)
    | .ok text => do
      let answer ← perform (.send text)
      match BotAnswer.result answer with
      | .error e =>
        if e.retryable = false ∨ w.maxAttempts ≤ n.attempts then do
          let owned ← perform (.markFailed n.id n.claimToken)
          pure (if owned then "failed" else "claim-lost")
        else do
          let owned ← perform
            (.markRetry n.id n.claimToken (w.retrySeconds * min n.attempts w.maxAttempts))
          pure (if owned then "retry" else "claim-lost")
      | .ok () => do
        let owned ← perform (.markSent n.id n.claimToken)
        pure (if owned then "sent" else "claim-lost")

/-- A claimed notification. An exception of the fan-out is printed. -/
def handle (n : OutboxNotification) : NotifierProg String :=
  if w.fanOut then do
    let _ ← attempt (perform (.fanOut n.id))
    w.deliver f n
  else w.deliver f n

def runOnce (worker : String) (leaseSeconds : ℕ) : NotifierProg String :=
  if leaseSeconds < minLeaseSeconds then
    raise (.value "notification lease must be at least 15 seconds")
  else if worker = "" then raise (.value "worker_id is required")
  else do
    let claimed : Except NotifierError (Option OutboxNotification) ←
      attempt (perform (OutboxOp.claim worker leaseSeconds))
    match claimed with
    | .error (.payload _) => pure "failed"
    | .error e => raise e
    | .ok none => pure "idle"
    | .ok (some n) => w.handle f n

end NotificationWorker

/-! ## Workers next to each other -/

/-- A call of a worker with its lease. -/
structure NotifierCall where
  worker : String
  leaseSeconds : ℕ

/-- Another component stores a notification, or time passes. -/
inductive OutboxEnv
  | enqueue (id : Uuid) (payload : Json)
  | tick (now : Instant)

def OutboxEnv.apply (world : OutboxWorld) : OutboxEnv → Option OutboxWorld
  | .enqueue id payload => some { world with outbox := world.outbox.insertNew { key := id, payload } }
  | .tick now => if world.clock ≤ now then some { world with clock := now } else none

abbrev NotifierState := State OutboxOp OutboxAns NotifierError NotifierCall OutboxWorld

abbrev NotifierLabel := Label NotifierCall OutboxChoice OutboxEnv

def notifiers (w : NotificationWorker) (f : Formatters) :
    System OutboxOp OutboxAns NotifierError NotifierCall OutboxWorld OutboxChoice OutboxEnv where
  body call := do
    let _ ← w.runOnce f call.worker call.leaseSeconds
    pure ()
  exec o world c := some (outboxExec world c o)
  env world e := e.apply world

end FattyTrader
