import FattyTrader.LeaseWorkers
import FattyTrader.Notifications

/-!
# The web push worker

`WebPushDeliveryWorker.run_once` claims a batch of deliveries under one lease and sends them one
after another, each for at most 15 seconds. A send that is not over in time raises a `TimeoutError`,
which no `except` names, and is settled as a permanent failure.

The claim leaves out a row whose payload is not an object, which stays claimed. A payload for which
the message cannot be built is settled where `NotificationPayloadError` is raised, and ends the
batch where another exception is, as an exception of the storage does.
-/

set_option linter.unusedSectionVars false

open Tables Leases Programs Prog

namespace FattyTrader

/-! ## Deliveries -/

structure PushSubscription where
  id : Uuid
  endpoint : String
  p256dh : String
  auth : String
deriving DecidableEq

/-- What a delivery joins : the payload of its notification, and its subscription. -/
structure PushTarget where
  payload : Json
  subscription : PushSubscription

structure PushDelivery where
  notificationId : Uuid
  payload : JsonObject
  attempts : ℕ
  subscription : PushSubscription
  claimToken : ClaimToken

/-- The notification and the subscription. -/
abbrev PushKey := Uuid × Uuid

def PushDelivery.key (d : PushDelivery) : PushKey := (d.notificationId, d.subscription.id)

/-! ## The transport -/

/-- How a push ends : the timeout of the worker, an exception, a `WebPushException` with the status of
its response, if it has one, or a response. -/
inductive PushAnswer
  | timeout
  | exception
  | rejected (status : Option ℕ)
  | response (status : ℕ)
deriving DecidableEq

/-- `WebPushGone`, `WebPushRetryable`, `WebPushFailed` and `TimeoutError`. -/
inductive PushError
  | gone
  | retryable
  | failed
  | timeout
deriving DecidableEq

/-- `_classify`. -/
def classifyStatus : Option ℕ → PushError
  | none => .retryable
  | some status =>
    if status = 404 ∨ status = 410 then .gone
    else if status = 429 ∨ 500 ≤ status then .retryable
    else .failed

/-- `WebPushSender.__call__`, inside `asyncio.timeout`. -/
def PushAnswer.result : PushAnswer → Except PushError Unit
  | .timeout => .error .timeout
  | .exception => .error .retryable
  | .rejected status => .error (classifyStatus status)
  | .response status => if 400 ≤ status then .error (classifyStatus (some status)) else .ok ()

/-- The exceptions that another attempt may mend, and a send that was not over in time. -/
def PushError.transient : PushError → Bool
  | .retryable => true
  | .timeout => true
  | _ => false

/-! ## The ledger -/

/-- The deliveries, the subscriptions that were disabled, the time, and the number of tokens drawn. -/
structure PushWorld where
  deliveries : Queue PushKey PushTarget ClaimToken
  disabled : List Uuid := []
  clock : Instant := 0
  tokens : ℕ := 0

/-- A send is handed over to the transport, and ends with its answer. -/
inductive PushOp
  | claimDue (worker : String) (leaseSeconds limit : ℕ)
  | handOver (d : PushDelivery) (message : String)
  | transport (d : PushDelivery)
  | disableSubscription (id : Uuid) (reason : String)
  | markSent (d : PushDelivery)
  | markRetry (d : PushDelivery) (delaySeconds : ℕ)
  | markFailed (d : PushDelivery) (reason : String)

abbrev PushAns : PushOp → Type
  | .claimDue _ _ _ => List PushDelivery
  | .handOver _ _ => Unit
  | .transport _ => PushAnswer
  | .disableSubscription _ _ => Bool
  | .markSent _ => Bool
  | .markRetry _ _ => Bool
  | .markFailed _ _ => Bool

inductive PushFault
  | value (message : String)
  | format (e : FormatError)
  | database

abbrev PushProg := Prog PushOp PushAns PushFault

abbrev PushEvent := Event PushOp PushAns PushFault

/-- The rows other statements have locked, how a statement and its commit end, and the answer of the
transport. -/
structure PushChoice where
  locked : PushKey → Bool := fun _ => false
  delivery : Delivery := .answered
  answer : PushAnswer := .response 201

/-- A claimed row, where its payload is an object. -/
def PushTarget.delivery (r : Row PushKey PushTarget ClaimToken) (token : ClaimToken) :
    Option PushDelivery :=
  match r.payload.payload with
  | .obj payload =>
    some ⟨r.key.1, payload, r.attempts + 1, { r.payload.subscription with id := r.key.2 }, token⟩
  | _ => none

/-- `claim_due`. -/
def PushWorld.claimDue (world : PushWorld) (worker : String) (leaseSeconds limit : ℕ)
    (locked : PushKey → Bool) : List PushDelivery × PushWorld :=
  let token : ClaimToken := ⟨worker, world.tokens⟩
  let due := world.deliveries.picks world.clock locked limit
  (due.filterMap fun r => PushTarget.delivery r token,
    { world with
      deliveries := world.deliveries.claim (due.map Row.key)
        ⟨token, world.clock + microseconds leaseSeconds⟩
      tokens := world.tokens + 1 })

/-- `_update`. -/
def PushWorld.settle (world : PushWorld) (delivery : Delivery) (d : PushDelivery) (s : Settlement) :
    Except PushFault Bool × PushWorld :=
  delivery.transact .database world
    (.ok (world.deliveries.settle d.key d.claimToken s).1,
      { world with deliveries := (world.deliveries.settle d.key d.claimToken s).2 })

def pushExec (world : PushWorld) (c : PushChoice) :
    (o : PushOp) → Except PushFault (PushAns o) × PushWorld
  | .claimDue worker leaseSeconds limit =>
    let (deliveries, world') := world.claimDue worker leaseSeconds limit c.locked
    c.delivery.transact .database world (.ok deliveries, world')
  | .handOver _ _ => (.ok (), world)
  | .transport _ => (.ok c.answer, world)
  | .disableSubscription id _ =>
    c.delivery.transact .database world
      (.ok (decide (id ∉ world.disabled)), { world with disabled := id :: world.disabled })
  | .markSent d => world.settle c.delivery d (.sent world.clock)
  | .markRetry d delaySeconds =>
    world.settle c.delivery d
      (.retry (world.clock + microseconds delaySeconds) (some "retryable"))
  | .markFailed d reason => world.settle c.delivery d (.failed world.clock (some reason))

/-! ## The worker -/

/-- The limits of a worker, and how a message is rendered from the HTML of a notification. -/
structure WebPushDeliveryWorker where
  maxAttempts : ℕ
  retrySeconds : ℕ
  batchSize : ℕ
  max_pos : 0 < maxAttempts
  retry_pos : 0 < retrySeconds
  batch_pos : 0 < batchSize
  formatters : Formatters
  render : Uuid → JsonObject → String → String

namespace WebPushDeliveryWorker

variable (w : WebPushDeliveryWorker)

def buildPushMessage (notificationId : Uuid) (payload : JsonObject) : Except FormatError String :=
  (formatNotificationHtml w.formatters payload).map (w.render notificationId payload)

/-- The operation that settles a delivery after its send. -/
def settlement (d : PushDelivery) : Except PushError Unit → PushOp
  | .ok () => .markSent d
  | .error .gone => .markFailed d "subscription-gone"
  | .error .retryable =>
    if w.maxAttempts ≤ d.attempts then .markFailed d "attempts-exhausted"
    else .markRetry d (w.retrySeconds * min d.attempts w.maxAttempts)
  | .error .failed => .markFailed d "permanent"
  | .error .timeout => .markFailed d "permanent"

/-- One delivery of the batch, and whether it was sent. -/
def deliver (d : PushDelivery) : PushProg Bool :=
  match w.buildPushMessage d.notificationId d.payload with
  | .error (.payload _) => do
    let _ ← perform (.markFailed d "invalid-payload")
    pure false
  | .error .other => raise (.format .other)
  | .ok message => do
    perform (PushOp.handOver d message)
    let answer : PushAnswer ← perform (PushOp.transport d)
    if answer.result = .error .gone then
      let _ ← perform (PushOp.disableSubscription d.subscription.id "subscription-gone")
      let _ ← perform (w.settlement d answer.result)
      pure false
    else
      let _ ← perform (w.settlement d answer.result)
      pure (answer.result = .ok ())

def runOnce (worker : String) (leaseSeconds : ℕ) : PushProg String :=
  if leaseSeconds < minLeaseSeconds then
    raise (.value "push lease must be at least 15 seconds")
  else do
    let deliveries : List PushDelivery ← perform (PushOp.claimDue worker leaseSeconds w.batchSize)
    if deliveries = [] then pure "idle"
    else
      let delivered ← each deliveries w.deliver
      pure (if delivered.any id then "delivered" else "attempted")

end WebPushDeliveryWorker

/-! ## Workers next to each other -/

structure PushCall where
  worker : String
  leaseSeconds : ℕ

/-- A notification is fanned out to a subscription, or time passes. -/
inductive PushEnv
  | fanOut (notificationId : Uuid) (payload : Json) (subscription : PushSubscription)
  | tick (now : Instant)

def PushEnv.apply (world : PushWorld) : PushEnv → Option PushWorld
  | .fanOut notificationId payload subscription =>
    some { world with
      deliveries := world.deliveries.insertNew
        { key := (notificationId, subscription.id), payload := ⟨payload, subscription⟩ } }
  | .tick now => if world.clock ≤ now then some { world with clock := now } else none

abbrev PushState := State PushOp PushAns PushFault PushCall PushWorld

abbrev PushLabel := Label PushCall PushChoice PushEnv

def pushWorkers (w : WebPushDeliveryWorker) :
    System PushOp PushAns PushFault PushCall PushWorld PushChoice PushEnv where
  body call := do
    let _ ← w.runOnce call.worker call.leaseSeconds
    pure ()
  exec o world c := some (pushExec world c o)
  env world e := e.apply world

end FattyTrader
