import FattyTrader.EntryRecovery

/-!
# The dispatch workers

`BitgetDispatcher.runOnce` claims a queued dispatch under a lease, and moves it state by
state : each transition is a compare-and-set on the state of the row, with its audit row and
its notification in one transaction. The lease only keeps other workers from claiming, no
transition asks for it. Between two operations of a worker anything can happen, also a claim
of the same dispatch by another worker after the lease has run out.

The answers of the preflight, of the admission of protection, of the routing and of
`submit_entry` are free. `dispatchSystem` runs any number of workers at once, next to other
components : they add dispatches, retire dispatches for their source, move dispatches that
were submitted, and change every other table. Nothing moves a dispatch back to `QUEUED`.
-/

set_option linter.unusedSectionVars false

namespace FattyTrader

open Programs Prog

/-! ## Claims and canary reservations -/

/-- The row is not leased at the time `now`. -/
def BitgetDispatch.available (now : Instant) (d : BitgetDispatch) : Bool :=
  d.claimedBy.isNone || d.leaseUntil.any fun until_ => until_ ≤ now

/-- A row a worker claims. -/
def BitgetDispatch.leased (workerId : String) (leaseUntil : Instant) (d : BitgetDispatch) :
    BitgetDispatch :=
  { d with claimedBy := some workerId, leaseUntil := some leaseUntil, attempts := d.attempts + 1 }

/-- The states in which a canary reservation is not counted. -/
def DispatchState.canaryOver : DispatchState → Bool
  | .filled | .rejected | .cancelled | .reconciled => true
  | _ => false

/-- What `_RESERVE_CANARY_ENTRY_SQL` counts : dispatches, and intents without one. -/
inductive CanaryKey
  | dispatch (id : Uuid)
  | intent (clientOid : String)
deriving DecidableEq

namespace Db

/-- `_retire_stale`, for the dispatches whose source is no longer eligible. -/
def retireStale (now : Instant) : Db → List Uuid → Except DbError Db
  | db, [] => .ok db
  | db, id :: ids =>
    match db.dispatch id with
    | none => db.retireStale now ids
    | some d =>
      if d.state = .queued ∧ db.baselined (.dispatch id) = false ∧ d.available now then
        match db.expireSourceDispatch now id .queued with
        | .error e => .error e
        | .ok db => db.retireStale now ids
      else db.retireStale now ids

/-- The claim of the row `id`, one that is queued and not leased. -/
def leaseDispatch (now : Instant) (db : Db) (workerId : String) (leaseSeconds : ℕ) (id : Uuid) :
    Except DbError (Db × Option BitgetDispatch) :=
  match db.dispatch id with
  | none => .ok (db, none)
  | some d =>
    if d.state = .queued ∧ db.baselined (.dispatch id) = false ∧ d.available now then
      let leased := d.leased workerId (now + leaseSeconds)
      match db.dispatches.replace (·.id) id leased with
      | none => .error .uniqueViolation
      | some dispatches => .ok ({ db with dispatches }, some leased)
    else .ok (db, none)

/-- `claim`. `stale` are the dispatches whose source has expired, and `first` is the row the
query selects. -/
def claimDispatch (now : Instant) (stale : List Uuid) (first : Option Uuid) (db : Db)
    (workerId : String) (leaseSeconds : ℕ) : Except DbError (Db × Option BitgetDispatch) :=
  match db.retireStale now stale with
  | .error e => .error e
  | .ok db =>
    match first with
    | none => .ok (db, none)
    | some id => db.leaseDispatch now workerId leaseSeconds id

/-- The key an entry intent is counted under. -/
def canaryKey (db : Db) (r : LiveIntentRecord) : CanaryKey :=
  match r.dispatchId, db.reservations.find MarginReservation.clientOrderId r.clientOid with
  | some id, _ => .dispatch id
  | none, some m => .dispatch m.dispatchId
  | none, none => .intent r.clientOid

/-- The entry intents that are not over. -/
def openEntries (db : Db) : List LiveIntentRecord :=
  (db.intents.rows.map LiveIntentRow.record).filter fun r => r.role = .entry &&
    !(r.state = .filled || r.state = .rejected || r.state = .cancelled || r.state = .reconciled) &&
    !db.baselined (.intent r.clientOid)

/-- The canary reservations that are counted. -/
def heldCanaryEntries (db : Db) : List Uuid :=
  db.canaryEntries.filter fun id =>
    (db.dispatch id).any (fun d => !d.state.canaryOver) && !db.baselined (.dispatch id)

/-- The count of `_RESERVE_CANARY_ENTRY_SQL`. -/
def canaryKeys (db : Db) : List CanaryKey :=
  (db.openEntries.map db.canaryKey ++ db.heldCanaryEntries.map CanaryKey.dispatch).dedup

/-- `reserve_canary_entry`. The count is read from the snapshot of the statement. -/
def reserveCanaryEntry (db snapshot : Db) (dispatchId : Uuid) (maxOrders : ℕ) : Db × Bool :=
  if snapshot.canaryKeys.length < maxOrders ∧ dispatchId ∉ db.canaryEntries then
    ({ db with canaryEntries := db.canaryEntries ++ [dispatchId] }, true)
  else (db, false)

end Db

/-! ## Operations -/

/-- An exception. `name` is the name of its type, and `reason` what `_reason` makes of it. -/
inductive DispatchError
  | storage (e : DbError)
  | connection
  | timeout
  | sourceExpired
  | raised (name reason : String)
deriving DecidableEq

def DispatchError.name : DispatchError → String
  | .storage _ => "ValueError"
  | .connection => "OperationalError"
  | .timeout => "TimeoutError"
  | .sourceExpired => "SourceFreshnessExpired"
  | .raised name _ => name

def DispatchError.reason : DispatchError → String
  | .timeout => "preflight-timeout"
  | .raised _ reason => reason
  | _ => "preflight-error"

inductive DispatchOp
  | claim (workerId : String) (leaseSeconds : ℕ)
  | transition (dispatchId : Uuid) (expected target : DispatchState) (reason : Option String)
  | alert (dispatchId : Uuid) (reason : String)
  | isActive (scope : String)
  | protectionAdmission (symbol : String)
  | preflight (d : BitgetDispatch)
  | entryRouting (symbol : String)
  | reserveCanaryEntry (dispatchId : Uuid) (maxOrders : ℕ)
  | releaseReservation (submission : BitgetEntrySubmission)
  | submitEntry (d : BitgetDispatch) (submission : Option BitgetEntrySubmission)
      (route : Option EntryRoute)

/-- The preflight answers with the submission it admitted, or with a plan without one. -/
abbrev DispatchAns : DispatchOp → Type
  | .claim _ _ => Option BitgetDispatch
  | .transition _ _ _ _ => Unit
  | .alert _ _ => Unit
  | .isActive _ => Bool
  | .protectionAdmission _ => Bool × String
  | .preflight _ => Option BitgetEntrySubmission
  | .entryRouting _ => EntryRoute
  | .reserveCanaryEntry _ _ => Bool
  | .releaseReservation _ => Unit
  | .submitEntry _ _ _ => String

abbrev DispatchProg (α : Type) := Prog DispatchOp DispatchAns DispatchError α
abbrev DispatchEvent := Event DispatchOp DispatchAns DispatchError

/-- Perform one operation of a worker. -/
abbrev issue (o : DispatchOp) : DispatchProg (DispatchAns o) := perform o

/-! ## The worker -/

/-- The wiring of a dispatcher : the symbol the venue lists, the checks of a canonical signal,
`str.isalnum`, and which parts are there. -/
structure BitgetDispatcher where
  bitgetSymbol : String → Option String
  canonicalSignal : BitgetDispatch → Bool
  isalnum : Char → Bool
  killSwitch : Bool
  executionEnabled : Bool
  canaryMaxOrders : ℕ
  canarySymbol : Option String
  protectionAdmission : Bool
  entryRouting : Bool
  execution : Bool
  routedExecution : Bool
  releasable : Bool

namespace BitgetDispatcher

variable (x : BitgetDispatcher)

/-- The characters of a text are alphanumeric or among `extra`. -/
def plainText (extra : List Char) (limit : ℕ) (s : String) : Bool :=
  0 < s.length && s.length ≤ limit && s.toList.all fun c => x.isalnum c || extra.contains c

/-- `_safe_reason_code`. -/
def safeReasonCode (value fallback : String) : String :=
  if x.plainText ['-', '_', ':'] 96 value then value else fallback

/-- `safe_transition_reason`. -/
def safeTransitionReason (reason : String) : String :=
  if x.plainText ['-', '_', ':', '.'] 160 reason then reason else "redacted-transition-reason"

/-- `transition` of the repository, with the reason as it is written. -/
def transition (id : Uuid) (expected target : DispatchState) (reason : Option String) :
    DispatchProg Unit :=
  issue (.transition id expected target (reason.map x.safeTransitionReason))

/-- `reject`. -/
def reject (d : BitgetDispatch) (current : DispatchState) (reason : String) :
    DispatchProg Unit := do
  x.transition d.id current .rejected (some reason)
  if reason = "cutover-gated" then pure ()
  else issue (.alert d.id (x.safeTransitionReason reason))

/-- A rejection that ends the run. -/
def rejected (d : BitgetDispatch) (current : DispatchState) (reason outcome : String) :
    DispatchProg String := do
  x.reject d current reason
  pure outcome

/-- `_release_admission`. -/
def releaseAdmission (d : BitgetDispatch) (submission : Option BitgetEntrySubmission) :
    DispatchProg Unit :=
  match submission with
  | none => pure ()
  | some submission =>
    if x.execution && x.releasable then do
      match ← attempt (issue (.releaseReservation submission)) with
      | .ok _ => pure ()
      | .error e => issue (.alert d.id (x.safeTransitionReason ("margin-release-error:" ++ e.name)))
    else pure ()

/-- The reason of the last transition. -/
def submittedReason (status : String) : Option String :=
  if ["FILLED_UNPROTECTED", "PARTIAL_UNPROTECTED"].contains status then
    some "missing-protection-escalated"
  else if ["FILLED_LOCALLY_MANAGED", "PARTIAL_LOCALLY_MANAGED"].contains status then
    some "locally-managed-protection"
  else if status = "FILLED_FALLBACK" then some "fallback-protection-active"
  else none

/-- What `run_once` returns for the state it ends in. -/
def outcomeText : DispatchState → String
  | .acknowledged => "acknowledged"
  | .filled => "filled"
  | .partiallyFilled => "partial"
  | .rejected => "rejected"
  | _ => "unknown"

/-- The transition after a status of `submit_entry`. -/
def settle (d : BitgetDispatch) (status : String) : DispatchProg String := do
  if status = "EXPIRED" then pure "expired"
  else
    let target := BitgetDispatchExecution.submittedTarget status
    if target = .unknown then do
      x.transition d.id .submitting .unknown (some "provider-unknown")
      pure "unknown"
    else do
      x.transition d.id .submitting target (submittedReason status)
      pure (outcomeText target)

/-- The submission, once the dispatch is `SUBMITTING`. -/
def submit (d : BitgetDispatch) (submission : Option BitgetEntrySubmission) (route : Option EntryRoute) :
    DispatchProg String := do
  match ← attempt (issue (.submitEntry d submission route)) with
  | .ok status => x.settle d status
  | .error .timeout => do
    x.transition d.id .submitting .unknown (some "provider-unknown")
    pure "unknown"
  | .error e => do
    let reason := "provider-readback-error:" ++ e.name
    x.transition d.id .submitting .unknown (some reason)
    issue (.alert d.id (x.safeTransitionReason reason))
    pure "unknown"

/-- The canary cap, where there is one. -/
def canaryReserved (d : BitgetDispatch) : DispatchProg Bool :=
  if 0 < x.canaryMaxOrders then issue (.reserveCanaryEntry d.id x.canaryMaxOrders) else pure true

/-- The canary cap, and the boundary before the submission. -/
def admitCanary (d : BitgetDispatch) (submission : Option BitgetEntrySubmission)
    (route : Option EntryRoute) : DispatchProg String := do
  if ← x.canaryReserved d then do
    x.transition d.id .validated .submitting none
    x.submit d submission route
  else do
    x.releaseAdmission d submission
    x.rejected d .validated "canary-order-cap-reached" "rejected"

/-- The steps from the sized plan on. -/
def sized (d : BitgetDispatch) (submission : Option BitgetEntrySubmission) (route : Option EntryRoute) :
    DispatchProg String := do
  x.transition d.id .preflight .sized none
  x.transition d.id .sized .validated none
  if x.execution then
    if route.isSome && !x.routedExecution then do
      x.releaseAdmission d submission
      x.rejected d .validated "entry-routing-unsupported" "rejected"
    else x.admitCanary d submission route
  else do
    x.releaseAdmission d submission
    x.rejected d .validated "missing-execution-client" "rejected"

/-- The routing of an admitted entry. -/
def route (d : BitgetDispatch) (submission : Option BitgetEntrySubmission) : DispatchProg String :=
  if x.entryRouting then do
    match ← attempt (issue (.entryRouting d.pairToken)) with
    | .ok route => x.sized d submission (some route)
    | .error e => do
      x.releaseAdmission d submission
      x.rejected d .preflight ("entry-routing-error:" ++ e.name) "rejected"
  else x.sized d submission none

/-- The preflight, once the signal is valid. -/
def preflight (d : BitgetDispatch) : DispatchProg String := do
  if x.canonicalSignal d then do
    x.transition d.id .queued .preflight none
    match ← attempt (issue (.preflight d)) with
    | .ok submission => x.route d submission
    | .error .sourceExpired => pure "expired"
    | .error e => x.rejected d .preflight e.reason "rejected"
  else x.rejected d .queued "invalid-canonical-signal" "rejected"

/-- The admission of protection. -/
def protection (d : BitgetDispatch) : DispatchProg String :=
  if x.protectionAdmission then do
    match ← attempt (issue (.protectionAdmission d.pairToken)) with
    | .error e => x.rejected d .queued ("protection-admission-error:" ++ e.name) "rejected"
    | .ok (allowed, reason) =>
      if allowed then x.preflight d
      else x.rejected d .queued (x.safeReasonCode reason "protection-admission-denied") "rejected"
  else x.preflight d

/-- The gate of the venue. -/
def gate (d : BitgetDispatch) : DispatchProg String :=
  if x.executionEnabled then
    if 0 < x.canaryMaxOrders ∧ x.canarySymbol.any (· ≠ d.pairToken) then
      x.rejected d .queued "canary-symbol-mismatch" "rejected"
    else x.protection d
  else x.rejected d .queued "cutover-gated" "cutover-gated"

/-- A kill switch, where one is wired. -/
def switched (scope : String) : DispatchProg Bool :=
  if x.killSwitch then issue (.isActive scope) else pure false

/-- The kill switches, then the gate. -/
def unlatched (d : BitgetDispatch) : DispatchProg String := do
  if ← x.switched "bitget" then
    x.rejected d .queued "kill-switch-latched" "kill-switch-latched"
  else if ← x.switched "bitget-protection-stream" then
    x.rejected d .queued "protection-stream-latched" "protection-stream-latched"
  else x.gate d

/-- `run_once`. -/
def runOnce (workerId : String) (leaseSeconds : ℕ) : DispatchProg String := do
  match ← issue (.claim workerId leaseSeconds) with
  | none => pure "idle"
  | some d =>
    match x.bitgetSymbol d.pairToken with
    | none => x.rejected d .queued "invalid-dispatch-symbol" "rejected"
    | some symbol => x.unlatched { d with pairToken := symbol }

end BitgetDispatcher

/-! ## The system -/

structure DispatchChoice where
  delivery : Delivery
  now : Instant
  stale : List Uuid
  first : Option Uuid
  snapshot : Db
  flag : Except DispatchError Bool
  admission : Except DispatchError (Bool × String)
  submission : Except DispatchError (Option BitgetEntrySubmission)
  route : Except DispatchError EntryRoute
  done : Except DispatchError Unit
  status : Except DispatchError String

/-- A transaction : rolled back by its own error, applied, applied but lost, or failed. -/
def DispatchChoice.commit {α : Type} (c : DispatchChoice) (db : Db) :
    Except DbError (Db × α) → Except DispatchError α × Db
  | .error e => (.error (.storage e), db)
  | .ok (db', a) =>
    match c.delivery with
    | .answered => (.ok a, db')
    | .lost => (.error .connection, db')
    | .failed => (.error .connection, db)

/-- One operation. -/
def dispatchExec (o : DispatchOp) (db : Db) (c : DispatchChoice) :
    Except DispatchError (DispatchAns o) × Db :=
  match o with
  | .claim workerId leaseSeconds =>
    c.commit db (db.claimDispatch c.now c.stale c.first workerId leaseSeconds)
  | .transition id expected target reason =>
    c.commit db ((db.transition id expected target reason).map (·, ()))
  | .alert id reason =>
    c.commit db (.ok (db.notify ("bitget-dispatch:" ++ toString id ++ ":" ++ reason), ()))
  | .isActive _ => (c.flag, db)
  | .protectionAdmission _ => (c.admission, db)
  | .preflight _ => (c.submission, db)
  | .entryRouting _ => (c.route, db)
  | .reserveCanaryEntry id maxOrders =>
    c.commit db (.ok (db.reserveCanaryEntry c.snapshot id maxOrders))
  | .releaseReservation _ => (c.done, db)
  | .submitEntry _ _ _ => (c.status, db)

/-- What other components do to the dispatches : add one, retire one for its source, move one
past its submission. `others` is any write to the other tables. -/
inductive DispatchEnv
  | enqueue (d : BitgetDispatch)
  | expireSource (now : Instant) (dispatchId : Uuid)
  | settle (dispatchId : Uuid) (expected target : DispatchState) (reason : Option String)
      (past : target.entry = false)
  | notify (dedupKey : String)
  | releaseCanaryEntry (dispatchId : Uuid)
  | others (db : Db)

def DispatchEnv.apply (db : Db) : DispatchEnv → Except DbError Db
  | .enqueue d => db.enqueue d
  | .expireSource now id => db.expireSource now id
  | .settle id expected target reason _ => db.transition id expected target reason
  | .notify dedupKey => .ok (db.notify dedupKey)
  | .releaseCanaryEntry id => .ok (db.releaseCanaryEntry id)
  | .others w => .ok { w with
      dispatches := db.dispatches
      transitions := db.transitions
      outbox := db.outbox
      canaryEntries := db.canaryEntries }

/-- A worker that runs once. -/
structure DispatchCall where
  workerId : String
  leaseSeconds : ℕ

def dispatchSystem (x : BitgetDispatcher) :
    System DispatchOp DispatchAns DispatchError DispatchCall Db DispatchChoice DispatchEnv where
  body i := x.runOnce i.workerId i.leaseSeconds >>= fun _ => pure ()
  exec o db c := some (dispatchExec o db c)
  env db e := (e.apply db).toOption

abbrev DispatchWorld := State DispatchOp DispatchAns DispatchError DispatchCall Db
abbrev DispatchLabel := Label DispatchCall DispatchChoice DispatchEnv

end FattyTrader
