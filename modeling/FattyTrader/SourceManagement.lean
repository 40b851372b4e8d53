import FattyTrader.EntryRecovery

/-!
# Execution of source management updates

`SourceManagementExecutor.run_once` claims one update and goes through it : it cancels the entries
the symbol still has open, reads the position, and closes it, closes half of it, or moves its stop
to the entry. The effect on the venue, a close or a new stop, has an intent of its own in
`source_management_provider_intents`, which is recorded before the POST.

`claim` first fails the updates whose source is no longer eligible or whose budget of time is
spent, unless an intent or a cancellation is recorded for them. A `SourceManagementReconciliationPending`
parks the update and counts an attempt, and a `ValueError`, `KeyError` or `TypeError` fails it. Another
exception leaves `run_once`, and the update claimed.
-/

set_option linter.unusedSectionVars false

open Tables Programs Prog

namespace FattyTrader

/-! ## Updates -/

inductive ManagementAction
  | tp1Booked
  | tpBooked
  | slToEntry
  | close
deriving DecidableEq

structure SourceManagementUpdate where
  id : Uuid
  symbol : String
  action : ManagementAction
deriving DecidableEq

/-- The states a row may have, by its `CHECK`. -/
inductive UpdateState
  | queued
  | claimed
  | reconciliationPending
  | failed
  | reconciled
  | cancelledFlat
  | entriesCancelled
deriving DecidableEq

def UpdateState.terminal : UpdateState → Bool
  | .queued => false
  | .claimed => false
  | .reconciliationPending => false
  | _ => true

/-- A row of `source_management_updates`. -/
structure UpdateRow where
  update : SourceManagementUpdate
  state : UpdateState := .queued
  attempts : ℕ := 0
  deadline : Option Instant := none
deriving DecidableEq

def UpdateRow.id (r : UpdateRow) : Uuid := r.update.id

inductive ManagementLeg
  | close
  | sl
deriving DecidableEq

/-- `source-management-<id>-close` and `source-management-<id>-sl`. -/
structure ManagementOid where
  id : Uuid
  leg : ManagementLeg
deriving DecidableEq

def ManagementOid.text (oid : ManagementOid) : String :=
  "source-management-" ++ toString oid.id ++
    match oid.leg with
    | .close => "-close"
    | .sl => "-sl"

namespace SourceManagementUpdate

variable (u : SourceManagementUpdate)

def closeOid : ManagementOid := ⟨u.id, .close⟩

def slOid : ManagementOid := ⟨u.id, .sl⟩

def cancelsEntries : Bool :=
  u.action = .close || u.action = .tp1Booked || u.action = .tpBooked

def movesStop : Bool := u.action = .tp1Booked || u.action = .slToEntry

end SourceManagementUpdate

/-! ## The venue -/

/-- The entry price of a position. -/
inductive EntryPrice
  | value (q : ℚ)
  | infinity
  | nan
deriving DecidableEq

/-- An open position, as `get_positions` returns it. -/
structure OpenPosition where
  side : Direction
  size : ℚ
  entry : EntryPrice
deriving DecidableEq

/-- What a request to modify a stop names, and the record of its intent. -/
structure StopRequest where
  record : LiveIntentRecord
  orderId : String
  planClientOid : String
  triggerPrice : ℚ

/-- The acknowledgement of a close : no mapping, or one with its order id. -/
inductive CloseAck
  | invalid
  | mapping (orderId : Option String)

inductive ManagementError
  | reconciliationPending (message : String)
  | invalid (message : String)
  | unknownResult
  | other
deriving DecidableEq

/-- The exceptions `run_once` catches. -/
def ManagementError.caught : ManagementError → Bool
  | .reconciliationPending _ => true
  | .invalid _ => true
  | _ => false

/-! ## The store -/

/-- The payload of an alert. -/
inductive ManagementAlert
  | outcome (update : SourceManagementUpdate) (state : UpdateState) (error : Option String)
  | deadLetter (id : Uuid) (attempts : ℕ) (error : String)

/-- `source-update-outcome:<id>` and `source-update-dead-letter:<id>`. -/
inductive AlertKey
  | outcome (id : Uuid)
  | deadLetter (id : Uuid)
deriving DecidableEq

def ManagementAlert.key : ManagementAlert → AlertKey
  | .outcome update _ _ => .outcome update.id
  | .deadLetter id _ _ => .deadLetter id

structure ManagementWorld where
  updates : Table UpdateRow (SameKey UpdateRow.id) := .empty
  providerIntents : List ManagementOid := []
  outbox : Table ManagementAlert (SameKey ManagementAlert.key) := .empty
  db : Db := {}
  clock : Instant := 0

inductive ManagementOp
  | claim (workerId : String)
  | hasProviderIntent (oid : ManagementOid)
  | persistProviderIntent (oid : ManagementOid)
  | managementIsEligible (id : Uuid)
  | hasClaimedCancellation (id : Uuid)
  | updateState (id : Uuid) (state : UpdateState)
  | alertOutcome (update : SourceManagementUpdate) (state : UpdateState) (error : Option String)
  | park (id : Uuid) (error : String) (retrySeconds maxAttempts : ℕ)
  | entry (o : EntryOp)
  | getIntent (clientOid : String)
  | saveIntent (record : LiveIntentRecord)
  | claimIntent (record : LiveIntentRecord)
  | updateIntent (record : LiveIntentRecord)
  | bindRequestedClose (oid : ManagementOid)
  | reconcileCloses
  | getPositions (symbol : String)
  | getOrders (symbol : String)
  | normalizeTp1CloseQuantity (symbol : String) (quantity : ℚ)
  | stopRequest (symbol : String) (side : Direction) (quantity : ℚ) (stopLoss : EntryPrice)
      (oid : ManagementOid)
  | reconcileStopIntent (oid : ManagementOid)
  | placeMarketClose (symbol : String) (side : Side) (quantity : ℚ) (oid : ManagementOid)
  | modifyPositionStopLoss (request : StopRequest) (oid : ManagementOid)

/-- An exception of an operation of the entry path is a value here : `cancel_pending_entries` catches
them all. -/
abbrev ManagementAns : ManagementOp → Type
  | .claim _ => Option SourceManagementUpdate
  | .hasProviderIntent _ => Bool
  | .persistProviderIntent _ => Bool
  | .managementIsEligible _ => Bool
  | .hasClaimedCancellation _ => Bool
  | .updateState _ _ => Unit
  | .alertOutcome _ _ _ => Unit
  | .park _ _ _ _ => UpdateState
  | .entry o => Except ExecutionError (EntryAns o)
  | .getIntent _ => Option LiveIntentRecord
  | .saveIntent _ => Unit
  | .claimIntent _ => Bool
  | .updateIntent _ => Unit
  | .bindRequestedClose _ => Bool
  | .reconcileCloses => Unit
  | .getPositions _ => List OpenPosition
  | .getOrders _ => List String
  | .normalizeTp1CloseQuantity _ _ => ℚ
  | .stopRequest _ _ _ _ _ => StopRequest
  | .reconcileStopIntent _ => Unit
  | .placeMarketClose _ _ _ _ => CloseAck
  | .modifyPositionStopLoss _ _ => Bool

abbrev ManagementProg := Prog ManagementOp ManagementAns ManagementError

abbrev ManagementEvent := Event ManagementOp ManagementAns ManagementError

/-- What the database does not decide : the delivery of a transaction, the rows other statements have
locked, the updates whose source is eligible, the answers of the venue, and what a reconciliation
leaves in the ledger. -/
structure ManagementChoice where
  delivery : Delivery := .answered
  locked : Uuid → Bool := fun _ => false
  eligible : Uuid → Bool := fun _ => true
  entry : EntryChoice
  reconciled : Db → Db := id
  bound : Except ManagementError Bool := .ok true
  done : Except ManagementError Unit := .ok ()
  positions : Except ManagementError (List OpenPosition) := .ok []
  orders : Except ManagementError (List String) := .ok []
  quantity : Except ManagementError ℚ := .error .other
  stop : Except ManagementError StopRequest := .error .other
  closed : Except ManagementError CloseAck := .error .unknownResult
  modified : Except ManagementError Bool := .error .unknownResult

namespace ManagementChoice

variable (c : ManagementChoice)

def read {α : Type} (a : α) : Except ManagementError α :=
  if c.delivery = .answered then .ok a else .error .other

def commit {α : Type} (w w' : ManagementWorld) (a : α) : Except ManagementError α × ManagementWorld :=
  match c.delivery with
  | .answered => (.ok a, w')
  | .lost => (.error .other, w')
  | .failed => (.error .other, w)

/-- A transaction on the ledger. -/
def store {α : Type} (w : ManagementWorld) : Except DbError (Db × α) →
    Except ManagementError α × ManagementWorld
  | .error _ => (.error .other, w)
  | .ok (db, a) => c.commit w { w with db } a

end ManagementChoice

namespace ManagementWorld

variable (w : ManagementWorld)

def row (id : Uuid) : Option UpdateRow := w.updates.rows.find? fun r => r.id = id

def setRow (id : Uuid) (f : UpdateRow → UpdateRow) (hf : ∀ r, (f r).id = r.id) : ManagementWorld :=
  { w with
    updates := w.updates.rewrite (fun r => if r.id = id then f r else r) fun a b h => by
      dsimp only [SameKey] at h
      split at h <;> split at h <;> simpa [SameKey, hf] using h }

/-- `update_state`. -/
def updateState (id : Uuid) (state : UpdateState) : ManagementWorld :=
  w.setRow id (fun r => { r with state }) fun _ => rfl

def notify (alert : ManagementAlert) : ManagementWorld :=
  { w with outbox := w.outbox.insertNew alert }

def hasClaimedCancellation (id : Uuid) : Bool :=
  w.db.intents.rows.any fun r => r.record.role = .entry && r.record.cancelRequestedBy = some id

/-- An intent or a cancellation is recorded for the update. -/
def fenced (id : Uuid) : Bool :=
  w.providerIntents.any (·.id = id) || w.db.intents.rows.any fun r => r.record.cancelRequestedBy = some id

/-- The rows the first two statements of `claim` fail : those whose source is not eligible, and those
whose deadline has passed before they were parked. -/
def swept (eligible : Uuid → Bool) (r : UpdateRow) : Bool :=
  !w.fenced r.id && !r.state.terminal &&
    (!eligible r.id || (r.state ≠ .reconciliationPending && r.deadline.any (· ≤ w.clock)))

def sweep (eligible : Uuid → Bool) : ManagementWorld :=
  { w with
    updates := w.updates.rewrite
      (fun r => if w.swept eligible r then { r with state := .failed } else r) fun a b h => by
        dsimp only [SameKey] at h
        split at h <;> split at h <;> exact h }

def claimable (r : UpdateRow) : Bool :=
  !r.state.terminal && (r.state ≠ .reconciliationPending || r.deadline.all (· ≤ w.clock))

/-- `claim`. -/
def claim (eligible locked : Uuid → Bool) : ManagementWorld × Option SourceManagementUpdate :=
  match (w.sweep eligible).updates.rows.find? fun r => w.claimable r && !locked r.id with
  | none => (w.sweep eligible, none)
  | some r => ((w.sweep eligible).updateState r.id .claimed, some r.update)

def clip (n : ℕ) (s : String) : String := String.ofList (s.toList.take n)

/-- A row after another attempt. -/
def parked (retrySeconds maxAttempts : ℕ) (r : UpdateRow) : UpdateRow :=
  if maxAttempts ≤ r.attempts + 1 then
    { r with attempts := r.attempts + 1, deadline := none, state := .failed }
  else
    { r with
      attempts := r.attempts + 1
      deadline := some (w.clock + retrySeconds * 1000000)
      state := .reconciliationPending }

theorem id_parked (retrySeconds maxAttempts : ℕ) (r : UpdateRow) :
    (w.parked retrySeconds maxAttempts r).id = r.id := by
  unfold parked
  split <;> rfl

/-- `park`. An update that does not exist is a `LookupError`. -/
def park (id : Uuid) (error : String) (retrySeconds maxAttempts : ℕ) :
    Option (ManagementWorld × UpdateState) :=
  match w.row id with
  | none => none
  | some r =>
    let r' := w.parked retrySeconds maxAttempts r
    let w' := w.setRow id (w.parked retrySeconds maxAttempts) (w.id_parked retrySeconds maxAttempts)
    some (if r'.state = .failed then w'.notify (.deadLetter id r'.attempts (clip 200 error)) else w',
      r'.state)

end ManagementWorld

def managementExec (w : ManagementWorld) (c : ManagementChoice) :
    (o : ManagementOp) → Except ManagementError (ManagementAns o) × ManagementWorld
  | .claim workerId =>
    if workerId = "" then (.error (.invalid "worker_id is required"), w)
    else
      let (w', claimed) := w.claim c.eligible c.locked
      c.commit w w' claimed
  | .hasProviderIntent oid => (c.read (decide (oid ∈ w.providerIntents)), w)
  | .persistProviderIntent oid =>
    if oid ∈ w.providerIntents then c.commit w w false
    else c.commit w { w with providerIntents := oid :: w.providerIntents } true
  | .managementIsEligible id => (c.read (c.eligible id), w)
  | .hasClaimedCancellation id => (c.read (w.hasClaimedCancellation id), w)
  | .updateState id state => c.commit w (w.updateState id state) ()
  | .alertOutcome update state error =>
    c.commit w (w.notify (.outcome update state (error.map (ManagementWorld.clip 200)))) ()
  | .park id error retrySeconds maxAttempts =>
    match w.park id error retrySeconds maxAttempts with
    | none => (.error .other, w)
    | some (w', state) => c.commit w w' state
  | .entry o =>
    let (answer, db) := entryExec o w.db c.entry
    (.ok answer, { w with db })
  | .getIntent clientOid => (c.read (w.db.get clientOid), w)
  | .saveIntent record => c.store w ((w.db.recordClose c.entry.now record).map (·, ()))
  | .claimIntent record => c.store w (w.db.claim c.entry.now record)
  | .updateIntent record => c.store w ((w.db.update c.entry.now record).map (·, ()))
  | .bindRequestedClose _ => (c.bound, { w with db := c.reconciled w.db })
  | .reconcileCloses => (c.done, { w with db := c.reconciled w.db })
  | .getPositions _ => (c.positions, w)
  | .getOrders _ => (c.orders, w)
  | .normalizeTp1CloseQuantity _ _ => (c.quantity, w)
  | .stopRequest _ _ _ _ _ => (c.stop, { w with db := c.reconciled w.db })
  | .reconcileStopIntent _ => (c.done, { w with db := c.reconciled w.db })
  | .placeMarketClose _ _ _ _ => (c.closed, w)
  | .modifyPositionStopLoss _ _ => (c.modified, w)

/-! ## The gateway -/

/-- A program of the entry path. -/
def entryProg {α : Type} : EntryProg α → ManagementProg (Except ExecutionError α)
  | .ret a => pure (.ok a)
  | .raise e => pure (.error e)
  | .op o k => do
    let answer : Except ExecutionError (EntryAns o) ← perform (ManagementOp.entry o)
    entryProg (k answer)

def getIntent (oid : ManagementOid) : ManagementProg (Option LiveIntentRecord) :=
  perform (ManagementOp.getIntent oid.text)

def updateIntent (record : LiveIntentRecord) : ManagementProg Unit :=
  perform (ManagementOp.updateIntent record)

/-- `cancel_pending_entries`. -/
def cancelOwnedEntries (symbol : String) (id : Uuid) (reconciliationOnly : Bool) :
    ManagementProg Bool := do
  match ← entryProg (BitgetDispatchExecution.cancelPendingEntries symbol id reconciliationOnly) with
  | .ok proved => pure proved
  | .error .unknownResult =>
    raise (.reconciliationPending "owned entry cancellation result is unknown")
  | .error _ => raise .other

/-- The last part of `close_reduce_only`, with the rounds that are left. -/
def awaitClose (oid : ManagementOid) : ℕ → ManagementProg Unit
  | 0 => pure ()
  | rounds + 1 => do
    perform ManagementOp.reconcileCloses
    let rechecked ← getIntent oid
    if rechecked.any fun r => r.state = .filled || r.state = .reconciled then pure ()
    else awaitClose oid rounds

/-- `close_reduce_only`. -/
def closeReduceOnly (symbol : String) (side : Side) (quantity : ℚ) (oid : ManagementOid) :
    ManagementProg Unit := do
  let existing ← getIntent oid
  if existing.isSome then
    raise (.reconciliationPending "existing close intent requires reconciliation")
  else do
    let intent : LiveIntentRecord :=
      { clientOid := oid.text, symbol, side, role := .close, state := .requested,
        requestedQty := quantity }
    perform (ManagementOp.saveIntent intent)
    let bound : Bool ← perform (ManagementOp.bindRequestedClose oid)
    if bound = false then
      raise (.reconciliationPending "exact close ownership binding is unconfirmed")
    else do
      let submitted : Except ManagementError CloseAck ←
        attempt (perform (ManagementOp.placeMarketClose symbol side quantity oid))
      match submitted with
      | .error .unknownResult => do
        updateIntent { intent with state := .unknown }
        raise (.reconciliationPending "close result is unknown")
      | .error e => raise e
      | .ok .invalid => do
        updateIntent { intent with state := .unknown }
        raise (.reconciliationPending "close acknowledgement is invalid")
      | .ok (.mapping orderId) => do
        updateIntent { intent with state := .submitted, providerOrderId := orderId }
        awaitClose oid 5

/-- `reconcile_stop_loss`. -/
def reconcileStopLoss (oid : ManagementOid) : ManagementProg Unit := do
  let intent ← getIntent oid
  if intent.isNone then raise (.reconciliationPending "claimed stop intent is not available")
  else perform (ManagementOp.reconcileStopIntent oid)

/-- `replace_stop_loss`. -/
def replaceStopLoss (symbol : String) (side : Direction) (quantity : ℚ) (stopLoss : EntryPrice)
    (oid : ManagementOid) : ManagementProg Unit := do
  let existing ← getIntent oid
  match existing with
  | some existing =>
    if existing.symbol ≠ symbol ∨ existing.side ≠ side.side.opposite then
      raise (.reconciliationPending "stop mutation intent conflicts")
    else perform (ManagementOp.reconcileStopIntent oid)
  | none => do
    let request : StopRequest ← perform (ManagementOp.stopRequest symbol side quantity stopLoss oid)
    let claimed : Bool ← perform (ManagementOp.claimIntent request.record)
    if claimed = false then do
      let previous ← getIntent oid
      if previous.isNone then raise (.reconciliationPending "stop intent claim was lost")
      else perform (ManagementOp.reconcileStopIntent oid)
    else do
      let submitted : Except ManagementError Bool ←
        attempt (perform (ManagementOp.modifyPositionStopLoss request oid))
      match submitted with
      | .error _ => do
        updateIntent { request.record with state := .unknown }
        raise (.reconciliationPending "stop modification result is unknown")
      | .ok false => do
        updateIntent { request.record with state := .unknown }
        raise (.reconciliationPending "stop modification acknowledgement is invalid")
      | .ok true => do
        updateIntent { request.record with state := .acknowledged }
        perform (ManagementOp.reconcileStopIntent oid)

/-! ## The executor -/

structure SourceManagementExecutor where
  mutationsEnabled : Bool
  maxAttempts : ℕ
  retrySeconds : ℕ
  max_pos : 0 < maxAttempts

/-- `_finish`. -/
def finish (u : SourceManagementUpdate) (state : UpdateState) (error : Option String) :
    ManagementProg Unit := do
  perform (ManagementOp.updateState u.id state)
  perform (ManagementOp.alertOutcome u state error)

/-- `_finish`, and the end of the cycle. -/
def finishWith (u : SourceManagementUpdate) (state : UpdateState) (error : Option String)
    (result : String) : ManagementProg (Option String) := do
  finish u state error
  pure (some result)

def requireEligible (u : SourceManagementUpdate) : ManagementProg Unit := do
  let eligible : Bool ← perform (ManagementOp.managementIsEligible u.id)
  if eligible then pure ()
  else raise (.invalid "source management revision is no longer eligible")

/-- `_one_position`. A comparison with a `NaN` raises an `InvalidOperation`. -/
def onePosition : List OpenPosition → ManagementProg OpenPosition
  | [position] =>
    if position.size ≤ 0 then raise (.invalid "management position size is invalid")
    else
      match position.entry with
      | .nan => raise .other
      | .infinity => pure position
      | .value entry =>
        if entry ≤ 0 then raise (.invalid "management position entry is invalid")
        else pure position
  | _ => raise (.invalid "management target must resolve to exactly one open Bitget position")

/-- `_retire_unreconcilable_close_claim`. -/
def retireCloseClaim (u : SourceManagementUpdate) (positions : List OpenPosition) :
    ManagementProg Bool :=
  if positions ≠ [] then pure false
  else do
    let readback ← attempt do
      let orders : List String ← perform (ManagementOp.getOrders u.symbol)
      let proved ← cancelOwnedEntries u.symbol u.id true
      pure (orders.isEmpty && proved)
    match readback with
    | .ok true => do
      finish u .reconciled none
      pure true
    | _ => pure false

/-- The source of the update is no longer eligible. -/
def processIneligible (u : SourceManagementUpdate) : ManagementProg (Option String) := do
  let recorded : Bool ← perform (ManagementOp.hasProviderIntent u.closeOid)
  if recorded then do
    let positions : List OpenPosition ← perform (ManagementOp.getPositions u.symbol)
    if ← retireCloseClaim u positions then pure (some "reconciled")
    else
      raise (.reconciliationPending
        "stale close claim still requires authenticated execution reconciliation")
  else do
    let cancellation : Bool ← perform (ManagementOp.hasClaimedCancellation u.id)
    let proved ← if cancellation then cancelOwnedEntries u.symbol u.id true else pure true
    if proved then raise (.invalid "source management revision is no longer eligible")
    else
      raise (.reconciliationPending "stale cancellation claim still requires terminal readback")

/-- There is no position. -/
def processFlat (u : SourceManagementUpdate) : ManagementProg (Option String) :=
  if u.cancelsEntries then do
    let recorded : Bool ← perform (ManagementOp.hasProviderIntent u.closeOid)
    if recorded then
      if ← retireCloseClaim u [] then pure (some "reconciled")
      else
        raise (.reconciliationPending "existing close intent requires execution reconciliation")
    else finishWith u .cancelledFlat none "cancelled-flat"
  else finishWith u .failed (some "no open position for this instruction") "failed"

def processClose (u : SourceManagementUpdate) (positions : List OpenPosition) :
    ManagementProg (Option String) := do
  let position ← onePosition positions
  requireEligible u
  let recorded : Bool ← perform (ManagementOp.persistProviderIntent u.closeOid)
  if recorded then do
    closeReduceOnly u.symbol position.side.side.opposite position.size u.closeOid
    let after : List OpenPosition ← perform (ManagementOp.getPositions u.symbol)
    if after.isEmpty then pure none
    else raise (.invalid "close was not confirmed by provider position readback")
  else do
    perform (ManagementOp.updateState u.id .reconciliationPending)
    pure (some "reconciliation-pending")

/-- The stop is moved to the entry. -/
def processStop (u : SourceManagementUpdate) (position : OpenPosition) :
    ManagementProg (Option String) := do
  requireEligible u
  let recorded : Bool ← perform (ManagementOp.persistProviderIntent u.slOid)
  if recorded then do
    replaceStopLoss u.symbol position.side position.size position.entry u.slOid
    pure none
  else do
    reconcileStopLoss u.slOid
    finishWith u .reconciled none "reconciled"

def processTp1 (u : SourceManagementUpdate) (positions : List OpenPosition) :
    ManagementProg (Option String) := do
  let position ← onePosition positions
  let recorded : Bool ← perform (ManagementOp.hasProviderIntent u.closeOid)
  if recorded then
    raise (.reconciliationPending "existing TP1 close intent requires execution reconciliation")
  else do
    let quantity : ℚ ← perform (ManagementOp.normalizeTp1CloseQuantity u.symbol position.size)
    requireEligible u
    let claimed : Bool ← perform (ManagementOp.persistProviderIntent u.closeOid)
    if claimed = false then raise (.reconciliationPending "TP1 close claim was lost")
    else do
      closeReduceOnly u.symbol position.side.side.opposite quantity u.closeOid
      let positions : List OpenPosition ← perform (ManagementOp.getPositions u.symbol)
      let remaining ← onePosition positions
      if remaining.size ≠ position.size - quantity then
        raise (.reconciliationPending "TP1 reduction differs from the claimed half close")
      else processStop u remaining

/-- A position is open. -/
def processOpen (u : SourceManagementUpdate) (positions : List OpenPosition) :
    ManagementProg (Option String) :=
  match u.action with
  | .tpBooked => finishWith u .entriesCancelled none "entries-cancelled"
  | .close => processClose u positions
  | .tp1Booked => processTp1 u positions
  | .slToEntry => do
    let position ← onePosition positions
    processStop u position

/-- The update is eligible. -/
def processEligible (u : SourceManagementUpdate) : ManagementProg (Option String) := do
  let proved ← if u.cancelsEntries then cancelOwnedEntries u.symbol u.id false else pure true
  if proved = false then
    raise (.reconciliationPending "owned pending entries are not proved terminal")
  else do
    let positions : List OpenPosition ← perform (ManagementOp.getPositions u.symbol)
    if positions.isEmpty then processFlat u else processOpen u positions

namespace SourceManagementExecutor

variable (x : SourceManagementExecutor)

/-- The body of the `try` : the result of the cycle, or `none` where the update is reconciled
afterwards. -/
def process (u : SourceManagementUpdate) : ManagementProg (Option String) :=
  if x.mutationsEnabled = false then
    finishWith u .failed (some "venue mutations are disabled") "mutations-disabled"
  else do
    let moved : Bool ←
      if u.movesStop then perform (ManagementOp.hasProviderIntent u.slOid) else pure false
    if moved then do
      reconcileStopLoss u.slOid
      finishWith u .reconciled none "reconciled"
    else do
      let eligible : Bool ← perform (ManagementOp.managementIsEligible u.id)
      if eligible then processEligible u else processIneligible u

/-- The rest of a cycle after the body. -/
def conclude (u : SourceManagementUpdate) :
    Except ManagementError (Option String) → ManagementProg String
  | .ok (some result) => pure result
  | .ok none => do
    finish u .reconciled none
    pure "reconciled"
  | .error (.reconciliationPending message) => do
    let state : UpdateState ←
      perform (ManagementOp.park u.id message x.retrySeconds x.maxAttempts)
    pure (if state = .failed then "failed" else "reconciliation-pending")
  | .error (.invalid message) => do
    finish u .failed (some message)
    pure "failed"
  | .error e => raise e

def runOnce (workerId : String) : ManagementProg String := do
  let claimed : Option SourceManagementUpdate ← perform (ManagementOp.claim workerId)
  match claimed with
  | none => pure "idle"
  | some u => do
    let result ← attempt (x.process u)
    x.conclude u result

end SourceManagementExecutor

/-! ## Cycles next to each other -/

/-- An update is enrolled, time passes, or another component writes the ledger. -/
inductive ManagementEnv
  | enroll (u : SourceManagementUpdate) (deadline : Instant)
  | tick (now : Instant)
  | ledger (db : Db)

def ManagementEnv.apply (w : ManagementWorld) : ManagementEnv → Option ManagementWorld
  | .enroll u deadline =>
    some { w with updates := w.updates.insertNew { update := u, deadline := some deadline } }
  | .tick now => if w.clock ≤ now then some { w with clock := now } else none
  | .ledger db => some { w with db }

abbrev ManagementState := State ManagementOp ManagementAns ManagementError String ManagementWorld

abbrev ManagementLabel := Label String ManagementChoice ManagementEnv

/-- Each call is a cycle of a worker with this id. -/
def managers (x : SourceManagementExecutor) : System ManagementOp ManagementAns ManagementError String
    ManagementWorld ManagementChoice ManagementEnv where
  body workerId := do
    let _ ← x.runOnce workerId
    pure ()
  exec o w c := some (managementExec w c o)
  env w e := e.apply w

end FattyTrader
