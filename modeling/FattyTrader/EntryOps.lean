import FattyTrader.Programs
import FattyTrader.Readback
import FattyTrader.ReservationRuns

/-!
# Operations of the entry path

What `BitgetDispatchExecution`, the dispatcher and the recovery do one at a time : one
transaction of the store, one reading, or one request to the venue. `entryExec` is the
effect of an operation on the database. The schedule (`EntryChoice`) chooses what is not
decided by the database : the answers of the venue, what readings of the switches and of
the process find, the clock, and whether a transaction is answered, applied but reported
as failed, or rolled back.

The reads `reconcile_intent` makes of one order are one operation, `readOrder`. Its answers
are free, so a step of another call between two of these reads has no effect on them.
-/

set_option linter.unusedSectionVars false

open Tables

namespace FattyTrader

open Programs Prog

/-! ## Arguments and answers -/

/-- The keyword arguments of `place_entry_order`. The price is set for a limit order. -/
structure EntryOrder where
  symbol : String
  side : Side
  quantity : ℚ
  clientOid : String
  orderType : OrderType
  price : Option ℚ
deriving DecidableEq

structure AsyncProtectionResult where
  venueProtected : Bool
  observedQuantity : ℚ
  reason : Option String
deriving DecidableEq

/-- Position, pending orders and plans of one symbol, as far as they could be read. -/
structure SymbolReading where
  positionQuantity : Option ℚ
  pendingOrders : Option ℕ
  plans : Option ℕ
deriving DecidableEq

def SymbolReading.provedEmpty (r : SymbolReading) : Bool :=
  r.positionQuantity = some 0 && r.pendingOrders = some 0 && r.plans = some 0

inductive ExecutionError
  | storage (e : DbError)
  | connection
  | provider
  | unknownResult
  | read (e : ReadError)
  | invalid (text : String)
  | runtime (text : String)
deriving DecidableEq

inductive EntryOp
  | get (clientOid : String)
  | currentEntry (clientOid : String)
  | claim (record : LiveIntentRecord)
  | claimSplit (market limit : LiveIntentRecord)
  | claimEntryPost (clientOid : String)
  | claimCancel (clientOid : String) (managementId : Uuid)
  | claimCancelPost (clientOid : String)
  | update (record : LiveIntentRecord)
  | remainingOwnedQuantity (clientOid : String)
  | pendingEntryIds (symbol : Option String) (managementId : Option Uuid)
  | protectionIntentIds (rootOid : String)
  | symbolCloseIntents (symbol : String)
  | unknownNonEntryIds
  | settleAbsent (clientOid : String)
  | unresolvedProtectionIssues
  | entrySourceEligible (dispatchId : Uuid)
  | recoveryCandidates
  | transition (dispatchId : Uuid) (expected target : DispatchState)
  | isLocallyManaged (clientOid : String)
  | reserve (request : ReserveRequest)
  | reserveCanaryEntry (dispatchId : Uuid)
  | resolve (reservationId : Uuid) (outcome : Outcome)
  | orphanCandidates (environment : Environment)
  | killSwitchActive (scope : String)
  | recoveryReady
  | degraded
  | ensureLeverage (symbol : String) (leverage : ℕ)
  | placeEntryOrder (order : EntryOrder)
  | cancelEntryOrder (symbol clientOid : String)
  | readOrder (symbol clientOid : String)
  | reconcilePostFill (clientOid : String)
  | protectFilledPosition (clientOid : String) (quantity : ℚ)
  | readRecoveryProtection (clientOid : String) (quantity : ℚ)
  | resolveNativeClose (clientOid : String)
  | verifyAccountBinding
  | positionIsFlat (symbol : String)
  | readSymbol (symbol : String)
  | inventory

/-- `currentEntry` is the `get` of the last check before a limit child is sent. -/
abbrev EntryAns : EntryOp → Type
  | .get _ => Option LiveIntentRecord
  | .currentEntry _ => Option LiveIntentRecord
  | .claim _ => Bool
  | .claimSplit _ _ => Bool
  | .claimEntryPost _ => Bool
  | .claimCancel _ _ => Bool
  | .claimCancelPost _ => Bool
  | .update _ => Unit
  | .remainingOwnedQuantity _ => ℚ
  | .pendingEntryIds _ _ => List String
  | .protectionIntentIds _ => List String
  | .symbolCloseIntents _ => List LiveIntentRecord
  | .unknownNonEntryIds => List String
  | .settleAbsent _ => Bool
  | .unresolvedProtectionIssues => List String
  | .entrySourceEligible _ => Bool
  | .recoveryCandidates => List (BitgetDispatch × String)
  | .transition _ _ _ => Unit
  | .isLocallyManaged _ => Bool
  | .reserve _ => BalanceAdmission
  | .reserveCanaryEntry _ => Bool
  | .resolve _ _ => Unit
  | .orphanCandidates _ => List MarginReservation
  | .killSwitchActive _ => Bool
  | .recoveryReady => Bool
  | .degraded => Bool
  | .ensureLeverage _ _ => Unit
  | .placeEntryOrder _ => Submitted
  | .cancelEntryOrder _ _ => Unit
  | .readOrder _ _ => OrderReading
  | .reconcilePostFill _ => Unit
  | .protectFilledPosition _ _ => AsyncProtectionResult
  | .readRecoveryProtection _ _ => AsyncProtectionResult
  | .resolveNativeClose _ => Bool
  | .verifyAccountBinding => Unit
  | .positionIsFlat _ => Bool
  | .readSymbol _ => SymbolReading
  | .inventory => List String

abbrev EntryProg (α : Type) := Prog EntryOp EntryAns ExecutionError α
abbrev EntryEvent := Event EntryOp EntryAns ExecutionError

/-- Perform one operation of the entry path. -/
abbrev ask (o : EntryOp) : EntryProg (EntryAns o) := perform o

/-! ## Transactions -/

/-- The states whose transition deletes the canary reservation of its dispatch. -/
def DispatchState.releasesCanary : DispatchState → Bool
  | .filled | .rejected | .cancelled | .reconciled => true
  | _ => false

namespace Db

/-- `entry_source_eligible`. `fresh` is what the source and the admission pauses say, and
`lapsed` that it is the source that is no longer eligible. -/
def entrySourceEligible (now : Instant) (fresh lapsed : Bool) (db : Db) (dispatchId : Uuid) :
    Except DbError (Db × Bool) :=
  match db.dispatch dispatchId with
  | none => .ok (db, false)
  | some d =>
    if (d.state = .queued ∨ d.state = .submitting) ∧
        db.baselined (.dispatch dispatchId) = false then
      if fresh then .ok (db, true)
      else if lapsed then (db.expireSourceDispatch now dispatchId d.state).map (·, false)
      else .ok (db, false)
    else .ok (db, false)

/-- `recovery_candidates`. -/
def recoveryCandidates (db : Db) : List (BitgetDispatch × String) :=
  db.intents.rows.flatMap fun row =>
    db.reservations.rows.flatMap fun m =>
      db.dispatches.rows.filterMap fun d =>
        if row.record.role = .entry ∧ m.clientOrderId = row.clientOid ∧ d.id = m.dispatchId ∧
            db.notBaselined row.record m d ∧
            (0 < row.record.filledQty ∨
              ¬ (row.record.state = .rejected ∨ row.record.state = .cancelled ∨
                row.record.state = .reconciled)) ∧
            d.state ≠ .closed ∧ d.state ≠ .reconciled then some (d, row.clientOid)
        else none

/-- `transition`. -/
def transition (db : Db) (dispatchId : Uuid) (expected target : DispatchState)
    (reason : Option String) : Except DbError Db :=
  match db.dispatch dispatchId with
  | none => .error .conflictOrMissing
  | some d =>
    if d.state = expected then
      match db.dispatches.updateWhere (·.id = dispatchId) (BitgetDispatch.moved target reason) with
      | none => .error .uniqueViolation
      | some dispatches =>
        let db := { db with dispatches }.recordTransition ⟨dispatchId, expected, target, reason⟩
        .ok (if target.releasesCanary then db.releaseCanaryEntry dispatchId else db)
    else .error .conflictOrMissing

/-- The record of a close, a protection plan or an emergency close is inserted. -/
def recordClose (now : Instant) (db : Db) (record : LiveIntentRecord) : Except DbError Db :=
  if record.role = .entry then .error .checkViolation
  else (db.insertIntent now record).map Prod.fst

/-- The record of a close or a protection plan is updated. -/
def updateClose (now : Instant) (db : Db) (record : LiveIntentRecord) : Except DbError Db :=
  match db.get record.clientOid with
  | none => .error .conflictOrMissing
  | some r => if r.role = .entry then .error .checkViolation else db.update now record

/-- A close order is bound to the reservation it reduces. -/
def bindClose (db : Db) (binding : CloseBinding) : Except DbError Db :=
  match db.closeBindings.insert binding with
  | none => .error .uniqueViolation
  | some closeBindings => .ok { db with closeBindings }

/-- A dispatch of a new source. -/
def enqueue (db : Db) (d : BitgetDispatch) : Except DbError Db :=
  match db.dispatches.insert d with
  | none => .error .uniqueViolation
  | some dispatches => .ok { db with dispatches }

end Db

/-! ## The schedule -/

structure EntryChoice where
  delivery : Delivery
  now : Instant
  clock : ReserveClock
  ids : ReserveIds
  fresh : Bool
  lapsed : Bool
  issues : List String
  flag : Bool
  reading : OrderReading
  submitted : Except ExecutionError Submitted
  protection : Except ExecutionError AsyncProtectionResult
  symbolReading : Except ExecutionError SymbolReading
  done : Except ExecutionError Unit
  verdict : Except ExecutionError Bool

namespace EntryChoice

variable (c : EntryChoice)

/-- A stored value, or the failure to read it. -/
def read {α : Type} (a : α) : Except ExecutionError α :=
  if c.delivery = .answered then .ok a else .error .connection

/-- A transaction : rolled back by its own error, applied, applied but lost, or failed. -/
def commit {α : Type} (db : Db) : Except DbError (Db × α) → Except ExecutionError α × Db
  | .error e => (.error (.storage e), db)
  | .ok (db', a) =>
    match c.delivery with
    | .answered => (.ok a, db')
    | .lost => (.error .connection, db')
    | .failed => (.error .connection, db)

end EntryChoice

/-- One operation. -/
def entryExec (o : EntryOp) (db : Db) (c : EntryChoice) :
    Except ExecutionError (EntryAns o) × Db :=
  match o with
  | .get oid => (c.read (db.get oid), db)
  | .currentEntry oid => (c.read (db.get oid), db)
  | .claim record => c.commit db (db.claim c.now record)
  | .claimSplit market limit => c.commit db (db.claimSplit c.now market limit)
  | .claimEntryPost oid => c.commit db (db.claimEntryPost oid)
  | .claimCancel oid mid => c.commit db (db.claimCancel oid mid)
  | .claimCancelPost oid => c.commit db (db.claimCancelPost oid)
  | .update record => c.commit db ((db.update c.now record).map (·, ()))
  | .remainingOwnedQuantity oid =>
    match db.remainingOwnedQuantity oid with
    | .ok q => (c.read q, db)
    | .error _ => (.error (.invalid "owned quantity lacks exact evidence"), db)
  | .pendingEntryIds symbol mid => (c.read (db.pendingEntryIds symbol mid), db)
  | .protectionIntentIds oid => (c.read (db.protectionIntentIds oid), db)
  | .symbolCloseIntents symbol => (c.read (db.symbolCloseIntents symbol), db)
  | .unknownNonEntryIds => (c.read db.unknownNonEntryIds, db)
  | .settleAbsent oid => c.commit db (db.settleAbsent oid)
  | .unresolvedProtectionIssues => (c.read c.issues, db)
  | .entrySourceEligible id => c.commit db (db.entrySourceEligible c.now c.fresh c.lapsed id)
  | .recoveryCandidates => (c.read db.recoveryCandidates, db)
  | .transition id expected target =>
    c.commit db ((db.transition id expected target none).map (·, ()))
  | .isLocallyManaged oid => (c.read (db.fallbackProtection.contains oid), db)
  | .reserve request => c.commit db (db.reserve c.clock c.ids c.fresh request)
  | .reserveCanaryEntry _ => (c.read c.flag, db)
  | .resolve id outcome => c.commit db ((db.resolve c.now id outcome).map (·, ()))
  | .orphanCandidates environment => (c.read (db.orphanCandidates environment), db)
  | .killSwitchActive _ => (c.read c.flag, db)
  | .recoveryReady => (.ok c.flag, db)
  | .degraded => (.ok c.flag, db)
  | .ensureLeverage _ _ => (c.done, db)
  | .placeEntryOrder _ => (c.submitted, db)
  | .cancelEntryOrder _ _ => (c.done, db)
  | .readOrder _ _ => (.ok c.reading, db)
  | .reconcilePostFill _ => (c.done, db)
  | .protectFilledPosition _ _ => (c.protection, db)
  | .readRecoveryProtection _ _ => (c.protection, db)
  | .resolveNativeClose _ => (c.verdict, db)
  | .verifyAccountBinding => (c.done, db)
  | .positionIsFlat _ => (c.verdict, db)
  | .readSymbol _ => (c.symbolReading, db)
  | .inventory => (c.read c.issues, db)

end FattyTrader
