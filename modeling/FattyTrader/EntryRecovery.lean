import FattyTrader.EntryDispatch

/-!
# Recovery and cancellation of entries

`recoverEntryLifecycles` goes through the durable entries that are not over : it retires a
limit child that was never sent, reads the orders back, settles a lifecycle whose position
is gone, and moves the dispatch and the reservation to what the venue reports. Afterwards
it frees the reservations the venue proves empty, and settles protection plans that are
gone. `cancelPendingEntries` cancels the limit entries of a symbol it can claim, and
`runOnce` of the dispatcher reserves the margin of a dispatch and submits its entry.

`entrySystem` runs any number of submissions, dispatches, recoveries and cancellations at
once over one database, next to the writes of the other components (`EntryEnv`).
-/

set_option linter.unusedSectionVars false

namespace FattyTrader

open Programs Prog

/-- What `_closed_lifecycle_reason` writes. -/
def LiveIntentRecord.settled (r : LiveIntentRecord) : LiveIntentRecord :=
  { r with state := .reconciled }

/-- The submission of a sized entry under the reservation it was admitted with. -/
def BitgetEntrySubmission.admittedBy (sizing : BitgetEntrySubmission)
    (snapshotId reservationId : Uuid) : BitgetEntrySubmission :=
  { sizing with balanceSnapshotId := snapshotId, marginReservationId := reservationId }

/-- The quantity a list of closes moved. -/
def moved (records : List LiveIntentRecord) : ℚ := (records.map (·.filledQty)).sum

/-- The reason of a recovered entry without fills. -/
def recoveryReason : LiveOrderStatus → String
  | .accepted => "recovery-entry-acknowledged"
  | .partiallyFilled => "recovery-entry-partial"
  | .filled => "recovery-entry-filled"
  | .rejected => "recovery-entry-rejected"
  | .unknown => "recovery-entry-unknown"

def recoveryTarget : LiveOrderStatus → DispatchState
  | .accepted => .acknowledged
  | .partiallyFilled => .partiallyFilled
  | .filled => .filled
  | .rejected => .rejected
  | .unknown => .unknown

namespace BitgetDispatchExecution

variable (x : BitgetDispatchExecution)

/-! ## Settlement -/

/-- The records of the given ids, those that exist. -/
def getAll (ids : List String) : EntryProg (List LiveIntentRecord) := do
  let records ← each ids fun oid => ask (.get oid)
  pure records.reduceOption

/-- The ids of the closes recorded under a root itself. -/
def directCloseIds (rootOid : String) : List String :=
  [rootOid ++ "-emergency", rootOid ++ "-close", rootOid ++ "-native-close"]

/-- The closes `_closed_lifecycle_reason` collects for a root. -/
def collectCloses (intent : LiveIntentRecord) : EntryProg (List LiveIntentRecord) := do
  let direct ← getAll (directCloseIds intent.clientOid)
  let protectionIds ← ask (.protectionIntentIds intent.clientOid)
  let protection ← getAll protectionIds
  let symbolCloses ← ask (.symbolCloseIntents intent.symbol)
  pure (direct ++ protection ++ symbolCloses)

/-- `_closed_lifecycle_reason`, whether it settles. -/
def closedLifecycle (intent : LiveIntentRecord) : EntryProg Bool := do
  let records ← collectCloses intent
  if moved records < intent.filledQty then pure false
  else match ← attempt (ask (.positionIsFlat intent.symbol)) with
    | .ok true => do
      ask (.update intent.settled)
      pure true
    | _ => pure false

/-! ## Recovery -/

/-- The checks of recovery on the owner of an intent. -/
def recoveryOwned (d : BitgetDispatch) (intent : LiveIntentRecord) : Bool :=
  intent.role = .entry && intent.clientOid = x.clientOid d && intent.symbol = d.pairToken &&
    intent.side = d.direction.side

/-- The readback of a candidate : the record and the result recovery goes on with. For a
split entry they are the sum of the legs. -/
def recoverReadback (intent : LiveIntentRecord) (limit : Option LiveIntentRecord) :
    EntryProg (LiveIntentRecord × AsyncExecutionResult) := do
  let result ← readIntent intent none
  let intent ← persistReadback intent result
  reconcilePostFill intent result
  match limit with
  | none => pure (intent, result)
  | some limit => do
    let aggregate ← requireSplit intent limit
    reconcilePostFill aggregate (aggregateResult aggregate)
    pure (aggregate, aggregateResult aggregate)

/-- A settled lifecycle closes its dispatch. -/
def recoverSettled (d : BitgetDispatch) (intent : LiveIntentRecord) :
    EntryProg (Option String) := do
  ask (.transition d.id d.state .closing)
  ask (.transition d.id .closing .closed)
  resolveReservation intent .filled
  pure none

/-- The protection verdict of a filled entry. -/
def recoverProtection (oid : String) (intent : LiveIntentRecord) : EntryProg String := do
  let expected ← ask (.remainingOwnedQuantity oid)
  let protection ← readRecoveryProtection intent expected
  if protection.proves expected then pure "recovery-protection-verified"
  else do
    let managed ← ask (.isLocallyManaged intent.clientOid)
    pure (if managed then "recovery-protection-locally-managed"
      else "recovery-missing-protection:" ++
        (protection.reason.filter (· ≠ "")).getD "unconfirmed")

/-- A lifecycle that stays open moves its dispatch and its reservation to the readback. The
result is the issue it leaves. -/
def recoverOpen (d : BitgetDispatch) (oid : String) (intent : LiveIntentRecord)
    (result : AsyncExecutionResult) (split : Bool) : EntryProg (Option String) := do
  let reason ← if 0 < result.filledQty then recoverProtection oid intent
    else pure (recoveryReason result.status)
  ask (.transition d.id d.state (recoveryTarget result.status))
  resolveReservation intent (dispatcherStatus result.status)
  let resolved := reason = "recovery-protection-verified" ∨
    reason = "recovery-protection-locally-managed" ∨ result.status = .rejected ∨
    (split ∧ result.filledQty = 0 ∧ result.status = .accepted)
  pure (if resolved then none else some reason)

/-- One candidate of `recover_entry_lifecycles`. -/
def recoverCandidate (candidate : BitgetDispatch × String) : EntryProg (Option String) := do
  let intent ← ask (.get candidate.2)
  let intent ← required "recovery candidate lacks durable entry intent" intent
  if x.recoveryOwned candidate.1 intent then do
    let limit ← ask (.get (limitOid intent.clientOid))
    let limit ← if intent.entryLeg = some .market then do
        let child ← required "split root lacks durable limit child" limit
        let child ← reconcileWaitingLeg intent child
        pure (some child)
      else pure limit
    let (intent, result) ← recoverReadback intent limit
    let _ ← attempt (ask (.resolveNativeClose intent.clientOid))
    let settled ← if 0 < result.filledQty then closedLifecycle intent else pure false
    if settled then recoverSettled candidate.1 intent
    else recoverOpen candidate.1 candidate.2 intent result limit.isSome
  else raise (.invalid "recovery ownership mismatch")

/-- `retire_proved_empty_orphans`, for one candidate. -/
def retireOrphan (row : MarginReservation) : EntryProg Unit :=
  match row.owner with
  | none => pure ()
  | some owner => do
    match ← attempt (ask (.readSymbol owner.symbol)) with
    | .ok reading =>
      if reading.provedEmpty then ask (.resolve row.id .rejected) else pure ()
    | .error _ => pure ()

/-- `settle_absent_protection`, for one candidate. -/
def settleAbsentIntent (intent : LiveIntentRecord) : EntryProg Unit :=
  if intent.filledQty ≠ 0 then pure ()
  else do
    match ← attempt (ask (.readSymbol intent.symbol)) with
    | .ok reading =>
      if reading.provedEmpty then do
        let _ ← ask (.settleAbsent intent.clientOid)
        pure ()
      else pure ()
    | .error _ => pure ()

def retireProvedEmptyOrphans : EntryProg Unit := do
  let rows ← ask (.orphanCandidates x.environment)
  let _ ← each rows retireOrphan
  pure ()

def settleAbsentProtection : EntryProg Unit := do
  let ids ← ask .unknownNonEntryIds
  let intents ← getAll ids
  let _ ← each intents settleAbsentIntent
  pure ()

/-- `recover_entry_lifecycles`, with the issues it leaves. -/
def recoverEntryLifecycles : EntryProg (List String) := do
  ask .verifyAccountBinding
  let candidates ← ask .recoveryCandidates
  let issues ← each candidates x.recoverCandidate
  x.retireProvedEmptyOrphans
  settleAbsentProtection
  let inventory ← ask .inventory
  let unresolved ← ask .unresolvedProtectionIssues
  pure (issues.reduceOption ++ inventory ++ unresolved)

/-! ## Cancellation -/

/-- `cancel_pending_entry` of the adapter. -/
def cancelPendingEntry (intent : LiveIntentRecord) : EntryProg AsyncExecutionResult := do
  let before ← readIntent intent none
  if before.providerTerminal || before.status = .unknown then pure before
  else if ← ask (.claimCancelPost intent.clientOid) then
    match ← attempt (ask (.cancelEntryOrder intent.symbol intent.clientOid)) with
    | .ok _ => readIntent intent none
    | .error .unknownResult => readIntent intent none
    | .error .provider => readIntent intent none
    | .error e => raise e
  else pure before

/-- The readback a cancellation goes by. -/
def cancelOrRead (intent : LiveIntentRecord) (reconciliationOnly : Bool) :
    EntryProg AsyncExecutionResult :=
  if reconciliationOnly then readIntent intent none else cancelPendingEntry intent

/-- The claim of a cancellation, and the row afterwards. -/
def claimedCancel (entry : LiveIntentRecord) (managementId : Uuid) (reconciliationOnly : Bool) :
    EntryProg (Option LiveIntentRecord) := do
  if reconciliationOnly then pure ()
  else do
    let _ ← ask (.claimCancel entry.clientOid managementId)
    pure ()
  ask (.get entry.clientOid)

/-- A limit entry that is not a leg of a split. -/
def cancelSingle (entry : LiveIntentRecord) (managementId : Uuid) (reconciliationOnly : Bool) :
    EntryProg Bool := do
  match ← claimedCancel entry managementId reconciliationOnly with
  | none => pure false
  | some refreshed => do
    let result ← cancelOrRead refreshed reconciliationOnly
    let refreshed ← persistReadback refreshed result
    if refreshed.providerTerminal then do
      resolveReservation refreshed (dispatcherStatus result.status)
      pure true
    else pure false

/-- The limit child after its claim, read back unless it is known to be terminal. -/
def cancelledLeg (limit : LiveIntentRecord) (reconciliationOnly : Bool) :
    EntryProg LiveIntentRecord := do
  if limit.providerTerminal then pure limit
  else do
    let result ← cancelOrRead limit reconciliationOnly
    persistReadback limit result

/-- The root of a cancelled limit child is read back, and its protection checked. -/
def cancelledRoot (root limit : LiveIntentRecord) : EntryProg Bool := do
  let result ← readIntent root none
  let root ← persistReadback root result
  let aggregate ← requireSplit root limit
  if 0 < aggregate.filledQty then
    if aggregate.plannedTakeProfits.isSome &&
        (aggregate.activeStopLossPrice.isSome || aggregate.plannedStopLoss.isSome) then do
      let _ ← ask (.readRecoveryProtection aggregate.clientOid aggregate.filledQty)
      pure true
    else raise (.runtime "assertion failed")
  else pure true

/-- The limit child of a split entry. -/
def cancelLimit (entry : LiveIntentRecord) (managementId : Uuid) (reconciliationOnly : Bool) :
    EntryProg Bool := do
  let root ← ask (.get (removeSuffix "-limit" entry.clientOid))
  match root with
  | none => pure false
  | some root => do
    let _ ← requireSplit root entry
    let limit ← if reconciliationOnly then pure (some entry)
      else claimedCancel entry managementId false
    match limit with
    | none => pure false
    | some limit => do
      let limit ← cancelledLeg limit reconciliationOnly
      if limit.providerTerminal then cancelledRoot root limit else pure false

/-- One pending entry ; false stops the loop. -/
def cancelEntry (managementId : Uuid) (reconciliationOnly : Bool) (entry : LiveIntentRecord) :
    EntryProg Bool :=
  if reconciliationOnly && entry.cancelRequestedBy ≠ some managementId then pure true
  else if entry.entryLeg = some .limit then cancelLimit entry managementId reconciliationOnly
  else cancelSingle entry managementId reconciliationOnly

/-- The loop over the pending entries. -/
def cancelEntries (managementId : Uuid) (reconciliationOnly : Bool) :
    List LiveIntentRecord → EntryProg Bool
  | [] => pure true
  | entry :: entries => do
    if ← cancelEntry managementId reconciliationOnly entry then
      cancelEntries managementId reconciliationOnly entries
    else pure false

/-- `pending_entries`. -/
def pendingEntries (symbol : Option String) (managementId : Option Uuid) :
    EntryProg (List LiveIntentRecord) := do
  let ids ← ask (.pendingEntryIds symbol managementId)
  let records ← each ids fun oid => ask (.get oid)
  if records.contains none then raise (.storage .pendingEntryDisappeared)
  else pure records.reduceOption

/-- `cancel_pending_entries`. -/
def cancelPendingEntries (symbol : String) (managementId : Uuid) (reconciliationOnly : Bool) :
    EntryProg Bool := do
  let outcome ← attempt do
    ask .verifyAccountBinding
    let entries ← pendingEntries (some symbol) (some managementId)
    if ← cancelEntries managementId reconciliationOnly entries then
      if reconciliationOnly then pure true
      else do
        let left ← pendingEntries (some symbol) none
        pure left.isEmpty
    else pure false
  match outcome with
  | .ok b => pure b
  | .error _ => pure false

/-! ## The dispatcher -/

/-- The state a dispatch reaches with the status of its submission. -/
def submittedTarget (status : String) : DispatchState :=
  if status = "ACKNOWLEDGED" then .acknowledged
  else if ["FILLED", "FILLED_FALLBACK", "FILLED_UNPROTECTED", "FILLED_LOCALLY_MANAGED"].contains
      status then .filled
  else if ["PARTIAL", "PARTIAL_UNPROTECTED", "PARTIAL_LOCALLY_MANAGED"].contains status then
    .partiallyFilled
  else if status = "REJECTED" then .rejected
  else .unknown

/-- The request `reserve` is called with. -/
def admissionRequest (d : BitgetDispatch) (request : ReserveRequest) : ReserveRequest :=
  { request with exchange := "bitget", dispatchId := d.id, clientOrderId := x.clientOid d }

/-- The dispatcher after the admission was accepted. -/
def dispatchAdmitted (d : BitgetDispatch) (submission : BitgetEntrySubmission) :
    EntryProg String := do
  ask (.transition d.id .preflight .sized)
  ask (.transition d.id .sized .validated)
  if ← ask (.reserveCanaryEntry d.id) then do
    ask (.transition d.id .validated .submitting)
    match ← attempt (x.submitEntry d submission) with
    | .ok status =>
      if status = "EXPIRED" then pure "expired"
      else do
        ask (.transition d.id .submitting (submittedTarget status))
        pure status
    | .error _ => do
      ask (.transition d.id .submitting .unknown)
      pure "unknown"
  else do
    let _ ← attempt (releaseReservation submission)
    ask (.transition d.id .validated .rejected)
    pure "rejected"

/-- `run_once` of the dispatcher, from the admission on : the margin is reserved under the
client order id of the dispatch, and the entry is submitted under that reservation. -/
def dispatchEntry (d : BitgetDispatch) (request : ReserveRequest)
    (sizing : BitgetEntrySubmission) : EntryProg String := do
  ask (.transition d.id .queued .preflight)
  match ← attempt (ask (.reserve (x.admissionRequest d request))) with
  | .ok (.accepted snapshotId reservationId) =>
    x.dispatchAdmitted d (sizing.admittedBy snapshotId reservationId)
  | .ok (.rejected .staleSourceMessage) => pure "expired"
  | .ok (.rejected _) => do
    ask (.transition d.id .preflight .rejected)
    pure "rejected"
  | .error _ => do
    ask (.transition d.id .preflight .rejected)
    pure "rejected"

end BitgetDispatchExecution

/-! ## The system -/

/-- A submission, a dispatch of the dispatcher, a recovery, or a cancellation. -/
inductive EntryCall
  | submit (d : BitgetDispatch) (submission : BitgetEntrySubmission)
  | dispatch (d : BitgetDispatch) (request : ReserveRequest) (sizing : BitgetEntrySubmission)
  | recover
  | cancel (symbol : String) (managementId : Uuid) (reconciliationOnly : Bool)

def EntryCall.body (x : BitgetDispatchExecution) : EntryCall → EntryProg Unit
  | .submit d submission => x.submitEntry d submission >>= fun _ => pure ()
  | .dispatch d request sizing => x.dispatchEntry d request sizing >>= fun _ => pure ()
  | .recover => x.recoverEntryLifecycles >>= fun _ => pure ()
  | .cancel symbol managementId reconciliationOnly =>
    BitgetDispatchExecution.cancelPendingEntries symbol managementId reconciliationOnly >>=
      fun _ => pure ()

/-- What other components write to the tables of the entry path. -/
inductive EntryEnv
  | escalateExpired (now : Instant) (reservationId : Uuid)
  | releaseVerifiedClose (clock : CloseClock) (claim : CloseClaim)
  | applyBaseline (now : Instant) (baselineId : String) (records : List BaselineRecord)
  | expireSource (now : Instant) (dispatchId : Uuid)
  | recordClose (now : Instant) (record : LiveIntentRecord)
  | updateClose (now : Instant) (record : LiveIntentRecord)
  | bindClose (binding : CloseBinding)
  | enqueue (d : BitgetDispatch)
  | transition (dispatchId : Uuid) (expected target : DispatchState)
  | manageLocally (clientOid : String)

def EntryEnv.apply (db : Db) : EntryEnv → Except DbError Db
  | .escalateExpired now id => db.escalateExpired now id
  | .releaseVerifiedClose clock claim => (db.releaseVerifiedClose clock claim).map Prod.fst
  | .applyBaseline now baselineId records => db.applyBaseline now baselineId records
  | .expireSource now id => db.expireSource now id
  | .recordClose now record => db.recordClose now record
  | .updateClose now record => db.updateClose now record
  | .bindClose binding => db.bindClose binding
  | .enqueue d => db.enqueue d
  | .transition id expected target => db.transition id expected target none
  | .manageLocally oid => .ok { db with fallbackProtection := oid :: db.fallbackProtection }

def entrySystem (x : BitgetDispatchExecution) :
    System EntryOp EntryAns ExecutionError EntryCall Db EntryChoice EntryEnv where
  body := EntryCall.body x
  exec o db c := some (entryExec o db c)
  env db e := (e.apply db).toOption

abbrev EntryState := State EntryOp EntryAns ExecutionError EntryCall Db
abbrev EntryLabel := Label EntryCall EntryChoice EntryEnv

end FattyTrader
