import FattyTrader.EntryOps

/-!
# The dispatch of an entry

`BitgetDispatchExecution.submitEntry` as a program : it claims the intent of a dispatch
durably, checks once more that it may enter, sends the order once, and reads it back. A
split entry claims a market root and a limit child together, and sends the child after the
root has filled and its protection is proved.

An intent is a mutable object in the source. The model passes it along : a function that
changes it returns the changed record, also next to the exception it ends with (`Guarded`).
-/

set_option linter.unusedSectionVars false

namespace FattyTrader

open Programs Prog

/-! ## Client order ids -/

/-- The `k` low hexadecimal digits, the most significant first. -/
def hexDigits : ℕ → ℕ → List Char
  | 0, _ => []
  | k + 1, n => hexDigits k (n / 16) ++ ["0123456789abcdef".toList.getD (n % 16) '0']

/-- `hex[:16]`. -/
def hexPrefix (id : Uuid) : String := String.ofList (hexDigits 16 (id / 16 ^ 16))

/-- The wiring : `uuid5` in the URL namespace, whether the kill switches are enforced, and
the environment recovery works in. -/
structure BitgetDispatchExecution where
  uuid5 : String → Uuid
  killSwitchEnforced : Bool
  environment : Environment

def BitgetDispatchExecution.clientOid (x : BitgetDispatchExecution) (d : BitgetDispatch) :
    String :=
  let side := d.direction.side.text
  let token :=
    match d.sourceChannelId, d.sourceMessageId with
    | some channel, some message =>
      hexPrefix (x.uuid5 ("fatty-bitget-entry:" ++ toString channel ++ ":" ++ toString message ++
        ":" ++ d.pairToken ++ ":" ++ side))
    | _, _ => hexPrefix d.id
  "live-bitget-" ++ d.pairToken ++ "-" ++ token

/-! ## Submissions -/

structure EntryRoute where
  marketQuantity : ℚ
  limitQuantity : ℚ
  limitPrice : Option ℚ
deriving DecidableEq

/-- `BitgetEntrySubmission`, with the checks of its construction. -/
structure BitgetEntrySubmission where
  quantity : ℚ
  effectiveLeverage : ℕ
  plannedMarginUsdt : ℚ
  plannedNotionalUsdt : ℚ
  balanceSnapshotId : Uuid
  marginReservationId : Uuid
  plannedStopLoss : ℚ
  plannedTakeProfits : List ℚ
  entryRoute : Option EntryRoute
  quantity_pos : 0 < quantity
  margin_pos : 0 < plannedMarginUsdt
  notional_pos : 0 < plannedNotionalUsdt
  leverage_pos : 1 ≤ effectiveLeverage
  stopLoss_pos : 0 < plannedStopLoss
  takeProfits_ne : plannedTakeProfits ≠ []
  takeProfits_pos : ∀ p ∈ plannedTakeProfits, 0 < p

/-- The route, when it sends both legs. -/
def BitgetEntrySubmission.splitRoute (s : BitgetEntrySubmission) : Option EntryRoute :=
  s.entryRoute.filter fun route => decide (0 < route.limitQuantity) && decide (0 < route.marketQuantity)

/-- `_intent`. -/
def BitgetDispatchExecution.intent (x : BitgetDispatchExecution) (d : BitgetDispatch)
    (s : BitgetEntrySubmission) : LiveIntentRecord where
  clientOid := x.clientOid d
  symbol := d.pairToken
  side := d.direction.side
  requestedQty := s.quantity
  orderType := d.orderType
  limitPrice := if d.orderType = .limit then some d.entryPrice else none
  plannedLeverage := some s.effectiveLeverage
  plannedMarginUsdt := some s.plannedMarginUsdt
  plannedNotionalUsdt := some s.plannedNotionalUsdt
  marginMode := some .isolated
  balanceSnapshotId := some s.balanceSnapshotId
  marginReservationId := some s.marginReservationId
  plannedStopLoss := some s.plannedStopLoss
  plannedTakeProfits := some s.plannedTakeProfits

/-- The market root of a split entry. -/
def BitgetDispatchExecution.splitRoot (x : BitgetDispatchExecution) (d : BitgetDispatch)
    (s : BitgetEntrySubmission) (route : EntryRoute) : LiveIntentRecord :=
  { x.intent d s with
    requestedQty := route.marketQuantity
    dispatchId := some d.id
    entryLeg := some .market }

/-- The limit child of a split entry. -/
def BitgetDispatchExecution.splitLimit (x : BitgetDispatchExecution) (d : BitgetDispatch)
    (s : BitgetEntrySubmission) (route : EntryRoute) : LiveIntentRecord :=
  { x.splitRoot d s route with
    clientOid := limitOid (x.clientOid d)
    requestedQty := route.limitQuantity
    entryLeg := some .limit
    orderType := .limit
    limitPrice := route.limitPrice
    state := .staged }

/-! ## Changes of an intent -/

def LiveOrderStatus.intentState : LiveOrderStatus → IntentState
  | .accepted => .acknowledged
  | .partiallyFilled => .partiallyFilled
  | .filled => .filled
  | .rejected => .rejected
  | .unknown => .unknown

/-- `_dispatcher_status`. -/
def dispatcherStatus : LiveOrderStatus → Outcome
  | .accepted => .acknowledged
  | .partiallyFilled => .partiallyFilled
  | .filled => .filled
  | .rejected => .rejected
  | .unknown => .unknown

def AsyncExecutionResult.executed (result : AsyncExecutionResult) : Bool :=
  result.status = .filled || result.status = .partiallyFilled

/-- The result says that the order is terminal. -/
def AsyncExecutionResult.terminal (result : AsyncExecutionResult) : Bool :=
  result.providerTerminal || result.status = .filled

namespace LiveIntentRecord

/-- What `_persist_readback` makes of an intent. -/
def readBack (r : LiveIntentRecord) (result : AsyncExecutionResult) : LiveIntentRecord :=
  { r with
    state := result.status.intentState
    filledQty := result.filledQty
    avgPrice := result.avgPrice
    fee := result.fee
    providerTerminal := result.terminal
    providerOrderId := textOr result.providerOrderId r.providerOrderId
    providerFillIds := result.providerFillIds
    providerFills := result.providerFills }

/-- An entry refused before it was sent. -/
def refused (r : LiveIntentRecord) : LiveIntentRecord :=
  { r with state := .rejected, providerTerminal := true }

/-- A limit child that is not to be sent any more. -/
def retired (r : LiveIntentRecord) : LiveIntentRecord :=
  { r with state := .cancelled, providerTerminal := true }

def ambiguous (r : LiveIntentRecord) : LiveIntentRecord := { r with state := .unknown }

end LiveIntentRecord

/-- A record as an exception or a result leaves it. -/
abbrev Guarded (α : Type) := LiveIntentRecord × Except ExecutionError α

/-- Continue with the answer, or stop with the exception and the record as it is. -/
def guarding {α β : Type} (intent : LiveIntentRecord) (p : EntryProg α)
    (k : α → EntryProg (Guarded β)) : EntryProg (Guarded β) := do
  match ← attempt p with
  | .ok a => k a
  | .error e => pure (intent, .error e)

/-- `_persist_readback`. -/
def persistReadback (intent : LiveIntentRecord) (result : AsyncExecutionResult) :
    EntryProg LiveIntentRecord := do
  if result.clientOid ≠ intent.clientOid then
    raise (.invalid "Bitget readback client OID does not match durable intent")
  else if result.filledQty < intent.filledQty then
    raise (.invalid "Bitget readback quantity regression or non-finite quantity")
  else do
    ask (.update (intent.readBack result))
    pure (intent.readBack result)

/-- `reconcile_intent`. -/
def readIntent (intent : LiveIntentRecord) (submitted : Option Submitted) :
    EntryProg AsyncExecutionResult := do
  let reading ← ask (.readOrder intent.symbol intent.clientOid)
  match reconcileIntent intent submitted reading with
  | .ok result => pure result
  | .error e => raise (.read e)

/-- `_resolve_reservation`. -/
def resolveReservation (intent : LiveIntentRecord) (outcome : Outcome) : EntryProg Unit :=
  match intent.marginReservationId with
  | none => pure ()
  | some id => ask (.resolve id outcome)

/-- `release_reservation`. -/
def releaseReservation (submission : BitgetEntrySubmission) : EntryProg Unit :=
  ask (.resolve submission.marginReservationId .rejected)

/-- `_reconcile_post_fill` : an entry that is not one leg of a split. -/
def reconcilePostFill (intent : LiveIntentRecord) (result : AsyncExecutionResult) :
    EntryProg Unit :=
  if result.executed && intent.role = .entry && intent.entryLeg.isNone &&
      intent.plannedLeverage.isSome && intent.plannedMarginUsdt.isSome then
    ask (.reconcilePostFill intent.clientOid)
  else pure ()

/-- `_read_recovery_protection`. -/
def readRecoveryProtection (intent : LiveIntentRecord) (quantity : ℚ) :
    EntryProg AsyncProtectionResult := do
  if intent.plannedStopLoss.isNone || intent.plannedTakeProfits.isNone then
    pure ⟨false, quantity, some "recovery-validated-plan-missing"⟩
  else match ← attempt (ask (.readRecoveryProtection intent.clientOid quantity)) with
    | .ok protection => pure protection
    | .error _ => pure ⟨false, quantity, some "recovery-read-error"⟩

def AsyncProtectionResult.proves (p : AsyncProtectionResult) (quantity : ℚ) : Bool :=
  p.venueProtected && p.observedQuantity = quantity

/-- `_unprotected_status`. -/
def unprotectedStatus (status : LiveOrderStatus) (reason : Option String) : String :=
  let managed := reason.any fun r => "-locally-managed".toList.isSuffixOf r.toList
  if status = .partiallyFilled then
    if managed then "PARTIAL_LOCALLY_MANAGED" else "PARTIAL_UNPROTECTED"
  else if managed then "FILLED_LOCALLY_MANAGED" else "FILLED_UNPROTECTED"

/-! ## Split entries -/

/-- The two rows are the legs of one split entry. -/
def splitOwned (root limit : LiveIntentRecord) : Bool :=
  root.entryLeg = some .market && limit.entryLeg = some .limit && root.dispatchId.isSome &&
    root.dispatchId = limit.dispatchId && limit.clientOid = limitOid root.clientOid &&
    limit.symbol = root.symbol && limit.side = root.side &&
    limit.marginReservationId = root.marginReservationId &&
    limit.plannedStopLoss = root.plannedStopLoss &&
    limit.plannedTakeProfits = root.plannedTakeProfits && root.orderType = .market &&
    limit.orderType = .limit && root.requestedQty * 3 = limit.requestedQty &&
    decide (0 ≤ root.filledQty) && decide (root.filledQty ≤ root.requestedQty) &&
    decide (0 ≤ limit.filledQty) && decide (limit.filledQty ≤ limit.requestedQty)

/-- The average price of the legs that filled, when each has one. -/
def splitAverage (root limit : LiveIntentRecord) : Option ℚ :=
  let quantity := root.filledQty + limit.filledQty
  let priced := [root, limit].filter fun leg => decide (0 < leg.filledQty)
  if 0 < quantity ∧ priced.all (fun leg => leg.avgPrice.isSome) then
    some ((priced.map fun leg => leg.filledQty * leg.avgPrice.getD 0).sum / quantity)
  else none

/-- `_aggregate_split` : a record under the client order id of the root, with the sum of the
legs. -/
def aggregateSplit (root limit : LiveIntentRecord) : Option LiveIntentRecord :=
  if splitOwned root limit then
    let quantity := root.filledQty + limit.filledQty
    let requested := root.requestedQty + limit.requestedQty
    some
      { root with
        requestedQty := requested
        filledQty := quantity
        avgPrice := splitAverage root limit
        fee := root.fee + limit.fee
        entryLeg := none
        state :=
          if quantity = requested then .filled
          else if 0 < quantity then .partiallyFilled
          else if root.state = .unknown ∨ limit.state = .unknown then .unknown
          else .acknowledged
        providerFillIds := (root.providerFillIds ++ limit.providerFillIds).eraseDups }
  else none

/-- `_aggregate_result`. -/
def aggregateResult (intent : LiveIntentRecord) : AsyncExecutionResult where
  clientOid := intent.clientOid
  status :=
    if intent.filledQty = intent.requestedQty then .filled
    else if 0 < intent.filledQty then .partiallyFilled
    else if intent.state = .unknown then .unknown
    else .accepted
  filledQty := intent.filledQty
  avgPrice := intent.avgPrice
  fee := intent.fee
  providerOrderId := intent.providerOrderId
  providerFillIds := []
  providerFills := []
  providerTerminal := false

/-- A value the source computes, or its `ValueError`. -/
def required {α : Type} (text : String) : Option α → EntryProg α
  | some a => pure a
  | none => raise (.invalid text)

def requireSplit (root limit : LiveIntentRecord) : EntryProg LiveIntentRecord :=
  required "split durable ownership mismatch" (aggregateSplit root limit)

/-- `_reconcile_waiting_leg`, with the limit child as it leaves it. -/
def reconcileWaitingLeg (root limit : LiveIntentRecord) : EntryProg LiveIntentRecord := do
  let _ ← requireSplit root limit
  if limit.state = .staged then do
    ask (.update limit.retired)
    pure limit.retired
  else if limit.providerTerminal then pure limit
  else do
    let result ← readIntent limit none
    persistReadback limit result

/-! ## The last check before an order is sent -/

namespace BitgetDispatchExecution

variable (x : BitgetDispatchExecution)

/-- Unresolved protection issues, or a recovery that is not ready. -/
def admissionBlocked : EntryProg Bool := do
  let issues ← ask .unresolvedProtectionIssues
  if issues.isEmpty then do
    let ready ← ask .recoveryReady
    pure !ready
  else pure true

/-- `_final_entry_veto_before_claim`. -/
def finalEntryVetoBeforeClaim (d : BitgetDispatch) : EntryProg (Option String) := do
  if ← admissionBlocked then pure (some "REJECTED")
  else do
    let eligible ← ask (.entrySourceEligible d.id)
    pure (if eligible then none else some "EXPIRED")

/-- The scopes of the kill switches an entry is checked against. -/
def killed : EntryProg Bool := do
  if x.killSwitchEnforced then do
    let global ← ask (.killSwitchActive "global")
    let bitget ← ask (.killSwitchActive "bitget")
    let stream ← ask (.killSwitchActive "bitget-protection-stream")
    pure (global || bitget || stream)
  else pure false

/-- Persist the refused intent, do what follows, and give the veto. -/
def veto (intent : LiveIntentRecord) (sequel : EntryProg Unit) (outcome : String) :
    EntryProg (Guarded (Option String)) := do
  match ← attempt (ask (.update intent) >>= fun _ => sequel) with
  | .ok _ => pure (intent, .ok (some outcome))
  | .error e => pure (intent, .error e)

/-- `_final_entry_veto` after the check of a limit child. -/
def admissionVeto (d : BitgetDispatch) (intent : LiveIntentRecord) :
    EntryProg (Guarded (Option String)) :=
  guarding intent admissionBlocked fun blocked =>
    if blocked then
      veto intent.refused (resolveReservation intent .rejected) "REJECTED"
    else guarding intent (ask (.entrySourceEligible d.id)) fun eligible =>
      if eligible then
        guarding intent x.killed fun killed =>
          if killed then veto intent.refused (resolveReservation intent .rejected) "REJECTED"
          else pure (intent, .ok none)
      else
        veto intent.refused (ask (.entrySourceEligible d.id) >>= fun _ => pure ()) "EXPIRED"

/-- `_final_entry_veto` : none lets the order be sent. -/
def finalEntryVeto (d : BitgetDispatch) (intent : LiveIntentRecord) :
    EntryProg (Guarded (Option String)) :=
  if intent.entryLeg = some .limit then
    guarding intent (ask (.currentEntry intent.clientOid)) fun current =>
      match current with
      | none => pure (intent, .ok (some "REJECTED"))
      | some current =>
        if current.cancelRequestedBy.isSome || current.providerTerminal then
          veto intent.retired (pure ()) "REJECTED"
        else x.admissionVeto d intent
  else x.admissionVeto d intent

/-! ## Sending -/

/-- The result of a guarded submission, or the veto it raised. -/
inductive Sent
  | vetoed (outcome : String)
  | result (result : AsyncExecutionResult)

/-- The admission evidence `_submit_entry` asks for. -/
def isolatedEvidence (intent : LiveIntentRecord) : Bool :=
  intent.marginMode = some .isolated && intent.plannedMarginUsdt.isSome &&
    intent.balanceSnapshotId.isSome && intent.marginReservationId.isSome

def entryOrder (intent : LiveIntentRecord) : EntryOrder where
  symbol := intent.symbol
  side := intent.side
  quantity := intent.requestedQty
  clientOid := intent.clientOid
  orderType := intent.orderType
  price := if intent.orderType = .limit then intent.limitPrice else none

/-- The one request that sends the order, and its readback. -/
def postEntry (intent : LiveIntentRecord) : EntryProg AsyncExecutionResult := do
  match ← attempt (ask (.placeEntryOrder (entryOrder intent))) with
  | .ok submitted => do
    let result ← readIntent intent (some submitted)
    reconcilePostFill intent result
    pure result
  | .error .unknownResult => do
    let result ← readIntent intent none
    reconcilePostFill intent result
    pure result
  | .error e => raise e

/-- What `_submit_entry` does before the last check. -/
def prepareEntry (intent : LiveIntentRecord) : EntryProg Unit := do
  if ← ask .degraded then
    raise (.runtime "Bitget execution is degraded; additional dispatches are blocked")
  else match intent.plannedLeverage with
    | none => raise (.invalid "Bitget entry lacks durable isolated-margin admission evidence")
    | some leverage =>
      if isolatedEvidence intent then ask (.ensureLeverage intent.symbol leverage)
      else raise (.invalid "Bitget entry lacks durable isolated-margin admission evidence")

/-- `_submit_guarded`. -/
def submitGuarded (d : BitgetDispatch) (intent : LiveIntentRecord) :
    EntryProg (Guarded Sent) :=
  guarding intent (prepareEntry intent) fun _ => do
    let (intent, verdict) ← x.finalEntryVeto d intent
    match verdict with
    | .error e => pure (intent, .error e)
    | .ok (some outcome) => pure (intent, .ok (.vetoed outcome))
    | .ok none =>
      guarding intent (postEntry intent) (fun result => pure (intent, .ok (.result result)))

/-! ## Split entries -/

/-- How the part of a split entry after the root ends. -/
inductive SplitEnd
  | status (status : String)
  | limitVetoed (root : LiveIntentRecord) (outcome : String)

/-- Both legs are persisted : resolve the reservation and prove the protection. -/
def splitSettled (root limit : LiveIntentRecord) : EntryProg SplitEnd := do
  let aggregate ← requireSplit root limit
  resolveReservation root .filled
  reconcilePostFill aggregate (aggregateResult aggregate)
  if 0 < limit.filledQty then do
    let proof ← readRecoveryProtection aggregate aggregate.filledQty
    if proof.proves aggregate.filledQty then
      pure (.status (dispatcherStatus (aggregateResult aggregate).status).text)
    else pure (.status "PARTIAL_UNPROTECTED")
  else pure (.status (dispatcherStatus (aggregateResult aggregate).status).text)

/-- The limit child, once the root has filled and is protected. -/
def submitLimit (d : BitgetDispatch) (root limit : LiveIntentRecord) : EntryProg SplitEnd := do
  let won ← ask (.claimEntryPost limit.clientOid)
  let fetched ← ask (.get limit.clientOid)
  let limit ← required "limit child disappeared" fetched
  if won then do
    let (limit, sent) ← x.submitGuarded d limit
    match sent with
    | .error e => raise e
    | .ok (.vetoed outcome) => pure (.limitVetoed root outcome)
    | .ok (.result result) => do
      let limit ← persistReadback limit result
      splitSettled root limit
  else splitSettled root limit

/-- The sequel of a split entry whose root was sent. -/
def afterRoot (d : BitgetDispatch) (root limit : LiveIntentRecord)
    (result : AsyncExecutionResult) : EntryProg SplitEnd := do
  let root ← persistReadback root result
  if result.filledQty ≤ 0 then do
    ask (.update limit.retired)
    resolveReservation root (dispatcherStatus result.status)
    pure (.status (dispatcherStatus result.status).text)
  else do
    let protection ← ask (.protectFilledPosition root.clientOid root.filledQty)
    if protection.proves root.filledQty && result.status = .filled then
      x.submitLimit d root limit
    else do
      ask (.update limit.retired)
      resolveReservation root .filled
      pure (.status (if protection.proves root.filledQty then "PARTIAL"
        else unprotectedStatus .partiallyFilled protection.reason))

/-- The handler of a veto in a split entry. -/
def splitVetoed (limitOid : String) (root : LiveIntentRecord) (outcome : String) :
    EntryProg String := do
  let current ← ask (.get limitOid)
  match current with
  | some current =>
    if current.state = .staged then do
      ask (.update current.retired)
      pure (if 0 < root.filledQty then "PARTIAL" else outcome)
    else pure (if 0 < root.filledQty then "PARTIAL" else outcome)
  | none => pure (if 0 < root.filledQty then "PARTIAL" else outcome)

/-- The handler of every other exception in a split entry. -/
def splitAmbiguous (root : LiveIntentRecord) (e : ExecutionError) : EntryProg String := do
  resolveReservation root .unknown
  raise e

/-- The call that won the claim of both legs. -/
def splitWinner (d : BitgetDispatch) (root limit : LiveIntentRecord) : EntryProg String := do
  let (root, sent) ← x.submitGuarded d root
  match sent with
  | .error e => splitAmbiguous root e
  | .ok (.vetoed outcome) => splitVetoed limit.clientOid root outcome
  | .ok (.result result) =>
    match ← attempt (x.afterRoot d root limit result) with
    | .ok (.status status) => pure status
    | .ok (.limitVetoed root outcome) => splitVetoed limit.clientOid root outcome
    | .error e => splitAmbiguous root e

/-- A call that lost the claim only reads. -/
def splitReplay (rootOid : String) : EntryProg String := do
  let rootExisting ← ask (.get rootOid)
  let limitExisting ← ask (.get (limitOid rootOid))
  let root ← required "split replay lacks durable legs" rootExisting
  let limit ← required "split replay lacks durable legs" limitExisting
  let result ← readIntent root none
  let root ← persistReadback root result
  let limit ← reconcileWaitingLeg root limit
  let aggregate ← requireSplit root limit
  if 0 < aggregate.filledQty then do
    let protection ← readRecoveryProtection aggregate aggregate.filledQty
    if protection.proves aggregate.filledQty then
      pure (dispatcherStatus (aggregateResult aggregate).status).text
    else pure "PARTIAL_UNPROTECTED"
  else pure (dispatcherStatus (aggregateResult aggregate).status).text

/-- `_submit_split`. -/
def submitSplit (d : BitgetDispatch) (submission : BitgetEntrySubmission) (route : EntryRoute) :
    EntryProg String := do
  if route.marketQuantity ≤ 0 ∨ route.limitQuantity ≠ route.marketQuantity * 3 then
    raise (.invalid "split requires exact 25/75 quantities")
  else if route.marketQuantity + route.limitQuantity ≠ submission.quantity then
    raise (.invalid "split exceeds admitted quantity")
  else do
    let existing ← ask (.get (x.clientOid d))
    let vetoed ← if existing.isNone then finalEntryVetoBeforeClaim d else pure none
    match vetoed with
    | some outcome => do
      releaseReservation submission
      pure outcome
    | none => do
      let root := x.splitRoot d submission route
      let limit := x.splitLimit d submission route
      if ← ask (.claimSplit root limit) then x.splitWinner d root limit
      else splitReplay (x.clientOid d)

/-! ## Single entries -/

/-- The handler of an exception around the submission of a single entry. -/
def singleAmbiguous (intent : LiveIntentRecord) (e : ExecutionError) : EntryProg String := do
  let _ ← attempt (ask (.update intent.ambiguous) >>= fun _ =>
    resolveReservation intent .unknown)
  raise e

/-- The status of a single entry : an executed one is protected by the call that claimed it,
and looked up by another. -/
def singleStatus (intent : LiveIntentRecord) (result : AsyncExecutionResult) (claimed : Bool) :
    EntryProg String := do
  if result.executed then
    match ← attempt
      (if claimed then ask (.protectFilledPosition intent.clientOid result.filledQty)
        else readRecoveryProtection intent intent.filledQty) with
    | .error _ =>
      pure (if result.status = .partiallyFilled then "PARTIAL_UNPROTECTED"
        else "FILLED_UNPROTECTED")
    | .ok protection =>
      if protection.proves result.filledQty then pure (dispatcherStatus result.status).text
      else pure (unprotectedStatus result.status protection.reason)
  else pure (dispatcherStatus result.status).text

/-- The sequel of a single entry that was sent, or read back by a call that lost. -/
def singleSettled (intent : LiveIntentRecord) (result : AsyncExecutionResult) (claimed : Bool) :
    EntryProg String := do
  let intent ← persistReadback intent result
  reconcilePostFill intent result
  resolveReservation intent (dispatcherStatus result.status)
  singleStatus intent result claimed

/-- The call that won the claim of a single entry. -/
def singleWinner (d : BitgetDispatch) (intent : LiveIntentRecord) : EntryProg String := do
  let (intent, verdict) ← x.finalEntryVeto d intent
  match verdict with
  | .error e => singleAmbiguous intent e
  | .ok (some outcome) => pure outcome
  | .ok none => do
    let (intent, sent) ← x.submitGuarded d intent
    match sent with
    | .error e => singleAmbiguous intent e
    | .ok (.vetoed outcome) => pure outcome
    | .ok (.result result) => singleSettled intent result true

/-- A call that lost the claim of a single entry only reads. -/
def singleReplay (intent : LiveIntentRecord) : EntryProg String := do
  match ← attempt (ask (.get intent.clientOid)) with
  | .error e => singleAmbiguous intent e
  | .ok none =>
    singleAmbiguous intent (.runtime "entry intent claim lost without a durable record")
  | .ok (some existing) =>
    match ← attempt (readIntent existing none) with
    | .error e => singleAmbiguous existing e
    | .ok result => singleSettled existing result false

/-- The claim of a single entry. -/
def claimSingle (d : BitgetDispatch) (intent : LiveIntentRecord) : EntryProg String := do
  match ← attempt (ask (.claim intent)) with
  | .ok true => x.singleWinner d intent
  | .ok false => singleReplay intent
  | .error e => singleAmbiguous intent e

/-- A single entry without a durable record is claimed while its source is eligible. -/
def enterSingle (d : BitgetDispatch) (intent : LiveIntentRecord) : EntryProg String := do
  let existing ← ask (.get intent.clientOid)
  let eligible ← if existing.isNone then ask (.entrySourceEligible d.id) else pure true
  if eligible then x.claimSingle d intent else pure "EXPIRED"

/-- `submit_entry` of an entry that is not split. -/
def submitSingle (d : BitgetDispatch) (submission : BitgetEntrySubmission) :
    EntryProg String := do
  let intent := x.intent d submission
  let existing ← ask (.get intent.clientOid)
  let blocked ← if existing.isNone then admissionBlocked else pure false
  if blocked then pure "REJECTED" else x.enterSingle d intent

/-- The submission of a replay of a split entry is the durable one. -/
def replayedSubmission (submission : BitgetEntrySubmission) (root child : LiveIntentRecord) :
    Option BitgetEntrySubmission :=
  if h : 0 < root.requestedQty + child.requestedQty then
    some
      { submission with
        quantity := root.requestedQty + child.requestedQty
        entryRoute := some ⟨root.requestedQty, child.requestedQty, child.limitPrice⟩
        quantity_pos := h }
  else none

/-- `submit_entry`. -/
def submitEntry (d : BitgetDispatch) (submission : BitgetEntrySubmission) :
    EntryProg String := do
  let existing ← ask (.get (x.clientOid d))
  let submission ← match existing with
    | none => pure submission
    | some root =>
      if root.entryLeg = some .market then do
        let child ← ask (.get (limitOid root.clientOid))
        let child ← required "split replay lacks durable limit child" child
        required "quantity must be a finite positive Decimal"
          (replayedSubmission submission root child)
      else pure submission
  match submission.splitRoute with
  | some route => x.submitSplit d submission route
  | none => x.submitSingle d submission

end BitgetDispatchExecution

end FattyTrader
