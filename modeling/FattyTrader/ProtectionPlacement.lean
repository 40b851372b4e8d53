import FattyTrader.EntryDispatch
import FattyTrader.ExactProtection
import FattyTrader.PositionReaders

/-!
# Placing native protection

`protect_filled_position` gives a filled entry its native stop and target. It claims the two legs
durably before it places the plan, places it up to three times inside the claim, and takes the
verdict only from what it reads back (`protectFilledPosition`). What is not confirmed is read again
for a while, and is then managed locally, escalated, or, where the operator has opted in, closed.

The program is a `Prog` over the operations of the store, the venue and the adapter, so that any of
them may raise or may be the last of a call that dies. The last operation of a call delivers its
verdict to the dispatcher.
-/

set_option linter.unusedSectionVars false

open Programs Prog
open FattyTrader.JsonValues FattyTrader.NativeProtection FattyTrader.PositionReaders

namespace FattyTrader.Placement

/-! ## Plans and verdicts -/

/-- What a readback of the protection reports. -/
abbrev NativeReport := NativeProtection.ProtectionReport

/-- `ProtectionPlan`, with the checks of `__post_init__`. -/
structure ProtectionPlan where
  symbol : String
  direction : Direction
  quantity : ℚ
  stopLoss : ℚ
  takeProfits : List ℚ
  quantity_pos : 0 < quantity
  stopLoss_pos : 0 < stopLoss
  symbol_ne : symbol ≠ ""

/-- An exception of the store or the venue. -/
structure PlacementError where
  /-- It is a `BitgetApiError`. -/
  apiError : Bool
  /-- It is a `BitgetUnknownResultError` or a `TimeoutError`. -/
  unknownResult : Bool
  code : Option String
  text : String
  typeName : String
deriving DecidableEq

/-- The reason of a verdict. -/
inductive Reason
  | report (reason : Option String)
  | noFilledQuantity
  | afterGrace (reason : Option String) (attempts : ℕ)
  | fallbackMutationsDisabled
  | entryPriceUnavailable
  | registrationFailed
  | registeredNotEnforcing
  | parameterRejected
  | locallyManaged (base : String)
  | unmanagedMutationsDisabled (base : String)
  | unmanagedEntryPrice (base : String)
  | unmanagedRegistration (base typeName : String)
  | positionReadFailed
  | positionReadInvalid
  | positionAlreadyFlat
  | closeQuantityInvalid
deriving DecidableEq

/-- The text of the reason. -/
def Reason.text : Reason → Option String
  | report reason => reason
  | noFilledQuantity => some "no-filled-quantity"
  | afterGrace reason attempts =>
    some (reason.getD "None" ++ "-after-grace:" ++ toString attempts)
  | fallbackMutationsDisabled => some "fallback-monitor-mutations-disabled"
  | entryPriceUnavailable => some "fallback-entry-price-unavailable"
  | registrationFailed => some "fallback-registration-failed"
  | registeredNotEnforcing =>
    some "native-protection-unsupported-fallback-registered-not-enforcing"
  | parameterRejected => some "native-protection-parameter-rejected"
  | locallyManaged base => some (base ++ "-locally-managed")
  | unmanagedMutationsDisabled base => some (base ++ ":fallback-monitor-mutations-disabled")
  | unmanagedEntryPrice base => some (base ++ ":fallback-entry-price-unavailable")
  | unmanagedRegistration base typeName =>
    some (base ++ ":fallback-registration-failed:" ++ typeName)
  | positionReadFailed => some "position-read-failed"
  | positionReadInvalid => some "position-read-invalid"
  | positionAlreadyFlat => some "position-already-flat"
  | closeQuantityInvalid => some "close-quantity-invalid"

/-- `AsyncProtectionResult`. -/
structure Verdict where
  state : ProtectionState
  observedQuantity : ℚ
  reason : Reason
  closeClientOid : Option String := none
deriving DecidableEq

/-! ## Operations -/

/-- The parameters of `place_position_tpsl`. -/
structure TpslOrder where
  symbol : String
  holdSide : String
  quantity : ℚ
  stopLoss : ℚ
  takeProfit : Option ℚ
  stopLossClientOid : String
  takeProfitClientOid : Option String
deriving DecidableEq

/-- The reduce-only order of `place_market_close`. -/
structure CloseOrder where
  symbol : String
  side : Side
  quantity : ℚ
  clientOid : String
deriving DecidableEq

/-- A row of the fallback monitor. -/
structure FallbackRegistration where
  epoch : String
  environment : Environment
  symbol : String
  direction : Direction
  entryPrice : ℚ
  stopLoss : ℚ
  takeProfits : List ℚ
  quantity : ℚ
  positionKey : String

inductive NativeState
  | verified
  | unsupported
  | failed
deriving DecidableEq

inductive PlacementOp
  | claimProtection (legs : List LiveIntentRecord)
  | placePositionTpsl (order : TpslOrder)
  /-- The leg is acknowledged, with the id of its plan. -/
  | acknowledgeLeg (clientOid providerOrderId : String)
  /-- The two reads of `confirm_native_protection`. -/
  | readProtection (symbol : String)
  | readPosition (symbol : String)
  | readFills (symbol : String)
  | getIntent (clientOid : String)
  /-- The plan ids of the stop and the target. -/
  | protectionIntents (rootOid : String)
  /-- The loop of the grace is still in its budget, after its sleep. -/
  | withinGrace
  | persistCapability (symbol : String) (nativeState : NativeState) (lastError : Option String)
      (fallbackAllowed : Option Bool)
  | registerFallback (row : FallbackRegistration)
  | claimClose (order : CloseOrder)
  | placeMarketClose (order : CloseOrder)
  | updateClose (clientOid : String) (state : IntentState) (providerOrderId : Option String)
  /-- `reconcile_intent` of the close, and the write of what it read. -/
  | reconcileClose (clientOid : String)
  /-- `self._degraded = True`. -/
  | degrade
  /-- The verdict is returned to the dispatcher. -/
  | deliver (verdict : Verdict)

abbrev PlacementAns : PlacementOp → Type
  | .claimProtection _ => Bool
  | .placePositionTpsl _ => Json
  | .acknowledgeLeg _ _ => Unit
  | .readProtection _ => Read × Read
  | .readPosition _ => Json
  | .readFills _ => Json
  | .getIntent _ => Option LiveIntentRecord
  | .protectionIntents _ => Option String × Option String
  | .withinGrace => Bool
  | .persistCapability _ _ _ _ => Unit
  | .registerFallback _ => Unit
  | .claimClose _ => Bool
  | .placeMarketClose _ => Option String
  | .updateClose _ _ _ => Unit
  | .reconcileClose _ => Unit
  | .degrade => Unit
  | .deliver _ => Unit

abbrev PlacementProg (α : Type) := Prog PlacementOp PlacementAns PlacementError α
abbrev PlacementEvent := Event PlacementOp PlacementAns PlacementError

/-- Perform one operation of a placement. -/
abbrev ask (o : PlacementOp) : PlacementProg (PlacementAns o) := perform o

/-- `_degraded`, the switches of the adapter, and the rounds its grace has room for. -/
structure AsyncBitgetExecution where
  environment : Environment
  clientEnvironment : Option Environment
  fallbackProtectionEnabled : Bool
  emergencyContainmentEnabled : Bool
  /-- Zero without a budget. Every round sleeps for the interval, so no more rounds fit. -/
  graceRounds : ℕ

/-! ## Texts -/

variable (P : Texts)

def contains (text part : String) : Bool := part.toList <:+: text.toList

namespace PlacementError

variable (e : PlacementError)

def named (typeName text : String) : PlacementError := ⟨false, false, none, text, typeName⟩

def valueError (text : String) : PlacementError := named "ValueError" text

/-- A `BitgetApiError` without a code. -/
def bitgetApiError (text : String) : PlacementError := ⟨true, false, none, text, "BitgetApiError"⟩

/-- A parameter rejection, which is not placed again. -/
def isParameterRejection : Bool :=
  e.apiError && (e.code = some "43011" || contains e.text "43011")

/-- The symbol does not support native protection. -/
def isUnsupported : Bool :=
  e.apiError && contains e.text "43011" &&
    (contains (P.lower e.text) "symbol does not support" ||
      contains (P.lower e.text) "symbol is not supported")

end PlacementError

namespace ProtectionPlan

variable (plan : ProtectionPlan)

def takeProfit : Option ℚ := plan.takeProfits.head?

/-- `hold_side`. -/
def holdSide : String := if plan.direction = .long then "buy" else "sell"

end ProtectionPlan

/-- The client order ids of the legs. -/
def stopLossOid (rootOid : String) : String := rootOid ++ "-sl"

def takeProfitOid (rootOid : String) : String := rootOid ++ "-tp"

def emergencyOid (rootOid : String) : String := rootOid ++ "-emergency"

def exitSide (side : Side) : Side := if side = .buy then .sell else .buy

section Program

variable (x : AsyncBitgetExecution) (intent : LiveIntentRecord) (plan : ProtectionPlan)

/-- The intent of a leg. -/
def protectionIntent (clientOid : String) (role : Role) : LiveIntentRecord where
  clientOid := clientOid
  symbol := plan.symbol
  side := exitSide intent.side
  role := role
  requestedQty := intent.filledQty
  plannedStopLoss := some plan.stopLoss
  plannedTakeProfits := some plan.takeProfits
  protectionRootOid := some intent.clientOid

/-- The legs that are claimed. -/
def protectionLegs : List LiveIntentRecord :=
  protectionIntent intent plan (stopLossOid intent.clientOid) .stopLoss ::
    plan.takeProfit.toList.map fun _ =>
      protectionIntent intent plan (takeProfitOid intent.clientOid) .takeProfit

def tpslOrder : TpslOrder where
  symbol := plan.symbol
  holdSide := plan.holdSide
  quantity := intent.filledQty
  stopLoss := plan.stopLoss
  takeProfit := plan.takeProfit
  stopLossClientOid := stopLossOid intent.clientOid
  takeProfitClientOid := plan.takeProfit.map fun _ => takeProfitOid intent.clientOid

/-- `NativeProtectionExpectation` of the plan, `none` where `__post_init__` raises. -/
def expectation (stopLossId takeProfitId : Option String) :
    Option (NativeProtectionExpectation P) :=
  if h : P.strip plan.symbol ≠ "" ∧
      P.lower (P.strip plan.holdSide) ∈ ["long", "short", "buy", "sell"] ∧ 0 < intent.filledQty ∧
      ∀ q ∈ plan.takeProfit, 0 < q then
    some
      { symbol := plan.symbol
        holdSide := plan.holdSide
        quantity := intent.filledQty
        stopLoss := some plan.stopLoss
        takeProfit := plan.takeProfit
        stopLossClientOid := some (stopLossOid intent.clientOid)
        takeProfitClientOid := plan.takeProfit.map fun _ => takeProfitOid intent.clientOid
        stopLossProviderOrderId := stopLossId
        takeProfitProviderOrderId := takeProfitId
        symbol_ne := h.1
        holdSide_valid := h.2.1
        quantity_pos := h.2.2.1
        legs := Or.inl (by simp)
        positive := by
          intro value hvalue q hq
          simp only [List.mem_cons, List.not_mem_nil, or_false] at hvalue
          rcases hvalue with rfl | rfl | rfl | rfl
          · exact Option.some.inj hq ▸ plan.stopLoss_pos
          · exact h.2.2.2 q hq
          · cases hq
          · cases hq
        stopLossSize_le := by simp
        takeProfitSize_le := by simp }
  else none

/-- Build the expectation, and confirm the protection by the two reads. -/
def confirm (stopLossId takeProfitId : Option String) : PlacementProg NativeReport :=
  match expectation P intent plan stopLossId takeProfitId with
  | none => raise (.valueError "native protection expectation is invalid")
  | some e => do
    let reads ← ask (.readProtection plan.symbol)
    pure (confirmExactNativeProtection e reads.1 reads.2)

/-! ## The placement -/

/-- `_placement_plan_id`. -/
def placementPlanId (placement : List Fields) (clientOid : String) (leg : Leg) : Option String :=
  placement.findSome? fun row =>
    let returnedOid := firstOf row [leg.field ++ "ClientOid", "clientOid"] .null
    let providerId := firstOf row ["orderId", "planOrderId"] .null
    if !returnedOid.isNull && P.text returnedOid = clientOid && !providerId.isNull &&
        P.strip (P.text providerId) ≠ "" then
      some (P.strip (P.text providerId))
    else none

/-- `_place_protection_with_retry`, with the attempts that are left. -/
def placeWithRetry (order : TpslOrder) : ℕ → PlacementProg Json
  | 0 => raise (.valueError "no attempt")
  | attempts + 1 => do
    match ← attempt (ask (.placePositionTpsl order)) with
    | .ok placement => pure placement
    | .error e =>
      if e.isParameterRejection || attempts = 0 then raise e else placeWithRetry order attempts

/-- The plan ids of the legs, where the answer to the placement has all of them. -/
def planIds (placement : Json) : Except PlacementError (String × Option String) :=
  match planRows placement with
  | none => .error (.bitgetApiError "Bitget protection placement response is invalid")
  | some rows =>
    match placementPlanId P rows (stopLossOid intent.clientOid) .stopLoss,
      plan.takeProfit.map fun _ =>
        placementPlanId P rows (takeProfitOid intent.clientOid) .stopSurplus with
    | some stopLossId, none => .ok (stopLossId, none)
    | some stopLossId, some (some takeProfitId) => .ok (stopLossId, some takeProfitId)
    | _, _ => .error (.bitgetApiError "Bitget protection placement IDs are incomplete")

/-- The first reading of a placement, or the one of a claim that was lost. -/
inductive Placed
  | replayed (report : NativeReport)
  | placed (report : NativeReport)

/-- The body of the `try` of `protect_filled_position`. -/
def place : PlacementProg Placed := do
  let won ← ask (.claimProtection (protectionLegs intent plan))
  if won then do
    let placement ← placeWithRetry (tpslOrder intent plan) 3
    match planIds P intent plan placement with
    | .error e => raise e
    | .ok (stopLossId, takeProfitId) => do
      ask (.acknowledgeLeg (stopLossOid intent.clientOid) stopLossId)
      match takeProfitId with
      | none => pure ()
      | some id => ask (.acknowledgeLeg (takeProfitOid intent.clientOid) id)
      let report ← confirm P intent plan (some stopLossId) takeProfitId
      pure (.placed report)
  else do
    -- a claim that exists authorizes no second placement
    let report ← confirm P intent plan none none
    pure (.replayed report)

/-! ## Local management -/

/-- `[1-9][0-9]*`. -/
def canonicalTime (v : Json) : Option ℕ :=
  match v with
  | .str s =>
    match s.toList with
    | c :: cs =>
      if ('1' ≤ c && c ≤ '9') && cs.all Char.isDigit then some (Nat.ofDigitChars 10 (c :: cs) 0)
      else none
    | [] => none
  | _ => none

/-- A trade id as a key of a set : a text or a number. -/
def tradeKey : Json → Option (Bool × String)
  | .str s => some (true, s)
  | .number t => some (false, t)
  | _ => none

/-- An opening fill of the entry. -/
def ownedFill (fill : Fields) : Bool :=
  (valueOf fill "symbol").isText intent.symbol &&
    ((valueOf fill "clientOid").isNull || (valueOf fill "clientOid").isText intent.clientOid) &&
    (valueOf fill "side").isText (if intent.side = .buy then "buy" else "sell") &&
    (valueOf fill "tradeSide").isText "open" && (valueOf fill "tradeId").truthy &&
    (tradeKey (valueOf fill "tradeId")).isSome &&
    (canonicalTime (valueOf fill "cTime")).isSome &&
    (P.finite (firstOf fill ["baseVolume"] (.number "0"))).any (0 < ·)

/-- The checks of `_fallback_identity` about the entry. -/
def entryProven (known : Option LiveIntentRecord) : Bool :=
  x.clientEnvironment = some x.environment && known = some intent && intent.role = .entry &&
    (intent.state = .filled || intent.state = .partiallyFilled) &&
    intent.providerOrderId.any (· ≠ "") && intent.symbol = plan.symbol &&
    intent.side = (if plan.direction = .long then .buy else .sell)

/-- The rows with their totals, where every total is a number. -/
def totals (rows : List Fields) : Option (List (Fields × ℚ)) :=
  rows.mapM fun row =>
    (P.finite (firstOf row ["total"] (.number "0"))).map fun total => (row, total)

/-- The one open position, with its canonical time. -/
def openPosition (rows : List Fields) : Option ℕ :=
  match (totals P rows).map fun rows => rows.filter fun row => 0 < row.2 with
  | some [(position, total)] =>
    if (valueOf position "symbol").isText intent.symbol &&
        (valueOf position "holdSide").isText (if plan.direction = .long then "long" else "short") &&
        total = intent.filledQty then
      canonicalTime (valueOf position "cTime")
    else none
  | _ => none

/-- The fills of the order of the entry. -/
def fillsOfOrder (fills : List Fields) : List Fields :=
  fills.filter fun fill => (valueOf fill "orderId").isText (intent.providerOrderId.getD "")

/-- The fills are the entry's own, distinct, opened the position, and make up its quantity. -/
def fillsProven (epoch : ℕ) (owned : List Fields) : Bool :=
  !owned.isEmpty && owned.all (ownedFill P intent) &&
    (owned.map fun fill => tradeKey (valueOf fill "tradeId")).Nodup &&
    (owned.filterMap fun fill => canonicalTime (valueOf fill "cTime")).min? = some epoch &&
    (owned.map fun fill => (P.finite (valueOf fill "baseVolume")).getD 0).sum = intent.filledQty

/-- The list of the fills. -/
def fillRows : Json → Option (List Fields)
  | .obj fields => planRows (valueOf fields "fillList")
  | v => planRows v

/-- `_fallback_identity` : the epoch of the position, once the entry is proven to own it. -/
def fallbackIdentity : PlacementProg ℕ := do
  let known ← ask (.getIntent intent.clientOid)
  if entryProven x intent plan known then do
    let position ← ask (.readPosition intent.symbol)
    match (planRows position).bind (openPosition P intent plan) with
    | none => raise (.valueError "fallback-position-identity-unproven")
    | some epoch => do
      let fills ← ask (.readFills intent.symbol)
      match fillRows fills with
      | none => raise (.valueError "fallback-fill-evidence-unavailable")
      | some rows =>
        if fillsProven P intent epoch (fillsOfOrder intent rows) then pure epoch
        else raise (.valueError "fallback-entry-position-epoch-mismatch")
  else raise (.valueError "fallback-entry-identity-unproven")

/-- The row that is registered. -/
def registration (epoch : ℕ) (entryPrice : ℚ) : FallbackRegistration where
  epoch := toString epoch
  environment := x.environment
  symbol := intent.symbol
  direction := plan.direction
  entryPrice := entryPrice
  stopLoss := plan.stopLoss
  takeProfits := plan.takeProfits
  quantity := intent.filledQty
  positionKey := intent.clientOid

/-- The identity and its registration. -/
def registerFallback (entryPrice : ℚ) : PlacementProg Unit := do
  let epoch ← fallbackIdentity P x intent plan
  ask (.registerFallback (registration x intent plan epoch entryPrice))

/-- `_unmanaged_verdict`. -/
def unmanagedVerdict (report : NativeReport) (reason : Reason) : PlacementProg Verdict := do
  ask (.persistCapability plan.symbol .failed reason.text none)
  ask .degrade
  pure ⟨.degraded, report.observedQuantity, reason, none⟩

def closeOrder (quantity : ℚ) : CloseOrder where
  symbol := intent.symbol
  side := exitSide intent.side
  quantity := quantity
  clientOid := emergencyOid intent.clientOid

/-- The emergency close, once its intent is claimed. -/
def placeClose (order : CloseOrder) : PlacementProg Unit := do
  match ← attempt (ask (.placeMarketClose order)) with
  | .error e =>
    if e.unknownResult then do
      ask (.updateClose order.clientOid .unknown none)
      let _ ← attempt (ask (.reconcileClose order.clientOid))
      pure ()
    else raise e
  | .ok providerOrderId => do
    ask (.updateClose order.clientOid .submitted providerOrderId)
    let _ ← attempt (ask (.reconcileClose order.clientOid))
    pure ()

/-- `_contain`. -/
def contain (report : NativeReport) : PlacementProg Verdict :=
  let verdict (reason : Reason) : Verdict := ⟨report.state, report.observedQuantity, reason, none⟩
  if report.reason = some "position-not-open" then pure (verdict (.report report.reason))
  else do
    match ← attempt (ask (.readPosition intent.symbol)) with
    | .error _ => pure (verdict .positionReadFailed)
    | .ok positions =>
      match openPositionQuantity P positions with
      | none => pure (verdict .positionReadInvalid)
      | some quantity =>
        if quantity ≤ 0 then pure ⟨report.state, 0, .positionAlreadyFlat, none⟩
        else if min intent.filledQty quantity ≤ 0 then pure (verdict .closeQuantityInvalid)
        else do
          let order := closeOrder intent (min intent.filledQty quantity)
          let won ← ask (.claimClose order)
          if won then placeClose order else pure ()
          pure { verdict (.report report.reason) with closeClientOid := some order.clientOid }

/-- `_contain_or_local_management`. -/
def containOrLocalManagement (report : NativeReport) : PlacementProg Verdict :=
  if x.emergencyContainmentEnabled then contain P intent report
  else
    let base := report.reason.getD "native-protection-unconfirmed"
    if x.fallbackProtectionEnabled = false then
      unmanagedVerdict plan report (.unmanagedMutationsDisabled base)
    else
      match intent.avgPrice.filter (0 < ·) with
      | none => unmanagedVerdict plan report (.unmanagedEntryPrice base)
      | some entryPrice => do
        match ← attempt (registerFallback P x intent plan entryPrice) with
        | .error e => unmanagedVerdict plan report (.unmanagedRegistration base e.typeName)
        | .ok _ => pure ⟨.degraded, report.observedQuantity, .locallyManaged base, none⟩

/-! ## The grace -/

def graceError (first : NativeReport) (e : PlacementError) : NativeReport :=
  ⟨.failed, first.observedQuantity, some ("grace-read-error:" ++ e.typeName)⟩

/-- The loop of `_await_native_protection`, with the rounds that are left. -/
def graceLoop (first : NativeReport) (e : NativeProtectionExpectation P) :
    ℕ → NativeReport → ℕ → PlacementProg (NativeReport × ℕ)
  | 0, report, attempts => pure (report, attempts)
  | rounds + 1, report, attempts => do
    let more ← ask .withinGrace
    if more then
      match ← attempt (ask (.readPosition plan.symbol)) with
      | .error err => graceLoop first e rounds (graceError first err) (attempts + 1)
      | .ok positions =>
        if openPositionQuantity P positions = some 0 then pure (report, attempts + 1)
        else
          match ← attempt (ask (.readProtection plan.symbol)) with
          | .error err => graceLoop first e rounds (graceError first err) (attempts + 1)
          | .ok reads =>
            let report := confirmExactNativeProtection e reads.1 reads.2
            if report.state = .venueProtected then pure (report, attempts + 1)
            else graceLoop first e rounds report (attempts + 1)
    else pure (report, attempts)

/-- `_await_native_protection`. -/
def awaitNativeProtection (first : NativeReport) : PlacementProg (NativeReport × ℕ) :=
  if x.graceRounds = 0 then pure (first, 0)
  else do
    let ids ← ask (.protectionIntents intent.clientOid)
    match expectation P intent plan ids.1 ids.2 with
    | none => raise (.valueError "native protection expectation is invalid")
    | some e => graceLoop P plan first e x.graceRounds first 0

/-! ## The call -/

/-- What follows the first reading of a placement. -/
def settle (report : NativeReport) : PlacementProg Verdict :=
  if report.state = .venueProtected then do
    ask (.persistCapability plan.symbol .verified none none)
    pure ⟨report.state, report.observedQuantity, .report report.reason, none⟩
  else do
    let awaited ← awaitNativeProtection P x intent plan report
    if awaited.1.state = .venueProtected then do
      ask (.persistCapability plan.symbol .verified none none)
      pure ⟨awaited.1.state, awaited.1.observedQuantity, .afterGrace awaited.1.reason awaited.2,
        none⟩
    else do
      ask (.persistCapability plan.symbol .failed
        (some (awaited.1.reason.getD "native-protection-unconfirmed" ++ "|grace:" ++
          toString awaited.2)) none)
      ask .degrade
      containOrLocalManagement P x intent plan awaited.1

/-- The verdict after a registration, or after what came in its place. -/
def unsupportedVerdict : Except PlacementError (Option Reason) → Verdict
  | .error _ => ⟨.degraded, intent.filledQty, .registrationFailed, none⟩
  | .ok (some reason) => ⟨.degraded, intent.filledQty, reason, none⟩
  | .ok none => ⟨.degraded, intent.filledQty, .registeredNotEnforcing, none⟩

/-- A symbol that does not support native protection is registered with the fallback monitor, which
does not enforce it yet. -/
def unsupportedSymbol : PlacementProg Verdict := do
  ask (.persistCapability plan.symbol .unsupported (some "native-protection-unsupported")
    (some true))
  let body : PlacementProg (Option Reason) :=
    if x.fallbackProtectionEnabled = false then do
      ask (.persistCapability plan.symbol .unsupported
        (some "fallback-monitor-mutations-disabled") (some false))
      pure (some .fallbackMutationsDisabled)
    else
      match intent.avgPrice.filter (0 < ·) with
      | none => pure (some .entryPriceUnavailable)
      | some entryPrice => do
        registerFallback P x intent plan entryPrice
        pure none
  let registered ← attempt body
  ask .degrade
  pure (unsupportedVerdict intent registered)

/-- `protect_filled_position`. -/
def protectFilledPosition : PlacementProg Verdict :=
  if intent.filledQty ≤ 0 then do
    ask .degrade
    pure ⟨.failed, 0, .noFilledQuantity, none⟩
  else if plan.quantity ≠ intent.filledQty then do
    ask .degrade
    containOrLocalManagement P x intent plan
      ⟨.failed, intent.filledQty, some "protection-quantity-mismatch"⟩
  else do
    match ← attempt (place P intent plan) with
    | .ok (.replayed report) =>
      pure ⟨report.state, report.observedQuantity, .report report.reason, none⟩
    | .ok (.placed report) => settle P x intent plan report
    | .error e =>
      if e.isUnsupported P then unsupportedSymbol P x intent plan
      else if e.apiError && e.code = some "43011" then do
        ask (.persistCapability plan.symbol .failed
          (some "native-protection-parameter-rejected") (some false))
        ask .degrade
        pure ⟨.degraded, intent.filledQty, .parameterRejected, none⟩
      else settle P x intent plan ⟨.failed, 0, some "protection-submit-failed"⟩

/-- A call of the dispatcher, with the verdict it is given. -/
def protectCall : PlacementProg Unit := do
  let verdict ← protectFilledPosition P x intent plan
  ask (.deliver verdict)

end Program

end FattyTrader.Placement
