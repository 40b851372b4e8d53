import FattyTrader.NativeProtection

/-!
# Protection as it was ordered

After a native protection was placed, `confirmExactNativeProtection` compares the answers of the
venue with what was ordered (`NativeProtectionExpectation`) : the position first, then the plan of
each leg. What it confirms is protected as ordered (`exact_confirmed`).

This is not the whole position for every leg. A take profit that was ordered for a part of the
position covers this part, and other plans of the symbol may be active : the plan of a leg is the
only one of the type and with the ids that were ordered.
-/

set_option linter.unusedSectionVars false

open FattyTrader.JsonValues

namespace FattyTrader.NativeProtection

/-- The two legs of a protection. -/
inductive Leg
  | stopLoss
  | stopSurplus
deriving DecidableEq

/-- The prefix of the fields of a leg. -/
def Leg.field : Leg → String
  | .stopLoss => "stopLoss"
  | .stopSurplus => "stopSurplus"

def Leg.name : Leg → String
  | .stopLoss => "stop-loss"
  | .stopSurplus => "take-profit"

variable (P : Texts)

/-- `NativeProtectionExpectation`, with the checks of `__post_init__`. -/
structure NativeProtectionExpectation where
  symbol : String
  holdSide : String
  quantity : ℚ
  stopLoss : Option ℚ := none
  takeProfit : Option ℚ := none
  stopLossClientOid : Option String := none
  takeProfitClientOid : Option String := none
  stopLossProviderOrderId : Option String := none
  takeProfitProviderOrderId : Option String := none
  stopLossSize : Option ℚ := none
  takeProfitSize : Option ℚ := none
  positionLevel : Bool := true
  symbol_ne : P.strip symbol ≠ ""
  holdSide_valid : P.lower (P.strip holdSide) ∈ ["long", "short", "buy", "sell"]
  quantity_pos : 0 < quantity
  legs : stopLoss ≠ none ∨ takeProfit ≠ none
  positive : ∀ value ∈ [stopLoss, takeProfit, stopLossSize, takeProfitSize], ∀ q ∈ value, 0 < q
  stopLossSize_le : ∀ q ∈ stopLossSize, q ≤ quantity
  takeProfitSize_le : ∀ q ∈ takeProfitSize, q ≤ quantity

variable {P}

namespace NativeProtectionExpectation

variable (e : NativeProtectionExpectation P)

def trigger : Leg → Option ℚ
  | .stopLoss => e.stopLoss
  | .stopSurplus => e.takeProfit

def size : Leg → Option ℚ
  | .stopLoss => e.stopLossSize
  | .stopSurplus => e.takeProfitSize

def clientOid : Leg → Option String
  | .stopLoss => e.stopLossClientOid
  | .stopSurplus => e.takeProfitClientOid

def providerOrderId : Leg → Option String
  | .stopLoss => e.stopLossProviderOrderId
  | .stopSurplus => e.takeProfitProviderOrderId

/-- A plan for the whole position, without a size of its own. -/
def atPosition (leg : Leg) : Bool := e.positionLevel && (e.size leg).isNone

def planType (leg : Leg) : String :=
  match leg, e.atPosition leg with
  | .stopLoss, true => "pos_loss"
  | .stopSurplus, true => "pos_profit"
  | .stopLoss, false => "loss_plan"
  | .stopSurplus, false => "profit_plan"

theorem planType_ne : e.planType .stopLoss ≠ e.planType .stopSurplus := by
  unfold planType
  cases e.atPosition .stopLoss <;> cases e.atPosition .stopSurplus <;> decide

end NativeProtectionExpectation

/-! ## A plan of a leg -/

variable (P) in
/-- `_plan_client_oid`. -/
def planClientOid (plan : Fields) (leg : Leg) : Option String :=
  firstText P plan [leg.field ++ "ClientOid", "clientOid", "clientOrderId"]

/-- `_plan_field`, of the type of the trigger. -/
def planTriggerType (plan : Fields) (leg : Leg) : Json :=
  let specific := valueOf plan (leg.field ++ "TriggerType")
  if specific.isNull then valueOf plan "triggerType" else specific

section Plans

variable (e : NativeProtectionExpectation P) (leg : Leg) (providerOrderId : Option String)

/-- A plan of the type of the leg, with the ids that are known. -/
def isCandidate (plan : Fields) : Bool :=
  planType P plan = e.planType leg &&
    (providerOrderId = none || planOrderId P plan = providerOrderId) &&
    (e.clientOid leg = none || planClientOid P plan leg = e.clientOid leg)

/-- `_find_exact_plan`. -/
def findExactPlan (plans : List Fields) : Except String Fields :=
  match plans.filter (isCandidate e leg providerOrderId) with
  | [plan] => .ok plan
  | _ => .error (leg.name ++ "-plan-not-unique")

def hasText (plan : Fields) (field text : String) : Bool :=
  (valueOf plan field).isNull || P.key (valueOf plan field) = text

/-- The checks of `_verify_exact_leg` in their order, each with the reason it fails for. -/
def legChecks (trigger : ℚ) (plan : Fields) : List (Bool × String) :=
  let expectedSize := e.size leg
  [(rowSymbol P plan = P.upper (P.strip e.symbol), "-symbol-mismatch"),
    (planHoldSide P plan = canonicalHoldSide P (.str e.holdSide), "-side-mismatch"),
    (activePlanStatuses.contains (planStatus P plan), "-status-mismatch"),
    ((planOrderId P plan).isSome, "-id-missing"),
    (providerOrderId = none || planOrderId P plan = providerOrderId, "-id-mismatch"),
    ((planClientOid P plan leg).isSome, "-client-oid-missing"),
    (e.clientOid leg = none || planClientOid P plan leg = e.clientOid leg,
      "-client-oid-mismatch"),
    (parseDecimal P plan false [leg.field ++ "TriggerPrice", "triggerPrice"] = some trigger,
      "-trigger-mismatch"),
    (keyOr P (planTriggerType plan leg) = "mark_price", "-trigger-type-mismatch"),
    (parseDecimal P plan true [leg.field ++ "ExecutePrice", "executePrice", "price"] = some 0,
      "-execute-mode-mismatch"),
    (hasText (P := P) plan "orderType" "market", "-execute-mode-mismatch"),
    (hasText (P := P) plan "posMode" "one_way_mode", "-position-mode-mismatch"),
    -- the position is the authority for the margin of a plan at its level
    (e.atPosition leg || hasText (P := P) plan "marginMode" "isolated", "-margin-mode-mismatch"),
    (e.atPosition leg || expectedSize.isSome, "-size-expectation-missing"),
    (if e.atPosition leg then parseDecimal P plan true ["size"] = some 0
      else parseDecimal P plan false ["size", "executeSize", "quantity"] = expectedSize,
      "-size-mismatch")]

/-- `_verify_exact_leg`. -/
def verifyExactLeg (trigger : ℚ) (plan : Fields) : Option String :=
  (legChecks e leg providerOrderId trigger plan).findSome? fun check =>
    if check.1 then none else some (leg.name ++ check.2)

/-- The part of `_confirm_exact_native_protection` about one leg, with the reason it fails for. -/
def confirmLeg (plans : List Fields) (observedId : Option String) : Option String :=
  match e.trigger leg with
  | none => none
  | some trigger =>
    match findExactPlan e leg providerOrderId plans with
    | .error reason =>
      if e.atPosition leg && observedId.isNone then some ("missing-" ++ leg.name) else some reason
    | .ok plan => verifyExactLeg e leg providerOrderId trigger plan

end Plans

/-! ## The position -/

/-- The id of a leg the position shows. -/
def Leg.positionField : Leg → String
  | .stopLoss => "stopLossId"
  | .stopSurplus => "takeProfitId"

section Position

variable (e : NativeProtectionExpectation P)

variable (P) in
/-- `str(position.get(…) or "").strip() or None`. -/
def observedId (position : Fields) (leg : Leg) : Option String :=
  let text := P.strip (P.textOr (valueOf position leg.positionField))
  if text = "" then none else some text

/-- An id the position shows is the one that was ordered. -/
def idAgrees (position : Fields) (leg : Leg) : Bool :=
  !e.atPosition leg || (e.providerOrderId leg).isNone || (observedId P position leg).isNone ||
    observedId P position leg = e.providerOrderId leg

/-- `expected or (observed if position_level else None)`. -/
def planId (position : Fields) (leg : Leg) : Option String :=
  match (e.providerOrderId leg).filter (· ≠ "") with
  | some id => some id
  | none => if e.atPosition leg then observedId P position leg else none

/-- The checks of the position in their order, each with the reason it fails for. -/
def positionChecks (position : Fields) (observed : ℚ) : List (Bool × String) :=
  [(rowSymbol P position = P.upper (P.strip e.symbol), "position-symbol-mismatch"),
    (positionSide P position = canonicalHoldSide P (.str e.holdSide), "position-side-mismatch"),
    (positionMarginMode P position = "isolated", "margin-mode-not-isolated"),
    (P.key (firstOf position ["posMode"] (.str "")) ∈ ["one_way_mode", "one-way", "one_way"],
      "position-mode-not-one-way"),
    (observed = e.quantity, "position-quantity-mismatch"),
    (e.stopLossSize.all fun size => observed ≤ size, "stop-loss-size-does-not-cover-position"),
    (idAgrees e position .stopLoss, "stop-loss-id-mismatch"),
    (idAgrees e position .stopSurplus, "take-profit-id-mismatch")]

/-- `_confirm_exact_native_protection`. -/
def confirmExactNativeProtection (readPosition readPendingPlans : Read) : ProtectionReport :=
  match readPosition with
  | .error _ => ⟨.failed, 0, some "provider-read-failed"⟩
  | .ok rawPosition =>
    match positionRows P rawPosition with
    | none => ⟨.failed, 0, some "provider-position-invalid"⟩
    | some rows =>
      match rows.filter fun row => 0 < row.2 with
      | [(position, observed)] =>
        match (positionChecks e position observed).find? fun check => !check.1 with
        | some (_, reason) => ⟨.degraded, observed, some reason⟩
        | none =>
          match readPendingPlans with
          | .error text =>
            if plansUnavailable text then ⟨.degraded, observed, some "provider-plans-unavailable"⟩
            else ⟨.failed, observed, some "provider-plans-read-failed"⟩
          | .ok rawPlans =>
            match planRows rawPlans with
            | none => ⟨.failed, observed, some "provider-plans-invalid"⟩
            | some plans =>
              let confirm (leg : Leg) :=
                confirmLeg e leg (planId e position leg) plans (observedId P position leg)
              match confirm .stopLoss, confirm .stopSurplus with
              | some reason, _ => ⟨.degraded, observed, some reason⟩
              | none, some reason => ⟨.degraded, observed, some reason⟩
              | none, none => ⟨.venueProtected, observed, none⟩
      | _ => ⟨.failed, 0, some "position-not-open"⟩

end Position

/-! ## What is confirmed -/

/-- The plan of a leg, active at the mark price for the market, with the trigger that was ordered. A
stop covers the position, a take profit the position or the size that was ordered. -/
structure LegProtected (e : NativeProtectionExpectation P) (leg : Leg) (trigger : ℚ)
    (plan : Fields) : Prop where
  type : planType P plan = e.planType leg
  symbol : rowSymbol P plan = P.upper (P.strip e.symbol)
  side : planHoldSide P plan = canonicalHoldSide P (.str e.holdSide)
  active : planStatus P plan ∈ activePlanStatuses
  trigger : parseDecimal P plan false [leg.field ++ "TriggerPrice", "triggerPrice"] = some trigger
  markPrice : keyOr P (planTriggerType plan leg) = "mark_price"
  executePrice :
    parseDecimal P plan true [leg.field ++ "ExecutePrice", "executePrice", "price"] = some 0
  market : valueOf plan "orderType" = .null ∨ P.key (valueOf plan "orderType") = "market"
  covers : (e.atPosition leg = true ∧ parseDecimal P plan true ["size"] = some 0) ∨
    ∃ size, e.size leg = some size ∧
      parseDecimal P plan false ["size", "executeSize", "quantity"] = some size ∧
        size ≤ e.quantity ∧ (leg = .stopLoss → size = e.quantity)

/-- The answers hold one open position, as ordered, and one plan of its type with its ids for each
leg. -/
structure ProtectedAsOrdered (e : NativeProtectionExpectation P)
    (readPosition readPendingPlans : Read) (position : Fields) (plans : List Fields) : Prop where
  onePosition : ∃ raw rows, readPosition = .ok raw ∧ positionRows P raw = some rows ∧
    (rows.filter fun row => 0 < row.2) = [(position, e.quantity)]
  planList : ∃ raw, readPendingPlans = .ok raw ∧ planRows raw = some plans
  symbol : rowSymbol P position = P.upper (P.strip e.symbol)
  side : ∃ side, canonicalHoldSide P (.str e.holdSide) = some side ∧
    positionSide P position = some side
  isolated : positionMarginMode P position = "isolated"
  oneWay : P.key (firstOf position ["posMode"] (.str "")) ∈ ["one_way_mode", "one-way", "one_way"]
  legs : ∀ leg trigger, e.trigger leg = some trigger → ∃ plan,
    plans.filter (isCandidate e leg (planId e position leg)) = [plan] ∧
      LegProtected e leg trigger plan
  distinct : ∀ id id' plan, isCandidate e .stopLoss id plan = true →
    isCandidate e .stopSurplus id' plan = false

section Confirmed

variable {e : NativeProtectionExpectation P} {leg : Leg} {position plan : Fields} {trigger : ℚ}
  {plans : List Fields} {readPosition readPendingPlans : Read} {id shown : Option String}

theorem exists_holdSide : ∃ side, canonicalHoldSide P (.str e.holdSide) = some side := by
  have hvalid : P.key (.str e.holdSide) ∈ ["long", "short", "buy", "sell"] := e.holdSide_valid
  unfold canonicalHoldSide holdSideOf
  split_ifs with hbuy hsell
  · exact ⟨_, rfl⟩
  · exact ⟨_, rfl⟩
  · simp only [List.mem_cons, List.not_mem_nil, or_false] at hvalid hbuy hsell
    tauto

/-- A plan is of one type, so it is the plan of one leg. -/
theorem isCandidate_distinct {id id' : Option String} (h : isCandidate e .stopLoss id plan = true) :
    isCandidate e .stopSurplus id' plan = false := by
  unfold isCandidate at h ⊢
  simp only [Bool.and_eq_true, decide_eq_true_eq] at h
  have hne : planType P plan ≠ e.planType .stopSurplus := h.1.1 ▸ e.planType_ne
  simp [hne]

theorem legProtected_of_verify (hcovers : ∀ size ∈ e.stopLossSize, e.quantity ≤ size)
    (hcandidate : isCandidate e leg id plan = true)
    (h : verifyExactLeg e leg id trigger plan = none) : LegProtected e leg trigger plan := by
  have hchecks : ∀ check ∈ legChecks e leg id trigger plan, check.1 = true := by
    intro check hcheck
    have := List.findSome?_eq_none_iff.mp h check hcheck
    simpa using this
  simp only [legChecks, List.forall_mem_cons, List.not_mem_nil, false_implies, implies_true,
    and_true, decide_eq_true_eq, Bool.or_eq_true, List.contains_iff_mem] at hchecks
  obtain ⟨hsymbol, hside, hactive, -, -, -, -, htrigger, hmark, hexecute, hmarket, -, -, hsome,
    hsize⟩ := hchecks
  simp only [isCandidate, Bool.and_eq_true, decide_eq_true_eq] at hcandidate
  refine ⟨hcandidate.1.1, hsymbol, hside, hactive, htrigger, hmark, hexecute, ?_, ?_⟩
  · simpa [hasText] using hmarket
  · cases hat : e.atPosition leg with
    | true =>
      rw [hat, if_pos rfl] at hsize
      exact Or.inl ⟨rfl, of_decide_eq_true hsize⟩
    | false =>
      rw [hat, if_neg Bool.false_ne_true] at hsize
      obtain ⟨size, hs⟩ := Option.isSome_iff_exists.mp (hsome.resolve_left (by simp [hat]))
      refine Or.inr ⟨size, hs, hs ▸ of_decide_eq_true hsize, ?_, ?_⟩
      · cases leg with
        | stopLoss => exact e.stopLossSize_le size hs
        | stopSurplus => exact e.takeProfitSize_le size hs
      · rintro rfl
        exact le_antisymm (e.stopLossSize_le size hs) (hcovers size hs)

theorem leg_of_confirmLeg (hcovers : ∀ size ∈ e.stopLossSize, e.quantity ≤ size)
    (htrigger : e.trigger leg = some trigger) (h : confirmLeg e leg id plans shown = none) :
    ∃ plan, plans.filter (isCandidate e leg id) = [plan] ∧ LegProtected e leg trigger plan := by
  unfold confirmLeg at h
  rw [htrigger] at h
  dsimp only at h
  split at h
  · split at h <;> cases h
  next plan hfind =>
    have hplans : plans.filter (isCandidate e leg id) = [plan] := by
      unfold findExactPlan at hfind
      split at hfind
      next only honly =>
        obtain rfl := Except.ok.inj hfind
        exact honly
      · cases hfind
    have hcandidate : isCandidate e leg id plan = true :=
      (List.mem_filter.mp (hplans ▸ List.mem_singleton_self plan)).2
    exact ⟨plan, hplans, legProtected_of_verify hcovers hcandidate h⟩

/-- What is confirmed is protected as it was ordered. -/
theorem exact_confirmed
    (h : (confirmExactNativeProtection e readPosition readPendingPlans).state = .venueProtected) :
    ∃ position plans, ProtectedAsOrdered e readPosition readPendingPlans position plans := by
  unfold confirmExactNativeProtection at h
  split at h
  · cases h
  next rawPosition =>
    split at h
    · cases h
    next rows hrows =>
      split at h
      next position observed hopen =>
        split at h
        · cases h
        next hchecks =>
          split at h
          · split at h <;> cases h
          next rawPlans =>
            split at h
            · cases h
            next plans hplans =>
              dsimp only at h
              split at h
              · cases h
              · cases h
              next hstop hprofit =>
                have hall : ∀ check ∈ positionChecks e position observed, check.1 = true := by
                  intro check hcheck
                  simpa using List.find?_eq_none.mp hchecks check hcheck
                simp only [positionChecks, List.forall_mem_cons, List.not_mem_nil, false_implies,
                  implies_true, and_true, decide_eq_true_eq] at hall
                obtain ⟨hsymbol, hside, hisolated, hmode, rfl, hsize, -, -⟩ := hall
                have hcovers : ∀ size ∈ e.stopLossSize, e.quantity ≤ size := by
                  intro size hs
                  simpa [Option.mem_def.mp hs] using hsize
                obtain ⟨side, hexpected⟩ := exists_holdSide (e := e)
                refine ⟨position, plans, ⟨_, rows, rfl, hrows, hopen⟩, ⟨_, rfl, hplans⟩, hsymbol,
                  ⟨side, hexpected, hside.trans hexpected⟩, hisolated, hmode, ?_,
                  fun _ _ _ => isCandidate_distinct⟩
                intro leg trigger htrigger
                cases leg with
                | stopLoss => exact leg_of_confirmLeg hcovers htrigger hstop
                | stopSurplus => exact leg_of_confirmLeg hcovers htrigger hprofit
      · cases h

end Confirmed

/-! ## A take profit for a part -/

theorem partialPrices_pos : ∀ value ∈ [some (90 : ℚ), some 110, none, some (4 / 10)],
    ∀ q ∈ value, 0 < q := by
  intro value hvalue q hq
  simp only [List.mem_cons, List.not_mem_nil, or_false] at hvalue
  rcases hvalue with rfl | rfl | rfl | rfl
  · obtain rfl := Option.some.inj hq
    decide +kernel
  · obtain rfl := Option.some.inj hq
    decide +kernel
  · cases hq
  · obtain rfl := Option.some.inj hq
    decide +kernel

theorem partialSize_le : ∀ q ∈ some (4 / 10 : ℚ), q ≤ 1 := by
  intro q hq
  obtain rfl := Option.some.inj hq
  decide +kernel

/-- A stop for the position, and a take profit for less than half of it. -/
def partialExpectation : NativeProtectionExpectation ascii where
  symbol := "BTCUSDT"
  holdSide := "long"
  quantity := 1
  stopLoss := some 90
  takeProfit := some 110
  takeProfitSize := some (4 / 10)
  symbol_ne := by decide +kernel
  holdSide_valid := by decide +kernel
  quantity_pos := Db.oneContract_pos
  legs := Or.inl nofun
  positive := partialPrices_pos
  stopLossSize_le := by
    intro q hq
    cases hq
  takeProfitSize_le := partialSize_le

def oneWayPosition : Json :=
  .arr [.obj [("symbol", .str "BTCUSDT"), ("total", .str "1"), ("marginMode", .str "isolated"),
    ("holdSide", .str "long"), ("posMode", .str "one_way_mode")]]

/-- A plan of a long position. -/
def ownPlan (type id trigger size : String) : Json :=
  .obj [("planType", .str type), ("symbol", .str "BTCUSDT"), ("holdSide", .str "long"),
    ("planStatus", .str "live"), ("orderId", .str id), ("clientOid", .str id),
    ("triggerPrice", .str trigger), ("triggerType", .str "mark_price"), ("size", .str size)]

def ownPlans : Json :=
  .arr [ownPlan "pos_loss" "1" "90" "", ownPlan "profit_plan" "2" "110" "0.4"]

theorem partialExpectation_protected : ∃ position plans,
    ProtectedAsOrdered partialExpectation (.ok oneWayPosition) (.ok ownPlans) position plans :=
  exact_confirmed (by decide +kernel)

/-- The protection is confirmed, and the size of the only take profit does not cover the
position. -/
theorem partialExpectation_uncovered :
    (confirmExactNativeProtection partialExpectation (.ok oneWayPosition) (.ok ownPlans)).state =
        .venueProtected ∧
      ∀ plans, planRows ownPlans = some plans → ∀ plan ∈ plans,
        planType ascii plan = "profit_plan" →
          parseDecimal ascii plan true ["size"] = some (4 / 10) ∧
            (4 / 10 : ℚ) ≠ 0 ∧ (4 / 10 : ℚ) < partialExpectation.quantity := by
  refine ⟨by decide +kernel, fun plans hplans plan hplan htype => ?_⟩
  have hmem := obj_of_planRows hplans hplan
  rcases List.mem_cons.mp hmem with hplan | hplan
  · obtain rfl := Json.obj.inj hplan
    exact absurd htype (by decide +kernel)
  · obtain rfl := Json.obj.inj (List.mem_singleton.mp hplan)
    exact ⟨by decide +kernel, by decide +kernel, by decide +kernel⟩

end FattyTrader.NativeProtection
