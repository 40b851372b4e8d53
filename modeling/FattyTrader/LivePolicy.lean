import FattyTrader.Sizing

/-!
# The live sizing policy

`planLivePosition` walks the leverages down from the highest one allowed, and takes the first at
which the quantity is legal at the venue, within the margin cap, and guarded against liquidation
before its stop. When no leverage meets the minimum notional, and no position is open, it tries
again with the whole balance.

`LivePlan.Legal` is what every accepted plan is (`legal_of_accepted`). The texts of the reasons a
position is skipped for are left out, `SkipReason` tells them apart.
-/

set_option linter.unusedSectionVars false

namespace FattyTrader

/-- `BitgetLiveRiskConfig`, with the checks of its construction. -/
structure BitgetLiveRiskConfig where
  minLeverage : ℕ
  maxLeverage : ℕ
  allocationPct : ℚ
  maxNormalPositions : ℕ
  floors : LiquidationFloors
  maxMarginPerTradeUsdt : Option ℚ
  five_le : 5 ≤ minLeverage
  min_le_max : minLeverage ≤ maxLeverage
  max_eq : maxLeverage = 20
  allocation_pos : 0 < allocationPct
  buffer_pos : 0 < floors.buffer
  buffer_le : floors.buffer ≤ 1
  cap_pos : ∀ cap ∈ maxMarginPerTradeUsdt, 0 < cap

theorem BitgetLiveRiskConfig.pinned_max : 20 = 20 := rfl

/-- `LiveSizingInput`. The prices of a split are given together. -/
structure LiveSizingInput where
  metadata : SymbolMetadata
  risk : BitgetLiveRiskConfig
  availableUsdt : ℚ
  desiredLeverage : ℕ
  entry : ℚ
  direction : Direction
  activePositions : ℕ
  stopLoss : Option ℚ
  atr : Option ℚ := none
  takerFeeRate : ℚ := 6 / 10000
  split : Option (ℚ × ℚ) := none

/-- The tag of a leverage that fails. -/
inductive PlanFailure
  | minNotional
  | marginCap
  | slGuard
  | splitMinQty (leg : EntryLeg)
  | splitMinNotional (leg : EntryLeg)
  | splitMaxQty (leg : EntryLeg)
deriving DecidableEq

def PlanFailure.split : PlanFailure → Bool
  | .splitMinQty _ | .splitMinNotional _ | .splitMaxQty _ => true
  | _ => false

structure LivePlan where
  leverage : ℕ
  quantity : ℚ
  margin : ℚ
  notional : ℚ
  liquidationPrice : ℚ
deriving DecidableEq

inductive SkipReason
  | positionCap
  | noLeverage
  | noStop
  | slGuard
  | notionalFloor
  | split (failure : PlanFailure)
  | minNotional
deriving DecidableEq

/-- `LiveSizingDecision`. -/
inductive LiveSizingDecision
  | accepted (plan : LivePlan) (roundedEntry stopLoss : ℚ) (fallbackUsed : Bool)
  | skipped (reason : SkipReason) (fallbackUsed : Bool)
deriving DecidableEq

/-! ## One leverage -/

/-- What `_plan_at_leverage` is given besides the leverage and the margin. -/
structure PlanRequest where
  metadata : SymbolMetadata
  floors : LiquidationFloors
  roundedEntry : ℚ
  required : ℚ
  cap : Option ℚ
  direction : Direction
  stop : ℚ
  takerFeeRate : ℚ
  split : Option (ℚ × ℚ)

namespace PlanRequest

variable (q : PlanRequest)

def perQty : ℚ := q.roundedEntry * q.metadata.contractValue

/-- The quantum of the total quantity. -/
def quantityStep : ℚ := q.metadata.sizeStep * (if q.split.isSome then 4 else 1)

def toStep (quantity step : ℚ) : Except String ℚ :=
  match roundQtyToStep quantity step with
  | none => .error "quantity and step must be positive"
  | some r => .ok r

/-- The ceiling of the market order, and of its four quarters in a split. -/
def marketCeiled (qty : ℚ) : Except String ℚ :=
  match q.metadata.maxMarketOrderQty with
  | none => .ok qty
  | some maximum =>
    match toStep maximum q.metadata.sizeStep with
    | .error e => .error e
    | .ok ceiling => .ok (min qty (if q.split.isSome then ceiling * 4 else ceiling))

/-- The ceiling of the limit child of a split. -/
def limitCeiled (qty : ℚ) : Except String ℚ :=
  match q.split, q.metadata.maxOrderQty with
  | some _, some maximum =>
    match toStep maximum (q.metadata.sizeStep * 3) with
    | .error e => .error e
    | .ok ceiling => .ok (min qty (ceiling / 3 * 4))
  | _, _ => .ok qty

/-- The quantity before the margin cap. -/
def ceiledQuantity (rawQty : ℚ) : Except String ℚ :=
  match toStep rawQty q.quantityStep with
  | .error e => .error e
  | .ok qty =>
    match q.marketCeiled qty with
    | .error e => .error e
    | .ok qty => q.limitCeiled qty

/-- `_enforce_margin_cap` : the margin and the quantity. -/
def enforceMarginCap (leverage : ℕ) (qty : ℚ) : Except String (Option (ℚ × ℚ)) :=
  if qty ≤ 0 ∨ q.perQty ≤ 0 then .ok none
  else
    let maxQty := match q.cap with
      | none => qty
      | some cap => cap * leverage / q.perQty
    match toStep (min qty maxQty) q.quantityStep with
    | .error e => .error e
    | .ok cappedQty =>
      if cappedQty < q.metadata.minOrderQty then .ok none
      else
        let actualMargin := cappedQty * q.perQty / leverage
        if q.cap.any (· < actualMargin) then .ok none else .ok (some (actualMargin, cappedQty))

/-- One child of a split at its own price. -/
def legFailure (leg : EntryLeg) (qty price : ℚ) (maximum : Option ℚ) : Option PlanFailure :=
  if qty < q.metadata.minOrderQty then some (.splitMinQty leg)
  else if qty * price * q.metadata.contractValue < q.metadata.minNotional then
    some (.splitMinNotional leg)
  else if maximum.any (· < qty) then some (.splitMaxQty leg)
  else none

/-- `_split_quantity_failure`, none for a single entry. -/
def splitQuantityFailure (qty : ℚ) : Option PlanFailure :=
  q.split.bind fun prices =>
    (q.legFailure .market (qty / 4) prices.1 q.metadata.maxMarketOrderQty).or
      (q.legFailure .limit (qty * (3 / 4)) prices.2 q.metadata.maxOrderQty)

/-- The end of `_plan_at_leverage` : the minimum notional and the guard. -/
def guardedPlan (leverage : ℕ) (qty actualMargin : ℚ) : Except String (Except PlanFailure LivePlan) :=
  if qty * q.perQty < q.required then .ok (.error .minNotional)
  else
    match estimateLiquidationPrice q.direction q.roundedEntry qty leverage actualMargin
        q.metadata.mmTiers q.takerFeeRate q.metadata.contractValue with
    | .error e => .error e
    | .ok liq =>
      match checkSlBeforeLiquidation q.direction q.roundedEntry q.stop liq q.floors
          q.metadata.priceTick with
      | .error e => .error e
      | .ok false => .ok (.error .slGuard)
      | .ok true => .ok (.ok ⟨leverage, qty, actualMargin, qty * q.perQty, liq⟩)

/-- `_plan_at_leverage`. -/
def planAtLeverage (margin : ℚ) (leverage : ℕ) : Except String (Except PlanFailure LivePlan) :=
  if q.perQty ≤ 0 then .ok (.error .minNotional)
  else
    match q.ceiledQuantity (margin * leverage / q.perQty) with
    | .error e => .error e
    | .ok qty =>
      match q.enforceMarginCap leverage qty with
      | .error e => .error e
      | .ok none => .ok (.error ((q.splitQuantityFailure qty).getD .marginCap))
      | .ok (some (actualMargin, qty)) =>
        match q.splitQuantityFailure qty with
        | some failure => .ok (.error failure)
        | none => q.guardedPlan leverage qty actualMargin

end PlanRequest

/-! ## The search -/

/-- `_select_plan` : the first leverage that can be planned, and the tags of those before it. -/
def selectPlan (attempt : ℕ → Except String (Except PlanFailure LivePlan)) :
    List ℕ → List PlanFailure → Except String (Option LivePlan × List PlanFailure)
  | [], tags => .ok (none, tags)
  | leverage :: leverages, tags =>
    match attempt leverage with
    | .error e => .error e
    | .ok (.error tag) => selectPlan attempt leverages (tags ++ [tag])
    | .ok (.ok plan) => .ok (some plan, tags)

namespace LiveSizingInput

variable (data : LiveSizingInput)

/-- `_leverage_bounds`, with the desired leverage. -/
def leverageBounds : ℕ × ℕ :=
  (max 5 data.risk.minLeverage,
    min (min (min 20 data.risk.maxLeverage) data.metadata.maxLeverage) data.desiredLeverage)

/-- The leverages, the highest first. -/
def leverages : List ℕ :=
  (List.range' data.leverageBounds.1 (data.leverageBounds.2 + 1 - data.leverageBounds.1)).reverse

/-- The stop of the signal, or one and a half ranges from the entry. -/
def stop : Option ℚ :=
  data.stopLoss.or <| data.atr.map fun atr =>
    match data.direction with
    | .long => data.entry - 3 / 2 * atr
    | .short => data.entry + 3 / 2 * atr

def planRequest (roundedEntry stop : ℚ) : PlanRequest where
  metadata := data.metadata
  floors := data.risk.floors
  roundedEntry := roundedEntry
  required := max data.metadata.minNotional
    (data.metadata.minOrderQty * roundedEntry * data.metadata.contractValue)
  cap := data.risk.maxMarginPerTradeUsdt
  direction := data.direction
  stop := stop
  takerFeeRate := data.takerFeeRate
  split := data.split

/-- A margin within the cap. -/
def capped (margin : ℚ) : ℚ :=
  match data.risk.maxMarginPerTradeUsdt with
  | none => margin
  | some cap => min margin cap

/-- The search with one margin. -/
def attempt (roundedEntry stop margin : ℚ) : Except String (Option LivePlan × List PlanFailure) :=
  selectPlan ((data.planRequest roundedEntry stop).planAtLeverage (data.capped margin))
    data.leverages []

/-- The second search, with the whole balance. -/
def allIn (roundedEntry stop : ℚ) : Except String LiveSizingDecision :=
  match data.attempt roundedEntry stop data.availableUsdt with
  | .error e => .error e
  | .ok (some plan, _) => .ok (.accepted plan roundedEntry stop true)
  | .ok (none, tags) =>
    .ok (.skipped
      (if PlanFailure.slGuard ∈ tags then .slGuard
        else match tags.find? PlanFailure.split with
          | some failure => .split failure
          | none => .minNotional) true)

/-- `plan_live_position`, after the stop is known. -/
def planWithStop (roundedEntry stop : ℚ) : Except String LiveSizingDecision :=
  match data.attempt roundedEntry stop (data.risk.allocationPct * data.availableUsdt) with
  | .error e => .error e
  | .ok (some plan, _) => .ok (.accepted plan roundedEntry stop false)
  | .ok (none, tags) =>
    if PlanFailure.slGuard ∈ tags then .ok (.skipped .slGuard false)
    else if PlanFailure.marginCap ∈ tags ∧ PlanFailure.minNotional ∉ tags then
      .ok (.skipped .notionalFloor false)
    else if data.activePositions ≠ 0 then
      .ok (.skipped (match tags.find? PlanFailure.split with
        | some failure => .split failure
        | none => .minNotional) false)
    else data.allIn roundedEntry stop

/-- `plan_live_position`. -/
def planLivePosition : Except String LiveSizingDecision :=
  if data.risk.maxNormalPositions ≤ data.activePositions then .ok (.skipped .positionCap false)
  else if data.metadata.mmTiers = [] then .error "maintenance-margin tiers are required"
  else if data.leverageBounds.2 < data.leverageBounds.1 then .ok (.skipped .noLeverage false)
  else
    match roundPriceToTick data.entry data.metadata.priceTick with
    | none => .error "tick-rounded price is non-positive"
    | some roundedEntry =>
      match data.stop with
      | none => .ok (.skipped .noStop false)
      | some stop => data.planWithStop roundedEntry stop

end LiveSizingInput

/-! ## What an accepted plan is -/

/-- The quantity is a positive multiple of its quantum within the minimum of the venue, a market
order stays within its maximum, the margin is what the quantity costs at the rounded entry, within
the cap, and the guard holds there. -/
structure LivePlan.Legal (q : PlanRequest) (plan : LivePlan) : Prop where
  quantity_pos : 0 < plan.quantity
  min_le : q.metadata.minOrderQty ≤ plan.quantity
  multiple : ∃ k : ℕ, plan.quantity = k * q.quantityStep
  market_le : q.split = none → ∀ maximum ∈ q.metadata.maxMarketOrderQty, plan.quantity ≤ maximum
  margin_eq : plan.margin = plan.quantity * q.perQty / plan.leverage
  margin_le : ∀ cap ∈ q.cap, plan.margin ≤ cap
  notional_eq : plan.notional = plan.quantity * q.perQty
  perQty_pos : 0 < q.perQty
  guarded : guarded q.direction q.roundedEntry plan.quantity plan.leverage q.stop q.floors
    q.metadata.priceTick q.metadata.mmTiers q.takerFeeRate q.metadata.contractValue = .ok true

section Legal

variable {q : PlanRequest} {plan : LivePlan}

theorem toStep_ok {quantity step r : ℚ} (h : PlanRequest.toStep quantity step = .ok r) :
    r ≤ quantity ∧ ∃ k : ℕ, r = k * step := by
  unfold PlanRequest.toStep at h
  split at h
  · cases h
  next hr =>
    obtain rfl := Except.ok.inj h
    obtain ⟨-, hle, -, hk⟩ := roundQtyToStep_some hr
    exact ⟨hle, hk⟩

theorem marketCeiled_ok {qty r : ℚ} (h : q.marketCeiled qty = .ok r) (hsplit : q.split = none) :
    ∀ maximum ∈ q.metadata.maxMarketOrderQty, r ≤ maximum := by
  rintro maximum hmax
  unfold PlanRequest.marketCeiled at h
  rw [Option.mem_def.mp hmax] at h
  dsimp only at h
  split at h
  · cases h
  next ceiling hceiling =>
    obtain rfl := Except.ok.inj h
    rw [hsplit]
    exact (min_le_right _ _).trans (toStep_ok hceiling).1

theorem ceiledQuantity_ok {rawQty r : ℚ} (h : q.ceiledQuantity rawQty = .ok r)
    (hsplit : q.split = none) : ∀ maximum ∈ q.metadata.maxMarketOrderQty, r ≤ maximum := by
  unfold PlanRequest.ceiledQuantity at h
  split at h
  · cases h
  · split at h
    · cases h
    next qty hmarket =>
      have hlimit : q.limitCeiled qty = .ok qty := by
        unfold PlanRequest.limitCeiled
        rw [hsplit]
      rw [hlimit] at h
      obtain rfl := Except.ok.inj h
      exact marketCeiled_ok hmarket hsplit

theorem enforceMarginCap_ok {leverage : ℕ} {qty margin r : ℚ}
    (h : q.enforceMarginCap leverage qty = .ok (some (margin, r))) :
    r ≤ qty ∧ q.metadata.minOrderQty ≤ r ∧ (∃ k : ℕ, r = k * q.quantityStep) ∧
      margin = r * q.perQty / leverage ∧ (∀ cap ∈ q.cap, margin ≤ cap) ∧ 0 < q.perQty := by
  unfold PlanRequest.enforceMarginCap at h
  split at h
  · cases h
  next hpos =>
    simp only [not_or, not_le] at hpos
    dsimp only at h
    split at h
    · cases h
    next hstep =>
      split at h
      · cases h
      next hmin =>
        split at h
        · cases h
        next hcap =>
          obtain ⟨rfl, rfl⟩ := Prod.mk.inj (Option.some.inj (Except.ok.inj h))
          obtain ⟨hle, hk⟩ := toStep_ok hstep
          refine ⟨hle.trans (min_le_left _ _), not_lt.mp hmin, hk, rfl, fun cap hc => ?_, hpos.2⟩
          rw [Option.mem_def.mp hc] at hcap
          simpa using hcap

theorem guardedPlan_ok {leverage : ℕ} {qty margin : ℚ}
    (h : q.guardedPlan leverage qty margin = .ok (.ok plan)) :
    plan.leverage = leverage ∧ plan.quantity = qty ∧ plan.margin = margin ∧
      plan.notional = qty * q.perQty ∧
      (margin = qty * q.perQty / leverage → guarded q.direction q.roundedEntry qty leverage q.stop
        q.floors q.metadata.priceTick q.metadata.mmTiers q.takerFeeRate q.metadata.contractValue =
          .ok true) := by
  unfold PlanRequest.guardedPlan at h
  split at h
  · cases h
  split at h
  · cases h
  next liq hliq =>
    split at h
    · cases h
    · cases h
    next hcheck =>
      obtain rfl := Except.ok.inj (Except.ok.inj h)
      refine ⟨rfl, rfl, rfl, rfl, fun hmargin => ?_⟩
      have hsame : q.roundedEntry * qty * q.metadata.contractValue / leverage = margin := by
        rw [hmargin, PlanRequest.perQty]
        ring
      simp only [FattyTrader.guarded, hsame, hliq, hcheck]

/-- A plan at one leverage is legal. -/
theorem legal_of_planAtLeverage {margin : ℚ} {leverage : ℕ}
    (h : q.planAtLeverage margin leverage = .ok (.ok plan)) :
    plan.leverage = leverage ∧ plan.Legal q := by
  unfold PlanRequest.planAtLeverage at h
  split at h
  · cases h
  split at h
  · cases h
  next qty hceiled =>
    split at h
    · cases h
    · cases h
    next actualMargin capped hcapped =>
      split at h
      · cases h
      · obtain ⟨hleverage, hqty, hmargin, hnotional, hguarded⟩ := guardedPlan_ok h
        obtain ⟨hle, hmin, hk, hactual, hcap, hper⟩ := enforceMarginCap_ok hcapped
        have hguard := hguarded hactual
        rw [← hleverage] at hactual
        refine ⟨hleverage, ?_, ?_, ?_, fun hsplit maximum hmax => ?_, ?_, ?_, ?_, hper, ?_⟩
        · rw [hqty]
          exact q.metadata.minOrderQty_pos.trans_le hmin
        · rwa [hqty]
        · rwa [hqty]
        · rw [hqty]
          exact hle.trans (ceiledQuantity_ok hceiled hsplit maximum hmax)
        · rw [hmargin, hqty, hactual]
        · rwa [hmargin]
        · rw [hnotional, hqty]
        · rw [hqty, hleverage]
          exact hguard

/-- The search answers with a plan of one of the leverages. -/
theorem selectPlan_some {attempt : ℕ → Except String (Except PlanFailure LivePlan)} :
    ∀ {leverages : List ℕ} {tags tags' : List PlanFailure},
      selectPlan attempt leverages tags = .ok (some plan, tags') →
        ∃ leverage ∈ leverages, attempt leverage = .ok (.ok plan)
  | [], _, _, h => by cases h
  | leverage :: leverages, tags, tags', h => by
    unfold selectPlan at h
    split at h
    · cases h
    · obtain ⟨l, hl, hplan⟩ := selectPlan_some h
      exact ⟨l, List.mem_cons_of_mem _ hl, hplan⟩
    next plan' hplan =>
      obtain rfl : plan' = plan := by
        injection h with h
        injection h with h
        exact Option.some.inj h
      exact ⟨leverage, List.mem_cons_self, hplan⟩

variable {data : LiveSizingInput} {roundedEntry stop : ℚ} {fallbackUsed : Bool}

theorem legal_of_attempt {margin : ℚ} {tags : List PlanFailure}
    (h : data.attempt roundedEntry stop margin = .ok (some plan, tags)) :
    plan.leverage ∈ data.leverages ∧ plan.Legal (data.planRequest roundedEntry stop) := by
  obtain ⟨leverage, hmem, hplan⟩ := selectPlan_some h
  obtain ⟨hleverage, hlegal⟩ := legal_of_planAtLeverage hplan
  exact ⟨by rwa [hleverage], hlegal⟩

theorem five_le_of_mem_leverages {leverage : ℕ} (h : leverage ∈ data.leverages) : 5 ≤ leverage := by
  simp only [LiveSizingInput.leverages, LiveSizingInput.leverageBounds, List.mem_reverse,
    List.mem_range'_1] at h
  omega

/-- Every accepted plan is legal for the request at the rounded entry, with a leverage of at
least five. -/
theorem legal_of_accepted
    (h : data.planLivePosition = .ok (.accepted plan roundedEntry stop fallbackUsed)) :
    roundPriceToTick data.entry data.metadata.priceTick = some roundedEntry ∧
      data.stop = some stop ∧ 5 ≤ plan.leverage ∧
      plan.Legal (data.planRequest roundedEntry stop) := by
  unfold LiveSizingInput.planLivePosition at h
  split at h
  · cases h
  split at h
  · cases h
  split at h
  · cases h
  split at h
  · cases h
  next rounded hround =>
    split at h
    · cases h
    next stop' hstop =>
      have hattempt : ∃ margin tags, data.attempt rounded stop' margin = .ok (some plan, tags) ∧
          rounded = roundedEntry ∧ stop' = stop := by
        unfold LiveSizingInput.planWithStop at h
        split at h
        · cases h
        next htry =>
          injection h with h
          injection h with h₁ h₂ h₃
          exact ⟨_, _, h₁ ▸ htry, h₂, h₃⟩
        · split at h
          · cases h
          split at h
          · cases h
          split at h
          · cases h
          · unfold LiveSizingInput.allIn at h
            split at h
            · cases h
            next htry =>
              injection h with h
              injection h with h₁ h₂ h₃
              exact ⟨_, _, h₁ ▸ htry, h₂, h₃⟩
            · cases h
      obtain ⟨margin, tags, htry, rfl, rfl⟩ := hattempt
      obtain ⟨hmem, hlegal⟩ := legal_of_attempt htry
      exact ⟨hround, hstop, five_le_of_mem_leverages hmem, hlegal⟩

end Legal

end FattyTrader
