import FattyTrader.Ledger
import Mathlib.Algebra.Order.Floor.Ring
import Mathlib.Data.Rat.Floor
import Mathlib.Tactic.Linarith
import Mathlib.Tactic.FieldSimp
import Mathlib.Tactic.Ring

/-!
# Rounding and the liquidation guard

Prices are rounded to the nearest tick, quantities down to a step. `estimateLiquidationPrice`
estimates where an isolated position dies, and `checkSlBeforeLiquidation` asks that the stop
stands between the entry and that price, away from it by a share of the span and by three floors.

`guarded` composes the two at an entry price whose margin is the notional over the leverage.
Without the floors it is one inequality in the entry price (`guarded_iff`) : the stop has to
clear the entry times `clearance`, a number of the leverage and the maintenance rate alone.
-/

set_option linter.unusedSectionVars false

namespace FattyTrader

/-! ## Rounding -/

/-- `round_price_to_tick` : the nearest multiple, half up. None where it raises. -/
def roundPriceToTick (price tick : ℚ) : Option ℚ :=
  if price ≤ 0 ∨ tick ≤ 0 then none
  else
    let rounded := ⌊price / tick + 1 / 2⌋ * tick
    if rounded ≤ 0 then none else some rounded

/-- `round_qty_to_step` : the multiple below. None where it raises. -/
def roundQtyToStep (quantity step : ℚ) : Option ℚ :=
  if quantity ≤ 0 ∨ step ≤ 0 then none else some (⌊quantity / step⌋ * step)

theorem roundPriceToTick_some {price tick r : ℚ} (h : roundPriceToTick price tick = some r) :
    0 < tick ∧ 0 < r ∧ r = ⌊price / tick + 1 / 2⌋ * tick := by
  unfold roundPriceToTick at h
  split at h
  · cases h
  next hpos =>
    simp only [not_or, not_le] at hpos
    dsimp only at h
    split at h
    · cases h
    next hr =>
      obtain rfl := Option.some.inj h
      exact ⟨hpos.2, not_le.mp hr, rfl⟩

/-- A rounded price is rounded to itself. -/
theorem roundPriceToTick_self {price tick r : ℚ} (h : roundPriceToTick price tick = some r) :
    roundPriceToTick r tick = some r := by
  obtain ⟨htick, hr, heq⟩ := roundPriceToTick_some h
  have hsteps : r / tick = ⌊price / tick + 1 / 2⌋ := by
    rw [heq]
    field_simp
  have hfloor : ⌊r / tick + 1 / 2⌋ = ⌊price / tick + 1 / 2⌋ := by
    rw [hsteps, Int.floor_intCast_add]
    have : ⌊(1 / 2 : ℚ)⌋ = 0 := by norm_num
    rw [this, add_zero]
  have hsame : (⌊r / tick + 1 / 2⌋ : ℚ) * tick = r := by rw [hfloor, ← heq]
  unfold roundPriceToTick
  rw [if_neg (by simp only [not_or, not_le]; exact ⟨hr, htick⟩)]
  dsimp only
  rw [hsame, if_neg (not_le.mpr hr)]

theorem roundQtyToStep_some {quantity step r : ℚ} (h : roundQtyToStep quantity step = some r) :
    0 < step ∧ r ≤ quantity ∧ 0 ≤ r ∧ ∃ k : ℕ, r = k * step := by
  unfold roundQtyToStep at h
  split at h
  · cases h
  next hpos =>
    simp only [not_or, not_le] at hpos
    obtain rfl := Option.some.inj h
    obtain ⟨hq, hstep⟩ := hpos
    have hnonneg : 0 ≤ ⌊quantity / step⌋ := Int.floor_nonneg.mpr (div_nonneg hq.le hstep.le)
    refine ⟨hstep, ?_, mul_nonneg (by exact_mod_cast hnonneg) hstep.le, ⌊quantity / step⌋.toNat, ?_⟩
    · exact (le_div_iff₀ hstep).mp (Int.floor_le _)
    · have hcast : ((⌊quantity / step⌋.toNat : ℤ) : ℚ) = (⌊quantity / step⌋ : ℚ) := by
        rw [Int.toNat_of_nonneg hnonneg]
      rw [← hcast]
      norm_cast

/-! ## Metadata -/

/-- A maintenance margin tier ; the last one has no bound. -/
structure MMTier where
  upperBoundNotional : Option ℚ
  mmr : ℚ
  mmr_nonneg : 0 ≤ mmr

/-- `SymbolMetadata`, with the checks of its construction the sizing relies on. -/
structure SymbolMetadata where
  symbol : String
  priceTick : ℚ
  sizeStep : ℚ
  minOrderQty : ℚ
  maxOrderQty : Option ℚ
  maxMarketOrderQty : Option ℚ
  contractValue : ℚ
  maxLeverage : ℕ
  minNotional : ℚ
  mmTiers : List MMTier
  sizeStep_pos : 0 < sizeStep
  minOrderQty_pos : 0 < minOrderQty
  contractValue_pos : 0 < contractValue

/-! ## Liquidation -/

/-- `select_mmr`. -/
def selectMmr (notional : ℚ) (mmTiers : List MMTier) : Except String ℚ :=
  match mmTiers.getLast? with
  | none => .error "maintenance-margin tiers are required"
  | some last =>
    .ok ((mmTiers.find? fun t => t.upperBoundNotional.all (notional ≤ ·)).getD last).mmr

/-- The part of the entry price at which a position dies. -/
def liquidationRatio (direction : Direction) (marginRatio mmr takerFeeRate : ℚ) : ℚ :=
  match direction with
  | .long => 1 - marginRatio + mmr + takerFeeRate
  | .short => 1 + marginRatio - mmr - takerFeeRate

/-- `estimate_liquidation_price`. -/
def estimateLiquidationPrice (direction : Direction) (entry quantity : ℚ) (leverage : ℕ)
    (marginUsdt : ℚ) (mmTiers : List MMTier) (takerFeeRate contractMultiplier : ℚ) :
    Except String ℚ :=
  if entry ≤ 0 ∨ quantity ≤ 0 ∨ leverage = 0 ∨ marginUsdt ≤ 0 then
    .error "entry/quantity/leverage/margin must be positive"
  else if contractMultiplier ≤ 0 then .error "contract multiplier must be positive"
  else if takerFeeRate < 0 then .error "taker fee rate must be non-negative"
  else
    let notional := entry * quantity * contractMultiplier
    match selectMmr notional mmTiers with
    | .error e => .error e
    | .ok mmr =>
      let liq := entry * liquidationRatio direction (marginUsdt / notional) mmr takerFeeRate
      if liq ≤ 0 then .error "estimated liquidation price is non-positive" else .ok liq

/-- The floors of the gap between stop and liquidation. -/
structure LiquidationFloors where
  buffer : ℚ
  minimumGapPct : ℚ := 0
  minimumTicks : ℕ := 0
  latencySlippageAllowance : ℚ := 0
deriving DecidableEq

/-- `check_sl_before_liquidation`, for a positive tick. -/
def checkSlBeforeLiquidation (direction : Direction) (entry stopLoss liquidationPrice : ℚ)
    (floors : LiquidationFloors) (priceTick : ℚ) : Except String Bool :=
  if entry ≤ 0 ∨ stopLoss ≤ 0 ∨ liquidationPrice ≤ 0 then .ok false
  else if floors.buffer < 0 ∨ floors.minimumGapPct < 0 ∨ floors.latencySlippageAllowance < 0 then
    .error "liquidation gap floors must be non-negative"
  else
    let required := fun span : ℚ => max (max (span * floors.buffer) (entry * floors.minimumGapPct))
      (max (priceTick * floors.minimumTicks) floors.latencySlippageAllowance)
    match direction with
    | .long =>
      .ok (decide (liquidationPrice < stopLoss ∧ stopLoss < entry) &&
        decide (required (entry - liquidationPrice) ≤ stopLoss - liquidationPrice))
    | .short =>
      .ok (decide (entry < stopLoss ∧ stopLoss < liquidationPrice) &&
        decide (required (liquidationPrice - entry) ≤ liquidationPrice - stopLoss))

/-! ## The guard at one entry price -/

/-- The share of the entry price a stop must clear at a maintenance rate. -/
def clearance (direction : Direction) (leverage : ℕ) (buffer mmr takerFeeRate : ℚ) : ℚ :=
  buffer + (1 - buffer) * liquidationRatio direction (1 / leverage) mmr takerFeeRate

/-- The stop stands on the far side of the entry price, and clears it. -/
def Clears (direction : Direction) (stop entry share : ℚ) : Prop :=
  match direction with
  | .long => entry * share ≤ stop
  | .short => stop ≤ entry * share

/-- The entry price is on the near side of the stop. -/
def Before (direction : Direction) (entry stop : ℚ) : Prop :=
  match direction with
  | .long => stop < entry
  | .short => entry < stop

/-- The liquidation estimate and the check of the stop for a position at an average entry, whose
margin is its notional over the leverage. -/
def guarded (direction : Direction) (entry quantity : ℚ) (leverage : ℕ) (stop : ℚ)
    (floors : LiquidationFloors) (priceTick : ℚ) (mmTiers : List MMTier)
    (takerFeeRate contractMultiplier : ℚ) : Except String Bool :=
  match estimateLiquidationPrice direction entry quantity leverage
      (entry * quantity * contractMultiplier / leverage) mmTiers takerFeeRate contractMultiplier with
  | .error e => .error e
  | .ok liq => checkSlBeforeLiquidation direction entry stop liq floors priceTick

section Guard

variable {direction : Direction} {entry quantity stop buffer mmr fee priceTick c : ℚ}
  {leverage : ℕ} {mmTiers : List MMTier}

/-- The check with the share of the span as its only floor. -/
theorem check_iff {ratio : ℚ} (hentry : 0 < entry) (hstop : 0 < stop)
    (hratio : 0 < entry * ratio) (hb : 0 < buffer) (hb1 : buffer ≤ 1) :
    checkSlBeforeLiquidation direction entry stop (entry * ratio) ⟨buffer, 0, 0, 0⟩ priceTick =
        .ok true ↔
      Before direction entry stop ∧ Clears direction stop entry (buffer + (1 - buffer) * ratio) := by
  unfold checkSlBeforeLiquidation
  rw [if_neg (by simp only [not_or, not_le]; exact ⟨hentry, hstop, hratio⟩),
    if_neg (by simp only [not_or, not_lt]; exact ⟨hb.le, le_rfl, le_rfl⟩)]
  cases direction with
  | long =>
    simp only [Except.ok.injEq, Bool.and_eq_true, decide_eq_true_eq, mul_zero, Nat.cast_zero,
      max_self, sup_le_iff, Before, Clears]
    constructor
    · rintro ⟨⟨-, hbefore⟩, ⟨hgap, -⟩, -⟩
      exact ⟨hbefore, by linarith⟩
    · rintro ⟨hbefore, hclears⟩
      have hspan : entry * ratio < entry := by
        by_contra hno
        rw [not_lt] at hno
        nlinarith
      have hgap : 0 < buffer * (entry - entry * ratio) := mul_pos hb (sub_pos.mpr hspan)
      refine ⟨⟨by linarith, hbefore⟩, ⟨?_, ?_⟩, ?_⟩ <;> linarith
  | short =>
    simp only [Except.ok.injEq, Bool.and_eq_true, decide_eq_true_eq, mul_zero, Nat.cast_zero,
      max_self, sup_le_iff, Before, Clears]
    constructor
    · rintro ⟨⟨hbefore, -⟩, ⟨hgap, -⟩, -⟩
      exact ⟨hbefore, by linarith⟩
    · rintro ⟨hbefore, hclears⟩
      have hspan : entry < entry * ratio := by
        by_contra hno
        rw [not_lt] at hno
        nlinarith
      have hgap : 0 < buffer * (entry * ratio - entry) := mul_pos hb (sub_pos.mpr hspan)
      refine ⟨⟨hbefore, by linarith⟩, ⟨?_, ?_⟩, ?_⟩ <;> linarith

/-- The guard at one entry price : the stop is beyond the entry, and clears its share. -/
theorem guarded_iff (hentry : 0 < entry) (hquantity : 0 < quantity) (hstop : 0 < stop)
    (hleverage : 2 ≤ leverage) (hc : 0 < c) (hfee : 0 ≤ fee) (hb : 0 < buffer) (hb1 : buffer ≤ 1)
    (hmmr : selectMmr (entry * quantity * c) mmTiers = .ok mmr) (hmmr0 : 0 ≤ mmr) :
    guarded direction entry quantity leverage stop ⟨buffer, 0, 0, 0⟩ priceTick mmTiers fee c =
        .ok true ↔
      Before direction entry stop ∧
        Clears direction stop entry (clearance direction leverage buffer mmr fee) := by
  have hL : (2 : ℚ) ≤ leverage := by exact_mod_cast hleverage
  have hnotional : 0 < entry * quantity * c := mul_pos (mul_pos hentry hquantity) hc
  have hmargin : 0 < entry * quantity * c / leverage := div_pos hnotional (by linarith)
  have hratio : entry * quantity * c / leverage / (entry * quantity * c) = 1 / leverage := by
    field_simp
  have hestimate : estimateLiquidationPrice direction entry quantity leverage
      (entry * quantity * c / leverage) mmTiers fee c =
        if entry * liquidationRatio direction (1 / leverage) mmr fee ≤ 0 then
          .error "estimated liquidation price is non-positive"
        else .ok (entry * liquidationRatio direction (1 / leverage) mmr fee) := by
    unfold estimateLiquidationPrice
    rw [if_neg (by
        simp only [not_or, not_le]
        exact ⟨hentry, hquantity, by omega, hmargin⟩), if_neg (not_le.mpr hc),
      if_neg (not_lt.mpr hfee)]
    dsimp only
    rw [hmmr, hratio]
  unfold guarded
  rw [hestimate]
  by_cases hliq : entry * liquidationRatio direction (1 / leverage) mmr fee ≤ 0
  · rw [if_pos hliq]
    refine iff_of_false (by simp) ?_
    rintro ⟨hbefore, hclears⟩
    have hle : liquidationRatio direction (1 / leverage) mmr fee ≤ 0 := by
      by_contra hno
      exact absurd hliq (not_le.mpr (mul_pos hentry (not_le.mp hno)))
    cases direction with
    | long =>
      -- a long position dies at a positive price
      have hhalf : (1 : ℚ) / leverage ≤ 1 / 2 := one_div_le_one_div_of_le (by norm_num) hL
      simp only [liquidationRatio] at hle
      linarith
    | short =>
      simp only [Before] at hbefore
      simp only [Clears, clearance] at hclears
      nlinarith [mul_nonneg (sub_nonneg.mpr hb1) (neg_nonneg.mpr hle)]
  · rw [if_neg hliq]
    exact check_iff hentry hstop (not_le.mp hliq) hb hb1

end Guard

end FattyTrader
