import FattyTrader.LivePolicy

/-!
# Accepted live plans

What `planLivePosition` promises of a plan it accepts, on both passes of the search : the leverage
is within its range, the quantity is legal at the venue, for each child of a split at its own price,
the margin is what the quantity costs and within the cap and the margin searched with, and the stop
is guarded (`meets_of_accepted`).
-/

set_option linter.unusedSectionVars false

namespace FattyTrader

/-- A child of a split : a number of steps, within the limits of the venue at its price. -/
structure ChildLegal (metadata : SymbolMetadata) (quantity price : ℚ) (maximum : Option ℚ) :
    Prop where
  multiple : ∃ k : ℕ, quantity = k * metadata.sizeStep
  min_le : metadata.minOrderQty ≤ quantity
  notional_le : metadata.minNotional ≤ quantity * price * metadata.contractValue
  le_max : ∀ most ∈ maximum, quantity ≤ most

/-- The children of a plan in a split, a quarter at the market price and the rest at the limit
price. -/
def SplitLegal (metadata : SymbolMetadata) (split : Option (ℚ × ℚ)) (quantity : ℚ) : Prop :=
  ∀ prices ∈ split,
    ChildLegal metadata (quantity / 4) prices.1 metadata.maxMarketOrderQty ∧
      ChildLegal metadata (quantity * (3 / 4)) prices.2 metadata.maxOrderQty

namespace PlanRequest

variable {q : PlanRequest} {plan : LivePlan} {margin : ℚ} {leverage : ℕ}

/-! ## One leverage -/

theorem marketCeiled_le {qty r : ℚ} (h : q.marketCeiled qty = .ok r) : r ≤ qty := by
  unfold marketCeiled at h
  split at h
  · exact (Except.ok.inj h).ge
  · split at h
    · cases h
    · obtain rfl := Except.ok.inj h
      exact min_le_left _ _

theorem limitCeiled_le {qty r : ℚ} (h : q.limitCeiled qty = .ok r) : r ≤ qty := by
  unfold limitCeiled at h
  split at h
  · split at h
    · cases h
    · obtain rfl := Except.ok.inj h
      exact min_le_left _ _
  · exact (Except.ok.inj h).ge

theorem ceiledQuantity_le {rawQty r : ℚ} (h : q.ceiledQuantity rawQty = .ok r) : r ≤ rawQty := by
  unfold ceiledQuantity at h
  split at h
  · cases h
  next stepped hstep =>
    split at h
    · cases h
    next market hmarket =>
      exact (limitCeiled_le h).trans ((marketCeiled_le hmarket).trans (toStep_ok hstep).1)

theorem legFailure_none {leg : EntryLeg} {qty price : ℚ} {maximum : Option ℚ}
    (h : q.legFailure leg qty price maximum = none) :
    q.metadata.minOrderQty ≤ qty ∧
      q.metadata.minNotional ≤ qty * price * q.metadata.contractValue ∧
      ∀ most ∈ maximum, qty ≤ most := by
  unfold legFailure at h
  split at h
  · cases h
  next hmin =>
    split at h
    · cases h
    next hnotional =>
      split at h
      · cases h
      next hmax =>
        refine ⟨not_lt.mp hmin, not_lt.mp hnotional, fun most hm => ?_⟩
        rw [Option.mem_def.mp hm] at hmax
        simpa using hmax

/-- A total of the split's quantum that has no illegal child. -/
theorem splitLegal_of_none {qty : ℚ} {k : ℕ} (hk : qty = k * q.quantityStep)
    (h : q.splitQuantityFailure qty = none) : SplitLegal q.metadata q.split qty := by
  rintro prices hprices
  unfold splitQuantityFailure at h
  rw [Option.mem_def.mp hprices, Option.bind_some, Option.or_eq_none_iff] at h
  have hstep : q.quantityStep = q.metadata.sizeStep * 4 := by
    rw [quantityStep, Option.mem_def.mp hprices]
    simp
  obtain ⟨hmin, hnotional, hmax⟩ := legFailure_none h.1
  obtain ⟨hmin', hnotional', hmax'⟩ := legFailure_none h.2
  refine ⟨⟨⟨k, ?_⟩, hmin, hnotional, hmax⟩, ⟨⟨3 * k, ?_⟩, hmin', hnotional', hmax'⟩⟩
  · rw [hk, hstep]
    ring
  · rw [hk, hstep]
    push_cast
    ring

/-- A plan at one leverage, besides being legal : it fits the margin it was planned with, meets
the required notional, and its children are legal. -/
theorem bounds_of_planAtLeverage (hleverage : 0 < leverage)
    (h : q.planAtLeverage margin leverage = .ok (.ok plan)) :
    plan.margin ≤ margin ∧ q.required ≤ plan.notional ∧
      SplitLegal q.metadata q.split plan.quantity := by
  unfold planAtLeverage at h
  split at h
  · cases h
  next hper =>
    rw [not_le] at hper
    split at h
    · cases h
    next qty hceiled =>
      split at h
      · cases h
      · cases h
      next actualMargin capped hcapped =>
        split at h
        · cases h
        next hsplit =>
          obtain ⟨-, hqty, hmargin, hnotional, -⟩ := guardedPlan_ok h
          obtain ⟨hle, -, ⟨k, hk⟩, hactual, -, -⟩ := enforceMarginCap_ok hcapped
          have hrequired : q.required ≤ capped * q.perQty := by
            unfold guardedPlan at h
            split at h
            · cases h
            next hreq => exact not_lt.mp hreq
          have hL : (0 : ℚ) < leverage := by exact_mod_cast hleverage
          refine ⟨?_, hnotional ▸ hrequired, hqty ▸ splitLegal_of_none hk hsplit⟩
          rw [hmargin, hactual, div_le_iff₀ hL]
          exact (le_div_iff₀ hper).mp (hle.trans (ceiledQuantity_le hceiled))

end PlanRequest

/-! ## Both passes -/

/-- What is promised of an accepted plan. -/
structure LivePlan.Meets (data : LiveSizingInput) (plan : LivePlan) (roundedEntry stop : ℚ)
    (fallbackUsed : Bool) : Prop where
  low_le : max 5 data.risk.minLeverage ≤ plan.leverage
  le_high : plan.leverage ≤ min (min 20 data.desiredLeverage) data.metadata.maxLeverage
  multiple : ∃ k : ℕ, 0 < k ∧ plan.quantity = k * data.metadata.sizeStep
  split : SplitLegal data.metadata data.split plan.quantity
  margin_eq : plan.margin =
    plan.quantity * roundedEntry * data.metadata.contractValue / plan.leverage
  cap : ∀ cap ∈ data.risk.maxMarginPerTradeUsdt, plan.margin ≤ cap
  allocation : fallbackUsed = false → plan.margin ≤ data.risk.allocationPct * data.availableUsdt
  allIn : fallbackUsed = true → data.activePositions = 0 ∧ plan.margin ≤ data.availableUsdt
  notional_eq : plan.notional = plan.quantity * roundedEntry * data.metadata.contractValue
  required_le : max data.metadata.minNotional
    (data.metadata.minOrderQty * roundedEntry * data.metadata.contractValue) ≤ plan.notional
  guarded : guarded data.direction roundedEntry plan.quantity plan.leverage stop data.risk.floors
    data.metadata.priceTick data.metadata.mmTiers data.takerFeeRate data.metadata.contractValue =
      .ok true

variable {data : LiveSizingInput} {plan : LivePlan} {roundedEntry stop margin : ℚ}

theorem mem_leverages {leverage : ℕ} : leverage ∈ data.leverages ↔
    data.leverageBounds.1 ≤ leverage ∧ leverage ≤ data.leverageBounds.2 := by
  simp only [LiveSizingInput.leverages, List.mem_reverse, List.mem_range'_1]
  omega

theorem capped_le : data.capped margin ≤ margin := by
  unfold LiveSizingInput.capped
  split
  · exact le_rfl
  · exact min_le_left _ _

/-- A plan of one pass meets everything but the limit of its own pass. -/
theorem meets_of_attempt {tags : List PlanFailure} {fallbackUsed : Bool}
    (h : data.attempt roundedEntry stop margin = .ok (some plan, tags))
    (hallocation : fallbackUsed = false → margin = data.risk.allocationPct * data.availableUsdt)
    (hallIn : fallbackUsed = true → data.activePositions = 0 ∧ margin = data.availableUsdt) :
    plan.Meets data roundedEntry stop fallbackUsed := by
  obtain ⟨leverage, hmem, hplan⟩ := selectPlan_some h
  obtain ⟨rfl, hlegal⟩ := legal_of_planAtLeverage hplan
  have hbounds := mem_leverages.mp hmem
  have hpos : 0 < plan.leverage := by
    have := five_le_of_mem_leverages hmem
    omega
  obtain ⟨hmargin, hrequired, hsplit⟩ := PlanRequest.bounds_of_planAtLeverage hpos hplan
  have hwithin := hmargin.trans capped_le
  obtain ⟨k, hk⟩ := hlegal.multiple
  refine
    { low_le := hbounds.1
      le_high := ?_
      multiple := ⟨k * if data.split.isSome then 4 else 1, ?_, ?_⟩
      split := hsplit
      margin_eq := hlegal.margin_eq.trans (by rw [PlanRequest.perQty, ← mul_assoc]; rfl)
      cap := hlegal.margin_le
      allocation := fun hf => (hallocation hf) ▸ hwithin
      allIn := fun hf => ⟨(hallIn hf).1, (hallIn hf).2 ▸ hwithin⟩
      notional_eq := hlegal.notional_eq.trans (by rw [PlanRequest.perQty, ← mul_assoc]; rfl)
      required_le := hrequired
      guarded := hlegal.guarded }
  · have hhigh := hbounds.2
    simp only [LiveSizingInput.leverageBounds] at hhigh
    omega
  · have hk0 : k ≠ 0 := by
      rintro rfl
      exact hlegal.quantity_pos.ne' (by simpa using hk)
    split <;> omega
  · rw [hk, PlanRequest.quantityStep]
    by_cases hs : data.split.isSome
    · simp only [LiveSizingInput.planRequest, hs, if_true]
      push_cast
      ring
    · simp only [LiveSizingInput.planRequest, hs]
      push_cast
      ring

/-- An accepted plan was found by the pass its flag says, the second one only with no position
open. -/
theorem attempt_of_accepted {fallbackUsed : Bool}
    (h : data.planLivePosition = .ok (.accepted plan roundedEntry stop fallbackUsed)) :
    ∃ margin tags, data.attempt roundedEntry stop margin = .ok (some plan, tags) ∧
      (fallbackUsed = false → margin = data.risk.allocationPct * data.availableUsdt) ∧
      (fallbackUsed = true → data.activePositions = 0 ∧ margin = data.availableUsdt) := by
  unfold LiveSizingInput.planLivePosition at h
  split at h
  · cases h
  split at h
  · cases h
  split at h
  · cases h
  split at h
  · cases h
  split at h
  · cases h
  unfold LiveSizingInput.planWithStop at h
  split at h
  · cases h
  next htry =>
    injection h with h
    injection h with h₁ h₂ h₃ h₄
    subst h₁ h₂ h₃ h₄
    exact ⟨_, _, htry, fun _ => rfl, fun hf => Bool.noConfusion hf⟩
  · split at h
    · cases h
    split at h
    · cases h
    split at h
    · cases h
    next hactive =>
      unfold LiveSizingInput.allIn at h
      split at h
      · cases h
      next htry =>
        injection h with h
        injection h with h₁ h₂ h₃ h₄
        subst h₁ h₂ h₃ h₄
        exact ⟨_, _, htry, fun hf => Bool.noConfusion hf, fun _ => ⟨not_not.mp hactive, rfl⟩⟩
      · cases h

/-- Every accepted plan meets what is promised of it, at the rounded entry and the stop it was
planned with. -/
theorem meets_of_accepted {fallbackUsed : Bool}
    (h : data.planLivePosition = .ok (.accepted plan roundedEntry stop fallbackUsed)) :
    roundPriceToTick data.entry data.metadata.priceTick = some roundedEntry ∧
      data.stop = some stop ∧ plan.Meets data roundedEntry stop fallbackUsed := by
  obtain ⟨hround, hstop, -, -⟩ := legal_of_accepted h
  obtain ⟨margin, tags, htry, hallocation, hallIn⟩ := attempt_of_accepted h
  exact ⟨hround, hstop, meets_of_attempt htry hallocation hallIn⟩

/-! ### A long position at ten times -/

/-- A pair with a tick of 1 and a step of 1/10. -/
def tenthPair : SymbolMetadata where
  symbol := "SOLUSDT"
  priceTick := 1
  sizeStep := 1 / 10
  minOrderQty := 1 / 10
  maxOrderQty := none
  maxMarketOrderQty := none
  contractValue := 1
  maxLeverage := 50
  minNotional := 5
  mmTiers := [⟨none, 4 / 1000, by decide +kernel⟩]
  sizeStep_pos := by decide +kernel
  minOrderQty_pos := by decide +kernel
  contractValue_pos := Db.oneContract_pos

/-- A policy that may back off to five times, with a tenth of the balance for a position. -/
def backOffRisk : BitgetLiveRiskConfig where
  minLeverage := 5
  maxLeverage := 20
  allocationPct := 1 / 10
  maxNormalPositions := 5
  floors := ⟨1 / 10, 0, 0, 0⟩
  maxMarginPerTradeUsdt := none
  five_le := le_rfl
  min_le_max := by decide
  max_eq := BitgetLiveRiskConfig.pinned_max
  allocation_pos := by decide +kernel
  buffer_pos := by decide +kernel
  buffer_le := by decide +kernel
  cap_pos := by simp

/-- A long entry at 100 with its stop at 92, the balance being 100. -/
def wideStop : LiveSizingInput where
  metadata := tenthPair
  risk := backOffRisk
  availableUsdt := 100
  desiredLeverage := 20
  entry := 100
  direction := .long
  activePositions := 0
  stopLoss := some 92

/-- The stop is guarded at ten times, and at no higher leverage. -/
theorem wideStop_meets :
    (⟨10, 1, 10, 100, 4523 / 50⟩ : LivePlan).Meets wideStop 100 92 false :=
  (meets_of_accepted (by decide +kernel)).2.2

end FattyTrader
