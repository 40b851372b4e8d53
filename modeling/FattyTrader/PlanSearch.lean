import FattyTrader.LivePlans

/-!
# The search for a live plan

`_plan_at_leverage` brings a quantity to the guard (`legalQuantity`), and answers with a plan, a tag
or an exception of the liquidation estimate, which only a short position can meet
(`planAtLeverage_of_legal`, `planAtLeverage_of_illegal`). The search stops at the highest leverage
that is not tagged (`selectPlan_some_iff`, `selectPlan_error_iff`).

Two tags of the first pass end the search although a larger margin may help. A leverage whose stop
is not guarded ends it, although a lower one may only lack margin for the minimum notional ; and a
quantity below the minimum order is tagged with the margin cap, whatever the cap.
`complete_iff` says by the single leverages when no plan of the whole balance is missed,
`decides_iff` when the planner decides at all.
-/

set_option linter.unusedSectionVars false

namespace FattyTrader

/-- The checks of construction of a `LiveSizingInput`, its metadata and its policy. -/
structure LiveSizingInput.Valid (data : LiveSizingInput) : Prop where
  available_pos : 0 < data.availableUsdt
  entry_pos : 0 < data.entry
  desired : 5 ≤ data.desiredLeverage ∧ data.desiredLeverage ≤ 20
  stopLoss_pos : ∀ s ∈ data.stopLoss, 0 < s
  atr_pos : ∀ a ∈ data.atr, 0 < a
  fee_nonneg : 0 ≤ data.takerFeeRate
  split_pos : ∀ p ∈ data.split, 0 < p.1 ∧ 0 < p.2
  priceTick_pos : 0 < data.metadata.priceTick
  maxOrderQty_pos : ∀ m ∈ data.metadata.maxOrderQty, 0 < m
  maxMarketOrderQty_pos : ∀ m ∈ data.metadata.maxMarketOrderQty, 0 < m
  one_le_maxLeverage : 1 ≤ data.metadata.maxLeverage
  minNotional_nonneg : 0 ≤ data.metadata.minNotional
  mmr_le : ∀ t ∈ data.metadata.mmTiers, t.mmr ≤ 1
  allocation_le : data.risk.allocationPct ≤ 1
  positions_pos : 0 < data.risk.maxNormalPositions
  gapPct : 0 ≤ data.risk.floors.minimumGapPct ∧ data.risk.floors.minimumGapPct ≤ 1
  slippage_nonneg : 0 ≤ data.risk.floors.latencySlippageAllowance

/-! ## The guard -/

theorem selectMmr_isOk {mmTiers : List MMTier} (h : mmTiers ≠ []) (notional : ℚ) :
    ∃ mmr, selectMmr notional mmTiers = .ok mmr ∧ 0 ≤ mmr := by
  unfold selectMmr
  rw [List.getLast?_eq_some_getLast h]
  exact ⟨_, rfl, MMTier.mmr_nonneg _⟩

/-- The guard is the check of the stop against the estimate, unless the estimate raises. -/
theorem guarded_eq {direction : Direction} {entry quantity stop mmr fee priceTick c : ℚ}
    {leverage : ℕ} {floors : LiquidationFloors} {mmTiers : List MMTier} (hentry : 0 < entry)
    (hquantity : 0 < quantity) (hleverage : 0 < leverage) (hc : 0 < c) (hfee : 0 ≤ fee)
    (hmmr : selectMmr (entry * quantity * c) mmTiers = .ok mmr) :
    guarded direction entry quantity leverage stop floors priceTick mmTiers fee c =
      if entry * liquidationRatio direction (1 / leverage) mmr fee ≤ 0 then
        .error "estimated liquidation price is non-positive"
      else checkSlBeforeLiquidation direction entry stop
        (entry * liquidationRatio direction (1 / leverage) mmr fee) floors priceTick := by
  have hL : (0 : ℚ) < leverage := by exact_mod_cast hleverage
  have hnotional : 0 < entry * quantity * c := mul_pos (mul_pos hentry hquantity) hc
  have hmargin : 0 < entry * quantity * c / leverage := div_pos hnotional hL
  have hratio : entry * quantity * c / leverage / (entry * quantity * c) = 1 / leverage := by
    field_simp
  unfold guarded estimateLiquidationPrice
  rw [if_neg (by
      simp only [not_or, not_le]
      exact ⟨hentry, hquantity, by omega, hmargin⟩), if_neg (not_le.mpr hc),
    if_neg (not_lt.mpr hfee)]
  dsimp only
  rw [hmmr, hratio]
  by_cases hliq : entry * liquidationRatio direction (1 / leverage) mmr fee ≤ 0
  · simp only [if_pos hliq]
  · simp only [if_neg hliq]

namespace PlanRequest

/-- What a request of a valid input has. -/
structure Valid (q : PlanRequest) : Prop where
  entry_pos : 0 < q.roundedEntry
  fee_nonneg : 0 ≤ q.takerFeeRate
  maxOrderQty_pos : ∀ m ∈ q.metadata.maxOrderQty, 0 < m
  maxMarketOrderQty_pos : ∀ m ∈ q.metadata.maxMarketOrderQty, 0 < m
  cap_pos : ∀ cap ∈ q.cap, 0 < cap
  tiers : q.metadata.mmTiers ≠ []
  buffer_pos : 0 < q.floors.buffer
  buffer_le : q.floors.buffer ≤ 1
  gapPct_nonneg : 0 ≤ q.floors.minimumGapPct
  slippage_nonneg : 0 ≤ q.floors.latencySlippageAllowance

/-- The quantity a leverage brings to the guard : within the ceilings and the cap, at least the
minimum order, legal in both children, and worth the required notional. -/
def legalQuantity (q : PlanRequest) (margin : ℚ) (leverage : ℕ) : Option ℚ :=
  match q.ceiledQuantity (margin * leverage / q.perQty) with
  | .error _ => none
  | .ok qty =>
    match q.enforceMarginCap leverage qty with
    | .ok (some (_, capped)) =>
      if (q.splitQuantityFailure capped).isNone ∧ q.required ≤ capped * q.perQty then some capped
      else none
    | _ => none

/-- The guard at the quantity of a leverage. -/
def guard (q : PlanRequest) (leverage : ℕ) (qty : ℚ) : Except String Bool :=
  guarded q.direction q.roundedEntry qty leverage q.stop q.floors q.metadata.priceTick
    q.metadata.mmTiers q.takerFeeRate q.metadata.contractValue

variable {q : PlanRequest} {margin : ℚ} {leverage : ℕ}

theorem Valid.perQty_pos (h : q.Valid) : 0 < q.perQty :=
  mul_pos h.entry_pos q.metadata.contractValue_pos

theorem quantityStep_pos : 0 < q.quantityStep := by
  unfold quantityStep
  split
  · exact mul_pos q.metadata.sizeStep_pos (by norm_num)
  · exact mul_pos q.metadata.sizeStep_pos one_pos

theorem toStep_isOk {quantity step : ℚ} (hq : 0 < quantity) (hs : 0 < step) :
    ∃ r, toStep quantity step = .ok r := by
  unfold toStep roundQtyToStep
  rw [if_neg (by simp only [not_or, not_le]; exact ⟨hq, hs⟩)]
  exact ⟨_, rfl⟩

theorem toStep_error {quantity step : ℚ} {e : String} (h : toStep quantity step = .error e) :
    quantity ≤ 0 ∨ step ≤ 0 := by
  by_contra hno
  simp only [not_or, not_le] at hno
  obtain ⟨r, hr⟩ := toStep_isOk hno.1 hno.2
  rw [hr] at h
  cases h

theorem ceiledQuantity_isOk (h : q.Valid) {rawQty : ℚ} (hraw : 0 < rawQty) :
    ∃ r, q.ceiledQuantity rawQty = .ok r := by
  obtain ⟨stepped, hstep⟩ := toStep_isOk hraw (quantityStep_pos (q := q))
  have hmarket : ∀ qty, ∃ r, q.marketCeiled qty = .ok r := by
    intro qty
    unfold marketCeiled
    split
    · exact ⟨_, rfl⟩
    next maximum hmax =>
      obtain ⟨ceiling, hceiling⟩ :=
        toStep_isOk (h.maxMarketOrderQty_pos maximum hmax) q.metadata.sizeStep_pos
      rw [hceiling]
      exact ⟨_, rfl⟩
  have hlimit : ∀ qty, ∃ r, q.limitCeiled qty = .ok r := by
    intro qty
    unfold limitCeiled
    split
    next prices maximum hprices hmax =>
      obtain ⟨ceiling, hceiling⟩ := toStep_isOk (h.maxOrderQty_pos maximum hmax)
        (mul_pos q.metadata.sizeStep_pos (by norm_num : (0 : ℚ) < 3))
      rw [hceiling]
      exact ⟨_, rfl⟩
    · exact ⟨_, rfl⟩
  obtain ⟨market, hmarket⟩ := hmarket stepped
  obtain ⟨limit, hlimit⟩ := hlimit market
  exact ⟨limit, by simp only [ceiledQuantity, hstep, hmarket, hlimit]⟩

theorem enforceMarginCap_isOk (h : q.Valid) (hleverage : 0 < leverage) (qty : ℚ) :
    ∃ r, q.enforceMarginCap leverage qty = .ok r := by
  unfold enforceMarginCap
  split
  · exact ⟨_, rfl⟩
  next hpos =>
    simp only [not_or, not_le] at hpos
    have hL : (0 : ℚ) < leverage := by exact_mod_cast hleverage
    dsimp only
    split
    next e he =>
      rcases toStep_error he with hle | hle
      · rcases min_le_iff.mp hle with hle | hle
        · exact absurd hle (not_le.mpr hpos.1)
        · split at hle
          · exact absurd hle (not_le.mpr hpos.1)
          next cap hcap =>
            exact absurd hle (not_le.mpr (div_pos (mul_pos (h.cap_pos cap hcap) hL) hpos.2))
      · exact absurd hle (not_le.mpr quantityStep_pos)
    · split
      · exact ⟨_, rfl⟩
      split
      · exact ⟨_, rfl⟩
      · exact ⟨_, rfl⟩

/-- Without a legal quantity a leverage is tagged, and not with the guard. -/
theorem planAtLeverage_of_illegal (h : q.Valid) (hmargin : 0 < margin) (hleverage : 0 < leverage)
    (hqty : q.legalQuantity margin leverage = none) :
    ∃ tag, q.planAtLeverage margin leverage = .ok (.error tag) ∧ tag ≠ .slGuard := by
  have hL : (0 : ℚ) < leverage := by exact_mod_cast hleverage
  obtain ⟨qty, hceiled⟩ := ceiledQuantity_isOk h (div_pos (mul_pos hmargin hL) h.perQty_pos)
  obtain ⟨r, hcapped⟩ := enforceMarginCap_isOk h hleverage qty
  have hsplit : ∀ {qty : ℚ} {tag : PlanFailure}, q.splitQuantityFailure qty = some tag →
      tag ≠ .slGuard := by
    rintro qty tag htag rfl
    unfold splitQuantityFailure at htag
    obtain ⟨prices, -, htag⟩ := Option.bind_eq_some_iff.mp htag
    have hleg : ∀ {leg : EntryLeg} {qty price : ℚ} {maximum : Option ℚ},
        q.legFailure leg qty price maximum ≠ some .slGuard := by
      intro leg qty price maximum
      unfold legFailure
      split
      · simp
      split
      · simp
      split <;> simp
    rcases Option.or_eq_some_iff.mp htag with htag | ⟨-, htag⟩
    · exact hleg htag
    · exact hleg htag
  unfold planAtLeverage
  rw [if_neg (not_le.mpr h.perQty_pos), hceiled]
  dsimp only
  rw [hcapped]
  cases r with
  | none =>
    refine ⟨_, rfl, ?_⟩
    cases hs : q.splitQuantityFailure qty with
    | none => simp
    | some tag => exact hsplit hs
  | some p =>
    obtain ⟨actualMargin, capped⟩ := p
    dsimp only
    cases hs : q.splitQuantityFailure capped with
    | some tag => exact ⟨tag, rfl, hsplit hs⟩
    | none =>
      simp only [legalQuantity, hceiled, hcapped, hs, Option.isNone_none, true_and] at hqty
      have hreq : ¬ q.required ≤ capped * q.perQty := by
        intro hle
        rw [if_pos hle] at hqty
        cases hqty
      exact ⟨.minNotional, by simp only [guardedPlan, if_pos (not_le.mp hreq)], by simp⟩

/-- With a legal quantity a leverage answers what the guard does. -/
theorem planAtLeverage_of_legal (h : q.Valid) {qty : ℚ}
    (hqty : q.legalQuantity margin leverage = some qty) :
    0 < qty ∧
    ((∃ e, q.guard leverage qty = .error e ∧ q.planAtLeverage margin leverage = .error e) ∨
      (q.guard leverage qty = .ok false ∧
        q.planAtLeverage margin leverage = .ok (.error .slGuard)) ∨
      ∃ plan, q.guard leverage qty = .ok true ∧ q.planAtLeverage margin leverage = .ok (.ok plan) ∧
        plan.quantity = qty) := by
  unfold legalQuantity at hqty
  split at hqty
  · cases hqty
  next ceiled hceiled =>
    split at hqty
    next actualMargin capped hcapped =>
      split at hqty
      next hlegal =>
        obtain rfl := Option.some.inj hqty
        obtain ⟨-, hmin, -, hactual, -, -⟩ := enforceMarginCap_ok hcapped
        refine ⟨q.metadata.minOrderQty_pos.trans_le hmin, ?_⟩
        have hmargin : q.roundedEntry * capped * q.metadata.contractValue / leverage =
            actualMargin := by
          rw [hactual, perQty]
          ring
        have hplan : q.planAtLeverage margin leverage = q.guardedPlan leverage capped actualMargin := by
          unfold planAtLeverage
          rw [if_neg (not_le.mpr h.perQty_pos), hceiled]
          dsimp only
          rw [hcapped]
          dsimp only
          rw [Option.isNone_iff_eq_none.mp hlegal.1]
        rw [hplan, guardedPlan, if_neg (not_lt.mpr hlegal.2), guard, guarded, hmargin]
        cases estimateLiquidationPrice q.direction q.roundedEntry capped leverage actualMargin
            q.metadata.mmTiers q.takerFeeRate q.metadata.contractValue with
        | error e => exact Or.inl ⟨e, rfl, rfl⟩
        | ok liq =>
          dsimp only
          cases checkSlBeforeLiquidation q.direction q.roundedEntry q.stop liq q.floors
              q.metadata.priceTick with
          | error e => exact Or.inl ⟨e, rfl, rfl⟩
          | ok safe =>
            cases safe with
            | false => exact Or.inr (Or.inl ⟨rfl, rfl⟩)
            | true => exact Or.inr (Or.inr ⟨_, rfl, rfl, rfl⟩)
      · cases hqty
    · cases hqty

/-- The estimate raises at a leverage : a short position whose maintenance and fee rates eat the
whole price. -/
def Raises (q : PlanRequest) (margin : ℚ) (leverage : ℕ) : Prop :=
  q.direction = .short ∧ ∃ qty mmr, q.legalQuantity margin leverage = some qty ∧
    selectMmr (q.roundedEntry * qty * q.metadata.contractValue) q.metadata.mmTiers = .ok mmr ∧
    1 + 1 / (leverage : ℚ) ≤ mmr + q.takerFeeRate

theorem guard_error_iff (h : q.Valid) (hleverage : 2 ≤ leverage) {qty : ℚ} (hqty : 0 < qty) :
    (∃ e, q.guard leverage qty = .error e) ↔ q.direction = .short ∧ ∃ mmr,
      selectMmr (q.roundedEntry * qty * q.metadata.contractValue) q.metadata.mmTiers = .ok mmr ∧
      1 + 1 / (leverage : ℚ) ≤ mmr + q.takerFeeRate := by
  have hL : (2 : ℚ) ≤ leverage := by exact_mod_cast hleverage
  obtain ⟨mmr, hmmr, hmmr0⟩ := selectMmr_isOk h.tiers
    (q.roundedEntry * qty * q.metadata.contractValue)
  have hcheck : ∀ liq, ∃ safe, checkSlBeforeLiquidation q.direction q.roundedEntry q.stop liq
      q.floors q.metadata.priceTick = .ok safe := by
    intro liq
    unfold checkSlBeforeLiquidation
    split
    · exact ⟨_, rfl⟩
    rw [if_neg (by
      simp only [not_or, not_lt]
      exact ⟨h.buffer_pos.le, h.gapPct_nonneg, h.slippage_nonneg⟩)]
    cases q.direction <;> exact ⟨_, rfl⟩
  have hguard : (∃ e, q.guard leverage qty = .error e) ↔
      liquidationRatio q.direction (1 / leverage) mmr q.takerFeeRate ≤ 0 := by
    rw [guard, guarded_eq h.entry_pos hqty (by omega) q.metadata.contractValue_pos h.fee_nonneg hmmr]
    by_cases hliq : q.roundedEntry *
        liquidationRatio q.direction (1 / leverage) mmr q.takerFeeRate ≤ 0
    · rw [if_pos hliq]
      exact iff_of_true ⟨_, rfl⟩ (nonpos_of_mul_nonpos_right hliq h.entry_pos)
    · rw [if_neg hliq]
      obtain ⟨safe, hsafe⟩ := hcheck (q.roundedEntry *
        liquidationRatio q.direction (1 / leverage) mmr q.takerFeeRate)
      rw [hsafe]
      refine iff_of_false (by simp) fun hle => hliq ?_
      exact mul_nonpos_of_nonneg_of_nonpos h.entry_pos.le hle
  rw [hguard, hmmr]
  have hhalf : (1 : ℚ) / leverage ≤ 1 / 2 := one_div_le_one_div_of_le (by norm_num) hL
  have hfee := h.fee_nonneg
  cases q.direction with
  | long =>
    refine iff_of_false (fun hle => ?_) (by simp)
    simp only [liquidationRatio] at hle
    linarith
  | short =>
    simp only [liquidationRatio, true_and, Except.ok.injEq, exists_eq_left']
    constructor <;> intro hle <;> linarith

/-- A leverage raises exactly where the estimate does. -/
theorem planAtLeverage_error_iff (h : q.Valid) (hmargin : 0 < margin) (hleverage : 2 ≤ leverage) :
    (∃ e, q.planAtLeverage margin leverage = .error e) ↔ q.Raises margin leverage := by
  cases hqty : q.legalQuantity margin leverage with
  | none =>
    obtain ⟨tag, htag, -⟩ := planAtLeverage_of_illegal h hmargin (by omega) hqty
    rw [htag]
    refine iff_of_false (by simp) ?_
    rintro ⟨-, qty, mmr, hsome, -⟩
    rw [hqty] at hsome
    cases hsome
  | some qty =>
    obtain ⟨hpos, hcases⟩ := planAtLeverage_of_legal h hqty
    have hguard := guard_error_iff h hleverage hpos
    have hsame : (∃ e, q.planAtLeverage margin leverage = .error e) ↔
        ∃ e, q.guard leverage qty = .error e := by
      rcases hcases with ⟨e, hg, hp⟩ | ⟨hg, hp⟩ | ⟨plan, hg, hp, -⟩ <;> simp [hg, hp]
    rw [hsame, hguard, Raises, hqty]
    simp

/-- A leverage has a plan exactly where its quantity is legal and guarded. -/
theorem planAtLeverage_ok_iff (h : q.Valid) (hmargin : 0 < margin) (hleverage : 0 < leverage) :
    (∃ plan, q.planAtLeverage margin leverage = .ok (.ok plan)) ↔
      ∃ qty, q.legalQuantity margin leverage = some qty ∧ q.guard leverage qty = .ok true := by
  cases hqty : q.legalQuantity margin leverage with
  | none =>
    obtain ⟨tag, htag, -⟩ := planAtLeverage_of_illegal h hmargin (by omega) hqty
    rw [htag]
    simp
  | some qty =>
    obtain ⟨-, hcases⟩ := planAtLeverage_of_legal h hqty
    rcases hcases with ⟨e, hg, hp⟩ | ⟨hg, hp⟩ | ⟨plan, hg, hp, -⟩ <;> simp [hg, hp]

end PlanRequest

/-! ## The search -/

section Search

variable {attempt : ℕ → Except String (Except PlanFailure LivePlan)} {leverages : List ℕ}
  {leverage first : ℕ} {tags : List PlanFailure}

/-- The leverage fails with a tag. -/
def Tagged (attempt : ℕ → Except String (Except PlanFailure LivePlan)) (leverage : ℕ) : Prop :=
  ∃ tag, attempt leverage = .ok (.error tag)

/-- The search gets to the leverage : the higher ones are tagged. -/
def Reaches (attempt : ℕ → Except String (Except PlanFailure LivePlan)) (leverages : List ℕ)
    (leverage : ℕ) : Prop :=
  leverage ∈ leverages ∧ ∀ higher ∈ leverages, leverage < higher → Tagged attempt higher

theorem reaches_cons (hfirst : ∀ l ∈ leverages, l < first) :
    Reaches attempt (first :: leverages) leverage ↔
      leverage = first ∨ (Tagged attempt first ∧ Reaches attempt leverages leverage) := by
  constructor
  · rintro ⟨hmem, htagged⟩
    rcases List.mem_cons.mp hmem with rfl | hmem
    · exact Or.inl rfl
    · exact Or.inr ⟨htagged first List.mem_cons_self (hfirst leverage hmem), hmem,
        fun higher hh => htagged higher (List.mem_cons_of_mem _ hh)⟩
  · rintro (rfl | ⟨htag, hmem, htagged⟩)
    · refine ⟨List.mem_cons_self, fun higher hh hlt => ?_⟩
      rcases List.mem_cons.mp hh with rfl | hh
      · exact absurd hlt (lt_irrefl _)
      · exact absurd (hfirst higher hh) (by omega)
    · refine ⟨List.mem_cons_of_mem _ hmem, fun higher hh hlt => ?_⟩
      rcases List.mem_cons.mp hh with rfl | hh
      · exact htag
      · exact htagged higher hh hlt

/-- The search raises where a leverage it gets to does. -/
theorem selectPlan_error_iff (hdesc : leverages.Pairwise (· > ·)) :
    (∃ e, selectPlan attempt leverages tags = .error e) ↔
      ∃ leverage, Reaches attempt leverages leverage ∧ ∃ e, attempt leverage = .error e := by
  induction leverages generalizing tags with
  | nil => simp [selectPlan, Reaches]
  | cons first leverages ih =>
    obtain ⟨hfirst, hdesc⟩ := List.pairwise_cons.mp hdesc
    simp only [reaches_cons hfirst, Tagged]
    unfold selectPlan
    cases hattempt : attempt first with
    | error e => exact iff_of_true ⟨e, rfl⟩ ⟨first, Or.inl rfl, e, hattempt⟩
    | ok answer =>
      cases answer with
      | error tag =>
        dsimp only
        rw [ih hdesc]
        constructor
        · rintro ⟨l, hl, he⟩
          exact ⟨l, Or.inr ⟨⟨tag, rfl⟩, hl⟩, he⟩
        · rintro ⟨l, rfl | ⟨-, hl⟩, he⟩
          · simp [hattempt] at he
          · exact ⟨l, hl, he⟩
      | ok plan =>
        refine iff_of_false (by simp) ?_
        rintro ⟨l, rfl | ⟨⟨tag, htag⟩, -⟩, he⟩
        · simp [hattempt] at he
        · simp at htag

/-- The search finds a plan where a leverage it gets to has one. -/
theorem selectPlan_some_iff (hdesc : leverages.Pairwise (· > ·)) :
    (∃ plan tags', selectPlan attempt leverages tags = .ok (some plan, tags')) ↔
      ∃ leverage, Reaches attempt leverages leverage ∧ ∃ plan, attempt leverage = .ok (.ok plan) := by
  induction leverages generalizing tags with
  | nil => simp [selectPlan, Reaches]
  | cons first leverages ih =>
    obtain ⟨hfirst, hdesc⟩ := List.pairwise_cons.mp hdesc
    simp only [reaches_cons hfirst, Tagged]
    unfold selectPlan
    cases hattempt : attempt first with
    | error e =>
      refine iff_of_false (by simp) ?_
      rintro ⟨l, rfl | ⟨⟨tag, htag⟩, -⟩, he⟩
      · simp [hattempt] at he
      · simp at htag
    | ok answer =>
      cases answer with
      | error tag =>
        dsimp only
        rw [ih hdesc]
        constructor
        · rintro ⟨l, hl, he⟩
          exact ⟨l, Or.inr ⟨⟨tag, rfl⟩, hl⟩, he⟩
        · rintro ⟨l, rfl | ⟨-, hl⟩, he⟩
          · simp [hattempt] at he
          · exact ⟨l, hl, he⟩
      | ok plan => exact iff_of_true ⟨plan, tags, rfl⟩ ⟨first, Or.inl rfl, plan, hattempt⟩

/-- Without a plan every leverage is tagged, and these are the tags. -/
theorem selectPlan_none {tags' : List PlanFailure}
    (h : selectPlan attempt leverages tags = .ok (none, tags')) :
    (∀ l ∈ leverages, Tagged attempt l) ∧
      ∀ tag, tag ∈ tags' ↔ tag ∈ tags ∨ ∃ l ∈ leverages, attempt l = .ok (.error tag) := by
  induction leverages generalizing tags with
  | nil =>
    cases h
    simp
  | cons first leverages ih =>
    unfold selectPlan at h
    split at h
    · cases h
    next tag htag =>
      obtain ⟨htagged, hmem⟩ := ih h
      refine ⟨List.forall_mem_cons.mpr ⟨⟨tag, htag⟩, htagged⟩, fun other => ?_⟩
      rw [hmem other, List.mem_append, List.mem_singleton, List.exists_mem_cons_iff, htag, or_assoc]
      simp only [Except.ok.injEq, Except.error.injEq, eq_comm]
    · cases h

/-- A search that gets to a plan does not raise, nor is every leverage tagged. -/
theorem selectPlan_exclusive (hdesc : leverages.Pairwise (· > ·))
    (h : ∀ l ∈ leverages, Tagged attempt l) :
    ∃ tags', selectPlan attempt leverages tags = .ok (none, tags') := by
  cases hsearch : selectPlan attempt leverages tags with
  | error e =>
    obtain ⟨l, ⟨hmem, -⟩, e, he⟩ := (selectPlan_error_iff hdesc).mp ⟨e, hsearch⟩
    obtain ⟨tag, htag⟩ := h l hmem
    rw [htag] at he
    cases he
  | ok r =>
    obtain ⟨_ | plan, tags'⟩ := r
    · exact ⟨tags', rfl⟩
    · obtain ⟨l, ⟨hmem, -⟩, plan, hplan⟩ := (selectPlan_some_iff hdesc).mp ⟨plan, tags', hsearch⟩
      obtain ⟨tag, htag⟩ := h l hmem
      rw [htag] at hplan
      cases hplan

end Search

/-! ## Both searches -/

theorem roundPriceToTick_isSome_iff {price tick : ℚ} (hprice : 0 < price) (htick : 0 < tick) :
    (∃ r, roundPriceToTick price tick = some r) ↔ tick / 2 ≤ price := by
  have hsteps : tick / 2 ≤ price ↔ (1 : ℤ) ≤ ⌊price / tick + 1 / 2⌋ := by
    rw [Int.le_floor, ← sub_le_iff_le_add, le_div_iff₀ htick]
    push_cast
    constructor <;> intro h <;> linarith
  unfold roundPriceToTick
  rw [if_neg (by simp only [not_or, not_le]; exact ⟨hprice, htick⟩), hsteps]
  dsimp only
  by_cases hround : (⌊price / tick + 1 / 2⌋ : ℚ) * tick ≤ 0
  · rw [if_pos hround]
    have hle : (⌊price / tick + 1 / 2⌋ : ℚ) ≤ 0 := nonpos_of_mul_nonpos_left hround htick
    refine iff_of_false (by simp) fun h => ?_
    have : (1 : ℚ) ≤ ⌊price / tick + 1 / 2⌋ := by exact_mod_cast h
    linarith
  · rw [if_neg hround]
    have hpos : (0 : ℚ) < ⌊price / tick + 1 / 2⌋ :=
      pos_of_mul_pos_left (not_le.mp hround) htick.le
    exact iff_of_true ⟨_, rfl⟩ (by exact_mod_cast hpos)

namespace LiveSizingInput

variable (data : LiveSizingInput) (roundedEntry stop margin : ℚ)

/-- What a leverage answers in a search with a margin. -/
def planAt (leverage : ℕ) : Except String (Except PlanFailure LivePlan) :=
  (data.planRequest roundedEntry stop).planAtLeverage (data.capped margin) leverage

/-- The margin of the first search. -/
def allocation : ℚ := data.risk.allocationPct * data.availableUsdt

/-- A search with the margin gets to a leverage that has a plan. -/
def FindsPlan : Prop :=
  ∃ leverage, Reaches (data.planAt roundedEntry stop margin) data.leverages leverage ∧
    ∃ plan, data.planAt roundedEntry stop margin leverage = .ok (.ok plan)

/-- Some leverage has the tag at the allocation. -/
def AllocationTag (tag : PlanFailure) : Prop :=
  ∃ leverage ∈ data.leverages,
    data.planAt roundedEntry stop data.allocation leverage = .ok (.error tag)

/-- The first search leaves it to a second one : every leverage is tagged at the allocation, none
with the guard, and with the margin cap only besides the minimum notional. -/
structure FallsBack : Prop where
  tagged : ∀ leverage ∈ data.leverages,
    Tagged (data.planAt roundedEntry stop data.allocation) leverage
  notGuard : ¬ data.AllocationTag roundedEntry stop .slGuard
  notCap : data.AllocationTag roundedEntry stop .marginCap →
    data.AllocationTag roundedEntry stop .minNotional

/-- A leverage has a plan of the margin : its quantity is legal and guarded. -/
def HasPlan (leverage : ℕ) : Prop :=
  ∃ qty, (data.planRequest roundedEntry stop).legalQuantity (data.capped margin) leverage =
      some qty ∧
    (data.planRequest roundedEntry stop).guard leverage qty = .ok true

/-- The liquidation estimate raises at no higher leverage. -/
def NoneRaises (leverage : ℕ) : Prop :=
  ∀ higher ∈ data.leverages, leverage < higher →
    ¬ (data.planRequest roundedEntry stop).Raises (data.capped margin) higher

/-- A leverage has a plan of the whole balance. -/
def AllInPlan (leverage : ℕ) : Prop := data.HasPlan roundedEntry stop data.availableUsdt leverage

/-- No leverage has a legal quantity at the allocation, and where one is tagged with the margin cap,
another is with the minimum notional. -/
structure Unaffordable : Prop where
  illegal : ∀ leverage ∈ data.leverages,
    (data.planRequest roundedEntry stop).legalQuantity (data.capped data.allocation) leverage = none
  notCap : data.AllocationTag roundedEntry stop .marginCap →
    data.AllocationTag roundedEntry stop .minNotional

/-- No plan of the whole balance is missed. -/
structure Complete : Prop where
  accepts : ∀ roundedEntry stop,
    roundPriceToTick data.entry data.metadata.priceTick = some roundedEntry →
      data.stop = some stop → (∃ leverage ∈ data.leverages, data.AllInPlan roundedEntry stop leverage) →
        ∃ plan fallbackUsed,
          data.planLivePosition = .ok (.accepted plan roundedEntry stop fallbackUsed)
  rejects : ∀ roundedEntry stop reason fallbackUsed,
    roundPriceToTick data.entry data.metadata.priceTick = some roundedEntry →
      data.stop = some stop → data.planLivePosition = .ok (.skipped reason fallbackUsed) →
        ¬ ∃ leverage ∈ data.leverages, data.AllInPlan roundedEntry stop leverage

/-- Nothing on the way to a decision raises : the position is refused before its prices are looked
at, or the entry is at least half a tick and no leverage a search gets to raises in the liquidation
estimate. -/
def Decides : Prop :=
  data.risk.maxNormalPositions ≤ data.activePositions ∨
    data.leverageBounds.2 < data.leverageBounds.1 ∨
    (data.metadata.priceTick / 2 ≤ data.entry ∧ ∀ roundedEntry stop,
      roundPriceToTick data.entry data.metadata.priceTick = some roundedEntry →
        data.stop = some stop →
          (∀ leverage,
            Reaches (data.planAt roundedEntry stop data.allocation) data.leverages leverage →
              ¬ (data.planRequest roundedEntry stop).Raises (data.capped data.allocation) leverage) ∧
          (data.FallsBack roundedEntry stop → data.activePositions = 0 → ∀ leverage,
            Reaches (data.planAt roundedEntry stop data.availableUsdt) data.leverages leverage →
              ¬ (data.planRequest roundedEntry stop).Raises (data.capped data.availableUsdt)
                leverage))

variable {data roundedEntry stop margin}

theorem leverages_descending : data.leverages.Pairwise (· > ·) := by
  unfold leverages
  rw [List.pairwise_reverse]
  exact List.pairwise_lt_range'

theorem findsPlan_iff : data.FindsPlan roundedEntry stop margin ↔
    ∃ plan tags, data.attempt roundedEntry stop margin = .ok (some plan, tags) :=
  (selectPlan_some_iff leverages_descending).symm

theorem attempt_error_iff : (∃ e, data.attempt roundedEntry stop margin = .error e) ↔
    ∃ leverage, Reaches (data.planAt roundedEntry stop margin) data.leverages leverage ∧
      ∃ e, data.planAt roundedEntry stop margin leverage = .error e :=
  selectPlan_error_iff leverages_descending

theorem FallsBack.none (h : data.FallsBack roundedEntry stop) :
    ∃ tags, data.attempt roundedEntry stop data.allocation = .ok (none, tags) :=
  selectPlan_exclusive leverages_descending h.tagged

theorem fallsBack_iff {tags : List PlanFailure}
    (h : data.attempt roundedEntry stop data.allocation = .ok (none, tags)) :
    data.FallsBack roundedEntry stop ↔
      PlanFailure.slGuard ∉ tags ∧
        ¬ (PlanFailure.marginCap ∈ tags ∧ PlanFailure.minNotional ∉ tags) := by
  obtain ⟨htagged, hmem⟩ := selectPlan_none h
  have htag : ∀ tag, tag ∈ tags ↔ data.AllocationTag roundedEntry stop tag := fun tag => by
    rw [hmem tag]
    simp [AllocationTag, planAt]
  simp only [htag, not_and, not_not]
  exact ⟨fun hf => ⟨hf.notGuard, hf.notCap⟩, fun hf => ⟨htagged, hf.1, hf.2⟩⟩

/-- What the planner answers with a stop, by its two searches. -/
theorem planWithStop_cases (data : LiveSizingInput) (roundedEntry stop : ℚ) :
    (∃ e, data.attempt roundedEntry stop data.allocation = .error e ∧
      data.planWithStop roundedEntry stop = .error e) ∨
    (∃ plan tags, data.attempt roundedEntry stop data.allocation = .ok (some plan, tags) ∧
      data.planWithStop roundedEntry stop = .ok (.accepted plan roundedEntry stop false)) ∨
    (∃ tags reason, data.attempt roundedEntry stop data.allocation = .ok (none, tags) ∧
      ¬ (data.FallsBack roundedEntry stop ∧ data.activePositions = 0) ∧
      data.planWithStop roundedEntry stop = .ok (.skipped reason false)) ∨
    (∃ tags, data.attempt roundedEntry stop data.allocation = .ok (none, tags) ∧
      data.FallsBack roundedEntry stop ∧ data.activePositions = 0 ∧
      data.planWithStop roundedEntry stop = data.allIn roundedEntry stop) := by
  unfold planWithStop
  cases hfirst : data.attempt roundedEntry stop data.allocation with
  | error e =>
    rw [allocation] at hfirst
    exact Or.inl ⟨e, rfl, by rw [hfirst]⟩
  | ok r =>
    obtain ⟨_ | plan, tags⟩ := r
    · have hfalls := fallsBack_iff hfirst
      rw [allocation] at hfirst
      rw [hfirst]
      dsimp only
      by_cases hguard : PlanFailure.slGuard ∈ tags
      · rw [if_pos hguard]
        exact Or.inr (Or.inr (Or.inl ⟨tags, _, rfl, fun h => (hfalls.mp h.1).1 hguard, rfl⟩))
      rw [if_neg hguard]
      by_cases hcap : PlanFailure.marginCap ∈ tags ∧ PlanFailure.minNotional ∉ tags
      · rw [if_pos hcap]
        exact Or.inr (Or.inr (Or.inl ⟨tags, _, rfl, fun h => (hfalls.mp h.1).2 hcap, rfl⟩))
      rw [if_neg hcap]
      by_cases hactive : data.activePositions = 0
      · rw [if_neg (not_not.mpr hactive)]
        exact Or.inr (Or.inr (Or.inr ⟨tags, rfl, hfalls.mpr ⟨hguard, hcap⟩, hactive, rfl⟩))
      · rw [if_pos hactive]
        exact Or.inr (Or.inr (Or.inl ⟨tags, _, rfl, fun h => hactive h.2, rfl⟩))
    · rw [allocation] at hfirst
      exact Or.inr (Or.inl ⟨plan, tags, rfl, by rw [hfirst]⟩)

theorem planWithStop_accepted_iff :
    (∃ plan fallbackUsed, data.planWithStop roundedEntry stop =
      .ok (.accepted plan roundedEntry stop fallbackUsed)) ↔
      data.FindsPlan roundedEntry stop data.allocation ∨
        (data.FallsBack roundedEntry stop ∧ data.activePositions = 0 ∧
          data.FindsPlan roundedEntry stop data.availableUsdt) := by
  simp only [findsPlan_iff]
  rcases planWithStop_cases data roundedEntry stop with
    ⟨e, hfirst, h⟩ | ⟨plan, tags, hfirst, h⟩ | ⟨tags, reason, hfirst, hno, h⟩ |
      ⟨tags, hfirst, hfalls, hactive, h⟩
  · refine iff_of_false (by simp [h]) ?_
    rintro (⟨plan, tags, hplan⟩ | ⟨hfalls, -⟩)
    · rw [hfirst] at hplan
      cases hplan
    · obtain ⟨tags, hnone⟩ := hfalls.none
      rw [hfirst] at hnone
      cases hnone
  · exact iff_of_true ⟨plan, false, h⟩ (Or.inl ⟨plan, tags, hfirst⟩)
  · refine iff_of_false (by simp [h]) ?_
    rintro (⟨plan, tags, hplan⟩ | ⟨hfalls, hactive, -⟩)
    · rw [hfirst] at hplan
      cases hplan
    · exact hno ⟨hfalls, hactive⟩
  · rw [h, hfirst]
    unfold allIn
    cases data.attempt roundedEntry stop data.availableUsdt with
    | error e => simp
    | ok r => obtain ⟨_ | plan, tags'⟩ := r <;> simp [hfalls, hactive]

theorem planWithStop_isOk_iff : (∃ d, data.planWithStop roundedEntry stop = .ok d) ↔
    (¬ ∃ e, data.attempt roundedEntry stop data.allocation = .error e) ∧
      (data.FallsBack roundedEntry stop → data.activePositions = 0 →
        ¬ ∃ e, data.attempt roundedEntry stop data.availableUsdt = .error e) := by
  rcases planWithStop_cases data roundedEntry stop with
    ⟨e, hfirst, h⟩ | ⟨plan, tags, hfirst, h⟩ | ⟨tags, reason, hfirst, hno, h⟩ |
      ⟨tags, hfirst, hfalls, hactive, h⟩
  · simp [h, hfirst]
  · refine iff_of_true ⟨_, h⟩ ⟨by simp [hfirst], fun hfalls => ?_⟩
    obtain ⟨tags', hnone⟩ := hfalls.none
    rw [hfirst] at hnone
    cases hnone
  · exact iff_of_true ⟨_, h⟩ ⟨by simp [hfirst], fun hfalls hactive => absurd ⟨hfalls, hactive⟩ hno⟩
  · rw [h, hfirst]
    unfold allIn
    cases data.attempt roundedEntry stop data.availableUsdt with
    | error e => simp [hfalls, hactive]
    | ok r => obtain ⟨_ | plan, tags'⟩ := r <;> simp

/-! ## The decision -/

theorem capped_pos (hmargin : 0 < margin) : 0 < data.capped margin := by
  unfold capped
  split
  · exact hmargin
  next cap hcap => exact lt_min hmargin (data.risk.cap_pos cap hcap)

theorem Valid.allocation_pos (h : data.Valid) : 0 < data.allocation :=
  mul_pos data.risk.allocation_pos h.available_pos

theorem Valid.planRequest (h : data.Valid) (htiers : data.metadata.mmTiers ≠ [])
    (hround : roundPriceToTick data.entry data.metadata.priceTick = some roundedEntry) :
    (data.planRequest roundedEntry stop).Valid where
  entry_pos := (roundPriceToTick_some hround).2.1
  fee_nonneg := h.fee_nonneg
  maxOrderQty_pos := h.maxOrderQty_pos
  maxMarketOrderQty_pos := h.maxMarketOrderQty_pos
  cap_pos := data.risk.cap_pos
  tiers := htiers
  buffer_pos := data.risk.buffer_pos
  buffer_le := data.risk.buffer_le
  gapPct_nonneg := h.gapPct.1
  slippage_nonneg := h.slippage_nonneg

/-- With its prices known and room for a position the planner decides by the stop. -/
theorem planLivePosition_eq (hcap : data.activePositions < data.risk.maxNormalPositions)
    (htiers : data.metadata.mmTiers ≠ [])
    (hbounds : data.leverageBounds.1 ≤ data.leverageBounds.2)
    (hround : roundPriceToTick data.entry data.metadata.priceTick = some roundedEntry)
    (hstop : data.stop = some stop) :
    data.planLivePosition = data.planWithStop roundedEntry stop := by
  unfold planLivePosition
  rw [if_neg (not_le.mpr hcap), if_neg htiers, if_neg (not_lt.mpr hbounds), hround]
  dsimp only
  rw [hstop]

theorem AllInPlan.tiers {leverage : ℕ} (h : data.AllInPlan roundedEntry stop leverage) :
    data.metadata.mmTiers ≠ [] := by
  intro hnil
  obtain ⟨qty, -, hguard⟩ := h
  simp only [PlanRequest.guard, guarded, LiveSizingInput.planRequest, hnil] at hguard
  split at hguard
  · cases hguard
  next liq hliq =>
    unfold estimateLiquidationPrice at hliq
    split at hliq
    · cases hliq
    split at hliq
    · cases hliq
    split at hliq
    · cases hliq
    · simp [selectMmr] at hliq

section Attempts

variable (h : data.Valid) (htiers : data.metadata.mmTiers ≠ [])
  (hround : roundPriceToTick data.entry data.metadata.priceTick = some roundedEntry)
include h htiers hround

theorem planAt_error_iff (hmargin : 0 < margin) {leverage : ℕ} (hmem : leverage ∈ data.leverages) :
    (∃ e, data.planAt roundedEntry stop margin leverage = .error e) ↔
      (data.planRequest roundedEntry stop).Raises (data.capped margin) leverage := by
  have hfive := five_le_of_mem_leverages hmem
  exact PlanRequest.planAtLeverage_error_iff (h.planRequest htiers hround) (capped_pos hmargin)
    (by omega)

theorem planAt_ok_iff (hmargin : 0 < margin) {leverage : ℕ} (hmem : leverage ∈ data.leverages) :
    (∃ plan, data.planAt roundedEntry stop margin leverage = .ok (.ok plan)) ↔
      data.HasPlan roundedEntry stop margin leverage := by
  have hfive := five_le_of_mem_leverages hmem
  exact PlanRequest.planAtLeverage_ok_iff (h.planRequest htiers hround) (capped_pos hmargin)
    (by omega)

/-- A search finds a plan where a leverage has one and none above it raises. -/
theorem findsPlan_iff_hasPlan (hmargin : 0 < margin) :
    data.FindsPlan roundedEntry stop margin ↔ ∃ leverage ∈ data.leverages,
      data.HasPlan roundedEntry stop margin leverage ∧
        data.NoneRaises roundedEntry stop margin leverage := by
  constructor
  · rintro ⟨leverage, ⟨hmem, htagged⟩, hplan⟩
    refine ⟨leverage, hmem, (planAt_ok_iff h htiers hround hmargin hmem).mp hplan,
      fun higher hh hlt hraises => ?_⟩
    obtain ⟨tag, htag⟩ := htagged higher hh hlt
    obtain ⟨e, he⟩ := (planAt_error_iff h htiers hround hmargin hh).mpr hraises
    rw [htag] at he
    cases he
  · rintro ⟨leverage, hmem, hplan, hnone⟩
    obtain ⟨plan, hplan⟩ := (planAt_ok_iff h htiers hround hmargin hmem).mpr hplan
    have hnotTagged : ¬ Tagged (data.planAt roundedEntry stop margin) leverage := by
      rintro ⟨tag, htag⟩
      rw [hplan] at htag
      cases htag
    rw [findsPlan_iff]
    cases hsearch : data.attempt roundedEntry stop margin with
    | error e =>
      -- the search raises below, at or above the leverage
      obtain ⟨other, ⟨hother, htagged⟩, he⟩ := attempt_error_iff.mp ⟨e, hsearch⟩
      rcases lt_trichotomy other leverage with hlt | rfl | hlt
      · exact absurd (htagged leverage hmem hlt) hnotTagged
      · obtain ⟨e, he⟩ := he
        rw [hplan] at he
        cases he
      · exact absurd ((planAt_error_iff h htiers hround hmargin hother).mp he)
          (hnone other hother hlt)
    | ok answer =>
      obtain ⟨_ | found, tags⟩ := answer
      · exact absurd ((selectPlan_none hsearch).1 leverage hmem) hnotTagged
      · exact ⟨found, tags, rfl⟩

/-- The first search leaves it to a second one where the allocation is not enough for a legal
quantity. -/
theorem fallsBack_iff_unaffordable :
    data.FallsBack roundedEntry stop ↔ data.Unaffordable roundedEntry stop := by
  have hreq : (data.planRequest roundedEntry stop).Valid := h.planRequest htiers hround
  have hmargin : 0 < data.capped data.allocation := capped_pos h.allocation_pos
  constructor
  · refine fun hf => ⟨fun leverage hmem => ?_, hf.notCap⟩
    cases hqty : (data.planRequest roundedEntry stop).legalQuantity (data.capped data.allocation)
        leverage with
    | none => rfl
    | some qty =>
      obtain ⟨tag, htag⟩ := hf.tagged leverage hmem
      obtain ⟨-, ⟨e, -, he⟩ | ⟨-, hguard⟩ | ⟨plan, -, hplan, -⟩⟩ :=
        PlanRequest.planAtLeverage_of_legal hreq hqty
      · rw [planAt, he] at htag
        cases htag
      · exact absurd ⟨leverage, hmem, hguard⟩ hf.notGuard
      · rw [planAt, hplan] at htag
        cases htag
  · intro hu
    have htags : ∀ leverage ∈ data.leverages, ∃ tag,
        data.planAt roundedEntry stop data.allocation leverage = .ok (.error tag) ∧
          tag ≠ .slGuard := fun leverage hmem => by
      have hfive := five_le_of_mem_leverages hmem
      exact PlanRequest.planAtLeverage_of_illegal hreq hmargin (by omega) (hu.illegal leverage hmem)
    refine ⟨fun leverage hmem => ?_, ?_, hu.notCap⟩
    · obtain ⟨tag, htag, -⟩ := htags leverage hmem
      exact ⟨tag, htag⟩
    · rintro ⟨leverage, hmem, hguard⟩
      obtain ⟨tag, htag, hne⟩ := htags leverage hmem
      rw [hguard] at htag
      cases htag
      exact hne rfl

end Attempts

/-- Where the whole balance has a plan, the planner accepts one exactly when the allocation has one
with none raising above it, or has no legal quantity and none raises above that of the balance. -/
theorem planLivePosition_accepted_iff (h : data.Valid) (hactive : data.activePositions = 0)
    {roundedEntry stop : ℚ}
    (hround : roundPriceToTick data.entry data.metadata.priceTick = some roundedEntry)
    (hstop : data.stop = some stop)
    (hplan : ∃ leverage ∈ data.leverages, data.AllInPlan roundedEntry stop leverage) :
    (∃ plan fallbackUsed,
        data.planLivePosition = .ok (.accepted plan roundedEntry stop fallbackUsed)) ↔
      (∃ leverage ∈ data.leverages,
        data.HasPlan roundedEntry stop data.allocation leverage ∧
          data.NoneRaises roundedEntry stop data.allocation leverage) ∨
      (data.Unaffordable roundedEntry stop ∧ ∃ leverage ∈ data.leverages,
        data.AllInPlan roundedEntry stop leverage ∧
          data.NoneRaises roundedEntry stop data.availableUsdt leverage) := by
  obtain ⟨leverage, hmem, hplan⟩ := hplan
  have hbounds := mem_leverages.mp hmem
  have hcap : data.activePositions < data.risk.maxNormalPositions := by
    rw [hactive]
    exact h.positions_pos
  rw [planLivePosition_eq hcap hplan.tiers (hbounds.1.trans hbounds.2) hround hstop,
    planWithStop_accepted_iff, findsPlan_iff_hasPlan h hplan.tiers hround h.allocation_pos,
    findsPlan_iff_hasPlan h hplan.tiers hround h.available_pos,
    fallsBack_iff_unaffordable h hplan.tiers hround]
  simp only [hactive, true_and, AllInPlan]

/-- No plan of the whole balance is missed exactly when, wherever there is one, the allocation has
one as well with none raising above it, or has no legal quantity at any leverage and the estimate
raises at none above a plan of the whole balance. -/
theorem complete_iff (h : data.Valid) (hactive : data.activePositions = 0) :
    data.Complete ↔ ∀ roundedEntry stop,
      roundPriceToTick data.entry data.metadata.priceTick = some roundedEntry →
        data.stop = some stop →
          (∃ leverage ∈ data.leverages, data.AllInPlan roundedEntry stop leverage) →
            (∃ leverage ∈ data.leverages,
              data.HasPlan roundedEntry stop data.allocation leverage ∧
                data.NoneRaises roundedEntry stop data.allocation leverage) ∨
            (data.Unaffordable roundedEntry stop ∧ ∃ leverage ∈ data.leverages,
              data.AllInPlan roundedEntry stop leverage ∧
                data.NoneRaises roundedEntry stop data.availableUsdt leverage) := by
  constructor
  · intro hc roundedEntry stop hround hstop hplan
    exact (planLivePosition_accepted_iff h hactive hround hstop hplan).mp
      (hc.accepts roundedEntry stop hround hstop hplan)
  · intro hc
    have hall : ∀ roundedEntry stop,
        roundPriceToTick data.entry data.metadata.priceTick = some roundedEntry →
          data.stop = some stop →
            (∃ leverage ∈ data.leverages, data.AllInPlan roundedEntry stop leverage) →
              ∃ plan fallbackUsed,
                data.planLivePosition = .ok (.accepted plan roundedEntry stop fallbackUsed) :=
      fun roundedEntry stop hround hstop hplan =>
        (planLivePosition_accepted_iff h hactive hround hstop hplan).mpr
          (hc roundedEntry stop hround hstop hplan)
    refine ⟨hall, fun roundedEntry stop reason fallbackUsed hround hstop hskipped hplan => ?_⟩
    obtain ⟨plan, used, haccepted⟩ := hall roundedEntry stop hround hstop hplan
    rw [haccepted] at hskipped
    cases hskipped

/-! ### A stop that needs a low leverage -/

theorem wideStop_valid : wideStop.Valid where
  available_pos := by norm_num [wideStop]
  entry_pos := by norm_num [wideStop]
  desired := by decide
  stopLoss_pos := by simp only [wideStop, Option.mem_some_iff]; rintro s rfl; norm_num
  atr_pos := by simp [wideStop]
  fee_nonneg := by norm_num [wideStop]
  split_pos := by simp [wideStop]
  priceTick_pos := by norm_num [wideStop, tenthPair]
  maxOrderQty_pos := by simp [wideStop, tenthPair]
  maxMarketOrderQty_pos := by simp [wideStop, tenthPair]
  one_le_maxLeverage := by decide
  minNotional_nonneg := by norm_num [wideStop, tenthPair]
  mmr_le := by norm_num [wideStop, tenthPair]
  allocation_le := by norm_num [wideStop, backOffRisk]
  positions_pos := by decide
  gapPct := by norm_num [wideStop, backOffRisk]
  slippage_nonneg := by norm_num [wideStop, backOffRisk]

/-- A stop at 88, which is guarded up to seven times. At the allocation of 10 the minimum notional
of 90 needs nine, with the whole balance of 100 five are enough. -/
def deepStop : LiveSizingInput :=
  { wideStop with metadata := { tenthPair with minNotional := 90 }, stopLoss := some 88 }

theorem deepStop_valid : deepStop.Valid :=
  { wideStop_valid with
    stopLoss_pos := by simp only [deepStop, Option.mem_some_iff]; rintro s rfl; norm_num
    minNotional_nonneg := by norm_num [deepStop] }

/-- The first search ends with the guard at nine times and above, and the plan of the whole balance
at seven times is missed. -/
theorem deepStop_missed :
    ¬ ∀ data : LiveSizingInput, data.Valid → data.activePositions = 0 → data.Complete := by
  intro h
  have hskipped : deepStop.planLivePosition = .ok (.skipped .slGuard false) := by decide +kernel
  refine (h deepStop deepStop_valid rfl).rejects 100 88 .slGuard false (by decide +kernel) rfl
    hskipped ⟨7, by decide, 7, ?_, ?_⟩
  · decide +kernel
  · decide +kernel

/-- The stop at 92, with a minimum notional of 300, which the allocation of 10 never reaches. -/
def costlyStop : LiveSizingInput :=
  { wideStop with metadata := { tenthPair with minNotional := 300 } }

theorem costlyStop_valid : costlyStop.Valid :=
  { wideStop_valid with minNotional_nonneg := by norm_num [costlyStop] }

/-- The first search for the stop at 92 gets to the plan of the allocation at ten times, and with the
higher minimum notional the second one to that of the whole balance. -/
theorem wideStop_complete : wideStop.Complete ∧ costlyStop.Complete := by
  have hround : roundPriceToTick wideStop.entry wideStop.metadata.priceTick = some 100 := by
    decide +kernel
  refine ⟨(complete_iff wideStop_valid rfl).mpr fun roundedEntry stop hr hs _ => Or.inl ?_,
    (complete_iff costlyStop_valid rfl).mpr fun roundedEntry stop hr hs _ => Or.inr ?_⟩
  · obtain rfl : 100 = roundedEntry := Option.some.inj (hround.symm.trans hr)
    obtain rfl : (92 : ℚ) = stop := Option.some.inj hs
    refine ⟨10, by decide, ⟨1, ?_, ?_⟩, fun _ _ _ hraises => Direction.noConfusion hraises.1⟩
    · decide +kernel
    · decide +kernel
  · obtain rfl : 100 = roundedEntry := Option.some.inj (hround.symm.trans hr)
    obtain rfl : (92 : ℚ) = stop := Option.some.inj hs
    refine ⟨⟨?_, fun _ => ⟨20, by decide, ?_⟩⟩, 10, by decide, ⟨10, ?_, ?_⟩,
      fun _ _ _ hraises => Direction.noConfusion hraises.1⟩
    · decide +kernel
    · decide +kernel
    · decide +kernel
    · decide +kernel

end LiveSizingInput

end FattyTrader
