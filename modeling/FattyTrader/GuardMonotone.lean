import FattyTrader.PlanSearch

/-!
# The guard over margins and leverages

The estimate moves away from the stop as the maintenance rate and the leverage fall, and a stop that
clears an estimate clears every one beyond it (`check_mono`). So a guard that fails at a leverage
fails at every larger margin, and one that holds for a notional holds at the lower leverages
(`guard_monotone`). A long position with all of its notional as margin and no rates is the
exception : it never dies, and the estimate of zero raises.
-/

set_option linter.unusedSectionVars false

namespace FattyTrader

variable {direction : Direction} {entry quantity quantity' stop priceTick fee c : ℚ}
  {leverage leverage' : ℕ} {floors : LiquidationFloors} {mmTiers : List MMTier}

/-! ## The rate of a tier -/

/-- A larger notional has a larger rate, whatever the order of the bounds. -/
theorem selectMmr_mono (hrates : mmTiers.Pairwise fun a b => a.mmr ≤ b.mmr)
    {notional notional' mmr mmr' : ℚ} (hle : notional ≤ notional')
    (h : selectMmr notional mmTiers = .ok mmr) (h' : selectMmr notional' mmTiers = .ok mmr') :
    mmr ≤ mmr' := by
  have hnil : mmTiers ≠ [] := by
    rintro rfl
    cases h
  unfold selectMmr at h h'
  rw [List.getLast?_eq_some_getLast hnil] at h h'
  obtain rfl := Except.ok.inj h
  obtain rfl := Except.ok.inj h'
  clear h h'
  induction mmTiers with
  | nil => exact absurd rfl hnil
  | cons tier tiers ih =>
    obtain ⟨hfirst, hrates⟩ := List.pairwise_cons.mp hrates
    have hmin : ∀ {n : ℚ}, tier.mmr ≤
        (((tier :: tiers).find? fun t => t.upperBoundNotional.all (n ≤ ·)).getD
          ((tier :: tiers).getLast hnil)).mmr := by
      intro n
      have hmem : ((tier :: tiers).find? fun t => t.upperBoundNotional.all (n ≤ ·)).getD
          ((tier :: tiers).getLast hnil) ∈ tier :: tiers := by
        cases hfind : (tier :: tiers).find? fun t => t.upperBoundNotional.all (n ≤ ·) with
        | none => exact List.getLast_mem hnil
        | some t => exact List.mem_of_find?_eq_some hfind
      rcases List.mem_cons.mp hmem with heq | hmem
      · rw [heq]
      · exact hfirst _ hmem
    by_cases hcovers : tier.upperBoundNotional.all (notional ≤ ·)
    · have hfind : ((tier :: tiers).find? fun t => t.upperBoundNotional.all (notional ≤ ·)) =
          some tier := List.find?_cons_of_pos hcovers
      rw [hfind]
      exact hmin
    · have hcovers' : ¬ tier.upperBoundNotional.all (notional' ≤ ·) := by
        cases hbound : tier.upperBoundNotional with
        | none => simp [hbound] at hcovers
        | some bound =>
          simp only [hbound, Option.all_some, decide_eq_true_eq, not_le] at hcovers ⊢
          exact hcovers.trans_le hle
      have hskip : ∀ {n : ℚ}, ¬ tier.upperBoundNotional.all (n ≤ ·) →
          ((tier :: tiers).find? fun t => t.upperBoundNotional.all (n ≤ ·)) =
            tiers.find? fun t => t.upperBoundNotional.all (n ≤ ·) :=
        fun hno => List.find?_cons_of_neg hno
      rw [hskip hcovers, hskip hcovers']
      cases tiers with
      | nil => exact le_rfl
      | cons second tiers =>
        simp only [List.getLast_cons_cons]
        exact ih hrates (List.cons_ne_nil _ _)

/-! ## The check -/

/-- One liquidation price is beyond another, seen from the entry. -/
def Beyond (direction : Direction) (liq liq' : ℚ) : Prop :=
  match direction with
  | .long => liq ≤ liq'
  | .short => liq' ≤ liq

/-- The gap grows with the span, and faster than its share. -/
theorem required_le {span span' gap gap' floor : ℚ} (hspan : span' ≤ span)
    (hgap : gap - gap' = span - span') (hinside : gap' < span') (hpos : 0 < span')
    (hbuffer : span' * floors.buffer ≤ gap') (hfloor : floor ≤ gap') :
    max (span * floors.buffer) floor ≤ gap := by
  have hone : floors.buffer < 1 := by
    by_contra hno
    rw [not_lt] at hno
    have := le_mul_of_one_le_right hpos.le hno
    linarith
  have hshare : (span - span') * floors.buffer ≤ span - span' :=
    mul_le_of_le_one_right (sub_nonneg.mpr hspan) hone.le
  exact max_le (by linarith) (by linarith)

/-- A stop that clears a liquidation price clears every one beyond it. -/
theorem check_mono {liq liq' : ℚ} (hpos : 0 < liq) (hbeyond : Beyond direction liq liq')
    (h : checkSlBeforeLiquidation direction entry stop liq' floors priceTick = .ok true) :
    checkSlBeforeLiquidation direction entry stop liq floors priceTick = .ok true := by
  unfold checkSlBeforeLiquidation at h ⊢
  split at h
  · cases h
  next hprices =>
    simp only [not_or, not_le] at hprices
    split at h
    · cases h
    next hfloors =>
      rw [if_neg (by simp only [not_or, not_le]; exact ⟨hprices.1, hprices.2.1, hpos⟩),
        if_neg hfloors]
      cases direction with
      | long =>
        simp only [Beyond] at hbeyond
        simp only [Except.ok.injEq, Bool.and_eq_true, decide_eq_true_eq, max_assoc] at h ⊢
        obtain ⟨⟨hbelow, habove⟩, hgap⟩ := h
        refine ⟨⟨hbeyond.trans_lt hbelow, habove⟩, ?_⟩
        exact required_le (by linarith) (by ring) (by linarith) (by linarith)
          ((le_max_left _ _).trans hgap) ((le_max_right _ _).trans hgap)
      | short =>
        simp only [Beyond] at hbeyond
        simp only [Except.ok.injEq, Bool.and_eq_true, decide_eq_true_eq, max_assoc] at h ⊢
        obtain ⟨⟨habove, hbelow⟩, hgap⟩ := h
        refine ⟨⟨habove, hbelow.trans_le hbeyond⟩, ?_⟩
        exact required_le (by linarith) (by ring) (by linarith) (by linarith)
          ((le_max_left _ _).trans hgap) ((le_max_right _ _).trans hgap)

/-! ## The guard -/

/-- What a guard that answers has found : sound inputs, a rate, and a liquidation price. -/
theorem guarded_ok {safe : Bool}
    (h : guarded direction entry quantity leverage stop floors priceTick mmTiers fee c = .ok safe) :
    0 < entry ∧ 0 < quantity ∧ 0 < leverage ∧ 0 < c ∧ 0 ≤ fee ∧
      ∃ mmr, selectMmr (entry * quantity * c) mmTiers = .ok mmr ∧
        0 < entry * liquidationRatio direction (1 / leverage) mmr fee ∧
        checkSlBeforeLiquidation direction entry stop
          (entry * liquidationRatio direction (1 / leverage) mmr fee) floors priceTick =
            .ok safe := by
  have hinputs : 0 < entry ∧ 0 < quantity ∧ 0 < leverage ∧ 0 < c ∧ 0 ≤ fee ∧ mmTiers ≠ [] := by
    unfold guarded at h
    split at h
    · cases h
    next liq hliq =>
      unfold estimateLiquidationPrice at hliq
      split at hliq
      · cases hliq
      next hpos =>
        simp only [not_or, not_le] at hpos
        split at hliq
        · cases hliq
        next hc =>
          split at hliq
          · cases hliq
          next hfee =>
            refine ⟨hpos.1, hpos.2.1, by omega, not_le.mp hc, not_lt.mp hfee, ?_⟩
            rintro rfl
            cases hliq
  obtain ⟨hentry, hquantity, hleverage, hc, hfee, htiers⟩ := hinputs
  obtain ⟨mmr, hmmr, -⟩ := selectMmr_isOk htiers (entry * quantity * c)
  rw [guarded_eq hentry hquantity hleverage hc hfee hmmr] at h
  split at h
  · cases h
  next hliq => exact ⟨hentry, hquantity, hleverage, hc, hfee, mmr, hmmr, not_le.mp hliq, h⟩

/-- A position as large at a leverage as low is guarded too, once its estimate is positive. -/
theorem guarded_mono (hrates : mmTiers.Pairwise fun a b => a.mmr ≤ b.mmr)
    (hquantity : 0 < quantity) (hle : quantity ≤ quantity') (hleverage : 0 < leverage)
    (hlower : leverage ≤ leverage')
    (hpositive : direction = .long → leverage = 1 → ∀ mmr,
      selectMmr (entry * quantity * c) mmTiers = .ok mmr → 0 < mmr + fee)
    (h : guarded direction entry quantity' leverage' stop floors priceTick mmTiers fee c =
      .ok true) :
    guarded direction entry quantity leverage stop floors priceTick mmTiers fee c = .ok true := by
  obtain ⟨hentry, -, -, hc, hfee, mmr', hmmr', hliq', hcheck⟩ := guarded_ok h
  have htiers : mmTiers ≠ [] := by
    rintro rfl
    cases hmmr'
  obtain ⟨mmr, hmmr, hmmr0⟩ := selectMmr_isOk htiers (entry * quantity * c)
  have hrate : mmr ≤ mmr' := by
    refine selectMmr_mono hrates ?_ hmmr hmmr'
    exact mul_le_mul_of_nonneg_right (mul_le_mul_of_nonneg_left hle hentry.le) hc.le
  have hL : (1 : ℚ) ≤ leverage := by exact_mod_cast hleverage
  have hshare : (1 : ℚ) / leverage' ≤ 1 / leverage :=
    one_div_le_one_div_of_le (by linarith) (by exact_mod_cast hlower)
  have hbeyond : Beyond direction
      (entry * liquidationRatio direction (1 / leverage) mmr fee)
      (entry * liquidationRatio direction (1 / leverage') mmr' fee) := by
    cases direction <;> simp only [Beyond, liquidationRatio] <;>
      exact mul_le_mul_of_nonneg_left (by linarith) hentry.le
  have hliq : 0 < entry * liquidationRatio direction (1 / leverage) mmr fee := by
    cases direction with
    | long =>
      refine mul_pos hentry ?_
      simp only [liquidationRatio]
      rcases (show leverage = 1 ∨ 2 ≤ leverage by omega) with hone | htwo
      · have hrates := hpositive rfl hone mmr hmmr
        rw [hone, Nat.cast_one]
        linarith
      · have hhalf : (1 : ℚ) / leverage ≤ 1 / 2 :=
          one_div_le_one_div_of_le (by norm_num) (by exact_mod_cast htwo)
        linarith
    | short => exact hliq'.trans_le hbeyond
  rw [guarded_eq hentry hquantity hleverage hc hfee hmmr, if_neg (not_le.mpr hliq)]
  exact check_mono hliq hbeyond hcheck

/-- A guard that fails does not hold for a larger quantity. -/
theorem not_guarded_of_le (hrates : mmTiers.Pairwise fun a b => a.mmr ≤ b.mmr)
    (hle : quantity ≤ quantity')
    (hfails : guarded direction entry quantity leverage stop floors priceTick mmTiers fee c =
      .ok false) :
    guarded direction entry quantity' leverage stop floors priceTick mmTiers fee c ≠ .ok true := by
  intro hholds
  obtain ⟨hentry, hquantity, hleverage, -, -, mmr', hmmr', hliq, -⟩ := guarded_ok hfails
  have hsafe : guarded direction entry quantity leverage stop floors priceTick mmTiers fee c =
      .ok true := by
    refine guarded_mono hrates hquantity hle hleverage le_rfl (fun hlong hone mmr hmmr => ?_) hholds
    -- a guard that answers has a positive estimate
    rw [hmmr] at hmmr'
    obtain rfl := Except.ok.inj hmmr'
    rw [hlong, hone] at hliq
    have hratio := pos_of_mul_pos_right hliq hentry.le
    simp only [liquidationRatio, Nat.cast_one, div_one] at hratio
    linarith
  rw [hfails] at hsafe
  cases hsafe

/-! ## The quantity of a leverage -/

namespace PlanRequest

variable {q : PlanRequest} {margin margin' qty qty' r r' : ℚ}

theorem toStep_mono {step : ℚ} (hle : qty ≤ qty') (h : toStep qty step = .ok r)
    (h' : toStep qty' step = .ok r') : r ≤ r' := by
  have hfloor : ∀ {x y : ℚ}, toStep x step = .ok y → 0 < step ∧ y = ⌊x / step⌋ * step := by
    intro x y hxy
    unfold toStep at hxy
    split at hxy
    · cases hxy
    next rounded hrounded =>
      obtain rfl := Except.ok.inj hxy
      unfold roundQtyToStep at hrounded
      split at hrounded
      · cases hrounded
      next hpos =>
        simp only [not_or, not_le] at hpos
        exact ⟨hpos.2, (Option.some.inj hrounded).symm⟩
  obtain ⟨hstep, rfl⟩ := hfloor h
  obtain ⟨-, rfl⟩ := hfloor h'
  refine mul_le_mul_of_nonneg_right ?_ hstep.le
  exact_mod_cast Int.floor_le_floor (div_le_div_of_nonneg_right hle hstep.le)

theorem marketCeiled_mono (hle : qty ≤ qty') (h : q.marketCeiled qty = .ok r)
    (h' : q.marketCeiled qty' = .ok r') : r ≤ r' := by
  unfold marketCeiled at h h'
  split at h
  next hmax =>
    rw [hmax] at h'
    rwa [← Except.ok.inj h, ← Except.ok.inj h']
  next maximum hmax =>
    rw [hmax] at h'
    dsimp only at h'
    split at h
    · cases h
    next ceiling hceiling =>
      rw [hceiling] at h'
      rw [← Except.ok.inj h, ← Except.ok.inj h']
      exact min_le_min_right _ hle

theorem limitCeiled_mono (hle : qty ≤ qty') (h : q.limitCeiled qty = .ok r)
    (h' : q.limitCeiled qty' = .ok r') : r ≤ r' := by
  unfold limitCeiled at h h'
  split at h
  next prices maximum hsplit hmax =>
    rw [hsplit, hmax] at h'
    dsimp only at h'
    split at h
    · cases h
    next ceiling hceiling =>
      rw [hceiling] at h'
      rw [← Except.ok.inj h, ← Except.ok.inj h']
      exact min_le_min_right _ hle
  next hno =>
    split at h'
    next prices maximum hsplit hmax => exact absurd hmax (hno _ _ hsplit)
    · rwa [← Except.ok.inj h, ← Except.ok.inj h']

theorem ceiledQuantity_mono (hle : qty ≤ qty') (h : q.ceiledQuantity qty = .ok r)
    (h' : q.ceiledQuantity qty' = .ok r') : r ≤ r' := by
  unfold ceiledQuantity at h h'
  split at h
  · cases h
  next hstep =>
    split at h
    · cases h
    next hmarket =>
      split at h'
      · cases h'
      next hstep' =>
        split at h'
        · cases h'
        next hmarket' =>
          exact limitCeiled_mono (marketCeiled_mono (toStep_mono hle hstep hstep') hmarket hmarket')
            h h'

theorem enforceMarginCap_mono {actual actual' : ℚ} (hle : qty ≤ qty')
    (h : q.enforceMarginCap leverage qty = .ok (some (actual, r)))
    (h' : q.enforceMarginCap leverage qty' = .ok (some (actual', r'))) : r ≤ r' := by
  have hstep : ∀ {x m y : ℚ}, q.enforceMarginCap leverage x = .ok (some (m, y)) →
      toStep (min x (q.cap.elim x fun cap => cap * leverage / q.perQty)) q.quantityStep =
        .ok y := by
    intro x m y hxy
    unfold enforceMarginCap at hxy
    split at hxy
    · cases hxy
    dsimp only at hxy
    split at hxy
    · cases hxy
    next hcapped =>
      split at hxy
      · cases hxy
      split at hxy
      · cases hxy
      · obtain ⟨-, rfl⟩ := Prod.mk.inj (Option.some.inj (Except.ok.inj hxy))
        revert hcapped
        cases q.cap <;> exact id
  refine toStep_mono ?_ (hstep h) (hstep h')
  cases q.cap with
  | none => simpa using hle
  | some cap => exact min_le_min_right _ hle

/-- A larger margin has a larger legal quantity. -/
theorem legalQuantity_mono (hper : 0 < q.perQty) (hle : margin ≤ margin')
    (h : q.legalQuantity margin leverage = some qty)
    (h' : q.legalQuantity margin' leverage = some qty') : qty ≤ qty' := by
  have hparts : ∀ {m x : ℚ}, q.legalQuantity m leverage = some x → ∃ ceiled actual,
      q.ceiledQuantity (m * leverage / q.perQty) = .ok ceiled ∧
        q.enforceMarginCap leverage ceiled = .ok (some (actual, x)) := by
    intro m x hx
    unfold legalQuantity at hx
    split at hx
    · cases hx
    next ceiled hceiled =>
      split at hx
      next actual capped hcapped =>
        split at hx
        · obtain rfl := Option.some.inj hx
          exact ⟨ceiled, actual, hceiled, hcapped⟩
        · cases hx
      · cases hx
  obtain ⟨ceiled, actual, hceiled, hcapped⟩ := hparts h
  obtain ⟨ceiled', actual', hceiled', hcapped'⟩ := hparts h'
  refine enforceMarginCap_mono (ceiledQuantity_mono ?_ hceiled hceiled') hcapped hcapped'
  exact div_le_div_of_nonneg_right (mul_le_mul_of_nonneg_right hle leverage.cast_nonneg) hper.le

/-- A leverage that answers was given a margin. -/
theorem margin_pos (h : q.Valid) {answer : Except PlanFailure LivePlan}
    (hplan : q.planAtLeverage margin leverage = .ok answer) : 0 < margin ∧ 0 < leverage := by
  unfold planAtLeverage at hplan
  rw [if_neg (not_le.mpr h.perQty_pos)] at hplan
  have hraw : 0 < margin * leverage / q.perQty := by
    by_contra hno
    have hzero : roundQtyToStep (margin * leverage / q.perQty) q.quantityStep = none := by
      unfold roundQtyToStep
      rw [if_pos (Or.inl (not_lt.mp hno))]
    simp only [ceiledQuantity, toStep, hzero] at hplan
    cases hplan
  have hproduct : 0 < margin * leverage := by
    have := mul_pos hraw h.perQty_pos
    rwa [div_mul_cancel₀ _ h.perQty_pos.ne'] at this
  have hleverage : 0 < leverage := by
    by_contra hno
    obtain rfl : leverage = 0 := by omega
    simp at hproduct
  exact ⟨pos_of_mul_pos_left hproduct leverage.cast_nonneg, hleverage⟩

/-- A guard that fails at a leverage leaves no plan there with a larger margin. -/
theorem slGuard_terminal (h : q.Valid)
    (hrates : q.metadata.mmTiers.Pairwise fun a b => a.mmr ≤ b.mmr) (hle : margin ≤ margin')
    (hfails : q.planAtLeverage margin leverage = .ok (.error .slGuard)) (plan : LivePlan) :
    q.planAtLeverage margin' leverage ≠ .ok (.ok plan) := by
  intro hplan
  obtain ⟨hmargin, hleverage⟩ := margin_pos h hfails
  obtain ⟨qty', hqty', hguard'⟩ :=
    (planAtLeverage_ok_iff h (hmargin.trans_le hle) hleverage).mp ⟨plan, hplan⟩
  cases hqty : q.legalQuantity margin leverage with
  | none =>
    obtain ⟨tag, htag, hne⟩ := planAtLeverage_of_illegal h hmargin hleverage hqty
    rw [htag] at hfails
    exact hne (Except.error.inj (Except.ok.inj hfails))
  | some qty =>
    obtain ⟨hpos, hcases⟩ := planAtLeverage_of_legal h hqty
    have hguard : q.guard leverage qty = .ok false := by
      rcases hcases with ⟨e, -, hp⟩ | ⟨hg, -⟩ | ⟨plan, -, hp, -⟩
      · rw [hp] at hfails
        cases hfails
      · exact hg
      · rw [hp] at hfails
        cases hfails
    exact not_guarded_of_le hrates (legalQuantity_mono h.perQty_pos hle hqty hqty') hguard hguard'

end PlanRequest

/-- With maintenance rates that do not fall, a guard that fails at a leverage fails for every larger
quantity, and leaves no plan there with a larger margin. A guard that holds for a notional holds for
it at every lower leverage, unless the position is long, has its whole notional as margin, and no
rates. -/
theorem guard_monotone (hrates : mmTiers.Pairwise fun a b => a.mmr ≤ b.mmr) :
    (∀ direction entry quantity quantity' leverage stop floors priceTick fee c,
      quantity ≤ quantity' →
        guarded direction entry quantity leverage stop floors priceTick mmTiers fee c = .ok false →
          guarded direction entry quantity' leverage stop floors priceTick mmTiers fee c ≠
            .ok true) ∧
    (∀ (q : PlanRequest) margin margin' leverage, q.Valid → q.metadata.mmTiers = mmTiers →
      margin ≤ margin' → q.planAtLeverage margin leverage = .ok (.error .slGuard) → ∀ plan,
        q.planAtLeverage margin' leverage ≠ .ok (.ok plan)) ∧
    ∀ direction entry quantity leverage leverage' stop floors priceTick fee c,
      0 < leverage → leverage ≤ leverage' →
        (direction = .long → leverage = 1 → ∀ mmr,
          selectMmr (entry * quantity * c) mmTiers = .ok mmr → 0 < mmr + fee) →
        guarded direction entry quantity leverage' stop floors priceTick mmTiers fee c = .ok true →
          guarded direction entry quantity leverage stop floors priceTick mmTiers fee c =
            .ok true := by
  refine ⟨?_, ?_, ?_⟩
  · intro direction entry quantity quantity' leverage stop floors priceTick fee c hle hfails
    exact not_guarded_of_le hrates hle hfails
  · rintro q margin margin' leverage h rfl hle hfails plan
    exact PlanRequest.slGuard_terminal h hrates hle hfails plan
  · intro direction entry quantity leverage leverage' stop floors priceTick fee c hleverage hlower
      hpositive h
    obtain ⟨-, hquantity, -⟩ := guarded_ok h
    exact guarded_mono hrates hquantity le_rfl hleverage hlower hpositive h

/-- A long position of 100 whose whole notional is its margin, without rates : the guard holds at
two times, and the estimate raises at one. -/
theorem unleveraged_raises :
    ¬ ∀ (mmTiers : List MMTier) direction entry quantity leverage leverage' stop floors priceTick
        fee c,
      mmTiers.Pairwise (fun a b => a.mmr ≤ b.mmr) → 0 < leverage → leverage ≤ leverage' →
        guarded direction entry quantity leverage' stop floors priceTick mmTiers fee c = .ok true →
          guarded direction entry quantity leverage stop floors priceTick mmTiers fee c =
            .ok true := by
  intro h
  have hraises : guarded .long 100 1 1 90 ⟨1 / 10, 0, 0, 0⟩ 1 [⟨none, 0, le_rfl⟩] 0 1 =
      .error "estimated liquidation price is non-positive" := by
    decide +kernel
  have hholds := h [⟨none, 0, le_rfl⟩] .long 100 1 1 2 90 ⟨1 / 10, 0, 0, 0⟩ 1 0 1
    (List.pairwise_singleton _ _) (by decide) (by decide) (by decide +kernel)
  rw [hraises] at hholds
  cases hholds

/-- The stop at 92 across the margins and the leverages. -/
theorem guard_monotone_wideStop :
    guarded .long 100 2 11 92 ⟨1 / 10, 0, 0, 0⟩ 1 tenthPair.mmTiers (6 / 10000) 1 ≠ .ok true ∧
      (∀ plan, (wideStop.planRequest 100 92).planAtLeverage 100 11 ≠ .ok (.ok plan)) ∧
      guarded .long 100 1 5 92 ⟨1 / 10, 0, 0, 0⟩ 1 tenthPair.mmTiers (6 / 10000) 1 = .ok true := by
  have hround : roundPriceToTick wideStop.entry wideStop.metadata.priceTick = some 100 := by
    decide +kernel
  obtain ⟨hmargin, hplan, hleverage⟩ := guard_monotone
    (List.pairwise_singleton _ _ : tenthPair.mmTiers.Pairwise fun a b => a.mmr ≤ b.mmr)
  refine ⟨?_, ?_, ?_⟩
  · exact hmargin _ _ 1 _ _ _ _ _ _ _ (by decide +kernel) (by decide +kernel)
  · exact hplan _ 10 _ _
      (LiveSizingInput.wideStop_valid.planRequest (List.cons_ne_nil _ _) hround) rfl
      (by decide +kernel) (by decide +kernel)
  · exact hleverage _ _ _ _ 10 _ _ _ _ _ (by decide) (by decide)
      (fun _ hone => absurd hone (by decide)) (by decide +kernel)

end FattyTrader
