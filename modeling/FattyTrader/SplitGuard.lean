import FattyTrader.PreflightLaws
import Mathlib.Tactic.Positivity

/-!
# The liquidation guard of a split

A split is guarded once, at the larger of its two prices. The position it leads to has an average
entry between them, at whatever of its legs has filled (`TwoLegs.Fills`), and the maintenance rate
of its own notional.

Of the positions of one notional, the one whose market leg filled first has the worst average :
the market has passed the entry of the source, so the market leg is the dearer one of a long
split and the cheaper one of a short split. And of all notionals charged with one rate, the lowest
is the worst. So `split_guard_iff` asks for one comparison for each rate (`chargedFrom`), at the
average of the market leg first (`marketFirst`).
-/

set_option linter.unusedSectionVars false

namespace FattyTrader

/-! ## The average of two legs -/

/-- Prices and quantities of a market and a limit leg. -/
structure TwoLegs where
  marketPrice : ℚ
  limitPrice : ℚ
  marketQuantity : ℚ
  limitQuantity : ℚ
  marketPrice_pos : 0 < marketPrice
  limitPrice_pos : 0 < limitPrice
  marketQuantity_pos : 0 < marketQuantity
  limitQuantity_pos : 0 < limitQuantity

namespace TwoLegs

variable (l : TwoLegs) {a b v top share stop δ : ℚ} {direction : Direction}

/-- What the fills `a` of the market leg and `b` of the limit leg cost. -/
def value (a b : ℚ) : ℚ := l.marketPrice * a + l.limitPrice * b

/-- The cost of both legs. -/
def full : ℚ := l.value l.marketQuantity l.limitQuantity

/-- Some of both legs has filled. -/
structure Fills (a b : ℚ) : Prop where
  market_nonneg : 0 ≤ a
  market_le : a ≤ l.marketQuantity
  limit_nonneg : 0 ≤ b
  limit_le : b ≤ l.limitQuantity
  pos : 0 < a + b

def average (a b : ℚ) : ℚ := l.value a b / (a + b)

/-- The fill of the limit leg at a cost the whole market leg is part of. -/
def limitFill (v : ℚ) : ℚ := (v - l.marketPrice * l.marketQuantity) / l.limitPrice

/-- The average at a cost `v`, when the market leg fills first. -/
def marketFirst (v : ℚ) : ℚ :=
  if v < l.marketPrice * l.marketQuantity then l.marketPrice
  else v / (l.marketQuantity + l.limitFill v)

variable {l}

theorem Fills.value_pos (h : l.Fills a b) : 0 < l.value a b := by
  have hm := l.marketPrice_pos
  have hn := l.limitPrice_pos
  have ha := h.market_nonneg
  have hb := h.limit_nonneg
  unfold value
  rcases ha.lt_or_eq with ha' | rfl
  · positivity
  · have : 0 < b := by simpa using h.pos
    positivity

theorem Fills.average_pos (h : l.Fills a b) : 0 < l.average a b := div_pos h.value_pos h.pos

theorem Fills.value_le (h : l.Fills a b) : l.value a b ≤ l.full :=
  add_le_add (mul_le_mul_of_nonneg_left h.market_le l.marketPrice_pos.le)
    (mul_le_mul_of_nonneg_left h.limit_le l.limitPrice_pos.le)

/-- Every average is between the two prices. -/
theorem Fills.average_mem (h : l.Fills a b) : min l.marketPrice l.limitPrice ≤ l.average a b ∧
    l.average a b ≤ max l.marketPrice l.limitPrice := by
  have ha := h.market_nonneg
  have hb := h.limit_nonneg
  unfold average value
  rw [le_div_iff₀ h.pos, div_le_iff₀ h.pos, mul_add, mul_add]
  exact ⟨add_le_add (mul_le_mul_of_nonneg_right (min_le_left _ _) ha)
      (mul_le_mul_of_nonneg_right (min_le_right _ _) hb),
    add_le_add (mul_le_mul_of_nonneg_right (le_max_left _ _) ha)
      (mul_le_mul_of_nonneg_right (le_max_right _ _) hb)⟩

theorem value_limitFill (v : ℚ) : l.value l.marketQuantity (l.limitFill v) = v := by
  have hn := l.limitPrice_pos.ne'
  unfold value limitFill
  field_simp
  ring

theorem limitFill_nonneg (h : ¬ v < l.marketPrice * l.marketQuantity) : 0 ≤ l.limitFill v :=
  div_nonneg (sub_nonneg.mpr (not_lt.mp h)) l.limitPrice_pos.le

/-- Beyond the cost of the market leg, a position that costs more than `v` has more of the limit
leg, in proportion, than the one with the market leg first. -/
theorem Fills.limitFill_mul_le (h : l.Fills a b) (hv : ¬ v < l.marketPrice * l.marketQuantity)
    (hlt : v < l.value a b) : a * l.limitFill v ≤ l.marketQuantity * b := by
  have hm := l.marketPrice_pos
  have hn := l.limitPrice_pos
  have hfill := limitFill_nonneg hv
  have hb : l.limitFill v ≤ b := by
    rw [← value_limitFill (l := l) v] at hlt
    unfold value at hlt
    by_contra hno
    rw [not_le] at hno
    have h₁ := mul_le_mul_of_nonneg_left h.market_le hm.le
    have h₂ := mul_lt_mul_of_pos_left hno hn
    linarith
  exact mul_le_mul h.market_le hb hfill l.marketQuantity_pos.le

/-- Where the market leg is the dearer one, no position that costs more than `v` has a higher
average than the one with the market leg first. -/
theorem Fills.average_le (h : l.Fills a b) (hprice : l.limitPrice ≤ l.marketPrice)
    (hlt : v < l.value a b) : l.average a b ≤ l.marketFirst v := by
  unfold marketFirst
  split
  · exact h.average_mem.2.trans (max_le le_rfl hprice)
  next hv =>
    have hfill := limitFill_nonneg hv
    have hA := l.marketQuantity_pos
    have hmore := h.limitFill_mul_le hv hlt
    rw [average, div_le_div_iff₀ h.pos (by linarith)]
    have hkey := mul_le_mul_of_nonneg_left hmore (sub_nonneg.mpr hprice)
    calc l.value a b * (l.marketQuantity + l.limitFill v)
        = l.value l.marketQuantity (l.limitFill v) * (a + b) -
            (l.marketPrice - l.limitPrice) *
              (l.marketQuantity * b - a * l.limitFill v) := by unfold value; ring
      _ ≤ l.value l.marketQuantity (l.limitFill v) * (a + b) := by linarith
      _ = v * (a + b) := by rw [value_limitFill]

/-- Where it is the cheaper one, none has a lower average. -/
theorem Fills.le_average (h : l.Fills a b) (hprice : l.marketPrice ≤ l.limitPrice)
    (hlt : v < l.value a b) : l.marketFirst v ≤ l.average a b := by
  unfold marketFirst
  split
  · exact (le_min le_rfl hprice).trans h.average_mem.1
  next hv =>
    have hfill := limitFill_nonneg hv
    have hA := l.marketQuantity_pos
    have hmore := h.limitFill_mul_le hv hlt
    rw [average, div_le_div_iff₀ (by linarith) h.pos]
    have hkey := mul_le_mul_of_nonneg_left hmore (sub_nonneg.mpr hprice)
    calc v * (a + b) = l.value l.marketQuantity (l.limitFill v) * (a + b) := by
          rw [value_limitFill]
      _ ≤ l.value l.marketQuantity (l.limitFill v) * (a + b) +
            (l.limitPrice - l.marketPrice) *
              (l.marketQuantity * b - a * l.limitFill v) := by linarith
      _ = l.value a b * (l.marketQuantity + l.limitFill v) := by unfold value; ring

theorem marketFirst_pos : 0 < l.marketFirst v := by
  unfold marketFirst
  split
  · exact l.marketPrice_pos
  next hv =>
    have hcost : 0 < l.marketPrice * l.marketQuantity := mul_pos l.marketPrice_pos l.marketQuantity_pos
    exact div_pos (hcost.trans_le (not_lt.mp hv))
      (add_pos_of_pos_of_nonneg l.marketQuantity_pos (limitFill_nonneg hv))

/-! ### The comparison with a stop -/

/-- A stop that clears the average with the market leg first clears that of every position that
costs more. -/
theorem Fills.clears (h : l.Fills a b) (hpassed : passedEntry direction l.limitPrice l.marketPrice)
    (hlt : v < l.value a b) (hstop : 0 < stop) (hshare : direction = .long → 0 ≤ share)
    (hclears : Clears direction stop (l.marketFirst v) share) :
    Clears direction stop (l.average a b) share := by
  cases direction with
  | long =>
    exact (mul_le_mul_of_nonneg_right (h.average_le (le_of_lt hpassed) hlt) (hshare rfl)).trans
      hclears
  | short =>
    have hclears' : stop ≤ l.marketFirst v * share := hclears
    have hpos : 0 < share := (pos_iff_pos_of_mul_pos (hstop.trans_le hclears')).mp marketFirst_pos
    exact hclears'.trans (mul_le_mul_of_nonneg_right (h.le_average (le_of_lt hpassed) hlt) hpos.le)

/-- An affine bound that holds right of a point holds at it. -/
theorem affine_nonneg {α β : ℚ} (hlt : v < top)
    (h : ∀ w, v < w → w ≤ top → 0 ≤ α + β * w) : 0 ≤ α + β * v := by
  by_contra hneg
  rw [not_le] at hneg
  rcases le_or_gt β 0 with hβ | hβ
  · have htop := h top hlt le_rfl
    have := mul_le_mul_of_nonpos_left hlt.le hβ
    linarith
  · -- half way to the zero of the bound
    set w := min top (v + -(α + β * v) / (2 * β)) with hw
    have hstep : 0 < -(α + β * v) / (2 * β) := div_pos (by linarith) (by linarith)
    have hvw : v < w := lt_min hlt (by linarith)
    have hle : β * w ≤ β * v + -(α + β * v) / 2 := by
      calc β * w ≤ β * (v + -(α + β * v) / (2 * β)) :=
            mul_le_mul_of_nonneg_left (min_le_right _ _) hβ.le
        _ = β * v + -(α + β * v) / 2 := by field_simp
    have := h w hvw (min_le_left _ _)
    linarith

/-- The comparison of a quotient, multiplied out. -/
theorem clears_div_iff {value quantity : ℚ} (hq : 0 < quantity) :
    Clears direction stop (value / quantity) share ↔
      match direction with
      | .long => 0 ≤ stop * quantity - value * share
      | .short => 0 ≤ value * share - stop * quantity := by
  cases direction with
  | long => simp only [Clears, div_mul_eq_mul_div, div_le_iff₀ hq, sub_nonneg]
  | short => simp only [Clears, div_mul_eq_mul_div, le_div_iff₀ hq, sub_nonneg]

/-- A stop that clears every position that costs more than `v`, up to some cost, clears the average
with the market leg first. -/
theorem clears_marketFirst (hv : 0 ≤ v) (hlt : v < top) (htop : top ≤ l.full)
    (h : ∀ a b, l.Fills a b → v < l.value a b → l.value a b ≤ top →
      Clears direction stop (l.average a b) share) :
    Clears direction stop (l.marketFirst v) share := by
  have hm := l.marketPrice_pos
  have hn := l.limitPrice_pos
  have hA := l.marketQuantity_pos
  have hB := l.limitQuantity_pos
  by_cases hfirst : v < l.marketPrice * l.marketQuantity
  · -- a part of the market leg alone
    set w := min top (l.marketPrice * l.marketQuantity) with hw
    have hvw : v < w := lt_min hlt hfirst
    have hcost : l.value (w / l.marketPrice) 0 = w := by
      unfold value
      field_simp
      ring
    have hpos : 0 < w / l.marketPrice := div_pos (hv.trans_lt hvw) hm
    have hfills : l.Fills (w / l.marketPrice) 0 := by
      refine ⟨hpos.le, ?_, le_rfl, hB.le, by simpa using hpos⟩
      rw [div_le_iff₀ hm, mul_comm]
      exact min_le_right _ _
    have haverage : l.average (w / l.marketPrice) 0 = l.marketPrice := by
      unfold average
      rw [hcost, add_zero]
      have := (hv.trans_lt hvw).ne'
      field_simp
    have hclears := h _ _ hfills (by rw [hcost]; exact hvw) (by rw [hcost]; exact min_le_left _ _)
    rw [haverage] at hclears
    unfold marketFirst
    rwa [if_pos hfirst]
  · -- the whole market leg, and ever less of the limit leg
    have hclears : ∀ w, v < w → w ≤ top →
        Clears direction stop (w / (l.marketQuantity + l.limitFill w)) share := by
      intro w hvw hwtop
      have hw : ¬ w < l.marketPrice * l.marketQuantity := fun hno => hfirst (hvw.trans hno)
      have hfill := limitFill_nonneg hw
      have hfills : l.Fills l.marketQuantity (l.limitFill w) := by
        refine ⟨hA.le, le_rfl, hfill, ?_, add_pos_of_pos_of_nonneg hA hfill⟩
        unfold limitFill
        rw [div_le_iff₀ hn, mul_comm]
        have := hwtop.trans htop
        unfold full value at this
        linarith
      have := h _ _ hfills (by rw [value_limitFill]; exact hvw)
        (by rw [value_limitFill]; exact hwtop)
      rwa [average, value_limitFill] at this
    have hquantity : ∀ w, v ≤ w → 0 < l.marketQuantity + l.limitFill w := fun w hvw =>
      add_pos_of_pos_of_nonneg hA (limitFill_nonneg fun hno => hfirst (hvw.trans_lt hno))
    unfold marketFirst
    rw [if_neg hfirst, clears_div_iff (hquantity v le_rfl)]
    cases direction with
    | long =>
      have haffine : ∀ w, stop * (l.marketQuantity + l.limitFill w) - w * share =
          stop * (l.marketQuantity - l.marketPrice * l.marketQuantity / l.limitPrice) +
            (stop / l.limitPrice - share) * w := by
        intro w
        unfold limitFill
        field_simp
        ring
      rw [haffine]
      refine affine_nonneg hlt fun w hvw hwtop => ?_
      rw [← haffine]
      exact (clears_div_iff (hquantity w hvw.le)).mp (hclears w hvw hwtop)
    | short =>
      have haffine : ∀ w, w * share - stop * (l.marketQuantity + l.limitFill w) =
          -stop * (l.marketQuantity - l.marketPrice * l.marketQuantity / l.limitPrice) +
            (share - stop / l.limitPrice) * w := by
        intro w
        unfold limitFill
        field_simp
        ring
      rw [haffine]
      refine affine_nonneg hlt fun w hvw hwtop => ?_
      rw [← haffine]
      exact (clears_div_iff (hquantity w hvw.le)).mp (hclears w hvw hwtop)

end TwoLegs

/-! ## The maintenance rates of a range of notionals -/

/-- The rate of a notional in a list of tiers. -/
def rateAt (notional : ℚ) : MMTier → List MMTier → ℚ
  | t, [] => t.mmr
  | t, t' :: ts =>
    if t.upperBoundNotional.all (notional ≤ ·) then t.mmr else rateAt notional t' ts

/-- The rates notionals between `cut` and `limit` are charged with, each with the point above which
it is charged. -/
def chargedFrom (limit : ℚ) : ℚ → MMTier → List MMTier → List (ℚ × ℚ)
  | cut, t, [] => if cut < limit then [(cut, t.mmr)] else []
  | cut, t, t' :: ts =>
    match t.upperBoundNotional with
    | none => if cut < limit then [(cut, t.mmr)] else []
    | some upper =>
      (if cut < min upper limit then [(cut, t.mmr)] else []) ++
        chargedFrom limit (max cut upper) t' ts

/-- The rates the notionals up to a limit are charged with. -/
def chargedRates (limit : ℚ) : List MMTier → List (ℚ × ℚ)
  | [] => []
  | t :: ts => chargedFrom limit 0 t ts

section Tiers

variable {notional limit cut : ℚ} {charged : ℚ × ℚ}

theorem selectMmr_cons (t : MMTier) (ts : List MMTier) :
    selectMmr notional (t :: ts) = .ok (rateAt notional t ts) := by
  induction ts generalizing t with
  | nil =>
    unfold selectMmr rateAt
    cases h : t.upperBoundNotional.all (notional ≤ ·) <;> simp [h]
  | cons t' ts ih =>
    unfold rateAt
    cases h : t.upperBoundNotional.all (notional ≤ ·) with
    | true =>
      unfold selectMmr
      rw [List.getLast?_eq_some_getLast (List.cons_ne_nil t (t' :: ts))]
      simp [h]
    | false =>
      rw [if_neg (by simp), ← ih t']
      simp [selectMmr, h]

theorem rateAt_nonneg (t : MMTier) (ts : List MMTier) : 0 ≤ rateAt notional t ts := by
  induction ts generalizing t with
  | nil => exact t.mmr_nonneg
  | cons t' ts ih =>
    unfold rateAt
    split
    · exact t.mmr_nonneg
    · exact ih t'

/-- The rate of every notional is charged above a point below it. -/
theorem exists_charged (hcut : cut < notional) (hlimit : notional ≤ limit) (t : MMTier)
    (ts : List MMTier) : ∃ charged ∈ chargedFrom limit cut t ts,
      charged.1 < notional ∧ charged.2 = rateAt notional t ts := by
  induction ts generalizing t cut with
  | nil =>
    unfold chargedFrom rateAt
    rw [if_pos (hcut.trans_le hlimit)]
    exact ⟨_, List.mem_cons_self, hcut, rfl⟩
  | cons t' ts ih =>
    unfold chargedFrom rateAt
    cases hupper : t.upperBoundNotional with
    | none =>
      dsimp only
      rw [if_pos (hcut.trans_le hlimit)]
      exact ⟨_, List.mem_cons_self, hcut, by simp⟩
    | some upper =>
      dsimp only
      rcases le_or_gt notional upper with hle | hlt
      · rw [if_pos (hcut.trans_le (le_min hle hlimit)), if_pos (by simpa using hle)]
        exact ⟨_, List.mem_append_left _ List.mem_cons_self, hcut, rfl⟩
      · obtain ⟨charged, hmem, hbelow, hrate⟩ := ih (max_lt hcut hlt) t'
        refine ⟨charged, List.mem_append_right _ hmem, hbelow, ?_⟩
        rw [hrate, if_neg (by simpa using hlt)]

/-- A charged rate is the one of all notionals of some range above its point. -/
theorem of_charged (t : MMTier) (ts : List MMTier) (h : charged ∈ chargedFrom limit cut t ts) :
    cut ≤ charged.1 ∧ ∃ top, charged.1 < top ∧ top ≤ limit ∧
      ∀ ν, charged.1 < ν → ν ≤ top → rateAt ν t ts = charged.2 := by
  induction ts generalizing t cut with
  | nil =>
    unfold chargedFrom at h
    split at h
    next hcut =>
      obtain rfl := List.mem_singleton.mp h
      exact ⟨le_rfl, limit, hcut, le_rfl, fun _ _ _ => rfl⟩
    · simp at h
  | cons t' ts ih =>
    unfold chargedFrom at h
    cases hupper : t.upperBoundNotional with
    | none =>
      rw [hupper] at h
      dsimp only at h
      split at h
      next hcut =>
        obtain rfl := List.mem_singleton.mp h
        exact ⟨le_rfl, limit, hcut, le_rfl, fun ν _ _ => by simp [rateAt, hupper]⟩
      · simp at h
    | some upper =>
      rw [hupper] at h
      dsimp only at h
      rcases List.mem_append.mp h with h | h
      · split at h
        next hcut =>
          obtain rfl := List.mem_singleton.mp h
          refine ⟨le_rfl, min upper limit, hcut, min_le_right _ _, fun ν _ hν => ?_⟩
          have hle := hν.trans (min_le_left _ _)
          simp [rateAt, hupper, hle]
        · simp at h
      · obtain ⟨hbelow, top, htop, hle, hrates⟩ := ih t' h
        refine ⟨(le_max_left _ _).trans hbelow, top, htop, hle, fun ν hν hνtop => ?_⟩
        have hlt : upper < ν := ((le_max_right _ _).trans hbelow).trans_lt hν
        unfold rateAt
        rw [hupper, if_neg (by simpa using hlt)]
        exact hrates ν hν hνtop

/-- A single tier is charged from the start. -/
theorem eq_of_charged {t : MMTier} (h : charged ∈ chargedRates limit [t]) : charged = (0, t.mmr) := by
  simp only [chargedRates, chargedFrom, List.mem_ite_nil_right] at h
  exact List.mem_singleton.mp h.2

theorem tiers_ne_nil {direction : Direction} {entry quantity stop priceTick fee c : ℚ}
    {leverage : ℕ} {floors : LiquidationFloors} {mmTiers : List MMTier}
    (h : guarded direction entry quantity leverage stop floors priceTick mmTiers fee c = .ok true) :
    mmTiers ≠ [] := by
  rintro rfl
  unfold guarded estimateLiquidationPrice at h
  simp only [selectMmr, List.getLast?_nil] at h
  split_ifs at h

end Tiers

/-! ## The guard of a split -/

section Split

variable {exponent : ℚ → ℤ} {env : LiveEnvironment} {p : ProviderSnapshot} {s : EntrySignal}
  {z : SizedEntry}

/-- The two legs of a split : the market leg is expected to fill at the observed price. -/
def SizedEntry.SplitLegs.twoLegs (h : z.SplitLegs p s) : TwoLegs where
  marketPrice := p.currentPrice
  limitPrice := z.prices.normalizedEntry
  marketQuantity := z.plan.quantity / 4
  limitQuantity := z.plan.quantity * 3 / 4
  marketPrice_pos := h.market_pos
  limitPrice_pos := h.entry_pos
  marketQuantity_pos := p.metadata.minOrderQty_pos.trans_le h.market.min_le
  limitQuantity_pos := p.metadata.minOrderQty_pos.trans_le h.limit.min_le

/-- The guard of the planner, at an average entry and a quantity. -/
def SizedEntry.GuardedAt (z : SizedEntry) (env : LiveEnvironment) (p : ProviderSnapshot)
    (s : EntrySignal) (entry quantity : ℚ) : Prop :=
  guarded s.dispatch.direction entry quantity z.plan.leverage z.prices.stop
    { buffer := env.liquidationBuffer } p.metadata.priceTick p.metadata.mmTiers (6 / 10000)
    p.metadata.contractValue = .ok true

/-- The share of an average entry the stop of a plan must clear at a maintenance rate. -/
def SizedEntry.clearanceAt (z : SizedEntry) (env : LiveEnvironment) (s : EntrySignal) (mmr : ℚ) :
    ℚ :=
  clearance s.dispatch.direction z.plan.leverage env.liquidationBuffer mmr (6 / 10000)

/-- The stop clears the rounded entry of its source by a tick. -/
theorem normalizedProtectionPrices_ok {direction : Direction} {entry canonical stopLoss tick stop n : ℚ}
    {takeProfits targets : List ℚ}
    (h : normalizedProtectionPrices direction entry canonical stopLoss takeProfits tick =
      .ok (stop, targets)) (hn : roundPriceToTick canonical tick = some n) :
    0 < tick ∧ 0 < stop ∧ tick ≤ (n - stop) * direction.sign := by
  have hclears : ∀ {targets : List ℚ} {e : ℚ},
      clearsEntry direction tick stop targets e = .ok () → tick ≤ (e - stop) * direction.sign := by
    intro targets e h
    unfold clearsEntry at h
    split at h
    · cases h
    next hclear => exact not_lt.mp hclear
  unfold normalizedProtectionPrices at h
  split at h
  · cases h
  simp only [bind, Except.bind] at h
  split at h
  · cases h
  split at h
  · cases h
  next r hr =>
    split at h
    · cases h
    next stop' hstop =>
      split at h
      · cases h
      split at h
      · cases h
      split at h
      · cases h
      next hcanonical =>
        split at h
        · obtain ⟨rfl, rfl⟩ := Prod.mk.inj (Except.ok.inj h)
          obtain ⟨htick, hpos, -⟩ := roundPriceToTick_some (toTick_ok hstop)
          obtain rfl : r = n := Option.some.inj ((toTick_ok hr).symm.trans hn)
          exact ⟨htick, hpos, hclears hcanonical⟩
        · cases h

/-- What the guard of a sized entry is checked with, and that it holds at the sizing price. -/
theorem sized_guarded (h : sizePreflight exponent env p s = .ok z) {r : ℚ} (hlegal : z.Legal p r) :
    z.GuardedAt env p s r z.plan.quantity ∧ 0 < env.liquidationBuffer ∧
      env.liquidationBuffer ≤ 1 ∧ 0 < p.metadata.priceTick ∧ 0 < z.prices.stop ∧
      p.metadata.priceTick ≤ (z.prices.normalizedEntry - z.prices.stop) * s.dispatch.direction.sign := by
  obtain ⟨risk, cap, -, -, hfloors, hprices, hplan, -⟩ := sizePreflight_ok h
  obtain ⟨⟨r', stop, fallbackUsed, hdecision⟩, -⟩ := sizedPlan_ok hplan
  obtain ⟨hround, hstop, -, hplanned⟩ := legal_of_accepted hdecision
  obtain ⟨-, -, -, canonical, stopLoss, targets, hprotection, hcanonical⟩ := entryPrices_ok hprices
  have hr : r' = r := Option.some.inj (hround.symm.trans hlegal.rounded)
  have hstop' : stop = z.prices.stop := by
    simpa [LiveSizingInput.stop, sizingInput] using hstop.symm
  have hbuffer : risk.floors.buffer = env.liquidationBuffer := by rw [hfloors]
  refine ⟨?_, hbuffer ▸ risk.buffer_pos, hbuffer ▸ risk.buffer_le,
    normalizedProtectionPrices_ok hprotection hcanonical⟩
  have hguarded := hplanned.guarded
  simp only [LiveSizingInput.planRequest, sizingInput, hr, hstop', hfloors] at hguarded
  exact hguarded

theorem clearanceAt_nonneg (hb : 0 < env.liquidationBuffer) (hb1 : env.liquidationBuffer ≤ 1)
    (hfive : 5 ≤ z.plan.leverage) {mmr : ℚ} (hmmr : 0 ≤ mmr) (hlong : s.dispatch.direction = .long) :
    0 ≤ z.clearanceAt env s mmr := by
  have hL : (5 : ℚ) ≤ z.plan.leverage := by exact_mod_cast hfive
  have hle : (1 : ℚ) / z.plan.leverage ≤ 1 / 5 := one_div_le_one_div_of_le (by norm_num) hL
  unfold SizedEntry.clearanceAt clearance
  rw [hlong]
  have hratio : 0 ≤ liquidationRatio .long (1 / z.plan.leverage) mmr (6 / 10000) := by
    simp only [liquidationRatio]
    linarith
  exact add_nonneg hb.le (mul_nonneg (sub_nonneg.mpr hb1) hratio)

/-- The guard at an average of the two legs is one comparison, at the rate of their notional. -/
theorem guardedAt_iff (hz : sizePreflight exponent env p s = .ok z) (hlegs : z.SplitLegs p s)
    {t : MMTier} {ts : List MMTier} (htiers : p.metadata.mmTiers = t :: ts) {a b : ℚ}
    (h : hlegs.twoLegs.Fills a b) :
    z.GuardedAt env p s (hlegs.twoLegs.average a b) (a + b) ↔
      Clears s.dispatch.direction z.prices.stop (hlegs.twoLegs.average a b)
        (z.clearanceAt env s
          (rateAt (hlegs.twoLegs.value a b * p.metadata.contractValue) t ts)) := by
  obtain ⟨r, hlegal⟩ := sized_legal hz
  obtain ⟨-, hb, hb1, htick, hstop, hgap⟩ := sized_guarded hz hlegal
  have hfive := hlegal.five_le
  have hnotional : hlegs.twoLegs.average a b * (a + b) * p.metadata.contractValue =
      hlegs.twoLegs.value a b * p.metadata.contractValue := by
    rw [TwoLegs.average, div_mul_cancel₀ _ h.pos.ne']
  have hmmr : selectMmr (hlegs.twoLegs.average a b * (a + b) * p.metadata.contractValue)
      p.metadata.mmTiers =
        .ok (rateAt (hlegs.twoLegs.value a b * p.metadata.contractValue) t ts) := by
    rw [hnotional, htiers, selectMmr_cons]
  -- the stop is beyond the source price, and the average on the side of the market
  have hbefore : Before s.dispatch.direction (hlegs.twoLegs.average a b) z.prices.stop := by
    have hpassed := hlegs.passed
    obtain ⟨hmin, hmax⟩ := h.average_mem
    cases hdir : s.dispatch.direction with
    | long =>
      simp only [hdir, passedEntry] at hpassed
      rw [hdir] at hgap
      simp only [Direction.sign, mul_one] at hgap
      calc z.prices.stop < z.prices.normalizedEntry := by linarith
        _ = min p.currentPrice z.prices.normalizedEntry := (min_eq_right hpassed.le).symm
        _ ≤ hlegs.twoLegs.average a b := hmin
    | short =>
      simp only [hdir, passedEntry] at hpassed
      rw [hdir] at hgap
      simp only [Direction.sign] at hgap
      calc hlegs.twoLegs.average a b ≤ max p.currentPrice z.prices.normalizedEntry := hmax
        _ = z.prices.normalizedEntry := max_eq_right hpassed.le
        _ < z.prices.stop := by linarith
  unfold SizedEntry.GuardedAt
  rw [guarded_iff h.average_pos h.pos hstop (by omega) p.metadata.contractValue_pos (by norm_num)
    hb hb1 hmmr (rateAt_nonneg t ts)]
  exact and_iff_right hbefore

/-- The guard the planner checked at its sizing price holds at every average entry of the split
exactly when, for every rate the split can be charged with, the stop clears the average of the
market leg first at the lowest notional so charged. -/
theorem split_guard_iff (hz : sizePreflight exponent env p s = .ok z) (hsplit : z.split = true) :
    (∀ a b, (split_legs hz hsplit).twoLegs.Fills a b →
      z.GuardedAt env p s ((split_legs hz hsplit).twoLegs.average a b) (a + b)) ↔
    ∀ charged ∈ chargedRates
        ((split_legs hz hsplit).twoLegs.full * p.metadata.contractValue) p.metadata.mmTiers,
      Clears s.dispatch.direction z.prices.stop
        ((split_legs hz hsplit).twoLegs.marketFirst (charged.1 / p.metadata.contractValue))
        (z.clearanceAt env s charged.2) := by
  have hlegs := split_legs hz hsplit
  obtain ⟨r, hlegal⟩ := sized_legal hz
  obtain ⟨hguarded, hb, hb1, -, hstop, -⟩ := sized_guarded hz hlegal
  have hc := p.metadata.contractValue_pos
  cases htiers : p.metadata.mmTiers with
  | nil => exact absurd htiers (tiers_ne_nil hguarded)
  | cons t ts =>
    constructor
    · intro hall charged hmem
      obtain ⟨hpos, top, htop, hle, hrate⟩ := of_charged t ts hmem
      refine TwoLegs.clears_marketFirst (div_nonneg hpos hc.le)
        ((div_lt_div_iff_of_pos_right hc).mpr htop)
        ((div_le_iff₀ hc).mpr hle) fun a b hfills hv hvtop => ?_
      have hat := (guardedAt_iff hz hlegs htiers hfills).mp (hall a b hfills)
      rwa [hrate _ ((div_lt_iff₀ hc).mp hv) ((le_div_iff₀ hc).mp hvtop)] at hat
    · intro hall a b hfills
      obtain ⟨charged, hmem, hbelow, hrate⟩ := exists_charged (mul_pos hfills.value_pos hc)
        (mul_le_mul_of_nonneg_right hfills.value_le hc.le) t ts
      refine (guardedAt_iff hz hlegs htiers hfills).mpr ?_
      rw [← hrate]
      exact hfills.clears hlegs.passed ((div_lt_iff₀ hc).mpr hbelow) hstop
        (clearanceAt_nonneg hb hb1 hlegal.five_le (hrate ▸ rateAt_nonneg t ts)) (hall charged hmem)

end Split

/-! ### A short split -/

/-- A symbol of which a small entry can be split, and a price. -/
def quarterLots (price : ℚ) : ProviderSnapshot where
  metadata :=
    { smallLots with
      minOrderQty := 1 / 100
      minNotional := 1
      minOrderQty_pos := smallLots.sizeStep_pos }
  currentPrice := price
  available := 100
  equity := 100
  activePositions := 0

/-- A short entry at 100 whose source is ten seconds old. -/
def recentShort (stop : ℚ) : EntrySignal where
  dispatch := ⟨1, .submitting, "BTCUSDT", .short, 100, none, none, .market, none, none, 0, none⟩
  stopLoss := stop
  takeProfits := [95]
  sourceAge := some 10

/-- The market is at 99.6, and the split is guarded at 100. Filled at the market alone, the stop at
103.9 is too close to where the position dies. -/
theorem shortSplit_unguarded : ∃ z,
    sizePreflight (fun _ => 0) liveDefaults (quarterLots (996 / 10)) (recentShort (1039 / 10)) =
      .ok z ∧
    ∃ hlegs : z.SplitLegs (quarterLots (996 / 10)) (recentShort (1039 / 10)),
      z.sizedAt = 100 ∧
      z.GuardedAt liveDefaults (quarterLots (996 / 10)) (recentShort (1039 / 10)) 100
        z.plan.quantity ∧
      hlegs.twoLegs.Fills (z.plan.quantity / 4) 0 ∧
      ¬ z.GuardedAt liveDefaults (quarterLots (996 / 10)) (recentShort (1039 / 10))
        (hlegs.twoLegs.average (z.plan.quantity / 4) 0) (z.plan.quantity / 4 + 0) := by
  have hsome : (sizePreflight (fun _ => 0) liveDefaults (quarterLots (996 / 10))
      (recentShort (1039 / 10))).toOption.any (fun z => z.split && decide (z.sizedAt = 100) &&
        decide (z.prices.normalizedEntry = 100) && decide (z.prices.stop = 1039 / 10) &&
        decide (z.plan.quantity = 1 / 5) && decide (z.plan.leverage = 20)) = true := by
    decide +kernel
  cases hz : sizePreflight (fun _ => 0) liveDefaults (quarterLots (996 / 10))
      (recentShort (1039 / 10)) with
  | error e => simp [hz, Except.toOption] at hsome
  | ok z =>
    simp only [hz, Except.toOption, Option.any_some, Bool.and_eq_true, decide_eq_true_eq] at hsome
    obtain ⟨⟨⟨⟨⟨hsplit, hat⟩, hentry⟩, hstop⟩, hquantity⟩, hleverage⟩ := hsome
    have hlegs := split_legs hz hsplit
    have haverage : hlegs.twoLegs.average (z.plan.quantity / 4) 0 = 996 / 10 := by
      simp only [TwoLegs.average, TwoLegs.value, SizedEntry.SplitLegs.twoLegs, hquantity, quarterLots]
      norm_num
    refine ⟨z, rfl, hlegs, hat, ?_, ?_, ?_⟩
    · simp only [SizedEntry.GuardedAt, hstop, hquantity, hleverage]
      decide +kernel
    · refine ⟨?_, le_rfl, le_rfl, ?_, ?_⟩ <;>
        simp only [SizedEntry.SplitLegs.twoLegs, hquantity] <;> norm_num
    · rw [haverage]
      simp only [SizedEntry.GuardedAt, hstop, hquantity, hleverage]
      decide +kernel

/-- With its stop at 102 the same split is guarded at every average. -/
theorem shortSplit_guarded : ∃ z,
    sizePreflight (fun _ => 0) liveDefaults (quarterLots (996 / 10)) (recentShort 102) = .ok z ∧
    ∃ hlegs : z.SplitLegs (quarterLots (996 / 10)) (recentShort 102),
      ∀ a b, hlegs.twoLegs.Fills a b →
        z.GuardedAt liveDefaults (quarterLots (996 / 10)) (recentShort 102)
          (hlegs.twoLegs.average a b) (a + b) := by
  have hsome : (sizePreflight (fun _ => 0) liveDefaults (quarterLots (996 / 10))
      (recentShort 102)).toOption.any (fun z => z.split && decide (z.prices.stop = 102) &&
        decide (z.plan.quantity = 1 / 5) && decide (z.plan.leverage = 20)) = true := by
    decide +kernel
  cases hz : sizePreflight (fun _ => 0) liveDefaults (quarterLots (996 / 10)) (recentShort 102) with
  | error e => simp [hz, Except.toOption] at hsome
  | ok z =>
    simp only [hz, Except.toOption, Option.any_some, Bool.and_eq_true, decide_eq_true_eq] at hsome
    obtain ⟨⟨⟨hsplit, hstop⟩, hquantity⟩, hleverage⟩ := hsome
    refine ⟨z, rfl, split_legs hz hsplit, (split_guard_iff hz hsplit).mpr fun charged hmem => ?_⟩
    obtain rfl := eq_of_charged hmem
    have hfirst : (split_legs hz hsplit).twoLegs.marketFirst
        (0 / (quarterLots (996 / 10)).metadata.contractValue) = 996 / 10 := by
      rw [zero_div, TwoLegs.marketFirst, if_pos]
      · rfl
      · simp only [SizedEntry.SplitLegs.twoLegs, hquantity, quarterLots]
        norm_num
    rw [hfirst]
    simp only [Clears, recentShort, SizedEntry.clearanceAt, clearance, liquidationRatio, hstop,
      hleverage, liveDefaults]
    norm_num

end FattyTrader
