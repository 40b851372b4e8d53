import FattyTrader.Preflight
import Mathlib.Analysis.SpecialFunctions.Log.Base
import Mathlib.Data.Int.Log

/-!
# The scale of a source

`align_price_scale` divides the prices of a source by a power of ten when the source quotes another
unit than the venue. The power is the rounded logarithm of the ratio of entry and mark
(`nearestExponent_eq_round`), and half a decade on either side of it is what the aligned ratio is
left with. So the exponent of an aligned signal is zero, and a second alignment finds nothing to do
(`nearestExponent_div`).

The ratio is turned into a float first. One beyond the floats is infinite, and its logarithm has no
rounded integer : the call raises there, and nowhere else (`scale_aligned_iff`).
-/

set_option linter.unusedSectionVars false

namespace FattyTrader

namespace PriceScale

/-! ## The exponent -/

/-- `round(math.log10(ratio))` : the `k` with `10 ^ (2 k - 1) ≤ ratio ^ 2 < 10 ^ (2 k + 1)`. -/
def nearestExponent (ratio : ℚ) : ℤ := (Int.log 10 (ratio ^ 2) + 1) / 2

theorem nearestExponent_eq_iff {ratio : ℚ} (hratio : 0 < ratio) (k : ℤ) :
    nearestExponent ratio = k ↔
      (10 : ℚ) ^ (2 * k - 1) ≤ ratio ^ 2 ∧ ratio ^ 2 < (10 : ℚ) ^ (2 * k + 1) := by
  have hsq : 0 < ratio ^ 2 := by positivity
  have hle := Int.zpow_le_iff_le_log (b := 10) (by norm_num) (x := 2 * k - 1) hsq
  have hlt := Int.lt_zpow_iff_log_lt (b := 10) (by norm_num) (x := 2 * k + 1) hsq
  rw [show ((10 : ℕ) : ℚ) = 10 by norm_num] at hle hlt
  rw [hle, hlt, nearestExponent]
  omega

/-- The exponent is the rounded logarithm. -/
theorem nearestExponent_eq_round {ratio : ℚ} (hratio : 0 < ratio) :
    nearestExponent ratio = round (Real.logb 10 ratio) := by
  obtain ⟨hle, hlt⟩ := (nearestExponent_eq_iff hratio _).mp rfl
  set k := nearestExponent ratio
  have hreal : (0 : ℝ) < (ratio : ℝ) ^ 2 := by positivity
  have hlog : Real.logb 10 ((ratio : ℝ) ^ 2) = 2 * Real.logb 10 ratio := by
    rw [Real.logb_pow, Nat.cast_ofNat]
  have hlow : ((2 * k - 1 : ℤ) : ℝ) ≤ 2 * Real.logb 10 ratio := by
    rw [← hlog, Real.le_logb_iff_rpow_le (by norm_num) hreal, Real.rpow_intCast]
    have := (Rat.cast_le (K := ℝ)).mpr hle
    push_cast at this
    exact this
  have hhigh : 2 * Real.logb 10 ratio < ((2 * k + 1 : ℤ) : ℝ) := by
    rw [← hlog, Real.logb_lt_iff_lt_rpow (by norm_num) hreal, Real.rpow_intCast]
    have := (Rat.cast_lt (K := ℝ)).mpr hlt
    push_cast at this
    exact this
  push_cast at hlow hhigh
  rw [round_eq, eq_comm, Int.floor_eq_iff]
  constructor <;> linarith

/-- What is left of a ratio after its power of ten is taken out has the exponent zero. -/
theorem nearestExponent_div {ratio : ℚ} (hratio : 0 < ratio) :
    nearestExponent (ratio / 10 ^ nearestExponent ratio) = 0 := by
  have hpow : (0 : ℚ) < 10 ^ nearestExponent ratio := by positivity
  obtain ⟨hle, hlt⟩ := (nearestExponent_eq_iff hratio _).mp rfl
  have hsq : ((10 : ℚ) ^ nearestExponent ratio) ^ 2 = 10 ^ (2 * nearestExponent ratio) := by
    rw [two_mul, zpow_add₀ (by norm_num), sq]
  rw [nearestExponent_eq_iff (div_pos hratio hpow), div_pow, hsq, le_div_iff₀ (by positivity),
    div_lt_iff₀ (by positivity), ← zpow_add₀ (by norm_num), ← zpow_add₀ (by norm_num)]
  constructor
  · rwa [show 2 * 0 - 1 + 2 * nearestExponent ratio = 2 * nearestExponent ratio - 1 by ring]
  · rwa [show 2 * 0 + 1 + 2 * nearestExponent ratio = 2 * nearestExponent ratio + 1 by ring]

/-- The rounding of the float and of its logarithm : the exponent is the nearest one of a number
within a thousandth of the ratio. -/
def Nearby (exponent : ℚ → ℤ) : Prop :=
  ∀ ratio, 0 < ratio → ∃ y, |y - ratio| ≤ ratio / 1000 ∧ exponent ratio = nearestExponent y

theorem Nearby.nearest : Nearby nearestExponent := by
  intro ratio hratio
  have hclose : 0 ≤ ratio / 1000 := by positivity
  exact ⟨ratio, by simpa using hclose, rfl⟩

/-- Two thirds around one, the exponent is zero. -/
theorem Nearby.exponent_eq_zero {exponent : ℚ → ℤ} (h : Nearby exponent) {ratio : ℚ}
    (hlow : 1 / 3 ≤ ratio) (hhigh : ratio ≤ 5 / 3) : exponent ratio = 0 := by
  obtain ⟨y, hy, hexponent⟩ := h ratio (by linarith)
  obtain ⟨hylow, hyhigh⟩ := abs_le.mp hy
  rw [hexponent, nearestExponent_eq_iff (by linarith)]
  norm_num
  constructor <;> nlinarith

/-! ## The alignment -/

/-- Every price divided by one scale. -/
def divided (p : SourcePrices) (scale : ℚ) : SourcePrices :=
  ⟨p.entry / scale, p.stopLoss / scale, p.takeProfits.map (· / scale)⟩

/-- `direction.upper() == "LONG"` ; every other text is a short. -/
def directionOf (direction : String) : Direction :=
  if direction.toUpper = "LONG" then .long else .short

/-- The least ratio `float` turns into infinity, halfway behind the greatest float. -/
def infiniteFrom : ℚ := 2 ^ 1024 - 2 ^ 970

/-- The greatest ratio it turns into zero, half of the least float. -/
def zeroUpTo : ℚ := 1 / 2 ^ 1075

/-- `align_price_scale` : the prices and the scale they were divided by, `none` where it raises.
`exponent` is `round(math.log10(ratio))` of a finite ratio. -/
def alignPriceScale (exponent : ℚ → ℤ) (p : SourcePrices) (marketPrice : ℚ) (direction : String)
    (maxRelativeError : ℚ) : Option (SourcePrices × ℚ) :=
  if p.entry ≤ 0 ∨ marketPrice ≤ 0 then some (p, 1)
  else
    let ratio := p.entry / marketPrice
    -- the logarithm of infinity is infinity, and `round` of it is an `OverflowError`
    if infiniteFrom ≤ ratio then none
    else if ratio ≤ zeroUpTo then some (p, 1)
    else
      let k := exponent ratio
      if k = 0 ∨ 8 < |k| then some (p, 1)
      else
        let scale : ℚ := 10 ^ k
        let scaled := divided p scale
        if maxRelativeError < |scaled.entry - marketPrice| / marketPrice then some (p, 1)
        else if scaled.ordered (directionOf direction) then some (scaled, scale) else some (p, 1)

/-- A ratio that turns into zero has an exponent out of range. -/
theorem nearestExponent_of_zero {ratio : ℚ} (hratio : 0 < ratio) (hzero : ratio ≤ zeroUpTo) :
    8 < |nearestExponent ratio| := by
  obtain ⟨hle, -⟩ := (nearestExponent_eq_iff hratio _).mp rfl
  have hsmall : ratio ≤ 1 / 10 ^ 9 := hzero.trans (by decide +kernel)
  have hsquare : ratio ^ 2 ≤ (10 : ℚ) ^ (-18 : ℤ) :=
    calc ratio ^ 2 ≤ (1 / 10 ^ 9) ^ 2 := pow_le_pow_left₀ hratio.le hsmall 2
      _ = (10 : ℚ) ^ (-18 : ℤ) := by norm_num
  have hexponent : 2 * nearestExponent ratio - 1 ≤ -18 :=
    (zpow_le_zpow_iff_right₀ (by norm_num : (1 : ℚ) < 10)).mp (hle.trans hsquare)
  rw [lt_abs]
  omega

/-- The prices the preflight goes on with, where the call returns. -/
theorem alignPriceScale_fst {p : SourcePrices} {marketPrice : ℚ} {direction : String}
    {aligned : SourcePrices × ℚ}
    (h : alignPriceScale nearestExponent p marketPrice direction (35 / 100) = some aligned) :
    aligned.1 =
      FattyTrader.alignPriceScale nearestExponent p marketPrice (directionOf direction) := by
  unfold alignPriceScale at h
  unfold FattyTrader.alignPriceScale
  dsimp only [divided] at h ⊢
  split_ifs at h with hpos hinfinite hzero hk hnear hordered <;> obtain rfl := Option.some.inj h
  · rw [if_pos hpos]
  · rw [not_or, not_le, not_le] at hpos
    have hout := nearestExponent_of_zero (div_pos hpos.1 hpos.2) hzero
    rw [if_pos (Or.inr hout), ite_self]
  · rw [if_neg hpos, if_pos hk]
  · rw [if_neg hpos, if_neg hk, if_pos hnear]
  · rw [if_neg hpos, if_neg hk, if_neg hnear, if_pos hordered]
  · rw [if_neg hpos, if_neg hk, if_neg hnear, if_neg hordered]

/-- The prices were divided by one power of ten, and are a signal at the mark. -/
structure Aligned (p : SourcePrices) (marketPrice : ℚ) (direction : Direction)
    (maxRelativeError : ℚ) (k : ℤ) : Prop where
  bounds : 1 ≤ |k| ∧ |k| ≤ 8
  near : |(divided p (10 ^ k)).entry - marketPrice| / marketPrice ≤ maxRelativeError
  ordered : (divided p (10 ^ k)).ordered direction

section Law

variable {exponent : ℚ → ℤ} {p : SourcePrices} {marketPrice : ℚ} {direction : String}
  {maxRelativeError : ℚ}

/-- A signal whose exponent is zero is left alone. -/
theorem alignPriceScale_of_exponent (hfinite : p.entry / marketPrice < infiniteFrom)
    (h : exponent (p.entry / marketPrice) = 0) :
    alignPriceScale exponent p marketPrice direction maxRelativeError = some (p, 1) := by
  unfold alignPriceScale
  dsimp only
  rw [if_neg (not_le.mpr hfinite), h]
  split_ifs <;> simp_all

/-- The call raises where the ratio is infinite. -/
theorem alignPriceScale_eq_none_iff :
    alignPriceScale exponent p marketPrice direction maxRelativeError = none ↔
      0 < p.entry ∧ 0 < marketPrice ∧ infiniteFrom ≤ p.entry / marketPrice := by
  unfold alignPriceScale
  dsimp only
  split_ifs with hpos hinfinite
  · simp only [false_iff]
    rintro ⟨hentry, hmarket, -⟩
    rcases hpos with hpos | hpos <;> linarith
  · rw [not_or, not_le, not_le] at hpos
    exact iff_of_true rfl ⟨hpos.1, hpos.2, hinfinite⟩
  all_goals simp [hinfinite]

/-- The signal is left alone, or divided by the power of its own exponent. -/
theorem alignPriceScale_cases {aligned : SourcePrices × ℚ}
    (h : alignPriceScale exponent p marketPrice direction maxRelativeError = some aligned) :
    aligned = (p, 1) ∨
      0 < p.entry ∧ 0 < marketPrice ∧ ∃ k, k = exponent (p.entry / marketPrice) ∧
        Aligned p marketPrice (directionOf direction) maxRelativeError k ∧
        aligned = (divided p (10 ^ k), 10 ^ k) := by
  unfold alignPriceScale at h
  dsimp only at h
  split_ifs at h with hpos hinfinite hzero hk hnear hordered <;> obtain rfl := Option.some.inj h
  · exact Or.inl rfl
  · exact Or.inl rfl
  · exact Or.inl rfl
  · exact Or.inl rfl
  · rw [not_or, not_le, not_le] at hpos
    rw [not_or, not_lt] at hk
    exact Or.inr ⟨hpos.1, hpos.2, _, rfl,
      ⟨⟨Int.one_le_abs hk.1, hk.2⟩, not_lt.mp hnear, hordered⟩, rfl⟩
  · exact Or.inl rfl

variable (exponent p marketPrice direction maxRelativeError) in
/-- The signal is returned unchanged with scale one, or every price of it divided by one power of
ten of at most eight decades, after which it is near the mark and in order. The alignment of the
result changes nothing. -/
def ScaleAligned : Prop :=
  ∃ aligned, alignPriceScale exponent p marketPrice direction maxRelativeError = some aligned ∧
    (aligned = (p, 1) ∨ ∃ k, Aligned p marketPrice (directionOf direction) maxRelativeError k ∧
      aligned = (divided p (10 ^ k), 10 ^ k)) ∧
    alignPriceScale exponent aligned.1 marketPrice direction maxRelativeError = some (aligned.1, 1)

variable (p marketPrice) in
/-- The ratio of positive prices is a finite float. -/
def FiniteRatio : Prop :=
  0 < p.entry → 0 < marketPrice → p.entry / marketPrice < infiniteFrom

/-- An alignment holds up where the exponent of an aligned ratio is zero. -/
theorem scaleAligned_iff_finite (hexponent : ∀ k, 0 < p.entry → 0 < marketPrice →
      k = exponent (p.entry / marketPrice) →
      Aligned p marketPrice (directionOf direction) maxRelativeError k →
      p.entry / marketPrice / 10 ^ k < infiniteFrom ∧
        exponent (p.entry / marketPrice / 10 ^ k) = 0) :
    ScaleAligned exponent p marketPrice direction maxRelativeError ↔ FiniteRatio p marketPrice := by
  have hraises := @alignPriceScale_eq_none_iff exponent p marketPrice direction maxRelativeError
  constructor
  · rintro ⟨aligned, h, -⟩ hentry hmarket
    by_contra hinfinite
    rw [hraises.mpr ⟨hentry, hmarket, not_lt.mp hinfinite⟩] at h
    cases h
  · intro hfinite
    obtain hnone | ⟨aligned, h⟩ := Option.eq_none_or_eq_some
      (alignPriceScale exponent p marketPrice direction maxRelativeError)
    · obtain ⟨hentry, hmarket, hinfinite⟩ := hraises.mp hnone
      exact absurd (hfinite hentry hmarket) (not_lt.mpr hinfinite)
    refine ⟨aligned, h, ?_⟩
    rcases alignPriceScale_cases h with rfl | ⟨hentry, hmarket, k, hk, haligned, rfl⟩
    · exact ⟨Or.inl rfl, h⟩
    · refine ⟨Or.inr ⟨k, haligned, rfl⟩, ?_⟩
      have hratio : (divided p (10 ^ k)).entry / marketPrice = p.entry / marketPrice / 10 ^ k :=
        div_right_comm _ _ _
      obtain ⟨hfinite', hzero⟩ := hexponent k hentry hmarket hk haligned
      exact alignPriceScale_of_exponent (hratio ▸ hfinite') (hratio ▸ hzero)

/-- How far the ratio of an aligned signal is from one. -/
theorem Aligned.ratio_near {direction : Direction} {k : ℤ} (hmarket : 0 < marketPrice)
    (h : Aligned p marketPrice direction maxRelativeError k) :
    |p.entry / marketPrice / 10 ^ k - 1| ≤ maxRelativeError := by
  have hentry : p.entry / marketPrice / 10 ^ k - 1 =
      ((divided p (10 ^ k)).entry - marketPrice) / marketPrice := by
    rw [sub_div, div_self hmarket.ne']
    exact congrArg (· - 1) (div_right_comm _ _ _)
  rw [hentry, abs_div, abs_of_pos hmarket]
  exact h.near

end Law

theorem ten_lt_infiniteFrom : 10 < infiniteFrom := by decide +kernel

/-- A source that quotes a hundred units where the venue quotes one. -/
def quotedInHundreds : SourcePrices := ⟨502 / 1000000, 4902 / 10000000, [575 / 1000000]⟩

example : alignPriceScale nearestExponent quotedInHundreds (518 / 100000000) "Long" (35 / 100) =
    some (⟨502 / 100000000, 4902 / 1000000000, [575 / 100000000]⟩, 100) := by
  decide +kernel

end PriceScale

end FattyTrader
