import FattyTrader.JsonValues
import FattyTrader.Sizing
import Mathlib.Data.List.Sort
import Mathlib.Order.WithBot
import Mathlib.Data.Set.Finite.Lemmas

/-!
# Margin tiers of the position-lever table

`mmTiersFromPositionLever` makes the tiers of a symbol from the rows of the venue's table, in the
order of their bounds, and takes the bound off the last one. `selectMmr` takes the first tier that
reaches a notional.

The rate a table prescribes is the one of the row with the smallest bound that reaches the notional,
or of the widest row (`Prescribed`). With the bounds as the code reads them, the tier that is taken
is such a row (`exists_prescribed`). The table has no bound where `endUnit` is zero, and the code
knows four spellings of zero (`unboundedMark`). Another one is read as the bound zero (`Misread`), so
the row sorts first and reaches no notional. `mmTiers_keep_table_iff` says when the rates are those
of the table all the same.
-/

set_option linter.unusedSectionVars false

open FattyTrader.JsonValues

namespace FattyTrader.MarginTiers

/-! ## Reading the table -/

inductive LeverError
  | value (message : String)
  /-- A tier with a negative bound. -/
  | validation
deriving DecidableEq

variable (P : Texts)

/-- `_decimal`, without the check of the sign. -/
def decimalField (v : Json) (field : String) : Except LeverError ℚ :=
  match P.number v with
  | none => .error (.value ("invalid " ++ field))
  | some (.finite q) => .ok q
  | some _ => .error (.value (field ++ " must be finite"))

/-- `raw in (None, "", 0, "0")`. -/
def unboundedMark : Json → Bool
  | .null => true
  | .bool b => !b
  | .number t => !(Json.number t).truthy
  | .str s => s = "" || s = "0"
  | _ => false

/-- The bound of a row, none where it is marked as unbounded. -/
def boundField (row : Fields) : Except LeverError (Option ℚ) :=
  if unboundedMark (valueOf row "endUnit") then .ok none
  else (decimalField P (valueOf row "endUnit") "position-lever endUnit").map some

/-- The tier of a row. -/
def tierOf (row : Fields) : Except LeverError MMTier :=
  match boundField P row with
  | .error e => .error e
  | .ok bound =>
    match decimalField P (valueOf row "keepMarginRate") "keepMarginRate" with
    | .error e => .error e
    | .ok mmr =>
      if h : 0 < mmr ∧ mmr ≤ 1 then
        if bound.any (· < 0) then .error .validation else .ok ⟨bound, mmr, h.1.le⟩
      else .error (.value "keepMarginRate must be in (0, 1]")

/-- The bound a tier is sorted by : a tier without one comes last. -/
def tierUpper (t : MMTier) : WithTop ℚ :=
  match t.upperBoundNotional with
  | none => ⊤
  | some q => q

def tierLe (a b : MMTier) : Prop := tierUpper a ≤ tierUpper b

instance : DecidableRel tierLe := fun a b => inferInstanceAs (Decidable (tierUpper a ≤ tierUpper b))

instance : Std.Total tierLe := ⟨fun a b => le_total (tierUpper a) (tierUpper b)⟩

instance : IsTrans MMTier tierLe := ⟨fun _ _ _ => le_trans⟩

/-- The last tier becomes the one without a bound. -/
def catchAll : List MMTier → List MMTier
  | [] => []
  | [t] => [{ t with upperBoundNotional := none }]
  | t :: t' :: ts => t :: catchAll (t' :: ts)

/-- The rows of a symbol. -/
def matching (rows : List Fields) (symbol : String) : List Fields :=
  rows.filter fun row => P.upper (P.text ((entry row "symbol").getD (.str ""))) = P.upper symbol

/-- `mm_tiers_from_position_lever`. -/
def mmTiersFromPositionLever (rows : List Fields) (symbol : String) :
    Except LeverError (List MMTier) :=
  if matching P rows symbol = [] then
    .error (.value ("unknown Bitget position-lever symbol: " ++ P.upper symbol))
  else ((matching P rows symbol).mapM (tierOf P)).map fun tiers =>
    catchAll (tiers.insertionSort tierLe)

/-! ## What a table prescribes -/

section Prescribed

variable {α : Type*}

/-- The element has the smallest bound at or above `n`, or the widest bound where none reaches
`n`. -/
def Prescribed (upper : α → WithTop ℚ) (rows : List α) (n : ℚ) (r : α) : Prop :=
  r ∈ rows ∧ ((n ≤ upper r ∧ ∀ r' ∈ rows, n ≤ upper r' → upper r ≤ upper r') ∨
    ((∀ r' ∈ rows, upper r' < n) ∧ ∀ r' ∈ rows, upper r' ≤ upper r))

variable {upper : α → WithTop ℚ} {rows rows' : List α} {n : ℚ} {r r' : α}

theorem Prescribed.of_subset_subset (h : Prescribed upper rows n r) (hsub : rows ⊆ rows')
    (hsub' : rows' ⊆ rows) : Prescribed upper rows' n r := by
  obtain ⟨hr, ⟨hreach, hmin⟩ | ⟨hnone, hmax⟩⟩ := h
  · exact ⟨hsub hr, Or.inl ⟨hreach, fun r' hr' => hmin r' (hsub' hr')⟩⟩
  · exact ⟨hsub hr, Or.inr ⟨fun r' hr' => hnone r' (hsub' hr'), fun r' hr' => hmax r' (hsub' hr')⟩⟩

/-- The first element of a list sorted by bounds that reaches `n`, or else the last one. -/
theorem exists_prescribed_of_sorted : ∀ {rows : List MMTier}, rows.Pairwise tierLe → rows ≠ [] →
    ∃ t, Prescribed tierUpper rows n t ∧ selectMmr n (catchAll rows) = .ok t.mmr
  | [], _, hne => absurd rfl hne
  | [t], _, _ => by
    refine ⟨t, ⟨List.mem_singleton_self t, ?_⟩, by simp [catchAll, selectMmr]⟩
    rcases le_or_gt (n : WithTop ℚ) (tierUpper t) with h | h
    · exact Or.inl ⟨h, by simp⟩
    · exact Or.inr ⟨by simpa using h, by simp⟩
  | t :: t' :: ts, hsorted, _ => by
    obtain ⟨hfirst, htail⟩ := List.pairwise_cons.mp hsorted
    have hall : t.upperBoundNotional.all (n ≤ ·) = true ↔ (n : WithTop ℚ) ≤ tierUpper t := by
      unfold tierUpper
      cases t.upperBoundNotional with
      | none => simp
      | some q => simp [WithTop.coe_le_coe]
    have hlast : ∃ last, (catchAll (t' :: ts)).getLast? = some last := by
      cases ts with
      | nil => exact ⟨_, rfl⟩
      | cons t'' ts => exact ⟨_, List.getLast?_eq_some_getLast (by simp [catchAll])⟩
    obtain ⟨last, hlast⟩ := hlast
    by_cases hreach : (n : WithTop ℚ) ≤ tierUpper t
    · refine ⟨t, ⟨List.mem_cons_self, Or.inl ⟨hreach, fun r' hr' _ => ?_⟩⟩, ?_⟩
      · rcases List.mem_cons.mp hr' with rfl | hr'
        · exact le_rfl
        · exact hfirst r' hr'
      · simp [catchAll, selectMmr, List.getLast?_cons, hlast, hall.mpr hreach]
    · obtain ⟨t₀, ⟨hmem, hkind⟩, hselect⟩ :=
        exists_prescribed_of_sorted htail (List.cons_ne_nil _ _)
      refine ⟨t₀, ⟨List.mem_cons_of_mem _ hmem, ?_⟩, ?_⟩
      · rcases hkind with ⟨hreach₀, hmin⟩ | ⟨hnone, hmax⟩
        · refine Or.inl ⟨hreach₀, fun r' hr' h' => ?_⟩
          rcases List.mem_cons.mp hr' with rfl | hr'
          · exact absurd h' hreach
          · exact hmin r' hr' h'
        · refine Or.inr ⟨fun r' hr' => ?_, fun r' hr' => ?_⟩
          · rcases List.mem_cons.mp hr' with rfl | hr'
            · exact not_le.mp hreach
            · exact hnone r' hr'
          · rcases List.mem_cons.mp hr' with rfl | hr'
            · exact hfirst t₀ hmem
            · exact hmax r' hr'
      · rw [← hselect]
        have hnot : t.upperBoundNotional.all (n ≤ ·) = false := by
          simpa using fun h => hreach (hall.mp h)
        simp [catchAll, selectMmr, List.getLast?_cons, hlast, hnot]

theorem exists_prescribed (upper : α → WithTop ℚ) (hne : rows ≠ []) (n : ℚ) :
    ∃ r, Prescribed upper rows n r := by
  have hfinite : {r | r ∈ rows}.Finite := List.finite_toSet rows
  by_cases h : ∃ r ∈ rows, n ≤ upper r
  · obtain ⟨r, ⟨hr, hreach⟩, hmin⟩ := Set.exists_min_image {r | r ∈ rows ∧ n ≤ upper r} upper
      (hfinite.subset fun r hr => hr.1) h
    exact ⟨r, hr, Or.inl ⟨hreach, fun r' hr' h' => hmin r' ⟨hr', h'⟩⟩⟩
  · push Not at h
    obtain ⟨r, hr, hmax⟩ := Set.exists_max_image {r | r ∈ rows} upper hfinite
      (List.exists_mem_of_ne_nil rows hne)
    exact ⟨r, hr, Or.inr ⟨h, hmax⟩⟩

/-- Some notional is above every bound. -/
theorem exists_above (upper : α → WithTop ℚ) (rows : List α) :
    ∃ n : ℚ, ∀ r ∈ rows, upper r = ⊤ ∨ upper r < n := by
  induction rows with
  | nil => exact ⟨0, by simp⟩
  | cons r rows ih =>
    obtain ⟨n, hn⟩ := ih
    cases hr : upper r with
    | top =>
      refine ⟨n, fun r' hr' => ?_⟩
      rcases List.mem_cons.mp hr' with rfl | hr'
      · exact Or.inl hr
      · exact hn r' hr'
    | coe q =>
      refine ⟨max n (q + 1), fun r' hr' => ?_⟩
      rcases List.mem_cons.mp hr' with rfl | hr'
      · rw [hr]
        exact Or.inr (WithTop.coe_lt_coe.mpr (lt_max_of_lt_right (lt_add_one q)))
      · exact (hn r' hr').imp_right fun h => h.trans_le (WithTop.coe_le_coe.mpr (le_max_left _ _))

end Prescribed

/-! ## A zero that is read as a bound -/

section Lifted

variable {α : Type*} {upper : α → WithTop ℚ} {rate : α → ℚ} {rows : List α} {r r' : α} {n : ℚ}

/-- The bounds, where zero is none. -/
def lifted (upper : α → WithTop ℚ) (r : α) : WithTop ℚ := if upper r = 0 then ⊤ else upper r

theorem lifted_of_zero (h : upper r = 0) : lifted upper r = ⊤ := if_pos h

theorem lifted_of_ne (h : upper r ≠ 0) : lifted upper r = upper r := if_neg h

theorem le_lifted : upper r ≤ lifted upper r := by
  unfold lifted
  split
  · exact le_top
  · exact le_rfl

/-- Elements with one bound have one rate, and an element whose bound reads as zero has the rate of
the narrowest bounded one, and that of the widest where all are bounded. -/
structure ReadAlike (upper : α → WithTop ℚ) (rate : α → ℚ) (rows : List α) : Prop where
  agree : ∀ r ∈ rows, ∀ r' ∈ rows, lifted upper r = lifted upper r' → rate r = rate r'
  narrowest : ∀ z ∈ rows, upper z = 0 → ∀ r ∈ rows, lifted upper r ≠ ⊤ →
    (∀ r' ∈ rows, lifted upper r ≤ lifted upper r') → rate r = rate z
  widest : ∀ z ∈ rows, upper z = 0 → (∀ r ∈ rows, upper r ≠ ⊤) → ∀ r ∈ rows, lifted upper r ≠ ⊤ →
    (∀ r' ∈ rows, upper r' ≤ upper r) → rate r = rate z

/-- A reached notional is reached without the zeros. -/
theorem rate_of_readAlike (hnonneg : ∀ r ∈ rows, 0 ≤ upper r) (h : ReadAlike upper rate rows)
    (hcode : Prescribed upper rows n r) (htable : Prescribed (lifted upper) rows n r') :
    rate r = rate r' := by
  have hr := hcode.1
  have hr' := htable.1
  by_cases hzero : upper r = 0
  · have htop := lifted_of_zero hzero
    by_cases htop' : lifted upper r' = ⊤
    · exact h.agree r hr r' hr' (htop.trans htop'.symm)
    · obtain ⟨-, ⟨hreach', hmin'⟩ | ⟨hnone', -⟩⟩ := htable
      · obtain ⟨-, ⟨hreach, hmin⟩ | ⟨-, hmax⟩⟩ := hcode
        · -- the zero reaches `n`, so every element does
          refine (h.narrowest r hr hzero r' hr' htop' fun q hq => hmin' q hq ?_).symm
          exact (hreach.trans (hzero.le.trans (hnonneg q hq))).trans le_lifted
        · have hle : upper r' ≤ 0 := hzero ▸ hmax r' hr'
          exact absurd (lifted_of_zero (le_antisymm hle (hnonneg r' hr'))) htop'
      · exact absurd (htop ▸ hnone' r hr) (by simp)
  · have hsame := lifted_of_ne hzero
    obtain ⟨-, ⟨hreach, hmin⟩ | ⟨hnone, hmax⟩⟩ := hcode
    · obtain ⟨-, ⟨hreach', hmin'⟩ | ⟨hnone', -⟩⟩ := htable
      · have hle : lifted upper r' ≤ lifted upper r := hmin' r hr (hsame ▸ hreach)
        refine h.agree r hr r' hr' (le_antisymm ?_ hle)
        by_cases hzero' : upper r' = 0
        · rw [lifted_of_zero hzero']
          exact le_top
        · rw [hsame, lifted_of_ne hzero']
          exact hmin r' hr' (lifted_of_ne hzero' ▸ hreach')
      · exact absurd (hsame ▸ hnone' r hr) (not_lt.mpr hreach)
    · have hbounded : ∀ q ∈ rows, upper q ≠ ⊤ := fun q hq => ((hnone q hq).trans_le le_top).ne
      have hfinite : lifted upper r ≠ ⊤ := hsame ▸ hbounded r hr
      by_cases hzero' : upper r' = 0
      · exact h.widest r' hr' hzero' hbounded r hr hfinite hmax
      · obtain ⟨-, ⟨hreach', -⟩ | ⟨-, hmax'⟩⟩ := htable
        · exact absurd (hnone r' hr') (not_lt.mpr (lifted_of_ne hzero' ▸ hreach'))
        · refine h.agree r hr r' hr' (le_antisymm (hmax' r hr) ?_)
          rw [hsame, lifted_of_ne hzero']
          exact hmax r' hr'

/-- Rates that follow the bounds with the zeros follow those without exactly where the table reads
alike. -/
theorem rates_iff_readAlike (hnonneg : ∀ r ∈ rows, 0 ≤ upper r) {select : ℚ → ℚ}
    (hselect : ∀ n, ∃ r, Prescribed upper rows n r ∧ select n = rate r) :
    (∀ n r, Prescribed (lifted upper) rows n r → select n = rate r) ↔
      ReadAlike upper rate rows := by
  constructor
  · intro h
    have hagree : ∀ r ∈ rows, ∀ r' ∈ rows, lifted upper r = lifted upper r' → rate r = rate r' := by
      intro r hr r' hr' heq
      obtain ⟨n, hn⟩ : ∃ n, Prescribed (lifted upper) rows n r := by
        cases hupper : lifted upper r with
        | top =>
          obtain ⟨n, hn⟩ := exists_above (lifted upper) rows
          refine ⟨n, hr, Or.inl ⟨hupper ▸ le_top, fun q hq hreach => ?_⟩⟩
          rcases hn q hq with htop | hlt
          · exact htop ▸ le_top
          · exact absurd hreach (not_le.mpr hlt)
        | coe q => exact ⟨q, hr, Or.inl ⟨hupper.ge, fun q' _ hreach => hupper ▸ hreach⟩⟩
      have hn' : Prescribed (lifted upper) rows n r' := by
        obtain ⟨-, hkind⟩ := hn
        exact ⟨hr', heq ▸ hkind⟩
      exact (h n r hn).symm.trans (h n r' hn')
    refine ⟨hagree, fun z hz hzero r hr hfinite hnarrow => ?_,
      fun z hz hzero hbounded r hr hfinite hwide => ?_⟩
    · -- at zero the code takes an element whose bound reads as zero
      obtain ⟨r₀, ⟨hr₀, hkind⟩, hrate⟩ := hselect 0
      have hzero₀ : upper r₀ = 0 := by
        rcases hkind with ⟨-, hmin⟩ | ⟨hnone, -⟩
        · exact le_antisymm (hzero ▸ hmin z hz (by rw [hzero]; exact le_rfl)) (hnonneg r₀ hr₀)
        · exact absurd (hnone z hz) (by rw [hzero]; exact lt_irrefl _)
      have hpres : Prescribed (lifted upper) rows 0 r :=
        ⟨hr, Or.inl ⟨(hnonneg r hr).trans le_lifted, fun r' hr' _ => hnarrow r' hr'⟩⟩
      have hsame := hagree r₀ hr₀ z hz ((lifted_of_zero hzero₀).trans (lifted_of_zero hzero).symm)
      rw [← h 0 r hpres, hrate, hsame]
    · -- above every bound it takes the widest
      have hne : upper r ≠ 0 := fun h0 => hfinite (lifted_of_zero h0)
      obtain ⟨q, hq⟩ := WithTop.ne_top_iff_exists.mp (hbounded r hr)
      have hlt : ∀ r' ∈ rows, upper r' < ((q + 1 : ℚ) : WithTop ℚ) := fun r' hr' =>
        (hwide r' hr').trans_lt (hq ▸ WithTop.coe_lt_coe.mpr (lt_add_one q))
      obtain ⟨r₀, ⟨hr₀, hkind⟩, hrate⟩ := hselect (q + 1)
      have hmax : upper r₀ = upper r := by
        rcases hkind with ⟨hreach, -⟩ | ⟨-, hmax⟩
        · exact absurd (hlt r₀ hr₀) (not_lt.mpr hreach)
        · exact le_antisymm (hwide r₀ hr₀) (hmax r hr)
      have hpres : Prescribed (lifted upper) rows (q + 1) z := by
        refine ⟨hz, Or.inl ⟨(lifted_of_zero hzero).symm ▸ le_top, fun r' hr' hreach => ?_⟩⟩
        by_cases hzero' : upper r' = 0
        · rw [lifted_of_zero hzero']
          exact le_top
        · exact absurd (hlt r' hr') (not_lt.mpr (lifted_of_ne hzero' ▸ hreach))
      have hsame := hagree r₀ hr₀ r hr (by simp only [lifted, hmax])
      rw [← h (q + 1) z hpres, hrate, hsame]
  · intro h n r hr
    obtain ⟨r₀, hr₀, hrate⟩ := hselect n
    rw [hrate]
    exact rate_of_readAlike hnonneg h hr₀ hr

end Lifted

/-! ## The tiers of a table -/

section Tables

variable {P}

/-- The bound of a row as the code reads it. -/
def codeBound (P : Texts) (row : Fields) : WithTop ℚ :=
  if unboundedMark (valueOf row "endUnit") then ⊤
  else (((P.finite (valueOf row "endUnit")).getD 0 : ℚ) : WithTop ℚ)

/-- The bound of a row in the table : none where `endUnit` is absent, empty or zero. -/
def tableBound (P : Texts) (row : Fields) : WithTop ℚ :=
  if unboundedMark (valueOf row "endUnit") || P.finite (valueOf row "endUnit") = some 0 then ⊤
  else codeBound P row

/-- The maintenance rate of a row. -/
def rowRate (P : Texts) (row : Fields) : ℚ := (P.finite (valueOf row "keepMarginRate")).getD 0

/-- A zero that is not spelled as one the code knows. -/
def Misread (P : Texts) (row : Fields) : Prop :=
  unboundedMark (valueOf row "endUnit") = false ∧ P.finite (valueOf row "endUnit") = some 0

theorem decimalField_ok {v : Json} {field : String} {q : ℚ} (h : decimalField P v field = .ok q) :
    P.finite v = some q := by
  unfold decimalField at h
  split at h
  · cases h
  next hq => exact Texts.finite_eq_some.mpr (Except.ok.inj h ▸ hq)
  · cases h

theorem tierOf_ok {row : Fields} {t : MMTier} (h : tierOf P row = .ok t) :
    tierUpper t = codeBound P row ∧ t.mmr = rowRate P row ∧ 0 ≤ codeBound P row ∧
      (codeBound P row = 0 ↔ Misread P row) := by
  unfold tierOf at h
  split at h
  · cases h
  next bound hbound =>
    split at h
    · cases h
    next mmr hmmr =>
      split at h
      next hrange =>
        split at h
        · cases h
        next hsign =>
          obtain rfl := Except.ok.inj h
          have hrate : mmr = rowRate P row := by
            rw [rowRate, decimalField_ok hmmr, Option.getD_some]
          unfold boundField at hbound
          by_cases hmark : unboundedMark (valueOf row "endUnit") = true
          · rw [if_pos hmark] at hbound
            obtain rfl := Except.ok.inj hbound
            have hcode : codeBound P row = ⊤ := if_pos hmark
            exact ⟨hcode.symm, hrate, hcode ▸ le_top, by simp [hcode, Misread, hmark]⟩
          · rw [if_neg hmark] at hbound
            cases hread : decimalField P (valueOf row "endUnit") "position-lever endUnit" with
            | error e =>
              rw [hread] at hbound
              cases hbound
            | ok q =>
              rw [hread] at hbound
              obtain rfl := Except.ok.inj hbound
              have hfinite := decimalField_ok hread
              have hcode : codeBound P row = (q : WithTop ℚ) := by
                rw [codeBound, if_neg hmark, hfinite, Option.getD_some]
              have hq : 0 ≤ q := by simpa using hsign
              refine ⟨hcode.symm, hrate, hcode ▸ WithTop.coe_nonneg.mpr hq, ?_⟩
              rw [hcode, Misread, hfinite]
              simp [hmark]
      next => cases h

/-- The tiers before they are sorted are those of the rows. -/
theorem mem_of_mapM {rows : List Fields} {tiers : List MMTier}
    (h : rows.mapM (tierOf P) = .ok tiers) :
    (∀ row ∈ rows, ∃ t ∈ tiers, tierOf P row = .ok t) ∧
      ∀ t ∈ tiers, ∃ row ∈ rows, tierOf P row = .ok t := by
  induction rows generalizing tiers with
  | nil =>
    obtain rfl : [] = tiers := by simpa [pure, Except.pure] using h
    exact ⟨by simp, by simp⟩
  | cons row rows ih =>
    rw [List.mapM_cons] at h
    cases htier : tierOf P row with
    | error e =>
      rw [htier] at h
      cases h
    | ok t =>
      cases hrest : rows.mapM (tierOf P) with
      | error e =>
        rw [htier, hrest] at h
        cases h
      | ok ts =>
        rw [htier, hrest] at h
        obtain rfl : t :: ts = tiers := Except.ok.inj h
        obtain ⟨hrows, htiers⟩ := ih hrest
        constructor
        · intro row' hrow'
          rcases List.mem_cons.mp hrow' with rfl | hrow'
          · exact ⟨t, List.mem_cons_self, htier⟩
          · obtain ⟨t', ht', h'⟩ := hrows row' hrow'
            exact ⟨t', List.mem_cons_of_mem _ ht', h'⟩
        · intro t' ht'
          rcases List.mem_cons.mp ht' with rfl | ht'
          · exact ⟨row, List.mem_cons_self, htier⟩
          · obtain ⟨row', hrow', h'⟩ := htiers t' ht'
            exact ⟨row', List.mem_cons_of_mem _ hrow', h'⟩

/-- What an accepted table is : some rows, which can be read, and the tier of a notional is one of a
row that is prescribed by the bounds as they are read. -/
structure Accepted (P : Texts) (rows : List Fields) (tiers : List MMTier) : Prop where
  nonempty : rows ≠ []
  nonneg : ∀ row ∈ rows, 0 ≤ codeBound P row
  misread : ∀ row ∈ rows, codeBound P row = 0 ↔ Misread P row
  selects : ∀ n, ∃ row, Prescribed (codeBound P) rows n row ∧
    selectMmr n tiers = .ok (rowRate P row)

theorem accepted_of_ok {rows : List Fields} {symbol : String} {tiers : List MMTier}
    (h : mmTiersFromPositionLever P rows symbol = .ok tiers) :
    Accepted P (matching P rows symbol) tiers := by
  unfold mmTiersFromPositionLever at h
  split at h
  · cases h
  next hne =>
    cases hread : (matching P rows symbol).mapM (tierOf P) with
    | error e =>
      rw [hread] at h
      cases h
    | ok ts =>
      rw [hread] at h
      obtain rfl := Except.ok.inj h
      obtain ⟨hrows, htiers⟩ := mem_of_mapM hread
      refine ⟨hne, fun row hrow => ?_, fun row hrow => ?_, fun n => ?_⟩
      · obtain ⟨t, -, ht⟩ := hrows row hrow
        exact (tierOf_ok ht).2.2.1
      · obtain ⟨t, -, ht⟩ := hrows row hrow
        exact (tierOf_ok ht).2.2.2
      · have hsome : ts.insertionSort tierLe ≠ [] := by
          intro hnil
          obtain ⟨row, hrow⟩ := List.exists_mem_of_ne_nil _ hne
          obtain ⟨t, ht, -⟩ := hrows row hrow
          have hmem := (List.mem_insertionSort tierLe).mpr ht
          rw [hnil] at hmem
          simp at hmem
        obtain ⟨t, ⟨hmem, hkind⟩, hselect⟩ := exists_prescribed_of_sorted (n := n)
          (List.pairwise_insertionSort tierLe ts) hsome
        obtain ⟨row, hrow, hrowt⟩ := htiers t ((List.mem_insertionSort tierLe).mp hmem)
        obtain ⟨hupper, hrate, -⟩ := tierOf_ok hrowt
        have htier : ∀ row' ∈ matching P rows symbol,
            ∃ t' ∈ ts.insertionSort tierLe, tierUpper t' = codeBound P row' := by
          intro row' hrow'
          obtain ⟨t', ht', h'⟩ := hrows row' hrow'
          exact ⟨t', (List.mem_insertionSort tierLe).mpr ht', (tierOf_ok h').1⟩
        refine ⟨row, ⟨hrow, ?_⟩, by rw [hselect, hrate]⟩
        rw [← hupper]
        rcases hkind with ⟨hreach, hmin⟩ | ⟨hnone, hmax⟩
        · refine Or.inl ⟨hreach, fun row' hrow' hreach' => ?_⟩
          obtain ⟨t', ht', h'⟩ := htier row' hrow'
          exact h' ▸ hmin t' ht' (h' ▸ hreach')
        · refine Or.inr ⟨fun row' hrow' => ?_, fun row' hrow' => ?_⟩
          · obtain ⟨t', ht', h'⟩ := htier row' hrow'
            exact h' ▸ hnone t' ht'
          · obtain ⟨t', ht', h'⟩ := htier row' hrow'
            exact h' ▸ hmax t' ht'

/-- The rate of every notional is the one of the row the table prescribes, in whatever order the
rows come, and no lower. -/
structure TableKept (P : Texts) (rows : List Fields) (symbol : String) (tiers : List MMTier) : Prop where
  rate : ∀ n row, Prescribed (tableBound P) (matching P rows symbol) n row →
    selectMmr n tiers = .ok (rowRate P row)
  order : ∀ rows' tiers', rows'.Perm rows → mmTiersFromPositionLever P rows' symbol = .ok tiers' →
    ∀ n, selectMmr n tiers' = selectMmr n tiers
  safe : ∀ n row m, Prescribed (tableBound P) (matching P rows symbol) n row →
    selectMmr n tiers = .ok m → rowRate P row ≤ m

/-- Rows with one bound have one rate. A row whose `endUnit` is a zero the code does not know has the
rate of the narrowest bounded row, and that of the widest where no row is marked as unbounded. -/
structure ReadsAlike (P : Texts) (rows : List Fields) : Prop where
  agree : ∀ r ∈ rows, ∀ r' ∈ rows, tableBound P r = tableBound P r' → rowRate P r = rowRate P r'
  narrowest : ∀ z ∈ rows, Misread P z → ∀ r ∈ rows, tableBound P r ≠ ⊤ →
    (∀ r' ∈ rows, tableBound P r ≤ tableBound P r') → rowRate P r = rowRate P z
  widest : ∀ z ∈ rows, Misread P z → (∀ r ∈ rows, unboundedMark (valueOf r "endUnit") = false) →
    ∀ r ∈ rows, tableBound P r ≠ ⊤ →
      (∀ r' ∈ rows, tableBound P r' ≠ ⊤ → tableBound P r' ≤ tableBound P r) →
      rowRate P r = rowRate P z

theorem codeBound_eq_top {row : Fields} :
    codeBound P row = ⊤ ↔ unboundedMark (valueOf row "endUnit") = true := by
  unfold codeBound
  split
  next h => exact ⟨fun _ => h, fun _ => rfl⟩
  next h => exact ⟨fun h' => absurd h' (WithTop.coe_ne_top), fun h' => absurd h' h⟩

theorem Accepted.tableBound_eq {rows : List Fields} {tiers : List MMTier} (h : Accepted P rows tiers)
    {row : Fields} (hrow : row ∈ rows) : tableBound P row = lifted (codeBound P) row := by
  unfold tableBound
  cases hmark : unboundedMark (valueOf row "endUnit") with
  | true =>
    have htop : codeBound P row = ⊤ := codeBound_eq_top.mpr hmark
    rw [lifted_of_ne (htop ▸ WithTop.top_ne_zero), htop, Bool.true_or, if_pos rfl]
  | false =>
    have hmisread := h.misread row hrow
    simp only [Misread, hmark, true_and] at hmisread
    simp only [lifted, hmisread, Bool.false_or, decide_eq_true_eq]

theorem Accepted.readsAlike_iff {rows : List Fields} {tiers : List MMTier}
    (h : Accepted P rows tiers) :
    ReadAlike (codeBound P) (rowRate P) rows ↔ ReadsAlike P rows := by
  have htable : ∀ row ∈ rows, tableBound P row = lifted (codeBound P) row := fun row hrow =>
    h.tableBound_eq hrow
  have hunmarked : ∀ row, codeBound P row ≠ ⊤ ↔ unboundedMark (valueOf row "endUnit") = false :=
    fun row => by rw [ne_eq, codeBound_eq_top, Bool.not_eq_true]
  constructor
  · intro ⟨hagree, hnarrow, hwide⟩
    refine ⟨fun r hr r' hr' heq => ?_, fun z hz hmis r hr hfinite hmin => ?_,
      fun z hz hmis hall r hr hfinite hmax => ?_⟩
    · exact hagree r hr r' hr' (by rw [← htable r hr, ← htable r' hr', heq])
    · refine hnarrow z hz ((h.misread z hz).mpr hmis) r hr (htable r hr ▸ hfinite) fun r' hr' => ?_
      rw [← htable r hr, ← htable r' hr']
      exact hmin r' hr'
    · have hne : codeBound P r ≠ 0 := fun h0 =>
        hfinite ((htable r hr).trans (lifted_of_zero h0))
      refine hwide z hz ((h.misread z hz).mpr hmis) (fun r hr => (hunmarked r).mpr (hall r hr)) r hr
        (htable r hr ▸ hfinite) fun r' hr' => ?_
      by_cases hzero : codeBound P r' = 0
      · rw [hzero]
        exact h.nonneg r hr
      · have hle := hmax r' hr' (by
          rw [htable r' hr', lifted_of_ne hzero]
          exact (hunmarked r').mpr (hall r' hr'))
        rwa [htable r' hr', htable r hr, lifted_of_ne hzero, lifted_of_ne hne] at hle
  · intro ⟨hagree, hnarrow, hwide⟩
    refine ⟨fun r hr r' hr' heq => ?_, fun z hz hzero r hr hfinite hmin => ?_,
      fun z hz hzero hall r hr hfinite hmax => ?_⟩
    · exact hagree r hr r' hr' (by rw [htable r hr, htable r' hr', heq])
    · refine hnarrow z hz ((h.misread z hz).mp hzero) r hr (htable r hr ▸ hfinite) fun r' hr' => ?_
      rw [htable r hr, htable r' hr']
      exact hmin r' hr'
    · have hne : codeBound P r ≠ 0 := fun h0 => hfinite (lifted_of_zero h0)
      refine hwide z hz ((h.misread z hz).mp hzero) (fun r hr => (hunmarked r).mp (hall r hr)) r hr
        (htable r hr ▸ hfinite) fun r' hr' hfinite' => ?_
      have hne' : codeBound P r' ≠ 0 := fun h0 =>
        hfinite' ((htable r' hr').trans (lifted_of_zero h0))
      rw [htable r' hr', htable r hr, lifted_of_ne hne', lifted_of_ne hne]
      exact hmax r' hr'

theorem Accepted.rates_iff {rows : List Fields} {tiers : List MMTier} (h : Accepted P rows tiers) :
    (∀ n row, Prescribed (tableBound P) rows n row → selectMmr n tiers = .ok (rowRate P row)) ↔
      ReadsAlike P rows := by
  rw [← h.readsAlike_iff]
  have hpres : ∀ n row, Prescribed (tableBound P) rows n row ↔
      Prescribed (lifted (codeBound P)) rows n row := by
    intro n row
    have hsame : ∀ row ∈ rows, tableBound P row = lifted (codeBound P) row := fun row hrow =>
      h.tableBound_eq hrow
    unfold Prescribed
    constructor
    · rintro ⟨hrow, hkind⟩
      refine ⟨hrow, ?_⟩
      simpa +contextual only [hsame row hrow, hsame] using hkind
    · rintro ⟨hrow, hkind⟩
      refine ⟨hrow, ?_⟩
      simpa +contextual only [← hsame row hrow, ← hsame] using hkind
  choose row₀ hrow₀ hselect using h.selects
  have hiff := rates_iff_readAlike h.nonneg fun n =>
    (⟨row₀ n, hrow₀ n, rfl⟩ : ∃ r, _ ∧ (fun n => rowRate P (row₀ n)) n = rowRate P r)
  rw [← hiff]
  simp only [hpres, hselect, Except.ok.injEq]

/-- The tiers keep to the table exactly where its rows read alike. -/
theorem mmTiers_keep_table_iff {rows : List Fields} {symbol : String} {tiers : List MMTier}
    (h : mmTiersFromPositionLever P rows symbol = .ok tiers) :
    TableKept P rows symbol tiers ↔ ReadsAlike P (matching P rows symbol) := by
  have haccepted := accepted_of_ok h
  rw [← haccepted.rates_iff]
  refine ⟨TableKept.rate, fun hrate => ⟨hrate, fun rows' tiers' hperm h' n => ?_,
    fun n row m hpres hm => ?_⟩⟩
  · have hmatching : (matching P rows' symbol).Perm (matching P rows symbol) := hperm.filter _
    have haccepted' := accepted_of_ok h'
    -- the rows read alike in the other order as well
    have hrate' : ReadsAlike P (matching P rows' symbol) := by
      obtain ⟨hagree, hnarrow, hwide⟩ := haccepted.rates_iff.mp hrate
      constructor <;> simpa only [hmatching.mem_iff]
    obtain ⟨row, hrow⟩ := exists_prescribed (tableBound P) haccepted.nonempty n
    have hrow' : Prescribed (tableBound P) (matching P rows' symbol) n row :=
      hrow.of_subset_subset hmatching.symm.subset hmatching.subset
    rw [hrate n row hrow, haccepted'.rates_iff.mpr hrate' n row hrow']
  · exact (Except.ok.inj ((hrate n row hpres).symm.trans hm)).le

end Tables

/-- A bounded row. -/
def thousandRow : Fields :=
  [("symbol", .str "BTCUSDT"), ("endUnit", .str "1000"), ("keepMarginRate", .str "0.004")]

/-- An unbounded row. -/
def unboundedRow (zero : String) : Fields :=
  [("symbol", .str "BTCUSDT"), ("endUnit", .str zero), ("keepMarginRate", .str "0.05")]

theorem matching_rows (zero : String) : matching ascii [thousandRow, unboundedRow zero] "BTCUSDT" =
    [thousandRow, unboundedRow zero] :=
  List.filter_eq_self.mpr (by simp [thousandRow, unboundedRow, entry, Texts.text])

theorem unboundedRow_prescribed : Prescribed (tableBound ascii)
    (matching ascii [thousandRow, unboundedRow "0.0"] "BTCUSDT") 5000 (unboundedRow "0.0") := by
  have hthousand : tableBound ascii thousandRow = ((1000 : ℚ) : WithTop ℚ) := by decide +kernel
  have htop : tableBound ascii (unboundedRow "0.0") = ⊤ := by decide +kernel
  rw [matching_rows]
  refine ⟨by simp, Or.inl ⟨htop ▸ le_top, fun row hrow hreach => ?_⟩⟩
  rcases List.mem_cons.mp hrow with rfl | hrow
  · rw [hthousand] at hreach
    exact absurd (WithTop.coe_le_coe.mp hreach) (by decide)
  · rw [List.mem_singleton.mp hrow]

/-- With the zero spelled `0.0` a notional of 5000 is charged with the rate of the bounded row. -/
theorem spelledZero_lower :
    ∃ tiers, mmTiersFromPositionLever ascii [thousandRow, unboundedRow "0.0"] "BTCUSDT" = .ok tiers ∧
      selectMmr 5000 tiers = .ok (4 / 1000) ∧
      ¬ TableKept ascii [thousandRow, unboundedRow "0.0"] "BTCUSDT" tiers := by
  have heval : (mmTiersFromPositionLever ascii [thousandRow, unboundedRow "0.0"] "BTCUSDT").map
      (selectMmr 5000) = .ok (.ok (4 / 1000)) := by decide +kernel
  cases htiers : mmTiersFromPositionLever ascii [thousandRow, unboundedRow "0.0"] "BTCUSDT" with
  | error e =>
    rw [htiers] at heval
    cases heval
  | ok tiers =>
    rw [htiers] at heval
    have hselect : selectMmr 5000 tiers = .ok (4 / 1000) := Except.ok.inj heval
    refine ⟨tiers, rfl, hselect, fun hkept => ?_⟩
    have hrate := hkept.rate 5000 _ unboundedRow_prescribed
    rw [hselect] at hrate
    exact absurd (Except.ok.inj hrate) (by decide +kernel)

/-- With the zero spelled `0` the table is kept. -/
theorem plainZero_kept :
    ∃ tiers, mmTiersFromPositionLever ascii [thousandRow, unboundedRow "0"] "BTCUSDT" = .ok tiers ∧
      TableKept ascii [thousandRow, unboundedRow "0"] "BTCUSDT" tiers := by
  have heval : (mmTiersFromPositionLever ascii [thousandRow, unboundedRow "0"]
      "BTCUSDT").toOption.isSome := by decide +kernel
  cases htiers : mmTiersFromPositionLever ascii [thousandRow, unboundedRow "0"] "BTCUSDT" with
  | error e =>
    rw [htiers] at heval
    cases heval
  | ok tiers =>
    have hthousand : tableBound ascii thousandRow = ((1000 : ℚ) : WithTop ℚ) := by decide +kernel
    have htop : tableBound ascii (unboundedRow "0") = ⊤ := by decide +kernel
    have hread : ∀ row ∈ [thousandRow, unboundedRow "0"], ¬ Misread ascii row := by
      intro row hrow hmis
      rcases List.mem_cons.mp hrow with rfl | hrow
      · exact absurd hmis.2 (by decide +kernel)
      · obtain rfl := List.mem_singleton.mp hrow
        exact absurd hmis.1 (by decide +kernel)
    refine ⟨tiers, rfl, (mmTiers_keep_table_iff htiers).mpr ?_⟩
    rw [matching_rows]
    refine ⟨fun r hr r' hr' heq => ?_, fun z hz hmis => absurd hmis (hread z hz),
      fun z hz hmis => absurd hmis (hread z hz)⟩
    simp only [List.mem_cons, List.not_mem_nil, or_false] at hr hr'
    rcases hr with rfl | rfl <;> rcases hr' with rfl | rfl
    · rfl
    · rw [hthousand, htop] at heq
      cases heq
    · rw [hthousand, htop] at heq
      cases heq
    · rfl

end FattyTrader.MarginTiers
