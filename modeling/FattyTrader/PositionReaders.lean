import FattyTrader.JsonValues
import Mathlib.Algebra.BigOperators.Group.List.Basic
import Mathlib.Algebra.Order.BigOperators.Group.List

/-!
# Readers of a position answer

Four readers decide from an answer about positions whether a symbol is flat : the adapter
(`openPositionQuantity`), the lane of the fallback (`openQuantity`), the reconciliation of an order
(`flatPosition`) and the recovery of the protection (`positionQuantity`). Only the second one asks
for a snapshot that is well formed as a whole (`WellFormed`).

On such a snapshot the four agree, unless a position is open and none of the symbol is : three of
them read the symbol of no row. On every other answer none of them may call the symbol flat. Each of
the three has a kind of answer on which it does (`AsyncLoose`, `ReconciliationLoose`,
`RecoveryLoose`), and `flat_agree_iff` says that these are all.
-/

set_option linter.unusedSectionVars false

open FattyTrader.JsonValues

namespace FattyTrader.PositionReaders

variable (P : Texts)

def quantityKeys : List String := ["total", "size", "quantity"]

/-- The sum over all rows, where every row can be read. -/
def rowsTotal (read : Json → Option ℚ) : List Json → Option ℚ
  | [] => some 0
  | row :: rows =>
    match read row, rowsTotal read rows with
    | some q, some total => some (q + total)
    | _, _ => none

/-! ## The adapter -/

/-- The list `_open_position_quantity` reads. An object without one has no rows. -/
def asyncRows : Json → Option (List Json)
  | .obj fields => (firstOf fields ["data", "positionList"] (.arr [])).items?
  | v => v.items?

/-- The quantity of a row, `none` where the row is skipped. -/
def asyncRow : Json → Option ℚ
  | .obj fields =>
    match firstEntry fields quantityKeys with
    | none => none
    | some raw => if raw.isNull || P.strip (P.text raw) = "" then none else P.finite raw
  | _ => none

/-- `_open_position_quantity`. -/
def openPositionQuantity (v : Json) : Option ℚ :=
  match asyncRows v with
  | none => none
  | some [] => some 0
  | some rows =>
    let found := rows.filterMap (asyncRow P)
    if found = [] then none else some (found.map fun q => |q|).sum

/-! ## The lane of the fallback -/

/-- The list `_open_quantity` reads. -/
def snapshotRows : Json → Option (List Json)
  | .obj fields =>
    if (entry fields "code").any fun code => !code.isText "00000" then none
    else if (entry fields "data").isSome && (entry fields "positionList").isSome then none
    else (firstOf fields ["data", "positionList"] .null).items?
  | v => v.items?

/-- The values of all keys are one number, which is not negative. -/
def snapshotRow : Json → Option ℚ
  | .obj fields =>
    match (quantityKeys.filterMap (entry fields)).map P.number with
    | some (.finite q) :: rest =>
      if 0 ≤ q && rest.all (fun n => n = some (.finite q)) then some q else none
    | _ => none
  | _ => none

/-- `_open_quantity`. -/
def openQuantity (v : Json) : Option ℚ := (snapshotRows v).bind (rowsTotal (snapshotRow P))

/-! ## The reconciliation -/

def flatRows (symbol : String) : List Json → Option Bool
  | [] => some true
  | .obj fields :: rows =>
    if !((entry fields "symbol").getD (.str symbol)).isText symbol then flatRows symbol rows
    else match (firstEntry fields quantityKeys).getD .null with
      | .null => none
      | raw =>
        match P.number raw with
        | some (.finite q) => if 0 < |q| then some false else flatRows symbol rows
        | some .infinite => some false
        -- a NaN cannot be compared
        | _ => none
  | _ :: _ => none

/-- `_flat_position`. -/
def flatPosition (v : Json) (symbol : String) : Option Bool :=
  match v with
  | .obj fields => (firstOf fields ["data", "positionList"] .null).items?.bind (flatRows P symbol)
  | v => v.items?.bind (flatRows P symbol)

/-! ## The recovery of the protection -/

def recoveryRows : Json → Option (List Json)
  | .obj fields => (valueOf fields "data").items?
  | v => v.items?

def recoveryRow : Json → Option ℚ
  | .obj fields =>
    match firstOf fields ["total", "size"] .null with
    | .null => none
    | raw =>
      match P.finite raw with
      | some q => if 0 ≤ q then some q else none
      | none => none
  | _ => none

/-- `_position_quantity`. -/
def positionQuantity (v : Json) : Option ℚ := (recoveryRows v).bind (rowsTotal (recoveryRow P))

/-! ## What they should answer -/

/-- The quantity of a row : every value that states it is this number. -/
def Holds (row : Json) (q : ℚ) : Prop :=
  ∃ fields, row = .obj fields ∧ 0 ≤ q ∧ (∃ key ∈ quantityKeys, (entry fields key).isSome) ∧
    ∀ key ∈ quantityKeys, ∀ raw, entry fields key = some raw → P.number raw = some (.finite q)

/-- The rows of an answer : a list, or an object with one under one of two keys, without the code of
an error. -/
def Snapshot (v : Json) (rows : List Json) : Prop :=
  v = .arr rows ∨ ∃ fields, v = .obj fields ∧
    (∀ code, entry fields "code" = some code → code = .str "00000") ∧
    ((entry fields "data" = some (.arr rows) ∧ entry fields "positionList" = none) ∨
      (entry fields "data" = none ∧ entry fields "positionList" = some (.arr rows)))

def WellFormed (v : Json) : Prop :=
  ∃ rows, Snapshot v rows ∧ ∀ row ∈ rows, ∃ q, Holds P row q

/-- A row names the symbol, or none. -/
def OfSymbol (row : Json) (symbol : String) : Prop :=
  ∃ fields, row = .obj fields ∧ ∀ value, entry fields "symbol" = some value → value = .str symbol

/-- A position is open. -/
def SomeOpen (v : Json) : Prop :=
  ∃ rows, Snapshot v rows ∧ ∃ row ∈ rows, ∃ q, Holds P row q ∧ 0 < q

/-- A position of the symbol is open. -/
def SymbolOpen (v : Json) (symbol : String) : Prop :=
  ∃ rows, Snapshot v rows ∧ ∃ row ∈ rows, OfSymbol row symbol ∧ ∃ q, Holds P row q ∧ 0 < q

/-- What the four say of the symbol, where they say anything : whether it is flat. -/
def answers (v : Json) (symbol : String) : List (Option Bool) :=
  [(openPositionQuantity P v).map (· = 0), (openQuantity P v).map (· = 0),
    flatPosition P v symbol, (positionQuantity P v).map (· = 0)]

/-- Flat is said of well formed snapshots without an open row of the symbol, by all who answer. -/
structure FlatAgree (v : Json) (symbol : String) : Prop where
  sound : some true ∈ answers P v symbol → WellFormed P v ∧ ¬ SymbolOpen P v symbol
  agree : ∀ a b, some a ∈ answers P v symbol → some b ∈ answers P v symbol → a = b

/-! ## What they accept besides -/

/-- The first quantity of a row. -/
def FirstReads (keys : List String) (row : Json) (n : Number) : Prop :=
  ∃ fields raw, row = .obj fields ∧ firstEntry fields keys = some raw ∧ P.number raw = some n

/-- An object without a list of rows, or with an empty one, or rows of which some reads zero and
none reads another number. -/
def AsyncLoose (v : Json) : Prop :=
  ∃ rows, asyncRows v = some rows ∧ (rows = [] ∨
    (∃ row ∈ rows, FirstReads P quantityKeys row (.finite 0)) ∧
      ∀ row ∈ rows, ∀ q, FirstReads P quantityKeys row (.finite q) → q = 0)

/-- Rows that are objects, of which those of the symbol read zero first. -/
def ReconciliationLoose (v : Json) (symbol : String) : Prop :=
  ∃ rows, (v = .arr rows ∨ ∃ fields, v = .obj fields ∧
      firstEntry fields ["data", "positionList"] = some (.arr rows)) ∧
    ∀ row ∈ rows, (∃ fields, row = .obj fields) ∧
      (OfSymbol row symbol → FirstReads P quantityKeys row (.finite 0))

/-- Rows that all read zero first, of two keys. -/
def RecoveryLoose (v : Json) : Prop :=
  ∃ rows, (v = .arr rows ∨ ∃ fields, v = .obj fields ∧ entry fields "data" = some (.arr rows)) ∧
    ∀ row ∈ rows, FirstReads P ["total", "size"] row (.finite 0)

/-! ## Rows -/

section Rows

variable {P} {row : Json} {rows : List Json} {q : ℚ} {fields : Fields} {symbol : String} {v : Json}

theorem rowsTotal_eq_some {read : Json → Option ℚ} {total : ℚ} : ∀ {rows : List Json},
    rowsTotal read rows = some total ↔ (∀ row ∈ rows, (read row).isSome) ∧
      total = (rows.map fun row => (read row).getD 0).sum
  | [] => by
    simp only [rowsTotal, Option.some.injEq, List.not_mem_nil, false_implies, implies_true,
      true_and, List.map_nil, List.sum_nil]
    exact eq_comm
  | row :: rows => by
    rw [rowsTotal, List.forall_mem_cons, List.map_cons, List.sum_cons]
    cases hrow : read row with
    | none => simp
    | some q =>
      cases hrows : rowsTotal read rows with
      | none =>
        simp only [reduceCtorEq, Option.isSome_some, true_and, false_iff, not_and]
        intro hall
        cases hrows.symm.trans (rowsTotal_eq_some.mpr ⟨hall, rfl⟩)
      | some t =>
        obtain ⟨hall, rfl⟩ := rowsTotal_eq_some.mp hrows
        simp only [Option.some.injEq, Option.isSome_some, true_and, Option.getD_some]
        exact ⟨fun h => ⟨hall, h.symm⟩, fun h => h.2.symm⟩

theorem holds_obj : Holds P (.obj fields) q ↔ 0 ≤ q ∧ quantityKeys.filterMap (entry fields) ≠ [] ∧
    ∀ raw ∈ quantityKeys.filterMap (entry fields), P.number raw = some (.finite q) := by
  constructor
  · rintro ⟨fields', hfields, hq, ⟨key, hkey, hsome⟩, hall⟩
    obtain rfl := Json.obj.inj hfields
    refine ⟨hq, fun hnil => ?_, fun raw hraw => ?_⟩
    · obtain ⟨raw, hraw⟩ := Option.isSome_iff_exists.mp hsome
      have : raw ∈ quantityKeys.filterMap (entry fields) := List.mem_filterMap.mpr ⟨key, hkey, hraw⟩
      simp [hnil] at this
    · obtain ⟨key, hkey, hentry⟩ := List.mem_filterMap.mp hraw
      exact hall key hkey raw hentry
  · rintro ⟨hq, hne, hall⟩
    obtain ⟨raw, hraw⟩ := List.exists_mem_of_ne_nil _ hne
    obtain ⟨key, hkey, hentry⟩ := List.mem_filterMap.mp hraw
    refine ⟨fields, rfl, hq, ⟨key, hkey, by rw [hentry]; rfl⟩, fun key hkey raw hentry => ?_⟩
    exact hall raw (List.mem_filterMap.mpr ⟨key, hkey, hentry⟩)

theorem snapshotRow_eq_some : snapshotRow P row = some q ↔ Holds P row q := by
  cases row with
  | obj fields =>
    rw [holds_obj, snapshotRow]
    cases quantityKeys.filterMap (entry fields) with
    | nil => simp
    | cons raw rest =>
      rw [List.map_cons]
      cases hraw : P.number raw with
      | none => simp [hraw]
      | some n =>
        cases n with
        | finite p =>
          simp only [Option.ite_none_right_eq_some, Bool.and_eq_true, decide_eq_true_eq,
            List.all_eq_true, List.forall_mem_map, Option.some.injEq, List.forall_mem_cons, hraw,
            Number.finite.injEq, ne_eq, reduceCtorEq, not_false_eq_true, true_and]
          constructor
          · rintro ⟨⟨hp, hrest⟩, rfl⟩
            exact ⟨hp, rfl, hrest⟩
          · rintro ⟨hq, rfl, hrest⟩
            exact ⟨⟨hq, hrest⟩, rfl⟩
        | infinite => simp [hraw]
        | nan => simp [hraw]
  | _ => simp [snapshotRow, Holds]

/-- What every value of a row says, the first one says. -/
theorem Holds.first (h : Holds P row q) {keys : List String} (hkeys : keys ⊆ quantityKeys)
    {fields : Fields} {raw : Json} (hrow : row = .obj fields)
    (hfirst : firstEntry fields keys = some raw) : P.number raw = some (.finite q) := by
  obtain ⟨fields', hfields, -, -, hall⟩ := h
  obtain rfl := Json.obj.inj (hrow.symm.trans hfields)
  obtain ⟨key, hkey, hentry⟩ := exists_of_firstEntry hfirst
  exact hall key (hkeys hkey) raw hentry

theorem Holds.firstReads (h : Holds P row q) : FirstReads P quantityKeys row (.finite q) := by
  obtain ⟨fields, rfl, -, hsome, -⟩ := id h
  obtain ⟨raw, hraw⟩ := Option.isSome_iff_exists.mp (firstEntry_isSome.mpr hsome)
  exact ⟨fields, raw, rfl, hraw, h.first (List.Subset.refl _) rfl hraw⟩

theorem firstReads_unique {keys : List String} {n m : Number} (h : FirstReads P keys row n)
    (h' : FirstReads P keys row m) : n = m := by
  obtain ⟨fields, raw, rfl, hraw, hn⟩ := h
  obtain ⟨fields', raw', hrow, hraw', hm⟩ := h'
  obtain rfl := Json.obj.inj hrow
  obtain rfl := Option.some.inj (hraw.symm.trans hraw')
  exact Option.some.inj (hn.symm.trans hm)

theorem Holds.unique {p : ℚ} (h : Holds P row q) (h' : Holds P row p) : q = p :=
  Number.finite.inj (firstReads_unique h.firstReads h'.firstReads)

theorem asyncRow_eq_some : asyncRow P row = some q ↔ FirstReads P quantityKeys row (.finite q) := by
  cases row with
  | obj fields =>
    rw [asyncRow]
    cases hfirst : firstEntry fields quantityKeys with
    | none => simp [FirstReads, hfirst]
    | some raw =>
      constructor
      · intro h
        dsimp only at h
        split at h
        · cases h
        · exact ⟨fields, raw, rfl, hfirst, Texts.finite_eq_some.mp h⟩
      · rintro ⟨fields', raw', hrow, hraw', hn⟩
        obtain rfl := Json.obj.inj hrow
        obtain rfl := Option.some.inj (hfirst.symm.trans hraw')
        obtain ⟨hnull, hblank⟩ := Texts.of_number hn
        exact (if_neg (by simp [hnull, hblank])).trans (Texts.finite_eq_some.mpr hn)
  | _ => simp [asyncRow, FirstReads]

theorem recoveryRow_eq_some : recoveryRow P row = some q ↔
    FirstReads P ["total", "size"] row (.finite q) ∧ 0 ≤ q := by
  cases row with
  | obj fields =>
    rw [recoveryRow]
    cases hfirst : firstEntry fields ["total", "size"] with
    | none => simp [FirstReads, firstOf, hfirst]
    | some raw =>
      have hread : FirstReads P ["total", "size"] (.obj fields) (.finite q) ↔
          P.finite raw = some q := by
        rw [Texts.finite_eq_some]
        constructor
        · rintro ⟨fields', raw', hrow, hraw', hn⟩
          obtain rfl := Json.obj.inj hrow
          obtain rfl := Option.some.inj (hfirst.symm.trans hraw')
          exact hn
        · exact fun hn => ⟨fields, raw, rfl, hfirst, hn⟩
      rw [hread, firstOf, hfirst, Option.getD_some]
      split
      · simp [Texts.finite, Texts.number_null]
      · split
        next p hp =>
          simp only [Option.ite_none_right_eq_some, Option.some.injEq, hp]
          constructor
          · rintro ⟨hpos, rfl⟩
            exact ⟨rfl, hpos⟩
          · rintro ⟨rfl, hpos⟩
            exact ⟨hpos, rfl⟩
        next hp => simp [hp]
  | _ => simp [recoveryRow, FirstReads]

/-- Where the loop of the reconciliation ends with flat. -/
theorem flatRows_eq_true : ∀ {rows : List Json}, flatRows P symbol rows = some true ↔
    ∀ row ∈ rows, (∃ fields, row = .obj fields) ∧
      (OfSymbol row symbol → FirstReads P quantityKeys row (.finite 0))
  | [] => by simp [flatRows]
  | .obj fields :: rows => by
    have hrest : flatRows P symbol rows = some true ↔ ∀ row ∈ rows, (∃ fields, row = .obj fields) ∧
        (OfSymbol row symbol → FirstReads P quantityKeys row (.finite 0)) := flatRows_eq_true
    rw [List.forall_mem_cons, ← hrest, flatRows]
    have hsymbol : ((entry fields "symbol").getD (.str symbol)).isText symbol = true ↔
        OfSymbol (.obj fields) symbol := by
      rw [Json.isText_iff]
      constructor
      · intro h
        exact ⟨fields, rfl, fun value hvalue => by simpa [hvalue] using h⟩
      · rintro ⟨fields', hfields, hall⟩
        obtain rfl := Json.obj.inj hfields
        cases hentry : entry fields "symbol" with
        | none => rfl
        | some value => exact hall value hentry
    by_cases hof : OfSymbol (.obj fields) symbol
    · rw [if_neg (by simp [hsymbol.mpr hof])]
      have hread : FirstReads P quantityKeys (.obj fields) (.finite 0) ↔
          P.number ((firstEntry fields quantityKeys).getD .null) = some (.finite 0) := by
        constructor
        · rintro ⟨fields', raw, hfields, hraw, hn⟩
          obtain rfl := Json.obj.inj hfields
          rwa [hraw]
        · intro hn
          cases hfirst : firstEntry fields quantityKeys with
          | none =>
            rw [hfirst] at hn
            cases Texts.number_null.symm.trans hn
          | some raw => exact ⟨fields, raw, rfl, hfirst, by rwa [hfirst] at hn⟩
      simp only [hof, true_implies, hread, Json.obj.injEq, exists_eq', true_and]
      split
      next hnull => simp [hnull, Texts.number_null]
      · split
        next q hq =>
          rw [hq]
          split
          next hpos =>
            have : q ≠ 0 := abs_pos.mp hpos
            simp [this]
          next hpos =>
            obtain rfl : q = 0 := by simpa using hpos
            simp
        next hq => simp [hq]
        next hfinite hinfinite =>
          cases hn : P.number ((firstEntry fields quantityKeys).getD .null) with
          | none => simp
          | some n =>
            cases n with
            | finite q => exact absurd hn (hfinite q)
            | infinite => exact absurd hn hinfinite
            | nan => simp
    · rw [if_pos (by simpa using fun h => hof (hsymbol.mp h))]
      simp [hof]
  | .null :: rows => by simp [flatRows]
  | .bool _ :: rows => by simp [flatRows]
  | .number _ :: rows => by simp [flatRows]
  | .str _ :: rows => by simp [flatRows]
  | .arr _ :: rows => by simp [flatRows]

/-- A row of the symbol that can be read decides, and the others are passed over. -/
theorem flatRows_isSome : ∀ {rows : List Json}, (∀ row ∈ rows, ∃ q, Holds P row q) →
    (flatRows P symbol rows).isSome
  | [], _ => rfl
  | row :: rows, h => by
    obtain ⟨q, hq⟩ := h row List.mem_cons_self
    have hrest : (flatRows P symbol rows).isSome :=
      flatRows_isSome fun row hrow => h row (List.mem_cons_of_mem _ hrow)
    obtain ⟨fields, raw, rfl, hraw, hn⟩ := hq.firstReads
    rw [flatRows, hraw, Option.getD_some]
    split
    · exact hrest
    · split
      · cases Texts.number_null.symm.trans hn
      · rw [hn]
        dsimp only
        split
        · rfl
        · exact hrest

end Rows

/-! ## Answers -/

section Answers

variable {P} {rows : List Json} {q total : ℚ} {symbol : String} {v : Json} {b : Bool}

theorem snapshotRows_eq_some : snapshotRows v = some rows ↔ Snapshot v rows := by
  cases v with
  | obj fields =>
    have hcode : (entry fields "code").any (fun code => !code.isText "00000") = true ↔
        ¬ ∀ code, entry fields "code" = some code → code = .str "00000" := by
      cases entry fields "code" with
      | none => simp
      | some code => simp [← Json.isText_iff]
    have hrows : Snapshot (.obj fields) rows ↔
        (∀ code, entry fields "code" = some code → code = .str "00000") ∧
          ((entry fields "data" = some (.arr rows) ∧ entry fields "positionList" = none) ∨
            (entry fields "data" = none ∧ entry fields "positionList" = some (.arr rows))) := by
      simp [Snapshot]
    rw [hrows, snapshotRows]
    by_cases hok : ∀ code, entry fields "code" = some code → code = .str "00000"
    · rw [if_neg (by rw [hcode]; exact not_not.mpr hok), and_iff_right hok]
      cases hdata : entry fields "data" with
      | none =>
        cases hlist : entry fields "positionList" with
        | none => simp [firstOf, firstEntry, hdata, hlist, Json.items?]
        | some list => simp [firstOf, firstEntry, hdata, hlist]
      | some data =>
        cases hlist : entry fields "positionList" with
        | none => simp [firstOf, firstEntry, hdata]
        | some list => simp
    · rw [if_pos (hcode.mpr hok)]
      exact iff_of_false (Option.some_ne_none rows).symm fun h => hok h.1
  | _ => simp [snapshotRows, Snapshot]

theorem Snapshot.unique {rows' : List Json} (h : Snapshot v rows) (h' : Snapshot v rows') :
    rows = rows' :=
  Option.some.inj ((snapshotRows_eq_some.mpr h).symm.trans (snapshotRows_eq_some.mpr h'))

/-- The list of a snapshot, as the readers without a check of the code find it. -/
theorem Snapshot.list (h : Snapshot v rows) : v = .arr rows ∨ ∃ fields, v = .obj fields ∧
    firstEntry fields ["data", "positionList"] = some (.arr rows) := by
  rcases h with rfl | ⟨fields, rfl, -, ⟨hdata, -⟩ | ⟨hdata, hlist⟩⟩
  · exact Or.inl rfl
  · exact Or.inr ⟨fields, rfl, by simp [firstEntry, hdata]⟩
  · exact Or.inr ⟨fields, rfl, by simp [firstEntry, hdata, hlist]⟩

theorem openPositionQuantity_eq_zero : openPositionQuantity P v = some 0 ↔ AsyncLoose P v := by
  unfold openPositionQuantity AsyncLoose
  cases asyncRows v with
  | none => simp
  | some rows =>
    simp only [Option.some.injEq, exists_eq_left', ← asyncRow_eq_some]
    cases rows with
    | nil => simp
    | cons row rows =>
      simp only [reduceCtorEq, false_or]
      have hmem : ∀ q, q ∈ (row :: rows).filterMap (asyncRow P) ↔
          ∃ r ∈ row :: rows, asyncRow P r = some q := fun q => List.mem_filterMap
      split
      next hnil =>
        refine iff_of_false nofun ?_
        rintro ⟨⟨r, hr, hzero⟩, -⟩
        have := (hmem 0).mpr ⟨r, hr, hzero⟩
        simp [hnil] at this
      next hne =>
        rw [Option.some.injEq]
        constructor
        · intro hsum
          have hall : ∀ q ∈ (row :: rows).filterMap (asyncRow P), q = 0 := by
            intro q hq
            have hle : |q| ≤ (((row :: rows).filterMap (asyncRow P)).map fun q => |q|).sum := by
              refine List.single_le_sum (fun x hx => ?_) _ (List.mem_map_of_mem hq)
              obtain ⟨y, -, rfl⟩ := List.mem_map.mp hx
              exact abs_nonneg y
            rw [hsum] at hle
            exact abs_nonpos_iff.mp hle
          obtain ⟨q, hq⟩ := List.exists_mem_of_ne_nil _ hne
          obtain ⟨r, hr, hread⟩ := (hmem q).mp hq
          refine ⟨⟨r, hr, hall q hq ▸ hread⟩, fun r hr q hread => ?_⟩
          exact hall q ((hmem q).mpr ⟨r, hr, hread⟩)
        · rintro ⟨-, hall⟩
          refine List.sum_eq_zero fun x hx => ?_
          obtain ⟨q, hq, rfl⟩ := List.mem_map.mp hx
          obtain ⟨r, hr, hread⟩ := (hmem q).mp hq
          rw [hall r hr q hread, abs_zero]

theorem flatPosition_eq_true :
    flatPosition P v symbol = some true ↔ ReconciliationLoose P v symbol := by
  unfold ReconciliationLoose
  simp only [← flatRows_eq_true]
  cases v with
  | obj fields =>
    simp only [flatPosition, Option.bind_eq_some_iff, Json.items?_eq_some, reduceCtorEq, false_or,
      Json.obj.injEq, exists_eq_left', firstOf]
    cases firstEntry fields ["data", "positionList"] with
    | none => simp
    | some list => simp
  | arr items => simp [flatPosition, Json.items?]
  | _ => simp [flatPosition, Json.items?]

theorem positionQuantity_eq_zero : positionQuantity P v = some 0 ↔ RecoveryLoose P v := by
  have hrows : ∀ rows, rowsTotal (recoveryRow P) rows = some 0 ↔
      ∀ row ∈ rows, FirstReads P ["total", "size"] row (.finite 0) := by
    intro rows
    rw [rowsTotal_eq_some]
    constructor
    · rintro ⟨hsome, hsum⟩ row hrow
      obtain ⟨q, hq⟩ := Option.isSome_iff_exists.mp (hsome row hrow)
      have hle : (recoveryRow P row).getD 0 ≤
          (rows.map fun row => (recoveryRow P row).getD 0).sum := by
        refine List.single_le_sum (fun x hx => ?_) _ (List.mem_map_of_mem hrow)
        obtain ⟨r, hr, rfl⟩ := List.mem_map.mp hx
        obtain ⟨p, hp⟩ := Option.isSome_iff_exists.mp (hsome r hr)
        rw [hp]
        exact (recoveryRow_eq_some.mp hp).2
      obtain ⟨hread, hpos⟩ := recoveryRow_eq_some.mp hq
      rw [← hsum, hq, Option.getD_some] at hle
      rwa [le_antisymm hle hpos] at hread
    · intro hall
      have hzero : ∀ row ∈ rows, recoveryRow P row = some 0 :=
        fun row hrow => recoveryRow_eq_some.mpr ⟨hall row hrow, le_rfl⟩
      refine ⟨fun row hrow => by rw [hzero row hrow]; rfl, (List.sum_eq_zero fun x hx => ?_).symm⟩
      obtain ⟨r, hr, rfl⟩ := List.mem_map.mp hx
      rw [hzero r hr]
      rfl
  unfold RecoveryLoose positionQuantity
  simp only [← hrows]
  cases v with
  | obj fields =>
    simp only [recoveryRows, Option.bind_eq_some_iff, Json.items?_eq_some, reduceCtorEq, false_or,
      Json.obj.injEq, exists_eq_left', valueOf]
    cases entry fields "data" with
    | none => simp
    | some data => simp
  | arr items => simp [recoveryRows, Json.items?]
  | _ => simp [recoveryRows, Json.items?]

/-! ### Of a snapshot that is well formed -/

/-- The quantities of the rows add up to the total. -/
structure Totals (P : Texts) (v : Json) (rows : List Json) (total : ℚ) : Prop where
  snapshot : Snapshot v rows
  holds : ∀ row ∈ rows, Holds P row ((snapshotRow P row).getD 0)
  total_eq : total = (rows.map fun row => (snapshotRow P row).getD 0).sum

theorem WellFormed.totals (h : WellFormed P v) : ∃ rows total, Totals P v rows total := by
  obtain ⟨rows, hsnapshot, hall⟩ := h
  refine ⟨rows, _, hsnapshot, fun row hrow => ?_, rfl⟩
  obtain ⟨q, hq⟩ := hall row hrow
  rw [snapshotRow_eq_some.mpr hq]
  exact hq

theorem openQuantity_eq_some : openQuantity P v = some total ↔ ∃ rows, Totals P v rows total := by
  unfold openQuantity
  rw [Option.bind_eq_some_iff]
  constructor
  · rintro ⟨rows, hrows, htotal⟩
    obtain ⟨hsome, htotal⟩ := rowsTotal_eq_some.mp htotal
    refine ⟨rows, snapshotRows_eq_some.mp hrows, fun row hrow => ?_, htotal⟩
    obtain ⟨q, hq⟩ := Option.isSome_iff_exists.mp (hsome row hrow)
    rw [hq]
    exact snapshotRow_eq_some.mp hq
  · rintro ⟨rows, hsnapshot, hholds, htotal⟩
    refine ⟨rows, snapshotRows_eq_some.mpr hsnapshot, rowsTotal_eq_some.mpr ⟨fun row hrow => ?_,
      htotal⟩⟩
    rw [snapshotRow_eq_some.mpr (hholds row hrow)]
    rfl

theorem Totals.wellFormed (h : Totals P v rows total) : WellFormed P v :=
  ⟨rows, h.snapshot, fun row hrow => ⟨_, h.holds row hrow⟩⟩

theorem Totals.eq_zero_iff (h : Totals P v rows total) : total = 0 ↔ ¬ SomeOpen P v := by
  have hnonneg : ∀ row ∈ rows, 0 ≤ (snapshotRow P row).getD 0 := by
    intro row hrow
    obtain ⟨-, -, hq, -⟩ := h.holds row hrow
    exact hq
  constructor
  · rintro rfl ⟨rows', hsnapshot, row, hrow, q, hq, hpos⟩
    obtain rfl := h.snapshot.unique hsnapshot
    have hle : (snapshotRow P row).getD 0 ≤
        (rows.map fun row => (snapshotRow P row).getD 0).sum := by
      refine List.single_le_sum (fun x hx => ?_) _ (List.mem_map_of_mem hrow)
      obtain ⟨r, hr, rfl⟩ := List.mem_map.mp hx
      exact hnonneg r hr
    rw [← h.total_eq, (h.holds row hrow).unique hq] at hle
    exact absurd hpos (not_lt.mpr hle)
  · intro hnone
    rw [h.total_eq]
    refine List.sum_eq_zero fun x hx => ?_
    obtain ⟨row, hrow, rfl⟩ := List.mem_map.mp hx
    by_contra hne
    exact hnone ⟨rows, h.snapshot, row, hrow, _, h.holds row hrow,
      lt_of_le_of_ne (hnonneg row hrow) (Ne.symm hne)⟩

theorem Totals.openPositionQuantity (h : Totals P v rows total) :
    openPositionQuantity P v = some total := by
  have hrows : asyncRows v = some rows := by
    rcases h.snapshot.list with rfl | ⟨fields, rfl, hfirst⟩
    · rfl
    · simp [asyncRows, firstOf, hfirst]
  have hmap : rows.filterMap (asyncRow P) = rows.map fun row => (snapshotRow P row).getD 0 := by
    rw [← List.filterMap_eq_map]
    exact List.filterMap_congr fun row hrow => asyncRow_eq_some.mpr (h.holds row hrow).firstReads
  have habs : (rows.map fun row => (snapshotRow P row).getD 0).map (fun q => |q|) =
      rows.map fun row => (snapshotRow P row).getD 0 := by
    refine (List.map_congr_left fun q hq => ?_).trans (List.map_id _)
    obtain ⟨row, hrow, rfl⟩ := List.mem_map.mp hq
    obtain ⟨-, -, hpos, -⟩ := h.holds row hrow
    exact abs_of_nonneg hpos
  unfold PositionReaders.openPositionQuantity
  rw [hrows]
  cases hcases : rows with
  | nil => rw [h.total_eq, hcases, List.map_nil, List.sum_nil]
  | cons row rest =>
    rw [hcases] at hmap habs
    dsimp only
    rw [hmap, habs, if_neg (by simp), h.total_eq, hcases]

theorem Totals.flatPosition (h : Totals P v rows total) (symbol : String) :
    ∃ flat, flatPosition P v symbol = some flat ∧ (flat = true ↔ ¬ SymbolOpen P v symbol) := by
  have hflat : PositionReaders.flatPosition P v symbol = flatRows P symbol rows := by
    rcases h.snapshot.list with rfl | ⟨fields, rfl, hfirst⟩
    · rfl
    · simp [PositionReaders.flatPosition, firstOf, hfirst, Json.items?]
  have hiff : flatRows P symbol rows = some true ↔ ¬ SymbolOpen P v symbol := by
    rw [flatRows_eq_true]
    constructor
    · rintro hall ⟨rows', hsnapshot, row, hrow, hof, q, hq, hpos⟩
      obtain rfl := h.snapshot.unique hsnapshot
      have hzero := firstReads_unique hq.firstReads ((hall row hrow).2 hof)
      exact hpos.ne' (Number.finite.inj hzero)
    · intro hnone row hrow
      obtain ⟨fields, hfields, hpos, -⟩ := id (h.holds row hrow)
      refine ⟨⟨fields, hfields⟩, fun hof => ?_⟩
      have hzero : (snapshotRow P row).getD 0 = 0 := by
        by_contra hne
        exact hnone ⟨rows, h.snapshot, row, hrow, hof, _, h.holds row hrow,
          lt_of_le_of_ne hpos (Ne.symm hne)⟩
      exact hzero ▸ (h.holds row hrow).firstReads
  have hsome : (flatRows P symbol rows).isSome :=
    flatRows_isSome fun row hrow => ⟨_, h.holds row hrow⟩
  obtain ⟨b, hb⟩ := Option.isSome_iff_exists.mp hsome
  rw [hb, Option.some.injEq] at hiff
  exact ⟨b, hflat.trans hb, hiff⟩

theorem Totals.positionQuantity (h : Totals P v rows total)
    (hsome : positionQuantity P v = some q) : q = total := by
  unfold PositionReaders.positionQuantity at hsome
  obtain ⟨rows', hrows, htotal⟩ := Option.bind_eq_some_iff.mp hsome
  obtain rfl : rows = rows' := by
    rcases h.snapshot with rfl | ⟨fields, rfl, -, ⟨hdata, -⟩ | ⟨hdata, -⟩⟩
    · exact Option.some.inj hrows
    · simpa [recoveryRows, valueOf, hdata, Json.items?] using hrows
    · simp [recoveryRows, valueOf, hdata, Json.items?] at hrows
  obtain ⟨hall, rfl⟩ := rowsTotal_eq_some.mp htotal
  rw [h.total_eq]
  refine congrArg List.sum (List.map_congr_left fun row hrow => ?_)
  obtain ⟨p, hp⟩ := Option.isSome_iff_exists.mp (hall row hrow)
  obtain ⟨fields, raw, hfields, hraw, hn⟩ := (recoveryRow_eq_some.mp hp).1
  have hkeys : ["total", "size"] ⊆ quantityKeys := by simp [quantityKeys]
  rw [hp, Option.getD_some]
  exact Number.finite.inj (Option.some.inj
    (hn.symm.trans ((h.holds row hrow).first hkeys hfields hraw)))

end Answers

/-! ## The four readers -/

section Four

variable {v : Json} {symbol : String}

theorem some_mem_answers {b : Bool} : some b ∈ answers P v symbol ↔
    (∃ q, openPositionQuantity P v = some q ∧ b = decide (q = 0)) ∨
    (∃ q, openQuantity P v = some q ∧ b = decide (q = 0)) ∨
    flatPosition P v symbol = some b ∨
    ∃ q, positionQuantity P v = some q ∧ b = decide (q = 0) := by
  simp only [answers, List.mem_cons, List.not_mem_nil, or_false, eq_comm (a := some b),
    Option.map_eq_some_iff, eq_comm (b := b)]

/-- What a well formed snapshot says, all say, unless the open positions are of other symbols. -/
theorem flatAgree_of_wellFormed (h : WellFormed P v) :
    FlatAgree P v symbol ↔ (SomeOpen P v → SymbolOpen P v symbol) := by
  obtain ⟨rows, total, ht⟩ := h.totals
  have hsome : SymbolOpen P v symbol → SomeOpen P v := by
    rintro ⟨rows, hsnapshot, row, hrow, -, q, hq⟩
    exact ⟨rows, hsnapshot, row, hrow, q, hq⟩
  obtain ⟨flat, hflat, hsymbol⟩ := ht.flatPosition symbol
  have hanswers : ∀ b, some b ∈ answers P v symbol →
      (b = true ↔ total = 0) ∨ (b = true ↔ ¬ SymbolOpen P v symbol) := by
    intro b hb
    rcases (some_mem_answers P).mp hb with ⟨q, hq, rfl⟩ | ⟨q, hq, rfl⟩ | hb | ⟨q, hq, rfl⟩
    · obtain rfl := Option.some.inj (ht.openPositionQuantity.symm.trans hq)
      exact Or.inl decide_eq_true_iff
    · obtain rfl := Option.some.inj ((openQuantity_eq_some.mpr ⟨rows, ht⟩).symm.trans hq)
      exact Or.inl decide_eq_true_iff
    · obtain rfl := Option.some.inj (hflat.symm.trans hb)
      exact Or.inr hsymbol
    · obtain rfl := ht.positionQuantity hq
      exact Or.inl decide_eq_true_iff
  constructor
  · intro hagree hopen
    have hadapter : some (decide (total = 0)) ∈ answers P v symbol :=
      (some_mem_answers P).mpr (Or.inl ⟨total, ht.openPositionQuantity, rfl⟩)
    have hreconciliation : some flat ∈ answers P v symbol :=
      (some_mem_answers P).mpr (Or.inr (Or.inr (Or.inl hflat)))
    have hsame := hagree.agree _ _ hadapter hreconciliation
    by_contra hnone
    have hzero : total = 0 := by
      rw [hsymbol.mpr hnone] at hsame
      exact of_decide_eq_true hsame
    exact ht.eq_zero_iff.mp hzero hopen
  · intro hopen
    have hiff : total = 0 ↔ ¬ SymbolOpen P v symbol := by
      rw [ht.eq_zero_iff, not_iff_not]
      exact ⟨hopen, hsome⟩
    have hall : ∀ b, some b ∈ answers P v symbol → (b = true ↔ ¬ SymbolOpen P v symbol) := by
      intro b hb
      rcases hanswers b hb with hb | hb
      · exact hb.trans hiff
      · exact hb
    refine ⟨fun htrue => ⟨h, (hall true htrue).mp rfl⟩, fun a b ha hb => ?_⟩
    rw [Bool.eq_iff_iff, hall a ha, hall b hb]

/-- On any other answer none may say flat. -/
theorem flatAgree_of_malformed (h : ¬ WellFormed P v) :
    FlatAgree P v symbol ↔
      ¬ AsyncLoose P v ∧ ¬ ReconciliationLoose P v symbol ∧ ¬ RecoveryLoose P v := by
  have htrue : some true ∈ answers P v symbol ↔
      AsyncLoose P v ∨ ReconciliationLoose P v symbol ∨ RecoveryLoose P v := by
    rw [some_mem_answers, ← openPositionQuantity_eq_zero, ← flatPosition_eq_true,
      ← positionQuantity_eq_zero]
    have hlane : ∀ q, openQuantity P v ≠ some q := fun q hq => by
      obtain ⟨rows, ht⟩ := openQuantity_eq_some.mp hq
      exact h ht.wellFormed
    simp [hlane, eq_comm (a := true)]
  rw [← not_or, ← not_or, ← htrue]
  constructor
  · exact fun hagree hflat => h (hagree.sound hflat).1
  · intro hnone
    refine ⟨fun hflat => absurd hflat hnone, fun a b ha hb => ?_⟩
    cases a with
    | true => exact absurd ha hnone
    | false =>
      cases b with
      | true => exact absurd hb hnone
      | false => rfl

/-- The four readers call a symbol flat only on a well formed snapshot without an open position of
it, and agree, exactly on the well formed snapshots whose open positions, if any, are of the symbol,
and on the other answers that are of none of the three loose kinds. -/
theorem flat_agree_iff : FlatAgree P v symbol ↔
    (WellFormed P v ∧ (SomeOpen P v → SymbolOpen P v symbol)) ∨
      (¬ WellFormed P v ∧
        ¬ AsyncLoose P v ∧ ¬ ReconciliationLoose P v symbol ∧ ¬ RecoveryLoose P v) := by
  by_cases h : WellFormed P v
  · rw [flatAgree_of_wellFormed P h]
    simp [h]
  · rw [flatAgree_of_malformed P h]
    simp [h]

end Four

/-! ## An answer without data -/

/-- The answer of the venue to a request it refused. -/
def errorAnswer : Json := .obj [("code", .str "40037"), ("msg", .str "Apikey does not exist")]

theorem errorAnswer_malformed : ¬ WellFormed ascii errorAnswer := by
  rintro ⟨rows, h | ⟨fields, hfields, -, hlist⟩, -⟩
  · cases h
  · obtain rfl := Json.obj.inj hfields
    rcases hlist with ⟨hdata, -⟩ | ⟨-, hdata⟩ <;> cases hdata

/-- The adapter calls every symbol flat, the others say nothing. -/
theorem errorAnswer_flat :
    openPositionQuantity ascii errorAnswer = some 0 ∧ openQuantity ascii errorAnswer = none ∧
      flatPosition ascii errorAnswer "BTCUSDT" = none ∧ positionQuantity ascii errorAnswer = none ∧
        ¬ FlatAgree ascii errorAnswer "BTCUSDT" := by
  refine ⟨by decide +kernel, by decide +kernel, by decide +kernel, by decide +kernel, fun h => ?_⟩
  refine errorAnswer_malformed (h.sound ?_).1
  exact (some_mem_answers ascii).mpr (Or.inl ⟨0, by decide +kernel, rfl⟩)

end FattyTrader.PositionReaders
