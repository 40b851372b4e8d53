import Mathlib.Data.List.Basic
import Mathlib.Data.List.Pairwise

/-!
# Tables with unique constraints

A unique constraint, and a partial unique index, forbids that two rows of a table
*conflict*. A `Table` carries its rows with the proof that no two of them conflict,
so a table that violates a constraint cannot be built. A statement that would
violate one has no result (`insert`, `updateWhere` return `none`) : the transaction
fails and nothing of it is written.

`find` looks a row up by a key. Where equal keys conflict the row is unique
(`find_eq_some_iff`), and each statement says what the lookup is afterwards
(`find_insert`, `find_updateWhere`). `replace` writes a whole row under its key : it
succeeds exactly when the new row conflicts with none of the others
(`replace_isSome_iff`).

`insertNew` is an insert with `ON CONFLICT DO NOTHING`, and `insertAll` a loop of them.
-/

set_option linter.unusedSectionVars false

namespace Tables

variable {α κ : Type*} {Conflict : α → α → Prop}

/-- Rows no two of which conflict. -/
structure Table (α : Type*) (Conflict : α → α → Prop) where
  rows : List α
  unique : rows.Pairwise fun a b => ¬ Conflict a b

namespace Table

@[ext] theorem ext {t t' : Table α Conflict} (h : t.rows = t'.rows) : t = t' := by
  cases t
  cases t'
  simpa using h

instance : Membership α (Table α Conflict) := ⟨fun t r => r ∈ t.rows⟩

theorem mem_iff {t : Table α Conflict} {r : α} : r ∈ t ↔ r ∈ t.rows := Iff.rfl

/-- The table without rows. -/
def empty : Table α Conflict := ⟨[], List.Pairwise.nil⟩

@[simp] theorem rows_empty : (empty : Table α Conflict).rows = [] := rfl

/-- Two rows of a table are the same row or do not conflict. -/
theorem eq_or_not_conflict [Std.Symm Conflict] {t : Table α Conflict} {a b : α}
    (ha : a ∈ t) (hb : b ∈ t) : a = b ∨ ¬ Conflict a b := by
  have : Std.Symm fun a b => ¬ Conflict a b :=
    ⟨fun _ _ hab hba => hab (Std.Symm.symm _ _ hba)⟩
  by_cases h : a = b
  · exact Or.inl h
  · exact Or.inr (t.unique.forall ha hb h)

/-- Rewrite every row by a function that keeps rows without conflict so. -/
def rewrite (t : Table α Conflict) (f : α → α)
    (hf : ∀ a b, Conflict (f a) (f b) → Conflict a b) : Table α Conflict :=
  ⟨t.rows.map f, List.pairwise_map.mpr (t.unique.imp fun hab h => hab (hf _ _ h))⟩

theorem mem_rewrite {t : Table α Conflict} {f : α → α}
    {hf : ∀ a b, Conflict (f a) (f b) → Conflict a b} {x : α} :
    x ∈ t.rewrite f hf ↔ ∃ r ∈ t, f r = x := by
  simp [mem_iff, rewrite]

/-! ## Statements -/

section Statements

variable [DecidableRel Conflict]

/-- The table with these rows, unless two of them conflict. -/
def ofRows (rows : List α) : Option (Table α Conflict) :=
  if h : rows.Pairwise fun a b => ¬ Conflict a b then some ⟨rows, h⟩ else none

theorem ofRows_eq_some_iff {rows : List α} {t : Table α Conflict} :
    ofRows rows = some t ↔ t.rows = rows := by
  unfold ofRows
  split
  next h =>
    constructor
    · intro ht
      rw [← Option.some.inj ht]
    · intro ht
      congr 1
      ext1
      exact ht.symm
  next h =>
    constructor
    · intro ht
      cases ht
    · intro ht
      exact absurd (ht ▸ t.unique) h

theorem ofRows_eq_none_iff {rows : List α} :
    (ofRows rows : Option (Table α Conflict)) = none ↔
      ¬ rows.Pairwise fun a b => ¬ Conflict a b := by
  unfold ofRows
  split <;> simp_all

/-- Append a row. -/
def insert (t : Table α Conflict) (r : α) : Option (Table α Conflict) :=
  ofRows (t.rows ++ [r])

/-- Rewrite the rows that satisfy `p`. -/
def updateWhere (t : Table α Conflict) (p : α → Bool) (f : α → α) : Option (Table α Conflict) :=
  ofRows (t.rows.map fun r => if p r then f r else r)

/-- Remove the rows that satisfy `p`. -/
def deleteWhere (t : Table α Conflict) (p : α → Bool) : Table α Conflict :=
  ⟨t.rows.filter fun r => !p r, t.unique.filter _⟩

theorem rows_of_insert {t t' : Table α Conflict} {r : α} (h : t.insert r = some t') :
    t'.rows = t.rows ++ [r] :=
  ofRows_eq_some_iff.mp h

theorem rows_of_updateWhere {t t' : Table α Conflict} {p : α → Bool} {f : α → α}
    (h : t.updateWhere p f = some t') :
    t'.rows = t.rows.map fun r => if p r then f r else r :=
  ofRows_eq_some_iff.mp h

theorem mem_insert {t t' : Table α Conflict} {r x : α} (h : t.insert r = some t') :
    x ∈ t' ↔ x ∈ t ∨ x = r := by
  simp [mem_iff, rows_of_insert h]

theorem mem_updateWhere {t t' : Table α Conflict} {p : α → Bool} {f : α → α} {x : α}
    (h : t.updateWhere p f = some t') :
    x ∈ t' ↔ ∃ r ∈ t, (if p r then f r else r) = x := by
  simp only [mem_iff, rows_of_updateWhere h, List.mem_map]

theorem mem_deleteWhere {t : Table α Conflict} {p : α → Bool} {x : α} :
    x ∈ t.deleteWhere p ↔ x ∈ t ∧ p x = false := by
  simp [mem_iff, deleteWhere]

theorem insert_isSome_iff {t : Table α Conflict} {r : α} :
    (t.insert r).isSome ↔ ∀ x ∈ t, ¬ Conflict x r := by
  rw [Option.isSome_iff_ne_none, ne_eq, insert, ofRows_eq_none_iff, not_not, List.pairwise_append]
  simp [t.unique, mem_iff]

/-- An insert fails on a row that conflicts. -/
theorem exists_conflict_of_insert {t : Table α Conflict} {r : α} (h : t.insert r = none) :
    ∃ x ∈ t, Conflict x r := by
  by_contra hfree
  push Not at hfree
  have hinsert := insert_isSome_iff.mpr hfree
  simp [h] at hinsert

/-- An update that makes no two rows conflict succeeds. -/
theorem updateWhere_isSome {t : Table α Conflict} {p : α → Bool} {f : α → α}
    (h : ∀ a ∈ t, ∀ b ∈ t, ¬ Conflict a b →
      ¬ Conflict (if p a then f a else a) (if p b then f b else b)) :
    (t.updateWhere p f).isSome := by
  rw [Option.isSome_iff_ne_none, ne_eq, updateWhere, ofRows_eq_none_iff, not_not,
    List.pairwise_map]
  exact t.unique.imp_of_mem fun ha hb hab => h _ ha _ hb hab

end Statements

/-! ## Inserts that may be dropped -/

section InsertNew

variable [DecidableRel Conflict]

/-- Append a row, unless it conflicts with one. -/
def insertNew (t : Table α Conflict) (r : α) : Table α Conflict := (t.insert r).getD t

/-- Append rows one by one, each unless it conflicts with one. -/
def insertAll (t : Table α Conflict) (rs : List α) : Table α Conflict := rs.foldl insertNew t

variable {t : Table α Conflict} {r x : α} {rs : List α}

theorem rows_insertNew : (t.insertNew r).rows = t.rows ∨
    (t.insertNew r).rows = t.rows ++ [r] ∧ ∀ x ∈ t, ¬ Conflict x r := by
  unfold insertNew
  cases h : t.insert r with
  | none => exact Or.inl rfl
  | some t' => exact Or.inr ⟨rows_of_insert h, insert_isSome_iff.mp (by rw [h]; rfl)⟩

/-- A row of the longer table is the new one, or one of the table. -/
theorem mem_insertNew (h : x ∈ t.insertNew r) : x ∈ t ∨ x = r := by
  rw [mem_iff] at h
  rcases rows_insertNew (t := t) (r := r) with hrows | ⟨hrows, -⟩
  · exact Or.inl (mem_iff.mpr (hrows ▸ h))
  · exact (List.mem_append.mp (hrows ▸ h)).imp id List.mem_singleton.mp

theorem rows_insertNew_of (h : ∀ x ∈ t, ¬ Conflict x r) :
    (t.insertNew r).rows = t.rows ++ [r] := by
  obtain ⟨t', ht'⟩ := Option.isSome_iff_exists.mp (insert_isSome_iff.mpr h)
  simp [insertNew, ht', rows_of_insert ht']

theorem insertNew_of_conflict (hx : x ∈ t) (h : Conflict x r) : t.insertNew r = t := by
  cases ht : t.insert r with
  | none => simp [insertNew, ht]
  | some t' => exact absurd h (insert_isSome_iff.mp (by rw [ht]; rfl) x hx)

theorem prefix_insertNew : t.rows <+: (t.insertNew r).rows := by
  rcases rows_insertNew (t := t) (r := r) with h | ⟨h, -⟩ <;> simp [h]

/-- A row is inserted, or one that conflicts with it is there. -/
theorem exists_insertNew : ∃ x ∈ t.insertNew r, x = r ∨ Conflict x r := by
  by_cases h : ∀ x ∈ t, ¬ Conflict x r
  · exact ⟨r, by simp [mem_iff, rows_insertNew_of h], Or.inl rfl⟩
  · push Not at h
    obtain ⟨x, hx, hconflict⟩ := h
    exact ⟨x, by rwa [insertNew_of_conflict hx hconflict], Or.inr hconflict⟩

/-- What is new was among the rows to insert. -/
theorem exists_new_insertAll (t : Table α Conflict) (rs : List α) :
    ∃ new, (t.insertAll rs).rows = t.rows ++ new ∧ new.Sublist rs := by
  induction rs generalizing t with
  | nil => exact ⟨[], by simp [insertAll], List.Sublist.refl _⟩
  | cons r rs ih =>
    obtain ⟨new, hrows, hsub⟩ := ih (t.insertNew r)
    rcases rows_insertNew (t := t) (r := r) with h | ⟨h, -⟩
    · exact ⟨new, by rw [← h]; exact hrows, hsub.cons r⟩
    · exact ⟨r :: new, by simpa [h, insertAll] using hrows, hsub.cons_cons r⟩

theorem rows_insertAll_of (h : (t.rows ++ rs).Pairwise fun a b => ¬ Conflict a b) :
    (t.insertAll rs).rows = t.rows ++ rs := by
  induction rs generalizing t with
  | nil => simp [insertAll]
  | cons r rs ih =>
    have hnew : (t.insertNew r).rows = t.rows ++ [r] :=
      rows_insertNew_of fun x hx => (List.pairwise_append.mp h).2.2 x hx r List.mem_cons_self
    have htail : (t.insertAll (r :: rs)).rows = (t.insertNew r).rows ++ rs :=
      ih (by simpa [hnew] using h)
    simp [htail, hnew]

theorem exists_insertAll (h : r ∈ rs) : ∃ x ∈ t.insertAll rs, x = r ∨ Conflict x r := by
  induction rs generalizing t with
  | nil => simp at h
  | cons a rs ih =>
    rcases List.mem_cons.mp h with rfl | h
    · obtain ⟨x, hx, hr⟩ := exists_insertNew (t := t) (r := r)
      obtain ⟨new, hrows, -⟩ := exists_new_insertAll (t.insertNew r) rs
      exact ⟨x, mem_iff.mpr (hrows ▸ List.mem_append_left _ hx), hr⟩
    · exact ih h

/-- Rows that are all taken change nothing. -/
theorem insertAll_of_conflicts (h : ∀ r ∈ rs, ∃ x ∈ t, Conflict x r) : t.insertAll rs = t := by
  induction rs with
  | nil => rfl
  | cons r rs ih =>
    obtain ⟨x, hx, hconflict⟩ := h r List.mem_cons_self
    rw [insertAll, List.foldl_cons, insertNew_of_conflict hx hconflict]
    exact ih fun r hr => h r (List.mem_cons_of_mem _ hr)

end InsertNew

/-! ## Lookup by key -/

section Find

variable [DecidableEq κ]

/-- The first row with the key `k`. -/
def find (t : Table α Conflict) (key : α → κ) (k : κ) : Option α :=
  t.rows.find? fun r => key r = k

variable {key : α → κ}

theorem mem_of_find {t : Table α Conflict} {k : κ} {r : α} (h : t.find key k = some r) : r ∈ t :=
  List.mem_of_find?_eq_some h

theorem key_of_find {t : Table α Conflict} {k : κ} {r : α} (h : t.find key k = some r) :
    key r = k := by
  simpa using List.find?_some h

theorem find_eq_none_iff {t : Table α Conflict} {k : κ} :
    t.find key k = none ↔ ∀ r ∈ t, key r ≠ k := by
  simp [find, List.find?_eq_none, mem_iff]

/-- Where equal keys conflict, the row with a key is the only one. -/
theorem find_eq_some_iff [Std.Symm Conflict] (hkey : ∀ a b : α, key a = key b → Conflict a b)
    {t : Table α Conflict} {k : κ} {r : α} : t.find key k = some r ↔ r ∈ t ∧ key r = k := by
  constructor
  · intro h
    exact ⟨mem_of_find h, key_of_find h⟩
  · rintro ⟨hr, hk⟩
    cases hx : t.find key k with
    | none => exact absurd hk (find_eq_none_iff.mp hx r hr)
    | some x =>
      rcases eq_or_not_conflict (mem_of_find hx) hr with rfl | h
      · rfl
      · exact absurd (hkey x r ((key_of_find hx).trans hk.symm)) h

variable [DecidableRel Conflict]

theorem find_insert {t t' : Table α Conflict} {r : α} (h : t.insert r = some t')
    (key : α → κ) (k : κ) : t'.find key k =
      (t.find key k).or (if key r = k then some r else none) := by
  simp only [find, rows_of_insert h, List.find?_append, List.find?_singleton, decide_eq_true_eq]

theorem find_updateWhere {t t' : Table α Conflict} {p : α → Bool} {f : α → α} {k : κ}
    (hf : ∀ r, key (f r) = key r) (h : t.updateWhere p f = some t') :
    t'.find key k = (t.find key k).map fun r => if p r then f r else r := by
  have hg : ∀ r, key (if p r then f r else r) = key r := by
    intro r
    split
    · exact hf r
    · rfl
  simp only [find, rows_of_updateWhere h, List.find?_map, Function.comp_def, hg]

/-! ## Replacing a row -/

/-- Write `r` in place of the row with the key `k`. -/
def replace (t : Table α Conflict) (key : α → κ) (k : κ) (r : α) : Option (Table α Conflict) :=
  t.updateWhere (fun x => key x = k) fun _ => r

theorem find_replace {t t' : Table α Conflict} {k : κ} {r : α} (hr : key r = k)
    (h : t.replace key k r = some t') (o : κ) :
    t'.find key o = if o = k then (t.find key k).map fun _ => r else t.find key o := by
  simp only [find, rows_of_updateWhere h, List.find?_map, decide_eq_true_eq]
  split
  next ho =>
    subst ho
    have hp : ((fun x => decide (key x = o)) ∘ fun x => if key x = o then r else x) =
        fun x => decide (key x = o) := by
      funext x
      by_cases hx : key x = o <;> simp [hx, hr]
    rw [hp]
    refine Option.map_congr fun x hx => ?_
    have : key x = o := by simpa using List.find?_some hx
    simp [this]
  next ho =>
    have hp : ((fun x => decide (key x = o)) ∘ fun x => if key x = k then r else x) =
        fun x => decide (key x = o) := by
      funext x
      by_cases hx : key x = k
      · simp [hx, hr, Ne.symm ho]
      · simp [hx]
    rw [hp]
    cases hf : t.rows.find? fun x => decide (key x = o) with
    | none => rfl
    | some x =>
      have hx : key x = o := by simpa using List.find?_some hf
      have hne : key x ≠ k := fun h => ho (hx.symm.trans h)
      simp [hne]

/-- A row written over itself. -/
theorem replace_self [Std.Symm Conflict] (hkey : ∀ a b : α, key a = key b → Conflict a b)
    {t : Table α Conflict} {k : κ} {r : α} (hr : r ∈ t) (hk : key r = k) :
    t.replace key k r = some t := by
  refine ofRows_eq_some_iff.mpr ?_
  refine (List.map_congr_left fun x hx => ?_).trans (List.map_id _) |>.symm
  by_cases hx' : key x = k
  · rcases eq_or_not_conflict (t := t) hx hr with rfl | h
    · simp
    · exact absurd (hkey x r (hx'.trans hk.symm)) h
  · simp [hx']

/-- A row may be written exactly when it conflicts with no row of another key. -/
theorem replace_isSome_iff [Std.Symm Conflict] (hkey : ∀ a b : α, key a = key b → Conflict a b)
    {t : Table α Conflict} {k : κ} {old r : α} (hr : key r = k) (hold : t.find key k = some old) :
    (t.replace key k r).isSome ↔ ∀ x ∈ t, key x ≠ k → ¬ Conflict x r := by
  constructor
  · intro h x hx hne
    obtain ⟨t', ht'⟩ := Option.isSome_iff_exists.mp h
    have hmem : ∀ y ∈ t, (if key y = k then r else y) ∈ t' := fun y hy =>
      (mem_updateWhere ht').mpr ⟨y, hy, by simp⟩
    have hx' : x ∈ t' := by simpa [hne] using hmem x hx
    have hr' : r ∈ t' := by
      simpa [key_of_find hold] using hmem old (mem_of_find hold)
    rcases eq_or_not_conflict hx' hr' with rfl | h
    · exact absurd hr hne
    · exact h
  · intro h
    refine updateWhere_isSome fun a ha b hb hab => ?_
    by_cases hka : key a = k <;> by_cases hkb : key b = k
    · exact absurd (hkey a b (hka.trans hkb.symm)) hab
    · simpa [hka, hkb] using fun hc => h b hb hkb (Std.Symm.symm _ _ hc)
    · simpa [hka, hkb] using h a ha hka
    · simpa [hka, hkb] using hab

end Find

end Table

/-! ## Tables with one key -/

/-- Two rows with the same key. -/
def SameKey {α κ : Type*} (key : α → κ) (a b : α) : Prop := key a = key b

instance {α κ : Type*} [DecidableEq κ] (key : α → κ) : DecidableRel (SameKey key) := fun a b =>
  inferInstanceAs (Decidable (key a = key b))

instance {α κ : Type*} (key : α → κ) : Std.Symm (SameKey key) := ⟨fun _ _ h => Eq.symm h⟩

/-- The rows of a table with a key are distinct. -/
theorem Table.nodup {α κ : Type*} {key : α → κ} (t : Table α (SameKey key)) : t.rows.Nodup :=
  t.unique.imp fun hab h => hab (congrArg key h)

/-- The row of a table with a key. -/
theorem Table.eq_of_key {α κ : Type*} {key : α → κ} {t : Table α (SameKey key)} {a b : α}
    (ha : a ∈ t) (hb : b ∈ t) (h : key a = key b) : a = b :=
  (Table.eq_or_not_conflict ha hb).resolve_right (not_not.mpr h)

end Tables
