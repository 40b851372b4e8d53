import Mathlib.Algebra.BigOperators.Group.List.Basic
import Mathlib.Algebra.Order.BigOperators.Group.List
import FattyTrader.Tables

/-!
# Parts of a table

The rows of a table that belong to one owner are its `part`. A statement for another owner leaves the
part alone (`part_insertNew_ne`, `part_rewrite`). Where conflicting rows, or the rows with a key, have one
owner, an insert and a lookup depend on its part only (`part_insertNew_congr`, `find_congr`).

Sums over parts that share no row add up (`sum_filter_any`), rows without a value or with none to add
do not count (`sum_filterMap`, `sum_filter_ne_zero`), and where one row counts for more the sum grows by
no more than that (`sum_map_le_add`).
-/

namespace Tables.Table

variable {α ι κ : Type*} {Conflict : α → α → Prop} [DecidableEq ι] {owner : α → ι} {i : ι}
  {t t' : Table α Conflict} {r : α}

/-- The rows of an owner. -/
def part (t : Table α Conflict) (owner : α → ι) (i : ι) : List α :=
  t.rows.filter fun r => owner r = i

theorem mem_part {x : α} : x ∈ t.part owner i ↔ x ∈ t ∧ owner x = i := by
  simp [part, mem_iff]

theorem part_rewrite {f : α → α} {hf : ∀ a b, Conflict (f a) (f b) → Conflict a b}
    (hown : ∀ r, owner (f r) = owner r) : (t.rewrite f hf).part owner i = (t.part owner i).map f := by
  simp only [part, rewrite, List.filter_map, Function.comp_def, hown]

section InsertNew

variable [DecidableRel Conflict]

theorem part_insertNew_ne (h : owner r ≠ i) : (t.insertNew r).part owner i = t.part owner i := by
  unfold part
  rcases rows_insertNew (t := t) (r := r) with hrows | ⟨hrows, -⟩
  · rw [hrows]
  · simp [hrows, List.filter_append, h]

theorem part_insertNew_congr (hown : ∀ a, Conflict a r → owner a = i) (hr : owner r = i)
    (h : t.part owner i = t'.part owner i) :
    (t.insertNew r).part owner i = (t'.insertNew r).part owner i := by
  have hmem : ∀ {a : α}, Conflict a r → (a ∈ t ↔ a ∈ t') := fun {a} ha => by
    have hpart : a ∈ t.part owner i ↔ a ∈ t'.part owner i := by rw [h]
    simpa only [mem_part, hown a ha, and_true] using hpart
  have happend : ∀ {t : Table α Conflict}, (∀ a ∈ t, ¬ Conflict a r) →
      (t.insertNew r).part owner i = t.part owner i ++ [r] := fun hnew => by
    unfold part
    simp [rows_insertNew_of hnew, List.filter_append, hr]
  by_cases hnew : ∀ a ∈ t, ¬ Conflict a r
  · have hnew' : ∀ a ∈ t', ¬ Conflict a r := fun a ha hconflict =>
      hnew a ((hmem hconflict).mpr ha) hconflict
    rw [happend hnew, happend hnew', h]
  · push Not at hnew
    obtain ⟨a, ha, hconflict⟩ := hnew
    rw [insertNew_of_conflict ha hconflict, insertNew_of_conflict ((hmem hconflict).mp ha) hconflict, h]

end InsertNew

theorem find_congr [DecidableEq κ] {key : α → κ} {k : κ} (hown : ∀ a, key a = k → owner a = i)
    (h : t.part owner i = t'.part owner i) : t.find key k = t'.find key k := by
  have hfind : ∀ t : Table α Conflict,
      t.find key k = (t.part owner i).find? fun r => key r = k := fun t => by
    unfold find part
    rw [List.find?_filter]
    congr 1
    funext r
    by_cases hk : key r = k
    · simp [hk, hown r hk]
    · simp [hk]
  rw [hfind, hfind, h]

end Tables.Table

/-! ## Sums over parts -/

namespace Tables

section Sums

variable {α β M : Type*} [AddCommMonoid M]

/-- Parts that exclude each other add up. -/
theorem sum_filter_or {rows : List α} {p q : α → Bool} (g : α → M)
    (h : ∀ a ∈ rows, p a → q a = false) :
    ((rows.filter fun a => p a || q a).map g).sum =
      ((rows.filter p).map g).sum + ((rows.filter q).map g).sum := by
  have hp : (rows.filter fun a => p a || q a).filter p = rows.filter p := by
    rw [List.filter_filter]
    refine List.filter_congr fun a _ => ?_
    cases p a <;> simp
  have hq : ((rows.filter fun a => p a || q a).filter fun a => !p a) = rows.filter q := by
    rw [List.filter_filter]
    refine List.filter_congr fun a ha => ?_
    cases hpa : p a with
    | true => simp [h a ha hpa]
    | false => simp
  have hsum := List.sum_map_filter_add_sum_map_filter_not (fun a => p a = true) g
    (rows.filter fun a => p a || q a)
  rw [← hsum]
  simp only [Bool.decide_eq_true, Bool.not_eq_true] at hsum ⊢
  rw [hp]
  congr 3
  rw [← hq]
  exact List.filter_congr fun a _ => by simp

/-- The rows of one of several owners, who share no row, add up by owner. -/
theorem sum_filter_any {rows : List α} {owners : List β} {p : β → α → Bool} (g : α → M)
    (h : owners.Pairwise fun b b' => ∀ a ∈ rows, p b a → p b' a = false) :
    ((rows.filter fun a => owners.any (p · a)).map g).sum =
      (owners.map fun b => ((rows.filter (p b)).map g).sum).sum := by
  induction owners with
  | nil => simp
  | cons b owners ih =>
    obtain ⟨hb, htail⟩ := List.pairwise_cons.mp h
    simp only [List.any_cons, List.map_cons, List.sum_cons]
    rw [sum_filter_or g, ih htail]
    intro a ha hpa
    rw [List.any_eq_false]
    intro b' hb'
    simp [hb b' hb' a ha hpa]

end Sums

section Values

variable {α β M : Type*} [AddCommMonoid M]

theorem sum_filterMap {f : α → Option β} {g : β → M} (rows : List α) :
    ((rows.filterMap f).map g).sum = (rows.map fun a => ((f a).map g).getD 0).sum := by
  induction rows with
  | nil => rfl
  | cons a rows ih =>
    obtain hf | ⟨b, hf⟩ := Option.eq_none_or_eq_some (f a)
    · rw [List.filterMap_cons_none hf, ih]
      simp [hf]
    · rw [List.filterMap_cons_some hf, List.map_cons, List.sum_cons, ih]
      simp [hf]

theorem sum_filter_ne_zero [DecidableEq M] {g : α → M} (rows : List α) :
    ((rows.filter fun a => g a ≠ 0).map g).sum = (rows.map g).sum := by
  induction rows with
  | nil => rfl
  | cons a rows ih =>
    by_cases ha : g a = 0
    · rw [List.filter_cons_of_neg (by simpa using ha), ih]
      simp [ha]
    · rw [List.filter_cons_of_pos (by simpa using ha), List.map_cons, List.sum_cons, ih]
      rfl

/-- Where the row of one key counts for more, the sum grows by no more. -/
theorem sum_map_le_add {κ : Type*} [DecidableEq κ] [PartialOrder M] [IsOrderedAddMonoid M]
    {rows : List α} {key : α → κ} {f g : α → M} {k : κ} {extra : M}
    (hdistinct : rows.Pairwise fun a b => key a ≠ key b) (hextra : 0 ≤ extra)
    (hother : ∀ a ∈ rows, key a ≠ k → f a ≤ g a) (hone : ∀ a ∈ rows, key a = k → f a ≤ g a + extra) :
    (rows.map f).sum ≤ (rows.map g).sum + extra := by
  induction rows with
  | nil => simpa using hextra
  | cons a rows ih =>
    obtain ⟨hhead, htail⟩ := List.pairwise_cons.mp hdistinct
    simp only [List.map_cons, List.sum_cons]
    by_cases hk : key a = k
    · have hrest : (rows.map f).sum ≤ (rows.map g).sum :=
        List.sum_le_sum fun b hb => hother b (List.mem_cons_of_mem _ hb) fun heq =>
          hhead b hb (hk.trans heq.symm)
      rw [add_right_comm]
      exact add_le_add (hone a List.mem_cons_self hk) hrest
    · have hrest := ih htail (fun b hb => hother b (List.mem_cons_of_mem _ hb)) fun b hb =>
        hone b (List.mem_cons_of_mem _ hb)
      rw [add_assoc]
      exact add_le_add (hother a List.mem_cons_self hk) hrest

end Values

/-- A part with the sum of the whole is the whole, where every row counts. -/
theorem forall_of_sum_filter {α M : Type*} [AddCommMonoid M] [PartialOrder M]
    [IsOrderedCancelAddMonoid M] {rows : List α} {p : α → Bool} {g : α → M}
    (hpos : ∀ a ∈ rows, 0 < g a) (h : ((rows.filter p).map g).sum = (rows.map g).sum) :
    ∀ a ∈ rows, p a := by
  have hsplit := List.sum_map_filter_add_sum_map_filter_not (fun a => p a = true) g rows
  simp only [Bool.decide_eq_true] at hsplit
  have hrest : ((rows.filter fun a => ¬ p a = true).map g).sum = 0 :=
    add_eq_left.mp (hsplit.trans h.symm)
  intro a ha
  by_contra hpa
  have hmem : a ∈ rows.filter fun a => ¬ p a = true := List.mem_filter.mpr ⟨ha, by simpa using hpa⟩
  refine absurd hrest (ne_of_gt (List.sum_pos _ (fun x hx => ?_) ?_))
  · obtain ⟨b, hb, rfl⟩ := List.mem_map.mp hx
    exact hpos b (List.mem_filter.mp hb).1
  · exact List.ne_nil_of_mem (List.mem_map_of_mem hmem)

end Tables
