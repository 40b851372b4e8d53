import FattyTrader.LiveIntents

/-!
# Rows of the fill ledger

`insert_provider_fills` writes one row after the other : each is inserted unless its id is there, and
removes the provisional rows of its intent (`insertProviderFills_eq`). A row of the venue stays once
it is written, its id is taken from then on (`exists_insertRows`), and the rows of other intents stay
as they are (`filter_insertRows`). Rows whose ids are all taken change nothing
(`insertRows_of_taken`).
-/

set_option linter.unusedSectionVars false

open Tables

namespace FattyTrader

namespace Db

variable {db : Db} {oid other : String} {row f : FillRow} {rows : List FillRow}

/-- Every fill a statement leaves or adds was there, or is the row it inserts. -/
theorem mem_insertFill (h : f ∈ (db.insertFill row).fills) : f ∈ db.fills ∨ f = row := by
  unfold insertFill at h
  split at h
  · exact Or.inl h
  next fills hi => exact (Table.mem_insert hi).mp h

theorem mem_supersede (h : f ∈ (db.supersedeStatusDerived oid).fills) : f ∈ db.fills := by
  unfold supersedeStatusDerived at h
  split at h
  · exact (Table.mem_deleteWhere.mp h).1
  · exact h

theorem mem_insertFill_of_mem (h : f ∈ db.fills) : f ∈ (db.insertFill row).fills := by
  unfold insertFill
  split
  · exact h
  next fills hi => exact (Table.mem_insert hi).mpr (Or.inl h)

theorem mem_supersede_of_mem (h : f ∈ db.fills) (hf : statusDerived f.providerFillId = false) :
    f ∈ (db.supersedeStatusDerived oid).fills := by
  unfold supersedeStatusDerived
  split
  · exact Table.mem_deleteWhere.mpr ⟨h, by simp [hf]⟩
  · exact h

/-- The id of an inserted row is taken afterwards. -/
theorem exists_insertFill : ∃ f ∈ (db.insertFill row).fills,
    f = row ∨ f ∈ db.fills ∧ f.providerFillId = row.providerFillId := by
  unfold insertFill
  split
  next hnone =>
    obtain ⟨f, hf, hconflict⟩ := Table.exists_conflict_of_insert hnone
    exact ⟨f, hf, Or.inr ⟨hf, hconflict⟩⟩
  next fills hi => exact ⟨row, (Table.mem_insert hi).mpr (Or.inr rfl), Or.inl rfl⟩

theorem insertFill_of_taken (h : f ∈ db.fills) (hid : f.providerFillId = row.providerFillId) :
    db.insertFill row = db := by
  unfold insertFill
  split
  · rfl
  next fills hi =>
    exact absurd hid (Table.insert_isSome_iff.mp (by rw [hi]; rfl) f h)

/-- Without a provisional row of the intent there is nothing to supersede. -/
theorem supersede_of_none
    (h : ∀ f ∈ db.fills, f.clientOrderId = oid → statusDerived f.providerFillId = false) :
    db.supersedeStatusDerived oid = db := by
  unfold supersedeStatusDerived
  split
  · have hfills : (db.fills.deleteWhere fun f =>
        f.clientOrderId = oid && statusDerived f.providerFillId) = db.fills := by
      ext1
      refine List.filter_eq_self.mpr fun f hf => ?_
      by_cases hoid : f.clientOrderId = oid
      · simp [h f hf hoid]
      · simp [hoid]
    rw [hfills]
  · rfl

/-! ## Rows one after the other -/

/-- The loop of `insert_provider_fills`, over the rows it writes. -/
def insertRows (db : Db) (oid : String) (rows : List FillRow) : Db :=
  rows.foldl (fun db row => (db.insertFill row).supersedeStatusDerived oid) db

theorem insertRows_cons : db.insertRows oid (row :: rows) =
    ((db.insertFill row).supersedeStatusDerived oid).insertRows oid rows := rfl

theorem insertProviderFills_eq (now : Instant) (record : LiveIntentRecord) :
    ∀ (fills : List ProviderFill) (db : Db), db.insertProviderFills now record fills =
      db.insertRows record.clientOid (fills.filterMap (providerFillRow now record))
  | [], _ => rfl
  | fill :: fills, db => by
    have ih := insertProviderFills_eq now record fills
    simp only [insertProviderFills, insertRows, List.foldl_cons, List.filterMap_cons] at ih ⊢
    cases hrow : providerFillRow now record fill with
    | none => exact ih db
    | some row => exact ih _

theorem fillsOnly_insertRows : ∀ (rows : List FillRow) (db : Db),
    db.FillsOnly (db.insertRows oid rows)
  | [], _ => rfl
  | row :: rows, db => fillsOnly_trans (fillsOnly_trans (fillsOnly_insertFill db row)
      (fillsOnly_supersede _ oid)) (fillsOnly_insertRows rows _)

theorem mem_insertRows : ∀ {rows : List FillRow} {db : Db},
    f ∈ (db.insertRows oid rows).fills → f ∈ db.fills ∨ f ∈ rows
  | [], _, h => Or.inl h
  | row :: rows, db, h => by
    rw [insertRows_cons] at h
    rcases mem_insertRows h with h | h
    · rcases mem_insertFill (mem_supersede h) with h | rfl
      · exact Or.inl h
      · exact Or.inr List.mem_cons_self
    · exact Or.inr (List.mem_cons_of_mem _ h)

/-- A fill of the venue stays. -/
theorem mem_insertRows_of_mem (hf : statusDerived f.providerFillId = false) :
    ∀ {rows : List FillRow} {db : Db}, f ∈ db.fills → f ∈ (db.insertRows oid rows).fills
  | [], _, h => h
  | _ :: rows, _, h => by
    rw [insertRows_cons]
    exact mem_insertRows_of_mem hf (mem_supersede_of_mem (mem_insertFill_of_mem h) hf)

/-- The id of every row is taken afterwards. -/
theorem exists_insertRows (hrows : ∀ row ∈ rows, statusDerived row.providerFillId = false)
    (hrow : row ∈ rows) : ∃ f ∈ (db.insertRows oid rows).fills,
      f.providerFillId = row.providerFillId := by
  induction rows generalizing db with
  | nil => simp at hrow
  | cons head rows ih =>
    rcases List.mem_cons.mp hrow with rfl | hrow
    · obtain ⟨f, hf, hid⟩ := @exists_insertFill db row
      have hid : f.providerFillId = row.providerFillId := hid.elim (fun h => h ▸ rfl) fun h => h.2
      have hderived : statusDerived f.providerFillId = false :=
        hid ▸ hrows row List.mem_cons_self
      rw [insertRows_cons]
      exact ⟨f, mem_insertRows_of_mem hderived (mem_supersede_of_mem hf hderived), hid⟩
    · exact ih (fun row h => hrows row (List.mem_cons_of_mem _ h)) hrow

/-- Rows whose ids are taken change nothing. -/
theorem insertRows_of_taken
    (htaken : ∀ row ∈ rows, ∃ f ∈ db.fills, f.providerFillId = row.providerFillId)
    (hderived : ∀ f ∈ db.fills, f.clientOrderId = oid → statusDerived f.providerFillId = false) :
    db.insertRows oid rows = db := by
  induction rows with
  | nil => rfl
  | cons row rows ih =>
    obtain ⟨f, hf, hid⟩ := htaken row List.mem_cons_self
    have hstep : (db.insertFill row).supersedeStatusDerived oid = db := by
      rw [insertFill_of_taken hf hid, supersede_of_none hderived]
    rw [insertRows, List.foldl_cons, hstep]
    exact ih fun row h => htaken row (List.mem_cons_of_mem _ h)

theorem filter_insertFill (hrow : row.clientOrderId ≠ other) :
    (db.insertFill row).fills.rows.filter (fun f => f.clientOrderId = other) =
      db.fills.rows.filter fun f => f.clientOrderId = other := by
  unfold insertFill
  split
  · rfl
  next fills hi => simp [Table.rows_of_insert hi, hrow]

theorem filter_supersede (hne : other ≠ oid) :
    (db.supersedeStatusDerived oid).fills.rows.filter (fun f => f.clientOrderId = other) =
      db.fills.rows.filter fun f => f.clientOrderId = other := by
  unfold supersedeStatusDerived
  split
  · simp only [Table.deleteWhere, List.filter_filter]
    refine List.filter_congr fun f _ => ?_
    by_cases hoid : f.clientOrderId = other
    · simp [hoid, hne]
    · simp [hoid]
  · rfl

/-- The fills of another intent stay as they are. -/
theorem filter_insertRows (hrows : ∀ row ∈ rows, row.clientOrderId = oid) (hne : other ≠ oid) :
    (db.insertRows oid rows).fills.rows.filter (fun f => f.clientOrderId = other) =
      db.fills.rows.filter fun f => f.clientOrderId = other := by
  induction rows generalizing db with
  | nil => rfl
  | cons row rows ih =>
    refine (ih fun row h => hrows row (List.mem_cons_of_mem _ h)).trans ?_
    refine (filter_supersede hne).trans (filter_insertFill ?_)
    exact fun h => hne ((hrows row List.mem_cons_self).symm.trans h).symm

end Db

end FattyTrader
