import FattyTrader.FillPages
import FattyTrader.Runs

/-!
# One evidence for a fill

A fill is known by the rows the venue reports, or only by the status of its order. In the second case
the store writes one provisional row (`insert_status_derived_fill`), and rows of the venue remove it
(`insert_provider_fills`).

The rows of an intent are thus those of the venue, or one provisional row, or none (`OneEvidence`).
Each call keeps that of every intent, and keeps every row of the venue (`Keeps`), so the two are
never counted together, whatever the order in which the evidence arrives (`ledger_one_evidence`).
-/

set_option linter.unusedSectionVars false

open Tables FattyTrader.JsonValues

namespace FattyTrader.FillEvidence

open Runs FillPages

/-! ## The rows of an intent -/

section Rows

variable (db : Db) (oid : String)

def intentFills : List FillRow := db.fills.rows.filter fun f => f.clientOrderId = oid

/-- The provisional rows. -/
def provisional : List FillRow := (intentFills db oid).filter fun f => statusDerived f.providerFillId

/-- The rows of the venue. -/
def provided : List FillRow := (intentFills db oid).filter fun f => !statusDerived f.providerFillId

/-- At most one provisional row, and none beside a row of the venue. -/
structure OneEvidence : Prop where
  single : (provisional db oid).length ≤ 1
  apart : provided db oid = [] ∨ provisional db oid = []

end Rows

variable {db db' db'' : Db} {oid other : String} {row f : FillRow} {rows : List FillRow}

theorem mem_provided : f ∈ provided db oid ↔
    f ∈ db.fills ∧ f.clientOrderId = oid ∧ statusDerived f.providerFillId = false := by
  simp only [provided, intentFills, Table.mem_iff, List.mem_filter, decide_eq_true_eq,
    Bool.not_eq_true', and_assoc]

theorem provided_congr (h : intentFills db' oid = intentFills db oid) :
    provided db' oid = provided db oid := by
  rw [provided, h, provided]

theorem provisional_congr (h : intentFills db' oid = intentFills db oid) :
    provisional db' oid = provisional db oid := by
  rw [provisional, h, provisional]

theorem OneEvidence.congr (h : intentFills db' oid = intentFills db oid) (hdb : OneEvidence db oid) :
    OneEvidence db' oid := by
  constructor
  · rw [provisional_congr h]
    exact hdb.single
  · rw [provisional_congr h, provided_congr h]
    exact hdb.apart

/-- A row of the venue is no provisional one. -/
theorem provisional_insertFill (hrow : statusDerived row.providerFillId = false) :
    provisional (db.insertFill row) oid = provisional db oid := by
  unfold provisional intentFills Db.insertFill
  split
  · rfl
  next fills hi => simp [Table.rows_of_insert hi, List.filter_filter, hrow]

theorem any_provider_iff : (db.fills.rows.any fun f =>
    f.clientOrderId = oid && !statusDerived f.providerFillId) = true ↔ provided db oid ≠ [] := by
  simp only [List.any_eq_true, Bool.and_eq_true, decide_eq_true_eq, Bool.not_eq_true']
  constructor
  · rintro ⟨f, hf, hoid, hderived⟩
    exact List.ne_nil_of_mem (mem_provided.mpr ⟨hf, hoid, hderived⟩)
  · intro h
    obtain ⟨f, hf⟩ := List.exists_mem_of_ne_nil _ h
    exact ⟨f, mem_provided.mp hf⟩

/-- A row of the venue leaves no provisional row behind. -/
theorem provisional_supersede (h : provided db oid ≠ []) :
    provisional (db.supersedeStatusDerived oid) oid = [] := by
  unfold Db.supersedeStatusDerived
  rw [if_pos (any_provider_iff.mpr h), provisional, intentFills]
  simp only [Table.deleteWhere, List.filter_filter]
  exact List.filter_eq_nil_iff.mpr fun f _ => by
    cases statusDerived f.providerFillId <;> simp

theorem supersede_of_provided_nil (h : provided db oid = []) :
    db.supersedeStatusDerived oid = db := by
  unfold Db.supersedeStatusDerived
  rw [if_neg fun hany => any_provider_iff.mp hany h]

/-! ## What a write keeps -/

/-- A write keeps the evidence of every intent apart, and every row of the venue. -/
structure Keeps (db db' : Db) : Prop where
  evidence : ∀ oid, OneEvidence db oid → OneEvidence db' oid
  provided : ∀ f ∈ db.fills, statusDerived f.providerFillId = false → f ∈ db'.fills

theorem Keeps.of_fills (h : db'.fills = db.fills) : Keeps db db' where
  evidence oid hdb := hdb.congr (by rw [intentFills, h, intentFills])
  provided f hf _ := h ▸ hf

theorem Keeps.trans (h : Keeps db db') (h' : Keeps db' db'') : Keeps db db'' where
  evidence oid hdb := h'.evidence oid (h.evidence oid hdb)
  provided f hf hderived := h'.provided f (h.provided f hf hderived) hderived

/-- One row of `insert_provider_fills`. -/
theorem keeps_insertRow (hrow : statusDerived row.providerFillId = false) :
    Keeps db ((db.insertFill row).supersedeStatusDerived row.clientOrderId) where
  provided f hf hderived := Db.mem_supersede_of_mem (Db.mem_insertFill_of_mem hf) hderived
  evidence oid hdb := by
    by_cases hoid : oid = row.clientOrderId
    · subst hoid
      by_cases hprovided : provided (db.insertFill row) row.clientOrderId = []
      · rw [supersede_of_provided_nil hprovided]
        refine ⟨?_, Or.inl hprovided⟩
        rw [provisional_insertFill hrow]
        exact hdb.single
      · have hnone := provisional_supersede hprovided
        exact ⟨by rw [hnone]; exact Nat.zero_le 1, Or.inr hnone⟩
    · exact hdb.congr
        ((Db.filter_supersede hoid).trans (Db.filter_insertFill (Ne.symm hoid)))

theorem keeps_insertRows : ∀ {rows : List FillRow} {db : Db},
    (∀ row ∈ rows, row.clientOrderId = oid ∧ statusDerived row.providerFillId = false) →
      Keeps db (db.insertRows oid rows)
  | [], _, _ => Keeps.of_fills rfl
  | row :: rows, db, h => by
    obtain ⟨hoid, hrow⟩ := h row List.mem_cons_self
    have hfirst : Keeps db ((db.insertFill row).supersedeStatusDerived oid) :=
      hoid ▸ keeps_insertRow hrow
    exact hfirst.trans (keeps_insertRows fun row hrow => h row (List.mem_cons_of_mem _ hrow))

/-- The row of the order status is provisional, and of the intent. -/
theorem statusDerivedRow_spec {now : Instant} {record : LiveIntentRecord}
    (h : Db.statusDerivedRow now record = some row) :
    row.clientOrderId = record.clientOid ∧ statusDerived row.providerFillId = true := by
  unfold Db.statusDerivedRow at h
  split at h
  · cases h
  · split at h
    · obtain rfl := Option.some.inj h
      refine ⟨rfl, ?_⟩
      simp [statusDerived]
    · cases h

/-- A first row of an intent is its only one. -/
theorem intentFills_insertFill (h : intentFills db row.clientOrderId = []) :
    intentFills (db.insertFill row) row.clientOrderId = [] ∨
      intentFills (db.insertFill row) row.clientOrderId = [row] := by
  unfold Db.insertFill
  split
  · exact Or.inl h
  next fills hi =>
    refine Or.inr ?_
    rw [intentFills] at h
    rw [intentFills, Table.rows_of_insert hi, List.filter_append, h]
    simp

/-- The provisional row is written where the intent has no row at all. -/
theorem keeps_insertStatusDerivedFill (now : Instant) (record : LiveIntentRecord) :
    Keeps db (db.insertStatusDerivedFill now record) := by
  unfold Db.insertStatusDerivedFill
  cases hrow : Db.statusDerivedRow now record with
  | none => exact Keeps.of_fills rfl
  | some row =>
    dsimp only
    split
    · exact Keeps.of_fills rfl
    next hempty =>
      obtain ⟨hoid, hderived⟩ := statusDerivedRow_spec hrow
      have hnone : intentFills db row.clientOrderId = [] := by
        rw [hoid]
        simpa [intentFills] using hempty
      refine ⟨fun oid hdb => ?_, fun f hf _ => Db.mem_insertFill_of_mem hf⟩
      by_cases heq : oid = row.clientOrderId
      · subst heq
        rcases intentFills_insertFill hnone with h | h
        · exact hdb.congr (h.trans hnone.symm)
        · constructor
          · simp [provisional, h, hderived]
          · simp [provided, h, hderived]
      · exact hdb.congr (Db.filter_insertFill (Ne.symm heq))

/-! ## Calls of the store -/

/-- A call of the store, with the rows of the venue as they are reported. A call that raises is
rolled back. Everything else the process writes leaves the fills as they are. -/
inductive StoreCall
  | update (now : Instant) (record : LiveIntentRecord) (fills : List Fields) (raises : Bool)
  | recordFills (now : Instant) (record : LiveIntentRecord) (fills : List Fields) (raises : Bool)
  | elsewhere (db : Db)

variable (P : FillTexts)

/-- The database after a call. -/
def StoreCall.run (db : Db) : StoreCall → Db
  | .update now record fills raises =>
    let record := { record with providerFills := fills.filterMap (ledgerFill P) }
    match db.update now record with
    | .ok db' => if raises then db else db'
    | .error _ => db
  | .recordFills now record fills raises =>
    if raises then db else persistFillRows P now record db fills
  | .elsewhere db' => { db' with fills := db.fills }

variable {P}

theorem keeps_insertProviderFills (now : Instant) (record : LiveIntentRecord)
    (fills : List ProviderFill) : Keeps db (db.insertProviderFills now record fills) := by
  rw [Db.insertProviderFills_eq]
  refine keeps_insertRows fun row hrow => ?_
  obtain ⟨fill, -, hfill⟩ := List.mem_filterMap.mp hrow
  unfold Db.providerFillRow at hfill
  split at hfill
  · split at hfill
    next hcond =>
      obtain rfl := Option.some.inj hfill
      exact ⟨rfl, hcond.2.2⟩
    · cases hfill
  · cases hfill

theorem keeps_update {now : Instant} {record : LiveIntentRecord}
    (h : db.update now record = .ok db') : Keeps db db' := by
  unfold Db.update at h
  split at h
  · cases h
  · split at h
    · split at h
      · cases h
      next db₁ hset =>
        obtain rfl := Except.ok.inj h
        obtain ⟨r, -, hdb, -⟩ := Db.get_of_setIntent hset fun _ => rfl
        have hintents : Keeps db db₁ := Keeps.of_fills (by rw [hdb])
        exact (hintents.trans (keeps_insertProviderFills now record _)).trans
          (keeps_insertStatusDerivedFill now record)
    · cases h

theorem keeps_run (db : Db) (call : StoreCall) : Keeps db (call.run P db) := by
  cases call with
  | update now record fills raises =>
    unfold StoreCall.run
    dsimp only
    split
    next db' h =>
      cases raises with
      | true => exact Keeps.of_fills rfl
      | false => exact keeps_update h
    · exact Keeps.of_fills rfl
  | recordFills now record fills raises =>
    cases raises with
    | true => exact Keeps.of_fills rfl
    | false => exact keeps_insertProviderFills now record _
  | elsewhere db' => exact Keeps.of_fills rfl

theorem keeps_exec : ∀ (calls : List StoreCall) (db : Db),
    Keeps db (exec (StoreCall.run P) db calls)
  | [], _ => Keeps.of_fills rfl
  | call :: calls, db => (keeps_run db call).trans (keeps_exec calls _)

/-- From an empty ledger, the rows of an intent are those of the venue or one provisional row, after
every call. Once it has a row of the venue it has no provisional one any more, and keeps that row. -/
theorem ledger_one_evidence (P : FillTexts) (start : Db) (calls : List StoreCall) (oid : String) :
    let first := { start with fills := Table.empty }
    (∀ db ∈ states (StoreCall.run P) first calls, OneEvidence db oid) ∧
      ∀ before after, calls = before ++ after →
        provided (exec (StoreCall.run P) first before) oid ≠ [] →
          provisional (exec (StoreCall.run P) first calls) oid = [] ∧
            ∀ f ∈ provided (exec (StoreCall.run P) first before) oid,
              f ∈ provided (exec (StoreCall.run P) first calls) oid := by
  intro first
  have hfirst : OneEvidence first oid := ⟨Nat.zero_le 1, Or.inl rfl⟩
  refine ⟨fun db hdb => ?_, ?_⟩
  · exact states_inv (I := fun db => OneEvidence db oid)
      (fun db call h => (keeps_run db call).evidence oid h) hfirst hdb
  · rintro before after rfl hprovided
    have hlater : ∀ f ∈ provided (exec (StoreCall.run P) first before) oid,
        f ∈ provided (exec (StoreCall.run P) first (before ++ after)) oid := by
      intro f hf
      obtain ⟨hmem, hoid, hderived⟩ := mem_provided.mp hf
      rw [exec_append]
      exact mem_provided.mpr ⟨(keeps_exec after _).provided f hmem hderived, hoid, hderived⟩
    refine ⟨?_, hlater⟩
    obtain ⟨f, hf⟩ := List.exists_mem_of_ne_nil _ hprovided
    have hall := (keeps_exec (P := P) (before ++ after) first).evidence oid hfirst
    exact hall.apart.resolve_left (List.ne_nil_of_mem (hlater f hf))

end FattyTrader.FillEvidence
