import FattyTrader.FillRows
import FattyTrader.JsonValues
import FattyTrader.Readback
import Mathlib.Tactic.Linarith

/-!
# Two quantities of the same fills

The quantity an order filled is derived twice from the rows the venue reports : `summarize_fills`
adds up every row that counts, and `insert_provider_fills` writes rows into a ledger, one for each
id. The summary takes each id once, and each quantity as often as it is reported.

So a row that is reported twice, as it is where two pages overlap, counts twice for the summary and
once for the ledger, and a row the ledger cannot store counts for the summary only
(`summary_eq_ledger_iff`). Only a list of which no row counts has one quantity however it is
repeated (`oneQuantity_iff`).
-/

set_option linter.unusedSectionVars false

open Tables FattyTrader.JsonValues

namespace FattyTrader.FillPages

/-- How texts are read, `json.loads` included. -/
structure FillTexts extends Texts where
  loads : String → Option Json

variable (P : FillTexts)

/-! ## Rows -/

def quantityKeys : List String := ["quantity", "size", "fillQty", "baseVolume"]

def priceKeys : List String := ["price", "fillPrice", "priceAvg"]

def idKeys : List String := ["fillId", "tradeId", "id"]

/-- `_to_decimal`. -/
abbrev toDecimal (v : Json) : Option ℚ := P.finite v

/-- The fee details of a fill : an object, the objects of a list, or the text of one. -/
def feeDetails (fill : Fields) : List Fields :=
  let detail := match valueOf fill "feeDetail" with
    | .str text => (P.loads text).getD .null
    | detail => detail
  match detail with
  | .obj detail => [detail]
  | .arr items => items.filterMap Json.fields?
  | _ => []

/-- The fee `normalize_fill` writes. -/
def normalizedFee (fill : Fields) : ℚ :=
  match feeDetails P fill with
  | [] => |(toDecimal P (firstOf fill ["fee", "fillFee", "feeAmount"] (.str "0"))).getD 0|
  | details => (details.map fun detail =>
      |(toDecimal P (firstOf detail ["totalFee", "fee", "feeAmount"] (.str "0"))).getD 0|).sum

/-- The id of a row. -/
def fillIdOf (fill : Fields) : Option String :=
  let raw := firstOf fill idKeys .null
  if raw.isNull then none else some (P.text raw)

def textOf (fill : Fields) (key : String) : Option String := (entry fill key).map P.text

/-- A row as `summarize_fills` reads it. -/
def summaryFill (fill : Fields) : ProviderFill where
  fillId := fillIdOf P fill
  orderId := textOf P fill "orderId"
  clientOid := textOf P fill "clientOid"
  quantity := toDecimal P (firstOf fill quantityKeys (.number "0"))
  price := toDecimal P (firstOf fill priceKeys (.number "0"))
  fee := normalizedFee P fill
  realizedPnl := 0
  time := none

/-- `summarize_fills`. -/
def summarizeFillRows (rows : List Fields) : FillSummary :=
  summarizeFills (rows.map (summaryFill P))

/-- The profit of a row, `none` where it is no number. The ledger of the model has no NaN. -/
def realizedPnlOf (fill : Fields) : Option ℚ :=
  let raw := firstOf fill ["realizedPnl", "profit", "totalProfits"] (.str "0")
  match P.number (if raw.truthy then raw else .str "0") with
  | none => none
  | some (.finite q) => some q
  | some _ => some 0

/-- A row as `insert_provider_fills` reads it, `none` where an exception skips it. -/
def ledgerFill (fill : Fields) : Option ProviderFill :=
  (realizedPnlOf P fill).map fun realizedPnl =>
    { fillId := fillIdOf P fill
      orderId := textOf P fill "orderId"
      clientOid := textOf P fill "clientOid"
      quantity := toDecimal P (firstOf fill quantityKeys .null)
      price := toDecimal P (firstOf fill priceKeys .null)
      fee := normalizedFee P fill
      realizedPnl
      time := (toDecimal P (firstOf fill ["cTime", "uTime"] .null)).map Rat.floor }

/-- The ledger after `insert_provider_fills`. -/
def persistFillRows (now : Instant) (record : LiveIntentRecord) (db : Db) (rows : List Fields) :
    Db :=
  db.insertProviderFills now record (rows.filterMap (ledgerFill P))

/-! ## The two quantities -/

/-- The quantity of the summary. -/
def summaryQuantity (rows : List Fields) : ℚ := (summarizeFillRows P rows).quantity

/-- The quantity of the rows the ledger stores. -/
def ledgerQuantity (now : Instant) (record : LiveIntentRecord) (rows : List Fields) : ℚ :=
  ((persistFillRows P now record {} rows).fills.rows.map FillRow.quantity).sum

/-- A row with a positive quantity and a positive price. -/
def Counts (row : Fields) : Prop :=
  ∃ q p, toDecimal P (firstOf row quantityKeys (.number "0")) = some q ∧
    toDecimal P (firstOf row priceKeys (.number "0")) = some p ∧ 0 < q ∧ 0 < p

/-- A row with an id of the venue, and a profit that is a number. -/
def Storable (row : Fields) : Prop :=
  (∃ id, fillIdOf P row = some id ∧ statusDerived id = false) ∧ (realizedPnlOf P row).isSome

/-- The summary and the ledger agree, and neither moves where rows with an id are repeated or all
are permuted. -/
structure OneQuantity (now : Instant) (record : LiveIntentRecord) (rows : List Fields) : Prop where
  agree : summaryQuantity P rows = ledgerQuantity P now record rows
  repeated : ∀ page, (∀ row ∈ page, row ∈ rows ∧ (fillIdOf P row).isSome) →
    summaryQuantity P (rows ++ page) = summaryQuantity P rows ∧
      ledgerQuantity P now record (rows ++ page) = ledgerQuantity P now record rows
  permuted : ∀ rows' : List Fields, rows'.Perm rows →
    summaryQuantity P rows' = summaryQuantity P rows ∧
      ledgerQuantity P now record rows' = ledgerQuantity P now record rows

section Rows

variable {P} {row : Fields} {rows : List Fields} {now : Instant} {record : LiveIntentRecord}
  {f : FillRow}

/-- A default of zero counts as little as none. -/
theorem toDecimal_positive_iff {fill : Fields} {keys : List String} {q : ℚ} :
    toDecimal P (firstOf fill keys .null) = some q ∧ 0 < q ↔
      toDecimal P (firstOf fill keys (.number "0")) = some q ∧ 0 < q := by
  unfold toDecimal firstOf
  cases firstEntry fill keys with
  | none =>
    rw [Option.getD_none, Option.getD_none, Texts.finite_null, Texts.finite_zero]
    constructor
    · rintro ⟨h, -⟩
      cases h
    · rintro ⟨h, hq⟩
      exact absurd hq (by rw [← Option.some.inj h]; exact lt_irrefl 0)
  | some raw => simp

variable (P now record) in
/-- The row the ledger stores for a reported one. -/
def storedRow (row : Fields) : Option FillRow :=
  (ledgerFill P row).bind (Db.providerFillRow now record)

variable (P) in
/-- The quantity the summary counts of a row. -/
def countedQuantity (row : Fields) : Option ℚ := ((summaryFill P row).counted).map fun c => c.1

theorem countedQuantity_eq_some {q : ℚ} : countedQuantity P row = some q ↔
    ∃ p, toDecimal P (firstOf row quantityKeys (.number "0")) = some q ∧
      toDecimal P (firstOf row priceKeys (.number "0")) = some p ∧ 0 < q ∧ 0 < p := by
  unfold countedQuantity ProviderFill.counted
  simp only [summaryFill]
  cases toDecimal P (firstOf row quantityKeys (.number "0")) with
  | none => simp
  | some q' =>
    cases toDecimal P (firstOf row priceKeys (.number "0")) with
    | none => simp
    | some p =>
      dsimp only
      split
      next h =>
        simp only [Option.map_some, Option.some.injEq, exists_eq_left', exists_and_left]
        constructor
        · rintro rfl
          exact ⟨rfl, h⟩
        · exact fun h => h.1
      next h =>
        refine iff_of_false nofun ?_
        rintro ⟨p', hq, hp, hpos⟩
        obtain rfl := Option.some.inj hq
        obtain rfl := Option.some.inj hp
        exact h hpos

theorem counts_iff : Counts P row ↔ ∃ q, countedQuantity P row = some q := by
  simp only [countedQuantity_eq_some]
  rfl

/-- The ledger stores the rows that count and can be stored, under the id of the row and with the
quantity the summary counts. -/
theorem storedRow_spec (h : storedRow P now record row = some f) :
    countedQuantity P row = some f.quantity ∧ Storable P row ∧
      fillIdOf P row = some f.providerFillId := by
  obtain ⟨fill, hfill, hrow⟩ := Option.bind_eq_some_iff.mp h
  obtain ⟨pnl, hpnl, rfl⟩ := Option.map_eq_some_iff.mp hfill
  unfold Db.providerFillRow at hrow
  dsimp only at hrow
  split at hrow
  next id q p hid hq hp =>
    split at hrow
    next hcond =>
      obtain rfl := Option.some.inj hrow
      obtain ⟨hprice, hquantity, hderived⟩ := hcond
      refine ⟨countedQuantity_eq_some.mpr ⟨p, ?_, ?_, hquantity, hprice⟩, ⟨⟨id, hid, hderived⟩,
        by rw [hpnl]; rfl⟩, hid⟩
      · exact (toDecimal_positive_iff.mp ⟨hq, hquantity⟩).1
      · exact (toDecimal_positive_iff.mp ⟨hp, hprice⟩).1
    · cases hrow
  · cases hrow

theorem exists_storedRow (now : Instant) (record : LiveIntentRecord) (hcounts : Counts P row)
    (hstorable : Storable P row) :
    ∃ f, storedRow P now record row = some f := by
  obtain ⟨q, p, hq, hp, hquantity, hprice⟩ := hcounts
  obtain ⟨⟨id, hid, hderived⟩, hpnl⟩ := hstorable
  obtain ⟨pnl, hpnl⟩ := Option.isSome_iff_exists.mp hpnl
  have hq' := (toDecimal_positive_iff.mpr ⟨hq, hquantity⟩).1
  have hp' := (toDecimal_positive_iff.mpr ⟨hp, hprice⟩).1
  simp only [storedRow, ledgerFill, hpnl, Option.map_some, Option.bind_some, Db.providerFillRow,
    hid, hq', hp']
  rw [dif_pos ⟨hprice, hquantity, hderived⟩]
  exact ⟨_, rfl⟩

theorem counts_of_stored (h : storedRow P now record row = some f) : Counts P row :=
  counts_iff.mpr ⟨_, (storedRow_spec h).1⟩

end Rows

/-! ## Sums -/

section Sums

variable {P} {row : Fields} {rows page : List Fields} {now : Instant} {record : LiveIntentRecord}

theorem summaryQuantity_eq :
    summaryQuantity P rows = (rows.filterMap (countedQuantity P)).sum := by
  unfold summaryQuantity summarizeFillRows summarizeFills
  dsimp only
  rw [List.map_filterMap, List.filterMap_map]
  rfl

variable (P now record) in
/-- The rows the ledger is asked to store. -/
def storedRows (rows : List Fields) : List FillRow := rows.filterMap (storedRow P now record)

theorem provider_of_stored {f : FillRow} (h : f ∈ storedRows P now record rows) :
    statusDerived f.providerFillId = false := by
  obtain ⟨row, -, hrow⟩ := List.mem_filterMap.mp h
  obtain ⟨-, ⟨⟨id, hid, hderived⟩, -⟩, hid'⟩ := storedRow_spec hrow
  exact Option.some.inj (hid'.symm.trans hid) ▸ hderived

theorem persistFillRows_eq {db : Db} : persistFillRows P now record db rows =
    db.insertRows record.clientOid (storedRows P now record rows) := by
  unfold persistFillRows storedRows storedRow
  rw [Db.insertProviderFills_eq, List.filterMap_filterMap]

/-- Rows of the venue in a ledger without provisional rows : one for each id. -/
theorem fills_insertRows {oid : String} : ∀ {fs : List FillRow} {db : Db},
    (∀ f ∈ fs, statusDerived f.providerFillId = false) →
    (∀ f ∈ db.fills, statusDerived f.providerFillId = false) →
      (db.insertRows oid fs).fills = db.fills.insertAll fs
  | [], _, _, _ => rfl
  | f :: fs, db, hfs, hdb => by
    have hinsert : (db.insertFill f).fills = db.fills.insertNew f := by
      unfold Db.insertFill Table.insertNew
      cases db.fills.insert f with
      | none => rfl
      | some fills => rfl
    have hprovider : ∀ g ∈ (db.insertFill f).fills, statusDerived g.providerFillId = false := by
      intro g hg
      rcases Db.mem_insertFill hg with hg | rfl
      · exact hdb g hg
      · exact hfs g List.mem_cons_self
    have hstep : (db.insertFill f).supersedeStatusDerived oid = db.insertFill f :=
      Db.supersede_of_none fun g hg _ => hprovider g hg
    rw [Db.insertRows, List.foldl_cons, hstep]
    refine (fills_insertRows (fun g hg => hfs g (List.mem_cons_of_mem _ hg)) hprovider).trans ?_
    rw [hinsert]
    rfl

theorem ledgerQuantity_eq : ledgerQuantity P now record rows =
    (((Table.empty : Table FillRow FillRow.Conflict).insertAll
      (storedRows P now record rows)).rows.map FillRow.quantity).sum := by
  unfold ledgerQuantity
  rw [persistFillRows_eq, fills_insertRows (fun f hf => provider_of_stored hf)]
  intro f hf
  simp [Table.mem_iff, Table.empty] at hf

variable (P now record rows) in
/-- What is stored sums to no more than what counts, and to the same where all that counts is
stored. -/
theorem sum_stored : ((storedRows P now record rows).map FillRow.quantity).sum ≤
      summaryQuantity P rows ∧
    (((storedRows P now record rows).map FillRow.quantity).sum = summaryQuantity P rows ↔
      ∀ row ∈ rows, Counts P row → Storable P row) := by
  rw [summaryQuantity_eq, storedRows]
  induction rows with
  | nil => simp
  | cons row rows ih =>
    obtain ⟨hle, hiff⟩ := ih
    rw [List.forall_mem_cons, List.filterMap_cons, List.filterMap_cons]
    cases hstored : storedRow P now record row with
    | some f =>
      obtain ⟨hcounted, hstorable, -⟩ := storedRow_spec hstored
      rw [hcounted]
      dsimp only
      rw [List.map_cons, List.sum_cons, List.sum_cons, add_le_add_iff_left, add_right_inj, hiff]
      exact ⟨hle, ⟨fun h => ⟨fun _ => hstorable, h⟩, fun h => h.2⟩⟩
    | none =>
      cases hcounted : countedQuantity P row with
      | none =>
        have hnot : ¬ Counts P row := fun h => by
          obtain ⟨q, hq⟩ := counts_iff.mp h
          cases hcounted.symm.trans hq
        exact ⟨hle, hiff.trans ⟨fun h => ⟨fun hc => absurd hc hnot, h⟩, fun h => h.2⟩⟩
      | some q =>
        have hcounts : Counts P row := counts_iff.mpr ⟨q, hcounted⟩
        obtain ⟨-, -, -, hpos, -⟩ := countedQuantity_eq_some.mp hcounted
        dsimp only
        rw [List.sum_cons]
        refine ⟨by linarith, iff_of_false (by linarith) ?_⟩
        rintro ⟨hstorable, -⟩
        obtain ⟨f, hf⟩ := exists_storedRow now record hcounts (hstorable hcounts)
        cases hstored.symm.trans hf

/-- A part of a list of positive numbers has the same sum only where it is all of them. -/
theorem eq_of_sum_eq {fs gs : List FillRow} (h : fs.Sublist gs) :
    (fs.map FillRow.quantity).sum ≤ (gs.map FillRow.quantity).sum ∧
      ((fs.map FillRow.quantity).sum = (gs.map FillRow.quantity).sum → fs = gs) := by
  induction h with
  | slnil => exact ⟨le_rfl, fun _ => rfl⟩
  | @cons fs gs g _ ih =>
    have := g.quantity_pos
    rw [List.map_cons, List.sum_cons]
    exact ⟨by linarith [ih.1], fun h => absurd h (by linarith [ih.1])⟩
  | @cons_cons fs gs g _ ih =>
    rw [List.map_cons, List.map_cons, List.sum_cons, List.sum_cons]
    exact ⟨by linarith [ih.1], fun h => by rw [ih.2 (by linarith)]⟩

/-- The summary and the ledger have the same quantity exactly where every row that counts can be
stored, under an id of its own. -/
theorem summary_eq_ledger_iff : summaryQuantity P rows = ledgerQuantity P now record rows ↔
    (∀ row ∈ rows, Counts P row → Storable P row) ∧
      rows.Pairwise fun a b => Counts P a → Counts P b → fillIdOf P a ≠ fillIdOf P b := by
  obtain ⟨hle, hstored⟩ := sum_stored P rows now record
  obtain ⟨new, hrows, hsub⟩ := Table.exists_new_insertAll
    (Table.empty : Table FillRow FillRow.Conflict) (storedRows P now record rows)
  obtain ⟨hle', heq⟩ := eq_of_sum_eq hsub
  rw [Table.rows_empty, List.nil_append] at hrows
  have hpairwise : (∀ row ∈ rows, Counts P row → Storable P row) →
      ((storedRows P now record rows).Pairwise (fun a b => ¬ FillRow.Conflict a b) ↔
        rows.Pairwise fun a b => Counts P a → Counts P b → fillIdOf P a ≠ fillIdOf P b) := by
    intro hall
    unfold storedRows
    rw [List.pairwise_filterMap]
    refine List.Pairwise.iff_of_mem fun {a b} ha hb => ?_
    constructor
    · intro h hca hcb hid
      obtain ⟨f, hf⟩ := exists_storedRow now record hca (hall a ha hca)
      obtain ⟨g, hg⟩ := exists_storedRow now record hcb (hall b hb hcb)
      refine h f hf g hg (Option.some.inj ?_)
      exact (storedRow_spec hf).2.2.symm.trans (hid.trans (storedRow_spec hg).2.2)
    · intro h f hf g hg hconflict
      refine h (counts_of_stored hf) (counts_of_stored hg) ?_
      rw [(storedRow_spec hf).2.2, (storedRow_spec hg).2.2, hconflict]
  rw [ledgerQuantity_eq, hrows]
  constructor
  · intro h
    have hnew : new = storedRows P now record rows := heq (le_antisymm hle' (h ▸ hle))
    have hall := hstored.mp (by rw [← hnew, h])
    refine ⟨hall, (hpairwise hall).mp ?_⟩
    rw [← hnew, ← hrows]
    exact Table.unique _
  · rintro ⟨hall, hdistinct⟩
    have hnew := Table.rows_insertAll_of (t := (Table.empty : Table FillRow FillRow.Conflict))
      (by simpa using (hpairwise hall).mpr hdistinct)
    rw [Table.rows_empty, List.nil_append] at hnew
    rw [← hstored.mpr hall, ← hnew, hrows]

/-! ## Repeated and permuted rows -/

/-- The ledger does not move where rows are repeated. -/
theorem ledgerQuantity_append (h : ∀ row ∈ page, row ∈ rows) :
    ledgerQuantity P now record (rows ++ page) = ledgerQuantity P now record rows := by
  rw [ledgerQuantity_eq, ledgerQuantity_eq]
  have happend : storedRows P now record (rows ++ page) =
      storedRows P now record rows ++ storedRows P now record page := List.filterMap_append
  rw [happend, Table.insertAll, List.foldl_append]
  have htaken : ∀ f ∈ storedRows P now record page,
      ∃ x ∈ (Table.empty : Table FillRow FillRow.Conflict).insertAll (storedRows P now record rows),
        FillRow.Conflict x f := by
    intro f hf
    obtain ⟨row, hrow, hstored⟩ := List.mem_filterMap.mp hf
    have hmem : f ∈ storedRows P now record rows :=
      List.mem_filterMap.mpr ⟨row, h row hrow, hstored⟩
    obtain ⟨x, hx, rfl | hconflict⟩ := Table.exists_insertAll
      (t := (Table.empty : Table FillRow FillRow.Conflict)) hmem
    · exact ⟨x, hx, rfl⟩
    · exact ⟨x, hx, hconflict⟩
  exact congrArg (fun t : Table FillRow FillRow.Conflict => (t.rows.map FillRow.quantity).sum)
    (Table.insertAll_of_conflicts htaken)

theorem summaryQuantity_perm {rows' : List Fields} (h : rows'.Perm rows) :
    summaryQuantity P rows' = summaryQuantity P rows := by
  rw [summaryQuantity_eq, summaryQuantity_eq]
  exact (h.filterMap _).sum_eq

theorem summaryQuantity_append : summaryQuantity P (rows ++ page) =
    summaryQuantity P rows + summaryQuantity P page := by
  simp only [summaryQuantity_eq, List.filterMap_append, List.sum_append]

/-- Without a row that counts both quantities are zero. -/
theorem quantities_of_not_counts (now : Instant) (record : LiveIntentRecord)
    (h : ∀ row ∈ rows, ¬ Counts P row) :
    summaryQuantity P rows = 0 ∧ ledgerQuantity P now record rows = 0 := by
  have hcounted : rows.filterMap (countedQuantity P) = [] := by
    refine List.filterMap_eq_nil_iff.mpr fun row hrow => ?_
    by_contra hne
    exact h row hrow (counts_iff.mpr (Option.ne_none_iff_exists'.mp hne))
  have hstored : storedRows P now record rows = [] := by
    refine List.filterMap_eq_nil_iff.mpr fun row hrow => ?_
    by_contra hne
    obtain ⟨f, hf⟩ := Option.ne_none_iff_exists'.mp hne
    exact h row hrow (counts_of_stored hf)
  rw [summaryQuantity_eq, hcounted, ledgerQuantity_eq, hstored]
  exact ⟨rfl, rfl⟩

/-- Rows have one quantity, however they are repeated and permuted, exactly where none of them
counts. -/
theorem oneQuantity_iff :
    OneQuantity P now record rows ↔ ∀ row ∈ rows, ¬ Counts P row := by
  constructor
  · rintro ⟨hagree, hrepeated, -⟩ row hrow hcounts
    obtain ⟨hstorable, -⟩ := summary_eq_ledger_iff.mp hagree
    obtain ⟨⟨id, hid, -⟩, -⟩ := hstorable row hrow hcounts
    obtain ⟨hsame, -⟩ := hrepeated [row] fun row' hrow' => by
      obtain rfl := List.mem_singleton.mp hrow'
      exact ⟨hrow, by rw [hid]; rfl⟩
    -- the repeated row counts once more
    obtain ⟨q, hq⟩ := counts_iff.mp hcounts
    obtain ⟨-, -, -, hpos, -⟩ := countedQuantity_eq_some.mp hq
    have hone : summaryQuantity P [row] = q := by
      simp [summaryQuantity_eq, hq]
    rw [summaryQuantity_append, hone] at hsame
    linarith
  · intro h
    obtain ⟨hsummary, hledger⟩ := quantities_of_not_counts now record h
    refine ⟨hsummary.trans hledger.symm, fun page hpage => ?_, fun rows' hperm => ?_⟩
    · have hall : ∀ row ∈ rows ++ page, ¬ Counts P row := by
        intro row hrow
        rcases List.mem_append.mp hrow with hrow | hrow
        · exact h row hrow
        · exact h row (hpage row hrow).1
      obtain ⟨hsummary', hledger'⟩ := quantities_of_not_counts now record hall
      exact ⟨hsummary'.trans hsummary.symm, hledger'.trans hledger.symm⟩
    · obtain ⟨hsummary', hledger'⟩ := quantities_of_not_counts now record
        fun row hrow => h row (hperm.mem_iff.mp hrow)
      exact ⟨hsummary'.trans hsummary.symm, hledger'.trans hledger.symm⟩

/-- One quantity is had by the lists of which no row counts. The summary and the ledger agree where
every row that counts can be stored under an id of its own ; the ledger never moves where rows are
repeated, and the summary never where they are permuted. -/
theorem fill_quantities_iff :
    (OneQuantity P now record rows ↔ ∀ row ∈ rows, ¬ Counts P row) ∧
    (summaryQuantity P rows = ledgerQuantity P now record rows ↔
      (∀ row ∈ rows, Counts P row → Storable P row) ∧
        rows.Pairwise fun a b => Counts P a → Counts P b → fillIdOf P a ≠ fillIdOf P b) ∧
    (∀ page, (∀ row ∈ page, row ∈ rows) →
      ledgerQuantity P now record (rows ++ page) = ledgerQuantity P now record rows) ∧
    ∀ rows' : List Fields, rows'.Perm rows → summaryQuantity P rows' = summaryQuantity P rows :=
  ⟨oneQuantity_iff, summary_eq_ledger_iff, fun _ h => ledgerQuantity_append h,
    fun _ h => summaryQuantity_perm h⟩

end Sums

/-! ## Two pages that overlap -/

def asciiFills : FillTexts := { ascii with loads := fun _ => none }

def overlapRow (fillId : Option String) : Fields :=
  (fillId.map fun id => ("tradeId", Json.str id)).toList ++
    [("baseVolume", .str "0.5"), ("price", .str "90"), ("feeDetail", .null), ("fee", .str "-0.01")]

def overlapOrder : LiveIntentRecord where
  clientOid := "entry"
  symbol := "BTCUSDT"
  side := .buy
  role := .entry
  requestedQty := 1

/-- The row at the end of one page and the start of the next counts twice, and is stored once. A row
without an id counts, and is not stored. -/
theorem overlapRow_twice :
    summaryQuantity asciiFills [overlapRow (some "7"), overlapRow (some "7")] = 1 ∧
      ledgerQuantity asciiFills 0 overlapOrder [overlapRow (some "7"), overlapRow (some "7")] =
        1 / 2 ∧
      summaryQuantity asciiFills [overlapRow none] = 1 / 2 ∧
      ledgerQuantity asciiFills 0 overlapOrder [overlapRow none] = 0 ∧
      ¬ OneQuantity asciiFills 0 overlapOrder [overlapRow (some "7"), overlapRow (some "7")] := by
  refine ⟨by decide +kernel, by decide +kernel, by decide +kernel, by decide +kernel, fun h => ?_⟩
  exact absurd h.agree (by decide +kernel)

end FattyTrader.FillPages
