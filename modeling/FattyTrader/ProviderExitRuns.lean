import FattyTrader.FillRows
import FattyTrader.ProviderExits
import Mathlib.Data.Set.Insert

/-!
# Deliveries of provider exits

Each fill of a list of exits is delivered to `reconcileProviderExit` at least once, in some
order. A call is blocked when another intent carries the order id of its fill, or when the
intent of its own client order id carries a different one (`persistExit_cases`). Otherwise it
writes the close and its fill.

An order id, once written, stays with its row, so two fills of one order cannot both be
recorded : in whatever order they come, the later one is blocked. All fills are recorded
exactly when no two of them belong to one order, no other intent carries their order ids, and
both readings of each payload agree (`providerExits_recorded_iff`).
-/

set_option linter.unusedSectionVars false

open Tables

namespace FattyTrader

/-! ## The ledger -/

/-- A row of `fills` without its time, which is that of the delivery where the venue reports
none. -/
structure LedgerEntry where
  clientOrderId : String
  providerFillId : String
  symbol : String
  price : ℚ
  quantity : ℚ
  fee : ℚ
  realizedPnl : ℚ
deriving DecidableEq

def FillRow.entry (f : FillRow) : LedgerEntry where
  clientOrderId := f.clientOrderId
  providerFillId := f.providerFillId
  symbol := f.symbol
  price := f.price
  quantity := f.quantity
  fee := f.fee
  realizedPnl := f.realizedPnl

namespace Db

def ledger (db : Db) : Set LedgerEntry := {e | ∃ f ∈ db.fills, f.entry = e}

theorem entry_mem_ledger {db : Db} {f : FillRow} (h : f ∈ db.fills) : f.entry ∈ db.ledger :=
  ⟨f, h, rfl⟩

/-- A fill that conflicts with none but its equals is in the ledger afterwards. -/
theorem ledger_insertFill {db : Db} {row : FillRow}
    (h : ∀ f ∈ db.fills, f.providerFillId = row.providerFillId → f.entry = row.entry) :
    (db.insertFill row).ledger = insert row.entry db.ledger := by
  unfold insertFill
  split
  next hnone =>
    obtain ⟨f, hf, hconflict⟩ := Table.exists_conflict_of_insert hnone
    have hmem : row.entry ∈ db.ledger := h f hf hconflict ▸ entry_mem_ledger hf
    exact (Set.insert_eq_of_mem hmem).symm
  next fills hi =>
    ext e
    constructor
    · rintro ⟨f, hf, rfl⟩
      rcases (Table.mem_insert hi).mp hf with hf | rfl
      · exact Or.inr (entry_mem_ledger hf)
      · exact Or.inl rfl
    · rintro (rfl | ⟨f, hf, rfl⟩)
      · exact ⟨row, (Table.mem_insert hi).mpr (Or.inr rfl), rfl⟩
      · exact ⟨f, (Table.mem_insert hi).mpr (Or.inl hf), rfl⟩

theorem ledger_supersede {db : Db} {oid : String}
    (h : ∀ f ∈ db.fills, f.clientOrderId = oid → statusDerived f.providerFillId = false) :
    (db.supersedeStatusDerived oid).ledger = db.ledger := by
  rw [supersede_of_none h]

/-- No provisional row is written next to a fill of the same intent. -/
theorem insertStatusDerivedFill_of_fill {now : Instant} {db : Db} {record : LiveIntentRecord}
    {f : FillRow} (hf : f ∈ db.fills) (hoid : f.clientOrderId = record.clientOid) :
    db.insertStatusDerivedFill now record = db := by
  unfold insertStatusDerivedFill
  split
  · rfl
  · rw [if_pos]
    exact List.any_eq_true.mpr ⟨f, hf, by simpa using hoid⟩

theorem statusDerived_of_statusDerivedRow {now : Instant} {record : LiveIntentRecord}
    {row : FillRow} (h : statusDerivedRow now record = some row) :
    statusDerived row.providerFillId = true := by
  unfold statusDerivedRow at h
  split at h
  · cases h
  split at h
  · obtain rfl := Option.some.inj h
    simp [statusDerived]
  · cases h

theorem mem_insertProviderFills {now : Instant} {record : LiveIntentRecord} {f : FillRow}
    (fills : List ProviderFill) {db : Db} (h : f ∈ (db.insertProviderFills now record fills).fills) :
    f ∈ db.fills ∨ ∃ fill ∈ fills, providerFillRow now record fill = some f := by
  rw [insertProviderFills_eq] at h
  exact (mem_insertRows h).imp id List.mem_filterMap.mp

/-- The fills after an update : those before it, provisional ones, and the rows of the fills
the record carries. -/
theorem mem_update {now : Instant} {db db' : Db} {record : LiveIntentRecord}
    (h : db.update now record = .ok db') {f : FillRow} (hf : f ∈ db'.fills) :
    f ∈ db.fills ∨ statusDerivedRow now record = some f ∨
      ∃ fill ∈ record.providerFills, providerFillRow now record fill = some f := by
  unfold update at h
  split at h
  · cases h
  split at h
  · split at h
    · cases h
    next db₁ h₁ =>
      obtain rfl := Except.ok.inj h
      obtain ⟨-, -, hdb, -⟩ := get_of_setIntent h₁ fun _ => rfl
      have hfills : db₁.fills = db.fills := by rw [hdb]
      unfold insertStatusDerivedFill at hf
      have hmem : f ∈ (db₁.insertProviderFills now record record.providerFills).fills →
          f ∈ db.fills ∨ statusDerivedRow now record = some f ∨
            ∃ fill ∈ record.providerFills, providerFillRow now record fill = some f := by
        intro hf
        rcases mem_insertProviderFills record.providerFills hf with hf | hf
        · exact Or.inl (hfills ▸ hf)
        · exact Or.inr (Or.inr hf)
      split at hf
      · exact hmem hf
      next row hrow =>
        split at hf
        · exact hmem hf
        · rcases mem_insertFill hf with hf | rfl
          · exact hmem hf
          · exact Or.inr (Or.inl hrow)
  · cases h

/-- Where the record carries one fill of the venue, and every row of its id is its own, an
update adds it to the ledger and nothing else. -/
theorem ledger_update {now : Instant} {db db' : Db} {record : LiveIntentRecord}
    {fill : ProviderFill} {row : FillRow} (h : db.update now record = .ok db')
    (hfill : record.providerFills = [fill]) (hrow : providerFillRow now record fill = some row)
    (hoid : row.clientOrderId = record.clientOid)
    (hown : ∀ f ∈ db.fills, f.providerFillId = row.providerFillId → f.entry = row.entry)
    (hvenue : ∀ f ∈ db.fills, f.clientOrderId = record.clientOid →
      statusDerived f.providerFillId = false)
    (hid : statusDerived row.providerFillId = false) :
    db'.ledger = insert row.entry db.ledger := by
  unfold update at h
  split at h
  · cases h
  split at h
  · split at h
    · cases h
    next db₁ h₁ =>
      obtain rfl := Except.ok.inj h
      obtain ⟨-, -, hdb, -⟩ := get_of_setIntent h₁ fun _ => rfl
      have hfills : db₁.fills = db.fills := by rw [hdb]
      have hinsert : (db₁.insertFill row).ledger = insert row.entry db₁.ledger :=
        ledger_insertFill (hfills ▸ hown)
      have hsupersede : ((db₁.insertFill row).supersedeStatusDerived record.clientOid).ledger =
          (db₁.insertFill row).ledger := by
        refine ledger_supersede fun f hf hf' => ?_
        rcases mem_insertFill hf with hf | rfl
        · exact hvenue f (hfills ▸ hf) hf'
        · exact hid
      have hmem : row.entry ∈
          ((db₁.insertFill row).supersedeStatusDerived record.clientOid).ledger := by
        rw [hsupersede, hinsert]
        exact Set.mem_insert _ _
      obtain ⟨f, hf, hentry⟩ := hmem
      have hf' : f.clientOrderId = record.clientOid :=
        (congrArg LedgerEntry.clientOrderId hentry).trans hoid
      have hprovider : db₁.insertProviderFills now record record.providerFills =
          (db₁.insertFill row).supersedeStatusDerived record.clientOid := by
        simp only [insertProviderFills, hfill, List.foldl_cons, List.foldl_nil, hrow]
      rw [hprovider, insertStatusDerivedFill_of_fill hf hf', hsupersede, hinsert]
      have hledger : db₁.ledger = db.ledger := by rw [hdb]; rfl
      rw [hledger]
  · cases h

/-! ## One call -/

variable {digest : String → String} {now : Instant} {db db' : Db} {o : ProviderExitObservation}

/-- The store refuses the exit : another intent has its order id, or its own intent has a
different one. -/
def Blocked (digest : String → String) (db : Db) (o : ProviderExitObservation) : Prop :=
  (db.get (o.clientOid digest) = none ∧ o.providerOrderId ≠ none ∧
    ∃ row ∈ db.intents, row.record.providerOrderId = o.providerOrderId) ∨
  ∃ r, db.get (o.clientOid digest) = some r ∧ r.providerOrderId ≠ o.providerOrderId

/-- What a call that writes an exit does : `record` is written over the row `r`, which was
there or was claimed for it. -/
structure WritesExit (digest : String → String) (now : Instant) (db : Db)
    (o : ProviderExitObservation) (r record : LiveIntentRecord) (db' : Db) : Prop where
  row : db.get (o.clientOid digest) = some r ∨
    (db.get (o.clientOid digest) = none ∧ r.symbol = o.symbol)
  order : r.providerOrderId = o.providerOrderId
  clientOid : record.clientOid = o.clientOid digest
  symbol : record.symbol = r.symbol
  recordOrder : record.providerOrderId = o.providerOrderId
  fillIds : record.providerFillIds = [o.providerFillId]
  fills : record.providerFills = o.payload.ledgerFill.toList
  written : ∃ db₁ : Db, db₁.fills = db.fills ∧
    (∀ k, db₁.get k = if k = o.clientOid digest then some r else db.get k) ∧
    db₁.update now record = .ok db'

/-- A call is blocked and changes nothing, or finds its fill listed and changes nothing, or
writes it. -/
theorem persistExit_cases (digest : String → String) (now : Instant) (db : Db)
    (o : ProviderExitObservation) :
    ((db.persistExit digest now o).1.isOk = false ∧ (db.persistExit digest now o).2 = db ∧
      db.Blocked digest o) ∨
    ((db.persistExit digest now o).1.isOk = true ∧
      ((∃ r, (db.persistExit digest now o).2 = db ∧ db.get (o.clientOid digest) = some r ∧
          r.providerOrderId = o.providerOrderId ∧ o.providerFillId ∈ r.providerFillIds) ∨
        ∃ r record, db.WritesExit digest now o r record (db.persistExit digest now o).2)) := by
  unfold persistExit
  split
  next e hclaim =>
    refine Or.inl ⟨rfl, rfl, Or.inl ?_⟩
    unfold claim insertIntent at hclaim
    rw [dif_pos (o.checked_inserted digest)] at hclaim
    split at hclaim
    · cases hclaim
    next hnone =>
      have hb : db.BindingOk (o.record digest).inserted := Or.inl rfl
      rw [if_pos hb] at hclaim
      split at hclaim
      next hi =>
        obtain ⟨row, hrow, hconflict⟩ := Table.exists_conflict_of_insert hi
        have hnone' : db.get (o.clientOid digest) = none := hnone
        rcases hconflict with hoid | ⟨horder, hne⟩
        · have := intentRow_eq_some.mpr ⟨hrow, hoid⟩
          have hget : db.get (o.record digest).inserted.clientOid = some row.record := by
            simp only [get]
            exact congrArg (Option.map LiveIntentRow.record) this
          exact absurd (hget.symm.trans hnone) (by simp)
        · exact ⟨hnone', fun h => hne (horder.trans h), row, hrow, horder⟩
      · cases hclaim
  next db₁ hclaim =>
    rcases insertIntent_ok hclaim with ⟨hw, -⟩ | ⟨-, hnone, -, hdb, hget⟩
    · cases hw
    have hrow : db₁.get (o.record digest).clientOid = some (o.record digest).inserted :=
      (hget _).trans (if_pos rfl)
    obtain ⟨db₂, hupdate⟩ : ∃ db₂, db₁.update now (o.record digest) = .ok db₂ :=
      update_isOk hrow rfl (o.checked_written (o.checked_inserted digest) rfl rfl)
    simp only [hupdate]
    have hfills : db₁.fills = db.fills := by rw [hdb]
    exact Or.inr ⟨rfl, Or.inr ⟨(o.record digest).inserted, o.record digest, Or.inr ⟨hnone, rfl⟩,
      rfl, rfl, rfl, rfl, rfl, rfl, db₁, hfills, hget, hupdate⟩⟩
  next db₁ hclaim =>
    rcases insertIntent_ok hclaim with ⟨-, rfl, hsome⟩ | ⟨hw, -⟩
    swap
    · cases hw
    split
    next hnone => exact absurd hnone hsome
    next existing hexisting =>
      split
      next horder => exact Or.inl ⟨rfl, rfl, Or.inr ⟨existing, hexisting, horder⟩⟩
      next horder =>
        have horder := not_not.mp horder
        split
        next hlisted => exact Or.inr ⟨rfl, Or.inl ⟨existing, rfl, hexisting, horder, hlisted⟩⟩
        next hlisted =>
          have hoid : (o.merge existing).clientOid = o.clientOid digest :=
            clientOid_of_get (r := existing) hexisting
          have hrow : db₁.get (o.merge existing).clientOid = some existing := by
            rw [hoid, hexisting]
          obtain ⟨db₂, hupdate⟩ : ∃ db₂, db₁.update now (o.merge existing) = .ok db₂ :=
            update_isOk hrow rfl (o.checked_written (checked_of_get hexisting) rfl rfl)
          simp only [hupdate]
          refine Or.inr ⟨rfl, Or.inr ⟨existing, o.merge existing, Or.inl hexisting, horder, hoid,
            rfl, horder, rfl, rfl, db₁, rfl, fun k => ?_, hupdate⟩⟩
          split
          next hk => rw [hk, hexisting]
          · rfl

/-- A row read from a fill of the venue, under its client order id. -/
structure ReadFrom (f : FillRow) (clientOid : String) (fill : ProviderFill) : Prop where
  clientOid : f.clientOrderId = clientOid
  id : fill.fillId = some f.providerFillId
  venue : statusDerived f.providerFillId = false
  quantity : fill.quantity = some f.quantity
  price : fill.price = some f.price
  fee : f.fee = |fill.fee|
  realizedPnl : f.realizedPnl = fill.realizedPnl

theorem readFrom_of_providerFillRow {record : LiveIntentRecord} {fill : ProviderFill} {f : FillRow}
    (h : providerFillRow now record fill = some f) :
    ReadFrom f record.clientOid fill ∧ f.symbol = record.symbol := by
  unfold providerFillRow at h
  split at h
  next id quantity price hid hquantity hprice =>
    split at h
    next hpos =>
      obtain rfl := Option.some.inj h
      exact ⟨⟨rfl, hid, hpos.2.2, hquantity, hprice, rfl, rfl⟩, rfl⟩
    · cases h
  · cases h

namespace WritesExit

variable {r record : LiveIntentRecord} (h : db.WritesExit digest now o r record db')

include h

/-- Afterwards the row of the exit carries its order id and lists its fill, and every other
row is as it was. -/
theorem get (k : String) : db'.get k =
    if k = o.clientOid digest then some (record.written r) else db.get k := by
  obtain ⟨db₁, -, hget₁, hupdate⟩ := h.written
  obtain ⟨r', hr', -, -, hget⟩ := update_ok hupdate
  rw [h.clientOid, hget₁, if_pos rfl] at hr'
  obtain rfl := Option.some.inj hr'
  rw [hget, h.clientOid]
  split
  · rfl
  next hk => rw [hget₁, if_neg hk]

theorem order_written : (record.written r).providerOrderId = o.providerOrderId := by
  simp only [LiveIntentRecord.written, h.order, h.recordOrder]
  cases o.providerOrderId <;> rfl

/-- A fill after the call was there, is provisional, or is read from the payload. A new one is
under the client order id of the exit and has the symbol of its row. -/
theorem mem_fills {f : FillRow} (hf : f ∈ db'.fills) : f ∈ db.fills ∨
    (f.clientOrderId = o.clientOid digest ∧ f.symbol = r.symbol ∧
      (statusDerived f.providerFillId = true ∨
        ∃ fill, o.payload.ledgerFill = some fill ∧ ReadFrom f (o.clientOid digest) fill)) := by
  obtain ⟨db₁, hfills, -, hupdate⟩ := h.written
  rcases mem_update hupdate hf with hf | hrow | ⟨fill, hfill, hrow⟩
  · exact Or.inl (hfills ▸ hf)
  · have hid := statusDerived_of_statusDerivedRow hrow
    unfold statusDerivedRow at hrow
    split at hrow
    · cases hrow
    split at hrow
    · obtain rfl := Option.some.inj hrow
      exact Or.inr ⟨h.clientOid, h.symbol, Or.inl hid⟩
    · cases hrow
  · obtain ⟨hread, hsymbol⟩ := readFrom_of_providerFillRow hrow
    rw [h.fills, Option.mem_toList] at hfill
    rw [h.clientOid] at hread
    exact Or.inr ⟨hread.clientOid, hsymbol.trans h.symbol, Or.inr ⟨fill, hfill, hread⟩⟩

end WritesExit

/-- A row keeps its order id and its symbol, whatever exit is reconciled. -/
theorem persistExit_kept (digest : String → String) (now : Instant) (o : ProviderExitObservation)
    {k : String} {r : LiveIntentRecord} (hr : db.get k = some r) :
    ∃ r', (db.persistExit digest now o).2.get k = some r' ∧
      r'.providerOrderId = r.providerOrderId ∧ r'.symbol = r.symbol := by
  rcases db.persistExit_cases digest now o with ⟨-, hdb, -⟩ | ⟨-, ⟨_, hdb, -⟩ | ⟨r', record, h⟩⟩
  · exact ⟨r, hdb.symm ▸ hr, rfl, rfl⟩
  · exact ⟨r, hdb.symm ▸ hr, rfl, rfl⟩
  · by_cases hk : k = o.clientOid digest
    · subst hk
      have hr' : r' = r := by
        rcases h.row with hrow | ⟨hnone, -⟩
        · exact Option.some.inj (hrow.symm.trans hr)
        · simp [hr] at hnone
      subst hr'
      exact ⟨_, (h.get _).trans (if_pos rfl), h.order_written.trans h.order.symm, rfl⟩
    · exact ⟨r, (h.get k).trans ((if_neg hk).trans hr), rfl, rfl⟩

/-- A call that succeeds leaves a row with the order id of its exit. -/
theorem persistExit_row (h : (db.persistExit digest now o).1.isOk) :
    ∃ r, (db.persistExit digest now o).2.get (o.clientOid digest) = some r ∧
      r.providerOrderId = o.providerOrderId := by
  rcases db.persistExit_cases digest now o with ⟨hno, -⟩ | ⟨-, ⟨r, hdb, hr, horder, -⟩ | ⟨r, record, hw⟩⟩
  · simp [hno] at h
  · exact ⟨r, hdb.symm ▸ hr, horder⟩
  · exact ⟨_, (hw.get _).trans (if_pos rfl), hw.order_written⟩

/-- Every fill after a call was there, is provisional, or is read from the payload. -/
theorem mem_persistExit {f : FillRow} (hf : f ∈ (db.persistExit digest now o).2.fills) :
    f ∈ db.fills ∨ statusDerived f.providerFillId = true ∨
      ∃ fill, o.payload.ledgerFill = some fill ∧ ReadFrom f (o.clientOid digest) fill := by
  rcases db.persistExit_cases digest now o with ⟨-, hdb, -⟩ | ⟨-, ⟨_, hdb, -⟩ | ⟨r', record, h⟩⟩
  · exact Or.inl (hdb ▸ hf)
  · exact Or.inl (hdb ▸ hf)
  · rcases h.mem_fills hf with hf | ⟨-, -, hf⟩
    · exact Or.inl hf
    · exact Or.inr hf

/-- The row of a client order id and all of its fills have the symbol `s`. -/
structure SymbolOf (db : Db) (k s : String) : Prop where
  row : ∃ r, db.get k = some r ∧ r.symbol = s
  fills : ∀ f ∈ db.fills, f.clientOrderId = k → f.symbol = s

theorem persistExit_symbolOf {k s : String} (h : db.SymbolOf k s) :
    (db.persistExit digest now o).2.SymbolOf k s := by
  obtain ⟨r, hr, hs⟩ := h.row
  obtain ⟨r', hr', -, hs'⟩ := persistExit_kept digest now o hr
  refine ⟨⟨r', hr', hs'.trans hs⟩, fun f hf hk => ?_⟩
  rcases db.persistExit_cases digest now o with ⟨-, hdb, -⟩ | ⟨-, ⟨_, hdb, -⟩ | ⟨r₁, record, hw⟩⟩
  · exact h.fills f (hdb ▸ hf) hk
  · exact h.fills f (hdb ▸ hf) hk
  · rcases hw.mem_fills hf with hf | ⟨hoid, hsymbol, -⟩
    · exact h.fills f hf hk
    · rcases hw.row with hrow | ⟨hnone, -⟩
      · rw [← hoid, hk] at hrow
        obtain rfl := Option.some.inj (hrow.symm.trans hr)
        exact hsymbol.trans hs
      · rw [← hoid, hk, hr] at hnone
        cases hnone

/-- The first exit of a client order id gives its symbol to the row. -/
theorem symbolOf_of_first (hok : (db.persistExit digest now o).1.isOk)
    (hnone : db.get (o.clientOid digest) = none)
    (hfills : ∀ f ∈ db.fills, f.clientOrderId ≠ o.clientOid digest) :
    (db.persistExit digest now o).2.SymbolOf (o.clientOid digest) o.symbol := by
  rcases db.persistExit_cases digest now o with ⟨hno, -⟩ | ⟨-, ⟨_, -, hr, -⟩ | ⟨r, record, hw⟩⟩
  · simp [hno] at hok
  · simp [hnone] at hr
  · have hsymbol : r.symbol = o.symbol := by
      rcases hw.row with hrow | ⟨-, hs⟩
      · simp [hnone] at hrow
      · exact hs
    refine ⟨⟨_, (hw.get _).trans (if_pos rfl), hsymbol⟩, fun f hf hk => ?_⟩
    rcases hw.mem_fills hf with hf | ⟨-, hs, -⟩
    · exact absurd hk (hfills f hf)
    · exact hs.trans hsymbol

end Db

/-! ## Fills delivered -/

namespace ProviderExit

variable (digest : String → String) (m : ProviderExit)

def clientOid : String := m.observation.clientOid digest

def fillId : String := m.observation.providerFillId

def orderId : Option String := m.observation.providerOrderId

/-- The row of its own an exit asks for. -/
def entry : LedgerEntry where
  clientOrderId := m.clientOid digest
  providerFillId := m.fillId
  symbol := m.observation.symbol
  price := m.observation.price
  quantity := m.observation.quantity
  fee := m.observation.fee
  realizedPnl := m.observation.realizedPnl

/-- Both readings of the payload agree, and its id is one of the venue. -/
def ReadInFull : Prop :=
  statusDerived m.fillId = false ∧
    ∃ fill, m.payload.ledgerFill = some fill ∧ fill.fillId = some m.fillId ∧
      fill.quantity = some m.observation.quantity ∧ fill.price = some m.observation.price ∧
      fill.realizedPnl = m.observation.realizedPnl

/-- The ledger holds the fill once, under its own id, with its own numbers. -/
def RecordedOnce (db : Db) : Prop :=
  statusDerived m.fillId = false ∧
    ∃ f, (db.fills.rows.filter fun f => f.providerFillId = m.fillId) = [f] ∧
      f.quantity = m.observation.quantity ∧ f.price = m.observation.price ∧
      f.fee = m.observation.fee ∧ f.realizedPnl = m.observation.realizedPnl

theorem reconcile (now : Instant) (db : Db) :
    db.reconcileProviderExit digest now m.payload = db.persistExit digest now m.observation := by
  simp only [Db.reconcileProviderExit, m.normalized]

variable {digest m}

theorem ledgerFee {fill : ProviderFill} (h : m.payload.ledgerFill = some fill) :
    |fill.fee| = m.observation.fee := by
  obtain ⟨-, hfee, -⟩ := normalizeProviderExit_ok m.normalized
  unfold ExitPayload.ledgerFill at h
  split at h
  · cases h
  · obtain rfl := Option.some.inj h
    exact hfee.symm

/-- An exit that is read in full is written as its own row. -/
theorem exists_providerFillRow (h : m.ReadInFull) (now : Instant) {record : LiveIntentRecord}
    (hoid : record.clientOid = m.clientOid digest) (hsymbol : record.symbol = m.observation.symbol) :
    ∃ fill row, m.payload.ledgerFill = some fill ∧ Db.providerFillRow now record fill = some row ∧
      row.entry = m.entry digest := by
  obtain ⟨hvenue, fill, hfill, hid, hquantity, hprice, hpnl⟩ := h
  have hpos : 0 < m.observation.price ∧ 0 < m.observation.quantity ∧ statusDerived m.fillId = false :=
    ⟨m.observation.price_pos, m.observation.quantity_pos, hvenue⟩
  obtain ⟨row, hrow⟩ : ∃ row, Db.providerFillRow now record fill = some row := by
    simp only [Db.providerFillRow, hid, hquantity, hprice, dif_pos hpos]
    exact ⟨_, rfl⟩
  obtain ⟨hread, hsymbol'⟩ := Db.readFrom_of_providerFillRow hrow
  have hid' : row.providerFillId = m.fillId := Option.some.inj (hread.id.symm.trans hid)
  have hquantity' : row.quantity = m.observation.quantity :=
    Option.some.inj (hread.quantity.symm.trans hquantity)
  have hprice' : row.price = m.observation.price :=
    Option.some.inj (hread.price.symm.trans hprice)
  refine ⟨fill, row, hfill, hrow, ?_⟩
  rw [FillRow.entry, hread.clientOid, hread.fee, hread.realizedPnl, hid', hquantity', hprice',
    hsymbol', hoid, hsymbol, hpnl, ledgerFee hfill]
  rfl

/-- Only an exit of its own id is read as a given stripped id. -/
theorem fillId_of_ledgerFill {n : ProviderExit} {fill : ProviderFill}
    (h : m.payload.ledgerFill = some fill) (hid : fill.fillId = some n.fillId) :
    m.fillId = n.fillId := by
  obtain ⟨-, -, hm⟩ := normalizeProviderExit_ok m.normalized
  obtain ⟨-, -, hn⟩ := normalizeProviderExit_ok n.normalized
  obtain ⟨hne, hstrip⟩ := firstText_spec hn
  have hfirst : ([m.payload.fillId, m.payload.tradeId, m.payload.id].findSome? fun v => v) =
      some (some n.fillId) := by
    unfold ExitPayload.ledgerFill at h
    split at h
    · cases h
    · obtain rfl := Option.some.inj h
      exact Option.join_eq_some_iff.mp hid
  have htext := firstText_of_firstPresent hne hstrip hfirst
  exact Option.some.inj (hm.symm.trans htext)

end ProviderExit

namespace Db

/-- The fills are delivered one after the other, each at its own time. -/
def deliverExits (digest : String → String) : Db → List (Instant × ProviderExit) →
    List (Except ProviderFillReconciliationError ProviderExitReconciliation) × Db
  | db, [] => ([], db)
  | db, (now, m) :: ds =>
    let call := db.reconcileProviderExit digest now m.payload
    let rest := deliverExits digest call.2 ds
    (call.1 :: rest.1, rest.2)

/-- Every call succeeds. -/
def AllSucceed (digest : String → String) (db : Db) (ds : List (Instant × ProviderExit)) : Prop :=
  ∀ result ∈ (db.deliverExits digest ds).1, result.isOk

section Deliveries

variable {digest : String → String} {now : Instant} {m : ProviderExit}
  {ds : List (Instant × ProviderExit)} {db : Db}

theorem deliverExits_cons : (db.deliverExits digest ((now, m) :: ds)).2 =
    ((db.persistExit digest now m.observation).2.deliverExits digest ds).2 := by
  simp only [deliverExits, m.reconcile]

theorem allSucceed_cons : db.AllSucceed digest ((now, m) :: ds) ↔
    (db.persistExit digest now m.observation).1.isOk ∧
      (db.persistExit digest now m.observation).2.AllSucceed digest ds := by
  simp only [AllSucceed, deliverExits, m.reconcile, List.forall_mem_cons]

theorem deliverExits_kept (digest : String → String) : ∀ (ds : List (Instant × ProviderExit))
    {db : Db} {k : String} {r : LiveIntentRecord}, db.get k = some r →
      ∃ r', (db.deliverExits digest ds).2.get k = some r' ∧
        r'.providerOrderId = r.providerOrderId
  | [], _, _, r, hr => ⟨r, hr, rfl⟩
  | (now, m) :: ds, db, k, r, hr => by
    obtain ⟨r₁, hr₁, horder₁, -⟩ := persistExit_kept digest now m.observation hr
    obtain ⟨r₂, hr₂, horder₂⟩ := deliverExits_kept digest ds hr₁
    rw [deliverExits_cons]
    exact ⟨r₂, hr₂, horder₂.trans horder₁⟩

/-- Where every call succeeds, each fill has a row with its order id in the end. -/
theorem deliverExits_row : ∀ {ds : List (Instant × ProviderExit)} {db : Db},
    db.AllSucceed digest ds → m ∈ ds.map Prod.snd →
      ∃ r, (db.deliverExits digest ds).2.get (m.clientOid digest) = some r ∧
        r.providerOrderId = m.orderId
  | (now, n) :: ds, db, hok, hm => by
    obtain ⟨hcall, hrest⟩ := allSucceed_cons.mp hok
    rw [deliverExits_cons]
    rcases List.mem_cons.mp hm with rfl | hm
    · obtain ⟨r, hr, horder⟩ := persistExit_row hcall
      obtain ⟨r', hr', horder'⟩ := deliverExits_kept digest ds hr
      exact ⟨r', hr', horder'.trans horder⟩
    · exact deliverExits_row hrest hm

theorem mem_deliverExits {f : FillRow} : ∀ {ds : List (Instant × ProviderExit)} {db : Db},
    f ∈ (db.deliverExits digest ds).2.fills → f ∈ db.fills ∨ statusDerived f.providerFillId = true ∨
      ∃ m ∈ ds.map Prod.snd, ∃ fill, m.payload.ledgerFill = some fill ∧
        ReadFrom f (m.clientOid digest) fill
  | [], _, hf => Or.inl hf
  | (now, n) :: ds, db, hf => by
    rw [deliverExits_cons] at hf
    rcases mem_deliverExits hf with hf | hf | ⟨m, hm, hread⟩
    · rcases mem_persistExit hf with hf | hf | ⟨fill, hfill, hread⟩
      · exact Or.inl hf
      · exact Or.inr (Or.inl hf)
      · obtain ⟨hpayload, -⟩ := normalizeProviderExit_ok n.normalized
        rw [hpayload] at hfill
        exact Or.inr (Or.inr ⟨n, List.mem_cons_self, fill, hfill, hread⟩)
    · exact Or.inr (Or.inl hf)
    · exact Or.inr (Or.inr ⟨m, List.mem_cons_of_mem _ hm, hread⟩)

theorem deliverExits_symbolOf {k s : String} : ∀ {ds : List (Instant × ProviderExit)} {db : Db},
    db.SymbolOf k s → (db.deliverExits digest ds).2.SymbolOf k s
  | [], _, h => h
  | (now, n) :: ds, db, h => by
    rw [deliverExits_cons]
    exact deliverExits_symbolOf (persistExit_symbolOf h)

/-- Nothing of the fills has reached the store. -/
structure Unrecorded (digest : String → String) (fills : List ProviderExit) (db : Db) : Prop where
  intents : ∀ m ∈ fills, db.get (m.clientOid digest) = none
  clientOids : ∀ m ∈ fills, ∀ f ∈ db.fills, f.clientOrderId ≠ m.clientOid digest
  fillIds : ∀ m ∈ fills, ∀ f ∈ db.fills, f.providerFillId ≠ m.fillId

/-- When a list of fills can be recorded in full. -/
structure Recordable (digest : String → String) (fills : List ProviderExit) (db : Db) : Prop where
  orders : ∀ m ∈ fills, ∀ n ∈ fills, m.orderId = n.orderId → m.orderId ≠ none →
    m.clientOid digest = n.clientOid digest
  clientOids : ∀ m ∈ fills, ∀ n ∈ fills, m.clientOid digest = n.clientOid digest →
    m.orderId = n.orderId ∧ m.observation.symbol = n.observation.symbol
  free : ∀ m ∈ fills, ∀ row ∈ db.intents, row.record.providerOrderId = m.orderId → m.orderId = none
  readings : ∀ m ∈ fills, m.ReadInFull

/-- The exits `done` have been reconciled, from the store `db₀` : every row is one of `db₀` or
that of an exit, and the ledger has grown by their own rows. -/
structure Delivered (digest : String → String) (db₀ : Db) (done : ProviderExit → Prop) (db : Db) :
    Prop where
  rows : ∀ k r, db.get k = some r →
    (∃ r₀, db₀.get k = some r₀ ∧ r₀.providerOrderId = r.providerOrderId) ∨
      ∃ m, done m ∧ k = m.clientOid digest ∧ r.providerOrderId = m.orderId ∧
        r.symbol = m.observation.symbol ∧ r.providerFillIds = [m.fillId]
  ledger : db.ledger = db₀.ledger ∪ {e | ∃ m, done m ∧ m.entry digest = e}

section Step

variable {fills : List ProviderExit} {db₀ : Db} {done : ProviderExit → Prop}

/-- Under the conditions no call is blocked. -/
theorem Delivered.not_blocked (h : Delivered digest db₀ done db)
    (hnew : db₀.Unrecorded digest fills) (hok : db₀.Recordable digest fills)
    (hdone : ∀ n, done n → n ∈ fills) (hm : m ∈ fills) : ¬ db.Blocked digest m.observation := by
  rintro (⟨hnone, hne, row, hrow, horder⟩ | ⟨r, hr, hne⟩)
  · have hget : db.get row.clientOid = some row.record :=
      get_eq_some_iff.mpr ⟨row, hrow, rfl, rfl⟩
    rcases h.rows _ _ hget with ⟨r₀, hr₀, horder₀⟩ | ⟨n, hn, hk, hn', -⟩
    · obtain ⟨row₀, hrow₀, rfl, -⟩ := get_eq_some_iff.mp hr₀
      exact hne (hok.free m hm row₀ hrow₀ (horder₀.trans horder))
    · have hoid : n.clientOid digest = m.clientOid digest := by
        refine hok.orders n (hdone n hn) m hm (hn'.symm.trans horder) ?_
        rw [← hn', horder]
        exact hne
      rw [hk, hoid, show m.clientOid digest = m.observation.clientOid digest from rfl, hnone] at hget
      cases hget
  · rcases h.rows _ _ hr with ⟨r₀, hr₀, -⟩ | ⟨n, hn, hk, hn', -⟩
    · have : db₀.get (m.clientOid digest) = none := hnew.intents m hm
      simp [ProviderExit.clientOid, hr₀] at this
    · exact hne (hn'.trans (hok.clientOids m hm n (hdone n hn) hk).1.symm)

/-- A fill of the ledger under the client order id of an exit is not provisional, and one of
its id is its own row. -/
theorem Delivered.own (h : Delivered digest db₀ done db)
    (hdistinct : ∀ m ∈ fills, ∀ n ∈ fills, m.fillId = n.fillId → m = n)
    (hnew : db₀.Unrecorded digest fills) (hok : db₀.Recordable digest fills)
    (hdone : ∀ n, done n → n ∈ fills) (hm : m ∈ fills) {f : FillRow} (hf : f ∈ db.fills) :
    (f.clientOrderId = m.clientOid digest → statusDerived f.providerFillId = false) ∧
      (f.providerFillId = m.fillId → f.entry = m.entry digest) := by
  have hmem : f.entry ∈ db₀.ledger ∪ {e | ∃ m, done m ∧ m.entry digest = e} :=
    h.ledger ▸ entry_mem_ledger hf
  rcases hmem with ⟨f₀, hf₀, hentry⟩ | ⟨n, hn, hentry⟩
  · have hoid : f₀.clientOrderId = f.clientOrderId := congrArg LedgerEntry.clientOrderId hentry
    have hid : f₀.providerFillId = f.providerFillId := congrArg LedgerEntry.providerFillId hentry
    exact ⟨fun hk => absurd (hoid.trans hk) (hnew.clientOids m hm f₀ hf₀),
      fun hk => absurd (hid.trans hk) (hnew.fillIds m hm f₀ hf₀)⟩
  · have hid : n.fillId = f.providerFillId := congrArg LedgerEntry.providerFillId hentry
    refine ⟨fun _ => ?_, fun hk => ?_⟩
    · rw [← hid]
      exact (hok.readings n (hdone n hn)).1
    · obtain rfl := hdistinct n (hdone n hn) m hm (hid.trans hk)
      exact hentry.symm

/-- One delivery succeeds and adds its exit. -/
theorem Delivered.step (h : Delivered digest db₀ done db)
    (hdistinct : ∀ m ∈ fills, ∀ n ∈ fills, m.fillId = n.fillId → m = n)
    (hnew : db₀.Unrecorded digest fills) (hok : db₀.Recordable digest fills)
    (hdone : ∀ n, done n → n ∈ fills) (hm : m ∈ fills) (now : Instant) :
    (db.persistExit digest now m.observation).1.isOk ∧
      Delivered digest db₀ (fun n => done n ∨ n = m)
        (db.persistExit digest now m.observation).2 := by
  have hown := fun f hf => h.own (f := f) hdistinct hnew hok hdone hm hf
  rcases db.persistExit_cases digest now m.observation with
    ⟨-, -, hblocked⟩ | ⟨hsucceeds, ⟨r, hdb, hr, -, hlisted⟩ | ⟨r, record, hw⟩⟩
  · exact absurd hblocked (h.not_blocked hnew hok hdone hm)
  · -- the fill is listed : it was delivered before
    refine ⟨hsucceeds, hdb.symm ▸ ?_⟩
    have hbefore : done m := by
      rcases h.rows _ _ hr with ⟨r₀, hr₀, -⟩ | ⟨n, hn, -, -, -, hids⟩
      · have : db₀.get (m.clientOid digest) = none := hnew.intents m hm
        simp [ProviderExit.clientOid, hr₀] at this
      · rw [hids, List.mem_singleton] at hlisted
        rwa [hdistinct m hm n (hdone n hn) hlisted]
    have hsame : (fun n => done n ∨ n = m) = done := by
      funext n
      refine propext ⟨?_, Or.inl⟩
      rintro (hn | rfl)
      · exact hn
      · exact hbefore
    rw [hsame]
    exact h
  · -- the fill is written under the client order id of its own row
    have hsymbol : r.symbol = m.observation.symbol := by
      rcases hw.row with hrow | ⟨-, hs⟩
      · rcases h.rows _ _ hrow with ⟨r₀, hr₀, -⟩ | ⟨n, hn, hk, -, hs, -⟩
        · have : db₀.get (m.clientOid digest) = none := hnew.intents m hm
          simp [ProviderExit.clientOid, hr₀] at this
        · exact hs.trans (hok.clientOids m hm n (hdone n hn) hk).2.symm
      · exact hs
    refine ⟨hsucceeds, fun k r' hr' => ?_, ?_⟩
    · rw [hw.get] at hr'
      split at hr'
      next hk =>
        obtain rfl := Option.some.inj hr'
        exact Or.inr ⟨m, Or.inr rfl, hk, hw.order_written, hsymbol, hw.fillIds⟩
      · rcases h.rows k r' hr' with hold | ⟨n, hn, hrest⟩
        · exact Or.inl hold
        · exact Or.inr ⟨n, Or.inl hn, hrest⟩
    · obtain ⟨db₁, hfills, -, hupdate⟩ := hw.written
      obtain ⟨hpayload, -⟩ := normalizeProviderExit_ok m.normalized
      obtain ⟨fill, row, hfill, hrow, hentry⟩ := @ProviderExit.exists_providerFillRow digest m
        (hok.readings m hm) now record hw.clientOid (hw.symbol.trans hsymbol)
      have hoid : row.clientOrderId = m.clientOid digest :=
        congrArg LedgerEntry.clientOrderId hentry
      have hid : row.providerFillId = m.fillId := congrArg LedgerEntry.providerFillId hentry
      have hcarried : record.providerFills = [fill] := by
        rw [hw.fills, hpayload, hfill]
        rfl
      have hledger := ledger_update hupdate hcarried hrow (hoid.trans hw.clientOid.symm)
        (fun f hf hk => ((hown f (hfills ▸ hf)).2 (hk.trans hid)).trans hentry.symm)
        (fun f hf hk => (hown f (hfills ▸ hf)).1 (hk.trans hw.clientOid))
        (by rw [hid]; exact (hok.readings m hm).1)
      have hsame : db₁.ledger = db.ledger := by
        simp only [Db.ledger, hfills]
      rw [hledger, hsame, h.ledger, hentry]
      ext e
      simp only [Set.mem_insert_iff, Set.mem_union, Set.mem_ofPred_eq]
      constructor
      · rintro (rfl | he | ⟨n, hn, he⟩)
        · exact Or.inr ⟨m, Or.inr rfl, rfl⟩
        · exact Or.inl he
        · exact Or.inr ⟨n, Or.inl hn, he⟩
      · rintro (he | ⟨n, hn | rfl, he⟩)
        · exact Or.inr (Or.inl he)
        · exact Or.inr (Or.inr ⟨n, hn, he⟩)
        · exact Or.inl he.symm

/-- All deliveries succeed, and add the exits delivered. -/
theorem Delivered.run (hdistinct : ∀ m ∈ fills, ∀ n ∈ fills, m.fillId = n.fillId → m = n)
    (hnew : db₀.Unrecorded digest fills) (hok : db₀.Recordable digest fills) :
    ∀ (ds : List (Instant × ProviderExit)) {db : Db} {done : ProviderExit → Prop},
      Delivered digest db₀ done db → (∀ n, done n → n ∈ fills) → (∀ d ∈ ds, d.2 ∈ fills) →
        db.AllSucceed digest ds ∧
          Delivered digest db₀ (fun n => done n ∨ n ∈ ds.map Prod.snd)
            (db.deliverExits digest ds).2
  | [], db, done, h, _, _ => by
    refine ⟨fun _ hr => (List.not_mem_nil hr).elim, ?_⟩
    simpa [deliverExits] using h
  | (now, m) :: ds, db, done, h, hdone, hds => by
    have hm : m ∈ fills := hds _ List.mem_cons_self
    obtain ⟨hcall, hnext⟩ := h.step hdistinct hnew hok hdone hm now
    obtain ⟨hrest, hlast⟩ := Delivered.run hdistinct hnew hok ds hnext
      (by
        rintro n (hn | rfl)
        · exact hdone n hn
        · exact hm)
      (fun d hd => hds d (List.mem_cons_of_mem _ hd))
    rw [allSucceed_cons, deliverExits_cons]
    refine ⟨⟨hcall, hrest⟩, ?_⟩
    simpa only [List.map_cons, List.mem_cons, or_assoc] using hlast

end Step

/-! ## When all fills are recorded -/

/-- The deliveries are of the fills, of each one at least once. -/
def Covers (fills : List ProviderExit) (ds : List (Instant × ProviderExit)) : Prop :=
  ∀ m, m ∈ ds.map Prod.snd ↔ m ∈ fills

/-- Every call succeeds, the ledger holds each fill once, and it is the ledger of every other
delivery of the fills. -/
structure Settles (digest : String → String) (fills : List ProviderExit) (db : Db)
    (ds : List (Instant × ProviderExit)) : Prop where
  succeed : db.AllSucceed digest ds
  recorded : ∀ m ∈ fills, m.RecordedOnce (db.deliverExits digest ds).2
  anyOrder : ∀ ds', Covers fills ds' →
    (db.deliverExits digest ds').2.ledger = (db.deliverExits digest ds).2.ledger

section Settled

variable {fills : List ProviderExit}

/-- A fill id has one row in the ledger. -/
theorem filter_fillId {f : FillRow} : ∀ {rows : List FillRow},
    (rows.Pairwise fun a b => ¬ FillRow.Conflict a b) → f ∈ rows →
      (rows.filter fun g => g.providerFillId = f.providerFillId) = [f]
  | x :: xs, hrows, hf => by
    obtain ⟨hx, hxs⟩ := List.pairwise_cons.mp hrows
    rcases List.mem_cons.mp hf with rfl | hf
    · have hrest : (xs.filter fun g => g.providerFillId = f.providerFillId) = [] := by
        refine List.filter_eq_nil_iff.mpr fun g hg h => hx g hg ?_
        exact (of_decide_eq_true h).symm
      rw [List.filter_cons_of_pos (by simp), hrest]
    · have hne : ¬ x.providerFillId = f.providerFillId := hx f hf
      rw [List.filter_cons_of_neg (by simpa using hne), filter_fillId hxs hf]

/-- The row of a recorded fill is read from its payload. -/
theorem readFrom_of_recorded (hdistinct : ∀ m ∈ fills, ∀ n ∈ fills, m.fillId = n.fillId → m = n)
    (hnew : db.Unrecorded digest fills) (hds : Covers fills ds) (hm : m ∈ fills)
    (h : m.RecordedOnce (db.deliverExits digest ds).2) :
    ∃ f ∈ (db.deliverExits digest ds).2.fills, f.providerFillId = m.fillId ∧
      f.quantity = m.observation.quantity ∧ f.price = m.observation.price ∧
      f.realizedPnl = m.observation.realizedPnl ∧
      ∃ fill, m.payload.ledgerFill = some fill ∧ ReadFrom f (m.clientOid digest) fill := by
  obtain ⟨hvenue, f, hfilter, hquantity, hprice, -, hpnl⟩ := h
  have hmem : f ∈ (db.deliverExits digest ds).2.fills.rows.filter
      fun f => f.providerFillId = m.fillId := by
    rw [hfilter]
    exact List.mem_singleton_self f
  obtain ⟨hf, hid⟩ := List.mem_filter.mp hmem
  have hid := of_decide_eq_true hid
  refine ⟨f, hf, hid, hquantity, hprice, hpnl, ?_⟩
  rcases mem_deliverExits hf with hold | hderived | ⟨n, hn, fill, hfill, hread⟩
  · exact absurd hid (hnew.fillIds m hm f hold)
  · rw [hid, hvenue] at hderived
    cases hderived
  · have hsame := ProviderExit.fillId_of_ledgerFill (n := m) hfill (hid ▸ hread.id)
    obtain rfl := hdistinct n ((hds n).mp hn) m hm hsame
    exact ⟨fill, hfill, hread⟩

/-- A delivery that starts with a fill gives its symbol to the fills of its client order id. -/
theorem symbolOf_deliverExits (hnew : db.Unrecorded digest fills)
    (hfree : ∀ row ∈ db.intents, row.record.providerOrderId = m.orderId → m.orderId = none)
    (hm : m ∈ fills) (ds : List (Instant × ProviderExit)) :
    (db.deliverExits digest ((0, m) :: ds)).2.SymbolOf (m.clientOid digest)
      m.observation.symbol := by
  have hnone : db.get (m.observation.clientOid digest) = none := hnew.intents m hm
  have hcall : (db.persistExit digest 0 m.observation).1.isOk := by
    rcases db.persistExit_cases digest 0 m.observation with ⟨-, -, hblocked⟩ | ⟨h, -⟩
    · rcases hblocked with ⟨-, hne, row, hrow, horder⟩ | ⟨r, hr, -⟩
      · exact absurd (hfree row hrow horder) hne
      · rw [hnone] at hr
        cases hr
    · exact h
  rw [deliverExits_cons]
  exact deliverExits_symbolOf (symbolOf_of_first hcall hnone (hnew.clientOids m hm))

theorem recordable_of_settles
    (hdistinct : ∀ m ∈ fills, ∀ n ∈ fills, m.fillId = n.fillId → m = n)
    (hnew : db.Unrecorded digest fills) (hds : Covers fills ds)
    (h : db.Settles digest fills ds) : db.Recordable digest fills := by
  have hrow : ∀ m ∈ fills, ∃ row ∈ (db.deliverExits digest ds).2.intents,
      row.clientOid = m.clientOid digest ∧ row.record.providerOrderId = m.orderId := by
    intro m hm
    obtain ⟨r, hr, horder⟩ := deliverExits_row h.succeed ((hds m).mpr hm)
    obtain ⟨row, hrow, rfl, hoid⟩ := get_eq_some_iff.mp hr
    exact ⟨row, hrow, hoid, horder⟩
  have hfree : ∀ m ∈ fills, ∀ row ∈ db.intents, row.record.providerOrderId = m.orderId →
      m.orderId = none := by
    intro m hm row hrow₀ horder
    by_contra hne
    have hget : db.get row.clientOid = some row.record := get_eq_some_iff.mpr ⟨row, hrow₀, rfl, rfl⟩
    obtain ⟨r', hr', horder'⟩ := deliverExits_kept digest ds hget
    obtain ⟨row', hrow', rfl, hoid'⟩ := get_eq_some_iff.mp hr'
    obtain ⟨rowm, hrowm, hoidm, horderm⟩ := hrow m hm
    rcases Table.eq_or_not_conflict hrow' hrowm with rfl | hconflict
    · have hsame : row.clientOid = m.clientOid digest := hoid'.symm.trans hoidm
      rw [hsame, hnew.intents m hm] at hget
      cases hget
    · refine hconflict (Or.inr ⟨horder'.trans (horder.trans horderm.symm), ?_⟩)
      rw [horder', horder]
      exact hne
  refine ⟨fun m hm n hn horder hne => ?_, fun m hm n hn hoid => ⟨?_, ?_⟩, hfree, fun m hm => ?_⟩
  · obtain ⟨rowm, hrowm, hoidm, horderm⟩ := hrow m hm
    obtain ⟨rown, hrown, hoidn, hordern⟩ := hrow n hn
    rcases Table.eq_or_not_conflict hrowm hrown with rfl | hconflict
    · exact hoidm.symm.trans hoidn
    · refine absurd (Or.inr ⟨horderm.trans (horder.trans hordern.symm), ?_⟩) hconflict
      rw [horderm]
      exact hne
  · obtain ⟨rowm, hrowm, hoidm, horderm⟩ := hrow m hm
    obtain ⟨rown, hrown, hoidn, hordern⟩ := hrow n hn
    rcases Table.eq_or_not_conflict hrowm hrown with rfl | hconflict
    · exact horderm.symm.trans hordern
    · exact absurd (Or.inl (hoidm.trans (hoid.trans hoidn.symm))) hconflict
  · -- the fill of `n` has the symbol of whichever of the two is delivered first
    have hsymbol : ∀ k ∈ fills, k.clientOid digest = n.clientOid digest →
        ∀ f ∈ (db.deliverExits digest ds).2.fills, f.clientOrderId = n.clientOid digest →
          f.symbol = k.observation.symbol := by
      intro k hk hkn f hf hfn
      have hcovers : Covers fills ((0, k) :: fills.map fun m => (0, m)) := by
        intro m
        simp only [List.map_cons, List.map_map, List.mem_cons, List.mem_map, Function.comp_apply,
          exists_eq_right, or_iff_right_iff_imp]
        rintro rfl
        exact hk
      have hmem := entry_mem_ledger hf
      rw [← h.anyOrder _ hcovers] at hmem
      obtain ⟨g, hg, hentry⟩ := hmem
      have hgk : g.clientOrderId = k.clientOid digest :=
        (congrArg LedgerEntry.clientOrderId hentry).trans (hfn.trans hkn.symm)
      have := (symbolOf_deliverExits hnew (hfree k hk) hk _).fills g hg hgk
      exact (congrArg LedgerEntry.symbol hentry).symm.trans this
    obtain ⟨f, hf, -, -, -, -, fill, -, hread⟩ :=
      readFrom_of_recorded hdistinct hnew hds hn (h.recorded n hn)
    exact (hsymbol m hm hoid f hf hread.clientOid).symm.trans (hsymbol n hn rfl f hf hread.clientOid)
  · obtain ⟨f, -, hid, hquantity, hprice, hpnl, fill, hfill, hread⟩ :=
      readFrom_of_recorded hdistinct hnew hds hm (h.recorded m hm)
    exact ⟨(h.recorded m hm).1, fill, hfill, hid ▸ hread.id, hquantity ▸ hread.quantity,
      hprice ▸ hread.price, hread.realizedPnl.symm.trans hpnl⟩

theorem settles_of_recordable
    (hdistinct : ∀ m ∈ fills, ∀ n ∈ fills, m.fillId = n.fillId → m = n)
    (hnew : db.Unrecorded digest fills) (hds : Covers fills ds)
    (h : db.Recordable digest fills) : db.Settles digest fills ds := by
  have hstart : Delivered digest db (fun _ => False) db :=
    ⟨fun k r hr => Or.inl ⟨r, hr, rfl⟩, by simp⟩
  have hrun : ∀ ds, Covers fills ds → db.AllSucceed digest ds ∧
      (db.deliverExits digest ds).2.ledger =
        db.ledger ∪ {e | ∃ m, m ∈ fills ∧ m.entry digest = e} := by
    intro ds hds
    obtain ⟨hok, hlast⟩ := Delivered.run hdistinct hnew h ds hstart (fun _ => False.elim)
      fun d hd => (hds d.2).mp (List.mem_map_of_mem hd)
    have hmem : ∀ m, m ∈ ds.map Prod.snd ↔ m ∈ fills := hds
    refine ⟨hok, hlast.ledger.trans ?_⟩
    simp only [false_or, hmem]
  refine ⟨(hrun ds hds).1, fun m hm => ⟨(h.readings m hm).1, ?_⟩, fun ds' hds' => ?_⟩
  · have hmem : m.entry digest ∈ (db.deliverExits digest ds).2.ledger := by
      rw [(hrun ds hds).2]
      exact Or.inr ⟨m, hm, rfl⟩
    obtain ⟨f, hf, hentry⟩ := hmem
    have hid : f.providerFillId = m.fillId := congrArg LedgerEntry.providerFillId hentry
    refine ⟨f, ?_, congrArg LedgerEntry.quantity hentry, congrArg LedgerEntry.price hentry,
      congrArg LedgerEntry.fee hentry, congrArg LedgerEntry.realizedPnl hentry⟩
    rw [← hid]
    exact filter_fillId (db.deliverExits digest ds).2.fills.unique hf
  · rw [(hrun ds hds).2, (hrun ds' hds').2]

/-- Fills of distinct ids, delivered in some order and perhaps repeatedly, are all recorded,
each once and with its own numbers, and the ledger does not depend on the order, exactly when
they can be recorded : no two of them belong to one order unless they share a client order id,
no other intent carries their order ids, and both readings of each payload agree. -/
theorem providerExits_recorded_iff (digest : String → String) {fills : List ProviderExit} {db : Db}
    {ds : List (Instant × ProviderExit)}
    (hdistinct : ∀ m ∈ fills, ∀ n ∈ fills, m.fillId = n.fillId → m = n)
    (hnew : db.Unrecorded digest fills) (hds : Covers fills ds) :
    db.Settles digest fills ds ↔ db.Recordable digest fills :=
  ⟨recordable_of_settles hdistinct hnew hds, settles_of_recordable hdistinct hnew hds⟩

/-! ### An order of two fills -/

/-- The liquidation of a position, in one fill of its order. -/
def liquidationPayload (fillId : String) (size : ℚ) : ExitPayload where
  symbol := some "WLDUSDT"
  side := some "sell"
  orderId := some "1483115597766737921"
  tradeId := some (some fillId)
  size := some (.decimal (.finite size))
  price := some (.decimal (.finite (3841 / 10000)))
  fee := some (.decimal (.finite (-2 / 100)))
  profit := some (.decimal (.finite (-118 / 100)))
  enterPointSource := some "SYS"
  tradeSide := some "burst_sell_single"

def liquidationObservation (fillId : String) (size : ℚ) (h : 0 < size) :
    ProviderExitObservation where
  symbol := "WLDUSDT"
  side := .sell
  source := .systemLiquidation
  providerOrderId := some "1483115597766737921"
  providerFillId := fillId
  quantity := size
  price := 3841 / 10000
  fee := 2 / 100
  realizedPnl := -118 / 100
  payload := liquidationPayload fillId size
  quantity_pos := h
  price_pos := by norm_num

def firstFill : ProviderExit where
  payload := liquidationPayload "1483115597766737921-fill" 91
  observation := liquidationObservation "1483115597766737921-fill" 91 (by norm_num)
  normalized := by decide +kernel

def secondFill : ProviderExit where
  payload := liquidationPayload "1483115597766737921-fill-2" 9
  observation := liquidationObservation "1483115597766737921-fill-2" 9 (by norm_num)
  normalized := by decide +kernel

/-- The digests of the two fills. -/
def fillDigest (material : String) : String :=
  if material = "bitget|WLDUSDT|1483115597766737921|1483115597766737921-fill" then
    "f1fa08beaacc8466b134b19c"
  else "67a2e93e5085e10994537ca5"

/-- Two fills of one order, delivered to an empty store : the second is refused. -/
theorem liquidation_not_settled :
    (∀ m ∈ [firstFill, secondFill], ∀ n ∈ [firstFill, secondFill], m.fillId = n.fillId → m = n) ∧
      ({} : Db).Unrecorded fillDigest [firstFill, secondFill] ∧
      Covers [firstFill, secondFill] [(0, firstFill), (1, secondFill)] ∧
      ¬ ({} : Db).Settles fillDigest [firstFill, secondFill] [(0, firstFill), (1, secondFill)] := by
  have hne : firstFill.fillId ≠ secondFill.fillId := by decide
  refine ⟨?_, ⟨fun _ _ => rfl, fun _ _ _ hf => (List.not_mem_nil hf).elim,
    fun _ _ _ hf => (List.not_mem_nil hf).elim⟩, fun m => by simp, fun h => ?_⟩
  · simp [hne, hne.symm]
  · have hlost : ((({} : Db).deliverExits fillDigest [(0, firstFill), (1, secondFill)]).1.all
        fun result => result.isOk) = false := by
      decide +kernel
    exact absurd (List.all_eq_true.mpr h.succeed) (by simp [hlost])

theorem single_fill_settled :
    ({} : Db).Settles fillDigest [firstFill] [(0, firstFill), (1, firstFill)] := by
  refine (providerExits_recorded_iff fillDigest (by simp)
    ⟨fun _ _ => rfl, fun _ _ _ hf => (List.not_mem_nil hf).elim,
      fun _ _ _ hf => (List.not_mem_nil hf).elim⟩ (fun m => by simp)).mpr
    ⟨by simp, by simp, fun _ _ _ hrow => (List.not_mem_nil hrow).elim, fun m hm => ?_⟩
  rw [List.mem_singleton.mp hm]
  exact ⟨by decide, _, rfl, rfl, rfl, rfl, rfl⟩

end Settled

end Deliveries

end Db

end FattyTrader
