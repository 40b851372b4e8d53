import FattyTrader.CloseOrders
import FattyTrader.EntryOps

/-!
# Settlement of absent protection

`settle_absent_protection` cancels an unknown close, emergency close, stop loss or take profit
whose symbol is read flat, without plans and without pending orders, when the ledger has no
filled quantity for it. An executed close leaves the same reading behind, and the quantity it
filled stands in the ledger only after somebody has recorded it.

The world keeps the fills the venue has executed and the rows that were settled. `Unexecuted`
says that no order of a settled row has executed, and `unexecuted_states_iff` when this holds
throughout a run. A verified close skips a cancelled intent (`reconcilable`), so such a fill is
never bound.
-/

set_option linter.unusedSectionVars false

open Tables

namespace FattyTrader

open Runs

/-! ## The step -/

namespace LiveIntentRecord

/-- What `settle_absent` asks of a row. -/
def settleable (r : LiveIntentRecord) : Bool :=
  r.state = .unknown && r.role ≠ .entry && r.filledQty = 0

/-- The fills of the venue that belong to the order of an intent. -/
def executions (r : LiveIntentRecord) (fills : List ProviderFill) : List ProviderFill :=
  matchingFills fills r.clientOid r.providerOrderId

theorem executions_append (r : LiveIntentRecord) (fills fills' : List ProviderFill) :
    r.executions (fills ++ fills') = r.executions fills ++ r.executions fills' :=
  List.filter_append ..

end LiveIntentRecord

namespace Db

variable {db : Db} {clientOid : String} {r : LiveIntentRecord}

/-- One candidate of `settle_absent_protection`, with what could be read of its symbol. -/
def settleAbsentAt (db : Db) (intent : LiveIntentRecord) (reading : Option SymbolReading) :
    Db × Bool :=
  if intent.filledQty = 0 ∧ reading.any SymbolReading.provedEmpty then
    match db.settleAbsent intent.clientOid with
    | .error _ => (db, false)
    | .ok (db, settled) => (db, settled)
  else (db, false)

/-- A row that can be settled is. -/
theorem settleAbsent_of_settleable (hr : db.get clientOid = some r) (hset : r.settleable) :
    ∃ db', db.settleAbsent clientOid = .ok (db', true) := by
  simp only [LiveIntentRecord.settleable, Bool.and_eq_true, decide_eq_true_eq] at hset
  have hchecked := checked_of_get hr
  have hsettled : r.settledAbsent.Checked := ⟨hchecked.1, hchecked.2, hchecked.3, hchecked.4⟩
  obtain ⟨db', h⟩ := setIntent_isOk (f := LiveIntentRecord.settledAbsent) hr hsettled rfl rfl
  exact ⟨db', by simp [settleAbsent, hr, hset, h, Except.map]⟩

/-- Any other row is left alone. -/
theorem settleAbsent_of_not (h : ∀ r, db.get clientOid = some r → r.settleable = false) :
    db.settleAbsent clientOid = .ok (db, false) := by
  unfold settleAbsent
  split
  · rfl
  next r hr =>
    have hno := h r hr
    split
    next hset =>
      simp [LiveIntentRecord.settleable, hset] at hno
    · rfl

/-- The bound closes `reconcile` of the verified closes goes through. -/
def reconcilable (db : Db) (environment : Environment) : List String :=
  ((db.closeBindings.rows.filter fun b => (db.reservation b.reservationId).any fun m =>
    (m.state = .consumed || m.state = .reserved) &&
      m.owner.any fun o => o.environment = environment).map
    CloseBinding.closeClientOrderId).filter fun oid =>
      (db.get oid).any fun r => !(r.state = .cancelled || r.state = .rejected)

end Db

/-! ## The system -/

/-- The ledger, the fills the venue has executed, and the rows that were settled. -/
structure VenueWorld where
  db : Db
  fills : List ProviderFill := []
  settled : List LiveIntentRecord := []

/-- A candidate is settled, the venue executes a fill, or another transaction writes. -/
inductive SettlementLabel
  | settle (intent : LiveIntentRecord) (reading : Option SymbolReading)
  | executes (fill : ProviderFill)
  | writes (w : Db)

namespace VenueWorld

def step (s : VenueWorld) : SettlementLabel → VenueWorld
  | .settle intent reading =>
    let (db, settled) := s.db.settleAbsentAt intent reading
    { s with
      db
      settled := if settled then s.settled ++ (s.db.get intent.clientOid).toList else s.settled }
  | .executes fill => { s with fills := s.fills ++ [fill] }
  | .writes w => { s with db := w }

/-- No order of a settled intent has executed. -/
def Unexecuted (s : VenueWorld) : Prop := ∀ r ∈ s.settled, r.executions s.fills = []

/-- The steps that go wrong. The symbol of an order that has executed is read empty while its
intent is still unknown and the ledger has no quantity of it, or an order executes whose intent
was settled before. -/
def Loses (s : VenueWorld) : SettlementLabel → Prop
  | .settle intent reading =>
    (intent.filledQty = 0 ∧ reading.any SymbolReading.provedEmpty) ∧
      ∃ r, s.db.get intent.clientOid = some r ∧ r.settleable ∧ r.executions s.fills ≠ []
  | .executes fill => ∃ r ∈ s.settled, r.executions [fill] ≠ []
  | .writes _ => False

variable {s : VenueWorld}

/-- What the settlement of a candidate does. -/
theorem settle_cases (s : VenueWorld) (intent : LiveIntentRecord)
    (reading : Option SymbolReading) :
    (∃ r, (intent.filledQty = 0 ∧ reading.any SymbolReading.provedEmpty) ∧
        s.db.get intent.clientOid = some r ∧ r.settleable ∧
        (s.step (.settle intent reading)).settled = s.settled ++ [r]) ∨
      (¬ ((intent.filledQty = 0 ∧ reading.any SymbolReading.provedEmpty) ∧
          ∃ r, s.db.get intent.clientOid = some r ∧ r.settleable) ∧
        s.step (.settle intent reading) = s) := by
  by_cases hread : intent.filledQty = 0 ∧ reading.any SymbolReading.provedEmpty
  · by_cases hset : ∃ r, s.db.get intent.clientOid = some r ∧ r.settleable
    · obtain ⟨r, hr, hset⟩ := hset
      obtain ⟨db', hdb'⟩ := Db.settleAbsent_of_settleable hr hset
      refine Or.inl ⟨r, hread, hr, hset, ?_⟩
      simp [step, Db.settleAbsentAt, hread, hdb', hr]
    · refine Or.inr ⟨fun h => hset h.2, ?_⟩
      have hno : s.db.settleAbsent intent.clientOid = .ok (s.db, false) := by
        refine Db.settleAbsent_of_not fun r hr => ?_
        by_contra hno
        exact hset ⟨r, hr, by simpa using hno⟩
      simp [step, Db.settleAbsentAt, hread, hno]
  · refine Or.inr ⟨fun h => hread h.1, ?_⟩
    simp only [step, Db.settleAbsentAt, if_neg hread]
    rfl

theorem unexecuted_settle (h : s.Unexecuted) (intent : LiveIntentRecord)
    (reading : Option SymbolReading) :
    (s.step (.settle intent reading)).Unexecuted ↔ ¬ s.Loses (.settle intent reading) := by
  rcases settle_cases s intent reading with ⟨r, hread, hr, hset, hsettled⟩ | ⟨hno, hstep⟩
  · have hlist : (s.step (.settle intent reading)).Unexecuted ↔
        ∀ x ∈ s.settled ++ [r], x.executions s.fills = [] := by
      rw [← hsettled]
      rfl
    rw [hlist, List.forall_mem_append, List.forall_mem_singleton]
    constructor
    · rintro ⟨-, hnil⟩ ⟨-, r', hr', -, hexec⟩
      obtain rfl := Option.some.inj (hr.symm.trans hr')
      exact hexec hnil
    · intro hgood
      refine ⟨h, ?_⟩
      by_contra hexec
      exact hgood ⟨hread, r, hr, hset, hexec⟩
  · rw [hstep]
    refine iff_of_true h ?_
    rintro ⟨hread, r, hr, hset, -⟩
    exact hno ⟨hread, r, hr, hset⟩

theorem unexecuted_executes (h : s.Unexecuted) (fill : ProviderFill) :
    (s.step (.executes fill)).Unexecuted ↔ ¬ s.Loses (.executes fill) := by
  constructor
  · rintro hgood ⟨r, hr, hexec⟩
    have hnil : r.executions (s.fills ++ [fill]) = [] := hgood r hr
    rw [LiveIntentRecord.executions_append] at hnil
    exact hexec (List.append_eq_nil_iff.mp hnil).2
  · intro hgood r hr
    change r.executions (s.fills ++ [fill]) = []
    rw [LiveIntentRecord.executions_append, h r hr, List.nil_append]
    by_contra hexec
    exact hgood ⟨r, hr, hexec⟩

theorem unexecuted_step (s : VenueWorld) (l : SettlementLabel) (h : s.Unexecuted) :
    (s.step l).Unexecuted ↔ ¬ s.Loses l := by
  cases l with
  | settle intent reading => exact unexecuted_settle h intent reading
  | executes fill => exact unexecuted_executes h fill
  | writes w => exact iff_of_true h fun hbad => hbad

end VenueWorld

/-- In every run from a ledger nothing was settled in, no settled order has executed throughout,
exactly when no step of the run loses one. -/
theorem unexecuted_states_iff (db : Db) (fills : List ProviderFill) (ls : List SettlementLabel) :
    (∀ t ∈ states VenueWorld.step ⟨db, fills, []⟩ ls, t.Unexecuted) ↔
      ∀ p ∈ visits VenueWorld.step ⟨db, fills, []⟩ ls, ¬ p.1.Loses p.2 :=
  forall_states_iff VenueWorld.unexecuted_step (List.forall_mem_nil _)

/-! ### A close that executed before its answer was recorded -/

/-- The close of a filled entry, whose answer was lost. -/
def unknownClose : VenueWorld where
  db := (ClosePath.reduceOnly.send 10 filledEntry firstClose .unknown).1

/-- The fill of that close. -/
def firstCloseFill : ProviderFill where
  fillId := some "fill-1"
  orderId := some "order-1"
  clientOid := some "close-1"
  quantity := some 3
  price := some 101
  fee := 0
  realizedPnl := 3
  time := some 11

/-- The symbol after the close : flat, no order and no plan. -/
def emptySymbol : SymbolReading := ⟨some 0, some 0, some 0⟩

/-- The close executes, and is settled as absent : its intent is cancelled unfilled, and the
reservation stays consumed with nothing left to reconcile. -/
theorem executedClose_settled :
    let t := exec VenueWorld.step unknownClose
      [.executes firstCloseFill,
        .settle { firstClose.intent with state := .unknown } (some emptySymbol)]
    t.fills = [firstCloseFill] ∧
      ((t.db.get "close-1").map fun r => (r.state, r.filledQty)) = some (.cancelled, 0) ∧
      unknownClose.db.reconcilable .live = ["close-1"] ∧ t.db.reconcilable .live = [] ∧
      (t.db.reservation 7).map (·.state) = some .consumed := by
  decide +kernel

end FattyTrader
