import FattyTrader.Readback
import FattyTrader.LiveIntents

/-!
# The monitor and the unresolved intents

In every cycle `_reconcile_unresolved_intents` selects the intents that are not over, by state
alone, reads each of them at the venue (`reconcileUnknownIntent`) and writes back whatever the
reading implies (`updateIntent`). The write does not ask which state the row has by then, and
no reading implies the state `staged` : `state_of_reconcileUnknownIntent`.
-/

set_option linter.unusedSectionVars false

open Tables

namespace FattyTrader

/-- `state IN ('rejected', 'cancelled', 'reconciled', 'filled')`. -/
def IntentState.over : IntentState → Bool
  | .rejected | .cancelled | .reconciled | .filled => true
  | _ => false

namespace LiveIntentRecord

/-- The columns `unresolved_intents` reads ; the others take their defaults. -/
def unresolved (r : LiveIntentRecord) : LiveIntentRecord where
  clientOid := r.clientOid
  symbol := r.symbol
  side := r.side
  role := r.role
  state := r.state
  requestedQty := r.requestedQty
  filledQty := r.filledQty
  avgPrice := r.avgPrice
  fee := r.fee
  providerOrderId := r.providerOrderId
  providerFillIds := r.providerFillIds

/-- What `update_intent` writes over the row `r`. -/
def monitored (record r : LiveIntentRecord) : LiveIntentRecord :=
  { r with
    providerOrderId := r.providerOrderId.or record.providerOrderId
    state := record.state
    filledQty := record.filledQty
    avgPrice := record.avgPrice
    fee := record.fee
    providerFillIds := record.providerFillIds }

end LiveIntentRecord

/-! ## The reading of one intent -/

/-- The state a missing detail implies. -/
def LiveOrderStatus.missingState : LiveOrderStatus → IntentState
  | .filled => .filled
  | .partiallyFilled => .partiallyFilled
  | .rejected => .rejected
  | _ => .unknown

/-- The intent after a reading without a detail. -/
def LiveIntentRecord.reconciledMissing (intent : LiveIntentRecord) (outcome : AsyncExecutionResult) :
    LiveIntentRecord :=
  { intent with
    filledQty := outcome.filledQty
    avgPrice := outcome.avgPrice
    fee := outcome.fee
    providerFillIds := outcome.providerFillIds
    providerFills := outcome.providerFills
    providerOrderId := textOr outcome.providerOrderId intent.providerOrderId
    state := outcome.status.missingState }

/-- The state a detail implies with the quantity its fills sum to. -/
def detailState (d : OrderDetail) (fills : List ProviderFill) (filledQty : ℚ) : IntentState :=
  match classifyLiveOrder d fills with
  | .accepted => .acknowledged
  | .partiallyFilled => .partiallyFilled
  | .filled => if filledQty ≤ 0 then .unknown else .filled
  | .rejected => .rejected
  | .unknown => .unknown

/-- The intent after a reading with a detail. -/
def LiveIntentRecord.reconciledFound (intent : LiveIntentRecord) (d : OrderDetail)
    (fills : List ProviderFill) : LiveIntentRecord :=
  let orderId := (d.orderId.or d.providerOrderId).or intent.providerOrderId
  let fills := matchingFills fills intent.clientOid orderId
  let summary := summarizeFills fills
  { intent with
    filledQty := summary.quantity
    avgPrice := summary.avgPrice
    fee := summary.fee
    providerFillIds := summary.fillIds
    providerFills := fills
    providerOrderId := orderId
    state := detailState d fills summary.quantity }

/-- The venue says that the order cannot be found. -/
def DetailAnswer.missing : DetailAnswer → Bool
  | .notFound => true
  | _ => false

theorem LiveIntentRecord.state_reconciledFound (intent : LiveIntentRecord) (d : OrderDetail)
    (fills : List ProviderFill) : ∃ fills' : List ProviderFill,
      (intent.reconciledFound d fills).state =
        detailState d fills' (summarizeFills fills').quantity := by
  refine ⟨matchingFills fills intent.clientOid
    ((d.orderId.or d.providerOrderId).or intent.providerOrderId), ?_⟩
  dsimp only [reconciledFound]

/-- `reconcile_unknown_intent`, none where it raises. -/
def reconcileUnknownIntent (intent : LiveIntentRecord) (reading : OrderReading) :
    Option LiveIntentRecord :=
  match reading.detail with
  | .failed | .malformed => none
  | .notFound =>
    (classifyMissingDetail intent reading intent.providerOrderId true).map intent.reconciledMissing
  | .empty =>
    (classifyMissingDetail intent reading intent.providerOrderId false).map intent.reconciledMissing
  | .found d =>
    match reading.fills with
    | .page fills _ => some (intent.reconciledFound d fills)
    | _ => none

section Reading

variable {intent record : LiveIntentRecord} {reading : OrderReading}

/-- A reading ends without a detail, or with one and a page of fills. -/
theorem reconcileUnknownIntent_some (h : reconcileUnknownIntent intent reading = some record) :
    (∃ outcome, classifyMissingDetail intent reading intent.providerOrderId
        reading.detail.missing = some outcome ∧ record = intent.reconciledMissing outcome) ∨
      ∃ d fills more, reading.detail = .found d ∧ reading.fills = .page fills more ∧
        record = intent.reconciledFound d fills := by
  unfold reconcileUnknownIntent at h
  split at h
  · cases h
  · cases h
  next hd =>
    obtain ⟨outcome, ho, rfl⟩ := Option.map_eq_some_iff.mp h
    exact Or.inl ⟨outcome, by rw [hd]; exact ho, rfl⟩
  next hd =>
    obtain ⟨outcome, ho, rfl⟩ := Option.map_eq_some_iff.mp h
    exact Or.inl ⟨outcome, by rw [hd]; exact ho, rfl⟩
  next d hd =>
    split at h
    next fills more hf =>
      obtain rfl := Option.some.inj h
      exact Or.inr ⟨d, fills, more, hd, hf, rfl⟩
    · cases h

theorem clientOid_of_reconcileUnknownIntent
    (h : reconcileUnknownIntent intent reading = some record) :
    record.clientOid = intent.clientOid := by
  rcases reconcileUnknownIntent_some h with ⟨_, -, rfl⟩ | ⟨_, _, _, -, -, rfl⟩ <;> rfl

/-- No reading implies that an intent is staged or requested. -/
theorem state_of_reconcileUnknownIntent (h : reconcileUnknownIntent intent reading = some record) :
    record.state ≠ .staged ∧ record.state ≠ .requested := by
  rcases reconcileUnknownIntent_some h with ⟨outcome, -, rfl⟩ | ⟨d, fills, _, -, -, rfl⟩
  · have hstate : (intent.reconciledMissing outcome).state = outcome.status.missingState := rfl
    rw [hstate]
    cases outcome.status <;> simp [LiveOrderStatus.missingState]
  · have hstate : ∀ fills q, detailState d fills q ≠ .staged ∧
        detailState d fills q ≠ .requested := by
      intro fills q
      unfold detailState
      split
      · simp
      · simp
      · split <;> simp
      · simp
      · simp
    obtain ⟨fills', h'⟩ := intent.state_reconciledFound d fills
    rw [h']
    exact hstate _ _

end Reading

/-! ## One cycle -/

namespace Db

variable {db db' : Db} {now : Instant}

/-- `unresolved_intents`. -/
def unresolvedIntents (db : Db) : List LiveIntentRecord :=
  ((db.intents.rows.map LiveIntentRow.record).filter fun r =>
    !db.baselined (.intent r.clientOid) && !r.state.over).map LiveIntentRecord.unresolved

/-- `update_intent`. -/
def updateIntent (now : Instant) (db : Db) (record : LiveIntentRecord) : Except DbError Db :=
  match db.get record.clientOid with
  | none => if record.providerFills = [] then .ok db else .error .foreignKeyViolation
  | some _ =>
    match db.setIntent record.clientOid record.monitored with
    | .error e => .error e
    | .ok db => .ok (db.insertProviderFills now record record.providerFills)

/-- The reading of one intent is written back ; an exception leaves the intent to the next
cycle. -/
def reconcileIntentOf (now : Instant) (reading : OrderReading) (db : Db)
    (intent : LiveIntentRecord) : Db :=
  match reconcileUnknownIntent intent reading with
  | none => db
  | some record =>
    match db.updateIntent now record with
    | .ok db => db
    | .error _ => db

/-- `_reconcile_unresolved_intents`, with the reading of each intent. -/
def reconcileUnresolvedIntents (now : Instant) (readings : String → OrderReading) (db : Db) : Db :=
  db.unresolvedIntents.foldl
    (fun db intent => db.reconcileIntentOf now (readings intent.clientOid) intent) db

/-- A write of the monitor rewrites the row of the client order id, whatever its state. -/
theorem updateIntent_ok {record : LiveIntentRecord} (h : db.updateIntent now record = .ok db') :
    (db.get record.clientOid = none ∧ db' = db) ∨ ∃ r, db.get record.clientOid = some r ∧
      db' = { db with intents := db'.intents, fills := db'.fills } ∧
      ∀ o, db'.get o = if o = record.clientOid then some (record.monitored r) else db.get o := by
  unfold updateIntent at h
  split at h
  next hnone =>
    split at h
    · exact Or.inl ⟨hnone, (Except.ok.inj h).symm⟩
    · cases h
  next r hr =>
    split at h
    · cases h
    next db₁ h₁ =>
      obtain rfl := Except.ok.inj h
      obtain ⟨r', hr', hdb, hget⟩ := get_of_setIntent h₁ fun _ => rfl
      obtain rfl := Option.some.inj (hr.symm.trans hr')
      have hfills := fillsOnly_insertProviderFills now record record.providerFills db₁
      refine Or.inr ⟨r, hr, by rw [hfills, hdb], fun o => ?_⟩
      rw [get_of_fillsOnly hfills, hget o]

/-- What the monitor does for one intent : nothing, or its row is written. -/
theorem reconcileIntentOf_cases (now : Instant) (reading : OrderReading) (db : Db)
    (intent : LiveIntentRecord) :
    db.reconcileIntentOf now reading intent = db ∨
      ∃ record r, reconcileUnknownIntent intent reading = some record ∧
        db.get intent.clientOid = some r ∧
        (∃ w : Db, db.reconcileIntentOf now reading intent =
          { db with intents := w.intents, fills := w.fills }) ∧
        ∀ o, (db.reconcileIntentOf now reading intent).get o =
          if o = intent.clientOid then some (record.monitored r) else db.get o := by
  unfold reconcileIntentOf
  split
  · exact Or.inl rfl
  next record hrec =>
    split
    next db₁ h₁ =>
      rcases updateIntent_ok h₁ with ⟨-, rfl⟩ | ⟨r, hr, hdb, hget⟩
      · exact Or.inl rfl
      · rw [clientOid_of_reconcileUnknownIntent hrec] at hr hget
        exact Or.inr ⟨record, r, hrec, hr, ⟨db₁, hdb⟩, hget⟩
    · exact Or.inl rfl

/-! ### One row through a cycle -/

variable {readings : String → OrderReading} {oid : String} {r : LiveIntentRecord}

theorem get_reconcileIntentOf_of_ne {intent : LiveIntentRecord} {reading : OrderReading}
    (hne : oid ≠ intent.clientOid) : (db.reconcileIntentOf now reading intent).get oid = db.get oid := by
  rcases reconcileIntentOf_cases now reading db intent with h | ⟨_, _, -, -, -, hget⟩
  · rw [h]
  · rw [hget, if_neg hne]

theorem get_foldl_reconcile (now : Instant) (readings : String → OrderReading) (db : Db)
    (intents : List LiveIntentRecord) (h : oid ∉ intents.map (·.clientOid)) :
    (intents.foldl (fun db intent => db.reconcileIntentOf now (readings intent.clientOid) intent)
      db).get oid = db.get oid := by
  induction intents generalizing db with
  | nil => rfl
  | cons intent intents ih =>
    simp only [List.map_cons, List.mem_cons, not_or] at h
    rw [List.foldl_cons, ih _ h.2, get_reconcileIntentOf_of_ne h.1]

/-- The cycle reads and writes the row of an unresolved intent once. -/
theorem get_reconcileUnresolvedIntents (now : Instant) (readings : String → OrderReading)
    (hr : db.get oid = some r) (hopen : r.state.over = false)
    (hbase : db.baselined (.intent oid) = false) :
    ∃ db₁ : Db, db₁.get oid = some r ∧ (db.reconcileUnresolvedIntents now readings).get oid =
      (db₁.reconcileIntentOf now (readings oid) r.unresolved).get oid := by
  have hoid : r.clientOid = oid := clientOid_of_get hr
  obtain ⟨row, hrow, rfl, -⟩ := get_eq_some_iff.mp hr
  -- the rows before and after it are of other client order ids
  obtain ⟨as, bs, hrows⟩ := List.append_of_mem (Table.mem_iff.mp hrow)
  have hpair := db.intents.unique
  rw [hrows, List.pairwise_append, List.pairwise_cons] at hpair
  obtain ⟨-, ⟨hafter, -⟩, hbefore⟩ := hpair
  have hkeep : ∀ x : LiveIntentRow, ¬ LiveIntentRow.Conflict x row ∨ ¬ LiveIntentRow.Conflict row x →
      x.record.clientOid ≠ oid := by
    rintro x (h | h) heq
    · exact h (LiveIntentRow.conflict_of_clientOid (heq.trans hoid.symm))
    · exact h (LiveIntentRow.conflict_of_clientOid (hoid.trans heq.symm))
  let keep : LiveIntentRecord → Bool := fun r =>
    !db.baselined (.intent r.clientOid) && !r.state.over
  have hlist : db.unresolvedIntents =
      (((as.map LiveIntentRow.record).filter keep).map LiveIntentRecord.unresolved) ++
        row.record.unresolved ::
          (((bs.map LiveIntentRow.record).filter keep).map LiveIntentRecord.unresolved) := by
    have hself : keep row.record = true := by
      simp [keep, hoid, hbase, hopen]
    change ((db.intents.rows.map LiveIntentRow.record).filter keep).map
      LiveIntentRecord.unresolved = _
    rw [hrows]
    simp [hself]
  have hnot : ∀ xs : List LiveIntentRow, (∀ x ∈ xs, x.record.clientOid ≠ oid) →
      oid ∉ (((xs.map LiveIntentRow.record).filter keep).map LiveIntentRecord.unresolved).map
        (·.clientOid) := by
    intro xs hxs hmem
    simp only [List.map_map, List.mem_map, List.mem_filter, Function.comp_apply] at hmem
    obtain ⟨_, ⟨⟨x, hx, rfl⟩, -⟩, heq⟩ := hmem
    exact hxs x hx heq
  have has := hnot as fun x hx => hkeep x (Or.inl (hbefore x hx row List.mem_cons_self))
  have hbs := hnot bs fun x hx => hkeep x (Or.inr (hafter x hx))
  have hprefix := get_foldl_reconcile now readings db _ has
  refine ⟨_, hprefix.trans hr, ?_⟩
  unfold reconcileUnresolvedIntents
  rw [hlist, List.foldl_append, List.foldl_cons, get_foldl_reconcile _ _ _ _ hbs]
  have hkey : row.record.unresolved.clientOid = oid := hoid
  rw [hkey]

/-- The cycle passes over an intent that is over, or that a baseline retired. -/
theorem get_reconcileUnresolvedIntents_of_not (hr : db.get oid = some r)
    (hnot : r.state.over = true ∨ db.baselined (.intent oid) = true) :
    (db.reconcileUnresolvedIntents now readings).get oid = some r := by
  refine (get_foldl_reconcile _ _ _ _ fun hmem => ?_).trans hr
  simp only [unresolvedIntents, List.map_map, List.mem_map, List.mem_filter,
    Function.comp_apply] at hmem
  obtain ⟨x, ⟨⟨row, hrow, rfl⟩, hkeep⟩, heq⟩ := hmem
  have hx : db.get oid = some row.record := get_eq_some_iff.mpr ⟨row, hrow, rfl, heq⟩
  obtain rfl := Option.some.inj (hr.symm.trans hx)
  obtain rfl : row.record.clientOid = oid := heq
  rcases hnot with h | h <;> simp [h] at hkeep

end Db

end FattyTrader
