import FattyTrader.IntentMonitor
import FattyTrader.Runs

/-!
# Close orders

A close is sent in three ways : `close_position` and `close_reduce_only` of the gateway, and
`_close` of the console. Each records its intent, binds it to the reservation it reduces
(`bindRequestedClose`), and sends one order. A second close of a reservation is bound only when
every other close bound to it is over (`closePending`).

An order the venue refuses with an error code leaves the intent `requested`, for none of the
three handles that exception. What can end it is the monitor, and the monitor calls an order
that cannot be found rejected only where the symbol is flat (`refusedClose_over_iff`).
-/

set_option linter.unusedSectionVars false

open Tables

namespace FattyTrader

open Runs

/-! ## Binding -/

namespace Db

variable {db db' : Db}

/-- The intent is not over. -/
def pendingIntent (db : Db) (clientOid : String) : Bool :=
  (db.get clientOid).any fun r => !r.state.over

/-- Another close bound to the reservation is not over. -/
def closePending (db : Db) (reservationId : Uuid) (closeOid : String) : Bool :=
  db.closeBindings.rows.any fun b =>
    b.reservationId = reservationId && b.closeClientOrderId ≠ closeOid &&
      db.pendingIntent b.closeClientOrderId

/-- A limit leg of the reservation may still fill. -/
def waitingLimit (db : Db) (reservationId : Uuid) : Bool :=
  db.intents.rows.any fun row =>
    row.record.marginReservationId = some reservationId && row.record.entryLeg = some .limit &&
      !row.record.providerTerminal

/-- The entry of the reservation `m` has filled, and the close `x` reduces it. -/
def ownsClose (db : Db) (m : MarginReservation) (x : LiveIntentRow) : Bool :=
  (db.intentRow m.clientOrderId).any fun e =>
    e.record.marginReservationId = some m.id && e.record.role = .entry &&
      (e.record.state = .filled || e.record.state = .reconciled) &&
      e.record.symbol = x.record.symbol && decide (0 < e.record.filledQty) &&
      x.record.side = e.record.side.opposite && decide (e.createdAt ≤ x.createdAt) &&
      decide (m.createdAt ≤ x.createdAt) && !db.baselined (.intent m.clientOrderId)

/-- The rows `bind_requested_close` selects for a requested close. -/
def closeOwners (db : Db) (environment : Environment) (x : LiveIntentRow) :
    List MarginReservation :=
  if x.record.role.closing ∧ x.record.state = .requested ∧ x.record.filledQty = 0 ∧
      ∀ f ∈ db.fills.rows, f.clientOrderId ≠ x.clientOid then
    db.reservations.rows.filter fun m =>
      (m.state = .consumed || m.state = .reserved) &&
        m.owner = some ⟨environment, x.record.symbol⟩ && (db.dispatch m.dispatchId).isSome &&
        db.ownsClose m x && !db.closePending m.id x.clientOid &&
        !db.baselined (.reservation m.id) && !db.baselined (.dispatch m.dispatchId) &&
        !db.waitingLimit m.id
  else []

/-- The binding is inserted, unless the close has one. -/
def bindTo (db : Db) (closeOid : String) (reservationId : Uuid) : Except DbError (Db × Bool) :=
  match db.closeBindings.find CloseBinding.closeClientOrderId closeOid with
  | some b => .ok (db, b.reservationId = reservationId)
  | none =>
    match db.closeBindings.insert ⟨closeOid, reservationId⟩ with
    | none => .error .uniqueViolation
    | some closeBindings => .ok ({ db with closeBindings }, true)

/-- `bind_requested_close`. -/
def bindRequestedClose (db : Db) (environment : Environment) (closeOid : String)
    (expectedRemaining : Option ℚ) : Except DbError (Db × Bool) :=
  match db.intentRow closeOid with
  | none => .ok (db, false)
  | some x =>
    match db.closeOwners environment x with
    | [m] =>
      match db.remainingOwnedQuantity m.clientOrderId with
      | .error _ => .ok (db, false)
      | .ok remaining =>
        if remaining < x.record.requestedQty ∨ expectedRemaining.any (· ≠ remaining) then
          .ok (db, false)
        else db.bindTo closeOid m.id
    | _ => .ok (db, false)

theorem bindTo_frame {closeOid : String} {reservationId : Uuid} {bound : Bool}
    (h : db.bindTo closeOid reservationId = .ok (db', bound)) :
    db' = { db with closeBindings := db'.closeBindings } := by
  unfold bindTo at h
  split at h
  · rw [(Prod.mk.inj (Except.ok.inj h)).1]
  · split at h
    · cases h
    · obtain ⟨rfl, -⟩ := Prod.mk.inj (Except.ok.inj h)
      rfl

/-- Binding writes bindings only. -/
theorem bindRequestedClose_frame {environment : Environment} {closeOid : String}
    {expectedRemaining : Option ℚ} {bound : Bool}
    (h : db.bindRequestedClose environment closeOid expectedRemaining = .ok (db', bound)) :
    db' = { db with closeBindings := db'.closeBindings } := by
  have hsame : ∀ {b : Bool}, (.ok (db, b) : Except DbError (Db × Bool)) = .ok (db', bound) →
      db' = { db with closeBindings := db'.closeBindings } := by
    intro b hb
    rw [← (Prod.mk.inj (Except.ok.inj hb)).1]
  unfold bindRequestedClose at h
  split at h
  · exact hsame h
  split at h
  · split at h
    · exact hsame h
    · split at h
      · exact hsame h
      · exact bindTo_frame h
  · exact hsame h

end Db

/-! ## Sending a close -/

/-- How the venue answers the order of a close. -/
inductive CloseAnswer
  | acknowledged (orderId : Option String)
  | refused
  | unknown
  | malformed

/-- A close : its client order id and what it reduces. -/
structure CloseOrder where
  environment : Environment
  clientOid : String
  symbol : String
  side : Side
  quantity : ℚ
deriving DecidableEq

def CloseOrder.intent (q : CloseOrder) : LiveIntentRecord where
  clientOid := q.clientOid
  symbol := q.symbol
  side := q.side
  role := .close
  requestedQty := q.quantity

/-- How a close ends : an exception of the store or of the venue, no order at all, or an order
whose answer is recorded. -/
inductive CloseEnd
  | failed (e : DbError)
  | raised
  | notSent
  | recorded
deriving DecidableEq

/-- The intent is written, and the close ends. -/
def Db.recordAnswer (now : Instant) (db : Db) (record : LiveIntentRecord) : Db × CloseEnd :=
  match db.update now record with
  | .error e => (db, .failed e)
  | .ok db => (db, .recorded)

/-- What the gateway does with an answer that is no acknowledgement. -/
def Db.answered (now : Instant) (db : Db) (q : CloseOrder)
    (acknowledged : Option String → Db × CloseEnd) : CloseAnswer → Db × CloseEnd
  | .refused => (db, .raised)
  | .unknown | .malformed => db.recordAnswer now { q.intent with state := .unknown }
  | .acknowledged orderId => acknowledged orderId

/-- The gateway's `close_position`, once the position is known. `flat` is its reading after the
acknowledgement. The result of the binding is not asked for. -/
def Db.closePosition (now : Instant) (db : Db) (q : CloseOrder) (answer : CloseAnswer)
    (flat : Bool) : Db × CloseEnd :=
  match db.claim now q.intent with
  | .error e => (db, .failed e)
  | .ok (db, _) =>
    match db.bindRequestedClose q.environment q.clientOid none with
    | .error e => (db, .failed e)
    | .ok (db, _) =>
      db.answered now q (fun orderId =>
        match db.update now { q.intent with providerOrderId := orderId } with
        | .error e => (db, .failed e)
        | .ok db =>
          if flat then
            db.recordAnswer now
              { q.intent with
                providerOrderId := orderId
                state := .reconciled
                filledQty := q.quantity }
          else (db, .recorded)) answer

/-- The gateway's `close_reduce_only`. -/
def Db.closeReduceOnly (now : Instant) (db : Db) (q : CloseOrder) (answer : CloseAnswer) :
    Db × CloseEnd :=
  match db.get q.clientOid with
  | some _ => (db, .notSent)
  | none =>
    match db.claim now q.intent with
    | .error e => (db, .failed e)
    | .ok (db, _) =>
      match db.bindRequestedClose q.environment q.clientOid none with
      | .error e => (db, .failed e)
      | .ok (db, false) => (db, .notSent)
      | .ok (db, true) =>
        db.answered now q (fun orderId =>
          db.recordAnswer now
            { q.intent with providerOrderId := orderId, state := .submitted }) answer

/-- `_close` of the console : the intent and its binding are one transaction. An unknown
result is not handled either. -/
def Db.consoleClose (now : Instant) (db : Db) (q : CloseOrder) (remaining : ℚ)
    (answer : CloseAnswer) : Db × CloseEnd :=
  match db.get q.clientOid with
  | some _ => (db, .notSent)
  | none =>
    match db.insertIntent now q.intent with
    | .error e => (db, .failed e)
    | .ok (_, false) => (db, .notSent)
    | .ok (db₁, true) =>
      match db₁.bindRequestedClose q.environment q.clientOid (some remaining) with
      | .error e => (db, .failed e)
      | .ok (_, false) => (db, .notSent)
      | .ok (db₂, true) =>
        match answer with
        | .refused | .unknown => (db₂, .raised)
        | .malformed => db₂.recordAnswer now { q.intent with state := .unknown }
        | .acknowledged orderId =>
          db₂.recordAnswer now
            { q.intent with
              providerOrderId := orderId
              state := if orderId.isSome then .submitted else .unknown }

/-- The three ways to send a close. -/
inductive ClosePath
  | position (flat : Bool)
  | reduceOnly
  | console (remaining : ℚ)

def ClosePath.send (now : Instant) (db : Db) (q : CloseOrder) (answer : CloseAnswer) :
    ClosePath → Db × CloseEnd
  | .position flat => db.closePosition now q answer flat
  | .reduceOnly => db.closeReduceOnly now q answer
  | .console remaining => db.consoleClose now q remaining answer

/-! ## A refused close -/

section Refused

variable {now : Instant} {db db' : Db} {q : CloseOrder} {path : ClosePath}

theorem get_of_claimed {won bound : Bool} {db₁ db₂ : Db} {remaining : Option ℚ}
    (hfresh : db.get q.clientOid = none) (hclaim : db.insertIntent now q.intent = .ok (db₁, won))
    (hbind : db₁.bindRequestedClose q.environment q.clientOid remaining = .ok (db₂, bound)) :
    db₂.get q.clientOid = some q.intent.inserted := by
  have hget₂ : db₂.get q.clientOid = db₁.get q.clientOid := by
    rw [Db.bindRequestedClose_frame hbind]
    rfl
  rcases Db.insertIntent_ok hclaim with ⟨-, -, hne⟩ | ⟨-, -, -, -, hget⟩
  · exact absurd hfresh hne
  · rw [hget₂, hget]
    exact if_pos rfl

/-- A refused close leaves its intent as it was recorded. -/
theorem get_of_refused (hfresh : db.get q.clientOid = none)
    (h : path.send now db q .refused = (db', .raised)) :
    db'.get q.clientOid = some q.intent.inserted := by
  cases path with
  | position flat =>
    replace h : db.closePosition now q .refused flat = (db', .raised) := h
    unfold Db.closePosition at h
    split at h
    · cases h
    next db₁ won hclaim =>
      split at h
      · cases h
      next db₂ bound hbind =>
        obtain ⟨rfl, -⟩ := Prod.mk.inj h
        exact get_of_claimed hfresh hclaim hbind
  | reduceOnly =>
    replace h : db.closeReduceOnly now q .refused = (db', .raised) := h
    unfold Db.closeReduceOnly at h
    rw [hfresh] at h
    dsimp only at h
    split at h
    · cases h
    next db₁ won hclaim =>
      split at h
      · cases h
      · cases h
      next db₂ hbind =>
        obtain ⟨rfl, -⟩ := Prod.mk.inj h
        exact get_of_claimed hfresh hclaim hbind
  | console remaining =>
    replace h : db.consoleClose now q remaining .refused = (db', .raised) := h
    unfold Db.consoleClose at h
    rw [hfresh] at h
    dsimp only at h
    split at h
    · cases h
    · cases h
    next db₁ hclaim =>
      split at h
      · cases h
      · cases h
      next db₂ hbind =>
        obtain ⟨rfl, -⟩ := Prod.mk.inj h
        exact get_of_claimed hfresh hclaim hbind

end Refused

/-! ### What the monitor reads of it -/

namespace OrderReading

/-- The venue holds no order of this client order id, and no fill of one. -/
def WithoutOrder (reading : OrderReading) (clientOid : String) : Prop :=
  (∀ d, reading.detail ≠ .found d) ∧
    ∀ fills more, reading.fills = .page fills more → matchingFills fills clientOid none = []

/-- The same of the order of an intent, under either of its ids. -/
def Omits (reading : OrderReading) (intent : LiveIntentRecord) : Prop :=
  (∀ d, reading.detail ≠ .found d) ∧ ∀ fills more, reading.fills = .page fills more →
    matchingFills fills intent.clientOid intent.providerOrderId = []

/-- A reading without the order that can be classified. -/
def classifies (reading : OrderReading) : Bool :=
  match reading.detail with
  | .notFound | .empty => reading.blockFailed || (completeFills reading.fills).isSome
  | _ => false

/-- The order cannot be found, and the symbol is flat without pending orders. -/
def provesAbsent (reading : OrderReading) (symbol : String) : Bool :=
  reading.detail.missing && (completeFills reading.fills).isSome && !reading.blockFailed &&
    flatPosition reading.position symbol && noPendingOrders reading.pending symbol

end OrderReading

section Reading

variable {intent record : LiveIntentRecord} {reading : OrderReading}

/-- Without fills the missing detail of an order decides between rejected and unknown. -/
theorem reconciledMissing_of_noFills (fills : List ProviderFill)
    (complete flat noPending confirmed : Bool)
    (hfills : matchingFills fills intent.clientOid intent.providerOrderId = [])
    (hq : 0 < intent.requestedQty) :
    let record := intent.reconciledMissing
      (missingDetailResult intent intent.providerOrderId confirmed fills complete flat noPending)
    record.filledQty = 0 ∧ record.avgPrice = none ∧
      record.providerOrderId = intent.providerOrderId ∧
      record.state = if flat && noPending && confirmed then .rejected else .unknown := by
  have hzero : summarizeFills ([] : List ProviderFill) = ⟨0, none, 0, []⟩ := by
    simp [summarizeFills]
  simp only [LiveIntentRecord.reconciledMissing, missingDetailResult, hfills, hzero,
    missingDetailStatus, not_le.mpr hq, lt_irrefl, and_false, if_false, decide_true,
    Bool.and_true]
  refine ⟨trivial, trivial, textOr_self _, ?_⟩
  cases complete <;> cases flat <;> cases noPending <;> cases confirmed <;>
    simp [LiveOrderStatus.missingState]

/-- A reading without the order of an intent. -/
theorem reconcileUnknownIntent_of_omits (h : reading.Omits intent) (hq : 0 < intent.requestedQty)
    (hrec : reconcileUnknownIntent intent reading = some record) :
    record.filledQty = 0 ∧ record.avgPrice = none ∧
      record.providerOrderId = intent.providerOrderId ∧
      record.state = if reading.provesAbsent intent.symbol then .rejected else .unknown := by
  rcases reconcileUnknownIntent_some hrec with ⟨outcome, hc, rfl⟩ | ⟨d, _, _, hd, -, -⟩
  · unfold classifyMissingDetail at hc
    dsimp only at hc
    split at hc
    next hblock =>
      obtain rfl := Option.some.inj hc
      simpa [OrderReading.provesAbsent, hblock] using
        reconciledMissing_of_noFills [] false false false reading.detail.missing rfl hq
    next hblock =>
      obtain ⟨⟨fills, complete⟩, hfills, rfl⟩ := Option.map_eq_some_iff.mp hc
      have hmatch : matchingFills fills intent.clientOid intent.providerOrderId = [] := by
        cases hr : reading.fills with
        | page fills' more =>
          rw [hr] at hfills
          obtain ⟨rfl, -⟩ := Prod.mk.inj (Option.some.inj hfills)
          exact h.2 _ _ hr
        | badRows => rw [hr] at hfills; cases hfills
        | failed | malformed =>
          rw [hr] at hfills
          obtain ⟨rfl, -⟩ := Prod.mk.inj (Option.some.inj hfills)
          rfl
      have habsent : reading.provesAbsent intent.symbol =
          (flatPosition reading.position intent.symbol &&
            noPendingOrders reading.pending intent.symbol && reading.detail.missing) := by
        simp only [OrderReading.provesAbsent, hfills, hblock, Option.isSome_some, Bool.and_true,
          Bool.not_false, Bool.and_assoc]
        rw [Bool.and_comm, Bool.and_assoc]
      rw [habsent]
      exact reconciledMissing_of_noFills fills complete _ _ _ hmatch hq
  · exact absurd hd (h.1 d)

/-- A reading of an order that does not exist. -/
theorem reconcileUnknownIntent_of_withoutOrder (h : reading.WithoutOrder intent.clientOid)
    (horder : intent.providerOrderId = none) (hq : 0 < intent.requestedQty)
    (hrec : reconcileUnknownIntent intent reading = some record) :
    record.filledQty = 0 ∧ record.avgPrice = none ∧ record.providerOrderId = none ∧
      record.state = if reading.provesAbsent intent.symbol then .rejected else .unknown := by
  have homits : reading.Omits intent := ⟨h.1, by rw [horder]; exact h.2⟩
  rw [← horder]
  exact reconcileUnknownIntent_of_omits homits hq hrec

/-- A reading without the order is one unless a row of the fills is no object. -/
theorem reconcileUnknownIntent_isSome_of_omits (h : reading.Omits intent) :
    (reconcileUnknownIntent intent reading).isSome = reading.classifies := by
  unfold reconcileUnknownIntent OrderReading.classifies
  cases hd : reading.detail with
  | found d => exact absurd hd (h.1 d)
  | failed | malformed => rfl
  | notFound | empty =>
    dsimp only
    unfold classifyMissingDetail
    cases hblock : reading.blockFailed <;> simp

/-- A reading that proves the absence of an order is a reading. -/
theorem reconcileUnknownIntent_isSome {symbol : String} (h : reading.provesAbsent symbol) :
    (reconcileUnknownIntent intent reading).isSome := by
  simp only [OrderReading.provesAbsent, Bool.and_eq_true, Bool.not_eq_true'] at h
  obtain ⟨⟨⟨⟨hmissing, hfills⟩, hblock⟩, -⟩, -⟩ := h
  have hd : reading.detail = .notFound := by
    cases hd : reading.detail <;> simp_all [DetailAnswer.missing]
  simp [reconcileUnknownIntent, hd, classifyMissingDetail, hblock, hfills]

end Reading

/-! ### Cycles of the monitor -/

/-- A cycle of the monitor, with its reading of each intent, or a transaction that leaves the
row of the close as it is. -/
inductive CloseLabel
  | cycle (now : Instant) (readings : String → OrderReading)
  | others (w : Db)

def closeStep (clientOid : String) (db : Db) : CloseLabel → Db
  | .cycle now readings => db.reconcileUnresolvedIntents now readings
  | .others w => if w.get clientOid = db.get clientOid then w else db

/-- A cycle that reads the close as an order that is not there, on a flat symbol. -/
def ProvesAbsent (clientOid symbol : String) (p : Db × CloseLabel) : Prop :=
  ∃ now readings, p.2 = .cycle now readings ∧ p.1.baselined (.intent clientOid) = false ∧
    (readings clientOid).provesAbsent symbol

/-- The close was refused, and nothing has found that out yet. -/
def Unsettled (clientOid symbol : String) (db : Db) : Prop :=
  ∃ r, db.get clientOid = some r ∧ r.symbol = symbol ∧ r.providerOrderId = none ∧
    r.marginReservationId = none ∧ r.state.over = false

section Cycles

variable {clientOid symbol : String} {db : Db} {l : CloseLabel}

/-- A reading of a refused close is written back, and makes it rejected or unknown. -/
theorem reconcileIntentOf_withoutOrder {r : LiveIntentRecord} {reading : OrderReading}
    (now : Instant) (hr : db.get clientOid = some r) (horder : r.providerOrderId = none)
    (hmargin : r.marginReservationId = none) (h : reading.WithoutOrder clientOid) :
    ∃ r', (db.reconcileIntentOf now reading r.unresolved).get clientOid = some r' ∧
      r'.symbol = r.symbol ∧ r'.providerOrderId = none ∧ r'.marginReservationId = none ∧
      (reading.provesAbsent r.symbol = true → r'.state = .rejected) ∧
      (reading.provesAbsent r.symbol = false → r'.state = .unknown ∨ r'.state = r.state) := by
  obtain rfl : r.clientOid = clientOid := Db.clientOid_of_get hr
  have hchecked := Db.checked_of_get hr
  unfold Db.reconcileIntentOf
  split
  next hnone =>
    refine ⟨r, hr, rfl, horder, hmargin, fun habsent => ?_, fun _ => Or.inr rfl⟩
    have hsome : (reconcileUnknownIntent r.unresolved reading).isSome :=
      reconcileUnknownIntent_isSome habsent
    simp [hnone] at hsome
  next record hrec =>
    have h' : reading.WithoutOrder r.unresolved.clientOid := h
    obtain ⟨hqty, hprice, hoid, hstate⟩ :=
      reconcileUnknownIntent_of_withoutOrder h' horder hchecked.requested_pos hrec
    have hkey : record.clientOid = r.unresolved.clientOid :=
      clientOid_of_reconcileUnknownIntent hrec
    replace hkey : record.clientOid = r.clientOid := hkey
    have hwritten : (record.monitored r).Checked := by
      refine ⟨hchecked.requested_pos, ?_, ?_, Or.inl hmargin⟩
      · simp [LiveIntentRecord.monitored, hqty]
      · simp [LiveIntentRecord.monitored, hprice]
    obtain ⟨db₁, h₁⟩ := Db.setIntent_isOk hr hwritten rfl (by
      simp [LiveIntentRecord.monitored, horder, hoid])
    obtain ⟨db₂, h₂⟩ : ∃ db₂, db.updateIntent now record = .ok db₂ := by
      simp [Db.updateIntent, hkey, hr, h₁]
    rw [h₂]
    dsimp only
    rcases Db.updateIntent_ok h₂ with ⟨hnone, -⟩ | ⟨r', hr', -, hget⟩
    · rw [hkey, hr] at hnone
      cases hnone
    · rw [hkey] at hr' hget
      obtain rfl := Option.some.inj (hr.symm.trans hr')
      refine ⟨record.monitored r, by rw [hget, if_pos rfl], rfl, ?_, hmargin, ?_, ?_⟩
      · simp [LiveIntentRecord.monitored, horder, hoid]
      · intro habsent
        exact hstate.trans (if_pos habsent)
      · intro habsent
        refine Or.inl (hstate.trans (if_neg ?_))
        exact (Bool.eq_false_iff.mp habsent)

/-- The row of the close after a cycle that reads it, or passes over it. -/
theorem get_of_cycle {r : LiveIntentRecord} (now : Instant) {readings : String → OrderReading}
    (hr : db.get clientOid = some r) (horder : r.providerOrderId = none)
    (hmargin : r.marginReservationId = none) (hopen : r.state.over = false)
    (h : (readings clientOid).WithoutOrder clientOid) :
    ∃ r', (db.reconcileUnresolvedIntents now readings).get clientOid = some r' ∧
      r'.symbol = r.symbol ∧ r'.providerOrderId = none ∧ r'.marginReservationId = none ∧
      r'.state.over = (!db.baselined (.intent clientOid) &&
        (readings clientOid).provesAbsent r.symbol) := by
  cases hbase : db.baselined (.intent clientOid) with
  | true =>
    exact ⟨r, Db.get_reconcileUnresolvedIntents_of_not hr (Or.inr hbase), rfl, horder, hmargin,
      by simpa using hopen⟩
  | false =>
    obtain ⟨db₁, hr₁, hcycle⟩ := Db.get_reconcileUnresolvedIntents now readings hr hopen hbase
    obtain ⟨r', hr', hsymbol, horder', hmargin', hover, hstay⟩ :=
      reconcileIntentOf_withoutOrder now hr₁ horder hmargin h
    refine ⟨r', hcycle.trans hr', hsymbol, horder', hmargin', ?_⟩
    cases habsent : (readings clientOid).provesAbsent r.symbol with
    | true => simp [hover habsent, IntentState.over]
    | false =>
      rcases hstay habsent with hstate | hstate
      · simp [hstate, IntentState.over]
      · simp [hstate, hopen]

/-- An intent that is over stays so. -/
theorem over_step (h : db.pendingIntent clientOid = false) (hsome : (db.get clientOid).isSome) :
    (closeStep clientOid db l).pendingIntent clientOid = false ∧
      ((closeStep clientOid db l).get clientOid).isSome := by
  obtain ⟨r, hr⟩ := Option.isSome_iff_exists.mp hsome
  have hkept : (closeStep clientOid db l).get clientOid = some r := by
    cases l with
    | cycle now readings =>
      refine Db.get_reconcileUnresolvedIntents_of_not hr (Or.inl ?_)
      simpa [Db.pendingIntent, hr] using h
    | others w =>
      dsimp only [closeStep]
      split
      next heq => exact heq.trans hr
      · exact hr
  exact ⟨by simpa [Db.pendingIntent, hkept, hr] using h, by simp [hkept]⟩

theorem over_exec {ls : List CloseLabel} (h : db.pendingIntent clientOid = false)
    (hsome : (db.get clientOid).isSome) :
    (exec (closeStep clientOid) db ls).pendingIntent clientOid = false := by
  induction ls generalizing db with
  | nil => exact h
  | cons l ls ih =>
    obtain ⟨h', hsome'⟩ := over_step (l := l) h hsome
    exact ih h' hsome'

/-- One step ends a refused close exactly when it proves the absence of the order. -/
theorem unsettled_step (h : Unsettled clientOid symbol db)
    (hl : ∀ now readings, l = .cycle now readings →
      (readings clientOid).WithoutOrder clientOid) :
    (ProvesAbsent clientOid symbol (db, l) ∧
        (closeStep clientOid db l).pendingIntent clientOid = false ∧
        ((closeStep clientOid db l).get clientOid).isSome) ∨
      (¬ ProvesAbsent clientOid symbol (db, l) ∧ Unsettled clientOid symbol (closeStep clientOid db l)) := by
  obtain ⟨r, hr, rfl, horder, hmargin, hopen⟩ := h
  cases l with
  | cycle now readings =>
    obtain ⟨r', hr', hsymbol, horder', hmargin', hover⟩ :=
      get_of_cycle now hr horder hmargin hopen (hl now readings rfl)
    by_cases hproves : ProvesAbsent clientOid r.symbol (db, .cycle now readings)
    · obtain ⟨now', readings', heq, hbase, habsent⟩ := hproves
      obtain ⟨rfl, rfl⟩ := CloseLabel.cycle.inj heq
      rw [hbase, habsent] at hover
      refine Or.inl ⟨⟨now, readings, rfl, hbase, habsent⟩, ?_, ?_⟩
      · simp [Db.pendingIntent, closeStep, hr', hover]
      · simp [closeStep, hr']
    · refine Or.inr ⟨hproves, r', hr', hsymbol, horder', hmargin', ?_⟩
      rw [hover, Bool.and_eq_false_iff]
      by_contra hno
      simp only [not_or, Bool.not_eq_false, Bool.not_eq_true'] at hno
      exact hproves ⟨now, readings, rfl, hno.1, hno.2⟩
  | others w =>
    have hno : ¬ ProvesAbsent clientOid r.symbol (db, .others w) := by
      rintro ⟨_, _, heq, -⟩
      cases heq
    refine Or.inr ⟨hno, r, ?_, rfl, horder, hmargin, hopen⟩
    dsimp only [closeStep]
    split
    next heq => exact heq.trans hr
    · exact hr

/-- A refused close ends exactly with a cycle that proves the absence of its order. -/
theorem unsettled_exec {ls : List CloseLabel} (h : Unsettled clientOid symbol db)
    (hls : ∀ now readings, .cycle now readings ∈ ls →
      (readings clientOid).WithoutOrder clientOid) :
    (exec (closeStep clientOid) db ls).pendingIntent clientOid = false ↔
      ∃ p ∈ visits (closeStep clientOid) db ls, ProvesAbsent clientOid symbol p := by
  induction ls generalizing db with
  | nil =>
    obtain ⟨r, hr, -, -, -, hopen⟩ := h
    simp [visits, Db.pendingIntent, hr, hopen]
  | cons l ls ih =>
    have htail : ∀ now readings, .cycle now readings ∈ ls →
        (readings clientOid).WithoutOrder clientOid :=
      fun now readings hmem => hls now readings (List.mem_cons_of_mem _ hmem)
    rw [exec_cons]
    rcases unsettled_step h (l := l) (fun now readings heq =>
        hls now readings (heq ▸ List.mem_cons_self)) with ⟨hproves, hover, hsome⟩ | ⟨hno, h'⟩
    · exact iff_of_true (over_exec hover hsome) ⟨(db, l), List.mem_cons_self, hproves⟩
    · rw [ih h' htail]
      simp [visits, hno]

end Cycles

/-- After a close is refused, on whichever way it was sent, it stops counting as pending exactly
when a cycle of the monitor reads its symbol flat and without pending orders. -/
theorem refusedClose_over_iff {now : Instant} {db db' : Db} {q : CloseOrder} {path : ClosePath}
    {ls : List CloseLabel} (hfresh : db.get q.clientOid = none)
    (hsent : path.send now db q .refused = (db', .raised))
    (hls : ∀ now readings, .cycle now readings ∈ ls →
      (readings q.clientOid).WithoutOrder q.clientOid) :
    (exec (closeStep q.clientOid) db' ls).pendingIntent q.clientOid = false ↔
      ∃ p ∈ visits (closeStep q.clientOid) db' ls, ProvesAbsent q.clientOid q.symbol p :=
  unsettled_exec ⟨_, get_of_refused hfresh hsent, rfl, rfl, rfl, rfl⟩ hls

/-! ### A close refused while the position stays open -/

/-- A filled entry of 3 under its consumed reservation. -/
def filledEntry : Db where
  dispatches :=
    ⟨[⟨1, .filled, "BTCUSDT", .long, 100, none, none, .market, none, none, 0, none⟩], by decide⟩
  reservations :=
    ⟨[{ id := 7
        dispatchId := 1
        clientOrderId := "entry"
        balanceSnapshotId := 5
        plannedMarginUsdt := 30
        owner := some ⟨.live, "BTCUSDT"⟩
        legacyBindingSymbol := none
        state := .consumed
        hasExposure := true
        createdAt := 0
        expiresAt := 1000
        resolvedAt := none
        resolutionReason := none
        planned_pos := by decide }], by decide⟩
  intents :=
    ⟨[{ record :=
          { clientOid := "entry"
            symbol := "BTCUSDT"
            side := .buy
            state := .filled
            requestedQty := 3
            filledQty := 3
            avgPrice := some 100
            plannedMarginUsdt := some 30
            balanceSnapshotId := some 5
            marginReservationId := some 7 }
        createdAt := 0
        checked := by decide }], by decide⟩

def firstClose : CloseOrder := ⟨.live, "close-1", "BTCUSDT", .sell, 3⟩

def secondClose : CloseOrder := ⟨.live, "close-2", "BTCUSDT", .sell, 3⟩

/-- What the venue answers about an order it refused, while it lists a position of `quantity`. -/
def refusedReading (quantity : ℚ) : OrderReading where
  detail := .notFound
  fills := .page [] false
  position := .rows [some ⟨some "BTCUSDT", some (.finite quantity)⟩]
  pending := .rows []

theorem refusedReading_withoutOrder (quantity : ℚ) (clientOid : String) :
    (refusedReading quantity).WithoutOrder clientOid := by
  refine ⟨fun d h => DetailAnswer.noConfusion h, fun fills more h => ?_⟩
  obtain ⟨rfl, -⟩ := FillsAnswer.page.inj h
  rfl

/-- The ledger after the first close was refused. -/
def firstCloseRefused : Db := (ClosePath.reduceOnly.send 10 filledEntry firstClose .refused).1

theorem firstClose_raised :
    ClosePath.reduceOnly.send 10 filledEntry firstClose .refused = (firstCloseRefused, .raised) :=
  Prod.ext rfl (by decide +kernel)

/-- With the position still open the refused close is pending after the cycle, and the next
close of the position is not sent. -/
theorem refusedClose_blocks :
    let db := exec (closeStep "close-1") firstCloseRefused [.cycle 20 fun _ => refusedReading 3]
    firstCloseRefused.closeBindings.rows = [⟨"close-1", 7⟩] ∧ db.pendingIntent "close-1" = true ∧
      (ClosePath.reduceOnly.send 30 db secondClose (.acknowledged (some "order"))).2 = .notSent := by
  decide +kernel

/-- A cycle that reads the symbol flat ends it. -/
theorem refusedClose_over_when_flat :
    (exec (closeStep "close-1") firstCloseRefused
      [.cycle 20 fun _ => refusedReading 0]).pendingIntent "close-1" = false := by
  refine (refusedClose_over_iff (q := firstClose) (by decide +kernel) firstClose_raised
    fun now readings hmem => ?_).mpr ?_
  · obtain ⟨-, rfl⟩ := CloseLabel.cycle.inj (List.mem_singleton.mp hmem)
    exact refusedReading_withoutOrder 0 _
  · exact ⟨_, List.mem_cons_self, 20, fun _ => refusedReading 0, rfl, by decide +kernel,
      by decide +kernel⟩

end FattyTrader
