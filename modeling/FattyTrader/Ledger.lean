import FattyTrader.Tables
import Mathlib.Data.List.DropRight
import Mathlib.Data.Rat.Defs
import Mathlib.Algebra.Order.Ring.Unbundled.Rat

/-!
# The durable ledger of the Bitget lane

The tables the entry path and its recovery read and write : dispatches, balance
snapshots, margin reservations, live order intents, fills, the bindings of close
orders to reservations, and the records an audited baseline retired. Every row is a
row of the exchange `bitget`, so the `exchange` columns are left out.

The constraints of the schema are part of the types. A `CHECK` on one row is a field
of the row (`MarginReservation.planned_pos`, `LiveIntentRow.filled_nonneg`), and the
check that `symbol` and `environment` of a reservation are null together makes them one
optional `Owner`. A unique constraint or a partial unique index is a conflict between
two rows (`MarginReservation.Conflict`), and the table carries the proof that no two of
its rows conflict.

Quantities and prices are exact rationals. A `Decimal` read from a caller may also be a
NaN or an infinity (`Decimal.nonFinite`).
-/

set_option linter.unusedSectionVars false

open Tables

namespace FattyTrader

/-! ## Scalars -/

abbrev Uuid := ℕ

/-- Microseconds since the epoch. -/
abbrev Instant := ℤ

/-- White space, as `str.strip` has it. -/
def isSpace (c : Char) : Bool :=
  let n := c.toNat
  (9 ≤ n && n ≤ 13) || (28 ≤ n && n ≤ 32) || n == 0x85 || n == 0xa0 || n == 0x1680 ||
    (0x2000 ≤ n && n ≤ 0x200a) || n == 0x2028 || n == 0x2029 || n == 0x202f || n == 0x205f ||
    n == 0x3000

def strip (s : String) : String :=
  String.ofList ((s.toList.dropWhile isSpace).rdropWhile isSpace)

/-- A Python `Decimal` : a finite number, or a NaN or an infinity. -/
inductive Decimal
  | finite (value : ℚ)
  | nonFinite
deriving DecidableEq

/-- The value, when it is finite and greater than zero. -/
def Decimal.positive : Decimal → Option ℚ
  | .finite q => if 0 < q then some q else none
  | .nonFinite => none

theorem Decimal.positive_eq_some {d : Decimal} {q : ℚ} (h : d.positive = some q) :
    d = .finite q ∧ 0 < q := by
  cases d with
  | finite p =>
    simp only [Decimal.positive, Option.ite_none_right_eq_some, Option.some.injEq] at h
    exact ⟨by rw [h.2], h.2 ▸ h.1⟩
  | nonFinite => simp [Decimal.positive] at h

inductive Environment
  | demo
  | live
deriving DecidableEq

inductive Side
  | buy
  | sell
deriving DecidableEq

/-- The text of a side. -/
def Side.text : Side → String
  | .buy => "BUY"
  | .sell => "SELL"

def Side.opposite : Side → Side
  | .buy => .sell
  | .sell => .buy

inductive Direction
  | long
  | short
deriving DecidableEq

def Direction.side : Direction → Side
  | .long => .buy
  | .short => .sell

inductive OrderType
  | market
  | limit
deriving DecidableEq

inductive MarginMode
  | isolated
  | cross
deriving DecidableEq

/-! ## Dispatches -/

inductive DispatchState
  | queued
  | preflight
  | sized
  | validated
  | submitting
  | acknowledged
  | pendingFill
  | partiallyFilled
  | filled
  | protecting
  | active
  | closing
  | closed
  | expired
  | rejected
  | cancelled
  | reconciled
  | retryWait
  | unknown
  | manualReview
  | failed
deriving DecidableEq

/-- The text of a state. -/
def DispatchState.text : DispatchState → String
  | .queued => "QUEUED"
  | .preflight => "PREFLIGHT"
  | .sized => "SIZED"
  | .validated => "VALIDATED"
  | .submitting => "SUBMITTING"
  | .acknowledged => "ACKNOWLEDGED"
  | .pendingFill => "PENDING_FILL"
  | .partiallyFilled => "PARTIALLY_FILLED"
  | .filled => "FILLED"
  | .protecting => "PROTECTING"
  | .active => "ACTIVE"
  | .closing => "CLOSING"
  | .closed => "CLOSED"
  | .expired => "EXPIRED"
  | .rejected => "REJECTED"
  | .cancelled => "CANCELLED"
  | .reconciled => "RECONCILED"
  | .retryWait => "RETRY_WAIT"
  | .unknown => "UNKNOWN"
  | .manualReview => "MANUAL_REVIEW"
  | .failed => "FAILED"

/-- A dispatch joined with its canonical source, as `_dispatch_from_row` loads it, and the
columns of its lease. -/
structure BitgetDispatch where
  id : Uuid
  state : DispatchState
  pairToken : String
  direction : Direction
  entryPrice : ℚ
  sourceChannelId : Option ℤ
  sourceMessageId : Option ℤ
  orderType : OrderType
  claimedBy : Option String := none
  leaseUntil : Option Instant := none
  attempts : ℕ := 0
  terminalReason : Option String := none
deriving DecidableEq

def BitgetDispatch.Conflict (a b : BitgetDispatch) : Prop := a.id = b.id

instance : DecidableRel BitgetDispatch.Conflict := fun a b =>
  inferInstanceAs (Decidable (a.id = b.id))

instance : Std.Symm BitgetDispatch.Conflict := ⟨fun _ _ h => Eq.symm h⟩

/-- A dispatch that is retired for the age of its source. -/
def BitgetDispatch.expired (d : BitgetDispatch) : BitgetDispatch :=
  { d with
    state := .expired
    terminalReason := some "stale-source-message"
    claimedBy := none
    leaseUntil := none }

/-- What a transition writes to its dispatch. -/
def BitgetDispatch.moved (target : DispatchState) (reason : Option String) (d : BitgetDispatch) :
    BitgetDispatch :=
  { d with state := target, terminalReason := reason }

/-- A row of `dispatch_transitions`. -/
structure DispatchTransition where
  dispatchId : Uuid
  fromState : DispatchState
  toState : DispatchState
  reason : Option String
deriving DecidableEq

/-- The outbox key of a transition. -/
def DispatchTransition.dedupKey (t : DispatchTransition) : String :=
  "dispatch-transition:" ++ toString t.dispatchId ++ ":" ++ t.fromState.text ++ ":" ++
    t.toState.text ++ ":" ++ t.reason.getD ""

/-! ## Balance snapshots and margin reservations -/

structure BalanceSnapshot where
  id : Uuid
  totalBalance : ℚ
  availableBalance : ℚ
  equity : ℚ
  marginCoin : String
  capturedAt : Instant
deriving DecidableEq

inductive ReservationState
  | reserved
  | unknown
  | consumed
  | released
deriving DecidableEq

/-- `state IN ('reserved', 'unknown', 'consumed')`. -/
def ReservationState.active : ReservationState → Bool
  | .released => false
  | _ => true

/-- `state IN ('reserved', 'unknown')`. -/
def ReservationState.outstanding : ReservationState → Bool
  | .reserved | .unknown => true
  | _ => false

theorem ReservationState.active_iff {s : ReservationState} : s.active = true ↔ s ≠ .released := by
  cases s <;> simp [active]

/-- The symbol a reservation owns and the environment it owns it in. -/
structure Owner where
  environment : Environment
  symbol : String
deriving DecidableEq

/-- A row of `bitget_margin_reservations`. `owner` is null on a row written before
reservations recorded their symbol. -/
structure MarginReservation where
  id : Uuid
  dispatchId : Uuid
  clientOrderId : String
  balanceSnapshotId : Uuid
  plannedMarginUsdt : ℚ
  owner : Option Owner
  legacyBindingSymbol : Option String
  state : ReservationState
  hasExposure : Bool
  createdAt : Instant
  expiresAt : Instant
  resolvedAt : Option Instant
  resolutionReason : Option String
  planned_pos : 0 < plannedMarginUsdt

namespace MarginReservation

/-- The generated column `binding_symbol`. -/
def bindingSymbol (r : MarginReservation) : Option String :=
  (r.owner.map Owner.symbol).or r.legacyBindingSymbol

/-- What the unique constraints of the table forbid : two rows of one id, of one client
order id, two outstanding rows of one dispatch (`…_active_dispatch`), and two active rows
of one owner (`…_symbol_owner`, which ignores null owners). -/
def Conflict (a b : MarginReservation) : Prop :=
  a.id = b.id ∨ a.clientOrderId = b.clientOrderId ∨
    (a.state.outstanding ∧ b.state.outstanding ∧ a.dispatchId = b.dispatchId) ∨
    (a.state.active ∧ b.state.active ∧ a.owner = b.owner ∧ a.owner ≠ none)

instance : DecidableRel Conflict := fun a b =>
  inferInstanceAs (Decidable (a.id = b.id ∨ a.clientOrderId = b.clientOrderId ∨
    (a.state.outstanding ∧ b.state.outstanding ∧ a.dispatchId = b.dispatchId) ∨
    (a.state.active ∧ b.state.active ∧ a.owner = b.owner ∧ a.owner ≠ none)))

instance : Std.Symm Conflict where
  symm a b h := by
    rcases h with h | h | ⟨ha, hb, h⟩ | ⟨ha, hb, h, hn⟩
    · exact Or.inl h.symm
    · exact Or.inr (Or.inl h.symm)
    · exact Or.inr (Or.inr (Or.inl ⟨hb, ha, h.symm⟩))
    · exact Or.inr (Or.inr (Or.inr ⟨hb, ha, h.symm, h ▸ hn⟩))

theorem conflict_of_id {a b : MarginReservation} (h : a.id = b.id) : Conflict a b := Or.inl h

theorem conflict_of_clientOrderId {a b : MarginReservation}
    (h : a.clientOrderId = b.clientOrderId) : Conflict a b :=
  Or.inr (Or.inl h)

theorem conflict_of_owner {a b : MarginReservation} {o : Owner} (ha : a.state.active)
    (hb : b.state.active) (hoa : a.owner = some o) (hob : b.owner = some o) : Conflict a b :=
  Or.inr (Or.inr (Or.inr ⟨ha, hb, hoa.trans hob.symm, by simp [hoa]⟩))

end MarginReservation

/-! ## Live order intents -/

inductive Role
  | entry
  | stopLoss
  | takeProfit
  | close
  | emergencyClose
deriving DecidableEq

/-- `role IN ('CLOSE', 'EMERGENCY_CLOSE', 'SL', 'TP')`. -/
def Role.closing : Role → Bool
  | .entry => false
  | _ => true

inductive IntentState
  | staged
  | requested
  | acknowledged
  | submitted
  | partiallyFilled
  | filled
  | cancelled
  | rejected
  | unknown
  | reconciled
deriving DecidableEq

inductive EntryLeg
  | market
  | limit
deriving DecidableEq

/-- One fill as the venue reports it, after `normalize_fill`. Each number is the first
present alias of its key, `none` when it is absent or no number. -/
structure ProviderFill where
  fillId : Option String
  orderId : Option String
  clientOid : Option String
  quantity : Option ℚ
  price : Option ℚ
  fee : ℚ
  realizedPnl : ℚ
  time : Option Instant
deriving DecidableEq

/-- The in-memory intent the dispatcher passes around. `providerFills` is filled by a
readback only and is no column. -/
structure LiveIntentRecord where
  clientOid : String
  symbol : String
  side : Side
  role : Role := .entry
  state : IntentState := .requested
  requestedQty : ℚ := 0
  filledQty : ℚ := 0
  avgPrice : Option ℚ := none
  fee : ℚ := 0
  providerOrderId : Option String := none
  providerFillIds : List String := []
  providerFills : List ProviderFill := []
  plannedLeverage : Option ℕ := none
  plannedMarginUsdt : Option ℚ := none
  plannedNotionalUsdt : Option ℚ := none
  marginMode : Option MarginMode := none
  balanceSnapshotId : Option Uuid := none
  marginReservationId : Option Uuid := none
  plannedStopLoss : Option ℚ := none
  plannedTakeProfits : Option (List ℚ) := none
  dispatchId : Option Uuid := none
  entryLeg : Option EntryLeg := none
  orderType : OrderType := .market
  limitPrice : Option ℚ := none
  cancelRequestedBy : Option Uuid := none
  providerTerminal : Bool := false
  cancelPostClaimed : Bool := false
  activeStopLossPrice : Option ℚ := none
  protectionRootOid : Option String := none
  activeTakeProfitPrice : Option ℚ := none
deriving DecidableEq

/-- The `CHECK` constraints of `live_order_intents` on the columns the model keeps. -/
structure LiveIntentRecord.Checked (r : LiveIntentRecord) : Prop where
  requested_pos : 0 < r.requestedQty
  filled_nonneg : 0 ≤ r.filledQty
  avgPrice_pos : ∀ p ∈ r.avgPrice, 0 < p
  evidence : r.marginReservationId = none ∨
    (r.role = .entry ∧ r.balanceSnapshotId ≠ none ∧ r.plannedMarginUsdt ≠ none)

theorem LiveIntentRecord.checked_iff {r : LiveIntentRecord} :
    r.Checked ↔ 0 < r.requestedQty ∧ 0 ≤ r.filledQty ∧ (∀ p ∈ r.avgPrice, 0 < p) ∧
      (r.marginReservationId = none ∨
        (r.role = .entry ∧ r.balanceSnapshotId ≠ none ∧ r.plannedMarginUsdt ≠ none)) :=
  ⟨fun h => ⟨h.1, h.2, h.3, h.4⟩, fun h => ⟨h.1, h.2.1, h.2.2.1, h.2.2.2⟩⟩

instance (r : LiveIntentRecord) : Decidable r.Checked :=
  decidable_of_iff _ LiveIntentRecord.checked_iff.symm

/-- A row of `live_order_intents`. -/
structure LiveIntentRow where
  record : LiveIntentRecord
  createdAt : Instant
  checked : record.Checked

namespace LiveIntentRow

def clientOid (r : LiveIntentRow) : String := r.record.clientOid

theorem filled_nonneg (r : LiveIntentRow) : 0 ≤ r.record.filledQty := r.checked.filled_nonneg

/-- `UNIQUE (exchange, client_order_id)` and `UNIQUE (exchange, provider_order_id)`, which
ignores null ids. -/
def Conflict (a b : LiveIntentRow) : Prop :=
  a.clientOid = b.clientOid ∨
    (a.record.providerOrderId = b.record.providerOrderId ∧ a.record.providerOrderId ≠ none)

instance : DecidableRel Conflict := fun a b =>
  inferInstanceAs (Decidable (a.clientOid = b.clientOid ∨
    (a.record.providerOrderId = b.record.providerOrderId ∧ a.record.providerOrderId ≠ none)))

instance : Std.Symm Conflict where
  symm a b h := by
    rcases h with h | ⟨h, hne⟩
    · exact Or.inl h.symm
    · exact Or.inr ⟨h.symm, h ▸ hne⟩

theorem conflict_of_clientOid {a b : LiveIntentRow} (h : a.clientOid = b.clientOid) :
    Conflict a b := Or.inl h

end LiveIntentRow

/-! ## Fills, close bindings, baselines -/

/-- A row of `fills`. -/
structure FillRow where
  clientOrderId : String
  providerFillId : String
  symbol : String
  price : ℚ
  quantity : ℚ
  fee : ℚ
  realizedPnl : ℚ
  filledAt : Instant
  price_pos : 0 < price
  quantity_pos : 0 < quantity

namespace FillRow

/-- `UNIQUE (exchange, provider_fill_id)`. -/
def Conflict (a b : FillRow) : Prop := a.providerFillId = b.providerFillId

instance : DecidableRel Conflict := fun a b =>
  inferInstanceAs (Decidable (a.providerFillId = b.providerFillId))

instance : Std.Symm Conflict := ⟨fun _ _ h => Eq.symm h⟩

end FillRow

/-- `provider_fill_id LIKE 'status-derived:%'`. -/
def statusDerived (providerFillId : String) : Bool :=
  "status-derived:".toList.isPrefixOf providerFillId.toList

/-- A row of `bitget_verified_close_bindings`. -/
structure CloseBinding where
  closeClientOrderId : String
  reservationId : Uuid
deriving DecidableEq

namespace CloseBinding

def Conflict (a b : CloseBinding) : Prop := a.closeClientOrderId = b.closeClientOrderId

instance : DecidableRel Conflict := fun a b =>
  inferInstanceAs (Decidable (a.closeClientOrderId = b.closeClientOrderId))

instance : Std.Symm Conflict := ⟨fun _ _ h => Eq.symm h⟩

end CloseBinding

/-- A row of `bitget_baseline_records` : its kind with the record it retires. The id of an
intent is derived from its client order id. -/
inductive BaselineRecord
  | intent (clientOid : String)
  | reservation (id : Uuid)
  | dispatch (id : Uuid)
deriving DecidableEq

/-! ## The database -/

abbrev Reservations := Table MarginReservation MarginReservation.Conflict

abbrev Intents := Table LiveIntentRow LiveIntentRow.Conflict

structure Db where
  dispatches : Table BitgetDispatch BitgetDispatch.Conflict := Table.empty
  snapshots : List BalanceSnapshot := []
  reservations : Reservations := Table.empty
  intents : Intents := Table.empty
  fills : Table FillRow FillRow.Conflict := Table.empty
  closeBindings : Table CloseBinding CloseBinding.Conflict := Table.empty
  baselineRecords : List BaselineRecord := []
  fallbackProtection : List String := []
  transitions : List DispatchTransition := []
  outbox : List String := []
  canaryEntries : List Uuid := []

/-- Why a transaction is rolled back and its exception propagates. -/
inductive DbError
  | uniqueViolation
  | checkViolation
  | foreignKeyViolation
  | conflictOrMissing
  | splitChildWithoutRoot
  | pendingEntryDisappeared
  | invalidOutcome
deriving DecidableEq

/-- A storage call answers, or is applied but reported as failed, or fails. -/
inductive Delivery
  | answered
  | lost
  | failed
deriving DecidableEq, Repr

/-- A mapped result is the image of a result. -/
theorem exists_of_map_ok {ε α β : Type*} {x : Except ε α} {f : α → β} {b : β}
    (h : x.map f = .ok b) : ∃ a, x = .ok a ∧ f a = b := by
  cases x with
  | error e => cases h
  | ok a => exact ⟨a, rfl, Except.ok.inj h⟩

theorem exists_of_bind_ok {ε α β : Type} {x : Except ε α} {f : α → Except ε β} {b : β}
    (h : (x >>= f) = .ok b) : ∃ a, x = .ok a ∧ f a = .ok b := by
  cases x with
  | error e => cases h
  | ok a => exact ⟨a, rfl, h⟩

theorem exists_of_isOk {ε α : Type*} {x : Except ε α} (h : x.isOk) : ∃ a, x = .ok a := by
  cases x with
  | error e => cases h
  | ok a => exact ⟨a, rfl⟩

namespace Db

def dispatch (db : Db) (id : Uuid) : Option BitgetDispatch := db.dispatches.find (·.id) id

def reservation (db : Db) (id : Uuid) : Option MarginReservation := db.reservations.find (·.id) id

def intentRow (db : Db) (clientOid : String) : Option LiveIntentRow :=
  db.intents.find LiveIntentRow.clientOid clientOid

/-- A notification, `ON CONFLICT (dedup_key) DO NOTHING`. -/
def notify (db : Db) (dedupKey : String) : Db :=
  { db with outbox := if dedupKey ∈ db.outbox then db.outbox else db.outbox ++ [dedupKey] }

/-- The audit row of a transition and its notification. -/
def recordTransition (db : Db) (t : DispatchTransition) : Db :=
  { db with transitions := db.transitions ++ [t] }.notify t.dedupKey

/-- The canary reservation of a dispatch is deleted. -/
def releaseCanaryEntry (db : Db) (dispatchId : Uuid) : Db :=
  { db with canaryEntries := db.canaryEntries.filter (· ≠ dispatchId) }

def baselined (db : Db) (r : BaselineRecord) : Bool := r ∈ db.baselineRecords

theorem dispatch_eq_some {db : Db} {id : Uuid} {d : BitgetDispatch} :
    db.dispatch id = some d ↔ d ∈ db.dispatches ∧ d.id = id :=
  Table.find_eq_some_iff fun _ _ h => h

theorem reservation_eq_some {db : Db} {id : Uuid} {r : MarginReservation} :
    db.reservation id = some r ↔ r ∈ db.reservations ∧ r.id = id :=
  Table.find_eq_some_iff fun _ _ => MarginReservation.conflict_of_id

theorem intentRow_eq_some {db : Db} {oid : String} {r : LiveIntentRow} :
    db.intentRow oid = some r ↔ r ∈ db.intents ∧ r.clientOid = oid :=
  Table.find_eq_some_iff fun _ _ => LiveIntentRow.conflict_of_clientOid

/-- At most one active reservation owns a symbol in an environment. -/
theorem active_owner_unique {db : Db} {a b : MarginReservation} {o : Owner}
    (ha : a ∈ db.reservations) (hb : b ∈ db.reservations) (hsa : a.state.active)
    (hsb : b.state.active) (hoa : a.owner = some o) (hob : b.owner = some o) : a = b := by
  rcases Table.eq_or_not_conflict ha hb with h | h
  · exact h
  · exact absurd (MarginReservation.conflict_of_owner hsa hsb hoa hob) h

/-- A client order id names one reservation. -/
theorem reservation_clientOrderId_unique {db : Db} {a b : MarginReservation}
    (ha : a ∈ db.reservations) (hb : b ∈ db.reservations)
    (h : a.clientOrderId = b.clientOrderId) : a = b := by
  rcases Table.eq_or_not_conflict ha hb with h' | h'
  · exact h'
  · exact absurd (MarginReservation.conflict_of_clientOrderId h) h'

/-- One contract is a quantity. -/
theorem oneContract_pos : (0 : ℚ) < 1 := by decide +kernel

end Db

end FattyTrader
