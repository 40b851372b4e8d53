import FattyTrader.LiveIntents
import Mathlib.Algebra.Order.BigOperators.Group.List

/-!
# Native plan closes

The venue executes a protection plan as an order of its own, in one or several fills. Each
fill is delivered to `reconcileNativePlanClose`, in any order and perhaps more than once :
the first one claims the close of the entry root and writes it, a later one with a new fill
id is merged into the row. The close is then bound to the reservation of its root.

A merge adds the quantity and the fill id. The row keeps the requested quantity it was
claimed with, since `update` does not write it, and the fee and the price of the first fill.
So the close is recorded in full exactly when it was executed in one fill
(`nativeClose_recorded_iff`).
-/

set_option linter.unusedSectionVars false

open Tables

namespace FattyTrader

/-! ## The fills of a plan -/

/-- A fill of the venue that executed one of the plans of an entry. -/
structure NativePlanClose where
  symbol : String
  side : Side
  rootOid : String
  planOid : String
  executedOrderId : String
  providerFillId : String
  quantity : ℚ
  price : ℚ
  fee : ℚ
  realizedPnl : ℚ
  payload : ProviderFill
  quantity_pos : 0 < quantity
  price_pos : 0 < price

namespace NativePlanClose

/-- The client order id of the native close of an entry root. -/
def closeOidOf (rootOid : String) : String := rootOid ++ "-native-close"

def closeOid (n : NativePlanClose) : String := closeOidOf n.rootOid

/-- The close a fill is claimed with. -/
def record (n : NativePlanClose) : LiveIntentRecord where
  clientOid := n.closeOid
  symbol := n.symbol
  side := n.side
  role := .close
  state := .filled
  requestedQty := n.quantity
  filledQty := n.quantity
  avgPrice := some n.price
  fee := n.fee
  providerOrderId := some n.executedOrderId
  providerFillIds := [n.providerFillId]
  providerFills := [n.payload]

/-- The record a later fill makes of the close there is. -/
def merge (n : NativePlanClose) (existing : LiveIntentRecord) : LiveIntentRecord :=
  { existing with
    state := .filled
    requestedQty := existing.requestedQty + n.quantity
    filledQty := existing.filledQty + n.quantity
    providerFillIds := existing.providerFillIds ++ [n.providerFillId]
    providerFills := existing.providerFills ++ [n.payload] }

theorem checked_inserted (n : NativePlanClose) : n.record.inserted.Checked where
  requested_pos := n.quantity_pos
  filled_nonneg := n.quantity_pos.le
  avgPrice_pos := by simp [LiveIntentRecord.inserted]
  evidence := Or.inl rfl

theorem checked_written (n : NativePlanClose) : (n.record.written n.record.inserted).Checked where
  requested_pos := n.quantity_pos
  filled_nonneg := n.quantity_pos.le
  avgPrice_pos := by
    intro p hp
    obtain rfl : n.price = p := Option.some.inj hp
    exact n.price_pos
  evidence := Or.inl rfl

end NativePlanClose

/-- Why a native close cannot be recorded. -/
inductive NativeCloseResolutionError
  | storage (e : DbError)
  | noDurableRecord
  | providerOrderIdConflicts
deriving DecidableEq

namespace Db

/-! ## Recording and binding -/

/-- The fills of the ledger that a close lists. -/
def listedQuantity (db : Db) (close : LiveIntentRecord) : ℚ :=
  ((db.fills.rows.filter fun f => f.clientOrderId = close.clientOid &&
    close.providerFillIds.contains f.providerFillId).map FillRow.quantity).sum

/-- What `bind_native_close` asks of the entry, the plan and the close. -/
def nativeCloseOwned (db : Db) (root plan close : LiveIntentRecord)
    (executedOrderId : String) : Bool :=
  root.role = .entry && plan.protectionRootOid = some root.clientOid &&
    (plan.role = .stopLoss || plan.role = .takeProfit) && plan.providerOrderId.isSome &&
    plan.symbol = root.symbol && close.role = .close && close.symbol = root.symbol &&
    close.side ≠ root.side && close.providerOrderId = some executedOrderId &&
    decide (0 < close.filledQty) && !close.providerFillIds.isEmpty &&
    close.providerFillIds.all (fun id => !statusDerived id) &&
    close.filledQty = db.listedQuantity close

/-- `bind_native_close`. -/
def bindNativeClose (db : Db) (n : NativePlanClose) : Except DbError Db :=
  match db.get n.rootOid, db.get n.planOid, db.get n.closeOid with
  | some root, some plan, some close =>
    if db.nativeCloseOwned root plan close n.executedOrderId then
      match root.marginReservationId with
      | none => .error .checkViolation
      | some reservationId =>
        match db.closeBindings.find CloseBinding.closeClientOrderId n.closeOid with
        | some binding =>
          if binding.reservationId = reservationId then .ok db else .error .conflictOrMissing
        | none =>
          match db.closeBindings.insert ⟨n.closeOid, reservationId⟩ with
          | none => .error .uniqueViolation
          | some closeBindings => .ok { db with closeBindings }
    else .error .conflictOrMissing
  | _, _, _ => .error .conflictOrMissing

/-- The binding that follows a recorded fill. What was written before stays when it fails. -/
def boundNative (db : Db) (n : NativePlanClose) (created : Bool) :
    Except NativeCloseResolutionError Bool × Db :=
  match db.bindNativeClose n with
  | .error e => (.error (.storage e), db)
  | .ok db' => (.ok created, db')

/-- `reconcile_native_plan_close`. -/
def reconcileNativePlanClose (now : Instant) (db : Db) (n : NativePlanClose) :
    Except NativeCloseResolutionError Bool × Db :=
  match db.claim now n.record with
  | .error e => (.error (.storage e), db)
  | .ok (db₁, true) =>
    match db₁.update now n.record with
    | .error e => (.error (.storage e), db₁)
    | .ok db₂ => db₂.boundNative n true
  | .ok (db₁, false) =>
    match db₁.get n.closeOid with
    | none => (.error .noDurableRecord, db₁)
    | some existing =>
      if existing.providerOrderId ≠ some n.executedOrderId then
        (.error .providerOrderIdConflicts, db₁)
      else if n.providerFillId ∈ existing.providerFillIds then db₁.boundNative n false
      else
        match db₁.update now (n.merge existing) with
        | .error e => (.error (.storage e), db₁)
        | .ok db₂ => db₂.boundNative n false

/-- The fills are delivered one after the other, each at its own time. -/
def deliver (db : Db) (fills : List (Instant × NativePlanClose)) : Db :=
  fills.foldl (fun db fill => (db.reconcileNativePlanClose fill.1 fill.2).2) db

/-! ## One delivery -/

section Delivery

variable {db : Db} {n : NativePlanClose} {now : Instant}

theorem get_of_boundNative (created : Bool) (o : String) :
    (db.boundNative n created).2.get o = db.get o := by
  unfold boundNative
  split
  · rfl
  next db' h =>
    unfold bindNativeClose at h
    split at h
    · split at h
      · split at h
        · cases h
        · split at h
          · split at h
            · rw [Except.ok.inj h]
            · cases h
          · split at h
            · cases h
            · obtain rfl := Except.ok.inj h
              rfl
      · cases h
    · cases h

/-- The row of the close after a delivery : nothing without a row and a claim, else the row
with its requested quantity, or the row a claim inserted. -/
theorem get_of_reconcile (now : Instant) (db : Db) (n : NativePlanClose) :
    (db.reconcileNativePlanClose now n).2.get n.closeOid = db.get n.closeOid ∨
      (∃ r, (db.reconcileNativePlanClose now n).2.get n.closeOid = some r ∧
        ((db.get n.closeOid = none ∧ r.requestedQty = n.quantity) ∨
          ∃ r', db.get n.closeOid = some r' ∧ r.requestedQty = r'.requestedQty)) := by
  unfold reconcileNativePlanClose
  split
  · exact Or.inl rfl
  next db₁ hclaim =>
    rcases insertIntent_ok hclaim with ⟨hw, -⟩ | ⟨-, hnone, -, -, hget⟩
    · cases hw
    have hrow : db₁.get n.closeOid = some n.record.inserted := (hget _).trans (if_pos rfl)
    split
    · exact Or.inr ⟨_, hrow, Or.inl ⟨hnone, rfl⟩⟩
    next db₂ hupdate =>
      obtain ⟨r, hr, -, -, hget₂⟩ := update_ok hupdate
      obtain rfl : n.record.inserted = r := Option.some.inj (hrow.symm.trans hr)
      refine Or.inr ⟨n.record.written n.record.inserted, ?_, Or.inl ⟨hnone, rfl⟩⟩
      rw [get_of_boundNative, hget₂]
      exact if_pos rfl
  next db₁ hclaim =>
    rcases insertIntent_ok hclaim with ⟨-, rfl, -⟩ | ⟨hw, -⟩
    swap
    · cases hw
    split
    · exact Or.inl rfl
    next existing hexisting =>
      split
      · exact Or.inl rfl
      split
      · exact Or.inl (get_of_boundNative _ _)
      split
      · exact Or.inl rfl
      next db₂ hupdate =>
        obtain ⟨r, hr, -, -, hget₂⟩ := update_ok hupdate
        have hoid : (n.merge existing).clientOid = n.closeOid :=
          clientOid_of_get (r := existing) hexisting
        rw [hoid] at hr hget₂
        obtain rfl : existing = r := Option.some.inj (hexisting.symm.trans hr)
        refine Or.inr ⟨(n.merge existing).written existing, ?_, Or.inr ⟨existing, hexisting, rfl⟩⟩
        rw [get_of_boundNative, hget₂]
        exact if_pos rfl

/-- No intent carries the order id of the venue yet. -/
def OrderIdFree (db : Db) (executedOrderId : String) : Prop :=
  ∀ row ∈ db.intents, row.record.providerOrderId ≠ some executedOrderId

/-- An order id that is taken is never claimed. -/
theorem reconcile_of_taken (hnone : db.get n.closeOid = none)
    (htaken : ¬ db.OrderIdFree n.executedOrderId) :
    (db.reconcileNativePlanClose now n).2 = db := by
  unfold reconcileNativePlanClose
  split
  · rfl
  next db₁ hclaim =>
    exfalso
    refine htaken fun row hrow horder => ?_
    unfold claim insertIntent at hclaim
    rw [dif_pos n.checked_inserted] at hclaim
    split at hclaim
    · cases hclaim
    split at hclaim
    · split at hclaim
      · cases hclaim
      next intents hi =>
        have hfree := Table.insert_isSome_iff.mp (Option.isSome_of_eq_some hi) row hrow
        refine hfree (Or.inr ⟨horder, ?_⟩)
        rw [horder]
        simp
    · cases hclaim
  next db₁ hclaim =>
    rcases insertIntent_ok hclaim with ⟨-, -, hsome⟩ | ⟨hw, -⟩
    · exact absurd hnone hsome
    · cases hw

/-- The first fill writes its close. -/
theorem reconcile_of_free (hnone : db.get n.closeOid = none)
    (hfree : db.OrderIdFree n.executedOrderId) :
    (db.reconcileNativePlanClose now n).2.get n.closeOid =
      some (n.record.written n.record.inserted) := by
  have hnoRow : ∀ row ∈ db.intents, row.clientOid ≠ n.closeOid := by
    intro row hrow hoid
    have := intentRow_eq_some.mpr ⟨hrow, hoid⟩
    simp [get, this] at hnone
  obtain ⟨db₁, hclaim⟩ : ∃ db₁, db.claim now n.record = .ok (db₁, true) := by
    have hins : (db.intents.insert ⟨n.record.inserted, now, n.checked_inserted⟩).isSome := by
      refine Table.insert_isSome_iff.mpr fun row hrow hconflict => ?_
      rcases hconflict with hoid | ⟨horder, -⟩
      · exact hnoRow row hrow hoid
      · exact hfree row hrow horder
    obtain ⟨intents, hi⟩ := Option.isSome_iff_exists.mp hins
    refine ⟨{ db with intents }, ?_⟩
    have hb : db.BindingOk n.record.inserted := Or.inl rfl
    have hget : db.get n.record.clientOid = none := hnone
    simp [claim, insertIntent, n.checked_inserted, hget, hb, hi]
  rcases insertIntent_ok hclaim with ⟨hw, -⟩ | ⟨-, -, -, hdb₁, hget₁⟩
  · cases hw
  have hrow : db₁.get n.closeOid = some n.record.inserted := (hget₁ _).trans (if_pos rfl)
  obtain ⟨db₂, hupdate⟩ : ∃ db₂, db₁.update now n.record = .ok db₂ :=
    update_isOk hrow rfl n.checked_written
  obtain ⟨r, hr, -, -, hget₂⟩ := update_ok hupdate
  obtain rfl : n.record.inserted = r := Option.some.inj (hrow.symm.trans hr)
  simp only [reconcileNativePlanClose, hclaim, hupdate]
  rw [get_of_boundNative, hget₂]
  exact if_pos rfl

/-- A fill that is recorded already changes nothing in the close. -/
theorem reconcile_of_listed {r : LiveIntentRecord} (hr : db.get n.closeOid = some r)
    (hlisted : n.providerFillId ∈ r.providerFillIds) :
    (db.reconcileNativePlanClose now n).2.get n.closeOid = some r := by
  unfold reconcileNativePlanClose
  split
  · exact hr
  next db₁ hclaim =>
    rcases insertIntent_ok hclaim with ⟨hw, -⟩ | ⟨-, hnone, -⟩
    · cases hw
    · have hget : db.get n.record.clientOid = some r := hr
      simp [hnone] at hget
  next db₁ hclaim =>
    rcases insertIntent_ok hclaim with ⟨-, rfl, -⟩ | ⟨hw, -⟩
    swap
    · cases hw
    simp only [hr, hlisted, if_true]
    split
    · exact hr
    · rw [get_of_boundNative, hr]

end Delivery

/-! ## All deliveries -/

section Deliveries

variable {fills : List (Instant × NativePlanClose)} {db : Db} {rootOid : String}

theorem deliver_cons (db : Db) (fill : Instant × NativePlanClose)
    (fills : List (Instant × NativePlanClose)) :
    db.deliver (fill :: fills) = (db.reconcileNativePlanClose fill.1 fill.2).2.deliver fills := rfl

/-- The requested quantity is the one of a single fill. -/
theorem requestedQty_of_deliver (P : NativePlanClose → Prop)
    (hroot : ∀ fill ∈ fills, fill.2.rootOid = rootOid) (hP : ∀ fill ∈ fills, P fill.2)
    (hdb : ∀ r, db.get (NativePlanClose.closeOidOf rootOid) = some r →
      ∃ n, P n ∧ r.requestedQty = n.quantity) {r : LiveIntentRecord}
    (hr : (db.deliver fills).get (NativePlanClose.closeOidOf rootOid) = some r) :
    ∃ n, P n ∧ r.requestedQty = n.quantity := by
  induction fills generalizing db with
  | nil => exact hdb r hr
  | cons fill fills ih =>
    have hoid : fill.2.closeOid = NativePlanClose.closeOidOf rootOid := by
      rw [NativePlanClose.closeOid, hroot fill List.mem_cons_self]
    refine ih (fun f hf => hroot f (List.mem_cons_of_mem _ hf))
      (fun f hf => hP f (List.mem_cons_of_mem _ hf)) ?_ hr
    intro r' hr'
    rcases get_of_reconcile fill.1 db fill.2 with hsame | ⟨r'', hr'', ⟨-, hq⟩ | ⟨r₀, hr₀, hq⟩⟩
    · rw [hoid] at hsame
      exact hdb r' (hsame.symm.trans hr')
    · rw [hoid] at hr''
      obtain rfl := Option.some.inj (hr''.symm.trans hr')
      exact ⟨fill.2, hP fill List.mem_cons_self, hq⟩
    · rw [hoid] at hr'' hr₀
      obtain rfl := Option.some.inj (hr''.symm.trans hr')
      obtain ⟨n, hn, hq'⟩ := hdb r₀ hr₀
      exact ⟨n, hn, hq.trans hq'⟩

/-- A close under an order id that is taken is never recorded. -/
theorem deliver_of_taken {executedOrderId : String}
    (hroot : ∀ fill ∈ fills, fill.2.rootOid = rootOid)
    (horder : ∀ fill ∈ fills, fill.2.executedOrderId = executedOrderId)
    (hnone : db.get (NativePlanClose.closeOidOf rootOid) = none)
    (htaken : ¬ db.OrderIdFree executedOrderId) : db.deliver fills = db := by
  induction fills with
  | nil => rfl
  | cons fill fills ih =>
    have hoid : fill.2.closeOid = NativePlanClose.closeOidOf rootOid := by
      rw [NativePlanClose.closeOid, hroot fill List.mem_cons_self]
    rw [deliver_cons, reconcile_of_taken (hoid ▸ hnone)
      (horder fill List.mem_cons_self ▸ htaken)]
    exact ih (fun f hf => hroot f (List.mem_cons_of_mem _ hf))
      (fun f hf => horder f (List.mem_cons_of_mem _ hf))

/-- Repeats of a recorded fill leave the close as it is. -/
theorem deliver_of_listed {r : LiveIntentRecord}
    (hroot : ∀ fill ∈ fills, fill.2.rootOid = rootOid)
    (hlisted : ∀ fill ∈ fills, fill.2.providerFillId ∈ r.providerFillIds)
    (hr : db.get (NativePlanClose.closeOidOf rootOid) = some r) :
    (db.deliver fills).get (NativePlanClose.closeOidOf rootOid) = some r := by
  induction fills generalizing db with
  | nil => exact hr
  | cons fill fills ih =>
    have hoid : fill.2.closeOid = NativePlanClose.closeOidOf rootOid := by
      rw [NativePlanClose.closeOid, hroot fill List.mem_cons_self]
    rw [deliver_cons]
    refine ih (fun f hf => hroot f (List.mem_cons_of_mem _ hf))
      (fun f hf => hlisted f (List.mem_cons_of_mem _ hf)) ?_
    rw [← hoid]
    exact reconcile_of_listed (hoid ▸ hr) (hlisted fill List.mem_cons_self)

/-- The close of the root is the sum of the given fills : requested and filled quantity, fee,
average price and fill ids. -/
def NativeCloseRecorded (db : Db) (rootOid : String) (fills : List NativePlanClose) : Prop :=
  ∃ r, db.get (NativePlanClose.closeOidOf rootOid) = some r ∧
    r.requestedQty = r.filledQty ∧
    r.filledQty = (fills.map (·.quantity)).sum ∧
    r.fee = (fills.map (·.fee)).sum ∧
    r.avgPrice = some ((fills.map fun n => n.quantity * n.price).sum /
      (fills.map (·.quantity)).sum) ∧
    ∀ id, id ∈ r.providerFillIds ↔ id ∈ fills.map (·.providerFillId)

/-- Fills of one plan order are recorded in full exactly when there is one, and no other
intent carries its order id. -/
theorem nativeClose_recorded_iff {distinct : List NativePlanClose} {executedOrderId : String}
    (hroot : ∀ n ∈ distinct, n.rootOid = rootOid)
    (horder : ∀ n ∈ distinct, n.executedOrderId = executedOrderId)
    (hfills : ∀ n, n ∈ fills.map Prod.snd ↔ n ∈ distinct)
    (hnone : db.get (NativePlanClose.closeOidOf rootOid) = none) :
    (db.deliver fills).NativeCloseRecorded rootOid distinct ↔
      distinct.length = 1 ∧ db.OrderIdFree executedOrderId := by
  have hmem : ∀ fill ∈ fills, fill.2 ∈ distinct := fun fill hf =>
    (hfills fill.2).mp (List.mem_map_of_mem hf)
  have hroots : ∀ fill ∈ fills, fill.2.rootOid = rootOid := fun fill hf => hroot _ (hmem fill hf)
  constructor
  · rintro ⟨r, hr, hrequested, hfilled, -⟩
    constructor
    · obtain ⟨n, hn, hq⟩ := requestedQty_of_deliver (· ∈ distinct) hroots hmem
        (fun r hr => by simp [hnone] at hr) hr
      obtain ⟨as, bs, rfl⟩ := List.append_of_mem hn
      have hpos : ∀ ns : List NativePlanClose, ns ≠ [] → 0 < (ns.map (·.quantity)).sum := by
        intro ns hns
        refine List.sum_pos _ (fun q hq => ?_) (by simpa using hns)
        obtain ⟨m, -, rfl⟩ := List.mem_map.mp hq
        exact m.quantity_pos
      have hsum : ((as ++ bs).map (·.quantity)).sum = 0 := by
        rw [← hrequested, hq] at hfilled
        simp only [List.map_append, List.map_cons, List.sum_append, List.sum_cons] at hfilled ⊢
        linarith
      have hnil : as ++ bs = [] := by
        by_contra hne'
        exact absurd hsum (ne_of_gt (hpos _ hne'))
      obtain ⟨rfl, rfl⟩ := List.append_eq_nil_iff.mp hnil
      rfl
    · by_contra htaken
      rw [deliver_of_taken hroots (fun fill hf => horder _ (hmem fill hf)) hnone htaken, hnone] at hr
      cases hr
  · rintro ⟨hlength, hfree⟩
    obtain ⟨n, rfl⟩ := List.length_eq_one_iff.mp hlength
    have hone : ∀ fill ∈ fills, fill.2 = n := fun fill hf => List.mem_singleton.mp (hmem fill hf)
    have hoid : n.closeOid = NativePlanClose.closeOidOf rootOid := by
      rw [NativePlanClose.closeOid, hroot n List.mem_cons_self]
    cases fills with
    | nil =>
      have := (hfills n).mpr List.mem_cons_self
      simp at this
    | cons fill fills =>
      have hfill : fill.2 = n := hone fill List.mem_cons_self
      have hrow : (db.reconcileNativePlanClose fill.1 n).2.get n.closeOid =
          some (n.record.written n.record.inserted) :=
        reconcile_of_free (hoid ▸ hnone) (horder n List.mem_cons_self ▸ hfree)
      rw [hoid] at hrow
      refine ⟨n.record.written n.record.inserted, ?_, rfl, ?_, ?_, ?_, fun id => ?_⟩
      · rw [deliver_cons, hfill]
        refine deliver_of_listed (fun f hf => hroots f (List.mem_cons_of_mem _ hf))
          (fun f hf => ?_) hrow
        rw [hone f (List.mem_cons_of_mem _ hf)]
        exact List.mem_cons_self
      · simp [LiveIntentRecord.written, NativePlanClose.record]
      · simp [LiveIntentRecord.written, NativePlanClose.record]
      · have hq := n.quantity_pos.ne'
        simp [LiveIntentRecord.written, NativePlanClose.record, hq]
      · simp [LiveIntentRecord.written, NativePlanClose.record]

end Deliveries

/-! ### A plan executed in one fill, and in two -/

/-- A filled entry of 3 with its stop loss plan. -/
def protectedEntry : Db where
  intents :=
    ⟨[{ record :=
          { clientOid := "live-bitget-BTCUSDT-1"
            symbol := "BTCUSDT"
            side := .buy
            state := .filled
            requestedQty := 3
            filledQty := 3
            avgPrice := some 100
            providerOrderId := some "800"
            providerFillIds := ["70"]
            marginReservationId := some 11
            balanceSnapshotId := some 10
            plannedMarginUsdt := some 60 }
        createdAt := 1
        checked := by decide +kernel },
      { record :=
          { clientOid := "live-bitget-BTCUSDT-1-sl"
            symbol := "BTCUSDT"
            side := .sell
            role := .stopLoss
            state := .acknowledged
            requestedQty := 3
            providerOrderId := some "801"
            protectionRootOid := some "live-bitget-BTCUSDT-1" }
        createdAt := 2
        checked := by decide +kernel }], by decide +kernel⟩

/-- A fill of the stop loss plan, executed as the order 900. -/
def stopLossFill (fillId : String) (quantity : ℚ) (h : 0 < quantity) : NativePlanClose where
  symbol := "BTCUSDT"
  side := .sell
  rootOid := "live-bitget-BTCUSDT-1"
  planOid := "live-bitget-BTCUSDT-1-sl"
  executedOrderId := "900"
  providerFillId := fillId
  quantity := quantity
  price := 90
  fee := 1
  realizedPnl := -10
  payload := ⟨some fillId, some "900", none, some quantity, some 90, 1, -10, some 5⟩
  quantity_pos := h
  price_pos := by decide +kernel

theorem stopLossFill_recorded_once :
    (protectedEntry.deliver [(5, stopLossFill "77" 3 (by decide +kernel)),
      (6, stopLossFill "77" 3 (by decide +kernel))]).NativeCloseRecorded "live-bitget-BTCUSDT-1"
        [stopLossFill "77" 3 (by decide +kernel)] := by
  refine (nativeClose_recorded_iff ?_
    (?_ : ∀ n ∈ [stopLossFill "77" 3 (by decide +kernel)], n.executedOrderId = "900") ?_ ?_).mpr ⟨rfl, ?_⟩
  · simp [stopLossFill]
  · simp [stopLossFill]
  · simp
  · decide +kernel
  · intro row hrow
    have h : ∀ row ∈ protectedEntry.intents.rows, row.record.providerOrderId ≠ some "900" := by
      decide +kernel
    exact h row hrow

/-- Fills of 1 and 2 leave a close that requested 1 and filled 3. -/
theorem stopLossFills_not_recorded :
    ¬ (protectedEntry.deliver [(5, stopLossFill "77" 1 (by decide +kernel)),
      (6, stopLossFill "78" 2 (by decide +kernel))]).NativeCloseRecorded "live-bitget-BTCUSDT-1"
        [stopLossFill "77" 1 (by decide +kernel), stopLossFill "78" 2 (by decide +kernel)] := by
  rintro ⟨r, hr, hrequested, -⟩
  have h : ((protectedEntry.deliver [(5, stopLossFill "77" 1 (by decide +kernel)),
      (6, stopLossFill "78" 2 (by decide +kernel))]).get
        (NativePlanClose.closeOidOf "live-bitget-BTCUSDT-1")).all
      (fun r => r.requestedQty ≠ r.filledQty) = true := by decide +kernel
  rw [hr] at h
  simp [hrequested] at h

end Db

end FattyTrader
