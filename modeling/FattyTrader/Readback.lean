import FattyTrader.Ledger
import Mathlib.Algebra.BigOperators.Group.List.Basic
import Mathlib.Algebra.Order.Ring.Rat
import Mathlib.Algebra.Order.BigOperators.Group.List

/-!
# Readback of an order

`reconcile_intent` asks the venue for the detail of one order and for the fills of its
symbol, and, when the detail is missing, for the position and the pending orders as well.
An `OrderReading` holds these answers, and `reconcileIntent` is the verdict it reaches
from them : a status, the filled quantity, and whether the order is terminal.

A key of an answer may be absent, present without a usable number, or present with one
(`Field`). The two ways the source reads a quantity differ : `firstPresent` takes the first
key that is there, `detailDecimal` the first that holds a positive number.
-/

set_option linter.unusedSectionVars false

namespace FattyTrader

/-! ## Fields -/

/-- The value under a key : absent, or present and perhaps no finite number. -/
abbrev Field := Option (Option ℚ)

/-- `detail.get(k, detail.get(k', …, default))`. -/
def firstPresent (default : ℚ) : List Field → Option ℚ
  | [] => some default
  | none :: fields => firstPresent default fields
  | some value :: _ => value

/-- `_detail_decimal`. -/
def detailDecimal : List Field → Option ℚ
  | [] => none
  | some (some q) :: fields => if 0 < q then some q else detailDecimal fields
  | _ :: fields => detailDecimal fields

theorem detailDecimal_pos : ∀ {fields : List Field} {q : ℚ},
    detailDecimal fields = some q → 0 < q
  | some (some p) :: fields, q, h => by
    rw [detailDecimal] at h
    split at h
    next hp =>
      obtain rfl := Option.some.inj h
      exact hp
    · exact detailDecimal_pos h
  | some none :: fields, q, h => by
    have h' : detailDecimal fields = some q := h
    exact detailDecimal_pos h'
  | none :: fields, q, h => by
    have h' : detailDecimal fields = some q := h
    exact detailDecimal_pos h'

/-- `a or b` on texts. -/
def textOr (a b : Option String) : Option String :=
  if a = none ∨ a = some "" then b else a

theorem textOr_self (a : Option String) : textOr a a = a := ite_self a

/-! ## What the venue answers -/

/-- The detail of an order. `state` is in lower case, the other texts in the case they are
compared in. -/
structure OrderDetail where
  state : String
  requestedQty : Field := none
  size : Field := none
  filledQty : Field := none
  filledSize : Field := none
  baseVolume : Field := none
  avgPrice : Field := none
  priceAvg : Field := none
  averagePrice : Field := none
  price : Field := none
  orderId : Option String := none
  providerOrderId : Option String := none
  clientOid : String := ""
  symbol : String := ""
  side : String := ""
  orderType : String := ""
  reduceOnly : String := ""

inductive DetailAnswer
  | notFound
  | failed
  | malformed
  | empty
  | found (detail : OrderDetail)

/-- `badRows` is a list with a row that is no object ; `more` says that the page is not the
last one, or that the answer holds no list. -/
inductive FillsAnswer
  | failed
  | malformed
  | badRows
  | page (fills : List ProviderFill) (more : Bool)

/-- A row of an answer about positions : its symbol, and its quantity where it has one. -/
structure PositionEntry where
  symbol : Option String
  quantity : Option Decimal

/-- A row that is no object is `none`. -/
inductive PositionAnswer
  | failed
  | malformed
  | rows (rows : List (Option PositionEntry))

/-- The symbols of the pending orders. -/
inductive PendingAnswer
  | failed
  | malformed
  | rows (symbols : List (Option String))

structure OrderReading where
  detail : DetailAnswer
  fills : FillsAnswer
  position : PositionAnswer
  pending : PendingAnswer

/-- What the venue returned to the placement of an order. -/
structure Submitted where
  orderId : Option String
  providerOrderId : Option String

/-! ## Fills -/

structure FillSummary where
  quantity : ℚ
  avgPrice : Option ℚ
  fee : ℚ
  fillIds : List String

/-- The fills `summarize_fills` counts. -/
def ProviderFill.counted (f : ProviderFill) : Option (ℚ × ℚ × ProviderFill) :=
  match f.quantity, f.price with
  | some q, some p => if 0 < q ∧ 0 < p then some (q, p, f) else none
  | _, _ => none

theorem ProviderFill.counted_pos {f g : ProviderFill} {q p : ℚ}
    (h : f.counted = some (q, p, g)) : 0 < q ∧ 0 < p := by
  unfold counted at h
  split at h
  · split at h
    next hpos =>
      simp only [Option.some.injEq, Prod.mk.injEq] at h
      obtain ⟨rfl, rfl, -⟩ := h
      exact hpos
    · cases h
  · cases h

/-- `summarize_fills`. -/
def summarizeFills (fills : List ProviderFill) : FillSummary :=
  let counted := fills.filterMap ProviderFill.counted
  let quantity := (counted.map fun c => c.1).sum
  { quantity := quantity
    avgPrice :=
      if 0 < quantity then some ((counted.map fun c => c.1 * c.2.1).sum / quantity) else none
    fee := (counted.map fun c => |c.2.2.fee|).sum
    fillIds := (counted.filterMap fun c => c.2.2.fillId).eraseDups }

theorem summarizeFills_nonneg (fills : List ProviderFill) :
    0 ≤ (summarizeFills fills).quantity := by
  refine List.sum_nonneg fun x hx => ?_
  obtain ⟨c, hc, rfl⟩ := List.mem_map.mp hx
  obtain ⟨f, -, hf⟩ := List.mem_filterMap.mp hc
  exact (ProviderFill.counted_pos hf).1.le

/-- Fills explicitly tied to the client order id, or to the order of the venue. -/
def matchingFills (fills : List ProviderFill) (clientOid : String)
    (providerOrderId : Option String) : List ProviderFill :=
  fills.filter fun f => f.clientOid = some clientOid ||
    providerOrderId.any (· = f.orderId.getD "None")

/-! ## Classification -/

inductive LiveOrderStatus
  | accepted
  | partiallyFilled
  | filled
  | rejected
  | unknown
deriving DecidableEq

def filledStatuses : List String := ["filled", "full-fill", "full_fill"]

def partialStatuses : List String :=
  ["partial", "partially_filled", "partial-fill", "partial_fill"]

def acceptedStatuses : List String :=
  ["new", "open", "accepted", "live", "pending", "submitting"]

def rejectedStatuses : List String := ["rejected", "cancelled", "canceled", "failed", "expired"]

/-- The states in which a detail reports an order terminal. -/
def terminalStatuses : List String :=
  ["filled", "full-fill", "full_fill", "cancelled", "canceled", "rejected", "expired"]

def OrderDetail.terminal (d : OrderDetail) : Bool := terminalStatuses.contains d.state

/-- The quantity `classify_live_order` works with. -/
def classifiedQty (d : OrderDetail) (fills : List ProviderFill) : ℚ :=
  max (summarizeFills fills).quantity
    ((firstPresent 0 [d.filledQty, d.filledSize, d.baseVolume]).getD 0)

/-- The order is covered by the quantity it reports as requested. -/
def requestedCovered (d : OrderDetail) (filledQty : ℚ) : Bool :=
  (firstPresent 0 [d.requestedQty, d.size]).any fun requested =>
    decide (0 < requested) && decide (requested ≤ filledQty)

/-- `classify_live_order`. -/
def classifyLiveOrder (d : OrderDetail) (fills : List ProviderFill) : LiveOrderStatus :=
  let rawStatus := strip d.state
  let filledQty := classifiedQty d fills
  if filledStatuses.contains rawStatus then
    if 0 < filledQty then .filled else .unknown
  else if partialStatuses.contains rawStatus then
    if requestedCovered d filledQty then .filled
    else if 0 < filledQty then .partiallyFilled else .accepted
  else if requestedCovered d filledQty then .filled
  else if 0 < filledQty then .partiallyFilled
  else if rejectedStatuses.contains rawStatus then .rejected
  else if rawStatus = "" ∧ fills = [] then .unknown
  else if acceptedStatuses.contains rawStatus ∨ rawStatus = "" then .accepted
  else .unknown

/-! ## Missing detail -/

/-- `_complete_fills`, none where a row is no object. -/
def completeFills : FillsAnswer → Option (List ProviderFill × Bool)
  | .failed | .malformed => some ([], false)
  | .badRows => none
  | .page fills more => some (fills, !more)

/-- `_flat_position(…) is True`. -/
def flatPosition (answer : PositionAnswer) (symbol : String) : Bool :=
  match answer with
  | .failed | .malformed => false
  | .rows rows => rows.all fun row =>
    match row with
    | none => false
    | some entry => entry.symbol.getD symbol ≠ symbol || entry.quantity = some (.finite 0)

/-- `_no_pending_orders(…) is True`. -/
def noPendingOrders (answer : PendingAnswer) (symbol : String) : Bool :=
  match answer with
  | .failed | .malformed => false
  | .rows symbols => symbols.all fun s => s.getD symbol ≠ symbol

/-- A read that raised leaves the others of the same block unused. -/
def OrderReading.blockFailed (reading : OrderReading) : Bool :=
  match reading.fills, reading.position, reading.pending with
  | .failed, _, _ => true
  | _, .failed, _ => true
  | _, _, .failed => true
  | _, _, _ => false

structure AsyncExecutionResult where
  clientOid : String
  status : LiveOrderStatus
  filledQty : ℚ
  avgPrice : Option ℚ
  fee : ℚ
  providerOrderId : Option String
  providerFillIds : List String
  providerFills : List ProviderFill
  providerTerminal : Bool

/-- The verdict of `classify_missing_detail`. -/
def missingDetailStatus (intent : LiveIntentRecord) (filledQty : ℚ)
    (complete flat noPending missingOrderConfirmed : Bool) : LiveOrderStatus :=
  let fillEvidenceSafe := complete && (intent.role = .entry || (flat && noPending))
  if fillEvidenceSafe ∧ intent.requestedQty ≤ filledQty then .filled
  else if fillEvidenceSafe ∧ 0 < filledQty then .partiallyFilled
  else if ((complete && flat && noPending) || (flat && noPending && filledQty = 0)) ∧
      missingOrderConfirmed then .rejected
  else .unknown

/-- The result for a missing detail, from the fills that could be read. -/
def missingDetailResult (intent : LiveIntentRecord) (providerOrderId : Option String)
    (missingOrderConfirmed : Bool) (fills : List ProviderFill)
    (complete flat noPending : Bool) : AsyncExecutionResult :=
  let fills := matchingFills fills intent.clientOid providerOrderId
  let summary := summarizeFills fills
  { clientOid := intent.clientOid
    status := missingDetailStatus intent summary.quantity complete flat noPending
      missingOrderConfirmed
    filledQty := summary.quantity
    avgPrice := summary.avgPrice
    fee := summary.fee
    providerOrderId := providerOrderId
    providerFillIds := summary.fillIds
    providerFills := fills
    providerTerminal := false }

/-- `classify_missing_detail`, none where it raises. -/
def classifyMissingDetail (intent : LiveIntentRecord) (reading : OrderReading)
    (providerOrderId : Option String) (missingOrderConfirmed : Bool) :
    Option AsyncExecutionResult :=
  let result := missingDetailResult intent providerOrderId missingOrderConfirmed
  if reading.blockFailed then some (result [] false false false)
  else (completeFills reading.fills).map fun fills =>
    result fills.1 fills.2 (flatPosition reading.position intent.symbol)
      (noPendingOrders reading.pending intent.symbol)

/-! ## The readback of an intent -/

/-- The ownership checks of a waiting limit entry. -/
def waitingEntryOwned (intent : LiveIntentRecord) (d : OrderDetail) (filledQty : ℚ) : Bool :=
  d.clientOid = intent.clientOid && d.symbol = intent.symbol && d.side = intent.side.text &&
    d.orderType = "limit" && (d.reduceOnly = "NO" || d.reduceOnly = "FALSE") &&
    (match firstPresent 0 [d.price] with
      | some price => intent.limitPrice = some price
      | none => false) &&
    firstPresent 0 [d.size] = some intent.requestedQty && decide (filledQty ≤ intent.requestedQty)

/-- The order id a readback with a detail object goes by. -/
def foundOrderId (intent : LiveIntentRecord) (submitted : Option Submitted)
    (orderId providerOrderId : Option String) : Option String :=
  match textOr orderId providerOrderId with
  | some oid => some oid
  | none =>
    match submitted.bind fun s => textOr s.orderId s.providerOrderId with
    | some oid => some oid
    | none => intent.providerOrderId

inductive ReadError
  | failed
  | invalid (text : String)
deriving DecidableEq

/-- The result for an empty detail object. -/
def emptyDetailResult (intent : LiveIntentRecord) (submitted : Option Submitted)
    (fills : List ProviderFill) : AsyncExecutionResult :=
  let orderId := foundOrderId intent submitted none none
  let fills := matchingFills fills intent.clientOid orderId
  let summary := summarizeFills fills
  { clientOid := intent.clientOid
    status :=
      if intent.requestedQty ≤ summary.quantity then .filled
      else if 0 < summary.quantity then .partiallyFilled
      else if submitted.isSome then .accepted else .unknown
    filledQty := summary.quantity
    avgPrice := summary.avgPrice
    fee := summary.fee
    providerOrderId := textOr orderId none
    providerFillIds := summary.fillIds
    providerFills := fills
    providerTerminal := false }

/-- The result for a detail object. -/
def detailResult (intent : LiveIntentRecord) (submitted : Option Submitted) (d : OrderDetail)
    (fills : List ProviderFill) : AsyncExecutionResult :=
  let orderId := foundOrderId intent submitted d.orderId d.providerOrderId
  let fills := matchingFills fills intent.clientOid orderId
  let summary := summarizeFills fills
  let detailQty := (detailDecimal [d.filledQty, d.filledSize, d.baseVolume]).filter
    fun q => summary.quantity < q
  { clientOid := intent.clientOid
    status := classifyLiveOrder d fills
    filledQty := detailQty.getD summary.quantity
    avgPrice :=
      if detailQty.isSome then detailDecimal [d.avgPrice, d.priceAvg, d.averagePrice]
      else summary.avgPrice
    fee := summary.fee
    providerOrderId := orderId
    providerFillIds := summary.fillIds
    providerFills := fills
    providerTerminal := d.terminal }

/-- The fills of the symbol, of one page. -/
def fillsPage : FillsAnswer → Except ReadError (List ProviderFill)
  | .failed => .error .failed
  | .malformed | .badRows => .error (.invalid "Bitget fills response must be a list of objects")
  | .page fills _ => .ok fills

/-- `reconcile_intent`, after its reads. -/
def reconcileIntent (intent : LiveIntentRecord) (submitted : Option Submitted)
    (reading : OrderReading) : Except ReadError AsyncExecutionResult :=
  match reading.detail with
  | .failed => .error .failed
  | .notFound =>
    let providerOrderId :=
      textOr (submitted.bind fun s => textOr s.orderId s.providerOrderId) intent.providerOrderId
    match classifyMissingDetail intent reading providerOrderId true with
    | some result => .ok result
    | none => .error .failed
  | .malformed =>
    match reading.fills with
    | .failed => .error .failed
    | _ => .error (.invalid "Bitget order detail response must be an object")
  | .empty => (fillsPage reading.fills).map (emptyDetailResult intent submitted)
  | .found d =>
    match fillsPage reading.fills with
    | .error e => .error e
    | .ok fills =>
      let result := detailResult intent submitted d fills
      if intent.orderType = .limit ∧ waitingEntryOwned intent d result.filledQty = false then
        .error (.invalid "Bitget waiting entry ownership mismatch")
      else .ok result

/-! ## What a readback promises -/

variable {intent : LiveIntentRecord} {submitted : Option Submitted} {reading : OrderReading}
  {result : AsyncExecutionResult}

/-- A result comes from a missing, an empty or a found detail. -/
theorem reconcileIntent_ok (h : reconcileIntent intent submitted reading = .ok result) :
    (reading.detail = .notFound ∧ ∃ oid,
        classifyMissingDetail intent reading oid true = some result) ∨
      (∃ fills, result = emptyDetailResult intent submitted fills) ∨
      ∃ d fills, reading.detail = .found d ∧ result = detailResult intent submitted d fills := by
  unfold reconcileIntent at h
  split at h
  · cases h
  next hd =>
    dsimp only at h
    split at h
    next r hr =>
      obtain rfl := Except.ok.inj h
      exact Or.inl ⟨hd, _, hr⟩
    · cases h
  · split at h <;> cases h
  · obtain ⟨fills, -, rfl⟩ := exists_of_map_ok h
    exact Or.inr (Or.inl ⟨fills, rfl⟩)
  next d hd =>
    split at h
    · cases h
    · dsimp only at h
      split at h
      · cases h
      · obtain rfl := Except.ok.inj h
        exact Or.inr (Or.inr ⟨d, _, hd, rfl⟩)

theorem classifyMissingDetail_some {oid : Option String} {confirmed : Bool}
    (h : classifyMissingDetail intent reading oid confirmed = some result) :
    ∃ fills complete flat noPending,
      result = missingDetailResult intent oid confirmed fills complete flat noPending := by
  unfold classifyMissingDetail at h
  dsimp only at h
  split at h
  · exact ⟨_, _, _, _, (Option.some.inj h).symm⟩
  · obtain ⟨fills, -, rfl⟩ := Option.map_eq_some_iff.mp h
    exact ⟨_, _, _, _, rfl⟩

theorem clientOid_of_reconcileIntent (h : reconcileIntent intent submitted reading = .ok result) :
    result.clientOid = intent.clientOid := by
  rcases reconcileIntent_ok h with ⟨-, oid, hm⟩ | ⟨fills, rfl⟩ | ⟨d, fills, -, rfl⟩
  · obtain ⟨_, _, _, _, rfl⟩ := classifyMissingDetail_some hm
    rfl
  · rfl
  · rfl

end FattyTrader
