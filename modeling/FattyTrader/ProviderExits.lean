import FattyTrader.LiveIntents
import Mathlib.Algebra.Order.BigOperators.Group.List
import Mathlib.Data.List.Infix

/-!
# Provider exits

A fill of the venue that carries no client order id, a liquidation or a close made outside
the bot, is an exit of its own. `normalizeProviderExit` reads it, `reconcileProviderExit`
claims a close for it, under a client order id derived from the fill, and writes it.

The payload is read twice. The observation takes its quantity, its price and its profit from
one list of keys, `insert_provider_fills` takes them from another (`ledgerFill`), and only
the second reading reaches `fills`. Where it reads no number, the close is completed with a
provisional row instead.

The client order id is derived from the fill, the provider order id is that of the order. Both
are unique in `live_order_intents`.
-/

set_option linter.unusedSectionVars false

open Tables

namespace FattyTrader

/-! ## Payloads -/

/-- A value that is read as `Decimal(str(value))`. -/
inductive RawNumber
  | null
  | empty
  | blank
  | malformed
  | decimal (d : Decimal)
deriving DecidableEq

/-- The value of a key, `none` when the key is absent. -/
abbrev RawField := Option RawNumber

/-- The first key that is present. -/
def firstRaw (fields : List RawField) : RawField := fields.findSome? id

/-- `_text` : the first text that is not blank, stripped. -/
def firstText : List (Option String) → Option String
  | [] => none
  | none :: fields => firstText fields
  | some value :: fields => if strip value = "" then firstText fields else some (strip value)

/-- One item of `feeDetail`. -/
structure FeeDetail where
  totalFee : RawField := none
  fee : RawField := none
  feeAmount : RawField := none
deriving DecidableEq

/-- A fill as the venue reports it, under the keys that are read. A text is `none` when it is
absent or null, but the fill ids keep the difference. `feeDetails` are the mappings of
`feeDetail`. -/
structure ExitPayload where
  clientOid : Option String := none
  client_oid : Option String := none
  clientOrderId : Option String := none
  symbol : Option String := none
  instId : Option String := none
  fillId : Option (Option String) := none
  tradeId : Option (Option String) := none
  id : Option (Option String) := none
  orderId : Option String := none
  ordId : Option String := none
  providerOrderId : Option String := none
  side : Option String := none
  orderSide : Option String := none
  tradeSide : Option String := none
  enterPointSource : Option String := none
  orderSource : Option String := none
  quantity : RawField := none
  fillSz : RawField := none
  fillQty : RawField := none
  size : RawField := none
  baseVolume : RawField := none
  price : RawField := none
  fillPx : RawField := none
  fillPrice : RawField := none
  priceAvg : RawField := none
  feeDetails : List FeeDetail := []
  fee : RawField := none
  fillFee : RawField := none
  feeAmount : RawField := none
  realizedPnl : RawField := none
  profit : RawField := none
  totalProfits : RawField := none
  realizedProfit : RawField := none
  cTime : Option Instant := none
  uTime : Option Instant := none
deriving DecidableEq

/-- `abs(_to_decimal(value) or Decimal("0"))` of the first key that is present. -/
def feeOf (fields : List RawField) : ℚ :=
  match firstRaw fields with
  | some (.decimal (.finite q)) => |q|
  | _ => 0

/-- The fee `normalize_fill` writes. -/
def ExitPayload.normalizedFee (p : ExitPayload) : ℚ :=
  if p.feeDetails = [] then feeOf [p.fee, p.fillFee, p.feeAmount]
  else (p.feeDetails.map fun d => feeOf [d.totalFee, d.fee, d.feeAmount]).sum

/-! ## Reading a payload -/

/-- A provider exit cannot be converted into a record, or the store refuses it. -/
inductive ProviderFillReconciliationError
  | refused (message : String)
  | storage (e : DbError)
deriving DecidableEq

inductive ProviderExitSource
  | systemLiquidation
  | providerExit
deriving DecidableEq

/-- The exchange is `bitget`, the one the monitor passes. -/
structure ProviderExitObservation where
  symbol : String
  side : Side
  source : ProviderExitSource
  providerOrderId : Option String
  providerFillId : String
  quantity : ℚ
  price : ℚ
  fee : ℚ
  realizedPnl : ℚ
  payload : ExitPayload
  quantity_pos : 0 < quantity
  price_pos : 0 < price
deriving DecidableEq

/-- `_decimal` : the first key that is present must hold a finite number, greater than zero
where `positive` is asked. -/
def exitDecimal (name : String) (positive : Bool) (fields : List RawField) :
    Except ProviderFillReconciliationError {q : ℚ // positive → 0 < q} :=
  let qualifier := if positive then "positive " else "finite "
  match firstRaw fields with
  | some (.decimal (.finite q)) =>
    if h : positive → 0 < q then .ok ⟨q, h⟩
    else .error (.refused ("provider fill field must be " ++ qualifier ++ "decimal: " ++ name))
  | some (.decimal .nonFinite) =>
    .error (.refused ("provider fill field must be " ++ qualifier ++ "decimal: " ++ name))
  | some .malformed => .error (.refused ("provider fill field is invalid: " ++ name))
  | _ => .error (.refused ("provider fill field is missing: " ++ name))

/-- The text, or the refusal that says it is missing. -/
def requireText (message : String) : Option String → Except ProviderFillReconciliationError String
  | none => .error (.refused message)
  | some text => .ok text

namespace ExitPayload

/-- `_side`. -/
def exitSide (p : ExitPayload) : Except ProviderFillReconciliationError Side :=
  let raw := ((firstText [p.side, p.orderSide]).getD "").toUpper
  let tradeSide := ((firstText [p.tradeSide]).getD "").toLower
  if raw = "BUY" then .ok .buy
  else if raw = "SELL" then .ok .sell
  else if "sell".toList <:+: tradeSide.toList then .ok .sell
  else if "buy".toList <:+: tradeSide.toList then .ok .buy
  else .error (.refused "provider exit side is missing or invalid")

def exitSource (p : ExitPayload) : ProviderExitSource :=
  let enterSource := ((firstText [p.enterPointSource, p.orderSource]).getD "").toUpper
  let tradeSide := ((firstText [p.tradeSide]).getD "").toLower
  if enterSource = "SYS" ∨ "burst_".toList.isPrefixOf tradeSide.toList then .systemLiquidation
  else .providerExit

/-- An exit belongs to no intent of the bot. -/
def refuseOwned (p : ExitPayload) : Except ProviderFillReconciliationError Unit :=
  if (firstText [p.clientOid, p.client_oid, p.clientOrderId]).isSome then
    .error (.refused "provider fill already has a client OID")
  else .ok ()

/-- The profit, which may be absent altogether. -/
def exitPnl (p : ExitPayload) : Except ProviderFillReconciliationError ℚ :=
  let fields := [p.realizedPnl, p.profit, p.totalProfits, p.realizedProfit]
  if fields.any Option.isSome then (exitDecimal "realizedPnl" false fields).map Subtype.val
  else .ok 0

/-- The id of the fill, as the observation reads it. -/
def exitFillId (p : ExitPayload) : Option String :=
  firstText [p.fillId.join, p.tradeId.join, p.id.join]

end ExitPayload

/-- `normalize_provider_exit`. -/
def normalizeProviderExit (p : ExitPayload) :
    Except ProviderFillReconciliationError ProviderExitObservation := do
  let _ ← p.refuseOwned
  let symbol ← requireText "provider fill symbol is missing" (firstText [p.symbol, p.instId])
  let providerFillId ← requireText "provider fill ID is missing" p.exitFillId
  let quantity ← exitDecimal "quantity" true [p.quantity, p.fillSz, p.fillQty, p.size, p.baseVolume]
  let price ← exitDecimal "price" true [p.price, p.fillPx, p.fillPrice, p.priceAvg]
  let realizedPnl ← p.exitPnl
  let side ← p.exitSide
  return {
    symbol := (strip symbol).toUpper
    side
    source := p.exitSource
    providerOrderId := firstText [p.orderId, p.ordId, p.providerOrderId]
    providerFillId
    quantity := quantity.1
    price := price.1
    fee := |p.normalizedFee|
    realizedPnl
    payload := p
    quantity_pos := quantity.2 rfl
    price_pos := price.2 rfl }

/-- What an observation says about the payload it was read from. -/
theorem normalizeProviderExit_ok {p : ExitPayload} {o : ProviderExitObservation}
    (h : normalizeProviderExit p = .ok o) :
    o.payload = p ∧ o.fee = |p.normalizedFee| ∧ p.exitFillId = some o.providerFillId := by
  obtain ⟨-, -, h⟩ := exists_of_bind_ok h
  obtain ⟨symbol, -, h⟩ := exists_of_bind_ok h
  obtain ⟨providerFillId, hid, h⟩ := exists_of_bind_ok h
  obtain ⟨quantity, -, h⟩ := exists_of_bind_ok h
  obtain ⟨price, -, h⟩ := exists_of_bind_ok h
  obtain ⟨realizedPnl, -, h⟩ := exists_of_bind_ok h
  obtain ⟨side, -, h⟩ := exists_of_bind_ok h
  obtain rfl := Except.ok.inj h
  refine ⟨rfl, rfl, ?_⟩
  unfold requireText at hid
  split at hid
  · cases hid
  next text htext =>
    rw [htext, Except.ok.inj hid]

theorem strip_strip (s : String) : strip (strip s) = strip s := by
  have hdrop : ((s.toList.dropWhile isSpace).rdropWhile isSpace).dropWhile isSpace =
      (s.toList.dropWhile isSpace).rdropWhile isSpace := by
    rw [List.dropWhile_eq_self_iff]
    intro hlen
    have hpre := List.rdropWhile_prefix isSpace (l := s.toList.dropWhile isSpace)
    have hlen' : 0 < (s.toList.dropWhile isSpace).length := hlen.trans_le hpre.length_le
    rw [hpre.getElem hlen]
    exact List.dropWhile_get_zero_not isSpace s.toList hlen'
  simp only [strip, String.toList_ofList, hdrop, List.rdropWhile_idempotent isSpace _]

theorem firstText_spec : ∀ {fields : List (Option String)} {text : String},
    firstText fields = some text → text ≠ "" ∧ strip text = text
  | none :: fields, text, h => @firstText_spec fields text h
  | some value :: fields, text, h => by
    unfold firstText at h
    split at h
    · exact @firstText_spec fields text h
    next hne =>
      obtain rfl := Option.some.inj h
      exact ⟨hne, strip_strip value⟩

/-- A text that is stripped and not blank is the first one, if it is the value of the first
key that is present. -/
theorem firstText_of_firstPresent {text : String} (hne : text ≠ "") (hstrip : strip text = text) :
    ∀ {fields : List (Option (Option String))}, (fields.findSome? fun v => v) = some (some text) →
      firstText (fields.map Option.join) = some text
  | none :: fields, h => @firstText_of_firstPresent text hne hstrip fields h
  | some value :: fields, h => by
    obtain rfl : value = some text := by simpa using h
    simp [firstText, hstrip, hne]

/-! ## The second reading -/

/-- The number of the first key that is present. -/
def rawNumber (fields : List RawField) : Option ℚ :=
  match firstRaw fields with
  | some (.decimal (.finite q)) => some q
  | _ => none

namespace ExitPayload

/-- The profit `insert_provider_fills` reads. Null and the empty text count as zero. -/
def ledgerPnl (p : ExitPayload) : Option ℚ :=
  match firstRaw [p.realizedPnl, p.profit, p.totalProfits] with
  | none | some .null | some .empty => some 0
  | some (.decimal (.finite q)) => some q
  | some _ => none

/-- The fill `insert_provider_fills` reads, `none` when it skips it for its profit. -/
def ledgerFill (p : ExitPayload) : Option ProviderFill :=
  match p.ledgerPnl with
  | none => none
  | some realizedPnl => some
      { fillId := ([p.fillId, p.tradeId, p.id].findSome? fun v => v).join
        orderId := p.orderId
        clientOid := p.clientOid
        quantity := rawNumber [p.quantity, p.size, p.fillQty, p.baseVolume]
        price := rawNumber [p.price, p.fillPrice, p.priceAvg]
        fee := p.normalizedFee
        realizedPnl
        time := p.cTime.or p.uTime }

end ExitPayload

/-! ## Fills that are exits -/

/-- A fill of the venue that `normalize_provider_exit` accepts. -/
structure ProviderExit where
  payload : ExitPayload
  observation : ProviderExitObservation
  normalized : normalizeProviderExit payload = .ok observation

namespace ProviderExitObservation

/-- What the digest of a client order id is taken of. -/
def material (o : ProviderExitObservation) : String :=
  "bitget|" ++ o.symbol ++ "|" ++ o.providerOrderId.getD "" ++ "|" ++ o.providerFillId

/-- `_client_oid`, for the first 24 hexadecimal digits of a digest. -/
def clientOid (digest : String → String) (o : ProviderExitObservation) : String :=
  "provider-bitget-" ++ digest o.material

/-- The close an exit is claimed with. -/
def record (digest : String → String) (o : ProviderExitObservation) : LiveIntentRecord where
  clientOid := o.clientOid digest
  symbol := o.symbol
  side := o.side
  role := .close
  state := .filled
  requestedQty := o.quantity
  filledQty := o.quantity
  avgPrice := some o.price
  fee := o.fee
  providerOrderId := o.providerOrderId
  providerFillIds := [o.providerFillId]
  providerFills := o.payload.ledgerFill.toList

/-- The record an exit makes of a close that does not list it. -/
def merge (o : ProviderExitObservation) (existing : LiveIntentRecord) : LiveIntentRecord :=
  { existing with
    state := .filled
    filledQty := o.quantity
    avgPrice := some o.price
    fee := o.fee
    providerFillIds := [o.providerFillId]
    providerFills := o.payload.ledgerFill.toList }

variable (digest : String → String) (o : ProviderExitObservation)

theorem checked_inserted : (o.record digest).inserted.Checked where
  requested_pos := o.quantity_pos
  filled_nonneg := o.quantity_pos.le
  avgPrice_pos := by simp [LiveIntentRecord.inserted]
  evidence := Or.inl rfl

theorem checked_written {record r : LiveIntentRecord} (hr : r.Checked)
    (hq : record.filledQty = o.quantity) (hp : record.avgPrice = some o.price) :
    (record.written r).Checked where
  requested_pos := hr.requested_pos
  filled_nonneg := hq.symm ▸ o.quantity_pos.le
  avgPrice_pos := by
    intro p h
    obtain rfl : o.price = p := Option.some.inj (hp.symm.trans h)
    exact o.price_pos
  evidence := hr.evidence

end ProviderExitObservation

/-! ## Reconciling an exit -/

/-- The durable identity of an exit. -/
structure ProviderExitReconciliation where
  source : ProviderExitSource
  clientOid : String
  providerOrderId : Option String
  providerFillId : String
  record : LiveIntentRecord
  created : Bool := false

namespace Db

/-- What is returned for an exit once its record is durable. -/
def reconciliation (digest : String → String) (o : ProviderExitObservation)
    (record : LiveIntentRecord) (created : Bool) : ProviderExitReconciliation where
  source := o.source
  clientOid := o.clientOid digest
  providerOrderId := o.providerOrderId
  providerFillId := o.providerFillId
  record
  created

/-- `reconcile_provider_exit` after the reading. The claim and the update are transactions of
their own. -/
def persistExit (digest : String → String) (now : Instant) (db : Db)
    (o : ProviderExitObservation) :
    Except ProviderFillReconciliationError ProviderExitReconciliation × Db :=
  match db.claim now (o.record digest) with
  | .error e => (.error (.storage e), db)
  | .ok (db₁, true) =>
    match db₁.update now (o.record digest) with
    | .error e => (.error (.storage e), db₁)
    | .ok db₂ => (.ok (reconciliation digest o (o.record digest) true), db₂)
  | .ok (db₁, false) =>
    match db₁.get (o.clientOid digest) with
    | none => (.error (.refused "provider reconciliation claim has no record"), db₁)
    | some existing =>
      if existing.providerOrderId ≠ o.providerOrderId then
        (.error (.refused "provider order ID conflicts with reconciliation"), db₁)
      else if o.providerFillId ∈ existing.providerFillIds then
        (.ok (reconciliation digest o existing false), db₁)
      else
        match db₁.update now (o.merge existing) with
        | .error e => (.error (.storage e), db₁)
        | .ok db₂ => (.ok (reconciliation digest o (o.merge existing) false), db₂)

/-- `reconcile_provider_exit`. -/
def reconcileProviderExit (digest : String → String) (now : Instant) (db : Db)
    (payload : ExitPayload) :
    Except ProviderFillReconciliationError ProviderExitReconciliation × Db :=
  match normalizeProviderExit payload with
  | .error e => (.error e, db)
  | .ok o => db.persistExit digest now o

end Db

end FattyTrader
