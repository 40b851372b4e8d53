import FattyTrader.LiveIntents
import FattyTrader.Programs

/-!
# The fallback protection of a position

A position whose venue refuses native stops is held by a row of `fallback_protection`. Two lanes
watch the rows : the monitor polls them (`runFallbackMonitor`), and the protection stream submits
a close when a mark crosses a level (`submitFallbackClose`). Each lane loads the rows once and
acts on what it loaded, so a lane may hold a row that has moved on since.

A close is sent after `ensureCloseIntent` answered with true : it locks the row, inserts the intent
of the close and moves the row to `closing`, in one transaction. The other writes of a row,
`markClosing`, `markPositionFlat` and the last one of `persistCloseFills`, are by its id alone.

The lanes are programs over the operations `FallbackOp`, and `fallbackSystem` runs any number of
calls of them. The environment registers rows, moves their levels, cancels an active row, and
writes the ledger for every other lane.
-/

set_option linter.unusedSectionVars false

open Tables Programs

namespace FattyTrader

/-! ## The table -/

inductive FallbackStatus
  | active
  | closing
  | triggered
  | cancelled
deriving DecidableEq

/-- `state IN ('active', 'closing')`. -/
def FallbackStatus.watched : FallbackStatus → Bool
  | .active => true
  | .closing => true
  | _ => false

/-- A row of `fallback_protection`, its id as text. -/
structure FallbackRow where
  id : String
  symbol : String
  direction : Direction
  entryPrice : ℚ
  stopLoss : ℚ
  takeProfits : List ℚ
  quantity : ℚ
  positionKey : Option String
  providerPositionEpoch : Option String
  environment : Option Environment
  state : FallbackStatus := .active
  closePrice : Option ℚ := none
  closeReason : Option String := none
  closeOrderId : Option String := none
deriving DecidableEq

namespace FallbackRow

/-- The primary key, and `UNIQUE (position_key) WHERE state IN ('active', 'closing')`, which
ignores null keys. -/
def Conflict (a b : FallbackRow) : Prop :=
  a.id = b.id ∨ (a.positionKey = b.positionKey ∧ a.positionKey ≠ none ∧
    a.state.watched ∧ b.state.watched)

instance : DecidableRel Conflict := fun a b =>
  inferInstanceAs (Decidable (a.id = b.id ∨ (a.positionKey = b.positionKey ∧
    a.positionKey ≠ none ∧ a.state.watched ∧ b.state.watched)))

instance : Std.Symm Conflict where
  symm a b h := by
    rcases h with h | ⟨h, hne, ha, hb⟩
    · exact Or.inl h.symm
    · exact Or.inr ⟨h.symm, h ▸ hne, hb, ha⟩

theorem conflict_of_id {a b : FallbackRow} (h : a.id = b.id) : Conflict a b := Or.inl h

end FallbackRow

/-- `_fallback_client_oid`. -/
def fallbackClientOid (fallbackId : String) : String :=
  "fb-" ++ String.ofList ((fallbackId.toList.filter (· ≠ '-')).take 20) ++ "-close"

/-- The side that closes a position. -/
def Direction.closeSide : Direction → Side
  | .long => .sell
  | .short => .buy

abbrev FallbackRows := Table FallbackRow FallbackRow.Conflict

structure FallbackWorld where
  db : Db
  fallbacks : FallbackRows

inductive FallbackError
  | db (e : DbError)
  | valueError (text : String)
  | connection
  | provider
deriving DecidableEq

/-! ## Readings of the venue -/

/-- A row of a position reading : the keys the lanes read. `quantities` are the values of
`total`, `size` and `quantity` that are present. -/
structure PositionReading where
  symbol : Option String
  holdSide : Option Direction
  cTime : Option String
  oneWayMode : Bool
  isolated : Bool
  quantities : List (Option Decimal)
deriving DecidableEq

/-- The list a position answer holds, `none` where it holds none ; an entry is `none` where it is
no object. -/
abbrev PositionPayload := Option (List (Option PositionReading))

/-- The quantity of one row : every value is a number that is not negative, and all agree. -/
def PositionReading.openQuantity (row : PositionReading) : Option ℚ :=
  match row.quantities with
  | some (.finite q) :: rest =>
    if 0 ≤ q && rest.all fun v => v = some (.finite q) then some q else none
  | _ => none

def rowsQuantity : List (Option PositionReading) → Option ℚ
  | [] => some 0
  | none :: _ => none
  | some row :: rows =>
    match row.openQuantity, rowsQuantity rows with
    | some q, some total => some (q + total)
    | _, _ => none

/-- `_open_quantity`. -/
def openQuantity (positions : PositionPayload) : Option ℚ := positions.bind rowsQuantity

/-- `_ticker_mark_price`, over the marks of the rows that carry one. -/
def tickerMarkPrice (marks : List Decimal) : Option ℚ := marks.findSome? Decimal.positive

/-- `check_thresholds`. A mark at the smallest target of a long is at some target. -/
def checkThresholds (direction : Direction) (mark sl : ℚ) (tps : List ℚ) : Option String :=
  match direction with
  | .long =>
    if tps.any fun tp => tp ≤ mark then some "tp_hit"
    else if mark ≤ sl then some "sl_hit" else none
  | .short =>
    if tps.any fun tp => mark ≤ tp then some "tp_hit"
    else if sl ≤ mark then some "sl_hit" else none

/-- A row of a fills reading, after `normalize_fill`. `fee` is `none` where the fee evidence is
missing or no number, and so are `quantity`, `price` and `time`. -/
structure FallbackFill where
  fee : Option ℚ
  clientOid : Option String
  orderId : Option String
  symbol : Option String
  side : Option Side
  tradeSide : Option String
  fillId : Option String
  quantity : Option ℚ
  price : Option ℚ
  time : Option Instant
  realizedPnl : Option ℚ
deriving DecidableEq

/-! ## Transactions -/

namespace FallbackWorld

variable (w : FallbackWorld)

/-- `UPDATE fallback_protection … WHERE id = …`. -/
def setFallback (id : String) (f : FallbackRow → FallbackRow) :
    Except FallbackError FallbackWorld :=
  match w.fallbacks.updateWhere (fun row => row.id = id) f with
  | none => .error (.db .uniqueViolation)
  | some fallbacks => .ok { w with fallbacks }

/-- `mark_closing`. -/
def markClosing (id clientOid : String) (orderId : Option String) :
    Except FallbackError FallbackWorld :=
  w.setFallback id fun row =>
    { row with
      state := .closing
      closeReason := some "close-submitted"
      closeOrderId := some ((orderId.filter (· ≠ "")).getD clientOid) }

/-- `mark_position_flat`. -/
def markPositionFlat (id : String) : Except FallbackError FallbackWorld :=
  w.setFallback id fun row =>
    { row with
      state := .cancelled
      closeReason := some "position-already-flat" }

/-- The intent a close claims. -/
def closeIntent (clientOid symbol : String) (side : Side) (quantity : ℚ) : LiveIntentRecord where
  clientOid := clientOid
  symbol := symbol
  side := side
  role := .close
  requestedQty := quantity
  marginMode := some .isolated

/-- The rows `_ensure_close_intent` locks. -/
def closeOwners (clientOid symbol : String) (side : Side) (quantity : ℚ) : List FallbackRow :=
  w.fallbacks.rows.filter fun row =>
    row.symbol = symbol && row.direction.closeSide = side && quantity ≤ row.quantity &&
      0 < row.quantity && fallbackClientOid row.id = clientOid

/-- The row `_ensure_close_intent` leaves. -/
def claimed (id clientOid : String) : Except FallbackError FallbackWorld :=
  w.setFallback id fun row =>
    { row with
      state := .closing
      closeReason := some "close-claimed"
      closeOrderId := some clientOid }

/-- `_ensure_close_intent`. Of an intent that exists already only the row is adopted. -/
def ensureCloseIntent (now : Instant) (clientOid symbol : String) (side : Side) (quantity : ℚ) :
    Except FallbackError (FallbackWorld × Bool) :=
  match w.closeOwners clientOid symbol side quantity with
  | [owner] =>
    if owner.state ≠ .active then .ok (w, false)
    else match w.db.insertIntent now (closeIntent clientOid symbol side quantity) with
      | .error e => .error (.db e)
      | .ok (db, true) => ({ w with db := db }.claimed owner.id clientOid).map (·, true)
      | .ok (_, false) =>
        match w.db.get clientOid with
        | some r =>
          if r.symbol = symbol ∧ r.side = side ∧ r.role = .close ∧ r.requestedQty = quantity then
            (w.claimed owner.id clientOid).map (·, false)
          else .ok (w, false)
        | none => .ok (w, false)
  | _ => .ok (w, false)

/-- `_update_close_intent`. -/
def updateCloseIntent (clientOid : String) (state : IntentState)
    (providerOrderId : Option String) : Except FallbackError FallbackWorld :=
  match w.db.get clientOid with
  | none => .ok w
  | some _ =>
    match w.db.setIntent clientOid fun r =>
      { r with state := state, providerOrderId := providerOrderId.or r.providerOrderId } with
    | .error e => .error (.db e)
    | .ok db => .ok { w with db }

/-- The entry intent the position of a row rests on, with the quantity of the reading. -/
def ownedEntry (positionKey symbol : String) (side : Side) (quantity : ℚ) : Bool :=
  match w.db.get positionKey with
  | some r =>
    r.symbol = symbol && r.side = side && r.role = .entry &&
      (r.state = .filled || r.state = .partiallyFilled || r.state = .reconciled) &&
      r.filledQty = quantity
  | none => false

end FallbackWorld

/-! ## Close evidence -/

/-- What `_persist_close_fills` has gathered of a reading : the order id, and each accepted fill
by its id with what it says of quantity, price and fee. -/
structure CloseEvidence where
  providerOrderId : Option String
  fingerprints : List (String × ℚ × ℚ × ℚ) := []
  fills : List ProviderFill := []

/-- A fill of the close of the intent `r`, with its id, order id, quantity, price, fee and time. -/
def FallbackFill.accepted (fill : FallbackFill) (r : LiveIntentRecord)
    (providerOrderId : Option String) : Option (String × String × ℚ × ℚ × ℚ × Instant) :=
  match fill.fee, fill.orderId, fill.fillId, fill.quantity, fill.price, fill.time with
  | some fee, some orderId, some fillId, some quantity, some price, some time =>
    if (fill.clientOid = some r.clientOid ∨ providerOrderId = some orderId) ∧
        (fill.clientOid = none ∨ fill.clientOid = some r.clientOid) ∧
        (providerOrderId = none ∨ providerOrderId = some orderId) ∧
        fill.symbol = some r.symbol ∧ fill.side = some r.side ∧
        (fill.tradeSide = none ∨ fill.tradeSide = some "close") ∧
        0 < quantity ∧ 0 < price ∧ 0 < time ∧
        strip fillId ≠ "" ∧ statusDerived fillId = false then
      some (fillId, orderId, quantity, price, |fee|, time)
    else none
  | _, _, _, _, _, _ => none

namespace FallbackWorld

variable (w : FallbackWorld)

/-- One row of the reading. A fill that contradicts another row, or the ledger, is an error. -/
def gatherFill (r : LiveIntentRecord) (e : CloseEvidence) (fill : FallbackFill) :
    Except FallbackError CloseEvidence :=
  match fill.accepted r e.providerOrderId with
  | none => .ok e
  | some (fillId, orderId, quantity, price, fee, time) =>
    if e.fingerprints.any fun p => p.1 = fillId && p.2 ≠ (quantity, price, fee) then
      .error (.valueError "fallback duplicate fill contradicts provider evidence")
    else
      let durable := w.db.fills.find FillRow.providerFillId fillId
      if durable.any fun row => row.clientOrderId ≠ r.clientOid then
        .error (.valueError "fallback fill belongs to another intent")
      else if durable.any fun row => (row.quantity, row.price, row.fee) ≠ (quantity, price, fee) then
        .error (.valueError "fallback duplicate fill contradicts durable evidence")
      else .ok
        { providerOrderId := some (e.providerOrderId.getD orderId)
          fingerprints := (fillId, quantity, price, fee) :: e.fingerprints
          -- a fill whose profit is no number is not inserted
          fills := match fill.realizedPnl with
            | none => e.fills
            | some pnl => e.fills ++
              [⟨some fillId, some orderId, fill.clientOid, some quantity, some price, fee, pnl,
                some time⟩] }

def gatherFills (r : LiveIntentRecord) : CloseEvidence → List (Option FallbackFill) →
    Except FallbackError CloseEvidence
  | e, [] => .ok e
  | e, none :: rows => gatherFills r e rows
  | e, some fill :: rows =>
    match w.gatherFill r e fill with
    | .error err => .error err
    | .ok e' => gatherFills r e' rows

/-- The fills of the ledger that belong to a client order id. -/
def ledgerOf (db : Db) (clientOid : String) : List FillRow :=
  db.fills.rows.filter fun f => f.clientOrderId = clientOid

/-- The intent `_persist_close_fills` locks, when the row of the id may take close evidence. -/
def closeTarget (id symbol : String) : Option (FallbackRow × LiveIntentRecord) :=
  match w.fallbacks.find FallbackRow.id id with
  | none => none
  | some owner =>
    if owner.symbol = symbol ∧ owner.state ≠ .cancelled then
      match w.db.get (fallbackClientOid id) with
      | none => none
      | some r =>
        if r.role = .close ∧ r.symbol = owner.symbol ∧ r.side = owner.direction.closeSide then
          some (owner, r)
        else none
    else none

/-- The ledger with the evidence of a reading, and the rewritten intent. `none` where the
ledger has no fill of the close. -/
def closeLedger (now : Instant) (r : LiveIntentRecord) (rows : List (Option FallbackFill)) :
    Except FallbackError (Option (Db × LiveIntentRecord)) :=
  match w.gatherFills r ⟨r.providerOrderId, [], []⟩ rows with
  | .error e => .error e
  | .ok e =>
    let db := w.db.insertProviderFills now { r with state := .unknown } e.fills
    let ledger := ledgerOf db r.clientOid
    if ledger.isEmpty then .ok none
    else if ledger.any fun f => statusDerived f.providerFillId then
      .error (.valueError "legacy synthetic fallback ledger requires evidence repair")
    else
      let quantity := (ledger.map FillRow.quantity).sum
      if quantity ≤ 0 ∨ r.requestedQty < quantity then
        .error (.valueError "fallback close fill quantity contradicts intent")
      else .ok (some (db,
        { r with
          state := if quantity = r.requestedQty then .filled else .partiallyFilled
          providerOrderId := e.providerOrderId
          filledQty := quantity
          avgPrice := some ((ledger.map fun f => f.quantity * f.price).sum / quantity)
          fee := (ledger.map FillRow.fee).sum
          providerFillIds := ledger.map FillRow.providerFillId }))

/-- `_persist_close_fills`. -/
def persistCloseFills (now : Instant) (id symbol : String) (rows : List (Option FallbackFill))
    (flat : Bool) : Except FallbackError (FallbackWorld × Bool) :=
  match w.closeTarget id symbol with
  | none => .ok (w, false)
  | some (_, r) =>
    match w.closeLedger now r rows with
    | .error e => .error e
    | .ok none => .ok (w, false)
    | .ok (some (db, r')) =>
      match db.setIntent r.clientOid fun stored =>
        { stored with
          state := r'.state
          providerOrderId := r'.providerOrderId
          filledQty := r'.filledQty
          avgPrice := r'.avgPrice
          fee := r'.fee
          providerFillIds := r'.providerFillIds } with
      | .error e => .error (.db e)
      | .ok db =>
        let confirmed := decide (r'.state = .filled) && flat
        ({ w with db := db }.setFallback id fun row =>
          { row with
            state := if confirmed then .triggered else .closing
            closeReason := some (if confirmed then "close-confirmed" else "close-evidence-pending")
            closePrice := if confirmed then r'.avgPrice else none
            closeOrderId := some ((r'.providerOrderId.filter (· ≠ "")).getD r.clientOid) }).map
          (·, confirmed)

end FallbackWorld
/-! ## The lanes -/

inductive FallbackOp
  | loadActive
  | getSinglePosition (symbol : String)
  | getTicker (symbol : String)
  | getFills (symbol : String)
  | ownedEntry (positionKey symbol : String) (side : Side) (quantity : ℚ)
  | ensureCloseIntent (clientOid symbol : String) (side : Side) (quantity : ℚ)
  | markClosing (id clientOid : String) (orderId : Option String)
  | markPositionFlat (id : String)
  | placeMarketClose (symbol : String) (side : Side) (quantity : ℚ) (clientOid : String)
  | updateCloseIntent (clientOid : String) (state : IntentState) (providerOrderId : Option String)
  | persistCloseFills (id symbol : String) (rows : List (Option FallbackFill)) (flat : Bool)
deriving DecidableEq

/-- An acknowledgement is `none` where it is no object, and may carry an order id. -/
abbrev FallbackAns : FallbackOp → Type
  | .loadActive => List FallbackRow
  | .getSinglePosition _ => PositionPayload
  | .getTicker _ => List Decimal
  | .getFills _ => Option (List (Option FallbackFill))
  | .ownedEntry _ _ _ _ => Bool
  | .ensureCloseIntent _ _ _ _ => Bool
  | .markClosing _ _ _ => Unit
  | .markPositionFlat _ => Unit
  | .placeMarketClose _ _ _ _ => Option (Option String)
  | .updateCloseIntent _ _ _ => Unit
  | .persistCloseFills _ _ _ _ => Bool

abbrev FallbackProg (α : Type) := Prog FallbackOp FallbackAns FallbackError α
abbrev FallbackEvent := Event FallbackOp FallbackAns FallbackError

namespace FallbackProg

open Prog

def call (o : FallbackOp) : FallbackProg (FallbackAns o) := perform o

/-- A reading, `none` where it fails. -/
def reading {α : Type} (p : FallbackProg α) : FallbackProg (Option α) := do
  match ← attempt p with
  | .ok a => pure (some a)
  | .error _ => pure none

/-- `_owned_quantity`. -/
def ownedQuantity (positions : PositionPayload) (entry : FallbackRow) :
    FallbackProg (Option ℚ) :=
  match entry.positionKey.filter (· ≠ ""), entry.providerPositionEpoch.filter (· ≠ ""),
      entry.environment, positions with
  | some positionKey, some epoch, some _, some [some row] =>
    if row.symbol ≠ some entry.symbol ∨ row.holdSide ≠ some entry.direction ∨
        row.cTime ≠ some epoch ∨ row.oneWayMode = false ∨ row.isolated = false then pure none
    else match row.openQuantity with
      | none => pure none
      | some quantity =>
        if entry.quantity ≤ 0 ∨ quantity ≠ entry.quantity then pure none
        else do
          let owned ← call (.ownedEntry positionKey entry.symbol entry.direction.side quantity)
          pure (if owned then some quantity else none)
  | _, _, _, _ => pure none

/-- `_reconcile_close_evidence`. -/
def reconcileCloseEvidence (entry : FallbackRow) (flat : Bool) : FallbackProg Bool := do
  match ← attempt (call (.getFills entry.symbol)) with
  | .error _ => do
    call (.updateCloseIntent (fallbackClientOid entry.id) .unknown none)
    pure false
  | .ok none => pure false
  | .ok (some rows) => call (.persistCloseFills entry.id entry.symbol rows flat)

/-- The readback after a close : the open quantity, `none` where it is unknown. -/
def remainingQuantity (symbol : String) : FallbackProg (Option ℚ) := do
  match ← reading (call (.getSinglePosition symbol)) with
  | some positions => pure (openQuantity positions)
  | none => pure none

/-- What `run_fallback_monitor_async` reports of a confirmed close. -/
structure TriggeredClose where
  symbol : String
  direction : Direction
  reason : String
  markPrice : ℚ
  closeOid : String
  orderId : Option String

/-- The close of the polling lane, from its claim on. -/
def pollingClose (entry : FallbackRow) (openQty mark : ℚ) (reason : String) :
    FallbackProg (Option TriggeredClose) := do
  let clientOid := fallbackClientOid entry.id
  let quantity := min entry.quantity openQty
  let side := entry.direction.closeSide
  let claimed ← call (.ensureCloseIntent clientOid entry.symbol side quantity)
  if claimed = false then pure none
  else do
    call (.markClosing entry.id clientOid none)
    match ← attempt (call (.placeMarketClose entry.symbol side quantity clientOid)) with
    | .error _ => do
      call (.updateCloseIntent clientOid .unknown none)
      pure none
    | .ok result => do
      let providerOrderId := result.join.filter (· ≠ "")
      call (.updateCloseIntent clientOid .submitted providerOrderId)
      call (.markClosing entry.id clientOid providerOrderId)
      match ← remainingQuantity entry.symbol with
      | none => do
        call (.updateCloseIntent clientOid .unknown providerOrderId)
        pure none
      | some remaining =>
        if 0 < remaining then pure none
        else do
          let confirmed ← reconcileCloseEvidence entry true
          pure (if confirmed then
            some ⟨entry.symbol, entry.direction, reason, mark, clientOid, providerOrderId⟩
          else none)

/-- One row of the polling lane. -/
def pollEntry (environment : Option Environment) (entry : FallbackRow) :
    FallbackProg (Option TriggeredClose) := do
  if environment = none ∨ entry.environment ≠ environment then pure none
  else match ← reading (call (.getSinglePosition entry.symbol)) with
    | none => pure none
    | some positions =>
      match openQuantity positions with
      | none => pure none
      | some openQty =>
        if openQty ≤ 0 then
          if entry.state = .closing then do
            let _ ← reconcileCloseEvidence entry true
            pure none
          else do
            call (.markPositionFlat entry.id)
            pure none
        else if entry.state = .closing then do
          let _ ← reconcileCloseEvidence entry false
          pure none
        else match ← ownedQuantity positions entry with
          | none => pure none
          | some _ =>
            match ← reading (call (.getTicker entry.symbol)) with
            | none => pure none
            | some marks =>
              match tickerMarkPrice marks with
              | none => pure none
              | some mark =>
                match checkThresholds entry.direction mark entry.stopLoss entry.takeProfits with
                | none => pure none
                | some reason => pollingClose entry openQty mark reason

/-- `run_fallback_monitor_async`. -/
def runFallbackMonitor (environment : Option Environment) : FallbackProg (List TriggeredClose) := do
  match ← attempt (call .loadActive) with
  | .error _ => pure []
  | .ok entries => do
    let triggered ← each entries (pollEntry environment)
    pure (triggered.filterMap id)

/-- What `submit_fallback_close_async` returns. -/
structure CloseOutcome where
  submitted : Bool
  reason : String
  clientOid : String
  orderId : Option String := none

/-- The close of the stream lane, from its claim on. -/
def streamClose (entry : FallbackRow) (owned : ℚ) : FallbackProg CloseOutcome := do
  let clientOid := fallbackClientOid entry.id
  let quantity := min entry.quantity owned
  let side := entry.direction.closeSide
  if quantity ≤ 0 then pure ⟨false, "close-quantity-invalid", clientOid, none⟩
  else do
    let claimed ← call (.ensureCloseIntent clientOid entry.symbol side quantity)
    if claimed = false then pure ⟨false, "close-already-claimed", clientOid, none⟩
    else do
      call (.markClosing entry.id clientOid none)
      match ← attempt (call (.placeMarketClose entry.symbol side quantity clientOid)) with
      | .error _ => do
        call (.updateCloseIntent clientOid .unknown none)
        pure ⟨false, "close-result-unknown", clientOid, none⟩
      | .ok none => do
        call (.updateCloseIntent clientOid .unknown none)
        pure ⟨false, "close-acknowledgement-invalid", clientOid, none⟩
      | .ok (some providerOrderId) => do
        call (.updateCloseIntent clientOid .submitted providerOrderId)
        call (.markClosing entry.id clientOid providerOrderId)
        match ← remainingQuantity entry.symbol with
        | none => do
          call (.updateCloseIntent clientOid .unknown providerOrderId)
          pure ⟨true, "close-readback-unknown", clientOid, providerOrderId⟩
        | some remaining =>
          if 0 < remaining then do
            call (.updateCloseIntent clientOid .submitted providerOrderId)
            pure ⟨true, "submitted", clientOid, providerOrderId⟩
          else do
            let confirmed ← reconcileCloseEvidence entry true
            pure ⟨true, if confirmed then "close-confirmed" else "close-fill-evidence-pending",
              clientOid, providerOrderId⟩

/-- `submit_fallback_close_async`. -/
def submitFallbackClose (environment : Option Environment) (entry : FallbackRow) :
    FallbackProg CloseOutcome := do
  let clientOid := fallbackClientOid entry.id
  if environment = none ∨ entry.environment ≠ environment then
    pure ⟨false, "position-environment-unverified", clientOid, none⟩
  else match ← reading (call (.getSinglePosition entry.symbol)) with
    | none => pure ⟨false, "provider-position-read-failed", clientOid, none⟩
    | some positions =>
      match openQuantity positions with
      | none => pure ⟨false, "provider-position-invalid", clientOid, none⟩
      | some openQty =>
        if entry.state = .closing then do
          let confirmed ← reconcileCloseEvidence entry (openQty = 0)
          pure ⟨false, if confirmed then "close-confirmed" else "close-fill-evidence-pending",
            clientOid, none⟩
        else if openQty ≤ 0 then do
          call (.markPositionFlat entry.id)
          pure ⟨false, "position-already-flat", clientOid, none⟩
        else match ← ownedQuantity positions entry with
          | none => pure ⟨false, "position-ownership-unverified", clientOid, none⟩
          | some owned => streamClose entry owned

/-- The close callback of the stream : the row is found in the loaded rows, which may be old by
the time the close acts on it. -/
def streamCallback (environment : Option Environment) (fallbackId : String) :
    FallbackProg CloseOutcome := do
  let entries ← call .loadActive
  match entries.find? fun entry => entry.id = fallbackId with
  | none => pure ⟨false, "close-entry-missing", fallbackClientOid fallbackId, none⟩
  | some entry => submitFallbackClose environment entry

end FallbackProg

open FallbackProg

/-- A cycle of the polling lane, or a close the stream asks for. -/
inductive FallbackCall
  | poll (environment : Option Environment)
  | stream (environment : Option Environment) (fallbackId : String)
deriving DecidableEq

def FallbackCall.body : FallbackCall → FallbackProg Unit
  | .poll environment => runFallbackMonitor environment >>= fun _ => pure ()
  | .stream environment fallbackId => streamCallback environment fallbackId >>= fun _ => pure ()

/-! ## Calls over one database -/

/-- What the schedule chooses for one operation. -/
structure FallbackChoice where
  delivery : Delivery
  now : Instant
  positions : Except FallbackError PositionPayload
  ticker : Except FallbackError (List Decimal)
  fills : Except FallbackError (Option (List (Option FallbackFill)))
  ack : Except FallbackError (Option (Option String))

namespace FallbackChoice

variable (c : FallbackChoice)

/-- A stored value, or the failure to read it. -/
def read {α : Type} (a : α) : Except FallbackError α :=
  if c.delivery = .answered then .ok a else .error .connection

/-- A transaction : refused, applied, applied but lost, or failed. -/
def commit {α : Type} (w : FallbackWorld) :
    Except FallbackError (FallbackWorld × α) → Except FallbackError α × FallbackWorld
  | .error e => (.error e, w)
  | .ok (w', a) =>
    match c.delivery with
    | .answered => (.ok a, w')
    | .lost => (.error .connection, w')
    | .failed => (.error .connection, w)

end FallbackChoice

def fallbackExec (o : FallbackOp) (w : FallbackWorld) (c : FallbackChoice) :
    Except FallbackError (FallbackAns o) × FallbackWorld :=
  match o with
  | .loadActive => (c.read (w.fallbacks.rows.filter fun row => row.state.watched), w)
  | .getSinglePosition _ => (c.positions, w)
  | .getTicker _ => (c.ticker, w)
  | .getFills _ => (c.fills, w)
  | .ownedEntry positionKey symbol side quantity =>
    (c.read (w.ownedEntry positionKey symbol side quantity), w)
  | .ensureCloseIntent clientOid symbol side quantity =>
    c.commit w (w.ensureCloseIntent c.now clientOid symbol side quantity)
  | .markClosing id clientOid orderId =>
    c.commit w ((w.markClosing id clientOid orderId).map (·, ()))
  | .markPositionFlat id => c.commit w ((w.markPositionFlat id).map (·, ()))
  | .placeMarketClose _ _ _ _ => (c.ack, w)
  | .updateCloseIntent clientOid state providerOrderId =>
    c.commit w ((w.updateCloseIntent clientOid state providerOrderId).map (·, ()))
  | .persistCloseFills id symbol rows flat =>
    c.commit w (w.persistCloseFills c.now id symbol rows flat)

/-- What other actors do to the tables. -/
inductive FallbackEnv
  | registerFallback (row : FallbackRow)
  | updateFallbackLevels (positionKey : String) (stopLoss quantity : ℚ)
      (environment : Environment)
  | disableFallback (positionKey epoch : String)
  | ledger (db : Db)

/-- A later ledger keeps the intents : none is removed, and its symbol, side and role stay. -/
def Db.KeepsIntents (db db' : Db) : Prop :=
  ∀ row ∈ db.intents.rows, (db'.get row.clientOid).map (fun r => (r.symbol, r.side, r.role)) =
    some (row.record.symbol, row.record.side, row.record.role)

instance (db db' : Db) : Decidable (db.KeepsIntents db') :=
  inferInstanceAs (Decidable (∀ row ∈ db.intents.rows,
    (db'.get row.clientOid).map (fun r => (r.symbol, r.side, r.role)) =
      some (row.record.symbol, row.record.side, row.record.role)))

namespace FallbackWorld

variable (w : FallbackWorld)

def env : FallbackEnv → Option FallbackWorld
  | .registerFallback row =>
    (w.fallbacks.insert { row with
      state := .active
      closePrice := none
      closeReason := none
      closeOrderId := none }).map fun fallbacks => { w with fallbacks }
  | .updateFallbackLevels positionKey stopLoss quantity environment =>
    (w.fallbacks.updateWhere (fun row => row.positionKey = some positionKey &&
        row.environment = some environment && row.state.watched)
      fun row => { row with stopLoss := stopLoss, quantity := quantity }).map
        fun fallbacks => { w with fallbacks }
  | .disableFallback positionKey epoch =>
    (w.fallbacks.updateWhere (fun row => row.positionKey = some positionKey &&
        row.providerPositionEpoch = some epoch && row.environment = some .live &&
        row.state = .active)
      fun row =>
        { row with
          state := .cancelled
          closeReason := some "console-native-confirmed" }).map fun fallbacks => { w with fallbacks }
  | .ledger db => if w.db.KeepsIntents db then some { w with db := db } else none

end FallbackWorld

def fallbackSystem : System FallbackOp FallbackAns FallbackError FallbackCall FallbackWorld
    FallbackChoice FallbackEnv where
  body := FallbackCall.body
  exec o w c := some (fallbackExec o w c)
  env := FallbackWorld.env

abbrev FallbackState := State FallbackOp FallbackAns FallbackError FallbackCall FallbackWorld
abbrev FallbackLabel := Label FallbackCall FallbackChoice FallbackEnv

end FattyTrader
