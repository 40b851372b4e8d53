import FattyTrader.JsonValues
import FattyTrader.Ledger

/-!
# Frames of the private stream

`normalize_v2_frame` makes typed events of a frame, or raises. A row of the orders channel gives an
order event, and a fill event where it filled something. The times of a row are taken from the first
key that has one (`_event_time_ms`).

The time of a fill is asked for with the time of the event as the fallback. The fallback stands for
the first key, so the row's own `fillTime` is read only where nothing stands before it, and two
fills of one order that are reported at one time have one id. `order_frame_iff` says on which frames
every fill carries its own time and id.
-/

set_option linter.unusedSectionVars false
set_option autoImplicit false

open FattyTrader.JsonValues

namespace FattyTrader.OrderFrames

/-! ## Events -/

/-- How texts are read. `int` is none where it raises, and `loads` where the text is no JSON. -/
structure FrameTexts extends Texts where
  loads : String → Option Json
  int : String → Option ℤ
  strip_empty : strip "" = ""
  strip_none : strip "None" = "None"
  int_blank : ∀ text, strip text = "" → int text = none
  int_repr : ∀ n : ℕ, int n.repr = some (n : ℤ)

inductive EventKind
  | markPrice
  | position
  | order
  | fill
  | plan
deriving DecidableEq

/-- `BitgetWebSocketEvent`. -/
structure StreamEvent where
  kind : EventKind
  symbol : String
  eventTimeMs : ℕ
  markPrice : Option ℚ := none
  quantity : Option ℚ := none
  price : Option ℚ := none
  fee : Option ℚ := none
  liquidationPrice : Option ℚ := none
  providerOrderId : Option String := none
  clientOid : Option String := none
  providerFillId : Option String := none
  triggerPrice : Option ℚ := none
  raw : Fields

/-- What is raised : a `WebSocketProtocolError`, or a `TypeError` where a list or an object is looked
up in a set. -/
inductive FrameError
  | protocol (message : String) (code : Option String)
  | unhashable

abbrev raised {α : Type} (message : String) : Except FrameError α := .error (.protocol message none)

/-- `value in {…}`. -/
def among (value : Json) (words : List String) : Except FrameError Bool :=
  match value with
  | .arr _ => .error .unhashable
  | .obj _ => .error .unhashable
  | value => .ok (words.any value.isText)

theorem among_cases (value : Json) (words : List String) :
    among value words = .error .unhashable ∨ among value words = .ok (words.any value.isText) := by
  cases value with
  | arr items => exact Or.inl rfl
  | obj fields => exact Or.inl rfl
  | _ => exact Or.inr rfl

variable (P : FrameTexts)

/-! ## Values of a row -/

/-- The first positive time of some values. -/
def firstTime : List Json → Except FrameError ℕ
  | [] => raised "Bitget websocket event time is missing"
  | value :: values =>
    if value.isNull || P.strip (P.text value) = "" then firstTime values
    else match P.int (P.text value) with
      | none => raised "Bitget websocket event time is invalid"
      | some timestamp => if 0 < timestamp then .ok timestamp.toNat else firstTime values

/-- The values that are read before `fillTime`. -/
def earlierTimes (row : Fields) (fallback : Json) : List Json :=
  [firstOf row ["ts"] fallback, valueOf row "uTime", valueOf row "cTime"]

/-- `_event_time_ms`. -/
def eventTimeMs (row : Fields) (fallback : Json) : Except FrameError ℕ :=
  firstTime P (earlierTimes row fallback ++
    [valueOf row "fillTime", valueOf row "systemTime", valueOf row "eventTime"])

/-- `_symbol`. -/
def symbolOf (row : Fields) : Except FrameError String :=
  let symbol := P.upper (P.strip (P.textOr (valueOf row "instId")))
  if symbol = "" then raised "Bitget websocket symbol is missing" else .ok symbol

/-- `_required_size`. -/
def requiredSize (row : Fields) : Except FrameError Json :=
  match ["size", "origSz", "accFillSz", "fillSz", "baseVolume", "sz"].find?
      fun key => !(valueOf row key).isNull with
  | some key => .ok (valueOf row key)
  | none => do
    if ← among (valueOf row "state") ["cancelled", "canceled", "failed"] then return .str "0"
    raised "Bitget websocket order row is missing a size field"

/-- `_positive`. -/
def positive (value : Json) (field : String) : Except FrameError ℚ :=
  match P.number value with
  | none => raised s!"Bitget websocket {field} is invalid"
  | some (.finite q) =>
    if 0 < q then .ok q else raised s!"Bitget websocket {field} must be positive"
  | some _ => raised s!"Bitget websocket {field} must be positive"

/-- `_optional_positive`. -/
def optionalPositive (value : Json) (field : String) : Except FrameError (Option ℚ) :=
  if value.isNull || ["", "0", "0.0"].contains (P.strip (P.text value)) then .ok none
  else (positive P value field).map some

/-- `_nonnegative`. -/
def nonnegative (value : Json) (field : String) : Except FrameError ℚ :=
  match P.number value with
  | none => raised s!"Bitget websocket {field} is invalid"
  | some (.finite q) =>
    if 0 ≤ q then .ok q else raised s!"Bitget websocket {field} must be nonnegative"
  | some _ => raised s!"Bitget websocket {field} must be nonnegative"

/-- `str(row.get(key, "")).strip() or None`. -/
def optionalText (row : Fields) (key : String) : Option String :=
  let text := P.strip (P.text (firstOf row [key] (.str "")))
  if text = "" then none else some text

/-! ## Channels -/

/-- `_ticker_events`, for a row. -/
def tickerEvents (fallback : Json) (row : Fields) : Except FrameError (List StreamEvent) := do
  let symbol ← symbolOf P row
  let markPrice ← positive P (valueOf row "markPrice") "mark price"
  let eventTimeMs ← eventTimeMs P row fallback
  return [{ kind := .markPrice, symbol, eventTimeMs, markPrice, raw := row }]

/-- `_position_events`, for a row. -/
def positionEvents (fallback : Json) (row : Fields) : Except FrameError (List StreamEvent) := do
  let symbol ← symbolOf P row
  let quantity ← nonnegative P (firstOf row ["total"] (.str "0")) "position quantity"
  let liquidationPrice ← optionalPositive P (valueOf row "liqPx") "liquidation price"
  let eventTimeMs ← eventTimeMs P row fallback
  return [{ kind := .position, symbol, eventTimeMs, quantity, liquidationPrice, raw := row }]

/-- The id of a fill. -/
def fillIdOf (row : Fields) (symbol : String) (fillTime : ℕ) : String :=
  (optionalText P row "tradeId").getD
    (((optionalText P row "ordId").getD symbol) ++ (":" ++ fillTime.repr))

/-- `_order_events`, for a row. -/
def orderEvents (fallback : Json) (row : Fields) : Except FrameError (List StreamEvent) := do
  let symbol ← symbolOf P row
  let providerOrderId := optionalText P row "ordId"
  let clientOid := optionalText P row "clOrdId"
  let eventTime ← eventTimeMs P row fallback
  let size ← requiredSize row
  let quantity ← nonnegative P size "order quantity"
  let price ← optionalPositive P (valueOf row "avgPx") "average order price"
  let order : StreamEvent :=
    { kind := .order, symbol, eventTimeMs := eventTime, quantity, price, providerOrderId, clientOid
      raw := row }
  let fillSize ← nonnegative P (firstOf row ["fillSz"] (.str "0")) "fill quantity"
  if fillSize ≤ 0 then return [order]
  let fillTime ← eventTimeMs P [("fillTime", valueOf row "fillTime")] (.number eventTime.repr)
  let fillPrice ← positive P (valueOf row "fillPx") "fill price"
  let fee ← nonnegative P (firstOf row ["fillFee"] (.str "0")) "fill fee"
  return [order,
    { kind := .fill, symbol, eventTimeMs := fillTime, quantity := fillSize, price := fillPrice, fee
      providerOrderId, clientOid, providerFillId := fillIdOf P row symbol fillTime, raw := row }]

/-- `_plan_events`, for a row. -/
def planEvents (fallback : Json) (row : Fields) : Except FrameError (List StreamEvent) := do
  let symbol ← symbolOf P row
  let triggerPrice ← positive P (valueOf row "triggerPx") "trigger price"
  let eventTimeMs ← eventTimeMs P row fallback
  return [{ kind := .plan, symbol, eventTimeMs, triggerPrice
            providerOrderId := optionalText P row "id", clientOid := optionalText P row "cOid"
            raw := row }]

/-- The events of the rows, one row after the other. -/
def eventsOf (events : Fields → Except FrameError (List StreamEvent)) :
    List Fields → Except FrameError (List StreamEvent)
  | [] => .ok []
  | row :: rows => do
    let first ← events row
    let rest ← eventsOf events rows
    return first ++ rest

/-! ## Frames -/

/-- A frame as it is received. Bytes are given by their text, where they are UTF-8. -/
inductive RawFrame
  | text (text : String)
  | bytes (decoded : Option String)

/-- `payload.get("data")`, where it is a list of objects. -/
def dataRows (payload : Fields) : Option (List Fields) :=
  ((valueOf payload "data").items?).bind fun items => items.mapM Json.fields?

/-- A frame with data : the channel decides what its rows are. -/
def dataEvents (payload : Fields) : Except FrameError (List StreamEvent) :=
  match valueOf payload "arg" with
  | .obj arg =>
    match dataRows payload with
    | none => raised "Bitget websocket data must be an array of objects"
    | some rows =>
      let channel := P.strip (P.text (firstOf arg ["channel"] (.str "")))
      let fallback := valueOf payload "ts"
      if channel = "ticker" then eventsOf (tickerEvents P fallback) rows
      else if channel = "positions" then eventsOf (positionEvents P fallback) rows
      else if channel = "orders" then eventsOf (orderEvents P fallback) rows
      else if channel = "orders-algo" then eventsOf (planEvents P fallback) rows
      else raised s!"Bitget websocket channel is unsupported: {channel}"
  | _ => raised "Bitget websocket event argument is missing"

/-- A decoded frame. -/
def payloadEvents (payload : Fields) : Except FrameError (List StreamEvent) := do
  let event := valueOf payload "event"
  if event.isText "error" then
    let code := P.text (firstOf payload ["code"] (.str ""))
    .error (.protocol ("Bitget websocket error " ++ P.text (valueOf payload "code") ++ ": " ++
      P.text (valueOf payload "msg")) (if code = "" then none else some code))
  else if event.isText "login" then
    if ["0", "00000"].contains (P.text (firstOf payload ["code"] (.str "0"))) then return []
    raised "Bitget websocket login was not acknowledged"
  else if ← among event ["subscribe", "unsubscribe", "channel-conn-count"] then return []
  else dataEvents P payload

/-- The text of a frame. -/
def textEvents (text : String) : Except FrameError (List StreamEvent) :=
  if P.strip text = "pong" then .ok []
  else match P.loads text with
    | none => raised "Bitget websocket frame is not valid JSON"
    | some (.obj payload) => payloadEvents P payload
    | some _ => raised "Bitget websocket frame must be an object"

/-- `normalize_v2_frame`. -/
def normalizeV2Frame : RawFrame → Except FrameError (List StreamEvent)
  | .bytes none => raised "Bitget websocket frame is not UTF-8"
  | .bytes (some text) => textEvents P text
  | .text text => textEvents P text

/-! ## Frames of orders -/

/-- The text of a frame. -/
def decodedText : RawFrame → Option String
  | .text text => some text
  | .bytes decoded => decoded

/-- The object of a frame. -/
def framePayload (raw : RawFrame) : Option Fields :=
  (decodedText raw).bind fun text =>
    if P.strip text = "pong" then none else (P.loads text).bind Json.fields?

def acknowledged (payload : Fields) : Bool :=
  ["login", "subscribe", "unsubscribe", "channel-conn-count"].any (valueOf payload "event").isText

/-- The rows of a frame of the orders channel, with the time of the frame. -/
def ordersRows (raw : RawFrame) : Option (List Fields × Json) :=
  (framePayload P raw).bind fun payload =>
    match valueOf payload "arg", dataRows payload with
    | .obj arg, some rows =>
      if !acknowledged payload && P.strip (P.text (firstOf arg ["channel"] (.str ""))) = "orders"
      then some (rows, valueOf payload "ts") else none
    | _, _ => none

variable {P} {raw : RawFrame} {row row' : Fields} {rows : List Fields} {ts : Json}
  {events : List StreamEvent} {t t' : ℕ}

/-- A frame of orders is refused, or gives the events of its rows. -/
theorem normalize_orders (h : ordersRows P raw = some (rows, ts)) :
    (∃ e, normalizeV2Frame P raw = .error e) ∨
      normalizeV2Frame P raw = eventsOf (orderEvents P ts) rows := by
  obtain ⟨payload, hpayload, h⟩ := Option.bind_eq_some_iff.mp h
  have hraw : normalizeV2Frame P raw = payloadEvents P payload := by
    obtain ⟨text, htext, hload⟩ := Option.bind_eq_some_iff.mp hpayload
    have hnormalize : normalizeV2Frame P raw = textEvents P text := by
      cases raw with
      | text t => rw [← Option.some.inj htext]; rfl
      | bytes decoded =>
        obtain rfl : decoded = some text := htext
        rfl
    rw [hnormalize, textEvents]
    split at hload
    · cases hload
    next hpong =>
      obtain ⟨value, hvalue, hfields⟩ := Option.bind_eq_some_iff.mp hload
      obtain rfl := Json.fields?_eq_some.mp hfields
      rw [if_neg hpong, hvalue]
  split at h
  next arg rows' harg hrows =>
    split at h
    next hcond =>
      obtain ⟨rfl, rfl⟩ := Prod.mk.inj (Option.some.inj h)
      simp only [Bool.and_eq_true, Bool.not_eq_true', decide_eq_true_eq] at hcond
      obtain ⟨hack, hchannel⟩ := hcond
      simp only [acknowledged, List.any_cons, List.any_nil, Bool.or_false, Bool.or_eq_false_iff]
        at hack
      obtain ⟨hlogin, hsubscribe, hunsubscribe, hcount⟩ := hack
      rw [hraw, payloadEvents]
      by_cases herror : (valueOf payload "event").isText "error" = true
      · exact Or.inl ⟨_, if_pos herror⟩
      · dsimp only
        rw [if_neg herror, if_neg (by simp [hlogin])]
        rcases among_cases (valueOf payload "event") ["subscribe", "unsubscribe",
          "channel-conn-count"] with hamong | hamong
        · exact Or.inl ⟨_, by rw [hamong]; rfl⟩
        · refine Or.inr ?_
          have hnone : ["subscribe", "unsubscribe", "channel-conn-count"].any
              (valueOf payload "event").isText = false := by
            simp [hsubscribe, hunsubscribe, hcount]
          rw [hamong, hnone]
          simp [bind, Except.bind, dataEvents, harg, hrows, hchannel]
    · cases h
  · cases h

/-! ## What a row gives -/

section Rows

variable (P) (row)

/-- The quantity the row filled. -/
def fillSize : Option ℚ := P.finite (firstOf row ["fillSz"] (.str "0"))

def Filled : Prop := ∃ q, fillSize P row = some q ∧ 0 < q

/-- The row's own `fillTime`. -/
def ownFillTime : Option ℕ :=
  let value := valueOf row "fillTime"
  if value.isNull || P.strip (P.text value) = "" then none
  else match P.int (P.text value) with
    | some t => if 0 < t then some t.toNat else none
    | none => none

/-- A fill event with the row's quantity, price and fee. -/
structure FillOf (fill : StreamEvent) : Prop where
  kind : fill.kind = .fill
  raw : fill.raw = row
  quantity : fill.quantity = fillSize P row
  price : fill.price = P.finite (valueOf row "fillPx")
  fee : fill.fee = P.finite (firstOf row ["fillFee"] (.str "0"))

/-- One order event, and one fill event exactly where the row filled something. `Good` says more of
the fill event. -/
inductive RowEvents (Good : StreamEvent → Prop) : List StreamEvent → Prop
  | order (order : StreamEvent) : order.kind = .order → order.raw = row → ¬ Filled P row →
      RowEvents Good [order]
  | filled (order fill : StreamEvent) : order.kind = .order → order.raw = row → Filled P row →
      FillOf P row fill → Good fill → RowEvents Good [order, fill]

end Rows

/-- The fill carries the row's own time. -/
def OwnTime (P : FrameTexts) (fill : StreamEvent) : Prop :=
  ∀ t, ownFillTime P fill.raw = some t → fill.eventTimeMs = t

/-- The fill carries the time of its row, and an id from it. -/
def RowTime (P : FrameTexts) (ts : Json) (fill : StreamEvent) : Prop :=
  eventTimeMs P fill.raw ts = .ok fill.eventTimeMs ∧
    fill.providerFillId = some (fillIdOf P fill.raw fill.symbol fill.eventTimeMs)

theorem firstTime_pos : ∀ {values : List Json}, firstTime P values = .ok t → 0 < t
  | [], h => by cases h
  | value :: values, h => by
    unfold firstTime at h
    split at h
    · exact firstTime_pos h
    · split at h
      · cases h
      · split at h
        next hpos =>
          obtain rfl := Except.ok.inj h
          omega
        · exact firstTime_pos h

/-- A time that is a fallback is the time. -/
theorem eventTimeMs_fallback {value : Json} (ht : 0 < t) :
    eventTimeMs P [("fillTime", value)] (.number t.repr) = .ok t := by
  have hint := P.int_repr t
  have hstrip : P.strip t.repr ≠ "" := by
    intro hblank
    rw [P.int_blank _ hblank] at hint
    cases hint
  have hentry : firstOf [("fillTime", value)] ["ts"] (.number t.repr) = .number t.repr := rfl
  have htext : P.text (.number t.repr) = t.repr := rfl
  rw [eventTimeMs, earlierTimes, hentry, List.cons_append, firstTime, htext, hint,
    if_neg (by simp [hstrip, Json.isNull])]
  simp [ht]

theorem nonnegative_ok {value : Json} {field : String} {q : ℚ}
    (h : nonnegative P value field = .ok q) : P.finite value = some q ∧ 0 ≤ q := by
  unfold nonnegative at h
  split at h
  · cases h
  next q' hq =>
    split at h
    next hpos =>
      obtain rfl := Except.ok.inj h
      exact ⟨Texts.finite_eq_some.mpr hq, hpos⟩
    · cases h
  · cases h

theorem positive_ok {value : Json} {field : String} {q : ℚ}
    (h : positive P value field = .ok q) : P.finite value = some q ∧ 0 < q := by
  unfold positive at h
  split at h
  · cases h
  next q' hq =>
    split at h
    next hpos =>
      obtain rfl := Except.ok.inj h
      exact ⟨Texts.finite_eq_some.mpr hq, hpos⟩
    · cases h
  · cases h

/-- A row that is not refused gives its events, with the time of the row. -/
theorem orderEvents_ok (h : orderEvents P ts row = .ok events) :
    RowEvents P row (RowTime P ts) events := by
  unfold orderEvents at h
  obtain ⟨symbol, -, h⟩ := exists_of_bind_ok h
  obtain ⟨eventTime, htime, h⟩ := exists_of_bind_ok h
  obtain ⟨size, -, h⟩ := exists_of_bind_ok h
  obtain ⟨quantity, -, h⟩ := exists_of_bind_ok h
  obtain ⟨price, -, h⟩ := exists_of_bind_ok h
  obtain ⟨filled, hfilled, h⟩ := exists_of_bind_ok h
  obtain ⟨hsize, -⟩ := nonnegative_ok hfilled
  split at h
  next hle =>
    obtain rfl := Except.ok.inj h
    refine RowEvents.order _ rfl rfl ?_
    rintro ⟨q, hq, hpos⟩
    obtain rfl := Option.some.inj (hsize.symm.trans hq)
    exact absurd hpos (not_lt.mpr hle)
  next hpos =>
    obtain ⟨fillTime, hfill, h⟩ := exists_of_bind_ok h
    obtain ⟨fillPrice, hprice, h⟩ := exists_of_bind_ok h
    obtain ⟨fee, hfee, h⟩ := exists_of_bind_ok h
    obtain rfl := Except.ok.inj h
    rw [eventTimeMs_fallback (firstTime_pos htime)] at hfill
    obtain rfl := Except.ok.inj hfill
    exact RowEvents.filled _ _ rfl rfl ⟨filled, hsize, not_le.mp hpos⟩
      ⟨rfl, rfl, hsize.symm, (positive_ok hprice).1.symm, (nonnegative_ok hfee).1.symm⟩
      ⟨htime, rfl⟩

/-! ## What a frame gives -/

/-- The events of the rows, in the order of the rows. -/
def FrameEvents (P : FrameTexts) (Good : StreamEvent → Prop) (rows : List Fields)
    (events : List StreamEvent) : Prop :=
  ∃ chunks : List (List StreamEvent), events = chunks.flatten ∧
    List.Forall₂ (fun row chunk => RowEvents P row Good chunk) rows chunks

theorem eventsOf_ok : ∀ {rows : List Fields} {events : List StreamEvent},
    eventsOf (orderEvents P ts) rows = .ok events → FrameEvents P (RowTime P ts) rows events
  | [], events, h => by
    obtain rfl := Except.ok.inj h
    exact ⟨[], rfl, List.Forall₂.nil⟩
  | row :: rows, events, h => by
    obtain ⟨first, hfirst, h⟩ := exists_of_bind_ok h
    obtain ⟨rest, hrest, h⟩ := exists_of_bind_ok h
    obtain rfl := Except.ok.inj h
    obtain ⟨chunks, rfl, hchunks⟩ := eventsOf_ok hrest
    exact ⟨first :: chunks, rfl, List.Forall₂.cons (orderEvents_ok hfirst) hchunks⟩

variable {Good Good' : StreamEvent → Prop} {fill fill' : StreamEvent}

/-- A fill event is the one of a row that filled something. -/
theorem FrameEvents.exists_row (h : FrameEvents P Good rows events) (hfill : fill ∈ events)
    (hkind : fill.kind = .fill) : fill.raw ∈ rows ∧ Filled P fill.raw ∧ Good fill := by
  obtain ⟨chunks, rfl, hchunks⟩ := h
  induction hchunks with
  | nil => simp at hfill
  | @cons row chunk rows chunks hrow _ ih =>
    rcases List.mem_append.mp (List.flatten_cons ▸ hfill) with hfill | hfill
    · cases hrow with
      | order order horder _ _ =>
        rw [List.mem_singleton.mp hfill, horder] at hkind
        cases hkind
      | filled order fill' horder _ hfilled hof hgood =>
        rcases List.mem_cons.mp hfill with rfl | hfill
        · rw [horder] at hkind
          cases hkind
        · obtain rfl := List.mem_singleton.mp hfill
          rw [hof.raw]
          exact ⟨List.mem_cons_self, hfilled, hgood⟩
    · obtain ⟨hmem, hrest⟩ := ih hfill
      exact ⟨List.mem_cons_of_mem _ hmem, hrest⟩

/-- A row that filled something has its fill event. -/
theorem FrameEvents.exists_fill (h : FrameEvents P Good rows events) (hrow : row ∈ rows)
    (hfilled : Filled P row) :
    ∃ fill ∈ events, fill.kind = .fill ∧ fill.raw = row ∧ Good fill := by
  obtain ⟨chunks, rfl, hchunks⟩ := h
  induction hchunks with
  | nil => simp at hrow
  | @cons head chunk rows chunks hhead _ ih =>
    rcases List.mem_cons.mp hrow with rfl | hrow
    · cases hhead with
      | order order _ _ hnot => exact absurd hfilled hnot
      | filled order fill _ _ _ hof hgood =>
        exact ⟨fill, by simp, hof.kind, hof.raw, hgood⟩
    · obtain ⟨fill, hmem, hrest⟩ := ih hrow
      exact ⟨fill, by simp [hmem], hrest⟩

theorem FrameEvents.mono (h : FrameEvents P Good rows events)
    (hgood : ∀ fill, fill.raw ∈ rows → Filled P fill.raw → Good fill → Good' fill) :
    FrameEvents P Good' rows events := by
  obtain ⟨chunks, rfl, hchunks⟩ := h
  refine ⟨chunks, rfl, ?_⟩
  induction hchunks with
  | nil => exact List.Forall₂.nil
  | @cons row chunk rows chunks hrow _ ih =>
    refine List.Forall₂.cons ?_ (ih fun fill hmem => hgood fill (List.mem_cons_of_mem _ hmem))
    cases hrow with
    | order order horder hraw hnot => exact RowEvents.order order horder hraw hnot
    | filled order fill horder hraw hfilled hof h =>
      refine RowEvents.filled order fill horder hraw hfilled hof (hgood fill ?_ ?_ h)
      · rw [hof.raw]
        exact List.mem_cons_self
      · rwa [hof.raw]

/-! ## Times and ids -/

/-- The row names no trade. -/
def WithoutTrade (P : FrameTexts) (row : Fields) : Prop :=
  (valueOf row "tradeId").isNull = true ∨ optionalText P row "tradeId" = none

/-- One order event for each row and one fill event for each row that filled something, with the
row's own time. Fills of one order at different times have different ids. -/
structure OrdersKept (P : FrameTexts) (rows : List Fields) (events : List StreamEvent) : Prop where
  inOrder : FrameEvents P (OwnTime P) rows events
  ids : ∀ fill ∈ events, ∀ fill' ∈ events, fill.kind = .fill → fill'.kind = .fill →
    WithoutTrade P fill.raw → WithoutTrade P fill'.raw →
      ∀ orderId, optionalText P fill.raw "ordId" = some orderId →
        optionalText P fill'.raw "ordId" = some orderId →
          ∀ t t', ownFillTime P fill.raw = some t → ownFillTime P fill'.raw = some t' → t ≠ t' →
            fill.providerFillId ≠ fill'.providerFillId

/-- Before the `fillTime` of a row that filled something stands no other time. -/
def FillTimeRead (P : FrameTexts) (ts : Json) (row : Fields) : Prop :=
  Filled P row → ∀ t, ownFillTime P row = some t →
    ∀ t', firstTime P (earlierTimes row ts) = .ok t' → t' = t

/-- Two rows of one order with a trade that is null, filled at different times. -/
def NullTrades (P : FrameTexts) (row row' : Fields) : Prop :=
  entry row "tradeId" = some .null ∧ entry row' "tradeId" = some .null ∧
    (∃ orderId, optionalText P row "ordId" = some orderId ∧
      optionalText P row' "ordId" = some orderId) ∧
    ∃ t t', ownFillTime P row = some t ∧ ownFillTime P row' = some t' ∧ t ≠ t'

/-- A time that stands after others is the first one, unless one of those is. -/
theorem firstTime_append {value : Json} {later : List Json} {own : ℕ}
    (hvalue : firstTime P (value :: later) = .ok own) :
    ∀ {earlier : List Json}, firstTime P (earlier ++ value :: later) = .ok t →
      t = own ∨ firstTime P earlier = .ok t
  | [], h => by
    rw [List.nil_append, hvalue] at h
    exact Or.inl (Except.ok.inj h).symm
  | first :: earlier, h => by
    rw [List.cons_append, firstTime] at h
    rw [firstTime]
    split at h
    next hskip =>
      rw [if_pos hskip]
      exact firstTime_append hvalue h
    next hskip =>
      rw [if_neg hskip]
      split at h
      · cases h
      next timestamp _ =>
        split at h
        next hpos =>
          rw [if_pos hpos]
          exact Or.inr h
        next hpos =>
          rw [if_neg hpos]
          exact firstTime_append hvalue h

/-- A time before the others is the first one. -/
theorem firstTime_append_of_ok : ∀ {earlier later : List Json}, firstTime P earlier = .ok t →
    firstTime P (earlier ++ later) = .ok t
  | [], _, h => by cases h
  | first :: earlier, later, h => by
    rw [firstTime] at h
    rw [List.cons_append, firstTime]
    split at h
    next hskip =>
      rw [if_pos hskip]
      exact firstTime_append_of_ok h
    next hskip =>
      rw [if_neg hskip]
      split at h
      · cases h
      next timestamp _ =>
        split at h
        next hpos => rw [if_pos hpos, h]
        next hpos =>
          rw [if_neg hpos]
          exact firstTime_append_of_ok h

theorem firstTime_of_own {later : List Json} (h : ownFillTime P row = some t) :
    firstTime P (valueOf row "fillTime" :: later) = .ok t := by
  unfold ownFillTime at h
  dsimp only at h
  rw [firstTime]
  split at h
  · cases h
  next hskip =>
    rw [if_neg hskip]
    split at h
    next n hn =>
      rw [hn]
      split at h
      next hpos =>
        dsimp only
        rw [if_pos hpos, Option.some.inj h]
      · cases h
    · cases h

/-- Before every own `fillTime` stands no other time, and no two fills of an order have a null for
their trade. -/
structure FrameRead (P : FrameTexts) (ts : Json) (rows : List Fields) : Prop where
  times : ∀ row ∈ rows, FillTimeRead P ts row
  trades : ∀ row ∈ rows, ∀ row' ∈ rows, Filled P row → Filled P row' → ¬ NullTrades P row row'

theorem repr_inj {m n : ℕ} (h : m.repr = n.repr) : m = n := by
  rw [Nat.repr_eq_ofList_toDigits, Nat.repr_eq_ofList_toDigits, String.ofList_inj] at h
  rw [← Nat.ofDigitChars_ten_toDigits (n := m), h, Nat.ofDigitChars_ten_toDigits]

/-- A null names a trade of its own. -/
theorem fillIdOf_null {symbol : String} (h : entry row "tradeId" = some .null) :
    fillIdOf P row symbol t = "None" := by
  have htext : optionalText P row "tradeId" = some "None" := by
    unfold optionalText firstOf firstEntry
    rw [List.findSome?_cons, h]
    dsimp only [Option.getD_some]
    rw [show P.text .null = "None" from rfl, P.strip_none]
    rfl
  rw [fillIdOf, htext, Option.getD_some]

theorem WithoutTrade.cases (h : WithoutTrade P row) :
    entry row "tradeId" = some .null ∨ optionalText P row "tradeId" = none := by
  rcases h with h | h
  · cases hentry : entry row "tradeId" with
    | none =>
      refine Or.inr ?_
      unfold optionalText firstOf firstEntry
      rw [List.findSome?_cons, hentry]
      dsimp only [List.findSome?_nil, Option.getD_none]
      rw [show P.text (.str "") = "" from rfl, P.strip_empty]
      rfl
    | some value =>
      rw [valueOf, hentry, Option.getD_some, Json.isNull_iff] at h
      exact Or.inl (by rw [h])
  · exact Or.inr h

theorem fillIdOf_order {symbol orderId : String} (h : optionalText P row "tradeId" = none)
    (horder : optionalText P row "ordId" = some orderId) :
    fillIdOf P row symbol t = orderId ++ (":" ++ t.repr) := by
  rw [fillIdOf, h, horder, Option.getD_none, Option.getD_some]

theorem orderId_ne_none (orderId time : String) : orderId ++ (":" ++ time) ≠ "None" := by
  intro h
  have hmem : ':' ∈ (orderId ++ (":" ++ time)).toList := by simp
  rw [h] at hmem
  revert hmem
  decide

/-- Of a frame that is not refused, every fill carries its own time and id exactly where the times of
the fills can be read. -/
theorem ordersKept_iff (h : eventsOf (orderEvents P ts) rows = .ok events) :
    OrdersKept P rows events ↔ FrameRead P ts rows := by
  have hevents := eventsOf_ok h
  constructor
  · intro hkept
    constructor
    · intro row hrow hfilled t hown t' hearlier
      obtain ⟨fill, hfill, hkind, rfl, htime, -⟩ := hevents.exists_fill hrow hfilled
      obtain ⟨-, -, hsame⟩ := hkept.inOrder.exists_row hfill hkind
      rw [eventTimeMs, firstTime_append_of_ok hearlier] at htime
      exact (Except.ok.inj htime).trans (hsame t hown)
    · rintro row hrow row' hrow' hfilled hfilled' ⟨hnull, hnull', ⟨orderId, horder, horder'⟩, t, t',
        hown, hown', hne⟩
      obtain ⟨fill, hfill, hkind, rfl, -, hid⟩ := hevents.exists_fill hrow hfilled
      obtain ⟨fill', hfill', hkind', rfl, -, hid'⟩ := hevents.exists_fill hrow' hfilled'
      refine hkept.ids fill hfill fill' hfill' hkind hkind' ?_ ?_ orderId horder horder' t t' hown
        hown' hne ?_
      · exact Or.inl (by rw [valueOf, hnull]; rfl)
      · exact Or.inl (by rw [valueOf, hnull']; rfl)
      · rw [hid, hid', fillIdOf_null hnull, fillIdOf_null hnull']
  · intro hread
    have hown : ∀ fill : StreamEvent, fill.raw ∈ rows → Filled P fill.raw → RowTime P ts fill →
        OwnTime P fill := by
      intro fill hrow hfilled htime t hown
      have hfirst : firstTime P (earlierTimes fill.raw ts ++ valueOf fill.raw "fillTime" ::
        [valueOf fill.raw "systemTime", valueOf fill.raw "eventTime"]) = .ok fill.eventTimeMs :=
        htime.1
      rcases firstTime_append (firstTime_of_own hown) hfirst with heq | hearlier
      · exact heq
      · exact hread.times _ hrow hfilled t hown _ hearlier
    refine ⟨hevents.mono hown, ?_⟩
    intro fill hfill fill' hfill' hkind hkind' htrade htrade' orderId horder horder' t t' ht ht' hne
    obtain ⟨hrow, hfilled, htime⟩ := hevents.exists_row hfill hkind
    obtain ⟨hrow', hfilled', htime'⟩ := hevents.exists_row hfill' hkind'
    rw [htime.2, htime'.2, hown fill hrow hfilled htime t ht,
      hown fill' hrow' hfilled' htime' t' ht']
    refine (Option.some_injective _).ne ?_
    rcases htrade.cases with hnull | hnone <;> rcases htrade'.cases with hnull' | hnone'
    · exact absurd ⟨hnull, hnull', ⟨orderId, horder, horder'⟩, t, t', ht, ht', hne⟩
        (hread.trades _ hrow _ hrow' hfilled hfilled')
    · rw [fillIdOf_null hnull, fillIdOf_order hnone' horder']
      exact (orderId_ne_none _ _).symm
    · rw [fillIdOf_order hnone horder, fillIdOf_null hnull']
      exact orderId_ne_none _ _
    · rw [fillIdOf_order hnone horder, fillIdOf_order hnone' horder']
      intro heq
      exact hne (repr_inj ((String.append_right_inj _).mp ((String.append_right_inj _).mp heq)))

/-- A frame of orders is refused, or its fills carry their own times and ids exactly where those can
be read. -/
theorem order_frame_iff (h : ordersRows P raw = some (rows, ts)) :
    (∃ e, normalizeV2Frame P raw = .error e) ∨
      ∃ events, normalizeV2Frame P raw = .ok events ∧
        (OrdersKept P rows events ↔ FrameRead P ts rows) := by
  rcases normalize_orders h with hrefused | heq
  · exact Or.inl hrefused
  · cases hevents : eventsOf (orderEvents P ts) rows with
    | error e => exact Or.inl ⟨e, heq.trans hevents⟩
    | ok events => exact Or.inr ⟨events, heq.trans hevents, ordersKept_iff hevents⟩

/-! ## A frame with two partial fills -/

/-- `int` of a text in ASCII. -/
def asciiInt (text : String) : Option ℤ :=
  let digits (l : List Char) : Option ℤ :=
    if l ≠ [] ∧ l.all Char.isDigit then some (Nat.ofDigitChars 10 l 0) else none
  match (asciiStrip text).toList with
  | '-' :: l => (digits l).map fun n => -n
  | '+' :: l => digits l
  | l => digits l

theorem not_whitespace_of_digit {c : Char} (h : c.isDigit = true) : c.isWhitespace = false := by
  simp only [Char.isDigit, Bool.and_eq_true, decide_eq_true_eq] at h
  simp only [Char.isWhitespace, Bool.or_eq_false_iff, decide_eq_false_iff_not]
  refine ⟨⟨⟨?_, ?_⟩, ?_⟩, ?_⟩ <;> rintro rfl <;> revert h <;> decide

/-- Digits have no blanks around them. -/
theorem asciiStrip_repr (n : ℕ) : asciiStrip n.repr = n.repr := by
  have hdigits : ∀ c ∈ n.repr.toList, c.isWhitespace = false := by
    intro c hc
    rw [Nat.repr_eq_ofList_toDigits, String.toList_ofList] at hc
    exact not_whitespace_of_digit (Nat.isDigit_of_mem_toDigits (by decide) (by decide) hc)
  have hfront : n.repr.toList.dropWhile Char.isWhitespace = n.repr.toList :=
    List.dropWhile_eq_self_iff.mpr fun hl => by
      rw [hdigits _ (List.getElem_mem hl)]
      decide
  have hback : n.repr.toList.rdropWhile Char.isWhitespace = n.repr.toList :=
    List.rdropWhile_eq_self_iff.mpr fun hl => by
      rw [hdigits _ (List.getLast_mem hl)]
      decide
  rw [asciiStrip, hfront, hback, String.ofList_toList]

theorem asciiInt_repr (n : ℕ) : asciiInt n.repr = some (n : ℤ) := by
  have hlist : n.repr.toList = Nat.toDigits 10 n := by
    rw [Nat.repr_eq_ofList_toDigits, String.toList_ofList]
  have hdigits : ∀ c ∈ Nat.toDigits 10 n, c.isDigit = true := fun c hc =>
    Nat.isDigit_of_mem_toDigits (by decide) (by decide) hc
  have hall : (Nat.toDigits 10 n).all Char.isDigit = true := List.all_eq_true.mpr hdigits
  unfold asciiInt
  rw [asciiStrip_repr, hlist]
  dsimp only
  split
  next l hl => exact absurd (hdigits '-' (by rw [hl]; exact List.mem_cons_self)) (by decide)
  next l hl => exact absurd (hdigits '+' (by rw [hl]; exact List.mem_cons_self)) (by decide)
  · rw [if_pos ⟨Nat.toDigits_ne_nil, hall⟩, Nat.ofDigitChars_ten_toDigits]

/-- Texts in ASCII, where a frame reads as the given object. -/
def frameTexts (payload : Fields) : FrameTexts where
  toTexts := ascii
  loads _ := some (.obj payload)
  int := asciiInt
  strip_empty := by decide +kernel
  strip_none := by decide +kernel
  int_blank text h := by
    have hstrip : asciiStrip text = "" := h
    unfold asciiInt
    rw [hstrip]
    rfl
  int_repr := asciiInt_repr

/-- A fill of one contract, at the given time. -/
def partialFill (price fillTime : String) : Fields :=
  [("instId", .str "BTCUSDT"), ("ordId", .str "9"), ("sz", .str "2"), ("fillSz", .str "1"),
    ("fillPx", .str price), ("fillTime", .str fillTime)]

def partialFillText (price fillTime : String) : String :=
  "\x7b\"instId\":\"BTCUSDT\",\"ordId\":\"9\",\"sz\":\"2\",\"fillSz\":\"1\",\"fillPx\":\"" ++
    price ++ "\",\"fillTime\":\"" ++ fillTime ++ "\"\x7d"

/-- A frame of two partial fills of one order. -/
def partialFills (ts : Fields) : Fields :=
  [("arg", .obj [("channel", .str "orders")]),
    ("data", .arr [.obj (partialFill "65000" "1700000000001"),
      .obj (partialFill "65001" "1700000000002")])] ++ ts

def partialFillsText (ts : String) : String :=
  "\x7b" ++ ("\"arg\":\x7b\"channel\":\"orders\"\x7d,\"data\":[" ++
    partialFillText "65000" "1700000000001" ++ "," ++ partialFillText "65001" "1700000000002" ++
      "]" ++ ts ++ "\x7d")

def partialRows : List Fields :=
  [partialFill "65000" "1700000000001", partialFill "65001" "1700000000002"]

/-- A text that starts with a bracket is no heartbeat. -/
theorem strip_bracket_ne (rest : String) : asciiStrip ("\x7b" ++ rest) ≠ "pong" := by
  intro h
  have htext : ("\x7b" ++ rest).toList = '\x7b' :: rest.toList := by simp
  have hstrip : ('\x7b' :: rest.toList).rdropWhile Char.isWhitespace = "pong".toList := by
    rw [← h, asciiStrip, String.toList_ofList, htext, List.dropWhile_cons_of_neg (by decide)]
  have hprefix := List.rdropWhile_prefix Char.isWhitespace (l := '\x7b' :: rest.toList)
  rw [hstrip] at hprefix
  have hhead := (List.cons_prefix_cons.mp hprefix).1
  revert hhead
  decide

/-- A text without an event, on the channel of the orders. -/
structure OrdersText (P : FrameTexts) (text : String) (rows : List Fields) (ts : Json)
    (payload : Fields) : Prop where
  pong : P.strip text ≠ "pong"
  loads : P.loads text = some (.obj payload)
  event : valueOf payload "event" = .null
  arg : valueOf payload "arg" = .obj [("channel", .str "orders")]
  channel : P.strip "orders" = "orders"
  rows : dataRows payload = some rows
  time : valueOf payload "ts" = ts

theorem OrdersText.ordersRows {text : String} {payload : Fields}
    (h : OrdersText P text rows ts payload) : ordersRows P (.text text) = some (rows, ts) := by
  have hpayload : framePayload P (.text text) = some payload := by
    rw [framePayload, decodedText, Option.bind_some, if_neg h.pong, h.loads]
    rfl
  have hchannel : P.strip (P.text (firstOf [("channel", .str "orders")] ["channel"] (.str ""))) =
      "orders" := h.channel
  rw [OrderFrames.ordersRows, hpayload, Option.bind_some, h.arg, h.rows]
  simp [acknowledged, h.event, Json.isText, hchannel, h.time]

theorem OrdersText.normalize {text : String} {payload : Fields}
    (h : OrdersText P text rows ts payload) :
    normalizeV2Frame P (.text text) = eventsOf (orderEvents P ts) rows := by
  have hchannel : P.strip (P.text (firstOf [("channel", .str "orders")] ["channel"] (.str ""))) =
      "orders" := h.channel
  rw [normalizeV2Frame, textEvents, if_neg h.pong, h.loads]
  simp [payloadEvents, h.event, Json.isText, among, bind, Except.bind, dataEvents, h.arg, h.rows,
    hchannel, h.time]

theorem asciiStrip_orders : asciiStrip "orders" = "orders" := by decide +kernel

theorem ordersText_partialFills (tail : String) {ts : Fields} (h : entry ts "event" = none) :
    OrdersText (frameTexts (partialFills ts)) (partialFillsText tail) partialRows (valueOf ts "ts")
      (partialFills ts) where
  pong := strip_bracket_ne _
  loads := rfl
  event := by
    unfold entry at h
    simp [valueOf, entry, partialFills, List.lookup_cons, h]
  arg := rfl
  channel := asciiStrip_orders
  rows := rfl
  time := rfl

/-- Two fills of one order, without a trade, at different times and with one id. -/
def merged (P : FrameTexts) (fill fill' : StreamEvent) : Prop :=
  fill.kind = .fill ∧ fill'.kind = .fill ∧ optionalText P fill.raw "tradeId" = none ∧
    optionalText P fill'.raw "tradeId" = none ∧ optionalText P fill.raw "ordId" = some "9" ∧
    optionalText P fill'.raw "ordId" = some "9" ∧
    ownFillTime P fill.raw = some 1700000000001 ∧ ownFillTime P fill'.raw = some 1700000000002 ∧
    fill.providerFillId = fill'.providerFillId

instance (P : FrameTexts) (fill fill' : StreamEvent) : Decidable (merged P fill fill') :=
  inferInstanceAs (Decidable (_ ∧ _))

/-- The frame carries the time it was sent. -/
def sentFills : FrameTexts := frameTexts (partialFills [("ts", .number "1700000000500")])

def sentFrame : RawFrame := .text (partialFillsText ",\"ts\":1700000000500")

theorem sentFills_any : ((eventsOf (orderEvents sentFills (.number "1700000000500"))
    partialRows).toOption.any fun events => events.any fun fill => events.any fun fill' =>
      merged sentFills fill fill') = true := by
  decide +kernel

/-- Both fills take the time of the frame, and so one id. -/
theorem sentFills_merged : ¬ ∀ events, normalizeV2Frame sentFills sentFrame = .ok events →
    OrdersKept sentFills partialRows events := by
  intro h
  have hmerged := sentFills_any
  have hnormalize : normalizeV2Frame sentFills sentFrame =
      eventsOf (orderEvents sentFills (.number "1700000000500")) partialRows :=
    (@ordersText_partialFills ",\"ts\":1700000000500" [("ts", .number "1700000000500")]
      rfl).normalize
  cases hevents : eventsOf (orderEvents sentFills (.number "1700000000500")) partialRows with
  | error e =>
    rw [hevents] at hmerged
    cases hmerged
  | ok events =>
    rw [hevents] at hmerged
    obtain ⟨fill, hfill, hany⟩ := List.any_eq_true.mp hmerged
    obtain ⟨fill', hfill', hpair⟩ := List.any_eq_true.mp hany
    obtain ⟨hkind, hkind', htrade, htrade', horder, horder', ht, ht', hid⟩ := of_decide_eq_true hpair
    exact (h events (hnormalize.trans hevents)).ids fill hfill fill' hfill' hkind hkind'
      (Or.inr htrade) (Or.inr htrade') "9" horder horder' _ _ ht ht' (by decide) hid

/-- The rows carry no time but the one of their fill, and name no trade. -/
theorem unsentFills_read : FrameRead (frameTexts (partialFills [])) .null partialRows where
  times row hrow _ t _ t' ht' := by
    have hnone : partialRows.all fun row => (firstTime (frameTexts (partialFills []))
        (earlierTimes row .null)).toOption.isNone := by decide +kernel
    have := List.all_eq_true.mp hnone row hrow
    rw [ht'] at this
    cases this
  trades row hrow row' _ _ _ hnull := by
    have hentry : partialRows.all fun row => (entry row "tradeId").isNone := by decide +kernel
    have := List.all_eq_true.mp hentry row hrow
    rw [hnull.1] at this
    cases this

/-- A frame that carries no time is accepted. It has an event of the order and one of the fill for
each row, and each fill has its own time in its id. -/
theorem unsentFills_kept : ∃ events,
    normalizeV2Frame (frameTexts (partialFills [])) (.text (partialFillsText "")) = .ok events ∧
      events.map (·.providerFillId) =
        [none, some "9:1700000000001", none, some "9:1700000000002"] ∧
      OrdersKept (frameTexts (partialFills [])) partialRows events := by
  have h : OrdersText (frameTexts (partialFills [])) (partialFillsText "") partialRows .null
      (partialFills []) := ordersText_partialFills "" rfl
  have hids : (eventsOf (orderEvents (frameTexts (partialFills [])) .null) partialRows).toOption.map
      (fun events => events.map (·.providerFillId)) =
        some [none, some "9:1700000000001", none, some "9:1700000000002"] := by decide +kernel
  rw [← h.normalize] at hids
  rcases order_frame_iff h.ordersRows with ⟨e, he⟩ | ⟨events, hevents, hkept⟩
  · rw [he] at hids
    cases hids
  · rw [hevents] at hids
    exact ⟨events, hevents, Option.some.inj hids, hkept.mpr unsentFills_read⟩

end FattyTrader.OrderFrames
