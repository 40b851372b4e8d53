import FattyTrader.JsonValues
import FattyTrader.Ledger

/-!
# The REST client of the venue

Every method of the client is one request (`RestClient.request`) and a check of the data it is
answered with. A GET is repeated after a failure of the transport and after the statuses 429 and
from 500 on ; anything else is sent once. The answer to a mutation is an acknowledgement, a refusal
by the venue, or of unknown result : callers take any error but `unknownResult` as proof that the
venue did nothing.

The signature and the headers of a request are left out, and its body is the payload before it is
written as JSON. Symbols and sides are ASCII.
-/

set_option linter.unusedSectionVars false

namespace FattyTrader

/-! ## Values -/

namespace Json

/-- `isinstance(value, dict)`. -/
def isObject : Json → Bool
  | obj _ => true
  | _ => false

/-- `isinstance(value, list) and all(isinstance(row, dict) for row in value)`. -/
def isRows : Json → Bool
  | arr items => items.all isObject
  | _ => false

/-- The text of a string. -/
def text : Json → Option String
  | str s => some s
  | _ => none

end Json

/-- The body of a response : `json()` decodes it, raises a `ValueError`, or raises a
`RecursionError` where it is nested too deep. -/
inductive ResponseBody
  | json (value : Json)
  | invalid
  | tooDeep

/-- What becomes of a request : a `TimeoutException` or a `TransportError`, another exception of the
HTTP library, before or after the request was sent, or a response. -/
inductive Transport
  | failed
  | raised (sent : Bool)
  | response (status : ℕ) (body : ResponseBody)

/-- The request reached the wire. -/
def Transport.sent : Transport → Bool
  | .raised sent => sent
  | _ => true

inductive HttpMethod
  | get
  | post
deriving DecidableEq

/-- A value of a payload. -/
inductive PayloadValue
  | text (s : String)
  | decimal (q : ℚ)
deriving DecidableEq

abbrev Payload := List (String × PayloadValue)

structure HttpRequest where
  method : HttpMethod
  path : String
  params : List (String × String) := []
  payload : Payload := []
deriving DecidableEq

/-- `BitgetApiError`. -/
structure ApiError where
  message : String
  code : String := ""
  providerMsg : String := ""
  httpStatus : Option ℕ := none
deriving DecidableEq

/-- What a method raises. `escaped` is an exception of the HTTP library or of the decoder that the
client does not catch. -/
inductive ClientError
  | value (message : String)
  | contract (message : String)
  | api (e : ApiError)
  | unknownResult (e : ApiError)
  | escaped
deriving DecidableEq

/-- The requests that were sent, and how the call ended. -/
structure CallResult where
  requests : List HttpRequest
  outcome : Except ClientError Json

/-- The text of the values that are not strings, and the fallback for client order ids. -/
structure RestClient where
  maxGetRetries : ℤ := 2
  render : Json → String
  defaultClientOid : (head symbol holdSide : String) → (quantity trigger : ℚ) → String

/-- `_UNKNOWN_MUTATION_CODES`. -/
def unknownMutationCodes : List String := ["40010", "40725", "45001"]

def sensitiveTokens : List String :=
  ["ACCESS-KEY", "ACCESS-SIGN", "ACCESS-PASSPHRASE", "ACCESS-TIMESTAMP"]

/-- `redact`. -/
def redact (message : String) : String :=
  sensitiveTokens.foldl (fun s token => s.replace token "[REDACTED]") message

def apiError (message : String) (code providerMsg : String := "")
    (httpStatus : Option ℕ := none) : ClientError :=
  .api ⟨redact message, code, providerMsg, httpStatus⟩

def unknownResult (message : String) (code providerMsg : String := "")
    (httpStatus : Option ℕ := none) : ClientError :=
  .unknownResult ⟨redact message, code, providerMsg, httpStatus⟩

def HttpMethod.name : HttpMethod → String
  | .get => "GET"
  | .post => "POST"

namespace RestClient

variable (x : RestClient)

/-- `str(fields.get(name, ""))`. -/
def fieldText (fields : List (String × Json)) (name : String) : String :=
  match fields.lookup name with
  | none => ""
  | some (.str s) => s
  | some v => x.render v

/-! ## One request -/

/-- `_envelope_data`. -/
def envelopeData (envelope : Json) : Except ClientError Json :=
  match envelope with
  | .obj fields =>
    if ((fields.lookup "code").bind Json.text) ≠ some "00000" then
      let code := x.fieldText fields "code"
      let msg := x.fieldText fields "msg"
      .error (apiError ("Bitget error " ++ code ++ ": " ++ msg) code msg)
    else .ok ((fields.lookup "data").getD .null)
  | _ => .error (apiError "Unexpected Bitget response shape")

/-- The code of an envelope, where it is a text that is not empty. -/
def envelopeCode : Json → Option String
  | .obj fields => ((fields.lookup "code").bind Json.text).filter fun code => code ≠ ""
  | _ => none

/-- A status from 400 on, but for the statuses from 500 on of a mutation. -/
def errorStatus (method : HttpMethod) (path : String) (status : ℕ) (body : ResponseBody) :
    ClientError :=
  let unreadable :=
    if method = .post then
      unknownResult ("Bitget POST " ++ path ++ " result unknown: invalid error acknowledgement")
    else apiError ("Bitget " ++ method.name ++ " " ++ path ++ " HTTP " ++ toString status) "" ""
      (some status)
  match body with
  | .tooDeep => .escaped
  | .json (.obj fields) =>
    if method = .post ∧ (envelopeCode (.obj fields)).all (· = "00000") then
      unknownResult ("Bitget POST " ++ path ++ " result unknown: untrustworthy error envelope")
    else
      let code := x.fieldText fields "code"
      let msg := x.fieldText fields "msg"
      if method = .post ∧ code ∈ unknownMutationCodes then
        unknownResult ("Bitget " ++ method.name ++ " " ++ path ++ " result unknown: " ++ code ++
          " " ++ msg) code msg (some status)
      else if code ≠ "" ∨ msg ≠ "" then
        apiError (strip ("Bitget " ++ method.name ++ " " ++ path ++ " HTTP " ++ toString status ++
          ": " ++ code ++ " " ++ msg)) code msg (some status)
      else unreadable
  | _ => unreadable

/-- A status below 400. -/
def acknowledged (method : HttpMethod) (path : String) (status : ℕ) (body : ResponseBody) :
    Except ClientError Json :=
  match body with
  | .tooDeep => .error .escaped
  | .invalid =>
    if method = .post then
      .error (unknownResult
        ("Bitget POST " ++ path ++ " result unknown: invalid JSON acknowledgement"))
    else .error (apiError ("Bitget " ++ path ++ " invalid JSON"))
  | .json envelope =>
    match method, envelopeCode envelope with
    | .post, none => .error (unknownResult
        ("Bitget POST " ++ path ++ " result unknown: malformed acknowledgement"))
    | .post, some code =>
      if code ∈ unknownMutationCodes then
        let msg := match envelope with
          | .obj fields => x.fieldText fields "msg"
          | _ => ""
        .error (unknownResult ("Bitget " ++ method.name ++ " " ++ path ++ " result unknown: " ++
          code ++ " " ++ msg) code msg (some status))
      else x.envelopeData envelope
    | .get, _ => x.envelopeData envelope

/-- What an attempt ends with ; none where the request is repeated. -/
def attempt (method : HttpMethod) (path : String) (last : Bool) :
    Transport → Option (Except ClientError Json)
  | .failed =>
    if method = .get then
      if last then some (.error (apiError ("Bitget GET " ++ path ++ " transport failure"))) else none
    else some (.error (unknownResult
      ("Bitget POST " ++ path ++ " result unknown: transport failure")))
  | .raised _ => some (.error .escaped)
  | .response status body =>
    if method = .get ∧ last = false ∧ (status = 429 ∨ 500 ≤ status) then none
    else if method = .post ∧ 500 ≤ status then
      some (.error (unknownResult
        ("Bitget POST " ++ path ++ " result unknown: HTTP " ++ toString status)))
    else if 400 ≤ status then some (.error (x.errorStatus method path status body))
    else some (x.acknowledged method path status body)

/-- The attempts that are left, the next of which meets `t i`. -/
def attempts (request : HttpRequest) (t : ℕ → Transport) : ℕ → ℕ → CallResult
  | 0, _ => ⟨[], .error (apiError ("Bitget GET " ++ request.path ++ " transport failure"))⟩
  | k + 1, i =>
    let sent := if (t i).sent then [request] else []
    match x.attempt request.method request.path (k = 0) (t i) with
    | some outcome => ⟨sent, outcome⟩
    | none =>
      let rest := attempts request t k (i + 1)
      ⟨sent ++ rest.requests, rest.outcome⟩

/-- `_request`. -/
def request (r : HttpRequest) (t : ℕ → Transport) (maxGetRetries : Option ℤ := none) : CallResult :=
  let retries := if r.method = .get then maxGetRetries.getD x.maxGetRetries else 0
  x.attempts r t (1 + retries).toNat 0

/-- `_post`, and the check of the data. -/
def post (path : String) (payload : Payload) (t : ℕ → Transport)
    (accept : Json → Except ClientError Json) : CallResult :=
  let result := x.request { method := .post, path, payload } t
  ⟨result.requests, result.outcome >>= accept⟩

/-- The arguments are checked before the request, and its data after it. -/
def submit (path : String) (payload : Except ClientError Payload) (t : ℕ → Transport)
    (accept : Json → Except ClientError Json) : CallResult :=
  match payload with
  | .error e => ⟨[], .error e⟩
  | .ok payload => x.post path payload t accept

end RestClient

/-! ## Protection contracts -/

/-- A `Decimal | str | None` : missing, a text that is blank or no number, or a value. -/
inductive DecimalArg
  | missing
  | blank
  | invalid
  | value (d : Decimal)
deriving DecidableEq

/-- `_positive_decimal`. -/
def positiveDecimal (v : DecimalArg) (field : String) : Except ClientError ℚ :=
  match v with
  | .value d =>
    match d.positive with
    | some q => .ok q
    | none => .error (.contract (field ++ " must be a positive decimal"))
  | _ => .error (.contract (field ++ " must be a positive decimal"))

/-- `_hold_side`. -/
def holdSide (v : String) : Except ClientError String :=
  let normalized := (strip v).toLower
  if normalized ∈ ["long", "buy"] then .ok "buy"
  else if normalized ∈ ["short", "sell"] then .ok "sell"
  else .error (.contract "Bitget one-way hold side must be long/buy or short/sell")

/-- `_market_execute_price`. -/
def marketExecutePrice (v : DecimalArg) (field : String) : Except ClientError String :=
  match v with
  | .missing | .blank => .ok "0"
  | .invalid | .value .nonFinite =>
    .error (.contract (field ++ " must use market execution price 0"))
  | .value (.finite q) =>
    if q = 0 then .ok "0" else .error (.contract (field ++ " must use market execution price 0"))

/-- One leg of a protection : its trigger, its execute price, its client order id and its size. -/
structure ProtectionLeg where
  trigger : DecimalArg := .missing
  executePrice : DecimalArg := .missing
  clientOid : Option String := none
  size : DecimalArg := .missing
deriving DecidableEq

/-- The arguments of `place_position_tpsl`. -/
structure PositionTpsl where
  symbol : String
  holdSide : String
  quantity : DecimalArg
  stopLoss : ProtectionLeg := {}
  takeProfit : ProtectionLeg := {}
  productType : String := "USDT-FUTURES"
  marginCoin : String := "USDT"
  includeDelegateType : Bool := false
  omitMarketExecutePrices : Bool := false
deriving DecidableEq

namespace RestClient

variable (x : RestClient)

/-- `_client_oid`. -/
def clientOidOr (v : Option String) (head symbol holdSide : String) (quantity trigger : ℚ) :
    String :=
  match v.map strip with
  | some oid => if oid ≠ "" then oid else x.defaultClientOid head symbol holdSide quantity trigger
  | none => x.defaultClientOid head symbol holdSide quantity trigger

/-- The fields of one leg, under the name the venue has for it. -/
def legPayload (leg : ProtectionLeg) (name field head symbol holdSide : String) (quantity : ℚ)
    (omitPrice : Bool) : Except ClientError Payload :=
  if leg.trigger = .missing then .ok []
  else do
    let trigger ← positiveDecimal leg.trigger field
    let price ← marketExecutePrice leg.executePrice (field ++ " execute price")
    let size ← if leg.size = .missing then .ok []
      else positiveDecimal leg.size (field ++ " size") >>= fun size =>
        if quantity < size then
          .error (.contract (field ++ " size cannot exceed protection quantity"))
        else .ok [(name ++ "Size", PayloadValue.decimal size)]
    .ok ([(name ++ "TriggerPrice", .decimal trigger), (name ++ "TriggerType", .text "mark_price")] ++
      (if omitPrice then [] else [(name ++ "ExecutePrice", .text price)]) ++
      [(name ++ "ClientOid",
        .text (x.clientOidOr leg.clientOid head symbol holdSide quantity trigger))] ++ size)

/-- `build_position_tpsl_payload`. -/
def buildPositionTpslPayload (a : PositionTpsl) : Except ClientError Payload :=
  let symbol := (strip a.symbol).toUpper
  if symbol = "" then .error (.contract "Bitget protection symbol is required")
  else if strip a.productType = "" ∨ strip a.marginCoin = "" then
    .error (.contract "Bitget product type and margin coin are required")
  else do
    let quantity ← positiveDecimal a.quantity "protection quantity"
    let side ← holdSide a.holdSide
    if a.stopLoss.trigger = .missing ∧ a.takeProfit.trigger = .missing then
      .error (.contract "at least one of stop_loss or take_profit is required")
    else do
      let stopLoss ← x.legPayload a.stopLoss "stopLoss" "stop loss" "sl" symbol side quantity
        a.omitMarketExecutePrices
      let takeProfit ← x.legPayload a.takeProfit "stopSurplus" "take profit" "tp" symbol side
        quantity a.omitMarketExecutePrices
      .ok ([("marginCoin", .text (strip a.marginCoin).toUpper),
        ("productType", .text (strip a.productType)), ("symbol", .text symbol),
        ("holdSide", .text side)] ++
        (if a.includeDelegateType then [("delegateType", .text "normal")] else []) ++
        stopLoss ++ takeProfit)

end RestClient

/-- `normalize_position_tpsl_response`. -/
def normalizePositionTpslResponse (data : Json) : Except ClientError Json :=
  if data.isRows then .ok data
  else .error (.contract "Bitget placement response must be an array of objects")

/-! ## Mutations -/

/-- The data must be an object. -/
def expectObject (e : ClientError) (data : Json) : Except ClientError Json :=
  if data.isObject then .ok data else .error e

/-- The arguments of `place_entry_order`. -/
structure EntryOrderArgs where
  symbol : String
  side : String
  quantity : String
  clientOid : String
  productType : String := "USDT-FUTURES"
  marginCoin : String := "USDT"
  marginMode : String := "isolated"
  orderType : String := "market"
  price : Option String := none
  tradeSide : Option String := none
deriving DecidableEq

/-- The arguments of `place_market_close`. -/
structure MarketCloseArgs where
  symbol : String
  side : String
  quantity : String
  clientOid : String
  productType : String := "USDT-FUTURES"
  marginCoin : String := "USDT"
  marginMode : String := "isolated"
  tradeSide : Option String := none
deriving DecidableEq

/-- The field of an optional text that is not empty. -/
def optionalField (name : String) (v : Option String) : Payload :=
  ((v.filter fun s => s ≠ "").map fun s => (name, PayloadValue.text s)).toList

def entryPayload (a : EntryOrderArgs) : Except ClientError Payload :=
  if a.side.toLower ∉ ["buy", "sell"] then
    .error (.value "Bitget order side must be BUY or SELL")
  else if a.orderType ∉ ["market", "limit"] then
    .error (.value "Bitget order type must be market or limit")
  else
    let payload : Payload :=
      [("symbol", .text a.symbol.toUpper), ("productType", .text a.productType),
        ("marginMode", .text a.marginMode), ("marginCoin", .text a.marginCoin),
        ("size", .text a.quantity), ("side", .text a.side.toLower),
        ("orderType", .text a.orderType), ("reduceOnly", .text "NO"),
        ("clientOid", .text a.clientOid)] ++ optionalField "tradeSide" a.tradeSide
    if a.orderType = "limit" then
      match a.price with
      | none => .error (.value "limit entry price is required")
      | some price => .ok (payload ++ [("price", .text price), ("force", .text "gtc")])
    else .ok payload

def closePayload (a : MarketCloseArgs) : Except ClientError Payload :=
  if a.side.toLower ∉ ["buy", "sell"] then
    .error (.value "Bitget close side must be BUY or SELL")
  else .ok
    ([("symbol", .text a.symbol.toUpper), ("productType", .text a.productType),
      ("marginMode", .text a.marginMode), ("marginCoin", .text a.marginCoin),
      ("size", .text a.quantity), ("side", .text a.side.toLower), ("orderType", .text "market"),
      ("reduceOnly", .text "YES"), ("clientOid", .text a.clientOid)] ++
      optionalField "tradeSide" a.tradeSide)

def modifyPayload (symbol orderId clientOid triggerPrice : String) : Except ClientError Payload :=
  if symbol = "" ∨ orderId = "" ∨ clientOid = "" then
    .error (.value "Bitget existing SL identity is required")
  else .ok
    [("symbol", .text symbol.toUpper), ("orderId", .text orderId), ("clientOid", .text clientOid),
      ("productType", .text "USDT-FUTURES"), ("marginCoin", .text "USDT"),
      ("triggerPrice", .text triggerPrice), ("triggerType", .text "mark_price"),
      ("executePrice", .text "0"), ("size", .text "")]

/-- The cancellation of one order, which `field` names. -/
def cancelPayload (message symbol field id productType marginCoin : String) :
    Except ClientError Payload :=
  if id = "" then .error (.value message)
  else .ok [("symbol", .text symbol.toUpper), ("productType", .text productType),
    ("marginCoin", .text marginCoin), (field, .text id)]

def cancelAllPayload (symbol : Option String) (productType marginCoin : String) : Payload :=
  [("productType", .text productType), ("marginCoin", .text marginCoin)] ++
    (symbol.map fun s => ("symbol", PayloadValue.text s.toUpper)).toList

namespace RestClient

variable (x : RestClient) (t : ℕ → Transport)

/-- `place_entry_order`. -/
def placeEntryOrder (a : EntryOrderArgs) : CallResult :=
  x.submit "/api/v2/mix/order/place-order" (entryPayload a) t
    (expectObject (unknownResult "Bitget entry result unknown: invalid acknowledgement"))

/-- `place_market_close`. -/
def placeMarketClose (a : MarketCloseArgs) : CallResult :=
  x.submit "/api/v2/mix/order/place-order" (closePayload a) t
    (expectObject (unknownResult "Bitget close result unknown: invalid acknowledgement"))

/-- `place_position_tpsl`. -/
def placePositionTpsl (a : PositionTpsl) : CallResult :=
  x.submit "/api/v2/mix/order/place-pos-tpsl" (x.buildPositionTpslPayload a) t
    normalizePositionTpslResponse

/-- `modify_position_stop_loss`. -/
def modifyPositionStopLoss (symbol orderId clientOid triggerPrice : String) : CallResult :=
  x.submit "/api/v2/mix/order/modify-tpsl-order"
    (modifyPayload symbol orderId clientOid triggerPrice) t
    (expectObject (unknownResult "Bitget SL modification unknown: invalid acknowledgement"))

/-- `cancel_order`. -/
def cancelOrder (symbol orderId : String) (productType : String := "USDT-FUTURES")
    (marginCoin : String := "USDT") : CallResult :=
  x.submit "/api/v2/mix/order/cancel-order"
    (cancelPayload "Bitget order id is required" symbol "orderId" orderId productType marginCoin) t
    (expectObject (apiError "Bitget cancel-order response is invalid"))

/-- `cancel_entry_order`. -/
def cancelEntryOrder (symbol clientOid : String) : CallResult :=
  x.submit "/api/v2/mix/order/cancel-order"
    (cancelPayload "Bitget entry client OID is required" symbol "clientOid" clientOid
      "USDT-FUTURES" "USDT") t
    (expectObject (unknownResult "Bitget cancel result unknown: invalid acknowledgement"))

/-- `cancel_all_orders`. -/
def cancelAllOrders (symbol : Option String := none) (productType : String := "USDT-FUTURES")
    (marginCoin : String := "USDT") : CallResult :=
  x.submit "/api/v2/mix/order/cancel-all-orders"
    (.ok (cancelAllPayload symbol productType marginCoin)) t
    (expectObject (apiError "Bitget cancel-all response is invalid"))

end RestClient

end FattyTrader
