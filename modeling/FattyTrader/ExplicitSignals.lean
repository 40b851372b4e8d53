import FattyTrader.Backtracking
import FattyTrader.Ledger

/-!
# Explicit signals

`parse_explicit_signal` tries five regular expressions on a message, and takes the prices from
what their groups captured. None of the expressions asks what stands next to a number. The
order in which they are tried makes every captured number run to its last digit, and a stop
behind a label run to the end of the message ; but a number goes on in the text where it is
spelled with a comma, a second point or the `x` of a leverage, and a stop that begins with a
point is taken without it.
-/

set_option autoImplicit false

namespace FattyTrader.ExplicitSignals

open Backtracking

/-! ## The characters -/

/-- `[^0-9]`. -/
def notAsciiDigit (x : Char) : Bool := !x.isDigit

/-- The character classes of the expressions, the comparison of letters without their case,
and what the parser asks of a text. -/
structure Engine where
  isSpace : Char → Bool
  isDigit : Char → Bool
  isWord : Char → Bool
  isToken : Char → Bool
  same : Char → Char → Bool
  upper : List Char → List Char
  decimal : List Char → ℚ
  /-- `hashlib.sha256(text.encode("utf-8")).hexdigest()`. -/
  sourceRevision : List Char → String
  space_newline : isSpace '\n' = true
  digit_of_space : ∀ x, isSpace x = true → isDigit x = false
  digit_of_mark : ∀ x ∈ ['.', ',', '-', '/', ':', '@', 'x', 'X'], isDigit x = false
  space_of_mark : ∀ x ∈ ['.', ',', '-', '/', 'x', 'X'], isSpace x = false
  other_of_letter : ∀ x y, x.isAlpha = true → same x y = true →
    isDigit y = false ∧ isSpace y = false ∧ y ∉ ['.', ',', '-', '/']

inductive Group
  | pair
  | pair2
  | direction
  | entry
  | tps
  | tp
  | sl
deriving DecidableEq

abbrev Regex := Pattern Group

/-! ## The expressions -/

open Pattern in
/-- `.*?`. -/
def anything : Regex := gap fun _ => true

/-- One of these characters. -/
def mark (xs : List Char) : Regex := .one fun x => x ∈ xs

namespace Engine

open Pattern

variable (e : Engine)

/-- `\s*`. -/
def space : Regex := greedy e.isSpace

/-- `\s+`. -/
def spaces : Regex := plus e.isSpace

def literal (word : String) : Regex := Pattern.word e.same word.toList

/-- `\d+(?:\.\d+)?`. -/
def number : Regex := seq (plus e.isDigit) (opt (seq (mark ['.']) (plus e.isDigit)))

/-- `[A-Z0-9]{1,20}`. -/
def token : Regex := seq (one e.isToken) (upTo (one e.isToken) 19)

/-- `\s*:?\s*`. -/
def colon : Regex := inOrder [e.space, opt (mark [':']), e.space]

/-- `\s*(?:-|,|/)\s*` and a number. -/
def nextNumber : Regex := inOrder [e.space, mark ['-', ',', '/'], e.space, e.number]

/-- Up to five numbers. -/
def numbers : Regex := seq e.number (upTo e.nextNumber 4)

def side : Regex := group .direction (alt (e.literal "LONG") (e.literal "SHORT"))

/-- The end of every expression but one : the stop, and nothing behind it. -/
def lastStop : List Regex := [group .sl e.number, e.space, finish]

/-- `STOP\s*LOSS`. -/
def stopLoss : Regex := inOrder [e.literal "STOP", e.space, e.literal "LOSS"]

/-- `(?:ENTRY\s*:\s*|MARKET\s+)`. -/
def channelEntry : Regex :=
  alt (inOrder [e.literal "ENTRY", e.space, mark [':'], e.space])
    (seq (e.literal "MARKET") e.spaces)

/-- `(?:TARGETS?|TPS?)\s*:?\s*`. -/
def channelTargets : Regex :=
  seq (alt (seq (e.literal "TARGET") (opt (e.literal "S")))
    (seq (e.literal "TP") (opt (e.literal "S")))) e.colon

/-- `(?:STOPLOSS|SL)\s*:?\s*`. -/
def channelStop : Regex := seq (alt (e.literal "STOPLOSS") (e.literal "SL")) e.colon

def channelHead : List Regex :=
  [e.space, opt (mark ['#', '$']), group .pair e.token,
    opt (inOrder [e.spaces, opt (mark ['$']), group .pair2 e.token]), e.spaces, e.side, anything]

/-- The end of `_CHANNEL`, from the targets on. -/
def channelTail : List Regex :=
  group .tps e.numbers :: anything :: e.channelStop :: e.lastStop

/-- `_CHANNEL`. -/
def channel : Regex := inOrder
  (e.channelHead ++ [e.channelEntry] ++
    group .entry e.number :: anything :: e.channelTargets :: e.channelTail)

/-- `(?:around|at|near)\s+`. -/
def naturalEntry : Regex :=
  seq (oneOf [e.literal "around", e.literal "at", e.literal "near"]) e.spaces

/-- `(?:STOPLOSS|STOP LOSS|SL)\s*:?\s*`. -/
def naturalStop : Regex :=
  seq (oneOf [e.literal "STOPLOSS", inOrder [e.literal "STOP", mark [' '], e.literal "LOSS"],
    e.literal "SL"]) e.colon

def naturalHead : List Regex :=
  [e.space, group .direction (oneOf [e.literal "LONGING", e.literal "SHORTING", e.literal "LONG",
      e.literal "SHORT"]), e.spaces, opt (seq (e.literal "here") e.spaces), opt (mark ['$']),
    group .pair e.token, e.spaces, opt (seq (e.literal "here") e.spaces)]

/-- `_NATURAL_STOP_ONLY`. -/
def naturalStopOnly : Regex := inOrder
  (e.naturalHead ++ [e.naturalEntry] ++
    group .entry e.number :: anything :: e.naturalStop :: e.lastStop)

/-- `SL\s+`. -/
def rigidStop : Regex := seq (e.literal "SL") e.spaces

/-- `TP\s+`. -/
def rigidTarget : Regex := seq (e.literal "TP") e.spaces

def rigidHead : List Regex :=
  [e.space, group .pair e.token, e.spaces, e.side, e.spaces, e.literal "MARKET", e.spaces]

/-- `_RIGID`. -/
def rigid : Regex := inOrder
  (e.rigidHead ++ [e.rigidStop] ++
    [group .sl e.number, e.spaces, e.rigidTarget, group .tp e.number, e.space, finish])

/-- `(?P<direction>LONG|SHORT)\s+(?:limit\s+)?(?:at|around|near|@)?\s*`. -/
def limitEntryLabel : Regex := inOrder
  [e.side, e.spaces, opt (seq (e.literal "limit") e.spaces),
    opt (oneOf [e.literal "at", e.literal "around", e.literal "near", mark ['@']]), e.space]

/-- `(?:STOPLOSS|STOP\s*LOSS|SL)\s*:?\s*`. -/
def limitStop : Regex :=
  seq (oneOf [e.literal "STOPLOSS", e.stopLoss, e.literal "SL"]) e.colon

def limitHead : List Regex :=
  [e.space, opt (mark ['#', '$']), group .pair e.token,
    opt (inOrder [e.spaces, mark ['$', '#'], group .pair2 e.token]), e.spaces,
    opt (seq (e.literal "placing") e.spaces)]

/-- `_LIMIT_ENTRY`. -/
def limitEntry : Regex := inOrder
  (e.limitHead ++ [e.limitEntryLabel] ++
    group .entry e.number :: anything :: e.limitStop :: e.lastStop)

/-- `(?:STOPLOSS|STOP\s*LOSS|SL)\b[^0-9]*`. -/
def scalpStop : Regex := inOrder
  [oneOf [e.literal "STOPLOSS", e.stopLoss, e.literal "SL"], boundary e.isWord,
    greedy notAsciiDigit]

def scalpHead : List Regex :=
  [e.space, opt (mark ['#', '$']), group .pair e.token,
    opt (inOrder [e.spaces, opt (mark ['$']), group .pair2 e.token]), e.spaces,
    group .direction (oneOf [e.literal "LONGED", e.literal "SHORTED", e.literal "LONGING",
      e.literal "SHORTING", e.literal "LONG", e.literal "SHORT"]), boundary e.isWord, anything]

/-- `_SCALP_MARKET_STOP_ONLY`. -/
def scalpMarketStopOnly : Regex := inOrder (e.scalpHead ++ [e.scalpStop] ++ e.lastStop)

/-! ## The stand-down guards -/

/-- `_STAND_DOWN`. -/
def standDown : Regex := inOrder
  [notBehind fun x => x ∈ ['$', '#'], boundary e.isWord,
    oneOf [e.literal "wait", e.literal "waiting", e.literal "hold", e.literal "cancelled",
      e.literal "canceled", e.literal "cancel", e.literal "invalidated"], boundary e.isWord]

/-- `_NEGATED_ENTRY`. -/
def negatedEntry : Regex := inOrder
  [notBehind fun x => x ∈ ['$', '#'], boundary e.isWord,
    oneOf [inOrder [e.literal "do", e.spaces, e.literal "not"],
      inOrder [e.literal "don", opt (mark ['\'', '’']), e.literal "t"], e.literal "never",
      e.literal "not", e.literal "no"], e.spaces,
    oneOf [seq (e.literal "enter") (opt (e.literal "ing")), e.literal "entry",
      seq (e.literal "buy") (opt (e.literal "ing")), seq (e.literal "sell") (opt (e.literal "ing")),
      seq (e.literal "long") (opt (e.literal "ing")),
      seq (e.literal "short") (opt (e.literal "ing"))], boundary e.isWord]

/-- `entry_stands_down`. -/
def entryStandsDown (text : List Char) : Bool :=
  e.standDown.found [] text || e.negatedEntry.found [] text

/-! ## The parser -/

/-- The text of a group, empty where the group took no part. -/
def textOf (m : Way Group) (name : Group) : List Char :=
  ((m.capture name).map Capture.text).getD []

/-- `re.findall`, inside the text of one group. -/
def numbersIn (outer : Capture) : List Capture :=
  (e.number.findAll 0 outer.before outer.text).map fun cap =>
    { cap with after := cap.after ++ outer.after }

def targets (m : Way Group) : List Capture :=
  match (m.capture .tps).or (m.capture .tp) with
  | none => []
  | some targetText => e.numbersIn targetText

/-- `upper().removesuffix("USDT")`, of the second token where there is one. -/
def pairToken (m : Way Group) : List Char :=
  let token := e.upper (((m.capture .pair2).or (m.capture .pair)).map Capture.text |>.getD [])
  if ['U', 'S', 'D', 'T'].isSuffixOf token then token.take (token.length - 4) else token

/-- The first four expressions, in the order they are tried. -/
def sourceMatch (text : List Char) : Option (Way Group) :=
  (e.channel.first text).or ((e.naturalStopOnly.first text).or
    ((e.rigid.first text).or (e.limitEntry.first text)))

end Engine

/-- What the market lookup answers : `Decimal` also has values that are no numbers. -/
inductive MarketPrice
  | finite (price : ℚ)
  | notFinite

abbrev MarketPriceLookup := List Char → Option MarketPrice

/-- The observed entry, where there is a lookup and it answers with a positive number. -/
def observedEntry (marketPriceLookup : Option MarketPriceLookup) (pairToken : List Char) :
    Option ℚ :=
  match marketPriceLookup with
  | none => none
  | some lookup =>
    match lookup pairToken with
    | some (.finite price) => if price ≤ 0 then none else some price
    | _ => none

/-- What a `CanonicalSignal` is built from. -/
structure SignalFields where
  sourceMessageId : ℤ
  sourceRevision : String
  pairToken : List Char
  direction : Direction
  entryPrice : ℚ
  stopLoss : ℚ
  takeProfits : List ℚ

/-- `validate_geometry`. -/
def SignalFields.ValidGeometry (f : SignalFields) : Prop :=
  (f.direction = .long → f.stopLoss < f.entryPrice) ∧
    (f.direction = .short → f.entryPrice < f.stopLoss) ∧ (∀ target ∈ f.takeProfits, 0 < target) ∧
    (f.direction = .long → ∀ target ∈ f.takeProfits, f.entryPrice < target) ∧
    (f.direction = .short → ∀ target ∈ f.takeProfits, target < f.entryPrice)

/-- The bounds of the fields, and the geometry. -/
def SignalFields.Valid (f : SignalFields) : Prop :=
  0 < f.sourceMessageId ∧ f.sourceRevision.length = 64 ∧
    (f.pairToken ≠ [] ∧ f.pairToken.length ≤ 20 ∧
      f.pairToken.all fun x => x.isUpper || x.isDigit) ∧
    0 < f.entryPrice ∧ 0 < f.stopLoss ∧ f.takeProfits.length ≤ 5 ∧ f.ValidGeometry

instance (f : SignalFields) : Decidable f.ValidGeometry := by
  unfold SignalFields.ValidGeometry
  infer_instance

instance (f : SignalFields) : Decidable f.Valid := by
  unfold SignalFields.Valid
  infer_instance

structure CanonicalSignal extends SignalFields where
  valid : toSignalFields.Valid

/-- A `ValueError` of the model is no signal. -/
def canonicalSignal (f : SignalFields) : Option CanonicalSignal :=
  if h : f.Valid then some { f with valid := h } else none

/-- What the parser does not catch. -/
inductive ParseError
  | keyError

def sourceDirections : List (String × Direction) :=
  [("LONGING", .long), ("SHORTING", .short), ("LONG", .long), ("SHORT", .short)]

def scalpDirections : List (String × Direction) :=
  [("LONGED", .long), ("LONGING", .long), ("LONG", .long), ("SHORTED", .short),
    ("SHORTING", .short), ("SHORT", .short)]

/-- A letter of another alphabet may match without its case, and is then no key. -/
def directionOf (directions : List (String × Direction)) (text : List Char) :
    Except ParseError Direction :=
  match directions.find? fun d => d.1.toList = text with
  | some d => .ok d.2
  | none => .error .keyError

namespace Engine

variable (e : Engine) (messageId : ℤ) (marketPriceLookup : Option MarketPriceLookup)
  (text : List Char)

/-- `_scalp_market_signal`. -/
def scalpMarketSignal : Except ParseError (Option CanonicalSignal) :=
  match e.scalpMarketStopOnly.first text with
  | none => .ok none
  | some m =>
    match observedEntry marketPriceLookup (e.pairToken m) with
    | none => .ok none
    | some entry => do
      let direction ← directionOf scalpDirections (e.upper (textOf m .direction))
      return canonicalSignal
        { sourceMessageId := messageId
          sourceRevision := e.sourceRevision text
          pairToken := e.pairToken m
          direction
          entryPrice := entry
          stopLoss := e.decimal (textOf m .sl)
          takeProfits := [] }

/-- The entry a match gives, or the observed one. -/
def entryOf (m : Way Group) : Option ℚ :=
  match m.capture .entry with
  | some cap => some (e.decimal cap.text)
  | none =>
    if e.targets m = [] then none else observedEntry marketPriceLookup (e.pairToken m)

def parseExplicitSignal : Except ParseError (Option CanonicalSignal) :=
  if e.entryStandsDown text then .ok none
  else
    match e.sourceMatch text with
    | none => e.scalpMarketSignal messageId marketPriceLookup text
    | some m => do
      let direction ← directionOf sourceDirections (e.upper (textOf m .direction))
      match e.entryOf marketPriceLookup m with
      | none => return none
      | some entry =>
        return canonicalSignal
          { sourceMessageId := messageId
            sourceRevision := e.sourceRevision text
            pairToken := e.pairToken m
            direction
            entryPrice := entry
            stopLoss := e.decimal (textOf m .sl)
            takeProfits := (e.targets m).map fun cap => e.decimal cap.text }

end Engine

end FattyTrader.ExplicitSignals
