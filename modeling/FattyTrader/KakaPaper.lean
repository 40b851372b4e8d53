import FattyTrader.Runs
import FattyTrader.Ledger
import FattyTrader.Tables
import Mathlib.Data.Rat.Floor
import Mathlib.Tactic.Ring

/-!
# The Kaka paper ledger

The paper worker takes the messages of one channel, in batches of one transaction each, and applies
the event each is parsed to. Any number of batches run at a time. An event that is no noise waits for
the lock of the lane, which its transaction then holds to its end, and is dropped where an event of
its message is recorded already.

However the batches interleave, fail and crash, with any messages and any repeated : one trade at most
is open for a symbol, a message is applied at most once, a closed trade stays as it is, and an open
one has the margin and the notional of its legs (`ledger_kept`).
-/

set_option linter.unusedSectionVars false

open Tables

namespace FattyTrader

open Runs

/-! ## Events and trades -/

inductive KakaEventType
  | opened
  | add
  | tp
  | tpRemoved
  | stopMove
  | breakeven
  | stopHit
  | close
  | cancel
  | noise
deriving DecidableEq

def KakaEventType.value : KakaEventType → String
  | .opened => "OPEN"
  | .add => "ADD"
  | .tp => "TP"
  | .tpRemoved => "TP_REMOVED"
  | .stopMove => "STOP_MOVE"
  | .breakeven => "BREAKEVEN"
  | .stopHit => "STOP_HIT"
  | .close => "CLOSE"
  | .cancel => "CANCEL"
  | .noise => "NOISE"

structure KakaEvent where
  type : KakaEventType
  symbol : Option String := none
  side : Option Direction := none
  entry : Option ℚ := none
  stopLoss : Option ℚ := none
  takeProfit : Option ℚ := none
  dca : Option ℚ := none
  messageId : ℤ := 0
deriving DecidableEq

inductive PaperState
  | opened
  | closed
deriving DecidableEq

structure PaperTrade where
  sourceMessageId : ℤ
  symbol : String
  side : Direction
  entryPrice : ℚ
  stopLoss : ℚ
  notionalUsdt : ℚ
  marginUsdt : ℚ
  leverage : ℕ
  takeProfit : Option ℚ := none
  dcaLevel : Option ℚ := none
  legs : ℕ := 1
  state : PaperState := .opened
  closePrice : Option ℚ := none
  closeReason : Option String := none
  realizedPnlUsdt : Option ℚ := none
deriving DecidableEq

/-- `MARGIN_PER_LEG_USDT`. -/
def marginPerLegUsdt : ℚ := 1

/-- `LEVERAGE`. -/
def paperLeverage : ℕ := 20

/-- `TAKER_FEE_RATE`. -/
def paperFeeRate : ℚ := 6 / 10000

def notionalForLeg : ℚ := marginPerLegUsdt * paperLeverage

/-- `quantize(Decimal("0.000001"))`, to the nearest, and to the even one of two. -/
def quantizeMicro (q : ℚ) : ℚ :=
  let steps := q * 1000000
  let below := ⌊steps⌋
  let rounded :=
    if steps - below < 1 / 2 then below
    else if 1 / 2 < steps - below then below + 1
    else if below % 2 = 0 then below else below + 1
  rounded / 1000000

def openTrade (event : KakaEvent) (marketPrice : Option ℚ) : Except String PaperTrade :=
  match event.symbol, event.side, event.stopLoss with
  | some symbol, some side, some stopLoss =>
    match event.entry.or marketPrice with
    | none => .error "no entry price and no market price available"
    | some entry =>
      if entry ≤ 0 then .error "no entry price and no market price available"
      else if side = .long ∧ entry ≤ stopLoss then
        .error "long stop is at or above entry (setup already crossed)"
      else if side = .short ∧ stopLoss ≤ entry then
        .error "short stop is at or below entry (setup already crossed)"
      else
        .ok
          { sourceMessageId := event.messageId
            symbol
            side
            entryPrice := entry
            stopLoss
            takeProfit := event.takeProfit
            dcaLevel := event.dca
            notionalUsdt := notionalForLeg
            marginUsdt := marginPerLegUsdt
            leverage := paperLeverage }
  | _, _, _ => .error "OPEN event needs symbol, side and stop loss"

namespace PaperTrade

variable (trade : PaperTrade)

def addLeg (price marketPrice : Option ℚ) : Except String PaperTrade :=
  if trade.state ≠ .opened then .error "cannot add to a closed trade"
  else
    match price.or marketPrice with
    | none => .error "second entry has no price and no market price available"
    | some fill =>
      if fill ≤ 0 then .error "second entry has no price and no market price available"
      else
        let addedNotional := notionalForLeg
        let totalNotional := trade.notionalUsdt + addedNotional
        let quantity := trade.notionalUsdt / trade.entryPrice + addedNotional / fill
        .ok
          { trade with
            entryPrice := totalNotional / quantity
            notionalUsdt := totalNotional
            marginUsdt := trade.marginUsdt + marginPerLegUsdt
            legs := trade.legs + 1 }

def moveStop (newStop : ℚ) : Except String PaperTrade :=
  if trade.state ≠ .opened then .error "cannot move the stop of a closed trade"
  else if newStop ≤ 0 then .error "stop must be positive"
  else .ok { trade with stopLoss := newStop }

def breakeven : PaperTrade := { trade with stopLoss := trade.entryPrice }

def setTakeProfit (takeProfit : Option ℚ) : PaperTrade := { trade with takeProfit }

def pnlUsdt (exitPrice : ℚ) : ℚ :=
  let move := match trade.side with
    | .long => (exitPrice - trade.entryPrice) / trade.entryPrice
    | .short => (trade.entryPrice - exitPrice) / trade.entryPrice
  let gross := trade.notionalUsdt * move
  let exitNotional := trade.notionalUsdt / trade.entryPrice * exitPrice
  quantizeMicro (gross - (trade.notionalUsdt + exitNotional) * paperFeeRate)

def closeTrade (exitPrice : ℚ) (reason : String) : Except String PaperTrade :=
  if trade.state ≠ .opened then .error "trade is already closed"
  else if exitPrice ≤ 0 then .error "exit price must be positive"
  else
    .ok
      { trade with
        state := .closed
        closePrice := some exitPrice
        closeReason := some reason
        realizedPnlUsdt := some (trade.pnlUsdt exitPrice) }

def exitPriceFor (event : KakaEvent) (marketPrice : Option ℚ) : Except String ℚ :=
  if event.type = .stopHit then .ok trade.stopLoss
  else if event.type = .tp then
    match (event.takeProfit.or trade.takeProfit).or marketPrice with
    | some price => .ok price
    | none => .error "TP event without a target and without a market price"
  else
    match marketPrice with
    | some price => .ok price
    | none => .error "close event without a market price"

/-- The end of a trade by an event. -/
def closeBy (event : KakaEvent) (marketPrice : Option ℚ) (reason : String) :
    Except String PaperTrade :=
  (trade.exitPriceFor event marketPrice).bind fun price => trade.closeTrade price reason

/-- What an event makes of an open trade. `price` is what `price_of` answers, or raises. -/
def updated (event : KakaEvent) (price : Except String (Option ℚ)) : Except String PaperTrade :=
  match event.type, event.stopLoss, event.takeProfit with
  | .add, stopLoss, _ =>
    (price.bind (trade.addLeg event.entry)).bind fun added =>
      match stopLoss with
      | none => .ok added
      | some stop => added.moveStop stop
  | .stopMove, some stop, _ => trade.moveStop stop
  | .breakeven, _, _ => .ok trade.breakeven
  | .tp, _, some takeProfit => .ok (trade.setTakeProfit (some takeProfit))
  | .tp, _, none => price.bind fun marketPrice => trade.closeBy event marketPrice "tp"
  | .tpRemoved, _, _ => .ok (trade.setTakeProfit none)
  | .stopHit, _, _ => price.bind fun marketPrice => trade.closeBy event marketPrice "stop-hit"
  | .close, _, _ => price.bind fun marketPrice => trade.closeBy event marketPrice "manual-close"
  | .cancel, _, _ => price.bind fun marketPrice => trade.closeBy event marketPrice "cancelled"
  | type, _, _ => .error ("unhandled event type " ++ type.value)

end PaperTrade

/-! ## The store -/

/-- A row of `paper_kaka_trades`. -/
structure PaperRow where
  id : ℕ
  trade : PaperTrade
deriving DecidableEq

namespace PaperRow

/-- The primary key, and `UNIQUE (source_message_id)`. -/
def Conflict (a b : PaperRow) : Prop :=
  a.id = b.id ∨ a.trade.sourceMessageId = b.trade.sourceMessageId

instance : DecidableRel Conflict := fun a b =>
  inferInstanceAs (Decidable (a.id = b.id ∨ a.trade.sourceMessageId = b.trade.sourceMessageId))

instance : Std.Symm Conflict where
  symm _ _ h := h.imp Eq.symm Eq.symm

/-- The columns `_UPDATE_TRADE` sets. -/
def set (row : PaperRow) (trade : PaperTrade) : PaperRow :=
  { row with
    trade := { row.trade with
      entryPrice := trade.entryPrice
      stopLoss := trade.stopLoss
      takeProfit := trade.takeProfit
      dcaLevel := trade.dcaLevel
      notionalUsdt := trade.notionalUsdt
      marginUsdt := trade.marginUsdt
      legs := trade.legs
      state := trade.state
      closePrice := trade.closePrice
      closeReason := trade.closeReason
      realizedPnlUsdt := trade.realizedPnlUsdt } }

end PaperRow

abbrev PaperTrades := Table PaperRow PaperRow.Conflict

/-- A row of `paper_kaka_events`. -/
structure KakaRecord where
  tradeId : Option ℕ
  messageId : ℤ
  eventType : String
  parsePath : String
deriving DecidableEq

abbrev KakaRecords := Table KakaRecord (SameKey fun r => (r.messageId, r.eventType))

def toTrade (row : PaperRow) : PaperTrade :=
  { row.trade with legs := if row.trade.legs = 0 then 1 else row.trade.legs }

namespace PaperTrades

variable (t : PaperTrades)

/-- The rows that are open, the earliest first. -/
def openRows : List PaperRow := t.rows.filter fun row => row.trade.state = .opened

def loadOpenTrade (symbol : String) : Option PaperRow :=
  (t.openRows.filter fun row => row.trade.symbol = symbol).getLast?

/-- `insert_trade`, with the uuid it takes. None is a violation of the primary key. -/
def insertTrade (id : ℕ) (trade : PaperTrade) : Option PaperTrades :=
  if ∃ row ∈ t.rows, row.trade.sourceMessageId = trade.sourceMessageId then some t
  else t.insert ⟨id, trade⟩

def setTrade (id : ℕ) (trade : PaperTrade) (row : PaperRow) : PaperRow :=
  if row.id = id then row.set trade else row

theorem key_setTrade (id : ℕ) (trade : PaperTrade) (row : PaperRow) :
    (setTrade id trade row).id = row.id ∧
      (setTrade id trade row).trade.sourceMessageId = row.trade.sourceMessageId := by
  unfold setTrade
  split <;> exact ⟨rfl, rfl⟩

def updateTrade (id : ℕ) (trade : PaperTrade) : PaperTrades :=
  t.rewrite (setTrade id trade) fun a b h => by
    obtain ⟨ha, ha'⟩ := key_setTrade id trade a
    obtain ⟨hb, hb'⟩ := key_setTrade id trade b
    simpa only [PaperRow.Conflict, ha, ha', hb, hb'] using h

end PaperTrades

/-! ## The worker -/

/-- How applying an event ends : an exception of Python, which refuses the event, or one of the
database, which ends the transaction. -/
inductive KakaError
  | refused (text : String)
  | database
deriving DecidableEq

/-- What applying an event leaves : the trades, what is recorded, and whether they were written. -/
structure KakaOutcome where
  trades : PaperTrades
  tradeId : Option ℕ
  eventType : String
  applied : Bool

/-- The trade an event is about. -/
def targetTrade (t : PaperTrades) (event : KakaEvent) : Option PaperRow :=
  match event.symbol.filter (· ≠ "") with
  | some symbol => t.loadOpenTrade symbol
  | none =>
    match t.openRows with
    | [row] => t.loadOpenTrade row.trade.symbol
    | _ => none

/-- `handle_event` after the deduplication, for an event that is no noise. -/
def applyEvent (t : PaperTrades) (event : KakaEvent) (price : Except String (Option ℚ)) (id : ℕ) :
    Except KakaError KakaOutcome :=
  if event.type = .opened then
    match t.loadOpenTrade (event.symbol.getD "") with
    | some row => .ok ⟨t, some row.id, "OPEN_IGNORED_ALREADY_OPEN", false⟩
    | none =>
      match price.bind (openTrade event) with
      | .error text => .error (.refused text)
      | .ok trade =>
        match t.insertTrade id trade with
        | none => .error .database
        | some t => .ok ⟨t, none, "OPEN", true⟩
  else
    match targetTrade t event with
    | none => .ok ⟨t, none, "UNMATCHED:" ++ event.type.value, false⟩
    | some row =>
      match (toTrade row).updated event price with
      | .error text => .error (.refused text)
      | .ok trade => .ok ⟨t.updateTrade row.id trade, some row.id, event.type.value, true⟩

/-- A message of the channel : the event its text is parsed to, or what the analysis of its image
answers, where there is one. -/
inductive KakaInput
  | text (event : KakaEvent)
  | media (messageId : ℤ) (analysis : Option (Except String (Option KakaEvent)))

/-- The transaction of a batch : the trades once the lock is taken, the messages whose writes they
hold, and the events it recorded. -/
structure KakaBatch where
  trades : Option PaperTrades
  applied : List ℤ
  records : List KakaRecord

/-- The committed tables with the messages applied in them, who holds the lock, and the batches. -/
structure KakaWorld where
  trades : PaperTrades
  records : KakaRecords
  applied : List ℤ
  lock : Option ℕ
  batches : ℕ → Option KakaBatch

inductive KakaLabel
  | start (worker : ℕ)
  | message (worker : ℕ) (input : KakaInput) (price : Except String (Option ℚ)) (id : ℕ)
  | commit (worker : ℕ)
  /-- a crash, or an exception outside of an event -/
  | rollback (worker : ℕ)

namespace KakaBatch

def record (b : KakaBatch) (tradeId : Option ℕ) (messageId : ℤ) (eventType parsePath : String) :
    KakaBatch :=
  { b with records := b.records ++ [⟨tradeId, messageId, eventType, parsePath⟩] }

end KakaBatch

namespace KakaWorld

/-- The tables before the first message. -/
def empty : KakaWorld where
  trades := Table.empty
  records := Table.empty
  applied := []
  lock := none
  batches _ := none

variable (w : KakaWorld)

def setBatch (worker : ℕ) (b : KakaBatch) : KakaWorld :=
  { w with batches := Function.update w.batches worker (some b) }

/-- The end of a transaction, which lets go of the lock. -/
def finish (worker : ℕ) : KakaWorld :=
  { w with
    lock := if w.lock = some worker then none else w.lock
    batches := Function.update w.batches worker none }

/-- An event of the message is recorded, as the batch sees it. -/
def recorded (b : KakaBatch) (messageId : ℤ) : Bool :=
  w.records.rows.any (·.messageId = messageId) || b.records.any (·.messageId = messageId)

/-- `handle_event`, and the record of a refusal of the message `messageId`. It waits where another
transaction holds the lock. -/
def handleEvent (worker : ℕ) (b : KakaBatch) (messageId : ℤ) (event : KakaEvent)
    (price : Except String (Option ℚ)) (id : ℕ) (refused parsePath : String) : KakaWorld :=
  if event.type = .noise then
    w.setBatch worker (b.record none event.messageId "NOISE" "deterministic")
  else if w.lock ≠ none ∧ w.lock ≠ some worker then w
  else
    let trades := b.trades.getD w.trades
    let locked := { w with lock := some worker }
    let b := { b with trades := some trades }
    if w.recorded b event.messageId then locked.setBatch worker b
    else
      match applyEvent trades event price id with
      | .error (.refused _) =>
        locked.setBatch worker (b.record none messageId (refused ++ event.type.value) parsePath)
      | .error .database => locked.finish worker
      | .ok outcome =>
        locked.setBatch worker
          (({ b with
              trades := some outcome.trades
              applied := if outcome.applied then b.applied ++ [event.messageId] else b.applied
            } : KakaBatch).record outcome.tradeId event.messageId outcome.eventType "deterministic")

/-- The tables a commit leaves. -/
def committed (b : KakaBatch) : KakaWorld :=
  { w with
    trades := b.trades.getD w.trades
    records := w.records.insertAll b.records
    applied := w.applied ++ b.applied }

/-- One step of the lane. -/
def step (w : KakaWorld) : KakaLabel → KakaWorld
  | .start worker =>
    match w.batches worker with
    | none => w.setBatch worker ⟨none, [], []⟩
    | some _ => w
  | .message worker input price id =>
    match w.batches worker with
    | none => w
    | some b =>
      match input with
      | .text event =>
        w.handleEvent worker b event.messageId event price id "REFUSED:" "deterministic"
      | .media messageId none => w.setBatch worker (b.record none messageId "MEDIA_ONLY" "image")
      | .media messageId (some (.error _)) =>
        w.setBatch worker (b.record none messageId "REFUSED:IMAGE" "image")
      | .media messageId (some (.ok none)) =>
        w.setBatch worker (b.record none messageId "MEDIA_ONLY" "image")
      | .media messageId (some (.ok (some event))) =>
        w.handleEvent worker b messageId event price id "REFUSED:IMAGE:" "image"
  | .commit worker =>
    match w.batches worker with
    | none => w
    | some b => (w.committed b).finish worker
  | .rollback worker => w.finish worker

end KakaWorld

/-! ## The ledger -/

/-- The margin and the notional of a trade are those of its legs. -/
structure PaperTrade.Sized (trade : PaperTrade) : Prop where
  margin_eq : trade.marginUsdt = trade.legs * marginPerLegUsdt
  notional_eq : trade.notionalUsdt = trade.legs * notionalForLeg
  legs_pos : 1 ≤ trade.legs

/-- One trade at most is open for a symbol, and the open ones are sized. -/
structure LedgerGood (t : PaperTrades) : Prop where
  single : ∀ a ∈ t, ∀ b ∈ t, a.trade.state = .opened → b.trade.state = .opened →
    a.trade.symbol = b.trade.symbol → a = b
  sized : ∀ a ∈ t, a.trade.state = .opened → a.trade.Sized

/-- The closed trades are kept as they are. -/
def ClosedKept (t t' : PaperTrades) : Prop := ∀ a ∈ t, a.trade.state = .closed → a ∈ t'

section Ledger

variable {t t' : PaperTrades} {trade trade' : PaperTrade} {row : PaperRow} {event : KakaEvent}
  {price : Except String (Option ℚ)} {id : ℕ}

theorem openTrade_ok {marketPrice : Option ℚ} (h : openTrade event marketPrice = .ok trade) :
    event.symbol = some trade.symbol ∧ trade.state = .opened ∧ trade.Sized := by
  unfold openTrade at h
  split at h
  next symbol side stopLoss hsymbol _ _ =>
    split at h
    · cases h
    split at h
    · cases h
    split at h
    · cases h
    split at h
    · cases h
    · obtain rfl := Except.ok.inj h
      exact ⟨hsymbol, rfl, by norm_num, by norm_num, le_rfl⟩
  · cases h

theorem addLeg_ok {entry marketPrice : Option ℚ} (h : trade.addLeg entry marketPrice = .ok trade')
    (hsized : trade.Sized) : trade'.Sized := by
  unfold PaperTrade.addLeg at h
  split at h
  · cases h
  split at h
  · cases h
  split at h
  · cases h
  · obtain rfl := Except.ok.inj h
    refine ⟨?_, ?_, by simp⟩
    · simp only [hsized.margin_eq]
      push_cast
      ring
    · simp only [hsized.notional_eq]
      push_cast
      ring

theorem moveStop_ok {stop : ℚ} (h : trade.moveStop stop = .ok trade') (hsized : trade.Sized) :
    trade'.Sized := by
  unfold PaperTrade.moveStop at h
  split at h
  · cases h
  split at h
  · cases h
  · obtain rfl := Except.ok.inj h
    exact ⟨hsized.margin_eq, hsized.notional_eq, hsized.legs_pos⟩

theorem closeBy_ok {marketPrice : Option ℚ} {reason : String}
    (h : trade.closeBy event marketPrice reason = .ok trade') : trade'.state = .closed := by
  obtain ⟨exitPrice, -, h⟩ := exists_of_bind_ok h
  unfold PaperTrade.closeTrade at h
  split at h
  · cases h
  split at h
  · cases h
  · obtain rfl := Except.ok.inj h
    rfl

/-- An event closes a trade or leaves it sized. -/
theorem updated_ok (h : trade.updated event price = .ok trade') (hsized : trade.Sized) :
    trade'.state = .closed ∨ trade'.Sized := by
  unfold PaperTrade.updated at h
  split at h
  · obtain ⟨added, hadd, h⟩ := exists_of_bind_ok h
    obtain ⟨marketPrice, -, hadd⟩ := exists_of_bind_ok hadd
    split at h
    · obtain rfl := Except.ok.inj h
      exact Or.inr (addLeg_ok hadd hsized)
    · exact Or.inr (moveStop_ok h (addLeg_ok hadd hsized))
  · exact Or.inr (moveStop_ok h hsized)
  · obtain rfl := Except.ok.inj h
    exact Or.inr ⟨hsized.margin_eq, hsized.notional_eq, hsized.legs_pos⟩
  · obtain rfl := Except.ok.inj h
    exact Or.inr ⟨hsized.margin_eq, hsized.notional_eq, hsized.legs_pos⟩
  · obtain ⟨marketPrice, -, h⟩ := exists_of_bind_ok h
    exact Or.inl (closeBy_ok h)
  · obtain rfl := Except.ok.inj h
    exact Or.inr ⟨hsized.margin_eq, hsized.notional_eq, hsized.legs_pos⟩
  · obtain ⟨marketPrice, -, h⟩ := exists_of_bind_ok h
    exact Or.inl (closeBy_ok h)
  · obtain ⟨marketPrice, -, h⟩ := exists_of_bind_ok h
    exact Or.inl (closeBy_ok h)
  · obtain ⟨marketPrice, -, h⟩ := exists_of_bind_ok h
    exact Or.inl (closeBy_ok h)
  · cases h

theorem loadOpenTrade_some {symbol : String} (h : t.loadOpenTrade symbol = some row) :
    row ∈ t ∧ row.trade.state = .opened ∧ row.trade.symbol = symbol := by
  have hmem := List.mem_of_getLast? h
  simp only [PaperTrades.openRows, List.mem_filter, decide_eq_true_eq] at hmem
  exact ⟨hmem.1.1, hmem.1.2, hmem.2⟩

theorem loadOpenTrade_none {symbol : String} (h : t.loadOpenTrade symbol = none) :
    ∀ a ∈ t, a.trade.state = .opened → a.trade.symbol ≠ symbol := by
  intro a ha hopen hsymbol
  have hnil := List.getLast?_eq_none_iff.mp h
  have hmem : a ∈ t.openRows.filter fun row => row.trade.symbol = symbol := by
    simp only [PaperTrades.openRows, List.mem_filter, decide_eq_true_eq]
    exact ⟨⟨ha, hopen⟩, hsymbol⟩
  rw [hnil] at hmem
  cases hmem

theorem targetTrade_some (h : targetTrade t event = some row) :
    row ∈ t ∧ row.trade.state = .opened := by
  have hload : ∀ {symbol}, t.loadOpenTrade symbol = some row →
      row ∈ t ∧ row.trade.state = .opened := fun h =>
    ⟨(loadOpenTrade_some h).1, (loadOpenTrade_some h).2.1⟩
  unfold targetTrade at h
  split at h
  · exact hload h
  · split at h
    · exact hload h
    · cases h

/-- A new open trade of a symbol without one. -/
theorem insertTrade_ok (hgood : LedgerGood t) (h : t.insertTrade id trade = some t')
    (hfree : t.loadOpenTrade trade.symbol = none) (hsized : trade.Sized) :
    LedgerGood t' ∧ ClosedKept t t' := by
  unfold PaperTrades.insertTrade at h
  split at h
  · obtain rfl := Option.some.inj h
    exact ⟨hgood, fun a ha _ => ha⟩
  · have hmem : ∀ {a}, a ∈ t' ↔ a ∈ t ∨ a = ⟨id, trade⟩ := by
      intro a
      rw [Table.mem_iff, Table.rows_of_insert h]
      simp [Table.mem_iff]
    have hother := loadOpenTrade_none hfree
    refine ⟨⟨fun a ha b hb hopen hopen' hsymbol => ?_, fun a ha hopen => ?_⟩,
      fun a ha _ => hmem.mpr (Or.inl ha)⟩
    · rcases hmem.mp ha with ha | rfl <;> rcases hmem.mp hb with hb | rfl
      · exact hgood.single a ha b hb hopen hopen' hsymbol
      · exact absurd hsymbol (hother a ha hopen)
      · exact absurd hsymbol.symm (hother b hb hopen')
      · rfl
    · rcases hmem.mp ha with ha | rfl
      · exact hgood.sized a ha hopen
      · exact hsized

/-- An update of an open trade. -/
theorem updateTrade_ok (hgood : LedgerGood t) (hrow : row ∈ t) (hopen : row.trade.state = .opened)
    (htrade : trade.state = .closed ∨ trade.Sized) :
    LedgerGood (t.updateTrade row.id trade) ∧ ClosedKept t (t.updateTrade row.id trade) := by
  have hid : ∀ a ∈ t, a.id = row.id → a = row := fun a ha hid =>
    (Table.eq_or_not_conflict ha hrow).resolve_right fun hno => hno (Or.inl hid)
  have hset : ∀ a ∈ t, (PaperTrades.setTrade row.id trade a).trade.symbol = a.trade.symbol ∧
      ((PaperTrades.setTrade row.id trade a).trade.state = .opened →
        a.trade.state = .opened ∧ (PaperTrades.setTrade row.id trade a).trade.Sized) := by
    intro a ha
    unfold PaperTrades.setTrade
    by_cases hsame : a.id = row.id
    · rw [if_pos hsame]
      refine ⟨rfl, fun hstate => ⟨by rw [hid a ha hsame, hopen], ?_⟩⟩
      rcases htrade with hclosed | hsized
      · have hstate : trade.state = .opened := hstate
        rw [hclosed] at hstate
        cases hstate
      · exact ⟨hsized.margin_eq, hsized.notional_eq, hsized.legs_pos⟩
    · rw [if_neg hsame]
      exact ⟨rfl, fun hstate => ⟨hstate, hgood.sized a ha hstate⟩⟩
  refine ⟨⟨?_, ?_⟩, fun a ha hclosed => Table.mem_rewrite.mpr ⟨a, ha, ?_⟩⟩
  · intro a' ha' b' hb' hopen hopen' hsymbol
    obtain ⟨a, ha, rfl⟩ := Table.mem_rewrite.mp ha'
    obtain ⟨b, hb, rfl⟩ := Table.mem_rewrite.mp hb'
    rw [(hset a ha).1, (hset b hb).1] at hsymbol
    rw [hgood.single a ha b hb ((hset a ha).2 hopen).1 ((hset b hb).2 hopen').1 hsymbol]
  · intro a' ha' hopen
    obtain ⟨a, ha, rfl⟩ := Table.mem_rewrite.mp ha'
    exact ((hset a ha).2 hopen).2
  · unfold PaperTrades.setTrade
    rw [if_neg]
    intro hsame
    rw [hid a ha hsame, hopen] at hclosed
    cases hclosed

/-- What applying an event keeps. -/
theorem applyEvent_ok (hgood : LedgerGood t) {outcome : KakaOutcome}
    (h : applyEvent t event price id = .ok outcome) :
    LedgerGood outcome.trades ∧ ClosedKept t outcome.trades ∧
      (outcome.applied = false → outcome.trades = t) := by
  unfold applyEvent at h
  split at h
  · split at h
    · obtain rfl := Except.ok.inj h
      exact ⟨hgood, fun a ha _ => ha, fun _ => rfl⟩
    next hfree =>
      split at h
      · cases h
      next trade hopened =>
        split at h
        · cases h
        next t' hinsert =>
          obtain rfl := Except.ok.inj h
          obtain ⟨marketPrice, -, hopened⟩ := exists_of_bind_ok hopened
          obtain ⟨hsymbol, -, hsized⟩ := openTrade_ok hopened
          rw [hsymbol] at hfree
          obtain ⟨hgood', hkept⟩ := insertTrade_ok hgood hinsert hfree hsized
          exact ⟨hgood', hkept, fun happlied => by cases happlied⟩
  · split at h
    · obtain rfl := Except.ok.inj h
      exact ⟨hgood, fun a ha _ => ha, fun _ => rfl⟩
    next row hrow =>
      split at h
      · cases h
      next trade hupdated =>
        obtain rfl := Except.ok.inj h
        obtain ⟨hmem, hopen⟩ := targetTrade_some hrow
        have hsized := hgood.sized row hmem hopen
        have hlegs : toTrade row = row.trade := by
          unfold toTrade
          rw [if_neg (by have := hsized.legs_pos; omega)]
        rw [hlegs] at hupdated
        obtain ⟨hgood', hkept⟩ := updateTrade_ok hgood hmem hopen (updated_ok hupdated hsized)
        exact ⟨hgood', hkept, fun happlied => by cases happlied⟩

end Ledger

/-! ## Every run of the lane -/

namespace KakaWorld

/-- What holds of a batch that is running. It has the lock once it read the trades, its trades are
good and keep the closed ones, and each message applied in them is recorded with them. -/
structure BatchRecord (w : KakaWorld) (worker : ℕ) (b : KakaBatch) : Prop where
  held : ∀ t, b.trades = some t → w.lock = some worker ∧ LedgerGood t ∧ ClosedKept w.trades t ∧
    (b.applied = [] → t = w.trades)
  idle : b.trades = none → b.applied = []
  once : (w.applied ++ b.applied).Nodup
  known : ∀ id ∈ b.applied, ∃ r ∈ b.records, r.messageId = id

/-- The committed tables, and the batches that run. -/
structure KakaRecorded (w : KakaWorld) : Prop where
  good : LedgerGood w.trades
  once : w.applied.Nodup
  known : ∀ id ∈ w.applied, ∃ r ∈ w.records, r.messageId = id
  batches : ∀ worker b, w.batches worker = some b → BatchRecord w worker b

section

variable {w : KakaWorld} {worker : ℕ} {b : KakaBatch}

theorem BatchRecord.record (h : BatchRecord w worker b) (tradeId : Option ℕ) (messageId : ℤ)
    (eventType parsePath : String) :
    BatchRecord w worker (b.record tradeId messageId eventType parsePath) := by
  refine ⟨h.held, h.idle, h.once, fun id hid => ?_⟩
  obtain ⟨r, hr, hr'⟩ := h.known id hid
  exact ⟨r, List.mem_append_left _ hr, hr'⟩

theorem recorded_empty : KakaRecorded empty where
  good := ⟨by simp [empty, Table.mem_iff], by simp [empty, Table.mem_iff]⟩
  once := List.nodup_nil
  known := by simp [empty]
  batches := by simp [empty]

theorem setBatch_recorded (hw : KakaRecorded w) (hb : BatchRecord w worker b) :
    KakaRecorded (w.setBatch worker b) := by
  refine ⟨hw.good, hw.once, hw.known, fun worker' b' h => ?_⟩
  have hrec : BatchRecord w worker' b' := by
    by_cases hworker : worker' = worker
    · subst hworker
      obtain rfl : b = b' := by simpa [setBatch] using h
      exact hb
    · exact hw.batches worker' b' (by simpa [setBatch, hworker] using h)
  exact ⟨hrec.held, hrec.idle, hrec.once, hrec.known⟩

/-- The end of a transaction, once the other batches are known to stand. -/
theorem finish_recorded (hgood : LedgerGood w.trades) (honce : w.applied.Nodup)
    (hknown : ∀ id ∈ w.applied, ∃ r ∈ w.records, r.messageId = id)
    (hother : ∀ worker' b', worker' ≠ worker → w.batches worker' = some b' →
      BatchRecord w worker' b') : KakaRecorded (w.finish worker) := by
  refine ⟨hgood, honce, hknown, fun worker' b' h => ?_⟩
  have hne : worker' ≠ worker := by
    rintro rfl
    simp [finish] at h
  have hrec := hother worker' b' hne (by simpa [finish, hne] using h)
  refine ⟨fun t ht => ?_, hrec.idle, hrec.once, hrec.known⟩
  obtain ⟨hlock, hkept⟩ := hrec.held t ht
  refine ⟨?_, hkept⟩
  simp [finish, hlock, hne]

/-- The lock is taken where no other batch has it. -/
theorem locked_recorded (hw : KakaRecorded w) (hfree : w.lock = none ∨ w.lock = some worker) :
    KakaRecorded { w with lock := some worker } := by
  refine ⟨hw.good, hw.once, hw.known, fun worker' b' h => ?_⟩
  have hrec := hw.batches worker' b' h
  refine ⟨fun t ht => ?_, hrec.idle, hrec.once, hrec.known⟩
  obtain ⟨hlock, hkept⟩ := hrec.held t ht
  refine ⟨?_, hkept⟩
  rcases hfree with hnone | hself
  · rw [hnone] at hlock
    cases hlock
  · rw [← hlock, hself]

/-- The batch with the trades it works on, once it has the lock. -/
theorem BatchRecord.reading (hw : KakaRecorded w) (h : BatchRecord w worker b)
    (hlock : w.lock = some worker) :
    BatchRecord w worker { b with trades := some (b.trades.getD w.trades) } := by
  refine ⟨fun t ht => ?_, fun h => absurd h (Option.some_ne_none _), h.once, h.known⟩
  obtain rfl := Option.some.inj ht
  obtain hb | ⟨t, hb⟩ := Option.eq_none_or_eq_some b.trades
  · rw [hb]
    exact ⟨hlock, hw.good, fun a ha _ => ha, fun _ => rfl⟩
  · rw [hb]
    exact h.held t hb

/-- An event applied by a batch that has no record of its message. -/
theorem BatchRecord.apply (hw : KakaRecorded w) (h : BatchRecord w worker b) {t : PaperTrades}
    (ht : b.trades = some t) {event : KakaEvent} {price : Except String (Option ℚ)} {id : ℕ}
    {outcome : KakaOutcome} (hfresh : w.recorded b event.messageId = false)
    (happly : applyEvent t event price id = .ok outcome) (eventType parsePath : String) :
    BatchRecord w worker
      (({ b with
          trades := some outcome.trades
          applied := if outcome.applied then b.applied ++ [event.messageId] else b.applied
        } : KakaBatch).record outcome.tradeId event.messageId eventType parsePath) := by
  obtain ⟨hlock, hgood, hkept, hsame⟩ := h.held t ht
  obtain ⟨hgood', hkept', hsame'⟩ := applyEvent_ok hgood happly
  simp only [recorded, Bool.or_eq_false_iff, List.any_eq_false, decide_eq_true_eq] at hfresh
  refine ⟨fun t' ht' => ?_, fun h => absurd h (Option.some_ne_none _), ?_, fun id' hid' => ?_⟩
  · obtain rfl := Option.some.inj ht'
    refine ⟨hlock, hgood', fun a ha hclosed => hkept' a (hkept a ha hclosed) hclosed, ?_⟩
    intro happlied
    cases hout : outcome.applied with
    | true => simp [KakaBatch.record, hout] at happlied
    | false =>
      simp only [KakaBatch.record, hout, Bool.false_eq_true, if_false] at happlied
      rw [hsame' hout, hsame happlied]
  · cases hout : outcome.applied with
    | false => simpa [KakaBatch.record, hout] using h.once
    | true =>
      simp only [KakaBatch.record, if_true, ← List.append_assoc]
      refine List.nodup_append.mpr ⟨h.once, by simp, ?_⟩
      intro id₁ hid₁ id₂ hid₂ heq
      rw [List.mem_singleton.mp hid₂] at heq
      rcases List.mem_append.mp hid₁ with hid₁ | hid₁
      · obtain ⟨r, hr, hr'⟩ := hw.known id₁ hid₁
        exact hfresh.1 r hr (hr'.trans heq)
      · obtain ⟨r, hr, hr'⟩ := h.known id₁ hid₁
        exact hfresh.2 r hr (hr'.trans heq)
  · have hold : ∀ id ∈ b.applied, ∃ r ∈ b.records ++
        [(⟨outcome.tradeId, event.messageId, eventType, parsePath⟩ : KakaRecord)],
        r.messageId = id := fun id hid => by
      obtain ⟨r, hr, hr'⟩ := h.known id hid
      exact ⟨r, List.mem_append_left _ hr, hr'⟩
    cases hout : outcome.applied with
    | false => exact hold id' (by simpa [KakaBatch.record, hout] using hid')
    | true =>
      simp only [KakaBatch.record, hout, if_true, List.mem_append, List.mem_singleton] at hid'
      rcases hid' with hid' | rfl
      · exact hold id' hid'
      · exact ⟨_, List.mem_append_right _ (List.mem_singleton.mpr rfl), rfl⟩

theorem handleEvent_recorded (hw : KakaRecorded w) (hb : w.batches worker = some b)
    (messageId : ℤ) (event : KakaEvent) (price : Except String (Option ℚ)) (id : ℕ)
    (refused parsePath : String) :
    KakaRecorded (w.handleEvent worker b messageId event price id refused parsePath) := by
  simp only [handleEvent]
  split
  · exact setBatch_recorded hw ((hw.batches worker b hb).record _ _ _ _)
  split
  · exact hw
  next hfree =>
    have hfree : w.lock = none ∨ w.lock = some worker := by
      by_contra hheld
      push Not at hheld
      exact hfree hheld
    have hlocked := locked_recorded hw hfree
    have hread := BatchRecord.reading hlocked (hlocked.batches worker b hb) rfl
    split
    · exact setBatch_recorded hlocked hread
    next hfresh =>
      split
      · exact setBatch_recorded hlocked (hread.record _ _ _ _)
      · exact finish_recorded hlocked.good hlocked.once hlocked.known fun worker' b' _ h =>
          hlocked.batches worker' b' h
      next outcome happly =>
        exact setBatch_recorded hlocked
          (hread.apply hlocked rfl (Bool.eq_false_iff.mpr hfresh) happly _ _)

/-- Only a commit changes the tables. -/
theorem handleEvent_frame (messageId : ℤ) (event : KakaEvent) (price : Except String (Option ℚ))
    (id : ℕ) (refused parsePath : String) :
    (w.handleEvent worker b messageId event price id refused parsePath).trades = w.trades ∧
      (w.handleEvent worker b messageId event price id refused parsePath).applied = w.applied := by
  simp only [handleEvent]
  split
  · exact ⟨rfl, rfl⟩
  split
  · exact ⟨rfl, rfl⟩
  split
  · exact ⟨rfl, rfl⟩
  split <;> exact ⟨rfl, rfl⟩

theorem commit_recorded (hw : KakaRecorded w) (hb : w.batches worker = some b) :
    KakaRecorded ((w.committed b).finish worker) ∧ ClosedKept w.trades (w.committed b).trades ∧
      ((w.committed b).applied = w.applied → (w.committed b).trades = w.trades) := by
  have hrec := hw.batches worker b hb
  have htrades : LedgerGood (w.committed b).trades ∧ ClosedKept w.trades (w.committed b).trades ∧
      (b.applied = [] → (w.committed b).trades = w.trades) := by
    unfold committed
    obtain hnone | ⟨t, ht⟩ := Option.eq_none_or_eq_some b.trades
    · rw [hnone]
      exact ⟨hw.good, fun a ha _ => ha, fun _ => rfl⟩
    · rw [ht]
      obtain ⟨-, hgood, hkept, hsame⟩ := hrec.held t ht
      exact ⟨hgood, hkept, hsame⟩
  obtain ⟨hgood, hkept, hsame⟩ := htrades
  refine ⟨finish_recorded hgood hrec.once (fun id hid => ?_) fun worker' b' hne h => ?_, hkept,
    fun happlied => hsame (List.append_right_eq_self.mp happlied)⟩
  · obtain ⟨new, hrows, -⟩ := Table.exists_new_insertAll w.records b.records
    rcases List.mem_append.mp hid with hid | hid
    · obtain ⟨r, hr, hr'⟩ := hw.known id hid
      exact ⟨r, Table.mem_iff.mpr (hrows ▸ List.mem_append_left _ hr), hr'⟩
    · obtain ⟨r, hr, hr'⟩ := hrec.known id hid
      obtain ⟨x, hx, rfl | hkey⟩ := Table.exists_insertAll (t := w.records) hr
      · exact ⟨x, hx, hr'⟩
      · exact ⟨x, hx, (congrArg Prod.fst hkey).trans hr'⟩
  · -- another batch that read the trades has the lock, and then this one changed nothing
    have hrec' := hw.batches worker' b' h
    obtain hnone | ⟨t', ht'⟩ := Option.eq_none_or_eq_some b'.trades
    · refine ⟨fun t ht => ?_, hrec'.idle, ?_, hrec'.known⟩
      · rw [hnone] at ht
        cases ht
      · rw [hrec'.idle hnone, List.append_nil]
        exact hrec.once
    · have hidle : b.trades = none := by
        rw [Option.eq_none_iff_forall_ne_some]
        intro t ht
        have hlock := (hrec.held t ht).1
        rw [(hrec'.held t' ht').1] at hlock
        exact hne (Option.some.inj hlock)
      have hsame : (w.committed b).trades = w.trades := hsame (hrec.idle hidle)
      have happlied : (w.committed b).applied = w.applied := by
        unfold committed
        rw [hrec.idle hidle, List.append_nil]
      refine ⟨fun t ht => ?_, hrec'.idle, ?_, hrec'.known⟩
      · rw [hsame]
        exact hrec'.held t ht
      · rw [happlied]
        exact hrec'.once

/-- What a step keeps : the record of the lane, the closed trades, and all trades where it applies
no message. -/
theorem step_recorded (hw : KakaRecorded w) (label : KakaLabel) :
    KakaRecorded (w.step label) ∧ ClosedKept w.trades (w.step label).trades ∧
      ((w.step label).applied = w.applied → (w.step label).trades = w.trades) := by
  have hstay : ∀ {w' : KakaWorld}, KakaRecorded w' → w'.trades = w.trades →
      KakaRecorded w' ∧ ClosedKept w.trades w'.trades ∧
        (w'.applied = w.applied → w'.trades = w.trades) := fun h htrades =>
    ⟨h, fun a ha _ => htrades ▸ ha, fun _ => htrades⟩
  cases label with
  | start worker =>
    cases hb : w.batches worker with
    | some b => simpa only [step, hb] using hstay hw rfl
    | none =>
      simp only [step, hb]
      refine hstay (setBatch_recorded hw ⟨?_, fun _ => rfl, by simpa using hw.once, ?_⟩) rfl
      · intro t ht
        cases ht
      · simp
  | message worker input price id =>
    cases hb : w.batches worker with
    | none => simpa only [step, hb] using hstay hw rfl
    | some b =>
      have hrecord := fun tradeId messageId eventType parsePath =>
        hstay (setBatch_recorded hw
          ((hw.batches worker b hb).record tradeId messageId eventType parsePath)) rfl
      have hevent := fun messageId event refused parsePath =>
        hstay (handleEvent_recorded hw hb messageId event price id refused parsePath)
          (handleEvent_frame messageId event price id refused parsePath).1
      simp only [step, hb]
      split
      · exact hevent _ _ _ _
      · exact hrecord _ _ _ _
      · exact hrecord _ _ _ _
      · exact hrecord _ _ _ _
      · exact hevent _ _ _ _
  | commit worker =>
    cases hb : w.batches worker with
    | none => simpa only [step, hb] using hstay hw rfl
    | some b =>
      simp only [step, hb]
      exact commit_recorded hw hb
  | rollback worker =>
    exact hstay (finish_recorded hw.good hw.once hw.known fun worker' b' _ h =>
      hw.batches worker' b' h) rfl

theorem exec_recorded (labels : List KakaLabel) : KakaRecorded (exec step empty labels) :=
  states_inv (fun _ label h => (step_recorded h label).1) recorded_empty
    (mem_states_iff.mpr ⟨labels, [], (List.append_nil labels).symm, rfl⟩)

theorem closedKept_exec (hw : KakaRecorded w) (labels : List KakaLabel) :
    ClosedKept w.trades (exec step w labels).trades := by
  induction labels generalizing w with
  | nil => exact fun a ha _ => ha
  | cons label labels ih =>
    obtain ⟨hrec, hkept, -⟩ := step_recorded hw label
    exact fun a ha hclosed => ih hrec a (hkept a ha hclosed) hclosed

end

end KakaWorld

/-- Whatever messages the batches take and however they interleave, fail and crash : one trade at
most is open for a symbol, the messages whose changes stand are distinct and nothing else changes the
trades, a closed trade stays as it is, and an open one has the margin and the notional of its legs. -/
theorem ledger_kept (labels : List KakaLabel) :
    let w := exec KakaWorld.step KakaWorld.empty labels
    (∀ a ∈ w.trades, ∀ b ∈ w.trades, a.trade.state = .opened → b.trade.state = .opened →
        a.trade.symbol = b.trade.symbol → a = b) ∧
      (w.applied.Nodup ∧
        ∀ label, (w.step label).applied = w.applied → (w.step label).trades = w.trades) ∧
      (∀ more, ∀ a ∈ w.trades, a.trade.state = .closed →
        a ∈ (exec KakaWorld.step w more).trades) ∧
      ∀ a ∈ w.trades, a.trade.state = .opened →
        a.trade.marginUsdt = a.trade.legs * marginPerLegUsdt ∧
          a.trade.notionalUsdt = a.trade.legs * notionalForLeg := by
  intro w
  have hw : w.KakaRecorded := KakaWorld.exec_recorded labels
  refine ⟨hw.good.single, ⟨hw.once, fun label => (KakaWorld.step_recorded hw label).2.2⟩,
    fun more => KakaWorld.closedKept_exec hw more, fun a ha hopen => ?_⟩
  have hsized := hw.good.sized a ha hopen
  exact ⟨hsized.margin_eq, hsized.notional_eq⟩

end FattyTrader
