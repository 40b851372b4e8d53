import FattyTrader.AveragedLots
import FattyTrader.KakaPaper
import Mathlib.Tactic.Linarith

/-!
# The legs of a paper trade

A second entry is merged into the trade : the notionals add up, the price becomes the average. The
exposure of the trade, its notional and its quantity, is therefore the sum of the exposures of its
legs, whatever other events come between, and its profit before the rounding is the sum of theirs.
A closed trade of the ledger is paid that sum, rounded once.
-/

set_option autoImplicit false

namespace FattyTrader

open AveragedLots Runs Tables

namespace PaperTrade

/-! ## Exposures -/

/-- `pnl_usdt` before `quantize`. -/
def exactPnl (trade : PaperTrade) (exitPrice : ℚ) : ℚ :=
  let move := match trade.side with
    | .long => (exitPrice - trade.entryPrice) / trade.entryPrice
    | .short => (trade.entryPrice - exitPrice) / trade.entryPrice
  let gross := trade.notionalUsdt * move
  let exitNotional := trade.notionalUsdt / trade.entryPrice * exitPrice
  gross - (trade.notionalUsdt + exitNotional) * paperFeeRate

theorem pnlUsdt_eq (trade : PaperTrade) (exitPrice : ℚ) :
    trade.pnlUsdt exitPrice = quantizeMicro (trade.exactPnl exitPrice) := rfl

/-- A leg on its own, at its own price. -/
def leg (trade : PaperTrade) (price : ℚ) : PaperTrade :=
  { trade with
    entryPrice := price
    notionalUsdt := notionalForLeg
    marginUsdt := marginPerLegUsdt
    legs := 1 }

/-- What the trade cost, and how much of the coin it is. -/
def exposure (trade : PaperTrade) : Exposure ℚ :=
  ⟨trade.notionalUsdt, trade.notionalUsdt / trade.entryPrice⟩

/-- The sign of a move of the price. -/
def sign (trade : PaperTrade) : ℚ :=
  match trade.side with
  | .long => 1
  | .short => -1

/-- A leg is a lot at its price. -/
def legExposure (price : ℚ) : Exposure ℚ := .lot price (notionalForLeg / price)

end PaperTrade

section Trades

variable {trade trade' : PaperTrade} {event : KakaEvent} {price : Except String (Option ℚ)}
  {prices : List ℚ}

theorem notionalForLeg_pos : 0 < notionalForLeg := by
  norm_num [notionalForLeg, marginPerLegUsdt, paperLeverage]

/-- The profit is that of a lot at the entry price. -/
theorem exactPnl_eq (hentry : trade.entryPrice ≠ 0) (exitPrice : ℚ) : trade.exactPnl exitPrice =
    Exposure.profit trade.sign paperFeeRate exitPrice
      (.lot trade.entryPrice trade.exposure.quantity) := by
  rw [Exposure.profit_lot]
  unfold PaperTrade.exactPnl PaperTrade.exposure PaperTrade.sign
  cases trade.side with
  | long =>
    dsimp only
    field_simp
  | short =>
    dsimp only
    field_simp
    ring

theorem exactPnl_leg {p : ℚ} (hp : p ≠ 0) (exitPrice : ℚ) : (trade.leg p).exactPnl exitPrice =
    Exposure.profit trade.sign paperFeeRate exitPrice (PaperTrade.legExposure p) :=
  exactPnl_eq hp exitPrice

theorem notional_legExposure {p : ℚ} (hp : p ≠ 0) :
    (PaperTrade.legExposure p).notional = notionalForLeg :=
  mul_div_cancel₀ notionalForLeg hp

/-- The entry price is the price of the exposure. -/
theorem price_exposure (hnotional : trade.notionalUsdt ≠ 0) :
    trade.exposure.price = trade.entryPrice :=
  div_div_cancel₀ hnotional

/-! ## Averages -/

/-- The trade averages legs at these prices. -/
structure PaperTrade.Averages (trade : PaperTrade) (prices : List ℚ) : Prop where
  nonempty : prices ≠ []
  prices_pos : ∀ p ∈ prices, 0 < p
  entry_pos : 0 < trade.entryPrice
  exposure_eq : trade.exposure = (prices.map PaperTrade.legExposure).sum
  legs_eq : trade.legs = prices.length

/-- The sum of the profits of the legs, each on its own. -/
def PaperTrade.legsPnl (trade : PaperTrade) (prices : List ℚ) (exitPrice : ℚ) : ℚ :=
  (prices.map fun p => (trade.leg p).exactPnl exitPrice).sum

/-- Only the side of a trade matters to its legs. -/
theorem legsPnl_congr (hside : trade'.side = trade.side) (prices : List ℚ) (exitPrice : ℚ) :
    trade'.legsPnl prices exitPrice = trade.legsPnl prices exitPrice := by
  unfold PaperTrade.legsPnl
  refine congrArg List.sum (List.map_congr_left fun p _ => ?_)
  unfold PaperTrade.exactPnl PaperTrade.leg
  rw [hside]

namespace PaperTrade.Averages

theorem notional_pos (h : trade.Averages prices) : 0 < trade.notionalUsdt := by
  have hsum : ∀ ps : List ℚ, (∀ p ∈ ps, 0 < p) →
      (ps.map PaperTrade.legExposure).sum.notional = ps.length * notionalForLeg := by
    intro ps hps
    induction ps with
    | nil => simp
    | cons p ps ih =>
      rw [List.map_cons, List.sum_cons, Exposure.notional_add,
        ih fun q hq => hps q (List.mem_cons_of_mem _ hq),
        notional_legExposure (hps p List.mem_cons_self).ne', List.length_cons]
      push_cast
      ring
  have hnotional : trade.notionalUsdt = prices.length * notionalForLeg := by
    rw [← hsum prices h.prices_pos, ← h.exposure_eq]
    rfl
  rw [hnotional]
  exact mul_pos (Nat.cast_pos.mpr (List.length_pos_iff.mpr h.nonempty)) notionalForLeg_pos

/-- The profit of the averaged trade is that of its legs. -/
theorem exactPnl (h : trade.Averages prices) (exitPrice : ℚ) :
    trade.exactPnl exitPrice = trade.legsPnl prices exitPrice := by
  have hquantity : trade.exposure.quantity ≠ 0 := (div_pos h.notional_pos h.entry_pos).ne'
  rw [exactPnl_eq h.entry_pos.ne', ← price_exposure h.notional_pos.ne']
  rw [h.exposure_eq] at hquantity ⊢
  rw [Exposure.profit_average _ _ _ hquantity, List.map_map, legsPnl]
  refine congrArg List.sum (List.map_congr_left fun p hp => ?_)
  exact (exactPnl_leg (h.prices_pos p hp).ne' exitPrice).symm

/-- The entry price is the average, and lies between the prices of the legs. -/
theorem entry_between (h : trade.Averages prices) {low high : ℚ}
    (hlow : ∀ p ∈ prices, low ≤ p) (hhigh : ∀ p ∈ prices, p ≤ high) :
    low ≤ trade.entryPrice ∧ trade.entryPrice ≤ high := by
  have hsum : Exposure.Between low high (prices.map PaperTrade.legExposure).sum := by
    refine Exposure.between_sum (by simpa using h.nonempty) fun x hx => ?_
    obtain ⟨p, hp, rfl⟩ := List.mem_map.mp hx
    exact Exposure.between_lot (div_pos notionalForLeg_pos (h.prices_pos p hp)) (hlow p hp)
      (hhigh p hp)
  rw [← price_exposure h.notional_pos.ne', h.exposure_eq]
  exact hsum.price

end PaperTrade.Averages

/-! ## Events -/

/-- The price of the leg an event adds. -/
def KakaEvent.fill (event : KakaEvent) (price : Except String (Option ℚ)) : Option ℚ :=
  if event.type = .add then price.toOption.bind event.entry.or else none

theorem averages_openTrade {marketPrice : Option ℚ}
    (h : openTrade event marketPrice = .ok trade) :
    trade.Averages [trade.entryPrice] ∧ trade.state = .opened ∧ trade.closePrice = none := by
  unfold openTrade at h
  split at h
  · split at h
    · cases h
    next entry _ =>
      split at h
      · cases h
      next hentry =>
        split at h
        · cases h
        split at h
        · cases h
        · obtain rfl := Except.ok.inj h
          have hpos : 0 < entry := lt_of_not_ge hentry
          refine ⟨⟨List.cons_ne_nil _ _, ?_, hpos, ?_, rfl⟩, rfl, rfl⟩
          · simpa using hpos
          · rw [List.map_singleton, List.sum_singleton]
            ext
            · exact (notional_legExposure hpos.ne').symm
            · rfl
  · cases h

/-- A second entry adds its leg, and changes nothing else but the average. -/
theorem averages_addLeg {entry marketPrice : Option ℚ}
    (h : trade.addLeg entry marketPrice = .ok trade') (ha : trade.Averages prices) :
    ∃ fill, entry.or marketPrice = some fill ∧ trade'.Averages (prices ++ [fill]) ∧
      trade'.side = trade.side ∧ trade.state = .opened ∧ trade'.state = .opened ∧
      trade'.closePrice = trade.closePrice := by
  unfold PaperTrade.addLeg at h
  split at h
  · cases h
  next hopen =>
    split at h
    · cases h
    next fill hfill =>
      split at h
      · cases h
      next hpos =>
        have hpos : 0 < fill := lt_of_not_ge hpos
        have hopen : trade.state = .opened := not_not.mp hopen
        obtain rfl := Except.ok.inj h
        have hold := div_pos ha.notional_pos ha.entry_pos
        have hnew := div_pos notionalForLeg_pos hpos
        have htotal := add_pos ha.notional_pos notionalForLeg_pos
        refine ⟨fill, hfill, ⟨by simp, ?_, div_pos htotal (add_pos hold hnew), ?_, ?_⟩, rfl, hopen,
          hopen, rfl⟩
        · intro p hp
          rcases List.mem_append.mp hp with hp | hp
          · exact ha.prices_pos p hp
          · exact List.mem_singleton.mp hp ▸ hpos
        · rw [List.map_append, List.sum_append, ← ha.exposure_eq]
          rw [List.map_singleton, List.sum_singleton]
          ext
          · rw [Exposure.notional_add, notional_legExposure hpos.ne']
            rfl
          · -- the quantity at the average price is the sum of the quantities
            exact div_div_cancel₀ htotal.ne'
        · simp [ha.legs_eq]

theorem averages_moveStop {stop : ℚ} (h : trade.moveStop stop = .ok trade')
    (ha : trade.Averages prices) :
    trade'.Averages prices ∧ trade'.side = trade.side ∧ trade.state = .opened ∧
      trade'.state = .opened ∧ trade'.closePrice = trade.closePrice := by
  unfold PaperTrade.moveStop at h
  split at h
  · cases h
  next hopen =>
    have hopen : trade.state = .opened := not_not.mp hopen
    split at h
    · cases h
    · obtain rfl := Except.ok.inj h
      exact ⟨⟨ha.nonempty, ha.prices_pos, ha.entry_pos, ha.exposure_eq, ha.legs_eq⟩, rfl, hopen,
        hopen, rfl⟩

/-- The trade averages legs at these prices, and was paid the rounded profit where it is closed. -/
structure PaperTrade.Keeps (trade : PaperTrade) (prices : List ℚ) : Prop
    extends trade.Averages prices where
  unpaid : trade.state = .opened → trade.closePrice = none
  paid : ∀ exitPrice, trade.closePrice = some exitPrice →
    trade.realizedPnlUsdt = some (trade.pnlUsdt exitPrice)

theorem keeps_openTrade {marketPrice : Option ℚ} (h : openTrade event marketPrice = .ok trade) :
    trade.Keeps [trade.entryPrice] := by
  obtain ⟨ha, -, hclose⟩ := averages_openTrade h
  refine ⟨ha, fun _ => hclose, fun exitPrice hexit => ?_⟩
  rw [hclose] at hexit
  cases hexit

theorem keeps_addLeg {entry marketPrice : Option ℚ}
    (h : trade.addLeg entry marketPrice = .ok trade') (hk : trade.Keeps prices) :
    ∃ fill, entry.or marketPrice = some fill ∧ trade'.Keeps (prices ++ [fill]) ∧
      trade'.side = trade.side := by
  obtain ⟨fill, hfill, ha, hside, hopen, -, hclose⟩ := averages_addLeg h hk.toAverages
  rw [hk.unpaid hopen] at hclose
  refine ⟨fill, hfill, ⟨ha, fun _ => hclose, fun exitPrice hexit => ?_⟩, hside⟩
  rw [hclose] at hexit
  cases hexit

theorem keeps_moveStop {stop : ℚ} (h : trade.moveStop stop = .ok trade')
    (hk : trade.Keeps prices) : trade'.Keeps prices ∧ trade'.side = trade.side := by
  obtain ⟨ha, hside, hopen, -, hclose⟩ := averages_moveStop h hk.toAverages
  rw [hk.unpaid hopen] at hclose
  refine ⟨⟨ha, fun _ => hclose, fun exitPrice hexit => ?_⟩, hside⟩
  rw [hclose] at hexit
  cases hexit

theorem keeps_closeBy {marketPrice : Option ℚ} {reason : String}
    (h : trade.closeBy event marketPrice reason = .ok trade') (hk : trade.Keeps prices) :
    trade'.Keeps prices ∧ trade'.side = trade.side := by
  obtain ⟨exitPrice, -, h⟩ := exists_of_bind_ok h
  unfold PaperTrade.closeTrade at h
  split at h
  · cases h
  split at h
  · cases h
  · obtain rfl := Except.ok.inj h
    refine ⟨⟨⟨hk.nonempty, hk.prices_pos, hk.entry_pos, hk.exposure_eq, hk.legs_eq⟩, ?_, ?_⟩, rfl⟩
    · intro hopen
      cases hopen
    · rintro _ ⟨⟩
      rfl

theorem keeps_of_frame (hk : trade.Keeps prices) (hentry : trade'.entryPrice = trade.entryPrice)
    (hnotional : trade'.notionalUsdt = trade.notionalUsdt) (hlegs : trade'.legs = trade.legs)
    (hside : trade'.side = trade.side) (hstate : trade'.state = trade.state)
    (hclose : trade'.closePrice = trade.closePrice)
    (hrealized : trade'.realizedPnlUsdt = trade.realizedPnlUsdt) : trade'.Keeps prices where
  nonempty := hk.nonempty
  prices_pos := hk.prices_pos
  entry_pos := hentry ▸ hk.entry_pos
  exposure_eq := by rw [PaperTrade.exposure, hentry, hnotional]; exact hk.exposure_eq
  legs_eq := hlegs.trans hk.legs_eq
  unpaid hopen := hclose.trans (hk.unpaid (hstate.symm.trans hopen))
  paid exitPrice hexit := by
    rw [hrealized, hk.paid exitPrice (hclose.symm.trans hexit), PaperTrade.pnlUsdt,
      PaperTrade.pnlUsdt, hentry, hnotional, hside]

/-- What an event keeps : the legs with the one it adds, and the side. -/
theorem keeps_updated (h : trade.updated event price = .ok trade') (hk : trade.Keeps prices) :
    trade'.Keeps (prices ++ (event.fill price).toList) ∧ trade'.side = trade.side := by
  unfold PaperTrade.updated at h
  by_cases hadd : event.type = .add
  · rw [hadd] at h
    obtain ⟨added, h', hstop⟩ := exists_of_bind_ok h
    obtain ⟨marketPrice, rfl, h'⟩ := exists_of_bind_ok h'
    obtain ⟨fill, hfill, hkeeps, hside⟩ := keeps_addLeg h' hk
    have hlegs : event.fill (.ok marketPrice) = some fill := by
      rw [KakaEvent.fill, if_pos hadd]
      exact hfill
    rw [hlegs]
    split at hstop
    · obtain rfl := Except.ok.inj hstop
      exact ⟨hkeeps, hside⟩
    · obtain ⟨hkeeps', hside'⟩ := keeps_moveStop hstop hkeeps
      exact ⟨hkeeps', hside'.trans hside⟩
  · rw [KakaEvent.fill, if_neg hadd, Option.toList_none, List.append_nil]
    split at h
    next htype => exact absurd htype hadd
    · exact keeps_moveStop h hk
    · obtain rfl := Except.ok.inj h
      exact ⟨keeps_of_frame hk rfl rfl rfl rfl rfl rfl rfl, rfl⟩
    · obtain rfl := Except.ok.inj h
      exact ⟨keeps_of_frame hk rfl rfl rfl rfl rfl rfl rfl, rfl⟩
    · obtain ⟨marketPrice, -, h⟩ := exists_of_bind_ok h
      exact keeps_closeBy h hk
    · obtain rfl := Except.ok.inj h
      exact ⟨keeps_of_frame hk rfl rfl rfl rfl rfl rfl rfl, rfl⟩
    · obtain ⟨marketPrice, -, h⟩ := exists_of_bind_ok h
      exact keeps_closeBy h hk
    · obtain ⟨marketPrice, -, h⟩ := exists_of_bind_ok h
      exact keeps_closeBy h hk
    · obtain ⟨marketPrice, -, h⟩ := exists_of_bind_ok h
      exact keeps_closeBy h hk
    · cases h

/-! ## The events of one trade -/

/-- The events of a trade, one after the other, each with what the market lookup answers to it. -/
def PaperTrade.updates (trade : PaperTrade) :
    List (KakaEvent × Except String (Option ℚ)) → Except String PaperTrade
  | [] => .ok trade
  | (event, price) :: rest => (trade.updated event price).bind fun trade => trade.updates rest

/-- The prices of the legs the events add. -/
def legFills (events : List (KakaEvent × Except String (Option ℚ))) : List ℚ :=
  events.filterMap fun e => e.1.fill e.2

theorem keeps_updates : ∀ {events : List (KakaEvent × Except String (Option ℚ))}
    {trade : PaperTrade} {prices : List ℚ}, trade.updates events = .ok trade' →
      trade.Keeps prices → trade'.Keeps (prices ++ legFills events) ∧ trade'.side = trade.side
  | [], trade, prices, h, hk => by
    obtain rfl := Except.ok.inj h
    rw [legFills, List.filterMap_nil, List.append_nil]
    exact ⟨hk, rfl⟩
  | (event, price) :: rest, trade, prices, h, hk => by
    obtain ⟨next, hnext, h⟩ := exists_of_bind_ok h
    obtain ⟨hkeeps, hside⟩ := keeps_updated hnext hk
    obtain ⟨hkeeps', hside'⟩ := keeps_updates h hkeeps
    have hfills : legFills ((event, price) :: rest) =
        (event.fill price).toList ++ legFills rest := by
      unfold legFills
      cases hfill : event.fill price with
      | none => simp [hfill]
      | some fill => simp [hfill]
    rw [hfills, ← List.append_assoc]
    exact ⟨hkeeps', hside'.trans hside⟩

/-- Legs can be added to an open trade at any prices above zero. -/
theorem exists_updates : ∀ (prices : List ℚ) {trade : PaperTrade}, (∀ p ∈ prices, 0 < p) →
    trade.state = .opened → ∃ events trade', legFills events = prices ∧
      trade.updates events = .ok trade' ∧ trade'.state = .opened
  | [], trade, _, hopen => ⟨[], trade, rfl, rfl, hopen⟩
  | p :: prices, trade, hpos, hopen => by
    have hp : 0 < p := hpos p List.mem_cons_self
    obtain ⟨added, hadd, hstate⟩ :
        ∃ added, trade.addLeg (some p) none = .ok added ∧ added.state = .opened := by
      unfold PaperTrade.addLeg
      rw [if_neg (not_not.mpr hopen)]
      dsimp only [Option.or]
      rw [if_neg (not_le.mpr hp)]
      exact ⟨_, rfl, hopen⟩
    obtain ⟨events, trade', hfills, hrun, hstate'⟩ :=
      exists_updates prices (fun q hq => hpos q (List.mem_cons_of_mem _ hq)) hstate
    refine ⟨({ type := .add, entry := some p }, .ok none) :: events, trade', ?_, ?_, hstate'⟩
    · rw [← hfills]
      rfl
    · have hupdated : trade.updated { type := .add, entry := some p } (.ok none) = .ok added := by
        change (trade.addLeg (some p) none).bind Except.ok = _
        rw [hadd]
        rfl
      rw [PaperTrade.updates, hupdated]
      exact hrun

/-- However a trade is opened and whatever events follow : its profit before the rounding is the
sum of the profits of its legs, each taken on its own, and does not depend on the order of the
legs. -/
theorem pnl_of_legs {opened : PaperTrade} {marketPrice : Option ℚ}
    {events : List (KakaEvent × Except String (Option ℚ))}
    (hopen : openTrade event marketPrice = .ok opened)
    (hrun : opened.updates events = .ok trade) :
    let prices := opened.entryPrice :: legFills events
    (∀ exitPrice, trade.exactPnl exitPrice =
        (prices.map fun p => (opened.leg p).exactPnl exitPrice).sum ∧
      trade.pnlUsdt exitPrice =
        quantizeMicro (prices.map fun p => (opened.leg p).exactPnl exitPrice).sum) ∧
    ∀ event' marketPrice' opened' events' trade',
      openTrade event' marketPrice' = .ok opened' → opened'.updates events' = .ok trade' →
        opened'.side = opened.side → (opened'.entryPrice :: legFills events').Perm prices →
          ∀ exitPrice, trade'.exactPnl exitPrice = trade.exactPnl exitPrice := by
  intro prices
  have hsum : ∀ {event' : KakaEvent} {marketPrice' : Option ℚ} {opened' trade' : PaperTrade}
      {events' : List (KakaEvent × Except String (Option ℚ))},
      openTrade event' marketPrice' = .ok opened' → opened'.updates events' = .ok trade' →
        ∀ exitPrice, trade'.exactPnl exitPrice =
          opened'.legsPnl (opened'.entryPrice :: legFills events') exitPrice := by
    intro event' marketPrice' opened' trade' events' hopen' hrun' exitPrice
    obtain ⟨hkeeps, hside⟩ := keeps_updates hrun' (keeps_openTrade hopen')
    rw [hkeeps.exactPnl, List.singleton_append]
    exact legsPnl_congr hside _ _
  refine ⟨fun exitPrice => ⟨hsum hopen hrun exitPrice, ?_⟩, ?_⟩
  · rw [PaperTrade.pnlUsdt_eq, hsum hopen hrun exitPrice]
    rfl
  · intro event' marketPrice' opened' events' trade' hopen' hrun' hside hperm exitPrice
    rw [hsum hopen' hrun', hsum hopen hrun, legsPnl_congr hside]
    exact (hperm.map _).sum_eq

/-- A long opened at 100, with a second entry at 110. -/
def longAt100 : PaperTrade where
  sourceMessageId := 1
  symbol := "ETHUSDT"
  side := .long
  entryPrice := 100
  stopLoss := 90
  notionalUsdt := 20
  marginUsdt := 1
  leverage := 20

def openLong : KakaEvent where
  type := .opened
  symbol := some "ETHUSDT"
  side := some .long
  entry := some 100
  stopLoss := some 90
  messageId := 1

def secondEntry : KakaEvent where
  type := .add
  entry := some 110
  messageId := 2

theorem pnl_of_legs_pair : ∃ trade,
    openTrade openLong none = .ok longAt100 ∧
      longAt100.updates [(secondEntry, .ok none)] = .ok trade ∧ trade.entryPrice = 2200 / 21 ∧
      trade.exactPnl 120 =
        (longAt100.leg 100).exactPnl 120 + (longAt100.leg 110).exactPnl 120 := by
  have hopen : openTrade openLong none = .ok longAt100 := by decide +kernel
  have hrun : longAt100.updates [(secondEntry, .ok none)] =
      .ok { longAt100 with
        entryPrice := 2200 / 21, notionalUsdt := 40, marginUsdt := 2, legs := 2 } := by
    decide +kernel
  have hprices : longAt100.entryPrice :: legFills [(secondEntry, .ok none)] = [100, 110] := rfl
  have hsum := ((pnl_of_legs hopen hrun).1 120).1
  rw [hprices] at hsum
  refine ⟨_, hopen, hrun, rfl, ?_⟩
  simpa using hsum

end Trades

/-! ## The legs of the ledger -/

/-- Every trade averages some legs, and was paid their rounded profit where it is closed. -/
def LegsKept (t : PaperTrades) : Prop := ∀ row ∈ t, ∃ prices, row.trade.Keeps prices

section Ledger

variable {t t' : PaperTrades} {trade : PaperTrade} {row : PaperRow} {event : KakaEvent}
  {price : Except String (Option ℚ)} {id : ℕ}

theorem legsKept_insertTrade (ht : LegsKept t) (h : t.insertTrade id trade = some t')
    (hkeeps : ∃ prices, trade.Keeps prices) : LegsKept t' := by
  unfold PaperTrades.insertTrade at h
  split at h
  · obtain rfl := Option.some.inj h
    exact ht
  · intro a ha
    rw [Table.mem_iff, Table.rows_of_insert h] at ha
    rcases List.mem_append.mp ha with ha | ha
    · exact ht a (Table.mem_iff.mpr ha)
    · rw [List.mem_singleton.mp ha]
      exact hkeeps

/-- An update writes every column of the trade but those that no event changes. -/
theorem legsKept_updateTrade (ht : LegsKept t) (hrow : row ∈ t) {prices : List ℚ}
    (hkeeps : trade.Keeps prices) (hside : trade.side = row.trade.side) :
    LegsKept (t.updateTrade row.id trade) := by
  intro a' ha'
  obtain ⟨a, ha, rfl⟩ := Table.mem_rewrite.mp ha'
  unfold PaperTrades.setTrade
  by_cases hid : a.id = row.id
  · obtain rfl : a = row := (Table.eq_or_not_conflict ha hrow).resolve_right fun hno =>
      hno (Or.inl hid)
    rw [if_pos hid]
    exact ⟨prices, keeps_of_frame hkeeps rfl rfl rfl hside.symm rfl rfl rfl⟩
  · rw [if_neg hid]
    exact ht a ha

theorem legsKept_applyEvent (ht : LegsKept t) {outcome : KakaOutcome}
    (h : applyEvent t event price id = .ok outcome) : LegsKept outcome.trades := by
  unfold applyEvent at h
  split at h
  · split at h
    · obtain rfl := Except.ok.inj h
      exact ht
    · split at h
      · cases h
      next opened hopened =>
        split at h
        · cases h
        next t' hinsert =>
          obtain rfl := Except.ok.inj h
          obtain ⟨marketPrice, -, hopened⟩ := exists_of_bind_ok hopened
          exact legsKept_insertTrade ht hinsert ⟨_, keeps_openTrade hopened⟩
  · split at h
    · obtain rfl := Except.ok.inj h
      exact ht
    next row hrow =>
      split at h
      · cases h
      next updated hupdated =>
        obtain rfl := Except.ok.inj h
        obtain ⟨hmem, -⟩ := targetTrade_some hrow
        obtain ⟨prices, hkeeps⟩ := ht row hmem
        have hlegs : toTrade row = row.trade := by
          unfold toTrade
          rw [if_neg (by simpa [hkeeps.legs_eq] using hkeeps.nonempty)]
        rw [hlegs] at hupdated
        obtain ⟨hkeeps', hside⟩ := keeps_updated hupdated hkeeps
        exact legsKept_updateTrade ht hmem hkeeps' hside

end Ledger

namespace KakaWorld

/-- The committed trades keep their legs, and so do those of the batches. -/
structure LegsRecorded (w : KakaWorld) : Prop where
  trades : LegsKept w.trades
  batches : ∀ worker b t, w.batches worker = some b → b.trades = some t → LegsKept t

section

variable {w : KakaWorld} {worker : ℕ} {b : KakaBatch}

theorem LegsRecorded.setBatch (hw : LegsRecorded w)
    (hb : ∀ t, b.trades = some t → LegsKept t) : LegsRecorded (w.setBatch worker b) := by
  refine ⟨hw.trades, fun worker' b' t h ht => ?_⟩
  by_cases hworker : worker' = worker
  · subst hworker
    obtain rfl : b = b' := by simpa [KakaWorld.setBatch] using h
    exact hb t ht
  · exact hw.batches worker' b' t (by simpa [KakaWorld.setBatch, hworker] using h) ht

theorem LegsRecorded.finish (htrades : LegsKept w.trades)
    (hbatches : ∀ worker b t, w.batches worker = some b → b.trades = some t → LegsKept t) :
    LegsRecorded (w.finish worker) := by
  refine ⟨htrades, fun worker' b' t h ht => ?_⟩
  by_cases hworker : worker' = worker
  · simp [KakaWorld.finish, hworker] at h
  · exact hbatches worker' b' t (by simpa [KakaWorld.finish, hworker] using h) ht

theorem LegsRecorded.handleEvent (hw : LegsRecorded w) (hb : w.batches worker = some b)
    (messageId : ℤ) (event : KakaEvent) (price : Except String (Option ℚ)) (id : ℕ)
    (refused parsePath : String) :
    LegsRecorded (w.handleEvent worker b messageId event price id refused parsePath) := by
  have hold := hw.batches worker b
  simp only [KakaWorld.handleEvent]
  split
  · exact hw.setBatch fun t ht => hold t hb ht
  split
  · exact hw
  · have hread : LegsKept (b.trades.getD w.trades) := by
      obtain hnone | ⟨t, ht⟩ := Option.eq_none_or_eq_some b.trades
      · rw [hnone]
        exact hw.trades
      · rw [ht]
        exact hold t hb ht
    have hlocked : LegsRecorded { w with lock := some worker } := ⟨hw.trades, hw.batches⟩
    have hreading : ∀ t, some (b.trades.getD w.trades) = some t → LegsKept t := by
      rintro _ ⟨⟩
      exact hread
    split
    · exact hlocked.setBatch hreading
    split
    · exact hlocked.setBatch hreading
    · exact .finish hw.trades hw.batches
    next outcome happly =>
      refine hlocked.setBatch fun t ht => ?_
      obtain rfl := Option.some.inj ht
      exact legsKept_applyEvent hread happly

theorem LegsRecorded.step (hw : LegsRecorded w) (label : KakaLabel) :
    LegsRecorded (w.step label) := by
  cases label with
  | start worker =>
    cases hb : w.batches worker with
    | some b => simpa only [KakaWorld.step, hb] using hw
    | none =>
      simp only [KakaWorld.step, hb]
      exact hw.setBatch fun t ht => by cases ht
  | message worker input price id =>
    cases hb : w.batches worker with
    | none => simpa only [KakaWorld.step, hb] using hw
    | some b =>
      have hrecord : ∀ tradeId messageId eventType parsePath,
          LegsRecorded (w.setBatch worker (b.record tradeId messageId eventType parsePath)) :=
        fun _ _ _ _ => hw.setBatch fun t ht => hw.batches worker b t hb ht
      simp only [KakaWorld.step, hb]
      split
      · exact hw.handleEvent hb _ _ _ _ _ _
      · exact hrecord _ _ _ _
      · exact hrecord _ _ _ _
      · exact hrecord _ _ _ _
      · exact hw.handleEvent hb _ _ _ _ _ _
  | commit worker =>
    cases hb : w.batches worker with
    | none => simpa only [KakaWorld.step, hb] using hw
    | some b =>
      simp only [KakaWorld.step, hb]
      refine .finish ?_ hw.batches
      unfold committed
      obtain hnone | ⟨t, ht⟩ := Option.eq_none_or_eq_some b.trades
      · rw [hnone]
        exact hw.trades
      · rw [ht]
        exact hw.batches worker b t hb ht
  | rollback worker => exact .finish hw.trades hw.batches

theorem exec_legsRecorded (labels : List KakaLabel) : LegsRecorded (exec step empty labels) :=
  states_inv (fun _ label h => h.step label) ⟨by simp [LegsKept, empty, Table.mem_iff],
    by simp [empty]⟩ (mem_states_iff.mpr ⟨labels, [], (List.append_nil labels).symm, rfl⟩)

end

end KakaWorld

/-- Whatever messages the batches take and however they interleave, fail and crash : every trade of
the ledger averages as many legs as it counts, its entry lies between their prices, its profit before
the rounding is the sum of theirs at every exit, and once closed it was paid that sum, rounded. -/
theorem ledger_pnl (labels : List KakaLabel) :
    ∀ row ∈ (exec KakaWorld.step KakaWorld.empty labels).trades, ∃ prices : List ℚ,
      prices.length = row.trade.legs ∧ (∀ p ∈ prices, 0 < p) ∧
      (∀ low high, (∀ p ∈ prices, low ≤ p ∧ p ≤ high) →
        low ≤ row.trade.entryPrice ∧ row.trade.entryPrice ≤ high) ∧
      (∀ exitPrice, row.trade.exactPnl exitPrice = row.trade.legsPnl prices exitPrice) ∧
      ∀ exitPrice, row.trade.closePrice = some exitPrice →
        row.trade.realizedPnlUsdt = some (quantizeMicro (row.trade.legsPnl prices exitPrice)) := by
  intro row hrow
  obtain ⟨prices, hkeeps⟩ := (KakaWorld.exec_legsRecorded labels).trades row hrow
  refine ⟨prices, hkeeps.legs_eq.symm, hkeeps.prices_pos, fun low high h =>
    hkeeps.entry_between (fun p hp => (h p hp).1) fun p hp => (h p hp).2, hkeeps.exactPnl, ?_⟩
  intro exitPrice hexit
  rw [hkeeps.paid exitPrice hexit, PaperTrade.pnlUsdt_eq, hkeeps.exactPnl]

end FattyTrader
