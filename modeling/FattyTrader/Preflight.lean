import FattyTrader.EntryDispatch
import FattyTrader.LivePolicy

/-!
# The live preflight

The preflight of a dispatch aligns the prices of its source with the market, routes the entry,
sizes it, and builds the submission the dispatcher will send. `EntrySignal` is the dispatch with
what only the preflight reads of it, `ProviderSnapshot` what the venue answers.

The legs that will be sent are built from dispatch and submission elsewhere (`intent`,
`splitRoot`, `splitLimit`). `legs` collects them, and `LegsAgree` says that they are the entry that
was admitted.

The exponent of the price alignment is computed with floating point numbers in the source, it is
a parameter here. Whether a source text asks for a market entry is a field of the signal.
-/

set_option linter.unusedSectionVars false

namespace FattyTrader

/-! ## Inputs -/

inductive MarginModeType
  | percentage
  | fixedUsdt
deriving DecidableEq

/-- The margin cap the live environment is pinned to. -/
def liveMaxMarginPerTradeUsdt : ℚ := 11 / 10

/-- The environment of the preflight, as validated at its start. The margin mode is none where it
is not configured. -/
structure LiveEnvironment where
  maxPositions : ℕ
  marginMode : Option MarginModeType
  fixedMarginUsdt : ℚ
  allocationPct : ℚ
  defaultLeverage : ℕ
  minLeverage : ℕ
  liquidationBuffer : ℚ
  lateThreshold : ℚ
  recentWindow : ℚ
  fixed_le : fixedMarginUsdt ≤ liveMaxMarginPerTradeUsdt

/-- What the venue answers about symbol and account. -/
structure ProviderSnapshot where
  metadata : SymbolMetadata
  currentPrice : ℚ
  available : ℚ
  equity : ℚ
  activePositions : ℕ

/-- A dispatch with the fields only the preflight reads. -/
structure EntrySignal where
  dispatch : BitgetDispatch
  stopLoss : ℚ
  takeProfits : List ℚ
  manualMargin : Option ℚ := none
  manualLeverage : Option ℤ := none
  isManual : Bool := false
  sourceAge : Option ℚ := none
  forceMarket : Bool := false

/-! ## The scale of the source -/

/-- Prices of a source : entry, stop and targets. -/
structure SourcePrices where
  entry : ℚ
  stopLoss : ℚ
  takeProfits : List ℚ
deriving DecidableEq

/-- The stop and the targets are on their sides of the entry. -/
def SourcePrices.ordered (p : SourcePrices) (direction : Direction) : Bool :=
  match direction with
  | .long => decide (p.stopLoss < p.entry) && p.takeProfits.all (p.entry < ·)
  | .short => decide (p.entry < p.stopLoss) && p.takeProfits.all (· < p.entry)

/-- `align_price_scale`. -/
def alignPriceScale (exponent : ℚ → ℤ) (p : SourcePrices) (marketPrice : ℚ)
    (direction : Direction) : SourcePrices :=
  if p.entry ≤ 0 ∨ marketPrice ≤ 0 then p
  else
    let k := exponent (p.entry / marketPrice)
    if k = 0 ∨ 8 < |k| then p
    else
      let scale : ℚ := 10 ^ k
      let scaled : SourcePrices :=
        ⟨p.entry / scale, p.stopLoss / scale, p.takeProfits.map (· / scale)⟩
      if 35 / 100 < |scaled.entry - marketPrice| / marketPrice then p
      else if scaled.ordered direction then scaled else p

/-! ## Routes -/

/-- `_split`. -/
def splitRouteOf (totalQuantity limitPrice : ℚ) : EntryRoute where
  marketQuantity := totalQuantity * (1 / 4)
  limitQuantity := totalQuantity - totalQuantity * (1 / 4)
  limitPrice := some limitPrice

def fullMarket (totalQuantity : ℚ) : EntryRoute := ⟨totalQuantity, 0, none⟩

/-- The market has passed the entry of the signal. -/
def passedEntry (direction : Direction) (signalEntry marketPrice : ℚ) : Prop :=
  match direction with
  | .long => signalEntry < marketPrice
  | .short => marketPrice < signalEntry

instance (direction : Direction) (signalEntry marketPrice : ℚ) :
    Decidable (passedEntry direction signalEntry marketPrice) := by
  unfold passedEntry
  cases direction <;> infer_instance

/-- `route_entry` of a signal with a source time. -/
def routeEntry (env : LiveEnvironment) (direction : Direction)
    (signalEntry marketPrice totalQuantity sourceAge : ℚ) : Except String EntryRoute :=
  if signalEntry ≤ 0 ∨ marketPrice ≤ 0 ∨ totalQuantity ≤ 0 then
    .error "entry, market price, and quantity must be positive"
  else if env.lateThreshold ≤ 0 ∨ 1 ≤ env.lateThreshold then
    .error "late threshold must be between zero and one"
  else if env.recentWindow ≤ 0 then
    .error "recent signal route requires aware source time and positive window"
  else if passedEntry direction signalEntry marketPrice ∧ 0 ≤ sourceAge ∧
      sourceAge ≤ env.recentWindow then .ok (splitRouteOf totalQuantity signalEntry)
  else .ok (fullMarket totalQuantity)

/-- `routed`. -/
def routed (env : LiveEnvironment) (s : EntrySignal) (normalizedEntry marketPrice quantity : ℚ) :
    Except String EntryRoute :=
  if s.dispatch.orderType = .limit then .ok ⟨0, quantity, some normalizedEntry⟩
  else
    match s.sourceAge with
    | none => .ok (fullMarket quantity)
    | some age =>
      if s.forceMarket then .ok (fullMarket quantity)
      else routeEntry env s.dispatch.direction normalizedEntry marketPrice quantity age

/-! ## Protection prices -/

def Direction.sign : Direction → ℚ
  | .long => 1
  | .short => -1

/-- A rounded price, or the error of the rounding. -/
def toTick (price tick : ℚ) : Except String ℚ :=
  match roundPriceToTick price tick with
  | none => .error "price and tick must be positive"
  | some r => .ok r

/-- The rounded prices clear the rounded entry by a tick. -/
def clearsEntry (direction : Direction) (tick stop : ℚ) (targets : List ℚ) (roundedEntry : ℚ) :
    Except String Unit :=
  if (roundedEntry - stop) * direction.sign < tick then
    .error "rounded stop loss must clear entry by at least one tick"
  else if targets.any fun target => (target - roundedEntry) * direction.sign < tick then
    .error "rounded take profits must clear entry by at least one tick"
  else .ok ()

/-- `normalized_protection_prices` : the stop and the targets. -/
def normalizedProtectionPrices (direction : Direction) (entry canonicalEntry stopLoss : ℚ)
    (takeProfits : List ℚ) (tick : ℚ) : Except String (ℚ × List ℚ) :=
  if takeProfits = [] ∨
      (entry :: canonicalEntry :: stopLoss :: tick :: takeProfits).any (· ≤ 0) then
    .error "protection prices must be finite positive with take profits"
  else do
    let roundedEntry ← toTick entry tick
    let roundedCanonical ← toTick canonicalEntry tick
    let stop ← toTick stopLoss tick
    let targets ← takeProfits.mapM (toTick · tick)
    clearsEntry direction tick stop targets roundedEntry
    clearsEntry direction tick stop targets roundedCanonical
    if targets.Nodup then .ok (stop, targets)
    else .error "rounded take profits must remain separated by at least one tick"

/-! ## The preflight -/

/-- What the preflight knows before it sizes. -/
structure EntryPrices where
  normalizedEntry : ℚ
  split : Bool
  sizingPrice : ℚ
  stop : ℚ
  targets : List ℚ
deriving DecidableEq

/-- A sized entry : the plan, the price it was sized at, and the route. -/
structure SizedEntry where
  prices : EntryPrices
  plan : LivePlan
  split : Bool
  sizedAt : ℚ
  route : EntryRoute
deriving DecidableEq

section Preflight

variable (exponent : ℚ → ℤ) (env : LiveEnvironment) (p : ProviderSnapshot) (s : EntrySignal)

def EntrySignal.manual : Bool :=
  s.isManual || s.manualMargin.isSome || s.manualLeverage.isSome

/-- The leverage a signal asks for by default. -/
def desiredLeverage : ℕ := if s.manual then 20 else env.defaultLeverage

/-- The margin budget, and the share of the balance the sizing takes. -/
def allocation : Except String (ℚ × ℚ) :=
  match env.marginMode, s.manual with
  | some .percentage, false =>
    if p.equity ≤ 0 then .error "Bitget account equity must be finite and positive"
    else .ok (min (min (p.equity * env.allocationPct) p.available) liveMaxMarginPerTradeUsdt, 1)
  | some .fixedUsdt, false =>
    .ok (min (min env.fixedMarginUsdt p.available) liveMaxMarginPerTradeUsdt, 1)
  | _, _ => .ok (min (p.available * env.allocationPct) liveMaxMarginPerTradeUsdt, env.allocationPct)

def alignedPrices : SourcePrices :=
  alignPriceScale exponent ⟨s.dispatch.entryPrice, s.stopLoss, s.takeProfits⟩ p.currentPrice
    s.dispatch.direction

/-- The targets of the source, or one derived from the distance of the stop. -/
def canonicalTargets (sizingPrice : ℚ) : Except String (List ℚ) :=
  let aligned := alignedPrices exponent p s
  if aligned.takeProfits ≠ [] then .ok aligned.takeProfits
  else
    let sign := s.dispatch.direction.sign
    match toTick (sizingPrice + sign * |sizingPrice - aligned.stopLoss| * (3 / 2))
        p.metadata.priceTick with
    | .error e => .error e
    | .ok derived =>
      if p.metadata.priceTick ≤ (derived - sizingPrice) * sign ∧ 0 < derived then .ok [derived]
      else .ok []

/-- The price an entry is sized at. -/
def sizingPrice (split : Bool) (normalizedEntry : ℚ) : ℚ :=
  if split then max p.currentPrice normalizedEntry
  else if s.dispatch.orderType = .limit then normalizedEntry else p.currentPrice

/-- The part of the preflight before the sizing. -/
def entryPrices : Except String EntryPrices :=
  let aligned := alignedPrices exponent p s
  match toTick aligned.entry p.metadata.priceTick with
  | .error e => .error e
  | .ok normalizedEntry =>
    match routed env s normalizedEntry p.currentPrice 4 with
    | .error e => .error e
    | .ok route =>
      let split := decide (0 < route.marketQuantity) && decide (0 < route.limitQuantity)
      let price := sizingPrice p s split normalizedEntry
      match canonicalTargets exponent p s price with
      | .error e => .error e
      | .ok targets =>
        match normalizedProtectionPrices s.dispatch.direction price aligned.entry aligned.stopLoss
            targets p.metadata.priceTick with
        | .error e => .error e
        | .ok (stop, targets) => .ok ⟨normalizedEntry, split, price, stop, targets⟩

/-- The margin and the leverage of a manual entry are within the bounds. -/
def manualBounds : Except String Unit :=
  if s.manualMargin.any fun m => m ≤ 0 || liveMaxMarginPerTradeUsdt < m then
    .error "manual margin must remain within the pinned LIVE cap"
  else if s.manualLeverage.any fun l => l < 5 || 20 < l || (p.metadata.maxLeverage : ℤ) < l then
    .error "manual leverage must remain within canonical LIVE and venue bounds"
  else .ok ()

/-- The leverage that was asked for, or another one. -/
def EntrySignal.leverageOr (default : ℕ) : ℕ :=
  match s.manualLeverage with
  | some l => l.toNat
  | none => default

/-- The risk configuration of the preflight. -/
def riskConfig (budget sizingPct : ℚ) : Except String BitgetLiveRiskConfig :=
  let minLeverage := s.leverageOr (min env.minLeverage (desiredLeverage env s))
  let cap := s.manualMargin.getD budget
  if h : (5 ≤ minLeverage ∧ minLeverage ≤ 20) ∧ 0 < sizingPct ∧
      (0 < env.liquidationBuffer ∧ env.liquidationBuffer ≤ 1) ∧ 0 < cap then
    .ok
      { minLeverage
        maxLeverage := 20
        allocationPct := sizingPct
        maxNormalPositions := env.maxPositions
        floors := { buffer := env.liquidationBuffer }
        maxMarginPerTradeUsdt := some cap
        five_le := h.1.1
        min_le_max := h.1.2
        max_eq := BitgetLiveRiskConfig.pinned_max
        allocation_pos := h.2.1
        buffer_pos := h.2.2.1.1
        buffer_le := h.2.2.1.2
        cap_pos := fun _ hc => Option.mem_some.mp hc ▸ h.2.2.2 }
  else .error "risk configuration is invalid"

/-- The sizing request, at one price. -/
def sizingInput (risk : BitgetLiveRiskConfig) (prices : EntryPrices) (entry : ℚ) (split : Bool) :
    LiveSizingInput where
  metadata := p.metadata
  risk := risk
  availableUsdt := p.available
  desiredLeverage := s.leverageOr (desiredLeverage env s)
  entry := entry
  direction := s.dispatch.direction
  activePositions := p.activePositions
  stopLoss := some prices.stop
  split := if split then some (p.currentPrice, prices.normalizedEntry) else none

/-- The plan at the sizing price. A split that cannot be sized is tried as a single entry at the
price of its source. -/
def sizedPlan (risk : BitgetLiveRiskConfig) (prices : EntryPrices) :
    Except String (LivePlan × Bool × ℚ) :=
  match (sizingInput env p s risk prices prices.sizingPrice prices.split).planLivePosition with
  | .error e => .error e
  | .ok (.accepted plan _ _ _) => .ok (plan, prices.split, prices.sizingPrice)
  | .ok (.skipped _ _) =>
    if prices.split then
      match (sizingInput env p s risk prices prices.normalizedEntry false).planLivePosition with
      | .error e => .error e
      | .ok (.accepted plan _ _ _) => .ok (plan, false, prices.normalizedEntry)
      | .ok (.skipped _ _) => .error "Bitget live sizing rejected"
    else .error "Bitget live sizing rejected"

/-- The check of one leg of the route. -/
def legChecked (md : SymbolMetadata) (quantity price : ℚ) (maximum : Option ℚ) :
    Except String Unit :=
  if quantity = 0 then .ok ()
  else if (⌊quantity / md.sizeStep⌋ : ℚ) * md.sizeStep ≠ quantity then
    .error "Bitget split rejected: exact 25/75 is not quantity-step aligned"
  else if quantity < md.minOrderQty then
    .error "Bitget split rejected: child quantity below venue minimum"
  else if quantity * price * md.contractValue < md.minNotional then
    .error "Bitget split rejected: child notional below venue minimum"
  else if maximum.any (· < quantity) then
    .error "Bitget split rejected: child quantity above venue maximum"
  else .ok ()

/-- The route of the sized entry, checked leg by leg when it has a limit leg. -/
def checkedRoute (prices : EntryPrices) (plan : LivePlan) (split : Bool) :
    Except String EntryRoute :=
  match if split then routed env s prices.normalizedEntry p.currentPrice plan.quantity
      else .ok (fullMarket plan.quantity) with
  | .error e => .error e
  | .ok route =>
    if 0 < route.limitQuantity then
      match legChecked p.metadata route.marketQuantity p.currentPrice
          p.metadata.maxMarketOrderQty with
      | .error e => .error e
      | .ok () =>
        match legChecked p.metadata route.limitQuantity prices.normalizedEntry
            p.metadata.maxOrderQty with
        | .error e => .error e
        | .ok () => .ok route
    else .ok route

/-- The entry a sized plan is. -/
def sizedEntry (prices : EntryPrices) (risk : BitgetLiveRiskConfig) : Except String SizedEntry :=
  match sizedPlan env p s risk prices with
  | .error e => .error e
  | .ok (plan, split, sizedAt) =>
    match checkedRoute env p s prices plan split with
    | .error e => .error e
    | .ok route => .ok ⟨prices, plan, split, sizedAt, route⟩

/-- The preflight up to the reservation. -/
def sizePreflight : Except String SizedEntry :=
  if p.available ≤ 0 then .error "Bitget available USDT margin is zero"
  else
    match allocation env p s with
    | .error e => .error e
    | .ok (budget, sizingPct) =>
      match entryPrices exponent env p s with
      | .error e => .error e
      | .ok prices =>
        match manualBounds p s with
        | .error e => .error e
        | .ok () =>
          match riskConfig env s budget sizingPct with
          | .error e => .error e
          | .ok risk => sizedEntry env p s prices risk

/-- The submission of a sized entry, under the snapshot and the reservation it was admitted
with. -/
def SizedEntry.submission (z : SizedEntry) (snapshotId reservationId : Uuid) :
    Except String BitgetEntrySubmission :=
  if h : (0 < z.plan.quantity ∧ 0 < z.plan.margin ∧ 0 < z.plan.notional) ∧ 1 ≤ z.plan.leverage ∧
      0 < z.prices.stop ∧ z.prices.targets ≠ [] ∧ ∀ t ∈ z.prices.targets, 0 < t then
    .ok
      { quantity := z.plan.quantity
        effectiveLeverage := z.plan.leverage
        plannedMarginUsdt := z.plan.margin
        plannedNotionalUsdt := z.plan.notional
        balanceSnapshotId := snapshotId
        marginReservationId := reservationId
        plannedStopLoss := z.prices.stop
        plannedTakeProfits := z.prices.targets
        entryRoute := some z.route
        quantity_pos := h.1.1
        margin_pos := h.1.2.1
        notional_pos := h.1.2.2
        leverage_pos := h.2.1
        stopLoss_pos := h.2.2.1
        takeProfits_ne := h.2.2.2.1
        takeProfits_pos := h.2.2.2.2 }
  else .error "submission is invalid"

end Preflight

/-! ## The legs -/

/-- The orders that will be sent for a dispatch. -/
def legs (x : BitgetDispatchExecution) (d : BitgetDispatch) (sub : BitgetEntrySubmission) :
    List EntryOrder :=
  match sub.splitRoute with
  | some route => [BitgetDispatchExecution.entryOrder (x.splitRoot d sub route),
      BitgetDispatchExecution.entryOrder (x.splitLimit d sub route)]
  | none => [BitgetDispatchExecution.entryOrder (x.intent d sub)]

/-- The price a leg is expected to execute at : the observed one for a market order. -/
def EntryOrder.valuedAt (o : EntryOrder) (marketPrice : ℚ) : ℚ :=
  match o.orderType with
  | .market => marketPrice
  | .limit => o.price.getD 0

def SymbolMetadata.maximum (md : SymbolMetadata) : OrderType → Option ℚ
  | .market => md.maxMarketOrderQty
  | .limit => md.maxOrderQty

/-- A quantity the venue takes for an order type. -/
structure LegQuantity (md : SymbolMetadata) (orderType : OrderType) (quantity : ℚ) : Prop where
  multiple : ∃ k : ℕ, 0 < k ∧ quantity = k * md.sizeStep
  min_le : md.minOrderQty ≤ quantity
  le_max : ∀ maximum ∈ md.maximum orderType, quantity ≤ maximum

/-- The orders that will be sent are the entry that was admitted. -/
structure LegsAgree (md : SymbolMetadata) (marketPrice normalizedEntry : ℚ)
    (orders : List EntryOrder) (sub : BitgetEntrySubmission) : Prop where
  total : (orders.map (·.quantity)).sum = sub.quantity
  quantity : ∀ o ∈ orders, LegQuantity md o.orderType o.quantity
  limitPrice : ∀ o ∈ orders, o.orderType = .limit → o.price = some normalizedEntry
  margin : (orders.map fun o => o.quantity * o.valuedAt marketPrice).sum * md.contractValue /
    sub.effectiveLeverage ≤ sub.plannedMarginUsdt
  cap : sub.plannedMarginUsdt ≤ liveMaxMarginPerTradeUsdt

/-- What the preflight does not see to : that the tick-rounded price an entry was sized at is no
less than what its legs are expected to pay, and that a limit entry is sent at its rounded price
with a quantity the venue takes for a limit order. -/
def SizedEntry.Coherent (z : SizedEntry) (p : ProviderSnapshot) (s : EntrySignal) : Prop :=
  ∀ r ∈ roundPriceToTick z.sizedAt p.metadata.priceTick,
    if z.split then p.currentPrice + 3 * z.prices.normalizedEntry ≤ 4 * r
    else if s.dispatch.orderType = .limit then
      s.dispatch.entryPrice = z.prices.normalizedEntry ∧
        ∀ maximum ∈ p.metadata.maxOrderQty, z.plan.quantity ≤ maximum
    else p.currentPrice ≤ r

end FattyTrader
