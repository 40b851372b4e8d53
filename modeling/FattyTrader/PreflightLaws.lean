import FattyTrader.Preflight

/-!
# What the preflight admits

A submission the preflight admits carries a plan that is legal at the price it was sized at, and a
split only where the market has just passed the entry of a source (`sizePreflight_ok`,
`split_of_routed`).

`legs_agree_iff` says when the orders that will be sent are the entry that was admitted. Three
branches go their own way : an entry is valued at a tick-rounded price and pays the observed one,
a split that cannot be sized is sized at the price of its source and sent to the market, and a
limit entry is sent at the price of its source, bounded as a market order.
-/

set_option linter.unusedSectionVars false

namespace FattyTrader

section Spec

variable {exponent : ℚ → ℤ} {env : LiveEnvironment} {p : ProviderSnapshot} {s : EntrySignal}
  {z : SizedEntry} {risk : BitgetLiveRiskConfig} {prices : EntryPrices} {plan : LivePlan}
  {split : Bool} {sizedAt n m q : ℚ} {route : EntryRoute}

theorem toTick_ok {price tick r : ℚ} (h : toTick price tick = .ok r) :
    roundPriceToTick price tick = some r := by
  unfold toTick at h
  split at h
  · cases h
  next hr =>
    obtain rfl := Except.ok.inj h
    exact hr

/-- A route with two legs is the split of a market entry whose source price the market passed, and
is the split at every quantity. -/
theorem split_of_routed (h : routed env s n m q = .ok route) (hmarket : 0 < route.marketQuantity)
    (hlimit : 0 < route.limitQuantity) :
    s.dispatch.orderType ≠ .limit ∧ passedEntry s.dispatch.direction n m ∧ 0 < n ∧ 0 < m ∧
      ∀ q', 0 < q' → routed env s n m q' = .ok (splitRouteOf q' n) := by
  unfold routed at h
  split at h
  · obtain rfl := Except.ok.inj h
    exact absurd hmarket (lt_irrefl _)
  next htype =>
    split at h
    · obtain rfl := Except.ok.inj h
      exact absurd hlimit (lt_irrefl _)
    next age hage =>
      split at h
      · obtain rfl := Except.ok.inj h
        exact absurd hlimit (lt_irrefl _)
      next hforce =>
        unfold routeEntry at h
        split at h
        · cases h
        next hpos =>
          split at h
          · cases h
          next hlate =>
            split at h
            · cases h
            next hwindow =>
              split at h
              next hpassed =>
                simp only [not_or, not_le] at hpos
                refine ⟨htype, hpassed.1, hpos.1, hpos.2.1, fun q' hq' => ?_⟩
                have hpos' : ¬ (n ≤ 0 ∨ m ≤ 0 ∨ q' ≤ 0) := by
                  simp only [not_or, not_le]
                  exact ⟨hpos.1, hpos.2.1, hq'⟩
                simp only [routed, routeEntry, htype, hage, hforce, hpos', hlate, hwindow, hpassed,
                  if_true, if_false, and_self, Bool.false_eq_true]
              · obtain rfl := Except.ok.inj h
                exact absurd hlimit (lt_irrefl _)

/-- What the preflight knows before it sizes. -/
theorem entryPrices_ok (h : entryPrices exponent env p s = .ok prices) :
    (∃ e, roundPriceToTick e p.metadata.priceTick = some prices.normalizedEntry) ∧
      (∃ route, routed env s prices.normalizedEntry p.currentPrice 4 = .ok route ∧
        prices.split = (decide (0 < route.marketQuantity) && decide (0 < route.limitQuantity))) ∧
      prices.sizingPrice = sizingPrice p s prices.split prices.normalizedEntry ∧
      ∃ canonical stopLoss targets, normalizedProtectionPrices s.dispatch.direction
        prices.sizingPrice canonical stopLoss targets p.metadata.priceTick =
          .ok (prices.stop, prices.targets) ∧
        roundPriceToTick canonical p.metadata.priceTick = some prices.normalizedEntry := by
  unfold entryPrices at h
  dsimp only at h
  split at h
  · cases h
  next hnormal =>
    split at h
    · cases h
    next route hroute =>
      split at h
      · cases h
      split at h
      · cases h
      next hprotection =>
        obtain rfl := Except.ok.inj h
        exact ⟨⟨_, toTick_ok hnormal⟩, ⟨route, hroute, rfl⟩, rfl, _, _, _, hprotection,
          toTick_ok hnormal⟩

/-- The plan is the one of the sizing price, or the one of a single entry at the price of the
source. -/
theorem sizedPlan_ok (h : sizedPlan env p s risk prices = .ok (plan, split, sizedAt)) :
    (∃ r stop fallbackUsed, (sizingInput env p s risk prices sizedAt split).planLivePosition =
      .ok (.accepted plan r stop fallbackUsed)) ∧
    ((split = prices.split ∧ sizedAt = prices.sizingPrice) ∨
      (prices.split = true ∧ split = false ∧ sizedAt = prices.normalizedEntry)) := by
  unfold sizedPlan at h
  split at h
  · cases h
  next hplan =>
    obtain ⟨rfl, hsplit⟩ := Prod.mk.inj (Except.ok.inj h)
    obtain ⟨rfl, rfl⟩ := Prod.mk.inj hsplit
    exact ⟨⟨_, _, _, hplan⟩, Or.inl ⟨rfl, rfl⟩⟩
  · split at h
    next hsplit =>
      split at h
      · cases h
      next hplan =>
        obtain ⟨rfl, hsingle⟩ := Prod.mk.inj (Except.ok.inj h)
        obtain ⟨rfl, rfl⟩ := Prod.mk.inj hsingle
        exact ⟨⟨_, _, _, hplan⟩, Or.inr ⟨hsplit, rfl, rfl⟩⟩
      · cases h
    · cases h

theorem manualBounds_ok (h : manualBounds p s = .ok ()) :
    ∀ margin ∈ s.manualMargin, margin ≤ liveMaxMarginPerTradeUsdt := by
  intro margin hmargin
  unfold manualBounds at h
  split at h
  · cases h
  next hno =>
    rw [Option.mem_def.mp hmargin] at hno
    simp only [Option.any_some, Bool.or_eq_true, decide_eq_true_eq, not_or, not_lt] at hno
    exact hno.2

theorem allocation_ok {budget sizingPct : ℚ} (h : allocation env p s = .ok (budget, sizingPct)) :
    budget ≤ liveMaxMarginPerTradeUsdt := by
  unfold allocation at h
  split at h
  · split at h
    · cases h
    · obtain ⟨rfl, -⟩ := Prod.mk.inj (Except.ok.inj h)
      exact min_le_right _ _
  · obtain ⟨rfl, -⟩ := Prod.mk.inj (Except.ok.inj h)
    exact min_le_right _ _
  · obtain ⟨rfl, -⟩ := Prod.mk.inj (Except.ok.inj h)
    exact min_le_right _ _

theorem riskConfig_ok {budget sizingPct : ℚ} (h : riskConfig env s budget sizingPct = .ok risk) :
    risk.maxMarginPerTradeUsdt = some (s.manualMargin.getD budget) ∧
      risk.floors = { buffer := env.liquidationBuffer } := by
  unfold riskConfig at h
  dsimp only at h
  split at h
  · obtain rfl := Except.ok.inj h
    exact ⟨rfl, rfl⟩
  · cases h

/-- What a sized entry went through. -/
theorem sizePreflight_ok (h : sizePreflight exponent env p s = .ok z) :
    ∃ risk cap, risk.maxMarginPerTradeUsdt = some cap ∧ cap ≤ liveMaxMarginPerTradeUsdt ∧
      risk.floors = { buffer := env.liquidationBuffer } ∧
      entryPrices exponent env p s = .ok z.prices ∧
      sizedPlan env p s risk z.prices = .ok (z.plan, z.split, z.sizedAt) ∧
      checkedRoute env p s z.prices z.plan z.split = .ok z.route := by
  unfold sizePreflight at h
  split at h
  · cases h
  split at h
  · cases h
  next budget sizingPct halloc =>
    split at h
    · cases h
    next prices hprices =>
      split at h
      · cases h
      next hmanual =>
        split at h
        · cases h
        next risk hrisk =>
          unfold sizedEntry at h
          split at h
          · cases h
          next hplan =>
            split at h
            · cases h
            next hroute =>
              obtain rfl := Except.ok.inj h
              obtain ⟨hcap, hfloors⟩ := riskConfig_ok hrisk
              refine ⟨risk, _, hcap, ?_, hfloors, hprices, hplan, hroute⟩
              cases hm : s.manualMargin with
              | none => exact allocation_ok halloc
              | some margin => exact manualBounds_ok hmanual margin hm

theorem legChecked_ok {md : SymbolMetadata} {quantity price : ℚ} {maximum : Option ℚ}
    (h : legChecked md quantity price maximum = .ok ()) (hq : 0 < quantity) :
    (∃ k : ℕ, 0 < k ∧ quantity = k * md.sizeStep) ∧ md.minOrderQty ≤ quantity ∧
      ∀ x ∈ maximum, quantity ≤ x := by
  unfold legChecked at h
  rw [if_neg hq.ne'] at h
  split at h
  · cases h
  next hstep =>
    split at h
    · cases h
    next hmin =>
      split at h
      · cases h
      split at h
      · cases h
      next hmax =>
        rw [not_not] at hstep
        have hfloor : 0 < ⌊quantity / md.sizeStep⌋ := by
          have hmul : 0 < (⌊quantity / md.sizeStep⌋ : ℚ) * md.sizeStep := by rwa [hstep]
          exact_mod_cast (pos_iff_pos_of_mul_pos hmul).mpr md.sizeStep_pos
        refine ⟨⟨⌊quantity / md.sizeStep⌋.toNat, by omega, ?_⟩, not_lt.mp hmin, fun x hx => ?_⟩
        · have hcast : ((⌊quantity / md.sizeStep⌋.toNat : ℤ) : ℚ) = ⌊quantity / md.sizeStep⌋ := by
            rw [Int.toNat_of_nonneg hfloor.le]
          calc quantity = (⌊quantity / md.sizeStep⌋ : ℚ) * md.sizeStep := hstep.symm
            _ = (⌊quantity / md.sizeStep⌋.toNat : ℚ) * md.sizeStep := by rw [← hcast]; norm_cast
        · rw [Option.mem_def.mp hx] at hmax
          simpa using hmax

end Spec

/-! ## The legs of an admitted entry -/

section Legs

variable {exponent : ℚ → ℤ} {env : LiveEnvironment} {p : ProviderSnapshot} {s : EntrySignal}
  {z : SizedEntry} {x : BitgetDispatchExecution} {sub : BitgetEntrySubmission}
  {snapshotId reservationId : Uuid}

/-- What a sized entry is : its plan is legal at the tick-rounded price it was sized at. -/
structure SizedEntry.Legal (z : SizedEntry) (p : ProviderSnapshot) (r : ℚ) : Prop where
  rounded : roundPriceToTick z.sizedAt p.metadata.priceTick = some r
  rounded_pos : 0 < r
  five_le : 5 ≤ z.plan.leverage
  quantity_pos : 0 < z.plan.quantity
  min_le : p.metadata.minOrderQty ≤ z.plan.quantity
  multiple : z.split = false → ∃ k : ℕ, 0 < k ∧ z.plan.quantity = k * p.metadata.sizeStep
  market_le : z.split = false → ∀ maximum ∈ p.metadata.maxMarketOrderQty, z.plan.quantity ≤ maximum
  margin_eq : z.plan.margin = z.plan.quantity * r * p.metadata.contractValue / z.plan.leverage
  margin_le : z.plan.margin ≤ liveMaxMarginPerTradeUsdt

theorem sized_legal (h : sizePreflight exponent env p s = .ok z) : ∃ r, z.Legal p r := by
  obtain ⟨risk, cap, hcap, hle, -, -, hplan, -⟩ := sizePreflight_ok h
  obtain ⟨⟨r, stop, fallbackUsed, hdecision⟩, -⟩ := sizedPlan_ok hplan
  obtain ⟨hround, -, hfive, hlegal⟩ := legal_of_accepted hdecision
  refine ⟨r, hround, (roundPriceToTick_some hround).2.1, hfive, hlegal.quantity_pos,
    hlegal.min_le, fun hsplit => ?_, fun hsplit => hlegal.market_le (by
      simp [LiveSizingInput.planRequest, sizingInput, hsplit]), ?_, ?_⟩
  · obtain ⟨k, hk⟩ := hlegal.multiple
    have hstep : PlanRequest.quantityStep ((sizingInput env p s risk z.prices z.sizedAt
        z.split).planRequest r stop) = p.metadata.sizeStep := by
      simp [PlanRequest.quantityStep, LiveSizingInput.planRequest, sizingInput, hsplit]
    rw [hstep] at hk
    refine ⟨k, ?_, hk⟩
    have hpos := hlegal.quantity_pos
    by_contra hzero
    obtain rfl : k = 0 := by omega
    rw [hk] at hpos
    simp at hpos
  · exact hlegal.margin_eq.trans (by rw [mul_assoc]; rfl)
  · exact (hlegal.margin_le cap (Option.mem_def.mpr hcap)).trans hle

/-- The legs of a split are a quarter and three quarters of the quantity, legal each for its own
order type, and its limit leg stands at the rounded price of the source. -/
structure SizedEntry.SplitLegs (z : SizedEntry) (p : ProviderSnapshot) (s : EntrySignal) : Prop where
  route : z.route = splitRouteOf z.plan.quantity z.prices.normalizedEntry
  orderType : s.dispatch.orderType = .market
  passed : passedEntry s.dispatch.direction z.prices.normalizedEntry p.currentPrice
  entry_pos : 0 < z.prices.normalizedEntry
  market_pos : 0 < p.currentPrice
  sizedAt : z.sizedAt = max p.currentPrice z.prices.normalizedEntry
  market : LegQuantity p.metadata .market (z.plan.quantity / 4)
  limit : LegQuantity p.metadata .limit (z.plan.quantity * 3 / 4)

theorem split_legs (h : sizePreflight exponent env p s = .ok z) (hsplit : z.split = true) :
    z.SplitLegs p s := by
  obtain ⟨r, hlegal⟩ := sized_legal h
  obtain ⟨risk, cap, -, -, -, hprices, hplan, hroute⟩ := sizePreflight_ok h
  obtain ⟨-, ⟨hsame, hat⟩ | ⟨-, hsingle, -⟩⟩ := sizedPlan_ok hplan
  swap
  · rw [hsplit] at hsingle
    cases hsingle
  obtain ⟨-, ⟨route, hrouted, hlegs⟩, hsizing, -⟩ := entryPrices_ok hprices
  rw [← hsame, hsplit, eq_comm, Bool.and_eq_true, decide_eq_true_eq, decide_eq_true_eq] at hlegs
  obtain ⟨htype, hpassed, hentry, hmarket, hrouted'⟩ := split_of_routed hrouted hlegs.1 hlegs.2
  have hq := hlegal.quantity_pos
  have htype' : s.dispatch.orderType = .market := by
    cases ht : s.dispatch.orderType with
    | market => rfl
    | limit => exact absurd ht htype
  unfold checkedRoute at hroute
  rw [hsplit, if_pos rfl, hrouted' _ hq] at hroute
  dsimp only at hroute
  have hlimitQuantity : (splitRouteOf z.plan.quantity z.prices.normalizedEntry).limitQuantity =
      z.plan.quantity * 3 / 4 := by
    simp only [splitRouteOf]
    ring
  have hmarketQuantity : (splitRouteOf z.plan.quantity z.prices.normalizedEntry).marketQuantity =
      z.plan.quantity / 4 := by
    simp only [splitRouteOf]
    ring
  rw [hlimitQuantity, hmarketQuantity, if_pos (by positivity)] at hroute
  split at hroute
  · cases hroute
  next hmarketLeg =>
    split at hroute
    · cases hroute
    next hlimitLeg =>
      obtain ⟨hk, hmin, hmax⟩ := legChecked_ok hmarketLeg (by positivity)
      obtain ⟨hk', hmin', hmax'⟩ := legChecked_ok hlimitLeg (by positivity)
      refine ⟨(Except.ok.inj hroute).symm, htype', hpassed, hentry, hmarket, ?_,
        ⟨hk, hmin, hmax⟩, ⟨hk', hmin', hmax'⟩⟩
      rw [hat, hsizing, ← hsame, hsplit]
      rfl

/-- A single entry goes out as a market order of its whole quantity. -/
theorem single_route (h : sizePreflight exponent env p s = .ok z) (hsplit : z.split = false) :
    z.route = fullMarket z.plan.quantity := by
  obtain ⟨risk, cap, -, -, -, -, -, hroute⟩ := sizePreflight_ok h
  unfold checkedRoute at hroute
  rw [hsplit] at hroute
  simp only [Bool.false_eq_true, if_false] at hroute
  have hzero : ¬ 0 < (fullMarket z.plan.quantity).limitQuantity := lt_irrefl _
  rw [if_neg hzero] at hroute
  exact (Except.ok.inj hroute).symm

theorem submission_ok (h : z.submission snapshotId reservationId = .ok sub) :
    sub.quantity = z.plan.quantity ∧ sub.effectiveLeverage = z.plan.leverage ∧
      sub.plannedMarginUsdt = z.plan.margin ∧ sub.entryRoute = some z.route := by
  unfold SizedEntry.submission at h
  split at h
  · obtain rfl := Except.ok.inj h
    exact ⟨rfl, rfl, rfl, rfl⟩
  · cases h

/-- A cost is within the margin of its plan exactly when it is within the planned notional. -/
theorem cost_le_margin {r cost : ℚ} (hlegal : z.Legal p r) :
    cost * p.metadata.contractValue / z.plan.leverage ≤ z.plan.margin ↔
      cost ≤ z.plan.quantity * r := by
  have hL : (0 : ℚ) < z.plan.leverage := by
    have := hlegal.five_le
    exact_mod_cast (by omega : 0 < z.plan.leverage)
  rw [hlegal.margin_eq, div_le_div_iff_of_pos_right hL,
    mul_le_mul_iff_of_pos_right p.metadata.contractValue_pos]

theorem legs_of_split (hsub : z.submission snapshotId reservationId = .ok sub)
    (hlegs : z.SplitLegs p s) :
    legs x s.dispatch sub =
      [BitgetDispatchExecution.entryOrder (x.splitRoot s.dispatch sub z.route),
        BitgetDispatchExecution.entryOrder (x.splitLimit s.dispatch sub z.route)] := by
  obtain ⟨-, -, -, hroute⟩ := submission_ok hsub
  have hq : 0 < z.plan.quantity := by
    have := p.metadata.minOrderQty_pos.trans_le hlegs.market.min_le
    linarith
  have hsome : sub.splitRoute = some z.route := by
    unfold BitgetEntrySubmission.splitRoute
    rw [hroute, Option.filter_some, if_pos]
    rw [hlegs.route, Bool.and_eq_true]
    constructor <;> rw [decide_eq_true_eq] <;> simp only [splitRouteOf] <;> linarith
  unfold legs
  rw [hsome]

theorem legs_of_single (hsub : z.submission snapshotId reservationId = .ok sub)
    (hroute : z.route = fullMarket z.plan.quantity) :
    legs x s.dispatch sub = [BitgetDispatchExecution.entryOrder (x.intent s.dispatch sub)] := by
  obtain ⟨-, -, -, hsome⟩ := submission_ok hsub
  have hnone : sub.splitRoute = none := by
    unfold BitgetEntrySubmission.splitRoute
    rw [hsome, hroute]
    simp [fullMarket]
  unfold legs
  rw [hnone]

/-- The two orders of a split agree with it exactly when their mean price is covered. -/
theorem split_agrees_iff (hz : sizePreflight exponent env p s = .ok z)
    (hsub : z.submission snapshotId reservationId = .ok sub) (hsplit : z.split = true) {r : ℚ}
    (hlegal : z.Legal p r) :
    LegsAgree p.metadata p.currentPrice z.prices.normalizedEntry (legs x s.dispatch sub) sub ↔
      p.currentPrice + 3 * z.prices.normalizedEntry ≤ 4 * r := by
  have hlegs := split_legs hz hsplit
  obtain ⟨hquantity, hleverage, hmargin, -⟩ := submission_ok hsub
  rw [legs_of_split hsub hlegs]
  set root := BitgetDispatchExecution.entryOrder (x.splitRoot s.dispatch sub z.route) with hroot
  set limit := BitgetDispatchExecution.entryOrder (x.splitLimit s.dispatch sub z.route) with hlimit
  have hrootType : root.orderType = .market := hlegs.orderType
  have hlimitType : limit.orderType = .limit := rfl
  have hrootQty : root.quantity = z.plan.quantity / 4 := by
    change z.route.marketQuantity = _
    rw [hlegs.route]
    simp only [splitRouteOf]
    ring
  have hlimitQty : limit.quantity = z.plan.quantity * 3 / 4 := by
    change z.route.limitQuantity = _
    rw [hlegs.route]
    simp only [splitRouteOf]
    ring
  have hlimitPrice : limit.price = some z.prices.normalizedEntry := by
    change z.route.limitPrice = _
    rw [hlegs.route]
    rfl
  have hcost : ([root, limit].map fun o => o.quantity * o.valuedAt p.currentPrice).sum =
      z.plan.quantity * ((p.currentPrice + 3 * z.prices.normalizedEntry) / 4) := by
    simp only [List.map_cons, List.map_nil, List.sum_cons, List.sum_nil, EntryOrder.valuedAt,
      hrootType, hlimitType, hrootQty, hlimitQty, hlimitPrice, Option.getD_some]
    ring
  have hiff : z.plan.quantity * ((p.currentPrice + 3 * z.prices.normalizedEntry) / 4) ≤
      z.plan.quantity * r ↔ p.currentPrice + 3 * z.prices.normalizedEntry ≤ 4 * r := by
    rw [mul_le_mul_iff_of_pos_left hlegal.quantity_pos, div_le_iff₀ (by norm_num), mul_comm r]
  constructor
  · intro hagree
    have := hagree.margin
    rw [hcost, hmargin, hleverage, cost_le_margin hlegal] at this
    exact hiff.mp this
  · intro hle
    refine ⟨?_, ?_, ?_, ?_, ?_⟩
    · simp only [List.map_cons, List.map_nil, List.sum_cons, List.sum_nil, hrootQty, hlimitQty,
        hquantity]
      ring
    · rintro o ho
      rcases List.mem_pair.mp ho with rfl | rfl
      · rw [hrootType, hrootQty]
        exact hlegs.market
      · rw [hlimitType, hlimitQty]
        exact hlegs.limit
    · rintro o ho htype
      rcases List.mem_pair.mp ho with rfl | rfl
      · rw [hrootType] at htype
        cases htype
      · exact hlimitPrice
    · rw [hcost, hmargin, hleverage, cost_le_margin hlegal]
      exact hiff.mpr hle
    · rw [hmargin]
      exact hlegal.margin_le

/-- The order of a single entry agrees with it exactly when its price is covered, and a limit order
stands at the rounded price, within the maximum of limit orders. -/
theorem single_agrees_iff (hz : sizePreflight exponent env p s = .ok z)
    (hsub : z.submission snapshotId reservationId = .ok sub) (hsplit : z.split = false) {r : ℚ}
    (hlegal : z.Legal p r) :
    LegsAgree p.metadata p.currentPrice z.prices.normalizedEntry (legs x s.dispatch sub) sub ↔
      if s.dispatch.orderType = .limit then
        s.dispatch.entryPrice = z.prices.normalizedEntry ∧
          ∀ maximum ∈ p.metadata.maxOrderQty, z.plan.quantity ≤ maximum
      else p.currentPrice ≤ r := by
  obtain ⟨hquantity, hleverage, hmargin, -⟩ := submission_ok hsub
  rw [legs_of_single hsub (single_route hz hsplit)]
  set order := BitgetDispatchExecution.entryOrder (x.intent s.dispatch sub) with horder
  have hqty : order.quantity = z.plan.quantity := hquantity
  have htype : order.orderType = s.dispatch.orderType := rfl
  have htotal : ([order].map (·.quantity)).sum = sub.quantity := by
    simp only [List.map_cons, List.map_nil, List.sum_cons, List.sum_nil, add_zero]
    rw [hqty, hquantity]
  have hcost : ([order].map fun o => o.quantity * o.valuedAt p.currentPrice).sum =
      z.plan.quantity * order.valuedAt p.currentPrice := by
    simp [hqty]
  have hcovers : ([order].map fun o => o.quantity * o.valuedAt p.currentPrice).sum *
      p.metadata.contractValue / sub.effectiveLeverage ≤ sub.plannedMarginUsdt ↔
        order.valuedAt p.currentPrice ≤ r := by
    rw [hcost, hmargin, hleverage, cost_le_margin hlegal,
      mul_le_mul_iff_of_pos_left hlegal.quantity_pos]
  have hcap : sub.plannedMarginUsdt ≤ liveMaxMarginPerTradeUsdt := by
    rw [hmargin]
    exact hlegal.margin_le
  have hlegQuantity : LegQuantity p.metadata s.dispatch.orderType z.plan.quantity ↔
      ∀ maximum ∈ p.metadata.maximum s.dispatch.orderType, z.plan.quantity ≤ maximum :=
    ⟨fun h => h.le_max, fun h => ⟨hlegal.multiple hsplit, hlegal.min_le, h⟩⟩
  cases ht : s.dispatch.orderType with
  | limit =>
    rw [ht] at htype
    have hprice : order.price = some s.dispatch.entryPrice := by
      simp [horder, BitgetDispatchExecution.entryOrder, BitgetDispatchExecution.intent, ht]
    have hvalued : order.valuedAt p.currentPrice = s.dispatch.entryPrice := by
      simp [EntryOrder.valuedAt, htype, hprice]
    rw [if_pos rfl]
    rw [ht] at hlegQuantity
    constructor
    · intro hagree
      refine ⟨?_, fun maximum hmax => ?_⟩
      · have := hagree.limitPrice order List.mem_cons_self htype
        exact Option.some.inj (hprice.symm.trans this)
      · have := hagree.quantity order List.mem_cons_self
        rw [htype, hqty] at this
        exact this.le_max maximum hmax
    · rintro ⟨hentry, hmax⟩
      refine ⟨htotal, fun o ho => ?_, fun o ho _ => ?_, hcovers.mpr ?_, hcap⟩
      · obtain rfl := List.mem_singleton.mp ho
        rw [htype, hqty]
        exact hlegQuantity.mpr hmax
      · obtain rfl := List.mem_singleton.mp ho
        rw [hprice, hentry]
      · -- a limit entry is sized at its rounded price
        obtain ⟨risk, cap, -, -, -, hprices, hplan, -⟩ := sizePreflight_ok hz
        obtain ⟨⟨e, he⟩, -, hsizing, -⟩ := entryPrices_ok hprices
        have hat : z.sizedAt = z.prices.normalizedEntry := by
          rcases (sizedPlan_ok hplan).2 with ⟨hsame, hat⟩ | ⟨-, -, hat⟩
          · rw [hat, hsizing, ← hsame, hsplit]
            simp [sizingPrice, ht]
          · exact hat
        have hself := roundPriceToTick_self he
        rw [← hat, hlegal.rounded] at hself
        rw [hvalued, hentry, Option.some.inj hself, hat]
  | market =>
    rw [ht] at htype
    have hvalued : order.valuedAt p.currentPrice = p.currentPrice := by
      simp [EntryOrder.valuedAt, htype]
    rw [if_neg (by simp)]
    rw [ht] at hlegQuantity
    rw [hvalued] at hcovers
    constructor
    · intro hagree
      exact hcovers.mp hagree.margin
    · intro hle
      refine ⟨htotal, fun o ho => ?_, fun o ho htype' => ?_, hcovers.mpr hle, hcap⟩
      · obtain rfl := List.mem_singleton.mp ho
        rw [htype, hqty]
        exact hlegQuantity.mpr (hlegal.market_le hsplit)
      · obtain rfl := List.mem_singleton.mp ho
        rw [htype] at htype'
        cases htype'

/-- The orders that will be sent for a dispatch are the entry the preflight admitted exactly when
the entry is coherent. -/
theorem legs_agree_iff (hz : sizePreflight exponent env p s = .ok z)
    (hsub : z.submission snapshotId reservationId = .ok sub) :
    LegsAgree p.metadata p.currentPrice z.prices.normalizedEntry (legs x s.dispatch sub) sub ↔
      z.Coherent p s := by
  obtain ⟨r, hlegal⟩ := sized_legal hz
  have hcoherent : z.Coherent p s ↔
      if z.split then p.currentPrice + 3 * z.prices.normalizedEntry ≤ 4 * r
      else if s.dispatch.orderType = .limit then
        s.dispatch.entryPrice = z.prices.normalizedEntry ∧
          ∀ maximum ∈ p.metadata.maxOrderQty, z.plan.quantity ≤ maximum
      else p.currentPrice ≤ r := by
    unfold SizedEntry.Coherent
    rw [hlegal.rounded]
    simp
  rw [hcoherent]
  cases hsplit : z.split with
  | true => simpa using split_agrees_iff hz hsub hsplit hlegal
  | false => simpa using single_agrees_iff hz hsub hsplit hlegal

end Legs

/-! ### A split that is sized as a single entry -/

/-- A symbol of which no quarter of a small entry can be sent. -/
def smallLots : SymbolMetadata where
  symbol := "BTCUSDT"
  priceTick := 1 / 10
  sizeStep := 1 / 100
  minOrderQty := 1 / 10
  maxOrderQty := none
  maxMarketOrderQty := none
  contractValue := 1
  maxLeverage := 50
  minNotional := 5
  mmTiers := [⟨none, 5 / 1000, by norm_num⟩]
  sizeStep_pos := by norm_num
  minOrderQty_pos := by norm_num
  contractValue_pos := by norm_num

def liveDefaults : LiveEnvironment where
  maxPositions := 5
  marginMode := none
  fixedMarginUsdt := 1
  allocationPct := 1 / 5
  defaultLeverage := 20
  minLeverage := 5
  liquidationBuffer := 1 / 10
  lateThreshold := 5 / 1000
  recentWindow := 60
  fixed_le := by norm_num [liveMaxMarginPerTradeUsdt]

def snapshotAt (price : ℚ) : ProviderSnapshot := ⟨smallLots, price, 100, 100, 0⟩

/-- A long entry at 100 whose source is ten seconds old. -/
def recentLong : EntrySignal where
  dispatch := ⟨1, .submitting, "BTCUSDT", .long, 100, none, none, .market, none, none, 0, none⟩
  stopLoss := 97
  takeProfits := [105]
  sourceAge := some 10

/-- The market has passed the entry, the quarters are too small, and the entry is sized at its
source price of 100. Its market order is expected to pay 100.5, more than the margin covers. -/
theorem fallback_disagrees : ∃ z sub,
    sizePreflight (fun _ => 0) liveDefaults (snapshotAt (201 / 2)) recentLong = .ok z ∧
      z.prices.split = true ∧ z.split = false ∧ z.plan.margin = liveMaxMarginPerTradeUsdt ∧
      z.submission 5 7 = .ok sub ∧
      ∀ x, ¬ LegsAgree smallLots (201 / 2) z.prices.normalizedEntry
        (legs x recentLong.dispatch sub) sub := by
  have hsome : (sizePreflight (fun _ => 0) liveDefaults (snapshotAt (201 / 2))
      recentLong).toOption.any (fun z => z.prices.split && !z.split &&
        decide (z.plan.margin = liveMaxMarginPerTradeUsdt) && decide (z.sizedAt = 100) &&
        (z.submission 5 7).toOption.isSome) = true := by decide +kernel
  cases hz : sizePreflight (fun _ => 0) liveDefaults (snapshotAt (201 / 2)) recentLong with
  | error e => simp [hz, Except.toOption] at hsome
  | ok z =>
    simp only [hz, Except.toOption, Option.any_some, Bool.and_eq_true, Bool.not_eq_true',
      decide_eq_true_eq] at hsome
    obtain ⟨⟨⟨⟨hwas, hsplit⟩, hmargin⟩, hat⟩, hsub⟩ := hsome
    cases hsub' : z.submission 5 7 with
    | error e => simp [hsub'] at hsub
    | ok sub =>
      refine ⟨z, sub, rfl, hwas, hsplit, hmargin, hsub', fun x hagree => ?_⟩
      obtain ⟨r, hlegal⟩ := sized_legal hz
      have hr : r = 100 := by
        have hround := hlegal.rounded
        rw [hat, show roundPriceToTick 100 (snapshotAt (201 / 2)).metadata.priceTick =
          some 100 by decide +kernel] at hround
        exact (Option.some.inj hround).symm
      have hle := (single_agrees_iff hz hsub' hsplit hlegal).mp hagree
      rw [if_neg (by decide), hr] at hle
      exact absurd hle (by norm_num [snapshotAt])

/-- At the price of its source the same entry is what was admitted. -/
theorem marketEntry_agrees : ∃ z sub,
    sizePreflight (fun _ => 0) liveDefaults (snapshotAt 100) recentLong = .ok z ∧
      z.submission 5 7 = .ok sub ∧
      ∀ x, LegsAgree smallLots 100 z.prices.normalizedEntry (legs x recentLong.dispatch sub) sub := by
  have hsome : (sizePreflight (fun _ => 0) liveDefaults (snapshotAt 100)
      recentLong).toOption.any (fun z => !z.split && decide (z.sizedAt = 100) &&
        (z.submission 5 7).toOption.isSome) = true := by decide +kernel
  cases hz : sizePreflight (fun _ => 0) liveDefaults (snapshotAt 100) recentLong with
  | error e => simp [hz, Except.toOption] at hsome
  | ok z =>
    simp only [hz, Except.toOption, Option.any_some, Bool.and_eq_true, Bool.not_eq_true',
      decide_eq_true_eq] at hsome
    obtain ⟨⟨hsplit, hat⟩, hsub⟩ := hsome
    cases hsub' : z.submission 5 7 with
    | error e => simp [hsub'] at hsub
    | ok sub =>
      refine ⟨z, sub, rfl, hsub', fun x => (legs_agree_iff hz hsub').mpr fun r hr => ?_⟩
      rw [hat, show roundPriceToTick 100 (snapshotAt 100).metadata.priceTick = some 100 by
        decide +kernel] at hr
      obtain rfl := Option.mem_some.mp hr
      rw [hsplit, if_neg (by simp), if_neg (by decide)]
      exact le_rfl

end FattyTrader
