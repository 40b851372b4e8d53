import FattyTrader.Preflight
import Mathlib.Tactic.Linarith

/-!
# Routes of an entry

`route_entry` sends an entry to the market, to a limit order at the price of its signal, or a quarter
to the market and the rest to the limit. Every comparison it makes is one of the offset of a price
from the entry of the signal, counted in the direction of the trade (`RouteRequest.offset`), except
the one of the mark at which a limit order was last near : a long looks on both sides of the entry,
a short on one.

Reflected about its entry, and with its direction swapped, a request has the same offsets. So it
gets the mirrored route, unless that one comparison decides it (`route_mirrored_iff`). The production
preflight sends no limit context, so its routes are always mirrored.
-/

set_option linter.unusedSectionVars false

namespace FattyTrader

namespace EntryRouting

inductive EntryMode
  | limitOnly
  | fullMarket
  | splitMarketLimit
  | nearLimitSplitMarketLimit
deriving DecidableEq

/-- Evidence that a working limit order was near its entry. A naive time counts as one of UTC. -/
structure LimitEntryContext where
  providerAcknowledged : Bool
  wasWorking : Bool
  observedAt : Instant
  nearEntryMark : Option ℚ
  priorMark : Option ℚ
  departureWindowSeconds : ℤ := 60

/-- `is_recent`. -/
def LimitEntryContext.isRecent (c : LimitEntryContext) (now : Instant) : Bool :=
  0 ≤ now - c.observedAt && now - c.observedAt ≤ c.departureWindowSeconds * 1000000

/-- The time a source was received at. -/
inductive SourceTime
  | naive
  | aware (receivedAt : Instant)

/-- The arguments of `route_entry`, with the time of its clock. -/
structure RouteRequest where
  direction : Direction
  signalEntry : ℚ
  marketPrice : ℚ
  totalQuantity : ℚ
  lateThresholdPct : ℚ
  limitContext : Option LimitEntryContext := none
  nearLimitThresholdPct : Option ℚ := none
  now : Instant := 0
  sourceReceivedAt : Option SourceTime := none
  recentWindowSeconds : ℤ := 60
  forceMarket : Bool := false

structure RoutedEntry extends EntryRoute where
  mode : EntryMode
  reason : String := "legacy-price-route"
deriving DecidableEq

/-- `_split`. -/
def split (totalQuantity : ℚ) (mode : EntryMode) (limitPrice : ℚ) (reason : String) :
    RoutedEntry where
  toEntryRoute := splitRouteOf totalQuantity limitPrice
  mode := mode
  reason := reason

def marketRoute (totalQuantity : ℚ) (reason : String) : RoutedEntry where
  toEntryRoute := fullMarket totalQuantity
  mode := .fullMarket
  reason := reason

def limitRoute (totalQuantity limitPrice : ℚ) : RoutedEntry where
  marketQuantity := 0
  limitQuantity := totalQuantity
  limitPrice := some limitPrice
  mode := .limitOnly
  reason := "normal-pullback-or-insufficient-limit-evidence"

namespace RouteRequest

variable (i : RouteRequest)

/-- `near_limit_threshold_pct or late_threshold_pct`. -/
def nearThreshold : ℚ :=
  match i.nearLimitThresholdPct with
  | some t => if t = 0 then i.lateThresholdPct else t
  | none => i.lateThresholdPct

/-- The marks of a context that may split, when it is eligible. -/
def eligibleMarks (c : LimitEntryContext) : Option (ℚ × ℚ) :=
  if c.providerAcknowledged ∧ c.wasWorking ∧ c.isRecent i.now then
    match c.nearEntryMark, c.priorMark with
    | some near, some prior => some (near, prior)
    | _, _ => none
  else none

/-- `just_departed`. -/
def justDeparted (nearMark priorMark : ℚ) : Bool :=
  match i.direction with
  | .long =>
    let nearEntry := i.signalEntry * (1 + i.nearThreshold)
    i.signalEntry * (1 - i.nearThreshold) ≤ nearMark && nearMark ≤ nearEntry &&
      priorMark ≤ nearEntry && i.signalEntry < i.marketPrice && i.marketPrice ≤ nearEntry
  | .short =>
    let nearEntry := i.signalEntry * (1 - i.nearThreshold)
    nearEntry ≤ nearMark && nearMark ≤ i.signalEntry && nearEntry ≤ priorMark &&
      i.marketPrice < i.signalEntry && nearEntry ≤ i.marketPrice

/-- `adverse_move`. -/
def adverseMove : Bool :=
  match i.direction with
  | .long => i.signalEntry * (1 + i.lateThresholdPct) ≤ i.marketPrice
  | .short => i.marketPrice ≤ i.signalEntry * (1 - i.lateThresholdPct)

/-- The route of a source that is known to be received at an aware time. -/
def sourceRoute (receivedAt : Instant) : RoutedEntry :=
  if passedEntry i.direction i.signalEntry i.marketPrice ∧ 0 ≤ i.now - receivedAt ∧
      i.now - receivedAt ≤ i.recentWindowSeconds * 1000000 then
    split i.totalQuantity .splitMarketLimit i.signalEntry "recent-source-passed-entry"
  else marketRoute i.totalQuantity "not-recently-passed-entry"

/-- The route of an entry with a limit context. -/
def contextRoute (c : LimitEntryContext) : RoutedEntry :=
  match i.eligibleMarks c with
  | some (near, prior) =>
    if i.justDeparted near prior then
      split i.totalQuantity .nearLimitSplitMarketLimit i.signalEntry
        "just-departed-acknowledged-limit"
    else limitRoute i.totalQuantity i.signalEntry
  | none => limitRoute i.totalQuantity i.signalEntry

/-- The route by the price alone. -/
def priceRoute : RoutedEntry :=
  if i.adverseMove then
    split i.totalQuantity .splitMarketLimit i.signalEntry "legacy-price-route"
  else marketRoute i.totalQuantity "legacy-price-route"

/-- The route of a request that is well formed and not forced. -/
def evidenceRoute : Except String RoutedEntry :=
  match i.sourceReceivedAt, i.limitContext with
  | some .naive, _ =>
    .error "recent signal route requires aware source time and positive window"
  | some (.aware receivedAt), _ =>
    if i.recentWindowSeconds ≤ 0 then
      .error "recent signal route requires aware source time and positive window"
    else .ok (i.sourceRoute receivedAt)
  | none, some c =>
    if c.departureWindowSeconds ≤ 0 then .error "departure window must be positive"
    else .ok (i.contextRoute c)
  | none, none => .ok i.priceRoute

end RouteRequest

open RouteRequest

/-- `route_entry`. -/
def routeEntry (i : RouteRequest) : Except String RoutedEntry :=
  if i.forceMarket then
    if i.marketPrice ≤ 0 ∨ i.totalQuantity ≤ 0 then
      .error "market price and quantity must be positive"
    else .ok (marketRoute i.totalQuantity "explicit-market-signal")
  else if i.signalEntry ≤ 0 ∨ i.marketPrice ≤ 0 ∨ i.totalQuantity ≤ 0 then
    .error "entry, market price, and quantity must be positive"
  else if ¬(0 < i.lateThresholdPct ∧ i.lateThresholdPct < 1) then
    .error "late threshold must be between zero and one"
  else if ¬(0 < i.nearThreshold ∧ i.nearThreshold < 1) then
    .error "near-limit threshold must be between zero and one"
  else i.evidenceRoute

/-- The production preflight routes with a source time and no context. -/
theorem routeEntry_source {env : LiveEnvironment} {direction : Direction}
    {signalEntry marketPrice totalQuantity : ℚ} {receivedAt now : Instant} {window : ℤ}
    (hwindow : env.recentWindow = window) :
    (routeEntry
      { direction, signalEntry, marketPrice, totalQuantity, now
        lateThresholdPct := env.lateThreshold
        sourceReceivedAt := some (.aware receivedAt)
        recentWindowSeconds := window }).map RoutedEntry.toEntryRoute =
      FattyTrader.routeEntry env direction signalEntry marketPrice totalQuantity
        ((now - receivedAt : ℤ) / 1000000) := by
  have hage : (((now - receivedAt : ℤ) : ℚ) / 1000000 ≤ window ↔
      now - receivedAt ≤ window * 1000000) := by
    rw [div_le_iff₀ (by norm_num)]
    exact_mod_cast Iff.rfl
  have hage₀ : (0 ≤ ((now - receivedAt : ℤ) : ℚ) / 1000000 ↔ 0 ≤ now - receivedAt) := by
    rw [le_div_iff₀ (by norm_num), zero_mul]
    exact_mod_cast Iff.rfl
  have hwin : ((window : ℚ) ≤ 0 ↔ window ≤ 0) := by exact_mod_cast Iff.rfl
  simp only [routeEntry, evidenceRoute, FattyTrader.routeEntry, hwindow, nearThreshold, sourceRoute,
    hage, hage₀, hwin]
  split_ifs <;> first | rfl | (exfalso; grind)

/-! ## The mirror image -/

/-- The other direction. -/
def swapped : Direction → Direction
  | .long => .short
  | .short => .long

theorem sign_swapped (d : Direction) : (swapped d).sign = -d.sign := by
  cases d <;> simp [swapped, Direction.sign]

/-- A price reflected about the entry. -/
def reflect (entry price : ℚ) : ℚ := 2 * entry - price

def LimitEntryContext.mirrored (entry : ℚ) (c : LimitEntryContext) : LimitEntryContext :=
  { c with
    nearEntryMark := c.nearEntryMark.map (reflect entry)
    priorMark := c.priorMark.map (reflect entry) }

/-- The request of the opposite trade. -/
def RouteRequest.mirrored (i : RouteRequest) : RouteRequest :=
  { i with
    direction := swapped i.direction
    marketPrice := reflect i.signalEntry i.marketPrice
    limitContext := i.limitContext.map (LimitEntryContext.mirrored i.signalEntry) }

/-- The route of the opposite trade : its prices are reflected. -/
def RoutedEntry.mirrored (entry : ℚ) (r : RoutedEntry) : RoutedEntry :=
  { r with limitPrice := r.limitPrice.map (reflect entry) }

@[simp] theorem mirrored_split (q entry : ℚ) (mode : EntryMode) (reason : String) :
    (split q mode entry reason).mirrored entry = split q mode entry reason := by
  simp [RoutedEntry.mirrored, split, splitRouteOf, reflect, two_mul]

@[simp] theorem mirrored_marketRoute (q entry : ℚ) (reason : String) :
    (marketRoute q reason).mirrored entry = marketRoute q reason := rfl

@[simp] theorem mirrored_limitRoute (q entry : ℚ) :
    (limitRoute q entry).mirrored entry = limitRoute q entry := by
  simp [RoutedEntry.mirrored, limitRoute, reflect, two_mul]

namespace RouteRequest

variable (i : RouteRequest)

/-- How far a price is beyond the entry, in the direction of the trade. -/
def offset (price : ℚ) : ℚ := (price - i.signalEntry) * i.direction.sign

@[simp] theorem offset_mirrored (price : ℚ) :
    i.mirrored.offset (reflect i.signalEntry price) = i.offset price := by
  simp only [offset, mirrored, reflect, sign_swapped]
  ring

@[simp] theorem mirrored_signalEntry : i.mirrored.signalEntry = i.signalEntry := rfl

@[simp] theorem mirrored_totalQuantity : i.mirrored.totalQuantity = i.totalQuantity := rfl

@[simp] theorem mirrored_now : i.mirrored.now = i.now := rfl

@[simp] theorem mirrored_recentWindowSeconds :
    i.mirrored.recentWindowSeconds = i.recentWindowSeconds := rfl

@[simp] theorem mirrored_nearThreshold : i.mirrored.nearThreshold = i.nearThreshold := rfl

theorem passedEntry_iff :
    passedEntry i.direction i.signalEntry i.marketPrice ↔ 0 < i.offset i.marketPrice := by
  unfold offset passedEntry
  cases i.direction <;> simp [Direction.sign]

theorem adverseMove_iff :
    i.adverseMove ↔ i.signalEntry * i.lateThresholdPct ≤ i.offset i.marketPrice := by
  unfold offset adverseMove
  cases i.direction <;> simp only [Direction.sign, decide_eq_true_eq] <;>
    constructor <;> intro h <;> linarith

/-- The prior mark and the market are where a limit order that just departed has them. -/
def Departed (priorMark : ℚ) : Prop :=
  i.offset priorMark ≤ i.signalEntry * i.nearThreshold ∧ 0 < i.offset i.marketPrice ∧
    i.offset i.marketPrice ≤ i.signalEntry * i.nearThreshold

/-- How far before the entry the near mark may be : a long looks on both sides. -/
def nearBound : ℚ :=
  match i.direction with
  | .long => -(i.signalEntry * i.nearThreshold)
  | .short => 0

theorem justDeparted_iff (near prior : ℚ) :
    i.justDeparted near prior ↔ i.nearBound ≤ i.offset near ∧
      i.offset near ≤ i.signalEntry * i.nearThreshold ∧ i.Departed prior := by
  unfold justDeparted nearBound Departed offset
  cases i.direction with
  | long =>
    simp only [Direction.sign, Bool.and_eq_true, decide_eq_true_eq]
    constructor
    · rintro ⟨⟨⟨⟨hlow, hhigh⟩, hprior⟩, hpassed⟩, hnear⟩
      refine ⟨?_, ?_, ?_, ?_, ?_⟩ <;> linarith
    · rintro ⟨hlow, hhigh, hprior, hpassed, hnear⟩
      refine ⟨⟨⟨⟨?_, ?_⟩, ?_⟩, ?_⟩, ?_⟩ <;> linarith
  | short =>
    simp only [Direction.sign, Bool.and_eq_true, decide_eq_true_eq]
    constructor
    · rintro ⟨⟨⟨⟨hhigh, hlow⟩, hprior⟩, hpassed⟩, hnear⟩
      refine ⟨?_, ?_, ?_, ?_, ?_⟩ <;> linarith
    · rintro ⟨hlow, hhigh, hprior, hpassed, hnear⟩
      refine ⟨⟨⟨⟨?_, ?_⟩, ?_⟩, ?_⟩, ?_⟩ <;> linarith

/-- The near mark is before the entry by no more than the threshold, on the side only a long
accepts, and all else says that the limit order just departed. -/
def NearBefore : Prop :=
  i.forceMarket = false ∧ i.sourceReceivedAt = none ∧
    ∃ c near prior, i.limitContext = some c ∧ i.eligibleMarks c = some (near, prior) ∧
      i.Departed prior ∧ -(i.signalEntry * i.nearThreshold) ≤ i.offset near ∧ i.offset near < 0

end RouteRequest

/-! ## The law -/

/-- The request of the opposite trade gets the mirrored route. -/
def Mirrors (i : RouteRequest) (r : RoutedEntry) : Prop :=
  routeEntry i.mirrored = .ok (r.mirrored i.signalEntry)

/-- A split is a quarter and three quarters of the total. -/
def SplitExact (i : RouteRequest) (r : RoutedEntry) : Prop :=
  r.mode = .splitMarketLimit ∨ r.mode = .nearLimitSplitMarketLimit →
    0 ≤ r.marketQuantity ∧ 0 ≤ r.limitQuantity ∧
      r.marketQuantity + r.limitQuantity = i.totalQuantity ∧
      r.marketQuantity = i.totalQuantity * (25 / 100) ∧
      r.limitQuantity = i.totalQuantity * (75 / 100)

section Law

variable {i : RouteRequest} {r : RoutedEntry}

theorem sourceRoute_mirrored (receivedAt : Instant) :
    i.mirrored.sourceRoute receivedAt =
      (i.sourceRoute receivedAt).mirrored i.signalEntry := by
  have hpassed : passedEntry i.mirrored.direction i.mirrored.signalEntry i.mirrored.marketPrice ↔
      passedEntry i.direction i.signalEntry i.marketPrice := by
    rw [passedEntry_iff, passedEntry_iff]
    exact Iff.of_eq (congrArg _ (i.offset_mirrored i.marketPrice))
  unfold sourceRoute
  by_cases h : passedEntry i.direction i.signalEntry i.marketPrice ∧ 0 ≤ i.now - receivedAt ∧
      i.now - receivedAt ≤ i.recentWindowSeconds * 1000000
  · rw [if_pos h, if_pos ⟨hpassed.mpr h.1, h.2⟩, mirrored_split]
    rfl
  · rw [if_neg h, if_neg fun h' => h ⟨hpassed.mp h'.1, h'.2⟩, mirrored_marketRoute]
    rfl

theorem priceRoute_mirrored : i.mirrored.priceRoute = i.priceRoute.mirrored i.signalEntry := by
  have hadverse : i.mirrored.adverseMove = i.adverseMove := by
    rw [Bool.eq_iff_iff, adverseMove_iff, adverseMove_iff]
    exact Iff.of_eq (congrArg _ (i.offset_mirrored i.marketPrice))
  unfold priceRoute
  rw [hadverse]
  split_ifs <;> simp

theorem eligibleMarks_mirrored (c : LimitEntryContext) :
    i.mirrored.eligibleMarks (c.mirrored i.signalEntry) =
      (i.eligibleMarks c).map (Prod.map (reflect i.signalEntry) (reflect i.signalEntry)) := by
  unfold eligibleMarks
  by_cases h : c.providerAcknowledged ∧ c.wasWorking ∧ c.isRecent i.now
  · have h' : (c.mirrored i.signalEntry).providerAcknowledged ∧
        (c.mirrored i.signalEntry).wasWorking ∧
        (c.mirrored i.signalEntry).isRecent i.mirrored.now := h
    rw [if_pos h, if_pos h']
    simp only [LimitEntryContext.mirrored]
    cases c.nearEntryMark <;> cases c.priorMark <;> rfl
  · have h' : ¬((c.mirrored i.signalEntry).providerAcknowledged ∧
        (c.mirrored i.signalEntry).wasWorking ∧
        (c.mirrored i.signalEntry).isRecent i.mirrored.now) := h
    rw [if_neg h, if_neg h']
    rfl

/-- The two directions agree on a departure unless the near mark is before the entry. -/
theorem justDeparted_mirrored_iff (hpos : 0 < i.signalEntry * i.nearThreshold) (near prior : ℚ) :
    i.mirrored.justDeparted (reflect i.signalEntry near) (reflect i.signalEntry prior) =
        i.justDeparted near prior ↔
      ¬(i.Departed prior ∧ -(i.signalEntry * i.nearThreshold) ≤ i.offset near ∧
        i.offset near < 0) := by
  have hdeparted : i.mirrored.Departed (reflect i.signalEntry prior) ↔ i.Departed prior := by
    unfold Departed
    have hmarket : i.mirrored.offset i.mirrored.marketPrice = i.offset i.marketPrice :=
      i.offset_mirrored i.marketPrice
    rw [hmarket, offset_mirrored, mirrored_signalEntry, mirrored_nearThreshold]
  rw [Bool.eq_iff_iff, justDeparted_iff, justDeparted_iff, offset_mirrored, hdeparted,
    mirrored_signalEntry, mirrored_nearThreshold]
  unfold nearBound
  rw [mirrored_signalEntry, mirrored_nearThreshold]
  cases hdir : i.direction with
  | long =>
    have hdir' : i.mirrored.direction = .short := by rw [mirrored, hdir, swapped]
    simp only [hdir']
    grind
  | short =>
    have hdir' : i.mirrored.direction = .long := by rw [mirrored, hdir, swapped]
    simp only [hdir']
    grind

theorem contextRoute_mirrored_iff (hpos : 0 < i.signalEntry * i.nearThreshold)
    (c : LimitEntryContext) :
    i.mirrored.contextRoute (c.mirrored i.signalEntry) =
        (i.contextRoute c).mirrored i.signalEntry ↔
      ¬∃ near prior, i.eligibleMarks c = some (near, prior) ∧ i.Departed prior ∧
        -(i.signalEntry * i.nearThreshold) ≤ i.offset near ∧ i.offset near < 0 := by
  unfold contextRoute
  rw [eligibleMarks_mirrored]
  cases hmarks : i.eligibleMarks c with
  | none => simp
  | some marks =>
    obtain ⟨near, prior⟩ := marks
    have hiff := justDeparted_mirrored_iff hpos near prior
    have hmode : split i.totalQuantity .nearLimitSplitMarketLimit i.signalEntry
        "just-departed-acknowledged-limit" ≠ limitRoute i.totalQuantity i.signalEntry :=
      fun h => by cases congrArg RoutedEntry.mode h
    have hexists : (∃ near' prior', some (near, prior) = some (near', prior') ∧
        i.Departed prior' ∧ -(i.signalEntry * i.nearThreshold) ≤ i.offset near' ∧
        i.offset near' < 0) ↔
        i.Departed prior ∧ -(i.signalEntry * i.nearThreshold) ≤ i.offset near ∧
          i.offset near < 0 := by
      constructor
      · rintro ⟨_, _, ⟨⟩, h⟩
        exact h
      · exact fun h => ⟨near, prior, rfl, h⟩
    rw [hexists, ← hiff]
    simp only [Option.map_some, Prod.map, mirrored_totalQuantity, mirrored_signalEntry]
    cases i.justDeparted near prior <;>
      cases i.mirrored.justDeparted (reflect i.signalEntry near) (reflect i.signalEntry prior) <;>
      simp [hmode, hmode.symm]

theorem routeEntry_of_forced (h : i.forceMarket = true) :
    routeEntry i = .ok r ↔ 0 < i.marketPrice ∧ 0 < i.totalQuantity ∧
      r = marketRoute i.totalQuantity "explicit-market-signal" := by
  unfold routeEntry
  rw [if_pos h]
  split_ifs with hbad
  · simp only [false_iff]
    rintro ⟨hm, hq, -⟩
    exact hbad.elim hm.not_ge hq.not_ge
  · rw [not_or, not_le, not_le] at hbad
    simp only [Except.ok.injEq, hbad, true_and, eq_comm]

theorem routeEntry_of_not_forced (h : i.forceMarket = false) :
    routeEntry i = .ok r ↔ (0 < i.signalEntry ∧ 0 < i.marketPrice ∧ 0 < i.totalQuantity) ∧
      (0 < i.lateThresholdPct ∧ i.lateThresholdPct < 1) ∧
      (0 < i.nearThreshold ∧ i.nearThreshold < 1) ∧ i.evidenceRoute = .ok r := by
  unfold routeEntry
  rw [if_neg (by simp [h])]
  split_ifs with hpos hlate hnear
  · simp only [false_iff]
    rintro ⟨⟨he, hm, hq⟩, -⟩
    rcases hpos with h | h | h <;> linarith
  · simp only [not_or, not_le] at hpos
    exact ⟨fun h => ⟨hpos, hlate, hnear, h⟩, fun h => h.2.2.2⟩
  · simp only [false_iff]
    exact fun h => hnear h.2.2.1
  · simp only [false_iff]
    exact fun h => hlate h.2.1

/-- The evidence of the opposite trade gives the mirrored route, unless the near mark is before the
entry. -/
theorem evidenceRoute_mirrored_iff (hforce : i.forceMarket = false)
    (hpos : 0 < i.signalEntry * i.nearThreshold) (h : i.evidenceRoute = .ok r) :
    i.mirrored.evidenceRoute = .ok (r.mirrored i.signalEntry) ↔ ¬i.NearBefore := by
  unfold evidenceRoute at h ⊢
  have hsource : i.mirrored.sourceReceivedAt = i.sourceReceivedAt := rfl
  have hcontext : i.mirrored.limitContext =
    i.limitContext.map (LimitEntryContext.mirrored i.signalEntry) := rfl
  rw [hsource, hcontext]
  cases hs : i.sourceReceivedAt with
  | some time =>
    have hno : ¬i.NearBefore := fun h => by simpa [hs] using h.2.1
    cases time with
    | naive => simp [hs] at h
    | aware receivedAt =>
      simp only [hs] at h ⊢
      rw [mirrored_recentWindowSeconds]
      split_ifs at h ⊢ with hwindow
      obtain rfl := Except.ok.inj h
      rw [sourceRoute_mirrored]
      exact iff_of_true rfl hno
  | none =>
    cases hc : i.limitContext with
    | none =>
      have hno : ¬i.NearBefore := by
        rintro ⟨-, -, c, _, _, hc', -⟩
        simp [hc] at hc'
      simp only [hs, hc] at h ⊢
      obtain rfl := Except.ok.inj h
      rw [Option.map_none, priceRoute_mirrored]
      exact iff_of_true rfl hno
    | some c =>
      simp only [hs, hc, Option.map_some] at h ⊢
      have hwindow : (c.mirrored i.signalEntry).departureWindowSeconds =
        c.departureWindowSeconds := rfl
      rw [hwindow]
      split_ifs at h ⊢
      obtain rfl := Except.ok.inj h
      rw [Except.ok.injEq, contextRoute_mirrored_iff hpos, not_iff_not]
      constructor
      · rintro ⟨near, prior, hmarks, hdeparted, hbefore⟩
        exact ⟨hforce, hs, c, near, prior, hc, hmarks, hdeparted, hbefore⟩
      · rintro ⟨-, -, c', near, prior, hc', hmarks, hdeparted, hbefore⟩
        obtain rfl := Option.some.inj (hc.symm.trans hc')
        exact ⟨near, prior, hmarks, hdeparted, hbefore⟩

/-- A route is a split of the total, or sends all of it to one order. -/
def Shaped (i : RouteRequest) (r : RoutedEntry) : Prop :=
  (∃ mode reason, r = split i.totalQuantity mode i.signalEntry reason) ∨
    r.mode = .fullMarket ∨ r.mode = .limitOnly

theorem shaped_sourceRoute (receivedAt : Instant) : Shaped i (i.sourceRoute receivedAt) := by
  unfold sourceRoute
  split_ifs
  · exact Or.inl ⟨_, _, rfl⟩
  · exact Or.inr (Or.inl rfl)

theorem shaped_contextRoute (c : LimitEntryContext) : Shaped i (i.contextRoute c) := by
  unfold contextRoute
  split
  · split_ifs
    · exact Or.inl ⟨_, _, rfl⟩
    · exact Or.inr (Or.inr rfl)
  · exact Or.inr (Or.inr rfl)

theorem shaped_priceRoute : Shaped i i.priceRoute := by
  unfold priceRoute
  split_ifs
  · exact Or.inl ⟨_, _, rfl⟩
  · exact Or.inr (Or.inl rfl)

theorem shaped_evidenceRoute (h : i.evidenceRoute = .ok r) : Shaped i r := by
  unfold evidenceRoute at h
  split at h
  · cases h
  · split_ifs at h
    obtain rfl := Except.ok.inj h
    exact shaped_sourceRoute _
  · split_ifs at h
    obtain rfl := Except.ok.inj h
    exact shaped_contextRoute _
  · obtain rfl := Except.ok.inj h
    exact shaped_priceRoute

/-- Every accepted split is exact. -/
theorem splitExact (h : routeEntry i = .ok r) : SplitExact i r := by
  intro hmode
  cases hforce : i.forceMarket with
  | true =>
    obtain ⟨-, -, rfl⟩ := (routeEntry_of_forced hforce).mp h
    rcases hmode with hmode | hmode <;> cases hmode
  | false =>
    obtain ⟨⟨-, -, hq⟩, -, -, hroute⟩ := (routeEntry_of_not_forced hforce).mp h
    rcases shaped_evidenceRoute hroute with ⟨mode, reason, rfl⟩ | hfull | hlimit
    · simp only [split, splitRouteOf]
      refine ⟨?_, ?_, ?_, ?_, ?_⟩ <;> linarith
    · rcases hmode with hmode | hmode <;> cases hfull.symm.trans hmode
    · rcases hmode with hmode | hmode <;> cases hlimit.symm.trans hmode

/-! ## Claims -/

/-- The opposite trade gets the mirrored route exactly where its market price is positive, and the
near mark of a limit order that just departed is not before the entry. Every split is exact. -/
theorem route_mirrored_iff (h : routeEntry i = .ok r) :
    Mirrors i r ∧ SplitExact i r ↔ i.marketPrice < 2 * i.signalEntry ∧ ¬i.NearBefore := by
  rw [and_iff_left (splitExact h)]
  have hmarket : i.mirrored.marketPrice = 2 * i.signalEntry - i.marketPrice := rfl
  have hforced : i.mirrored.forceMarket = i.forceMarket := rfl
  unfold Mirrors
  cases hforce : i.forceMarket with
  | true =>
    obtain ⟨-, hq, rfl⟩ := (routeEntry_of_forced hforce).mp h
    have hno : ¬i.NearBefore := fun hb => by cases hforce.symm.trans hb.1
    rw [routeEntry_of_forced (hforced.trans hforce), hmarket, mirrored_totalQuantity,
      mirrored_marketRoute]
    exact ⟨fun h => ⟨by linarith [h.1], hno⟩, fun h => ⟨by linarith [h.1], hq, rfl⟩⟩
  | false =>
    obtain ⟨⟨he, -, hq⟩, hlate, hnear, hroute⟩ := (routeEntry_of_not_forced hforce).mp h
    have hiff := evidenceRoute_mirrored_iff hforce (mul_pos he hnear.1) hroute
    rw [routeEntry_of_not_forced (hforced.trans hforce), hiff, hmarket, mirrored_totalQuantity,
      mirrored_signalEntry, mirrored_nearThreshold]
    exact ⟨fun h => ⟨by linarith [h.1.2.1], h.2.2.2⟩,
      fun h => ⟨⟨he, by linarith [h.1], hq⟩, hlate, hnear, h.2⟩⟩

end Law

/-- A long whose market passed its entry by the late threshold. -/
def lateLong : RouteRequest where
  direction := .long
  signalEntry := 100
  marketPrice := 101
  totalQuantity := 8
  lateThresholdPct := 1 / 200

theorem lateLong_mirrored :
    Mirrors lateLong (split 8 .splitMarketLimit 100 "legacy-price-route") ∧
        SplitExact lateLong (split 8 .splitMarketLimit 100 "legacy-price-route") ↔
      lateLong.marketPrice < 2 * lateLong.signalEntry ∧ ¬lateLong.NearBefore :=
  route_mirrored_iff (by decide +kernel)

/-- A long whose limit order was last near at a mark below its entry. -/
def crossedLong : RouteRequest where
  direction := .long
  signalEntry := 100
  marketPrice := 1002 / 10
  totalQuantity := 8
  lateThresholdPct := 1 / 200
  limitContext := some
    { providerAcknowledged := true
      wasWorking := true
      observedAt := 0
      nearEntryMark := some (998 / 10)
      priorMark := some (1001 / 10) }

/-- The long is split, and the short that mirrors it waits at its limit. -/
theorem crossedLong_notMirrored :
    ∃ r, routeEntry crossedLong = .ok r ∧ r.mode = .nearLimitSplitMarketLimit ∧
      routeEntry crossedLong.mirrored = .ok (limitRoute 8 100) ∧
      ¬(Mirrors crossedLong r ∧ SplitExact crossedLong r) := by
  refine ⟨split 8 .nearLimitSplitMarketLimit 100 "just-departed-acknowledged-limit",
    by decide +kernel, rfl, by decide +kernel, fun h => ?_⟩
  have hmirrored : routeEntry crossedLong.mirrored = .ok (limitRoute 8 100) := by decide +kernel
  cases congrArg (fun x => x.toOption.map RoutedEntry.mode) (hmirrored.symm.trans h.1)

end EntryRouting

end FattyTrader
