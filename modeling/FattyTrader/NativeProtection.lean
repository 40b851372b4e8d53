import FattyTrader.Ledger
import FattyTrader.JsonValues
import Mathlib.Data.List.Infix

/-!
# Protection the venue confirms

Whether a position is protected is read from two answers of the venue : the positions, and the
pending plan orders. `confirmNativeStopProtection` looks for the stop of a symbol without knowing
what was ordered. It is meant for the stop of exactly this symbol, side and size. A position that
does not say its side is taken to have the side of any plan, and a plan whose size cannot be read is
taken to be large enough (`stop_confirmed_iff`).
-/

set_option linter.unusedSectionVars false

open FattyTrader.JsonValues

namespace FattyTrader.NativeProtection

inductive ProtectionState
  | pending
  | venueProtected
  | botFallback
  | degraded
  | failed
deriving DecidableEq

structure ProtectionReport where
  state : ProtectionState
  observedQuantity : ℚ
  reason : Option String := none
deriving DecidableEq

/-- A read of the venue, with the text of its failure. -/
abbrev Read := Except String Json

variable (P : Texts)

/-! ## Rows of the venue -/

/-- `_positive_decimal`. -/
def positiveDecimal (payload : Fields) : List String → Option ℚ
  | [] => none
  | field :: fields =>
    match valueOf payload field with
    | .null => positiveDecimal payload fields
    | raw =>
      match P.finite raw with
      | some value => if 0 ≤ value then some value else none
      | none => none

/-- `_parse_decimal`. -/
def parseDecimal (payload : Fields) (zeroIfEmpty : Bool) : List String → Option ℚ
  | [] => if zeroIfEmpty then some 0 else none
  | field :: fields =>
    match entry payload field with
    | none => parseDecimal payload zeroIfEmpty fields
    | some raw =>
      if raw.isNull || P.strip (P.text raw) = "" then if zeroIfEmpty then some 0 else none
      else P.finite raw

def holdSideOf (normalized : String) : Option Side :=
  if normalized ∈ ["long", "buy"] then some .buy
  else if normalized ∈ ["short", "sell"] then some .sell
  else none

/-- `_canonical_hold_side`. -/
def canonicalHoldSide (value : Json) : Option Side := holdSideOf (P.key value)

/-- `str(v or "").strip().lower()`. -/
def keyOr (v : Json) : String := P.lower (P.strip (P.textOr v))

/-- `_plan_hold_side`. -/
def planHoldSide (plan : Fields) : Option Side :=
  if !(valueOf plan "holdSide").isNull then canonicalHoldSide P (valueOf plan "holdSide")
  else
    let posSide := keyOr P (valueOf plan "posSide")
    if posSide ∈ ["long", "short"] then canonicalHoldSide P (.str posSide)
    else if posSide = "net" ∧ keyOr P (valueOf plan "posMode") = "one_way_mode" then
      -- a stop is an exit : selling closes a long
      let side := keyOr P (valueOf plan "side")
      if side = "sell" then some .buy else if side = "buy" then some .sell else none
    else none

/-- `_plan_type`. -/
def planType (plan : Fields) : String := P.key (firstOf plan ["planType", "type"] (.str ""))

def planStatus (plan : Fields) : String := P.key (firstOf plan ["planStatus", "status"] (.str ""))

/-- `_ACTIVE_PLAN_STATUSES`. -/
def activePlanStatuses : List String :=
  ["active", "in_progress", "in_progress_tracking", "live", "new", "not_triggered", "not_trigger",
    "open", "pending", "waiting"]

/-- `str(row.get("symbol", "")).strip().upper()`. -/
def rowSymbol (row : Fields) : String :=
  P.upper (P.strip (P.text (firstOf row ["symbol"] (.str ""))))

/-- A text of the first field that has one. -/
def firstText (payload : Fields) (fields : List String) : Option String :=
  fields.findSome? fun field =>
    let value := valueOf payload field
    if value.isNull || P.strip (P.text value) = "" then none else some (P.strip (P.text value))

/-- `_plan_order_id`. -/
def planOrderId (plan : Fields) : Option String := firstText P plan ["orderId", "planOrderId", "id"]

def quantityFields : List String := ["total", "size", "quantity"]

/-- The rows of a position answer with their quantities. -/
def positionRows : Json → Option (List (Fields × ℚ))
  | .arr items => items.mapM fun
    | .obj row => (positiveDecimal P row quantityFields).map fun quantity => (row, quantity)
    | _ => none
  | _ => none

def planRows : Json → Option (List Fields)
  | .arr items => items.mapM Json.fields?
  | _ => none

/-- The side a position states. -/
def positionSide (position : Fields) : Option Side :=
  canonicalHoldSide P (firstOf position ["holdSide", "side"] .null)

def positionMarginMode (position : Fields) : String :=
  P.key (firstOf position ["marginMode"] (.str ""))

/-- `"400172" in str(exc)`. -/
def plansUnavailable (text : String) : Bool := "400172".toList <:+: text.toList

/-- What a reader of every element found, it found in one of them. -/
theorem exists_of_mapM {α β : Type*} {f : α → Option β} {b : β} : ∀ {as : List α} {bs : List β},
    as.mapM f = some bs → b ∈ bs → ∃ a ∈ as, f a = some b
  | [], bs, h, hb => by
    obtain rfl : [] = bs := by simpa using h
    simp at hb
  | a :: as, bs, h, hb => by
    simp only [List.mapM_cons, Option.bind_eq_bind, Option.bind_eq_some_iff, Option.pure_def,
      Option.some.injEq] at h
    obtain ⟨b', hb', bs', hbs', rfl⟩ := h
    rcases List.mem_cons.mp hb with rfl | hb
    · exact ⟨a, List.mem_cons_self, hb'⟩
    · obtain ⟨a', ha', hfa⟩ := exists_of_mapM hbs' hb
      exact ⟨a', List.mem_cons_of_mem _ ha', hfa⟩

theorem obj_of_positionRows {items : List Json} {rows : List (Fields × ℚ)} {row : Fields × ℚ}
    (h : positionRows P (.arr items) = some rows) (hrow : row ∈ rows) : .obj row.1 ∈ items := by
  obtain ⟨v, hv, hread⟩ := exists_of_mapM h hrow
  split at hread
  next fields =>
    obtain ⟨q, -, rfl⟩ := Option.map_eq_some_iff.mp hread
    exact hv
  · cases hread

theorem obj_of_planRows {items : List Json} {plans : List Fields} {plan : Fields}
    (h : planRows (.arr items) = some plans) (hplan : plan ∈ plans) : .obj plan ∈ items := by
  obtain ⟨v, hv, hread⟩ := exists_of_mapM h hplan
  rw [Json.fields?_eq_some] at hread
  exact hread ▸ hv

/-! ## The stop of a symbol -/

/-- An active stop of the symbol. A side that is not known is the side of every plan. -/
def isStop (symbol : String) (holdSide : Option Side) (plan : Fields) : Bool :=
  planType P plan = "pos_loss" && rowSymbol P plan = symbol &&
    (holdSide = none || planHoldSide P plan = holdSide) &&
    activePlanStatuses.contains (planStatus P plan)

def stopSize (plan : Fields) : Option ℚ := parseDecimal P plan true ["size"]

def stopTrigger (plan : Fields) : Option ℚ :=
  parseDecimal P plan false ["stopLossTriggerPrice", "triggerPrice"]

/-- `confirm_native_stop_protection`. -/
def confirmNativeStopProtection (readPosition readPendingPlans : Read) (symbol : String)
    (expectedQuantity : ℚ) : ProtectionReport :=
  match readPosition with
  | .error _ => ⟨.failed, 0, some "provider-read-failed"⟩
  | .ok rawPosition =>
    match positionRows P rawPosition with
    | none => ⟨.failed, 0, some "provider-position-invalid"⟩
    | some rows =>
      let expectedSymbol := P.upper (P.strip symbol)
      match rows.filter fun row => 0 < row.2 && rowSymbol P row.1 = expectedSymbol with
      | [(position, observed)] =>
        if positionMarginMode P position ≠ "isolated" then
          ⟨.degraded, observed, some "margin-mode-not-isolated"⟩
        else if observed ≠ expectedQuantity then
          ⟨.degraded, observed, some "position-quantity-mismatch"⟩
        else
          match readPendingPlans with
          | .error text =>
            if plansUnavailable text then ⟨.degraded, observed, some "provider-plans-unavailable"⟩
            else ⟨.failed, observed, some "provider-plans-read-failed"⟩
          | .ok rawPlans =>
            match planRows rawPlans with
            | none => ⟨.failed, observed, some "provider-plans-invalid"⟩
            | some plans =>
              match plans.filter (isStop P expectedSymbol (positionSide P position)) with
              | [] => ⟨.degraded, observed, some "missing-stop-loss"⟩
              | [stop] =>
                if (stopSize P stop).any fun size => size ≠ 0 && size < observed then
                  ⟨.degraded, observed, some "stop-loss-size-does-not-cover-position"⟩
                else if (stopTrigger P stop).any (0 < ·) then ⟨.venueProtected, observed, none⟩
                else ⟨.degraded, observed, some "stop-loss-trigger-unreadable"⟩
              | _ => ⟨.degraded, observed, some "stop-loss-plan-not-unique"⟩
      | _ => ⟨.failed, 0, some "position-not-open"⟩

section Stop

variable {P} {readPosition readPendingPlans : Read} {symbol : String} {expectedQuantity : ℚ}

/-- The answers hold one open position of the symbol, and the plans. -/
structure OnePosition (P : Texts) (readPosition readPendingPlans : Read) (symbol : String)
    (position : Fields) (observed : ℚ) (plans : List Fields) : Prop where
  position : ∃ raw rows, readPosition = .ok raw ∧ positionRows P raw = some rows ∧
    (rows.filter fun row => 0 < row.2 && rowSymbol P row.1 = P.upper (P.strip symbol)) =
      [(position, observed)]
  plans : ∃ raw, readPendingPlans = .ok raw ∧ planRows raw = some plans

/-- What the reader asks of the answers. -/
structure StopAccepted (P : Texts) (readPosition readPendingPlans : Read) (symbol : String)
    (expectedQuantity : ℚ) (position : Fields) (observed : ℚ) (stop : Fields) : Prop where
  answers : ∃ plans, OnePosition P readPosition readPendingPlans symbol position observed plans ∧
    plans.filter (isStop P (P.upper (P.strip symbol)) (positionSide P position)) = [stop]
  isolated : positionMarginMode P position = "isolated"
  quantity : observed = expectedQuantity
  size : ∀ size, stopSize P stop = some size → size = 0 ∨ observed ≤ size
  trigger : ∃ trigger, stopTrigger P stop = some trigger ∧ 0 < trigger

/-- The venue protects the position : one stop of its symbol and of its side is active, and its
size, where zero is the size of the position, covers the position. -/
structure StopProtected (P : Texts) (readPosition readPendingPlans : Read) (symbol : String)
    (position : Fields) (observed : ℚ) (stop : Fields) : Prop where
  answers : ∃ plans side,
    OnePosition P readPosition readPendingPlans symbol position observed plans ∧
      positionSide P position = some side ∧
        plans.filter (isStop P (P.upper (P.strip symbol)) (some side)) = [stop]
  covers : ∃ size, stopSize P stop = some size ∧ (size = 0 ∨ observed ≤ size)

theorem OnePosition.unique {position position' : Fields} {observed observed' : ℚ}
    {plans plans' : List Fields}
    (h : OnePosition P readPosition readPendingPlans symbol position observed plans)
    (h' : OnePosition P readPosition readPendingPlans symbol position' observed' plans') :
    position = position' ∧ observed = observed' ∧ plans = plans' := by
  obtain ⟨⟨raw, rows, rfl, hrows, hopen⟩, rawPlans, rfl, hplans⟩ := h
  obtain ⟨⟨raw', rows', hraw, hrows', hopen'⟩, rawPlans', hrawPlans, hplans'⟩ := h'
  obtain rfl := Except.ok.inj hraw
  obtain rfl := Except.ok.inj hrawPlans
  obtain rfl := Option.some.inj (hrows.symm.trans hrows')
  obtain ⟨rfl, rfl⟩ := Prod.mk.inj (List.cons.inj (hopen.symm.trans hopen')).1
  exact ⟨rfl, rfl, Option.some.inj (hplans.symm.trans hplans')⟩

/-- The reader confirms exactly what it asks for. -/
theorem venueProtected_iff :
    (confirmNativeStopProtection P readPosition readPendingPlans symbol expectedQuantity).state =
        .venueProtected ↔
      ∃ position observed stop, StopAccepted P readPosition readPendingPlans symbol
        expectedQuantity position observed stop := by
  constructor
  · intro h
    unfold confirmNativeStopProtection at h
    split at h
    · cases h
    next rawPosition =>
      split at h
      · cases h
      next rows hrows =>
        dsimp only at h
        split at h
        next position observed hopen =>
          split at h
          · cases h
          next hisolated =>
            split at h
            · cases h
            next hquantity =>
              split at h
              · split at h <;> cases h
              next rawPlans =>
                split at h
                · cases h
                next plans hplans =>
                  split at h
                  · cases h
                  next stop hstop =>
                    split at h
                    · cases h
                    next hsize =>
                      split at h
                      next htrigger =>
                        refine ⟨position, observed, stop, ⟨plans,
                          ⟨⟨_, rows, rfl, hrows, hopen⟩, _, rfl, hplans⟩, hstop⟩,
                          not_not.mp hisolated, not_not.mp hquantity, fun size hs => ?_, ?_⟩
                        · rw [hs] at hsize
                          simp only [Option.any_some, Bool.and_eq_true, decide_eq_true_eq,
                            not_and, not_lt] at hsize
                          by_cases hzero : size = 0
                          · exact Or.inl hzero
                          · exact Or.inr (hsize hzero)
                        · simpa [Option.any_eq_true] using htrigger
                      · cases h
                  · cases h
        · cases h
  · rintro ⟨position, observed, stop, ⟨plans, ⟨⟨raw, rows, rfl, hrows, hopen⟩, rawPlans, rfl,
      hplans⟩, hstop⟩, hisolated, hquantity, hsize, trigger, htrigger, hpos⟩
    have hany : ((stopSize P stop).any fun size => size ≠ 0 && size < observed) = false := by
      cases hs : stopSize P stop with
      | none => rfl
      | some size =>
        rcases hsize size hs with rfl | hle
        · simp
        · simp [not_lt.mpr hle]
    have htrue : (stopTrigger P stop).any (0 < ·) = true := by
      rw [htrigger]
      exact decide_eq_true hpos
    simp only [confirmNativeStopProtection, hrows, hopen, hplans, hstop]
    rw [if_neg (not_not.mpr hisolated), if_neg (not_not.mpr hquantity),
      if_neg (by rw [hany]; exact Bool.false_ne_true), if_pos htrue]

/-- What is confirmed is protected, exactly where every position and every stop the reader would
accept states its side and a size that can be read. -/
theorem stop_confirmed_iff :
    ((confirmNativeStopProtection P readPosition readPendingPlans symbol expectedQuantity).state =
        .venueProtected →
      ∃ position observed stop,
        StopProtected P readPosition readPendingPlans symbol position observed stop) ↔
    ∀ position observed stop,
      StopAccepted P readPosition readPendingPlans symbol expectedQuantity position observed stop →
        (positionSide P position).isSome ∧ (stopSize P stop).isSome := by
  rw [venueProtected_iff]
  constructor
  · intro h position observed stop haccepted
    obtain ⟨position', observed', stop', ⟨plans', side, hone', hside, hstop'⟩, size, hsize, -⟩ :=
      h ⟨position, observed, stop, haccepted⟩
    obtain ⟨plans, hone, hstop⟩ := haccepted.answers
    obtain ⟨rfl, rfl, rfl⟩ := hone.unique hone'
    rw [hside, hstop'] at hstop
    obtain rfl := (List.cons.inj hstop).1
    exact ⟨by rw [hside]; rfl, by rw [hsize]; rfl⟩
  · rintro h ⟨position, observed, stop, haccepted⟩
    obtain ⟨hside, hsize⟩ := h position observed stop haccepted
    obtain ⟨side, hside⟩ := Option.isSome_iff_exists.mp hside
    obtain ⟨size, hsize⟩ := Option.isSome_iff_exists.mp hsize
    obtain ⟨plans, hone, hstop⟩ := haccepted.answers
    exact ⟨position, observed, stop, ⟨plans, side, hone, hside, hside ▸ hstop⟩, size, hsize,
      haccepted.size size hsize⟩

end Stop

/-! ### Two answers that are confirmed -/

/-- A long position that does not say so. -/
def sidelessPosition : Json :=
  .arr [.obj [("symbol", .str "BTCUSDT"), ("total", .str "1"), ("marginMode", .str "isolated")]]

/-- A stop of a side, with a size. -/
def stopPlan (holdSide size : String) : Json :=
  .arr [.obj [("planType", .str "pos_loss"), ("symbol", .str "BTCUSDT"),
    ("holdSide", .str holdSide), ("planStatus", .str "live"), ("size", .str size),
    ("stopLossTriggerPrice", .str "90")]]

def longPosition : Json :=
  .arr [.obj [("symbol", .str "BTCUSDT"), ("total", .str "1"), ("marginMode", .str "isolated"),
    ("holdSide", .str "long")]]

/-- The stop of a short is confirmed for a position without a side, and a stop of no size for a
long. -/
theorem sidelessPosition_confirmed :
    (confirmNativeStopProtection ascii (.ok sidelessPosition) (.ok (stopPlan "short" "0"))
      "BTCUSDT" 1).state = .venueProtected ∧
    (confirmNativeStopProtection ascii (.ok longPosition) (.ok (stopPlan "long" "abc"))
      "BTCUSDT" 1).state = .venueProtected ∧
    (∀ position observed stop, ¬ StopProtected ascii (.ok sidelessPosition)
      (.ok (stopPlan "short" "0")) "BTCUSDT" position observed stop) ∧
    ∀ position observed stop, ¬ StopProtected ascii (.ok longPosition) (.ok (stopPlan "long" "abc"))
      "BTCUSDT" position observed stop := by
  refine ⟨by decide +kernel, by decide +kernel, ?_, ?_⟩
  · rintro position observed stop ⟨⟨plans, side, ⟨⟨raw, rows, hraw, hrows, hopen⟩, -⟩, hside, -⟩, -⟩
    obtain rfl := Except.ok.inj hraw
    have hmem : (position, observed) ∈ rows :=
      List.mem_of_mem_filter (hopen ▸ List.mem_singleton_self _)
    obtain rfl := Json.obj.inj (List.mem_singleton.mp (obj_of_positionRows ascii hrows hmem))
    exact absurd (Option.isSome_iff_exists.mpr ⟨side, hside⟩) (by decide +kernel)
  · rintro position observed stop ⟨⟨plans, side, ⟨-, raw, hraw, hplans⟩, -, hstop⟩, size, hsize, -⟩
    obtain rfl := Except.ok.inj hraw
    have hmem : stop ∈ plans := List.mem_of_mem_filter (hstop ▸ List.mem_singleton_self _)
    obtain rfl := Json.obj.inj (List.mem_singleton.mp (obj_of_planRows hplans hmem))
    exact absurd (Option.isSome_iff_exists.mpr ⟨size, hsize⟩) (by decide +kernel)

end FattyTrader.NativeProtection
