import Mathlib.Algebra.BigOperators.Group.List.Basic
import Mathlib.Algebra.Order.Field.Basic
import Mathlib.Tactic.FieldSimp
import Mathlib.Tactic.Ring

/-!
# Averaged positions

A position is what it cost and how much is held. Positions add up, and the price of a sum is the
average of the prices, each weighted by what is held at it. Whatever is linear in the cost and in
the amount, as a profit with fees on both sides is, adds up with them ; the order of the parts does
not matter, and their average price stays between the lowest and the highest.
-/

set_option autoImplicit false

namespace AveragedLots

/-- What a position cost, and how much is held. -/
@[ext]
structure Exposure (K : Type*) where
  notional : K
  quantity : K

namespace Exposure

section Sums

variable {K : Type*} [AddCommMonoid K]

instance : Zero (Exposure K) := ⟨⟨0, 0⟩⟩

instance : Add (Exposure K) := ⟨fun x y => ⟨x.notional + y.notional, x.quantity + y.quantity⟩⟩

@[simp] theorem notional_zero : (0 : Exposure K).notional = 0 := rfl

@[simp] theorem quantity_zero : (0 : Exposure K).quantity = 0 := rfl

@[simp] theorem notional_add (x y : Exposure K) :
    (x + y).notional = x.notional + y.notional := rfl

@[simp] theorem quantity_add (x y : Exposure K) :
    (x + y).quantity = x.quantity + y.quantity := rfl

instance : AddCommMonoid (Exposure K) where
  add_assoc x y z := by ext <;> simp [add_assoc]
  zero_add x := by ext <;> simp
  add_zero x := by ext <;> simp
  add_comm x y := by ext <;> simp [add_comm]
  nsmul := nsmulRec

end Sums

section Prices

variable {K : Type*} [Field K]

/-- The average price. -/
def price (x : Exposure K) : K := x.notional / x.quantity

/-- So much at this price. -/
def lot (price quantity : K) : Exposure K := ⟨price * quantity, quantity⟩

/-- A position is a single lot at its average price. -/
theorem lot_price {x : Exposure K} (hx : x.quantity ≠ 0) : lot x.price x.quantity = x := by
  ext
  · exact div_mul_cancel₀ x.notional hx
  · rfl

/-- The profit at an exit price, with a fee on what was paid and on what is received. The sign is
that of the side. -/
def profit (sign fee exit : K) : Exposure K →+ K where
  toFun x := sign * (exit * x.quantity - x.notional) - (x.notional + exit * x.quantity) * fee
  map_zero' := by simp
  map_add' x y := by
    simp only [notional_add, quantity_add]
    ring

theorem profit_apply (sign fee exit : K) (x : Exposure K) : profit sign fee exit x =
    sign * (exit * x.quantity - x.notional) - (x.notional + exit * x.quantity) * fee := rfl

theorem profit_lot (sign fee exit p q : K) : profit sign fee exit (lot p q) =
    sign * (exit - p) * q - (p * q + exit * q) * fee := by
  rw [profit_apply, lot]
  ring

/-- The averaged position makes what its lots make. -/
theorem profit_average (sign fee exit : K) {lots : List (Exposure K)}
    (hlots : lots.sum.quantity ≠ 0) :
    profit sign fee exit (lot lots.sum.price lots.sum.quantity) =
      (lots.map (profit sign fee exit)).sum := by
  rw [lot_price hlots, map_list_sum]

end Prices

section Bounds

variable {K : Type*} [Field K] [LinearOrder K] [IsStrictOrderedRing K] {low high : K}

/-- What is held cost something, and no part of it less than `low` or more than `high`. -/
structure Between (low high : K) (x : Exposure K) : Prop where
  quantity_pos : 0 < x.quantity
  low_le : low * x.quantity ≤ x.notional
  le_high : x.notional ≤ high * x.quantity

theorem between_lot {p q : K} (hq : 0 < q) (hlow : low ≤ p) (hhigh : p ≤ high) :
    Between low high (lot p q) where
  quantity_pos := hq
  low_le := mul_le_mul_of_nonneg_right hlow hq.le
  le_high := mul_le_mul_of_nonneg_right hhigh hq.le

theorem Between.add {x y : Exposure K} (hx : Between low high x) (hy : Between low high y) :
    Between low high (x + y) where
  quantity_pos := add_pos hx.quantity_pos hy.quantity_pos
  low_le := by
    rw [quantity_add, notional_add, mul_add]
    exact add_le_add hx.low_le hy.low_le
  le_high := by
    rw [quantity_add, notional_add, mul_add]
    exact add_le_add hx.le_high hy.le_high

theorem between_sum : ∀ {lots : List (Exposure K)}, lots ≠ [] →
    (∀ x ∈ lots, Between low high x) → Between low high lots.sum
  | [x], _, h => by
    rw [List.sum_singleton]
    exact h x List.mem_cons_self
  | x :: y :: lots, _, h => by
    rw [List.sum_cons]
    exact (h x List.mem_cons_self).add
      (between_sum (List.cons_ne_nil _ _) fun z hz => h z (List.mem_cons_of_mem _ hz))

/-- The average price stays between the prices. -/
theorem Between.price {x : Exposure K} (h : Between low high x) :
    low ≤ x.price ∧ x.price ≤ high :=
  ⟨(le_div_iff₀ h.quantity_pos).mpr h.low_le, (div_le_iff₀ h.quantity_pos).mpr h.le_high⟩

end Bounds

end Exposure

end AveragedLots
