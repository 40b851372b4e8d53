import FattyTrader.Tables
import Mathlib.Data.Int.Basic
import Mathlib.Data.List.Nodup

/-!
# Queues whose rows are claimed under a lease

A worker claims rows of a `Queue` under a `Lease`, which has a holder and an end, and each claim
counts as an attempt. A row is due again once its lease has ended. Only the holder of a row may
settle it : as sent, as failed, or for a later attempt.

`Kept` is the invariant of such a queue with a budget of attempts. A row that is claimed is owed by
a claim, a row that waits has attempts left, and no row has more than the budget. A claim keeps it
where no lease of a last attempt has ended before its row was settled (`Live`, `Kept.claim`), and a
settlement keeps it where the claim owed has attempts left for a retry (`Kept.settle`).
-/

set_option linter.unusedSectionVars false

open Tables

namespace Leases

variable {κ π τ : Type} [DecidableEq κ] [DecidableEq τ]

/-! ## Rows -/

/-- Who holds a row, and until when. -/
structure Lease (τ : Type) where
  holder : τ
  ends : ℤ
deriving DecidableEq

/-- How a row ended, and when. -/
inductive Outcome
  | sent (time : ℤ)
  | failed (time : ℤ)
deriving DecidableEq

structure Row (κ π τ : Type) where
  key : κ
  payload : π
  attempts : ℕ := 0
  nextAttempt : Option ℤ := none
  claimed : Option (Lease τ) := none
  settled : Option Outcome := none
  lastError : Option String := none

namespace Row

variable (r : Row κ π τ)

/-- Open, not before its next attempt, and not under a lease that holds. -/
def due (now : ℤ) : Bool :=
  r.settled.isNone && r.nextAttempt.all (· ≤ now) && r.claimed.all (·.ends ≤ now)

def claim (lease : Lease τ) : Row κ π τ :=
  { r with claimed := some lease, attempts := r.attempts + 1 }

/-- Open, and claimed by this holder. -/
def heldBy (holder : τ) : Bool :=
  r.claimed.any (·.holder = holder) && r.settled.isNone

/-- A row that is due is open, and its lease has ended. -/
theorem ended_of_due {r : Row κ π τ} {now : ℤ} (h : r.due now = true) :
    r.settled = none ∧ ∀ lease, r.claimed = some lease → lease.ends ≤ now := by
  simp only [Row.due, Bool.and_eq_true, Option.isNone_iff_eq_none, Option.all_eq_true,
    decide_eq_true_eq] at h
  exact ⟨h.1.1, h.2⟩

end Row

/-- What a holder does to its row. -/
inductive Settlement
  | sent (now : ℤ)
  | retry (next : ℤ) (error : Option String)
  | failed (now : ℤ) (error : Option String)

def Settlement.apply (r : Row κ π τ) : Settlement → Row κ π τ
  | .sent now => { r with settled := some (.sent now), claimed := none, lastError := none }
  | .retry next error => { r with nextAttempt := some next, claimed := none, lastError := error }
  | .failed now error =>
    { r with settled := some (.failed now), claimed := none, lastError := error }

def Settlement.isRetry : Settlement → Bool
  | .retry _ _ => true
  | _ => false

section Settlement

variable (s : Settlement) (r : Row κ π τ)

@[simp] theorem Settlement.key_apply : (s.apply r).key = r.key := by cases s <;> rfl

@[simp] theorem Settlement.payload_apply : (s.apply r).payload = r.payload := by cases s <;> rfl

@[simp] theorem Settlement.attempts_apply : (s.apply r).attempts = r.attempts := by cases s <;> rfl

@[simp] theorem Settlement.claimed_apply : (s.apply r).claimed = none := by cases s <;> rfl

/-- Only a retry leaves a row open. -/
theorem Settlement.settled_apply (h : (s.apply r).settled = none) :
    s.isRetry = true ∧ r.settled = none := by
  cases s with
  | retry next error => exact ⟨rfl, h⟩
  | sent now => cases h
  | failed now error => cases h

end Settlement

/-! ## Queues -/

abbrev Queue (κ π τ : Type) := Table (Row κ π τ) (SameKey Row.key)

namespace Queue

variable (q : Queue κ π τ)

/-- The rows a claim gets : the first ones that are due and not locked by another statement. -/
def picks (now : ℤ) (locked : κ → Bool) (limit : ℕ) : List (Row κ π τ) :=
  (q.rows.filter fun r => r.due now && !locked r.key).take limit

/-- Claim the rows with these keys. -/
def claim (keys : List κ) (lease : Lease τ) : Queue κ π τ :=
  q.rewrite (fun r => if r.key ∈ keys then r.claim lease else r) fun a b h => by
    dsimp only [SameKey] at h
    split at h <;> split at h <;> exact h

/-- A settlement with the token of the holder, and whether a row was held. -/
def settle (key : κ) (holder : τ) (s : Settlement) : Bool × Queue κ π τ :=
  (q.rows.any fun r => r.key = key && r.heldBy holder,
    q.rewrite (fun r => if r.key = key && r.heldBy holder then s.apply r else r) fun a b h => by
      dsimp only [SameKey] at h
      split at h <;> split at h <;> simpa [SameKey] using h)

variable {q} {now : ℤ} {locked : κ → Bool} {limit : ℕ} {keys : List κ} {lease : Lease τ} {key : κ}
  {holder : τ} {s : Settlement} {r x : Row κ π τ}

theorem mem_of_picks (h : r ∈ q.picks now locked limit) : r ∈ q ∧ r.due now = true := by
  have hr := List.mem_of_mem_take h
  simp only [List.mem_filter, Bool.and_eq_true] at hr
  exact ⟨hr.1, hr.2.1⟩

theorem nodup_picks : ((q.picks now locked limit).map Row.key).Nodup :=
  List.pairwise_map.mpr (((q.unique.filter _).sublist (List.take_sublist _ _)).imp fun h => h)

theorem mem_claim : x ∈ q.claim keys lease ↔
    ∃ r ∈ q, (if r.key ∈ keys then r.claim lease else r) = x :=
  Table.mem_rewrite

theorem mem_settle : x ∈ (q.settle key holder s).2 ↔
    ∃ r ∈ q, (if r.key = key && r.heldBy holder then s.apply r else r) = x := by
  simp only [settle]
  exact Table.mem_rewrite

/-- A claim leaves the other rows alone. -/
theorem mem_claim_of_not_mem (hr : r ∈ q) (lease : Lease τ) (h : r.key ∉ keys) : r ∈ q.claim keys lease :=
  mem_claim.mpr ⟨r, hr, if_neg h⟩

/-- And a settlement all rows but the one its holder has. -/
theorem mem_settle_or (hr : r ∈ q) (key : κ) (holder : τ) (s : Settlement) :
    r ∈ (q.settle key holder s).2 ∨
    r.key = key ∧ r.heldBy holder = true ∧ s.apply r ∈ (q.settle key holder s).2 := by
  by_cases h : (r.key = key && r.heldBy holder) = true
  · have hheld := h
    simp only [Bool.and_eq_true, decide_eq_true_eq] at hheld
    exact Or.inr ⟨hheld.1, hheld.2, mem_settle.mpr ⟨r, hr, if_pos h⟩⟩
  · exact Or.inl (mem_settle.mpr ⟨r, hr, if_neg h⟩)

end Queue

/-! ## The invariant -/

/-- No row has more attempts than the budget, a row that waits has one left, and a row that is
claimed is owed by a claim, with the attempts it counted. -/
structure Kept (budget : ℕ) (owed : κ → Lease τ → ℕ → Prop) (q : Queue κ π τ) : Prop where
  attempts : ∀ r ∈ q, r.attempts ≤ budget
  free : ∀ r ∈ q, r.settled = none → r.claimed = none → r.attempts < budget
  owed : ∀ r ∈ q, r.settled = none → ∀ lease, r.claimed = some lease →
    owed r.key lease r.attempts

/-- The leases on open rows with at least so many attempts still hold. -/
def Live (least : ℕ) (now : ℤ) (q : Queue κ π τ) : Prop :=
  ∀ r ∈ q, r.settled = none → ∀ lease, r.claimed = some lease → least ≤ r.attempts →
    now < lease.ends

section Live

variable {now : ℤ} {least least' : ℕ} {q : Queue κ π τ}

theorem Live.mono (h : Live least now q) (hle : least ≤ least') : Live least' now q :=
  fun r hr hopen l hl hmany => h r hr hopen l hl (Nat.le_trans hle hmany)

theorem Live.claim {keys : List κ} {lease : Lease τ} (h : Live least now q) (hends : now < lease.ends) :
    Live least now (q.claim keys lease) := by
  intro x hx hopen l hl hmany
  obtain ⟨r, hr, rfl⟩ := Queue.mem_claim.mp hx
  by_cases hk : r.key ∈ keys
  · rw [if_pos hk] at hl
    obtain rfl := Option.some.inj hl
    exact hends
  · rw [if_neg hk] at hopen hl hmany
    exact h r hr hopen l hl hmany

theorem Live.settle {key : κ} {holder : τ} {s : Settlement} (h : Live least now q) :
    Live least now (q.settle key holder s).2 := by
  intro x hx hopen l hl hmany
  obtain ⟨r, hr, rfl⟩ := Queue.mem_settle.mp hx
  by_cases hk : (r.key = key && r.heldBy holder) = true
  · rw [if_pos hk, Settlement.claimed_apply] at hl
    cases hl
  · rw [if_neg hk] at hopen hl hmany
    exact h r hr hopen l hl hmany

theorem Live.insertNew (h : Live least now q) (key : κ) (payload : π) :
    Live least now (q.insertNew { key, payload }) := by
  intro r hr hopen l hl
  rcases Table.mem_insertNew hr with hr | rfl
  · exact h r hr hopen l hl
  · cases hl

/-- Where every lease on an open row still holds, a row that is due waits. -/
theorem Live.claimed_of_due (h : Live 0 now q) {r : Row κ π τ} (hr : r ∈ q) (hdue : r.due now = true) :
    r.claimed = none := by
  obtain ⟨hopen, hends⟩ := Row.ended_of_due hdue
  cases hclaimed : r.claimed with
  | none => rfl
  | some l => exact absurd (hends l hclaimed) (Int.not_le.mpr (h r hr hopen l hclaimed (Nat.zero_le _)))

end Live

namespace Kept

variable {budget : ℕ} {owed owed' : κ → Lease τ → ℕ → Prop} {q : Queue κ π τ} {keys : List κ}
  {lease : Lease τ} {now : ℤ} {key : κ} {holder : τ} {s : Settlement}

theorem mono (h : Kept budget owed q) (howed : ∀ k l n, owed k l n → owed' k l n) :
    Kept budget owed' q :=
  ⟨h.attempts, h.free, fun r hr hopen l hl => howed _ _ _ (h.owed r hr hopen l hl)⟩

/-- Where the leases of last attempts still hold, a row that is due has attempts left. -/
theorem attempts_of_due (h : Kept budget owed q) (hlive : Live budget now q) {r : Row κ π τ}
    (hr : r ∈ q) (hdue : r.due now = true) : r.attempts < budget := by
  obtain ⟨hopen, hends⟩ := Row.ended_of_due hdue
  cases hclaimed : r.claimed with
  | none => exact h.free r hr hopen hclaimed
  | some l =>
    by_contra hmany
    exact absurd (hends l hclaimed)
      (Int.not_le.mpr (hlive r hr hopen l hclaimed (Nat.not_lt.mp hmany)))

/-- A claim of rows that are due. -/
theorem claim (h : Kept budget owed q) (hlive : Live budget now q)
    (hdue : ∀ k ∈ keys, ∀ r ∈ q, r.key = k → r.due now = true)
    (hkeep : ∀ k l n, k ∉ keys → owed k l n → owed' k l n)
    (hnew : ∀ r ∈ q, r.key ∈ keys → owed' r.key lease (r.attempts + 1)) :
    Kept budget owed' (q.claim keys lease) := by
  refine ⟨fun x hx => ?_, fun x hx hopen hclaimed => ?_, fun x hx hopen l hl => ?_⟩
  all_goals
    obtain ⟨r, hr, rfl⟩ := Queue.mem_claim.mp hx
    by_cases hk : r.key ∈ keys
  · rw [if_pos hk]
    exact h.attempts_of_due hlive hr (hdue _ hk r hr rfl)
  · rw [if_neg hk]
    exact h.attempts r hr
  · rw [if_pos hk] at hclaimed
    cases hclaimed
  · rw [if_neg hk] at hopen hclaimed ⊢
    exact h.free r hr hopen hclaimed
  · rw [if_pos hk] at hl ⊢
    obtain rfl := Option.some.inj hl
    exact hnew r hr hk
  · rw [if_neg hk] at hopen hl ⊢
    exact hkeep _ _ _ hk (h.owed r hr hopen l hl)

/-- A settlement of the claim that is owed. -/
theorem settle (h : Kept budget owed q)
    (hretry : ∀ l n, owed key l n → l.holder = holder → s.isRetry = true → n < budget)
    (hkeep : ∀ k l n, owed k l n → ¬ (k = key ∧ l.holder = holder) → owed' k l n) :
    Kept budget owed' (q.settle key holder s).2 := by
  refine ⟨fun x hx => ?_, fun x hx hopen hclaimed => ?_, fun x hx hopen l hl => ?_⟩
  all_goals
    obtain ⟨r, hr, rfl⟩ := Queue.mem_settle.mp hx
    by_cases hk : (r.key = key && r.heldBy holder) = true
  · rw [if_pos hk, Settlement.attempts_apply]
    exact h.attempts r hr
  · rw [if_neg hk]
    exact h.attempts r hr
  · rw [if_pos hk] at hopen ⊢
    obtain ⟨hretry', hopen'⟩ := Settlement.settled_apply s r hopen
    simp only [Bool.and_eq_true, decide_eq_true_eq, Row.heldBy, Option.any_eq_true] at hk
    obtain ⟨rfl, ⟨l, hl, hholder⟩, -⟩ := hk
    rw [Settlement.attempts_apply]
    exact hretry l _ (h.owed r hr hopen' l hl) hholder hretry'
  · rw [if_neg hk] at hopen hclaimed ⊢
    exact h.free r hr hopen hclaimed
  · rw [if_pos hk, Settlement.claimed_apply] at hl
    cases hl
  · rw [if_neg hk] at hopen hl ⊢
    refine hkeep _ _ _ (h.owed r hr hopen l hl) ?_
    rintro ⟨rfl, rfl⟩
    simp [Row.heldBy, hl, hopen] at hk

/-- A new row. -/
theorem insertNew (h : Kept budget owed q) (hbudget : 0 < budget) (key : κ) (payload : π) :
    Kept budget owed (q.insertNew { key, payload }) := by
  refine ⟨fun r hr => ?_, fun r hr hopen hclaimed => ?_, fun r hr hopen l hl => ?_⟩
  all_goals rcases Table.mem_insertNew hr with hr | rfl
  · exact h.attempts r hr
  · exact Nat.zero_le _
  · exact h.free r hr hopen hclaimed
  · exact hbudget
  · exact h.owed r hr hopen l hl
  · cases hl

end Kept

end Leases
