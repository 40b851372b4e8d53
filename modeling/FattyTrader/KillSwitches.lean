import Mathlib.Logic.Function.Basic
import FattyTrader.Ledger

/-!
# The kill switches

`venue_kill_switches` keeps one row a scope. A latch overwrites the stored reason, also
while the switch is active, and a release names its approval reference. Next to the rows
the model keeps every latch and release that was applied, newest first (`writes`) ; no
operation reads it. `latchedSince` is the list of the reasons a scope was latched with
since it was last inactive, and `Switches.Consistent` ties the rows to it : an inactive
scope has none, and the stored reason of an active one is the newest.
-/

namespace FattyTrader

/-! ## The table -/

structure KillSwitchRow where
  active : Bool
  reason : String
  latchedAt : Option Instant
  updatedAt : Instant
deriving DecidableEq, Repr

def KillSwitchRow.released (row : KillSwitchRow) (approvalReference : String)
    (now : Instant) : KillSwitchRow :=
  { row with
    active := false
    reason := "released:" ++ strip approvalReference
    updatedAt := now }

/-- A latch or a release of a scope that was applied. -/
inductive KillSwitchWrite
  | latched (scope reason : String)
  | released (scope approvalReference : String)
deriving DecidableEq, Repr

structure Switches where
  rows : String → Option KillSwitchRow
  writes : List KillSwitchWrite

inductive StorageError
  | valueError (text : String)
  | lookupError (text : String)
  | connection
deriving DecidableEq, Repr

/-- The reasons a scope was latched with since it was last inactive, newest first. -/
def latchedSince (scope : String) : List KillSwitchWrite → List String
  | [] => []
  | .latched scope' reason :: ws =>
    if scope' = scope then reason :: latchedSince scope ws else latchedSince scope ws
  | .released scope' _ :: ws => if scope' = scope then [] else latchedSince scope ws

namespace Switches

variable (s : Switches)

def killSwitchActive (scope : String) : Bool :=
  match s.rows scope with
  | some row => row.active
  | none => false

def killSwitchReason (scope : String) : Option String :=
  match s.rows scope with
  | some row => if row.active then some row.reason else none
  | none => none

/-- `INSERT … ON CONFLICT (scope) DO UPDATE`. -/
def latchedRow (scope reason : String) (now : Instant) : KillSwitchRow :=
  { active := true
    reason := reason
    latchedAt :=
      match s.rows scope with
      | some row => if row.active then some (row.latchedAt.getD now) else some now
      | none => some now
    updatedAt := now }

def latchKillSwitch (scope reason : String) (now : Instant) : Switches :=
  { rows := Function.update s.rows scope (some (s.latchedRow scope reason now))
    writes := .latched scope reason :: s.writes }

def releaseKillSwitch (scope approvalReference : String) (now : Instant) :
    Except StorageError Switches :=
  if strip approvalReference = "" then .error (.valueError "approval reference is required")
  else match s.rows scope with
    | none => .error (.lookupError ("kill switch not found: " ++ scope))
    | some row => .ok
      { rows := Function.update s.rows scope
          (some (row.released approvalReference now))
        writes := .released scope approvalReference :: s.writes }

/-- No scope was ever latched. -/
def empty : Switches := ⟨fun _ => none, []⟩

/-! ## What the rows say about the writes -/

/-- An inactive scope has no latch since, and the stored reason of an active one is that of
its newest latch. -/
def Consistent : Prop :=
  ∀ scope, match s.killSwitchReason scope with
    | none => latchedSince scope s.writes = []
    | some reason => ∃ rs, latchedSince scope s.writes = reason :: rs

variable {s} {scope scope' reason ref : String} {now : Instant}

theorem consistent_empty : empty.Consistent := by
  intro scope
  rfl

@[simp] theorem latch_reason_self :
    (s.latchKillSwitch scope reason now).killSwitchReason scope = some reason := by
  simp [latchKillSwitch, killSwitchReason, latchedRow]

theorem latch_reason_ne (h : scope' ≠ scope) :
    (s.latchKillSwitch scope reason now).killSwitchReason scope' =
      s.killSwitchReason scope' := by
  simp [latchKillSwitch, killSwitchReason, Function.update_of_ne h]

@[simp] theorem latch_since_self :
    latchedSince scope (s.latchKillSwitch scope reason now).writes =
      reason :: latchedSince scope s.writes := by
  simp [latchKillSwitch, latchedSince]

theorem latch_since_ne (h : scope' ≠ scope) :
    latchedSince scope' (s.latchKillSwitch scope reason now).writes =
      latchedSince scope' s.writes := by
  simp [latchKillSwitch, latchedSince, Ne.symm h]

/-- What a release that is applied does. -/
theorem release_ok {s' : Switches} (h : s.releaseKillSwitch scope ref now = .ok s') :
    s'.killSwitchReason scope = none ∧ latchedSince scope s'.writes = [] ∧
      ∀ scope', scope' ≠ scope → s'.killSwitchReason scope' = s.killSwitchReason scope' ∧
        latchedSince scope' s'.writes = latchedSince scope' s.writes := by
  unfold releaseKillSwitch at h
  split at h
  · cases h
  split at h
  · cases h
  obtain rfl := Except.ok.inj h
  refine ⟨by simp [killSwitchReason, KillSwitchRow.released], by simp [latchedSince], ?_⟩
  intro scope' hne
  refine ⟨by simp [killSwitchReason, Function.update_of_ne hne], ?_⟩
  simp [latchedSince, Ne.symm hne]

theorem consistent_latch (h : s.Consistent) :
    (s.latchKillSwitch scope reason now).Consistent := by
  intro scope'
  by_cases hne : scope' = scope
  · subst hne
    rw [latch_reason_self, latch_since_self]
    exact ⟨_, rfl⟩
  · rw [latch_reason_ne hne, latch_since_ne hne]
    exact h scope'

theorem consistent_release {s' : Switches} (h : s.Consistent)
    (hrel : s.releaseKillSwitch scope ref now = .ok s') : s'.Consistent := by
  obtain ⟨hreason, hsince, hother⟩ := release_ok hrel
  intro scope'
  by_cases hne : scope' = scope
  · subst hne
    rw [hreason]
    exact hsince
  · obtain ⟨hr, hs⟩ := hother scope' hne
    rw [hr, hs]
    exact h scope'

end Switches

end FattyTrader
