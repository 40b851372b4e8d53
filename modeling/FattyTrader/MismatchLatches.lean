import FattyTrader.Monitor
import FattyTrader.Runs
import Mathlib.Data.Finset.Basic

/-!
# Post-fill mismatches, latches and releases

A recorded post-fill mismatch is unhandled until the switch of its scope is released
(`mismatchSinceRelease`). The Postgres repository derives this from two tables : a mismatch
is unhandled while it is newer than the `updated_at` of the switch, which a release bumps, and
a latch too. The in-memory repository keeps the set of the scopes with an unhandled mismatch,
and a latch leaves it alone.

`repositoryStep` gives one operation to both repositories, at a later instant than the one
before. They agree, and with them the list of the applied operations, throughout a run exactly
when no operation of it `Hides` a mismatch (`mismatch_unhandled_iff`).
-/

namespace FattyTrader

open Runs

/-! ## The operations -/

/-- What callers do to the store of a scope. -/
inductive RepositoryOp
  | recordPostFillMismatch (scope : String)
  | latchKillSwitch (scope reason : String)
  | releaseKillSwitch (scope approvalReference : String)
deriving DecidableEq

/-- Some mismatch of the scope was recorded after its last release. Newest operation first. -/
def mismatchSinceRelease (scope : String) : List RepositoryOp → Bool
  | [] => false
  | .recordPostFillMismatch scope' :: ops =>
    if scope' = scope then true else mismatchSinceRelease scope ops
  | .latchKillSwitch _ _ :: ops => mismatchSinceRelease scope ops
  | .releaseKillSwitch scope' _ :: ops =>
    if scope' = scope then false else mismatchSinceRelease scope ops

/-! ## The in-memory repository -/

structure InMemoryReconciliationRepository where
  killSwitches : Finset String
  killReasons : String → Option String
  alertKeys : Finset (String × String)
  unhandledMismatches : Finset String
  alerts : List String

namespace InMemoryReconciliationRepository

variable (r : InMemoryReconciliationRepository)

def killSwitchActive (scope : String) : Bool := decide (scope ∈ r.killSwitches)

def killSwitchReason (scope : String) : Option String :=
  if r.killSwitchActive scope then r.killReasons scope else none

def latchKillSwitch (scope reason : String) : InMemoryReconciliationRepository :=
  { r with
    killSwitches := insert scope r.killSwitches
    killReasons := Function.update r.killReasons scope (some reason)
    alertKeys := insert (scope, reason) r.alertKeys
    alerts := if (scope, reason) ∈ r.alertKeys then r.alerts else r.alerts ++ [reason] }

def releaseKillSwitch (scope approvalReference : String) :
    Except StorageError InMemoryReconciliationRepository :=
  if strip approvalReference = "" then .error (.valueError "approval reference is required")
  else .ok
    { r with
      killSwitches := r.killSwitches.erase scope
      unhandledMismatches := r.unhandledMismatches.erase scope }

def hasUnhandledPostFillMismatch (scope : String) : Bool :=
  decide (scope ∈ r.unhandledMismatches)

def recordPostFillMismatch (scope : String) : InMemoryReconciliationRepository :=
  { r with unhandledMismatches := insert scope r.unhandledMismatches }

def empty : InMemoryReconciliationRepository := ⟨∅, fun _ => none, ∅, ∅, []⟩

/-- One operation ; one that raises changes nothing. -/
def step : RepositoryOp → InMemoryReconciliationRepository
  | .recordPostFillMismatch scope => r.recordPostFillMismatch scope
  | .latchKillSwitch scope reason => r.latchKillSwitch scope reason
  | .releaseKillSwitch scope ref =>
    match r.releaseKillSwitch scope ref with
    | .ok r' => r'
    | .error _ => r

end InMemoryReconciliationRepository

/-! ## The Postgres repository -/

namespace MonitorWorld

variable (w : MonitorWorld)

/-- One operation at the instant `now`, refused where it raises. -/
def step (now : Instant) : RepositoryOp → Except StorageError MonitorWorld
  | .recordPostFillMismatch scope => .ok { w with mismatches := ⟨scope, now⟩ :: w.mismatches }
  | .latchKillSwitch scope reason =>
    .ok { w with switches := w.switches.latchKillSwitch scope reason now }
  | .releaseKillSwitch scope ref =>
    match w.switches.releaseKillSwitch scope ref now with
    | .ok switches => .ok { w with switches := switches }
    | .error e => .error e

/-- No row and no mismatch is newer than the clock. -/
structure Past (clock : Instant) : Prop where
  rows : ∀ scope row, w.switches.rows scope = some row → row.updatedAt ≤ clock
  mismatches : ∀ mismatch ∈ w.mismatches, mismatch.createdAt ≤ clock

variable {w} {clock now : Instant} {scope scope' reason ref : String}

/-- The predicate reads only the row of the scope and the mismatches of the scope. -/
theorem hasUnhandled_congr {w' : MonitorWorld}
    (hrows : w'.switches.rows scope = w.switches.rows scope)
    (hmis : ∀ mismatch, mismatch.exchange = scope →
      (mismatch ∈ w'.mismatches ↔ mismatch ∈ w.mismatches)) :
    w'.hasUnhandledPostFillMismatch scope = w.hasUnhandledPostFillMismatch scope := by
  rw [Bool.eq_iff_iff]
  simp only [hasUnhandledPostFillMismatch, hrows, List.any_eq_true, Bool.and_eq_true, beq_iff_eq]
  constructor <;> rintro ⟨mismatch, hmem, hex, hnew⟩
  · exact ⟨mismatch, (hmis mismatch hex).mp hmem, hex, hnew⟩
  · exact ⟨mismatch, (hmis mismatch hex).mpr hmem, hex, hnew⟩

/-- A mismatch later than the clock is unhandled. -/
theorem hasUnhandled_record (h : w.Past clock) (h0 : 0 ≤ clock) (hnow : clock < now) :
    ({ w with mismatches := ⟨scope, now⟩ :: w.mismatches } :
      MonitorWorld).hasUnhandledPostFillMismatch scope = true := by
  simp only [hasUnhandledPostFillMismatch, List.any_cons, beq_self_eq_true, Bool.true_and,
    Bool.or_eq_true]
  left
  cases hrow : w.switches.rows scope with
  | none =>
    have : (0 : ℤ) < now := lt_of_le_of_lt h0 hnow
    simpa [hrow] using this
  | some row =>
    have := h.rows scope row hrow
    simpa [hrow] using lt_of_le_of_lt this hnow

/-- Behind a row written later than the clock, no mismatch is unhandled. -/
theorem hasUnhandled_written {w' : MonitorWorld} {row : KillSwitchRow} (h : w.Past clock)
    (hnow : clock < now) (hrow : w'.switches.rows scope = some row) (hup : row.updatedAt = now)
    (hmis : w'.mismatches = w.mismatches) :
    w'.hasUnhandledPostFillMismatch scope = false := by
  simp only [hasUnhandledPostFillMismatch, hrow, hup, hmis, List.any_eq_false,
    Bool.and_eq_true, decide_eq_true_eq, not_and, not_lt]
  intro mismatch hmem _
  exact le_trans (h.mismatches mismatch hmem) (le_of_lt hnow)

theorem Past.step {w' : MonitorWorld} {op : RepositoryOp} (h : w.Past clock)
    (hnow : clock < now) (hstep : w.step now op = .ok w') : w'.Past now := by
  have hlate : w.Past now :=
    ⟨fun s row hrow => le_trans (h.rows s row hrow) (le_of_lt hnow),
      fun m hm => le_trans (h.mismatches m hm) (le_of_lt hnow)⟩
  -- a row is an old one, or was written now
  have hupdate : ∀ (s : String) (row : KillSwitchRow), row.updatedAt = now →
      ∀ scope row', Function.update w.switches.rows s (some row) scope = some row' →
        row'.updatedAt ≤ now := by
    intro s row hrow scope row' hrow'
    by_cases hs : scope = s
    · subst hs
      obtain rfl : row = row' := by simpa using hrow'
      exact le_of_eq hrow
    · rw [Function.update_of_ne hs] at hrow'
      exact hlate.rows scope row' hrow'
  cases op with
  | recordPostFillMismatch scope =>
    obtain rfl := Except.ok.inj hstep
    refine ⟨hlate.rows, ?_⟩
    intro m hm
    rcases List.mem_cons.mp hm with rfl | hm
    · exact le_refl _
    · exact hlate.mismatches m hm
  | latchKillSwitch scope reason =>
    obtain rfl := Except.ok.inj hstep
    exact ⟨hupdate scope _ rfl, hlate.mismatches⟩
  | releaseKillSwitch scope ref =>
    simp only [MonitorWorld.step, Switches.releaseKillSwitch] at hstep
    by_cases href : strip ref = ""
    · simp [href] at hstep
    rw [if_neg href] at hstep
    cases hrow : w.switches.rows scope with
    | none => simp [hrow] at hstep
    | some row =>
      simp only [hrow] at hstep
      obtain rfl := Except.ok.inj hstep
      exact ⟨hupdate scope _ rfl, hlate.mismatches⟩

end MonitorWorld

/-! ## Both repositories -/

/-- Both repositories after the same operations, with the operations Postgres applied. -/
structure RepositoryRun where
  clock : Instant
  postgres : MonitorWorld
  inMemory : InMemoryReconciliationRepository
  applied : List RepositoryOp

namespace RepositoryRun

variable (s : RepositoryRun)

def fresh : RepositoryRun := ⟨0, ⟨.empty, []⟩, .empty, []⟩

/-- An operation, `elapsed + 1` microseconds after the one before. -/
def repositoryStep (l : RepositoryOp × ℕ) : RepositoryRun :=
  let now := s.clock + l.2 + 1
  match s.postgres.step now l.1 with
  | .ok postgres => ⟨now, postgres, s.inMemory.step l.1, l.1 :: s.applied⟩
  | .error _ => { s with clock := now, inMemory := s.inMemory.step l.1 }

/-- What the repositories should answer about a scope, and that they give one answer. -/
structure Agrees (scope : String) : Prop where
  postgres : s.postgres.hasUnhandledPostFillMismatch scope =
    mismatchSinceRelease scope s.applied
  inMemory : s.inMemory.hasUnhandledPostFillMismatch scope =
    s.postgres.hasUnhandledPostFillMismatch scope
  active : s.inMemory.killSwitchActive scope = s.postgres.switches.killSwitchActive scope
  reason : s.inMemory.killSwitchReason scope = s.postgres.switches.killSwitchReason scope

/-- The operation meets an unhandled mismatch of the scope and is a latch, or a release of a
scope that has no switch. -/
def Hides (scope : String) (l : RepositoryOp × ℕ) : Prop :=
  mismatchSinceRelease scope s.applied = true ∧
    match l.1 with
    | .recordPostFillMismatch _ => False
    | .latchKillSwitch scope' _ => scope' = scope
    | .releaseKillSwitch scope' ref =>
      scope' = scope ∧ strip ref ≠ "" ∧ s.postgres.switches.rows scope = none

/-- What the clock bounds : every row and every mismatch, and itself the epoch. -/
structure Timed : Prop where
  epoch : 0 ≤ s.clock
  past : s.postgres.Past s.clock

/-! ## One step -/

variable {s} {scope : String}

theorem lt_later (clock : ℤ) (elapsed : ℕ) : clock < clock + elapsed + 1 := by omega

theorem timed_fresh : fresh.Timed := by
  refine ⟨le_refl _, ⟨?_, ?_⟩⟩
  · intro scope row h
    simp [fresh, Switches.empty] at h
  · intro m hm
    simp [fresh] at hm

theorem agrees_fresh : fresh.Agrees scope := ⟨rfl, rfl, rfl, rfl⟩

theorem repositoryStep_ok {l : RepositoryOp × ℕ} {w : MonitorWorld}
    (h : s.postgres.step (s.clock + l.2 + 1) l.1 = .ok w) :
    s.repositoryStep l = ⟨s.clock + l.2 + 1, w, s.inMemory.step l.1, l.1 :: s.applied⟩ := by
  unfold repositoryStep
  simp only [h]

theorem repositoryStep_error {l : RepositoryOp × ℕ} {e : StorageError}
    (h : s.postgres.step (s.clock + l.2 + 1) l.1 = .error e) :
    s.repositoryStep l =
      { s with clock := s.clock + l.2 + 1, inMemory := s.inMemory.step l.1 } := by
  unfold repositoryStep
  simp only [h]

theorem Timed.step (h : s.Timed) (l : RepositoryOp × ℕ) : (s.repositoryStep l).Timed := by
  have hnow : s.clock < s.clock + l.2 + 1 := lt_later s.clock l.2
  have hpos : 0 ≤ s.clock + l.2 + 1 := le_trans h.epoch (le_of_lt hnow)
  cases hstep : s.postgres.step (s.clock + l.2 + 1) l.1 with
  | ok w =>
    rw [repositoryStep_ok hstep]
    exact ⟨hpos, h.past.step hnow hstep⟩
  | error e =>
    rw [repositoryStep_error hstep]
    refine ⟨hpos, ⟨?_, ?_⟩⟩
    · exact fun s' row hrow => le_trans (h.past.rows s' row hrow) (le_of_lt hnow)
    · exact fun m hm => le_trans (h.past.mismatches m hm) (le_of_lt hnow)

/-- The four answers about a scope stay as they are where its rows, its mismatches and its
part of the applied operations do. -/
theorem agrees_congr {t : RepositoryRun}
    (hpg : t.postgres.hasUnhandledPostFillMismatch scope =
      s.postgres.hasUnhandledPostFillMismatch scope)
    (hrow : t.postgres.switches.rows scope = s.postgres.switches.rows scope)
    (hmem : t.inMemory.hasUnhandledPostFillMismatch scope =
      s.inMemory.hasUnhandledPostFillMismatch scope)
    (hact : t.inMemory.killSwitchActive scope = s.inMemory.killSwitchActive scope)
    (hrea : t.inMemory.killReasons scope = s.inMemory.killReasons scope)
    (hops : mismatchSinceRelease scope t.applied = mismatchSinceRelease scope s.applied) :
    t.Agrees scope ↔ s.Agrees scope := by
  have hreason : t.inMemory.killSwitchReason scope = s.inMemory.killSwitchReason scope := by
    simp only [InMemoryReconciliationRepository.killSwitchReason, hact, hrea]
  have hactive : t.postgres.switches.killSwitchActive scope =
      s.postgres.switches.killSwitchActive scope := by
    simp only [Switches.killSwitchActive, hrow]
  have hstored : t.postgres.switches.killSwitchReason scope =
      s.postgres.switches.killSwitchReason scope := by
    simp only [Switches.killSwitchReason, hrow]
  constructor <;> rintro ⟨h₁, h₂, h₃, h₄⟩
  · exact ⟨by rw [← hpg, ← hops, h₁], by rw [← hmem, ← hpg, h₂],
      by rw [← hact, ← hactive, h₃], by rw [← hreason, ← hstored, h₄]⟩
  · exact ⟨by rw [hpg, hops, h₁], by rw [hmem, hpg, h₂],
      by rw [hact, hactive, h₃], by rw [hreason, hstored, h₄]⟩

theorem agrees_record (ht : s.Timed) (h : s.Agrees scope) (scope' : String) (dt : ℕ) :
    (s.repositoryStep (.recordPostFillMismatch scope', dt)).Agrees scope := by
  have hstep : s.postgres.step (s.clock + dt + 1) (.recordPostFillMismatch scope') =
      .ok { s.postgres with mismatches := ⟨scope', s.clock + dt + 1⟩ :: s.postgres.mismatches } :=
    rfl
  rw [repositoryStep_ok (l := (.recordPostFillMismatch scope', dt)) hstep]
  by_cases hs : scope' = scope
  · subst hs
    have hpg : MonitorWorld.hasUnhandledPostFillMismatch
        { s.postgres with mismatches := ⟨scope', s.clock + dt + 1⟩ :: s.postgres.mismatches }
        scope' = true :=
      MonitorWorld.hasUnhandled_record ht.past ht.epoch (lt_later s.clock dt)
    refine ⟨?_, ?_, h.active, h.reason⟩
    · exact hpg.trans (by simp [mismatchSinceRelease])
    · refine Eq.trans ?_ hpg.symm
      simp [InMemoryReconciliationRepository.step,
        InMemoryReconciliationRepository.recordPostFillMismatch,
        InMemoryReconciliationRepository.hasUnhandledPostFillMismatch]
  · refine (agrees_congr ?_ ?_ ?_ ?_ ?_ ?_).mpr h
    · refine MonitorWorld.hasUnhandled_congr rfl ?_
      intro m hm
      refine ⟨fun hmem => ?_, fun hmem => List.mem_cons_of_mem _ hmem⟩
      rcases List.mem_cons.mp hmem with rfl | hmem
      · exact absurd hm hs
      · exact hmem
    · rfl
    · simp [InMemoryReconciliationRepository.step,
        InMemoryReconciliationRepository.recordPostFillMismatch,
        InMemoryReconciliationRepository.hasUnhandledPostFillMismatch, Ne.symm hs]
    · rfl
    · rfl
    · simp [mismatchSinceRelease, hs]

/-- A latch of the scope empties the Postgres predicate, and only that. -/
theorem agrees_latch (ht : s.Timed) (h : s.Agrees scope) (scope' reason : String) (dt : ℕ) :
    (s.repositoryStep (.latchKillSwitch scope' reason, dt)).Agrees scope ↔
      ¬ s.Hides scope (.latchKillSwitch scope' reason, dt) := by
  have hstep : s.postgres.step (s.clock + dt + 1) (.latchKillSwitch scope' reason) =
      .ok { s.postgres with
        switches := s.postgres.switches.latchKillSwitch scope' reason (s.clock + dt + 1) } :=
    rfl
  rw [repositoryStep_ok (l := (.latchKillSwitch scope' reason, dt)) hstep]
  by_cases hs : scope' = scope
  · subst hs
    have hpg : MonitorWorld.hasUnhandledPostFillMismatch
        { s.postgres with
          switches := s.postgres.switches.latchKillSwitch scope' reason (s.clock + dt + 1) }
        scope' = false :=
      MonitorWorld.hasUnhandled_written ht.past (lt_later s.clock dt)
        (Function.update_self scope' _ _) rfl rfl
    have hnot : ¬ s.Hides scope' (.latchKillSwitch scope' reason, dt) ↔
        mismatchSinceRelease scope' s.applied = false := by
      simp [Hides]
    rw [hnot]
    constructor
    · intro hagree
      exact hagree.postgres.symm.trans hpg
    · intro hnone
      refine ⟨hpg.trans hnone.symm, ?_, ?_, ?_⟩
      · exact (h.inMemory.trans (h.postgres.trans hnone)).trans hpg.symm
      · simp [InMemoryReconciliationRepository.step,
          InMemoryReconciliationRepository.latchKillSwitch,
          InMemoryReconciliationRepository.killSwitchActive, Switches.killSwitchActive,
          Switches.latchKillSwitch, Switches.latchedRow]
      · simp [InMemoryReconciliationRepository.step,
          InMemoryReconciliationRepository.latchKillSwitch,
          InMemoryReconciliationRepository.killSwitchReason,
          InMemoryReconciliationRepository.killSwitchActive]
  · have hagree : (⟨s.clock + dt + 1, { s.postgres with
        switches := s.postgres.switches.latchKillSwitch scope' reason (s.clock + dt + 1) },
        s.inMemory.latchKillSwitch scope' reason,
        .latchKillSwitch scope' reason :: s.applied⟩ : RepositoryRun).Agrees scope := by
      have hrow := Function.update_of_ne (Ne.symm hs)
        (some (s.postgres.switches.latchedRow scope' reason (s.clock + dt + 1)))
        s.postgres.switches.rows
      refine (agrees_congr ?_ hrow ?_ ?_ ?_ ?_).mpr h
      · exact MonitorWorld.hasUnhandled_congr hrow fun _ _ => Iff.rfl
      · rfl
      · simp [InMemoryReconciliationRepository.latchKillSwitch,
          InMemoryReconciliationRepository.killSwitchActive, Ne.symm hs]
      · exact Function.update_of_ne (Ne.symm hs) _ _
      · rfl
    refine iff_of_true hagree ?_
    rintro ⟨-, hscope⟩
    exact hs hscope

/-- Where both repositories release a scope, its mismatches are handled in both. -/
theorem agrees_release (ht : s.Timed) (h : s.Agrees scope) (scope' ref : String) (dt : ℕ) :
    (s.repositoryStep (.releaseKillSwitch scope' ref, dt)).Agrees scope ↔
      ¬ s.Hides scope (.releaseKillSwitch scope' ref, dt) := by
  by_cases href : strip ref = ""
  · have hstep : s.repositoryStep (.releaseKillSwitch scope' ref, dt) =
        { s with clock := s.clock + dt + 1 } := by
      simp [repositoryStep, MonitorWorld.step, Switches.releaseKillSwitch,
        InMemoryReconciliationRepository.step,
        InMemoryReconciliationRepository.releaseKillSwitch, href]
    rw [hstep]
    refine iff_of_true ⟨h.postgres, h.inMemory, h.active, h.reason⟩ ?_
    rintro ⟨-, -, hne, -⟩
    exact hne href
  have hmem : s.inMemory.step (.releaseKillSwitch scope' ref) =
      { s.inMemory with
        killSwitches := s.inMemory.killSwitches.erase scope'
        unhandledMismatches := s.inMemory.unhandledMismatches.erase scope' } := by
    simp [InMemoryReconciliationRepository.step,
      InMemoryReconciliationRepository.releaseKillSwitch, href]
  cases hrow : s.postgres.switches.rows scope' with
  | none =>
    have hstep : s.postgres.step (s.clock + dt + 1) (.releaseKillSwitch scope' ref) =
        .error (.lookupError ("kill switch not found: " ++ scope')) := by
      simp [MonitorWorld.step, Switches.releaseKillSwitch, href, hrow]
    rw [repositoryStep_error (l := (.releaseKillSwitch scope' ref, dt)) hstep, hmem]
    by_cases hs : scope' = scope
    · subst hs
      have hnot : ¬ s.Hides scope' (.releaseKillSwitch scope' ref, dt) ↔
          mismatchSinceRelease scope' s.applied = false := by
        simp [Hides, href, hrow]
      rw [hnot]
      have hinactive : s.postgres.switches.killSwitchActive scope' = false := by
        simp [Switches.killSwitchActive, hrow]
      have hreason : s.postgres.switches.killSwitchReason scope' = none := by
        simp [Switches.killSwitchReason, hrow]
      constructor
      · intro hagree
        refine hagree.postgres.symm.trans (hagree.inMemory.symm.trans ?_)
        simp [InMemoryReconciliationRepository.hasUnhandledPostFillMismatch]
      · intro hnone
        refine ⟨h.postgres, ?_, ?_, ?_⟩
        · refine Eq.trans ?_ (h.postgres.trans hnone).symm
          simp [InMemoryReconciliationRepository.hasUnhandledPostFillMismatch]
        · refine Eq.trans ?_ hinactive.symm
          simp [InMemoryReconciliationRepository.killSwitchActive]
        · refine Eq.trans ?_ hreason.symm
          simp [InMemoryReconciliationRepository.killSwitchReason,
            InMemoryReconciliationRepository.killSwitchActive]
    · refine iff_of_true ((agrees_congr ?_ ?_ ?_ ?_ ?_ ?_).mpr h) fun hhides => hs hhides.2.1
      · rfl
      · rfl
      · simp [InMemoryReconciliationRepository.hasUnhandledPostFillMismatch, Ne.symm hs]
      · simp [InMemoryReconciliationRepository.killSwitchActive, Ne.symm hs]
      · rfl
      · rfl
  | some row =>
    have hstep : s.postgres.step (s.clock + dt + 1) (.releaseKillSwitch scope' ref) =
        .ok { s.postgres with switches :=
          ⟨Function.update s.postgres.switches.rows scope'
            (some (row.released ref (s.clock + dt + 1))),
            .released scope' ref :: s.postgres.switches.writes⟩ } := by
      simp [MonitorWorld.step, Switches.releaseKillSwitch, href, hrow]
    rw [repositoryStep_ok (l := (.releaseKillSwitch scope' ref, dt)) hstep, hmem]
    by_cases hs : scope' = scope
    · subst hs
      refine iff_of_true ?_ (by simp [Hides, hrow])
      have hpg : MonitorWorld.hasUnhandledPostFillMismatch
          { s.postgres with switches :=
            ⟨Function.update s.postgres.switches.rows scope'
              (some (row.released ref (s.clock + dt + 1))),
              .released scope' ref :: s.postgres.switches.writes⟩ } scope' = false :=
        MonitorWorld.hasUnhandled_written ht.past (lt_later s.clock dt)
          (Function.update_self scope' _ _) rfl rfl
      refine ⟨?_, ?_, ?_, ?_⟩
      · exact hpg.trans (by simp [mismatchSinceRelease])
      · refine Eq.trans ?_ hpg.symm
        simp [InMemoryReconciliationRepository.hasUnhandledPostFillMismatch]
      · simp [InMemoryReconciliationRepository.killSwitchActive, Switches.killSwitchActive,
          KillSwitchRow.released]
      · simp [InMemoryReconciliationRepository.killSwitchReason,
          InMemoryReconciliationRepository.killSwitchActive, Switches.killSwitchReason,
          KillSwitchRow.released]
    · refine iff_of_true ((agrees_congr ?_ ?_ ?_ ?_ ?_ ?_).mpr h) fun hhides => hs hhides.2.1
      · refine MonitorWorld.hasUnhandled_congr ?_ fun _ _ => Iff.rfl
        exact Function.update_of_ne (Ne.symm hs) _ _
      · exact Function.update_of_ne (Ne.symm hs) _ _
      · simp [InMemoryReconciliationRepository.hasUnhandledPostFillMismatch, Ne.symm hs]
      · simp [InMemoryReconciliationRepository.killSwitchActive, Ne.symm hs]
      · rfl
      · simp [mismatchSinceRelease, hs]

/-- One step keeps the answers right exactly when it hides no mismatch. -/
theorem agrees_step (ht : s.Timed) (h : s.Agrees scope) (l : RepositoryOp × ℕ) :
    (s.repositoryStep l).Agrees scope ↔ ¬ s.Hides scope l := by
  obtain ⟨op, dt⟩ := l
  cases op with
  | recordPostFillMismatch scope' =>
    exact iff_of_true (agrees_record ht h scope' dt) fun hhides => hhides.2
  | latchKillSwitch scope' reason => exact agrees_latch ht h scope' reason dt
  | releaseKillSwitch scope' ref => exact agrees_release ht h scope' ref dt

/-! ## Runs -/

/-- In a run of recorded mismatches, latches and releases both repositories tell throughout
whether a mismatch was recorded since the last release, exactly when no operation hides one :
no latch meets an unhandled mismatch, and no release of a scope without a switch does. -/
theorem mismatch_unhandled_iff (scope : String) (ops : List (RepositoryOp × ℕ)) :
    (∀ s ∈ states repositoryStep fresh ops, s.Agrees scope) ↔
      ∀ p ∈ visits repositoryStep fresh ops, ¬ p.1.Hides scope p.2 := by
  have htimed : ∀ s ∈ states repositoryStep fresh ops, s.Timed := fun s hs =>
    states_inv (fun _ l h => Timed.step h l) timed_fresh hs
  have hstep : ∀ (s : RepositoryRun) (l : RepositoryOp × ℕ), s.Timed ∧ s.Agrees scope →
      ((s.repositoryStep l).Timed ∧ (s.repositoryStep l).Agrees scope ↔ ¬ s.Hides scope l) :=
    fun s l h => (and_iff_right (h.1.step l)).trans (agrees_step h.1 h.2 l)
  have hiff : (∀ s ∈ states repositoryStep fresh ops, s.Timed ∧ s.Agrees scope) ↔
      ∀ p ∈ visits repositoryStep fresh ops, ¬ p.1.Hides scope p.2 :=
    forall_states_iff hstep ⟨timed_fresh, agrees_fresh⟩
  rw [← hiff]
  exact ⟨fun h s hs => ⟨htimed s hs, h s hs⟩, fun h s hs => (h s hs).2⟩

/-- A latch for another reason after a recorded mismatch : Postgres forgets the mismatch, the
in-memory repository keeps it. -/
theorem latch_hides_mismatch :
    ¬ ∀ (scope : String) (ops : List (RepositoryOp × ℕ)),
      ∀ s ∈ states repositoryStep fresh ops, s.Agrees scope := by
  intro h
  have hagree := h "bitget"
    [(.recordPostFillMismatch "bitget", 0), (.latchKillSwitch "bitget" "clock-skew-exceeded", 0)]
    _ (mem_states_iff.mpr ⟨_, [], (List.append_nil _).symm, rfl⟩)
  exact absurd hagree.postgres (by decide +kernel)

end RepositoryRun
end FattyTrader
