import FattyTrader.JsonValues
import FattyTrader.Runs
import Mathlib.Tactic.Linarith

/-!
# The protection watchdog

A cycle of the watchdog reads the state of the socket, the freshness of each symbol and its position
at the venue, and latches the kill switch of the protection stream once a fault persists. A fault is
a dead socket or a position that cannot be read (`WatchdogCycle.latchable`). The watchdog counts the
faulty cycles and keeps the time of the first one (`Watchdog.track`).

A healthy cycle starts both anew. A cycle that is neither healthy nor faulty, such as one with a
quiet symbol, leaves both as they are. So what was counted are the last cycles, one after the other,
exactly as long as no such cycle comes while the count is running (`watchdog_kept_iff`).
-/

set_option linter.unusedSectionVars false

open FattyTrader.JsonValues

namespace FattyTrader.ProtectionWatchdog

open Runs

/-! ## A cycle -/

inductive WatchdogStatus
  | healthy
  | stale
  | failed
deriving DecidableEq

/-- What a cycle reads of a symbol : its freshness, the positions (none where the read raises), and
its capability. -/
structure SymbolReading where
  symbol : String
  fresh : Bool
  positions : Option Json
  nativeVerified : Bool
  fallbackAllowed : Bool

/-- What a cycle reads. `latchedAt` and `checkedAt` are the readings of the clock, and `active` is
what the kill switch answers. -/
structure WatchdogCycle where
  socketState : Option String
  symbols : List SymbolReading
  startedAt : ℚ
  checkedAt : ℚ
  active : Bool := false

structure WatchdogReport where
  status : WatchdogStatus
  allowNewEntries : List (String × Bool)
  reasons : List String

section Cycle

variable (P : Texts)

/-- A row of `_valid_position_snapshot`. -/
def validRow (symbol : String) : Json → Bool
  | .obj fields => (valueOf fields "symbol").isText symbol &&
      ((entry fields "total").bind P.finite).any (0 ≤ ·)
  | _ => false

/-- `_valid_position_snapshot`. -/
def validPositionSnapshot (value : Json) (symbol : String) : Bool :=
  match value.items? with
  | some rows => rows.all (validRow P symbol)
  | none => false

/-- Why the position of a symbol is not known. -/
def SymbolReading.failure (r : SymbolReading) : Option String :=
  match r.positions with
  | none => some "provider-position-read-failed"
  | some value =>
    if validPositionSnapshot P value r.symbol then none else some "provider-position-invalid"

def SymbolReading.readOk (r : SymbolReading) : Bool := (r.failure P).isNone

namespace WatchdogCycle

variable (c : WatchdogCycle)

/-- `_socket_is_dead`. -/
def socketDead : Bool :=
  match c.socketState with
  | none => true
  | some state => ["FAILED", "DISCONNECTED"].contains (P.upper state)

def socketReady : Bool := c.socketState.any fun state => P.upper state = "CONNECTED"

def providerFailure : Bool := c.symbols.any fun r => !r.readOk P

/-- The cycle found a fault that may be latched. -/
def latchable : Bool := c.socketDead P || c.providerFailure P

def reasons : List String :=
  (if c.socketDead P || !c.socketReady P then ["socket-not-connected"] else []) ++
    (if c.symbols.all SymbolReading.fresh then [] else ["protection-stream-stale"]) ++
    (c.symbols.filterMap (SymbolReading.failure P)).eraseDups

def allowed (r : SymbolReading) : Bool :=
  r.readOk P && c.socketReady P && (r.nativeVerified || (r.fallbackAllowed && r.fresh))

def status : WatchdogStatus :=
  if !c.socketReady P || c.providerFailure P then .failed
  else if c.symbols.all SymbolReading.fresh then .healthy
  else .stale

/-- The report of `run_once`. -/
def report : WatchdogReport where
  status := c.status P
  allowNewEntries := c.symbols.map fun r => (r.symbol, c.allowed P r)
  reasons := c.reasons P

/-- The reason of a latch : a position that is not known comes before the socket. -/
def latchReason : String :=
  (["provider-position-read-failed", "provider-position-invalid", "socket-not-connected"].find?
    fun reason => (c.reasons P).contains reason).getD "protection-watchdog-latched"

end WatchdogCycle

end Cycle

/-! ## The watchdog -/

/-- The settings of a watchdog. It is `enforced` where it was given a kill switch. -/
structure WatchdogPolicy where
  enforced : Bool := true
  staleCyclesBeforeLatch : ℕ := 3
  minOutageSeconds : ℚ := 0

structure Watchdog where
  consecutiveBadCycles : ℕ := 0
  badSince : Option ℚ := none
deriving DecidableEq

namespace Watchdog

variable (P : Texts) (x : WatchdogPolicy)

/-- `_track_consecutive_failures`, and the reason it latches for. -/
def track (s : Watchdog) (c : WatchdogCycle) : Watchdog × Option String :=
  if c.status P = .healthy then ({}, none)
  else if c.latchable P = false then (s, none)
  else
    let since := s.badSince.getD c.startedAt
    let s := { consecutiveBadCycles := s.consecutiveBadCycles + 1, badSince := some since }
    if x.enforced = false then (s, none)
    else if s.consecutiveBadCycles < x.staleCyclesBeforeLatch then (s, none)
    else if 0 < x.minOutageSeconds ∧ c.checkedAt - since < x.minOutageSeconds then (s, none)
    else if c.active then (s, none)
    else (s, some (c.latchReason P))

def step (s : Watchdog) (c : WatchdogCycle) : Watchdog := (s.track P x c).1

/-- The cycle latches. -/
def latches (s : Watchdog) (c : WatchdogCycle) : Bool := (s.track P x c).2.isSome

end Watchdog

variable {P : Texts} {x : WatchdogPolicy} {s : Watchdog} {c : WatchdogCycle}
  {cs : List WatchdogCycle}

/-- A healthy cycle has no fault. -/
theorem latchable_of_healthy (h : c.status P = .healthy) : c.latchable P = false := by
  unfold WatchdogCycle.status at h
  split at h
  · cases h
  next hready =>
    simp only [Bool.or_eq_true, Bool.not_eq_true', not_or, Bool.not_eq_false, Bool.not_eq_true]
      at hready
    rw [WatchdogCycle.latchable, hready.2, Bool.or_false]
    have hstate := hready.1
    unfold WatchdogCycle.socketReady at hstate
    unfold WatchdogCycle.socketDead
    cases hsocket : c.socketState with
    | none => simp [hsocket] at hstate
    | some state =>
      have hupper : P.upper state = "CONNECTED" := by simpa [hsocket] using hstate
      simp [hupper]

/-- A cycle starts the count anew, leaves it, or counts a fault. -/
theorem step_cases (P : Texts) (x : WatchdogPolicy) (s : Watchdog) (c : WatchdogCycle) :
    (c.status P = .healthy ∧ c.latchable P = false ∧ s.step P x c = {} ∧
        s.latches P x c = false) ∨
      (c.status P ≠ .healthy ∧ c.latchable P = false ∧ s.step P x c = s ∧
        s.latches P x c = false) ∨
      (c.latchable P = true ∧
        s.step P x c = ⟨s.consecutiveBadCycles + 1, some (s.badSince.getD c.startedAt)⟩ ∧
        (s.latches P x c = true → x.staleCyclesBeforeLatch ≤ s.consecutiveBadCycles + 1 ∧
          (0 < x.minOutageSeconds →
            x.minOutageSeconds ≤ c.checkedAt - s.badSince.getD c.startedAt))) := by
  unfold Watchdog.step Watchdog.latches Watchdog.track
  by_cases hhealthy : c.status P = .healthy
  · exact Or.inl ⟨hhealthy, latchable_of_healthy hhealthy, by simp [hhealthy], by simp [hhealthy]⟩
  cases hlatchable : c.latchable P with
  | false =>
    exact Or.inr (Or.inl ⟨hhealthy, rfl, by simp [hhealthy], by simp [hhealthy]⟩)
  | true =>
    refine Or.inr (Or.inr ⟨rfl, ?_, ?_⟩)
    · simp only [if_neg hhealthy, Bool.true_eq_false, if_false]
      split_ifs <;> rfl
    · simp only [if_neg hhealthy, Bool.true_eq_false, if_false]
      intro h
      split_ifs at h with henforced hcount hspan hactive
      · cases h
      · cases h
      · cases h
      · cases h
      · exact ⟨not_lt.mp hcount, fun hpos => not_lt.mp fun hlt => hspan ⟨hpos, hlt⟩⟩

/-! ## Runs -/

/-- The last cycles were all faulty, at least as many as the watchdog asks for, and they last at
least as long as it asks for. -/
def Persistent (P : Texts) (x : WatchdogPolicy) (cs : List WatchdogCycle) : Prop :=
  ∃ before outage, cs = before ++ outage ∧ x.staleCyclesBeforeLatch ≤ outage.length ∧
    (∀ c ∈ outage, c.latchable P = true) ∧
    ∀ first ∈ outage.head?, ∀ last ∈ outage.getLast?, 0 < x.minOutageSeconds →
      x.minOutageSeconds ≤ last.checkedAt - first.startedAt

/-- The last cycles the watchdog asks for were all faulty. -/
theorem Persistent.all_latest (h : Persistent P x cs) :
    ((cs.drop (cs.length - x.staleCyclesBeforeLatch)).all fun c => c.latchable P) = true := by
  obtain ⟨before, outage, rfl, hmany, hall, -⟩ := h
  have hlength : before.length ≤ (before ++ outage).length - x.staleCyclesBeforeLatch := by
    rw [List.length_append]
    omega
  rw [List.drop_append, List.drop_eq_nil_of_le hlength, List.nil_append]
  exact List.all_eq_true.mpr fun c hc => hall c (List.mem_of_mem_drop hc)

/-- The watchdog latches for persistent faults only, and a cycle without a fault starts the count
and the clock of the outage anew. -/
structure WatchdogKept (P : Texts) (x : WatchdogPolicy) (cs : List WatchdogCycle) : Prop where
  latches : ∀ past c rest, cs = past ++ c :: rest →
    (exec (Watchdog.step P x) {} past).latches P x c = true → Persistent P x (past ++ [c])
  restarts : ∀ past c rest, cs = past ++ c :: rest → c.latchable P = false →
    exec (Watchdog.step P x) {} (past ++ [c]) = {}

/-- The cycle found no fault and is not healthy either, while faults are being counted. -/
def Ignored (P : Texts) (s : Watchdog) (c : WatchdogCycle) : Prop :=
  c.latchable P = false ∧ c.status P ≠ .healthy ∧ s.consecutiveBadCycles ≠ 0

/-- What is counted are the last cycles. -/
def Counted (P : Texts) (s : Watchdog) (past : List WatchdogCycle) : Prop :=
  ∃ before outage, past = before ++ outage ∧ (∀ c ∈ outage, c.latchable P = true) ∧
    s.consecutiveBadCycles = outage.length ∧ s.badSince = outage.head?.map (·.startedAt)

theorem Counted.eq_start {past : List WatchdogCycle} (h : Counted P s past)
    (hzero : s.consecutiveBadCycles = 0) : s = {} := by
  obtain ⟨before, outage, -, -, hcount, hsince⟩ := h
  obtain rfl : outage = [] := List.length_eq_zero_iff.mp (hcount ▸ hzero)
  cases s
  simp_all

/-- A fault is counted after the ones before it. -/
theorem Counted.snoc {past : List WatchdogCycle} (h : Counted P s past)
    (hc : c.latchable P = true) :
    Counted P ⟨s.consecutiveBadCycles + 1, some (s.badSince.getD c.startedAt)⟩ (past ++ [c]) := by
  obtain ⟨before, outage, rfl, hall, hcount, hsince⟩ := h
  refine ⟨before, outage ++ [c], by rw [List.append_assoc], fun d hd => ?_, by simp [hcount], ?_⟩
  · rcases List.mem_append.mp hd with hd | hd
    · exact hall d hd
    · rwa [List.mem_singleton.mp hd]
  · rw [hsince]
    cases outage <;> rfl

theorem counted_step {past : List WatchdogCycle} (h : Counted P s past) (hc : ¬ Ignored P s c) :
    Counted P (s.step P x c) (past ++ [c]) := by
  rcases step_cases P x s c with ⟨-, -, hstep, -⟩ | ⟨hstatus, hfault, hstep, -⟩ | ⟨hfault, hstep, -⟩
  · rw [hstep]
    exact ⟨past ++ [c], [], by simp, by simp, rfl, rfl⟩
  · have hzero : s.consecutiveBadCycles = 0 := by
      by_contra hne
      exact hc ⟨hfault, hstatus, hne⟩
    rw [hstep, h.eq_start hzero]
    exact ⟨past ++ [c], [], by simp, by simp, rfl, rfl⟩
  · rw [hstep]
    exact h.snoc hfault

theorem counted_exec (h : ∀ p ∈ visits (Watchdog.step P x) {} cs, ¬ Ignored P p.1 p.2) :
    ∀ past rest, cs = past ++ rest → Counted P (exec (Watchdog.step P x) {} past) past := by
  intro past
  induction past using List.reverseRecOn with
  | nil => exact fun rest _ => ⟨[], [], rfl, by simp, rfl, rfl⟩
  | append_singleton past c ih =>
    intro rest heq
    have heq' : cs = past ++ c :: rest := by rw [heq, List.append_assoc]; rfl
    rw [exec_append]
    have hvisit : (exec (Watchdog.step P x) {} past, c) ∈ visits (Watchdog.step P x) {} cs :=
      mem_visits_iff.mpr ⟨past, rest, heq', rfl⟩
    exact counted_step (ih (c :: rest) heq') (h _ hvisit)

/-- A watchdog keeps to faults that persist exactly where no cycle is ignored while it counts. -/
theorem watchdog_kept_iff (P : Texts) (x : WatchdogPolicy) (cs : List WatchdogCycle) :
    WatchdogKept P x cs ↔ ∀ p ∈ visits (Watchdog.step P x) {} cs, ¬ Ignored P p.1 p.2 := by
  constructor
  · rintro h ⟨s, c⟩ hp ⟨hfault, hstatus, hcount⟩
    obtain ⟨past, rest, heq, rfl⟩ := mem_visits_iff.mp hp
    have hrestart := h.restarts past c rest heq hfault
    rw [exec_append] at hrestart
    rcases step_cases P x (exec (Watchdog.step P x) {} past) c with
      ⟨hhealthy, -⟩ | ⟨-, -, hstep, -⟩ | ⟨hfault', -⟩
    · exact hstatus hhealthy
    · refine hcount ?_
      rw [exec_cons, exec_nil, hstep] at hrestart
      rw [hrestart]
    · rw [hfault] at hfault'
      cases hfault'
  · intro h
    have hcounted := counted_exec h
    constructor
    · intro past c rest heq hlatch
      have hpast := hcounted past (c :: rest) heq
      rcases step_cases P x (exec (Watchdog.step P x) {} past) c with
        ⟨-, -, -, hnot⟩ | ⟨-, -, -, hnot⟩ | ⟨hfault, -, hlatched⟩
      · rw [hnot] at hlatch
        cases hlatch
      · rw [hnot] at hlatch
        cases hlatch
      · obtain ⟨hmany, hlong⟩ := hlatched hlatch
        obtain ⟨before, outage, hsplit, hall, hcount, hsince⟩ := hpast.snoc hfault
        refine ⟨before, outage, hsplit, hcount ▸ hmany, hall, fun first hfirst last hlast hpos => ?_⟩
        have hlast' : last = c := by
          obtain ⟨others, rfl⟩ := List.getLast?_eq_some_iff.mp hlast
          rw [← List.append_assoc] at hsplit
          exact (List.cons.inj (List.append_inj' hsplit rfl).2).1.symm
        have hfirst' : (exec (Watchdog.step P x) {} past).badSince.getD c.startedAt =
            first.startedAt := by
          rw [Option.mem_def.mp hfirst] at hsince
          exact Option.some.inj hsince
        rw [hlast', ← hfirst']
        exact hlong hpos
    · intro past c rest heq hfault
      rw [exec_append]
      rcases step_cases P x (exec (Watchdog.step P x) {} past) c with
        ⟨-, -, hstep, -⟩ | ⟨hstatus, -, hstep, -⟩ | ⟨hfault', -⟩
      · exact hstep
      · have hpast := hcounted past (c :: rest) heq
        refine hstep.trans (hpast.eq_start ?_)
        by_contra hne
        have hvisit : (exec (Watchdog.step P x) {} past, c) ∈ visits (Watchdog.step P x) {} cs :=
          mem_visits_iff.mpr ⟨past, rest, heq, rfl⟩
        exact h _ hvisit ⟨hfault, hstatus, hne⟩
      · rw [hfault] at hfault'
        cases hfault'

/-- A dead socket, and a quiet symbol on a connected one, in turns. -/
def scatteredFaults : List WatchdogCycle :=
  let quiet : SymbolReading :=
    { symbol := "BTCUSDT", fresh := false, positions := some (.arr []), nativeVerified := true
      fallbackAllowed := false }
  let dead (at_ : ℚ) : WatchdogCycle :=
    { socketState := none, symbols := [], startedAt := at_, checkedAt := at_ }
  let stale (at_ : ℚ) : WatchdogCycle :=
    { socketState := some "CONNECTED", symbols := [quiet], startedAt := at_, checkedAt := at_ }
  [dead 0, stale 30, dead 60, stale 90, dead 120]

/-- Three faults that never last latch, as the quiet cycles between them start nothing anew. -/
theorem scatteredFaults_latch : ¬ WatchdogKept ascii { minOutageSeconds := 120 } scatteredFaults := by
  intro h
  have hpersistent := h.latches (scatteredFaults.take 4)
    { socketState := none, symbols := [], startedAt := 120, checkedAt := 120 } [] rfl
    (by decide +kernel)
  have hlatest := hpersistent.all_latest
  have hnot : ((scatteredFaults.drop 2).all fun c => c.latchable ascii) = false := by
    decide +kernel
  exact Bool.false_ne_true (hnot.symm.trans hlatest)

end FattyTrader.ProtectionWatchdog
