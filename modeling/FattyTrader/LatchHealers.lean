import FattyTrader.Runs
import Mathlib.Data.List.Chain
import Mathlib.Data.List.Infix
import Mathlib.Data.List.TakeWhile
import Mathlib.Tactic.Linarith
import Mathlib.Algebra.Order.Ring.Rat

/-!
# The latch healer

The watchdog latches and never releases. `LatchHealer.observe` releases the latch of the
protection stream after a run of healthy reports, no sooner than a cooldown after its last
release, and no more often than `maxPerHour` times an hour. It never raises : what a callback
raises ends the observation with the action `error`.

The healer keeps the count of healthy reports, the time of its last release and the releases it
has not pruned. `HealerRecord` says what the three mean in terms of the reports it was given, and
`limits_kept` is read off it : a window that holds the newest release holds no pruned one.
-/

set_option linter.unusedSectionVars false

namespace FattyTrader

open Runs

/-- `HealerPolicy`, with the counts its reader admits. -/
structure HealerPolicy where
  enabled : Bool := true
  socketCycles : ℕ := 6
  providerCycles : ℕ := 12
  cooldownSeconds : ℚ := 600
  maxPerHour : ℕ := 4
  scope : String := "bitget-protection-stream"

/-- `PROVIDER_REASONS`. -/
def providerReasons : List String :=
  ["provider-position-read-failed", "provider-position-invalid"]

/-- `_required_cycles`, for the reason of the latch. -/
def HealerPolicy.requiredCycles (policy : HealerPolicy) (reason : Option String) : ℕ :=
  let text := reason.getD ""
  if providerReasons.any fun item =>
      item.toList.isPrefixOf text.toList || decide (item.toList <:+: text.toList) then
    policy.providerCycles
  else policy.socketCycles

/-- What one observation is given : the report, and what the callbacks answer. `latch` and
`stamp` are `none` where the callback raises. -/
structure HealerReading where
  status : String
  latch : Option (Bool × Option String)
  now : ℚ
  stamp : Option String := some ""
  alertRaises : Bool := false
  releaseRaises : Bool := false

/-- `_status_is_healthy`. -/
def HealerReading.healthy (r : HealerReading) : Bool := r.status.toUpper = "HEALTHY"

inductive HealerAction
  | disabled
  | disarmed
  | idle
  | armed (healthy required : ℕ)
  | cooldown
  | breaker
  | healed (cycles : ℕ) (reference : String)
  | error
deriving DecidableEq

structure LatchHealer where
  healthy : ℕ := 0
  lastRelease : Option ℚ := none
  recent : List ℚ := []
deriving DecidableEq

/-- The reference of an automatic release. -/
def healReference (stamp : String) (cycles : ℕ) : String :=
  "auto:watchdog-healthy:" ++ stamp ++ ":" ++ toString cycles ++ "cycles"

namespace LatchHealer

/-- The releases `_breaker_open` keeps. -/
def prune (h : LatchHealer) (now : ℚ) : LatchHealer :=
  { h with recent := h.recent.dropWhile fun t => 3600 < now - t }

/-- `observe`. -/
def observe (policy : HealerPolicy) (h : LatchHealer) (r : HealerReading) :
    LatchHealer × HealerAction :=
  if policy.enabled = false then (h, .disabled)
  else if r.healthy = false then ({ h with healthy := 0 }, .disarmed)
  else
    let h := { h with healthy := h.healthy + 1 }
    match r.latch with
    | none => (h, .error)
    | some (false, _) => (h, .idle)
    | some (true, reason) =>
      let required := policy.requiredCycles reason
      if h.healthy < required then (h, .armed h.healthy required)
      else if h.lastRelease.any fun t => r.now - t < policy.cooldownSeconds then (h, .cooldown)
      else
        let h := h.prune r.now
        if policy.maxPerHour ≤ h.recent.length then (h, if r.alertRaises then .error else .breaker)
        else
          match r.stamp with
          | none => (h, .error)
          | some stamp =>
            if r.releaseRaises then (h, .error)
            else
              (⟨0, some r.now, h.recent ++ [r.now]⟩, .healed h.healthy (healReference stamp h.healthy))

def step (policy : HealerPolicy) (h : LatchHealer) (r : HealerReading) : LatchHealer :=
  (h.observe policy r).1

end LatchHealer

def HealerAction.released : HealerAction → Bool
  | .healed _ _ => true
  | _ => false

/-- The report released the latch. -/
def Released (policy : HealerPolicy) (p : LatchHealer × HealerReading) : Bool :=
  (p.1.observe policy p.2).2.released

/-- The times of the releases among some reports. -/
def releaseTimes (policy : HealerPolicy) (past : List (LatchHealer × HealerReading)) : List ℚ :=
  (past.filter (Released policy)).map fun p => p.2.now

/-- A report that keeps the count : healthy, and no release. -/
def Counted (policy : HealerPolicy) (p : LatchHealer × HealerReading) : Prop :=
  p.2.healthy ∧ Released policy p = false

variable {policy : HealerPolicy} {h : LatchHealer} {r : HealerReading}

/-! ## One observation -/

/-- An observation releases nothing and keeps the time of the last release, or it releases after
enough healthy reports, past the cooldown, with room within the hour. -/
theorem observe_cases (policy : HealerPolicy) (h : LatchHealer) (r : HealerReading) :
    (Released policy (h, r) = false ∧ (h.step policy r).lastRelease = h.lastRelease ∧
        ((h.step policy r).healthy = 0 ∨
          (r.healthy ∧ (h.step policy r).healthy = h.healthy + 1) ∨
          (policy.enabled = false ∧ (h.step policy r).healthy = h.healthy)) ∧
        ((h.step policy r).recent = h.recent ∨
          (h.step policy r).recent = (h.prune r.now).recent)) ∨
      (Released policy (h, r) = true ∧ r.healthy ∧
        (∃ reason, r.latch = some (true, reason) ∧ policy.requiredCycles reason ≤ h.healthy + 1) ∧
        (∀ t ∈ h.lastRelease, policy.cooldownSeconds ≤ r.now - t) ∧
        (h.prune r.now).recent.length < policy.maxPerHour ∧
        h.step policy r = ⟨0, some r.now, (h.prune r.now).recent ++ [r.now]⟩) := by
  unfold Released LatchHealer.step LatchHealer.observe
  dsimp only
  split
  next hoff => exact Or.inl ⟨rfl, rfl, Or.inr (Or.inr ⟨hoff, rfl⟩), Or.inl rfl⟩
  split
  · exact Or.inl ⟨rfl, rfl, Or.inl rfl, Or.inl rfl⟩
  next hhealthy =>
    rw [Bool.not_eq_false] at hhealthy
    have hone : r.healthy ∧ h.healthy + 1 = h.healthy + 1 := ⟨hhealthy, rfl⟩
    cases hlatch : r.latch with
    | none => exact Or.inl ⟨rfl, rfl, Or.inr (Or.inl hone), Or.inl rfl⟩
    | some latch =>
      obtain ⟨active, reason⟩ := latch
      cases active with
      | false => exact Or.inl ⟨rfl, rfl, Or.inr (Or.inl hone), Or.inl rfl⟩
      | true =>
        dsimp only
        split
        · exact Or.inl ⟨rfl, rfl, Or.inr (Or.inl hone), Or.inl rfl⟩
        next hrequired =>
          split
          · exact Or.inl ⟨rfl, rfl, Or.inr (Or.inl hone), Or.inl rfl⟩
          next hcooldown =>
            have hprune : (LatchHealer.prune { h with healthy := h.healthy + 1 } r.now).recent =
                (h.prune r.now).recent := rfl
            split
            · refine Or.inl ⟨?_, rfl, Or.inr (Or.inl hone), Or.inr hprune⟩
              split <;> rfl
            next hbreaker =>
              cases r.stamp with
              | none => exact Or.inl ⟨rfl, rfl, Or.inr (Or.inl hone), Or.inr hprune⟩
              | some stamp =>
                dsimp only
                split
                · exact Or.inl ⟨rfl, rfl, Or.inr (Or.inl hone), Or.inr hprune⟩
                · refine Or.inr ⟨rfl, hhealthy, ⟨reason, rfl, not_lt.mp hrequired⟩, ?_,
                    not_le.mp hbreaker, rfl⟩
                  intro t ht
                  by_contra hlt
                  rw [Option.mem_def.mp ht] at hcooldown
                  exact hcooldown (decide_eq_true (not_le.mp hlt))

/-! ## What the healer remembers -/

/-- The state of the healer, in terms of the reports it was given. -/
structure HealerRecord (policy : HealerPolicy) (h : LatchHealer)
    (past : List (LatchHealer × HealerReading)) : Prop where
  counted : ∃ early quiet, past = early ++ quiet ∧ h.healthy ≤ quiet.length ∧
    ∀ p ∈ quiet, Counted policy p
  disabled : policy.enabled = false → h.healthy = 0
  last : h.lastRelease = (releaseTimes policy past).getLast?
  spaced : (releaseTimes policy past).IsChain fun a b => policy.cooldownSeconds ≤ b - a
  kept : ∃ old, releaseTimes policy past = old ++ h.recent ∧
    ∀ t ∈ old, ∃ p ∈ past, 3600 < p.2.now - t
  bounded : ∀ start, ((releaseTimes policy past).filter fun t =>
    start ≤ t ∧ t ≤ start + 3600).length ≤ policy.maxPerHour

variable {past : List (LatchHealer × HealerReading)}

theorem releaseTimes_snoc (p : LatchHealer × HealerReading) :
    releaseTimes policy (past ++ [p]) =
      releaseTimes policy past ++ if Released policy p then [p.2.now] else [] := by
  unfold releaseTimes
  rw [List.filter_append, List.map_append]
  by_cases hp : Released policy p <;> simp [hp]

theorem healerRecord_nil : HealerRecord policy {} [] :=
  ⟨⟨[], [], rfl, le_rfl, by simp⟩, fun _ => rfl, rfl, List.IsChain.nil, ⟨[], rfl, by simp⟩,
    by simp [releaseTimes]⟩

/-- What pruning drops was released more than an hour before. -/
theorem kept_prune (hk : ∃ old, releaseTimes policy past = old ++ h.recent ∧
      ∀ t ∈ old, ∃ p ∈ past, 3600 < p.2.now - t) :
    ∃ old, releaseTimes policy past = old ++ (h.prune r.now).recent ∧
      ∀ t ∈ old, ∃ p ∈ past ++ [(h, r)], 3600 < p.2.now - t := by
  obtain ⟨old, heq, hold⟩ := hk
  refine ⟨old ++ h.recent.takeWhile fun t => 3600 < r.now - t, ?_, ?_⟩
  · rw [heq, List.append_assoc, LatchHealer.prune, List.takeWhile_append_dropWhile]
  · intro t ht
    rcases List.mem_append.mp ht with ht | ht
    · obtain ⟨p, hp, hlt⟩ := hold t ht
      exact ⟨p, List.mem_append_left _ hp, hlt⟩
    · exact ⟨(h, r), by simp, by simpa using List.mem_takeWhile_imp ht⟩

/-- With the clock not running backwards, a window up to an hour long that holds a new release
holds none of the pruned ones. -/
theorem window_release {old recent : List ℚ} {now start : ℚ}
    (hold : ∀ t ∈ old, 3600 < now - t) (hroom : recent.length < policy.maxPerHour)
    (hbefore : ((old ++ recent).filter fun t => start ≤ t ∧ t ≤ start + 3600).length ≤
      policy.maxPerHour) :
    ((old ++ (recent ++ [now])).filter fun t => start ≤ t ∧ t ≤ start + 3600).length ≤
      policy.maxPerHour := by
  by_cases hin : start ≤ now ∧ now ≤ start + 3600
  · have hnone : old.filter (fun t => start ≤ t ∧ t ≤ start + 3600) = [] := by
      refine List.filter_eq_nil_iff.mpr fun t ht hwin => ?_
      have hlt := hold t ht
      rw [decide_eq_true_eq] at hwin
      linarith [hwin.1, hin.2]
    rw [List.filter_append, hnone, List.nil_append]
    refine (List.length_filter_le _ _).trans ?_
    rw [List.length_append, List.length_singleton]
    omega
  · rw [← List.append_assoc, List.filter_append]
    simpa [hin] using hbefore

/-- One observation keeps the record, as long as the clock does not run backwards. -/
theorem healerRecord_step (hrec : HealerRecord policy h past)
    (hclock : ∀ p ∈ past, p.2.now ≤ r.now) :
    HealerRecord policy (h.step policy r) (past ++ [(h, r)]) := by
  have hsnoc : releaseTimes policy (past ++ [(h, r)]) =
      releaseTimes policy past ++ if Released policy (h, r) then [r.now] else [] :=
    releaseTimes_snoc (h, r)
  rcases observe_cases policy h r with
    ⟨hno, hlast, hcount, hrecent⟩ | ⟨hyes, hhealthy, -, hcool, hroom, hstep⟩
  · rw [hno, if_neg Bool.false_ne_true, List.append_nil] at hsnoc
    refine ⟨?_, ?_, by rw [hlast, hsnoc, hrec.last], by rw [hsnoc]; exact hrec.spaced, ?_, ?_⟩
    · obtain ⟨early, quiet, rfl, hle, hquiet⟩ := hrec.counted
      rcases hcount with hzero | ⟨hhealthy, hone⟩ | ⟨hoff, hsame⟩
      · exact ⟨early ++ quiet ++ [(h, r)], [], by simp, by rw [hzero]; exact Nat.zero_le _, by simp⟩
      · refine ⟨early, quiet ++ [(h, r)], by simp, ?_, ?_⟩
        · rw [hone, List.length_append, List.length_singleton]
          omega
        · intro p hp
          rcases List.mem_append.mp hp with hp | hp
          · exact hquiet p hp
          · rw [List.mem_singleton.mp hp]
            exact ⟨hhealthy, hno⟩
      · refine ⟨early ++ quiet ++ [(h, r)], [], by simp, ?_, by simp⟩
        rw [hsame, hrec.disabled hoff]
        exact Nat.zero_le _
    · intro hoff
      unfold LatchHealer.step LatchHealer.observe
      rw [if_pos hoff]
      exact hrec.disabled hoff
    · rw [hsnoc]
      rcases hrecent with heq | heq
      · obtain ⟨old, hsplit, hold⟩ := hrec.kept
        refine ⟨old, by rw [heq]; exact hsplit, fun t ht => ?_⟩
        obtain ⟨p, hp, hlt⟩ := hold t ht
        exact ⟨p, List.mem_append_left _ hp, hlt⟩
      · rw [heq]
        exact kept_prune hrec.kept
    · rw [hsnoc]
      exact hrec.bounded
  · rw [hyes, if_pos rfl] at hsnoc
    obtain ⟨old, hsplit, hold⟩ := kept_prune (r := r) hrec.kept
    have hpruned : ∀ t ∈ old, 3600 < r.now - t := by
      intro t ht
      obtain ⟨p, hp, hlt⟩ := hold t ht
      rcases List.mem_append.mp hp with hp | hp
      · linarith [hclock p hp]
      · rwa [List.mem_singleton.mp hp] at hlt
    rw [hstep]
    refine ⟨⟨past ++ [(h, r)], [], by simp, le_rfl, by simp⟩, fun _ => rfl, by simp [hsnoc], ?_,
      ⟨old, ?_, hold⟩, ?_⟩
    · rw [hsnoc]
      refine hrec.spaced.append (List.IsChain.singleton _) fun a ha b hb => ?_
      obtain rfl : r.now = b := by simpa using hb
      exact hcool a (by rw [hrec.last]; exact ha)
    · rw [hsnoc, hsplit, List.append_assoc]
    · intro start
      rw [hsnoc, hsplit, List.append_assoc]
      exact window_release hpruned hroom (hsplit ▸ hrec.bounded start)

/-- The record after any reports, the clock of which does not run backwards. -/
theorem healerRecord_visits {rs : List HealerReading} (hclock : rs.Pairwise fun a b => a.now ≤ b.now) :
    HealerRecord policy (exec (LatchHealer.step policy) {} rs)
      (visits (LatchHealer.step policy) {} rs) := by
  have hsorted : (visits (LatchHealer.step policy) {} rs).Pairwise fun a b => a.2.now ≤ b.2.now := by
    have hmap : (visits (LatchHealer.step policy) {} rs).map Prod.snd = rs := map_visits
    rw [← hmap] at hclock
    have hpairs := List.pairwise_map.mp hclock
    exact hpairs
  have hrun := @visits_history _ _ {} rs (LatchHealer.step policy)
    (fun h past => (past.Pairwise fun a b => a.2.now ≤ b.2.now) → HealerRecord policy h past)
    (fun h r past hrec hpast => ?_) [] fun _ => healerRecord_nil
  · exact hrun hsorted
  · obtain ⟨hbefore, -, hlast⟩ := List.pairwise_append.mp hpast
    exact healerRecord_step (hrec hbefore) fun p hp => hlast p hp (h, r) (by simp)

/-- Every release follows as many healthy reports as its reason asks for, one after the other,
without a release among them. Releases are a cooldown apart, and no window of an hour holds more
of them than the policy allows. -/
theorem limits_kept (policy : HealerPolicy) (rs : List HealerReading)
    (hclock : rs.Pairwise fun a b => a.now ≤ b.now) :
    let past := visits (LatchHealer.step policy) {} rs
    (∀ before p after, past = before ++ p :: after → Released policy p →
      ∃ early quiet reason, before = early ++ quiet ∧ p.2.latch = some (true, reason) ∧
        policy.requiredCycles reason ≤ (quiet ++ [p]).length ∧
        (∀ q ∈ quiet ++ [p], q.2.healthy) ∧ ∀ q ∈ quiet, Released policy q = false) ∧
      ((releaseTimes policy past).IsChain fun a b => policy.cooldownSeconds ≤ b - a) ∧
      ∀ start, ((releaseTimes policy past).filter fun t =>
        start ≤ t ∧ t ≤ start + 3600).length ≤ policy.maxPerHour := by
  refine ⟨?_, (healerRecord_visits hclock).spaced, (healerRecord_visits hclock).bounded⟩
  intro before p after hsplit hp
  obtain ⟨bs, cs, rfl, rfl, hstate⟩ := exists_of_visits_eq hsplit
  have hrec : HealerRecord policy _ _ := healerRecord_visits (List.pairwise_append.mp hclock).1
  obtain ⟨early, quiet, hquiet, hle, hcounted⟩ := hrec.counted
  rw [← hstate] at hle
  rcases observe_cases policy p.1 p.2 with ⟨hno, -⟩ | ⟨-, hhealthy, ⟨reason, hlatch, hreq⟩, -⟩
  · rw [hno] at hp
    cases hp
  · refine ⟨early, quiet, reason, hquiet, hlatch, ?_, ?_, fun q hq => (hcounted q hq).2⟩
    · rw [List.length_append, List.length_singleton]
      omega
    · intro q hq
      rcases List.mem_append.mp hq with hq | hq
      · exact (hcounted q hq).1
      · rw [List.mem_singleton.mp hq]
        exact hhealthy

/-- Six healthy reports under a latch, and six more past the cooldown. -/
def steadyReports : List HealerReading :=
  List.replicate 6 ⟨"HEALTHY", some (true, none), 100, some "", false, false⟩ ++
    List.replicate 6 ⟨"HEALTHY", some (true, none), 700, some "", false, false⟩

theorem limits_kept_steady :
    releaseTimes {} (visits (LatchHealer.step {}) {} steadyReports) = [100, 700] ∧
      ∀ start, ((releaseTimes {} (visits (LatchHealer.step {}) {} steadyReports)).filter fun t =>
        start ≤ t ∧ t ≤ start + 3600).length ≤ 4 :=
  ⟨by decide +kernel, (limits_kept {} steadyReports (by decide +kernel)).2.2⟩

end FattyTrader
