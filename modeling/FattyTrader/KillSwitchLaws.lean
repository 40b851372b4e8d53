import FattyTrader.Monitor

/-!
# What a cycle of the monitor releases

The law under study : whenever a cycle releases the switch of its scope, every latch of
that scope since it was last inactive carried a clock reason.

It rests on the stored reason of the switch, and that is the newest reason only. A cycle
therefore also releases a divergence that a later clock failure has overwritten, and one
that is latched between its reading of the reason and its release
(`autoRelease_of_divergence`). In every run without these two kinds of latches
(`LatchAdmitted`) the law holds (`autoRelease_only_clock`). The invariant is
`ClockEpisodes` : an active switch with a clock reason stored was latched with clock
reasons only, and so was one whose release a cycle is about to apply.
-/

namespace FattyTrader

open Programs Prog Runs

/-! ## The reading half of a cycle -/

/-- Operations that do not touch the kill switches. -/
def MonitorOp.Observing : MonitorOp → Prop
  | .latchKillSwitch _ _ => False
  | .killSwitchActive _ => False
  | .killSwitchReason _ => False
  | .releaseKillSwitch _ _ => False
  | _ => True

namespace BitgetMonitor

variable (m : BitgetMonitor)

theorem reconcileUnresolvedIntents_observing :
    m.reconcileUnresolvedIntents.OpsIn MonitorOp.Observing := by
  refine opsIn_bind (fun intents => ?_) (opsIn_perform trivial)
  refine opsIn_bind_pure (opsIn_each fun oid _ => ?_)
  refine opsIn_bind (fun r => ?_) (opsIn_attempt (opsIn_perform trivial))
  cases r <;> trivial

theorem reconcileProviderExit_observing (fill : ExitFill) :
    (reconcileProviderExit fill).OpsIn MonitorOp.Observing := by
  refine opsIn_bind (fun r => ?_) (opsIn_attempt (opsIn_perform trivial))
  split
  · trivial
  split
  · refine opsIn_bind (fun r' => ?_) (opsIn_attempt (opsIn_perform trivial))
    split <;> trivial
  · trivial

theorem reconcileProviderExits_observing :
    m.reconcileProviderExits.OpsIn MonitorOp.Observing := by
  unfold reconcileProviderExits
  split
  · trivial
  refine opsIn_bind (fun r => ?_) (opsIn_attempt (opsIn_perform trivial))
  split
  · trivial
  · trivial
  · exact opsIn_bind_pure
      (opsIn_each fun fill _ => reconcileProviderExit_observing fill)

theorem readRows_observing {α : Type} {reader : MonitorProg (Option (List α))}
    (h : reader.OpsIn MonitorOp.Observing) (readReason invalidReason : String) :
    (readRows reader readReason invalidReason).OpsIn MonitorOp.Observing := by
  refine opsIn_bind (fun r => ?_) (opsIn_attempt h)
  split <;> trivial

theorem checkPosition_observing (expectedSymbols : List String) (position : PositionRow) :
    (checkPosition expectedSymbols position).OpsIn MonitorOp.Observing := by
  unfold checkPosition
  split
  · trivial
  split
  · trivial
  split
  · trivial
  split
  · exact opsIn_bind_pure (opsIn_perform trivial)
  · trivial

theorem checkPositions_observing (positions : List PositionRow) :
    (m.checkPositions positions).OpsIn MonitorOp.Observing := by
  refine opsIn_bind (fun expectedSymbols => ?_) (opsIn_perform trivial)
  exact opsIn_bind_pure
    (opsIn_each fun position _ => checkPosition_observing expectedSymbols position)

theorem checkOrders_observing (orders : List (Option String)) :
    (m.checkOrders orders).OpsIn MonitorOp.Observing :=
  opsIn_bind_pure (opsIn_perform trivial)

theorem checkPostFillMismatch_observing :
    m.checkPostFillMismatch.OpsIn MonitorOp.Observing := by
  refine opsIn_bind (fun b => ?_) (opsIn_perform trivial)
  split <;> trivial

theorem runFallbackMonitor_observing : m.runFallbackMonitor.OpsIn MonitorOp.Observing := by
  unfold runFallbackMonitor
  split
  · trivial
  refine opsIn_bind (fun r => ?_) (opsIn_attempt (opsIn_perform trivial))
  split <;> trivial

theorem reconcileVerifiedCloses_observing :
    m.reconcileVerifiedCloses.OpsIn MonitorOp.Observing := by
  unfold reconcileVerifiedCloses
  split
  · trivial
  refine opsIn_bind (fun r => ?_) (opsIn_attempt (opsIn_perform trivial))
  split <;> trivial

theorem checkClock_observing : m.checkClock.OpsIn MonitorOp.Observing := by
  refine opsIn_bind (fun r => ?_) (opsIn_attempt (opsIn_perform trivial))
  split <;> trivial

theorem observe_observing : m.observe.OpsIn MonitorOp.Observing := by
  unfold observe
  refine opsIn_bind (fun unresolved => ?_) m.reconcileUnresolvedIntents_observing
  refine opsIn_bind (fun exits => ?_) m.reconcileProviderExits_observing
  refine opsIn_bind (fun positions => ?_) (readRows_observing (opsIn_perform trivial) _ _)
  refine opsIn_bind (fun orders => ?_) (readRows_observing (opsIn_perform trivial) _ _)
  refine opsIn_bind (fun positionReasons => ?_) (m.checkPositions_observing _)
  refine opsIn_bind (fun orderReasons => ?_) (m.checkOrders_observing _)
  refine opsIn_bind (fun mismatch => ?_) m.checkPostFillMismatch_observing
  refine opsIn_bind (fun fallback => ?_) m.runFallbackMonitor_observing
  refine opsIn_bind (fun closes => ?_) m.reconcileVerifiedCloses_observing
  exact opsIn_bind_pure m.checkClock_observing

end BitgetMonitor

/-! ## The protocol of a cycle -/

/-- A cycle latches and releases its own scope only, latches only latchable reasons, and
releases right after it read a clock reason. -/
def monitorProtocol : MonitorCall → List MonitorEvent → MonitorOp → Prop
  | .runOnce m, es, .releaseKillSwitch scope ref =>
    scope = m.scope ∧ ref = autoReleaseReference ∧ ∃ es' reason,
      es = es' ++ [⟨.killSwitchReason m.scope, .ok (some reason)⟩] ∧
        reason ∈ autoReleasableKillSwitchReasons
  | .runOnce m, _, .latchKillSwitch scope reason => scope = m.scope ∧ latchable reason
  | _, _, _ => True

theorem monitorProtocol_observing {i : MonitorCall} {es : List MonitorEvent} {o : MonitorOp}
    (h : o.Observing) : monitorProtocol i es o := by
  cases o <;> cases i <;> trivial

namespace BitgetMonitor

variable (m : BitgetMonitor)

/-- Any answer, and no promise about the result. -/
abbrev ObeysMonitor {α : Type} (p : MonitorProg α) (es : List MonitorEvent) : Prop :=
  Obeys (fun _ _ => True) (monitorProtocol (.runOnce m)) p es fun _ _ => True

theorem latchReasons_obeys (uniqueReasons : List String) (exits : ℕ) (es : List MonitorEvent) :
    m.ObeysMonitor (m.latchReasons uniqueReasons exits) es := by
  unfold latchReasons
  dsimp only
  split
  · trivial
  · let P : MonitorOp → Prop := fun o => ∃ reason, o = .latchKillSwitch m.scope reason ∧
      latchable reason
    refine obeys_bind_of_opsIn (P := P) (opsIn_each fun reason hreason => opsIn_perform ?_)
      ?_ (fun _ _ => trivial) (fun _ _ => trivial)
    · exact ⟨reason, rfl, (List.mem_filter.mp hreason).2⟩
    · rintro es _ ⟨reason, rfl, h⟩
      exact ⟨rfl, h⟩

theorem releaseTransient_obeys (exits : ℕ) (es : List MonitorEvent) :
    m.ObeysMonitor (m.releaseTransient exits) es := by
  unfold releaseTransient
  split
  · trivial
  refine obeys_bind.mpr (obeys_perform.mpr ⟨trivial, fun active _ => ?_⟩)
  cases active with
  | error e => trivial
  | ok active =>
    rw [then_ok]
    split
    · refine obeys_bind.mpr (obeys_perform.mpr ⟨trivial, fun reason _ => ?_⟩)
      cases reason with
      | error e => trivial
      | ok reason =>
        rw [then_ok]
        split
        next h =>
          obtain ⟨reason, rfl, hreason⟩ := (Option.any_eq_true _ _).mp h
          refine obeys_bind.mpr (obeys_perform.mpr ⟨?_, fun r _ => ?_⟩)
          · exact ⟨rfl, rfl, _, reason, rfl, by simpa using hreason⟩
          · cases r <;> trivial
        · trivial
    · trivial

theorem runOnce_obeys : m.ObeysMonitor (MonitorCall.runOnce m).body [] := by
  refine obeys_bind.mpr (Obeys.imp (Q := fun _ _ => True) ?_ fun es r _ => ?_)
  · refine obeys_bind_of_opsIn m.observe_observing (fun _ _ => monitorProtocol_observing)
      (fun seen es => ?_) fun _ _ => trivial
    unfold conclude
    dsimp only
    split
    · exact m.releaseTransient_obeys _ es
    · exact m.latchReasons_obeys _ _ es
  · cases r <;> trivial

end BitgetMonitor

theorem monitor_follows : monitorSystem.Follows (fun _ _ => True) monitorProtocol := by
  intro i
  cases i with
  | runOnce m => exact m.runOnce_obeys
  | latchKillSwitch scope reason =>
    exact obeys_perform.mpr ⟨trivial, fun _ _ => trivial⟩
  | releaseKillSwitch scope ref =>
    exact obeys_perform.mpr ⟨trivial, fun _ _ => trivial⟩

theorem monitor_answers : monitorSystem.Answers fun _ _ => True :=
  fun _ _ _ _ _ _ => trivial

/-! ## What an operation does to the switches -/

variable {o : MonitorOp} {w : MonitorWorld} {c : MonitorChoice} {scope : String}

theorem write_switches {r : Except StorageError Switches} :
    (c.write w r).2.switches = w.switches ∨
      c.delivery ≠ .failed ∧ r = .ok (c.write w r).2.switches := by
  unfold MonitorChoice.write
  cases r with
  | error e => exact Or.inl rfl
  | ok switches =>
    cases h : c.delivery with
    | answered => exact Or.inr ⟨by simp, rfl⟩
    | lost => exact Or.inr ⟨by simp, rfl⟩
    | failed => exact Or.inl rfl

/-- An operation leaves the switches, or applies a latch, or applies a release. -/
theorem monitorExec_switches : (monitorExec o w c).2.switches = w.switches ∨
    (∃ scope reason, o = .latchKillSwitch scope reason ∧ c.delivery ≠ .failed ∧
      (monitorExec o w c).2.switches = w.switches.latchKillSwitch scope reason c.now) ∨
    ∃ scope ref, o = .releaseKillSwitch scope ref ∧
      w.switches.releaseKillSwitch scope ref c.now = .ok (monitorExec o w c).2.switches := by
  cases o with
  | latchKillSwitch scope reason =>
    have hworld : (monitorExec (.latchKillSwitch scope reason) w c).2 =
        (c.write w (.ok (w.switches.latchKillSwitch scope reason c.now))).2 := rfl
    rw [hworld]
    rcases write_switches (c := c) (w := w)
      (r := .ok (w.switches.latchKillSwitch scope reason c.now)) with h | ⟨hd, h⟩
    · exact Or.inl h
    · exact Or.inr (Or.inl ⟨scope, reason, rfl, hd, (Except.ok.inj h).symm⟩)
  | releaseKillSwitch scope ref =>
    have hworld : (monitorExec (.releaseKillSwitch scope ref) w c).2 =
        (c.write w (w.switches.releaseKillSwitch scope ref c.now)).2 := rfl
    rw [hworld]
    rcases write_switches (c := c) (w := w)
      (r := w.switches.releaseKillSwitch scope ref c.now) with h | ⟨-, h⟩
    · exact Or.inl h
    · exact Or.inr (Or.inr ⟨scope, ref, rfl, h⟩)
  | _ => exact Or.inl rfl

theorem killSwitchReason_of_answer {reason : String}
    (h : (monitorExec (.killSwitchReason scope) w c).1 = .ok (some reason)) :
    w.switches.killSwitchReason scope = some reason := by
  simp only [monitorExec, MonitorChoice.read] at h
  split at h
  · exact Except.ok.inj h
  · cases h

/-! ## The law over runs -/

/-- Every latch of the scope since it was last inactive carried a clock reason. -/
def ClockOnly (switches : Switches) (scope : String) : Prop :=
  ∀ reason ∈ latchedSince scope switches.writes, reason ∈ autoReleasableKillSwitchReasons

/-- A cycle is about to release the scope. -/
def ReleasePending (s : MonitorState) (scope : String) : Prop :=
  ∃ n m ref, s.next n = some (.runOnce m, .releaseKillSwitch scope ref)

/-- A clock latch is not applied over another stored reason, and another latch not between
a cycle's reading of a clock reason and its release. -/
def LatchAdmitted (s : MonitorState) (l : MonitorLabel) : Prop :=
  ∀ n c i scope reason, l = .act n c → s.next n = some (i, .latchKillSwitch scope reason) →
    c.delivery ≠ .failed →
      if reason ∈ autoReleasableKillSwitchReasons then
        ∀ stored, s.world.switches.killSwitchReason scope = some stored →
          stored ∈ autoReleasableKillSwitchReasons
      else ¬ ReleasePending s scope

structure ClockEpisodes (s : MonitorState) : Prop where
  consistent : s.world.switches.Consistent
  stored : ∀ scope reason, s.world.switches.killSwitchReason scope = some reason →
    reason ∈ autoReleasableKillSwitchReasons → ClockOnly s.world.switches scope
  pending : ∀ scope, ReleasePending s scope → ClockOnly s.world.switches scope

variable {s : MonitorState}

theorem clockOnly_of_inactive {switches : Switches} (h : switches.Consistent)
    (hscope : switches.killSwitchReason scope = none) : ClockOnly switches scope := by
  have := h scope
  rw [hscope] at this
  intro reason hreason
  rw [this] at hreason
  cases hreason

theorem clockOnly_latch {switches : Switches} {scope' reason : String} {now : Instant}
    (h : ClockOnly switches scope)
    (hreason : scope' = scope → reason ∈ autoReleasableKillSwitchReasons) :
    ClockOnly (switches.latchKillSwitch scope' reason now) scope := by
  by_cases heq : scope = scope'
  · subst heq
    intro r hr
    rw [Switches.latch_since_self] at hr
    rcases List.mem_cons.mp hr with rfl | hr
    · exact hreason rfl
    · exact h r hr
  · unfold ClockOnly
    rw [Switches.latch_since_ne heq]
    exact h

theorem clockOnly_release {switches switches' : Switches} {scope' ref : String} {now : Instant}
    (h : ClockOnly switches scope)
    (hrel : switches.releaseKillSwitch scope' ref now = .ok switches') :
    ClockOnly switches' scope := by
  obtain ⟨-, hsince, hother⟩ := Switches.release_ok hrel
  unfold ClockOnly
  by_cases heq : scope = scope'
  · subst heq
    rw [hsince]
    simp
  · rw [(hother scope heq).2]
    exact h

/-- A call is about to release only what it has just read as held by a clock reason. -/
theorem reason_read_of_pending {n : ℕ} {i : MonitorCall} {e : MonitorEvent}
    {p : MonitorProg Unit} {m : BitgetMonitor} {ref : String}
    (hs : System.Sound (fun _ _ => True) monitorProtocol (s.acted n i e p w))
    (hnext : (s.acted n i e p w).next n = some (.runOnce m, .releaseKillSwitch scope ref)) :
    ∃ reason, e = ⟨.killSwitchReason scope, .ok (some reason)⟩ ∧
      reason ∈ autoReleasableKillSwitchReasons := by
  obtain ⟨k, hk⟩ := State.next_eq_some.mp hnext
  obtain ⟨rfl, -, es, reason, hes, hreason⟩ := System.protocol_of_sound hs hk
  refine ⟨reason, ?_, hreason⟩
  rw [State.acted, own_snoc_self] at hes
  exact List.singleton_inj.mp (List.append_inj' hes rfl).2

theorem clockEpisodes_acted {n : ℕ} {i : MonitorCall} {k : _ → MonitorProg Unit}
    (hs : System.Sound (fun _ _ => True) monitorProtocol s) (hI : ClockEpisodes s)
    (hn : s.calls[n]? = some (i, .op o k)) (hG : LatchAdmitted s (.act n c)) :
    ClockEpisodes (s.acted n i ⟨o, (monitorExec o s.world c).1⟩ (k (monitorExec o s.world c).1)
      (monitorExec o s.world c).2) := by
  have hs' := System.sound_acted hs hn (r := (monitorExec o s.world c).1) trivial
    (monitorExec o s.world c).2
  -- What was pending or stored before stays an episode of clock latches.
  have hkeep : ∀ scope, ReleasePending s scope →
      ClockOnly (monitorExec o s.world c).2.switches scope := by
    intro scope hp
    rcases monitorExec_switches (o := o) (w := s.world) (c := c) with
      h | ⟨scope', reason, rfl, hd, h⟩ | ⟨scope', ref, rfl, h⟩
    · rw [h]
      exact hI.pending scope hp
    · rw [h]
      refine clockOnly_latch (hI.pending scope hp) ?_
      rintro rfl
      have := hG n c i scope' reason rfl (State.next_eq_some.mpr ⟨k, hn⟩) hd
      by_contra hreason
      rw [if_neg hreason] at this
      exact this hp
    · exact clockOnly_release (hI.pending scope hp) h
  have hstored : ∀ scope reason,
      (monitorExec o s.world c).2.switches.killSwitchReason scope = some reason →
      reason ∈ autoReleasableKillSwitchReasons →
      ClockOnly (monitorExec o s.world c).2.switches scope := by
    intro scope reason hstored hreason
    rcases monitorExec_switches (o := o) (w := s.world) (c := c) with
      h | ⟨scope', reason', rfl, hd, h⟩ | ⟨scope', ref, rfl, h⟩
    · rw [h] at hstored ⊢
      exact hI.stored scope reason hstored hreason
    · rw [h] at hstored ⊢
      by_cases heq : scope = scope'
      · subst heq
        obtain rfl : reason' = reason := by simpa using hstored
        refine clockOnly_latch ?_ fun _ => hreason
        have hadm := hG n c i scope reason' rfl (State.next_eq_some.mpr ⟨k, hn⟩) hd
        rw [if_pos hreason] at hadm
        cases hold : s.world.switches.killSwitchReason scope with
        | none => exact clockOnly_of_inactive hI.consistent hold
        | some old => exact hI.stored scope old hold (hadm old hold)
      · rw [Switches.latch_reason_ne heq] at hstored
        exact clockOnly_latch (hI.stored scope reason hstored hreason)
          fun h => absurd h.symm heq
    · obtain ⟨hnone, -, hother⟩ := Switches.release_ok h
      by_cases heq : scope = scope'
      · subst heq
        rw [hnone] at hstored
        cases hstored
      · rw [(hother scope heq).1] at hstored
        exact clockOnly_release (hI.stored scope reason hstored hreason) h
  refine ⟨?_, hstored, ?_⟩
  · change (monitorExec o s.world c).2.switches.Consistent
    rcases monitorExec_switches (o := o) (w := s.world) (c := c) with
      h | ⟨scope', reason, rfl, hd, h⟩ | ⟨scope', ref, rfl, h⟩
    · exact h ▸ hI.consistent
    · exact h ▸ Switches.consistent_latch hI.consistent
    · exact Switches.consistent_release hI.consistent h
  · rintro scope ⟨j, m, ref, hj⟩
    by_cases hjn : j = n
    · subst hjn
      obtain ⟨reason, he, hreason⟩ := reason_read_of_pending hs' hj
      obtain ⟨rfl, hr⟩ := Event.mk.inj he
      have hread := killSwitchReason_of_answer (eq_of_heq hr)
      exact hI.stored scope reason hread hreason
    · rw [State.next_acted_ne hjn] at hj
      exact hkeep scope ⟨j, m, ref, hj⟩

theorem clockEpisodes_started (hs : System.Sound (fun _ _ => True) monitorProtocol s)
    (hI : ClockEpisodes s) (i : MonitorCall) :
    ClockEpisodes (s.started i (monitorSystem.body i)) := by
  refine ⟨hI.consistent, hI.stored, ?_⟩
  rintro scope ⟨n, m, ref, hn⟩
  by_cases hlen : n = s.calls.length
  · -- A call that has just started has read nothing.
    obtain ⟨k, hk⟩ := State.next_eq_some.mp hn
    have hs' := System.sound_started monitor_follows hs i
    obtain ⟨-, -, es, reason, hes, -⟩ := System.protocol_of_sound hs' hk
    have hnil : own n s.trace = [] := System.own_eq_nil hs.2 (by omega)
    simp [State.started, hnil] at hes
  · exact hI.pending scope ⟨n, m, ref, State.next_started_of_some hn hlen⟩

/-- A fresh store of kill switches next to any recorded mismatches. -/
def MonitorWorld.fresh (mismatches : List PostFillMismatch) : MonitorWorld :=
  ⟨Switches.empty, mismatches⟩

theorem clockEpisodes_init (mismatches : List PostFillMismatch) :
    ClockEpisodes (State.init (MonitorWorld.fresh mismatches)) := by
  refine ⟨Switches.consistent_empty, ?_, ?_⟩
  · intro scope reason h
    cases h
  · rintro scope ⟨n, m, ref, hn⟩
    simp [State.next, State.init] at hn

/-- In every run all of whose latches are admitted, a cycle releases a switch only if every
latch since it was last inactive carried a clock reason. -/
theorem autoRelease_only_clock {mismatches : List PostFillMismatch}
    {ls : List MonitorLabel}
    (hrun : Run (Guard monitorSystem.Step LatchAdmitted)
      (State.init (MonitorWorld.fresh mismatches)) ls s)
    (hrelease : ReleasePending s scope) : ClockOnly s.world.switches scope := by
  have hI : ClockEpisodes s := by
    refine (System.inv monitor_answers monitor_follows ?_ ?_ ?_ (System.sound_init _)
      (clockEpisodes_init mismatches) hrun).2
    · exact fun s i hs hI _ => clockEpisodes_started hs hI i
    · intro s n i o k c r w hs hI hn _ hx hG
      obtain ⟨rfl, rfl⟩ := Prod.mk.inj (Option.some.inj hx)
      exact clockEpisodes_acted hs hI hn hG
    · intro s e w _ hI hw _
      obtain rfl := Option.some.inj hw
      exact ⟨hI.consistent, hI.stored, hI.pending⟩
  exact hI.pending scope hrelease

/-! ## Runs that can be replayed -/

/-- The call releases the scope as its next operation, in a cycle. -/
def releases (scope : String) : Option (MonitorCall × MonitorOp) → Bool
  | some (.runOnce _, .releaseKillSwitch scope' _) => scope' == scope
  | _ => false

theorem releasePending_iff :
    ReleasePending s scope ↔ ∃ n ∈ List.range s.calls.length, releases scope (s.next n) := by
  constructor
  · rintro ⟨n, m, ref, h⟩
    refine ⟨n, List.mem_range.mpr ?_, by simp [h, releases]⟩
    obtain ⟨k, hk⟩ := State.next_eq_some.mp h
    exact (List.getElem?_eq_some_iff.mp hk).1
  · rintro ⟨n, -, h⟩
    unfold releases at h
    split at h
    next m scope' ref heq =>
      obtain rfl : scope' = scope := by simpa using h
      exact ⟨n, m, ref, heq⟩
    · cases h

instance : Decidable (ReleasePending s scope) := decidable_of_iff' _ releasePending_iff

instance : Decidable (ClockOnly s.world.switches scope) :=
  inferInstanceAs (Decidable (∀ reason ∈ _, reason ∈ autoReleasableKillSwitchReasons))

/-- The step, where its latch is admitted. -/
def admittedStep (s : MonitorState) (l : MonitorLabel) : Option MonitorState :=
  match l with
  | .act n _ =>
    match s.next n with
    | some (_, .latchKillSwitch scope reason) =>
      if reason ∈ autoReleasableKillSwitchReasons then
        if (s.world.switches.killSwitchReason scope).all
            autoReleasableKillSwitchReasons.contains then monitorSystem.step s l
        else none
      else if ReleasePending s scope then none
      else monitorSystem.step s l
    | _ => monitorSystem.step s l
  | _ => monitorSystem.step s l

theorem guard_of_admittedStep {l : MonitorLabel} {t : MonitorState}
    (h : admittedStep s l = some t) : Guard monitorSystem.Step LatchAdmitted s l t := by
  unfold admittedStep at h
  refine ⟨?_, ?_⟩
  · rintro n c i scope reason rfl hn -
    simp only [hn] at h
    split at h
    next hreason =>
      rw [if_pos hreason]
      split at h
      next hall =>
        intro stored hstored
        simpa [hstored] using hall
      · cases h
    next hreason =>
      rw [if_neg hreason]
      split at h
      · cases h
      next hp => exact hp
  · split at h
    · split at h
      · split at h
        · split at h
          · exact h
          · cases h
        · split at h
          · cases h
          · exact h
      · exact h
    · exact h

/-- Every read succeeds and finds nothing. -/
def MonitorChoice.clean : MonitorChoice where
  delivery := .answered
  now := 0
  unresolvedIntents := []
  reconcileUnknownIntent := .ok ()
  fills := .ok (some [])
  bindNativePlanClose := .ok false
  reconcileProviderExit := .ok false
  positions := .ok (some [])
  pendingOrders := .ok (some [])
  expectedPositionSymbols := []
  protection := .ok ⟨true, none⟩
  fallback := .ok []
  verifiedClose := .ok ()
  clockSkewMs := .ok 0

/-- An order nobody knows, while the clock of the venue cannot be read. -/
def MonitorChoice.divergence : MonitorChoice :=
  { MonitorChoice.clean with
    pendingOrders := .ok (some [some "manual"])
    clockSkewMs := .error (.provider "timeout") }

def BitgetMonitor.live : BitgetMonitor :=
  ⟨"bitget", 10000, true, false, false, false⟩

/-- A clock failure, and a clean cycle up to its release. -/
def clockFailureThenClean : List MonitorLabel :=
  [.start (.latchKillSwitch "bitget" "clock-skew-unavailable"), .act 0 .clean,
    .start (.runOnce .live)] ++ List.replicate 9 (.act 1 .clean)

theorem autoRelease_after_clock_failure : ∃ s : MonitorState,
    ReleasePending s "bitget" ∧ ClockOnly s.world.switches "bitget" := by
  have h : (replay admittedStep (State.init (MonitorWorld.fresh [])) clockFailureThenClean).any
      (fun s => decide (ReleasePending s "bitget")) = true := by decide +kernel
  obtain ⟨s, hs, hp⟩ := (Option.any_eq_true _ _).mp h
  have hp : ReleasePending s "bitget" := of_decide_eq_true hp
  have hrun : Run (Guard monitorSystem.Step LatchAdmitted)
      (State.init (MonitorWorld.fresh [])) clockFailureThenClean s := by
    refine run_of_replay ?_ hs
    exact fun s l t h => guard_of_admittedStep h
  exact ⟨s, hp, autoRelease_only_clock hrun hp⟩

/-- One cycle that meets the divergence, and a clean cycle up to its release. -/
def divergenceThenClean : List MonitorLabel :=
  ([.start (.runOnce .live)] : List MonitorLabel) ++
    (List.replicate 9 (.act 0 .divergence) : List MonitorLabel) ++
    ([.start (.runOnce .live)] : List MonitorLabel) ++
    (List.replicate 9 (.act 1 .clean) : List MonitorLabel)

/-- The clock reason is the last one a cycle latches, so it overwrites the divergence, and
the clean cycle releases the switch. -/
theorem autoRelease_of_divergence :
    ¬ ∀ (ls : List MonitorLabel) (s t : MonitorState) (n : ℕ)
      (c : MonitorChoice) (m : BitgetMonitor) (scope ref : String),
      Run monitorSystem.Step (State.init (MonitorWorld.fresh [])) ls s →
        s.next n = some (.runOnce m, .releaseKillSwitch scope ref) →
        monitorSystem.Step s (.act n c) t → t.world.switches.killSwitchActive scope = false →
        ClockOnly s.world.switches scope := by
  have h : (replay monitorSystem.step (State.init (MonitorWorld.fresh [])) divergenceThenClean).any
      (fun s => s.next 1 = some (.runOnce .live, .releaseKillSwitch "bitget" autoReleaseReference) ∧
        ¬ ClockOnly s.world.switches "bitget" ∧
        (monitorSystem.step s (.act 1 .clean)).any
          fun t => !t.world.switches.killSwitchActive "bitget") = true := by decide +kernel
  obtain ⟨s, hs, hp⟩ := (Option.any_eq_true _ _).mp h
  obtain ⟨hnext, hclock, hreleased⟩ := of_decide_eq_true hp
  obtain ⟨t, ht, hinactive⟩ := (Option.any_eq_true _ _).mp hreleased
  intro hclaim
  refine hclock (hclaim divergenceThenClean s t 1 .clean .live "bitget" autoReleaseReference
    (run_of_replay (fun _ _ _ h => h) hs) hnext ht ?_)
  simpa using hinactive

end FattyTrader
