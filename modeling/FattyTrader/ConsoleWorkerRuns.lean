import FattyTrader.ConsoleJobLaws

/-!
# Runs of the console's workers

A worker executes a job only after it recorded the effect itself, under a claim that was the first
of the job, and only once (`consoleProtocol`). The effect of a job is recorded once, so over all
workers a job is executed at most once, and every claim after it is for readback
(`console_workers`). The locks of two jobs that recorded their effects and are not done are
disjoint (`console_locks`).
-/

set_option linter.unusedSectionVars false

open Tables Runs Programs

namespace FattyTrader

open Prog ConsoleProg

/-! ## The protocol of one call -/

/-- The job a claim was answered with. -/
def claimedJob : ConsoleEvent → Option ClaimedJob
  | ⟨.claimJob _ _, .ok answer⟩ => answer
  | _ => none

/-- The job is handed to its handler for execution. -/
def executes (id : String) (e : ConsoleEvent) : Bool :=
  match e.op with
  | .execute spec => spec.id = id
  | _ => false

/-- The effect of the job was recorded, and the worker was told so. -/
def recordsEffect (id : String) : ConsoleEvent → Bool
  | ⟨.claimEffect job, .ok true⟩ => job.spec.id = id
  | _ => false

/-- The same claim of the same job. -/
def SameLease (a b : ClaimedJob) : Prop :=
  a.spec = b.spec ∧ a.leaseToken = b.leaseToken ∧ a.claimGeneration = b.claimGeneration

/-- The call claimed the job under this lease. -/
def Leased (es : List ConsoleEvent) (job : ClaimedJob) : Prop :=
  ∃ e ∈ es, ∃ c, claimedJob e = some c ∧ SameLease c job

/-- The call claimed the job, and nobody had claimed it before. -/
def FirstLeased (es : List ConsoleEvent) (spec : JobSpec) : Prop :=
  ∃ e ∈ es, ∃ c, claimedJob e = some c ∧ c.spec = spec ∧ c.readbackOnly = false ∧
    c.effectClaimed = false

/-- The operation is the execution of a job. -/
def ConsoleOp.isExecute : ConsoleOp → Bool
  | .execute _ => true
  | _ => false

/-- A call claims first. What it does with a job is under its claim ; it starts and executes only
jobs that it claimed as the first, and executes once, after it recorded the effect. -/
def consoleProtocol (_ : ConsoleCall) (es : List ConsoleEvent) : ConsoleOp → Prop
  | .claimJob _ _ => es = []
  | .preview spec => FirstLeased es spec
  | .validateStart job => FirstLeased es job.spec
  | .beginRunning job => FirstLeased es job.spec
  | .claimEffect job => FirstLeased es job.spec
  | .checkpoint job => Leased es job
  | .finish job _ _ => Leased es job
  | .execute spec => FirstLeased es spec ∧ Never ConsoleOp.isExecute es ∧
      ∃ e ∈ es, recordsEffect spec.id e = true
  | _ => True

section Worker

variable {i : ConsoleCall} {es es' : List ConsoleEvent} {job : ClaimedJob} {α : Type}
  {A : (o : ConsoleOp) → Except ConsoleError (ConsoleAns o) → Prop}

theorem Leased.mono (h : Leased es job) (hes : es ⊆ es') : Leased es' job := by
  obtain ⟨e, he, hc⟩ := h
  exact ⟨e, hes he, hc⟩

theorem FirstLeased.mono {spec : JobSpec} (h : FirstLeased es spec) (hes : es ⊆ es') :
    FirstLeased es' spec := by
  obtain ⟨e, he, hc⟩ := h
  exact ⟨e, hes he, hc⟩

theorem Leased.snoc (h : Leased es job) (e : ConsoleEvent) : Leased (es ++ [e]) job :=
  h.mono (List.subset_append_left _ _)

theorem FirstLeased.snoc {spec : JobSpec} (h : FirstLeased es spec) (e : ConsoleEvent) :
    FirstLeased (es ++ [e]) spec :=
  h.mono (List.subset_append_left _ _)

theorem interrupted_obeys (hl : Leased es job) (e : ConsoleError) :
    Obeys A (consoleProtocol i) (interrupted job e) es fun _ _ => True := by
  unfold interrupted
  split
  · trivial
  · refine obeys_bind.mpr (obeys_attempt.mpr (obeys_perform.mpr ⟨hl, fun r _ => ?_⟩))
    rcases r with e | a
    · cases e <;> trivial
    · trivial

/-- A guarded operation, and what follows it where it is answered. -/
theorem guarded_call {o : ConsoleOp} {k : ConsoleAns o → ConsoleProg Unit}
    (hφ : consoleProtocol i es o) (hl : Leased es job)
    (hk : ∀ a, Obeys A (consoleProtocol i) (k a) (es ++ [⟨o, .ok a⟩]) fun _ _ => True) :
    Obeys A (consoleProtocol i) (guarded job (call o) k) es fun _ _ => True := by
  refine obeys_bind.mpr (obeys_attempt.mpr (obeys_perform.mpr ⟨hφ, fun r _ => ?_⟩))
  cases r with
  | ok a => exact hk a
  | error e => exact interrupted_obeys (hl.snoc _) e

theorem complete_obeys (hl : Leased es job) (outcome : HandlerOutcome) :
    Obeys A (consoleProtocol i) (complete job outcome) es fun _ _ => True :=
  guarded_call hl hl fun _ => trivial

/-- A readback, from the handler on. -/
theorem reconcile_obeys (hl : Leased es job) :
    Obeys A (consoleProtocol i)
      (guarded job (call (.reconcile job.spec)) fun outcome => complete job outcome) es
      fun _ _ => True :=
  guarded_call trivial hl fun outcome => complete_obeys (hl.snoc _) outcome

theorem dispatch_obeys (hl : Leased es job) (hf : FirstLeased es job.spec)
    (hnever : Never ConsoleOp.isExecute es) :
    Obeys A (consoleProtocol i) (dispatch job) es fun _ _ => True := by
  refine guarded_call hf hl fun claimed => ?_
  cases claimed with
  | false => exact reconcile_obeys (hl.snoc _)
  | true =>
    have hl' : Leased (es ++ [⟨.claimEffect job, .ok true⟩]) { job with effectClaimed := true } :=
      hl.snoc _
    refine guarded_call hl' hl' fun _ => ?_
    refine guarded_call ⟨(hf.snoc _).snoc _, ?_, ⟨.claimEffect job, .ok true⟩, by simp, ?_⟩
      (hl'.snoc _) fun outcome => complete_obeys ((hl'.snoc _).snoc _) outcome
    · exact never_append.mpr ⟨never_append.mpr ⟨hnever, by simp; rfl⟩, by simp; rfl⟩
    · simp [recordsEffect]

theorem validateWorkerStart_obeys (hl : Leased es job) (hf : FirstLeased es job.spec)
    (hnever : Never ConsoleOp.isExecute es)
    {Q : List ConsoleEvent → Except ConsoleError Unit → Prop}
    (hQ : ∀ es' r, Leased es' job → FirstLeased es' job.spec →
      Never ConsoleOp.isExecute es' → Q es' r) :
    Obeys A (consoleProtocol i) (validateWorkerStart job) es Q := by
  have hsnoc : ∀ {es : List ConsoleEvent} {e : ConsoleEvent}, Never ConsoleOp.isExecute es →
      e.op.isExecute = false → Never ConsoleOp.isExecute (es ++ [e]) := fun h he =>
    never_append.mpr ⟨h, never_cons.mpr ⟨he, never_nil _⟩⟩
  refine obeys_perform_bind hf (fun fresh _ => ?_) fun e _ =>
    hQ _ _ (hl.snoc _) (hf.snoc _) (hsnoc hnever rfl)
  split
  · exact hQ _ _ (hl.snoc _) (hf.snoc _) (hsnoc hnever rfl)
  split
  · exact hQ _ _ (hl.snoc _) (hf.snoc _) (hsnoc hnever rfl)
  · exact obeys_perform.mpr ⟨hf.snoc _, fun r _ =>
      hQ _ r ((hl.snoc _).snoc _) ((hf.snoc _).snoc _) (hsnoc (hsnoc hnever rfl) rfl)⟩

theorem processJob_obeys (hl : Leased es job)
    (hf : job.readbackOnly = false → job.effectClaimed = false → FirstLeased es job.spec)
    (hnever : Never ConsoleOp.isExecute es) :
    Obeys A (consoleProtocol i) (processJob job) es fun _ _ => True := by
  unfold processJob
  split
  · exact guarded_call hl hl fun _ => trivial
  split
  · exact guarded_call hl hl fun _ => reconcile_obeys (hl.snoc _)
  next hfirst =>
    push Not at hfirst
    have hf := hf (by simpa using hfirst.1) (by simpa using hfirst.2)
    refine obeys_bind.mpr (obeys_attempt.mpr (validateWorkerStart_obeys hl hf hnever
      fun es' r hl' hf' hnever' => ?_))
    rcases r with e | a
    · cases e with
      | command e => exact guarded_call hl' hl' fun _ => trivial
      | _ => exact interrupted_obeys hl' _
    · refine guarded_call hl' hl' fun _ => ?_
      refine obeys_bind.mpr (obeys_attempt.mpr (obeys_perform.mpr ⟨hf'.snoc _, fun r _ => ?_⟩))
      rcases r with e | a
      · refine interrupted_obeys ?_ e
        split
        · exact (hl'.snoc _).snoc _
        · exact (hl'.snoc _).snoc _
      · refine dispatch_obeys ((hl'.snoc _).snoc _) ((hf'.snoc _).snoc _) ?_
        exact never_append.mpr ⟨never_append.mpr ⟨hnever', by simp; rfl⟩, by simp; rfl⟩

end Worker

/-- Every call follows the protocol. -/
theorem console_follows (x : CommandConfig) :
    (consoleSystem x).Follows (fun _ _ => True) consoleProtocol := by
  intro i
  cases i with
  | work worker actions =>
    refine obeys_perform_bind rfl (fun answer _ => ?_) fun e _ => trivial
    cases answer with
    | none => trivial
    | some job =>
      refine processJob_obeys ⟨_, List.mem_singleton_self _, job, rfl, rfl, rfl, rfl⟩
        (fun hr he => ⟨_, List.mem_singleton_self _, job, rfl, rfl, hr, he⟩) ?_
      exact never_cons.mpr ⟨rfl, never_nil _⟩
  | enqueue request principal key =>
    exact obeys_bind.mpr (obeys_perform.mpr ⟨trivial, fun r _ => by cases r <;> trivial⟩)
  | decision jobId request principal approved =>
    exact obeys_perform.mpr ⟨trivial, fun _ _ => trivial⟩
  | cancel jobId request principal => exact obeys_perform.mpr ⟨trivial, fun _ _ => trivial⟩
  | wake jobId request principal => exact obeys_perform.mpr ⟨trivial, fun _ _ => trivial⟩

theorem console_answers (x : CommandConfig) : (consoleSystem x).Answers fun _ _ => True :=
  fun _ _ _ _ _ _ => trivial

/-! ## Locks in every run -/

/-- No job yet. -/
def ConsoleWorld.Fresh (w : ConsoleWorld) : Prop :=
  w.jobs = Table.empty ∧ w.effects = [] ∧ (∀ key, w.locks key = none) ∧ w.stateWrites = [] ∧
    w.receipts = Table.empty ∧ w.grantUses = [] ∧ w.approvals = [] ∧
    (∀ v ∈ w.previews, v.consumedBy = none) ∧
    ∀ g ∈ w.grants, g.consumedAt = none ∧ g.jobId = none

section Runs

variable {x : CommandConfig} {w w' : ConsoleWorld} {s t u : ConsoleState}
  {ls ls' : List ConsoleLabel} {l : ConsoleLabel} {id : String}

/-- The world at a later instant. -/
def ConsoleWorld.atInstant (w : ConsoleWorld) (now : Instant) : ConsoleWorld :=
  { w with clock := now }

theorem ConsoleWorld.atInstant_move (w : ConsoleWorld) (now : Instant) :
    w.JobMove (w.atInstant now) := .kept rfl rfl rfl rfl

/-- What an operation of a run does to the jobs. -/
theorem exec_move {o : ConsoleOp} {c : ConsoleChoice} {r : Except ConsoleError (ConsoleAns o)}
    (h : (consoleSystem x).exec o w c = some (r, w')) :
    w.clock ≤ c.now ∧ consoleExec x o (w.atInstant c.now) c = (r, w') ∧
      (w.atInstant c.now).JobMove w' := by
  simp only [consoleSystem, Option.ite_none_right_eq_some, Option.some.injEq] at h
  obtain ⟨hclock, h⟩ := h
  refine ⟨hclock, h, ?_⟩
  have := ConsoleWorld.consoleExec_move x o (w.atInstant c.now) c
  rwa [show (consoleExec x o (w.atInstant c.now) c).2 = w' from congrArg Prod.snd h] at this

/-- A property that every move of the jobs keeps, holds in every run. -/
theorem step_of_move {P : ConsoleWorld → Prop}
    (hP : ∀ w w' : ConsoleWorld, P w → w.JobMove w' → P w') (hs : P s.world)
    (hstep : (consoleSystem x).Step s l t) : P t.world := by
  cases l with
  | start i =>
    obtain rfl := Option.some.inj hstep
    exact hs
  | env e =>
    obtain ⟨w, hw, rfl⟩ := Option.map_eq_some_iff.mp hstep
    exact hP _ _ hs (ConsoleWorld.env_move hw)
  | act n c =>
    obtain ⟨i, o, k, r, w, -, hx, rfl⟩ := System.step_act hstep
    obtain ⟨-, -, hm⟩ := exec_move hx
    exact hP _ _ (hP _ _ hs (s.world.atInstant_move c.now)) hm

theorem locked_run (hw : w.Fresh) (hs : Run (consoleSystem x).Step (State.init w) ls s) :
    s.world.Locked := by
  refine hs.inv (I := fun s : ConsoleState => s.world.Locked)
    (fun s l t h hstep => step_of_move (P := ConsoleWorld.Locked)
      (fun _ _ h hm => h.of_move hm) h hstep) ?_
  obtain ⟨hjobs, -, hlocks, -⟩ := hw
  have hnone : ∀ j, j ∉ w.jobs := by simp [Table.mem_iff, hjobs]
  have hfree : ∀ key lock, w.locks key ≠ some lock := by simp [hlocks]
  exact ⟨fun j hj => absurd hj (hnone j), fun key lock h => absurd h (hfree key lock),
    fun key lock h => absurd h (hfree key lock), fun j hj => absurd hj (hnone j)⟩

/-- In every run, two jobs that recorded their effects and are not done have no resource key in
common ; a job that is not done holds the locks of all its keys or no lock ; and a claim that does
not get all the locks of a job leaves it without any. -/
theorem console_locks (hw : w.Fresh) (hs : Run (consoleSystem x).Step (State.init w) ls s) :
    (∀ a ∈ s.world.jobs, ∀ b ∈ s.world.jobs, a.id ≠ b.id →
      a.status.effectClaimed = true → b.status.effectClaimed = true →
      a.status.state.terminal = false → b.status.state.terminal = false →
      ∀ key ∈ a.spec.resourceKeys, key ∉ b.spec.resourceKeys) ∧
    (∀ j ∈ s.world.jobs, j.status.state.terminal = false →
      (∀ key ∈ j.spec.resourceKeys, ∃ lock, s.world.locks key = some lock ∧ lock.jobId = j.id) ∨
        ∀ key lock, s.world.locks key = some lock → lock.jobId ≠ j.id) ∧
    (∀ worker actions id now token j, s.world.clock ≤ now → s.world.job id = some j →
      (s.world.atInstant now).claimable actions j = true →
      ((s.world.atInstant now).claimJob worker actions id token).2 = none →
      ∀ key lock, ((s.world.atInstant now).claimJob worker actions id token).1.locks key =
        some lock → lock.jobId ≠ id) := by
  have h := locked_run hw hs
  have hclaimed : ∀ j ∈ s.world.jobs, j.status.effectClaimed = true →
      j.status.state.terminal = false → j.Holding := by
    intro j hj heff hlive
    refine ⟨hlive, fun hwait => ?_, ConsoleWorld.recovering_iff.mpr (Or.inr (Or.inr heff))⟩
    have := (h.waiting j hj hwait).2
    rw [heff] at this
    cases this
  refine ⟨fun a ha b hb hne hea heb hla hlb key hka hkb => ?_, fun j hj hlive => ?_,
    fun worker actions id now token j _ hj hclaim hnone => ?_⟩
  · obtain ⟨lock, hlock, hid⟩ := h.held a ha (hclaimed a ha hea hla) key hka
    obtain ⟨lock', hlock', hid'⟩ := h.held b hb (hclaimed b hb heb hlb) key hkb
    rw [hlock] at hlock'
    obtain rfl := Option.some.inj hlock'
    exact hne (hid.symm.trans hid')
  · by_cases hh : j.Holding
    · exact Or.inl (h.held j hj hh)
    · exact Or.inr fun key lock hlock hid => hh (h.owner key lock hlock j hj hid.symm hlive).1
  · exact (h.of_move (s.world.atInstant_move now)).none_of_claimJob hj hclaim hnone

/-! ## Workers in every run -/

/-- The effect a worker dispatches is recorded for the job. -/
def ConsoleWorld.Recorded (w : ConsoleWorld) (id : String) : Prop :=
  ∃ e ∈ w.effects, e.jobId = id ∧ e.effectKey = "adapter_dispatch"

theorem ConsoleWorld.Recorded.later (h : w.Recorded id) (hl : w.Later w') : w'.Recorded id := by
  obtain ⟨e, he, hid⟩ := h
  exact ⟨e, hl.effects he, hid⟩

/-- The claimedJobs that were answered, with their calls. -/
def claimedJobs (tr : List (ℕ × ConsoleEvent)) : List (ℕ × ClaimedJob) :=
  tr.filterMap fun q => (claimedJob q.2).map fun c => (q.1, c)

theorem mem_claimedJobs {tr : List (ℕ × ConsoleEvent)} {n : ℕ} {c : ClaimedJob} :
    (n, c) ∈ claimedJobs tr ↔ ∃ e, (n, e) ∈ tr ∧ claimedJob e = some c := by
  simp only [claimedJobs, List.mem_filterMap, Option.map_eq_some_iff, Prod.mk.injEq, Prod.exists]
  constructor
  · rintro ⟨m, e, he, c', hc, rfl, rfl⟩
    exact ⟨e, he, hc⟩
  · rintro ⟨e, he, hc⟩
    exact ⟨n, e, he, c, hc, rfl, rfl⟩

theorem later_exec {o : ConsoleOp} {c : ConsoleChoice} {r : Except ConsoleError (ConsoleAns o)}
    (h : (consoleSystem x).exec o w c = some (r, w')) : w.Later w' :=
  (ConsoleWorld.Later.of_move (w.atInstant_move c.now)).trans
    (ConsoleWorld.Later.of_move (exec_move h).2.2)

theorem later_step (hstep : (consoleSystem x).Step s l t) : s.world.Later t.world :=
  step_of_move (P := fun w => s.world.Later w)
    (fun _ _ h hm => h.trans (ConsoleWorld.Later.of_move hm)) (.refl _) hstep

theorem later_run (h : Run (consoleSystem x).Step s ls t) : s.world.Later t.world :=
  h.rel (R := fun s t : ConsoleState => s.world.Later t.world) (fun s => .refl s.world)
    (fun _ _ _ hst htu => hst.trans htu) fun _ _ _ hstep => later_step hstep

theorem effectsKnown_run (hw : w.Fresh) (hs : Run (consoleSystem x).Step (State.init w) ls s) :
    s.world.EffectsKnown := by
  refine hs.inv (I := fun s : ConsoleState => s.world.EffectsKnown)
    (fun s l t h hstep => step_of_move (P := ConsoleWorld.EffectsKnown)
      (fun _ _ h hm => h.of_move hm) h hstep) ?_
  obtain ⟨hjobs, heffects, -⟩ := hw
  exact ⟨fun j hj => by simp [Table.mem_iff, State.init, hjobs] at hj,
    fun e he => by simp [State.init, heffects] at he⟩

/-- What an answered claim took. -/
theorem exec_claimedJob {o : ConsoleOp} {ch : ConsoleChoice}
    {r : Except ConsoleError (ConsoleAns o)} {c : ClaimedJob}
    (h : (consoleSystem x).exec o w ch = some (r, w')) (hc : claimedJob ⟨o, r⟩ = some c) :
    ∃ j ∈ w.jobs, ∃ j' ∈ w'.jobs, c.spec = j.spec ∧ j'.spec = j.spec ∧
      c.claimGeneration = j.status.claimGeneration + 1 ∧
      j'.status.claimGeneration = c.claimGeneration ∧
      c.effectClaimed = j.status.effectClaimed := by
  unfold claimedJob at hc
  split at hc
  next worker actions answer heq =>
    cases heq
    subst hc
    obtain ⟨-, h, -⟩ := exec_move h
    have h := Except.ok.inj (ConsoleChoice.commit_ok h)
    obtain ⟨j, s, hj, hj', hspec, hgen, hsgen, -, heff, -⟩ := ConsoleWorld.claimJob_some h
    exact ⟨j, (ConsoleWorld.job_eq_some.mp hj).1, _, (ConsoleWorld.job_eq_some.mp hj').1, hspec,
      rfl, hgen, hsgen, heff⟩
  · cases hc

/-- The effect of a job is recorded where it was not, and is recorded then. -/
theorem exec_recordsEffect {o : ConsoleOp} {ch : ConsoleChoice}
    {r : Except ConsoleError (ConsoleAns o)}
    (h : (consoleSystem x).exec o w ch = some (r, w')) (hr : recordsEffect id ⟨o, r⟩ = true) :
    ¬ w.Recorded id ∧ w'.Recorded id := by
  unfold recordsEffect at hr
  split at hr
  next job heq =>
    obtain rfl : job.spec.id = id := by simpa using hr
    cases heq
    obtain ⟨-, h, -⟩ := exec_move h
    rcases CommandConfig.claimEffect_ok (ConsoleChoice.commit_ok h) with
      ⟨hfalse, -⟩ | ⟨-, hnew, -, heffects⟩
    · cases hfalse
    · refine ⟨fun ⟨e, he, hid⟩ => hnew e he hid, ?_⟩
      exact ⟨_, heffects ▸ List.mem_append_right _ (List.mem_singleton_self _), rfl, rfl⟩
  · cases hr

/-- How often the effect of a job was recorded, and how often it was executed. -/
def recordCount (id : String) (s : ConsoleState) : ℕ :=
  s.trace.countP fun q => recordsEffect id q.2

def executeCount (id : String) (s : ConsoleState) : ℕ :=
  s.trace.countP fun q => executes id q.2

/-- No call executed a job more often than it recorded its effect, each effect was recorded at most
once, and each claim of a job is under a generation of its own. -/
structure WorkedOnce (s : ConsoleState) : Prop where
  balanced : ∀ n id, (own n s.trace).countP (executes id) ≤
    (own n s.trace).countP (recordsEffect id)
  once : ∀ id, recordCount id s ≤ 1
  recorded : ∀ id, recordCount id s ≠ 0 → s.world.Recorded id
  generation : ∀ n c, (n, c) ∈ claimedJobs s.trace → ∃ j ∈ s.world.jobs, j.spec = c.spec ∧
    c.claimGeneration ≤ j.status.claimGeneration
  latest : (claimedJobs s.trace).Pairwise fun a b =>
    a.2.spec.id = b.2.spec.id → a.2.claimGeneration < b.2.claimGeneration

theorem workedOnce_init (w : ConsoleWorld) : WorkedOnce (State.init w) :=
  ⟨fun _ _ => Nat.le_refl _, fun _ => Nat.zero_le _, fun _ h => absurd rfl h,
    fun n c h => by simp [claimedJobs, State.init] at h, by simp [claimedJobs, State.init]⟩

/-- A world in which the jobs last. -/
theorem WorkedOnce.of_later (h : WorkedOnce s) (hl : s.world.Later t.world)
    (ht : t.trace = s.trace) : WorkedOnce t := by
  refine ⟨fun n id => ht ▸ h.balanced n id, fun id => ?_, fun id hne => ?_, fun n c hc => ?_,
    ht ▸ h.latest⟩
  · have := h.once id
    rwa [recordCount, ← ht] at this
  · refine (h.recorded id ?_).later hl
    rwa [recordCount, ← ht]
  · obtain ⟨j, hj, hspec, hgen⟩ := h.generation n c (ht ▸ hc)
    obtain ⟨j', hj', hspec', hgen', -⟩ := hl.jobs j hj
    exact ⟨j', hj', hspec'.trans hspec, hgen.trans hgen'⟩

theorem executes_le_one {es : List ConsoleEvent} (h : Never ConsoleOp.isExecute es) :
    es.countP (executes id) = 0 := by
  rw [List.countP_eq_zero]
  intro e he
  have := h e he
  unfold executes
  split
  next spec heq =>
    rw [heq] at this
    cases this
  · simp

theorem executed_snoc {i : ConsoleCall} {es : List ConsoleEvent} {o : ConsoleOp}
    (h : es.countP (executes id) ≤ es.countP (recordsEffect id)) (hφ : consoleProtocol i es o)
    (r : Except ConsoleError (ConsoleAns o)) :
    (es ++ [(⟨o, r⟩ : ConsoleEvent)]).countP (executes id) ≤
      (es ++ [(⟨o, r⟩ : ConsoleEvent)]).countP (recordsEffect id) := by
  simp only [List.countP_append, List.countP_singleton]
  by_cases hx : executes id ⟨o, r⟩ = true
  · cases o with
    | execute spec =>
      obtain rfl : spec.id = id := by simpa [executes] using hx
      obtain ⟨-, hnever, hrec⟩ := hφ
      have hpos : 0 < es.countP (recordsEffect spec.id) := List.countP_pos_iff.mpr hrec
      rw [executes_le_one hnever, if_pos hx]
      omega
    | _ => simp [executes] at hx
  · rw [if_neg hx]
    omega

theorem claimedJobs_snoc (tr : List (ℕ × ConsoleEvent)) (n : ℕ) (e : ConsoleEvent) :
    claimedJobs (tr ++ [(n, e)]) = claimedJobs tr ++ ((claimedJob e).map fun c => (n, c)).toList := by
  cases h : claimedJob e <;> simp [claimedJobs, h]

theorem workedOnce_acted {n : ℕ} {i : ConsoleCall} {o : ConsoleOp} {c : ConsoleChoice}
    {r : Except ConsoleError (ConsoleAns o)} (h : WorkedOnce s)
    (hφ : consoleProtocol i (own n s.trace) o)
    (hx : (consoleSystem x).exec o s.world c = some (r, w')) (p : ConsoleProg Unit) :
    WorkedOnce (s.acted n i ⟨o, r⟩ p w') := by
  have hlater := later_exec hx
  have htrace : (s.acted n i ⟨o, r⟩ p w').trace = s.trace ++ [(n, ⟨o, r⟩)] := rfl
  have hcount : ∀ id, recordCount id (s.acted n i ⟨o, r⟩ p w') =
      recordCount id s + if recordsEffect id ⟨o, r⟩ = true then 1 else 0 := by
    simp [recordCount, htrace, List.countP_append, List.countP_singleton]
  refine ⟨fun m id => ?_, fun id => ?_, fun id hne => ?_, fun m c' hc' => ?_, ?_⟩
  · rw [State.own_acted]
    split
    next hm => exact hm ▸ executed_snoc (h.balanced n id) hφ r
    · simpa using h.balanced m id
  · rw [hcount]
    split
    next hrec =>
      have hzero : recordCount id s = 0 := by
        by_contra hne
        exact (exec_recordsEffect hx hrec).1 (h.recorded id hne)
      omega
    · exact h.once id
  · rw [hcount] at hne
    split at hne
    next hrec => exact (exec_recordsEffect hx hrec).2
    · exact (h.recorded id hne).later hlater
  · rw [htrace, claimedJobs_snoc] at hc'
    rcases List.mem_append.mp hc' with hc' | hc'
    · obtain ⟨j, hj, hspec, hgen⟩ := h.generation m c' hc'
      obtain ⟨j', hj', hspec', hgen', -⟩ := hlater.jobs j hj
      exact ⟨j', hj', hspec'.trans hspec, hgen.trans hgen'⟩
    · simp only [Option.mem_toList, Option.map_eq_some_iff, Prod.mk.injEq] at hc'
      obtain ⟨c₀, hc₀, rfl, rfl⟩ := hc'
      obtain ⟨j, -, j', hj', hspec, hspec', -, hgen, -⟩ := exec_claimedJob hx hc₀
      exact ⟨j', hj', hspec'.trans hspec.symm, hgen.ge⟩
  · rw [htrace, claimedJobs_snoc, List.pairwise_append]
    refine ⟨h.latest, ?_, fun a ha b hb hid => ?_⟩
    · cases claimedJob ⟨o, r⟩ <;> simp
    · simp only [Option.mem_toList, Option.map_eq_some_iff] at hb
      obtain ⟨c₀, hc₀, rfl⟩ := hb
      -- the new claim is above the generation of the row, and no claim was
      obtain ⟨j, hj, -, -, hspec, -, hgen, -, -⟩ := exec_claimedJob hx hc₀
      obtain ⟨j₀, hj₀, hspec₀, hgen₀⟩ := h.generation a.1 a.2 ha
      have hsame : j₀ = j := ConsoleWorld.job_unique hj₀ hj <| by
        have : j₀.spec.id = j.spec.id := by rw [hspec₀, hid, hspec]
        exact this
      subst hsame
      dsimp only
      omega

theorem workedOnce_run (hs : Run (consoleSystem x).Step (State.init w) ls s) :
    System.Sound (fun _ _ => True) consoleProtocol s ∧ WorkedOnce s := by
  refine System.inv (G := fun _ _ => True) (console_answers x) (console_follows x)
    (fun s i _ h _ => h.of_later (.refl _) rfl) (fun s n i o k c r w _ h hn hφ hx _ => ?_)
    (fun s e w _ h he _ => ?_) (System.sound_init w) (workedOnce_init w)
    (hs.mono fun _ _ _ h => ⟨trivial, h⟩)
  · exact workedOnce_acted h hφ hx _
  · exact h.of_later (ConsoleWorld.Later.of_move (ConsoleWorld.env_move he)) rfl

theorem executeCount_le_one (h : WorkedOnce s) (id : String) : executeCount id s ≤ 1 :=
  (countP_le_of_own (le_refl _) fun n => h.balanced n id).trans (h.once id)

/-- What a call may do with a job whose effect was recorded in `s` : a claim of it is told so, and
only the call that recorded the effect executes the job. -/
def AfterRecord (id : String) (s : ConsoleState) (q : ℕ × ConsoleEvent) : Prop :=
  (∀ c, claimedJob q.2 = some c → c.spec.id = id → c.effectClaimed = true) ∧
    recordsEffect id q.2 = false ∧
    (executes id q.2 = true → ∃ e, (q.1, e) ∈ s.trace ∧ recordsEffect id e = true)

/-- Two claims of one job have different generations. -/
theorem claimedJobs_ordered {cs : List (ℕ × ClaimedJob)} (h : cs.Pairwise fun a b =>
      a.2.spec.id = b.2.spec.id → a.2.claimGeneration < b.2.claimGeneration)
    {a b : ℕ × ClaimedJob} (ha : a ∈ cs) (hb : b ∈ cs) (hid : a.2.spec.id = b.2.spec.id) :
    a = b ∨ a.2.claimGeneration < b.2.claimGeneration ∨
      b.2.claimGeneration < a.2.claimGeneration := by
  induction h with
  | nil => cases ha
  | @cons c cs hc _ ih =>
    rcases List.mem_cons.mp ha with rfl | ha' <;> rcases List.mem_cons.mp hb with rfl | hb'
    · exact Or.inl rfl
    · exact Or.inr (Or.inl (hc b hb' hid))
    · exact Or.inr (Or.inr (hc a ha' hid.symm))
    · exact ih ha' hb'

theorem owned_of_finishJob {job : ClaimedJob} {state : JobState} {result : Option String}
    (h : w.finishJob job state result = .ok w') : ∃ j, w.ownedJob job = some j := by
  unfold ConsoleWorld.finishJob at h
  split at h
  · cases h
  split at h
  · cases h
  next j hj => exact ⟨j, hj⟩

theorem afterRecord_run (hw : w.Fresh) (hs : Run (consoleSystem x).Step (State.init w) ls s)
    (hrec : s.world.Recorded id) (ht : Run (consoleSystem x).Step s ls' t) :
    ∃ tr, t.trace = s.trace ++ tr ∧ ∀ q ∈ tr, AfterRecord id s q := by
  let I : ConsoleState → Prop := fun t => System.Sound (fun _ _ => True) consoleProtocol t ∧
    t.world.EffectsKnown ∧ t.world.Recorded id ∧
    ∃ tr, t.trace = s.trace ++ tr ∧ ∀ q ∈ tr, AfterRecord id s q
  have hstep : ∀ t l u, I t → (consoleSystem x).Step t l u → I u := by
    rintro t l u ⟨hsound, heff, hrec, tr, htr, hafter⟩ hstep
    refine ⟨System.sound_step (console_answers x) (console_follows x) hsound hstep,
      step_of_move (P := ConsoleWorld.EffectsKnown) (fun _ _ h hm => h.of_move hm) heff hstep,
      hrec.later (later_step hstep), ?_⟩
    cases l with
    | start i =>
      obtain rfl := Option.some.inj hstep
      exact ⟨tr, htr, hafter⟩
    | env e =>
      obtain ⟨w, -, rfl⟩ := Option.map_eq_some_iff.mp hstep
      exact ⟨tr, htr, hafter⟩
    | act n c =>
      obtain ⟨i, o, k, r, w, hn, hx, rfl⟩ := System.step_act hstep
      have hφ := System.protocol_of_sound hsound hn
      have hsilent : recordsEffect id ⟨o, r⟩ = false := by
        by_contra h
        exact (exec_recordsEffect hx (by simpa using h)).1 hrec
      refine ⟨tr ++ [(n, ⟨o, r⟩)], by simp [State.acted, htr], fun q hq => ?_⟩
      rcases List.mem_append.mp hq with hq | hq
      · exact hafter q hq
      obtain rfl := List.mem_singleton.mp hq
      refine ⟨fun c' hc' hid => ?_, hsilent, fun hexec => ?_⟩
      · obtain ⟨j, hj, -, -, hspec, -, -, -, hclaimed⟩ := exec_claimedJob hx hc'
        obtain ⟨e, he, heid, -⟩ := hrec
        rw [hclaimed, heff.claimed j hj]
        refine ⟨e, he, heid.trans ?_⟩
        rw [← hid, hspec]
        rfl
      · cases o with
        | execute spec =>
          obtain rfl : spec.id = id := by simpa [executes] using hexec
          obtain ⟨-, -, e, he, hre⟩ := hφ
          have hmem := mem_own.mp he
          rw [htr] at hmem
          rcases List.mem_append.mp hmem with hmem | hmem
          · exact ⟨e, hmem, hre⟩
          · have := (hafter _ hmem).2.1
            rw [hre] at this
            cases this
        | _ => simp [executes] at hexec
  exact (ht.inv (I := I) hstep
    ⟨(workedOnce_run hs).1, effectsKnown_run hw hs, hrec, [], by simp, by simp⟩).2.2.2

/-- The operation belongs to the start of a job, not to its readback. -/
def ConsoleOp.starts : ConsoleOp → Bool
  | .preview _ | .validateStart _ | .beginRunning _ | .claimEffect _ | .execute _ => true
  | _ => false

/-- A call starts only what it claimed as the first. -/
theorem firstLeased_of_starts {i : ConsoleCall} {es : List ConsoleEvent} {o : ConsoleOp}
    (hφ : consoleProtocol i es o) (ho : o.starts = true) : ∃ spec, FirstLeased es spec := by
  cases o with
  | preview spec => exact ⟨_, hφ⟩
  | validateStart job => exact ⟨_, hφ⟩
  | beginRunning job => exact ⟨_, hφ⟩
  | claimEffect job => exact ⟨_, hφ⟩
  | execute spec => exact ⟨_, hφ.1⟩
  | _ => cases ho

/-- A claim is the first event of its call. -/
theorem own_of_claim (hs : Run (consoleSystem x).Step (State.init w) ls s) {n : ℕ}
    {e : ConsoleEvent} {c : ClaimedJob} (he : (n, e) ∈ s.trace) (hc : claimedJob e = some c) :
    ∃ es, own n s.trace = e :: es := by
  obtain ⟨tr, tr', htr⟩ := List.append_of_mem he
  obtain ⟨i, -, hφ⟩ := System.protocol_of_event (console_answers x) (console_follows x) hs htr
  unfold claimedJob at hc
  split at hc
  next worker actions answer =>
    have hnil : own n tr = [] := hφ
    refine ⟨own n tr', ?_⟩
    rw [htr, own_append, hnil]
    simp [own]
  · cases hc

/-- A call that was told that the effect is recorded starts nothing. -/
theorem readback_of_claim (hs : Run (consoleSystem x).Step (State.init w) ls s) {n : ℕ}
    {c : ClaimedJob} (hc : (n, c) ∈ claimedJobs s.trace) (heff : c.effectClaimed = true) :
    ∀ e, (n, e) ∈ s.trace → e.op.starts = false := by
  obtain ⟨e, he, hce⟩ := mem_claimedJobs.mp hc
  intro e' he'
  by_contra hstarts
  obtain ⟨tr, tr', htr⟩ := List.append_of_mem he'
  obtain ⟨i, -, hφ⟩ := System.protocol_of_event (console_answers x) (console_follows x) hs htr
  obtain ⟨spec, e₀, he₀, c₀, hc₀, -, -, heff₀⟩ := firstLeased_of_starts hφ (by simpa using hstarts)
  -- both claims are the first event of the call
  obtain ⟨es, hes⟩ := own_of_claim hs he hce
  have hmem : (n, e₀) ∈ s.trace := by
    rw [htr]
    exact List.mem_append_left _ (mem_own.mp he₀)
  obtain ⟨es₀, hes₀⟩ := own_of_claim hs hmem hc₀
  rw [hes] at hes₀
  obtain rfl := (List.cons.inj hes₀).1
  rw [hce] at hc₀
  obtain rfl := Option.some.inj hc₀
  rw [heff] at heff₀
  cases heff₀

/-- A finished job was finished under its last claim, which was not over. -/
theorem finish_of_lease (hs : Run (consoleSystem x).Step (State.init w) ls s) {n : ℕ}
    {i : ConsoleCall} {c : ConsoleChoice} {job : ClaimedJob} {state : JobState}
    {result : Option String} (hn : s.next n = some (i, .finish job state result))
    (hstep : (consoleSystem x).Step s (.act n c) t) (hchanged : t.world.jobs ≠ s.world.jobs) :
    (∃ j ∈ s.world.jobs, j.spec.id = job.spec.id ∧ j.status.leaseToken = some job.leaseToken ∧
      j.status.claimGeneration = job.claimGeneration ∧
      ∃ deadline, j.status.leaseUntil = some deadline ∧ c.now < deadline) ∧
    ∃ c₀, (n, c₀) ∈ claimedJobs s.trace ∧ SameLease c₀ job ∧ ∀ m c₁, (m, c₁) ∈ claimedJobs s.trace →
      c₁.spec.id = job.spec.id →
      (m, c₁) = (n, c₀) ∨ c₁.claimGeneration < c₀.claimGeneration := by
  obtain ⟨hsound, hinv⟩ := workedOnce_run hs
  obtain ⟨k, hk⟩ := State.next_eq_some.mp hn
  obtain ⟨i', o, k', r, w', hcall, hx, rfl⟩ := System.step_act hstep
  rw [hk] at hcall
  cases hcall
  have hφ : Leased (own n s.trace) job := System.protocol_of_sound hsound hk
  obtain ⟨e, he, c₀, hc₀, hsame⟩ := hφ
  obtain ⟨-, hexec, -⟩ := exec_move hx
  have hw : (c.commit (s.world.atInstant c.now)
      (((s.world.atInstant c.now).finishJob job state result).map (·, ()))).2 = w' :=
    congrArg Prod.snd hexec
  rcases ConsoleChoice.commit_world (c := c) (w := s.world.atInstant c.now)
      (r := ((s.world.atInstant c.now).finishJob job state result).map (·, ())) with heq | ⟨a, ha⟩
  · exact absurd (congrArg ConsoleWorld.jobs (hw.symm.trans heq)) hchanged
  obtain ⟨v, hv, -⟩ := exists_of_map_ok ha
  obtain ⟨j, hj⟩ := owned_of_finishJob hv
  obtain ⟨hj, htoken, hgen, -, deadline, hdead, hlt⟩ := ConsoleWorld.ownedJob_eq_some hj
  obtain ⟨hmem, hid⟩ := ConsoleWorld.job_eq_some.mp hj
  have hclaim : (n, c₀) ∈ claimedJobs s.trace := mem_claimedJobs.mpr ⟨e, mem_own.mp he, hc₀⟩
  refine ⟨⟨j, hmem, hid, htoken, hgen, deadline, hdead, hlt⟩, c₀, hclaim, hsame,
    fun m c₁ hc₁ hid₁ => ?_⟩
  obtain ⟨j₁, hj₁, hspec₁, hgen₁⟩ := hinv.generation m c₁ hc₁
  obtain rfl : j₁ = j := ConsoleWorld.job_unique hj₁ hmem <| by
    have : j₁.spec.id = j.spec.id := by rw [hspec₁, hid₁]; exact hid.symm
    exact this
  by_cases heq : (m, c₁) = (n, c₀)
  · exact Or.inl heq
  -- no other claim has the generation of the row
  refine Or.inr ?_
  have hid' : c₁.spec.id = c₀.spec.id := by rw [hid₁, hsame.1]
  have hle : c₁.claimGeneration ≤ c₀.claimGeneration := by
    rw [hsame.2.2]
    omega
  have hne : c₁.claimGeneration ≠ c₀.claimGeneration := by
    rcases claimedJobs_ordered hinv.latest hc₁ hclaim hid' with h | h | h
    · exact absurd h heq
    · exact h.ne
    · exact h.ne'
  omega

/-- In every run, with `s` a state it passes and `t` its end : a job is executed at most once ; once
its effect is recorded, every claim of it is told so, a call that is told so starts nothing, and
only the call that recorded the effect executes the job ; a job that is done stays as it is ; every
write of a state leaves it or is an allowed transition ; and a job is finished only under its last
claim, before the deadline of the lease. -/
theorem console_workers (hw : w.Fresh) (hs : Run (consoleSystem x).Step (State.init w) ls s)
    (ht : Run (consoleSystem x).Step s ls' t) :
    (∀ id, executeCount id s ≤ 1) ∧
    (∀ id, s.world.Recorded id → ∃ tr, t.trace = s.trace ++ tr ∧ ∀ q ∈ tr, AfterRecord id s q) ∧
    (∀ n c, (n, c) ∈ claimedJobs s.trace → c.effectClaimed = true →
      ∀ e, (n, e) ∈ s.trace → e.op.starts = false) ∧
    (∀ j ∈ s.world.jobs, j.status.state.terminal = true → j ∈ t.world.jobs) ∧
    (∀ write ∈ s.world.stateWrites, ConsoleWorld.Edge write) ∧
    (∀ n i c job state result u, s.next n = some (i, .finish job state result) →
      (consoleSystem x).Step s (.act n c) u → u.world.jobs ≠ s.world.jobs →
      (∃ j ∈ s.world.jobs, j.spec.id = job.spec.id ∧ j.status.leaseToken = some job.leaseToken ∧
        j.status.claimGeneration = job.claimGeneration ∧
        ∃ deadline, j.status.leaseUntil = some deadline ∧ c.now < deadline) ∧
      ∃ c₀, (n, c₀) ∈ claimedJobs s.trace ∧ SameLease c₀ job ∧ ∀ m c₁, (m, c₁) ∈ claimedJobs s.trace →
        c₁.spec.id = job.spec.id →
        (m, c₁) = (n, c₀) ∨ c₁.claimGeneration < c₀.claimGeneration) := by
  refine ⟨executeCount_le_one (workedOnce_run hs).2, fun id hrec => afterRecord_run hw hs hrec ht,
    fun n c hc heff => readback_of_claim hs hc heff, fun j hj hdone => ?_, fun write hwrite => ?_,
    fun n i c job state result u hn hstep hchanged => finish_of_lease hs hn hstep hchanged⟩
  · obtain ⟨j', hj', -, -, hsame⟩ := (later_run ht).jobs j hj
    exact hsame hdone ▸ hj'
  · obtain ⟨writes, heq, hedge⟩ := (later_run hs).writes
    refine hedge write ?_
    rw [heq, show (State.init w : ConsoleState).world.stateWrites = [] from hw.2.2.2.1] at hwrite
    simpa using hwrite

end Runs

/-! ## A job from its preview to its end -/

/-- Every action is an operator's, and payloads are compared by their reasons. -/
def operatorConsole : CommandConfig where
  policyRole _ _ := .ok "operator"
  digest request := request.reason.getD ""
  isUuid _ := true

def incidentScope : ConsoleScope := ⟨"main", "bitget", "LIVE"⟩

def incidentOwner : ConsolePrincipal where
  id := ownerId
  roles := ["owner"]
  scopes := [incidentScope]
  enabled := true
  revision := 1

def incidentSession : ConsoleSession where
  id := "session"
  tokenHash := "hash"
  principalId := ownerId
  csrfToken := ""
  authenticatedAt := 0
  stepUpAt := none
  lastSeenAt := 0
  expiresAt := 1000000000
  absoluteExpiresAt := 1000000000
  principalRevision := 1

def incidentPreview : ConsolePreview where
  id := "preview"
  actorId := ownerId
  sessionId := "session"
  action := "incident.acknowledge"
  scope := incidentScope
  arguments := []
  targetRefs := [("incident", "1")]
  resourceVersion := "1"
  previewDigest := "digest"
  confirmationPhrase := ""
  dangerTier := 1
  policyVersion := policyVersion
  gatesPass := true
  expiresAt := 60000000

def incidentWorld : ConsoleWorld where
  clock := 0
  principals := fun id => if id = ownerId then some incidentOwner else none
  sessions := [incidentSession]
  previews := ⟨[incidentPreview], by simp⟩
  grants := Table.empty
  approvals := []
  receipts := Table.empty
  jobs := Table.empty
  effects := []
  locks _ := none
  stateWrites := []
  grantUses := []

theorem incidentWorld_fresh : incidentWorld.Fresh := by
  refine ⟨rfl, rfl, fun _ => rfl, rfl, rfl, rfl, rfl, fun v hv => ?_, fun g hg => ?_⟩
  · obtain rfl := List.mem_singleton.mp hv
    rfl
  · simp [incidentWorld, Table.mem_iff] at hg

def incidentRequest : EnqueueRequest where
  previewId := some "preview"
  previewDigest := some "digest"
  reason := some "seen"
  policyVersion := some policyVersion
  resourceVersion := some "1"

/-- Every operation is answered, and the handler says that the action succeeded. -/
def ConsoleChoice.served : ConsoleChoice where
  delivery := .answered
  now := 1
  pick := "job"
  token := "token"
  freshId := "job"
  resource := some "1"
  preview := .ok ⟨"1", true⟩
  outcome := .ok ⟨some .succeeded, none⟩

/-- The request is enqueued, and a worker takes `n` steps with the job. -/
def acknowledged (n : ℕ) : List ConsoleLabel :=
  ([.start (.enqueue incidentRequest ⟨ownerId, "session"⟩ "key"), .act 0 .served,
      .start (.work "worker" ["incident.acknowledge"])] : List ConsoleLabel) ++
    (List.replicate n (.act 1 .served) : List ConsoleLabel)

theorem console_workers_acknowledged : ∃ s : ConsoleState,
    Run (consoleSystem operatorConsole).Step (State.init incidentWorld) (acknowledged 9) s ∧
      executeCount "job" s ≠ 0 ∧ executeCount "job" s ≤ 1 := by
  have h : (replay (consoleSystem operatorConsole).step (State.init incidentWorld)
      (acknowledged 9)).any (fun s => executeCount "job" s ≠ 0) = true := by decide +kernel
  obtain ⟨s, hs, hexec⟩ := (Option.any_eq_true _ _).mp h
  have hrun : Run (consoleSystem operatorConsole).Step (State.init incidentWorld)
      (acknowledged 9) s := run_of_replay (fun _ _ _ h => h) hs
  exact ⟨s, hrun, of_decide_eq_true hexec,
    (console_workers incidentWorld_fresh hrun (.nil s)).1 "job"⟩

theorem console_locks_acknowledged : ∃ s : ConsoleState,
    Run (consoleSystem operatorConsole).Step (State.init incidentWorld) (acknowledged 6) s ∧
      (∃ j ∈ s.world.jobs.rows, j.status.effectClaimed = true ∧ j.spec.resourceKeys ≠ []) ∧
      ∀ j ∈ s.world.jobs, j.status.state.terminal = false →
        (∀ key ∈ j.spec.resourceKeys, ∃ lock, s.world.locks key = some lock ∧ lock.jobId = j.id) ∨
          ∀ key lock, s.world.locks key = some lock → lock.jobId ≠ j.id := by
  have h : (replay (consoleSystem operatorConsole).step (State.init incidentWorld)
      (acknowledged 6)).any (fun s => s.world.jobs.rows.any fun j =>
        j.status.effectClaimed && j.spec.resourceKeys ≠ []) = true := by decide +kernel
  obtain ⟨s, hs, hclaimed⟩ := (Option.any_eq_true _ _).mp h
  have hrun : Run (consoleSystem operatorConsole).Step (State.init incidentWorld)
      (acknowledged 6) s := run_of_replay (fun _ _ _ h => h) hs
  refine ⟨s, hrun, by simpa using hclaimed, ?_⟩
  exact (console_locks incidentWorld_fresh hrun).2.1

/-- The first claim of a job writes `queued` again, which is none of the allowed transitions. -/
theorem claim_writes_queued_again : ¬ ∀ s : ConsoleState,
    Run (consoleSystem operatorConsole).Step (State.init incidentWorld) (acknowledged 1) s →
      ∀ write ∈ s.world.stateWrites, write.new ∈ write.old.allowedTransitions := by
  intro hall
  have h : (replay (consoleSystem operatorConsole).step (State.init incidentWorld)
      (acknowledged 1)).any (fun s => s.world.stateWrites.any fun write =>
        write.new ∉ write.old.allowedTransitions) = true := by decide +kernel
  obtain ⟨s, hs, hwrite⟩ := (Option.any_eq_true _ _).mp h
  obtain ⟨write, hmem, hnot⟩ := List.any_eq_true.mp hwrite
  exact of_decide_eq_true hnot (hall s (run_of_replay (fun _ _ _ h => h) hs) write hmem)

end FattyTrader
