import FattyTrader.ConsoleWorkers

/-!
# What an operation of the console does to the jobs

Every transaction that touches the table of jobs rewrites the status of one row or adds a row
(`ConsoleWorld.JobMove`), and each kind of rewriting says what becomes of the state, the lease and
the locks. From it, by one case distinction each : a job that was claimed and is not done holds the
locks of all its keys, any other job that is not done holds none (`ConsoleWorld.Locked`) ; the
column `effect_claimed` says whether an effect of the job is recorded (`ConsoleWorld.EffectsKnown`) ;
a job that is done stays as it is, and every state that is written is the one before or follows it.
-/

set_option linter.unusedSectionVars false

open Tables Programs

namespace FattyTrader

/-- The job was claimed and is not done. -/
def ConsoleJob.Holding (j : ConsoleJob) : Prop :=
  j.status.state.terminal = false ∧ j.status.state ≠ .awaitingApproval ∧ j.recovering = true

namespace ConsoleWorld

variable {w w' w'' : ConsoleWorld} {id : String} {j : ConsoleJob} {s : JobStatus}

theorem job_eq_some : w.job id = some j ↔ j ∈ w.jobs ∧ j.id = id :=
  Table.find_eq_some_iff ConsoleJob.conflict_of_id

/-- The job with an id is the only one. -/
theorem job_unique {a b : ConsoleJob} (ha : a ∈ w.jobs) (hb : b ∈ w.jobs) (hid : a.id = b.id) :
    a = b := by
  rcases Table.eq_or_not_conflict ha hb with rfl | hne
  · rfl
  · exact absurd (ConsoleJob.conflict_of_id a b hid) hne

/-! ## Rewriting one row -/

/-- The row of the job `id`, which was `j`, has the status `s` ; no other row changed. -/
structure Rewrites (w : ConsoleWorld) (id : String) (j : ConsoleJob) (s : JobStatus)
    (w' : ConsoleWorld) : Prop where
  found : w.job id = some j
  mem : ∀ j', j' ∈ w'.jobs ↔ (j' ∈ w.jobs ∧ j'.id ≠ id) ∨ j' = ⟨j.spec, s⟩

/-- A rewriting, where something else changes too. -/
theorem Rewrites.of_jobs {v : ConsoleWorld} (h : w.Rewrites id j s w') (hv : v.jobs = w'.jobs) :
    w.Rewrites id j s v := ⟨h.found, fun j' => hv ▸ h.mem j'⟩

theorem rewrites_setStatus {f : JobStatus → JobStatus} (h : w.job id = some j) :
    w.Rewrites id j (f j.status) (w.setStatus id f) := by
  obtain ⟨hj, hid⟩ := job_eq_some.mp h
  refine ⟨h, fun j' => ?_⟩
  rw [setStatus, Table.mem_rewrite]
  constructor
  · rintro ⟨r, hr, rfl⟩
    by_cases hrid : r.id = id
    · obtain rfl := job_unique hr hj (hrid.trans hid.symm)
      exact Or.inr (by simp [hrid])
    · exact Or.inl ⟨by simpa [hrid] using hr, by simp [hrid]⟩
  · rintro (⟨hj', hne⟩ | rfl)
    · exact ⟨j', hj', by simp [hne]⟩
    · exact ⟨j, hj, by simp [hid]⟩

theorem rewrites_writeState {f : JobStatus → JobStatus} {t : JobState} (h : w.job id = some j) :
    w.Rewrites id j { f j.status with state := t } (w.writeState id t f) :=
  (rewrites_setStatus (f := fun s => { f s with state := t }) h).of_jobs rfl

theorem Rewrites.mem_new (h : w.Rewrites id j s w') : (⟨j.spec, s⟩ : ConsoleJob) ∈ w'.jobs :=
  (h.mem _).mpr (Or.inr rfl)

theorem Rewrites.id_eq (h : w.Rewrites id j s w') : j.spec.id = id := (job_eq_some.mp h.found).2

theorem Rewrites.mem_old (h : w.Rewrites id j s w') : j ∈ w.jobs := (job_eq_some.mp h.found).1

theorem Rewrites.job_eq (h : w.Rewrites id j s w') : w'.job id = some ⟨j.spec, s⟩ :=
  job_eq_some.mpr ⟨h.mem_new, h.id_eq⟩

/-- A second rewriting of the same row. -/
theorem Rewrites.trans {s' : JobStatus} (h : w.Rewrites id j s w')
    (h' : w'.Rewrites id ⟨j.spec, s⟩ s' w'') : w.Rewrites id j s' w'' := by
  refine ⟨h.found, fun j' => ?_⟩
  rw [h'.mem, h.mem]
  constructor
  · rintro (⟨⟨hj', hne⟩ | rfl, hne'⟩ | rfl)
    · exact Or.inl ⟨hj', hne⟩
    · exact absurd h.id_eq hne'
    · exact Or.inr rfl
  · rintro (⟨hj', hne⟩ | rfl)
    · exact Or.inl ⟨Or.inl ⟨hj', hne⟩, hne⟩
    · exact Or.inr rfl

/-- A job after a rewriting, in the two cases. -/
theorem Rewrites.cases {j' : ConsoleJob} (h : w.Rewrites id j s w') (hj' : j' ∈ w'.jobs) :
    (j' ∈ w.jobs ∧ j'.id ≠ id) ∨ j' = ⟨j.spec, s⟩ := (h.mem j').mp hj'

theorem Rewrites.mem_other {j' : ConsoleJob} (h : w.Rewrites id j s w') (hj' : j' ∈ w.jobs)
    (hne : j'.id ≠ id) : j' ∈ w'.jobs := (h.mem j').mpr (Or.inl ⟨hj', hne⟩)

/-! ## Kinds of moves -/

/-- A decision approved the job, by another principal with the role of an owner where the job is of
tier 3. -/
def Approves (w : ConsoleWorld) (j : JobSpec) (w' : ConsoleWorld) : Prop :=
  ∃ a : ConsoleApproval, w'.approvals = w.approvals ++ [a] ∧ a.jobId = j.id ∧
    a.approved = true ∧ (j.dangerTier = 3 → a.principalId ≠ j.actorId ∧
      w.checkPrincipal ⟨a.principalId, a.sessionId⟩ j.scope "owner" = .ok ())

/-- What an operation does to the jobs, the locks, the effects and the record of state writes. -/
inductive JobMove (w : ConsoleWorld) : ConsoleWorld → Prop
  /-- nothing -/
  | kept {w' : ConsoleWorld} : w'.jobs = w.jobs → w'.locks = w.locks → w'.effects = w.effects →
      w'.stateWrites = w.stateWrites → JobMove w w'
  /-- a job that is not done keeps its lease, and its state or a step of it -/
  | moved {w' : ConsoleWorld} {id : String} {j : ConsoleJob} {s : JobStatus} :
      w.Rewrites id j s w' → j.status.state.terminal = false →
      s.leaseToken = j.status.leaseToken → s.claimGeneration = j.status.claimGeneration →
      s.effectClaimed = j.status.effectClaimed →
      (s.state = j.status.state ∨ s.state ∈ j.status.state.allowedTransitions ∧
        s.state ≠ .awaitingApproval ∧ (s.state = .running → s.leaseToken ≠ none)) →
      w'.locks = w.locks → w'.effects = w.effects →
      (w'.stateWrites = w.stateWrites ∨
        w'.stateWrites = w.stateWrites ++ [⟨id, j.status.state, s.state⟩]) →
      (j.status.state = .awaitingApproval → s.state = .queued → w.Approves j.spec w') → JobMove w w'
  /-- a claim took all the locks -/
  | claimed {w' : ConsoleWorld} {id token : String} {j : ConsoleJob} {s : JobStatus} :
      w.Rewrites id j s w' → j.status.state ∈ [.queued, .running, .reconciliationPending] →
      s.state = (if j.recovering then .running else .queued) → s.leaseToken = some token →
      s.claimGeneration = j.status.claimGeneration + 1 →
      s.effectClaimed = j.status.effectClaimed →
      (∀ key ∈ j.spec.resourceKeys, w.lockable id key = true) →
      (w'.locks = fun key => if key ∈ j.spec.resourceKeys then
        some ⟨id, token, j.status.claimGeneration + 1⟩ else w.locks key) →
      w'.effects = w.effects →
      w'.stateWrites = w.stateWrites ++ [⟨id, j.status.state, s.state⟩] → JobMove w w'
  /-- a claim found a resource busy -/
  | busy {w' : ConsoleWorld} {id : String} {j : ConsoleJob} {s : JobStatus} {mid : JobState} :
      w.Rewrites id j s w' → j.status.state ∈ [.queued, .running, .reconciliationPending] →
      mid = (if j.recovering then .running else .queued) →
      s.state = (if j.recovering then .reconciliationPending else .queued) →
      s.leaseToken = none → s.claimGeneration = j.status.claimGeneration + 1 →
      s.effectClaimed = j.status.effectClaimed →
      (∃ key ∈ j.spec.resourceKeys, w.lockable id key = false) → w'.locks = w.locks →
      w'.effects = w.effects →
      w'.stateWrites = w.stateWrites ++ [⟨id, j.status.state, mid⟩, ⟨id, mid, s.state⟩] →
      JobMove w w'
  /-- an effect of a leased job was recorded -/
  | effect {w' : ConsoleWorld} {id : String} {j : ConsoleJob} {s : JobStatus} {e : JobEffect} :
      w.Rewrites id j s w' → j.status.state ∈ [.queued, .running] → j.status.leaseToken ≠ none →
      s.state = j.status.state → s.leaseToken = j.status.leaseToken →
      s.claimGeneration = j.status.claimGeneration → s.effectClaimed = true → e.jobId = id →
      w'.locks = w.locks → w'.effects = w.effects ++ [e] → w'.stateWrites = w.stateWrites →
      JobMove w w'
  /-- a leased job was finished -/
  | finished {w' : ConsoleWorld} {id token : String} {j : ConsoleJob} {s : JobStatus} :
      w.Rewrites id j s w' → j.status.state ∈ [.queued, .running] →
      j.status.leaseToken = some token → s.state ∈ j.status.state.allowedTransitions →
      s.state ∈ JobState.outcomes → s.leaseToken = none →
      s.claimGeneration = j.status.claimGeneration →
      s.effectClaimed = j.status.effectClaimed →
      (s.state = .awaitingApproval → j.status.effectClaimed = false) →
      (w'.locks = w.locks ∧ s.state ≠ .awaitingApproval ∨ w'.locks = (w.unlock id token).locks ∧
        s.state ≠ .reconciliationPending) →
      w'.effects = w.effects →
      w'.stateWrites = w.stateWrites ++ [⟨id, j.status.state, s.state⟩] → JobMove w w'
  /-- a new job -/
  | enqueued {w' : ConsoleWorld} {j : ConsoleJob} :
      (∀ j' ∈ w.jobs, j'.id ≠ j.id) → (∀ j', j' ∈ w'.jobs ↔ j' ∈ w.jobs ∨ j' = j) →
      (j.status = { state := .awaitingApproval } ∨ j.status = { state := .queued }) →
      (j.spec.dangerTier = 3 → j.status.state = .awaitingApproval) →
      w'.locks = w.locks → w'.effects = w.effects → w'.stateWrites = w.stateWrites → JobMove w w'

theorem JobMove.refl (w : ConsoleWorld) : w.JobMove w := .kept rfl rfl rfl rfl

/-! ## Claims -/

theorem stateWrites_writeState {f : JobStatus → JobStatus} {t : JobState}
    (h : w.job id = some j) : (w.writeState id t f).stateWrites =
      w.stateWrites ++ [⟨id, j.status.state, t⟩] := by
  simp [writeState, h]

theorem claimable_state {actions : List String} (h : w.claimable actions j = true) :
    j.status.state ∈ [.queued, .running, .reconciliationPending] := by
  simp only [claimable, Bool.and_eq_true, decide_eq_true_eq] at h
  exact h.1.2

/-- The locks of other jobs, and of the job itself, may be taken or not whatever the state of the
job is. -/
theorem lockable_of_rewrites {k : String} (h : w.Rewrites id j s w') (hl : w'.locks = w.locks) :
    w'.lockable id k = w.lockable id k := by
  unfold lockable
  rw [hl]
  cases hlock : w.locks k with
  | none => rfl
  | some lock =>
    dsimp only
    by_cases hid : lock.jobId = id
    · rw [hid, h.job_eq, h.found]
      simp
    · have hjob : w'.job lock.jobId = w.job lock.jobId := by
        refine Option.ext fun a => ?_
        rw [job_eq_some, job_eq_some, h.mem]
        constructor
        · rintro ⟨⟨ha, -⟩ | rfl, haid⟩
          · exact ⟨ha, haid⟩
          · exact absurd (haid.symm.trans h.id_eq) hid
        · rintro ⟨ha, haid⟩
          exact ⟨Or.inl ⟨ha, fun hne => hid (haid.symm.trans hne)⟩, haid⟩
      rw [hjob]

theorem busy_of_lockResources {spec : JobSpec} {token : String} {generation : ℕ}
    (h : w.lockResources spec token generation = none) :
    ∃ key ∈ spec.resourceKeys, w.lockable spec.id key = false := by
  simp only [lockResources, ite_eq_right_iff, reduceCtorEq, imp_false, List.all_eq_true,
    not_forall] at h
  obtain ⟨key, hkey, hnot⟩ := h
  exact ⟨key, hkey, by simpa using hnot⟩

theorem claimJob_move {worker pick token : String} {actions : List String} {lease : ℕ} :
    w.JobMove (w.claimJob worker actions pick token lease).1 := by
  unfold claimJob
  split
  · exact .refl _
  next j hj =>
    split
    · exact .refl _
    next hclaim =>
      have hstate := claimable_state (by simpa using hclaim)
      have hid := (job_eq_some.mp hj).2
      have hrew := rewrites_writeState (f := claimStatus worker token (w.clock + seconds lease))
        (t := if j.recovering then .running else .queued) hj
      have hlockable := fun key => lockable_of_rewrites (k := key) hrew rfl
      dsimp only
      split
      next hbusy =>
        have hrew' := hrew.trans (rewrites_writeState (f := releaseStatus)
          (t := if j.recovering then .reconciliationPending else .queued) hrew.job_eq)
        refine .busy hrew' hstate rfl rfl rfl rfl rfl ?_ rfl rfl ?_
        · obtain ⟨key, hkey, hnot⟩ := busy_of_lockResources hbusy
          rw [show j.spec.id = pick from hid, hlockable] at hnot
          exact ⟨key, hkey, hnot⟩
        · rw [stateWrites_writeState hrew.job_eq, stateWrites_writeState hj]
          simp
      next locked hlocked =>
        simp only [lockResources, Option.ite_none_right_eq_some, Option.some.injEq,
          List.all_eq_true] at hlocked
        obtain ⟨hall, rfl⟩ := hlocked
        refine .claimed (hrew.of_jobs rfl) hstate rfl rfl rfl rfl (fun key hkey => ?_) ?_ rfl ?_
        · rw [← hlockable key]
          exact hid ▸ hall key hkey
        · funext key
          exact hid ▸ rfl
        · exact stateWrites_writeState (f := claimStatus worker token (w.clock + seconds lease)) hj

/-! ## The other transactions of a worker -/

theorem ownedJob_eq_some {c : ClaimedJob} (h : w.ownedJob c = some j) :
    w.job c.spec.id = some j ∧ j.status.leaseToken = some c.leaseToken ∧
      j.status.claimGeneration = c.claimGeneration ∧ j.status.state ∈ [.queued, .running] ∧
      ∃ t, j.status.leaseUntil = some t ∧ w.clock < t := by
  obtain ⟨hj, hcond⟩ := Option.filter_eq_some_iff.mp h
  simp only [Bool.and_eq_true, decide_eq_true_eq, Option.any_eq_true] at hcond
  exact ⟨hj, hcond.1.1.1, hcond.1.1.2, hcond.1.2, hcond.2⟩

theorem terminal_of_leased (h : j.status.state ∈ [.queued, .running]) :
    j.status.state.terminal = false := by
  have : j.status.state = .queued ∨ j.status.state = .running := by simpa using h
  rcases this with h | h <;> rw [h] <;> rfl

/-- A job that keeps its state and its lease. -/
theorem touched_move {f : JobStatus → JobStatus} (hj : w.job id = some j)
    (hlive : j.status.state.terminal = false) (hstate : (f j.status).state = j.status.state)
    (htoken : (f j.status).leaseToken = j.status.leaseToken)
    (hgen : (f j.status).claimGeneration = j.status.claimGeneration)
    (heff : (f j.status).effectClaimed = j.status.effectClaimed) :
    w.JobMove (w.setStatus id f) :=
  .moved (rewrites_setStatus hj) hlive htoken hgen heff (Or.inl hstate) rfl rfl (Or.inl rfl)
    fun hwait hq => by rw [hstate, hwait] at hq; cases hq

theorem renewLease_move {c : ClaimedJob} {lease : ℕ} (h : w.renewLease c lease = some w') :
    w.JobMove w' := by
  obtain ⟨j, hj, rfl⟩ := Option.map_eq_some_iff.mp h
  obtain ⟨hj, -, -, hstate, -⟩ := ownedJob_eq_some hj
  exact touched_move hj (terminal_of_leased hstate) rfl rfl rfl rfl

theorem checkpoint_move {c : ClaimedJob} (h : w.checkpoint c = .ok w') : w.JobMove w' := by
  unfold checkpoint at h
  split at h
  · cases h
  next j hj =>
    obtain rfl := Except.ok.inj h
    obtain ⟨hj, -, -, hstate, -⟩ := ownedJob_eq_some hj
    exact touched_move hj (terminal_of_leased hstate) rfl rfl rfl rfl

theorem finishJob_move {c : ClaimedJob} {state : JobState} {result : Option String}
    (h : w.finishJob c state result = .ok w') : w.JobMove w' := by
  unfold finishJob at h
  split at h
  · cases h
  next hout =>
    split at h
    · cases h
    next j hj =>
      obtain ⟨hj, htoken, -, hstate, -⟩ := ownedJob_eq_some hj
      split at h
      · cases h
      next hallowed =>
        split at h
        · cases h
        next hclaimed =>
          have hrew := rewrites_writeState (f := finishStatus w.clock state result)
            (t := state) hj
          have hwrites := stateWrites_writeState (f := finishStatus w.clock state result)
            (t := state) hj
          have hwait : state = .awaitingApproval → j.status.effectClaimed = false := by
            rintro rfl
            simpa using hclaimed
          dsimp only at h
          split at h
          next hunlock =>
            obtain rfl := Except.ok.inj h
            refine .finished (hrew.of_jobs rfl) hstate htoken (not_not.mp hallowed)
              (not_not.mp hout) rfl rfl rfl hwait (Or.inr ⟨rfl, ?_⟩) rfl hwrites
            rintro rfl
            simp [JobState.terminal] at hunlock
          next hkeep =>
            obtain rfl := Except.ok.inj h
            refine .finished hrew hstate htoken (not_not.mp hallowed) (not_not.mp hout) rfl rfl
              rfl hwait (Or.inl ⟨rfl, ?_⟩) rfl hwrites
            rintro rfl
            simp [hwait] at hkeep

end ConsoleWorld

namespace CommandConfig

open ConsoleWorld

variable {x : CommandConfig} {w w' : ConsoleWorld} {c : ClaimedJob} {j : ConsoleJob}

/-- Authority consumes an approval, and nothing else. -/
theorem authority_ok {consume : Bool} (h : x.authority w j consume = .ok w') :
    ∃ approvals, w' = { w with approvals } := by
  unfold authority at h
  obtain ⟨role, -, h⟩ := exists_of_bind_ok h
  dsimp only at h
  split at h
  · cases h
  obtain ⟨-, -, h⟩ := exists_of_bind_ok h
  split at h
  · cases h
  split at h
  · cases h
  split at h
  · cases h
  split at h
  · unfold checkApproval at h
    dsimp only at h
    split at h
    · cases h
    split at h
    · cases h
    split at h
    · cases h
    obtain ⟨-, -, h⟩ := exists_of_bind_ok h
    split at h
    · cases h
    split at h
    · exact ⟨_, (Except.ok.inj h).symm⟩
    · exact ⟨w.approvals, (Except.ok.inj h).symm⟩
  · exact ⟨w.approvals, (Except.ok.inj h).symm⟩

theorem validateStart_move (h : x.validateStart w c = .ok w') : w.JobMove w' := by
  unfold validateStart at h
  split at h
  · cases h
  split at h
  · cases h
  obtain ⟨approvals, rfl⟩ := authority_ok h
  exact .kept rfl rfl rfl rfl

/-- The row `effect_authority` answers with is the leased row of the job. -/
theorem effectAuthority_ok (h : x.effectAuthority w c = .ok j) : w.ownedJob c = some j := by
  unfold effectAuthority at h
  split at h
  · cases h
  next current hcurrent =>
    split at h
    · cases h
    obtain ⟨-, -, rfl⟩ := exists_of_map_ok h
    exact hcurrent

theorem beginRunning_move (h : x.beginRunning w c = .ok w') : w.JobMove w' := by
  unfold beginRunning at h
  obtain ⟨j, hj, h⟩ := exists_of_bind_ok h
  split at h
  · cases h
  next hqueued =>
    obtain rfl := Except.ok.inj h
    obtain ⟨hj, htoken, -, hstate, -⟩ := ownedJob_eq_some (effectAuthority_ok hj)
    have hqueued : j.status.state = .queued := not_not.mp hqueued
    refine .moved (rewrites_writeState hj) (terminal_of_leased hstate) rfl rfl rfl
      (Or.inr ⟨?_, nofun, fun _ => ?_⟩) rfl rfl (Or.inr ?_) nofun
    · simp [hqueued, JobState.allowedTransitions]
    · exact htoken ▸ nofun
    · exact stateWrites_writeState hj

/-- What `claim_effect` does : nothing where the effect is there, else it records the effect. -/
theorem claimEffect_ok {key : String} {new : Bool} (h : x.claimEffect w c key = .ok (w', new)) :
    (new = false ∧ w' = w ∧ ∃ e ∈ w.effects, e.jobId = c.spec.id ∧ e.effectKey = key) ∨
      (new = true ∧ (∀ e ∈ w.effects, ¬ (e.jobId = c.spec.id ∧ e.effectKey = key)) ∧
        w.JobMove w' ∧ w'.effects = w.effects ++
          [⟨c.spec.id, key, c.leaseToken, c.claimGeneration⟩]) := by
  unfold claimEffect at h
  obtain ⟨j, hj, h⟩ := exists_of_bind_ok h
  split at h
  next hthere =>
    obtain ⟨rfl, rfl⟩ := Prod.mk.inj (Except.ok.inj h)
    exact Or.inl ⟨rfl, rfl, by simpa using hthere⟩
  next hnew =>
    obtain ⟨rfl, rfl⟩ := Prod.mk.inj (Except.ok.inj h)
    obtain ⟨hj, htoken, -, hstate, -⟩ := ownedJob_eq_some (effectAuthority_ok hj)
    refine Or.inr ⟨rfl, by simpa using hnew, ?_, rfl⟩
    have hfound : ({ w with effects := w.effects ++
        [⟨c.spec.id, key, c.leaseToken, c.claimGeneration⟩] } : ConsoleWorld).job c.spec.id =
          some j := hj
    have hrew := rewrites_setStatus hfound (f := fun s =>
      { s with effectClaimed := true, revision := s.revision + 1 })
    exact .effect ⟨hj, hrew.mem⟩ hstate (htoken ▸ nofun) rfl rfl rfl rfl rfl rfl rfl rfl

theorem claimEffect_move {key : String} {new : Bool} (h : x.claimEffect w c key = .ok (w', new)) :
    w.JobMove w' := by
  rcases claimEffect_ok h with ⟨-, rfl, -⟩ | ⟨-, -, hmove, -⟩
  · exact .refl _
  · exact hmove

/-! ## Commands -/

variable {jobId key payloadDigest previewDigest action : String} {principal : PrincipalRef}
  {request : ControlRequest} {resource : Option String} {approved decision : Bool}
  {grant : StepUpGrant} {scope : ConsoleScope}

theorem latest_mem {α : Type} {time : α → Instant} {a : α} :
    ∀ {as : List α}, latest time as = some a → a ∈ as
  | [], h => by cases h
  | b :: as, h => by
    unfold latest at h
    split at h
    · obtain rfl := Option.some.inj h
      exact List.mem_cons_self
    next c hc =>
      split at h
      · obtain rfl := Option.some.inj h
        exact List.mem_cons_of_mem _ (latest_mem hc)
      · obtain rfl := Option.some.inj h
        exact List.mem_cons_self

/-- What taking a grant does : a grant that was not consumed is consumed for the job. -/
theorem takeGrant_ok
    (h : w.takeGrant principal previewDigest action scope jobId decision = .ok (w', grant)) :
    grant ∈ w.grants ∧ grant.consumedAt = none ∧ ∃ grants,
      w' = { w with grants, grantUses := w.grantUses ++ [⟨grant.id, jobId, decision⟩] } ∧
      ∀ g, g ∈ grants ↔ ∃ g₀ ∈ w.grants, (if g₀.id = grant.id then
        { g₀ with consumedAt := some w.clock, jobId := some jobId } else g₀) = g := by
  unfold takeGrant at h
  split at h
  · cases h
  next g hg =>
    obtain ⟨rfl, rfl⟩ := Prod.mk.inj (Except.ok.inj h)
    have hmem := List.mem_filter.mp (latest_mem hg)
    simp only [Bool.and_eq_true, decide_eq_true_eq] at hmem
    exact ⟨hmem.1, hmem.2.2, _, rfl, fun g => Table.mem_rewrite⟩

theorem authorizedJob_ok {request : Option ControlRequest}
    (h : x.authorizedJob w jobId principal request = .ok j) : w.job jobId = some j := by
  unfold authorizedJob at h
  split at h
  · cases h
  next job hjob =>
    obtain ⟨-, -, h⟩ := exists_of_bind_ok h
    obtain ⟨-, -, h⟩ := exists_of_bind_ok h
    obtain ⟨-, -, h⟩ := exists_of_bind_ok h
    rw [hjob, Except.ok.inj h]

/-- What `checkDecision` requires of the job : it may still be decided on, and a job of tier 3 is
decided on by another principal with the role of an owner. -/
theorem checkDecision_ok {reason : String}
    (h : x.checkDecision w j principal request approved resource = .ok reason) :
    j.status.state ∈ [.awaitingApproval, .queued] ∧ j.status.effectClaimed = false ∧
      (j.spec.dangerTier = 3 → principal.id ≠ j.spec.actorId ∧
        w.checkPrincipal principal j.spec.scope "owner" = .ok ()) := by
  unfold checkDecision at h
  obtain ⟨role, hrole, h⟩ := exists_of_bind_ok h
  obtain ⟨⟨⟩, hprincipal, h⟩ := exists_of_bind_ok h
  split at h
  · cases h
  next hstate =>
    split at h
    · cases h
    split at h
    · cases h
    next hother =>
      push Not at hstate
      refine ⟨hstate.1, by simpa using hstate.2, fun htier => ⟨fun hid => hother ⟨htier, hid.symm⟩, ?_⟩⟩
      rw [decisionRole, if_pos htier] at hrole
      obtain rfl := Except.ok.inj hrole
      exact hprincipal

/-- What a decision does : it consumes a grant, keeps the approval, and writes the state. -/
theorem insertDecision_ok {approvalId reason : String}
    (h : insertDecision w approvalId j principal approved reason = .ok w') :
    ∃ grant granted grants approval, granted = ({ w with
        grants, grantUses := w.grantUses ++ [⟨grant.id, j.spec.id, true⟩] } : ConsoleWorld) ∧
      w.takeGrant principal j.spec.previewDigest j.spec.action j.spec.scope j.spec.id true =
        .ok (granted, grant) ∧
      approval.jobId = j.spec.id ∧ approval.principalId = principal.id ∧
      approval.sessionId = principal.sessionId ∧ approval.approved = approved ∧
      w' = ({ granted with approvals := granted.approvals ++ [approval] } : ConsoleWorld).writeState
        j.spec.id (if approved then .queued else .rejected)
        fun s => { s with revision := s.revision + 1 } := by
  unfold insertDecision at h
  obtain ⟨⟨granted, grant⟩, hgrant, h⟩ := exists_of_bind_ok h
  obtain ⟨-, -, grants, hgranted, -⟩ := takeGrant_ok hgrant
  dsimp only at h
  split at h
  · cases h
  · exact ⟨grant, granted, grants, _, hgranted, hgrant, rfl, rfl, rfl, rfl,
      (Except.ok.inj h).symm⟩

theorem decision_move {approvalId : String}
    (h : x.decision w approvalId resource jobId request principal approved = .ok w') :
    w.JobMove w' := by
  unfold CommandConfig.decision at h
  obtain ⟨-, -, h⟩ := exists_of_bind_ok h
  obtain ⟨j, hj, h⟩ := exists_of_bind_ok h
  obtain ⟨reason, hreason, h⟩ := exists_of_bind_ok h
  have hj := authorizedJob_ok hj
  have hid : j.spec.id = jobId := (job_eq_some.mp hj).2
  obtain ⟨hstate, heff, hother⟩ := checkDecision_ok hreason
  obtain ⟨grant, granted, grants, approval, rfl, -, hjob, hprincipal, hsession, hyes, rfl⟩ :=
    insertDecision_ok h
  have hstate : j.status.state = .awaitingApproval ∨ j.status.state = .queued := by
    simpa using hstate
  have hrew := rewrites_writeState (w := { w with
      grants := grants
      grantUses := w.grantUses ++ [⟨grant.id, j.spec.id, true⟩]
      approvals := w.approvals ++ [approval] })
    (t := if approved then .queued else .rejected)
    (f := fun s => { s with revision := s.revision + 1 }) (hid ▸ hj)
  refine .moved (j := j) ⟨hid ▸ hj, hrew.mem⟩ ?_ rfl rfl rfl ?_ rfl rfl
    (Or.inr (stateWrites_writeState (hid ▸ hj))) ?_
  · rcases hstate with h | h <;> rw [h] <;> rfl
  · cases approved with
    | true =>
      rcases hstate with h | h
      · exact Or.inr ⟨by simp [h, JobState.allowedTransitions], nofun, nofun⟩
      · exact Or.inl h.symm
    | false =>
      refine Or.inr ⟨?_, nofun, nofun⟩
      rcases hstate with h | h <;> simp [h, JobState.allowedTransitions]
  · intro _ hq
    refine ⟨approval, rfl, hjob, hyes.trans ?_, fun htier => ?_⟩
    · by_contra hno
      simp [hno] at hq
    · rw [hprincipal, hsession]
      exact hother htier

theorem cancel_move (h : x.cancel w jobId request principal = .ok w') : w.JobMove w' := by
  unfold cancel at h
  obtain ⟨-, -, h⟩ := exists_of_bind_ok h
  obtain ⟨j, hj, h⟩ := exists_of_bind_ok h
  have hj := authorizedJob_ok hj
  have hid : j.spec.id = jobId := (job_eq_some.mp hj).2
  split at h
  · obtain rfl := Except.ok.inj h
    exact .refl _
  obtain ⟨-, -, h⟩ := exists_of_bind_ok h
  obtain ⟨-, -, h⟩ := exists_of_bind_ok h
  split at h
  · cases h
  next hlive =>
    obtain rfl := Except.ok.inj h
    refine .moved (rewrites_writeState (hid ▸ hj)) (by simpa using hlive) rfl rfl rfl ?_ rfl rfl
      (Or.inr (stateWrites_writeState (hid ▸ hj))) fun hwait hq => ?_
    · dsimp only
      split
      next hbefore =>
        refine Or.inr ⟨?_, nofun, nofun⟩
        have : j.status.state = .queued ∨ j.status.state = .awaitingApproval := by
          simpa using hbefore.1
        rcases this with h | h <;> simp [h, JobState.allowedTransitions]
      · exact Or.inl rfl
    · dsimp only at hq
      split at hq
      · cases hq
      · rw [hwait] at hq
        cases hq

theorem wake_move (h : x.wake w jobId request principal = .ok w') : w.JobMove w' := by
  unfold wake at h
  obtain ⟨-, -, h⟩ := exists_of_bind_ok h
  obtain ⟨j, hj, h⟩ := exists_of_bind_ok h
  have hj := authorizedJob_ok hj
  have hid : j.spec.id = jobId := (job_eq_some.mp hj).2
  split at h
  · cases h
  next hpending =>
    split at h
    · cases h
    · obtain rfl := Except.ok.inj h
      have hpending : j.status.state = .reconciliationPending := not_not.mp hpending
      exact touched_move (hid ▸ hj) (by rw [hpending]; rfl) rfl rfl rfl rfl

/-- What the writes of a new request do. -/
theorem insertJob_ok (h : insertJob w j principal key payloadDigest = .ok w') :
    ∃ jobs receipts grants previews uses, w.jobs.insert j = some jobs ∧
      w.receipts.insert ⟨principal.id, j.spec.action, j.spec.scope.accountId,
        j.spec.scope.environment, key, payloadDigest, j.spec.id⟩ = some receipts ∧
      w' = { w with jobs, receipts, grants, previews, grantUses := w.grantUses ++ uses } ∧
      previews = (w.consumePreview j.spec.previewId j.spec.id).previews ∧
      ((uses = [] ∧ grants = w.grants) ∨ ∃ grant granted,
        ({ w with jobs } : ConsoleWorld).takeGrant principal j.spec.previewDigest j.spec.action
          j.spec.scope j.spec.id false = .ok (granted, grant) ∧ grants = granted.grants ∧
        uses = [⟨grant.id, j.spec.id, false⟩]) := by
  unfold insertJob at h
  split at h
  · cases h
  next jobs hjobs =>
    obtain ⟨granted, hgranted, h⟩ := exists_of_bind_ok h
    dsimp only at h
    split at h
    · cases h
    next receipts hreceipts =>
      obtain rfl := Except.ok.inj h
      unfold takeInitiatorGrant at hgranted
      split at hgranted
      · obtain ⟨⟨v, grant⟩, hgrant, rfl⟩ := exists_of_map_ok hgranted
        obtain ⟨-, -, grants, rfl, -⟩ := takeGrant_ok hgrant
        exact ⟨jobs, receipts, grants, _, _, hjobs, hreceipts, rfl, rfl,
          Or.inr ⟨grant, _, hgrant, rfl, rfl⟩⟩
      · obtain rfl := Except.ok.inj hgranted
        exact ⟨jobs, receipts, w.grants, _, [], hjobs, hreceipts, by simp [consumePreview], rfl,
          Or.inl ⟨rfl, rfl⟩⟩

theorem insertJob_move (hstatus : j.status = { state := .awaitingApproval } ∨
      j.status = { state := .queued })
    (htier : j.spec.dangerTier = 3 → j.status.state = .awaitingApproval)
    (h : insertJob w j principal key payloadDigest = .ok w') : w.JobMove w' := by
  obtain ⟨jobs, receipts, grants, previews, uses, hjobs, -, rfl, -⟩ := insertJob_ok h
  refine .enqueued (j := j) (fun j' hj' hid => ?_) (fun j' => Table.mem_insert hjobs) hstatus htier
    rfl rfl rfl
  exact Table.insert_isSome_iff.mp (Option.isSome_of_eq_some hjobs) j' hj' (Or.inl hid)

theorem enqueue_move {freshId : String} {r : EnqueueRequest} {answer : CommandAnswer}
    (h : x.enqueue w freshId resource r principal key = .ok (w', answer)) : w.JobMove w' := by
  unfold enqueue at h
  obtain ⟨preview, -, h⟩ := exists_of_bind_ok h
  split at h
  · split at h
    · cases h
    · split at h
      · cases h
      · obtain ⟨rfl, -⟩ := Prod.mk.inj (Except.ok.inj h)
        exact .refl _
  · obtain ⟨reason, -, h⟩ := exists_of_bind_ok h
    obtain ⟨v, hv, h⟩ := exists_of_bind_ok h
    obtain ⟨rfl, -⟩ := Prod.mk.inj (Except.ok.inj h)
    refine insertJob_move ?_ (fun htier => if_pos htier) hv
    unfold newJob
    dsimp only
    split
    · exact Or.inl rfl
    · exact Or.inr rfl

end CommandConfig

/-- A transaction leaves the world, or what it answers with. -/
theorem ConsoleChoice.commit_world {α : Type} {c : ConsoleChoice} {w : ConsoleWorld}
    {r : Except ConsoleError (ConsoleWorld × α)} :
    (c.commit w r).2 = w ∨ ∃ a, r = .ok ((c.commit w r).2, a) := by
  unfold ConsoleChoice.commit
  split
  · exact Or.inl rfl
  · split
    · exact Or.inr ⟨_, rfl⟩
    · exact Or.inr ⟨_, rfl⟩
    · exact Or.inl rfl

/-- An answered transaction was applied. -/
theorem ConsoleChoice.commit_ok {α : Type} {c : ConsoleChoice} {w w' : ConsoleWorld} {a : α}
    {r : Except ConsoleError (ConsoleWorld × α)} (h : c.commit w r = (.ok a, w')) :
    r = .ok (w', a) := by
  unfold ConsoleChoice.commit at h
  split at h
  · cases (Prod.mk.inj h).1
  · split at h
    · obtain ⟨ha, rfl⟩ := Prod.mk.inj h
      rw [Except.ok.inj ha]
    · cases (Prod.mk.inj h).1
    · cases (Prod.mk.inj h).1

namespace ConsoleWorld

variable {x : CommandConfig} {w w' : ConsoleWorld} {o : ConsoleOp} {c : ConsoleChoice}

/-- A transaction moves the jobs where its result does. -/
theorem commit_move {α : Type} {r : Except ConsoleError (ConsoleWorld × α)}
    (h : ∀ w' a, r = .ok (w', a) → w.JobMove w') : w.JobMove (c.commit w r).2 := by
  rcases ConsoleChoice.commit_world (c := c) (w := w) (r := r) with heq | ⟨a, ha⟩
  · rw [heq]
    exact .refl _
  · exact h _ a ha

theorem commit_unit_move {r : Except ConsoleError ConsoleWorld}
    (h : ∀ w', r = .ok w' → w.JobMove w') : w.JobMove (c.commit w (r.map (·, ()))).2 := by
  refine commit_move fun w' a hr => ?_
  obtain ⟨v, hv, heq⟩ := exists_of_map_ok hr
  obtain ⟨rfl, -⟩ := Prod.mk.inj heq
  exact h _ hv

theorem consoleExec_move (x : CommandConfig) (o : ConsoleOp) (w : ConsoleWorld)
    (c : ConsoleChoice) : w.JobMove (consoleExec x o w c).2 := by
  cases o with
  | claimJob worker actions =>
    refine commit_move fun w' a h => ?_
    rw [← (Prod.mk.inj (Except.ok.inj h)).1]
    exact claimJob_move
  | preview job => exact .refl _
  | execute job => exact .refl _
  | reconcile job => exact .refl _
  | validateStart job => exact commit_unit_move fun w' h => CommandConfig.validateStart_move h
  | checkpoint job => exact commit_unit_move fun w' h => checkpoint_move h
  | beginRunning job => exact commit_unit_move fun w' h => CommandConfig.beginRunning_move h
  | claimEffect job => exact commit_move fun w' a h => CommandConfig.claimEffect_move h
  | finish job state result => exact commit_unit_move fun w' h => finishJob_move h
  | enqueue request principal key => exact commit_move fun w' a h => CommandConfig.enqueue_move h
  | decision jobId request principal approved =>
    exact commit_unit_move fun w' h => CommandConfig.decision_move h
  | cancel jobId request principal =>
    exact commit_unit_move fun w' h => CommandConfig.cancel_move h
  | wake jobId request principal => exact commit_unit_move fun w' h => CommandConfig.wake_move h

theorem env_move {e : ConsoleEnv} (h : w.env e = some w') : w.JobMove w' := by
  cases e with
  | authenticate principals sessions =>
    obtain rfl := Option.some.inj h
    exact .kept rfl rfl rfl rfl
  | preview preview =>
    obtain ⟨previews, -, rfl⟩ := Option.map_eq_some_iff.mp h
    exact .kept rfl rfl rfl rfl
  | grant grant =>
    obtain ⟨grants, -, rfl⟩ := Option.map_eq_some_iff.mp h
    exact .kept rfl rfl rfl rfl
  | renew job => exact renewLease_move h

/-! ## Locks -/

/-- A job that was claimed and is not done holds the locks of its keys ; a lock is held under the
token of the last claim, by a job that was claimed, on one of its keys ; a job that waits for an
approval has no lease. -/
structure Locked (w : ConsoleWorld) : Prop where
  held : ∀ j ∈ w.jobs, j.Holding → ∀ key ∈ j.spec.resourceKeys,
    ∃ lock, w.locks key = some lock ∧ lock.jobId = j.id
  owner : ∀ key lock, w.locks key = some lock → ∀ j ∈ w.jobs, j.id = lock.jobId →
    j.status.state.terminal = false → j.Holding ∧ key ∈ j.spec.resourceKeys ∧
      ∀ token, j.status.leaseToken = some token → lock.leaseToken = token
  known : ∀ key lock, w.locks key = some lock → ∃ j ∈ w.jobs, j.id = lock.jobId
  waiting : ∀ j ∈ w.jobs, j.status.state = .awaitingApproval →
    j.status.leaseToken = none ∧ j.status.effectClaimed = false

variable {id : String} {j : ConsoleJob} {s : JobStatus}

theorem recovering_iff : j.recovering = true ↔
    j.status.state ≠ .queued ∨ j.status.leaseToken ≠ none ∨ j.status.effectClaimed = true := by
  simp [ConsoleJob.recovering, Option.isSome_iff_ne_none, or_assoc]

/-- A job with a lease was claimed. -/
theorem holding_of_leased (hstate : j.status.state ∈ [.queued, .running])
    (htoken : j.status.leaseToken ≠ none) : j.Holding := by
  refine ⟨terminal_of_leased hstate, ?_, recovering_iff.mpr (Or.inr (Or.inl htoken))⟩
  rintro heq
  simp [heq] at hstate

/-- A lock of a job that held all its keys may be taken by no other job. -/
theorem Locked.not_lockable (h : w.Locked) (hj : j ∈ w.jobs) (hold : j.Holding) {key : String}
    (hkey : key ∈ j.spec.resourceKeys) (hne : j.id ≠ id) : w.lockable id key = false := by
  obtain ⟨lock, hlock, hid⟩ := h.held j hj hold key hkey
  unfold lockable
  rw [hlock]
  dsimp only
  rw [hid, job_eq_some.mpr ⟨hj, rfl⟩]
  simp [hne, hold.1]

/-- A job that was claimed may take all its locks again. -/
theorem Locked.lockable_of_holding (h : w.Locked) (hj : j ∈ w.jobs) (hold : j.Holding)
    {key : String} (hkey : key ∈ j.spec.resourceKeys) : w.lockable j.id key = true := by
  obtain ⟨lock, hlock, hid⟩ := h.held j hj hold key hkey
  unfold lockable
  rw [hlock]
  dsimp only
  rw [hid, job_eq_some.mpr ⟨hj, rfl⟩]
  simp

theorem claimable_of_mem (h : j.status.state ∈ [.queued, .running, .reconciliationPending]) :
    j.status.state.terminal = false ∧ j.status.state ≠ .awaitingApproval := by
  have : j.status.state = .queued ∨ j.status.state = .running ∨
      j.status.state = .reconciliationPending := by simpa using h
  rcases this with h | h | h <;> rw [h] <;> exact ⟨rfl, nofun⟩

/-- A job that was claimed before holds its locks, and never finds one of them busy. -/
theorem Locked.first_of_busy (h : w.Locked) (hj : w.job id = some j)
    (hmem : j.status.state ∈ [.queued, .running, .reconciliationPending])
    (hbusy : ∃ key ∈ j.spec.resourceKeys, w.lockable id key = false) : j.recovering = false := by
  obtain ⟨hlive, hne⟩ := claimable_of_mem hmem
  obtain ⟨hrow, rfl⟩ := job_eq_some.mp hj
  by_contra hrec
  obtain ⟨key, hkey, hnot⟩ := hbusy
  have := h.lockable_of_holding hrow ⟨hlive, hne, by simpa using hrec⟩ hkey
  rw [hnot] at this
  cases this

/-- Rewriting one row keeps the locks in order where the new row does, and where the locks of other
jobs stay. -/
theorem Locked.of_rewrites (h : w.Locked) (hrew : w.Rewrites id j s w')
    (hheld : ConsoleJob.Holding ⟨j.spec, s⟩ → ∀ key ∈ j.spec.resourceKeys,
      ∃ lock, w'.locks key = some lock ∧ lock.jobId = id)
    (hkept : ∀ j' ∈ w.jobs, j'.id ≠ id → j'.Holding → ∀ key ∈ j'.spec.resourceKeys, ∀ lock,
      w.locks key = some lock → lock.jobId = j'.id → w'.locks key = some lock)
    (hlocks : ∀ key lock, w'.locks key = some lock →
      (lock.jobId = id ∧ (s.state.terminal = false → ConsoleJob.Holding ⟨j.spec, s⟩ ∧
        key ∈ j.spec.resourceKeys ∧ ∀ token, s.leaseToken = some token → lock.leaseToken = token)) ∨
      (lock.jobId ≠ id ∧ w.locks key = some lock))
    (hwait : s.state = .awaitingApproval → s.leaseToken = none ∧ s.effectClaimed = false) :
    w'.Locked := by
  refine ⟨fun j' hj' hold key hkey => ?_, fun key lock hlock j' hj' hid hlive => ?_,
    fun key lock hlock => ?_, fun j' hj' hstate => ?_⟩
  · rcases hrew.cases hj' with ⟨hj', hne⟩ | rfl
    · obtain ⟨lock, hlock, hid⟩ := h.held j' hj' hold key hkey
      exact ⟨lock, hkept j' hj' hne hold key hkey lock hlock hid, hid⟩
    · obtain ⟨lock, hlock, hid⟩ := hheld hold key hkey
      exact ⟨lock, hlock, hid.trans hrew.id_eq.symm⟩
  · rcases hrew.cases hj' with ⟨hj', hne⟩ | rfl
    · rcases hlocks key lock hlock with ⟨hid', -⟩ | ⟨-, hold⟩
      · exact absurd (hid.trans hid') hne
      · exact h.owner key lock hold j' hj' hid hlive
    · rcases hlocks key lock hlock with ⟨-, hnew⟩ | ⟨hne, -⟩
      · exact hnew hlive
      · exact absurd (hid.symm.trans hrew.id_eq) hne
  · rcases hlocks key lock hlock with ⟨hid, -⟩ | ⟨hne, hold⟩
    · exact ⟨_, hrew.mem_new, hrew.id_eq.trans hid.symm⟩
    · obtain ⟨j', hj', hid⟩ := h.known key lock hold
      exact ⟨j', hrew.mem_other hj' (hid ▸ hne), hid⟩
  · rcases hrew.cases hj' with ⟨hj', -⟩ | rfl
    · exact h.waiting j' hj' hstate
    · exact hwait hstate

/-- The case where no lock changes : the new row was claimed where the old one was. -/
theorem Locked.of_rewrites_same (h : w.Locked) (hrew : w.Rewrites id j s w')
    (hl : w'.locks = w.locks) (hlive : j.status.state.terminal = false)
    (hold : ConsoleJob.Holding ⟨j.spec, s⟩ → j.Holding)
    (hnew : s.state.terminal = false → j.Holding → ConsoleJob.Holding ⟨j.spec, s⟩)
    (htoken : ∀ token, s.leaseToken = some token → j.status.leaseToken = some token)
    (hwait : s.state = .awaitingApproval → s.leaseToken = none ∧ s.effectClaimed = false) :
    w'.Locked := by
  refine h.of_rewrites hrew (fun hh key hkey => ?_) (fun _ _ _ _ _ _ lock hlock _ => hl ▸ hlock)
    (fun key lock hlock => ?_) hwait
  · obtain ⟨lock, hlock, hid⟩ := h.held j hrew.mem_old (hold hh) key hkey
    exact ⟨lock, hl ▸ hlock, hid.trans hrew.id_eq⟩
  · rw [hl] at hlock
    by_cases hid : lock.jobId = id
    · obtain ⟨hh, hkey, htok⟩ := h.owner key lock hlock j hrew.mem_old (hrew.id_eq.trans hid.symm)
        hlive
      exact Or.inl ⟨hid, fun hs => ⟨hnew hs hh, hkey, fun token ht => htok token (htoken token ht)⟩⟩
    · exact Or.inr ⟨hid, hlock⟩

/-- The steps between states that are not done. -/
theorem next_of_allowed {old new : JobState} (h : new ∈ old.allowedTransitions)
    (hlive : new.terminal = false) (hne : new ≠ .awaitingApproval) :
    (old = .awaitingApproval ∧ new = .queued) ∨ (old = .queued ∧ new = .running) ∨
      (old = .running ∧ new = .reconciliationPending) ∨
      (old = .reconciliationPending ∧ new = .running) := by
  revert h hlive hne
  cases old <;> cases new <;> decide

/-- Every move keeps the locks in order. -/
theorem Locked.of_move (h : w.Locked) (hm : w.JobMove w') : w'.Locked := by
  cases hm with
  | kept hjobs hlocks _ _ =>
    refine ⟨?_, ?_, ?_, ?_⟩ <;> rw [hjobs] <;> try rw [hlocks]
    · exact h.held
    · exact h.owner
    · exact h.known
    · exact h.waiting
  | @moved id j s hrew hlive htoken _ heff hstate hlocks _ _ _ =>
    have hwaiting := h.waiting j hrew.mem_old
    -- a job that waits has no lease, so it does not run
    have hiff : s.state.terminal = false → s.state ≠ .awaitingApproval →
        (j.Holding ↔ ConsoleJob.Holding ⟨j.spec, s⟩) := by
      intro hs hne
      simp only [ConsoleJob.Holding, recovering_iff, htoken, heff, hlive, hs, hne, true_and,
        not_false_eq_true, ne_eq]
      rcases hstate with heq | ⟨hallowed, -, hrun⟩
      · simp [heq, heq ▸ hne]
      · rcases next_of_allowed hallowed hs hne with ⟨hj, hs'⟩ | ⟨hj, hs'⟩ | ⟨hj, hs'⟩ | ⟨hj, hs'⟩
        · obtain ⟨htok, hclaimed⟩ := hwaiting hj
          simp [hj, hs', htok, hclaimed]
        · have htok := htoken ▸ hrun hs'
          simp [hj, hs', htok]
        · simp [hj, hs']
        · simp [hj, hs']
    refine h.of_rewrites_same hrew hlocks hlive (fun hh => (hiff hh.1 hh.2.1).mpr hh)
      (fun hs hh => ?_) (fun token ht => htoken ▸ ht) fun hs => ?_
    · refine (hiff hs fun heq => ?_).mp hh
      rcases hstate with heq' | ⟨-, hne, -⟩
      · exact hh.2.1 (heq'.symm.trans heq)
      · exact hne heq
    · rcases hstate with heq | ⟨-, hne, -⟩
      · rw [htoken, heff]
        exact hwaiting (heq.symm.trans hs)
      · exact absurd hs hne
  | @claimed id token j s hrew hmem hstate htoken _ heff hlockable hlocks _ _ =>
    obtain ⟨hlive, hne⟩ := claimable_of_mem hmem
    have hnew : ConsoleJob.Holding ⟨j.spec, s⟩ := by
      refine holding_of_leased ?_ (by rw [htoken]; nofun)
      rw [hstate]
      split <;> simp
    refine h.of_rewrites hrew (fun _ key hkey => ?_) (fun j' hj' hne' hh key hkey lock hlock hid => ?_)
      (fun key lock hlock => ?_) fun hs => absurd hs hnew.2.1
    · exact ⟨_, by rw [hlocks]; exact if_pos hkey, rfl⟩
    · rw [hlocks]
      dsimp only
      rw [if_neg fun hkey' => ?_, hlock]
      have hfree := hlockable key hkey'
      rw [h.not_lockable hj' hh hkey hne'] at hfree
      cases hfree
    · rw [hlocks] at hlock
      dsimp only at hlock
      split at hlock
      next hkey =>
        obtain rfl := Option.some.inj hlock
        refine Or.inl ⟨rfl, fun _ => ⟨hnew, hkey, fun t ht => ?_⟩⟩
        exact Option.some.inj (htoken.symm.trans ht)
      next hkey =>
        refine Or.inr ⟨fun hid => hkey ?_, hlock⟩
        exact (h.owner key lock hlock j hrew.mem_old (hrew.id_eq.trans hid.symm) hlive).2.1
  | @busy id j s mid hrew hmem _ hstate htoken _ heff hbusy hlocks _ _ =>
    obtain ⟨hlive, hne⟩ := claimable_of_mem hmem
    have hfirst := h.first_of_busy hrew.found hmem hbusy
    have hnot : ¬ j.Holding := fun hh => by simp [hh.2.2] at hfirst
    refine h.of_rewrites_same hrew hlocks hlive (fun hh => ?_) (fun _ hh => absurd hh hnot)
      (fun token ht => by rw [htoken] at ht; cases ht) fun hs => ?_
    · rw [hfirst] at hstate
      have hrec := recovering_iff.mp hh.2.2
      have hfirst' : ¬ j.recovering = true := by simp [hfirst]
      rw [recovering_iff] at hfirst'
      simp [hstate, htoken, heff] at hrec
      exact absurd (Or.inr (Or.inr hrec)) hfirst'
    · rw [hfirst] at hstate
      simp [hstate] at hs
  | @effect id j s e hrew hmem hleased hstate htoken _ heff _ hlocks _ _ =>
    have hh := holding_of_leased hmem hleased
    refine h.of_rewrites_same hrew hlocks hh.1 (fun _ => hh) (fun hs _ => ?_)
      (fun token ht => htoken ▸ ht) fun hs => absurd (hstate ▸ hs) hh.2.1
    exact ⟨hs, hstate ▸ hh.2.1, recovering_iff.mpr (Or.inr (Or.inr heff))⟩
  | @finished id token j s hrew hmem hleased hallowed hout htoken _ heff hwait hlocks _ _ =>
    have hh := holding_of_leased hmem (by rw [hleased]; nofun)
    rcases hlocks with ⟨hlocks, hne⟩ | ⟨hlocks, hne⟩
    · refine h.of_rewrites_same hrew hlocks hh.1 (fun _ => hh) (fun hs _ => ?_)
        (fun t ht => by rw [htoken] at ht; cases ht) fun hs => absurd hs hne
      refine ⟨hs, hne, recovering_iff.mpr (Or.inl fun hq => ?_)⟩
      rcases next_of_allowed hallowed hs hne with ⟨hj, -⟩ | ⟨-, hs'⟩ | ⟨-, hs'⟩ | ⟨-, hs'⟩
      · exact hh.2.1 hj
      all_goals
        rw [hs'] at hq
        cases hq
    · -- the locks of the job are gone, and the job is done or waits
      have hdone : s.state.terminal = false → s.state = .awaitingApproval := by
        intro hs
        by_contra hw
        rcases next_of_allowed hallowed hs hw with ⟨hj, -⟩ | ⟨-, hs'⟩ | ⟨-, hs'⟩ | ⟨-, hs'⟩
        · exact hh.2.1 hj
        · rw [hs'] at hout
          simp [JobState.outcomes] at hout
        · exact hne hs'
        · rw [hs'] at hout
          simp [JobState.outcomes] at hout
      refine h.of_rewrites hrew (fun hh' => absurd (hdone hh'.1) hh'.2.1)
        (fun j' hj' hne' _ key _ lock hlock hid => ?_) (fun key lock hlock => ?_)
        fun hs => ⟨htoken, heff.trans (hwait hs)⟩
      · have hkeep : lock.jobId ≠ id := fun heq => hne' (hid.symm.trans heq)
        simp [hlocks, unlock, hlock, hkeep]
      · rw [hlocks] at hlock
        simp only [unlock, Option.filter_eq_some_iff, decide_eq_true_eq] at hlock
        obtain ⟨hlock, hnot⟩ := hlock
        refine Or.inr ⟨fun hid => hnot ⟨hid, ?_⟩, hlock⟩
        exact (h.owner key lock hlock j hrew.mem_old (hrew.id_eq.trans hid.symm) hh.1).2.2 token
          hleased
  | @enqueued j hfresh hmem hstatus _ hlocks _ _ =>
    have hnot : ¬ j.Holding := by
      rintro ⟨-, hne, hrec⟩
      rcases hstatus with hs | hs
      · exact hne (by rw [hs])
      · simp [ConsoleJob.recovering, hs] at hrec
    refine ⟨fun j' hj' hh => ?_, fun key lock hlock j' hj' hid hlive => ?_,
      fun key lock hlock => ?_, fun j' hj' hs => ?_⟩
    · rcases (hmem j').mp hj' with hj' | rfl
      · exact hlocks ▸ h.held j' hj' hh
      · exact absurd hh hnot
    · rw [hlocks] at hlock
      rcases (hmem j').mp hj' with hj' | rfl
      · exact h.owner key lock hlock j' hj' hid hlive
      · obtain ⟨j₀, hj₀, hid₀⟩ := h.known key lock hlock
        exact absurd (hid₀.trans hid.symm) (hfresh j₀ hj₀)
    · obtain ⟨j₀, hj₀, hid₀⟩ := h.known key lock (hlocks ▸ hlock)
      exact ⟨j₀, (hmem j₀).mpr (Or.inl hj₀), hid₀⟩
    · rcases (hmem j').mp hj' with hj' | rfl
      · exact h.waiting j' hj' hs
      · rcases hstatus with hs | hs <;> rw [hs] <;> exact ⟨rfl, rfl⟩

/-! ## Effects -/

/-- The column `effect_claimed` says whether an effect of the job is recorded. -/
structure EffectsKnown (w : ConsoleWorld) : Prop where
  claimed : ∀ j ∈ w.jobs, j.status.effectClaimed = true ↔ ∃ e ∈ w.effects, e.jobId = j.id
  known : ∀ e ∈ w.effects, ∃ j ∈ w.jobs, j.id = e.jobId

/-- The case where no effect is recorded. -/
theorem EffectsKnown.of_rewrites (h : w.EffectsKnown) (hrew : w.Rewrites id j s w')
    (he : w'.effects = w.effects) (hs : s.effectClaimed = j.status.effectClaimed) :
    w'.EffectsKnown := by
  refine ⟨fun j' hj' => ?_, fun e hmem => ?_⟩
  · rw [he]
    rcases hrew.cases hj' with ⟨hj', -⟩ | rfl
    · exact h.claimed j' hj'
    · rw [hs]
      exact h.claimed j hrew.mem_old
  · obtain ⟨j', hj', hid⟩ := h.known e (he ▸ hmem)
    by_cases hne : j'.id = id
    · exact ⟨_, hrew.mem_new, hrew.id_eq.trans (hne.symm.trans hid)⟩
    · exact ⟨j', hrew.mem_other hj' hne, hid⟩

/-- Every move keeps the record of effects. -/
theorem EffectsKnown.of_move (h : w.EffectsKnown) (hm : w.JobMove w') : w'.EffectsKnown := by
  cases hm with
  | kept hjobs _ he _ => exact ⟨by rw [hjobs, he]; exact h.claimed, by rw [hjobs, he]; exact h.known⟩
  | moved hrew _ _ _ heff _ _ he _ _ => exact h.of_rewrites hrew he heff
  | claimed hrew _ _ _ _ heff _ _ he _ => exact h.of_rewrites hrew he heff
  | busy hrew _ _ _ _ _ heff _ _ he _ => exact h.of_rewrites hrew he heff
  | finished hrew _ _ _ _ _ _ heff _ _ he _ => exact h.of_rewrites hrew he heff
  | @effect id j s e hrew _ _ _ _ _ heff hid _ he _ =>
    refine ⟨fun j' hj' => ?_, fun e' hmem => ?_⟩
    · rw [he]
      rcases hrew.cases hj' with ⟨hj', hne⟩ | rfl
      · rw [h.claimed j' hj']
        constructor
        · rintro ⟨e', he', hid'⟩
          exact ⟨e', List.mem_append_left _ he', hid'⟩
        · rintro ⟨e', he', hid'⟩
          rcases List.mem_append.mp he' with he' | he'
          · exact ⟨e', he', hid'⟩
          · obtain rfl := List.mem_singleton.mp he'
            exact absurd (hid'.symm.trans hid) hne
      · exact iff_of_true heff ⟨e, by simp, hid.trans hrew.id_eq.symm⟩
    · rcases List.mem_append.mp (he ▸ hmem) with hmem | hmem
      · obtain ⟨j', hj', hid'⟩ := h.known e' hmem
        by_cases hne : j'.id = id
        · exact ⟨_, hrew.mem_new, hrew.id_eq.trans (hne.symm.trans hid')⟩
        · exact ⟨j', hrew.mem_other hj' hne, hid'⟩
      · obtain rfl := List.mem_singleton.mp hmem
        exact ⟨_, hrew.mem_new, hrew.id_eq.trans hid.symm⟩
  | @enqueued j hfresh hmem hstatus _ _ he _ =>
    refine ⟨fun j' hj' => ?_, fun e he' => ?_⟩
    · rw [he]
      rcases (hmem j').mp hj' with hj' | rfl
      · exact h.claimed j' hj'
      · refine iff_of_false (by rcases hstatus with hs | hs <;> simp [hs]) ?_
        rintro ⟨e, he', hid⟩
        obtain ⟨j₀, hj₀, hid₀⟩ := h.known e he'
        exact hfresh j₀ hj₀ (hid₀.trans hid)
    · obtain ⟨j₀, hj₀, hid₀⟩ := h.known e (he ▸ he')
      exact ⟨j₀, (hmem j₀).mpr (Or.inl hj₀), hid₀⟩

/-! ## What lasts -/

/-- The job `j` is there later : a job that is done as it is, any other with a generation that is
no lower. -/
def LaterJob (j j' : ConsoleJob) : Prop :=
  j'.spec = j.spec ∧ j.status.claimGeneration ≤ j'.status.claimGeneration ∧
    (j.status.state.terminal = true → j' = j)

/-- The write leaves the state or is one of `ALLOWED_TRANSITIONS`. -/
def Edge (write : StateWrite) : Prop :=
  write.new = write.old ∨ write.new ∈ write.old.allowedTransitions

/-- A later world : the jobs and the effects are still there, and the states written since are
those of allowed transitions. -/
structure Later (w w' : ConsoleWorld) : Prop where
  jobs : ∀ j ∈ w.jobs, ∃ j' ∈ w'.jobs, LaterJob j j'
  effects : w.effects ⊆ w'.effects
  writes : ∃ writes, w'.stateWrites = w.stateWrites ++ writes ∧ ∀ write ∈ writes, Edge write

theorem Later.refl (w : ConsoleWorld) : w.Later w :=
  ⟨fun j hj => ⟨j, hj, rfl, le_refl _, fun _ => rfl⟩, fun _ h => h, [], by simp, by simp⟩

theorem Later.trans {w'' : ConsoleWorld} (h : w.Later w') (h' : w'.Later w'') : w.Later w'' := by
  refine ⟨fun j hj => ?_, fun e he => h'.effects (h.effects he), ?_⟩
  · obtain ⟨j₁, hj₁, hspec, hgen, hdone⟩ := h.jobs j hj
    obtain ⟨j₂, hj₂, hspec', hgen', hdone'⟩ := h'.jobs j₁ hj₁
    refine ⟨j₂, hj₂, hspec'.trans hspec, hgen.trans hgen', fun ht => ?_⟩
    obtain rfl := hdone ht
    exact hdone' ht
  · obtain ⟨writes, hw, hedge⟩ := h.writes
    obtain ⟨writes', hw', hedge'⟩ := h'.writes
    refine ⟨writes ++ writes', by rw [hw', hw, List.append_assoc], fun write hmem => ?_⟩
    exact (List.mem_append.mp hmem).elim (hedge write) (hedge' write)

theorem Rewrites.later_jobs (h : w.Rewrites id j s w') (hlive : j.status.state.terminal = false)
    (hgen : j.status.claimGeneration ≤ s.claimGeneration) :
    ∀ j₀ ∈ w.jobs, ∃ j' ∈ w'.jobs, LaterJob j₀ j' := by
  intro j₀ hj₀
  by_cases hne : j₀.id = id
  · obtain rfl : j₀ = j := job_unique hj₀ h.mem_old (hne.trans h.id_eq.symm)
    exact ⟨_, h.mem_new, rfl, hgen, fun ht => by simp [hlive] at ht⟩
  · exact ⟨j₀, h.mem_other hj₀ hne, rfl, le_refl _, fun _ => rfl⟩

/-- The states a claim writes. -/
theorem edge_of_claim (hmem : j.status.state ∈ [.queued, .running, .reconciliationPending]) :
    Edge ⟨id, j.status.state, if j.recovering then .running else .queued⟩ := by
  have : j.status.state = .queued ∨ j.status.state = .running ∨
      j.status.state = .reconciliationPending := by simpa using hmem
  unfold Edge
  dsimp only
  split
  next hrec =>
    rcases this with h | h | h
    · exact Or.inr (by simp [h, JobState.allowedTransitions])
    · exact Or.inl h.symm
    · exact Or.inr (by simp [h, JobState.allowedTransitions])
  next hrec =>
    have : j.status.state = .queued := by
      by_contra hne
      exact hrec (recovering_iff.mpr (Or.inl hne))
    exact Or.inl this.symm

theorem Later.of_move (hm : w.JobMove w') : w.Later w' := by
  cases hm with
  | kept hjobs _ he hw =>
    exact ⟨fun j hj => ⟨j, hjobs ▸ hj, rfl, le_refl _, fun _ => rfl⟩, he ▸ fun _ h => h, [],
      by simp [hw], by simp⟩
  | @moved id j s hrew hlive _ hgen _ hstate _ he hw _ =>
    refine ⟨hrew.later_jobs hlive hgen.ge, he ▸ fun _ h => h, ?_⟩
    rcases hw with hw | hw
    · exact ⟨[], by simp [hw], by simp⟩
    · refine ⟨_, hw, fun write hmem => ?_⟩
      obtain rfl := List.mem_singleton.mp hmem
      exact hstate.imp (fun h => h) fun h => h.1
  | @claimed id token j s hrew hmem hstate _ hgen _ _ _ he hw =>
    refine ⟨hrew.later_jobs (claimable_of_mem hmem).1 (by omega), he ▸ fun _ h => h, _, hw,
      fun write hwrite => ?_⟩
    obtain rfl := List.mem_singleton.mp hwrite
    exact hstate ▸ edge_of_claim hmem
  | @busy id j s mid hrew hmem hmid hstate _ hgen _ _ _ he hw =>
    refine ⟨hrew.later_jobs (claimable_of_mem hmem).1 (by omega), he ▸ fun _ h => h, _, hw,
      fun write hwrite => ?_⟩
    rcases List.mem_cons.mp hwrite with rfl | hwrite
    · exact hmid ▸ edge_of_claim hmem
    · obtain rfl := List.mem_singleton.mp hwrite
      rw [hmid, hstate]
      split
      · exact Or.inr (by simp [JobState.allowedTransitions])
      · exact Or.inl rfl
  | @effect id j s e hrew hmem _ _ _ hgen _ _ _ he hw =>
    exact ⟨hrew.later_jobs (terminal_of_leased hmem) hgen.ge,
      he ▸ List.subset_append_left _ _, [], by simp [hw], by simp⟩
  | @finished id token j s hrew hmem _ hallowed _ _ hgen _ _ _ he hw =>
    refine ⟨hrew.later_jobs (terminal_of_leased hmem) hgen.ge, he ▸ fun _ h => h, _, hw,
      fun write hwrite => ?_⟩
    obtain rfl := List.mem_singleton.mp hwrite
    exact Or.inr hallowed
  | @enqueued j hfresh hmem _ _ _ he hw =>
    exact ⟨fun j₀ hj₀ => ⟨j₀, (hmem j₀).mpr (Or.inl hj₀), rfl, le_refl _, fun _ => rfl⟩,
      he ▸ fun _ h => h, [], by simp [hw], by simp⟩

/-! ## Claims that are answered -/

/-- A claim that is answered took a job that could be claimed, under a new generation. -/
theorem claimJob_some {worker pick token : String} {actions : List String} {lease : ℕ}
    {c : ClaimedJob} (h : w.claimJob worker actions pick token lease = (w', some c)) :
    ∃ j s, w.job pick = some j ∧ w'.job pick = some ⟨j.spec, s⟩ ∧ c.spec = j.spec ∧
      c.claimGeneration = j.status.claimGeneration + 1 ∧ s.claimGeneration = c.claimGeneration ∧
      s.leaseToken = some c.leaseToken ∧ c.effectClaimed = j.status.effectClaimed ∧
      c.readbackOnly = j.recovering := by
  unfold claimJob at h
  split at h
  · cases h
  next j hj =>
    split at h
    · cases h
    · dsimp only at h
      split at h
      · cases h
      next locked hlocked =>
        obtain ⟨rfl, hc⟩ := Prod.mk.inj h
        obtain rfl := Option.some.inj hc
        simp only [lockResources, Option.ite_none_right_eq_some, Option.some.injEq] at hlocked
        obtain ⟨-, rfl⟩ := hlocked
        have hrew := rewrites_writeState (f := claimStatus worker token (w.clock + seconds lease))
          (t := if j.recovering then .running else .queued) hj
        exact ⟨j, _, hj, hrew.job_eq, rfl, rfl, rfl, rfl, rfl, rfl⟩

/-- A claim that could not take all the locks leaves the job without any. -/
theorem Locked.none_of_claimJob {worker pick token : String} {actions : List String} {lease : ℕ}
    (h : w.Locked) (hj : w.job pick = some j) (hclaim : w.claimable actions j = true)
    (hnone : (w.claimJob worker actions pick token lease).2 = none) :
    ∀ key lock, (w.claimJob worker actions pick token lease).1.locks key = some lock →
      lock.jobId ≠ pick := by
  intro key lock hlock hid
  have hstate := claimable_state hclaim
  unfold claimJob at hnone hlock
  rw [hj] at hnone hlock
  simp only [hclaim, Bool.true_eq_false, if_false] at hnone hlock
  have hrew := rewrites_writeState (f := claimStatus worker token (w.clock + seconds lease))
    (t := if j.recovering then .running else .queued) hj
  split at hnone
  next hbusy =>
    rw [hbusy] at hlock
    obtain ⟨key', hkey', hnot⟩ := busy_of_lockResources hbusy
    rw [show j.spec.id = pick from hrew.id_eq, lockable_of_rewrites hrew rfl] at hnot
    have hfirst := h.first_of_busy hj hstate ⟨key', hkey', hnot⟩
    -- the locks are those of before the claim, and a first claim found none
    have hheld := (h.owner key lock hlock j hrew.mem_old (hrew.id_eq.trans hid.symm)
      (claimable_of_mem hstate).1).1
    simp [hheld.2.2] at hfirst
  · cases hnone

end ConsoleWorld

end FattyTrader
