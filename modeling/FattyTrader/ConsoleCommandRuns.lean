import FattyTrader.ConsoleWorkerRuns

/-!
# Commands in every run of the console

An enqueue that was answered left a receipt of its key and of the digest of its payload, and the
job (`CommandConfig.Receipted`) ; receipts, jobs and uses of grants only become more
(`ConsoleWorld.CommandsKept`). So a later enqueue under the same key is answered with the same job
or refused as a conflict (`CommandConfig.enqueue_again`), whatever happened in between. A grant that
is used was consumed, and `takeGrant` takes grants that were not, so no grant has two uses.

A job of tier 3 is enqueued to wait, and only an approval of another owner lets it be claimed
(`ConsoleWorld.opened_of_move`).
-/

set_option linter.unusedSectionVars false

open Tables Runs Programs

namespace FattyTrader

namespace ConsoleWorld

variable {w w' w'' : ConsoleWorld}

/-! ## Approvals -/

theorem claimable_of_live {state : JobState} (hlive : state.terminal = false)
    (hwait : state ≠ .awaitingApproval) : state ∈ [.queued, .running, .reconciliationPending] := by
  cases state <;> simp_all [JobState.terminal]

/-- A job of tier 3 that may be claimed could be claimed before, or was approved. -/
theorem opened_of_move (hm : w.JobMove w') {j' : ConsoleJob} (hj' : j' ∈ w'.jobs)
    (htier : j'.spec.dangerTier = 3)
    (hopen : j'.status.state ∈ [.queued, .running, .reconciliationPending]) :
    (∃ j ∈ w.jobs, j.spec = j'.spec ∧
      j.status.state ∈ [.queued, .running, .reconciliationPending]) ∨ w.Approves j'.spec w' := by
  have hleased : ∀ {state : JobState}, state ∈ [.queued, .running] →
      state ∈ [.queued, .running, .reconciliationPending] := by
    intro state h
    simp only [List.mem_cons, List.not_mem_nil, or_false] at h ⊢
    exact h.elim Or.inl fun h => Or.inr (Or.inl h)
  cases hm with
  | kept hjobs _ _ _ => exact Or.inl ⟨j', hjobs ▸ hj', rfl, hopen⟩
  | @moved id j s hrew hlive _ _ _ hstate _ _ _ happroved =>
    rcases hrew.cases hj' with ⟨hj', -⟩ | rfl
    · exact Or.inl ⟨j', hj', rfl, hopen⟩
    · by_cases hwait : j.status.state = .awaitingApproval
      · rcases hstate with heq | ⟨hallowed, -⟩
        · rw [heq, hwait] at hopen
          simp at hopen
        · refine Or.inr (happroved hwait ?_)
          rw [hwait] at hallowed
          generalize s.state = new at hallowed hopen
          cases new <;> simp_all [JobState.allowedTransitions]
      · exact Or.inl ⟨j, hrew.mem_old, rfl, claimable_of_live hlive hwait⟩
  | claimed hrew hmem _ _ _ _ _ _ _ _ =>
    rcases hrew.cases hj' with ⟨hj', -⟩ | rfl
    · exact Or.inl ⟨j', hj', rfl, hopen⟩
    · exact Or.inl ⟨_, hrew.mem_old, rfl, hmem⟩
  | busy hrew hmem _ _ _ _ _ _ _ _ _ =>
    rcases hrew.cases hj' with ⟨hj', -⟩ | rfl
    · exact Or.inl ⟨j', hj', rfl, hopen⟩
    · exact Or.inl ⟨_, hrew.mem_old, rfl, hmem⟩
  | effect hrew hmem _ _ _ _ _ _ _ _ _ =>
    rcases hrew.cases hj' with ⟨hj', -⟩ | rfl
    · exact Or.inl ⟨j', hj', rfl, hopen⟩
    · exact Or.inl ⟨_, hrew.mem_old, rfl, hleased hmem⟩
  | finished hrew hmem _ _ _ _ _ _ _ _ _ _ =>
    rcases hrew.cases hj' with ⟨hj', -⟩ | rfl
    · exact Or.inl ⟨j', hj', rfl, hopen⟩
    · exact Or.inl ⟨_, hrew.mem_old, rfl, hleased hmem⟩
  | @enqueued j _ hmem _ hthree _ _ _ =>
    rcases (hmem j').mp hj' with hj' | rfl
    · exact Or.inl ⟨j', hj', rfl, hopen⟩
    · rw [hthree htier] at hopen
      simp at hopen

/-! ## Receipts and grants -/

/-- Every receipt is of a job with its action and its scope, and a used grant was consumed and has
no other use. -/
structure CommandsRecorded (w : ConsoleWorld) : Prop where
  receipts : ∀ r ∈ w.receipts, ∃ j ∈ w.jobs, j.spec.id = r.jobId ∧ j.spec.action = r.action ∧
    j.spec.scope.accountId = r.accountId ∧ j.spec.scope.environment = r.environment
  uses : ∀ u ∈ w.grantUses, ∃ g ∈ w.grants, g.id = u.grantId ∧ g.consumedAt ≠ none
  once : (w.grantUses.map GrantUse.grantId).Nodup

/-- The receipts and the jobs are still there. -/
structure CommandsKept (w w' : ConsoleWorld) : Prop where
  receipts : ∀ r ∈ w.receipts, r ∈ w'.receipts
  jobs : ∀ j ∈ w.jobs, ∃ j' ∈ w'.jobs, j'.spec = j.spec

theorem CommandsKept.trans (h : w.CommandsKept w') (h' : w'.CommandsKept w'') :
    w.CommandsKept w'' := by
  refine ⟨fun r hr => h'.receipts r (h.receipts r hr), fun j hj => ?_⟩
  obtain ⟨j₁, hj₁, hspec⟩ := h.jobs j hj
  obtain ⟨j₂, hj₂, hspec'⟩ := h'.jobs j₁ hj₁
  exact ⟨j₂, hj₂, hspec'.trans hspec⟩

theorem CommandsKept.of_move (hm : w.JobMove w') (hr : ∀ r ∈ w.receipts, r ∈ w'.receipts) :
    w.CommandsKept w' := by
  refine ⟨hr, fun j hj => ?_⟩
  obtain ⟨j', hj', hspec, -⟩ := (Later.of_move hm).jobs j hj
  exact ⟨j', hj', hspec⟩

/-- What an operation keeps that is none of the commands. -/
theorem CommandsRecorded.of_kept (h : w.CommandsRecorded) (hm : w.JobMove w')
    (hr : w'.receipts = w.receipts) (hg : ∀ g ∈ w.grants, g ∈ w'.grants)
    (hu : w'.grantUses = w.grantUses) : w'.CommandsRecorded := by
  refine ⟨fun r hr' => ?_, fun u hu' => ?_, hu ▸ h.once⟩
  · obtain ⟨j, hj, hid⟩ := h.receipts r (hr ▸ hr')
    obtain ⟨j', hj', hspec, -⟩ := (Later.of_move hm).jobs j hj
    exact ⟨j', hj', hspec ▸ hid⟩
  · obtain ⟨g, hgm, hid⟩ := h.uses u (hu ▸ hu')
    exact ⟨g, hg g hgm, hid⟩

/-- Taking a grant gives it its only use. -/
theorem CommandsRecorded.takeGrant (h : w.CommandsRecorded) {principal : PrincipalRef}
    {previewDigest action jobId : String} {scope : ConsoleScope} {decision : Bool}
    {grant : StepUpGrant}
    (ht : w.takeGrant principal previewDigest action scope jobId decision = .ok (w', grant)) :
    w'.CommandsRecorded := by
  obtain ⟨hgrant, hfree, grants, rfl, hmem⟩ := CommandConfig.takeGrant_ok ht
  have hused : ∀ g₀ ∈ w.grants, g₀.consumedAt ≠ none → ∃ g ∈ grants, g.id = g₀.id ∧
      g.consumedAt ≠ none := by
    intro g₀ hg₀ hconsumed
    refine ⟨_, (hmem _).mpr ⟨g₀, hg₀, rfl⟩, ?_⟩
    split <;> simp [hconsumed]
  refine ⟨h.receipts, fun u hu => ?_, ?_⟩
  · rcases List.mem_append.mp hu with hu | hu
    · obtain ⟨g₀, hg₀, hid, hconsumed⟩ := h.uses u hu
      obtain ⟨g, hg, hid', hne⟩ := hused g₀ hg₀ hconsumed
      exact ⟨g, hg, hid'.trans hid, hne⟩
    · obtain rfl := List.mem_singleton.mp hu
      exact ⟨_, (hmem _).mpr ⟨grant, hgrant, rfl⟩, by simp⟩
  · rw [List.map_append]
    refine List.nodup_append.mpr ⟨h.once, by simp, ?_⟩
    rintro id hid _ hid' rfl
    obtain ⟨u, hu, rfl⟩ := List.mem_map.mp hid
    obtain ⟨g₀, hg₀, hsame, hconsumed⟩ := h.uses u hu
    have hid' : u.grantId = grant.id := by simpa using hid'
    -- the grant was not consumed, the grant of an earlier use was
    rcases Table.eq_or_not_conflict hg₀ hgrant with rfl | hne
    · exact hconsumed hfree
    · exact hne (hsame.trans hid')

end ConsoleWorld

/-! ## Enqueue -/

namespace CommandConfig

open ConsoleWorld

variable {x : CommandConfig} {w w' : ConsoleWorld} {r r' : EnqueueRequest}
  {principal principal' : PrincipalRef} {key key' freshId : String} {resource : Option String}
  {answer : CommandAnswer}

/-- The receipt of a request, which was answered with the job. -/
def Receipted (x : CommandConfig) (w : ConsoleWorld) (r : EnqueueRequest)
    (principal : PrincipalRef) (key : String) (job : JobSpec) : Prop :=
  (∃ receipt ∈ w.receipts, receipt.key = receiptKey principal job.action job.scope key ∧
    receipt.payloadDigest = x.digest r.safe ∧ receipt.jobId = job.id) ∧
  ∃ j ∈ w.jobs, j.spec = job

theorem Receipted.of_kept {job : JobSpec} (h : x.Receipted w r principal key job)
    (hk : w.CommandsKept w') : x.Receipted w' r principal key job := by
  obtain ⟨⟨receipt, hr, hreceipt⟩, j, hj, rfl⟩ := h
  obtain ⟨j', hj', hspec⟩ := hk.jobs j hj
  exact ⟨⟨receipt, hk.receipts receipt hr, hreceipt⟩, j', hj', hspec⟩

/-- An enqueue that is answered finds a receipt of its payload, or inserts a new job. -/
theorem enqueue_ok (h : x.enqueue w freshId resource r principal key = .ok (w', answer)) :
    ∃ preview, x.checkCaller w r principal key = .ok preview ∧
      ((w' = w ∧ ∃ receipt ∈ w.receipts,
        receipt.key = receiptKey principal preview.action preview.scope key ∧
        receipt.payloadDigest = x.digest r.safe ∧ w.job receipt.jobId = some answer.job) ∨
      ∃ reason, answer.job = newJob w freshId reason r principal preview ∧
        insertJob w answer.job principal key (x.digest r.safe) = .ok w') := by
  unfold enqueue at h
  obtain ⟨preview, hpreview, h⟩ := exists_of_bind_ok h
  refine ⟨preview, hpreview, ?_⟩
  split at h
  next receipt hreceipt =>
    split at h
    · cases h
    next hdigest =>
      split at h
      · cases h
      next job hjob =>
        obtain ⟨rfl, rfl⟩ := Prod.mk.inj (Except.ok.inj h)
        exact Or.inl ⟨rfl, receipt, Table.mem_of_find hreceipt, Table.key_of_find hreceipt,
          not_not.mp hdigest, hjob⟩
  · obtain ⟨reason, -, h⟩ := exists_of_bind_ok h
    obtain ⟨v, hv, h⟩ := exists_of_bind_ok h
    obtain ⟨rfl, rfl⟩ := Prod.mk.inj (Except.ok.inj h)
    exact Or.inr ⟨reason, rfl, hv⟩

theorem insertJob_recorded {j : ConsoleJob} {payloadDigest : String} (h : w.CommandsRecorded)
    (hi : insertJob w j principal key payloadDigest = .ok w') :
    w'.CommandsRecorded ∧ w.CommandsKept w' ∧ j ∈ w'.jobs ∧
      (⟨principal.id, j.spec.action, j.spec.scope.accountId, j.spec.scope.environment, key,
        payloadDigest, j.spec.id⟩ : IdempotencyReceipt) ∈ w'.receipts := by
  obtain ⟨jobs, receipts, grants, previews, uses, hjobs, hreceipts, rfl, -, hgrant⟩ :=
    insertJob_ok hi
  have hmem : ∀ j₀, j₀ ∈ jobs ↔ j₀ ∈ w.jobs ∨ j₀ = j := fun _ => Table.mem_insert hjobs
  have hrmem : ∀ r₀, r₀ ∈ receipts ↔ r₀ ∈ w.receipts ∨ r₀ = _ :=
    fun _ => Table.mem_insert hreceipts
  -- what the grant does to the uses
  have huses : (∀ u ∈ w.grantUses ++ uses, ∃ g ∈ grants, g.id = u.grantId ∧ g.consumedAt ≠ none) ∧
      ((w.grantUses ++ uses).map GrantUse.grantId).Nodup := by
    rcases hgrant with ⟨rfl, rfl⟩ | ⟨grant, granted, htake, rfl, rfl⟩
    · simpa using ⟨h.uses, h.once⟩
    · have hw : ({ w with jobs } : ConsoleWorld).CommandsRecorded :=
        ⟨fun r₀ hr₀ => (h.receipts r₀ hr₀).imp fun j₀ hj₀ => ⟨(hmem j₀).mpr (Or.inl hj₀.1), hj₀.2⟩,
          h.uses, h.once⟩
      have := hw.takeGrant htake
      obtain ⟨-, -, grants, rfl, -⟩ := takeGrant_ok htake
      exact ⟨this.uses, this.once⟩
  refine ⟨⟨fun r₀ hr₀ => ?_, huses.1, huses.2⟩,
    ⟨fun r₀ hr₀ => (hrmem r₀).mpr (Or.inl hr₀),
      fun j₀ hj₀ => ⟨j₀, (hmem j₀).mpr (Or.inl hj₀), rfl⟩⟩,
    (hmem j).mpr (Or.inr rfl), (hrmem _).mpr (Or.inr rfl)⟩
  rcases (hrmem r₀).mp hr₀ with hr₀ | rfl
  · obtain ⟨j₀, hj₀, hid⟩ := h.receipts r₀ hr₀
    exact ⟨j₀, (hmem j₀).mpr (Or.inl hj₀), hid⟩
  · exact ⟨j, (hmem j).mpr (Or.inr rfl), rfl, rfl, rfl, rfl⟩

/-- An answered enqueue has a receipt. -/
theorem receipted_of_enqueue (h : w.CommandsRecorded)
    (he : x.enqueue w freshId resource r principal key = .ok (w', answer)) :
    x.Receipted w' r principal key answer.job.spec := by
  obtain ⟨preview, -, ⟨rfl, receipt, hr, hkey, hdigest, hjob⟩ | ⟨reason, hjob, hi⟩⟩ :=
    enqueue_ok he
  · obtain ⟨hj, hid⟩ := job_eq_some.mp hjob
    obtain ⟨j₀, hj₀, hid₀, haction, haccount, henv⟩ := h.receipts receipt hr
    obtain rfl : j₀ = answer.job := job_unique hj₀ hj (hid₀.trans hid.symm)
    refine ⟨⟨receipt, hr, ?_, hdigest, hid.symm⟩, _, hj, rfl⟩
    simp only [IdempotencyReceipt.key, receiptKey, Prod.mk.injEq] at hkey ⊢
    exact ⟨hkey.1, haction.symm, haccount.symm, henv.symm, hkey.2.2.2.2⟩
  · obtain ⟨-, -, hj, hr⟩ := insertJob_recorded h hi
    exact ⟨⟨_, hr, rfl, rfl, rfl⟩, _, hj, rfl⟩

theorem enqueue_recorded (h : w.CommandsRecorded)
    (he : x.enqueue w freshId resource r principal key = .ok (w', answer)) :
    w'.CommandsRecorded ∧ w.CommandsKept w' := by
  obtain ⟨preview, -, ⟨rfl, -⟩ | ⟨reason, hjob, hi⟩⟩ := enqueue_ok he
  · exact ⟨h, fun r hr => hr, fun j hj => ⟨j, hj, rfl⟩⟩
  · obtain ⟨hrec, hkept, -⟩ := insertJob_recorded h hi
    exact ⟨hrec, hkept⟩

/-- The next enqueue under the key of a receipt : the same job for a payload with the same digest,
a conflict for any other. -/
theorem enqueue_again {job : JobSpec} {preview : ConsolePreview}
    (h : x.Receipted w r principal key job)
    (hcaller : x.checkCaller w r' principal' key' = .ok preview)
    (hkey : receiptKey principal' preview.action preview.scope key' =
      receiptKey principal job.action job.scope key) :
    if x.digest r'.safe = x.digest r.safe then
      ∃ j, j.spec = job ∧ x.enqueue w freshId resource r' principal' key' = .ok (w, ⟨j, true⟩)
    else x.enqueue w freshId resource r' principal' key' =
      refusal "idempotency_conflict" "Idempotency key belongs to a different request" := by
  obtain ⟨⟨receipt, hr, hreceipt, hdigest, hid⟩, j, hj, rfl⟩ := h
  have hfind : w.receipts.find IdempotencyReceipt.key
      (receiptKey principal' preview.action preview.scope key') = some receipt :=
    (Table.find_eq_some_iff fun _ _ h => h).mpr ⟨hr, hreceipt.trans hkey.symm⟩
  have hjob : w.job receipt.jobId = some j := job_eq_some.mpr ⟨hj, hid.symm⟩
  unfold enqueue
  rw [hcaller]
  simp only [bind, Except.bind, hfind, hdigest]
  split
  next hsame =>
    refine ⟨j, rfl, ?_⟩
    rw [if_neg fun hne => hne hsame.symm, hjob]
    rfl
  next hdiffers => rw [if_pos fun heq => hdiffers heq.symm]

theorem decision_recorded {approvalId jobId : String} {request : ControlRequest} {approved : Bool}
    (h : w.CommandsRecorded)
    (hd : x.decision w approvalId resource jobId request principal approved = .ok w') :
    w'.CommandsRecorded ∧ w.CommandsKept w' := by
  have hm := decision_move hd
  unfold CommandConfig.decision at hd
  obtain ⟨-, -, hd⟩ := exists_of_bind_ok hd
  obtain ⟨j, -, hd⟩ := exists_of_bind_ok hd
  obtain ⟨reason, -, hd⟩ := exists_of_bind_ok hd
  obtain ⟨grant, granted, grants, approval, hgranted, htake, -, -, -, -, rfl⟩ :=
    insertDecision_ok hd
  have hg := h.takeGrant htake
  subst hgranted
  refine ⟨⟨fun r hr => ?_, hg.uses, hg.once⟩, .of_move hm fun r hr => hr⟩
  obtain ⟨j, hj, hid⟩ := h.receipts r hr
  obtain ⟨j', hj', hspec, -⟩ := (Later.of_move hm).jobs j hj
  exact ⟨j', hj', hspec ▸ hid⟩

end CommandConfig

/-! ## The other operations -/

namespace ConsoleWorld

variable {x : CommandConfig} {w w' : ConsoleWorld} {o : ConsoleOp} {c : ConsoleChoice}

/-- The receipts, the grants and their uses are as they were. -/
def SameTables (w w' : ConsoleWorld) : Prop :=
  w'.receipts = w.receipts ∧ w'.grants = w.grants ∧ w'.grantUses = w.grantUses

theorem SameTables.refl (w : ConsoleWorld) : w.SameTables w := ⟨rfl, rfl, rfl⟩

theorem claimJob_tables {worker pick token : String} {actions : List String} {lease : ℕ} :
    w.SameTables (w.claimJob worker actions pick token lease).1 := by
  unfold claimJob
  split
  · exact .refl w
  · split
    · exact .refl w
    · dsimp only
      split
      · exact ⟨rfl, rfl, rfl⟩
      next locked hlocked =>
        simp only [lockResources, Option.ite_none_right_eq_some, Option.some.injEq] at hlocked
        obtain ⟨-, rfl⟩ := hlocked
        exact ⟨rfl, rfl, rfl⟩

theorem checkpoint_tables {job : ClaimedJob} (h : w.checkpoint job = .ok w') : w.SameTables w' := by
  unfold checkpoint at h
  split at h
  · cases h
  · obtain rfl := Except.ok.inj h
    exact ⟨rfl, rfl, rfl⟩

theorem finishJob_tables {job : ClaimedJob} {state : JobState} {result : Option String}
    (h : w.finishJob job state result = .ok w') : w.SameTables w' := by
  unfold finishJob at h
  split at h
  · cases h
  split at h
  · cases h
  split at h
  · cases h
  split at h
  · cases h
  dsimp only at h
  split at h <;> obtain rfl := Except.ok.inj h <;> exact ⟨rfl, rfl, rfl⟩

theorem validateStart_tables {job : ClaimedJob} (h : x.validateStart w job = .ok w') :
    w.SameTables w' := by
  unfold CommandConfig.validateStart at h
  split at h
  · cases h
  split at h
  · cases h
  obtain ⟨approvals, rfl⟩ := CommandConfig.authority_ok h
  exact ⟨rfl, rfl, rfl⟩

theorem beginRunning_tables {job : ClaimedJob} (h : x.beginRunning w job = .ok w') :
    w.SameTables w' := by
  unfold CommandConfig.beginRunning at h
  obtain ⟨j, -, h⟩ := exists_of_bind_ok h
  split at h
  · cases h
  · obtain rfl := Except.ok.inj h
    exact ⟨rfl, rfl, rfl⟩

theorem claimEffect_tables {job : ClaimedJob} {key : String} {new : Bool}
    (h : x.claimEffect w job key = .ok (w', new)) : w.SameTables w' := by
  unfold CommandConfig.claimEffect at h
  obtain ⟨-, -, h⟩ := exists_of_bind_ok h
  split at h <;> obtain ⟨rfl, -⟩ := Prod.mk.inj (Except.ok.inj h) <;> exact ⟨rfl, rfl, rfl⟩

theorem cancel_tables {jobId : String} {request : ControlRequest} {principal : PrincipalRef}
    (h : x.cancel w jobId request principal = .ok w') : w.SameTables w' := by
  unfold CommandConfig.cancel at h
  obtain ⟨-, -, h⟩ := exists_of_bind_ok h
  obtain ⟨j, -, h⟩ := exists_of_bind_ok h
  split at h
  · obtain rfl := Except.ok.inj h
    exact .refl w
  obtain ⟨-, -, h⟩ := exists_of_bind_ok h
  obtain ⟨-, -, h⟩ := exists_of_bind_ok h
  split at h
  · cases h
  · obtain rfl := Except.ok.inj h
    exact ⟨rfl, rfl, rfl⟩

theorem wake_tables {jobId : String} {request : ControlRequest} {principal : PrincipalRef}
    (h : x.wake w jobId request principal = .ok w') : w.SameTables w' := by
  unfold CommandConfig.wake at h
  obtain ⟨-, -, h⟩ := exists_of_bind_ok h
  obtain ⟨j, -, h⟩ := exists_of_bind_ok h
  split at h
  · cases h
  split at h
  · cases h
  · obtain rfl := Except.ok.inj h
    exact ⟨rfl, rfl, rfl⟩

/-- What an operation keeps, where its transaction does. -/
theorem recorded_of_tables {α : Type} {r : Except ConsoleError (ConsoleWorld × α)}
    (h : w.CommandsRecorded) (hm : w.JobMove (c.commit w r).2)
    (ht : ∀ w' a, r = .ok (w', a) → w.SameTables w') :
    (c.commit w r).2.CommandsRecorded ∧ w.CommandsKept (c.commit w r).2 := by
  have hsame : w.SameTables (c.commit w r).2 := by
    rcases ConsoleChoice.commit_world (c := c) (w := w) (r := r) with heq | ⟨a, ha⟩
    · rw [heq]
      exact .refl w
    · exact ht _ a ha
  obtain ⟨hr, hg, hu⟩ := hsame
  exact ⟨h.of_kept hm hr (fun g hg' => hg ▸ hg') hu, .of_move hm fun r hr' => hr ▸ hr'⟩

theorem recorded_of_unit {r : Except ConsoleError ConsoleWorld}
    (h : w.CommandsRecorded) (hm : w.JobMove (c.commit w (r.map (·, ()))).2)
    (ht : ∀ w', r = .ok w' → w.SameTables w') :
    (c.commit w (r.map (·, ()))).2.CommandsRecorded ∧
      w.CommandsKept (c.commit w (r.map (·, ()))).2 := by
  refine recorded_of_tables h hm fun w' a hr => ?_
  obtain ⟨v, hv, heq⟩ := exists_of_map_ok hr
  obtain ⟨rfl, -⟩ := Prod.mk.inj heq
  exact ht _ hv

/-- What an operation keeps whose transaction, where it is applied, keeps it. -/
theorem recorded_of_commit {α : Type} {r : Except ConsoleError (ConsoleWorld × α)}
    (h : w.CommandsRecorded)
    (ht : ∀ w' a, r = .ok (w', a) → w'.CommandsRecorded ∧ w.CommandsKept w') :
    (c.commit w r).2.CommandsRecorded ∧ w.CommandsKept (c.commit w r).2 := by
  rcases ConsoleChoice.commit_world (c := c) (w := w) (r := r) with heq | ⟨a, ha⟩
  · rw [heq]
    exact ⟨h, fun r hr => hr, fun j hj => ⟨j, hj, rfl⟩⟩
  · exact ht _ a ha

theorem CommandsRecorded.of_exec (h : w.CommandsRecorded) :
    (consoleExec x o w c).2.CommandsRecorded ∧ w.CommandsKept (consoleExec x o w c).2 := by
  have hm := consoleExec_move x o w c
  have hrefl : w.CommandsRecorded ∧ w.CommandsKept w :=
    ⟨h, fun r hr => hr, fun j hj => ⟨j, hj, rfl⟩⟩
  cases o with
  | claimJob worker actions =>
    refine recorded_of_tables h hm fun w' a hr => ?_
    rw [← (Prod.mk.inj (Except.ok.inj hr)).1]
    exact claimJob_tables
  | preview job => exact hrefl
  | execute job => exact hrefl
  | reconcile job => exact hrefl
  | validateStart job => exact recorded_of_unit h hm fun w' hr => validateStart_tables hr
  | checkpoint job => exact recorded_of_unit h hm fun w' hr => checkpoint_tables hr
  | beginRunning job => exact recorded_of_unit h hm fun w' hr => beginRunning_tables hr
  | claimEffect job => exact recorded_of_tables h hm fun w' a hr => claimEffect_tables hr
  | finish job state result => exact recorded_of_unit h hm fun w' hr => finishJob_tables hr
  | cancel jobId request principal =>
    exact recorded_of_unit h hm fun w' hr => cancel_tables hr
  | wake jobId request principal => exact recorded_of_unit h hm fun w' hr => wake_tables hr
  | enqueue request principal key =>
    exact recorded_of_commit h fun w' a hr => CommandConfig.enqueue_recorded h hr
  | decision jobId request principal approved =>
    refine recorded_of_commit h fun w' a hr => ?_
    obtain ⟨v, hv, heq⟩ := exists_of_map_ok hr
    obtain ⟨rfl, -⟩ := Prod.mk.inj heq
    exact CommandConfig.decision_recorded h hv

theorem CommandsRecorded.of_env {e : ConsoleEnv} (h : w.CommandsRecorded) (he : w.env e = some w') :
    w'.CommandsRecorded ∧ w.CommandsKept w' := by
  have hm := env_move he
  have hkept : ∀ {w' : ConsoleWorld}, w.JobMove w' → w'.receipts = w.receipts →
      (∀ g ∈ w.grants, g ∈ w'.grants) → w'.grantUses = w.grantUses →
      w'.CommandsRecorded ∧ w.CommandsKept w' := by
    intro w' hm hr hg hu
    exact ⟨h.of_kept hm hr hg hu, .of_move hm fun r hr' => hr ▸ hr'⟩
  cases e with
  | authenticate principals sessions =>
    obtain rfl := Option.some.inj he
    exact hkept hm rfl (fun g hg => hg) rfl
  | preview preview =>
    obtain ⟨previews, -, rfl⟩ := Option.map_eq_some_iff.mp he
    exact hkept hm rfl (fun g hg => hg) rfl
  | grant grant =>
    obtain ⟨grants, hgrants, rfl⟩ := Option.map_eq_some_iff.mp he
    exact hkept hm rfl (fun g hg => (Table.mem_insert hgrants).mpr (Or.inl hg)) rfl
  | renew job =>
    obtain ⟨j, -, rfl⟩ := Option.map_eq_some_iff.mp he
    exact hkept hm rfl (fun g hg => hg) rfl

end ConsoleWorld

/-! ## Runs -/

section Runs

variable {x : CommandConfig} {w : ConsoleWorld} {s t : ConsoleState} {ls : List ConsoleLabel}
  {l : ConsoleLabel}

/-- The commands are recorded, and every enqueue that was answered has its receipt. -/
structure CommandBook (x : CommandConfig) (s : ConsoleState) : Prop where
  recorded : s.world.CommandsRecorded
  answered : ∀ n r principal key answer,
    (n, (⟨.enqueue r principal key, .ok answer⟩ : ConsoleEvent)) ∈ s.trace →
    x.Receipted s.world r principal key answer.job.spec

theorem commandBook_step (h : CommandBook x s) (hstep : (consoleSystem x).Step s l t) :
    CommandBook x t := by
  cases l with
  | start i =>
    obtain rfl := Option.some.inj hstep
    exact ⟨h.recorded, h.answered⟩
  | env e =>
    obtain ⟨w, hw, rfl⟩ := Option.map_eq_some_iff.mp hstep
    obtain ⟨hrec, hkept⟩ := h.recorded.of_env hw
    exact ⟨hrec, fun n r principal key answer he => (h.answered n r principal key answer he).of_kept
      hkept⟩
  | act n c =>
    obtain ⟨i, o, k, r, w, -, hx, rfl⟩ := System.step_act hstep
    obtain ⟨-, hx, -⟩ := exec_move hx
    have hnow : (s.world.atInstant c.now).CommandsRecorded :=
      ⟨h.recorded.receipts, h.recorded.uses, h.recorded.once⟩
    have hkept := hnow.of_exec (x := x) (o := o) (c := c)
    rw [hx] at hkept
    refine ⟨hkept.1, fun m request principal key answer he => ?_⟩
    rcases List.mem_append.mp he with he | he
    · exact (h.answered m request principal key answer he).of_kept
        ⟨hkept.2.receipts, hkept.2.jobs⟩
    · obtain ⟨rfl, heq⟩ := Prod.mk.inj (List.mem_singleton.mp he)
      cases heq
      exact CommandConfig.receipted_of_enqueue hnow (ConsoleChoice.commit_ok hx)

theorem commandBook_run (hw : w.Fresh) (hs : Run (consoleSystem x).Step (State.init w) ls s) :
    CommandBook x s := by
  refine hs.inv (I := CommandBook x) (fun s l t h hstep => commandBook_step h hstep) ?_
  obtain ⟨-, -, -, -, hreceipts, huses, -, -⟩ := hw
  refine ⟨⟨fun r hr => ?_, fun u hu => ?_, ?_⟩, fun n r principal key answer he => ?_⟩
  · rw [Table.mem_iff, show (State.init w : ConsoleState).world.receipts = _ from hreceipts] at hr
    cases hr
  · rw [show (State.init w : ConsoleState).world.grantUses = _ from huses] at hu
    cases hu
  · rw [show (State.init w : ConsoleState).world.grantUses = _ from huses]
    exact List.nodup_nil
  · cases he

/-- Two receipts of one key are of one payload and one job. -/
theorem receipted_unique {w : ConsoleWorld} {r r' : EnqueueRequest} {principal principal' : PrincipalRef}
    {key key' : String} {job job' : JobSpec} (h : x.Receipted w r principal key job)
    (h' : x.Receipted w r' principal' key' job')
    (hkey : CommandConfig.receiptKey principal job.action job.scope key =
      CommandConfig.receiptKey principal' job'.action job'.scope key') :
    x.digest r.safe = x.digest r'.safe ∧ job = job' := by
  obtain ⟨⟨a, ha, hka, hda, hja⟩, j, hj, rfl⟩ := h
  obtain ⟨⟨b, hb, hkb, hdb, hjb⟩, j', hj', rfl⟩ := h'
  obtain rfl : a = b := by
    rcases Table.eq_or_not_conflict ha hb with heq | hne
    · exact heq
    · exact absurd (hka.trans (hkey.trans hkb.symm)) hne
  have hid : j.id = j'.id := hja.symm.trans hjb
  exact ⟨hda.symm.trans hdb, by rw [ConsoleWorld.job_unique hj hj' hid]⟩

/-- Before a job of tier 3 could be claimed, a decision approved it. -/
theorem approved_before (hw : w.Fresh) (hs : Run (consoleSystem x).Step (State.init w) ls s)
    {j : ConsoleJob} (hj : j ∈ s.world.jobs) (htier : j.spec.dangerTier = 3)
    (hopen : j.status.state ∈ [.queued, .running, .reconciliationPending]) :
    ∃ ls₁ u n c v ls₂, Run (consoleSystem x).Step (State.init w) ls₁ u ∧
      (consoleSystem x).Step u (.act n c) v ∧ Run (consoleSystem x).Step v ls₂ s ∧
      (u.world.atInstant c.now).Approves j.spec v.world := by
  have hnone : ¬ ∃ j₀ ∈ (State.init w : ConsoleState).world.jobs, j₀.spec = j.spec ∧
      j₀.status.state ∈ [.queued, .running, .reconciliationPending] := by
    rintro ⟨j₀, hj₀, -⟩
    rw [Table.mem_iff, show (State.init w : ConsoleState).world.jobs = _ from hw.1] at hj₀
    cases hj₀
  obtain ⟨ls₁, u, l, v, ls₂, hu, hstep, hv, hbefore, j', hj', hspec, hopen'⟩ :=
    hs.first (P := fun s : ConsoleState => ∃ j₀ ∈ s.world.jobs, j₀.spec = j.spec ∧
      j₀.status.state ∈ [.queued, .running, .reconciliationPending]) hnone ⟨j, hj, rfl, hopen⟩
  have htier' : j'.spec.dangerTier = 3 := hspec ▸ htier
  cases l with
  | start i =>
    obtain rfl := Option.some.inj hstep
    exact absurd ⟨j', hj', hspec, hopen'⟩ hbefore
  | env e =>
    obtain ⟨w', hw', rfl⟩ := Option.map_eq_some_iff.mp hstep
    rcases ConsoleWorld.opened_of_move (ConsoleWorld.env_move hw') hj' htier' hopen' with
      ⟨j₀, hj₀, hspec', hopen₀⟩ | ⟨a, happ, -⟩
    · exact absurd ⟨j₀, hj₀, hspec'.trans hspec, hopen₀⟩ hbefore
    · -- nothing but a decision adds to the approvals
      have hsame : w'.approvals = u.world.approvals := by
        cases e with
        | authenticate principals sessions =>
          obtain rfl := Option.some.inj hw'
          rfl
        | preview preview =>
          obtain ⟨previews, -, rfl⟩ := Option.map_eq_some_iff.mp hw'
          rfl
        | grant grant =>
          obtain ⟨grants, -, rfl⟩ := Option.map_eq_some_iff.mp hw'
          rfl
        | renew job =>
          obtain ⟨j₀, -, rfl⟩ := Option.map_eq_some_iff.mp hw'
          rfl
      simp [hsame] at happ
  | act n c =>
    have hstep' := hstep
    obtain ⟨i, o, k, r, w', -, hx, rfl⟩ := System.step_act hstep
    obtain ⟨-, -, hm⟩ := exec_move hx
    rcases ConsoleWorld.opened_of_move hm hj' htier' hopen' with ⟨j₀, hj₀, hspec', hopen₀⟩ | happ
    · exact absurd ⟨j₀, hj₀, hspec'.trans hspec, hopen₀⟩ hbefore
    · exact ⟨ls₁, u, n, c, _, ls₂, hu, hstep', hv, hspec ▸ happ⟩

/-- In every run : two enqueues that were answered under one key had payloads of one digest and got
one job, and the next enqueue under the key of an answered one gets that job or is refused as a
conflict, as its payload has that digest or not ; no two jobs are of one preview, and every job an
enqueue was answered with is there ; no grant has two uses ; and a job of tier 3 that may be claimed
was approved before by another principal with the role of an owner. -/
theorem console_commands (hw : w.Fresh)
    (hs : Run (consoleSystem x).Step (State.init w) ls s) :
    (∀ n r principal key answer,
      (n, (⟨.enqueue r principal key, .ok answer⟩ : ConsoleEvent)) ∈ s.trace →
      (∃ j ∈ s.world.jobs, j.spec = answer.job.spec) ∧
      (∀ m r' principal' key' answer',
        (m, (⟨.enqueue r' principal' key', .ok answer'⟩ : ConsoleEvent)) ∈ s.trace →
        CommandConfig.receiptKey principal answer.job.spec.action answer.job.spec.scope key =
          CommandConfig.receiptKey principal' answer'.job.spec.action answer'.job.spec.scope key' →
        x.digest r.safe = x.digest r'.safe ∧ answer.job.spec = answer'.job.spec) ∧
      ∀ now freshId resource r' principal' key' preview, s.world.clock ≤ now →
        x.checkCaller (s.world.atInstant now) r' principal' key' = .ok preview →
        CommandConfig.receiptKey principal' preview.action preview.scope key' =
          CommandConfig.receiptKey principal answer.job.spec.action answer.job.spec.scope key →
        if x.digest r'.safe = x.digest r.safe then ∃ j, j.spec = answer.job.spec ∧
          x.enqueue (s.world.atInstant now) freshId resource r' principal' key' =
            .ok (s.world.atInstant now, ⟨j, true⟩)
        else x.enqueue (s.world.atInstant now) freshId resource r' principal' key' =
          refusal "idempotency_conflict" "Idempotency key belongs to a different request") ∧
    (∀ a ∈ s.world.jobs, ∀ b ∈ s.world.jobs, a.spec.previewId = b.spec.previewId → a = b) ∧
    (s.world.grantUses.map GrantUse.grantId).Nodup ∧
    ∀ j ∈ s.world.jobs, j.spec.dangerTier = 3 →
      ∀ actions now, (s.world.atInstant now).claimable actions j = true →
      ∃ ls₁ u n c v ls₂, Run (consoleSystem x).Step (State.init w) ls₁ u ∧
        (consoleSystem x).Step u (.act n c) v ∧ Run (consoleSystem x).Step v ls₂ s ∧
        (u.world.atInstant c.now).Approves j.spec v.world := by
  have h := commandBook_run hw hs
  refine ⟨fun n r principal key answer he => ?_, fun a ha b hb hsame => ?_, h.recorded.once,
    fun j hj htier actions now hclaim =>
      approved_before hw hs hj htier (ConsoleWorld.claimable_state hclaim)⟩
  · have hr := h.answered n r principal key answer he
    refine ⟨hr.2, fun m r' principal' key' answer' he' hkey =>
      receipted_unique hr (h.answered m r' principal' key' answer' he') hkey,
      fun now freshId resource r' principal' key' preview _ hcaller hkey => ?_⟩
    exact CommandConfig.enqueue_again (w := s.world.atInstant now) hr hcaller hkey
  · rcases Table.eq_or_not_conflict ha hb with heq | hne
    · exact heq
    · exact absurd (Or.inr hsame) hne

end Runs

/-! ## A job of two owners -/

def releasePrincipal (id : String) : ConsolePrincipal where
  id := id
  roles := ["owner"]
  scopes := [incidentScope]
  enabled := true
  revision := 1

def releaseSession (id principalId : String) : ConsoleSession :=
  { incidentSession with id := id, principalId := principalId }

def releasePreview : ConsolePreview :=
  { incidentPreview with
    actorId := "requester"
    action := "release.activate"
    targetRefs := [("release", "2")]
    dangerTier := 3 }

def releaseGrant (id principalId sessionId : String) : StepUpGrant where
  id := id
  principalId := principalId
  sessionId := sessionId
  previewDigest := "digest"
  action := "release.activate"
  scope := incidentScope
  verifiedAt := 0
  expiresAt := 60000000

def releaseWorld : ConsoleWorld :=
  { incidentWorld with
    principals := fun id =>
      if id ∈ ["requester", "approver"] then some (releasePrincipal id) else none
    sessions := [releaseSession "session" "requester", releaseSession "other" "approver"]
    previews := ⟨[releasePreview], by simp⟩
    grants := ⟨[releaseGrant "1" "requester" "session", releaseGrant "2" "approver" "other"],
      by decide⟩ }

theorem releaseWorld_fresh : releaseWorld.Fresh := by
  refine ⟨rfl, rfl, fun _ => rfl, rfl, rfl, rfl, rfl, fun v hv => ?_, fun g hg => ?_⟩
  · obtain rfl := List.mem_singleton.mp hv
    rfl
  · rcases List.mem_cons.mp hg with rfl | hg
    · exact ⟨rfl, rfl⟩
    · obtain rfl := List.mem_singleton.mp hg
      exact ⟨rfl, rfl⟩

/-- One owner enqueues a job of tier 3, and another approves it. -/
def approvedRelease : List ConsoleLabel :=
  [.start (.enqueue { incidentRequest with
      confirmationPhrase := some ""
      approvalReference := some "change 2" } ⟨"requester", "session"⟩ "key"),
    .act 0 .served,
    .start (.decision "job" ⟨some "digest", some "1", some "reviewed", false⟩
      ⟨"approver", "other"⟩ true),
    .act 1 .served]

theorem console_commands_approved : ∃ s : ConsoleState,
    Run (consoleSystem operatorConsole).Step (State.init releaseWorld) approvedRelease s ∧
      s.world.grantUses.length = 2 ∧ (s.world.grantUses.map GrantUse.grantId).Nodup ∧
      ∃ j ∈ s.world.jobs, j.spec.dangerTier = 3 ∧ ∃ u n c v,
        (consoleSystem operatorConsole).Step u (.act n c) v ∧
          (u.world.atInstant c.now).Approves j.spec v.world := by
  have h : (replay (consoleSystem operatorConsole).step (State.init releaseWorld)
      approvedRelease).any (fun s => s.world.grantUses.length = 2 &&
        s.world.jobs.rows.any fun j => j.spec.dangerTier = 3 &&
          (s.world.atInstant 1).claimable ["release.activate"] j) = true := by decide +kernel
  obtain ⟨s, hs, hclaim⟩ := (Option.any_eq_true _ _).mp h
  have hrun : Run (consoleSystem operatorConsole).Step (State.init releaseWorld) approvedRelease s :=
    run_of_replay (fun _ _ _ h => h) hs
  simp only [Bool.and_eq_true, decide_eq_true_eq, List.any_eq_true] at hclaim
  obtain ⟨huses, j, hj, htier, hclaim⟩ := hclaim
  obtain ⟨-, -, honce, happroved⟩ := console_commands releaseWorld_fresh hrun
  obtain ⟨-, u, n, c, v, -, -, hstep, -, happ⟩ := happroved j hj htier _ 1 hclaim
  exact ⟨s, hrun, huses, honce, j, hj, htier, u, n, c, v, hstep, happ⟩

/-! ## Two enqueues under one key -/

/-- The requests that were answered, with their jobs. -/
def answeredJobs (tr : List (ℕ × ConsoleEvent)) : List (EnqueueRequest × String) :=
  tr.filterMap fun q =>
    match q.2 with
    | ⟨.enqueue r _ _, .ok answer⟩ => some (r, answer.job.id)
    | _ => none

/-- The codes of the refusals. -/
def refusalCodes (tr : List (ℕ × ConsoleEvent)) : List String :=
  tr.filterMap fun q =>
    match q.2 with
    | ⟨.enqueue _ _ _, .error (.command e)⟩ => some e.code
    | _ => none

/-- The owner sends two requests under one key, the second at the instant `now`. -/
def enqueuedTwice (first second : String) (now : Instant) : List ConsoleLabel :=
  [.start (.enqueue { incidentRequest with reason := some first } ⟨ownerId, "session"⟩ "key"),
    .act 0 .served,
    .start (.enqueue { incidentRequest with reason := some second } ⟨ownerId, "session"⟩ "key"),
    .act 1 { ConsoleChoice.served with now := now }]

/-- Two requests whose reasons differ in a secret get one job, and a request that is repeated after
its session expired gets neither the job nor a conflict. -/
theorem secrets_not_compared :
    (¬ ∀ s : ConsoleState, Run (consoleSystem operatorConsole).Step (State.init incidentWorld)
        (enqueuedTwice "token=abc" "token=xyz" 1) s →
      ∀ a ∈ answeredJobs s.trace, ∀ b ∈ answeredJobs s.trace, a.1 ≠ b.1 → a.2 ≠ b.2) ∧
    ¬ ∀ s : ConsoleState, Run (consoleSystem operatorConsole).Step (State.init incidentWorld)
        (enqueuedTwice "seen" "seen" 2000000000) s →
      (answeredJobs s.trace).length = 2 ∨ "idempotency_conflict" ∈ refusalCodes s.trace := by
  constructor
  · intro hall
    have h : (replay (consoleSystem operatorConsole).step (State.init incidentWorld)
        (enqueuedTwice "token=abc" "token=xyz" 1)).any (fun s =>
          (answeredJobs s.trace).any fun a => (answeredJobs s.trace).any fun b =>
            decide (a.1 ≠ b.1) && decide (a.2 = b.2)) = true := by decide +kernel
    obtain ⟨s, hs, h⟩ := (Option.any_eq_true _ _).mp h
    simp only [List.any_eq_true, Bool.and_eq_true, decide_eq_true_eq] at h
    obtain ⟨a, ha, b, hb, hne, hsame⟩ := h
    exact hall s (run_of_replay (fun _ _ _ h => h) hs) a ha b hb hne hsame
  · intro hall
    have h : (replay (consoleSystem operatorConsole).step (State.init incidentWorld)
        (enqueuedTwice "seen" "seen" 2000000000)).any (fun s =>
          decide ((answeredJobs s.trace).length = 1) &&
            decide (refusalCodes s.trace = ["session_expired"])) = true := by decide +kernel
    obtain ⟨s, hs, h⟩ := (Option.any_eq_true _ _).mp h
    simp only [Bool.and_eq_true, decide_eq_true_eq] at h
    rcases hall s (run_of_replay (fun _ _ _ h => h) hs) with h' | h'
    · omega
    · rw [h.2] at h'
      simp at h'

end FattyTrader
