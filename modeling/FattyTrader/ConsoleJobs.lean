import FattyTrader.ConsoleSessions

/-!
# Jobs of the operator console

A job is claimed under a lease : the claim gives it a new token and a new generation and takes the
locks of its resource keys, and every later transaction of the worker asks for the row with that
token and that generation, before the deadline of the lease (`ConsoleWorld.ownedJob`). Before a
handler executes, the worker records the effect of the job, once for each job
(`ConsoleWorld.claimEffect`). A claim of a job that another worker had claimed before is for
readback only.

The columns of a job that never change are its `JobSpec`, the others its `JobStatus`. `stateWrites`
keeps every write of the column `state`, with the state before it, and `grantUses` what each
step-up grant was consumed for ; no operation reads them.
-/

set_option linter.unusedSectionVars false

open Tables

namespace FattyTrader

/-! ## The tables -/

inductive JobState
  | awaitingApproval
  | queued
  | running
  | reconciliationPending
  | succeeded
  | failed
  | partiallySucceeded
  | rejected
  | expired
  | cancelled
deriving DecidableEq

namespace JobState

/-- `TERMINAL_STATES`. -/
def terminal : JobState → Bool
  | succeeded | failed | partiallySucceeded | rejected | expired | cancelled => true
  | _ => false

/-- `ALLOWED_TRANSITIONS`. -/
def allowedTransitions : JobState → List JobState
  | awaitingApproval => [queued, rejected, expired, cancelled]
  | queued => [running, awaitingApproval, rejected, expired, cancelled]
  | running => [succeeded, failed, partiallySucceeded, reconciliationPending, cancelled]
  | reconciliationPending => [running]
  | _ => []

/-- The outcomes `finish_job` takes. -/
def outcomes : List JobState :=
  [succeeded, failed, partiallySucceeded, reconciliationPending, cancelled, awaitingApproval,
    rejected, expired]

end JobState

/-- The columns of a job that never change. -/
structure JobSpec where
  id : String
  previewId : String
  actorId : String
  sessionId : String
  channel : String
  action : String
  arguments : List (String × String)
  targetRefs : List (String × String)
  scope : ConsoleScope
  previewDigest : String
  policyVersion : String
  adapterVersion : String
  resourceVersion : String
  dangerTier : ℕ
  reason : String
  approvalReference : Option String
  authorizationExpiresAt : Instant
deriving DecidableEq

structure JobStatus where
  state : JobState
  revision : ℕ := 1
  claimedBy : Option String := none
  leaseToken : Option String := none
  leaseUntil : Option Instant := none
  claimGeneration : ℕ := 0
  effectClaimed : Bool := false
  cancellationRequestedAt : Option Instant := none
  result : Option String := none
  reconciliationRequired : Bool := false
deriving DecidableEq

structure ConsoleJob where
  spec : JobSpec
  status : JobStatus
deriving DecidableEq

namespace ConsoleJob

/-- The job was claimed before : a new claim is for readback. -/
def recovering (j : ConsoleJob) : Bool :=
  j.status.state ≠ .queued || j.status.leaseToken.isSome || j.status.effectClaimed

def id (j : ConsoleJob) : String := j.spec.id

/-- The primary key, and `UNIQUE (preview_id)`. -/
def Conflict (a b : ConsoleJob) : Prop :=
  a.spec.id = b.spec.id ∨ a.spec.previewId = b.spec.previewId

instance : DecidableRel Conflict := fun a b =>
  inferInstanceAs (Decidable (a.spec.id = b.spec.id ∨ a.spec.previewId = b.spec.previewId))

instance : Std.Symm Conflict := ⟨fun _ _ h => h.imp Eq.symm Eq.symm⟩

theorem conflict_of_id (a b : ConsoleJob) (h : a.id = b.id) : Conflict a b := Or.inl h

end ConsoleJob

/-- A row of `console_job_effects` : the lease under which the effect of a job was claimed. -/
structure JobEffect where
  jobId : String
  effectKey : String
  leaseToken : String
  claimGeneration : ℕ
deriving DecidableEq

structure ResourceLock where
  jobId : String
  leaseToken : String
  claimGeneration : ℕ
deriving DecidableEq

structure ConsoleApproval where
  id : String
  jobId : String
  principalId : String
  sessionId : String
  previewDigest : String
  policyVersion : String
  resourceVersion : String
  approved : Bool
  reason : String
  stepUpAt : Instant
  expiresAt : Instant
  createdAt : Instant
  consumedAt : Option Instant := none
deriving DecidableEq

structure IdempotencyReceipt where
  principalId : String
  action : String
  accountId : String
  environment : String
  idempotencyKey : String
  payloadDigest : String
  jobId : String
deriving DecidableEq

namespace IdempotencyReceipt

/-- The primary key. -/
def key (r : IdempotencyReceipt) : String × String × String × String × String :=
  (r.principalId, r.action, r.accountId, r.environment, r.idempotencyKey)

def Conflict (a b : IdempotencyReceipt) : Prop := a.key = b.key

instance : DecidableRel Conflict := fun a b => inferInstanceAs (Decidable (a.key = b.key))

instance : Std.Symm Conflict := ⟨fun _ _ h => Eq.symm h⟩

end IdempotencyReceipt

namespace ConsolePreview

/-- The primary key, and `UNIQUE (preview_digest)`. -/
def Conflict (a b : ConsolePreview) : Prop := a.id = b.id ∨ a.previewDigest = b.previewDigest

instance : DecidableRel Conflict := fun a b =>
  inferInstanceAs (Decidable (a.id = b.id ∨ a.previewDigest = b.previewDigest))

instance : Std.Symm Conflict := ⟨fun _ _ h => h.imp Eq.symm Eq.symm⟩

end ConsolePreview

namespace StepUpGrant

/-- The primary key. -/
def Conflict (a b : StepUpGrant) : Prop := a.id = b.id

instance : DecidableRel Conflict := fun a b => inferInstanceAs (Decidable (a.id = b.id))

instance : Std.Symm Conflict := ⟨fun _ _ h => Eq.symm h⟩

end StepUpGrant

/-- What a grant was consumed for : the job it started, or a decision on a job. -/
structure GrantUse where
  grantId : String
  jobId : String
  decision : Bool
deriving DecidableEq

structure StateWrite where
  jobId : String
  old : JobState
  new : JobState
deriving DecidableEq

structure ConsoleWorld where
  clock : Instant
  principals : String → Option ConsolePrincipal
  sessions : List ConsoleSession
  previews : Table ConsolePreview ConsolePreview.Conflict
  grants : Table StepUpGrant StepUpGrant.Conflict
  approvals : List ConsoleApproval
  receipts : Table IdempotencyReceipt IdempotencyReceipt.Conflict
  jobs : Table ConsoleJob ConsoleJob.Conflict
  effects : List JobEffect
  locks : String → Option ResourceLock
  stateWrites : List StateWrite
  grantUses : List GrantUse

/-- `CommandError`. -/
structure CommandError where
  code : String
  message : String
  status : ℕ := 409
deriving DecidableEq

inductive ConsoleError
  | command (e : CommandError)
  | lostLease
  | effectCancelled
  | valueError (message : String)
  | uniqueViolation
  | connection
  /-- An exception of the commit, after the statements of the transaction. -/
  | commit
  | adapter
deriving DecidableEq

def refusal {α : Type} (code message : String) (status : ℕ := 409) : Except ConsoleError α :=
  .error (.command ⟨code, message, status⟩)

/-- What a worker holds of a job it claimed. -/
structure ClaimedJob where
  spec : JobSpec
  leaseToken : String
  claimGeneration : ℕ
  state : JobState
  effectClaimed : Bool
  readbackOnly : Bool
deriving DecidableEq

/-! ## Resource keys -/

section Keys

def startsWithAny (s : String) (heads : List String) : Bool :=
  heads.any fun head => head.toList.isPrefixOf s.toList

def endsWithAny (s : String) (tails : List String) : Bool :=
  tails.any fun tail => tail.toList.isSuffixOf s.toList

def financialPrefixes : List String :=
  ["trade.", "entry.", "order.", "position.", "protection.", "management.", "service.", "release.",
    "latch.", "baseline."]

def lockedFields : List String :=
  ["client_oid", "symbol", "principal_id", "session_id", "draft_id", "backup_id", "release_id",
    "baseline_id"]

/-- The keys `_lock_resources` locks. The source sorts them, so that two claims lock in one order ;
all of them are locked or none. -/
def JobSpec.resourceKeys (j : JobSpec) : List String :=
  let start := j.scope.accountId ++ ":" ++ j.scope.environment
  if endsWithAny j.action [".reconcile", ".observe"] ∨ j.dangerTier = 0 then []
  else
    let identity := startsWithAny j.action ["access.", "session."]
    let financial := startsWithAny j.action financialPrefixes ||
      j.action ∈ ["backup.restore", "config.save", "config.apply"]
    (if identity then [start ++ ":access"] else if financial then [start ++ ":account"] else []) ++
      j.targetRefs.map (fun target => start ++ ":" ++ target.1 ++ ":" ++ target.2) ++
      lockedFields.filterMap fun field =>
        (j.arguments.lookup field).map fun value => start ++ ":" ++ field ++ ":" ++ value

end Keys

/-! ## Transactions on jobs -/

namespace ConsoleWorld

variable (w : ConsoleWorld)

def job (id : String) : Option ConsoleJob := w.jobs.find ConsoleJob.id id

/-- An update of the job `id`. -/
def setStatus (id : String) (f : JobStatus → JobStatus) : ConsoleWorld :=
  { w with
    jobs := w.jobs.rewrite (fun j => if j.id = id then { j with status := f j.status } else j)
      fun a b h => by
        have hspec : ∀ j : ConsoleJob,
            (if j.id = id then { j with status := f j.status } else j).spec = j.spec := by
          intro j
          split <;> rfl
        simpa only [ConsoleJob.Conflict, hspec] using h }

/-- An update of the job `id` that writes its state. -/
def writeState (id : String) (state : JobState) (f : JobStatus → JobStatus) : ConsoleWorld :=
  { w.setStatus id fun s => { f s with state := state } with
    stateWrites := w.stateWrites ++
      ((w.job id).map fun j => ⟨id, j.status.state, state⟩).toList }

/-- The lock of `key` may be taken for the job `id` : it is free, or held by the job itself, or by
a job that is done. -/
def lockable (id key : String) : Bool :=
  match w.locks key with
  | none => true
  | some lock =>
    match w.job lock.jobId with
    | none => true
    | some holder => lock.jobId = id || holder.status.state.terminal

/-- `_lock_resources`. -/
def lockResources (j : JobSpec) (token : String) (generation : ℕ) : Option ConsoleWorld :=
  if j.resourceKeys.all (w.lockable j.id) then
    some { w with
      locks := fun key =>
        if key ∈ j.resourceKeys then some ⟨j.id, token, generation⟩ else w.locks key }
  else none

def claimable (actions : List String) (j : ConsoleJob) : Bool :=
  j.spec.action ∈ actions && j.status.state ∈ [.queued, .running, .reconciliationPending] &&
    j.status.leaseUntil.all fun t => t < w.clock

/-- What a claim writes besides the state. -/
def claimStatus (worker token : String) (deadline : Instant) (s : JobStatus) : JobStatus :=
  { s with
    claimedBy := some worker
    leaseToken := some token
    leaseUntil := some deadline
    claimGeneration := s.claimGeneration + 1
    revision := s.revision + 1 }

/-- What a claim writes that finds a resource busy. -/
def releaseStatus (s : JobStatus) : JobStatus :=
  { s with leaseToken := none, leaseUntil := none, claimedBy := none }

/-- `claim_job`, of the job `pick` : rows that other transactions hold are skipped, so it may be any
claimable one. A busy resource takes back the locks, not the first update. -/
def claimJob (worker : String) (actions : List String) (pick token : String)
    (leaseSeconds : ℕ := 120) : ConsoleWorld × Option ClaimedJob :=
  match w.job pick with
  | none => (w, none)
  | some j =>
    if w.claimable actions j = false then (w, none)
    else
      let state := if j.recovering then .running else .queued
      let generation := j.status.claimGeneration + 1
      let claimed := w.writeState pick state
        (claimStatus worker token (w.clock + seconds leaseSeconds))
      match claimed.lockResources j.spec token generation with
      | none =>
        (claimed.writeState pick (if j.recovering then .reconciliationPending else .queued)
          releaseStatus, none)
      | some locked =>
        (locked, some
          { spec := j.spec
            leaseToken := token
            claimGeneration := generation
            state := state
            effectClaimed := j.status.effectClaimed
            readbackOnly := j.recovering })

/-- `owned_job`. -/
def ownedJob (c : ClaimedJob) : Option ConsoleJob :=
  (w.job c.spec.id).filter fun j => j.status.leaseToken = some c.leaseToken &&
    j.status.claimGeneration = c.claimGeneration && j.status.state ∈ [.queued, .running] &&
    j.status.leaseUntil.any fun t => w.clock < t

/-- `renew_lease`. -/
def renewLease (c : ClaimedJob) (leaseSeconds : ℕ := 120) : Option ConsoleWorld :=
  (w.ownedJob c).map fun _ => w.setStatus c.spec.id fun s =>
    { s with leaseUntil := some (w.clock + seconds leaseSeconds) }

/-- `checkpoint`. -/
def checkpoint (c : ClaimedJob) : Except ConsoleError ConsoleWorld :=
  match w.ownedJob c with
  | none => .error .lostLease
  | some _ => .ok (w.setStatus c.spec.id fun s => { s with revision := s.revision + 1 })

/-- The locks of a job under a token go. -/
def unlock (id token : String) : ConsoleWorld :=
  { w with locks := fun key =>
      (w.locks key).filter fun lock => ¬ (lock.jobId = id ∧ lock.leaseToken = token) }

/-- What `finish_job` writes besides the state. -/
def finishStatus (now : Instant) (state : JobState) (result : Option String) (s : JobStatus) :
    JobStatus :=
  { s with
    result := result
    reconciliationRequired := state = .reconciliationPending
    leaseUntil := if state = .reconciliationPending then some (now + seconds 10) else none
    leaseToken := none
    claimedBy := none
    revision := s.revision + 1 }

/-- `finish_job`. -/
def finishJob (c : ClaimedJob) (state : JobState) (result : Option String) :
    Except ConsoleError ConsoleWorld :=
  if state ∉ JobState.outcomes then .error (.valueError "invalid outcome state")
  else match w.ownedJob c with
  | none => .error .lostLease
  | some current =>
    if state ∉ current.status.state.allowedTransitions then
      .error (.valueError "invalid job state transition")
    else if state ∈ [.awaitingApproval, .rejected, .expired] ∧ current.status.effectClaimed then
      .error (.valueError "claimed effects require readback")
    else
      let updated := w.writeState c.spec.id state (finishStatus w.clock state result)
      if state.terminal ∨ (state = .awaitingApproval ∧ current.status.effectClaimed = false) then
        .ok (updated.unlock c.spec.id c.leaseToken)
      else .ok updated

end ConsoleWorld

end FattyTrader
