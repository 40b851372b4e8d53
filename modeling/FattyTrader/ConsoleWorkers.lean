import FattyTrader.ConsoleCommands
import FattyTrader.Programs

/-!
# The workers of the operator console

A worker claims a job and processes it (`processJob`) : a job that was claimed before is read back
only, any other is validated, started, and executed after its effect was recorded. `consoleSystem`
runs any number of workers, each of which may stop anywhere, and of the commands, over a clock that
never goes back. The environment holds the authentication service, new previews and grants, and the
renewal task of a worker, which holds no more than the worker's claim.
-/

set_option linter.unusedSectionVars false

open Programs

namespace FattyTrader

/-- What a handler's preview of the targets says. -/
structure HandlerPreview where
  resourceVersion : String
  gatesPass : Bool
deriving DecidableEq

/-- The outcome of a handler, with the state it names. -/
structure HandlerOutcome where
  state : Option JobState
  result : Option String
deriving DecidableEq

inductive ConsoleOp
  | claimJob (worker : String) (actions : List String)
  | preview (job : JobSpec)
  | validateStart (job : ClaimedJob)
  | checkpoint (job : ClaimedJob)
  | beginRunning (job : ClaimedJob)
  | claimEffect (job : ClaimedJob)
  | execute (job : JobSpec)
  | reconcile (job : JobSpec)
  | finish (job : ClaimedJob) (state : JobState) (result : Option String)
  | enqueue (request : EnqueueRequest) (principal : PrincipalRef) (key : String)
  | decision (jobId : String) (request : ControlRequest) (principal : PrincipalRef)
      (approved : Bool)
  | cancel (jobId : String) (request : ControlRequest) (principal : PrincipalRef)
  | wake (jobId : String) (request : ControlRequest) (principal : PrincipalRef)
deriving DecidableEq

abbrev ConsoleAns : ConsoleOp → Type
  | .claimJob _ _ => Option ClaimedJob
  | .preview _ => HandlerPreview
  | .validateStart _ => Unit
  | .checkpoint _ => Unit
  | .beginRunning _ => Unit
  | .claimEffect _ => Bool
  | .execute _ => HandlerOutcome
  | .reconcile _ => HandlerOutcome
  | .finish _ _ _ => Unit
  | .enqueue _ _ _ => CommandAnswer
  | .decision _ _ _ _ => Unit
  | .cancel _ _ _ => Unit
  | .wake _ _ _ => Unit

abbrev ConsoleProg (α : Type) := Prog ConsoleOp ConsoleAns ConsoleError α
abbrev ConsoleEvent := Event ConsoleOp ConsoleAns ConsoleError

/-! ## The worker -/

namespace ConsoleProg

open Prog

def call (o : ConsoleOp) : ConsoleProg (ConsoleAns o) := perform o

/-- The outcome an interrupted job is finished with, a lost lease apart. -/
def interruptedState (job : ClaimedJob) : ConsoleError → JobState
  | .effectCancelled => if job.effectClaimed then .reconciliationPending else .cancelled
  | .command e =>
    if job.effectClaimed then .reconciliationPending
    else if job.state = .running then .failed
    else if e.code ∈ ["authorization_expired", "preview_expired"] then .expired
    else if e.code ∈ ["approval_expired", "step_up_required"] then .awaitingApproval
    else .rejected
  | _ =>
    if job.effectClaimed then .reconciliationPending
    else if job.state = .queued then .rejected
    else .failed

def interruptedResult : ConsoleError → Option String
  | .effectCancelled => some "cancelled_at_effect_boundary"
  | .command e => some e.code
  | _ => some "adapter_interrupted"

/-- The `except` branches of `process_job`. -/
def interrupted (job : ClaimedJob) (e : ConsoleError) : ConsoleProg Unit :=
  if e = .lostLease then pure ()
  else do
    match ← attempt (call (.finish job (interruptedState job e) (interruptedResult e))) with
    | .ok _ => pure ()
    | .error .lostLease => pure ()
    | .error e => raise e

/-- A step of `process_job` : an exception ends it, with what is known of the job by then. -/
def guarded {α : Type} (job : ClaimedJob) (p : ConsoleProg α) (k : α → ConsoleProg Unit) :
    ConsoleProg Unit := do
  match ← attempt p with
  | .ok a => k a
  | .error e => interrupted job e

/-- The end of `process_job`, with the outcome of the handler. -/
def complete (job : ClaimedJob) (outcome : HandlerOutcome) : ConsoleProg Unit :=
  let state := match outcome.state.filter fun s => s ∈ [JobState.succeeded, .failed,
      .reconciliationPending, .partiallySucceeded, .cancelled] with
    | some s => s
    | none => if job.effectClaimed then .reconciliationPending else .failed
  guarded job (call (.finish job state outcome.result)) pure

/-- The state a job gets whose start was refused. -/
def refusedState (code : String) : JobState :=
  if code = "cancelled" then .cancelled
  else if code ∈ ["authorization_expired", "preview_expired"] then .expired
  else if code ∈ ["approval_expired", "step_up_required"] then .awaitingApproval
  else .rejected

/-- `validate_worker_start`. -/
def validateWorkerStart (job : ClaimedJob) : ConsoleProg Unit := do
  let fresh ← call (.preview job.spec)
  if fresh.resourceVersion ≠ job.spec.resourceVersion then
    raise (.command ⟨"resource_changed", "Authoritative resources changed", 412⟩)
  else if fresh.gatesPass = false then
    raise (.command ⟨"gate_closed", "Fresh evidence or gate does not pass", 409⟩)
  else call (.validateStart job)

/-- `process_job` from the point where the job is running. -/
def dispatch (job : ClaimedJob) : ConsoleProg Unit :=
  guarded job (call (.claimEffect job)) fun claimed =>
    if claimed then
      let job := { job with effectClaimed := true }
      guarded job (call (.checkpoint job)) fun _ =>
      guarded job (call (.execute job.spec)) fun outcome => complete job outcome
    else guarded job (call (.reconcile job.spec)) fun outcome => complete job outcome

/-- `process_job`. -/
def processJob (job : ClaimedJob) : ConsoleProg Unit :=
  if job.readbackOnly ∧ job.effectClaimed = false then
    guarded job (call (.finish job .cancelled (some "worker_lost_before_effect"))) pure
  else if job.readbackOnly ∨ job.effectClaimed then
    guarded job (call (.checkpoint job)) fun _ =>
    guarded job (call (.reconcile job.spec)) fun outcome => complete job outcome
  else do
    match ← attempt (validateWorkerStart job) with
    | .error (.command e) =>
      guarded job (call (.finish job (refusedState e.code) (some e.code))) pure
    | .error e => interrupted job e
    | .ok _ =>
      guarded job (call (.checkpoint job)) fun _ => do
      match ← attempt (call (.beginRunning job)) with
      | .ok _ => dispatch { job with state := .running }
      | .error e =>
        -- the job at hand is running before the commit
        interrupted (if e = .commit then { job with state := .running } else job) e

/-- One turn of `run_console_worker`. -/
def workerTurn (worker : String) (actions : List String) : ConsoleProg Unit := do
  match ← call (.claimJob worker actions) with
  | none => pure ()
  | some job => processJob job

end ConsoleProg

/-! ## The system -/

inductive ConsoleCall
  | work (worker : String) (actions : List String)
  | enqueue (request : EnqueueRequest) (principal : PrincipalRef) (key : String)
  | decision (jobId : String) (request : ControlRequest) (principal : PrincipalRef)
      (approved : Bool)
  | cancel (jobId : String) (request : ControlRequest) (principal : PrincipalRef)
  | wake (jobId : String) (request : ControlRequest) (principal : PrincipalRef)
deriving DecidableEq

def ConsoleCall.body : ConsoleCall → ConsoleProg Unit
  | .work worker actions => ConsoleProg.workerTurn worker actions
  | .enqueue request principal key =>
    ConsoleProg.call (.enqueue request principal key) >>= fun _ => pure ()
  | .decision jobId request principal approved =>
    ConsoleProg.call (.decision jobId request principal approved)
  | .cancel jobId request principal => ConsoleProg.call (.cancel jobId request principal)
  | .wake jobId request principal => ConsoleProg.call (.wake jobId request principal)

/-- What the schedule chooses for one operation : the instant, what becomes of a transaction, the
row a claim takes, the ids drawn at random, and what the handlers say. -/
structure ConsoleChoice where
  delivery : Delivery
  /-- What fails is the commit. -/
  atCommit : Bool := false
  now : Instant
  pick : String
  token : String
  freshId : String
  resource : Option String
  preview : Except ConsoleError HandlerPreview
  outcome : Except ConsoleError HandlerOutcome

namespace ConsoleChoice

variable (c : ConsoleChoice)

/-- A transaction : refused, applied, applied but lost, or failed. -/
def commit {α : Type} (w : ConsoleWorld) :
    Except ConsoleError (ConsoleWorld × α) → Except ConsoleError α × ConsoleWorld
  | .error e => (.error e, w)
  | .ok (w', a) =>
    match c.delivery with
    | .answered => (.ok a, w')
    | .lost => (.error .commit, w')
    | .failed => (.error (if c.atCommit then .commit else .connection), w)

end ConsoleChoice

/-- One operation, over the world whose clock stands at `c.now`. -/
def consoleExec (x : CommandConfig) (o : ConsoleOp) (w : ConsoleWorld) (c : ConsoleChoice) :
    Except ConsoleError (ConsoleAns o) × ConsoleWorld :=
  match o with
  | .claimJob worker actions => c.commit w (.ok (w.claimJob worker actions c.pick c.token))
  | .preview _ => (c.preview, w)
  | .validateStart job => c.commit w ((x.validateStart w job).map (·, ()))
  | .checkpoint job => c.commit w ((w.checkpoint job).map (·, ()))
  | .beginRunning job => c.commit w ((x.beginRunning w job).map (·, ()))
  | .claimEffect job => c.commit w (x.claimEffect w job)
  | .execute _ => (c.outcome, w)
  | .reconcile _ => (c.outcome, w)
  | .finish job state result => c.commit w ((w.finishJob job state result).map (·, ()))
  | .enqueue request principal key =>
    c.commit w (x.enqueue w c.freshId c.resource request principal key)
  | .decision jobId request principal approved =>
    c.commit w ((x.decision w c.freshId c.resource jobId request principal approved).map (·, ()))
  | .cancel jobId request principal => c.commit w ((x.cancel w jobId request principal).map (·, ()))
  | .wake jobId request principal => c.commit w ((x.wake w jobId request principal).map (·, ()))

/-- What others do to the rows the console reads. -/
inductive ConsoleEnv
  | authenticate (principals : String → Option ConsolePrincipal) (sessions : List ConsoleSession)
  | preview (preview : ConsolePreview)
  | grant (grant : StepUpGrant)
  | renew (job : ClaimedJob)

def ConsoleWorld.env (w : ConsoleWorld) : ConsoleEnv → Option ConsoleWorld
  | .authenticate principals sessions => some { w with principals, sessions }
  | .preview preview =>
    (w.previews.insert { preview with consumedBy := none }).map fun previews =>
      { w with previews }
  | .grant grant =>
    (w.grants.insert { grant with consumedAt := none, jobId := none }).map fun grants =>
      { w with grants }
  | .renew job => w.renewLease job

/-- The clock goes forward to the instant of each operation. -/
def consoleSystem (x : CommandConfig) : System ConsoleOp ConsoleAns ConsoleError ConsoleCall
    ConsoleWorld ConsoleChoice ConsoleEnv where
  body := ConsoleCall.body
  exec o w c :=
    if w.clock ≤ c.now then some (consoleExec x o { w with clock := c.now } c) else none
  env := ConsoleWorld.env

abbrev ConsoleState := State ConsoleOp ConsoleAns ConsoleError ConsoleCall ConsoleWorld
abbrev ConsoleLabel := Label ConsoleCall ConsoleChoice ConsoleEnv

end FattyTrader
