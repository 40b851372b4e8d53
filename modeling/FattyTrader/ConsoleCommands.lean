import FattyTrader.ConsoleJobs

/-!
# Commands of the operator console

`enqueue` turns a preview into a job, once for each preview and each idempotency key, and consumes
a step-up grant where the action is dangerous. A job of tier 3 waits for the approval of another
owner (`CommandConfig.decision`). Before its effect a worker asks for the authority of the job
again (`CommandConfig.authority`) : the session of its actor, its grant, and its approval.

Payloads are compared by a digest of their text with the secrets taken out (`redactText`).
-/

set_option linter.unusedSectionVars false

open Tables

namespace FattyTrader

/-! ## Texts -/

/-- `strip('"')`. -/
def stripQuotes (s : String) : String :=
  String.ofList ((s.toList.dropWhile (· = '"')).rdropWhile (· = '"'))

/-- The ASCII letter a letter matches under `IGNORECASE`. -/
def foldCase (c : Char) : Char :=
  if c.toNat = 0x130 ∨ c.toNat = 0x131 then 'i'
  else if c.toNat = 0x17F then 's'
  else if c.toNat = 0x212A then 'k'
  else c.toLower

/-- What is left after a word. -/
def afterWord : List Char → List Char → Option (List Char)
  | [], cs => some cs
  | p :: ps, c :: cs => if foldCase c = p then afterWord ps cs else none
  | _ :: _, [] => none

/-- What is left after one character or more that satisfy `p`. -/
def afterSome (p : Char → Bool) : List Char → Option (List Char)
  | [] => none
  | c :: cs => if p c then some (cs.dropWhile p) else none

/-- `bearer\s+\S+`. -/
def afterBearer (cs : List Char) : Option (List Char) :=
  afterWord "bearer".toList cs >>= afterSome isSpace >>= afterSome fun c => !isSpace c

/-- The names of secrets. -/
def afterSecretName (cs : List Char) : Option (List Char) :=
  let api := afterWord "api".toList cs >>= fun rest =>
    let rest := match rest with
      | '_' :: rest => rest
      | '-' :: rest => rest
      | rest => rest
    ["key", "secret", "token"].findSome? fun name => afterWord name.toList rest
  api.or (["password", "passphrase", "token", "authorization", "cookie"].findSome? fun name =>
    afterWord name.toList cs)

/-- `name\s*[:=]\s*[^\s,;]+`. -/
def afterAssignment (cs : List Char) : Option (List Char) :=
  afterSecretName cs >>= fun rest =>
    match rest.dropWhile isSpace with
    | c :: rest =>
      if c = ':' ∨ c = '=' then
        afterSome (fun c => !isSpace c && c ≠ ',' && c ≠ ';') (rest.dropWhile isSpace)
      else none
    | [] => none

/-- `postgres(?:ql)?://[^\s]+`. -/
def afterDsn (cs : List Char) : Option (List Char) :=
  afterWord "postgres".toList cs >>= fun rest =>
    afterWord "://".toList ((afterWord "ql".toList rest).getD rest) >>=
      afterSome fun c => !isSpace c

def afterSecret (cs : List Char) : Option (List Char) :=
  (afterBearer cs).or ((afterAssignment cs).or (afterDsn cs))

def redactChars : ℕ → List Char → List Char
  | 0, cs => cs
  | _ + 1, [] => []
  | n + 1, c :: cs =>
    match afterSecret (c :: cs) with
    | some rest => "[redacted]".toList ++ redactChars n rest
    | none => c :: redactChars n cs

/-- `SECRET_TEXT.sub("[redacted]", s)`. -/
def redactText (s : String) : String := String.ofList (redactChars s.toList.length s.toList)

/-! ## Requests -/

structure EnqueueRequest where
  previewId : Option String
  previewDigest : Option String
  confirmationPhrase : Option String := none
  reason : Option String
  approvalReference : Option String := none
  policyVersion : Option String
  resourceVersion : Option String
  channel : Option String := none
  unknownField : Bool := false
deriving DecidableEq

/-- `safe_json` of a request : every text without its secrets. -/
def EnqueueRequest.safe (r : EnqueueRequest) : EnqueueRequest :=
  { previewId := r.previewId.map redactText
    previewDigest := r.previewDigest.map redactText
    confirmationPhrase := r.confirmationPhrase.map redactText
    reason := r.reason.map redactText
    approvalReference := r.approvalReference.map redactText
    policyVersion := r.policyVersion.map redactText
    resourceVersion := r.resourceVersion.map redactText
    channel := r.channel.map redactText
    unknownField := r.unknownField }

structure ControlRequest where
  previewDigest : Option String
  resourceVersion : Option String
  reason : Option String
  unknownField : Bool := false
deriving DecidableEq

/-- The job a command answers with. -/
structure CommandAnswer where
  job : ConsoleJob
  idempotencyReplayed : Bool := false
deriving DecidableEq

/-- The catalog of actions, the digest of a payload, and the shape of idempotency keys. -/
structure CommandConfig where
  policyRole : String → List (String × String) → Except CommandError String
  digest : EnqueueRequest → String
  isUuid : String → Bool

def policyVersion : String := "console-policy-26-v1"

def adapterVersion : String := "console-adapters-26-v1"

/-! ## Checks -/

/-- `_version`. -/
def checkVersion (version : Option String) (expected : String) : Except ConsoleError Unit :=
  match version with
  | none => refusal "precondition_required" "If-Match resource version is required" 428
  | some version =>
    if stripQuotes version ≠ expected then
      refusal "resource_changed" "The resource version changed" 412
    else .ok ()

/-- `_control`. -/
def checkControl (r : ControlRequest) : Except ConsoleError Unit :=
  if r.unknownField then refusal "invalid_request" "Unknown command control field" 422
  else match r.reason with
  | none => refusal "reason_required" "An explicit bounded reason is required" 422
  | some reason =>
    if strip reason = "" ∨ 1000 < reason.length then
      refusal "reason_required" "An explicit bounded reason is required" 422
    else .ok ()

/-- `_resource_current` : the version the handler reads now, where it reads one. -/
def checkResource (current : Option String) (expected : String) : Except ConsoleError Unit :=
  match current with
  | none => refusal "resource_changed"
    "The reviewed resource or evidence is no longer available" 412
  | some version =>
    if version ≠ expected then refusal "resource_changed" "Authoritative resources changed" 412
    else .ok ()

namespace ConsoleWorld

variable (w : ConsoleWorld)

/-- `_principal`. -/
def checkPrincipal (principal : PrincipalRef) (scope : ConsoleScope) (role : String := "viewer") :
    Except ConsoleError Unit :=
  match w.principals principal.id, w.sessions.find? fun s =>
      s.id = principal.sessionId && s.principalId = principal.id with
  | some p, some s =>
    if p.enabled = false ∨ s.revokedAt ≠ none ∨ s.expiresAt ≤ w.clock ∨
        s.absoluteExpiresAt ≤ w.clock ∨ s.principalRevision ≠ p.revision ∨
        s.lastSeenAt + seconds 1800 ≤ w.clock then
      refusal "session_expired" "A current authenticated session is required" 401
    else if role ≠ "viewer" ∧ role ∉ p.roles ∧ "owner" ∉ p.roles then
      refusal "permission_denied" "Required action privilege is missing" 403
    else if role = "viewer" ∧ p.roles = [] then
      refusal "permission_denied" "Read privilege is missing" 403
    else if scope ∉ p.scopes then
      refusal "scope_denied" "This account scope is not authorized" 403
    else .ok ()
  | _, _ => refusal "session_expired" "A current authenticated session is required" 401

/-- The latest of the rows, by a time of theirs. -/
def latest {α : Type} (time : α → Instant) : List α → Option α
  | [] => none
  | a :: as =>
    match latest time as with
    | none => some a
    | some b => if time a < time b then some b else some a

/-- `_grant` : the latest grant for exactly this preview is consumed. -/
def takeGrant (principal : PrincipalRef) (previewDigest action : String) (scope : ConsoleScope)
    (jobId : String) (decision : Bool) : Except ConsoleError (ConsoleWorld × StepUpGrant) :=
  match latest StepUpGrant.verifiedAt (w.grants.rows.filter fun g =>
      g.principalId = principal.id && g.sessionId = principal.sessionId &&
      g.previewDigest = previewDigest && g.action = action && g.scope = scope &&
      w.clock < g.expiresAt && g.consumedAt = none) with
  | none => refusal "consent_required"
    "Review and authorize this exact preview in the console" 403
  | some grant => .ok
    ({ w with
        grants := w.grants.rewrite
          (fun g => if g.id = grant.id then
            { g with consumedAt := some w.clock, jobId := some jobId } else g)
          fun a b h => by
            have hid : ∀ g : StepUpGrant, (if g.id = grant.id then
                { g with consumedAt := some w.clock, jobId := some jobId } else g).id = g.id := by
              intro g
              split <;> rfl
            simpa only [StepUpGrant.Conflict, hid] using h
        grantUses := w.grantUses ++ [⟨grant.id, jobId, decision⟩] }, grant)

/-- The preview is marked as consumed. -/
def consumePreview (previewId jobId : String) : ConsoleWorld :=
  { w with
    previews := w.previews.rewrite
      (fun v => if v.id = previewId then { v with consumedBy := some jobId } else v)
      fun a b h => by
        have hkept : ∀ v : ConsolePreview,
            (if v.id = previewId then { v with consumedBy := some jobId } else v).id = v.id ∧
            (if v.id = previewId then { v with consumedBy := some jobId } else v).previewDigest =
              v.previewDigest := by
          intro v
          split <;> exact ⟨rfl, rfl⟩
        simpa only [ConsolePreview.Conflict, hkept] using h }

end ConsoleWorld

namespace CommandConfig

variable (x : CommandConfig) (w : ConsoleWorld)

def policy (action : String) (arguments : List (String × String)) : Except ConsoleError String :=
  (x.policyRole action arguments).mapError .command

/-! ## Enqueue -/

/-- The part of `enqueue` before the receipt is looked up. -/
def checkCaller (request : EnqueueRequest) (principal : PrincipalRef) (key : String) :
    Except ConsoleError ConsolePreview :=
  if request.unknownField then refusal "invalid_request" "Unknown enqueue field" 422
  else if x.isUuid key = false then
    refusal "precondition_required" "A UUID Idempotency-Key is required" 428
  else match request.previewId.bind (w.previews.find ConsolePreview.id) with
  | none => refusal "not_found" "Preview not found" 404
  | some preview =>
    if preview.actorId ≠ principal.id then refusal "not_found" "Preview not found" 404
    else do
      let role ← x.policy preview.action preview.arguments
      w.checkPrincipal principal preview.scope role
      pure preview

def receiptKey (principal : PrincipalRef) (action : String) (scope : ConsoleScope) (key : String) :
    String × String × String × String × String :=
  (principal.id, action, scope.accountId, scope.environment, key)

/-- The checks of a new request against its preview, and the reason with which it is stored. -/
def checkRequest (request : EnqueueRequest) (principal : PrincipalRef) (preview : ConsolePreview)
    (resource : Option String) : Except ConsoleError String :=
  if preview.dangerTier < 2 ∧ preview.sessionId ≠ principal.sessionId then
    refusal "session_expired" "Preview belongs to a different session" 401
  else do
    checkVersion request.resourceVersion preview.resourceVersion
    if request.previewDigest ≠ some preview.previewDigest then
      refusal "preview_changed" "Preview digest does not match" 412
    else if request.policyVersion ≠ some policyVersion ∨ preview.policyVersion ≠ policyVersion then
      refusal "policy_changed" "Refresh the action policy"
    else if preview.expiresAt ≤ w.clock then refusal "preview_expired" "Create a new preview"
    else if preview.consumedBy ≠ none then
      refusal "preview_consumed" "This preview already authorized a job"
    else do
      checkResource resource preview.resourceVersion
      if preview.gatesPass = false then
        refusal "gate_closed" "Required evidence or action gate does not pass"
      else match request.reason with
      | none => refusal "reason_required" "A bounded explicit reason is required" 422
      | some reason =>
        if strip reason = "" ∨ 1000 < reason.length then
          refusal "reason_required" "A bounded explicit reason is required" 422
        else if 2 ≤ preview.dangerTier ∧
            request.confirmationPhrase ≠ some preview.confirmationPhrase then
          refusal "confirmation_mismatch" "Type the exact preview confirmation phrase" 422
        else if 2 ≤ preview.dangerTier ∧ (request.approvalReference.any fun reference =>
            strip reference ≠ "" && reference.length ≤ 200) = false then
          refusal "approval_reference_required"
            "An explicit bounded approval reference is required" 422
        else pure (redactText (strip reason))

/-- The row of a new job. -/
def newJob (jobId reason : String) (request : EnqueueRequest) (principal : PrincipalRef)
    (preview : ConsolePreview) : ConsoleJob where
  spec :=
    { id := jobId
      previewId := preview.id
      actorId := principal.id
      sessionId := principal.sessionId
      channel := request.channel.getD "web"
      action := preview.action
      arguments := preview.arguments
      targetRefs := preview.targetRefs
      scope := preview.scope
      previewDigest := preview.previewDigest
      policyVersion := policyVersion
      adapterVersion := adapterVersion
      resourceVersion := preview.resourceVersion
      dangerTier := preview.dangerTier
      reason := reason
      approvalReference := request.approvalReference.map redactText
      authorizationExpiresAt := min preview.expiresAt (w.clock + seconds 300) }
  status := { state := if preview.dangerTier = 3 then .awaitingApproval else .queued }

/-- The grant a new job of tier 2 or 3 consumes. -/
def takeInitiatorGrant (job : ConsoleJob) (principal : PrincipalRef) :
    Except ConsoleError ConsoleWorld :=
  if 2 ≤ job.spec.dangerTier then
    (w.takeGrant principal job.spec.previewDigest job.spec.action job.spec.scope job.spec.id
      false).map Prod.fst
  else .ok w

/-- The writes of a new request. -/
def insertJob (job : ConsoleJob) (principal : PrincipalRef) (key payloadDigest : String) :
    Except ConsoleError ConsoleWorld :=
  match w.jobs.insert job with
  | none => .error .uniqueViolation
  | some jobs => do
    let granted ← takeInitiatorGrant { w with jobs } job principal
    let consumed := granted.consumePreview job.spec.previewId job.spec.id
    match consumed.receipts.insert
        { principalId := principal.id
          action := job.spec.action
          accountId := job.spec.scope.accountId
          environment := job.spec.scope.environment
          idempotencyKey := key
          payloadDigest := payloadDigest
          jobId := job.spec.id } with
    | none => .error .uniqueViolation
    | some receipts => pure { consumed with receipts }

/-- `enqueue`. -/
def enqueue (jobId : String) (resource : Option String) (request : EnqueueRequest)
    (principal : PrincipalRef) (key : String) :
    Except ConsoleError (ConsoleWorld × CommandAnswer) := do
  let preview ← x.checkCaller w request principal key
  match w.receipts.find IdempotencyReceipt.key
      (receiptKey principal preview.action preview.scope key) with
  | some receipt =>
    if receipt.payloadDigest ≠ x.digest request.safe then
      refusal "idempotency_conflict" "Idempotency key belongs to a different request"
    else match w.job receipt.jobId with
      | none => .error .adapter
      | some job => pure (w, ⟨job, true⟩)
  | none => do
    let reason ← checkRequest w request principal preview resource
    let job := newJob w jobId reason request principal preview
    let w ← insertJob w job principal key (x.digest request.safe)
    pure (w, ⟨job, false⟩)

/-! ## Decisions -/

/-- Another principal than the actor of the job needs a role. -/
def checkOther (job : ConsoleJob) (principal : PrincipalRef) (role : Except ConsoleError String) :
    Except ConsoleError Unit :=
  if job.spec.actorId = principal.id then .ok ()
  else role >>= fun role => w.checkPrincipal principal job.spec.scope role

/-- The version and the preview a request names are those of the job. -/
def checkBinding (job : ConsoleJob) (request : ControlRequest) : Except ConsoleError Unit := do
  checkVersion request.resourceVersion (toString job.status.revision)
  if request.previewDigest ≠ some job.spec.previewDigest then
    refusal "preview_changed" "Job digest does not match" 412
  else .ok ()

/-- `_authorized_job`. -/
def authorizedJob (jobId : String) (principal : PrincipalRef) (request : Option ControlRequest) :
    Except ConsoleError ConsoleJob :=
  match w.job jobId with
  | none => refusal "not_found" "Job not found" 404
  | some job => do
    w.checkPrincipal principal job.spec.scope
    checkOther w job principal (x.policy job.spec.action job.spec.arguments)
    request.elim (.ok ()) (checkBinding job)
    pure job

/-- A job of tier 3 is decided on by an owner. -/
def decisionRole (job : ConsoleJob) : Except ConsoleError String :=
  if job.spec.dangerTier = 3 then .ok "owner" else x.policy job.spec.action job.spec.arguments

/-- The checks of `_decision`, and the reason with which it is stored. -/
def checkDecision (job : ConsoleJob) (principal : PrincipalRef) (request : ControlRequest)
    (approved : Bool) (resource : Option String) : Except ConsoleError String := do
  let role ← x.decisionRole job
  w.checkPrincipal principal job.spec.scope role
  if job.status.state ∉ [.awaitingApproval, .queued] ∨ job.status.effectClaimed then
    refusal "not_approvable" "Only unclaimed queued approval can change"
  else if approved ∧ job.spec.dangerTier = 3 ∧
      (principal.id = ownerId ∨ job.spec.actorId = ownerId) then
    refusal "distinct_approver_required"
      "Shared-password access cannot establish a distinct approver" 403
  else if job.spec.dangerTier = 3 ∧ job.spec.actorId = principal.id then
    refusal "distinct_approver_required" "Tier 3 requires a different eligible owner" 403
  else
    let reason := redactText (strip (request.reason.getD ""))
    if reason = "" ∨ 1000 < reason.length then
      refusal "reason_required" "An explicit bounded reason is required" 422
    else if job.spec.policyVersion ≠ policyVersion then
      refusal "policy_changed" "Refresh the policy and preview"
    else if job.spec.authorizationExpiresAt ≤ w.clock then
      refusal "preview_expired" "Create a new preview; expired consent cannot be refreshed"
    else do
      checkResource resource job.spec.resourceVersion
      pure reason

/-- The row of a decision. -/
def newApproval (approvalId : String) (job : ConsoleJob) (principal : PrincipalRef)
    (approved : Bool) (reason : String) (grant : StepUpGrant) : ConsoleApproval where
  id := approvalId
  jobId := job.spec.id
  principalId := principal.id
  sessionId := principal.sessionId
  previewDigest := job.spec.previewDigest
  policyVersion := job.spec.policyVersion
  resourceVersion := job.spec.resourceVersion
  approved := approved
  reason := reason
  stepUpAt := grant.verifiedAt
  expiresAt := min grant.expiresAt job.spec.authorizationExpiresAt
  createdAt := w.clock

/-- The primary key of the decisions, and `UNIQUE (job_id, principal_id, created_at)`. -/
def approvalConflict (a b : ConsoleApproval) : Bool :=
  a.id = b.id ||
    (a.jobId = b.jobId && a.principalId = b.principalId && a.createdAt = b.createdAt)

/-- The writes of a decision. -/
def insertDecision (approvalId : String) (job : ConsoleJob) (principal : PrincipalRef)
    (approved : Bool) (reason : String) : Except ConsoleError ConsoleWorld := do
  let (granted, grant) ← w.takeGrant principal job.spec.previewDigest job.spec.action
    job.spec.scope job.spec.id true
  let approval := newApproval w approvalId job principal approved reason grant
  if w.approvals.any (approvalConflict approval) then .error .uniqueViolation
  else
    let decided : ConsoleWorld := { granted with approvals := granted.approvals ++ [approval] }
    pure (decided.writeState job.spec.id (if approved then .queued else .rejected) fun s =>
      { s with revision := s.revision + 1 })

/-- `_decision`, of `approve` and `reject`. -/
def decision (approvalId : String) (resource : Option String) (jobId : String)
    (request : ControlRequest) (principal : PrincipalRef) (approved : Bool) :
    Except ConsoleError ConsoleWorld := do
  checkControl request
  let job ← x.authorizedJob w jobId principal (some request)
  let reason ← x.checkDecision w job principal request approved resource
  insertDecision w approvalId job principal approved reason

/-- `cancel`. -/
def cancel (jobId : String) (request : ControlRequest) (principal : PrincipalRef) :
    Except ConsoleError ConsoleWorld := do
  checkControl request
  let job ← x.authorizedJob w jobId principal none
  if job.status.state = .cancelled then pure w
  else do
    checkBinding job request
    checkOther w job principal (.ok "owner")
    if job.status.state.terminal then
      refusal "not_cancellable" "Terminal work cannot be undone"
    else
      let beforeClaim := job.status.state ∈ [.queued, .awaitingApproval] ∧
        job.status.effectClaimed = false
      pure (w.writeState job.spec.id (if beforeClaim then .cancelled else job.status.state)
        fun s => { s with
          cancellationRequestedAt := some (s.cancellationRequestedAt.getD w.clock)
          revision := s.revision + 1 })

/-- `CommandService.reconcile` : a pending readback may be claimed at once. -/
def wake (jobId : String) (request : ControlRequest) (principal : PrincipalRef) :
    Except ConsoleError ConsoleWorld := do
  checkControl request
  let job ← x.authorizedJob w jobId principal (some request)
  if job.status.state ≠ .reconciliationPending then
    refusal "not_reconcilable" "Only pending readback may be resumed"
  else if job.status.leaseUntil.any (fun t => w.clock < t) ∧ job.status.leaseToken ≠ none then
    refusal "resource_busy" "A readback worker already owns this job"
  else
    pure (w.setStatus job.spec.id fun s =>
      { s with leaseUntil := none, revision := s.revision + 1 })

/-! ## Authority -/

/-- The grant of the job's actor, consumed for the job. -/
def jobGrant (job : ConsoleJob) : Option StepUpGrant :=
  w.grants.rows.find? fun g =>
    g.principalId = job.spec.actorId && g.sessionId = job.spec.sessionId &&
    g.jobId = some job.spec.id && g.previewDigest = job.spec.previewDigest &&
    g.action = job.spec.action && g.scope = job.spec.scope && g.consumedAt.isSome

/-- The latest approval of the job by another principal. -/
def jobApproval (job : ConsoleJob) : Option ConsoleApproval :=
  ConsoleWorld.latest ConsoleApproval.createdAt (w.approvals.filter fun a =>
    a.jobId = job.spec.id && a.approved && a.principalId ≠ job.spec.actorId &&
    a.previewDigest = job.spec.previewDigest && a.policyVersion = job.spec.policyVersion &&
    a.resourceVersion = job.spec.resourceVersion)

/-- The part of `_authority` on the second person. -/
def checkApproval (job : ConsoleJob) (consume : Bool) : Except ConsoleError ConsoleWorld :=
  let starting := job.status.effectClaimed = false
  match jobApproval w job with
  | none => refusal "approval_expired" "A fresh distinct owner approval is required"
  | some approval =>
    if starting ∧ (approval.expiresAt ≤ w.clock ∨ approval.stepUpAt < w.clock - seconds 300) then
      refusal "approval_expired" "A fresh distinct owner approval is required"
    else if consume = false ∧ approval.consumedAt = none then
      refusal "approval_expired" "Approval has not been consumed for execution"
    else do
      w.checkPrincipal ⟨approval.principalId, approval.sessionId⟩ job.spec.scope "owner"
      if (w.grants.rows.any fun g =>
          g.principalId = approval.principalId && g.sessionId = approval.sessionId &&
          g.jobId = some job.spec.id && g.previewDigest = job.spec.previewDigest &&
          g.action = job.spec.action && g.scope = job.spec.scope &&
          g.verifiedAt = approval.stepUpAt && g.consumedAt.isSome) = false then
        refusal "approval_expired" "Approver bound step-up evidence is missing"
      else if consume then
        pure { w with approvals := w.approvals.map fun a =>
          if a.id = approval.id then
            { a with consumedAt := some (a.consumedAt.getD w.clock) } else a }
      else pure w

/-- `_authority`. -/
def authority (job : ConsoleJob) (consume : Bool) : Except ConsoleError ConsoleWorld := do
  let role ← x.policy job.spec.action job.spec.arguments
  let starting := job.status.effectClaimed = false
  if job.spec.dangerTier = 3 ∧ job.spec.actorId = ownerId then
    refusal "distinct_approver_required"
      "Shared-password access cannot authorize a two-person action" 403
  else do
    w.checkPrincipal ⟨job.spec.actorId, job.spec.sessionId⟩ job.spec.scope role
    if job.spec.policyVersion ≠ policyVersion ∨ job.spec.adapterVersion ≠ adapterVersion then
      refusal "policy_changed" "Policy or adapter changed"
    else if starting ∧ job.spec.authorizationExpiresAt ≤ w.clock then
      refusal "authorization_expired" "Approval and preview window expired"
    else if 2 ≤ job.spec.dangerTier ∧ ((jobGrant w job).all fun g =>
        starting && (g.expiresAt ≤ w.clock || g.verifiedAt < w.clock - seconds 300)) then
      refusal "step_up_required" "Initiator bound step-up is no longer current" 403
    else if job.spec.dangerTier = 3 then checkApproval w job consume
    else pure w

/-- `effect_authority`. -/
def effectAuthority (c : ClaimedJob) : Except ConsoleError ConsoleJob :=
  match w.ownedJob c with
  | none => .error .lostLease
  | some current =>
    if current.status.cancellationRequestedAt ≠ none then .error .effectCancelled
    else (x.authority w current false).map fun _ => current

/-- The transaction of `validate_worker_start`. -/
def validateStart (c : ClaimedJob) : Except ConsoleError ConsoleWorld :=
  match w.ownedJob c with
  | none => .error .lostLease
  | some current =>
    if current.status.cancellationRequestedAt ≠ none then
      refusal "cancelled" "Cancellation requested"
    else x.authority w current true

/-- `begin_running`. -/
def beginRunning (c : ClaimedJob) : Except ConsoleError ConsoleWorld := do
  let current ← x.effectAuthority w c
  if current.status.state ≠ .queued then .error .lostLease
  else pure (w.writeState c.spec.id .running fun s => { s with revision := s.revision + 1 })

/-- `claim_effect`, of the effect a worker dispatches : it answers whether the effect is new. -/
def claimEffect (c : ClaimedJob) (effectKey : String := "adapter_dispatch") :
    Except ConsoleError (ConsoleWorld × Bool) := do
  let _ ← x.effectAuthority w c
  if w.effects.any fun e => e.jobId = c.spec.id && e.effectKey = effectKey then pure (w, false)
  else
    let effect : JobEffect := ⟨c.spec.id, effectKey, c.leaseToken, c.claimGeneration⟩
    let recorded : ConsoleWorld := { w with effects := w.effects ++ [effect] }
    pure (recorded.setStatus c.spec.id fun s =>
      { s with effectClaimed := true, revision := s.revision + 1 }, true)

end CommandConfig

end FattyTrader
