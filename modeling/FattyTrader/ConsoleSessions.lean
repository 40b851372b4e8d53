import FattyTrader.Ledger
import FattyTrader.Programs

/-!
# Sessions of the operator console

A login opens a session with an absolute deadline, and a consent replaces the session it was
given in by a new one with the same deadline, in one transaction (`AuthConfig.openSession`). The
sessions of one login, each replacing the one before, are a chain. `rotations` keeps, for each
session, the one it replaced ; no operation reads it.

`AuthService` is a set of programs over the operations `AuthOp`, one for each transaction :
`principal` reads the session of a token and touches it in a transaction of its own, and `revoke`
reads the owner of a session before it revokes it. `authSystem` runs any number of calls, over a
clock that never goes back.
-/

set_option linter.unusedSectionVars false

open Tables Programs

namespace FattyTrader

/-! ## The tables -/

/-- The account a console acts on. -/
structure ConsoleScope where
  accountId : String
  venue : String
  environment : String
deriving DecidableEq

structure ConsolePrincipal where
  id : String
  roles : List String
  scopes : List ConsoleScope
  enabled : Bool
  revision : ℕ
deriving DecidableEq

structure ConsoleSession where
  id : String
  tokenHash : String
  principalId : String
  csrfToken : String
  authenticatedAt : Instant
  stepUpAt : Option Instant
  lastSeenAt : Instant
  expiresAt : Instant
  absoluteExpiresAt : Instant
  revokedAt : Option Instant := none
  principalRevision : ℕ
deriving DecidableEq

namespace ConsoleSession

/-- The primary key, and `UNIQUE (token_hash)`. -/
def Conflict (a b : ConsoleSession) : Prop := a.id = b.id ∨ a.tokenHash = b.tokenHash

instance : DecidableRel Conflict := fun a b =>
  inferInstanceAs (Decidable (a.id = b.id ∨ a.tokenHash = b.tokenHash))

instance : Std.Symm Conflict := ⟨fun _ _ h => h.imp Eq.symm Eq.symm⟩

theorem conflict_of_id {a b : ConsoleSession} (h : a.id = b.id) : Conflict a b := Or.inl h

end ConsoleSession

/-- What a preview binds : the action with its arguments and targets, in a scope, at a version of
the resources. -/
structure ConsolePreview where
  id : String
  actorId : String
  sessionId : String
  action : String
  scope : ConsoleScope
  arguments : List (String × String)
  targetRefs : List (String × String)
  resourceVersion : String
  previewDigest : String
  confirmationPhrase : String
  dangerTier : ℕ
  policyVersion : String
  gatesPass : Bool
  expiresAt : Instant
  consumedBy : Option String := none
deriving DecidableEq

/-- A row of `console_step_up_grants`. -/
structure StepUpGrant where
  id : String
  principalId : String
  sessionId : String
  previewDigest : String
  action : String
  scope : ConsoleScope
  verifiedAt : Instant
  expiresAt : Instant
  consumedAt : Option Instant := none
  jobId : Option String := none
deriving DecidableEq

/-- The session of `child` was opened by a login, or in place of `parent`. -/
structure Rotation where
  child : String
  parent : Option String
deriving DecidableEq

structure AuthWorld where
  clock : Instant
  principals : String → Option ConsolePrincipal
  sessions : Table ConsoleSession ConsoleSession.Conflict
  previews : List ConsolePreview
  grants : List StepUpGrant
  rotations : List Rotation

/-! ## The service -/

structure AuthError where
  code : String
  message : String
  status : ℕ := 403
deriving DecidableEq

inductive AuthFailure
  | auth (e : AuthError)
  | uniqueViolation
  | checkViolation
  | connection
deriving DecidableEq

def ownerId : String := "console-password-owner"

/-- `AuthConfig`, with the hash of tokens and the verification of passwords. -/
structure AuthConfig where
  scope : ConsoleScope
  passwordRevision : ℕ
  idleSeconds : ℕ := 1800
  absoluteSeconds : ℕ := 43200
  consentSeconds : ℕ := 300
  digest : String → String
  verifyPassword : String → Except AuthError Unit

/-- Seconds as a difference of instants. -/
def seconds (n : ℕ) : ℤ := n * 1000000

/-- What a transaction draws at random : the id, the token and the csrf token of a session, and the
id of a grant. -/
structure FreshIds where
  sessionId : String
  token : String
  csrfToken : String
  grantId : String
deriving DecidableEq

/-- The exact preview a consent is for. -/
structure ConsentBinding where
  scope : ConsoleScope
  previewDigest : String
  action : String
deriving DecidableEq

/-- The part of an authenticated principal later calls read. -/
structure PrincipalRef where
  id : String
  sessionId : String
deriving DecidableEq

namespace AuthConfig

variable (x : AuthConfig) (w : AuthWorld) (now : Instant)

def authenticationRequired : AuthFailure :=
  .auth ⟨"authentication_required", "Session expired or revoked", 401⟩

/-- The session is current : not revoked, of the principal's revision, before its deadlines, and
not idle for too long. -/
def current (p : ConsolePrincipal) (s : ConsoleSession) : Bool :=
  s.revokedAt = none && p.enabled && s.principalRevision = p.revision &&
    now < s.absoluteExpiresAt && now < s.expiresAt && now - seconds x.idleSeconds < s.lastSeenAt

/-- The row `principal` reads. -/
def selectPrincipal (token : String) : Option (ConsolePrincipal × ConsoleSession) :=
  match w.sessions.find ConsoleSession.tokenHash (x.digest token), w.principals ownerId with
  | some s, some p =>
    if s.principalId = ownerId ∧ p.revision = x.passwordRevision ∧ x.current now p s = true then
      some (p, s)
    else none
  | _, _ => none

/-- Rewrite the sessions that satisfy `p`, none of whose ids and tokens change. -/
def setSessions (p : ConsoleSession → Bool) (f : ConsoleSession → ConsoleSession) :
    Except AuthFailure AuthWorld :=
  match w.sessions.updateWhere p f with
  | none => .error .uniqueViolation
  | some sessions => .ok { w with sessions }

/-- What `principal` writes, in a transaction of its own. -/
def touch (token : String) : Except AuthFailure AuthWorld :=
  setSessions w (fun s => s.tokenHash = x.digest token && s.revokedAt = none)
    fun s => { s with lastSeenAt := now }

/-- The session a consent may replace, `FOR UPDATE`. -/
def oldSession (principalId sessionId : String) : Option ConsoleSession :=
  match w.sessions.find ConsoleSession.id sessionId, w.principals principalId with
  | some s, some p =>
    if s.principalId = principalId ∧ x.current now p s = true then some s else none
  | _, _ => none

/-- The insert of `_session`. -/
def insertSession (fresh : FreshIds) (principalId : String) (consented : Bool)
    (authenticatedAt absolute : Instant) (parent : Option String) :
    Except AuthFailure AuthWorld :=
  match w.principals principalId with
  | none => .error (.auth ⟨"authentication_required", "Account is disabled", 401⟩)
  | some owner =>
    if owner.enabled = false then
      .error (.auth ⟨"authentication_required", "Account is disabled", 401⟩)
    else match w.sessions.insert
        { id := fresh.sessionId
          tokenHash := x.digest fresh.token
          principalId := principalId
          csrfToken := fresh.csrfToken
          authenticatedAt := authenticatedAt
          stepUpAt := if consented then some now else none
          lastSeenAt := now
          expiresAt := absolute
          absoluteExpiresAt := absolute
          principalRevision := owner.revision } with
    | none => .error .uniqueViolation
    | some sessions => .ok
      { w with
        sessions
        rotations := ⟨fresh.sessionId, parent⟩ :: w.rotations }

/-- `_session` without an old session. -/
def freshSession (fresh : FreshIds) (principalId : String) : Except AuthFailure AuthWorld :=
  x.insertSession w now fresh principalId false now (now + seconds x.absoluteSeconds) none

/-- `_session` in place of an old session, which keeps its deadline and authentication time. -/
def rotateSession (fresh : FreshIds) (principalId sessionId : String) :
    Except AuthFailure AuthWorld :=
  match x.oldSession w now principalId sessionId with
  | none => .error authenticationRequired
  | some old =>
    match setSessions w (fun s => s.id = sessionId) fun s => { s with revokedAt := some now } with
    | .error e => .error e
    | .ok w => x.insertSession w now fresh principalId true old.authenticatedAt
        old.absoluteExpiresAt (some sessionId)

/-- The transaction of `login`, after the password was verified. -/
def login (fresh : FreshIds) (oldToken : Option String) : Except AuthFailure AuthWorld :=
  match setSessions w (fun s => s.principalId = ownerId && s.revokedAt = none &&
      (s.principalRevision ≠ x.passwordRevision ||
        (w.principals ownerId).any fun p => s.principalRevision ≠ p.revision) &&
      (w.principals ownerId).isSome) fun s => { s with revokedAt := some now } with
  | .error e => .error e
  | .ok w =>
    let w := { w with principals := Function.update w.principals ownerId (some
      { id := ownerId
        roles := ["owner"]
        scopes := [x.scope]
        -- a new row takes the default, an old one is enabled again
        enabled := true
        revision := x.passwordRevision }) }
    match oldToken.filter fun token => token ≠ "" && token.length ≤ 256 with
    | none => x.freshSession w now fresh ownerId
    | some token =>
      match setSessions w (fun s => s.tokenHash = x.digest token)
          fun s => { s with revokedAt := some now } with
      | .error e => .error e
      | .ok w => x.freshSession w now fresh ownerId

/-- The transaction of `consent`. A grant must expire after it was verified, within five
minutes. -/
def consent (fresh : FreshIds) (principal : PrincipalRef) (binding : ConsentBinding) :
    Except AuthFailure AuthWorld :=
  match w.previews.find? fun v => v.previewDigest = binding.previewDigest &&
      v.actorId = principal.id && now < v.expiresAt with
  | none => .error (.auth ⟨"not_found", "Consent target not found or expired", 404⟩)
  | some preview =>
    if preview.action ≠ binding.action ∨ preview.scope ≠ binding.scope then
      .error (.auth ⟨"not_found", "Consent target not found or expired", 404⟩)
    else match x.rotateSession w now fresh ownerId principal.sessionId with
    | .error e => .error e
    | .ok w =>
      if x.consentSeconds = 0 ∨ 300 < x.consentSeconds then .error .checkViolation
      else if w.grants.any fun g => g.id = fresh.grantId then .error .uniqueViolation
      else .ok
        { w with grants := w.grants ++
          [{ id := fresh.grantId
             principalId := ownerId
             sessionId := fresh.sessionId
             previewDigest := binding.previewDigest
             action := binding.action
             scope := binding.scope
             verifiedAt := now
             expiresAt := now + seconds x.consentSeconds }] }

/-- The second transaction of `revoke`. -/
def revokeSession (sessionId : String) : Except AuthFailure AuthWorld :=
  setSessions w (fun s => s.id = sessionId) fun s => { s with revokedAt := some now }

end AuthConfig

/-! ## Programs -/

inductive AuthOp
  | selectPrincipal (token : String)
  | touch (token : String)
  | login (oldToken : Option String)
  | consent (principal : PrincipalRef) (binding : ConsentBinding)
  | sessionOwner (sessionId : String)
  | revokeSession (sessionId : String)
deriving DecidableEq

/-- A login and a consent answer with the token of the new session. -/
abbrev AuthAns : AuthOp → Type
  | .selectPrincipal _ => Option (ConsolePrincipal × ConsoleSession)
  | .touch _ => Unit
  | .login _ => String
  | .consent _ _ => String
  | .sessionOwner _ => Option String
  | .revokeSession _ => Unit

abbrev AuthProg (α : Type) := Prog AuthOp AuthAns AuthFailure α
abbrev AuthEvent := Event AuthOp AuthAns AuthFailure

namespace AuthConfig

open Prog

variable (x : AuthConfig)

def call (o : AuthOp) : AuthProg (AuthAns o) := perform o

def refuse {α : Type} (code message : String) (status : ℕ := 403) : AuthProg α :=
  raise (.auth ⟨code, message, status⟩)

/-- `principal`. -/
def principalProg (token : String) (touched : Bool) :
    AuthProg (ConsolePrincipal × ConsoleSession) := do
  if token = "" ∨ 256 < token.length then
    refuse "authentication_required" "Password authentication required" 401
  else match ← call (.selectPrincipal token) with
    | none => refuse "authentication_required" "Session expired or revoked" 401
    | some row =>
      if ¬ x.scope ∈ row.1.scopes then refuse "scope_denied" "Account scope is not permitted"
      else do
        if touched then call (.touch token)
        pure row

/-- `login`. -/
def loginProg (password : String) (oldToken : Option String) : AuthProg String :=
  match x.verifyPassword password with
  | .error e => raise (.auth e)
  | .ok _ => call (.login oldToken)

/-- `consent`. -/
def consentProg (principal : PrincipalRef) (binding : ConsentBinding) : AuthProg String :=
  if principal.id ≠ ownerId then
    refuse "authentication_required" "Password authentication required" 401
  else if binding.scope ≠ x.scope then refuse "scope_denied" "Account scope is not permitted"
  else call (.consent principal binding)

/-- `revoke`. -/
def revokeProg (principal : PrincipalRef) (sessionId : String) : AuthProg Unit := do
  let owner ← call (.sessionOwner sessionId)
  if owner ≠ some principal.id then refuse "not_found" "Session not found" 404
  else call (.revokeSession sessionId)

end AuthConfig

inductive AuthCall
  | principal (token : String) (touched : Bool)
  | login (password : String) (oldToken : Option String)
  | consent (principal : PrincipalRef) (binding : ConsentBinding)
  | revoke (principal : PrincipalRef) (sessionId : String)
deriving DecidableEq

def AuthCall.body (x : AuthConfig) : AuthCall → AuthProg Unit
  | .principal token touched => x.principalProg token touched >>= fun _ => pure ()
  | .login password oldToken => x.loginProg password oldToken >>= fun _ => pure ()
  | .consent caller binding => x.consentProg caller binding >>= fun _ => pure ()
  | .revoke caller sessionId => AuthConfig.revokeProg caller sessionId

/-- What the schedule chooses for one transaction. -/
structure AuthChoice where
  delivery : Delivery
  now : Instant
  fresh : FreshIds
deriving DecidableEq

namespace AuthChoice

variable (c : AuthChoice)

def read {α : Type} (a : α) : Except AuthFailure α :=
  if c.delivery = .answered then .ok a else .error .connection

/-- A transaction : refused, applied, applied but lost, or failed. -/
def commit {α : Type} (w : AuthWorld) (a : α) :
    Except AuthFailure AuthWorld → Except AuthFailure α × AuthWorld
  | .error e => (.error e, w)
  | .ok w' =>
    match c.delivery with
    | .answered => (.ok a, w')
    | .lost => (.error .connection, w')
    | .failed => (.error .connection, w)

end AuthChoice

/-- One transaction at the instant `c.now`, over the world whose clock stands there. -/
def authExec (x : AuthConfig) (o : AuthOp) (w : AuthWorld) (c : AuthChoice) :
    Except AuthFailure (AuthAns o) × AuthWorld :=
  match o with
  | .selectPrincipal token => (c.read (x.selectPrincipal w c.now token), w)
  | .touch token => c.commit w () (x.touch w c.now token)
  | .login oldToken => c.commit w c.fresh.token (x.login w c.now c.fresh oldToken)
  | .consent principal binding =>
    c.commit w c.fresh.token (x.consent w c.now c.fresh principal binding)
  | .sessionOwner sessionId =>
    (c.read ((w.sessions.find ConsoleSession.id sessionId).map ConsoleSession.principalId), w)
  | .revokeSession sessionId => c.commit w () (AuthConfig.revokeSession w c.now sessionId)

/-- What others do to the rows the service reads. -/
inductive AuthEnv
  | preview (preview : ConsolePreview)
  | principal (id : String) (row : Option ConsolePrincipal)
  | grants (grants : List StepUpGrant)

def AuthWorld.env (w : AuthWorld) : AuthEnv → AuthWorld
  | .preview preview => { w with previews := preview :: w.previews }
  | .principal id row => { w with principals := Function.update w.principals id row }
  | .grants grants => { w with grants := grants }

/-- The clock goes forward to the instant of each transaction. -/
def authSystem (x : AuthConfig) : System AuthOp AuthAns AuthFailure AuthCall AuthWorld AuthChoice
    AuthEnv where
  body := AuthCall.body x
  exec o w c :=
    if w.clock ≤ c.now then some (authExec x o { w with clock := c.now } c) else none
  env w e := some (w.env e)

abbrev AuthState := State AuthOp AuthAns AuthFailure AuthCall AuthWorld
abbrev AuthLabel := Label AuthCall AuthChoice AuthEnv

end FattyTrader
