import FattyTrader.CanaryCap
import FattyTrader.RetiredChildren

/-!
# Audited baselines

`PostgresBitgetBaseline.run` retires the unresolved history of an account. In one transaction
it locks the tables, collects the records that are still unresolved, compares their digest with
the reviewed one, repeats the provider evidence under the locks, and records exactly these
records, releasing the active reservations among them (`BaselineDb.run`). Whatever fails before
the commit leaves the database as it was.

That a record is final is not stored in its row. Every statement that picks a candidate has to
leave the recorded ones out, and all do but two : `claim_entry_post` does not look at the
baselines, and neither does `entry_source_eligible` for an entry made in the console.
`baseline_final_iff` says that the rest of the promise holds in every later run, and that the
whole of it holds exactly where these two have nothing to pick.

The rows of a table stand in the order of their ids. No dispatch is ever `UNPROTECTED`.
-/

set_option linter.unusedSectionVars false

open Tables Runs

namespace FattyTrader

/-! ## What picks a record -/

namespace Db

/-- `entry_source_eligible` where the console is enabled. `manual` is the row of the entry made in
the console, if the dispatch has one : whether it has not expired. -/
def consoleSourceEligible (now : Instant) (paused : Bool) (manual : Option Bool)
    (fresh lapsed : Bool) (db : Db) (dispatchId : Uuid) : Except DbError (Db × Bool) :=
  if paused then .ok (db, false)
  else match manual, db.dispatch dispatchId with
    | some unexpired, some d =>
      .ok (db, (d.state = .queued || d.state = .submitting) && unexpired)
    | _, _ => db.entrySourceEligible now fresh lapsed dispatchId

/-- The record is the intent of the client order id, or the dispatch it names. -/
def NamedBy (db : Db) (oid : String) (r : BaselineRecord) : Prop :=
  r = .intent oid ∨ ∃ intent id, db.get oid = some intent ∧ intent.dispatchId = some id ∧
    r = .dispatch id

/-- The record holds no margin, and no statement picks it : to claim it, to recover it, to
retire it as an orphan, or to cancel it. `manual` are the entries made in the console. -/
structure Final (db : Db) (paused : Bool) (manual : Uuid → Option Bool) (r : BaselineRecord) :
    Prop where
  inactive : ∀ id m, r = .reservation id → db.reservation id = some m → m.state.active = false
  claimed : ∀ now stale first workerId leaseSeconds db' d,
    db.claimDispatch now stale first workerId leaseSeconds = .ok (db', some d) → r ≠ .dispatch d.id
  eligible : ∀ now fresh lapsed id db',
    db.consoleSourceEligible now paused (manual id) fresh lapsed id = .ok (db', true) →
      r ≠ .dispatch id
  recovered : ∀ d oid, (d, oid) ∈ db.recoveryCandidates → r ≠ .dispatch d.id ∧ r ≠ .intent oid
  orphaned : ∀ environment m, m ∈ db.orphanCandidates environment → r ≠ .reservation m.id
  pending : ∀ symbol managementId oid, oid ∈ db.pendingEntryIds symbol managementId →
    ¬ db.NamedBy oid r
  cancelled : ∀ oid managementId db', db.claimCancel oid managementId = .ok (db', true) →
    ¬ db.NamedBy oid r
  cancelPosted : ∀ oid db', db.claimCancelPost oid = .ok (db', true) → ¬ db.NamedBy oid r
  posted : ∀ oid db', db.claimEntryPost oid = .ok (db', true) → ¬ db.NamedBy oid r

/-- The two statements without the exclusion pick the record : a staged limit child that is not
to be cancelled, or the dispatch of an entry made in the console. -/
inductive Reopens (db : Db) (paused : Bool) (manual : Uuid → Option Bool) (r : BaselineRecord) :
    Prop
  | child {oid intent} (hget : db.get oid = some intent) (role : intent.role = .entry)
      (leg : intent.entryLeg = some .limit) (staged : intent.state = .staged)
      (open_ : intent.cancelRequestedBy = none) (names : db.NamedBy oid r)
  | console {id d} (heq : r = .dispatch id) (hget : db.dispatch id = some d)
      (state : d.state = .queued ∨ d.state = .submitting) (admits : paused = false)
      (unexpired : manual id = some true)

end Db

/-! ## Provider evidence -/

inductive ProductType
  | usdtFutures
  | usdcFutures
  | coinFutures
deriving DecidableEq

/-- `PRODUCT_TYPES`. -/
def productTypes : List ProductType := [.usdtFutures, .usdcFutures, .coinFutures]

/-- The ordinary orders and `PLAN_TYPES`. -/
inductive OrderFamily
  | ordinary
  | normalPlan
  | profitLoss
  | trackPlan
deriving DecidableEq

def orderFamilies : List OrderFamily := [.ordinary, .normalPlan, .profitLoss, .trackPlan]

/-- A row of the positions, as far as `_zero_quantity` reads it. -/
inductive PositionEvidence
  | malformed
  | unknown
  | total (quantity : ℚ)
deriving DecidableEq

/-- A page of pending orders : the number of its rows, null for a null list, and its cursor. -/
inductive PendingPage
  | malformed
  | page (rows : Option ℕ) (endId : Option String)
deriving DecidableEq

/-- What the venue answers to the GETs of one inventory, with the clock around them. An answer of
the wrong shape is none. -/
structure ProviderAnswers where
  environment : Environment
  startedMs : ℤ
  serverMs : Option ℤ
  receivedMs : ℤ
  accountId : Option String
  positions : ProductType → Option (List PositionEvidence)
  pending : ProductType → OrderFamily → PendingPage
  finishedMs : ℤ

/-- `BaselineRefused`, or an exception of the database or the venue. -/
inductive BaselineError
  | refused (text : String)
  | raised
deriving DecidableEq

/-- Raise `BaselineRefused` unless the condition holds. -/
def ensure (condition : Bool) (text : String) : Except BaselineError Unit :=
  if condition then .ok () else .error (.refused text)

theorem ensure_ok {condition : Bool} {text : String} {u : Unit}
    (h : ensure condition text = .ok u) : condition = true := by
  unfold ensure at h
  split at h
  next hc => exact hc
  · cases h

/-- Check one after the other, up to the first refusal. -/
def checkEach {α : Type} (check : α → Except BaselineError Unit) :
    List α → Except BaselineError Unit
  | [] => .ok ()
  | a :: as => check a >>= fun _ => checkEach check as

theorem checkEach_ok {α : Type} {check : α → Except BaselineError Unit} {as : List α} {u : Unit}
    (h : checkEach check as = .ok u) : ∀ a ∈ as, check a = .ok () := by
  induction as generalizing u with
  | nil => simp
  | cons a as ih =>
    obtain ⟨v, hv, h⟩ := exists_of_bind_ok h
    intro b hb
    rcases List.mem_cons.mp hb with rfl | hb
    · exact hv
    · exact ih h b hb

/-- `_positive_identity`. -/
def positiveIdentity : Option String → Except BaselineError String
  | none => .error (.refused "account identity is missing or malformed")
  | some s => do
    ensure (!s.toList.isEmpty && s.toList.all Char.isDigit)
      "account identity is missing or malformed"
    ensure (s.toList.any (· ≠ '0')) "account identity is invalid"
    .ok s

/-- `_zero_quantity`. -/
def zeroQuantity : PositionEvidence → Except BaselineError Unit
  | .malformed => .error (.refused "position evidence is malformed")
  | .unknown => .error (.refused "position quantity is unknown")
  | .total quantity => ensure (quantity = 0) "position exposure is positive or unknown"

/-- The checks of one page of pending orders. -/
def emptyPage : PendingPage → Except BaselineError Unit
  | .malformed => .error (.refused "pending inventory is unknown or malformed")
  | .page none none => .ok ()
  | .page none (some _) => .error (.refused "pending inventory is unknown or malformed")
  | .page (some rows) endId => do
    ensure (rows = 0) "pending provider order exists"
    ensure (endId = none || endId = some "") "pending pagination is incomplete"

def maxEvidenceAgeMs : ℤ := 30000

def maxClockSkewMs : ℤ := 1000

/-- The inventory of one product type. -/
def flatProduct (a : ProviderAnswers) (product : ProductType) : Except BaselineError Unit :=
  match a.positions product with
  | none => .error (.refused "positions inventory is unknown")
  | some rows => do
    checkEach zeroQuantity rows
    checkEach (fun family => emptyPage (a.pending product family)) orderFamilies

/-- `collect_flat_evidence`, of the answers to its GETs. -/
def collectFlatEvidence (expectedAccountId : String) (environment : Environment)
    (a : ProviderAnswers) : Except BaselineError ProviderAnswers := do
  let expectedAccountId ← positiveIdentity (some expectedAccountId)
  ensure (a.environment = environment) "provider environment mismatch"
  match a.serverMs with
  | none => .error (.refused "server clock evidence is unknown")
  | some serverMs => do
    ensure (a.startedMs - maxClockSkewMs ≤ serverMs && serverMs ≤ a.receivedMs + maxClockSkewMs)
      "server clock skew exceeds baseline limit"
    ensure (a.receivedMs - a.startedMs ≤ maxClockSkewMs) "server clock round trip is too slow"
    let accountId ← positiveIdentity a.accountId
    ensure (accountId = expectedAccountId) "authenticated account identity mismatch"
    checkEach (flatProduct a) productTypes
    ensure (a.finishedMs - a.startedMs ≤ maxEvidenceAgeMs)
      "provider evidence expired during inventory"
    .ok a

/-- No position is open and no order is pending, of any product and family. -/
structure ProviderAnswers.Flat (a : ProviderAnswers) : Prop where
  positions : ∀ product, ∃ rows, a.positions product = some rows ∧ ∀ row ∈ rows, row = .total 0
  pending : ∀ product family, ∃ rows endId, a.pending product family = .page rows endId ∧
    (rows = none ∨ rows = some 0)

theorem mem_productTypes (product : ProductType) : product ∈ productTypes := by
  cases product <;> simp [productTypes]

theorem mem_orderFamilies (family : OrderFamily) : family ∈ orderFamilies := by
  cases family <;> simp [orderFamilies]

theorem zeroQuantity_ok {row : PositionEvidence} (h : zeroQuantity row = .ok ()) :
    row = .total 0 := by
  cases row with
  | malformed => cases h
  | unknown => cases h
  | total quantity =>
    have := ensure_ok h
    simp only [decide_eq_true_eq] at this
    rw [this]

theorem emptyPage_ok {page : PendingPage} (h : emptyPage page = .ok ()) :
    ∃ rows endId, page = .page rows endId ∧ (rows = none ∨ rows = some 0) := by
  cases page with
  | malformed => cases h
  | page rows endId =>
    refine ⟨rows, endId, rfl, ?_⟩
    cases rows with
    | none => exact Or.inl rfl
    | some rows =>
      obtain ⟨_, hrows, -⟩ := exists_of_bind_ok h
      have := ensure_ok hrows
      simp only [decide_eq_true_eq] at this
      exact Or.inr (by rw [this])

/-- Evidence that is collected is flat. -/
theorem collectFlatEvidence_ok {expectedAccountId : String} {environment : Environment}
    {a evidence : ProviderAnswers}
    (h : collectFlatEvidence expectedAccountId environment a = .ok evidence) :
    evidence = a ∧ a.Flat := by
  obtain ⟨_, -, h⟩ := exists_of_bind_ok h
  obtain ⟨_, -, h⟩ := exists_of_bind_ok h
  split at h
  · cases h
  obtain ⟨_, -, h⟩ := exists_of_bind_ok h
  obtain ⟨_, -, h⟩ := exists_of_bind_ok h
  obtain ⟨_, -, h⟩ := exists_of_bind_ok h
  obtain ⟨_, -, h⟩ := exists_of_bind_ok h
  obtain ⟨_, hflat, h⟩ := exists_of_bind_ok h
  obtain ⟨_, -, h⟩ := exists_of_bind_ok h
  obtain rfl := Except.ok.inj h
  have hproduct : ∀ product, ∃ rows, a.positions product = some rows ∧
      (∀ row ∈ rows, zeroQuantity row = .ok ()) ∧
      ∀ family, emptyPage (a.pending product family) = .ok () := by
    intro product
    have hchecked := checkEach_ok hflat product (mem_productTypes product)
    unfold flatProduct at hchecked
    split at hchecked
    · cases hchecked
    next rows hrows =>
      obtain ⟨_, hpositions, hpending⟩ := exists_of_bind_ok hchecked
      exact ⟨rows, hrows, checkEach_ok hpositions,
        fun family => checkEach_ok hpending family (mem_orderFamilies family)⟩
  refine ⟨rfl, fun product => ?_, fun product family => ?_⟩
  · obtain ⟨rows, hrows, hzero, -⟩ := hproduct product
    exact ⟨rows, hrows, fun row hrow => zeroQuantity_ok (hzero row hrow)⟩
  · obtain ⟨-, -, -, hempty⟩ := hproduct product
    exact emptyPage_ok (hempty family)

/-! ## The transaction -/

/-- A row of `bitget_audited_baselines`. -/
structure AuditedBaseline where
  id : String
  environment : Environment
  accountId : String
  approvalReference : String
  historicalBefore : Instant
  candidateDigest : String
  providerEvidence : ProviderAnswers

/-- The tables the transaction locks. -/
structure BaselineDb where
  ledger : Db
  openPositions : Bool
  baselines : List AuditedBaseline
  dispatchCreatedAt : Uuid → Instant

/-- The parameters of `run`. A cutoff without a time zone is none. -/
structure BaselineRequest where
  expectedAccountId : String
  environment : Environment
  historicalBefore : Option Instant
  approvalReference : String
  apply : Bool
  expectedDigest : Option String

/-- `hashlib.sha256` of the canonical JSON of the rows and the parameters, and `str.strip`. -/
structure BaselineTools where
  digest : List LiveIntentRow → List MarginReservation → List BitgetDispatch → BaselineRequest →
    String
  strip : String → String

/-- The statements that can raise. -/
inductive BaselineStage
  | connect
  | lock
  | bindings
  | activity
  | candidates
  | insertBaseline
  | insertRecords
  | rollback
deriving DecidableEq

/-- The clocks, the answers of the venue before and under the locks, the statements that raise, and
how the commit goes. A request to the venue that raises has no answers. -/
structure BaselineChoices where
  now : Instant
  before : Option ProviderAnswers
  underLocks : Option ProviderAnswers
  databaseNow : Instant
  dryRunMs : ℤ
  collectedMs : ℤ
  writtenMs : ℤ
  fails : BaselineStage → Bool
  commit : Delivery
  baselineId : String

/-- `_fresh`. -/
def freshEvidence (nowMs : ℤ) (evidence : ProviderAnswers) : Except BaselineError Unit :=
  ensure (0 ≤ nowMs - evidence.startedMs && nowMs - evidence.startedMs ≤ maxEvidenceAgeMs)
    "provider evidence is stale"

namespace BaselineChoices

variable (ch : BaselineChoices)

/-- One statement. -/
def stage (s : BaselineStage) : Except BaselineError Unit :=
  if ch.fails s then .error .raised else .ok ()

end BaselineChoices

/-- The inventory the venue answers, or the exception of a request. -/
def collect (req : BaselineRequest) : Option ProviderAnswers → Except BaselineError ProviderAnswers
  | none => .error .raised
  | some a => collectFlatEvidence req.expectedAccountId req.environment a

namespace BaselineDb

variable (w : BaselineDb)

/-- A baseline of another account or environment. -/
def otherBinding (req : BaselineRequest) : Bool :=
  w.baselines.any fun b => b.environment ≠ req.environment || b.accountId ≠ req.expectedAccountId

/-- An open position, a leased dispatch, or an intent of another role that is not over. -/
def localActivity (now : Instant) : Bool :=
  w.openPositions ||
    (w.ledger.dispatches.rows.any fun d => d.claimedBy.isSome && d.leaseUntil.any (now < ·)) ||
    w.ledger.intents.rows.any fun i => i.record.role ≠ .entry && !i.record.state.over

/-- The unresolved entry intents of `_candidates`. -/
def intentCandidates : List LiveIntentRow :=
  w.ledger.intents.rows.filter fun i => i.record.role = .entry &&
    (decide (0 < i.record.filledQty) ||
      !(i.record.state = .rejected || i.record.state = .cancelled ||
        i.record.state = .reconciled)) &&
    !w.ledger.baselined (.intent i.clientOid)

/-- The active reservations, and those of the intents. -/
def reservationCandidates : List MarginReservation :=
  w.ledger.reservations.rows.filter fun m =>
    (m.state.active || (w.intentCandidates.map LiveIntentRow.clientOid).contains m.clientOrderId) &&
      !w.ledger.baselined (.reservation m.id)

/-- A terminal reason of an entry whose protection is missing. -/
def unprotectedReason (reason : String) : Bool :=
  reason = "missing-protection-escalated" ||
    "recovery-missing-protection:".toList.isPrefixOf reason.toList ||
    "recovery-filled-protection-unverified".toList.isPrefixOf reason.toList

/-- The dispatches of the reservations, and the unprotected ones. -/
def dispatchCandidates : List BitgetDispatch :=
  w.ledger.dispatches.rows.filter fun d =>
    ((w.reservationCandidates.map MarginReservation.dispatchId).contains d.id ||
      d.terminalReason.any unprotectedReason) &&
      !w.ledger.baselined (.dispatch d.id)

/-- The records of `_candidates`. -/
def records : List BaselineRecord :=
  w.intentCandidates.map (.intent ·.clientOid) ++ w.reservationCandidates.map (.reservation ·.id) ++
    w.dispatchCandidates.map (.dispatch ·.id)

/-- `_candidates`, with the limits of the approval. -/
def candidates (cutoff : Instant) (environment : Environment) :
    Except BaselineError (List BaselineRecord) := do
  ensure (w.intentCandidates.all fun i => i.createdAt < cutoff)
    "new unresolved entry lies outside approved historical cutoff"
  ensure (w.reservationCandidates.all fun m =>
      m.createdAt < cutoff && m.owner.all fun o => o.environment = environment)
    "reservation outside historical/environment approval"
  ensure (w.dispatchCandidates.all fun d => w.dispatchCreatedAt d.id < cutoff &&
      (w.reservationCandidates.map MarginReservation.dispatchId).contains d.id)
    "unresolved dispatch has no approved historical entry binding"
  .ok w.records

/-- The loop over the records, with their releases. -/
def recordAll (ch : BaselineChoices) (records : List BaselineRecord) : Except BaselineError Db :=
  match w.ledger.applyBaseline ch.databaseNow ch.baselineId records with
  | .ok ledger => .ok ledger
  | .error _ => .error .raised

end BaselineDb

/-- What the transaction comes to : a dry run, or a database to commit. -/
inductive BaselineOutcome
  | dryRun (digest : String)
  | applied (digest : String) (w : BaselineDb)

namespace BaselineTools

variable (x : BaselineTools)

/-- The digest of what would be recorded. -/
def candidateDigest (req : BaselineRequest) (w : BaselineDb) : String :=
  x.digest w.intentCandidates w.reservationCandidates w.dispatchCandidates req

/-- The checks of the parameters, and the evidence before the locks. -/
def prepare (req : BaselineRequest) (ch : BaselineChoices) :
    Except BaselineError (Instant × ProviderAnswers) :=
  match req.historicalBefore with
  | none => .error (.refused "historical cutoff must be timezone-aware and in the past")
  | some cutoff => do
    ensure (cutoff < ch.now) "historical cutoff must be timezone-aware and in the past"
    ensure (x.strip req.approvalReference ≠ "") "approval reference is required"
    ensure (!req.apply || req.expectedDigest.any (·.length = 64))
      "apply requires the reviewed dry-run digest"
    let evidence ← collect req ch.before
    .ok (cutoff, evidence)

/-- The statements between the locks and the commit. -/
def transaction (req : BaselineRequest) (ch : BaselineChoices) (cutoff : Instant)
    (evidence : ProviderAnswers) (w : BaselineDb) : Except BaselineError BaselineOutcome := do
  ch.stage .connect
  ch.stage .lock
  ch.stage .bindings
  ensure (!w.otherBinding req) "database baseline account/environment binding differs"
  ch.stage .activity
  ensure (!w.localActivity ch.databaseNow)
    "active local position, worker lease, or non-entry intent"
  ch.stage .candidates
  let records ← w.candidates cutoff req.environment
  let digest := x.candidateDigest req w
  if req.apply = false then do
    freshEvidence ch.dryRunMs evidence
    ch.stage .rollback
    .ok (.dryRun digest)
  else do
    ensure (req.expectedDigest = some digest) "database changed since reviewed dry-run"
    ensure (!records.isEmpty) "no unresolved historical records to baseline"
    let evidence ← collect req ch.underLocks
    freshEvidence ch.collectedMs evidence
    ch.stage .insertBaseline
    ch.stage .insertRecords
    let ledger ← w.recordAll ch records
    freshEvidence ch.writtenMs evidence
    .ok (.applied digest
      { w with
        ledger
        baselines := w.baselines ++ [⟨ch.baselineId, req.environment, req.expectedAccountId,
          x.strip req.approvalReference, cutoff, digest, evidence⟩] })

/-- `PostgresBitgetBaseline.run` : its result, and the database it leaves. -/
def run (req : BaselineRequest) (ch : BaselineChoices) (w : BaselineDb) :
    Except BaselineError String × BaselineDb :=
  match x.prepare req ch >>= fun p => x.transaction req ch p.1 p.2 w with
  | .error e => (.error e, w)
  | .ok (.dryRun digest) => (.ok digest, w)
  | .ok (.applied digest w') =>
    match ch.commit with
    | .answered => (.ok digest, w')
    | .lost => (.error .raised, w')
    | .failed => (.error .raised, w)

end BaselineTools

/-! ## What a run changes -/

/-- Exactly the unresolved records are recorded, as reviewed, and exactly the active reservations
among them are released, on flat evidence that was collected under the locks. -/
structure BaselineTools.Applied (x : BaselineTools) (req : BaselineRequest) (ch : BaselineChoices)
    (w w' : BaselineDb) : Prop where
  asked : req.apply = true
  reviewed : req.expectedDigest = some (x.candidateDigest req w)
  flat : ∃ a, ch.underLocks = some a ∧ a.Flat ∧
    ∃ cutoff, w'.baselines = w.baselines ++ [⟨ch.baselineId, req.environment,
      req.expectedAccountId, x.strip req.approvalReference, cutoff, x.candidateDigest req w, a⟩]
  within : ∃ cutoff, req.historicalBefore = some cutoff ∧
    w.candidates cutoff req.environment = .ok w.records
  recorded : w'.ledger.baselineRecords = w.ledger.baselineRecords ++ w.records
  released : ∀ id, w'.ledger.reservation id = (w.ledger.reservation id).map fun m =>
    if .reservation m.id ∈ w.records ∧ m.state.active then
      m.releasedFor ch.databaseNow ("audited-baseline:" ++ ch.baselineId ++ ":unresolved-history")
    else m
  others : w'.ledger =
    { w.ledger with
      reservations := w'.ledger.reservations, baselineRecords := w'.ledger.baselineRecords }

theorem BaselineDb.candidates_ok {w : BaselineDb} {cutoff : Instant} {environment : Environment}
    {records : List BaselineRecord} (h : w.candidates cutoff environment = .ok records) :
    records = w.records := by
  obtain ⟨_, -, h⟩ := exists_of_bind_ok h
  obtain ⟨_, -, h⟩ := exists_of_bind_ok h
  obtain ⟨_, -, h⟩ := exists_of_bind_ok h
  exact (Except.ok.inj h).symm

theorem collect_ok {req : BaselineRequest} {answers : Option ProviderAnswers}
    {evidence : ProviderAnswers} (h : collect req answers = .ok evidence) :
    answers = some evidence ∧ evidence.Flat := by
  cases answers with
  | none => cases h
  | some a =>
    obtain ⟨rfl, hflat⟩ := collectFlatEvidence_ok h
    exact ⟨rfl, hflat⟩

theorem BaselineDb.recordAll_ok {w : BaselineDb} {ch : BaselineChoices}
    {records : List BaselineRecord} {ledger : Db} (h : w.recordAll ch records = .ok ledger) :
    ledger.baselineRecords = w.ledger.baselineRecords ++ records ∧
      (∀ id, ledger.reservation id = (w.ledger.reservation id).map fun m =>
        if .reservation m.id ∈ records ∧ m.state.active then
          m.releasedFor ch.databaseNow
            ("audited-baseline:" ++ ch.baselineId ++ ":unresolved-history")
        else m) ∧
      ledger = { w.ledger with
        reservations := ledger.reservations, baselineRecords := ledger.baselineRecords } := by
  unfold recordAll at h
  split at h
  next ledger' hx =>
    obtain rfl := Except.ok.inj h
    unfold Db.applyBaseline at hx
    have heq := Db.rewriteReservations_eq hx
    refine ⟨by rw [heq], fun id => ?_, by rw [heq]⟩
    refine (Db.reservation_of_rewrite hx (fun _ => rfl) id).trans ?_
    change Option.map _ (w.ledger.reservation id) = _
    congr 1
    funext m
    simp only [Bool.and_eq_true, decide_eq_true_eq]
  · cases h

theorem BaselineTools.applied_of_transaction {x : BaselineTools} {req : BaselineRequest}
    {ch : BaselineChoices} {cutoff : Instant} {evidence : ProviderAnswers} {w w' : BaselineDb}
    {digest : String} (hcutoff : req.historicalBefore = some cutoff)
    (h : x.transaction req ch cutoff evidence w = .ok (.applied digest w')) :
    x.Applied req ch w w' := by
  obtain ⟨_, -, h⟩ := exists_of_bind_ok h
  obtain ⟨_, -, h⟩ := exists_of_bind_ok h
  obtain ⟨_, -, h⟩ := exists_of_bind_ok h
  obtain ⟨_, -, h⟩ := exists_of_bind_ok h
  obtain ⟨_, -, h⟩ := exists_of_bind_ok h
  obtain ⟨_, -, h⟩ := exists_of_bind_ok h
  obtain ⟨_, -, h⟩ := exists_of_bind_ok h
  obtain ⟨records, hrecords, h⟩ := exists_of_bind_ok h
  obtain rfl := BaselineDb.candidates_ok hrecords
  split at h
  · obtain ⟨_, -, h⟩ := exists_of_bind_ok h
    obtain ⟨_, -, h⟩ := exists_of_bind_ok h
    cases h
  next happly =>
    obtain ⟨_, hreviewed, h⟩ := exists_of_bind_ok h
    obtain ⟨_, -, h⟩ := exists_of_bind_ok h
    obtain ⟨evidence', hevidence, h⟩ := exists_of_bind_ok h
    obtain ⟨_, -, h⟩ := exists_of_bind_ok h
    obtain ⟨_, -, h⟩ := exists_of_bind_ok h
    obtain ⟨_, -, h⟩ := exists_of_bind_ok h
    obtain ⟨ledger, hledger, h⟩ := exists_of_bind_ok h
    obtain ⟨_, -, h⟩ := exists_of_bind_ok h
    obtain ⟨-, rfl⟩ := BaselineOutcome.applied.inj (Except.ok.inj h)
    obtain ⟨hanswers, hflat⟩ := collect_ok hevidence
    obtain ⟨hrecorded, hreleased, hothers⟩ := BaselineDb.recordAll_ok hledger
    exact
      { asked := by simpa using happly
        reviewed := of_decide_eq_true (ensure_ok hreviewed)
        flat := ⟨evidence', hanswers, hflat, cutoff, rfl⟩
        within := ⟨cutoff, hcutoff, hrecords⟩
        recorded := hrecorded
        released := hreleased
        others := hothers }

/-- A run changes nothing, or applies the reviewed baseline. -/
theorem BaselineTools.run_cases (x : BaselineTools) (req : BaselineRequest) (ch : BaselineChoices)
    (w : BaselineDb) : (x.run req ch w).2 = w ∨ x.Applied req ch w (x.run req ch w).2 := by
  unfold run
  split
  · exact Or.inl rfl
  · exact Or.inl rfl
  next digest w' h =>
    have happlied : x.Applied req ch w w' := by
      obtain ⟨⟨cutoff, evidence⟩, hprepare, htransaction⟩ := exists_of_bind_ok h
      refine applied_of_transaction ?_ htransaction
      unfold prepare at hprepare
      split at hprepare
      · cases hprepare
      next cutoff' hcutoff =>
        obtain ⟨_, -, hprepare⟩ := exists_of_bind_ok hprepare
        obtain ⟨_, -, hprepare⟩ := exists_of_bind_ok hprepare
        obtain ⟨_, -, hprepare⟩ := exists_of_bind_ok hprepare
        obtain ⟨_, -, hprepare⟩ := exists_of_bind_ok hprepare
        obtain ⟨rfl, -⟩ := Prod.mk.inj (Except.ok.inj hprepare)
        exact hcutoff
    cases ch.commit with
    | answered => exact Or.inr happlied
    | lost => exact Or.inr happlied
    | failed => exact Or.inl rfl

/-! ## What later runs keep -/

namespace Db

variable {db db' : Db} {id : Uuid} {r : BaselineRecord} {oid : String}

theorem baselineRecords_of_expireSourceDispatch {now : Instant} {state : DispatchState}
    (h : db.expireSourceDispatch now id state = .ok db') :
    db'.baselineRecords = db.baselineRecords := by
  unfold expireSourceDispatch at h
  split at h
  · rw [Except.ok.inj h]
  split at h
  · rw [Except.ok.inj h]
  split at h
  · rw [Except.ok.inj h]
  split at h
  · cases h
  · rw [rewriteReservations_eq h]
    rfl

theorem baselineRecords_of_reserve {clock : ReserveClock} {ids : ReserveIds} {eligible : Bool}
    {q : ReserveRequest} {a : BalanceAdmission}
    (h : db.reserve clock ids eligible q = .ok (db', a)) :
    db'.baselineRecords = db.baselineRecords := by
  rcases reserve_ok h with ⟨_, -, rfl | ⟨state, hx⟩⟩ | ⟨e, hc, -⟩
  · rfl
  · exact baselineRecords_of_expireSourceDispatch hx
  · unfold commitMargin at hc
    split at hc
    · cases hc
    next db₁ h₁ =>
      have hdb₁ : db₁.baselineRecords = db.baselineRecords := by rw [rewriteReservations_eq h₁]
      dsimp only at hc
      split at hc
      · obtain ⟨rfl, -⟩ := Prod.mk.inj (Except.ok.inj hc)
        exact hdb₁
      · split at hc
        · cases hc
        · obtain ⟨rfl, -⟩ := Prod.mk.inj (Except.ok.inj hc)
          exact hdb₁

theorem baselineRecords_of_resolve {now : Instant} {outcome : Outcome}
    (h : db.resolve now id outcome = .ok db') : db'.baselineRecords = db.baselineRecords := by
  unfold resolve at h
  split at h
  · rw [Except.ok.inj h]
  split at h
  · cases h
  split at h
  · rw [Except.ok.inj h]
  split at h
  · rw [Except.ok.inj h]
  · rw [setReservation_eq h]

/-- No operation withdraws a baseline. -/
theorem baselineRecords_after (op : ReservationOp) :
    db.baselineRecords ⊆ (db.after op).baselineRecords := by
  unfold after
  split
  swap
  · exact List.Subset.refl _
  next db' a h =>
  cases op with
  | reserve clock ids eligible request =>
    obtain ⟨⟨db₁, a₁⟩, hx, hp⟩ := exists_of_map_ok h
    obtain ⟨rfl, -⟩ := Prod.mk.inj hp
    rw [baselineRecords_of_reserve hx]
    exact List.Subset.refl _
  | resolve now rid outcome =>
    obtain ⟨db₁, hx, hp⟩ := exists_of_map_ok h
    obtain ⟨rfl, -⟩ := Prod.mk.inj hp
    rw [baselineRecords_of_resolve hx]
    exact List.Subset.refl _
  | releaseVerifiedClose clock claim =>
    obtain ⟨⟨db₁, a₁⟩, hx, hp⟩ := exists_of_map_ok h
    obtain ⟨rfl, -⟩ := Prod.mk.inj hp
    unfold releaseVerifiedClose at hx
    split at hx
    · obtain ⟨rfl, -⟩ := Prod.mk.inj (Except.ok.inj hx)
      exact List.Subset.refl _
    · split at hx
      · obtain ⟨rfl, -⟩ := Prod.mk.inj (Except.ok.inj hx)
        exact List.Subset.refl _
      · obtain ⟨db₂, hset, hp⟩ := exists_of_map_ok hx
        obtain ⟨rfl, -⟩ := Prod.mk.inj hp
        rw [setReservation_eq hset]
        exact List.Subset.refl _
  | escalateExpired now rid =>
    obtain ⟨db₁, hx, hp⟩ := exists_of_map_ok h
    obtain ⟨rfl, -⟩ := Prod.mk.inj hp
    rw [rewriteReservations_eq (hx : db.rewriteReservations _ _ = .ok db₁)]
    exact List.Subset.refl _
  | expireSource now did =>
    obtain ⟨db₁, hx, hp⟩ := exists_of_map_ok h
    obtain ⟨rfl, -⟩ := Prod.mk.inj hp
    unfold expireSource at hx
    split at hx
    · rw [Except.ok.inj hx]
      exact List.Subset.refl _
    · rw [baselineRecords_of_expireSourceDispatch hx]
      exact List.Subset.refl _
  | applyBaseline now baselineId records =>
    obtain ⟨db₁, hx, hp⟩ := exists_of_map_ok h
    obtain ⟨rfl, -⟩ := Prod.mk.inj hp
    rw [rewriteReservations_eq (hx : Db.rewriteReservations _ _ _ = .ok db₁)]
    exact List.subset_append_left _ _
  | elsewhere w =>
    obtain ⟨rfl, -⟩ := Prod.mk.inj (Except.ok.inj h)
    exact List.Subset.refl _

/-- The record is in a baseline, and the row of a reservation holds no margin. -/
structure FinalRecord (db : Db) (r : BaselineRecord) : Prop where
  baselined : db.baselined r = true
  inactive : ∀ id, r = .reservation id →
    ∃ m, db.reservation id = some m ∧ m.state.active = false

/-- One operation keeps a record final : an inactive row that is baselined stays inactive. -/
theorem FinalRecord.after (h : db.FinalRecord r) (op : ReservationOp) :
    (db.after op).FinalRecord r := by
  have hmem : r ∈ db.baselineRecords := of_decide_eq_true h.baselined
  refine ⟨decide_eq_true (baselineRecords_after op hmem), ?_⟩
  rintro id rfl
  obtain ⟨m, hm, hinactive⟩ := h.inactive id rfl
  obtain ⟨m', hm', hchange⟩ := rowChange_of_after op hm
  refine ⟨m', hm', ?_⟩
  have hid : m.id = id := (reservation_eq_some.mp hm).2
  cases hchange with
  | kept => exact hinactive
  | expired hstate => simp [hstate, ReservationState.active] at hinactive
  | escalated hstate => simp [hstate, ReservationState.active] at hinactive
  | staleSource now hstate => simp [hstate, ReservationState.active] at hinactive
  | resolved _ hbase =>
    rw [hid, h.baselined] at hbase
    cases hbase
  | closed hstate _ => simp [hstate, ReservationState.active] at hinactive
  | baselined _ => rfl

theorem FinalRecord.exec (h : db.FinalRecord r) (ops : List ReservationOp) :
    (Runs.exec Db.after db ops).FinalRecord r := by
  induction ops generalizing db with
  | nil => exact h
  | cons op ops ih => exact ih (h.after op)

/-! ## What picks a record -/

theorem baselineRecords_of_retireStale {now : Instant} {ids : List Uuid}
    (h : db.retireStale now ids = .ok db') : db'.baselineRecords = db.baselineRecords := by
  induction ids generalizing db with
  | nil => rw [Except.ok.inj h]
  | cons id ids ih =>
    unfold retireStale at h
    split at h
    · exact ih h
    split at h
    · split at h
      · cases h
      next db₁ h₁ => exact (ih h).trans (baselineRecords_of_expireSourceDispatch h₁)
    · exact ih h

/-- A dispatch that is leased is in no baseline. -/
theorem not_baselined_of_claim {now : Instant} {stale : List Uuid} {first : Option Uuid}
    {workerId : String} {leaseSeconds : ℕ} {d : BitgetDispatch}
    (h : db.claimDispatch now stale first workerId leaseSeconds = .ok (db', some d)) :
    db.baselined (.dispatch d.id) = false := by
  unfold claimDispatch at h
  split at h
  · cases h
  next db₁ h₁ =>
    split at h
    · cases h
    next id =>
      unfold leaseDispatch at h
      split at h
      · cases h
      next d₀ hd₀ =>
        split at h
        next hfree =>
          dsimp only at h
          split at h
          · cases h
          · obtain ⟨-, hd⟩ := Prod.mk.inj (Except.ok.inj h)
            obtain rfl := Option.some.inj hd
            have hid : d₀.id = id := (dispatch_eq_some.mp hd₀).2
            have := hfree.2.1
            rw [baselined, baselineRecords_of_retireStale h₁] at this
            rw [baselined, BitgetDispatch.leased, hid]
            exact this
        · cases h

theorem not_baselined_of_eligible {now : Instant} {fresh lapsed : Bool}
    (h : db.entrySourceEligible now fresh lapsed id = .ok (db', true)) :
    db.baselined (.dispatch id) = false := by
  unfold entrySourceEligible at h
  split at h
  · cases h
  · split at h
    next hfree => exact hfree.2
    · cases h

theorem not_baselined_of_recovered {d : BitgetDispatch} (h : (d, oid) ∈ db.recoveryCandidates) :
    db.baselined (.dispatch d.id) = false ∧ db.baselined (.intent oid) = false := by
  simp only [recoveryCandidates, List.mem_flatMap, List.mem_filterMap] at h
  obtain ⟨row, -, m, -, d', -, h⟩ := h
  split at h
  next hjoin =>
    obtain ⟨rfl, rfl⟩ := Prod.mk.inj (Option.some.inj h)
    have hfree := hjoin.2.2.2.1
    simp only [notBaselined, Bool.and_eq_true, Bool.not_eq_true'] at hfree
    exact ⟨hfree.2, hfree.1.1⟩
  · cases h

theorem not_baselined_of_orphaned {environment : Environment} {m : MarginReservation}
    (h : m ∈ db.orphanCandidates environment) : db.baselined (.reservation m.id) = false := by
  have hfree := (List.mem_filter.mp h).2
  simp only [Bool.and_eq_true, Bool.not_eq_true'] at hfree
  exact hfree.1.2

/-- The join of the cancellations leaves out what a baseline names. -/
theorem not_namedBy_of_owned {intent : LiveIntentRecord} (hget : db.get oid = some intent)
    (howned : db.ownedEntry intent = true) (hr : db.baselined r = true) : ¬ db.NamedBy oid r := by
  simp only [ownedEntry, notBaselined, Bool.and_eq_true, List.any_eq_true, decide_eq_true_eq,
    Bool.not_eq_true'] at howned
  obtain ⟨-, m, -, -, d, -, ⟨hd, -⟩, ⟨hintent, -⟩, hdispatch⟩ := howned
  rintro (rfl | ⟨intent', id, hget', hid, rfl⟩)
  · rw [clientOid_of_get hget, hr] at hintent
    cases hintent
  · obtain rfl := Option.some.inj (hget.symm.trans hget')
    obtain rfl := Option.some.inj (hd.trans hid)
    rw [hr] at hdispatch
    cases hdispatch

theorem not_namedBy_of_pending {symbol : Option String} {managementId : Option Uuid}
    (h : oid ∈ db.pendingEntryIds symbol managementId) (hr : db.baselined r = true) :
    ¬ db.NamedBy oid r := by
  obtain ⟨row, hrow, rfl⟩ := List.mem_map.mp h
  obtain ⟨hmem, hcond⟩ := List.mem_filter.mp hrow
  simp only [Bool.and_eq_true] at hcond
  have hget : db.get row.clientOid = some row.record :=
    Option.map_eq_some_iff.mpr ⟨row, intentRow_eq_some.mpr ⟨hmem, rfl⟩, rfl⟩
  exact not_namedBy_of_owned hget hcond.1.1 hr

theorem not_namedBy_of_cancelPost (h : db.claimCancelPost oid = .ok (db', true))
    (hr : db.baselined r = true) : ¬ db.NamedBy oid r := by
  unfold claimCancelPost at h
  split at h
  · cases h
  next intent hget =>
    split at h
    next howned => exact not_namedBy_of_owned hget howned.1 hr
    · cases h

/-- Every statement leaves a recorded baseline out, but for the two that may reopen it. -/
theorem final_iff (h : db.FinalRecord r) (paused : Bool) (manual : Uuid → Option Bool) :
    db.Final paused manual r ↔ ¬ db.Reopens paused manual r := by
  have hr := h.baselined
  have hne : ∀ {q}, db.baselined q = false → r ≠ q := by
    rintro q hq rfl
    rw [hr] at hq
    cases hq
  constructor
  · rintro hfinal (⟨hget, hrole, hleg, hstaged, hopen, hnames⟩ |
      ⟨rfl, hget, hstate, rfl, hmanual⟩)
    · next oid intent =>
      have hchecked := checked_of_get hget
      obtain ⟨db', hset⟩ := setIntent_isOk (f := LiveIntentRecord.postClaimed) hget
        ⟨hchecked.1, hchecked.2, hchecked.3, hchecked.4⟩ rfl rfl
      refine hfinal.posted oid db' ?_ hnames
      simp [claimEntryPost, hget, hrole, hleg, hstaged, hopen, hset, Except.map]
    · next id d =>
      refine hfinal.eligible 0 true false id db ?_ rfl
      simp [consoleSourceEligible, hget, hmanual, hstate]
  · intro hclosed
    refine ⟨?_, ?_, ?_, ?_, ?_, ?_, ?_, ?_, ?_⟩
    · rintro id m rfl hm
      obtain ⟨m', hm', hinactive⟩ := h.inactive id rfl
      obtain rfl := Option.some.inj (hm.symm.trans hm')
      exact hinactive
    · exact fun _ _ _ _ _ _ _ hclaim => hne (not_baselined_of_claim hclaim)
    · intro now fresh lapsed id db' helig
      unfold consoleSourceEligible at helig
      split at helig
      · cases helig
      next hpaused =>
        split at helig
        next unexpired d hmanual hget =>
          obtain ⟨-, hok⟩ := Prod.mk.inj (Except.ok.inj helig)
          simp only [Bool.and_eq_true, Bool.or_eq_true, decide_eq_true_eq] at hok
          rintro rfl
          exact hclosed (.console rfl hget hok.1 (by simpa using hpaused) (by rw [hmanual, hok.2]))
        · exact hne (not_baselined_of_eligible helig)
    · intro d oid hcand
      obtain ⟨hdispatch, hintent⟩ := not_baselined_of_recovered hcand
      exact ⟨hne hdispatch, hne hintent⟩
    · exact fun _ _ hm => hne (not_baselined_of_orphaned hm)
    · exact fun _ _ _ hpending => not_namedBy_of_pending hpending hr
    · intro oid managementId db' hcancel
      rcases claimCancel_ok hcancel with ⟨hwon, -⟩ | ⟨intent, hrewrites, howned, -⟩
      · cases hwon
      · exact not_namedBy_of_owned hrewrites.2.1 howned hr
    · exact fun _ _ hcancel => not_namedBy_of_cancelPost hcancel hr
    · intro oid db' hposted hnames
      rcases claimEntryPost_ok hposted with
        ⟨hwon, -⟩ | ⟨intent, hrewrites, hrole, hleg, hstaged, hopen⟩
      · cases hwon
      · exact hclosed (.child hrewrites.2.1 hrole hleg hstaged hopen hnames)

end Db

/-! ## The whole promise -/

/-- What a run records is recorded for good. -/
theorem BaselineTools.Applied.recorded_of_mem {x : BaselineTools} {req : BaselineRequest}
    {ch : BaselineChoices} {w w' : BaselineDb} (h : x.Applied req ch w w') {r : BaselineRecord}
    (hr : r ∈ w.records) : w'.ledger.FinalRecord r := by
  refine ⟨decide_eq_true ?_, ?_⟩
  · rw [h.recorded]
    exact List.mem_append_right _ hr
  rintro id rfl
  have hrow : ∃ m, w.ledger.reservation id = some m := by
    simp only [BaselineDb.records, List.mem_append, List.mem_map, reduceCtorEq, and_false,
      exists_false, or_false, false_or, BaselineRecord.reservation.injEq] at hr
    obtain ⟨m, hm, rfl⟩ := hr
    exact ⟨m, Db.reservation_eq_some.mpr ⟨(List.mem_filter.mp hm).1, rfl⟩⟩
  obtain ⟨m, hm⟩ := hrow
  have hid : m.id = id := (Db.reservation_eq_some.mp hm).2
  have hafter := h.released id
  rw [hm, Option.map_some] at hafter
  refine ⟨_, hafter, ?_⟩
  by_cases hactive : m.state.active = true
  · rw [if_pos ⟨by rw [hid]; exact hr, hactive⟩]
    rfl
  · rw [if_neg fun h => hactive h.2]
    exact Bool.eq_false_iff.mpr hactive

/-- The run changes nothing, or it applies the reviewed baseline and whatever it records stays
final in the run `ops` after it. -/
def BaselineTools.Keeps (x : BaselineTools) (req : BaselineRequest) (ch : BaselineChoices)
    (w : BaselineDb) (ops : List ReservationOp) (paused : Bool) (manual : Uuid → Option Bool) :
    Prop :=
  (x.run req ch w).2 = w ∨ x.Applied req ch w (x.run req ch w).2 ∧ ∀ r ∈ w.records,
    (Runs.exec Db.after (x.run req ch w).2.ledger ops).Final paused manual r

/-- The promise of a run is kept exactly where, whenever it has applied a baseline, neither of the
two statements without the exclusion finds a recorded row. -/
theorem baseline_final_iff (x : BaselineTools) (req : BaselineRequest) (ch : BaselineChoices)
    (w : BaselineDb) (ops : List ReservationOp) (paused : Bool) (manual : Uuid → Option Bool) :
    x.Keeps req ch w ops paused manual ↔
      ((x.run req ch w).2 ≠ w → ∀ r ∈ w.records,
        ¬ (Runs.exec Db.after (x.run req ch w).2.ledger ops).Reopens paused manual r) := by
  have hfinal : ∀ r ∈ w.records, x.Applied req ch w (x.run req ch w).2 →
      ((Runs.exec Db.after (x.run req ch w).2.ledger ops).Final paused manual r ↔
        ¬ (Runs.exec Db.after (x.run req ch w).2.ledger ops).Reopens paused manual r) :=
    fun r hr happlied => Db.final_iff ((happlied.recorded_of_mem hr).exec ops) paused manual
  constructor
  · rintro (hsame | ⟨happlied, hall⟩) hchanged r hr
    · exact absurd hsame hchanged
    · exact (hfinal r hr happlied).mp (hall r hr)
  · intro hclosed
    rcases x.run_cases req ch w with hsame | happlied
    · exact Or.inl hsame
    · by_cases hchanged : (x.run req ch w).2 = w
      · exact Or.inl hchanged
      · exact Or.inr ⟨happlied, fun r hr => (hfinal r hr happlied).mpr (hclosed hchanged r hr)⟩

/-! ## A staged child -/

/-- The split entry was claimed, and its worker died before the POST of the root. -/
def abandonedSplit : BaselineDb where
  ledger :=
    { admittedDb with
      intents :=
        ⟨[⟨(BitgetDispatchExecution.plain.splitRoot marketDispatch splitSubmission
              ⟨1, 3, some 99⟩).inserted, 1, by decide +kernel⟩,
            ⟨(BitgetDispatchExecution.plain.splitLimit marketDispatch splitSubmission
              ⟨1, 3, some 99⟩).inserted, 1, by decide +kernel⟩], by decide +kernel⟩ }
  openPositions := false
  baselines := []
  dispatchCreatedAt _ := 0

/-- The account is flat. -/
def flatAccount : ProviderAnswers where
  environment := .live
  startedMs := 0
  serverMs := some 0
  receivedMs := 0
  accountId := some "7"
  positions _ := some []
  pending _ _ := .page none none
  finishedMs := 0

/-- A digest that does not look at what it covers. -/
def constantDigest : BaselineTools where
  digest _ _ _ _ := "0123456789012345678901234567890123456789012345678901234567890123"
  strip s := s

def reviewedBaseline : BaselineRequest where
  expectedAccountId := "7"
  environment := .live
  historicalBefore := some 50
  approvalReference := "reviewed"
  apply := true
  expectedDigest := some "0123456789012345678901234567890123456789012345678901234567890123"

def noFailure : BaselineChoices where
  now := 100
  before := some flatAccount
  underLocks := some flatAccount
  databaseNow := 100
  dryRunMs := 0
  collectedMs := 0
  writtenMs := 0
  fails _ := false
  commit := .answered
  baselineId := "b"

/-- The database after the baseline. -/
def baselinedSplit : BaselineDb := (constantDigest.run reviewedBaseline noFailure abandonedSplit).2

/-- The staged child is recorded, and its POST can be claimed. -/
theorem stagedChild_reopens : ¬ ∀ (x : BaselineTools) (req : BaselineRequest)
    (ch : BaselineChoices) (w : BaselineDb) (ops : List ReservationOp) (paused : Bool)
    (manual : Uuid → Option Bool), x.Keeps req ch w ops paused manual := by
  intro hkeeps
  have hrun : (baselinedSplit.ledger.baselineRecords ≠ [] ∧
        .intent (limitOid marketOid) ∈ abandonedSplit.records) ∧
      (baselinedSplit.ledger.claimEntryPost (limitOid marketOid)).toOption.any (·.2) = true := by
    decide +kernel
  obtain ⟨⟨hrecords, hmem⟩, hclaimed⟩ := hrun
  rcases hkeeps constantDigest reviewedBaseline noFailure abandonedSplit [] false fun _ => none with
    hsame | ⟨-, hfinal⟩
  · replace hsame : baselinedSplit = abandonedSplit := hsame
    rw [hsame] at hrecords
    exact hrecords rfl
  · obtain ⟨⟨db', won⟩, hp, hwon⟩ := (Option.any_eq_true _ _).mp hclaimed
    cases hx : baselinedSplit.ledger.claimEntryPost (limitOid marketOid) with
    | error e =>
      rw [hx] at hp
      cases hp
    | ok q =>
      rw [hx] at hp
      obtain rfl := Option.some.inj hp
      obtain rfl : won = true := hwon
      exact (hfinal _ hmem).posted _ db' hx (Or.inl rfl)

end FattyTrader
