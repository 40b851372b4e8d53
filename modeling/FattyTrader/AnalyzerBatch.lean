import FattyTrader.SourceManagement
import FattyTrader.SourceRevisions
import FattyTrader.Triples
import Mathlib.Data.List.Sort

/-!
# Batches of the analyzer

`process_received_batch` processes the received messages of a batch in one transaction, each under a
savepoint. A message whose processing fails is rolled back and marked `FAILED` ; its management
instruction is enrolled once more and a card is written, both under `suppress`.

The transaction is a `BatchWorld` : what is committed, what the transaction sees, and the savepoint. An
error of a statement aborts it, and it refuses every statement until it is rolled back to the savepoint.

A message has one uuid and one revision, so a `RevisionKey` stands for the uuid, and a canonical signal
is named by its message and revision, which are unique.
-/

open Tables Programs Prog

namespace FattyTrader

/-! ## Analyses -/

structure ManagementInstruction where
  symbol : String
  action : ManagementAction
deriving DecidableEq

structure AnalyzedSignal where
  pairToken : String
  direction : Direction
  entryPrice : ℚ
  stopLoss : ℚ
  takeProfits : List ℚ
deriving DecidableEq

inductive AnalysisStatus
  | codexSucceeded
  | fallbackAccepted
  | manualReview
deriving DecidableEq

structure AnalysisResult where
  status : AnalysisStatus
  signal : Option AnalyzedSignal
  failureClass : Option String := none
deriving DecidableEq

structure ImageJson where
  message : String
  setup : List (String × String) := []
deriving DecidableEq

inductive ImageStatus
  | succeeded
  | failed
deriving DecidableEq

/-- The result of an analysis, and the image it was made from. -/
structure Analysis where
  result : AnalysisResult
  image : Option ImageJson := none
  imageStatus : Option ImageStatus := none

/-- An exception. A transaction that was aborted raises `InFailedSqlTransaction`. -/
inductive BatchError
  | sql (name : String)
  | inFailedSqlTransaction
  | osError (name : String)
  | raised (name : String)
deriving DecidableEq

/-- `type(exc).__name__`. -/
def BatchError.typeName : BatchError → String
  | .sql name => name
  | .inFailedSqlTransaction => "InFailedSqlTransaction"
  | .osError name => name
  | .raised name => name

/-! ## Tables -/

/-- A message and a revision. -/
abbrev SignalKey := RevisionKey × String

structure CanonicalSignalRow where
  message : RevisionKey
  revision : String
  signal : AnalyzedSignal
deriving DecidableEq

def CanonicalSignalRow.key (r : CanonicalSignalRow) : SignalKey := (r.message, r.revision)

/-- A dispatch of a canonical signal. -/
structure SignalDispatch where
  source : SignalKey
  revision : String
  exchange : String
deriving DecidableEq

structure EnrolledInstruction where
  message : RevisionKey
  revision : String
  instruction : ManagementInstruction
  deadline : Instant
deriving DecidableEq

def EnrolledInstruction.key (r : EnrolledInstruction) : SignalKey × ManagementInstruction :=
  ((r.message, r.revision), r.instruction)

/-- The key of a notification : `analysis:…`, `analysis-failed:…` and those of other components. -/
inductive NoticeKey
  | analysis (message : RevisionKey)
  | analysisFailed (message : RevisionKey)
  | other (text : String)
deriving DecidableEq

def NoticeKey.message : NoticeKey → Option RevisionKey
  | .analysis message => some message
  | .analysisFailed message => some message
  | .other _ => none

inductive NoticePayload
  | signalAnalysis (image : Option ImageJson) (imageStatus : Option ImageStatus) (messageId : ℤ)
      (text : String) (receivedAt : Instant) (result : AnalysisResult) (canonicalSignal : Bool)
      (management : Option ManagementInstruction) (dispatches : ℕ) (exchanges : List String)
  | systemEvent (message : String)
  | other (text : String)
deriving DecidableEq

structure Notice where
  key : NoticeKey
  payload : NoticePayload
deriving DecidableEq

structure AnalyzerDb where
  messages : TelegramMessages := .empty
  signals : Table CanonicalSignalRow (SameKey CanonicalSignalRow.key) := .empty
  dispatches : Table SignalDispatch (SameKey id) := .empty
  managements : Table EnrolledInstruction (SameKey EnrolledInstruction.key) := .empty
  outbox : Table Notice (SameKey Notice.key) := .empty

/-! ## Statements -/

/-- What the database does not decide : the error of a statement, the clock, the rows other
transactions have locked, and the analysis. -/
structure BatchChoice where
  fails : Option String := none
  now : Instant := 0
  locked : RevisionKey → Bool := fun _ => false
  text : Except BatchError AnalysisResult := .error (.raised "RuntimeError")
  image : Except BatchError ImageJson := .error (.osError "FileNotFoundError")

namespace AnalyzerDb

variable (db : AnalyzerDb)

/-- `ORDER BY received_at, message_id`. -/
def Earlier (a b : TelegramRow) : Prop :=
  a.revision.receivedAt < b.revision.receivedAt ∨
    a.revision.receivedAt = b.revision.receivedAt ∧ a.revision.messageId ≤ b.revision.messageId

instance : DecidableRel Earlier := fun _ _ => inferInstanceAs (Decidable (_ ∨ _))

/-- `_SELECT_RECEIVED`. -/
def received (c : BatchChoice) (channelIds : List ℤ) (limit : ℤ) : List TelegramRow :=
  ((db.messages.rows.filter fun r => r.intakeState = .received &&
    channelIds.contains r.revision.channelId && sourceEligible db.messages c.now r &&
    !c.locked r.key).insertionSort Earlier).take limit.toNat

/-- `SELECT 1 FROM telegram_messages tm WHERE tm.id = %s AND …`. -/
def eligible (now : Instant) (key : RevisionKey) : Bool :=
  (db.messages.find TelegramRow.key key).any (sourceEligible db.messages now)

/-- A row with another state, and with the reason where it has none. -/
def settledRow (key : RevisionKey) (state : IntakeState) (reason : Option RejectionReason)
    (r : TelegramRow) : TelegramRow :=
  if r.key = key then
    { r with
      revision := { r.revision with
        entryRejectionReason := r.revision.entryRejectionReason.or reason }
      intakeState := state }
  else r

theorem key_settledRow (key : RevisionKey) (state : IntakeState) (reason : Option RejectionReason)
    (r : TelegramRow) : (settledRow key state reason r).key = r.key := by
  unfold settledRow
  split <;> rfl

def settle (key : RevisionKey) (state : IntakeState) (reason : Option RejectionReason) :
    AnalyzerDb :=
  { db with
    messages := db.messages.rewrite (settledRow key state reason) fun a b h => by
      simpa only [SameKey, key_settledRow] using h }

/-- `_UPDATE_STATE`. -/
def updateState (key : RevisionKey) (state : IntakeState) : AnalyzerDb := db.settle key state none

def expire (key : RevisionKey) : AnalyzerDb := db.settle key .expired (some .staleSourceMessage)

def markFailed (key : RevisionKey) (failure : String) : AnalyzerDb :=
  db.settle key .failed (some (.other failure))

/-- `_MANAGEMENT_INSERT`, with a deadline in 30 minutes. -/
def enroll (now : Instant) (key : RevisionKey) (instruction : ManagementInstruction) : AnalyzerDb :=
  { db with
    managements := db.managements.insertNew
      { message := key, revision := key.2, instruction, deadline := now + 1800000000 } }

/-- `_SIGNAL_INSERT`. -/
def insertSignal (key : RevisionKey) (signal : AnalyzedSignal) : AnalyzerDb :=
  { db with signals := db.signals.insertNew { message := key, revision := key.2, signal } }

/-- `_SIGNAL_ID_SELECT`. -/
def hasSignal (key : RevisionKey) : Bool :=
  (db.signals.find CanonicalSignalRow.key (key, key.2)).isSome

/-- `_DISPATCH_INSERT`. The answer says whether a row was written. -/
def insertDispatch (key : RevisionKey) (exchange : String) : Bool × AnalyzerDb :=
  let row : SignalDispatch := { source := (key, key.2), revision := key.2, exchange }
  ((db.dispatches.find id row).isNone, { db with dispatches := db.dispatches.insertNew row })

/-- `_ANALYSIS_NOTIFICATION_INSERT`. -/
def notify (notice : Notice) : AnalyzerDb := { db with outbox := db.outbox.insertNew notice }

end AnalyzerDb

/-! ## The transaction -/

structure BatchWorld where
  durable : AnalyzerDb
  work : AnalyzerDb
  saved : Option AnalyzerDb := none
  aborted : Bool := false

/-- In the `try`, or outside of it : in the handler, or after both. -/
inductive Place
  | body
  | outer
deriving DecidableEq

inductive BatchOp
  | selectReceived (channelIds : List ℤ) (limit : ℤ)
  | savepoint
  | eligible (key : RevisionKey)
  | analyzeText (key : RevisionKey) (text : String)
  | analyzeImage (key : RevisionKey) (text path : String)
  | enroll (place : Place) (key : RevisionKey) (instruction : ManagementInstruction)
  | updateState (key : RevisionKey) (state : IntakeState)
  | expire (key : RevisionKey)
  | insertSignal (key : RevisionKey) (signal : AnalyzedSignal)
  | hasSignal (key : RevisionKey)
  | insertDispatch (key : RevisionKey) (exchange : String)
  | notify (place : Place) (key : RevisionKey) (notice : Notice)
  | rollbackToSavepoint
  | markFailed (key : RevisionKey) (failure : String)
  | release (place : Place)
  | commit

abbrev BatchAns : BatchOp → Type
  | .selectReceived _ _ => List TelegramRow
  | .eligible _ => Bool
  | .analyzeText _ _ => AnalysisResult
  | .analyzeImage _ _ _ => ImageJson
  | .hasSignal _ => Bool
  | .insertDispatch _ _ => Bool
  | _ => Unit

abbrev BatchProg := Prog BatchOp BatchAns BatchError

abbrev BatchEvent := Event BatchOp BatchAns BatchError

namespace BatchWorld

variable (w : BatchWorld)

/-- An aborted transaction refuses the statement, and one that fails aborts it. -/
def guarded {α : Type} (c : BatchChoice) (done : Except BatchError α × BatchWorld) :
    Except BatchError α × BatchWorld :=
  if w.aborted then (.error .inFailedSqlTransaction, w)
  else
    match c.fails with
    | some name => (.error (.sql name), { w with aborted := true })
    | none => done

def query {α : Type} (c : BatchChoice) (f : AnalyzerDb → α) : Except BatchError α × BatchWorld :=
  w.guarded c (.ok (f w.work), w)

def change (c : BatchChoice) (f : AnalyzerDb → AnalyzerDb) : Except BatchError Unit × BatchWorld :=
  w.guarded c (.ok (), { w with work := f w.work })

/-- An aborted transaction may be rolled back to its savepoint. -/
def rollbackToSavepoint (c : BatchChoice) : Except BatchError Unit × BatchWorld :=
  match w.saved, c.fails with
  | some db, none => (.ok (), { w with work := db, aborted := false })
  | some _, some name => (.error (.sql name), { w with aborted := true })
  | none, _ => (.error (.sql "InvalidSavepointSpecification"), { w with aborted := true })

def release (c : BatchChoice) : Except BatchError Unit × BatchWorld :=
  w.guarded c <|
    match w.saved with
    | some _ => (.ok (), { w with saved := none })
    | none => (.error (.sql "InvalidSavepointSpecification"), { w with aborted := true })

/-- The server rolls an aborted transaction back, without an error. -/
def commit (c : BatchChoice) : Except BatchError Unit × BatchWorld :=
  match c.fails with
  | some name => (.error (.sql name), { w with aborted := true })
  | none => (.ok (), if w.aborted then w else { w with durable := w.work })

end BatchWorld

def batchExec (w : BatchWorld) (c : BatchChoice) :
    (o : BatchOp) → Except BatchError (BatchAns o) × BatchWorld
  | .selectReceived channelIds limit => w.query c (·.received c channelIds limit)
  | .savepoint => w.guarded c (.ok (), { w with saved := some w.work })
  | .eligible key => w.query c (·.eligible c.now key)
  | .analyzeText _ _ => (c.text, w)
  | .analyzeImage _ _ _ => (c.image, w)
  | .enroll _ key instruction => w.change c (·.enroll c.now key instruction)
  | .updateState key state => w.change c (·.updateState key state)
  | .expire key => w.change c (·.expire key)
  | .insertSignal key signal => w.change c (·.insertSignal key signal)
  | .hasSignal key => w.query c (·.hasSignal key)
  | .insertDispatch key exchange =>
    let (inserted, db) := w.work.insertDispatch key exchange
    w.guarded c (.ok inserted, { w with work := db })
  | .notify _ _ notice => w.change c (·.notify notice)
  | .rollbackToSavepoint => w.rollbackToSavepoint c
  | .markFailed key failure => w.change c (·.markFailed key failure)
  | .release _ => w.release c
  | .commit => w.commit c

def batchEffect : Effect BatchOp BatchAns BatchError BatchWorld :=
  fun o w x v => ∃ c, batchExec w c o = (x, v)

/-! ## The worker -/

/-- The arguments of `process_received_batch`, and the functions on texts and images it calls. -/
structure AnalyzerWorker where
  limit : ℤ
  exchanges : List String
  imageAnalysisEnabled : Bool
  channelIds : List ℤ
  entryStandsDown : String → Except BatchError Bool
  parseSourceManagement : String → Except BatchError (Option ManagementInstruction)
  parseExplicitSignal : String → ℤ → Except BatchError (Option AnalyzedSignal)
  signalFromImage : ImageJson → ℤ → String → Except BatchError (Option AnalyzedSignal)
  managementFromImage : ImageJson → Except BatchError (Option ManagementInstruction)

/-- The value of a function, or its exception. -/
def evaluate {α : Type} : Except BatchError α → BatchProg α
  | .ok a => pure a
  | .error e => raise e

def ImageJson.failure (image : ImageJson) : Option String :=
  if image.setup = [] ∧ (image.message = "Image analysis unavailable" ∨
      image.message = "Image analysis returned invalid JSON") then
    some image.message
  else none

namespace AnalyzerWorker

variable (x : AnalyzerWorker)

/-- The instruction in a text that does not stand down. -/
def instruction (text : String) : BatchProg (Option ManagementInstruction) := do
  let veto : Bool ← evaluate (x.entryStandsDown text)
  if veto then pure none else evaluate (x.parseSourceManagement text)

/-- The source is no longer eligible. -/
def processLapsed (m : TelegramRow) : BatchProg Unit := do
  match ← x.instruction m.revision.rawText with
  | some management => do
    perform (BatchOp.enroll .body m.key management)
    perform (BatchOp.updateState m.key .analyzed)
    perform (BatchOp.release .body)
  | none => do
    perform (BatchOp.expire m.key)
    perform (BatchOp.release .body)

/-- What an image says, or, where its analysis failed, what the text says itself. -/
def readImage (m : TelegramRow) (image : ImageJson) : BatchProg Analysis :=
  match image.failure with
  | some failure => do
    let signal : Option AnalyzedSignal ←
      evaluate (x.parseExplicitSignal m.revision.rawText m.revision.messageId)
    let status := if signal.isSome then AnalysisStatus.fallbackAccepted else .manualReview
    pure ⟨⟨status, signal, some failure⟩, some image, some .failed⟩
  | none => do
    let signal : Option AnalyzedSignal ←
      evaluate (x.signalFromImage image m.revision.messageId m.revision.revisionHash)
    pure ⟨⟨.codexSucceeded, signal, none⟩, some image, some .succeeded⟩

def analyze (m : TelegramRow) : BatchProg Analysis :=
  match x.imageAnalysisEnabled && m.revision.hasMedia, m.revision.media.path with
  | true, some path => do
    let image : Except BatchError ImageJson ←
      attempt (perform (BatchOp.analyzeImage m.key m.revision.rawText path))
    match image with
    | .ok image => x.readImage m image
    | .error (.osError _) => x.readImage m { message := "Image analysis unavailable" }
    | .error e => raise e
  | _, _ => do
    let result : AnalysisResult ← perform (BatchOp.analyzeText m.key m.revision.rawText)
    pure ⟨result, none, none⟩

def insertDispatches (m : TelegramRow) : List String → BatchProg ℕ
  | [] => pure 0
  | exchange :: exchanges => do
    let inserted : Bool ← perform (BatchOp.insertDispatch m.key exchange)
    let rest ← insertDispatches m exchanges
    pure ((if inserted then 1 else 0) + rest)

/-- The number of dispatches of the signal, where there is one. -/
def publishSignal (m : TelegramRow) : Option AnalyzedSignal → BatchProg (Option ℕ)
  | none => pure none
  | some signal => do
    perform (BatchOp.insertSignal m.key signal)
    let found : Bool ← perform (BatchOp.hasSignal m.key)
    if found then do
      let dispatches ← insertDispatches m x.exchanges
      pure (some dispatches)
    else raise (.raised "ValueError")

/-- A message without text may have its instruction in the image. -/
def imageInstruction (m : TelegramRow) (image : Option ImageJson) :
    Option ManagementInstruction → BatchProg (Option ManagementInstruction)
  | some management => pure (some management)
  | none =>
    match image with
    | some image =>
      if strip m.revision.rawText = "" then evaluate (x.managementFromImage image) else pure none
    | none => pure none

def enrollSome (place : Place) (m : TelegramRow) : Option ManagementInstruction → BatchProg Unit
  | some management => perform (BatchOp.enroll place m.key management)
  | none => pure ()

/-- The card of an analysis. -/
def analysisNotice (m : TelegramRow) (a : Analysis) (result : AnalysisResult)
    (management : Option ManagementInstruction) (dispatches : Option ℕ) : Notice where
  key := .analysis m.key
  payload := .signalAnalysis a.image a.imageStatus m.revision.messageId m.revision.rawText
    m.revision.receivedAt result dispatches.isSome management (dispatches.getD 0) x.exchanges

def publish (m : TelegramRow) (a : Analysis) : BatchProg Unit := do
  let veto : Bool ← evaluate (x.entryStandsDown m.revision.rawText)
  let result : AnalysisResult :=
    if veto then ⟨a.result.status, none, some "source caption stands down"⟩ else a.result
  let management : Option ManagementInstruction ← x.instruction m.revision.rawText
  let management : Option ManagementInstruction ← x.imageInstruction m a.image management
  enrollSome .body m management
  let dispatches : Option ℕ ← x.publishSignal m result.signal
  perform (BatchOp.notify .body m.key (x.analysisNotice m a result management dispatches))
  perform (BatchOp.updateState m.key .analyzed)

/-- The body of the `try`. The answer says whether the savepoint is left. -/
def processMessage (m : TelegramRow) : BatchProg Bool := do
  let admitted : Bool ← perform (BatchOp.eligible m.key)
  if admitted = false then do
    x.processLapsed m
    pure false
  else do
    let analysis ← x.analyze m
    let admitted : Bool ← perform (BatchOp.eligible m.key)
    if admitted = false then do
      x.processLapsed m
      pure false
    else do
      x.publish m analysis
      pure true

/-- The card of a failure. -/
def failureNotice (m : TelegramRow) (e : BatchError) : Notice where
  key := .analysisFailed m.key
  payload := .systemEvent ("Analyzer failed · source #" ++ toString m.revision.messageId ++
    " · error=" ++ e.typeName)

/-- The instruction of a message that failed is enrolled again. -/
def reenroll (m : TelegramRow) : BatchProg Unit := do
  let management ← x.instruction m.revision.rawText
  enrollSome .outer m management

/-- The handler. Neither of its last two parts raises. -/
def handleFailure (m : TelegramRow) (e : BatchError) : BatchProg Unit := do
  perform BatchOp.rollbackToSavepoint
  perform (BatchOp.markFailed m.key ("analysis-failed:" ++ e.typeName))
  let _ ← attempt (x.reenroll m)
  let _ ← attempt (perform (BatchOp.notify .outer m.key (failureNotice m e)))
  pure ()

/-- What follows the `try`. -/
def conclude (m : TelegramRow) : Except BatchError Bool → BatchProg Unit
  | .ok false => pure ()
  | .ok true => perform (BatchOp.release .outer)
  | .error e => do
    x.handleFailure m e
    perform (BatchOp.release .outer)

def processRow (m : TelegramRow) : BatchProg Unit := do
  perform BatchOp.savepoint
  let r ← attempt (x.processMessage m)
  x.conclude m r

def processRows : List TelegramRow → BatchProg Unit
  | [] => pure ()
  | m :: rows => do
    x.processRow m
    processRows rows

def supported (exchange : String) : Bool := exchange = "binance" || exchange = "bitget"

def processReceivedBatch : BatchProg ℕ :=
  if x.limit < 1 then raise (.raised "ValueError")
  else if x.exchanges = [] ∨ x.exchanges.any (!supported ·) then raise (.raised "ValueError")
  else do
    let rows : List TelegramRow ← perform (BatchOp.selectReceived x.channelIds x.limit)
    x.processRows rows
    perform BatchOp.commit
    pure rows.length

end AnalyzerWorker

end FattyTrader
