import FattyTrader.Ledger
import FattyTrader.Tables

/-!
# Revisions of source messages

A source message is kept with all its revisions. `isSameSignalOrCosmetic` compares their texts, and a
revision whose text differs from one that is kept vetoes the message.

`InMemoryRawMessageRepository` and `PostgresRawMessageRepository` save a revision, each with its own
scan for the veto. A row of the second is a source for an entry where `sourceEligible` holds.
-/

open Tables

namespace FattyTrader

/-! ## Texts -/

/-- What the comparison of texts takes from Unicode : `str.isalnum` and `str.upper`. -/
structure Unicode where
  isalnum : Char → Bool
  upper : List Char → List Char

def stripChars (cs : List Char) : List Char := (cs.dropWhile isSpace).rdropWhile isSpace

/-- `re.sub(r"\s+", " ", text)`, after a character that was a space or was none. -/
def collapseSpaces : Bool → List Char → List Char
  | _, [] => []
  | inRun, c :: cs =>
    if isSpace c then
      if inRun then collapseSpaces true cs else ' ' :: collapseSpaces true cs
    else c :: collapseSpaces false cs

def cleanText (cs : List Char) : List Char := stripChars (collapseSpaces false cs)

/-- `[#$]`. -/
def isTag (c : Char) : Bool := c = '#' || c = '$'

/-- `[A-Z0-9]`, where case is ignored : four letters outside ASCII have one of these as a case. -/
def isTickerChar (c : Char) : Bool :=
  c.isAlphanum || c.toNat = 0x130 || c.toNat = 0x131 || c.toNat = 0x17f || c.toNat = 0x212a

/-- The lower case of a character that is compared with a ticker. -/
def foldTicker (c : Char) : Char :=
  if c.toNat = 0x130 then 'i' else if c.toNat = 0x212a then 'k' else c.toLower

/-- `[#$]([A-Z0-9]+)\s+[$#]\1\b` at the start of a text : the group, and what is left. Neither run can
be matched shorter, since what follows it is of another kind. -/
def repeatedTicker (u : Unicode) : List Char → Option (List Char × List Char)
  | [] => none
  | tag :: cs =>
    let group := cs.takeWhile isTickerChar
    let gap := cs.dropWhile isTickerChar
    match gap.dropWhile isSpace with
    | [] => none
    | tag' :: again =>
      let rest := again.drop group.length
      if isTag tag && !group.isEmpty && gap.head?.any isSpace && isTag tag' &&
          (again.take group.length).map foldTicker = group.map foldTicker &&
          !(rest.head?.any fun c => u.isalnum c || c = '_') then
        some (group, rest)
      else none

/-- `re.sub(r"(?:^|\s)[#$]([A-Z0-9]+)\s+[$#]\1\b", r" \1", text)`, from a position of the text, in as
many rounds as there are characters left. -/
def dropRepeats (u : Unicode) : ℕ → Bool → List Char → List Char
  | 0, _, cs => cs
  | _ + 1, _, [] => []
  | rounds + 1, start, c :: cs =>
    let found := (if start then repeatedTicker u (c :: cs) else none).or
      (if isSpace c then repeatedTicker u cs else none)
    match found with
    | some (group, rest) => ' ' :: group ++ dropRepeats u rounds false rest
    | none => c :: dropRepeats u rounds false cs

/-- What two clean texts are compared by. -/
def signalKey (u : Unicode) (clean : List Char) : List Char :=
  u.upper (stripChars ((dropRepeats u clean.length true clean).filter fun c => !isTag c))

/-- `_is_same_signal_or_cosmetic`. -/
def isSameSignalOrCosmetic (u : Unicode) (text₁ text₂ : String) : Bool :=
  if text₁ = "" ∨ text₂ = "" then text₁ = text₂
  else if stripChars text₁.toList = stripChars text₂.toList then true
  else
    let clean₁ := cleanText text₁.toList
    let clean₂ := cleanText text₂.toList
    if clean₁ = clean₂ then true else signalKey u clean₁ = signalKey u clean₂

/-! ## Revisions -/

/-- A reason not to enter. The others are texts that are not empty. -/
inductive RejectionReason
  | editedSourceMessage
  | supersededSourceRevision
  | staleSourceMessage
  | mediaDownloadFailed
  | mediaDownloadTimeout
  | other (text : String)
deriving DecidableEq

inductive IngestionOrigin
  | realtime
  | catchup
  | backfill
  | other (text : String)
deriving DecidableEq

structure SourceMedia where
  path : Option String := none
  sha256 : Option String := none
  mimeType : Option String := none
  sizeBytes : Option ℕ := none
deriving DecidableEq

/-- A message of a channel. -/
abbrev MessageKey := ℤ × ℤ

/-- The channel and the message, and the hash of the revision. -/
abbrev RevisionKey := MessageKey × String

structure RawTelegramMessage where
  channelId : ℤ
  messageId : ℤ
  revisionHash : String
  rawText : String
  receivedAt : Instant
  hasMedia : Bool := false
  media : SourceMedia := {}
  ingestionOrigin : IngestionOrigin := .realtime
  entryExpiresAt : Option Instant := none
  entryRejectionReason : Option RejectionReason := none
deriving DecidableEq

namespace RawTelegramMessage

variable (m : RawTelegramMessage)

def message : MessageKey := (m.channelId, m.messageId)

def key : RevisionKey := (m.message, m.revisionHash)

def vetoed : Bool := m.entryRejectionReason = some .editedSourceMessage

end RawTelegramMessage

/-- The reasons that media which arrive later lift. -/
def healableReason (reason : Option RejectionReason) : Bool :=
  reason = none || reason = some .mediaDownloadFailed || reason = some .mediaDownloadTimeout

/-! ## In memory -/

abbrev Revisions := Table RawTelegramMessage (SameKey RawTelegramMessage.key)

namespace InMemoryRawMessageRepository

variable (u : Unicode) (t : Revisions) (m : RawTelegramMessage) (now : Instant)

def siblings : List RawTelegramMessage := t.rows.filter fun r => r.message = m.message

/-- The reason of a revision that is not kept yet. -/
def classify : Option RejectionReason :=
  let siblings := siblings t m
  if m.entryRejectionReason = none ∧ siblings ≠ [] then
    if siblings.any (·.vetoed) || !siblings.any (isSameSignalOrCosmetic u ·.rawText m.rawText) then
      some .editedSourceMessage
    else some .supersededSourceRevision
  else m.entryRejectionReason

def revoked (r : RawTelegramMessage) : RawTelegramMessage :=
  if r.message = m.message ∧ isSameSignalOrCosmetic u r.rawText m.rawText = false then
    { r with entryRejectionReason := some .editedSourceMessage }
  else r

theorem key_revoked (r : RawTelegramMessage) : (revoked u m r).key = r.key := by
  unfold revoked
  split <;> rfl

def revoke : Revisions := t.rewrite (revoked u m) fun a b h => by
  simpa only [SameKey, key_revoked] using h

def healable (existing : RawTelegramMessage) : Bool :=
  existing.media.path = none && m.media.path.isSome && m.entryRejectionReason = none &&
    healableReason existing.entryRejectionReason && existing.entryExpiresAt.any (now < ·)

def healed (r : RawTelegramMessage) : RawTelegramMessage :=
  if r.key = m.key then { r with media := m.media, entryRejectionReason := none } else r

theorem key_healed (r : RawTelegramMessage) : (healed m r).key = r.key := by
  unfold healed
  split <;> rfl

def heal : Revisions := t.rewrite (healed m) fun a b h => by
  simpa only [SameKey, key_healed] using h

/-- The first half of `save_if_new` : the revision that is kept. -/
def keep : Revisions × RawTelegramMessage :=
  match t.find RawTelegramMessage.key m.key with
  | some existing => (t, existing)
  | none =>
    let reason := classify u t m
    let t := if reason = some .editedSourceMessage then revoke u t m else t
    let existing := { m with entryRejectionReason := reason }
    (t.insertNew existing, existing)

def saveIfNew : Revisions × RawTelegramMessage :=
  let (t, existing) := keep u t m
  if healable m now existing then (heal t m, healed m existing) else (t, existing)

/-- The answer says whether the revision is new. -/
def saveAndEnqueueForward : Revisions × Bool :=
  ((saveIfNew u t m now).1, (t.find RawTelegramMessage.key m.key).isNone)

end InMemoryRawMessageRepository

/-! ## In PostgreSQL -/

inductive IntakeState
  | received
  | analyzed
  | failed
  | expired
deriving DecidableEq

/-- A row of `telegram_messages`. The reason of the revision is its `entry_rejection_reason`. -/
structure TelegramRow where
  revision : RawTelegramMessage
  intakeState : IntakeState
  reAdmissionReference : Option String := none
deriving DecidableEq

def TelegramRow.key (r : TelegramRow) : RevisionKey := r.revision.key

abbrev TelegramMessages := Table TelegramRow (SameKey TelegramRow.key)

namespace PostgresRawMessageRepository

variable (u : Unicode) (t : TelegramMessages) (m : RawTelegramMessage) (now : Instant)

def retained : List TelegramRow := t.rows.filter fun r => r.revision.message = m.message

/-- `_classify_revision`. -/
def classifyRevision : Option RejectionReason :=
  match m.entryRejectionReason with
  | some reason => some reason
  | none =>
    let rows := retained t m
    if rows = [] then none
    else if rows.any (·.revision.vetoed) then some .editedSourceMessage
    else if rows.any (isSameSignalOrCosmetic u ·.revision.rawText m.rawText) then
      some .supersededSourceRevision
    else some .editedSourceMessage

def revoked (r : TelegramRow) : TelegramRow :=
  if r.revision.message = m.message ∧
      isSameSignalOrCosmetic u r.revision.rawText m.rawText = false then
    { r with
      revision := { r.revision with entryRejectionReason := some .editedSourceMessage } }
  else r

theorem key_revoked (r : TelegramRow) : (revoked u m r).key = r.key := by
  unfold revoked
  split <;> rfl

/-- `_revoke_edited_source`. -/
def revokeEditedSource : TelegramMessages := t.rewrite (revoked u m) fun a b h => by
  simpa only [SameKey, key_revoked] using h

def healable (r : TelegramRow) : Bool :=
  r.key = m.key && r.revision.media.path = none && r.revision.entryExpiresAt.any (now < ·) &&
    (r.intakeState = .received || r.intakeState = .expired) &&
    healableReason r.revision.entryRejectionReason

def healed (r : TelegramRow) : TelegramRow :=
  if healable m now r then
    { r with
      revision := { r.revision with media := m.media, entryRejectionReason := none }
      intakeState := .received }
  else r

theorem key_healed (r : TelegramRow) : (healed m now r).key = r.key := by
  unfold healed
  split <;> rfl

/-- `_heal_media`. -/
def healMedia : TelegramMessages :=
  if m.media.path = none ∨ m.entryRejectionReason ≠ none then t
  else t.rewrite (healed m now) fun a b h => by simpa only [SameKey, key_healed] using h

/-- The row of a new revision. -/
def newRow (reason : Option RejectionReason) : TelegramRow where
  revision := { m with entryRejectionReason := reason }
  intakeState := if reason.isSome then .expired else .received

def saveIfNew : TelegramMessages × RawTelegramMessage :=
  let reason := classifyRevision u t m
  let t := t.insertNew (newRow m reason)
  (revokeEditedSource u (healMedia t m now) m, { m with entryRejectionReason := reason })

/-- Media are healed where the revision is kept already. -/
def saveAndEnqueueForward : TelegramMessages × Bool :=
  let reason := classifyRevision u t m
  let inserted := (t.find TelegramRow.key m.key).isNone
  let t := t.insertNew (newRow m reason)
  (revokeEditedSource u (if inserted then t else healMedia t m now) m, inserted)

end PostgresRawMessageRepository

/-! ## Eligibility -/

def IngestionOrigin.admitted : IngestionOrigin → Bool
  | .other _ => false
  | _ => true

/-- The reasons an operator may override. -/
def overridable (reason : Option RejectionReason) : Bool :=
  reason = none || reason = some .staleSourceMessage

/-- `SOURCE_ELIGIBLE_SQL`. -/
def sourceEligible (t : TelegramMessages) (now : Instant) (r : TelegramRow) : Bool :=
  (r.revision.ingestionOrigin.admitted && r.revision.entryRejectionReason = none &&
      !(t.rows.any fun e => e.revision.message = r.revision.message && e.revision.vetoed) &&
      r.revision.entryExpiresAt.any (now < ·) && now - 300000000 < r.revision.receivedAt &&
      r.revision.receivedAt ≤ now + 30000000) ||
    (r.reAdmissionReference.isSome && r.revision.ingestionOrigin.admitted &&
      overridable r.revision.entryRejectionReason)

def readmitted (key : RevisionKey) (reference : String) (r : TelegramRow) : TelegramRow :=
  if r.key = key then
    { r with
      revision := { r.revision with entryRejectionReason := none }
      reAdmissionReference := some reference }
  else r

theorem key_readmitted (key : RevisionKey) (reference : String) (r : TelegramRow) :
    (readmitted key reference r).key = r.key := by
  unfold readmitted
  split <;> rfl

/-- The first statement of `apply_readmission`. -/
def applyReadmission (t : TelegramMessages) (key : RevisionKey) (reference : String) :
    TelegramMessages :=
  t.rewrite (readmitted key reference) fun a b h => by simpa only [SameKey, key_readmitted] using h

/-! ## Saves after each other -/

/-- The same saves go to both repositories. -/
structure Intake where
  memory : Revisions := .empty
  postgres : TelegramMessages := .empty

/-- A revision is saved by one of the two functions, or an operator re-admits one for which the reason
`loaded` was read before. -/
inductive IntakeLabel
  | save (m : RawTelegramMessage) (now : Instant)
  | forward (m : RawTelegramMessage) (now : Instant)
  | override (key : RevisionKey) (reference : String) (loaded : Option RejectionReason)

def Intake.step (u : Unicode) (s : Intake) : IntakeLabel → Option Intake
  | .save m now =>
    some ⟨(InMemoryRawMessageRepository.saveIfNew u s.memory m now).1,
      (PostgresRawMessageRepository.saveIfNew u s.postgres m now).1⟩
  | .forward m now =>
    some ⟨(InMemoryRawMessageRepository.saveAndEnqueueForward u s.memory m now).1,
      (PostgresRawMessageRepository.saveAndEnqueueForward u s.postgres m now).1⟩
  | .override key reference loaded =>
    if overridable loaded then
      some { s with postgres := applyReadmission s.postgres key reference }
    else none

end FattyTrader
