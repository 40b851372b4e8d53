import FattyTrader.Runs
import FattyTrader.SourceRevisions
import Mathlib.Data.List.Sort

/-!
# Coverage of the channel history

The realtime handler saves what it is told of, and the catch-up polls a channel after its coverage.
Whichever saves first of a channel sets the coverage to that message, the baseline. Afterwards only a
catch-up moves it, past a message it has saved, and a run of it can end anywhere.

Every message of the channel between the baseline and the coverage is saved, in any order of saves,
runs, failures, crashes and restarts (`history_covered`). The channel gives out ids in ascending
order, and a run is given the ids after its cursor in ascending order.
-/

set_option linter.unusedSectionVars false

open Tables

namespace FattyTrader

open Runs

/-! ## The store and the runs -/

/-- A catch-up of one channel : the last message it is through with, the messages it was given, how
many are left, and whether the next one is saved. -/
structure CatchupRun where
  channel : ℤ
  cursor : ℤ
  fetched : List ℤ
  left : ℕ
  saved : Bool
deriving DecidableEq

/-- The tables of the intake, the runs in progress, and the channels. -/
structure CatchupIntake where
  messages : TelegramMessages
  coverage : ℤ → Option ℤ
  runs : ℕ → Option CatchupRun
  posted : ℤ → List ℤ
  deleted : ℤ → List ℤ

inductive CatchupLabel
  | post (channel id : ℤ)
  | delete (channel id : ℤ)
  | realtime (m : RawTelegramMessage) (now : Instant)
  | save (m : RawTelegramMessage) (now : Instant)
  | migrate
  | lookup (run : ℕ) (channel : ℤ)
  | fetch (run count : ℕ)
  | handle (run : ℕ) (m : RawTelegramMessage) (now : Instant)
  | advance (run : ℕ)
  /-- the end of a run, a failure or a cancellation -/
  | leave (run : ℕ)
  | crash

namespace CatchupIntake

variable (u : Unicode) (s : CatchupIntake)

/-- The intake as a process finds it. -/
def started (messages : TelegramMessages) (coverage : ℤ → Option ℤ) (posted deleted : ℤ → List ℤ) :
    CatchupIntake where
  messages := messages
  coverage := coverage
  runs _ := none
  posted := posted
  deleted := deleted

/-- The messages that exist in a channel. -/
def existing (channel : ℤ) : List ℤ :=
  (s.posted channel).filter fun id => id ∉ s.deleted channel

/-- A message is handled durably : a revision of it is kept. -/
def Handled (channel id : ℤ) : Prop :=
  ∃ r ∈ s.messages, r.revision.message = (channel, id)

/-- `_anchor_coverage`. -/
def anchorCoverage (m : RawTelegramMessage) : CatchupIntake :=
  { s with
    coverage := Function.update s.coverage m.channelId
      ((s.coverage m.channelId).or (some m.messageId)) }

/-- The transaction of `save_and_enqueue_forward`. -/
def saveAndEnqueueForward (m : RawTelegramMessage) (now : Instant) : CatchupIntake :=
  { s.anchorCoverage m with
    messages := (PostgresRawMessageRepository.saveAndEnqueueForward u s.messages m now).1 }

/-- The transaction of `save_if_new`. -/
def saveIfNew (m : RawTelegramMessage) (now : Instant) : CatchupIntake :=
  { s.anchorCoverage m with
    messages := (PostgresRawMessageRepository.saveIfNew u s.messages m now).1 }

/-- The smallest message kept of a channel. -/
def leastKept (channel : ℤ) : Option ℤ :=
  ((s.messages.rows.filter fun r => r.revision.channelId = channel).map
    (·.revision.messageId)).min?

/-- `INTAKE_COVERAGE_SCHEMA_SQL`, for a channel without coverage. -/
def migrate : CatchupIntake :=
  { s with coverage := fun channel => (s.coverage channel).or (s.leastKept channel) }

/-- `advance`. -/
def advance (channel id : ℤ) : CatchupIntake :=
  { s with coverage := Function.update s.coverage channel ((s.coverage channel).map (max · id)) }

/-- A page of `iter_messages(min_id=cursor, reverse=True)`. -/
def historyAfter (channel cursor : ℤ) (count : ℕ) : List ℤ :=
  (((s.existing channel).filter (cursor < ·)).insertionSort (· ≤ ·)).take count

def setRun (run : ℕ) (r : Option CatchupRun) : CatchupIntake :=
  { s with runs := Function.update s.runs run r }

/-- One step of the intake. A channel gives out ids in ascending order. -/
def step (perRunLimit : ℕ) (s : CatchupIntake) : CatchupLabel → CatchupIntake
  | .post channel id =>
    if ∀ earlier ∈ s.posted channel, earlier < id then
      { s with posted := Function.update s.posted channel (s.posted channel ++ [id]) }
    else s
  | .delete channel id =>
    { s with deleted := Function.update s.deleted channel (id :: s.deleted channel) }
  | .realtime m now => s.saveAndEnqueueForward u m now
  | .save m now => s.saveIfNew u m now
  | .migrate => s.migrate
  | .lookup run channel =>
    match s.runs run, s.coverage channel with
    | none, some cursor => s.setRun run (some ⟨channel, cursor, [], perRunLimit, false⟩)
    | _, _ => s
  | .fetch run count =>
    match s.runs run with
    | some r =>
      if r.fetched = [] then
        s.setRun run (some
          { r with fetched := s.historyAfter r.channel r.cursor (min count r.left), saved := false })
      else s
    | none => s
  | .handle run m now =>
    match s.runs run with
    | some r =>
      if r.fetched.head? = some m.messageId ∧ m.channelId = r.channel ∧ r.saved = false then
        (s.saveAndEnqueueForward u m now).setRun run (some { r with saved := true })
      else s
    | none => s
  | .advance run =>
    match s.runs run with
    | some ⟨channel, _, id :: fetched, left, true⟩ =>
      (s.advance channel id).setRun run (some ⟨channel, id, fetched, left - 1, false⟩)
    | _ => s
  | .leave run => s.setRun run none
  | .crash => { s with runs := fun _ => none }

/-- The first coverage of a channel, in the states before and in this one. -/
def baseline (past : List (CatchupIntake × CatchupLabel)) (channel : ℤ) : Option ℤ :=
  (past.map Prod.fst ++ [s]).findSome? (·.coverage channel)

/-- Every message of the channel after the base and up to an id is handled. The id is the base or was
given out. -/
structure HandledTo (channel base id : ℤ) : Prop where
  reached : id = base ∨ id ∈ s.posted channel
  handled : ∀ i ∈ s.existing channel, base < i → i ≤ id → s.Handled channel i

/-- What a run was given is all that follows its cursor, as far as it goes. -/
structure RunRecord (base : ℤ) (r : CatchupRun) : Prop where
  cursor : s.HandledTo r.channel base r.cursor
  sorted : r.fetched.Pairwise (· ≤ ·)
  posted : ∀ id ∈ r.fetched, id ∈ s.posted r.channel
  after : ∀ id ∈ r.fetched, r.cursor ≤ id
  complete : ∀ id ∈ s.existing r.channel, r.cursor < id →
    id ∈ r.fetched ∨ ∀ later ∈ r.fetched, later < id
  saved : r.saved = true → ∀ id ∈ r.fetched.head?, s.Handled r.channel id

structure CatchupRecord (base : ℤ → Option ℤ) : Prop where
  unknown : ∀ channel, base channel = none → s.coverage channel = none
  covered : ∀ channel b, base channel = some b →
    ∃ c, s.coverage channel = some c ∧ s.HandledTo channel b c
  runs : ∀ run r, s.runs run = some r → ∃ b, base r.channel = some b ∧ s.RunRecord b r

/-! ## Saves -/

section Saves

variable {u : Unicode} {t t' : TelegramMessages} {m : RawTelegramMessage} {now : Instant}

/-- No message is lost. -/
def KeepsMessages (t t' : TelegramMessages) : Prop :=
  ∀ r ∈ t, ∃ r' ∈ t', r'.revision.message = r.revision.message

theorem keepsMessages_rewrite {f : TelegramRow → TelegramRow}
    (hf : ∀ a b, SameKey TelegramRow.key (f a) (f b) → SameKey TelegramRow.key a b)
    (hmessage : ∀ r, (f r).revision.message = r.revision.message) :
    KeepsMessages t (t.rewrite f hf) :=
  fun r hr => ⟨f r, Table.mem_rewrite.mpr ⟨r, hr, rfl⟩, hmessage r⟩

theorem KeepsMessages.trans {t'' : TelegramMessages} (h : KeepsMessages t t')
    (h' : KeepsMessages t' t'') : KeepsMessages t t'' := by
  intro r hr
  obtain ⟨r', hr', heq⟩ := h r hr
  obtain ⟨r'', hr'', heq'⟩ := h' r' hr'
  exact ⟨r'', hr'', heq'.trans heq⟩

theorem keepsMessages_insertNew {row : TelegramRow} : KeepsMessages t (t.insertNew row) :=
  fun r hr => ⟨r, Table.prefix_insertNew.subset hr, rfl⟩

/-- A revision or the one it repeats is in the table after its insertion. -/
theorem message_insertNew (t : TelegramMessages) (m : RawTelegramMessage)
    (reason : Option RejectionReason) :
    ∃ r ∈ t.insertNew (PostgresRawMessageRepository.newRow m reason),
      r.revision.message = m.message := by
  obtain ⟨r, hr, rfl | hkey⟩ :=
    Table.exists_insertNew (t := t) (r := PostgresRawMessageRepository.newRow m reason)
  · exact ⟨_, hr, rfl⟩
  · exact ⟨r, hr, congrArg Prod.fst hkey⟩

theorem keepsMessages_heal : KeepsMessages t (PostgresRawMessageRepository.healMedia t m now) := by
  unfold PostgresRawMessageRepository.healMedia
  split
  · exact fun r hr => ⟨r, hr, rfl⟩
  · refine keepsMessages_rewrite _ fun r => ?_
    exact congrArg Prod.fst (PostgresRawMessageRepository.key_healed m now r)

theorem keepsMessages_revoke :
    KeepsMessages t (PostgresRawMessageRepository.revokeEditedSource u t m) :=
  keepsMessages_rewrite _ fun r =>
    congrArg Prod.fst (PostgresRawMessageRepository.key_revoked u m r)

/-- Both saves keep every message and the one that is saved. -/
theorem keepsMessages_save :
    (KeepsMessages t (PostgresRawMessageRepository.saveIfNew u t m now).1 ∧
      ∃ r ∈ (PostgresRawMessageRepository.saveIfNew u t m now).1,
        r.revision.message = m.message) ∧
    (KeepsMessages t (PostgresRawMessageRepository.saveAndEnqueueForward u t m now).1 ∧
      ∃ r ∈ (PostgresRawMessageRepository.saveAndEnqueueForward u t m now).1,
        r.revision.message = m.message) := by
  have hinserted : ∀ {inserted kept : TelegramMessages} {reason : Option RejectionReason},
      inserted = t.insertNew (PostgresRawMessageRepository.newRow m reason) →
        KeepsMessages inserted kept →
          KeepsMessages t kept ∧ ∃ r ∈ kept, r.revision.message = m.message := by
    rintro inserted kept reason rfl hkeeps
    obtain ⟨r, hr, hmessage⟩ := message_insertNew t m reason
    obtain ⟨r', hr', hsame⟩ := hkeeps r hr
    exact ⟨keepsMessages_insertNew.trans hkeeps, r', hr', hsame.trans hmessage⟩
  refine ⟨hinserted rfl (keepsMessages_heal.trans keepsMessages_revoke),
    @hinserted _ _ (PostgresRawMessageRepository.classifyRevision u t m) rfl ?_⟩
  refine KeepsMessages.trans ?_ keepsMessages_revoke
  split
  · exact fun r hr => ⟨r, hr, rfl⟩
  · exact keepsMessages_heal

end Saves

/-! ## What a step keeps -/

section Steps

variable {u : Unicode} {perRunLimit : ℕ} {s s' : CatchupIntake} {channel b id : ℤ}
  {base : ℤ → Option ℤ} {r : CatchupRun} {l : CatchupLabel}

/-- What every step does to the messages and the channels : nothing handled is lost, and a message
that is new in a channel is after all that were given out. -/
structure Extends (s s' : CatchupIntake) : Prop where
  posted : ∀ {channel id}, id ∈ s.posted channel → id ∈ s'.posted channel
  existing : ∀ {channel id}, id ∈ s'.existing channel →
    id ∈ s.existing channel ∨ ∀ earlier ∈ s.posted channel, earlier < id
  handled : ∀ {channel id}, s.Handled channel id → s'.Handled channel id

theorem HandledTo.extend (h : s.HandledTo channel b id) (hs : Extends s s') :
    s'.HandledTo channel b id := by
  refine ⟨h.reached.imp_right hs.posted, fun i hi hb hle => ?_⟩
  rcases hs.existing hi with hi | hnew
  · exact hs.handled (h.handled i hi hb hle)
  · rcases h.reached with rfl | hid
    · omega
    · have := hnew id hid
      omega

theorem RunRecord.extend (h : s.RunRecord b r) (hs : Extends s s') : s'.RunRecord b r := by
  refine ⟨h.cursor.extend hs, h.sorted, fun id hid => hs.posted (h.posted id hid),
    h.after, fun id hid hlt => ?_, fun hsaved id hid => hs.handled (h.saved hsaved id hid)⟩
  rcases hs.existing hid with hid | hnew
  · exact h.complete id hid hlt
  · exact Or.inr fun later hlater => hnew later (h.posted later hlater)

theorem mem_existing : id ∈ s.existing channel ↔
    id ∈ s.posted channel ∧ id ∉ s.deleted channel := by
  simp [existing]

theorem Extends.of_same (hposted : s'.posted = s.posted) (hdeleted : s'.deleted = s.deleted)
    (hmessages : KeepsMessages s.messages s'.messages) : Extends s s' := by
  refine ⟨fun h => by rwa [hposted], fun h => Or.inl ?_, ?_⟩
  · rw [mem_existing] at h ⊢
    rwa [hposted, hdeleted] at h
  · rintro channel id ⟨r, hr, hmessage⟩
    obtain ⟨r', hr', hsame⟩ := hmessages r hr
    exact ⟨r', hr', hsame.trans hmessage⟩

theorem Extends.refl (s : CatchupIntake) : Extends s s :=
  .of_same rfl rfl fun r hr => ⟨r, hr, rfl⟩

theorem extends_post (hnew : ∀ earlier ∈ s.posted channel, earlier < id) :
    Extends s { s with posted := Function.update s.posted channel (s.posted channel ++ [id]) } := by
  have hposted : ∀ c i, i ∈ Function.update s.posted channel (s.posted channel ++ [id]) c ↔
      i ∈ s.posted c ∨ (c = channel ∧ i = id) := by
    intro c i
    rw [Function.update_apply]
    by_cases hc : c = channel
    · simp [hc]
    · simp [hc]
  refine ⟨fun h => (hposted _ _).mpr (Or.inl h), fun {c i} h => ?_, fun h => h⟩
  obtain ⟨hi, hdeleted⟩ := mem_existing.mp h
  rcases (hposted c i).mp hi with hi | ⟨rfl, rfl⟩
  · exact Or.inl (mem_existing.mpr ⟨hi, hdeleted⟩)
  · exact Or.inr hnew

theorem extends_delete :
    Extends s { s with deleted := Function.update s.deleted channel (id :: s.deleted channel) } := by
  refine ⟨fun h => h, fun {c i} h => Or.inl ?_, fun h => h⟩
  obtain ⟨hi, hdeleted⟩ := mem_existing.mp h
  refine mem_existing.mpr ⟨hi, fun hmem => hdeleted ?_⟩
  change i ∈ Function.update s.deleted channel (id :: s.deleted channel) c
  rw [Function.update_apply]
  by_cases hc : c = channel
  · rw [if_pos hc]
    exact List.mem_cons_of_mem _ (hc ▸ hmem)
  · rwa [if_neg hc]

/-- A page is in ascending order, and has all that follows the cursor as far as it goes. -/
theorem historyAfter_spec (s : CatchupIntake) (channel cursor : ℤ) (count : ℕ) :
    (s.historyAfter channel cursor count).Pairwise (· ≤ ·) ∧
      (∀ i ∈ s.historyAfter channel cursor count, i ∈ s.posted channel ∧ cursor ≤ i) ∧
      ∀ i ∈ s.existing channel, cursor < i → i ∈ s.historyAfter channel cursor count ∨
        ∀ later ∈ s.historyAfter channel cursor count, later < i := by
  have hsorted : (((s.existing channel).filter (cursor < ·)).insertionSort (· ≤ ·)).Pairwise
      (· ≤ ·) := List.pairwise_insertionSort _ _
  refine ⟨hsorted.sublist (List.take_sublist _ _), fun i hi => ?_, fun i hi hlt => ?_⟩
  · have hmem := (List.mem_insertionSort _).mp ((List.take_sublist _ _).subset hi)
    obtain ⟨hexists, hlt⟩ := List.mem_filter.mp hmem
    exact ⟨(mem_existing.mp hexists).1, (by simpa using hlt : cursor < i).le⟩
  · by_cases htaken : i ∈ s.historyAfter channel cursor count
    · exact Or.inl htaken
    · refine Or.inr fun later hlater => ?_
      have hmem : i ∈ ((s.existing channel).filter (cursor < ·)).insertionSort (· ≤ ·) :=
        (List.mem_insertionSort _).mpr (List.mem_filter.mpr ⟨hi, by simpa using hlt⟩)
      rw [← List.take_append_drop count (((s.existing channel).filter
        (cursor < ·)).insertionSort (· ≤ ·)), List.mem_append] at hmem
      rw [← List.take_append_drop count (((s.existing channel).filter
        (cursor < ·)).insertionSort (· ≤ ·)), List.pairwise_append] at hsorted
      have hle := hsorted.2.2 later hlater i (hmem.resolve_left htaken)
      refine lt_of_le_of_ne hle fun heq => htaken ?_
      rwa [← heq]

/-- The record from what a step does to the coverage and the runs. -/
theorem CatchupRecord.next (hrec : s.CatchupRecord base)
    (hcoverage : ∀ channel b c, base channel = some b → s.coverage channel = some c →
      s.HandledTo channel b c → ∃ c', s'.coverage channel = some c' ∧ s'.HandledTo channel b c')
    (hruns : ∀ run r, s'.runs run = some r → ∃ b, base r.channel = some b ∧ s'.RunRecord b r) :
    s'.CatchupRecord fun channel => (base channel).or (s'.coverage channel) := by
  refine ⟨fun channel h => (Option.or_eq_none_iff.mp h).2, fun channel b h => ?_,
    fun run r h => ?_⟩
  · rcases Option.or_eq_some_iff.mp h with hb | ⟨-, hc⟩
    · obtain ⟨c, hc, hto⟩ := hrec.covered channel b hb
      exact hcoverage channel b c hb hc hto
    · exact ⟨b, hc, Or.inl rfl, fun i _ hlt hle => by omega⟩
  · obtain ⟨b, hb, hrun⟩ := hruns run r h
    exact ⟨b, by rw [hb]; rfl, hrun⟩

/-- A step that neither moves a coverage nor touches a run. -/
theorem CatchupRecord.extend (hrec : s.CatchupRecord base) (hs : Extends s s')
    (hcoverage : ∀ channel c, s.coverage channel = some c → s'.coverage channel = some c)
    (hruns : ∀ run r, s'.runs run = some r → s.runs run = some r) :
    s'.CatchupRecord fun channel => (base channel).or (s'.coverage channel) := by
  refine hrec.next (fun channel b c _ hc hto => ⟨c, hcoverage channel c hc, hto.extend hs⟩)
    fun run r hr => ?_
  obtain ⟨b, hb, hrun⟩ := hrec.runs run r (hruns run r hr)
  exact ⟨b, hb, hrun.extend hs⟩

/-- A step that sets one run. -/
theorem CatchupRecord.set (hrec : s.CatchupRecord base) {run : ℕ} {set : Option CatchupRun}
    (hset : ∀ r ∈ set, ∃ b, base r.channel = some b ∧ s.RunRecord b r) :
    (s.setRun run set).CatchupRecord fun channel =>
      (base channel).or ((s.setRun run set).coverage channel) := by
  have hs : Extends s (s.setRun run set) := .of_same rfl rfl fun r hr => ⟨r, hr, rfl⟩
  refine hrec.next (fun channel b c _ hc hto => ⟨c, hc, hto.extend hs⟩) fun i r hr => ?_
  by_cases hi : i = run
  · have hmem : r ∈ set := by simpa [setRun, hi] using hr
    obtain ⟨b, hb, hrun⟩ := hset r hmem
    exact ⟨b, hb, hrun.extend hs⟩
  · have hold : s.runs i = some r := by simpa [setRun, hi] using hr
    obtain ⟨b, hb, hrun⟩ := hrec.runs i r hold
    exact ⟨b, hb, hrun.extend hs⟩

theorem coverage_anchor {m : RawTelegramMessage} {c : ℤ} (h : s.coverage channel = some c) :
    (s.anchorCoverage m).coverage channel = some c := by
  simp only [anchorCoverage, Function.update_apply]
  by_cases hc : channel = m.channelId
  · rw [if_pos hc, ← hc, h]
    rfl
  · rw [if_neg hc, h]

theorem coverage_advance {channel' id c : ℤ} (h : s.coverage channel = some c) :
    (s.advance channel' id).coverage channel =
      some (if channel = channel' then max c id else c) := by
  simp only [advance, Function.update_apply]
  by_cases hc : channel = channel'
  · rw [if_pos hc, if_pos hc, ← hc, h]
    rfl
  · rw [if_neg hc, if_neg hc, h]

/-- A run that advances : its next message is the first one after its cursor, and saved. -/
theorem RunRecord.advance {fetched : List ℤ} {cursor : ℤ} {left : ℕ}
    (h : s.RunRecord b ⟨channel, cursor, id :: fetched, left, true⟩) :
    s.HandledTo channel b id ∧ s.RunRecord b ⟨channel, id, fetched, left - 1, false⟩ := by
  obtain ⟨hfirst, hsorted⟩ := List.pairwise_cons.mp h.sorted
  have hid : s.HandledTo channel b id := by
    refine ⟨Or.inr (h.posted id List.mem_cons_self), fun i hi hb hle => ?_⟩
    by_cases hcursor : i ≤ cursor
    · exact h.cursor.handled i hi hb hcursor
    · rcases h.complete i hi (not_le.mp hcursor) with hmem | hafter
      · have hge : id ≤ i := by
          rcases List.mem_cons.mp hmem with rfl | hmem
          · exact le_rfl
          · exact hfirst i hmem
        obtain rfl : i = id := le_antisymm hle hge
        exact h.saved rfl i rfl
      · have := hafter id List.mem_cons_self
        omega
  refine ⟨hid, hid, hsorted, fun i hi => h.posted i (List.mem_cons_of_mem _ hi), hfirst,
    fun i hi hlt => ?_, fun hsaved => by cases hsaved⟩
  by_cases hcursor : i ≤ cursor
  · have := h.after id List.mem_cons_self
    simp only at this hlt
    omega
  · rcases h.complete i hi (not_le.mp hcursor) with hmem | hafter
    · rcases List.mem_cons.mp hmem with rfl | hmem
      · exact absurd hlt (lt_irrefl _)
      · exact Or.inl hmem
    · exact Or.inr fun later hlater => hafter later (List.mem_cons_of_mem _ hlater)

/-- A save sets the coverage of its channel where there is none, and keeps its message. -/
theorem save_spec (u : Unicode) (s : CatchupIntake) (m : RawTelegramMessage) (now : Instant) :
    (Extends s (s.saveIfNew u m now) ∧
      (s.saveIfNew u m now).coverage = (s.anchorCoverage m).coverage ∧
      (s.saveIfNew u m now).runs = s.runs) ∧
    (Extends s (s.saveAndEnqueueForward u m now) ∧
      (s.saveAndEnqueueForward u m now).coverage = (s.anchorCoverage m).coverage ∧
      (s.saveAndEnqueueForward u m now).runs = s.runs ∧
      (s.saveAndEnqueueForward u m now).Handled m.channelId m.messageId) := by
  obtain ⟨⟨hsave, -⟩, hforward, hkept⟩ := @keepsMessages_save u s.messages m now
  exact ⟨⟨.of_same rfl rfl hsave, rfl, rfl⟩, .of_same rfl rfl hforward, rfl, rfl, hkept⟩

/-- One step keeps the record, a first coverage being the base. -/
theorem record_step (hrec : s.CatchupRecord base) :
    (s.step u perRunLimit l).CatchupRecord fun channel =>
      (base channel).or ((s.step u perRunLimit l).coverage channel) := by
  have hstay : s.CatchupRecord fun channel => (base channel).or (s.coverage channel) :=
    hrec.extend (.refl s) (fun _ _ h => h) fun _ _ h => h
  cases l with
  | post channel id =>
    simp only [step]
    split
    next hnew => exact hrec.extend (extends_post hnew) (fun _ _ h => h) fun _ _ h => h
    · exact hstay
  | delete channel id => exact hrec.extend extends_delete (fun _ _ h => h) fun _ _ h => h
  | realtime m now =>
    obtain ⟨-, hextends, hcoverage, hruns, -⟩ := save_spec u s m now
    refine hrec.extend hextends (fun channel c h => ?_) fun run r h => ?_
    · exact (congrFun hcoverage channel).trans (coverage_anchor h)
    · exact (congrFun hruns run).symm.trans h
  | save m now =>
    obtain ⟨⟨hextends, hcoverage, hruns⟩, -⟩ := save_spec u s m now
    refine hrec.extend hextends (fun channel c h => ?_) fun run r h => ?_
    · exact (congrFun hcoverage channel).trans (coverage_anchor h)
    · exact (congrFun hruns run).symm.trans h
  | migrate =>
    have hextends : Extends s s.migrate := .of_same rfl rfl fun r hr => ⟨r, hr, rfl⟩
    refine hrec.extend hextends (fun channel c h => ?_) fun _ _ h => h
    change (s.coverage channel).or (s.leastKept channel) = some c
    rw [h]
    rfl
  | lookup run channel =>
    simp only [step]
    split
    next cursor hidle hcursor =>
      refine hrec.set fun r hr => ?_
      obtain rfl := Option.some.inj hr
      have hbase : base channel ≠ none := fun hnone => by
        rw [hrec.unknown channel hnone] at hcursor
        cases hcursor
      obtain ⟨b, hb⟩ := Option.ne_none_iff_exists'.mp hbase
      obtain ⟨c, hc, hto⟩ := hrec.covered channel b hb
      obtain rfl := Option.some.inj (hcursor.symm.trans hc)
      exact ⟨b, hb, hto, List.Pairwise.nil, by simp, by simp, by simp, by simp⟩
    · exact hstay
  | fetch run count =>
    simp only [step]
    split
    next r hr =>
      split
      · refine hrec.set fun r' hr' => ?_
        obtain rfl := Option.some.inj hr'
        obtain ⟨b, hb, hrun⟩ := hrec.runs run r hr
        obtain ⟨hsorted, hmem, hcomplete⟩ :=
          historyAfter_spec s r.channel r.cursor (min count r.left)
        exact ⟨b, hb, hrun.cursor, hsorted, fun id h => (hmem id h).1, fun id h => (hmem id h).2,
          hcomplete, fun h => by cases h⟩
      · exact hstay
    · exact hstay
  | handle run m now =>
    simp only [step]
    split
    next r hr =>
      split
      next hnext =>
        obtain ⟨hhead, hchannel, -⟩ := hnext
        obtain ⟨-, hextends, hcoverage, hruns, hkept⟩ := save_spec u s m now
        have hs : Extends s ((s.saveAndEnqueueForward u m now).setRun run
            (some { r with saved := true })) :=
          ⟨hextends.posted, hextends.existing, hextends.handled⟩
        refine hrec.next (fun channel b c _ hc hto => ⟨c, ?_, hto.extend hs⟩) fun i r' hr' => ?_
        · exact (congrFun hcoverage channel).trans (coverage_anchor hc)
        · by_cases hi : i = run
          · obtain rfl : { r with saved := true } = r' := by simpa [setRun, hi] using hr'
            obtain ⟨b, hb, hrun⟩ := hrec.runs run r hr
            obtain ⟨hcursor, hsorted, hposted, hafter, hcomplete, -⟩ := hrun.extend hs
            refine ⟨b, hb, hcursor, hsorted, hposted, hafter, hcomplete, fun _ id hid => ?_⟩
            obtain rfl := Option.some.inj (hhead.symm.trans hid)
            exact hchannel ▸ hkept
          · have hold : s.runs i = some r' := by
              rw [← congrFun hruns i]
              simpa [setRun, hi] using hr'
            obtain ⟨b, hb, hrun⟩ := hrec.runs i r' hold
            exact ⟨b, hb, hrun.extend hs⟩
      · exact hstay
    · exact hstay
  | advance run =>
    simp only [step]
    split
    next channel cursor id fetched left hr =>
      obtain ⟨b, hb, hrun⟩ := hrec.runs run _ hr
      obtain ⟨hid, hnext⟩ := hrun.advance
      have hs : Extends s ((s.advance channel id).setRun run
          (some ⟨channel, id, fetched, left - 1, false⟩)) :=
        .of_same rfl rfl fun r hr => ⟨r, hr, rfl⟩
      refine hrec.next (fun channel' b' c hb' hc hto => ⟨_, coverage_advance hc, ?_⟩)
        fun i r' hr' => ?_
      · by_cases hchannel : channel' = channel
        · subst hchannel
          obtain rfl := Option.some.inj (hb.symm.trans hb')
          rw [if_pos rfl]
          rcases max_choice c id with hmax | hmax
          · rw [hmax]
            exact hto.extend hs
          · rw [hmax]
            exact hid.extend hs
        · rw [if_neg hchannel]
          exact hto.extend hs
      · by_cases hi : i = run
        · obtain rfl : ⟨channel, id, fetched, left - 1, false⟩ = r' := by
            simpa [setRun, hi] using hr'
          exact ⟨b, hb, hnext.extend hs⟩
        · have hold : s.runs i = some r' := by simpa [setRun, advance, hi] using hr'
          obtain ⟨b', hb', hrun'⟩ := hrec.runs i r' hold
          exact ⟨b', hb', hrun'.extend hs⟩
    · exact hstay
  | leave run => exact hrec.set fun r hr => by cases hr
  | crash =>
    exact hrec.extend (.of_same rfl rfl fun r hr => ⟨r, hr, rfl⟩) (fun _ _ h => h)
      fun run r h => by cases h

theorem record_started {messages : TelegramMessages} {coverage : ℤ → Option ℤ}
    {posted deleted : ℤ → List ℤ} :
    (started messages coverage posted deleted).CatchupRecord coverage where
  unknown _ h := h
  covered channel b h := ⟨b, h, Or.inl rfl, fun i _ hlt hle => by omega⟩
  runs _ _ h := by cases h

theorem baseline_snoc (past : List (CatchupIntake × CatchupLabel)) (channel : ℤ) :
    s'.baseline (past ++ [(s, l)]) channel =
      (s.baseline past channel).or (s'.coverage channel) := by
  unfold baseline
  rw [List.map_append, List.findSome?_append]
  simp

end Steps

/-- In any order of posts, deletions, saves, runs, failures and crashes : every message that exists
strictly between the first coverage of its channel and the present one is kept. -/
theorem history_covered (u : Unicode) (perRunLimit : ℕ) (messages : TelegramMessages)
    (coverage : ℤ → Option ℤ) (posted deleted : ℤ → List ℤ) (labels : List CatchupLabel)
    {channel base covered id : ℤ} :
    let start := started messages coverage posted deleted
    let s := exec (step u perRunLimit) start labels
    s.baseline (visits (step u perRunLimit) start labels) channel = some base →
      s.coverage channel = some covered → id ∈ s.existing channel → base < id → id < covered →
        s.Handled channel id := by
  intro start s hbase hcovered hid hlt hgt
  have hrun := @visits_history _ _ start labels (step u perRunLimit)
    (fun s past => s.CatchupRecord fun channel => s.baseline past channel)
    (fun s l past hrec => ?_) [] ?_
  · obtain ⟨c, hc, hto⟩ := hrun.covered channel base hbase
    obtain rfl := Option.some.inj (hcovered.symm.trans hc)
    exact hto.handled id hid hlt hgt.le
  · simp only [baseline_snoc]
    exact record_step hrec
  · have hstart : (fun channel => start.baseline [] channel) = coverage := by
      funext channel
      simp only [baseline, List.map_nil, List.nil_append, List.findSome?_cons, List.findSome?_nil]
      change _ = start.coverage channel
      cases start.coverage channel <;> rfl
    rw [hstart]
    exact record_started

/-- A text of a channel, first seen without media. -/
def channelText (channelId messageId : ℤ) : RawTelegramMessage where
  channelId := channelId
  messageId := messageId
  revisionHash := "r"
  rawText := "LONG BTC"
  receivedAt := 0

/-- The third message is saved ahead of the catch-up, a run fails at the second one, and another
one gets to the third. -/
def aheadOfCatchup : List CatchupLabel :=
  [.post 7 1, .realtime (channelText 7 1) 0, .post 7 2, .post 7 3, .realtime (channelText 7 3) 0,
    .lookup 0 7, .fetch 0 50, .leave 0, .crash, .lookup 0 7, .fetch 0 50,
    .handle 0 (channelText 7 2) 1, .advance 0, .handle 0 (channelText 7 3) 1, .advance 0]

theorem aheadOfCatchup_covered :
    (exec (step ⟨Char.isAlphanum, id⟩ 50) (started Table.empty (fun _ => none) (fun _ => [])
      fun _ => []) aheadOfCatchup).Handled 7 2 := by
  refine @history_covered ⟨Char.isAlphanum, id⟩ 50 Table.empty (fun _ => none) (fun _ => [])
    (fun _ => []) aheadOfCatchup 7 1 3 2 ?_ ?_ ?_ (by decide) (by decide)
  · decide +kernel
  · decide +kernel
  · decide +kernel

end CatchupIntake

end FattyTrader
