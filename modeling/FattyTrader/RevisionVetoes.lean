import FattyTrader.SourceRevisions
import FattyTrader.Runs
import Mathlib.Data.List.Forall2

/-!
# The veto of an edit

Two kept revisions of a message that differ in their text veto the message : every revision has the
reason `edited-source-message`, and none is a source of an entry again. The repository in memory and
the one in PostgreSQL give the same reasons (`edits_vetoed`).

This holds of the saves where no revision arrives with a reason of its own, other than the veto, and
with another text than a kept one. PostgreSQL then vetoes the kept revisions but not the new one, and
the repository in memory vetoes none (`stale_edit_readmitted`). And an operator must not re-admit a
revision that was vetoed after its reason was read.
-/

set_option linter.unusedSectionVars false

open Tables Runs

namespace FattyTrader

/-! ## Texts with the same signal -/

section Texts

variable {u : Unicode} {c : Char} {cs spaces : List Char} {text₁ text₂ text₃ : String}

theorem stripChars_cons (h : isSpace c = true) : stripChars (c :: cs) = stripChars cs := by
  simp [stripChars, h]

theorem rdropWhile_append_spaces (h : ∀ c ∈ spaces, isSpace c = true) :
    (cs ++ spaces).rdropWhile isSpace = cs.rdropWhile isSpace := by
  have hreverse : ∀ c ∈ spaces.reverse, isSpace c = true := fun c hc => h c (List.mem_reverse.mp hc)
  simp only [List.rdropWhile, List.reverse_append, List.dropWhile_append_of_pos hreverse]

theorem stripChars_append (h : ∀ c ∈ spaces, isSpace c = true) :
    stripChars (cs ++ spaces) = stripChars cs := by
  unfold stripChars
  rw [List.dropWhile_append]
  split
  next hempty =>
    rw [List.isEmpty_iff.mp hempty, List.dropWhile_eq_nil_iff.mpr h]
  · exact rdropWhile_append_spaces h

theorem all_collapseSpaces (h : ∀ c ∈ spaces, isSpace c = true) :
    ∀ inRun, ∀ c ∈ collapseSpaces inRun spaces, isSpace c = true := by
  induction spaces with
  | nil => exact fun _ c hc => absurd hc List.not_mem_nil
  | cons c' spaces ih =>
    intro inRun c hc
    have hrest := ih fun c hc => h c (List.mem_cons_of_mem _ hc)
    simp only [collapseSpaces, h c' List.mem_cons_self, if_true] at hc
    split at hc
    · exact hrest true c hc
    · rcases List.mem_cons.mp hc with rfl | hc
      · decide
      · exact hrest true c hc

/-- Spaces at the end of a text stay at its end. -/
theorem collapseSpaces_append (cs : List Char) (h : ∀ c ∈ spaces, isSpace c = true)
    (inRun : Bool) : ∃ spaces', (∀ c ∈ spaces', isSpace c = true) ∧
      collapseSpaces inRun (cs ++ spaces) = collapseSpaces inRun cs ++ spaces' := by
  induction cs generalizing inRun with
  | nil => exact ⟨_, all_collapseSpaces h inRun, rfl⟩
  | cons c cs ih =>
    obtain ⟨spaces₁, h₁, htrue⟩ := ih true
    obtain ⟨spaces₂, h₂, hfalse⟩ := ih false
    simp only [List.cons_append, collapseSpaces, htrue, hfalse]
    split
    · split
      · exact ⟨spaces₁, h₁, rfl⟩
      · exact ⟨spaces₁, h₁, rfl⟩
    · exact ⟨spaces₂, h₂, rfl⟩

theorem stripChars_collapseSpaces :
    stripChars (collapseSpaces true cs) = stripChars (collapseSpaces false cs) := by
  cases cs with
  | nil => rfl
  | cons c cs =>
    simp only [collapseSpaces]
    split
    · exact (stripChars_cons (by decide)).symm
    · rfl

theorem cleanText_cons (h : isSpace c = true) : cleanText (c :: cs) = cleanText cs := by
  have hcollapse : collapseSpaces false (c :: cs) = ' ' :: collapseSpaces true cs := by
    simp [collapseSpaces, h]
  unfold cleanText
  rw [hcollapse, stripChars_cons (by decide), stripChars_collapseSpaces]

theorem cleanText_append (h : ∀ c ∈ spaces, isSpace c = true) :
    cleanText (cs ++ spaces) = cleanText cs := by
  obtain ⟨spaces', hspaces, happend⟩ := collapseSpaces_append cs h false
  unfold cleanText
  rw [happend, stripChars_append hspaces]

theorem cleanText_dropWhile : cleanText (cs.dropWhile isSpace) = cleanText cs := by
  induction cs with
  | nil => rfl
  | cons c cs ih =>
    rw [List.dropWhile_cons]
    split
    next hspace => rw [ih, cleanText_cons hspace]
    · rfl

/-- The clean text depends on what is between the outer spaces. -/
theorem cleanText_stripChars : cleanText (stripChars cs) = cleanText cs := by
  set inner := cs.dropWhile isSpace with hinner
  have hsplit : inner.rdropWhile isSpace ++ inner.rtakeWhile isSpace = inner :=
    List.rdropWhile_append_rtakeWhile
  have hspaces : ∀ c ∈ inner.rtakeWhile isSpace, isSpace c = true := fun c hc =>
    List.mem_rtakeWhile_imp hc
  calc cleanText (stripChars cs)
      = cleanText (inner.rdropWhile isSpace ++ inner.rtakeWhile isSpace) :=
        (cleanText_append hspaces).symm
    _ = cleanText inner := by rw [hsplit]
    _ = cleanText cs := cleanText_dropWhile

/-- Texts with the same signal have the same class. -/
def signalClass (u : Unicode) (text : String) : Option (List Char) :=
  if text = "" then none else some (signalKey u (cleanText text.toList))

theorem isSameSignalOrCosmetic_iff :
    isSameSignalOrCosmetic u text₁ text₂ = true ↔ signalClass u text₁ = signalClass u text₂ := by
  unfold isSameSignalOrCosmetic signalClass
  by_cases h₁ : text₁ = ""
  · by_cases h₂ : text₂ = ""
    · simp [h₁, h₂]
    · simp [h₁, h₂, Ne.symm h₂]
  by_cases h₂ : text₂ = ""
  · simp [h₁, h₂]
  rw [if_neg (by simp [h₁, h₂]), if_neg h₁, if_neg h₂, Option.some.injEq]
  split
  next hstrip =>
    have hclean : cleanText text₁.toList = cleanText text₂.toList := by
      rw [← cleanText_stripChars, hstrip, cleanText_stripChars]
    simp [hclean]
  · dsimp only
    split
    next hclean => simp [hclean]
    · exact decide_eq_true_iff

theorem sameSignal_refl : isSameSignalOrCosmetic u text₁ text₁ = true :=
  isSameSignalOrCosmetic_iff.mpr rfl

theorem sameSignal_symm (h : isSameSignalOrCosmetic u text₁ text₂ = true) :
    isSameSignalOrCosmetic u text₂ text₁ = true :=
  isSameSignalOrCosmetic_iff.mpr (isSameSignalOrCosmetic_iff.mp h).symm

theorem sameSignal_trans (h : isSameSignalOrCosmetic u text₁ text₂ = true)
    (h' : isSameSignalOrCosmetic u text₂ text₃ = true) :
    isSameSignalOrCosmetic u text₁ text₃ = true :=
  isSameSignalOrCosmetic_iff.mpr
    ((isSameSignalOrCosmetic_iff.mp h).trans (isSameSignalOrCosmetic_iff.mp h'))

end Texts

/-! ## The condition -/

/-- A save under a kept revision hash has its text, and a new revision with a reason of its own, other
than the veto, has the signal of the kept ones. -/
structure SaveMeets (u : Unicode) (s : Intake) (m : RawTelegramMessage) : Prop where
  sameText : ∀ r ∈ s.postgres, r.key = m.key → r.revision.rawText = m.rawText
  sameSignal : (∀ r ∈ s.postgres, r.key ≠ m.key) → m.entryRejectionReason = none ∨ m.vetoed = true ∨
    ∀ r ∈ s.postgres, r.revision.message = m.message →
      isSameSignalOrCosmetic u r.revision.rawText m.rawText = true

/-- What a step must meet. -/
def IntakeMeets (u : Unicode) (s : Intake) : IntakeLabel → Prop
  | .save m _ => SaveMeets u s m
  | .forward m _ => SaveMeets u s m
  | .override key _ _ => ∀ r ∈ s.postgres, r.key = key → r.revision.vetoed = false

/-- Once two kept revisions of a message differ, none of its revisions is eligible, and both
repositories keep the same revisions with the same reasons. An operator's override is in PostgreSQL
only. -/
structure EditsVetoed (u : Unicode) (s : Intake) : Prop where
  ineligible : ∀ r ∈ s.postgres, ∀ r' ∈ s.postgres, r.revision.message = r'.revision.message →
    isSameSignalOrCosmetic u r.revision.rawText r'.revision.rawText = false →
      ∀ q ∈ s.postgres, q.revision.message = r.revision.message →
        ∀ now, sourceEligible s.postgres now q = false
  keys : s.memory.rows.map RawTelegramMessage.key = s.postgres.rows.map TelegramRow.key
  reasons : ∀ x ∈ s.memory, ∀ r ∈ s.postgres, x.key = r.key → r.reAdmissionReference = none →
    x.entryRejectionReason = r.revision.entryRejectionReason

abbrev intakeStep (u : Unicode) (s : Intake) (l : IntakeLabel) (t : Intake) : Prop :=
  s.step u l = some t

/-! ## The rows of both repositories -/

/-- A revision in memory and its row. -/
structure Mirrors (x : RawTelegramMessage) (r : TelegramRow) : Prop where
  key : x.key = r.key
  text : x.rawText = r.revision.rawText
  expires : x.entryExpiresAt = r.revision.entryExpiresAt
  vetoed : x.vetoed = r.revision.vetoed
  unprocessed : r.intakeState = .received ∨ r.intakeState = .expired
  same : r.reAdmissionReference = none →
    x.entryRejectionReason = r.revision.entryRejectionReason ∧
      x.media.path = r.revision.media.path

/-- The messages of which two revisions differ are vetoed. -/
def AllVetoed (u : Unicode) (rows : List TelegramRow) : Prop :=
  ∀ r ∈ rows, ∀ r' ∈ rows, r.revision.message = r'.revision.message →
    isSameSignalOrCosmetic u r.revision.rawText r'.revision.rawText = false →
      ∀ q ∈ rows, q.revision.message = r.revision.message → q.revision.vetoed = true

structure IntakeInv (u : Unicode) (s : Intake) : Prop where
  mirrors : List.Forall₂ Mirrors s.memory.rows s.postgres.rows
  vetoed : AllVetoed u s.postgres.rows

section Rows

variable {u : Unicode} {s : Intake} {m x : RawTelegramMessage} {r : TelegramRow} {now : Instant}
  {xs : List RawTelegramMessage} {rs : List TelegramRow}

theorem Mirrors.message (h : Mirrors x r) : x.message = r.revision.message :=
  congrArg Prod.fst h.key

theorem vetoed_iff : m.vetoed = true ↔ m.entryRejectionReason = some .editedSourceMessage := by
  simp [RawTelegramMessage.vetoed]

theorem any_mirrors (h : List.Forall₂ Mirrors xs rs) {p : RawTelegramMessage → Bool}
    {q : TelegramRow → Bool} (hpq : ∀ x r, Mirrors x r → p x = q r) : xs.any p = rs.any q := by
  induction h with
  | nil => rfl
  | cons hrow _ ih => rw [List.any_cons, List.any_cons, hpq _ _ hrow, ih]

/-- What the siblings of a revision are asked has one answer. -/
theorem any_siblings (h : List.Forall₂ Mirrors s.memory.rows s.postgres.rows)
    {p : RawTelegramMessage → Bool} {q : TelegramRow → Bool} (hpq : ∀ x r, Mirrors x r → p x = q r) :
    (InMemoryRawMessageRepository.siblings s.memory m).any p =
      (PostgresRawMessageRepository.retained s.postgres m).any q := by
  unfold InMemoryRawMessageRepository.siblings PostgresRawMessageRepository.retained
  rw [List.any_filter, List.any_filter]
  exact any_mirrors h fun x r hrow => by rw [hrow.message, hpq x r hrow]

theorem exists_mirror (h : List.Forall₂ Mirrors xs rs) (hx : x ∈ xs) : ∃ r ∈ rs, Mirrors x r := by
  induction h with
  | nil => cases hx
  | cons hrow _ ih =>
    rcases List.mem_cons.mp hx with rfl | hx
    · exact ⟨_, List.mem_cons_self, hrow⟩
    · obtain ⟨r, hr, hmirrors⟩ := ih hx
      exact ⟨r, List.mem_cons_of_mem _ hr, hmirrors⟩

theorem ne_nil_iff_any {α : Type} {l : List α} : l ≠ [] ↔ l.any (fun _ => true) = true := by
  cases l <;> simp

theorem classify_eq (h : List.Forall₂ Mirrors s.memory.rows s.postgres.rows) :
    InMemoryRawMessageRepository.classify u s.memory m =
      PostgresRawMessageRepository.classifyRevision u s.postgres m := by
  have hnil : InMemoryRawMessageRepository.siblings s.memory m ≠ [] ↔
      PostgresRawMessageRepository.retained s.postgres m ≠ [] := by
    rw [ne_nil_iff_any, ne_nil_iff_any, any_siblings h fun _ _ _ => rfl]
  have hvetoed := any_siblings (m := m) h (p := (·.vetoed)) (q := (·.revision.vetoed))
    fun _ _ hrow => hrow.vetoed
  have hsame := any_siblings (m := m) h (p := (isSameSignalOrCosmetic u ·.rawText m.rawText))
    (q := (isSameSignalOrCosmetic u ·.revision.rawText m.rawText)) fun _ _ hrow => by rw [hrow.text]
  unfold InMemoryRawMessageRepository.classify PostgresRawMessageRepository.classifyRevision
  dsimp only
  rw [hvetoed, hsame]
  cases hreason : m.entryRejectionReason with
  | some reason => simp
  | none =>
    by_cases hempty : PostgresRawMessageRepository.retained s.postgres m = []
    · have hempty' : ¬ InMemoryRawMessageRepository.siblings s.memory m ≠ [] := fun hne =>
        hnil.mp hne hempty
      simp [hempty, hempty']
    · rw [if_pos ⟨rfl, hnil.mpr hempty⟩, if_neg hempty]
      cases (PostgresRawMessageRepository.retained s.postgres m).any (·.revision.vetoed) <;>
        cases (PostgresRawMessageRepository.retained s.postgres m).any
          (isSameSignalOrCosmetic u ·.revision.rawText m.rawText) <;> rfl

theorem mirrors_find (h : List.Forall₂ Mirrors s.memory.rows s.postgres.rows) :
    (∀ x ∈ s.memory, x.key ≠ m.key) ↔ ∀ r ∈ s.postgres, r.key ≠ m.key := by
  have hany := any_mirrors h (p := fun x => x.key = m.key) (q := fun r => r.key = m.key)
    fun x r hrow => by rw [hrow.key]
  constructor
  · intro hx
    have hfalse : s.memory.rows.any (fun x => x.key = m.key) = false := by
      simpa [List.any_eq_false, Table.mem_iff] using hx
    rw [hany] at hfalse
    simpa [List.any_eq_false, Table.mem_iff] using hfalse
  · intro hr
    have hfalse : s.postgres.rows.any (fun r => r.key = m.key) = false := by
      simpa [List.any_eq_false, Table.mem_iff] using hr
    rw [← hany] at hfalse
    simpa [List.any_eq_false, Table.mem_iff] using hfalse

end Rows

/-! ## A save -/

section Save

variable {u : Unicode} {s : Intake} {m x : RawTelegramMessage} {r : TelegramRow} {now : Instant}
  {rs : List TelegramRow}

theorem revoked_eq_self (h : r.revision.message = m.message →
    isSameSignalOrCosmetic u r.revision.rawText m.rawText = true ∨ r.revision.vetoed = true) :
    PostgresRawMessageRepository.revoked u m r = r := by
  unfold PostgresRawMessageRepository.revoked
  split
  next hdiffers =>
    rcases h hdiffers.1 with hsame | hvetoed
    · rw [hdiffers.2] at hsame
      cases hsame
    · obtain ⟨⟨_, _, _, _, _, _, _, _, _, reason⟩, _, _⟩ := r
      have hreason : reason = some .editedSourceMessage := vetoed_iff.mp hvetoed
      rw [hreason]
  · rfl

/-- What healing does to a row. -/
def healRow (m : RawTelegramMessage) (now : Instant) (r : TelegramRow) : TelegramRow :=
  if m.media.path = none ∨ m.entryRejectionReason ≠ none then r
  else PostgresRawMessageRepository.healed m now r

theorem rows_healMedia (t : TelegramMessages) :
    (PostgresRawMessageRepository.healMedia t m now).rows = t.rows.map (healRow m now) := by
  unfold PostgresRawMessageRepository.healMedia healRow
  split
  · exact (List.map_id _).symm
  · rfl

theorem healRow_of_key_ne (h : r.key ≠ m.key) : healRow m now r = r := by
  unfold healRow PostgresRawMessageRepository.healed PostgresRawMessageRepository.healable
  simp [h]

theorem healRow_newRow (reason : Option RejectionReason) :
    healRow m now (PostgresRawMessageRepository.newRow m reason) =
      PostgresRawMessageRepository.newRow m reason := by
  unfold healRow
  split
  · rfl
  next hnot =>
    have hpath : m.media.path ≠ none := fun h => hnot (Or.inl h)
    unfold PostgresRawMessageRepository.healed PostgresRawMessageRepository.healable
    simp [PostgresRawMessageRepository.newRow, hpath]

/-- A healed row is one without a veto. -/
theorem healRow_cases (m : RawTelegramMessage) (now : Instant) (r : TelegramRow) :
    healRow m now r = r ∨ r.revision.vetoed = false ∧ r.key = m.key ∧
    healRow m now r = { r with
      revision := { r.revision with media := m.media, entryRejectionReason := none }
      intakeState := .received } := by
  unfold healRow PostgresRawMessageRepository.healed
  split
  · exact Or.inl rfl
  split
  next hheal =>
    simp only [PostgresRawMessageRepository.healable, Bool.and_eq_true, decide_eq_true_eq] at hheal
    refine Or.inr ⟨?_, hheal.1.1.1.1, rfl⟩
    have hreason := hheal.2
    unfold RawTelegramMessage.vetoed
    cases hr : r.revision.entryRejectionReason with
    | none => rfl
    | some reason =>
      rw [hr] at hreason
      cases reason <;> first | rfl | cases hreason
  · exact Or.inl rfl

theorem healRow_frame (m : RawTelegramMessage) (now : Instant) (r : TelegramRow) :
    (healRow m now r).key = r.key ∧
    (healRow m now r).revision.message = r.revision.message ∧
    (healRow m now r).revision.rawText = r.revision.rawText ∧
    (healRow m now r).revision.vetoed = r.revision.vetoed := by
  rcases healRow_cases m now r with h | ⟨hvetoed, -, h⟩
  · simp only [h, and_self]
  · rw [h, hvetoed]
    exact ⟨rfl, rfl, rfl, rfl⟩

/-- Rows with the same texts and vetoes. -/
theorem AllVetoed.map (h : AllVetoed u rs) {f : TelegramRow → TelegramRow}
    (hf : ∀ r, (f r).revision.message = r.revision.message ∧
      (f r).revision.rawText = r.revision.rawText)
    (hvetoed : ∀ r ∈ rs, r.revision.vetoed = true → (f r).revision.vetoed = true) :
    AllVetoed u (rs.map f) := by
  intro a' ha' b' hb' hmessage hdiffers q' hq' hqm
  obtain ⟨a, ha, rfl⟩ := List.mem_map.mp ha'
  obtain ⟨b, hb, rfl⟩ := List.mem_map.mp hb'
  obtain ⟨q, hq, rfl⟩ := List.mem_map.mp hq'
  rw [(hf a).1] at hmessage hqm
  rw [(hf b).1] at hmessage
  rw [(hf q).1] at hqm
  rw [(hf a).2, (hf b).2] at hdiffers
  exact hvetoed q hq (h a ha b hb hmessage hdiffers q hq hqm)

/-- Whatever is kept of a message has the signal of one row, or is vetoed. -/
theorem AllVetoed.same_or_vetoed (h : AllVetoed u rs) {a b : TelegramRow} (ha : a ∈ rs) (hb : b ∈ rs)
    (hmessage : a.revision.message = b.revision.message) :
    isSameSignalOrCosmetic u a.revision.rawText b.revision.rawText = true ∨
      a.revision.vetoed = true := by
  cases hsame : isSameSignalOrCosmetic u a.revision.rawText b.revision.rawText with
  | true => exact Or.inl rfl
  | false => exact Or.inr (h a ha b hb hmessage hsame a ha rfl)

/-! ### A revision that is kept already -/

/-- What healing in memory does to a revision. -/
def healRevision (m : RawTelegramMessage) (now : Instant) (x : RawTelegramMessage) :
    RawTelegramMessage :=
  if InMemoryRawMessageRepository.healable m now x then InMemoryRawMessageRepository.healed m x
  else x

theorem memory_dup (hx : x ∈ s.memory) (hkey : x.key = m.key) :
    (InMemoryRawMessageRepository.saveIfNew u s.memory m now).1.rows =
      s.memory.rows.map (healRevision m now) := by
  have hfind : s.memory.find RawTelegramMessage.key m.key = some x :=
    (Table.find_eq_some_iff fun _ _ h => h).mpr ⟨hx, hkey⟩
  unfold InMemoryRawMessageRepository.saveIfNew InMemoryRawMessageRepository.keep
  rw [hfind]
  dsimp only
  have hother : ∀ y ∈ s.memory.rows, y.key ≠ m.key →
      InMemoryRawMessageRepository.healed m y = y := fun y _ hne => if_neg hne
  have honly : ∀ y ∈ s.memory.rows, y.key = m.key → y = x := fun y hy hk =>
    Table.eq_of_key hy hx (hk.trans hkey.symm)
  split
  next hheal =>
    refine List.map_congr_left fun y hy => ?_
    unfold healRevision
    by_cases hk : y.key = m.key
    · rw [honly y hy hk, if_pos hheal]
    · rw [hother y hy hk, ite_self]
  next hheal =>
    refine ((List.map_congr_left fun y hy => ?_).trans (List.map_id _)).symm
    unfold healRevision
    by_cases hk : y.key = m.key
    · rw [honly y hy hk, if_neg hheal]
      rfl
    · rw [hother y hy hk, ite_self]
      rfl

theorem insertNew_dup {t : TelegramMessages} (hr : r ∈ t) (hkey : r.key = m.key)
    (reason : Option RejectionReason) :
    t.insertNew (PostgresRawMessageRepository.newRow m reason) = t :=
  Table.insertNew_of_conflict hr (show r.key = m.key from hkey)

/-- Where the text of the kept revision is the text of the message, no row loses its reason. -/
theorem postgres_dup (hinv : AllVetoed u s.postgres.rows) (hr : r ∈ s.postgres)
    (hkey : r.key = m.key) (htext : r.revision.rawText = m.rawText) :
    (PostgresRawMessageRepository.saveIfNew u s.postgres m now).1.rows =
      s.postgres.rows.map (healRow m now) := by
  unfold PostgresRawMessageRepository.saveIfNew PostgresRawMessageRepository.revokeEditedSource
  dsimp only [Table.rewrite]
  rw [insertNew_dup hr hkey, rows_healMedia]
  refine (List.map_congr_left fun q' hq' => ?_).trans (List.map_id _)
  obtain ⟨q, hq, rfl⟩ := List.mem_map.mp hq'
  obtain ⟨-, hmessage, hrawText, hvetoed⟩ := healRow_frame m now q
  refine revoked_eq_self fun h => ?_
  rw [hrawText, hvetoed, ← htext]
  refine hinv.same_or_vetoed hq hr ?_
  rw [← hmessage, h]
  exact (congrArg Prod.fst hkey).symm

/-- The media of the message are taken over. -/
def Heals (m : RawTelegramMessage) (now : Instant) (x : RawTelegramMessage) : Prop :=
  m.media.path ≠ none ∧ m.entryRejectionReason = none ∧ x.key = m.key ∧ x.media.path = none ∧
    x.entryExpiresAt.any (now < ·) = true ∧ healableReason x.entryRejectionReason = true

theorem healRevision_of (h : Heals m now x) : healRevision m now x =
    { x with media := m.media, entryRejectionReason := none } := by
  obtain ⟨hpath, hreason, hkey, hnone, hexpires, hhealable⟩ := h
  have hheal : InMemoryRawMessageRepository.healable m now x = true := by
    simp [InMemoryRawMessageRepository.healable, hreason, hnone, hexpires, hhealable,
      Option.isSome_iff_ne_none, hpath]
  unfold healRevision InMemoryRawMessageRepository.healed
  rw [if_pos hheal, if_pos hkey]

theorem healRevision_of_not (h : ¬ Heals m now x) : healRevision m now x = x := by
  unfold healRevision InMemoryRawMessageRepository.healed
  split
  next hheal =>
    simp only [InMemoryRawMessageRepository.healable, Bool.and_eq_true, decide_eq_true_eq,
      Option.isSome_iff_ne_none] at hheal
    obtain ⟨⟨⟨⟨hnone, hpath⟩, hreason⟩, hhealable⟩, hexpires⟩ := hheal
    exact if_neg fun hkey => h ⟨hpath, hreason, hkey, hnone, hexpires, hhealable⟩
  · rfl

theorem healRow_of (h : Heals m now r.revision)
    (hopen : r.intakeState = .received ∨ r.intakeState = .expired) : healRow m now r = { r with
      revision := { r.revision with media := m.media, entryRejectionReason := none }
      intakeState := .received } := by
  obtain ⟨hpath, hreason, hkey, hnone, hexpires, hhealable⟩ := h
  have hkey' : r.key = m.key := hkey
  have hheal : PostgresRawMessageRepository.healable m now r = true := by
    simp [PostgresRawMessageRepository.healable, hkey', hnone, hexpires, hhealable, hopen]
  unfold healRow PostgresRawMessageRepository.healed
  rw [if_neg (by simp [hpath, hreason]), if_pos hheal]

theorem healRow_of_not (h : ¬ Heals m now r.revision) : healRow m now r = r := by
  unfold healRow PostgresRawMessageRepository.healed
  split
  · rfl
  next hmedia =>
    split
    next hheal =>
      push Not at hmedia
      simp only [PostgresRawMessageRepository.healable, Bool.and_eq_true, decide_eq_true_eq] at hheal
      exact absurd ⟨hmedia.1, hmedia.2, hheal.1.1.1.1, hheal.1.1.1.2, hheal.1.1.2, hheal.2⟩ h
    · rfl

theorem healableReason_of_vetoed (h : x.vetoed = true) :
    healableReason x.entryRejectionReason = false := by
  rw [vetoed_iff.mp h]
  rfl

/-- Healing in memory and in PostgreSQL. A revision that an operator overrode may be healed in one
place only. -/
theorem Mirrors.healed (h : Mirrors x r) : Mirrors (healRevision m now x) (healRow m now r) := by
  have hveto : ∀ {y : RawTelegramMessage}, Heals m now y → y.vetoed = false := fun hheals => by
    rw [← Bool.not_eq_true]
    intro hvetoed
    have := hheals.2.2.2.2.2
    rw [healableReason_of_vetoed hvetoed] at this
    cases this
  have hx : (healRevision m now x).key = x.key ∧ (healRevision m now x).rawText = x.rawText ∧
      (healRevision m now x).entryExpiresAt = x.entryExpiresAt ∧
      (healRevision m now x).vetoed = x.vetoed := by
    by_cases hheals : Heals m now x
    · rw [healRevision_of hheals, hveto hheals]
      exact ⟨rfl, rfl, rfl, rfl⟩
    · rw [healRevision_of_not hheals]
      exact ⟨rfl, rfl, rfl, rfl⟩
  have hr : (healRow m now r).key = r.key ∧
      (healRow m now r).revision.rawText = r.revision.rawText ∧
      (healRow m now r).revision.entryExpiresAt = r.revision.entryExpiresAt ∧
      (healRow m now r).revision.vetoed = r.revision.vetoed ∧
      (healRow m now r).reAdmissionReference = r.reAdmissionReference := by
    by_cases hheals : Heals m now r.revision
    · rw [healRow_of hheals h.unprocessed, hveto hheals]
      exact ⟨rfl, rfl, rfl, rfl, rfl⟩
    · rw [healRow_of_not hheals]
      exact ⟨rfl, rfl, rfl, rfl, rfl⟩
  refine ⟨hx.1.trans (h.key.trans hr.1.symm), hx.2.1.trans (h.text.trans hr.2.1.symm),
    hx.2.2.1.trans (h.expires.trans hr.2.2.1.symm), hx.2.2.2.trans (h.vetoed.trans hr.2.2.2.1.symm),
    ?_, fun hreference => ?_⟩
  · by_cases hheals : Heals m now r.revision
    · rw [healRow_of hheals h.unprocessed]
      exact Or.inl rfl
    · rw [healRow_of_not hheals]
      exact h.unprocessed
  · obtain ⟨hreason, hpath⟩ := h.same (hr.2.2.2.2 ▸ hreference)
    have hiff : Heals m now x ↔ Heals m now r.revision := by
      have hkey : x.key = r.revision.key := h.key
      unfold Heals
      rw [hkey, hpath, h.expires, hreason]
    by_cases hheals : Heals m now x
    · rw [healRevision_of hheals, healRow_of (hiff.mp hheals) h.unprocessed]
      exact ⟨rfl, rfl⟩
    · rw [healRevision_of_not hheals, healRow_of_not (fun hr => hheals (hiff.mpr hr))]
      exact ⟨hreason, hpath⟩

theorem inv_dup (hinv : IntakeInv u s) (hr : r ∈ s.postgres) (hkey : r.key = m.key)
    (htext : r.revision.rawText = m.rawText) :
    IntakeInv u ⟨(InMemoryRawMessageRepository.saveIfNew u s.memory m now).1,
      (PostgresRawMessageRepository.saveIfNew u s.postgres m now).1⟩ := by
  have hx : ∃ x ∈ s.memory, x.key = m.key := by
    by_contra hnone
    push Not at hnone
    exact (mirrors_find hinv.mirrors).mp hnone r hr hkey
  obtain ⟨x, hx, hxkey⟩ := hx
  refine ⟨?_, ?_⟩
  · dsimp only
    rw [memory_dup hx hxkey, postgres_dup hinv.vetoed hr hkey htext]
    exact List.forall₂_map_left_iff.mpr (List.forall₂_map_right_iff.mpr
      (hinv.mirrors.imp fun _ _ hrow => hrow.healed))
  · dsimp only
    rw [postgres_dup hinv.vetoed hr hkey htext]
    exact hinv.vetoed.map (fun q => ⟨(healRow_frame m now q).2.1, (healRow_frame m now q).2.2.1⟩)
      fun q _ hvetoed => (healRow_frame m now q).2.2.2.trans hvetoed

/-! ### A new revision -/

theorem memory_new (u : Unicode) (now : Instant) (hnew : ∀ x ∈ s.memory, x.key ≠ m.key) :
    (InMemoryRawMessageRepository.saveIfNew u s.memory m now).1.rows =
      (if InMemoryRawMessageRepository.classify u s.memory m = some .editedSourceMessage then
        s.memory.rows.map (InMemoryRawMessageRepository.revoked u m)
      else s.memory.rows) ++
        [{ m with entryRejectionReason := InMemoryRawMessageRepository.classify u s.memory m }] := by
  have hfind : s.memory.find RawTelegramMessage.key m.key = none := Table.find_eq_none_iff.mpr hnew
  have hheal : ∀ reason, InMemoryRawMessageRepository.healable m now
      { m with entryRejectionReason := reason } = false := fun reason => by
    unfold InMemoryRawMessageRepository.healable
    cases m.media.path <;> simp
  unfold InMemoryRawMessageRepository.saveIfNew InMemoryRawMessageRepository.keep
  rw [hfind]
  dsimp only
  rw [hheal, if_neg Bool.false_ne_true]
  split
  · refine Table.rows_insertNew_of fun x hx hkey => ?_
    obtain ⟨y, hy, rfl⟩ := List.mem_map.mp hx
    exact hnew y hy ((InMemoryRawMessageRepository.key_revoked u m y).symm.trans hkey)
  · exact Table.rows_insertNew_of fun x hx hkey => hnew x hx hkey

theorem postgres_new (u : Unicode) (now : Instant) (hnew : ∀ r ∈ s.postgres, r.key ≠ m.key) :
    (PostgresRawMessageRepository.saveIfNew u s.postgres m now).1.rows =
      s.postgres.rows.map (PostgresRawMessageRepository.revoked u m) ++
        [PostgresRawMessageRepository.newRow m
          (PostgresRawMessageRepository.classifyRevision u s.postgres m)] := by
  set row := PostgresRawMessageRepository.newRow m
    (PostgresRawMessageRepository.classifyRevision u s.postgres m) with hrow
  have hinsert : (s.postgres.insertNew row).rows = s.postgres.rows ++ [row] :=
    Table.rows_insertNew_of fun r hr hkey => hnew r hr hkey
  have hhealed : s.postgres.rows.map (healRow m now) = s.postgres.rows :=
    (List.map_congr_left fun r hr => healRow_of_key_ne (hnew r hr)).trans (List.map_id _)
  have hown : PostgresRawMessageRepository.revoked u m row = row :=
    revoked_eq_self fun _ => Or.inl sameSignal_refl
  unfold PostgresRawMessageRepository.saveIfNew PostgresRawMessageRepository.revokeEditedSource
  dsimp only [Table.rewrite]
  rw [rows_healMedia, ← hrow, hinsert, List.map_append, hhealed, List.map_append]
  simp only [List.map_cons, List.map_nil, hrow, healRow_newRow]
  rw [← hrow, hown]

/-- A new revision that is not a veto has the signal of what is kept. -/
theorem same_of_classify (hinv : IntakeInv u s) (hmeets : SaveMeets u s m)
    (hnew : ∀ r ∈ s.postgres, r.key ≠ m.key)
    (hclass : PostgresRawMessageRepository.classifyRevision u s.postgres m ≠
      some .editedSourceMessage) (hr : r ∈ s.postgres) (hmessage : r.revision.message = m.message) :
    isSameSignalOrCosmetic u r.revision.rawText m.rawText = true := by
  have hretained : r ∈ PostgresRawMessageRepository.retained s.postgres m :=
    List.mem_filter.mpr ⟨hr, by simpa using hmessage⟩
  unfold PostgresRawMessageRepository.classifyRevision at hclass
  cases hreason : m.entryRejectionReason with
  | some reason =>
    rw [hreason] at hclass
    rcases hmeets.sameSignal hnew with hnone | hvetoed | hsame
    · rw [hreason] at hnone
      cases hnone
    · exact absurd (hreason.symm.trans (vetoed_iff.mp hvetoed)) hclass
    · exact hsame r hr hmessage
  | none =>
    rw [hreason] at hclass
    dsimp only at hclass
    rw [if_neg (List.ne_nil_of_mem hretained)] at hclass
    split at hclass
    · exact absurd rfl hclass
    next hvetoed =>
      split at hclass
      swap
      · exact absurd rfl hclass
      next hsame =>
        obtain ⟨q, hq, hsame⟩ := List.any_eq_true.mp hsame
        obtain ⟨hq, hqm⟩ := List.mem_filter.mp hq
        have hqm' : q.revision.message = m.message := by simpa using hqm
        rcases hinv.vetoed.same_or_vetoed hr hq (hmessage.trans hqm'.symm) with hrq | hveto
        · exact sameSignal_trans hrq hsame
        · exact absurd (List.any_eq_true.mpr ⟨r, hretained, hveto⟩) hvetoed

/-- A veto in memory and in PostgreSQL. -/
theorem Mirrors.revoked (h : Mirrors x r) :
    Mirrors (InMemoryRawMessageRepository.revoked u m x)
      (PostgresRawMessageRepository.revoked u m r) := by
  unfold InMemoryRawMessageRepository.revoked PostgresRawMessageRepository.revoked
  rw [h.message, h.text]
  split
  · exact ⟨h.key, rfl, h.expires, rfl, h.unprocessed, fun hreference => ⟨rfl, (h.same hreference).2⟩⟩
  · exact h

theorem mirrors_newRow (reason : Option RejectionReason) :
    Mirrors { m with entryRejectionReason := reason }
      (PostgresRawMessageRepository.newRow m reason) := by
  refine ⟨rfl, rfl, rfl, rfl, ?_, fun _ => ⟨rfl, rfl⟩⟩
  cases reason
  · exact Or.inl rfl
  · exact Or.inr rfl

theorem revoked_frame : (PostgresRawMessageRepository.revoked u m r).revision.message =
      r.revision.message ∧
    (PostgresRawMessageRepository.revoked u m r).revision.rawText = r.revision.rawText ∧
    (r.revision.vetoed = true →
      (PostgresRawMessageRepository.revoked u m r).revision.vetoed = true) := by
  unfold PostgresRawMessageRepository.revoked
  split
  · exact ⟨rfl, rfl, fun _ => rfl⟩
  · exact ⟨rfl, rfl, id⟩

/-- The rows after a new revision whose siblings have its signal. -/
theorem allVetoed_same (h : AllVetoed u rs) {row : TelegramRow}
    (hsame : ∀ r ∈ rs, r.revision.message = row.revision.message →
      isSameSignalOrCosmetic u r.revision.rawText row.revision.rawText = true) :
    AllVetoed u (rs ++ [row]) := by
  -- whatever has the message of the new row has its signal
  have hrow : ∀ r ∈ rs ++ [row], r.revision.message = row.revision.message →
      isSameSignalOrCosmetic u r.revision.rawText row.revision.rawText = true := by
    intro r hr hmessage
    rcases List.mem_append.mp hr with hr | hr
    · exact hsame r hr hmessage
    · rw [List.mem_singleton.mp hr]
      exact sameSignal_refl
  intro a ha b hb hmessage hdiffers q hq hqm
  by_cases ham : a.revision.message = row.revision.message
  · have hab := sameSignal_trans (hrow a ha ham)
      (sameSignal_symm (hrow b hb (hmessage.symm.trans ham)))
    rw [hdiffers] at hab
    cases hab
  · have hold : ∀ r ∈ rs ++ [row], r.revision.message = a.revision.message → r ∈ rs := by
      intro r hr hrm
      rcases List.mem_append.mp hr with hr | hr
      · exact hr
      · rw [List.mem_singleton.mp hr] at hrm
        exact absurd hrm.symm ham
    exact h a (hold a ha rfl) b (hold b hb hmessage.symm) hmessage hdiffers q (hold q hq hqm) hqm

/-- The rows after a new revision that is a veto. -/
theorem allVetoed_veto (h : AllVetoed u rs) {row : TelegramRow} (hrow : row.revision.vetoed = true)
    (hmessage : row.revision.message = m.message) (htext : row.revision.rawText = m.rawText) :
    AllVetoed u (rs.map (PostgresRawMessageRepository.revoked u m) ++ [row]) := by
  by_cases hsame : ∀ r ∈ rs, r.revision.message = m.message →
      isSameSignalOrCosmetic u r.revision.rawText m.rawText = true
  · have hmap : rs.map (PostgresRawMessageRepository.revoked u m) = rs :=
      (List.map_congr_left fun r hr => revoked_eq_self fun hrm => Or.inl (hsame r hr hrm)).trans
        (List.map_id _)
    rw [hmap]
    exact allVetoed_same h fun r hr hrm => by
      rw [htext]
      exact hsame r hr (hrm.trans hmessage)
  push Not at hsame
  obtain ⟨p, hp, hpm, hpd⟩ := hsame
  rw [ne_eq, Bool.not_eq_true] at hpd
  -- one row differs from the new one : each row of the message differs from it, or from that row
  have hall : ∀ q ∈ rs.map (PostgresRawMessageRepository.revoked u m) ++ [row],
      q.revision.message = m.message → q.revision.vetoed = true := by
    intro q hq hqm
    rcases List.mem_append.mp hq with hq | hq
    swap
    · rw [List.mem_singleton.mp hq]
      exact hrow
    obtain ⟨r, hr, rfl⟩ := List.mem_map.mp hq
    rw [revoked_frame.1] at hqm
    cases hrs : isSameSignalOrCosmetic u r.revision.rawText m.rawText with
    | false =>
      unfold PostgresRawMessageRepository.revoked
      rw [if_pos ⟨hqm, hrs⟩]
      rfl
    | true =>
      refine revoked_frame.2.2 ?_
      rcases h.same_or_vetoed hr hp (hqm.trans hpm.symm) with hrp | hvetoed
      · have := sameSignal_trans (sameSignal_symm hrp) hrs
        rw [hpd] at this
        cases this
      · exact hvetoed
  intro a ha b hb hab hdiffers q hq hqm
  by_cases ham : a.revision.message = m.message
  · exact hall q hq (hqm.trans ham)
  · have hold : ∀ r ∈ rs.map (PostgresRawMessageRepository.revoked u m) ++ [row],
        r.revision.message = a.revision.message →
          r ∈ rs.map (PostgresRawMessageRepository.revoked u m) := by
      intro r hr hrm
      rcases List.mem_append.mp hr with hr | hr
      · exact hr
      · rw [List.mem_singleton.mp hr, hmessage] at hrm
        exact absurd hrm.symm ham
    exact (h.map (fun r => ⟨revoked_frame.1, revoked_frame.2.1⟩) fun _ _ => revoked_frame.2.2) a
      (hold a ha rfl) b (hold b hb hab.symm) hab hdiffers q (hold q hq hqm) hqm

theorem inv_new (hinv : IntakeInv u s) (hmeets : SaveMeets u s m)
    (hnew : ∀ r ∈ s.postgres, r.key ≠ m.key) :
    IntakeInv u ⟨(InMemoryRawMessageRepository.saveIfNew u s.memory m now).1,
      (PostgresRawMessageRepository.saveIfNew u s.postgres m now).1⟩ := by
  have hmemory := memory_new u now ((mirrors_find hinv.mirrors).mpr hnew)
  have hpostgres := postgres_new u now hnew
  rw [classify_eq hinv.mirrors] at hmemory
  set reason := PostgresRawMessageRepository.classifyRevision u s.postgres m with hreason
  by_cases hclass : reason = some .editedSourceMessage
  · rw [if_pos hclass] at hmemory
    refine ⟨?_, ?_⟩
    · dsimp only
      rw [hmemory, hpostgres]
      refine List.rel_append ?_ (.cons (mirrors_newRow reason) .nil)
      exact List.forall₂_map_left_iff.mpr (List.forall₂_map_right_iff.mpr
        (hinv.mirrors.imp fun _ _ hrow => hrow.revoked))
    · dsimp only
      rw [hpostgres]
      exact allVetoed_veto hinv.vetoed (vetoed_iff.mpr hclass) rfl rfl
  · have hsame : ∀ r ∈ s.postgres, r.revision.message = m.message →
        isSameSignalOrCosmetic u r.revision.rawText m.rawText = true := fun r hr hrm =>
      same_of_classify hinv hmeets hnew hclass hr hrm
    have hmap : s.postgres.rows.map (PostgresRawMessageRepository.revoked u m) = s.postgres.rows :=
      (List.map_congr_left fun r hr => revoked_eq_self fun hrm => Or.inl (hsame r hr hrm)).trans
        (List.map_id _)
    rw [if_neg hclass] at hmemory
    rw [hmap] at hpostgres
    refine ⟨?_, ?_⟩
    · dsimp only
      rw [hmemory, hpostgres]
      exact List.rel_append hinv.mirrors (.cons (mirrors_newRow reason) .nil)
    · dsimp only
      rw [hpostgres]
      exact allVetoed_same hinv.vetoed hsame

theorem inv_save (now : Instant) (hinv : IntakeInv u s) (hmeets : SaveMeets u s m) :
    IntakeInv u ⟨(InMemoryRawMessageRepository.saveIfNew u s.memory m now).1,
      (PostgresRawMessageRepository.saveIfNew u s.postgres m now).1⟩ := by
  by_cases hnew : ∀ r ∈ s.postgres, r.key ≠ m.key
  · exact inv_new hinv hmeets hnew
  · push Not at hnew
    obtain ⟨r, hr, hkey⟩ := hnew
    exact inv_dup hinv hr hkey (hmeets.sameText r hr hkey)

/-- A new row has nothing to heal. -/
theorem forward_eq : (PostgresRawMessageRepository.saveAndEnqueueForward u s.postgres m now).1 =
    (PostgresRawMessageRepository.saveIfNew u s.postgres m now).1 := by
  unfold PostgresRawMessageRepository.saveAndEnqueueForward PostgresRawMessageRepository.saveIfNew
  dsimp only
  cases hfind : s.postgres.find TelegramRow.key m.key with
  | some r => rfl
  | none =>
    have hnew := Table.find_eq_none_iff.mp hfind
    refine congrArg (PostgresRawMessageRepository.revokeEditedSource u · m) (Table.ext ?_)
    have hinsert : ∀ reason, (s.postgres.insertNew
        (PostgresRawMessageRepository.newRow m reason)).rows =
          s.postgres.rows ++ [PostgresRawMessageRepository.newRow m reason] := fun reason =>
      Table.rows_insertNew_of fun r hr hkey => hnew r hr hkey
    have hhealed : s.postgres.rows.map (healRow m now) = s.postgres.rows :=
      (List.map_congr_left fun r hr => healRow_of_key_ne (hnew r hr)).trans (List.map_id _)
    rw [rows_healMedia, hinsert, List.map_append, hhealed, List.map_singleton, healRow_newRow]
    exact hinsert _

end Save

/-! ## A re-admission -/

section Readmission

variable {u : Unicode} {s : Intake} {key : RevisionKey} {reference : String}

theorem inv_override (hinv : IntakeInv u s)
    (hmeets : ∀ r ∈ s.postgres, r.key = key → r.revision.vetoed = false) :
    IntakeInv u { s with postgres := applyReadmission s.postgres key reference } := by
  refine ⟨?_, hinv.vetoed.map (fun r => ?_) fun r hr hvetoed => ?_⟩
  · refine List.forall₂_map_right_iff.mpr ?_
    have hrows : List.Forall₂ (fun x r => Mirrors x r ∧ (r.key = key → r.revision.vetoed = false))
        s.memory.rows s.postgres.rows :=
      List.forall₂_iff_get.mpr ⟨hinv.mirrors.length_eq, fun i h h' =>
        ⟨List.forall₂_iff_get.mp hinv.mirrors |>.2 i h h', hmeets _ (List.get_mem _ _)⟩⟩
    refine hrows.imp fun x r hrow => ?_
    obtain ⟨hmirrors, hopen⟩ := hrow
    unfold readmitted
    split
    next hkey =>
      exact ⟨hmirrors.key, hmirrors.text, hmirrors.expires,
        (hmirrors.vetoed.trans (hopen hkey)).trans rfl, hmirrors.unprocessed, fun h => by cases h⟩
    · exact hmirrors
  · unfold readmitted
    split
    · exact ⟨rfl, rfl⟩
    · exact ⟨rfl, rfl⟩
  · unfold readmitted
    split
    next hkey =>
      rw [hmeets r hr hkey] at hvetoed
      cases hvetoed
    · exact hvetoed

end Readmission

/-! ## Runs -/

section Runs

variable {u : Unicode} {s t : Intake} {l : IntakeLabel} {ls : List IntakeLabel}

theorem inv_intakeStep (hinv : IntakeInv u s) (hmeets : IntakeMeets u s l)
    (hstep : intakeStep u s l t) : IntakeInv u t := by
  cases l with
  | save m now =>
    obtain rfl := Option.some.inj hstep
    exact inv_save now hinv hmeets
  | forward m now =>
    obtain rfl := Option.some.inj hstep
    have h := inv_save now hinv hmeets
    rw [← forward_eq] at h
    exact h
  | override key reference loaded =>
    obtain ⟨-, hstep⟩ := Option.ite_none_right_eq_some.mp hstep
    obtain rfl := Option.some.inj hstep
    exact inv_override hinv hmeets

/-- A vetoed row is no source of an entry. -/
theorem sourceEligible_of_vetoed {rows : TelegramMessages} {r : TelegramRow}
    (hvetoed : r.revision.vetoed = true) (now : Instant) : sourceEligible rows now r = false := by
  have hreason := vetoed_iff.mp hvetoed
  simp [sourceEligible, hreason, overridable]

theorem IntakeInv.editsVetoed (h : IntakeInv u s) : EditsVetoed u s := by
  refine ⟨fun r hr r' hr' hmessage hdiffers q hq hqm now => ?_, ?_, fun x hx r hr hkey hreference => ?_⟩
  · exact sourceEligible_of_vetoed (h.vetoed r hr r' hr' hmessage hdiffers q hq hqm) now
  · refine List.forall₂_eq_eq_eq ▸ ?_
    exact List.forall₂_map_left_iff.mpr (List.forall₂_map_right_iff.mpr
      (h.mirrors.imp fun _ _ hrow => hrow.key))
  · obtain ⟨r', hr', hrow⟩ := exists_mirror h.mirrors hx
    obtain rfl : r' = r := Table.eq_of_key hr' hr (hrow.key.symm.trans hkey)
    exact (hrow.same hreference).1

end Runs

/-- In every run of saves that meet the condition, edits veto their message in both repositories. -/
theorem edits_vetoed (u : Unicode) {ls : List IntakeLabel} {t : Intake}
    (hrun : Run (Guard (intakeStep u) (IntakeMeets u)) {} ls t) : EditsVetoed u t := by
  have hempty : IntakeInv u {} := ⟨.nil, fun r hr => absurd hr List.not_mem_nil⟩
  have hinv : IntakeInv u t :=
    hrun.inv (fun _ _ _ hinv h => inv_intakeStep hinv h.1 h.2) hempty
  exact hinv.editsVetoed

/-! ## An edit that arrives late -/

/-- Of the letters outside ASCII, none is alphanumeric and none has an upper case. -/
def asciiLetters : Unicode := ⟨Char.isAlphanum, List.map Char.toUpper⟩

def longSignal : RawTelegramMessage where
  channelId := 7
  messageId := 42
  revisionHash := "first"
  rawText := "#BTC LONG 100"
  receivedAt := 0
  entryExpiresAt := some 300000000

/-- The text was edited, and the edit arrives after the window of the entry. -/
def staleEdit : RawTelegramMessage :=
  { longSignal with
    revisionHash := "second"
    rawText := "#BTC SHORT 90"
    entryRejectionReason := some .staleSourceMessage }

def staleEdited : List IntakeLabel :=
  [.save longSignal 1, .save staleEdit 400000000,
    .override staleEdit.key "owner-approved" (some .staleSourceMessage)]

/-- The edit is a source of an entry, and the first revision is vetoed in PostgreSQL only. -/
theorem stale_edit_readmitted : ∃ t, Run (intakeStep asciiLetters) {} staleEdited t ∧
    (∃ r ∈ t.postgres, ∃ r' ∈ t.postgres, r.revision.message = r'.revision.message ∧
      isSameSignalOrCosmetic asciiLetters r.revision.rawText r'.revision.rawText = false ∧
      sourceEligible t.postgres 500000000 r' = true) ∧
    ∃ x ∈ t.memory, ∃ r ∈ t.postgres, x.key = r.key ∧ r.reAdmissionReference = none ∧
      x.entryRejectionReason = none ∧ r.revision.vetoed = true := by
  have hreplay : (replay (Intake.step asciiLetters) {} staleEdited).map (fun t =>
      (t.postgres.rows.any fun r => t.postgres.rows.any fun r' =>
        r.revision.message = r'.revision.message &&
        !isSameSignalOrCosmetic asciiLetters r.revision.rawText r'.revision.rawText &&
        sourceEligible t.postgres 500000000 r') &&
      t.memory.rows.any fun x => t.postgres.rows.any fun r => x.key = r.key &&
        r.reAdmissionReference = none && x.entryRejectionReason = none && r.revision.vetoed) =
      some true := by
    decide +kernel
  obtain ⟨t, ht, h⟩ := Option.map_eq_some_iff.mp hreplay
  simp only [Bool.and_eq_true, List.any_eq_true, decide_eq_true_eq, Bool.not_eq_true'] at h
  obtain ⟨⟨r, hr, r', hr', ⟨hmessage, hdiffers⟩, heligible⟩, x, hx, q, hq, ⟨⟨hkey, hreference⟩, hreason⟩,
    hvetoed⟩ := h
  exact ⟨t, run_of_replay (fun _ _ _ h => h) ht, ⟨r, hr, r', hr', hmessage, hdiffers, heligible⟩,
    x, hx, q, hq, hkey, hreference, hreason, hvetoed⟩

/-- An edit that arrives in time. -/
def timelyEdited : List IntakeLabel :=
  [.save longSignal 1, .forward { staleEdit with entryRejectionReason := none } 2]

theorem timely_edit_vetoed : ∃ t,
    Run (Guard (intakeStep asciiLetters) (IntakeMeets asciiLetters)) {} timelyEdited t ∧
      EditsVetoed asciiLetters t := by
  have hfirst : IntakeMeets asciiLetters {} (.save longSignal 1) :=
    ⟨fun r hr => absurd hr List.not_mem_nil, fun _ => Or.inl rfl⟩
  have hnew : ∀ s : Intake, (∀ r ∈ s.postgres, r.key ≠ staleEdit.key) → IntakeMeets asciiLetters s
      (.forward { staleEdit with entryRejectionReason := none } 2) := fun s hs =>
    ⟨fun r hr hkey => absurd hkey (hs r hr), fun _ => Or.inl rfl⟩
  have hrun : Run (Guard (intakeStep asciiLetters) (IntakeMeets asciiLetters)) {} timelyEdited _ :=
    .cons ⟨hfirst, rfl⟩ (.cons ⟨hnew _ (by decide +kernel), rfl⟩ (.nil _))
  exact ⟨_, hrun, edits_vetoed asciiLetters hrun⟩

end FattyTrader
