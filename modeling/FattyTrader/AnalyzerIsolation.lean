import FattyTrader.AnalyzerBatch
import FattyTrader.TableParts

/-!
# Isolation of the messages of a batch

Whatever the analysis and the statements in the `try` raise, the batch commits, every message of it ends
analyzed, expired or failed, a failed one leaves nothing of its successful path, and each message has
the effects it has in a batch of its own (`batch_isolated`).

That holds exactly where no statement outside of the `try` fails. The handler suppresses an error of its
enrolment and of its card, but such an error aborts the transaction, and the statement after it raises
(`card_lost`).
-/

set_option linter.unusedSectionVars false

open Tables Programs Prog

namespace FattyTrader

/-! ## The effects of a message -/

/-- What the tables have of a message. An edit of another revision is seen as a veto. -/
structure MessageEffects where
  rows : List TelegramRow
  vetoed : Bool
  signals : List CanonicalSignalRow
  dispatches : List SignalDispatch
  managements : List EnrolledInstruction
  outbox : List Notice

def AnalyzerDb.effects (db : AnalyzerDb) (key : RevisionKey) : MessageEffects where
  rows := db.messages.part TelegramRow.key key
  vetoed := db.messages.rows.any fun e => e.revision.message = key.1 && e.revision.vetoed
  signals := db.signals.part (·.message) key
  dispatches := db.dispatches.part (·.source.1) key
  managements := db.managements.part (·.message) key
  outbox := db.outbox.part (·.key.message) (some key)

section Statements

variable {db db' : AnalyzerDb} {key other : RevisionKey} {state : IntakeState}
  {reason : Option RejectionReason} {instruction : ManagementInstruction} {signal : AnalyzedSignal}
  {exchange : String} {notice : Notice} {now : Instant} {r : TelegramRow}

theorem settledRow_frame (key : RevisionKey) (state : IntakeState) (r : TelegramRow)
    (hreason : reason ≠ some .editedSourceMessage) :
    (AnalyzerDb.settledRow key state reason r).revision.message = r.revision.message ∧
      (AnalyzerDb.settledRow key state reason r).revision.vetoed = r.revision.vetoed := by
  unfold AnalyzerDb.settledRow
  split
  · refine ⟨rfl, ?_⟩
    unfold RawTelegramMessage.vetoed
    cases r.revision.entryRejectionReason with
    | none => exact decide_eq_false hreason
    | some _ => rfl
  · exact ⟨rfl, rfl⟩

theorem vetoed_settle (hreason : reason ≠ some .editedSourceMessage) (p : MessageKey) :
    ((db.settle key state reason).messages.rows.any fun e =>
      e.revision.message = p && e.revision.vetoed) =
      db.messages.rows.any fun e => e.revision.message = p && e.revision.vetoed := by
  simp only [AnalyzerDb.settle, Table.rewrite, List.any_map]
  congr 1
  funext r
  obtain ⟨hmessage, hvetoed⟩ := settledRow_frame key state r hreason
  simp only [Function.comp, hmessage, hvetoed]

theorem rows_settle : (db.settle key state reason).messages.part TelegramRow.key other =
    (db.messages.part TelegramRow.key other).map (AnalyzerDb.settledRow key state reason) := by
  dsimp only [AnalyzerDb.settle]
  exact Table.part_rewrite fun r => AnalyzerDb.key_settledRow key state reason r

theorem effects_settle_ne (hreason : reason ≠ some .editedSourceMessage) (h : other ≠ key) :
    (db.settle key state reason).effects other = db.effects other := by
  have hrows : (db.messages.part TelegramRow.key other).map
      (AnalyzerDb.settledRow key state reason) = db.messages.part TelegramRow.key other := by
    refine (List.map_congr_left fun r hr => ?_).trans (List.map_id _)
    have hkey : r.key ≠ key := fun hk => h ((Table.mem_part.mp hr).2.symm.trans hk)
    exact if_neg hkey
  unfold AnalyzerDb.effects
  rw [rows_settle, hrows, vetoed_settle hreason]
  rfl

theorem effects_settle (hreason : reason ≠ some .editedSourceMessage) :
    (db.settle key state reason).effects key = { db.effects key with
      rows := (db.effects key).rows.map (AnalyzerDb.settledRow key state reason) } := by
  unfold AnalyzerDb.effects
  rw [rows_settle, vetoed_settle hreason]
  rfl

theorem effects_enroll_ne (h : other ≠ key) :
    (db.enroll now key instruction).effects other = db.effects other := by
  unfold AnalyzerDb.effects AnalyzerDb.enroll
  rw [Table.part_insertNew_ne (Ne.symm h)]

theorem effects_insertSignal_ne (h : other ≠ key) :
    (db.insertSignal key signal).effects other = db.effects other := by
  unfold AnalyzerDb.effects AnalyzerDb.insertSignal
  rw [Table.part_insertNew_ne (Ne.symm h)]

theorem effects_insertDispatch_ne (h : other ≠ key) :
    (db.insertDispatch key exchange).2.effects other = db.effects other := by
  unfold AnalyzerDb.effects AnalyzerDb.insertDispatch
  dsimp only
  rw [Table.part_insertNew_ne (Ne.symm h)]

theorem effects_notify_ne (hnotice : notice.key.message = some key) (h : other ≠ key) :
    (db.notify notice).effects other = db.effects other := by
  unfold AnalyzerDb.effects AnalyzerDb.notify
  rw [Table.part_insertNew_ne (by rw [hnotice]; exact fun heq => h (Option.some.inj heq).symm)]

/-! A statement for a message depends on what the tables have of it. -/

theorem effects_enroll_congr (h : db.effects key = db'.effects key) :
    (db.enroll now key instruction).effects key = (db'.enroll now key instruction).effects key := by
  set row : EnrolledInstruction := ⟨key, key.2, instruction, now + 1800000000⟩ with hrow
  have hpart : (db.managements.insertNew row).part (·.message) key =
      (db'.managements.insertNew row).part (·.message) key :=
    Table.part_insertNew_congr (fun a ha => congrArg (fun k : SignalKey × ManagementInstruction =>
      k.1.1) (show a.key = row.key from ha)) rfl (congrArg MessageEffects.managements h)
  calc (db.enroll now key instruction).effects key
      = { db.effects key with
          managements := (db.managements.insertNew row).part (·.message) key } := rfl
    _ = { db'.effects key with
          managements := (db'.managements.insertNew row).part (·.message) key } := by
      rw [h, hpart]

theorem effects_insertSignal_congr (h : db.effects key = db'.effects key) :
    (db.insertSignal key signal).effects key = (db'.insertSignal key signal).effects key := by
  set row : CanonicalSignalRow := ⟨key, key.2, signal⟩ with hrow
  have hpart : (db.signals.insertNew row).part (·.message) key =
      (db'.signals.insertNew row).part (·.message) key :=
    Table.part_insertNew_congr (fun a ha => congrArg (fun k : SignalKey => k.1)
      (show a.key = row.key from ha)) rfl (congrArg MessageEffects.signals h)
  calc (db.insertSignal key signal).effects key
      = { db.effects key with
          signals := (db.signals.insertNew row).part (·.message) key } := rfl
    _ = { db'.effects key with
          signals := (db'.signals.insertNew row).part (·.message) key } := by
      rw [h, hpart]

theorem insertDispatch_congr (exchange : String) (h : db.effects key = db'.effects key) :
    (db.insertDispatch key exchange).1 = (db'.insertDispatch key exchange).1 ∧
      (db.insertDispatch key exchange).2.effects key =
        (db'.insertDispatch key exchange).2.effects key := by
  set row : SignalDispatch := ⟨(key, key.2), key.2, exchange⟩ with hrow
  have hown : ∀ a : SignalDispatch, SameKey id a row → a.source.1 = key := fun a ha =>
    congrArg (fun d : SignalDispatch => d.source.1) (show a = row from ha)
  have hdispatches := congrArg MessageEffects.dispatches h
  have hfind : db.dispatches.find id row = db'.dispatches.find id row :=
    Table.find_congr hown hdispatches
  have hpart : (db.dispatches.insertNew row).part (·.source.1) key =
      (db'.dispatches.insertNew row).part (·.source.1) key :=
    Table.part_insertNew_congr hown rfl hdispatches
  refine ⟨congrArg Option.isNone hfind, ?_⟩
  calc (db.insertDispatch key exchange).2.effects key
      = { db.effects key with
          dispatches := (db.dispatches.insertNew row).part (·.source.1) key } := rfl
    _ = { db'.effects key with
          dispatches := (db'.dispatches.insertNew row).part (·.source.1) key } := by
      rw [h, hpart]

theorem effects_notify_congr (hnotice : notice.key.message = some key)
    (h : db.effects key = db'.effects key) :
    (db.notify notice).effects key = (db'.notify notice).effects key := by
  have hpart : (db.outbox.insertNew notice).part (·.key.message) (some key) =
      (db'.outbox.insertNew notice).part (·.key.message) (some key) :=
    Table.part_insertNew_congr (fun a ha => (congrArg NoticeKey.message
      (show a.key = notice.key from ha)).trans hnotice) hnotice (congrArg MessageEffects.outbox h)
  calc (db.notify notice).effects key
      = { db.effects key with
          outbox := (db.outbox.insertNew notice).part (·.key.message) (some key) } := rfl
    _ = { db'.effects key with
          outbox := (db'.outbox.insertNew notice).part (·.key.message) (some key) } := by
      rw [h, hpart]

theorem effects_settle_congr (hreason : reason ≠ some .editedSourceMessage)
    (h : db.effects key = db'.effects key) :
    (db.settle key state reason).effects key = (db'.settle key state reason).effects key := by
  rw [effects_settle hreason, effects_settle hreason, h]

theorem hasSignal_congr (h : db.effects key = db'.effects key) :
    db.hasSignal key = db'.hasSignal key := by
  have hfind : db.signals.find CanonicalSignalRow.key (key, key.2) =
      db'.signals.find CanonicalSignalRow.key (key, key.2) :=
    Table.find_congr (fun a ha => congrArg (fun k : SignalKey => k.1) ha)
      (congrArg MessageEffects.signals h)
  exact congrArg Option.isSome hfind

theorem eligible_congr (h : db.effects key = db'.effects key) :
    db.eligible now key = db'.eligible now key := by
  have hfind : db.messages.find TelegramRow.key key = db'.messages.find TelegramRow.key key :=
    Table.find_congr (fun _ ha => ha) (congrArg MessageEffects.rows h)
  have hvetoed := congrArg MessageEffects.vetoed h
  unfold AnalyzerDb.eligible
  rw [hfind]
  cases hrow : db'.messages.find TelegramRow.key key with
  | none => rfl
  | some r =>
    have hkey : r.revision.message = key.1 := congrArg Prod.fst (Table.key_of_find hrow)
    simp only [AnalyzerDb.effects] at hvetoed
    simp only [Option.any_some, sourceEligible, hkey, hvetoed]

/-- The card is not there, or it is there and the others are as they were. -/
theorem mem_outbox_notify {n : Notice} (h : n ∈ ((db.notify notice).effects key).outbox) :
    n ∈ (db.effects key).outbox ∨ n.key = notice.key := by
  obtain ⟨hn, hkey⟩ := Table.mem_part.mp h
  unfold AnalyzerDb.notify at hn
  rcases Table.mem_insertNew hn with hn | rfl
  · exact Or.inl (Table.mem_part.mpr ⟨hn, hkey⟩)
  · exact Or.inr rfl

end Statements

/-! ## Operations -/

/-- Operations about a message. -/
def BatchOp.about (key : RevisionKey) : BatchOp → Prop
  | .selectReceived _ _ => False
  | .eligible k => k = key
  | .analyzeText k _ => k = key
  | .analyzeImage k _ _ => k = key
  | .enroll _ k _ => k = key
  | .updateState k _ => k = key
  | .expire k => k = key
  | .insertSignal k _ => k = key
  | .hasSignal k => k = key
  | .insertDispatch k _ => k = key
  | .notify _ k notice => k = key ∧ notice.key.message = some key
  | .markFailed k _ => k = key
  | .commit => False
  | _ => True

/-- Statements that neither set nor use the savepoint. -/
def BatchOp.plain : BatchOp → Bool
  | .savepoint => false
  | .rollbackToSavepoint => false
  | .release _ => false
  | .commit => false
  | _ => true

/-- Statements outside of the `try`. -/
def BatchOp.outside : BatchOp → Bool
  | .selectReceived _ _ => true
  | .savepoint => true
  | .enroll place _ _ => place = .outer
  | .notify place _ _ => place = .outer
  | .rollbackToSavepoint => true
  | .markFailed _ _ => true
  | .release place => place = .outer
  | .commit => true
  | _ => false

/-- The answer is an error of a statement. -/
def isSqlError {α : Type} : Except BatchError α → Bool
  | .error (.sql _) => true
  | _ => false

/-- A statement outside of the `try` fails. -/
def breaks (e : BatchEvent) : Bool := e.op.outside && isSqlError e.answer

/-- Two transactions with the same effects of a message. -/
structure SameFor (key : RevisionKey) (w u : BatchWorld) : Prop where
  work : w.work.effects key = u.work.effects key
  saved : w.saved.map (·.effects key) = u.saved.map (·.effects key)
  aborted : w.aborted = u.aborted

section Operations

variable {w u v : BatchWorld} {c : BatchChoice} {key other : RevisionKey} {o : BatchOp}
  {x : Except BatchError (BatchAns o)} {α : Type}

theorem SameFor.guarded (h : SameFor key w u) {d d' : Except BatchError α × BatchWorld}
    (hd : d.1 = d'.1 ∧ SameFor key d.2 d'.2) :
    (w.guarded c d).1 = (u.guarded c d').1 ∧ SameFor key (w.guarded c d).2 (u.guarded c d').2 := by
  unfold BatchWorld.guarded
  rw [h.aborted]
  split
  · exact ⟨rfl, h⟩
  · split
    · exact ⟨rfl, h.work, h.saved, rfl⟩
    · exact hd

theorem SameFor.query (h : SameFor key w u) {f : AnalyzerDb → α} (hf : f w.work = f u.work) :
    (w.query c f).1 = (u.query c f).1 ∧ SameFor key (w.query c f).2 (u.query c f).2 :=
  h.guarded ⟨congrArg Except.ok hf, h⟩

theorem SameFor.change (h : SameFor key w u) {f : AnalyzerDb → AnalyzerDb}
    (hf : (f w.work).effects key = (f u.work).effects key) :
    (w.change c f).1 = (u.change c f).1 ∧ SameFor key (w.change c f).2 (u.change c f).2 :=
  h.guarded ⟨rfl, hf, h.saved, h.aborted⟩

theorem failure_ne_veto {failure : String} :
    some (RejectionReason.other failure) ≠ some .editedSourceMessage := by simp

/-- What an operation about a message answers, and leaves of it. -/
theorem sameFor_exec (ho : o.about key) (h : SameFor key w u) :
    (batchExec w c o).1 = (batchExec u c o).1 ∧
      SameFor key (batchExec w c o).2 (batchExec u c o).2 := by
  cases o with
  | selectReceived _ _ => exact ho.elim
  | commit => exact ho.elim
  | savepoint => exact h.guarded ⟨rfl, h.work, congrArg some h.work, h.aborted⟩
  | eligible k =>
    obtain rfl : k = key := ho
    exact h.query (eligible_congr h.work)
  | analyzeText k _ => exact ⟨rfl, h⟩
  | analyzeImage k _ _ => exact ⟨rfl, h⟩
  | enroll _ k _ =>
    obtain rfl : k = key := ho
    exact h.change (effects_enroll_congr h.work)
  | updateState k _ =>
    obtain rfl : k = key := ho
    exact h.change (effects_settle_congr (by simp) h.work)
  | expire k =>
    obtain rfl : k = key := ho
    exact h.change (effects_settle_congr (by simp) h.work)
  | insertSignal k _ =>
    obtain rfl : k = key := ho
    exact h.change (effects_insertSignal_congr h.work)
  | hasSignal k =>
    obtain rfl : k = key := ho
    exact h.query (hasSignal_congr h.work)
  | insertDispatch k exchange =>
    obtain rfl : k = key := ho
    obtain ⟨hanswer, heffects⟩ := insertDispatch_congr exchange h.work
    exact h.guarded ⟨congrArg Except.ok hanswer, heffects, h.saved, h.aborted⟩
  | notify _ k notice =>
    obtain ⟨rfl, hnotice⟩ := ho
    exact h.change (effects_notify_congr hnotice h.work)
  | rollbackToSavepoint =>
    have hsaved := h.saved
    simp only [batchExec, BatchWorld.rollbackToSavepoint]
    cases hw : w.saved <;> cases hu : u.saved <;> rw [hw, hu] at hsaved
    · exact ⟨rfl, h.work, hsaved, rfl⟩
    · cases hsaved
    · cases hsaved
    · cases c.fails with
      | none => exact ⟨rfl, Option.some.inj hsaved, hsaved, rfl⟩
      | some _ => exact ⟨rfl, h.work, hsaved, rfl⟩
  | markFailed k _ =>
    obtain rfl : k = key := ho
    exact h.change (effects_settle_congr failure_ne_veto h.work)
  | release _ =>
    have hsaved := h.saved
    refine h.guarded ?_
    cases hw : w.saved <;> cases hu : u.saved <;> rw [hw, hu] at hsaved
    · exact ⟨rfl, h.work, hsaved, rfl⟩
    · cases hsaved
    · cases hsaved
    · exact ⟨rfl, h.work, rfl, h.aborted⟩

/-- The rows of the messages are kept, and the effects of the others are as they were. -/
structure Frame (key : RevisionKey) (db db' : AnalyzerDb) : Prop where
  others : ∀ k, k ≠ key → db'.effects k = db.effects k
  keys : db'.messages.rows.map TelegramRow.key = db.messages.rows.map TelegramRow.key

theorem Frame.refl (key : RevisionKey) (db : AnalyzerDb) : Frame key db db :=
  ⟨fun _ _ => rfl, rfl⟩

theorem Frame.trans {db₁ db₂ db₃ : AnalyzerDb} (h : Frame key db₁ db₂) (h' : Frame key db₂ db₃) :
    Frame key db₁ db₃ :=
  ⟨fun k hk => (h'.others k hk).trans (h.others k hk), h'.keys.trans h.keys⟩

theorem frame_settle {db : AnalyzerDb} {state : IntakeState} {reason : Option RejectionReason}
    (hreason : reason ≠ some .editedSourceMessage) : Frame key db (db.settle key state reason) := by
  refine ⟨fun k hk => effects_settle_ne hreason hk, ?_⟩
  simp only [AnalyzerDb.settle, Table.rewrite, List.map_map]
  exact List.map_congr_left fun r _ => AnalyzerDb.key_settledRow key state reason r

/-- What an operation in the transaction leaves. -/
structure Kept (key : RevisionKey) (w v : BatchWorld) : Prop where
  durable : v.durable = w.durable
  saved : v.saved = w.saved
  frame : Frame key w.work v.work

theorem Kept.refl (key : RevisionKey) (w : BatchWorld) : Kept key w w :=
  ⟨rfl, rfl, Frame.refl key w.work⟩

theorem Kept.trans {w₁ w₂ w₃ : BatchWorld} (h : Kept key w₁ w₂) (h' : Kept key w₂ w₃) :
    Kept key w₁ w₃ :=
  ⟨h'.durable.trans h.durable, h'.saved.trans h.saved, h.frame.trans h'.frame⟩

/-- A statement that succeeds, or aborts the transaction. -/
theorem guarded_cases {d : Except BatchError α × BatchWorld} (haborted : w.aborted = false) :
    w.guarded c d = d ∨
      ∃ name, w.guarded c d = (.error (.sql name), { w with aborted := true }) := by
  unfold BatchWorld.guarded
  rw [haborted, if_neg Bool.false_ne_true]
  cases c.fails with
  | none => exact Or.inl rfl
  | some name => exact Or.inr ⟨name, rfl⟩

theorem guarded_aborted {d : Except BatchError α × BatchWorld} (haborted : w.aborted = true) :
    w.guarded c d = (.error .inFailedSqlTransaction, w) := if_pos haborted

/-- What an operation leaves that neither sets nor uses the savepoint. -/
structure Stays (key : RevisionKey) (w : BatchWorld) {α : Type}
    (d : Except BatchError α × BatchWorld) : Prop where
  kept : Kept key w d.2
  usable : ∀ a, d.1 = .ok a → d.2.aborted = false

theorem stays_query {f : AnalyzerDb → α} (haborted : w.aborted = false) :
    Stays key w (w.query c f) := by
  unfold BatchWorld.query
  rcases guarded_cases (c := c) (d := (.ok (f w.work), w)) haborted with h | ⟨name, h⟩ <;> rw [h]
  · exact ⟨Kept.refl key w, fun _ _ => haborted⟩
  · exact ⟨⟨rfl, rfl, Frame.refl key w.work⟩, fun _ h => by cases h⟩

theorem stays_change {a : α} {db : AnalyzerDb} (haborted : w.aborted = false)
    (hf : Frame key w.work db) : Stays key w (w.guarded c (.ok a, { w with work := db })) := by
  rcases guarded_cases (c := c) (d := (.ok a, { w with work := db })) haborted with h | ⟨name, h⟩ <;>
    rw [h]
  · exact ⟨⟨rfl, rfl, hf⟩, fun _ _ => haborted⟩
  · exact ⟨⟨rfl, rfl, Frame.refl key w.work⟩, fun _ h => by cases h⟩

theorem stays_exec (ho : o.about key) (hplain : o.plain = true) (haborted : w.aborted = false) :
    Stays key w (batchExec w c o) := by
  cases o with
  | selectReceived _ _ => exact ho.elim
  | savepoint | rollbackToSavepoint | release _ | commit => cases hplain
  | analyzeText _ _ => exact ⟨Kept.refl key w, fun _ _ => haborted⟩
  | analyzeImage _ _ _ => exact ⟨Kept.refl key w, fun _ _ => haborted⟩
  | eligible k => exact stays_query (f := fun db => db.eligible c.now k) haborted
  | hasSignal k => exact stays_query (f := fun db => db.hasSignal k) haborted
  | enroll _ k _ =>
    obtain rfl : k = key := ho
    exact stays_change haborted ⟨fun _ h => effects_enroll_ne h, rfl⟩
  | updateState k _ =>
    obtain rfl : k = key := ho
    exact stays_change haborted (frame_settle (by simp))
  | expire k =>
    obtain rfl : k = key := ho
    exact stays_change haborted (frame_settle (by simp))
  | insertSignal k _ =>
    obtain rfl : k = key := ho
    exact stays_change haborted ⟨fun _ h => effects_insertSignal_ne h, rfl⟩
  | insertDispatch k _ =>
    obtain rfl : k = key := ho
    exact stays_change haborted ⟨fun _ h => effects_insertDispatch_ne h, rfl⟩
  | notify _ k _ =>
    obtain ⟨rfl, hnotice⟩ := ho
    exact stays_change haborted ⟨fun _ h => effects_notify_ne hnotice h, rfl⟩
  | markFailed k _ =>
    obtain rfl : k = key := ho
    exact stays_change haborted (frame_settle failure_ne_veto)

end Operations

/-! ## The body of the `try` -/

/-- The effect of the operations, with a mark whether a statement outside of the `try` failed. -/
abbrev Watched : Effect BatchOp BatchAns BatchError (BatchWorld × Bool) := batchEffect.watch breaks

/-- A part of the body. -/
def Inside {α : Type} (key : RevisionKey) (Q : BatchWorld → Prop) (p : BatchProg α) : Prop :=
  ∀ w b, w.aborted = false → Ensures Watched p (w, b) fun r v =>
    v.2 = b ∧ Kept key w v.1 ∧ ∀ a, r = .ok a → v.1.aborted = false ∧ Q v.1

/-- A part of the body that may do anything for its message. -/
abbrev Steady {α : Type} (key : RevisionKey) (p : BatchProg α) : Prop := Inside key (fun _ => True) p

section Body

variable {x : AnalyzerWorker} {key : RevisionKey} {m : TelegramRow} {Q : BatchWorld → Prop}
  {α β : Type}

theorem steady_pure (a : α) : Steady key (pure a : BatchProg α) := fun w _ haborted =>
  ⟨rfl, Kept.refl key w, fun _ _ => ⟨haborted, trivial⟩⟩

theorem inside_raise (e : BatchError) : Inside key Q (raise e : BatchProg α) := fun w _ _ =>
  ⟨rfl, Kept.refl key w, fun _ h => by cases h⟩

theorem inside_bind {p : BatchProg α} {f : α → BatchProg β} (hp : Steady key p)
    (hf : ∀ a, Inside key Q (f a)) : Inside key Q (p >>= f) := fun w b haborted =>
  ensures_bind.mpr ((hp w b haborted).imp fun r v h => by
    obtain ⟨hflag, hkept, husable⟩ := h
    cases r with
    | error e => exact ⟨hflag, hkept, fun _ h => by cases h⟩
    | ok a =>
      refine (hf a v.1 v.2 (husable a rfl).1).imp fun r' v' h' => ?_
      exact ⟨h'.1.trans hflag, hkept.trans h'.2.1, h'.2.2⟩)

theorem steady_evaluate (r : Except BatchError α) : Steady key (evaluate r) := by
  cases r with
  | ok a => exact steady_pure a
  | error e => exact inside_raise e

/-- One operation. -/
theorem inside_perform {o : BatchOp} (ho : o.about key) (hplain : o.plain = true)
    (houtside : o.outside = false) (hQ : ∀ w c a, w.aborted = false →
      (batchExec w c o).1 = .ok a → Q (batchExec w c o).2) : Inside key Q (perform o) := by
  intro w b haborted
  refine ensures_perform.mpr ?_
  rintro r ⟨v, b'⟩ ⟨⟨c, hexec⟩, hflag⟩
  have hstays := stays_exec (c := c) ho hplain haborted
  have hok := hQ w c
  dsimp only at hexec
  rw [hexec] at hstays hok
  have hbreaks : breaks ⟨o, r⟩ = false := by simp [breaks, houtside]
  refine ⟨by rw [hflag, hbreaks, Bool.or_false], hstays.kept, fun a ha => ?_⟩
  exact ⟨hstays.usable a ha, hok a haborted ha⟩

theorem steady_perform {o : BatchOp} (ho : o.about key) (hplain : o.plain = true)
    (houtside : o.outside = false) : Steady key (perform o) :=
  inside_perform ho hplain houtside fun _ _ _ _ _ => trivial

/-! ### The parts of the body -/

theorem steady_instruction (text : String) : Steady key (x.instruction text) := by
  refine inside_bind (steady_evaluate _) fun veto => ?_
  split
  · exact steady_pure none
  · exact steady_evaluate _

theorem steady_readImage (image : ImageJson) : Steady m.key (x.readImage m image) := by
  unfold AnalyzerWorker.readImage
  split
  · exact inside_bind (steady_evaluate _) fun _ => steady_pure _
  · exact inside_bind (steady_evaluate _) fun _ => steady_pure _

theorem steady_attempt_analyzeImage (text path : String) :
    Steady m.key (attempt (perform (BatchOp.analyzeImage m.key text path))) := by
  intro w b haborted
  refine ensures_attempt.mpr (ensures_perform.mpr ?_)
  rintro r ⟨v, b'⟩ ⟨⟨c, hexec⟩, hflag⟩
  obtain rfl : w = v := (Prod.mk.inj hexec).2
  have hbreaks : breaks ⟨.analyzeImage m.key text path, r⟩ = false := rfl
  exact ⟨by rw [hflag, hbreaks, Bool.or_false], Kept.refl _ w, fun _ _ => ⟨haborted, trivial⟩⟩

theorem steady_analyze : Steady m.key (x.analyze m) := by
  unfold AnalyzerWorker.analyze
  split
  · refine inside_bind (steady_attempt_analyzeImage _ _) fun image => ?_
    split
    · exact steady_readImage _
    · exact steady_readImage _
    · exact inside_raise _
  · exact inside_bind (steady_perform rfl rfl rfl) fun _ => steady_pure _

theorem steady_insertDispatches : ∀ exchanges, Steady m.key (AnalyzerWorker.insertDispatches m exchanges)
  | [] => steady_pure 0
  | _ :: exchanges => inside_bind (steady_perform rfl rfl rfl) fun _ =>
    inside_bind (steady_insertDispatches exchanges) fun _ => steady_pure _

theorem steady_publishSignal (signal : Option AnalyzedSignal) :
    Steady m.key (x.publishSignal m signal) := by
  cases signal with
  | none => exact steady_pure none
  | some signal =>
    refine inside_bind (steady_perform rfl rfl rfl) fun _ => ?_
    refine inside_bind (steady_perform rfl rfl rfl) fun found => ?_
    split
    · exact inside_bind (steady_insertDispatches _) fun _ => steady_pure _
    · exact inside_raise _

theorem steady_imageInstruction (image : Option ImageJson) (management : Option ManagementInstruction) :
    Steady key (x.imageInstruction m image management) := by
  unfold AnalyzerWorker.imageInstruction
  split
  · exact steady_pure _
  · split
    · split
      · exact steady_evaluate _
      · exact steady_pure none
    · exact steady_pure none

theorem steady_enrollSome (management : Option ManagementInstruction) :
    Steady m.key (AnalyzerWorker.enrollSome .body m management) := by
  cases management with
  | none => exact steady_pure ()
  | some management => exact steady_perform rfl rfl rfl

/-- The rows with the key have the state. -/
def InState (key : RevisionKey) (states : List IntakeState) (db : AnalyzerDb) : Prop :=
  ∀ r ∈ db.messages, r.key = key → r.intakeState ∈ states

theorem inState_settle {db : AnalyzerDb} {state : IntakeState} {reason : Option RejectionReason}
    {states : List IntakeState} (h : state ∈ states) :
    InState key states (db.settle key state reason) := by
  intro r hr hkey
  rw [Table.mem_iff] at hr
  obtain ⟨r', -, rfl⟩ := List.mem_map.mp hr
  rw [AnalyzerDb.key_settledRow] at hkey
  unfold AnalyzerDb.settledRow
  rw [if_pos hkey]
  exact h

/-- A statement that ends the processing of the message. -/
theorem inside_settle {o : BatchOp} {states : List IntakeState} (state : IntakeState)
    (reason : Option RejectionReason) (h : state ∈ states) (ho : o.about key) (hplain : o.plain = true)
    (houtside : o.outside = false)
    (hexec : ∀ w c, (batchExec w c o).2 = (w.change c (·.settle key state reason)).2 ∧
      (∀ a, (batchExec w c o).1 = .ok a → (w.change c (·.settle key state reason)).1 = .ok ())) :
    Inside key (fun v => InState key states v.work) (perform o) := by
  refine inside_perform ho hplain houtside fun w c a haborted ha => ?_
  have hok := (hexec w c).2 a ha
  rw [(hexec w c).1]
  unfold BatchWorld.change at hok ⊢
  rcases guarded_cases (c := c) (d := ((.ok (), { w with work := w.work.settle key state reason }) :
    Except BatchError Unit × BatchWorld)) haborted with hdone | ⟨name, hdone⟩
  · rw [hdone]
    exact inState_settle h
  · rw [hdone] at hok
    cases hok

theorem inside_updateState : Inside m.key (fun v => InState m.key [.analyzed, .expired] v.work)
    (perform (BatchOp.updateState m.key .analyzed)) :=
  inside_settle .analyzed none (by simp) rfl rfl rfl fun w c => ⟨rfl, fun _ h => h⟩

theorem inside_expire : Inside m.key (fun v => InState m.key [.analyzed, .expired] v.work)
    (perform (BatchOp.expire m.key)) :=
  inside_settle .expired (some .staleSourceMessage) (by simp) rfl rfl rfl
    fun w c => ⟨rfl, fun _ h => h⟩

theorem inside_publish (a : Analysis) :
    Inside m.key (fun v => InState m.key [.analyzed, .expired] v.work) (x.publish m a) := by
  refine inside_bind (steady_evaluate _) fun veto => ?_
  refine inside_bind (steady_instruction _) fun management => ?_
  refine inside_bind (steady_imageInstruction _ _) fun management => ?_
  refine inside_bind (steady_enrollSome _) fun _ => ?_
  refine inside_bind (steady_publishSignal _) fun dispatches => ?_
  refine inside_bind (steady_perform ⟨rfl, rfl⟩ rfl rfl) fun _ => ?_
  exact inside_updateState

/-! ### The end of the body -/

/-- How the body ends : it may have released the savepoint, or left it. -/
def TryPost (m : TelegramRow) (w : BatchWorld) (b : Bool) (r : Except BatchError Bool)
    (v : BatchWorld × Bool) : Prop :=
  v.2 = b ∧ v.1.durable = w.durable ∧ Frame m.key w.work v.1.work ∧
    match r with
    | .ok left => v.1.aborted = false ∧ v.1.saved = (if left then w.saved else none) ∧
        InState m.key [.analyzed, .expired] v.1.work
    | .error _ => v.1.saved = w.saved

theorem TryPost.of_kept {w w' : BatchWorld} {b : Bool} {r : Except BatchError Bool}
    {v : BatchWorld × Bool} (h : Kept m.key w w') (hpost : TryPost m w' b r v) :
    TryPost m w b r v := by
  obtain ⟨hflag, hdurable, hframe, hrest⟩ := hpost
  refine ⟨hflag, hdurable.trans h.durable, h.frame.trans hframe, ?_⟩
  match r, hrest with
  | .ok left, ⟨haborted, hsaved, hstate⟩ => exact ⟨haborted, h.saved ▸ hsaved, hstate⟩
  | .error _, hsaved => exact hsaved.trans h.saved

/-- The release of a savepoint that is set. -/
theorem release_cases {w : BatchWorld} {c : BatchChoice} {db : AnalyzerDb}
    (haborted : w.aborted = false) (hsaved : w.saved = some db) :
    w.release c = (.ok (), { w with saved := none }) ∨
      ∃ name, w.release c = (.error (.sql name), { w with aborted := true }) := by
  obtain ⟨durable, work, saved, aborted⟩ := w
  obtain rfl : saved = some db := hsaved
  exact guarded_cases haborted

/-- A part of the body, before a sequel. -/
theorem body_bind {Q : BatchWorld → Prop} {p : BatchProg α} {f : α → BatchProg Bool} {w : BatchWorld}
    {b : Bool} (haborted : w.aborted = false) (hp : Inside m.key Q p)
    (hf : ∀ a w', w'.saved = w.saved → w'.aborted = false → Q w' →
      Ensures Watched (f a) (w', b) (TryPost m w' b)) :
    Ensures Watched (p >>= f) (w, b) (TryPost m w b) := by
  refine ensures_bind.mpr ((hp w b haborted).imp ?_)
  rintro r ⟨w', b'⟩ ⟨rfl, hkept, hok⟩
  cases r with
  | error e => exact ⟨rfl, hkept.durable, hkept.frame, hkept.saved⟩
  | ok a =>
    obtain ⟨haborted', hQ⟩ := hok a rfl
    exact (hf a w' hkept.saved haborted' hQ).imp fun _ _ hpost => hpost.of_kept hkept

theorem ensures_releaseBody {w : BatchWorld} {b : Bool} {db : AnalyzerDb} (haborted : w.aborted = false)
    (hsaved : w.saved = some db) (hstate : InState m.key [.analyzed, .expired] w.work) :
    Ensures Watched (do perform (BatchOp.release .body); pure false : BatchProg Bool) (w, b)
      (TryPost m w b) := by
  refine ensures_perform_bind ?_ ?_
  · rintro a ⟨v, b'⟩ ⟨⟨c, hexec⟩, hflag⟩
    rcases release_cases (c := c) haborted hsaved with h | ⟨name, h⟩
    · obtain ⟨-, rfl⟩ := Prod.mk.inj (h.symm.trans hexec)
      have hbreaks : breaks ⟨.release .body, .ok a⟩ = false := rfl
      exact ⟨by rw [hflag, hbreaks, Bool.or_false], rfl, Frame.refl _ _, haborted, rfl, hstate⟩
    · cases (Prod.mk.inj (h.symm.trans hexec)).1
  · rintro e ⟨v, b'⟩ ⟨⟨c, hexec⟩, hflag⟩
    have hbreaks : breaks ⟨.release .body, .error e⟩ = false := rfl
    rcases release_cases (c := c) haborted hsaved with h | ⟨name, h⟩
    · cases (Prod.mk.inj (h.symm.trans hexec)).1
    · obtain ⟨-, rfl⟩ := Prod.mk.inj (h.symm.trans hexec)
      exact ⟨by rw [hflag, hbreaks, Bool.or_false], rfl, Frame.refl _ _, rfl⟩

theorem ensures_lapsed {w : BatchWorld} {b : Bool} {db : AnalyzerDb} (haborted : w.aborted = false)
    (hsaved : w.saved = some db) :
    Ensures Watched (do x.processLapsed m; pure false) (w, b) (TryPost m w b) := by
  have hrelease : ∀ w', w'.saved = w.saved → w'.aborted = false →
      InState m.key [.analyzed, .expired] w'.work →
      Ensures Watched (do perform (BatchOp.release .body); pure false : BatchProg Bool) (w', b)
        (TryPost m w' b) := fun w' hsaved' haborted' hstate =>
    ensures_releaseBody haborted' (hsaved'.trans hsaved) hstate
  unfold AnalyzerWorker.processLapsed
  rw [Prog.bind_assoc]
  refine body_bind haborted (steady_instruction _) fun management w₁ hsaved₁ haborted₁ _ => ?_
  cases management with
  | some management =>
    refine (Prog.bind_assoc _ _ _).symm ▸ ?_
    refine body_bind haborted₁ (steady_perform rfl rfl rfl) fun _ w₂ hsaved₂ haborted₂ _ => ?_
    refine (Prog.bind_assoc _ _ _).symm ▸ ?_
    refine body_bind haborted₂ inside_updateState fun _ w₃ hsaved₃ haborted₃ hstate => ?_
    exact hrelease w₃ (hsaved₃.trans (hsaved₂.trans hsaved₁)) haborted₃ hstate
  | none =>
    refine (Prog.bind_assoc _ _ _).symm ▸ ?_
    refine body_bind haborted₁ inside_expire fun _ w₂ hsaved₂ haborted₂ hstate => ?_
    exact hrelease w₂ (hsaved₂.trans hsaved₁) haborted₂ hstate

theorem ensures_processMessage {w : BatchWorld} {b : Bool} {db : AnalyzerDb}
    (haborted : w.aborted = false) (hsaved : w.saved = some db) :
    Ensures Watched (x.processMessage m) (w, b) (TryPost m w b) := by
  have hlapsed : ∀ w', w'.saved = w.saved → w'.aborted = false →
      Ensures Watched (do x.processLapsed m; pure false) (w', b) (TryPost m w' b) :=
    fun w' hsaved' haborted' => ensures_lapsed haborted' (hsaved'.trans hsaved)
  refine body_bind haborted (steady_perform rfl rfl rfl) fun admitted w₁ hsaved₁ haborted₁ _ => ?_
  split
  · exact hlapsed w₁ hsaved₁ haborted₁
  refine body_bind haborted₁ steady_analyze fun analysis w₂ hsaved₂ haborted₂ _ => ?_
  refine body_bind haborted₂ (steady_perform rfl rfl rfl) fun admitted w₃ hsaved₃ haborted₃ _ => ?_
  split
  · exact hlapsed w₃ (hsaved₃.trans (hsaved₂.trans hsaved₁)) haborted₃
  refine body_bind haborted₃ (inside_publish analysis) fun _ w₄ hsaved₄ haborted₄ hstate => ?_
  exact ⟨rfl, rfl, Frame.refl _ _, haborted₄, rfl, hstate⟩

end Body

/-! ## A message -/

/-- What a batch does with a message. A failed one has no new signal and no new dispatch, and its only
new notification is the card of the failure. -/
structure MessageOutcome (key : RevisionKey) (before after : MessageEffects) : Prop where
  settled : ∀ r ∈ after.rows, r.intakeState ∈ [IntakeState.analyzed, .expired, .failed]
  clean : (∃ r ∈ after.rows, r.intakeState = .failed) → after.signals = before.signals ∧
    after.dispatches = before.dispatches ∧
      ∀ n ∈ after.outbox, n ∈ before.outbox ∨ n.key = .analysisFailed key

/-- The transaction after a message. -/
structure RowDone (m : TelegramRow) (w v : BatchWorld) : Prop where
  durable : v.durable = w.durable
  usable : v.aborted = false
  unsaved : v.saved = none
  frame : Frame m.key w.work v.work
  outcome : MessageOutcome m.key (w.work.effects m.key) (v.work.effects m.key)

/-- What is left of a message that failed. -/
structure Failed (key : RevisionKey) (before after : MessageEffects) : Prop where
  rows : ∀ r ∈ after.rows, r.intakeState = .failed
  signals : after.signals = before.signals
  dispatches : after.dispatches = before.dispatches
  outbox : ∀ n ∈ after.outbox, n ∈ before.outbox ∨ n.key = .analysisFailed key

/-- In the handler, after the message was marked : a statement of the handler failed and aborted the
transaction, or none did. -/
def Handling (key : RevisionKey) (w : BatchWorld) (v : BatchWorld × Bool) : Prop :=
  v.1.durable = w.durable ∧
    (v.2 = true ∧ v.1.aborted = true ∨
      v.2 = false ∧ v.1.aborted = false ∧ (∃ db, v.1.saved = some db) ∧
        Frame key w.work v.1.work ∧ Failed key (w.work.effects key) (v.1.work.effects key))

section Handler

variable {x : AnalyzerWorker} {m : TelegramRow} {key : RevisionKey} {w : BatchWorld} {α : Type}

/-- A statement of the handler on the tables. -/
theorem handling_change {c : BatchChoice} {f : AnalyzerDb → AnalyzerDb} {r : Except BatchError Unit}
    {v v' : BatchWorld × Bool} (h : Handling key w v) (hexec : v.1.change c f = (r, v'.1))
    (hflag : v'.2 = (v.2 || isSqlError r)) (hf : Frame key v.1.work (f v.1.work))
    (hfailed : ∀ before, Failed key before (v.1.work.effects key) →
      Failed key before ((f v.1.work).effects key)) : Handling key w v' := by
  obtain ⟨⟨durable, work, saved, aborted⟩, b⟩ := v
  obtain ⟨v', b'⟩ := v'
  obtain ⟨hdurable, ⟨hb, haborted⟩ | ⟨hb, haborted, hsaved, hframe, hrow⟩⟩ := h
  · obtain ⟨hr, hv⟩ := Prod.mk.inj ((guarded_aborted haborted).symm.trans hexec)
    dsimp only at hv hflag hb
    subst hv
    exact ⟨hdurable, Or.inl ⟨by rw [hflag, hb, Bool.true_or], haborted⟩⟩
  · dsimp only at hb hflag
    rcases guarded_cases haborted with hdone | ⟨name, hdone⟩
    · obtain ⟨hr, hv⟩ := Prod.mk.inj (hdone.symm.trans hexec)
      dsimp only at hv
      subst hv hr
      exact ⟨hdurable, Or.inr ⟨by rw [hflag, hb]; rfl, haborted, hsaved, hframe.trans hf, hfailed _ hrow⟩⟩
    · obtain ⟨hr, hv⟩ := Prod.mk.inj (hdone.symm.trans hexec)
      dsimp only at hv
      subst hv hr
      exact ⟨hdurable, Or.inl ⟨by rw [hflag]; exact Bool.or_true b, rfl⟩⟩

theorem handling_enroll (instruction : ManagementInstruction) {v : BatchWorld × Bool}
    (h : Handling key w v) : Ensures Watched (perform (BatchOp.enroll .outer key instruction)) v
      fun _ v' => Handling key w v' := by
  refine ensures_perform.mpr ?_
  rintro r v' ⟨⟨c, hexec⟩, hflag⟩
  have hchange : v.1.change c (·.enroll c.now key instruction) = (r, v'.1) := hexec
  refine handling_change h hchange (by simpa [breaks, BatchOp.outside] using hflag)
    ⟨fun _ hk => effects_enroll_ne hk, rfl⟩ fun before hrow => ?_
  exact ⟨hrow.rows, hrow.signals, hrow.dispatches, hrow.outbox⟩

theorem handling_notify {notice : Notice} (hnotice : notice.key = .analysisFailed key)
    {v : BatchWorld × Bool} (h : Handling key w v) :
    Ensures Watched (perform (BatchOp.notify .outer key notice)) v fun _ v' => Handling key w v' := by
  refine ensures_perform.mpr ?_
  rintro r v' ⟨⟨c, hexec⟩, hflag⟩
  have hchange : v.1.change c (·.notify notice) = (r, v'.1) := hexec
  refine handling_change h hchange (by simpa [breaks, BatchOp.outside] using hflag)
    ⟨fun _ hk => effects_notify_ne (by rw [hnotice]; rfl) hk, rfl⟩ fun before hrow => ?_
  refine ⟨hrow.rows, hrow.signals, hrow.dispatches, fun n hn => ?_⟩
  rcases mem_outbox_notify hn with hn | hn
  · exact hrow.outbox n hn
  · exact Or.inr (hn.trans hnotice)

theorem handling_evaluate (r : Except BatchError α) {v : BatchWorld × Bool} (h : Handling key w v) :
    Ensures Watched (evaluate r) v fun _ v' => Handling key w v' := by
  cases r with
  | ok a => exact h
  | error e => exact h

theorem handling_bind {β : Type} {p : BatchProg α} {f : α → BatchProg β} {v : BatchWorld × Bool}
    (hp : Ensures Watched p v fun _ v' => Handling key w v')
    (hf : ∀ a v', Handling key w v' → Ensures Watched (f a) v' fun _ v'' => Handling key w v'') :
    Ensures Watched (p >>= f) v fun _ v' => Handling key w v' :=
  ensures_bind.mpr (hp.imp fun r v' h => by
    cases r with
    | ok a => exact hf a v' h
    | error e => exact h)

theorem handling_reenroll {v : BatchWorld × Bool} (h : Handling m.key w v) :
    Ensures Watched (x.reenroll m) v fun _ v' => Handling m.key w v' := by
  refine handling_bind ?_ fun management v' h' => ?_
  · refine handling_bind (handling_evaluate _ h) fun veto v' h' => ?_
    split
    · exact h'
    · exact handling_evaluate _ h'
  · cases management with
    | none => exact h'
    | some management => exact handling_enroll management h'

/-- After a message : a statement outside of the `try` failed, or the message is done. -/
def RowPost (m : TelegramRow) (w : BatchWorld) (r : Except BatchError Unit) (v : BatchWorld × Bool) :
    Prop :=
  v.2 = true ∧ (∃ e, r = .error e) ∨ v.2 = false ∧ r = .ok () ∧ RowDone m w v.1

/-- The release at the end. -/
theorem ensures_releaseOuter {v : BatchWorld × Bool} {db : AnalyzerDb} (haborted : v.1.aborted = false)
    (hflag : v.2 = false) (hsaved : v.1.saved = some db) (hdurable : v.1.durable = w.durable)
    (hframe : Frame m.key w.work v.1.work)
    (houtcome : MessageOutcome m.key (w.work.effects m.key) (v.1.work.effects m.key)) :
    Ensures Watched (perform (BatchOp.release .outer)) v (RowPost m w) := by
  refine ensures_perform.mpr ?_
  rintro r ⟨v', b'⟩ ⟨⟨c, hexec⟩, hb⟩
  rcases release_cases (c := c) haborted hsaved with h | ⟨name, h⟩
  · obtain ⟨rfl, rfl⟩ := Prod.mk.inj (h.symm.trans hexec)
    exact Or.inr ⟨by rw [hb, hflag]; rfl, rfl, hdurable, haborted, rfl, hframe, houtcome⟩
  · obtain ⟨rfl, rfl⟩ := Prod.mk.inj (h.symm.trans hexec)
    exact Or.inl ⟨by rw [hb]; exact Bool.or_true v.2, _, rfl⟩

theorem Failed.outcome {before after : MessageEffects} (h : Failed key before after) :
    MessageOutcome key before after :=
  ⟨fun r hr => by simp [h.rows r hr], fun _ => ⟨h.signals, h.dispatches, h.outbox⟩⟩

theorem outcome_of_inState {before : MessageEffects} {db : AnalyzerDb}
    (h : InState key [.analyzed, .expired] db) : MessageOutcome key before (db.effects key) := by
  have hstate : ∀ r ∈ (db.effects key).rows, r.intakeState ∈ [IntakeState.analyzed, .expired] :=
    fun r hr => h r (Table.mem_part.mp hr).1 (Table.mem_part.mp hr).2
  refine ⟨fun r hr => ?_, fun ⟨r, hr, hfailed⟩ => ?_⟩
  · have := hstate r hr
    simp only [List.mem_cons, List.not_mem_nil, or_false] at this ⊢
    tauto
  · have := hstate r hr
    rw [hfailed] at this
    simp at this

/-- The end of the handler. -/
theorem ensures_afterHandler {v : BatchWorld × Bool} (h : Handling m.key w v) :
    Ensures Watched (perform (BatchOp.release .outer)) v (RowPost m w) := by
  obtain ⟨hdurable, ⟨hflag, haborted⟩ | ⟨hflag, haborted, ⟨db, hsaved⟩, hframe, hrow⟩⟩ := h
  · refine ensures_perform.mpr ?_
    rintro r ⟨v', b'⟩ ⟨⟨c, hexec⟩, hb⟩
    obtain ⟨rfl, -⟩ := Prod.mk.inj ((guarded_aborted haborted).symm.trans hexec)
    exact Or.inl ⟨by rw [hb, hflag, Bool.true_or], _, rfl⟩
  · exact ensures_releaseOuter haborted hflag hsaved hdurable hframe hrow.outcome

theorem rollback_cases {c : BatchChoice} {db : AnalyzerDb} (hsaved : w.saved = some db) :
    w.rollbackToSavepoint c = (.ok (), { w with work := db, aborted := false }) ∨
      ∃ name, w.rollbackToSavepoint c = (.error (.sql name), { w with aborted := true }) := by
  obtain ⟨durable, work, saved, aborted⟩ := w
  obtain rfl : saved = some db := hsaved
  unfold BatchWorld.rollbackToSavepoint
  cases c.fails with
  | none => exact Or.inl rfl
  | some name => exact Or.inr ⟨name, rfl⟩

/-- The handler, from a body that left the savepoint. -/
theorem ensures_handleFailure (e : BatchError) {w' : BatchWorld} (hsaved : w'.saved = some w.work)
    (hdurable : w'.durable = w.durable) :
    Ensures Watched (x.conclude m (.error e)) (w', false) (RowPost m w) := by
  have hend : ∀ {v : BatchWorld × Bool}, Handling m.key w v → Ensures Watched (do
      let _ ← attempt (x.reenroll m)
      let _ ← attempt (perform (BatchOp.notify .outer m.key (AnalyzerWorker.failureNotice m e)))
      perform (BatchOp.release .outer)) v (RowPost m w) := by
    intro v h
    refine ensures_bind.mpr (ensures_attempt.mpr ((handling_reenroll h).imp fun _ v₁ h₁ => ?_))
    refine ensures_bind.mpr (ensures_attempt.mpr ((handling_notify rfl h₁).imp fun _ v₂ h₂ => ?_))
    exact ensures_afterHandler h₂
  unfold AnalyzerWorker.conclude AnalyzerWorker.handleFailure
  dsimp only
  rw [Prog.bind_assoc]
  refine ensures_bind.mpr (ensures_perform.mpr ?_)
  rintro r ⟨v, b⟩ ⟨⟨c, hexec⟩, hb⟩
  rcases rollback_cases (c := c) hsaved with h | ⟨name, h⟩
  swap
  · obtain ⟨rfl, rfl⟩ := Prod.mk.inj (h.symm.trans hexec)
    exact Or.inl ⟨hb, _, rfl⟩
  obtain ⟨rfl, rfl⟩ := Prod.mk.inj (h.symm.trans hexec)
  obtain rfl : b = false := hb
  dsimp only
  rw [Prog.bind_assoc]
  refine ensures_bind.mpr (ensures_perform.mpr ?_)
  rintro r ⟨v, b⟩ ⟨⟨c, hexec⟩, hb⟩
  rcases guarded_cases (w := { w' with work := w.work, aborted := false }) (c := c) rfl with h | ⟨name, h⟩
  swap
  · obtain ⟨rfl, rfl⟩ := Prod.mk.inj (h.symm.trans hexec)
    exact Or.inl ⟨hb, _, rfl⟩
  obtain ⟨rfl, rfl⟩ := Prod.mk.inj (h.symm.trans hexec)
  obtain rfl : b = false := hb
  dsimp only
  simp only [Prog.bind_assoc]
  refine hend ⟨hdurable, Or.inr ⟨rfl, rfl, ⟨_, hsaved⟩, frame_settle failure_ne_veto, ?_⟩⟩
  have hrows : ∀ r ∈ (w.work.markFailed m.key ("analysis-failed:" ++ e.typeName)).messages,
      r.key = m.key → r.intakeState ∈ [IntakeState.failed] := inState_settle (by simp)
  refine ⟨fun r hr => ?_, rfl, rfl, fun n hn => Or.inl hn⟩
  simpa using hrows r (Table.mem_part.mp hr).1 (Table.mem_part.mp hr).2

theorem ensures_processRow (haborted : w.aborted = false) :
    Ensures Watched (x.processRow m) (w, false) (RowPost m w) := by
  refine ensures_bind.mpr (ensures_perform.mpr ?_)
  rintro r ⟨v, b⟩ ⟨⟨c, hexec⟩, hb⟩
  rcases guarded_cases (c := c) haborted with h | ⟨name, h⟩
  swap
  · obtain ⟨rfl, rfl⟩ := Prod.mk.inj (h.symm.trans hexec)
    exact Or.inl ⟨hb, _, rfl⟩
  obtain ⟨rfl, rfl⟩ := Prod.mk.inj (h.symm.trans hexec)
  obtain rfl : b = false := hb
  have hbody : Ensures Watched (x.processMessage m) ({ w with saved := some w.work }, false)
      (TryPost m { w with saved := some w.work } false) := ensures_processMessage haborted rfl
  refine ensures_bind.mpr (ensures_attempt.mpr (hbody.imp ?_))
  rintro r ⟨v, b⟩ ⟨hb, hdurable, hframe, hrest⟩
  dsimp only at hb
  subst hb
  match r, hrest with
  | .ok true, ⟨haborted', hsaved, hstate⟩ =>
    exact ensures_releaseOuter haborted' rfl hsaved hdurable hframe (outcome_of_inState hstate)
  | .ok false, ⟨haborted', hsaved, hstate⟩ =>
    exact Or.inr ⟨rfl, rfl, hdurable, haborted', hsaved, hframe, outcome_of_inState hstate⟩
  | .error e, hsaved => exact ensures_handleFailure e hsaved hdurable

end Handler

/-! ## A batch -/

/-- The transaction after some messages. -/
structure RowsDone (rows : List TelegramRow) (w v : BatchWorld) : Prop where
  durable : v.durable = w.durable
  usable : v.aborted = false
  unsaved : v.saved = none
  others : ∀ key, (∀ m ∈ rows, m.key ≠ key) → v.work.effects key = w.work.effects key
  keys : v.work.messages.rows.map TelegramRow.key = w.work.messages.rows.map TelegramRow.key
  outcome : ∀ m ∈ rows, MessageOutcome m.key (w.work.effects m.key) (v.work.effects m.key)

def RowsPost (rows : List TelegramRow) (w : BatchWorld) (r : Except BatchError Unit)
    (v : BatchWorld × Bool) : Prop :=
  v.2 = true ∧ (∃ e, r = .error e) ∨ v.2 = false ∧ r = .ok () ∧ RowsDone rows w v.1

section Batch

variable {x : AnalyzerWorker} {m : TelegramRow} {w u v t : BatchWorld} {rows : List TelegramRow}
  {es : List BatchEvent}

theorem RowsDone.cons (hrow : RowDone m w u) (hrows : RowsDone rows u v)
    (hnew : ∀ m' ∈ rows, m'.key ≠ m.key) : RowsDone (m :: rows) w v := by
  refine ⟨hrows.durable.trans hrow.durable, hrows.usable, hrows.unsaved, fun key hkey => ?_,
    hrows.keys.trans hrow.frame.keys, fun m' hm' => ?_⟩
  · have hm : key ≠ m.key := fun h => hkey m List.mem_cons_self h.symm
    exact (hrows.others key fun m' hm' => hkey m' (List.mem_cons_of_mem _ hm')).trans
      (hrow.frame.others key hm)
  · rcases List.mem_cons.mp hm' with rfl | hm'
    · rw [hrows.others m'.key fun m'' hm'' => hnew m'' hm'']
      exact hrow.outcome
    · rw [← hrow.frame.others m'.key (hnew m' hm')]
      exact hrows.outcome m' hm'

theorem ensures_processRows (haborted : w.aborted = false) (hsaved : w.saved = none)
    (hrows : (rows.map TelegramRow.key).Nodup) :
    Ensures Watched (x.processRows rows) (w, false) (RowsPost rows w) := by
  induction rows generalizing w with
  | nil =>
    exact Or.inr ⟨rfl, rfl, rfl, haborted, hsaved, fun _ _ => rfl, rfl,
      fun m hm => absurd hm List.not_mem_nil⟩
  | cons m rows ih =>
    obtain ⟨hnew, hrest⟩ := List.nodup_cons.mp hrows
    have hnew' : ∀ m' ∈ rows, m'.key ≠ m.key := fun m' hm' heq =>
      hnew (List.mem_map.mpr ⟨m', hm', heq⟩)
    refine ensures_bind.mpr ((ensures_processRow haborted).imp ?_)
    rintro r ⟨v, b⟩ (⟨hb, e, rfl⟩ | ⟨hb, rfl, hdone⟩)
    · exact Or.inl ⟨hb, e, rfl⟩
    · dsimp only at hb hdone
      subst hb
      refine (ih hdone.usable hdone.unsaved hrest).imp ?_
      rintro r v' (⟨hb, e, rfl⟩ | ⟨hb, rfl, hdone'⟩)
      · exact Or.inl ⟨hb, e, rfl⟩
      · exact Or.inr ⟨hb, rfl, RowsDone.cons hdone hdone' hnew'⟩

/-- What a run without a failure outside of the `try` leaves. -/
theorem rowsDone_of_ran {r : Except BatchError Unit} (haborted : w.aborted = false)
    (hsaved : w.saved = none) (hrows : (rows.map TelegramRow.key).Nodup)
    (hran : (x.processRows rows).Ran batchEffect w es r v) :
    es.any breaks = true ∧ (∃ e, r = .error e) ∨
      es.any breaks = false ∧ r = .ok () ∧ RowsDone rows w v := by
  have h := (ensures_processRows haborted hsaved hrows).of_ran (hran.watch breaks false)
  simpa only [RowsPost, Bool.false_or] using h

theorem rowDone_of_ran {r : Except BatchError Unit} (haborted : w.aborted = false)
    (hran : (x.processRow m).Ran batchEffect w es r v) :
    es.any breaks = true ∧ (∃ e, r = .error e) ∨ es.any breaks = false ∧ r = .ok () ∧ RowDone m w v := by
  have h := (ensures_processRow haborted).of_ran (hran.watch breaks false)
  simpa only [RowPost, Bool.false_or] using h

/-- The part of a run that processes a message. -/
theorem exists_segment (haborted : w.aborted = false) (hsaved : w.saved = none)
    (hrows : (rows.map TelegramRow.key).Nodup)
    (hran : (x.processRows rows).Ran batchEffect w es (.ok ()) t) (hm : m ∈ rows) :
    ∃ seg u v, seg <:+: es ∧ (x.processRow m).Ran batchEffect u seg (.ok ()) v ∧
      u.aborted = false ∧ u.saved = none ∧ v.aborted = false ∧
        u.work.effects m.key = w.work.effects m.key ∧ v.work.effects m.key = t.work.effects m.key := by
  induction rows generalizing w es with
  | nil => cases hm
  | cons m' rows ih =>
    obtain ⟨hnew, hrest⟩ := List.nodup_cons.mp hrows
    rcases ran_bind.mp hran with ⟨es₁, es₂, a, v, hrow, htail, rfl⟩ | ⟨e, -, he⟩
    swap
    · cases he
    have hdone : RowDone m' w v := by
      rcases rowDone_of_ran haborted hrow with ⟨-, e, he⟩ | ⟨-, -, hdone⟩
      · cases he
      · exact hdone
    have hdone' : RowsDone rows v t := by
      rcases rowsDone_of_ran hdone.usable hdone.unsaved hrest htail with ⟨-, e, he⟩ | ⟨-, -, hdone'⟩
      · cases he
      · exact hdone'
    rcases List.mem_cons.mp hm with rfl | hm
    · refine ⟨es₁, w, v, (List.prefix_append es₁ es₂).isInfix, hrow, haborted, hsaved, hdone.usable,
        rfl, ?_⟩
      exact (hdone'.others m.key fun m' hm' heq => hnew (List.mem_map.mpr ⟨m', hm', heq⟩)).symm
    · obtain ⟨seg, u, v', hinfix, hseg, huaborted, husaved, husable, hu, hv'⟩ :=
        ih hdone.usable hdone.unsaved hrest htail hm
      refine ⟨seg, u, v', hinfix.trans (List.suffix_append es₁ es₂).isInfix, hseg, huaborted, husaved,
        husable, hu.trans ?_, hv'⟩
      exact hdone.frame.others m.key fun heq => hnew (List.mem_map.mpr ⟨m, hm, heq⟩)

end Batch

/-! ### The operations of a message -/

/-- Every operation is about the message. -/
abbrev Owns {α : Type} (key : RevisionKey) (p : BatchProg α) : Prop := p.OpsIn (BatchOp.about key)

section Owns

variable {x : AnalyzerWorker} {m : TelegramRow} {key : RevisionKey} {α β : Type}

theorem owns_bind {p : BatchProg α} {f : α → BatchProg β} (hp : Owns key p)
    (hf : ∀ a, Owns key (f a)) : Owns key (p >>= f) := opsIn_bind hf hp

theorem owns_evaluate (r : Except BatchError α) : Owns key (evaluate r) := by
  cases r <;> trivial

theorem owns_instruction (text : String) : Owns key (x.instruction text) := by
  refine owns_bind (owns_evaluate _) fun veto => ?_
  split
  · trivial
  · exact owns_evaluate _

theorem owns_enrollSome (place : Place) (management : Option ManagementInstruction) :
    Owns m.key (AnalyzerWorker.enrollSome place m management) := by
  cases management with
  | none => trivial
  | some management => exact opsIn_perform rfl

theorem owns_processLapsed : Owns m.key (x.processLapsed m) := by
  refine owns_bind (owns_instruction _) fun management => ?_
  split
  · refine owns_bind (opsIn_perform rfl) fun _ => ?_
    exact owns_bind (opsIn_perform rfl) fun _ => opsIn_perform trivial
  · exact owns_bind (opsIn_perform rfl) fun _ => opsIn_perform trivial

theorem owns_readImage (image : ImageJson) : Owns m.key (x.readImage m image) := by
  unfold AnalyzerWorker.readImage
  split
  · exact owns_bind (owns_evaluate _) fun _ => trivial
  · exact owns_bind (owns_evaluate _) fun _ => trivial

theorem owns_analyze : Owns m.key (x.analyze m) := by
  unfold AnalyzerWorker.analyze
  split
  · refine owns_bind (opsIn_attempt (opsIn_perform rfl)) fun image => ?_
    split
    · exact owns_readImage _
    · exact owns_readImage _
    · trivial
  · exact owns_bind (opsIn_perform rfl) fun _ => trivial

theorem owns_insertDispatches : ∀ exchanges, Owns m.key (AnalyzerWorker.insertDispatches m exchanges)
  | [] => trivial
  | _ :: exchanges => owns_bind (opsIn_perform rfl) fun _ =>
    owns_bind (owns_insertDispatches exchanges) fun _ => trivial

theorem owns_publishSignal (signal : Option AnalyzedSignal) :
    Owns m.key (x.publishSignal m signal) := by
  cases signal with
  | none => trivial
  | some signal =>
    refine owns_bind (opsIn_perform rfl) fun _ => ?_
    refine owns_bind (opsIn_perform rfl) fun found => ?_
    split
    · exact owns_bind (owns_insertDispatches _) fun _ => trivial
    · trivial

theorem owns_imageInstruction (image : Option ImageJson) (management : Option ManagementInstruction) :
    Owns key (x.imageInstruction m image management) := by
  unfold AnalyzerWorker.imageInstruction
  split
  · trivial
  · split
    · split
      · exact owns_evaluate _
      · trivial
    · trivial

theorem owns_publish (a : Analysis) : Owns m.key (x.publish m a) := by
  refine owns_bind (owns_evaluate _) fun veto => ?_
  refine owns_bind (owns_instruction _) fun management => ?_
  refine owns_bind (owns_imageInstruction _ _) fun management => ?_
  refine owns_bind (owns_enrollSome _ _) fun _ => ?_
  refine owns_bind (owns_publishSignal _) fun dispatches => ?_
  exact owns_bind (opsIn_perform ⟨rfl, rfl⟩) fun _ => opsIn_perform rfl

theorem owns_processMessage : Owns m.key (x.processMessage m) := by
  refine owns_bind (opsIn_perform rfl) fun admitted => ?_
  split
  · exact owns_bind owns_processLapsed fun _ => trivial
  refine owns_bind owns_analyze fun analysis => ?_
  refine owns_bind (opsIn_perform rfl) fun admitted => ?_
  split
  · exact owns_bind owns_processLapsed fun _ => trivial
  · exact owns_bind (owns_publish analysis) fun _ => trivial

theorem owns_processRow : Owns m.key (x.processRow m) := by
  refine owns_bind (opsIn_perform trivial) fun _ => ?_
  refine owns_bind (opsIn_attempt owns_processMessage) fun r => ?_
  unfold AnalyzerWorker.conclude
  split
  · trivial
  · exact opsIn_perform trivial
  next e =>
    refine owns_bind ?_ fun _ => opsIn_perform trivial
    refine owns_bind (opsIn_perform trivial) fun _ => ?_
    refine owns_bind (opsIn_perform rfl) fun _ => ?_
    have hreenroll : Owns m.key (x.reenroll m) :=
      owns_bind (owns_instruction _) fun management => owns_enrollSome _ _
    refine owns_bind (opsIn_attempt hreenroll) fun _ => ?_
    exact owns_bind (opsIn_attempt (opsIn_perform ⟨rfl, rfl⟩)) fun _ => trivial

/-- The message, processed in a transaction that has the same of it. -/
theorem ran_sameFor {w u v : BatchWorld} {es : List BatchEvent} {r : Except BatchError Unit}
    (hran : (x.processRow m).Ran batchEffect w es r v) (h : SameFor m.key w u) :
    ∃ u', (x.processRow m).Ran batchEffect u es r u' ∧ SameFor m.key v u' := by
  refine hran.transfer (P := BatchOp.about m.key) ?_ owns_processRow h
  rintro o w r v u ho h ⟨c, hexec⟩
  obtain ⟨hanswer, hsame⟩ := sameFor_exec (c := c) ho h
  rw [hexec] at hanswer hsame
  exact ⟨(batchExec u c o).2, ⟨c, Prod.ext hanswer.symm rfl⟩, hsame⟩

end Owns

/-! ## Alone and together -/

/-- A transaction that begins. -/
def begun (db : AnalyzerDb) : BatchWorld := ⟨db, db, none, false⟩

/-- The messages a batch selected. -/
def selected : List BatchEvent → List TelegramRow
  | ⟨.selectReceived _ _, .ok rows⟩ :: _ => rows
  | _ => []

/-- The batch commits. Every message is done, and has the effects it has in a batch of its own, with
the same events. -/
structure BatchDone (x : AnalyzerWorker) (db : AnalyzerDb) (es : List BatchEvent)
    (r : Except BatchError ℕ) (t : BatchWorld) : Prop where
  answered : r = .ok (selected es).length
  committed : ⟨.commit, .ok ()⟩ ∈ es
  present : ∀ m ∈ selected es, ∃ row ∈ t.durable.messages, row.key = m.key
  outcome : ∀ m ∈ selected es, MessageOutcome m.key (db.effects m.key) (t.durable.effects m.key)
  alone : ∀ m ∈ selected es, ∃ seg u, seg <:+: es ∧
    x.processReceivedBatch.Ran batchEffect (begun db)
      (⟨.selectReceived x.channelIds x.limit, .ok [m]⟩ :: (seg ++ [⟨.commit, .ok ()⟩])) (.ok 1) u ∧
    t.durable.effects m.key = u.durable.effects m.key

/-- The arguments are accepted. -/
def AnalyzerWorker.Accepted (x : AnalyzerWorker) : Prop :=
  1 ≤ x.limit ∧ x.exchanges ≠ [] ∧ ∀ exchange ∈ x.exchanges, AnalyzerWorker.supported exchange = true

section Batches

variable {x : AnalyzerWorker} {db : AnalyzerDb} {es : List BatchEvent} {r : Except BatchError ℕ}
  {t : BatchWorld} {m : TelegramRow} {c : BatchChoice}

theorem processReceivedBatch_eq (h : x.Accepted) : x.processReceivedBatch = (do
    let rows : List TelegramRow ← perform (BatchOp.selectReceived x.channelIds x.limit)
    x.processRows rows
    perform BatchOp.commit
    pure rows.length) := by
  obtain ⟨hlimit, hexchanges, hsupported⟩ := h
  have hall : ¬ (x.exchanges = [] ∨ (x.exchanges.any fun e => !AnalyzerWorker.supported e) = true) := by
    rintro (hnil | hany)
    · exact hexchanges hnil
    · obtain ⟨e, he, hnot⟩ := List.any_eq_true.mp hany
      rw [hsupported e he] at hnot
      cases hnot
  unfold AnalyzerWorker.processReceivedBatch
  rw [if_neg (not_lt.mpr hlimit), if_neg hall]

theorem mem_received (h : m ∈ db.received c x.channelIds x.limit) :
    m ∈ db.messages ∧ m.intakeState = .received ∧ x.channelIds.contains m.revision.channelId = true ∧
      sourceEligible db.messages c.now m = true := by
  have hmem := (List.perm_insertionSort _ _).mem_iff.mp (List.mem_of_mem_take h)
  obtain ⟨hrow, hselected⟩ := List.mem_filter.mp hmem
  simp only [Bool.and_eq_true, decide_eq_true_eq] at hselected
  exact ⟨hrow, hselected.1.1.1, hselected.1.1.2, hselected.1.2⟩

theorem nodup_received (x : AnalyzerWorker) (db : AnalyzerDb) (c : BatchChoice) :
    ((db.received c x.channelIds x.limit).map TelegramRow.key).Nodup := by
  have hkeys : (db.messages.rows.map TelegramRow.key).Nodup := by
    rw [List.nodup_map_iff_inj_on db.messages.nodup]
    exact fun a ha b hb h => Table.eq_of_key ha hb h
  have hfilter := hkeys.sublist (List.filter_sublist (p := fun r : TelegramRow =>
    r.intakeState = .received && x.channelIds.contains r.revision.channelId &&
      sourceEligible db.messages c.now r && !c.locked r.key).map TelegramRow.key)
  have hsorted := ((List.perm_insertionSort AnalyzerDb.Earlier _).map TelegramRow.key).nodup_iff.mpr
    hfilter
  exact hsorted.sublist ((List.take_sublist _ _).map TelegramRow.key)

/-- Where every other row is locked, the message is alone. -/
theorem received_alone (hlimit : 1 ≤ x.limit) (h : m ∈ db.received c x.channelIds x.limit) :
    db.received { c with fails := none, locked := fun key => key ≠ m.key } x.channelIds x.limit = [m] := by
  obtain ⟨hrow, hstate, hchannel, heligible⟩ := mem_received h
  have hmem : m.revision.channelId ∈ x.channelIds := by simpa using hchannel
  have hfilter : (db.messages.rows.filter fun r => r.intakeState = .received &&
      x.channelIds.contains r.revision.channelId && sourceEligible db.messages c.now r &&
      !decide (r.key ≠ m.key)) = [m] := by
    have hiff : ∀ r ∈ db.messages.rows, (r.intakeState = .received &&
        x.channelIds.contains r.revision.channelId && sourceEligible db.messages c.now r &&
        !decide (r.key ≠ m.key)) = (r == m) := fun r hr => by
      by_cases hkey : r.key = m.key
      · obtain rfl : r = m := Table.eq_of_key hr hrow hkey
        simp [hstate, hmem, heligible]
      · have hne : r ≠ m := fun heq => hkey (heq ▸ rfl)
        simp [hkey, hne]
    rw [List.filter_congr hiff, List.filter_beq, List.count_eq_one_of_mem db.messages.nodup hrow]
    rfl
  unfold AnalyzerDb.received
  rw [hfilter]
  have hpos : 0 < x.limit.toNat := by omega
  obtain ⟨n, hn⟩ := Nat.exists_eq_add_of_lt hpos
  simp [hn]

/-- The batch of one message. -/
theorem ran_alone (haccepted : x.Accepted) (hm : m ∈ db.received c x.channelIds x.limit)
    {seg : List BatchEvent} {u : BatchWorld}
    (hseg : (x.processRow m).Ran batchEffect (begun db) seg (.ok ()) u) (haborted : u.aborted = false) :
    x.processReceivedBatch.Ran batchEffect (begun db)
      (⟨.selectReceived x.channelIds x.limit, .ok [m]⟩ :: (seg ++ [⟨.commit, .ok ()⟩])) (.ok 1)
      { u with durable := u.work } := by
  have hselect : batchEffect (.selectReceived x.channelIds x.limit) (begun db) (.ok [m]) (begun db) := by
    have halone := received_alone haccepted.1 hm
    exact ⟨{ c with fails := none, locked := fun key => key ≠ m.key }, by
      rw [← halone]
      rfl⟩
  have hcommit : batchEffect .commit u (.ok ()) { u with durable := u.work } :=
    ⟨{}, by simp [batchExec, BatchWorld.commit, haborted]⟩
  have hrows : (x.processRows [m]).Ran batchEffect (begun db) seg (.ok ()) u :=
    ran_bind.mpr (Or.inl ⟨seg, [], (), u, hseg, ⟨rfl, rfl, rfl⟩, (List.append_nil seg).symm⟩)
  rw [processReceivedBatch_eq haccepted]
  refine ran_bind.mpr (Or.inl ⟨[_], _, [m], begun db, ran_perform.mpr ⟨hselect, rfl⟩, ?_, rfl⟩)
  refine ran_bind.mpr (Or.inl ⟨seg, _, (), u, hrows, ?_, rfl⟩)
  exact ran_bind.mpr (Or.inl ⟨[_], [], (), _, ran_perform.mpr ⟨hcommit, rfl⟩, ⟨rfl, rfl, rfl⟩, rfl⟩)

/-- How a batch ends : a statement outside of the `try` failed and it raises, or its messages are done
and it commits. -/
theorem batch_cases (haccepted : x.Accepted)
    (hran : x.processReceivedBatch.Ran batchEffect (begun db) es r t) :
    es.any breaks = true ∧ (∃ e, r = .error e) ∨ es.any breaks = false ∧ BatchDone x db es r t := by
  rw [processReceivedBatch_eq haccepted] at hran
  rcases ran_bind.mp hran with ⟨es₁, es₂, rows, w₁, hselect, hrest, rfl⟩ | ⟨e, hselect, rfl⟩
  swap
  · obtain ⟨⟨c, hexec⟩, rfl⟩ := ran_perform.mp hselect
    rcases guarded_cases (w := begun db) (c := c) rfl with h | ⟨name, h⟩
    · cases (Prod.mk.inj (h.symm.trans hexec)).1
    · obtain ⟨he, -⟩ := Prod.mk.inj (h.symm.trans hexec)
      refine Or.inl ⟨?_, e, rfl⟩
      rw [← he]
      rfl
  obtain ⟨⟨c, hexec⟩, rfl⟩ := ran_perform.mp hselect
  have hfails : c.fails = none := by
    cases hfails : c.fails with
    | none => rfl
    | some name =>
      simp [batchExec, BatchWorld.query, BatchWorld.guarded, begun, hfails] at hexec
  have hpair : (Except.ok (db.received c x.channelIds x.limit), begun db) =
      ((Except.ok rows, w₁) : Except BatchError (List TelegramRow) × BatchWorld) := by
    rw [← hexec]
    simp [batchExec, BatchWorld.query, BatchWorld.guarded, begun, hfails]
  obtain ⟨hrows, rfl⟩ := Prod.mk.inj hpair
  obtain rfl := Except.ok.inj hrows
  have hnodup := nodup_received x db c
  have hfirst : breaks ⟨.selectReceived x.channelIds x.limit,
      .ok (db.received c x.channelIds x.limit)⟩ = false := rfl
  rcases ran_bind.mp hrest with ⟨es₂, es₃, a, v, hprocess, hend, rfl⟩ | ⟨e, hprocess, rfl⟩
  swap
  · rcases rowsDone_of_ran rfl rfl hnodup hprocess with ⟨hbreaks, -⟩ | ⟨-, he, -⟩
    · exact Or.inl ⟨by simp [hfirst, hbreaks], e, rfl⟩
    · cases he
  rcases rowsDone_of_ran rfl rfl hnodup hprocess with ⟨-, e, he⟩ | ⟨hquiet, -, hdone⟩
  · cases he
  rcases ran_bind.mp hend with ⟨es₃, es₄, a, v', hcommit, hlast, rfl⟩ | ⟨e, hcommit, rfl⟩
  swap
  · obtain ⟨⟨c', hexec'⟩, rfl⟩ := ran_perform.mp hcommit
    simp only [batchExec, BatchWorld.commit] at hexec'
    split at hexec'
    · obtain ⟨he, -⟩ := Prod.mk.inj hexec'
      refine Or.inl ⟨?_, e, rfl⟩
      have hbreaks : breaks ⟨.commit, .error e⟩ = true := by rw [← he]; rfl
      simp [hbreaks]
    · cases (Prod.mk.inj hexec').1
  obtain ⟨⟨c', hexec'⟩, rfl⟩ := ran_perform.mp hcommit
  obtain ⟨rfl, rfl, rfl⟩ := hlast
  have hdurable : t.durable = v.work := by
    simp only [batchExec, BatchWorld.commit, hdone.usable] at hexec'
    split at hexec'
    · cases (Prod.mk.inj hexec').1
    · rw [← (Prod.mk.inj hexec').2]
      rfl
  have hcommitted : breaks ⟨.commit, .ok a⟩ = false := rfl
  refine Or.inr ⟨by simp [hfirst, hquiet, hcommitted], rfl, by simp, fun m hm => ?_, fun m hm => ?_,
    fun m hm => ?_⟩
  · have hkey : m.key ∈ t.durable.messages.rows.map TelegramRow.key := by
      rw [hdurable, hdone.keys]
      exact List.mem_map_of_mem (mem_received hm).1
    obtain ⟨row, hrow, hk⟩ := List.mem_map.mp hkey
    exact ⟨row, hrow, hk⟩
  · rw [hdurable]
    exact hdone.outcome m hm
  · obtain ⟨seg, u, v', hinfix, hseg, huaborted, husaved, hvaborted, hu, hv'⟩ :=
      exists_segment rfl rfl hnodup hprocess hm
    have hsame : SameFor m.key u (begun db) := ⟨hu, by rw [husaved]; rfl, huaborted⟩
    obtain ⟨u', hran', hsame'⟩ := ran_sameFor hseg hsame
    refine ⟨seg, { u' with durable := u'.work }, ?_, ?_, ?_⟩
    · exact hinfix.trans ((List.prefix_append _ _).isInfix.trans (List.suffix_append _ _).isInfix)
    · exact ran_alone haccepted hm hran' (hsame'.aborted ▸ hvaborted)
    · rw [hdurable, ← hv']
      exact hsame'.work

end Batches

/-- A batch is done as it should be exactly where no statement outside of the `try` fails. -/
theorem batch_isolated (x : AnalyzerWorker) (haccepted : x.Accepted) (db : AnalyzerDb)
    {es : List BatchEvent} {r : Except BatchError ℕ} {t : BatchWorld}
    (hran : x.processReceivedBatch.Ran batchEffect (begun db) es r t) :
    BatchDone x db es r t ↔ ∀ e ∈ es, breaks e = false := by
  rcases batch_cases haccepted hran with ⟨hbreaks, e, rfl⟩ | ⟨hquiet, hdone⟩
  · constructor
    · intro hdone
      cases hdone.answered
    · intro hquiet
      obtain ⟨e', he', hbreak⟩ := List.any_eq_true.mp hbreaks
      rw [hquiet e' he'] at hbreak
      cases hbreak
  · exact ⟨fun _ => by simpa [List.any_eq_false] using hquiet, fun _ => hdone⟩

/-! ## Two messages, and a card that cannot be written -/

def receivedRow : TelegramRow where
  revision :=
    { channelId := 7, messageId := 42, revisionHash := "first", rawText := "BTC looks good",
      receivedAt := 0, entryExpiresAt := some 300000000 }
  intakeState := .received

def receivedDb : AnalyzerDb := { messages := ⟨[receivedRow], by simp⟩ }

def signalRow : TelegramRow where
  revision := { receivedRow.revision with messageId := 43, revisionHash := "second" }
  intakeState := .received

def pairDb : AnalyzerDb := { messages := receivedDb.messages.insertNew signalRow }

/-- No text stands down, and none has an instruction. -/
def textWorker : AnalyzerWorker where
  limit := 10
  exchanges := ["bitget"]
  imageAnalysisEnabled := false
  channelIds := [7]
  entryStandsDown _ := .ok false
  parseSourceManagement _ := .ok none
  parseExplicitSignal _ _ := .ok none
  signalFromImage _ _ _ := .ok none
  managementFromImage _ := .ok none

/-- The analysis raises. -/
def raising : BatchChoice := { now := 1 }

/-- The analysis of the first message raises, and that of the second has a signal. -/
def firstRaises : BatchOp → BatchChoice
  | .analyzeText key _ =>
    if key = signalRow.key then
      { raising with text := .ok ⟨.codexSucceeded, some ⟨"BTC", .long, 100, 95, [110]⟩, none⟩ }
    else raising
  | _ => raising

/-- The card of the failure cannot be written. -/
def cardFails : BatchOp → BatchChoice
  | .notify .outer _ _ => { raising with fails := some "SerializationFailure" }
  | _ => raising

def answeringBy (choice : BatchOp → BatchChoice) (o : BatchOp) (w : BatchWorld) :
    Except BatchError (BatchAns o) × BatchWorld := batchExec w (choice o) o

/-- The events of a batch, with its result and what it leaves. -/
def batchRun (db : AnalyzerDb) (choice : BatchOp → BatchChoice) :
    List BatchEvent × Except BatchError ℕ × BatchWorld :=
  (textWorker.processReceivedBatch.events (answeringBy choice) (begun db),
    textWorker.processReceivedBatch.run (answeringBy choice) (begun db))

theorem ran_batchRun (db : AnalyzerDb) (choice : BatchOp → BatchChoice) :
    textWorker.processReceivedBatch.Ran batchEffect (begun db) (batchRun db choice).1
      (batchRun db choice).2.1 (batchRun db choice).2.2 := by
  have heffect : ∀ o w, batchEffect o w (answeringBy choice o w).1 (answeringBy choice o w).2 :=
    fun o _ => ⟨choice o, rfl⟩
  exact ran_run heffect textWorker.processReceivedBatch (begun db)

theorem textWorker_accepted : textWorker.Accepted := by
  refine ⟨by decide, by simp [textWorker], fun exchange h => ?_⟩
  rw [List.mem_singleton.mp h]
  rfl

/-- The batch selects both messages, the first one fails and the second is analyzed and dispatched,
each as in a batch of its own. -/
theorem raised_isolated : ∃ es t,
    textWorker.processReceivedBatch.Ran batchEffect (begun pairDb) es (.ok 2) t ∧
      BatchDone textWorker pairDb es (.ok 2) t ∧ selected es = [receivedRow, signalRow] ∧
      t.durable.messages.rows.map (·.intakeState) = [.failed, .analyzed] ∧
      (t.durable.effects receivedRow.key).dispatches = [] ∧
      ((t.durable.effects signalRow.key).dispatches.map (·.exchange)) = ["bitget"] := by
  have hfacts : (batchRun pairDb firstRaises).2.1 = .ok 2 ∧
      ((batchRun pairDb firstRaises).1.all fun e => !breaks e) = true ∧
      selected (batchRun pairDb firstRaises).1 = [receivedRow, signalRow] := by decide +kernel
  obtain ⟨hresult, hquiet, hselected⟩ := hfacts
  have hran := hresult ▸ ran_batchRun pairDb firstRaises
  refine ⟨_, _, hran, ?_, hselected, ?_, ?_, ?_⟩
  · refine (batch_isolated textWorker textWorker_accepted pairDb hran).mpr fun e he => ?_
    simpa using List.all_eq_true.mp hquiet e he
  · decide +kernel
  · decide +kernel
  · decide +kernel

/-- The batch raises, and its message stays received. -/
theorem card_lost : ∃ es t, textWorker.processReceivedBatch.Ran batchEffect (begun receivedDb) es
    (.error .inFailedSqlTransaction) t ∧ ∀ row ∈ t.durable.messages, row.intakeState = .received := by
  have hresult : (batchRun receivedDb cardFails).2.1 = .error .inFailedSqlTransaction := by
    decide +kernel
  have hrows : ((batchRun receivedDb cardFails).2.2.durable.messages.rows.all fun row =>
      row.intakeState = .received) = true := by decide +kernel
  refine ⟨_, _, hresult ▸ ran_batchRun receivedDb cardFails, fun row hrow => ?_⟩
  simpa using List.all_eq_true.mp hrows row hrow

end FattyTrader
