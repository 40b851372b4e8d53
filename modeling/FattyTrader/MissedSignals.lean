import FattyTrader.Ledger
import FattyTrader.Runs
import Mathlib.Data.List.Nodup
import Mathlib.Data.List.ProdSigma
import Mathlib.Data.List.Sort

/-!
# Signals missed in a maintenance window

`sweep_missed_signals` joins the messages without a canonical signal with the maintenance windows
they arrived or lapsed in, records each row of the join in `missed_signals`, and stores one
notification under the window of the first row.

A message is recorded once, whatever windows it lies in : `message_id` is the key of the table.
The list a sweep returns has one entry for each row of the join, and a notification under a key
that is taken is dropped. So a sweep accounts for what it records (`Accounted`) exactly when no
message lies in two of the windows it looks at, and the window it names has no notification yet
or a stored one lists the messages already (`missedSignals_iff`).
-/

set_option linter.unusedSectionVars false

open Tables Runs

namespace FattyTrader

/-! ## The tables -/

/-- A row of `telegram_messages`. -/
structure ChannelMessage where
  id : Uuid
  messageId : ℤ
  receivedAt : Instant
  entryExpiresAt : Option Instant
deriving DecidableEq

/-- A row of `maintenance_windows`. -/
structure MaintenanceWindow where
  id : String
  startedAt : Instant
  endedAt : Option Instant := none
  revision : String
  reason : String
  openedBy : String := "rollout"
deriving DecidableEq

/-- A row of `missed_signals`. -/
structure MissedSignal where
  messageId : Uuid
  windowId : String
  messageRef : ℤ
  receivedAt : Instant
  entryExpiresAt : Option Instant
  reason : String
deriving DecidableEq

/-- An entry of the list a sweep returns. -/
structure RecordedSignal where
  messageId : ℤ
  windowId : String
  receivedAt : Instant
  entryExpiresAt : Option Instant
deriving DecidableEq

/-- `_notification_payload`. -/
structure MissedSignalPayload where
  kind : String
  count : ℕ
  messages : String
  summary : String

/-- It names the first ten messages, and counts the others. -/
def notificationPayload (recorded : List RecordedSignal) : MissedSignalPayload where
  kind := "missed-signal"
  count := recorded.length
  messages := ", ".intercalate ((recorded.take 10).map fun row => "#" ++ toString row.messageId) ++
    if recorded.length ≤ 10 then "" else " (+" ++ toString (recorded.length - 10) ++ " more)"
  summary := toString recorded.length ++
    " channel message(s) lapsed during a maintenance window " ++
    "and produced no signal; review them manually."

/-- A row of `notifications_outbox`, with the list its payload is built from. The notifications of
other components have none. -/
structure OutboxNotice where
  dedupKey : String
  recorded : List RecordedSignal := []

def OutboxNotice.payload (notice : OutboxNotice) : MissedSignalPayload :=
  notificationPayload notice.recorded

/-- The messages, the ids of those with a canonical signal, the windows, the record of missed
signals and the notifications. -/
structure OpsDb where
  messages : Table ChannelMessage (SameKey ChannelMessage.id)
  signals : List Uuid := []
  windows : Table MaintenanceWindow (SameKey MaintenanceWindow.id) := .empty
  missed : Table MissedSignal (SameKey MissedSignal.messageId) := .empty
  outbox : Table OutboxNotice (SameKey OutboxNotice.dedupKey) := .empty

/-! ## The sweep -/

/-- `_ID_PATTERN`. -/
def isWindowId (s : String) : Bool :=
  s.length = 36 && s.toList.all fun c =>
    c.isDigit || ('a' ≤ c && c ≤ 'f') || ('A' ≤ c && c ≤ 'F') || c = '-'

inductive SweepError
  | invalidWindowId
deriving DecidableEq

def SweepError.message : SweepError → String
  | .invalidWindowId => "maintenance window id is invalid"

/-- An open window holds until now. -/
def MaintenanceWindow.holds (w : MaintenanceWindow) (now x : Instant) : Bool :=
  w.startedAt ≤ x && x ≤ w.endedAt.getD now

/-- The message arrived in the window, or lapsed in it. -/
def MaintenanceWindow.covers (w : MaintenanceWindow) (now : Instant) (m : ChannelMessage) : Bool :=
  w.holds now m.receivedAt || m.entryExpiresAt.any (w.holds now)

/-- A row of the join. -/
abbrev Lapse := ChannelMessage × MaintenanceWindow

def Lapse.missed (row : Lapse) : MissedSignal where
  messageId := row.1.id
  windowId := row.2.id
  messageRef := row.1.messageId
  receivedAt := row.1.receivedAt
  entryExpiresAt := row.1.entryExpiresAt
  reason := "maintenance-window"

def MissedSignal.entry (r : MissedSignal) : RecordedSignal where
  messageId := r.messageRef
  windowId := r.windowId
  receivedAt := r.receivedAt
  entryExpiresAt := r.entryExpiresAt

/-- `ORDER BY tm.received_at`, with any order of the rows that tie. -/
structure RowOrder where
  sort : List Lapse → List Lapse
  perm : ∀ rows, (sort rows).Perm rows
  sorted : ∀ rows, (sort rows).Pairwise fun a b => a.1.receivedAt ≤ b.1.receivedAt

def missedSignalKey (windowId : String) : String := "missed-signal-window:" ++ windowId

namespace OpsDb

variable (db : OpsDb) (now : Instant) (windowId : Option String)

/-- The query of the sweep, in no order. -/
def lapses : List Lapse :=
  (db.messages.rows ×ˢ db.windows.rows).filter fun row =>
    row.2.covers now row.1 && decide (row.1.id ∉ db.signals) &&
      (db.missed.find MissedSignal.messageId row.1.id).isNone && windowId.all (· = row.2.id)

def sweepMissedSignals (order : RowOrder) : Except SweepError (List RecordedSignal) × OpsDb :=
  if windowId.all isWindowId then
    let rows := order.sort (db.lapses now windowId)
    let recorded := rows.map fun row => row.missed.entry
    let db := { db with missed := db.missed.insertAll (rows.map Lapse.missed) }
    match recorded with
    | [] => (.ok [], db)
    | first :: _ =>
      (.ok recorded,
        { db with outbox := db.outbox.insertNew ⟨missedSignalKey first.windowId, recorded⟩ })
  else (.error .invalidWindowId, db)

def openMaintenanceWindow (id revision reason : String) : OpsDb :=
  match db.windows.insert { id, startedAt := now, revision, reason } with
  | some windows => { db with windows }
  | none => db

def closeMaintenanceWindow (id : String) : Except SweepError Unit × OpsDb :=
  if isWindowId id then
    match db.windows.updateWhere (·.id = id) (fun w => { w with endedAt := some now }) with
    | some windows => (.ok (), { db with windows })
    | none => (.ok (), db)
  else (.error .invalidWindowId, db)

end OpsDb

/-! ## Runs -/

/-- A sweep, a window that opens or closes, the messages and signals the intake leaves, and a
notification of another component. -/
inductive OpsLabel
  | sweep (order : RowOrder) (now : Instant) (windowId : Option String)
  | openWindow (now : Instant) (id revision reason : String)
  | closeWindow (now : Instant) (id : String)
  | intake (messages : Table ChannelMessage (SameKey ChannelMessage.id)) (signals : List Uuid)
  | notify (dedupKey : String)

namespace OpsDb

variable (db : OpsDb)

def step : OpsLabel → OpsDb
  | .sweep order now windowId => (db.sweepMissedSignals now windowId order).2
  | .openWindow now id revision reason => db.openMaintenanceWindow now id revision reason
  | .closeWindow now id => (db.closeMaintenanceWindow now id).2
  | .intake messages signals => { db with messages, signals }
  | .notify dedupKey => { db with outbox := db.outbox.insertNew ⟨dedupKey, []⟩ }

/-- The rows of `missed_signals` that `db'` has and `db` does not. -/
def newlyMissed (db' : OpsDb) : List MissedSignal :=
  db'.missed.rows.filter fun r => r ∉ db.missed.rows

/-- What a sweep promises : every message it looks at is recorded once, the list it returns names
each new row once, and for each window with new rows a notification lists them. -/
structure Swept (now : Instant) (windowId : Option String) (recorded : List RecordedSignal)
    (db' : OpsDb) : Prop where
  once : ∀ m ∈ db.messages, ∀ w ∈ db.windows, windowId.all (· = w.id) → w.covers now m →
    m.id ∉ db.signals → ∃! r, r ∈ db'.missed ∧ r.messageId = m.id
  named : recorded.Perm ((db.newlyMissed db').map MissedSignal.entry)
  covered : ∀ w, (∃ r ∈ db.newlyMissed db', r.windowId = w) → ∃ notice ∈ db'.outbox,
    ∀ r ∈ db.newlyMissed db', r.windowId = w → r.entry ∈ notice.recorded

/-- A sweep that returns keeps its promises, and one that is refused changes nothing. -/
def Accounted (l : OpsLabel) : Prop :=
  match l with
  | .sweep order now windowId =>
    match db.sweepMissedSignals now windowId order with
    | (.ok recorded, db') => db.Swept now windowId recorded db'
    | (.error _, db') => db' = db
  | _ => True

/-- No message lies in two of the windows, and the window of the first has no notification yet,
unless stored ones list the messages of every window. -/
structure Single (now : Instant) (windowId : Option String) (order : RowOrder) : Prop where
  one : ∀ m w w', (m, w) ∈ db.lapses now windowId → (m, w') ∈ db.lapses now windowId → w = w'
  fresh : ∀ first ∈ (order.sort (db.lapses now windowId)).head?,
    (∀ notice ∈ db.outbox, notice.dedupKey ≠ missedSignalKey first.2.id) ∨
      ∀ row ∈ db.lapses now windowId, ∃ notice ∈ db.outbox,
        ∀ row' ∈ db.lapses now windowId, row'.2.id = row.2.id → row'.missed.entry ∈ notice.recorded

/-- The condition on a step. -/
def Meets (l : OpsLabel) : Prop :=
  match l with
  | .sweep order now windowId => windowId.all isWindowId → db.Single now windowId order
  | _ => True

end OpsDb

/-! ## What a sweep does -/

namespace OpsDb

variable {db : OpsDb} {now : Instant} {windowId : Option String} {order : RowOrder}
  {m : ChannelMessage} {w : MaintenanceWindow}

theorem mem_lapses : (m, w) ∈ db.lapses now windowId ↔
    m ∈ db.messages ∧ w ∈ db.windows ∧ w.covers now m = true ∧ m.id ∉ db.signals ∧
      (∀ r ∈ db.missed, r.messageId ≠ m.id) ∧ windowId.all (· = w.id) = true := by
  simp only [lapses, List.mem_filter, Bool.and_eq_true, decide_eq_true_eq,
    Option.isNone_iff_eq_none, Table.find_eq_none_iff, Table.mem_iff]
  rw [List.mem_product]
  tauto

theorem nodup_lapses : (db.lapses now windowId).Nodup :=
  (List.Nodup.product db.messages.nodup db.windows.nodup).filter _

/-- The rows of the join, in the order of the query. -/
theorem mem_sort {row : Lapse} :
    row ∈ order.sort (db.lapses now windowId) ↔ row ∈ db.lapses now windowId :=
  (order.perm _).mem_iff

/-- The rows to insert conflict with none that is there. -/
theorem not_conflict_missed {row : Lapse} (h : row ∈ db.lapses now windowId) {r : MissedSignal}
    (hr : r ∈ db.missed) : ¬ SameKey MissedSignal.messageId r row.missed :=
  (mem_lapses.mp h).2.2.2.2.1 r hr

/-- The list returned, and the table left. -/
theorem sweep_ok (db : OpsDb) (now : Instant) (order : RowOrder) (h : windowId.all isWindowId = true) :
    ∃ outbox, db.sweepMissedSignals now windowId order =
      (.ok ((order.sort (db.lapses now windowId)).map fun row => row.missed.entry),
        { db with
          missed := db.missed.insertAll ((order.sort (db.lapses now windowId)).map Lapse.missed)
          outbox }) := by
  unfold sweepMissedSignals
  rw [if_pos h]
  dsimp only
  cases order.sort (db.lapses now windowId) with
  | nil => exact ⟨db.outbox, rfl⟩
  | cons first rows => exact ⟨_, rfl⟩

/-- The notifications a sweep leaves. -/
theorem outbox_sweep (db : OpsDb) (now : Instant) (order : RowOrder)
    (h : windowId.all isWindowId = true) :
    (db.sweepMissedSignals now windowId order).2.outbox =
      match (order.sort (db.lapses now windowId)).head? with
      | none => db.outbox
      | some first => db.outbox.insertNew ⟨missedSignalKey first.2.id,
          (order.sort (db.lapses now windowId)).map fun row => row.missed.entry⟩ := by
  unfold sweepMissedSignals
  rw [if_pos h]
  dsimp only
  cases order.sort (db.lapses now windowId) with
  | nil => rfl
  | cons first rows => rfl

/-- What is new are some rows of the join, in order. -/
theorem newlyMissed_sublist {db' : OpsDb} {rows : List Lapse}
    (hrows : ∀ row ∈ rows, row ∈ db.lapses now windowId)
    (h : db'.missed = db.missed.insertAll (rows.map Lapse.missed)) :
    db'.missed.rows = db.missed.rows ++ db.newlyMissed db' ∧
      (db.newlyMissed db').Sublist (rows.map Lapse.missed) := by
  obtain ⟨new, hnew, hsub⟩ := Table.exists_new_insertAll db.missed (rows.map Lapse.missed)
  have hnone : ∀ r ∈ new, r ∉ db.missed.rows := by
    intro r hr hold
    obtain ⟨row, hrow, rfl⟩ := List.mem_map.mp (hsub.subset hr)
    exact not_conflict_missed (hrows row hrow) hold rfl
  have hfilter : db.newlyMissed db' = new := by
    rw [newlyMissed, h, hnew, List.filter_append, List.filter_eq_nil_iff.mpr,
      List.filter_eq_self.mpr, List.nil_append]
    · exact fun r hr => decide_eq_true (hnone r hr)
    · exact fun r hr => by simpa using hr
  rw [hfilter, h]
  exact ⟨hnew, hsub⟩

/-- The new rows are all of the join exactly when no message is in it twice. -/
theorem newlyMissed_eq_iff {db' : OpsDb} {rows : List Lapse} (hnodup : rows.Nodup)
    (hrows : ∀ row, row ∈ rows ↔ row ∈ db.lapses now windowId)
    (h : db'.missed = db.missed.insertAll (rows.map Lapse.missed)) :
    db.newlyMissed db' = rows.map Lapse.missed ↔
      ∀ m w w', (m, w) ∈ db.lapses now windowId → (m, w') ∈ db.lapses now windowId → w = w' := by
  obtain ⟨heq, hsub⟩ := newlyMissed_sublist (fun row => (hrows row).mp) h
  constructor
  · intro hall m w w' hw hw'
    by_contra hne
    have hpair : (rows.map Lapse.missed).Pairwise fun a b => ¬ SameKey MissedSignal.messageId a b :=
      hall ▸ (List.pairwise_append.mp (heq ▸ db'.missed.unique)).2.1
    have : Std.Symm fun a b : Lapse => ¬ SameKey MissedSignal.messageId a.missed b.missed :=
      ⟨fun _ _ h h' => h h'.symm⟩
    exact (List.pairwise_map.mp hpair).forall ((hrows _).mpr hw) ((hrows _).mpr hw')
      (fun h => hne (congrArg Prod.snd h)) rfl
  · intro hone
    have hpair : (rows.map Lapse.missed).Pairwise fun a b =>
        ¬ SameKey MissedSignal.messageId a b := by
      refine List.pairwise_map.mpr (hnodup.imp_of_mem fun {a b} ha hb hne hkey => hne ?_)
      have ha' := (hrows a).mp ha
      have hb' := (hrows b).mp hb
      have hm : a.1 = b.1 := Table.eq_of_key (mem_lapses.mp ha').1 (mem_lapses.mp hb').1 hkey
      exact Prod.ext hm (hone a.1 a.2 b.2 ha' (by rw [hm]; exact hb'))
    have happend : (db.missed.rows ++ rows.map Lapse.missed).Pairwise fun a b =>
        ¬ SameKey MissedSignal.messageId a b := by
      refine List.pairwise_append.mpr ⟨db.missed.unique, hpair, fun r hr r' hr' => ?_⟩
      obtain ⟨row, hrow, rfl⟩ := List.mem_map.mp hr'
      exact not_conflict_missed ((hrows row).mp hrow) hr
    exact List.append_cancel_left (heq.symm.trans (h ▸ Table.rows_insertAll_of happend))

/-- Every message a sweep looks at is recorded. -/
theorem once_sweep {db' : OpsDb} {rows : List Lapse}
    (hrows : ∀ row, row ∈ rows ↔ row ∈ db.lapses now windowId)
    (h : db'.missed = db.missed.insertAll (rows.map Lapse.missed)) (hm : m ∈ db.messages)
    (hw : w ∈ db.windows) (hid : windowId.all (· = w.id) = true) (hcovers : w.covers now m = true)
    (hsignal : m.id ∉ db.signals) : ∃! r, r ∈ db'.missed ∧ r.messageId = m.id := by
  have hexists : ∃ r ∈ db'.missed, r.messageId = m.id := by
    by_cases hold : ∃ r ∈ db.missed, r.messageId = m.id
    · obtain ⟨r, hr, hkey⟩ := hold
      obtain ⟨heq, -⟩ := newlyMissed_sublist (fun row => (hrows row).mp) h
      exact ⟨r, Table.mem_iff.mpr (heq ▸ List.mem_append_left _ hr), hkey⟩
    · push Not at hold
      have hrow : (m, w) ∈ rows :=
        (hrows _).mpr (mem_lapses.mpr ⟨hm, hw, hcovers, hsignal, hold, hid⟩)
      obtain ⟨r, hr, rfl | hkey⟩ := Table.exists_insertAll (t := db.missed)
        (List.mem_map_of_mem (f := Lapse.missed) hrow)
      · exact ⟨_, h ▸ hr, rfl⟩
      · exact ⟨r, h ▸ hr, hkey⟩
  obtain ⟨r, hr, hkey⟩ := hexists
  exact ⟨r, ⟨hr, hkey⟩, fun r' hr' => Table.eq_of_key hr'.1 hr (hr'.2.trans hkey.symm)⟩

/-- A sweep keeps its promises exactly when it meets the condition. -/
theorem accounted_sweep_iff :
    db.Accounted (.sweep order now windowId) ↔ db.Meets (.sweep order now windowId) := by
  by_cases hid : windowId.all isWindowId = true
  swap
  · simp [Accounted, Meets, sweepMissedSignals, hid]
  obtain ⟨outbox, hsweep⟩ := sweep_ok db now order hid
  have houtbox := outbox_sweep db now order hid
  rw [hsweep] at houtbox
  dsimp only at houtbox
  simp only [Accounted, Meets, hsweep, hid, forall_const]
  set rows := order.sort (db.lapses now windowId) with hrowsdef
  have hrows : ∀ row, row ∈ rows ↔ row ∈ db.lapses now windowId := fun row => mem_sort
  have hnodup : rows.Nodup := (order.perm _).nodup_iff.mpr nodup_lapses
  set db' : OpsDb := { db with missed := db.missed.insertAll (rows.map Lapse.missed), outbox }
  have hmissed : db'.missed = db.missed.insertAll (rows.map Lapse.missed) := rfl
  have hnew := newlyMissed_eq_iff hnodup hrows hmissed
  constructor
  · rintro ⟨-, hnamed, hcovered⟩
    have hall : db.newlyMissed db' = rows.map Lapse.missed := by
      obtain ⟨-, hsub⟩ := newlyMissed_sublist (fun row => (hrows row).mp) hmissed
      exact hsub.eq_of_length (by simpa using hnamed.length_eq.symm)
    refine ⟨hnew.mp hall, fun first hfirst => ?_⟩
    by_cases hkey : ∀ notice ∈ db.outbox, notice.dedupKey ≠ missedSignalKey first.2.id
    · exact Or.inl hkey
    · refine Or.inr fun row hrow => ?_
      -- the notification of this sweep was dropped
      push Not at hkey
      obtain ⟨taken, htaken, hkey⟩ := hkey
      rw [hfirst] at houtbox
      have hsame : outbox = db.outbox := houtbox.trans (Table.insertNew_of_conflict htaken hkey)
      have hmem : ∀ row ∈ db.lapses now windowId, row.missed ∈ db.newlyMissed db' :=
        fun row hrow => hall ▸ List.mem_map_of_mem ((hrows row).mpr hrow)
      obtain ⟨notice, hnotice, hlists⟩ := hcovered row.2.id ⟨_, hmem row hrow, rfl⟩
      exact ⟨notice, hsame ▸ hnotice, fun row' hrow' hwindow => hlists _ (hmem row' hrow') hwindow⟩
  · rintro ⟨hone, hfresh⟩
    have hall := hnew.mpr hone
    refine ⟨fun m hm w hw hwid hcovers hsignal =>
      once_sweep hrows hmissed hm hw hwid hcovers hsignal, ?_, ?_⟩
    · rw [hall, List.map_map]
      exact List.Perm.refl _
    · rintro window ⟨r, hr, rfl⟩
      rw [hall] at hr ⊢
      obtain ⟨row, hrow, rfl⟩ := List.mem_map.mp hr
      cases hhead : rows.head? with
      | none => simp [List.head?_eq_none_iff.mp hhead] at hrow
      | some first =>
        rw [hhead] at houtbox
        rcases hfresh first hhead with hkey | hlisted
        · refine ⟨⟨missedSignalKey first.2.id, rows.map fun row => row.missed.entry⟩,
            Table.mem_iff.mpr ?_, fun r hr _ => ?_⟩
          · rw [show db'.outbox = _ from houtbox, Table.rows_insertNew_of hkey]
            exact List.mem_append_right _ (List.mem_singleton_self _)
          · obtain ⟨row', hrow', rfl⟩ := List.mem_map.mp hr
            exact List.mem_map_of_mem hrow'
        · obtain ⟨notice, hnotice, hlists⟩ := hlisted row ((hrows row).mp hrow)
          refine ⟨notice, ?_, fun r hr hwindow => ?_⟩
          · refine Table.mem_iff.mpr ?_
            rw [show db'.outbox = _ from houtbox]
            exact Table.prefix_insertNew.subset hnotice
          · obtain ⟨row', hrow', rfl⟩ := List.mem_map.mp hr
            exact hlists row' ((hrows row').mp hrow') hwindow

theorem accounted_iff (l : OpsLabel) : db.Accounted l ↔ db.Meets l := by
  cases l with
  | sweep order now windowId => exact accounted_sweep_iff
  | _ => exact Iff.rfl

/-- No step removes or changes what is recorded. -/
theorem prefix_missed (db : OpsDb) (l : OpsLabel) : db.missed.rows <+: (db.step l).missed.rows := by
  cases l with
  | sweep order now windowId =>
    by_cases hid : windowId.all isWindowId = true
    · obtain ⟨outbox, hsweep⟩ := sweep_ok db now order hid
      obtain ⟨new, hnew, -⟩ := Table.exists_new_insertAll db.missed
        ((order.sort (db.lapses now windowId)).map Lapse.missed)
      simp only [step, hsweep, hnew]
      exact List.prefix_append _ _
    · simp [step, sweepMissedSignals, hid]
  | openWindow now id revision reason =>
    simp only [step, openMaintenanceWindow]
    split <;> exact List.prefix_refl _
  | closeWindow now id =>
    simp only [step, closeMaintenanceWindow]
    split
    · split <;> exact List.prefix_refl _
    · exact List.prefix_refl _
  | intake messages signals => exact List.prefix_refl _
  | notify dedupKey => exact List.prefix_refl _

end OpsDb

section Samples

instance : Std.Total fun a b : Lapse => a.1.receivedAt ≤ b.1.receivedAt := ⟨fun _ _ => le_total _ _⟩

instance : IsTrans Lapse fun a b => a.1.receivedAt ≤ b.1.receivedAt :=
  ⟨fun _ _ _ hab hbc => le_trans hab hbc⟩

/-- Rows that tie in the order of the join. -/
def RowOrder.stable : RowOrder where
  sort rows := rows.insertionSort fun a b => a.1.receivedAt ≤ b.1.receivedAt
  perm _ := List.perm_insertionSort _ _
  sorted _ := List.pairwise_insertionSort _ _

def lapsedMessage (id : Uuid) (receivedAt : Instant) : ChannelMessage :=
  ⟨id, id, receivedAt, some (receivedAt + 1)⟩

def rollout (id : String) (startedAt : Instant) : MaintenanceWindow :=
  { id, startedAt, revision := "r", reason := "rollout" }

/-- A message in two open windows. -/
def overlapping : OpsDb where
  messages := ⟨[lapsedMessage 1 6], by simp⟩
  windows := ⟨[rollout "a" 0, rollout "b" 5], by decide⟩

/-- A message in one open window. -/
def missedOnce : OpsDb where
  messages := ⟨[lapsedMessage 1 6], by simp⟩
  windows := ⟨[rollout "a" 0], by decide⟩

/-- A sweep, and another one after a second message. -/
def sweptTwice : List OpsLabel :=
  [.sweep .stable 10 none, .intake ⟨[lapsedMessage 1 6, lapsedMessage 2 8], by decide⟩ [],
    .sweep .stable 10 none]

end Samples

end FattyTrader
