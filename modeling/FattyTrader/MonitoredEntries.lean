import FattyTrader.CloseOrders
import FattyTrader.ExactlyOnce

/-!
# The monitor next to the entry path

`MonitoredState` runs the entry path and a cycle of the monitor at once. The cycle copies the
unresolved intents, and then reads and writes them one by one while calls go on.

A limit child waits as `staged` for its root, and `claim_entry_post` sends it only from there.
A claimed entry waits for its POST. `Keeps` says that a write of the monitor leaves both be, and
`monitor_keeps_entries_iff` when every write of a run does : a staged child is kept only by a
reading that raises, and an entry still to be sent only by one that does not find its symbol
empty.
-/

set_option linter.unusedSectionVars false

open Tables

namespace FattyTrader

open Programs Runs

/-! ## Recovery candidates -/

namespace LiveIntentRecord

/-- A limit child that waits for its root. -/
def waits (r : LiveIntentRecord) : Bool :=
  r.role = .entry && r.entryLeg = some .limit && r.state = .staged

/-- What `recovery_candidates` asks of the state of a row. -/
def recoverable (r : LiveIntentRecord) : Prop :=
  0 < r.filledQty ∨ ¬ (r.state = .rejected ∨ r.state = .cancelled ∨ r.state = .reconciled)

end LiveIntentRecord

namespace Db

variable {db db' : Db} {oid : String} {d : BitgetDispatch}

theorem mem_recoveryCandidates : (d, oid) ∈ db.recoveryCandidates ↔
    ∃ r, db.get oid = some r ∧ r.role = .entry ∧ r.recoverable ∧
      ∃ m ∈ db.reservations.rows, m.clientOrderId = oid ∧ d ∈ db.dispatches.rows ∧
        d.id = m.dispatchId ∧ db.notBaselined r m d ∧ d.state ≠ .closed ∧ d.state ≠ .reconciled := by
  simp only [recoveryCandidates, List.mem_flatMap, List.mem_filterMap, Option.ite_none_right_eq_some,
    Option.some.injEq, Prod.mk.injEq]
  constructor
  · rintro ⟨row, hrow, m, hm, d', hd, ⟨hrole, hoid, hid, hbase, hrec, hclosed, hrecon⟩, rfl, rfl⟩
    exact ⟨row.record, get_eq_some_iff.mpr ⟨row, hrow, rfl, rfl⟩, hrole, hrec, m, hm, hoid, hd, hid,
      hbase, hclosed, hrecon⟩
  · rintro ⟨r, hr, hrole, hrec, m, hm, rfl, hd, hid, hbase, hclosed, hrecon⟩
    obtain ⟨row, hrow, rfl, hoid⟩ := get_eq_some_iff.mp hr
    exact ⟨row, hrow, m, hm, d, hd, ⟨hrole, hoid.symm, hid, hbase, hrec, hclosed, hrecon⟩, rfl, hoid⟩

/-- A candidate whose row stays recoverable stays one. -/
theorem mem_recoveryCandidates_of_get {w : Db} {r r' : LiveIntentRecord}
    (hdb : db' = { db with intents := w.intents, fills := w.fills }) (hr : db.get oid = some r)
    (hr' : db'.get oid = some r') (hrole : r'.role = r.role)
    (hrec : r.recoverable → r'.recoverable) (h : (d, oid) ∈ db.recoveryCandidates) :
    (d, oid) ∈ db'.recoveryCandidates := by
  obtain ⟨r₀, hr₀, hentry, hrec₀, m, hm, hoid, hd, hid, hbase, hclosed, hrecon⟩ :=
    mem_recoveryCandidates.mp h
  obtain rfl := Option.some.inj (hr.symm.trans hr₀)
  refine mem_recoveryCandidates.mpr ⟨r', hr', hrole.trans hentry, hrec hrec₀, m, ?_, hoid, ?_, hid,
    ?_, hclosed, hrecon⟩
  · rw [hdb]
    exact hm
  · rw [hdb]
    exact hd
  · have hkey : r'.clientOid = r.clientOid :=
      (clientOid_of_get hr').trans (clientOid_of_get hr).symm
    unfold notBaselined
    rw [hkey, hdb]
    exact hbase

end Db

/-! ## The system -/

/-- The entry path, and the intents a cycle of the monitor has copied and not yet written. -/
structure MonitoredState where
  entry : EntryState
  pending : List LiveIntentRecord := []

/-- A step of the entry path, the begin of a cycle, the next intent of it with its reading, or
the end of it before it is through. -/
inductive MonitoredLabel
  | entry (l : EntryLabel)
  | cycle
  | reconcile (now : Instant) (reading : OrderReading)
  | stop

namespace MonitoredState

variable (x : BitgetDispatchExecution) (s : MonitoredState)

def step : MonitoredLabel → MonitoredState
  | .entry l =>
    match (entrySystem x).step s.entry l with
    | some entry => { s with entry }
    | none => s
  | .cycle =>
    if s.pending = [] then { s with pending := s.entry.world.unresolvedIntents } else s
  | .reconcile now reading =>
    match s.pending with
    | [] => s
    | q :: pending =>
      { entry := { s.entry with world := s.entry.world.reconcileIntentOf now reading q }, pending }
  | .stop => { s with pending := [] }

/-- The call that won an entry may still send it. -/
def MayPost (oid : String) : Prop :=
  ∃ n ls t, oid ∈ won (own n s.entry.trace) ∧ Never (EntryOp.sends oid) (own n s.entry.trace) ∧
    Run (entrySystem x).Step s.entry ls t ∧ ¬ Never (EntryOp.sends oid) (own n t.trace)

/-- The order of an entry was not sent yet : its row waits, or its winner may still send it. -/
def Unsent (oid : String) : Prop :=
  (∃ r, s.entry.world.get oid = some r ∧ r.waits) ∨ s.MayPost x oid

/-- What the next write of the cycle must not do. A waiting child waits on, and can be claimed as
before ; an entry its winner may still send is not marked rejected, and stays a candidate of the
recovery. -/
def Keeps (now : Instant) (reading : OrderReading) : Prop :=
  let db := s.entry.world
  let db' := (s.step x (.reconcile now reading)).entry.world
  ∀ oid r, db.get oid = some r → r.role = .entry →
    (r.waits → ∃ r', db'.get oid = some r' ∧ r'.waits ∧
      r'.cancelRequestedBy = r.cancelRequestedBy) ∧
    (s.MayPost x oid →
      (∃ r', db'.get oid = some r' ∧ (r'.state = .rejected → r.state = .rejected)) ∧
        ∀ d, (d, oid) ∈ db.recoveryCandidates → (d, oid) ∈ db'.recoveryCandidates)

/-- The writes that go wrong : the reading of a waiting child can be classified at all, or the
symbol of an entry that may still be sent is read empty. -/
def Loses (reading : OrderReading) : Prop :=
  ∃ q r, s.pending.head? = some q ∧ s.entry.world.get q.clientOid = some r ∧ r.role = .entry ∧
    ((r.waits ∧ reading.classifies) ∨
      (s.MayPost x q.clientOid ∧ reading.provesAbsent q.symbol ∧
        (r.state ≠ .rejected ∨ ∃ d, (d, q.clientOid) ∈ s.entry.world.recoveryCandidates)))

end MonitoredState

/-! ## The copies of a cycle -/

section Copies

variable {x : BitgetDispatchExecution} {s : MonitoredState} {db db' : Db} {q : LiveIntentRecord}

/-- A copy of a row that is still there. The row of an entry kept the order id of the copy. -/
structure CopyOf (db : Db) (q : LiveIntentRecord) : Prop where
  requested_pos : 0 < q.requestedQty
  row : ∃ r, db.get q.clientOid = some r ∧
    (r.role = .entry → ∀ id, q.providerOrderId = some id → r.providerOrderId = some id)

theorem copyOf_unresolved (h : q ∈ db.unresolvedIntents) : CopyOf db q := by
  simp only [Db.unresolvedIntents, List.mem_map, List.mem_filter] at h
  obtain ⟨_, ⟨⟨row, hrow, rfl⟩, -⟩, rfl⟩ := h
  exact ⟨row.checked.requested_pos, row.record, Db.get_eq_some_iff.mpr ⟨row, hrow, rfl, rfl⟩,
    fun _ _ hid => hid⟩

/-- A row that is rewritten under its role and order id. -/
theorem CopyOf.of_rewrite (h : CopyOf db q)
    (hkept : ∀ r, db.get q.clientOid = some r → ∃ r', db'.get q.clientOid = some r' ∧
      (r'.role = .entry → r.role = .entry ∧
        ∀ id, r.providerOrderId = some id → r'.providerOrderId = some id)) : CopyOf db' q := by
  obtain ⟨r, hr, hid⟩ := h.row
  obtain ⟨r', hr', hrole⟩ := hkept r hr
  exact ⟨h.requested_pos, r', hr', fun he id hq => (hrole he).2 id (hid (hrole he).1 id hq)⟩

theorem CopyOf.exec (h : CopyOf db q) {o : EntryOp} {c : EntryChoice}
    {a : Except ExecutionError (EntryAns o)} (hx : entryExec o db c = (a, db')) : CopyOf db' q := by
  refine h.of_rewrite fun r hr => ?_
  have hchange := Db.intentChange_of_exec hx q.clientOid
  rw [hr] at hchange
  obtain ⟨r', hr'⟩ := hchange.exists_some
  rw [hr'] at hchange
  refine ⟨r', hr', fun hrole => ⟨?_, fun id => hchange.providerOrderId⟩⟩
  exact (congrArg LiveIntentRecord.role hchange.order_eq).symm.trans hrole

theorem CopyOf.env (h : CopyOf db q) {e : EntryEnv} (he : e.apply db = .ok db') : CopyOf db' q := by
  refine h.of_rewrite fun r hr => ?_
  rcases Db.env_cases he q.clientOid with heq | ⟨r', hr', hne, -⟩
  · exact ⟨r, heq.trans hr, fun hrole => ⟨hrole, fun _ hid => hid⟩⟩
  · exact ⟨r', hr', fun hrole => absurd hrole hne⟩

theorem CopyOf.reconcile (h : CopyOf db q) (now : Instant) (reading : OrderReading)
    (q' : LiveIntentRecord) : CopyOf (db.reconcileIntentOf now reading q') q := by
  rcases Db.reconcileIntentOf_cases now reading db q' with heq | ⟨record, r', -, hr', -, hget⟩
  · rw [heq]
    exact h
  · refine h.of_rewrite fun r hr => ?_
    rw [hget]
    by_cases heq : q.clientOid = q'.clientOid
    · rw [heq, hr'] at hr
      obtain rfl := Option.some.inj hr
      exact ⟨record.monitored r', if_pos heq, fun hrole => ⟨hrole, fun id hid => by
        simp [LiveIntentRecord.monitored, hid]⟩⟩
    · exact ⟨r, by rw [if_neg heq, hr], fun hrole => ⟨hrole, fun _ hid => hid⟩⟩

/-- Every copy a cycle holds is one. -/
def Copies (s : MonitoredState) : Prop := ∀ q ∈ s.pending, CopyOf s.entry.world q

theorem copies_step (s : MonitoredState) (l : MonitoredLabel) (h : Copies s) :
    Copies (s.step x l) := by
  cases l with
  | entry l =>
    dsimp only [MonitoredState.step]
    split
    next entry hstep =>
      intro q hq
      cases l with
      | start i =>
        obtain rfl := Option.some.inj hstep
        exact h q hq
      | act n c =>
        obtain ⟨i, o, k, a, w, -, hx, rfl⟩ := System.step_act hstep
        exact (h q hq).exec (Option.some.inj hx)
      | env e =>
        obtain ⟨w, hw, rfl⟩ := Option.map_eq_some_iff.mp hstep
        cases he : e.apply s.entry.world with
        | error err => simp [entrySystem, he, Except.toOption] at hw
        | ok w' =>
          simp only [entrySystem, he, Except.toOption, Option.some.injEq] at hw
          exact (h q hq).env (by rw [he, hw])
    · exact h
  | cycle =>
    dsimp only [MonitoredState.step]
    split
    · exact fun q hq => copyOf_unresolved hq
    · exact h
  | reconcile now reading =>
    dsimp only [MonitoredState.step]
    split
    · exact h
    next q' pending hpending =>
      intro q hq
      exact (h q (by rw [hpending]; exact List.mem_cons_of_mem _ hq)).reconcile now reading q'
  | stop => exact fun q hq => absurd hq List.not_mem_nil

end Copies

/-! ## One write -/

section Writes

variable {x : BitgetDispatchExecution} {s : MonitoredState} {db : Db} {q r : LiveIntentRecord}
  {now : Instant} {reading : OrderReading}

/-- A reading without the order of an entry is written back if it can be classified, and then as
rejected or unknown. -/
theorem reconcileIntentOf_of_omits (hq : CopyOf db q) (hr : db.get q.clientOid = some r)
    (hrole : r.role = .entry) (h : reading.Omits q) (now : Instant) :
    (reading.classifies = false ∧ db.reconcileIntentOf now reading q = db) ∨
      (reading.classifies = true ∧ ∃ r' w : _,
        db.reconcileIntentOf now reading q =
          { db with intents := (w : Db).intents, fills := w.fills } ∧
        (∀ o, (db.reconcileIntentOf now reading q).get o =
          if o = q.clientOid then some r' else db.get o) ∧
        r'.role = r.role ∧ r'.filledQty = 0 ∧
        r'.state = if reading.provesAbsent q.symbol then .rejected else .unknown) := by
  have hsome := reconcileUnknownIntent_isSome_of_omits h
  cases hrec : reconcileUnknownIntent q reading with
  | none =>
    rw [hrec] at hsome
    exact Or.inl ⟨hsome.symm, by simp only [Db.reconcileIntentOf, hrec]⟩
  | some record =>
    rw [hrec] at hsome
    obtain ⟨hqty, hprice, hid, hstate⟩ :=
      reconcileUnknownIntent_of_omits h hq.requested_pos hrec
    have hkey : record.clientOid = q.clientOid := clientOid_of_reconcileUnknownIntent hrec
    -- the write goes through : the order id of the copy is the one of the row
    have hchecked := Db.checked_of_get hr
    have hwritten : (record.monitored r).Checked := by
      refine ⟨hchecked.requested_pos, ?_, ?_, hchecked.evidence⟩
      · simp [LiveIntentRecord.monitored, hqty]
      · simp [LiveIntentRecord.monitored, hprice]
    have horder : (record.monitored r).providerOrderId = r.providerOrderId := by
      obtain ⟨r₀, hr₀, hsame⟩ := hq.row
      obtain rfl := Option.some.inj (hr.symm.trans hr₀)
      cases hr' : r.providerOrderId with
      | some id => simp [LiveIntentRecord.monitored, hr']
      | none =>
        cases hq' : q.providerOrderId with
        | none => simp [LiveIntentRecord.monitored, hr', hid, hq']
        | some id =>
          rw [hsame hrole id hq'] at hr'
          cases hr'
    obtain ⟨db₁, h₁⟩ := Db.setIntent_isOk hr hwritten rfl horder
    obtain ⟨db₂, h₂⟩ : ∃ db₂, db.updateIntent now record = .ok db₂ := by
      simp [Db.updateIntent, hkey, hr, h₁]
    have hdb : db.reconcileIntentOf now reading q = db₂ := by
      simp only [Db.reconcileIntentOf, hrec, h₂]
    rcases Db.updateIntent_ok h₂ with ⟨hnone, -⟩ | ⟨r', hr', hframe, hget⟩
    · rw [hkey, hr] at hnone
      cases hnone
    · rw [hkey] at hr' hget
      obtain rfl := Option.some.inj (hr.symm.trans hr')
      rw [hdb]
      exact Or.inr ⟨hsome.symm, record.monitored r, db₂, hframe, hget, rfl, hqty, hstate⟩

/-- A step of the cycle that leaves the database as it is keeps everything. -/
theorem keeps_of_eq (h : (s.step x (.reconcile now reading)).entry.world = s.entry.world) :
    s.Keeps x now reading := by
  intro oid r hr hrole
  rw [h]
  exact ⟨fun hwaits => ⟨r, hr, hwaits, rfl⟩, fun _ => ⟨⟨r, hr, id⟩, fun _ hd => hd⟩⟩

/-- One write keeps what it must keep exactly when it is none of those that go wrong. -/
theorem keeps_iff (hcopies : Copies s)
    (homits : ∀ q ∈ s.pending.head?, s.Unsent x q.clientOid → reading.Omits q) :
    s.Keeps x now reading ↔ ¬ s.Loses x reading := by
  cases hpending : s.pending with
  | nil =>
    refine iff_of_true (keeps_of_eq (by simp [MonitoredState.step, hpending])) ?_
    rintro ⟨q, r, hq, -⟩
    simp [hpending] at hq
  | cons q pending =>
    have hhead : s.pending.head? = some q := by rw [hpending]; rfl
    have hworld : (s.step x (.reconcile now reading)).entry.world =
        s.entry.world.reconcileIntentOf now reading q := by
      simp only [MonitoredState.step, hpending]
    have hcopy : CopyOf s.entry.world q := hcopies q (by rw [hpending]; exact List.mem_cons_self)
    -- a row of another client order id is not touched
    have hother : ∀ oid r, oid ≠ q.clientOid → s.entry.world.get oid = some r →
        (s.step x (.reconcile now reading)).entry.world.get oid = some r ∧
          ∀ d, (d, oid) ∈ s.entry.world.recoveryCandidates →
            (d, oid) ∈ (s.step x (.reconcile now reading)).entry.world.recoveryCandidates := by
      intro oid r hne hr
      rw [hworld]
      rcases Db.reconcileIntentOf_cases now reading s.entry.world q with heq |
        ⟨record, r₀, -, -, ⟨w, hw⟩, hget⟩
      · rw [heq]
        exact ⟨hr, fun d hd => hd⟩
      · have hr' : (s.entry.world.reconcileIntentOf now reading q).get oid = some r := by
          rw [hget, if_neg hne, hr]
        exact ⟨hr', fun d hd => Db.mem_recoveryCandidates_of_get hw hr hr' rfl id hd⟩
    by_cases hunsent : ∃ r, s.entry.world.get q.clientOid = some r ∧ r.role = .entry ∧
        (r.waits ∨ s.MayPost x q.clientOid)
    · obtain ⟨r, hr, hrole, hunsent⟩ := hunsent
      have hunsent' : s.Unsent x q.clientOid := hunsent.imp (fun h => ⟨r, hr, h⟩) id
      rcases reconcileIntentOf_of_omits hcopy hr hrole (homits q hhead hunsent') now with
        ⟨hraises, heq⟩ | ⟨hclass, r', w, hw, hget, hrole', hqty, hstate⟩
      · refine iff_of_true (keeps_of_eq (hworld.trans heq)) ?_
        rintro ⟨q', r₀, hq', -, -, ⟨-, hclass⟩ | ⟨-, habsent, -⟩⟩
        · simp [hraises] at hclass
        · obtain rfl := Option.some.inj (hhead.symm.trans hq')
          have : (reconcileUnknownIntent q _).isSome := reconcileUnknownIntent_isSome habsent
          rw [reconcileUnknownIntent_isSome_of_omits (homits q hhead hunsent'), hraises] at this
          cases this
      · have hr' : (s.step x (.reconcile now reading)).entry.world.get q.clientOid = some r' := by
          rw [hworld, hget, if_pos rfl]
        have hnot : r'.waits = false := by
          have hne : r'.state ≠ .staged := by rw [hstate]; split <;> simp
          simp [LiveIntentRecord.waits, hne]
        constructor
        · rintro hkeeps ⟨q', r₀, hq', hr₀, -, hloses⟩
          obtain rfl := Option.some.inj (hhead.symm.trans hq')
          obtain rfl := Option.some.inj (hr.symm.trans hr₀)
          obtain ⟨hstaged, hpost⟩ := hkeeps q.clientOid r hr hrole
          rcases hloses with ⟨hwaits, -⟩ | ⟨hmay, habsent, hrejects⟩
          · obtain ⟨r₁, hr₁, hwaits₁, -⟩ := hstaged hwaits
            obtain rfl := Option.some.inj (hr'.symm.trans hr₁)
            rw [hnot] at hwaits₁
            cases hwaits₁
          · obtain ⟨⟨r₁, hr₁, hmark⟩, hcand⟩ := hpost hmay
            obtain rfl := Option.some.inj (hr'.symm.trans hr₁)
            have hrejected : r'.state = .rejected := hstate.trans (if_pos habsent)
            rcases hrejects with hne | ⟨d, hd⟩
            · exact hne (hmark hrejected)
            · obtain ⟨r₂, hr₂, -, hrec, -⟩ := Db.mem_recoveryCandidates.mp (hcand d hd)
              obtain rfl := Option.some.inj (hr'.symm.trans hr₂)
              simp [LiveIntentRecord.recoverable, hqty, hrejected] at hrec
        · intro hgood oid r₀ hr₀ hrole₀
          by_cases hoid : oid = q.clientOid
          · subst hoid
            obtain rfl := Option.some.inj (hr.symm.trans hr₀)
            refine ⟨fun hwaits => ?_, fun hmay => ⟨⟨r', hr', fun hrejected => ?_⟩, fun d hd => ?_⟩⟩
            · exact absurd ⟨q, r, hhead, hr, hrole, Or.inl ⟨hwaits, hclass⟩⟩ hgood
            · by_contra hne
              have habsent : reading.provesAbsent q.symbol = true := by
                by_contra hno
                rw [hstate, if_neg hno] at hrejected
                cases hrejected
              exact hgood ⟨q, r, hhead, hr, hrole, Or.inr ⟨hmay, habsent, Or.inl hne⟩⟩
            · refine Db.mem_recoveryCandidates_of_get (hworld.trans hw) hr hr' hrole' (fun _ => ?_) hd
              have habsent : reading.provesAbsent q.symbol ≠ true := fun habsent =>
                hgood ⟨q, r, hhead, hr, hrole, Or.inr ⟨hmay, habsent, Or.inr ⟨d, hd⟩⟩⟩
              rw [LiveIntentRecord.recoverable, hstate, if_neg habsent]
              simp
          · obtain ⟨hkept, hcand⟩ := hother oid r₀ hoid hr₀
            exact ⟨fun hwaits => ⟨r₀, hkept, hwaits, rfl⟩, fun _ => ⟨⟨r₀, hkept, id⟩, hcand⟩⟩
    · refine iff_of_true (fun oid r₀ hr₀ hrole₀ => ?_) ?_
      · by_cases hoid : oid = q.clientOid
        · subst hoid
          have hno : ¬ (r₀.waits ∨ s.MayPost x q.clientOid) := fun h =>
            hunsent ⟨r₀, hr₀, hrole₀, h⟩
          exact ⟨fun h => absurd (Or.inl h) hno, fun h => absurd (Or.inr h) hno⟩
        · obtain ⟨hkept, hcand⟩ := hother oid r₀ hoid hr₀
          exact ⟨fun hwaits => ⟨r₀, hkept, hwaits, rfl⟩, fun _ => ⟨⟨r₀, hkept, id⟩, hcand⟩⟩
      · rintro ⟨q', r₀, hq', hr₀, hrole₀, hloses⟩
        obtain rfl := Option.some.inj (hhead.symm.trans hq')
        exact hunsent ⟨r₀, hr₀, hrole₀, hloses.imp And.left And.left⟩

end Writes

/-- In every run of the entry path with cycles of the monitor between its steps, where the venue
does not list an order that was not sent, every write of the monitor keeps the waiting children
and the entries still to be sent exactly when no write of the run goes wrong. -/
theorem monitor_keeps_iff (x : BitgetDispatchExecution) (db : Db) (ls : List MonitoredLabel)
    (homits : ∀ p ∈ visits (MonitoredState.step x) ⟨State.init db, []⟩ ls, ∀ now reading,
      p.2 = .reconcile now reading → ∀ q ∈ p.1.pending.head?, p.1.Unsent x q.clientOid →
        reading.Omits q) :
    (∀ p ∈ visits (MonitoredState.step x) ⟨State.init db, []⟩ ls, ∀ now reading,
        p.2 = .reconcile now reading → p.1.Keeps x now reading) ↔
      ∀ p ∈ visits (MonitoredState.step x) ⟨State.init db, []⟩ ls, ∀ now reading,
        p.2 = .reconcile now reading → ¬ p.1.Loses x reading := by
  refine forall₂_congr fun p hp => forall₂_congr fun now reading => forall_congr' fun hl => ?_
  have hinit : Copies ⟨State.init db, []⟩ := fun q hq => absurd hq List.not_mem_nil
  exact keeps_iff (visits_inv copies_step hinit hp) (homits p hp now reading hl)

/-! ## A child that is never sent, and an entry rejected before its POST -/

/-- The market entry in two legs of 1 and 3. -/
def splitSubmission : BitgetEntrySubmission :=
  { marketSubmission with entryRoute := some ⟨1, 3, some 99⟩ }

/-- The venue reports the root as filled, and its protection as placed. -/
def EntryChoice.rootFilled : EntryChoice :=
  { EntryChoice.passing with
    reading :=
      { detail := .found { state := "filled", orderId := some "1", clientOid := marketOid }
        fills := .page [⟨some "f1", some "1", some marketOid, some 1, some 100, 0, 0, some 1⟩] false
        position := .rows []
        pending := .rows [] }
    protection := .ok ⟨true, 1, none⟩ }

/-- The venue knows no order, and lists a position of `quantity`. -/
def unlisted (quantity : ℚ) : OrderReading where
  detail := .notFound
  fills := .page [] false
  position := .rows [some ⟨some "BTCUSDT", some (.finite quantity)⟩]
  pending := .rows []

def acts (choices : List EntryChoice) : List MonitoredLabel :=
  choices.map fun c => .entry (.act 0 c)

/-- The split entry until its root is filled and protected. -/
def rootProtected : List MonitoredLabel :=
  .entry (.start (.submit marketDispatch splitSubmission)) ::
    acts (List.replicate 6 EntryChoice.passing ++ [EntryChoice.notDegraded] ++
      List.replicate 5 EntryChoice.passing ++ List.replicate 3 EntryChoice.rootFilled)

/-- The market entry until it is about to be sent. -/
def aboutToPost : List MonitoredLabel :=
  .entry (.start (.submit marketDispatch marketSubmission)) ::
    acts (List.replicate 10 EntryChoice.passing ++ [EntryChoice.notDegraded] ++
      List.replicate 4 EntryChoice.passing)

/-- The run `ls` of the sample ledger. -/
def monitoredAfter (ls : List MonitoredLabel) : MonitoredState :=
  exec (MonitoredState.step .plain) ⟨State.init admittedDb, []⟩ ls

/-- The state of a row. -/
def MonitoredState.stateOf (s : MonitoredState) (oid : String) : Option IntentState :=
  (s.entry.world.get oid).map (·.state)

/-- The submission that is about to send the order may send it. -/
theorem aboutToPost_mayPost :
    (monitoredAfter (aboutToPost ++ [.cycle])).MayPost .plain marketOid := by
  have hnever : (own 0 (monitoredAfter (aboutToPost ++ [.cycle])).entry.trace).all
      (fun e => !e.op.sends marketOid) = true := by decide +kernel
  have hposts : ((entrySystem .plain).step (monitoredAfter (aboutToPost ++ [.cycle])).entry
      (.act 0 .passing)).any (fun t => (own 0 t.trace).any fun e => e.op.sends marketOid) = true := by
    decide +kernel
  obtain ⟨t, ht, hposted⟩ := (Option.any_eq_true _ _).mp hposts
  refine ⟨0, [.act 0 .passing], t, by decide +kernel, fun e he => ?_, Run.single ht, fun hno => ?_⟩
  · simpa using List.all_eq_true.mp hnever e he
  · obtain ⟨e, he, hsends⟩ := List.any_eq_true.mp hposted
    rw [hno e he] at hsends
    cases hsends

/-- A cycle reads the waiting child between the protection of its root and its claim. The row is
unknown then, the claim loses, and the submission ends without having sent the child. -/
theorem waitingChild_lost :
    let s := monitoredAfter (rootProtected ++ [.cycle])
    let t := s.step .plain (.reconcile 5 (unlisted 1))
    let u := exec (MonitoredState.step .plain) t (acts (List.replicate 4 .rootFilled))
    s.stateOf (limitOid marketOid) = some .staged ∧ t.stateOf (limitOid marketOid) = some .unknown ∧
      ¬ s.Keeps .plain 5 (unlisted 1) ∧ (u.entry.next 0).isNone ∧
      (posts marketOid u.entry.trace).length = 1 ∧ posts (limitOid marketOid) u.entry.trace = [] := by
  intro s t u
  -- one evaluation of the run for all of them
  have hsummary : ((s.stateOf (limitOid marketOid) = some .staged ∧
        t.stateOf (limitOid marketOid) = some .unknown) ∧
      (s.entry.world.get (limitOid marketOid)).any (fun r => r.waits && r.role = .entry) = true ∧
      (t.entry.world.get (limitOid marketOid)).all (fun r => !r.waits) = true) ∧
      (u.entry.next 0).isNone ∧ (posts marketOid u.entry.trace).length = 1 ∧
      (posts (limitOid marketOid) u.entry.trace).isEmpty = true := by
    decide +kernel
  obtain ⟨⟨⟨hstaged, hunknown⟩, hrow, hlost⟩, hended, hposted, hunsent⟩ := hsummary
  refine ⟨hstaged, hunknown, fun hkeeps => ?_, hended, hposted, List.isEmpty_iff.mp hunsent⟩
  obtain ⟨r, hr, hwaits⟩ := (Option.any_eq_true _ _).mp hrow
  simp only [Bool.and_eq_true, decide_eq_true_eq] at hwaits
  obtain ⟨r', hr', hwaits', -⟩ := (hkeeps _ r hr hwaits.2).1 hwaits.1
  have := (Option.all_eq_true _ _).mp hlost r' hr'
  simp [hwaits'] at this

/-- A cycle reads an entry just before its POST, on an empty symbol. The order is sent all the
same, and the recovery does not look at its row any more. -/
theorem sentEntry_rejected :
    let s := monitoredAfter (aboutToPost ++ [.cycle])
    let t := s.step .plain (.reconcile 5 (unlisted 0))
    let u := t.step .plain (.entry (.act 0 .passing))
    s.MayPost .plain marketOid ∧ t.stateOf marketOid = some .rejected ∧
      ¬ s.Keeps .plain 5 (unlisted 0) ∧ (posts marketOid u.entry.trace).length = 1 ∧
      (marketDispatch, marketOid) ∈ s.entry.world.recoveryCandidates ∧
      (marketDispatch, marketOid) ∉ u.entry.world.recoveryCandidates := by
  intro s t u
  have hsummary : (t.stateOf marketOid = some .rejected ∧
        (marketDispatch, marketOid) ∈ s.entry.world.recoveryCandidates ∧
        (marketDispatch, marketOid) ∉ t.entry.world.recoveryCandidates) ∧
      (posts marketOid u.entry.trace).length = 1 ∧
      (marketDispatch, marketOid) ∉ u.entry.world.recoveryCandidates := by
    decide +kernel
  obtain ⟨⟨hrejected, hcand, hlost⟩, hposted, hmissed⟩ := hsummary
  refine ⟨aboutToPost_mayPost, hrejected, fun hkeeps => ?_, hposted, hcand, hmissed⟩
  obtain ⟨r, hr, hrole, -⟩ := Db.mem_recoveryCandidates.mp hcand
  exact hlost (((hkeeps _ r hr hrole).2 aboutToPost_mayPost).2 _ hcand)

/-- The detail of the order cannot be read. -/
def unreadable : OrderReading := ⟨.failed, .failed, .failed, .failed⟩

/-- The same cycle with a reading that raises. -/
theorem waitingChild_kept :
    (∃ p ∈ visits (MonitoredState.step .plain) ⟨State.init admittedDb, []⟩
        (rootProtected ++ [.cycle, .reconcile 5 unreadable]), p.2 = .reconcile 5 unreadable) ∧
    ∀ p ∈ visits (MonitoredState.step .plain) ⟨State.init admittedDb, []⟩
        (rootProtected ++ [.cycle, .reconcile 5 unreadable]),
      ∀ now reading, p.2 = .reconcile now reading → p.1.Keeps .plain now reading := by
  have hreading : ∀ p ∈ visits (MonitoredState.step .plain) ⟨State.init admittedDb, []⟩
      (rootProtected ++ [.cycle, .reconcile 5 unreadable]),
      ∀ now reading, p.2 = .reconcile now reading → reading = unreadable := by
    intro p hp now reading hl
    obtain ⟨bs, cs, happ, -⟩ := mem_visits_iff.mp hp
    have hmem : p.2 ∈ rootProtected ++ [.cycle, .reconcile 5 unreadable] := by
      rw [happ]
      simp
    rw [hl] at hmem
    simp only [rootProtected, acts, List.mem_append, List.mem_cons, List.mem_map, reduceCtorEq,
      and_false, exists_false, false_or, or_false, MonitoredLabel.reconcile.injEq,
      List.not_mem_nil] at hmem
    exact hmem.2
  refine ⟨⟨⟨_, _⟩, mem_visits_iff.mpr ⟨rootProtected ++ [.cycle], [], by simp, rfl⟩, rfl⟩,
    (monitor_keeps_iff .plain admittedDb _ fun p hp now reading hl q _ _ => ?_).mpr
      fun p hp now reading hl hloses => ?_⟩
  · rw [hreading p hp now reading hl]
    exact ⟨fun d h => DetailAnswer.noConfusion h, fun fills more h => FillsAnswer.noConfusion h⟩
  · rw [hreading p hp now reading hl] at hloses
    obtain ⟨q, r, -, -, -, ⟨-, h⟩ | ⟨-, h, -⟩⟩ := hloses <;> cases h

end FattyTrader
