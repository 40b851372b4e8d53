import FattyTrader.MonitoredEntries

/-!
# The filled quantity of an entry

Three kinds of writers store the filled quantity of an entry row. A readback of the entry path,
in a submission, a recovery or a cancellation, compares the reading with the intent the call
holds in memory, and refuses one that reports less. A change of state alone stores the quantity
of that intent. The monitor stores whatever its reading sums to.

None of them compares with the row. `ReadbackState` runs them in any order over one database,
with every intent a call may hold. The quantity never decreases in a run whose writes meet
`ReadbackState.Meets` : a readback reports less than its intent or no less than the row, a
change of state starts from an intent that is not behind the row, and a reading of the monitor
reports no less than the row (`filledQty_kept`).

Every run of the entry path next to the monitor is one of these (`readback_simulates`).
-/

set_option linter.unusedSectionVars false

open Tables

open Programs Prog Runs

namespace FattyTrader

/-! ## What a reading reports -/

/-- The quantity of the fills that belong to an order. -/
def matchedQty (fills : List ProviderFill) (clientOid : String) (orderId : Option String) : ℚ :=
  (summarizeFills (matchingFills fills clientOid orderId)).quantity

namespace OrderReading

variable (reading : OrderReading) (intent : LiveIntentRecord) (submitted : Option Submitted)

/-- The quantity of a reading without a detail, none where it raises. -/
def missingQty (orderId : Option String) : Option ℚ :=
  if reading.blockFailed then some (matchedQty [] intent.clientOid orderId)
  else (completeFills reading.fills).map fun fills => matchedQty fills.1 intent.clientOid orderId

/-- The quantity of a reading of the monitor. -/
def monitorQty : Option ℚ :=
  match reading.detail with
  | .failed | .malformed => none
  | .notFound | .empty => reading.missingQty intent intent.providerOrderId
  | .found d =>
    match reading.fills with
    | .page fills _ => some (matchedQty fills intent.clientOid
        ((d.orderId.or d.providerOrderId).or intent.providerOrderId))
    | _ => none

/-- The quantity of a detail with its page of fills : a detail may report more than the page
holds. -/
def detailQty (d : OrderDetail) (fills : List ProviderFill) : ℚ :=
  max (matchedQty fills intent.clientOid
      (foundOrderId intent submitted d.orderId d.providerOrderId))
    ((detailDecimal [d.filledQty, d.filledSize, d.baseVolume]).getD 0)

/-- The quantity of a readback of the entry path. A waiting entry that is not the one of the
intent is refused. -/
def readbackQty : Option ℚ :=
  match reading.detail with
  | .failed | .malformed => none
  | .notFound => reading.missingQty intent
      (textOr (submitted.bind fun s => textOr s.orderId s.providerOrderId) intent.providerOrderId)
  | .empty =>
    match reading.fills with
    | .page fills _ => some (matchedQty fills intent.clientOid
        (foundOrderId intent submitted none none))
    | _ => none
  | .found d =>
    match reading.fills with
    | .page fills _ =>
      if intent.orderType = .limit ∧
          waitingEntryOwned intent d (detailQty intent submitted d fills) = false then none
      else some (detailQty intent submitted d fills)
    | _ => none

end OrderReading

section Quantities

variable {intent record : LiveIntentRecord} {submitted : Option Submitted}
  {reading : OrderReading} {result : AsyncExecutionResult}

theorem missingQty_of_classify {orderId : Option String} {confirmed : Bool}
    (h : classifyMissingDetail intent reading orderId confirmed = some result) :
    reading.missingQty intent orderId = some result.filledQty := by
  unfold classifyMissingDetail at h
  unfold OrderReading.missingQty
  dsimp only at h
  split at h
  next hblock =>
    rw [if_pos hblock, ← Option.some.inj h]
    rfl
  next hblock =>
    obtain ⟨fills, hfills, rfl⟩ := Option.map_eq_some_iff.mp h
    rw [if_neg hblock, hfills]
    rfl

theorem filledQty_detailResult (d : OrderDetail) (fills : List ProviderFill) :
    (detailResult intent submitted d fills).filledQty =
      OrderReading.detailQty intent submitted d fills := by
  have hnonneg : 0 ≤ matchedQty fills intent.clientOid
      (foundOrderId intent submitted d.orderId d.providerOrderId) := summarizeFills_nonneg _
  simp only [detailResult, OrderReading.detailQty]
  cases hdetail : detailDecimal [d.filledQty, d.filledSize, d.baseVolume] with
  | none => simpa [matchedQty] using hnonneg
  | some q =>
    by_cases hq : matchedQty fills intent.clientOid
        (foundOrderId intent submitted d.orderId d.providerOrderId) < q
    · have hq' := hq
      simp only [matchedQty] at hq'
      simp [Option.filter, hq', max_eq_right hq.le]
    · have hq' := hq
      simp only [matchedQty] at hq'
      simp [Option.filter, hq', matchedQty, not_lt.mp hq']

/-- A readback stores the quantity its reading reports. -/
theorem readbackQty_of_reconcile (h : reconcileIntent intent submitted reading = .ok result) :
    reading.readbackQty intent submitted = some result.filledQty := by
  unfold reconcileIntent at h
  unfold OrderReading.readbackQty
  split at h
  · cases h
  next hd =>
    dsimp only at h
    split at h
    next r hr =>
      obtain rfl := Except.ok.inj h
      simp only [hd]
      exact missingQty_of_classify hr
    · cases h
  · split at h <;> cases h
  next hd =>
    obtain ⟨fills, hfills, rfl⟩ := exists_of_map_ok h
    unfold fillsPage at hfills
    split at hfills
    · cases hfills
    · cases hfills
    · cases hfills
    next page more hpage =>
      obtain rfl := Except.ok.inj hfills
      simp only [hd, hpage]
      rfl
  next d hd =>
    split at h
    · cases h
    next fills hfills =>
      dsimp only at h
      rw [filledQty_detailResult] at h
      split at h
      · cases h
      next howned =>
        obtain rfl := Except.ok.inj h
        unfold fillsPage at hfills
        split at hfills
        · cases hfills
        · cases hfills
        · cases hfills
        next page more hpage =>
          obtain rfl := Except.ok.inj hfills
          simp only [hd, hpage, if_neg howned, filledQty_detailResult]

/-- The monitor stores the quantity its reading reports. -/
theorem monitorQty_of_reconcile (h : reconcileUnknownIntent intent reading = some record) :
    reading.monitorQty intent = some record.filledQty := by
  unfold reconcileUnknownIntent at h
  unfold OrderReading.monitorQty
  cases hd : reading.detail with
  | failed =>
    rw [hd] at h
    cases h
  | malformed =>
    rw [hd] at h
    cases h
  | notFound =>
    rw [hd] at h
    obtain ⟨outcome, ho, rfl⟩ := Option.map_eq_some_iff.mp h
    exact missingQty_of_classify ho
  | empty =>
    rw [hd] at h
    obtain ⟨outcome, ho, rfl⟩ := Option.map_eq_some_iff.mp h
    exact missingQty_of_classify ho
  | found d =>
    rw [hd] at h
    dsimp only at h ⊢
    cases hf : reading.fills with
    | page fills more =>
      rw [hf] at h
      obtain rfl := Option.some.inj h
      rfl
    | _ =>
      rw [hf] at h
      cases h

end Quantities

/-! ## The system -/

/-- What a call changes in an intent without a readback. -/
inductive StateChange
  | refused
  | refusedAmbiguous
  | retired
  | ambiguous
  | settled

def StateChange.apply : StateChange → LiveIntentRecord → LiveIntentRecord
  | .refused, r => r.refused
  | .refusedAmbiguous, r => r.refused.ambiguous
  | .retired, r => r.retired
  | .ambiguous, r => r.ambiguous
  | .settled, r => r.settled

theorem StateChange.filledQty_apply (change : StateChange) (r : LiveIntentRecord) :
    (change.apply r).filledQty = r.filledQty ∧ (change.apply r).clientOid = r.clientOid := by
  cases change <;> exact ⟨rfl, rfl⟩

/-- The database, every intent a call holds or held in memory, and the intents a cycle of the
monitor has copied and not yet written. -/
structure ReadbackState where
  db : Db
  held : List LiveIntentRecord := []
  pending : List LiveIntentRecord := []

/-- A readback of the intent `read`, persisted on `intent` ; a change of state ; the sum of two
legs of a split entry ; another operation ; a write of another component ; the begin of a cycle
of the monitor, the next intent of it with its reading, and its end. -/
inductive ReadbackLabel
  | readback (read intent : LiveIntentRecord) (submitted : Option Submitted) (c : EntryChoice)
  | change (intent : LiveIntentRecord) (kind : StateChange) (c : EntryChoice)
  | aggregate (root limit : LiveIntentRecord)
  | other (o : EntryOp) (c : EntryChoice)
  | env (e : EntryEnv)
  | cycle
  | reconcile (now : Instant) (reading : OrderReading)
  | stop

/-- The intents an operation puts into the hands of a call. -/
def heldBy : EntryEvent → List LiveIntentRecord
  | ⟨.get _, .ok (some r)⟩ => [r]
  | ⟨.claim r, _⟩ => [r]
  | ⟨.claimSplit market limit, _⟩ => [market, limit]
  | ⟨.update r, .ok ()⟩ => [r]
  | _ => []

/-- `reconcile_intent` and `_persist_readback`. -/
def readBackAndPersist (read intent : LiveIntentRecord) (submitted : Option Submitted) :
    EntryProg LiveIntentRecord := do
  let result ← readIntent read submitted
  persistReadback intent result

namespace ReadbackState

variable (s : ReadbackState)

def step : ReadbackLabel → ReadbackState
  | .readback read intent submitted c =>
    if read.clientOid = intent.clientOid ∧ intent ∈ s.held then
      match (readBackAndPersist read intent submitted).run (fun o db => entryExec o db c) s.db with
      | (.ok record, db) => { s with db, held := record :: s.held }
      | (.error _, db) => { s with db }
    else s
  | .change intent kind c =>
    if intent ∈ s.held then
      { s with
        db := (entryExec (.update (kind.apply intent)) s.db c).2
        held := kind.apply intent :: s.held }
    else s
  | .aggregate root limit =>
    if root ∈ s.held ∧ limit ∈ s.held then
      { s with held := (aggregateSplit root limit).toList ++ s.held }
    else s
  | .other (.update _) _ => s
  | .other o c =>
    { s with
      db := (entryExec o s.db c).2
      held := heldBy ⟨o, (entryExec o s.db c).1⟩ ++ s.held }
  | .env e =>
    match e.apply s.db with
    | .ok db => { s with db }
    | .error _ => s
  | .cycle => if s.pending = [] then { s with pending := s.db.unresolvedIntents } else s
  | .reconcile now reading =>
    match s.pending with
    | [] => s
    | q :: pending => { s with db := s.db.reconcileIntentOf now reading q, pending }
  | .stop => { s with pending := [] }

/-- The intent a step writes, and the quantity its reading reports for it. -/
def Reports (l : ReadbackLabel) (intent : LiveIntentRecord) (quantity : ℚ) : Prop :=
  match l with
  | .readback read intent' submitted c =>
    intent' = intent ∧ read.clientOid = intent.clientOid ∧ intent ∈ s.held ∧
      c.reading.readbackQty read submitted = some quantity
  | .reconcile _ reading =>
    s.pending.head? = some intent ∧ reading.monitorQty intent = some quantity
  | _ => False

/-- What the writes of a run must meet. -/
def Meets (l : ReadbackLabel) : Prop :=
  match l with
  | .readback _ intent _ _ => ∀ quantity, s.Reports l intent quantity → ∀ r,
      s.db.get intent.clientOid = some r → r.role = .entry →
        quantity < intent.filledQty ∨ r.filledQty ≤ quantity
  | .change intent _ _ => intent ∈ s.held → ∀ r,
      s.db.get intent.clientOid = some r → r.role = .entry → r.filledQty ≤ intent.filledQty
  | .reconcile _ _ => ∀ intent quantity, s.Reports l intent quantity → ∀ r,
      s.db.get intent.clientOid = some r → r.role = .entry → r.filledQty ≤ quantity
  | _ => True

end ReadbackState

/-- No entry row fills less in `db'` than in `db`. -/
def Db.FilledKept (db db' : Db) : Prop :=
  ∀ oid r, db.get oid = some r → r.role = .entry →
    ∃ r', db'.get oid = some r' ∧ r'.role = .entry ∧ r.filledQty ≤ r'.filledQty

/-- A step lowers no filled quantity, and leaves a row alone that its reading would lower. -/
structure ReadbackState.Sound (s : ReadbackState) (l : ReadbackLabel) : Prop where
  kept : s.db.FilledKept (s.step l).db
  refused : ∀ intent quantity, s.Reports l intent quantity → ∀ r,
    s.db.get intent.clientOid = some r → r.role = .entry → quantity < r.filledQty →
      (s.step l).db.get intent.clientOid = some r

/-! ## One step -/

section Step

variable {s : ReadbackState} {db db' : Db}

theorem Db.filledKept_refl (db : Db) : db.FilledKept db := fun _ r hr hrole =>
  ⟨r, hr, hrole, le_rfl⟩

theorem Db.FilledKept.trans {db'' : Db} (h : db.FilledKept db') (h' : db'.FilledKept db'') :
    db.FilledKept db'' := by
  intro oid r hr hrole
  obtain ⟨r', hr', hrole', hle⟩ := h oid r hr hrole
  obtain ⟨r'', hr'', hrole'', hle'⟩ := h' oid r' hr' hrole'
  exact ⟨r'', hr'', hrole'', hle.trans hle'⟩

/-- An update keeps the filled quantities unless it writes less than the row has. -/
theorem Db.filledKept_update {record : LiveIntentRecord} {c : EntryChoice}
    (h : ∀ r, db.get record.clientOid = some r → r.role = .entry →
      r.filledQty ≤ record.filledQty) :
    db.FilledKept (entryExec (.update record) db c).2 := by
  intro oid r hr hrole
  have hchange := Db.intentChange_of_exec
    (rfl : entryExec (.update record) db c = ((entryExec (.update record) db c).1, _)) oid
  rw [hr] at hchange
  obtain ⟨r', hr'⟩ := hchange.exists_some
  rw [hr'] at hchange
  refine ⟨r', hr', ?_⟩
  cases hchange with
  | kept => exact ⟨hrole, le_rfl⟩
  | written hoid => exact ⟨hrole, h r (hoid ▸ hr) hrole⟩

/-- Every other operation keeps them. -/
theorem Db.filledKept_exec {o : EntryOp} {c : EntryChoice}
    (h : ∀ record, o ≠ .update record) : db.FilledKept (entryExec o db c).2 := by
  intro oid r hr hrole
  have hchange := Db.intentChange_of_exec
    (rfl : entryExec o db c = ((entryExec o db c).1, _)) oid
  rw [hr] at hchange
  obtain ⟨r', hr'⟩ := hchange.exists_some
  rw [hr'] at hchange
  refine ⟨r', hr', ?_⟩
  cases hchange with
  | @written _ record _ => exact absurd rfl (h record)
  | _ => exact ⟨hrole, le_rfl⟩

theorem Db.filledKept_env {e : EntryEnv} (h : e.apply db = .ok db') : db.FilledKept db' :=
  fun _ r hr hrole => ⟨r, (Db.get_of_env h hrole).mpr hr, hrole, le_rfl⟩

/-- A readback that raises changes nothing. -/
theorem run_readBack_error {read intent : LiveIntentRecord} {submitted : Option Submitted}
    {c : EntryChoice} {e : ReadError} (h : reconcileIntent read submitted c.reading = .error e) :
    (readBackAndPersist read intent submitted).run (fun o db => entryExec o db c) db =
      (.error (.read e), db) := by
  have hread : entryExec (.readOrder read.symbol read.clientOid) db c = (.ok c.reading, db) := rfl
  simp only [readBackAndPersist, readIntent, ask, perform, Bind.bind, Prog.bind, run, hread, h]

/-- A readback of its own order is refused if it reports less than the intent holds, and
updated otherwise. -/
theorem run_readBack_ok (db : Db) {read intent : LiveIntentRecord} {submitted : Option Submitted}
    {c : EntryChoice} {result : AsyncExecutionResult} (hoid : read.clientOid = intent.clientOid)
    (h : reconcileIntent read submitted c.reading = .ok result) :
    (readBackAndPersist read intent submitted).run (fun o db => entryExec o db c) db =
      if result.filledQty < intent.filledQty then
        (.error (.invalid "Bitget readback quantity regression or non-finite quantity"), db)
      else ((entryExec (.update (intent.readBack result)) db c).1.map fun _ =>
        intent.readBack result, (entryExec (.update (intent.readBack result)) db c).2) := by
  have hread : entryExec (.readOrder read.symbol read.clientOid) db c = (.ok c.reading, db) := rfl
  have hsame : result.clientOid = intent.clientOid := (clientOid_of_reconcileIntent h).trans hoid
  have hstart : (readBackAndPersist read intent submitted).run (fun o db => entryExec o db c) db =
      (persistReadback intent result).run (fun o db => entryExec o db c) db := by
    simp only [readBackAndPersist, readIntent, ask, perform, Bind.bind, Prog.bind, run, hread, h]
    rfl
  rw [hstart, persistReadback, if_neg (not_not.mpr hsame)]
  split
  · rfl
  · simp only [ask, perform, Bind.bind, Prog.bind, run]
    cases (entryExec (.update (intent.readBack result)) db c).1 with
    | ok a => rfl
    | error e => rfl

namespace ReadbackState

variable {read intent : LiveIntentRecord} {submitted : Option Submitted} {c : EntryChoice}
  {l : ReadbackLabel}

theorem db_readback (h : read.clientOid = intent.clientOid ∧ intent ∈ s.held) :
    (s.step (.readback read intent submitted c)).db =
      ((readBackAndPersist read intent submitted).run (fun o db => entryExec o db c) s.db).2 := by
  simp only [step, if_pos h]
  split
  next hrun => rw [hrun]
  next hrun => rw [hrun]

/-- A step that leaves the database as it is. -/
theorem sound_of_eq (h : (s.step l).db = s.db) : s.Sound l :=
  ⟨h.symm ▸ s.db.filledKept_refl, fun _ _ _ _ hr _ _ => h.symm ▸ hr⟩

theorem sound_readback (h : s.Meets (.readback read intent submitted c)) :
    s.Sound (.readback read intent submitted c) := by
  by_cases hcond : read.clientOid = intent.clientOid ∧ intent ∈ s.held
  swap
  · exact sound_of_eq (by simp only [step, if_neg hcond])
  have hdb : (s.step (.readback read intent submitted c)).db =
      ((readBackAndPersist read intent submitted).run (fun o db => entryExec o db c) s.db).2 :=
    db_readback hcond
  cases hresult : reconcileIntent read submitted c.reading with
  | error e => exact sound_of_eq (by rw [hdb, run_readBack_error hresult])
  | ok result =>
    rw [run_readBack_ok s.db hcond.1 hresult] at hdb
    have hquantity := readbackQty_of_reconcile hresult
    by_cases hlt : result.filledQty < intent.filledQty
    · rw [if_pos hlt] at hdb
      exact sound_of_eq hdb
    · rw [if_neg hlt] at hdb
      have hrow : ∀ r, s.db.get intent.clientOid = some r → r.role = .entry →
          r.filledQty ≤ result.filledQty := fun r hr hrole =>
        (h _ ⟨rfl, hcond.1, hcond.2, hquantity⟩ r hr hrole).resolve_left hlt
      refine ⟨hdb.symm ▸ Db.filledKept_update hrow, ?_⟩
      rintro _ quantity ⟨rfl, -, -, hq⟩ r hr hrole hless
      obtain rfl := Option.some.inj (hquantity.symm.trans hq)
      exact absurd (hrow r hr hrole) (not_le.mpr hless)

theorem sound_reconcile {now : Instant} {reading : OrderReading}
    (h : s.Meets (.reconcile now reading)) : s.Sound (.reconcile now reading) := by
  cases hpending : s.pending with
  | nil => exact sound_of_eq (by simp only [step, hpending])
  | cons q pending =>
    have hhead : s.pending.head? = some q := by rw [hpending]; rfl
    have hdb : (s.step (.reconcile now reading)).db = s.db.reconcileIntentOf now reading q := by
      simp only [step, hpending]
    rcases Db.reconcileIntentOf_cases now reading s.db q with heq | ⟨record, r, hrec, hr, -, hget⟩
    · exact sound_of_eq (hdb.trans heq)
    have hquantity := monitorQty_of_reconcile hrec
    have hrow : r.role = .entry → r.filledQty ≤ record.filledQty :=
      h q _ ⟨hhead, hquantity⟩ r hr
    refine ⟨fun oid r' hr' hrole => ?_, ?_⟩
    · rw [hdb, hget]
      by_cases hoid : oid = q.clientOid
      · subst hoid
        obtain rfl := Option.some.inj (hr.symm.trans hr')
        exact ⟨_, if_pos rfl, hrole, hrow hrole⟩
      · exact ⟨r', by rw [if_neg hoid, hr'], hrole, le_rfl⟩
    · rintro q' quantity ⟨hq', hquantity'⟩ r' hr' hrole hless
      obtain rfl := Option.some.inj (hhead.symm.trans hq')
      exact absurd (h q quantity ⟨hhead, hquantity'⟩ r' hr' hrole) (not_le.mpr hless)

/-- A step that meets the condition lowers no filled quantity. -/
theorem sound_of_meets (h : s.Meets l) : s.Sound l := by
  cases l with
  | readback => exact sound_readback h
  | reconcile => exact sound_reconcile h
  | change intent kind c =>
    by_cases hheld : intent ∈ s.held
    · obtain ⟨hqty, hoid⟩ := kind.filledQty_apply intent
      refine ⟨?_, fun _ _ hreports => hreports.elim⟩
      simp only [step, if_pos hheld]
      exact Db.filledKept_update (by rw [hqty, hoid]; exact h hheld)
    · exact sound_of_eq (by simp only [step, if_neg hheld])
  | aggregate root limit =>
    refine sound_of_eq ?_
    simp only [step]
    split <;> rfl
  | other o c =>
    refine ⟨?_, fun _ _ hreports => hreports.elim⟩
    cases o with
    | update record => exact s.db.filledKept_refl
    | _ => exact Db.filledKept_exec fun record => EntryOp.noConfusion
  | env e =>
    refine ⟨?_, fun _ _ hreports => hreports.elim⟩
    simp only [step]
    split
    next db he => exact Db.filledKept_env he
    · exact s.db.filledKept_refl
  | cycle =>
    refine sound_of_eq ?_
    simp only [step]
    split <;> rfl
  | stop => exact sound_of_eq rfl

end ReadbackState

end Step

/-! ## Runs -/

/-- In every run whose steps meet the condition, no step lowers the filled quantity of an entry,
a readback that would is refused, and so no quantity is lower in a later state than in an
earlier one. -/
theorem filledQty_kept (s : ReadbackState) (ls : List ReadbackLabel)
    (h : ∀ p ∈ visits ReadbackState.step s ls, p.1.Meets p.2) :
    (∀ p ∈ visits ReadbackState.step s ls, p.1.Sound p.2) ∧
      ∀ as bs cs, ls = as ++ bs ++ cs →
        (exec ReadbackState.step s as).db.FilledKept (exec ReadbackState.step s (as ++ bs)).db := by
  have hsound : ∀ p ∈ visits ReadbackState.step s ls, p.1.Sound p.2 := fun p hp =>
    ReadbackState.sound_of_meets (h p hp)
  refine ⟨hsound, fun as bs => ?_⟩
  induction bs using List.reverseRecOn with
  | nil =>
    intro cs hls
    rw [List.append_nil]
    exact Db.filledKept_refl _
  | append_singleton bs l ih =>
    intro cs hls
    have hprev := ih (l :: cs) (by rw [hls]; simp)
    have hstep := (hsound ⟨_, l⟩ (mem_visits_iff.mpr ⟨as ++ bs, cs, by rw [hls]; simp, rfl⟩)).kept
    have hlast : exec ReadbackState.step s (as ++ (bs ++ [l])) =
        (exec ReadbackState.step s (as ++ bs)).step l := by
      simp only [exec, List.foldl_append, List.foldl_cons, List.foldl_nil]
    rw [hlast]
    exact hprev.trans hstep

/-! ## A partial fill that is lost -/

/-- The venue reports the order as filled in part. -/
def EntryChoice.partlyFilled : EntryChoice :=
  { EntryChoice.passing with
    reading :=
      { detail := .found { state := "partially_filled", orderId := some "1", clientOid := marketOid }
        fills := .page [⟨some "f1", some "1", some marketOid, some 1, some 100, 0, 0, some 1⟩] false
        position := .rows []
        pending := .rows [] } }

/-- The filled quantity of a row. -/
def Db.filledOf (db : Db) (oid : String) : Option ℚ := (db.get oid).map (·.filledQty)

/-- The writers over a state, without the intents its calls hold. -/
def MonitoredState.writers (s : MonitoredState) : ReadbackState := ⟨s.entry.world, [], s.pending⟩

/-- A market entry that filled 1 of 4, with a cycle of the monitor begun. -/
def filledInPart : MonitoredState :=
  monitoredAfter (aboutToPost ++ acts (List.replicate 4 .partlyFilled) ++ [.cycle])

theorem not_sound_of_lowered {s : ReadbackState} {l : ReadbackLabel} (oid : String) (q q' : ℚ)
    (h : (s.db.get oid).any (fun r => r.role = .entry && r.filledQty = q) = true)
    (h' : ((s.step l).db.get oid).all (fun r => r.filledQty = q') = true) (hlt : q' < q) :
    ¬ s.Sound l := by
  intro hsound
  obtain ⟨r, hr, hfilled⟩ := (Option.any_eq_true _ _).mp h
  simp only [Bool.and_eq_true, decide_eq_true_eq] at hfilled
  obtain ⟨r', hr', -, hle⟩ := hsound.kept oid r hr hfilled.1
  rw [hfilled.2, of_decide_eq_true ((Option.all_eq_true _ _).mp h' r' hr')] at hle
  exact absurd hle (not_le.mpr hlt)

/-- The cycle reads the order as not found, and a page without fills. The row is left without its
fill. -/
theorem partialFill_lowered :
    filledInPart.entry.world.filledOf marketOid = some 1 ∧
      (filledInPart.step .plain (.reconcile 5 (unlisted 1))).entry.world.filledOf marketOid =
        some 0 ∧
      ¬ filledInPart.writers.Sound (.reconcile 5 (unlisted 1)) :=
  ⟨by decide +kernel, by decide +kernel,
    not_sound_of_lowered marketOid 1 0 (by decide +kernel)
      (by decide +kernel) (by norm_num)⟩

theorem meets_reconcile_of_all {s : ReadbackState} {now : Instant} {reading : OrderReading}
    (h : s.pending.head?.all (fun q => (reading.monitorQty q).all fun quantity =>
      (s.db.get q.clientOid).all fun r => r.filledQty ≤ quantity) = true) :
    s.Meets (.reconcile now reading) := by
  rintro q quantity ⟨hq, hreports⟩ r hr -
  have hq' := (Option.all_eq_true _ _).mp h q hq
  exact of_decide_eq_true
    ((Option.all_eq_true _ _).mp ((Option.all_eq_true _ _).mp hq' quantity hreports) r hr)

/-- The same cycle with a page that lists the fill. -/
theorem partialFill_kept :
    (∀ p ∈ visits ReadbackState.step filledInPart.writers
        [.reconcile 5 EntryChoice.partlyFilled.reading], p.1.Sound p.2) ∧
      ∀ as bs cs, [ReadbackLabel.reconcile 5 EntryChoice.partlyFilled.reading] = as ++ bs ++ cs →
        (exec ReadbackState.step filledInPart.writers as).db.FilledKept
          (exec ReadbackState.step filledInPart.writers (as ++ bs)).db := by
  refine filledQty_kept _ _ fun p hp => ?_
  obtain rfl := List.mem_singleton.mp hp
  exact meets_reconcile_of_all (by decide +kernel)

/-! ## The entry path next to the monitor -/

/-- `u` runs over the database of `s`, with every intent a call of `s` holds. -/
structure Simulates (s : MonitoredState) (u : ReadbackState) : Prop where
  db : u.db = s.entry.world
  pending : u.pending = s.pending
  held : ∀ n r, Held (own n s.entry.trace) r → r ∈ u.held

section Simulation

variable {x : BitgetDispatchExecution} {s : MonitoredState} {u : ReadbackState}
  {es : List EntryEvent}

theorem held_snoc {e : EntryEvent} {r : LiveIntentRecord} (h : Held (es ++ [e]) r) :
    Held es r ∨ r ∈ heldBy e := by
  have hsnoc : ∀ {e' : EntryEvent}, e' ∈ es ++ [e] → e' ∈ es ∨ e' = e := fun h => by
    simpa using h
  cases h with
  | read h =>
    rcases hsnoc h with h | rfl
    · exact Or.inl (.read h)
    · exact Or.inr (by simp [heldBy])
  | claimed h =>
    rcases hsnoc h with h | rfl
    · exact Or.inl (.claimed h)
    · exact Or.inr (by simp [heldBy])
  | market h =>
    rcases hsnoc h with h | rfl
    · exact Or.inl (.market h)
    · exact Or.inr (by simp [heldBy])
  | limit h =>
    rcases hsnoc h with h | rfl
    · exact Or.inl (.limit h)
    · exact Or.inr (by simp [heldBy])
  | written h =>
    rcases hsnoc h with h | rfl
    · exact Or.inl (.written h)
    · exact Or.inr (by simp [heldBy])

/-- The steps that make an update of the entry path. -/
structure Writes (u : ReadbackState) (record : LiveIntentRecord) (c : EntryChoice)
    (u' : ReadbackState) : Prop where
  db : u'.db = (entryExec (.update record) u.db c).2
  pending : u'.pending = u.pending
  held : u.held ⊆ u'.held
  written : (entryExec (.update record) u.db c).1 = .ok () → record ∈ u'.held

theorem writes_change {intent : LiveIntentRecord} (h : intent ∈ u.held) (kind : StateChange)
    (c : EntryChoice) : Writes u (kind.apply intent) c (u.step (.change intent kind c)) := by
  simp only [ReadbackState.step, if_pos h]
  exact ⟨rfl, rfl, List.subset_cons_self _ _, fun _ => List.mem_cons_self⟩

theorem writes_readback {read intent : LiveIntentRecord} {submitted : Option Submitted}
    {reading : OrderReading} {result : AsyncExecutionResult} (h : intent ∈ u.held)
    (hoid : read.clientOid = intent.clientOid)
    (hresult : reconcileIntent read submitted reading = .ok result)
    (hle : intent.filledQty ≤ result.filledQty) (c : EntryChoice) :
    Writes u (intent.readBack result) c
      (u.step (.readback read intent submitted { c with reading })) := by
  have hrun := run_readBack_ok u.db (c := { c with reading }) hoid hresult
  rw [if_neg (not_lt.mpr hle)] at hrun
  have hexec : entryExec (.update (intent.readBack result)) u.db { c with reading } =
      entryExec (.update (intent.readBack result)) u.db c := rfl
  rw [hexec] at hrun
  simp only [ReadbackState.step, if_pos (And.intro hoid h)]
  rw [hrun]
  cases hanswer : (entryExec (.update (intent.readBack result)) u.db c).1 with
  | ok a => exact ⟨rfl, rfl, List.subset_cons_self _ _, fun _ => List.mem_cons_self⟩
  | error e => exact ⟨rfl, rfl, List.Subset.refl _, fun h => by simp [hanswer] at h⟩

/-- Every update a call has a reason for is made of these steps. -/
theorem exists_writes {record : LiveIntentRecord} (hreason : UpdateReason es record)
    (hheld : ∀ r, Held es r → r ∈ u.held) (c : EntryChoice) :
    ∃ ls, Writes u record c (exec ReadbackState.step u ls) := by
  cases hreason with
  | @readback r result held reports le =>
    obtain ⟨read, submitted, reading, hoid, -, hresult⟩ := reports
    exact ⟨[.readback read r submitted { c with reading }],
      writes_readback (hheld r held) hoid hresult le c⟩
  | @refused r unsent =>
    exact ⟨[.change r .refused c], writes_change (hheld r unsent.held) .refused c⟩
  | @refusedAmbiguous r unsent =>
    exact ⟨[.change r .refusedAmbiguous c], writes_change (hheld r unsent.held) .refusedAmbiguous c⟩
  | @withdrawn r _ unsent _ =>
    exact ⟨[.change r .retired c], writes_change (hheld r unsent.held) .retired c⟩
  | @ambiguous r held =>
    exact ⟨[.change r .ambiguous c], writes_change (hheld r held) .ambiguous c⟩
  | @unclaimed m l split _ =>
    exact ⟨[.change l .retired c], writes_change (hheld l (.limit split)) .retired c⟩
  | @staged r _ read _ _ =>
    exact ⟨[.change r .retired c], writes_change (hheld r (.read read)) .retired c⟩
  | @settled r settles =>
    obtain ⟨root, hroot, rfl | ⟨limit, hlimit, hsum⟩⟩ := settles.base
    · exact ⟨[.change r .settled c], writes_change (hheld r (.written hroot)) .settled c⟩
    · -- the legs are summed first
      have hlegs : root ∈ u.held ∧ limit ∈ u.held :=
        ⟨hheld root (.written hroot), hheld limit hlimit⟩
      have hstep : u.step (.aggregate root limit) = { u with held := r :: u.held } := by
        simp only [ReadbackState.step, if_pos hlegs, hsum]
        rfl
      have hr : r ∈ (u.step (.aggregate root limit)).held := by
        rw [hstep]
        exact List.mem_cons_self
      have hwrites := writes_change hr .settled c
      refine ⟨[.aggregate root limit, .change r .settled c], ?_⟩
      simp only [exec_cons, exec_nil]
      obtain ⟨hdb, hpending, hsub, hwritten⟩ := hwrites
      rw [hstep] at hdb hpending hsub hwritten ⊢
      exact ⟨hdb, hpending, fun q hq => hsub (List.mem_cons_of_mem _ hq), hwritten⟩

/-- The intents of a call after one more operation. -/
theorem held_acted (h : Simulates s u) {n : ℕ} {e : EntryEvent} {u' : ReadbackState}
    (hsub : u.held ⊆ u'.held) (hnew : ∀ r ∈ heldBy e, r ∈ u'.held) (m : ℕ) (r : LiveIntentRecord)
    (hr : Held (own m (s.entry.trace ++ [(n, e)])) r) : r ∈ u'.held := by
  by_cases hmn : m = n
  · subst hmn
    rw [own_append] at hr
    rcases held_snoc (e := e) (by simpa [own] using hr) with hr | hr
    · exact hsub (h.held m r hr)
    · exact hnew r hr
  · rw [own_snoc_ne (Ne.symm hmn)] at hr
    exact hsub (h.held m r hr)

/-- The calls obey their protocol, whatever the monitor writes between their operations. -/
theorem sound_monitored (hs : System.Sound EntryAnswer (EntryProtocol x) s.entry)
    (l : MonitoredLabel) : System.Sound EntryAnswer (EntryProtocol x) (s.step x l).entry := by
  cases l with
  | entry l =>
    simp only [MonitoredState.step]
    split
    next entry hstep =>
      exact System.sound_step (entry_answers x) (entryProtocol_follows x) hs hstep
    · exact hs
  | cycle =>
    simp only [MonitoredState.step]
    split <;> exact hs
  | reconcile now reading =>
    simp only [MonitoredState.step]
    split <;> exact hs
  | stop => exact hs

/-- One step of the entry path next to the monitor is some steps of the writers. -/
theorem simulates_step (hs : System.Sound EntryAnswer (EntryProtocol x) s.entry)
    (h : Simulates s u) (l : MonitoredLabel) :
    ∃ ls, Simulates (s.step x l) (exec ReadbackState.step u ls) := by
  cases l with
  | entry l =>
    simp only [MonitoredState.step]
    split
    swap
    · exact ⟨[], h⟩
    next entry hstep =>
    cases l with
    | start i =>
      obtain rfl := Option.some.inj hstep
      exact ⟨[], h.db, h.pending, h.held⟩
    | act n c =>
      obtain ⟨i, o, k, a, w, hn, hx, rfl⟩ := System.step_act hstep
      have hx : entryExec o s.entry.world c = (a, w) := Option.some.inj hx
      have hφ : EntryProtocol x i (own n s.entry.trace) o := System.protocol_of_sound hs hn
      rw [← h.db] at hx
      by_cases hupdate : ∃ record, o = .update record
      · obtain ⟨record, rfl⟩ := hupdate
        obtain ⟨ls, hw⟩ := exists_writes hφ (h.held n) c
        refine ⟨ls, ?_, hw.pending.trans h.pending, held_acted h hw.held fun r hr => ?_⟩
        · rw [hw.db, hx]
          rfl
        · cases a with
          | error e => simp [heldBy] at hr
          | ok v =>
            obtain rfl : r = record := by simpa [heldBy] using hr
            exact hw.written (by rw [hx])
      · have hother : u.step (.other o c) =
            { u with db := w, held := heldBy ⟨o, a⟩ ++ u.held } := by
          cases o with
          | update record => exact absurd ⟨record, rfl⟩ hupdate
          | _ => simp only [ReadbackState.step, hx]
        refine ⟨[.other o c], ?_⟩
        rw [exec_cons, exec_nil, hother]
        exact ⟨rfl, h.pending, held_acted h (List.subset_append_right _ _) fun r hr =>
          List.mem_append_left _ hr⟩
    | env e =>
      obtain ⟨w, hw, rfl⟩ := Option.map_eq_some_iff.mp hstep
      refine ⟨[.env e], ?_⟩
      cases he : e.apply s.entry.world with
      | error err => simp [entrySystem, he, Except.toOption] at hw
      | ok w' =>
        simp only [entrySystem, he, Except.toOption, Option.some.injEq] at hw
        subst hw
        rw [← h.db] at he
        simp only [exec_cons, exec_nil, ReadbackState.step, he]
        exact ⟨rfl, h.pending, h.held⟩
  | cycle =>
    refine ⟨[.cycle], ?_⟩
    simp only [exec_cons, exec_nil, ReadbackState.step, MonitoredState.step, h.pending, h.db]
    split
    · exact ⟨rfl, rfl, h.held⟩
    · exact h
  | reconcile now reading =>
    refine ⟨[.reconcile now reading], ?_⟩
    cases hpending : s.pending with
    | nil =>
      simp only [exec_cons, exec_nil, ReadbackState.step, MonitoredState.step, h.pending, hpending]
      exact h
    | cons q pending =>
      simp only [exec_cons, exec_nil, ReadbackState.step, MonitoredState.step, h.pending, hpending,
        h.db]
      exact ⟨rfl, rfl, h.held⟩
  | stop => exact ⟨[.stop], h.db, rfl, h.held⟩

/-- Every run of the entry path with cycles of the monitor between its steps is a run of the
writers over the same database. -/
theorem readback_simulates (x : BitgetDispatchExecution) (db : Db) (ls : List MonitoredLabel) :
    ∃ ls', Simulates (exec (MonitoredState.step x) ⟨State.init db, []⟩ ls)
      (exec ReadbackState.step ⟨db, [], []⟩ ls') := by
  have hrun : ∀ (ls : List MonitoredLabel) (s : MonitoredState) (u : ReadbackState),
      System.Sound EntryAnswer (EntryProtocol x) s.entry → Simulates s u →
        ∃ ls', Simulates (exec (MonitoredState.step x) s ls) (exec ReadbackState.step u ls') := by
    intro ls
    induction ls with
    | nil => exact fun s u _ h => ⟨[], h⟩
    | cons l ls ih =>
      intro s u hs h
      obtain ⟨as, has⟩ := simulates_step hs h l
      obtain ⟨bs, hbs⟩ := ih _ _ (sound_monitored hs l) has
      exact ⟨as ++ bs, by rw [exec_append]; exact hbs⟩
  refine hrun ls _ _ (System.sound_init db) ⟨rfl, rfl, fun n r hr => ?_⟩
  cases hr <;> simp_all [State.init, own]

end Simulation

end FattyTrader
