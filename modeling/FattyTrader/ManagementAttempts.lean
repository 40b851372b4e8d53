import FattyTrader.ManagementEffects
import FattyTrader.Triples

/-!
# Attempts of source management updates

Cycles of `run_once` follow each other, while updates are enrolled, time passes and other components
write the ledger. A cycle counts an attempt of the update it claims or ends the update, and a failure
is alerted once (`attempts_counted`), where

* no call raises an exception that neither the gateway nor `run_once` catches;
* a `CLOSE` whose intent is recorded does not come to record it again : this branch sets the update
  back without counting an attempt (`replayed_uncounted`);
* `claim` does not fail an update itself, since it alerts nobody.
-/

set_option linter.unusedSectionVars false

open Tables Programs Prog Runs

namespace FattyTrader

/-! ## The condition -/

/-- The exceptions of an operation that the gateway or `run_once` catches. -/
def ManagementOp.tolerates : ManagementOp → ManagementError → Bool
  | .placeMarketClose _ _ _ _, .unknownResult => true
  | .modifyPositionStopLoss _ _, _ => true
  | .getOrders _, _ => true
  | _, e => e.caught

/-- A single position whose entry price is no number raises where it is compared. -/
def Comparable (positions : List OpenPosition) : Prop :=
  ∀ p, positions = [p] → 0 < p.size → p.entry ≠ .nan

/-- What an operation of a cycle must meet. -/
structure ManagementMeets (w : ManagementWorld) (c : ManagementChoice) (o : ManagementOp) : Prop where
  tolerated : ∀ e, (managementExec w c o).1 = .error e → o.tolerates e = true
  comparable : ∀ symbol, o = .getPositions symbol → ∀ positions, c.positions = .ok positions →
    Comparable positions
  unrecorded : ∀ id, o = .persistProviderIntent ⟨id, .close⟩ → ⟨id, .close⟩ ∉ w.providerIntents
  unswept : ∀ workerId, o = .claim workerId → ∀ r ∈ w.updates, w.swept c.eligible r = false

/-- The effect of the operations under a condition. -/
def managementEffect (G : ManagementWorld → ManagementChoice → ManagementOp → Prop) :
    Effect ManagementOp ManagementAns ManagementError ManagementWorld :=
  fun o w x v => ∃ c, G w c o ∧ managementExec w c o = (x, v)

/-! ## Cycles after each other -/

/-- A cycle with its events, or a step of the environment. -/
inductive CycleLabel
  | cycle (events : List ManagementEvent)
  | env (e : ManagementEnv)

/-- The update a cycle claimed. -/
def CycleLabel.claimed : CycleLabel → Option Uuid
  | .cycle (⟨.claim _, .ok (some u)⟩ :: _) => some u.id
  | _ => none

def cycleStep (x : SourceManagementExecutor)
    (G : ManagementWorld → ManagementChoice → ManagementOp → Prop) (w : ManagementWorld) :
    CycleLabel → ManagementWorld → Prop
  | .cycle es, t => ∃ workerId r, (x.runOnce workerId).Ran (managementEffect G) w es r t
  | .env e, t => e.apply w = some t

/-- The number of cycles that claimed an update. -/
def cyclesOf (id : Uuid) (ls : List CycleLabel) : ℕ := ls.countP fun l => l.claimed = some id

/-- An alert that the update failed. -/
def ManagementAlert.failure (id : Uuid) : ManagementAlert → Bool
  | .outcome u state _ => u.id = id && state = .failed
  | .deadLetter id' _ _ => id' = id

/-- Every cycle that claimed an update and left it open counted an attempt, no update is claimed more
often than `max_attempts`, and a failure has one alert. -/
structure AttemptsCounted (x : SourceManagementExecutor) (ls : List CycleLabel)
    (w : ManagementWorld) : Prop where
  counted : ∀ r ∈ w.updates, r.state.terminal = false →
    r.attempts = cyclesOf r.id ls ∧ r.attempts < x.maxAttempts
  bounded : ∀ id, cyclesOf id ls ≤ x.maxAttempts
  alerted : ∀ r ∈ w.updates, r.state = .failed →
    w.outbox.rows.countP (ManagementAlert.failure r.id) = 1

/-! ## The body of a cycle -/

/-- The updates and the alerts are as they were. -/
structure Untouched (w w' : ManagementWorld) : Prop where
  updates : w'.updates = w.updates
  outbox : w'.outbox = w.outbox

theorem Untouched.refl (w : ManagementWorld) : Untouched w w := ⟨rfl, rfl⟩

theorem Untouched.trans {u v w : ManagementWorld} (h : Untouched u v) (h' : Untouched v w) :
    Untouched u w := ⟨h'.updates.trans h.updates, h'.outbox.trans h.outbox⟩

/-- The operations that change updates or alerts. -/
def ManagementOp.marks : ManagementOp → Bool
  | .claim _ => true
  | .updateState _ _ => true
  | .alertOutcome _ _ _ => true
  | .park _ _ _ _ => true
  | _ => false

abbrev Met : Effect ManagementOp ManagementAns ManagementError ManagementWorld :=
  managementEffect ManagementMeets

section Ops

variable {w v : ManagementWorld} {c : ManagementChoice} {o : ManagementOp}
  {x : Except ManagementError (ManagementAns o)}

theorem untouched_commit {α : Type} {w' : ManagementWorld} (h : Untouched w w') (a : α) :
    Untouched w (c.commit w w' a).2 := by
  unfold ManagementChoice.commit
  split
  · exact h
  · exact h
  · exact Untouched.refl w

theorem untouched_store {α : Type} (tx : Except DbError (Db × α)) :
    Untouched w (c.store w tx).2 := by
  unfold ManagementChoice.store
  split
  · exact Untouched.refl w
  · exact untouched_commit ⟨by rfl, by rfl⟩ _

theorem untouched_exec (h : o.marks = false) : Untouched w (managementExec w c o).2 := by
  cases o with
  | claim _ | updateState _ _ | alertOutcome _ _ _ | park _ _ _ _ => simp [ManagementOp.marks] at h
  | persistProviderIntent oid =>
    simp only [managementExec]
    split
    · exact untouched_commit (Untouched.refl w) _
    · exact untouched_commit ⟨by rfl, by rfl⟩ _
  | saveIntent record => exact untouched_store _
  | claimIntent record => exact untouched_store _
  | updateIntent record => exact untouched_store _
  | _ => exact ⟨rfl, rfl⟩

/-- What an operation does where the condition is met. -/
theorem met_op (h : Met o w x v) (hmarks : o.marks = false) :
    Untouched w v ∧ ∀ e, x = .error e → o.tolerates e = true := by
  obtain ⟨c, hmeets, hx⟩ := h
  obtain ⟨rfl, rfl⟩ := Prod.mk.inj hx
  exact ⟨untouched_exec hmarks, hmeets.tolerated⟩

/-- An operation of the entry path answers a value. -/
theorem met_entry {o : EntryOp} {x : Except ManagementError (ManagementAns (.entry o))}
    (h : Met (.entry o) w x v) : ∃ a, x = .ok a := by
  obtain ⟨c, -, hx⟩ := h
  exact ⟨_, (Prod.mk.inj hx).1.symm⟩

theorem met_positions {symbol : String} {positions : List OpenPosition}
    (h : Met (.getPositions symbol) w (.ok positions) v) : Comparable positions := by
  obtain ⟨c, hmeets, hx⟩ := h
  exact hmeets.comparable symbol rfl positions (Prod.mk.inj hx).1

/-- The intent of a close is recorded. -/
theorem met_persist {id : Uuid} {recorded : Bool}
    (h : Met (.persistProviderIntent ⟨id, .close⟩) w (.ok recorded) v) : recorded = true := by
  obtain ⟨c, hmeets, hx⟩ := h
  simp only [managementExec, if_neg (hmeets.unrecorded id rfl), ManagementChoice.commit] at hx
  split at hx
  · exact (Except.ok.inj (Prod.mk.inj hx).1).symm
  · cases (Prod.mk.inj hx).1
  · cases (Prod.mk.inj hx).1

end Ops

section Body

variable {α β : Type} {u : SourceManagementUpdate}

/-- A part that leaves updates and alerts alone, and raises only what `run_once` catches. -/
def Calm (p : ManagementProg α) : Prop :=
  ∀ w, Ensures Met p w fun r w' => Untouched w w' ∧ ∀ e, r = .error e → e.caught = true

theorem calm_pure (a : α) : Calm (pure a : ManagementProg α) := fun w =>
  ⟨Untouched.refl w, fun _ h => by cases h⟩

theorem calm_raise {e : ManagementError} (h : e.caught = true) : Calm (raise e : ManagementProg α) :=
  fun w => ⟨Untouched.refl w, fun _ he => Except.error.inj he ▸ h⟩

theorem calm_bind {p : ManagementProg α} {f : α → ManagementProg β} (hp : Calm p)
    (hf : ∀ a, Calm (f a)) : Calm (p >>= f) := fun w =>
  ensures_bind.mpr ((hp w).imp fun r w₁ h => by
    cases r with
    | error e => exact ⟨h.1, fun _ he => h.2 _ (Except.error.inj he ▸ rfl)⟩
    | ok a => exact (hf a w₁).imp fun _ _ h' => ⟨h.1.trans h'.1, h'.2⟩)

theorem calm_perform {o : ManagementOp} (hmarks : o.marks = false)
    (ho : ∀ e, o.tolerates e = true → e.caught = true) : Calm (perform o) := fun _ =>
  ensures_perform.mpr fun _ _ hR =>
    ⟨(met_op hR hmarks).1, fun e he => ho e ((met_op hR hmarks).2 e he)⟩

/-- A request whose exceptions are handled. -/
theorem calm_attempt_bind {o : ManagementOp} {f : Except ManagementError (ManagementAns o) →
    ManagementProg β} (hmarks : o.marks = false)
    (hf : ∀ r, (∀ e, r = .error e → o.tolerates e = true) → Calm (f r)) :
    Calm (attempt (perform o) >>= f) := fun w =>
  ensures_bind.mpr (ensures_attempt.mpr (ensures_perform.mpr fun x v hR => by
    obtain ⟨huntouched, herr⟩ := met_op hR hmarks
    exact (hf x herr v).imp fun _ _ h => ⟨huntouched.trans h.1, h.2⟩))

/-- How the body of a cycle ends : with a finished update, before the update is finished, or with an
exception that `run_once` catches. -/
def BodyPost (u : SourceManagementUpdate) (w : ManagementWorld) :
    Except ManagementError (Option String) → ManagementWorld → Prop
  | .ok (some _), w' => ∃ state error, state.terminal = true ∧
      w'.updates = (w.updateState u.id state).updates ∧
      w'.outbox = w.outbox.insertNew (.outcome u state error)
  | .ok none, w' => Untouched w w'
  | .error e, w' => e.caught = true ∧ Untouched w w'

def Ends (u : SourceManagementUpdate) (p : ManagementProg (Option String)) : Prop :=
  ∀ w, Ensures Met p w (BodyPost u w)

theorem BodyPost.of_untouched {w₀ w w' : ManagementWorld} {r : Except ManagementError (Option String)}
    (h : Untouched w₀ w) (hpost : BodyPost u w r w') : BodyPost u w₀ r w' := by
  match r, hpost with
  | .ok (some _), ⟨state, error, hterminal, hupdates, houtbox⟩ =>
    refine ⟨state, error, hterminal, ?_, by rw [houtbox, h.outbox]⟩
    rw [hupdates]
    simp only [ManagementWorld.updateState, ManagementWorld.setRow, h.updates]
  | .ok none, hpost => exact h.trans hpost
  | .error e, ⟨hcaught, hpost⟩ => exact ⟨hcaught, h.trans hpost⟩

/-- A calm part, before a sequel. -/
theorem ends_bind {p : ManagementProg α} {f : α → ManagementProg (Option String)} (hp : Calm p)
    (hf : ∀ a, Ends u (f a)) : Ends u (p >>= f) := fun w =>
  ensures_bind.mpr ((hp w).imp fun r w₁ h => by
    cases r with
    | error e => exact ⟨h.2 e rfl, h.1⟩
    | ok a => exact (hf a w₁).imp fun _ _ hpost => hpost.of_untouched h.1)

theorem ends_raise {e : ManagementError} (h : e.caught = true) : Ends u (raise e) := fun w =>
  ⟨h, Untouched.refl w⟩

theorem ends_none : Ends u (pure none) := fun w => Untouched.refl w

/-- The guard of `_finish` on its two transactions. -/
theorem ensures_finish {state : UpdateState} {error : Option String} (w : ManagementWorld) :
    Ensures Met (finish u state error) w fun r w' => r = .ok () ∧
      w'.updates = (w.updateState u.id state).updates ∧
      ∃ error, w'.outbox = w.outbox.insertNew (.outcome u state error) := by
  have hcommit : ∀ {c : ManagementChoice} {w w' v : ManagementWorld} {o : ManagementOp}
      {x : Except ManagementError Unit}, c.commit w w' () = (x, v) →
      (∀ e, x = .error e → e.caught = true) → x = .ok () ∧ v = w' := by
    intro c w w' v o x hx hcaught
    unfold ManagementChoice.commit at hx
    split at hx
    · obtain ⟨rfl, rfl⟩ := Prod.mk.inj hx
      exact ⟨rfl, rfl⟩
    · exact absurd (hcaught _ (Prod.mk.inj hx).1.symm) (by simp [ManagementError.caught])
    · exact absurd (hcaught _ (Prod.mk.inj hx).1.symm) (by simp [ManagementError.caught])
  refine ensures_bind.mpr (ensures_perform.mpr ?_)
  rintro x v ⟨c, hmeets, hx⟩
  have herr := hmeets.tolerated
  rw [hx] at herr
  obtain ⟨rfl, rfl⟩ := hcommit (o := .updateState u.id state) hx herr
  refine ensures_perform.mpr ?_
  rintro x v ⟨c, hmeets, hx⟩
  have herr := hmeets.tolerated
  rw [hx] at herr
  obtain ⟨rfl, rfl⟩ := hcommit (o := .alertOutcome u state error) hx herr
  exact ⟨rfl, rfl, _, rfl⟩

theorem ends_finishWith {state : UpdateState} (h : state.terminal = true) (error : Option String)
    (result : String) : Ends u (finishWith u state error result) := fun w =>
  ensures_bind.mpr ((ensures_finish w).imp fun r w' hpost => by
    obtain ⟨rfl, hupdates, error', houtbox⟩ := hpost
    exact ⟨state, error', h, hupdates, houtbox⟩)

/-! ## The parts of the body -/

/-- A program of the entry path that raises nothing. -/
theorem ensures_entryProg {P : Except ExecutionError α → Prop} :
    ∀ {p : EntryProg α} (es : List EntryEvent),
      Obeys (fun _ _ => True) (fun _ _ => True) p es (fun _ r => P r) →
      ∀ w, Ensures Met (entryProg p) w fun r w' => (∃ x, r = .ok x ∧ P x) ∧ Untouched w w'
  | .ret _, _, h, w => ⟨⟨_, rfl, h⟩, Untouched.refl w⟩
  | .raise _, _, h, w => ⟨⟨_, rfl, h⟩, Untouched.refl w⟩
  | .op o k, es, h, w => by
    refine ensures_perform_bind (fun a v hR => ?_) fun e v hR => ?_
    · exact (ensures_entryProg _ (h.2 a trivial) v).imp fun r w' hpost =>
        ⟨hpost.1, (met_op hR rfl).1.trans hpost.2⟩
    · obtain ⟨a, ha⟩ := met_entry hR
      cases ha

theorem calm_cancelOwnedEntries (symbol : String) (id : Uuid) (reconciliationOnly : Bool) :
    Calm (cancelOwnedEntries symbol id reconciliationOnly) := by
  -- the adapter catches every exception
  have hok : Obeys (fun _ _ => True) (fun _ _ => True)
      (BitgetDispatchExecution.cancelPendingEntries symbol id reconciliationOnly) []
      (fun _ r => ∃ proved, r = .ok proved) := by
    refine obeys_bind.mpr (obeys_attempt.mpr (obeys_free (opsIn_any _) (fun _ _ _ => trivial)
      fun es r _ => ?_))
    cases r with
    | ok proved => exact ⟨proved, rfl⟩
    | error e => exact ⟨false, rfl⟩
  intro w
  refine ensures_bind.mpr ((ensures_entryProg [] hok w).imp ?_)
  rintro r w' ⟨⟨x, rfl, proved, rfl⟩, huntouched⟩
  exact ⟨huntouched, fun _ h => by cases h⟩

theorem calm_getIntent (oid : ManagementOid) : Calm (getIntent oid) :=
  calm_perform rfl fun _ h => h

theorem calm_updateIntent (record : LiveIntentRecord) : Calm (updateIntent record) :=
  calm_perform rfl fun _ h => h

theorem calm_updateIntent_raise (record : LiveIntentRecord) {e : ManagementError}
    (h : e.caught = true) : Calm (do updateIntent record; raise e : ManagementProg α) :=
  calm_bind (calm_updateIntent record) fun _ => calm_raise h

theorem calm_awaitClose (oid : ManagementOid) : ∀ rounds, Calm (awaitClose oid rounds)
  | 0 => calm_pure ()
  | rounds + 1 => by
    refine calm_bind (calm_perform rfl fun _ h => h) fun _ => ?_
    refine calm_bind (calm_getIntent oid) fun rechecked => ?_
    split
    · exact calm_pure ()
    · exact calm_awaitClose oid rounds

theorem calm_closeReduceOnly (symbol : String) (side : Side) (quantity : ℚ) (oid : ManagementOid) :
    Calm (closeReduceOnly symbol side quantity oid) := by
  refine calm_bind (calm_getIntent oid) fun existing => ?_
  split
  · exact calm_raise rfl
  refine calm_bind (calm_perform rfl fun _ h => h) fun _ => ?_
  refine calm_bind (calm_perform rfl fun _ h => h) fun bound => ?_
  split
  · exact calm_raise rfl
  refine calm_attempt_bind rfl fun r hr => ?_
  split
  · exact calm_updateIntent_raise _ rfl
  next e hunknown =>
    refine calm_raise ?_
    have htolerated := hr e rfl
    cases e with
    | unknownResult => exact absurd rfl (hunknown)
    | _ => exact htolerated
  · exact calm_updateIntent_raise _ rfl
  · exact calm_bind (calm_updateIntent _) fun _ => calm_awaitClose oid 5

theorem calm_reconcileStopIntent (oid : ManagementOid) :
    Calm (perform (ManagementOp.reconcileStopIntent oid)) := calm_perform rfl fun _ h => h

theorem calm_reconcileStopLoss (oid : ManagementOid) : Calm (reconcileStopLoss oid) := by
  refine calm_bind (calm_getIntent oid) fun intent => ?_
  split
  · exact calm_raise rfl
  · exact calm_reconcileStopIntent oid

theorem calm_replaceStopLoss (symbol : String) (side : Direction) (quantity : ℚ)
    (stopLoss : EntryPrice) (oid : ManagementOid) :
    Calm (replaceStopLoss symbol side quantity stopLoss oid) := by
  refine calm_bind (calm_getIntent oid) fun existing => ?_
  split
  · split
    · exact calm_raise rfl
    · exact calm_reconcileStopIntent oid
  refine calm_bind (calm_perform rfl fun _ h => h) fun request => ?_
  refine calm_bind (calm_perform rfl fun _ h => h) fun claimed => ?_
  split
  · refine calm_bind (calm_getIntent oid) fun previous => ?_
    split
    · exact calm_raise rfl
    · exact calm_reconcileStopIntent oid
  refine calm_attempt_bind rfl fun r _ => ?_
  split
  · exact calm_updateIntent_raise _ rfl
  · exact calm_updateIntent_raise _ rfl
  · exact calm_bind (calm_updateIntent _) fun _ => calm_reconcileStopIntent oid

theorem calm_requireEligible (u : SourceManagementUpdate) : Calm (requireEligible u) := by
  refine calm_bind (calm_perform rfl fun _ h => h) fun eligible => ?_
  split
  · exact calm_pure ()
  · exact calm_raise rfl

/-- Where the entry price can be compared. -/
theorem calm_onePosition {positions : List OpenPosition} (h : Comparable positions) :
    Calm (onePosition positions) := by
  unfold onePosition
  split
  next position =>
    split
    · exact calm_raise rfl
    next hsize =>
      split
      next hnan => exact absurd hnan (h position rfl (not_le.mp hsize))
      · exact calm_pure position
      · split
        · exact calm_raise rfl
        · exact calm_pure position
  · exact calm_raise rfl

theorem ends_getPositions_bind {symbol : String} {f : List OpenPosition → ManagementProg (Option String)}
    (hf : ∀ positions, Comparable positions → Ends u (f positions)) :
    Ends u (perform (ManagementOp.getPositions symbol) >>= f) := fun w => by
  refine ensures_perform_bind (fun positions v hR => ?_) fun e v hR => ?_
  · exact (hf positions (met_positions hR) v).imp fun _ _ hpost =>
      hpost.of_untouched (met_op hR rfl).1
  · exact ⟨(met_op hR rfl).2 e rfl, (met_op hR rfl).1⟩

/-- The intent of a close is not recorded yet. -/
theorem ends_persistClose_bind {f : Bool → ManagementProg (Option String)} (hf : Ends u (f true)) :
    Ends u (perform (ManagementOp.persistProviderIntent u.closeOid) >>= f) := fun w => by
  refine ensures_perform_bind (fun recorded v hR => ?_) fun e v hR => ?_
  · obtain rfl := met_persist hR
    exact (hf v).imp fun _ _ hpost => hpost.of_untouched (met_op hR rfl).1
  · exact ⟨(met_op hR rfl).2 e rfl, (met_op hR rfl).1⟩

/-- A close claim is retired with its update, or kept. -/
theorem ends_retire_bind {positions : List OpenPosition} {e : ManagementError}
    (he : e.caught = true) (result : String) :
    Ends u (do if ← retireCloseClaim u positions then pure (some result) else raise e) := by
  unfold retireCloseClaim
  split
  · exact ends_raise he
  intro w
  refine ensures_bind.mpr (ensures_bind.mpr (ensures_attempt.mpr ?_))
  have hread : ∀ w, Ensures Met (do
      let orders : List String ← perform (ManagementOp.getOrders u.symbol)
      let proved ← cancelOwnedEntries u.symbol u.id true
      pure (orders.isEmpty && proved)) w fun _ w' => Untouched w w' := by
    intro w
    refine ensures_perform_bind (fun orders v hR => ?_) fun e v hR => (met_op hR rfl).1
    refine ensures_bind.mpr ((calm_cancelOwnedEntries u.symbol u.id true v).imp fun r w' h => ?_)
    have huntouched := (met_op hR rfl).1.trans h.1
    cases r with
    | ok proved => exact huntouched
    | error e => exact huntouched
  refine (hread w).imp fun r w' huntouched => ?_
  match r with
  | .ok true =>
    refine ensures_bind.mpr ((ensures_finish w').imp ?_)
    rintro r w'' ⟨rfl, hupdates, error, houtbox⟩
    exact BodyPost.of_untouched (r := .ok (some result)) huntouched
      ⟨.reconciled, error, rfl, hupdates, houtbox⟩
  | .ok false => exact ⟨he, huntouched⟩
  | .error e => exact ⟨he, huntouched⟩

theorem ends_processIneligible (u : SourceManagementUpdate) : Ends u (processIneligible u) := by
  refine ends_bind (calm_perform rfl fun _ h => h) fun recorded => ?_
  split
  · refine ends_getPositions_bind fun positions _ => ?_
    exact ends_retire_bind rfl _
  refine ends_bind (calm_perform rfl fun _ h => h) fun cancellation => ?_
  have hproved : ∀ proved : Bool, Ends u (if proved then
      raise (.invalid "source management revision is no longer eligible")
    else
      raise (.reconciliationPending "stale cancellation claim still requires terminal readback")) := by
    intro proved
    split
    · exact ends_raise rfl
    · exact ends_raise rfl
  dsimp only
  split
  · exact ends_bind (calm_cancelOwnedEntries _ _ _) hproved
  · exact hproved true

theorem ends_processFlat (u : SourceManagementUpdate) : Ends u (processFlat u) := by
  unfold processFlat
  split
  · refine ends_bind (calm_perform rfl fun _ h => h) fun recorded => ?_
    split
    · exact ends_retire_bind rfl _
    · exact ends_finishWith rfl _ _
  · exact ends_finishWith rfl _ _

theorem ends_processStop (position : OpenPosition) : Ends u (processStop u position) := by
  refine ends_bind (calm_requireEligible u) fun _ => ?_
  refine ends_bind (calm_perform rfl fun _ h => h) fun recorded => ?_
  split
  · exact ends_bind (calm_replaceStopLoss _ _ _ _ _) fun _ => ends_none
  · exact ends_bind (calm_reconcileStopLoss _) fun _ => ends_finishWith rfl _ _

theorem ends_processClose {positions : List OpenPosition} (h : Comparable positions) :
    Ends u (processClose u positions) := by
  refine ends_bind (calm_onePosition h) fun position => ?_
  refine ends_bind (calm_requireEligible u) fun _ => ?_
  refine ends_persistClose_bind ?_
  refine ends_bind (calm_closeReduceOnly _ _ _ _) fun _ => ?_
  refine ends_bind (calm_perform rfl fun _ h => h) fun after => ?_
  split
  · exact ends_none
  · exact ends_raise rfl

theorem ends_processTp1 {positions : List OpenPosition} (h : Comparable positions) :
    Ends u (processTp1 u positions) := by
  refine ends_bind (calm_onePosition h) fun position => ?_
  refine ends_bind (calm_perform rfl fun _ h => h) fun recorded => ?_
  split
  · exact ends_raise rfl
  refine ends_bind (calm_perform rfl fun _ h => h) fun quantity => ?_
  refine ends_bind (calm_requireEligible u) fun _ => ?_
  refine ends_persistClose_bind ?_
  refine ends_bind (calm_closeReduceOnly _ _ _ _) fun _ => ?_
  refine ends_getPositions_bind fun after hafter => ?_
  refine ends_bind (calm_onePosition hafter) fun remaining => ?_
  split
  · exact ends_raise rfl
  · exact ends_processStop remaining

theorem ends_processEligible (u : SourceManagementUpdate) : Ends u (processEligible u) := by
  have hproved : ∀ proved : Bool, Ends u (if proved = false then
      raise (.reconciliationPending "owned pending entries are not proved terminal")
    else do
      let positions : List OpenPosition ← perform (ManagementOp.getPositions u.symbol)
      if positions.isEmpty then processFlat u else processOpen u positions) := by
    intro proved
    split
    · exact ends_raise rfl
    refine ends_getPositions_bind fun positions hpositions => ?_
    split
    · exact ends_processFlat u
    unfold processOpen
    split
    · exact ends_finishWith rfl _ _
    · exact ends_processClose hpositions
    · exact ends_processTp1 hpositions
    · exact ends_bind (calm_onePosition hpositions) fun position => ends_processStop position
  unfold processEligible
  dsimp only
  split
  · exact ends_bind (calm_cancelOwnedEntries _ _ _) hproved
  · exact hproved true

theorem ends_process (x : SourceManagementExecutor) (u : SourceManagementUpdate) :
    Ends u (x.process u) := by
  have hasked : ∀ moved : Bool, Ends u (if moved then do
        reconcileStopLoss u.slOid
        finishWith u .reconciled none "reconciled"
      else do
        let eligible : Bool ← perform (ManagementOp.managementIsEligible u.id)
        if eligible then processEligible u else processIneligible u) := by
    intro moved
    split
    · exact ends_bind (calm_reconcileStopLoss _) fun _ => ends_finishWith rfl _ _
    refine ends_bind (calm_perform rfl fun _ h => h) fun eligible => ?_
    split
    · exact ends_processEligible u
    · exact ends_processIneligible u
  unfold SourceManagementExecutor.process
  split
  · exact ends_finishWith rfl _ _
  dsimp only
  split
  · exact ends_bind (calm_perform rfl fun _ h => h) hasked
  · exact hasked false

end Body

/-! ## A whole cycle -/

/-- The rows with this id are rewritten. -/
def Rewritten (id : Uuid) (f : UpdateRow → UpdateRow) (w w' : ManagementWorld) : Prop :=
  w'.updates.rows = w.updates.rows.map fun r => if r.id = id then f r else r

/-- How a cycle leaves the update of the row `r`, which it claimed. -/
inductive CycleEnds (x : SourceManagementExecutor) (r : UpdateRow) (w w' : ManagementWorld) : Prop
  | finished (state : UpdateState) (error : Option String) (hterminal : state.terminal = true)
      (hrows : Rewritten r.id (fun r => { r with state }) w w')
      (houtbox : w'.outbox = w.outbox.insertNew (.outcome r.update state error))
  | parked (v : ManagementWorld) (error : String)
      (hrows : Rewritten r.id (v.parked x.retrySeconds x.maxAttempts) w w')
      (houtbox : w'.outbox = if x.maxAttempts ≤ r.attempts + 1 then
        w.outbox.insertNew (.deadLetter r.id (r.attempts + 1) error) else w.outbox)

section Cycle

variable {x : SourceManagementExecutor} {w v w' : ManagementWorld} {r : UpdateRow} {id : Uuid}
  {f g : UpdateRow → UpdateRow}

theorem rewritten_updateState (w : ManagementWorld) (id : Uuid) (state : UpdateState) :
    Rewritten id (fun r => { r with state }) w (w.updateState id state) := rfl

theorem Rewritten.of_updates (h : Rewritten id f w w') (hv : v.updates = w'.updates) :
    Rewritten id f w v := by
  unfold Rewritten
  rw [hv]
  exact h

theorem Rewritten.trans (h : Rewritten id f w v) (h' : Rewritten id g v w')
    (hf : ∀ r, (f r).id = r.id) : Rewritten id (g ∘ f) w w' := by
  unfold Rewritten
  rw [h', h, List.map_map]
  refine List.map_congr_left fun r _ => ?_
  by_cases hr : r.id = id
  · simp [hr, hf]
  · simp [hr]

/-- A sweep that fails no update changes nothing. -/
theorem sweep_eq {eligible : Uuid → Bool} (h : ∀ r ∈ w.updates, w.swept eligible r = false) :
    (w.sweep eligible).updates = w.updates := by
  refine Table.ext ?_
  refine (List.map_congr_left fun r hr => ?_).trans (List.map_id _)
  simp [h r hr]

/-- What a claim does where no update is swept. -/
theorem met_claim {workerId : String} {a : Except ManagementError (Option SourceManagementUpdate)}
    (h : Met (.claim workerId) w a v) :
    ((∀ u, a ≠ .ok (some u)) ∧ Untouched w v) ∨
      ∃ r ∈ w.updates, r.state.terminal = false ∧ a = .ok (some r.update) ∧
        Rewritten r.id (fun r => { r with state := .claimed }) w v ∧ v.outbox = w.outbox := by
  obtain ⟨c, hmeets, hx⟩ := h
  have herr := hmeets.tolerated
  have hsweep := sweep_eq (hmeets.unswept workerId rfl)
  simp only [managementExec] at hx herr
  by_cases hworker : workerId = ""
  · rw [if_pos hworker] at hx
    obtain ⟨rfl, rfl⟩ := Prod.mk.inj hx
    exact Or.inl ⟨fun u hu => (by cases hu), Untouched.refl w⟩
  rw [if_neg hworker] at hx herr
  unfold ManagementChoice.commit at hx herr
  cases hdelivery : c.delivery <;> rw [hdelivery] at hx herr
  · obtain ⟨rfl, rfl⟩ := Prod.mk.inj hx
    unfold ManagementWorld.claim
    rw [hsweep]
    cases hfind : w.updates.rows.find? fun r => (w.sweep c.eligible).claimable r && !c.locked r.id with
    | none =>
      have hfind' : w.updates.rows.find? (fun r => w.claimable r && !c.locked r.id) = none := hfind
      simp only [hfind']
      exact Or.inl ⟨fun u hu => (by simp at hu), hsweep, rfl⟩
    | some r =>
      have hfind' : w.updates.rows.find? (fun r => w.claimable r && !c.locked r.id) = some r := hfind
      simp only [hfind']
      refine Or.inr ⟨r, List.mem_of_find?_eq_some hfind, ?_, rfl, ?_, rfl⟩
      · have hclaimable := List.find?_some hfind
        simp only [ManagementWorld.claimable, Bool.and_eq_true, Bool.not_eq_true'] at hclaimable
        exact hclaimable.1.1
      · have := rewritten_updateState (w.sweep c.eligible) r.id .claimed
        unfold Rewritten at this ⊢
        rwa [hsweep] at this
  · exact absurd (herr .other rfl) (by simp [ManagementOp.tolerates, ManagementError.caught])
  · exact absurd (herr .other rfl) (by simp [ManagementOp.tolerates, ManagementError.caught])

/-- The attempt that `park` counts. -/
theorem met_park {error : String} {a : Except ManagementError UpdateState}
    (hr : w.row id = some r) (h : Met (.park id error x.retrySeconds x.maxAttempts) w a v) :
    Rewritten id (w.parked x.retrySeconds x.maxAttempts) w v ∧ ∃ error,
      v.outbox = if x.maxAttempts ≤ r.attempts + 1 then
        w.outbox.insertNew (.deadLetter id (r.attempts + 1) error) else w.outbox := by
  obtain ⟨c, hmeets, hx⟩ := h
  have herr := hmeets.tolerated
  simp only [managementExec, ManagementWorld.park, hr] at hx herr
  unfold ManagementChoice.commit at hx herr
  cases hdelivery : c.delivery <;> rw [hdelivery] at hx herr
  · obtain ⟨rfl, rfl⟩ := Prod.mk.inj hx
    by_cases hmax : x.maxAttempts ≤ r.attempts + 1
    · have hfailed : (w.parked x.retrySeconds x.maxAttempts r).state = .failed := by
        simp [ManagementWorld.parked, hmax]
      have hattempts : (w.parked x.retrySeconds x.maxAttempts r).attempts = r.attempts + 1 := by
        simp [ManagementWorld.parked, hmax]
      rw [if_pos hfailed, hattempts]
      exact ⟨rfl, _, by rw [if_pos hmax]; rfl⟩
    · have hopen : (w.parked x.retrySeconds x.maxAttempts r).state ≠ .failed := by
        simp [ManagementWorld.parked, hmax]
      rw [if_neg hopen]
      exact ⟨rfl, error, by rw [if_neg hmax]; rfl⟩
  · exact absurd (herr .other rfl) (by simp [ManagementOp.tolerates, ManagementError.caught])
  · exact absurd (herr .other rfl) (by simp [ManagementOp.tolerates, ManagementError.caught])

/-- After a claim, the row is found under its id. -/
theorem row_of_claimed (hr : r ∈ w.updates)
    (h : Rewritten r.id (fun r => { r with state := .claimed }) w v) :
    v.row r.id = some { r with state := .claimed } := by
  unfold ManagementWorld.row
  rw [h]
  have hmem : r ∈ w.updates.rows := hr
  have honly : ∀ r' ∈ w.updates.rows, r'.id = r.id → r' = r := fun r' hr' hid =>
    Table.eq_of_key hr' hr hid
  generalize w.updates.rows = rows at hmem honly
  induction rows with
  | nil => cases hmem
  | cons r' rows ih =>
    by_cases hid : r'.id = r.id
    · obtain rfl := honly r' List.mem_cons_self hid
      simp [UpdateRow.id]
    · have hne : r' ≠ r := fun heq => hid (heq ▸ rfl)
      have hrest : r ∈ rows := (List.mem_cons.mp hmem).resolve_left hne.symm
      rw [List.map_cons, List.find?_cons_of_neg (by simp [hid])]
      exact ih hrest fun r'' hr'' => honly r'' (List.mem_cons_of_mem _ hr'')

/-- What follows the claim of a row. -/
theorem ends_claimed (hr : r ∈ w.updates)
    (hclaimed : Rewritten r.id (fun r => { r with state := .claimed }) w v)
    (houtbox : v.outbox = w.outbox) :
    Ensures Met (attempt (x.process r.update) >>= x.conclude r.update) v
      fun _ w' => CycleEnds x r w w' := by
  -- a row that was claimed before it was finished
  have hfinish : ∀ {v' w' : ManagementWorld} (state : UpdateState) (error : Option String),
      state.terminal = true → Untouched v v' →
      w'.updates = (v'.updateState r.id state).updates →
      w'.outbox = v'.outbox.insertNew (.outcome r.update state error) → CycleEnds x r w w' := by
    intro v' w' state error hterminal huntouched hupdates hinsert
    refine .finished state error hterminal ?_ (by rw [hinsert, huntouched.outbox, houtbox])
    exact (((hclaimed.of_updates huntouched.updates).trans (rewritten_updateState v' r.id state)
      fun _ => rfl)).of_updates hupdates
  refine ensures_bind.mpr (ensures_attempt.mpr ((ends_process x r.update v).imp ?_))
  intro result v' hpost
  match result, hpost with
  | .ok (some s), ⟨state, error, hterminal, hupdates, hinsert⟩ =>
    exact hfinish state error hterminal (Untouched.refl v) hupdates hinsert
  | .ok none, huntouched =>
    refine ensures_bind.mpr ((ensures_finish v').imp ?_)
    rintro _ w' ⟨rfl, hupdates, error, hinsert⟩
    exact hfinish .reconciled error rfl huntouched hupdates hinsert
  | .error (.invalid message), ⟨_, huntouched⟩ =>
    refine ensures_bind.mpr ((ensures_finish v').imp ?_)
    rintro _ w' ⟨rfl, hupdates, error, hinsert⟩
    exact hfinish .failed error rfl huntouched hupdates hinsert
  | .error (.reconciliationPending message), ⟨_, huntouched⟩ =>
    have hclaimed' := hclaimed.of_updates huntouched.updates
    have hpark : ∀ {a : Except ManagementError UpdateState} {w' : ManagementWorld},
        Met (.park r.id message x.retrySeconds x.maxAttempts) v' a w' → CycleEnds x r w w' := by
      intro a w' hR
      obtain ⟨hrows, error, hout⟩ := met_park (row_of_claimed hr hclaimed') hR
      refine .parked v' error ?_ (by simpa [huntouched.outbox, houtbox] using hout)
      have hrows' := hclaimed'.trans hrows fun _ => rfl
      have hparked : ((v'.parked x.retrySeconds x.maxAttempts) ∘
          fun r : UpdateRow => { r with state := .claimed }) =
            v'.parked x.retrySeconds x.maxAttempts := by
        funext r'
        simp only [Function.comp, ManagementWorld.parked]
      rwa [hparked] at hrows'
    exact ensures_perform_bind (fun a w' hR => hpark hR) fun e w' hR => hpark hR
  | .error .unknownResult, hpost => exact absurd hpost.1 (by simp [ManagementError.caught])
  | .error .other, hpost => exact absurd hpost.1 (by simp [ManagementError.caught])

/-- A cycle claims no update and changes none, or it claims one and ends it or counts an attempt. -/
theorem cycle_cases {t : ManagementWorld} {es : List ManagementEvent}
    (h : cycleStep x ManagementMeets w (.cycle es) t) :
    ((CycleLabel.cycle es).claimed = none ∧ Untouched w t) ∨
      ∃ r ∈ w.updates, r.state.terminal = false ∧ (CycleLabel.cycle es).claimed = some r.id ∧
        CycleEnds x r w t := by
  obtain ⟨workerId, result, a, v, es', hR, hran, rfl⟩ := h
  rcases met_claim hR with ⟨hnone, huntouched⟩ | ⟨r, hr, hopen, rfl, hclaimed, houtbox⟩
  · match a, hnone with
    | .error e, _ =>
      obtain ⟨rfl, -, rfl⟩ := hran
      exact Or.inl ⟨rfl, huntouched⟩
    | .ok none, _ =>
      obtain ⟨rfl, -, rfl⟩ := hran
      exact Or.inl ⟨rfl, huntouched⟩
    | .ok (some u), hnone => exact absurd rfl (hnone u)
  · exact Or.inr ⟨r, hr, hopen, rfl, (ends_claimed hr hclaimed houtbox).of_ran hran⟩

end Cycle

/-! ## Runs -/

/-- An alert about an update. -/
def ManagementAlert.about (id : Uuid) (a : ManagementAlert) : Prop :=
  a.key = .outcome id ∨ a.key = .deadLetter id

/-- An open update has as many attempts as cycles, and no alert. A failed one has one alert that says
so. -/
structure RowCounted (x : SourceManagementExecutor) (n : ℕ) (w : ManagementWorld) (r : UpdateRow) :
    Prop where
  bounded : n ≤ x.maxAttempts
  counted : r.state.terminal = false → r.attempts = n ∧ n < x.maxAttempts ∧
    ∀ a ∈ w.outbox, ¬ a.about r.id
  alerted : r.state = .failed → w.outbox.rows.countP (ManagementAlert.failure r.id) = 1

structure CyclesCounted (x : SourceManagementExecutor) (ls : List CycleLabel) (w : ManagementWorld) :
    Prop where
  rows : ∀ r ∈ w.updates, RowCounted x (cyclesOf r.id ls) w r
  others : ∀ id, (∀ r ∈ w.updates, r.id ≠ id) → cyclesOf id ls = 0 ∧ ∀ a ∈ w.outbox, ¬ a.about id

section Runs

variable {x : SourceManagementExecutor} {w w' t : ManagementWorld} {r r' : UpdateRow} {id : Uuid}
  {ls : List CycleLabel} {l : CycleLabel} {n : ℕ} {a : ManagementAlert}

theorem cyclesOf_append : cyclesOf id (ls ++ [l]) =
    cyclesOf id ls + if l.claimed = some id then 1 else 0 := by
  simp only [cyclesOf, List.countP_append, List.countP_singleton, decide_eq_true_eq]

theorem about_of_failure (h : a.failure id = true) : a.about id := by
  cases a with
  | outcome u state error =>
    simp only [ManagementAlert.failure, Bool.and_eq_true, decide_eq_true_eq] at h
    exact Or.inl (by rw [ManagementAlert.key, h.1])
  | deadLetter id' attempts error =>
    exact Or.inr (by rw [ManagementAlert.key, of_decide_eq_true h])

/-- Alerts of other updates. -/
theorem RowCounted.other (h : RowCounted x n w r) (ha : ¬ a.about r.id)
    (hout : w'.outbox = w.outbox.insertNew a ∨ w'.outbox = w.outbox) : RowCounted x n w' r := by
  rcases hout with hout | hout
  swap
  · exact ⟨h.bounded, by rw [hout]; exact h.counted, by rw [hout]; exact h.alerted⟩
  have hcount : w'.outbox.rows.countP (ManagementAlert.failure r.id) =
      w.outbox.rows.countP (ManagementAlert.failure r.id) := by
    rw [hout]
    rcases Table.rows_insertNew (t := w.outbox) (r := a) with hrows | ⟨hrows, -⟩
    · rw [hrows]
    · have hnot : ¬ a.failure r.id = true := fun hf => ha (about_of_failure hf)
      simp [hrows, List.countP_append, hnot]
  refine ⟨h.bounded, fun hopen => ?_, fun hfailed => by rw [hcount]; exact h.alerted hfailed⟩
  obtain ⟨hattempts, hlt, hnone⟩ := h.counted hopen
  refine ⟨hattempts, hlt, fun b hb => ?_⟩
  rw [hout] at hb
  rcases Table.mem_insertNew hb with hb | rfl
  · exact hnone b hb
  · exact ha

/-- The first alert of an update. -/
theorem countP_insertNew_failure (hnone : ∀ b ∈ w.outbox, ¬ b.about id) (ha : a.failure id = true) :
    (w.outbox.insertNew a).rows.countP (ManagementAlert.failure id) = 1 := by
  have hnew : ∀ b ∈ w.outbox, ¬ SameKey ManagementAlert.key b a := fun b hb hkey => by
    have hkey' : b.key = a.key := hkey
    refine hnone b hb ?_
    unfold ManagementAlert.about
    rw [hkey']
    exact about_of_failure ha
  have hzero : w.outbox.rows.countP (ManagementAlert.failure id) = 0 :=
    List.countP_eq_zero.mpr fun b hb hf => hnone b hb (about_of_failure hf)
  rw [Table.rows_insertNew_of hnew, List.countP_append, hzero]
  simp [ha]

/-- The row that was claimed. -/
theorem rowCounted_ends (h : RowCounted x n w r) (hopen : r.state.terminal = false)
    (hends : CycleEnds x r w t) : ∃ f : UpdateRow → UpdateRow, Rewritten r.id f w t ∧
      (∀ r', (f r').id = r'.id) ∧ RowCounted x (n + 1) t (f r) ∧
      ∃ a, a.about r.id ∧ (t.outbox = w.outbox.insertNew a ∨ t.outbox = w.outbox) := by
  obtain ⟨hattempts, hlt, hnone⟩ := h.counted hopen
  cases hends with
  | finished state error hterminal hrows houtbox =>
    refine ⟨_, hrows, fun _ => rfl, ⟨hlt, fun h => ?_, fun hfailed => ?_⟩, _, Or.inl rfl, Or.inl houtbox⟩
    · rw [hterminal] at h
      cases h
    · rw [houtbox]
      refine countP_insertNew_failure hnone ?_
      have hstate : state = .failed := hfailed
      simp [ManagementAlert.failure, hstate, UpdateRow.id]
  | parked v error hrows houtbox =>
    refine ⟨_, hrows, v.id_parked _ _, ?_, .deadLetter r.id (r.attempts + 1) error, Or.inr rfl, ?_⟩
    · by_cases hmax : x.maxAttempts ≤ r.attempts + 1
      · rw [if_pos hmax] at houtbox
        unfold ManagementWorld.parked
        rw [if_pos hmax]
        refine ⟨hlt, fun h => by simp [UpdateState.terminal] at h, fun _ => ?_⟩
        rw [houtbox]
        exact countP_insertNew_failure hnone (by simp [ManagementAlert.failure, UpdateRow.id])
      · rw [if_neg hmax] at houtbox
        unfold ManagementWorld.parked
        rw [if_neg hmax]
        refine ⟨hlt, fun _ => ⟨by simp [hattempts], by omega, ?_⟩, fun h => by simp at h⟩
        rw [houtbox]
        exact hnone
    · by_cases hmax : x.maxAttempts ≤ r.attempts + 1
      · exact Or.inl (by rw [houtbox, if_pos hmax])
      · exact Or.inr (by rw [houtbox, if_neg hmax])

theorem counted_claimed (h : CyclesCounted x ls w) (hr : r ∈ w.updates)
    (hopen : r.state.terminal = false) (hl : l.claimed = some r.id) (hends : CycleEnds x r w t) :
    CyclesCounted x (ls ++ [l]) t := by
  obtain ⟨f, hrows, hf, hcounted, a, ha, hout⟩ := rowCounted_ends (h.rows r hr) hopen hends
  have hcycles : ∀ id, cyclesOf id (ls ++ [l]) = cyclesOf id ls + if r.id = id then 1 else 0 := by
    intro id
    simp [cyclesOf_append, hl]
  have hnot : ∀ id, r.id ≠ id → ¬ a.about id := by
    rintro id hne (hkey | hkey) <;> rcases ha with ha | ha <;> rw [ha] at hkey <;>
      simp_all
  refine ⟨fun r' hr' => ?_, fun id hid => ?_⟩
  · rw [Table.mem_iff, hrows] at hr'
    obtain ⟨r₀, hr₀, rfl⟩ := List.mem_map.mp hr'
    by_cases hid : r₀.id = r.id
    · obtain rfl := Table.eq_of_key hr₀ hr hid
      rw [if_pos rfl, hf, hcycles, if_pos rfl]
      exact hcounted
    · rw [if_neg hid, hcycles, if_neg (Ne.symm hid)]
      exact (h.rows r₀ hr₀).other (hnot _ (Ne.symm hid)) hout
  · have hids : ∀ r' ∈ w.updates, r'.id ≠ id := by
      intro r' hr' heq
      have hmem : (if r'.id = r.id then f r' else r') ∈ t.updates := by
        rw [Table.mem_iff, hrows]
        exact List.mem_map_of_mem hr'
      refine hid _ hmem ?_
      split
      · rw [hf, heq]
      · exact heq
    obtain ⟨hzero, hnone⟩ := h.others id hids
    rw [hcycles, if_neg (hids r hr)]
    refine ⟨hzero, fun b hb => ?_⟩
    rcases hout with hout | hout <;> rw [hout] at hb
    · rcases Table.mem_insertNew hb with hb | rfl
      · exact hnone b hb
      · exact hnot id (hids r hr)
    · exact hnone b hb

/-- A step that claims no update, and leaves what is there alone. -/
theorem counted_untouched (h : CyclesCounted x ls w) (hl : l.claimed = none) (ht : Untouched w t) :
    CyclesCounted x (ls ++ [l]) t := by
  have hcycles : ∀ id, cyclesOf id (ls ++ [l]) = cyclesOf id ls := fun id => by
    simp [cyclesOf_append, hl]
  refine ⟨fun r hr => ?_, fun id hid => ?_⟩
  · rw [ht.updates] at hr
    have hrow := h.rows r hr
    rw [hcycles]
    exact ⟨hrow.bounded, by rw [ht.outbox]; exact hrow.counted, by rw [ht.outbox]; exact hrow.alerted⟩
  · rw [ht.updates] at hid
    rw [hcycles, ht.outbox]
    exact h.others id hid

theorem counted_step (h : CyclesCounted x ls w) (hstep : cycleStep x ManagementMeets w l t) :
    CyclesCounted x (ls ++ [l]) t := by
  cases l with
  | cycle es =>
    rcases cycle_cases hstep with ⟨hnone, huntouched⟩ | ⟨r, hr, hopen, hclaimed, hends⟩
    · exact counted_untouched h hnone huntouched
    · exact counted_claimed h hr hopen hclaimed hends
  | env e =>
    cases e with
    | enroll u deadline =>
      obtain rfl := Option.some.inj hstep
      have hcycles : ∀ id, cyclesOf id (ls ++ [.env (.enroll u deadline)]) = cyclesOf id ls :=
        fun id => by simp [cyclesOf_append, CycleLabel.claimed]
      set row : UpdateRow := { update := u, deadline := some deadline } with hrow
      rcases Table.rows_insertNew (t := w.updates) (r := row) with hrows | ⟨hrows, hnew⟩
      · have hsame : w.updates.insertNew row = w.updates := Table.ext hrows
        exact counted_untouched h rfl ⟨hsame, rfl⟩
      · refine ⟨fun r hr => ?_, fun id hid => ?_⟩
        · rw [hcycles]
          rcases List.mem_append.mp (hrows ▸ Table.mem_iff.mp hr) with hr | hr
          · have hold := h.rows r hr
            exact ⟨hold.bounded, hold.counted, hold.alerted⟩
          · obtain rfl := List.mem_singleton.mp hr
            obtain ⟨hzero, hnone⟩ := h.others row.id fun r hr => hnew r hr
            rw [hzero]
            exact ⟨Nat.zero_le _, fun _ => ⟨rfl, x.max_pos, hnone⟩, fun hfailed => by cases hfailed⟩
        · rw [hcycles]
          exact h.others id fun r hr => hid r (Table.prefix_insertNew.subset hr)
    | tick now =>
      obtain ⟨-, hstep⟩ := Option.ite_none_right_eq_some.mp hstep
      obtain rfl := Option.some.inj hstep
      exact counted_untouched h rfl ⟨rfl, rfl⟩
    | ledger db =>
      obtain rfl := Option.some.inj hstep
      exact counted_untouched h rfl ⟨rfl, rfl⟩

theorem counted_run {ls' : List CycleLabel} (hrun : Run (cycleStep x ManagementMeets) w ls t) :
    CyclesCounted x ls' w → CyclesCounted x (ls' ++ ls) t := by
  induction hrun generalizing ls' with
  | nil => exact fun h => by simpa using h
  | cons hstep _ ih =>
    intro h
    have := ih (counted_step h hstep)
    simpa using this

end Runs

/-- In every run of cycles that meet the condition, from a store without updates, attempts are counted
and failures alerted. -/
theorem attempts_counted (x : SourceManagementExecutor) (db : Db) (clock : Instant)
    {ls : List CycleLabel} {t : ManagementWorld}
    (hrun : Run (cycleStep x ManagementMeets) { db, clock } ls t) : AttemptsCounted x ls t := by
  have hempty : CyclesCounted x [] { db, clock } :=
    ⟨fun r hr => absurd hr List.not_mem_nil, fun id _ => ⟨rfl, fun a ha => absurd ha List.not_mem_nil⟩⟩
  have h : CyclesCounted x ls t := counted_run hrun hempty
  refine ⟨fun r hr hopen => ?_, fun id => ?_, fun r hr hfailed => (h.rows r hr).alerted hfailed⟩
  · obtain ⟨hattempts, hlt, -⟩ := (h.rows r hr).counted hopen
    exact ⟨hattempts, hattempts ▸ hlt⟩
  · by_cases hid : ∃ r ∈ t.updates, r.id = id
    · obtain ⟨r, hr, rfl⟩ := hid
      exact (h.rows r hr).bounded
    · push Not at hid
      rw [(h.others id hid).1]
      exact Nat.zero_le _

/-! ## Cycles that meet the condition -/

def answering (c : ManagementChoice) (o : ManagementOp) (w : ManagementWorld) :
    Except ManagementError (ManagementAns o) × ManagementWorld := managementExec w c o

/-- Whether an operation meets the condition. -/
def allowed (c : ManagementChoice) (o : ManagementOp) (w : ManagementWorld) : Bool :=
  (match (managementExec w c o).1 with
    | .error e => o.tolerates e
    | .ok _ => true) &&
  (match c.positions with
    | .ok [p] => p.entry ≠ .nan
    | _ => true) &&
  match o with
  | .persistProviderIntent oid => oid ∉ w.providerIntents
  | .claim _ => w.updates.rows.all fun r => !w.swept c.eligible r
  | _ => true

theorem meets_of_allowed {c : ManagementChoice} {o : ManagementOp} {w : ManagementWorld}
    (h : allowed c o w = true) : ManagementMeets w c o := by
  unfold allowed at h
  obtain ⟨h, hop⟩ := Bool.and_eq_true_iff.mp h
  obtain ⟨herror, hposition⟩ := Bool.and_eq_true_iff.mp h
  refine ⟨fun e he => ?_, fun symbol ho positions hpositions p hp _ => ?_, fun id ho => ?_,
    fun worker ho r hr => ?_⟩
  · rw [he] at herror
    exact herror
  · rw [hpositions, hp] at hposition
    exact of_decide_eq_true hposition
  · subst ho
    exact of_decide_eq_true hop
  · subst ho
    simpa using List.all_eq_true.mp hop r hr

/-- A cycle where every operation meets the same choice. -/
def steadyCycle (x : SourceManagementExecutor) (c : ManagementChoice) (w : ManagementWorld) :
    List ManagementEvent × ManagementWorld :=
  ((x.runOnce "worker").events (answering c) w, ((x.runOnce "worker").run (answering c) w).2)

theorem cycleStep_allowed {x : SourceManagementExecutor} {c : ManagementChoice} {w : ManagementWorld}
    (h : (x.runOnce "worker").meets (allowed c) (answering c) w = true) :
    cycleStep x ManagementMeets w (.cycle (steadyCycle x c w).1) (steadyCycle x c w).2 := by
  have heffect : ∀ o w, allowed c o w = true →
      managementEffect ManagementMeets o w (answering c o w).1 (answering c o w).2 :=
    fun o w hallowed => ⟨c, meets_of_allowed hallowed, rfl⟩
  exact ⟨"worker", _, ran_of_meets heffect (x.runOnce "worker") w h⟩

def disabledExecutor : SourceManagementExecutor := { fiveAttempts with mutationsEnabled := false }

def enrolledClose : ManagementWorld :=
  { updates := Table.empty.insertNew { update := closeUpdate, deadline := some 1000000 } }

/-- A close is enrolled and claimed by a cycle, while the position stays open. -/
def firstCycle (x : SourceManagementExecutor) : List CycleLabel :=
  [.env (.enroll closeUpdate 1000000), .cycle (steadyCycle x stillOpen enrolledClose).1]

theorem run_firstCycle {x : SourceManagementExecutor}
    (h : (x.runOnce "worker").meets (allowed stillOpen) (answering stillOpen) enrolledClose = true) :
    Run (cycleStep x ManagementMeets) {} (firstCycle x) (steadyCycle x stillOpen enrolledClose).2 :=
  .cons (t := enrolledClose) rfl <| .cons (cycleStep_allowed h) (.nil _)

/-- The cycle sends the close, whose result is unknown, and parks the update with an attempt. Where
mutations are disabled it fails the update and alerts it. -/
theorem firstCycle_counted :
    (∃ t, Run (cycleStep fiveAttempts ManagementMeets) {} (firstCycle fiveAttempts) t ∧
      (∃ r ∈ t.updates, r.state = .reconciliationPending ∧ r.attempts = 1) ∧
      AttemptsCounted fiveAttempts (firstCycle fiveAttempts) t) ∧
    ∃ t, Run (cycleStep disabledExecutor ManagementMeets) {} (firstCycle disabledExecutor) t ∧
      (∃ r ∈ t.updates, r.state = .failed) ∧
      AttemptsCounted disabledExecutor (firstCycle disabledExecutor) t := by
  have hsent := run_firstCycle (x := fiveAttempts) (by decide +kernel)
  have hdisabled := run_firstCycle (x := disabledExecutor) (by decide +kernel)
  refine ⟨⟨_, hsent, ?_, attempts_counted fiveAttempts {} 0 hsent⟩,
    _, hdisabled, ?_, attempts_counted disabledExecutor {} 0 hdisabled⟩
  · have h : ((steadyCycle fiveAttempts stillOpen enrolledClose).2.updates.rows.any fun r =>
        r.state = .reconciliationPending && r.attempts = 1) = true := by
      decide +kernel
    obtain ⟨r, hr, hrow⟩ := List.any_eq_true.mp h
    simp only [Bool.and_eq_true, decide_eq_true_eq] at hrow
    exact ⟨r, hr, hrow⟩
  · have h : ((steadyCycle disabledExecutor stillOpen enrolledClose).2.updates.rows.any fun r =>
        r.state = .failed) = true := by
      decide +kernel
    obtain ⟨r, hr, hrow⟩ := List.any_eq_true.mp h
    exact ⟨r, hr, of_decide_eq_true hrow⟩

/-! ## A close that is replayed -/

def unlimited : ManagementWorld → ManagementChoice → ManagementOp → Prop := fun _ _ _ => True

theorem cycleStep_steadyCycle (c : ManagementChoice) (w : ManagementWorld) :
    cycleStep fiveAttempts unlimited w (.cycle (steadyCycle fiveAttempts c w).1)
      (steadyCycle fiveAttempts c w).2 := by
  have heffect : ∀ o w, managementEffect unlimited o w (answering c o w).1 (answering c o w).2 :=
    fun o w => ⟨c, trivial, rfl⟩
  exact ⟨"worker", _, ran_run heffect (fiveAttempts.runOnce "worker") w⟩

/-- After the first cycle, whose close has an unknown result, when its deadline has passed. -/
def parkedClose : ManagementWorld :=
  { (steadyCycle fiveAttempts stillOpen enrolledClose).2 with clock := 100000000 }

def replayLabels : List CycleLabel :=
  firstCycle fiveAttempts ++
    [.env (.tick 100000000), .cycle (steadyCycle fiveAttempts stillOpen parkedClose).1]

theorem run_replayLabels : Run (cycleStep fiveAttempts unlimited) {} replayLabels
    (steadyCycle fiveAttempts stillOpen parkedClose).2 := by
  have hclock : (steadyCycle fiveAttempts stillOpen enrolledClose).2.clock ≤ 100000000 := by
    decide +kernel
  have htick : ManagementEnv.apply (steadyCycle fiveAttempts stillOpen enrolledClose).2
      (.tick 100000000) = some parkedClose := by
    simp only [ManagementEnv.apply, if_pos hclock, parkedClose]
  exact .cons (t := enrolledClose) rfl <| .cons (cycleStep_steadyCycle stillOpen enrolledClose) <|
    .cons htick <| .cons (cycleStep_steadyCycle stillOpen parkedClose) (.nil _)

/-- The second cycle claims the update and leaves it open, with the attempt of the first. -/
theorem replayed_uncounted :
    ∃ t, Run (cycleStep fiveAttempts unlimited) {} replayLabels t ∧
      ∃ r ∈ t.updates, r.state = .reconciliationPending ∧ cyclesOf r.id replayLabels = 2 ∧
        r.attempts = 1 := by
  refine ⟨_, run_replayLabels, ?_⟩
  have h : ((steadyCycle fiveAttempts stillOpen parkedClose).2.updates.rows.any fun r =>
      r.state = .reconciliationPending && cyclesOf r.id replayLabels = 2 && r.attempts = 1) = true := by
    decide +kernel
  obtain ⟨r, hr, hrow⟩ := List.any_eq_true.mp h
  simp only [Bool.and_eq_true, decide_eq_true_eq] at hrow
  exact ⟨r, hr, hrow.1.1, hrow.1.2, hrow.2⟩

end FattyTrader
