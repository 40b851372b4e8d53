import FattyTrader.Runs
import FattyTrader.VerifiedClose

/-!
# Runs of the reservation operations

The margin reservations as a state machine. A step is one operation in its transaction
(`perform`) ; an operation that raises leaves the database as it was (`after`). The label
`elsewhere` stands for the writes of other components to the other tables, so a run of
this machine is any interleaving of the reservation operations of any number of
processes, with anything happening to intents, fills and bindings between them.

`RowChange` says once what an operation can do to one reservation row
(`reservation_of_perform`). The results over runs follow from it by cases.
-/

set_option linter.unusedSectionVars false

open Tables Runs

namespace FattyTrader

inductive ReservationOp
  | reserve (clock : ReserveClock) (ids : ReserveIds) (eligible : Bool) (request : ReserveRequest)
  | resolve (now : Instant) (reservationId : Uuid) (outcome : Outcome)
  | releaseVerifiedClose (clock : CloseClock) (claim : CloseClaim)
  | escalateExpired (now : Instant) (reservationId : Uuid)
  | expireSource (now : Instant) (dispatchId : Uuid)
  | applyBaseline (now : Instant) (baselineId : String) (records : List BaselineRecord)
  | elsewhere (db : Db)

inductive ReservationAnswer
  | done
  | admission (a : BalanceAdmission)
  | close (a : CloseAdmission)
deriving DecidableEq

namespace Db

/-! ## One row -/

theorem reservation_of_rewrite {db db' : Db} {p : MarginReservation → Bool}
    {f : MarginReservation → MarginReservation} (h : db.rewriteReservations p f = .ok db')
    (hf : ∀ r, (f r).id = r.id) (id : Uuid) :
    db'.reservation id = (db.reservation id).map fun r => if p r then f r else r := by
  unfold rewriteReservations at h
  split at h
  · cases h
  next t ht =>
    obtain rfl := Except.ok.inj h
    exact Table.find_updateWhere hf ht

theorem rewriteReservations_eq {db db' : Db} {p : MarginReservation → Bool}
    {f : MarginReservation → MarginReservation} (h : db.rewriteReservations p f = .ok db') :
    db' = { db with reservations := db'.reservations } := by
  unfold rewriteReservations at h
  split at h
  · cases h
  · obtain rfl := Except.ok.inj h
    rfl

theorem reservation_of_set {db db' : Db} {r old : MarginReservation}
    (h : db.setReservation r = .ok db') (hold : db.reservation r.id = some old) (id : Uuid) :
    db'.reservation id = if id = r.id then some r else db.reservation id := by
  unfold setReservation at h
  split at h
  · cases h
  next t ht =>
    obtain rfl := Except.ok.inj h
    have hfind := Table.find_replace rfl ht id
    rw [show db.reservations.find (·.id) r.id = some old from hold] at hfind
    exact hfind

theorem setReservation_eq {db db' : Db} {r : MarginReservation}
    (h : db.setReservation r = .ok db') : db' = { db with reservations := db'.reservations } := by
  unfold setReservation at h
  split at h
  · cases h
  · obtain rfl := Except.ok.inj h
    rfl

/-- A row is written exactly when it conflicts with no other row. -/
theorem setReservation_isOk_iff {db : Db} {r old : MarginReservation}
    (hold : db.reservation r.id = some old) :
    (∃ db', db.setReservation r = .ok db') ↔
      ∀ x ∈ db.reservations, x.id ≠ r.id → ¬ MarginReservation.Conflict x r := by
  rw [← Table.replace_isSome_iff (fun _ _ => MarginReservation.conflict_of_id) rfl hold]
  unfold setReservation
  split
  next h => simp [h]
  next h => simp [h]

/-! ## One step -/

/-- The retirement of a dispatch whose source is no longer eligible, in the state it is in. -/
def expireSource (now : Instant) (db : Db) (dispatchId : Uuid) : Except DbError Db :=
  match db.dispatch dispatchId with
  | none => .ok db
  | some d => db.expireSourceDispatch now dispatchId d.state

/-- One operation in its transaction. -/
def perform (db : Db) : ReservationOp → Except DbError (Db × ReservationAnswer)
  | .reserve clock ids eligible request =>
    (db.reserve clock ids eligible request).map fun p => (p.1, .admission p.2)
  | .resolve now id outcome => (db.resolve now id outcome).map (·, .done)
  | .releaseVerifiedClose clock claim =>
    (db.releaseVerifiedClose clock claim).map fun p => (p.1, .close p.2)
  | .escalateExpired now id => (db.escalateExpired now id).map (·, .done)
  | .expireSource now id => (db.expireSource now id).map (·, .done)
  | .applyBaseline now baselineId records =>
    (db.applyBaseline now baselineId records).map (·, .done)
  | .elsewhere db' =>
    .ok ({ db' with
            reservations := db.reservations, baselineRecords := db.baselineRecords }, .done)

/-- The database after an operation, unchanged where it raised. -/
def after (db : Db) (op : ReservationOp) : Db :=
  match db.perform op with
  | .ok (db', _) => db'
  | .error _ => db

/-- What an operation can do to a reservation row. -/
inductive RowChange (db : Db) : ReservationOp → MarginReservation → MarginReservation → Prop
  | kept (op : ReservationOp) (r : MarginReservation) : RowChange db op r r
  | expired {clock ids eligible request r} :
      r.state = .reserved →
      RowChange db (.reserve clock ids eligible request) r
        (r.expired clock.transaction "reservation-expired")
  | escalated {now id r} :
      r.state = .reserved → RowChange db (.escalateExpired now id) r (r.escalated now)
  | staleSource {op r} (now : Instant) :
      r.state = .reserved → RowChange db op r (r.releasedFor now "stale-source-message")
  | resolved {now outcome target r} :
      outcome.target = some target → db.baselined (.reservation r.id) = false →
      RowChange db (.resolve now r.id outcome) r (r.resolved now outcome target)
  | closed {clock claim r} :
      r.state = .consumed → db.verifyClose clock claim = .ok r →
      RowChange db (.releaseVerifiedClose clock claim) r
        (r.releasedFor clock.write (closeReceipt claim.closeClientOrderId))
  | baselined {now baselineId records r} :
      .reservation r.id ∈ records →
      RowChange db (.applyBaseline now baselineId records) r
        (r.releasedFor now ("audited-baseline:" ++ baselineId ++ ":unresolved-history"))

theorem RowChange.id_eq {db : Db} {op : ReservationOp} {r r' : MarginReservation}
    (h : RowChange db op r r') : r'.id = r.id := by
  cases h <;> rfl

/-- Proof of exposure is never withdrawn from a row. -/
theorem RowChange.hasExposure {db : Db} {op : ReservationOp} {r r' : MarginReservation}
    (h : RowChange db op r r') (he : r.hasExposure) : r'.hasExposure := by
  cases h with
  | resolved => simp [MarginReservation.resolved, he]
  | _ => exact he

/-- A conditional rewrite changes a row as its condition allows. -/
theorem rowChange_of_rewrite {db₀ db db' : Db} {op : ReservationOp} {p : MarginReservation → Bool}
    {f : MarginReservation → MarginReservation} (h : db.rewriteReservations p f = .ok db')
    (hf : ∀ r, (f r).id = r.id) (hchange : ∀ r, p r → RowChange db₀ op r (f r))
    {id : Uuid} {r : MarginReservation} (hr : db.reservation id = some r) :
    ∃ r', db'.reservation id = some r' ∧ RowChange db₀ op r r' := by
  have hrow := reservation_of_rewrite h hf id
  rw [hr, Option.map_some] at hrow
  refine ⟨_, hrow, ?_⟩
  by_cases hp : p r
  · simpa [hp] using hchange r hp
  · simpa [hp] using RowChange.kept op r

theorem rowChange_of_expireSourceDispatch {now : Instant} {db db' : Db} {did : Uuid}
    {state : DispatchState} (op : ReservationOp)
    (h : db.expireSourceDispatch now did state = .ok db') {id : Uuid} {r : MarginReservation}
    (hr : db.reservation id = some r) :
    ∃ r', db'.reservation id = some r' ∧ RowChange db op r r' := by
  have hkept : db' = db → ∃ r', db'.reservation id = some r' ∧ RowChange db op r r' := by
    rintro rfl
    exact ⟨r, hr, .kept op r⟩
  unfold expireSourceDispatch at h
  split at h
  · exact hkept (Except.ok.inj h).symm
  split at h
  · exact hkept (Except.ok.inj h).symm
  split at h
  · exact hkept (Except.ok.inj h).symm
  split at h
  · cases h
  · refine rowChange_of_rewrite h (fun _ => rfl) (fun m hm => ?_) hr
    simp only [Bool.and_eq_true, decide_eq_true_eq] at hm
    exact .staleSource now hm.2

/-- An admission that reaches the owners' checks expires what is over, and inserts its row
only where the headroom holds. -/
theorem commitMargin_ok {clock : ReserveClock} {ids : ReserveIds} {db db' : Db}
    {r : ReserveRequest} {e : AdmissionEvidence r} {a : BalanceAdmission}
    (h : db.commitMargin clock ids r e = .ok (db', a)) :
    ∃ db₁, db.rewriteReservations
        (fun m => m.state = .reserved && m.expiresAt ≤ clock.transaction)
        (MarginReservation.expired clock.transaction "reservation-expired") = .ok db₁ ∧
      ((a = .rejected .insufficientReservedHeadroom ∧ db'.reservations = db₁.reservations) ∨
        (a = .accepted ids.snapshot ids.reservation ∧
          db₁.activeMargin + e.planned ≤ e.available * e.headroom ∧
          db₁.reservations.insert (admittedReservation clock ids r e) =
            some db'.reservations)) := by
  unfold commitMargin at h
  split at h
  · cases h
  next db₁ h₁ =>
    refine ⟨db₁, h₁, ?_⟩
    dsimp only at h
    split at h
    · obtain ⟨rfl, rfl⟩ := Prod.mk.inj (Except.ok.inj h)
      exact Or.inl ⟨rfl, rfl⟩
    next hle =>
      split at h
      · cases h
      next t ht =>
        obtain ⟨rfl, rfl⟩ := Prod.mk.inj (Except.ok.inj h)
        exact Or.inr ⟨rfl, not_lt.mp hle, ht⟩

/-- A `reserve` that passes its checks is one that commits margin. -/
theorem reserve_ok {clock : ReserveClock} {ids : ReserveIds} {eligible : Bool} {db db' : Db}
    {r : ReserveRequest} {a : BalanceAdmission}
    (h : db.reserve clock ids eligible r = .ok (db', a)) :
    (∃ rejection, a = .rejected rejection ∧
        (db' = db ∨ ∃ state, db.expireSourceDispatch clock.read r.dispatchId state = .ok db')) ∨
      ∃ e : AdmissionEvidence r, db.commitMargin clock ids r e = .ok (db', a) ∧
        none ∉ db.activeOwners e.owner.environment ∧
        some e.owner.symbol ∉ db.activeOwners e.owner.environment ∧
        (occupiedSlots (db.activeOwners e.owner.environment) e.activeSymbols : ℤ) <
          e.maxPositions := by
  have hrej : ∀ {rejection}, (Except.ok (db, BalanceAdmission.rejected rejection) :
      Except DbError (Db × BalanceAdmission)) = .ok (db', a) →
      ∃ rejection, a = .rejected rejection ∧
        (db' = db ∨ ∃ state, db.expireSourceDispatch clock.read r.dispatchId state = .ok db') := by
    intro rejection h
    obtain ⟨rfl, rfl⟩ := Prod.mk.inj (Except.ok.inj h)
    exact ⟨rejection, rfl, Or.inl rfl⟩
  unfold reserve at h
  split at h
  · exact Or.inl (hrej h)
  next e _ =>
    split at h
    · exact Or.inl (hrej h)
    next d _ =>
      split at h
      · exact Or.inl (hrej h)
      split at h
      · obtain ⟨db₁, hx, hp⟩ := exists_of_map_ok h
        obtain ⟨rfl, rfl⟩ := Prod.mk.inj hp
        exact Or.inl ⟨_, rfl, Or.inr ⟨d.state, hx⟩⟩
      split at h
      · exact Or.inl (hrej h)
      split at h
      · exact Or.inl (hrej h)
      split at h
      · exact Or.inl (hrej h)
      dsimp only at h
      split at h
      · exact Or.inl (hrej h)
      next hnone =>
        split at h
        · exact Or.inl (hrej h)
        next howned =>
          split at h
          · exact Or.inl (hrej h)
          next hslots =>
            exact Or.inr ⟨e, h, hnone, fun hmem => howned (Or.inl hmem), not_le.mp hslots⟩

theorem rowChange_of_reserve {clock : ReserveClock} {ids : ReserveIds} {eligible : Bool}
    {db db' : Db} {q : ReserveRequest} {a : BalanceAdmission}
    (h : db.reserve clock ids eligible q = .ok (db', a)) {id : Uuid} {r : MarginReservation}
    (hr : db.reservation id = some r) :
    ∃ r', db'.reservation id = some r' ∧
      RowChange db (.reserve clock ids eligible q) r r' := by
  rcases reserve_ok h with ⟨_, -, rfl | ⟨state, hx⟩⟩ | ⟨e, hc, -⟩
  · exact ⟨r, hr, .kept _ r⟩
  · exact rowChange_of_expireSourceDispatch _ hx hr
  · obtain ⟨db₁, h₁, hins⟩ := commitMargin_ok hc
    have hexp : ∀ m : MarginReservation,
        (m.state = .reserved && m.expiresAt ≤ clock.transaction : Bool) →
        RowChange db (.reserve clock ids eligible q) m
          (m.expired clock.transaction "reservation-expired") := by
      intro m hm
      simp only [Bool.and_eq_true, decide_eq_true_eq] at hm
      exact .expired hm.1
    obtain ⟨r₁, hr₁, hchange⟩ := rowChange_of_rewrite h₁ (fun _ => rfl) hexp hr
    refine ⟨r₁, ?_, hchange⟩
    rcases hins with ⟨-, heq⟩ | ⟨-, -, hins⟩
    · simp only [reservation, heq]
      exact hr₁
    · have hfind := Table.find_insert hins (·.id) id
      rw [show db₁.reservations.find (·.id) id = some r₁ from hr₁] at hfind
      exact hfind

theorem rowChange_of_resolve {now : Instant} {db db' : Db} {rid : Uuid} {outcome : Outcome}
    (h : db.resolve now rid outcome = .ok db') {id : Uuid} {r : MarginReservation}
    (hr : db.reservation id = some r) :
    ∃ r', db'.reservation id = some r' ∧ RowChange db (.resolve now rid outcome) r r' := by
  have hkept : db' = db →
      ∃ r', db'.reservation id = some r' ∧ RowChange db (.resolve now rid outcome) r r' := by
    rintro rfl
    exact ⟨r, hr, .kept _ r⟩
  unfold resolve at h
  split at h
  · exact hkept (Except.ok.inj h).symm
  split at h
  · cases h
  next target htarget =>
    split at h
    · exact hkept (Except.ok.inj h).symm
    next r₀ hr₀ =>
      split at h
      · exact hkept (Except.ok.inj h).symm
      next hb =>
        have hid : r₀.id = rid := (reservation_eq_some.mp hr₀).2
        subst hid
        have hset := reservation_of_set h hr₀ id
        by_cases hid : id = r₀.id
        · subst hid
          obtain rfl : r₀ = r := Option.some.inj (hr₀.symm.trans hr)
          exact ⟨_, by simpa [MarginReservation.resolved] using hset,
            .resolved htarget (by simpa using hb)⟩
        · exact ⟨r, by simpa [MarginReservation.resolved, hid, hr] using hset, .kept _ r⟩

theorem rowChange_of_release {clock : CloseClock} {db db' : Db} {c : CloseClaim}
    {a : CloseAdmission} (h : db.releaseVerifiedClose clock c = .ok (db', a)) {id : Uuid}
    {r : MarginReservation} (hr : db.reservation id = some r) :
    ∃ r', db'.reservation id = some r' ∧ RowChange db (.releaseVerifiedClose clock c) r r' := by
  unfold releaseVerifiedClose at h
  split at h
  · obtain ⟨rfl, rfl⟩ := Prod.mk.inj (Except.ok.inj h)
    exact ⟨r, hr, .kept _ r⟩
  next m hm =>
    split at h
    · obtain ⟨rfl, rfl⟩ := Prod.mk.inj (Except.ok.inj h)
      exact ⟨r, hr, .kept _ r⟩
    next hstate =>
      obtain ⟨hmem, -, hcons⟩ := verifyClose_ok hm
      have hcons : m.state = .consumed := by
        rcases hcons with h | ⟨h, -⟩
        · exact h
        · exact absurd h hstate
      have hm' : db.reservation m.id = some m := reservation_eq_some.mpr ⟨hmem, rfl⟩
      obtain ⟨db₁, hset, hp⟩ := exists_of_map_ok h
      obtain ⟨rfl, -⟩ := Prod.mk.inj hp
      have hrow := reservation_of_set hset hm' id
      by_cases hid : id = m.id
      · subst hid
        obtain rfl : m = r := Option.some.inj (hm'.symm.trans hr)
        exact ⟨_, by simpa [MarginReservation.releasedFor] using hrow, .closed hcons hm⟩
      · exact ⟨r, by simpa [MarginReservation.releasedFor, hid, hr] using hrow, .kept _ r⟩

/-- No operation removes a row, and each changes a row in one of the ways of `RowChange`. -/
theorem rowChange_of_perform {db db' : Db} {op : ReservationOp} {a : ReservationAnswer}
    (h : db.perform op = .ok (db', a)) {id : Uuid} {r : MarginReservation}
    (hr : db.reservation id = some r) :
    ∃ r', db'.reservation id = some r' ∧ RowChange db op r r' := by
  cases op with
  | reserve clock ids eligible request =>
    obtain ⟨⟨db₁, a₁⟩, hx, hp⟩ := exists_of_map_ok h
    obtain ⟨rfl, -⟩ := Prod.mk.inj hp
    exact rowChange_of_reserve hx hr
  | resolve now rid outcome =>
    obtain ⟨db₁, hx, hp⟩ := exists_of_map_ok h
    obtain ⟨rfl, -⟩ := Prod.mk.inj hp
    exact rowChange_of_resolve hx hr
  | releaseVerifiedClose clock claim =>
    obtain ⟨⟨db₁, a₁⟩, hx, hp⟩ := exists_of_map_ok h
    obtain ⟨rfl, -⟩ := Prod.mk.inj hp
    exact rowChange_of_release hx hr
  | escalateExpired now rid =>
    obtain ⟨db₁, hx, hp⟩ := exists_of_map_ok h
    obtain ⟨rfl, -⟩ := Prod.mk.inj hp
    refine rowChange_of_rewrite hx (fun _ => rfl) (fun m hm => ?_) hr
    simp only [Bool.and_eq_true, decide_eq_true_eq] at hm
    exact .escalated hm.1.2
  | expireSource now did =>
    obtain ⟨db₁, hx, hp⟩ := exists_of_map_ok h
    obtain ⟨rfl, -⟩ := Prod.mk.inj hp
    unfold expireSource at hx
    split at hx
    · obtain rfl := Except.ok.inj hx
      exact ⟨r, hr, .kept _ r⟩
    · exact rowChange_of_expireSourceDispatch _ hx hr
  | applyBaseline now baselineId records =>
    obtain ⟨db₁, hx, hp⟩ := exists_of_map_ok h
    obtain ⟨rfl, -⟩ := Prod.mk.inj hp
    refine rowChange_of_rewrite hx (fun _ => rfl) (fun m hm => ?_) hr
    simp only [Bool.and_eq_true, decide_eq_true_eq] at hm
    exact .baselined hm.1
  | elsewhere db₁ =>
    obtain ⟨rfl, -⟩ := Prod.mk.inj (Except.ok.inj h)
    exact ⟨r, hr, .kept _ r⟩

theorem rowChange_of_after (op : ReservationOp) {db : Db} {id : Uuid} {r : MarginReservation}
    (hr : db.reservation id = some r) :
    ∃ r', (db.after op).reservation id = some r' ∧ RowChange db op r r' := by
  unfold after
  split
  next db' a h => exact rowChange_of_perform h hr
  · exact ⟨r, hr, .kept op r⟩

/-! ## The states `resolve` leads to -/

theorem resolvedState_filled (old : ReservationState) (e : Bool) :
    resolvedState old e .filled .consumed = .consumed := by
  cases old <;> simp [resolvedState, Outcome.exposure]

theorem resolvedState_partial (old : ReservationState) (e : Bool) :
    resolvedState old e .partiallyFilled .unknown =
      if old = .consumed then .consumed else .unknown := by
  cases old <;> simp [resolvedState, Outcome.exposure]

/-- No outcome moves a committed row with exposure out of `unknown` and `consumed`, and
none moves it out of `consumed`. -/
theorem resolvedState_committed {old : ReservationState} {outcome : Outcome}
    {target : ReservationState} (ht : outcome.target = some target)
    (hold : old = .unknown ∨ old = .consumed) :
    resolvedState old true outcome target = .consumed ∨
      (resolvedState old true outcome target = .unknown ∧ old = .unknown) := by
  rcases hold with rfl | rfl
  · cases outcome <;> simp_all [Outcome.target, Outcome.exposure, resolvedState] <;>
      subst ht <;> simp
  · simp [resolvedState]

theorem exposure_target {outcome : Outcome} (he : outcome.exposure) :
    ∃ target, outcome.target = some target := by
  cases outcome <;> simp_all [Outcome.exposure, Outcome.target]

end Db

end FattyTrader
