import FattyTrader.CanaryCap
import FattyTrader.ExactlyOnce
import FattyTrader.DispatcherLaws

/-!
# The retirement of a stale source

`expire_source_dispatch` races the workers that claim and submit the same dispatch. It looks at
the state, at the reservations and at the entry intents, and where any of them may stand for an
order it writes nothing (`expireSourceDispatch_cases`). An expired dispatch is past the states
of an entry for good (`Over`), so no worker claims or moves it any more and no source check of
it passes.

The intents are no proof against a request that is about to be sent : a recovery that finds no
order at the venue rejects the intent of a call between its last check and its POST, and the
dispatch expires under it (`sent_after_expiry`).
-/

set_option linter.unusedSectionVars false
set_option autoImplicit false

open Tables

namespace FattyTrader.SourceExpiry

open Runs Programs

/-! ## One retirement -/

section Retirement

variable {db db' : Db} {id : Uuid} {now : Instant} {state : DispatchState}

/-- What allows a retirement : a state before or in the submission, no reservation that may
stand for an order, and no entry intent that filled or may still be open. -/
structure Expirable (db : Db) (id : Uuid) (state : DispatchState) : Prop where
  state : state = .queued ∨ state = .preflight ∨ state = .submitting
  reservations : ∀ m ∈ db.reservations.rows, m.dispatchId = id →
    m.state ≠ .unknown ∧ m.state ≠ .consumed
  intents : ∀ i ∈ db.intents.rows, i.record.role = .entry →
    (∃ m ∈ db.reservations.rows, m.clientOrderId = i.clientOid ∧ m.dispatchId = id) →
      i.record.filledQty = 0 ∧ (i.record.state = .rejected ∨ i.record.state = .cancelled ∨
        i.record.state = .reconciled)

/-- What a retirement writes : the dispatch, and the reservations it still holds. -/
structure Retires (now : Instant) (db db' : Db) (id : Uuid) : Prop where
  dispatch : ∀ id', db'.dispatch id' = (db.dispatch id').map fun d =>
    if d.id = id then d.expired else d
  reservation : ∀ rid, db'.reservation rid = (db.reservation rid).map fun m =>
    if m.dispatchId = id ∧ m.state = .reserved then m.releasedFor now "stale-source-message"
    else m
  intents : db'.intents = db.intents

theorem settled_of_unsettledEntry (h : db.unsettledEntry id = false) {i : LiveIntentRow}
    (hi : i ∈ db.intents.rows) (hrole : i.record.role = .entry)
    (hbound : ∃ m ∈ db.reservations.rows, m.clientOrderId = i.clientOid ∧ m.dispatchId = id) :
    i.record.filledQty = 0 ∧ (i.record.state = .rejected ∨ i.record.state = .cancelled ∨
      i.record.state = .reconciled) := by
  have hany : (db.reservations.rows.any fun m =>
      m.clientOrderId = i.clientOid && m.dispatchId = id) = true := by
    obtain ⟨m, hm, hoid, hid⟩ := hbound
    exact List.any_eq_true.mpr ⟨m, hm, by simp [hoid, hid]⟩
  have hrow := List.any_eq_false.mp h i hi
  simp only [hrole, hany, decide_true, Bool.true_and, Bool.and_true, Bool.or_eq_true,
    decide_eq_true_eq, not_or, not_lt, Bool.not_eq_true, Bool.not_eq_false'] at hrow
  exact ⟨le_antisymm hrow.1 i.filled_nonneg, by simpa [or_assoc] using hrow.2⟩

/-- A retirement writes nothing, or it was allowed and retires its dispatch. -/
theorem expireSourceDispatch_cases (h : db.expireSourceDispatch now id state = .ok db') :
    db' = db ∨ Expirable db id state ∧ Retires now db db' id := by
  unfold Db.expireSourceDispatch at h
  split at h
  · exact Or.inl (Except.ok.inj h).symm
  next hstate =>
    split at h
    · exact Or.inl (Except.ok.inj h).symm
    next hunknown =>
      split at h
      · exact Or.inl (Except.ok.inj h).symm
      next hunsettled =>
        split at h
        · cases h
        next dispatches hu =>
          have hkept := Db.rewriteReservations_eq h
          refine Or.inr ⟨⟨by tauto, fun m hm hid => ?_, fun i hi hrole hbound => ?_⟩,
            ⟨fun id' => ?_, fun rid => ?_, by rw [hkept]; rfl⟩⟩
          · have hm' := List.any_eq_false.mp (Bool.not_eq_true _ ▸ hunknown) m hm
            simp only [hid, decide_true, Bool.true_and, Bool.or_eq_true, decide_eq_true_eq,
              not_or] at hm'
            exact hm'
          · exact settled_of_unsettledEntry (by simpa using hunsettled) hi hrole hbound
          · have hd : db'.dispatches = dispatches := by
              rw [hkept]
              rfl
            rw [← hd] at hu
            rw [Db.dispatch_of_updateWhere hu (fun _ => rfl)]
            simp only [decide_eq_true_eq]
          · have hrow := Db.reservation_of_rewrite h (fun _ => rfl) rid
            simp only [Bool.and_eq_true, decide_eq_true_eq] at hrow
            exact hrow

end Retirement

/-! ## Past the entry -/

section Over

variable {db db' : Db} {id : Uuid}

/-- The dispatch is past every state of the way to a submission. -/
def Over (db : Db) (id : Uuid) : Prop :=
  ∃ d, db.dispatch id = some d ∧ d.state.entry = false

theorem entry_of_rank {s : DispatchState} (h : 5 ≤ s.rank) : s.entry = false := by
  cases s <;> simp_all [DispatchState.rank, DispatchState.entry]

theorem Over.of_climbs (h : Over db id) (hc : db.Climbs db') : Over db' id := by
  obtain ⟨d, hd, hover⟩ := h
  obtain ⟨d', hd', hle⟩ := hc id d hd
  exact ⟨d', hd', entry_of_rank (DispatchState.rank_of_over hover ▸ hle)⟩

theorem Over.of_eq (h : Over db id) (heq : db'.dispatches = db.dispatches) : Over db' id :=
  h.of_climbs (Db.Climbs.of_eq heq)

/-- A transition that leaves no final state leaves a dispatch over that is over. -/
theorem Over.transition (h : Over db id) {id' : Uuid} {expected target : DispatchState}
    {reason : Option String} (ht : db.transition id' expected target reason = .ok db')
    (hon : expected.entry = false → target.entry = false) : Over db' id := by
  obtain ⟨d, hd, hover⟩ := h
  obtain ⟨d', hd', hstate, hu⟩ := Db.transition_ok ht
  refine ⟨_, by rw [Db.dispatch_of_updateWhere hu (fun _ => rfl), hd]; rfl, ?_⟩
  dsimp only
  split
  next hid =>
    obtain rfl : id = id' := (Table.key_of_find hd).symm.trans (by simpa using hid)
    obtain rfl := Option.some.inj (hd.symm.trans hd')
    exact hon (hstate ▸ hover)
  · exact hover

end Over

theorem over_of_retires {db db' : Db} {id : Uuid} {now : Instant} {d : BitgetDispatch}
    (h : Retires now db db' id) (hd : db.dispatch id = some d) : Over db' id := by
  refine ⟨d.expired, ?_, rfl⟩
  rw [h.dispatch, hd, Option.map_some, if_pos (Table.key_of_find hd)]

/-! ## The workers -/

section Workers

variable {x : BitgetDispatcher} {s t : DispatchWorld} {db db' : Db} {id : Uuid}

/-- A claim gives a queued row. -/
theorem claim_of_queued {now : Instant} {stale : List Uuid} {first : Option Uuid}
    {workerId : String} {leaseSeconds : ℕ} {d : BitgetDispatch}
    (h : db.claimDispatch now stale first workerId leaseSeconds = .ok (db', some d)) :
    ∃ db₁ d₁, db.Climbs db₁ ∧ db₁.dispatch d.id = some d₁ ∧ d₁.state = .queued := by
  unfold Db.claimDispatch at h
  split at h
  · cases h
  next db₁ h₁ =>
    split at h
    · cases Except.ok.inj h
    next first id =>
      unfold Db.leaseDispatch at h
      split at h
      · cases Except.ok.inj h
      next d₁ hd₁ =>
        split at h
        next hqueued =>
          dsimp only at h
          split at h
          · cases h
          · obtain ⟨-, hd⟩ := Prod.mk.inj (Except.ok.inj h)
            obtain rfl := Option.some.inj hd
            have hid : d₁.id = id := Table.key_of_find hd₁
            refine ⟨db₁, d₁, Db.climbs_retireStale h₁, ?_, hqueued.1⟩
            change db₁.dispatch d₁.id = some d₁
            rw [hid]
            exact hd₁
        · cases Except.ok.inj h

/-- What is answered is what the transaction gave. -/
theorem answer_of_commit {α : Type} {c : DispatchChoice} {t : Except DbError (Db × α)} {a : α}
    (h : c.commit db t = (.ok a, db')) : t = .ok (db', a) := by
  unfold DispatchChoice.commit at h
  split at h
  · cases h
  next db₁ v =>
    split at h
    · cases h
      rfl
    · cases h
    · cases h

/-- A worker is given the dispatch, or moves it. -/
def takes (id : Uuid) : DispatchEvent → Bool
  | ⟨.claim _ _, .ok (some d)⟩ => d.id = id
  | ⟨.transition id' _ _ _, .ok ()⟩ => id' = id
  | _ => false

/-- Since `s` the dispatch was over, and no worker was given it or moved it. -/
structure Retired (s t : DispatchWorld) (id : Uuid) : Prop where
  past : Over t.world id
  untaken : ∃ tr, t.trace = s.trace ++ tr ∧ ∀ q ∈ tr, takes id q.2 = false

theorem takes_of_over (h : Over db id) {es : List DispatchEvent} {o : DispatchOp}
    {c : DispatchChoice} {a : Except DispatchError (DispatchAns o)} (hφ : DispatchProtocol es o)
    (hx : dispatchExec o db c = (a, db')) : takes id ⟨o, a⟩ = false := by
  obtain ⟨d, hd, hover⟩ := h
  by_contra htakes
  rw [Bool.not_eq_false] at htakes
  unfold takes at htakes
  split at htakes
  next workerId leaseSeconds d' heq =>
    cases heq
    obtain rfl : d'.id = id := by simpa using htakes
    obtain ⟨db₁, d₁, hclimbs, hd₁, hqueued⟩ := claim_of_queued (answer_of_commit hx)
    obtain ⟨d₂, hd₂, hle⟩ := hclimbs _ d hd
    obtain rfl := Option.some.inj (hd₁.symm.trans hd₂)
    rw [DispatchState.rank_of_over hover, hqueued] at hle
    simp [DispatchState.rank] at hle
  next id' expected target reason heq =>
    cases heq
    obtain rfl : id' = id := by simpa using htakes
    obtain ⟨⟨d', hd', rfl⟩, -⟩ := Db.dispatch_of_transition hx
    obtain rfl := Option.some.inj (hd.symm.trans hd')
    have hlt : d.state.rank < target.rank := hφ.2
    have hle := target.rank_le
    rw [DispatchState.rank_of_over hover] at hlt
    omega
  · cases htakes

theorem retired_run (hs : System.Sound AnyAnswer (fun _ => DispatchProtocol) s)
    (hover : Over s.world id) {ls : List DispatchLabel}
    (hrun : Run (dispatchSystem x).Step s ls t) : Retired s t id := by
  refine (System.inv (dispatch_answers x) (dispatchProtocol_follows x) (G := fun _ _ => True)
    (I := fun t => Retired s t id) (fun u i _ h _ => ⟨h.past, h.untaken⟩) ?_ ?_ hs
    ⟨hover, [], by simp, by simp⟩ (hrun.mono fun _ _ _ h => ⟨trivial, h⟩)).2
  · intro u n i o k c r w _ h _ hφ hx _
    obtain ⟨tr, htr, huntaken⟩ := h.untaken
    have hx' : dispatchExec o u.world c = (r, w) := Option.some.inj hx
    refine ⟨h.past.of_climbs (Db.climbs_exec hφ hx'), tr ++ [(n, ⟨o, r⟩)], ?_, ?_⟩
    · change u.trace ++ [(n, ⟨o, r⟩)] = _
      rw [htr, List.append_assoc]
    · intro q hq
      rcases List.mem_append.mp hq with hq | hq
      · exact huntaken q hq
      · obtain rfl := List.mem_singleton.mp hq
        exact takes_of_over h.past hφ hx'
  · intro u e w _ h he _
    refine ⟨h.past.of_climbs (Db.climbs_env (e := e) ?_), h.untaken⟩
    cases hw : e.apply u.world with
    | error err => simp [dispatchSystem, hw, Except.toOption] at he
    | ok db₁ =>
      simp only [dispatchSystem, hw, Except.toOption, Option.some.injEq] at he
      rw [he]

end Workers

/-! ## The entry path -/

section Entry

variable {y : BitgetDispatchExecution} {s t : EntryState} {db db' : Db} {id : Uuid}

theorem over_expire {now : Instant} {did : Uuid} {state : DispatchState} (h : Over db id)
    (hx : db.expireSourceDispatch now did state = .ok db') : Over db' id :=
  h.of_climbs (Db.climbs_expireSourceDispatch hx)

theorem over_reserve {clock : ReserveClock} {ids : ReserveIds} {eligible : Bool}
    {q : ReserveRequest} {a : BalanceAdmission} (h : Over db id)
    (hx : db.reserve clock ids eligible q = .ok (db', a)) : Over db' id := by
  rcases Db.reserve_ok hx with ⟨_, -, rfl | ⟨state, hx⟩⟩ | ⟨e, hc, -⟩
  · exact h
  · exact over_expire h hx
  · unfold Db.commitMargin at hc
    split at hc
    · cases hc
    next db₁ h₁ =>
      have hdb₁ : Over db₁ id := h.of_eq (by rw [Db.rewriteReservations_eq h₁])
      dsimp only at hc
      split at hc
      · obtain ⟨rfl, -⟩ := Prod.mk.inj (Except.ok.inj hc)
        exact hdb₁.of_eq rfl
      · split at hc
        · cases hc
        · obtain ⟨rfl, -⟩ := Prod.mk.inj (Except.ok.inj hc)
          exact hdb₁.of_eq rfl

theorem over_resolve {now : Instant} {rid : Uuid} {outcome : Outcome} (h : Over db id)
    (hx : db.resolve now rid outcome = .ok db') : Over db' id := by
  unfold Db.resolve at hx
  split at hx
  · rwa [← Except.ok.inj hx]
  split at hx
  · cases hx
  split at hx
  · rwa [← Except.ok.inj hx]
  split at hx
  · rwa [← Except.ok.inj hx]
  · exact h.of_eq (by rw [Db.setReservation_eq hx])

theorem over_eligible {now : Instant} {fresh lapsed : Bool} {did : Uuid} {a : Bool}
    (h : Over db id) (hx : db.entrySourceEligible now fresh lapsed did = .ok (db', a)) :
    Over db' id := by
  have hsame : ∀ {b : Bool}, (Except.ok (db, b) : Except DbError (Db × Bool)) = .ok (db', a) →
      Over db' id := fun heq => (Prod.mk.inj (Except.ok.inj heq)).1 ▸ h
  unfold Db.entrySourceEligible at hx
  split at hx
  · exact hsame hx
  split at hx
  · split at hx
    · exact hsame hx
    split at hx
    · obtain ⟨db₁, hx₁, hp⟩ := exists_of_map_ok hx
      obtain ⟨rfl, -⟩ := Prod.mk.inj hp
      exact over_expire h hx₁
    · exact hsame hx
  · exact hsame hx

theorem over_insertIntent {now : Instant} {r : LiveIntentRecord} {won : Bool} (h : Over db id)
    (hx : db.insertIntent now r = .ok (db', won)) : Over db' id := by
  rcases Db.insertIntent_ok hx with ⟨-, rfl, -⟩ | ⟨-, -, -, hdb, -⟩
  · exact h
  · exact h.of_eq (by rw [hdb])

theorem over_update {now : Instant} {r : LiveIntentRecord} (h : Over db id)
    (hx : db.update now r = .ok db') : Over db' id := by
  obtain ⟨_, -, -, hdb, -⟩ := Db.update_ok hx
  exact h.of_eq (by rw [hdb])

theorem over_rewrites {oid : String} {f : LiveIntentRecord → LiveIntentRecord} {won : Bool}
    {r : LiveIntentRecord} (h : Over db id) (hx : db.Rewrites db' oid f won r) : Over db' id :=
  h.of_eq (by rw [hx.2.2.1])

/-- The operations of the entry path never take a dispatch back. -/
theorem over_exec {i : EntryCall} {es : List EntryEvent} {o : EntryOp} {c : EntryChoice}
    {a : Except ExecutionError (EntryAns o)} (h : Over db id) (hφ : EntryProtocol y i es o)
    (hx : entryExec o db c = (a, db')) : Over db' id := by
  have hsame : db' = db → Over db' id := fun heq => heq ▸ h
  cases o with
  | claim record =>
    rcases Db.commit_cases hx with ⟨hdb, -⟩ | ⟨won, ht, -⟩
    · exact hsame hdb
    · exact over_insertIntent h ht
  | claimSplit m l =>
    rcases Db.commit_cases hx with ⟨hdb, -⟩ | ⟨won, ht, -⟩
    · exact hsame hdb
    rcases Db.claimSplit_cases ht with ⟨-, hdb⟩ | ⟨-, -, -, -, -, hdb, -⟩
    · exact hsame hdb
    · exact h.of_eq (by rw [hdb])
  | claimEntryPost oid =>
    rcases Db.commit_cases hx with ⟨hdb, -⟩ | ⟨won, ht, -⟩
    · exact hsame hdb
    rcases Db.claimEntryPost_ok ht with ⟨-, hdb⟩ | ⟨r, hr, -⟩
    · exact hsame hdb
    · exact over_rewrites h hr
  | claimCancel oid mid =>
    rcases Db.commit_cases hx with ⟨hdb, -⟩ | ⟨won, ht, -⟩
    · exact hsame hdb
    rcases Db.claimCancel_ok ht with ⟨-, hdb⟩ | ⟨r, hr, -⟩
    · exact hsame hdb
    · exact over_rewrites h hr
  | claimCancelPost oid =>
    rcases Db.commit_cases hx with ⟨hdb, -⟩ | ⟨won, ht, -⟩
    · exact hsame hdb
    rcases Db.claimCancelPost_ok ht with ⟨-, hdb⟩ | ⟨r, hr⟩
    · exact hsame hdb
    · exact over_rewrites h hr
  | update record =>
    rcases Db.commit_cases hx with ⟨hdb, -⟩ | ⟨_, ht, -⟩
    · exact hsame hdb
    · obtain ⟨db₁, hu, hp⟩ := exists_of_map_ok ht
      obtain ⟨rfl, -⟩ := Prod.mk.inj hp
      exact over_update h hu
  | settleAbsent oid =>
    rcases Db.commit_cases hx with ⟨hdb, -⟩ | ⟨won, ht, -⟩
    · exact hsame hdb
    rcases Db.settleAbsent_ok ht with ⟨-, hdb⟩ | ⟨r, hr, -⟩
    · exact hsame hdb
    · exact over_rewrites h hr
  | entrySourceEligible did =>
    rcases Db.commit_cases hx with ⟨hdb, -⟩ | ⟨won, ht, -⟩
    · exact hsame hdb
    · exact over_eligible h ht
  | transition did expected target =>
    rcases Db.commit_cases hx with ⟨hdb, -⟩ | ⟨_, ht, -⟩
    · exact hsame hdb
    · obtain ⟨db₁, hu, hp⟩ := exists_of_map_ok ht
      obtain ⟨rfl, -⟩ := Prod.mk.inj hp
      exact h.transition hu hφ.1
  | reserve q =>
    rcases Db.commit_cases hx with ⟨hdb, -⟩ | ⟨won, ht, -⟩
    · exact hsame hdb
    · exact over_reserve h ht
  | resolve rid outcome =>
    rcases Db.commit_cases hx with ⟨hdb, -⟩ | ⟨_, ht, -⟩
    · exact hsame hdb
    · obtain ⟨db₁, hu, hp⟩ := exists_of_map_ok ht
      obtain ⟨rfl, -⟩ := Prod.mk.inj hp
      exact over_resolve h hu
  | remainingOwnedQuantity oid =>
    simp only [entryExec] at hx
    split at hx <;> exact hsame (Prod.mk.inj hx).2.symm
  | _ => exact hsame (Prod.mk.inj hx).2.symm

/-- The other components take no dispatch back from a final state. -/
def Onward : EntryState → EntryLabel → Prop
  | _, .env (.transition _ expected target) => expected.entry = false → target.entry = false
  | _, _ => True

theorem over_env {u : EntryState} {e : EntryEnv} (h : Over u.world id) (hG : Onward u (.env e))
    (hx : e.apply u.world = .ok db') : Over db' id := by
  cases e with
  | escalateExpired now rid =>
    exact h.of_eq (by rw [Db.rewriteReservations_eq (hx : Db.rewriteReservations _ _ _ = .ok db')])
  | releaseVerifiedClose clock claim =>
    obtain ⟨⟨db₁, a⟩, hx₁, rfl⟩ := exists_of_map_ok hx
    unfold Db.releaseVerifiedClose at hx₁
    split at hx₁
    · rwa [← (Prod.mk.inj (Except.ok.inj hx₁)).1]
    · split at hx₁
      · rwa [← (Prod.mk.inj (Except.ok.inj hx₁)).1]
      · obtain ⟨db₂, hset, hp⟩ := exists_of_map_ok hx₁
        obtain ⟨rfl, -⟩ := Prod.mk.inj hp
        exact h.of_eq (by rw [Db.setReservation_eq hset])
  | applyBaseline now baselineId records =>
    exact h.of_eq (by rw [Db.rewriteReservations_eq (hx : Db.rewriteReservations _ _ _ = .ok db')])
  | expireSource now did =>
    replace hx : u.world.expireSource now did = .ok db' := hx
    unfold Db.expireSource at hx
    split at hx
    · rwa [← Except.ok.inj hx]
    · exact over_expire h hx
  | recordClose now record =>
    replace hx : u.world.recordClose now record = .ok db' := hx
    unfold Db.recordClose at hx
    split at hx
    · cases hx
    · obtain ⟨⟨db₁, won⟩, hx₁, rfl⟩ := exists_of_map_ok hx
      exact over_insertIntent h hx₁
  | updateClose now record =>
    replace hx : u.world.updateClose now record = .ok db' := hx
    unfold Db.updateClose at hx
    split at hx
    · cases hx
    split at hx
    · cases hx
    · exact over_update h hx
  | bindClose binding =>
    replace hx : u.world.bindClose binding = .ok db' := hx
    unfold Db.bindClose at hx
    split at hx
    · cases hx
    · exact h.of_eq (by rw [← Except.ok.inj hx])
  | enqueue d =>
    obtain ⟨d', hd', hover⟩ := h
    exact ⟨d', by rw [Db.dispatch_of_enqueue hx, hd']; rfl, hover⟩
  | transition did expected target => exact h.transition hx hG
  | manageLocally oid => exact h.of_eq (by rw [← Except.ok.inj hx])

/-- Since `s` the dispatch was over, and no source check of it passed. -/
structure Barred (s t : EntryState) (id : Uuid) : Prop where
  past : Over t.world id
  unchecked : ∃ tr, t.trace = s.trace ++ tr ∧
    ∀ q ∈ tr, q.2 ≠ ⟨.entrySourceEligible id, .ok true⟩

/-- The check of a dispatch that is over does not pass. -/
theorem unchecked_of_over (h : Over db id) {c : EntryChoice}
    (hx : entryExec (.entrySourceEligible id) db c = (.ok true, db')) : False := by
  obtain ⟨d, hd, hover⟩ := h
  rcases Db.commit_cases hx with ⟨-, hne⟩ | ⟨v, ht, hv⟩
  · exact hne true rfl
  · obtain rfl := hv true rfl
    have hout : ¬ ((d.state = .queued ∨ d.state = .submitting) ∧
        db.baselined (.dispatch id) = false) := by
      rintro ⟨h | h, -⟩ <;> simp [h, DispatchState.entry] at hover
    simp [Db.entrySourceEligible, hd, hout] at ht

theorem barred_run (hs : System.Sound EntryAnswer (EntryProtocol y) s) (hover : Over s.world id)
    {ls : List EntryLabel} (hrun : Run (EntryStep y Onward) s ls t) : Barred s t id := by
  refine (entry_inv (I := fun t => Barred s t id) (fun u i _ h _ => ⟨h.past, h.unchecked⟩)
    (fun u n i o k c a db' _ h _ hφ hx _ => ?_)
    (fun u e db' h he hG => ⟨over_env h.past hG he, h.unchecked⟩) hs
    ⟨hover, [], by simp, by simp⟩ hrun).2
  obtain ⟨tr, htr, hunchecked⟩ := h.unchecked
  refine ⟨over_exec h.past hφ hx, tr ++ [(n, ⟨o, a⟩)], ?_, ?_⟩
  · change u.trace ++ [(n, ⟨o, a⟩)] = _
    rw [htr, List.append_assoc]
  · intro q hq heq
    rcases List.mem_append.mp hq with hq | hq
    · exact hunchecked q hq heq
    · obtain rfl := List.mem_singleton.mp hq
      cases heq
      exact unchecked_of_over h.past hx

/-- An order of the dispatch that is sent once it is over was checked before. -/
theorem checked_of_sent {ls : List EntryLabel}
    (hrun : Run (entrySystem y).Step (State.init db) ls t)
    (hbarred : Barred s t id) {tr tr' : List (ℕ × EntryEvent)} {n : ℕ} {order : EntryOrder}
    {a : Except ExecutionError Submitted}
    (htr : t.trace = tr ++ (n, ⟨.placeEntryOrder order, a⟩) :: tr') :
    ∃ i d rid r, t.kind n = some i ∧ Admits y (own n tr) d rid i ∧
      MaySend y (own n tr) d r ∧ order = BitgetDispatchExecution.entryOrder r ∧
      (n, (⟨.entrySourceEligible d.id, .ok true⟩ : EntryEvent)) ∈ tr ∧
      (d.id = id → (n, (⟨.entrySourceEligible id, .ok true⟩ : EntryEvent)) ∈ s.trace) := by
  obtain ⟨i, hi, hφ⟩ := System.protocol_of_event (entry_answers y) (entryProtocol_follows y) hrun htr
  obtain ⟨d, rid, r, hadmits, horder, -, hmay, es₁, es₂, hes, -⟩ := Sends.entry hφ
  have hchecked : (n, (⟨.entrySourceEligible d.id, .ok true⟩ : EntryEvent)) ∈ tr := by
    refine mem_own.mp ?_
    rw [hes]
    exact List.mem_append_right _ (List.mem_cons_self ..)
  refine ⟨i, d, rid, r, hi, hadmits, hmay, horder, hchecked, ?_⟩
  rintro rfl
  obtain ⟨qs, hqs, hunchecked⟩ := hbarred.unchecked
  have hmem : (n, (⟨.entrySourceEligible d.id, .ok true⟩ : EntryEvent)) ∈ s.trace ++ qs := by
    rw [← hqs, htr]
    exact List.mem_append_left _ hchecked
  rcases List.mem_append.mp hmem with hmem | hmem
  · exact hmem
  · exact absurd rfl (hunchecked _ hmem)

end Entry

/-! ## Every interleaving -/

/-- A retirement writes nothing unless the state, the reservations and the intents allow it,
and then only to its own dispatch and the reservations that dispatch holds ; from then on, in
every run, no worker is given the dispatch or moves it, no source check of it passes, and an
entry order of it is sent only by a call that had passed its check before. -/
theorem stale_source_retired (x : BitgetDispatcher) (y : BitgetDispatchExecution) :
    (∀ now db db' id state, Db.expireSourceDispatch now db id state = .ok db' →
      db' = db ∨ Expirable db id state ∧ Retires now db db' id ∧
        ∀ d, db.dispatch id = some d → Over db' id) ∧
    (∀ db ls ls' s t id, Run (dispatchSystem x).Step (State.init db) ls s → Over s.world id →
      Run (dispatchSystem x).Step s ls' t → Retired s t id) ∧
    ∀ db ls ls' s t id, Run (entrySystem y).Step (State.init db) ls s → Over s.world id →
      Run (EntryStep y Onward) s ls' t → Barred s t id ∧
        ∀ tr tr' n order a, t.trace = tr ++ (n, ⟨.placeEntryOrder order, a⟩) :: tr' →
          ∃ i d rid r, t.kind n = some i ∧ Admits y (own n tr) d rid i ∧
            MaySend y (own n tr) d r ∧ order = BitgetDispatchExecution.entryOrder r ∧
            (n, (⟨.entrySourceEligible d.id, .ok true⟩ : EntryEvent)) ∈ tr ∧
            (d.id = id → (n, (⟨.entrySourceEligible id, .ok true⟩ : EntryEvent)) ∈ s.trace) := by
  refine ⟨fun now db db' id state h => ?_, fun db ls ls' s t id hs hover ht => ?_,
    fun db ls ls' s t id hs hover ht => ?_⟩
  · rcases expireSourceDispatch_cases h with heq | ⟨hallowed, hretires⟩
    · exact Or.inl heq
    · exact Or.inr ⟨hallowed, hretires, fun d hd => over_of_retires hretires hd⟩
  · have hsound := System.sound_run (dispatch_answers x) (dispatchProtocol_follows x)
      (System.sound_init db) hs
    exact retired_run hsound hover ht
  · have hsound := System.sound_run (entry_answers y) (entryProtocol_follows y)
      (System.sound_init db) hs
    have hbarred := barred_run hsound hover ht
    exact ⟨hbarred, fun tr tr' n order a htr =>
      checked_of_sent (hs.append (ht.mono fun _ _ _ h => h.2)) hbarred htr⟩

/-- The submission of the market entry up to its last check, and a recovery that finds no order
at the venue. -/
def recoveredUnsent : List EntryLabel :=
  ([.start (.submit marketDispatch marketSubmission)] : List EntryLabel) ++
    (List.replicate 10 (.act 0 .passing) : List EntryLabel) ++
    ([.act 0 .notDegraded] : List EntryLabel) ++
    (List.replicate 4 (.act 0 .passing) : List EntryLabel) ++
    ([.start .recover] : List EntryLabel) ++
    (List.replicate 6 (.act 1 .passing) : List EntryLabel)

/-- The dispatch in submission, whose intent was claimed, expires and its margin is released ;
then its order is sent. -/
theorem sent_after_expiry : ∃ u v t : EntryState,
    Run (entrySystem .plain).Step (State.init admittedDb) recoveredUnsent u ∧
      (entrySystem .plain).Step u (.env (.expireSource 2 1)) v ∧
      (entrySystem .plain).Step v (.act 0 .passing) t ∧
      (u.world.dispatch 1).map (·.state) = some .submitting ∧
      marketOid ∈ won (own 0 u.trace) ∧
      (v.world.dispatch 1).map (·.state) = some .expired ∧
      (u.world.reservation 11).map (·.state) = some .reserved ∧
      (v.world.reservation 11).map (·.state) = some .released ∧
      posts marketOid v.trace = [] ∧ posts marketOid t.trace ≠ [] := by
  have h : ((replay (entrySystem .plain).step (State.init admittedDb) recoveredUnsent).any fun u =>
      ((entrySystem .plain).step u (.env (.expireSource 2 1))).any fun v =>
        ((entrySystem .plain).step v (.act 0 .passing)).any fun t =>
          decide ((u.world.dispatch 1).map (·.state) = some .submitting) &&
          decide (marketOid ∈ won (own 0 u.trace)) &&
          decide ((v.world.dispatch 1).map (·.state) = some .expired) &&
          decide ((u.world.reservation 11).map (·.state) = some .reserved) &&
          decide ((v.world.reservation 11).map (·.state) = some .released) &&
          (posts marketOid v.trace).isEmpty && !(posts marketOid t.trace).isEmpty) = true := by
    decide +kernel
  obtain ⟨u, hu, h⟩ := (Option.any_eq_true _ _).mp h
  obtain ⟨v, hv, h⟩ := (Option.any_eq_true _ _).mp h
  obtain ⟨t, ht, h⟩ := (Option.any_eq_true _ _).mp h
  simp only [Bool.and_eq_true, decide_eq_true_eq, Bool.not_eq_true', List.isEmpty_iff,
    List.isEmpty_eq_false_iff, and_assoc] at h
  exact ⟨u, v, t, run_of_replay (fun _ _ _ h => h) hu, hv, ht, h⟩

end FattyTrader.SourceExpiry
