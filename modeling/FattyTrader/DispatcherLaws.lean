import FattyTrader.Dispatcher

/-!
# One worker submits a dispatch

The state of a dispatch is its own lock. `DispatchState.rank` orders the states of the way
to a submission, every transition of a worker climbs it, and nothing goes back to `QUEUED`.
A worker starts at `QUEUED` and continues only where its last transition was answered
(`DispatchProtocol`), so all transitions of a dispatch that are answered belong to one worker
(`Single.owner`), whatever the leases were.
-/

set_option linter.unusedSectionVars false

open Tables

namespace FattyTrader

open Runs Programs Prog

/-! ## The way to a submission -/

/-- How far a state is on the way to a submission. -/
def DispatchState.rank : DispatchState → ℕ
  | .queued => 0
  | .preflight => 1
  | .sized => 2
  | .validated => 3
  | .submitting => 4
  | _ => 5

theorem DispatchState.rank_le (s : DispatchState) : s.rank ≤ 5 := by
  cases s <;> simp [rank]

theorem DispatchState.rank_of_over {s : DispatchState} (h : s.entry = false) : s.rank = 5 := by
  cases s <;> simp_all [entry, rank]

/-! ## What a worker may do -/

section Protocol

variable (es : List DispatchEvent)

/-- The worker's last transition of the dispatch to this state was answered, or the state is
`QUEUED`, where it was claimed. -/
def Reached (id : Uuid) (state : DispatchState) : Prop :=
  state = .queued ∨ ∃ expected reason,
    (⟨.transition id expected state reason, .ok ()⟩ : DispatchEvent) ∈ es

/-- The submission of a dispatch. -/
def submits (id : Uuid) : DispatchOp → Bool
  | .submitEntry d _ _ => d.id = id
  | _ => false

/-- The transition to `SUBMITTING`. -/
def passes (id : Uuid) : DispatchEvent → Bool
  | ⟨.transition id' .validated .submitting _, .ok ()⟩ => id' = id
  | _ => false

/-- What a worker may do after its events `es`. -/
def DispatchProtocol : DispatchOp → Prop
  | .transition id expected target _ => Reached es id expected ∧ expected.rank < target.rank
  | .submitEntry d _ _ => (∃ e ∈ es, passes d.id e) ∧ Never (submits d.id) es
  | _ => True

end Protocol

/-- Every answer is possible. -/
def AnyAnswer : (o : DispatchOp) → Except DispatchError (DispatchAns o) → Prop := fun _ _ => True

section Follows

variable {x : BitgetDispatcher} {es es' : List DispatchEvent} {d : BitgetDispatch} {id : Uuid}
  {α β : Type}

abbrev WorkerObeys (p : DispatchProg α) (es : List DispatchEvent) : Prop :=
  Obeys AnyAnswer DispatchProtocol p es fun _ _ => True

theorem Reached.mono {state : DispatchState} (h : Reached es id state) (hs : es ⊆ es') :
    Reached es' id state := by
  rcases h with rfl | ⟨expected, reason, hmem⟩
  · exact Or.inl rfl
  · exact Or.inr ⟨expected, reason, hs hmem⟩

/-- One operation of a worker, and its sequel. -/
theorem workerObeys_issue {o : DispatchOp} {f : DispatchAns o → DispatchProg β}
    (hφ : DispatchProtocol es o) (hf : ∀ a, WorkerObeys (f a) (es ++ [⟨o, .ok a⟩])) :
    WorkerObeys (issue o >>= f) es :=
  obeys_perform_bind hφ (fun a _ => hf a) fun _ _ => trivial

/-- One operation whose exception is caught. -/
theorem workerObeys_attempt {o : DispatchOp}
    {f : Except DispatchError (DispatchAns o) → DispatchProg β} (hφ : DispatchProtocol es o)
    (hf : ∀ r, WorkerObeys (f r) (es ++ [⟨o, r⟩])) : WorkerObeys (attempt (issue o) >>= f) es :=
  obeys_bind.mpr (obeys_attempt.mpr (obeys_perform.mpr ⟨hφ, fun r _ => hf r⟩))

/-- A transition that climbs, and its sequel. -/
theorem workerObeys_transition {expected target : DispatchState} {reason : Option String}
    {f : Unit → DispatchProg β} (hreached : Reached es id expected)
    (hrank : expected.rank < target.rank)
    (hf : ∀ reason', WorkerObeys (f ()) (es ++ [⟨.transition id expected target reason', .ok ()⟩])) :
    WorkerObeys (x.transition id expected target reason >>= f) es :=
  workerObeys_issue ⟨hreached, hrank⟩ fun _ => hf _

theorem reached_snoc {expected target : DispatchState} {reason : Option String} :
    Reached (es ++ [⟨.transition id expected target reason, .ok ()⟩]) id target :=
  Or.inr ⟨expected, reason, by simp⟩

/-- Operations the protocol does not restrict. -/
theorem workerObeys_free {p : DispatchProg α} {P : DispatchOp → Prop} (hp : p.OpsIn P)
    (hφ : ∀ es o, P o → DispatchProtocol es o) : WorkerObeys p es :=
  obeys_free hp hφ fun _ _ _ => trivial

/-- A part and a sequel that obeys after any further events. -/
theorem workerObeys_bind {p : DispatchProg α} {P : DispatchOp → Prop} {f : α → DispatchProg β}
    (hp : p.OpsIn P) (hφ : ∀ es o, P o → DispatchProtocol es o)
    (hf : ∀ a es', Within P es es' → WorkerObeys (f a) es') : WorkerObeys (p >>= f) es := by
  refine obeys_bind.mpr (obeys_free hp hφ fun es' r hw => ?_)
  cases r with
  | ok a => exact hf a es' hw
  | error e => trivial

/-- The operations no protocol restricts, and no protocol looks at. -/
def SideOp : DispatchOp → Prop
  | .transition _ _ _ _ => False
  | .submitEntry _ _ _ => False
  | _ => True

theorem protocol_of_sideOp (es : List DispatchEvent) (o : DispatchOp) (h : SideOp o) :
    DispatchProtocol es o := by
  cases o <;> simp_all [SideOp, DispatchProtocol]

theorem submits_of_sideOp {o : DispatchOp} (h : SideOp o) : submits id o = false := by
  cases o <;> simp_all [SideOp, submits]

theorem workerObeys_reject {current : DispatchState} {reason : String}
    (hreached : Reached es d.id current) (hrank : current.rank < 5) :
    WorkerObeys (x.reject d current reason) es := by
  refine workerObeys_transition hreached hrank fun reason' => ?_
  split
  · trivial
  · exact workerObeys_free (P := SideOp) (opsIn_perform trivial) protocol_of_sideOp

theorem workerObeys_rejected {current : DispatchState} {reason outcome : String}
    (hreached : Reached es d.id current) (hrank : current.rank < 5) :
    WorkerObeys (x.rejected d current reason outcome) es := by
  refine obeys_bind.mpr ((workerObeys_reject hreached hrank).imp fun es' r _ => ?_)
  cases r <;> trivial

theorem opsIn_releaseAdmission (submission : Option BitgetEntrySubmission) :
    (x.releaseAdmission d submission).OpsIn SideOp := by
  unfold BitgetDispatcher.releaseAdmission
  split
  · trivial
  split
  · refine opsIn_bind (fun r => ?_) (opsIn_attempt (opsIn_perform trivial))
    split
    · trivial
    · exact opsIn_perform trivial
  · trivial

/-- A rejection after the margin was given back. -/
theorem workerObeys_released {submission : Option BitgetEntrySubmission} {current : DispatchState}
    {reason outcome : String} (hreached : Reached es d.id current) (hrank : current.rank < 5) :
    WorkerObeys (x.releaseAdmission d submission >>= fun _ =>
      x.rejected d current reason outcome) es :=
  workerObeys_bind (opsIn_releaseAdmission submission) protocol_of_sideOp fun _ _ hw =>
    workerObeys_rejected (hreached.mono hw.subset) hrank

theorem workerObeys_settle {status : String} (hreached : Reached es d.id .submitting) :
    WorkerObeys (x.settle d status) es := by
  have hunknown : DispatchState.submitting.rank < DispatchState.unknown.rank := by decide
  unfold BitgetDispatcher.settle
  split
  · trivial
  dsimp only
  split
  · exact workerObeys_transition hreached hunknown fun _ => trivial
  · refine workerObeys_transition hreached ?_ fun _ => trivial
    unfold BitgetDispatchExecution.submittedTarget
    repeat' split
    all_goals decide

theorem workerObeys_submit {submission : Option BitgetEntrySubmission} {route : Option EntryRoute}
    (hpassed : ∃ e ∈ es, passes d.id e) (hnever : Never (submits d.id) es)
    (hreached : Reached es d.id .submitting) : WorkerObeys (x.submit d submission route) es := by
  have hunknown : DispatchState.submitting.rank < DispatchState.unknown.rank := by decide
  refine workerObeys_attempt ⟨hpassed, hnever⟩ fun r => ?_
  have hkept := hreached.mono (List.subset_append_left es [⟨.submitEntry d submission route, r⟩])
  split
  · exact workerObeys_settle hkept
  · exact workerObeys_transition hkept hunknown fun _ => trivial
  · refine workerObeys_transition hkept hunknown fun _ => ?_
    refine workerObeys_bind (P := SideOp) (opsIn_perform trivial) protocol_of_sideOp fun _ _ _ => ?_
    trivial

theorem workerObeys_admitCanary {submission : Option BitgetEntrySubmission}
    {route : Option EntryRoute} (hnever : Never (submits d.id) es)
    (hreached : Reached es d.id .validated) :
    WorkerObeys (x.admitCanary d submission route) es := by
  have hreserve : (x.canaryReserved d).OpsIn SideOp := by
    unfold BitgetDispatcher.canaryReserved
    split
    · exact opsIn_perform trivial
    · trivial
  refine workerObeys_bind hreserve protocol_of_sideOp fun reserved es' hw => ?_
  have hreached' := hreached.mono hw.subset
  have hnever' := never_of_within (fun _ h => submits_of_sideOp h) hnever hw
  cases reserved with
  | true =>
    refine workerObeys_transition hreached' (by decide) fun reason' => ?_
    refine workerObeys_submit ⟨_, List.mem_append_right _ (List.mem_singleton_self _), ?_⟩ ?_
      reached_snoc
    · simp [passes]
    · exact never_append.mpr ⟨hnever', by simp [submits]⟩
  | false => exact workerObeys_released hreached' (by decide)

theorem workerObeys_sized {submission : Option BitgetEntrySubmission} {route : Option EntryRoute}
    (hnever : Never (submits d.id) es) (hreached : Reached es d.id .preflight) :
    WorkerObeys (x.sized d submission route) es := by
  refine workerObeys_transition hreached (by decide) fun _ => ?_
  refine workerObeys_transition reached_snoc (by decide) fun _ => ?_
  split
  · split
    · exact workerObeys_released reached_snoc (by decide)
    · exact workerObeys_admitCanary (by simpa [submits] using hnever) reached_snoc
  · exact workerObeys_released reached_snoc (by decide)

theorem workerObeys_route {submission : Option BitgetEntrySubmission}
    (hnever : Never (submits d.id) es) (hreached : Reached es d.id .preflight) :
    WorkerObeys (x.route d submission) es := by
  unfold BitgetDispatcher.route
  split
  · refine workerObeys_attempt trivial fun r => ?_
    have hkept := hreached.mono (List.subset_append_left es [⟨.entryRouting d.pairToken, r⟩])
    split
    · exact workerObeys_sized (by simpa [submits] using hnever) hkept
    · exact workerObeys_released hkept (by decide)
  · exact workerObeys_sized hnever hreached

theorem workerObeys_preflight (hnever : Never (submits d.id) es) :
    WorkerObeys (x.preflight d) es := by
  unfold BitgetDispatcher.preflight
  split
  · refine workerObeys_transition (Or.inl rfl) (by decide) fun reason => ?_
    refine workerObeys_attempt trivial fun r => ?_
    have hreached : Reached (es ++ [⟨.transition d.id .queued .preflight reason, .ok ()⟩] ++
        [⟨.preflight d, r⟩]) d.id .preflight :=
      reached_snoc.mono (List.subset_append_left _ _)
    split
    · exact workerObeys_route (by simpa [submits] using hnever) hreached
    · trivial
    · exact workerObeys_rejected hreached (by decide)
  · exact workerObeys_rejected (Or.inl rfl) (by decide)

theorem workerObeys_unlatched (hnever : Never (submits d.id) es) :
    WorkerObeys (x.unlatched d) es := by
  have hqueued : ∀ es reason outcome, WorkerObeys (x.rejected d .queued reason outcome) es :=
    fun _ _ _ => workerObeys_rejected (Or.inl rfl) (by decide)
  have hswitched : ∀ scope, (x.switched scope).OpsIn SideOp := by
    intro scope
    unfold BitgetDispatcher.switched
    split
    · exact opsIn_perform trivial
    · trivial
  have hprotection : ∀ es, Never (submits d.id) es → WorkerObeys (x.protection d) es := by
    intro es hnever
    unfold BitgetDispatcher.protection
    split
    · refine workerObeys_attempt trivial fun r => ?_
      split
      · exact hqueued _ _ _
      · split
        · exact workerObeys_preflight (by simpa [submits] using hnever)
        · exact hqueued _ _ _
    · exact workerObeys_preflight hnever
  have hgate : ∀ es, Never (submits d.id) es → WorkerObeys (x.gate d) es := by
    intro es hnever
    unfold BitgetDispatcher.gate
    split
    · split
      · exact hqueued _ _ _
      · exact hprotection es hnever
    · exact hqueued _ _ _
  refine workerObeys_bind (hswitched _) protocol_of_sideOp fun latched es' hw => ?_
  have hnever' := never_of_within (fun _ h => submits_of_sideOp h) hnever hw
  split
  · exact hqueued _ _ _
  refine workerObeys_bind (hswitched _) protocol_of_sideOp fun latched' es'' hw' => ?_
  have hnever'' := never_of_within (fun _ h => submits_of_sideOp h) hnever' hw'
  split
  · exact hqueued _ _ _
  · exact hgate es'' hnever''

/-- Every worker follows the protocol. -/
theorem dispatchProtocol_follows (x : BitgetDispatcher) :
    (dispatchSystem x).Follows AnyAnswer fun _ => DispatchProtocol := by
  intro i
  have hrun : WorkerObeys (x.runOnce i.workerId i.leaseSeconds) [] := by
    refine workerObeys_issue trivial fun claimed => ?_
    split
    · trivial
    next d =>
      split
      · exact workerObeys_rejected (Or.inl rfl) (by decide)
      · exact workerObeys_unlatched (by simp [submits])
  refine obeys_bind.mpr (hrun.imp fun es r _ => ?_)
  cases r <;> trivial

theorem dispatch_answers (x : BitgetDispatcher) : (dispatchSystem x).Answers AnyAnswer :=
  fun _ _ _ _ _ _ => trivial

end Follows

/-! ## What a step does to the dispatches -/

namespace Db

variable {db db' db'' : Db} {id : Uuid}

/-- No dispatch disappears, and none goes back on the way to its submission. -/
def Climbs (db db' : Db) : Prop :=
  ∀ id d, db.dispatch id = some d → ∃ d', db'.dispatch id = some d' ∧ d.state.rank ≤ d'.state.rank

theorem Climbs.of_eq (h : db'.dispatches = db.dispatches) : db.Climbs db' := by
  intro id d hd
  exact ⟨d, by rw [dispatch, h]; exact hd, le_rfl⟩

theorem Climbs.trans (h : db.Climbs db') (h' : db'.Climbs db'') : db.Climbs db'' := by
  intro id d hd
  obtain ⟨d', hd', hle⟩ := h id d hd
  obtain ⟨d'', hd'', hle'⟩ := h' id d' hd'
  exact ⟨d'', hd'', hle.trans hle'⟩

theorem dispatch_of_updateWhere {p : BitgetDispatch → Bool} {f : BitgetDispatch → BitgetDispatch}
    (h : db.dispatches.updateWhere p f = some db'.dispatches) (hid : ∀ d, (f d).id = d.id)
    (id : Uuid) :
    db'.dispatch id = (db.dispatch id).map fun d => if p d then f d else d :=
  Table.find_updateWhere hid h

theorem Climbs.of_updateWhere {p : BitgetDispatch → Bool} {f : BitgetDispatch → BitgetDispatch}
    (h : db.dispatches.updateWhere p f = some db'.dispatches) (hid : ∀ d, (f d).id = d.id)
    (hrank : ∀ d ∈ db.dispatches, p d → d.state.rank ≤ (f d).state.rank) : db.Climbs db' := by
  intro id d hd
  refine ⟨if p d then f d else d, ?_, ?_⟩
  · rw [dispatch_of_updateWhere h hid, hd]
    rfl
  · split
    next hp => exact hrank d (Table.mem_of_find hd) hp
    · exact le_rfl

/-- What a transition does : a compare-and-set on the state of its dispatch. -/
theorem transition_ok {expected target : DispatchState} {reason : Option String}
    (h : db.transition id expected target reason = .ok db') :
    ∃ d, db.dispatch id = some d ∧ d.state = expected ∧
      db.dispatches.updateWhere (·.id = id) (BitgetDispatch.moved target reason) =
        some db'.dispatches := by
  unfold transition at h
  split at h
  · cases h
  next d hd =>
    split at h
    next hstate =>
      split at h
      · cases h
      next dispatches hu =>
        obtain rfl := Except.ok.inj h
        refine ⟨d, hd, hstate, ?_⟩
        rw [hu]
        split <;> rfl
    · cases h

theorem climbs_transition {expected target : DispatchState} {reason : Option String}
    (h : db.transition id expected target reason = .ok db')
    (hrank : expected.rank ≤ target.rank) : db.Climbs db' := by
  obtain ⟨d, hd, rfl, hu⟩ := transition_ok h
  refine Climbs.of_updateWhere hu (fun _ => rfl) fun d' hd' hp => ?_
  have hid : d'.id = id := by simpa using hp
  have : db.dispatch id = some d' := dispatch_eq_some.mpr ⟨hd', hid⟩
  obtain rfl := Option.some.inj (hd.symm.trans this)
  exact hrank

theorem climbs_expireSourceDispatch {now : Instant} {state : DispatchState}
    (h : db.expireSourceDispatch now id state = .ok db') : db.Climbs db' := by
  unfold expireSourceDispatch at h
  split at h
  · exact Climbs.of_eq (by rw [Except.ok.inj h])
  split at h
  · exact Climbs.of_eq (by rw [Except.ok.inj h])
  split at h
  · exact Climbs.of_eq (by rw [Except.ok.inj h])
  split at h
  · cases h
  next dispatches hu =>
    have hdispatches : db'.dispatches = dispatches := by
      rw [rewriteReservations_eq h]
      rfl
    rw [← hdispatches] at hu
    exact Climbs.of_updateWhere hu (fun _ => rfl) fun d _ _ => d.state.rank_le

theorem climbs_retireStale {now : Instant} : ∀ {ids : List Uuid} {db : Db},
    db.retireStale now ids = .ok db' → db.Climbs db'
  | [], db, h => Climbs.of_eq (by rw [Except.ok.inj h])
  | id :: ids, db, h => by
    unfold retireStale at h
    split at h
    · exact climbs_retireStale h
    split at h
    · split at h
      · cases h
      next db₁ h₁ => exact (climbs_expireSourceDispatch h₁).trans (climbs_retireStale h)
    · exact climbs_retireStale h

theorem climbs_claimDispatch {now : Instant} {stale : List Uuid} {first : Option Uuid}
    {workerId : String} {leaseSeconds : ℕ} {a : Option BitgetDispatch}
    (h : db.claimDispatch now stale first workerId leaseSeconds = .ok (db', a)) :
    db.Climbs db' := by
  unfold claimDispatch at h
  split at h
  · cases h
  next db₁ h₁ =>
    refine (climbs_retireStale h₁).trans ?_
    split at h
    · exact Climbs.of_eq (by rw [(Prod.mk.inj (Except.ok.inj h)).1])
    next first id =>
      unfold leaseDispatch at h
      split at h
      · exact Climbs.of_eq (by rw [(Prod.mk.inj (Except.ok.inj h)).1])
      next d hd =>
        split at h
        next hqueued =>
          dsimp only at h
          split at h
          · cases h
          next dispatches hu =>
            obtain ⟨rfl, -⟩ := Prod.mk.inj (Except.ok.inj h)
            intro id' d' hd'
            have hid : d.id = id := Table.key_of_find hd
            have hfind := Table.find_replace (r := d.leased workerId (now + leaseSeconds))
              (show (d.leased workerId (now + leaseSeconds)).id = id from hid) hu id'
            by_cases heq : id' = id
            · subst heq
              obtain rfl := Option.some.inj (hd.symm.trans hd')
              refine ⟨d.leased workerId (now + leaseSeconds), ?_, le_rfl⟩
              rw [dispatch, hfind, if_pos rfl, show db₁.dispatches.find (·.id) id' = some d from hd]
              rfl
            · exact ⟨d', by rw [dispatch, hfind, if_neg heq]; exact hd', le_rfl⟩
        · exact Climbs.of_eq (by rw [(Prod.mk.inj (Except.ok.inj h)).1])

theorem climbs_env {e : DispatchEnv} (h : e.apply db = .ok db') : db.Climbs db' := by
  cases e with
  | enqueue d =>
    replace h : db.enqueue d = .ok db' := h
    unfold enqueue at h
    split at h
    · cases h
    next dispatches hi =>
      obtain rfl := Except.ok.inj h
      intro id d' hd'
      refine ⟨d', ?_, le_rfl⟩
      rw [dispatch, Table.find_insert hi, show db.dispatches.find (·.id) id = some d' from hd']
      rfl
  | expireSource now id =>
    replace h : db.expireSource now id = .ok db' := h
    unfold expireSource at h
    split at h
    · exact Climbs.of_eq (by rw [Except.ok.inj h])
    · exact climbs_expireSourceDispatch h
  | settle id expected target reason hover =>
    refine climbs_transition h ?_
    rw [DispatchState.rank_of_over hover]
    exact expected.rank_le
  | notify dedupKey => exact Climbs.of_eq (by rw [← Except.ok.inj h]; rfl)
  | releaseCanaryEntry id => exact Climbs.of_eq (by rw [← Except.ok.inj h]; rfl)
  | others w => exact Climbs.of_eq (by rw [← Except.ok.inj h])

/-- A transaction of a worker either commits or changes nothing. -/
theorem dispatchCommit_cases {α : Type} {c : DispatchChoice} {t : Except DbError (Db × α)}
    {a : Except DispatchError α} (h : c.commit db t = (a, db')) :
    (db' = db ∧ ∀ v, a ≠ .ok v) ∨ ∃ v, t = .ok (db', v) := by
  unfold DispatchChoice.commit at h
  split at h
  · obtain ⟨rfl, rfl⟩ := Prod.mk.inj h
    exact Or.inl ⟨rfl, by simp⟩
  next db₁ v =>
    split at h
    · obtain ⟨rfl, rfl⟩ := Prod.mk.inj h
      exact Or.inr ⟨v, rfl⟩
    · obtain ⟨rfl, rfl⟩ := Prod.mk.inj h
      exact Or.inr ⟨v, rfl⟩
    · obtain ⟨rfl, rfl⟩ := Prod.mk.inj h
      exact Or.inl ⟨rfl, by simp⟩

theorem climbs_exec {es : List DispatchEvent} {o : DispatchOp} {c : DispatchChoice}
    {a : Except DispatchError (DispatchAns o)} (hφ : DispatchProtocol es o)
    (h : dispatchExec o db c = (a, db')) : db.Climbs db' := by
  have hsame : db' = db → db.Climbs db' := fun h => Climbs.of_eq (by rw [h])
  cases o with
  | claim workerId leaseSeconds =>
    rcases dispatchCommit_cases h with ⟨hdb, -⟩ | ⟨v, ht⟩
    · exact hsame hdb
    · exact climbs_claimDispatch ht
  | transition id expected target reason =>
    rcases dispatchCommit_cases h with ⟨hdb, -⟩ | ⟨v, ht⟩
    · exact hsame hdb
    · obtain ⟨db₁, hx, hp⟩ := exists_of_map_ok ht
      obtain ⟨rfl, -⟩ := Prod.mk.inj hp
      exact climbs_transition hx hφ.2.le
  | alert id reason =>
    replace h : c.commit db (.ok (db.notify _, ())) = (a, db') := h
    rcases dispatchCommit_cases h with ⟨hdb, -⟩ | ⟨v, ht⟩
    · exact hsame hdb
    · obtain ⟨rfl, -⟩ := Prod.mk.inj (Except.ok.inj ht)
      exact Climbs.of_eq rfl
  | reserveCanaryEntry id maxOrders =>
    replace h : c.commit db (.ok (db.reserveCanaryEntry c.snapshot id maxOrders)) = (a, db') := h
    rcases dispatchCommit_cases h with ⟨hdb, -⟩ | ⟨v, ht⟩
    · exact hsame hdb
    · have hdb : db' = (db.reserveCanaryEntry c.snapshot id maxOrders).1 := by
        rw [Except.ok.inj ht]
      refine Climbs.of_eq ?_
      rw [hdb, reserveCanaryEntry]
      split <;> rfl
  | _ => exact hsame (Prod.mk.inj h).2.symm

/-- A transition that is answered found the state it expected, and leaves its target. -/
theorem dispatch_of_transition {expected target : DispatchState} {reason : Option String}
    {c : DispatchChoice}
    (h : dispatchExec (.transition id expected target reason) db c = (.ok (), db')) :
    (∃ d, db.dispatch id = some d ∧ d.state = expected) ∧
      ∃ d, db'.dispatch id = some d ∧ d.state = target := by
  rcases dispatchCommit_cases h with ⟨-, hne⟩ | ⟨v, ht⟩
  · exact absurd rfl (hne ())
  · obtain ⟨db₁, hx, hp⟩ := exists_of_map_ok ht
    obtain ⟨rfl, -⟩ := Prod.mk.inj hp
    obtain ⟨d, hd, hstate, hu⟩ := transition_ok hx
    have hid : d.id = id := Table.key_of_find hd
    refine ⟨⟨d, hd, hstate⟩, d.moved target reason, ?_, rfl⟩
    rw [dispatch_of_updateWhere hu (fun _ => rfl), hd]
    simp [hid]

/-- A transition that does not find the state it expects changes nothing. -/
theorem transition_refused {expected target : DispatchState} {reason : Option String}
    {c : DispatchChoice} {d : BitgetDispatch} (hd : db.dispatch id = some d)
    (hne : d.state ≠ expected) :
    dispatchExec (.transition id expected target reason) db c =
      (.error (.storage .conflictOrMissing), db) := by
  simp [dispatchExec, DispatchChoice.commit, transition, hd, hne, Except.map]

end Db

/-! ## One worker for each dispatch -/

section SingleWorker

variable {x : BitgetDispatcher} {s t : DispatchWorld} {id : Uuid} {m n : ℕ}

/-- The worker had a transition of the dispatch answered. -/
def Moves (s : DispatchWorld) (n : ℕ) (id : Uuid) : Prop :=
  ∃ expected target reason,
    (n, (⟨.transition id expected target reason, .ok ()⟩ : DispatchEvent)) ∈ s.trace

/-- What the answered transitions of a dispatch tell about its state and about each other. -/
structure Single (s : DispatchWorld) : Prop where
  reached : ∀ n id expected target reason,
    (n, (⟨.transition id expected target reason, .ok ()⟩ : DispatchEvent)) ∈ s.trace →
      0 < target.rank ∧ ∃ d, s.world.dispatch id = some d ∧ target.rank ≤ d.state.rank
  owner : ∀ m n id, Moves s m id → Moves s n id → m = n
  passed : ∀ id, (s.trace.filter fun q => passes id q.2).length ≤ 1
  owned : ∀ n id, ¬ Never (submits id) (own n s.trace) → ∃ e ∈ own n s.trace, passes id e
  submitted : ∀ id, (s.trace.filter fun q => submits id q.2.op).length ≤ 1

theorem passes_iff {e : DispatchEvent} : passes id e = true ↔
    ∃ reason, e = ⟨.transition id .validated .submitting reason, .ok ()⟩ := by
  unfold passes
  split
  next id' reason =>
    simp only [decide_eq_true_eq]
    constructor
    · rintro rfl
      exact ⟨reason, rfl⟩
    · rintro ⟨reason', h⟩
      cases h
      rfl
  next h =>
    constructor
    · intro h'
      cases h'
    · rintro ⟨reason, rfl⟩
      exact absurd rfl (h id reason)

theorem submits_iff {o : DispatchOp} : submits id o = true ↔
    ∃ d submission route, o = .submitEntry d submission route ∧ d.id = id := by
  unfold submits
  split
  next d submission route =>
    simp only [decide_eq_true_eq]
    constructor
    · intro h
      exact ⟨d, submission, route, rfl, h⟩
    · rintro ⟨d', submission', route', h, hid⟩
      cases h
      exact hid
  next h =>
    constructor
    · intro h'
      cases h'
    · rintro ⟨d, submission, route, rfl, -⟩
      exact absurd rfl (h d submission route)

theorem moves_of_passes (h : ∃ e ∈ own n s.trace, passes id e) : Moves s n id := by
  obtain ⟨e, he, hp⟩ := h
  obtain ⟨reason, rfl⟩ := passes_iff.mp hp
  exact ⟨_, _, _, mem_own.mp he⟩

/-- A dispatch some worker moved is not at the state another worker expects. -/
theorem Single.refuses (h : Single s) {expected target : DispatchState}
    {reason : Option String} (hφ : DispatchProtocol (own m s.trace)
      (.transition id expected target reason)) (hn : Moves s n id) (hne : m ≠ n) :
    ∃ d, s.world.dispatch id = some d ∧ d.state ≠ expected := by
  obtain ⟨hreached, -⟩ := hφ
  rcases hreached with rfl | ⟨expected', reason', hmem⟩
  · obtain ⟨e, t, r, hmem⟩ := hn
    obtain ⟨hpos, d, hd, hle⟩ := h.reached n id e t r hmem
    refine ⟨d, hd, fun hstate => ?_⟩
    rw [hstate] at hle
    have hle' : t.rank ≤ 0 := hle
    omega
  · exact absurd (h.owner m n id ⟨_, _, _, mem_own.mp hmem⟩ hn) hne

/-- What is counted at most once stays so when nothing counted before excludes the new one. -/
theorem length_filter_snoc_le {α : Type} {p : α → Bool} {as : List α} {a : α}
    (h : (as.filter p).length ≤ 1) (hnew : p a → ∀ b ∈ as, p b = false) :
    ((as ++ [a]).filter p).length ≤ 1 := by
  rw [List.filter_append, List.length_append]
  by_cases hp : p a
  · have hnil : as.filter p = [] := List.filter_eq_nil_iff.mpr fun b hb => by simp [hnew hp b hb]
    simp [hnil, hp]
  · simpa [hp] using h

theorem moves_acted {i : DispatchCall} {o : DispatchOp} {a : Except DispatchError (DispatchAns o)}
    {p : DispatchProg Unit} {db' : Db} (h : Moves (s.acted m i ⟨o, a⟩ p db') n id) :
    Moves s n id ∨ (n = m ∧ ∃ expected target reason,
      (⟨o, a⟩ : DispatchEvent) = ⟨.transition id expected target reason, .ok ()⟩) := by
  obtain ⟨expected, target, reason, hmem⟩ := h
  rcases List.mem_append.mp hmem with hold | hnew
  · exact Or.inl ⟨expected, target, reason, hold⟩
  · obtain ⟨rfl, he⟩ := Prod.mk.inj (List.mem_singleton.mp hnew)
    exact Or.inr ⟨rfl, expected, target, reason, he.symm⟩

theorem single_acted (h : Single s) {i : DispatchCall} {o : DispatchOp} {c : DispatchChoice}
    {a : Except DispatchError (DispatchAns o)} {db' : Db}
    {k : Except DispatchError (DispatchAns o) → DispatchProg Unit}
    (hφ : DispatchProtocol (own n s.trace) o) (hx : dispatchExec o s.world c = (a, db')) :
    Single (s.acted n i ⟨o, a⟩ (k a) db') := by
  have hclimbs := Db.climbs_exec hφ hx
  -- a transition that is answered, by a worker that is not the owner, is impossible
  have hown : ∀ id expected target reason,
      (⟨o, a⟩ : DispatchEvent) = ⟨.transition id expected target reason, .ok ()⟩ →
      ∀ m, Moves s m id → n = m := by
    intro id expected target reason he m hm
    cases he
    by_contra hne
    obtain ⟨d, hd, hstate⟩ := h.refuses hφ hm hne
    obtain ⟨⟨d', hd', hstate'⟩, -⟩ := Db.dispatch_of_transition hx
    obtain rfl := Option.some.inj (hd.symm.trans hd')
    exact hstate hstate'
  have hpass : ∀ id, passes id ⟨o, a⟩ → ∀ q ∈ s.trace, passes id q.2 = false := by
    intro id hp q hq
    by_contra hq'
    obtain ⟨reason, he⟩ := passes_iff.mp hp
    obtain ⟨reason', hqe⟩ := passes_iff.mp (by simpa using hq')
    cases he
    obtain ⟨⟨d, hd, hstate⟩, -⟩ := Db.dispatch_of_transition hx
    have hmem : (q.1, (⟨.transition id .validated .submitting reason', .ok ()⟩ : DispatchEvent)) ∈
        s.trace := by
      rw [← hqe]
      exact hq
    obtain ⟨-, d', hd', hle⟩ := h.reached _ _ _ _ _ hmem
    obtain rfl := Option.some.inj (hd.symm.trans hd')
    rw [hstate] at hle
    exact absurd hle (by decide)
  have hsubmit : ∀ id, submits id o → (∃ e ∈ own n s.trace, passes id e) ∧
      Never (submits id) (own n s.trace) := by
    intro id hs
    obtain ⟨d, submission, route, rfl, rfl⟩ := submits_iff.mp hs
    exact hφ
  refine ⟨fun m id expected target reason hmem => ?_, fun m₁ m₂ id h₁ h₂ => ?_,
    fun id => length_filter_snoc_le (h.passed id) (hpass id), fun m id hsent => ?_,
    fun id => length_filter_snoc_le (h.submitted id) fun hs q hq => ?_⟩
  · rcases List.mem_append.mp hmem with hold | hnew
    · obtain ⟨hpos, d, hd, hle⟩ := h.reached m id expected target reason hold
      obtain ⟨d', hd', hle'⟩ := hclimbs id d hd
      exact ⟨hpos, d', hd', hle.trans hle'⟩
    · obtain ⟨rfl, he⟩ := Prod.mk.inj (List.mem_singleton.mp hnew)
      cases he
      obtain ⟨-, d, hd, hstate⟩ := Db.dispatch_of_transition hx
      exact ⟨Nat.lt_of_le_of_lt (Nat.zero_le _) hφ.2, d, hd, by rw [hstate]⟩
  · rcases moves_acted h₁ with hold₁ | ⟨hm₁, e₁, t₁, r₁, he₁⟩
    · rcases moves_acted h₂ with hold₂ | ⟨hm₂, e₂, t₂, r₂, he₂⟩
      · exact h.owner m₁ m₂ id hold₁ hold₂
      · exact (hm₂.trans (hown id e₂ t₂ r₂ he₂ m₁ hold₁)).symm
    · rcases moves_acted h₂ with hold₂ | ⟨hm₂, -⟩
      · exact hm₁.trans (hown id e₁ t₁ r₁ he₁ m₂ hold₂)
      · exact hm₁.trans hm₂.symm
  · have hsub : own m s.trace ⊆ own m (s.acted n i ⟨o, a⟩ (k a) db').trace := by
      rw [State.acted, own_append]
      exact List.subset_append_left _ _
    by_cases hold : Never (submits id) (own m s.trace)
    · by_cases hmn : m = n
      · subst hmn
        have hs : submits id o := by
          by_contra hs
          refine hsent ?_
          simp only [State.acted, own_snoc_self]
          exact never_append.mpr ⟨hold, by simpa using hs⟩
        obtain ⟨e, he, hp⟩ := (hsubmit id hs).1
        exact ⟨e, hsub he, hp⟩
      · refine absurd ?_ hsent
        simp only [State.acted, own_snoc_ne (Ne.symm hmn)]
        exact hold
    · obtain ⟨e, he, hp⟩ := h.owned m id hold
      exact ⟨e, hsub he, hp⟩
  · by_contra hq'
    obtain ⟨hpassed, hnever⟩ := hsubmit id hs
    have hother : ∃ e ∈ own q.1 s.trace, passes id e := by
      refine h.owned q.1 id fun hn => hq' ?_
      exact hn q.2 (mem_own.mpr hq)
    have heq : q.1 = n := h.owner _ _ id (moves_of_passes hother) (moves_of_passes hpassed)
    exact hq' (hnever q.2 (by rw [← heq]; exact mem_own.mpr hq))

theorem single_run {db : Db} {ls : List DispatchLabel}
    (hrun : Run (dispatchSystem x).Step (State.init db) ls s) :
    System.Sound AnyAnswer (fun _ : DispatchCall => DispatchProtocol) s ∧ Single s := by
  refine System.inv (dispatch_answers x) (dispatchProtocol_follows x) (G := fun _ _ => True)
    (fun s i _ h _ => ⟨h.reached, h.owner, h.passed, h.owned, h.submitted⟩)
    (fun s n i o k c a w _ h _ hφ hx _ => single_acted h hφ (Option.some.inj hx))
    (fun s e w _ h hw _ => ?_) (System.sound_init db) ?_ (hrun.mono fun _ _ _ h => ⟨trivial, h⟩)
  · have happly : e.apply s.world = .ok w := by
      cases he : e.apply s.world with
      | error err => simp [dispatchSystem, he, Except.toOption] at hw
      | ok db₁ =>
        simp only [dispatchSystem, he, Except.toOption, Option.some.injEq] at hw
        rw [hw]
    refine ⟨fun m id expected target reason hmem => ?_, h.owner, h.passed, h.owned, h.submitted⟩
    obtain ⟨hpos, d, hd, hle⟩ := h.reached m id expected target reason hmem
    obtain ⟨d', hd', hle'⟩ := Db.climbs_env happly id d hd
    exact ⟨hpos, d', hd', hle.trans hle'⟩
  · refine ⟨fun _ _ _ _ _ hmem => ?_, fun _ _ _ hm => ?_, fun _ => ?_, fun _ _ hs => ?_, fun _ => ?_⟩
    · simp [State.init] at hmem
    · simp [Moves, State.init] at hm
    · simp [State.init]
    · simp [State.init] at hs
    · simp [State.init]

/-- In every run of any number of workers, whatever their leases : at most one passes the
transition of a dispatch from `VALIDATED` to `SUBMITTING`, once, and `submit_entry` is called
for it at most once, by that worker. Once a worker had any transition of the dispatch
answered, every transition of another worker fails and changes nothing, neither the row nor
the audit nor the outbox. -/
theorem one_worker_submits {db : Db} {ls : List DispatchLabel}
    (hrun : Run (dispatchSystem x).Step (State.init db) ls s) :
    (∀ id, (s.trace.filter fun q => passes id q.2).length ≤ 1) ∧
      (∀ id, (s.trace.filter fun q => submits id q.2.op).length ≤ 1) ∧
      (∀ n d submission route a, (n, ⟨.submitEntry d submission route, a⟩) ∈ s.trace →
        ∃ reason, (n, ⟨.transition d.id .validated .submitting reason, .ok ()⟩) ∈ s.trace) ∧
      ∀ m n i id expected target reason c t, Moves s n id → m ≠ n →
        s.next m = some (i, .transition id expected target reason) →
        (dispatchSystem x).Step s (.act m c) t →
          t.world = s.world ∧ t.trace = s.trace ++
            [(m, ⟨.transition id expected target reason, .error (.storage .conflictOrMissing)⟩)] := by
  obtain ⟨hsound, hsingle⟩ := single_run hrun
  refine ⟨hsingle.passed, hsingle.submitted, ?_, ?_⟩
  · intro n d submission route a hmem
    have hsent : ¬ Never (submits d.id) (own n s.trace) := by
      intro hnever
      have := hnever _ (mem_own.mpr hmem)
      simp [submits] at this
    obtain ⟨e, he, hp⟩ := hsingle.owned n d.id hsent
    obtain ⟨reason, rfl⟩ := passes_iff.mp hp
    exact ⟨reason, mem_own.mp he⟩
  · intro m n i id expected target reason c t hmoves hne hnext hstep
    obtain ⟨k, hk⟩ := State.next_eq_some.mp hnext
    have hφ := System.protocol_of_sound hsound hk
    obtain ⟨d, hd, hstate⟩ := hsingle.refuses hφ hmoves hne
    obtain ⟨j, o, k', r, w, hk', hx, rfl⟩ := System.step_act hstep
    obtain ⟨rfl, hop⟩ := Prod.mk.inj (Option.some.inj (hk.symm.trans hk'))
    cases hop
    obtain ⟨rfl, rfl⟩ := Prod.mk.inj ((Db.transition_refused hd hstate).symm.trans (Option.some.inj hx))
    exact ⟨rfl, rfl⟩

end SingleWorker

/-! ### Two workers that claimed one dispatch -/

/-- A dispatcher without kill switch, canary cap, protection admission and routing. -/
def BitgetDispatcher.plain : BitgetDispatcher where
  bitgetSymbol := some
  canonicalSignal _ := true
  isalnum := Char.isAlphanum
  killSwitch := false
  executionEnabled := true
  canaryMaxOrders := 0
  canarySymbol := none
  protectionAdmission := false
  entryRouting := false
  execution := true
  routedExecution := false
  releasable := false

def queuedDispatch : Db where
  dispatches :=
    ⟨[⟨1, .queued, "BTCUSDT", .long, 100, none, none, .market, none, none, 0, none⟩], by decide⟩

/-- Every operation is answered ; the claim at the time `now` selects the dispatch 1. -/
def DispatchChoice.answered (now : Instant) : DispatchChoice where
  delivery := .answered
  now := now
  stale := []
  first := some 1
  snapshot := {}
  flag := .ok false
  admission := .ok (true, "")
  submission := .ok none
  route := .error .timeout
  done := .ok ()
  status := .ok "ACKNOWLEDGED"

/-- The second worker claims after the lease of the first one, which goes on all the same ; the
transition of the second one comes last. -/
def leaseRunsOut : List DispatchLabel :=
  ([.start ⟨"first", 30⟩, .start ⟨"second", 30⟩, .act 0 (.answered 0),
      .act 1 (.answered 60)] : List DispatchLabel) ++
    (List.replicate 5 (.act 0 (.answered 61)) : List DispatchLabel) ++
    ([.act 1 (.answered 62)] : List DispatchLabel)

theorem first_worker_submits_alone : ∃ s : DispatchWorld,
    (∃ q ∈ s.trace, passes 1 q.2) ∧ (s.trace.filter fun q => passes 1 q.2).length ≤ 1 := by
  have h : (replay (dispatchSystem .plain).step (State.init queuedDispatch) leaseRunsOut).any
      (fun s => s.trace.any fun q => passes 1 q.2) = true := by decide +kernel
  obtain ⟨s, hs, hpassed⟩ := (Option.any_eq_true _ _).mp h
  have hrun : Run (dispatchSystem .plain).Step (State.init queuedDispatch) leaseRunsOut s :=
    run_of_replay (fun _ _ _ h => h) hs
  exact ⟨s, by simpa using hpassed, (one_worker_submits hrun).1 1⟩

end FattyTrader
