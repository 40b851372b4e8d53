import FattyTrader.DispatcherLaws
import Mathlib.Data.List.Dedup

/-!
# The canary cap

`reserve_canary_entry` counts and inserts in one statement that takes an advisory lock. Under
`READ COMMITTED` the snapshot of a statement is older than the lock it waits for : a world keeps
the statements that have begun, each with its snapshot (`CanaryWorld.started`), and `finish` is
the moment one of them is granted the lock. Between the two any other statement may commit.

The count leaves out the canary reservations of four states (`DispatchState.canaryOver`), and a
transition deletes its canary reservation for the same four (`DispatchState.releasesCanary`).
`CLOSED` is in neither list, although it is one of the terminal states of a dispatch
(`DispatchState.terminal`). `canaryCap_states` gives the condition on the steps of a run under
which the cap holds throughout.
-/

set_option linter.unusedSectionVars false

open Tables

namespace FattyTrader

open Runs

/-- `_TERMINAL_DISPATCH_STATES`. -/
def DispatchState.terminal : DispatchState → Bool
  | .filled | .rejected | .expired | .cancelled | .reconciled | .failed | .closed => true
  | _ => false

theorem DispatchState.terminal_of_canaryOver {s : DispatchState} (h : s.canaryOver) :
    s.terminal := by
  cases s <;> simp_all [canaryOver, terminal]

namespace Db

/-- The keys of the open entry intents. -/
def entryKeys (db : Db) : List CanaryKey := db.openEntries.map db.canaryKey

/-- The state in which `expire_source_dispatch` retires a dispatch. -/
def retires (db : Db) (dispatchId : Uuid) (d : BitgetDispatch) : Bool :=
  (d.state = .queued || d.state = .preflight || d.state = .submitting) &&
    !(db.reservations.rows.any fun m => m.dispatchId = dispatchId &&
      (m.state = .unknown || m.state = .consumed)) &&
    !db.unsettledEntry dispatchId

/-- The rows of every table but those of the dispatches are written. An audited baseline is
never taken back. -/
def withEntries (db w : Db) : Db :=
  { w with
    dispatches := db.dispatches
    transitions := db.transitions
    outbox := db.outbox
    canaryEntries := db.canaryEntries
    baselineRecords := db.baselineRecords ++ w.baselineRecords }

end Db

/-! ## The system -/

/-- The database, and the statements of `reserve_canary_entry` that have begun. -/
structure CanaryWorld where
  db : Db
  started : List (Uuid × Db) := []

/-- A statement of a worker begins or is granted the lock, or another transaction commits. -/
inductive CanaryLabel
  | start (dispatchId : Uuid)
  | finish (n : ℕ)
  | transition (dispatchId : Uuid) (expected target : DispatchState) (reason : Option String)
  | expireSource (now : Instant) (dispatchId : Uuid)
  | releaseCanaryEntry (dispatchId : Uuid)
  | enqueue (d : BitgetDispatch)
  | entries (w : Db)

namespace CanaryWorld

variable {s t : CanaryWorld} {maxOrders : ℕ}

/-- A transaction, rolled back by its own error. -/
def commit (s : CanaryWorld) : Except DbError Db → CanaryWorld
  | .ok db => { s with db }
  | .error _ => s

/-- The statement with the snapshot, once it has the lock. The foreign key of the canary
reservations refuses a dispatch that does not exist. -/
def granted (maxOrders : ℕ) (db snapshot : Db) (dispatchId : Uuid) : Db :=
  if (db.dispatch dispatchId).isSome then
    (db.reserveCanaryEntry snapshot dispatchId maxOrders).1
  else db

def step (maxOrders : ℕ) (s : CanaryWorld) : CanaryLabel → CanaryWorld
  | .start id => { s with started := s.started ++ [(id, s.db)] }
  | .finish n =>
    match s.started[n]? with
    | none => s
    | some (id, snapshot) => ⟨granted maxOrders s.db snapshot id, s.started.eraseIdx n⟩
  | .transition id expected target reason => s.commit (s.db.transition id expected target reason)
  | .expireSource now id => s.commit (s.db.expireSource now id)
  | .releaseCanaryEntry id => { s with db := s.db.releaseCanaryEntry id }
  | .enqueue d => s.commit (s.db.enqueue { d with state := .queued })
  | .entries w => { s with db := s.db.withEntries w }

/-- The steps that keep the cap. A statement that counts fewer than `maxOrders` in its snapshot
still finds room when it gets the lock, and its dispatch is not over ; a dispatch reaches a
terminal state only when none of its entry intents is open, and its canary reservation is
deleted with it ; and an entry intent is opened only for what is counted. -/
def Sound (maxOrders : ℕ) (s : CanaryWorld) : CanaryLabel → Prop
  | .finish n => ∀ p ∈ s.started[n]?, p.2.canaryKeys.length < maxOrders →
      p.1 ∉ s.db.canaryEntries →
      (s.db.canaryKeys.length < maxOrders ∨ .dispatch p.1 ∈ s.db.canaryKeys) ∧
        ∀ d ∈ s.db.dispatch p.1, d.state.terminal = false
  | .transition id expected target _ => ∀ d ∈ s.db.dispatch id, d.state = expected →
      target.terminal →
      .dispatch id ∉ s.db.entryKeys ∧ (target.releasesCanary ∨ id ∉ s.db.heldCanaryEntries)
  | .expireSource _ id => ∀ d ∈ s.db.dispatch id, s.db.retires id d →
      .dispatch id ∉ s.db.entryKeys
  | .entries w => (s.db.withEntries w).entryKeys ⊆ s.db.canaryKeys
  | _ => True

instance : DecidablePred (Sound maxOrders s)
  | .start _ | .releaseCanaryEntry _ | .enqueue _ => inferInstanceAs (Decidable True)
  | .finish n => inferInstanceAs (Decidable (∀ p ∈ s.started[n]?, _ → _ → _))
  | .transition id _ _ _ => inferInstanceAs (Decidable (∀ d ∈ s.db.dispatch id, _ → _ → _))
  | .expireSource _ id => inferInstanceAs (Decidable (∀ d ∈ s.db.dispatch id, _ → _))
  | .entries w => inferInstanceAs (Decidable (∀ k ∈ (s.db.withEntries w).entryKeys, _))

end CanaryWorld

/-! ## The cap -/

/-- The cap of the canary. -/
structure CanaryCap (maxOrders : ℕ) (db : Db) : Prop where
  /-- no more than `maxOrders` are counted -/
  bound : db.canaryKeys.length ≤ maxOrders
  /-- a dispatch that is over is not counted -/
  uncounted : ∀ id d, db.dispatch id = some d → d.state.terminal → .dispatch id ∉ db.canaryKeys
  /-- a canary reservation belongs to a dispatch that is not over -/
  held : ∀ id ∈ db.canaryEntries, db.baselined (.dispatch id) = false →
    ∃ d, db.dispatch id = some d ∧ d.state.terminal = false

namespace Db

variable {db db' : Db} {id : Uuid} {k : CanaryKey} {maxOrders : ℕ}

theorem mem_canaryKeys :
    k ∈ db.canaryKeys ↔ k ∈ db.entryKeys ∨ ∃ id ∈ db.heldCanaryEntries, .dispatch id = k := by
  simp [canaryKeys, entryKeys]

theorem mem_heldCanaryEntries : id ∈ db.heldCanaryEntries ↔ id ∈ db.canaryEntries ∧
    (∃ d, db.dispatch id = some d ∧ d.state.canaryOver = false) ∧
      db.baselined (.dispatch id) = false := by
  simp [heldCanaryEntries, Option.any_eq_true]

theorem dispatch_mem_canaryKeys :
    .dispatch id ∈ db.canaryKeys ↔ .dispatch id ∈ db.entryKeys ∨ id ∈ db.heldCanaryEntries := by
  simp [mem_canaryKeys]

theorem canaryKeys_length_le {keys : List CanaryKey} (h : db.canaryKeys ⊆ keys) :
    db.canaryKeys.length ≤ keys.length :=
  (List.subperm_of_subset (List.nodup_dedup _) h).length_le

/-- The keys of the open entries read the intents, the baseline and which dispatch a reservation
belongs to. -/
theorem entryKeys_congr (hintents : db'.intents = db.intents)
    (hbaseline : db'.baselineRecords = db.baselineRecords)
    (hreservations : ∀ oid, (db'.reservations.find MarginReservation.clientOrderId oid).map
        (·.dispatchId) =
      (db.reservations.find MarginReservation.clientOrderId oid).map (·.dispatchId)) :
    db'.entryKeys = db.entryKeys := by
  have hopen : db'.openEntries = db.openEntries := by
    simp [openEntries, baselined, hintents, hbaseline]
  have hkey : db'.canaryKey = db.canaryKey := by
    funext r
    have h := hreservations r.clientOid
    unfold canaryKey
    cases r.dispatchId with
    | some id => rfl
    | none =>
      cases h' : db'.reservations.find MarginReservation.clientOrderId r.clientOid <;>
        cases h'' : db.reservations.find MarginReservation.clientOrderId r.clientOid <;>
          simp_all
  rw [entryKeys, entryKeys, hopen, hkey]

/-- What is counted after a step that opens nothing. -/
theorem canaryKeys_subset (hcap : CanaryCap maxOrders db) (hentries : db'.entryKeys ⊆ db.entryKeys)
    (hbaseline : db.baselineRecords ⊆ db'.baselineRecords)
    (hcanary : db'.canaryEntries ⊆ db.canaryEntries) : db'.canaryKeys ⊆ db.canaryKeys := by
  intro k hk
  rcases mem_canaryKeys.mp hk with hk | ⟨id, hid, rfl⟩
  · exact mem_canaryKeys.mpr (Or.inl (hentries hk))
  · obtain ⟨hmem, -, hbase⟩ := mem_heldCanaryEntries.mp hid
    have hbase' : db.baselined (.dispatch id) = false := by
      rw [baselined, decide_eq_false_iff_not] at hbase ⊢
      exact fun h => hbase (hbaseline h)
    obtain ⟨d, hd, hterminal⟩ := hcap.held id (hcanary hmem) hbase'
    refine mem_canaryKeys.mpr (Or.inr ⟨id, mem_heldCanaryEntries.mpr ⟨hcanary hmem, ⟨d, hd, ?_⟩,
      hbase'⟩, rfl⟩)
    by_contra hover
    rw [Bool.not_eq_false] at hover
    simp [DispatchState.terminal_of_canaryOver hover] at hterminal

/-! ### What a step writes -/

theorem transition_frame {expected target : DispatchState} {reason : Option String}
    (h : db.transition id expected target reason = .ok db') :
    db'.entryKeys = db.entryKeys ∧ db'.baselineRecords = db.baselineRecords ∧
      db'.canaryEntries =
        if target.releasesCanary then db.canaryEntries.filter (· ≠ id) else db.canaryEntries := by
  unfold transition at h
  split at h
  · cases h
  split at h
  · split at h
    · cases h
    · obtain rfl := Except.ok.inj h
      refine ⟨entryKeys_congr ?_ ?_ fun _ => ?_, ?_, ?_⟩
      all_goals split <;> rfl
  · cases h

/-- A retirement writes nothing, or it finds a dispatch that `retires`. -/
theorem expireSource_frame {now : Instant} (h : db.expireSource now id = .ok db') :
    db' = db ∨ ∃ d, db.dispatch id = some d ∧ db.retires id d ∧
      db.dispatches.updateWhere (·.id = id) BitgetDispatch.expired = some db'.dispatches ∧
      db'.entryKeys = db.entryKeys ∧ db'.baselineRecords = db.baselineRecords ∧
      db'.canaryEntries = db.canaryEntries.filter (· ≠ id) := by
  unfold expireSource at h
  split at h
  · exact Or.inl (Except.ok.inj h).symm
  next d hd =>
    unfold expireSourceDispatch at h
    split at h
    · exact Or.inl (Except.ok.inj h).symm
    next hstate =>
      split at h
      · exact Or.inl (Except.ok.inj h).symm
      next hunknown =>
        split at h
        · exact Or.inl (Except.ok.inj h).symm
        next hunsettled =>
          split at h
          · cases h
          next dispatches hu =>
            have hretires : db.retires id d := by
              have hstate' : d.state = .queued ∨ d.state = .preflight ∨ d.state = .submitting := by
                by_contra hne
                exact hstate (by tauto)
              unfold retires
              simp only [Bool.not_eq_true] at hunknown hunsettled
              rw [hunknown, hunsettled]
              simpa [or_assoc] using hstate'
            unfold rewriteReservations at h
            split at h
            · cases h
            next reservations hr =>
              obtain rfl := Except.ok.inj h
              refine Or.inr ⟨d, hd, hretires, hu, entryKeys_congr rfl rfl fun oid => ?_, rfl, rfl⟩
              have hoid : ∀ m : MarginReservation,
                  (m.releasedFor now "stale-source-message").clientOrderId = m.clientOrderId :=
                fun _ => rfl
              rw [Table.find_updateWhere hoid hr]
              change Option.map _ (Option.map _ (db.reservations.find _ oid)) = _
              rw [Option.map_map]
              congr 1
              funext m
              simp only [Function.comp_apply]
              split <;> rfl

/-- A new dispatch is found under its id, which was free. -/
theorem dispatch_of_enqueue {d : BitgetDispatch} (h : db.enqueue d = .ok db') (id : Uuid) :
    db'.dispatch id = (db.dispatch id).or (if d.id = id then some d else none) := by
  unfold enqueue at h
  split at h
  · cases h
  next dispatches hi =>
    obtain rfl := Except.ok.inj h
    exact Table.find_insert hi (·.id) id

theorem enqueue_frame {d : BitgetDispatch} (h : db.enqueue d = .ok db') :
    db'.entryKeys = db.entryKeys ∧ db'.baselineRecords = db.baselineRecords ∧
      db'.canaryEntries = db.canaryEntries := by
  unfold enqueue at h
  split at h
  · cases h
  · obtain rfl := Except.ok.inj h
    exact ⟨entryKeys_congr rfl rfl fun _ => rfl, rfl, rfl⟩

end Db

/-! ## One step -/

namespace CanaryCap

variable {db db' : Db} {id : Uuid} {maxOrders : ℕ}

theorem mem_held (h : CanaryCap maxOrders db) (hmem : id ∈ db.canaryEntries)
    (hbase : db.baselined (.dispatch id) = false) : id ∈ db.heldCanaryEntries := by
  obtain ⟨d, hd, hterminal⟩ := h.held id hmem hbase
  refine Db.mem_heldCanaryEntries.mpr ⟨hmem, ⟨d, hd, ?_⟩, hbase⟩
  by_contra hover
  rw [Bool.not_eq_false] at hover
  simp [DispatchState.terminal_of_canaryOver hover] at hterminal

/-- A step that opens no entry and writes one dispatch. -/
theorem of_moved (h : CanaryCap maxOrders db) {f : BitgetDispatch → BitgetDispatch}
    (hu : db.dispatches.updateWhere (·.id = id) f = some db'.dispatches)
    (hid : ∀ d, (f d).id = d.id)
    (hentries : db'.entryKeys = db.entryKeys)
    (hbaseline : db'.baselineRecords = db.baselineRecords)
    (hcanary : db'.canaryEntries ⊆ db.canaryEntries)
    (hover : ∀ d, db.dispatch id = some d → (f d).state.terminal →
      .dispatch id ∉ db.entryKeys ∧ (id ∉ db'.canaryEntries ∨ id ∉ db.heldCanaryEntries)) :
    CanaryCap maxOrders db' := by
  have hsubset : db'.canaryKeys ⊆ db.canaryKeys :=
    Db.canaryKeys_subset h (by rw [hentries]; exact List.Subset.refl _)
      (by rw [hbaseline]; exact List.Subset.refl _) hcanary
  have hbase : ∀ {id'}, db'.baselined (.dispatch id') = db.baselined (.dispatch id') := by
    intro id'
    rw [Db.baselined, Db.baselined, hbaseline]
  have hfind : ∀ id', db'.dispatch id' =
      (db.dispatch id').map fun d => if id' = id then f d else d := by
    intro id'
    rw [Db.dispatch_of_updateWhere hu hid]
    refine Option.map_congr fun d hd => ?_
    simp [(Db.dispatch_eq_some.mp hd).2]
  -- the written dispatch holds no canary reservation that counts, if it is over
  have hfree : ∀ d, db.dispatch id = some d → (f d).state.terminal → id ∈ db'.canaryEntries →
      db'.baselined (.dispatch id) = false → False := by
    intro d hd hterminal hmem hb
    rcases (hover d hd hterminal).2 with hno | hno
    · exact hno hmem
    · exact hno (h.mem_held (hcanary hmem) (hbase ▸ hb))
  refine ⟨(Db.canaryKeys_length_le hsubset).trans h.bound, ?_, ?_⟩
  · intro id' d' hd' hterminal hcounted
    rw [hfind id', Option.map_eq_some_iff] at hd'
    obtain ⟨d, hd, rfl⟩ := hd'
    split at hterminal
    next heq =>
      subst heq
      rcases Db.dispatch_mem_canaryKeys.mp hcounted with hentry | hheld
      · exact (hover d hd hterminal).1 (hentries ▸ hentry)
      · obtain ⟨hmem, -, hb⟩ := Db.mem_heldCanaryEntries.mp hheld
        exact hfree d hd hterminal hmem hb
    · exact h.uncounted id' d hd hterminal (hsubset hcounted)
  · intro id' hmem hb
    obtain ⟨d, hd, hterminal⟩ := h.held id' (hcanary hmem) (hbase ▸ hb)
    refine ⟨_, by rw [hfind id', hd]; rfl, ?_⟩
    split
    next heq =>
      subst heq
      by_contra hover'
      rw [Bool.not_eq_false] at hover'
      exact hfree d hd hover' hmem hb
    · exact hterminal

theorem transition (h : CanaryCap maxOrders db) {expected target : DispatchState}
    {reason : Option String}
    (hsound : ∀ d, db.dispatch id = some d → d.state = expected → target.terminal →
      .dispatch id ∉ db.entryKeys ∧ (target.releasesCanary ∨ id ∉ db.heldCanaryEntries))
    (hx : db.transition id expected target reason = .ok db') : CanaryCap maxOrders db' := by
  obtain ⟨d, hd, hstate, hu⟩ := Db.transition_ok hx
  obtain ⟨hentries, hbaseline, hcanary⟩ := Db.transition_frame hx
  refine h.of_moved hu (fun _ => rfl) hentries hbaseline ?_ fun d' _ hterminal => ?_
  · rw [hcanary]
    split
    · exact List.filter_sublist.subset
    · exact List.Subset.refl _
  · obtain ⟨hentry, hfree⟩ := hsound d hd hstate hterminal
    refine ⟨hentry, hfree.imp_left fun hrel => ?_⟩
    rw [hcanary, if_pos hrel]
    simp

theorem expireSource (h : CanaryCap maxOrders db) {now : Instant}
    (hsound : ∀ d, db.dispatch id = some d → db.retires id d → .dispatch id ∉ db.entryKeys)
    (hx : db.expireSource now id = .ok db') : CanaryCap maxOrders db' := by
  rcases Db.expireSource_frame hx with rfl | ⟨d, hd, hretires, hu, hentries, hbaseline, hcanary⟩
  · exact h
  refine h.of_moved hu (fun _ => rfl) hentries hbaseline ?_ fun d' _ _ =>
    ⟨hsound d hd hretires, Or.inl ?_⟩
  · rw [hcanary]
    exact List.filter_sublist.subset
  · rw [hcanary]
    simp

theorem enqueue (h : CanaryCap maxOrders db) {d : BitgetDispatch} (hqueued : d.state = .queued)
    (hx : db.enqueue d = .ok db') : CanaryCap maxOrders db' := by
  obtain ⟨hentries, hbaseline, hcanary⟩ := Db.enqueue_frame hx
  have hfind := Db.dispatch_of_enqueue hx
  have hsubset : db'.canaryKeys ⊆ db.canaryKeys :=
    Db.canaryKeys_subset h (by rw [hentries]; exact List.Subset.refl _)
      (by rw [hbaseline]; exact List.Subset.refl _) (by rw [hcanary]; exact List.Subset.refl _)
  refine ⟨(Db.canaryKeys_length_le hsubset).trans h.bound, fun id d' hd' hterminal hcounted => ?_,
    fun id hmem hb => ?_⟩
  · rw [hfind id, Option.or_eq_some_iff] at hd'
    rcases hd' with hold | ⟨-, hnew⟩
    · exact h.uncounted id d' hold hterminal (hsubset hcounted)
    · split at hnew
      · obtain rfl := Option.some.inj hnew
        rw [hqueued] at hterminal
        cases hterminal
      · cases hnew
  · obtain ⟨d', hd', hterminal⟩ := h.held id (hcanary ▸ hmem) (by
      rw [Db.baselined, ← hbaseline]; exact hb)
    exact ⟨d', by rw [hfind id, hd']; rfl, hterminal⟩

theorem releaseCanaryEntry (h : CanaryCap maxOrders db) (id : Uuid) :
    CanaryCap maxOrders (db.releaseCanaryEntry id) := by
  have hentries : (db.releaseCanaryEntry id).entryKeys = db.entryKeys :=
    Db.entryKeys_congr rfl rfl fun _ => rfl
  have hsubset : (db.releaseCanaryEntry id).canaryKeys ⊆ db.canaryKeys :=
    Db.canaryKeys_subset h (by rw [hentries]; exact List.Subset.refl _) (List.Subset.refl _)
      (List.filter_sublist.subset)
  exact ⟨(Db.canaryKeys_length_le hsubset).trans h.bound,
    fun id' d hd hterminal hcounted => h.uncounted id' d hd hterminal (hsubset hcounted),
    fun id' hmem => h.held id' (List.filter_sublist.subset hmem)⟩

/-- Other tables are written, and no entry is opened but for what is counted. -/
theorem withEntries (h : CanaryCap maxOrders db) {w : Db}
    (hsound : (db.withEntries w).entryKeys ⊆ db.canaryKeys) :
    CanaryCap maxOrders (db.withEntries w) := by
  have hb : ∀ {id}, (db.withEntries w).baselined (.dispatch id) = false →
      db.baselined (.dispatch id) = false := by
    intro id
    simp only [Db.baselined, decide_eq_false_iff_not]
    exact fun hno hmem => hno (List.mem_append_left _ hmem)
  have hsubset : (db.withEntries w).canaryKeys ⊆ db.canaryKeys := by
    intro k hk
    rcases Db.mem_canaryKeys.mp hk with hk | ⟨id, hid, rfl⟩
    · exact hsound hk
    · obtain ⟨hmem, -, hbase⟩ := Db.mem_heldCanaryEntries.mp hid
      exact Db.dispatch_mem_canaryKeys.mpr (Or.inr (h.mem_held hmem (hb hbase)))
  exact ⟨(Db.canaryKeys_length_le hsubset).trans h.bound,
    fun id d hd hterminal hcounted => h.uncounted id d hd hterminal (hsubset hcounted),
    fun id hmem hbase => h.held id hmem (hb hbase)⟩

/-- The statement with the lock : it inserts at most the key of its dispatch. -/
theorem granted (h : CanaryCap maxOrders db) {snapshot : Db}
    (hsound : snapshot.canaryKeys.length < maxOrders → id ∉ db.canaryEntries →
      (db.canaryKeys.length < maxOrders ∨ .dispatch id ∈ db.canaryKeys) ∧
        ∀ d, db.dispatch id = some d → d.state.terminal = false) :
    CanaryCap maxOrders (CanaryWorld.granted maxOrders db snapshot id) := by
  unfold CanaryWorld.granted
  split
  next hsome =>
    obtain ⟨d, hd⟩ := Option.isSome_iff_exists.mp hsome
    unfold Db.reserveCanaryEntry
    split
    next hroom =>
      obtain ⟨hbound, hopen⟩ := hsound hroom.1 hroom.2
      dsimp only
      set db₁ : Db := { db with canaryEntries := db.canaryEntries ++ [id] } with hdb₁
      have hentries : db₁.entryKeys = db.entryKeys := Db.entryKeys_congr rfl rfl fun _ => rfl
      have hsubset : db₁.canaryKeys ⊆ .dispatch id :: db.canaryKeys := by
        intro k hk
        rcases Db.mem_canaryKeys.mp hk with hk | ⟨id', hid', rfl⟩
        · exact List.mem_cons_of_mem _ (Db.mem_canaryKeys.mpr (Or.inl (hentries ▸ hk)))
        · obtain ⟨hmem, hover, hb⟩ := Db.mem_heldCanaryEntries.mp hid'
          rcases List.mem_append.mp hmem with hold | hnew
          · exact List.mem_cons_of_mem _ (Db.dispatch_mem_canaryKeys.mpr
              (Or.inr (Db.mem_heldCanaryEntries.mpr ⟨hold, hover, hb⟩)))
          · rw [List.mem_singleton.mp hnew]
            exact List.mem_cons_self
      refine ⟨?_, fun id' d' hd' hterminal hcounted => ?_, fun id' hmem hb => ?_⟩
      · rcases hbound with hlt | hmem
        · exact (Db.canaryKeys_length_le hsubset).trans hlt
        · refine (Db.canaryKeys_length_le fun k hk => ?_).trans h.bound
          rcases List.mem_cons.mp (hsubset hk) with rfl | hold
          · exact hmem
          · exact hold
      · rcases List.mem_cons.mp (hsubset hcounted) with heq | hold
        · obtain rfl := CanaryKey.dispatch.inj heq
          rw [hopen d' hd'] at hterminal
          cases hterminal
        · exact h.uncounted id' d' hd' hterminal hold
      · rcases List.mem_append.mp hmem with hold | hnew
        · exact h.held id' hold hb
        · rw [List.mem_singleton.mp hnew]
          exact ⟨d, hd, hopen d hd⟩
    · exact h
  · exact h

end CanaryCap

/-! ## Every run -/

theorem canaryCap_step {maxOrders : ℕ} (s : CanaryWorld) (l : CanaryLabel)
    (h : CanaryCap maxOrders s.db) (hsound : ¬ ¬ s.Sound maxOrders l) :
    CanaryCap maxOrders (s.step maxOrders l).db := by
  replace hsound := not_not.mp hsound
  have hcommit : ∀ t : Except DbError Db, (∀ db', t = .ok db' → CanaryCap maxOrders db') →
      CanaryCap maxOrders (s.commit t).db := by
    intro t ht
    cases t with
    | error e => exact h
    | ok db' => exact ht db' rfl
  cases l with
  | start id => exact h
  | finish n =>
    unfold CanaryWorld.step
    dsimp only
    split
    · exact h
    next id snapshot hn => exact h.granted (hsound (id, snapshot) hn)
  | transition id expected target reason => exact hcommit _ fun _ => h.transition hsound
  | expireSource now id => exact hcommit _ fun _ => h.expireSource hsound
  | releaseCanaryEntry id => exact h.releaseCanaryEntry id
  | enqueue d => exact hcommit _ fun _ => h.enqueue rfl
  | entries w => exact h.withEntries hsound

/-- The cap holds throughout every run whose steps are sound. -/
theorem canaryCap_states {maxOrders : ℕ} {s t : CanaryWorld} {ls : List CanaryLabel}
    (hs : CanaryCap maxOrders s.db)
    (hsound : ∀ p ∈ visits (CanaryWorld.step maxOrders) s ls, p.1.Sound maxOrders p.2)
    (ht : t ∈ states (CanaryWorld.step maxOrders) s ls) : CanaryCap maxOrders t.db :=
  states_inv_of_not (I := fun s => CanaryCap maxOrders s.db) canaryCap_step hs
    (fun p hp => not_not.mpr (hsound p hp)) ht

/-! ### A stale count, and a dispatch that is closed -/

/-- Two validated dispatches, next to no entry. -/
def twoValidated : Db where
  dispatches :=
    ⟨[⟨1, .validated, "BTCUSDT", .long, 100, none, none, .market, none, none, 0, none⟩,
      ⟨2, .validated, "ETHUSDT", .long, 100, none, none, .market, none, none, 0, none⟩], by decide⟩

theorem twoValidated_cap (maxOrders : ℕ) : CanaryCap maxOrders twoValidated where
  bound := Nat.zero_le _
  uncounted _ _ _ _ h := absurd h List.not_mem_nil
  held _ h := absurd h List.not_mem_nil

/-- Both statements begin before either has the lock. -/
def staleCount : List CanaryLabel := [.start 1, .start 2, .finish 0, .finish 0]

/-- A partial entry, submitted under its canary reservation, that is closed by a recovery. -/
def closedPartial : List CanaryLabel :=
  [.start 1, .finish 0, .transition 1 .validated .submitting none,
    .transition 1 .submitting .partiallyFilled none,
    .transition 1 .partiallyFilled .closing (some "recovery-closed-close-fill-verified"),
    .transition 1 .closing .closed (some "recovery-closed-close-fill-verified"), .start 2, .finish 0]

/-- Two dispatches are counted under a cap of one, and a closed dispatch keeps the only place. -/
theorem canaryCap_broken :
    (∃ t ∈ states (CanaryWorld.step 1) ⟨twoValidated, []⟩ staleCount,
      t.db.canaryKeys = [.dispatch 1, .dispatch 2]) ∧
    ∃ t ∈ states (CanaryWorld.step 1) ⟨twoValidated, []⟩ closedPartial,
      (t.db.dispatch 1).map (·.state) = some .closed ∧ t.db.canaryKeys = [.dispatch 1] ∧
        t.db.canaryEntries = [1] ∧ t.started = [] :=
  ⟨⟨exec (CanaryWorld.step 1) _ staleCount, mem_states_iff.mpr ⟨_, [], by simp, rfl⟩,
      by decide +kernel⟩,
    ⟨exec (CanaryWorld.step 1) _ closedPartial, mem_states_iff.mpr ⟨_, [], by simp, rfl⟩,
      by decide +kernel⟩⟩

/-- One after the other, the second one once the first is filled. -/
def filledInTurn : List CanaryLabel :=
  [.start 1, .finish 0, .transition 1 .validated .submitting none,
    .transition 1 .submitting .filled none, .start 2, .finish 0]

theorem filledInTurn_cap :
    CanaryCap 1 (exec (CanaryWorld.step 1) ⟨twoValidated, []⟩ filledInTurn).db ∧
      (exec (CanaryWorld.step 1) ⟨twoValidated, []⟩ filledInTurn).db.canaryKeys = [.dispatch 2] := by
  have hsound : ∀ p ∈ visits (CanaryWorld.step 1) ⟨twoValidated, []⟩ filledInTurn,
      p.1.Sound 1 p.2 := by decide +kernel
  have hlast : exec (CanaryWorld.step 1) ⟨twoValidated, []⟩ filledInTurn ∈
      states (CanaryWorld.step 1) ⟨twoValidated, []⟩ filledInTurn :=
    mem_states_iff.mpr ⟨_, [], by simp, rfl⟩
  exact ⟨canaryCap_states (twoValidated_cap 1) hsound hlast, by decide +kernel⟩

end FattyTrader
