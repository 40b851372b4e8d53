import FattyTrader.CloseOrders
import FattyTrader.NativeClose
import FattyTrader.TableParts

/-!
# The exposure of bound closes

A close bound to a reservation takes out of the entry what it filled once it is over, and what it
asked for until then. `bindRequestedClose` binds a close when no other one of the reservation is
pending and the entry has enough left. What it establishes, the later statements must keep : a write
of an outcome does not ask which state the row has by then, and the binding of a native close asks
neither question.

In every run whose writes do not reopen or enlarge a close that is over, fill no more than was asked
for, and lower no leg of an entry, and whose native closes fit what is left, the closes of a
reservation stay within its entry and one of them at most is pending (`exposure_covered`). A late
write of the sender reopens a close the monitor has seen filled (`reopenedClose_pending`).
-/

set_option linter.unusedSectionVars false

open Tables

namespace FattyTrader

open Runs

/-- What a close takes out of its entry : what it filled, or what it asked for while pending. -/
def LiveIntentRecord.exposure (r : LiveIntentRecord) : ℚ :=
  if r.state.over then r.filledQty else r.requestedQty

namespace Db

/-! ## Quantities -/

section Quantities

variable (db : Db)

def filledAt (oid : String) : ℚ := ((db.get oid).map (·.filledQty)).getD 0

def exposureAt (oid : String) : ℚ := ((db.get oid).map LiveIntentRecord.exposure).getD 0

/-- What the root of an entry and its limit child filled. -/
def ownedFills (rootOid : String) : ℚ := db.filledAt rootOid + db.filledAt (limitOid rootOid)

/-- What the closes bound to a reservation take. -/
def boundExposure (reservationId : Uuid) : ℚ :=
  ((db.boundCloses (some reservationId)).map LiveIntentRecord.exposure).sum

/-- How many closes bound to a reservation are not over. -/
def pendingCloses (reservationId : Uuid) : ℕ :=
  (db.boundCloses (some reservationId)).countP fun c => !c.state.over

/-- The bindings of a reservation. -/
def bindingsOf (reservationId : Uuid) : List CloseBinding :=
  db.closeBindings.rows.filter fun b => some b.reservationId = some reservationId

end Quantities

variable {db db' : Db} {id : Uuid} {oid : String}

theorem boundExposure_eq : db.boundExposure id =
    ((db.bindingsOf id).map fun b => db.exposureAt b.closeClientOrderId).sum :=
  sum_filterMap _

theorem pendingCloses_eq : db.pendingCloses id =
    (db.bindingsOf id).countP fun b => db.pendingIntent b.closeClientOrderId := by
  unfold pendingCloses boundCloses bindingsOf
  rw [List.countP_filterMap]
  refine List.countP_congr fun b _ => ?_
  unfold pendingIntent
  cases db.get b.closeClientOrderId <;> simp

theorem filledAt_nonneg : 0 ≤ db.filledAt oid := by
  unfold filledAt
  obtain hr | ⟨r, hr⟩ := Option.eq_none_or_eq_some (db.get oid)
  · rw [hr]
    rfl
  · rw [hr]
    exact (checked_of_get hr).filled_nonneg

theorem ownedFills_nonneg : 0 ≤ db.ownedFills oid :=
  add_nonneg filledAt_nonneg filledAt_nonneg

/-! ## The record of the closes -/

/-- A bound close reduces a position, the closes of a reservation stay within its entry, and one of
them at most is pending. -/
structure ClosesCovered (db : Db) : Prop where
  closing : ∀ b ∈ db.closeBindings, ∃ c, db.get b.closeClientOrderId = some c ∧ c.role.closing
  covered : ∀ m ∈ db.reservations, db.boundExposure m.id ≤ db.ownedFills m.clientOrderId
  single : ∀ m ∈ db.reservations, db.pendingCloses m.id ≤ 1

theorem ClosesCovered.of_unbound (h : db.closeBindings = Table.empty) : db.ClosesCovered := by
  have hnone : ∀ id, db.bindingsOf id = [] := by simp [bindingsOf, h]
  refine ⟨fun b hb => ?_, fun m _ => ?_, fun m _ => ?_⟩
  · rw [h] at hb
    cases hb
  · rw [boundExposure_eq, hnone]
    exact ownedFills_nonneg
  · rw [pendingCloses_eq, hnone]
    exact Nat.zero_le _

/-- What binds nothing, and leaves the closes of each reservation within its entry. -/
theorem ClosesCovered.kept (h : db.ClosesCovered) (hbindings : db'.closeBindings = db.closeBindings)
    (hreservations : ∀ m' ∈ db'.reservations,
      (∃ m ∈ db.reservations, m.id = m'.id ∧ m.clientOrderId = m'.clientOrderId) ∨
        ∀ b ∈ db.closeBindings, b.reservationId ≠ m'.id)
    (hclosing : ∀ b ∈ db.closeBindings, ∃ c,
      db'.get b.closeClientOrderId = some c ∧ c.role.closing)
    (hpending : ∀ b ∈ db.closeBindings,
      db'.pendingIntent b.closeClientOrderId → db.pendingIntent b.closeClientOrderId)
    (hcovered : ∀ m ∈ db.reservations,
      ((db.bindingsOf m.id).map fun b => db'.exposureAt b.closeClientOrderId).sum ≤
        db'.ownedFills m.clientOrderId) : db'.ClosesCovered := by
  have hsame : ∀ id, db'.bindingsOf id = db.bindingsOf id := fun id => by
    rw [bindingsOf, hbindings, bindingsOf]
  have hnone : ∀ {id}, (∀ b ∈ db.closeBindings, b.reservationId ≠ id) → db.bindingsOf id = [] :=
    fun hfree => List.filter_eq_nil_iff.mpr fun b hb => by simpa using hfree b hb
  refine ⟨fun b hb => hclosing b (hbindings ▸ hb), fun m' hm' => ?_, fun m' hm' => ?_⟩
  · rw [boundExposure_eq, hsame]
    obtain ⟨m, hm, hid, horder⟩ | hfree := hreservations m' hm'
    · rw [← hid, ← horder]
      exact hcovered m hm
    · rw [hnone hfree]
      exact ownedFills_nonneg
  · rw [pendingCloses_eq, hsame]
    obtain ⟨m, hm, hid, -⟩ | hfree := hreservations m' hm'
    · rw [← hid]
      have hmono := List.countP_mono_left (l := db.bindingsOf m.id) fun b hb =>
        hpending b (List.mem_of_mem_filter hb)
      rw [← pendingCloses_eq] at hmono
      exact hmono.trans (h.single m hm)
    · rw [hnone hfree]
      exact Nat.zero_le _

theorem ClosesCovered.covered_of_le (h : db.ClosesCovered) {m : MarginReservation}
    (hm : m ∈ db.reservations)
    (hexposure : ∀ b ∈ db.bindingsOf m.id,
      db'.exposureAt b.closeClientOrderId ≤ db.exposureAt b.closeClientOrderId)
    (howned : db.ownedFills m.clientOrderId ≤ db'.ownedFills m.clientOrderId) :
    ((db.bindingsOf m.id).map fun b => db'.exposureAt b.closeClientOrderId).sum ≤
      db'.ownedFills m.clientOrderId :=
  calc ((db.bindingsOf m.id).map fun b => db'.exposureAt b.closeClientOrderId).sum
      ≤ ((db.bindingsOf m.id).map fun b => db.exposureAt b.closeClientOrderId).sum :=
        List.sum_le_sum hexposure
    _ = db.boundExposure m.id := boundExposure_eq.symm
    _ ≤ db.ownedFills m.clientOrderId := h.covered m hm
    _ ≤ db'.ownedFills m.clientOrderId := howned

/-! ## What is left of an entry -/

/-- Where no bound close is pending, they take what they filled. -/
theorem boundExposure_of_over
    (h : ∀ b ∈ db.bindingsOf id, db.pendingIntent b.closeClientOrderId = false) :
    db.boundExposure id = ((db.boundCloses (some id)).map (·.filledQty)).sum := by
  rw [boundExposure_eq, boundCloses, sum_filterMap]
  refine congrArg List.sum (List.map_congr_left fun b hb => ?_)
  have hover := h b hb
  unfold pendingIntent at hover
  unfold exposureAt
  obtain hc | ⟨c, hc⟩ := Option.eq_none_or_eq_some (db.get b.closeClientOrderId)
  · rw [hc]
    rfl
  · rw [hc] at hover ⊢
    simp only [Option.any_some, Bool.not_eq_false'] at hover
    simp [LiveIntentRecord.exposure, hover]

/-- The entry has at least `extra` left. -/
def leaves (db : Db) (rootOid : String) (extra : ℚ) : Bool :=
  match db.remainingOwnedQuantity rootOid with
  | .ok remaining => extra ≤ remaining
  | .error _ => false

/-- What `bind_requested_close` asks before it binds a close : no other close of the reservation is
pending, and `extra` is left of its entry. -/
def Fits (db : Db) (m : MarginReservation) (closeOid : String) (extra : ℚ) : Prop :=
  db.closePending m.id closeOid = false ∧
    (db.get m.clientOrderId).any (fun root => root.marginReservationId = some m.id) ∧
      db.leaves m.clientOrderId extra

instance {m : MarginReservation} {extra : ℚ} : Decidable (db.Fits m oid extra) :=
  inferInstanceAs (Decidable (_ ∧ _ ∧ _))

theorem boundExposure_of_fits {m : MarginReservation} {extra : ℚ} (h : db.Fits m oid extra)
    (hself : ∀ b ∈ db.bindingsOf m.id, b.closeClientOrderId = oid → db.pendingIntent oid = false) :
    (∀ b ∈ db.bindingsOf m.id, db.pendingIntent b.closeClientOrderId = false) ∧
      db.boundExposure m.id + extra ≤ db.ownedFills m.clientOrderId := by
  obtain ⟨hfree, howner, hleaves⟩ := h
  have hover : ∀ b ∈ db.bindingsOf m.id, db.pendingIntent b.closeClientOrderId = false := by
    intro b hb
    by_cases heq : b.closeClientOrderId = oid
    · rw [heq]
      exact hself b hb heq
    · obtain ⟨hmem, hid⟩ := List.mem_filter.mp hb
      have hnot := List.any_eq_false.mp hfree b hmem
      simpa [Option.some.inj (of_decide_eq_true hid), heq] using hnot
  refine ⟨hover, ?_⟩
  obtain ⟨root, hroot, howner⟩ := (Option.any_eq_true _ _).mp howner
  unfold leaves at hleaves
  split at hleaves
  next remaining hremaining =>
    obtain ⟨root', hroot', -, -, hq, -⟩ := remainingOwnedQuantity_ok hremaining
    obtain rfl := Option.some.inj (hroot.symm.trans hroot')
    rw [movedCloses, of_decide_eq_true howner, sum_filter_ne_zero,
      ← boundExposure_of_over hover] at hq
    have howned : db.ownedFills m.clientOrderId =
        root.filledQty + ((db.get (limitOid m.clientOrderId)).map (·.filledQty)).getD 0 := by
      rw [ownedFills, filledAt, filledAt, hroot]
      rfl
    have hle : extra ≤ remaining := of_decide_eq_true hleaves
    rw [howned]
    linarith
  · cases hleaves

/-! ## Writing outcomes -/

/-- A write rewrites the row of one client order id, and touches neither bindings nor
reservations. -/
structure WritesOutcome (db db' : Db) (oid : String) (r r' : LiveIntentRecord) : Prop where
  get : db.get oid = some r
  get' : ∀ o, db'.get o = if o = oid then some r' else db.get o
  role : r'.role = r.role
  requested : r'.requestedQty = r.requestedQty
  bindings : db'.closeBindings = db.closeBindings
  reservations : db'.reservations = db.reservations

/-- `oid` is a leg of an entry that has a reservation. -/
def isLeg (db : Db) (oid : String) : Prop :=
  ∃ m ∈ db.reservations, oid = m.clientOrderId ∨ oid = limitOid m.clientOrderId

/-- `oid` is a bound close. -/
def isBound (db : Db) (oid : String) : Prop := ∃ b ∈ db.closeBindings, b.closeClientOrderId = oid

/-- `oid` is a close bound to the reservation. -/
def boundTo (db : Db) (oid : String) (reservationId : Uuid) : Prop :=
  ∃ b ∈ db.closeBindings, b.closeClientOrderId = oid ∧ b.reservationId = reservationId

/-- A write that lowers no leg and, over a bound close, leaves it over where it was and takes more
only where that is left. -/
theorem ClosesCovered.write (h : db.ClosesCovered) {r r' : LiveIntentRecord}
    (hw : db.WritesOutcome db' oid r r') (hleg : db.isLeg oid → r.filledQty ≤ r'.filledQty)
    (hbound : db.isBound oid → (r.state.over → r'.state.over) ∧ (r'.exposure ≤ r.exposure ∨
      r.state.over ∧ ∀ m ∈ db.reservations, db.boundTo oid m.id →
        db.Fits m oid (r'.exposure - r.exposure))) : db'.ClosesCovered := by
  have hfilled : ∀ m ∈ db.reservations, ∀ o, (o = m.clientOrderId ∨ o = limitOid m.clientOrderId) →
      db.filledAt o ≤ db'.filledAt o := by
    intro m hm o ho
    unfold filledAt
    rw [hw.get']
    split
    next heq =>
      subst heq
      rw [hw.get]
      exact hleg ⟨m, hm, ho⟩
    · exact le_rfl
  have howned : ∀ m ∈ db.reservations,
      db.ownedFills m.clientOrderId ≤ db'.ownedFills m.clientOrderId := fun m hm =>
    add_le_add (hfilled m hm _ (Or.inl rfl)) (hfilled m hm _ (Or.inr rfl))
  have hother : ∀ o, o ≠ oid → db'.exposureAt o = db.exposureAt o := fun o ho => by
    rw [exposureAt, exposureAt, hw.get', if_neg ho]
  have hold : db.exposureAt oid = r.exposure := by rw [exposureAt, hw.get]; rfl
  have hnew : db'.exposureAt oid = r'.exposure := by rw [exposureAt, hw.get', if_pos rfl]; rfl
  refine h.kept hw.bindings (fun m hm => Or.inl ⟨m, hw.reservations ▸ hm, rfl, rfl⟩)
    (fun b hb => ?_) (fun b hb => ?_) fun m hm => ?_
  · obtain ⟨c, hc, hrole⟩ := h.closing b hb
    rw [hw.get']
    split
    next heq =>
      rw [heq, hw.get] at hc
      obtain rfl := Option.some.inj hc
      exact ⟨r', rfl, hw.role ▸ hrole⟩
    · exact ⟨c, hc, hrole⟩
  · unfold pendingIntent
    rw [hw.get']
    split
    next heq =>
      rw [heq, hw.get]
      intro hpending
      simp only [Option.any_some, Bool.not_eq_true'] at hpending ⊢
      by_contra hr
      rw [(hbound ⟨b, hb, heq⟩).1 (by simpa using hr)] at hpending
      cases hpending
    · exact id
  · by_cases hmore : db.boundTo oid m.id ∧ r.exposure < r'.exposure
    swap
    · refine h.covered_of_le hm (fun b hb => ?_) (howned m hm)
      obtain ⟨hmem, hid⟩ := List.mem_filter.mp hb
      by_cases heq : b.closeClientOrderId = oid
      · rw [heq, hold, hnew]
        exact le_of_not_gt fun hlt =>
          hmore ⟨⟨b, hmem, heq, Option.some.inj (of_decide_eq_true hid)⟩, hlt⟩
      · exact (hother _ heq).le
    · -- the close takes more, which the guard found left
      obtain ⟨⟨b₀, hb₀, hoid, hid₀⟩, hlt⟩ := hmore
      obtain ⟨hover, hfits⟩ := (hbound ⟨b₀, hb₀, hoid⟩).2.resolve_left (not_le.mpr hlt)
      have hself : db.pendingIntent oid = false := by
        rw [pendingIntent, hw.get, Option.any_some, hover]
        rfl
      obtain ⟨-, hleft⟩ :=
        boundExposure_of_fits (hfits m hm ⟨b₀, hb₀, hoid, hid₀⟩) fun _ _ _ => hself
      have hdistinct : (db.bindingsOf m.id).Pairwise
          fun a b => a.closeClientOrderId ≠ b.closeClientOrderId :=
        db.closeBindings.unique.sublist List.filter_sublist
      calc ((db.bindingsOf m.id).map fun b => db'.exposureAt b.closeClientOrderId).sum
          ≤ ((db.bindingsOf m.id).map fun b => db.exposureAt b.closeClientOrderId).sum +
              (r'.exposure - r.exposure) := by
            refine sum_map_le_add hdistinct (sub_nonneg.mpr hlt.le)
              (fun b _ hne => (hother _ hne).le) fun b _ heq => ?_
            rw [heq, hold, hnew]
            linarith
        _ = db.boundExposure m.id + (r'.exposure - r.exposure) := by rw [boundExposure_eq]
        _ ≤ db.ownedFills m.clientOrderId := hleft
        _ ≤ db'.ownedFills m.clientOrderId := howned m hm

/-- A row of no bound close, written without lowering what it filled. -/
theorem ClosesCovered.rewrite (h : db.ClosesCovered) {f : LiveIntentRecord → LiveIntentRecord}
    {won : Bool} {r : LiveIntentRecord} (hw : db.Rewrites db' oid f won r)
    (hrole : (f r).role = r.role) (hrequested : (f r).requestedQty = r.requestedQty)
    (hfilled : (f r).filledQty = r.filledQty)
    (hstate : (f r).state = r.state ∨ r.role = .entry) : db'.ClosesCovered := by
  obtain ⟨-, hr, hdb, hget⟩ := hw
  refine h.write ⟨hr, hget, hrole, hrequested, by rw [hdb], by rw [hdb]⟩ (fun _ => hfilled.ge) ?_
  rintro ⟨b, hb, rfl⟩
  rcases hstate with hstate | hentry
  · refine ⟨fun hover => hstate ▸ hover, Or.inl ?_⟩
    simp [LiveIntentRecord.exposure, hstate, hfilled, hrequested]
  · obtain ⟨c, hc, hclosing⟩ := h.closing b hb
    rw [hr] at hc
    obtain rfl := Option.some.inj hc
    rw [hentry] at hclosing
    cases hclosing

theorem ClosesCovered.claim (h : db.ClosesCovered) {now : Instant} {record : LiveIntentRecord}
    {won : Bool} (hclaim : db.claim now record = .ok (db', won)) : db'.ClosesCovered := by
  rcases insertIntent_ok hclaim with ⟨-, rfl, -⟩ | ⟨-, hnew, -, hdb, hget⟩
  · exact h
  have hother : ∀ b ∈ db.closeBindings,
      db'.get b.closeClientOrderId = db.get b.closeClientOrderId := by
    intro b hb
    obtain ⟨c, hc, -⟩ := h.closing b hb
    rw [hget, if_neg]
    intro heq
    rw [heq, hnew] at hc
    cases hc
  have hfilled : ∀ o, db.filledAt o ≤ db'.filledAt o := by
    intro o
    by_cases ho : o = record.clientOid
    · have hzero : db.filledAt o = 0 := by rw [filledAt, ho, hnew]; rfl
      rw [hzero]
      exact filledAt_nonneg
    · rw [filledAt, filledAt, hget, if_neg ho]
  refine h.kept (by rw [hdb]) (fun m hm => Or.inl ⟨m, by rw [hdb] at hm; exact hm, rfl, rfl⟩)
    (fun b hb => ?_) (fun b hb => ?_) fun m hm =>
      h.covered_of_le hm (fun b hb => ?_) (add_le_add (hfilled _) (hfilled _))
  · rw [hother b hb]
    exact h.closing b hb
  · rw [pendingIntent, pendingIntent, hother b hb]
    exact id
  · rw [exposureAt, exposureAt, hother b (List.mem_of_mem_filter hb)]

/-- A close settled as absent filled nothing. -/
theorem ClosesCovered.settleAbsent (h : db.ClosesCovered) {won : Bool}
    (hsettle : db.settleAbsent oid = .ok (db', won)) : db'.ClosesCovered := by
  unfold Db.settleAbsent at hsettle
  split at hsettle
  · obtain ⟨rfl, -⟩ := Prod.mk.inj (Except.ok.inj hsettle)
    exact h
  next r hr =>
    split at hsettle
    next hunfilled =>
      obtain ⟨r', -, hr', hdb, hget⟩ := rewrites_of_setIntent hsettle fun _ => rfl
      obtain rfl : r = r' := Option.some.inj (hr.symm.trans hr')
      refine h.write ⟨hr, hget, rfl, rfl, by rw [hdb], by rw [hdb]⟩ (fun _ => le_rfl) fun _ => ?_
      have hasked := (checked_of_get hr).requested_pos
      simp only [LiveIntentRecord.exposure, LiveIntentRecord.settledAbsent, hunfilled.1,
        IntentState.over, hunfilled.2.2]
      exact ⟨(by cases ·), Or.inl hasked.le⟩
    · obtain ⟨rfl, -⟩ := Prod.mk.inj (Except.ok.inj hsettle)
      exact h

/-! ## Binding -/

/-- A new binding, of a close that fits. -/
theorem ClosesCovered.bind (h : db.ClosesCovered) {m : MarginReservation} (hm : m ∈ db.reservations)
    {c : LiveIntentRecord} (hc : db.get oid = some c) (hrole : c.role.closing)
    (hfits : db.Fits m oid c.exposure)
    (hnew : db.closeBindings.find CloseBinding.closeClientOrderId oid = none)
    {t : Table CloseBinding CloseBinding.Conflict}
    (hinsert : db.closeBindings.insert ⟨oid, m.id⟩ = some t) :
    ({ db with closeBindings := t } : Db).ClosesCovered := by
  have hrows := Table.rows_of_insert hinsert
  have hbindings : ∀ id, ({ db with closeBindings := t } : Db).bindingsOf id =
      db.bindingsOf id ++ if m.id = id then [⟨oid, m.id⟩] else [] := by
    intro id
    unfold bindingsOf
    rw [hrows, List.filter_append]
    congr 1
    by_cases hid : m.id = id <;> simp [hid]
  obtain ⟨hover, hleft⟩ := boundExposure_of_fits hfits fun b hb heq =>
    absurd heq (Table.find_eq_none_iff.mp hnew b (List.mem_of_mem_filter hb))
  refine ⟨fun b hb => ?_, fun m' hm' => ?_, fun m' hm' => ?_⟩
  · rw [Table.mem_iff, hrows] at hb
    rcases List.mem_append.mp hb with hb | hb
    · exact h.closing b hb
    · rw [List.mem_singleton.mp hb]
      exact ⟨c, hc, hrole⟩
  · rw [boundExposure_eq, hbindings]
    by_cases hid : m.id = m'.id
    · obtain rfl : m = m' := (Table.eq_or_not_conflict hm hm').resolve_right fun hno =>
        hno (MarginReservation.conflict_of_id hid)
      have hat : db.exposureAt oid = c.exposure := by rw [exposureAt, hc]; rfl
      rw [if_pos rfl, List.map_append, List.sum_append]
      calc _ = db.boundExposure m.id + c.exposure := by
            rw [boundExposure_eq, ← hat]
            simp [exposureAt, Db.get, intentRow]
        _ ≤ _ := hleft
    · rw [if_neg hid, List.append_nil]
      have hcovered : db.boundExposure m'.id ≤ db.ownedFills m'.clientOrderId := h.covered m' hm'
      rw [boundExposure_eq] at hcovered
      exact hcovered
  · rw [pendingCloses_eq, hbindings]
    by_cases hid : m.id = m'.id
    · rw [if_pos hid, List.countP_append, ← hid]
      have hzero : (db.bindingsOf m.id).countP
          (fun b => db.pendingIntent b.closeClientOrderId) = 0 :=
        List.countP_eq_zero.mpr fun b hb => by rw [hover b hb]; simp
      exact Nat.add_le_add hzero.le List.countP_le_length
    · rw [if_neg hid, List.append_nil]
      have hcount : db.pendingCloses m'.id ≤ 1 := h.single m' hm'
      rwa [pendingCloses_eq] at hcount

/-- The binding of a close that has none. -/
theorem bindTo_ok {reservationId : Uuid} {bound : Bool}
    (h : db.bindTo oid reservationId = .ok (db', bound)) :
    db' = db ∨ ∃ t, db.closeBindings.find CloseBinding.closeClientOrderId oid = none ∧
      db.closeBindings.insert ⟨oid, reservationId⟩ = some t ∧
        db' = { db with closeBindings := t } := by
  unfold bindTo at h
  split at h
  · exact Or.inl (Prod.mk.inj (Except.ok.inj h)).1.symm
  next hnew =>
    split at h
    · cases h
    next t hinsert =>
      exact Or.inr ⟨t, hnew, hinsert, (Prod.mk.inj (Except.ok.inj h)).1.symm⟩

theorem ClosesCovered.bindRequestedClose (h : db.ClosesCovered) {environment : Environment}
    {expectedRemaining : Option ℚ} {bound : Bool}
    (hbind : db.bindRequestedClose environment oid expectedRemaining = .ok (db', bound)) :
    db'.ClosesCovered := by
  have hsame : ∀ {b : Bool}, (.ok (db, b) : Except DbError (Db × Bool)) = .ok (db', bound) →
      db'.ClosesCovered := fun hb => (Prod.mk.inj (Except.ok.inj hb)).1 ▸ h
  unfold Db.bindRequestedClose at hbind
  split at hbind
  · exact hsame hbind
  next x hx =>
    split at hbind
    next m howners =>
      split at hbind
      · exact hsame hbind
      next q hremaining =>
        split at hbind
        · exact hsame hbind
        next hfits =>
          obtain rfl | ⟨t, hnew, hinsert, rfl⟩ := bindTo_ok hbind
          · exact h
          -- what the query selects : the reservation of a filled entry, without a pending close
          have hm : m ∈ db.closeOwners environment x := howners ▸ List.mem_singleton_self m
          unfold closeOwners at hm
          split at hm
          next hx' =>
            obtain ⟨hmem, hall⟩ := List.mem_filter.mp hm
            simp only [Bool.and_eq_true, Bool.not_eq_true'] at hall
            obtain ⟨⟨⟨⟨⟨-, howns⟩, hfree⟩, -⟩, -⟩, -⟩ := hall
            obtain ⟨e, he, howns⟩ := (Option.any_eq_true _ _).mp howns
            simp only [Bool.and_eq_true, decide_eq_true_eq] at howns
            have hxoid : x.clientOid = oid := (intentRow_eq_some.mp hx).2
            rw [hxoid] at hfree
            have howner : (db.get m.clientOrderId).any
                (fun root => root.marginReservationId = some m.id) = true := by
              rw [Db.get, he]
              exact decide_eq_true howns.1.1.1.1.1.1.1.1
            have hleaves : db.leaves m.clientOrderId x.record.exposure = true := by
              rw [leaves, hremaining, LiveIntentRecord.exposure, hx'.2.1]
              exact decide_eq_true (le_of_not_gt fun hlt => hfits (Or.inl hlt))
            exact h.bind hmem (by rw [Db.get, hx]; rfl) hx'.1 ⟨hfree, howner, hleaves⟩ hnew hinsert
          · cases hm
    · exact hsame hbind

/-- The native close of a plan fits, as `bind_requested_close` would ask. -/
def NativeFits (db : Db) (n : NativePlanClose) : Prop :=
  ∀ e ∈ db.get n.rootOid, ∀ c ∈ db.get n.closeOid, ∃ m ∈ db.reservations,
    e.marginReservationId = some m.id ∧ db.Fits m n.closeOid c.exposure

theorem ClosesCovered.bindNativeClose (h : db.ClosesCovered) {n : NativePlanClose}
    (hbind : db.bindNativeClose n = .ok db') (hfits : db.NativeFits n) : db'.ClosesCovered := by
  unfold Db.bindNativeClose at hbind
  split at hbind
  next e p c he hp hc =>
    split at hbind
    next howned =>
      split at hbind
      · cases hbind
      next id hid =>
        split at hbind
        · split at hbind
          · exact Except.ok.inj hbind ▸ h
          · cases hbind
        next hnew =>
          split at hbind
          · cases hbind
          next t hinsert =>
            obtain rfl := Except.ok.inj hbind
            obtain ⟨m, hm, hid', hfits⟩ := hfits e he c hc
            obtain rfl : m.id = id := Option.some.inj (hid'.symm.trans hid)
            have hrole : c.role = .close := by
              simp only [nativeCloseOwned, Bool.and_eq_true, decide_eq_true_eq] at howned
              exact howned.1.1.1.1.1.1.1.2
            exact h.bind hm hc (by rw [hrole]; rfl) hfits hnew hinsert
    · cases hbind
  · cases hbind

end Db

/-! ## Every run of the store -/

/-- The statements that touch an intent, a binding or a reservation. A transaction of several of
them is a run. -/
inductive ExposureLabel
  | claim (record : LiveIntentRecord)
  | bind (environment : Environment) (closeOid : String) (expectedRemaining : Option ℚ)
  | bindNative (n : NativePlanClose)
  /-- an outcome written over the row of its id, of any age -/
  | write (oid : String) (state : IntentState) (filledQty : ℚ)
  | settleAbsent (oid : String)
  | claimEntryPost (oid : String)
  | claimCancel (oid : String) (managementId : Uuid)
  | claimCancelPost (oid : String)
  /-- anything about dispatches, fills, baselines and reservations -/
  | other

inductive ExposureStep : Db → ExposureLabel → Db → Prop
  | claim {db db' : Db} {now : Instant} {record : LiveIntentRecord} {won : Bool} :
      db.claim now record = .ok (db', won) → ExposureStep db (.claim record) db'
  | bind {db db' : Db} {environment : Environment} {closeOid : String}
      {expectedRemaining : Option ℚ} {bound : Bool} :
      db.bindRequestedClose environment closeOid expectedRemaining = .ok (db', bound) →
        ExposureStep db (.bind environment closeOid expectedRemaining) db'
  | bindNative {db db' : Db} {n : NativePlanClose} :
      db.bindNativeClose n = .ok db' → ExposureStep db (.bindNative n) db'
  | write {db db' : Db} {oid : String} {r r' : LiveIntentRecord} :
      db.WritesOutcome db' oid r r' → ExposureStep db (.write oid r'.state r'.filledQty) db'
  | settleAbsent {db db' : Db} {oid : String} {won : Bool} :
      db.settleAbsent oid = .ok (db', won) → ExposureStep db (.settleAbsent oid) db'
  | claimEntryPost {db db' : Db} {oid : String} {won : Bool} :
      db.claimEntryPost oid = .ok (db', won) → ExposureStep db (.claimEntryPost oid) db'
  | claimCancel {db db' : Db} {oid : String} {managementId : Uuid} {won : Bool} :
      db.claimCancel oid managementId = .ok (db', won) →
        ExposureStep db (.claimCancel oid managementId) db'
  | claimCancelPost {db db' : Db} {oid : String} {won : Bool} :
      db.claimCancelPost oid = .ok (db', won) → ExposureStep db (.claimCancelPost oid) db'
  | other {db db' : Db} :
      db'.intents = db.intents → db'.closeBindings = db.closeBindings →
        (∀ m' ∈ db'.reservations,
          (∃ m ∈ db.reservations, m.id = m'.id ∧ m.clientOrderId = m'.clientOrderId) ∨
            ∀ b ∈ db.closeBindings, b.reservationId ≠ m'.id) → ExposureStep db .other db'

/-- `update` writes an outcome. -/
theorem ExposureStep.of_update {now : Instant} {db db' : Db} {record : LiveIntentRecord}
    (h : db.update now record = .ok db') :
    ExposureStep db (.write record.clientOid record.state record.filledQty) db' := by
  obtain ⟨r, hr, -, hdb, hget⟩ := Db.update_ok h
  have hw : db.WritesOutcome db' record.clientOid r (record.written r) :=
    ⟨hr, hget, rfl, rfl, by rw [hdb], by rw [hdb]⟩
  have hstep := ExposureStep.write hw
  exact hstep

/-- A write lowers no leg of an entry, reopens no bound close that is over, enlarges one only by
what is left, and ends one with no more than it asked for. -/
def Db.KeepsExposure (db : Db) (oid : String) (state : IntentState) (filledQty : ℚ) : Prop :=
  ∀ r ∈ db.get oid, (db.isLeg oid → r.filledQty ≤ filledQty) ∧
    (db.isBound oid →
      if r.state.over then
        state.over ∧ (filledQty ≤ r.filledQty ∨
          ∀ m ∈ db.reservations, db.boundTo oid m.id → db.Fits m oid (filledQty - r.filledQty))
      else state.over → filledQty ≤ r.requestedQty)

instance {db : Db} {oid : String} {state : IntentState} {filledQty : ℚ} :
    Decidable (db.KeepsExposure oid state filledQty) :=
  inferInstanceAs (Decidable (∀ r ∈ db.get oid,
    ((∃ m ∈ db.reservations.rows, oid = m.clientOrderId ∨ oid = limitOid m.clientOrderId) →
        r.filledQty ≤ filledQty) ∧
      ((∃ b ∈ db.closeBindings.rows, b.closeClientOrderId = oid) →
        if r.state.over then
          state.over ∧ (filledQty ≤ r.filledQty ∨ ∀ m ∈ db.reservations.rows,
            (∃ b ∈ db.closeBindings.rows, b.closeClientOrderId = oid ∧ b.reservationId = m.id) →
              db.Fits m oid (filledQty - r.filledQty))
        else state.over → filledQty ≤ r.requestedQty)))

/-- The steps that keep the exposure : the others ask themselves what they must. -/
def Db.Admits (db : Db) : ExposureLabel → Prop
  | .write oid state filledQty => db.KeepsExposure oid state filledQty
  | .bindNative n => db.NativeFits n
  | _ => True

theorem Db.ClosesCovered.step {db db' : Db} {label : ExposureLabel} (h : db.ClosesCovered)
    (hadmits : db.Admits label) (hstep : ExposureStep db label db') : db'.ClosesCovered := by
  cases hstep with
  | claim hclaim => exact h.claim hclaim
  | bind hbind => exact h.bindRequestedClose hbind
  | bindNative hbind => exact h.bindNativeClose hbind hadmits
  | write hw =>
    next oid r r' =>
    obtain ⟨hleg, hbound⟩ := hadmits r hw.get
    refine h.write hw hleg fun hb => ?_
    have hkept := hbound hb
    unfold LiveIntentRecord.exposure
    split at hkept
    next hover =>
      rw [if_pos hover, if_pos hkept.1]
      exact ⟨fun _ => hkept.1, hkept.2.imp id fun hfits => ⟨hover, hfits⟩⟩
    next hopen =>
      rw [if_neg hopen]
      refine ⟨fun hover => absurd hover hopen, Or.inl ?_⟩
      split
      next hover => exact hkept hover
      · exact hw.requested.le
  | settleAbsent hsettle => exact h.settleAbsent hsettle
  | claimEntryPost hclaim =>
    rcases Db.claimEntryPost_ok hclaim with ⟨-, rfl⟩ | ⟨r, hr, hentry, -⟩
    · exact h
    · exact h.rewrite hr rfl rfl rfl (Or.inr hentry)
  | claimCancel hclaim =>
    rcases Db.claimCancel_ok hclaim with ⟨-, rfl⟩ | ⟨r, hr, howned, -⟩
    · exact h
    · refine h.rewrite hr rfl rfl rfl (Or.inr ?_)
      simp only [Db.ownedEntry, Bool.and_eq_true, decide_eq_true_eq] at howned
      exact howned.1.1
  | claimCancelPost hclaim =>
    rcases Db.claimCancelPost_ok hclaim with ⟨-, rfl⟩ | ⟨r, hr⟩
    · exact h
    · exact h.rewrite hr rfl rfl rfl (Or.inl rfl)
  | other hintents hbindings hreservations =>
    have hget : ∀ o, db'.get o = db.get o := fun o => by
      simp only [Db.get, Db.intentRow, hintents]
    refine h.kept hbindings hreservations (fun b hb => ?_) (fun b _ => ?_) fun m hm =>
      h.covered_of_le hm (fun b _ => ?_) ?_
    · rw [hget]
      exact h.closing b hb
    · rw [Db.pendingIntent, Db.pendingIntent, hget]
      exact id
    · rw [Db.exposureAt, Db.exposureAt, hget]
    · simp only [Db.ownedFills, Db.filledAt, hget]
      exact le_rfl

/-- From a ledger in which nothing is bound, in every run whose writes keep the exposure and whose
native closes fit : the closes bound to a reservation take no more than its entry filled, and one of
them at most is pending. -/
theorem exposure_covered {db₀ db : Db} {labels : List ExposureLabel}
    (hunbound : db₀.closeBindings = Table.empty)
    (hrun : Run (Guard ExposureStep Db.Admits) db₀ labels db) (m : MarginReservation)
    (hm : m ∈ db.reservations) :
    ((db.boundCloses (some m.id)).map LiveIntentRecord.exposure).sum ≤
        db.ownedFills m.clientOrderId ∧
      ((db.boundCloses (some m.id)).countP fun c => !c.state.over) ≤ 1 := by
  have hkept : db.ClosesCovered := hrun.inv (fun _ _ _ h hstep => h.step hstep.1 hstep.2)
    (Db.ClosesCovered.of_unbound hunbound)
  exact ⟨hkept.covered m hm, hkept.single m hm⟩

/-! ### A write that comes late -/

/-- Two closes of the filled entry, of 2 and of what is left. -/
def partClose : CloseOrder := ⟨.live, "close-1", "BTCUSDT", .sell, 2⟩

def restClose : CloseOrder := ⟨.live, "close-2", "BTCUSDT", .sell, 1⟩

/-- The first close as a reading of its fill has it. -/
def partCloseFilled : LiveIntentRecord :=
  { partClose.intent with
    providerOrderId := some "order-1"
    state := .filled
    filledQty := 2
    avgPrice := some 100
    providerFillIds := ["fill-1"]
    providerFills :=
      [⟨some "fill-1", some "order-1", some "close-1", some 2, some 100, 0, 0, some 15⟩] }

/-- The first close is bound. -/
def partBound : Except DbError Db := do
  let (db, _) ← filledEntry.claim 10 partClose.intent
  let (db, _) ← db.bindRequestedClose .live partClose.clientOid none
  return db

/-- It is seen filled. -/
def partClosed : Except DbError Db := do
  let db ← partBound
  db.update 20 partCloseFilled

/-- The second close is bound, and the sender of the first one then writes what its order was
answered. -/
def partCloseReopened : Except DbError Db := do
  let db ← partClosed
  let (db, _) ← db.claim 30 restClose.intent
  let (db, _) ← db.bindRequestedClose .live restClose.clientOid none
  db.update 40 { partClose.intent with providerOrderId := some "order-1", state := .submitted }

theorem exists_of_any_ok {ε α : Type} {x : Except ε α} {p : α → Bool}
    (h : x.toOption.any p = true) : ∃ a, x = .ok a ∧ p a = true := by
  cases x with
  | error e => cases h
  | ok a => exact ⟨a, rfl, h⟩

theorem run_partBound {db : Db} (h : partBound = .ok db) :
    Run (Guard ExposureStep Db.Admits) filledEntry
      [.claim partClose.intent, .bind .live "close-1" none] db := by
  obtain ⟨⟨db₁, won⟩, h₁, h⟩ := exists_of_bind_ok h
  obtain ⟨⟨db₂, bound⟩, h₂, h⟩ := exists_of_bind_ok h
  obtain rfl := Except.ok.inj h
  exact .cons ⟨trivial, .claim h₁⟩ (.single ⟨trivial, .bind h₂⟩)

/-- The first close filled 2 of the 3 the entry filled. -/
theorem exposure_covered_partClosed : ∃ db, partClosed = .ok db ∧ ∀ m ∈ db.reservations,
    ((db.boundCloses (some m.id)).map LiveIntentRecord.exposure).sum ≤
        db.ownedFills m.clientOrderId ∧
      ((db.boundCloses (some m.id)).countP fun c => !c.state.over) ≤ 1 := by
  have hbound : partBound.toOption.any (fun db => decide (db.KeepsExposure "close-1" .filled 2) &&
      (db.update 20 partCloseFilled).isOk) = true := by
    decide +kernel
  obtain ⟨db, hdb, h⟩ := exists_of_any_ok hbound
  obtain ⟨hkeeps, hok⟩ := (Bool.and_eq_true _ _).mp h
  have hkeeps : db.KeepsExposure "close-1" .filled 2 := of_decide_eq_true hkeeps
  have hadmits : db.Admits (.write partCloseFilled.clientOid partCloseFilled.state
      partCloseFilled.filledQty) := hkeeps
  obtain ⟨db', hdb'⟩ := exists_of_isOk hok
  have hunbound : filledEntry.closeBindings = Table.empty := rfl
  exact ⟨db', by rw [partClosed, hdb]; exact hdb', exposure_covered hunbound
    ((run_partBound hdb).append (.single ⟨hadmits, .of_update hdb'⟩))⟩

/-- The first close is pending again, beside the second one. -/
theorem reopenedClose_pending :
    ∃ labels db, Run ExposureStep filledEntry labels db ∧ ∃ m ∈ db.reservations,
      ((db.boundCloses (some m.id)).countP fun c => !c.state.over) = 2 := by
  have hpending : partCloseReopened.toOption.any (fun db => db.reservations.rows.any fun m =>
      (db.boundCloses (some m.id)).countP (fun c => !c.state.over) = 2) = true := by
    decide +kernel
  obtain ⟨db, h, hpending⟩ := exists_of_any_ok hpending
  obtain ⟨m, hm, hcount⟩ := List.any_eq_true.mp hpending
  obtain ⟨db₃, h₃, h⟩ := exists_of_bind_ok h
  obtain ⟨db₂, h₂, h₃⟩ := exists_of_bind_ok h₃
  obtain ⟨⟨db₄, won⟩, h₄, h⟩ := exists_of_bind_ok h
  obtain ⟨⟨db₅, bound⟩, h₅, h⟩ := exists_of_bind_ok h
  exact ⟨_, db, (run_partBound h₂).of_guard.append (.cons (.of_update h₃)
    (.cons (.claim h₄) (.cons (.bind h₅) (.single (.of_update h))))), m, hm,
    of_decide_eq_true hcount⟩

end FattyTrader
