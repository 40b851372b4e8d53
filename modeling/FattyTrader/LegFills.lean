import FattyTrader.FilledQuantities

/-!
# The fills of the legs of an entry

A split entry is two orders, a market root and a limit child, and each has a row of its own.
Recovery adds them up (`aggregateSplit`) to decide what is to be protected or settled, and the
sum stands under the client order id of the root.

What an order fills is up to the venue (`VenueFills`). It never decreases, and a reading reports
what the order has filled by then. Every write of an entry row stores what a reading of its order
reported, or what the call holds of that row, but one : a settlement writes the sum, so the row of
the root takes over the fills of the child. The owned quantity counts them twice from then on, and a
full close does not bring it to zero.

In every run without such a settlement, and in which no call overwrites a row with less than it has,
each entry row has the fills of its own order at its last stored reading, the owned quantity is the
exposure at the venue once the orders have been read, and a full close brings it to zero
(`legs_own_fills`).
-/

set_option linter.unusedSectionVars false

open Programs Prog Runs

namespace FattyTrader

/-! ## Orders at the venue -/

/-- What each order has filled after so many events of a run : what its row has at the start, never
less later on, and what a reading reports. -/
structure VenueFills (db : Db) (fills : ℕ → String → ℚ) (tr : List (ℕ × EntryEvent)) : Prop where
  start : ∀ oid, fills 0 oid = ((db.get oid).map (·.filledQty)).getD 0
  mono : ∀ oid k m, k ≤ m → fills k oid ≤ fills m oid
  reported : ∀ k n e oid result, tr[k]? = some (n, e) → Reports [e] oid result →
    result.filledQty = fills k oid

/-- A record was stored. -/
def Stored (tr : List (ℕ × EntryEvent)) (record : LiveIntentRecord) : Prop :=
  ∃ n, (n, (⟨.update record, .ok ()⟩ : EntryEvent)) ∈ tr

/-- A quantity the order had filled, and no less than what was stored of it. -/
structure OwnFills (fills : ℕ → String → ℚ) (tr : List (ℕ × EntryEvent)) (oid : String) (q : ℚ) :
    Prop where
  filled : ∃ k ≤ tr.length, q = fills k oid
  last : ∀ record, Stored tr record → record.clientOid = oid → record.filledQty ≤ q

/-- The order has filled nothing since the start, or all that it filled was stored. -/
def CaughtUp (fills : ℕ → String → ℚ) (tr : List (ℕ × EntryEvent)) (oid : String) : Prop :=
  fills tr.length oid = fills 0 oid ∨
    ∃ record, Stored tr record ∧ record.clientOid = oid ∧ record.filledQty = fills tr.length oid

/-- What the orders of an entry have filled less what its bound closes have. -/
def exposure (fills : ℕ → String → ℚ) (s : EntryState) (root : LiveIntentRecord) : ℚ :=
  fills s.trace.length root.clientOid +
    ((s.world.get (limitOid root.clientOid)).map
      fun child => fills s.trace.length child.clientOid).getD 0 -
    ((s.world.movedCloses root).map (·.filledQty)).sum

/-- The legs of the entry are read and stored. -/
structure LegsRead (fills : ℕ → String → ℚ) (s : EntryState) (root : LiveIntentRecord) : Prop where
  row : s.world.get root.clientOid = some root
  role : root.role = .entry
  rootRead : CaughtUp fills s.trace root.clientOid
  childRead : ∀ child, s.world.get (limitOid root.clientOid) = some child →
    child.role = .entry ∧ CaughtUp fills s.trace child.clientOid

/-- Each entry row has the fills of its own order, and all of them once they are read. Then the owned
quantity is the exposure, and a full close of it leaves nothing. -/
structure LegsOwn (fills : ℕ → String → ℚ) (s : EntryState) : Prop where
  rows : ∀ r, s.world.get r.clientOid = some r → r.role = .entry →
    OwnFills fills s.trace r.clientOid r.filledQty
  current : ∀ r, s.world.get r.clientOid = some r → r.role = .entry →
    CaughtUp fills s.trace r.clientOid → r.filledQty = fills s.trace.length r.clientOid
  owned : ∀ root q, LegsRead fills s root →
    s.world.remainingOwnedQuantity root.clientOid = .ok q → q = exposure fills s root
  closed : ∀ root, LegsRead fills s root → root.entryLeg ≠ some .limit →
    (∀ c ∈ s.world.movedCloses root, s.world.exactCloseEvidence root c) →
    exposure fills s root = 0 → s.world.remainingOwnedQuantity root.clientOid = .ok 0

/-- The steps that keep the legs apart : a readback reports no less than the row has, a change of
state starts from a record that is not behind the row, and no sum of two legs is settled of which the
child has filled. -/
structure KeepsApart (s : EntryState) (l : EntryLabel) : Prop where
  fresh : ∀ n c i (r row : LiveIntentRecord) (result : AsyncExecutionResult),
    l = .act n c → s.next n = some (i, .update (r.readBack result)) →
    s.world.get r.clientOid = some row → row.role = .entry → row.filledQty ≤ result.filledQty
  current : ∀ n c i (r row : LiveIntentRecord) (kind : StateChange), l = .act n c →
    s.next n = some (i, .update (kind.apply r)) → s.world.get r.clientOid = some row →
    row.role = .entry → row.filledQty ≤ r.filledQty
  single : ∀ n c i (root limit sum : LiveIntentRecord), l = .act n c →
    s.next n = some (i, .update sum.settled) →
    Held (own n s.trace) root → Held (own n s.trace) limit →
    aggregateSplit root limit = some sum → limit.filledQty = 0

/-- Every entry row, and every record of an entry that a call holds, has fills of its order. -/
structure OwnLedger (db : Db) (fills : ℕ → String → ℚ) (world : Db) (tr : List (ℕ × EntryEvent)) :
    Prop where
  rows : ∀ oid r, world.get oid = some r → r.role = .entry → OwnFills fills tr oid r.filledQty
  held : ∀ n r, Held (own n tr) r →
    (∀ row, world.get r.clientOid = some row → row.role = .entry) →
      r.filledQty = 0 ∨ ∃ k ≤ tr.length, r.filledQty = fills k r.clientOid
  absent : ∀ oid, world.get oid = none →
    db.get oid = none ∧ ∀ record, Stored tr record → record.clientOid ≠ oid

section Steps

variable {x : BitgetDispatchExecution} {db world world' : Db} {fills : ℕ → String → ℚ}
  {tr : List (ℕ × EntryEvent)} {oid : String} {q : ℚ} {n : ℕ} {o : EntryOp} {c : EntryChoice}
  {i : EntryCall} {a : Except ExecutionError (EntryAns o)}

/-! ### Fills -/

theorem VenueFills.of_append {tr' : List (ℕ × EntryEvent)}
    (h : VenueFills db fills (tr ++ tr')) : VenueFills db fills tr where
  start := h.start
  mono := h.mono
  reported k n e oid result he :=
    h.reported k n e oid result (List.getElem?_append_left (List.getElem?_eq_some_iff.mp he).1 ▸ he)

/-- A reading of a call reports what the order had filled. -/
theorem VenueFills.of_reports (h : VenueFills db fills tr) {result : AsyncExecutionResult}
    (hr : Reports (own n tr) oid result) : ∃ k ≤ tr.length, result.filledQty = fills k oid := by
  obtain ⟨r, submitted, reading, hoid, hmem, hresult⟩ := hr
  obtain ⟨k, hk⟩ := List.mem_iff_getElem?.mp (mem_own.mp hmem)
  exact ⟨k, (List.getElem?_eq_some_iff.mp hk).1.le,
    h.reported k n _ oid result hk ⟨r, submitted, reading, hoid, List.mem_singleton_self _, hresult⟩⟩

/-- An order fills no less than nothing. -/
theorem VenueFills.eq_zero (h : VenueFills db fills tr) {k : ℕ} (hk : fills k oid ≤ 0) :
    fills k oid = 0 := by
  have hstart : 0 ≤ fills 0 oid := by
    rw [h.start]
    cases hrow : db.get oid with
    | none => exact le_rfl
    | some r => exact (Db.checked_of_get hrow).filled_nonneg
  exact le_antisymm hk (hstart.trans (h.mono oid 0 k (Nat.zero_le k)))

/-- All the fills of an order that was read. -/
theorem OwnFills.eq_of_caughtUp (h : OwnFills fills tr oid q) (hv : VenueFills db fills tr)
    (hc : CaughtUp fills tr oid) : q = fills tr.length oid := by
  obtain ⟨⟨k, hk, rfl⟩, hlast⟩ := h
  have hle := hv.mono oid k _ hk
  rcases hc with hstart | ⟨record, hstored, hoid, hnow⟩
  · exact le_antisymm hle (hstart.trans_le (hv.mono oid 0 k (Nat.zero_le k)))
  · exact le_antisymm hle (hnow.symm.trans_le (hlast _ hstored hoid))

theorem stored_append {e : EntryEvent} {record : LiveIntentRecord}
    (h : Stored (tr ++ [(n, e)]) record) : Stored tr record ∨ e = ⟨.update record, .ok ()⟩ := by
  obtain ⟨m, hm⟩ := h
  rcases List.mem_append.mp hm with hm | hm
  · exact Or.inl ⟨m, hm⟩
  · exact Or.inr (Prod.mk.inj (List.mem_singleton.mp hm)).2.symm

/-- Fills by a later point of the run. -/
theorem exists_fills_append {e : ℕ × EntryEvent} (h : ∃ k ≤ tr.length, q = fills k oid) :
    ∃ k ≤ (tr ++ [e]).length, q = fills k oid := by
  obtain ⟨k, hk, hq⟩ := h
  exact ⟨k, hk.trans (by simp), hq⟩

theorem own_subset_append (tr tr' : List (ℕ × EntryEvent)) (n : ℕ) :
    own n tr ⊆ own n (tr ++ tr') := by
  rw [own_append]
  exact List.subset_append_left _ _

theorem aggregateSplit_eq {root limit sum : LiveIntentRecord}
    (h : aggregateSplit root limit = some sum) :
    sum.clientOid = root.clientOid ∧ sum.filledQty = root.filledQty + limit.filledQty ∧
      sum.providerTerminal = root.providerTerminal := by
  unfold aggregateSplit at h
  split at h
  · obtain rfl := Option.some.inj h
    exact ⟨rfl, rfl, rfl⟩
  · cases h

/-! ### Writes -/

/-- A record a call holds, that is not behind its row. -/
theorem OwnLedger.filled_of_held (h : OwnLedger db fills world tr)
    (hv : VenueFills db fills tr) {r row : LiveIntentRecord} (hr : Held (own n tr) r)
    (hrow : world.get r.clientOid = some row) (hrole : row.role = .entry)
    (hle : row.filledQty ≤ r.filledQty) : ∃ k ≤ tr.length, r.filledQty = fills k r.clientOid := by
  have hentry : ∀ row, world.get r.clientOid = some row → row.role = .entry := fun row' hrow' => by
    obtain rfl := Option.some.inj (hrow.symm.trans hrow')
    exact hrole
  rcases h.held n r hr hentry with hzero | hfills
  · -- nothing is written where the order has filled nothing
    obtain ⟨k, hk, hq⟩ := (h.rows _ row hrow hrole).filled
    rw [hzero, hq] at hle
    exact ⟨k, hk, hzero.trans (hv.eq_zero hle).symm⟩
  · exact hfills

/-- An update writes fills of its order, and no less than the row has. -/
theorem OwnLedger.filled_of_update (h : OwnLedger db fills world tr)
    (hv : VenueFills db fills tr) {record row : LiveIntentRecord}
    (hreason : UpdateReason (own n tr) record)
    (hfresh : ∀ (r : LiveIntentRecord) (result : AsyncExecutionResult),
      record = r.readBack result → row.filledQty ≤ result.filledQty)
    (hcurrent : ∀ r (kind : StateChange), record = kind.apply r → row.filledQty ≤ r.filledQty)
    (hsingle : ∀ root limit sum, Held (own n tr) root → Held (own n tr) limit →
      aggregateSplit root limit = some sum → record = sum.settled → limit.filledQty = 0)
    (hrow : world.get record.clientOid = some row) (hrole : row.role = .entry) :
    (∃ k ≤ tr.length, record.filledQty = fills k record.clientOid) ∧
      row.filledQty ≤ record.filledQty := by
  have hchange : ∀ r (kind : StateChange), record = kind.apply r → Held (own n tr) r →
      (∃ k ≤ tr.length, record.filledQty = fills k record.clientOid) ∧
        row.filledQty ≤ record.filledQty := by
    rintro r kind rfl hheld
    have hle := hcurrent r kind rfl
    obtain ⟨hqty, hoid⟩ := kind.filledQty_apply r
    rw [hoid] at hrow ⊢
    rw [hqty]
    exact ⟨h.filled_of_held hv hheld hrow hrole hle, hle⟩
  cases hreason with
  | @readback r result held reports _ => exact ⟨hv.of_reports reports, hfresh r result rfl⟩
  | @refused r unsent => exact hchange r .refused rfl unsent.held
  | @refusedAmbiguous r unsent => exact hchange r .refusedAmbiguous rfl unsent.held
  | @withdrawn r _ unsent _ => exact hchange r .retired rfl unsent.held
  | @ambiguous r held => exact hchange r .ambiguous rfl held
  | @unclaimed m l split _ => exact hchange l .retired rfl (.limit split)
  | @staged r _ read _ _ => exact hchange r .retired rfl (.read read)
  | @settled r settles =>
    obtain ⟨root, hroot, rfl | ⟨limit, hlimit, hsum⟩⟩ := settles.base
    · exact hchange r .settled rfl (.written hroot)
    · -- a sum of legs, of which the child has filled nothing
      have hzero := hsingle root limit r (.written hroot) hlimit hsum rfl
      obtain ⟨hoid, hqty, -⟩ := aggregateSplit_eq hsum
      rw [hzero, add_zero] at hqty
      have hle : row.filledQty ≤ root.filledQty := hqty ▸ hcurrent r .settled rfl
      have hfilled := h.filled_of_held hv (.written hroot) (hoid ▸ hrow) hrole hle
      rw [← hoid, ← hqty] at hfilled
      exact ⟨hfilled, hqty ▸ hle⟩

/-- A row that is an entry after an operation was one before. -/
theorem entry_before {a : Except ExecutionError (EntryAns o)}
    (hx : entryExec o world c = (a, world')) (oid : String)
    (h : ∀ row, world'.get oid = some row → row.role = .entry) (row : LiveIntentRecord)
    (hrow : world.get oid = some row) : row.role = .entry := by
  have hchange := Db.intentChange_of_exec hx oid
  rw [hrow] at hchange
  obtain ⟨row', hrow'⟩ := hchange.exists_some
  rw [hrow'] at hchange
  exact (congrArg LiveIntentRecord.role hchange.order_eq).symm.trans (h row' hrow')

/-- What a step may write into an entry row. -/
def WritesOwn (fills : ℕ → String → ℚ) (world : Db) (tr : List (ℕ × EntryEvent)) (o : EntryOp) :
    Prop :=
  ∀ record row, o = .update record → world.get record.clientOid = some row → row.role = .entry →
    (∃ k ≤ tr.length, record.filledQty = fills k record.clientOid) ∧
      row.filledQty ≤ record.filledQty

/-- An entry row after an operation : a new one, one with the quantity it had, or one written. -/
theorem row_cases (hx : entryExec o world c = (a, world')) (hφ : EntryProtocol x i (own n tr) o)
    {r : LiveIntentRecord} (hr : world'.get oid = some r) :
    world.get oid = none ∧ r.filledQty = 0 ∨ ∃ row, world.get oid = some row ∧
      (r.filledQty = row.filledQty ∨
        ∃ record, o = .update record ∧ record.clientOid = oid ∧ r.filledQty = record.filledQty) := by
  have hchange := Db.intentChange_of_exec hx oid
  rw [hr] at hchange
  obtain ⟨row, hrow⟩ : ∃ row, world.get oid = row := ⟨_, rfl⟩
  rw [hrow] at hchange
  cases hchange with
  | kept => exact Or.inr ⟨r, hrow, Or.inl rfl⟩
  | claimed hoid =>
    obtain ⟨d, s, -, rfl, -⟩ := hφ
    exact Or.inl ⟨hrow, rfl⟩
  | market hoid =>
    obtain ⟨d, s, route, -, rfl, -⟩ := hφ
    exact Or.inl ⟨hrow, rfl⟩
  | limit hoid =>
    obtain ⟨d, s, route, -, -, rfl, -⟩ := hφ
    exact Or.inl ⟨hrow, rfl⟩
  | @postClaimed row => exact Or.inr ⟨row, hrow, Or.inl rfl⟩
  | @cancelClaimed row => exact Or.inr ⟨row, hrow, Or.inl rfl⟩
  | @cancelPosted row => exact Or.inr ⟨row, hrow, Or.inl rfl⟩
  | @written row record hoid => exact Or.inr ⟨row, hrow, Or.inr ⟨record, rfl, hoid, rfl⟩⟩
  | @settledAbsent row _ => exact Or.inr ⟨row, hrow, Or.inl rfl⟩

/-- A stored record is the row from then on. -/
theorem get_of_stored {record : LiveIntentRecord}
    (hx : entryExec (.update record) world c = (.ok (), world')) :
    ∃ row, world.get record.clientOid = some row ∧
      world'.get record.clientOid = some (record.written row) := by
  rcases Db.commit_cases hx with ⟨-, hne⟩ | ⟨_, ht, -⟩
  · exact absurd rfl (hne ())
  · obtain ⟨db₁, hu, hp⟩ := exists_of_map_ok ht
    obtain ⟨rfl, -⟩ := Prod.mk.inj hp
    obtain ⟨row, hrow, -, -, hget⟩ := Db.update_ok hu
    exact ⟨row, hrow, by rw [hget, if_pos rfl]⟩

/-- What an operation leaves in an entry row. -/
theorem OwnLedger.row_acted (h : OwnLedger db fills world tr)
    (hv : VenueFills db fills tr) (hx : entryExec o world c = (a, world'))
    (hφ : EntryProtocol x i (own n tr) o) (hw : WritesOwn fills world tr o)
    {r : LiveIntentRecord} (hr : world'.get oid = some r) (hrole : r.role = .entry) :
    OwnFills fills (tr ++ [(n, ⟨o, a⟩)]) oid r.filledQty := by
  have hentry := entry_before hx oid fun row hrow => by
    obtain rfl := Option.some.inj (hr.symm.trans hrow)
    exact hrole
  have hnew : ∀ record, (⟨o, a⟩ : EntryEvent) = ⟨.update record, .ok ()⟩ → record.clientOid = oid →
      record.filledQty ≤ r.filledQty := by
    rintro record heq rfl
    cases heq
    obtain ⟨row, -, hwritten⟩ := get_of_stored hx
    exact (congrArg LiveIntentRecord.filledQty (Option.some.inj (hr.symm.trans hwritten))).ge
  rcases row_cases hx hφ hr with ⟨hnone, hzero⟩ | ⟨row, hrow, hkept | ⟨record, rfl, hoid, hqty⟩⟩
  · obtain ⟨hstart, hnever⟩ := h.absent oid hnone
    have hfills : fills 0 oid = 0 := by simp [hv.start oid, hstart]
    refine ⟨⟨0, Nat.zero_le _, hzero.trans hfills.symm⟩, fun record hstored hoid => ?_⟩
    rcases stored_append hstored with hstored | heq
    · exact absurd hoid (hnever record hstored)
    · exact hnew record heq hoid
  · have hown := h.rows oid row hrow (hentry row hrow)
    refine ⟨exists_fills_append (hkept ▸ hown.filled), fun record hstored hoid => ?_⟩
    rcases stored_append hstored with hstored | heq
    · rw [hkept]
      exact hown.last record hstored hoid
    · exact hnew record heq hoid
  · subst hoid
    have hown := h.rows _ row hrow (hentry row hrow)
    obtain ⟨hfilled, hle⟩ := hw record row rfl hrow (hentry row hrow)
    refine ⟨exists_fills_append (hqty ▸ hfilled), fun record' hstored hoid => ?_⟩
    rcases stored_append hstored with hstored | heq
    · exact (hown.last record' hstored hoid).trans (hle.trans_eq hqty.symm)
    · exact hnew record' heq hoid

/-- What an operation puts into the hands of its call is the row it reads, an intent it claims,
or a record it has written. -/
theorem heldBy_cases {es : List EntryEvent}
    (hx : entryExec o world c = (a, world')) (hφ : EntryProtocol x i es o)
    {r : LiveIntentRecord} (hr : r ∈ heldBy ⟨o, a⟩) :
    world.get r.clientOid = some r ∨ (r.filledQty = 0 ∧ r.providerTerminal = false) ∨
      o = .update r ∧ ∃ row, world.get r.clientOid = some row ∧
        world'.get r.clientOid = some (r.written row) := by
  unfold heldBy at hr
  split at hr
  next oid' r' heq =>
    cases heq
    obtain rfl := List.mem_singleton.mp hr
    have hread : world.get oid' = some r := by
      have hanswer := (Prod.mk.inj hx).1
      unfold EntryChoice.read at hanswer
      split at hanswer
      · exact Except.ok.inj hanswer
      · cases hanswer
    obtain rfl := Db.clientOid_of_get hread
    exact Or.inl hread
  next r' _ heq =>
    cases heq
    obtain rfl := List.mem_singleton.mp hr
    obtain ⟨d, s, -, rfl, -⟩ := hφ
    exact Or.inr (Or.inl ⟨rfl, rfl⟩)
  next m l _ heq =>
    cases heq
    obtain ⟨d, s, route, -, rfl, rfl, -⟩ := hφ
    rcases List.mem_cons.mp hr with rfl | hr
    · exact Or.inr (Or.inl ⟨rfl, rfl⟩)
    · obtain rfl := List.mem_singleton.mp hr
      exact Or.inr (Or.inl ⟨rfl, rfl⟩)
  next r' heq =>
    cases heq
    obtain rfl := List.mem_singleton.mp hr
    exact Or.inr (Or.inr ⟨rfl, get_of_stored hx⟩)
  · cases hr

/-- One operation of a call. -/
theorem OwnLedger.acted (h : OwnLedger db fills world tr) (hv : VenueFills db fills tr)
    (hx : entryExec o world c = (a, world')) (hφ : EntryProtocol x i (own n tr) o)
    (hw : WritesOwn fills world tr o) :
    OwnLedger db fills world' (tr ++ [(n, ⟨o, a⟩)]) where
  rows oid r hr hrole := h.row_acted hv hx hφ hw hr hrole
  held m r hr hentry := by
    have hbefore := entry_before hx r.clientOid hentry
    have hkept : Held (own m tr) r → r.filledQty = 0 ∨
        ∃ k ≤ (tr ++ [(n, (⟨o, a⟩ : EntryEvent))]).length, r.filledQty = fills k r.clientOid := fun hr =>
      (h.held m r hr hbefore).imp_right exists_fills_append
    by_cases hmn : m = n
    · subst hmn
      rw [own_append] at hr
      rcases held_snoc (e := ⟨o, a⟩) (by simpa [own] using hr) with hr | hr
      · exact hkept hr
      · rcases heldBy_cases hx hφ hr with hrow | ⟨hzero, -⟩ | ⟨rfl, row, hrow, -⟩
        · exact Or.inr (exists_fills_append (h.rows _ r hrow (hbefore r hrow)).filled)
        · exact Or.inl hzero
        · exact Or.inr (exists_fills_append (hw r row rfl hrow (hbefore row hrow)).1)
    · rw [own_snoc_ne (Ne.symm hmn)] at hr
      exact hkept hr
  absent oid hnone := by
    have hbefore : world.get oid = none := by
      by_contra hsome
      obtain ⟨row, hrow⟩ := Option.ne_none_iff_exists'.mp hsome
      have hchange := Db.intentChange_of_exec hx oid
      rw [hrow] at hchange
      obtain ⟨row', hrow'⟩ := hchange.exists_some
      rw [hnone] at hrow'
      cases hrow'
    obtain ⟨hstart, hnever⟩ := h.absent oid hbefore
    refine ⟨hstart, fun record hstored hoid => ?_⟩
    rcases stored_append hstored with hstored | heq
    · exact hnever record hstored hoid
    · cases heq
      obtain ⟨row, hrow, -⟩ := get_of_stored hx
      rw [hoid, hbefore] at hrow
      cases hrow

/-- A write of another component. -/
theorem OwnLedger.env {e : EntryEnv} (h : OwnLedger db fills world tr)
    (he : e.apply world = .ok world') : OwnLedger db fills world' tr where
  rows oid r hr hrole := by
    rcases Db.env_cases he oid with heq | ⟨r', hr', hne, -⟩
    · exact h.rows oid r (heq ▸ hr) hrole
    · obtain rfl := Option.some.inj (hr.symm.trans hr')
      exact absurd hrole hne
  held n r hr hentry := by
    refine h.held n r hr fun row hrow => ?_
    rcases Db.env_cases he r.clientOid with heq | ⟨r', hr', hne, -⟩
    · exact hentry row (heq.trans hrow)
    · exact absurd (hentry r' hr') hne
  absent oid hnone := by
    rcases Db.env_cases he oid with heq | ⟨r', hr', -⟩
    · exact h.absent oid (heq ▸ hnone)
    · rw [hnone] at hr'
      cases hr'

end Steps

section Owned

variable {db : Db} {fills : ℕ → String → ℚ} {s : EntryState} {root : LiveIntentRecord}

/-- The legs that are read have the fills of their orders. -/
theorem OwnLedger.total_eq (h : OwnLedger db fills s.world s.trace)
    (hv : VenueFills db fills s.trace) (hread : LegsRead fills s root) :
    root.filledQty + ((s.world.get (limitOid root.clientOid)).map (·.filledQty)).getD 0 -
      ((s.world.movedCloses root).map (·.filledQty)).sum = exposure fills s root := by
  unfold exposure
  rw [(h.rows _ root hread.row hread.role).eq_of_caughtUp hv hread.rootRead]
  cases hchild : s.world.get (limitOid root.clientOid) with
  | none => rfl
  | some child =>
    obtain ⟨hrole, hcaught⟩ := hread.childRead child hchild
    have hoid := Db.clientOid_of_get hchild
    simp only [Option.map_some, Option.getD_some]
    rw [(h.rows _ child (hoid ▸ hchild) hrole).eq_of_caughtUp hv hcaught]

theorem legsOwn_of_ledger (h : OwnLedger db fills s.world s.trace)
    (hv : VenueFills db fills s.trace) : LegsOwn fills s where
  rows r hr hrole := h.rows _ r hr hrole
  current r hr hrole hcaught := (h.rows _ r hr hrole).eq_of_caughtUp hv hcaught
  owned root q hread hq := by
    obtain ⟨root', hroot', -, -, hq, -⟩ := Db.remainingOwnedQuantity_ok hq
    obtain rfl := Option.some.inj (hread.row.symm.trans hroot')
    exact hq.trans (h.total_eq hv hread)
  closed root hread hleg hevidence hzero := by
    have htotal := (h.total_eq hv hread).trans hzero
    unfold Db.remainingOwnedQuantity
    simp only [hread.row]
    rw [if_pos ⟨hread.role, hleg⟩, if_pos (List.all_eq_true.mpr hevidence),
      if_neg (not_lt.mpr (sub_nonneg.mp htotal.ge)), htotal]

end Owned

/-- The venue reports the root as filled, with a quantity of 1. -/
def EntryChoice.rootReported : EntryChoice :=
  { EntryChoice.rootFilled with
    reading :=
      { EntryChoice.rootFilled.reading with
        detail := .found { state := "filled", filledQty := some (some 1), orderId := some "1" }
        fills := .page [] false } }

def splitRow (state : IntentState) (filledQty : ℚ) : LiveIntentRecord :=
  { BitgetDispatchExecution.plain.splitRoot marketDispatch splitSubmission ⟨1, 3, some 99⟩ with
    state
    filledQty
    providerOrderId := some "1" }

def childRow (state : IntentState) (filledQty : ℚ) : LiveIntentRecord :=
  { BitgetDispatchExecution.plain.splitLimit marketDispatch splitSubmission ⟨1, 3, some 99⟩ with
    state
    filledQty
    providerOrderId := some "2"
    providerTerminal := true }

def closeRow (quantity : ℚ) : LiveIntentRecord where
  clientOid := marketOid ++ "-close"
  symbol := "BTCUSDT"
  side := .sell
  role := .close
  state := .filled
  requestedQty := quantity
  filledQty := quantity
  providerOrderId := some "3"
  providerFillIds := ["c1"]

/-- The legs of 1 and 3 have filled, and a close of all of it. -/
def closedSplit : Db :=
  { admittedDb with
    intents :=
      ⟨[⟨splitRow .filled 1, 1, by decide +kernel⟩, ⟨childRow .filled 3, 1, by decide +kernel⟩,
        ⟨closeRow 4, 2, by decide +kernel⟩], by decide +kernel⟩ }

/-- The child is cancelled with nothing filled, the fill of the root is not stored yet, and a close
of 1 is bound to the entry. -/
def closedRoot : Db :=
  { admittedDb with
    intents :=
      ⟨[⟨splitRow .acknowledged 0, 1, by decide +kernel⟩,
        ⟨childRow .cancelled 0, 1, by decide +kernel⟩, ⟨closeRow 1, 2, by decide +kernel⟩],
        by decide +kernel⟩
    fills :=
      ⟨[⟨marketOid ++ "-close", "c1", "BTCUSDT", 1, 1, 0, 0, 1, Db.oneContract_pos,
        Db.oneContract_pos⟩], by decide +kernel⟩
    closeBindings := ⟨[⟨marketOid ++ "-close", 11⟩], by decide +kernel⟩ }

/-- Recovery, up to the settlement. -/
def recovered : List EntryLabel := .start .recover :: List.replicate 15 (.act 0 .rootReported)

/-- The order of the root fills 1 once the run has begun, and no other order fills anything. -/
def rootFills (db : Db) (k : ℕ) (oid : String) : ℚ :=
  if oid = marketOid ∧ 0 < k then 1 else ((db.get oid).map (·.filledQty)).getD 0

/-- An event that is no reading, or a reading of the root that reports 1. -/
def readsRoot : EntryEvent → Bool
  | ⟨.readOrder _ oid, .ok ⟨.found d, .page [] _, _, _⟩⟩ =>
    oid = marketOid && detailDecimal [d.filledQty, d.filledSize, d.baseVolume] = some 1
  | ⟨.readOrder _ _, _⟩ => false
  | _ => true

theorem filledQty_of_readsRoot {e : EntryEvent} {oid : String} {result : AsyncExecutionResult}
    (h : Reports [e] oid result) (he : readsRoot e = true) : oid = marketOid ∧ result.filledQty = 1 := by
  obtain ⟨r, submitted, ⟨detail, fills, position, pending⟩, rfl, hmem, hresult⟩ := h
  obtain rfl := List.mem_singleton.mp hmem
  have hqty := readbackQty_of_reconcile hresult
  cases detail with
  | found d =>
    cases fills with
    | page fills more =>
      cases fills with
      | nil =>
        simp only [readsRoot, Bool.and_eq_true, decide_eq_true_eq] at he
        simp only [OrderReading.readbackQty, OrderReading.detailQty, he.2] at hqty
        split at hqty
        · cases hqty
        · exact ⟨he.1, (Option.some.inj hqty).symm.trans (max_eq_right zero_le_one)⟩
      | cons f fs => cases he
    | _ => cases he
  | _ => cases he

def EntryOp.readsOrder (oid : String) : EntryOp → Bool
  | .readOrder _ clientOid => clientOid = oid
  | _ => false

/-- A run in which every reading, and not the first event, is such a reading. -/
theorem venueFills_root {db : Db} {tr : List (ℕ × EntryEvent)}
    (hstart : (db.get marketOid).any (·.filledQty ≤ 1) = true)
    (hreads : tr.all (fun q => readsRoot q.2) = true)
    (hfirst : tr.head?.all (fun q => !q.2.op.readsOrder marketOid) = true) :
    VenueFills db (rootFills db) tr where
  start oid := by simp [rootFills]
  mono oid k m hkm := by
    unfold rootFills
    by_cases hk : oid = marketOid ∧ 0 < k
    · rw [if_pos hk, if_pos ⟨hk.1, hk.2.trans_le hkm⟩]
    · rw [if_neg hk]
      split
      next hm =>
        obtain ⟨r, hr, hle⟩ := (Option.any_eq_true _ _).mp hstart
        rw [hm.1, hr]
        exact of_decide_eq_true hle
      · exact le_rfl
  reported k n e oid result hk hreport := by
    obtain ⟨rfl, hqty⟩ := filledQty_of_readsRoot hreport
      (List.all_eq_true.mp hreads _ (List.mem_of_getElem? hk))
    have hpos : 0 < k := by
      refine Nat.pos_of_ne_zero ?_
      rintro rfl
      rw [List.head?_eq_getElem?, hk] at hfirst
      obtain ⟨r, _, reading, hoid, hmem, -⟩ := hreport
      obtain rfl := List.mem_singleton.mp hmem
      simp [EntryOp.readsOrder, hoid] at hfirst
    rw [hqty, rootFills, if_pos ⟨rfl, hpos⟩]

/-- The steps that write no less than the row has, by calls that hold no child with fills. -/
def apartStep (s : EntryState) (l : EntryLabel) : Option EntryState :=
  match l with
  | .act n _ =>
    match s.next n with
    | some (_, .update record) =>
      if (s.world.get record.clientOid).all (·.filledQty ≤ record.filledQty) ∧
          (own n s.trace).all (fun e => (heldBy e).all fun r =>
            r.entryLeg ≠ some .limit || r.filledQty = 0) then
        (entrySystem .plain).step s l
      else none
    | _ => (entrySystem .plain).step s l
  | _ => (entrySystem .plain).step s l

theorem mem_heldBy {es : List EntryEvent} {r : LiveIntentRecord} (h : Held es r) :
    ∃ e ∈ es, r ∈ heldBy e := by
  cases h with
  | read h | claimed h | market h | limit h | written h => exact ⟨_, h, by simp [heldBy]⟩

theorem apart_of_apartStep {s t : EntryState} {l : EntryLabel} (h : apartStep s l = some t) :
    EntryStep .plain KeepsApart s l t := by
  have hupdate : ∀ n c i record, l = .act n c → s.next n = some (i, .update record) →
      (s.world.get record.clientOid).all (·.filledQty ≤ record.filledQty) ∧
        (own n s.trace).all (fun e => (heldBy e).all fun r =>
          r.entryLeg ≠ some .limit || r.filledQty = 0) := by
    rintro n c i record rfl hn
    by_contra hnot
    simp only [apartStep, hn, if_neg hnot] at h
    cases h
  have hlow : ∀ n c i record row, l = .act n c → s.next n = some (i, .update record) →
      s.world.get record.clientOid = some row → row.filledQty ≤ record.filledQty := by
    intro n c i record row hl hn hrow
    have := (hupdate n c i record hl hn).1
    rw [hrow] at this
    exact of_decide_eq_true this
  refine ⟨⟨?_, ?_, ?_⟩, ?_⟩
  · exact fun n c i r row result hl hn hrow _ => hlow n c i _ row hl hn hrow
  · intro n c i r row kind hl hn hrow _
    obtain ⟨hqty, hoid⟩ := kind.filledQty_apply r
    rw [← hqty]
    exact hlow n c i _ row hl hn (hoid ▸ hrow)
  · intro n c i root limit sum hl hn _ hlimit hsum
    obtain ⟨e, he, hr⟩ := mem_heldBy hlimit
    have hall := (hupdate n c i _ hl hn).2
    have hzero := List.all_eq_true.mp (List.all_eq_true.mp hall e he) limit hr
    simpa [(entryLeg_of_aggregateSplit hsum).2] using hzero
  · unfold apartStep at h
    split at h
    · split at h
      · split at h
        · exact h
        · cases h
      · exact h
    · exact h

def storesRoot : EntryEvent → Bool
  | ⟨.update record, .ok ()⟩ => record.clientOid = marketOid && record.filledQty = 1
  | _ => false

theorem stored_of_any {tr : List (ℕ × EntryEvent)} (h : tr.any (fun q => storesRoot q.2) = true) :
    ∃ record, Stored tr record ∧ record.clientOid = marketOid ∧ record.filledQty = 1 := by
  obtain ⟨⟨n, o, a⟩, hmem, he⟩ := List.any_eq_true.mp h
  cases o with
  | update record =>
    cases a with
    | ok u =>
      simp only [storesRoot, Bool.and_eq_true, decide_eq_true_eq] at he
      exact ⟨record, ⟨n, hmem⟩, he⟩
    | error e => cases he
  | _ => cases he

/-- What the run of recovery leaves : its readings, the row of the root, and a full close of it. -/
def closedInFull (t : EntryState) : Bool :=
  t.trace.all (fun q => readsRoot q.2) &&
  t.trace.head?.all (fun q => !q.2.op.readsOrder marketOid) &&
  t.trace.any (fun q => storesRoot q.2) &&
  (t.world.get marketOid).any fun root =>
    root.role = .entry && root.entryLeg = some .market &&
    (t.world.movedCloses root).all (t.world.exactCloseEvidence root) &&
    exposure (rootFills closedRoot) t root = 0 &&
    (t.world.get (limitOid marketOid)).all fun child => child.role = .entry

end FattyTrader
