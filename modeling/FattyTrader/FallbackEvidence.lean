import FattyTrader.FillRows
import FattyTrader.FallbackFills

/-!
# The evidence of a fallback close

A call of `_persist_close_fills` gathers the fills of a close, inserts them, and writes the intent
and the row from the whole ledger of the close, in one transaction. So after every call the ledger
of a close sums to what its intent filled (`Accounted`), and the row is triggered where this is all
it requested and the position is flat.

The same rows again are the same call, with one exception. A close whose order id is unknown takes
the id of the first fill that names it, and only from then on the fills that carry the id alone.
Such fills before it are skipped by the first call and taken by the second (`OrderKnown`).
-/

set_option linter.unusedSectionVars false

open Tables Runs

namespace FattyTrader

/-- The arguments of a call, with the time of its clock. -/
structure CloseCall where
  now : Instant
  id : String
  symbol : String
  rows : List (Option FallbackFill)
  flat : Bool

namespace FallbackWorld

/-- A call of `_persist_close_fills`. -/
def persistCall (w : FallbackWorld) (c : CloseCall) :
    Except FallbackError (FallbackWorld × Bool) :=
  w.persistCloseFills c.now c.id c.symbol c.rows c.flat

/-- The world after a call ; one that raises is rolled back. -/
def persisted (w : FallbackWorld) (c : CloseCall) : FallbackWorld :=
  match w.persistCall c with
  | .ok (w', _) => w'
  | .error _ => w

/-- The quantity of a close in the ledger. -/
def ledgerQuantity (db : Db) (clientOid : String) : ℚ :=
  ((ledgerOf db clientOid).map FillRow.quantity).sum

/-- The ledger of a close sums to what its intent filled, which is no more than it requested. -/
def Accounted (w : FallbackWorld) (clientOid : String) : Prop :=
  ∀ r, w.db.get clientOid = some r → r.role = .close →
    ledgerQuantity w.db clientOid = r.filledQty ∧ r.filledQty ≤ r.requestedQty

/-- No fill before the one a call takes the order id from carries that id alone. -/
def OrderKnown (w : FallbackWorld) (c : CloseCall) : Prop :=
  ∀ owner r, w.closeTarget c.id c.symbol = some (owner, r) → r.providerOrderId = none →
    ∀ pre fill post t, c.rows = pre ++ some fill :: post →
      (∀ g, some g ∈ pre → g.accepted r none = none) → fill.accepted r none = some t →
        ∀ g, some g ∈ pre → g.accepted r (some t.2.1) = none

/-! ## Gathering again -/

section Gather

variable {w w₂ : FallbackWorld} {r r₂ : LiveIntentRecord} {e e' : CloseEvidence}
  {fill : FallbackFill} {rows : List (Option FallbackFill)}
  {t : String × String × ℚ × ℚ × ℚ × Instant}

/-- An accepted fill gives its order id, and is accepted under it. -/
theorem accepted_adopted {p : Option String} (h : fill.accepted r p = some t) :
    p.getD t.2.1 = t.2.1 ∧ fill.accepted r (some t.2.1) = some t := by
  unfold FallbackFill.accepted at h ⊢
  split at h
  next fee orderId fillId quantity price time hfee horder hfill hquantity hprice htime =>
    split_ifs at h with hcond
    obtain rfl := Option.some.inj h
    obtain ⟨-, hclient, hp, hrest⟩ := hcond
    refine ⟨?_, ?_⟩
    · rcases hp with rfl | rfl <;> rfl
    · rw [if_pos ⟨Or.inr rfl, hclient, Or.inr rfl, hrest⟩]
  · cases h

/-- Acceptance looks at the identity of the close only. -/
theorem accepted_congr (hoid : r₂.clientOid = r.clientOid) (hsymbol : r₂.symbol = r.symbol)
    (hside : r₂.side = r.side) (p : Option String) : fill.accepted r₂ p = fill.accepted r p := by
  unfold FallbackFill.accepted
  rw [hoid, hsymbol, hside]

/-- What one accepted fill adds, where it contradicts nothing. -/
def addFill (e : CloseEvidence) (fill : FallbackFill)
    (t : String × String × ℚ × ℚ × ℚ × Instant) : CloseEvidence where
  providerOrderId := some (e.providerOrderId.getD t.2.1)
  fingerprints := (t.1, t.2.2.1, t.2.2.2.1, t.2.2.2.2.1) :: e.fingerprints
  fills := match fill.realizedPnl with
    | none => e.fills
    | some pnl => e.fills ++
      [⟨some t.1, some t.2.1, fill.clientOid, some t.2.2.1, some t.2.2.2.1, t.2.2.2.2.1, pnl,
        some t.2.2.2.2.2⟩]

/-- The fingerprint agrees with the gathered ones and with the ledger. -/
def Agrees (w : FallbackWorld) (clientOid : String) (e : CloseEvidence)
    (t : String × String × ℚ × ℚ × ℚ × Instant) : Prop :=
  (∀ p ∈ e.fingerprints, p.1 = t.1 → p.2 = (t.2.2.1, t.2.2.2.1, t.2.2.2.2.1)) ∧
    ∀ row, w.db.fills.find FillRow.providerFillId t.1 = some row →
      row.clientOrderId = clientOid ∧
        (row.quantity, row.price, row.fee) = (t.2.2.1, t.2.2.2.1, t.2.2.2.2.1)

/-- One fill : skipped, or added where it agrees. -/
theorem gatherFill_ok_iff :
    w.gatherFill r e fill = .ok e' ↔
      (fill.accepted r e.providerOrderId = none ∧ e' = e) ∨
        ∃ t, fill.accepted r e.providerOrderId = some t ∧ w.Agrees r.clientOid e t ∧
          e' = addFill e fill t := by
  unfold gatherFill
  cases ht : fill.accepted r e.providerOrderId with
  | none => simp [eq_comm]
  | some t =>
    obtain ⟨fillId, orderId, quantity, price, fee, time⟩ := t
    simp only [reduceCtorEq, false_and, false_or, Option.some.injEq, exists_eq_left']
    constructor
    · intro h
      split_ifs at h with hprint howner hdurable
      refine ⟨⟨fun p hp hid => ?_, fun row hrow => ?_⟩, (Except.ok.inj h).symm⟩
      · by_contra hne
        exact hprint (List.any_eq_true.mpr ⟨p, hp, by simpa [hid] using hne⟩)
      · rw [hrow] at howner hdurable
        simp only [Option.any_some, decide_eq_true_eq, not_not] at howner hdurable
        exact ⟨howner, hdurable⟩
    · rintro ⟨⟨hprints, hdurable⟩, rfl⟩
      have hnone : (e.fingerprints.any fun p => p.1 = fillId && p.2 ≠ (quantity, price, fee)) =
          false := by
        rw [List.any_eq_false]
        intro p hp
        by_cases hid : p.1 = fillId
        · simp [hid, hprints p hp hid]
        · simp [hid]
      rw [if_neg (by rw [hnone]; exact Bool.false_ne_true)]
      cases hrow : w.db.fills.find FillRow.providerFillId fillId with
      | none => rfl
      | some row =>
        obtain ⟨howner, hsame⟩ := hdurable row hrow
        rw [if_neg (by simp [howner]), if_neg (by simpa using hsame)]
        rfl

theorem gatherFills_cons_none :
    w.gatherFills r e (none :: rows) = w.gatherFills r e rows := by
  rw [gatherFills]

theorem gatherFills_cons_some :
    w.gatherFills r e (some fill :: rows) = .ok e' ↔
      ∃ e₁, w.gatherFill r e fill = .ok e₁ ∧ w.gatherFills r e₁ rows = .ok e' := by
  rw [gatherFills]
  cases w.gatherFill r e fill with
  | error err => simp
  | ok e₁ => simp

/-- An order id, once known, stays. -/
theorem providerOrderId_gatherFills {p : String} : ∀ {rows : List (Option FallbackFill)}
    {e : CloseEvidence}, e.providerOrderId = some p → w.gatherFills r e rows = .ok e' →
      e'.providerOrderId = some p
  | [], _, hp, h => Except.ok.inj h ▸ hp
  | none :: rows, _, hp, h => by
    rw [gatherFills_cons_none] at h
    exact providerOrderId_gatherFills hp h
  | some fill :: rows, e, hp, h => by
    obtain ⟨e₁, hfill, hrest⟩ := gatherFills_cons_some.mp h
    refine providerOrderId_gatherFills ?_ hrest
    rcases gatherFill_ok_iff.mp hfill with ⟨-, rfl⟩ | ⟨t, -, -, rfl⟩
    · exact hp
    · simp [addFill, hp]

/-- What was gathered stays. -/
theorem fingerprints_gatherFills : ∀ {rows : List (Option FallbackFill)} {e : CloseEvidence},
    w.gatherFills r e rows = .ok e' → e.fingerprints ⊆ e'.fingerprints
  | [], _, h => Except.ok.inj h ▸ List.Subset.refl _
  | none :: rows, _, h => by
    rw [gatherFills_cons_none] at h
    exact fingerprints_gatherFills h
  | some fill :: rows, e, h => by
    obtain ⟨e₁, hfill, hrest⟩ := gatherFills_cons_some.mp h
    refine List.Subset.trans ?_ (fingerprints_gatherFills hrest)
    rcases gatherFill_ok_iff.mp hfill with ⟨-, rfl⟩ | ⟨t, -, -, rfl⟩
    · exact List.Subset.refl _
    · exact List.subset_cons_self _ _

/-- The same rows gather the same from a ledger that agrees with what they say. -/
theorem gatherFills_again (hoid : r₂.clientOid = r.clientOid) (hsymbol : r₂.symbol = r.symbol)
    (hside : r₂.side = r.side) : ∀ {rows : List (Option FallbackFill)} {e : CloseEvidence},
    w.gatherFills r e rows = .ok e' →
      (∀ p ∈ e'.fingerprints, ∀ row, w₂.db.fills.find FillRow.providerFillId p.1 = some row →
        row.clientOrderId = r.clientOid ∧ (row.quantity, row.price, row.fee) = p.2) →
      w₂.gatherFills r₂ e rows = .ok e'
  | [], _, h, _ => h
  | none :: rows, _, h, hledger => by
    rw [gatherFills_cons_none] at h ⊢
    exact gatherFills_again hoid hsymbol hside h hledger
  | some fill :: rows, e, h, hledger => by
    obtain ⟨e₁, hfill, hrest⟩ := gatherFills_cons_some.mp h
    refine gatherFills_cons_some.mpr ⟨e₁, ?_, gatherFills_again hoid hsymbol hside hrest hledger⟩
    rw [gatherFill_ok_iff, accepted_congr hoid hsymbol hside, hoid]
    rcases gatherFill_ok_iff.mp hfill with hskip | ⟨t, ht, hagrees, rfl⟩
    · exact Or.inl hskip
    · exact Or.inr ⟨t, ht, ⟨hagrees.1, fun row hrow => hledger _
        (fingerprints_gatherFills hrest List.mem_cons_self) row hrow⟩, rfl⟩

/-- An order id that was not known is the one of the first accepted fill. -/
theorem exists_adopted {p : String} : ∀ {rows : List (Option FallbackFill)} {e : CloseEvidence},
    e.providerOrderId = none → w.gatherFills r e rows = .ok e' → e'.providerOrderId = some p →
      ∃ pre fill post t, rows = pre ++ some fill :: post ∧
        (∀ g, some g ∈ pre → g.accepted r none = none) ∧ fill.accepted r none = some t ∧ t.2.1 = p
  | [], e, he, h, hp => by
    obtain rfl := Except.ok.inj h
    cases he.symm.trans hp
  | none :: rows, e, he, h, hp => by
    rw [gatherFills_cons_none] at h
    obtain ⟨pre, fill, post, t, rfl, hpre, ht, htp⟩ := exists_adopted he h hp
    refine ⟨none :: pre, fill, post, t, rfl, fun g hg => ?_, ht, htp⟩
    rcases List.mem_cons.mp hg with hg | hg
    · cases hg
    · exact hpre g hg
  | some fill :: rows, e, he, h, hp => by
    obtain ⟨e₁, hfill, hrest⟩ := gatherFills_cons_some.mp h
    rcases gatherFill_ok_iff.mp hfill with ⟨hskip, rfl⟩ | ⟨t, ht, -, rfl⟩
    · obtain ⟨pre, fill', post, t, rfl, hpre, ht, htp⟩ := exists_adopted he hrest hp
      refine ⟨some fill :: pre, fill', post, t, rfl, fun g hg => ?_, ht, htp⟩
      rcases List.mem_cons.mp hg with hg | hg
      · obtain rfl := Option.some.inj hg
        exact he ▸ hskip
      · exact hpre g hg
    · have hadopted : (addFill e fill t).providerOrderId = some t.2.1 := by
        rw [addFill, he]
        rfl
      refine ⟨[], fill, rows, t, rfl, fun g hg => by simp at hg, he ▸ ht, ?_⟩
      exact Option.some.inj ((providerOrderId_gatherFills hadopted hrest).symm.trans hp)

/-- Rows whose order id is known from their first fill on gather the same once it is known. -/
theorem gatherFills_adopted {p : String} :
    ∀ {rows : List (Option FallbackFill)} {e : CloseEvidence}, e.providerOrderId = none →
      w.gatherFills r e rows = .ok e' → e'.providerOrderId = some p →
      (∀ pre fill post t, rows = pre ++ some fill :: post →
        (∀ g, some g ∈ pre → g.accepted r none = none) → fill.accepted r none = some t →
          ∀ g, some g ∈ pre → g.accepted r (some t.2.1) = none) →
      w.gatherFills r { e with providerOrderId := some p } rows = .ok e'
  | [], e, he, h, hp, _ => by
    obtain rfl := Except.ok.inj h
    cases he.symm.trans hp
  | none :: rows, e, he, h, hp, hknown => by
    rw [gatherFills_cons_none] at h ⊢
    refine gatherFills_adopted he h hp fun pre fill post t hrows hpre ht g hg => ?_
    refine hknown (none :: pre) fill post t (by rw [hrows]; rfl) (fun g' hg' => ?_) ht g
      (List.mem_cons_of_mem _ hg)
    rcases List.mem_cons.mp hg' with hg' | hg'
    · cases hg'
    · exact hpre g' hg'
  | some fill :: rows, e, he, h, hp, hknown => by
    obtain ⟨e₁, hfill, hrest⟩ := gatherFills_cons_some.mp h
    rw [gatherFills_cons_some]
    rcases gatherFill_ok_iff.mp hfill with ⟨hskip, rfl⟩ | ⟨t, ht, hagrees, rfl⟩
    · rw [he] at hskip
      have hskips : ∀ {pre : List (Option FallbackFill)},
          (∀ g, some g ∈ pre → g.accepted r none = none) →
            ∀ g, some g ∈ some fill :: pre → g.accepted r none = none := by
        intro pre hpre g hg
        rcases List.mem_cons.mp hg with hg | hg
        · obtain rfl := Option.some.inj hg
          exact hskip
        · exact hpre g hg
      refine ⟨{ e₁ with providerOrderId := some p }, gatherFill_ok_iff.mpr (Or.inl ⟨?_, rfl⟩),
        gatherFills_adopted he hrest hp fun pre fill' post t hrows hpre ht g hg => ?_⟩
      · obtain ⟨pre, fill', post, t, rfl, hpre, ht, rfl⟩ := exists_adopted he hrest hp
        exact hknown (some fill :: pre) fill' post t rfl (hskips hpre) ht fill List.mem_cons_self
      · exact hknown (some fill :: pre) fill' post t (by rw [hrows]; rfl) (hskips hpre) ht g
          (List.mem_cons_of_mem _ hg)
    · rw [he] at ht
      have hadopted : (addFill e fill t).providerOrderId = some t.2.1 := by
        rw [addFill, he]
        rfl
      obtain rfl : t.2.1 = p :=
        Option.some.inj ((providerOrderId_gatherFills hadopted hrest).symm.trans hp)
      refine ⟨addFill e fill t,
        gatherFill_ok_iff.mpr (Or.inr ⟨t, (accepted_adopted ht).2, hagrees, ?_⟩), hrest⟩
      simp only [addFill, he, Option.getD_none, Option.getD_some]

end Gather

/-! ## What a call writes -/

/-- The intent with the evidence of the ledger. -/
def closeWritten (r' stored : LiveIntentRecord) : LiveIntentRecord :=
  { stored with
    state := r'.state
    providerOrderId := r'.providerOrderId
    filledQty := r'.filledQty
    avgPrice := r'.avgPrice
    fee := r'.fee
    providerFillIds := r'.providerFillIds }

/-- The row of a close, confirmed or waiting for evidence. -/
def closeShown (confirmed : Bool) (r' : LiveIntentRecord) (row : FallbackRow) : FallbackRow :=
  { row with
    state := if confirmed then .triggered else .closing
    closeReason := some (if confirmed then "close-confirmed" else "close-evidence-pending")
    closePrice := if confirmed then r'.avgPrice else none
    closeOrderId := some ((r'.providerOrderId.filter (· ≠ "")).getD r'.clientOid) }

/-- The intent `closeLedger` rewrites to. -/
def closeRecord (r : LiveIntentRecord) (providerOrderId : Option String) (ledger : List FillRow) :
    LiveIntentRecord :=
  { r with
    state :=
      if (ledger.map FillRow.quantity).sum = r.requestedQty then .filled else .partiallyFilled
    providerOrderId := providerOrderId
    filledQty := (ledger.map FillRow.quantity).sum
    avgPrice := some ((ledger.map fun f => f.quantity * f.price).sum /
      (ledger.map FillRow.quantity).sum)
    fee := (ledger.map FillRow.fee).sum
    providerFillIds := ledger.map FillRow.providerFillId }

/-- The rows of the gathered fills. -/
def closeRows (now : Instant) (r : LiveIntentRecord) (e : CloseEvidence) : List FillRow :=
  e.fills.filterMap (Db.providerFillRow now { r with state := .unknown })

section Writes

variable {w w' : FallbackWorld} {c : CloseCall} {now : Instant} {r r' : LiveIntentRecord}
  {rows : List (Option FallbackFill)} {db : Db} {won : Bool}

/-- The ledger of a close that may be written. -/
structure CloseBooked (db : Db) (r : LiveIntentRecord) : Prop where
  nonempty : ledgerOf db r.clientOid ≠ []
  provider : ∀ f ∈ ledgerOf db r.clientOid, statusDerived f.providerFillId = false
  pos : 0 < ledgerQuantity db r.clientOid
  le : ledgerQuantity db r.clientOid ≤ r.requestedQty

theorem closeLedger_none_iff : w.closeLedger now r rows = .ok none ↔
    ∃ e, w.gatherFills r ⟨r.providerOrderId, [], []⟩ rows = .ok e ∧
      ledgerOf (w.db.insertRows r.clientOid (closeRows now r e)) r.clientOid = [] := by
  unfold closeLedger
  cases w.gatherFills r ⟨r.providerOrderId, [], []⟩ rows with
  | error e => simp
  | ok e =>
    simp only [Db.insertProviderFills_eq, Except.ok.injEq, exists_eq_left']
    constructor
    · intro h
      split at h
      next hempty => exact List.isEmpty_iff.mp hempty
      · split at h
        · cases h
        split at h <;> cases h
    · intro h
      exact if_pos (List.isEmpty_iff.mpr h)

theorem closeLedger_some_iff : w.closeLedger now r rows = .ok (some (db, r')) ↔
    ∃ e, w.gatherFills r ⟨r.providerOrderId, [], []⟩ rows = .ok e ∧
      db = w.db.insertRows r.clientOid (closeRows now r e) ∧ CloseBooked db r ∧
      r' = closeRecord r e.providerOrderId (ledgerOf db r.clientOid) := by
  unfold closeLedger
  cases w.gatherFills r ⟨r.providerOrderId, [], []⟩ rows with
  | error e => simp
  | ok e =>
    simp only [Db.insertProviderFills_eq, Except.ok.injEq, exists_eq_left']
    constructor
    · intro h
      split at h
      · cases h
      next hempty =>
        split at h
        · cases h
        next hderived =>
          split at h
          · cases h
          next hquantity =>
            obtain ⟨rfl, rfl⟩ := Prod.mk.inj (Option.some.inj (Except.ok.inj h))
            rw [not_or, not_le, not_lt] at hquantity
            refine ⟨rfl, ⟨fun hnil => hempty (List.isEmpty_iff.mpr hnil), fun f hf => ?_,
              hquantity.1, hquantity.2⟩, rfl⟩
            exact Bool.eq_false_iff.mpr fun hd => hderived (List.any_eq_true.mpr ⟨f, hf, hd⟩)
    · rintro ⟨rfl, hbooked, rfl⟩
      refine (if_neg fun h => hbooked.nonempty (List.isEmpty_iff.mp h)).trans ?_
      refine (if_neg fun h => ?_).trans ((if_neg fun h => ?_).trans rfl)
      · obtain ⟨f, hf, hd⟩ := List.any_eq_true.mp h
        exact absurd hd (by simp [hbooked.provider f hf])
      · rcases h with h | h
        · exact absurd hbooked.pos (not_lt.mpr h)
        · exact absurd hbooked.le (not_le.mpr h)

/-- A call that returns wrote nothing, or the ledger, the intent and the row together. -/
theorem persistCall_ok (h : w.persistCall c = .ok (w', won)) :
    (w' = w ∧ won = false ∧ (w.closeTarget c.id c.symbol = none ∨
      ∃ owner r, w.closeTarget c.id c.symbol = some (owner, r) ∧
        w.closeLedger c.now r c.rows = .ok none)) ∨
    ∃ owner r db r' db', w.closeTarget c.id c.symbol = some (owner, r) ∧
      w.closeLedger c.now r c.rows = .ok (some (db, r')) ∧
      db.setIntent r.clientOid (closeWritten r') = .ok db' ∧
      won = (decide (r'.state = .filled) && c.flat) ∧
      ({ w with db := db' } : FallbackWorld).setFallback c.id (closeShown won r') = .ok w' := by
  unfold persistCall persistCloseFills at h
  split at h
  next htarget =>
    obtain ⟨rfl, rfl⟩ := Prod.mk.inj (Except.ok.inj h)
    exact Or.inl ⟨rfl, rfl, Or.inl htarget⟩
  next owner r htarget =>
    split at h
    · cases h
    next hledger =>
      obtain ⟨rfl, rfl⟩ := Prod.mk.inj (Except.ok.inj h)
      exact Or.inl ⟨rfl, rfl, Or.inr ⟨owner, r, htarget, hledger⟩⟩
    next db r' hledger =>
      split at h
      · cases h
      next db' hset =>
        dsimp only at h
        obtain ⟨w₁, hw₁, hp⟩ := exists_of_map_ok h
        obtain ⟨rfl, rfl⟩ := Prod.mk.inj hp
        obtain ⟨e, -, -, -, hr'⟩ := closeLedger_some_iff.mp hledger
        have hoid : r'.clientOid = r.clientOid := by rw [hr']; rfl
        refine Or.inr ⟨owner, r, db, r', db', htarget, hledger, hset, rfl, ?_⟩
        unfold closeShown
        rw [hoid]
        exact hw₁

/-- The other way : what is booked is written. -/
theorem persistCall_of_booked {owner : FallbackRow} {db' : Db}
    (htarget : w.closeTarget c.id c.symbol = some (owner, r))
    (hledger : w.closeLedger c.now r c.rows = .ok (some (db, r')))
    (hset : db.setIntent r.clientOid (closeWritten r') = .ok db')
    (hrow : ({ w with db := db' } : FallbackWorld).setFallback c.id
      (closeShown (decide (r'.state = .filled) && c.flat) r') = .ok w') :
    w.persistCall c = .ok (w', decide (r'.state = .filled) && c.flat) := by
  obtain ⟨e, -, -, -, hr'⟩ := closeLedger_some_iff.mp hledger
  have hoid : r'.clientOid = r.clientOid := by rw [hr']; rfl
  unfold closeShown at hrow
  rw [hoid] at hrow
  unfold closeWritten at hset
  simp only [persistCall, persistCloseFills, htarget, hledger, hset, hrow]
  rfl

end Writes

/-! ## What was gathered -/

section Gathered

variable {w w₂ : FallbackWorld} {r : LiveIntentRecord} {e e' : CloseEvidence}
  {rows : List (Option FallbackFill)} {now now' : Instant}

/-- What the loop keeps of its evidence : ids of the venue, one fingerprint for each, which is the
one of the ledger, and every fill to insert is one of them. -/
structure Gathered (w : FallbackWorld) (clientOid : String) (e : CloseEvidence) : Prop where
  provider : ∀ p ∈ e.fingerprints, statusDerived p.1 = false
  single : ∀ p ∈ e.fingerprints, ∀ q ∈ e.fingerprints, q.1 = p.1 → q = p
  durable : ∀ p ∈ e.fingerprints, ∀ row, w.db.fills.find FillRow.providerFillId p.1 = some row →
    row.clientOrderId = clientOid ∧ (row.quantity, row.price, row.fee) = p.2
  fills : ∀ f ∈ e.fills, ∃ p ∈ e.fingerprints, f.fillId = some p.1 ∧ f.quantity = some p.2.1 ∧
    f.price = some p.2.2.1 ∧ |f.fee| = p.2.2.2 ∧ f.time.isSome ∧ 0 < p.2.1 ∧ 0 < p.2.2.1

theorem gathered_nil {p : Option String} : w.Gathered r.clientOid ⟨p, [], []⟩ where
  provider p hp := by simp at hp
  single p hp := by simp at hp
  durable p hp := by simp at hp
  fills f hf := by simp at hf

/-- What an accepted fill says. -/
theorem accepted_values {fill : FallbackFill} {p : Option String}
    {t : String × String × ℚ × ℚ × ℚ × Instant} (h : fill.accepted r p = some t) :
    statusDerived t.1 = false ∧ 0 < t.2.2.1 ∧ 0 < t.2.2.2.1 ∧ |t.2.2.2.2.1| = t.2.2.2.2.1 := by
  unfold FallbackFill.accepted at h
  split at h
  · split_ifs at h with hcond
    obtain rfl := Option.some.inj h
    obtain ⟨-, -, -, -, -, -, hquantity, hprice, -, -, hderived⟩ := hcond
    exact ⟨hderived, hquantity, hprice, abs_abs _⟩
  · cases h

theorem Gathered.step {fill : FallbackFill} (he : w.Gathered r.clientOid e)
    (h : w.gatherFill r e fill = .ok e') : w.Gathered r.clientOid e' := by
  rcases gatherFill_ok_iff.mp h with ⟨-, rfl⟩ | ⟨t, ht, ⟨hprints, hdurable⟩, rfl⟩
  · exact he
  obtain ⟨hderived, hquantity, hprice, hfee⟩ := accepted_values ht
  constructor
  · intro p hp
    rcases List.mem_cons.mp hp with rfl | hp
    · exact hderived
    · exact he.provider p hp
  · intro p hp q hq hid
    rcases List.mem_cons.mp hp with rfl | hp <;> rcases List.mem_cons.mp hq with rfl | hq
    · rfl
    · exact Prod.ext hid (hprints q hq hid)
    · exact (Prod.ext hid.symm (hprints p hp hid.symm)).symm
    · exact he.single p hp q hq hid
  · intro p hp
    rcases List.mem_cons.mp hp with rfl | hp
    · exact hdurable
    · exact he.durable p hp
  · intro f hf
    have hold : ∀ f ∈ e.fills, ∃ p ∈ (addFill e fill t).fingerprints, f.fillId = some p.1 ∧
        f.quantity = some p.2.1 ∧ f.price = some p.2.2.1 ∧ |f.fee| = p.2.2.2 ∧ f.time.isSome ∧
          0 < p.2.1 ∧ 0 < p.2.2.1 := by
      intro f hf
      obtain ⟨p, hp, hrest⟩ := he.fills f hf
      exact ⟨p, List.mem_cons_of_mem _ hp, hrest⟩
    cases hpnl : fill.realizedPnl with
    | none => exact hold f (by simpa [addFill, hpnl] using hf)
    | some pnl =>
      rcases List.mem_append.mp (by simpa only [addFill, hpnl] using hf) with hf | hf
      · exact hold f hf
      · obtain rfl := List.mem_singleton.mp hf
        exact ⟨_, List.mem_cons_self, rfl, rfl, rfl, hfee, rfl, hquantity, hprice⟩

theorem Gathered.fold : ∀ {rows : List (Option FallbackFill)} {e : CloseEvidence},
    w.Gathered r.clientOid e → w.gatherFills r e rows = .ok e' → w.Gathered r.clientOid e'
  | [], _, he, h => Except.ok.inj h ▸ he
  | none :: rows, _, he, h => by
    rw [gatherFills_cons_none] at h
    exact Gathered.fold he h
  | some fill :: rows, e, he, h => by
    obtain ⟨e₁, hfill, hrest⟩ := gatherFills_cons_some.mp h
    exact Gathered.fold (he.step hfill) hrest

/-- Every gathered fill is one row, whose columns are its fingerprint. -/
theorem Gathered.row_of_fill (now : Instant) (he : w.Gathered r.clientOid e) {f : ProviderFill}
    (hf : f ∈ e.fills) :
    ∃ row, Db.providerFillRow now { r with state := .unknown } f = some row ∧
      row.clientOrderId = r.clientOid ∧
        (row.providerFillId, row.quantity, row.price, row.fee) ∈ e.fingerprints := by
  obtain ⟨p, hp, hid, hquantity, hprice, hfee, -, hq, hp'⟩ := he.fills f hf
  simp only [Db.providerFillRow, hid, hquantity, hprice]
  rw [dif_pos ⟨hp', hq, he.provider p hp⟩]
  exact ⟨_, rfl, rfl, by simpa only [hfee] using hp⟩

theorem Gathered.mem_closeRows (he : w.Gathered r.clientOid e) {row : FillRow}
    (h : row ∈ closeRows now r e) : row.clientOrderId = r.clientOid ∧
      (row.providerFillId, row.quantity, row.price, row.fee) ∈ e.fingerprints := by
  obtain ⟨f, hf, hsome⟩ := List.mem_filterMap.mp h
  obtain ⟨row', hsome', hrow'⟩ := he.row_of_fill now hf
  obtain rfl := Option.some.inj (hsome.symm.trans hsome')
  exact hrow'

/-- The rows do not depend on the clock. -/
theorem Gathered.closeRows_congr (now now' : Instant) (he : w.Gathered r.clientOid e) :
    closeRows now r e = closeRows now' r e := by
  refine List.filterMap_congr fun f hf => ?_
  obtain ⟨p, -, -, -, -, -, htime, -⟩ := he.fills f hf
  obtain ⟨time, htime⟩ := Option.isSome_iff_exists.mp htime
  simp only [Db.providerFillRow, htime, Option.getD_some]

/-- The ledger the rows are inserted in says of each gathered fill what was gathered. -/
theorem Gathered.inserted (he : w.Gathered r.clientOid e)
    (hfills : w₂.db.fills = (w.db.insertRows r.clientOid (closeRows now r e)).fills) :
    ∀ p ∈ e.fingerprints, ∀ row, w₂.db.fills.find FillRow.providerFillId p.1 = some row →
      row.clientOrderId = r.clientOid ∧ (row.quantity, row.price, row.fee) = p.2 := by
  intro p hp row hrow
  have hmem : row ∈ (w.db.insertRows r.clientOid (closeRows now r e)).fills :=
    hfills ▸ Table.mem_of_find hrow
  have hid : row.providerFillId = p.1 := Table.key_of_find hrow
  rcases Db.mem_insertRows hmem with hold | hnew
  · exact he.durable p hp row
      ((Table.find_eq_some_iff (fun a b h => h)).mpr ⟨hold, hid⟩)
  · obtain ⟨howner, hprint⟩ := he.mem_closeRows hnew
    have := he.single p hp _ hprint hid
    exact ⟨howner, by rw [← this]⟩

/-- With anything to insert the ledger of the close is not empty. -/
theorem Gathered.fills_of_empty (he : w.Gathered r.clientOid e)
    (h : ledgerOf (w.db.insertRows r.clientOid (closeRows now r e)) r.clientOid = []) :
    e.fills = [] := by
  by_contra hne
  obtain ⟨fill, hfill⟩ := List.exists_mem_of_ne_nil _ hne
  obtain ⟨row, hsome, -⟩ := he.row_of_fill now hfill
  have hrow : row ∈ closeRows now r e := List.mem_filterMap.mpr ⟨fill, hfill, hsome⟩
  have hprovider : ∀ row ∈ closeRows now r e, statusDerived row.providerFillId = false :=
    fun row hrow => he.provider _ (he.mem_closeRows hrow).2
  obtain ⟨f, hf, hid⟩ : ∃ f ∈ (w.db.insertRows r.clientOid (closeRows now r e)).fills,
      f.providerFillId = row.providerFillId := Db.exists_insertRows hprovider hrow
  have howner : f.clientOrderId = r.clientOid := by
    rcases Db.mem_insertRows hf with hold | hnew
    · exact (he.durable _ (he.mem_closeRows hrow).2 f
        ((Table.find_eq_some_iff (fun a b h => h)).mpr ⟨hold, hid⟩)).1
    · exact (he.mem_closeRows hnew).1
  have : f ∈ ledgerOf (w.db.insertRows r.clientOid (closeRows now r e)) r.clientOid :=
    List.mem_filter.mpr ⟨hf, by simpa using howner⟩
  simp [h] at this

end Gathered

/-! ## Statements repeated -/

/-- A rewrite that was made already. -/
theorem setFallback_again {w w' : FallbackWorld} {id : String} {f : FallbackRow → FallbackRow}
    (h : w.setFallback id f = .ok w') (hf : ∀ row, f (f row) = f row)
    (hid : ∀ row, (f row).id = row.id) : w'.setFallback id f = .ok w' := by
  obtain ⟨hdb, hrows⟩ := setFallback_ok h
  have hagain : (w'.fallbacks.rows.map fun row => if row.id = id then f row else row) =
      w'.fallbacks.rows := by
    rw [hrows, List.map_map]
    refine List.map_congr_left fun row _ => ?_
    by_cases hrow : row.id = id <;> simp [hrow, hid, hf]
  have hupdate : w'.fallbacks.updateWhere (fun row => row.id = id) f = some w'.fallbacks := by
    refine Table.ofRows_eq_some_iff.mpr ?_
    simpa using hagain.symm
  unfold setFallback
  rw [hupdate]

/-! ## What a call keeps -/

section Laws

variable {w w' : FallbackWorld} {c : CloseCall} {owner : FallbackRow} {r r' : LiveIntentRecord}
  {db db' : Db} {won : Bool} {oid : String}

theorem state_closeRecord {p : Option String} {ledger : List FillRow} :
    (closeRecord r p ledger).state = .filled ↔
      (ledger.map FillRow.quantity).sum = r.requestedQty := by
  unfold closeRecord
  dsimp only
  split
  next h => exact iff_of_true rfl h
  next h => exact iff_of_false nofun h

theorem clientOid_of_target (h : w.closeTarget c.id c.symbol = some (owner, r)) :
    r.clientOid = fallbackClientOid c.id ∧ w.db.get r.clientOid = some r ∧
      w.fallbacks.find FallbackRow.id c.id = some owner ∧ r.role = .close := by
  unfold closeTarget at h
  split at h
  · cases h
  next owner' hfind =>
    split at h
    · split at h
      · cases h
      next r' hget =>
        split at h
        next hcond =>
          obtain ⟨rfl, rfl⟩ := Prod.mk.inj (Option.some.inj h)
          obtain ⟨row, -, hrec, hoid⟩ := Db.get_eq_some_iff.mp hget
          exact ⟨hoid, hoid ▸ hget, hfind, hcond.1⟩
        · cases h
    · cases h

/-- What a call that booked its evidence left. -/
structure Booked (w : FallbackWorld) (c : CloseCall) (owner : FallbackRow) (r r' : LiveIntentRecord)
    (db : Db) (won : Bool) (w' : FallbackWorld) : Prop where
  target : w.closeTarget c.id c.symbol = some (owner, r)
  evidence : ∃ e, w.gatherFills r ⟨r.providerOrderId, [], []⟩ c.rows = .ok e ∧
    w.Gathered r.clientOid e ∧ db = w.db.insertRows r.clientOid (closeRows c.now r e) ∧
    r' = closeRecord r e.providerOrderId (ledgerOf db r.clientOid)
  booked : CloseBooked db r
  confirmed : won = true ↔ ledgerQuantity db r.clientOid = r.requestedQty ∧ c.flat = true
  db_eq : w'.db = { db with intents := w'.db.intents }
  get : ∀ oid, w'.db.get oid = if oid = r.clientOid then some r' else w.db.get oid
  row : ({ w with db := w'.db } : FallbackWorld).setFallback c.id (closeShown won r') = .ok w'

theorem booked_of_persistCall (h : w.persistCall c = .ok (w', won)) :
    (w' = w ∧ won = false ∧ (w.closeTarget c.id c.symbol = none ∨
      ∃ owner r, w.closeTarget c.id c.symbol = some (owner, r) ∧
        w.closeLedger c.now r c.rows = .ok none)) ∨
    ∃ owner r r' db, w.Booked c owner r r' db won w' := by
  rcases persistCall_ok h with h | ⟨owner, r, db, r', db', htarget, hledger, hset, hwon, hrow⟩
  · exact Or.inl h
  obtain ⟨e, he, hdb, hbooked, hr'⟩ := closeLedger_some_iff.mp hledger
  obtain ⟨hoid, hget, -, -⟩ := clientOid_of_target htarget
  obtain ⟨r₀, hr₀, hdb', hget'⟩ := Db.get_of_setIntent hset fun _ => rfl
  have hfills : w.db.FillsOnly db := hdb ▸ Db.fillsOnly_insertRows _ _
  have hkeep : ∀ oid, db.get oid = w.db.get oid := fun oid => Db.get_of_fillsOnly hfills oid
  obtain rfl : r₀ = r := Option.some.inj (hr₀.symm.trans ((hkeep _).trans hget))
  have hwritten : closeWritten r' r₀ = r' := by
    rw [hr']
    rfl
  obtain ⟨hdbw, -⟩ := setFallback_ok hrow
  dsimp only at hdbw
  refine Or.inr ⟨owner, r₀, r', db, htarget, ⟨e, he, gathered_nil.fold he, hdb, hr'⟩, hbooked, ?_,
    ?_, fun oid => ?_, ?_⟩
  · rw [hwon, Bool.and_eq_true, decide_eq_true_iff, hr', state_closeRecord]
    rfl
  · rw [hdbw]
    exact hdb'
  · rw [hdbw, hget' oid, hwritten, hkeep oid]
  · rw [hdbw]
    exact hrow

theorem Booked.fills_eq (h : w.Booked c owner r r' db won w') : w'.db.fills = db.fills := by
  rw [h.db_eq]

theorem Booked.ledger_eq (h : w.Booked c owner r r' db won w') :
    ledgerOf w'.db r.clientOid = ledgerOf db r.clientOid := by
  unfold ledgerOf
  rw [h.fills_eq]

/-- The fills of every other close stay. -/
theorem Booked.ledger_other (h : w.Booked c owner r r' db won w') (hne : oid ≠ r.clientOid) :
    ledgerOf w'.db oid = ledgerOf w.db oid := by
  obtain ⟨e, -, hgathered, hdb, -⟩ := h.evidence
  unfold ledgerOf
  rw [h.fills_eq, hdb]
  exact Db.filter_insertRows (fun row hrow => (hgathered.mem_closeRows hrow).1) hne

/-- A call keeps the accounts of every close. -/
theorem accounted_persistCall (h : w.persistCall c = .ok (w', won)) (hw : w.Accounted oid) :
    w'.Accounted oid := by
  rcases booked_of_persistCall h with ⟨rfl, -⟩ | ⟨owner, r, r', db, hb⟩
  · exact hw
  intro x hx hrole
  rw [hb.get oid] at hx
  by_cases ho : oid = r.clientOid
  · subst ho
    rw [if_pos rfl] at hx
    obtain rfl := Option.some.inj hx
    obtain ⟨e, -, -, -, hr'⟩ := hb.evidence
    have hfilled : r'.filledQty = ledgerQuantity db r.clientOid := by rw [hr']; rfl
    have hrequested : r'.requestedQty = r.requestedQty := by rw [hr']; rfl
    refine ⟨?_, ?_⟩
    · rw [hfilled, ledgerQuantity, hb.ledger_eq, ledgerQuantity]
    · rw [hfilled, hrequested]
      exact hb.booked.le
  · rw [if_neg ho] at hx
    unfold ledgerQuantity
    rw [hb.ledger_other ho]
    exact hw x hx hrole

/-! ## The same call again -/

/-- The evidence of the rows is the same once the order id is written. -/
theorem gatherFills_known {e : CloseEvidence} (hknown : w.OrderKnown c)
    (htarget : w.closeTarget c.id c.symbol = some (owner, r))
    (he : w.gatherFills r ⟨r.providerOrderId, [], []⟩ c.rows = .ok e) :
    w.gatherFills r ⟨e.providerOrderId, [], []⟩ c.rows = .ok e := by
  cases hp : r.providerOrderId with
  | some p =>
    rw [hp] at he
    rw [providerOrderId_gatherFills rfl he]
    exact he
  | none =>
    rw [hp] at he
    cases hp' : e.providerOrderId with
    | none => exact he
    | some p' => exact gatherFills_adopted rfl he hp' (hknown owner r htarget hp)

theorem Booked.target_again (h : w.Booked c owner r r' db won w') :
    w'.closeTarget c.id c.symbol = some (closeShown won r' owner, r') := by
  obtain ⟨hoid, hget, hfind, -⟩ := clientOid_of_target h.target
  obtain ⟨e, -, -, -, hr'⟩ := h.evidence
  have hget' : w'.db.get (fallbackClientOid c.id) = some r' := by
    rw [h.get, hoid, if_pos rfl]
  have hfind' : w'.fallbacks.find FallbackRow.id c.id = some (closeShown won r' owner) := by
    have hrow := h.row
    unfold setFallback at hrow
    split at hrow
    · cases hrow
    next fallbacks hupdate =>
      rw [← congrArg FallbackWorld.fallbacks (Except.ok.inj hrow)]
      refine (Table.find_updateWhere (f := closeShown won r') (fun _ => rfl) hupdate).trans ?_
      dsimp only
      rw [hfind]
      simp [Table.key_of_find hfind]
  have htarget := h.target
  unfold closeTarget at htarget ⊢
  rw [hfind] at htarget
  rw [hfind', hget']
  dsimp only at htarget ⊢
  have hstate : (closeShown won r' owner).state ≠ .cancelled := by
    unfold closeShown
    dsimp only
    intro hcancelled
    split at hcancelled <;> cases hcancelled
  split at htarget
  next hcond =>
    rw [if_pos ⟨hcond.1, hstate⟩]
    rw [← hoid, hget] at htarget
    dsimp only at htarget
    split at htarget
    next hintent =>
      refine if_pos ?_
      rw [hr']
      exact hintent
    · cases htarget
  · cases htarget

/-- The same rows again change nothing. -/
theorem persistCall_again (hknown : w.OrderKnown c) (h : w.persistCall c = .ok (w', won))
    (now : Instant) : w'.persistCall { c with now := now } = .ok (w', won) := by
  rcases booked_of_persistCall h with ⟨rfl, rfl, hnone | ⟨owner, r, htarget, hledger⟩⟩ |
      ⟨owner, r, r', db, hb⟩
  · simp only [persistCall, persistCloseFills, hnone]
  · obtain ⟨e, he, hempty⟩ := closeLedger_none_iff.mp hledger
    have hagain : w'.closeLedger now r c.rows = .ok none := by
      refine closeLedger_none_iff.mpr ⟨e, he, ?_⟩
      rwa [(gathered_nil.fold he).closeRows_congr now c.now]
    simp only [persistCall, persistCloseFills, htarget, hagain]
  · obtain ⟨e, he, hgathered, hdb, hr'⟩ := hb.evidence
    have hoid : r'.clientOid = r.clientOid := by rw [hr']; rfl
    have hsymbol : r'.symbol = r.symbol := by rw [hr']; rfl
    have horder : r'.providerOrderId = e.providerOrderId := by rw [hr']; rfl
    have hfills : w'.db.fills = (w.db.insertRows r.clientOid (closeRows c.now r e)).fills := by
      rw [hb.fills_eq, hdb]
    have hgather : w'.gatherFills r' ⟨r'.providerOrderId, [], []⟩ c.rows = .ok e := by
      rw [horder]
      exact gatherFills_again hoid hsymbol (by rw [hr']; rfl)
        (gatherFills_known hknown hb.target he) (hgathered.inserted hfills)
    have hrows : closeRows now r' e = closeRows c.now r e := by
      rw [hgathered.closeRows_congr c.now now]
      refine List.filterMap_congr fun f _ => ?_
      simp only [Db.providerFillRow, hoid, hsymbol]
    have hsame : w'.db.insertRows r'.clientOid (closeRows now r' e) = w'.db := by
      rw [hrows, hoid]
      refine Db.insertRows_of_taken (fun row hrow => ?_) fun f hf howner => ?_
      · obtain ⟨f, hf, hid⟩ : ∃ f ∈ (w.db.insertRows r.clientOid (closeRows c.now r e)).fills,
            f.providerFillId = row.providerFillId :=
          Db.exists_insertRows
            (fun row hrow => hgathered.provider _ (hgathered.mem_closeRows hrow).2) hrow
        exact ⟨f, hfills ▸ hf, hid⟩
      · exact hb.booked.provider f (List.mem_filter.mpr
          ⟨Table.mem_iff.mp (hb.fills_eq ▸ hf), by simpa using howner⟩)
    have hledger : w'.closeLedger now r' c.rows = .ok (some (w'.db, r')) := by
      refine closeLedger_some_iff.mpr ⟨e, hgather, hsame.symm, ?_, ?_⟩
      · have hrequested : r'.requestedQty = r.requestedQty := by rw [hr']; rfl
        refine ⟨?_, ?_, ?_, ?_⟩ <;> simp only [ledgerQuantity, hoid, hb.ledger_eq, hrequested]
        · exact hb.booked.nonempty
        · exact hb.booked.provider
        · exact hb.booked.pos
        · exact hb.booked.le
      · rw [hoid, hb.ledger_eq]
        conv_lhs => rw [hr']
        conv_rhs => rw [hr']
        rfl
    have hset : w'.db.setIntent r'.clientOid (closeWritten r') = .ok w'.db :=
      Db.setIntent_self (by rw [hb.get, hoid, if_pos rfl]) rfl
    have hwon : (decide (r'.state = .filled) && c.flat) = won := by
      rw [Bool.eq_iff_iff, hb.confirmed, Bool.and_eq_true, decide_eq_true_iff, hr',
        state_closeRecord]
      rfl
    have hrow : w'.setFallback c.id (closeShown won r') = .ok w' :=
      setFallback_again hb.row (fun row => rfl) fun _ => rfl
    have hcall := persistCall_of_booked (c := { c with now := now }) hb.target_again hledger hset
      (by rw [show (decide (r'.state = .filled) && _) = won from hwon]; exact hrow)
    rw [show (decide (r'.state = .filled) && _) = won from hwon] at hcall
    exact hcall

end Laws

/-! ## Every call of a run -/

/-- What a call has to keep. -/
structure CloseLaw (w : FallbackWorld) (c : CloseCall) : Prop where
  accounted : ∀ oid, w.Accounted oid → (w.persisted c).Accounted oid
  triggered : ∀ owner r w' won, w.closeTarget c.id c.symbol = some (owner, r) →
    w.persistCall c = .ok (w', won) →
      ∃ row, w'.fallbacks.find FallbackRow.id c.id = some row ∧
        (row.state = .triggered ↔
          (ledgerQuantity w'.db r.clientOid = r.requestedQty ∧ c.flat = true) ∨
            (ledgerOf w'.db r.clientOid = [] ∧ owner.state = .triggered))
  unowned : w.closeTarget c.id c.symbol = none → w.persisted c = w
  others : ∀ row ∈ (w.persisted c).fallbacks.rows, row.id ≠ c.id → row ∈ w.fallbacks.rows
  again : ∀ w' won, w.persistCall c = .ok (w', won) →
    ∀ now, w'.persistCall { c with now := now } = .ok (w', won)
  raised : ∀ e, w.persistCall c = .error e → w.persisted c = w

section Run

variable {w w' : FallbackWorld} {c : CloseCall} {owner : FallbackRow} {r : LiveIntentRecord}
  {won : Bool}

theorem persisted_of_ok (h : w.persistCall c = .ok (w', won)) : w.persisted c = w' := by
  unfold persisted
  rw [h]

theorem persisted_of_error {e : FallbackError} (h : w.persistCall c = .error e) :
    w.persisted c = w := by
  unfold persisted
  rw [h]

/-- The row is triggered where the ledger has all that was requested and the position is flat. -/
theorem triggered_iff (htarget : w.closeTarget c.id c.symbol = some (owner, r))
    (h : w.persistCall c = .ok (w', won)) :
    ∃ row, w'.fallbacks.find FallbackRow.id c.id = some row ∧
      (row.state = .triggered ↔
        (ledgerQuantity w'.db r.clientOid = r.requestedQty ∧ c.flat = true) ∨
          (ledgerOf w'.db r.clientOid = [] ∧ owner.state = .triggered)) := by
  obtain ⟨-, hget, hfind, -⟩ := clientOid_of_target htarget
  rcases booked_of_persistCall h with ⟨rfl, -, hrest⟩ | ⟨owner', r₀, r', db, hb⟩
  · obtain ⟨e, he, hempty⟩ : ∃ e, w'.gatherFills r ⟨r.providerOrderId, [], []⟩ c.rows = .ok e ∧
        ledgerOf (w'.db.insertRows r.clientOid (closeRows c.now r e)) r.clientOid = [] := by
      rcases hrest with hnone | ⟨owner₁, r₁, htarget₁, hledger⟩
      · cases hnone.symm.trans htarget
      · obtain ⟨rfl, rfl⟩ := Prod.mk.inj (Option.some.inj (htarget.symm.trans htarget₁))
        exact closeLedger_none_iff.mp hledger
    -- nothing was inserted, so the ledger was empty before
    have hledger : ledgerOf w'.db r.clientOid = [] := by
      have hfills := (gathered_nil.fold he).fills_of_empty hempty
      rwa [closeRows, hfills] at hempty
    have hne : ledgerQuantity w'.db r.clientOid ≠ r.requestedQty := by
      obtain ⟨row, -, hrec, -⟩ := Db.get_eq_some_iff.mp hget
      have hpos : 0 < r.requestedQty := hrec ▸ row.checked.requested_pos
      simpa [ledgerQuantity, hledger] using hpos.ne
    exact ⟨owner, hfind, by simp [hne, hledger]⟩
  · obtain ⟨rfl, rfl⟩ := Prod.mk.inj (Option.some.inj (htarget.symm.trans hb.target))
    obtain ⟨-, -, hfind', -⟩ := clientOid_of_target hb.target_again
    refine ⟨_, hfind', ?_⟩
    have hstate : (closeShown won r' owner).state = .triggered ↔ won = true := by
      cases won <;> simp [closeShown]
    have hne : ledgerOf w'.db r.clientOid ≠ [] := hb.ledger_eq ▸ hb.booked.nonempty
    rw [hstate, hb.confirmed, or_iff_left fun h => hne h.1]
    simp only [ledgerQuantity, hb.ledger_eq]

theorem rows_of_persistCall (h : w.persistCall c = .ok (w', won)) {row : FallbackRow}
    (hrow : row ∈ w'.fallbacks.rows) (hid : row.id ≠ c.id) : row ∈ w.fallbacks.rows := by
  rcases booked_of_persistCall h with ⟨rfl, -⟩ | ⟨owner, r, r', db, hb⟩
  · exact hrow
  · rw [(setFallback_ok hb.row).2] at hrow
    obtain ⟨x, hx, rfl⟩ := List.mem_map.mp hrow
    by_cases hxid : x.id = c.id
    · exact absurd (by simp [hxid, closeShown]) hid
    · rwa [if_neg hxid]

/-- The law holds of a call that knows its order id. -/
theorem closeLaw_of_known (hknown : w.OrderKnown c) : w.CloseLaw c where
  accounted oid hw := by
    cases h : w.persistCall c with
    | error e => rwa [persisted_of_error h]
    | ok p =>
      rw [persisted_of_ok h]
      exact accounted_persistCall h hw
  triggered _ _ _ _ htarget h := triggered_iff htarget h
  unowned h := by
    have hcall : w.persistCall c = .ok (w, false) := by
      simp only [persistCall, persistCloseFills, h]
    exact persisted_of_ok hcall
  others row hrow hid := by
    cases h : w.persistCall c with
    | error e => rwa [persisted_of_error h] at hrow
    | ok p =>
      rw [persisted_of_ok h] at hrow
      exact rows_of_persistCall h hrow hid
  again _ _ h now := persistCall_again hknown h now
  raised _ h := persisted_of_error h

/-- Every run whose calls know the order id of their close, or whose rows do not need it, obeys the
law at every call, and every account that held before holds at every state it passes. -/
theorem closes_accounted {cs : List CloseCall}
    (hcs : ∀ p ∈ visits persisted w cs, p.1.OrderKnown p.2) :
    (∀ p ∈ visits persisted w cs, p.1.CloseLaw p.2) ∧
      ∀ oid, w.Accounted oid → ∀ s ∈ states persisted w cs, s.Accounted oid := by
  have hlaw : ∀ p ∈ visits persisted w cs, p.1.CloseLaw p.2 :=
    fun p hp => closeLaw_of_known (hcs p hp)
  refine ⟨hlaw, fun oid hw s hs => ?_⟩
  refine @states_inv_of_not _ _ w s cs persisted (fun s => s.Accounted oid)
    (fun s c => ¬ s.CloseLaw c)
    (fun s c hs hc => (not_not.mp hc).accounted oid hs) hw (fun p hp => ?_) hs
  exact not_not.mpr (hlaw p hp)

theorem orderKnown_of_id (h : (w.closeTarget c.id c.symbol).all
    fun p => p.2.providerOrderId.isSome) : w.OrderKnown c := by
  intro owner r htarget hnone
  simp [htarget, hnone] at h

end Run

end FallbackWorld

/-! ## A close in two fills -/

open FallbackWorld

/-- A fill of the close, of the order `P`. -/
def closeFill (fillId : String) (clientOid : Option String) (quantity : ℚ) : FallbackFill where
  fee := some (1 / 100)
  clientOid := clientOid
  orderId := some "P"
  symbol := some "BTCUSDT"
  side := some .sell
  tradeSide := some "close"
  fillId := some fillId
  quantity := some quantity
  price := some 90
  time := some 2
  realizedPnl := some (-4)

/-- The close was sent, and the answer with its order id was lost. -/
def unnamedWorld : FallbackWorld where
  db := { intents := ⟨[⟨heldEntry, 0, heldEntry_checked⟩,
    ⟨{ sentClose with state := .unknown, providerOrderId := none }, 1, by decide⟩],
      by decide +kernel⟩ }
  fallbacks := ⟨[{ longFallback with state := .closing }], closingFallback_unique⟩

def closeCall (rows : List (Option FallbackFill)) : CloseCall :=
  ⟨3, longFallback.id, "BTCUSDT", rows, true⟩

/-- One fill that names the close. -/
def namedPart : CloseCall :=
  closeCall [some (closeFill "f2" (some sentClose.clientOid) (6 / 10))]

/-- The rest of it, by its order id alone, among rows that are none of its fills. -/
def orderPart : CloseCall :=
  closeCall [none, some (closeFill "f1" none (4 / 10)), some (closeFill "f1" none (4 / 10))]

/-- The same fill with another quantity. -/
def contradictingPart : CloseCall :=
  closeCall [some (closeFill "f2" (some sentClose.clientOid) (5 / 10))]

theorem closes_accounted_parts :
    (∀ p ∈ visits persisted unnamedWorld [namedPart, contradictingPart, orderPart],
      p.1.CloseLaw p.2) ∧
    ∀ oid, unnamedWorld.Accounted oid → ∀ s ∈ states persisted unnamedWorld
      [namedPart, contradictingPart, orderPart], s.Accounted oid := by
  refine closes_accounted fun p hp => ?_
  simp only [visits, List.mem_cons, List.not_mem_nil, or_false] at hp
  rcases hp with rfl | rfl | rfl
  · -- the first row names the close
    intro owner r htarget hnone pre fill post t hrows hpre ht g hg
    cases pre with
    | nil => simp at hg
    | cons head pre =>
      have := congrArg List.length hrows
      simp [namedPart, closeCall] at this
  · exact orderKnown_of_id (by decide +kernel)
  · exact orderKnown_of_id (by decide +kernel)

/-- Both fills in one answer, the one without the client order id first. -/
def mixedRows : CloseCall :=
  closeCall [some (closeFill "f1" none (4 / 10)),
    some (closeFill "f2" (some sentClose.clientOid) (6 / 10))]

/-- The first call takes the second fill only, the same rows again take the first one. -/
theorem mixedRows_again :
    ((unnamedWorld.persisted mixedRows).db.get sentClose.clientOid).map
        (fun r => (r.filledQty, r.state)) = some (6 / 10, .partiallyFilled) ∧
      (((unnamedWorld.persisted mixedRows).persisted mixedRows).db.get sentClose.clientOid).map
          (fun r => (r.filledQty, r.state)) = some (1, .filled) ∧
        ¬ unnamedWorld.CloseLaw mixedRows := by
  have hfirst : ((unnamedWorld.persisted mixedRows).db.get sentClose.clientOid).map
      (fun r => (r.filledQty, r.state)) = some (6 / 10, .partiallyFilled) := by decide +kernel
  have hsecond : (((unnamedWorld.persisted mixedRows).persisted mixedRows).db.get
      sentClose.clientOid).map (fun r => (r.filledQty, r.state)) = some (1, .filled) := by
    decide +kernel
  refine ⟨hfirst, hsecond, fun hlaw => ?_⟩
  cases h : unnamedWorld.persistCall mixedRows with
  | error e =>
    rw [persisted_of_error h, persisted_of_error h] at hsecond
    rw [persisted_of_error h] at hfirst
    exact absurd (hfirst.symm.trans hsecond) (by decide +kernel)
  | ok p =>
    have hagain := hlaw.again p.1 p.2 h mixedRows.now
    rw [persisted_of_ok h, persisted_of_ok hagain] at hsecond
    rw [persisted_of_ok h] at hfirst
    exact absurd (hfirst.symm.trans hsecond) (by decide +kernel)

end FattyTrader
