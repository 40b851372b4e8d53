import FattyTrader.Ledger
import Mathlib.Algebra.BigOperators.Group.List.Basic
import Mathlib.Tactic.Linarith

/-!
# The live intent store

`PostgresLiveIntentStore` writes one row per client order id. `claim` and
`claim_split` insert rows before anything is sent, `claim_entry_post` moves a staged
limit child to `requested`, `claim_cancel` and `claim_cancel_post` fence an owned
cancellation, and `update` persists a readback.

A transaction is a function of the database to its result and the database it
commits, or to the error it is rolled back with. Every statement on one intent goes
through `setIntent` : it replaces the row of one client order id and nothing else
(`get_of_setIntent`), unless the new row violates a `CHECK`. From it follows what each
operation does to the row it names (`get_of_update`, `get_of_claimEntryPost`, …) and
that it leaves the reservations, the dispatches and the bindings as they are.

`remainingOwnedQuantity` subtracts the closes bound to the reservation of an entry root
from the fills of its legs. A bound close counts only with exact fill evidence of its
own, otherwise the whole reading is refused.
-/

set_option linter.unusedSectionVars false

open Tables

namespace FattyTrader

/-! ## Client order ids -/

/-- `str.removesuffix`. -/
def removeSuffix (suffix s : String) : String :=
  if suffix.toList.isSuffixOf s.toList then
    String.ofList (s.toList.take (s.toList.length - suffix.toList.length))
  else s

theorem removeSuffix_append (s suffix : String) : removeSuffix suffix (s ++ suffix) = s := by
  have h : suffix.toList.isSuffixOf (s ++ suffix).toList := by
    simp [List.isSuffixOf_iff_suffix]
  simp only [removeSuffix, if_pos h]
  simp

/-- The client order id of the limit child of a split entry. -/
def limitOid (rootOid : String) : String := rootOid ++ "-limit"

/-- The generated column `binding_client_order_id`. -/
def bindingClientOrderId (clientOid : String) : String :=
  if "-limit".toList.isSuffixOf clientOid.toList then removeSuffix "-limit" clientOid
  else removeSuffix "-market" clientOid

theorem bindingClientOrderId_limitOid (rootOid : String) :
    bindingClientOrderId (limitOid rootOid) = rootOid := by
  have h : "-limit".toList.isSuffixOf (limitOid rootOid).toList := by
    simp [limitOid, List.isSuffixOf_iff_suffix]
  rw [bindingClientOrderId, if_pos h, limitOid, removeSuffix_append]

theorem limitOid_ne (rootOid : String) : limitOid rootOid ≠ rootOid := by
  intro h
  have := congrArg (fun s : String => s.toList.length) h
  simp [limitOid] at this

/-- The columns `_insert` writes ; the others take their defaults. -/
def LiveIntentRecord.inserted (r : LiveIntentRecord) : LiveIntentRecord :=
  { r with
    avgPrice := none
    fee := 0
    providerFillIds := []
    providerFills := []
    cancelRequestedBy := none
    providerTerminal := false
    cancelPostClaimed := false
    activeTakeProfitPrice := none }

/-- What `claim_entry_post` writes. -/
def LiveIntentRecord.postClaimed (r : LiveIntentRecord) : LiveIntentRecord :=
  { r with state := .requested }

/-- What `claim_cancel` writes : a staged leg is cancelled for good. -/
def LiveIntentRecord.cancelClaimed (managementId : Uuid) (r : LiveIntentRecord) :
    LiveIntentRecord :=
  { r with
    cancelRequestedBy := some managementId
    providerTerminal := r.state = .staged
    state := if r.state = .staged then .cancelled else r.state }

/-- What `claim_cancel_post` writes. -/
def LiveIntentRecord.cancelPosted (r : LiveIntentRecord) : LiveIntentRecord :=
  { r with cancelPostClaimed := true }

/-- What `update` writes over the row `r` : the provider order id is kept once set, and
`provider_terminal` is never cleared. -/
def LiveIntentRecord.written (record r : LiveIntentRecord) : LiveIntentRecord :=
  { r with
    providerOrderId := r.providerOrderId.or record.providerOrderId
    state := record.state
    filledQty := record.filledQty
    avgPrice := record.avgPrice
    fee := record.fee
    providerFillIds := record.providerFillIds
    providerTerminal := r.providerTerminal || record.providerTerminal }

/-- What `settle_absent` writes. -/
def LiveIntentRecord.settledAbsent (r : LiveIntentRecord) : LiveIntentRecord :=
  { r with state := .cancelled }

namespace Db

/-! ## Reading -/

/-- `get`. -/
def get (db : Db) (clientOid : String) : Option LiveIntentRecord :=
  (db.intentRow clientOid).map LiveIntentRow.record

theorem clientOid_of_get {db : Db} {oid : String} {r : LiveIntentRecord}
    (h : db.get oid = some r) : r.clientOid = oid := by
  obtain ⟨row, hrow, rfl⟩ := Option.map_eq_some_iff.mp h
  exact (intentRow_eq_some.mp hrow).2

theorem checked_of_get {db : Db} {oid : String} {r : LiveIntentRecord}
    (h : db.get oid = some r) : r.Checked := by
  obtain ⟨row, -, rfl⟩ := Option.map_eq_some_iff.mp h
  exact row.checked

theorem get_eq_some_iff {db : Db} {oid : String} {r : LiveIntentRecord} :
    db.get oid = some r ↔ ∃ row ∈ db.intents, row.record = r ∧ r.clientOid = oid := by
  constructor
  · intro h
    obtain ⟨row, hrow, rfl⟩ := Option.map_eq_some_iff.mp h
    obtain ⟨hmem, hoid⟩ := intentRow_eq_some.mp hrow
    exact ⟨row, hmem, rfl, hoid⟩
  · rintro ⟨row, hmem, rfl, hoid⟩
    exact Option.map_eq_some_iff.mpr ⟨row, intentRow_eq_some.mpr ⟨hmem, hoid⟩, rfl⟩

/-! ## Rewriting one row -/

/-- Replace the record of one intent, in the row of its client order id. -/
def setIntent (db : Db) (clientOid : String) (f : LiveIntentRecord → LiveIntentRecord) :
    Except DbError Db :=
  match db.intentRow clientOid with
  | none => .error .conflictOrMissing
  | some row =>
    if h : (f row.record).Checked then
      match db.intents.replace LiveIntentRow.clientOid clientOid
          ⟨f row.record, row.createdAt, h⟩ with
      | none => .error .uniqueViolation
      | some intents => .ok { db with intents }
    else .error .checkViolation

/-- A rewritten row keeps its client order id and its creation time ; every other row and
every other table is unchanged. -/
theorem intentRow_of_setIntent {db db' : Db} {oid : String}
    {f : LiveIntentRecord → LiveIntentRecord} (h : db.setIntent oid f = .ok db')
    (hf : ∀ r, (f r).clientOid = r.clientOid) :
    ∃ row row', db.intentRow oid = some row ∧ row'.record = f row.record ∧
      row'.createdAt = row.createdAt ∧ db' = { db with intents := db'.intents } ∧
      ∀ o, db'.intentRow o = if o = oid then some row' else db.intentRow o := by
  unfold setIntent at h
  split at h
  · cases h
  next row hrow =>
    split at h
    next hc =>
      split at h
      · cases h
      next intents hi =>
        obtain rfl := Except.ok.inj h
        refine ⟨row, ⟨f row.record, row.createdAt, hc⟩, hrow, rfl, rfl, rfl, fun o => ?_⟩
        have hoid : row.clientOid = oid := (intentRow_eq_some.mp hrow).2
        have hnew : LiveIntentRow.clientOid ⟨f row.record, row.createdAt, hc⟩ = oid :=
          (hf row.record).trans hoid
        have hfind := Table.find_replace hnew hi o
        rw [show db.intents.find LiveIntentRow.clientOid oid = some row from hrow] at hfind
        exact hfind
    · cases h

/-- What `setIntent` does to the records. -/
theorem get_of_setIntent {db db' : Db} {oid : String}
    {f : LiveIntentRecord → LiveIntentRecord} (h : db.setIntent oid f = .ok db')
    (hf : ∀ r, (f r).clientOid = r.clientOid) :
    ∃ r, db.get oid = some r ∧ db' = { db with intents := db'.intents } ∧
      ∀ o, db'.get o = if o = oid then some (f r) else db.get o := by
  obtain ⟨row, row', hrow, hrec, -, hdb, hget⟩ := intentRow_of_setIntent h hf
  refine ⟨row.record, by simp [get, hrow], hdb, fun o => ?_⟩
  simp only [get, hget o]
  split
  · simp [hrec]
  · rfl

/-- A rewrite that keeps the order ids and the checks succeeds. -/
theorem setIntent_isOk {db : Db} {oid : String} {f : LiveIntentRecord → LiveIntentRecord}
    {r : LiveIntentRecord} (hr : db.get oid = some r) (hc : (f r).Checked)
    (hoid : (f r).clientOid = r.clientOid) (horder : (f r).providerOrderId = r.providerOrderId) :
    ∃ db', db.setIntent oid f = .ok db' := by
  obtain ⟨row, hrow, rfl⟩ := Option.map_eq_some_iff.mp hr
  obtain ⟨hmem, hkey⟩ := intentRow_eq_some.mp hrow
  have hnew : LiveIntentRow.clientOid ⟨f row.record, row.createdAt, hc⟩ = oid := hoid.trans hkey
  have hrep : (db.intents.replace LiveIntentRow.clientOid oid
      ⟨f row.record, row.createdAt, hc⟩).isSome := by
    have hkeys : ∀ a b : LiveIntentRow, a.clientOid = b.clientOid → LiveIntentRow.Conflict a b :=
      fun _ _ => LiveIntentRow.conflict_of_clientOid
    refine (Table.replace_isSome_iff hkeys hnew hrow).mpr fun other hother hne hconflict => ?_
    have hrow' : LiveIntentRow.Conflict other row := by
      rcases hconflict with h | ⟨h, hne'⟩
      · exact Or.inl (h.trans hoid)
      · exact Or.inr ⟨h.trans horder, hne'⟩
    rcases Table.eq_or_not_conflict hother hmem with rfl | h
    · exact hne hkey
    · exact h hrow'
  obtain ⟨intents, hi⟩ := Option.isSome_iff_exists.mp hrep
  exact ⟨{ db with intents }, by simp [setIntent, hrow, hc, hi]⟩

/-- A row written as it is. -/
theorem setIntent_self {db : Db} {oid : String} {f : LiveIntentRecord → LiveIntentRecord}
    {r : LiveIntentRecord} (hr : db.get oid = some r) (hf : f r = r) :
    db.setIntent oid f = .ok db := by
  obtain ⟨row, hrow, rfl⟩ := Option.map_eq_some_iff.mp hr
  obtain ⟨hmem, hkey⟩ := intentRow_eq_some.mp hrow
  have hchecked : (f row.record).Checked := hf.symm ▸ row.checked
  have hself : (⟨f row.record, row.createdAt, hchecked⟩ : LiveIntentRow) = row := by
    simp only [hf]
  have hreplace : db.intents.replace LiveIntentRow.clientOid oid row = some db.intents :=
    Table.replace_self (fun _ _ => LiveIntentRow.conflict_of_clientOid) hmem hkey
  unfold setIntent
  rw [hrow]
  dsimp only
  rw [dif_pos hchecked, hself, hreplace]

/-- What a conditional rewrite of one intent does : nothing, or `f` on the row of the
client order id. -/
def Rewrites (db db' : Db) (oid : String) (f : LiveIntentRecord → LiveIntentRecord) (won : Bool)
    (r : LiveIntentRecord) : Prop :=
  won = true ∧ db.get oid = some r ∧ db' = { db with intents := db'.intents } ∧
    ∀ o, db'.get o = if o = oid then some (f r) else db.get o

theorem rewrites_of_setIntent {db db' : Db} {oid : String}
    {f : LiveIntentRecord → LiveIntentRecord} {won : Bool}
    (h : (db.setIntent oid f).map (·, true) = .ok (db', won))
    (hf : ∀ r, (f r).clientOid = r.clientOid) :
    ∃ r, db.Rewrites db' oid f won r := by
  obtain ⟨db₁, hset, hp⟩ := exists_of_map_ok h
  obtain ⟨rfl, rfl⟩ := Prod.mk.inj hp
  obtain ⟨r, hr, hdb, hget⟩ := get_of_setIntent hset hf
  exact ⟨r, rfl, hr, hdb, hget⟩

/-! ## Claiming -/

/-- The binding of an intent to its reservation (`admission_intent_reservation_binding`),
which is not checked while the reservation is null. -/
def BindingOk (db : Db) (r : LiveIntentRecord) : Prop :=
  r.marginReservationId = none ∨
    ∃ m ∈ db.reservations.rows, some m.id = r.marginReservationId ∧
      m.clientOrderId = bindingClientOrderId r.clientOid ∧
      some m.balanceSnapshotId = r.balanceSnapshotId ∧ m.bindingSymbol = some r.symbol ∧
      some m.plannedMarginUsdt = r.plannedMarginUsdt

instance (db : Db) (r : LiveIntentRecord) : Decidable (db.BindingOk r) :=
  inferInstanceAs (Decidable (r.marginReservationId = none ∨
    ∃ m ∈ db.reservations.rows, some m.id = r.marginReservationId ∧
      m.clientOrderId = bindingClientOrderId r.clientOid ∧
      some m.balanceSnapshotId = r.balanceSnapshotId ∧ m.bindingSymbol = some r.symbol ∧
      some m.plannedMarginUsdt = r.plannedMarginUsdt))

/-- `_insert` : the row, unless one of its client order id exists. The result says
whether it was inserted. -/
def insertIntent (now : Instant) (db : Db) (record : LiveIntentRecord) :
    Except DbError (Db × Bool) :=
  if h : record.inserted.Checked then
    match db.get record.clientOid with
    | some _ => .ok (db, false)
    | none =>
      if db.BindingOk record.inserted then
        match db.intents.insert ⟨record.inserted, now, h⟩ with
        | none => .error .uniqueViolation
        | some intents => .ok ({ db with intents }, true)
      else .error .foreignKeyViolation
  else .error .checkViolation

/-- An insert that loses changes nothing ; one that wins adds the row of its own client
order id, which had none. -/
theorem insertIntent_ok {now : Instant} {db db' : Db} {r : LiveIntentRecord} {won : Bool}
    (h : db.insertIntent now r = .ok (db', won)) :
    (won = false ∧ db' = db ∧ db.get r.clientOid ≠ none) ∨
      (won = true ∧ db.get r.clientOid = none ∧ db.BindingOk r.inserted ∧
        db' = { db with intents := db'.intents } ∧
        ∀ o, db'.get o = if o = r.clientOid then some r.inserted else db.get o) := by
  unfold insertIntent at h
  split at h
  next hc =>
    split at h
    next x hx =>
      obtain ⟨rfl, rfl⟩ := Prod.mk.inj (Except.ok.inj h)
      exact Or.inl ⟨rfl, rfl, by simp [hx]⟩
    next hx =>
      split at h
      next hb =>
        split at h
        · cases h
        next intents hi =>
          obtain ⟨rfl, rfl⟩ := Prod.mk.inj (Except.ok.inj h)
          refine Or.inr ⟨rfl, hx, hb, rfl, fun o => ?_⟩
          have hnone : db.intentRow r.clientOid = none := by
            simpa [get] using hx
          have hfind := Table.find_insert hi LiveIntentRow.clientOid o
          have hoid : LiveIntentRow.clientOid ⟨r.inserted, now, hc⟩ = r.clientOid := rfl
          rw [hoid] at hfind
          simp only [get, intentRow] at hnone ⊢
          rw [hfind]
          by_cases ho : o = r.clientOid
          · subst ho
            simp [hnone]
          · simp [ho, Ne.symm ho]
      · cases h
  · cases h

/-- `claim`. -/
def claim (now : Instant) (db : Db) (record : LiveIntentRecord) : Except DbError (Db × Bool) :=
  db.insertIntent now record

/-- `claim_split` : both legs, or neither. -/
def claimSplit (now : Instant) (db : Db) (market limit : LiveIntentRecord) :
    Except DbError (Db × Bool) :=
  match db.insertIntent now market with
  | .error e => .error e
  | .ok (db, false) => .ok (db, false)
  | .ok (db, true) =>
    match db.insertIntent now limit with
    | .error e => .error e
    | .ok (_, false) => .error .splitChildWithoutRoot
    | .ok (db, true) => .ok (db, true)

/-- A split claim that loses changes nothing, one that wins adds the rows of both legs. -/
theorem claimSplit_ok {now : Instant} {db db' : Db} {m l : LiveIntentRecord} {won : Bool}
    (hne : m.clientOid ≠ l.clientOid) (h : db.claimSplit now m l = .ok (db', won)) :
    (won = false ∧ db' = db ∧ db.get m.clientOid ≠ none) ∨
      (won = true ∧ db.get m.clientOid = none ∧ db.get l.clientOid = none ∧
        db.BindingOk m.inserted ∧ db.BindingOk l.inserted ∧
        db' = { db with intents := db'.intents } ∧
        ∀ o, db'.get o = if o = m.clientOid then some m.inserted
          else if o = l.clientOid then some l.inserted else db.get o) := by
  unfold claimSplit at h
  split at h
  · cases h
  next db₁ h₁ =>
    obtain ⟨rfl, rfl⟩ := Prod.mk.inj (Except.ok.inj h)
    rcases insertIntent_ok h₁ with ⟨-, hdb, hm⟩ | ⟨hw, -⟩
    · exact Or.inl ⟨rfl, hdb, hm⟩
    · cases hw
  next db₁ h₁ =>
    split at h
    · cases h
    · cases h
    next db₂ h₂ =>
      obtain ⟨rfl, rfl⟩ := Prod.mk.inj (Except.ok.inj h)
      rcases insertIntent_ok h₁ with ⟨hw, -⟩ | ⟨-, hm, hbm, hdb₁, hget₁⟩
      · cases hw
      rcases insertIntent_ok h₂ with ⟨hw, -⟩ | ⟨-, hl, hbl, hdb₂, hget₂⟩
      · cases hw
      have hl' : db.get l.clientOid = none := by
        simpa [hget₁, hne.symm] using hl
      have hbl' : db.BindingOk l.inserted := by
        rw [hdb₁] at hbl
        exact hbl
      refine Or.inr ⟨rfl, hm, hl', hbm, hbl', ?_, fun o => ?_⟩
      · rw [hdb₂, hdb₁]
      · rw [hget₂ o, hget₁ o]
        by_cases hol : o = l.clientOid
        · subst hol
          simp [hne.symm]
        · simp [hol]

/-- `claim_entry_post` : the staged limit child becomes `requested`, once. -/
def claimEntryPost (db : Db) (clientOid : String) : Except DbError (Db × Bool) :=
  match db.get clientOid with
  | none => .ok (db, false)
  | some r =>
    if r.role = .entry ∧ r.entryLeg = some .limit ∧ r.state = .staged ∧
        r.cancelRequestedBy = none then
      (db.setIntent clientOid LiveIntentRecord.postClaimed).map (·, true)
    else .ok (db, false)

theorem claimEntryPost_ok {db db' : Db} {oid : String} {won : Bool}
    (h : db.claimEntryPost oid = .ok (db', won)) :
    (won = false ∧ db' = db) ∨
      ∃ r, db.Rewrites db' oid LiveIntentRecord.postClaimed won r ∧ r.role = .entry ∧
        r.entryLeg = some .limit ∧ r.state = .staged ∧ r.cancelRequestedBy = none := by
  unfold claimEntryPost at h
  split at h
  · obtain ⟨rfl, rfl⟩ := Prod.mk.inj (Except.ok.inj h)
    exact Or.inl ⟨rfl, rfl⟩
  next r hr =>
    split at h
    next hstaged =>
      obtain ⟨r', hr'⟩ := rewrites_of_setIntent h fun _ => rfl
      obtain rfl : r = r' := Option.some.inj (hr.symm.trans hr'.2.1)
      exact Or.inr ⟨r, hr', hstaged⟩
    · obtain ⟨rfl, rfl⟩ := Prod.mk.inj (Except.ok.inj h)
      exact Or.inl ⟨rfl, rfl⟩

/-! ## Cancelling -/

/-- The intent, its reservation and its dispatch are no record of an audited baseline. -/
def notBaselined (db : Db) (r : LiveIntentRecord) (m : MarginReservation) (d : BitgetDispatch) :
    Bool :=
  !db.baselined (.intent r.clientOid) && !db.baselined (.reservation m.id) &&
    !db.baselined (.dispatch d.id)

/-- The reservation and the dispatch an entry intent names, when they belong together and
nothing of it is baselined : the joins of `claim_cancel` and `pending_entries`. -/
def ownedEntry (db : Db) (r : LiveIntentRecord) : Bool :=
  r.role = .entry && r.orderType = .limit &&
    db.reservations.rows.any fun m => some m.id = r.marginReservationId &&
      db.dispatches.rows.any fun d => some d.id = r.dispatchId && d.id = m.dispatchId &&
        db.notBaselined r m d

/-- `claim_cancel`. -/
def claimCancel (db : Db) (clientOid : String) (managementId : Uuid) :
    Except DbError (Db × Bool) :=
  match db.get clientOid with
  | none => .ok (db, false)
  | some r =>
    if db.ownedEntry r ∧ r.cancelRequestedBy = none ∧ r.providerTerminal = false then
      (db.setIntent clientOid (LiveIntentRecord.cancelClaimed managementId)).map (·, true)
    else .ok (db, false)

/-- `claim_cancel_post`. -/
def claimCancelPost (db : Db) (clientOid : String) : Except DbError (Db × Bool) :=
  match db.get clientOid with
  | none => .ok (db, false)
  | some r =>
    if db.ownedEntry r ∧ r.cancelRequestedBy ≠ none ∧ r.cancelPostClaimed = false ∧
        r.providerTerminal = false then
      (db.setIntent clientOid LiveIntentRecord.cancelPosted).map (·, true)
    else .ok (db, false)

theorem claimCancel_ok {db db' : Db} {oid : String} {mid : Uuid} {won : Bool}
    (h : db.claimCancel oid mid = .ok (db', won)) :
    (won = false ∧ db' = db) ∨
      ∃ r, db.Rewrites db' oid (LiveIntentRecord.cancelClaimed mid) won r ∧
        db.ownedEntry r ∧ r.cancelRequestedBy = none ∧ r.providerTerminal = false := by
  unfold claimCancel at h
  split at h
  · obtain ⟨rfl, rfl⟩ := Prod.mk.inj (Except.ok.inj h)
    exact Or.inl ⟨rfl, rfl⟩
  next r hr =>
    split at h
    next hc =>
      obtain ⟨r', hr'⟩ := rewrites_of_setIntent h fun _ => rfl
      obtain rfl : r = r' := Option.some.inj (hr.symm.trans hr'.2.1)
      exact Or.inr ⟨r, hr', hc⟩
    · obtain ⟨rfl, rfl⟩ := Prod.mk.inj (Except.ok.inj h)
      exact Or.inl ⟨rfl, rfl⟩

theorem claimCancelPost_ok {db db' : Db} {oid : String} {won : Bool}
    (h : db.claimCancelPost oid = .ok (db', won)) :
    (won = false ∧ db' = db) ∨
      ∃ r, db.Rewrites db' oid LiveIntentRecord.cancelPosted won r := by
  unfold claimCancelPost at h
  split at h
  · obtain ⟨rfl, rfl⟩ := Prod.mk.inj (Except.ok.inj h)
    exact Or.inl ⟨rfl, rfl⟩
  next r hr =>
    split at h
    · exact Or.inr (rewrites_of_setIntent h fun _ => rfl)
    · obtain ⟨rfl, rfl⟩ := Prod.mk.inj (Except.ok.inj h)
      exact Or.inl ⟨rfl, rfl⟩

/-- The client order ids `pending_entries` selects. -/
def pendingEntryIds (db : Db) (symbol : Option String) (managementId : Option Uuid) :
    List String :=
  (db.intents.rows.filter fun row =>
    db.ownedEntry row.record &&
      (!row.record.providerTerminal ||
        (managementId.isSome && row.record.cancelRequestedBy = managementId)) &&
      symbol.all (· = row.record.symbol)).map LiveIntentRow.clientOid

/-- `unknown_non_entry`, the client order ids. -/
def unknownNonEntryIds (db : Db) : List String :=
  (db.intents.rows.filter fun row =>
    row.record.role ≠ .entry && row.record.state = .unknown).map LiveIntentRow.clientOid

/-- `settle_absent` : the result says whether the row changed. -/
def settleAbsent (db : Db) (clientOid : String) : Except DbError (Db × Bool) :=
  match db.get clientOid with
  | none => .ok (db, false)
  | some r =>
    if r.state = .unknown ∧ r.role ≠ .entry ∧ r.filledQty = 0 then
      (db.setIntent clientOid LiveIntentRecord.settledAbsent).map (·, true)
    else .ok (db, false)

theorem settleAbsent_ok {db db' : Db} {oid : String} {won : Bool}
    (h : db.settleAbsent oid = .ok (db', won)) :
    (won = false ∧ db' = db) ∨
      ∃ r, db.Rewrites db' oid LiveIntentRecord.settledAbsent won r ∧ r.role ≠ .entry := by
  unfold settleAbsent at h
  split at h
  · obtain ⟨rfl, rfl⟩ := Prod.mk.inj (Except.ok.inj h)
    exact Or.inl ⟨rfl, rfl⟩
  next r hr =>
    split at h
    next hc =>
      obtain ⟨r', hr'⟩ := rewrites_of_setIntent h fun _ => rfl
      obtain rfl : r = r' := Option.some.inj (hr.symm.trans hr'.2.1)
      exact Or.inr ⟨r, hr', hc.2.1⟩
    · obtain ⟨rfl, rfl⟩ := Prod.mk.inj (Except.ok.inj h)
      exact Or.inl ⟨rfl, rfl⟩

/-! ## Fills -/

/-- Insert a fill, `ON CONFLICT (exchange, provider_fill_id) DO NOTHING`. -/
def insertFill (db : Db) (row : FillRow) : Db :=
  match db.fills.insert row with
  | none => db
  | some fills => { db with fills }

/-- The row `insert_provider_fills` writes for one fill, when the fill carries an id of the
venue and a positive price and quantity. -/
def providerFillRow (now : Instant) (record : LiveIntentRecord) (fill : ProviderFill) :
    Option FillRow :=
  match fill.fillId, fill.quantity, fill.price with
  | some providerFillId, some quantity, some price =>
    if h : 0 < price ∧ 0 < quantity ∧ statusDerived providerFillId = false then
      some
        { clientOrderId := record.clientOid
          providerFillId
          symbol := record.symbol
          price
          quantity
          fee := |fill.fee|
          realizedPnl := fill.realizedPnl
          filledAt := fill.time.getD now
          price_pos := h.1
          quantity_pos := h.2.1 }
    else none
  | _, _, _ => none

/-- Provider evidence supersedes the provisional row of the same intent. -/
def supersedeStatusDerived (db : Db) (clientOid : String) : Db :=
  if db.fills.rows.any fun f => f.clientOrderId = clientOid && !statusDerived f.providerFillId then
    { db with fills := db.fills.deleteWhere fun f =>
        f.clientOrderId = clientOid && statusDerived f.providerFillId }
  else db

/-- `insert_provider_fills`. -/
def insertProviderFills (now : Instant) (db : Db) (record : LiveIntentRecord)
    (fills : List ProviderFill) : Db :=
  fills.foldl (fun db fill =>
    match providerFillRow now record fill with
    | none => db
    | some row => (db.insertFill row).supersedeStatusDerived record.clientOid) db

/-- The provisional row of a fill the venue reported on the order status alone. -/
def statusDerivedRow (now : Instant) (record : LiveIntentRecord) : Option FillRow :=
  match record.avgPrice with
  | none => none
  | some price =>
    if h : (record.state = .filled ∨ record.state = .reconciled) ∧ 0 < price ∧
        0 < record.filledQty then
      some
        { clientOrderId := record.clientOid
          providerFillId := "status-derived:" ++
            (record.providerOrderId.filter (· ≠ "")).getD record.clientOid
          symbol := record.symbol
          price
          quantity := record.filledQty
          fee := |record.fee|
          realizedPnl := 0
          filledAt := now
          price_pos := h.2.1
          quantity_pos := h.2.2 }
    else none

/-- `insert_status_derived_fill`. -/
def insertStatusDerivedFill (now : Instant) (db : Db) (record : LiveIntentRecord) : Db :=
  match statusDerivedRow now record with
  | none => db
  | some row =>
    if db.fills.rows.any fun f => f.clientOrderId = record.clientOid then db
    else db.insertFill row

/-- A write to `fills` alone. -/
def FillsOnly (db db' : Db) : Prop := db' = { db with fills := db'.fills }

theorem fillsOnly_trans {db db₁ db₂ : Db} (h : db.FillsOnly db₁) (h' : db₁.FillsOnly db₂) :
    db.FillsOnly db₂ := by
  unfold FillsOnly at *
  rw [h', h]

theorem fillsOnly_insertFill (db : Db) (row : FillRow) : db.FillsOnly (db.insertFill row) := by
  unfold insertFill
  split <;> rfl

theorem fillsOnly_supersede (db : Db) (oid : String) :
    db.FillsOnly (db.supersedeStatusDerived oid) := by
  unfold supersedeStatusDerived
  split <;> rfl

theorem fillsOnly_insertProviderFills (now : Instant) (record : LiveIntentRecord) :
    ∀ (fills : List ProviderFill) (db : Db), db.FillsOnly (db.insertProviderFills now record fills)
  | [], db => rfl
  | fill :: fills, db => by
    refine fillsOnly_trans ?_ (fillsOnly_insertProviderFills now record fills _)
    dsimp only
    split
    · rfl
    · exact fillsOnly_trans (fillsOnly_insertFill db _) (fillsOnly_supersede _ _)

theorem fillsOnly_insertStatusDerivedFill (now : Instant) (db : Db) (record : LiveIntentRecord) :
    db.FillsOnly (db.insertStatusDerivedFill now record) := by
  unfold insertStatusDerivedFill
  split
  · rfl
  · split
    · rfl
    · exact fillsOnly_insertFill db _

theorem get_of_fillsOnly {db db' : Db} (h : db.FillsOnly db') (o : String) :
    db'.get o = db.get o := by
  rw [h]
  rfl

/-! ## Persisting a readback -/

/-- `update`. A provider order id that contradicts the stored one, or a missing row, is
refused. -/
def update (now : Instant) (db : Db) (record : LiveIntentRecord) : Except DbError Db :=
  match db.get record.clientOid with
  | none => .error .conflictOrMissing
  | some r =>
    if r.providerOrderId = none ∨ r.providerOrderId = record.providerOrderId then
      match db.setIntent record.clientOid record.written with
      | .error e => .error e
      | .ok db =>
        .ok ((db.insertProviderFills now record record.providerFills).insertStatusDerivedFill
          now record)
    else .error .conflictOrMissing

/-- An update rewrites the row of its client order id and touches nothing else but fills. -/
theorem update_ok {now : Instant} {db db' : Db} {record : LiveIntentRecord}
    (h : db.update now record = .ok db') :
    ∃ r, db.get record.clientOid = some r ∧
      (r.providerOrderId = none ∨ r.providerOrderId = record.providerOrderId) ∧
      db' = { db with intents := db'.intents, fills := db'.fills } ∧
      ∀ o, db'.get o = if o = record.clientOid then some (record.written r) else db.get o := by
  unfold update at h
  split at h
  · cases h
  next r hr =>
    split at h
    next hp =>
      split at h
      · cases h
      next db₁ h₁ =>
        obtain rfl := Except.ok.inj h
        obtain ⟨r', hr', hdb, hget⟩ := get_of_setIntent h₁ fun _ => rfl
        obtain rfl : r = r' := Option.some.inj (hr.symm.trans hr')
        have hfills : db₁.FillsOnly _ := fillsOnly_trans
          (fillsOnly_insertProviderFills now record record.providerFills db₁)
          (fillsOnly_insertStatusDerivedFill now _ record)
        refine ⟨r, hr, hp, ?_, fun o => ?_⟩
        · rw [hfills, hdb]
        · rw [get_of_fillsOnly hfills, hget o]
    · cases h

/-- An update under the order id of the row succeeds where the checks do. -/
theorem update_isOk {now : Instant} {db : Db} {record r : LiveIntentRecord}
    (hr : db.get record.clientOid = some r) (horder : r.providerOrderId = record.providerOrderId)
    (hc : (record.written r).Checked) : ∃ db', db.update now record = .ok db' := by
  have hkept : (record.written r).providerOrderId = r.providerOrderId := by
    rw [LiveIntentRecord.written, ← horder]
    cases r.providerOrderId <;> rfl
  obtain ⟨db₁, h₁⟩ := setIntent_isOk hr hc rfl hkept
  exact ⟨_, by simp only [update, hr, horder, or_true, if_true, h₁]; rfl⟩

/-! ## Close evidence -/

/-- `symbol_close_intents` : every completed close of the symbol, of whatever entry. -/
def symbolCloseIntents (db : Db) (symbol : String) : List LiveIntentRecord :=
  (db.intents.rows.map LiveIntentRow.record).filter fun r =>
    r.symbol = symbol && (r.role = .close || r.role = .emergencyClose) &&
      (r.state = .filled || r.state = .reconciled)

/-- `protection_intents`, the client order ids. -/
def protectionIntentIds (db : Db) (rootOid : String) : List String :=
  (db.intents.rows.filter fun row =>
    (row.record.role = .stopLoss || row.record.role = .takeProfit) &&
      row.record.protectionRootOid = some rootOid).map LiveIntentRow.clientOid

/-- The fills of the venue that an intent lists among its fill ids. -/
def ownFills (db : Db) (r : LiveIntentRecord) : List FillRow :=
  db.fills.rows.filter fun f => f.clientOrderId = r.clientOid &&
    !statusDerived f.providerFillId && r.providerFillIds.contains f.providerFillId

/-- The closes bound to a reservation. -/
def boundCloses (db : Db) (reservationId : Option Uuid) : List LiveIntentRecord :=
  (db.closeBindings.rows.filter fun b => some b.reservationId = reservationId).filterMap
    fun b => db.get b.closeClientOrderId

/-- Why an owned quantity cannot be established. -/
inductive OwnedQuantityEvidenceError
  | canonicalEntryRootRequired
  | closeLacksExactFillEvidence
  | closesExceedEntryFills
deriving DecidableEq

/-- The evidence a bound close needs : it reduces the root's position, and its fills in the
ledger are exactly the ones it lists and sum to its filled quantity. -/
def exactCloseEvidence (db : Db) (root close : LiveIntentRecord) : Bool :=
  close.symbol = root.symbol && close.side = root.side.opposite && close.role.closing &&
    (close.providerOrderId.any (· ≠ "")) &&
    ((db.ownFills close).map FillRow.quantity).sum = close.filledQty &&
    (db.ownFills close).length = close.providerFillIds.length &&
    close.providerFillIds.all (fun id => !statusDerived id)

/-- The closes of the root that moved a quantity. -/
def movedCloses (db : Db) (root : LiveIntentRecord) : List LiveIntentRecord :=
  (db.boundCloses root.marginReservationId).filter fun c => c.filledQty ≠ 0

/-- `_remaining_owned_quantity`. -/
def remainingOwnedQuantity (db : Db) (entryRootOid : String) :
    Except OwnedQuantityEvidenceError ℚ :=
  match db.get entryRootOid with
  | none => .error .canonicalEntryRootRequired
  | some root =>
    if root.role = .entry ∧ root.entryLeg ≠ some .limit then
      let total := root.filledQty + ((db.get (limitOid entryRootOid)).map (·.filledQty)).getD 0
      if (db.movedCloses root).all (db.exactCloseEvidence root) then
        let closed := ((db.movedCloses root).map (·.filledQty)).sum
        if total < closed then .error .closesExceedEntryFills else .ok (total - closed)
      else .error .closeLacksExactFillEvidence
    else .error .canonicalEntryRootRequired

/-- The owned quantity is what the legs filled less what their bound closes filled. -/
theorem remainingOwnedQuantity_ok {db : Db} {oid : String} {q : ℚ}
    (h : db.remainingOwnedQuantity oid = .ok q) :
    ∃ root, db.get oid = some root ∧ root.role = .entry ∧
      (∀ c ∈ db.movedCloses root, db.exactCloseEvidence root c) ∧
      q = root.filledQty + ((db.get (limitOid oid)).map (·.filledQty)).getD 0 -
        ((db.movedCloses root).map (·.filledQty)).sum ∧ 0 ≤ q := by
  unfold remainingOwnedQuantity at h
  split at h
  · cases h
  next root hroot =>
    split at h
    next hrole =>
      dsimp only at h
      split at h
      next hall =>
        split at h
        · cases h
        next hle =>
          obtain rfl := Except.ok.inj h
          exact ⟨root, hroot, hrole.1, List.all_eq_true.mp hall, rfl, by linarith⟩
      · cases h
    · cases h

end Db

end FattyTrader
