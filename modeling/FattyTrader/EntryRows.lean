import FattyTrader.RecoveryFollows

/-!
# What a step does to the intents

`IntentChange` says once what an operation of the entry path can do to the row of a client
order id : nothing, insert it, or rewrite it in one of five ways. What the other components
write leaves entry rows alone (`get_of_env`). A row keeps the order it was inserted with
(`LiveIntentRecord.order`), and stays terminal once it is.

A claim that is answered with success changed the row as it says (`get_of_claim`,
`get_of_claimSplit`, `get_of_claimEntryPost`). The client
order ids of roots and of limit children never meet (`clientOid_ne_limitOid`).
-/

set_option linter.unusedSectionVars false

open Tables

namespace FattyTrader

open Programs

/-! ## Client order ids -/

theorem getLast_hexDigits (k n : ℕ) :
    ∃ c, (hexDigits (k + 1) n).getLast? = some c ∧ c ≠ 't' := by
  refine ⟨"0123456789abcdef".toList.getD (n % 16) '0', by simp [hexDigits], ?_⟩
  have h : ∀ m < 16, "0123456789abcdef".toList.getD m '0' ≠ 't' := by decide
  exact h _ (Nat.mod_lt _ (by omega))

/-- The client order id of a dispatch ends in a hexadecimal digit. -/
theorem getLast_clientOid (x : BitgetDispatchExecution) (d : BitgetDispatch) :
    ∃ c, (x.clientOid d).toList.getLast? = some c ∧ c ≠ 't' := by
  have htoken : ∀ (s : String) (id : Uuid),
      ∃ c, (s ++ hexPrefix id).toList.getLast? = some c ∧ c ≠ 't' := by
    intro s id
    obtain ⟨c, hc, hne⟩ := getLast_hexDigits 15 (id / 16 ^ 16)
    refine ⟨c, ?_, hne⟩
    simp only [hexPrefix, String.toList_append, String.toList_ofList]
    rw [List.getLast?_append, hc]
    rfl
  unfold BitgetDispatchExecution.clientOid
  dsimp only
  split <;> exact htoken _ _

theorem clientOid_ne_limitOid (x : BitgetDispatchExecution) (d : BitgetDispatch)
    (rootOid : String) : x.clientOid d ≠ limitOid rootOid := by
  intro h
  obtain ⟨c, hc, hne⟩ := getLast_clientOid x d
  rw [h, limitOid, String.toList_append, List.getLast?_append] at hc
  simp at hc
  exact hne hc.symm

/-! ## The order of an intent -/

/-- What the row of an intent keeps for good : the record with the columns that change reset. -/
def LiveIntentRecord.order (r : LiveIntentRecord) : LiveIntentRecord :=
  { r with
    state := .requested
    filledQty := 0
    avgPrice := none
    fee := 0
    providerOrderId := none
    providerFillIds := []
    providerFills := []
    cancelRequestedBy := none
    providerTerminal := false
    cancelPostClaimed := false
    activeStopLossPrice := none
    activeTakeProfitPrice := none }

namespace Db

/-! ## Operations -/

/-- What an operation can do to the row of `oid`. -/
inductive IntentChange (oid : String) :
    EntryOp → Option LiveIntentRecord → Option LiveIntentRecord → Prop
  | kept (o : EntryOp) (row : Option LiveIntentRecord) : IntentChange oid o row row
  | claimed {r} (h : r.clientOid = oid) : IntentChange oid (.claim r) none (some r.inserted)
  | market {m l} (h : m.clientOid = oid) :
      IntentChange oid (.claimSplit m l) none (some m.inserted)
  | limit {m l} (h : l.clientOid = oid) :
      IntentChange oid (.claimSplit m l) none (some l.inserted)
  | postClaimed {r} (staged : r.state = .staged) (leg : r.entryLeg = some .limit) :
      IntentChange oid (.claimEntryPost oid) (some r) (some r.postClaimed)
  | cancelClaimed {r mid} (open_ : r.providerTerminal = false) :
      IntentChange oid (.claimCancel oid mid) (some r) (some (r.cancelClaimed mid))
  | cancelPosted {r} : IntentChange oid (.claimCancelPost oid) (some r) (some r.cancelPosted)
  | written {r record} (h : record.clientOid = oid) :
      IntentChange oid (.update record) (some r) (some (record.written r))
  | settledAbsent {r} (role : r.role ≠ .entry) :
      IntentChange oid (.settleAbsent oid) (some r) (some r.settledAbsent)

variable {db db' : Db} {oid : String}

theorem intentChange_of_rewrites {o : EntryOp} {oid' : String}
    {f : LiveIntentRecord → LiveIntentRecord} {won : Bool} {r : LiveIntentRecord}
    (h : db.Rewrites db' oid' f won r)
    (hchange : oid' = oid → IntentChange oid o (some r) (some (f r))) :
    IntentChange oid o (db.get oid) (db'.get oid) := by
  obtain ⟨-, hr, -, hget⟩ := h
  rw [hget oid]
  split
  next heq =>
    subst heq
    rw [hr]
    exact hchange rfl
  · exact .kept _ _

theorem intentChange_of_eq {o : EntryOp} (h : db'.get oid = db.get oid) :
    IntentChange oid o (db.get oid) (db'.get oid) := by
  rw [h]
  exact .kept _ _

/-- A transaction either commits or changes nothing. -/
theorem commit_cases {α : Type} {c : EntryChoice} {t : Except DbError (Db × α)}
    {a : Except ExecutionError α} (h : c.commit db t = (a, db')) :
    (db' = db ∧ ∀ v, a ≠ .ok v) ∨ ∃ v, t = .ok (db', v) ∧ ∀ v', a = .ok v' → v' = v := by
  unfold EntryChoice.commit at h
  split at h
  · obtain ⟨rfl, rfl⟩ := Prod.mk.inj h
    exact Or.inl ⟨rfl, by simp⟩
  next db₁ v =>
    split at h
    · obtain ⟨rfl, rfl⟩ := Prod.mk.inj h
      exact Or.inr ⟨v, rfl, fun v' hv => (Except.ok.inj hv).symm⟩
    · obtain ⟨rfl, rfl⟩ := Prod.mk.inj h
      exact Or.inr ⟨v, rfl, by simp⟩
    · obtain ⟨rfl, rfl⟩ := Prod.mk.inj h
      exact Or.inl ⟨rfl, by simp⟩

/-- The tables an intent is read from are untouched. -/
theorem get_of_intents (h : db'.intents = db.intents) : db'.get oid = db.get oid := by
  simp [get, intentRow, h]

theorem intents_of_expireSourceDispatch {now : Instant} {did : Uuid} {state : DispatchState}
    (h : db.expireSourceDispatch now did state = .ok db') : db'.intents = db.intents := by
  unfold expireSourceDispatch at h
  split at h
  · rw [Except.ok.inj h]
  split at h
  · rw [Except.ok.inj h]
  split at h
  · rw [Except.ok.inj h]
  split at h
  · cases h
  · rw [rewriteReservations_eq h]
    rfl

theorem intents_of_reserve {clock : ReserveClock} {ids : ReserveIds} {eligible : Bool}
    {q : ReserveRequest} {a : BalanceAdmission}
    (h : db.reserve clock ids eligible q = .ok (db', a)) : db'.intents = db.intents := by
  rcases reserve_ok h with ⟨_, -, rfl | ⟨state, hx⟩⟩ | ⟨e, hc, -⟩
  · rfl
  · exact intents_of_expireSourceDispatch hx
  · unfold commitMargin at hc
    split at hc
    · cases hc
    next db₁ h₁ =>
      have hdb₁ : db₁.intents = db.intents := by rw [rewriteReservations_eq h₁]
      dsimp only at hc
      split at hc
      · obtain ⟨rfl, -⟩ := Prod.mk.inj (Except.ok.inj hc)
        exact hdb₁
      · split at hc
        · cases hc
        · obtain ⟨rfl, -⟩ := Prod.mk.inj (Except.ok.inj hc)
          exact hdb₁

theorem intents_of_resolve {now : Instant} {rid : Uuid} {outcome : Outcome}
    (h : db.resolve now rid outcome = .ok db') : db'.intents = db.intents := by
  unfold resolve at h
  split at h
  · rw [Except.ok.inj h]
  split at h
  · cases h
  split at h
  · rw [Except.ok.inj h]
  split at h
  · rw [Except.ok.inj h]
  · rw [setReservation_eq h]

theorem intents_of_entrySourceEligible {now : Instant} {fresh lapsed : Bool} {did : Uuid}
    {a : Bool} (h : db.entrySourceEligible now fresh lapsed did = .ok (db', a)) :
    db'.intents = db.intents := by
  have hsame : ∀ {b : Bool}, (Except.ok (db, b) : Except DbError (Db × Bool)) = .ok (db', a) →
      db'.intents = db.intents := fun h => by rw [(Prod.mk.inj (Except.ok.inj h)).1]
  unfold entrySourceEligible at h
  split at h
  · exact hsame h
  split at h
  · split at h
    · exact hsame h
    split at h
    · obtain ⟨db₁, hx, hp⟩ := exists_of_map_ok h
      obtain ⟨rfl, -⟩ := Prod.mk.inj hp
      exact intents_of_expireSourceDispatch hx
    · exact hsame h
  · exact hsame h

theorem intents_of_transition {did : Uuid} {expected target : DispatchState}
    {reason : Option String} (h : db.transition did expected target reason = .ok db') :
    db'.intents = db.intents := by
  unfold transition at h
  split at h
  · cases h
  split at h
  · split at h
    · cases h
    · obtain rfl := Except.ok.inj h
      split <;> rfl
  · cases h

/-- A split claim of one client order id for both legs never commits. -/
theorem claimSplit_ne {now : Instant} {m l : LiveIntentRecord}
    (h : db.claimSplit now m l = .ok (db', true)) : m.clientOid ≠ l.clientOid := by
  intro heq
  unfold claimSplit at h
  split at h
  · cases h
  · cases h
  next db₁ h₁ =>
    have hget : db₁.get l.clientOid ≠ none := by
      rcases insertIntent_ok h₁ with ⟨hw, -⟩ | ⟨-, -, -, -, hget⟩
      · cases hw
      · rw [hget, ← heq]
        simp
    split at h
    · cases h
    · cases h
    next db₂ h₂ =>
      rcases insertIntent_ok h₂ with ⟨hw, -⟩ | ⟨-, hnone, -⟩
      · cases hw
      · exact hget hnone

theorem claimSplit_cases {now : Instant} {m l : LiveIntentRecord} {won : Bool}
    (h : db.claimSplit now m l = .ok (db', won)) :
    (won = false ∧ db' = db) ∨
      (won = true ∧ db.get m.clientOid = none ∧ db.get l.clientOid = none ∧
        db.BindingOk m.inserted ∧ db.BindingOk l.inserted ∧
        db' = { db with intents := db'.intents } ∧
        ∀ o, db'.get o = if o = m.clientOid then some m.inserted
          else if o = l.clientOid then some l.inserted else db.get o) := by
  cases won with
  | true =>
    rcases claimSplit_ok (claimSplit_ne h) h with ⟨hw, -⟩ | h
    · cases hw
    · exact Or.inr h
  | false =>
    refine Or.inl ⟨rfl, ?_⟩
    unfold claimSplit at h
    split at h
    · cases h
    next db₁ h₁ =>
      obtain ⟨rfl, -⟩ := Prod.mk.inj (Except.ok.inj h)
      rcases insertIntent_ok h₁ with ⟨-, hdb, -⟩ | ⟨hw, -⟩
      · exact hdb
      · cases hw
    · split at h
      · cases h
      · cases h
      · cases h

/-- Every operation changes the row of a client order id in one of the ways of
`IntentChange`. -/
theorem intentChange_of_exec {o : EntryOp} {c : EntryChoice}
    {a : Except ExecutionError (EntryAns o)} (h : entryExec o db c = (a, db')) (oid : String) :
    IntentChange oid o (db.get oid) (db'.get oid) := by
  have hsame : db' = db → IntentChange oid o (db.get oid) (db'.get oid) := by
    rintro rfl
    exact .kept _ _
  have hintents : db'.intents = db.intents → IntentChange oid o (db.get oid) (db'.get oid) :=
    fun h => intentChange_of_eq (get_of_intents h)
  cases o with
  | claim record =>
    rcases commit_cases h with ⟨hdb, -⟩ | ⟨won, ht, -⟩
    · exact hsame hdb
    rcases insertIntent_ok ht with ⟨-, hdb, -⟩ | ⟨-, hnone, -, -, hget⟩
    · exact hsame hdb
    · rw [hget oid]
      split
      next heq =>
        subst heq
        rw [hnone]
        exact .claimed rfl
      · exact .kept _ _
  | claimSplit m l =>
    rcases commit_cases h with ⟨hdb, -⟩ | ⟨won, ht, -⟩
    · exact hsame hdb
    rcases claimSplit_cases ht with ⟨-, hdb⟩ | ⟨-, hm, hl, -, -, -, hget⟩
    · exact hsame hdb
    · rw [hget oid]
      split
      next heq =>
        subst heq
        rw [hm]
        exact .market rfl
      · split
        next heq =>
          subst heq
          rw [hl]
          exact .limit rfl
        · exact .kept _ _
  | claimEntryPost oid' =>
    rcases commit_cases h with ⟨hdb, -⟩ | ⟨won, ht, -⟩
    · exact hsame hdb
    rcases claimEntryPost_ok ht with ⟨-, hdb⟩ | ⟨r, hr, -, hleg, hstaged, -⟩
    · exact hsame hdb
    · exact intentChange_of_rewrites hr (by rintro rfl; exact .postClaimed hstaged hleg)
  | claimCancel oid' mid =>
    rcases commit_cases h with ⟨hdb, -⟩ | ⟨won, ht, -⟩
    · exact hsame hdb
    rcases claimCancel_ok ht with ⟨-, hdb⟩ | ⟨r, hr, -, -, hopen⟩
    · exact hsame hdb
    · exact intentChange_of_rewrites hr (by rintro rfl; exact .cancelClaimed hopen)
  | claimCancelPost oid' =>
    rcases commit_cases h with ⟨hdb, -⟩ | ⟨won, ht, -⟩
    · exact hsame hdb
    rcases claimCancelPost_ok ht with ⟨-, hdb⟩ | ⟨r, hr⟩
    · exact hsame hdb
    · exact intentChange_of_rewrites hr (by rintro rfl; exact .cancelPosted)
  | update record =>
    rcases commit_cases h with ⟨hdb, -⟩ | ⟨_, ht, -⟩
    · exact hsame hdb
    obtain ⟨db₁, hu, hp⟩ := exists_of_map_ok ht
    obtain ⟨rfl, -⟩ := Prod.mk.inj hp
    obtain ⟨r, hr, -, -, hget⟩ := update_ok hu
    rw [hget oid]
    split
    next heq =>
      subst heq
      rw [hr]
      exact .written rfl
    · exact .kept _ _
  | settleAbsent oid' =>
    rcases commit_cases h with ⟨hdb, -⟩ | ⟨won, ht, -⟩
    · exact hsame hdb
    rcases settleAbsent_ok ht with ⟨-, hdb⟩ | ⟨r, hr, hrole⟩
    · exact hsame hdb
    · exact intentChange_of_rewrites hr (by rintro rfl; exact .settledAbsent hrole)
  | entrySourceEligible did =>
    rcases commit_cases h with ⟨hdb, -⟩ | ⟨won, ht, -⟩
    · exact hsame hdb
    · exact hintents (intents_of_entrySourceEligible ht)
  | transition did expected target =>
    rcases commit_cases h with ⟨hdb, -⟩ | ⟨_, ht, -⟩
    · exact hsame hdb
    · obtain ⟨db₁, hx, hp⟩ := exists_of_map_ok ht
      obtain ⟨rfl, -⟩ := Prod.mk.inj hp
      exact hintents (intents_of_transition hx)
  | reserve q =>
    rcases commit_cases h with ⟨hdb, -⟩ | ⟨won, ht, -⟩
    · exact hsame hdb
    · exact hintents (intents_of_reserve ht)
  | resolve rid outcome =>
    rcases commit_cases h with ⟨hdb, -⟩ | ⟨_, ht, -⟩
    · exact hsame hdb
    · obtain ⟨db₁, hx, hp⟩ := exists_of_map_ok ht
      obtain ⟨rfl, -⟩ := Prod.mk.inj hp
      exact hintents (intents_of_resolve hx)
  | remainingOwnedQuantity oid' =>
    simp only [entryExec] at h
    split at h <;> exact hsame (Prod.mk.inj h).2.symm
  | _ => exact hsame (Prod.mk.inj h).2.symm

/-! ## What a change keeps -/

section Kept

variable {o : EntryOp} {r r' : LiveIntentRecord}

/-- No row is removed. -/
theorem IntentChange.exists_some {row : Option LiveIntentRecord}
    (h : IntentChange oid o (some r) row) : ∃ r', row = some r' := by
  cases h <;> exact ⟨_, rfl⟩

/-- A row keeps its provider order id. -/
theorem IntentChange.providerOrderId {id : String} (h : IntentChange oid o (some r) (some r'))
    (hid : r.providerOrderId = some id) : r'.providerOrderId = some id := by
  cases h with
  | written => simp [LiveIntentRecord.written, hid]
  | _ => exact hid

/-- A row keeps its order. -/
theorem IntentChange.order_eq (h : IntentChange oid o (some r) (some r')) :
    r'.order = r.order := by
  cases h <;> rfl

/-- A row stays terminal. -/
theorem IntentChange.terminal (h : IntentChange oid o (some r) (some r'))
    (ht : r.providerTerminal) : r'.providerTerminal := by
  cases h with
  | cancelClaimed hopen => simp [hopen] at ht
  | written => simp [LiveIntentRecord.written, ht]
  | _ => exact ht

end Kept

/-! ## The other components -/

/-- The other components write no entry row : a row is as it was, or neither was nor is an
entry. No row is removed. -/
theorem env_cases {e : EntryEnv} (h : e.apply db = .ok db') (oid : String) :
    db'.get oid = db.get oid ∨
      ∃ r', db'.get oid = some r' ∧ r'.role ≠ .entry ∧ ∀ r, db.get oid = some r → r.role ≠ .entry := by
  have hintents : db'.intents = db.intents → db'.get oid = db.get oid ∨
      ∃ r', db'.get oid = some r' ∧ r'.role ≠ .entry ∧
        ∀ r, db.get oid = some r → r.role ≠ .entry :=
    fun h => Or.inl (get_of_intents h)
  cases e with
  | escalateExpired now id =>
    refine hintents ?_
    rw [rewriteReservations_eq (h : db.rewriteReservations _ _ = .ok db')]
  | releaseVerifiedClose clock claim =>
    refine hintents ?_
    obtain ⟨⟨db₁, a⟩, hx, rfl⟩ := exists_of_map_ok h
    unfold releaseVerifiedClose at hx
    split at hx
    · rw [(Prod.mk.inj (Except.ok.inj hx)).1]
    · split at hx
      · rw [(Prod.mk.inj (Except.ok.inj hx)).1]
      · obtain ⟨db₂, hset, hp⟩ := exists_of_map_ok hx
        obtain ⟨rfl, -⟩ := Prod.mk.inj hp
        rw [setReservation_eq hset]
  | applyBaseline now baselineId records =>
    refine hintents ?_
    rw [rewriteReservations_eq (h : Db.rewriteReservations _ _ _ = .ok db')]
  | expireSource now id =>
    refine hintents ?_
    replace h : db.expireSource now id = .ok db' := h
    unfold expireSource at h
    split at h
    · rw [Except.ok.inj h]
    · exact intents_of_expireSourceDispatch h
  | recordClose now record =>
    replace h : db.recordClose now record = .ok db' := h
    unfold recordClose at h
    split at h
    · cases h
    next hne =>
      obtain ⟨⟨db₁, won⟩, hx, rfl⟩ := exists_of_map_ok h
      rcases insertIntent_ok hx with ⟨-, hdb, -⟩ | ⟨-, hnone, -, -, hget⟩
      · exact Or.inl (by rw [hdb])
      · by_cases heq : oid = record.clientOid
        · subst heq
          refine Or.inr ⟨record.inserted, by rw [hget, if_pos rfl], hne, fun r hr => ?_⟩
          rw [hnone] at hr
          cases hr
        · exact Or.inl (by rw [hget, if_neg heq])
  | updateClose now record =>
    replace h : db.updateClose now record = .ok db' := h
    unfold updateClose at h
    split at h
    · cases h
    next r₀ hr₀ =>
      split at h
      · cases h
      next hne =>
        obtain ⟨r₁, hr₁, -, -, hget⟩ := update_ok h
        obtain rfl : r₀ = r₁ := Option.some.inj (hr₀.symm.trans hr₁)
        by_cases heq : oid = record.clientOid
        · subst heq
          refine Or.inr ⟨record.written r₀, by rw [hget, if_pos rfl], hne, fun r hr => ?_⟩
          obtain rfl := Option.some.inj (hr₀.symm.trans hr)
          exact hne
        · exact Or.inl (by rw [hget, if_neg heq])
  | bindClose binding =>
    refine hintents ?_
    replace h : db.bindClose binding = .ok db' := h
    unfold bindClose at h
    split at h
    · cases h
    · rw [← Except.ok.inj h]
  | enqueue d =>
    refine hintents ?_
    replace h : db.enqueue d = .ok db' := h
    unfold enqueue at h
    split at h
    · cases h
    · rw [← Except.ok.inj h]
  | transition id expected target =>
    exact hintents (intents_of_transition h)
  | manageLocally oid' =>
    refine hintents ?_
    rw [← Except.ok.inj h]

/-- The other components leave the entry rows alone, and add none. -/
theorem get_of_env {e : EntryEnv} (h : e.apply db = .ok db') {r : LiveIntentRecord}
    (hrole : r.role = .entry) : db'.get oid = some r ↔ db.get oid = some r := by
  rcases env_cases h oid with heq | ⟨r', hr', hne', hne⟩
  · rw [heq]
  · refine iff_of_false (fun hr => ?_) fun hr => hne r hr hrole
    obtain rfl := Option.some.inj (hr'.symm.trans hr)
    exact hne' hrole

/-! ## Answers -/

theorem get_of_claim {r : LiveIntentRecord} {c : EntryChoice}
    (h : entryExec (.claim r) db c = (.ok true, db')) :
    db.get r.clientOid = none ∧ db'.get r.clientOid = some r.inserted ∧
      db.BindingOk r.inserted := by
  rcases commit_cases h with ⟨-, hne⟩ | ⟨won, ht, hwon⟩
  · exact absurd rfl (hne true)
  · obtain rfl := hwon true rfl
    rcases insertIntent_ok ht with ⟨hw, -⟩ | ⟨-, hnone, hb, -, hget⟩
    · cases hw
    · exact ⟨hnone, by rw [hget, if_pos rfl], hb⟩

theorem get_of_claimSplit {m l : LiveIntentRecord} {c : EntryChoice}
    (h : entryExec (.claimSplit m l) db c = (.ok true, db')) :
    db.get m.clientOid = none ∧ db.get l.clientOid = none ∧
      db'.get m.clientOid = some m.inserted ∧ db'.get l.clientOid = some l.inserted ∧
      db.BindingOk m.inserted ∧ db.BindingOk l.inserted := by
  rcases commit_cases h with ⟨-, hne⟩ | ⟨won, ht, hwon⟩
  · exact absurd rfl (hne true)
  · obtain rfl := hwon true rfl
    have hne := claimSplit_ne ht
    rcases claimSplit_cases ht with ⟨hw, -⟩ | ⟨-, hm, hl, hbm, hbl, -, hget⟩
    · cases hw
    · exact ⟨hm, hl, by rw [hget, if_pos rfl], by rw [hget, if_neg hne.symm, if_pos rfl], hbm, hbl⟩

theorem get_of_claimEntryPost {c : EntryChoice}
    (h : entryExec (.claimEntryPost oid) db c = (.ok true, db')) :
    ∃ r, db.get oid = some r ∧ db'.get oid = some r.postClaimed ∧ r.role = .entry ∧
      r.state = .staged ∧ r.cancelRequestedBy = none := by
  rcases commit_cases h with ⟨-, hne⟩ | ⟨won, ht, hwon⟩
  · exact absurd rfl (hne true)
  · obtain rfl := hwon true rfl
    rcases claimEntryPost_ok ht with ⟨hw, -⟩ | ⟨r, ⟨-, hr, -, hget⟩, hrole, -, hstaged, hcancel⟩
    · cases hw
    · exact ⟨r, hr, by rw [hget, if_pos rfl], hrole, hstaged, hcancel⟩

end Db

/-! ## What an update writes -/

/-- No update stages an intent. -/
theorem UpdateReason.state_ne_staged {es : List EntryEvent} {r : LiveIntentRecord}
    (h : UpdateReason es r) : r.state ≠ .staged := by
  cases h with
  | @readback r result _ _ _ =>
    have : result.status.intentState ≠ .staged := by
      cases result.status <;> simp [LiveOrderStatus.intentState]
    simpa [LiveIntentRecord.readBack] using this
  | _ => simp [LiveIntentRecord.refused, LiveIntentRecord.retired, LiveIntentRecord.ambiguous,
      LiveIntentRecord.settled]

/-! ## Runs -/

/-- A step of the system that the condition `G` admits. -/
abbrev EntryStep (x : BitgetDispatchExecution) (G : EntryState → EntryLabel → Prop) :
    EntryState → EntryLabel → EntryState → Prop :=
  Runs.Guard (entrySystem x).Step G

/-- The invariant rule of the entry path : `I` holds of every state of every run whose steps
meet `G`, when starts, operations and the environment keep it. -/
theorem entry_inv {x : BitgetDispatchExecution} {G : EntryState → EntryLabel → Prop}
    {I : EntryState → Prop}
    (hstart : ∀ s i, System.Sound EntryAnswer (EntryProtocol x) s → I s → G s (.start i) →
      I (s.started i (i.body x)))
    (hact : ∀ s n i o k c a db', System.Sound EntryAnswer (EntryProtocol x) s → I s →
      s.calls[n]? = some (i, .op o k) → EntryProtocol x i (own n s.trace) o →
      entryExec o s.world c = (a, db') → G s (.act n c) → I (s.acted n i ⟨o, a⟩ (k a) db'))
    (henv : ∀ s e db', I s → e.apply s.world = .ok db' → G s (.env e) →
      I { s with world := db' })
    {s t : EntryState} {ls : List EntryLabel}
    (hs : System.Sound EntryAnswer (EntryProtocol x) s) (hI : I s)
    (hrun : Runs.Run (EntryStep x G) s ls t) :
    System.Sound EntryAnswer (EntryProtocol x) t ∧ I t := by
  refine System.inv (entry_answers x) (entryProtocol_follows x) hstart
    (fun s n i o k c a db' hs hI hn hφ hx hG =>
      hact s n i o k c a db' hs hI hn hφ (Option.some.inj hx) hG)
    (fun s e db' _ hI he hG => henv s e db' hI ?_ hG) hs hI hrun
  cases h : e.apply s.world with
  | error err =>
    simp [entrySystem, h, Except.toOption] at he
  | ok db₁ =>
    simp only [entrySystem, h, Except.toOption, Option.some.injEq] at he
    rw [he]

end FattyTrader
