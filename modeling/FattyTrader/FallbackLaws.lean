import FattyTrader.Fallbacks

/-!
# One close for each fallback row

The intent of a close is inserted once, and rows of the ledger are never removed
(`Db.KeepsIntents`), so `ensureCloseIntent` is answered with true at most once for a client order
id. A lane sends a close once for each claim it won (`Balanced`), so at most one close is sent for
a client order id, whatever the lanes hold of the row (`fallback_posted_once`).

The status of the row is no such lock. `markPositionFlat`, `markClosing` and the last write of
`persistCloseFills` name the row by its id alone, so a lane that loaded the row before another lane
closed it may take a row that is closing or triggered back. Where no step does
(`Regresses`), every row only moves forward, and the row of a close that was sent can take its
fills (`fallback_moves_forward`).
-/

set_option linter.unusedSectionVars false

open Tables Runs Programs

namespace FattyTrader

/-! ## Intents that stay -/

namespace Db

variable {db db' db'' : Db} {oid : String}

theorem keepsIntents_iff : db.KeepsIntents db' ↔ ∀ oid r, db.get oid = some r →
    ∃ r', db'.get oid = some r' ∧ r'.symbol = r.symbol ∧ r'.side = r.side ∧ r'.role = r.role := by
  constructor
  · intro h oid r hr
    obtain ⟨row, hmem, rfl, rfl⟩ := get_eq_some_iff.mp hr
    obtain ⟨r', hr', heq⟩ := Option.map_eq_some_iff.mp (h row hmem)
    obtain ⟨hsymbol, hside, hrole⟩ : r'.symbol = row.record.symbol ∧ r'.side = row.record.side ∧
        r'.role = row.record.role := by simpa using heq
    exact ⟨r', hr', hsymbol, hside, hrole⟩
  · intro h row hmem
    obtain ⟨r', hr', hsymbol, hside, hrole⟩ :=
      h row.clientOid row.record (get_eq_some_iff.mpr ⟨row, hmem, rfl, rfl⟩)
    simp [hr', hsymbol, hside, hrole]

namespace KeepsIntents

theorem refl (db : Db) : db.KeepsIntents db :=
  keepsIntents_iff.mpr fun _ r hr => ⟨r, hr, rfl, rfl, rfl⟩

theorem trans (h : db.KeepsIntents db') (h' : db'.KeepsIntents db'') : db.KeepsIntents db'' := by
  refine keepsIntents_iff.mpr fun oid r hr => ?_
  obtain ⟨r', hr', hs, hd, ho⟩ := keepsIntents_iff.mp h oid r hr
  obtain ⟨r'', hr'', hs', hd', ho'⟩ := keepsIntents_iff.mp h' oid r' hr'
  exact ⟨r'', hr'', hs'.trans hs, hd'.trans hd, ho'.trans ho⟩

theorem get_ne_none (h : db.KeepsIntents db') (hr : db.get oid ≠ none) : db'.get oid ≠ none := by
  obtain ⟨r, hr⟩ := Option.ne_none_iff_exists'.mp hr
  obtain ⟨r', hr', -⟩ := keepsIntents_iff.mp h oid r hr
  simp [hr']

end KeepsIntents

theorem keepsIntents_setIntent {f : LiveIntentRecord → LiveIntentRecord}
    (h : db.setIntent oid f = .ok db') (hoid : ∀ r, (f r).clientOid = r.clientOid)
    (hf : ∀ r, (f r).symbol = r.symbol ∧ (f r).side = r.side ∧ (f r).role = r.role) :
    db.KeepsIntents db' := by
  obtain ⟨r₀, hr₀, -, hget⟩ := get_of_setIntent h hoid
  refine keepsIntents_iff.mpr fun oid' r hr => ?_
  rw [hget oid']
  by_cases ho : oid' = oid
  · subst ho
    obtain rfl : r₀ = r := Option.some.inj (hr₀.symm.trans hr)
    exact ⟨f r₀, by simp, hf r₀⟩
  · exact ⟨r, by simp [ho, hr], rfl, rfl, rfl⟩

theorem keepsIntents_of_fillsOnly (h : db.FillsOnly db') : db.KeepsIntents db' :=
  keepsIntents_iff.mpr fun oid r hr => ⟨r, by rw [get_of_fillsOnly h, hr], rfl, rfl, rfl⟩

/-- An inserted intent was not there, and is afterwards. -/
theorem keepsIntents_insertIntent {now : Instant} {r : LiveIntentRecord}
    (h : db.insertIntent now r = .ok (db', true)) :
    db.get r.clientOid = none ∧ db'.get r.clientOid = some r.inserted ∧ db.KeepsIntents db' := by
  rcases insertIntent_ok h with ⟨hwon, -⟩ | ⟨-, hnone, -, -, hget⟩
  · cases hwon
  refine ⟨hnone, by simp [hget], keepsIntents_iff.mpr fun oid r' hr' => ?_⟩
  have hne : oid ≠ r.clientOid := by
    rintro rfl
    simp [hnone] at hr'
  exact ⟨r', by simp [hget, hne, hr'], rfl, rfl, rfl⟩

end Db

/-! ## What the transactions do -/

/-- A status further along `active`, `closing`, `triggered`, or `cancelled` after `active`. -/
def FallbackStatus.Forward (a b : FallbackStatus) : Prop :=
  a = b ∨ a = .active ∨ (a = .closing ∧ b = .triggered)

instance (a b : FallbackStatus) : Decidable (a.Forward b) :=
  inferInstanceAs (Decidable (a = b ∨ a = .active ∨ (a = .closing ∧ b = .triggered)))

theorem FallbackStatus.Forward.trans {a b c : FallbackStatus} (h : a.Forward b)
    (h' : b.Forward c) : a.Forward c := by
  cases a <;> cases b <;> cases c <;> simp_all [FallbackStatus.Forward]

namespace FallbackWorld

/-- Every row is still there, further along, and so is every intent. -/
structure Advances (w w' : FallbackWorld) : Prop where
  intents : w.db.KeepsIntents w'.db
  rows : ∀ row ∈ w.fallbacks.rows, ∃ row' ∈ w'.fallbacks.rows, row'.id = row.id ∧
    row'.symbol = row.symbol ∧ row'.direction = row.direction ∧ row.state.Forward row'.state

variable {w w' w'' : FallbackWorld} {id symbol clientOid : String}

theorem Advances.of_rows (h : w'.fallbacks = w.fallbacks) (hdb : w.db.KeepsIntents w'.db) :
    w.Advances w' :=
  ⟨hdb, fun row hrow => ⟨row, h ▸ hrow, rfl, rfl, rfl, Or.inl rfl⟩⟩

theorem Advances.refl (w : FallbackWorld) : w.Advances w := .of_rows rfl (.refl _)

theorem Advances.trans (h : w.Advances w') (h' : w'.Advances w'') : w.Advances w'' := by
  refine ⟨h.intents.trans h'.intents, fun row hrow => ?_⟩
  obtain ⟨r₁, hmem₁, hid₁, hsym₁, hdir₁, hfwd₁⟩ := h.rows row hrow
  obtain ⟨r₂, hmem₂, hid₂, hsym₂, hdir₂, hfwd₂⟩ := h'.rows r₁ hmem₁
  exact ⟨r₂, hmem₂, hid₂.trans hid₁, hsym₂.trans hsym₁, hdir₂.trans hdir₁, hfwd₁.trans hfwd₂⟩

theorem setFallback_ok {f : FallbackRow → FallbackRow} (h : w.setFallback id f = .ok w') :
    w'.db = w.db ∧
      w'.fallbacks.rows = w.fallbacks.rows.map fun row => if row.id = id then f row else row := by
  unfold setFallback at h
  split at h
  · cases h
  next fallbacks hf =>
    obtain rfl := Except.ok.inj h
    refine ⟨rfl, ?_⟩
    simpa using Table.rows_of_updateWhere hf

/-- Rows rewritten in place advance where the status of each does. -/
theorem advances_of_map {p : FallbackRow → Prop} [DecidablePred p] {f : FallbackRow → FallbackRow}
    (hdb : w.db.KeepsIntents w'.db)
    (hrows : w'.fallbacks.rows = w.fallbacks.rows.map fun row => if p row then f row else row)
    (hf : ∀ row, (f row).id = row.id ∧ (f row).symbol = row.symbol ∧
      (f row).direction = row.direction)
    (hstate : ∀ row ∈ w.fallbacks.rows, p row → row.state.Forward (f row).state) :
    w.Advances w' := by
  refine ⟨hdb, fun row hrow => ?_⟩
  refine ⟨if p row then f row else row, ?_, ?_⟩
  · rw [hrows]
    exact List.mem_map.mpr ⟨row, hrow, rfl⟩
  · split
    next hp => exact ⟨(hf row).1, (hf row).2.1, (hf row).2.2, hstate row hrow hp⟩
    · exact ⟨rfl, rfl, rfl, Or.inl rfl⟩

theorem advances_setFallback {f : FallbackRow → FallbackRow} (h : w.setFallback id f = .ok w')
    (hf : ∀ row, (f row).id = row.id ∧ (f row).symbol = row.symbol ∧
      (f row).direction = row.direction)
    (hstate : ∀ row ∈ w.fallbacks.rows, row.id = id → row.state.Forward (f row).state) :
    w.Advances w' := by
  obtain ⟨hdb, hrows⟩ := setFallback_ok h
  exact advances_of_map (hdb ▸ .refl _) hrows hf hstate

theorem mem_closeOwners {side : Side} {quantity : ℚ} {row : FallbackRow} :
    row ∈ w.closeOwners clientOid symbol side quantity ↔ row ∈ w.fallbacks.rows ∧
      row.symbol = symbol ∧ row.direction.closeSide = side ∧ quantity ≤ row.quantity ∧
      0 < row.quantity ∧ fallbackClientOid row.id = clientOid := by
  simp [closeOwners, and_assoc]

/-- What a claim does : nothing, or it moves the only owner, which was active, to `closing`, with
an intent of the close in the ledger. It is won where the intent was not there. -/
theorem ensureCloseIntent_ok {now : Instant} {side : Side} {quantity : ℚ} {won : Bool}
    (h : w.ensureCloseIntent now clientOid symbol side quantity = .ok (w', won)) :
    (w' = w ∧ won = false) ∨ ∃ owner db, w.closeOwners clientOid symbol side quantity = [owner] ∧
      owner.state = .active ∧ (won = true → w.db.get clientOid = none) ∧
      w.db.KeepsIntents db ∧
      (∃ r, db.get clientOid = some r ∧ r.symbol = symbol ∧ r.side = side ∧ r.role = .close) ∧
      ({ w with db := db } : FallbackWorld).claimed owner.id clientOid = .ok w' := by
  unfold ensureCloseIntent at h
  split at h
  next owner howner =>
    split at h
    · obtain ⟨rfl, rfl⟩ := Prod.mk.inj (Except.ok.inj h)
      exact Or.inl ⟨rfl, rfl⟩
    next hactive =>
      have hactive : owner.state = .active := by simpa using hactive
      split at h
      · cases h
      next db hi =>
        obtain ⟨w₁, hw₁, hp⟩ := exists_of_map_ok h
        obtain ⟨rfl, rfl⟩ := Prod.mk.inj hp
        obtain ⟨hnone, hget, hkeep⟩ := Db.keepsIntents_insertIntent hi
        exact Or.inr ⟨owner, db, howner, hactive, fun _ => hnone, hkeep,
          ⟨_, hget, rfl, rfl, rfl⟩, hw₁⟩
      · split at h
        next r hr =>
          split at h
          next hmatch =>
            obtain ⟨w₁, hw₁, hp⟩ := exists_of_map_ok h
            obtain ⟨rfl, rfl⟩ := Prod.mk.inj hp
            exact Or.inr ⟨owner, w.db, howner, hactive, nofun, .refl _,
              ⟨r, hr, hmatch.1, hmatch.2.1, hmatch.2.2.1⟩, hw₁⟩
          · obtain ⟨rfl, rfl⟩ := Prod.mk.inj (Except.ok.inj h)
            exact Or.inl ⟨rfl, rfl⟩
        · obtain ⟨rfl, rfl⟩ := Prod.mk.inj (Except.ok.inj h)
          exact Or.inl ⟨rfl, rfl⟩
  · obtain ⟨rfl, rfl⟩ := Prod.mk.inj (Except.ok.inj h)
    exact Or.inl ⟨rfl, rfl⟩

theorem updateCloseIntent_ok {state : IntentState} {providerOrderId : Option String}
    (h : w.updateCloseIntent clientOid state providerOrderId = .ok w') :
    w'.fallbacks = w.fallbacks ∧ w.db.KeepsIntents w'.db := by
  unfold updateCloseIntent at h
  split at h
  · obtain rfl := Except.ok.inj h
    exact ⟨rfl, .refl _⟩
  · split at h
    · cases h
    next db hset =>
      obtain rfl := Except.ok.inj h
      exact ⟨rfl, Db.keepsIntents_setIntent hset (fun _ => rfl) fun _ => ⟨rfl, rfl, rfl⟩⟩

theorem closeLedger_ok {now : Instant} {r r' : LiveIntentRecord} {rows : List (Option FallbackFill)}
    {db : Db} (h : w.closeLedger now r rows = .ok (some (db, r'))) : w.db.FillsOnly db := by
  unfold closeLedger at h
  split at h
  · cases h
  · dsimp only at h
    split at h
    · cases h
    split at h
    · cases h
    split at h
    · cases h
    obtain ⟨rfl, -⟩ := Prod.mk.inj (Option.some.inj (Except.ok.inj h))
    exact Db.fillsOnly_insertProviderFills _ _ _ _

/-- What persisted evidence does : nothing, or it moves the row to `triggered` where the reading
was flat and the ledger is complete, and to `closing` otherwise. -/
theorem persistCloseFills_ok {now : Instant} {rows : List (Option FallbackFill)} {flat won : Bool}
    (h : w.persistCloseFills now id symbol rows flat = .ok (w', won)) :
    w' = w ∨ ∃ owner r db r' db', w.closeTarget id symbol = some (owner, r) ∧
      w.closeLedger now r rows = .ok (some (db, r')) ∧ w.db.KeepsIntents db' ∧
      ∃ f : FallbackRow → FallbackRow,
        ({ w with db := db' } : FallbackWorld).setFallback id f = .ok w' ∧
        ∀ row, (f row).id = row.id ∧ (f row).symbol = row.symbol ∧
          (f row).direction = row.direction ∧
          (f row).state = if r'.state = .filled ∧ flat = true then .triggered else .closing := by
  unfold persistCloseFills at h
  split at h
  · obtain ⟨rfl, -⟩ := Prod.mk.inj (Except.ok.inj h)
    exact Or.inl rfl
  next owner r htarget =>
    split at h
    · cases h
    · obtain ⟨rfl, -⟩ := Prod.mk.inj (Except.ok.inj h)
      exact Or.inl rfl
    next db r' hledger =>
      split at h
      · cases h
      next db' hset =>
        dsimp only at h
        obtain ⟨w₁, hw₁, hp⟩ := exists_of_map_ok h
        obtain ⟨rfl, -⟩ := Prod.mk.inj hp
        have hkeep := (Db.keepsIntents_of_fillsOnly (closeLedger_ok hledger)).trans
          (Db.keepsIntents_setIntent hset (fun _ => rfl) fun _ => ⟨rfl, rfl, rfl⟩)
        exact Or.inr ⟨owner, r, db, r', db', htarget, hledger, hkeep, _, hw₁,
          fun row => ⟨rfl, rfl, rfl, by simp⟩⟩

end FallbackWorld

/-! ## What an operation does -/

section Exec

variable {w w' : FallbackWorld} {c : FallbackChoice}

/-- A transaction leaves the world, or what it answers with. -/
theorem commit_world {α : Type} {x : Except FallbackError (FallbackWorld × α)} :
    (c.commit w x).2 = w ∨ ∃ a, x = .ok ((c.commit w x).2, a) ∧ ∀ b, (c.commit w x).1 = .ok b → b = a := by
  unfold FallbackChoice.commit
  split
  · exact Or.inl rfl
  next w' a =>
    cases c.delivery with
    | answered => exact Or.inr ⟨a, rfl, fun b hb => (Except.ok.inj hb).symm⟩
    | lost => exact Or.inr ⟨a, rfl, nofun⟩
    | failed => exact Or.inl rfl

/-- An answer of a transaction is the one it committed with. -/
theorem commit_ok {α : Type} {x : Except FallbackError (FallbackWorld × α)} {a : α}
    (h : c.commit w x = (.ok a, w')) : x = .ok (w', a) := by
  unfold FallbackChoice.commit at h
  split at h
  · cases (Prod.mk.inj h).1
  · split at h
    · obtain ⟨ha, rfl⟩ := Prod.mk.inj h
      rw [Except.ok.inj ha]
    · cases (Prod.mk.inj h).1
    · cases (Prod.mk.inj h).1

theorem commit_map_unit {x : Except FallbackError FallbackWorld} :
    (c.commit w (x.map (·, ()))).2 = w ∨ x = .ok (c.commit w (x.map (·, ()))).2 := by
  rcases commit_world (c := c) (w := w) (x := x.map (·, ())) with h | ⟨a, h, -⟩
  · exact Or.inl h
  · obtain ⟨w₁, hw₁, hp⟩ := exists_of_map_ok h
    exact Or.inr (hw₁.trans (congrArg Except.ok (congrArg Prod.fst hp)))

/-- The transactions that write, with the world each leaves. -/
inductive FallbackWorld.Writes (w : FallbackWorld) (now : Instant) :
    FallbackOp → FallbackWorld → Prop
  | claim {clientOid symbol : String} {side : Side} {quantity : ℚ} {won : Bool}
      {w' : FallbackWorld} :
      w.ensureCloseIntent now clientOid symbol side quantity = .ok (w', won) →
      Writes w now (.ensureCloseIntent clientOid symbol side quantity) w'
  | closing {id clientOid : String} {orderId : Option String} {w' : FallbackWorld} :
      w.markClosing id clientOid orderId = .ok w' →
      Writes w now (.markClosing id clientOid orderId) w'
  | flat {id : String} {w' : FallbackWorld} :
      w.markPositionFlat id = .ok w' → Writes w now (.markPositionFlat id) w'
  | intent {clientOid : String} {state : IntentState} {providerOrderId : Option String}
      {w' : FallbackWorld} :
      w.updateCloseIntent clientOid state providerOrderId = .ok w' →
      Writes w now (.updateCloseIntent clientOid state providerOrderId) w'
  | evidence {id symbol : String} {rows : List (Option FallbackFill)} {flat won : Bool}
      {w' : FallbackWorld} :
      w.persistCloseFills now id symbol rows flat = .ok (w', won) →
      Writes w now (.persistCloseFills id symbol rows flat) w'

/-- An operation leaves the world as it is, or is a transaction that writes. -/
theorem fallbackExec_world (o : FallbackOp) (w : FallbackWorld) (c : FallbackChoice) :
    (fallbackExec o w c).2 = w ∨ w.Writes c.now o (fallbackExec o w c).2 := by
  cases o with
  | loadActive => exact Or.inl rfl
  | getSinglePosition symbol => exact Or.inl rfl
  | getTicker symbol => exact Or.inl rfl
  | getFills symbol => exact Or.inl rfl
  | ownedEntry positionKey symbol side quantity => exact Or.inl rfl
  | placeMarketClose symbol side quantity clientOid => exact Or.inl rfl
  | ensureCloseIntent clientOid symbol side quantity =>
    rcases commit_world (c := c) (w := w)
      (x := w.ensureCloseIntent c.now clientOid symbol side quantity) with h | ⟨a, h, -⟩
    · exact Or.inl h
    · exact Or.inr (.claim h)
  | markClosing id clientOid orderId => exact commit_map_unit.imp_right fun h => .closing h
  | markPositionFlat id => exact commit_map_unit.imp_right fun h => .flat h
  | updateCloseIntent clientOid state providerOrderId =>
    exact commit_map_unit.imp_right fun h => .intent h
  | persistCloseFills id symbol rows flat =>
    rcases commit_world (c := c) (w := w)
      (x := w.persistCloseFills c.now id symbol rows flat) with h | ⟨a, h, -⟩
    · exact Or.inl h
    · exact Or.inr (.evidence h)

end Exec

namespace FallbackWorld

variable {w w' : FallbackWorld} {now : Instant} {o : FallbackOp}

theorem Writes.keepsIntents (h : w.Writes now o w') : w.db.KeepsIntents w'.db := by
  cases h with
  | claim h =>
    rcases ensureCloseIntent_ok h with ⟨rfl, -⟩ | ⟨owner, db, -, -, -, hkeep, -, hset⟩
    · exact .refl _
    · exact (setFallback_ok hset).1 ▸ hkeep
  | closing h => exact (setFallback_ok h).1 ▸ .refl _
  | flat h => exact (setFallback_ok h).1 ▸ .refl _
  | intent h => exact (updateCloseIntent_ok h).2
  | evidence h =>
    rcases persistCloseFills_ok h with rfl | ⟨owner, r, db, r', db', -, -, hkeep, f, hset, -⟩
    · exact .refl _
    · exact (setFallback_ok hset).1 ▸ hkeep

/-- The row with an id is the only one. -/
theorem eq_of_id {row row' : FallbackRow} (h : row ∈ w.fallbacks.rows)
    (h' : row' ∈ w.fallbacks.rows) (hid : row.id = row'.id) : row = row' := by
  rcases Table.eq_or_not_conflict h h' with rfl | hne
  · rfl
  · exact absurd (FallbackRow.conflict_of_id hid) hne

/-- The operation would take a row back : it cancels one that is closing or triggered, it marks
one as closing that is triggered or cancelled, or it persists evidence that does not confirm the
close on one that is triggered. -/
def Regresses (w : FallbackWorld) (now : Instant) : FallbackOp → Prop
  | .markPositionFlat id =>
    ∃ row ∈ w.fallbacks.rows, row.id = id ∧ (row.state = .closing ∨ row.state = .triggered)
  | .markClosing id _ _ =>
    ∃ row ∈ w.fallbacks.rows, row.id = id ∧ (row.state = .triggered ∨ row.state = .cancelled)
  | .persistCloseFills id symbol rows flat =>
    ∃ owner r db r', w.closeTarget id symbol = some (owner, r) ∧ owner.state = .triggered ∧
      w.closeLedger now r rows = .ok (some (db, r')) ∧ ¬ (r'.state = .filled ∧ flat = true)
  | _ => False

theorem closeTarget_eq_some {id symbol : String} {owner : FallbackRow} {r : LiveIntentRecord}
    (h : w.closeTarget id symbol = some (owner, r)) :
    owner ∈ w.fallbacks.rows ∧ owner.id = id ∧ owner.state ≠ .cancelled := by
  unfold closeTarget at h
  split at h
  · cases h
  next owner' hfind =>
    split at h
    next hstate =>
      split at h
      · cases h
      · split at h
        · obtain ⟨rfl, -⟩ := Prod.mk.inj (Option.some.inj h)
          exact ⟨Table.mem_of_find hfind, Table.key_of_find hfind, hstate.2⟩
        · cases h
    · cases h

/-- A write that takes no row back moves the rows forward. -/
theorem Writes.advances (h : w.Writes now o w') (hr : ¬ w.Regresses now o) : w.Advances w' := by
  cases h with
  | claim h =>
    rcases ensureCloseIntent_ok h with ⟨rfl, -⟩ | ⟨owner, db, howner, hactive, -, hkeep, -, hset⟩
    · exact .refl _
    have hmem : owner ∈ w.fallbacks.rows := (mem_closeOwners.mp (howner ▸ List.mem_cons_self)).1
    have hdb : w.Advances { w with db := db } := .of_rows rfl hkeep
    refine hdb.trans (advances_setFallback hset (fun _ => ⟨rfl, rfl, rfl⟩) fun row hrow hid => ?_)
    obtain rfl : row = owner := eq_of_id (w := w) hrow hmem hid
    exact Or.inr (Or.inl hactive)
  | closing h =>
    refine advances_setFallback h (fun _ => ⟨rfl, rfl, rfl⟩) fun row hrow hid => ?_
    have : ¬ (row.state = .triggered ∨ row.state = .cancelled) := fun hs => hr ⟨row, hrow, hid, hs⟩
    cases hs : row.state <;> simp_all [FallbackStatus.Forward]
  | flat h =>
    refine advances_setFallback h (fun _ => ⟨rfl, rfl, rfl⟩) fun row hrow hid => ?_
    have : ¬ (row.state = .closing ∨ row.state = .triggered) := fun hs => hr ⟨row, hrow, hid, hs⟩
    cases hs : row.state <;> simp_all [FallbackStatus.Forward]
  | intent h =>
    obtain ⟨hrows, hkeep⟩ := updateCloseIntent_ok h
    exact .of_rows hrows hkeep
  | evidence h =>
    rcases persistCloseFills_ok h with rfl | ⟨owner, r, db, r', db', htarget, hledger, hkeep, f,
      hset, hf⟩
    · exact .refl _
    obtain ⟨hmem, hid', hcancelled⟩ := closeTarget_eq_some htarget
    have hdb : w.Advances { w with db := db' } := .of_rows rfl hkeep
    refine hdb.trans (advances_setFallback hset
      (fun row => ⟨(hf row).1, (hf row).2.1, (hf row).2.2.1⟩) fun row hrow hid => ?_)
    obtain rfl : row = owner := eq_of_id (w := w) hrow hmem (hid.trans hid'.symm)
    rw [(hf row).2.2.2]
    split
    · cases hs : row.state <;> simp_all [FallbackStatus.Forward]
    next hconfirmed =>
      have hnot : row.state ≠ .triggered := fun hs =>
        hr ⟨row, r, db, r', htarget, hs, hledger, hconfirmed⟩
      cases hs : row.state <;> simp_all [FallbackStatus.Forward]

/-- The environment keeps the intents and moves the rows forward. -/
theorem env_advances {e : FallbackEnv} (h : w.env e = some w') : w.Advances w' := by
  cases e with
  | registerFallback row =>
    obtain ⟨fallbacks, hins, rfl⟩ := Option.map_eq_some_iff.mp h
    refine ⟨.refl _, fun row' hrow' => ⟨row', ?_, rfl, rfl, rfl, Or.inl rfl⟩⟩
    rw [Table.rows_of_insert hins]
    exact List.mem_append_left _ hrow'
  | updateFallbackLevels positionKey stopLoss quantity environment =>
    obtain ⟨fallbacks, hup, rfl⟩ := Option.map_eq_some_iff.mp h
    exact advances_of_map (.refl _) (Table.rows_of_updateWhere hup) (fun _ => ⟨rfl, rfl, rfl⟩)
      fun _ _ _ => Or.inl rfl
  | disableFallback positionKey epoch =>
    obtain ⟨fallbacks, hup, rfl⟩ := Option.map_eq_some_iff.mp h
    refine advances_of_map (.refl _) (Table.rows_of_updateWhere hup) (fun _ => ⟨rfl, rfl, rfl⟩)
      fun row _ hrow => Or.inr (Or.inl ?_)
    simp only [Bool.and_eq_true, decide_eq_true_eq] at hrow
    exact hrow.2
  | ledger db =>
    simp only [env] at h
    split at h
    next hkeep =>
      obtain rfl := Option.some.inj h
      exact .of_rows rfl hkeep
    · cases h

end FallbackWorld
end FattyTrader
