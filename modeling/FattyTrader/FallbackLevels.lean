import FattyTrader.FallbackRuns

/-!
# Levels of a fallback after a partial booking

Source management books a part of a position and tells the local lane : `update_fallback_levels`
moves the row to the new stop and to the quantity that is left. Before the lane closes it asks
`_owned_quantity`, which takes the row's quantity for the quantity its entry filled
(`ownedQuantity_run`). Of a booked row the two differ, so the lane owns nothing
(`residual_unowned`).
-/

set_option linter.unusedSectionVars false

open Tables Programs

namespace FattyTrader

namespace FallbackWorld

/-- The rows `update_fallback_levels` writes. -/
def takesLevels (positionKey : String) (environment : Environment) (row : FallbackRow) : Bool :=
  row.positionKey = some positionKey && row.environment = some environment && row.state.watched

/-- `update_fallback_levels` : the result says whether a row moved. -/
def updateFallbackLevels (w : FallbackWorld) (positionKey : String) (stopLoss quantity : Decimal)
    (environment : Option Environment) : Except FallbackError (FallbackWorld × Bool) :=
  if positionKey = "" then
    .error (.valueError "fallback level update requires a position key")
  else
    match stopLoss.positive, quantity.positive, environment with
    | none, _, _ => .error (.valueError "fallback level update requires a positive stop")
    | _, none, _ => .error (.valueError "fallback level update requires a positive quantity")
    | _, _, none => .ok (w, false)
    | some stopLoss, some quantity, some environment =>
      match w.env (.updateFallbackLevels positionKey stopLoss quantity environment) with
      | none => .error (.db .uniqueViolation)
      | some w' => .ok (w', w.fallbacks.rows.any (takesLevels positionKey environment))

/-- The arguments of one update. -/
structure LevelUpdate where
  positionKey : String
  stopLoss : Decimal
  quantity : Decimal
  environment : Option Environment

/-- A booking tells the lane its levels ; an update that raises changes nothing. -/
def book (w : FallbackWorld) (u : LevelUpdate) : FallbackWorld :=
  match w.updateFallbackLevels u.positionKey u.stopLoss u.quantity u.environment with
  | .ok (w', _) => w'
  | .error _ => w

/-- The world after any number of bookings. -/
def booked (w : FallbackWorld) (us : List LevelUpdate) : FallbackWorld := us.foldl book w

/-- A booking leaves the ledger alone. -/
theorem db_book (w : FallbackWorld) (u : LevelUpdate) : (w.book u).db = w.db := by
  unfold book updateFallbackLevels
  split
  next w' won h =>
    split at h
    · cases h
    split at h
    · cases h
    · cases h
    · obtain ⟨rfl, -⟩ := Prod.mk.inj (Except.ok.inj h)
      rfl
    · split at h
      · cases h
      next w₁ hw₁ =>
        obtain ⟨rfl, -⟩ := Prod.mk.inj (Except.ok.inj h)
        obtain ⟨fallbacks, -, rfl⟩ := Option.map_eq_some_iff.mp hw₁
        rfl
  · rfl

theorem db_booked (us : List LevelUpdate) (w : FallbackWorld) : (w.booked us).db = w.db := by
  induction us generalizing w with
  | nil => rfl
  | cons u us ih => exact (ih (w.book u)).trans (w.db_book u)

/-- The answer of `_owned_quantity` in a world. -/
def ownedAnswer (w : FallbackWorld) (c : FallbackChoice) (positions : PositionPayload)
    (entry : FallbackRow) : Except FallbackError (Option ℚ) :=
  ((FallbackProg.ownedQuantity positions entry).run (fun o w => fallbackExec o w c) w).1

/-- The snapshot is the position of a row, with exactly the quantity of the row. -/
structure Holds (positions : PositionPayload) (entry : FallbackRow) (key : String) : Prop where
  key : entry.positionKey = some key ∧ key ≠ ""
  environment : entry.environment ≠ none
  quantity_pos : 0 < entry.quantity
  position : ∃ row, positions = some [some row] ∧ row.symbol = some entry.symbol ∧
    row.holdSide = some entry.direction ∧ row.oneWayMode ∧ row.isolated ∧
    row.openQuantity = some entry.quantity ∧
    row.cTime = entry.providerPositionEpoch ∧ ∃ epoch, row.cTime = some epoch ∧ epoch ≠ ""

/-- The intent is the entry of a row. -/
structure Enters (r : LiveIntentRecord) (entry : FallbackRow) : Prop where
  symbol : r.symbol = entry.symbol
  side : r.side = entry.direction.side
  role : r.role = .entry
  state : r.state = .filled ∨ r.state = .partiallyFilled ∨ r.state = .reconciled

section Owned

variable {w : FallbackWorld} {c : FallbackChoice} {positions : PositionPayload}
  {entry : FallbackRow} {key : String} {r : LiveIntentRecord} {q : ℚ}

/-- The last question of `_owned_quantity`, to the intents of the ledger. -/
theorem run_ownedEntry {symbol : String} {side : Side} :
    ((FallbackProg.call (.ownedEntry key symbol side q) >>= fun owned =>
        pure (if owned = true then some q else none) : FallbackProg (Option ℚ)).run
      (fun o w => fallbackExec o w c) w).1 =
      if c.delivery = .answered then
        .ok (if w.ownedEntry key symbol side q = true then some q else none)
      else .error .connection := by
  have hrun : ((FallbackProg.call (.ownedEntry key symbol side q) >>= fun owned =>
        pure (if owned = true then some q else none) : FallbackProg (Option ℚ)).run
      (fun o w => fallbackExec o w c) w).1 =
      (c.read (w.ownedEntry key symbol side q)).map
        fun owned => if owned = true then some q else none := by
    simp only [FallbackProg.call, Prog.perform, Bind.bind, Prog.bind, Prog.run, fallbackExec]
    cases c.read (w.ownedEntry key symbol side q) <;> rfl
  rw [hrun, FallbackChoice.read]
  split <;> rfl

/-- What `_owned_quantity` says of a position with exactly the quantity of its row : the quantity
where the entry filled as much, and nothing otherwise. -/
theorem ownedAnswer_eq (hholds : Holds positions entry key) (hr : w.db.get key = some r)
    (henters : Enters r entry) (hc : c.delivery = .answered) :
    w.ownedAnswer c positions entry =
      .ok (if r.filledQty = entry.quantity then some entry.quantity else none) := by
  obtain ⟨row, rfl, hsymbol, hside, hmode, hisolated, hquantity, hepoch, epoch, htime, hne⟩ :=
    hholds.position
  obtain ⟨environment, henv⟩ := Option.ne_none_iff_exists'.mp hholds.environment
  have hkey : entry.positionKey.filter (· ≠ "") = some key := by
    simp [hholds.key.1, hholds.key.2]
  have hepoch' : entry.providerPositionEpoch.filter (· ≠ "") = some epoch := by
    simp [← hepoch, htime, hne]
  have hentry : w.ownedEntry key entry.symbol entry.direction.side entry.quantity =
      decide (r.filledQty = entry.quantity) := by
    rcases henters.state with h | h | h <;>
      simp [ownedEntry, hr, henters.symbol, henters.side, henters.role, h]
  unfold ownedAnswer FallbackProg.ownedQuantity
  rw [hkey, hepoch', henv]
  dsimp only
  rw [if_neg (by simp [hsymbol, hside, hmode, hisolated, htime]), hquantity]
  dsimp only
  rw [if_neg (by simp [hholds.quantity_pos]), run_ownedEntry, if_pos hc, hentry]
  simp only [decide_eq_true_eq]

/-- A quantity is owned only where the entry filled exactly the quantity of the row. -/
theorem ownedAnswer_ok (h : w.ownedAnswer c positions entry = .ok (some q)) :
    ∃ key r, entry.positionKey = some key ∧ w.db.get key = some r ∧
      r.filledQty = entry.quantity ∧ q = entry.quantity := by
  unfold ownedAnswer FallbackProg.ownedQuantity at h
  split at h
  next key epoch environment row hkey hepoch henv =>
    split at h
    · cases h
    · split at h
      · cases h
      next quantity hquantity =>
        split at h
        · cases h
        next hcond =>
          rw [not_or, not_not] at hcond
          rw [run_ownedEntry] at h
          split_ifs at h with hc howned
          · obtain rfl := Option.some.inj (Except.ok.inj h)
            unfold ownedEntry at howned
            split at howned
            next r hr =>
              simp only [Bool.and_eq_true, decide_eq_true_eq] at howned
              exact ⟨key, r, (Option.filter_eq_some_iff.mp hkey).1, hr,
                howned.2.trans hcond.2, hcond.2⟩
            · cases howned
          · cases h
  · cases h

end Owned

/-! ## Bookings -/

section Bookings

variable {w : FallbackWorld} {c : FallbackChoice} {positions : PositionPayload}
  {key : String} {r : LiveIntentRecord} {stopLoss q : ℚ} {environment : Environment}

/-- The levels of a row, moved. -/
def levelled (stopLoss quantity : ℚ) (row : FallbackRow) : FallbackRow :=
  { row with stopLoss := stopLoss, quantity := quantity }

theorem levels_isSome (w : FallbackWorld) (key : String) (stopLoss q : ℚ)
    (environment : Environment) :
    (w.fallbacks.updateWhere (takesLevels key environment) (levelled stopLoss q)).isSome := by
  refine Table.updateWhere_isSome fun a _ b _ hab => ?_
  have hsame : ∀ row, (if takesLevels key environment row then levelled stopLoss q row
      else row).id = row.id ∧ (if takesLevels key environment row then levelled stopLoss q row
      else row).positionKey = row.positionKey ∧ (if takesLevels key environment row then
      levelled stopLoss q row else row).state = row.state := by
    intro row
    split_ifs <;> exact ⟨rfl, rfl, rfl⟩
  unfold FallbackRow.Conflict at hab ⊢
  rw [(hsame a).1, (hsame b).1, (hsame a).2.1, (hsame b).2.1, (hsame a).2.2, (hsame b).2.2]
  exact hab

/-- A well formed booking writes its quantity to every row it names. -/
theorem quantity_of_book (hkey : key ≠ "") (hstop : 0 < stopLoss) (hq : 0 < q) {row : FallbackRow}
    (hrow : row ∈ (w.book ⟨key, .finite stopLoss, .finite q, some environment⟩).fallbacks.rows)
    (htakes : takesLevels key environment row) : row.quantity = q := by
  obtain ⟨fallbacks, hf⟩ := Option.isSome_iff_exists.mp (levels_isSome w key stopLoss q environment)
  have hbook : w.book ⟨key, .finite stopLoss, .finite q, some environment⟩ = { w with fallbacks } := by
    have henv : w.env (.updateFallbackLevels key stopLoss q environment) = some { w with fallbacks } :=
      Option.map_eq_some_iff.mpr ⟨fallbacks, hf, rfl⟩
    simp only [book, updateFallbackLevels, if_neg hkey, Decimal.positive, if_pos hstop, if_pos hq,
      henv]
  rw [hbook] at hrow
  obtain ⟨before, -, rfl⟩ := (Table.mem_updateWhere hf).mp hrow
  split_ifs at htakes ⊢ with hbefore
  · rfl
  · exact absurd htakes hbefore

/-- After any bookings, one that leaves less than the entry filled reduces the rows it names, and
the lane owns nothing of them, whatever the snapshot. -/
theorem residual_unowned (us : List LevelUpdate) (hkey : key ≠ "") (hstop : 0 < stopLoss)
    (hq : 0 < q) (hr : w.db.get key = some r) (hresidual : q < r.filledQty) :
    ∀ entry ∈ ((w.booked us).book
        ⟨key, .finite stopLoss, .finite q, some environment⟩).fallbacks.rows,
      takesLevels key environment entry → entry.quantity = q ∧
        ∀ owned, ((w.booked us).book
          ⟨key, .finite stopLoss, .finite q, some environment⟩).ownedAnswer c positions entry ≠
            .ok (some owned) := by
  intro entry hentry htakes
  have hquantity := quantity_of_book hkey hstop hq hentry htakes
  refine ⟨hquantity, fun owned h => ?_⟩
  obtain ⟨key', r', hkey', hr', hfilled, -⟩ := ownedAnswer_ok h
  have hposition : entry.positionKey = some key := by
    simp only [takesLevels, Bool.and_eq_true, decide_eq_true_eq] at htakes
    exact htakes.1.1
  obtain rfl := Option.some.inj (hposition.symm.trans hkey')
  rw [db_book, db_booked] at hr'
  obtain rfl := Option.some.inj (hr.symm.trans hr')
  exact hresidual.ne' (hfilled.trans hquantity)

end Bookings

end FallbackWorld

/-! ## Half of a long position -/

open FallbackWorld

/-- Half of the position is booked, and the stop is moved to the entry. -/
def halfBooked : FallbackWorld :=
  heldWorld.book ⟨"root", .finite 100, .finite (1 / 2), some .live⟩

/-- The row the booking leaves. -/
def halfFallback : FallbackRow := levelled 100 (1 / 2) longFallback

theorem mem_halfBooked : halfFallback ∈ halfBooked.fallbacks.rows := by decide +kernel

/-- The position of the half that is left. -/
def halfPosition : PositionPayload :=
  some [some ⟨some "BTCUSDT", some .long, some "1000", true, true, [some (.finite (1 / 2))]⟩]

/-- The half that is booked is not owned. -/
theorem halfFallback_residual :
    halfFallback.quantity = 1 / 2 ∧ ∀ owned,
      (heldWorld.book ⟨"root", .finite 100, .finite (1 / 2), some .live⟩).ownedAnswer
        FallbackChoice.stopped halfPosition halfFallback ≠ .ok (some owned) :=
  residual_unowned (w := heldWorld) (r := heldEntry) [] (by decide) (by norm_num) (by norm_num)
    (by decide +kernel) (by decide +kernel) halfFallback mem_halfBooked (by decide +kernel)

/-- The venue holds exactly the half, in the epoch of the row, and the lane refuses it. -/
theorem halfPosition_refused : ∃ entry ∈ halfBooked.fallbacks.rows,
    Holds halfPosition entry "root" ∧ Enters heldEntry entry ∧
      halfBooked.db.get "root" = some heldEntry ∧
      halfBooked.ownedAnswer FallbackChoice.stopped halfPosition entry ≠
        .ok (some entry.quantity) := by
  refine ⟨halfFallback, mem_halfBooked, ⟨⟨rfl, by decide⟩, by decide, by decide +kernel, _, rfl,
    rfl, rfl, rfl, rfl, by decide +kernel, rfl, _, rfl, by decide⟩, ⟨rfl, rfl, rfl, Or.inl rfl⟩,
    by decide +kernel, ?_⟩
  decide +kernel

end FattyTrader
