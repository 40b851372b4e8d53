import FattyTrader.ReservationRuns
import Mathlib.Tactic.Linarith

/-!
# What reservation runs guarantee

Three laws of the machine of `ReservationRuns`, over every run.

`exposure_held_until_retired` : once a FILLED or PARTIAL outcome was applied, the margin
stays committed until a verified close is accepted or an audited baseline lists the
reservation, and nothing else leaves `consumed`.

`closed_inactive_iff` : after an accepted close the reservation stays inactive exactly as
long as no FILLED or PARTIAL outcome is resolved on it that meets no active owner of its
symbol. The `CASE` of `resolve` asks for exposure before it asks for `released`, so such an
outcome commits the margin again.

`admission_bounds_and_exposure_iff` : one active owner of a symbol at any time, every
admission within headroom, cap and slots, and a FILLED or PARTIAL outcome is kept exactly
when the row is active or nothing else took its place. A late fill of a released
reservation whose symbol has a new owner hits the index `…_symbol_owner`, so the transaction
fails and the evidence is lost.
-/

set_option linter.unusedSectionVars false

open Tables Runs

namespace FattyTrader

namespace Db

/-! ## Exposure is held -/

/-- The operation retires the reservation : a verified close it accepts for it, or an
audited baseline that lists it. -/
def Retires (db : Db) (op : ReservationOp) (id : Uuid) : Prop :=
  match op with
  | .releaseVerifiedClose clock claim =>
    ∃ db', db.releaseVerifiedClose clock claim = .ok (db', .accepted id)
  | .applyBaseline _ _ records => .reservation id ∈ records
  | _ => False

/-- The reservation carries proof of exposure, and commits its margin as `unknown` or
`consumed`. -/
def Exposed (db : Db) (id : Uuid) : Prop :=
  ∃ r, db.reservation id = some r ∧ r.hasExposure ∧ (r.state = .unknown ∨ r.state = .consumed)

/-- The operation is a `resolve` with outcome FILLED or PARTIAL that is applied to the
reservation. -/
def AppliesExposure (db : Db) (op : ReservationOp) (id : Uuid) : Prop :=
  ∃ now outcome, op = .resolve now id outcome ∧ outcome.exposure ∧
    (db.perform op).isOk ∧ (db.reservation id).isSome ∧ db.baselined (.reservation id) = false

/-- A FILLED or PARTIAL outcome on a row that is no baseline record writes that row. -/
theorem resolve_of_exposure {now : Instant} {db : Db} {outcome : Outcome} {r : MarginReservation}
    {target : ReservationState} (ht : outcome.target = some target) (he : outcome.exposure)
    (hr : db.reservation r.id = some r) (hb : db.baselined (.reservation r.id) = false) :
    db.resolve now r.id outcome = db.setReservation (r.resolved now outcome target) := by
  have hne : ¬ (outcome = .acknowledged ∨ outcome = .submitted) := by
    rintro (rfl | rfl) <;> simp [Outcome.exposure] at he
  simp [resolve, hne, ht, hr, hb]

/-- One step keeps a row exposed unless it retires the row. -/
theorem RowChange.exposed {db : Db} {op : ReservationOp} {r r' : MarginReservation}
    (h : RowChange db op r r') (he : r.hasExposure)
    (hs : r.state = .unknown ∨ r.state = .consumed)
    (hretire : ∀ clock claim, op = .releaseVerifiedClose clock claim →
      db.verifyClose clock claim ≠ .ok r)
    (hbase : ∀ now b records, op = .applyBaseline now b records → .reservation r.id ∉ records) :
    r'.state = .unknown ∨ r'.state = .consumed := by
  cases h with
  | kept => exact hs
  | expired => exact Or.inl rfl
  | escalated => exact Or.inl rfl
  | staleSource now hres => simp [hres] at hs
  | @resolved now outcome target _ htarget _ =>
    have h := resolvedState_committed htarget hs
    simp only [MarginReservation.resolved, he]
    exact h.symm.imp And.left id
  | closed _ hv => exact absurd hv (hretire _ _ rfl)
  | baselined hmem => exact absurd hmem (hbase _ _ _ rfl)

/-- A release conflicts with nothing the row did not conflict with before. -/
theorem conflict_of_releasedFor {x r : MarginReservation} {now : Instant} {reason : String}
    (h : MarginReservation.Conflict x (r.releasedFor now reason)) :
    MarginReservation.Conflict x r := by
  rcases h with h | h | ⟨-, h, -⟩ | ⟨-, h, -⟩
  · exact Or.inl h
  · exact Or.inr (Or.inl h)
  · simp [MarginReservation.releasedFor, ReservationState.outstanding] at h
  · simp [MarginReservation.releasedFor, ReservationState.active] at h

theorem not_conflict_of_mem {db : Db} {x r : MarginReservation} (hx : x ∈ db.reservations)
    (hr : r ∈ db.reservations) (hne : x.id ≠ r.id) : ¬ MarginReservation.Conflict x r := by
  rcases Table.eq_or_not_conflict hx hr with rfl | h
  · exact absurd rfl hne
  · exact h

/-- A verified close is always accepted. -/
theorem release_of_verifyClose {clock : CloseClock} {db : Db} {c : CloseClaim}
    {m : MarginReservation} (h : db.verifyClose clock c = .ok m) :
    ∃ db', db.releaseVerifiedClose clock c = .ok (db', .accepted m.id) := by
  obtain ⟨hmem, -, -⟩ := verifyClose_ok h
  by_cases hs : m.state = .released
  · exact ⟨db, by simp [releaseVerifiedClose, h, hs]⟩
  · have hm : db.reservation m.id = some m := reservation_eq_some.mpr ⟨hmem, rfl⟩
    obtain ⟨db', hset⟩ := (setReservation_isOk_iff
      (r := m.releasedFor clock.write (closeReceipt c.closeClientOrderId)) hm).mpr
      fun x hx hne hc => not_conflict_of_mem hx hmem hne (conflict_of_releasedFor hc)
    exact ⟨db', by simp [releaseVerifiedClose, h, hs, hset, Except.map]⟩

/-- The row an accepted close names is released. -/
theorem inactive_of_accepted {clock : CloseClock} {db db' : Db} {c : CloseClaim} {id : Uuid}
    (h : db.releaseVerifiedClose clock c = .ok (db', .accepted id)) :
    ∃ r, db'.reservation id = some r ∧ r.state = .released := by
  unfold releaseVerifiedClose at h
  split at h
  · cases h
  next m hm =>
    obtain ⟨hmem, -, -⟩ := verifyClose_ok hm
    have hrow : db.reservation m.id = some m := reservation_eq_some.mpr ⟨hmem, rfl⟩
    split at h
    next hs =>
      obtain ⟨rfl, hid⟩ := Prod.mk.inj (Except.ok.inj h)
      obtain rfl := CloseAdmission.accepted.inj hid
      exact ⟨m, hrow, hs⟩
    · obtain ⟨db₁, hset, hp⟩ := exists_of_map_ok h
      obtain ⟨rfl, hid⟩ := Prod.mk.inj hp
      obtain rfl := CloseAdmission.accepted.inj hid
      have hset' := reservation_of_set hset hrow m.id
      exact ⟨_, by simpa [MarginReservation.releasedFor] using hset', rfl⟩

theorem after_of_perform {db db' : Db} {op : ReservationOp} {a : ReservationAnswer}
    (h : db.perform op = .ok (db', a)) : db.after op = db' := by
  simp [after, h]

theorem after_of_resolve_error {db : Db} {now : Instant} {id : Uuid} {outcome : Outcome}
    {e : DbError} (h : db.resolve now id outcome = .error e) :
    db.after (.resolve now id outcome) = db := by
  simp [after, perform, h, Except.map]

/-- An operation that does not retire a row keeps it committed. -/
theorem committed_of_not_retires {db : Db} {op : ReservationOp} {id : Uuid}
    (h : db.Exposed id) (hret : ¬ db.Retires op id) : (db.after op).Exposed id := by
  obtain ⟨r, hr, he, hs⟩ := h
  have hid : r.id = id := (reservation_eq_some.mp hr).2
  subst hid
  obtain ⟨r', hr', hchange⟩ := rowChange_of_after op hr
  refine ⟨r', hr', hchange.hasExposure he, hchange.exposed he hs ?_ ?_⟩
  · rintro clock claim rfl hv
    exact hret (release_of_verifyClose hv)
  · rintro now b records rfl hmem
    exact hret hmem

/-- Only a retirement takes a row out of `consumed`. -/
theorem consumed_of_not_retires {db : Db} {op : ReservationOp} {id : Uuid}
    {r r' : MarginReservation} (hr : db.reservation id = some r) (hs : r.state = .consumed)
    (hret : ¬ db.Retires op id) (hr' : (db.after op).reservation id = some r') :
    r'.state = .consumed := by
  have hid : r.id = id := (reservation_eq_some.mp hr).2
  subst hid
  obtain ⟨r₁, hr₁, hchange⟩ := rowChange_of_after op hr
  obtain rfl : r₁ = r' := Option.some.inj (hr₁.symm.trans hr')
  cases hchange with
  | kept => exact hs
  | expired h => simp [hs] at h
  | escalated h => simp [hs] at h
  | staleSource _ h => simp [hs] at h
  | resolved => simp [MarginReservation.resolved, resolvedState, hs]
  | closed _ hv => exact absurd (release_of_verifyClose hv) hret
  | baselined hmem => exact absurd hmem hret

theorem exposed_of_applies {db : Db} {op : ReservationOp} {id : Uuid}
    (h : db.AppliesExposure op id) : (db.after op).Exposed id := by
  obtain ⟨now, outcome, rfl, he, hok, hrow, hb⟩ := h
  obtain ⟨r, hr⟩ := Option.isSome_iff_exists.mp hrow
  obtain ⟨⟨db', a⟩, hperform⟩ := exists_of_isOk hok
  have hid : r.id = id := (reservation_eq_some.mp hr).2
  subst hid
  obtain ⟨target, ht⟩ := exposure_target he
  obtain ⟨db₁, hres, hp⟩ := exists_of_map_ok hperform
  obtain ⟨rfl, -⟩ := Prod.mk.inj hp
  rw [resolve_of_exposure ht he hr hb] at hres
  have hset := reservation_of_set hres hr r.id
  rw [after_of_perform hperform]
  refine ⟨r.resolved now outcome target, by simpa [MarginReservation.resolved] using hset,
    by simp [MarginReservation.resolved, he], ?_⟩
  cases outcome <;> simp_all [Outcome.exposure, Outcome.target] <;> subst ht
  · exact Or.inr (resolvedState_filled r.state r.hasExposure)
  · simp only [MarginReservation.resolved, resolvedState_partial]
    split <;> simp

/-- Once a FILLED or PARTIAL outcome was applied to a reservation, it is `unknown` or
`consumed` in every later state until a verified close is accepted for it or an audited
baseline lists it ; and in any run, `consumed` is left by these two alone. -/
theorem exposure_held_until_retired {db : Db} {pre post : List ReservationOp}
    {op : ReservationOp} {id : Uuid} (happ : (exec after db pre).AppliesExposure op id)
    (hpost : ∀ p ∈ visits after (exec after db (pre ++ [op])) post, ¬ p.1.Retires p.2 id) :
    (∀ t ∈ states after (exec after db (pre ++ [op])) post,
        ∃ r, t.reservation id = some r ∧ (r.state = .unknown ∨ r.state = .consumed)) ∧
      ∀ (ops : List ReservationOp) (id' : Uuid), ∀ p ∈ visits after db ops, ∀ r r',
        p.1.reservation id' = some r → r.state = .consumed →
        (p.1.after p.2).reservation id' = some r' → r'.state = .consumed ∨ p.1.Retires p.2 id' := by
  constructor
  · intro t ht
    have hstart : (exec after db (pre ++ [op])).Exposed id := by
      rw [exec_append]
      exact exposed_of_applies happ
    have hstep : ∀ (s : Db) (o : ReservationOp), s.Exposed id → ¬ s.Retires o id →
        (s.after o).Exposed id := fun _ _ => committed_of_not_retires
    obtain ⟨r, hr, -, hs⟩ := states_inv_of_not hstep hstart hpost ht
    exact ⟨r, hr, hs⟩
  · intro ops id' p _ r r' hr hs hr'
    by_cases hret : p.1.Retires p.2 id'
    · exact Or.inr hret
    · exact Or.inl (consumed_of_not_retires hr hs hret hr')

/-! ### A run with a fill, a contradicting rejection and two expiries -/

/-- A live entry of 1 USDT margin on `symbol`. -/
def admissionRequest (dispatchId : Uuid) (clientOrderId symbol : String) : ReserveRequest where
  exchange := "bitget"
  dispatchId
  clientOrderId
  totalBalance := .finite 100
  availableBalance := .finite 100
  equity := .finite 100
  marginCoin := "USDT"
  observedAt := some 0
  plannedMarginUsdt := .finite 1
  headroom := .finite 1
  ttl := 60000000
  maxMarginPerTradeUsdt := .finite (11 / 10)
  symbol := some symbol
  environment := some .live
  maxPositions := some 3
  providerActiveSymbols := some []

/-- Two submitting dispatches of one symbol, and nothing else. -/
def twoDispatches : Db where
  dispatches :=
    ⟨[⟨1, .submitting, "BTCUSDT", .long, 100, none, none, .market, none, none, 0, none⟩,
      ⟨2, .submitting, "BTCUSDT", .long, 100, none, none, .market, none, none, 0, none⟩], by decide⟩

/-- The admission of the first dispatch at time zero. -/
def reserveFirst : ReservationOp :=
  .reserve ⟨0, 0, 0⟩ ⟨10, 11⟩ true (admissionRequest 1 "live-bitget-BTCUSDT-1" "BTCUSDT")

theorem exposure_held_after_fill :
    let db := exec after twoDispatches ([reserveFirst] ++ [.resolve 1 11 .filled])
    ∀ t ∈ states after db [.resolve 2 11 .rejected, .expireSource 3 1, .escalateExpired 4 11],
      ∃ r, t.reservation 11 = some r ∧ (r.state = .unknown ∨ r.state = .consumed) := by
  refine (exposure_held_until_retired ?_ ?_).1
  · refine ⟨1, .filled, rfl, rfl, ?_, ?_, ?_⟩
    · decide +kernel
    · decide +kernel
    · decide +kernel
  · simp [visits, Retires]

/-! ## After a verified close -/

/-- The row is there and released. -/
def Inactive (db : Db) (id : Uuid) : Prop :=
  ∃ r, db.reservation id = some r ∧ r.state = .released

/-- Nothing took the place of a row an outcome would commit again : its symbol has no active
owner, and, for a PARTIAL outcome, its dispatch no outstanding row. -/
def Unobstructed (db : Db) (r : MarginReservation) (outcome : Outcome) : Prop :=
  (∀ x ∈ db.reservations, r.sameOwnerActive x → r.owner = none) ∧
    (outcome = .partiallyFilled → ∀ x ∈ db.reservations, x.state.outstanding →
      x.dispatchId = r.dispatchId → x.id = r.id)

/-- The operation resolves the reservation with FILLED or PARTIAL, is not excluded by a
baseline, and nothing took the row's place. -/
def Reactivates (db : Db) (op : ReservationOp) (id : Uuid) : Prop :=
  ∃ now outcome r, op = .resolve now id outcome ∧ outcome.exposure ∧
    db.reservation id = some r ∧ db.baselined (.reservation id) = false ∧
    db.Unobstructed r outcome

theorem resolved_outstanding {now : Instant} {outcome : Outcome} {target : ReservationState}
    {r : MarginReservation} (ht : outcome.target = some target) (he : outcome.exposure)
    (h : (r.resolved now outcome target).state.outstanding) :
    outcome = .partiallyFilled ∧ r.state ≠ .consumed := by
  cases outcome <;> simp_all [Outcome.exposure, Outcome.target] <;> subst ht
  · simp [MarginReservation.resolved, resolvedState_filled, ReservationState.outstanding] at h
  · intro hr
    simp [MarginReservation.resolved, resolvedState_partial, hr,
      ReservationState.outstanding] at h

/-- A resolved row with exposure is active. -/
theorem resolved_active (now : Instant) (r : MarginReservation) {outcome : Outcome}
    {target : ReservationState} (ht : outcome.target = some target) (he : outcome.exposure) :
    (r.resolved now outcome target).state.active := by
  cases outcome <;> simp_all [Outcome.exposure, Outcome.target] <;> subst ht
  · simp [MarginReservation.resolved, resolvedState_filled, ReservationState.active]
  · simp only [MarginReservation.resolved, resolvedState_partial]
    split <;> rfl

/-- A FILLED or PARTIAL outcome commits exactly when the row is active or nothing took its
place. -/
theorem resolve_isOk_iff (now : Instant) {db : Db} {outcome : Outcome} {r : MarginReservation}
    (he : outcome.exposure) (hr : db.reservation r.id = some r)
    (hb : db.baselined (.reservation r.id) = false) :
    (∃ db', db.resolve now r.id outcome = .ok db') ↔
      r.state.active ∨ db.Unobstructed r outcome := by
  obtain ⟨target, ht⟩ := exposure_target he
  have hmem : r ∈ db.reservations := (reservation_eq_some.mp hr).1
  rw [resolve_of_exposure ht he hr hb,
    setReservation_isOk_iff (r := r.resolved now outcome target) hr]
  have hact : (r.resolved now outcome target).state.active := resolved_active now r ht he
  constructor
  · intro hfree
    refine or_iff_not_imp_left.mpr fun hrel => ⟨fun x hx hsame => ?_, fun hpart x hx hout hd => ?_⟩
    · simp only [MarginReservation.sameOwnerActive, Bool.and_eq_true, decide_eq_true_eq] at hsame
      obtain ⟨⟨hxa, hown⟩, hne⟩ := hsame
      by_contra howner
      exact hfree x hx hne
        (Or.inr (Or.inr (Or.inr ⟨hxa, hact, hown, fun h => howner (hown ▸ h)⟩)))
    · by_contra hne
      subst hpart
      obtain rfl : ReservationState.unknown = target := by simpa [Outcome.target] using ht
      have hrs : r.state = .released := by
        simpa [ReservationState.active_iff] using hrel
      refine hfree x hx hne (Or.inr (Or.inr (Or.inl ⟨hout, ?_, hd⟩)))
      simp [MarginReservation.resolved, resolvedState_partial, hrs,
        ReservationState.outstanding]
  · intro h x hx hne hc
    have hno := not_conflict_of_mem hx hmem hne
    rcases hc with hc | hc | ⟨hxo, hro, hd⟩ | ⟨hxa, -, hown, hnone⟩
    · exact hne hc
    · exact hno (Or.inr (Or.inl hc))
    · obtain ⟨hpart, hcons⟩ := resolved_outstanding ht he hro
      rcases h with hra | ⟨-, hun⟩
      · refine hno (Or.inr (Or.inr (Or.inl ⟨hxo, ?_, hd⟩)))
        cases hs : r.state <;> simp_all [ReservationState.outstanding, ReservationState.active]
      · exact hne (hun hpart x hx hxo hd)
    · rcases h with hra | ⟨hun, -⟩
      · exact hno (Or.inr (Or.inr (Or.inr ⟨hxa, hra, hown, hnone⟩)))
      · have hown' : x.owner = r.owner := hown
        have hne' : x.id ≠ r.id := hne
        refine hnone (hown'.trans (hun x hx ?_))
        simp [MarginReservation.sameOwnerActive, hxa, hown', hne']

/-- One step from an inactive row leaves it inactive exactly when it does not reactivate it. -/
theorem inactive_after_iff {db : Db} {op : ReservationOp} {id : Uuid} (h : db.Inactive id) :
    (db.after op).Inactive id ↔ ¬ db.Reactivates op id := by
  obtain ⟨r, hr, hs⟩ := h
  have hid : r.id = id := (reservation_eq_some.mp hr).2
  subst hid
  constructor
  · rintro ⟨r', hr', hs'⟩ ⟨now, outcome, r₁, rfl, he, hr₁, hb, hun⟩
    obtain rfl : r = r₁ := Option.some.inj (hr.symm.trans hr₁)
    obtain ⟨db', hok⟩ := (resolve_isOk_iff now he hr hb).mpr (Or.inr hun)
    obtain ⟨target, ht⟩ := exposure_target he
    have hperform : db.perform (.resolve now r.id outcome) = .ok (db', .done) := by
      simp [perform, hok, Except.map]
    rw [after_of_perform hperform] at hr'
    rw [resolve_of_exposure ht he hr hb] at hok
    have hset := reservation_of_set hok hr r.id
    have hr'' : r' = r.resolved now outcome target := by
      have : db'.reservation r.id = some (r.resolved now outcome target) := by
        simpa [MarginReservation.resolved] using hset
      exact Option.some.inj (hr'.symm.trans this)
    have := resolved_active now r ht he
    rw [← hr'', hs'] at this
    simp [ReservationState.active] at this
  · intro hre
    obtain ⟨r', hr', hchange⟩ := rowChange_of_after op hr
    refine ⟨r', hr', ?_⟩
    cases hchange with
    | kept => exact hs
    | expired h => simp [hs] at h
    | escalated h => simp [hs] at h
    | staleSource => rfl
    | closed => rfl
    | baselined => rfl
    | @resolved now outcome target _ ht hb =>
      by_cases he : outcome.exposure
      · -- a resolve that commits is unobstructed ; one that raises leaves the row
        by_cases hok : ∃ db', db.resolve now r.id outcome = .ok db'
        · have hun := ((resolve_isOk_iff now he hr hb).mp hok).resolve_left (by
            simp [hs, ReservationState.active])
          exact absurd ⟨now, outcome, r, rfl, he, hr, hb, hun⟩ hre
        · cases hx : db.resolve now r.id outcome with
          | ok db' => exact absurd ⟨db', hx⟩ hok
          | error e =>
            rw [after_of_resolve_error hx, hr] at hr'
            rw [← Option.some.inj hr']
            exact hs
      · simp [MarginReservation.resolved, resolvedState, hs, he]

/-- After an accepted close the reservation is inactive in every state of a run exactly when
no operation of the run reactivates it. -/
theorem closed_inactive_iff {clock : CloseClock} {claim : CloseClaim} {db db' : Db} {id : Uuid}
    (h : db.releaseVerifiedClose clock claim = .ok (db', .accepted id))
    (ops : List ReservationOp) :
    (∀ t ∈ states after db' ops, t.Inactive id) ↔
      ∀ p ∈ visits after db' ops, ¬ p.1.Reactivates p.2 id := by
  have hstart : db'.Inactive id := inactive_of_accepted h
  have hstep : ∀ (s : Db) (o : ReservationOp), s.Inactive id →
      ((s.after o).Inactive id ↔ ¬ s.Reactivates o id) := fun _ _ => inactive_after_iff
  exact forall_states_iff hstep hstart

/-! ### A close, and the settlement's FILLED after it -/

theorem filledClose_checked : LiveIntentRecord.Checked
    { clientOid := "live-bitget-BTCUSDT-1-close"
      symbol := "BTCUSDT"
      side := .sell
      role := .close
      state := .filled
      requestedQty := 1
      filledQty := 1
      providerOrderId := some "900"
      providerFillIds := ["77"] } := by
  decide +kernel

theorem closePrice_pos : (0 : ℚ) < 100 := by decide +kernel

/-- A consumed reservation whose entry of 1 was closed by one fill of 1. -/
def closableLedger : Db where
  reservations :=
    ⟨[{ id := 11
        dispatchId := 1
        clientOrderId := "live-bitget-BTCUSDT-1"
        balanceSnapshotId := 10
        plannedMarginUsdt := 1
        owner := some ⟨.live, "BTCUSDT"⟩
        legacyBindingSymbol := none
        state := .consumed
        hasExposure := true
        createdAt := 0
        expiresAt := 60000000
        resolvedAt := some 2
        resolutionReason := some "FILLED"
        planned_pos := oneContract_pos }], by decide +kernel⟩
  intents :=
    ⟨[{ record :=
          { clientOid := "live-bitget-BTCUSDT-1"
            symbol := "BTCUSDT"
            side := .buy
            state := .filled
            requestedQty := 1
            filledQty := 1
            marginReservationId := some 11
            balanceSnapshotId := some 10
            plannedMarginUsdt := some 1 }
        createdAt := 1
        checked := by decide +kernel },
      { record :=
          { clientOid := "live-bitget-BTCUSDT-1-close"
            symbol := "BTCUSDT"
            side := .sell
            role := .close
            state := .filled
            requestedQty := 1
            filledQty := 1
            providerOrderId := some "900"
            providerFillIds := ["77"] }
        createdAt := 10
        checked := filledClose_checked }], by decide +kernel⟩
  fills :=
    ⟨[{ clientOrderId := "live-bitget-BTCUSDT-1-close"
        providerFillId := "77"
        symbol := "BTCUSDT"
        price := 100
        quantity := 1
        fee := 0
        realizedPnl := 0
        filledAt := 11
        price_pos := closePrice_pos
        quantity_pos := oneContract_pos }], by decide +kernel⟩
  closeBindings := ⟨[⟨"live-bitget-BTCUSDT-1-close", 11⟩], by decide +kernel⟩

/-- The proof of that close, read at time 20. -/
def closeClaim : CloseClaim where
  environment := some .live
  symbol := "BTCUSDT"
  dispatchId := 1
  entryClientOrderId := "live-bitget-BTCUSDT-1"
  closeClientOrderId := "live-bitget-BTCUSDT-1-close"
  authenticated := true
  observedAt := some 20
  flatQuantity := .finite 0
  fills :=
    [{ providerFillId := some "77"
       providerOrderId := some "900"
       symbol := some "BTCUSDT"
       side := some .sell
       tradeSide := .close
       price := some (.finite 100)
       quantity := some (.finite 1)
       fee := some (.finite 0)
       realizedPnl := some (.finite 0) }]

theorem closableLedger_accepted :
    ∃ db', closableLedger.releaseVerifiedClose ⟨20, 20, 20⟩ closeClaim = .ok (db', .accepted 11) := by
  have h : ((closableLedger.releaseVerifiedClose ⟨20, 20, 20⟩ closeClaim).map Prod.snd) =
      .ok (.accepted 11) := by
    decide +kernel
  obtain ⟨⟨db', a⟩, h, rfl⟩ := exists_of_map_ok h
  exact ⟨db', h⟩

/-- A rejection, an unknown outcome and a source expiry after the close leave it released. -/
theorem closed_inactive_after_rejection :
    ∃ db', closableLedger.releaseVerifiedClose ⟨20, 20, 20⟩ closeClaim = .ok (db', .accepted 11) ∧
      ∀ t ∈ states after db' [.resolve 30 11 .rejected, .resolve 31 11 .unknown, .expireSource 32 1],
        t.Inactive 11 := by
  obtain ⟨db', h⟩ := closableLedger_accepted
  refine ⟨db', h, (closed_inactive_iff h _).mpr ?_⟩
  simp only [visits, List.forall_mem_cons]
  refine ⟨?_, ?_, ?_, by simp⟩
  · rintro ⟨now, outcome, r, hop, he, -⟩
    cases hop
    cases he
  · rintro ⟨now, outcome, r, hop, he, -⟩
    cases hop
    cases he
  · rintro ⟨now, outcome, r, hop, -⟩
    cases hop

/-- The FILLED outcome that a settlement re-applies after the close commits the margin
again. -/
theorem closed_reactivated_by_filled :
    ¬ ∀ (clock : CloseClock) (claim : CloseClaim) (db db' : Db) (id : Uuid),
      db.releaseVerifiedClose clock claim = .ok (db', .accepted id) →
      ∀ ops, ∀ t ∈ states after db' ops, t.Inactive id := by
  intro hclaim
  obtain ⟨db', h⟩ := closableLedger_accepted
  have hperform : closableLedger.perform (.releaseVerifiedClose ⟨20, 20, 20⟩ closeClaim) =
      .ok (db', .close (.accepted 11)) := by
    simp [perform, h, Except.map]
  have hend := hclaim _ _ _ _ _ h [.resolve 30 11 .filled] (db'.after (.resolve 30 11 .filled))
    (by simp [states])
  rw [← after_of_perform hperform] at hend
  obtain ⟨r, hr, hs⟩ := hend
  have hstate : (((closableLedger.after (.releaseVerifiedClose ⟨20, 20, 20⟩ closeClaim)).after
      (.resolve 30 11 .filled)).reservation 11).map (·.state) = some .consumed := by
    decide +kernel
  rw [hr, Option.map_some, hs] at hstate
  cases hstate

/-! ## Admission and the acceptance of late fills -/

/-- At most one active reservation owns a symbol in an environment. -/
def OwnersUnique (db : Db) : Prop :=
  ∀ a ∈ db.reservations, ∀ b ∈ db.reservations, a.state.active → b.state.active →
    a.owner = b.owner → a.owner ≠ none → a = b

theorem ownersUnique (db : Db) : db.OwnersUnique := by
  intro a ha b hb hsa hsb hown hne
  obtain ⟨o, ho⟩ := Option.ne_none_iff_exists'.mp hne
  exact active_owner_unique ha hb hsa hsb ho (hown ▸ ho)

/-- An accepted admission keeps the headroom, the cap and the slots. -/
def AdmissionBounds (db : Db) (op : ReservationOp) : Prop :=
  ∀ clock ids eligible q db' s m, op = .reserve clock ids eligible q →
    db.reserve clock ids eligible q = .ok (db', .accepted s m) →
    ∃ e : AdmissionEvidence q,
      db.activeMargin + e.planned ≤ e.available * e.headroom ∧ e.planned ≤ e.cap ∧
        (occupiedSlots (db.activeOwners e.owner.environment) e.activeSymbols : ℤ) < e.maxPositions

/-- A rewrite that keeps activity and margin keeps the committed margin. -/
theorem activeMargin_of_rewrite {db db' : Db} {p : MarginReservation → Bool}
    {f : MarginReservation → MarginReservation} (h : db.rewriteReservations p f = .ok db')
    (hactive : ∀ r, p r → (f r).state.active = r.state.active)
    (hplanned : ∀ r, (f r).plannedMarginUsdt = r.plannedMarginUsdt) :
    db'.activeMargin = db.activeMargin := by
  unfold rewriteReservations at h
  split at h
  · cases h
  next t ht =>
    obtain rfl := Except.ok.inj h
    have hact : ∀ r, (if p r then f r else r).state.active = r.state.active := by
      intro r
      split
      next hp => exact hactive r hp
      · rfl
    have hpl : ∀ r, (if p r then f r else r).plannedMarginUsdt = r.plannedMarginUsdt := by
      intro r
      split
      · exact hplanned r
      · rfl
    simp [activeMargin, Table.rows_of_updateWhere ht, List.filter_map, Function.comp_def, hact, hpl]

theorem admissionBounds (db : Db) (op : ReservationOp) : db.AdmissionBounds op := by
  rintro clock ids eligible q db' s m rfl h
  rcases reserve_ok h with ⟨_, hrej, -⟩ | ⟨e, hc, -, -, hslots⟩
  · cases hrej
  · obtain ⟨db₁, h₁, ⟨hrej, -⟩ | ⟨-, hroom, -⟩⟩ := commitMargin_ok hc
    · cases hrej
    · refine ⟨e, ?_, e.planned_le_cap, hslots⟩
      rw [activeMargin_of_rewrite h₁ (fun r hr => ?_) fun _ => rfl] at hroom
      · exact hroom
      · simp only [Bool.and_eq_true, decide_eq_true_eq] at hr
        simp [MarginReservation.expired, hr.1, ReservationState.active]

/-- The row was released by a verified close. -/
def ClosedByProof (r : MarginReservation) : Prop :=
  r.state = .released ∧ ∃ oid, r.resolutionReason = some (closeReceipt oid)

/-- The outcome commits, and the row has exposure and is active unless a verified close had
released it. -/
def ExposureKept (db : Db) (now : Instant) (r : MarginReservation) (outcome : Outcome) : Prop :=
  ∃ db' r', db.resolve now r.id outcome = .ok db' ∧ db'.reservation r.id = some r' ∧
    r'.hasExposure ∧ (r'.state.active ∨ ClosedByProof r)

theorem exposureKept_iff {db : Db} {now : Instant} {r : MarginReservation} {outcome : Outcome}
    (he : outcome.exposure) (hr : db.reservation r.id = some r)
    (hb : db.baselined (.reservation r.id) = false) :
    db.ExposureKept now r outcome ↔ r.state.active ∨ db.Unobstructed r outcome := by
  rw [← resolve_isOk_iff now he hr hb]
  constructor
  · rintro ⟨db', r', h, -⟩
    exact ⟨db', h⟩
  · rintro ⟨db', h⟩
    obtain ⟨target, ht⟩ := exposure_target he
    have h' := h
    rw [resolve_of_exposure ht he hr hb] at h'
    have hset := reservation_of_set h' hr r.id
    exact ⟨db', r.resolved now outcome target, h,
      by simpa [MarginReservation.resolved] using hset,
      by simp [MarginReservation.resolved, he], Or.inl (resolved_active now r ht he)⟩

/-- In every run of the reservation operations, at most one active reservation owns a symbol
in any state, and each accepted admission keeps the headroom, the cap and the slots. A
FILLED or PARTIAL outcome on a row that is no baseline record is kept exactly when the row
is active, or nothing took its place since it was released. -/
theorem admission_bounds_and_exposure_iff (db : Db) (ops : List ReservationOp) :
    (∀ t ∈ states after db ops, t.OwnersUnique) ∧
      ∀ p ∈ visits after db ops, p.1.AdmissionBounds p.2 ∧
        ∀ now r outcome, p.2 = .resolve now r.id outcome → outcome.exposure →
          p.1.reservation r.id = some r → p.1.baselined (.reservation r.id) = false →
          (p.1.ExposureKept now r outcome ↔ r.state.active ∨ p.1.Unobstructed r outcome) :=
  ⟨fun t _ => ownersUnique t, fun p _ =>
    ⟨admissionBounds p.1 p.2, fun _ _ _ _ he hr hb => exposureKept_iff he hr hb⟩⟩

/-- The admission of the second dispatch, of the same symbol. -/
def reserveSecond : ReservationOp :=
  .reserve ⟨3, 3, 3⟩ ⟨20, 21⟩ true (admissionRequest 2 "live-bitget-BTCUSDT-2" "BTCUSDT")

/-- A cancelled reservation, and the admission of the next entry of its symbol. -/
def cancelThenReserve : List ReservationOp := [reserveFirst, .resolve 2 11 .cancelled, reserveSecond]

/-- The late fill of the cancelled reservation is refused while the second one is active. -/
theorem late_fill_refused :
    ¬ ∀ (db : Db) (ops : List ReservationOp), ∀ p ∈ visits after db ops,
      ∀ now r outcome, p.2 = .resolve now r.id outcome → outcome.exposure →
        p.1.reservation r.id = some r → p.1.baselined (.reservation r.id) = false →
        p.1.ExposureKept now r outcome := by
  intro hclaim
  have hrow : ((exec after twoDispatches cancelThenReserve).reservation 11).map
      (fun r => (r.id, r.state, r.owner)) =
        some (11, .released, some ⟨.live, "BTCUSDT"⟩) := by
    decide +kernel
  obtain ⟨r, hr, hfields⟩ := Option.map_eq_some_iff.mp hrow
  simp only [Prod.mk.injEq] at hfields
  obtain ⟨hid, hs, hown⟩ := hfields
  have hr' : (exec after twoDispatches cancelThenReserve).reservation r.id = some r := by
    rw [hid]
    exact hr
  have hb : (exec after twoDispatches cancelThenReserve).baselined (.reservation r.id) = false := by
    rw [hid]
    decide +kernel
  have hkept := hclaim twoDispatches (cancelThenReserve ++ [.resolve 4 r.id .filled])
    (exec after twoDispatches cancelThenReserve, .resolve 4 r.id .filled)
    (mem_visits_iff.mpr ⟨cancelThenReserve, [], rfl, rfl⟩) 4 r .filled rfl rfl hr' hb
  rcases (exposureKept_iff rfl hr' hb).mp hkept with hact | ⟨hun, -⟩
  · simp [hs, ReservationState.active] at hact
  · -- the second reservation owns the symbol
    have hother : (exec after twoDispatches cancelThenReserve).reservations.rows.any (fun x =>
        x.state.active && x.owner = some ⟨.live, "BTCUSDT"⟩ && x.id ≠ 11) = true := by
      decide +kernel
    obtain ⟨x, hx, hsame⟩ := List.any_eq_true.mp hother
    have := hun x hx (by simpa [MarginReservation.sameOwnerActive, hown, hid] using hsame)
    simp [hown] at this

end Db

end FattyTrader
