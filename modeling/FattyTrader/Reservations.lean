import FattyTrader.LiveIntents

/-!
# Margin reservations

`PostgresBitgetMarginReservationRepository` commits margin for one dispatch (`reserve`),
moves the commitment with the provider's outcome (`resolve`), escalates it when its time
is over (`escalateExpired`) and frees it on the proof of a close (`releaseVerifiedClose`).
Source freshness (`expireSourceDispatch`) and an approved baseline (`applyBaseline`) write
the same table.

Every function is one transaction under the advisory lock of the exchange, so it is a
function of the database. The clock readings it makes are arguments. A statement that
would violate a unique index has no result : the transaction is rolled back and its
exception propagates.
-/

set_option linter.unusedSectionVars false

open Tables

namespace FattyTrader

/-- `not text.strip()`. -/
def blank (text : String) : Bool := text.toList.all Char.isWhitespace

/-! ## Admission -/

inductive AdmissionRejection
  | unsupportedExchange
  | invalidBalanceSnapshot
  | invalidBalanceHeadroom
  | invalidMarginCap
  | marginCapExceeded
  | invalidReservationTtl
  | missingPositionAdmissionEvidence
  | staleSourceMessage
  | invalidSnapshotAgePolicy
  | staleBalanceSnapshot
  | futureBalanceSnapshot
  | legacyUnownedReservation
  | symbolAlreadyOwned
  | positionCapExceeded
  | insufficientReservedHeadroom
deriving DecidableEq

/-- The reason text of a rejected admission. -/
def AdmissionRejection.reason : AdmissionRejection → String
  | .unsupportedExchange => "unsupported-exchange"
  | .invalidBalanceSnapshot => "invalid-balance-snapshot"
  | .invalidBalanceHeadroom => "invalid-balance-headroom"
  | .invalidMarginCap => "invalid-margin-cap"
  | .marginCapExceeded => "margin-cap-exceeded"
  | .invalidReservationTtl => "invalid-reservation-ttl"
  | .missingPositionAdmissionEvidence => "missing-position-admission-evidence"
  | .staleSourceMessage => "stale-source-message"
  | .invalidSnapshotAgePolicy => "invalid-snapshot-age-policy"
  | .staleBalanceSnapshot => "stale-balance-snapshot"
  | .futureBalanceSnapshot => "future-balance-snapshot"
  | .legacyUnownedReservation => "legacy-unowned-reservation"
  | .symbolAlreadyOwned => "symbol-already-owned"
  | .positionCapExceeded => "position-cap-exceeded"
  | .insufficientReservedHeadroom => "insufficient-reserved-headroom"

/-- The arguments of `reserve`. `observedAt` is `none` for a naive timestamp, `environment`
for any text but `DEMO` and `LIVE`. -/
structure ReserveRequest where
  exchange : String
  dispatchId : Uuid
  clientOrderId : String
  totalBalance : Decimal
  availableBalance : Decimal
  equity : Decimal
  marginCoin : String
  observedAt : Option Instant
  plannedMarginUsdt : Decimal
  headroom : Decimal
  ttl : ℤ
  maxMarginPerTradeUsdt : Decimal
  symbol : Option String
  environment : Option Environment
  maxPositions : Option ℤ
  providerActiveSymbols : Option (List String)
  maxSnapshotAge : ℤ := 30000000
  maxFutureSkew : ℤ := 1000000

/-- A request that passed every check `reserve` makes before it takes the lock, with the
values it checked. -/
structure AdmissionEvidence (r : ReserveRequest) where
  total : ℚ
  available : ℚ
  equity : ℚ
  planned : ℚ
  headroom : ℚ
  cap : ℚ
  observedAt : Instant
  owner : Owner
  maxPositions : ℤ
  activeSymbols : List String
  total_eq : r.totalBalance = .finite total
  available_eq : r.availableBalance = .finite available
  equity_eq : r.equity = .finite equity
  planned_eq : r.plannedMarginUsdt = .finite planned
  headroom_eq : r.headroom = .finite headroom
  cap_eq : r.maxMarginPerTradeUsdt = .finite cap
  symbol_eq : r.symbol = some owner.symbol
  environment_eq : r.environment = some owner.environment
  maxPositions_eq : r.maxPositions = some maxPositions
  activeSymbols_eq : r.providerActiveSymbols = some activeSymbols
  available_pos : 0 < available
  planned_pos : 0 < planned
  headroom_pos : 0 < headroom
  headroom_le_one : headroom ≤ 1
  planned_le_cap : planned ≤ cap
  maxPositions_pos : 0 < maxPositions

/-- The checks of `reserve` on its arguments, in the order of the source. -/
def ReserveRequest.evidence (r : ReserveRequest) :
    Except AdmissionRejection (AdmissionEvidence r) :=
  if r.exchange ≠ "bitget" then .error .unsupportedExchange else
  match ht : r.totalBalance.positive, ha : r.availableBalance.positive, he : r.equity.positive,
    hp : r.plannedMarginUsdt.positive with
  | some total, some available, some equity, some planned =>
    match hh : r.headroom.positive with
    | none => .error .invalidBalanceHeadroom
    | some headroom =>
      if h1 : headroom ≤ 1 then
        match r.observedAt with
        | none => .error .invalidBalanceSnapshot
        | some observedAt =>
          if blank r.marginCoin then .error .invalidBalanceSnapshot else
          match hc : r.maxMarginPerTradeUsdt.positive with
          | none => .error .invalidMarginCap
          | some cap =>
            if hcap : planned ≤ cap then
              if r.ttl ≤ 0 then .error .invalidReservationTtl else
              match hs : r.symbol, hv : r.environment, hm : r.maxPositions,
                hact : r.providerActiveSymbols with
              | some symbol, some environment, some maxPositions, some activeSymbols =>
                if h0 : 0 < maxPositions ∧ blank symbol = false then
                  .ok
                    { total, available, equity, planned, headroom, cap, observedAt
                      owner := ⟨environment, symbol⟩
                      maxPositions, activeSymbols
                      total_eq := (Decimal.positive_eq_some ht).1
                      available_eq := (Decimal.positive_eq_some ha).1
                      equity_eq := (Decimal.positive_eq_some he).1
                      planned_eq := (Decimal.positive_eq_some hp).1
                      headroom_eq := (Decimal.positive_eq_some hh).1
                      cap_eq := (Decimal.positive_eq_some hc).1
                      symbol_eq := hs
                      environment_eq := hv
                      maxPositions_eq := hm
                      activeSymbols_eq := hact
                      available_pos := (Decimal.positive_eq_some ha).2
                      planned_pos := (Decimal.positive_eq_some hp).2
                      headroom_pos := (Decimal.positive_eq_some hh).2
                      headroom_le_one := h1
                      planned_le_cap := hcap
                      maxPositions_pos := h0.1 }
                else .error .missingPositionAdmissionEvidence
              | _, _, _, _ => .error .missingPositionAdmissionEvidence
            else .error .marginCapExceeded
      else .error .invalidBalanceHeadroom
  | _, _, _, _ => .error .invalidBalanceSnapshot

inductive BalanceAdmission
  | rejected (rejection : AdmissionRejection)
  | accepted (snapshotId reservationId : Uuid)
deriving DecidableEq

/-- The readings of the database clock `reserve` makes : the start of the transaction, the
reading after the lock, and the one of the insert. -/
structure ReserveClock where
  transaction : Instant
  read : Instant
  insert : Instant

/-- The identifiers `uuid4` draws. -/
structure ReserveIds where
  snapshot : Uuid
  reservation : Uuid

/-- The states from which a dispatch may still enter. -/
def DispatchState.entry : DispatchState → Bool
  | .queued | .preflight | .sized | .validated | .submitting => true
  | _ => false

namespace MarginReservation

/-- A commitment whose time is over stays committed until evidence decides it. -/
def expired (now : Instant) (reason : String) (r : MarginReservation) : MarginReservation :=
  { r with
    state := .unknown
    resolvedAt := some now
    resolutionReason := r.resolutionReason.or (some reason) }

/-- What `escalate_expired` writes. -/
def escalated (now : Instant) (r : MarginReservation) : MarginReservation :=
  { r with
    state := .unknown
    resolvedAt := r.resolvedAt.or (some now)
    resolutionReason := r.resolutionReason.or (some "reservation-expired-unreconciled") }

/-- A released row, with the reason of its release. -/
def releasedFor (now : Instant) (reason : String) (r : MarginReservation) : MarginReservation :=
  { r with state := .released, resolvedAt := some now, resolutionReason := some reason }

/-- Another active reservation of the same owner. -/
def sameOwnerActive (r x : MarginReservation) : Bool :=
  x.state.active && x.owner = r.owner && x.id ≠ r.id

end MarginReservation

namespace Db

/-- `UPDATE bitget_margin_reservations SET … WHERE p`. -/
def rewriteReservations (db : Db) (p : MarginReservation → Bool)
    (f : MarginReservation → MarginReservation) : Except DbError Db :=
  match db.reservations.updateWhere p f with
  | none => .error .uniqueViolation
  | some reservations => .ok { db with reservations }

/-- `UPDATE bitget_margin_reservations SET … WHERE id = …`. -/
def setReservation (db : Db) (r : MarginReservation) : Except DbError Db :=
  match db.reservations.replace (·.id) r.id r with
  | none => .error .uniqueViolation
  | some reservations => .ok { db with reservations }

/-! ## Source freshness -/

/-- An entry intent of the dispatch's reservation that was filled or is not known to be
over. -/
def unsettledEntry (db : Db) (dispatchId : Uuid) : Bool :=
  db.intents.rows.any fun i => i.record.role = .entry &&
    (decide (0 < i.record.filledQty) ||
      !(i.record.state = .rejected || i.record.state = .cancelled ||
        i.record.state = .reconciled)) &&
    db.reservations.rows.any fun m =>
      m.clientOrderId = i.clientOid && m.dispatchId = dispatchId

/-- `expire_source_dispatch` : retire an entry known to be unsent. -/
def expireSourceDispatch (now : Instant) (db : Db) (dispatchId : Uuid) (state : DispatchState) :
    Except DbError Db :=
  if state ≠ .queued ∧ state ≠ .preflight ∧ state ≠ .submitting then .ok db else
  if db.reservations.rows.any fun m => m.dispatchId = dispatchId &&
      (m.state = .unknown || m.state = .consumed) then .ok db else
  if db.unsettledEntry dispatchId then .ok db else
  match db.dispatches.updateWhere (·.id = dispatchId) BitgetDispatch.expired with
  | none => .error .uniqueViolation
  | some dispatches =>
    rewriteReservations (({ db with dispatches }.recordTransition
        ⟨dispatchId, state, .expired, some "stale-source-message"⟩).releaseCanaryEntry dispatchId)
      (fun m => m.dispatchId = dispatchId && m.state = .reserved)
      (MarginReservation.releasedFor now "stale-source-message")

/-! ## Reserve -/

/-- The symbols of the active reservations of an environment, null for a legacy row. -/
def activeOwners (db : Db) (environment : Environment) : List (Option String) :=
  (db.reservations.rows.filter fun m => m.state.active &&
    m.owner.all fun o => o.environment = environment).map fun m => m.owner.map Owner.symbol

/-- The margin the active reservations hold. -/
def activeMargin (db : Db) : ℚ :=
  ((db.reservations.rows.filter fun m => m.state.active).map (·.plannedMarginUsdt)).sum

/-- The positions the provider reports, and the owners in flight it does not report yet. -/
def occupiedSlots (owners : List (Option String)) (providerActiveSymbols : List String) : ℕ :=
  providerActiveSymbols.length +
    (owners.dedup.filter fun o => o ∉ providerActiveSymbols.map some).length

/-- The row an accepted admission inserts. -/
def admittedReservation (clock : ReserveClock) (ids : ReserveIds) (r : ReserveRequest)
    (e : AdmissionEvidence r) : MarginReservation where
  id := ids.reservation
  dispatchId := r.dispatchId
  clientOrderId := r.clientOrderId
  balanceSnapshotId := ids.snapshot
  plannedMarginUsdt := e.planned
  owner := some e.owner
  legacyBindingSymbol := none
  state := .reserved
  hasExposure := false
  createdAt := clock.transaction
  expiresAt := clock.insert + r.ttl
  resolvedAt := none
  resolutionReason := none
  planned_pos := e.planned_pos

/-- The part of `reserve` after the owners were read. -/
def commitMargin (clock : ReserveClock) (ids : ReserveIds) (db : Db) (r : ReserveRequest)
    (e : AdmissionEvidence r) : Except DbError (Db × BalanceAdmission) :=
  match db.rewriteReservations
      (fun m => m.state = .reserved && m.expiresAt ≤ clock.transaction)
      (MarginReservation.expired clock.transaction "reservation-expired") with
  | .error err => .error err
  | .ok db =>
    let snapshot : BalanceSnapshot :=
      ⟨ids.snapshot, e.total, e.available, e.equity, r.marginCoin, e.observedAt⟩
    let db := { db with snapshots := db.snapshots ++ [snapshot] }
    if e.available * e.headroom < db.activeMargin + e.planned then
      .ok (db, .rejected .insufficientReservedHeadroom)
    else
      match db.reservations.insert (admittedReservation clock ids r e) with
      | none => .error .uniqueViolation
      | some reservations =>
        .ok ({ db with reservations }, .accepted ids.snapshot ids.reservation)

/-- `reserve`. `eligible` is the answer of the source eligibility query. -/
def reserve (clock : ReserveClock) (ids : ReserveIds) (eligible : Bool) (db : Db)
    (r : ReserveRequest) : Except DbError (Db × BalanceAdmission) :=
  match r.evidence with
  | .error rejection => .ok (db, .rejected rejection)
  | .ok e =>
    match db.dispatch r.dispatchId with
    | none => .ok (db, .rejected .staleSourceMessage)
    | some d =>
      if d.state.entry = false then .ok (db, .rejected .staleSourceMessage) else
      if eligible = false then
        (db.expireSourceDispatch clock.read r.dispatchId d.state).map
          (·, .rejected .staleSourceMessage)
      else
      if r.maxSnapshotAge ≤ 0 ∨ r.maxFutureSkew < 0 then
        .ok (db, .rejected .invalidSnapshotAgePolicy) else
      if r.maxSnapshotAge < clock.read - e.observedAt then
        .ok (db, .rejected .staleBalanceSnapshot) else
      if r.maxFutureSkew < e.observedAt - clock.read then
        .ok (db, .rejected .futureBalanceSnapshot) else
      let owners := db.activeOwners e.owner.environment
      if none ∈ owners then .ok (db, .rejected .legacyUnownedReservation) else
      if some e.owner.symbol ∈ owners ∨ e.owner.symbol ∈ e.activeSymbols then
        .ok (db, .rejected .symbolAlreadyOwned) else
      if e.maxPositions ≤ occupiedSlots owners e.activeSymbols then
        .ok (db, .rejected .positionCapExceeded) else
      db.commitMargin clock ids r e

end Db

/-! ## Resolve -/

/-- The outcomes `resolve` knows, after `upper()` ; `other` is every other text. -/
inductive Outcome
  | acknowledged
  | submitted
  | filled
  | partiallyFilled
  | rejected
  | cancelled
  | unknown
  | other (text : String)
deriving DecidableEq

def Outcome.text : Outcome → String
  | .acknowledged => "ACKNOWLEDGED"
  | .submitted => "SUBMITTED"
  | .filled => "FILLED"
  | .partiallyFilled => "PARTIAL"
  | .rejected => "REJECTED"
  | .cancelled => "CANCELLED"
  | .unknown => "UNKNOWN"
  | .other text => text

/-- `normalized in {"FILLED", "PARTIAL"}`. -/
def Outcome.exposure : Outcome → Bool
  | .filled | .partiallyFilled => true
  | _ => false

/-- The state an outcome asks for, none where it changes nothing or is no outcome. -/
def Outcome.target : Outcome → Option ReservationState
  | .filled => some .consumed
  | .partiallyFilled => some .unknown
  | .rejected | .cancelled => some .released
  | .unknown => some .unknown
  | _ => none

/-- The `CASE` of `resolve`. Proof of exposure outranks a release, and a row with exposure is
consumed where it would be released. -/
def resolvedState (old : ReservationState) (hasExposure : Bool) (outcome : Outcome)
    (target : ReservationState) : ReservationState :=
  if old = .consumed then old
  else if (target = .consumed ∨ target = .unknown) ∧ outcome.exposure then target
  else if old = .released then old
  else if target = .released ∧ hasExposure then .consumed
  else target

/-- What `resolve` writes. -/
def MarginReservation.resolved (now : Instant) (outcome : Outcome) (target : ReservationState)
    (r : MarginReservation) : MarginReservation :=
  { r with
    state := resolvedState r.state r.hasExposure outcome target
    hasExposure := r.hasExposure || outcome.exposure
    resolvedAt := some now
    resolutionReason := some outcome.text }

namespace Db

/-- `resolve`. -/
def resolve (now : Instant) (db : Db) (reservationId : Uuid) (outcome : Outcome) :
    Except DbError Db :=
  if outcome = .acknowledged ∨ outcome = .submitted then .ok db else
  match outcome.target with
  | none => .error .invalidOutcome
  | some target =>
    match db.reservation reservationId with
    | none => .ok db
    | some r =>
      if db.baselined (.reservation reservationId) then .ok db
      else db.setReservation (r.resolved now outcome target)

/-! ## Escalation and baseline -/

/-- `escalate_expired`. -/
def escalateExpired (now : Instant) (db : Db) (reservationId : Uuid) : Except DbError Db :=
  db.rewriteReservations
    (fun m => m.id = reservationId && m.state = .reserved && m.expiresAt ≤ now)
    (MarginReservation.escalated now)

/-- The writes of an applied baseline : the records it retires, and the release of the
active reservations among them. Which records these are is reviewed and approved. -/
def applyBaseline (now : Instant) (db : Db) (baselineId : String)
    (records : List BaselineRecord) : Except DbError Db :=
  rewriteReservations { db with baselineRecords := db.baselineRecords ++ records }
    (fun m => .reservation m.id ∈ records && m.state.active)
    (MarginReservation.releasedFor now
      ("audited-baseline:" ++ baselineId ++ ":unresolved-history"))

/-- `orphan_candidates` : active reservations of the environment without an entry intent of
their client order id. -/
def orphanCandidates (db : Db) (environment : Environment) : List MarginReservation :=
  db.reservations.rows.filter fun m => m.state.active &&
    (m.owner.all fun o => o.environment = environment) &&
    !db.baselined (.reservation m.id) &&
    !db.intents.rows.any fun i => i.clientOid = m.clientOrderId && i.record.role = .entry

end Db

end FattyTrader
