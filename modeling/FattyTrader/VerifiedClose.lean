import FattyTrader.Reservations

/-!
# Release on the proof of a close

`release_verified_close` frees the margin of a consumed reservation when an authenticated
reading of the venue shows the symbol flat, and the close bound to the reservation carries
exactly the fills the ledger holds for it. All checks read (`verifyClose`) ; the one write
releases the row and records the receipt of the close as its reason.

A row released on the same receipt is accepted again without a write. Every other state of
the reservation is refused (`verifyClose_ok`).
-/

set_option linter.unusedSectionVars false

open Tables

namespace FattyTrader

inductive CloseRejection
  | unverifiedCloseEvidence
  | staleOrFutureCloseEvidence
  | closeOwnerNotFound
  | closeOwnerNotConsumed
  | ambiguousCloseOwnership
  | closeIntentNotBound
  | unverifiedCloseFills
  | incompleteCloseFills
deriving DecidableEq

/-- The reason text of a refused close. -/
def CloseRejection.reason : CloseRejection → String
  | .unverifiedCloseEvidence => "unverified-close-evidence"
  | .staleOrFutureCloseEvidence => "stale-or-future-close-evidence"
  | .closeOwnerNotFound => "close-owner-not-found"
  | .closeOwnerNotConsumed => "close-owner-not-consumed"
  | .ambiguousCloseOwnership => "ambiguous-close-ownership"
  | .closeIntentNotBound => "close-intent-not-bound"
  | .unverifiedCloseFills => "unverified-close-fills"
  | .incompleteCloseFills => "incomplete-close-fills"

inductive TradeSide
  | close
  | buySingle
  | sellSingle
  | burstBuySingle
  | burstSellSingle
  | other (text : String)
deriving DecidableEq

/-- `trade_side in CLOSING_TRADE_SIDES`. -/
def TradeSide.closing : TradeSide → Bool
  | .other _ => false
  | _ => true

/-- One fill of the supplied evidence. A number is `none` where the value is no `Decimal`. -/
structure CloseFill where
  providerFillId : Option String
  providerOrderId : Option String
  symbol : Option String
  side : Option Side
  tradeSide : TradeSide
  price : Option Decimal
  quantity : Option Decimal
  fee : Option Decimal
  realizedPnl : Option Decimal

/-- The arguments of `release_verified_close`. -/
structure CloseClaim where
  environment : Option Environment
  symbol : String
  dispatchId : Uuid
  entryClientOrderId : String
  closeClientOrderId : String
  authenticated : Bool
  observedAt : Option Instant
  flatQuantity : Decimal
  fills : List CloseFill
  maxSnapshotAge : ℤ := 30000000

/-- `symbol == symbol.strip().upper()`, and the symbol is not empty. -/
def canonicalSymbol (symbol : String) : Bool :=
  symbol ≠ "" && symbol.toList.all (fun c => !c.isLower) &&
    symbol.toList.head?.all (fun c => !c.isWhitespace) &&
    symbol.toList.getLast?.all fun c => !c.isWhitespace

/-- The readings of the database clock : after the lock, before the release, and the one of
the write. -/
structure CloseClock where
  locked : Instant
  releasing : Instant
  write : Instant

/-- The reason a verified close leaves on the reservation. -/
def closeReceipt (closeClientOrderId : String) : String := "verified-close:" ++ closeClientOrderId

/-- A close order the venue issued for a position plan of its own. -/
def nativeClose (closeClientOrderId : String) : Bool :=
  "-native-close".toList.isSuffixOf closeClientOrderId.toList

namespace CloseClaim

/-- The checks on the arguments alone. -/
def wellFormed (c : CloseClaim) : Bool :=
  c.authenticated && c.environment.isSome && canonicalSymbol c.symbol &&
    c.flatQuantity = .finite 0 && !c.fills.isEmpty && c.observedAt.isSome &&
    decide (0 < c.maxSnapshotAge)

/-- The evidence is neither older than allowed nor from the future. -/
def fresh (c : CloseClaim) (observedAt now : Instant) : Bool :=
  now - observedAt ≤ c.maxSnapshotAge && observedAt - now ≤ 1000000

/-- The row named by the claim. -/
def names (c : CloseClaim) (m : MarginReservation) : Bool :=
  m.owner = c.environment.map (fun e => ⟨e, c.symbol⟩) && m.dispatchId = c.dispatchId &&
    m.clientOrderId = c.entryClientOrderId

end CloseClaim

/-- The checks on the entry and the close intent of the claim. -/
def closeIntentsBound (c : CloseClaim) (observedAt : Instant) (m : MarginReservation)
    (entry close : LiveIntentRow) : Bool :=
  let native := nativeClose c.closeClientOrderId
  entry.record.symbol = c.symbol && entry.record.role = .entry &&
    (entry.record.state = .filled || entry.record.state = .reconciled) &&
    entry.record.marginReservationId = some m.id &&
    close.record.symbol = c.symbol && close.record.side = entry.record.side.opposite &&
    close.record.role.closing &&
    (close.record.state = .filled || close.record.state = .reconciled) &&
    close.record.providerOrderId.any (· ≠ "") &&
    (entry.createdAt ≤ close.createdAt || native) && (m.createdAt ≤ close.createdAt || native) &&
    close.createdAt ≤ observedAt &&
    decide (0 < entry.record.filledQty) && decide (0 < close.record.requestedQty) &&
    decide (0 < close.record.filledQty) && close.record.requestedQty = close.record.filledQty

/-- One fill of the ledger against the supplied evidence for it. -/
def closeFillVerified (c : CloseClaim) (observedAt : Instant) (m : MarginReservation)
    (entry close : LiveIntentRow) (f : FillRow) : Bool :=
  match c.fills.find? fun s => s.providerFillId = some f.providerFillId with
  | none => false
  | some s =>
    f.providerFillId ≠ "" && !statusDerived f.providerFillId && f.symbol = c.symbol &&
      (close.createdAt ≤ f.filledAt ||
        (nativeClose c.closeClientOrderId && entry.createdAt ≤ f.filledAt &&
          m.createdAt ≤ f.filledAt && f.filledAt ≤ observedAt)) &&
      f.filledAt ≤ observedAt && s.providerOrderId = close.record.providerOrderId &&
      s.symbol = some c.symbol && s.side = some close.record.side && s.tradeSide.closing &&
      s.price = some (.finite f.price) && s.quantity = some (.finite f.quantity) &&
      s.fee = some (.finite f.fee) && s.realizedPnl = some (.finite f.realizedPnl)

inductive CloseAdmission
  | rejected (rejection : CloseRejection)
  | accepted (reservationId : Uuid)
deriving DecidableEq

namespace Db

/-- The ledger's fills of a client order id. -/
def fillsOf (db : Db) (clientOid : String) : List FillRow :=
  db.fills.rows.filter fun f => f.clientOrderId = clientOid

/-- The ids of the evidence are distinct and exactly those of the ledger. -/
def closeFillIdsMatch (ledger : List FillRow) (fills : List CloseFill) : Bool :=
  ledger.length = fills.length && (fills.map (·.providerFillId)).Nodup &&
    (ledger.all fun f => (fills.map (·.providerFillId)).contains (some f.providerFillId)) &&
    fills.all fun s => (ledger.map fun f => some f.providerFillId).contains s.providerFillId

/-- The reservation a claim may release : consumed, or released on this very receipt. -/
def closeOwner (db : Db) (c : CloseClaim) : Except CloseRejection MarginReservation :=
  match db.reservations.rows.filter c.names with
  | [m] =>
    if m.state = .consumed ∨
        (m.state = .released ∧ m.resolutionReason = some (closeReceipt c.closeClientOrderId)) then
      if db.reservations.rows.any m.sameOwnerActive then .error .ambiguousCloseOwnership
      else .ok m
    else .error .closeOwnerNotConsumed
  | _ => .error .closeOwnerNotFound

/-- The entry and the close intent, bound to the reservation. -/
def closeIntents (db : Db) (c : CloseClaim) (observedAt : Instant) (m : MarginReservation) :
    Except CloseRejection (LiveIntentRow × LiveIntentRow) :=
  match db.intentRow c.entryClientOrderId, db.intentRow c.closeClientOrderId with
  | some entry, some close =>
    if c.entryClientOrderId ≠ c.closeClientOrderId ∧
        ((db.closeBindings.find CloseBinding.closeClientOrderId c.closeClientOrderId).map
          CloseBinding.reservationId) = some m.id ∧
        closeIntentsBound c observedAt m entry close then .ok (entry, close)
    else .error .closeIntentNotBound
  | _, _ => .error .closeIntentNotBound

/-- The fills of the close in the ledger, against the evidence and the owned quantity. -/
def closeFillsRejection (db : Db) (c : CloseClaim) (observedAt : Instant) (m : MarginReservation)
    (entry close : LiveIntentRow) : Option CloseRejection :=
  let ledger := db.fillsOf c.closeClientOrderId
  if closeFillIdsMatch ledger c.fills = false then some .unverifiedCloseFills else
  if ledger.all (closeFillVerified c observedAt m entry close) = false then
    some .unverifiedCloseFills else
  if (ledger.map FillRow.quantity).sum ≠ close.record.filledQty then
    some .incompleteCloseFills else
  match db.remainingOwnedQuantity c.entryClientOrderId with
  | .error _ => some .unverifiedCloseFills
  | .ok remaining => if remaining ≠ 0 then some .incompleteCloseFills else none

/-- Every check of `release_verified_close`, with the reservation it admits. -/
def verifyClose (clock : CloseClock) (db : Db) (c : CloseClaim) :
    Except CloseRejection MarginReservation :=
  if c.wellFormed = false then .error .unverifiedCloseEvidence else
  match c.observedAt with
  | none => .error .unverifiedCloseEvidence
  | some observedAt =>
    if c.fresh observedAt clock.locked = false then .error .staleOrFutureCloseEvidence else
    match db.closeOwner c with
    | .error rejection => .error rejection
    | .ok m =>
      match db.closeIntents c observedAt m with
      | .error rejection => .error rejection
      | .ok (entry, close) =>
        match db.closeFillsRejection c observedAt m entry close with
        | some rejection => .error rejection
        | none =>
          if c.fresh observedAt clock.releasing then .ok m
          else .error .staleOrFutureCloseEvidence

/-- `release_verified_close`. -/
def releaseVerifiedClose (clock : CloseClock) (db : Db) (c : CloseClaim) :
    Except DbError (Db × CloseAdmission) :=
  match db.verifyClose clock c with
  | .error rejection => .ok (db, .rejected rejection)
  | .ok m =>
    if m.state = .released then .ok (db, .accepted m.id)
    else
      (db.setReservation (m.releasedFor clock.write (closeReceipt c.closeClientOrderId))).map
        (·, .accepted m.id)

theorem closeOwner_ok {db : Db} {c : CloseClaim} {m : MarginReservation}
    (h : db.closeOwner c = .ok m) :
    m ∈ db.reservations ∧ c.names m ∧
      (m.state = .consumed ∨
        (m.state = .released ∧
          m.resolutionReason = some (closeReceipt c.closeClientOrderId))) := by
  unfold closeOwner at h
  split at h
  next m' hm =>
    split at h
    next hstate =>
      split at h
      · cases h
      · obtain rfl := Except.ok.inj h
        have hmem : m' ∈ db.reservations.rows.filter c.names := by simp [hm]
        obtain ⟨hmem, hn⟩ := List.mem_filter.mp hmem
        exact ⟨hmem, hn, hstate⟩
    · cases h
  · cases h

/-- A verified close names one reservation, which is consumed or was released on the receipt
of this close. -/
theorem verifyClose_ok {clock : CloseClock} {db : Db} {c : CloseClaim} {m : MarginReservation}
    (h : db.verifyClose clock c = .ok m) :
    m ∈ db.reservations ∧ c.names m ∧
      (m.state = .consumed ∨
        (m.state = .released ∧
          m.resolutionReason = some (closeReceipt c.closeClientOrderId))) := by
  unfold verifyClose at h
  split at h
  · cases h
  · split at h
    · cases h
    · split at h
      · cases h
      · split at h
        · cases h
        next m' hm' =>
          split at h
          · cases h
          · split at h
            · cases h
            · split at h
              · obtain rfl := Except.ok.inj h
                exact closeOwner_ok hm'
              · cases h

end Db

end FattyTrader
