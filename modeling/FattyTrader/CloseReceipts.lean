import FattyTrader.ReservationLaws
import FattyTrader.TableParts

/-!
# Receipts of verified closes

A release rests on a receipt : the reservation, the close bound to it and the reading of the
venue it was proved with. It is accepted only where the fills listed by the closes of the
reservation, each counted once, sum to what the entry's legs filled (`sum_of_accepted`). The same
receipt is accepted again and changes nothing, and a receipt of another close finds the reservation
released for a reason that is not its own (`receipts_settled`).

A close counts with the fills its intent lists. A fill of the venue that the ledger holds under the
order id of a close, and that its intent does not list, counts for nothing (`unlistedFill_released`).
-/

set_option linter.unusedSectionVars false

open Tables

namespace FattyTrader

namespace Db

/-! ## Fills of the bound closes -/

/-- What the legs of an entry have filled, by their intents. -/
def entryFills (db : Db) (rootOid : String) : ℚ :=
  ((db.get rootOid).map (·.filledQty)).getD 0 +
    ((db.get (limitOid rootOid)).map (·.filledQty)).getD 0

/-- The fill is one of the venue, and the close lists it. -/
def listsFill (c : LiveIntentRecord) (f : FillRow) : Bool :=
  f.clientOrderId = c.clientOid && !statusDerived f.providerFillId &&
    c.providerFillIds.contains f.providerFillId

/-- The closes bound to a reservation that moved a quantity. -/
def realCloses (db : Db) (reservationId : Uuid) : List LiveIntentRecord :=
  (db.boundCloses (some reservationId)).filter fun c => c.filledQty ≠ 0

/-- The rows of the ledger that are fills of a real close of the reservation. -/
def realCloseFills (db : Db) (reservationId : Uuid) : List FillRow :=
  db.fills.rows.filter fun f => (db.realCloses reservationId).any (listsFill · f)

/-- The rows of the ledger that are fills of the venue under the order id of a bound close. -/
def boundCloseFills (db : Db) (reservationId : Uuid) : List FillRow :=
  db.fills.rows.filter fun f => !statusDerived f.providerFillId &&
    (db.boundCloses (some reservationId)).any fun c => f.clientOrderId = c.clientOid

variable {db db' : Db} {id : Uuid} {c : CloseClaim}

theorem ownFills_eq (db : Db) (r : LiveIntentRecord) :
    db.ownFills r = db.fills.rows.filter (listsFill r) := rfl

/-- A close is bound once. -/
theorem boundCloses_distinct (db : Db) (reservationId : Option Uuid) :
    (db.boundCloses reservationId).Pairwise fun a b => a.clientOid ≠ b.clientOid := by
  unfold boundCloses
  refine List.Pairwise.filterMap _ (fun b b' hne c hc c' hc' heq => ?_)
    (db.closeBindings.unique.sublist List.filter_sublist)
  exact hne ((clientOid_of_get hc).symm.trans (heq.trans (clientOid_of_get hc')))

/-- The closes of a reservation, with exact evidence, filled what their fills sum to. -/
theorem sum_realCloseFills {root : LiveIntentRecord} (hroot : root.marginReservationId = some id)
    (h : ∀ c ∈ db.movedCloses root, db.exactCloseEvidence root c) :
    ((db.realCloseFills id).map FillRow.quantity).sum =
      ((db.movedCloses root).map (·.filledQty)).sum := by
  have hmoved : db.movedCloses root = db.realCloses id := by
    rw [movedCloses, hroot]
    rfl
  rw [realCloseFills, sum_filter_any FillRow.quantity, hmoved]
  · refine congrArg List.sum (List.map_congr_left fun c hc => ?_)
    have hexact := h c (hmoved ▸ hc)
    simp only [exactCloseEvidence, Bool.and_eq_true, decide_eq_true_eq] at hexact
    exact hexact.1.1.2
  · refine ((db.boundCloses_distinct (some id)).sublist List.filter_sublist).imp ?_
    intro a b hne f _ hf
    simp only [listsFill, Bool.and_eq_true, decide_eq_true_eq] at hf
    simp [listsFill, hf.1.1, hne]

/-! ## What an accepted receipt proves -/

/-- Every check of a receipt passed. -/
structure Verified (clock : CloseClock) (db : Db) (c : CloseClaim) (m : MarginReservation)
    (observedAt : Instant) (entry close : LiveIntentRow) : Prop where
  wellFormed : c.wellFormed
  observed : c.observedAt = some observedAt
  locked : c.fresh observedAt clock.locked
  owner : db.closeOwner c = .ok m
  intents : db.closeIntents c observedAt m = .ok (entry, close)
  fills : db.closeFillsRejection c observedAt m entry close = none
  releasing : c.fresh observedAt clock.releasing

theorem verifyClose_iff {clock : CloseClock} {m : MarginReservation} :
    db.verifyClose clock c = .ok m ↔
      ∃ observedAt entry close, Verified clock db c m observedAt entry close := by
  constructor
  · intro h
    unfold verifyClose at h
    split at h
    · cases h
    next hwf =>
      split at h
      · cases h
      next t ht =>
        split at h
        · cases h
        next hlocked =>
          split at h
          · cases h
          next m' hm =>
            split at h
            · cases h
            next entry close hi =>
              split at h
              · cases h
              next hf =>
                split at h
                next hr =>
                  obtain rfl := Except.ok.inj h
                  exact ⟨t, entry, close, by simpa using hwf, ht, by simpa using hlocked, hm, hi,
                    hf, hr⟩
                · cases h
  · rintro ⟨t, entry, close, h⟩
    simp [verifyClose, h.wellFormed, h.observed, h.locked, h.owner, h.intents, h.fills,
      h.releasing]

/-- The entry and the close of a receipt, as they are bound to the reservation. -/
theorem closeIntents_ok {observedAt : Instant} {m : MarginReservation} {entry close : LiveIntentRow}
    (h : db.closeIntents c observedAt m = .ok (entry, close)) :
    db.get c.entryClientOrderId = some entry.record ∧
      db.get c.closeClientOrderId = some close.record ∧
      close.record ∈ db.boundCloses (some m.id) ∧
      entry.record.marginReservationId = some m.id ∧ 0 < close.record.filledQty := by
  unfold closeIntents at h
  split at h
  next entry' close' hentry hclose =>
    split at h
    next hb =>
      obtain ⟨rfl, rfl⟩ := Prod.mk.inj (Except.ok.inj h)
      obtain ⟨-, hbound, hchecks⟩ := hb
      obtain ⟨b, hb, hbid⟩ := Option.map_eq_some_iff.mp hbound
      have hget : db.get c.closeClientOrderId = some close'.record := by simp [get, hclose]
      have hmargin : entry'.record.marginReservationId = some m.id := by
        simp only [closeIntentsBound, Bool.and_eq_true, decide_eq_true_eq] at hchecks
        simp [hchecks]
      have hfilled : 0 < close'.record.filledQty := by
        simp only [closeIntentsBound, Bool.and_eq_true, decide_eq_true_eq] at hchecks
        exact hchecks.1.2
      refine ⟨by simp [get, hentry], hget, ?_, hmargin, hfilled⟩
      refine List.mem_filterMap.mpr ⟨b, List.mem_filter.mpr ⟨Table.mem_of_find hb, ?_⟩, ?_⟩
      · simp [hbid]
      · rw [Table.key_of_find hb]
        exact hget
    · cases h
  · cases h

/-- The fills of an accepted close are complete, and nothing of the entry remains. -/
theorem closeFills_ok {observedAt : Instant} {m : MarginReservation} {entry close : LiveIntentRow}
    (h : db.closeFillsRejection c observedAt m entry close = none) :
    ((db.fillsOf c.closeClientOrderId).map FillRow.quantity).sum = close.record.filledQty ∧
      db.remainingOwnedQuantity c.entryClientOrderId = .ok 0 := by
  unfold closeFillsRejection at h
  dsimp only at h
  split at h
  · cases h
  split at h
  · cases h
  split at h
  · cases h
  next hsum =>
    split at h
    · cases h
    next remaining hremaining =>
      split at h
      · cases h
      next hzero =>
        refine ⟨not_not.mp hsum, ?_⟩
        rw [hremaining, not_not.mp hzero]

/-- An accepted receipt : the fills of the closes sum to the fills of the entry's legs, and the fills
under the order id of its own close are all among them. -/
theorem sum_of_verified {clock : CloseClock} {m : MarginReservation} {observedAt : Instant}
    {entry close : LiveIntentRow} (h : Verified clock db c m observedAt entry close) :
    ((db.realCloseFills m.id).map FillRow.quantity).sum = db.entryFills c.entryClientOrderId ∧
      ∀ f ∈ db.fillsOf c.closeClientOrderId, f ∈ db.realCloseFills m.id := by
  obtain ⟨hentry, hclose, hbound, hmargin, hpos⟩ := closeIntents_ok h.intents
  obtain ⟨hledger, hremaining⟩ := closeFills_ok h.fills
  obtain ⟨root, hroot, -, hexact, hq, -⟩ := remainingOwnedQuantity_ok hremaining
  obtain rfl := Option.some.inj (hentry.symm.trans hroot)
  have hreal : close.record ∈ db.realCloses m.id :=
    List.mem_filter.mpr ⟨hbound, by simpa using hpos.ne'⟩
  refine ⟨?_, fun f hf => ?_⟩
  · rw [sum_realCloseFills hmargin hexact, entryFills, hroot]
    simp only [Option.map_some, Option.getD_some]
    linarith
  · -- the fills the close lists sum to all of the ledger's, and each of those counts
    have hsub : db.ownFills close.record =
        (db.fillsOf c.closeClientOrderId).filter fun f => !statusDerived f.providerFillId &&
          close.record.providerFillIds.contains f.providerFillId := by
      rw [ownFills_eq, fillsOf, List.filter_filter, ← clientOid_of_get hclose]
      refine List.filter_congr fun f _ => ?_
      simp only [listsFill, Bool.and_comm, Bool.and_assoc]
    have hown : ((db.ownFills close.record).map FillRow.quantity).sum = close.record.filledQty := by
      have := hexact close.record (by
        rw [movedCloses, hmargin]
        exact hreal)
      simp only [exactCloseEvidence, Bool.and_eq_true, decide_eq_true_eq] at this
      exact this.1.1.2
    have hlisted := forall_of_sum_filter (fun a _ => a.quantity_pos)
      ((hsub ▸ hown).trans hledger.symm) f hf
    obtain ⟨hmem, hoid⟩ := List.mem_filter.mp hf
    refine List.mem_filter.mpr ⟨hmem, List.any_eq_true.mpr ⟨close.record, hreal, ?_⟩⟩
    have hkey : f.clientOrderId = close.record.clientOid := by
      rw [clientOid_of_get hclose]
      simpa using hoid
    rw [listsFill, hkey]
    simpa using hlisted

/-! ## After the acceptance -/

/-- The row an accepted receipt leaves. -/
def Receipted (db : Db) (c : CloseClaim) (m : MarginReservation) : Prop :=
  db.reservation m.id = some m ∧ m.state = .released ∧
    m.resolutionReason = some (closeReceipt c.closeClientOrderId)

/-- The release of a reservation, in the rows that a receipt reads. -/
theorem closeOwner_of_release {now : Instant} {m : MarginReservation} (h : db.closeOwner c = .ok m)
    (hset : db.setReservation (m.releasedFor now (closeReceipt c.closeClientOrderId)) = .ok db') :
    db'.closeOwner c = .ok (m.releasedFor now (closeReceipt c.closeClientOrderId)) := by
  have hmem := (closeOwner_ok h).1
  unfold setReservation at hset
  split at hset
  · cases hset
  next t ht =>
    obtain rfl := Except.ok.inj hset
    unfold closeOwner at h
    split at h
    next m' hm =>
      split at h
      next hstate =>
        split at h
        · cases h
        next hamb =>
          obtain rfl := Except.ok.inj h
          have hrows := Table.rows_of_updateWhere ht
          have hown : ∀ x ∈ db.reservations.rows, x.id = m'.id → x = m' := fun x hx hid =>
            (Table.eq_or_not_conflict hx hmem).resolve_right fun hne =>
              hne (MarginReservation.conflict_of_id hid)
          have hfilter : t.rows.filter c.names =
              [m'.releasedFor now (closeReceipt c.closeClientOrderId)] := by
            rw [hrows, List.filter_map, List.filter_congr (q := c.names), hm]
            · simp [MarginReservation.releasedFor]
            · intro x hx
              by_cases hid : x.id = m'.id
              · rw [hown x hx hid]
                simp [CloseClaim.names, MarginReservation.releasedFor]
              · simp [MarginReservation.releasedFor, hid]
          have hactive : t.rows.any
              (m'.releasedFor now (closeReceipt c.closeClientOrderId)).sameOwnerActive = false := by
            rw [hrows, List.any_map]
            rw [Bool.not_eq_true, List.any_eq_false] at hamb
            refine List.any_eq_false.mpr fun x hx => ?_
            have hx' := hamb x hx
            by_cases hid : x.id = m'.id
            · simp [MarginReservation.sameOwnerActive, MarginReservation.releasedFor, hid]
            · simpa [MarginReservation.sameOwnerActive, MarginReservation.releasedFor, hid]
                using hx'
          unfold closeOwner
          rw [hfilter]
          dsimp only
          rw [if_pos (Or.inr ⟨rfl, rfl⟩), hactive]
          rfl
      · cases h
    · cases h

/-- The outcome of a receipt : refused, with nothing changed, or verified, with its row released. -/
theorem releaseVerifiedClose_cases (clock : CloseClock) (db : Db) (c : CloseClaim) :
    (∃ rejection, db.releaseVerifiedClose clock c = .ok (db, .rejected rejection)) ∨
      ∃ db' m observedAt entry close m',
        db.releaseVerifiedClose clock c = .ok (db', .accepted m.id) ∧
          Verified clock db c m observedAt entry close ∧ m'.id = m.id ∧ db'.Receipted c m' ∧
          db'.closeOwner c = .ok m' ∧ m'.createdAt = m.createdAt ∧
          db' = { db with reservations := db'.reservations } := by
  cases hv : db.verifyClose clock c with
  | error rejection => exact Or.inl ⟨rejection, by simp [releaseVerifiedClose, hv]⟩
  | ok m =>
    obtain ⟨observedAt, entry, close, h⟩ := verifyClose_iff.mp hv
    obtain ⟨hmem, -, hstate⟩ := closeOwner_ok h.owner
    have hm : db.reservation m.id = some m := reservation_eq_some.mpr ⟨hmem, rfl⟩
    refine Or.inr ?_
    by_cases hs : m.state = .released
    · have hreason := (hstate.resolve_left (by simp [hs])).2
      exact ⟨db, m, observedAt, entry, close, m, by simp [releaseVerifiedClose, hv, hs], h, rfl,
        ⟨hm, hs, hreason⟩, h.owner, rfl, rfl⟩
    · obtain ⟨db', hrelease⟩ := release_of_verifyClose hv
      have hrelease' := hrelease
      unfold releaseVerifiedClose at hrelease'
      rw [hv] at hrelease'
      dsimp only at hrelease'
      rw [if_neg hs] at hrelease'
      obtain ⟨db₁, hset, hp⟩ := exists_of_map_ok hrelease'
      obtain ⟨rfl, -⟩ := Prod.mk.inj hp
      refine ⟨db₁, m, observedAt, entry, close,
        m.releasedFor clock.write (closeReceipt c.closeClientOrderId), hrelease, h, rfl, ⟨?_, rfl, rfl⟩,
        closeOwner_of_release h.owner hset, rfl, setReservation_eq hset⟩
      simpa [MarginReservation.releasedFor] using reservation_of_set hset hm m.id

/-- The same receipt, fresh, on the state its acceptance left. -/
theorem release_again {clock clock' : CloseClock} {m m' : MarginReservation}
    {observedAt : Instant} {entry close : LiveIntentRow}
    (h : Verified clock db c m observedAt entry close) (hid : m'.id = m.id)
    (hrow : db'.Receipted c m') (howner : db'.closeOwner c = .ok m')
    (hcreated : m'.createdAt = m.createdAt)
    (hdb : db' = { db with reservations := db'.reservations })
    (hlocked : c.fresh observedAt clock'.locked) (hreleasing : c.fresh observedAt clock'.releasing) :
    db'.releaseVerifiedClose clock' c = .ok (db', .accepted m.id) := by
  have hbound : closeIntentsBound c observedAt m' = closeIntentsBound c observedAt m := by
    funext entry close
    simp only [closeIntentsBound, hid, hcreated]
  have hfill : closeFillVerified c observedAt m' = closeFillVerified c observedAt m := by
    funext entry close f
    simp only [closeFillVerified, hcreated]
  have hintents : db'.closeIntents c observedAt m' = .ok (entry, close) := by
    rw [← h.intents, hdb]
    simp only [closeIntents, hbound, hid]
    rfl
  have hfills : db'.closeFillsRejection c observedAt m' entry close = none := by
    rw [← h.fills, hdb]
    simp only [closeFillsRejection, hfill]
    rfl
  have hv : db'.verifyClose clock' c = .ok m' := verifyClose_iff.mpr
    ⟨observedAt, entry, close,
      ⟨h.wellFormed, h.observed, hlocked, howner, hintents, hfills, hreleasing⟩⟩
  simp [releaseVerifiedClose, hv, hrow.2.1, hid]

theorem closeReceipt_injective {a b : String} (h : closeReceipt a = closeReceipt b) : a = b :=
  String.append_right_inj _ |>.mp h

/-- A receipt of another close, on a row that was released on a receipt. -/
theorem release_of_other {clock : CloseClock} {c' : CloseClaim} {m : MarginReservation}
    (hrow : db.Receipted c m) (hnames : c'.names m)
    (hne : c'.closeClientOrderId ≠ c.closeClientOrderId) :
    ∃ rejection, db.releaseVerifiedClose clock c' = .ok (db, .rejected rejection) := by
  rcases releaseVerifiedClose_cases clock db c' with h | ⟨_, x, _, _, _, _, -, h, -⟩
  · exact h
  · obtain ⟨hreservation, hstate, hreason⟩ := hrow
    obtain ⟨hx, hxnames, hxstate⟩ := closeOwner_ok h.owner
    have hoid : x.clientOrderId = m.clientOrderId := by
      simp only [CloseClaim.names, Bool.and_eq_true, decide_eq_true_eq] at hnames hxnames
      rw [hxnames.2, hnames.2]
    obtain rfl := reservation_clientOrderId_unique hx (reservation_eq_some.mp hreservation).1 hoid
    rcases hxstate with hs | ⟨-, hr⟩
    · rw [hs] at hstate
      cases hstate
    · exact absurd (closeReceipt_injective (Option.some.inj (hr.symm.trans hreason))) hne

/-- What an accepted receipt proves of the ledger it was accepted in. -/
structure ProvenClosed (db : Db) (c : CloseClaim) (id : Uuid) : Prop where
  authenticated : c.authenticated
  flat : c.flatQuantity = .finite 0
  named : ∃ m ∈ db.reservations, m.id = id ∧ c.names m
  once : (db.realCloseFills id).Pairwise fun f g => f.providerFillId ≠ g.providerFillId
  closed : ((db.realCloseFills id).map FillRow.quantity).sum = db.entryFills c.entryClientOrderId
  complete : ∀ f ∈ db.fillsOf c.closeClientOrderId, f ∈ db.realCloseFills id

theorem provenClosed_of_verified {clock : CloseClock} {m : MarginReservation}
    {observedAt : Instant} {entry close : LiveIntentRow}
    (h : Verified clock db c m observedAt entry close) : db.ProvenClosed c m.id := by
  obtain ⟨hclosed, hcomplete⟩ := sum_of_verified h
  obtain ⟨hmem, hnames, -⟩ := closeOwner_ok h.owner
  have hwf := h.wellFormed
  simp only [CloseClaim.wellFormed, Bool.and_eq_true, decide_eq_true_eq] at hwf
  exact ⟨hwf.1.1.1.1.1.1, hwf.1.1.1.2, ⟨m, hmem, rfl, hnames⟩,
    db.fills.unique.sublist List.filter_sublist, hclosed, hcomplete⟩

end Db

/-- A receipt is refused and changes nothing, or it is accepted and proves the position closed.
After that the same receipt is accepted without a change while it is fresh, and the receipt of
another close of the reservation is refused as long as its row stays. -/
theorem receipts_settled (clock : CloseClock) (db : Db) (c : CloseClaim) :
    (∃ rejection, db.releaseVerifiedClose clock c = .ok (db, .rejected rejection)) ∨
      ∃ db' id, db.releaseVerifiedClose clock c = .ok (db', .accepted id) ∧
        db.ProvenClosed c id ∧
        (∀ (clock' : CloseClock) (observedAt : Instant), c.observedAt = some observedAt →
          c.fresh observedAt clock'.locked → c.fresh observedAt clock'.releasing →
          db'.releaseVerifiedClose clock' c = .ok (db', .accepted id)) ∧
        ∀ (clock' : CloseClock) (db'' : Db) (c' : CloseClaim) (m : MarginReservation),
          db''.reservation id = db'.reservation id → db''.reservation id = some m → c'.names m →
          c'.closeClientOrderId ≠ c.closeClientOrderId →
          ∃ rejection, db''.releaseVerifiedClose clock' c' = .ok (db'', .rejected rejection) := by
  rcases Db.releaseVerifiedClose_cases clock db c with h | h
  · exact Or.inl h
  obtain ⟨db', m, t, entry, close, m', hrelease, hv, hid, hrow, howner, hcreated, hdb⟩ := h
  refine Or.inr ⟨db', m.id, hrelease, Db.provenClosed_of_verified hv, ?_, ?_⟩
  · intro clock' t' ht' hlocked hreleasing
    obtain rfl := Option.some.inj (hv.observed.symm.trans ht')
    exact Db.release_again hv hid hrow howner hcreated hdb hlocked hreleasing
  · intro clock' db'' c' m'' hsame hm'' hnames hne
    obtain ⟨hreservation, hreceipt⟩ := hrow
    rw [hid] at hreservation
    obtain rfl : m' = m'' := Option.some.inj (hreservation.symm.trans (hsame.symm.trans hm''))
    exact Db.release_of_other ⟨hid ▸ hm'', hreceipt⟩ hnames hne

/-! ### A fill the close does not list -/

/-- An entry of 2 and two closes of it : the second was cancelled after one fill of 1, and the
ledger holds one more fill under its order id. -/
def unlistedFill : Db :=
  { Db.closableLedger with
    intents :=
      ⟨[{ record :=
            { clientOid := "live-bitget-BTCUSDT-1"
              symbol := "BTCUSDT"
              side := .buy
              state := .filled
              requestedQty := 2
              filledQty := 2
              marginReservationId := some 11
              balanceSnapshotId := some 10
              plannedMarginUsdt := some 1 }
          createdAt := 1
          checked := by decide +kernel },
        { record :=
            { clientOid := "live-bitget-BTCUSDT-1-close"
              symbol := "BTCUSDT"
              side := .sell
              role := .close
              state := .filled
              requestedQty := 1
              filledQty := 1
              providerOrderId := some "900"
              providerFillIds := ["77"] }
          createdAt := 10
          checked := Db.filledClose_checked },
        { record :=
            { clientOid := "live-bitget-BTCUSDT-1-first"
              symbol := "BTCUSDT"
              side := .sell
              role := .close
              state := .cancelled
              requestedQty := 2
              filledQty := 1
              providerOrderId := some "800"
              providerFillIds := ["70"] }
          createdAt := 5
          checked := by decide +kernel }], by decide +kernel⟩
    fills :=
      ⟨[⟨"live-bitget-BTCUSDT-1-first", "70", "BTCUSDT", 100, 1, 0, 0, 6, Db.closePrice_pos,
          Db.oneContract_pos⟩,
        ⟨"live-bitget-BTCUSDT-1-first", "71", "BTCUSDT", 100, 1, 0, 0, 7, Db.closePrice_pos,
          Db.oneContract_pos⟩,
        ⟨"live-bitget-BTCUSDT-1-close", "77", "BTCUSDT", 100, 1, 0, 0, 11, Db.closePrice_pos,
          Db.oneContract_pos⟩], by decide +kernel⟩
    closeBindings :=
      ⟨[⟨"live-bitget-BTCUSDT-1-first", 11⟩, ⟨"live-bitget-BTCUSDT-1-close", 11⟩],
        by decide +kernel⟩ }

/-- The receipt of the second close is accepted, while the fills of the two closes sum to 3. -/
theorem unlistedFill_released :
    ¬ ∀ (clock : CloseClock) (db db' : Db) (c : CloseClaim) (id : Uuid),
      db.releaseVerifiedClose clock c = .ok (db', .accepted id) →
      ((db.boundCloseFills id).map FillRow.quantity).sum = db.entryFills c.entryClientOrderId := by
  intro h
  have haccepted : ((unlistedFill.releaseVerifiedClose ⟨20, 20, 20⟩ Db.closeClaim).map Prod.snd) =
      .ok (.accepted 11) := by
    decide +kernel
  obtain ⟨⟨db', a⟩, hrelease, rfl⟩ := exists_of_map_ok haccepted
  have hsum := h _ _ _ _ _ hrelease
  revert hsum
  decide +kernel

end FattyTrader
