import FattyTrader.FallbackRuns
import FattyTrader.VerifiedClose

/-!
# Fills of a fallback close

Two readers judge the fills of a close that a fallback lane sent. The lane itself takes them for the
ledger (`FallbackFill.accepted`), and the release of the margin takes them for evidence of the close
(`FallbackFill.ReleaseEvidence`). A fill the release takes is refused by the lane where its trade
side is not the literal `close` : the vocabulary of a one way account is, all of it
(`closing_fill_persisted_iff`).
-/

set_option linter.unusedSectionVars false

open Tables

namespace FattyTrader

/-! ## Trade sides -/

/-- `CLOSING_TRADE_SIDES`. -/
def closingTradeSides : List String :=
  ["close", "buy_single", "sell_single", "burst_buy_single", "burst_sell_single"]

def TradeSide.ofText (text : String) : TradeSide :=
  if text = "close" then .close
  else if text = "buy_single" then .buySingle
  else if text = "sell_single" then .sellSingle
  else if text = "burst_buy_single" then .burstBuySingle
  else if text = "burst_sell_single" then .burstSellSingle
  else .other text

/-- The release compares with the texts of the list. -/
theorem closing_ofText (text : String) :
    (TradeSide.ofText text).closing ↔ text ∈ closingTradeSides := by
  unfold TradeSide.ofText closingTradeSides
  split_ifs <;> simp_all [TradeSide.closing]

/-- What the lifecycle of a verified close asks of one fill of the close `r`, before it takes it for
evidence. -/
structure FallbackFill.ReleaseEvidence (fill : FallbackFill) (r : LiveIntentRecord) : Prop where
  owner : fill.clientOid = some r.clientOid ∨
    (fill.clientOid = none ∧ r.providerOrderId ≠ none ∧ fill.orderId = r.providerOrderId)
  fee : fill.fee ≠ none
  symbol : fill.symbol = some r.symbol
  side : fill.side = some r.side
  tradeSide : ∃ text, fill.tradeSide = some text ∧ (TradeSide.ofText text).closing
  fillId : ∃ fillId, fill.fillId = some fillId ∧ fillId ≠ "" ∧ statusDerived fillId = false
  orderId : ∃ orderId, fill.orderId = some orderId ∧ orderId ≠ "" ∧
    ∀ known, r.providerOrderId = some known → known ≠ "" → known = orderId
  quantity : ∃ quantity, fill.quantity = some quantity ∧ 0 < quantity
  price : ∃ price, fill.price = some price ∧ 0 < price
  realizedPnl : fill.realizedPnl ≠ none

/-- What the lane asks of a fill beyond that. -/
structure FallbackFill.LaneReads (fill : FallbackFill) (r : LiveIntentRecord) : Prop where
  tradeSide : fill.tradeSide = some "close"
  time : ∃ time, fill.time = some time ∧ 0 < time
  fillId : ∀ fillId, fill.fillId = some fillId → strip fillId ≠ ""
  orderId : r.providerOrderId ≠ some ""

section Sides

variable {w : FallbackWorld} {fill : FallbackFill} {r : LiveIntentRecord} {id symbol : String}
  {owner : FallbackRow}

/-- The lane takes a fill of the release exactly where it reads it. -/
theorem accepted_isSome_iff (h : fill.ReleaseEvidence r) :
    (fill.accepted r r.providerOrderId).isSome ↔ fill.LaneReads r := by
  obtain ⟨text, htext, -⟩ := h.tradeSide
  obtain ⟨fillId, hfillId, -, hderived⟩ := h.fillId
  obtain ⟨orderId, horderId, hne, hknown⟩ := h.orderId
  obtain ⟨quantity, hquantity, hqpos⟩ := h.quantity
  obtain ⟨price, hprice, hppos⟩ := h.price
  obtain ⟨fee, hfee⟩ := Option.ne_none_iff_exists'.mp h.fee
  cases htime : fill.time with
  | none =>
    refine iff_of_false ?_ fun hl => by simpa [htime] using hl.time
    simp [FallbackFill.accepted, htime]
  | some time =>
    simp only [FallbackFill.accepted, hfee, horderId, hfillId, hquantity, hprice, htime]
    constructor
    · intro hs
      split_ifs at hs with hcond
      · obtain ⟨-, -, horder, -, -, hside, -, -, htpos, hstrip, -⟩ := hcond
        refine ⟨hside.resolve_left (by simp [htext]), ⟨time, htime, htpos⟩, fun i hi => ?_,
          fun hempty => ?_⟩
        · obtain rfl := Option.some.inj (hfillId.symm.trans hi)
          exact hstrip
        · rcases horder with horder | horder
          · cases hempty.symm.trans horder
          · exact hne (Option.some.inj (horder.symm.trans hempty))
      · cases hs
    · intro hl
      obtain ⟨time', htime', htpos⟩ := hl.time
      obtain rfl := Option.some.inj (htime.symm.trans htime')
      have horder : r.providerOrderId = none ∨ r.providerOrderId = some orderId := by
        cases hp : r.providerOrderId with
        | none => exact Or.inl rfl
        | some known =>
          have hknown' : known ≠ "" := fun h => hl.orderId (h ▸ hp)
          exact Or.inr (congrArg some (hknown known hp hknown'))
      have howner : fill.clientOid = some r.clientOid ∨ r.providerOrderId = some orderId := by
        rcases h.owner with ho | ⟨-, hp, ho⟩
        · exact Or.inl ho
        · exact Or.inr (ho.symm.trans horderId)
      have hclient : fill.clientOid = none ∨ fill.clientOid = some r.clientOid := by
        rcases h.owner with ho | ⟨ho, -⟩
        · exact Or.inr ho
        · exact Or.inl ho
      rw [if_pos ⟨howner, hclient, horder, h.symbol, h.side, Or.inr hl.tradeSide, hqpos, hppos,
        htpos, hl.fillId fillId hfillId, hderived⟩]
      rfl

/-- Rows the lane does not take leave what it gathered. -/
theorem gatherFills_of_refused {e : CloseEvidence} : ∀ {rows : List (Option FallbackFill)},
    (∀ fill, some fill ∈ rows → fill.accepted r e.providerOrderId = none) →
      w.gatherFills r e rows = .ok e
  | [], _ => rfl
  | none :: rows, h => by
    rw [FallbackWorld.gatherFills]
    exact gatherFills_of_refused fun fill hf => h fill (List.mem_cons_of_mem _ hf)
  | some fill :: rows, h => by
    have hfill := h fill List.mem_cons_self
    rw [FallbackWorld.gatherFills, FallbackWorld.gatherFill, hfill]
    exact gatherFills_of_refused fun fill' hf => h fill' (List.mem_cons_of_mem _ hf)

/-- The lane takes no fill that carries another trade side, of whatever order. -/
theorem accepted_of_tradeSide {text : String} (htext : fill.tradeSide = some text)
    (hne : text ≠ "close") (providerOrderId : Option String) :
    fill.accepted r providerOrderId = none := by
  unfold FallbackFill.accepted
  split
  · rw [if_neg]
    rintro ⟨-, -, -, -, -, hside, -⟩
    rcases hside with hside | hside
    · cases htext.symm.trans hside
    · exact hne (Option.some.inj (htext.symm.trans hside))
  · rfl

/-- The lane takes a fill the release takes exactly where it reads it. A close none of whose fills
carries the literal `close` is never recorded. -/
theorem closing_fill_persisted_iff (htarget : w.closeTarget id symbol = some (owner, r)) :
    (∀ fill : FallbackFill, fill.ReleaseEvidence r →
      ((fill.accepted r r.providerOrderId).isSome ↔ fill.LaneReads r)) ∧
      ∀ (now : Instant) (rows : List (Option FallbackFill)) (flat : Bool),
        FallbackWorld.ledgerOf w.db r.clientOid = [] →
        (∀ fill, some fill ∈ rows → fill.ReleaseEvidence r ∧ fill.tradeSide ≠ some "close") →
          w.persistCloseFills now id symbol rows flat = .ok (w, false) := by
  refine ⟨fun fill h => accepted_isSome_iff h, fun now rows flat hledger hrows => ?_⟩
  have hgather : w.gatherFills r ⟨r.providerOrderId, [], []⟩ rows =
      .ok ⟨r.providerOrderId, [], []⟩ := by
    refine gatherFills_of_refused fun fill hf => ?_
    obtain ⟨hevidence, hside⟩ := hrows fill hf
    obtain ⟨text, htext, -⟩ := hevidence.tradeSide
    exact accepted_of_tradeSide htext (fun h => hside (h ▸ htext)) _
  have hclose : w.closeLedger now r rows = .ok none := by
    unfold FallbackWorld.closeLedger
    rw [hgather]
    exact if_pos (List.isEmpty_iff.mpr hledger)
  simp only [FallbackWorld.persistCloseFills, htarget, hclose]

end Sides

/-! ## A close on a one way account -/

/-- The close of the long position, sent. -/
def sentClose : LiveIntentRecord where
  clientOid := fallbackClientOid longFallback.id
  symbol := "BTCUSDT"
  side := .sell
  role := .close
  state := .submitted
  requestedQty := 1
  providerOrderId := some "order"

/-- A single fallback is in conflict with no other one. -/
theorem closingFallback_unique :
    [{ longFallback with state := .closing }].Pairwise fun a b => ¬ FallbackRow.Conflict a b := by
  decide

/-- The fallback waits for the fills of its close. -/
def closingWorld : FallbackWorld where
  db := { intents :=
    ⟨[⟨heldEntry, 0, heldEntry_checked⟩, ⟨sentClose, 1, by decide⟩], by decide +kernel⟩ }
  fallbacks := ⟨[{ longFallback with state := .closing }], closingFallback_unique⟩

/-- The whole fill of the close, as a one way account reports it. -/
def oneWayFill : FallbackFill where
  fee := some (2 / 100)
  clientOid := some (fallbackClientOid longFallback.id)
  orderId := some "order"
  symbol := some "BTCUSDT"
  side := some .sell
  tradeSide := some "sell_single"
  fillId := some "fill"
  quantity := some 1
  price := some 90
  time := some 2
  realizedPnl := some (-10)

theorem oneWayFill_evidence : oneWayFill.ReleaseEvidence sentClose where
  owner := Or.inl rfl
  fee := by decide
  symbol := rfl
  side := rfl
  tradeSide := ⟨_, rfl, by decide⟩
  fillId := ⟨_, rfl, by decide, by decide⟩
  orderId := ⟨_, rfl, by decide, fun known h _ => (Option.some.inj h).symm⟩
  quantity := ⟨_, rfl, by norm_num⟩
  price := ⟨_, rfl, by norm_num⟩
  realizedPnl := by decide

theorem closingWorld_target : closingWorld.closeTarget longFallback.id "BTCUSDT" =
    some ({ longFallback with state := .closing }, sentClose) := by
  decide +kernel

theorem oneWayFill_persisted_iff :
    ((oneWayFill.accepted sentClose sentClose.providerOrderId).isSome ↔
        oneWayFill.LaneReads sentClose) ∧
      closingWorld.persistCloseFills 3 longFallback.id "BTCUSDT" [some oneWayFill] true =
        .ok (closingWorld, false) :=
  ⟨(closing_fill_persisted_iff closingWorld_target).1 _ oneWayFill_evidence,
    (closing_fill_persisted_iff closingWorld_target).2 _ _ _ rfl fun fill h => by
      obtain rfl := Option.some.inj (List.mem_singleton.mp h)
      exact ⟨oneWayFill_evidence, by decide⟩⟩

/-- The release takes the fill, the lane refuses it, and the row stays `closing` although the
position is flat. -/
theorem oneWayFill_refused : oneWayFill.ReleaseEvidence sentClose ∧
    oneWayFill.accepted sentClose sentClose.providerOrderId = none ∧
      ((closingWorld.persistCloseFills 3 longFallback.id "BTCUSDT" [some oneWayFill] true).map
        fun p => (p.1.fallbacks.rows.map FallbackRow.state, p.1.db.fills.rows.length, p.2)) =
          .ok ([.closing], 0, false) :=
  ⟨oneWayFill_evidence, by decide +kernel, by decide +kernel⟩

end FattyTrader
