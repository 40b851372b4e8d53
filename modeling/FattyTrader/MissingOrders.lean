import FattyTrader.IntentMonitor

/-!
# Orders the venue does not find

`classify_missing_detail` settles an order whose detail is missing from three readings : the fills of
its symbol, the position and the pending orders. Each of its verdicts needs a part of them.

A fill needs a complete page of fills, and a close also the fence of a flat position without a
pending order. A rejection frees the margin of the order : it needs the answer that the order is not
found, the fence, and that no fill of the order was read, of a page that may be incomplete. All else
is unknown (`missing_detail_fenced`).
-/

set_option linter.unusedSectionVars false

namespace FattyTrader

/-- The answers show a flat position, and no pending order of the symbol. -/
structure FlatFenced (reading : OrderReading) (symbol : String) : Prop where
  flat : flatPosition reading.position symbol
  noPending : noPendingOrders reading.pending symbol

/-- The page of fills is readable, and the last one. -/
def CompletePage (reading : OrderReading) : Prop :=
  ∃ fills, completeFills reading.fills = some (fills, true)

/-- No fill of the order that was read has a quantity and a price. -/
def Unfilled (intent : LiveIntentRecord) (providerOrderId : Option String)
    (reading : OrderReading) : Prop :=
  ∀ fills complete, completeFills reading.fills = some (fills, complete) →
    ∀ f ∈ matchingFills fills intent.clientOid providerOrderId, f.counted = none

/-- What each verdict on a missing detail rests on. -/
structure MissingDetailFence (intent : LiveIntentRecord) (reading : OrderReading)
    (providerOrderId : Option String) (missingOrderConfirmed : Bool) (status : LiveOrderStatus) :
    Prop where
  not_accepted : status ≠ .accepted
  read : status ≠ .unknown → reading.blockFailed = false
  filled : status = .filled ∨ status = .partiallyFilled →
    CompletePage reading ∧ (intent.role = .entry ∨ FlatFenced reading intent.symbol)
  rejected : status = .rejected →
    missingOrderConfirmed ∧ FlatFenced reading intent.symbol ∧ Unfilled intent providerOrderId reading

section Spec

variable {intent : LiveIntentRecord} {reading : OrderReading} {providerOrderId : Option String}
  {missingOrderConfirmed : Bool} {result : AsyncExecutionResult} {fills : List ProviderFill}

/-- Fills with no quantity at all sum to nothing only where none counts. -/
theorem counted_of_quantity_eq_zero (h : (summarizeFills fills).quantity = 0) :
    ∀ f ∈ fills, f.counted = none := by
  intro f hf
  cases hc : f.counted with
  | none => rfl
  | some c =>
    obtain ⟨q, p, g⟩ := c
    have hmem : q ∈ (fills.filterMap ProviderFill.counted).map fun c => c.1 :=
      List.mem_map.mpr ⟨_, List.mem_filterMap.mpr ⟨f, hf, hc⟩, rfl⟩
    have hnonneg : ∀ x ∈ (fills.filterMap ProviderFill.counted).map fun c => c.1, 0 ≤ x := by
      intro x hx
      obtain ⟨c', hc', rfl⟩ := List.mem_map.mp hx
      obtain ⟨f', -, hf'⟩ := List.mem_filterMap.mp hc'
      exact (ProviderFill.counted_pos hf').1.le
    have hle : q ≤ (summarizeFills fills).quantity := List.single_le_sum hnonneg _ hmem
    exact absurd (h ▸ hle) (ProviderFill.counted_pos hc).1.not_ge

/-- The status, from the flags of the pages and the quantity of the order. -/
theorem missingDetailStatus_spec (intent : LiveIntentRecord)
    (complete flat noPending missingOrderConfirmed : Bool) {filledQty : ℚ} (hqty : 0 ≤ filledQty) :
    let status := missingDetailStatus intent filledQty complete flat noPending missingOrderConfirmed
    status ≠ .accepted ∧
      (status = .filled ∨ status = .partiallyFilled →
        complete ∧ (intent.role = .entry ∨ (flat ∧ noPending))) ∧
      (status = .rejected → missingOrderConfirmed ∧ flat ∧ noPending ∧ filledQty = 0) := by
  unfold missingDetailStatus
  dsimp only
  grind

/-- A read of the block that fails leaves the order unknown. -/
theorem missingDetailStatus_unread {filledQty : ℚ} :
    missingDetailStatus intent filledQty false false false missingOrderConfirmed = .unknown := by
  simp [missingDetailStatus]

/-- Each verdict on a missing detail has its evidence. -/
theorem missing_detail_fenced
    (h : classifyMissingDetail intent reading providerOrderId missingOrderConfirmed = some result) :
    MissingDetailFence intent reading providerOrderId missingOrderConfirmed result.status := by
  unfold classifyMissingDetail at h
  dsimp only at h
  split at h
  next hblock =>
    obtain rfl := Option.some.inj h
    have hunknown : (missingDetailResult intent providerOrderId missingOrderConfirmed [] false false
        false).status = .unknown := by
      dsimp only [missingDetailResult]
      exact missingDetailStatus_unread
    rw [hunknown]
    exact ⟨by decide, fun hs => absurd rfl hs, fun hs => by simp at hs, fun hs => by cases hs⟩
  next hblock =>
    obtain ⟨⟨fills, complete⟩, hfills, rfl⟩ := Option.map_eq_some_iff.mp h
    obtain ⟨haccepted, hfilled, hrejected⟩ := missingDetailStatus_spec intent complete
      (flatPosition reading.position intent.symbol)
      (noPendingOrders reading.pending intent.symbol) missingOrderConfirmed
      (summarizeFills_nonneg (matchingFills fills intent.clientOid providerOrderId))
    refine ⟨haccepted, fun _ => by simpa using hblock, fun hs => ?_, fun hs => ?_⟩
    · obtain ⟨rfl, hrole⟩ := hfilled hs
      exact ⟨⟨fills, hfills⟩, hrole.imp id fun h => ⟨h.1, h.2⟩⟩
    · obtain ⟨hconfirmed, hflat, hpending, hzero⟩ := hrejected hs
      refine ⟨hconfirmed, ⟨hflat, hpending⟩, fun fills' complete' hfills' => ?_⟩
      obtain ⟨rfl, rfl⟩ := Prod.mk.inj (Option.some.inj (hfills.symm.trans hfills'))
      exact counted_of_quantity_eq_zero hzero

end Spec

/-- An entry of which the venue knows nothing, next to an older fill on a page that goes on. -/
def lostEntry : LiveIntentRecord where
  clientOid := "entry"
  symbol := "BTCUSDT"
  side := .buy
  requestedQty := 1 / 100
  providerOrderId := some "order"

def historicalPage : OrderReading where
  detail := .notFound
  fills := .page [⟨some "old-fill", some "old-order", some "old-entry", some 100, some 100, 0, 0,
    none⟩] true
  position := .rows []
  pending := .rows []

theorem missing_detail_fenced_historical :
    MissingDetailFence lostEntry historicalPage (some "order") true .rejected := by
  have h : (classifyMissingDetail lostEntry historicalPage (some "order") true).map
      AsyncExecutionResult.status = some .rejected := by decide +kernel
  obtain ⟨result, hresult, hstatus⟩ := Option.map_eq_some_iff.mp h
  rw [← hstatus]
  exact missing_detail_fenced hresult

/-- The page that goes on is no complete one, and the entry is rejected. -/
theorem historicalPage_rejected :
    ¬∀ (intent : LiveIntentRecord) (reading : OrderReading) (providerOrderId : Option String)
      (missingOrderConfirmed : Bool) (result : AsyncExecutionResult),
      classifyMissingDetail intent reading providerOrderId missingOrderConfirmed = some result →
        result.status = .rejected → CompletePage reading := by
  intro hclaim
  have h : (classifyMissingDetail lostEntry historicalPage (some "order") true).map
      AsyncExecutionResult.status = some .rejected := by decide +kernel
  obtain ⟨result, hresult, hstatus⟩ := Option.map_eq_some_iff.mp h
  obtain ⟨fills, hfills⟩ := hclaim _ _ _ _ _ hresult hstatus
  simp [historicalPage, completeFills] at hfills

end FattyTrader
