import FattyTrader.CloseOrders
import FattyTrader.Sizing

/-!
# Mutations of native stops and targets

`replace_stop_loss` of the gateway and `_protect` of the console move a stop or a target the
venue holds. Each checks that it owns the plan, builds an intent that carries the id of the plan
it modifies, claims the intent, and sends one request.

A provider order id stands in one row of `live_order_intents`. The legs of a protection are
rows themselves, and their acknowledgement records the plan ids there (`PlansAcknowledged`). So
the claim of a mutation of such a plan is refused by the constraint unless its client order id
exists already (`mutations_claim_iff`). Only a repair of a missing leg carries no id.

The columns `stop_mutation_root_oid` and `stop_mutation_take_profit_id` are left out, no
constraint and no check modelled here reads them.
-/

set_option linter.unusedSectionVars false

open Tables

namespace FattyTrader

open Runs

/-! ## The intents of mutations -/

/-- The side of the position an order of the entry's side opens. -/
def Side.holdSide : Side → Direction
  | .buy => .long
  | .sell => .short

/-- A pending plan : its type in lower case, and the client order id and the order id as the
source looks them up, none where they are blank. -/
structure NativePlan where
  symbol : String
  planType : String
  clientOid : Option String
  orderId : Option String
  holdSide : Option Direction
deriving DecidableEq

/-- An open position, with the ids of its plans, none where they are blank. -/
structure HeldPosition where
  side : Direction
  size : ℚ
  stopLossId : Option String
  takeProfitId : Option String
  size_pos : 0 < size

/-- Why a mutation ends before its claim. -/
inductive MutationRefusal
  | existing
  | invalid (text : String)
deriving DecidableEq

/-- The target a mutation keeps for a root. -/
def LiveIntentRecord.keptTargets (root : LiveIntentRecord) : Option (List ℚ) :=
  match root.activeTakeProfitPrice with
  | some p => some [p]
  | none => root.plannedTakeProfits

namespace Db

variable (db : Db)

/-- The entry a plan belongs to : the intent of its client order id, or the root of that leg. -/
def planRoot (clientOid : String) : Option LiveIntentRecord :=
  match db.get clientOid with
  | none => none
  | some r =>
    if r.role = .stopLoss then
      match r.protectionRootOid.filter (· ≠ "") with
      | some rootOid => db.get rootOid
      | none => some r
    else some r

end Db

/-- The arguments of `replace_stop_loss`, with what it reads of the venue. `confirmed` is the
verdict of the strict readback before the mutation. -/
structure StopReplacement where
  symbol : String
  side : Direction
  quantity : ℚ
  stopLoss : ℚ
  clientOid : String
  tick : ℚ
  positions : List HeldPosition
  plans : List NativePlan
  confirmed : Bool

namespace StopReplacement

variable (q : StopReplacement)

/-- The plan the mutation modifies : the only stop loss of the position's id. -/
def plan (stopLossId : String) : Option NativePlan :=
  match q.plans.filter fun p => p.orderId = some stopLossId && p.planType = "pos_loss" with
  | [p] => some p
  | _ => none

/-- The root owns the whole position. -/
def owned (db : Db) (root : LiveIntentRecord) : Bool :=
  root.role = .entry && root.symbol = q.symbol && root.side = q.side.side &&
    root.entryLeg ≠ some .limit && root.plannedStopLoss.isSome &&
    root.plannedTakeProfits.any (fun ps => !ps.isEmpty) &&
    (match db.remainingOwnedQuantity root.clientOid with
      | .ok remaining => remaining = q.quantity
      | .error _ => false)

/-- The intent of `replace_stop_loss`. -/
def intent (db : Db) : Except MutationRefusal LiveIntentRecord :=
  if (db.get q.clientOid).isSome then .error .existing
  else if q.stopLoss ≤ 0 then .error (.invalid "stop-loss request is invalid")
  else match roundPriceToTick q.stopLoss q.tick, q.positions with
    | some stop, [p] =>
      if p.side ≠ q.side ∨ p.size ≠ q.quantity then
        .error (.invalid "Bitget position changed before stop-loss modification")
      else match p.stopLossId, p.takeProfitId with
        | some stopLossId, some _ =>
          match q.plan stopLossId with
          | none => .error (.invalid "native SL plan was not found uniquely")
          | some plan =>
            match db.planRoot (plan.clientOid.getD "") with
            | none => .error (.invalid "native SL ownership does not match the live residual")
            | some root =>
              if q.owned db root then
                if q.confirmed then
                  .ok
                    { clientOid := q.clientOid
                      symbol := q.symbol
                      side := q.side.side.opposite
                      role := .stopLoss
                      requestedQty := q.quantity
                      providerOrderId := some stopLossId
                      plannedStopLoss := some stop
                      plannedTakeProfits := root.keptTargets }
                else .error (.invalid "owned native protection strict pre-readback failed")
              else .error (.invalid "native SL ownership does not match the live residual")
        | _, _ => .error (.invalid "owned native SL and retained TP identities are required")
    | none, _ => .error (.invalid "tick-rounded price is non-positive")
    | _, _ => .error (.invalid "Bitget position changed before stop-loss modification")

end StopReplacement

inductive ProtectionAction
  | setStop (price : ℚ)
  | stopToEntry (price : ℚ)
  | setTarget (price : ℚ)
  | repair
deriving DecidableEq

/-- The arguments of `_protect`, with what it reads of the venue. -/
structure ConsoleProtection where
  rootOid : String
  clientOid : String
  action : ProtectionAction
  position : HeldPosition
  tick : ℚ
  mark : ℚ
  plans : List NativePlan

namespace ConsoleProtection

variable (q : ConsoleProtection)

/-- The id of one leg among the pending plans ; none where the leg is missing. -/
def identity (root : LiveIntentRecord) (supplied : Option String) (kind suffix : String) :
    Except MutationRefusal (Option String) :=
  let matching := q.plans.filter fun p => p.symbol = root.symbol && p.planType = kind &&
    p.clientOid = some (root.clientOid ++ suffix) &&
    p.holdSide = some root.side.holdSide
  if 1 < matching.length ∨ (supplied.isSome ∧ matching.map (·.orderId) ≠ [supplied]) then
    .error (.invalid "native opposite plan has no exact root ownership")
  else .ok (matching.head?.bind (·.orderId))

/-- The stop and the target the mutation asks for. -/
def prices (root : LiveIntentRecord) : Option (ℚ × ℚ) := do
  let stop ← root.activeStopLossPrice.or root.plannedStopLoss
  let target ← root.activeTakeProfitPrice.or (root.plannedTakeProfits.bind List.head?)
  match q.action with
  | .setStop price | .stopToEntry price => do
    let stop ← roundPriceToTick price q.tick
    pure (stop, target)
  | .setTarget price => do
    let target ← roundPriceToTick price q.tick
    pure (stop, target)
  | .repair => pure (stop, target)

/-- The prices clear the mark by one tick. -/
def clears (root : LiveIntentRecord) (stop target : ℚ) : Bool :=
  let sign : ℚ := if root.side = .buy then 1 else -1
  decide (q.tick ≤ (q.mark - stop) * sign) && decide (q.tick ≤ (target - q.mark) * sign)

/-- The action moves the target. -/
def movesTarget : Bool :=
  match q.action with
  | .setTarget _ => true
  | _ => false

/-- The intent of a mutation, with the ids of both legs. -/
def legIntent (root : LiveIntentRecord) (stop target : ℚ) (stopLossId takeProfitId : Option String) :
    LiveIntentRecord where
  clientOid := q.clientOid
  symbol := root.symbol
  side := root.side.opposite
  role := if q.movesTarget then .takeProfit else .stopLoss
  requestedQty := q.position.size
  providerOrderId := if q.movesTarget then takeProfitId else stopLossId
  plannedStopLoss := some stop
  plannedTakeProfits := some [target]

/-- The intent of `_protect`. A repair of a leg that is not missing carries its id as well. -/
def intent (db : Db) : Except MutationRefusal LiveIntentRecord :=
  match db.get q.rootOid with
  | none => .error (.invalid "root is not owned")
  | some root =>
    match q.prices root with
    | none => .error (.invalid "tick-rounded price is non-positive")
    | some (stop, target) =>
      if q.clears root stop target then do
        let stopLossId ← q.identity root q.position.stopLossId "pos_loss" "-sl"
        let takeProfitId ← q.identity root q.position.takeProfitId "pos_profit" "-tp"
        if q.action ≠ .repair ∧ (stopLossId = none ∨ takeProfitId = none) then
          .error (.invalid "selected modification requires both exact native plans; use repair")
        else .ok (q.legIntent root stop target stopLossId takeProfitId)
      else .error (.invalid "native protection must clear the current mark by one tick")

end ConsoleProtection

/-- A mutation of a native stop or target. -/
inductive StopMutation
  | replaceStopLoss (q : StopReplacement)
  | protect (q : ConsoleProtection)

def StopMutation.intent (db : Db) : StopMutation → Except MutationRefusal LiveIntentRecord
  | .replaceStopLoss q => q.intent db
  | .protect q => q.intent db

/-- The mutation is one of the position whose plans have the ids `stopLossId` and
`takeProfitId` at the venue. -/
def StopMutation.Names (rootOid stopLossId takeProfitId : String) : StopMutation → Prop
  | .replaceStopLoss q => ∀ p ∈ q.positions, p.stopLossId = some stopLossId
  | .protect q => q.rootOid = rootOid ∧ ∀ p ∈ q.plans,
      (p.clientOid = some (rootOid ++ "-sl") → p.orderId = some stopLossId) ∧
        (p.clientOid = some (rootOid ++ "-tp") → p.orderId = some takeProfitId)

/-! ## What a mutation claims -/

section Intent

variable {db : Db} {record : LiveIntentRecord} {rootOid stopLossId takeProfitId : String}

theorem StopReplacement.intent_ok {q : StopReplacement} (h : q.intent db = .ok record) :
    record.marginReservationId = none ∧ record.inserted.Checked ∧
      ∃ p ∈ q.positions, record.providerOrderId = p.stopLossId := by
  unfold StopReplacement.intent at h
  split at h
  · cases h
  split at h
  · cases h
  split at h
  next stop p hround hpositions =>
    split at h
    · cases h
    next hsame =>
      simp only [not_or, not_not] at hsame
      split at h
      next hsl htp =>
        split at h
        · cases h
        split at h
        · cases h
        split at h
        · split at h
          · obtain rfl := Except.ok.inj h
            refine ⟨rfl, ⟨?_, le_rfl, by simp [LiveIntentRecord.inserted], Or.inl rfl⟩,
              p, by rw [hpositions]; exact List.mem_cons_self, hsl.symm⟩
            simpa [LiveIntentRecord.inserted, ← hsame.2] using p.size_pos
          · cases h
        · cases h
      · cases h
  · cases h
  · cases h

/-- The id of a leg is the one of a plan of its client order id. -/
theorem ConsoleProtection.identity_ok {q : ConsoleProtection} {root : LiveIntentRecord}
    {supplied id : Option String} {kind suffix : String}
    (h : q.identity root supplied kind suffix = .ok id) :
    id = none ∨ ∃ p ∈ q.plans, p.clientOid = some (root.clientOid ++ suffix) ∧ id = p.orderId := by
  unfold ConsoleProtection.identity at h
  dsimp only at h
  split at h
  · cases h
  · obtain rfl := Except.ok.inj h
    cases hhead : List.head? (q.plans.filter _) with
    | none => exact Or.inl rfl
    | some p =>
      have hp := List.mem_of_mem_head? hhead
      simp only [List.mem_filter, Bool.and_eq_true, decide_eq_true_eq] at hp
      exact Or.inr ⟨p, hp.1, hp.2.1.2, rfl⟩

theorem ConsoleProtection.intent_ok {q : ConsoleProtection} (h : q.intent db = .ok record) :
    record.marginReservationId = none ∧ record.inserted.Checked ∧
      (record.providerOrderId = none ∨ ∃ p ∈ q.plans,
        (p.clientOid = some (q.rootOid ++ "-sl") ∨ p.clientOid = some (q.rootOid ++ "-tp")) ∧
          record.providerOrderId = p.orderId) := by
  unfold ConsoleProtection.intent at h
  split at h
  · cases h
  next root hroot =>
    have howned : root.clientOid = q.rootOid := Db.clientOid_of_get hroot
    split at h
    · cases h
    next stop target hprices =>
      split at h
      · cases hsl : q.identity root q.position.stopLossId "pos_loss" "-sl" with
        | error e => rw [hsl] at h; cases h
        | ok slId =>
          cases htp : q.identity root q.position.takeProfitId "pos_profit" "-tp" with
          | error e => rw [hsl, htp] at h; cases h
          | ok tpId =>
            rw [hsl, htp] at h
            replace h : (if q.action ≠ .repair ∧ (slId = none ∨ tpId = none) then
                Except.error (MutationRefusal.invalid
                  "selected modification requires both exact native plans; use repair")
              else .ok (q.legIntent root stop target slId tpId)) = .ok record := h
            split at h
            · cases h
            · obtain rfl := Except.ok.inj h
              refine ⟨rfl, ⟨q.position.size_pos, le_rfl, by simp [LiveIntentRecord.inserted],
                Or.inl rfl⟩, ?_⟩
              have hid : (q.legIntent root stop target slId tpId).providerOrderId =
                  if q.movesTarget then tpId else slId := rfl
              rw [hid]
              split
              · rcases q.identity_ok htp with hnone | ⟨p, hp, hoid, hid⟩
                · exact Or.inl hnone
                · exact Or.inr ⟨p, hp, Or.inr (howned ▸ hoid), hid⟩
              · rcases q.identity_ok hsl with hnone | ⟨p, hp, hoid, hid⟩
                · exact Or.inl hnone
                · exact Or.inr ⟨p, hp, Or.inl (howned ▸ hoid), hid⟩
      · cases h

/-- A mutation of a position carries no id, or the id of one of its plans. -/
theorem StopMutation.intent_ok {m : StopMutation} (h : m.intent db = .ok record)
    (hm : m.Names rootOid stopLossId takeProfitId) :
    record.marginReservationId = none ∧ record.inserted.Checked ∧
      (record.providerOrderId = none ∨ record.providerOrderId = some stopLossId ∨
        record.providerOrderId = some takeProfitId) := by
  cases m with
  | replaceStopLoss q =>
    obtain ⟨hmargin, hchecked, p, hp, hid⟩ := StopReplacement.intent_ok h
    exact ⟨hmargin, hchecked, Or.inr (Or.inl (hid.trans (hm p hp)))⟩
  | protect q =>
    obtain ⟨rfl, hplans⟩ := hm
    obtain ⟨hmargin, hchecked, hid⟩ := ConsoleProtection.intent_ok h
    refine ⟨hmargin, hchecked, hid.imp_right ?_⟩
    rintro ⟨p, hp, hoid | hoid, hid⟩
    · exact Or.inl (hid.trans ((hplans p hp).1 hoid))
    · exact Or.inr (hid.trans ((hplans p hp).2 hoid))

end Intent

/-! ## The claim -/

namespace Db

variable {db db' : Db} {record : LiveIntentRecord}

/-- The claim returns, and says whether the client order id was new. -/
def ClaimsNormally (now : Instant) (db : Db) (record : LiveIntentRecord) : Prop :=
  ∃ db' won, db.claim now record = .ok (db', won) ∧ (won = true ↔ db.get record.clientOid = none)

/-- The id stands in a row. -/
def Recorded (db : Db) (providerOrderId : String) : Prop :=
  ∃ row ∈ db.intents, row.record.providerOrderId = some providerOrderId

/-- A claim fails exactly when it is new and carries a provider order id that is recorded. -/
theorem claimsNormally_iff (now : Instant) (hmargin : record.marginReservationId = none)
    (hchecked : record.inserted.Checked) : db.ClaimsNormally now record ↔
      db.get record.clientOid ≠ none ∨ ∀ id, record.providerOrderId = some id → ¬ db.Recorded id := by
  unfold ClaimsNormally claim insertIntent
  rw [dif_pos hchecked]
  cases hget : db.get record.clientOid with
  | some r =>
    refine iff_of_true ⟨db, false, by simp, by simp⟩ (Or.inl (by simp))
  | none =>
    have hbinding : db.BindingOk record.inserted := Or.inl hmargin
    have hfresh : ∀ row ∈ db.intents, row.clientOid ≠ record.clientOid := by
      intro row hrow heq
      have : db.get record.clientOid = some row.record :=
        get_eq_some_iff.mpr ⟨row, hrow, rfl, heq⟩
      rw [hget] at this
      cases this
    have hinsert : (db.intents.insert ⟨record.inserted, now, hchecked⟩).isSome ↔
        ∀ id, record.providerOrderId = some id → ¬ db.Recorded id := by
      rw [Table.insert_isSome_iff]
      constructor
      · rintro hno id hid ⟨row, hrow, hrec⟩
        have hsame : row.record.providerOrderId = record.inserted.providerOrderId :=
          hrec.trans hid.symm
        exact hno row hrow (Or.inr ⟨hsame, by simp [hrec]⟩)
      · rintro hno row hrow (heq | ⟨heq, hne⟩)
        · exact hfresh row hrow heq
        · obtain ⟨id, hid⟩ := Option.ne_none_iff_exists'.mp hne
          have hid' : record.providerOrderId = some id := heq.symm.trans hid
          exact hno id hid' ⟨row, hrow, hid⟩
    rw [← hinsert]
    dsimp only
    rw [if_pos hbinding]
    cases hins : db.intents.insert ⟨record.inserted, now, hchecked⟩ with
    | none => simp
    | some intents => simp

end Db

/-! ## Runs of mutations -/

namespace Db

variable {db db' : Db} {rootOid stopLossId takeProfitId : String}

/-- Every provider order id in a row stays there. -/
def KeepsIds (db w : Db) : Prop :=
  ∀ row ∈ db.intents.rows, row.record.providerOrderId ≠ none →
    (w.get row.clientOid).bind (·.providerOrderId) = row.record.providerOrderId

instance (db w : Db) : Decidable (db.KeepsIds w) :=
  inferInstanceAs (Decidable (∀ row ∈ db.intents.rows, row.record.providerOrderId ≠ none →
    (w.get row.clientOid).bind (·.providerOrderId) = row.record.providerOrderId))

theorem providerOrderId_of_keepsIds {oid id : String} (h : db.KeepsIds db')
    (hid : (db.get oid).bind (·.providerOrderId) = some id) :
    (db'.get oid).bind (·.providerOrderId) = some id := by
  obtain ⟨r, hr, hrec⟩ := Option.bind_eq_some_iff.mp hid
  obtain ⟨row, hrow, rfl, rfl⟩ := get_eq_some_iff.mp hr
  exact (h row hrow (by simp [hrec])).trans hrec

/-- The legs of the protection of a root were acknowledged under the ids of their plans. -/
structure PlansAcknowledged (db : Db) (rootOid stopLossId takeProfitId : String) : Prop where
  stopLoss : (db.get (rootOid ++ "-sl")).bind (·.providerOrderId) = some stopLossId
  takeProfit : (db.get (rootOid ++ "-tp")).bind (·.providerOrderId) = some takeProfitId

theorem PlansAcknowledged.of_keepsIds (h : db.PlansAcknowledged rootOid stopLossId takeProfitId)
    (hkeeps : db.KeepsIds db') : db'.PlansAcknowledged rootOid stopLossId takeProfitId :=
  ⟨providerOrderId_of_keepsIds hkeeps h.stopLoss, providerOrderId_of_keepsIds hkeeps h.takeProfit⟩

theorem recorded_of_get {oid id : String} (h : (db.get oid).bind (·.providerOrderId) = some id) :
    db.Recorded id := by
  obtain ⟨r, hr, hid⟩ := Option.bind_eq_some_iff.mp h
  obtain ⟨row, hrow, rfl, -⟩ := get_eq_some_iff.mp hr
  exact ⟨row, hrow, hid⟩

/-- A claim rewrites no row. -/
theorem keepsIds_claim {now : Instant} {record : LiveIntentRecord} {won : Bool}
    (h : db.claim now record = .ok (db', won)) : db.KeepsIds db' := by
  intro row hrow _
  have hget : db.get row.clientOid = some row.record :=
    get_eq_some_iff.mpr ⟨row, hrow, rfl, rfl⟩
  rcases insertIntent_ok h with ⟨-, rfl, -⟩ | ⟨-, hnone, -, -, hins⟩
  · rw [hget]
    rfl
  · have hne : row.clientOid ≠ record.clientOid := fun heq => by
      rw [← heq, hget] at hnone
      cases hnone
    rw [hins, if_neg hne, hget]
    rfl

end Db

/-- A mutation reaches its claim or is refused before it, or another transaction writes. -/
inductive MutationLabel
  | mutate (now : Instant) (m : StopMutation)
  | writes (w : Db)

/-- The ledger after a step. No transaction of the source takes the id of a row away. -/
def mutationStep (db : Db) : MutationLabel → Db
  | .mutate now m =>
    match m.intent db with
    | .error _ => db
    | .ok record =>
      match db.claim now record with
      | .error _ => db
      | .ok (db, _) => db
  | .writes w => if db.KeepsIds w then w else db

theorem plansAcknowledged_mutationStep {rootOid stopLossId takeProfitId : String} (db : Db)
    (l : MutationLabel) (h : db.PlansAcknowledged rootOid stopLossId takeProfitId) :
    (mutationStep db l).PlansAcknowledged rootOid stopLossId takeProfitId := by
  cases l with
  | mutate now m =>
    dsimp only [mutationStep]
    split
    · exact h
    · split
      · exact h
      next hclaim => exact h.of_keepsIds (Db.keepsIds_claim hclaim)
  | writes w =>
    dsimp only [mutationStep]
    split
    next hkeeps => exact h.of_keepsIds hkeeps
    · exact h

/-- Along every sequence of mutations of a position whose legs were acknowledged, and whatever is
written between them, every claim returns normally exactly when each claimed intent exists
already or carries no plan id. -/
theorem mutations_claim_iff {db : Db} {ls : List MutationLabel}
    {rootOid stopLossId takeProfitId : String}
    (hack : db.PlansAcknowledged rootOid stopLossId takeProfitId)
    (hnames : ∀ now m, .mutate now m ∈ ls → m.Names rootOid stopLossId takeProfitId) :
    (∀ p ∈ visits mutationStep db ls, ∀ now m record, p.2 = .mutate now m →
        m.intent p.1 = .ok record → p.1.ClaimsNormally now record) ↔
      ∀ p ∈ visits mutationStep db ls, ∀ now m record, p.2 = .mutate now m →
        m.intent p.1 = .ok record →
          p.1.get record.clientOid ≠ none ∨ record.providerOrderId = none := by
  refine forall₂_congr fun p hp => forall_congr' fun now => forall_congr' fun m =>
    forall_congr' fun record => forall₂_congr fun hl hintent => ?_
  have hack' := visits_inv plansAcknowledged_mutationStep hack hp
  have hmem : MutationLabel.mutate now m ∈ ls := by
    obtain ⟨bs, cs, rfl, -⟩ := mem_visits_iff.mp hp
    rw [← hl]
    simp
  obtain ⟨hmargin, hchecked, hid⟩ := StopMutation.intent_ok hintent (hnames now m hmem)
  rw [Db.claimsNormally_iff now hmargin hchecked]
  refine or_congr_right ⟨fun hfree => ?_, fun hnone id hid' => ?_⟩
  · -- the ids of both legs are recorded, so a free one is none at all
    rcases hid with hid | hid | hid
    · exact hid
    · exact absurd (Db.recorded_of_get hack'.stopLoss) (hfree stopLossId hid)
    · exact absurd (Db.recorded_of_get hack'.takeProfit) (hfree takeProfitId hid)
  · rw [hnone] at hid'
    cases hid'

/-! ### Moving an acknowledged stop, and repairing a missing one -/

/-- A leg of the protection of the sample position, acknowledged by the venue. -/
def acknowledgedLeg (clientOid providerOrderId : String) (role : Role) : LiveIntentRecord where
  clientOid := clientOid
  symbol := "BTCUSDT"
  side := .sell
  role := role
  state := .acknowledged
  requestedQty := 3
  providerOrderId := some providerOrderId
  plannedStopLoss := some 95
  plannedTakeProfits := some [110]
  protectionRootOid := some "entry"

theorem threeContracts_pos : (0 : ℚ) < 3 := by decide

/-- A filled entry of 3 whose legs are placed as `plan-sl` and `plan-tp`. -/
def protectedEntry : Db where
  intents :=
    ⟨[⟨{ clientOid := "entry"
         symbol := "BTCUSDT"
         side := .buy
         state := .filled
         requestedQty := 3
         filledQty := 3
         plannedStopLoss := some 95
         plannedTakeProfits := some [110] }, 0, by decide⟩,
      ⟨acknowledgedLeg "entry-sl" "plan-sl" .stopLoss, 1, by decide⟩,
      ⟨acknowledgedLeg "entry-tp" "plan-tp" .takeProfit, 1, by decide⟩], by decide⟩

theorem protectedEntry_acknowledged :
    protectedEntry.PlansAcknowledged "entry" "plan-sl" "plan-tp" :=
  ⟨by decide, by decide⟩

def protectedPosition : HeldPosition := ⟨.long, 3, some "plan-sl", some "plan-tp", threeContracts_pos⟩

def stopPlan : NativePlan := ⟨"BTCUSDT", "pos_loss", some "entry-sl", some "plan-sl", some .long⟩

def targetPlan : NativePlan :=
  ⟨"BTCUSDT", "pos_profit", some "entry-tp", some "plan-tp", some .long⟩

/-- The stop is moved to the entry price. -/
def stopToEntry : StopReplacement where
  symbol := "BTCUSDT"
  side := .long
  quantity := 3
  stopLoss := 100
  clientOid := "source-sl"
  tick := 1 / 10
  positions := [protectedPosition]
  plans := [stopPlan, targetPlan]
  confirmed := true

/-- The intent of the move. -/
def stopToEntryIntent : LiveIntentRecord where
  clientOid := "source-sl"
  symbol := "BTCUSDT"
  side := .sell
  role := .stopLoss
  requestedQty := 3
  providerOrderId := some "plan-sl"
  plannedStopLoss := some 100
  plannedTakeProfits := some [110]

/-- The claim of the move is new and fails, as the id of the stop is in the row of the leg. -/
theorem stopToEntry_refused :
    protectedEntry.PlansAcknowledged "entry" "plan-sl" "plan-tp" ∧
      (StopMutation.replaceStopLoss stopToEntry).Names "entry" "plan-sl" "plan-tp" ∧
      (StopMutation.replaceStopLoss stopToEntry).intent protectedEntry = .ok stopToEntryIntent ∧
      protectedEntry.get "source-sl" = none ∧
      (protectedEntry.claim 20 stopToEntryIntent).map (fun _ => ()) = .error .uniqueViolation ∧
      ¬ protectedEntry.ClaimsNormally 20 stopToEntryIntent := by
  have hnone : protectedEntry.get "source-sl" = none := by decide +kernel
  have hfails : (protectedEntry.claim 20 stopToEntryIntent).map (fun _ => ()) =
      .error .uniqueViolation := by rfl
  refine ⟨protectedEntry_acknowledged, ?_, by decide +kernel, hnone, hfails, ?_⟩
  · rintro p hp
    obtain rfl := List.mem_singleton.mp hp
    rfl
  · rintro ⟨db', won, hclaim, -⟩
    rw [hclaim] at hfails
    cases hfails

/-- The repair of a stop the venue has lost. -/
def stopRepair : ConsoleProtection where
  rootOid := "entry"
  clientOid := "console-1"
  action := .repair
  position := ⟨.long, 3, none, some "plan-tp", threeContracts_pos⟩
  tick := 1 / 10
  mark := 100
  plans := [targetPlan]

/-- Its intent, which has no plan to name. -/
def stopRepairIntent : LiveIntentRecord where
  clientOid := "console-1"
  symbol := "BTCUSDT"
  side := .sell
  role := .stopLoss
  requestedQty := 3
  plannedStopLoss := some 95
  plannedTakeProfits := some [110]

/-- It is claimed, and so is its retry. -/
theorem stopRepair_claims :
    stopRepair.intent protectedEntry = .ok stopRepairIntent ∧
    ∀ p ∈ visits mutationStep protectedEntry
      [.mutate 20 (.protect stopRepair), .mutate 30 (.protect stopRepair)],
    ∀ now m record, p.2 = .mutate now m → m.intent p.1 = .ok record →
      p.1.ClaimsNormally now record := by
  refine ⟨by decide +kernel, (mutations_claim_iff protectedEntry_acknowledged fun now m hmem =>
    ?_).mpr fun p hp now m record hl hintent => Or.inr ?_⟩
  · have hm : m = .protect stopRepair := by
      rcases List.mem_pair.mp hmem with h | h <;> exact (MutationLabel.mutate.inj h).2
    subst hm
    refine ⟨rfl, fun p hp => ?_⟩
    obtain rfl := List.mem_singleton.mp hp
    decide
  · have hrecord : m.intent p.1 = .ok stopRepairIntent := by
      rcases List.mem_pair.mp hp with rfl | rfl <;>
        obtain ⟨-, rfl⟩ := MutationLabel.mutate.inj hl <;> decide +kernel
    rw [hrecord] at hintent
    obtain rfl := Except.ok.inj hintent
    rfl

end FattyTrader
