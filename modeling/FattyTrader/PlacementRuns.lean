import FattyTrader.PlacementLaws
import FattyTrader.WonKeys

/-!
# Placements in every run

`placementSystem` runs any number of calls of `protectCall` at once over one store of intents. A
claim may be lost after its commit or fail before it, a call may die between any two operations, and
the venue may answer anything.

In every run a verdict is delivered with what it says (`verdict_delivered`). As the claims are
durable, the placements of an entry are those of one call, and at most three (`placement_once`), and
an entry has at most one emergency close, of what was read as open (`emergency_close_once`).
-/

set_option linter.unusedSectionVars false

open Programs Prog Runs
open FattyTrader.JsonValues FattyTrader.NativeProtection FattyTrader.PositionReaders

namespace FattyTrader.Placement

variable {P : Texts}

/-! ## The system

The world is the client order ids of the store, which never loses one. -/

structure PlacementChoice where
  delivery : Delivery
  /-- The exception of a claim that is not answered. -/
  fault : PlacementError
  /-- The answer to an operation that claims nothing. -/
  answer : (o : PlacementOp) → Except PlacementError (PlacementAns o)

/-- Insert the ids in order, `none` where one is there already and the claim is rolled back. -/
def insertAll (oids : List String) : List String → Option (List String)
  | [] => some oids
  | oid :: rest => if oid ∈ oids then none else insertAll (oids ++ [oid]) rest

/-- A claim of all the ids, which may be lost after its commit or fail before it. -/
def claimIntents (oids keys : List String) (c : PlacementChoice) :
    Except PlacementError Bool × List String :=
  match c.delivery with
  | .answered => (.ok (insertAll oids keys).isSome, (insertAll oids keys).getD oids)
  | .lost => (.error c.fault, (insertAll oids keys).getD oids)
  | .failed => (.error c.fault, oids)

def placementExec : (o : PlacementOp) → List String → PlacementChoice →
    Option (Except PlacementError (PlacementAns o) × List String)
  | .claimProtection legs, oids, c => some (claimIntents oids (legs.map (·.clientOid)) c)
  | .claimClose order, oids, c => some (claimIntents oids [order.clientOid] c)
  | .degrade, oids, _ => some (.ok (), oids)
  | o, oids, c => some (c.answer o, oids)

/-- Any number of calls, for any entries and plans. The environment inserts other intents. -/
def placementSystem (P : Texts) (x : AsyncBitgetExecution) : System PlacementOp PlacementAns
    PlacementError (LiveIntentRecord × ProtectionPlan) (List String) PlacementChoice
    (List String) where
  body call := protectCall P x call.1 call.2
  exec := placementExec
  env oids more := some (oids ++ more)

abbrev PlacementState := State PlacementOp PlacementAns PlacementError
  (LiveIntentRecord × ProtectionPlan) (List String)

abbrev PlacementLabel := Label (LiveIntentRecord × ProtectionPlan) PlacementChoice (List String)

theorem placement_answers (P : Texts) (x : AsyncBitgetExecution) :
    (placementSystem P x).Answers PlacementAnswer := by
  intro o oids c r oids' h
  cases o with
  | degrade =>
    obtain ⟨rfl, -⟩ := Prod.mk.inj (Option.some.inj h)
    rfl
  | _ => trivial

theorem placement_follows (P : Texts) (x : AsyncBitgetExecution) :
    (placementSystem P x).Follows PlacementAnswer (PlacementProtocol P x) :=
  fun call => keeps_protectCall x call.1 call.2

/-! ## Claims are won once -/

/-- The ids of a claim that was won. -/
def wonOids : PlacementEvent → List String
  | ⟨.claimProtection legs, .ok true⟩ => legs.map (·.clientOid)
  | ⟨.claimClose order, .ok true⟩ => [order.clientOid]
  | _ => []

theorem insertAll_some {oids oids' keys : List String} (h : insertAll oids keys = some oids') :
    oids ⊆ oids' ∧ keys ⊆ oids' ∧ ∀ k ∈ keys, k ∉ oids := by
  induction keys generalizing oids with
  | nil =>
    obtain rfl := Option.some.inj h
    exact ⟨List.Subset.refl _, List.nil_subset _, by simp⟩
  | cons key keys ih =>
    rw [insertAll] at h
    split at h
    · cases h
    next hnew =>
      obtain ⟨hgrow, hin, hkeys⟩ := ih h
      refine ⟨fun k hk => hgrow (by simp [hk]), List.cons_subset.mpr ⟨hgrow (by simp), hin⟩, ?_⟩
      intro k hk hold
      rcases List.mem_cons.mp hk with rfl | hk
      · exact hnew hold
      · exact hkeys k hk (by simp [hold])

theorem subset_insertAll (oids keys : List String) : oids ⊆ (insertAll oids keys).getD oids := by
  cases h : insertAll oids keys with
  | none => exact List.Subset.refl _
  | some oids' => exact (insertAll_some h).1

/-- A claim that is answered with `true` has inserted its ids, which were new. -/
theorem claimIntents_spec {oids oids' keys : List String} {c : PlacementChoice}
    {r : Except PlacementError Bool} (h : claimIntents oids keys c = (r, oids')) :
    oids ⊆ oids' ∧ (r = .ok true → keys ⊆ oids' ∧ ∀ k ∈ keys, k ∉ oids) := by
  unfold claimIntents at h
  split at h <;> obtain ⟨rfl, rfl⟩ := Prod.mk.inj h
  · refine ⟨subset_insertAll oids keys, fun hwon => ?_⟩
    obtain ⟨oids', hinsert⟩ := Option.isSome_iff_exists.mp (Except.ok.inj hwon)
    rw [hinsert]
    exact (insertAll_some hinsert).2
  · exact ⟨subset_insertAll oids keys, fun hwon => by cases hwon⟩
  · exact ⟨List.Subset.refl _, fun hwon => by cases hwon⟩

theorem wonOids_exec (o : PlacementOp) (oids : List String) (c : PlacementChoice)
    (r : Except PlacementError (PlacementAns o)) (oids' : List String)
    (h : placementExec o oids c = some (r, oids')) :
    oids ⊆ oids' ∧ wonOids ⟨o, r⟩ ⊆ oids' ∧ ∀ k ∈ wonOids ⟨o, r⟩, k ∉ oids := by
  have hclaim : ∀ {keys : List String} {r : Except PlacementError Bool} {won : List String},
      claimIntents oids keys c = (r, oids') → (won = [] ∨ r = .ok true ∧ won = keys) →
      oids ⊆ oids' ∧ won ⊆ oids' ∧ ∀ k ∈ won, k ∉ oids := by
    intro keys r won hclaim hwon
    obtain ⟨hgrow, hnew⟩ := claimIntents_spec hclaim
    rcases hwon with rfl | ⟨hr, rfl⟩
    · exact ⟨hgrow, List.nil_subset _, by simp⟩
    · exact ⟨hgrow, hnew hr⟩
  cases o with
  | claimProtection legs =>
    refine hclaim (Option.some.inj h) ?_
    rcases r with e | _ | _
    · exact Or.inl rfl
    · exact Or.inl rfl
    · exact Or.inr ⟨rfl, rfl⟩
  | claimClose order =>
    refine hclaim (Option.some.inj h) ?_
    rcases r with e | _ | _
    · exact Or.inl rfl
    · exact Or.inl rfl
    · exact Or.inr ⟨rfl, rfl⟩
  | _ =>
    obtain ⟨-, rfl⟩ := Prod.mk.inj (Option.some.inj h)
    exact ⟨List.Subset.refl _, List.nil_subset _, fun k hk => by cases hk⟩

/-- Every claim of a run is won by one call. -/
theorem placement_wonOnce {x : AsyncBitgetExecution} {oids : List String} {t : PlacementState}
    {ls : List PlacementLabel} (h : Run (placementSystem P x).Step (State.init oids) ls t) :
    WonOnce wonOids t.world t.trace :=
  wonOnce_of_run id wonOids_exec
    (fun oids more oids' hw => by
      obtain rfl := Option.some.inj hw
      exact List.subset_append_left oids more) h


/-! ## Verdicts -/

variable {x : AsyncBitgetExecution} {oids : List String} {t : PlacementState}
  {ls : List PlacementLabel}

theorem protocol_of_placement (h : Run (placementSystem P x).Step (State.init oids) ls t)
    {tr tr' : List (ℕ × PlacementEvent)} {q : ℕ × PlacementEvent} (ht : t.trace = tr ++ q :: tr') :
    ∃ call, t.kind q.1 = some call ∧ PlacementProtocol P x call (own q.1 tr) q.2.op :=
  System.protocol_of_event (placement_answers P x) (placement_follows P x) h ht

theorem IdentityProven.mono {intent : LiveIntentRecord} {plan : ProtectionPlan}
    {es es' : List PlacementEvent} {epoch : ℕ} (h : IdentityProven P x intent plan es epoch)
    (hs : es ⊆ es') : IdentityProven P x intent plan es' epoch := by
  obtain ⟨known, position, rows, fills, fillList, hget, hknown, hread, hrows, hopen, hfills,
    hlist, hproven⟩ := h
  exact ⟨known, position, rows, fills, fillList, hs hget, hknown, hs hread, hrows, hopen,
    hs hfills, hlist, hproven⟩

theorem own_subset {n : ℕ} {tr tr' : List (ℕ × PlacementEvent)} (h : tr ⊆ tr') :
    own n tr ⊆ own n tr' := fun _ he => mem_own.mpr (h (mem_own.mp he))

/-- A registration of a run is of an entry that is proven to own the position. -/
theorem registration_of_run (h : Run (placementSystem P x).Step (State.init oids) ls t) {n : ℕ}
    {call : LiveIntentRecord × ProtectionPlan} (hkind : t.kind n = some call)
    {tr tr' : List (ℕ × PlacementEvent)} (ht : t.trace = tr ++ tr')
    (hregistered : Registered (own n tr)) :
    x.fallbackProtectionEnabled = true ∧ ∃ epoch entryPrice,
      call.1.avgPrice = some entryPrice ∧ 0 < entryPrice ∧
      IdentityProven P x call.1 call.2 (own n tr) epoch ∧
      (⟨.registerFallback (registration x call.1 call.2 epoch entryPrice), .ok ()⟩ :
        PlacementEvent) ∈ own n tr := by
  obtain ⟨row, hrow⟩ := hregistered
  obtain ⟨tr₁, tr₂, rfl⟩ := List.append_of_mem (mem_own.mp hrow)
  have hsplit : t.trace =
      tr₁ ++ (n, ⟨.registerFallback row, .ok ()⟩) :: (tr₂ ++ tr') := by simp [ht]
  obtain ⟨call', hkind', henabled, epoch, entryPrice, hprice, hpos, rfl, hproven⟩ :=
    protocol_of_placement h hsplit
  obtain rfl := Option.some.inj (hkind.symm.trans hkind')
  exact ⟨henabled, epoch, entryPrice, hprice, hpos,
    hproven.mono (own_subset (List.subset_append_left _ _)), hrow⟩

/-- A verdict is delivered with what it says : a protection that was read back as it was ordered, a
registration of an entry that owns the position, or an adapter that takes no further entry, unless
another call has claimed the placement. -/
theorem verdict_delivered (h : Run (placementSystem P x).Step (State.init oids) ls t)
    {tr tr' : List (ℕ × PlacementEvent)} {n : ℕ} {verdict : Verdict}
    {r : Except PlacementError Unit}
    (ht : t.trace = tr ++ (n, ⟨.deliver verdict, r⟩) :: tr') :
    ∃ intent plan, t.kind n = some (intent, plan) ∧
      (verdict.state = .venueProtected →
        Confirmed P intent plan (own n tr) verdict.observedQuantity) ∧
      (verdict.reason.registers = true → x.fallbackProtectionEnabled = true ∧
        ∃ epoch entryPrice, intent.avgPrice = some entryPrice ∧ 0 < entryPrice ∧
          IdentityProven P x intent plan (own n tr) epoch ∧
          (⟨.registerFallback (registration x intent plan epoch entryPrice), .ok ()⟩ :
            PlacementEvent) ∈ own n tr) ∧
      (verdict.state ≠ .venueProtected →
        Degraded (own n tr) ∨ Replayed intent plan (own n tr)) := by
  obtain ⟨⟨intent, plan⟩, hkind, hdeliverable⟩ := protocol_of_placement h ht
  exact ⟨intent, plan, hkind, hdeliverable.confirmed,
    fun hreason => registration_of_run h hkind ht (hdeliverable.registered hreason),
    hdeliverable.degraded⟩

/-! ## Placements -/

/-- A placement whose stop has the id. -/
def PlacementOp.placesAs (oid : String) : PlacementOp → Bool
  | .placePositionTpsl order => order.stopLossClientOid = oid
  | _ => false

/-- A market close with the id. -/
def PlacementOp.closesAs (oid : String) : PlacementOp → Bool
  | .placeMarketClose order => order.clientOid = oid
  | _ => false

/-- A verdict of a kind. -/
def PlacementOp.delivers (p : Verdict → Bool) : PlacementOp → Bool
  | .deliver verdict => p verdict
  | _ => false

theorem delivers_iff {p : Verdict → Bool} {o : PlacementOp} :
    o.delivers p = true ↔ ∃ verdict, o = .deliver verdict ∧ p verdict = true := by
  cases o <;> simp [PlacementOp.delivers]

theorem placesAs_iff {oid : String} {o : PlacementOp} :
    o.placesAs oid = true ↔
      ∃ order, o = .placePositionTpsl order ∧ order.stopLossClientOid = oid := by
  cases o <;> simp [PlacementOp.placesAs]

theorem closesAs_iff {oid : String} {o : PlacementOp} :
    o.closesAs oid = true ↔ ∃ order, o = .placeMarketClose order ∧ order.clientOid = oid := by
  cases o <;> simp [PlacementOp.closesAs]

/-- The call of a placement has claimed the legs before it, and with them the id of its stop. -/
theorem won_of_places (h : Run (placementSystem P x).Step (State.init oids) ls t) {oid : String}
    {tr tr' : List (ℕ × PlacementEvent)} {q : ℕ × PlacementEvent} (ht : t.trace = tr ++ q :: tr')
    (hplaces : q.2.op.placesAs oid = true) :
    (∃ intent plan, t.kind q.1 = some (intent, plan) ∧
        q.2.op = .placePositionTpsl (tpslOrder intent plan) ∧ Claimed intent plan (own q.1 tr)) ∧
      ∃ e, (q.1, e) ∈ t.trace ∧ oid ∈ wonOids e := by
  obtain ⟨order, hop, rfl⟩ := placesAs_iff.mp hplaces
  obtain ⟨⟨intent, plan⟩, hkind, hprotocol⟩ := protocol_of_placement h ht
  rw [hop] at hprotocol
  obtain ⟨rfl, hclaimed, -⟩ := hprotocol
  refine ⟨⟨intent, plan, hkind, hop, hclaimed⟩,
    ⟨.claimProtection (protectionLegs intent plan), .ok true⟩, ?_, ?_⟩
  · rw [ht]
    exact List.mem_append_left _ (mem_own.mp hclaimed)
  · exact List.mem_map.mpr ⟨_, List.mem_cons_self, rfl⟩

/-- The placements of an entry are at most three, and of one order. Each is sent by a call that
was answered before that it has claimed the legs, and no other call has won that claim. -/
theorem placement_once (h : Run (placementSystem P x).Step (State.init oids) ls t)
    (oid : String) :
    t.trace.countP (fun q => q.2.op.placesAs oid) ≤ 3 ∧
      (∀ q ∈ t.trace, ∀ q' ∈ t.trace, q.2.op.placesAs oid = true → q'.2.op.placesAs oid = true →
        q.1 = q'.1 ∧ q.2.op = q'.2.op) ∧
      ∀ tr q tr', t.trace = tr ++ q :: tr' → q.2.op.placesAs oid = true →
        (∃ intent plan, t.kind q.1 = some (intent, plan) ∧
          q.2.op = .placePositionTpsl (tpslOrder intent plan) ∧
          Claimed intent plan (own q.1 tr)) ∧
        ∀ q' ∈ t.trace, oid ∈ wonOids q'.2 → q'.1 = q.1 := by
  have hwinner : ∀ tr q tr', t.trace = tr ++ q :: tr' → q.2.op.placesAs oid = true →
      ∀ q' ∈ t.trace, oid ∈ wonOids q'.2 → q'.1 = q.1 := by
    intro tr q tr' ht hplaces q' hq' hwon'
    obtain ⟨-, e, he, hwon⟩ := won_of_places h ht hplaces
    exact (placement_wonOnce h).apart q' hq' (q.1, e) he oid hwon' hwon
  have hone : ∀ q ∈ t.trace, ∀ q' ∈ t.trace, q.2.op.placesAs oid = true →
      q'.2.op.placesAs oid = true → q.1 = q'.1 ∧ q.2.op = q'.2.op := by
    intro q hq q' hq' hplaces hplaces'
    obtain ⟨tr, tr', ht⟩ := List.append_of_mem hq
    obtain ⟨tr₁, tr₁', ht₁⟩ := List.append_of_mem hq'
    obtain ⟨⟨intent, plan, hkind, hop, -⟩, e, he, hwon⟩ := won_of_places h ht hplaces
    obtain ⟨⟨intent', plan', hkind', hop', -⟩, -⟩ := won_of_places h ht₁ hplaces'
    have hcall : q.1 = q'.1 := hwinner tr₁ q' tr₁' ht₁ hplaces' (q.1, e) he hwon
    rw [hcall, hkind'] at hkind
    obtain ⟨rfl, rfl⟩ := Prod.mk.inj (Option.some.inj hkind)
    exact ⟨hcall, hop.trans hop'.symm⟩
  refine ⟨countP_le_of_one_call (p := fun e : PlacementEvent => e.op.placesAs oid)
    (fun q hq q' hq' hp hp' => (hone q hq q' hq' hp hp').1) ?_, hone, fun tr q tr' ht hplaces =>
      ⟨(won_of_places h ht hplaces).1, hwinner tr q tr' ht hplaces⟩⟩
  intro tr q tr' ht hplaces
  obtain ⟨order, hop, -⟩ := placesAs_iff.mp hplaces
  obtain ⟨call, -, hprotocol⟩ := protocol_of_placement h ht
  rw [hop] at hprotocol
  obtain ⟨-, -, hcount⟩ := hprotocol
  refine Nat.lt_of_le_of_lt (List.countP_mono_left fun e _ he => ?_) hcount
  obtain ⟨order, hop, -⟩ := placesAs_iff.mp he
  rw [hop]
  rfl

/-! ## Emergency closes -/

/-- The call of a close has claimed it, and read what is open. -/
theorem won_of_closes (h : Run (placementSystem P x).Step (State.init oids) ls t)
    {tr tr' : List (ℕ × PlacementEvent)} {q : ℕ × PlacementEvent}
    (ht : t.trace = tr ++ q :: tr') {order : CloseOrder} (hop : q.2.op = .placeMarketClose order) :
    x.emergencyContainmentEnabled = true ∧
      (∃ intent plan, t.kind q.1 = some (intent, plan) ∧ OpenRead P intent (own q.1 tr) order) ∧
      Never PlacementOp.closes (own q.1 tr) ∧
      (⟨.claimClose order, .ok true⟩ : PlacementEvent) ∈ own q.1 tr := by
  obtain ⟨⟨intent, plan⟩, hkind, hprotocol⟩ := protocol_of_placement h ht
  rw [hop] at hprotocol
  obtain ⟨henabled, hnever, hread, hclaimed⟩ := hprotocol
  exact ⟨henabled, ⟨intent, plan, hkind, hread⟩, hnever, hclaimed⟩

/-- An entry is closed at most once, where the operator has opted in, and for what was read as
open, up to what was filled. -/
theorem emergency_close_once (h : Run (placementSystem P x).Step (State.init oids) ls t) :
    (∀ oid, t.trace.countP (fun q => q.2.op.closesAs oid) ≤ 1) ∧
      ∀ tr q tr', t.trace = tr ++ q :: tr' → ∀ order, q.2.op = .placeMarketClose order →
        x.emergencyContainmentEnabled = true ∧
          ∃ intent plan, t.kind q.1 = some (intent, plan) ∧
            OpenRead P intent (own q.1 tr) order := by
  constructor
  · intro oid
    -- the close of an id is sent by the call that has claimed the id
    have hwon : ∀ q ∈ t.trace, q.2.op.closesAs oid = true →
        ∃ e, (q.1, e) ∈ t.trace ∧ oid ∈ wonOids e := by
      intro q hq hcloses
      obtain ⟨order, hop, rfl⟩ := closesAs_iff.mp hcloses
      obtain ⟨tr, tr', ht⟩ := List.append_of_mem hq
      obtain ⟨-, -, -, hclaimed⟩ := won_of_closes h ht hop
      refine ⟨⟨.claimClose order, .ok true⟩, ?_, List.mem_singleton_self _⟩
      rw [ht]
      exact List.mem_append_left _ (mem_own.mp hclaimed)
    refine countP_le_of_one_call (p := fun e : PlacementEvent => e.op.closesAs oid)
      (fun q hq q' hq' hp hp' => ?_) fun tr q tr' ht hcloses => ?_
    · obtain ⟨e, he, hwins⟩ := hwon q hq hp
      obtain ⟨e', he', hwins'⟩ := hwon q' hq' hp'
      exact (placement_wonOnce h).apart (q.1, e) he (q'.1, e') he' oid hwins hwins'
    · obtain ⟨order, hop, -⟩ := closesAs_iff.mp hcloses
      obtain ⟨-, -, hnever, -⟩ := won_of_closes h ht hop
      refine Nat.lt_one_iff.mpr (List.countP_eq_zero.mpr fun e he hcloses' => ?_)
      obtain ⟨order', hop', -⟩ := closesAs_iff.mp hcloses'
      have := hnever e he
      rw [hop'] at this
      cases this
  · intro tr q tr' ht order hop
    obtain ⟨henabled, hread, -, -⟩ := won_of_closes h ht hop
    exact ⟨henabled, hread⟩

/-! ## A run -/

def containedEntry : LiveIntentRecord where
  clientOid := "root"
  symbol := "BTCUSDT"
  side := .buy
  state := .filled
  requestedQty := 1
  filledQty := 1

theorem containedPrice_pos : (0 : ℚ) < 90 := by decide +kernel

theorem containedSymbol_ne : "BTCUSDT" ≠ "" := by decide +kernel

def containedPlan : ProtectionPlan where
  symbol := "BTCUSDT"
  direction := .long
  quantity := 1
  stopLoss := 90
  takeProfits := []
  quantity_pos := Db.oneContract_pos
  stopLoss_pos := containedPrice_pos
  symbol_ne := containedSymbol_ne

/-- Containment is opted in, and there is no grace. -/
def containing : AsyncBitgetExecution := ⟨.live, some .live, true, true, 0⟩

/-- Every placement times out, and a position of two is open. -/
def PlacementChoice.timedOut : PlacementChoice where
  delivery := .answered
  fault := .named "OperationalError" "connection lost"
  answer
    | .placePositionTpsl _ => .error ⟨false, true, none, "timed out", "TimeoutError"⟩
    | .readPosition _ => .ok (.arr [.obj [("total", .str "2")]])
    | .placeMarketClose _ => .ok (some "1")
    | .persistCapability _ _ _ _ => .ok ()
    | .updateClose _ _ _ => .ok ()
    | .reconcileClose _ => .ok ()
    | .deliver _ => .ok ()
    | _ => .error (.valueError "not asked")

/-- The entry of another root, with what the venue reported of it. -/
def ownedEntry (clientOid : String) : LiveIntentRecord :=
  { containedEntry with
    clientOid := clientOid
    avgPrice := some 100
    providerOrderId := some "77" }

/-- The position of an owned entry. -/
def ownedPosition : Json :=
  .arr [.obj [("symbol", .str "BTCUSDT"), ("total", .str "1"), ("marginMode", .str "isolated"),
    ("holdSide", .str "long"), ("posMode", .str "one_way_mode"), ("cTime", .str "5")]]

/-- The placement of `kept` is taken, and read back. -/
def PlacementChoice.kept : PlacementChoice where
  delivery := .answered
  fault := .named "OperationalError" "connection lost"
  answer
    | .placePositionTpsl _ =>
      .ok (.arr [.obj [("clientOid", .str "kept-sl"), ("orderId", .str "1")]])
    | .acknowledgeLeg _ _ => .ok ()
    | .readProtection _ => .ok (.ok ownedPosition, .ok (.arr [.obj [("planType", .str "pos_loss"),
        ("symbol", .str "BTCUSDT"), ("holdSide", .str "long"), ("planStatus", .str "live"),
        ("orderId", .str "1"), ("clientOid", .str "kept-sl"), ("triggerPrice", .str "90"),
        ("triggerType", .str "mark_price"), ("size", .str "")]]))
    | .persistCapability _ _ _ _ => .ok ()
    | .deliver _ => .ok ()
    | _ => .error (.valueError "not asked")

/-- The symbol of `moved` is not supported, and its fills prove the position. -/
def PlacementChoice.moved : PlacementChoice where
  delivery := .answered
  fault := .named "OperationalError" "connection lost"
  answer
    | .placePositionTpsl _ =>
      .error ⟨true, false, some "43011", "43011 symbol does not support", "BitgetApiError"⟩
    | .persistCapability _ _ _ _ => .ok ()
    | .getIntent _ => .ok (some (ownedEntry "moved"))
    | .readPosition _ => .ok ownedPosition
    | .readFills _ => .ok (.arr [.obj [("symbol", .str "BTCUSDT"), ("orderId", .str "77"),
        ("clientOid", .str "moved"), ("side", .str "buy"), ("tradeSide", .str "open"),
        ("tradeId", .str "t1"), ("cTime", .str "5"), ("baseVolume", .str "1")]])
    | .registerFallback _ => .ok ()
    | .deliver _ => .ok ()
    | _ => .error (.valueError "not asked")

/-- Three placements, and the close of the entry. -/
def placedThenClosed : List PlacementLabel :=
  .start (containedEntry, containedPlan) ::
    (List.replicate 12 (.act 0 .timedOut) : List PlacementLabel)

/-- A placement that is read back. -/
def keptPlacement : List PlacementLabel :=
  .start (ownedEntry "kept", containedPlan) :: List.replicate 6 (.act 0 .kept)

/-- An entry that is registered with the fallback monitor. -/
def movedPlacement : List PlacementLabel :=
  .start (ownedEntry "moved", containedPlan) :: List.replicate 9 (.act 0 .moved)

theorem placedThenClosed_replays :
    (replay (placementSystem ascii containing).step (State.init []) placedThenClosed).any
      (fun t => t.trace.countP (fun q => q.2.op.placesAs "root-sl") = 3 ∧
        t.trace.countP (fun q => q.2.op.closesAs "root-emergency") = 1 ∧
        t.trace.any fun q => q.2.op.delivers fun v => v.state ≠ .venueProtected) = true := by
  decide +kernel

theorem keptPlacement_replays :
    (replay (placementSystem ascii containing).step (State.init []) keptPlacement).any
      (fun t => t.trace.any fun q => q.2.op.delivers fun v => v.state = .venueProtected) = true := by
  decide +kernel

theorem movedPlacement_replays :
    (replay (placementSystem ascii containing).step (State.init []) movedPlacement).any
      (fun t => t.trace.any fun q => q.2.op.delivers fun v => v.reason.registers) = true := by
  decide +kernel

theorem placedThenClosed_run : ∃ t, Run (placementSystem ascii containing).Step (State.init [])
    placedThenClosed t ∧ t.trace.countP (fun q => q.2.op.placesAs "root-sl") = 3 ∧
      t.trace.countP (fun q => q.2.op.closesAs "root-emergency") = 1 ∧
      t.trace.any (fun q => q.2.op.delivers fun v => v.state ≠ .venueProtected) = true := by
  obtain ⟨t, ht, hp⟩ := (Option.any_eq_true _ _).mp placedThenClosed_replays
  exact ⟨t, run_of_replay (fun _ _ _ h => h) ht, of_decide_eq_true hp⟩

theorem delivered_of_any {p : Verdict → Bool} {trace : List (ℕ × PlacementEvent)}
    (h : trace.any (fun q => q.2.op.delivers p) = true) : ∃ n verdict r tr tr',
      trace = tr ++ (n, (⟨.deliver verdict, r⟩ : PlacementEvent)) :: tr' ∧ p verdict = true := by
  obtain ⟨⟨n, o, r⟩, hq, hdelivers⟩ := List.any_eq_true.mp h
  obtain ⟨verdict, rfl, hverdict⟩ := delivers_iff.mp hdelivers
  obtain ⟨tr, tr', htrace⟩ := List.append_of_mem hq
  exact ⟨n, verdict, r, tr, tr', htrace, hverdict⟩

/-- A confirmed verdict, a registered one, and one that is not confirmed. -/
theorem verdicts_delivered :
    (∃ (t : PlacementState) (n : ℕ) (tr : List (ℕ × PlacementEvent)), tr <+: t.trace ∧
      ∃ intent plan quantity, Confirmed ascii intent plan (own n tr) quantity) ∧
    (∃ (t : PlacementState) (n : ℕ) (tr : List (ℕ × PlacementEvent)), tr <+: t.trace ∧
      ∃ intent plan epoch, IdentityProven ascii containing intent plan (own n tr) epoch) ∧
    ∃ (t : PlacementState) (n : ℕ) (tr : List (ℕ × PlacementEvent)), tr <+: t.trace ∧
      ∃ intent plan, Degraded (own n tr) ∨ Replayed intent plan (own n tr) := by
  refine ⟨?_, ?_, ?_⟩
  · obtain ⟨t, ht, hany⟩ := (Option.any_eq_true _ _).mp keptPlacement_replays
    obtain ⟨n, verdict, r, tr, tr', htrace, hstate⟩ := delivered_of_any hany
    obtain ⟨intent, plan, -, hconfirmed, -⟩ :=
      verdict_delivered (run_of_replay (fun _ _ _ h => h) ht) htrace
    exact ⟨t, n, tr, ⟨_, htrace.symm⟩, intent, plan, _, hconfirmed (of_decide_eq_true hstate)⟩
  · obtain ⟨t, ht, hany⟩ := (Option.any_eq_true _ _).mp movedPlacement_replays
    obtain ⟨n, verdict, r, tr, tr', htrace, hreason⟩ := delivered_of_any hany
    obtain ⟨intent, plan, -, -, hregistered, -⟩ :=
      verdict_delivered (run_of_replay (fun _ _ _ h => h) ht) htrace
    obtain ⟨-, epoch, -, -, -, hproven, -⟩ := hregistered hreason
    exact ⟨t, n, tr, ⟨_, htrace.symm⟩, intent, plan, epoch, hproven⟩
  · obtain ⟨t, hrun, -, -, hany⟩ := placedThenClosed_run
    obtain ⟨n, verdict, r, tr, tr', htrace, hstate⟩ := delivered_of_any hany
    obtain ⟨intent, plan, -, -, -, hdegraded⟩ := verdict_delivered hrun htrace
    exact ⟨t, n, tr, ⟨_, htrace.symm⟩, intent, plan, hdegraded (of_decide_eq_true hstate)⟩

theorem timed_out_placement_once : ∃ (t : PlacementState) (q : ℕ × PlacementEvent)
    (tr tr' : List (ℕ × PlacementEvent)), t.trace = tr ++ q :: tr' ∧
      t.trace.countP (fun q => q.2.op.placesAs "root-sl") = 3 ∧
      t.trace.countP (fun q => q.2.op.placesAs "root-sl") ≤ 3 ∧
      ∃ intent plan, t.kind q.1 = some (intent, plan) ∧
        q.2.op = .placePositionTpsl (tpslOrder intent plan) ∧
        Claimed intent plan (own q.1 tr) := by
  obtain ⟨t, hrun, hplaced, -⟩ := placedThenClosed_run
  obtain ⟨hcount, -, hclaimed⟩ := placement_once hrun "root-sl"
  have hpos : 0 < t.trace.countP (fun q => q.2.op.placesAs "root-sl") := by rw [hplaced]; decide
  obtain ⟨q, hq, hplaces⟩ := List.countP_pos_iff.mp hpos
  obtain ⟨tr, tr', ht⟩ := List.append_of_mem hq
  exact ⟨t, q, tr, tr', ht, hplaced, hcount, (hclaimed tr q tr' ht hplaces).1⟩

theorem timed_out_close_once : ∃ t : PlacementState,
    t.trace.countP (fun q => q.2.op.closesAs "root-emergency") = 1 ∧
      t.trace.countP (fun q => q.2.op.closesAs "root-emergency") ≤ 1 := by
  obtain ⟨t, hrun, -, hclosed, -⟩ := placedThenClosed_run
  exact ⟨t, hclosed, (emergency_close_once hrun).1 "root-emergency"⟩

end FattyTrader.Placement
