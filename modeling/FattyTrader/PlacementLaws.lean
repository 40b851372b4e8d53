import FattyTrader.ProtectionPlacement

/-!
# What a placement does

`PlacementProtocol` says, for each operation of `protectCall`, what the events of the same call
show before it : a plan is placed only by the call that has claimed its legs, as it was ordered and
at most three times ; a fallback is registered only where it is enabled and the entry is proven to
own the position ; a close is sent only where the operator has opted in, by the call that has
claimed it, once, and for no more than is open and was filled. A verdict is delivered only with what
it says (`Deliverable`).
-/

set_option linter.unusedSectionVars false

open Programs Prog Runs
open FattyTrader.JsonValues FattyTrader.NativeProtection FattyTrader.PositionReaders

namespace FattyTrader.Placement

/-! ## Kinds of operations -/

namespace PlacementOp

def claims : PlacementOp → Bool
  | .claimProtection _ => true
  | _ => false

def places : PlacementOp → Bool
  | .placePositionTpsl _ => true
  | _ => false

def claimsClose : PlacementOp → Bool
  | .claimClose _ => true
  | _ => false

def closes : PlacementOp → Bool
  | .placeMarketClose _ => true
  | _ => false

/-- Nothing of the protocol depends on the operation. -/
def quiet : PlacementOp → Bool
  | .claimProtection _ | .placePositionTpsl _ | .registerFallback _ | .claimClose _
  | .placeMarketClose _ | .deliver _ => false
  | _ => true

/-- The operations of the part before a close. -/
def Open (o : PlacementOp) : Prop := o.claimsClose = false ∧ o.closes = false

def Quiet (o : PlacementOp) : Prop := o.quiet = true

theorem open_of_quiet (o : PlacementOp) (h : o.Quiet) : o.Open := by
  cases o <;> simp_all [Quiet, quiet, Open, claimsClose, closes]

end PlacementOp

/-! ## What the events of a call show -/

variable {P : Texts} (x : AsyncBitgetExecution) (intent : LiveIntentRecord) (plan : ProtectionPlan)

section Facts

variable (P) (es : List PlacementEvent)

/-- The call has claimed the legs. -/
def Claimed : Prop :=
  (⟨.claimProtection (protectionLegs intent plan), .ok true⟩ : PlacementEvent) ∈ es

/-- Another call has claimed them. -/
def Replayed : Prop :=
  (⟨.claimProtection (protectionLegs intent plan), .ok false⟩ : PlacementEvent) ∈ es

/-- The venue was read, and shows the protection as it was ordered, of this quantity. -/
def Confirmed (quantity : ℚ) : Prop :=
  ∃ stopLossId takeProfitId e reads, expectation P intent plan stopLossId takeProfitId = some e ∧
    (⟨.readProtection plan.symbol, .ok reads⟩ : PlacementEvent) ∈ es ∧
    (confirmExactNativeProtection e reads.1 reads.2).state = .venueProtected ∧
    (confirmExactNativeProtection e reads.1 reads.2).observedQuantity = quantity

/-- The entry is proven to own the one open position, which opened at the epoch. -/
def IdentityProven (epoch : ℕ) : Prop :=
  ∃ known position rows fills fillList,
    (⟨.getIntent intent.clientOid, .ok known⟩ : PlacementEvent) ∈ es ∧
    entryProven x intent plan known = true ∧
    (⟨.readPosition intent.symbol, .ok position⟩ : PlacementEvent) ∈ es ∧
    planRows position = some rows ∧ openPosition P intent plan rows = some epoch ∧
    (⟨.readFills intent.symbol, .ok fills⟩ : PlacementEvent) ∈ es ∧
    fillRows fills = some fillList ∧
    fillsProven P intent epoch (fillsOfOrder intent fillList) = true

/-- A fallback was registered. -/
def Registered : Prop :=
  ∃ row, (⟨.registerFallback row, .ok ()⟩ : PlacementEvent) ∈ es

/-- The adapter takes no further entry. -/
def Degraded : Prop := (⟨.degrade, .ok ()⟩ : PlacementEvent) ∈ es

/-- What is open was read, and the close is for no more of it than was filled. -/
def OpenRead (order : CloseOrder) : Prop :=
  ∃ positions quantity, (⟨.readPosition intent.symbol, .ok positions⟩ : PlacementEvent) ∈ es ∧
    openPositionQuantity P positions = some quantity ∧ 0 < min intent.filledQty quantity ∧
    order = closeOrder intent (min intent.filledQty quantity)

end Facts

variable {es es' : List PlacementEvent}

theorem Claimed.mono (h : Claimed intent plan es) (hs : es ⊆ es') : Claimed intent plan es' := hs h

theorem Confirmed.mono {quantity : ℚ} (h : Confirmed P intent plan es quantity) (hs : es ⊆ es') :
    Confirmed P intent plan es' quantity := by
  obtain ⟨stopLossId, takeProfitId, e, reads, he, hmem, hstate⟩ := h
  exact ⟨stopLossId, takeProfitId, e, reads, he, hs hmem, hstate⟩

theorem Registered.mono (h : Registered es) (hs : es ⊆ es') : Registered es' := by
  obtain ⟨row, hrow⟩ := h
  exact ⟨row, hs hrow⟩

theorem OpenRead.mono {order : CloseOrder} (h : OpenRead P intent es order) (hs : es ⊆ es') :
    OpenRead P intent es' order := by
  obtain ⟨positions, quantity, hmem, hquantity⟩ := h
  exact ⟨positions, quantity, hs hmem, hquantity⟩

/-- The reason says that the fallback monitor has the position. -/
def Reason.registers : Reason → Bool
  | .locallyManaged _ | .registeredNotEnforcing => true
  | _ => false

variable (P) in
/-- What a verdict says has happened. -/
structure Deliverable (es : List PlacementEvent) (verdict : Verdict) : Prop where
  confirmed : verdict.state = .venueProtected →
    Confirmed P intent plan es verdict.observedQuantity
  registered : verdict.reason.registers = true → Registered es
  degraded : verdict.state ≠ .venueProtected → Degraded es ∨ Replayed intent plan es

variable (P) in
/-- What the events of a call show before an operation. -/
def PlacementProtocol (call : LiveIntentRecord × ProtectionPlan) (es : List PlacementEvent) :
    PlacementOp → Prop
  | .claimProtection legs => legs = protectionLegs call.1 call.2 ∧ Never PlacementOp.claims es
  | .placePositionTpsl order => order = tpslOrder call.1 call.2 ∧ Claimed call.1 call.2 es ∧
      es.countP (fun e => e.op.places) < 3
  | .registerFallback row => x.fallbackProtectionEnabled = true ∧ ∃ epoch entryPrice,
      call.1.avgPrice = some entryPrice ∧ 0 < entryPrice ∧
      row = registration x call.1 call.2 epoch entryPrice ∧
      IdentityProven P x call.1 call.2 es epoch
  | .claimClose order => x.emergencyContainmentEnabled = true ∧ Never PlacementOp.claimsClose es ∧
      OpenRead P call.1 es order
  | .placeMarketClose order => x.emergencyContainmentEnabled = true ∧
      Never PlacementOp.closes es ∧ OpenRead P call.1 es order ∧
      (⟨.claimClose order, .ok true⟩ : PlacementEvent) ∈ es
  | .deliver verdict => Deliverable P call.1 call.2 es verdict
  | _ => True

/-- Setting a flag does not raise. -/
def PlacementAnswer : (o : PlacementOp) → Except PlacementError (PlacementAns o) → Prop
  | .degrade, r => r = .ok ()
  | _, _ => True

theorem protocol_of_quiet {call : LiveIntentRecord × ProtectionPlan} (es : List PlacementEvent)
    (o : PlacementOp) (h : o.Quiet) : PlacementProtocol P x call es o := by
  cases o <;> simp_all [PlacementOp.Quiet, PlacementOp.quiet, PlacementProtocol]

variable {α β : Type}

variable (P) in
/-- A part of a call that obeys the protocol. -/
abbrev Keeps (p : PlacementProg α) (es : List PlacementEvent)
    (Q : List PlacementEvent → Except PlacementError α → Prop) : Prop :=
  Obeys PlacementAnswer (PlacementProtocol P x (intent, plan)) p es Q

/-! ## The parts of a call -/

section Parts

variable {x intent plan}

/-- An operation the protocol does not restrict. -/
theorem keeps_ask {o : PlacementOp} (h : o.Quiet)
    {Q : List PlacementEvent → Except PlacementError (PlacementAns o) → Prop}
    (hQ : ∀ r, PlacementAnswer o r → Q (es ++ [⟨o, r⟩]) r) : Keeps P x intent plan (ask o) es Q :=
  obeys_perform.mpr ⟨protocol_of_quiet x es o h, hQ⟩

theorem keeps_ask_bind {o : PlacementOp} (h : o.Quiet) {f : PlacementAns o → PlacementProg β}
    {Q : List PlacementEvent → Except PlacementError β → Prop}
    (hok : ∀ a es', Within PlacementOp.Quiet es es' → (⟨o, .ok a⟩ : PlacementEvent) ∈ es' →
      Keeps P x intent plan (f a) es' Q)
    (herr : ∀ e es', Within PlacementOp.Quiet es es' → Q es' (.error e)) :
    Keeps P x intent plan (ask o >>= f) es Q :=
  obeys_perform_bind (protocol_of_quiet x es o h)
    (fun a _ => hok a _ (.snoc h) (List.mem_append_right _ (List.mem_singleton_self _)))
    fun e _ => herr e _ (.snoc h)

/-- The two reads of a confirmation. -/
theorem keeps_confirm {stopLossId takeProfitId : Option String}
    {Q : List PlacementEvent → Except PlacementError NativeReport → Prop}
    (hok : ∀ report es', Within PlacementOp.Quiet es es' →
      (report.state = .venueProtected → Confirmed P intent plan es' report.observedQuantity) →
        Q es' (.ok report))
    (herr : ∀ e es', Within PlacementOp.Quiet es es' → Q es' (.error e)) :
    Keeps P x intent plan (confirm P intent plan stopLossId takeProfitId) es Q := by
  unfold confirm
  split
  · exact herr _ _ (.refl es)
  next e he =>
    refine keeps_ask_bind (by rfl) (fun reads es' hw hread => ?_) herr
    refine hok _ _ hw fun hstate => ?_
    exact ⟨stopLossId, takeProfitId, e, reads, he, hread, hstate, rfl⟩

/-- The attempts that are left fit the bound. -/
theorem keeps_placeWithRetry {attempts : ℕ}
    {Q : List PlacementEvent → Except PlacementError Json → Prop}
    (hclaimed : Claimed intent plan es)
    (hcount : es.countP (fun e => e.op.places) + attempts ≤ 3)
    (hQ : ∀ r es', Within PlacementOp.Open es es' → Q es' r) :
    Keeps P x intent plan (placeWithRetry (tpslOrder intent plan) attempts) es Q := by
  induction attempts generalizing es with
  | zero => exact hQ _ _ (.refl es)
  | succ attempts ih =>
    refine obeys_bind.mpr (obeys_attempt.mpr (obeys_perform.mpr ⟨⟨rfl, hclaimed, by omega⟩, ?_⟩))
    intro r _
    have hw : Within PlacementOp.Open es
        (es ++ [⟨.placePositionTpsl (tpslOrder intent plan), r⟩]) := .snoc ⟨rfl, rfl⟩
    cases r with
    | ok placement => exact hQ _ _ hw
    | error e =>
      rw [then_ok]
      dsimp only
      split
      · exact hQ _ _ hw
      · refine ih (hclaimed.mono intent plan hw.subset) ?_ fun r es' hw' => hQ r es' (hw.trans hw')
        rw [List.countP_append, List.countP_singleton]
        split <;> omega

/-- The body of the `try`. -/
theorem keeps_place (hes : es = [])
    {Q : List PlacementEvent → Except PlacementError Placed → Prop}
    (hplaced : ∀ report es', Within PlacementOp.Open es es' →
      (report.state = .venueProtected → Confirmed P intent plan es' report.observedQuantity) →
        Q es' (.ok (.placed report)))
    (hreplayed : ∀ report es', Within PlacementOp.Open es es' → Replayed intent plan es' →
      (report.state = .venueProtected → Confirmed P intent plan es' report.observedQuantity) →
        Q es' (.ok (.replayed report)))
    (herr : ∀ e es', Within PlacementOp.Open es es' → Q es' (.error e)) :
    Keeps P x intent plan (place P intent plan) es Q := by
  have hclaim : PlacementProtocol P x (intent, plan) es
      (.claimProtection (protectionLegs intent plan)) := ⟨rfl, by rw [hes]; exact never_nil _⟩
  have hsnoc : ∀ r : Except PlacementError Bool, Within PlacementOp.Open es
      (es ++ [⟨.claimProtection (protectionLegs intent plan), r⟩]) := fun _ => .snoc ⟨rfl, rfl⟩
  refine obeys_perform_bind hclaim (fun won _ => ?_) fun e _ => herr e _ (hsnoc _)
  have hw := hsnoc (.ok won)
  cases won with
  | false =>
    refine obeys_bind.mpr (keeps_confirm (fun report es' hw' hconfirmed => ?_) fun e es' hw' => ?_)
    · have hopen := hw.trans (hw'.mono PlacementOp.open_of_quiet)
      exact hreplayed report es' hopen (hw'.subset (by simp)) hconfirmed
    · exact herr e es' (hw.trans (hw'.mono PlacementOp.open_of_quiet))
  | true =>
    have hcount : (es ++ [(⟨.claimProtection (protectionLegs intent plan), .ok true⟩ :
        PlacementEvent)]).countP (fun e => e.op.places) + 3 ≤ 3 := by
      rw [hes]
      exact Nat.le_refl 3
    refine obeys_bind.mpr (keeps_placeWithRetry (List.mem_append_right _ (by simp)) hcount
      fun r es₁ hw₁ => ?_)
    cases r with
    | error e => exact herr e es₁ (hw.trans hw₁)
    | ok placement =>
      rw [then_ok]
      dsimp only
      split
      next e _ => exact herr e es₁ (hw.trans hw₁)
      next stopLossId takeProfitId _ =>
        have hquiet : ∀ {es₂ : List PlacementEvent}, Within PlacementOp.Quiet es₁ es₂ →
            Within PlacementOp.Open es es₂ :=
          fun h => hw.trans (hw₁.trans (h.mono PlacementOp.open_of_quiet))
        have hfinish : ∀ {es₂ : List PlacementEvent}, Within PlacementOp.Quiet es₁ es₂ →
            Keeps P x intent plan
              (do
                let report ← confirm P intent plan (some stopLossId) takeProfitId
                pure (Placed.placed report)) es₂ Q := by
          intro es₂ hw₂
          refine obeys_bind.mpr (keeps_confirm (fun report es' hw' hconfirmed => ?_)
            fun e es' hw' => herr e es' (hquiet (hw₂.trans hw')))
          exact hplaced report es' (hquiet (hw₂.trans hw')) hconfirmed
        refine keeps_ask_bind (by rfl) (fun _ es₂ hw₂ _ => ?_)
          fun e es₂ hw₂ => herr e _ (hquiet hw₂)
        cases takeProfitId with
        | none => exact hfinish hw₂
        | some id =>
          exact keeps_ask_bind (by rfl) (fun _ es₃ hw₃ _ => hfinish (hw₂.trans hw₃))
            fun e es₃ hw₃ => herr e _ (hquiet (hw₂.trans hw₃))

theorem keeps_fallbackIdentity {Q : List PlacementEvent → Except PlacementError ℕ → Prop}
    (hok : ∀ epoch es', Within PlacementOp.Quiet es es' →
      IdentityProven P x intent plan es' epoch → Q es' (.ok epoch))
    (herr : ∀ e es', Within PlacementOp.Quiet es es' → Q es' (.error e)) :
    Keeps P x intent plan (fallbackIdentity P x intent plan) es Q := by
  refine keeps_ask_bind (by rfl) (fun known es₁ hw₁ hget => ?_) herr
  split
  swap
  · exact herr _ _ hw₁
  next hknown =>
    refine keeps_ask_bind (by rfl) (fun position es₂ hw₂ hread => ?_)
      fun e es₂ hw₂ => herr e _ (hw₁.trans hw₂)
    split
    · exact herr _ _ (hw₁.trans hw₂)
    next epoch hepoch =>
      obtain ⟨rows, hrows, hopen⟩ := Option.bind_eq_some_iff.mp hepoch
      refine keeps_ask_bind (by rfl) (fun fills es₃ hw₃ hfilled => ?_)
        fun e es₃ hw₃ => herr e _ (hw₁.trans (hw₂.trans hw₃))
      have hw : Within PlacementOp.Quiet es es₃ := hw₁.trans (hw₂.trans hw₃)
      split
      · exact herr _ _ hw
      next fillList hfills =>
        split
        swap
        · exact herr _ _ hw
        next hproven =>
          exact hok epoch es₃ hw ⟨known, position, rows, fills, fillList,
            (hw₂.trans hw₃).subset hget, hknown, hw₃.subset hread, hrows, hopen, hfilled, hfills,
            hproven⟩

theorem keeps_registerFallback {entryPrice : ℚ}
    {Q : List PlacementEvent → Except PlacementError Unit → Prop}
    (henabled : x.fallbackProtectionEnabled = true) (hprice : intent.avgPrice = some entryPrice)
    (hpos : 0 < entryPrice)
    (hok : ∀ es', Within PlacementOp.Open es es' → Registered es' → Q es' (.ok ()))
    (herr : ∀ e es', Within PlacementOp.Open es es' → Q es' (.error e)) :
    Keeps P x intent plan (registerFallback P x intent plan entryPrice) es Q := by
  refine obeys_bind.mpr (keeps_fallbackIdentity (fun epoch es₁ hw₁ hproven => ?_)
    fun e es₁ hw₁ => herr e es₁ (hw₁.mono PlacementOp.open_of_quiet))
  have hw : Within PlacementOp.Open es es₁ := hw₁.mono PlacementOp.open_of_quiet
  refine obeys_perform.mpr ⟨⟨henabled, epoch, entryPrice, hprice, hpos, rfl, hproven⟩,
    fun r _ => ?_⟩
  have hregister : Within PlacementOp.Open es₁
      (es₁ ++ [⟨.registerFallback (registration x intent plan epoch entryPrice), r⟩]) :=
    .snoc ⟨rfl, rfl⟩
  cases r with
  | error e => exact herr e _ (hw.trans hregister)
  | ok _ =>
    exact hok _ (hw.trans hregister) ⟨_, List.mem_append_right _ (List.mem_singleton_self _)⟩

/-- A degraded verdict that registers nothing. -/
theorem keeps_unmanagedVerdict {report : NativeReport} {reason : Reason}
    (hregistered : reason.registers = false)
    {Q : List PlacementEvent → Except PlacementError Verdict → Prop}
    (hok : ∀ verdict es', Deliverable P intent plan es' verdict → Q es' (.ok verdict))
    (herr : ∀ e es', Q es' (.error e)) :
    Keeps P x intent plan (unmanagedVerdict plan report reason) es Q := by
  refine keeps_ask_bind (by rfl) (fun _ es₁ _ _ => ?_) fun e es' _ => herr e es'
  refine keeps_ask_bind (by rfl) (fun _ es₂ _ hdegraded => ?_) fun e es' _ => herr e es'
  exact hok _ _
    { confirmed := fun h => by cases h
      registered := fun h => absurd h (ne_true_of_eq_false hregistered)
      degraded := fun _ => Or.inl hdegraded }

/-- The verdict of a report that is not confirmed. -/
theorem deliverable_of_report {verdict : Verdict} (hstate : verdict.state ≠ .venueProtected)
    (hregistered : verdict.reason.registers = false) (hdegraded : Degraded es) :
    Deliverable P intent plan es verdict where
  confirmed h := absurd h hstate
  registered h := absurd h (ne_true_of_eq_false hregistered)
  degraded _ := Or.inl hdegraded

theorem keeps_placeClose {order : CloseOrder} (hcontain : x.emergencyContainmentEnabled = true)
    (hnever : Never PlacementOp.closes es) (hread : OpenRead P intent es order)
    (hclaimed : (⟨.claimClose order, .ok true⟩ : PlacementEvent) ∈ es)
    {Q : List PlacementEvent → Except PlacementError Unit → Prop}
    (hQ : ∀ r es', es ⊆ es' → Q es' r) : Keeps P x intent plan (placeClose order) es Q := by
  refine obeys_bind.mpr (obeys_attempt.mpr (obeys_perform.mpr
    ⟨⟨hcontain, hnever, hread, hclaimed⟩, fun r _ => ?_⟩))
  have hsub : es ⊆ es ++ [⟨.placeMarketClose order, r⟩] := List.subset_append_left _ _
  have hrest : ∀ {state : IntentState} {providerOrderId : Option String}
      {es₁ : List PlacementEvent}, es ⊆ es₁ → Keeps P x intent plan (do
        ask (.updateClose order.clientOid state providerOrderId)
        let _ ← attempt (ask (.reconcileClose order.clientOid))
        pure ()) es₁ Q := by
    intro state providerOrderId es₁ hsub₁
    refine keeps_ask_bind (by rfl) (fun _ es₂ hw₂ _ => ?_)
      fun e es₂ hw₂ => hQ _ _ (List.Subset.trans hsub₁ hw₂.subset)
    refine obeys_bind.mpr (obeys_attempt.mpr (keeps_ask (by rfl) fun r _ => ?_))
    exact hQ _ _ (List.Subset.trans hsub₁
      (List.Subset.trans hw₂.subset (List.subset_append_left _ _)))
  cases r with
  | ok providerOrderId => exact hrest hsub
  | error e =>
    rw [then_ok]
    dsimp only
    split
    · exact hrest hsub
    · exact hQ _ _ hsub

theorem keeps_contain {report : NativeReport} (hcontain : x.emergencyContainmentEnabled = true)
    (hopen : Never PlacementOp.claimsClose es ∧ Never PlacementOp.closes es)
    (hstate : report.state ≠ .venueProtected) (hdegraded : Degraded es)
    {Q : List PlacementEvent → Except PlacementError Verdict → Prop}
    (hok : ∀ verdict es', Deliverable P intent plan es' verdict → Q es' (.ok verdict))
    (herr : ∀ e es', Q es' (.error e)) :
    Keeps P x intent plan (contain P intent report) es Q := by
  unfold contain
  split
  · exact hok _ _ (deliverable_of_report hstate rfl hdegraded)
  refine obeys_bind.mpr (obeys_attempt.mpr (keeps_ask (by rfl) fun r _ => ?_))
  have hdegraded' : Degraded (es ++ [⟨.readPosition intent.symbol, r⟩]) :=
    List.mem_append_left _ hdegraded
  have hgive : ∀ {verdict : Verdict}, verdict.state = report.state →
      verdict.reason.registers = false →
      Q (es ++ [⟨.readPosition intent.symbol, r⟩]) (.ok verdict) :=
    fun hs hr => hok _ _ (deliverable_of_report (hs ▸ hstate) hr hdegraded')
  cases r with
  | error e => exact hgive rfl rfl
  | ok positions =>
    rw [then_ok]
    dsimp only
    split
    · exact hgive rfl rfl
    next quantity hquantity =>
      split
      · exact hgive rfl rfl
      · split
        · exact hgive rfl rfl
        next hpos =>
          have hread : OpenRead P intent (es ++ [⟨.readPosition intent.symbol, .ok positions⟩])
              (closeOrder intent (min intent.filledQty quantity)) :=
            ⟨positions, quantity, by simp, hquantity, not_le.mp hpos, rfl⟩
          refine obeys_perform_bind ⟨hcontain,
            never_append.mpr ⟨hopen.1, by simp [PlacementOp.claimsClose]⟩, hread⟩
            (fun won _ => ?_) fun e _ => herr e _
          have hfinish : ∀ {es' : List PlacementEvent}, Degraded es' → ∀ oid,
              Q es' (.ok ⟨report.state, report.observedQuantity, .report report.reason, oid⟩) :=
            fun hdeg _ => hok _ _ (deliverable_of_report hstate rfl hdeg)
          cases won with
          | false => exact hfinish (List.mem_append_left _ hdegraded') _
          | true =>
            refine obeys_bind.mpr (keeps_placeClose hcontain ?_
              (hread.mono intent (List.subset_append_left _ _))
              (List.mem_append_right _ (List.mem_singleton_self _)) fun r es' hsub => ?_)
            · refine never_append.mpr ⟨never_append.mpr ⟨hopen.2, ?_⟩, ?_⟩ <;>
                simp [PlacementOp.closes]
            · cases r with
              | error e => exact herr e _
              | ok _ => exact hfinish (hsub (List.mem_append_left _ hdegraded')) _

theorem keeps_containOrLocalManagement {report : NativeReport}
    (hopen : Never PlacementOp.claimsClose es ∧ Never PlacementOp.closes es)
    (hstate : report.state ≠ .venueProtected) (hdegraded : Degraded es)
    {Q : List PlacementEvent → Except PlacementError Verdict → Prop}
    (hok : ∀ verdict es', Deliverable P intent plan es' verdict → Q es' (.ok verdict))
    (herr : ∀ e es', Q es' (.error e)) :
    Keeps P x intent plan (containOrLocalManagement P x intent plan report) es Q := by
  unfold containOrLocalManagement
  split
  next hcontain => exact keeps_contain hcontain hopen hstate hdegraded hok herr
  dsimp only
  split
  · exact keeps_unmanagedVerdict rfl hok herr
  next hfallback =>
    have henabled : x.fallbackProtectionEnabled = true := by simpa using hfallback
    split
    · exact keeps_unmanagedVerdict rfl hok herr
    next entryPrice hprice =>
      obtain ⟨hprice, hpos⟩ := Option.filter_eq_some_iff.mp hprice
      refine obeys_bind.mpr (obeys_attempt.mpr (keeps_registerFallback henabled hprice
        (of_decide_eq_true hpos) (fun es' hw hregistered => ?_) fun e es' hw => ?_))
      · exact hok _ _
          { confirmed := fun h => by cases h
            registered := fun _ => hregistered
            degraded := fun _ => Or.inl (hw.subset hdegraded) }
      · exact keeps_unmanagedVerdict rfl hok herr

/-- A round of the grace adds reads only, and only a read confirms. -/
theorem keeps_graceLoop {first : NativeReport} {e : NativeProtectionExpectation P}
    {stopLossId takeProfitId : Option String}
    (he : expectation P intent plan stopLossId takeProfitId = some e) {rounds attempts : ℕ}
    {report : NativeReport}
    (hreport : report.state = .venueProtected → Confirmed P intent plan es report.observedQuantity)
    {Q : List PlacementEvent → Except PlacementError (NativeReport × ℕ) → Prop}
    (hok : ∀ awaited es', Within PlacementOp.Quiet es es' →
      (awaited.1.state = .venueProtected →
        Confirmed P intent plan es' awaited.1.observedQuantity) → Q es' (.ok awaited))
    (herr : ∀ e es', Within PlacementOp.Quiet es es' → Q es' (.error e)) :
    Keeps P x intent plan (graceLoop P plan first e rounds report attempts) es Q := by
  induction rounds generalizing es report attempts with
  | zero => exact hok _ _ (.refl es) hreport
  | succ rounds ih =>
    refine keeps_ask_bind (by rfl) (fun more es₁ hw₁ _ => ?_) herr
    have hkept : ∀ {es' : List PlacementEvent}, Within PlacementOp.Quiet es₁ es' →
        report.state = .venueProtected → Confirmed P intent plan es' report.observedQuantity :=
      fun hw h => (hreport h).mono intent plan (hw₁.trans hw).subset
    have hagain : ∀ {report' : NativeReport} {es' : List PlacementEvent},
        Within PlacementOp.Quiet es₁ es' → (report'.state = .venueProtected →
          Confirmed P intent plan es' report'.observedQuantity) →
        Keeps P x intent plan (graceLoop P plan first e rounds report' (attempts + 1)) es' Q :=
      fun hw hreport' => ih hreport'
        (fun awaited es₂ hw₂ => hok awaited es₂ (hw₁.trans (hw.trans hw₂)))
        fun e es₂ hw₂ => herr e es₂ (hw₁.trans (hw.trans hw₂))
    split
    swap
    · exact hok _ _ hw₁ (hkept (.refl es₁))
    refine obeys_bind.mpr (obeys_attempt.mpr (keeps_ask (by rfl) fun r _ => ?_))
    have hw₂ : Within PlacementOp.Quiet es₁ (es₁ ++ [⟨.readPosition plan.symbol, r⟩]) := .snoc rfl
    cases r with
    | error err => exact hagain hw₂ fun h => by cases h
    | ok positions =>
      rw [then_ok]
      dsimp only
      split
      · exact hok _ _ (hw₁.trans hw₂) (hkept hw₂)
      refine obeys_bind.mpr (obeys_attempt.mpr (keeps_ask (by rfl) fun r _ => ?_))
      have hw₃ : Within PlacementOp.Quiet es₁
          (es₁ ++ [⟨.readPosition plan.symbol, .ok positions⟩] ++
            [⟨.readProtection plan.symbol, r⟩]) := hw₂.trans (.snoc rfl)
      cases r with
      | error err => exact hagain hw₃ fun h => by cases h
      | ok reads =>
        have hread : (confirmExactNativeProtection e reads.1 reads.2).state = .venueProtected →
            Confirmed P intent plan (es₁ ++ [⟨.readPosition plan.symbol, .ok positions⟩] ++
              [⟨.readProtection plan.symbol, .ok reads⟩])
              (confirmExactNativeProtection e reads.1 reads.2).observedQuantity :=
          fun hstate => ⟨stopLossId, takeProfitId, e, reads, he, by simp, hstate, rfl⟩
        rw [then_ok]
        dsimp only
        split
        · exact hok _ _ (hw₁.trans hw₃) hread
        · exact hagain hw₃ hread

theorem keeps_awaitNativeProtection {first : NativeReport}
    (hfirst : first.state ≠ .venueProtected)
    {Q : List PlacementEvent → Except PlacementError (NativeReport × ℕ) → Prop}
    (hok : ∀ awaited es', Within PlacementOp.Quiet es es' →
      (awaited.1.state = .venueProtected →
        Confirmed P intent plan es' awaited.1.observedQuantity) → Q es' (.ok awaited))
    (herr : ∀ e es', Within PlacementOp.Quiet es es' → Q es' (.error e)) :
    Keeps P x intent plan (awaitNativeProtection P x intent plan first) es Q := by
  unfold awaitNativeProtection
  split
  · exact hok _ _ (.refl es) fun h => absurd h hfirst
  refine keeps_ask_bind (by rfl) (fun ids es₁ hw₁ _ => ?_) herr
  split
  · exact herr _ _ hw₁
  next e he =>
    exact keeps_graceLoop he (fun h => absurd h hfirst)
      (fun awaited es' hw => hok awaited es' (hw₁.trans hw))
      fun e es' hw => herr e es' (hw₁.trans hw)

theorem keeps_settle {report : NativeReport}
    (hopen : Never PlacementOp.claimsClose es ∧ Never PlacementOp.closes es)
    (hreport : report.state = .venueProtected → Confirmed P intent plan es report.observedQuantity)
    {Q : List PlacementEvent → Except PlacementError Verdict → Prop}
    (hok : ∀ verdict es', Deliverable P intent plan es' verdict → Q es' (.ok verdict))
    (herr : ∀ e es', Q es' (.error e)) :
    Keeps P x intent plan (settle P x intent plan report) es Q := by
  -- a protected report comes with the read that confirmed it
  have hprotected : ∀ {verdict : Verdict} {es' : List PlacementEvent},
      verdict.state = .venueProtected → Confirmed P intent plan es' verdict.observedQuantity →
      verdict.reason.registers = false → Deliverable P intent plan es' verdict :=
    fun hstate hconfirmed hregistered =>
    { confirmed := fun _ => hconfirmed
      registered := fun h => absurd h (ne_true_of_eq_false hregistered)
      degraded := fun h => absurd hstate h }
  unfold settle
  split
  next hstate =>
    refine keeps_ask_bind (by rfl) (fun _ es₁ hw₁ _ => ?_) fun e es₁ _ => herr e es₁
    exact hok _ _ (hprotected hstate ((hreport hstate).mono intent plan hw₁.subset) rfl)
  next hstate =>
    refine obeys_bind.mpr (keeps_awaitNativeProtection hstate (fun awaited es₁ hw₁ hawaited => ?_)
      fun e es₁ _ => herr e es₁)
    rw [then_ok]
    split
    next hawaitedState =>
      refine keeps_ask_bind (by rfl) (fun _ es₂ hw₂ _ => ?_) fun e es₂ _ => herr e es₂
      exact hok _ _ (hprotected hawaitedState
        ((hawaited hawaitedState).mono intent plan hw₂.subset) rfl)
    next hawaitedState =>
      refine keeps_ask_bind (by rfl) (fun _ es₂ hw₂ _ => ?_) fun e es₂ _ => herr e es₂
      refine keeps_ask_bind (by rfl) (fun _ es₃ hw₃ hdegraded => ?_) fun e es₃ _ => herr e es₃
      have hw : Within PlacementOp.Open es es₃ :=
        (hw₁.trans (hw₂.trans hw₃)).mono PlacementOp.open_of_quiet
      exact keeps_containOrLocalManagement ⟨never_of_within (fun _ h => h.1) hopen.1 hw,
        never_of_within (fun _ h => h.2) hopen.2 hw⟩ hawaitedState hdegraded hok herr

theorem keeps_unsupportedSymbol {Q : List PlacementEvent → Except PlacementError Verdict → Prop}
    (hok : ∀ verdict es', Deliverable P intent plan es' verdict → Q es' (.ok verdict))
    (herr : ∀ e es', Q es' (.error e)) :
    Keeps P x intent plan (unsupportedSymbol P x intent plan) es Q := by
  -- the verdict that follows the registration, or what came in its place
  have hfinish : ∀ {es₁ : List PlacementEvent} {registered : Except PlacementError (Option Reason)},
      (registered = .ok none → Registered es₁) →
      (∀ reason, registered = .ok (some reason) → reason.registers = false) →
      Keeps P x intent plan (do
        ask .degrade
        pure (unsupportedVerdict intent registered)) es₁ Q := by
    intro es₁ registered hregistered hother
    refine keeps_ask_bind (by rfl) (fun _ es₂ hw₂ hdegraded => ?_) fun e es₂ _ => herr e es₂
    rcases registered with e | _ | reason
    · exact hok _ _ (deliverable_of_report (fun h => by cases h) rfl hdegraded)
    · exact hok _ _
        { confirmed := fun h => by cases h
          registered := fun _ => (hregistered rfl).mono hw₂.subset
          degraded := fun _ => Or.inl hdegraded }
    · exact hok _ _ (deliverable_of_report (fun h => by cases h) (hother reason rfl)
        hdegraded)
  refine keeps_ask_bind (by rfl) (fun _ es₁ hw₁ _ => ?_) fun e es₁ _ => herr e es₁
  refine obeys_bind.mpr (obeys_attempt.mpr ?_)
  split
  · refine keeps_ask_bind (by rfl) (fun _ es₂ _ _ => ?_) fun e es₂ _ => ?_
    · exact hfinish (fun h => by cases h) fun _ h => by cases h; rfl
    · exact hfinish (fun h => by cases h) fun _ h => by cases h
  next hfallback =>
    have henabled : x.fallbackProtectionEnabled = true := by simpa using hfallback
    split
    · exact hfinish (fun h => by cases h) fun _ h => by cases h; rfl
    next entryPrice hprice =>
      obtain ⟨hprice, hpos⟩ := Option.filter_eq_some_iff.mp hprice
      refine obeys_bind.mpr (keeps_registerFallback henabled hprice (of_decide_eq_true hpos)
        (fun es₂ _ hregistered => ?_) fun e es₂ _ => ?_)
      · exact hfinish (fun _ => hregistered) fun _ h => by cases h
      · exact hfinish (fun h => by cases h) fun _ h => by cases h

/-- What a call delivers is `Deliverable`. -/
theorem keeps_protectFilledPosition
    {Q : List PlacementEvent → Except PlacementError Verdict → Prop}
    (hok : ∀ verdict es', Deliverable P intent plan es' verdict → Q es' (.ok verdict))
    (herr : ∀ e es', Q es' (.error e)) :
    Keeps P x intent plan (protectFilledPosition P x intent plan) [] Q := by
  unfold protectFilledPosition
  have hopen : ∀ {es' : List PlacementEvent}, Within PlacementOp.Open [] es' →
      Never PlacementOp.claimsClose es' ∧ Never PlacementOp.closes es' := fun hw =>
    ⟨never_of_within (fun _ h => h.1) (never_nil _) hw,
      never_of_within (fun _ h => h.2) (never_nil _) hw⟩
  split
  · refine keeps_ask_bind (by rfl) (fun _ es₁ _ hdegraded => ?_) fun e es₁ _ => herr e es₁
    exact hok _ _ (deliverable_of_report (fun h => by cases h) rfl hdegraded)
  split
  · refine keeps_ask_bind (by rfl) (fun _ es₁ hw₁ hdegraded => ?_) fun e es₁ _ => herr e es₁
    exact keeps_containOrLocalManagement (hopen (hw₁.mono PlacementOp.open_of_quiet))
      (fun h => by cases h) hdegraded hok herr
  refine obeys_bind.mpr (obeys_attempt.mpr (keeps_place rfl (fun report es₁ hw₁ hconfirmed => ?_)
    (fun report es₁ hw₁ hreplayed hconfirmed => ?_) fun e es₁ hw₁ => ?_))
  · exact keeps_settle (hopen hw₁) hconfirmed hok herr
  · exact hok _ _
      { confirmed := hconfirmed
        registered := fun h => by cases h
        degraded := fun _ => Or.inr hreplayed }
  · rw [then_ok]
    dsimp only
    split
    · exact keeps_unsupportedSymbol hok herr
    split
    · refine keeps_ask_bind (by rfl) (fun _ es₂ _ _ => ?_) fun e es₂ _ => herr e es₂
      refine keeps_ask_bind (by rfl) (fun _ es₃ _ hdegraded => ?_) fun e es₃ _ => herr e es₃
      exact hok _ _ (deliverable_of_report (fun h => by cases h) rfl hdegraded)
    · exact keeps_settle (hopen hw₁) (fun h => by cases h) hok herr

end Parts

/-- A call obeys the protocol. -/
theorem keeps_protectCall :
    Keeps P x intent plan (protectCall P x intent plan) [] fun _ _ => True := by
  refine obeys_bind.mpr (keeps_protectFilledPosition (fun verdict es' hdeliverable => ?_)
    fun _ _ => trivial)
  exact obeys_perform.mpr ⟨hdeliverable, fun _ _ => trivial⟩

end FattyTrader.Placement
