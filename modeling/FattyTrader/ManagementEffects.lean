import FattyTrader.EntryFollows
import FattyTrader.ExactlyOnce
import FattyTrader.SourceManagement

/-!
# Effects of source management updates

Any number of cycles run next to each other, and a crash may end one between any two of its
operations. A cycle sends the effect of an update, its close or its new stop, only after it recorded
the intent of this effect itself, and a row of `source_management_provider_intents` is recorded once :
so each effect is sent at most once, over every run (`effects_fenced`).

A cycle that finds an intent recorded sends nothing any more. It is not restricted to reads : the
entries the symbol still has open are cancelled before the intent of the close is looked for
(`cancelled_before_found`).
-/

set_option linter.unusedSectionVars false

open Tables Programs Prog Runs

namespace FattyTrader

/-! ## Kinds of operations -/

/-- The intent of the effect an operation sends. -/
def ManagementOp.effect : ManagementOp → Option ManagementOid
  | .placeMarketClose _ _ _ oid => some oid
  | .modifyPositionStopLoss _ oid => some oid
  | _ => none

def EntryOp.cancels : EntryOp → Bool
  | .cancelEntryOrder _ _ => true
  | _ => false

/-- A request that changes something on the venue. -/
def ManagementOp.posts : ManagementOp → Bool
  | .placeMarketClose _ _ _ _ => true
  | .modifyPositionStopLoss _ _ => true
  | .entry o => o.requests
  | _ => false

/-- The cancellation of an entry order. -/
def ManagementOp.cancels : ManagementOp → Bool
  | .entry o => o.cancels
  | _ => false

/-- It sends nothing but cancellations. -/
def ManagementOp.Safe (o : ManagementOp) : Prop := o.posts = true → o.cancels = true

/-- It sends nothing, and does not concern intents. -/
def ManagementOp.plain : ManagementOp → Bool
  | .hasProviderIntent _ => false
  | .persistProviderIntent _ => false
  | o => !o.posts

/-- A cancellation, or what sends nothing. -/
def ManagementOp.sweeps (o : ManagementOp) : Bool := o.plain || o.cancels

/-- The event recorded the intent. -/
def records (oid : ManagementOid) : ManagementEvent → Bool
  | ⟨.persistProviderIntent o, .ok true⟩ => o = oid
  | _ => false

/-- The event found an intent recorded. -/
def finds : ManagementEvent → Bool
  | ⟨.hasProviderIntent _, .ok true⟩ => true
  | ⟨.persistProviderIntent _, .ok false⟩ => true
  | _ => false

def sends (oid : ManagementOid) (e : ManagementEvent) : Bool := e.op.effect = some oid

/-- Nothing of this effect was sent, and no intent was found. -/
structure NotSent (es : List ManagementEvent) (oid : ManagementOid) : Prop where
  sent : ∀ e ∈ es, e.op.effect ≠ some oid
  found : ∀ e ∈ es, finds e = false

/-- Nothing is sent by a cycle that found an intent. An effect is sent once, after its intent was
recorded, and what else is sent are cancellations. -/
def ManagementProtocol (es : List ManagementEvent) (o : ManagementOp) : Prop :=
  (o.posts = true → ∀ e ∈ es, finds e = false) ∧
    match o.effect with
    | some oid => (∀ e ∈ es, e.op.effect ≠ some oid) ∧ ∃ e ∈ es, records oid e = true
    | none => o.Safe

section Kinds

variable {o : ManagementOp} {es es' : List ManagementEvent} {e : ManagementEvent}
  {oid : ManagementOid}

theorem posts_of_effect (h : o.effect = some oid) : o.posts = true := by
  cases o <;> first | rfl | simp [ManagementOp.effect] at h

theorem effect_of_silent (h : o.posts = false) : o.effect = none := by
  cases heffect : o.effect with
  | none => rfl
  | some oid => simp [posts_of_effect heffect] at h

theorem silent_of_plain (h : o.plain = true) : o.posts = false := by
  cases o <;> first | rfl | simpa [ManagementOp.plain] using h

theorem sweeps_of_plain (h : o.plain = true) : o.sweeps = true := by
  simp [ManagementOp.sweeps, h]

theorem effect_of_sweeps (h : o.sweeps = true) : o.effect = none ∧ o.Safe := by
  rcases (Bool.or_eq_true _ _).mp h with hplain | hcancels
  · have hsilent := silent_of_plain hplain
    exact ⟨effect_of_silent hsilent, fun hposts => by rw [hsilent] at hposts; cases hposts⟩
  · refine ⟨?_, fun _ => hcancels⟩
    cases o <;> first | rfl | simp [ManagementOp.cancels] at hcancels

theorem protocol_of_silent (es : List ManagementEvent) (o : ManagementOp) (h : o.posts = false) :
    ManagementProtocol es o := by
  unfold ManagementProtocol
  rw [effect_of_silent h]
  constructor <;> intro hposts <;> rw [h] at hposts <;> cases hposts

theorem protocol_of_plain (es : List ManagementEvent) (o : ManagementOp) (h : o.plain = true) :
    ManagementProtocol es o :=
  protocol_of_silent es o (silent_of_plain h)

theorem finds_of_sweeps (h : e.op.sweeps = true) : finds e = false := by
  obtain ⟨o, r⟩ := e
  cases o <;> first | rfl | simp [ManagementOp.sweeps, ManagementOp.plain, ManagementOp.cancels] at h

theorem notSent_nil : NotSent [] oid := ⟨by simp, by simp⟩

theorem NotSent.append (h : NotSent es oid) (hsent : e.op.effect ≠ some oid)
    (hfound : finds e = false) : NotSent (es ++ [e]) oid := by
  constructor
  · simpa [or_imp, forall_and] using ⟨h.sent, hsent⟩
  · simpa [or_imp, forall_and] using ⟨h.found, hfound⟩

theorem NotSent.sweeps (h : NotSent es oid) (hw : Within (fun o => o.sweeps = true) es es') :
    NotSent es' oid := by
  obtain ⟨qs, rfl, hqs⟩ := hw
  constructor
  · intro e he
    rcases List.mem_append.mp he with he | he
    · exact h.sent e he
    · simp [(effect_of_sweeps (hqs e he)).1]
  · intro e he
    rcases List.mem_append.mp he with he | he
    · exact h.found e he
    · exact finds_of_sweeps (hqs e he)

theorem NotSent.plain (h : NotSent es oid) (hw : Within (fun o => o.plain = true) es es') :
    NotSent es' oid :=
  h.sweeps (hw.mono fun _ => sweeps_of_plain)

/-- An effect that was not sent, where no intent was found. -/
theorem NotSent.protocol (h : NotSent es oid) (hrecorded : ∃ e ∈ es, records oid e = true)
    (heffect : o.effect = some oid) : ManagementProtocol es o := by
  unfold ManagementProtocol
  rw [heffect]
  exact ⟨fun _ => h.found, h.sent, hrecorded⟩

end Kinds

/-! ## Programs of the entry path -/

section Entry

variable {α : Type}

/-- Reads and writes of the database, and cancellations unless it is only a reconciliation. -/
abbrev Cancelling (reconciliationOnly : Bool) (p : EntryProg α) : Prop :=
  p.OpsIn fun o => (!o.requests || o.cancels && !reconciliationOnly) = true

variable {reconciliationOnly : Bool}

theorem cancelling_of_reads {p : EntryProg α} (h : p.OpsIn EntryOp.Reads) :
    Cancelling reconciliationOnly p :=
  opsIn_mono (fun o ho => by
    cases o <;> first | rfl | (simp [EntryOp.Reads, EntryOp.reads] at ho)) h

/-- The operations of an embedded program. -/
theorem opsIn_entryProg {P : EntryOp → Prop} :
    ∀ {p : EntryProg α}, p.OpsIn P → (entryProg p).OpsIn fun o => ∃ o', o = .entry o' ∧ P o'
  | .ret _, _ => trivial
  | .raise _, _ => trivial
  | .op o _, h =>
    opsIn_bind (fun answer => opsIn_entryProg (h.2 answer)) (opsIn_perform ⟨o, rfl, h.1⟩)

theorem plain_entryProg {p : EntryProg α} (h : Cancelling true p) :
    (entryProg p).OpsIn fun o => o.plain = true :=
  opsIn_mono (fun _ ⟨_, ho, hP⟩ => by
    rw [ho]
    simpa [ManagementOp.plain, ManagementOp.posts] using hP) (opsIn_entryProg h)

theorem sweeps_entryProg {p : EntryProg α} (h : Cancelling reconciliationOnly p) :
    (entryProg p).OpsIn fun o => o.sweeps = true :=
  opsIn_mono (fun _ ⟨_, ho, hP⟩ => by
    rw [ho]
    simp only [Bool.or_eq_true, Bool.and_eq_true] at hP
    simpa [ManagementOp.sweeps, ManagementOp.plain, ManagementOp.posts, ManagementOp.cancels]
      using hP.imp_right And.left) (opsIn_entryProg h)

theorem cancelling_persistReadback (intent : LiveIntentRecord) (result : AsyncExecutionResult) :
    Cancelling reconciliationOnly (persistReadback intent result) := by
  unfold persistReadback
  split
  · trivial
  split
  · trivial
  · exact opsIn_bind_pure (opsIn_perform rfl)

theorem cancelling_resolveReservation (intent : LiveIntentRecord) (outcome : Outcome) :
    Cancelling reconciliationOnly (resolveReservation intent outcome) := by
  unfold resolveReservation
  split
  · trivial
  · exact opsIn_perform rfl

theorem cancelling_claimedCancel (entry : LiveIntentRecord) (id : Uuid) (only : Bool) :
    Cancelling reconciliationOnly (BitgetDispatchExecution.claimedCancel entry id only) := by
  have hget : Cancelling reconciliationOnly (ask (.get entry.clientOid)) := opsIn_perform rfl
  unfold BitgetDispatchExecution.claimedCancel
  dsimp only
  split
  · exact hget
  · refine opsIn_bind (fun _ => ?_) (opsIn_perform rfl)
    exact hget

theorem cancelling_cancelOrRead (intent : LiveIntentRecord) (reconciliationOnly : Bool) :
    Cancelling reconciliationOnly
      (BitgetDispatchExecution.cancelOrRead intent reconciliationOnly) := by
  have hread : Cancelling reconciliationOnly (readIntent intent none) :=
    cancelling_of_reads (reads_readIntent _ _)
  unfold BitgetDispatchExecution.cancelOrRead
  split
  · exact hread
  next hcancels =>
    refine opsIn_bind (fun before => ?_) hread
    split
    · trivial
    refine opsIn_bind (fun claimed => ?_) (opsIn_perform rfl)
    split
    · refine opsIn_bind (fun answer => ?_) (opsIn_attempt (opsIn_perform ?_))
      · split <;> first | exact hread | trivial
      · simp [EntryOp.cancels, hcancels]
    · trivial

theorem cancelling_cancelSingle (entry : LiveIntentRecord) (id : Uuid) (reconciliationOnly : Bool) :
    Cancelling reconciliationOnly
      (BitgetDispatchExecution.cancelSingle entry id reconciliationOnly) := by
  refine opsIn_bind (fun refreshed => ?_) (cancelling_claimedCancel _ _ _)
  split
  · trivial
  · refine opsIn_bind (fun result => ?_) (cancelling_cancelOrRead _ _)
    refine opsIn_bind (fun refreshed => ?_) (cancelling_persistReadback _ _)
    split
    · exact opsIn_bind_pure (cancelling_resolveReservation _ _)
    · trivial

theorem cancelling_cancelledRoot (root limit : LiveIntentRecord) :
    Cancelling reconciliationOnly (BitgetDispatchExecution.cancelledRoot root limit) := by
  refine opsIn_bind (fun result => ?_) (cancelling_of_reads (reads_readIntent _ _))
  refine opsIn_bind (fun root => ?_) (cancelling_persistReadback _ _)
  refine opsIn_bind (fun aggregate => ?_) (cancelling_of_reads (reads_requireSplit _ _))
  split
  · split
    · exact opsIn_bind_pure (opsIn_perform rfl)
    · trivial
  · trivial

theorem cancelling_cancelledLeg (limit : LiveIntentRecord) (reconciliationOnly : Bool) :
    Cancelling reconciliationOnly
      (BitgetDispatchExecution.cancelledLeg limit reconciliationOnly) := by
  unfold BitgetDispatchExecution.cancelledLeg
  split
  · trivial
  · exact opsIn_bind (fun _ => cancelling_persistReadback _ _) (cancelling_cancelOrRead _ _)

theorem cancelling_cancelLimit (entry : LiveIntentRecord) (id : Uuid) (reconciliationOnly : Bool) :
    Cancelling reconciliationOnly
      (BitgetDispatchExecution.cancelLimit entry id reconciliationOnly) := by
  refine opsIn_bind (fun root => ?_) (opsIn_perform rfl)
  split
  · trivial
  next root =>
  refine opsIn_bind (fun _ => ?_) (cancelling_of_reads (reads_requireSplit _ _))
  have hleg : ∀ limit : LiveIntentRecord, Cancelling reconciliationOnly (do
      let limit ← BitgetDispatchExecution.cancelledLeg limit reconciliationOnly
      if limit.providerTerminal then BitgetDispatchExecution.cancelledRoot root limit
      else pure false) := by
    intro limit
    refine opsIn_bind (fun limit => ?_) (cancelling_cancelledLeg _ _)
    split
    · exact cancelling_cancelledRoot _ _
    · trivial
  dsimp only
  split
  · refine opsIn_bind (fun limit => ?_) trivial
    cases limit with
    | none => trivial
    | some limit => exact hleg limit
  · refine opsIn_bind (fun limit => ?_) (cancelling_claimedCancel _ _ _)
    cases limit with
    | none => trivial
    | some limit => exact hleg limit

theorem cancelling_cancelEntries (id : Uuid) (reconciliationOnly : Bool) :
    ∀ entries, Cancelling reconciliationOnly
      (BitgetDispatchExecution.cancelEntries id reconciliationOnly entries)
  | [] => trivial
  | entry :: entries => by
    refine opsIn_bind (fun proved => ?_) ?_
    · split
      · exact cancelling_cancelEntries id reconciliationOnly entries
      · trivial
    · unfold BitgetDispatchExecution.cancelEntry
      split
      · trivial
      split
      · exact cancelling_cancelLimit _ _ _
      · exact cancelling_cancelSingle _ _ _

theorem cancelling_pendingEntries (symbol : Option String) (id : Option Uuid) :
    Cancelling reconciliationOnly (BitgetDispatchExecution.pendingEntries symbol id) := by
  refine opsIn_bind (fun ids => ?_) (opsIn_perform rfl)
  refine opsIn_bind (fun records => ?_) (opsIn_each fun _ _ => opsIn_perform rfl)
  split <;> trivial

theorem cancelling_cancelPendingEntries (symbol : String) (id : Uuid) (reconciliationOnly : Bool) :
    Cancelling reconciliationOnly
      (BitgetDispatchExecution.cancelPendingEntries symbol id reconciliationOnly) := by
  refine opsIn_bind (fun outcome => ?_) (opsIn_attempt ?_)
  · split <;> trivial
  · refine opsIn_bind (fun _ => ?_) (opsIn_perform rfl)
    refine opsIn_bind (fun entries => ?_) (cancelling_pendingEntries _ _)
    refine opsIn_bind (fun proved => ?_) (cancelling_cancelEntries _ _ _)
    split
    · split
      · trivial
      · exact opsIn_bind_pure (cancelling_pendingEntries _ _)
    · trivial

/-- A reconciliation of the entries of the symbol sends nothing. -/
theorem plain_cancelOwnedEntries (symbol : String) (id : Uuid) :
    (cancelOwnedEntries symbol id true).OpsIn fun o => o.plain = true := by
  refine opsIn_bind (fun answer => ?_)
    (plain_entryProg (cancelling_cancelPendingEntries symbol id true))
  split <;> trivial

/-- The entries of the symbol are cancelled. -/
theorem sweeps_cancelOwnedEntries (symbol : String) (id : Uuid) :
    (cancelOwnedEntries symbol id reconciliationOnly).OpsIn fun o => o.sweeps = true := by
  refine opsIn_bind (fun answer => ?_)
    (sweeps_entryProg (cancelling_cancelPendingEntries symbol id reconciliationOnly))
  split <;> trivial

end Entry

/-! ## One cycle -/

section Cycle

variable {α : Type} {u : SourceManagementUpdate} {oid oid' : ManagementOid}
  {es es' : List ManagementEvent}

/-- The protocol, for all answers. -/
abbrev Keeps (p : ManagementProg α) (es : List ManagementEvent)
    (Q : List ManagementEvent → Except ManagementError α → Prop) : Prop :=
  Obeys (fun _ _ => True) ManagementProtocol p es Q

abbrev Plain (p : ManagementProg α) : Prop := p.OpsIn fun o => o.plain = true

/-- It sends nothing, and may look for intents. -/
abbrev Quiet (p : ManagementProg α) : Prop := p.OpsIn fun o => o.posts = false

theorem quiet_of_plain {p : ManagementProg α} (h : Plain p) : Quiet p :=
  opsIn_mono (fun _ ho => silent_of_plain ho) h

theorem keeps_quiet {p : ManagementProg α} (h : Quiet p) : Keeps p es fun _ _ => True :=
  obeys_free h protocol_of_silent fun _ _ _ => trivial

/-- A plain part, before a sequel. -/
theorem keeps_plain_bind {β : Type} {p : ManagementProg α} {f : α → ManagementProg β} (h : Plain p)
    (hf : ∀ a es', Within (fun o => o.plain = true) es es' → Keeps (f a) es' fun _ _ => True) :
    Keeps (p >>= f) es fun _ _ => True := by
  refine obeys_bind.mpr (obeys_free h protocol_of_plain fun es' r hw => ?_)
  cases r with
  | ok a => exact hf a es' hw
  | error e => trivial

/-- The cancellations before a sequel, where no intent was found. -/
theorem keeps_sweeps_bind {β : Type} {p : ManagementProg α} {f : α → ManagementProg β}
    (h : p.OpsIn fun o => o.sweeps = true) (hnot : ∀ oid, NotSent es oid)
    (hf : ∀ a es', (∀ oid, NotSent es' oid) → Keeps (f a) es' fun _ _ => True) :
    Keeps (p >>= f) es fun _ _ => True := by
  have hkept : ∀ qs : List ManagementEvent, (∀ e ∈ qs, e.op.sweeps = true) →
      ∀ oid, NotSent (es ++ qs) oid := fun qs hqs oid => (hnot oid).sweeps ⟨qs, rfl, hqs⟩
  refine obeys_bind.mpr (obeys_of_opsIn h (fun qs o hqs ho => ?_) fun qs r hqs => ?_)
  · obtain ⟨heffect, hsafe⟩ := effect_of_sweeps ho
    unfold ManagementProtocol
    rw [heffect]
    exact ⟨fun _ => (hkept qs hqs ⟨0, .close⟩).found, hsafe⟩
  · cases r with
    | ok a => exact hf a _ (hkept qs hqs)
    | error e => trivial

theorem plain_getIntent (oid : ManagementOid) : Plain (getIntent oid) :=
  opsIn_perform rfl

theorem plain_updateIntent (record : LiveIntentRecord) : Plain (updateIntent record) :=
  opsIn_perform rfl

theorem plain_updateIntent_raise (record : LiveIntentRecord) (e : ManagementError) :
    Plain (do updateIntent record; raise e : ManagementProg α) := by
  refine opsIn_bind (fun _ => ?_) (plain_updateIntent record)
  trivial

theorem plain_finish (u : SourceManagementUpdate) (state : UpdateState) (error : Option String) :
    Plain (finish u state error) := by
  refine opsIn_bind (fun _ => ?_) (opsIn_perform rfl)
  exact opsIn_perform rfl

theorem plain_finishWith (u : SourceManagementUpdate) (state : UpdateState) (error : Option String)
    (result : String) : Plain (finishWith u state error result) :=
  opsIn_bind_pure (plain_finish u state error)

theorem plain_requireEligible (u : SourceManagementUpdate) : Plain (requireEligible u) := by
  refine opsIn_bind (fun eligible => ?_) (opsIn_perform rfl)
  split <;> trivial

theorem plain_reconcileStopLoss (oid : ManagementOid) : Plain (reconcileStopLoss oid) := by
  refine opsIn_bind (fun intent => ?_) (plain_getIntent oid)
  split
  · trivial
  · exact opsIn_perform rfl

theorem plain_awaitClose (oid : ManagementOid) : ∀ rounds, Plain (awaitClose oid rounds)
  | 0 => trivial
  | rounds + 1 => by
    refine opsIn_bind (fun _ => ?_) (opsIn_perform rfl)
    refine opsIn_bind (fun rechecked => ?_) (plain_getIntent oid)
    split
    · trivial
    · exact plain_awaitClose oid rounds

/-- `_one_position` asks nobody. -/
theorem onePosition_cases (positions : List OpenPosition) :
    (∃ position, onePosition positions = pure position) ∨
      ∃ e, onePosition positions = raise e := by
  unfold onePosition
  split
  · split
    · exact Or.inr ⟨_, rfl⟩
    split
    · exact Or.inr ⟨_, rfl⟩
    · exact Or.inl ⟨_, rfl⟩
    · split
      · exact Or.inr ⟨_, rfl⟩
      · exact Or.inl ⟨_, rfl⟩
  · exact Or.inr ⟨_, rfl⟩

theorem keeps_onePosition_bind {positions : List OpenPosition} {f : OpenPosition → ManagementProg α}
    (h : ∀ position, Keeps (f position) es fun _ _ => True) :
    Keeps (onePosition positions >>= f) es fun _ _ => True := by
  rcases onePosition_cases positions with ⟨position, heq⟩ | ⟨e, heq⟩
  · rw [heq]
    exact h position
  · rw [heq]
    trivial

theorem plain_retireCloseClaim (u : SourceManagementUpdate) (positions : List OpenPosition) :
    Plain (retireCloseClaim u positions) := by
  unfold retireCloseClaim
  split
  · trivial
  · refine opsIn_bind (fun readback => ?_) (opsIn_attempt ?_)
    · split
      · exact opsIn_bind_pure (plain_finish _ _ _)
      · trivial
    · refine opsIn_bind (fun orders => ?_) (opsIn_perform rfl)
      exact opsIn_bind_pure (plain_cancelOwnedEntries _ _)

theorem quiet_hasProviderIntent (oid : ManagementOid) :
    Quiet (perform (ManagementOp.hasProviderIntent oid)) :=
  opsIn_perform rfl

theorem quiet_processIneligible (u : SourceManagementUpdate) : Quiet (processIneligible u) := by
  refine opsIn_bind (fun recorded => ?_) (quiet_hasProviderIntent _)
  split
  · refine quiet_of_plain (opsIn_bind (fun positions => ?_) (opsIn_perform rfl))
    refine opsIn_bind (fun retired => ?_) (plain_retireCloseClaim _ _)
    split <;> trivial
  · refine quiet_of_plain (opsIn_bind (fun cancellation => ?_) (opsIn_perform rfl))
    have hproved : ∀ proved : Bool, Plain (if proved then
        raise (.invalid "source management revision is no longer eligible")
      else raise (.reconciliationPending "stale cancellation claim still requires terminal readback") :
        ManagementProg (Option String)) := by
      intro proved
      split <;> trivial
    dsimp only
    split
    · exact opsIn_bind hproved (plain_cancelOwnedEntries _ _)
    · exact opsIn_bind hproved trivial

theorem quiet_processFlat (u : SourceManagementUpdate) : Quiet (processFlat u) := by
  unfold processFlat
  split
  · refine opsIn_bind (fun recorded => ?_) (quiet_hasProviderIntent _)
    split
    · refine quiet_of_plain (opsIn_bind (fun retired => ?_) (plain_retireCloseClaim _ _))
      split <;> trivial
    · exact quiet_of_plain (plain_finishWith _ _ _ _)
  · exact quiet_of_plain (plain_finishWith _ _ _ _)

/-- What is left after a close concerns no other effect. -/
theorem NotSent.other (h : NotSent es oid') (hne : oid' ≠ oid)
    (hw : Within (fun o => o.plain = true ∨ o.effect = some oid) es es') : NotSent es' oid' := by
  obtain ⟨qs, rfl, hqs⟩ := hw
  constructor
  · intro e he
    rcases List.mem_append.mp he with he | he
    · exact h.sent e he
    · rcases hqs e he with hplain | heffect
      · simp [effect_of_silent (silent_of_plain hplain)]
      · rw [heffect]
        exact fun heq => hne (Option.some.inj heq).symm
  · intro e he
    rcases List.mem_append.mp he with he | he
    · exact h.found e he
    · rcases hqs e he with hplain | heffect
      · exact finds_of_sweeps (sweeps_of_plain hplain)
      · obtain ⟨o, r⟩ := e
        cases o <;> first | rfl | simp [ManagementOp.effect] at heffect

/-- The close is sent at most once, where its intent was recorded. -/
theorem keeps_closeReduceOnly {symbol : String} {side : Side} {quantity : ℚ}
    (h : NotSent es oid) (hrecorded : ∃ e ∈ es, records oid e = true) :
    Keeps (closeReduceOnly symbol side quantity oid) es fun es' _ =>
      Within (fun o => o.plain = true ∨ o.effect = some oid) es es' := by
  have hplain : ∀ {β : Type} {p : ManagementProg β} {es₁ : List ManagementEvent}, Plain p →
      Within (fun o => o.plain = true ∨ o.effect = some oid) es es₁ →
      Keeps p es₁ fun es' _ => Within (fun o => o.plain = true ∨ o.effect = some oid) es es' :=
    fun hp hw => obeys_free hp protocol_of_plain fun es' r hw' =>
      hw.trans (hw'.mono fun _ ho => Or.inl ho)
  refine obeys_bind.mpr (obeys_free (plain_getIntent oid) protocol_of_plain fun es₁ r hw₁ => ?_)
  have hes₁ : Within (fun o => o.plain = true ∨ o.effect = some oid) es es₁ :=
    hw₁.mono fun _ ho => Or.inl ho
  cases r with
  | error e => exact hes₁
  | ok existing =>
    refine then_ok.mpr ?_
    dsimp only
    split
    · exact hes₁
    refine obeys_perform_bind (protocol_of_plain _ _ rfl) (fun _ _ => ?_) fun e _ =>
      hes₁.trans (.snoc (Or.inl rfl))
    refine obeys_perform_bind (protocol_of_plain _ _ rfl) (fun bound _ => ?_) fun e _ =>
      (hes₁.trans (.snoc (Or.inl rfl))).trans (.snoc (Or.inl rfl))
    set es₂ := es₁ ++ [(⟨ManagementOp.saveIntent _, .ok _⟩ : ManagementEvent)] ++
      [⟨.bindRequestedClose oid, .ok bound⟩] with hes₂
    have hw₂ : Within (fun o => o.plain = true) es es₂ :=
      (hw₁.trans (.snoc rfl)).trans (.snoc rfl)
    have hmono : Within (fun o => o.plain = true ∨ o.effect = some oid) es es₂ :=
      hw₂.mono fun _ ho => Or.inl ho
    split
    · exact hmono
    refine obeys_bind.mpr (obeys_attempt.mpr (obeys_perform.mpr
      ⟨(h.plain hw₂).protocol ?_ rfl, fun r _ => ?_⟩))
    · obtain ⟨e, he, hrec⟩ := hrecorded
      exact ⟨e, hw₂.subset he, hrec⟩
    · have hes₃ := hmono.trans (.snoc (e := ⟨.placeMarketClose symbol side quantity oid, r⟩)
        (Or.inr rfl))
      refine then_ok.mpr ?_
      split
      · exact hplain (plain_updateIntent_raise _ _) hes₃
      · exact hes₃
      · exact hplain (plain_updateIntent_raise _ _) hes₃
      · exact hplain (opsIn_bind (fun _ => plain_awaitClose oid 5) (plain_updateIntent _)) hes₃

/-- The stop is modified at most once, where its intent was recorded. -/
theorem keeps_replaceStopLoss {symbol : String} {side : Direction} {quantity : ℚ}
    {stopLoss : EntryPrice} (h : NotSent es oid) (hrecorded : ∃ e ∈ es, records oid e = true) :
    Keeps (replaceStopLoss symbol side quantity stopLoss oid) es fun _ _ => True := by
  refine keeps_plain_bind (plain_getIntent oid) fun existing es₁ hw₁ => ?_
  have hreconcile : Plain (perform (ManagementOp.reconcileStopIntent oid)) := opsIn_perform rfl
  split
  · split
    · trivial
    · exact keeps_quiet (quiet_of_plain hreconcile)
  refine keeps_plain_bind (opsIn_perform rfl) fun request es₂ hw₂ => ?_
  refine keeps_plain_bind (opsIn_perform rfl) fun claimed es₃ hw₃ => ?_
  have hw := (hw₁.trans hw₂).trans hw₃
  split
  · refine keeps_quiet (quiet_of_plain (opsIn_bind (fun previous => ?_) (plain_getIntent oid)))
    split
    · trivial
    · exact hreconcile
  refine obeys_bind.mpr (obeys_attempt.mpr (obeys_perform.mpr
    ⟨(h.plain hw).protocol ?_ rfl, fun r _ => ?_⟩))
  · obtain ⟨e, he, hrec⟩ := hrecorded
    exact ⟨e, hw.subset he, hrec⟩
  · refine then_ok.mpr (keeps_quiet (quiet_of_plain ?_))
    dsimp only
    split
    · exact plain_updateIntent_raise _ _
    · exact plain_updateIntent_raise _ _
    · exact opsIn_bind (fun _ => hreconcile) (plain_updateIntent _)

/-- An intent that was just recorded. -/
theorem keeps_persist_bind {f : Bool → ManagementProg α}
    (hnew : Keeps (f true) (es ++ [⟨.persistProviderIntent oid, .ok true⟩]) fun _ _ => True)
    (hfound : Quiet (f false)) :
    Keeps (perform (ManagementOp.persistProviderIntent oid) >>= f) es fun _ _ => True := by
  refine obeys_perform_bind (protocol_of_silent _ _ rfl) (fun recorded _ => ?_)
    fun _ _ => trivial
  cases recorded with
  | true => exact hnew
  | false => exact keeps_quiet hfound

theorem NotSent.recorded (h : NotSent es oid) (oid' : ManagementOid) :
    NotSent (es ++ [⟨.persistProviderIntent oid', .ok true⟩]) oid :=
  h.append (by simp [ManagementOp.effect]) rfl

theorem exists_records (es : List ManagementEvent) (oid : ManagementOid) :
    ∃ e ∈ es ++ [(⟨.persistProviderIntent oid, .ok true⟩ : ManagementEvent)],
      records oid e = true :=
  ⟨_, List.mem_append_right _ (List.mem_singleton_self _), by simp [records]⟩

theorem keeps_processStop (position : OpenPosition) (h : NotSent es u.slOid) :
    Keeps (processStop u position) es fun _ _ => True := by
  refine keeps_plain_bind (plain_requireEligible u) fun _ es₁ hw₁ => ?_
  refine keeps_persist_bind ?_ ?_
  · refine obeys_bind.mpr ((keeps_replaceStopLoss ((h.plain hw₁).recorded u.slOid)
      (exists_records es₁ u.slOid)).imp fun es₂ r _ => ?_)
    cases r <;> trivial
  · exact quiet_of_plain (opsIn_bind (fun _ => plain_finishWith _ _ _ _) (plain_reconcileStopLoss _))

theorem keeps_processClose (positions : List OpenPosition) (h : NotSent es u.closeOid) :
    Keeps (processClose u positions) es fun _ _ => True := by
  refine keeps_onePosition_bind fun position => ?_
  refine keeps_plain_bind (plain_requireEligible u) fun _ es₁ hw₁ => ?_
  refine keeps_persist_bind ?_ ?_
  · refine obeys_bind.mpr ((keeps_closeReduceOnly ((h.plain hw₁).recorded u.closeOid)
      (exists_records es₁ u.closeOid)).imp fun es₂ r _ => ?_)
    cases r with
    | error e => trivial
    | ok _ =>
      refine keeps_quiet (quiet_of_plain (opsIn_bind (fun after => ?_) (opsIn_perform rfl)))
      split <;> trivial
  · exact quiet_of_plain (opsIn_bind_pure (opsIn_perform rfl))

theorem keeps_processTp1 (positions : List OpenPosition) (hclose : NotSent es u.closeOid)
    (hstop : NotSent es u.slOid) : Keeps (processTp1 u positions) es fun _ _ => True := by
  have hne : u.slOid ≠ u.closeOid := by
    simp [SourceManagementUpdate.slOid, SourceManagementUpdate.closeOid]
  refine keeps_onePosition_bind fun position => ?_
  refine obeys_perform_bind (protocol_of_silent _ _ rfl) (fun recorded _ => ?_)
    fun _ _ => trivial
  cases recorded with
  | true => trivial
  | false =>
    have hasked : ∀ oid, NotSent es oid →
        NotSent (es ++ [⟨.hasProviderIntent u.closeOid, .ok false⟩]) oid := fun oid h =>
      h.append (by simp [ManagementOp.effect]) rfl
    refine keeps_plain_bind (opsIn_perform rfl) fun quantity es₁ hw₁ => ?_
    refine keeps_plain_bind (plain_requireEligible u) fun _ es₂ hw₂ => ?_
    have hw := hw₁.trans hw₂
    refine keeps_persist_bind ?_ trivial
    refine obeys_bind.mpr ((keeps_closeReduceOnly
      (((hasked _ hclose).plain hw).recorded u.closeOid) (exists_records es₂ u.closeOid)).imp
        fun es₃ r hw₃ => ?_)
    have hstop₃ := (((hasked _ hstop).plain hw).recorded u.closeOid).other hne hw₃
    cases r with
    | error e => trivial
    | ok _ =>
      refine keeps_plain_bind (opsIn_perform rfl) fun after es₄ hw₄ => ?_
      refine keeps_onePosition_bind fun remaining => ?_
      split
      · trivial
      · exact keeps_processStop remaining (hstop₃.plain hw₄)

theorem keeps_processOpen (positions : List OpenPosition) (h : ∀ oid, NotSent es oid) :
    Keeps (processOpen u positions) es fun _ _ => True := by
  unfold processOpen
  split
  · exact keeps_quiet (quiet_of_plain (plain_finishWith _ _ _ _))
  · exact keeps_processClose positions (h _)
  · exact keeps_processTp1 positions (h _) (h _)
  · exact keeps_onePosition_bind fun position => keeps_processStop position (h _)

theorem keeps_processEligible (h : ∀ oid, NotSent es oid) :
    Keeps (processEligible u) es fun _ _ => True := by
  have hproved : ∀ (proved : Bool) es', (∀ oid, NotSent es' oid) → Keeps (if proved = false then
      raise (.reconciliationPending "owned pending entries are not proved terminal")
    else do
      let positions : List OpenPosition ← perform (ManagementOp.getPositions u.symbol)
      if positions.isEmpty then processFlat u else processOpen u positions) es' fun _ _ => True := by
    intro proved es' h
    split
    · trivial
    refine keeps_plain_bind (opsIn_perform rfl) fun positions es₁ hw₁ => ?_
    split
    · exact keeps_quiet (quiet_processFlat u)
    · exact keeps_processOpen positions fun oid => (h oid).plain hw₁
  unfold processEligible
  dsimp only
  split
  · exact keeps_sweeps_bind (sweeps_cancelOwnedEntries _ _) h hproved
  · exact hproved true es h

variable (x : SourceManagementExecutor)

theorem keeps_process (h : ∀ oid, NotSent es oid) : Keeps (x.process u) es fun _ _ => True := by
  have hasked : ∀ (moved : Bool) es', (moved = false → ∀ oid, NotSent es' oid) →
      Keeps (if moved then do
          reconcileStopLoss u.slOid
          finishWith u .reconciled none "reconciled"
        else do
          let eligible : Bool ← perform (ManagementOp.managementIsEligible u.id)
          if eligible then processEligible u else processIneligible u) es' fun _ _ => True := by
    intro moved es' h
    cases moved with
    | true =>
      exact keeps_quiet (quiet_of_plain (opsIn_bind (fun _ => plain_finishWith _ _ _ _)
        (plain_reconcileStopLoss _)))
    | false =>
      refine keeps_plain_bind (opsIn_perform rfl) fun eligible es₁ hw₁ => ?_
      split
      · exact keeps_processEligible fun oid => (h rfl oid).plain hw₁
      · exact keeps_quiet (quiet_processIneligible u)
  unfold SourceManagementExecutor.process
  split
  · exact keeps_quiet (quiet_of_plain (plain_finishWith _ _ _ _))
  dsimp only
  split
  · refine obeys_perform_bind (protocol_of_silent _ _ rfl) (fun moved _ => ?_)
      fun _ _ => trivial
    refine hasked moved _ fun hmoved oid => ?_
    subst hmoved
    exact (h oid).append (by simp [ManagementOp.effect]) rfl
  · exact hasked false es fun _ => h

theorem plain_conclude (result : Except ManagementError (Option String)) :
    Plain (x.conclude u result) := by
  unfold SourceManagementExecutor.conclude
  split
  · trivial
  · exact opsIn_bind_pure (plain_finish _ _ _)
  · exact opsIn_bind_pure (opsIn_perform rfl)
  · exact opsIn_bind_pure (plain_finish _ _ _)
  · trivial

theorem keeps_cycle (workerId : String) : Keeps (x.runOnce workerId) [] fun _ _ => True := by
  refine keeps_plain_bind (opsIn_perform rfl) fun claimed es₁ hw₁ => ?_
  split
  · trivial
  · refine obeys_bind.mpr (obeys_attempt.mpr ((keeps_process x fun oid =>
      notSent_nil.plain hw₁).imp fun es₂ r _ => ?_))
    exact keeps_quiet (quiet_of_plain (plain_conclude x r))

end Cycle

/-! ## Runs -/

/-- Each effect was sent at most once, and is sent only where its intent is recorded. A cycle that
found an intent sends nothing any more, and what a cycle sends besides effects are cancellations. -/
structure EffectsFenced (t : ManagementState) : Prop where
  once : ∀ oid, t.trace.countP (fun q => sends oid q.2) ≤ 1
  recorded : ∀ n workerId o oid, t.next n = some (workerId, o) → o.effect = some oid →
    oid ∈ t.world.providerIntents
  found : ∀ n es e es', own n t.trace = es ++ e :: es' → finds e = true →
    ∀ e' ∈ es', e'.op.posts = false
  cancels : ∀ q ∈ t.trace, q.2.op.effect = none → q.2.op.Safe

section Steps

variable {x : SourceManagementExecutor} {w : ManagementWorld} {c : ManagementChoice}
  {s t : ManagementState} {n : ℕ} {workerId : String} {oid : ManagementOid}

theorem commit_providerIntents {α : Type} {w' : ManagementWorld}
    (h : w'.providerIntents = w.providerIntents) (a : α) :
    (c.commit w w' a).2.providerIntents = w.providerIntents := by
  unfold ManagementChoice.commit
  split
  · exact h
  · exact h
  · rfl

theorem store_providerIntents {α : Type} (tx : Except DbError (Db × α)) :
    (c.store w tx).2.providerIntents = w.providerIntents := by
  unfold ManagementChoice.store
  split
  · rfl
  · exact commit_providerIntents (by rfl) _

theorem claim_providerIntents (eligible locked : Uuid → Bool) :
    (w.claim eligible locked).1.providerIntents = w.providerIntents := by
  unfold ManagementWorld.claim
  split <;> rfl

theorem park_providerIntents {id : Uuid} {error : String} {retrySeconds maxAttempts : ℕ}
    {p : ManagementWorld × UpdateState}
    (h : w.park id error retrySeconds maxAttempts = some p) :
    p.1.providerIntents = w.providerIntents := by
  unfold ManagementWorld.park at h
  split at h
  · cases h
  · obtain rfl := Option.some.inj h
    dsimp only
    split <;> rfl

/-- What an operation does to the recorded intents : nothing, or it records a new one. -/
theorem providerIntents_exec (o : ManagementOp) :
    (managementExec w c o).2.providerIntents = w.providerIntents ∨
      ∃ oid, o = .persistProviderIntent oid ∧ oid ∉ w.providerIntents ∧
        (managementExec w c o).2.providerIntents = oid :: w.providerIntents := by
  cases o with
  | persistProviderIntent oid =>
    simp only [managementExec]
    split
    · exact Or.inl (commit_providerIntents rfl _)
    next hnew =>
      unfold ManagementChoice.commit
      split
      · exact Or.inr ⟨oid, rfl, hnew, rfl⟩
      · exact Or.inr ⟨oid, rfl, hnew, rfl⟩
      · exact Or.inl rfl
  | claim workerId =>
    simp only [managementExec]
    split
    · exact Or.inl rfl
    · exact Or.inl (commit_providerIntents (claim_providerIntents _ _) _)
  | park id error retrySeconds maxAttempts =>
    simp only [managementExec]
    split
    · exact Or.inl rfl
    next hpark => exact Or.inl (commit_providerIntents (park_providerIntents hpark) _)
  | saveIntent record => exact Or.inl (store_providerIntents _)
  | claimIntent record => exact Or.inl (store_providerIntents _)
  | updateIntent record => exact Or.inl (store_providerIntents _)
  | updateState id state =>
    simp only [managementExec]
    exact Or.inl (commit_providerIntents (by rfl) _)
  | alertOutcome u state error =>
    simp only [managementExec]
    exact Or.inl (commit_providerIntents (by rfl) _)
  | _ => exact Or.inl rfl

theorem providerIntents_subset (o : ManagementOp) :
    w.providerIntents ⊆ (managementExec w c o).2.providerIntents := by
  rcases providerIntents_exec (w := w) (c := c) o with heq | ⟨oid, -, -, heq⟩
  · rw [heq]
    exact List.Subset.refl _
  · rw [heq]
    exact List.subset_cons_self _ _

/-- An intent that an operation recorded is new, and stays. -/
theorem new_of_records {o : ManagementOp} (h : records oid ⟨o, (managementExec w c o).1⟩ = true) :
    oid ∉ w.providerIntents ∧ oid ∈ (managementExec w c o).2.providerIntents := by
  cases o with
  | persistProviderIntent oid' =>
    simp only [managementExec] at h ⊢
    by_cases hmem : oid' ∈ w.providerIntents
    · rw [if_pos hmem] at h
      unfold ManagementChoice.commit at h
      split at h <;> simp [records] at h
    · rw [if_neg hmem] at h ⊢
      unfold ManagementChoice.commit at h ⊢
      cases hdelivery : c.delivery <;> simp [records, hdelivery] at h
      subst h
      exact ⟨hmem, List.mem_cons_self⟩
  | _ => simp [records] at h

/-- Every intent was recorded once, and each cycle sent and found what its protocol says. -/
structure Recorded (s : ManagementState) : Prop where
  once : ∀ oid, s.trace.countP (fun q => records oid q.2) ≤ 1
  durable : ∀ oid, ∀ q ∈ s.trace, records oid q.2 = true → oid ∈ s.world.providerIntents
  sent : ∀ n oid, (own n s.trace).countP (sends oid) ≤ (own n s.trace).countP (records oid)
  found : ∀ n es e es', own n s.trace = es ++ e :: es' → finds e = true →
    ∀ e' ∈ es', e'.op.posts = false
  cancels : ∀ q ∈ s.trace, q.2.op.effect = none → q.2.op.Safe

theorem recorded_init (w : ManagementWorld) : Recorded (State.init w) where
  once oid := by simp [State.init]
  durable oid q hq := by simp [State.init] at hq
  sent n oid := by simp [State.init]
  found n es e es' h := by simp [State.init] at h
  cancels q hq := by simp [State.init] at hq

theorem recorded_act (h : Recorded s) {o : ManagementOp} {k : _}
    (hφ : ManagementProtocol (own n s.trace) o) :
    Recorded (s.acted n workerId ⟨o, (managementExec s.world c o).1⟩ k
      (managementExec s.world c o).2) := by
  set e : ManagementEvent := ⟨o, (managementExec s.world c o).1⟩ with he
  refine ⟨fun oid => ?_, fun oid q hq hrec => ?_, fun m oid => ?_, fun m es e₀ es' hsplit hfinds => ?_,
    fun q hq heffect => ?_⟩
  · -- a second record of the intent would find it recorded
    simp only [State.acted, List.countP_append, List.countP_singleton]
    split
    next hrec =>
      have hnone : s.trace.countP (fun q => records oid q.2) = 0 := by
        refine List.countP_eq_zero.mpr fun q hq hrec' => ?_
        exact (new_of_records hrec).1 (h.durable oid q hq hrec')
      omega
    · simpa using h.once oid
  · rcases List.mem_append.mp hq with hq | hq
    · exact providerIntents_subset o (h.durable oid q hq hrec)
    · obtain rfl := List.mem_singleton.mp hq
      exact (new_of_records hrec).2
  · by_cases hm : m = n
    · subst hm
      simp only [State.acted, own_snoc_self, List.countP_append, List.countP_singleton]
      have hsent := h.sent m oid
      by_cases hsends : sends oid e = true
      · have heffect : o.effect = some oid := by simpa [sends] using hsends
        unfold ManagementProtocol at hφ
        rw [heffect] at hφ
        obtain ⟨-, hnot, e', he', hrec⟩ := hφ
        have hzero : (own m s.trace).countP (sends oid) = 0 :=
          List.countP_eq_zero.mpr fun e' he' hs => hnot e' he' (by simpa [sends] using hs)
        have hpos : 0 < (own m s.trace).countP (records oid) := List.countP_pos_iff.mpr ⟨e', he', hrec⟩
        rw [if_pos hsends, hzero]
        omega
      · rw [if_neg hsends]
        omega
    · simpa [State.acted, own_snoc_ne (Ne.symm hm)] using h.sent m oid
  · by_cases hm : m = n
    · subst hm
      rw [State.acted, own_snoc_self] at hsplit
      rcases split_snoc hsplit with ⟨-, -, rfl⟩ | ⟨es'', rfl, hold⟩
      · simp
      · intro e' he'
        rcases List.mem_append.mp he' with he' | he'
        · exact h.found m es e₀ es'' hold hfinds e' he'
        · obtain rfl := List.mem_singleton.mp he'
          by_contra hposts
          have hfound := hφ.1 (Bool.eq_true_of_not_eq_false hposts) e₀ (by rw [hold]; simp)
          rw [hfinds] at hfound
          cases hfound
    · rw [State.acted, own_snoc_ne (Ne.symm hm)] at hsplit
      exact h.found m es e₀ es' hsplit hfinds
  · rcases List.mem_append.mp hq with hq | hq
    · exact h.cancels q hq heffect
    · obtain rfl := List.mem_singleton.mp hq
      unfold ManagementProtocol at hφ
      rw [show o.effect = none from heffect] at hφ
      exact hφ.2

theorem managers_follow (x : SourceManagementExecutor) :
    (managers x).Follows (fun _ _ => True) fun _ => ManagementProtocol := fun workerId => by
  refine obeys_bind.mpr ((keeps_cycle x workerId).imp fun es r _ => ?_)
  cases r <;> trivial

theorem recorded_run {ls : List ManagementLabel}
    (hrun : Run (managers x).Step (State.init w) ls t) :
    System.Sound (fun _ _ => True) (fun _ => ManagementProtocol) t ∧ Recorded t := by
  have hguard : Run (Guard (managers x).Step fun _ _ => True) (State.init w) ls t :=
    hrun.mono fun _ _ _ h => ⟨trivial, h⟩
  refine System.inv (fun _ _ _ _ _ _ => trivial) (managers_follow x) ?_ ?_ ?_ (System.sound_init w)
    (recorded_init w) hguard
  · intro s i _ h _
    exact ⟨h.once, h.durable, h.sent, h.found, h.cancels⟩
  · intro s n i o k c r w _ h hn hφ hx _
    obtain ⟨rfl, rfl⟩ := Prod.mk.inj (Option.some.inj hx)
    exact recorded_act h hφ
  · intro s e w _ h he _
    have hintents : w.providerIntents = s.world.providerIntents := by
      cases e with
      | enroll u deadline =>
        obtain rfl := Option.some.inj he
        rfl
      | tick now =>
        obtain ⟨-, he⟩ := Option.ite_none_right_eq_some.mp he
        obtain rfl := Option.some.inj he
        rfl
      | ledger db =>
        obtain rfl := Option.some.inj he
        rfl
    exact ⟨h.once, fun oid q hq hrec => hintents ▸ h.durable oid q hq hrec, h.sent, h.found, h.cancels⟩

end Steps

/-- In every run of any number of cycles, from any store, each effect is sent at most once and after
its intent, a cycle that found an intent sends nothing from then on, and what else a cycle sends are
cancellations of entries. -/
theorem effects_fenced (x : SourceManagementExecutor) (w : ManagementWorld)
    {ls : List ManagementLabel} {t : ManagementState}
    (hrun : Run (managers x).Step (State.init w) ls t) : EffectsFenced t := by
  obtain ⟨hsound, h⟩ := recorded_run hrun
  refine ⟨fun oid => ?_, fun n workerId o oid hnext heffect => ?_, h.found, h.cancels⟩
  · exact (countP_le_of_own (Nat.le_refl _) fun n => h.sent n oid).trans (h.once oid)
  · obtain ⟨k, hn⟩ := State.next_eq_some.mp hnext
    have hφ := System.protocol_of_sound hsound hn
    unfold ManagementProtocol at hφ
    rw [heffect] at hφ
    obtain ⟨-, -, e, he, hrec⟩ := hφ
    exact h.durable oid (n, e) (mem_own.mp he) hrec

/-! ## A cancellation before an intent is found -/

def closeUpdate : SourceManagementUpdate := ⟨7, "BTCUSDT", .close⟩

def closeUnknown : LiveIntentRecord where
  clientOid := closeUpdate.closeOid.text
  symbol := "BTCUSDT"
  side := .sell
  role := .close
  state := .unknown
  requestedQty := 4

def waitingEntry : LiveIntentRecord where
  clientOid := marketOid
  symbol := "BTCUSDT"
  side := .buy
  state := .acknowledged
  requestedQty := 4
  plannedMarginUsdt := some 5
  balanceSnapshotId := some 10
  marginReservationId := some 11
  dispatchId := some 1
  orderType := .limit
  limitPrice := some 100

/-- The ledger with a waiting limit entry next to a close whose result is unknown. -/
def waitingLedger : Db :=
  { admittedDb with
    intents := ⟨[⟨closeUnknown, 0, by decide +kernel⟩, ⟨waitingEntry, 1, by decide +kernel⟩],
      by decide +kernel⟩ }

def fiveAttempts : SourceManagementExecutor := ⟨true, 5, 60, by decide⟩

/-- The position stays open, and a close has an unknown result. -/
def stillOpen : ManagementChoice where
  entry := .passing
  positions := .ok [⟨.long, 4, .value 100⟩]

/-- The detail of the waiting entry. -/
def waitingOrder (state : String) : ManagementChoice :=
  let detail : OrderDetail :=
    { state, clientOid := marketOid, symbol := "BTCUSDT", side := "BUY", orderType := "limit",
      reduceOnly := "NO", price := some (some 100), size := some (some 4) }
  { stillOpen with
    entry := { EntryChoice.passing with
      reading := ⟨.found detail, .page [] false, .rows [], .rows []⟩ } }

/-- The first cycle sends the close. Before the second, a limit entry of the symbol is waiting. -/
def closeRetried : List ManagementLabel :=
  ([.env (.enroll closeUpdate 1000000), .start "worker"] : List ManagementLabel) ++
    (List.replicate 14 (.act 0 stillOpen) : List ManagementLabel) ++
    ([.env (.tick 100000000), .env (.ledger waitingLedger), .start "worker"] :
      List ManagementLabel) ++
    (List.replicate 7 (.act 1 stillOpen) : List ManagementLabel) ++
    ([.act 1 (waitingOrder "live"), .act 1 stillOpen, .act 1 stillOpen,
      .act 1 (waitingOrder "canceled")] : List ManagementLabel) ++
    (List.replicate 7 (.act 1 stillOpen) : List ManagementLabel)

/-- The second cycle finds the intent of the close, after it cancelled the entry. -/
theorem cancelled_before_found :
    ∃ t, Run (managers fiveAttempts).Step (State.init {}) closeRetried t ∧
      (∃ e ∈ own 1 t.trace, finds e = true) ∧ ∃ e ∈ own 1 t.trace, e.op.posts = true := by
  have hreplay : (replay (managers fiveAttempts).step (State.init {}) closeRetried).map
      (fun t => ((own 1 t.trace).any finds, (own 1 t.trace).any fun e => e.op.posts)) =
        some (true, true) := by decide +kernel
  obtain ⟨t, ht, hsummary⟩ := Option.map_eq_some_iff.mp hreplay
  obtain ⟨hfinds, hposts⟩ := Prod.mk.inj hsummary
  exact ⟨t, run_of_replay (fun _ _ _ h => h) ht, List.any_eq_true.mp hfinds,
    List.any_eq_true.mp hposts⟩

theorem closeRetried_fenced :
    ∃ t, Run (managers fiveAttempts).Step (State.init {}) closeRetried t ∧ EffectsFenced t := by
  have hreplay : (replay (managers fiveAttempts).step (State.init {}) closeRetried).isSome = true := by
    decide +kernel
  obtain ⟨t, ht⟩ := Option.isSome_iff_exists.mp hreplay
  have hrun : Run (managers fiveAttempts).Step (State.init {}) closeRetried t :=
    run_of_replay (fun _ _ _ h => h) ht
  exact ⟨t, hrun, effects_fenced fiveAttempts {} hrun⟩

end FattyTrader
