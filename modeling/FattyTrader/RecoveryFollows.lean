import FattyTrader.EntryFollows
import Mathlib.Data.List.ReduceOption

/-!
# Recovery, cancellation and the dispatcher follow their protocol

The lemmas of `EntryFollows` go on with the functions around a submission. A settlement
knows which closes it collected and that the position was just read as flat
(`follows_closedLifecycle`), recovery what it read back of a candidate (`Recovered`). The
result is `entryProtocol_follows`, of every call.
-/

set_option linter.unusedSectionVars false

namespace FattyTrader

open Programs Prog

variable {x : BitgetDispatchExecution} {i : EntryCall} {d : BitgetDispatch} {id : Uuid}
  {es : List EntryEvent} {s : BitgetEntrySubmission} {α β : Type}

/-! ## Settlement -/

theorem reads_each_get (ids : List String) :
    (each ids fun oid => ask (.get oid)).OpsIn EntryOp.Reads :=
  opsIn_each fun _ _ => opsIn_perform rfl

/-- The answers of a loop of reads, in its order. -/
theorem follows_each_get :
    ∀ {ids : List String} {es : List EntryEvent} {Q : List EntryEvent →
        Except ExecutionError (List (Option LiveIntentRecord)) → Prop},
      (∀ es' answers, Within EntryOp.Reads es es' →
        List.Forall₂ (fun oid a => (⟨.get oid, .ok a⟩ : EntryEvent) ∈ es') ids answers →
        (∀ r, some r ∈ answers → (⟨.get r.clientOid, .ok (some r)⟩ : EntryEvent) ∈ es') →
        Q es' (.ok answers)) →
      (∀ e es', Q es' (.error e)) → Follows x i (each ids fun oid => ask (.get oid)) es Q
  | [], es, _, hok, _ => hok es [] (.refl es) .nil (by simp)
  | oid :: ids, es, _, hok, herr => by
    refine obeys_perform_bind trivial (fun a ha => ?_) fun e _ => herr e _
    have hw₁ : Within EntryOp.Reads es (es ++ [⟨.get oid, .ok a⟩]) := .snoc rfl
    refine obeys_bind.mpr (follows_each_get (fun es' answers hw h hread => ?_)
      fun e es' => herr e es')
    have hmem : (⟨.get oid, .ok a⟩ : EntryEvent) ∈ es' := hw.subset (by simp)
    refine hok es' (a :: answers) (hw₁.trans hw) (.cons hmem h) fun r hr => ?_
    rcases List.mem_cons.mp hr with rfl | hr
    · have hoid : r.clientOid = oid := ha
      rw [hoid]
      exact hmem
    · exact hread r hr

theorem follows_getAll {ids : List String}
    {Q : List EntryEvent → Except ExecutionError (List LiveIntentRecord) → Prop}
    (hok : ∀ es' records, Within EntryOp.Reads es es' → ReadAll es' ids records →
      Q es' (.ok records)) (herr : ∀ e es', Q es' (.error e)) :
    Follows x i (BitgetDispatchExecution.getAll ids) es Q := by
  refine obeys_bind.mpr (follows_each_get (fun es' answers hw h _ => ?_) fun e es' => herr e es')
  exact hok es' _ hw ⟨answers, h, rfl⟩

theorem ReadAll.mono {es' : List EntryEvent} {ids : List String} {records : List LiveIntentRecord}
    (h : ReadAll es ids records) (hs : es ⊆ es') : ReadAll es' ids records := by
  obtain ⟨answers, hall, rfl⟩ := h
  exact ⟨answers, hall.imp fun _ _ h => hs h, rfl⟩

/-- The collected closes are the three reads, in their order. -/
theorem follows_collectCloses {intent : LiveIntentRecord}
    {Q : List EntryEvent → Except ExecutionError (List LiveIntentRecord) → Prop}
    (hok : ∀ es' records, Within EntryOp.Reads es es' → Collected es' intent records →
      Q es' (.ok records)) (herr : ∀ e es', Q es' (.error e)) :
    Follows x i (BitgetDispatchExecution.collectCloses intent) es Q := by
  refine obeys_bind.mpr (follows_getAll (fun es₁ direct hw₁ hdirect => ?_) fun e es₁ => herr e es₁)
  refine obeys_perform_bind trivial (fun ids _ => ?_) fun e _ => herr e _
  refine obeys_bind.mpr (follows_getAll (fun es₂ protection hw₂ hprotection => ?_)
    fun e es₂ => herr e es₂)
  refine obeys_perform_bind trivial (fun symbolCloses _ => ?_) fun e _ => herr e _
  have hw : Within EntryOp.Reads es₂
      (es₂ ++ [⟨.symbolCloseIntents intent.symbol, .ok symbolCloses⟩]) := .snoc rfl
  have hw₁' : Within EntryOp.Reads es₁
      (es₁ ++ [⟨.protectionIntentIds intent.clientOid, .ok ids⟩]) := .snoc rfl
  refine hok _ _ (((hw₁.trans hw₁').trans hw₂).trans hw)
    ⟨direct, ids, protection, symbolCloses, ?_, ?_, hprotection.mono hw.subset, by simp, rfl⟩
  · exact hdirect.mono ((hw₁'.trans hw₂).trans hw).subset
  · exact (hw₂.trans hw).subset (by simp)

/-- A lifecycle is settled with a flat position and closes that cover its fills. -/
theorem follows_closedLifecycle {intent : LiveIntentRecord}
    {Q : List EntryEvent → Except ExecutionError Bool → Prop} (hpos : 0 < intent.filledQty)
    (hbase : ∃ root, (⟨.update root, .ok ()⟩ : EntryEvent) ∈ es ∧
      (intent = root ∨ ∃ limit, Held es limit ∧ aggregateSplit root limit = some intent))
    (hsettled : ∀ es', es ⊆ es' → (⟨.update intent.settled, .ok ()⟩ : EntryEvent) ∈ es' →
      Q es' (.ok true))
    (hopen : ∀ es', es ⊆ es' → Q es' (.ok false)) (herr : ∀ e es', Q es' (.error e)) :
    Follows x i (BitgetDispatchExecution.closedLifecycle intent) es Q := by
  refine obeys_bind.mpr (follows_collectCloses (fun es₁ records hw₁ hc => ?_) fun e es₁ =>
    herr e es₁)
  rw [then_ok]
  split
  · exact hopen es₁ hw₁.subset
  next hle =>
    refine obeys_bind.mpr (obeys_attempt.mpr (follows_ask trivial fun a => ?_))
    have hsub : es ⊆ es₁ ++ [⟨.positionIsFlat intent.symbol, a⟩] := fun e he =>
      List.mem_append_left _ (hw₁.subset he)
    rcases a with e | _ | _
    · exact hopen _ hsub
    · exact hopen _ hsub
    · have hsettles : Settles (es₁ ++ [⟨.positionIsFlat intent.symbol, .ok true⟩]) intent := by
        refine ⟨⟨es₁, rfl⟩, ⟨records, ?_, not_lt.mp hle⟩, hpos, ?_⟩
        · obtain ⟨direct, ids, protection, closes, h₁, h₂, h₃, h₄, h₅⟩ := hc
          exact ⟨direct, ids, protection, closes, h₁.mono (List.subset_append_left _ _),
            List.mem_append_left _ h₂, h₃.mono (List.subset_append_left _ _),
            List.mem_append_left _ h₄, h₅⟩
        · obtain ⟨root, hroot, h⟩ := hbase
          exact ⟨root, hsub hroot, h.imp_right fun ⟨limit, hl, ha⟩ => ⟨limit, hl.mono hsub, ha⟩⟩
      refine obeys_perform_bind (.settled hsettles) (fun _ _ => ?_) fun e _ => herr e _
      exact hsettled _ (fun e he => List.mem_append_left _ (hsub he)) (by simp)

/-! ## Recovery -/

/-- A rejected readback that was persisted : the reason to release the reservation. -/
def RejectedRead (es : List EntryEvent) (intent : LiveIntentRecord) : Prop :=
  ∃ r result, Held es r ∧ intent.marginReservationId = r.marginReservationId ∧
    Reports es r.clientOid result ∧ result.status = .rejected ∧
    (⟨.update (r.readBack result), .ok ()⟩ : EntryEvent) ∈ es

theorem RejectedRead.mono {es' : List EntryEvent} {intent : LiveIntentRecord}
    (h : RejectedRead es intent) (hs : es ⊆ es') : RejectedRead es' intent := by
  obtain ⟨r, result, held, hid, hr, hrej, hp⟩ := h
  exact ⟨r, result, held.mono hs, hid, hr.mono hs, hrej, hs hp⟩

theorem RejectedRead.reason {intent : LiveIntentRecord} (h : RejectedRead es intent)
    (hid : intent.marginReservationId = some id) : ReleaseReason x es i id := by
  obtain ⟨r, result, held, hr, hreports, hrej, hp⟩ := h
  exact .rejected held (hr ▸ hid) hreports hrej hp

/-- What recovery knows of a candidate it has read back. -/
structure Recovered (es : List EntryEvent) (oid : String) (intent : LiveIntentRecord)
    (result : AsyncExecutionResult) : Prop where
  oid_eq : intent.clientOid = oid
  filled_eq : intent.filledQty = result.filledQty
  base : ∃ root, (⟨.update root, .ok ()⟩ : EntryEvent) ∈ es ∧
    (intent = root ∨ ∃ limit, Held es limit ∧ aggregateSplit root limit = some intent)
  rejected : result.status = .rejected → RejectedRead es intent

theorem Recovered.mono {es' : List EntryEvent} {oid : String} {intent : LiveIntentRecord}
    {result : AsyncExecutionResult} (h : Recovered es oid intent result) (hs : es ⊆ es') :
    Recovered es' oid intent result where
  oid_eq := h.oid_eq
  filled_eq := h.filled_eq
  base := by
    obtain ⟨root, hroot, h⟩ := h.base
    exact ⟨root, hs hroot, h.imp_right fun ⟨limit, hl, ha⟩ => ⟨limit, hl.mono hs, ha⟩⟩
  rejected hr := (h.rejected hr).mono hs

theorem aggregateResult_not_rejected (r : LiveIntentRecord) :
    (aggregateResult r).status ≠ .rejected := by
  unfold aggregateResult
  dsimp only
  split
  · simp
  · split
    · simp
    · split <;> simp

/-- Recovery writes what it reads back of a candidate, and of its child. -/
theorem follows_recoverReadback {intent : LiveIntentRecord} {limit : Option LiveIntentRecord}
    {Q : List EntryEvent → Except ExecutionError (LiveIntentRecord × AsyncExecutionResult) → Prop}
    (held : Held es intent) (hlimit : ∀ l, limit = some l → Held es l)
    (hok : ∀ es' p, es ⊆ es' → Recovered es' intent.clientOid p.1 p.2 → Q es' (.ok p))
    (herr : ∀ e es', Q es' (.error e)) :
    Follows x i (BitgetDispatchExecution.recoverReadback intent limit) es Q := by
  refine follows_readIntent_bind (fun result es₁ hw₁ hr => ?_) fun e es₁ _ => herr e es₁
  refine follows_persistReadback_bind (held.mono hw₁.subset) hr (fun _ => ?_) fun e es₂ => herr e es₂
  refine follows_reads_bind (reads_reconcilePostFill _ _) (fun _ es₂ hw₂ => ?_)
    fun e es₂ _ => herr e es₂
  have hsub₁ : es₁ ⊆ es₂ := fun e he => hw₂.subset (List.mem_append_left _ he)
  have hsub : es ⊆ es₂ := fun e he => hsub₁ (hw₁.subset he)
  have hupdate : (⟨.update (intent.readBack result), .ok ()⟩ : EntryEvent) ∈ es₂ :=
    hw₂.subset (by simp)
  cases limit with
  | none =>
    exact hok es₂ _ hsub ⟨rfl, rfl, ⟨_, hupdate, Or.inl rfl⟩, fun hrej =>
      ⟨intent, result, held.mono hsub, rfl, hr.mono hsub₁, hrej, hupdate⟩⟩
  | some l =>
    refine follows_required_bind (fun aggregate ha => ?_) fun e => herr _ _
    refine follows_reads_bind (reads_reconcilePostFill _ _) (fun _ es₃ hw₃ => ?_)
      fun e es₃ _ => herr e es₃
    exact hok es₃ _ (fun e he => hw₃.subset (hsub he))
      ⟨(clientOid_of_aggregateSplit ha).2.1, rfl, ⟨_, hw₃.subset hupdate, Or.inr ⟨l,
        (hlimit l rfl).mono fun e he => hw₃.subset (hsub he), ha⟩⟩,
        fun hrej => absurd hrej (aggregateResult_not_rejected _)⟩

/-- The dispatch and the reservation of a settled lifecycle are closed. -/
theorem follows_recoverSettled {intent : LiveIntentRecord}
    {Q : List EntryEvent → Except ExecutionError (Option String) → Prop}
    (hclose : Closes x es d.id) (hQ : ∀ es' a, Q es' a) :
    Follows x i (BitgetDispatchExecution.recoverSettled d intent) es Q := by
  refine obeys_perform_bind ⟨fun _ => rfl, fun h => by cases h⟩ (fun _ _ => ?_) fun e _ => hQ _ _
  refine obeys_perform_bind ⟨fun _ => rfl, fun _ => ?_⟩ (fun _ _ => ?_) fun e _ => hQ _ _
  · obtain ⟨r, d', hmem, hrest⟩ := hclose
    exact ⟨r, d', List.mem_append_left _ hmem, hrest⟩
  · exact follows_resolve_bind not_release_filled (fun _ _ => hQ _ _) fun _ _ => hQ _ _

theorem reads_recoverProtection (oid : String) (intent : LiveIntentRecord) :
    (BitgetDispatchExecution.recoverProtection oid intent).OpsIn EntryOp.Reads := by
  refine opsIn_bind (fun expected => ?_) (opsIn_perform rfl)
  refine opsIn_bind (fun protection => ?_) (reads_readRecoveryProtection _ _)
  split
  · trivial
  · exact opsIn_bind_pure (opsIn_perform rfl)

theorem recoveryTarget_not_entry (status : LiveOrderStatus) :
    (recoveryTarget status).entry = false ∧ recoveryTarget status ≠ .closed := by
  cases status <;> simp [recoveryTarget, DispatchState.entry]

/-- A candidate that is still open releases its reservation only when the venue rejected it. -/
theorem follows_recoverOpen {oid : String} {intent : LiveIntentRecord}
    {result : AsyncExecutionResult} {split : Bool}
    {Q : List EntryEvent → Except ExecutionError (Option String) → Prop}
    (hrej : result.status = .rejected → RejectedRead es intent) (hQ : ∀ es' a, Q es' a) :
    Follows x i (BitgetDispatchExecution.recoverOpen d oid intent result split) es Q := by
  have hmove : ∀ (reason : String) es', es ⊆ es' → Follows x i
      (ask (.transition d.id d.state (recoveryTarget result.status)) >>= fun _ =>
        resolveReservation intent (dispatcherStatus result.status) >>= fun _ =>
          pure (if reason = "recovery-protection-verified" ∨
              reason = "recovery-protection-locally-managed" ∨ result.status = .rejected ∨
              (split ∧ result.filledQty = 0 ∧ result.status = .accepted) then none
            else some reason)) es' Q := by
    intro reason es' hes
    obtain ⟨htarget, hclosed⟩ := recoveryTarget_not_entry result.status
    refine obeys_perform_bind ⟨fun _ => htarget, fun h => absurd h hclosed⟩ (fun _ _ => ?_)
      fun e _ => hQ _ _
    refine obeys_bind.mpr (follows_resolveReservation (fun id hid ht => ?_) (hQ _ _) fun id a => ?_)
    · exact ((hrej (status_of_release ht)).mono fun e he =>
        List.mem_append_left _ (hes he)).reason hid
    · cases a <;> exact hQ _ _
  unfold BitgetDispatchExecution.recoverOpen
  dsimp only
  split
  · exact follows_reads_bind (reads_recoverProtection _ _)
      (fun reason es' hw => hmove reason es' hw.subset) fun e es' _ => hQ _ _
  · exact hmove _ es (List.Subset.refl _)

/-- The recovery of one candidate : its readback, then its settlement or what is still open. -/
theorem follows_recoverCandidate {candidate : BitgetDispatch × String}
    {Q : List EntryEvent → Except ExecutionError (Option String) → Prop}
    (hQ : ∀ es' a, Q es' a) : Follows x i (x.recoverCandidate candidate) es Q := by
  obtain ⟨d, oid⟩ := candidate
  unfold BitgetDispatchExecution.recoverCandidate
  dsimp only
  refine obeys_perform_bind trivial (fun fetched hfetched => ?_) fun e _ => hQ _ _
  refine follows_required_bind (fun intent h => ?_) fun e => hQ _ _
  subst h
  have hoid : intent.clientOid = oid := hfetched
  split
  swap
  · exact hQ _ _
  next howned =>
    simp only [BitgetDispatchExecution.recoveryOwned, Bool.and_eq_true, decide_eq_true_eq] at howned
    have hclient : intent.clientOid = x.clientOid d := howned.1.1.2
    refine obeys_perform_bind trivial (fun child hchild => ?_) fun e _ => hQ _ _
    set es₁ := es ++ [(⟨.get oid, .ok (some intent)⟩ : EntryEvent)] ++
      [⟨.get (limitOid intent.clientOid), .ok child⟩] with hes₁
    have held : Held es₁ intent := .read (by simp [hes₁, hoid])
    have hclosed : ∀ (settled : Bool) es' (p : LiveIntentRecord × AsyncExecutionResult)
        (limit : Option LiveIntentRecord),
        Recovered es' intent.clientOid p.1 p.2 →
        (settled = true → (⟨.update p.1.settled, .ok ()⟩ : EntryEvent) ∈ es') →
        Follows x i (if settled = true then BitgetDispatchExecution.recoverSettled d p.1
          else BitgetDispatchExecution.recoverOpen d oid p.1 p.2 limit.isSome) es' Q := by
      intro settled es' p limit hp hsettled
      split
      next hs =>
        exact follows_recoverSettled ⟨p.1.settled, d, hsettled hs, rfl, rfl,
          hp.oid_eq.trans hclient⟩ hQ
      · exact follows_recoverOpen hp.rejected hQ
    have hrest : ∀ (limit : Option LiveIntentRecord) es', es₁ ⊆ es' →
        (∀ l, limit = some l → Held es' l) → Follows x i
        (BitgetDispatchExecution.recoverReadback intent limit >>= fun p =>
          attempt (ask (.resolveNativeClose p.1.clientOid)) >>= fun _ =>
            if 0 < p.2.filledQty then
              BitgetDispatchExecution.closedLifecycle p.1 >>= fun settled =>
                if settled = true then BitgetDispatchExecution.recoverSettled d p.1
                else BitgetDispatchExecution.recoverOpen d oid p.1 p.2 limit.isSome
            else
              (pure false : EntryProg Bool) >>= fun settled =>
                if settled = true then BitgetDispatchExecution.recoverSettled d p.1
                else BitgetDispatchExecution.recoverOpen d oid p.1 p.2 limit.isSome)
        es' Q := by
      intro limit es' hes hheld
      refine obeys_bind.mpr (follows_recoverReadback (held.mono hes) hheld
        (fun es₂ p _ hp => ?_) fun e es₂ => hQ _ _)
      refine follows_reads_bind (opsIn_attempt (opsIn_perform rfl)) (fun _ es₃ hw₃ => ?_)
        fun e es₃ _ => hQ _ _
      have hp₃ := hp.mono hw₃.subset
      split
      next hpos =>
        refine obeys_bind.mpr (follows_closedLifecycle (hp₃.filled_eq ▸ hpos) hp₃.base
          (fun es₄ hs hset => ?_) (fun es₄ hs => ?_) fun e es₄ => hQ _ _)
        · exact hclosed true es₄ p limit (hp₃.mono hs) fun _ => hset
        · exact hclosed false es₄ p limit (hp₃.mono hs) (by simp)
      · exact hclosed false es₃ p limit hp₃ (by simp)
    split
    · refine follows_required_bind (fun limit h => ?_) fun e => hQ _ _
      subst h
      have hl : limit.clientOid = limitOid intent.clientOid := hchild
      refine obeys_bind.mpr (follows_reconcileWaitingLeg (by simp [hes₁, hl])
        (fun es₂ limit' hs hlimit' => ?_) fun e es₂ => hQ _ _)
      refine hrest (some limit') es₂ hs fun l h => ?_
      obtain rfl := Option.some.inj h
      exact hlimit'
    · refine hrest child es₁ (List.Subset.refl _) fun l h => ?_
      subst h
      have hl : l.clientOid = limitOid intent.clientOid := hchild
      exact .read (by simp [hes₁, hl])

/-- An orphan is released when it was among the candidates and read as empty. -/
theorem follows_retireOrphan {environment : Environment} {rows : List MarginReservation}
    {row : MarginReservation} {Q : List EntryEvent → Except ExecutionError Unit → Prop}
    (hrows : (⟨.orphanCandidates environment, .ok rows⟩ : EntryEvent) ∈ es) (hmem : row ∈ rows)
    (hQ : ∀ es' a, es ⊆ es' → Q es' a) :
    Follows x .recover (BitgetDispatchExecution.retireOrphan row) es Q := by
  unfold BitgetDispatchExecution.retireOrphan
  split
  · exact hQ _ _ (List.Subset.refl _)
  next owner _ =>
    refine obeys_bind.mpr (obeys_attempt.mpr (follows_ask trivial fun a => ?_))
    have hsub : es ⊆ es ++ [⟨.readSymbol owner.symbol, a⟩] := List.subset_append_left _ _
    rcases a with e | reading
    · exact hQ _ _ hsub
    · rw [then_ok]
      dsimp only
      split
      · refine follows_ask (fun _ => ?_) fun a => hQ _ _ fun e he => by simp [he]
        exact .orphan rfl (hsub hrows) hmem
      · exact hQ _ _ hsub

theorem reads_settleAbsentProtection :
    BitgetDispatchExecution.settleAbsentProtection.OpsIn EntryOp.Reads := by
  refine opsIn_bind (fun ids => ?_) (opsIn_perform rfl)
  refine opsIn_bind (fun intents => ?_) (opsIn_bind_pure (reads_each_get ids))
  refine opsIn_bind_pure (opsIn_each fun intent _ => ?_)
  unfold BitgetDispatchExecution.settleAbsentIntent
  split
  · trivial
  · refine opsIn_bind (fun a => ?_) (opsIn_attempt (opsIn_perform rfl))
    split
    · split
      · exact opsIn_bind_pure (opsIn_perform rfl)
      · trivial
    · trivial

/-- A recovery pass : every candidate, then the orphans. -/
theorem follows_recoverEntryLifecycles
    {Q : List EntryEvent → Except ExecutionError (List String) → Prop} (hQ : ∀ es' a, Q es' a) :
    Follows x .recover x.recoverEntryLifecycles es Q := by
  refine obeys_perform_bind trivial (fun _ _ => ?_) fun e _ => hQ _ _
  refine obeys_perform_bind trivial (fun candidates _ => ?_) fun e _ => hQ _ _
  refine obeys_bind.mpr (obeys_each (I := fun _ => True) (fun es₁ issues _ => ?_)
    (fun candidate _ es₁ _ => follows_recoverCandidate fun _ _ => trivial) trivial)
  cases issues with
  | error e => exact hQ _ _
  | ok issues =>
    have hsweep : ∀ {Q' : List EntryEvent → Except ExecutionError Unit → Prop},
        (∀ es' a, Q' es' a) → Follows x .recover x.retireProvedEmptyOrphans es₁ Q' := by
      intro Q' hQ'
      refine obeys_perform_bind trivial (fun rows _ => ?_) fun e _ => hQ' _ _
      refine obeys_bind.mpr (obeys_each
        (I := fun es' => (⟨.orphanCandidates x.environment, .ok rows⟩ : EntryEvent) ∈ es')
        (fun es₂ a _ => ?_) (fun row hmem es₂ hrows => ?_) (by simp))
      · cases a <;> exact hQ' _ _
      · exact follows_retireOrphan hrows hmem fun es₃ _ hs => hs hrows
    refine obeys_bind.mpr (hsweep fun es₂ a => ?_)
    cases a with
    | error e => exact hQ _ _
    | ok _ =>
      refine follows_reads_bind reads_settleAbsentProtection (fun _ es₃ _ => ?_)
        fun e es₃ _ => hQ _ _
      refine obeys_perform_bind trivial (fun inventory _ => ?_) fun e _ => hQ _ _
      exact obeys_perform_bind trivial (fun unresolved _ => hQ _ _) fun e _ => hQ _ _

/-! ## Cancellation -/

section Cancel

variable {symbol : String} {mid : Uuid} {ro : Bool}

theorem follows_pendingEntries {of : Option String} {by_ : Option Uuid}
    {Q : List EntryEvent → Except ExecutionError (List LiveIntentRecord) → Prop}
    (hok : ∀ es' records, (∀ r ∈ records, (⟨.get r.clientOid, .ok (some r)⟩ : EntryEvent) ∈ es') →
      Q es' (.ok records)) (herr : ∀ e es', Q es' (.error e)) :
    Follows x i (BitgetDispatchExecution.pendingEntries of by_) es Q := by
  refine obeys_perform_bind trivial (fun ids _ => ?_) fun e _ => herr e _
  refine obeys_bind.mpr (follows_each_get (fun es' answers _ _ hread => ?_) fun e es' => herr e es')
  rw [then_ok]
  split
  · exact herr _ _
  · exact hok es' _ fun r hr => hread r (List.reduceOption_mem_iff.mp hr)

/-- A readback of the adapter, whether or not it cancels. -/
theorem follows_cancelOrRead {r : LiveIntentRecord} {only : Bool}
    {Q : List EntryEvent → Except ExecutionError AsyncExecutionResult → Prop}
    (hok : ∀ es' result, es ⊆ es' → Reports es' r.clientOid result → Q es' (.ok result))
    (herr : ∀ e es', Q es' (.error e)) :
    Follows x (.cancel symbol mid ro) (BitgetDispatchExecution.cancelOrRead r only) es Q := by
  have hread : ∀ es', es ⊆ es' → Follows x (.cancel symbol mid ro) (readIntent r none) es' Q :=
    fun es' hes => follows_readIntent (fun result es₁ hw₁ hr =>
      hok es₁ result (fun e he => hw₁.subset (hes he)) hr) fun e es₁ _ => herr e es₁
  unfold BitgetDispatchExecution.cancelOrRead
  split
  · exact hread es (List.Subset.refl _)
  refine follows_readIntent_bind (fun before es₁ hw₁ hr => ?_) fun e es₁ _ => herr e es₁
  split
  · exact hok es₁ before hw₁.subset hr
  refine obeys_perform_bind ⟨symbol, mid, ro, rfl⟩ (fun won _ => ?_) fun e _ => herr e _
  cases won with
  | false =>
    exact hok _ before (fun e he => by simp [hw₁.subset he])
      (hr.mono (List.subset_append_left _ _))
  | true =>
    refine obeys_bind.mpr (obeys_attempt.mpr (follows_ask ⟨symbol, mid, ro, rfl⟩ fun a => ?_))
    have hread' := hread (es₁ ++ [⟨.claimCancelPost r.clientOid, .ok true⟩] ++
      [⟨.cancelEntryOrder r.symbol r.clientOid, a⟩]) fun e he => by simp [hw₁.subset he]
    rcases a with e | _
    · cases e with
      | unknownResult => exact hread'
      | provider => exact hread'
      | _ => exact herr _ _
    · exact hread'

/-- A cancellation goes on with the row it reads back after its claim. -/
theorem follows_claimedCancel {entry : LiveIntentRecord} {only : Bool}
    {Q : List EntryEvent → Except ExecutionError (Option LiveIntentRecord) → Prop}
    (hok : ∀ es' a, es ⊆ es' → (∀ r, a = some r →
      (⟨.get r.clientOid, .ok (some r)⟩ : EntryEvent) ∈ es' ∧ r.clientOid = entry.clientOid) →
      Q es' (.ok a))
    (herr : ∀ e es', Q es' (.error e)) :
    Follows x (.cancel symbol mid ro) (BitgetDispatchExecution.claimedCancel entry mid only) es
      Q := by
  have hget : ∀ es', es ⊆ es' → Follows x (.cancel symbol mid ro)
      (ask (.get entry.clientOid)) es' Q := by
    intro es' hes
    refine obeys_perform.mpr ⟨trivial, fun a ha => ?_⟩
    cases a with
    | error e => exact herr e _
    | ok a =>
      refine hok _ a (fun e he => List.mem_append_left _ (hes he)) ?_
      rintro r rfl
      have hr : r.clientOid = entry.clientOid := ha
      exact ⟨by simp [hr], hr⟩
  unfold BitgetDispatchExecution.claimedCancel
  dsimp only
  split
  · exact hget es (List.Subset.refl _)
  · exact obeys_perform_bind ⟨symbol, mid, ro, rfl⟩
      (fun _ _ => hget _ (List.subset_append_left _ _)) fun e _ => herr e _

/-- A cancelled single entry writes what the venue reported of it. -/
theorem follows_cancelSingle {entry : LiveIntentRecord} {only : Bool}
    {Q : List EntryEvent → Except ExecutionError Bool → Prop}
    (hQ : ∀ es' a, es ⊆ es' → Q es' (.ok a)) (herr : ∀ e es', Q es' (.error e)) :
    Follows x (.cancel symbol mid ro) (BitgetDispatchExecution.cancelSingle entry mid only) es
      Q := by
  refine obeys_bind.mpr (follows_claimedCancel (fun es₁ a hs hread => ?_) fun e es₁ => herr e es₁)
  cases a with
  | none => exact hQ _ _ hs
  | some refreshed =>
    refine obeys_bind.mpr (follows_cancelOrRead (fun es₂ result hs₂ hr => ?_)
      fun e es₂ => herr e es₂)
    have held : Held es₂ refreshed := .read (hs₂ (hread refreshed rfl).1)
    refine follows_persistReadback_bind held hr (fun _ => ?_) fun e es₃ => herr e es₃
    have hsub : es ⊆ es₂ ++ [⟨.update (refreshed.readBack result), .ok ()⟩] := fun e he =>
      List.mem_append_left _ (hs₂ (hs he))
    split
    · refine obeys_bind.mpr (follows_resolveReservation (fun id hid ht => ?_) (hQ _ _ hsub)
        fun id a => ?_)
      · exact .rejected (held.mono (List.subset_append_left _ _)) hid
          (hr.mono (List.subset_append_left _ _)) (status_of_release ht) (by simp)
      · cases a with
        | ok _ => exact hQ _ _ fun e he => List.mem_append_left _ (hsub he)
        | error e => exact herr e _
    · exact hQ _ _ hsub

theorem follows_cancelledLeg {limit : LiveIntentRecord} {only : Bool}
    {Q : List EntryEvent → Except ExecutionError LiveIntentRecord → Prop}
    (hread : (⟨.get limit.clientOid, .ok (some limit)⟩ : EntryEvent) ∈ es)
    (hQ : ∀ es' a, es ⊆ es' → Q es' (.ok a)) (herr : ∀ e es', Q es' (.error e)) :
    Follows x (.cancel symbol mid ro) (BitgetDispatchExecution.cancelledLeg limit only) es Q := by
  unfold BitgetDispatchExecution.cancelledLeg
  split
  · exact hQ _ _ (List.Subset.refl _)
  refine obeys_bind.mpr (follows_cancelOrRead (fun es₁ result hs hr => ?_) fun e es₁ => herr e es₁)
  exact follows_persistReadback (.read (hs hread)) hr
    (fun _ => hQ _ _ fun e he => List.mem_append_left _ (hs he)) (fun e => herr e _)
    fun e => herr e _

/-- The root of a cancelled child is read back and settled with it. -/
theorem follows_cancelledRoot {root limit : LiveIntentRecord}
    {Q : List EntryEvent → Except ExecutionError Bool → Prop}
    (hread : (⟨.get root.clientOid, .ok (some root)⟩ : EntryEvent) ∈ es)
    (hQ : ∀ es' a, es ⊆ es' → Q es' (.ok a)) (herr : ∀ e es', Q es' (.error e)) :
    Follows x (.cancel symbol mid ro) (BitgetDispatchExecution.cancelledRoot root limit) es Q := by
  refine follows_readIntent_bind (fun result es₁ hw₁ hr => ?_) fun e es₁ _ => herr e es₁
  refine follows_persistReadback_bind (.read (hw₁.subset hread)) hr (fun _ => ?_)
    fun e es₂ => herr e es₂
  refine follows_required_bind (fun aggregate _ => ?_) fun e => herr _ _
  have hsub : es ⊆ es₁ ++ [⟨.update (root.readBack result), .ok ()⟩] := fun e he =>
    List.mem_append_left _ (hw₁.subset he)
  split
  · split
    · exact obeys_perform_bind trivial
        (fun _ _ => hQ _ _ fun e he => List.mem_append_left _ (hsub he)) fun e _ => herr e _
    · exact herr _ _
  · exact hQ _ _ hsub

/-- A child that is cancelled is settled with its root. -/
theorem follows_cancelLimit {entry : LiveIntentRecord} {only : Bool}
    {Q : List EntryEvent → Except ExecutionError Bool → Prop}
    (hread : (⟨.get entry.clientOid, .ok (some entry)⟩ : EntryEvent) ∈ es)
    (hQ : ∀ es' a, es ⊆ es' → Q es' (.ok a)) (herr : ∀ e es', Q es' (.error e)) :
    Follows x (.cancel symbol mid ro) (BitgetDispatchExecution.cancelLimit entry mid only) es
      Q := by
  unfold BitgetDispatchExecution.cancelLimit
  dsimp only
  refine obeys_perform_bind trivial (fun root hroot => ?_) fun e _ => herr e _
  have hsub := List.subset_append_left es
    [(⟨.get (removeSuffix "-limit" entry.clientOid), .ok root⟩ : EntryEvent)]
  cases root with
  | none => exact hQ _ _ hsub
  | some root =>
    have hoid : root.clientOid = removeSuffix "-limit" entry.clientOid := hroot
    have hgot : (⟨.get root.clientOid, .ok (some root)⟩ : EntryEvent) ∈
        es ++ [⟨.get (removeSuffix "-limit" entry.clientOid), .ok (some root)⟩] := by
      simp [hoid]
    have hleg : ∀ (limit : LiveIntentRecord) es', es ⊆ es' →
        (⟨.get root.clientOid, .ok (some root)⟩ : EntryEvent) ∈ es' →
        (⟨.get limit.clientOid, .ok (some limit)⟩ : EntryEvent) ∈ es' →
        Follows x (.cancel symbol mid ro)
          (BitgetDispatchExecution.cancelledLeg limit only >>= fun limit =>
            if limit.providerTerminal = true then BitgetDispatchExecution.cancelledRoot root limit
            else pure false) es' Q := by
      intro limit es' hes hr hl
      refine obeys_bind.mpr (follows_cancelledLeg hl (fun es₁ leg hs => ?_) fun e es₁ => herr e es₁)
      rw [then_ok]
      split
      · exact follows_cancelledRoot (hs hr) (fun es₂ a hs₂ =>
          hQ es₂ a fun e he => hs₂ (hs (hes he))) herr
      · exact hQ _ _ fun e he => hs (hes he)
    refine follows_required_bind (fun aggregate _ => ?_) fun e => herr _ _
    split
    · exact hleg entry _ hsub hgot (hsub hread)
    · refine obeys_bind.mpr (follows_claimedCancel (fun es₁ a hs hget => ?_) fun e es₁ =>
        herr e es₁)
      cases a with
      | none => exact hQ _ _ fun e he => hs (hsub he)
      | some limit =>
        exact hleg limit es₁ (fun e he => hs (hsub he)) (hs hgot) (hget limit rfl).1

theorem follows_cancelEntries {only : Bool} :
    ∀ {entries : List LiveIntentRecord} {es : List EntryEvent}
      {Q : List EntryEvent → Except ExecutionError Bool → Prop},
      (∀ r ∈ entries, (⟨.get r.clientOid, .ok (some r)⟩ : EntryEvent) ∈ es) →
      (∀ es' a, Q es' a) →
      Follows x (.cancel symbol mid ro) (BitgetDispatchExecution.cancelEntries mid only entries) es
        Q
  | [], _, _, _, hQ => hQ _ _
  | entry :: entries, es, Q, hread, hQ => by
    have hnext : ∀ es' (a : Bool), es ⊆ es' → Then EntryAnswer
        (EntryProtocol x (.cancel symbol mid ro)) (fun more : Bool =>
          if more = true then BitgetDispatchExecution.cancelEntries mid only entries
          else pure false) Q es' (.ok a) := by
      intro es' a hes
      cases a with
      | false => exact hQ _ _
      | true =>
        exact follows_cancelEntries (fun r hr => hes (hread r (List.mem_cons_of_mem _ hr))) hQ
    refine obeys_bind.mpr ?_
    unfold BitgetDispatchExecution.cancelEntry
    split
    · exact hnext es true (List.Subset.refl _)
    · split
      · exact follows_cancelLimit (hread entry List.mem_cons_self) hnext fun e es' => hQ _ _
      · exact follows_cancelSingle hnext fun e es' => hQ _ _

/-- The cancellation of the pending entries of a symbol. -/
theorem follows_cancelPendingEntries
    {Q : List EntryEvent → Except ExecutionError Bool → Prop} (hQ : ∀ es' a, Q es' a) :
    Follows x (.cancel symbol mid ro) (BitgetDispatchExecution.cancelPendingEntries symbol mid ro)
      es Q := by
  -- whatever the attempt ends with, the last match performs nothing
  refine obeys_bind.mpr (obeys_attempt.mpr (Obeys.imp (Q := fun _ _ => True) ?_ fun es' a _ => ?_))
  swap
  · cases a <;> exact hQ _ _
  refine obeys_perform_bind trivial (fun _ _ => ?_) fun e _ => trivial
  refine obeys_bind.mpr (follows_pendingEntries (fun es₁ entries hread => ?_) fun e es₁ => trivial)
  refine obeys_bind.mpr (follows_cancelEntries hread fun es₂ a => ?_)
  rcases a with e | _ | _
  · trivial
  · trivial
  · rw [then_ok]
    simp only [if_true]
    split
    · trivial
    · exact obeys_bind.mpr (follows_pendingEntries (fun es₃ left _ => trivial)
        fun e es₃ => trivial)

end Cancel

/-! ## The dispatcher -/

theorem submittedTarget_not_entry (status : String) :
    (BitgetDispatchExecution.submittedTarget status).entry = false ∧
      BitgetDispatchExecution.submittedTarget status ≠ .closed := by
  unfold BitgetDispatchExecution.submittedTarget
  split
  · simp [DispatchState.entry]
  split
  · simp [DispatchState.entry]
  split
  · simp [DispatchState.entry]
  split <;> simp [DispatchState.entry]

/-- A move of the dispatch that closes nothing and does not bring it back. -/
theorem follows_transition_bind {expected target : DispatchState} {f : Unit → EntryProg β}
    {Q : List EntryEvent → Except ExecutionError β → Prop}
    (hentry : expected.entry = false → target.entry = false) (hclosed : target ≠ .closed)
    (hf : Follows x i (f ()) (es ++ [⟨.transition id expected target, .ok ()⟩]) Q)
    (hQ : ∀ es' a, Q es' a) :
    Follows x i (ask (.transition id expected target) >>= f) es Q :=
  obeys_perform_bind ⟨hentry, fun h => absurd h hclosed⟩ (fun _ _ => hf) fun _ _ => hQ _ _

theorem idle_snoc {e : EntryEvent} (h : Within EntryOp.Idle [] es) (he : e.op.Idle) :
    Within EntryOp.Idle [] (es ++ [e]) :=
  h.trans (.snoc he)

/-- An admitted dispatch moves forward and enters its submission. -/
theorem follows_dispatchAdmitted {Q : List EntryEvent → Except ExecutionError String → Prop}
    (hidle : Within EntryOp.Idle [] es) (hadm : Admits x es d s.marginReservationId i)
    (hnot : ∀ d' s', i ≠ .submit d' s') (hQ : ∀ es' a, Q es' a) :
    Follows x i (x.dispatchAdmitted d s) es Q := by
  refine follows_transition_bind (by simp [DispatchState.entry]) (by simp) ?_ hQ
  refine follows_transition_bind (by simp [DispatchState.entry]) (by simp) ?_ hQ
  refine obeys_perform_bind trivial (fun canary _ => ?_) fun e _ => hQ _ _
  have hidle₃ := idle_snoc (e := ⟨.reserveCanaryEntry d.id, .ok canary⟩) (idle_snoc
    (e := ⟨.transition d.id .sized .validated, .ok ()⟩) (idle_snoc
    (e := ⟨.transition d.id .preflight .sized, .ok ()⟩) hidle rfl) rfl) rfl
  have hadm₃ := hadm.mono (fun e he => by simp [he] : es ⊆ es ++
    [⟨.transition d.id .preflight .sized, .ok ()⟩] ++
    [⟨.transition d.id .sized .validated, .ok ()⟩] ++ [⟨.reserveCanaryEntry d.id, .ok canary⟩])
  cases canary with
  | true =>
    refine follows_transition_bind (by simp [DispatchState.entry]) (by simp) ?_ hQ
    refine obeys_bind.mpr (obeys_attempt.mpr (follows_submitEntry
      (idle_snoc (e := ⟨.transition d.id .validated .submitting, .ok ()⟩) hidle₃ rfl)
      (hadm₃.mono (List.subset_append_left _ _)) fun es₁ a => ?_))
    cases a with
    | error e =>
      exact follows_transition_bind (by simp [DispatchState.entry]) (by simp) (hQ _ _) hQ
    | ok status =>
      rw [then_ok]
      dsimp only
      split
      · exact hQ _ _
      · obtain ⟨htarget, hclosed⟩ := submittedTarget_not_entry status
        exact follows_transition_bind (fun _ => htarget) hclosed (hQ _ _) hQ
  | false =>
    refine obeys_bind.mpr (obeys_attempt.mpr (follows_ask (fun _ => ?_) fun a => ?_))
    · exact .unclaimed hadm₃ (never_of_within (fun _ => EntryOp.claims_idle) (never_nil _) hidle₃)
        fun d' s' h => absurd h (hnot d' s')
    · exact follows_transition_bind (by simp [DispatchState.entry]) (by simp) (hQ _ _) hQ

/-- `dispatch_entry`, from no events at all. -/
theorem follows_dispatchEntry {request : ReserveRequest} {sizing : BitgetEntrySubmission}
    {Q : List EntryEvent → Except ExecutionError String → Prop} (hQ : ∀ es' a, Q es' a) :
    Follows x (.dispatch d request sizing) (x.dispatchEntry d request sizing) [] Q := by
  refine follows_transition_bind (by simp [DispatchState.entry]) (by simp) ?_ hQ
  refine obeys_bind.mpr (obeys_attempt.mpr (follows_ask ⟨d, request, sizing, rfl, rfl⟩
    fun a => ?_))
  rcases a with e | rejection | ⟨snapshotId, reservationId⟩
  · exact follows_transition_bind (by simp [DispatchState.entry]) (by simp) (hQ _ _) hQ
  · cases rejection with
    | staleSourceMessage => exact hQ _ _
    | _ => exact follows_transition_bind (by simp [DispatchState.entry]) (by simp) (hQ _ _) hQ
  · refine follows_dispatchAdmitted ?_ ⟨rfl, snapshotId, ?_⟩ (by simp) hQ
    · exact idle_snoc (idle_snoc (.refl _) rfl) rfl
    · simp [BitgetEntrySubmission.admittedBy]

/-! ## Every call -/

/-- Every call of the entry path follows the protocol. -/
theorem entryProtocol_follows (x : BitgetDispatchExecution) :
    (entrySystem x).Follows EntryAnswer (EntryProtocol x) := by
  intro i
  cases i with
  | submit d s =>
    exact obeys_bind.mpr (follows_submitEntry (.refl _) ⟨rfl, rfl⟩ fun es a => by
      cases a <;> trivial)
  | dispatch d request sizing =>
    exact obeys_bind.mpr (follows_dispatchEntry fun es a => by cases a <;> trivial)
  | recover =>
    exact obeys_bind.mpr (follows_recoverEntryLifecycles fun es a => by cases a <;> trivial)
  | cancel symbol mid ro =>
    exact obeys_bind.mpr (follows_cancelPendingEntries fun es a => by cases a <;> trivial)

theorem entry_answers (x : BitgetDispatchExecution) : (entrySystem x).Answers EntryAnswer := by
  intro o db c r db' h
  obtain ⟨rfl, -⟩ := Prod.mk.inj (Option.some.inj h)
  cases o with
  | get oid =>
    simp only [EntryChoice.read]
    split
    next hdelivery =>
      cases hget : db.get oid with
      | none => trivial
      | some row => exact Db.clientOid_of_get hget
    · trivial
  | _ => trivial

end FattyTrader
