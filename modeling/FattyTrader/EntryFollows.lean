import FattyTrader.EntryProtocol

/-!
# Submissions follow their protocol

One lemma for each function of the dispatch, from the smallest up. A function that only
reads needs `OpsIn`. The others are stated over any postcondition `Q` : what must be known
before, and what is known in each way it can end. The result is `follows_submitEntry`.
-/

set_option linter.unusedSectionVars false

namespace FattyTrader

open Programs Prog

variable {x : BitgetDispatchExecution} {i : EntryCall} {d : BitgetDispatch} {id : Uuid}
  {es : List EntryEvent} {α β : Type}

/-- `p` obeys the protocol of the call `i` from its events `es` on. -/
abbrev Follows (x : BitgetDispatchExecution) (i : EntryCall) (p : EntryProg α)
    (es : List EntryEvent) (Q : List EntryEvent → Except ExecutionError α → Prop) : Prop :=
  Obeys EntryAnswer (EntryProtocol x i) p es Q

/-! ## Functions that only read -/

/-- A part that only reads. -/
theorem follows_reads {p : EntryProg α} {Q : List EntryEvent → Except ExecutionError α → Prop}
    (hp : p.OpsIn EntryOp.Reads) (hQ : ∀ es' r, Within EntryOp.Reads es es' → Q es' r) :
    Follows x i p es Q :=
  obeys_free hp protocol_of_reads hQ

theorem follows_reads_bind {p : EntryProg α} {f : α → EntryProg β}
    {Q : List EntryEvent → Except ExecutionError β → Prop} (hp : p.OpsIn EntryOp.Reads)
    (hf : ∀ a es', Within EntryOp.Reads es es' → Follows x i (f a) es' Q)
    (hQ : ∀ e es', Within EntryOp.Reads es es' → Q es' (.error e)) :
    Follows x i (p >>= f) es Q := by
  refine obeys_bind.mpr (follows_reads hp fun es' r hw => ?_)
  cases r with
  | ok a => exact hf a es' hw
  | error e => exact hQ e es' hw

theorem reads_admissionBlocked : BitgetDispatchExecution.admissionBlocked.OpsIn EntryOp.Reads := by
  refine opsIn_bind (fun issues => ?_) (opsIn_perform rfl)
  split
  · exact opsIn_bind_pure (opsIn_perform rfl)
  · trivial

theorem reads_finalEntryVetoBeforeClaim (d : BitgetDispatch) :
    (BitgetDispatchExecution.finalEntryVetoBeforeClaim d).OpsIn EntryOp.Reads := by
  refine opsIn_bind (fun blocked => ?_) reads_admissionBlocked
  split
  · trivial
  · exact opsIn_bind_pure (opsIn_perform rfl)

theorem reads_killed (x : BitgetDispatchExecution) : x.killed.OpsIn EntryOp.Reads := by
  unfold BitgetDispatchExecution.killed
  split
  · refine opsIn_bind (fun _ => ?_) (opsIn_perform rfl)
    refine opsIn_bind (fun _ => ?_) (opsIn_perform rfl)
    exact opsIn_bind_pure (opsIn_perform rfl)
  · trivial

theorem reads_readIntent (r : LiveIntentRecord) (submitted : Option Submitted) :
    (readIntent r submitted).OpsIn EntryOp.Reads := by
  refine opsIn_bind (fun reading => ?_) (opsIn_perform rfl)
  split <;> trivial

theorem reads_reconcilePostFill (r : LiveIntentRecord) (result : AsyncExecutionResult) :
    (reconcilePostFill r result).OpsIn EntryOp.Reads := by
  unfold reconcilePostFill
  split
  · exact opsIn_perform rfl
  · trivial

theorem reads_readRecoveryProtection (r : LiveIntentRecord) (quantity : ℚ) :
    (readRecoveryProtection r quantity).OpsIn EntryOp.Reads := by
  unfold readRecoveryProtection
  split
  · trivial
  · refine opsIn_bind (fun a => ?_) (opsIn_attempt (opsIn_perform rfl))
    split <;> trivial

theorem reads_required (text : String) (a : Option α) :
    (required text a).OpsIn EntryOp.Reads := by
  cases a <;> trivial

theorem reads_requireSplit (root limit : LiveIntentRecord) :
    (requireSplit root limit).OpsIn EntryOp.Reads := reads_required _ _

/-- A value that is required is the one there is. -/
theorem follows_required_bind {text : String} {a : Option α} {f : α → EntryProg β}
    {Q : List EntryEvent → Except ExecutionError β → Prop}
    (hf : ∀ b, a = some b → Follows x i (f b) es Q) (hQ : ∀ e, Q es (.error e)) :
    Follows x i (required text a >>= f) es Q := by
  cases a with
  | none => exact hQ _
  | some b => exact hf b rfl

/-- What a readback shows. -/
theorem follows_readIntent {r : LiveIntentRecord} {submitted : Option Submitted}
    {Q : List EntryEvent → Except ExecutionError AsyncExecutionResult → Prop}
    (hok : ∀ result es', Within EntryOp.Reads es es' → Reports es' r.clientOid result →
      Q es' (.ok result))
    (herr : ∀ e es', Within EntryOp.Reads es es' → Q es' (.error e)) :
    Follows x i (readIntent r submitted) es Q := by
  refine obeys_perform_bind trivial (fun reading _ => ?_) fun e _ => herr e _ (.snoc rfl)
  cases hres : reconcileIntent r submitted reading with
  | ok result => exact hok result _ (.snoc rfl) ⟨r, submitted, reading, rfl, by simp, hres⟩
  | error e => exact herr _ _ (.snoc rfl)

theorem follows_readIntent_bind {r : LiveIntentRecord} {submitted : Option Submitted}
    {f : AsyncExecutionResult → EntryProg β}
    {Q : List EntryEvent → Except ExecutionError β → Prop}
    (hok : ∀ result es', Within EntryOp.Reads es es' → Reports es' r.clientOid result →
      Follows x i (f result) es' Q)
    (herr : ∀ e es', Within EntryOp.Reads es es' → Q es' (.error e)) :
    Follows x i (readIntent r submitted >>= f) es Q :=
  obeys_bind.mpr (follows_readIntent hok herr)

/-! ## Updates and resolves -/

/-- An operation of a call that may perform it, whatever comes of it. -/
theorem follows_ask {o : EntryOp} {Q : List EntryEvent → Except ExecutionError (EntryAns o) → Prop}
    (h : EntryProtocol x i es o) (hQ : ∀ r, Q (es ++ [⟨o, r⟩]) r) : Follows x i (ask o) es Q :=
  obeys_perform.mpr ⟨h, fun r _ => hQ r⟩

/-- A readback that is written is one of a record the call holds, and lowers no quantity. -/
theorem follows_persistReadback {r : LiveIntentRecord} {result : AsyncExecutionResult}
    {Q : List EntryEvent → Except ExecutionError LiveIntentRecord → Prop} (held : Held es r)
    (reports : Reports es r.clientOid result)
    (hok : r.filledQty ≤ result.filledQty →
      Q (es ++ [⟨.update (r.readBack result), .ok ()⟩]) (.ok (r.readBack result)))
    (herr : ∀ e, Q es (.error e))
    (hlost : ∀ e, Q (es ++ [⟨.update (r.readBack result), .error e⟩]) (.error e)) :
    Follows x i (persistReadback r result) es Q := by
  unfold persistReadback
  split
  · exact herr _
  · split
    · exact herr _
    next hle =>
      have hle : r.filledQty ≤ result.filledQty := not_lt.mp hle
      exact obeys_perform_bind (.readback held reports hle) (fun _ _ => hok hle) fun e _ => hlost e

theorem follows_persistReadback_bind {r : LiveIntentRecord} {result : AsyncExecutionResult}
    {f : LiveIntentRecord → EntryProg β} {Q : List EntryEvent → Except ExecutionError β → Prop}
    (held : Held es r) (reports : Reports es r.clientOid result)
    (hok : r.filledQty ≤ result.filledQty →
      Follows x i (f (r.readBack result)) (es ++ [⟨.update (r.readBack result), .ok ()⟩]) Q)
    (herr : ∀ e es', Q es' (.error e)) :
    Follows x i (persistReadback r result >>= f) es Q :=
  obeys_bind.mpr (follows_persistReadback held reports hok (fun e => herr e _) fun e => herr e _)

/-- A reservation is released for a reason only. -/
theorem follows_resolveReservation {r : LiveIntentRecord} {outcome : Outcome}
    {Q : List EntryEvent → Except ExecutionError Unit → Prop}
    (h : ∀ id, r.marginReservationId = some id → outcome.target = some .released →
      ReleaseReason x es i id)
    (hnone : Q es (.ok ()))
    (hQ : ∀ id a, Q (es ++ [⟨.resolve id outcome, a⟩]) a) :
    Follows x i (resolveReservation r outcome) es Q := by
  unfold resolveReservation
  split
  · exact hnone
  next id hid => exact follows_ask (h id hid) fun a => hQ id a

theorem not_release_unknown : Outcome.target .unknown ≠ some .released := by
  simp [Outcome.target]

theorem not_release_filled : Outcome.target .filled ≠ some .released := by
  simp [Outcome.target]

/-- Only the status of a rejected order releases. -/
theorem status_of_release {status : LiveOrderStatus}
    (h : (dispatcherStatus status).target = some .released) : status = .rejected := by
  cases status <;> simp_all [dispatcherStatus, Outcome.target]

/-! ## The last check -/

/-- The call has won `r` and neither sent it nor given it up. -/
structure Sending (x : BitgetDispatchExecution) (i : EntryCall) (d : BitgetDispatch) (id : Uuid)
    (es : List EntryEvent) (r : LiveIntentRecord) : Prop where
  admits : Admits x es d id i
  unsent : Unsent es r
  open_ : Never (EntryOp.closes r.clientOid) es
  unreleased : Never EntryOp.releases es
  leg : (r.clientOid = x.clientOid d ∧ r.entryLeg ≠ some .limit) ∨
    (r.clientOid = limitOid (x.clientOid d) ∧
      (⟨.claimEntryPost r.clientOid, .ok true⟩ : EntryEvent) ∈ es ∧
      RootFilled es (x.clientOid d) ∧ (⟨.get r.clientOid, .ok (some r)⟩ : EntryEvent) ∈ es)

theorem Sending.within {r : LiveIntentRecord} {es' : List EntryEvent} (h : Sending x i d id es r)
    (hw : Within EntryOp.Idle es es') : Sending x i d id es' r where
  admits := h.admits.mono hw.subset
  unsent := h.unsent.within (fun _ => EntryOp.sends_idle) hw
  open_ := never_of_within (fun _ => EntryOp.closes_idle) h.open_ hw
  unreleased := never_of_within (fun _ => EntryOp.releases_idle) h.unreleased hw
  leg := by
    refine h.leg.imp_right fun hlimit => ?_
    obtain ⟨hoid, hwon, hroot, hread⟩ := hlimit
    exact ⟨hoid, hw.subset hwon, hroot.mono hw.subset, hw.subset hread⟩

theorem idle_within {es' : List EntryEvent} (h : Within EntryOp.Reads es es') :
    Within EntryOp.Idle es es' :=
  h.mono fun _ => EntryOp.idle_of_reads

/-- How a check that does not let the order be sent leaves the record. -/
inductive Stopped (es : List EntryEvent) (r : LiveIntentRecord) : LiveIntentRecord → Prop
  | kept : Held es r → Stopped es r r
  | refused : Unsent es r → Stopped es r r.refused
  | retired : r.entryLeg = some .limit → Stopped es r r.retired

/-- Continue with the answer of a part that only reads. -/
theorem follows_guarding {r : LiveIntentRecord} {p : EntryProg α} {k : α → EntryProg (Guarded β)}
    {Q : List EntryEvent → Except ExecutionError (Guarded β) → Prop} (hp : p.OpsIn EntryOp.Reads)
    (hk : ∀ a es', Within EntryOp.Reads es es' → Follows x i (k a) es' Q)
    (herr : ∀ e es', Within EntryOp.Reads es es' → Q es' (.ok (r, .error e))) :
    Follows x i (guarding r p k) es Q := by
  refine obeys_bind.mpr (obeys_attempt.mpr (follows_reads hp fun es' a hw => ?_))
  cases a with
  | ok a => exact hk a es' hw
  | error e => exact herr e es' hw

/-- A veto persists the record and what follows it ; neither lets the order be sent. -/
theorem follows_veto {r : LiveIntentRecord} {sequel : EntryProg Unit} {outcome : String}
    {Q : List EntryEvent → Except ExecutionError (Guarded (Option String)) → Prop}
    (hr : UpdateReason es r)
    (hsequel : Follows x i sequel (es ++ [⟨.update r, .ok ()⟩]) fun es' _ =>
      ∀ v : Except ExecutionError (Option String), v ≠ .ok none → Q es' (.ok (r, v)))
    (hlost : ∀ e, Q (es ++ [⟨.update r, .error e⟩]) (.ok (r, .error e))) :
    Follows x i (BitgetDispatchExecution.veto r sequel outcome) es Q := by
  refine obeys_bind.mpr (obeys_attempt.mpr ?_)
  refine obeys_perform_bind hr (fun _ _ => ?_) fun e _ => hlost e
  refine hsequel.imp fun es' a h => ?_
  cases a with
  | ok _ => exact h _ (by simp)
  | error e => exact h _ (by simp)

/-- A refusal releases the reservation, unless it only asks for the source again. -/
theorem follows_refusal {r : LiveIntentRecord}
    {Q : List EntryEvent → Except ExecutionError (Guarded (Option String)) → Prop}
    (h : Unsent es r)
    (hstop : ∀ es' r' v, v ≠ .ok none → Stopped es' r r' → Q es' (.ok (r', v))) :
    Follows x i (BitgetDispatchExecution.veto r.refused (resolveReservation r.refused .rejected)
      "REJECTED") es Q := by
  have hupdate : ∀ a, Unsent (es ++ [⟨.update r.refused, a⟩]) r := fun a =>
    h.within (P := fun o => o.sends r.clientOid = false) (fun _ ho => ho) (.snoc rfl)
  refine follows_veto (.refused h) ?_ fun e => hstop _ _ _ (by simp) (.refused (hupdate _))
  refine follows_resolveReservation (fun id hid _ => ?_) (fun v hv => ?_) fun id a v hv => ?_
  · exact .refused (hupdate _) hid (by simp)
  · exact hstop _ _ _ hv (.refused (hupdate _))
  · refine hstop _ _ _ hv (.refused ?_)
    exact (hupdate _).within (P := fun o => o.sends r.clientOid = false) (fun _ ho => ho)
      (.snoc rfl)

/-- The admission checks let an order pass only once its source was found eligible. -/
theorem follows_admissionVeto {r : LiveIntentRecord}
    {Q : List EntryEvent → Except ExecutionError (Guarded (Option String)) → Prop}
    (h : Sending x i d id es r)
    (hpass : ∀ es', Within EntryOp.Idle es es' → Sending x i d id es' r →
      Vetted es' d.id r.clientOid →
      Q es' (.ok (r, .ok none)))
    (hstop : ∀ es' r' v, v ≠ .ok none → Stopped es' r r' → Q es' (.ok (r', v))) :
    Follows x i (x.admissionVeto d r) es Q := by
  have hkept : ∀ {es'} (e : ExecutionError), Within EntryOp.Idle es es' →
      Q es' (.ok (r, .error e)) := fun e hw =>
    hstop _ _ _ (by simp) (.kept (h.unsent.held.mono hw.subset))
  refine follows_guarding reads_admissionBlocked (fun blocked es₁ hw₁ => ?_) fun e es₁ hw₁ =>
    hkept e (idle_within hw₁)
  have h₁ := h.within (idle_within hw₁)
  split
  · exact follows_refusal h₁.unsent hstop
  refine obeys_bind.mpr (obeys_attempt.mpr (follows_ask trivial fun a => ?_))
  have hw₂ : Within EntryOp.Idle es (es₁ ++ [⟨.entrySourceEligible d.id, a⟩]) :=
    (idle_within hw₁).trans (.snoc rfl)
  cases a with
  | error e => exact hkept e hw₂
  | ok eligible =>
    have h₂ := h.within hw₂
    cases eligible with
    | false =>
      have hupdate : ∀ a, Unsent (es₁ ++ [⟨.entrySourceEligible d.id, .ok false⟩] ++
          [⟨.update r.refused, a⟩]) r := fun a =>
        h₂.unsent.within (P := fun o => o.sends r.clientOid = false) (fun _ ho => ho) (.snoc rfl)
      refine follows_veto (.refused h₂.unsent) ?_ fun e =>
        hstop _ _ _ (by simp) (.refused (hupdate _))
      refine follows_reads (opsIn_bind_pure (opsIn_perform rfl)) fun es' _ hw v hv => ?_
      exact hstop _ _ _ hv (.refused ((hupdate _).within (fun _ ho => EntryOp.sends_idle ho)
        (idle_within hw)))
    | true =>
      have hvetted : Vetted (es₁ ++ [⟨.entrySourceEligible d.id, .ok true⟩]) d.id r.clientOid :=
        ⟨es₁, [], rfl, h₁.unsent.won⟩
      refine follows_guarding (reads_killed x) (fun killed es₃ hw₃ => ?_) fun e es₃ hw₃ =>
        hkept e (hw₂.trans (idle_within hw₃))
      have h₃ := h₂.within (idle_within hw₃)
      split
      · exact follows_refusal h₃.unsent hstop
      · exact hpass es₃ (hw₂.trans (idle_within hw₃)) h₃ (hvetted.within hw₃)

/-- The last checks let a limit child pass only when its row carries no cancellation. -/
theorem follows_finalEntryVeto {r : LiveIntentRecord}
    {Q : List EntryEvent → Except ExecutionError (Guarded (Option String)) → Prop}
    (h : Sending x i d id es r)
    (hpass : ∀ es', Within EntryOp.Idle es es' → Sending x i d id es' r →
      Vetted es' d.id r.clientOid →
      (r.entryLeg = some .limit → Cleared es' r.clientOid) → Q es' (.ok (r, .ok none)))
    (hstop : ∀ es' r' v, v ≠ .ok none → Stopped es' r r' → Q es' (.ok (r', v))) :
    Follows x i (x.finalEntryVeto d r) es Q := by
  unfold BitgetDispatchExecution.finalEntryVeto
  split
  next hleg =>
    refine obeys_bind.mpr (obeys_attempt.mpr (follows_ask trivial fun a => ?_))
    have hw : Within EntryOp.Idle es (es ++ [⟨.currentEntry r.clientOid, a⟩]) := .snoc rfl
    have h₁ := h.within hw
    have hkept := Stopped.kept h₁.unsent.held
    rcases a with e | _ | current
    · exact hstop _ _ _ (by simp) hkept
    · exact hstop _ _ _ (by simp) hkept
    · simp only [then_ok]
      split
      · have hoid : r.clientOid = limitOid (x.clientOid d) := by
          rcases h.leg with ⟨-, hne⟩ | ⟨hoid, -⟩
          · exact absurd hleg hne
          · exact hoid
        exact follows_veto (.withdrawn h₁.unsent hoid) (fun v hv => hstop _ _ _ hv (.retired hleg))
          fun e => hstop _ _ _ (by simp) (.retired hleg)
      next hcurrent =>
        refine follows_admissionVeto h₁ (fun es' hw' hs hv => ?_) hstop
        refine hpass es' (hw.trans hw') hs hv fun _ => ?_
        simp only [Bool.or_eq_true, not_or, Bool.not_eq_true, Option.isSome_eq_false_iff,
          Option.isNone_iff_eq_none] at hcurrent
        exact ⟨current, hw'.subset (by simp), hcurrent⟩
  next hleg =>
    exact follows_admissionVeto h (fun es' hw hs hv =>
      hpass es' hw hs hv fun hlimit => absurd hlimit hleg) hstop

/-! ## Sending -/

/-- What a call does while it sends the order of a client order id. -/
def EntryOp.Sent (oid : String) (o : EntryOp) : Prop := o.Idle ∨ o.sends oid = true

section Sent

variable {o : EntryOp} {oid : String}

theorem EntryOp.claimsPost_sent (h : o.Sent oid) : o.claimsPost = false := by
  rcases h with h | h
  · exact claimsPost_idle h
  · cases o <;> simp_all [sends, claimsPost]

theorem EntryOp.releases_sent (h : o.Sent oid) : o.releases = false := by
  rcases h with h | h
  · exact releases_idle h
  · cases o <;> simp_all [sends, releases]

theorem EntryOp.closes_sent {oid' : String} (h : o.Sent oid) : o.closes oid' = false := by
  rcases h with h | h
  · exact closes_idle h
  · cases o <;> simp_all [sends, closes]

theorem EntryOp.sends_sent {oid' : String} (h : o.Sent oid) (hne : oid ≠ oid') :
    o.sends oid' = false := by
  rcases h with h | h
  · exact sends_idle h
  · cases o <;> simp_all [sends]

theorem sent_within {es' : List EntryEvent} (h : Within EntryOp.Idle es es') :
    Within (EntryOp.Sent oid) es es' :=
  h.mono fun _ => Or.inl

end Sent

/-- The order is sent once ; a result that comes back was read from the venue. -/
theorem follows_postEntry {r : LiveIntentRecord}
    {Q : List EntryEvent → Except ExecutionError AsyncExecutionResult → Prop}
    (h : Sends x es i (BitgetDispatchExecution.entryOrder r))
    (hok : ∀ result es', Within (EntryOp.Sent r.clientOid) es es' →
      Reports es' r.clientOid result → Q es' (.ok result))
    (herr : ∀ e es', Within (EntryOp.Sent r.clientOid) es es' → Q es' (.error e)) :
    Follows x i (BitgetDispatchExecution.postEntry r) es Q := by
  refine obeys_bind.mpr (obeys_attempt.mpr (follows_ask h fun a => ?_))
  have hw : Within (EntryOp.Sent r.clientOid) es
      (es ++ [⟨.placeEntryOrder (BitgetDispatchExecution.entryOrder r), a⟩]) :=
    .snoc (Or.inr (by simp [EntryOp.sends, BitgetDispatchExecution.entryOrder]))
  have hread : ∀ submitted, Follows x i (readIntent r submitted >>= fun result =>
      reconcilePostFill r result >>= fun _ => pure result)
      (es ++ [⟨.placeEntryOrder (BitgetDispatchExecution.entryOrder r), a⟩]) Q := by
    intro submitted
    refine follows_readIntent_bind (fun result es₂ hw₂ hreports => ?_) fun e es₂ hw₂ =>
      herr e es₂ (hw.trans (sent_within (idle_within hw₂)))
    have hw₂ := hw.trans (sent_within (idle_within hw₂))
    refine follows_reads_bind (reads_reconcilePostFill r result) (fun _ es₃ hw₃ => ?_)
      fun e es₃ hw₃ => herr e es₃ (hw₂.trans (sent_within (idle_within hw₃)))
    exact hok result es₃ (hw₂.trans (sent_within (idle_within hw₃))) (hreports.mono hw₃.subset)
  rcases a with e | submitted
  · cases e with
    | unknownResult => exact hread none
    | _ => exact herr _ _ hw
  · exact hread (some submitted)

theorem follows_prepareEntry {r : LiveIntentRecord}
    {Q : List EntryEvent → Except ExecutionError Unit → Prop} (hwon : won es ≠ [])
    (hQ : ∀ a es', Within EntryOp.Idle es es' → Q es' a) :
    Follows x i (BitgetDispatchExecution.prepareEntry r) es Q := by
  refine obeys_perform_bind trivial (fun degraded _ => ?_) fun e _ => hQ _ _ (.snoc rfl)
  have hw : Within EntryOp.Idle es (es ++ [⟨.degraded, .ok degraded⟩]) := .snoc rfl
  split
  · exact hQ _ _ hw
  · split
    · exact hQ _ _ hw
    · split
      · refine follows_ask ?_ fun a => hQ _ _ (hw.trans (.snoc rfl))
        simp [EntryProtocol, won_append, hwon]
      · exact hQ _ _ hw

/-- A won order is sent after its checks, or stopped by one of them. -/
theorem follows_submitGuarded {r : LiveIntentRecord}
    {Q : List EntryEvent → Except ExecutionError (Guarded BitgetDispatchExecution.Sent) → Prop}
    (h : Sending x i d id es r)
    (hsent : ∀ result es', Within (EntryOp.Sent r.clientOid) es es' →
      Reports es' r.clientOid result → Q es' (.ok (r, .ok (.result result))))
    (hstop : ∀ es' r' v, (∀ result, v ≠ .ok (.result result)) → Stopped es' r r' →
      Q es' (.ok (r', v))) :
    Follows x i (x.submitGuarded d r) es Q := by
  refine obeys_bind.mpr (obeys_attempt.mpr ?_)
  refine follows_prepareEntry (won_ne_nil h.unsent.won) fun a es₁ hw₁ => ?_
  have h₁ := h.within hw₁
  cases a with
  | error e => exact hstop _ _ _ (by simp) (.kept h₁.unsent.held)
  | ok _ =>
    refine obeys_bind.mpr (follows_finalEntryVeto h₁ (fun es₂ hw₂ hs hv hc => ?_)
      fun es₂ r' v hv hstopped => ?_)
    · refine obeys_bind.mpr (obeys_attempt.mpr (follows_postEntry ?_ (fun result es₃ hw₃ hr => ?_)
        fun e es₃ hw₃ => ?_))
      · refine ⟨⟨d, id, r, hs.admits, rfl, hs.unsent.held, ?_, hv⟩, hs.unsent.unsent, hs.open_,
          hs.unreleased⟩
        refine hs.leg.imp (fun hroot => ⟨hroot.1, hs.unsent.won⟩) fun hlimit => ?_
        exact ⟨hlimit.1, hlimit.2.1, hlimit.2.2.1, hc, hlimit.2.2.2⟩
      · exact hsent result es₃ ((sent_within (hw₁.trans hw₂)).trans hw₃) hr
      · exact hstop _ _ _ (by simp) (.kept (hs.unsent.held.mono hw₃.subset))
    · rcases v with e | _ | outcome
      · exact hstop _ _ _ (by simp) hstopped
      · exact absurd rfl hv
      · exact hstop _ _ _ (by simp) hstopped

/-! ## Split entries -/

variable {s : BitgetEntrySubmission} {route : EntryRoute}

/-- A resolve that asks for no release, wherever it stands. -/
theorem follows_resolve_bind {r : LiveIntentRecord} {outcome : Outcome} {f : Unit → EntryProg β}
    {Q : List EntryEvent → Except ExecutionError β → Prop}
    (h : outcome.target ≠ some .released) (hf : ∀ es', es ⊆ es' → Follows x i (f ()) es' Q)
    (hQ : ∀ e es', Q es' (.error e)) :
    Follows x i (resolveReservation r outcome >>= f) es Q := by
  refine obeys_bind.mpr (follows_resolveReservation (fun _ _ ht => absurd ht h) ?_ fun id a => ?_)
  · exact hf es (List.Subset.refl _)
  · cases a with
    | ok _ => exact hf _ (List.subset_append_left _ _)
    | error e => exact hQ e _

theorem follows_splitSettled {root limit : LiveIntentRecord}
    {Q : List EntryEvent → Except ExecutionError BitgetDispatchExecution.SplitEnd → Prop}
    (hQ : ∀ es' a, Q es' a) :
    Follows x i (BitgetDispatchExecution.splitSettled root limit) es Q := by
  refine follows_required_bind (fun aggregate _ => ?_) fun e => hQ _ _
  refine follows_resolve_bind not_release_filled (fun es₁ _ => ?_) fun e es₁ => hQ _ _
  refine follows_reads_bind (reads_reconcilePostFill _ _) (fun _ es₂ _ => ?_) fun e es₂ _ => hQ _ _
  split
  · refine follows_reads_bind (reads_readRecoveryProtection _ _) (fun proof es₃ _ => ?_)
      fun e es₃ _ => hQ _ _
    split <;> exact hQ _ _
  · exact hQ _ _

/-- The call won both legs, and the limit child is neither sent nor given up. -/
structure SplitWon (x : BitgetDispatchExecution) (i : EntryCall) (d : BitgetDispatch)
    (s : BitgetEntrySubmission) (route : EntryRoute) (es : List EntryEvent) : Prop where
  admits : Admits x es d s.marginReservationId i
  split : (⟨.claimSplit (x.splitRoot d s route) (x.splitLimit d s route), .ok true⟩ :
    EntryEvent) ∈ es
  unclaimed : Never EntryOp.claimsPost es
  unreleased : Never EntryOp.releases es
  unsent : Never (EntryOp.sends (limitOid (x.clientOid d))) es
  open_ : Never (EntryOp.closes (limitOid (x.clientOid d))) es

theorem SplitWon.won (h : SplitWon x i d s route es) : x.clientOid d ∈ won es :=
  List.mem_flatMap.mpr ⟨_, h.split, by simp [wins, BitgetDispatchExecution.splitRoot,
    BitgetDispatchExecution.intent]⟩

theorem SplitWon.within {P : EntryOp → Prop} {es' : List EntryEvent}
    (h : SplitWon x i d s route es) (hw : Within P es es')
    (hclaimsPost : ∀ o, P o → o.claimsPost = false) (hreleases : ∀ o, P o → o.releases = false)
    (hsends : ∀ o, P o → o.sends (limitOid (x.clientOid d)) = false)
    (hcloses : ∀ o, P o → o.closes (limitOid (x.clientOid d)) = false) :
    SplitWon x i d s route es' where
  admits := h.admits.mono hw.subset
  split := hw.subset h.split
  unclaimed := never_of_within hclaimsPost h.unclaimed hw
  unreleased := never_of_within hreleases h.unreleased hw
  unsent := never_of_within hsends h.unsent hw
  open_ := never_of_within hcloses h.open_ hw

/-- The limit child is sent under its own claim, once the root has filled. -/
theorem follows_submitLimit {root : LiveIntentRecord}
    {Q : List EntryEvent → Except ExecutionError BitgetDispatchExecution.SplitEnd → Prop}
    (h : SplitWon x i d s route es) (hroot : RootFilled es (x.clientOid d))
    (hQ : ∀ es' a, Q es' a) :
    Follows x i (x.submitLimit d root (x.splitLimit d s route)) es Q := by
  refine obeys_perform_bind ⟨d, s, route, h.split, rfl, h.unclaimed, h.unreleased, hroot⟩
    (fun won _ => ?_) fun e _ => hQ _ _
  refine obeys_perform_bind trivial (fun fetched hfetched => ?_) fun e _ => hQ _ _
  refine follows_required_bind (fun limit hlimit => ?_) fun e => hQ _ _
  subst hlimit
  have hoid : limit.clientOid = limitOid (x.clientOid d) := hfetched
  cases won with
  | false => exact follows_splitSettled hQ
  | true =>
    have hclaim : (x.splitLimit d s route).clientOid = limit.clientOid := hoid.symm
    rw [hclaim]
    have hsending : Sending x i d s.marginReservationId
        (es ++ [⟨.claimEntryPost limit.clientOid, .ok true⟩] ++
          [⟨.get limit.clientOid, .ok (some limit)⟩]) limit := by
      refine ⟨h.admits.mono ?_, ⟨.read (by simp), ?_, ?_⟩, ?_, ?_, Or.inr ⟨hoid, by simp, ?_,
        by simp⟩⟩
      · exact fun e he => by simp [he]
      · simp [FattyTrader.won, wins]
      · simpa [EntryOp.sends, hoid] using h.unsent
      · simpa [EntryOp.closes, hoid] using h.open_
      · simpa [EntryOp.releases] using h.unreleased
      · exact hroot.mono fun e he => by simp [he]
    refine obeys_bind.mpr (follows_submitGuarded hsending (fun result es₂ hw₂ hr => ?_)
      fun es₂ r' v hv _ => ?_)
    · exact follows_persistReadback_bind (hsending.unsent.held.mono hw₂.subset) hr
        (fun _ => follows_splitSettled hQ) fun e es₃ => hQ _ _
    · rcases v with e | outcome | result
      · exact hQ _ _
      · exact hQ _ _
      · exact absurd rfl (hv result)

/-- After the root is sent, the child follows it or is retired. -/
theorem follows_afterRoot {result : AsyncExecutionResult}
    {Q : List EntryEvent → Except ExecutionError BitgetDispatchExecution.SplitEnd → Prop}
    (h : SplitWon x i d s route es) (hr : Reports es (x.clientOid d) result)
    (hQ : ∀ es' a, Q es' a) :
    Follows x i (x.afterRoot d (x.splitRoot d s route) (x.splitLimit d s route) result) es Q := by
  have held : Held es (x.splitRoot d s route) := .market h.split
  refine follows_persistReadback_bind held hr (fun _ => ?_) fun e es₁ => hQ _ _
  have hne : x.clientOid d ≠ limitOid (x.clientOid d) := (limitOid_ne _).symm
  have h₁ : SplitWon x i d s route (es ++
      [⟨.update ((x.splitRoot d s route).readBack result), .ok ()⟩]) := by
    refine h.within (P := fun o => o = .update ((x.splitRoot d s route).readBack result))
      (.snoc rfl) ?_ ?_ ?_ ?_ <;> rintro o rfl
    · rfl
    · rfl
    · rfl
    · simp [EntryOp.closes, LiveIntentRecord.readBack, BitgetDispatchExecution.splitRoot,
        BitgetDispatchExecution.intent, hne]
  have hr₁ := hr.mono (List.subset_append_left es
    [(⟨.update ((x.splitRoot d s route).readBack result), .ok ()⟩ : EntryEvent)])
  have hretire := UpdateReason.unclaimed h₁.split h₁.unclaimed
  split
  · refine obeys_perform_bind hretire (fun _ _ => ?_) fun e _ => hQ _ _
    refine obeys_bind.mpr (follows_resolveReservation (fun id hid ht => ?_) (hQ _ _) fun id a => ?_)
    · exact .rejected (held.mono fun e he => by simp [he]) hid
        (hr₁.mono (List.subset_append_left _ _)) (status_of_release ht) (by simp)
    · cases a <;> exact hQ _ _
  next hpos =>
    refine obeys_perform_bind (won_ne_nil h₁.won) (fun protection _ => ?_) fun e _ => hQ _ _
    have h₂ : SplitWon x i d s route (es ++
        [⟨.update ((x.splitRoot d s route).readBack result), .ok ()⟩] ++
        [⟨.protectFilledPosition ((x.splitRoot d s route).readBack result).clientOid
          ((x.splitRoot d s route).readBack result).filledQty, .ok protection⟩]) :=
      h₁.within (P := EntryOp.Idle) (.snoc rfl) (fun _ => EntryOp.claimsPost_idle)
        (fun _ => EntryOp.releases_idle) (fun _ => EntryOp.sends_idle) fun _ => EntryOp.closes_idle
    split
    next hproven =>
      have hfilled : result.status = .filled := of_decide_eq_true (Bool.and_eq_true_iff.mp hproven).2
      exact follows_submitLimit h₂
        ⟨result, hr₁.mono (List.subset_append_left _ _), hfilled, not_le.mp hpos⟩ hQ
    · refine obeys_perform_bind (UpdateReason.unclaimed h₂.split h₂.unclaimed) (fun _ _ => ?_)
        fun e _ => hQ _ _
      exact follows_resolve_bind not_release_filled (fun es₃ _ => hQ _ _) fun e es₃ => hQ _ _

/-- A veto of a split entry retires the child that is still staged. -/
theorem follows_splitVetoed {rootOid outcome : String} {root : LiveIntentRecord}
    {Q : List EntryEvent → Except ExecutionError String → Prop} (hQ : ∀ es' a, Q es' a) :
    Follows x i (BitgetDispatchExecution.splitVetoed (limitOid rootOid) root outcome) es Q := by
  refine obeys_perform_bind trivial (fun current hcurrent => ?_) fun e _ => hQ _ _
  cases current with
  | none => exact hQ _ _
  | some current =>
    have hoid : current.clientOid = limitOid rootOid := hcurrent
    dsimp only
    split
    next hstaged =>
      refine obeys_perform_bind ?_ (fun _ _ => hQ _ _) fun e _ => hQ _ _
      exact .staged (by simp [hoid]) hstaged hoid
    · exact hQ _ _

theorem follows_splitAmbiguous {root : LiveIntentRecord} {e : ExecutionError}
    {Q : List EntryEvent → Except ExecutionError String → Prop} (hQ : ∀ es' a, Q es' a) :
    Follows x i (BitgetDispatchExecution.splitAmbiguous root e) es Q :=
  follows_resolve_bind not_release_unknown (fun _ _ => hQ _ _) fun _ _ => hQ _ _

/-- The call that won both legs, right after its claim. -/
theorem follows_splitWinner {Q : List EntryEvent → Except ExecutionError String → Prop}
    (h : SplitWon x i d s route es) (hunsent : Never (EntryOp.sends (x.clientOid d)) es)
    (hopen : Never (EntryOp.closes (x.clientOid d)) es) (hQ : ∀ es' a, Q es' a) :
    Follows x i (x.splitWinner d (x.splitRoot d s route) (x.splitLimit d s route)) es Q := by
  have hsending : Sending x i d s.marginReservationId es (x.splitRoot d s route) :=
    ⟨h.admits, ⟨.market h.split, h.won, hunsent⟩, hopen, h.unreleased,
      Or.inl ⟨rfl, by simp [BitgetDispatchExecution.splitRoot]⟩⟩
  refine obeys_bind.mpr (follows_submitGuarded hsending (fun result es₁ hw₁ hr => ?_)
    fun es₁ r' v hv _ => ?_)
  · refine obeys_bind.mpr (obeys_attempt.mpr (follows_afterRoot (h.within hw₁ ?_ ?_ ?_ ?_) hr
      fun es₂ a => ?_))
    · exact fun _ => EntryOp.claimsPost_sent
    · exact fun _ => EntryOp.releases_sent
    · exact fun _ ho => EntryOp.sends_sent ho (limitOid_ne _).symm
    · exact fun _ => EntryOp.closes_sent
    · rcases a with e | status | ⟨root, outcome⟩
      · exact follows_splitAmbiguous hQ
      · exact hQ _ _
      · exact follows_splitVetoed hQ
  · rcases v with e | outcome | result
    · exact follows_splitAmbiguous hQ
    · exact follows_splitVetoed hQ
    · exact absurd rfl (hv result)

theorem entryLeg_of_aggregateSplit {root limit aggregate : LiveIntentRecord}
    (h : aggregateSplit root limit = some aggregate) :
    root.entryLeg = some .market ∧ limit.entryLeg = some .limit := by
  unfold aggregateSplit at h
  split at h
  next howned =>
    simp only [splitOwned, Bool.and_eq_true, decide_eq_true_eq] at howned
    exact ⟨by tauto, by tauto⟩
  · cases h

theorem clientOid_of_aggregateSplit {root limit aggregate : LiveIntentRecord}
    (h : aggregateSplit root limit = some aggregate) :
    limit.clientOid = limitOid root.clientOid ∧ aggregate.clientOid = root.clientOid ∧
      aggregate.symbol = root.symbol := by
  unfold aggregateSplit at h
  split at h
  next howned =>
    obtain rfl := Option.some.inj h
    simp only [splitOwned, Bool.and_eq_true, decide_eq_true_eq] at howned
    exact ⟨by tauto, rfl, rfl⟩
  · cases h

/-- A waiting leg is withdrawn while it is staged, and read back afterwards. -/
theorem follows_reconcileWaitingLeg {root limit : LiveIntentRecord}
    {Q : List EntryEvent → Except ExecutionError LiveIntentRecord → Prop}
    (hread : (⟨.get limit.clientOid, .ok (some limit)⟩ : EntryEvent) ∈ es)
    (hok : ∀ es' limit', es ⊆ es' → Held es' limit' → Q es' (.ok limit'))
    (herr : ∀ e es', Q es' (.error e)) :
    Follows x i (reconcileWaitingLeg root limit) es Q := by
  refine follows_required_bind (fun aggregate haggregate => ?_) fun e => herr _ _
  have hoid := (clientOid_of_aggregateSplit haggregate).1
  split
  next hstaged =>
    refine obeys_perform_bind (UpdateReason.staged hread hstaged hoid) (fun _ _ => ?_)
      fun e _ => herr _ _
    exact hok _ _ (List.subset_append_left _ _) (.written (by simp))
  · split
    · exact hok es limit (List.Subset.refl _) (.read hread)
    · refine follows_readIntent_bind (fun result es₁ hw₁ hr => ?_) fun e es₁ _ => herr _ _
      refine follows_persistReadback (.read (hw₁.subset hread)) hr (fun _ => ?_)
        (fun e => herr _ _) fun e => herr _ _
      exact hok _ _ (fun e he => by simp [hw₁.subset he]) (.written (by simp))

/-- A replay of a split entry reads both legs and sends neither. -/
theorem follows_splitReplay {rootOid : String}
    {Q : List EntryEvent → Except ExecutionError String → Prop} (hQ : ∀ es' a, Q es' a) :
    Follows x i (BitgetDispatchExecution.splitReplay rootOid) es Q := by
  refine obeys_perform_bind trivial (fun root hroot => ?_) fun e _ => hQ _ _
  refine obeys_perform_bind trivial (fun limit hlimit => ?_) fun e _ => hQ _ _
  refine follows_required_bind (fun root' h => ?_) fun e => hQ _ _
  subst h
  refine follows_required_bind (fun limit' h => ?_) fun e => hQ _ _
  subst h
  have hroot : root'.clientOid = rootOid := hroot
  have hlimit : limit'.clientOid = limitOid rootOid := hlimit
  refine follows_readIntent_bind (fun result es₁ hw₁ hr => ?_) fun e es₁ _ => hQ _ _
  refine follows_persistReadback_bind (.read (hw₁.subset (by simp [hroot]))) hr (fun _ => ?_)
    fun e es₂ => hQ _ _
  refine obeys_bind.mpr (follows_reconcileWaitingLeg ?_ (fun es₂ limit'' _ _ => ?_)
    fun e es₂ => hQ _ _)
  · have : (⟨.get limit'.clientOid, .ok (some limit')⟩ : EntryEvent) ∈ es₁ :=
      hw₁.subset (by simp [hlimit])
    simp [this]
  · refine follows_required_bind (fun aggregate _ => ?_) fun e => hQ _ _
    split
    · refine follows_reads_bind (reads_readRecoveryProtection _ _) (fun proof es₃ _ => ?_)
        fun e es₃ _ => hQ _ _
      split <;> exact hQ _ _
    · exact hQ _ _

/-- Both legs are claimed at once, from events that claimed nothing. -/
theorem follows_submitSplit {Q : List EntryEvent → Except ExecutionError String → Prop}
    (hidle : Within EntryOp.Idle [] es) (hadm : Admits x es d s.marginReservationId i)
    (hQ : ∀ es' a, Q es' a) : Follows x i (x.submitSplit d s route) es Q := by
  unfold BitgetDispatchExecution.submitSplit
  split
  · exact hQ _ _
  split
  · exact hQ _ _
  dsimp only
  refine obeys_perform_bind trivial (fun existing _ => ?_) fun e _ => hQ _ _
  have hclaim : ∀ es', Within EntryOp.Idle es es' → Follows x i
      (ask (.claimSplit (x.splitRoot d s route) (x.splitLimit d s route)) >>= fun won =>
        if won = true then
          x.splitWinner d (x.splitRoot d s route) (x.splitLimit d s route)
        else BitgetDispatchExecution.splitReplay (x.clientOid d)) es' Q := by
    intro es' hw
    have hw := hidle.trans hw
    have hnever : ∀ {p : EntryOp → Bool}, (∀ o : EntryOp, o.Idle → p o = false) → Never p es' :=
      fun hp => never_of_within hp (never_nil _) hw
    refine obeys_perform_bind ⟨d, s, route, hadm.mono ‹Within EntryOp.Idle es es'›.subset, rfl, rfl,
      hnever fun _ => EntryOp.claims_idle, hnever fun _ => EntryOp.releases_idle⟩
      (fun won _ => ?_) fun e _ => hQ _ _
    cases won with
    | false => exact follows_splitReplay hQ
    | true =>
      have hclaimed : ∀ {p : EntryOp → Bool}, (∀ o : EntryOp, o.Idle → p o = false) →
          p (.claimSplit (x.splitRoot d s route) (x.splitLimit d s route)) = false →
          Never p (es' ++ [⟨.claimSplit (x.splitRoot d s route) (x.splitLimit d s route),
            .ok true⟩]) := fun hp hclaim =>
        never_append.mpr ⟨hnever hp, never_cons.mpr ⟨hclaim, never_nil _⟩⟩
      refine follows_splitWinner ?_ ?_ ?_ hQ
      · refine ⟨hadm.mono fun e he => ?_, by simp, ?_, ?_, ?_, ?_⟩
        · exact List.mem_append_left _ (‹Within EntryOp.Idle es es'›.subset he)
        · exact hclaimed (fun _ => EntryOp.claimsPost_idle) rfl
        · exact hclaimed (fun _ => EntryOp.releases_idle) rfl
        · exact hclaimed (fun _ => EntryOp.sends_idle) rfl
        · exact hclaimed (fun _ => EntryOp.closes_idle) rfl
      · exact hclaimed (fun _ => EntryOp.sends_idle) rfl
      · exact hclaimed (fun _ => EntryOp.closes_idle) rfl
  cases existing with
  | none =>
    refine follows_reads_bind (reads_finalEntryVetoBeforeClaim d) (fun vetoed es₁ hw₁ => ?_)
      fun e es₁ _ => hQ _ _
    have hw₀ : Within EntryOp.Idle es (es ++ [⟨.get (x.clientOid d), .ok none⟩]) := .snoc rfl
    have hw : Within EntryOp.Idle es es₁ := hw₀.trans (idle_within hw₁)
    cases vetoed with
    | none => exact hclaim es₁ hw
    | some outcome =>
      have hrelease : ReleaseReason x es₁ i s.marginReservationId :=
        .unclaimed (hadm.mono hw.subset)
          (never_of_within (fun _ => EntryOp.claims_idle) (never_nil _) (hidle.trans hw))
          fun _ _ _ => hw₁.subset (by simp)
      refine obeys_perform_bind (fun _ => hrelease) (fun _ _ => hQ _ _) fun e _ => hQ _ _
  | some row => exact hclaim _ (.snoc rfl)

/-! ## Single entries -/

theorem follows_singleAmbiguous {r : LiveIntentRecord} {e : ExecutionError}
    {Q : List EntryEvent → Except ExecutionError String → Prop}
    (h : UpdateReason es r.ambiguous) (hQ : ∀ es' a, Q es' a) :
    Follows x i (BitgetDispatchExecution.singleAmbiguous r e) es Q := by
  refine obeys_bind.mpr (obeys_attempt.mpr ?_)
  refine obeys_perform_bind h (fun _ _ => ?_) fun e _ => hQ _ _
  refine follows_resolveReservation (fun _ _ ht => absurd ht not_release_unknown) ?_ fun id a => ?_
  · exact hQ _ _
  · cases a <;> exact hQ _ _

theorem ambiguous_of_stopped {r r' : LiveIntentRecord} (h : Stopped es r r')
    (hleg : r.entryLeg ≠ some .limit) : UpdateReason es r'.ambiguous := by
  cases h with
  | kept held => exact .ambiguous held
  | refused unsent => exact .refusedAmbiguous unsent
  | retired hlimit => exact absurd hlimit hleg

theorem follows_singleStatus {r : LiveIntentRecord} {result : AsyncExecutionResult}
    {claimed : Bool} {Q : List EntryEvent → Except ExecutionError String → Prop}
    (hwon : claimed = true → won es ≠ []) (hQ : ∀ es' a, Q es' a) :
    Follows x i (BitgetDispatchExecution.singleStatus r result claimed) es Q := by
  unfold BitgetDispatchExecution.singleStatus
  split
  · refine obeys_bind.mpr (obeys_attempt.mpr ?_)
    split
    next hclaimed =>
      refine follows_ask (hwon hclaimed) fun a => ?_
      rcases a with e | proof
      · exact hQ _ _
      · simp only [then_ok]
        split <;> exact hQ _ _
    · refine follows_reads (reads_readRecoveryProtection _ _) fun es' a _ => ?_
      rcases a with e | proof
      · exact hQ _ _
      · simp only [then_ok]
        split <;> exact hQ _ _
  · exact hQ _ _

/-- The result of a single entry is written, and its reservation settled by it. -/
theorem follows_singleSettled {r : LiveIntentRecord} {result : AsyncExecutionResult}
    {claimed : Bool} {Q : List EntryEvent → Except ExecutionError String → Prop}
    (held : Held es r) (hr : Reports es r.clientOid result) (hwon : claimed = true → won es ≠ [])
    (hQ : ∀ es' a, Q es' a) :
    Follows x i (BitgetDispatchExecution.singleSettled r result claimed) es Q := by
  refine follows_persistReadback_bind held hr (fun _ => ?_) fun e es₁ => hQ _ _
  refine follows_reads_bind (reads_reconcilePostFill _ _) (fun _ es₁ hw₁ => ?_)
    fun e es₁ _ => hQ _ _
  have hsub : es ⊆ es₁ := fun e he => hw₁.subset (List.mem_append_left _ he)
  have hwon' : ∀ es', es ⊆ es' → claimed = true → won es' ≠ [] := by
    intro es' hes hclaimed hnil
    obtain ⟨oid, hoid⟩ := List.exists_mem_of_ne_nil _ (hwon hclaimed)
    have := won_subset hes hoid
    simp [hnil] at this
  refine obeys_bind.mpr (follows_resolveReservation (fun id hid ht => ?_) ?_ fun id a => ?_)
  · exact .rejected (held.mono hsub) hid (hr.mono hsub) (status_of_release ht)
      (hw₁.subset (by simp))
  · exact follows_singleStatus (hwon' es₁ hsub) hQ
  · cases a with
    | ok _ =>
      exact follows_singleStatus (hwon' _ fun e he => List.mem_append_left _ (hsub he)) hQ
    | error e => exact hQ _ _

theorem follows_singleWinner {Q : List EntryEvent → Except ExecutionError String → Prop}
    (h : Sending x i d s.marginReservationId es (x.intent d s)) (hQ : ∀ es' a, Q es' a) :
    Follows x i (x.singleWinner d (x.intent d s)) es Q := by
  have hleg : (x.intent d s).entryLeg ≠ some .limit := by
    simp [BitgetDispatchExecution.intent]
  refine obeys_bind.mpr (follows_finalEntryVeto h (fun es₁ _ h₁ _ _ => ?_)
    fun es₁ r' v hv hstopped => ?_)
  · refine obeys_bind.mpr (follows_submitGuarded h₁ (fun result es₂ hw₂ hr => ?_)
      fun es₂ r' v hv hstopped => ?_)
    · refine follows_singleSettled (h₁.unsent.held.mono hw₂.subset) hr (fun _ => ?_) hQ
      exact won_ne_nil (won_subset hw₂.subset h₁.unsent.won)
    · rcases v with e | outcome | result
      · exact follows_singleAmbiguous (ambiguous_of_stopped hstopped hleg) hQ
      · exact hQ _ _
      · exact absurd rfl (hv result)
  · rcases v with e | _ | outcome
    · exact follows_singleAmbiguous (ambiguous_of_stopped hstopped hleg) hQ
    · exact absurd rfl hv
    · exact hQ _ _

/-- A replay of a single entry reads the order back. -/
theorem follows_singleReplay {r : LiveIntentRecord}
    {Q : List EntryEvent → Except ExecutionError String → Prop} (held : Held es r)
    (hQ : ∀ es' a, Q es' a) :
    Follows x i (BitgetDispatchExecution.singleReplay r) es Q := by
  refine obeys_bind.mpr (obeys_attempt.mpr (obeys_perform.mpr ⟨trivial, fun a ha => ?_⟩))
  have held' : ∀ a, Held (es ++ [⟨.get r.clientOid, a⟩]) r := fun a =>
    held.mono (List.subset_append_left _ _)
  rcases a with e | _ | existing
  · exact follows_singleAmbiguous (.ambiguous (held' _)) hQ
  · exact follows_singleAmbiguous (.ambiguous (held' _)) hQ
  · have hoid : existing.clientOid = r.clientOid := ha
    have hexisting : Held (es ++ [⟨.get r.clientOid, .ok (some existing)⟩]) existing :=
      .read (by simp [hoid])
    refine obeys_bind.mpr (obeys_attempt.mpr (follows_readIntent (fun result es₁ hw₁ hr => ?_)
      fun e es₁ hw₁ => ?_))
    · exact follows_singleSettled (hexisting.mono hw₁.subset) hr (by simp) hQ
    · exact follows_singleAmbiguous (.ambiguous (hexisting.mono hw₁.subset)) hQ

theorem follows_claimSingle {Q : List EntryEvent → Except ExecutionError String → Prop}
    (hidle : Within EntryOp.Idle [] es) (hadm : Admits x es d s.marginReservationId i)
    (hQ : ∀ es' a, Q es' a) : Follows x i (x.claimSingle d (x.intent d s)) es Q := by
  have hnever : ∀ {p : EntryOp → Bool}, (∀ o : EntryOp, o.Idle → p o = false) → Never p es :=
    fun hp => never_of_within hp (never_nil _) hidle
  refine obeys_bind.mpr (obeys_attempt.mpr (follows_ask ⟨d, s, hadm, rfl,
    hnever fun _ => EntryOp.claims_idle, hnever fun _ => EntryOp.releases_idle⟩ fun a => ?_))
  have held : Held (es ++ [⟨.claim (x.intent d s), a⟩]) (x.intent d s) :=
    .claimed (a := a) (by simp)
  have hclaimed : ∀ {p : EntryOp → Bool}, (∀ o : EntryOp, o.Idle → p o = false) →
      p (.claim (x.intent d s)) = false → Never p (es ++ [⟨.claim (x.intent d s), a⟩]) :=
    fun hp hclaim => never_append.mpr ⟨hnever hp, never_cons.mpr ⟨hclaim, never_nil _⟩⟩
  rcases a with e | _ | _
  · exact follows_singleAmbiguous (.ambiguous held) hQ
  · exact follows_singleReplay held hQ
  · refine follows_singleWinner ⟨hadm.mono (List.subset_append_left _ _), ⟨held, ?_, ?_⟩, ?_, ?_,
      Or.inl ⟨rfl, by simp [BitgetDispatchExecution.intent]⟩⟩ hQ
    · simp [won, wins]
    · exact hclaimed (fun _ => EntryOp.sends_idle) rfl
    · exact hclaimed (fun _ => EntryOp.closes_idle) rfl
    · exact hclaimed (fun _ => EntryOp.releases_idle) rfl

theorem follows_enterSingle {Q : List EntryEvent → Except ExecutionError String → Prop}
    (hidle : Within EntryOp.Idle [] es) (hadm : Admits x es d s.marginReservationId i)
    (hQ : ∀ es' a, Q es' a) : Follows x i (x.enterSingle d (x.intent d s)) es Q := by
  unfold BitgetDispatchExecution.enterSingle
  dsimp only
  refine obeys_perform_bind trivial (fun existing _ => ?_) fun e _ => hQ _ _
  have hw : Within EntryOp.Idle es (es ++ [⟨.get (x.intent d s).clientOid, .ok existing⟩]) :=
    .snoc rfl
  have hclaim : ∀ es', Within EntryOp.Idle es es' →
      Follows x i (x.claimSingle d (x.intent d s)) es' Q := fun es' hw =>
    follows_claimSingle (hidle.trans hw) (hadm.mono hw.subset) hQ
  split
  · refine obeys_perform_bind trivial (fun eligible _ => ?_) fun e _ => hQ _ _
    cases eligible with
    | false => exact hQ _ _
    | true => exact hclaim _ (hw.trans (.snoc rfl))
  · exact hclaim _ hw

/-- A single entry is claimed where no row of it was found. -/
theorem follows_submitSingle {Q : List EntryEvent → Except ExecutionError String → Prop}
    (hidle : Within EntryOp.Idle [] es) (hadm : Admits x es d s.marginReservationId i)
    (hQ : ∀ es' a, Q es' a) : Follows x i (x.submitSingle d s) es Q := by
  unfold BitgetDispatchExecution.submitSingle
  dsimp only
  refine obeys_perform_bind trivial (fun existing _ => ?_) fun e _ => hQ _ _
  have hw : Within EntryOp.Idle es (es ++ [⟨.get (x.intent d s).clientOid, .ok existing⟩]) :=
    .snoc rfl
  have henter : ∀ es', Within EntryOp.Idle es es' →
      Follows x i (x.enterSingle d (x.intent d s)) es' Q := fun es' hw =>
    follows_enterSingle (hidle.trans hw) (hadm.mono hw.subset) hQ
  split
  · refine follows_reads_bind reads_admissionBlocked (fun blocked es₁ hw₁ => ?_)
      fun e es₁ _ => hQ _ _
    split
    · exact hQ _ _
    · exact henter es₁ (hw.trans (idle_within hw₁))
  · exact henter _ hw

/-- `submit_entry`, from events that claimed, sent and released nothing. -/
theorem follows_submitEntry {Q : List EntryEvent → Except ExecutionError String → Prop}
    (hidle : Within EntryOp.Idle [] es) (hadm : Admits x es d s.marginReservationId i)
    (hQ : ∀ es' a, Q es' a) : Follows x i (x.submitEntry d s) es Q := by
  have hadmits : ∀ (s' : BitgetEntrySubmission) es',
      s'.marginReservationId = s.marginReservationId → Within EntryOp.Idle es es' →
      Admits x es' d s'.marginReservationId i := by
    intro s' es' hs hw
    rw [hs]
    exact hadm.mono hw.subset
  have hsplit : ∀ (s' : BitgetEntrySubmission) es' route,
      s'.marginReservationId = s.marginReservationId → Within EntryOp.Idle es es' →
      Follows x i (x.submitSplit d s' route) es' Q := fun s' es' route hs hw =>
    follows_submitSplit (hidle.trans hw) (hadmits s' es' hs hw) hQ
  have hsingle : ∀ (s' : BitgetEntrySubmission) es',
      s'.marginReservationId = s.marginReservationId → Within EntryOp.Idle es es' →
      Follows x i (x.submitSingle d s') es' Q := fun s' es' hs hw =>
    follows_submitSingle (hidle.trans hw) (hadmits s' es' hs hw) hQ
  unfold BitgetDispatchExecution.submitEntry
  dsimp only
  refine obeys_perform_bind trivial (fun existing _ => ?_) fun e _ => hQ _ _
  have hw : Within EntryOp.Idle es (es ++ [⟨.get (x.clientOid d), .ok existing⟩]) := .snoc rfl
  cases existing with
  | none =>
    refine obeys_bind.mpr (obeys_pure.mpr (then_ok.mpr ?_))
    split
    · exact hsplit s _ _ rfl hw
    · exact hsingle s _ rfl hw
  | some root =>
    dsimp only
    split
    · refine obeys_perform_bind trivial (fun child _ => ?_) fun e _ => hQ _ _
      refine follows_required_bind (fun child' _ => ?_) fun e => hQ _ _
      refine follows_required_bind (fun s' hs' => ?_) fun e => hQ _ _
      have hreservation : s'.marginReservationId = s.marginReservationId := by
        unfold BitgetDispatchExecution.replayedSubmission at hs'
        split at hs'
        · obtain rfl := Option.some.inj hs'
          rfl
        · cases hs'
      split
      · exact hsplit s' _ _ hreservation (hw.trans (.snoc rfl))
      · exact hsingle s' _ hreservation (hw.trans (.snoc rfl))
    · refine obeys_bind.mpr (obeys_pure.mpr (then_ok.mpr ?_))
      split
      · exact hsplit s _ _ rfl hw
      · exact hsingle s _ rfl hw

end FattyTrader
