import FattyTrader.EntryRecovery

/-!
# What a call of the entry path may do

`EntryProtocol` says, for each operation, what the events of the same call must show before
it : an order is sent only by the call that won its intent, after the last checks, once,
and not after it was given up ; an intent is updated only with a readback, a refusal, a
withdrawal or a settlement (`UpdateReason`) ; a reservation is released only unclaimed,
with a refused intent, with a rejected readback, or as an orphan (`ReleaseReason`).

`entryProtocol_follows` proves it of every call, one lemma for each function of the source.
What other calls do between two operations does not matter here.
-/

set_option linter.unusedSectionVars false

namespace FattyTrader

open Programs Prog

/-! ## Kinds of operations -/

namespace EntryOp

/-- The claim of an intent. -/
def claims : EntryOp → Bool
  | .claim _ => true
  | .claimSplit _ _ => true
  | _ => false

/-- The claim to send a staged limit child. -/
def claimsPost : EntryOp → Bool
  | .claimEntryPost _ => true
  | _ => false

/-- The request that sends the order of a client order id. -/
def sends (oid : String) : EntryOp → Bool
  | .placeEntryOrder order => order.clientOid = oid
  | _ => false

/-- An update that makes an intent terminal. -/
def closes (oid : String) : EntryOp → Bool
  | .update r => r.clientOid = oid && r.providerTerminal
  | _ => false

/-- A resolve that asks for a release. -/
def releases : EntryOp → Bool
  | .resolve _ outcome => outcome.target = some .released
  | _ => false

/-- The operations a call's right to its next ones depends on. -/
def commits : EntryOp → Bool
  | .claim _ | .claimSplit _ _ | .claimEntryPost _ | .update _ | .resolve _ _
  | .placeEntryOrder _ => true
  | _ => false

/-- The operations that change nothing a protocol watches : readings of the store and the
venue. -/
def reads : EntryOp → Bool
  | .claim _ | .claimSplit _ _ | .claimEntryPost _ | .claimCancel _ _ | .claimCancelPost _
  | .update _ | .resolve _ _ | .reserve _ | .transition _ _ _ | .placeEntryOrder _
  | .ensureLeverage _ _ | .cancelEntryOrder _ _ | .protectFilledPosition _ _ => false
  | _ => true

/-- The requests that change something at the venue. -/
def requests : EntryOp → Bool
  | .placeEntryOrder _ | .ensureLeverage _ _ | .cancelEntryOrder _ _
  | .protectFilledPosition _ _ => true
  | _ => false

/-- No kind the protocol counts. -/
def Idle (o : EntryOp) : Prop := o.commits = false

theorem idle_of_reads {o : EntryOp} (h : o.reads) : o.Idle := by
  cases o <;> simp_all [reads, Idle, commits]

variable {o : EntryOp} {oid : String}

theorem claims_idle (h : o.Idle) : o.claims = false := by
  cases o <;> simp_all [claims, Idle, commits]

theorem claimsPost_idle (h : o.Idle) : o.claimsPost = false := by
  cases o <;> simp_all [claimsPost, Idle, commits]

theorem sends_idle (h : o.Idle) : o.sends oid = false := by
  cases o <;> simp_all [sends, Idle, commits]

theorem closes_idle (h : o.Idle) : o.closes oid = false := by
  cases o <;> simp_all [closes, Idle, commits]

theorem releases_idle (h : o.Idle) : o.releases = false := by
  cases o <;> simp_all [releases, Idle, commits]

end EntryOp

/-! ## What the events of a call show -/

section Evidence

variable (x : BitgetDispatchExecution) (es : List EntryEvent)

/-- The client order id whose sending an event claims. -/
def wins : EntryEvent → List String
  | ⟨.claim r, .ok true⟩ => [r.clientOid]
  | ⟨.claimSplit market _, .ok true⟩ => [market.clientOid]
  | ⟨.claimEntryPost oid, .ok true⟩ => [oid]
  | _ => []

/-- The client order ids the call may send. -/
def won : List String := es.flatMap wins

/-- The venue reported this result for the order of a client order id. -/
def Reports (oid : String) (result : AsyncExecutionResult) : Prop :=
  ∃ (r : LiveIntentRecord) (submitted : Option Submitted) (reading : OrderReading),
    r.clientOid = oid ∧ (⟨.readOrder r.symbol r.clientOid, .ok reading⟩ : EntryEvent) ∈ es ∧
      reconcileIntent r submitted reading = .ok result

/-- The records a call may hold : one it claimed, read, or wrote. -/
inductive Held : LiveIntentRecord → Prop
  | read {r} : (⟨.get r.clientOid, .ok (some r)⟩ : EntryEvent) ∈ es → Held r
  | claimed {r} {a : Except ExecutionError Bool} :
      (⟨.claim r, a⟩ : EntryEvent) ∈ es → Held r
  | market {r l} {a : Except ExecutionError Bool} :
      (⟨.claimSplit r l, a⟩ : EntryEvent) ∈ es → Held r
  | limit {m r} {a : Except ExecutionError Bool} :
      (⟨.claimSplit m r, a⟩ : EntryEvent) ∈ es → Held r
  | written {r} : (⟨.update r, .ok ()⟩ : EntryEvent) ∈ es → Held r

/-- The last check of a limit child found nothing against sending it. -/
def Cleared (oid : String) : Prop :=
  ∃ r : LiveIntentRecord, (⟨.currentEntry oid, .ok (some r)⟩ : EntryEvent) ∈ es ∧
    r.cancelRequestedBy = none ∧ r.providerTerminal = false

/-- The source of a dispatch was eligible after the intent of the client order id was won. -/
def Vetted (dispatchId : Uuid) (oid : String) : Prop :=
  ∃ es₁ es₂, es = es₁ ++ (⟨.entrySourceEligible dispatchId, .ok true⟩ : EntryEvent) :: es₂ ∧
    oid ∈ won es₁

/-- The call holds a record it won and has not sent it. -/
structure Unsent (r : LiveIntentRecord) : Prop where
  held : Held es r
  won : r.clientOid ∈ won es
  unsent : Never (EntryOp.sends r.clientOid) es

/-- The records of the given client order ids, as the call read them. -/
def ReadAll (ids : List String) (records : List LiveIntentRecord) : Prop :=
  ∃ answers, List.Forall₂
      (fun oid a => (⟨.get oid, .ok a⟩ : EntryEvent) ∈ es) ids answers ∧
    records = answers.reduceOption

/-- The closes `_closed_lifecycle_reason` collected for a root. -/
def Collected (root : LiveIntentRecord) (records : List LiveIntentRecord) : Prop :=
  ∃ direct ids protection symbolCloses,
    ReadAll es (BitgetDispatchExecution.directCloseIds root.clientOid) direct ∧
    (⟨.protectionIntentIds root.clientOid, .ok ids⟩ : EntryEvent) ∈ es ∧
    ReadAll es ids protection ∧
    (⟨.symbolCloseIntents root.symbol, .ok symbolCloses⟩ : EntryEvent) ∈ es ∧
    records = direct ++ protection ++ symbolCloses

/-- The position was read as flat just now, and the collected closes cover the fills of the
root : of a single entry, or of both legs. -/
structure Settles (intent : LiveIntentRecord) : Prop where
  flat : ∃ es', es = es' ++ [(⟨.positionIsFlat intent.symbol, .ok true⟩ : EntryEvent)]
  covered : ∃ records, Collected es intent records ∧
    intent.filledQty ≤ moved records
  filled : 0 < intent.filledQty
  base : ∃ root, (⟨.update root, .ok ()⟩ : EntryEvent) ∈ es ∧
    (intent = root ∨ ∃ limit, Held es limit ∧ aggregateSplit root limit = some intent)

/-- Why an intent is updated. -/
inductive UpdateReason : LiveIntentRecord → Prop
  | readback {r result} (held : Held es r) (reports : Reports es r.clientOid result)
      (le : r.filledQty ≤ result.filledQty) : UpdateReason (r.readBack result)
  | refused {r} (unsent : Unsent es r) : UpdateReason r.refused
  | refusedAmbiguous {r} (unsent : Unsent es r) : UpdateReason r.refused.ambiguous
  | withdrawn {r} {rootOid : String} (unsent : Unsent es r) (leg : r.clientOid = limitOid rootOid) :
      UpdateReason r.retired
  | ambiguous {r} (held : Held es r) : UpdateReason r.ambiguous
  | unclaimed {m l} (split : (⟨.claimSplit m l, .ok true⟩ : EntryEvent) ∈ es)
      (unclaimed : Never EntryOp.claimsPost es) : UpdateReason l.retired
  | staged {r} {rootOid : String} (read : (⟨.get r.clientOid, .ok (some r)⟩ : EntryEvent) ∈ es)
      (staged : r.state = .staged) (leg : r.clientOid = limitOid rootOid) :
      UpdateReason r.retired
  | settled {r} (settles : Settles es r) : UpdateReason r.settled

/-- The call may enter the dispatch under the reservation : a submission names it, and the
dispatcher was given it. -/
def Admits (d : BitgetDispatch) (reservationId : Uuid) : EntryCall → Prop
  | .submit d' submission => d = d' ∧ reservationId = submission.marginReservationId
  | .dispatch d' request _ => d = d' ∧ ∃ snapshotId : Uuid,
      (⟨.reserve (x.admissionRequest d request), .ok (.accepted snapshotId reservationId)⟩ :
        EntryEvent) ∈ es
  | _ => False

/-- Why a reservation is released. -/
inductive ReleaseReason (i : EntryCall) : Uuid → Prop
  | unclaimed {d id} (admits : Admits x es d id i) (unclaimed : Never EntryOp.claims es)
      (absent : ∀ d' s, i = .submit d' s →
        (⟨.get (x.clientOid d), .ok none⟩ : EntryEvent) ∈ es) : ReleaseReason i id
  | refused {r id} (unsent : Unsent es r) (reservation : r.marginReservationId = some id)
      (persisted : (⟨.update r.refused, .ok ()⟩ : EntryEvent) ∈ es) : ReleaseReason i id
  | rejected {r result id} (held : Held es r) (reservation : r.marginReservationId = some id)
      (reports : Reports es r.clientOid result) (rejected : result.status = .rejected)
      (persisted : (⟨.update (r.readBack result), .ok ()⟩ : EntryEvent) ∈ es) :
      ReleaseReason i id
  | orphan {environment rows} {row : MarginReservation} (recover : i = .recover)
      (candidates : (⟨.orphanCandidates environment, .ok rows⟩ : EntryEvent) ∈ es)
      (mem : row ∈ rows) : ReleaseReason i row.id

/-- A root the venue reported as filled. -/
def RootFilled (oid : String) : Prop :=
  ∃ result, Reports es oid result ∧ result.status = .filled ∧ 0 < result.filledQty

/-- A leg the call may send : the root it claimed, or the limit child it claimed to send, once
its root has filled. -/
def MaySend (d : BitgetDispatch) (r : LiveIntentRecord) : Prop :=
  (r.clientOid = x.clientOid d ∧ r.clientOid ∈ won es) ∨
    (r.clientOid = limitOid (x.clientOid d) ∧
      (⟨.claimEntryPost r.clientOid, .ok true⟩ : EntryEvent) ∈ es ∧
      RootFilled es (x.clientOid d) ∧
      (r.entryLeg = some .limit → Cleared es r.clientOid) ∧
      (⟨.get r.clientOid, .ok (some r)⟩ : EntryEvent) ∈ es)

/-- Why an order is sent. -/
structure Sends (i : EntryCall) (order : EntryOrder) : Prop where
  entry : ∃ d id r, Admits x es d id i ∧ order = BitgetDispatchExecution.entryOrder r ∧
    Held es r ∧ MaySend x es d r ∧ Vetted es d.id r.clientOid
  unsent : Never (EntryOp.sends order.clientOid) es
  open_ : Never (EntryOp.closes order.clientOid) es
  unreleased : Never EntryOp.releases es

/-- The settlement that closes a dispatch. -/
def Closes (dispatchId : Uuid) : Prop :=
  ∃ r d, (⟨.update r, .ok ()⟩ : EntryEvent) ∈ es ∧ r.state = .reconciled ∧
    d.id = dispatchId ∧ r.clientOid = x.clientOid d

end Evidence

/-! ## The protocol -/

/-- What the call `i` may do after its events `es`. -/
def EntryProtocol (x : BitgetDispatchExecution) (i : EntryCall) (es : List EntryEvent) :
    EntryOp → Prop
  | .claim r => ∃ d s, Admits x es d s.marginReservationId i ∧ r = x.intent d s ∧
      Never EntryOp.claims es ∧ Never EntryOp.releases es
  | .claimSplit m l => ∃ d s route, Admits x es d s.marginReservationId i ∧
      m = x.splitRoot d s route ∧ l = x.splitLimit d s route ∧
      Never EntryOp.claims es ∧ Never EntryOp.releases es
  | .claimEntryPost oid => ∃ d s route,
      (⟨.claimSplit (x.splitRoot d s route) (x.splitLimit d s route), .ok true⟩ : EntryEvent) ∈ es ∧
      oid = limitOid (x.clientOid d) ∧ Never EntryOp.claimsPost es ∧
      Never EntryOp.releases es ∧ RootFilled es (x.clientOid d)
  | .update r => UpdateReason es r
  | .resolve id outcome => outcome.target = some .released → ReleaseReason x es i id
  | .placeEntryOrder order => Sends x es i order
  | .ensureLeverage _ _ => won es ≠ []
  | .protectFilledPosition _ _ => won es ≠ []
  | .cancelEntryOrder _ _ => ∃ symbol mid ro, i = .cancel symbol mid ro
  | .claimCancel _ _ => ∃ symbol mid ro, i = .cancel symbol mid ro
  | .claimCancelPost _ => ∃ symbol mid ro, i = .cancel symbol mid ro
  | .reserve q => ∃ d request sizing, i = .dispatch d request sizing ∧
      q = x.admissionRequest d request
  | .transition id expected target => (expected.entry = false → target.entry = false) ∧
      (target = .closed → Closes x es id)
  | _ => True

/-- A row that is read has the client order id that was asked for. -/
def EntryAnswer : (o : EntryOp) → Except ExecutionError (EntryAns o) → Prop
  | .get oid, .ok (some r) => r.clientOid = oid
  | _, _ => True

def EntryOp.Reads (o : EntryOp) : Prop := o.reads = true

theorem protocol_of_reads {x : BitgetDispatchExecution} {i : EntryCall} (es : List EntryEvent)
    (o : EntryOp) (h : o.Reads) : EntryProtocol x i es o := by
  cases o <;> simp_all [EntryOp.Reads, EntryOp.reads, EntryProtocol]

/-! ## Evidence is kept -/

section Kept

variable {x : BitgetDispatchExecution} {i : EntryCall} {d : BitgetDispatch}
  {es es' : List EntryEvent} {P : EntryOp → Prop} {oid : String} {r : LiveIntentRecord}

theorem won_append (es qs : List EntryEvent) : won (es ++ qs) = won es ++ won qs := by
  simp [won]

theorem won_subset (h : es ⊆ es') : won es ⊆ won es' := by
  intro oid hoid
  obtain ⟨e, he, hw⟩ := List.mem_flatMap.mp hoid
  exact List.mem_flatMap.mpr ⟨e, h he, hw⟩

theorem won_ne_nil (h : oid ∈ won es) : won es ≠ [] := List.ne_nil_of_mem h

theorem Reports.mono {result : AsyncExecutionResult} (h : Reports es oid result) (hs : es ⊆ es') :
    Reports es' oid result := by
  obtain ⟨r, submitted, reading, hr, hmem, hok⟩ := h
  exact ⟨r, submitted, reading, hr, hs hmem, hok⟩

theorem Held.mono (h : Held es r) (hs : es ⊆ es') : Held es' r := by
  cases h with
  | read h => exact .read (hs h)
  | claimed h => exact .claimed (hs h)
  | market h => exact .market (hs h)
  | limit h => exact .limit (hs h)
  | written h => exact .written (hs h)

theorem RootFilled.mono (h : RootFilled es oid) (hs : es ⊆ es') : RootFilled es' oid := by
  obtain ⟨result, hreports, hfilled⟩ := h
  exact ⟨result, hreports.mono hs, hfilled⟩

theorem Admits.mono {id : Uuid} (h : Admits x es d id i) (hs : es ⊆ es') : Admits x es' d id i := by
  cases i with
  | submit d' s => exact h
  | dispatch d' request sizing =>
    obtain ⟨hd, snapshotId, hmem⟩ := h
    exact ⟨hd, snapshotId, hs hmem⟩
  | recover => exact h
  | cancel symbol mid ro => exact h

theorem Vetted.within {id : Uuid} (h : Vetted es id oid) (hw : Within P es es') :
    Vetted es' id oid := by
  obtain ⟨es₁, es₂, rfl, hwon⟩ := h
  obtain ⟨qs, rfl, -⟩ := hw
  exact ⟨es₁, es₂ ++ qs, by simp, hwon⟩

theorem Unsent.within (h : Unsent es r) (hP : ∀ o, P o → o.sends r.clientOid = false)
    (hw : Within P es es') : Unsent es' r :=
  ⟨h.held.mono hw.subset, won_subset hw.subset h.won, never_of_within hP h.unsent hw⟩

end Kept

end FattyTrader
