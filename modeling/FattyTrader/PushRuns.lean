import FattyTrader.NotificationRuns
import FattyTrader.WebPush

/-!
# What the web push workers keep

Any number of calls of `run_once` run next to each other, each with its batch, while notifications
are fanned out and time passes. A call settles every delivery it claimed before it ends, unless the
message of one cannot be built (`settlesBatch_iff`), and a send that timed out is the one transient
failure it does not count as an attempt to repeat (`timeout_iff`).

In a run in which every claimed payload is an object whose message is built or refused with a
`NotificationPayloadError`, the storage does not raise, no send times out, and no lease ends before
its rows are settled, a delivery is with the transport for one call at a time and under its lease, is
not handed over again after a send that succeeded, and is not attempted too often
(`pushWorkers_deliver`).
-/

set_option linter.unusedSectionVars false

open Tables Leases Programs Prog Runs

namespace FattyTrader

/-! ## Claims, sends and settlements -/

def PushDelivery.claimOf (d : PushDelivery) : Claim PushKey ClaimToken :=
  ⟨d.key, d.claimToken, d.attempts⟩

/-- The row an operation settles, and the token. -/
def PushOp.target : PushOp → Option (PushKey × ClaimToken)
  | .markSent d => some (d.key, d.claimToken)
  | .markRetry d _ => some (d.key, d.claimToken)
  | .markFailed d _ => some (d.key, d.claimToken)
  | _ => none

def pushDuties : Duties PushOp PushAns PushFault PushKey ClaimToken where
  given
    | ⟨.claimDue _ _ _, .ok ds⟩ => ds.map PushDelivery.claimOf
    | _ => []
  target := PushOp.target

/-- The claim an operation hands over to the transport. -/
def PushOp.handed : PushOp → Option (Claim PushKey ClaimToken)
  | .handOver d _ => some d.claimOf
  | _ => none

/-- The claim whose send an event ends, and how. -/
def pushAnswered : PushEvent → Option (Claim PushKey ClaimToken × PushAnswer)
  | ⟨.transport d, .ok answer⟩ => some (d.claimOf, answer)
  | _ => none

section Sends

variable (es : List PushEvent) (c : Claim PushKey ClaimToken)

def HandedOver : Prop := ∃ e ∈ es, e.op.handed = some c

def Answered (answer : PushAnswer) : Prop := ∃ e ∈ es, pushAnswered e = some (c, answer)

/-- The transport has the delivery. -/
def InTransport : Prop := HandedOver es c ∧ ∀ answer, ¬ Answered es c answer

/-- A send that succeeded. -/
def Succeeded : Prop := ∃ answer, Answered es c answer ∧ answer.result = .ok ()

variable {es c} {e : PushEvent} {answer : PushAnswer}

theorem handedOver_append :
    HandedOver (es ++ [e]) c ↔ HandedOver es c ∨ e.op.handed = some c := by
  simp only [HandedOver, List.mem_append, List.mem_singleton, or_and_right, exists_or,
    exists_eq_left]

theorem answered_append :
    Answered (es ++ [e]) c answer ↔ Answered es c answer ∨ pushAnswered e = some (c, answer) := by
  simp only [Answered, List.mem_append, List.mem_singleton, or_and_right, exists_or, exists_eq_left]

end Sends

/-- The payload is an object, and its message is built or refused by the formatter. -/
def Builds (w : WebPushDeliveryWorker) (notificationId : Uuid) (payload : JsonObject) : Prop :=
  w.buildPushMessage notificationId payload ≠ .error .other

/-- The answers of the operations, where claimed payloads build, no send times out, and after a claim
nothing raises. -/
def PushAnswers (w : WebPushDeliveryWorker) : (o : PushOp) → Except PushFault (PushAns o) → Prop
  | .claimDue _ _ _, .ok ds => (ds.map PushDelivery.key).Nodup ∧
      ∀ d ∈ ds, Builds w d.notificationId d.payload
  | .claimDue _ _ _, .error _ => True
  | .transport _, .ok answer => answer ≠ .timeout
  | _, .ok _ => True
  | _, .error _ => False

/-- What a call may do with a claim that is open : hand it over once, end its send, and settle it
when it is not with the transport, as sent after a success and for a retry with attempts left. -/
structure Open (es : List PushEvent) (d : PushDelivery) : Prop where
  claimed : pushDuties.Claimed es d.claimOf
  unsettled : ¬ pushDuties.Settled es d.claimOf

def PushProtocol (w : WebPushDeliveryWorker) (es : List PushEvent) : PushOp → Prop
  | .claimDue _ leaseSeconds _ => minLeaseSeconds ≤ leaseSeconds
  | .handOver d _ => Open es d ∧ ¬ HandedOver es d.claimOf
  | .transport d => Open es d ∧ InTransport es d.claimOf
  | .disableSubscription _ _ => True
  | .markSent d => Open es d ∧ ¬ InTransport es d.claimOf
  | .markRetry d _ => Open es d ∧ ¬ InTransport es d.claimOf ∧ ¬ Succeeded es d.claimOf ∧
      d.attempts < w.maxAttempts
  | .markFailed d _ => Open es d ∧ ¬ InTransport es d.claimOf ∧ ¬ Succeeded es d.claimOf

/-! ## One call -/

section Call

variable {w : WebPushDeliveryWorker} {d : PushDelivery} {ds rest done : List PushDelivery}
  {es es' : List PushEvent} {e : PushEvent} {answer : PushAnswer}

/-- An event that concerns no other delivery. -/
structure About (d : PushDelivery) (e : PushEvent) : Prop where
  given : pushDuties.given e = []
  handed : ∀ c, e.op.handed = some c → c = d.claimOf
  answered : ∀ c answer, pushAnswered e = some (c, answer) → c = d.claimOf
  target : ∀ p, e.op.target = some p → p = (d.key, d.claimToken)

/-- Nothing was done with the delivery. -/
def Fresh (es : List PushEvent) (d : PushDelivery) : Prop :=
  Open es d ∧ ¬ HandedOver es d.claimOf ∧ ∀ answer, ¬ Answered es d.claimOf answer

/-- Its send has ended with this answer. -/
def Got (es : List PushEvent) (d : PushDelivery) (answer : PushAnswer) : Prop :=
  Open es d ∧ ∀ a, Answered es d.claimOf a ↔ a = answer

/-- The delivery was settled, with events that concern no other one. -/
def Handled (es : List PushEvent) (d : PushDelivery) (es' : List PushEvent)
    (r : Except PushFault Bool) : Prop :=
  (∃ b, r = .ok b) ∧ ∃ qs, es' = es ++ qs ∧ (∀ e ∈ qs, About d e) ∧
    pushDuties.Settled es' d.claimOf

theorem Handled.cons {r : Except PushFault Bool} (h : Handled (es ++ [e]) d es' r)
    (he : About d e) : Handled es d es' r := by
  obtain ⟨hr, qs, rfl, hqs, hs⟩ := h
  exact ⟨hr, e :: qs, by simp, by simpa using ⟨he, hqs⟩, hs⟩

theorem Open.append (h : Open es d) (ht : e.op.target = none) :
    Open (es ++ [e]) d where
  claimed := Duties.claimed_append.mpr (Or.inl h.claimed)
  unsettled hs := by
    rcases Duties.settled_append.mp hs with hs | hs
    · exact h.unsettled hs
    · have : e.op.target = some _ := hs
      simp [ht] at this

theorem about_handOver (d : PushDelivery) (message : String) (r : Except PushFault Unit) :
    About d ⟨.handOver d message, r⟩ :=
  ⟨rfl, fun _ h => (Option.some.inj h).symm, fun _ _ h => by simp [pushAnswered] at h,
    fun _ h => by simp [PushOp.target] at h⟩

theorem about_transport (d : PushDelivery) (answer : PushAnswer) :
    About d ⟨.transport d, .ok answer⟩ :=
  ⟨rfl, fun _ h => by simp [PushOp.handed] at h, fun _ _ h =>
    ((Prod.mk.inj (Option.some.inj h)).1).symm, fun _ h => by simp [PushOp.target] at h⟩

theorem about_disable (d : PushDelivery) (id : Uuid) (reason : String)
    (r : Except PushFault Bool) : About d ⟨.disableSubscription id reason, r⟩ :=
  ⟨rfl, fun _ h => by simp [PushOp.handed] at h, fun _ _ h => by simp [pushAnswered] at h,
    fun _ h => by simp [PushOp.target] at h⟩

/-- A settlement of the delivery. -/
theorem about_target {o : PushOp} (ho : o.target = some (d.key, d.claimToken))
    (r : Except PushFault (PushAns o)) : About d ⟨o, r⟩ := by
  cases o with
  | markSent _ | markRetry _ _ | markFailed _ _ =>
    exact ⟨rfl, fun _ h => by simp [PushOp.handed] at h, fun _ _ h => by simp [pushAnswered] at h,
      fun p h => (Option.some.inj (ho.symm.trans h)).symm⟩
  | _ => simp [PushOp.target] at ho

/-- A settlement, after which the delivery is handled. -/
theorem obeys_settle (o : PushOp) (ho : o.target = some (d.key, d.claimToken))
    (hφ : PushProtocol w es o) (b : Bool) :
    Obeys (PushAnswers w) (PushProtocol w) (do let _ ← perform o; pure b : PushProg Bool) es
      (Handled es d) := by
  have hA : ∀ e, ¬ PushAnswers w o (.error e) := fun e => by
    cases o with
    | claimDue _ _ _ => simp [PushOp.target] at ho
    | _ => exact id
  refine obeys_perform_bind hφ (fun a _ => ?_) fun e he => absurd he (hA e)
  exact ⟨⟨b, rfl⟩, [⟨o, .ok a⟩], rfl, by simpa using about_target ho (.ok a),
    Duties.settled_append.mpr (Or.inr ho)⟩

theorem Fresh.not_sending (h : Fresh es d) : ¬ InTransport es d.claimOf := fun hs => h.2.1 hs.1

theorem Fresh.not_succeeded (h : Fresh es d) : ¬ Succeeded es d.claimOf := fun ⟨a, ha, _⟩ =>
  h.2.2 a ha

theorem Got.not_sending (h : Got es d answer) : ¬ InTransport es d.claimOf := fun hs =>
  hs.2 answer ((h.2 answer).mpr rfl)

/-- What a send asks for. -/
theorem target_settlement (d : PushDelivery) (result : Except PushError Unit) :
    (w.settlement d result).target = some (d.key, d.claimToken) := by
  unfold WebPushDeliveryWorker.settlement
  split
  · rfl
  · rfl
  · split <;> rfl
  · rfl
  · rfl

theorem protocol_settlement (h : Got es d answer) :
    PushProtocol w es (w.settlement d answer.result) := by
  have hfailed : answer.result ≠ .ok () → ¬ Succeeded es d.claimOf := by
    rintro hne ⟨a, ha, hok⟩
    obtain rfl := (h.2 a).mp ha
    exact hne hok
  cases hresult : answer.result with
  | ok a => exact ⟨h.1, h.not_sending⟩
  | error e =>
    have hnot := hfailed (by simp [hresult])
    cases e with
    | retryable =>
      unfold WebPushDeliveryWorker.settlement
      dsimp only
      split
      · exact ⟨h.1, h.not_sending, hnot⟩
      next hlt => exact ⟨h.1, h.not_sending, hnot, not_le.mp hlt⟩
    | _ => exact ⟨h.1, h.not_sending, hnot⟩

/-- One delivery of the batch. -/
theorem obeys_deliver_push (h : Fresh es d) (hb : Builds w d.notificationId d.payload) :
    Obeys (PushAnswers w) (PushProtocol w) (w.deliver d) es (Handled es d) := by
  unfold WebPushDeliveryWorker.deliver
  split
  · exact obeys_settle (.markFailed d "invalid-payload") rfl
      ⟨h.1, h.not_sending, h.not_succeeded⟩ false
  next he => exact absurd he hb
  next message hmessage =>
    refine obeys_perform_bind ⟨h.1, h.2.1⟩ (fun u _ => ?_) fun e he => he.elim
    have hhanded := about_handOver d message (.ok u)
    have hopen : Open (es ++ [⟨.handOver d message, .ok u⟩]) d := h.1.append rfl
    have hsending : InTransport (es ++ [⟨.handOver d message, .ok u⟩]) d.claimOf :=
      ⟨handedOver_append.mpr (Or.inr rfl), fun a ha =>
        h.2.2 a ((answered_append.mp ha).resolve_right (by simp [pushAnswered]))⟩
    refine (obeys_perform_bind ⟨hopen, hsending⟩ (fun answer _ => ?_) fun e he =>
      he.elim).imp fun es' r hr => Handled.cons hr hhanded
    have hgot : Got (es ++ [⟨.handOver d message, .ok u⟩] ++ [⟨.transport d, .ok answer⟩]) d answer :=
      ⟨hopen.append rfl, fun a => by
        rw [answered_append]
        constructor
        · rintro (ha | ha)
          · exact absurd ha (hsending.2 a)
          · exact (Prod.mk.inj (Option.some.inj ha)).2.symm
        · rintro rfl
          exact Or.inr rfl⟩
    refine Obeys.imp ?_ fun es' r hr => Handled.cons hr (about_transport d answer)
    split
    · have hdisable := about_disable d d.subscription.id "subscription-gone"
      refine obeys_perform_bind trivial (fun b _ => ?_) fun e he => he.elim
      have hgot' : Got (_ ++ [⟨.disableSubscription d.subscription.id "subscription-gone", .ok b⟩]) d
          answer := ⟨hgot.1.append rfl, fun a => by
        rw [answered_append, hgot.2]
        simp [pushAnswered]⟩
      exact (obeys_settle _ (target_settlement d _) (protocol_settlement hgot') false).imp
        fun es' r hr => Handled.cons hr (hdisable (.ok b))
    · exact obeys_settle _ (target_settlement d _) (protocol_settlement hgot) _

/-- The call has claimed `done ++ rest`, settled `done`, and done nothing with `rest`. -/
structure InBatch (es : List PushEvent) (done rest : List PushDelivery) : Prop where
  claimed : ∀ c, pushDuties.Claimed es c ↔ ∃ d ∈ done ++ rest, d.claimOf = c
  keys : ((done ++ rest).map PushDelivery.key).Nodup
  settled : ∀ d ∈ done, pushDuties.Settled es d.claimOf
  fresh : ∀ d ∈ rest, Fresh es d

/-- Events about another row. -/
theorem fresh_append {d' : PushDelivery} (h : Fresh es d') (hne : d'.key ≠ d.key)
    {qs : List PushEvent} (hqs : ∀ e ∈ qs, About d e) : Fresh (es ++ qs) d' := by
  have hclaim : d'.claimOf ≠ d.claimOf := fun heq => hne (congrArg Claim.key heq)
  refine ⟨⟨?_, ?_⟩, ?_, ?_⟩
  · obtain ⟨e, he, hc⟩ := h.1.claimed
    exact ⟨e, List.mem_append_left _ he, hc⟩
  · rintro ⟨e, he, ht⟩
    rcases List.mem_append.mp he with he | he
    · exact h.1.unsettled ⟨e, he, ht⟩
    · exact hne (congrArg Prod.fst ((hqs e he).target _ ht))
  · rintro ⟨e, he, hc⟩
    rcases List.mem_append.mp he with he | he
    · exact h.2.1 ⟨e, he, hc⟩
    · exact hclaim ((hqs e he).handed _ hc)
  · rintro answer ⟨e, he, hc⟩
    rcases List.mem_append.mp he with he | he
    · exact h.2.2 answer ⟨e, he, hc⟩
    · exact hclaim ((hqs e he).answered _ _ hc)

theorem InBatch.next (h : InBatch es done (d :: rest)) {r : Except PushFault Bool}
    (hr : Handled es d es' r) : InBatch es' (done ++ [d]) rest := by
  obtain ⟨-, qs, rfl, hqs, hs⟩ := hr
  have hlist : done ++ [d] ++ rest = done ++ d :: rest := by simp
  refine ⟨fun c => ?_, by rw [hlist]; exact h.keys, fun d' hd' => ?_, fun d' hd' => ?_⟩
  · rw [hlist, ← h.claimed]
    constructor
    · rintro ⟨e, he, hc⟩
      rcases List.mem_append.mp he with he | he
      · exact ⟨e, he, hc⟩
      · rw [(hqs e he).given] at hc
        exact absurd hc List.not_mem_nil
    · rintro ⟨e, he, hc⟩
      exact ⟨e, List.mem_append_left _ he, hc⟩
  · rcases List.mem_append.mp hd' with hd' | hd'
    · obtain ⟨e, he, ht⟩ := h.settled d' hd'
      exact ⟨e, List.mem_append_left _ he, ht⟩
    · obtain rfl := List.mem_singleton.mp hd'
      exact hs
  · have hkeys := h.keys
    rw [List.map_append, List.map_cons, List.nodup_append] at hkeys
    refine fresh_append (h.fresh d' (List.mem_cons_of_mem d hd')) (fun heq => ?_) hqs
    exact (List.nodup_cons.mp hkeys.2.1).1 (heq ▸ List.mem_map_of_mem hd')

theorem InBatch.finished (h : InBatch es done []) : pushDuties.Done es := fun c hc => by
  obtain ⟨d, hd, rfl⟩ := (h.claimed c).mp hc
  exact h.settled d (by simpa using hd)

/-- Every operation has an answer. -/
def someAnswer : (o : PushOp) → Except PushFault (PushAns o)
  | .claimDue _ _ _ => .ok []
  | .handOver _ _ => .ok ()
  | .transport _ => .ok (.response 201)
  | .disableSubscription _ _ => .ok true
  | .markSent _ => .ok true
  | .markRetry _ _ => .ok true
  | .markFailed _ _ => .ok true

theorem answer_push (w : WebPushDeliveryWorker) (o : PushOp) : PushAnswers w o (someAnswer o) := by
  cases o <;> simp [PushAnswers, someAnswer]

/-- The whole batch. -/
theorem obeys_batch : ∀ (rest : List PushDelivery) (done : List PushDelivery) (es : List PushEvent),
    InBatch es done rest → (∀ d ∈ rest, Builds w d.notificationId d.payload) →
    Obeys (PushAnswers w) (PushProtocol w) (each rest w.deliver) es fun es _ => pushDuties.Done es
  | [], _, _, h, _ => h.finished
  | d :: rest, done, es, h, hb => by
    refine obeys_bind.mpr ((obeys_deliver_push (h.fresh d List.mem_cons_self)
      (hb d List.mem_cons_self)).imp fun es' r hr => ?_)
    obtain ⟨b, rfl⟩ := hr.1
    refine obeys_bind.mpr ((obeys_batch rest (done ++ [d]) es' (h.next hr)
      fun d' hd' => hb d' (List.mem_cons_of_mem d hd')).imp fun es'' r' hr' => ?_)
    cases r' with
    | ok bs => exact hr'
    | error e => exact hr'

/-- The events of a call that has just claimed `ds`. -/
theorem inBatch_claimed {worker : String} {leaseSeconds limit : ℕ}
    (hkeys : (ds.map PushDelivery.key).Nodup) :
    InBatch [⟨.claimDue worker leaseSeconds limit, .ok ds⟩] [] ds where
  claimed c := by simp [Duties.Claimed, pushDuties]
  keys := hkeys
  settled d hd := absurd hd List.not_mem_nil
  fresh d hd := by
    refine ⟨⟨⟨_, List.mem_singleton_self _, List.mem_map_of_mem hd⟩, ?_⟩, ?_, fun answer => ?_⟩
    · simp [Duties.Settled, pushDuties, PushOp.target]
    · simp [HandedOver, PushOp.handed]
    · simp [Answered, pushAnswered]

theorem pushDone_nil : pushDuties.Done [] := fun _ hc => by simp [Duties.Claimed] at hc

/-- A call ends with its batch settled. -/
theorem obeys_pushCall (call : PushCall) :
    Obeys (PushAnswers w) (PushProtocol w) ((pushWorkers w).body call) []
      fun es _ => pushDuties.Done es := by
  refine obeys_bind.mpr (Obeys.imp (Q := fun es _ => pushDuties.Done es) ?_ fun es r hr => ?_)
  · unfold WebPushDeliveryWorker.runOnce
    split
    · exact pushDone_nil
    next hlease =>
      refine obeys_perform_bind (not_lt.mp hlease) (fun ds hds => ?_) fun e _ c hc => ?_
      · split
        next hnil =>
          subst hnil
          exact InBatch.finished (inBatch_claimed hds.1)
        · refine obeys_bind.mpr ((obeys_batch ds [] _ (inBatch_claimed hds.1) hds.2).imp
            fun es r hr => ?_)
          cases r with
          | ok bs => exact hr
          | error e => exact hr
      · simp [Duties.Claimed, pushDuties] at hc
  · cases r with
    | ok a => exact hr
    | error e => exact hr

/-- From its claim on, a call settles the batch whatever the answers are, exactly when the message of
each delivery can be built. -/
theorem settlesBatch_iff (worker : String) (leaseSeconds limit : ℕ)
    (hkeys : (ds.map PushDelivery.key).Nodup) :
    Obeys (PushAnswers w) (fun _ _ => True) (each ds w.deliver)
        [⟨.claimDue worker leaseSeconds limit, .ok ds⟩] (fun es _ => pushDuties.Done es) ↔
      ∀ d ∈ ds, Builds w d.notificationId d.payload := by
  constructor
  · have hrest : ∀ (rest done : List PushDelivery) (es : List PushEvent), InBatch es done rest →
        Obeys (PushAnswers w) (fun _ _ => True) (each rest w.deliver) es
          (fun es _ => pushDuties.Done es) → ∀ d ∈ rest, Builds w d.notificationId d.payload := by
      intro rest
      induction rest with
      | nil => exact fun _ _ _ _ d hd => absurd hd List.not_mem_nil
      | cons d rest ih =>
        intro done es h hobeys
        have hfirst := obeys_bind.mp hobeys
        have hb : Builds w d.notificationId d.payload := by
          intro herr
          rw [show w.deliver d = raise (.format .other) by
            simp [WebPushDeliveryWorker.deliver, herr]] at hfirst
          have hd := h.fresh d List.mem_cons_self
          exact hd.1.unsettled (hfirst _ hd.1.claimed)
        obtain ⟨es', r, hr, hthen⟩ := obeys_exists (fun o => ⟨someAnswer o, answer_push w o⟩)
          (obeys_deliver_push (h.fresh d List.mem_cons_self) hb) hfirst
        obtain ⟨b, rfl⟩ := hr.1
        have htail := ih (done ++ [d]) es' (h.next hr)
          ((obeys_bind.mp hthen).imp fun es'' r' hr' => by cases r' <;> exact hr')
        exact List.forall_mem_cons.mpr ⟨hb, htail⟩
    exact hrest ds [] _ (inBatch_claimed hkeys)
  · exact fun hb => obeys_mono (fun _ _ _ => trivial) (fun _ _ h => h)
      (obeys_batch ds [] _ (inBatch_claimed hkeys) hb)

end Call

/-! ## Runs -/

/-- What an operation must meet : a claim is not lost with its commit and its payloads are objects
whose messages are built or refused, no send times out, and the storage does not raise. -/
def PushOpMeets (w : WebPushDeliveryWorker) (world : PushWorld) (c : PushChoice) : PushOp → Prop
  | .claimDue _ _ limit => c.delivery ≠ .lost ∧
    ∀ r ∈ world.deliveries.picks world.clock c.locked limit,
      ∃ payload, r.payload.payload = .obj payload ∧ Builds w r.key.1 payload
  | .handOver _ _ => True
  | .transport _ => c.answer ≠ .timeout
  | .disableSubscription _ _ => c.delivery = .answered
  | .markSent _ => c.delivery = .answered
  | .markRetry _ _ => c.delivery = .answered
  | .markFailed _ _ => c.delivery = .answered

/-- What the steps of a run must meet : their operations do, and no lease ends before its rows are
settled. -/
def PushMeets (w : WebPushDeliveryWorker) (s : PushState) : PushLabel → Prop
  | .act n c => ∀ i o, s.next n = some (i, o) → PushOpMeets w s.world c o
  | .env (.tick now) => Live 0 now s.world.deliveries
  | _ => True

/-- A delivery that was handed over is claimed, and with the transport until it is answered ; it is
not settled before. -/
structure Orderly (es : List PushEvent) : Prop where
  handed : ∀ c, HandedOver es c → pushDuties.Claimed es c
  answered : ∀ c answer, Answered es c answer → HandedOver es c
  settled : ∀ c, pushDuties.Settled es c → ¬ InTransport es c

/-- The queue is tidy, no lease has ended, open claims hold their rows, calls are orderly, and a row
whose send succeeded is settled once its claim is. -/
structure PushInv (w : WebPushDeliveryWorker) (s : PushState) : Prop where
  tidy : Tidy pushDuties w.maxAttempts s.world.clock (fun t => t.uuid < s.world.tokens) s.trace
    s.world.deliveries
  live : Live 0 s.world.clock s.world.deliveries
  holds : Holds pushDuties s.trace s.world.deliveries
  orderly : ∀ n, Orderly (own n s.trace)
  sent : ∀ n c, Succeeded (own n s.trace) c → pushDuties.Settled (own n s.trace) c →
    ∃ r ∈ s.world.deliveries, r.key = c.key ∧ r.settled ≠ none

abbrev PushSound (w : WebPushDeliveryWorker) (s : PushState) : Prop :=
  System.SoundTo (PushAnswers w) (fun _ => PushProtocol w) (fun _ es _ => pushDuties.Done es) s

section Orderly

variable {w : WebPushDeliveryWorker} {es : List PushEvent} {o : PushOp}

theorem orderly_nil : Orderly [] where
  handed c h := by simp [HandedOver] at h
  answered c answer h := by simp [Answered] at h
  settled c h := by simp [Duties.Settled] at h

/-- Every operation that satisfies its protocol keeps a call orderly. -/
theorem Orderly.append (h : Orderly es) (hφ : PushProtocol w es o)
    (hdistinct : ∀ c c', pushDuties.Claimed es c → pushDuties.Claimed es c' → c.key = c'.key →
      c.holder = c'.holder → c = c') (r : Except PushFault (PushAns o)) :
    Orderly (es ++ [⟨o, r⟩]) where
  handed c hc := by
    rcases handedOver_append.mp hc with hc | hc
    · exact Duties.claimed_append.mpr (Or.inl (h.handed c hc))
    · cases o with
      | handOver d message =>
        obtain rfl := Option.some.inj hc
        exact Duties.claimed_append.mpr (Or.inl hφ.1.claimed)
      | _ => simp [PushOp.handed] at hc
  answered c answer hc := by
    rcases answered_append.mp hc with hc | hc
    · exact handedOver_append.mpr (Or.inl (h.answered c answer hc))
    · cases o with
      | transport d =>
        cases r with
        | error e => simp [pushAnswered] at hc
        | ok a =>
          obtain ⟨rfl, -⟩ := Prod.mk.inj (Option.some.inj hc)
          exact handedOver_append.mpr (Or.inl hφ.2.1)
      | _ => simp [pushAnswered] at hc
  settled c hc := by
    rintro ⟨hhanded, hnone⟩
    have hnone' : ∀ answer, ¬ Answered es c answer := fun a ha =>
      hnone a (answered_append.mpr (Or.inl ha))
    rcases handedOver_append.mp hhanded with hold | hnew
    · rcases Duties.settled_append.mp hc with hs | ht
      · exact h.settled c hs ⟨hold, hnone'⟩
      · -- the settlement is of this claim, which is with the transport
        have hmark : ∀ d : PushDelivery, some (d.key, d.claimToken) = some (c.key, c.holder) →
            Open es d → ¬ InTransport es d.claimOf → False := by
          intro d hd hopen hsending
          obtain ⟨hkey, hholder⟩ := Prod.mk.inj (Option.some.inj hd)
          obtain rfl := hdistinct _ _ hopen.claimed (h.handed c hold) hkey hholder
          exact hsending ⟨hold, hnone'⟩
        cases o with
        | markSent d => exact hmark d ht hφ.1 hφ.2
        | markRetry d delaySeconds => exact hmark d ht hφ.1 hφ.2.1
        | markFailed d reason => exact hmark d ht hφ.1 hφ.2.1
        | _ => simp [pushDuties, PushOp.target] at ht
    · cases o with
      | handOver d message =>
        obtain rfl := Option.some.inj hnew
        exact hφ.1.unsettled ((Duties.settled_append.mp hc).resolve_right
          (by simp [pushDuties, PushOp.target]))
      | _ => simp [PushOp.handed] at hnew

end Orderly

section Steps

variable {w : WebPushDeliveryWorker} {s t : PushState} {n : ℕ} {i : PushCall}

theorem delivery_of_row {r : Row PushKey PushTarget ClaimToken} {token : ClaimToken}
    {d : PushDelivery} (h : PushTarget.delivery r token = some d) :
    d.claimOf = ⟨r.key, token, r.attempts + 1⟩ ∧ d.notificationId = r.key.1 ∧
      r.payload.payload = .obj d.payload := by
  unfold PushTarget.delivery at h
  split at h
  next payload hpayload =>
    obtain rfl := Option.some.inj h
    exact ⟨rfl, rfl, hpayload⟩
  · cases h

/-- The claims a batch gives. -/
theorem mem_claimDue {rows : List (Row PushKey PushTarget ClaimToken)} {token : ClaimToken}
    {c : Claim PushKey ClaimToken}
    (h : c ∈ (rows.filterMap fun r => PushTarget.delivery r token).map PushDelivery.claimOf) :
    ∃ r ∈ rows, c = ⟨r.key, token, r.attempts + 1⟩ := by
  obtain ⟨d, hd, rfl⟩ := List.mem_map.mp h
  obtain ⟨r, hr, hd⟩ := List.mem_filterMap.mp hd
  exact ⟨r, hr, (delivery_of_row hd).1⟩

/-- The rows of a batch have distinct keys. -/
theorem keys_claimDue (rows : List (Row PushKey PushTarget ClaimToken)) (token : ClaimToken) :
    ((rows.filterMap fun r => PushTarget.delivery r token).map PushDelivery.key).Sublist
      (rows.map Row.key) := by
  induction rows with
  | nil => exact List.Sublist.refl _
  | cons r rows ih =>
    cases hd : PushTarget.delivery r token with
    | none => simpa [List.filterMap_cons, hd] using ih.cons r.key
    | some d =>
      have hkey : d.key = r.key := congrArg Claim.key (delivery_of_row hd).1
      simpa [List.filterMap_cons, hd, hkey] using ih

/-- A settlement whose statement and commit are answered. -/
theorem settle_answered (world : PushWorld) (d : PushDelivery) (how : Settlement) :
    world.settle .answered d how = (.ok (world.deliveries.settle d.key d.claimToken how).1,
      { world with deliveries := (world.deliveries.settle d.key d.claimToken how).2 }) := rfl

/-- Where the condition is met, the operations answer as `PushAnswers` says. -/
theorem answers_of_pushMeets {o : PushOp} {c : PushChoice} (hmeets : PushOpMeets w s.world c o) :
    PushAnswers w o (pushExec s.world c o).1 := by
  cases o with
  | claimDue worker leaseSeconds limit =>
    obtain ⟨hnot, hclaim⟩ := hmeets
    unfold pushExec Delivery.transact
    cases hd : c.delivery with
    | answered =>
      have hnodup : ((s.world.deliveries.picks s.world.clock c.locked limit).map Row.key).Nodup :=
        Queue.nodup_picks
      refine ⟨hnodup.sublist (keys_claimDue _ _), fun d hd => ?_⟩
      obtain ⟨r, hr, hd⟩ := List.mem_filterMap.mp hd
      obtain ⟨payload, hpayload, hbuilds⟩ := hclaim r hr
      obtain ⟨-, hid, hobj⟩ := delivery_of_row hd
      obtain rfl := Json.obj.inj (hpayload.symm.trans hobj)
      rw [hid]
      exact hbuilds
    | lost => exact absurd hd hnot
    | failed => trivial
  | handOver d message => trivial
  | transport d => exact hmeets
  | disableSubscription _ _ | markSent _ | markRetry _ _ | markFailed _ _ =>
    have hd : c.delivery = .answered := hmeets
    simp only [pushExec, PushWorld.settle, Delivery.transact, hd]
    trivial

/-- The claims of one call are distinct. -/
theorem PushInv.distinct (h : PushInv w s) (c c' : Claim PushKey ClaimToken)
    (hc : pushDuties.Claimed (own n s.trace) c) (hc' : pushDuties.Claimed (own n s.trace) c')
    (hkey : c.key = c'.key) (hholder : c.holder = c'.holder) : c = c' :=
  (h.tidy.distinct n n c c' hc hc' hkey hholder).2

theorem PushInv.orderly_acted (h : PushInv w s) {o : PushOp}
    (hφ : PushProtocol w (own n s.trace) o) (r : Except PushFault (PushAns o)) (m : ℕ) :
    Orderly (own m (s.trace ++ [(n, ⟨o, r⟩)])) := by
  by_cases hm : m = n
  · subst hm
    rw [own_snoc_self]
    exact (h.orderly m).append hφ h.distinct r
  · rw [own_snoc_ne (Ne.symm hm)]
    exact h.orderly m

/-- A success of an event before it. -/
theorem succeeded_own {m : ℕ} {e : PushEvent} {c : Claim PushKey ClaimToken}
    (he : pushAnswered e = none) (h : Succeeded (own m (s.trace ++ [(n, e)])) c) :
    Succeeded (own m s.trace) c := by
  by_cases hm : m = n
  · subst hm
    rw [own_snoc_self] at h
    obtain ⟨a, ha, hok⟩ := h
    exact ⟨a, (answered_append.mp ha).resolve_right (by simp [he]), hok⟩
  · rwa [own_snoc_ne (Ne.symm hm)] at h

/-- A claim of a batch. -/
theorem inv_claimDue (h : PushInv w s) {worker : String} {leaseSeconds limit : ℕ}
    (hlease : minLeaseSeconds ≤ leaseSeconds) (c : PushChoice) (k : _)
    (hobj : ∀ r ∈ s.world.deliveries.picks s.world.clock c.locked limit,
      ∃ payload, r.payload.payload = .obj payload ∧ Builds w r.key.1 payload) :
    PushInv w (s.acted n i ⟨.claimDue worker leaseSeconds limit,
      .ok (s.world.claimDue worker leaseSeconds limit c.locked).1⟩ k
      (s.world.claimDue worker leaseSeconds limit c.locked).2) := by
  have hends := microseconds_pos hlease
  have hdue : ∀ key ∈ (s.world.deliveries.picks s.world.clock c.locked limit).map Row.key,
      ∀ r ∈ s.world.deliveries, r.key = key →
        r ∈ s.world.deliveries.picks s.world.clock c.locked limit := by
    intro key hkey r hr hrk
    obtain ⟨r', hr', rfl⟩ := List.mem_map.mp hkey
    rwa [Table.eq_of_key hr (Queue.mem_of_picks hr').1 hrk]
  have hdue' : ∀ key ∈ (s.world.deliveries.picks s.world.clock c.locked limit).map Row.key,
      ∀ r ∈ s.world.deliveries, r.key = key → r.due s.world.clock = true :=
    fun key hkey r hr hrk => (Queue.mem_of_picks (hdue key hkey r hr hrk)).2
  refine ⟨h.tidy.claim (lt_add_of_pos_right _ hends) (by simp) (fun t ht => Nat.lt_succ_of_lt ht)
    (Nat.lt_succ_self _) rfl hdue' ?_ ?_ ?_, h.live.claim (lt_add_of_pos_right _ hends),
    h.holds.claim h.live hdue' ?_,
    h.orderly_acted (o := .claimDue worker leaseSeconds limit) hlease _, fun m x hx hs => ?_⟩
  · intro r hr hkey
    have hpick := hdue r.key hkey r hr rfl
    obtain ⟨payload, hpayload, -⟩ := hobj r hpick
    refine List.mem_map.mpr ⟨⟨r.key.1, payload, r.attempts + 1,
      { r.payload.subscription with id := r.key.2 }, ⟨worker, s.world.tokens⟩⟩,
      List.mem_filterMap.mpr ⟨r, hpick, ?_⟩, rfl⟩
    simp [PushTarget.delivery, hpayload]
  · intro x hx
    obtain ⟨r, -, rfl⟩ := mem_claimDue hx
    rfl
  · intro x hx x' hx' hkey
    obtain ⟨r, hr, rfl⟩ := mem_claimDue hx
    obtain ⟨r', hr', rfl⟩ := mem_claimDue hx'
    obtain rfl := Table.eq_of_key (Queue.mem_of_picks hr).1 (Queue.mem_of_picks hr').1 hkey
    rfl
  · intro x hx
    obtain ⟨r, hr, rfl⟩ := mem_claimDue hx
    exact ⟨rfl, List.mem_map_of_mem hr, r, (Queue.mem_of_picks hr).1, rfl⟩
  · have hs' : pushDuties.Settled (own m s.trace) x :=
      (Duties.settled_own.mp hs).resolve_right (by simp [pushDuties, PushOp.target])
    obtain ⟨r, hr, hkey, hsettled⟩ := h.sent m x (succeeded_own rfl hx) hs'
    refine ⟨r, Queue.mem_claim_of_not_mem hr _ fun hk => hsettled ?_, hkey, hsettled⟩
    have hd := hdue' _ hk r hr rfl
    simp only [Row.due, Bool.and_eq_true, Option.isNone_iff_eq_none] at hd
    exact hd.1.1

/-- An operation that leaves the ledger alone. -/
theorem inv_other (h : PushInv w s) {o : PushOp} (hφ : PushProtocol w (own n s.trace) o)
    (ht : o.target = none) {r : Except PushFault (PushAns o)} (hg : pushDuties.given ⟨o, r⟩ = [])
    (hsent : (∃ d answer, pushAnswered ⟨o, r⟩ = some (d, answer)) →
      ∃ d, o = .transport d ∧ ∀ d' answer, pushAnswered ⟨o, r⟩ = some (d', answer) → d' = d.claimOf)
    (k : _) {world : PushWorld}
    (hq : world.deliveries = s.world.deliveries) (hclock : world.clock = s.world.clock)
    (htokens : world.tokens = s.world.tokens) : PushInv w (s.acted n i ⟨o, r⟩ k world) := by
  have hsettled : ∀ m x, pushDuties.Settled (own m (s.trace ++ [(n, ⟨o, r⟩)])) x →
      pushDuties.Settled (own m s.trace) x := fun m x hx =>
    (Duties.settled_own.mp hx).resolve_right (by simp [pushDuties, ht])
  refine ⟨?_, ?_, ?_, h.orderly_acted hφ r, fun m x hx hs => ?_⟩
  · simp only [State.acted, hq, hclock, htokens]
    exact h.tidy.other hg ht
  · simp only [State.acted, hq, hclock]
    exact h.live
  · simp only [State.acted, hq]
    exact h.holds.other hg
  · simp only [State.acted, hq]
    have hs' := hsettled m x hs
    cases ha : pushAnswered ⟨o, r⟩ with
    | none => exact h.sent m x (succeeded_own ha hx) hs'
    | some p =>
      obtain ⟨d, rfl, hd⟩ := hsent ⟨p.1, p.2, ha⟩
      by_cases hm : m = n
      · subst hm
        obtain ⟨a, hanswer, hok⟩ := hx
        simp only [State.acted, own_snoc_self] at hanswer
        rcases answered_append.mp hanswer with hold | hnew
        · exact h.sent m x ⟨a, hold, hok⟩ hs'
        · obtain rfl := hd x a hnew
          exact absurd hs' hφ.1.unsettled
      · refine h.sent m x ?_ hs'
        simpa [State.acted, own_snoc_ne (Ne.symm hm)] using hx

/-- A settlement. -/
theorem inv_settle (h : PushInv w s) {o : PushOp} {d : PushDelivery} (how : Settlement)
    (hφ : PushProtocol w (own n s.trace) o) (hopen : Open (own n s.trace) d)
    (ht : o.target = some (d.key, d.claimToken)) (hg : ∀ r, pushDuties.given ⟨o, r⟩ = [])
    (ha : ∀ r, pushAnswered ⟨o, r⟩ = none) (hretry : how.isRetry = true → d.attempts < w.maxAttempts)
    (hsent : Succeeded (own n s.trace) d.claimOf → how.isRetry = false)
    (r : Except PushFault (PushAns o)) (k : _) :
    PushInv w (s.acted n i ⟨o, r⟩ k
      { s.world with deliveries := (s.world.deliveries.settle d.key d.claimToken how).2 }) := by
  refine ⟨h.tidy.settle hopen.claimed (hg r) ht hretry, h.live.settle,
    h.holds.settle (c := d.claimOf) ht (hg r)
    (fun m c' hc' hkey hholder => h.tidy.distinct m n c' _ hc' hopen.claimed hkey hholder),
    h.orderly_acted hφ r, fun m x hx hs => ?_⟩
  have hx' := succeeded_own (ha r) hx
  rcases Duties.settled_own.mp hs with hold | ⟨rfl, hnew⟩
  · obtain ⟨row, hrow, hkey, hsettled⟩ := h.sent m x hx' hold
    refine ⟨row, (Queue.mem_settle_or hrow d.key d.claimToken how).resolve_right ?_, hkey, hsettled⟩
    rintro ⟨-, hheld, -⟩
    simp [Row.heldBy, hsettled] at hheld
  · -- the claim settled is the one that succeeded
    obtain ⟨hkey, hholder⟩ := Prod.mk.inj (Option.some.inj (ht.symm.trans hnew))
    obtain ⟨a, hanswer, hok⟩ := hx'
    have hclaimed := (h.orderly m).handed x ((h.orderly m).answered x a hanswer)
    obtain rfl := h.distinct _ _ hopen.claimed hclaimed hkey hholder
    obtain ⟨row, hrowkey, hrow⟩ := h.holds.apply (s := how) hopen.claimed hopen.unsettled
    refine ⟨_, hrow, (Settlement.key_apply how row).trans hrowkey, fun hnone => ?_⟩
    have := (Settlement.settled_apply how row hnone).1
    rw [hsent ⟨a, hanswer, hok⟩] at this
    cases this

/-- A step that meets the condition. -/
theorem push_step (hs : PushSound w s) (h : PushInv w s) {l : PushLabel}
    (hstep : Guard (pushWorkers w).Step (PushMeets w) s l t) : PushSound w t ∧ PushInv w t := by
  obtain ⟨hmeets, hstep⟩ := hstep
  cases l with
  | start i =>
    obtain rfl := Option.some.inj hstep
    exact ⟨System.soundTo_started hs (obeys_pushCall i), h.tidy, h.live, h.holds, h.orderly, h.sent⟩
  | act n c =>
    obtain ⟨i, o, k, r, world, hn, hx, rfl⟩ := System.step_act hstep
    obtain ⟨rfl, rfl⟩ := Prod.mk.inj (Option.some.inj hx)
    have hφ := (hs.1 n i _ hn).1
    have hop := hmeets i o (State.next_eq_some.mpr ⟨k, hn⟩)
    refine ⟨System.soundTo_acted hs hn (answers_of_pushMeets hop) _, ?_⟩
    cases o with
    | claimDue worker leaseSeconds limit =>
      unfold Delivery.transact
      cases hd : c.delivery with
      | answered => exact inv_claimDue h hφ c _ hop.2
      | lost => exact absurd hd hop.1
      | failed =>
        exact inv_other h hφ rfl rfl (by rintro ⟨_, _, ha⟩; simp [pushAnswered] at ha) _
          rfl rfl rfl
    | handOver d message =>
      exact inv_other h hφ rfl rfl (by rintro ⟨_, _, ha⟩; simp [pushAnswered] at ha) _
        rfl rfl rfl
    | transport d =>
      refine inv_other h hφ rfl rfl (fun _ => ⟨d, rfl, fun x answer ha => ?_⟩) _ rfl rfl rfl
      exact ((Prod.mk.inj (Option.some.inj ha)).1).symm
    | disableSubscription id reason =>
      have hd : c.delivery = .answered := hop
      simp only [Delivery.transact, hd]
      exact inv_other h hφ rfl rfl (by rintro ⟨_, _, ha⟩; simp [pushAnswered] at ha) _
        rfl rfl rfl
    | markSent d =>
      have hd : c.delivery = .answered := hop
      simp only [hd, settle_answered]
      exact inv_settle h (.sent s.world.clock) hφ hφ.1 rfl (fun _ => rfl) (fun _ => rfl)
        (fun hretry => by simp [Settlement.isRetry] at hretry) (fun _ => rfl) _ _
    | markRetry d delaySeconds =>
      have hd : c.delivery = .answered := hop
      simp only [hd, settle_answered]
      exact inv_settle h _ hφ hφ.1 rfl (fun _ => rfl) (fun _ => rfl) (fun _ => hφ.2.2.2)
        (fun hsent => absurd hsent hφ.2.2.1) _ _
    | markFailed d reason =>
      have hd : c.delivery = .answered := hop
      simp only [hd, settle_answered]
      exact inv_settle h _ hφ hφ.1 rfl (fun _ => rfl) (fun _ => rfl)
        (fun hretry => by simp [Settlement.isRetry] at hretry) (fun _ => rfl) _ _
  | env e =>
    obtain ⟨world, hworld, rfl⟩ := Option.map_eq_some_iff.mp hstep
    refine ⟨hs, ?_⟩
    cases e with
    | fanOut notificationId payload subscription =>
      obtain rfl := Option.some.inj hworld
      refine ⟨h.tidy.insertNew w.max_pos _ _, h.live.insertNew _ _,
        h.holds.mono fun r hr => Table.prefix_insertNew.subset hr, h.orderly, fun m x hx hs' => ?_⟩
      obtain ⟨r, hr, hrest⟩ := h.sent m x hx hs'
      exact ⟨r, Table.prefix_insertNew.subset hr, hrest⟩
    | tick now =>
      obtain ⟨-, hworld⟩ := Option.ite_none_right_eq_some.mp hworld
      obtain rfl := Option.some.inj hworld
      exact ⟨h.tidy.world h.tidy.kept (hmeets.mono (Nat.zero_le _)), hmeets, h.holds, h.orderly, h.sent⟩

/-- What the web push workers promise of a state : no row has too many attempts, a call that has
ended has settled its batch, and a row that is claimed belongs to a running call. A delivery is with
the transport for one call and under its lease, and no call hands one over that was sent. -/
structure PushDelivers (w : WebPushDeliveryWorker) (t : PushState) : Prop where
  attempts : ∀ r ∈ t.world.deliveries, r.attempts ≤ w.maxAttempts
  ended : ∀ n i p, t.calls[n]? = some (i, p) → p.ended = true → pushDuties.Done (own n t.trace)
  running : ∀ r ∈ t.world.deliveries, r.settled = none → ∀ lease, r.claimed = some lease →
    ∃ n i o k, t.calls[n]? = some (i, .op o k) ∧
      pushDuties.Claimed (own n t.trace) ⟨r.key, lease.holder, r.attempts⟩ ∧
      ¬ pushDuties.Settled (own n t.trace) ⟨r.key, lease.holder, r.attempts⟩
  exclusive : ∀ n m c c', InTransport (own n t.trace) c → InTransport (own m t.trace) c' → c.key = c'.key →
    n = m ∧ c = c'
  leased : ∀ n c, InTransport (own n t.trace) c → ∃ r ∈ t.world.deliveries, r.key = c.key ∧
    r.settled = none ∧ ∃ ends, r.claimed = some ⟨c.holder, ends⟩ ∧ t.world.clock < ends
  unsent : ∀ n i d message, t.next n = some (i, .handOver d message) →
    ∀ m c, c.key = d.key → ¬ Succeeded (own m t.trace) c

theorem delivers_of_inv (hs : PushSound w t) (h : PushInv w t) : PushDelivers w t where
  attempts := h.tidy.kept.attempts
  ended n i p hp hend := by
    have hobeys := hs.1 n i p hp
    cases p with
    | ret a => exact hobeys
    | raise e => exact hobeys
    | op o k => exact absurd hend (by simp [Prog.ended])
  running r hr hopen lease hl := h.tidy.exists_running hs (fun _ _ _ hdone => hdone) hr hopen hl
  exclusive n m c c' hc hc' hkey :=
    h.holds.unique h.tidy ((h.orderly n).handed c hc.1)
      (fun hsettled => (h.orderly n).settled c hsettled hc) ((h.orderly m).handed c' hc'.1)
      (fun hsettled => (h.orderly m).settled c' hsettled hc') hkey
  leased n c hc := by
    obtain ⟨r, hr, hkey, hopen, ends, hl⟩ := h.holds n c ((h.orderly n).handed c hc.1)
      fun hsettled => (h.orderly n).settled c hsettled hc
    exact ⟨r, hr, hkey, hopen, ends, hl, h.live r hr hopen _ hl (Nat.zero_le _)⟩
  unsent n i d message hnext m c hkey hsucceeded := by
    obtain ⟨k, hn⟩ := State.next_eq_some.mp hnext
    obtain ⟨hopen, hnot⟩ := (hs.1 n i _ hn).1
    obtain ⟨answer, hanswer, hok⟩ := hsucceeded
    have hhanded := (h.orderly m).answered c answer hanswer
    have hclaimed := (h.orderly m).handed c hhanded
    by_cases hsettled : pushDuties.Settled (own m t.trace) c
    · -- the row is settled, and a claim of it is open
      obtain ⟨r, hr, hrkey, hrsettled⟩ := h.sent m c ⟨answer, hanswer, hok⟩ hsettled
      obtain ⟨r', hr', hrkey', hropen, -⟩ := h.holds n _ hopen.claimed hopen.unsettled
      obtain rfl := Table.eq_of_key hr hr' (hrkey.trans (hkey.trans hrkey'.symm))
      exact hrsettled hropen
    · obtain ⟨rfl, rfl⟩ := h.holds.unique h.tidy hclaimed hsettled hopen.claimed hopen.unsettled hkey
      exact hnot hhanded

end Steps

/-- How a retryable attempt is settled. -/
def RetryableAttempt (w : WebPushDeliveryWorker) (d : PushDelivery) (o : PushOp) : Prop :=
  if w.maxAttempts ≤ d.attempts then o = .markFailed d "attempts-exhausted"
  else o = .markRetry d (w.retrySeconds * min d.attempts w.maxAttempts)

/-- Transient failures count as retryable attempts, except for a send that timed out. -/
theorem timeout_iff {w : WebPushDeliveryWorker} (d : PushDelivery) (answer : PushAnswer) :
    ((∃ e : PushError, answer.result = .error e ∧ e.transient = true) →
      RetryableAttempt w d (w.settlement d answer.result)) ↔ answer ≠ .timeout := by
  constructor
  · rintro h rfl
    have hattempt := h ⟨.timeout, rfl, rfl⟩
    unfold RetryableAttempt at hattempt
    split at hattempt
    · simp [PushAnswer.result, WebPushDeliveryWorker.settlement] at hattempt
    · simp [PushAnswer.result, WebPushDeliveryWorker.settlement] at hattempt
  · rintro hne ⟨e, he, htransient⟩
    have hretryable : e = .retryable := by
      cases e with
      | retryable => rfl
      | timeout =>
        have hclassify : ∀ status, classifyStatus status ≠ .timeout := fun status => by
          unfold classifyStatus
          grind
        cases answer with
        | timeout => exact absurd rfl hne
        | exception => simp [PushAnswer.result] at he
        | rejected status => exact absurd (Except.error.inj he) (hclassify status)
        | response status =>
          have := hclassify (some status)
          simp only [PushAnswer.result] at he
          split at he
          · exact absurd (Except.error.inj he) this
          · cases he
      | gone => cases htransient
      | failed => cases htransient
    subst hretryable
    rw [he]
    unfold RetryableAttempt WebPushDeliveryWorker.settlement
    dsimp only
    split
    · rfl
    · rfl

/-- The workers, without deliveries. -/
def noDeliveries : PushState := State.init { deliveries := .empty }

/-- A call settles its batch whatever the answers are, exactly when the message of each delivery can
be built, and a transient failure counts as a retryable attempt exactly when the send was not too
slow. In a run in which every claimed payload is an object whose message can be built, the storage
does not raise, no send is too slow and no lease ends before its rows are settled, every state keeps
the promises. -/
theorem pushWorkers_deliver (w : WebPushDeliveryWorker) :
    (∀ ds worker leaseSeconds limit, (ds.map PushDelivery.key).Nodup →
      (Obeys (PushAnswers w) (fun _ _ => True) (each ds w.deliver)
          [⟨.claimDue worker leaseSeconds limit, .ok ds⟩] (fun es _ => pushDuties.Done es) ↔
        ∀ d ∈ ds, Builds w d.notificationId d.payload)) ∧
    (∀ d (answer : PushAnswer),
      ((∃ e : PushError, answer.result = .error e ∧ e.transient = true) →
        RetryableAttempt w d (w.settlement d answer.result)) ↔ answer ≠ .timeout) ∧
    ∀ ls t, Run (Guard (pushWorkers w).Step (PushMeets w)) noDeliveries ls t → PushDelivers w t := by
  refine ⟨fun ds worker leaseSeconds limit hkeys => settlesBatch_iff worker leaseSeconds limit hkeys,
    timeout_iff, fun ls t hrun => ?_⟩
  have own_nil : ∀ n, own n noDeliveries.trace = [] := fun _ => rfl
  have hinit : PushSound w noDeliveries ∧ PushInv w noDeliveries :=
    ⟨System.soundTo_init _, Tidy.empty, fun r hr => absurd hr List.not_mem_nil,
      fun n c hc => absurd hc (by simp [Duties.Claimed, own_nil]),
      fun n => orderly_nil, fun n c hc => absurd hc (by simp [Succeeded, Answered, own_nil])⟩
  obtain ⟨hs, h⟩ := hrun.inv (I := fun s => PushSound w s ∧ PushInv w s)
    (fun s l t h hstep => push_step h.1 h.2 hstep) hinit
  exact delivers_of_inv hs h

/-! ## Batches that go wrong -/

/-- Batches of two, and one attempt for each delivery. -/
def pairSender : WebPushDeliveryWorker :=
  ⟨1, 30, 2, singleAttempt.max_pos, singleAttempt.retry_pos, twoAttempts.max_pos, quietFormatters,
    fun _ _ html => html⟩

def testSubscription (id : Uuid) : PushSubscription := ⟨id, "endpoint", "key", "auth"⟩

/-- A row whose payload is a text is claimed, its lease ends, and it is claimed again. -/
def textPayload : List PushLabel :=
  [.env (.fanOut 1 (.str "text") (testSubscription 1)), .start ⟨"push", 15⟩, .act 0 {},
    .env (.tick 15000000), .start ⟨"push", 15⟩, .act 1 {}]

/-- Both calls of this run have ended, none has settled the row, and it has two attempts instead of
one. -/
theorem dropped_attempted_again :
    ∃ t, Run (pushWorkers pairSender).Step noDeliveries textPayload t ∧
      (∀ p ∈ t.calls, p.2.ended = true) ∧ ¬ PushDelivers pairSender t := by
  have hreplay : (replay (pushWorkers pairSender).step noDeliveries textPayload).map
      (fun t => (t.world.deliveries.rows.map Row.attempts, t.calls.map fun p => p.2.ended)) =
        some ([2], [true, true]) := by decide +kernel
  obtain ⟨t, ht, hsummary⟩ := Option.map_eq_some_iff.mp hreplay
  obtain ⟨hattempts, hended⟩ := Prod.mk.inj hsummary
  refine ⟨t, run_of_replay (fun _ _ _ h => h) ht, fun p hp => ?_, fun h => ?_⟩
  · have hmem : p.2.ended ∈ [true, true] := hended ▸ List.mem_map_of_mem hp
    simpa using hmem
  · have hmem : 2 ∈ t.world.deliveries.rows.map Row.attempts := by simp [hattempts]
    obtain ⟨r, hr, htwo⟩ := List.mem_map.mp hmem
    have hle := h.attempts r hr
    rw [htwo] at hle
    exact absurd hle (by decide)

/-- The first send of a batch takes 15 seconds. Then another call claims the second delivery, and
both calls hand it over. -/
def slowBatch : List PushLabel :=
  [.env (.fanOut 1 (.obj []) (testSubscription 1)), .env (.fanOut 2 (.obj []) (testSubscription 1)),
    .start ⟨"push", 15⟩, .act 0 {}, .act 0 {}, .env (.tick 15000000), .act 0 {}, .act 0 {},
    .start ⟨"push", 15⟩, .act 1 {}, .act 1 {}, .act 0 {}]

/-- The transport has the second delivery from both calls. -/
theorem slow_sent_twice :
    ∃ t, Run (pushWorkers pairSender).Step noDeliveries slowBatch t ∧
      (∃ c, InTransport (own 0 t.trace) c) ∧ (∃ c, InTransport (own 1 t.trace) c) ∧
        ¬ PushDelivers pairSender t := by
  let first : Claim PushKey ClaimToken := ⟨(2, 1), ⟨"push", 0⟩, 1⟩
  let again : Claim PushKey ClaimToken := ⟨(2, 1), ⟨"push", 1⟩, 2⟩
  have hreplay : (replay (pushWorkers pairSender).step noDeliveries slowBatch).map
      (fun t => ((own 0 t.trace).any (fun e => e.op.handed = some first) &&
          (own 0 t.trace).all (fun e => (pushAnswered e).all fun p => p.1 ≠ first),
        (own 1 t.trace).any (fun e => e.op.handed = some again) &&
          (own 1 t.trace).all (fun e => (pushAnswered e).all fun p => p.1 ≠ again))) =
        some (true, true) := by decide +kernel
  obtain ⟨t, ht, hsummary⟩ := Option.map_eq_some_iff.mp hreplay
  obtain ⟨hfirst, hagain⟩ := Prod.mk.inj hsummary
  have hsending : ∀ n (c : Claim PushKey ClaimToken),
      ((own n t.trace).any (fun e => e.op.handed = some c) &&
        (own n t.trace).all (fun e => (pushAnswered e).all fun p => p.1 ≠ c)) = true →
      InTransport (own n t.trace) c := by
    intro n c h
    simp only [Bool.and_eq_true, List.any_eq_true, List.all_eq_true, decide_eq_true_eq] at h
    refine ⟨h.1, fun answer ⟨e, he, ha⟩ => ?_⟩
    have hne := h.2 e he
    simp [ha] at hne
  have hfirst' := hsending 0 first hfirst
  have hagain' := hsending 1 again hagain
  refine ⟨t, run_of_replay (fun _ _ _ h => h) ht, ⟨first, hfirst'⟩, ⟨again, hagain'⟩, fun h => ?_⟩
  exact absurd (h.exclusive 0 1 first again hfirst' hagain' rfl).1 (by decide)

theorem meets_push {w : WebPushDeliveryWorker} {s : PushState} {n : ℕ} {c : PushChoice} {i : PushCall}
    {o : PushOp} (hnext : s.next n = some (i, o)) (h : PushOpMeets w s.world c o) :
    PushMeets w s (.act n c) := fun i' o' hnext' => by
  obtain ⟨-, rfl⟩ := Prod.mk.inj (Option.some.inj (hnext.symm.trans hnext'))
  exact h

/-- Two notifications are fanned out and claimed, the first one is sent within the lease, and the
second one is with the transport. -/
def alertsSending : List PushLabel :=
  [.env (.fanOut 1 (.obj []) (testSubscription 1)), .env (.fanOut 2 (.obj []) (testSubscription 1)),
    .start ⟨"push", 15⟩, .act 0 {}, .act 0 {}, .env (.tick 1000000), .act 0 {}, .act 0 {}, .act 0 {}]

/-- The second one is sent too. -/
def alertsSent : List PushLabel := [.act 0 {}, .env (.tick 2000000), .act 0 {}]

theorem builds_empty {r : Row PushKey PushTarget ClaimToken} (hr : r.payload.payload = .obj []) :
    ∃ payload, r.payload.payload = .obj payload ∧ Builds pairSender r.key.1 payload := by
  have hbuilt : pairSender.buildPushMessage r.key.1 [] = .ok "alert" := rfl
  exact ⟨[], hr, by simp [Builds, hbuilt]⟩

theorem alert_delivered : ∃ s u,
    Run (Guard (pushWorkers pairSender).Step (PushMeets pairSender)) noDeliveries alertsSending s ∧
    InTransport (own 0 s.trace) ⟨(2, 1), ⟨"push", 0⟩, 1⟩ ∧ PushDelivers pairSender s ∧
    Run (Guard (pushWorkers pairSender).Step (PushMeets pairSender)) noDeliveries
      (alertsSending ++ alertsSent) u ∧
    PushDelivers pairSender u ∧ u.world.deliveries.rows.map (fun r => (r.attempts, r.settled)) =
      [(1, some (.sent 1000000)), (1, some (.sent 2000000))] := by
  have hanswer : PushAnswer.response 201 ≠ .timeout := by decide
  have hruns : ∃ s u,
      Run (Guard (pushWorkers pairSender).Step (PushMeets pairSender)) noDeliveries alertsSending s ∧
      ((own 0 s.trace).map (fun e => e.op.handed), (own 0 s.trace).map pushAnswered) =
        ([none, some ⟨(1, 1), ⟨"push", 0⟩, 1⟩, none, none, some ⟨(2, 1), ⟨"push", 0⟩, 1⟩],
          [none, none, some (⟨(1, 1), ⟨"push", 0⟩, 1⟩, .response 201), none, none]) ∧
      Run (Guard (pushWorkers pairSender).Step (PushMeets pairSender)) s alertsSent u ∧
      u.world.deliveries.rows.map (fun r => (r.attempts, r.settled)) =
        [(1, some (.sent 1000000)), (1, some (.sent 2000000))] := by
    refine ⟨_, _, Run.cons ⟨?_, rfl⟩ (Run.cons ⟨?_, rfl⟩ (Run.cons ⟨?_, rfl⟩
      (Run.cons ⟨meets_push rfl ⟨?_, ?_⟩, rfl⟩ (Run.cons ⟨meets_push rfl ?_, rfl⟩
      (Run.cons ⟨?_, rfl⟩ (Run.cons ⟨meets_push rfl ?_, rfl⟩ (Run.cons ⟨meets_push rfl ?_, rfl⟩
      (Run.cons ⟨meets_push rfl ?_, rfl⟩ (Run.nil _))))))))), ?_,
      Run.cons ⟨meets_push rfl ?_, rfl⟩ (Run.cons ⟨?_, rfl⟩ (Run.cons ⟨meets_push rfl ?_, rfl⟩
      (Run.nil _))), ?_⟩
    · trivial
    · trivial
    · trivial
    · decide
    · intro r hr
      have hmem := (Queue.mem_of_picks hr).1
      rcases List.mem_cons.mp (Table.mem_iff.mp hmem) with rfl | hmem
      · exact builds_empty rfl
      · obtain rfl := List.mem_singleton.mp hmem
        exact builds_empty rfl
    · trivial
    · intro r hr _ lease hlease _
      rcases List.mem_cons.mp (Table.mem_iff.mp hr) with rfl | hmem
      · obtain rfl := Option.some.inj hlease
        decide
      · obtain rfl := List.mem_singleton.mp hmem
        obtain rfl := Option.some.inj hlease
        decide
    · exact hanswer
    · rfl
    · trivial
    · rfl
    · exact hanswer
    · intro r hr hopen lease hlease _
      rcases List.mem_cons.mp (Table.mem_iff.mp hr) with rfl | hmem
      · cases hopen
      · obtain rfl := List.mem_singleton.mp hmem
        obtain rfl := Option.some.inj hlease
        decide
    · rfl
    · rfl
  obtain ⟨s, u, hs, hsent, hu, hrows⟩ := hruns
  obtain ⟨hhanded, hanswered⟩ := Prod.mk.inj hsent
  have hrun := hs.append hu
  obtain ⟨-, -, hdelivers⟩ := pushWorkers_deliver pairSender
  refine ⟨s, u, hs, ⟨?_, ?_⟩, hdelivers _ s hs, hrun, hdelivers _ u hrun, hrows⟩
  · have hmem : some ⟨(2, 1), ⟨"push", 0⟩, 1⟩ ∈ (own 0 s.trace).map fun e => e.op.handed := by
      simp [hhanded]
    exact List.mem_map.mp hmem
  · rintro answer ⟨e, he, hanswer⟩
    have hmem := List.mem_map_of_mem (f := pushAnswered) he
    rw [hanswered, hanswer] at hmem
    simp at hmem

end FattyTrader
