import FattyTrader.LeaseWorkers
import FattyTrader.Notifications

/-!
# What the notification senders keep

Any number of calls of `run_once` run next to each other, with other components storing
notifications and time passing. In every run a row that was claimed is changed only by the call with
its token, or by another claim once its lease has ended, and a call that lost its claim is told so
(`Fences`). A call that claims a row and returns has settled it or lost it (`NotifierVerdict`). It
returns unless the row is to be sent and its formatter raises (`settles_iff`), or the sender or the
storage raise.

In a run in which none of these raises and no lease of a last attempt ends before its row is settled,
every row that is claimed belongs to a running call, and no row is attempted more often than
`max_attempts` (`notifiers_deliver`).
-/

set_option linter.unusedSectionVars false

open Tables Leases Programs Prog Runs

namespace FattyTrader

/-! ## Claims and settlements -/

/-- The row an operation settles, and the token. -/
def OutboxOp.target : OutboxOp → Option (Uuid × ClaimToken)
  | .markSent id token => some (id, token)
  | .markRetry id token _ => some (id, token)
  | .markFailed id token => some (id, token)
  | _ => none

/-- What it does to the row. -/
def OutboxOp.settlement (now : Instant) : OutboxOp → Option Settlement
  | .markSent _ _ => some (.sent now)
  | .markRetry _ _ delaySeconds => some (.retry (now + microseconds delaySeconds) none)
  | .markFailed _ _ => some (.failed now none)
  | _ => none

/-- Whether the call still had the row, where a settlement has answered. -/
def ownedBy : OutboxEvent → Option Bool
  | ⟨.markSent _ _, .ok owned⟩ => some owned
  | ⟨.markRetry _ _ _, .ok owned⟩ => some owned
  | ⟨.markFailed _ _, .ok owned⟩ => some owned
  | _ => none

/-- What `run_once` returns after a settlement of a row it still had. -/
def OutboxOp.verdict : OutboxOp → String
  | .markSent _ _ => "sent"
  | .markRetry _ _ _ => "retry"
  | .markFailed _ _ => "failed"
  | _ => "idle"

def OutboxNotification.claimOf (n : OutboxNotification) : Claim Uuid ClaimToken :=
  ⟨n.id, n.claimToken, n.attempts⟩

def notifierDuties : Duties OutboxOp OutboxAns NotifierError Uuid ClaimToken where
  given
    | ⟨.claim _ _, .ok (some n)⟩ => [n.claimOf]
    | _ => []
  target := OutboxOp.target

/-- The payload is not for Telegram, or its formatter returns. -/
def Formats (f : Formatters) (payload : JsonObject) : Prop :=
  shouldDeliverToTelegram payload = true → ∃ text, formatNotificationHtml f payload = .ok text

/-- The operations whose exceptions end a call that has a claim. -/
def OutboxOp.needed : OutboxOp → Bool
  | .claim _ _ => false
  | .fanOut _ => false
  | _ => true

/-- The answers of the operations, where every claimed payload formats and nothing else raises. -/
def OutboxAnswer (f : Formatters) : (o : OutboxOp) → Except NotifierError (OutboxAns o) → Prop
  | .claim _ _, .ok (some n) => Formats f n.payload
  | o, .error _ => o.needed = false
  | _, _ => True

/-- What a call may do : it settles with the token of its claim, once, and a retry has attempts
left. -/
def OutboxProtocol (w : NotificationWorker) (es : List OutboxEvent) : OutboxOp → Prop
  | .claim _ leaseSeconds => minLeaseSeconds ≤ leaseSeconds
  | .markSent id token => ∃ a, notifierDuties.Unsettled es ⟨id, token, a⟩
  | .markRetry id token _ => ∃ a, notifierDuties.Unsettled es ⟨id, token, a⟩ ∧ a < w.maxAttempts
  | .markFailed id token => ∃ a, notifierDuties.Unsettled es ⟨id, token, a⟩
  | _ => True

/-! ## One call -/

/-- The call has the claim of `n`, and no other. -/
def HasClaim (es : List OutboxEvent) (n : OutboxNotification) : Prop :=
  ∀ c, notifierDuties.Claimed es c ↔ c = n.claimOf

/-- What a call returns : that it has claimed nothing, that the claim has retired a payload which is
no object, how it has settled its row, or that it lost its claim. -/
inductive NotifierVerdict (es : List OutboxEvent) : String → Prop
  | idle : (∀ c, ¬ notifierDuties.Claimed es c) → NotifierVerdict es "idle"
  | retired : (∀ c, ¬ notifierDuties.Claimed es c) → NotifierVerdict es "failed"
  | settled (n : OutboxNotification) (e : OutboxEvent) : HasClaim es n → e ∈ es →
      e.op.target = some (n.id, n.claimToken) → ownedBy e = some true → NotifierVerdict es e.op.verdict
  | lost (n : OutboxNotification) (e : OutboxEvent) : HasClaim es n → e ∈ es →
      e.op.target = some (n.id, n.claimToken) → ownedBy e = some false → NotifierVerdict es "claim-lost"

/-- A verdict is given once the claim is settled. -/
theorem NotifierVerdict.done {es : List OutboxEvent} {text : String} (h : NotifierVerdict es text) :
    notifierDuties.Done es := by
  intro c hc
  cases h with
  | idle hnone => exact absurd hc (hnone c)
  | retired hnone => exact absurd hc (hnone c)
  | settled n e hn he ht _ =>
    obtain rfl := (hn c).mp hc
    exact ⟨e, he, ht⟩
  | lost n e hn he ht _ =>
    obtain rfl := (hn c).mp hc
    exact ⟨e, he, ht⟩

/-- A call that returns has a verdict, and one that raises has `why`, or nothing. -/
def NotifierEnds {α : Type} (why : Prop) (verdict : α → String → Prop) (es : List OutboxEvent) :
    Except NotifierError α → Prop
  | .ok a => ∃ text, verdict a text ∧ NotifierVerdict es text
  | .error _ => why ∨ ∀ c, ¬ notifierDuties.Claimed es c

theorem NotifierEnds.done_of_not {α : Type} {why : Prop} {verdict : α → String → Prop}
    {es : List OutboxEvent} {r : Except NotifierError α} (h : NotifierEnds why verdict es r)
    (hnot : ¬ why) :
    notifierDuties.Done es := by
  cases r with
  | ok a =>
    obtain ⟨text, -, hverdict⟩ := h
    exact hverdict.done
  | error e => exact fun c hc => absurd hc (h.resolve_left hnot c)

/-- Why a call with a claim raises. -/
structure NotifierRaises (A : (o : OutboxOp) → Except NotifierError (OutboxAns o) → Prop)
    (f : Formatters)
    (why : Prop) : Prop where
  formats : ∀ worker leaseSeconds n, A (.claim worker leaseSeconds) (.ok (some n)) →
    Formats f n.payload ∨ why
  needed : ∀ o e, A o (.error e) → o.needed = true → why

section Call

variable {w : NotificationWorker} {f : Formatters} {n : OutboxNotification} {es : List OutboxEvent}
  {A : (o : OutboxOp) → Except NotifierError (OutboxAns o) → Prop} {why : Prop}

theorem raises_any : NotifierRaises (fun _ _ => True) f True :=
  ⟨fun _ _ _ _ => Or.inr trivial, fun _ _ _ _ => trivial⟩

theorem raises_answer : NotifierRaises (OutboxAnswer f) f False := by
  refine ⟨fun _ _ _ h => Or.inl h, fun o e h hneeded => ?_⟩
  cases o <;> simp_all [OutboxAnswer, OutboxOp.needed]

/-- The claim of `n` is still to be settled. -/
structure Pending (es : List OutboxEvent) (n : OutboxNotification) : Prop where
  has : HasClaim es n
  unsettled : ¬ notifierDuties.Settled es n.claimOf

theorem HasClaim.append (h : HasClaim es n) {e : OutboxEvent} (he : notifierDuties.given e = []) :
    HasClaim (es ++ [e]) n := fun c => by
  rw [Duties.claimed_append, he]
  simpa using h c

theorem Pending.append (h : Pending es n) {e : OutboxEvent} (he : notifierDuties.given e = [])
    (ht : e.op.target = none) : Pending (es ++ [e]) n :=
  ⟨h.has.append he, fun hs => h.unsettled
    ((Duties.settled_append.mp hs).resolve_right (by simp [notifierDuties, ht]))⟩

theorem Pending.open (h : Pending es n) :
    notifierDuties.Unsettled es ⟨n.id, n.claimToken, n.attempts⟩ :=
  ⟨(h.has n.claimOf).mpr rfl, h.unsettled⟩

/-- The events of a call that has just claimed `n`. -/
theorem pending_claimed (worker : String) (leaseSeconds : ℕ) :
    Pending [⟨.claim worker leaseSeconds, .ok (some n)⟩] n where
  has c := by simp [Duties.Claimed, notifierDuties]
  unsettled := by simp [Duties.Settled, notifierDuties, OutboxOp.target]

/-- A settlement and what the call returns. -/
theorem obeys_mark (hA : NotifierRaises A f why) (h : Pending es n) (o : OutboxOp)
    (hφ : OutboxProtocol w es o) {g : OutboxAns o → String}
    (hg : ∀ r, notifierDuties.given ⟨o, r⟩ = []) (hneeded : o.needed = true)
    (hverdict : ∀ es' a, HasClaim es' n → (⟨o, .ok a⟩ : OutboxEvent) ∈ es' →
      NotifierVerdict es' (g a)) :
    Obeys A (OutboxProtocol w) (do let owned ← perform o; pure (g owned) : NotifierProg String) es
      (NotifierEnds why Eq) := by
  refine obeys_perform_bind hφ (fun a _ => ?_) fun e he => Or.inl (hA.needed o e he hneeded)
  exact ⟨_, rfl, hverdict _ a (h.has.append (hg _)) (by simp)⟩

theorem obeys_deliver (hA : NotifierRaises A f why) (h : Pending es n)
    (hf : Formats f n.payload ∨ why) :
    Obeys A (OutboxProtocol w) (w.deliver f n) es (NotifierEnds why Eq) := by
  have hsent : ∀ es, Pending es n → Obeys A (OutboxProtocol w) (do
      let owned ← perform (.markSent n.id n.claimToken)
      pure (if owned then "sent" else "claim-lost") : NotifierProg String) es
      (NotifierEnds why Eq) := by
    intro es hes
    refine obeys_mark hA hes (.markSent n.id n.claimToken) ⟨_, hes.open⟩ (fun _ => rfl) rfl
      fun es' a hhas hmem => ?_
    cases a with
    | true => exact .settled n _ hhas hmem rfl rfl
    | false => exact .lost n _ hhas hmem rfl rfl
  unfold NotificationWorker.deliver
  split
  · exact hsent es h
  next hdeliver =>
    split
    next e herror =>
      refine hf.elim (fun hformats => ?_) Or.inl
      obtain ⟨text, htext⟩ := hformats (by simpa using hdeliver)
      rw [htext] at herror
      cases herror
    next text _ =>
      refine obeys_perform_bind trivial (fun answer _ => ?_) fun e he => Or.inl (hA.needed _ e he rfl)
      have hanswered : Pending (es ++ [⟨.send text, .ok answer⟩]) n := h.append rfl rfl
      split
      · split
        · refine obeys_mark hA hanswered (.markFailed n.id n.claimToken) ⟨_, hanswered.open⟩
            (fun _ => rfl) rfl fun es' a hhas hmem => ?_
          cases a with
          | true => exact .settled n _ hhas hmem rfl rfl
          | false => exact .lost n _ hhas hmem rfl rfl
        next hbudget =>
          push Not at hbudget
          refine obeys_mark hA hanswered (.markRetry n.id n.claimToken _)
            ⟨_, hanswered.open, hbudget.2⟩ (fun _ => rfl) rfl fun es' a hhas hmem => ?_
          cases a with
          | true => exact .settled n _ hhas hmem rfl rfl
          | false => exact .lost n _ hhas hmem rfl rfl
      · exact hsent _ hanswered

theorem obeys_handle (hA : NotifierRaises A f why) (h : Pending es n) (hf : Formats f n.payload ∨ why) :
    Obeys A (OutboxProtocol w) (w.handle f n) es (NotifierEnds why Eq) := by
  unfold NotificationWorker.handle
  split
  · refine obeys_bind.mpr (obeys_attempt.mpr (obeys_perform.mpr ⟨trivial, fun r _ => ?_⟩))
    exact obeys_deliver hA (h.append rfl rfl) hf
  · exact obeys_deliver hA h hf

theorem obeys_runOnce (hA : NotifierRaises A f why) (worker : String) (leaseSeconds : ℕ) :
    Obeys A (OutboxProtocol w) (w.runOnce f worker leaseSeconds) [] (NotifierEnds why Eq) := by
  have hnil : ∀ c, ¬ notifierDuties.Claimed ([] : List OutboxEvent) c := by simp [Duties.Claimed]
  have hnone : ∀ (r : Except NotifierError (Option OutboxNotification)), (∀ n, r ≠ .ok (some n)) →
      ∀ c, ¬ notifierDuties.Claimed [⟨.claim worker leaseSeconds, r⟩] c := by
    rintro r hr c ⟨e, he, hc⟩
    obtain rfl := List.mem_singleton.mp he
    rcases r with e | _ | n
    · simp [notifierDuties] at hc
    · simp [notifierDuties] at hc
    · exact hr n rfl
  unfold NotificationWorker.runOnce
  split
  · exact Or.inr hnil
  next hlease =>
    split
    · exact Or.inr hnil
    · refine obeys_bind.mpr (obeys_attempt.mpr (obeys_perform.mpr ⟨not_lt.mp hlease, fun r hr => ?_⟩))
      rcases r with e | _ | n
      · have hclaimed := hnone (.error e) (by simp)
        cases e with
        | payload m => exact ⟨_, rfl, .retired hclaimed⟩
        | _ => exact Or.inr hclaimed
      · exact ⟨_, rfl, .idle (hnone _ (by simp))⟩
      · exact obeys_handle hA (pending_claimed worker leaseSeconds) (hA.formats _ _ n hr)

/-- A call that returns has a verdict. -/
theorem obeys_body (hA : NotifierRaises A f why) (call : NotifierCall) :
    Obeys A (OutboxProtocol w) ((notifiers w f).body call) [] (NotifierEnds why fun _ _ => True) := by
  refine obeys_bind.mpr ((obeys_runOnce hA call.worker call.leaseSeconds).imp fun es r hr => ?_)
  cases r with
  | ok a =>
    obtain ⟨text, -, hverdict⟩ := hr
    exact ⟨text, trivial, hverdict⟩
  | error e => exact hr

/-- From its claim on, a call settles the row whatever the answers are, exactly when the payload
formats. -/
theorem settles_iff (worker : String) (leaseSeconds : ℕ) :
    Obeys (OutboxAnswer f) (fun _ _ => True) (w.handle f n)
        [⟨.claim worker leaseSeconds, .ok (some n)⟩] (fun es _ => notifierDuties.Done es) ↔
      Formats f n.payload := by
  have hclaim : Pending [⟨.claim worker leaseSeconds, .ok (some n)⟩] n :=
    pending_claimed worker leaseSeconds
  constructor
  · intro h hdeliver
    have hraise : ∀ es, Pending es n →
        Obeys (OutboxAnswer f) (fun _ _ => True) (w.deliver f n) es
          (fun es _ => notifierDuties.Done es) →
        ∃ text, formatNotificationHtml f n.payload = .ok text := by
      intro es hes hobeys
      unfold NotificationWorker.deliver at hobeys
      rw [if_neg (by simp [hdeliver])] at hobeys
      cases htext : formatNotificationHtml f n.payload with
      | ok text => exact ⟨text, rfl⟩
      | error e =>
        rw [htext] at hobeys
        exact absurd (hobeys n.claimOf hes.open.1) hes.unsettled
    unfold NotificationWorker.handle at h
    split at h
    · have hret := (obeys_perform.mp (obeys_attempt.mp (obeys_bind.mp h))).2 (.ok ()) trivial
      exact hraise _ (hclaim.append rfl rfl) hret
    · exact hraise _ hclaim h
  · exact fun hf => obeys_mono (fun _ _ _ => trivial) (fun _ _ hends => hends.done_of_not id)
      (obeys_handle raises_answer hclaim (Or.inl hf))

end Call

/-! ## Runs -/

/-- What an operation must meet : a claim is not lost with its commit and its payload formats, and
neither the request to the bot nor the settlement raises. -/
def OutboxMeets (f : Formatters) (world : OutboxWorld) (c : OutboxChoice) : OutboxOp → Prop
  | .claim _ _ => c.delivery ≠ .lost ∧
    ∀ r ∈ world.outbox.picks world.clock c.locked 1, ∀ payload, r.payload = .obj payload →
      Formats f payload
  | .fanOut _ => True
  | .send _ => c.answer ≠ none
  | .markSent _ _ => c.delivery = .answered
  | .markRetry _ _ _ => c.delivery = .answered
  | .markFailed _ _ => c.delivery = .answered

/-- What the steps of a run must meet : their operations do, and no lease of a last attempt ends
before its row is settled. -/
def NotifierMeets (w : NotificationWorker) (f : Formatters) (s : NotifierState) : NotifierLabel → Prop
  | .act n c => ∀ i o, s.next n = some (i, o) → OutboxMeets f s.world c o
  | .env (.tick now) => Live w.maxAttempts now s.world.outbox
  | _ => True

/-- The tokens in use are drawn. -/
abbrev DrawnBy (world : OutboxWorld) (t : ClaimToken) : Prop := t.uuid < world.tokens

/-- The queue is tidy, and the tokens in use are drawn. -/
abbrev NotifierTidy (w : NotificationWorker) (s : NotifierState) : Prop :=
  Tidy notifierDuties w.maxAttempts s.world.clock (DrawnBy s.world) s.trace s.world.outbox

abbrev NotifierSound (A : (o : OutboxOp) → Except NotifierError (OutboxAns o) → Prop) (why : Prop)
    (w : NotificationWorker) (s : NotifierState) : Prop :=
  System.SoundTo A (fun _ => OutboxProtocol w) (fun _ es r => NotifierEnds why (fun _ _ => True) es r) s

section Steps

variable {w : NotificationWorker} {f : Formatters} {s t : NotifierState} {n : ℕ} {i : NotifierCall}
  {o : OutboxOp} {c : OutboxChoice} {id : Uuid} {token : ClaimToken} {worker : String}
  {leaseSeconds : ℕ} {locked : Uuid → Bool}

/-! ## Operations -/

/-- What a claim does : nothing where no row is due, a claim of a row with an object, and a failure
of another row. -/
theorem claim_cases (world : OutboxWorld) (worker : String) (leaseSeconds : ℕ)
    (locked : Uuid → Bool) :
    world.claim worker leaseSeconds locked = (.ok none, world) ∨
      ∃ r ∈ world.outbox.picks world.clock locked 1,
        (∃ payload, r.payload = .obj payload ∧ world.claim worker leaseSeconds locked =
          (.ok (some ⟨r.key, payload, r.attempts + 1, ⟨worker, world.tokens⟩⟩),
            { world with
              outbox := world.outbox.claim [r.key]
                ⟨⟨worker, world.tokens⟩, world.clock + microseconds leaseSeconds⟩
              tokens := world.tokens + 1 })) ∨
        world.claim worker leaseSeconds locked =
          (.error (.payload "notification payload must be an object"),
            { world with
              outbox := ((world.outbox.claim [r.key]
                ⟨⟨worker, world.tokens⟩, world.clock + microseconds leaseSeconds⟩).settle r.key
                  ⟨worker, world.tokens⟩ (.failed world.clock none)).2
              tokens := world.tokens + 1 }) := by
  unfold OutboxWorld.claim
  cases hpicks : world.outbox.picks world.clock locked 1 with
  | nil => exact Or.inl rfl
  | cons r rs =>
    refine Or.inr ⟨r, List.mem_cons_self, ?_⟩
    cases hpayload : r.payload with
    | obj payload => exact Or.inl ⟨payload, rfl, by simp [hpayload]⟩
    | _ => exact Or.inr (by simp [hpayload])

/-- A claim leaves a row alone, or the row was due and one more attempt is counted. -/
theorem mem_claim_or {world : OutboxWorld} {r : Row Uuid Json ClaimToken} (hr : r ∈ world.outbox)
    (worker : String) (leaseSeconds : ℕ) (locked : Uuid → Bool) :
    r ∈ (world.claim worker leaseSeconds locked).2.outbox ∨ r.due world.clock = true ∧
      ∃ r' ∈ (world.claim worker leaseSeconds locked).2.outbox, r'.key = r.key ∧
        r'.attempts = r.attempts + 1 := by
  rcases claim_cases world worker leaseSeconds locked with
    heq | ⟨r', hr', ⟨payload, -, heq⟩ | heq⟩
  · rw [heq]
    exact Or.inl hr
  all_goals
    obtain ⟨hmem, hdue⟩ := Queue.mem_of_picks hr'
    rw [heq]
    let lease : Lease ClaimToken := ⟨⟨worker, world.tokens⟩, world.clock + microseconds leaseSeconds⟩
    have hclaim : (if r.key ∈ [r'.key] then r.claim lease else r) ∈ world.outbox.claim [r'.key] lease :=
      Queue.mem_claim.mpr ⟨r, hr, rfl⟩
    by_cases hkey : r.key = r'.key
  · obtain rfl := Table.eq_of_key hr hmem hkey
    exact Or.inr ⟨hdue, r.claim lease, by simpa using hclaim, rfl, rfl⟩
  · exact Or.inl (by simpa [hkey] using hclaim)
  · obtain rfl := Table.eq_of_key hr hmem hkey
    rcases Queue.mem_settle_or (by simpa using hclaim) r.key _ (.failed world.clock none) with
      hstays | ⟨-, -, happly⟩
    · exact Or.inr ⟨hdue, _, hstays, rfl, rfl⟩
    · exact Or.inr ⟨hdue, _, happly, by simp [Row.claim], by simp [Row.claim]⟩
  · refine Or.inl ((Queue.mem_settle_or (by simpa [hkey] using hclaim) r'.key _ _).resolve_right ?_)
    exact fun h => hkey h.1

/-- What an operation that settles does to the outbox : its settlement, or nothing. -/
theorem exec_settle (world : OutboxWorld) (c : OutboxChoice) (ht : o.target = some (id, token)) :
    ∃ how, o.settlement world.clock = some how ∧
      ((outboxExec world c o).2 =
          { world with outbox := (world.outbox.settle id token how).2 } ∧
        (ownedBy ⟨o, (outboxExec world c o).1⟩ = some (world.outbox.settle id token how).1 ∨
          ownedBy ⟨o, (outboxExec world c o).1⟩ = none) ∨
      (outboxExec world c o).2 = world ∧ ownedBy ⟨o, (outboxExec world c o).1⟩ = none) := by
  cases o with
  | markSent _ _ | markRetry _ _ _ | markFailed _ _ =>
    obtain ⟨rfl, rfl⟩ := Prod.mk.inj (Option.some.inj ht)
    refine ⟨_, rfl, ?_⟩
    unfold outboxExec OutboxWorld.settle Delivery.transact
    cases c.delivery with
    | answered => exact Or.inl ⟨rfl, Or.inl rfl⟩
    | lost => exact Or.inl ⟨rfl, Or.inr rfl⟩
    | failed => exact Or.inr ⟨rfl, rfl⟩
  | _ => simp [OutboxOp.target] at ht

/-! ## Every run -/

/-- Tokens are drawn for one claim, and a claim has its row or lost it. -/
structure OutboxSafe (s : NotifierState) : Prop where
  drawn : Drawn notifierDuties (DrawnBy s.world) s.trace
  fenced : Leases.Fenced notifierDuties s.trace s.world.outbox

/-- A claim, also where its answer is lost. -/
theorem safe_claim (h : OutboxSafe s) {r : Except NotifierError (Option OutboxNotification)}
    (hr : r = (s.world.claim worker leaseSeconds locked).1 ∨ ∃ e, r = .error e) :
    Drawn notifierDuties (DrawnBy (s.world.claim worker leaseSeconds locked).2)
        (s.trace ++ [(n, ⟨.claim worker leaseSeconds, r⟩)]) ∧
      Leases.Fenced notifierDuties (s.trace ++ [(n, ⟨.claim worker leaseSeconds, r⟩)])
        (s.world.claim worker leaseSeconds locked).2.outbox := by
  have hnew : ¬ DrawnBy s.world ⟨worker, s.world.tokens⟩ := Nat.lt_irrefl _
  have hquiet : r ≠ (s.world.claim worker leaseSeconds locked).1 ∨
      (∀ n, (s.world.claim worker leaseSeconds locked).1 ≠ .ok (some n)) →
      notifierDuties.given ⟨.claim worker leaseSeconds, r⟩ = [] := by
    rintro (hne | hnone)
    · obtain ⟨e, rfl⟩ := hr.resolve_left hne
      rfl
    · rcases hr with rfl | ⟨e, rfl⟩
      · cases hr : (s.world.claim worker leaseSeconds locked).1 with
        | error e => rfl
        | ok a =>
          cases a with
          | none => rfl
          | some n => exact absurd hr (hnone n)
      · rfl
  rcases claim_cases s.world worker leaseSeconds locked with
    heq | ⟨row, hrow, ⟨payload, -, heq⟩ | heq⟩
  · have hg := hquiet (Or.inr (by simp [heq]))
    rw [heq]
    exact ⟨h.drawn.quiet hg (by simp [notifierDuties, OutboxOp.target]) fun _ ht => ht,
      h.fenced.other hg⟩
  all_goals
    obtain ⟨hmem, hdue⟩ := Queue.mem_of_picks hrow
    have hopen := (Row.ended_of_due hdue).1
  · have hgiven : ∀ c ∈ notifierDuties.given ⟨.claim worker leaseSeconds, r⟩,
        c = ⟨row.key, ⟨worker, s.world.tokens⟩, row.attempts + 1⟩ := by
      rcases hr with rfl | ⟨e, rfl⟩
      · rw [heq]
        simp [notifierDuties, OutboxNotification.claimOf]
      · simp [notifierDuties]
    rw [heq]
    refine ⟨h.drawn.claim hnew (fun t ht => Nat.lt_succ_of_lt ht) (Nat.lt_succ_self _) rfl
      (fun c hc => by rw [hgiven c hc]) fun c hc c' hc' _ => (hgiven c hc).trans (hgiven c' hc').symm,
      h.fenced.claim h.drawn hnew fun c hc =>
        ⟨row, hmem, hopen, List.mem_singleton_self _, hgiven c hc⟩⟩
  · have hg := hquiet (Or.inr (by simp [heq]))
    have hdrawn : Drawn notifierDuties (DrawnBy s.world)
        (s.trace ++ [(n, ⟨.claim worker leaseSeconds, r⟩)]) :=
      h.drawn.quiet hg (by simp [notifierDuties, OutboxOp.target]) fun _ ht => ht
    rw [heq]
    refine ⟨h.drawn.quiet hg (by simp [notifierDuties, OutboxOp.target])
      (fun t ht => Nat.lt_succ_of_lt ht),
      (h.fenced.claim h.drawn hnew (by simp [hg])).settle fun m c hc _ ⟨_, hholder⟩ => ?_⟩
    exact hnew (hholder ▸ hdrawn.claims m c hc)

/-- Every operation that satisfies its protocol, however it ends. -/
theorem safe_act (h : OutboxSafe s) (hφ : OutboxProtocol w (own n s.trace) o) (c : OutboxChoice) :
    Drawn notifierDuties (DrawnBy (outboxExec s.world c o).2)
        (s.trace ++ [(n, ⟨o, (outboxExec s.world c o).1⟩)]) ∧
      Leases.Fenced notifierDuties (s.trace ++ [(n, ⟨o, (outboxExec s.world c o).1⟩)])
        (outboxExec s.world c o).2.outbox := by
  have hmark : ∀ id token a, o.target = some (id, token) → notifierDuties.given
      ⟨o, (outboxExec s.world c o).1⟩ = [] → notifierDuties.Unsettled (own n s.trace) ⟨id, token, a⟩ →
      Drawn notifierDuties (DrawnBy (outboxExec s.world c o).2)
          (s.trace ++ [(n, ⟨o, (outboxExec s.world c o).1⟩)]) ∧
        Leases.Fenced notifierDuties (s.trace ++ [(n, ⟨o, (outboxExec s.world c o).1⟩)])
          (outboxExec s.world c o).2.outbox := by
    intro id token a ht hg ha
    obtain ⟨how, -, ⟨hworld, -⟩ | ⟨hworld, -⟩⟩ := exec_settle s.world c ht
    · rw [hworld]
      exact ⟨h.drawn.settle ha.1 hg ht, h.fenced.settled h.drawn ha.1 hg ht⟩
    · rw [hworld]
      exact ⟨h.drawn.settle ha.1 hg ht, h.fenced.other hg⟩
  cases o with
  | claim worker leaseSeconds =>
    unfold outboxExec Delivery.transact
    cases c.delivery with
    | answered => exact safe_claim h (Or.inl rfl)
    | lost => exact safe_claim h (Or.inr ⟨_, rfl⟩)
    | failed =>
      exact ⟨h.drawn.quiet rfl (by simp [notifierDuties, OutboxOp.target]) fun _ ht => ht,
        h.fenced.other rfl⟩
  | fanOut _ | send _ =>
    exact ⟨h.drawn.quiet rfl (by simp [notifierDuties, OutboxOp.target]) fun _ ht => ht,
      h.fenced.other rfl⟩
  | markSent id token => exact hφ.elim fun a ha => hmark id token a rfl rfl ha
  | markRetry id token _ => exact hφ.elim fun a ha => hmark id token a rfl rfl ha.1
  | markFailed id token => exact hφ.elim fun a ha => hmark id token a rfl rfl ha

/-- A step of any run. -/
theorem safe_step (hs : NotifierSound (fun _ _ => True) True w s) (h : OutboxSafe s)
    {l : NotifierLabel} (hstep : (notifiers w f).Step s l t) :
    NotifierSound (fun _ _ => True) True w t ∧ OutboxSafe t := by
  cases l with
  | start i =>
    obtain rfl := Option.some.inj hstep
    exact ⟨System.soundTo_started hs (obeys_body raises_any i), h.drawn, h.fenced⟩
  | act n c =>
    obtain ⟨i, o, k, r, world, hn, hx, rfl⟩ := System.step_act hstep
    obtain ⟨rfl, rfl⟩ := Prod.mk.inj (Option.some.inj hx)
    obtain ⟨hdrawn, hfenced⟩ := safe_act h (hs.1 n i _ hn).1 c
    exact ⟨System.soundTo_acted hs hn trivial _, hdrawn, hfenced⟩
  | env e =>
    obtain ⟨world, hworld, rfl⟩ := Option.map_eq_some_iff.mp hstep
    refine ⟨hs, ?_⟩
    cases e with
    | enqueue id payload =>
      obtain rfl := Option.some.inj hworld
      exact ⟨h.drawn, h.fenced.mono fun r hr => Table.prefix_insertNew.subset hr⟩
    | tick now =>
      obtain ⟨-, hworld⟩ := Option.ite_none_right_eq_some.mp hworld
      obtain rfl := Option.some.inj hworld
      exact ⟨h.drawn, h.fenced⟩

/-- The call with the claim of a row settles it. -/
def SettledBy (s : NotifierState) (l : NotifierLabel) (r : Row Uuid Json ClaimToken)
    (holder : ClaimToken) (t : NotifierState) : Prop :=
  ∃ n c i o how, l = .act n c ∧ s.next n = some (i, o) ∧ o.target = some (r.key, holder) ∧
    (∃ a, notifierDuties.Unsettled (own n s.trace) ⟨r.key, holder, a⟩) ∧
    o.settlement s.world.clock = some how ∧ how.apply r ∈ t.world.outbox

/-- The lease of a row has ended, and another claim takes it. -/
def ClaimedAgain (s : NotifierState) (l : NotifierLabel) (r : Row Uuid Json ClaimToken)
    (lease : Lease ClaimToken) (t : NotifierState) : Prop :=
  lease.ends ≤ s.world.clock ∧ ∃ n c i worker leaseSeconds, l = .act n c ∧
    s.next n = some (i, .claim worker leaseSeconds) ∧
    ∃ r' ∈ t.world.outbox, r'.key = r.key ∧ r'.attempts = r.attempts + 1

/-- A settlement : the row is still the call's, with the attempts it counted, and changes if the
answer says so ; or another claim has taken it since, and nothing changes. -/
def OutboxAnswers (s : NotifierState) (n : ℕ) (o : OutboxOp) (id : Uuid) (token : ClaimToken)
    (t : NotifierState) : Prop :=
  ∃ e a how r, t.trace = s.trace ++ [(n, e)] ∧ e.op = o ∧ o.settlement s.world.clock = some how ∧
    notifierDuties.Unsettled (own n s.trace) ⟨id, token, a⟩ ∧ r ∈ s.world.outbox ∧ r.key = id ∧
    (r.heldBy token = true ∧ r.attempts = a ∧ ownedBy e ≠ some false ∧
        (ownedBy e = some true → how.apply r ∈ t.world.outbox) ∨
      r.heldBy token = false ∧ a < r.attempts ∧ ownedBy e ≠ some true ∧
        ∀ r ∈ s.world.outbox, r ∈ t.world.outbox)

/-- A step leaves a settled row alone, and changes a row that is claimed only by a settlement of the
call with its claim, or by another claim once its lease has ended. A settlement with a token that is
no longer the row's says so. -/
structure Fences (s : NotifierState) (l : NotifierLabel) (t : NotifierState) : Prop where
  settled : ∀ r ∈ s.world.outbox, r.settled ≠ none → r ∈ t.world.outbox
  claimed : ∀ r ∈ s.world.outbox, r.settled = none → ∀ lease, r.claimed = some lease →
    r ∈ t.world.outbox ∨ SettledBy s l r lease.holder t ∨ ClaimedAgain s l r lease t
  answers : ∀ n c i o, l = .act n c → s.next n = some (i, o) → ∀ id token,
    o.target = some (id, token) → OutboxAnswers s n o id token t

theorem unsettled_of_target (hφ : OutboxProtocol w (own n s.trace) o)
    (ht : o.target = some (id, token)) :
    ∃ a, notifierDuties.Unsettled (own n s.trace) ⟨id, token, a⟩ := by
  cases o with
  | markSent _ _ | markFailed _ _ =>
    obtain ⟨rfl, rfl⟩ := Prod.mk.inj (Option.some.inj ht)
    exact hφ
  | markRetry _ _ _ =>
    obtain ⟨rfl, rfl⟩ := Prod.mk.inj (Option.some.inj ht)
    exact hφ.imp fun a ha => ha.1
  | _ => simp [OutboxOp.target] at ht

/-- A settlement of a call. -/
theorem answers_of_settle (h : OutboxSafe s) (hφ : OutboxProtocol w (own n s.trace) o)
    (ht : o.target = some (id, token))
    (htrace : t.trace = s.trace ++ [(n, ⟨o, (outboxExec s.world c o).1⟩)])
    (hworld : t.world = (outboxExec s.world c o).2) : OutboxAnswers s n o id token t := by
  obtain ⟨a, ha⟩ := unsettled_of_target hφ ht
  obtain ⟨how, hhow, hexec⟩ := exec_settle s.world c ht
  obtain ⟨r, hr, hkey, hheld⟩ := h.fenced n _ ha.1 ha.2
  refine ⟨_, a, how, r, htrace, rfl, hhow, ha, hr, hkey, ?_⟩
  have howned : (s.world.outbox.settle id token how).1 = r.heldBy token := by
    refine Bool.eq_iff_iff.mpr ⟨fun hany => ?_, fun hheld => ?_⟩
    · simp only [Queue.settle, List.any_eq_true, Bool.and_eq_true, decide_eq_true_eq] at hany
      obtain ⟨r', hr', hkey', hheld'⟩ := hany
      rwa [Table.eq_of_key hr (Table.mem_iff.mpr hr') (hkey.trans hkey'.symm)]
    · simp only [Queue.settle, List.any_eq_true, Bool.and_eq_true, decide_eq_true_eq]
      exact ⟨r, Table.mem_iff.mp hr, hkey, hheld⟩
  rw [hworld]
  rcases hheld with ⟨hholds, hattempts⟩ | ⟨hlost, hlt⟩
  · refine Or.inl ⟨hholds, hattempts, ?_⟩
    rw [howned, hholds] at hexec
    rcases hexec with ⟨hnew, hanswer⟩ | ⟨-, hnone⟩
    · refine ⟨by rcases hanswer with hanswer | hanswer <;> simp [hanswer], fun _ => ?_⟩
      rw [hnew]
      exact Queue.mem_settle.mpr ⟨r, hr, if_pos (by simp [hkey, hholds])⟩
    · simp [hnone]
  · refine Or.inr ⟨hlost, hlt, ?_⟩
    rw [howned, hlost] at hexec
    rcases hexec with ⟨hnew, hanswer⟩ | ⟨hsame, hnone⟩
    · refine ⟨by rcases hanswer with hanswer | hanswer <;> simp [hanswer], fun r' hr' => ?_⟩
      rw [hnew]
      refine (Queue.mem_settle_or hr' id token how).resolve_right ?_
      rintro ⟨hkey', hheld', -⟩
      obtain rfl := Table.eq_of_key hr hr' (hkey.trans hkey'.symm)
      rw [hlost] at hheld'
      cases hheld'
    · rw [hsame]
      exact ⟨by simp [hnone], fun _ hr => hr⟩

/-- The rows an operation may change. -/
theorem fences_act (h : OutboxSafe s) (hφ : OutboxProtocol w (own n s.trace) o)
    (hnext : s.next n = some (i, o))
    (htrace : t.trace = s.trace ++ [(n, ⟨o, (outboxExec s.world c o).1⟩)])
    (hworld : t.world = (outboxExec s.world c o).2) : Fences s (.act n c) t := by
  have hanswers : ∀ n' c' i' o', (.act n c : NotifierLabel) = .act n' c' → s.next n' = some (i', o') →
      ∀ id token, o'.target = some (id, token) → OutboxAnswers s n' o' id token t := by
    rintro n' c' i' o' heq hnext' id token ht
    obtain ⟨rfl, rfl⟩ := Label.act.inj heq
    obtain ⟨-, rfl⟩ := Prod.mk.inj (Option.some.inj (hnext.symm.trans hnext'))
    exact answers_of_settle h hφ ht htrace hworld
  have hchanged : ∀ r ∈ s.world.outbox, r ∈ t.world.outbox ∨
      (r.settled = none ∧ ∀ lease, r.claimed = some lease →
        SettledBy s (.act n c) r lease.holder t ∨ ClaimedAgain s (.act n c) r lease t) := by
    intro r hr
    cases hop : o.target with
    | some p =>
      obtain ⟨id, token⟩ := p
      obtain ⟨a, ha⟩ := unsettled_of_target hφ hop
      obtain ⟨how, hhow, ⟨hnew, -⟩ | ⟨hsame, -⟩⟩ := exec_settle s.world c hop
      · rw [hworld, hnew]
        refine (Queue.mem_settle_or hr id token how).imp_right ?_
        rintro ⟨hkey, hheld, happly⟩
        simp only [Row.heldBy, Bool.and_eq_true, Option.any_eq_true, decide_eq_true_eq,
          Option.isNone_iff_eq_none] at hheld
        obtain ⟨⟨lease, hlease, rfl⟩, hopen⟩ := hheld
        refine ⟨hopen, fun lease' hlease' => Or.inl ?_⟩
        obtain rfl := Option.some.inj (hlease.symm.trans hlease')
        subst hkey
        exact ⟨n, c, i, o, how, rfl, hnext, hop, ⟨a, ha⟩, hhow, by rw [hworld, hnew]; exact happly⟩
      · rw [hworld, hsame]
        exact Or.inl hr
    | none =>
      cases o with
      | claim worker leaseSeconds =>
        have htaken : t.world = (s.world.claim worker leaseSeconds c.locked).2 ∨ t.world = s.world := by
          rw [hworld]
          unfold outboxExec Delivery.transact
          cases c.delivery with
          | answered | lost => exact Or.inl rfl
          | failed => exact Or.inr rfl
        rcases htaken with htaken | hsame
        · rcases mem_claim_or hr worker leaseSeconds c.locked with hstays | ⟨hdue, hmore⟩
          · exact Or.inl (htaken ▸ hstays)
          · obtain ⟨hopen, hends⟩ := Row.ended_of_due hdue
            exact Or.inr ⟨hopen, fun lease hlease => Or.inr ⟨hends lease hlease, n, c, i, worker,
              leaseSeconds, rfl, hnext, by rw [htaken]; exact hmore⟩⟩
        · exact Or.inl (hsame ▸ hr)
      | fanOut _ | send _ => exact Or.inl (hworld ▸ hr)
      | _ => simp [OutboxOp.target] at hop
  exact ⟨fun r hr hsettled => (hchanged r hr).resolve_right fun h => hsettled h.1,
    fun r hr _ lease hlease => (hchanged r hr).imp_right fun h => h.2 lease hlease, hanswers⟩

theorem fences_step (hs : NotifierSound (fun _ _ => True) True w s) (h : OutboxSafe s)
    {l : NotifierLabel} (hstep : (notifiers w f).Step s l t) : Fences s l t := by
  have hstays : (∀ r ∈ s.world.outbox, r ∈ t.world.outbox) → (∀ n c, l ≠ .act n c) → Fences s l t :=
    fun hrows hnot => ⟨fun r hr _ => hrows r hr, fun r hr _ _ _ => Or.inl (hrows r hr),
      fun n c _ _ hl => absurd hl (hnot n c)⟩
  cases l with
  | start i =>
    obtain rfl := Option.some.inj hstep
    exact hstays (fun r hr => hr) (by simp)
  | act n c =>
    obtain ⟨i, o, k, r, world, hn, hx, rfl⟩ := System.step_act hstep
    obtain ⟨rfl, rfl⟩ := Prod.mk.inj (Option.some.inj hx)
    exact fences_act h (hs.1 n i _ hn).1 (State.next_eq_some.mpr ⟨k, hn⟩) rfl rfl
  | env e =>
    obtain ⟨world, hworld, rfl⟩ := Option.map_eq_some_iff.mp hstep
    refine hstays (fun r hr => ?_) (by simp)
    cases e with
    | enqueue id payload =>
      obtain rfl := Option.some.inj hworld
      exact Table.prefix_insertNew.subset hr
    | tick now =>
      obtain ⟨-, hworld⟩ := Option.ite_none_right_eq_some.mp hworld
      obtain rfl := Option.some.inj hworld
      exact hr

/-! ## Runs that meet the condition -/

/-- A claim keeps the queue tidy. -/
theorem tidy_claim (h : NotifierTidy w s) (hlease : minLeaseSeconds ≤ leaseSeconds)
    (locked : Uuid → Bool) :
    Tidy notifierDuties w.maxAttempts (s.world.claim worker leaseSeconds locked).2.clock
      (DrawnBy (s.world.claim worker leaseSeconds locked).2)
      (s.trace ++ [(n, ⟨.claim worker leaseSeconds, (s.world.claim worker leaseSeconds locked).1⟩)])
      (s.world.claim worker leaseSeconds locked).2.outbox := by
  have hends := microseconds_pos hlease
  rcases claim_cases s.world worker leaseSeconds locked with
    heq | ⟨r, hr, ⟨payload, -, heq⟩ | heq⟩
  · rw [heq]
    exact h.other rfl rfl
  all_goals
    obtain ⟨hmem, hdue⟩ := Queue.mem_of_picks hr
    have honly : ∀ r' ∈ s.world.outbox, r'.key = r.key → r' = r := fun r' hr' hkey =>
      Table.eq_of_key hr' hmem hkey
    rw [heq]
  · refine h.claim (lt_add_of_pos_right _ hends) (by simp) (fun t ht => Nat.lt_succ_of_lt ht) (by simp) rfl
      ?_ ?_ (by simp [notifierDuties, OutboxNotification.claimOf]) (by simp [notifierDuties])
    · rintro k hk r' hr' rfl
      rw [honly r' hr' (List.mem_singleton.mp hk)]
      exact hdue
    · intro r' hr' hk
      obtain rfl := honly r' hr' (List.mem_singleton.mp hk)
      exact List.mem_singleton_self _
  · dsimp only
    refine h.claimFailed ⟨⟨worker, s.world.tokens⟩, _⟩ ?_ ?_ ?_ ?_ ?_ ?_
    · exact lt_add_of_pos_right _ hends
    · exact fun t ht => Nat.lt_succ_of_lt ht
    · rfl
    · rfl
    · intro r' hr' hkey
      rw [honly r' hr' hkey]
      exact hdue
    · rfl

/-- Every operation that satisfies its protocol and meets the condition keeps it. -/
theorem tidy_act (h : NotifierTidy w s) (hφ : OutboxProtocol w (own n s.trace) o)
    (hmeets : OutboxMeets f s.world c o) :
    Tidy notifierDuties w.maxAttempts (outboxExec s.world c o).2.clock
      (DrawnBy (outboxExec s.world c o).2) (s.trace ++ [(n, ⟨o, (outboxExec s.world c o).1⟩)])
      (outboxExec s.world c o).2.outbox := by
  cases o with
  | claim worker leaseSeconds =>
    have hnot := hmeets.1
    unfold outboxExec Delivery.transact
    cases hd : c.delivery with
    | answered => exact tidy_claim h hφ c.locked
    | lost => exact absurd hd hnot
    | failed => exact h.other rfl rfl
  | fanOut id => exact h.other rfl rfl
  | send text => exact h.other rfl rfl
  | markSent id token =>
    obtain ⟨a, ha⟩ := hφ
    have hd : c.delivery = .answered := hmeets
    simp only [outboxExec, OutboxWorld.settle, Delivery.transact, hd]
    exact h.settle ha.1 rfl rfl fun hs => absurd hs (by simp [Settlement.isRetry])
  | markRetry id token delaySeconds =>
    obtain ⟨a, ha, hlt⟩ := hφ
    have hd : c.delivery = .answered := hmeets
    simp only [outboxExec, OutboxWorld.settle, Delivery.transact, hd]
    exact h.settle ha.1 rfl rfl fun _ => hlt
  | markFailed id token =>
    obtain ⟨a, ha⟩ := hφ
    have hd : c.delivery = .answered := hmeets
    simp only [outboxExec, OutboxWorld.settle, Delivery.transact, hd]
    exact h.settle ha.1 rfl rfl fun hs => absurd hs (by simp [Settlement.isRetry])

/-- Where the condition is met, the operations answer as `OutboxAnswer` says. -/
theorem answers_of_meets (hmeets : OutboxMeets f s.world c o) :
    OutboxAnswer f o (outboxExec s.world c o).1 := by
  cases o with
  | claim worker leaseSeconds =>
    obtain ⟨hnot, hformats⟩ := hmeets
    unfold outboxExec Delivery.transact
    cases hd : c.delivery with
    | answered =>
      dsimp only
      rcases claim_cases s.world worker leaseSeconds c.locked with
        heq | ⟨r, hr, ⟨payload, hpayload, heq⟩ | heq⟩
      · rw [heq]
        trivial
      · rw [heq]
        exact hformats r hr payload hpayload
      · rw [heq]
        rfl
    | lost => exact absurd hd hnot
    | failed => rfl
  | fanOut id =>
    unfold outboxExec
    dsimp only
    split
    · rfl
    · trivial
  | send text =>
    obtain ⟨answer, hanswer⟩ := Option.ne_none_iff_exists'.mp hmeets
    simp only [outboxExec, hanswer]
    trivial
  | markSent id token | markRetry id token delaySeconds | markFailed id token =>
    have hd : c.delivery = .answered := hmeets
    simp only [outboxExec, OutboxWorld.settle, Delivery.transact, hd]
    trivial

/-- A step that meets the condition. -/
theorem notifier_step (hs : NotifierSound (OutboxAnswer f) False w s) (h : NotifierTidy w s)
    {l : NotifierLabel} (hstep : Guard (notifiers w f).Step (NotifierMeets w f) s l t) :
    NotifierSound (OutboxAnswer f) False w t ∧ NotifierTidy w t := by
  obtain ⟨hmeets, hstep⟩ := hstep
  cases l with
  | start i =>
    obtain rfl := Option.some.inj hstep
    exact ⟨System.soundTo_started hs (obeys_body raises_answer i), h⟩
  | act n c =>
    obtain ⟨i, o, k, r, world, hn, hx, rfl⟩ := System.step_act hstep
    obtain ⟨rfl, rfl⟩ := Prod.mk.inj (Option.some.inj hx)
    have hop := hmeets i o (State.next_eq_some.mpr ⟨k, hn⟩)
    exact ⟨System.soundTo_acted hs hn (answers_of_meets hop) _, tidy_act h (hs.1 n i _ hn).1 hop⟩
  | env e =>
    obtain ⟨world, hworld, rfl⟩ := Option.map_eq_some_iff.mp hstep
    refine ⟨hs, ?_⟩
    cases e with
    | enqueue id payload =>
      obtain rfl := Option.some.inj hworld
      exact h.insertNew w.max_pos id payload
    | tick now =>
      obtain ⟨-, hworld⟩ := Option.ite_none_right_eq_some.mp hworld
      obtain rfl := Option.some.inj hworld
      exact h.world h.kept hmeets

/-- What the notification senders promise of a state : no row has too many attempts, a call that has
ended has a verdict, or has claimed nothing, and a row that is claimed belongs to a running call. -/
structure NotifierDelivers (w : NotificationWorker) (t : NotifierState) : Prop where
  attempts : ∀ r ∈ t.world.outbox, r.attempts ≤ w.maxAttempts
  ended : ∀ n i p, t.calls[n]? = some (i, p) → p.ended = true →
    (∃ text, NotifierVerdict (own n t.trace) text) ∨ ∀ c, ¬ notifierDuties.Claimed (own n t.trace) c
  running : ∀ r ∈ t.world.outbox, r.settled = none → ∀ lease, r.claimed = some lease →
    ∃ n i o k, t.calls[n]? = some (i, .op o k) ∧
      notifierDuties.Unsettled (own n t.trace) ⟨r.key, lease.holder, r.attempts⟩

theorem delivers_of_tidy (hs : NotifierSound (OutboxAnswer f) False w t) (h : NotifierTidy w t) :
    NotifierDelivers w t where
  attempts := h.kept.attempts
  ended n i p hp hend := by
    have hobeys := hs.1 n i p hp
    cases p with
    | ret a =>
      obtain ⟨text, -, hverdict⟩ := hobeys
      exact Or.inl ⟨text, hverdict⟩
    | raise e => exact Or.inr (hobeys.resolve_left id)
    | op o k => exact absurd hend (by simp [Prog.ended])
  running r hr hopen lease hl :=
    h.exists_running hs (fun _ _ _ hends => hends.done_of_not id) hr hopen hl

end Steps

/-- The senders, with an empty outbox. -/
def emptyOutbox : NotifierState := State.init { outbox := .empty }

/-- A call settles its claim whatever the answers are, exactly when the payload formats. In every run
each step leaves settled rows and the rows of other calls alone. In a run in which every claimed
payload formats, nothing else raises, and no lease of a last attempt ends before its row is settled,
every state keeps the promises. -/
theorem notifiers_deliver (w : NotificationWorker) (f : Formatters) :
    (∀ n worker leaseSeconds, Obeys (OutboxAnswer f) (fun _ _ => True) (w.handle f n)
        [⟨.claim worker leaseSeconds, .ok (some n)⟩] (fun es _ => notifierDuties.Done es) ↔
      Formats f n.payload) ∧
    (∀ ls t, Run (notifiers w f).Step emptyOutbox ls t →
      ∀ l u, (notifiers w f).Step t l u → Fences t l u) ∧
    ∀ ls t, Run (Guard (notifiers w f).Step (NotifierMeets w f)) emptyOutbox ls t →
      NotifierDelivers w t := by
  refine ⟨fun n worker leaseSeconds => settles_iff worker leaseSeconds, fun ls t hrun l u hstep => ?_,
    fun ls t hrun => ?_⟩
  · have hinit : NotifierSound (fun _ _ => True) True w emptyOutbox ∧ OutboxSafe emptyOutbox :=
      ⟨System.soundTo_init _, .nil, .nil⟩
    obtain ⟨hs, h⟩ := hrun.inv
      (I := fun s => NotifierSound (fun _ _ => True) True w s ∧ OutboxSafe s)
      (fun s l t h hstep => safe_step h.1 h.2 hstep) hinit
    exact fences_step hs h hstep
  · have hinit : NotifierSound (OutboxAnswer f) False w emptyOutbox ∧ NotifierTidy w emptyOutbox :=
      ⟨System.soundTo_init _, Tidy.empty⟩
    obtain ⟨hs, h⟩ := hrun.inv
      (I := fun s => NotifierSound (OutboxAnswer f) False w s ∧ NotifierTidy w s)
      (fun s l t h hstep => notifier_step h.1 h.2 hstep) hinit
    exact delivers_of_tidy hs h

/-! ## A payload that does not format -/

def quietFormatters : Formatters where
  healthReport _ := .ok "report"
  kakaDigest _ := .ok "digest"
  heartbeat _ := .ok "heartbeat"
  sourceForward _ := .ok "source"
  signalAnalysis _ := .ok "signal"
  executionEvent _ := .ok "event"
  executionAlert _ := .ok "alert"
  systemEvent _ := .ok "system"
  operatorAlert _ := .ok "alert"

/-- One attempt for each notification. -/
def singleAttempt : NotificationWorker := ⟨1, 30, false, by decide, by decide⟩

/-- A health report without a snapshot is claimed, its lease ends, and it is claimed again. -/
def malformedReport : List NotifierLabel :=
  [.env (.enqueue 1 (.obj [("kind", .str "console-health-report")])), .start ⟨"sender", 15⟩, .act 0 {},
    .env (.tick 16000000), .start ⟨"sender", 15⟩, .act 1 {}]

/-- Every call of this run has ended, none has settled the row, and it has two attempts instead of
one. -/
theorem malformed_attempted_again :
    ∃ t, Run (notifiers singleAttempt quietFormatters).Step emptyOutbox malformedReport t ∧
      (∀ p ∈ t.calls, p.2.ended = true) ∧ ¬ NotifierDelivers singleAttempt t := by
  have hreplay : (replay (notifiers singleAttempt quietFormatters).step emptyOutbox
      malformedReport).map (fun t => (t.world.outbox.rows.map Row.attempts,
        t.calls.map fun p => p.2.ended)) = some ([2], [true, true]) := by decide +kernel
  obtain ⟨t, ht, hsummary⟩ := Option.map_eq_some_iff.mp hreplay
  obtain ⟨hattempts, hended⟩ := Prod.mk.inj hsummary
  refine ⟨t, run_of_replay (fun _ _ _ h => h) ht, fun p hp => ?_, fun h => ?_⟩
  · have hmem : p.2.ended ∈ [true, true] := hended ▸ List.mem_map_of_mem hp
    simpa using hmem
  · have hmem : 2 ∈ t.world.outbox.rows.map Row.attempts := by simp [hattempts]
    obtain ⟨r, hr, htwo⟩ := List.mem_map.mp hmem
    have hle := h.attempts r hr
    rw [htwo] at hle
    exact absurd hle (by decide)

/-- Two attempts for each notification. -/
def twoAttempts : NotificationWorker := ⟨2, 30, false, by decide, by decide⟩

theorem meets_act {w : NotificationWorker} {f : Formatters} {s : NotifierState} {n : ℕ}
    {c : OutboxChoice} {i : NotifierCall} {o : OutboxOp} (hnext : s.next n = some (i, o))
    (h : OutboxMeets f s.world c o) : NotifierMeets w f s (.act n c) := fun i' o' hnext' => by
  obtain ⟨-, rfl⟩ := Prod.mk.inj (Option.some.inj (hnext.symm.trans hnext'))
  exact h

/-- A first call claims a heartbeat and sends it, and its lease ends. A second call claims it. -/
def heartbeatTaken : List NotifierLabel :=
  [.env (.enqueue 1 (.obj [("kind", .str "heartbeat")])), .start ⟨"first", 15⟩, .act 0 {}, .act 0 {},
    .env (.tick 15000000), .start ⟨"second", 15⟩, .act 1 {}]

/-- The second call sends it, and settles it before its lease ends. -/
def heartbeatSent : List NotifierLabel := [.act 1 {}, .env (.tick 16000000), .act 1 {}]

theorem formats_heartbeat {r : Row Uuid Json ClaimToken} {lease : Option (Lease ClaimToken)}
    {attempts : ℕ} (hr : r ∈ [(⟨1, .obj [("kind", .str "heartbeat")], attempts, none, lease, none, none⟩ :
      Row Uuid Json ClaimToken)]) (payload : JsonObject) (hpayload : r.payload = .obj payload) :
    Formats quietFormatters payload := fun _ => by
  obtain rfl := List.mem_singleton.mp hr
  obtain rfl := Json.obj.inj hpayload
  exact ⟨_, rfl⟩

/-- The settlement of the first call finds its claim lost and changes nothing, and that of the second
one sends the row, with two attempts. -/
theorem heartbeat_delivered : ∃ s t u,
    Run (Guard (notifiers twoAttempts quietFormatters).Step
      (NotifierMeets twoAttempts quietFormatters)) emptyOutbox heartbeatTaken s ∧
    Fences s (.act 0 {}) t ∧ (own 0 t.trace).map ownedBy = [none, none, some false] ∧
    Run (Guard (notifiers twoAttempts quietFormatters).Step
      (NotifierMeets twoAttempts quietFormatters)) emptyOutbox
      (heartbeatTaken ++ .act 0 {} :: heartbeatSent) u ∧
    NotifierDelivers twoAttempts u ∧
    u.world.outbox.rows.map (fun r => (r.attempts, r.settled)) = [(2, some (.sent 16000000))] := by
  have htaken : ∃ s t u, Run (Guard (notifiers twoAttempts quietFormatters).Step
      (NotifierMeets twoAttempts quietFormatters)) emptyOutbox heartbeatTaken s ∧
      Guard (notifiers twoAttempts quietFormatters).Step
        (NotifierMeets twoAttempts quietFormatters) s (.act 0 {}) t ∧
      (own 0 t.trace).map ownedBy = [none, none, some false] ∧
      Run (Guard (notifiers twoAttempts quietFormatters).Step
        (NotifierMeets twoAttempts quietFormatters)) t heartbeatSent u ∧
      u.world.outbox.rows.map (fun r => (r.attempts, r.settled)) = [(2, some (.sent 16000000))] := by
    refine ⟨_, _, _, Run.cons ⟨?_, rfl⟩ (Run.cons ⟨?_, rfl⟩ (Run.cons ⟨meets_act rfl ⟨?_, ?_⟩, rfl⟩
      (Run.cons ⟨meets_act rfl ?_, rfl⟩ (Run.cons ⟨?_, rfl⟩ (Run.cons ⟨?_, rfl⟩
        (Run.cons ⟨meets_act rfl ⟨?_, ?_⟩, rfl⟩ (Run.nil _))))))), ⟨meets_act rfl ?_, rfl⟩, ?_,
      Run.cons ⟨meets_act rfl ?_, rfl⟩ (Run.cons ⟨?_, rfl⟩ (Run.cons ⟨meets_act rfl ?_, rfl⟩
        (Run.nil _))), ?_⟩
    · trivial
    · trivial
    · decide
    · exact fun r hr => formats_heartbeat hr
    · exact Option.some_ne_none _
    · -- the first attempt is not the last one
      intro r hr _ lease _ hmany
      obtain rfl := List.mem_singleton.mp (Table.mem_iff.mp hr)
      exact absurd hmany (by decide)
    · trivial
    · decide
    · exact fun r hr => formats_heartbeat hr
    · rfl
    · rfl
    · exact Option.some_ne_none _
    · intro r hr _ lease hlease _
      obtain rfl := List.mem_singleton.mp (Table.mem_iff.mp hr)
      obtain rfl := Option.some.inj hlease
      decide
    · rfl
    · rfl
  obtain ⟨s, t, u, hs, hstep, hlost, hu, hrows⟩ := htaken
  have hrun := hs.append (Run.cons hstep hu)
  obtain ⟨-, hfences, hdelivers⟩ := notifiers_deliver twoAttempts quietFormatters
  exact ⟨s, t, u, hs, hfences _ s hs.of_guard _ t hstep.2, hlost, hrun, hdelivers _ u hrun, hrows⟩

end FattyTrader
