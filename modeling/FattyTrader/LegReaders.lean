import FattyTrader.Runs
import FattyTrader.Ledger

/-!
# The readers of the two legs

Each leg of the private stream has a reader that queues the events it accepts, and a marker when it
fails. `receive_once` drains both queues, waits for the next event when there is none, and raises the
first marker once it has nothing to return. Its calls may overlap, time out or be cancelled.

A trace records what is queued, what fails, and what a call answers. Every leg's events are returned
in the order they were queued in, none twice. A call that looks at the queues returns all that is in
them, and when a call raises nothing that was queued before the first marker is left
(`legs_delivered`).
-/

set_option linter.unusedSectionVars false

namespace FattyTrader

open Runs

/-! ## Events -/

/-- `BitgetWebSocketEvent`. A mark price that is not finite is none, as a missing one. -/
structure WebSocketEvent where
  kind : String
  symbol : String
  eventTimeMs : ℤ
  markPrice : Option ℚ
deriving DecidableEq

/-- `fresh_mark`. -/
def freshMark (event : WebSocketEvent) (wallTime maxAge : ℚ) (previousMs : Option ℤ) : Bool :=
  if event.eventTimeMs ≤ 0 ∨ wallTime * 1000 < event.eventTimeMs then false
  else
    let age := wallTime - event.eventTimeMs / 1000
    decide (0 ≤ age ∧ age ≤ maxAge) && previousMs.all (· < event.eventTimeMs) &&
      event.markPrice.any (0 < ·)

inductive SocketLeg
  | publicLeg
  | privateLeg
deriving DecidableEq

/-- A queued event. The leg is a tag of the model, the code does not read it. -/
structure LegEvent where
  leg : SocketLeg
  event : WebSocketEvent
deriving DecidableEq

/-- `_LegError`. -/
structure LegError where
  leg : SocketLeg
  error : String
deriving DecidableEq

inductive QueueItem
  | batch (events : List LegEvent)
  | marker (error : LegError)
deriving DecidableEq

inductive V2ConnectionState
  | connected
  | reconnecting
deriving DecidableEq

/-- The part of `BitgetV2WebSocket` its readers and `receive_once` share. A call that waits is named
by a number. -/
structure Socket where
  queues : SocketLeg → List QueueItem
  reading : SocketLeg → Bool
  readerError : Option LegError
  pendingError : Option LegError
  state : V2ConnectionState
  lastMarkEventMs : String → Option ℤ
  anyEvent : Bool
  waiting : List ℕ

inductive SocketLabel
  /-- a frame, with the wall time read for each of its events, or what `recv` or the frame raised -/
  | frame (leg : SocketLeg) (frame : Except String (List (WebSocketEvent × ℚ)))
  | pong (leg : SocketLeg)
  | start (call : ℕ)
  | wake (call : ℕ)
  /-- a timeout, a failed heartbeat or a cancellation -/
  | leave (call : ℕ)

/-- What a step shows. -/
inductive SocketEntry
  | queued (leg : SocketLeg) (events : List LegEvent)
  | failed (error : LegError)
  | returned (events : List LegEvent)
  | raised (error : LegError)
deriving DecidableEq

/-! ## The readers -/

/-- The events a reader accepts, and the time of the last mark of each symbol. -/
def acceptEvents (leg : SocketLeg) (staleAfter : ℚ) :
    (String → Option ℤ) → List (WebSocketEvent × ℚ) → List LegEvent × (String → Option ℤ)
  | last, [] => ([], last)
  | last, (event, wallTime) :: events =>
    if event.kind = "mark_price" then
      if leg = .publicLeg ∧ freshMark event wallTime staleAfter (last event.symbol) then
        let rest := acceptEvents leg staleAfter
          (Function.update last event.symbol (some event.eventTimeMs)) events
        (⟨leg, event⟩ :: rest.1, rest.2)
      else acceptEvents leg staleAfter last events
    else
      let rest := acceptEvents leg staleAfter last events
      (⟨leg, event⟩ :: rest.1, rest.2)

namespace Socket

/-- The link after `_start_readers`. -/
def connected : Socket where
  queues _ := []
  reading _ := true
  readerError := none
  pendingError := none
  state := .connected
  lastMarkEventMs _ := none
  anyEvent := false
  waiting := []

def put (s : Socket) (leg : SocketLeg) (item : QueueItem) : Socket :=
  { s with queues := Function.update s.queues leg (s.queues leg ++ [item]), anyEvent := true }

/-- `_record_reader_error`. -/
def recordReaderError (s : Socket) (error : LegError) : Socket :=
  { s with readerError := s.readerError.or (some error), state := .reconnecting }

/-- `_reader_loop`, for one frame. -/
def read (staleAfter : ℚ) (s : Socket) (leg : SocketLeg) :
    Except String (List (WebSocketEvent × ℚ)) → Socket × Option SocketEntry
  | .error error =>
    ({ (s.recordReaderError ⟨leg, error⟩).put leg (.marker ⟨leg, error⟩) with
        reading := Function.update s.reading leg false }, some (.failed ⟨leg, error⟩))
  | .ok events =>
    let accepted := acceptEvents leg staleAfter s.lastMarkEventMs events
    let s := { s with lastMarkEventMs := accepted.2 }
    if accepted.1 = [] then (s, none)
    else
      let state := if s.state = .reconnecting ∧ s.readerError = none then .connected else s.state
      ({ s with state }.put leg (.batch accepted.1), some (.queued leg accepted.1))

/-! ## The calls -/

/-- The loop of `_drain_ready` over the items of a queue. -/
def drainItems : List QueueItem → Socket → Socket × List LegEvent
  | [], s => (s, [])
  | .marker error :: items, s =>
    drainItems items
      { s.recordReaderError error with pendingError := s.pendingError.or (some error) }
  | .batch events :: items, s =>
    let rest := drainItems items s
    (rest.1, events ++ rest.2)

def drainLeg (s : Socket) (leg : SocketLeg) : Socket × List LegEvent :=
  drainItems (s.queues leg) { s with queues := Function.update s.queues leg [] }

/-- `_drain_ready`. -/
def drainReady (s : Socket) : Socket × Except LegError (List LegEvent) :=
  match s.pendingError with
  | some error => (s, .error error)
  | none =>
    let publicDrain := s.drainLeg .publicLeg
    let privateDrain := publicDrain.1.drainLeg .privateLeg
    match publicDrain.2 ++ privateDrain.2, privateDrain.1.pendingError with
    | [], some error => (privateDrain.1, .error error)
    | events, _ => (privateDrain.1, .ok events)

def answer : Except LegError (List LegEvent) → SocketEntry
  | .ok events => .returned events
  | .error error => .raised error

/-- One step of the link, and what it shows. -/
def step (staleAfter : ℚ) (s : Socket) : SocketLabel → Socket × Option SocketEntry
  | .frame leg frame => if s.reading leg then s.read staleAfter leg frame else (s, none)
  | .pong leg => if s.reading leg then ({ s with anyEvent := true }, none) else (s, none)
  | .start call =>
    if call ∈ s.waiting then (s, none)
    else
      let drained := { s with anyEvent := false }.drainReady
      if drained.2 = .ok [] then ({ drained.1 with waiting := call :: drained.1.waiting }, none)
      else (drained.1, some (answer drained.2))
  | .wake call =>
    if call ∈ s.waiting ∧ s.anyEvent then
      let drained := { s with waiting := s.waiting.erase call }.drainReady
      (drained.1, some (answer drained.2))
    else (s, none)
  | .leave call => ({ s with waiting := s.waiting.erase call }, none)

def next (staleAfter : ℚ) (s : Socket) (label : SocketLabel) : Socket := (s.step staleAfter label).1

/-- What the steps of a run show. -/
def trace (staleAfter : ℚ) (past : List (Socket × SocketLabel)) : List SocketEntry :=
  past.filterMap fun p => (p.1.step staleAfter p.2).2

end Socket

/-- The events queued on a leg. -/
def accepted (leg : SocketLeg) (entries : List SocketEntry) : List LegEvent :=
  entries.flatMap fun
    | .queued l events => if l = leg then events else []
    | _ => []

/-- The events of a leg the calls return. -/
def delivered (leg : SocketLeg) (entries : List SocketEntry) : List LegEvent :=
  entries.flatMap fun
    | .returned events => events.filter fun event => event.leg = leg
    | _ => []

/-- What comes before the first marker. -/
def beforeError (entries : List SocketEntry) : List SocketEntry :=
  entries.takeWhile fun
    | .failed _ => false
    | _ => true

/-- The events of the batches of a queue. -/
def queuedEvents (items : List QueueItem) : List LegEvent :=
  items.flatMap fun
    | .batch events => events
    | .marker _ => []

/-! ## What one step does -/

section Steps

variable {staleAfter : ℚ} {s : Socket} {leg : SocketLeg} {entries entries' : List SocketEntry}
  {entry : SocketEntry}

theorem mem_acceptEvents {last : String → Option ℤ} {events : List (WebSocketEvent × ℚ)} :
    ∀ event ∈ (acceptEvents leg staleAfter last events).1, event.leg = leg := by
  induction events generalizing last with
  | nil => simp [acceptEvents]
  | cons first events ih =>
    obtain ⟨event, wallTime⟩ := first
    simp only [acceptEvents]
    split
    · split
      · exact List.forall_mem_cons.mpr ⟨rfl, ih⟩
      · exact ih
    · exact List.forall_mem_cons.mpr ⟨rfl, ih⟩

namespace Socket

theorem drainItems_spec (items : List QueueItem) (s : Socket) :
    (drainItems items s).2 = queuedEvents items ∧
      (drainItems items s).1.queues = s.queues ∧
      ∀ error ∈ (drainItems items s).1.pendingError,
        error ∈ s.pendingError ∨ .marker error ∈ items := by
  induction items generalizing s with
  | nil => exact ⟨rfl, rfl, fun error h => Or.inl h⟩
  | cons item items ih =>
    cases item with
    | marker first =>
      obtain ⟨hevents, hqueues, hpending⟩ := ih
        { s.recordReaderError first with pendingError := s.pendingError.or (some first) }
      refine ⟨hevents, hqueues, fun error h => ?_⟩
      rcases hpending error h with h | h
      · cases hs : s.pendingError with
        | some other => exact Or.inl (by simpa [hs] using h)
        | none =>
          obtain rfl : first = error := by simpa [hs] using h
          exact Or.inr List.mem_cons_self
      · exact Or.inr (List.mem_cons_of_mem _ h)
    | batch events =>
      obtain ⟨hevents, hqueues, hpending⟩ := ih s
      refine ⟨?_, hqueues, fun error h => ?_⟩
      · simp only [drainItems, hevents, queuedEvents, List.flatMap_cons]
      · exact (hpending error h).imp_right (List.mem_cons_of_mem _)

/-- A drain without a pending error empties both queues and returns their events ; the error it
leaves pending was a marker. -/
theorem drainReady_spec (hpending : s.pendingError = none) :
    (∀ leg, s.drainReady.1.queues leg = []) ∧
      (∀ error ∈ s.drainReady.1.pendingError, ∃ leg, .marker error ∈ s.queues leg) ∧
      ((s.drainReady.2 =
          .ok (queuedEvents (s.queues .publicLeg) ++ queuedEvents (s.queues .privateLeg))) ∨
        (queuedEvents (s.queues .publicLeg) ++ queuedEvents (s.queues .privateLeg) = [] ∧
          ∃ error ∈ s.drainReady.1.pendingError, s.drainReady.2 = .error error)) := by
  obtain ⟨hevents, hqueues, herror⟩ := drainItems_spec (s.queues .publicLeg)
    { s with queues := Function.update s.queues .publicLeg [] }
  have hprivate : (s.drainLeg .publicLeg).1.queues .privateLeg = s.queues .privateLeg := by
    simp only [drainLeg, hqueues]
    rfl
  obtain ⟨hevents', hqueues', herror'⟩ := drainItems_spec
    ((s.drainLeg .publicLeg).1.queues .privateLeg)
    { (s.drainLeg .publicLeg).1 with
      queues := Function.update (s.drainLeg .publicLeg).1.queues .privateLeg [] }
  have hempty : ∀ leg, ((s.drainLeg .publicLeg).1.drainLeg .privateLeg).1.queues leg = [] := by
    intro leg
    rw [drainLeg, hqueues']
    cases leg with
    | publicLeg =>
      simp only [drainLeg, hqueues]
      rfl
    | privateLeg => simp only [Function.update_self]
  have hmarker : ∀ error ∈ ((s.drainLeg .publicLeg).1.drainLeg .privateLeg).1.pendingError,
      ∃ leg, .marker error ∈ s.queues leg := by
    intro error h
    rcases herror' error h with h | h
    · rcases herror error h with h | h
      · rw [hpending] at h
        cases h
      · exact ⟨.publicLeg, h⟩
    · exact ⟨.privateLeg, hprivate ▸ h⟩
  have hsum : (s.drainLeg .publicLeg).2 ++ ((s.drainLeg .publicLeg).1.drainLeg .privateLeg).2 =
      queuedEvents (s.queues .publicLeg) ++ queuedEvents (s.queues .privateLeg) := by
    have hfirst : (s.drainLeg .publicLeg).2 = queuedEvents (s.queues .publicLeg) := hevents
    have hsecond : ((s.drainLeg .publicLeg).1.drainLeg .privateLeg).2 =
        queuedEvents (s.queues .privateLeg) := hprivate ▸ hevents'
    rw [hfirst, hsecond]
  unfold drainReady
  rw [hpending]
  dsimp only
  rw [← hsum]
  split
  next error hnone herr =>
    exact ⟨hempty, hmarker, Or.inr ⟨hnone, error, herr, rfl⟩⟩
  · exact ⟨hempty, hmarker, Or.inl rfl⟩

/-- What a step does to the queues, the pending error and the flag, and what it shows. -/
inductive Effect (s : Socket) : Socket → Option SocketEntry → Prop
  | quiet (s' : Socket) (hqueues : s'.queues = s.queues) (hpending : s'.pendingError = s.pendingError)
      (hany : s.anyEvent = true → s'.anyEvent = true) : Effect s s' none
  | queue (s' : Socket) (leg : SocketLeg) (events : List LegEvent)
      (hleg : ∀ event ∈ events, event.leg = leg)
      (hqueues : s'.queues = Function.update s.queues leg (s.queues leg ++ [.batch events]))
      (hpending : s'.pendingError = s.pendingError) (hany : s'.anyEvent = true) :
      Effect s s' (some (.queued leg events))
  | fail (s' : Socket) (leg : SocketLeg) (error : LegError)
      (hqueues : s'.queues = Function.update s.queues leg (s.queues leg ++ [.marker error]))
      (hpending : s'.pendingError = s.pendingError) (hany : s'.anyEvent = true) :
      Effect s s' (some (.failed error))
  | refuse (s' : Socket) (error : LegError) (hpending : s.pendingError = some error)
      (hqueues : s'.queues = s.queues) (hsame : s'.pendingError = s.pendingError) :
      Effect s s' (some (.raised error))
  | wait (s' : Socket) (hpending : s.pendingError = none) (hempty : ∀ leg, s'.queues leg = [])
      (hmarker : ∀ error ∈ s'.pendingError, ∃ leg, .marker error ∈ s.queues leg)
      (hnone : ∀ leg, queuedEvents (s.queues leg) = []) : Effect s s' none
  | give (s' : Socket) (hpending : s.pendingError = none) (hempty : ∀ leg, s'.queues leg = [])
      (hmarker : ∀ error ∈ s'.pendingError, ∃ leg, .marker error ∈ s.queues leg) :
      Effect s s' (some (.returned
        (queuedEvents (s.queues .publicLeg) ++ queuedEvents (s.queues .privateLeg))))
  | throw (s' : Socket) (error : LegError) (hpending : s.pendingError = none)
      (hempty : ∀ leg, s'.queues leg = [])
      (hmarker : ∀ error ∈ s'.pendingError, ∃ leg, .marker error ∈ s.queues leg)
      (hnone : ∀ leg, queuedEvents (s.queues leg) = []) (herror : error ∈ s'.pendingError) :
      Effect s s' (some (.raised error))

/-- The answer of a drain, from a state with the same queues and pending error. -/
theorem effect_of_drain {s₀ : Socket} (hqueues : s₀.queues = s.queues)
    (hpending : s₀.pendingError = s.pendingError) :
    Effect s s₀.drainReady.1 (some (answer s₀.drainReady.2)) := by
  cases hp : s.pendingError with
  | some error =>
    have hdrain : s₀.drainReady = (s₀, .error error) := by
      unfold drainReady
      rw [hpending, hp]
    rw [hdrain]
    exact .refuse s₀ error hp hqueues hpending
  | none =>
    obtain ⟨hempty, hmarker, hanswer⟩ := drainReady_spec (hpending.trans hp)
    rw [hqueues] at hmarker hanswer
    rcases hanswer with hok | ⟨hnone, error, herror, hraised⟩
    · rw [hok]
      exact .give _ hp hempty hmarker
    · rw [hraised]
      obtain ⟨hpublic, hprivate⟩ := List.append_eq_nil_iff.mp hnone
      exact .throw _ error hp hempty hmarker (fun leg => by cases leg <;> assumption) herror

theorem step_effect (staleAfter : ℚ) (s : Socket) (label : SocketLabel) :
    Effect s (s.step staleAfter label).1 (s.step staleAfter label).2 := by
  have hstay : Effect s s none := .quiet s rfl rfl id
  cases label with
  | frame leg frame =>
    simp only [step]
    split
    · cases frame with
      | error error => exact .fail _ leg ⟨leg, error⟩ rfl rfl rfl
      | ok events =>
        simp only [read]
        split
        · exact .quiet _ rfl rfl id
        · exact .queue _ leg _ mem_acceptEvents rfl rfl rfl
    · exact hstay
  | pong leg =>
    simp only [step]
    split
    · exact .quiet _ rfl rfl fun _ => rfl
    · exact hstay
  | start call =>
    simp only [step]
    split
    · exact hstay
    · split
      next hok =>
        -- the drain found nothing to return
        obtain hp | ⟨error, hp⟩ := Option.eq_none_or_eq_some s.pendingError
        · obtain ⟨hempty, hmarker, hanswer⟩ :=
            drainReady_spec (s := { s with anyEvent := false }) hp
          refine .wait _ hp hempty hmarker ?_
          rcases hanswer with hanswer | ⟨-, error, -, hraised⟩
          · rw [hok] at hanswer
            obtain ⟨hpublic, hprivate⟩ := List.append_eq_nil_iff.mp (Except.ok.inj hanswer).symm
            intro leg
            cases leg <;> assumption
          · rw [hraised] at hok
            cases hok
        · have hdrain : ({ s with anyEvent := false } : Socket).drainReady.2 = .error error := by
            unfold drainReady
            rw [hp]
          rw [hdrain] at hok
          cases hok
      · exact effect_of_drain rfl rfl
  | wake call =>
    simp only [step]
    split
    · exact effect_of_drain rfl rfl
    · exact hstay
  | leave call => exact .quiet _ rfl rfl id

end Socket

end Steps

/-! ## What a run shows -/

section Runs

variable {staleAfter : ℚ} {s s' : Socket} {leg : SocketLeg} {entries entries' : List SocketEntry}
  {entry : SocketEntry}

theorem accepted_append :
    accepted leg (entries ++ entries') = accepted leg entries ++ accepted leg entries' :=
  List.flatMap_append

theorem delivered_append :
    delivered leg (entries ++ entries') = delivered leg entries ++ delivered leg entries' :=
  List.flatMap_append

theorem queuedEvents_append {items items' : List QueueItem} :
    queuedEvents (items ++ items') = queuedEvents items ++ queuedEvents items' :=
  List.flatMap_append

theorem accepted_beforeError : accepted leg (beforeError entries) <+: accepted leg entries := by
  obtain ⟨rest, hrest⟩ : beforeError entries <+: entries := List.takeWhile_prefix _
  exact ⟨accepted leg rest, by rw [← accepted_append, hrest]⟩

/-- What follows a marker is not before the first one. -/
theorem beforeError_append {error : LegError} (h : .failed error ∈ entries) :
    beforeError (entries ++ entries') = beforeError entries := by
  induction entries with
  | nil => cases h
  | cons first entries ih =>
    rcases List.mem_cons.mp h with rfl | h
    · rfl
    · have htail := ih h
      cases first with
      | failed other => rfl
      | queued leg events => exact congrArg (List.cons _) htail
      | returned events => exact congrArg (List.cons _) htail
      | raised other => exact congrArg (List.cons _) htail

/-- What the trace says of the state : on each leg the accepted events are the returned ones and
those still queued, an error is pending only once everything before the first marker is returned,
and an answer leaves none of it. -/
structure SocketRecord (s : Socket) (entries : List SocketEntry) : Prop where
  conserved : ∀ leg, accepted leg entries = delivered leg entries ++ queuedEvents (s.queues leg)
  tagged : ∀ leg, ∀ event ∈ queuedEvents (s.queues leg), event.leg = leg
  marked : ∀ leg error, .marker error ∈ s.queues leg → .failed error ∈ entries
  pending : ∀ error ∈ s.pendingError, .failed error ∈ entries ∧
    ∀ leg, accepted leg (beforeError entries) <+: delivered leg entries
  wakes : s.pendingError = none → ∀ leg, s.queues leg ≠ [] → s.anyEvent = true
  returned : ∀ before events after, entries = before ++ .returned events :: after →
    ∀ leg, accepted leg (beforeError before) <+: delivered leg (before ++ [.returned events])
  raised : ∀ before error after, entries = before ++ .raised error :: after →
    .failed error ∈ before ∧ ∀ leg, accepted leg (beforeError before) <+: delivered leg before

theorem socketRecord_connected : SocketRecord Socket.connected [] where
  conserved _ := rfl
  tagged _ _ h := by cases h
  marked _ _ h := by cases h
  pending _ h := by cases h
  wakes _ _ h := absurd rfl h
  returned before _ _ h := by cases before <;> cases h
  raised before _ _ h := by cases before <;> cases h

namespace SocketRecord

/-- A marker shown, all that is accepted before the first one has been accepted. -/
theorem prefix_snoc {error : LegError} (hfailed : .failed error ∈ entries)
    (h : ∀ leg, accepted leg (beforeError entries) <+: delivered leg entries) :
    .failed error ∈ entries ++ [entry] ∧
      ∀ leg, accepted leg (beforeError (entries ++ [entry])) <+: delivered leg (entries ++ [entry]) := by
  refine ⟨List.mem_append_left _ hfailed, fun leg => ?_⟩
  rw [beforeError_append hfailed, delivered_append]
  exact (h leg).trans (List.prefix_append _ _)

/-- The answers of a longer trace. -/
theorem answers_snoc (hrec : SocketRecord s entries) (entry : SocketEntry)
    (hreturned : ∀ events, entry = .returned events → ∀ leg,
      accepted leg (beforeError entries) <+: delivered leg (entries ++ [entry]))
    (hraised : ∀ error, entry = .raised error → .failed error ∈ entries ∧
      ∀ leg, accepted leg (beforeError entries) <+: delivered leg entries) :
    (∀ before events after, entries ++ [entry] = before ++ .returned events :: after →
      ∀ leg, accepted leg (beforeError before) <+: delivered leg (before ++ [.returned events])) ∧
    ∀ before error after, entries ++ [entry] = before ++ .raised error :: after →
      .failed error ∈ before ∧ ∀ leg, accepted leg (beforeError before) <+: delivered leg before := by
  constructor
  · intro before events after h leg
    rcases split_snoc h with ⟨rfl, hlast, -⟩ | ⟨rest, -, hentries⟩
    · rw [hlast]
      exact hreturned events hlast.symm leg
    · exact hrec.returned before events rest hentries leg
  · intro before error after h
    rcases split_snoc h with ⟨rfl, hlast, -⟩ | ⟨rest, -, hentries⟩
    · exact hraised error hlast.symm
    · exact hrec.raised before error rest hentries

/-- An item at the end of a queue, shown as it is queued. -/
theorem queue (hrec : SocketRecord s entries) {item : QueueItem}
    (hqueues : s'.queues = Function.update s.queues leg (s.queues leg ++ [item]))
    (hpending : s'.pendingError = s.pendingError) (hany : s'.anyEvent = true)
    (haccepted : ∀ l, accepted l [entry] = if l = leg then queuedEvents [item] else [])
    (hdelivered : ∀ l, delivered l [entry] = [])
    (htagged : ∀ event ∈ queuedEvents [item], event.leg = leg)
    (hmarked : ∀ error, item = .marker error → entry = .failed error)
    (hreturned : ∀ events, entry ≠ .returned events) (hraised : ∀ error, entry ≠ .raised error) :
    SocketRecord s' (entries ++ [entry]) := by
  have hqueue : ∀ l, s'.queues l = if l = leg then s.queues leg ++ [item] else s.queues l := by
    intro l
    rw [hqueues, Function.update_apply]
  obtain ⟨hret, hrai⟩ := hrec.answers_snoc entry (fun events h => absurd h (hreturned events))
    fun error h => absurd h (hraised error)
  refine ⟨fun l => ?_, fun l => ?_, fun l error h => ?_, fun error h => ?_, fun _ _ _ => hany, hret,
    hrai⟩
  · rw [accepted_append, delivered_append, hrec.conserved l, haccepted, hdelivered, hqueue]
    by_cases hl : l = leg
    · rw [if_pos hl, if_pos hl, queuedEvents_append, hl, List.append_nil, List.append_assoc]
    · rw [if_neg hl, if_neg hl, List.append_nil, List.append_nil]
  · rw [hqueue]
    by_cases hl : l = leg
    · rw [if_pos hl, queuedEvents_append, hl]
      exact List.forall_mem_append.mpr ⟨hrec.tagged leg, htagged⟩
    · rw [if_neg hl]
      exact hrec.tagged l
  · rw [hqueue] at h
    by_cases hl : l = leg
    · rw [if_pos hl] at h
      rcases List.mem_append.mp h with h | h
      · exact List.mem_append_left _ (hrec.marked leg error h)
      · rw [hmarked error (List.mem_singleton.mp h).symm]
        exact List.mem_append_right _ (List.mem_singleton_self _)
    · rw [if_neg hl] at h
      exact List.mem_append_left _ (hrec.marked l error h)
  · rw [hpending] at h
    obtain ⟨hfailed, hprefix⟩ := hrec.pending error h
    exact prefix_snoc hfailed hprefix

/-- One step keeps the record, with what it shows. -/
theorem step (hrec : SocketRecord s entries) {shown : Option SocketEntry}
    (h : Socket.Effect s s' shown) : SocketRecord s' (entries ++ shown.toList) := by
  cases h with
  | quiet hqueues hpending hany =>
    rw [Option.toList_none, List.append_nil]
    refine ⟨?_, ?_, ?_, ?_, fun hnone leg hne => hany (hrec.wakes ?_ leg ?_), hrec.returned,
      hrec.raised⟩
    · rw [hqueues]
      exact hrec.conserved
    · rw [hqueues]
      exact hrec.tagged
    · rw [hqueues]
      exact hrec.marked
    · rw [hpending]
      exact hrec.pending
    · rwa [hpending] at hnone
    · rwa [hqueues] at hne
  | queue leg events hleg hqueues hpending hany =>
    refine hrec.queue hqueues hpending hany (fun l => ?_) (fun _ => rfl) ?_ (by simp) (by simp)
      (by simp)
    · simp [accepted, queuedEvents, eq_comm]
    · simpa [queuedEvents] using hleg
  | fail leg error hqueues hpending hany =>
    refine hrec.queue hqueues hpending hany (fun l => ?_) (fun _ => rfl) (by simp [queuedEvents])
      (by simp) (by simp) (by simp)
    simp [accepted, queuedEvents]
  | refuse error hpending hqueues hsame =>
    obtain ⟨hfailed, hprefix⟩ := hrec.pending error hpending
    obtain ⟨hret, hrai⟩ := hrec.answers_snoc (.raised error) (by simp) fun other h => by
      obtain rfl := SocketEntry.raised.inj h
      exact ⟨hfailed, hprefix⟩
    refine ⟨fun leg => ?_, ?_, fun leg other h => ?_, fun other h => ?_, fun hnone => ?_, hret, hrai⟩
    · rw [Option.toList_some, accepted_append, delivered_append, hqueues, hrec.conserved leg]
      simp [accepted, delivered]
    · rw [hqueues]
      exact hrec.tagged
    · rw [hqueues] at h
      exact List.mem_append_left _ (hrec.marked leg other h)
    · rw [hsame] at h
      obtain ⟨hfailed, hprefix⟩ := hrec.pending other h
      exact prefix_snoc hfailed hprefix
    · rw [hsame, hpending] at hnone
      cases hnone
  | wait hpending hempty hmarker hnone =>
    have hall : ∀ leg, accepted leg entries = delivered leg entries := fun leg => by
      rw [hrec.conserved leg, hnone leg, List.append_nil]
    rw [Option.toList_none, List.append_nil]
    refine ⟨fun leg => ?_, fun leg => ?_, fun leg error h => ?_, fun error h => ?_,
      fun _ leg hne => absurd (hempty leg) hne, hrec.returned, hrec.raised⟩
    · rw [hempty leg, hall leg]
      exact (List.append_nil _).symm
    · rw [hempty leg]
      exact fun _ h => by cases h
    · rw [hempty leg] at h
      cases h
    · obtain ⟨leg, hmem⟩ := hmarker error h
      exact ⟨hrec.marked leg error hmem, fun leg => hall leg ▸ accepted_beforeError⟩
  | give hpending hempty hmarker =>
    have hfilter : ∀ leg, (queuedEvents (s.queues .publicLeg) ++
        queuedEvents (s.queues .privateLeg)).filter (fun event => event.leg = leg) =
          queuedEvents (s.queues leg) := by
      intro leg
      rw [List.filter_append]
      have hsame : ∀ l, (queuedEvents (s.queues l)).filter (fun event => event.leg = leg) =
          if l = leg then queuedEvents (s.queues l) else [] := by
        intro l
        by_cases hl : l = leg
        · rw [if_pos hl]
          exact List.filter_eq_self.mpr fun event h => by simpa [hl] using hrec.tagged l event h
        · rw [if_neg hl]
          refine List.filter_eq_nil_iff.mpr fun event h => ?_
          rw [hrec.tagged l event h]
          simpa using hl
      rw [hsame, hsame]
      cases leg <;> simp
    have hall : ∀ leg, delivered leg (entries ++ [.returned (queuedEvents (s.queues .publicLeg) ++
        queuedEvents (s.queues .privateLeg))]) = accepted leg entries := by
      intro leg
      rw [delivered_append, hrec.conserved leg]
      simp [delivered, hfilter]
    obtain ⟨hret, hrai⟩ := hrec.answers_snoc
      (.returned (queuedEvents (s.queues .publicLeg) ++ queuedEvents (s.queues .privateLeg)))
      (fun _ _ leg => hall leg ▸ accepted_beforeError) (by simp)
    refine ⟨fun leg => ?_, fun leg => ?_, fun leg error h => ?_, fun error h => ?_,
      fun _ leg hne => absurd (hempty leg) hne, hret, hrai⟩
    · rw [Option.toList_some, hall leg, hempty leg, accepted_append]
      simp [accepted, queuedEvents]
    · rw [hempty leg]
      exact fun _ h => by cases h
    · rw [hempty leg] at h
      cases h
    · obtain ⟨leg, hmem⟩ := hmarker error h
      have hfailed := hrec.marked leg error hmem
      refine ⟨List.mem_append_left _ hfailed, fun leg => ?_⟩
      rw [Option.toList_some, beforeError_append hfailed, hall leg]
      exact accepted_beforeError
  | throw error hpending hempty hmarker hnone herror =>
    have hall : ∀ leg, accepted leg entries = delivered leg entries := fun leg => by
      rw [hrec.conserved leg, hnone leg, List.append_nil]
    have hfailed : ∀ other ∈ s'.pendingError, .failed other ∈ entries := fun other h => by
      obtain ⟨leg, hmem⟩ := hmarker other h
      exact hrec.marked leg other hmem
    have hprefix : ∀ leg, accepted leg (beforeError entries) <+: delivered leg entries :=
      fun leg => hall leg ▸ accepted_beforeError
    obtain ⟨hret, hrai⟩ := hrec.answers_snoc (.raised error) (by simp) fun other h => by
      obtain rfl := SocketEntry.raised.inj h
      exact ⟨hfailed _ herror, hprefix⟩
    refine ⟨fun leg => ?_, fun leg => ?_, fun leg error h => ?_, fun other h => ?_,
      fun _ leg hne => absurd (hempty leg) hne, hret, hrai⟩
    · rw [Option.toList_some, hempty leg, accepted_append, delivered_append, hall leg]
      simp [accepted, delivered, queuedEvents]
    · rw [hempty leg]
      exact fun _ h => by cases h
    · rw [hempty leg] at h
      cases h
    · exact prefix_snoc (hfailed other h) hprefix

end SocketRecord

/-- The record after any steps. -/
theorem socketRecord_trace (staleAfter : ℚ) (labels : List SocketLabel) :
    SocketRecord (exec (Socket.next staleAfter) Socket.connected labels)
      (Socket.trace staleAfter (visits (Socket.next staleAfter) Socket.connected labels)) := by
  have hrun := @visits_history _ _ Socket.connected labels (Socket.next staleAfter)
    (fun s past => SocketRecord s (Socket.trace staleAfter past)) (fun s label past hrec => ?_) []
    socketRecord_connected
  · exact hrun
  · have hsnoc : Socket.trace staleAfter (past ++ [(s, label)]) =
        Socket.trace staleAfter past ++ (s.step staleAfter label).2.toList := by
      simp only [Socket.trace, List.filterMap_append, List.filterMap_cons, List.filterMap_nil]
      cases (s.step staleAfter label).2 <;> rfl
    rw [hsnoc]
    exact hrec.step (Socket.step_effect staleAfter s label)

/-- A step in which a call looks at the queues : it starts, or the flag wakes it. -/
def Socket.Looks (s : Socket) : SocketLabel → Prop
  | .start call => call ∉ s.waiting
  | .wake call => call ∈ s.waiting ∧ s.anyEvent = true
  | _ => False

/-- A look is a drain, and shows its answer unless that is empty. -/
theorem Socket.step_looks {label : SocketLabel} (h : s.Looks label) :
    ∃ s₀ : Socket, s₀.pendingError = s.pendingError ∧
      (s.step staleAfter label).1.queues = s₀.drainReady.1.queues ∧
      ((s.step staleAfter label).2 = none ∨
        (s.step staleAfter label).2 = some (answer s₀.drainReady.2)) := by
  cases label with
  | start call =>
    have hnew : call ∉ s.waiting := h
    refine ⟨{ s with anyEvent := false }, rfl, ?_⟩
    simp only [step, if_neg hnew]
    split
    · exact ⟨rfl, Or.inl rfl⟩
    · exact ⟨rfl, Or.inr rfl⟩
  | wake call =>
    refine ⟨{ s with waiting := s.waiting.erase call }, rfl, ?_⟩
    have hwoken : call ∈ s.waiting ∧ s.anyEvent = true := h
    rw [step, if_pos hwoken]
    exact ⟨rfl, Or.inr rfl⟩
  | frame leg frame => cases h
  | pong leg => cases h
  | leave call => cases h

/-- While no error is pending, a look leaves nothing that was accepted undelivered. -/
theorem SocketRecord.looks (hrec : SocketRecord s entries) {label : SocketLabel}
    (h : s.Looks label) (hpending : s.pendingError = none) (leg : SocketLeg) :
    delivered leg (entries ++ (s.step staleAfter label).2.toList) = accepted leg entries := by
  obtain ⟨s₀, hpending₀, hqueues, hshown⟩ := @Socket.step_looks staleAfter s label h
  have hempty : (s.step staleAfter label).1.queues leg = [] := by
    rw [hqueues]
    exact (Socket.drainReady_spec (hpending₀.trans hpending)).1 leg
  have hnew : accepted leg (s.step staleAfter label).2.toList = [] := by
    rcases hshown with hnone | hsome
    · rw [hnone]
      rfl
    · rw [hsome]
      cases s₀.drainReady.2 <;> rfl
  have hconserved := (hrec.step (Socket.step_effect staleAfter s label)).conserved leg
  rw [hempty, accepted_append, hnew, List.append_nil] at hconserved
  simpa [queuedEvents] using hconserved.symm

/-- What the calls do with what the legs accept. -/
structure LegsDelivered (staleAfter : ℚ) (s : Socket) (entries : List SocketEntry) : Prop where
  /-- a leg's events are returned in their order, none twice -/
  once : ∀ leg, delivered leg entries <+: accepted leg entries
  returned : ∀ before events after, entries = before ++ .returned events :: after → ∀ leg,
    accepted leg (beforeError before) <+: delivered leg (before ++ [.returned events])
  raised : ∀ before error after, entries = before ++ .raised error :: after →
    .failed error ∈ before ∧ ∀ leg, accepted leg (beforeError entries) <+: delivered leg before
  /-- a call that looks leaves nothing, until an error is pending -/
  looks : ∀ label, s.Looks label → s.pendingError = none → ∀ leg,
    delivered leg (entries ++ (s.step staleAfter label).2.toList) = accepted leg entries
  pending : s.pendingError ≠ none → ∀ leg,
    accepted leg (beforeError entries) <+: delivered leg entries
  /-- a call that waits is woken by what is left -/
  wakes : s.pendingError = none → ∀ leg, delivered leg entries ≠ accepted leg entries →
    s.anyEvent = true

/-- In any order of reads, failures and calls : the events of a leg are returned in the order they
were accepted in, none twice. A call that starts, or is woken, returns all that was accepted, until
an error is pending ; by then all that was accepted before the first marker is returned, and before
a call raises. What a call raises is a marker of a leg. -/
theorem legs_delivered (staleAfter : ℚ) (labels : List SocketLabel) :
    LegsDelivered staleAfter (exec (Socket.next staleAfter) Socket.connected labels)
      (Socket.trace staleAfter (visits (Socket.next staleAfter) Socket.connected labels)) := by
  have hrec := socketRecord_trace staleAfter labels
  refine ⟨fun leg => ?_, hrec.returned, fun before error after h => ?_,
    fun label hlooks hpending leg => hrec.looks hlooks hpending leg, fun hpending => ?_,
    fun hpending leg hleft => hrec.wakes hpending leg fun hempty => hleft ?_⟩
  · rw [hrec.conserved leg]
    exact List.prefix_append _ _
  · obtain ⟨hfailed, hprefix⟩ := hrec.raised before error after h
    exact ⟨hfailed, by rwa [h, beforeError_append hfailed]⟩
  · obtain ⟨error, herror⟩ := Option.ne_none_iff_exists'.mp hpending
    exact (hrec.pending error herror).2
  · rw [hrec.conserved leg, hempty]
    exact (List.append_nil _).symm

/-! ## A leg that fails -/

def orderEvent : LegEvent := ⟨.privateLeg, ⟨"order", "BTCUSDT", 1, none⟩⟩

def publicClosed : LegError := ⟨.publicLeg, "closed"⟩

/-- A call waits while one leg queues an event and the other fails. It returns the event, and the
next call raises. -/
def readThenFailed : List SocketLabel :=
  [.start 0, .frame .privateLeg (.ok [(orderEvent.event, 0)]),
    .frame .publicLeg (.error publicClosed.error), .wake 0, .start 1]

theorem readThenFailed_delivered :
    let entries := Socket.trace 5 (visits (Socket.next 5) Socket.connected readThenFailed)
    entries = [.queued .privateLeg [orderEvent], .failed publicClosed, .returned [orderEvent],
        .raised publicClosed] ∧
      LegsDelivered 5 (exec (Socket.next 5) Socket.connected readThenFailed) entries :=
  ⟨by decide +kernel, legs_delivered 5 readThenFailed⟩

end Runs

end FattyTrader
