import FattyTrader.LegReaders
import Mathlib.Data.NNRat.Defs
import Mathlib.Tactic.Linarith

/-!
# Marks of the current connection

Both clients of the protection stream keep, for each symbol, when its last mark counts as received
and the time the provider gave it. The first is forgotten with each connection and each
unsubscription, the second is not. A mark is accepted with a later provider time only, so the times
of the marks of a symbol increase.

`check_freshness` reports a symbol from what is kept of it. The first client reports nothing unless
it is connected. The second one goes by its legs : between the acknowledged login and the end of
`connect`, both are open and authenticated, and what is kept is still of the connection before. A
symbol reported there has no mark of the current connection (`marks_current_iff`).

The wall clock is the monotonic clock with an offset. Each reading of a clock comes after the one
before it.
-/

set_option linter.unusedSectionVars false
set_option autoImplicit false

namespace FattyTrader.MarkFreshness

open Runs

/-! ## Marks -/

/-- A mark that was accepted, and the connection it was accepted on. -/
structure AcceptedMark where
  symbol : String
  eventTimeMs : ℤ
  connection : ℕ

/-- The marks a client keeps. Of the code are `lastMarkEventAt` and `lastMarkEventMs` ; beside them
stand the monotonic clock, the number of the connection and all marks that were accepted. -/
structure MarkBook where
  clock : ℚ
  connection : ℕ := 0
  lastMarkEventAt : String → Option ℚ := fun _ => none
  lastMarkEventMs : String → Option ℤ := fun _ => none
  log : List AcceptedMark := []

/-- The settings of a client, and how a symbol is written. -/
structure StreamSettings where
  staleAfter : ℚ
  heartbeatInterval : ℚ
  privateSilentAfter : ℚ
  /-- what the wall clock is ahead of the monotonic one -/
  offset : ℚ
  /-- `symbol.strip().upper()` -/
  norm : String → String
  norm_norm : ∀ symbol, norm (norm symbol) = norm symbol

/-- An event of a frame, with the time that passes before each reading of the wall clock. -/
structure ReceivedEvent where
  event : WebSocketEvent
  beforeCheck : ℚ≥0
  beforeStore : ℚ≥0

namespace MarkBook

variable (x : StreamSettings)

def wait (d : ℚ≥0) (b : MarkBook) : MarkBook := { b with clock := b.clock + d }

def wallClock (b : MarkBook) : ℚ := b.clock + x.offset

/-- A mark that is stored, of a frame that was received at `now`. -/
def store (now : ℚ) (b : MarkBook) (event : WebSocketEvent) : MarkBook :=
  { b with
    lastMarkEventMs := Function.update b.lastMarkEventMs event.symbol (some event.eventTimeMs)
    lastMarkEventAt := Function.update b.lastMarkEventAt event.symbol
      (some (now - (b.wallClock x - event.eventTimeMs / 1000)))
    log := b.log ++ [⟨event.symbol, event.eventTimeMs, b.connection⟩] }

/-- One event of a frame, and whether it is accepted. -/
def receive (now : ℚ) (marks : Bool) (b : MarkBook) (e : ReceivedEvent) : MarkBook × Bool :=
  if e.event.kind ≠ "mark_price" then (b, true)
  else if marks = false then (b, false)
  else
    let b := b.wait e.beforeCheck
    if freshMark e.event (b.wallClock x) x.staleAfter (b.lastMarkEventMs e.event.symbol) then
      ((b.wait e.beforeStore).store x now e.event, true)
    else (b, false)

/-- The events of a frame, and whether one is accepted. Marks count where `marks` says so. -/
def receiveAll (now : ℚ) (marks : Bool) : MarkBook → List ReceivedEvent → MarkBook × Bool
  | b, [] => (b, false)
  | b, e :: es =>
    let first := b.receive x now marks e
    let rest := receiveAll now marks first.1 es
    (rest.1, first.2 || rest.2)

/-- `last_mark_event_age`. -/
def lastMarkEventAge (b : MarkBook) (symbol : String) : Option ℚ :=
  (b.lastMarkEventAt (x.norm symbol)).map fun receivedAt => max 0 (b.clock - receivedAt)

/-- The age of the last mark is none too high. -/
def recent (b : MarkBook) (symbol : String) : Bool :=
  (b.lastMarkEventAge x symbol).any (· ≤ x.staleAfter)

/-- The marks a new connection starts with. -/
def forget (b : MarkBook) : MarkBook := { b with lastMarkEventAt := fun _ => none }

/-- The marks of some symbols. -/
def keepOnly (symbols : List String) (b : MarkBook) : MarkBook :=
  { b with lastMarkEventAt := fun symbol =>
      if symbol ∈ symbols then b.lastMarkEventAt symbol else none }

def nextConnection (b : MarkBook) : MarkBook := { b with connection := b.connection + 1 }

end MarkBook

/-- `_normalize_symbols`, none where it raises. -/
def normalizeSymbols (x : StreamSettings) (symbols : List String) : Option (List String) :=
  if symbols.any fun symbol => x.norm symbol = "" then none
  else some (symbols.map x.norm).eraseDups

/-! ## What is kept of the marks -/

/-- The provider times of a symbol increase, and the last one is kept. -/
structure Ordered (b : MarkBook) : Prop where
  increasing : b.log.Pairwise fun m m' => m.symbol = m'.symbol → m.eventTimeMs < m'.eventTimeMs
  latest : ∀ m ∈ b.log, ∃ ms, b.lastMarkEventMs m.symbol = some ms ∧ m.eventTimeMs ≤ ms
  past : ∀ m ∈ b.log, m.connection ≤ b.connection

/-- The mark is the symbol's, of the current connection and not of the future, and counts as received
when the provider says or earlier. -/
structure Stands (x : StreamSettings) (b : MarkBook) (symbol : String) (receivedAt : ℚ)
    (m : AcceptedMark) : Prop where
  mem : m ∈ b.log
  symbol : m.symbol = symbol
  connection : m.connection = b.connection
  received : receivedAt ≤ m.eventTimeMs / 1000 - x.offset
  present : m.eventTimeMs / 1000 ≤ b.wallClock x

/-- Every time of receipt is of a mark of the current connection. -/
def Current (x : StreamSettings) (b : MarkBook) : Prop :=
  ∀ symbol receivedAt, b.lastMarkEventAt symbol = some receivedAt →
    ∃ m, Stands x b symbol receivedAt m

/-- The symbol has a mark of the current connection, whose provider time is no older than allowed. -/
def MarkedNow (x : StreamSettings) (b : MarkBook) (symbol : String) : Prop :=
  ∃ m ∈ b.log, m.symbol = x.norm symbol ∧ m.connection = b.connection ∧
    (m.eventTimeMs : ℚ) / 1000 ≤ b.wallClock x ∧
      b.wallClock x - m.eventTimeMs / 1000 ≤ x.staleAfter

variable {x : StreamSettings} {b : MarkBook} {d : ℚ≥0} {e : ReceivedEvent} {now : ℚ} {marks : Bool}
  {symbol : String}

theorem Ordered.wait (h : Ordered b) : Ordered (b.wait d) := ⟨h.increasing, h.latest, h.past⟩

theorem Current.wait (h : Current x b) : Current x (b.wait d) := by
  intro symbol receivedAt hat
  obtain ⟨m, hm⟩ := h symbol receivedAt hat
  refine ⟨m, hm.mem, hm.symbol, hm.connection, hm.received, hm.present.trans ?_⟩
  have hd : (0 : ℚ) ≤ d := d.coe_nonneg
  simp only [MarkBook.wallClock, MarkBook.wait]
  linarith

theorem Ordered.forget (h : Ordered b) : Ordered b.forget := ⟨h.increasing, h.latest, h.past⟩

theorem current_forget : Current x b.forget := fun _ _ h => by cases h

theorem Ordered.keepOnly {symbols : List String} (h : Ordered b) : Ordered (b.keepOnly symbols) :=
  ⟨h.increasing, h.latest, h.past⟩

theorem Current.keepOnly {symbols : List String} (h : Current x b) :
    Current x (b.keepOnly symbols) := by
  intro symbol receivedAt hat
  simp only [MarkBook.keepOnly] at hat
  split at hat
  · obtain ⟨m, hm⟩ := h symbol receivedAt hat
    exact ⟨m, hm.mem, hm.symbol, hm.connection, hm.received, hm.present⟩
  · cases hat

theorem Ordered.nextConnection (h : Ordered b) : Ordered b.nextConnection :=
  ⟨h.increasing, h.latest, fun m hm => (h.past m hm).trans (Nat.le_succ _)⟩

/-- No mark is of a connection that has just begun. -/
theorem Ordered.fresh_connection (h : Ordered b) :
    ∀ m ∈ b.nextConnection.log, m.connection ≠ b.nextConnection.connection :=
  fun m hm => (Nat.lt_succ_of_le (h.past m hm)).ne

theorem freshMark_spec {event : WebSocketEvent} {wallTime maxAge : ℚ} {previousMs : Option ℤ}
    (h : freshMark event wallTime maxAge previousMs = true) :
    (event.eventTimeMs : ℚ) / 1000 ≤ wallTime ∧ ∀ ms, previousMs = some ms → ms < event.eventTimeMs := by
  unfold freshMark at h
  split at h
  · cases h
  next hbound =>
    simp only [Bool.and_eq_true, decide_eq_true_eq] at h
    obtain ⟨⟨⟨hage, -⟩, hprevious⟩, -⟩ := h
    refine ⟨by linarith, ?_⟩
    rintro ms rfl
    simpa using hprevious

/-- A mark that is stored is later than every mark of its symbol. -/
theorem Ordered.store {event : WebSocketEvent} (h : Ordered b)
    (hlater : ∀ ms, b.lastMarkEventMs event.symbol = some ms → ms < event.eventTimeMs) :
    Ordered (b.store x now event) := by
  refine ⟨?_, ?_, ?_⟩
  · refine List.pairwise_append.mpr ⟨h.increasing, List.pairwise_singleton _ _, ?_⟩
    intro m hm m' hm' hsymbol
    obtain rfl := List.mem_singleton.mp hm'
    obtain ⟨ms, hms, hle⟩ := h.latest m hm
    rw [hsymbol] at hms
    exact hle.trans_lt (hlater ms hms)
  · intro m hm
    by_cases hsymbol : m.symbol = event.symbol
    · refine ⟨event.eventTimeMs, by simp [MarkBook.store, hsymbol], ?_⟩
      rcases List.mem_append.mp hm with hm | hm
      · obtain ⟨ms, hms, hle⟩ := h.latest m hm
        rw [hsymbol] at hms
        exact hle.trans (hlater ms hms).le
      · rw [List.mem_singleton.mp hm]
    · rcases List.mem_append.mp hm with hm | hm
      · obtain ⟨ms, hms, hle⟩ := h.latest m hm
        exact ⟨ms, by simp [MarkBook.store, hsymbol, hms], hle⟩
      · rw [List.mem_singleton.mp hm] at hsymbol
        exact absurd rfl hsymbol
  · intro m hm
    rcases List.mem_append.mp hm with hm | hm
    · exact h.past m hm
    · rw [List.mem_singleton.mp hm]
      exact le_refl _

/-- A mark that is stored is of the current connection, and its age is not understated. -/
theorem Current.store {event : WebSocketEvent} (h : Current x b) (hnow : now ≤ b.clock)
    (hpresent : (event.eventTimeMs : ℚ) / 1000 ≤ b.wallClock x) :
    Current x (b.store x now event) := by
  intro symbol receivedAt hat
  by_cases hsymbol : symbol = event.symbol
  · subst hsymbol
    refine ⟨⟨event.symbol, event.eventTimeMs, b.connection⟩, ?_⟩
    simp only [MarkBook.store, Function.update_self, Option.some.injEq] at hat
    refine ⟨List.mem_append_right _ List.mem_cons_self, rfl, rfl, ?_, hpresent⟩
    rw [← hat]
    simp only [MarkBook.wallClock]
    linarith
  · simp only [MarkBook.store, Function.update_of_ne hsymbol] at hat
    obtain ⟨m, hm⟩ := h symbol receivedAt hat
    exact ⟨m, List.mem_append_left _ hm.mem, hm.symbol, hm.connection, hm.received, hm.present⟩

/-- What an event of a frame leaves of the marks. -/
structure Kept (x : StreamSettings) (now : ℚ) (b b' : MarkBook) : Prop where
  clock : now ≤ b'.clock
  ordered : Ordered b'
  current : Current x b → Current x b'

theorem kept_receive (hnow : now ≤ b.clock) (h : Ordered b) :
    Kept x now b (b.receive x now marks e).1 := by
  have hclock : now ≤ (b.wait e.beforeCheck).clock := by
    have hd : (0 : ℚ) ≤ e.beforeCheck := e.beforeCheck.coe_nonneg
    simp only [MarkBook.wait]
    linarith
  unfold MarkBook.receive
  dsimp only
  split_ifs with hkind hmarks hfresh
  · exact ⟨hnow, h, id⟩
  · exact ⟨hnow, h, id⟩
  · obtain ⟨hpresent, hlater⟩ := freshMark_spec hfresh
    have hd : (0 : ℚ) ≤ e.beforeStore := e.beforeStore.coe_nonneg
    refine ⟨?_, h.wait.wait.store hlater, fun hcurrent => hcurrent.wait.wait.store ?_ ?_⟩
    · simp only [MarkBook.store, MarkBook.wait] at hclock ⊢
      linarith
    · simp only [MarkBook.wait] at hclock ⊢
      linarith
    · simp only [MarkBook.wallClock, MarkBook.wait] at hpresent ⊢
      linarith
  · exact ⟨hclock, h.wait, Current.wait⟩

theorem kept_receiveAll : ∀ {es : List ReceivedEvent} {b : MarkBook}, now ≤ b.clock → Ordered b →
    Kept x now b (b.receiveAll x now marks es).1
  | [], _, hnow, h => ⟨hnow, h, id⟩
  | e :: es, b, hnow, h => by
    have hfirst : Kept x now b (b.receive x now marks e).1 := kept_receive hnow h
    have hrest : Kept x now _ ((b.receive x now marks e).1.receiveAll x now marks es).1 :=
      kept_receiveAll hfirst.clock hfirst.ordered
    exact ⟨hrest.clock, hrest.ordered, fun hcurrent => hrest.current (hfirst.current hcurrent)⟩

/-- A recent mark of the current connection. -/
theorem Current.markedNow (h : Current x b) (hrecent : b.recent x symbol = true) :
    MarkedNow x b symbol := by
  unfold MarkBook.recent MarkBook.lastMarkEventAge at hrecent
  cases hat : b.lastMarkEventAt (x.norm symbol) with
  | none =>
    rw [hat] at hrecent
    cases hrecent
  | some receivedAt =>
    rw [hat] at hrecent
    obtain ⟨m, hm⟩ := h _ _ hat
    have hage : b.clock - receivedAt ≤ x.staleAfter :=
      (le_max_right _ _).trans (of_decide_eq_true hrecent)
    have hreceived := hm.received
    refine ⟨m, hm.mem, hm.symbol, hm.connection, hm.present, ?_⟩
    simp only [MarkBook.wallClock]
    linarith

/-! ## The first client -/

inductive ConnectionState
  | disconnected
  | connecting
  | connected
  | stale
  | reconnecting
  | failed
deriving DecidableEq

/-- The state says the connection is in use. -/
def ConnectionState.inUse : ConnectionState → Bool
  | .connected => true
  | .stale => true
  | _ => false

/-- `BitgetClassicWebSocket`. While `connect` waits, it is `connecting`. -/
structure ClassicSocket where
  connection : Bool := false
  connecting : Bool := false
  state : ConnectionState := .disconnected
  symbols : List String
  lastPongAt : Option ℚ := none
  missedHeartbeatWindows : ℕ := 0
  book : MarkBook

/-- What a client does next. The steps of `connect` are its parts between two waits. One task
connects, receives and closes ; checks and subscriptions come at any time. -/
inductive ClassicLabel
  | connect
  | opened
  | connectFailed
  | connected
  | drop
  | reconnecting
  | closed
  | pong
  | frame (events : List ReceivedEvent)
  | timeout
  | readFailed
  | subscribe (symbols : List String)
  | unsubscribe (symbols : List String)
  | check (symbol : Option String)

namespace ClassicSocket

variable (x : StreamSettings) (s : ClassicSocket)

/-- The socket is authenticated and alive. -/
def alive : Bool :=
  s.connection && s.lastPongAt.any fun pong => s.book.clock - pong ≤ x.heartbeatInterval * 2

/-- `check_freshness`. -/
def checkFreshness (symbol : Option String) : ClassicSocket × Bool :=
  if s.alive x = false then
    ({ s with state := if s.state = .connected then .stale else s.state }, false)
  else match symbol with
    | some symbol =>
      if x.norm symbol ∉ s.symbols then (s, false)
      else (s, s.state = .connected && s.book.recent x (x.norm symbol))
    | none =>
      let fresh := s.state = .connected && s.symbols.all (s.book.recent x)
      ({ s with state := if !fresh && s.state.inUse then .stale else s.state }, fresh)

/-- Receiving needs a connection that is in use. -/
def receiving : Bool := !s.connecting && s.connection && s.state.inUse

/-- A step, at the time its label comes. A label that does not come in this state changes nothing. -/
def act : ClassicLabel → ClassicSocket
  | .connect =>
    if s.connecting then s
    else { s with state := .connecting, connecting := true, book := s.book.nextConnection }
  | .opened => if s.connecting then { s with connection := true } else s
  | .connectFailed =>
    if s.connecting then { s with state := .failed, connection := false, connecting := false } else s
  | .connected =>
    if s.connecting && s.connection then
      { s with
        book := s.book.forget
        lastPongAt := some s.book.clock
        missedHeartbeatWindows := 0
        state := .connected
        connecting := false }
    else s
  | .drop => if s.connecting then s else { s with connection := false }
  | .reconnecting => if s.connecting then s else { s with state := .reconnecting }
  | .closed => if s.connecting then s else { s with state := .disconnected }
  | .pong =>
    if s.receiving then
      { s with lastPongAt := some s.book.clock, missedHeartbeatWindows := 0, state := .connected }
    else s
  | .frame events =>
    if s.receiving then
      { s with book := (s.book.receiveAll x s.book.clock true events).1, state := .connected }
    else s
  | .timeout =>
    if s.receiving then
      { s with
        missedHeartbeatWindows := s.missedHeartbeatWindows + 1
        state := if 2 ≤ s.missedHeartbeatWindows + 1 then .reconnecting else .stale }
    else s
  | .readFailed => if s.receiving then { s with state := .reconnecting } else s
  | .subscribe symbols =>
    match normalizeSymbols x symbols with
    | none => s
    | some symbols => { s with symbols := s.symbols ++ symbols.filter (· ∉ s.symbols) }
  | .unsubscribe symbols =>
    match normalizeSymbols x symbols with
    | none => s
    | some symbols =>
      let kept := s.symbols.filter (· ∉ symbols)
      if kept = s.symbols then s else { s with symbols := kept, book := s.book.keepOnly kept }
  | .check symbol => (s.checkFreshness x symbol).1

/-- Time passes. -/
def wait (d : ℚ≥0) : ClassicSocket := { s with book := s.book.wait d }

def step (s : ClassicSocket) (l : ℚ≥0 × ClassicLabel) : ClassicSocket := (s.wait l.1).act x l.2

/-- A new client. -/
def start (symbols : List String) (clock : ℚ) : ClassicSocket where
  symbols
  book := { clock }

/-- A check that reports a symbol fresh, reports a mark of now. -/
def Truthful (s : ClassicSocket) : ℚ≥0 × ClassicLabel → Prop
  | (d, .check (some symbol)) =>
    ((s.wait d).checkFreshness x (some symbol)).2 = true → MarkedNow x (s.wait d).book symbol
  | _ => True

/-- A connection in use has marks of its own only. -/
structure Inv (s : ClassicSocket) : Prop where
  ordered : Ordered s.book
  current : s.state.inUse = true → s.connecting = false ∧ Current x s.book

variable {x} {s : ClassicSocket}

/-- A check changes nothing but the state of a connection in use. -/
theorem checkFreshness_cases (symbol : Option String) :
    (s.checkFreshness x symbol).1 = s ∨
      s.state.inUse = true ∧ (s.checkFreshness x symbol).1 = { s with state := .stale } := by
  unfold checkFreshness
  split
  · dsimp only
    split
    next hstate => exact Or.inr ⟨by rw [hstate]; rfl, rfl⟩
    · exact Or.inl rfl
  · cases symbol with
    | some symbol =>
      dsimp only
      split <;> exact Or.inl rfl
    | none =>
      dsimp only
      split
      next hstate => exact Or.inr ⟨(Bool.and_eq_true_iff.mp hstate).2, rfl⟩
      · exact Or.inl rfl

theorem Inv.wait {d : ℚ≥0} (h : Inv x s) : Inv x (s.wait d) :=
  ⟨h.ordered.wait, fun hstate => ⟨(h.current hstate).1, (h.current hstate).2.wait⟩⟩

/-- A connection that is received from has marks of its own. -/
theorem Inv.of_receiving (h : Inv x s) (hreceiving : s.receiving = true) :
    s.connecting = false ∧ Current x s.book := by
  simp only [receiving, Bool.and_eq_true] at hreceiving
  exact h.current hreceiving.2

/-- A state that is not in use asks nothing of the marks. -/
theorem Inv.of_idle {s' : ClassicSocket} (h : Ordered s'.book) (hstate : s'.state.inUse = false) :
    Inv x s' :=
  ⟨h, fun hinUse => by rw [hstate] at hinUse; cases hinUse⟩

theorem Inv.act (h : Inv x s) (l : ClassicLabel) : Inv x (s.act x l) := by
  unfold ClassicSocket.act
  cases l with
  | connect =>
    dsimp only
    split
    · exact h
    · exact Inv.of_idle h.ordered.nextConnection rfl
  | opened =>
    dsimp only
    split
    · exact ⟨h.ordered, h.current⟩
    · exact h
  | connectFailed =>
    dsimp only
    split
    · exact Inv.of_idle h.ordered rfl
    · exact h
  | connected =>
    dsimp only
    split
    · exact ⟨h.ordered.forget, fun _ => ⟨rfl, current_forget⟩⟩
    · exact h
  | drop =>
    dsimp only
    split
    · exact h
    · exact ⟨h.ordered, h.current⟩
  | reconnecting =>
    dsimp only
    split
    · exact h
    · exact Inv.of_idle h.ordered rfl
  | closed =>
    dsimp only
    split
    · exact h
    · exact Inv.of_idle h.ordered rfl
  | pong =>
    dsimp only
    split
    next hreceiving => exact ⟨h.ordered, fun _ => h.of_receiving hreceiving⟩
    · exact h
  | frame events =>
    dsimp only
    split
    next hreceiving =>
      obtain ⟨hconnecting, hcurrent⟩ := h.of_receiving hreceiving
      have hkept : Kept x s.book.clock _ (s.book.receiveAll x s.book.clock true events).1 :=
        kept_receiveAll le_rfl h.ordered
      exact ⟨hkept.ordered, fun _ => ⟨hconnecting, hkept.current hcurrent⟩⟩
    · exact h
  | timeout =>
    dsimp only
    split
    next hreceiving => exact ⟨h.ordered, fun _ => h.of_receiving hreceiving⟩
    · exact h
  | readFailed =>
    dsimp only
    split
    · exact Inv.of_idle h.ordered rfl
    · exact h
  | subscribe symbols =>
    dsimp only
    split
    · exact h
    · exact ⟨h.ordered, h.current⟩
  | unsubscribe symbols =>
    dsimp only
    split
    · exact h
    · split
      · exact h
      · exact ⟨h.ordered.keepOnly, fun hstate =>
          ⟨(h.current hstate).1, (h.current hstate).2.keepOnly⟩⟩
  | check symbol =>
    dsimp only
    rcases checkFreshness_cases (x := x) (s := s) symbol with heq | ⟨hinUse, heq⟩
    · rw [heq]
      exact h
    · rw [heq]
      exact ⟨h.ordered, fun _ => h.current hinUse⟩

theorem Inv.step (h : Inv x s) (l : ℚ≥0 × ClassicLabel) : Inv x (s.step x l) := h.wait.act l.2

theorem inv_start (symbols : List String) (clock : ℚ) : Inv x (start symbols clock) :=
  Inv.of_idle ⟨List.Pairwise.nil, nofun, nofun⟩ rfl

/-- What a check of a client in use reports. -/
theorem Inv.truthful (h : Inv x s) (l : ℚ≥0 × ClassicLabel) : Truthful x s l := by
  obtain ⟨d, label⟩ := l
  cases label with
  | check symbol =>
    cases symbol with
    | none => trivial
    | some symbol =>
      intro hfresh
      unfold checkFreshness at hfresh
      split at hfresh
      · cases hfresh
      · dsimp only at hfresh
        split at hfresh
        · cases hfresh
        · simp only [Bool.and_eq_true, decide_eq_true_eq] at hfresh
          obtain ⟨hstate, hrecent⟩ := hfresh
          have hmarked := (h.wait.current (by rw [hstate]; rfl)).2.markedNow hrecent
          rwa [MarkedNow, x.norm_norm] at hmarked
  | _ => trivial

end ClassicSocket

/-! ## The second client -/

/-- Where `connect` waits : for the legs and the login, or for the subscription after it. Where it
failed, the legs are still to be closed. -/
inductive ConnectPhase
  | idle
  | opening
  | subscribing
  | failing
deriving DecidableEq

/-- `BitgetV2WebSocket`. Its readers run where it is `reading`. -/
structure V2Socket where
  publicLeg : Bool := false
  privateLeg : Bool := false
  phase : ConnectPhase := .idle
  state : ConnectionState := .disconnected
  symbols : List String
  privateAuthenticated : Bool := false
  lastPrivateActivityAt : Option ℚ := none
  readerError : Bool := false
  reading : Bool := false
  book : MarkBook

/-- What the second client does next. -/
inductive V2Label
  | connect
  | openedPublic
  | openedPrivate
  | loginAcknowledged
  | connectFailed
  | connected
  | closePublic
  | closePrivate
  | reconnecting
  | closed
  | pong (leg : SocketLeg)
  | frame (leg : SocketLeg) (events : List ReceivedEvent)
  | readerFailed
  | subscribe (symbols : List String)
  | unsubscribe (symbols : List String)
  | check (symbol : Option String)

namespace V2Socket

variable (x : StreamSettings) (s : V2Socket)

/-- `_both_legs_open`. -/
def bothLegsOpen : Bool := s.publicLeg && s.privateLeg

/-- `_private_leg_live`. -/
def privateLegLive : Bool :=
  s.privateLeg && s.privateAuthenticated &&
    s.lastPrivateActivityAt.any fun heard => max 0 (s.book.clock - heard) ≤ x.privateSilentAfter

/-- `check_freshness`. -/
def checkFreshness (symbol : Option String) : V2Socket × Bool :=
  if s.readerError then (s, false)
  else if s.bothLegsOpen = false then
    ({ s with state := if s.state = .disconnected then s.state else .failed }, false)
  else if s.privateLegLive x = false then
    ({ s with state := if s.state = .connected then .stale else s.state }, false)
  else match symbol with
    | some symbol =>
      if x.norm symbol ∉ s.symbols then (s, false) else (s, s.book.recent x (x.norm symbol))
    | none =>
      let fresh := s.symbols.all (s.book.recent x)
      let state := if fresh && s.state = .stale then .connected else s.state
      ({ s with state := if !fresh && state.inUse then .stale else state }, fresh)

/-- The activity of the private leg. -/
def heard (leg : SocketLeg) : Option ℚ :=
  if leg = .privateLeg then some s.book.clock else s.lastPrivateActivityAt

/-- A step, at the time its label comes. A label that does not come in this state changes nothing. -/
def act : V2Label → V2Socket
  | .connect =>
    if s.phase = .idle ∧ s.bothLegsOpen = false then
      { s with
        state := .connecting, privateAuthenticated := false, phase := .opening
        book := s.book.nextConnection }
    else s
  | .openedPublic => if s.phase = .opening then { s with publicLeg := true } else s
  | .openedPrivate =>
    if s.phase = .opening ∧ s.publicLeg = true then { s with privateLeg := true } else s
  | .loginAcknowledged =>
    if s.phase = .opening ∧ s.bothLegsOpen = true then
      { s with privateAuthenticated := true, phase := .subscribing }
    else s
  | .connectFailed =>
    if s.phase = .opening ∨ s.phase = .subscribing then
      { s with state := .failed, privateAuthenticated := false, phase := .failing }
    else s
  | .connected =>
    if s.phase = .subscribing ∧ s.bothLegsOpen = true then
      { s with
        book := s.book.forget
        lastPrivateActivityAt := some s.book.clock
        state := .connected, readerError := false, reading := true, phase := .idle }
    else s
  | .closePublic =>
    if s.phase = .idle ∨ s.phase = .failing then { s with publicLeg := false, reading := false }
    else s
  | .closePrivate =>
    if s.phase = .idle ∨ s.phase = .failing then
      { s with privateLeg := false, reading := false, phase := .idle }
    else s
  | .reconnecting => if s.phase = .idle then { s with state := .reconnecting } else s
  | .closed =>
    if s.phase = .idle then { s with privateAuthenticated := false, state := .disconnected } else s
  | .pong leg => if s.reading then { s with lastPrivateActivityAt := s.heard leg } else s
  | .frame leg events =>
    if s.reading then
      let received := s.book.receiveAll x s.book.clock (leg = .publicLeg) events
      { s with
        lastPrivateActivityAt := s.heard leg
        book := received.1
        state := if received.2 && s.state = .reconnecting && !s.readerError then .connected
          else s.state }
    else s
  | .readerFailed => if s.reading then { s with readerError := true, state := .reconnecting } else s
  | .subscribe symbols =>
    match normalizeSymbols x symbols with
    | none => s
    | some symbols => { s with symbols := s.symbols ++ symbols.filter (· ∉ s.symbols) }
  | .unsubscribe symbols =>
    match normalizeSymbols x symbols with
    | none => s
    | some symbols =>
      let kept := s.symbols.filter (· ∉ symbols)
      if kept = s.symbols then s else { s with symbols := kept, book := s.book.keepOnly kept }
  | .check symbol => (s.checkFreshness x symbol).1

/-- Time passes. -/
def wait (d : ℚ≥0) : V2Socket := { s with book := s.book.wait d }

def step (s : V2Socket) (l : ℚ≥0 × V2Label) : V2Socket := (s.wait l.1).act x l.2

/-- A new client. -/
def start (symbols : List String) (clock : ℚ) : V2Socket where
  symbols
  book := { clock }

/-- A check that reports a symbol fresh, reports a mark of now. -/
def Truthful (s : V2Socket) : ℚ≥0 × V2Label → Prop
  | (d, .check (some symbol)) =>
    ((s.wait d).checkFreshness x (some symbol)).2 = true → MarkedNow x (s.wait d).book symbol
  | _ => True

/-- A check while `connect` waits for the subscription after its login, of a symbol whose last mark
is recent. No reader has failed, the legs are open and the private one was heard from. -/
def Leftover (s : V2Socket) : ℚ≥0 × V2Label → Prop
  | (d, .check (some symbol)) => s.phase = .subscribing ∧ s.readerError = false ∧
      s.bothLegsOpen = true ∧ (s.wait d).privateLegLive x = true ∧ x.norm symbol ∈ s.symbols ∧
        (s.wait d).book.recent x symbol = true
  | _ => False

/-- Outside of `connect`, open legs have marks of their connection. Within, no mark is of the new
connection. -/
structure Inv (s : V2Socket) : Prop where
  ordered : Ordered s.book
  reading : s.reading = true → s.phase = .idle ∧ s.bothLegsOpen = true
  current : s.phase = .idle → s.bothLegsOpen = true → Current x s.book
  unmarked : s.phase ≠ .idle → ∀ m ∈ s.book.log, m.connection ≠ s.book.connection
  authenticated : s.privateAuthenticated = true → s.phase = .idle ∨ s.phase = .subscribing

variable {x} {s : V2Socket}

/-- A check changes nothing but the state. -/
theorem checkFreshness_cases (symbol : Option String) :
    ∃ state, (s.checkFreshness x symbol).1 = { s with state } := by
  unfold checkFreshness
  split
  · exact ⟨s.state, rfl⟩
  · split
    · exact ⟨_, rfl⟩
    · split
      · exact ⟨_, rfl⟩
      · cases symbol with
        | some symbol =>
          dsimp only
          split <;> exact ⟨s.state, rfl⟩
        | none => exact ⟨_, rfl⟩

/-- What a check of a symbol reports. -/
theorem checkFreshness_iff {symbol : String} : (s.checkFreshness x (some symbol)).2 = true ↔
    s.readerError = false ∧ s.bothLegsOpen = true ∧ s.privateLegLive x = true ∧
      x.norm symbol ∈ s.symbols ∧ s.book.recent x symbol = true := by
  have hnorm : s.book.recent x (x.norm symbol) = s.book.recent x symbol := by
    rw [MarkBook.recent, MarkBook.lastMarkEventAge, x.norm_norm, MarkBook.recent,
      MarkBook.lastMarkEventAge]
  unfold checkFreshness
  split_ifs with herror hlegs hlive
  · simp [herror]
  · simp [hlegs]
  · simp [hlive]
  · dsimp only
    split
    next hmem => simp [hmem]
    next hmem => simp_all

theorem Inv.wait {d : ℚ≥0} (h : Inv x s) : Inv x (s.wait d) :=
  ⟨h.ordered.wait, h.reading, fun hphase hlegs => (h.current hphase hlegs).wait, h.unmarked,
    h.authenticated⟩

/-- A state that only differs in what the marks do not depend on. -/
theorem Inv.congr {s' : V2Socket} (h : Inv x s) (hbook : s'.book = s.book)
    (hphase : s'.phase = s.phase) (hlegs : s'.bothLegsOpen = s.bothLegsOpen)
    (hreading : s'.reading = s.reading)
    (hauthenticated : s'.privateAuthenticated = true → s.privateAuthenticated = true) : Inv x s' where
  ordered := by rw [hbook]; exact h.ordered
  reading := by rw [hreading, hphase, hlegs]; exact h.reading
  current := by rw [hphase, hlegs, hbook]; exact h.current
  unmarked := by rw [hphase, hbook]; exact h.unmarked
  authenticated := by rw [hphase]; exact fun hs => h.authenticated (hauthenticated hs)

theorem not_reading_of_phase (h : Inv x s) (hphase : s.phase ≠ .idle) : s.reading = false := by
  cases hreading : s.reading with
  | false => rfl
  | true => exact absurd (h.reading hreading).1 hphase

theorem Inv.act (h : Inv x s) (l : V2Label) : Inv x (s.act x l) := by
  unfold V2Socket.act
  cases l with
  | connect =>
    dsimp only
    split
    next hcond =>
      obtain ⟨hphase, hlegs⟩ := hcond
      have hreading : s.reading ≠ true := by
        intro hreading
        rw [(h.reading hreading).2] at hlegs
        cases hlegs
      exact ⟨h.ordered.nextConnection, fun hs => absurd hs hreading, nofun,
        fun _ => h.ordered.fresh_connection, nofun⟩
    · exact h
  | openedPublic =>
    dsimp only
    split
    next hphase =>
      have hreading := not_reading_of_phase h (by rw [hphase]; decide)
      refine ⟨h.ordered, fun hs => ?_, fun hs => ?_, h.unmarked, h.authenticated⟩
      · rw [hreading] at hs
        cases hs
      · rw [hphase] at hs
        cases hs
    · exact h
  | openedPrivate =>
    dsimp only
    split
    next hcond =>
      have hreading := not_reading_of_phase h (by rw [hcond.1]; decide)
      refine ⟨h.ordered, fun hs => ?_, fun hs => ?_, h.unmarked, h.authenticated⟩
      · rw [hreading] at hs
        cases hs
      · rw [hcond.1] at hs
        cases hs
    · exact h
  | loginAcknowledged =>
    dsimp only
    split
    next hcond =>
      have hphase : s.phase ≠ .idle := by rw [hcond.1]; decide
      have hreading := not_reading_of_phase h hphase
      refine ⟨h.ordered, fun hs => ?_, nofun, fun _ => h.unmarked hphase, fun _ => Or.inr rfl⟩
      rw [hreading] at hs
      cases hs
    · exact h
  | connectFailed =>
    dsimp only
    split
    next hcond =>
      have hphase : s.phase ≠ .idle := by rcases hcond with hp | hp <;> rw [hp] <;> decide
      have hreading := not_reading_of_phase h hphase
      refine ⟨h.ordered, fun hs => ?_, nofun, fun _ => h.unmarked hphase, nofun⟩
      rw [hreading] at hs
      cases hs
    · exact h
  | connected =>
    dsimp only
    split
    next hcond =>
      exact ⟨h.ordered.forget, fun _ => ⟨rfl, hcond.2⟩, fun _ _ => current_forget,
        fun hs => absurd rfl hs, fun _ => Or.inl rfl⟩
    · exact h
  | closePublic =>
    dsimp only
    split
    · exact ⟨h.ordered, nofun, nofun, h.unmarked, h.authenticated⟩
    · exact h
  | closePrivate =>
    dsimp only
    split
    · exact ⟨h.ordered, nofun, fun _ hlegs => by simp [bothLegsOpen] at hlegs,
        fun hs => absurd rfl hs, fun _ => Or.inl rfl⟩
    · exact h
  | reconnecting =>
    dsimp only
    split
    · exact h.congr rfl rfl rfl rfl id
    · exact h
  | closed =>
    dsimp only
    split
    · exact h.congr rfl rfl rfl rfl nofun
    · exact h
  | pong leg =>
    dsimp only
    split
    · exact h.congr rfl rfl rfl rfl id
    · exact h
  | frame leg events =>
    dsimp only
    split
    next hreading =>
      obtain ⟨hphase, hlegs⟩ := h.reading hreading
      have hkept : Kept x s.book.clock s.book
          (s.book.receiveAll x s.book.clock (leg = .publicLeg) events).1 :=
        kept_receiveAll le_rfl h.ordered
      exact ⟨hkept.ordered, h.reading, fun _ _ => hkept.current (h.current hphase hlegs),
        fun hs => absurd hphase hs, h.authenticated⟩
    · exact h
  | readerFailed =>
    dsimp only
    split
    · exact h.congr rfl rfl rfl rfl id
    · exact h
  | subscribe symbols =>
    dsimp only
    split
    · exact h
    · exact h.congr rfl rfl rfl rfl id
  | unsubscribe symbols =>
    dsimp only
    split
    · exact h
    · split
      · exact h
      · exact ⟨h.ordered.keepOnly, h.reading, fun hphase hlegs => (h.current hphase hlegs).keepOnly,
          h.unmarked, h.authenticated⟩
  | check symbol =>
    dsimp only
    obtain ⟨state, heq⟩ := checkFreshness_cases (x := x) (s := s) symbol
    rw [heq]
    exact h.congr rfl rfl rfl rfl id

theorem Inv.step (h : Inv x s) (l : ℚ≥0 × V2Label) : Inv x (s.step x l) := h.wait.act l.2

theorem inv_start (symbols : List String) (clock : ℚ) : Inv x (start symbols clock) :=
  ⟨⟨List.Pairwise.nil, nofun, nofun⟩, nofun, fun _ hlegs => by simp [bothLegsOpen, start] at hlegs,
    fun hs => absurd rfl hs, nofun⟩

/-- A check is wrong exactly where the mark it goes by is left from the connection before. -/
theorem Inv.truthful_iff (h : Inv x s) (l : ℚ≥0 × V2Label) : Truthful x s l ↔ ¬ Leftover x s l := by
  obtain ⟨d, label⟩ := l
  cases label with
  | check symbol =>
    cases symbol with
    | none => exact iff_of_true trivial id
    | some symbol =>
      constructor
      · rintro htruthful ⟨hphase, herror, hlegs, hlive, hmem, hrecent⟩
        obtain ⟨m, hm, -, hconnection, -⟩ :=
          htruthful (checkFreshness_iff.mpr ⟨herror, hlegs, hlive, hmem, hrecent⟩)
        exact h.unmarked (by rw [hphase]; decide) m hm hconnection
      · intro hleft hfresh
        obtain ⟨herror, hlegs, hlive, hmem, hrecent⟩ := checkFreshness_iff.mp hfresh
        have hauthenticated : s.privateAuthenticated = true := by
          simp only [privateLegLive, Bool.and_eq_true] at hlive
          exact hlive.1.2
        rcases h.authenticated hauthenticated with hphase | hphase
        · exact (h.wait.current hphase hlegs).markedNow hrecent
        · exact absurd ⟨hphase, herror, hlegs, hlive, hmem, hrecent⟩ hleft
  | _ => exact iff_of_true trivial id

end V2Socket

/-! ## Runs -/

/-- The provider times of the marks of a symbol increase. -/
def Increasing (b : MarkBook) : Prop :=
  b.log.Pairwise fun m m' => m.symbol = m'.symbol → m.eventTimeMs < m'.eventTimeMs

/-- The times of the marks increase in every run of both clients. What the first client reports fresh
has a mark of its connection that is no older than allowed. The second one keeps to that exactly
where no check goes by a mark that is left from the connection before. -/
theorem marks_current_iff (x : StreamSettings) (symbols : List String) (clock : ℚ) :
    (∀ ls, (∀ s ∈ states (ClassicSocket.step x) (ClassicSocket.start symbols clock) ls,
        Increasing s.book) ∧
      ∀ p ∈ visits (ClassicSocket.step x) (ClassicSocket.start symbols clock) ls,
        ClassicSocket.Truthful x p.1 p.2) ∧
    ∀ ls, (∀ s ∈ states (V2Socket.step x) (V2Socket.start symbols clock) ls, Increasing s.book) ∧
      ((∀ p ∈ visits (V2Socket.step x) (V2Socket.start symbols clock) ls,
          V2Socket.Truthful x p.1 p.2) ↔
        ∀ p ∈ visits (V2Socket.step x) (V2Socket.start symbols clock) ls,
          ¬ V2Socket.Leftover x p.1 p.2) := by
  constructor
  · intro ls
    have hstep : ∀ s l, ClassicSocket.Inv x s → ClassicSocket.Inv x (s.step x l) :=
      fun s l h => h.step l
    have hstart := ClassicSocket.inv_start (x := x) symbols clock
    exact ⟨fun s hs => (states_inv hstep hstart hs).ordered.increasing,
      fun p hp => (visits_inv hstep hstart hp).truthful p.2⟩
  · intro ls
    have hstep : ∀ s l, V2Socket.Inv x s → V2Socket.Inv x (s.step x l) := fun s l h => h.step l
    have hstart := V2Socket.inv_start (x := x) symbols clock
    exact ⟨fun s hs => (states_inv hstep hstart hs).ordered.increasing,
      forall₂_congr fun p hp => (visits_inv hstep hstart hp).truthful_iff p.2⟩

/-! ## A reconnect -/

def plainSettings : StreamSettings where
  staleAfter := 5
  heartbeatInterval := 25
  privateSilentAfter := 125 / 2
  offset := 1700000000
  norm := id
  norm_norm _ := rfl

/-- A connection that has a mark and is closed, and the next one up to its login. -/
def reconnecting : List (ℚ≥0 × V2Label) :=
  let mark : WebSocketEvent :=
    { kind := "mark_price", symbol := "BTCUSDT", eventTimeMs := 1700000001000, markPrice := some 65000 }
  let opened : List (ℚ≥0 × V2Label) :=
    [(0, .connect), (0, .openedPublic), (0, .openedPrivate), (0, .loginAcknowledged)]
  opened ++ [(0, .connected), (1, .frame .publicLeg [⟨mark, 0, 0⟩]), (1, .closePublic),
    (0, .closePrivate), (0, .reconnecting)] ++ opened

/-- The symbol is reported fresh, though the new connection has no mark. -/
theorem leftover_reported : ¬ ∀ p ∈ visits (V2Socket.step plainSettings)
    (V2Socket.start ["BTCUSDT"] 0) (reconnecting ++ [(0, .check (some "BTCUSDT"))]),
      V2Socket.Truthful plainSettings p.1 p.2 := by
  intro h
  have hvisit : (exec (V2Socket.step plainSettings) (V2Socket.start ["BTCUSDT"] 0) reconnecting,
      ((0 : ℚ≥0), V2Label.check (some "BTCUSDT"))) ∈ visits (V2Socket.step plainSettings)
        (V2Socket.start ["BTCUSDT"] 0) (reconnecting ++ [(0, .check (some "BTCUSDT"))]) :=
    mem_visits_iff.mpr ⟨reconnecting, [], rfl, rfl⟩
  obtain ⟨m, hm, -, hconnection, -⟩ := h _ hvisit (by decide +kernel)
  have hlog : ((exec (V2Socket.step plainSettings) (V2Socket.start ["BTCUSDT"] 0)
      reconnecting).book.log.all fun m => m.connection = 1) = true := by
    decide +kernel
  have hnew : (exec (V2Socket.step plainSettings) (V2Socket.start ["BTCUSDT"] 0)
      reconnecting).book.connection = 2 := by
    decide +kernel
  have hold : m.connection = 1 := of_decide_eq_true (List.all_eq_true.mp hlog m hm)
  have hcurrent : m.connection = 2 := hconnection.trans hnew
  omega

end FattyTrader.MarkFreshness
