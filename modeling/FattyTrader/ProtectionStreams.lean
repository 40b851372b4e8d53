import FattyTrader.Fallbacks
import FattyTrader.LegReaders

/-!
# The protection stream engine

`handle_event` takes one mark. A mark that is not fresh is dropped ; the others are compared with the
entries read for them, and each active entry of the symbol whose level is crossed is closed, unless
its id is fenced. A call waits for the close it requested, and other calls run in the meantime. An
outcome lifts the fence only if its reason is proven to come before the claim of the close.

Whatever the order of marks, refreshes and outcomes, one close at most is outstanding for an id, a
second one follows such an outcome, and every request is for an entry its call read as active, crossed
by a mark fresher than all that were accepted before it (`stream_fenced`). The entries and the mark
of a call are those of its start : a later mark or refresh does not change what it goes on to request
(`overtakenMark_requested`).
-/

set_option linter.unusedSectionVars false

namespace FattyTrader

open Runs

/-! ## Entries -/

/-- An entry as it is read, its values as text or as numbers ; none is a value that is missing or no
number. -/
structure RawFallbackEntry where
  id : Option String
  symbol : Option String
  direction : Option String
  entryPrice : Option Decimal
  stopLoss : Option Decimal
  quantity : Option Decimal
  takeProfits : Option (List Decimal)
  state : String := "active"
deriving DecidableEq

structure StreamEntry where
  id : String
  symbol : String
  direction : Direction
  entryPrice : ℚ
  stopLoss : ℚ
  takeProfits : List ℚ
  quantity : ℚ
  state : String
deriving DecidableEq

def streamDirection (text : String) : Option Direction :=
  if text = "LONG" then some .long else if text = "SHORT" then some .short else none

/-- `_normalize_entry`. -/
def normalizeEntry (raw : RawFallbackEntry) : Option StreamEntry := do
  let id := strip (← raw.id)
  let symbol := (strip (← raw.symbol)).toUpper
  let direction ← streamDirection (strip (← raw.direction)).toUpper
  let entryPrice ← (← raw.entryPrice).positive
  let stopLoss ← (← raw.stopLoss).positive
  let quantity ← (← raw.quantity).positive
  let takeProfits ← (← raw.takeProfits).mapM Decimal.positive
  if id = "" ∨ symbol = "" then none
  else
    some ⟨id, symbol, direction, entryPrice, stopLoss, takeProfits, quantity,
      (strip raw.state).toLower⟩

structure StreamCloseRequest where
  fallbackId : String
  symbol : String
  direction : Direction
  markPrice : ℚ
  reason : String
  quantity : ℚ
deriving DecidableEq

structure StreamCloseResult where
  fallbackId : String
  submitted : Bool
  reason : String
deriving DecidableEq

/-- The outcomes that are proven to occur before the durable close claim. -/
def StreamCloseResult.beforeClaim (result : StreamCloseResult) : Bool :=
  !result.submitted && result.reason ∈ ["provider-position-read-failed",
    "provider-position-invalid", "position-ownership-unverified",
    "position-environment-unverified", "close-quantity-invalid"]

/-! ## The engine -/

/-- A call that waits for its close : its mark, the entries left, and what it has answered. -/
structure StreamCall where
  symbol : String
  eventTimeMs : ℤ
  mark : ℚ
  request : StreamCloseRequest
  rest : List RawFallbackEntry
  results : List StreamCloseResult
deriving DecidableEq

/-- `BitgetFallbackStreamEngine`, what its entries are now, and its calls. -/
structure StreamEngine where
  lastEventMs : String → Option ℤ
  pending : List String
  entries : List RawFallbackEntry
  calls : ℕ → Option StreamCall

inductive StreamLabel
  | refresh (entries : List RawFallbackEntry)
  | event (call : ℕ) (event : WebSocketEvent) (wallTime : ℚ) (transportFresh : Bool)
  /-- what `close` answers, none where it raises -/
  | outcome (call : ℕ) (result : Option StreamCloseResult)
  | cancel (call : ℕ)

/-- What the steps of the engine show. -/
inductive StreamShown
  | accepted (call : ℕ) (symbol : String) (eventTimeMs : ℤ) (mark : ℚ)
      (entries : List RawFallbackEntry)
  | requested (call : ℕ) (eventTimeMs : ℤ) (request : StreamCloseRequest)
  | settled (call : ℕ) (fallbackId : String) (result : StreamCloseResult)
deriving DecidableEq

/-- The first of the entries that is closed, and those after it. -/
def nextRequest (pending : List String) (symbol : String) (mark : ℚ) :
    List RawFallbackEntry → Option (StreamCloseRequest × List RawFallbackEntry)
  | [] => none
  | raw :: rest =>
    match normalizeEntry raw with
    | none => nextRequest pending symbol mark rest
    | some entry =>
      if entry.symbol ≠ symbol ∨ entry.state ≠ "active" ∨ entry.id ∈ pending then
        nextRequest pending symbol mark rest
      else
        match checkThresholds entry.direction mark entry.stopLoss entry.takeProfits with
        | none => nextRequest pending symbol mark rest
        | some reason =>
          some (⟨entry.id, symbol, entry.direction, mark, reason, entry.quantity⟩, rest)

namespace StreamEngine

/-- The engine before its first event. -/
def created (entries : List RawFallbackEntry) : StreamEngine where
  lastEventMs _ := none
  pending := []
  entries := entries
  calls _ := none

/-- The loop of `handle_event` from some entries on, to its next close or its end. -/
def resume (s : StreamEngine) (call : ℕ) (symbol : String) (eventTimeMs : ℤ) (mark : ℚ)
    (entries : List RawFallbackEntry) (results : List StreamCloseResult) :
    StreamEngine × List StreamShown :=
  match nextRequest s.pending symbol mark entries with
  | none => ({ s with calls := Function.update s.calls call none }, [])
  | some (request, rest) =>
    ({ s with
        pending := request.fallbackId :: s.pending
        calls := Function.update s.calls call
          (some ⟨symbol, eventTimeMs, mark, request, rest, results⟩) },
      [.requested call eventTimeMs request])

/-- The start of `handle_event`. -/
def handleEvent (staleAfter : ℚ) (s : StreamEngine) (call : ℕ) (event : WebSocketEvent)
    (wallTime : ℚ) (transportFresh : Bool) : StreamEngine × List StreamShown :=
  match event.markPrice with
  | none => (s, [])
  | some mark =>
    let symbol := (strip event.symbol).toUpper
    if event.kind = "mark_price" ∧ freshMark event wallTime staleAfter (s.lastEventMs symbol) ∧
        transportFresh then
      let next := { s with
        lastEventMs := Function.update s.lastEventMs symbol (some event.eventTimeMs) }.resume call
          symbol event.eventTimeMs mark s.entries []
      (next.1, .accepted call symbol event.eventTimeMs mark s.entries :: next.2)
    else (s, [])

/-- The rest of `handle_event` after a close it waited for. -/
def settle (s : StreamEngine) (call : ℕ) (waiting : StreamCall)
    (answer : Option StreamCloseResult) : StreamEngine × List StreamShown :=
  let id := waiting.request.fallbackId
  let result := answer.getD ⟨id, false, "close-result-unknown"⟩
  let pending := if result.beforeClaim then s.pending.filter (· ≠ id) else s.pending
  let next := { s with pending }.resume call waiting.symbol waiting.eventTimeMs waiting.mark
    waiting.rest (waiting.results ++ [result])
  (next.1, .settled call id result :: next.2)

/-- One step of the engine, and what it shows. -/
def step (staleAfter : ℚ) (s : StreamEngine) : StreamLabel → StreamEngine × List StreamShown
  | .refresh entries => ({ s with entries }, [])
  | .event call event wallTime transportFresh =>
    match s.calls call with
    | none => s.handleEvent staleAfter call event wallTime transportFresh
    | some _ => (s, [])
  | .outcome call answer =>
    match s.calls call with
    | none => (s, [])
    | some waiting => s.settle call waiting answer
  | .cancel call => ({ s with calls := Function.update s.calls call none }, [])

def next (staleAfter : ℚ) (s : StreamEngine) (l : StreamLabel) : StreamEngine :=
  (s.step staleAfter l).1

/-- What the steps of a run show. -/
def trace (staleAfter : ℚ) (past : List (StreamEngine × StreamLabel)) : List StreamShown :=
  past.flatMap fun p => (p.1.step staleAfter p.2).2

end StreamEngine

/-! ## The fence -/

/-- Whether an id is fenced after one more entry. -/
def fenceAfter (id : String) (was : Bool) : StreamShown → Bool
  | .requested _ _ request => if request.fallbackId = id then true else was
  | .settled _ fallbackId result =>
    if fallbackId = id ∧ result.beforeClaim then false else was
  | .accepted .. => was

/-- The last that is shown of an id is a request, or an outcome that does not lift its fence. -/
def fenced (id : String) (shown : List StreamShown) : Bool := shown.foldl (fenceAfter id) false

/-- A call accepted a mark, fresher than all that were accepted before for its symbol, with some
entries, and has not accepted another one since. -/
def Accepted (shown : List StreamShown) (call : ℕ) (symbol : String) (eventTimeMs : ℤ) (mark : ℚ)
    (entries : List RawFallbackEntry) : Prop :=
  ∃ before after, shown = before ++ .accepted call symbol eventTimeMs mark entries :: after ∧
    (∀ symbol' eventTimeMs' mark' entries',
      .accepted call symbol' eventTimeMs' mark' entries' ∉ after) ∧
    ∀ call' eventTimeMs' mark' entries',
      .accepted call' symbol eventTimeMs' mark' entries' ∈ before → eventTimeMs' < eventTimeMs

/-- A request is for an active entry that its call read, crossed by the mark of its call. -/
def Backed (shown : List StreamShown) (call : ℕ) (eventTimeMs : ℤ) (request : StreamCloseRequest) :
    Prop :=
  ∃ entries, Accepted shown call request.symbol eventTimeMs request.markPrice entries ∧
    ∃ raw ∈ entries, ∃ entry, normalizeEntry raw = some entry ∧ entry.id = request.fallbackId ∧
      entry.symbol = request.symbol ∧ entry.state = "active" ∧
      entry.direction = request.direction ∧ entry.quantity = request.quantity ∧
      checkThresholds entry.direction request.markPrice entry.stopLoss entry.takeProfits =
        some request.reason

/-! ## One step -/

section Steps

variable {staleAfter : ℚ} {s : StreamEngine} {shown new : List StreamShown} {call : ℕ} {id symbol : String}
  {eventTimeMs : ℤ} {mark : ℚ} {entries rest : List RawFallbackEntry} {request : StreamCloseRequest}
  {l : StreamLabel}

theorem fenced_snoc {entry : StreamShown} :
    fenced id (shown ++ [entry]) = fenceAfter id (fenced id shown) entry := by
  unfold fenced
  rw [List.foldl_append]
  rfl

/-- A fence that is lifted was lifted by an outcome. -/
theorem settled_of_foldl (h : shown.foldl (fenceAfter id) true = false) :
    ∃ call result, .settled call id result ∈ shown ∧ result.beforeClaim = true := by
  induction shown with
  | nil => cases h
  | cons entry shown ih =>
    rw [List.foldl_cons] at h
    have hrest : shown.foldl (fenceAfter id) true = false →
        ∃ call result, .settled call id result ∈ entry :: shown ∧ result.beforeClaim = true := by
      intro hfold
      obtain ⟨call, result, hmem, hclaim⟩ := ih hfold
      exact ⟨call, result, List.mem_cons_of_mem _ hmem, hclaim⟩
    cases entry with
    | accepted => exact hrest h
    | requested call eventTimeMs request =>
      simp only [fenceAfter, ite_self] at h
      exact hrest h
    | settled call fallbackId result =>
      simp only [fenceAfter] at h
      split at h
      next hlift =>
        obtain ⟨rfl, hclaim⟩ := hlift
        exact ⟨call, result, List.mem_cons_self, hclaim⟩
      · exact hrest h

theorem nextRequest_some {pending : List String}
    (h : nextRequest pending symbol mark entries = some (request, rest)) :
    request.fallbackId ∉ pending ∧ request.symbol = symbol ∧ request.markPrice = mark ∧
      (∃ raw ∈ entries, ∃ entry, normalizeEntry raw = some entry ∧ entry.id = request.fallbackId ∧
        entry.symbol = symbol ∧ entry.state = "active" ∧ entry.direction = request.direction ∧
        entry.quantity = request.quantity ∧
        checkThresholds entry.direction mark entry.stopLoss entry.takeProfits =
          some request.reason) ∧
      ∀ raw ∈ rest, raw ∈ entries := by
  induction entries with
  | nil => cases h
  | cons raw entries ih =>
    have hlater : nextRequest pending symbol mark entries = some (request, rest) →
        request.fallbackId ∉ pending ∧ request.symbol = symbol ∧ request.markPrice = mark ∧
          (∃ raw' ∈ raw :: entries, ∃ entry, normalizeEntry raw' = some entry ∧
            entry.id = request.fallbackId ∧ entry.symbol = symbol ∧ entry.state = "active" ∧
            entry.direction = request.direction ∧ entry.quantity = request.quantity ∧
            checkThresholds entry.direction mark entry.stopLoss entry.takeProfits =
              some request.reason) ∧
          ∀ raw' ∈ rest, raw' ∈ raw :: entries := by
      intro hnext
      obtain ⟨hpending, hsymbol, hmark, ⟨raw', hmem, hentry⟩, hrest⟩ := ih hnext
      exact ⟨hpending, hsymbol, hmark, ⟨raw', List.mem_cons_of_mem _ hmem, hentry⟩,
        fun r hr => List.mem_cons_of_mem _ (hrest r hr)⟩
    unfold nextRequest at h
    split at h
    · exact hlater h
    next entry hentry =>
      split at h
      · exact hlater h
      next hskip =>
        simp only [not_or, ne_eq, not_not] at hskip
        obtain ⟨hsymbol, hstate, hpending⟩ := hskip
        split at h
        · exact hlater h
        next reason hreason =>
          obtain ⟨rfl, rfl⟩ := Prod.mk.inj (Option.some.inj h)
          exact ⟨hpending, rfl, rfl, ⟨raw, List.mem_cons_self, entry, hentry, rfl, hsymbol, hstate,
            rfl, rfl, hreason⟩, fun r hr => List.mem_cons_of_mem _ hr⟩

theorem Accepted.append (h : Accepted shown call symbol eventTimeMs mark entries)
    (hnew : ∀ symbol' eventTimeMs' mark' entries',
      .accepted call symbol' eventTimeMs' mark' entries' ∉ new) :
    Accepted (shown ++ new) call symbol eventTimeMs mark entries := by
  obtain ⟨before, after, rfl, hafter, hfresh⟩ := h
  refine ⟨before, after ++ new, by simp, fun symbol' eventTimeMs' mark' entries' hmem => ?_, hfresh⟩
  rcases List.mem_append.mp hmem with hmem | hmem
  · exact hafter _ _ _ _ hmem
  · exact hnew _ _ _ _ hmem

/-- A request finds its id not fenced, and is backed by its call. -/
def Sound (before : List StreamShown) : StreamShown → Prop
  | .requested call eventTimeMs request =>
    fenced request.fallbackId before = false ∧ Backed before call eventTimeMs request
  | _ => True

/-- What is shown of the state : the pending ids are the fenced ones, the last event of a symbol is as
fresh as any that was accepted, and a call that waits has its id fenced, alone, and goes on with the
entries it read. -/
structure StreamRecord (s : StreamEngine) (shown : List StreamShown) : Prop where
  fence : ∀ id, id ∈ s.pending ↔ fenced id shown = true
  seen : ∀ call symbol eventTimeMs mark entries,
    .accepted call symbol eventTimeMs mark entries ∈ shown →
      ∃ last ∈ s.lastEventMs symbol, eventTimeMs ≤ last
  waits : ∀ call waiting, s.calls call = some waiting → waiting.request.fallbackId ∈ s.pending ∧
    ∃ entries, Accepted shown call waiting.symbol waiting.eventTimeMs waiting.mark entries ∧
      ∀ raw ∈ waiting.rest, raw ∈ entries
  alone : ∀ call call' waiting waiting', s.calls call = some waiting →
    s.calls call' = some waiting' → waiting.request.fallbackId = waiting'.request.fallbackId →
      call = call'
  sound : ∀ before entry after, shown = before ++ entry :: after → Sound before entry

theorem streamRecord_created : StreamRecord (.created entries) [] where
  fence id := by simp [StreamEngine.created, fenced]
  seen _ _ _ _ _ h := by cases h
  waits _ _ h := by cases h
  alone _ _ _ _ h := by cases h
  sound before _ _ h := by cases before <;> cases h

namespace StreamRecord

/-- The loop of a call that is not waiting keeps the record, on entries the call read. -/
theorem resume (hrec : StreamRecord s shown) (results : List StreamCloseResult)
    (hcall : s.calls call = none)
    (haccepted : Accepted shown call symbol eventTimeMs mark entries)
    (hrest : ∀ raw ∈ rest, raw ∈ entries) :
    StreamRecord (s.resume call symbol eventTimeMs mark rest results).1
      (shown ++ (s.resume call symbol eventTimeMs mark rest results).2) := by
  have hidle : Function.update s.calls call none = s.calls := by
    rw [← hcall, Function.update_eq_self]
  unfold StreamEngine.resume
  split
  · rw [List.append_nil, hidle]
    exact hrec
  next request later hnext =>
    obtain ⟨hpending, rfl, rfl, ⟨raw, hraw, hentry⟩, hlater⟩ := nextRequest_some hnext
    have hfree : fenced request.fallbackId shown = false := by
      rw [← Bool.not_eq_true, ← hrec.fence]
      exact hpending
    have hnew : ∀ call' symbol' eventTimeMs' mark' entries',
        .accepted call' symbol' eventTimeMs' mark' entries' ∉
          [StreamShown.requested call eventTimeMs request] := by simp
    have hother : ∀ {call' waiting}, call' ≠ call →
        Function.update s.calls call (some ⟨request.symbol, eventTimeMs, request.markPrice, request,
          later, results⟩) call' = some waiting → s.calls call' = some waiting := by
      intro call' waiting hne h
      rwa [Function.update_of_ne hne] at h
    have hself : ∀ {waiting}, Function.update s.calls call (some ⟨request.symbol, eventTimeMs,
        request.markPrice, request, later, results⟩) call = some waiting →
          waiting = ⟨request.symbol, eventTimeMs, request.markPrice, request, later, results⟩ := by
      intro waiting h
      rw [Function.update_self] at h
      exact (Option.some.inj h).symm
    refine ⟨fun id => ?_, fun c sym ms m es h => ?_, fun c waiting h => ?_,
      fun c c' w w' h h' hid => ?_, ?_⟩
    · rw [fenced_snoc, List.mem_cons, hrec.fence]
      by_cases hid : request.fallbackId = id
      · simp [fenceAfter, hid]
      · simp [fenceAfter, hid, Ne.symm hid]
    · rcases List.mem_append.mp h with h | h
      · exact hrec.seen c sym ms m es h
      · exact absurd h (hnew _ _ _ _ _)
    · by_cases hc : c = call
      · subst hc
        obtain rfl := hself h
        exact ⟨List.mem_cons_self, entries, haccepted.append (hnew c),
          fun raw hr => hrest raw (hlater raw hr)⟩
      · obtain ⟨hmem, es, hacc, hsub⟩ := hrec.waits c waiting (hother hc h)
        exact ⟨List.mem_cons_of_mem _ hmem, es, hacc.append (hnew c), hsub⟩
    · -- the id of the new request is not fenced, those of the others are
      have hnotmine : ∀ {c w}, c ≠ call → Function.update s.calls call (some ⟨request.symbol,
          eventTimeMs, request.markPrice, request, later, results⟩) c = some w →
            w.request.fallbackId ≠ request.fallbackId := by
        intro c w hc h heq
        exact hpending (heq ▸ (hrec.waits c w (hother hc h)).1)
      by_cases hc : c = call <;> by_cases hc' : c' = call
      · exact hc.trans hc'.symm
      · subst hc
        rw [hself h] at hid
        exact absurd hid.symm (hnotmine hc' h')
      · subst hc'
        rw [hself h'] at hid
        exact absurd hid (hnotmine hc h)
      · exact hrec.alone c c' w w' (hother hc h) (hother hc' h') hid
    · intro before entry after h
      rcases split_snoc h with ⟨rfl, rfl, -⟩ | ⟨later, -, hshown⟩
      · exact ⟨hfree, entries, haccepted, raw, hrest raw hraw, hentry⟩
      · exact hrec.sound before entry later hshown

/-- An entry that is no request is sound. -/
theorem sound_snoc (hrec : StreamRecord s shown) {entry : StreamShown}
    (hentry : ∀ call eventTimeMs request, entry ≠ .requested call eventTimeMs request) :
    ∀ before x after, shown ++ [entry] = before ++ x :: after → Sound before x := by
  intro before x after h
  rcases split_snoc h with ⟨rfl, rfl, -⟩ | ⟨later, -, hshown⟩
  · cases x with
    | requested call eventTimeMs request => exact absurd rfl (hentry call eventTimeMs request)
    | accepted | settled => trivial
  · exact hrec.sound before x later hshown

theorem handleEvent (hrec : StreamRecord s shown) (hcall : s.calls call = none)
    (event : WebSocketEvent) (wallTime : ℚ) (transportFresh : Bool) :
    StreamRecord (s.handleEvent staleAfter call event wallTime transportFresh).1
      (shown ++ (s.handleEvent staleAfter call event wallTime transportFresh).2) := by
  have hstay : StreamRecord s (shown ++ []) := by rwa [List.append_nil]
  unfold StreamEngine.handleEvent
  split
  · exact hstay
  next mark hmark =>
    dsimp only
    split
    next hfresh =>
      obtain ⟨-, hfresh, -⟩ := hfresh
      generalize (strip event.symbol).toUpper = symbol at hfresh ⊢
      have hlater : ∀ last ∈ s.lastEventMs symbol, last < event.eventTimeMs := by
        intro last hlast
        unfold freshMark at hfresh
        rw [Option.mem_def.mp hlast] at hfresh
        split at hfresh
        · cases hfresh
        · simp only [Option.all_some, Bool.and_eq_true, decide_eq_true_eq] at hfresh
          exact hfresh.1.2
      have hseen : ∀ call' eventTimeMs' mark' entries',
          .accepted call' symbol eventTimeMs' mark' entries' ∈ shown →
            eventTimeMs' < event.eventTimeMs := by
        intro call' eventTimeMs' mark' entries' h
        obtain ⟨last, hlast, hle⟩ := hrec.seen _ _ _ _ _ h
        exact hle.trans_lt (hlater last hlast)
      have haccepted : Accepted
          (shown ++ [.accepted call symbol event.eventTimeMs mark s.entries]) call symbol
            event.eventTimeMs mark s.entries :=
        ⟨shown, [], rfl, by simp, hseen⟩
      have hnext : StreamRecord { s with
          lastEventMs := Function.update s.lastEventMs symbol (some event.eventTimeMs) }
          (shown ++ [.accepted call symbol event.eventTimeMs mark s.entries]) := by
        refine ⟨fun id => ?_, fun c sym ms m es h => ?_, fun c waiting h => ?_, hrec.alone,
          hrec.sound_snoc (by simp)⟩
        · rw [fenced_snoc]
          exact hrec.fence id
        · simp only [Function.update_apply]
          rcases List.mem_append.mp h with hold | hlast
          · by_cases hsym : sym = symbol
            · rw [if_pos hsym]
              exact ⟨_, rfl, (hseen c ms m es (hsym ▸ hold)).le⟩
            · rw [if_neg hsym]
              exact hrec.seen c sym ms m es hold
          · obtain ⟨-, rfl, rfl, -, -⟩ := StreamShown.accepted.inj (List.mem_singleton.mp hlast)
            rw [if_pos rfl]
            exact ⟨_, rfl, le_rfl⟩
        · obtain ⟨hmem, es, hacc, hsub⟩ := hrec.waits c waiting h
          refine ⟨hmem, es, hacc.append fun sym' ms' m' es' hmem' => ?_, hsub⟩
          obtain ⟨rfl, -⟩ := StreamShown.accepted.inj (List.mem_singleton.mp hmem')
          rw [hcall] at h
          cases h
      have hrun := hnext.resume [] hcall haccepted fun raw hraw => hraw
      rwa [List.append_assoc] at hrun
    · exact hstay

theorem settle (hrec : StreamRecord s shown) {waiting : StreamCall}
    (hcall : s.calls call = some waiting) (answer : Option StreamCloseResult) :
    StreamRecord (s.settle call waiting answer).1 (shown ++ (s.settle call waiting answer).2) := by
  obtain ⟨-, entries, haccepted, hrest⟩ := hrec.waits call waiting hcall
  unfold StreamEngine.settle
  dsimp only
  generalize answer.getD ⟨waiting.request.fallbackId, false, "close-result-unknown"⟩ = result
  generalize hpending : (if result.beforeClaim then
    s.pending.filter (· ≠ waiting.request.fallbackId) else s.pending) = pending
  have hmem : ∀ id, id ∈ pending ↔
      id ∈ s.pending ∧ ¬ (waiting.request.fallbackId = id ∧ result.beforeClaim = true) := by
    intro id
    rw [← hpending]
    by_cases hclaim : result.beforeClaim = true
    · rw [if_pos hclaim, List.mem_filter, decide_eq_true_eq]
      exact and_congr_right fun _ =>
        ⟨fun hne h => hne h.1.symm, fun hno heq => hno ⟨heq.symm, hclaim⟩⟩
    · rw [if_neg hclaim]
      exact ⟨fun h => ⟨h, fun hlift => hclaim hlift.2⟩, fun h => h.1⟩
  have hold : ∀ {c w}, Function.update s.calls call none c = some w →
      c ≠ call ∧ s.calls c = some w := by
    intro c w h
    by_cases hc : c = call
    · rw [hc, Function.update_self] at h
      cases h
    · rw [Function.update_of_ne hc] at h
      exact ⟨hc, h⟩
  have hnext : StreamRecord { s with pending, calls := Function.update s.calls call none }
      (shown ++ [.settled call waiting.request.fallbackId result]) := by
    refine ⟨fun id => ?_, fun c sym ms m es h => ?_, fun c w h => ?_, fun c c' w w' h h' => ?_,
      hrec.sound_snoc (by simp)⟩
    · rw [fenced_snoc, hmem, hrec.fence]
      by_cases hlift : waiting.request.fallbackId = id ∧ result.beforeClaim = true
      · simp [fenceAfter, hlift]
      · simp [fenceAfter, hlift]
    · rcases List.mem_append.mp h with h | h
      · exact hrec.seen c sym ms m es h
      · cases List.mem_singleton.mp h
    · obtain ⟨hc, h⟩ := hold h
      obtain ⟨hin, es, hacc, hsub⟩ := hrec.waits c w h
      refine ⟨(hmem _).mpr ⟨hin, fun hlift => ?_⟩, es, hacc.append (by simp), hsub⟩
      exact hc (hrec.alone c call w waiting h hcall hlift.1.symm)
    · exact hrec.alone c c' w w' (hold h).2 (hold h').2
  have hrun := hnext.resume (waiting.results ++ [result])
    (Function.update_self call none s.calls) (haccepted.append (by simp)) hrest
  have hsame : ∀ rest results,
      ({ s with pending, calls := Function.update s.calls call none } : StreamEngine).resume call
        waiting.symbol waiting.eventTimeMs waiting.mark rest results =
      ({ s with pending } : StreamEngine).resume call waiting.symbol waiting.eventTimeMs
        waiting.mark rest results := by
    intro rest results
    simp only [StreamEngine.resume, Function.update_idem]
  rwa [hsame, List.append_assoc] at hrun

theorem step (hrec : StreamRecord s shown) :
    StreamRecord (s.step staleAfter l).1 (shown ++ (s.step staleAfter l).2) := by
  have hstay : StreamRecord s (shown ++ []) := by rwa [List.append_nil]
  cases l with
  | refresh entries => exact ⟨hstay.fence, hstay.seen, hstay.waits, hstay.alone, hstay.sound⟩
  | event call event wallTime transportFresh =>
    simp only [StreamEngine.step]
    cases hcall : s.calls call with
    | none => exact hrec.handleEvent hcall event wallTime transportFresh
    | some waiting => exact hstay
  | outcome call answer =>
    simp only [StreamEngine.step]
    cases hcall : s.calls call with
    | none => exact hstay
    | some waiting => exact hrec.settle hcall answer
  | cancel call =>
    have hold : ∀ {c w}, Function.update s.calls call none c = some w → s.calls c = some w := by
      intro c w h
      by_cases hc : c = call
      · rw [hc, Function.update_self] at h
        cases h
      · rwa [Function.update_of_ne hc] at h
    exact ⟨hstay.fence, hstay.seen, fun c w h => hstay.waits c w (hold h),
      fun c c' w w' h h' => hstay.alone c c' w w' (hold h) (hold h'), hstay.sound⟩

end StreamRecord

end Steps

/-! ## What a run shows -/

/-- The record after any steps. -/
theorem streamRecord_trace (staleAfter : ℚ) (entries : List RawFallbackEntry)
    (labels : List StreamLabel) :
    StreamRecord (exec (StreamEngine.next staleAfter) (.created entries) labels)
      (StreamEngine.trace staleAfter
        (visits (StreamEngine.next staleAfter) (.created entries) labels)) := by
  have hrun := @visits_history _ _ (StreamEngine.created entries) labels
    (StreamEngine.next staleAfter)
    (fun s past => StreamRecord s (StreamEngine.trace staleAfter past)) (fun s l past hrec => ?_) []
    streamRecord_created
  · exact hrun
  · have hsnoc : StreamEngine.trace staleAfter (past ++ [(s, l)]) =
        StreamEngine.trace staleAfter past ++ (s.step staleAfter l).2 := by
      simp [StreamEngine.trace]
    rw [hsnoc]
    exact hrec.step

/-- In any order of marks, refreshes, outcomes and cancellations : no two calls wait for a close of
one id, between two requests for an id there is an outcome that is proven to come before the claim,
and every request is backed by the mark and the entries its call accepted. -/
theorem stream_fenced (staleAfter : ℚ) (entries : List RawFallbackEntry)
    (labels : List StreamLabel) :
    let s := exec (StreamEngine.next staleAfter) (.created entries) labels
    let shown := StreamEngine.trace staleAfter
      (visits (StreamEngine.next staleAfter) (.created entries) labels)
    (∀ call call' waiting waiting', s.calls call = some waiting → s.calls call' = some waiting' →
      waiting.request.fallbackId = waiting'.request.fallbackId → call = call') ∧
    (∀ before call eventTimeMs request between call' eventTimeMs' request' after,
      shown = before ++ StreamShown.requested call eventTimeMs request ::
          (between ++ StreamShown.requested call' eventTimeMs' request' :: after) →
        request.fallbackId = request'.fallbackId →
          ∃ call'' result, StreamShown.settled call'' request.fallbackId result ∈ between ∧
            result.beforeClaim = true) ∧
    ∀ before call eventTimeMs request after,
      shown = before ++ StreamShown.requested call eventTimeMs request :: after →
        Backed before call eventTimeMs request := by
  have hrec := streamRecord_trace staleAfter entries labels
  refine ⟨hrec.alone, ?_, fun before call eventTimeMs request after h =>
    (hrec.sound before _ after h).2⟩
  intro before call eventTimeMs request between call' eventTimeMs' request' after h hid
  have hsound := hrec.sound (before ++ StreamShown.requested call eventTimeMs request :: between) _
    after (by rw [h, List.append_assoc, List.cons_append])
  have hfree : fenced request.fallbackId
      (before ++ StreamShown.requested call eventTimeMs request :: between) = false :=
    hid ▸ hsound.1
  unfold fenced at hfree
  rw [List.foldl_append, List.foldl_cons] at hfree
  simp only [fenceAfter, if_true] at hfree
  exact settled_of_foldl hfree

/-! ### A mark that is overtaken -/

/-- A request is for a mark fresher than those other calls have used for its symbol. -/
def FreshRequests (shown : List StreamShown) : Prop :=
  ∀ before call eventTimeMs request after,
    shown = before ++ StreamShown.requested call eventTimeMs request :: after →
      ∀ call' eventTimeMs' request', StreamShown.requested call' eventTimeMs' request' ∈ before →
        request'.symbol = request.symbol → call' ≠ call → eventTimeMs' < eventTimeMs

def longEntry (id : String) : RawFallbackEntry where
  id := some id
  symbol := some "BTCUSDT"
  direction := some "LONG"
  entryPrice := some (.finite 100)
  stopLoss := some (.finite 95)
  quantity := some (.finite 1)
  takeProfits := some []

/-- While the close of the first entry is awaited a newer mark closes the second one. -/
def overtakenMark : List StreamLabel :=
  [.event 0 ⟨"mark_price", "BTCUSDT", 1000, some 94⟩ 2 true,
    .event 1 ⟨"mark_price", "BTCUSDT", 2000, some 93⟩ 2 true,
    .outcome 0 (some ⟨"a", true, "close-submitted"⟩)]

/-- The first call goes on to the third entry with its older mark. -/
theorem overtakenMark_requested : ¬ ∀ (staleAfter : ℚ) entries labels,
    FreshRequests (StreamEngine.trace staleAfter
      (visits (StreamEngine.next staleAfter) (.created entries) labels)) := by
  intro h
  have hfresh := h 5 [longEntry "a", longEntry "b", longEntry "c"] overtakenMark
  have hshown : StreamEngine.trace 5 (visits (StreamEngine.next 5)
      (.created [longEntry "a", longEntry "b", longEntry "c"]) overtakenMark) =
      ([.accepted 0 "BTCUSDT" 1000 94 [longEntry "a", longEntry "b", longEntry "c"],
        .requested 0 1000 ⟨"a", "BTCUSDT", .long, 94, "sl_hit", 1⟩,
        .accepted 1 "BTCUSDT" 2000 93 [longEntry "a", longEntry "b", longEntry "c"],
        .requested 1 2000 ⟨"b", "BTCUSDT", .long, 93, "sl_hit", 1⟩,
        .settled 0 "a" ⟨"a", true, "close-submitted"⟩] : List StreamShown) ++
      StreamShown.requested 0 1000 ⟨"c", "BTCUSDT", .long, 94, "sl_hit", 1⟩ :: [] := by
    decide +kernel
  have hlt := hfresh _ 0 1000 ⟨"c", "BTCUSDT", .long, 94, "sl_hit", 1⟩ [] hshown 1 2000
    ⟨"b", "BTCUSDT", .long, 93, "sl_hit", 1⟩ (by simp) rfl (by decide)
  exact absurd hlt (by decide)

end FattyTrader
