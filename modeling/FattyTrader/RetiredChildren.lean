import FattyTrader.LegFills

/-!
# The terminal rows of the entry path

`provider_terminal` is never cleared, and recovery reads the order of a terminal row no more
(`reconcileWaitingLeg`). It is written when the venue reports the order terminal, and when
a call gives up an order that it has not sent and that no other call may send : an entry refused
by the call that won it, a child the submission never claimed, a cancelled staged child.

Recovery also retires a child that it has read as staged. Between the reading and the write
the submission can claim the child and send it, and the write does not look at the row again. In
every run in which no child is retired after another call has claimed it, a terminal row is
one that the venue reported, or one whose order is sent in no continuation of the run
(`terminal_rows`).
-/

set_option linter.unusedSectionVars false

open Programs Prog Runs

namespace FattyTrader

/-- The venue reported the order terminal. -/
def ReportedTerminal (trace : List (ℕ × EntryEvent)) (oid : String) : Prop :=
  ∃ n result, Reports (own n trace) oid result ∧ result.terminal = true

/-- A terminal row is one of the start, one that the venue reported, or one whose order is
never sent. An order that was sent and is not reported terminal has an open row : it is
pending as long as it is owned, and recovery reads it. -/
structure TerminalRows (x : BitgetDispatchExecution) (db : Db) (s : EntryState) : Prop where
  terminal : ∀ oid r, s.world.get oid = some r → r.role = .entry → r.providerTerminal = true →
    (∃ r₀, db.get oid = some r₀ ∧ r₀.providerTerminal = true) ∨ ReportedTerminal s.trace oid ∨
      ∀ t ls, Run (entrySystem x).Step s ls t → posts oid t.trace = []
  sent : ∀ oid, posts oid s.trace ≠ [] → ¬ ReportedTerminal s.trace oid →
    ∃ r, s.world.get oid = some r ∧ r.role = .entry ∧ r.providerTerminal = false ∧
      (∀ symbol managementId, oid ∈ s.world.pendingEntryIds symbol managementId ↔
        s.world.ownedEntry r = true ∧ symbol.all (· = r.symbol) = true) ∧
      ∀ root sum, aggregateSplit root r = some sum →
        ∃ k, reconcileWaitingLeg root r = .op (.readOrder r.symbol r.clientOid) k

/-- Each call that claimed the order has not sent it, and is the call `n` or has given it up. -/
def Forgone (n : ℕ) (trace : List (ℕ × EntryEvent)) (oid : String) : Prop :=
  ∀ m, oid ∈ won (own m trace) → Never (EntryOp.sends oid) (own m trace) ∧
    (m = n ∨ ¬ Never (EntryOp.closes oid) (own m trace))

/-- The step retires no child, read as staged, that another call has claimed since and sent or
still may send. -/
def RetiresForgone (s : EntryState) (l : EntryLabel) : Prop :=
  ∀ n c i r, l = .act n c → s.next n = some (i, .update r.retired) →
    (⟨.get r.clientOid, .ok (some r)⟩ : EntryEvent) ∈ own n s.trace → r.state = .staged →
      Forgone n s.trace r.clientOid

/-- No call sent the order and none may : the row cannot be claimed any more, and each call that
claimed it has given it up. -/
structure Unsendable (world : Db) (trace : List (ℕ × EntryEvent)) (oid : String) : Prop where
  row : ∃ r, world.get oid = some r ∧ r.role = .entry ∧ r.state ≠ .staged
  given : ∀ n, oid ∈ won (own n trace) →
    Never (EntryOp.sends oid) (own n trace) ∧ ¬ Never (EntryOp.closes oid) (own n trace)

/-- Why a row is terminal. -/
inductive TerminalCause (db world : Db) (trace : List (ℕ × EntryEvent)) (oid : String) : Prop
  | recorded {r} (h : db.get oid = some r) (terminal : r.providerTerminal = true)
  | reported (h : ReportedTerminal trace oid)
  | unsendable (h : Unsendable world trace oid)

/-- What the claims of a call name. -/
def ClaimNames (x : BitgetDispatchExecution) (es : List EntryEvent) : EntryOp → Prop
  | .claim r => ∃ d, r.clientOid = x.clientOid d
  | .claimSplit m l => ∃ d, m.clientOid = x.clientOid d ∧ l.clientOid = limitOid m.clientOid
  | .claimEntryPost oid => ∃ m l,
      (⟨.claimSplit m l, .ok true⟩ : EntryEvent) ∈ es ∧ oid = limitOid m.clientOid
  | _ => True

/-- The claims of a run name roots and their children, and none of them was there at the
start. -/
structure FreshClaims (x : BitgetDispatchExecution) (db world : Db)
    (trace : List (ℕ × EntryEvent)) : Prop where
  names : ∀ n e, e ∈ own n trace → ClaimNames x (own n trace) e.op
  kept : ∀ oid, world.get oid = none → db.get oid = none
  single : ∀ n r, (⟨.claim r, .ok true⟩ : EntryEvent) ∈ own n trace → db.get r.clientOid = none
  split : ∀ n m l, (⟨.claimSplit m l, .ok true⟩ : EntryEvent) ∈ own n trace →
    db.get m.clientOid = none ∧ db.get l.clientOid = none

/-- Every terminal row, and every terminal record that a call holds, has a cause. -/
structure Caused (db world : Db) (trace : List (ℕ × EntryEvent)) : Prop where
  rows : ∀ oid r, world.get oid = some r → r.role = .entry → r.providerTerminal = true →
    TerminalCause db world trace oid
  held : ∀ n r, Held (own n trace) r → r.providerTerminal = true →
    (∀ row, world.get r.clientOid = some row → row.role = .entry) →
      TerminalCause db world trace r.clientOid

theorem limitOid_inj {oid oid' : String} (h : limitOid oid = limitOid oid') : oid = oid' := by
  rw [← bindingClientOrderId_limitOid oid, h, bindingClientOrderId_limitOid]

theorem posts_eq_nil_iff {oid : String} {trace : List (ℕ × EntryEvent)} :
    posts oid trace = [] ↔ ∀ n, Never (EntryOp.sends oid) (own n trace) := by
  rw [posts, List.filter_eq_nil_iff]
  constructor
  · intro h n e he
    exact Bool.eq_false_iff.mpr (h (n, e) (mem_own.mp he))
  · intro h q hq
    exact Bool.eq_false_iff.mp (h q.1 q.2 (mem_own.mpr hq))

/-! ## Claims -/

section Claims

variable {x : BitgetDispatchExecution} {db world world' : Db} {trace : List (ℕ × EntryEvent)}
  {oid : String} {n : ℕ} {o : EntryOp} {c : EntryChoice} {i : EntryCall}

theorem ClaimNames.mono {es es' : List EntryEvent} (h : ClaimNames x es o) (hs : es ⊆ es') :
    ClaimNames x es' o := by
  cases o with
  | claimEntryPost oid =>
    obtain ⟨m, l, hmem, hoid⟩ := h
    exact ⟨m, l, hs hmem, hoid⟩
  | _ => exact h

theorem claimNames_of_protocol {es : List EntryEvent} (h : EntryProtocol x i es o) :
    ClaimNames x es o := by
  cases o with
  | claim r =>
    obtain ⟨d, s, -, rfl, -⟩ := h
    exact ⟨d, rfl⟩
  | claimSplit m l =>
    obtain ⟨d, s, route, -, rfl, rfl, -⟩ := h
    exact ⟨d, rfl, rfl⟩
  | claimEntryPost oid =>
    obtain ⟨d, s, route, hsplit, hoid, -⟩ := h
    exact ⟨_, _, hsplit, hoid⟩
  | _ => trivial

/-- A child is won by claiming its POST. -/
theorem FreshClaims.child_won (h : FreshClaims x db world trace)
    (hwon : limitOid oid ∈ won (own n trace)) :
    (⟨.claimEntryPost (limitOid oid), .ok true⟩ : EntryEvent) ∈ own n trace := by
  obtain ⟨e, he, hw⟩ := mem_won.mp hwon
  have hnames := h.names n e he
  unfold wins at hw
  split at hw
  next r =>
    obtain ⟨d, hd⟩ := hnames
    exact absurd (hd.symm.trans (List.mem_singleton.mp hw).symm) (clientOid_ne_limitOid x d oid)
  next m l =>
    obtain ⟨d, hd, -⟩ := hnames
    exact absurd (hd.symm.trans (List.mem_singleton.mp hw).symm) (clientOid_ne_limitOid x d oid)
  next oid' =>
    rw [List.mem_singleton.mp hw]
    exact he
  · cases hw

/-- The call that wins a child has won its root. -/
theorem FreshClaims.root_won (h : FreshClaims x db world trace)
    (hwon : limitOid oid ∈ won (own n trace)) : oid ∈ won (own n trace) := by
  obtain ⟨m, l, hsplit, hoid⟩ := h.names n _ (h.child_won hwon)
  rw [limitOid_inj hoid]
  exact mem_won.mpr ⟨_, hsplit, by simp [wins]⟩

/-- What is won was not there at the start. -/
theorem FreshClaims.won_fresh (h : FreshClaims x db world trace) (hwon : oid ∈ won (own n trace)) :
    db.get oid = none := by
  obtain ⟨e, he, hw⟩ := mem_won.mp hwon
  have hnames := h.names n e he
  unfold wins at hw
  split at hw
  next r =>
    rw [List.mem_singleton.mp hw]
    exact h.single n r he
  next m l =>
    rw [List.mem_singleton.mp hw]
    exact (h.split n m l he).1
  next oid' =>
    obtain ⟨m, l, hsplit, hoid⟩ := hnames
    obtain ⟨d, -, hl⟩ := h.names n _ hsplit
    rw [List.mem_singleton.mp hw, hoid, ← hl]
    exact (h.split n m l hsplit).2
  · cases hw

/-- One operation of a call. -/
theorem FreshClaims.acted {a : Except ExecutionError (EntryAns o)}
    (h : FreshClaims x db world trace) (hx : entryExec o world c = (a, world'))
    (hφ : EntryProtocol x i (own n trace) o) :
    FreshClaims x db world' (trace ++ [(n, ⟨o, a⟩)]) := by
  have hsub := own_subset_append trace [(n, (⟨o, a⟩ : EntryEvent))]
  have hcases : ∀ m e, e ∈ own m (trace ++ [(n, ⟨o, a⟩)]) →
      e ∈ own m trace ∨ m = n ∧ e = ⟨o, a⟩ := fun m e he => by
    rcases List.mem_append.mp (mem_own.mp he) with h | h
    · exact Or.inl (mem_own.mpr h)
    · exact Or.inr (Prod.mk.inj (List.mem_singleton.mp h))
  refine ⟨fun m e he => ?_, fun oid hnone => ?_, fun m r he => ?_, fun m r l he => ?_⟩
  · rcases hcases m e he with he | ⟨rfl, rfl⟩
    · exact (h.names m e he).mono (hsub m)
    · exact (claimNames_of_protocol hφ).mono (hsub m)
  · refine h.kept oid ?_
    by_contra hsome
    obtain ⟨r, hr⟩ := Option.ne_none_iff_exists'.mp hsome
    have hchange := Db.intentChange_of_exec hx oid
    rw [hr] at hchange
    obtain ⟨r', hr'⟩ := hchange.exists_some
    rw [hr'] at hnone
    cases hnone
  · rcases hcases m _ he with he | ⟨-, heq⟩
    · exact h.single m r he
    · cases heq
      exact h.kept _ (Db.get_of_claim hx).1
  · rcases hcases m _ he with he | ⟨-, heq⟩
    · exact h.split m r l he
    · cases heq
      obtain ⟨hm, hl, -⟩ := Db.get_of_claimSplit hx
      exact ⟨h.kept _ hm, h.kept _ hl⟩

/-- A write of another component. -/
theorem FreshClaims.env {e : EntryEnv} (h : FreshClaims x db world trace)
    (he : e.apply world = .ok world') : FreshClaims x db world' trace := by
  refine ⟨h.names, fun oid hnone => ?_, h.single, h.split⟩
  rcases Db.env_cases he oid with heq | ⟨r', hr', -⟩
  · exact h.kept oid (heq.symm.trans hnone)
  · rw [hr'] at hnone
    cases hnone

end Claims

/-! ## Orders that are never sent -/

section Steps

variable {x : BitgetDispatchExecution} {db db' : Db} {s : EntryState} {oid : String} {n : ℕ}
  {o : EntryOp} {c : EntryChoice} {i : EntryCall} {p : EntryProg Unit}

theorem Unsendable.acted {a : Except ExecutionError (EntryAns o)}
    (h : Unsendable s.world s.trace oid) (hx : entryExec o s.world c = (a, db'))
    (hφ : EntryProtocol x i (own n s.trace) o) :
    Unsendable db' (s.acted n i ⟨o, a⟩ p db').trace oid := by
  refine ⟨unstaged_of_exec hx hφ h.row, fun m hwon => ?_⟩
  rcases mem_won_acted.mp hwon with hold | ⟨-, hnew⟩
  · obtain ⟨hunsent, hclosed⟩ := h.given m hold
    rw [State.own_acted]
    refine ⟨never_append.mpr ⟨hunsent, ?_⟩, fun hno => hclosed (never_append.mp hno).1⟩
    split
    next heq =>
      subst heq
      refine never_cons.mpr ⟨?_, never_nil _⟩
      by_contra hsends
      cases o with
      | placeEntryOrder order =>
        obtain rfl : order.clientOid = oid := by simpa [EntryOp.sends] using hsends
        exact hclosed hφ.open_
      | _ => simp [EntryOp.sends] at hsends
    · exact never_nil _
  · -- the row of what is won was staged or missing
    obtain ⟨r, hr, -, hstate⟩ := h.row
    exact absurd ((Db.get_of_wins hφ hx hnew).1 r hr) hstate

theorem Unsendable.env {e : EntryEnv} (h : Unsendable s.world s.trace oid)
    (he : e.apply s.world = .ok db') : Unsendable db' s.trace oid := by
  obtain ⟨r, hr, hrole, hstate⟩ := h.row
  exact ⟨⟨r, (Db.get_of_env he hrole).mpr hr, hrole, hstate⟩, h.given⟩

/-- An order that is never sent was not sent. -/
theorem Unsendable.posts_nil (h : Unsendable s.world s.trace oid) (honce : Once s) :
    posts oid s.trace = [] := by
  refine posts_eq_nil_iff.mpr fun m => ?_
  by_contra hsent
  exact hsent (h.given m (honce.posted m oid hsent)).1

/-- And is not sent later, whatever the calls and the other components do. -/
theorem Unsendable.unsent {t : EntryState} {ls : List EntryLabel}
    (h : Unsendable s.world s.trace oid) (hs : System.Sound EntryAnswer (EntryProtocol x) s)
    (honce : Once s) (hrun : Run (entrySystem x).Step s ls t) : posts oid t.trace = [] := by
  obtain ⟨-, honce', h'⟩ := entry_inv (G := fun _ _ => True)
    (I := fun s => Once s ∧ Unsendable s.world s.trace oid)
    (fun s i hs h _ => ⟨once_started h.1 hs.2 i _, h.2⟩)
    (fun s n i o k c a db' _ h hn hφ hx _ => ⟨once_acted h.1 hn hφ hx, h.2.acted hx hφ⟩)
    (fun s e db' h he _ => ⟨once_env h.1 he, h.2.env he⟩)
    hs ⟨honce, h⟩ (hrun.mono fun _ _ _ h => ⟨trivial, h⟩)
  exact h'.posts_nil honce'

/-! ## Causes -/

theorem ReportedTerminal.mono {trace trace' : List (ℕ × EntryEvent)}
    (h : ReportedTerminal trace oid) (hsub : ∀ n, own n trace ⊆ own n trace') :
    ReportedTerminal trace' oid := by
  obtain ⟨m, result, hreports, hterminal⟩ := h
  exact ⟨m, result, hreports.mono (hsub m), hterminal⟩

theorem TerminalCause.acted {a : Except ExecutionError (EntryAns o)}
    (h : TerminalCause db s.world s.trace oid) (hx : entryExec o s.world c = (a, db'))
    (hφ : EntryProtocol x i (own n s.trace) o) :
    TerminalCause db db' (s.acted n i ⟨o, a⟩ p db').trace oid := by
  cases h with
  | recorded h terminal => exact .recorded h terminal
  | reported h => exact .reported (h.mono (own_subset_append _ _))
  | unsendable h => exact .unsendable (h.acted hx hφ)

theorem TerminalCause.env {e : EntryEnv} (h : TerminalCause db s.world s.trace oid)
    (he : e.apply s.world = .ok db') : TerminalCause db db' s.trace oid := by
  cases h with
  | recorded h terminal => exact .recorded h terminal
  | reported h => exact .reported h
  | unsendable h => exact .unsendable (h.env he)

/-- A call that won the order and has not sent it forgoes it by a terminal write. -/
theorem forgone_of_unsent {r : LiveIntentRecord} (honce : Once s) (h : Unsent (own n s.trace) r) :
    Forgone n s.trace r.clientOid := by
  intro m hwon
  obtain rfl := eq_of_won honce.unique hwon h.won
  exact ⟨h.unsent, Or.inl rfl⟩

/-- A child whose POST its submission has not claimed is won by no call. -/
theorem forgone_of_unclaimed {m l : LiveIntentRecord} (honce : Once s)
    (hfresh : FreshClaims x db s.world s.trace)
    (hsplit : (⟨.claimSplit m l, .ok true⟩ : EntryEvent) ∈ own n s.trace)
    (hunclaimed : Never EntryOp.claimsPost (own n s.trace)) : Forgone n s.trace l.clientOid := by
  obtain ⟨d, -, hl⟩ := hfresh.names n _ hsplit
  intro k hwon
  rw [hl] at hwon
  have hroot : m.clientOid ∈ won (own n s.trace) := mem_won.mpr ⟨_, hsplit, by simp [wins]⟩
  obtain rfl := eq_of_won honce.unique (hfresh.root_won hwon) hroot
  have := hunclaimed _ (hfresh.child_won hwon)
  simp [EntryOp.claimsPost] at this

/-- The terminal write of an order that every other claimer has given up. -/
theorem unsendable_of_forgone {record : LiveIntentRecord} {a : Except ExecutionError Unit}
    (h : Forgone n s.trace record.clientOid) (hterminal : record.providerTerminal = true)
    (hrow : ∃ r, db'.get record.clientOid = some r ∧ r.role = .entry ∧ r.state ≠ .staged) :
    Unsendable db' (s.acted n i ⟨.update record, a⟩ p db').trace record.clientOid := by
  refine ⟨hrow, fun m hwon => ?_⟩
  have hold : record.clientOid ∈ won (own m s.trace) := by
    rcases mem_won_acted.mp hwon with hold | ⟨-, hnew⟩
    · exact hold
    · simp [wins] at hnew
  obtain ⟨hunsent, hforgone⟩ := h m hold
  rw [State.own_acted]
  refine ⟨never_append.mpr ⟨hunsent, ?_⟩, fun hno => ?_⟩
  · split
    · exact never_cons.mpr ⟨rfl, never_nil _⟩
    · exact never_nil _
  · obtain ⟨hopen, hlast⟩ := never_append.mp hno
    rcases hforgone with rfl | hclosed
    · simp [EntryOp.closes, hterminal] at hlast
    · exact hclosed hopen

/-- The operation retires no child, read as staged, that another call may have sent or may send. -/
abbrev OpRetiresForgone (s : EntryState) (n : ℕ) (o : EntryOp) : Prop :=
  ∀ r : LiveIntentRecord, o = .update r.retired →
    (⟨.get r.clientOid, .ok (some r)⟩ : EntryEvent) ∈ own n s.trace → r.state = .staged →
      Forgone n s.trace r.clientOid

/-- What a terminal update that is applied is due to. -/
theorem cause_of_update {record : LiveIntentRecord} {a : Except ExecutionError Unit}
    (honce : Once s) (hfresh : FreshClaims x db s.world s.trace) (h : Caused db s.world s.trace)
    (hx : entryExec (.update record) s.world c = (a, db'))
    (hreason : UpdateReason (own n s.trace) record)
    (hretires : OpRetiresForgone s n (.update record))
    (hterminal : record.providerTerminal = true)
    {r' : LiveIntentRecord} (hrow : s.world.get record.clientOid = some r')
    (hrole : r'.role = .entry) (hwritten : db'.get record.clientOid = some (record.written r')) :
    TerminalCause db db' (s.acted n i ⟨.update record, a⟩ p db').trace record.clientOid := by
  have hφ : EntryProtocol x i (own n s.trace) (.update record) := hreason
  have hentry : ∀ row, s.world.get record.clientOid = some row → row.role = .entry :=
    fun row hr => by
      obtain rfl := Option.some.inj (hrow.symm.trans hr)
      exact hrole
  have hheld : ∀ r : LiveIntentRecord, r.clientOid = record.clientOid → Held (own n s.trace) r →
      r.providerTerminal = true →
      TerminalCause db db' (s.acted n i ⟨.update record, a⟩ p db').trace record.clientOid :=
    fun r hoid hr hpt => by
      have := (h.held n r hr hpt (hoid ▸ hentry)).acted (p := p) hx hφ
      rwa [hoid] at this
  have hforgone : Forgone n s.trace record.clientOid →
      TerminalCause db db' (s.acted n i ⟨.update record, a⟩ p db').trace record.clientOid :=
    fun hforgone => .unsendable (unsendable_of_forgone hforgone hterminal
      ⟨_, hwritten, hrole, hreason.state_ne_staged⟩)
  cases hreason with
  | @readback r result held reports _ =>
    exact .reported ⟨n, result, reports.mono (own_subset_append _ _ n), hterminal⟩
  | @refused r unsent => exact hforgone (forgone_of_unsent (r := r) honce unsent)
  | @refusedAmbiguous r unsent => exact hforgone (forgone_of_unsent (r := r) honce unsent)
  | @withdrawn r _ unsent _ => exact hforgone (forgone_of_unsent (r := r) honce unsent)
  | @ambiguous r held => exact hheld r rfl held hterminal
  | @unclaimed m l split unclaimed =>
    exact hforgone (forgone_of_unclaimed (l := l) honce hfresh split unclaimed)
  | @staged r _ read staged _ => exact hforgone (hretires r rfl read staged)
  | @settled r settles =>
    obtain ⟨root, hroot, rfl | ⟨limit, -, hsum⟩⟩ := settles.base
    · exact hheld r rfl (.written hroot) hterminal
    · -- the sum of the legs has the flag of the root
      obtain ⟨hoid, -, hflag⟩ := aggregateSplit_eq hsum
      exact hheld root hoid.symm (.written hroot) (hflag.symm.trans hterminal)

end Steps

/-! ## Terminal rows -/

section Rows

variable {x : BitgetDispatchExecution} {db db' : Db} {s : EntryState} {oid : String} {n : ℕ}
  {o : EntryOp} {c : EntryChoice} {i : EntryCall} {p : EntryProg Unit}

/-- A terminal entry row after an operation. -/
theorem cause_of_row {a : Except ExecutionError (EntryAns o)} (honce : Once s)
    (hfresh : FreshClaims x db s.world s.trace) (h : Caused db s.world s.trace)
    (hx : entryExec o s.world c = (a, db')) (hφ : EntryProtocol x i (own n s.trace) o)
    (hretires : OpRetiresForgone s n o) {r : LiveIntentRecord} (hr : db'.get oid = some r)
    (hrole : r.role = .entry) (hterminal : r.providerTerminal = true) :
    TerminalCause db db' (s.acted n i ⟨o, a⟩ p db').trace oid := by
  have hchange := Db.intentChange_of_exec hx oid
  obtain ⟨row, hrow⟩ : ∃ row, s.world.get oid = row := ⟨_, rfl⟩
  rw [hr, hrow] at hchange
  cases hchange with
  | kept => exact (h.rows oid r hrow hrole hterminal).acted hx hφ
  | claimed hoid => cases hterminal
  | market hoid => cases hterminal
  | limit hoid => cases hterminal
  | @postClaimed row => exact (h.rows oid row hrow hrole hterminal).acted hx hφ
  | @cancelClaimed row mid =>
    -- a staged leg is won by no call
    have hstaged : row.state = .staged := of_decide_eq_true hterminal
    refine .unsendable ⟨⟨_, hr, hrole, by simp [LiveIntentRecord.cancelClaimed, hstaged]⟩,
      fun m hwon => ?_⟩
    rcases mem_won_acted.mp hwon with hold | ⟨-, hnew⟩
    · obtain ⟨row', hrow', -, hstate⟩ := honce.row m oid hold
      obtain rfl := Option.some.inj (hrow.symm.trans hrow')
      exact absurd hstaged hstate
    · simp [wins] at hnew
  | @cancelPosted row => exact (h.rows oid row hrow hrole hterminal).acted hx hφ
  | @written row record hoid =>
    subst hoid
    rcases Bool.or_eq_true_iff.mp hterminal with hold | hnew
    · exact (h.rows _ row hrow hrole hold).acted hx hφ
    · exact cause_of_update honce hfresh h hx hφ hretires hnew hrow hrole hr
  | settledAbsent hne => exact absurd hrole hne

/-- A terminal record an operation puts into the hands of its call. -/
theorem cause_of_heldBy {a : Except ExecutionError (EntryAns o)} (honce : Once s)
    (hfresh : FreshClaims x db s.world s.trace) (h : Caused db s.world s.trace)
    (hx : entryExec o s.world c = (a, db')) (hφ : EntryProtocol x i (own n s.trace) o)
    (hretires : OpRetiresForgone s n o) {r : LiveIntentRecord} (hr : r ∈ heldBy ⟨o, a⟩)
    (hterminal : r.providerTerminal = true)
    (hentry : ∀ row, db'.get r.clientOid = some row → row.role = .entry) :
    TerminalCause db db' (s.acted n i ⟨o, a⟩ p db').trace r.clientOid := by
  have hbefore := entry_before hx r.clientOid hentry
  rcases heldBy_cases hx hφ hr with hrow | ⟨-, hopen⟩ | ⟨rfl, row, hrow, hwritten⟩
  · exact (h.rows _ r hrow (hbefore r hrow) hterminal).acted hx hφ
  · rw [hopen] at hterminal
    cases hterminal
  · exact cause_of_update honce hfresh h hx hφ hretires hterminal hrow (hbefore row hrow) hwritten

/-- One operation of a call. -/
theorem Caused.acted {a : Except ExecutionError (EntryAns o)} (h : Caused db s.world s.trace)
    (honce : Once s) (hfresh : FreshClaims x db s.world s.trace)
    (hx : entryExec o s.world c = (a, db')) (hφ : EntryProtocol x i (own n s.trace) o)
    (hretires : OpRetiresForgone s n o) :
    Caused db db' (s.acted n i ⟨o, a⟩ p db').trace := by
  refine ⟨fun oid r hr hrole hterminal =>
    cause_of_row honce hfresh h hx hφ hretires hr hrole hterminal, fun m r hr hterminal hentry => ?_⟩
  have hkept : Held (own m s.trace) r →
      TerminalCause db db' (s.acted n i ⟨o, a⟩ p db').trace r.clientOid := fun hr =>
    (h.held m r hr hterminal (entry_before hx _ hentry)).acted hx hφ
  rw [State.own_acted] at hr
  split at hr
  next heq =>
    subst heq
    rcases held_snoc hr with hr | hr
    · exact hkept hr
    · exact cause_of_heldBy honce hfresh h hx hφ hretires hr hterminal hentry
  · exact hkept (by simpa using hr)

/-- A write of another component. -/
theorem Caused.env {e : EntryEnv} (h : Caused db s.world s.trace)
    (he : e.apply s.world = .ok db') : Caused db db' s.trace where
  rows oid r hr hrole hterminal :=
    (h.rows oid r ((Db.get_of_env he hrole).mp hr) hrole hterminal).env he
  held n r hr hterminal hentry := by
    refine (h.held n r hr hterminal fun row hrow => ?_).env he
    rcases Db.env_cases he r.clientOid with heq | ⟨r', hr', hne', hne⟩
    · exact hentry row (heq.trans hrow)
    · exact absurd (hentry r' hr') hne'

end Rows

/-! ## Runs -/

section TerminalRuns

variable {x : BitgetDispatchExecution} {db : Db} {s : EntryState} {ls : List EntryLabel}

theorem caused_run (hrun : Run (EntryStep x RetiresForgone) (State.init db) ls s) :
    System.Sound EntryAnswer (EntryProtocol x) s ∧ Once s ∧
      FreshClaims x db s.world s.trace ∧ Caused db s.world s.trace := by
  refine entry_inv
    (I := fun s => Once s ∧ FreshClaims x db s.world s.trace ∧ Caused db s.world s.trace)
    (fun s i hs h _ => ⟨once_started h.1 hs.2 i _, h.2⟩)
    (fun s n i o k c a db' _ h hn hφ hx hG => ?_)
    (fun s e db' h he _ => ⟨once_env h.1 he, h.2.1.env he, h.2.2.env he⟩)
    (System.sound_init db) ⟨once_init db, ?_, ?_⟩ hrun
  · obtain ⟨honce, hfresh, hcaused⟩ := h
    have hnext : s.next n = some (i, o) := State.next_eq_some.mpr ⟨k, hn⟩
    refine ⟨once_acted honce hn hφ hx, hfresh.acted hx hφ, hcaused.acted honce hfresh hx hφ ?_⟩
    rintro r rfl
    exact hG n c i r rfl hnext
  · refine ⟨fun n e he => ?_, fun oid h => h, fun n r he => ?_, fun n m l he => ?_⟩ <;>
      simp [State.init, own] at he
  · refine ⟨fun oid r hr _ hterminal => .recorded hr hterminal, fun n r hr _ _ => ?_⟩
    cases hr <;> simp_all [State.init, own]

/-- The row of an open order is among the pending entries exactly while it is owned. -/
theorem mem_pendingEntryIds {oid : String} {r : LiveIntentRecord} {w : Db} (hr : w.get oid = some r)
    (hopen : r.providerTerminal = false) (symbol : Option String) (managementId : Option Uuid) :
    oid ∈ w.pendingEntryIds symbol managementId ↔
      w.ownedEntry r = true ∧ symbol.all (· = r.symbol) = true := by
  obtain ⟨row, hrow, rfl⟩ := Option.map_eq_some_iff.mp hr
  constructor
  · intro h
    obtain ⟨row', hmem', hoid⟩ := List.mem_map.mp h
    obtain ⟨hmem, hcond⟩ := List.mem_filter.mp hmem'
    obtain rfl : row = row' := Option.some.inj
      (hrow.symm.trans (Db.intentRow_eq_some.mpr ⟨hmem, hoid⟩))
    simp only [Bool.and_eq_true] at hcond
    exact ⟨hcond.1.1, hcond.2⟩
  · rintro ⟨howned, hsymbol⟩
    obtain ⟨hmem, rfl⟩ := Db.intentRow_eq_some.mp hrow
    refine List.mem_map.mpr ⟨row, List.mem_filter.mpr ⟨hmem, ?_⟩, rfl⟩
    simp only [howned, hopen, hsymbol, Bool.not_false, Bool.true_or, Bool.and_self]

/-- Recovery reads the order of a child that is neither staged nor terminal. -/
theorem reconcileWaitingLeg_reads {root limit sum : LiveIntentRecord}
    (hsum : aggregateSplit root limit = some sum) (hstate : limit.state ≠ .staged)
    (hopen : limit.providerTerminal = false) :
    ∃ k, reconcileWaitingLeg root limit = .op (.readOrder limit.symbol limit.clientOid) k := by
  have hsplit : requireSplit root limit = pure sum := by
    rw [requireSplit, hsum]
    rfl
  rw [reconcileWaitingLeg, hsplit]
  simp only [if_neg hstate, hopen]
  exact ⟨_, rfl⟩

end TerminalRuns

/-! ## A child that is sent and retired -/

/-- The split entry until its root is filled and protected, and its child is to be claimed. -/
def childWaiting : List EntryLabel :=
  .start (.submit marketDispatch splitSubmission) ::
    (List.replicate 6 EntryChoice.passing ++ [EntryChoice.notDegraded] ++
      List.replicate 5 EntryChoice.passing ++ List.replicate 3 EntryChoice.rootFilled).map (.act 0)

/-- Recovery reads the child as staged, and retires it in its next step. -/
def childRead : List EntryLabel :=
  childWaiting ++ .start .recover :: List.replicate 4 (.act 1 .rootFilled)

/-- The submission claims the child and sends it in between. -/
def childOvertaken : List EntryLabel :=
  childRead ++ ([EntryChoice.passing, .passing, .notDegraded] ++
    List.replicate 6 EntryChoice.passing).map (.act 0) ++ ([.act 1 .passing] : List EntryLabel)

/-- The steps but the ones that retire a claimed child. -/
def unclaimedStep (s : EntryState) (l : EntryLabel) : Option EntryState :=
  match l with
  | .act n _ =>
    match s.next n with
    | some (_, .update record) =>
      if record.state = .cancelled && s.trace.any fun q => (wins q.2).contains record.clientOid
        then none else (entrySystem .plain).step s l
    | _ => (entrySystem .plain).step s l
  | _ => (entrySystem .plain).step s l

theorem entryStep_of_unclaimedStep {s t : EntryState} {l : EntryLabel}
    (h : unclaimedStep s l = some t) : EntryStep .plain RetiresForgone s l t := by
  unfold unclaimedStep at h
  refine ⟨?_, ?_⟩
  · rintro n c i r rfl hn - - m hwon
    obtain ⟨e, he, hw⟩ := mem_won.mp hwon
    simp only [hn] at h
    rw [if_pos] at h
    · cases h
    · refine Bool.and_eq_true_iff.mpr ⟨rfl, List.any_eq_true.mpr ⟨(m, e), mem_own.mp he, ?_⟩⟩
      exact List.contains_iff_mem.mpr hw
  · split at h
    · split at h
      · split at h
        · cases h
        · exact h
      · exact h
    · exact h

/-- Nothing is reported of an order that no call reads. -/
theorem not_reportedTerminal {trace : List (ℕ × EntryEvent)} {oid : String}
    (h : ∀ q ∈ trace, q.2.op.readsOrder oid = false) : ¬ ReportedTerminal trace oid := by
  rintro ⟨n, result, ⟨r, submitted, reading, rfl, hmem, -⟩, -⟩
  have := h _ (mem_own.mp hmem)
  simp [EntryOp.readsOrder] at this

end FattyTrader
