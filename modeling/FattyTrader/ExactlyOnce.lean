import FattyTrader.EntryRows
import Mathlib.Data.List.Nodup
import Mathlib.Tactic.NormNum

/-!
# At most one POST for each client order id

The intent row of a client order id is the lock of its order : `claim`, `claim_split` and
`claim_entry_post` are answered with success at most once for it (`Once.unique`), since the
row that is left behind is neither missing nor staged, and rows are never removed. Only the
call that won the row sends the order (`Once.posted`), and each call sends an order once.

Crashes and restarts are calls that take no more steps and calls that start later, so they
need no case of their own.
-/

set_option linter.unusedSectionVars false

namespace FattyTrader

open Runs Programs

/-- The client order id of the entry a submission or a dispatch is about. -/
def EntryCall.entryOid (x : BitgetDispatchExecution) : EntryCall → Option String
  | .submit d _ => some (x.clientOid d)
  | .dispatch d _ _ => some (x.clientOid d)
  | _ => none

theorem entryOid_of_admits {x : BitgetDispatchExecution} {es : List EntryEvent}
    {d : BitgetDispatch} {id : Uuid} {i : EntryCall} {oid : String} (h : Admits x es d id i)
    (hoid : i.entryOid x = some oid) : x.clientOid d = oid := by
  cases i with
  | submit d' s =>
    obtain ⟨rfl, -⟩ := h
    exact Option.some.inj hoid
  | dispatch d' request sizing =>
    obtain ⟨rfl, -⟩ := h
    exact Option.some.inj hoid
  | recover => exact h.elim
  | cancel symbol mid ro => exact h.elim

/-- The POSTs of a client order id, with the calls they belong to. -/
def posts (oid : String) (tr : List (ℕ × EntryEvent)) : List (ℕ × EntryEvent) :=
  tr.filter fun q => q.2.op.sends oid

theorem posts_snoc (oid : String) (tr : List (ℕ × EntryEvent)) (q : ℕ × EntryEvent) :
    posts oid (tr ++ [q]) = posts oid tr ++ if q.2.op.sends oid then [q] else [] := by
  simp only [posts, List.filter_append, List.filter_cons, List.filter_nil]

/-! ## Winners -/

section Winners

variable {tr : List (ℕ × EntryEvent)} {oid : String} {m n : ℕ}

theorem mem_won {es : List EntryEvent} : oid ∈ won es ↔ ∃ e ∈ es, oid ∈ wins e :=
  List.mem_flatMap

/-- A client order id that is won once is won by one call. -/
theorem eq_of_won (h : (tr.flatMap fun q => wins q.2).Nodup) (hm : oid ∈ won (own m tr))
    (hn : oid ∈ won (own n tr)) : m = n := by
  obtain ⟨e, he, hwe⟩ := mem_won.mp hm
  obtain ⟨e', he', hwe'⟩ := mem_won.mp hn
  by_contra hne
  have hsymm : Std.Symm (Function.onFun List.Disjoint fun q : ℕ × EntryEvent => wins q.2) :=
    ⟨fun _ _ h _ hoid hoid' => h hoid' hoid⟩
  have hpairs := (List.nodup_flatMap.mp h).2
  have hdisj := hpairs.forall (mem_own.mp he) (mem_own.mp he') fun heq => hne (Prod.mk.inj heq).1
  exact hdisj hwe hwe'

theorem won_of_postClaimed (h : (m, (⟨.claimEntryPost oid, .ok true⟩ : EntryEvent)) ∈ tr) :
    oid ∈ won (own m tr) :=
  mem_won.mpr ⟨_, mem_own.mpr h, by simp [wins]⟩

theorem wins_nodup (e : EntryEvent) : (wins e).Nodup := by
  unfold wins
  split <;> simp

end Winners

/-! ## The invariant -/

/-- The rows of the won intents, their one winner, and what was sent. -/
structure Once (s : EntryState) : Prop where
  row : ∀ n oid, oid ∈ won (own n s.trace) →
    ∃ r, s.world.get oid = some r ∧ r.role = .entry ∧ r.state ≠ .staged
  unique : (s.trace.flatMap fun q => wins q.2).Nodup
  posted : ∀ n oid, ¬ Never (EntryOp.sends oid) (own n s.trace) → oid ∈ won (own n s.trace)
  once : ∀ oid, (posts oid s.trace).length ≤ 1
  requested : ∀ n i, s.kind n = some i → (∀ symbol mid ro, i ≠ .cancel symbol mid ro) →
    won (own n s.trace) = [] → Never EntryOp.requests (own n s.trace)

namespace Db

variable {db db' : Db} {oid : String}

/-- The row of an entry that is not staged stays so. -/
theorem IntentChange.unstaged {o : EntryOp} {r r' : LiveIntentRecord}
    (h : IntentChange oid o (some r) (some r')) (hrole : r.role = .entry)
    (hstate : r.state ≠ .staged) (hupdate : ∀ record, o = .update record → record.state ≠ .staged) :
    r'.role = .entry ∧ r'.state ≠ .staged := by
  cases h with
  | kept => exact ⟨hrole, hstate⟩
  | postClaimed => exact ⟨hrole, by simp [LiveIntentRecord.postClaimed]⟩
  | cancelClaimed => exact ⟨hrole, by simp [LiveIntentRecord.cancelClaimed, hstate]⟩
  | cancelPosted => exact ⟨hrole, hstate⟩
  | @written _ record _ => exact ⟨hrole, hupdate record rfl⟩
  | settledAbsent => exact ⟨hrole, by simp [LiveIntentRecord.settledAbsent]⟩

/-- What is won had no row, or a staged one, and has a requested one afterwards. -/
theorem get_of_wins {x : BitgetDispatchExecution} {i : EntryCall} {es : List EntryEvent}
    {o : EntryOp} {c : EntryChoice} {a : Except ExecutionError (EntryAns o)}
    (hφ : EntryProtocol x i es o) (h : entryExec o db c = (a, db'))
    (hwon : oid ∈ wins ⟨o, a⟩) :
    (∀ r, db.get oid = some r → r.state = .staged) ∧
      ∃ r, db'.get oid = some r ∧ r.role = .entry ∧ r.state ≠ .staged := by
  unfold wins at hwon
  split at hwon
  next r heq =>
    cases heq
    obtain rfl := List.mem_singleton.mp hwon
    obtain ⟨hnone, hget, -⟩ := get_of_claim h
    obtain ⟨d, s, -, rfl, -⟩ := hφ
    exact ⟨fun r hr => by simp [hnone] at hr, _, hget, rfl,
      by simp [LiveIntentRecord.inserted, BitgetDispatchExecution.intent]⟩
  next m l heq =>
    cases heq
    obtain rfl := List.mem_singleton.mp hwon
    obtain ⟨hnone, -, hget, -⟩ := get_of_claimSplit h
    obtain ⟨d, s, route, -, rfl, -⟩ := hφ
    exact ⟨fun r hr => by simp [hnone] at hr, _, hget, rfl,
      by simp [LiveIntentRecord.inserted, BitgetDispatchExecution.splitRoot,
        BitgetDispatchExecution.intent]⟩
  next oid' heq =>
    cases heq
    obtain rfl := List.mem_singleton.mp hwon
    obtain ⟨r, hr, hget, hrole, hstaged, -⟩ := get_of_claimEntryPost h
    refine ⟨fun r' hr' => ?_, _, hget, hrole, by simp [LiveIntentRecord.postClaimed]⟩
    obtain rfl := Option.some.inj (hr.symm.trans hr')
    exact hstaged
  · simp at hwon

end Db

/-! ## Steps -/

section Steps

variable {x : BitgetDispatchExecution} {s : EntryState} {n : ℕ} {i : EntryCall} {o : EntryOp}
  {c : EntryChoice} {a : Except ExecutionError (EntryAns o)} {db' : Db}

theorem mem_won_acted {k : EntryProg Unit} {m : ℕ} {oid : String} :
    oid ∈ won (own m (s.acted n i ⟨o, a⟩ k db').trace) ↔
      oid ∈ won (own m s.trace) ∨ (m = n ∧ oid ∈ wins ⟨o, a⟩) := by
  rw [State.own_acted]
  by_cases h : m = n
  · simp [h, won]
  · simp [h]

theorem once_started (h : Once s) (hlt : ∀ q ∈ s.trace, q.1 < s.calls.length) (i : EntryCall)
    (p : EntryProg Unit) : Once (s.started i p) := by
  refine ⟨h.row, h.unique, h.posted, h.once, fun n j hj hne hwon => ?_⟩
  rw [State.kind_started] at hj
  split at hj
  next heq =>
    have hnil : own n s.trace = [] := System.own_eq_nil hlt (by omega)
    simp [State.started, hnil]
  · exact h.requested n j hj hne hwon

/-- What is sent was won by the call that sends it. -/
theorem won_of_sends {es : List EntryEvent} {order : EntryOrder} (h : Sends x es i order) :
    order.clientOid ∈ won es := by
  obtain ⟨d, id, r, -, rfl, -, hmay, -⟩ := h.entry
  rcases hmay with ⟨-, hwon⟩ | ⟨-, hclaimed, -⟩
  · exact hwon
  · exact mem_won.mpr ⟨_, hclaimed, by simp [wins, BitgetDispatchExecution.entryOrder]⟩

/-- An entry row that is not staged stays so. -/
theorem unstaged_of_exec {oid : String} (hx : entryExec o s.world c = (a, db'))
    (hφ : EntryProtocol x i (own n s.trace) o)
    (h : ∃ r, s.world.get oid = some r ∧ r.role = .entry ∧ r.state ≠ .staged) :
    ∃ r, db'.get oid = some r ∧ r.role = .entry ∧ r.state ≠ .staged := by
  obtain ⟨r, hr, hrole, hstate⟩ := h
  have hchange := Db.intentChange_of_exec hx oid
  rw [hr] at hchange
  obtain ⟨r', hr'⟩ := hchange.exists_some
  rw [hr'] at hchange
  refine ⟨r', hr', hchange.unstaged hrole hstate fun record heq => ?_⟩
  subst heq
  exact UpdateReason.state_ne_staged hφ

theorem once_acted (h : Once s) {k : Except ExecutionError (EntryAns o) → EntryProg Unit}
    (hn : s.calls[n]? = some (i, .op o k)) (hφ : EntryProtocol x i (own n s.trace) o)
    (hx : entryExec o s.world c = (a, db')) : Once (s.acted n i ⟨o, a⟩ (k a) db') := by
  refine ⟨fun m oid hwon => ?_, ?_, fun m oid hsent => ?_, fun oid => ?_, fun m j hj hne hwon => ?_⟩
  · rcases mem_won_acted.mp hwon with hold | ⟨-, hnew⟩
    · exact unstaged_of_exec hx hφ (h.row m oid hold)
    · exact (Db.get_of_wins hφ hx hnew).2
  · have hfresh : ∀ oid ∈ s.trace.flatMap (fun q => wins q.2), oid ∉ wins ⟨o, a⟩ := by
      intro oid hold hnew
      obtain ⟨q, hq, hw⟩ := List.mem_flatMap.mp hold
      obtain ⟨r, hr, -, hstate⟩ := h.row q.1 oid (mem_won.mpr ⟨q.2, mem_own.mpr hq, hw⟩)
      exact hstate ((Db.get_of_wins hφ hx hnew).1 r hr)
    simp only [State.acted, List.flatMap_append, List.flatMap_cons, List.flatMap_nil,
      List.append_nil]
    rw [List.nodup_append]
    refine ⟨h.unique, wins_nodup _, fun oid hold oid' hnew heq => ?_⟩
    subst heq
    exact hfresh oid hold hnew
  · rw [mem_won_acted]
    by_contra hnot
    push Not at hnot
    refine hsent ?_
    rw [State.own_acted]
    have hnever : Never (EntryOp.sends oid) (own m s.trace) := by
      by_contra hn'
      exact hnot.1 (h.posted m oid hn')
    split
    next heq =>
      subst heq
      refine never_append.mpr ⟨hnever, never_cons.mpr ⟨?_, never_nil _⟩⟩
      by_contra hsends
      cases o with
      | placeEntryOrder order =>
        have hoid : order.clientOid = oid := by simpa [EntryOp.sends] using hsends
        have := won_of_sends hφ
        rw [hoid] at this
        exact hnot.1 this
      | _ => simp [EntryOp.sends] at hsends
    · simpa using hnever
  · rw [show (s.acted n i ⟨o, a⟩ (k a) db').trace = s.trace ++ [(n, ⟨o, a⟩)] from rfl, posts_snoc]
    split
    next hsends =>
      cases o with
      | placeEntryOrder order =>
        obtain rfl : order.clientOid = oid := by simpa [EntryOp.sends] using hsends
        have hnone : posts order.clientOid s.trace = [] := by
          rw [posts, List.filter_eq_nil_iff]
          intro q hq hq'
          have hother : order.clientOid ∈ won (own q.1 s.trace) := by
            refine h.posted q.1 _ fun hnever => ?_
            have := hnever q.2 (mem_own.mpr hq)
            simp [this] at hq'
          have heq : q.1 = n := eq_of_won h.unique hother (won_of_sends hφ)
          have := hφ.unsent q.2 (by rw [← heq]; exact mem_own.mpr hq)
          simp [this] at hq'
        simp [hnone]
      | _ => simp [EntryOp.sends] at hsends
    · simpa using h.once oid
  · rw [State.kind_acted hn] at hj
    have hnil : won (own m s.trace) = [] := by
      rw [State.own_acted, won_append] at hwon
      exact (List.append_eq_nil_iff.mp hwon).1
    rw [State.own_acted]
    refine never_append.mpr ⟨h.requested m j hj hne hnil, ?_⟩
    split
    next heq =>
      subst heq
      obtain rfl : i = j := by
        rw [State.kind_of_call hn] at hj
        exact Option.some.inj hj
      refine never_cons.mpr ⟨?_, never_nil _⟩
      by_contra hreq
      cases o with
      | placeEntryOrder order => exact won_ne_nil (won_of_sends hφ) hnil
      | ensureLeverage symbol leverage => exact hφ hnil
      | protectFilledPosition oid quantity => exact hφ hnil
      | cancelEntryOrder symbol oid =>
        obtain ⟨symbol', mid, ro, hi⟩ := hφ
        exact hne symbol' mid ro hi
      | _ => simp [EntryOp.requests] at hreq
    · exact never_nil _

theorem once_env (h : Once s) {e : EntryEnv} {w : Db} (he : e.apply s.world = .ok w) :
    Once { s with world := w } := by
  refine ⟨fun n oid hwon => ?_, h.unique, h.posted, h.once, h.requested⟩
  obtain ⟨r, hr, hrole, hstate⟩ := h.row n oid hwon
  exact ⟨r, (Db.get_of_env he hrole).mpr hr, hrole, hstate⟩

end Steps

/-! ## Runs -/

section OnceRuns

variable {x : BitgetDispatchExecution} {db : Db} {s t : EntryState} {ls ls' : List EntryLabel}

theorem once_init (db : Db) : Once (State.init db : EntryState) := by
  refine ⟨fun n oid h => ?_, ?_, fun n oid h => ?_, fun oid => ?_, fun n i h => ?_⟩
  · simp [State.init, won] at h
  · simp [State.init]
  · simp [State.init] at h
  · simp [State.init, posts]
  · simp [State.init, State.kind] at h

theorem once_run (hrun : Run (entrySystem x).Step (State.init db) ls s) :
    System.Sound EntryAnswer (EntryProtocol x) s ∧ Once s := by
  refine entry_inv (G := fun _ _ => True) (fun s i hs h _ => ?_)
    (fun s n i o k c a db' _ h hn hφ hx _ => ?_) (fun s e db' h he _ => ?_)
    (System.sound_init db) (once_init db) (hrun.mono fun _ _ _ h => ⟨trivial, h⟩)
  · exact once_started h hs.2 i _
  · exact once_acted h hn hφ hx
  · exact once_env h he

/-- The rows and the losers of `s` in a later state. -/
structure Replays (x : BitgetDispatchExecution) (s t : EntryState) : Prop where
  row : ∀ oid r, s.world.get oid = some r → r.role = .entry →
    ∃ r', t.world.get oid = some r' ∧ r'.role = .entry
  lost : ∀ n i oid r, t.kind n = some i → i.entryOid x = some oid → s.world.get oid = some r →
    r.role = .entry → won (own n s.trace) = [] → won (own n t.trace) = []

theorem replays_acted (h : Replays x s t) {n : ℕ} {i : EntryCall} {o : EntryOp} {c : EntryChoice}
    {a : Except ExecutionError (EntryAns o)} {db' : Db}
    {k : Except ExecutionError (EntryAns o) → EntryProg Unit}
    (hn : t.calls[n]? = some (i, .op o k)) (hφ : EntryProtocol x i (own n t.trace) o)
    (hx : entryExec o t.world c = (a, db')) : Replays x s (t.acted n i ⟨o, a⟩ (k a) db') := by
  refine ⟨fun oid r hr hrole => ?_, fun m j oid r hj hoid hr hrole hwon => ?_⟩
  · obtain ⟨r', hr', hrole'⟩ := h.row oid r hr hrole
    have hchange := Db.intentChange_of_exec hx oid
    rw [hr'] at hchange
    obtain ⟨r'', hr''⟩ := hchange.exists_some
    rw [hr''] at hchange
    refine ⟨r'', hr'', ?_⟩
    have := congrArg LiveIntentRecord.role hchange.order_eq
    exact this.trans hrole'
  · rw [State.kind_acted hn] at hj
    have hold := h.lost m j oid r hj hoid hr hrole hwon
    rw [State.own_acted, won_append, hold, List.nil_append]
    split
    next heq =>
      subst heq
      obtain rfl : i = j := by
        rw [State.kind_of_call hn] at hj
        exact Option.some.inj hj
      obtain ⟨r', hr', -⟩ := h.row oid r hr hrole
      rw [won, List.flatMap_cons, List.flatMap_nil, List.append_nil]
      unfold wins
      split
      next record heq =>
        cases heq
        obtain ⟨d, s', hadmits, rfl, -⟩ := hφ
        obtain ⟨hnone, -⟩ := Db.get_of_claim hx
        have hd : (x.intent d s').clientOid = oid := entryOid_of_admits hadmits hoid
        simp [hd, hr'] at hnone
      next market limit heq =>
        cases heq
        obtain ⟨d, s', route, hadmits, rfl, -⟩ := hφ
        obtain ⟨hnone, -⟩ := Db.get_of_claimSplit hx
        have hd : (x.splitRoot d s' route).clientOid = oid := entryOid_of_admits hadmits hoid
        simp [hd, hr'] at hnone
      next oid' heq =>
        cases heq
        obtain ⟨d, s', route, hsplit, -⟩ := hφ
        have hmem : (x.splitRoot d s' route).clientOid ∈ won (own m t.trace) :=
          mem_won.mpr ⟨_, hsplit, by simp [wins]⟩
        simp [hold] at hmem
      · rfl
    · simp [won]

theorem replays_run (hs : System.Sound EntryAnswer (EntryProtocol x) s)
    (hrun : Run (entrySystem x).Step s ls t) : Replays x s t := by
  have hinit : Replays x s s := ⟨fun oid r hr hrole => ⟨r, hr, hrole⟩, fun _ _ _ _ _ _ _ _ h => h⟩
  refine (entry_inv (G := fun _ _ => True) (I := Replays x s) (fun u i hu h _ => ?_)
    (fun u n i o k c a db' _ h hn hφ hx _ => replays_acted h hn hφ hx)
    (fun u e db' h he _ => ?_) hs hinit (hrun.mono fun _ _ _ h => ⟨trivial, h⟩)).2
  · refine ⟨h.row, fun n j oid r hj hoid hr hrole hwon => ?_⟩
    rw [State.kind_started] at hj
    split at hj
    next heq =>
      have hnil : own n u.trace = [] := System.own_eq_nil hu.2 (by omega)
      simp [State.started, hnil, won]
    · exact h.lost n j oid r hj hoid hr hrole hwon
  · refine ⟨fun oid r hr hrole => ?_, h.lost⟩
    obtain ⟨r', hr', hrole'⟩ := h.row oid r hr hrole
    exact ⟨r', (Db.get_of_env he hrole').mpr hr', hrole'⟩

/-- In every run : each client order id is sent at most once ; a call for an entry whose
intent exists already, and which did not win it, sends no request that changes anything at
the venue ; and a limit child is sent only by the one call whose `claim_entry_post` moved its
intent from staged to requested. -/
theorem entry_posted_once (hs : Run (entrySystem x).Step (State.init db) ls s)
    (ht : Run (entrySystem x).Step s ls' t) :
    (∀ oid, (posts oid t.trace).length ≤ 1) ∧
      (∀ n i oid r, t.kind n = some i → i.entryOid x = some oid → s.world.get oid = some r →
        r.role = .entry → won (own n s.trace) = [] → Never EntryOp.requests (own n t.trace)) ∧
      (∀ rootOid n order a tr tr', t.trace = tr ++ (n, ⟨.placeEntryOrder order, a⟩) :: tr' →
        order.clientOid = limitOid rootOid →
        (n, ⟨.claimEntryPost (limitOid rootOid), .ok true⟩) ∈ tr ∧
          ∀ m, (m, ⟨.claimEntryPost (limitOid rootOid), .ok true⟩) ∈ t.trace → m = n) ∧
      ∀ n oid, (n, ⟨.claimEntryPost oid, .ok true⟩) ∈ t.trace →
        ∃ u v as bs c r, Run (entrySystem x).Step (State.init db) as u ∧
          (entrySystem x).Step u (.act n c) v ∧ Run (entrySystem x).Step v bs t ∧
          u.world.get oid = some r ∧ r.state = .staged ∧ v.world.get oid = some r.postClaimed := by
  have hrun := hs.append ht
  obtain ⟨hsound, honce⟩ := once_run hrun
  refine ⟨honce.once, ?_, ?_, ?_⟩
  · intro n i oid r hi hoid hr hrole hwon
    refine honce.requested n i hi ?_ ((replays_run (once_run hs).1 ht).lost n i oid r hi hoid hr
      hrole hwon)
    rintro symbol mid ro rfl
    cases hoid
  · intro rootOid n order a tr tr' htr hlimit
    obtain ⟨i, -, hφ⟩ := System.protocol_of_event (entry_answers x) (entryProtocol_follows x) hrun htr
    obtain ⟨d, id, r, -, heq, -, hmay, -⟩ := Sends.entry hφ
    have hoid : r.clientOid = limitOid rootOid := by
      rw [← hlimit, heq]
      rfl
    rcases hmay with ⟨hroot, -⟩ | ⟨-, hclaimed, -⟩
    · exact absurd (hroot.symm.trans hoid) (clientOid_ne_limitOid x d rootOid)
    · rw [hoid] at hclaimed
      have hmem := mem_own.mp hclaimed
      refine ⟨hmem, fun m hm => ?_⟩
      have hn : (n, ⟨.claimEntryPost (limitOid rootOid), .ok true⟩) ∈ t.trace := by
        rw [htr]
        exact List.mem_append_left _ hmem
      exact eq_of_won honce.unique (won_of_postClaimed hm) (won_of_postClaimed hn)
  · intro n oid hmem
    rcases System.event_of_run hrun hmem with hinit | ⟨u, v, as, bs, c, i, k, hu, hv, -, hx, -, hbs⟩
    · simp [State.init] at hinit
    · obtain ⟨r, hr, hget, -, hstaged, -⟩ := Db.get_of_claimEntryPost (Option.some.inj hx)
      exact ⟨u, v, as, bs, c, r, hu, hv, hbs, hr, hstaged, hget⟩

end OnceRuns

/-! ## A market entry -/

/-- A `uuid5` that does not matter to a dispatch without a source message. -/
def BitgetDispatchExecution.plain : BitgetDispatchExecution where
  uuid5 _ := 0
  killSwitchEnforced := false
  environment := .live

/-- A market entry in submission. -/
def marketDispatch : BitgetDispatch :=
  ⟨1, .submitting, "BTCUSDT", .long, 100, none, none, .market, none, none, 0, none⟩

def marketOid : String := BitgetDispatchExecution.plain.clientOid marketDispatch

def admittedReservation : MarginReservation where
  id := 11
  dispatchId := 1
  clientOrderId := marketOid
  balanceSnapshotId := 10
  plannedMarginUsdt := 5
  owner := some ⟨.live, "BTCUSDT"⟩
  legacyBindingSymbol := none
  state := .reserved
  hasExposure := false
  createdAt := 0
  expiresAt := 60
  resolvedAt := none
  resolutionReason := none
  planned_pos := by norm_num

/-- The dispatch with its reservation, before the submission. -/
def admittedDb : Db where
  dispatches := ⟨[marketDispatch], by decide⟩
  reservations := ⟨[admittedReservation], by decide⟩

def marketSubmission : BitgetEntrySubmission where
  quantity := 4
  effectiveLeverage := 5
  plannedMarginUsdt := 5
  plannedNotionalUsdt := 25
  balanceSnapshotId := 10
  marginReservationId := 11
  plannedStopLoss := 90
  plannedTakeProfits := [110]
  entryRoute := none
  quantity_pos := by norm_num
  margin_pos := by norm_num
  notional_pos := by norm_num
  leverage_pos := by norm_num
  stopLoss_pos := by norm_num
  takeProfits_ne := by simp
  takeProfits_pos := by norm_num

/-- Every transaction is answered, every check passes, and the venue knows of no order. -/
def EntryChoice.passing : EntryChoice where
  delivery := .answered
  now := 1
  clock := ⟨1, 1, 1⟩
  ids := ⟨10, 11⟩
  fresh := true
  lapsed := false
  issues := []
  flag := true
  reading := ⟨.notFound, .page [] false, .rows [], .rows []⟩
  submitted := .ok ⟨some "1", none⟩
  protection := .error .connection
  symbolReading := .error .connection
  done := .ok ()
  verdict := .ok true

/-- The adapter is not degraded. -/
def EntryChoice.notDegraded : EntryChoice := { EntryChoice.passing with flag := false }

/-- The submission of the market entry, up to its POST. -/
def marketEntryPosted : List EntryLabel :=
  ([.start (.submit marketDispatch marketSubmission)] : List EntryLabel) ++
    (List.replicate 10 (.act 0 .passing) : List EntryLabel) ++
    ([.act 0 .notDegraded] : List EntryLabel) ++
    (List.replicate 5 (.act 0 .passing) : List EntryLabel)

theorem market_entry_posted_once : ∃ t : EntryState,
    posts marketOid t.trace ≠ [] ∧ (posts marketOid t.trace).length ≤ 1 := by
  have h : (replay (entrySystem .plain).step (State.init admittedDb) marketEntryPosted).any
      (fun t => !(posts marketOid t.trace).isEmpty) = true := by decide +kernel
  obtain ⟨t, ht, hposted⟩ := (Option.any_eq_true _ _).mp h
  have hrun : Run (entrySystem .plain).Step (State.init admittedDb) marketEntryPosted t :=
    run_of_replay (fun _ _ _ h => h) ht
  refine ⟨t, ?_, (entry_posted_once (Run.nil _) hrun).1 marketOid⟩
  simpa using hposted

end FattyTrader
