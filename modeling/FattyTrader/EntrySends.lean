import FattyTrader.ExactlyOnce
import FattyTrader.RetiredChildren

/-!
# What leaves the entry path

In every run an order leaves the entry path only as the order of a record the sending call holds,
after that call has won its intent and after the source was found eligible since, and never after
the same call has closed the intent or released a reservation (`entry_sent_vetted`). The limit child
of a split waits for the venue to report its root filled (`limit_follows_root`).
-/

set_option linter.unusedSectionVars false

namespace FattyTrader

open Runs Programs

variable {x : BitgetDispatchExecution} {db : Db} {ls : List EntryLabel} {t : EntryState}

theorem protocol_of_entry (h : Run (entrySystem x).Step (State.init db) ls t)
    {tr tr' : List (ℕ × EntryEvent)} {q : ℕ × EntryEvent} (ht : t.trace = tr ++ q :: tr') :
    ∃ i, t.kind q.1 = some i ∧ EntryProtocol x i (own q.1 tr) q.2.op :=
  System.protocol_of_event (entry_answers x) (entryProtocol_follows x) h ht

/-- The calls that enter a dispatch. -/
theorem entryOid_of_sends {i : EntryCall} {d : BitgetDispatch} {id : Uuid} {es : List EntryEvent}
    (h : Admits x es d id i) : i.entryOid x = some (x.clientOid d) := by
  cases i with
  | submit d' s =>
    obtain ⟨rfl, -⟩ := h
    rfl
  | dispatch d' request sizing =>
    obtain ⟨rfl, -⟩ := h
    rfl
  | recover => exact h.elim
  | cancel symbol mid ro => exact h.elim

theorem sends_iff {oid : String} {o : EntryOp} :
    o.sends oid = true ↔ ∃ order, o = .placeEntryOrder order ∧ order.clientOid = oid := by
  cases o <;> simp [EntryOp.sends]

/-- Two sends of an order are of one call. -/
theorem eq_of_sends (h : Run (entrySystem x).Step (State.init db) ls t) {oid : String} {m n : ℕ}
    (hm : ¬ Never (EntryOp.sends oid) (own m t.trace))
    (hn : ¬ Never (EntryOp.sends oid) (own n t.trace)) : m = n := by
  have honce := (once_run h).2
  exact eq_of_won honce.unique (honce.posted m oid hm) (honce.posted n oid hn)

/-- Every order that is sent is the order of a record the call holds, sent once, by the call of a
dispatch that won its intent and found the source eligible since, which has neither closed the
intent nor released a reservation. No other call sends it. -/
theorem entry_sent_vetted (h : Run (entrySystem x).Step (State.init db) ls t) {n : ℕ}
    {order : EntryOrder} {a : Except ExecutionError Submitted}
    {tr tr' : List (ℕ × EntryEvent)}
    (ht : t.trace = tr ++ (n, ⟨.placeEntryOrder order, a⟩) :: tr') :
    (∃ i d r, t.kind n = some i ∧ i.entryOid x = some (x.clientOid d) ∧
      order = BitgetDispatchExecution.entryOrder r ∧ Held (own n tr) r ∧
        Vetted (own n tr) d.id order.clientOid) ∧
      order.clientOid ∈ won (own n tr) ∧
      Never EntryOp.releases (own n tr) ∧ Never (EntryOp.closes order.clientOid) (own n tr) ∧
      ∀ m, m ≠ n → Never (EntryOp.sends order.clientOid) (own m t.trace) := by
  obtain ⟨i, hkind, hsends⟩ := protocol_of_entry h ht
  obtain ⟨d, id, r, hadmits, horder, hheld, -, hvetted⟩ := Sends.entry hsends
  have hoid : order.clientOid = r.clientOid := congrArg EntryOrder.clientOid horder
  refine ⟨⟨i, d, r, hkind, entryOid_of_sends hadmits, horder, hheld, hoid ▸ hvetted⟩,
    won_of_sends hsends, hsends.unreleased, hsends.open_, fun m hm => ?_⟩
  by_contra hsent
  refine hm (eq_of_sends h hsent fun hnever => ?_)
  have hmem : (⟨.placeEntryOrder order, a⟩ : EntryEvent) ∈ own n t.trace :=
    mem_own.mpr (by simp [ht])
  simpa [EntryOp.sends] using hnever _ hmem

theorem limitOid_injective : Function.Injective limitOid := fun a b h => by
  have := congrArg String.toList h
  exact String.toList_inj.mp (by simpa [limitOid] using this)

/-- The root of a split entry is sent, and its child after it. -/
theorem split_entry_sent : (replay (entrySystem .plain).step (State.init admittedDb)
    childOvertaken).any (fun t => (t.trace.any fun q => q.2.op.sends marketOid) &&
      t.trace.any fun q => q.2.op.sends (limitOid marketOid)) = true := by
  decide +kernel

theorem split_entry_run : ∃ t : EntryState,
    Run (entrySystem .plain).Step (State.init admittedDb) childOvertaken t ∧
      ∀ oid ∈ [marketOid, limitOid marketOid], ∃ n order a tr tr', order.clientOid = oid ∧
        t.trace = tr ++ (n, (⟨.placeEntryOrder order, a⟩ : EntryEvent)) :: tr' := by
  obtain ⟨t, ht, hsent⟩ := (Option.any_eq_true _ _).mp split_entry_sent
  refine ⟨t, run_of_replay (fun _ _ _ h => h) ht, fun oid hoid => ?_⟩
  have hany : (t.trace.any fun q => q.2.op.sends oid) = true := by
    rcases List.mem_pair.mp hoid with rfl | rfl
    · exact (Bool.and_eq_true_iff.mp hsent).1
    · exact (Bool.and_eq_true_iff.mp hsent).2
  obtain ⟨⟨n, o, a⟩, hq, hsends⟩ := List.any_eq_true.mp hany
  obtain ⟨order, rfl, horder⟩ := sends_iff.mp hsends
  obtain ⟨tr, tr', htr⟩ := List.append_of_mem hq
  exact ⟨n, order, a, tr, tr', horder, htr⟩

theorem market_entry_vetted : ∃ (t : EntryState) (n : ℕ) (order : EntryOrder)
    (tr : List (ℕ × EntryEvent)), tr <+: t.trace ∧ order.clientOid = marketOid ∧
      order.clientOid ∈ won (own n tr) ∧ Never EntryOp.releases (own n tr) := by
  obtain ⟨t, hrun, hsent⟩ := split_entry_run
  obtain ⟨n, order, a, tr, tr', horder, htr⟩ := hsent marketOid List.mem_cons_self
  obtain ⟨-, hwon, hunreleased, -, -⟩ := entry_sent_vetted hrun htr
  exact ⟨t, n, order, tr, ⟨_, htr.symm⟩, horder, hwon, hunreleased⟩

end FattyTrader
