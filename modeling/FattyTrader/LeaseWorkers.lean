import FattyTrader.Leases
import FattyTrader.Programs

/-!
# Workers over a queue with leases

Calls of a `System` claim rows of a queue, under a token that is drawn for the claim, and settle
them. `Duties` says which claims an event gives, and which claim an operation settles.

Every token is drawn for one claim (`Drawn`), and a claim that was not settled has its row, unless
the row was claimed again since (`Fenced`). Both hold whatever the operations answer and whenever
leases end.

`Tidy` holds of the queue and the trace of a system in which no lease of a last attempt ends before
its row is settled. Every open row that is claimed is owed by one call, which has got the claim and
has not settled it yet. Each kind of operation keeps it (`Tidy.other`, `Tidy.claim`,
`Tidy.claimFailed`, `Tidy.settle`). Where a call ends only once its claims are settled, the call that
owes a row is still running (`exists_running`).
-/

set_option linter.unusedSectionVars false

open Tables Programs

namespace Leases

variable {Op : Type} {Ans : Op → Type} {ε ι W κ π τ : Type} [DecidableEq κ] [DecidableEq τ]

/-- A row a call got, the token it got it with, and the attempts counted. -/
structure Claim (κ τ : Type) where
  key : κ
  holder : τ
  attempts : ℕ
deriving DecidableEq

structure Duties (Op : Type) (Ans : Op → Type) (ε κ τ : Type) where
  given : Event Op Ans ε → List (Claim κ τ)
  target : Op → Option (κ × τ)

namespace Duties

variable (D : Duties Op Ans ε κ τ)

def Claimed (es : List (Event Op Ans ε)) (c : Claim κ τ) : Prop := ∃ e ∈ es, c ∈ D.given e

def Settled (es : List (Event Op Ans ε)) (c : Claim κ τ) : Prop :=
  ∃ e ∈ es, D.target e.op = some (c.key, c.holder)

/-- A call has got the claim, and has not settled it. -/
def Unsettled (es : List (Event Op Ans ε)) (c : Claim κ τ) : Prop := D.Claimed es c ∧ ¬ D.Settled es c

/-- A call ends with its claims settled. -/
def Done (es : List (Event Op Ans ε)) : Prop := ∀ c, D.Claimed es c → D.Settled es c

/-- Some call has the claim of this row and has not settled it. -/
def Owed (tr : List (ℕ × Event Op Ans ε)) (key : κ) (lease : Lease τ) (attempts : ℕ) : Prop :=
  ∃ n c, D.Claimed (own n tr) c ∧ ¬ D.Settled (own n tr) c ∧
    c.key = key ∧ c.holder = lease.holder ∧ c.attempts = attempts

variable {D} {es : List (Event Op Ans ε)} {tr : List (ℕ × Event Op Ans ε)}
  {e : Event Op Ans ε} {n m : ℕ} {c : Claim κ τ}

theorem claimed_append : D.Claimed (es ++ [e]) c ↔ D.Claimed es c ∨ c ∈ D.given e := by
  simp only [Claimed, List.mem_append, List.mem_singleton]
  constructor
  · rintro ⟨e', he' | rfl, hc⟩
    · exact Or.inl ⟨e', he', hc⟩
    · exact Or.inr hc
  · rintro (⟨e', he', hc⟩ | hc)
    · exact ⟨e', Or.inl he', hc⟩
    · exact ⟨e, Or.inr rfl, hc⟩

theorem settled_append :
    D.Settled (es ++ [e]) c ↔ D.Settled es c ∨ D.target e.op = some (c.key, c.holder) := by
  simp only [Settled, List.mem_append, List.mem_singleton]
  constructor
  · rintro ⟨e', he' | rfl, hc⟩
    · exact Or.inl ⟨e', he', hc⟩
    · exact Or.inr hc
  · rintro (⟨e', he', hc⟩ | hc)
    · exact ⟨e', Or.inl he', hc⟩
    · exact ⟨e, Or.inr rfl, hc⟩

theorem claimed_own : D.Claimed (own m (tr ++ [(n, e)])) c ↔
    D.Claimed (own m tr) c ∨ m = n ∧ c ∈ D.given e := by
  by_cases h : m = n
  · subst h
    simp [claimed_append]
  · simp [own_snoc_ne (Ne.symm h), h]

theorem settled_own : D.Settled (own m (tr ++ [(n, e)])) c ↔
    D.Settled (own m tr) c ∨ m = n ∧ D.target e.op = some (c.key, c.holder) := by
  by_cases h : m = n
  · subst h
    simp [settled_append]
  · simp [own_snoc_ne (Ne.symm h), h]

/-- A claim stays owed by a call until an event of the call settles it. -/
theorem Owed.append {key : κ} {lease : Lease τ} {attempts : ℕ} (h : D.Owed tr key lease attempts)
    (ht : D.target e.op ≠ some (key, lease.holder)) :
    D.Owed (tr ++ [(n, e)]) key lease attempts := by
  obtain ⟨m, c, hc, hs, rfl, hholder, rfl⟩ := h
  refine ⟨m, c, claimed_own.mpr (Or.inl hc), fun hs' => ?_, rfl, hholder, rfl⟩
  rcases settled_own.mp hs' with hs' | ⟨-, ht'⟩
  · exact hs hs'
  · exact ht (by rw [ht', hholder])

end Duties

/-! ## Tokens -/

/-- Every token in use was drawn, for one claim. -/
structure Drawn (D : Duties Op Ans ε κ τ) (drawn : τ → Prop) (tr : List (ℕ × Event Op Ans ε)) :
    Prop where
  claims : ∀ n c, D.Claimed (own n tr) c → drawn c.holder
  settles : ∀ n c, D.Settled (own n tr) c → drawn c.holder
  distinct : ∀ n m c c', D.Claimed (own n tr) c → D.Claimed (own m tr) c' → c.key = c'.key →
    c.holder = c'.holder → n = m ∧ c = c'

namespace Drawn

variable {D : Duties Op Ans ε κ τ} {drawn drawn' : τ → Prop} {tr : List (ℕ × Event Op Ans ε)}
  {e : Event Op Ans ε} {n : ℕ} {c : Claim κ τ} {holder : τ}

theorem nil : Drawn D drawn [] where
  claims _ _ hc := absurd hc (by simp [Duties.Claimed])
  settles _ _ hc := absurd hc (by simp [Duties.Settled])
  distinct _ _ _ _ hc := absurd hc (by simp [Duties.Claimed])

/-- An event without claims, that settles at most a claim with a token drawn before. -/
theorem quiet (h : Drawn D drawn tr) (hg : D.given e = [])
    (ht : ∀ k t, D.target e.op = some (k, t) → drawn t) (hdrawn : ∀ t, drawn t → drawn' t) :
    Drawn D drawn' (tr ++ [(n, e)]) := by
  have hsame : ∀ m c, D.Claimed (own m (tr ++ [(n, e)])) c → D.Claimed (own m tr) c :=
    fun m c hc => (Duties.claimed_own.mp hc).resolve_right (by simp [hg])
  refine ⟨fun m c hc => hdrawn _ (h.claims m c (hsame m c hc)), fun m c hc => ?_,
    fun m m' c c' hc hc' => h.distinct m m' c c' (hsame m c hc) (hsame m' c' hc')⟩
  rcases Duties.settled_own.mp hc with hc | ⟨-, hc⟩
  · exact hdrawn _ (h.settles m c hc)
  · exact hdrawn _ (ht _ _ hc)

/-- A settlement of a claim of the call. -/
theorem settle (h : Drawn D drawn tr) (hc : D.Claimed (own n tr) c) (hg : D.given e = [])
    (ht : D.target e.op = some (c.key, c.holder)) : Drawn D drawn (tr ++ [(n, e)]) :=
  h.quiet hg (fun k t hkt => by
    obtain ⟨-, rfl⟩ := Prod.mk.inj (Option.some.inj (ht.symm.trans hkt))
    exact h.claims n c hc) fun _ h => h

/-- Claims with a new token. -/
theorem claim (h : Drawn D drawn tr) (hnew : ¬ drawn holder) (hdrawn : ∀ t, drawn t → drawn' t)
    (hdrawn' : drawn' holder) (ht : D.target e.op = none)
    (hholder : ∀ c ∈ D.given e, c.holder = holder)
    (hone : ∀ c ∈ D.given e, ∀ c' ∈ D.given e, c.key = c'.key → c = c') :
    Drawn D drawn' (tr ++ [(n, e)]) := by
  refine ⟨fun m c hc => ?_, fun m c hc => hdrawn _ (h.settles m c ?_),
    fun m m' c c' hc hc' hkey hsame => ?_⟩
  · rcases Duties.claimed_own.mp hc with hc | ⟨-, hc⟩
    · exact hdrawn _ (h.claims m c hc)
    · rw [hholder c hc]
      exact hdrawn'
  · exact (Duties.settled_own.mp hc).resolve_right (by simp [ht])
  · rcases Duties.claimed_own.mp hc with hold | ⟨hm, hgot⟩ <;>
      rcases Duties.claimed_own.mp hc' with hold' | ⟨hm', hgot'⟩
    · exact h.distinct m m' c c' hold hold' hkey hsame
    · exact absurd (h.claims m c hold) (by rw [hsame, hholder c' hgot']; exact hnew)
    · exact absurd (h.claims m' c' hold') (by rw [← hsame, hholder c hgot]; exact hnew)
    · exact ⟨hm.trans hm'.symm, hone c hgot c' hgot' hkey⟩

end Drawn

/-! ## Claims and their rows -/

/-- A claim has its row, with the attempts it counted, or lost it to a later claim. -/
def Fenced (D : Duties Op Ans ε κ τ) (tr : List (ℕ × Event Op Ans ε)) (q : Queue κ π τ) : Prop :=
  ∀ n c, D.Claimed (own n tr) c → ¬ D.Settled (own n tr) c → ∃ r ∈ q, r.key = c.key ∧
    (r.heldBy c.holder = true ∧ r.attempts = c.attempts ∨
      r.heldBy c.holder = false ∧ c.attempts < r.attempts)

namespace Fenced

variable {D : Duties Op Ans ε κ τ} {drawn : τ → Prop} {tr : List (ℕ × Event Op Ans ε)}
  {q q' : Queue κ π τ} {e : Event Op Ans ε} {n : ℕ} {c : Claim κ τ} {key : κ} {keys : List κ}
  {holder : τ} {lease : Lease τ} {s : Settlement}

theorem nil : Fenced D [] q := fun _ _ hc => absurd hc (by simp [Duties.Claimed])

/-- Where the rows stay. -/
theorem mono (h : Fenced D tr q) (hq : ∀ r ∈ q, r ∈ q') : Fenced D tr q' := fun n c hc hs => by
  obtain ⟨r, hr, hrest⟩ := h n c hc hs
  exact ⟨r, hq r hr, hrest⟩

/-- An event without claims. -/
theorem other (h : Fenced D tr q) (hg : D.given e = []) : Fenced D (tr ++ [(n, e)]) q :=
  fun m c hc hs =>
  h m c ((Duties.claimed_own.mp hc).resolve_right (by simp [hg]))
    fun hs' => hs (Duties.settled_own.mpr (Or.inl hs'))

/-- A claim with a new token. -/
theorem claim (h : Fenced D tr q) (hd : Drawn D drawn tr) (hnew : ¬ drawn lease.holder)
    (hgiven : ∀ c ∈ D.given e, ∃ r ∈ q, r.settled = none ∧ r.key ∈ keys ∧
      c = ⟨r.key, lease.holder, r.attempts + 1⟩) :
    Fenced D (tr ++ [(n, e)]) (q.claim keys lease) := by
  intro m c hc hs
  rcases Duties.claimed_own.mp hc with hc | ⟨-, hc⟩
  · obtain ⟨r, hr, hkey, hheld⟩ := h m c hc fun hs' => hs (Duties.settled_own.mpr (Or.inl hs'))
    by_cases hk : r.key ∈ keys
    · have hother : lease.holder ≠ c.holder := fun heq => hnew (heq ▸ hd.claims m c hc)
      refine ⟨r.claim lease, Queue.mem_claim.mpr ⟨r, hr, if_pos hk⟩, hkey, Or.inr ⟨?_, ?_⟩⟩
      · simp [Row.heldBy, Row.claim, hother]
      · have hle : c.attempts ≤ r.attempts :=
          hheld.elim (fun hheld => hheld.2 ▸ Nat.le_refl _) fun hlost => Nat.le_of_lt hlost.2
        exact Nat.lt_succ_of_le hle
    · exact ⟨r, Queue.mem_claim_of_not_mem hr lease hk, hkey, hheld⟩
  · obtain ⟨r, hr, hopen, hk, rfl⟩ := hgiven c hc
    refine ⟨r.claim lease, Queue.mem_claim.mpr ⟨r, hr, if_pos hk⟩, rfl, Or.inl ⟨?_, rfl⟩⟩
    simp [Row.heldBy, Row.claim, hopen]

/-- A settlement that is of no other claim. -/
theorem settle (h : Fenced D tr q) (hnot : ∀ n c, D.Claimed (own n tr) c → ¬ D.Settled (own n tr) c →
    ¬ (c.key = key ∧ c.holder = holder)) : Fenced D tr (q.settle key holder s).2 := by
  intro m c hc hs
  obtain ⟨r, hr, hkey, hheld⟩ := h m c hc hs
  rcases Queue.mem_settle_or hr key holder s with hstays | ⟨hk, hown, happly⟩
  · exact ⟨r, hstays, hkey, hheld⟩
  · refine ⟨_, happly, (Settlement.key_apply s r).trans hkey, ?_⟩
    rcases hheld with ⟨hheld, -⟩ | ⟨-, hlt⟩
    · -- a row has one holder
      refine absurd ⟨hkey.symm.trans hk, ?_⟩ (hnot m c hc hs)
      simp only [Row.heldBy, Bool.and_eq_true, Option.any_eq_true, decide_eq_true_eq] at hheld hown
      obtain ⟨⟨l, hl, hholder⟩, -⟩ := hheld
      obtain ⟨⟨l', hl', hholder'⟩, -⟩ := hown
      obtain rfl := Option.some.inj (hl.symm.trans hl')
      exact hholder.symm.trans hholder'
    · exact Or.inr ⟨by simp [Row.heldBy], by simpa using hlt⟩

/-- A settlement by the call that has the claim. -/
theorem settled (h : Fenced D tr q) (hd : Drawn D drawn tr) (hc : D.Claimed (own n tr) c)
    (hg : D.given e = []) (ht : D.target e.op = some (c.key, c.holder)) :
    Fenced D (tr ++ [(n, e)]) (q.settle c.key c.holder s).2 := by
  refine (h.other hg).settle fun m c' hc' hs' ⟨hkey, hholder⟩ => ?_
  have hold := (Duties.claimed_own.mp hc').resolve_right (by simp [hg])
  obtain ⟨rfl, rfl⟩ := hd.distinct m n c' c hold hc hkey hholder
  exact hs' (Duties.settled_own.mpr (Or.inr ⟨rfl, ht⟩))

end Fenced

/-! ## The invariant of a system -/

/-- The rows of the queue are owed, no lease of a last attempt has ended, and every token in use was
drawn for one claim. -/
structure Tidy (D : Duties Op Ans ε κ τ) (budget : ℕ) (clock : ℤ) (drawn : τ → Prop)
    (tr : List (ℕ × Event Op Ans ε)) (q : Queue κ π τ) : Prop extends Drawn D drawn tr where
  kept : Kept budget (D.Owed tr) q
  live : Live budget clock q

namespace Tidy

variable {D : Duties Op Ans ε κ τ} {budget : ℕ} {clock clock' : ℤ} {drawn drawn' : τ → Prop}
  {tr : List (ℕ × Event Op Ans ε)} {q q' : Queue κ π τ} {e : Event Op Ans ε} {n : ℕ}
  {c : Claim κ τ} {key : κ} {keys : List κ} {lease : Lease τ} {s : Settlement}

theorem empty : Tidy D budget clock drawn [] (Table.empty : Queue κ π τ) where
  toDrawn := .nil
  kept := ⟨fun _ hr => absurd hr List.not_mem_nil, fun _ hr => absurd hr List.not_mem_nil,
    fun _ hr => absurd hr List.not_mem_nil⟩
  live _ hr := absurd hr List.not_mem_nil

/-- A change of the queue alone. -/
theorem world (h : Tidy D budget clock drawn tr q) (hkept : Kept budget (D.Owed tr) q')
    (hlive : Live budget clock' q') : Tidy D budget clock' drawn tr q' :=
  ⟨h.toDrawn, hkept, hlive⟩

theorem insertNew (h : Tidy D budget clock drawn tr q) (hbudget : 0 < budget) (key : κ)
    (payload : π) : Tidy D budget clock drawn tr (q.insertNew { key, payload }) :=
  h.world (h.kept.insertNew hbudget key payload) (h.live.insertNew key payload)

/-- An event that neither claims nor settles. -/
theorem other (h : Tidy D budget clock drawn tr q) (hg : D.given e = [])
    (ht : D.target e.op = none) : Tidy D budget clock drawn (tr ++ [(n, e)]) q :=
  ⟨h.quiet hg (by simp [ht]) fun _ h => h, h.kept.mono fun _ _ _ howed => howed.append (by simp [ht]),
    h.live⟩

/-- A claim of due rows, with a new token. -/
theorem claim (h : Tidy D budget clock drawn tr q) (hends : clock < lease.ends)
    (hnew : ¬ drawn lease.holder) (hdrawn : ∀ t, drawn t → drawn' t) (hdrawn' : drawn' lease.holder)
    (ht : D.target e.op = none) (hdue : ∀ k ∈ keys, ∀ r ∈ q, r.key = k → r.due clock = true)
    (hgiven : ∀ r ∈ q, r.key ∈ keys → ⟨r.key, lease.holder, r.attempts + 1⟩ ∈ D.given e)
    (hholder : ∀ c ∈ D.given e, c.holder = lease.holder)
    (hone : ∀ c ∈ D.given e, ∀ c' ∈ D.given e, c.key = c'.key → c = c') :
    Tidy D budget clock drawn' (tr ++ [(n, e)]) (q.claim keys lease) := by
  refine ⟨h.toDrawn.claim hnew hdrawn hdrawn' ht hholder hone,
    h.kept.claim h.live hdue (fun k l a _ howed => howed.append (by simp [ht])) ?_, h.live.claim hends⟩
  intro r hr hk
  refine ⟨n, _, Duties.claimed_own.mpr (Or.inr ⟨rfl, hgiven r hr hk⟩), fun hs => ?_, rfl, rfl, rfl⟩
  exact hnew (h.settles n _ ((Duties.settled_own.mp hs).resolve_right (by simp [ht])))

/-- A claim that is settled, and not for a retry, before the event ends. -/
theorem claimFailed (h : Tidy D budget clock drawn tr q) (lease : Lease τ) (hends : clock < lease.ends)
    (hdrawn : ∀ t, drawn t → drawn' t) (hg : D.given e = []) (ht : D.target e.op = none)
    (hdue : ∀ r ∈ q, r.key = key → r.due clock = true) (hs : s.isRetry = false) :
    Tidy D budget clock drawn' (tr ++ [(n, e)])
      ((q.claim [key] lease).settle key lease.holder s).2 := by
  refine ⟨h.quiet hg (by simp [ht]) hdrawn, ?_, (h.live.claim hends).settle⟩
  -- in between the claim is owed by no call
  have hclaim : Kept budget (fun k l a => D.Owed tr k l a ∨ k = key ∧ l.holder = lease.holder)
      (q.claim [key] lease) :=
    h.kept.claim h.live (fun k hk r hr hkey => hdue r hr (hkey.trans (List.mem_singleton.mp hk)))
      (fun k l a _ howed => Or.inl howed)
      fun r _ hk => Or.inr ⟨List.mem_singleton.mp hk, rfl⟩
  refine hclaim.settle (fun l a _ _ hretry => absurd hretry (by simp [hs])) fun k l a howed hnot => ?_
  exact (howed.resolve_right hnot).append (by simp [ht])

/-- A settlement by the call that has the claim. -/
theorem settle (h : Tidy D budget clock drawn tr q) (hc : D.Claimed (own n tr) c)
    (hg : D.given e = []) (ht : D.target e.op = some (c.key, c.holder))
    (hretry : s.isRetry = true → c.attempts < budget) :
    Tidy D budget clock drawn (tr ++ [(n, e)]) (q.settle c.key c.holder s).2 := by
  refine ⟨h.toDrawn.settle hc hg ht, h.kept.settle ?_ ?_, h.live.settle⟩
  · rintro l a ⟨m, c', hc', -, hkey, hholder, rfl⟩ hl hs
    obtain ⟨-, rfl⟩ := h.distinct m n c' c hc' hc hkey (hholder.trans hl)
    exact hretry hs
  · intro k l a howed hnot
    refine howed.append fun htarget => hnot ?_
    obtain ⟨hk, hl⟩ := Prod.mk.inj (Option.some.inj (ht.symm.trans htarget))
    exact ⟨hk.symm, hl.symm⟩

/-- The call that owes a row is running, where calls end with their claims settled. -/
theorem exists_running {A : (o : Op) → Except ε (Ans o) → Prop}
    {φ : ι → List (Event Op Ans ε) → Op → Prop}
    {Q : ι → List (Event Op Ans ε) → Except ε Unit → Prop} {t : State Op Ans ε ι W}
    (h : Tidy D budget clock drawn t.trace q) (hs : System.SoundTo A φ Q t)
    (hQ : ∀ i es r, Q i es r → D.Done es) {r : Row κ π τ} (hr : r ∈ q) (hopen : r.settled = none)
    (hl : r.claimed = some lease) :
    ∃ n i o k, t.calls[n]? = some (i, .op o k) ∧
      D.Unsettled (own n t.trace) ⟨r.key, lease.holder, r.attempts⟩ := by
  obtain ⟨n, ⟨key, holder, attempts⟩, hc, hns, rfl, rfl, rfl⟩ := h.kept.owed r hr hopen lease hl
  have hlt : n < t.calls.length := by
    obtain ⟨e, he, -⟩ := hc
    exact hs.2 _ (mem_own.mp he)
  obtain ⟨⟨i, p⟩, hp⟩ : ∃ x, t.calls[n]? = some x := ⟨_, List.getElem?_eq_getElem hlt⟩
  have hobeys := hs.1 n i p hp
  cases p with
  | ret a => exact absurd (hQ _ _ _ hobeys _ hc) hns
  | raise e => exact absurd (hQ _ _ _ hobeys _ hc) hns
  | op o k => exact ⟨n, i, o, k, hp, hc, hns⟩

end Tidy

/-! ## Claims that hold their rows -/

/-- A claim that is not settled holds its row. -/
def Holds (D : Duties Op Ans ε κ τ) (tr : List (ℕ × Event Op Ans ε)) (q : Queue κ π τ) : Prop :=
  ∀ n c, D.Claimed (own n tr) c → ¬ D.Settled (own n tr) c →
    ∃ r ∈ q, r.key = c.key ∧ r.settled = none ∧ ∃ ends, r.claimed = some ⟨c.holder, ends⟩

namespace Holds

variable {D : Duties Op Ans ε κ τ} {budget : ℕ} {clock : ℤ} {drawn : τ → Prop}
  {tr : List (ℕ × Event Op Ans ε)} {q q' : Queue κ π τ} {e : Event Op Ans ε} {n m : ℕ}
  {c c' : Claim κ τ} {keys : List κ} {lease : Lease τ} {s : Settlement}

/-- Two claims of one row that are not settled are one. -/
theorem unique (h : Holds D tr q) (ht : Tidy D budget clock drawn tr q)
    (hc : D.Claimed (own n tr) c) (hs : ¬ D.Settled (own n tr) c) (hc' : D.Claimed (own m tr) c')
    (hs' : ¬ D.Settled (own m tr) c') (hkey : c.key = c'.key) : n = m ∧ c = c' := by
  obtain ⟨r, hr, hrk, -, ends, hl⟩ := h n c hc hs
  obtain ⟨r', hr', hrk', -, ends', hl'⟩ := h m c' hc' hs'
  obtain rfl := Table.eq_of_key hr hr' (hrk.trans (hkey.trans hrk'.symm))
  obtain ⟨hholder, -⟩ := Lease.mk.inj (Option.some.inj (hl.symm.trans hl'))
  exact ht.distinct n m c c' hc hc' hkey hholder

/-- Where the rows stay. -/
theorem mono (h : Holds D tr q) (hq : ∀ r ∈ q, r ∈ q') : Holds D tr q' := fun n c hc hs => by
  obtain ⟨r, hr, hrest⟩ := h n c hc hs
  exact ⟨r, hq r hr, hrest⟩

/-- An event without claims. -/
theorem other (h : Holds D tr q) (hg : D.given e = []) : Holds D (tr ++ [(n, e)]) q :=
  fun m c hc hs =>
  h m c ((Duties.claimed_own.mp hc).resolve_right (by simp [hg]))
    fun hs' => hs (Duties.settled_own.mpr (Or.inl hs'))

/-- A claim of due rows. -/
theorem claim (h : Holds D tr q) (hlive : Live 0 clock q)
    (hdue : ∀ k ∈ keys, ∀ r ∈ q, r.key = k → r.due clock = true)
    (hgiven : ∀ c ∈ D.given e, c.holder = lease.holder ∧ c.key ∈ keys ∧ ∃ r ∈ q, r.key = c.key) :
    Holds D (tr ++ [(n, e)]) (q.claim keys lease) := by
  intro m c hc hs
  rcases Duties.claimed_own.mp hc with hc | ⟨-, hc⟩
  · obtain ⟨r, hr, hkey, hopen, ends, hl⟩ :=
      h m c hc fun hs' => hs (Duties.settled_own.mpr (Or.inl hs'))
    have hnot : r.key ∉ keys := fun hk => by
      have hfree := hlive.claimed_of_due hr (hdue _ hk r hr rfl)
      rw [hl] at hfree
      cases hfree
    exact ⟨r, Queue.mem_claim_of_not_mem hr lease hnot, hkey, hopen, ends, hl⟩
  · obtain ⟨hholder, hk, r, hr, hkey⟩ := hgiven c hc
    have hk' : r.key ∈ keys := hkey ▸ hk
    have hopen : r.settled = none := by
      have hd := hdue _ hk' r hr rfl
      simp only [Row.due, Bool.and_eq_true, Option.isNone_iff_eq_none] at hd
      exact hd.1.1
    exact ⟨r.claim lease, Queue.mem_claim.mpr ⟨r, hr, if_pos hk'⟩, hkey, hopen, lease.ends,
      by rw [hholder]; rfl⟩

/-- A settlement. -/
theorem settle (h : Holds D tr q) (ht : D.target e.op = some (c.key, c.holder))
    (hg : D.given e = []) (hdistinct : ∀ m c', D.Claimed (own m tr) c' → c'.key = c.key →
      c'.holder = c.holder → m = n ∧ c' = c) :
    Holds D (tr ++ [(n, e)]) (q.settle c.key c.holder s).2 := by
  intro m c' hc' hs'
  have hold := (Duties.claimed_own.mp hc').resolve_right (by simp [hg])
  obtain ⟨r, hr, hkey, hopen, ends, hl⟩ :=
    h m c' hold fun hs => hs' (Duties.settled_own.mpr (Or.inl hs))
  refine ⟨r, (Queue.mem_settle_or hr c.key c.holder s).resolve_right ?_, hkey, hopen, ends, hl⟩
  rintro ⟨hk, hheld, -⟩
  have hholder : c'.holder = c.holder := by simpa [Row.heldBy, hl, hopen] using hheld
  obtain ⟨rfl, rfl⟩ := hdistinct m c' hold (hkey.symm.trans hk) hholder
  exact hs' (Duties.settled_own.mpr (Or.inr ⟨rfl, ht⟩))

/-- The holder's settlement changes its row. -/
theorem apply (h : Holds D tr q) (hc : D.Claimed (own n tr) c) (hs : ¬ D.Settled (own n tr) c) :
    ∃ r, r.key = c.key ∧ s.apply r ∈ (q.settle c.key c.holder s).2 := by
  obtain ⟨r, hr, hkey, hopen, ends, hl⟩ := h n c hc hs
  refine ⟨r, hkey, Queue.mem_settle.mpr ⟨r, hr, if_pos ?_⟩⟩
  simp [hkey, Row.heldBy, hl, hopen]

end Holds

end Leases
