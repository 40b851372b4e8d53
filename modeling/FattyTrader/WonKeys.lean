import FattyTrader.Programs
import Mathlib.Data.List.Induction

/-!
# Keys that calls win

Calls that compete for keys in a durable store : an operation may win a key the store does not
have yet, and no key ever leaves the store. Then every key is won by one call in every run, however
the calls interleave and wherever they die (`wonOnce_of_run`).

What each call does for a key only after it has won it, is therefore done by one call. If a call
does it fewer than `k` times before it does it again, it is done at most `k` times in the run
(`countP_le_of_one_call`).
-/

open Runs

namespace Programs

variable {Op : Type} {Ans : Op → Type} {ε ι W C E K α : Type}

/-! ## Counts -/

/-- Whatever is counted fewer than `k` times before each of its occurrences, occurs at most `k`
times. -/
theorem countP_le_of_before {p : α → Bool} {k : ℕ} {as : List α}
    (h : ∀ pre a post, as = pre ++ a :: post → p a = true → pre.countP p < k) :
    as.countP p ≤ k := by
  induction as using List.reverseRecOn with
  | nil => simp
  | append_singleton as a ih =>
    rw [List.countP_append, List.countP_singleton]
    by_cases ha : p a = true
    · have := h as a [] rfl ha
      rw [if_pos ha]
      omega
    · rw [if_neg ha, Nat.add_zero]
      exact ih fun pre b post hsplit => h pre b (post ++ [a]) (by simp [hsplit])

/-- Events of one call are counted among its own. -/
theorem countP_le_own {p : Event Op Ans ε → Bool} {n : ℕ} {tr : List (ℕ × Event Op Ans ε)}
    (h : ∀ q ∈ tr, p q.2 = true → q.1 = n) :
    tr.countP (fun q => p q.2) ≤ (own n tr).countP p := by
  rw [own, List.countP_map, List.countP_filter]
  refine List.countP_mono_left fun q hq hp => ?_
  simpa [h q hq hp] using hp

/-- What only one call does, and does fewer than `k` times before it does it again, happens at
most `k` times. -/
theorem countP_le_of_one_call {p : Event Op Ans ε → Bool} {k : ℕ}
    {tr : List (ℕ × Event Op Ans ε)}
    (hone : ∀ q ∈ tr, ∀ q' ∈ tr, p q.2 = true → p q'.2 = true → q.1 = q'.1)
    (hbefore : ∀ pre q post, tr = pre ++ q :: post → p q.2 = true → (own q.1 pre).countP p < k) :
    tr.countP (fun q => p q.2) ≤ k := by
  refine countP_le_of_before fun pre q post hsplit hq => ?_
  refine Nat.lt_of_le_of_lt (countP_le_own fun q' hq' hp => ?_) (hbefore pre q post hsplit hq)
  exact hone q' (by simp [hsplit, hq']) q (by simp [hsplit]) hp hq

/-! ## Keys -/

/-- The keys that were won are in the store, and each was won by one call. -/
structure WonOnce (won : Event Op Ans ε → List K) (store : List K)
    (tr : List (ℕ × Event Op Ans ε)) : Prop where
  stored : ∀ q ∈ tr, won q.2 ⊆ store
  apart : ∀ q ∈ tr, ∀ q' ∈ tr, ∀ k ∈ won q.2, k ∈ won q'.2 → q.1 = q'.1

variable {won : Event Op Ans ε → List K} {store store' : List K}
  {tr : List (ℕ × Event Op Ans ε)}

theorem WonOnce.grow (h : WonOnce won store tr) (hs : store ⊆ store') : WonOnce won store' tr where
  stored q hq := List.Subset.trans (h.stored q hq) hs
  apart := h.apart

/-- An event wins what the store does not have yet. -/
theorem WonOnce.snoc (h : WonOnce won store tr) (hs : store ⊆ store') {n : ℕ}
    {e : Event Op Ans ε} (hin : won e ⊆ store') (hnew : ∀ k ∈ won e, k ∉ store) :
    WonOnce won store' (tr ++ [(n, e)]) where
  stored q hq := by
    rcases List.mem_append.mp hq with hq | hq
    · exact (h.grow hs).stored q hq
    · obtain rfl := List.mem_singleton.mp hq
      exact hin
  apart q hq q' hq' k hk hk' := by
    rcases List.mem_append.mp hq with hq | hq <;> rcases List.mem_append.mp hq' with hq' | hq'
    · exact h.apart q hq q' hq' k hk hk'
    · obtain rfl := List.mem_singleton.mp hq'
      exact absurd (h.stored q hq hk) (hnew k hk')
    · obtain rfl := List.mem_singleton.mp hq
      exact absurd (h.stored q' hq' hk') (hnew k hk)
    · obtain rfl := List.mem_singleton.mp hq
      obtain rfl := List.mem_singleton.mp hq'
      rfl

/-- Where operations win only keys that are new to the store, and nothing removes one, every key of
a run is won by one call. -/
theorem wonOnce_of_run {S : System Op Ans ε ι W C E} (keys : W → List K)
    (hexec : ∀ o w c r w', S.exec o w c = some (r, w') →
      keys w ⊆ keys w' ∧ won ⟨o, r⟩ ⊆ keys w' ∧ ∀ k ∈ won ⟨o, r⟩, k ∉ keys w)
    (henv : ∀ w e w', S.env w e = some w' → keys w ⊆ keys w') {w : W} {t : State Op Ans ε ι W}
    {ls : List (Label ι C E)} (h : Run S.Step (State.init w) ls t) :
    WonOnce won (keys t.world) t.trace := by
  refine h.inv (I := fun s => WonOnce won (keys s.world) s.trace) ?_ ?_
  · intro s l t hs hstep
    cases l with
    | start i =>
      obtain rfl := Option.some.inj hstep
      exact hs
    | act n c =>
      obtain ⟨i, o, k, r, w, -, hx, rfl⟩ := System.step_act hstep
      obtain ⟨hgrow, hin, hnew⟩ := hexec o s.world c r w hx
      exact hs.snoc hgrow hin hnew
    | env e =>
      obtain ⟨w, hw, rfl⟩ := Option.map_eq_some_iff.mp hstep
      exact hs.grow (henv s.world e w hw)
  · exact ⟨fun q hq => by simp [State.init] at hq, fun q hq => by simp [State.init] at hq⟩

end Programs
