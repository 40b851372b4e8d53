import Mathlib.Data.List.Basic
import Mathlib.Logic.Basic

/-!
# Runs of labelled transition systems

A run of `step : σ → α → σ → Prop` is a finite sequence of labelled steps
(`Run`). Nondeterminism sits in the labels and in the relation, so a statement
about every run is a statement about every order of the steps and every answer
of the environment.

Three rules carry the proofs over runs. `Run.inv` propagates an invariant,
`Run.rel` a reflexive and transitive relation between the two ends of a run,
and `Run.first` gives the step that brought a property. A guarded system
(`Guard`) takes only the steps a condition on the state before and the label
admits ; its runs are runs of the system (`Run.of_guard`).

The last section is about systems given by a function : `exec` applies the
labels in order, `visits` lists each label with the state it met, and `states`
the states passed. `forall_states_iff` turns an exact condition for one step
into an exact condition for the whole run, and `visits_history` carries a relation between the state
and the visits that led to it.
-/

namespace Runs

variable {σ α : Type*}

/-! ## Runs of a relation -/

/-- A run of `step` from the first state to the last, along the labels. -/
inductive Run (step : σ → α → σ → Prop) : σ → List α → σ → Prop
  | nil (s : σ) : Run step s [] s
  | cons {s t u : σ} {a : α} {as : List α} :
      step s a t → Run step t as u → Run step s (a :: as) u

variable {step step' : σ → α → σ → Prop} {s t u : σ} {as bs : List α}

theorem Run.single {a : α} (h : step s a t) : Run step s [a] t :=
  Run.cons h (Run.nil t)

theorem Run.append (h : Run step s as t) (h' : Run step t bs u) :
    Run step s (as ++ bs) u := by
  induction h with
  | nil => exact h'
  | cons hstep _ ih => exact Run.cons hstep (ih h')

theorem Run.mono (hstep : ∀ s a t, step s a t → step' s a t) (h : Run step s as t) :
    Run step' s as t := by
  induction h with
  | nil => exact Run.nil _
  | cons h₁ _ ih => exact Run.cons (hstep _ _ _ h₁) ih

/-- An invariant every step keeps holds at the end of every run. -/
theorem Run.inv {I : σ → Prop} (hstep : ∀ s a t, I s → step s a t → I t)
    (h : Run step s as t) (hs : I s) : I t := by
  induction h with
  | nil => exact hs
  | cons h₁ _ ih => exact ih (hstep _ _ _ hs h₁)

/-- A reflexive and transitive relation every step obeys, relates the ends of
every run. -/
theorem Run.rel {R : σ → σ → Prop} (hrefl : ∀ s, R s s)
    (htrans : ∀ s t u, R s t → R t u → R s u) (hstep : ∀ s a t, step s a t → R s t)
    (h : Run step s as t) : R s t := by
  induction h with
  | nil => exact hrefl _
  | cons h₁ _ ih => exact htrans _ _ _ (hstep _ _ _ h₁) ih

/-- What the first state does not have and the last one has, some step of the run brought. -/
theorem Run.first {P : σ → Prop} (h : Run step s as t) (hs : ¬ P s) (ht : P t) :
    ∃ bs u a v cs, Run step s bs u ∧ step u a v ∧ Run step v cs t ∧ ¬ P u ∧ P v := by
  induction h with
  | nil => exact absurd ht hs
  | @cons s t' u b as h₁ h₂ ih =>
    by_cases hP : P t'
    · exact ⟨[], s, b, t', as, Run.nil s, h₁, h₂, hs, hP⟩
    · obtain ⟨bs, v, a, w, cs, hb, hv, hc, hPv, hPw⟩ := ih hP ht
      exact ⟨b :: bs, v, a, w, cs, Run.cons h₁ hb, hv, hc, hPv, hPw⟩

/-- The steps of `step` that the condition `G`, on the state before and the
label, admits. -/
def Guard (step : σ → α → σ → Prop) (G : σ → α → Prop) (s : σ) (a : α) (t : σ) : Prop :=
  G s a ∧ step s a t

theorem Run.of_guard {G : σ → α → Prop} (h : Run (Guard step G) s as t) : Run step s as t :=
  h.mono fun _ _ _ h => h.2

/-! ## Runs of a function -/

/-- Apply the labels in order. -/
def exec (f : σ → α → σ) (s : σ) (as : List α) : σ := as.foldl f s

/-- Each label with the state it met. -/
def visits (f : σ → α → σ) : σ → List α → List (σ × α)
  | _, [] => []
  | s, a :: as => (s, a) :: visits f (f s a) as

/-- The states passed, the first and the last included. -/
def states (f : σ → α → σ) : σ → List α → List σ
  | s, [] => [s]
  | s, a :: as => s :: states f (f s a) as

variable {f : σ → α → σ}

@[simp] theorem exec_nil : exec f s [] = s := rfl

@[simp] theorem exec_cons {a : α} : exec f s (a :: as) = exec f (f s a) as := rfl

theorem exec_append : exec f s (as ++ bs) = exec f (exec f s as) bs :=
  List.foldl_append

theorem mem_states_self : s ∈ states f s as := by
  cases as <;> simp [states]

/-- The states passed are the ends of the prefixes. -/
theorem mem_states_iff : t ∈ states f s as ↔ ∃ bs cs, as = bs ++ cs ∧ t = exec f s bs := by
  induction as generalizing s with
  | nil =>
    constructor
    · intro h
      exact ⟨[], [], rfl, by simpa [states] using h⟩
    · rintro ⟨bs, cs, h, rfl⟩
      obtain ⟨rfl, rfl⟩ := List.append_eq_nil_iff.mp h.symm
      simp [states]
  | cons a as ih =>
    simp only [states, List.mem_cons, ih]
    constructor
    · rintro (rfl | ⟨bs, cs, rfl, rfl⟩)
      · exact ⟨[], a :: as, rfl, rfl⟩
      · exact ⟨a :: bs, cs, rfl, rfl⟩
    · rintro ⟨bs, cs, h, rfl⟩
      cases bs with
      | nil => exact Or.inl rfl
      | cons b bs =>
        obtain ⟨rfl, rfl⟩ := List.cons.inj h
        exact Or.inr ⟨bs, cs, rfl, rfl⟩

theorem mem_visits_iff {p : σ × α} :
    p ∈ visits f s as ↔ ∃ bs cs, as = bs ++ p.2 :: cs ∧ p.1 = exec f s bs := by
  induction as generalizing s with
  | nil => simp [visits]
  | cons a as ih =>
    simp only [visits, List.mem_cons, ih]
    constructor
    · rintro (rfl | ⟨bs, cs, rfl, h⟩)
      · exact ⟨[], as, rfl, rfl⟩
      · exact ⟨a :: bs, cs, rfl, h⟩
    · rintro ⟨bs, cs, h, hp⟩
      cases bs with
      | nil =>
        obtain ⟨rfl, rfl⟩ := List.cons.inj h
        exact Or.inl (Prod.ext hp rfl)
      | cons b bs =>
        obtain ⟨rfl, rfl⟩ := List.cons.inj h
        exact Or.inr ⟨bs, cs, rfl, hp⟩

/-- An invariant holds at every state a run of a function passes. -/
theorem states_inv {I : σ → Prop} (hstep : ∀ s a, I s → I (f s a)) (hs : I s)
    (ht : t ∈ states f s as) : I t := by
  induction as generalizing s with
  | nil =>
    obtain rfl : t = s := by simpa [states] using ht
    exact hs
  | cons a as ih =>
    rcases List.mem_cons.mp ht with rfl | ht
    · exact hs
    · exact ih (hstep s a hs) ht

/-- Where no step is excluded by `Bad`, an invariant the other steps keep holds
throughout. -/
theorem states_inv_of_not {I : σ → Prop} {Bad : σ → α → Prop}
    (hstep : ∀ s a, I s → ¬ Bad s a → I (f s a)) (hs : I s)
    (hbad : ∀ p ∈ visits f s as, ¬ Bad p.1 p.2) (ht : t ∈ states f s as) : I t := by
  induction as generalizing s with
  | nil =>
    obtain rfl : t = s := by simpa [states] using ht
    exact hs
  | cons a as ih =>
    simp only [visits, List.forall_mem_cons] at hbad
    rcases List.mem_cons.mp ht with rfl | ht
    · exact hs
    · exact ih (hstep s a hs hbad.1) hbad.2 ht

/-- An invariant holds wherever a label of a run is met. -/
theorem visits_inv {I : σ → Prop} (hstep : ∀ s a, I s → I (f s a)) (hs : I s)
    {p : σ × α} (hp : p ∈ visits f s as) : I p.1 := by
  obtain ⟨bs, cs, rfl, h⟩ := mem_visits_iff.mp hp
  exact states_inv hstep hs (mem_states_iff.mpr ⟨bs, p.2 :: cs, rfl, h⟩)

/-- If, from a state with `I`, one step leaves `I` exactly when it is `Bad`, then a
run from such a state keeps `I` throughout exactly when none of its steps is
`Bad`. -/
theorem forall_states_iff {I : σ → Prop} {Bad : σ → α → Prop}
    (hstep : ∀ s a, I s → (I (f s a) ↔ ¬ Bad s a)) (hs : I s) :
    (∀ t ∈ states f s as, I t) ↔ ∀ p ∈ visits f s as, ¬ Bad p.1 p.2 := by
  induction as generalizing s with
  | nil => simp [states, visits, hs]
  | cons a as ih =>
    simp only [states, visits, List.forall_mem_cons]
    constructor
    · rintro ⟨-, h⟩
      have hI : I (f s a) := h _ mem_states_self
      exact ⟨(hstep s a hs).mp hI, (ih hI).mp h⟩
    · rintro ⟨hbad, h⟩
      have hI : I (f s a) := (hstep s a hs).mpr hbad
      exact ⟨hs, (ih hI).mpr h⟩

/-- The visits before one are those of a prefix. -/
theorem exists_of_visits_eq {pre post : List (σ × α)} {p : σ × α}
    (h : visits f s as = pre ++ p :: post) :
    ∃ bs cs, as = bs ++ p.2 :: cs ∧ pre = visits f s bs ∧ p.1 = exec f s bs := by
  induction as generalizing s pre with
  | nil => simp [visits] at h
  | cons a as ih =>
    cases pre with
    | nil =>
      obtain ⟨rfl, -⟩ := List.cons.inj h
      exact ⟨[], as, rfl, rfl, rfl⟩
    | cons q pre =>
      obtain ⟨rfl, htail⟩ := List.cons.inj h
      obtain ⟨bs, cs, rfl, rfl, hp⟩ := ih htail
      exact ⟨a :: bs, cs, rfl, rfl, hp⟩

/-- A relation between the state and the visits that led to it. -/
theorem visits_history {I : σ → List (σ × α) → Prop}
    (hstep : ∀ s a past, I s past → I (f s a) (past ++ [(s, a)])) {past : List (σ × α)}
    (hs : I s past) : I (exec f s as) (past ++ visits f s as) := by
  induction as generalizing s past with
  | nil => simpa [visits] using hs
  | cons a as ih =>
    have h := ih (hstep s a past hs)
    rwa [List.append_assoc] at h

theorem map_visits : (visits f s as).map Prod.snd = as := by
  induction as generalizing s with
  | nil => rfl
  | cons a as ih => simp [visits, ih]

/-! ## Logs that grow -/

/-- An element of a longer log is the new one, or one of the log. -/
theorem split_snoc {before after : List α} {a b : α} (h : as ++ [b] = before ++ a :: after) :
    (before = as ∧ a = b ∧ after = []) ∨
      ∃ rest, after = rest ++ [b] ∧ as = before ++ a :: rest := by
  rcases List.eq_nil_or_concat after with rfl | ⟨rest, last, rfl⟩
  · obtain ⟨rfl, hlast⟩ := List.append_inj' h rfl
    exact Or.inl ⟨rfl, (List.cons.inj hlast).1.symm, rfl⟩
  · rw [List.concat_eq_append, ← List.cons_append, ← List.append_assoc] at h
    obtain ⟨has, hlast⟩ := List.append_inj' h rfl
    exact Or.inr ⟨rest, by rw [(List.cons.inj hlast).1, List.concat_eq_append], has⟩

/-! ## Replaying a run -/

/-- Apply the labels in order with a function that may refuse one. -/
def replay (f : σ → α → Option σ) : σ → List α → Option σ
  | s, [] => some s
  | s, a :: as => (f s a).bind fun t => replay f t as

/-- What a sound evaluator of single steps replays is a run. -/
theorem run_of_replay {f : σ → α → Option σ} (hf : ∀ s a t, f s a = some t → step s a t) :
    ∀ {s : σ} {as : List α}, replay f s as = some t → Run step s as t
  | s, [], h => by
    obtain rfl := Option.some.inj h
    exact Run.nil s
  | s, a :: as, h => by
    obtain ⟨v, hv, h⟩ := Option.bind_eq_some_iff.mp h
    exact Run.cons (hf s a v hv) (run_of_replay hf h)

end Runs
