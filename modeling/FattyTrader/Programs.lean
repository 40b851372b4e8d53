import FattyTrader.Runs

/-!
# Concurrent calls of programs with atomic operations

A program (`Prog`) performs atomic operations one after the other, each with an answer
or an exception, and may branch on what it got. `attempt` turns an exception into a value,
so `try … except` is `attempt` followed by a case distinction.

A `System` runs any number of calls of such programs over one shared world. A step starts a
call, lets one call perform its next operation (`act`), or lets the environment change the
world. A call that crashes takes no more steps, so a run with crashes anywhere, also between
an operation and the receipt of its answer, is a run.

What one call may do is a statement about the call alone. `Obeys φ p es Q` says that from a
call's own events `es` on, whatever the answers are, every operation of `p` satisfies the
protocol `φ` of the own events before it, and the result satisfies `Q`. No other call
changes the own events of a call, so a protocol needs no stability argument : in every
run, each operation any call performs satisfies the protocol of its own events
(`System.protocol_of_event`). An invariant of the world is then proved from the protocols by one case
distinction over the operations (`System.inv`).
-/

set_option linter.unusedSectionVars false

open Runs

namespace Programs

variable {Op : Type} {Ans : Op → Type} {ε α β : Type}

/-! ## Programs -/

/-- A program over atomic operations. -/
inductive Prog (Op : Type) (Ans : Op → Type) (ε α : Type) : Type
  | ret (a : α)
  | raise (e : ε)
  | op (o : Op) (k : Except ε (Ans o) → Prog Op Ans ε α)

namespace Prog

def bind : Prog Op Ans ε α → (α → Prog Op Ans ε β) → Prog Op Ans ε β
  | ret a, f => f a
  | raise e, _ => raise e
  | op o k, f => op o fun r => (k r).bind f

instance : Monad (Prog Op Ans ε) where
  pure := ret
  bind := bind

/-- Perform one operation ; its exception propagates. -/
def perform (o : Op) : Prog Op Ans ε (Ans o) :=
  op o fun
    | .ok a => ret a
    | .error e => raise e

/-- The result of a program as a value. -/
def attempt : Prog Op Ans ε α → Prog Op Ans ε (Except ε α)
  | ret a => ret (.ok a)
  | raise e => ret (.error e)
  | op o k => op o fun r => (k r).attempt

/-- A program for each element, one after the other. -/
def each : List α → (α → Prog Op Ans ε β) → Prog Op Ans ε (List β)
  | [], _ => ret []
  | a :: as, f => do
    let b ← f a
    let bs ← each as f
    ret (b :: bs)

/-- A program alone on a world. -/
def run {W : Type} (exec : (o : Op) → W → Except ε (Ans o) × W) :
    Prog Op Ans ε α → W → Except ε α × W
  | ret a, w => (.ok a, w)
  | raise e, w => (.error e, w)
  | op o k, w => (k (exec o w).1).run exec (exec o w).2

section Run

variable {W : Type} {exec : (o : Op) → W → Except ε (Ans o) × W} {w w' : W}

theorem run_bind_ok {f : α → Prog Op Ans ε β} {a : α} :
    ∀ {p : Prog Op Ans ε α} {w : W}, p.run exec w = (.ok a, w') →
      (p >>= f).run exec w = (f a).run exec w'
  | .ret _, _, h => by
    obtain ⟨ha, rfl⟩ := Prod.mk.inj h
    obtain rfl := Except.ok.inj ha
    rfl
  | .raise _, _, h => by cases (Prod.mk.inj h).1
  | .op o k, w, h => run_bind_ok (p := k (exec o w).1) h

theorem run_bind_error {f : α → Prog Op Ans ε β} {e : ε} :
    ∀ {p : Prog Op Ans ε α} {w : W}, p.run exec w = (.error e, w') →
      (p >>= f).run exec w = (.error e, w')
  | .ret _, _, h => by cases (Prod.mk.inj h).1
  | .raise _, _, h => by
    obtain ⟨he, rfl⟩ := Prod.mk.inj h
    obtain rfl := Except.error.inj he
    rfl
  | .op o k, w, h => run_bind_error (p := k (exec o w).1) h

theorem run_attempt {r : Except ε α} :
    ∀ {p : Prog Op Ans ε α} {w : W}, p.run exec w = (r, w') →
      p.attempt.run exec w = (.ok r, w')
  | .ret _, _, h => by
    obtain ⟨rfl, rfl⟩ := Prod.mk.inj h
    rfl
  | .raise _, _, h => by
    obtain ⟨rfl, rfl⟩ := Prod.mk.inj h
    rfl
  | .op o k, w, h => run_attempt (p := k (exec o w).1) h

theorem run_perform (o : Op) : (perform o : Prog Op Ans ε (Ans o)).run exec w = exec o w := by
  rw [perform, Prog.run]
  rcases exec o w with ⟨_ | _, _⟩ <;> rfl

end Run

/-- Nothing is left to do. -/
def ended : Prog Op Ans ε α → Bool
  | op _ _ => false
  | _ => true

/-- Every operation of the program satisfies `P`. -/
def OpsIn (P : Op → Prop) : Prog Op Ans ε α → Prop
  | ret _ => True
  | raise _ => True
  | op o k => P o ∧ ∀ r, (k r).OpsIn P

end Prog

/-- An operation with its answer. -/
structure Event (Op : Type) (Ans : Op → Type) (ε : Type) where
  op : Op
  answer : Except ε (Ans op)

/-! ## Longer histories -/

/-- `es'` are the events `es`, followed by operations that satisfy `P`. -/
def Within (P : Op → Prop) (es es' : List (Event Op Ans ε)) : Prop :=
  ∃ qs, es' = es ++ qs ∧ ∀ e ∈ qs, P e.op

namespace Within

variable {P : Op → Prop} {es es' es'' : List (Event Op Ans ε)}

theorem refl (es : List (Event Op Ans ε)) : Within P es es := ⟨[], by simp⟩

theorem snoc {e : Event Op Ans ε} (h : P e.op) : Within P es (es ++ [e]) :=
  ⟨[e], rfl, by simpa using h⟩

theorem trans (h : Within P es es') (h' : Within P es' es'') : Within P es es'' := by
  obtain ⟨qs, rfl, hqs⟩ := h
  obtain ⟨qs', rfl, hqs'⟩ := h'
  refine ⟨qs ++ qs', by simp, fun e he => ?_⟩
  rcases List.mem_append.mp he with he | he
  · exact hqs e he
  · exact hqs' e he

theorem mono {P' : Op → Prop} (hP : ∀ o, P o → P' o) (h : Within P es es') : Within P' es es' := by
  obtain ⟨qs, rfl, hqs⟩ := h
  exact ⟨qs, rfl, fun e he => hP _ (hqs e he)⟩

theorem subset (h : Within P es es') : es ⊆ es' := by
  obtain ⟨qs, rfl, -⟩ := h
  exact List.subset_append_left es qs

end Within

/-- No event is an operation of the kind `p`. -/
def Never (p : Op → Bool) (es : List (Event Op Ans ε)) : Prop := ∀ e ∈ es, p e.op = false

@[simp] theorem never_nil (p : Op → Bool) : Never p ([] : List (Event Op Ans ε)) := by
  simp [Never]

@[simp] theorem never_cons {p : Op → Bool} {e : Event Op Ans ε} {es : List (Event Op Ans ε)} :
    Never p (e :: es) ↔ p e.op = false ∧ Never p es := by
  simp [Never]

@[simp] theorem never_append {p : Op → Bool} {es es' : List (Event Op Ans ε)} :
    Never p (es ++ es') ↔ Never p es ∧ Never p es' := by
  simp only [Never, List.mem_append]
  exact ⟨fun h => ⟨fun e he => h e (Or.inl he), fun e he => h e (Or.inr he)⟩,
    fun h e he => he.elim (h.1 e) (h.2 e)⟩

/-- Operations of other kinds do not count. -/
theorem never_of_within {P : Op → Prop} {p : Op → Bool} {es es' : List (Event Op Ans ε)}
    (hp : ∀ o, P o → p o = false) (h : Never p es) (hw : Within P es es') : Never p es' := by
  obtain ⟨qs, rfl, hqs⟩ := hw
  exact never_append.mpr ⟨h, fun e he => hp _ (hqs e he)⟩

/-! ## Protocols of one call -/

section Obeys

variable (A : (o : Op) → Except ε (Ans o) → Prop) (φ : List (Event Op Ans ε) → Op → Prop)

/-- From the own events `es` on, every operation satisfies `φ` and every result `Q`, for all
answers `A` admits. -/
def Obeys : Prog Op Ans ε α → List (Event Op Ans ε) →
    (List (Event Op Ans ε) → Except ε α → Prop) → Prop
  | .ret a, es, Q => Q es (.ok a)
  | .raise e, es, Q => Q es (.error e)
  | .op o k, es, Q => φ es o ∧ ∀ r, A o r → Obeys (k r) (es ++ [⟨o, r⟩]) Q

variable {A φ} {es : List (Event Op Ans ε)}

@[simp] theorem obeys_ret {a : α} {Q : List (Event Op Ans ε) → Except ε α → Prop} :
    Obeys A φ (.ret a) es Q ↔ Q es (.ok a) := Iff.rfl

@[simp] theorem obeys_pure {a : α} {Q : List (Event Op Ans ε) → Except ε α → Prop} :
    Obeys A φ (pure a) es Q ↔ Q es (.ok a) := Iff.rfl

@[simp] theorem obeys_raise {e : ε} {Q : List (Event Op Ans ε) → Except ε α → Prop} :
    Obeys A φ (.raise e) es Q ↔ Q es (.error e) := Iff.rfl

@[simp] theorem obeys_op {o : Op} {k : Except ε (Ans o) → Prog Op Ans ε α}
    {Q : List (Event Op Ans ε) → Except ε α → Prop} :
    Obeys A φ (.op o k) es Q ↔ φ es o ∧ ∀ r, A o r → Obeys A φ (k r) (es ++ [⟨o, r⟩]) Q :=
  Iff.rfl

theorem obeys_mono {φ' : List (Event Op Ans ε) → Op → Prop}
    {Q Q' : List (Event Op Ans ε) → Except ε α → Prop} (hφ : ∀ es o, φ es o → φ' es o)
    (hQ : ∀ es r, Q es r → Q' es r) :
    ∀ {p : Prog Op Ans ε α} {es : List (Event Op Ans ε)},
      Obeys A φ p es Q → Obeys A φ' p es Q'
  | .ret _, _, h => hQ _ _ h
  | .raise _, _, h => hQ _ _ h
  | .op _ _, _, h => ⟨hφ _ _ h.1, fun r hr => obeys_mono hφ hQ (h.2 r hr)⟩

/-- The consequence rule. -/
theorem Obeys.imp {Q Q' : List (Event Op Ans ε) → Except ε α → Prop} {p : Prog Op Ans ε α}
    (h : Obeys A φ p es Q) (hQ : ∀ es r, Q es r → Q' es r) : Obeys A φ p es Q' :=
  obeys_mono (fun _ _ h => h) hQ h

/-- What a sequel must do after the first part, or after its exception. -/
def Then (A : (o : Op) → Except ε (Ans o) → Prop) (φ : List (Event Op Ans ε) → Op → Prop)
    (f : α → Prog Op Ans ε β) (Q : List (Event Op Ans ε) → Except ε β → Prop)
    (es : List (Event Op Ans ε)) : Except ε α → Prop
  | .ok a => Obeys A φ (f a) es Q
  | .error e => Q es (.error e)

@[simp] theorem then_ok {f : α → Prog Op Ans ε β}
    {Q : List (Event Op Ans ε) → Except ε β → Prop} {a : α} :
    Then A φ f Q es (.ok a) ↔ Obeys A φ (f a) es Q := Iff.rfl

@[simp] theorem then_error {f : α → Prog Op Ans ε β}
    {Q : List (Event Op Ans ε) → Except ε β → Prop} {e : ε} :
    Then A φ f Q es (.error e) ↔ Q es (.error e) := Iff.rfl

/-- The rule of sequential composition. -/
theorem obeys_bind {f : α → Prog Op Ans ε β} {Q : List (Event Op Ans ε) → Except ε β → Prop} :
    ∀ {p : Prog Op Ans ε α} {es : List (Event Op Ans ε)},
      Obeys A φ (p >>= f) es Q ↔ Obeys A φ p es (Then A φ f Q)
  | .ret _, _ => Iff.rfl
  | .raise _, _ => Iff.rfl
  | .op _ _, _ => and_congr_right fun _ => forall₂_congr fun _ _ => obeys_bind

theorem obeys_attempt {Q : List (Event Op Ans ε) → Except ε (Except ε α) → Prop} :
    ∀ {p : Prog Op Ans ε α} {es : List (Event Op Ans ε)},
      Obeys A φ p.attempt es Q ↔ Obeys A φ p es fun es r => Q es (.ok r)
  | .ret _, _ => Iff.rfl
  | .raise _, _ => Iff.rfl
  | .op _ _, _ => and_congr_right fun _ => forall₂_congr fun _ _ => obeys_attempt

theorem obeys_perform {o : Op} {Q : List (Event Op Ans ε) → Except ε (Ans o) → Prop} :
    Obeys A φ (.perform o) es Q ↔ φ es o ∧ ∀ r, A o r → Q (es ++ [⟨o, r⟩]) r := by
  refine and_congr_right fun _ => forall₂_congr fun r _ => ?_
  cases r <;> rfl

/-- One operation and its sequel. -/
theorem obeys_perform_bind {o : Op} {f : Ans o → Prog Op Ans ε β}
    {Q : List (Event Op Ans ε) → Except ε β → Prop} (hφ : φ es o)
    (hok : ∀ a, A o (.ok a) → Obeys A φ (f a) (es ++ [⟨o, .ok a⟩]) Q)
    (herr : ∀ e, A o (.error e) → Q (es ++ [⟨o, .error e⟩]) (.error e)) :
    Obeys A φ (.perform o >>= f) es Q := by
  refine obeys_bind.mpr (obeys_perform.mpr ⟨hφ, fun r hr => ?_⟩)
  cases r with
  | ok a => exact hok a hr
  | error e => exact herr e hr

/-- The frame rule : a program whose operations all satisfy `P` obeys every protocol that
admits such operations after any such events. -/
theorem obeys_of_opsIn {P : Op → Prop} {Q : List (Event Op Ans ε) → Except ε α → Prop} :
    ∀ {p : Prog Op Ans ε α} {es : List (Event Op Ans ε)}, p.OpsIn P →
      (∀ qs o, (∀ e ∈ qs, P e.op) → P o → φ (es ++ qs) o) →
      (∀ qs r, (∀ e ∈ qs, P e.op) → Q (es ++ qs) r) → Obeys A φ p es Q
  | .ret _, es, _, _, hQ => by simpa using hQ [] _ (by simp)
  | .raise _, es, _, _, hQ => by simpa using hQ [] _ (by simp)
  | .op o k, es, h, hφ, hQ => by
    refine ⟨by simpa using hφ [] o (by simp) h.1, fun r _ => ?_⟩
    refine obeys_of_opsIn (h.2 r) (fun qs o' hqs ho' => ?_) fun qs r' hqs => ?_
    · have := hφ (⟨o, r⟩ :: qs) o' (by simpa [h.1] using hqs) ho'
      simpa using this
    · have := hQ (⟨o, r⟩ :: qs) r' (by simpa [h.1] using hqs)
      simpa using this

/-- A program the protocol does not restrict. -/
theorem obeys_free {P : Op → Prop} {Q : List (Event Op Ans ε) → Except ε α → Prop}
    {p : Prog Op Ans ε α} (hp : p.OpsIn P) (hφ : ∀ es o, P o → φ es o)
    (hQ : ∀ es' r, Within P es es' → Q es' r) : Obeys A φ p es Q :=
  obeys_of_opsIn hp (fun _ o _ ho => hφ _ o ho) fun qs r hqs => hQ _ r ⟨qs, rfl, hqs⟩

/-- The rule of a loop : each round keeps `I`, also where it raises. -/
theorem obeys_each {I : List (Event Op Ans ε) → Prop} {f : α → Prog Op Ans ε β}
    {Q : List (Event Op Ans ε) → Except ε (List β) → Prop} (hQ : ∀ es r, I es → Q es r) :
    ∀ {as : List α} {es : List (Event Op Ans ε)},
      (∀ a ∈ as, ∀ es, I es → Obeys A φ (f a) es fun es' _ => I es') → I es →
      Obeys A φ (.each as f) es Q
  | [], es, _, hI => hQ es _ hI
  | a :: as, es, h, hI => by
    refine obeys_bind.mpr ((h a List.mem_cons_self es hI).imp fun es₁ r hI₁ => ?_)
    cases r with
    | error e => exact hQ es₁ _ hI₁
    | ok b =>
      refine obeys_bind.mpr (obeys_each (I := I) (fun es₂ r hI₂ => ?_)
        (fun a ha => h a (List.mem_cons_of_mem _ ha)) hI₁)
      cases r with
      | error e => exact hQ es₂ _ hI₂
      | ok bs => exact hQ es₂ _ hI₂

/-- A first part the protocol does not restrict, before a sequel that obeys it after any
events. -/
theorem obeys_bind_of_opsIn {P : Op → Prop} {f : α → Prog Op Ans ε β}
    {Q : List (Event Op Ans ε) → Except ε β → Prop} {p : Prog Op Ans ε α} (hp : p.OpsIn P)
    (hφ : ∀ es o, P o → φ es o) (hf : ∀ a es, Obeys A φ (f a) es Q)
    (hQ : ∀ e es, Q es (.error e)) : Obeys A φ (p >>= f) es Q := by
  refine obeys_bind.mpr (obeys_of_opsIn hp (fun qs o _ ho => hφ _ o ho) fun qs r _ => ?_)
  cases r with
  | ok a => exact hf a _
  | error e => exact hQ e _

/-- A program that obeys two specifications has an outcome that satisfies both. -/
theorem obeys_exists {φ' : List (Event Op Ans ε) → Op → Prop}
    {Q Q' : List (Event Op Ans ε) → Except ε α → Prop} (hA : ∀ o, ∃ r, A o r) :
    ∀ {p : Prog Op Ans ε α} {es : List (Event Op Ans ε)}, Obeys A φ p es Q → Obeys A φ' p es Q' →
      ∃ es' r, Q es' r ∧ Q' es' r
  | .ret a, es, h, h' => ⟨es, .ok a, h, h'⟩
  | .raise e, es, h, h' => ⟨es, .error e, h, h'⟩
  | .op o _, _, h, h' => by
    obtain ⟨r, hr⟩ := hA o
    exact obeys_exists hA (h.2 r hr) (h'.2 r hr)

end Obeys

namespace Prog

theorem opsIn_mono {P P' : Op → Prop} (hP : ∀ o, P o → P' o) :
    ∀ {p : Prog Op Ans ε α}, p.OpsIn P → p.OpsIn P'
  | ret _, _ => trivial
  | raise _, _ => trivial
  | op _ _, h => ⟨hP _ h.1, fun r => opsIn_mono hP (h.2 r)⟩

theorem opsIn_bind {P : Op → Prop} {f : α → Prog Op Ans ε β} (hf : ∀ a, (f a).OpsIn P) :
    ∀ {p : Prog Op Ans ε α}, p.OpsIn P → (p >>= f).OpsIn P
  | ret a, _ => hf a
  | raise _, _ => trivial
  | op _ _, h => ⟨h.1, fun r => opsIn_bind hf (h.2 r)⟩

theorem opsIn_bind_pure {P : Op → Prop} {f : α → β} {p : Prog Op Ans ε α} (h : p.OpsIn P) :
    (p >>= fun a => pure (f a)).OpsIn P := by
  refine opsIn_bind (fun a => ?_) h
  trivial

theorem opsIn_attempt {P : Op → Prop} :
    ∀ {p : Prog Op Ans ε α}, p.OpsIn P → p.attempt.OpsIn P
  | ret _, _ => trivial
  | raise _, _ => trivial
  | op _ _, h => ⟨h.1, fun r => opsIn_attempt (h.2 r)⟩

theorem opsIn_perform {P : Op → Prop} {o : Op} (h : P o) :
    (perform o : Prog Op Ans ε (Ans o)).OpsIn P := by
  refine ⟨h, fun r => ?_⟩
  cases r <;> trivial

theorem opsIn_each {P : Op → Prop} {f : α → Prog Op Ans ε β} :
    ∀ {as : List α}, (∀ a ∈ as, (f a).OpsIn P) → (each as f).OpsIn P
  | [], _ => trivial
  | a :: as, h => by
    refine opsIn_bind (fun b => ?_) (h a List.mem_cons_self)
    have hrest : (each as f).OpsIn P :=
      opsIn_each fun a' ha => h a' (List.mem_cons_of_mem a ha)
    exact opsIn_bind_pure hrest

end Prog

/-! ## Systems of calls -/

variable {ι W C E : Type}

/-- Calls of kind `ι` over the world `W`. `exec` performs one operation ; the schedule
chooses, by `C`, among the answers it allows. `env` are the changes of the environment. -/
structure System (Op : Type) (Ans : Op → Type) (ε ι W C E : Type) where
  body : ι → Prog Op Ans ε Unit
  exec : (o : Op) → W → C → Option (Except ε (Ans o) × W)
  env : W → E → Option W

/-- The world, what each call still has to do, and every event with the call it belongs
to. -/
structure State (Op : Type) (Ans : Op → Type) (ε ι W : Type) where
  world : W
  calls : List (ι × Prog Op Ans ε Unit)
  trace : List (ℕ × Event Op Ans ε)

inductive Label (ι C E : Type)
  | start (i : ι)
  | act (n : ℕ) (c : C)
  | env (e : E)

/-- The events of the call `n`. -/
def own (n : ℕ) (tr : List (ℕ × Event Op Ans ε)) : List (Event Op Ans ε) :=
  (tr.filter fun p => p.1 = n).map Prod.snd

@[simp] theorem own_nil (n : ℕ) : own n ([] : List (ℕ × Event Op Ans ε)) = [] := rfl

theorem own_append (n : ℕ) (tr tr' : List (ℕ × Event Op Ans ε)) :
    own n (tr ++ tr') = own n tr ++ own n tr' := by
  simp [own]

@[simp] theorem own_snoc_self (n : ℕ) (tr : List (ℕ × Event Op Ans ε)) (e : Event Op Ans ε) :
    own n (tr ++ [(n, e)]) = own n tr ++ [e] := by
  simp [own]

theorem own_snoc_ne {m n : ℕ} (h : m ≠ n) (tr : List (ℕ × Event Op Ans ε))
    (e : Event Op Ans ε) : own n (tr ++ [(m, e)]) = own n tr := by
  simp [own, h]

theorem mem_own {n : ℕ} {tr : List (ℕ × Event Op Ans ε)} {e : Event Op Ans ε} :
    e ∈ own n tr ↔ (n, e) ∈ tr := by
  simp [own]

theorem own_filter_ne {m n : ℕ} (h : m ≠ n) (tr : List (ℕ × Event Op Ans ε)) :
    own m (tr.filter fun q => !decide (q.1 = n)) = own m tr := by
  simp only [own, List.filter_filter]
  congr 1
  refine List.filter_congr fun q _ => ?_
  by_cases hq : q.1 = m
  · simp [hq, h]
  · simp [hq]

theorem own_filter_self (n : ℕ) (tr : List (ℕ × Event Op Ans ε)) :
    own n (tr.filter fun q => !decide (q.1 = n)) = [] := by
  simp [own, List.filter_filter]

/-- What every call has no more events of one kind than of another, all calls together have no
more of either. -/
theorem countP_le_of_own {p c : Event Op Ans ε → Bool} :
    ∀ {k : ℕ} {tr : List (ℕ × Event Op Ans ε)}, tr.length ≤ k →
      (∀ n, (own n tr).countP p ≤ (own n tr).countP c) →
      tr.countP (fun q => p q.2) ≤ tr.countP fun q => c q.2
  | 0, tr, hk, _ => by
    obtain rfl : tr = [] := List.length_eq_zero_iff.mp (by omega)
    simp
  | k + 1, [], _, _ => by simp
  | k + 1, q :: tr, hk, h => by
    -- the events of the first event's call, and those of the other calls
    have hsplit : ∀ d : Event Op Ans ε → Bool, (q :: tr).countP (fun x => d x.2) =
        (own q.1 (q :: tr)).countP d +
          ((q :: tr).filter fun x => !decide (x.1 = q.1)).countP fun x => d x.2 := by
      intro d
      rw [List.countP_eq_countP_filter_add _ _ fun x => decide (x.1 = q.1), own, List.countP_map]
      rfl
    have hrest : ((q :: tr).filter fun x => !decide (x.1 = q.1)).length ≤ k := by
      have := List.length_filter_le (fun x => !decide (x.1 = q.1)) tr
      simp only [List.length_cons] at hk
      simp only [decide_true, Bool.not_true, Bool.false_eq_true, not_false_eq_true,
        List.filter_cons_of_neg]
      omega
    have hothers := countP_le_of_own (p := p) (c := c) hrest fun m => by
      by_cases hm : m = q.1
      · rw [hm, own_filter_self]
        simp
      · rw [own_filter_ne hm]
        exact h m
    have hfirst := h q.1
    rw [hsplit p, hsplit c]
    omega

namespace State

/-- No call, no event. -/
def init (w : W) : State Op Ans ε ι W := ⟨w, [], []⟩

def started (s : State Op Ans ε ι W) (i : ι) (p : Prog Op Ans ε Unit) : State Op Ans ε ι W :=
  { s with calls := s.calls ++ [(i, p)] }

def acted (s : State Op Ans ε ι W) (n : ℕ) (i : ι) (e : Event Op Ans ε)
    (p : Prog Op Ans ε Unit) (w : W) : State Op Ans ε ι W :=
  ⟨w, s.calls.set n (i, p), s.trace ++ [(n, e)]⟩

/-- A step of a call adds to its own events only. -/
theorem own_acted (s : State Op Ans ε ι W) (n : ℕ) (i : ι) (e : Event Op Ans ε)
    (p : Prog Op Ans ε Unit) (w : W) (m : ℕ) :
    own m (s.acted n i e p w).trace = own m s.trace ++ if m = n then [e] else [] := by
  by_cases h : m = n
  · subst h
    simp [acted]
  · simp [acted, own_snoc_ne (Ne.symm h), h]

/-- The kind of the call `n` and the operation it is about to perform. -/
def next (s : State Op Ans ε ι W) (n : ℕ) : Option (ι × Op) :=
  match s.calls[n]? with
  | some (i, .op o _) => some (i, o)
  | _ => none

theorem next_eq_some {s : State Op Ans ε ι W} {n : ℕ} {i : ι} {o : Op} :
    s.next n = some (i, o) ↔ ∃ k, s.calls[n]? = some (i, .op o k) := by
  unfold next
  split
  next i' o' k' h =>
    simp only [Option.some.injEq, Prod.mk.injEq, h]
    constructor
    · rintro ⟨rfl, rfl⟩
      exact ⟨k', rfl, rfl⟩
    · rintro ⟨k, rfl, hk⟩
      cases hk
      exact ⟨rfl, rfl⟩
  next h =>
    constructor
    · intro h'
      cases h'
    · rintro ⟨k, hk⟩
      exact absurd hk (h i o k)

/-- The kind of the call `n`. -/
def kind (s : State Op Ans ε ι W) (n : ℕ) : Option ι := s.calls[n]?.map Prod.fst

theorem kind_of_call {s : State Op Ans ε ι W} {n : ℕ} {i : ι} {p : Prog Op Ans ε Unit}
    (h : s.calls[n]? = some (i, p)) : s.kind n = some i := by
  simp [kind, h]

theorem kind_acted {s : State Op Ans ε ι W} {n : ℕ} {i : ι} {p : Prog Op Ans ε Unit}
    (h : s.calls[n]? = some (i, p)) (e : Event Op Ans ε) (q : Prog Op Ans ε Unit) (w : W) (m : ℕ) :
    (s.acted n i e q w).kind m = s.kind m := by
  by_cases hmn : m = n
  · subst hmn
    have hlt : m < s.calls.length := (List.getElem?_eq_some_iff.mp h).1
    simp [kind, acted, List.getElem?_set_self hlt, h]
  · simp [kind, acted, List.getElem?_set_ne (Ne.symm hmn)]

theorem kind_started (s : State Op Ans ε ι W) (i : ι) (p : Prog Op Ans ε Unit) (m : ℕ) :
    (s.started i p).kind m = if m = s.calls.length then some i else s.kind m := by
  rcases Nat.lt_trichotomy m s.calls.length with hlt | heq | hgt
  · simp [kind, started, List.getElem?_append_left hlt, Nat.ne_of_lt hlt]
  · subst heq
    simp [kind, started]
  · rw [if_neg (Nat.ne_of_gt hgt), kind, kind, started, List.getElem?_eq_none (by simp; omega),
      List.getElem?_eq_none (by omega)]

theorem lt_of_kind {s : State Op Ans ε ι W} {n : ℕ} {i : ι} (h : s.kind n = some i) :
    n < s.calls.length := by
  obtain ⟨q, hq, -⟩ := Option.map_eq_some_iff.mp h
  exact (List.getElem?_eq_some_iff.mp hq).1

theorem next_acted_ne {s : State Op Ans ε ι W} {n m : ℕ} (h : m ≠ n) (i : ι)
    (e : Event Op Ans ε) (p : Prog Op Ans ε Unit) (w : W) :
    (s.acted n i e p w).next m = s.next m := by
  simp [next, acted, List.getElem?_set_ne (Ne.symm h)]

theorem next_started_of_some {s : State Op Ans ε ι W} {i : ι} {p : Prog Op Ans ε Unit} {n : ℕ}
    {j : ι} {o : Op} (h : (s.started i p).next n = some (j, o)) (hn : n ≠ s.calls.length) :
    s.next n = some (j, o) := by
  obtain ⟨k, hk⟩ := next_eq_some.mp h
  refine next_eq_some.mpr ⟨k, ?_⟩
  rcases Nat.lt_or_ge n s.calls.length with hlt | hge
  · rwa [started, List.getElem?_append_left hlt] at hk
  · rw [started, List.getElem?_eq_none (by simp; omega)] at hk
    cases hk

end State

namespace System

variable (S : System Op Ans ε ι W C E)

/-- One step, where the schedule allows it. -/
def step (s : State Op Ans ε ι W) : Label ι C E → Option (State Op Ans ε ι W)
  | .start i => some (s.started i (S.body i))
  | .act n c =>
    match s.calls[n]? with
    | some (i, .op o k) =>
      match S.exec o s.world c with
      | some (r, w) => some (s.acted n i ⟨o, r⟩ (k r) w)
      | none => none
    | _ => none
  | .env e => (S.env s.world e).map fun w => { s with world := w }

/-- The step relation of the system. -/
def Step (s : State Op Ans ε ι W) (l : Label ι C E) (t : State Op Ans ε ι W) : Prop :=
  S.step s l = some t

variable {S}

/-- What an acting call does. -/
theorem step_act {s t : State Op Ans ε ι W} {n : ℕ} {c : C} (h : S.Step s (.act n c) t) :
    ∃ i o k r w, s.calls[n]? = some (i, .op o k) ∧ S.exec o s.world c = some (r, w) ∧
      t = s.acted n i ⟨o, r⟩ (k r) w := by
  rw [Step, step.eq_def] at h
  dsimp only at h
  split at h
  next i o k hn =>
    split at h
    next r w hx => exact ⟨i, o, k, r, w, hn, hx, (Option.some.inj h).symm⟩
    · cases h
  · cases h

/-! ## Protocols hold in every run -/

variable {A : (o : Op) → Except ε (Ans o) → Prop}
  {φ : ι → List (Event Op Ans ε) → Op → Prop}

/-- Every call obeys its protocol from its start. -/
def Follows (S : System Op Ans ε ι W C E) (A : (o : Op) → Except ε (Ans o) → Prop)
    (φ : ι → List (Event Op Ans ε) → Op → Prop) : Prop :=
  ∀ i, Obeys A (φ i) (S.body i) [] fun _ _ => True

/-- The operations answer as `A` admits. -/
def Answers (S : System Op Ans ε ι W C E) (A : (o : Op) → Except ε (Ans o) → Prop) : Prop :=
  ∀ o w c r w', S.exec o w c = some (r, w') → A o r

/-- What each call still has to do obeys its protocol after its own events. -/
def Sound (A : (o : Op) → Except ε (Ans o) → Prop)
    (φ : ι → List (Event Op Ans ε) → Op → Prop) (s : State Op Ans ε ι W) : Prop :=
  (∀ n i p, s.calls[n]? = some (i, p) → Obeys A (φ i) p (own n s.trace) fun _ _ => True) ∧
    ∀ q ∈ s.trace, q.1 < s.calls.length

/-- And it ends as `Q` says. -/
def SoundTo (A : (o : Op) → Except ε (Ans o) → Prop)
    (φ : ι → List (Event Op Ans ε) → Op → Prop)
    (Q : ι → List (Event Op Ans ε) → Except ε Unit → Prop) (s : State Op Ans ε ι W) : Prop :=
  (∀ n i p, s.calls[n]? = some (i, p) → Obeys A (φ i) p (own n s.trace) (Q i)) ∧
    ∀ q ∈ s.trace, q.1 < s.calls.length

variable {Q : ι → List (Event Op Ans ε) → Except ε Unit → Prop}

theorem soundTo_init (w : W) : SoundTo A φ Q (State.init w : State Op Ans ε ι W) := by
  constructor
  · intro n i p h
    simp [State.init] at h
  · intro q h
    simp [State.init] at h

theorem sound_init (w : W) : Sound A φ (State.init w : State Op Ans ε ι W) := soundTo_init w

theorem own_eq_nil {s : State Op Ans ε ι W} {n : ℕ} (h : ∀ q ∈ s.trace, q.1 < s.calls.length)
    (hn : s.calls.length ≤ n) : own n s.trace = [] := by
  simp only [own, List.map_eq_nil_iff, List.filter_eq_nil_iff, decide_eq_true_eq]
  intro q hq
  have := h q hq
  omega

theorem soundTo_started {s : State Op Ans ε ι W} (h : SoundTo A φ Q s) {i : ι}
    (hi : Obeys A (φ i) (S.body i) [] (Q i)) : SoundTo A φ Q (s.started i (S.body i)) := by
  obtain ⟨hcalls, htrace⟩ := h
  constructor
  · intro n j p hn
    rcases Nat.lt_trichotomy n s.calls.length with hlt | heq | hgt
    · rw [State.started, List.getElem?_append_left hlt] at hn
      exact hcalls n j p hn
    · subst heq
      simp only [State.started, List.getElem?_concat_length, Option.some.injEq,
        Prod.mk.injEq] at hn
      obtain ⟨rfl, rfl⟩ := hn
      have : own s.calls.length s.trace = [] := own_eq_nil htrace (Nat.le_refl _)
      simpa [State.started, this] using hi
    · simp only [State.started] at hn
      rw [List.getElem?_eq_none (by simp; omega)] at hn
      cases hn
  · intro q hq
    have := htrace q hq
    simp only [State.started, List.length_append, List.length_singleton]
    omega

theorem sound_started (hS : S.Follows A φ) {s : State Op Ans ε ι W} (h : Sound A φ s) (i : ι) :
    Sound A φ (s.started i (S.body i)) :=
  soundTo_started h (hS i)

theorem soundTo_acted {s : State Op Ans ε ι W} (h : SoundTo A φ Q s) {n : ℕ} {i : ι} {o : Op}
    {k : Except ε (Ans o) → Prog Op Ans ε Unit} (hn : s.calls[n]? = some (i, .op o k))
    {r : Except ε (Ans o)} (hr : A o r) (w : W) : SoundTo A φ Q (s.acted n i ⟨o, r⟩ (k r) w) := by
  obtain ⟨hcalls, htrace⟩ := h
  have hlt : n < s.calls.length := by
    by_contra hge
    rw [List.getElem?_eq_none (by omega)] at hn
    cases hn
  constructor
  · intro m j p hm
    by_cases hmn : m = n
    · subst hmn
      simp only [State.acted, List.getElem?_set_self hlt, Option.some.injEq, Prod.mk.injEq] at hm
      obtain ⟨rfl, rfl⟩ := hm
      have := (hcalls m i _ hn).2 r hr
      simpa [State.acted] using this
    · rw [State.acted, List.getElem?_set_ne (Ne.symm hmn)] at hm
      have := hcalls m j p hm
      simpa [State.acted, own_snoc_ne (Ne.symm hmn)] using this
  · intro q hq
    simp only [State.acted, List.length_set, List.mem_append, List.mem_singleton] at hq ⊢
    rcases hq with hq | rfl
    · exact htrace q hq
    · exact hlt

theorem sound_acted {s : State Op Ans ε ι W} (h : Sound A φ s) {n : ℕ} {i : ι} {o : Op}
    {k : Except ε (Ans o) → Prog Op Ans ε Unit} (hn : s.calls[n]? = some (i, .op o k))
    {r : Except ε (Ans o)} (hr : A o r) (w : W) : Sound A φ (s.acted n i ⟨o, r⟩ (k r) w) :=
  soundTo_acted h hn hr w

/-- The protocol of the operation a call is about to perform. -/
theorem protocol_of_sound {s : State Op Ans ε ι W} (h : Sound A φ s) {n : ℕ} {i : ι} {o : Op}
    {k : Except ε (Ans o) → Prog Op Ans ε Unit} (hn : s.calls[n]? = some (i, .op o k)) :
    φ i (own n s.trace) o :=
  (h.1 n i _ hn).1

theorem sound_step (hA : S.Answers A) (hS : S.Follows A φ) {s t : State Op Ans ε ι W}
    {l : Label ι C E} (h : Sound A φ s) (hstep : S.Step s l t) : Sound A φ t := by
  cases l with
  | start i =>
    obtain rfl := Option.some.inj hstep
    exact sound_started hS h i
  | act n c =>
    obtain ⟨i, o, k, r, w, hn, hx, rfl⟩ := step_act hstep
    exact sound_acted h hn (hA o s.world c r w hx) w
  | env e =>
    obtain ⟨w, -, rfl⟩ := Option.map_eq_some_iff.mp hstep
    exact h

theorem sound_run (hA : S.Answers A) (hS : S.Follows A φ) {s t : State Op Ans ε ι W}
    {ls : List (Label ι C E)} (h : Sound A φ s) (hrun : Run S.Step s ls t) : Sound A φ t :=
  hrun.inv (fun _ _ _ hs hstep => sound_step hA hS hs hstep) h

/-- The invariant rule : what every start, every operation that satisfies its protocol, and
every change of the environment keep, among the steps the condition `G` admits, holds in
every state of every run. -/
theorem inv (hA : S.Answers A) (hS : S.Follows A φ) {G : State Op Ans ε ι W → Label ι C E → Prop}
    {I : State Op Ans ε ι W → Prop}
    (hstart : ∀ s i, Sound A φ s → I s → G s (.start i) → I (s.started i (S.body i)))
    (hact : ∀ s n i o k c r w, Sound A φ s → I s → s.calls[n]? = some (i, .op o k) →
      φ i (own n s.trace) o → S.exec o s.world c = some (r, w) → G s (.act n c) →
      I (s.acted n i ⟨o, r⟩ (k r) w))
    (henv : ∀ s e w, Sound A φ s → I s → S.env s.world e = some w → G s (.env e) →
      I { s with world := w })
    {s t : State Op Ans ε ι W} {ls : List (Label ι C E)} (hs : Sound A φ s) (hI : I s)
    (hrun : Run (Guard S.Step G) s ls t) : Sound A φ t ∧ I t := by
  refine hrun.inv (I := fun s => Sound A φ s ∧ I s) ?_ ⟨hs, hI⟩
  rintro s l t ⟨hs, hI⟩ ⟨hG, hstep⟩
  refine ⟨sound_step hA hS hs hstep, ?_⟩
  cases l with
  | start i =>
    obtain rfl := Option.some.inj hstep
    exact hstart s i hs hI hG
  | act n c =>
    obtain ⟨i, o, k, r, w, hn, hx, rfl⟩ := step_act hstep
    exact hact s n i o k c r w hs hI hn (protocol_of_sound hs hn) hx hG
  | env e =>
    obtain ⟨w, hw, rfl⟩ := Option.map_eq_some_iff.mp hstep
    exact henv s e w hs hI hw hG

/-! ## Events of a run -/

theorem kind_of_step {s t : State Op Ans ε ι W} {l : Label ι C E} (h : S.Step s l t) {n : ℕ}
    {i : ι} (hn : s.kind n = some i) : t.kind n = some i := by
  cases l with
  | start j =>
    obtain rfl := Option.some.inj h
    rw [State.kind_started, if_neg (Nat.ne_of_lt (State.lt_of_kind hn)), hn]
  | act m c =>
    obtain ⟨j, o, k, r, w, hm, -, rfl⟩ := step_act h
    rw [State.kind_acted hm, hn]
  | env e =>
    obtain ⟨w, -, rfl⟩ := Option.map_eq_some_iff.mp h
    exact hn

/-- Every event of a run was performed under the protocol of its call. -/
theorem protocol_of_event (hA : S.Answers A) (hS : S.Follows A φ) {w : W}
    {t : State Op Ans ε ι W} {ls : List (Label ι C E)} (h : Run S.Step (State.init w) ls t)
    {tr tr' : List (ℕ × Event Op Ans ε)} {q : ℕ × Event Op Ans ε} (ht : t.trace = tr ++ q :: tr') :
    ∃ i, t.kind q.1 = some i ∧ φ i (own q.1 tr) q.2.op := by
  let I : State Op Ans ε ι W → Prop := fun s => ∀ tr tr' q, s.trace = tr ++ q :: tr' →
    ∃ i, s.kind q.1 = some i ∧ φ i (own q.1 tr) q.2.op
  have hstep : ∀ s l t, Sound A φ s ∧ I s → S.Step s l t → Sound A φ t ∧ I t := by
    rintro s l t ⟨hs, hI⟩ hstep
    refine ⟨sound_step hA hS hs hstep, fun tr tr' q ht => ?_⟩
    have hkept : s.trace = t.trace → ∃ i, t.kind q.1 = some i ∧ φ i (own q.1 tr) q.2.op := by
      intro heq
      obtain ⟨i, hi, hφ⟩ := hI tr tr' q (heq.trans ht)
      exact ⟨i, kind_of_step hstep hi, hφ⟩
    cases l with
    | start i =>
      obtain rfl := Option.some.inj hstep
      exact hkept rfl
    | env e =>
      obtain ⟨w, -, rfl⟩ := Option.map_eq_some_iff.mp hstep
      exact hkept rfl
    | act n c =>
      obtain ⟨i, o, k, r, w, hn, hx, rfl⟩ := step_act hstep
      have ht' : s.trace ++ [(n, ⟨o, r⟩)] = tr ++ q :: tr' := ht
      rcases Runs.split_snoc ht' with ⟨rfl, rfl, -⟩ | ⟨tr'', -, htr⟩
      · exact ⟨i, (State.kind_acted hn _ _ _ _).trans (State.kind_of_call hn),
          protocol_of_sound hs hn⟩
      · obtain ⟨j, hj, hφ⟩ := hI tr tr'' q htr
        exact ⟨j, kind_of_step hstep hj, hφ⟩
  have hinit : I (State.init w) := by
    intro tr tr' q h
    simp [State.init] at h
  exact (h.inv (I := fun s => Sound A φ s ∧ I s) hstep ⟨sound_init w, hinit⟩).2 tr tr' q ht

/-- Every event of a run is there from the start, or was performed in a step of its call. -/
theorem event_of_run {s t : State Op Ans ε ι W} {ls : List (Label ι C E)}
    (h : Run S.Step s ls t) {q : ℕ × Event Op Ans ε} (hq : q ∈ t.trace) :
    q ∈ s.trace ∨ ∃ u v as bs c i k, Run S.Step s as u ∧ S.Step u (.act q.1 c) v ∧
      u.calls[q.1]? = some (i, .op q.2.op k) ∧
      S.exec q.2.op u.world c = some (q.2.answer, v.world) ∧
      v.trace = u.trace ++ [q] ∧ Run S.Step v bs t := by
  induction h with
  | nil => exact Or.inl hq
  | @cons s s' t l ls hstep hrun ih =>
    rcases ih hq with hmem | ⟨u, v, as, bs, c, i, k, hu, hv, hcall, hx, htrace, hrun'⟩
    · cases l with
      | start i =>
        obtain rfl := Option.some.inj hstep
        exact Or.inl hmem
      | env e =>
        obtain ⟨w, -, rfl⟩ := Option.map_eq_some_iff.mp hstep
        exact Or.inl hmem
      | act n c =>
        obtain ⟨i, o, k, r, w, hn, hx, rfl⟩ := step_act hstep
        rcases List.mem_append.mp hmem with hmem | hmem
        · exact Or.inl hmem
        · obtain rfl := List.mem_singleton.mp hmem
          exact Or.inr ⟨s, _, [], ls, c, i, k, Run.nil s, hstep, hn, hx, rfl, hrun⟩
    · exact Or.inr ⟨u, v, l :: as, bs, c, i, k, Run.cons hstep hu, hv, hcall, hx, htrace, hrun'⟩

end System

end Programs
