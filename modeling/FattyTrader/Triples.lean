import FattyTrader.Programs

/-!
# Programs alone on a world

`Effect` says which answers an operation may have in a world, and what it leaves. `Prog.Ran` are the
runs of a program alone on a world, with their events, and `Ensures` is its weakest precondition :
every run ends with a result and a world that satisfy `Q` (`Ensures.of_ran`).

The rules follow the constructs of programs (`ensures_bind`, `ensures_attempt`, `ensures_perform_bind`).
`Effect.watch` marks whether a run had a bad event, and a run may be repeated on a world that answers the
same (`Prog.Ran.transfer`).
-/

set_option linter.unusedSectionVars false

namespace Programs

variable {Op : Type} {Ans : Op → Type} {ε α β W : Type}

/-- How operations change a world. -/
abbrev Effect (Op : Type) (Ans : Op → Type) (ε W : Type) :=
  (o : Op) → W → Except ε (Ans o) → W → Prop

/-- From the world `w`, the program performs the events `es`, ends with `r` and leaves `w'`. -/
def Prog.Ran (R : Effect Op Ans ε W) :
    Prog Op Ans ε α → W → List (Event Op Ans ε) → Except ε α → W → Prop
  | .ret a, w, es, r, w' => es = [] ∧ r = .ok a ∧ w' = w
  | .raise e, w, es, r, w' => es = [] ∧ r = .error e ∧ w' = w
  | .op o k, w, es, r, w' => ∃ x v es', R o w x v ∧ (k x).Ran R v es' r w' ∧ es = ⟨o, x⟩ :: es'

/-- The events of a program where `exec` answers. -/
def Prog.events (exec : (o : Op) → W → Except ε (Ans o) × W) :
    Prog Op Ans ε α → W → List (Event Op Ans ε)
  | .ret _, _ => []
  | .raise _, _ => []
  | .op o k, w => ⟨o, (exec o w).1⟩ :: (k (exec o w).1).events exec (exec o w).2

theorem ran_run {R : Effect Op Ans ε W} {exec : (o : Op) → W → Except ε (Ans o) × W}
    (h : ∀ o w, R o w (exec o w).1 (exec o w).2) :
    ∀ (p : Prog Op Ans ε α) (w : W), p.Ran R w (p.events exec w) (p.run exec w).1 (p.run exec w).2
  | .ret _, _ => ⟨rfl, rfl, rfl⟩
  | .raise _, _ => ⟨rfl, rfl, rfl⟩
  | .op o k, w => ⟨_, _, _, h o w, ran_run h (k (exec o w).1) (exec o w).2, rfl⟩

/-- Every operation meets a check where `exec` answers. -/
def Prog.meets (check : (o : Op) → W → Bool) (exec : (o : Op) → W → Except ε (Ans o) × W) :
    Prog Op Ans ε α → W → Bool
  | .ret _, _ => true
  | .raise _, _ => true
  | .op o k, w => check o w && (k (exec o w).1).meets check exec (exec o w).2

theorem ran_of_meets {R : Effect Op Ans ε W} {exec : (o : Op) → W → Except ε (Ans o) × W}
    {check : (o : Op) → W → Bool}
    (h : ∀ o w, check o w = true → R o w (exec o w).1 (exec o w).2) :
    ∀ (p : Prog Op Ans ε α) (w : W), p.meets check exec w = true →
      p.Ran R w (p.events exec w) (p.run exec w).1 (p.run exec w).2
  | .ret _, _, _ => ⟨rfl, rfl, rfl⟩
  | .raise _, _, _ => ⟨rfl, rfl, rfl⟩
  | .op o k, w, hmeets => by
    obtain ⟨hcheck, hrest⟩ := Bool.and_eq_true_iff.mp hmeets
    exact ⟨_, _, _, h o w hcheck, ran_of_meets h (k (exec o w).1) (exec o w).2 hrest, rfl⟩

theorem Prog.bind_assoc {γ : Type} (f : α → Prog Op Ans ε β) (g : β → Prog Op Ans ε γ) :
    ∀ p : Prog Op Ans ε α, p >>= f >>= g = p >>= fun a => f a >>= g
  | .ret _ => rfl
  | .raise _ => rfl
  | .op o k => congrArg (Prog.op o) (funext fun r => Prog.bind_assoc f g (k r))

theorem ran_perform {R : Effect Op Ans ε W} {o : Op} {w w' : W} {es : List (Event Op Ans ε)}
    {r : Except ε (Ans o)} : (Prog.perform o).Ran R w es r w' ↔ R o w r w' ∧ es = [⟨o, r⟩] := by
  constructor
  · rintro ⟨x, v, es', hR, hran, rfl⟩
    cases x <;> obtain ⟨rfl, rfl, rfl⟩ := hran <;> exact ⟨hR, rfl⟩
  · rintro ⟨hR, rfl⟩
    refine ⟨r, w', [], hR, ?_, rfl⟩
    cases r <;> exact ⟨rfl, rfl, rfl⟩

/-- The runs of a sequence. -/
theorem ran_bind {R : Effect Op Ans ε W} {f : α → Prog Op Ans ε β} {r : Except ε β} {w' : W} :
    ∀ {p : Prog Op Ans ε α} {w : W} {es : List (Event Op Ans ε)},
      (p >>= f).Ran R w es r w' ↔
        (∃ es₁ es₂ a v, p.Ran R w es₁ (.ok a) v ∧ (f a).Ran R v es₂ r w' ∧ es = es₁ ++ es₂) ∨
          ∃ e, p.Ran R w es (.error e) w' ∧ r = .error e
  | .ret a, w, es => by
    constructor
    · exact fun h => Or.inl ⟨[], es, a, w, ⟨rfl, rfl, rfl⟩, h, rfl⟩
    · rintro (⟨es₁, es₂, b, v, ⟨rfl, hb, rfl⟩, h, rfl⟩ | ⟨e, ⟨_, he, _⟩, _⟩)
      · cases hb
        exact h
      · cases he
  | .raise e, w, es => by
    constructor
    · rintro ⟨rfl, rfl, rfl⟩
      exact Or.inr ⟨e, ⟨rfl, rfl, rfl⟩, rfl⟩
    · rintro (⟨_, _, _, _, ⟨_, hb, _⟩, _⟩ | ⟨e', ⟨rfl, he, rfl⟩, rfl⟩)
      · cases hb
      · cases he
        exact ⟨rfl, rfl, rfl⟩
  | .op o k, w, es => by
    constructor
    · rintro ⟨x, v, es', hR, hran, rfl⟩
      rcases ran_bind.mp hran with ⟨es₁, es₂, a, v', h₁, h₂, rfl⟩ | ⟨e, h, rfl⟩
      · exact Or.inl ⟨⟨o, x⟩ :: es₁, es₂, a, v', ⟨x, v, es₁, hR, h₁, rfl⟩, h₂, rfl⟩
      · exact Or.inr ⟨e, ⟨x, v, es', hR, h, rfl⟩, rfl⟩
    · rintro (⟨es₁, es₂, a, v', ⟨x, v, es', hR, h₁, rfl⟩, h₂, rfl⟩ | ⟨e, ⟨x, v, es', hR, h, rfl⟩, rfl⟩)
      · exact ⟨x, v, es' ++ es₂, hR, ran_bind.mpr (Or.inl ⟨es', es₂, a, v', h₁, h₂, rfl⟩), rfl⟩
      · exact ⟨x, v, es', hR, ran_bind.mpr (Or.inr ⟨e, h, rfl⟩), rfl⟩

/-- The effect, with a mark whether a bad event was seen. -/
def Effect.watch (R : Effect Op Ans ε W) (bad : Event Op Ans ε → Bool) :
    Effect Op Ans ε (W × Bool) :=
  fun o w x v => R o w.1 x v.1 ∧ v.2 = (w.2 || bad ⟨o, x⟩)

theorem Prog.Ran.watch {R : Effect Op Ans ε W} (bad : Event Op Ans ε → Bool) {r : Except ε α} {w' : W} :
    ∀ {p : Prog Op Ans ε α} {w : W} {es : List (Event Op Ans ε)} (b : Bool), p.Ran R w es r w' →
      p.Ran (R.watch bad) (w, b) es r (w', b || es.any bad)
  | .ret _, _, _, b, ⟨hes, hr, hw⟩ => by
    subst hes hw
    exact ⟨rfl, hr, by simp⟩
  | .raise _, _, _, b, ⟨hes, hr, hw⟩ => by
    subst hes hw
    exact ⟨rfl, hr, by simp⟩
  | .op o k, _, _, b, ⟨x, v, es', hR, hran, hes⟩ => by
    subst hes
    refine ⟨x, (v, b || bad ⟨o, x⟩), es', ⟨hR, rfl⟩, ?_, rfl⟩
    simpa [Bool.or_assoc] using hran.watch bad (b || bad ⟨o, x⟩)

/-- A run, repeated on another world with the same answers. -/
theorem Prog.Ran.transfer {R : Effect Op Ans ε W} {S : W → W → Prop} {P : Op → Prop}
    (hstep : ∀ o w x v u, P o → S w u → R o w x v → ∃ u', R o u x u' ∧ S v u') {r : Except ε α}
    {w' : W} : ∀ {p : Prog Op Ans ε α} {w u : W} {es : List (Event Op Ans ε)}, p.OpsIn P → S w u →
      p.Ran R w es r w' → ∃ u', p.Ran R u es r u' ∧ S w' u'
  | .ret _, _, u, _, _, hS, ⟨hes, hr, hw⟩ => ⟨u, ⟨hes, hr, rfl⟩, hw ▸ hS⟩
  | .raise _, _, u, _, _, hS, ⟨hes, hr, hw⟩ => ⟨u, ⟨hes, hr, rfl⟩, hw ▸ hS⟩
  | .op o _, w, u, _, hP, hS, ⟨x, v, es', hR, hran, hes⟩ => by
    obtain ⟨u', hR', hS'⟩ := hstep o w x v u hP.1 hS hR
    obtain ⟨u'', hran', hS''⟩ := hran.transfer hstep (hP.2 x) hS'
    exact ⟨u'', ⟨x, u', es', hR', hran', hes⟩, hS''⟩

theorem opsIn_any : ∀ p : Prog Op Ans ε α, p.OpsIn fun _ => True
  | .ret _ => trivial
  | .raise _ => trivial
  | .op _ k => ⟨trivial, fun r => opsIn_any (k r)⟩

section Ensures

variable (R : Effect Op Ans ε W)

/-- Every run from the world `w` ends as `Q` says. -/
def Ensures : Prog Op Ans ε α → W → (Except ε α → W → Prop) → Prop
  | .ret a, w, Q => Q (.ok a) w
  | .raise e, w, Q => Q (.error e) w
  | .op o k, w, Q => ∀ x v, R o w x v → Ensures (k x) v Q

variable {R} {w : W}

theorem Ensures.of_ran {Q : Except ε α → W → Prop} :
    ∀ {p : Prog Op Ans ε α} {w : W} {es : List (Event Op Ans ε)} {r : Except ε α} {w' : W},
      Ensures R p w Q → p.Ran R w es r w' → Q r w'
  | .ret _, _, _, _, _, h, ⟨_, hr, hw⟩ => hr ▸ hw ▸ h
  | .raise _, _, _, _, _, h, ⟨_, hr, hw⟩ => hr ▸ hw ▸ h
  | .op _ _, _, _, _, _, h, ⟨x, v, _, hR, hran, _⟩ => Ensures.of_ran (h x v hR) hran

theorem Ensures.imp {Q Q' : Except ε α → W → Prop} (hQ : ∀ r w, Q r w → Q' r w) :
    ∀ {p : Prog Op Ans ε α} {w : W}, Ensures R p w Q → Ensures R p w Q'
  | .ret _, _, h => hQ _ _ h
  | .raise _, _, h => hQ _ _ h
  | .op _ _, _, h => fun x v hR => Ensures.imp hQ (h x v hR)

/-- The rule of sequential composition. -/
theorem ensures_bind {f : α → Prog Op Ans ε β} {Q : Except ε β → W → Prop} :
    ∀ {p : Prog Op Ans ε α} {w : W}, Ensures R (p >>= f) w Q ↔
      Ensures R p w fun r w' =>
        match r with
        | .ok a => Ensures R (f a) w' Q
        | .error e => Q (.error e) w'
  | .ret _, _ => Iff.rfl
  | .raise _, _ => Iff.rfl
  | .op _ _, _ => forall₃_congr fun _ _ _ => ensures_bind

theorem ensures_attempt {Q : Except ε (Except ε α) → W → Prop} :
    ∀ {p : Prog Op Ans ε α} {w : W},
      Ensures R p.attempt w Q ↔ Ensures R p w fun r w' => Q (.ok r) w'
  | .ret _, _ => Iff.rfl
  | .raise _, _ => Iff.rfl
  | .op _ _, _ => forall₃_congr fun _ _ _ => ensures_attempt

theorem ensures_perform {o : Op} {Q : Except ε (Ans o) → W → Prop} :
    Ensures R (.perform o) w Q ↔ ∀ x v, R o w x v → Q x v := by
  refine forall₃_congr fun x v _ => ?_
  cases x <;> rfl

/-- One operation and its sequel. -/
theorem ensures_perform_bind {o : Op} {f : Ans o → Prog Op Ans ε β} {Q : Except ε β → W → Prop}
    (hok : ∀ a v, R o w (.ok a) v → Ensures R (f a) v Q)
    (herr : ∀ e v, R o w (.error e) v → Q (.error e) v) : Ensures R (.perform o >>= f) w Q := by
  refine ensures_bind.mpr (ensures_perform.mpr fun x v hR => ?_)
  cases x with
  | ok a => exact hok a v hR
  | error e => exact herr e v hR

end Ensures

end Programs
