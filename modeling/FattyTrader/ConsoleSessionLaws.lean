import FattyTrader.ConsoleSessions
import Mathlib.Logic.Relation

/-!
# Chains of console sessions

A transaction of the service rewrites rows in place, or opens one session : for a login, or in
place of a session that is current and that it revokes (`AuthWorld.Moves`). A row keeps its
authentication time and its absolute deadline, and a revoked one stays revoked
(`AuthWorld.Kept`). So in every reachable world a session that was replaced is revoked and has one
successor (`AuthWorld.Chained`) : the chains are lines, and only the last session of one may be
live.
-/

set_option linter.unusedSectionVars false

open Tables Runs Programs Relation

namespace FattyTrader

/-! ## What a row keeps -/

/-- The row `s'` is the row `s`, touched or revoked. -/
def ConsoleSession.Keeps (s s' : ConsoleSession) : Prop :=
  s'.id = s.id ∧ s'.authenticatedAt = s.authenticatedAt ∧
    s'.absoluteExpiresAt = s.absoluteExpiresAt ∧ (s.revokedAt ≠ none → s'.revokedAt ≠ none)

theorem ConsoleSession.Keeps.refl (s : ConsoleSession) : s.Keeps s :=
  ⟨rfl, rfl, rfl, fun h => h⟩

theorem ConsoleSession.Keeps.trans {s s' s'' : ConsoleSession} (h : s.Keeps s')
    (h' : s'.Keeps s'') : s.Keeps s'' :=
  ⟨h'.1.trans h.1, h'.2.1.trans h.2.1, h'.2.2.1.trans h.2.2.1,
    fun hs => h'.2.2.2 (h.2.2.2 hs)⟩

namespace AuthWorld

/-- The sessions were rewritten in place ; no session was opened. -/
structure Kept (w w' : AuthWorld) : Prop where
  clock : w'.clock = w.clock
  rotations : w'.rotations = w.rotations
  forth : ∀ s ∈ w.sessions, ∃ s' ∈ w'.sessions, s.Keeps s'
  back : ∀ s' ∈ w'.sessions, ∃ s ∈ w.sessions, s.Keeps s'

variable {w w' w'' : AuthWorld}

theorem Kept.of_sessions (hclock : w'.clock = w.clock) (hrot : w'.rotations = w.rotations)
    (h : w'.sessions = w.sessions) : w.Kept w' :=
  ⟨hclock, hrot, fun s hs => ⟨s, h ▸ hs, .refl s⟩, fun s hs => ⟨s, h ▸ hs, .refl s⟩⟩

theorem Kept.refl (w : AuthWorld) : w.Kept w := .of_sessions rfl rfl rfl

theorem Kept.trans (h : w.Kept w') (h' : w'.Kept w'') : w.Kept w'' := by
  refine ⟨h'.clock.trans h.clock, h'.rotations.trans h.rotations, fun s hs => ?_, fun s hs => ?_⟩
  · obtain ⟨s₁, hs₁, h₁⟩ := h.forth s hs
    obtain ⟨s₂, hs₂, h₂⟩ := h'.forth s₁ hs₁
    exact ⟨s₂, hs₂, h₁.trans h₂⟩
  · obtain ⟨s₁, hs₁, h₁⟩ := h'.back s hs
    obtain ⟨s₂, hs₂, h₂⟩ := h.back s₁ hs₁
    exact ⟨s₂, hs₂, h₂.trans h₁⟩

theorem kept_setSessions {p : ConsoleSession → Bool} {f : ConsoleSession → ConsoleSession}
    (hf : ∀ s : ConsoleSession, s.Keeps (f s)) (h : AuthConfig.setSessions w p f = .ok w') : w.Kept w' := by
  unfold AuthConfig.setSessions at h
  split at h
  · cases h
  next sessions hset =>
    obtain rfl := Except.ok.inj h
    have hg : ∀ s : ConsoleSession, s.Keeps (if p s then f s else s) := by
      intro s
      split
      · exact hf s
      · exact .refl s
    refine ⟨rfl, rfl, fun s hs => ⟨_, (Table.mem_updateWhere hset).mpr ⟨s, hs, rfl⟩, hg s⟩,
      fun s' hs' => ?_⟩
    obtain ⟨s, hs, rfl⟩ := (Table.mem_updateWhere hset).mp hs'
    exact ⟨s, hs, hg s⟩

theorem keeps_revoked (s : ConsoleSession) (now : Instant) :
    s.Keeps { s with revokedAt := some now } := ⟨rfl, rfl, rfl, fun _ => nofun⟩

theorem keeps_touched (s : ConsoleSession) (now : Instant) :
    s.Keeps { s with lastSeenAt := now } := ⟨rfl, rfl, rfl, fun h => h⟩

/-! ## What a transaction does -/

/-- `w'` has the session `s` in addition, in place of `parent`. -/
structure Opens (w : AuthWorld) (s : ConsoleSession) (parent : Option String) (w' : AuthWorld) :
    Prop where
  clock : w'.clock = w.clock
  rotations : w'.rotations = ⟨s.id, parent⟩ :: w.rotations
  mem : ∀ s', s' ∈ w'.sessions ↔ s' ∈ w.sessions ∨ s' = s
  live : s.revokedAt = none
  fresh : ∀ s' ∈ w.sessions, s'.id ≠ s.id

/-- A transaction at the instant the clock shows : it rewrites rows, or opens a session for a
login, or opens one in place of a session it revokes. The session it replaces was neither revoked
nor past its absolute deadline. -/
inductive Moves (x : AuthConfig) (w : AuthWorld) : AuthOp → AuthWorld → Prop
  | kept {o : AuthOp} {w' : AuthWorld} : (∀ caller binding, o ≠ .consent caller binding) →
      w.Kept w' → Moves x w o w'
  | login {oldToken : Option String} {w₁ w' : AuthWorld} {s : ConsoleSession} :
      w.Kept w₁ → w₁.Opens s none w' → s.authenticatedAt = w.clock →
      s.absoluteExpiresAt = w.clock + seconds x.absoluteSeconds → Moves x w (.login oldToken) w'
  | consent {caller : PrincipalRef} {binding : ConsentBinding} {w₁ w' : AuthWorld}
      {old s : ConsoleSession} :
      old ∈ w.sessions → old.id = caller.sessionId → old.revokedAt = none →
      w.clock < old.absoluteExpiresAt → w.Kept w₁ →
      (∀ s' ∈ w₁.sessions, s'.id = caller.sessionId → s'.revokedAt ≠ none) →
      w₁.Opens s (some caller.sessionId) w' → s.authenticatedAt = old.authenticatedAt →
      s.absoluteExpiresAt = old.absoluteExpiresAt → Moves x w (.consent caller binding) w'

variable {x : AuthConfig} {fresh : FreshIds} {principalId sessionId : String} {consented : Bool}
  {authenticatedAt absolute : Instant} {parent oldToken : Option String} {now : Instant}

theorem insertSession_ok
    (h : x.insertSession w now fresh principalId consented authenticatedAt absolute parent =
      .ok w') :
    ∃ s, w.Opens s parent w' ∧ s.authenticatedAt = authenticatedAt ∧
      s.absoluteExpiresAt = absolute := by
  unfold AuthConfig.insertSession at h
  split at h
  · cases h
  · split at h
    · cases h
    · split at h
      · cases h
      next sessions hins =>
        obtain rfl := Except.ok.inj h
        refine ⟨_, ⟨rfl, rfl, fun s' => Table.mem_insert hins, rfl, fun s' hs' hid => ?_⟩, rfl, rfl⟩
        exact (Table.insert_isSome_iff.mp (Option.isSome_of_eq_some hins)) s' hs' (Or.inl hid)

theorem oldSession_eq_some {old : ConsoleSession}
    (h : x.oldSession w now principalId sessionId = some old) :
    old ∈ w.sessions ∧ old.id = sessionId ∧ old.revokedAt = none ∧ now < old.absoluteExpiresAt := by
  unfold AuthConfig.oldSession at h
  split at h
  next s p hs hp =>
    split at h
    next hcur =>
      obtain rfl := Option.some.inj h
      have := hcur.2
      simp only [AuthConfig.current, Bool.and_eq_true, decide_eq_true_eq] at this
      exact ⟨Table.mem_of_find hs, Table.key_of_find hs, this.1.1.1.1.1, this.1.1.2⟩
    · cases h
  · cases h

theorem rotateSession_ok (h : x.rotateSession w now fresh principalId sessionId = .ok w') :
    ∃ old s w₁, old ∈ w.sessions ∧ old.id = sessionId ∧ old.revokedAt = none ∧
      now < old.absoluteExpiresAt ∧ w.Kept w₁ ∧
      (∀ s' ∈ w₁.sessions, s'.id = sessionId → s'.revokedAt ≠ none) ∧
      w₁.Opens s (some sessionId) w' ∧ s.authenticatedAt = old.authenticatedAt ∧
      s.absoluteExpiresAt = old.absoluteExpiresAt := by
  unfold AuthConfig.rotateSession at h
  split at h
  · cases h
  next old hold =>
    obtain ⟨hmem, hid, hlive, hdue⟩ := oldSession_eq_some hold
    split at h
    · cases h
    next w₁ hset =>
      obtain ⟨s, hopen, hauth, habs⟩ := insertSession_ok h
      refine ⟨old, s, w₁, hmem, hid, hlive, hdue, kept_setSessions (keeps_revoked · now) hset, ?_,
        hopen, hauth, habs⟩
      intro s' hs' hs'id
      unfold AuthConfig.setSessions at hset
      split at hset
      · cases hset
      next sessions hup =>
        obtain rfl := Except.ok.inj hset
        obtain ⟨s₀, -, rfl⟩ := (Table.mem_updateWhere hup).mp hs'
        by_cases hs₀ : s₀.id = sessionId
        · simp [hs₀]
        · simp [hs₀] at hs'id

theorem consent_ok {caller : PrincipalRef} {binding : ConsentBinding}
    (h : x.consent w w.clock fresh caller binding = .ok w') :
    w.Moves x (.consent caller binding) w' := by
  unfold AuthConfig.consent at h
  split at h
  · cases h
  split at h
  · cases h
  split at h
  · cases h
  next w₂ hrot =>
    obtain ⟨old, s, w₁, hmem, hid, hlive, hdue, hkept, hrev, hopen, hauth, habs⟩ :=
      rotateSession_ok hrot
    split at h
    · cases h
    split at h
    · cases h
    obtain rfl := Except.ok.inj h
    exact .consent hmem hid hlive hdue hkept hrev
      ⟨hopen.clock, hopen.rotations, hopen.mem, hopen.live, hopen.fresh⟩ hauth habs

theorem freshSession_ok (h : x.freshSession w now fresh principalId = .ok w') :
    ∃ s, w.Opens s none w' ∧ s.authenticatedAt = now ∧
      s.absoluteExpiresAt = now + seconds x.absoluteSeconds :=
  insertSession_ok h

theorem login_ok (h : x.login w w.clock fresh oldToken = .ok w') :
    w.Moves x (.login oldToken) w' := by
  unfold AuthConfig.login at h
  split at h
  · cases h
  next w₁ hset =>
    dsimp only at h
    have hkept : ∀ principals, w.Kept { w₁ with principals := principals } := fun _ =>
      (kept_setSessions (keeps_revoked · w.clock) hset).trans (.of_sessions rfl rfl rfl)
    split at h
    · obtain ⟨s, hopen, hauth, habs⟩ := freshSession_ok h
      exact .login (hkept _) hopen hauth habs
    · split at h
      · cases h
      next w₂ hset' =>
        obtain ⟨s, hopen, hauth, habs⟩ := freshSession_ok h
        exact .login ((hkept _).trans (kept_setSessions (keeps_revoked · w.clock) hset')) hopen hauth
          habs

end AuthWorld

/-- A transaction leaves the world, or what it answers with. -/
theorem AuthChoice.commit_world {α : Type} {c : AuthChoice} {w : AuthWorld} {a : α}
    {r : Except AuthFailure AuthWorld} :
    (c.commit w a r).2 = w ∨ r = .ok (c.commit w a r).2 := by
  unfold AuthChoice.commit
  split
  · exact Or.inl rfl
  · split
    · exact Or.inr rfl
    · exact Or.inr rfl
    · exact Or.inl rfl

/-- An answered transaction was applied. -/
theorem AuthChoice.commit_ok {α : Type} {c : AuthChoice} {w w' : AuthWorld} {a b : α}
    {r : Except AuthFailure AuthWorld} (h : c.commit w a r = (.ok b, w')) : r = .ok w' ∧ b = a := by
  unfold AuthChoice.commit at h
  split at h
  · cases (Prod.mk.inj h).1
  · split at h
    · obtain ⟨hb, rfl⟩ := Prod.mk.inj h
      exact ⟨rfl, (Except.ok.inj hb).symm⟩
    · cases (Prod.mk.inj h).1
    · cases (Prod.mk.inj h).1

namespace AuthWorld

variable {x : AuthConfig} {w w' : AuthWorld} {o : AuthOp} {c : AuthChoice}

/-- What an operation of a run does to the world : the clock goes forward to its instant, and then
it moves the world, or nothing happens. -/
theorem authExec_world {r : Except AuthFailure (AuthAns o)}
    (h : (authSystem x).exec o w c = some (r, w')) : w.clock ≤ c.now ∧
      (w' = { w with clock := c.now } ∨ ({ w with clock := c.now } : AuthWorld).Moves x o w') := by
  simp only [authSystem, Option.ite_none_right_eq_some, Option.some.injEq] at h
  obtain ⟨hclock, h⟩ := h
  refine ⟨hclock, ?_⟩
  have hw : (authExec x o { w with clock := c.now } c).2 = w' := congrArg Prod.snd h
  subst hw
  cases o with
  | selectPrincipal token => exact Or.inl rfl
  | sessionOwner sessionId => exact Or.inl rfl
  | touch token =>
    exact AuthChoice.commit_world.imp_right fun h =>
      .kept nofun (kept_setSessions (keeps_touched · c.now) h)
  | revokeSession sessionId =>
    exact AuthChoice.commit_world.imp_right fun h =>
      .kept nofun (kept_setSessions (keeps_revoked · c.now) h)
  | login oldToken => exact AuthChoice.commit_world.imp_right login_ok
  | consent caller binding => exact AuthChoice.commit_world.imp_right consent_ok

/-! ## Chains -/

/-- The session `child` was opened in place of `parent`. -/
def Rotated (w : AuthWorld) (parent child : String) : Prop := ⟨child, some parent⟩ ∈ w.rotations

theorem Kept.rotated (h : w.Kept w') {p c : String} : w'.Rotated p c ↔ w.Rotated p c := by
  simp [Rotated, h.rotations]

theorem Opens.rotated {s : ConsoleSession} (h : w.Opens s parent w') {p c : String} :
    w'.Rotated p c ↔ (c = s.id ∧ parent = some p) ∨ w.Rotated p c := by
  simp [Rotated, h.rotations, eq_comm]

/-- The session was opened by a login. -/
def Root (w : AuthWorld) (id : String) : Prop := ⟨id, none⟩ ∈ w.rotations

/-- Two sessions of the chain of one login. -/
def SameChain (w : AuthWorld) (a b : String) : Prop :=
  ∃ l, w.Root l ∧ ReflTransGen w.Rotated l a ∧ ReflTransGen w.Rotated l b

/-- The session is one of the table. -/
def Known (w : AuthWorld) (id : String) : Prop := ∃ s ∈ w.sessions, s.id = id

/-- Two sessions with the same authentication time and the same absolute deadline. -/
def SameDeadline (a b : ConsoleSession) : Prop :=
  a.authenticatedAt = b.authenticatedAt ∧ a.absoluteExpiresAt = b.absoluteExpiresAt

/-- Every session a login opened has the deadline of the login, and one that replaced another has
the deadline of that ; a session that was replaced is revoked and was replaced once. -/
structure Chained (w : AuthWorld) (x : AuthConfig) : Prop where
  known : ∀ r ∈ w.rotations, w.Known r.child
  entry : ∀ s ∈ w.sessions, ∃ parent, (⟨s.id, parent⟩ : Rotation) ∈ w.rotations
  revoked : ∀ p c, w.Rotated p c → ∃ s ∈ w.sessions, s.id = p ∧ s.revokedAt ≠ none
  once : ∀ p c c', w.Rotated p c → w.Rotated p c' → c = c'
  login : ∀ s ∈ w.sessions, w.Root s.id →
    s.absoluteExpiresAt = s.authenticatedAt + seconds x.absoluteSeconds
  deadline : ∀ a ∈ w.sessions, ∀ b ∈ w.sessions, w.Rotated a.id b.id → SameDeadline a b
  rooted : ∀ s ∈ w.sessions, ∃ l, w.Root l ∧ ReflTransGen w.Rotated l s.id

/-- The session with an id is the only one. -/
theorem session_unique {a b : ConsoleSession} (ha : a ∈ w.sessions) (hb : b ∈ w.sessions)
    (hid : a.id = b.id) : a = b := by
  rcases Table.eq_or_not_conflict ha hb with rfl | hne
  · rfl
  · exact absurd (ConsoleSession.conflict_of_id hid) hne

namespace Chained

theorem of_kept (h : w.Chained x) (hk : w.Kept w') : w'.Chained x := by
  have hknown : ∀ {id}, w.Known id → w'.Known id := by
    rintro id ⟨s, hs, rfl⟩
    obtain ⟨s', hs', hkeep⟩ := hk.forth s hs
    exact ⟨s', hs', hkeep.1⟩
  have hrot : ∀ {p c}, w'.Rotated p c ↔ w.Rotated p c := hk.rotated
  have hroot : ∀ {id}, w'.Root id ↔ w.Root id := by simp [Root, hk.rotations]
  have hrel : w'.Rotated = w.Rotated := by
    ext p c
    exact hrot
  refine ⟨fun r hr => hknown (h.known r (hk.rotations ▸ hr)), fun s hs => ?_, fun p c hpc => ?_,
    fun p c c' hc hc' => h.once p c c' (hrot.mp hc) (hrot.mp hc'), fun s hs hl => ?_,
    fun a ha b hb hab => ?_, fun s hs => ?_⟩
  · obtain ⟨s₀, hs₀, hkeep⟩ := hk.back s hs
    exact hk.rotations ▸ hkeep.1 ▸ h.entry s₀ hs₀
  · obtain ⟨s, hs, hid, hrev⟩ := h.revoked p c (hrot.mp hpc)
    obtain ⟨s', hs', hkeep⟩ := hk.forth s hs
    exact ⟨s', hs', hkeep.1.trans hid, hkeep.2.2.2 hrev⟩
  · obtain ⟨s₀, hs₀, hid, hauth, habs, -⟩ := hk.back s hs
    rw [hauth, habs]
    exact h.login s₀ hs₀ (hid ▸ hroot.mp hl)
  · obtain ⟨a₀, ha₀, haid, haauth, haabs, -⟩ := hk.back a ha
    obtain ⟨b₀, hb₀, hbid, hbauth, hbabs, -⟩ := hk.back b hb
    have := h.deadline a₀ ha₀ b₀ hb₀ (haid ▸ hbid ▸ hrot.mp hab)
    exact ⟨haauth.trans (this.1.trans hbauth.symm), haabs.trans (this.2.trans hbabs.symm)⟩
  · obtain ⟨s₀, hs₀, hid, -⟩ := hk.back s hs
    obtain ⟨l, hl, hchain⟩ := h.rooted s₀ hs₀
    exact ⟨l, hroot.mpr hl, hrel ▸ hid ▸ hchain⟩

/-- A session that is opened keeps the chains, where its parent is revoked, was not replaced
before, and hands its deadline on. -/
theorem of_opens {s : ConsoleSession} {parent : Option String} (h : w.Chained x)
    (ho : w.Opens s parent w')
    (hlogin : parent = none → s.absoluteExpiresAt = s.authenticatedAt + seconds x.absoluteSeconds)
    (hparent : ∀ p, parent = some p → (∀ c, ¬ w.Rotated p c) ∧
      ∃ s' ∈ w.sessions, s'.id = p ∧ s'.revokedAt ≠ none ∧ SameDeadline s' s) :
    w'.Chained x := by
  have hnot : ∀ r ∈ w.rotations, r.child ≠ s.id := by
    intro r hr hid
    obtain ⟨s', hs', hid'⟩ := h.known r hr
    exact ho.fresh s' hs' (hid'.trans hid)
  have hrot : ∀ {p c}, w'.Rotated p c ↔ (c = s.id ∧ parent = some p) ∨ w.Rotated p c := ho.rotated
  have hroot : ∀ {id}, w'.Root id ↔ (id = s.id ∧ parent = none) ∨ w.Root id := by
    intro id
    simp [Root, ho.rotations, eq_comm]
  have hold : ∀ s' ∈ w.sessions, s' ∈ w'.sessions := fun s' hs' => (ho.mem s').mpr (Or.inl hs')
  have hnew : s ∈ w'.sessions := (ho.mem s).mpr (Or.inr rfl)
  have hparents : ∀ {p c}, w.Rotated p c → p ≠ s.id := by
    rintro p c hpc rfl
    obtain ⟨s', hs', hid, -⟩ := h.revoked _ c hpc
    exact ho.fresh s' hs' hid
  refine ⟨fun r hr => ?_, fun s' hs' => ?_, fun p c hpc => ?_, fun p c c' hc hc' => ?_,
    fun s' hs' hl => ?_, fun a ha b hb hab => ?_, fun s' hs' => ?_⟩
  · rcases List.mem_cons.mp (ho.rotations ▸ hr) with rfl | hr
    · exact ⟨s, hnew, rfl⟩
    · obtain ⟨s', hs', hid⟩ := h.known r hr
      exact ⟨s', hold s' hs', hid⟩
  · rw [ho.rotations]
    rcases (ho.mem s').mp hs' with hs' | rfl
    · obtain ⟨q, hq⟩ := h.entry s' hs'
      exact ⟨q, List.mem_cons_of_mem _ hq⟩
    · exact ⟨parent, List.mem_cons_self⟩
  · rcases hrot.mp hpc with ⟨-, hp⟩ | hpc
    · obtain ⟨-, s', hs', hid, hrev, -⟩ := hparent p hp
      exact ⟨s', hold s' hs', hid, hrev⟩
    · obtain ⟨s', hs', hid, hrev⟩ := h.revoked p c hpc
      exact ⟨s', hold s' hs', hid, hrev⟩
  · rcases hrot.mp hc with ⟨rfl, hp⟩ | hc <;> rcases hrot.mp hc' with ⟨rfl, hp'⟩ | hc'
    · rfl
    · exact absurd hc' ((hparent p hp).1 c')
    · exact absurd hc ((hparent p hp').1 c)
    · exact h.once p c c' hc hc'
  · rcases (ho.mem s').mp hs' with hs' | rfl
    · rcases hroot.mp hl with ⟨hid, -⟩ | hl
      · exact absurd hid (ho.fresh s' hs')
      · exact h.login s' hs' hl
    · rcases hroot.mp hl with ⟨-, hp⟩ | hl
      · exact hlogin hp
      · exact absurd rfl (hnot _ hl)
  · rcases hrot.mp hab with ⟨hid, hp⟩ | hab
    · obtain ⟨-, s', hs', hs'id, -, hsame⟩ := hparent a.id hp
      obtain rfl : b = s := session_unique hb hnew hid
      obtain rfl : a = s' := session_unique ha (hold s' hs') hs'id.symm
      exact hsame
    · have ha' : a ∈ w.sessions := ((ho.mem a).mp ha).resolve_right fun h => hparents hab (h ▸ rfl)
      have hb' : b ∈ w.sessions := ((ho.mem b).mp hb).resolve_right fun h =>
        hnot _ hab (congrArg ConsoleSession.id h)
      exact h.deadline a ha' b hb' hab
  · have hmono : ∀ {l id}, ReflTransGen w.Rotated l id → ReflTransGen w'.Rotated l id :=
      fun hchain => ReflTransGen.mono (fun _ _ hr => hrot.mpr (Or.inr hr)) _ _ hchain
    rcases (ho.mem s').mp hs' with hs' | rfl
    · obtain ⟨l, hl, hchain⟩ := h.rooted s' hs'
      exact ⟨l, hroot.mpr (Or.inr hl), hmono hchain⟩
    · cases hp : parent with
      | none => exact ⟨s'.id, hroot.mpr (Or.inl ⟨rfl, hp⟩), .refl⟩
      | some p =>
        obtain ⟨-, s₀, hs₀, rfl, -⟩ := hparent p hp
        obtain ⟨l, hl, hchain⟩ := h.rooted s₀ hs₀
        exact ⟨l, hroot.mpr (Or.inr hl), (hmono hchain).tail (hrot.mpr (Or.inl ⟨rfl, hp⟩))⟩

/-- Every transaction keeps the chains. -/
theorem of_moves (h : w.Chained x) (hm : w.Moves x o w') : w'.Chained x := by
  cases hm with
  | kept _ hk => exact h.of_kept hk
  | login hk ho hauth habs =>
    exact (h.of_kept hk).of_opens ho (fun _ => by rw [habs, hauth]) nofun
  | @consent caller binding w₁ w' old s hold hid hlive _ hk hrev ho hauth habs =>
    refine (h.of_kept hk).of_opens ho nofun fun p hp => ?_
    obtain rfl := Option.some.inj hp
    obtain ⟨old', hold', hid', hauth', habs', -⟩ := hk.forth old hold
    refine ⟨fun c hc => ?_, old', hold', hid'.trans hid, hrev old' hold' (hid'.trans hid),
      hauth'.trans hauth.symm, habs'.trans habs.symm⟩
    -- a session that was replaced is revoked, and the old one was not
    obtain ⟨s', hs', hs'id, hs'rev⟩ := h.revoked _ c (hk.rotated.mp hc)
    exact hs'rev (session_unique hs' hold (hs'id.trans hid.symm) ▸ hlive)

/-- The live session of a chain is the last one. -/
theorem live_unique (h : w.Chained x) {a b : ConsoleSession} (ha : a ∈ w.sessions)
    (hb : b ∈ w.sessions) (halive : a.revokedAt = none) (hblive : b.revokedAt = none)
    (hchain : w.SameChain a.id b.id) : a = b := by
  have hlast : ∀ {a b : ConsoleSession}, a ∈ w.sessions → b ∈ w.sessions → a.revokedAt = none →
      ReflTransGen w.Rotated a.id b.id → a = b := by
    intro a b ha hb halive hab
    rcases ReflTransGen.cases_head hab with hid | ⟨c, hc, -⟩
    · exact session_unique ha hb hid
    · obtain ⟨s, hs, hid, hrev⟩ := h.revoked _ c hc
      exact absurd halive (session_unique hs ha hid ▸ hrev)
  obtain ⟨l, -, hla, hlb⟩ := hchain
  have hunique : Relator.RightUnique w.Rotated := fun p c c' hc hc' => h.once p c c' hc hc'
  rcases ReflTransGen.total_of_right_unique hunique hla hlb with hab | hba
  · exact hlast ha hb halive hab
  · exact (hlast hb ha hblive hba).symm

/-- A session of a chain has the deadline of any session before it. -/
theorem deadline_of_chain (h : w.Chained x) {a b : ConsoleSession} (ha : a ∈ w.sessions)
    (hb : b ∈ w.sessions) (hab : ReflTransGen w.Rotated a.id b.id) : SameDeadline a b := by
  generalize hid : b.id = id at hab
  induction hab generalizing b with
  | refl =>
    obtain rfl := session_unique ha hb hid.symm
    exact ⟨rfl, rfl⟩
  | @tail p c _ hpc ih =>
    obtain ⟨s, hs, rfl, -⟩ := h.revoked p c hpc
    have hsb := h.deadline s hs b hb (hid ▸ hpc)
    have has := ih hs rfl
    exact ⟨has.1.trans hsb.1, has.2.trans hsb.2⟩

end Chained

/-! ## Dead sessions -/

/-- The session was revoked, or its absolute deadline has passed. -/
def Dead (w : AuthWorld) (id : String) : Prop :=
  ∃ s ∈ w.sessions, s.id = id ∧ (s.revokedAt ≠ none ∨ s.absoluteExpiresAt ≤ w.clock)

theorem Dead.of_kept {id : String} (h : w.Dead id) (hk : w.Kept w') : w'.Dead id := by
  obtain ⟨s, hs, rfl, hdead⟩ := h
  obtain ⟨s', hs', hid, -, habs, hrev⟩ := hk.forth s hs
  refine ⟨s', hs', hid, hdead.imp hrev fun hdue => ?_⟩
  rw [habs, hk.clock]
  exact hdue

theorem Dead.later {id : String} {now : Instant} (h : w.Dead id) (hnow : w.clock ≤ now) :
    ({ w with clock := now } : AuthWorld).Dead id := by
  obtain ⟨s, hs, hid, hdead⟩ := h
  exact ⟨s, hs, hid, hdead.imp_right fun hdue => le_trans hdue hnow⟩

/-- A dead session stays dead, and is not replaced. -/
theorem Dead.of_moves {id : String} (h : w.Dead id) (hm : w.Moves x o w') :
    w'.Dead id ∧ ∀ c, w'.Rotated id c → w.Rotated id c := by
  have hopens : ∀ {w₁ : AuthWorld} {s parent}, w.Kept w₁ → w₁.Opens s parent w' →
      parent ≠ some id → w'.Dead id ∧ ∀ c, w'.Rotated id c → w.Rotated id c := by
    intro w₁ s parent hk ho hne
    obtain ⟨s', hs', hid, hdead⟩ := h.of_kept hk
    refine ⟨⟨s', (ho.mem s').mpr (Or.inl hs'), hid, ho.clock ▸ hdead⟩, fun c hc => ?_⟩
    rcases ho.rotated.mp hc with ⟨-, hp⟩ | hc
    · exact absurd hp hne
    · exact hk.rotated.mp hc
  cases hm with
  | kept _ hk => exact ⟨h.of_kept hk, fun c hc => hk.rotated.mp hc⟩
  | login hk ho _ _ => exact hopens hk ho nofun
  | @consent caller binding w₁ w' old s hold hid hlive hdue hk hrev ho _ _ =>
    refine hopens hk ho fun hp => ?_
    obtain ⟨s', hs', hs'id, hdead⟩ := h
    obtain rfl : s' = old :=
      session_unique hs' hold (hs'id.trans ((Option.some.inj hp).symm.trans hid.symm))
    rcases hdead with hrev' | hdue'
    · exact hrev' hlive
    · exact absurd hdue (not_lt.mpr hdue')

end AuthWorld

/-! ## Runs of the service -/

/-- `principal` read the session as a current one. -/
def Accepts (id : String) : AuthEvent → Prop
  | ⟨.selectPrincipal _, .ok (some row)⟩ => row.2.id = id
  | _ => False

/-- A consent in the session was answered. -/
def consents (id : String) : AuthEvent → Bool
  | ⟨.consent caller _, .ok _⟩ => caller.sessionId = id
  | _ => false

section Runs

variable {x : AuthConfig} {w w' : AuthWorld} {s t u v : AuthState} {ls ls' : List AuthLabel}
  {l : AuthLabel} {id : String}

/-- What a step does to the world : the environment keeps the sessions, and an operation moves the
world to the instant it is performed at. -/
theorem authStep_world (h : (authSystem x).Step s l t) :
    (s.world.Kept t.world ∧ t.trace = s.trace) ∨
      ∃ n c i o k r, l = .act n c ∧ s.calls[n]? = some (i, .op o k) ∧
        (authSystem x).exec o s.world c = some (r, t.world) ∧ t.trace = s.trace ++ [(n, ⟨o, r⟩)] := by
  cases l with
  | start i =>
    obtain rfl := Option.some.inj h
    exact Or.inl ⟨.refl _, rfl⟩
  | env e =>
    obtain rfl := Option.some.inj h
    refine Or.inl ⟨?_, rfl⟩
    cases e <;> exact .of_sessions rfl rfl rfl
  | act n c =>
    obtain ⟨i, o, k, r, w, hn, hx, rfl⟩ := System.step_act h
    exact Or.inr ⟨n, c, i, o, k, r, rfl, hn, hx, rfl⟩

theorem chained_clock {now : Instant} (h : w.Chained x) :
    ({ w with clock := now } : AuthWorld).Chained x :=
  ⟨h.known, h.entry, h.revoked, h.once, h.login, h.deadline, h.rooted⟩

theorem chained_step (h : s.world.Chained x) (hstep : (authSystem x).Step s l t) :
    t.world.Chained x := by
  rcases authStep_world hstep with ⟨hk, -⟩ | ⟨n, c, i, o, k, r, -, -, hx, -⟩
  · exact h.of_kept hk
  · obtain ⟨-, heq | hm⟩ := AuthWorld.authExec_world hx
    · exact heq ▸ chained_clock h
    · exact (chained_clock h).of_moves hm

/-- The consents in a session that were answered. -/
def consentCount (id : String) (s : AuthState) : ℕ := s.trace.countP fun q => consents id q.2

/-- The chains, and no session in which more than one consent was answered, each of them a
rotation. -/
structure ConsentedOnce (x : AuthConfig) (s : AuthState) : Prop where
  chained : s.world.Chained x
  once : ∀ id, consentCount id s ≤ 1
  rotated : ∀ id, consentCount id s ≠ 0 → ∃ c, s.world.Rotated id c

/-- No session yet. -/
def AuthWorld.Fresh (w : AuthWorld) : Prop := w.sessions = Table.empty ∧ w.rotations = []

theorem consentedOnce_init (hw : w.Fresh) : ConsentedOnce x (State.init w) := by
  obtain ⟨hs, hr⟩ := hw
  have hnone : ∀ s, s ∉ w.sessions := by simp [Table.mem_iff, hs]
  have hrot : ∀ r, r ∉ w.rotations := by simp [hr]
  exact ⟨⟨fun r h => absurd h (hrot r), fun s h => absurd h (hnone s),
    fun p c h => absurd h (hrot _), fun p c c' h => absurd h (hrot _),
    fun s h => absurd h (hnone s), fun a h => absurd h (hnone a), fun s h => absurd h (hnone s)⟩,
    fun _ => Nat.zero_le _, fun _ h => absurd rfl h⟩

/-- An answered consent replaced its session, which was not replaced before. -/
theorem rotated_of_consents {o : AuthOp} {c : AuthChoice} {r : Except AuthFailure (AuthAns o)}
    (h : w.Chained x) (hx : (authSystem x).exec o w c = some (r, w'))
    (hc : consents id ⟨o, r⟩ = true) :
    (∀ child, ¬ w.Rotated id child) ∧ ∃ child, w'.Rotated id child := by
  unfold consents at hc
  split at hc
  next caller binding token heq =>
    obtain rfl : caller.sessionId = id := by simpa using hc
    cases heq
    simp only [authSystem, Option.ite_none_right_eq_some, Option.some.injEq] at hx
    cases AuthWorld.consent_ok (AuthChoice.commit_ok hx.2).1 with
    | kept hne _ => exact absurd rfl (hne caller binding)
    | @consent _ _ w₁ _ old s hold hid hlive _ hk _ ho _ _ =>
      refine ⟨fun child hrot => ?_, s.id, ho.rotated.mpr (Or.inl ⟨rfl, rfl⟩)⟩
      obtain ⟨s', hs', hs'id, hrev⟩ := h.revoked _ child hrot
      exact hrev (AuthWorld.session_unique hs' hold (hs'id.trans hid.symm) ▸ hlive)
  · cases hc

/-- No step takes a rotation back. -/
theorem rotated_step (hstep : (authSystem x).Step s l t) {p c : String}
    (h : s.world.Rotated p c) : t.world.Rotated p c := by
  rcases authStep_world hstep with ⟨hk, -⟩ | ⟨n, ch, i, o, k, r, -, -, hx, -⟩
  · exact hk.rotated.mpr h
  · obtain ⟨-, heq | hm⟩ := AuthWorld.authExec_world hx
    · exact heq ▸ h
    · cases hm with
      | kept _ hk => exact hk.rotated.mpr h
      | login hk ho _ _ => exact ho.rotated.mpr (Or.inr (hk.rotated.mpr h))
      | consent _ _ _ _ hk _ ho _ _ => exact ho.rotated.mpr (Or.inr (hk.rotated.mpr h))

theorem consentedOnce_step (h : ConsentedOnce x s) (hstep : (authSystem x).Step s l t) :
    ConsentedOnce x t := by
  have hkept : ∀ id, (∃ c, s.world.Rotated id c) → ∃ c, t.world.Rotated id c :=
    fun id ⟨c, hc⟩ => ⟨c, rotated_step hstep hc⟩
  have hchained := chained_step h.chained hstep
  rcases authStep_world hstep with ⟨-, htrace⟩ | ⟨n, c, i, o, k, r, -, -, hx, htrace⟩
  · have hcount : ∀ id, consentCount id t = consentCount id s := by simp [consentCount, htrace]
    exact ⟨hchained, fun id => hcount id ▸ h.once id,
      fun id hne => hkept id (h.rotated id (hcount id ▸ hne))⟩
  · have hcount : ∀ id, consentCount id t =
        consentCount id s + if consents id ⟨o, r⟩ = true then 1 else 0 := by
      simp [consentCount, htrace, List.countP_append, List.countP_singleton]
    refine ⟨hchained, fun id => ?_, fun id hne => ?_⟩
    · rw [hcount]
      split
      next hc =>
        have hzero : consentCount id s = 0 := by
          by_contra hne
          obtain ⟨child, hchild⟩ := h.rotated id hne
          exact (rotated_of_consents h.chained hx hc).1 child hchild
        omega
      · exact h.once id
    · rw [hcount] at hne
      split at hne
      next hc => exact (rotated_of_consents h.chained hx hc).2
      · exact hkept id (h.rotated id hne)

theorem consentedOnce_run (hw : w.Fresh) (h : Run (authSystem x).Step (State.init w) ls s) :
    ConsentedOnce x s :=
  h.inv (fun _ _ _ hs hstep => consentedOnce_step hs hstep) (consentedOnce_init hw)

/-- The session `child` is the only one of its chain that is not revoked. -/
def AuthWorld.OnlyLive (w : AuthWorld) (child : String) : Prop :=
  ∃ a ∈ w.sessions, a.id = child ∧ a.revokedAt = none ∧
    ∀ b ∈ w.sessions, b.revokedAt = none → w.SameChain b.id child → b = a

/-- A step that replaces a session is a consent in it, and leaves the new one as the only live
session of the chain. -/
theorem onlyLive_of_rotation (h : s.world.Chained x) (hstep : (authSystem x).Step s l t)
    {p child : String} (hs : ¬ s.world.Rotated p child) (ht : t.world.Rotated p child) :
    (∃ n c i caller binding, l = .act n c ∧ s.next n = some (i, .consent caller binding) ∧
      caller.sessionId = p) ∧ t.world.OnlyLive child := by
  have hchained := chained_step h hstep
  rcases authStep_world hstep with ⟨hk, -⟩ | ⟨n, c, i, o, k, r, rfl, hn, hx, -⟩
  · exact absurd (hk.rotated.mp ht) hs
  obtain ⟨-, heq | hm⟩ := AuthWorld.authExec_world hx
  · rw [heq] at ht
    exact absurd ht hs
  generalize t.world = w' at ht hm hchained ⊢
  cases hm with
  | kept _ hk => exact absurd (hk.rotated.mp ht) hs
  | login hk ho _ _ =>
    rcases ho.rotated.mp ht with ⟨-, hp⟩ | ht
    · cases hp
    · exact absurd (hk.rotated.mp ht) hs
  | @consent caller binding w₁ _ old a _ _ _ _ hk _ ho _ _ =>
    rcases ho.rotated.mp ht with ⟨rfl, hp⟩ | ht
    · obtain rfl := Option.some.inj hp
      have ha : a ∈ w'.sessions := (ho.mem a).mpr (Or.inr rfl)
      refine ⟨⟨n, c, i, caller, binding, rfl, State.next_eq_some.mpr ⟨k, hn⟩, rfl⟩,
        a, ha, rfl, ho.live, fun b hb hlive hsame => ?_⟩
      exact hchained.live_unique hb ha hlive ho.live hsame
    · exact absurd (hk.rotated.mp ht) hs

/-- From `s` to `t`, a dead session stays dead, is not replaced, and is not accepted. -/
def StaysDead (s t : AuthState) : Prop :=
  ∀ id, s.world.Dead id → t.world.Dead id ∧
    (∀ c, t.world.Rotated id c → s.world.Rotated id c) ∧
    ∃ tr, t.trace = s.trace ++ tr ∧ ∀ q ∈ tr, ¬ Accepts id q.2

/-- A session that is read as a current one is not dead. -/
theorem not_dead_of_accepts {o : AuthOp} {c : AuthChoice} {r : Except AuthFailure (AuthAns o)}
    (hx : (authSystem x).exec o w c = some (r, w')) (ha : Accepts id ⟨o, r⟩) : ¬ w.Dead id := by
  unfold Accepts at ha
  split at ha
  next token row heq =>
    subst ha
    cases heq
    rintro ⟨s, hs, hid, hdead⟩
    simp only [authSystem, Option.ite_none_right_eq_some, Option.some.injEq, authExec,
      AuthChoice.read, Prod.mk.injEq] at hx
    obtain ⟨hclock, hread, -⟩ := hx
    split at hread
    · have hsel := Except.ok.inj hread
      unfold AuthConfig.selectPrincipal at hsel
      split at hsel
      next s' p hs' hp =>
        split at hsel
        next hcur =>
          obtain rfl := Option.some.inj hsel
          obtain rfl : s = s' := AuthWorld.session_unique hs (Table.mem_of_find hs') hid
          have hcur := hcur.2.2
          simp only [AuthConfig.current, Bool.and_eq_true, decide_eq_true_eq] at hcur
          rcases hdead with hrev | hdue
          · exact hrev hcur.1.1.1.1.1
          · exact absurd (le_trans hdue hclock) (not_le.mpr hcur.1.1.2)
        · cases hsel
      · cases hsel
    · cases hread
  · exact ha.elim

theorem staysDead_step (hstep : (authSystem x).Step s l t) : StaysDead s t := by
  intro id hdead
  rcases authStep_world hstep with ⟨hk, htrace⟩ | ⟨n, c, i, o, k, r, -, -, hx, htrace⟩
  · exact ⟨hdead.of_kept hk, fun c hc => hk.rotated.mp hc, [], by simp [htrace], by simp⟩
  · have hlog : ∃ tr, t.trace = s.trace ++ tr ∧ ∀ q ∈ tr, ¬ Accepts id q.2 := by
      refine ⟨_, htrace, fun q hq ha => ?_⟩
      obtain rfl := List.mem_singleton.mp hq
      exact not_dead_of_accepts hx ha hdead
    obtain ⟨hclock, heq | hm⟩ := AuthWorld.authExec_world hx
    · rw [heq]
      exact ⟨hdead.later hclock, fun c hc => hc, hlog⟩
    · obtain ⟨hdead', hrot⟩ := (hdead.later hclock).of_moves hm
      exact ⟨hdead', hrot, hlog⟩

theorem staysDead_run (h : Run (authSystem x).Step s ls t) : StaysDead s t := by
  refine h.rel (R := StaysDead) (fun s id hs => ⟨hs, fun _ hc => hc, [], by simp, by simp⟩)
    (fun s t u hst htu id hs => ?_) fun _ _ _ hstep => staysDead_step hstep
  obtain ⟨ht, hrot, tr, htr, hacc⟩ := hst id hs
  obtain ⟨hu, hrot', tr', htr', hacc'⟩ := htu id ht
  refine ⟨hu, fun c hc => hrot c (hrot' c hc), tr ++ tr', by simp [htr', htr], fun q hq => ?_⟩
  rcases List.mem_append.mp hq with hq | hq
  · exact hacc q hq
  · exact hacc' q hq

/-- In every run from a world without sessions, with `s` a state it passes and `t` its end : each
replacement of a session is a consent in it that leaves the new one as the only live session of
its chain, and never are two sessions of one chain live ; at most one consent in a session is
answered, and it replaced the session ; every session belongs to the chain of a login and has its
authentication time and its absolute deadline ; and a session that is revoked or past that deadline
in `s` is neither accepted nor replaced from there on. -/
theorem session_chains (hw : w.Fresh) (hs : Run (authSystem x).Step (State.init w) ls s)
    (ht : Run (authSystem x).Step s ls' t) :
    (∀ p child, s.world.Rotated p child → ∃ as u l v bs,
      Run (authSystem x).Step (State.init w) as u ∧ (authSystem x).Step u l v ∧
      Run (authSystem x).Step v bs s ∧
      (∃ n c i caller binding, l = .act n c ∧ u.next n = some (i, .consent caller binding) ∧
        caller.sessionId = p) ∧ v.world.OnlyLive child) ∧
    (∀ a ∈ s.world.sessions, ∀ b ∈ s.world.sessions, a.revokedAt = none → b.revokedAt = none →
      s.world.SameChain a.id b.id → a = b) ∧
    (∀ id, consentCount id s ≤ 1 ∧
      (consentCount id s = 1 → ∃ child, s.world.Rotated id child)) ∧
    (∀ a ∈ s.world.sessions, ∃ login ∈ s.world.sessions, s.world.Root login.id ∧
      login.absoluteExpiresAt = login.authenticatedAt + seconds x.absoluteSeconds ∧
      ReflTransGen s.world.Rotated login.id a.id) ∧
    (∀ a ∈ s.world.sessions, ∀ b ∈ s.world.sessions, ReflTransGen s.world.Rotated a.id b.id →
      AuthWorld.SameDeadline a b) ∧
    StaysDead s t := by
  have hinv := consentedOnce_run hw hs
  refine ⟨fun p child hrot => ?_, fun a ha b hb hla hlb hsame =>
    hinv.chained.live_unique ha hb hla hlb hsame, fun id => ⟨hinv.once id, fun hone =>
    hinv.rotated id (by omega)⟩, fun a ha => ?_, fun a ha b hb hab =>
    hinv.chained.deadline_of_chain ha hb hab, staysDead_run ht⟩
  · have hnone : ¬ (State.init w : AuthState).world.Rotated p child := by
      simp [State.init, AuthWorld.Rotated, hw.2]
    obtain ⟨as, u, l, v, bs, hu, hstep, hv, hnot, hrot'⟩ :=
      hs.first (P := fun s => s.world.Rotated p child) hnone hrot
    exact ⟨as, u, l, v, bs, hu, hstep, hv,
      onlyLive_of_rotation (consentedOnce_run hw hu).chained hstep hnot hrot'⟩
  · obtain ⟨id, hroot, hchain⟩ := hinv.chained.rooted a ha
    obtain ⟨login, hlogin, rfl⟩ := hinv.chained.known _ hroot
    exact ⟨login, hlogin, hroot, hinv.chained.login login hlogin hroot, hchain⟩

end Runs

/-! ## Two consents in one session -/

def consoleScope : ConsoleScope := ⟨"main", "bitget", "demo"⟩

def consoleAuth : AuthConfig where
  scope := consoleScope
  passwordRevision := 1
  digest token := token
  verifyPassword _ := .ok ()

def closePreview : ConsolePreview where
  id := "preview"
  actorId := ownerId
  sessionId := "first"
  action := "close_position"
  scope := consoleScope
  arguments := []
  targetRefs := [("symbol", "BTCUSDT")]
  resourceVersion := "1"
  previewDigest := "digest"
  confirmationPhrase := "CLOSE"
  dangerTier := 2
  policyVersion := "1"
  gatesPass := true
  expiresAt := 100
  consumedBy := none

def previewedWorld : AuthWorld where
  clock := 0
  principals _ := none
  sessions := Table.empty
  previews := [closePreview]
  grants := []
  rotations := []

def consentFirst : AuthCall :=
  .consent ⟨ownerId, "first"⟩ ⟨consoleScope, "digest", "close_position"⟩

/-- A login opens the session `first`, and two clients consent in it. -/
def twoConsents : List AuthLabel :=
  [.start (.login "password" none), .act 0 ⟨.answered, 1, ⟨"first", "a", "", ""⟩⟩,
    .start consentFirst, .start consentFirst, .act 1 ⟨.answered, 2, ⟨"second", "b", "", "g"⟩⟩,
    .act 2 ⟨.answered, 3, ⟨"third", "c", "", "h"⟩⟩]

theorem session_chains_two_consents : ∃ s : AuthState,
    Run (authSystem consoleAuth).Step (State.init previewedWorld) twoConsents s ∧
      consentCount "first" s = 1 ∧ (∃ child, s.world.Rotated "first" child) ∧
      StaysDead s s := by
  have h : (replay (authSystem consoleAuth).step (State.init previewedWorld) twoConsents).any
      (fun s => consentCount "first" s = 1) = true := by decide +kernel
  obtain ⟨s, hs, hone⟩ := (Option.any_eq_true _ _).mp h
  have hrun : Run (authSystem consoleAuth).Step (State.init previewedWorld) twoConsents s :=
    run_of_replay (fun _ _ _ h => h) hs
  obtain ⟨-, -, hcount, -, -, hdead⟩ := session_chains (w := previewedWorld) ⟨rfl, rfl⟩ hrun (.nil s)
  have hone := of_decide_eq_true hone
  exact ⟨s, hrun, hone, (hcount "first").2 hone, hdead⟩

end FattyTrader
