import Mathlib.Data.List.TakeWhile
import Mathlib.Tactic.Common

/-!
# Backtracking patterns

A pattern is matched by trying its ways through the text in order : the left alternative before
the right one, a greedy repetition with the most characters first and a lazy one with the
fewest. `Pattern.ways` lists the ways in that order, and a match is the first of them.

What a match captures depends on the order. Where a repetition is followed by a gap of any
characters, the first way takes the most the repetition can (`head_absorb`), because the gap
takes up whatever is left.
-/

set_option autoImplicit false

namespace Backtracking

/-- A place in a text : what stands before it, nearest first, and what stands behind it. -/
structure Cursor where
  before : List Char
  rest : List Char
deriving DecidableEq

/-- What a group captured, and the text around it. -/
structure Capture where
  before : List Char
  text : List Char
  after : List Char
deriving DecidableEq

/-- A way through a pattern : where it ends, and what its groups captured. -/
structure Way (ν : Type) where
  stop : Cursor
  groups : List (ν × Capture)

inductive Pattern (ν : Type)
  | empty
  | one (p : Char → Bool)
  | greedy (p : Char → Bool)
  | gap (p : Char → Bool)
  | seq (a b : Pattern ν)
  | alt (a b : Pattern ν)
  | group (name : ν) (a : Pattern ν)
  | finish
  | boundary (p : Char → Bool)
  | notBehind (p : Char → Bool)

/-! ## Ways -/

/-- The ends of a greedy repetition, the farthest first. -/
def greedyStops (p : Char → Bool) : List Char → List Char → List Cursor
  | before, [] => [⟨before, []⟩]
  | before, x :: rest =>
    (if p x then greedyStops p (x :: before) rest else []) ++ [⟨before, x :: rest⟩]

/-- The ends of a lazy repetition, the nearest first. -/
def lazyStops (p : Char → Bool) : List Char → List Char → List Cursor
  | before, [] => [⟨before, []⟩]
  | before, x :: rest =>
    ⟨before, x :: rest⟩ :: if p x then lazyStops p (x :: before) rest else []

/-- The text between two places. -/
def Cursor.span (c d : Cursor) : List Char := c.rest.take (c.rest.length - d.rest.length)

variable {ν : Type}

def Way.here (c : Cursor) : Way ν := ⟨c, []⟩

def Way.join (m m' : Way ν) : Way ν := ⟨m'.stop, m.groups ++ m'.groups⟩

namespace Pattern

/-- The ways through a pattern from a place, in the order they are tried. -/
def ways : Pattern ν → Cursor → List (Way ν)
  | empty, c => [.here c]
  | one p, c =>
    match c.rest with
    | [] => []
    | x :: rest => if p x then [.here ⟨x :: c.before, rest⟩] else []
  | greedy p, c => (greedyStops p c.before c.rest).map .here
  | gap p, c => (lazyStops p c.before c.rest).map .here
  | seq a b, c => (a.ways c).flatMap fun m => (b.ways m.stop).map m.join
  | alt a b, c => a.ways c ++ b.ways c
  | group name a, c => (a.ways c).map fun m =>
      ⟨m.stop, (name, ⟨c.before, c.span m.stop, m.stop.rest⟩) :: m.groups⟩
  | finish, c => if c.rest = [] ∨ c.rest = ['\n'] then [.here c] else []
  | boundary p, c => if c.before.head?.any p != c.rest.head?.any p then [.here c] else []
  | notBehind p, c => if c.before.head?.any p then [] else [.here c]

/-- The match at the start of a text. -/
def first (a : Pattern ν) (text : List Char) : Option (Way ν) := (a.ways ⟨[], text⟩).head?

/-- A pattern or nothing, the pattern first. -/
def opt (a : Pattern ν) : Pattern ν := alt a empty

/-- At most so many times, as often as can be. -/
def upTo (a : Pattern ν) : ℕ → Pattern ν
  | 0 => empty
  | n + 1 => opt (seq a (a.upTo n))

/-- At least one character of a class. -/
def plus (p : Char → Bool) : Pattern ν := seq (one p) (greedy p)

/-- A word, character by character. -/
def word (same : Char → Char → Bool) : List Char → Pattern ν
  | [] => empty
  | x :: xs => seq (one (same x)) (word same xs)

/-- One of several patterns, the left ones first. -/
def oneOf : List (Pattern ν) → Pattern ν
  | [] => empty
  | [a] => a
  | a :: b :: as => alt a (oneOf (b :: as))

/-- Several patterns, one behind the other. -/
def inOrder : List (Pattern ν) → Pattern ν
  | [] => empty
  | [a] => a
  | a :: b :: as => seq a (inOrder (b :: as))

/-- The groups of a pattern. -/
def names : Pattern ν → List ν
  | group name a => name :: a.names
  | seq a b => a.names ++ b.names
  | alt a b => a.names ++ b.names
  | _ => []

/-- Whether the pattern is found somewhere in a text, from the place `before`. -/
def found (a : Pattern ν) : List Char → List Char → Bool
  | before, [] => !(a.ways ⟨before, []⟩).isEmpty
  | before, x :: rest => !(a.ways ⟨before, x :: rest⟩).isEmpty || a.found (x :: before) rest

/-- The successive matches in a text, from the place `before` ; the next `skip` characters are
part of the last one. -/
def findAll (a : Pattern ν) : ℕ → List Char → List Char → List Capture
  | _, _, [] => []
  | skip + 1, before, x :: rest => a.findAll skip (x :: before) rest
  | 0, before, x :: rest =>
    match (a.ways ⟨before, x :: rest⟩).head? with
    | none => a.findAll 0 (x :: before) rest
    | some m =>
      let text := Cursor.span ⟨before, x :: rest⟩ m.stop
      ⟨before, text, m.stop.rest⟩ :: a.findAll (text.length - 1) (x :: before) rest

end Pattern

variable {a b : Pattern ν} {c d : Cursor} {m : Way ν} {p q : Char → Bool} {text : List Char}

/-! ## Where a way leads -/

/-- The second place is behind the text `l` from the first one. -/
structure Reaches (c : Cursor) (l : List Char) (d : Cursor) : Prop where
  rest : c.rest = l ++ d.rest
  before : d.before = l.reverse ++ c.before

namespace Reaches

theorem refl (c : Cursor) : Reaches c [] c := ⟨rfl, rfl⟩

theorem trans {l l' : List Char} {e : Cursor} (h : Reaches c l d) (h' : Reaches d l' e) :
    Reaches c (l ++ l') e :=
  ⟨by rw [h.rest, h'.rest, List.append_assoc], by rw [h'.before, h.before]; simp⟩

theorem span {l : List Char} (h : Reaches c l d) : c.span d = l := by
  rw [Cursor.span, h.rest]
  simp

/-- Two places on the way, one behind the other. -/
theorem between {l l' k : List Char} {e : Cursor} (h : Reaches c l d) (h' : Reaches c l' e)
    (hk : d.rest = k ++ e.rest) : Reaches d k e := by
  refine ⟨hk, ?_⟩
  have hl : l' = l ++ k := by
    have := h'.rest.symm.trans h.rest
    rw [hk, ← List.append_assoc] at this
    exact List.append_cancel_right this
  rw [h'.before, h.before, hl]
  simp

end Reaches

/-! ### Repetitions -/

theorem reaches_of_mem_greedyStops : ∀ {rest before : List Char} {d : Cursor},
    d ∈ greedyStops p before rest → ∃ l, (∀ x ∈ l, p x = true) ∧ Reaches ⟨before, rest⟩ l d
  | [], before, d, h => by
    obtain rfl := List.mem_singleton.mp h
    exact ⟨[], by simp, Reaches.refl _⟩
  | x :: rest, before, d, h => by
    rcases List.mem_append.mp h with h | h
    · split at h
      next hx =>
        obtain ⟨l, hl, hr⟩ := reaches_of_mem_greedyStops h
        have hrest : rest = l ++ d.rest := hr.rest
        refine ⟨x :: l, by simpa [hx] using hl, ⟨by simp [← hrest], ?_⟩⟩
        simpa using hr.before
      · cases h
    · obtain rfl := List.mem_singleton.mp h
      exact ⟨[], by simp, Reaches.refl _⟩

/-- The first end of a greedy repetition is the farthest. -/
theorem head_greedyStops : ∀ (before rest : List Char), (greedyStops p before rest).head? =
    some ⟨(rest.takeWhile p).reverse ++ before, rest.dropWhile p⟩
  | before, [] => rfl
  | before, x :: rest => by
    rw [greedyStops]
    by_cases hx : p x
    · simp [hx, head_greedyStops (x :: before) rest]
    · simp [hx]

/-- Every other end of a greedy repetition is before the first. -/
theorem exists_of_mem_greedyStops : ∀ {rest before : List Char} {d : Cursor},
    d ∈ greedyStops p before rest → ∃ l, (∀ x ∈ l, p x = true) ∧ d.rest = l ++ rest.dropWhile p
  | [], before, d, h => by
    obtain rfl := List.mem_singleton.mp h
    exact ⟨[], by simp, rfl⟩
  | x :: rest, before, d, h => by
    rcases List.mem_append.mp h with h | h
    · split at h
      next hx =>
        obtain ⟨l, hl, hr⟩ := exists_of_mem_greedyStops h
        exact ⟨l, hl, by rw [hr, List.dropWhile_cons_of_pos hx]⟩
      · cases h
    · obtain rfl := List.mem_singleton.mp h
      refine ⟨(x :: rest).takeWhile p, fun y hy => List.mem_takeWhile_imp hy, ?_⟩
      rw [List.takeWhile_append_dropWhile]

theorem reaches_of_mem_lazyStops : ∀ {rest before : List Char} {d : Cursor},
    d ∈ lazyStops p before rest → ∃ l, (∀ x ∈ l, p x = true) ∧ Reaches ⟨before, rest⟩ l d
  | [], before, d, h => by
    obtain rfl := List.mem_singleton.mp h
    exact ⟨[], by simp, Reaches.refl _⟩
  | x :: rest, before, d, h => by
    rcases List.mem_cons.mp h with rfl | h
    · exact ⟨[], by simp, Reaches.refl _⟩
    · split at h
      next hx =>
        obtain ⟨l, hl, hr⟩ := reaches_of_mem_lazyStops h
        have hrest : rest = l ++ d.rest := hr.rest
        refine ⟨x :: l, by simpa [hx] using hl, ⟨by simp [← hrest], ?_⟩⟩
        simpa using hr.before
      · cases h

theorem mem_lazyStops_of_reaches : ∀ {l rest before : List Char} {d : Cursor},
    (∀ x ∈ l, p x = true) → Reaches ⟨before, rest⟩ l d → d ∈ lazyStops p before rest
  | [], rest, before, d, _, h => by
    obtain rfl : d = ⟨before, rest⟩ := by
      obtain ⟨b, r⟩ := d
      have hr : rest = r := h.rest
      have hb : b = before := by simpa using h.before
      rw [hr, hb]
    cases rest <;> simp [lazyStops]
  | x :: l, rest, before, d, hl, h => by
    obtain rfl : rest = x :: (l ++ d.rest) := h.rest
    have hx : p x = true := hl x List.mem_cons_self
    rw [lazyStops, if_pos hx]
    refine List.mem_cons_of_mem _ (mem_lazyStops_of_reaches
      (fun y hy => hl y (List.mem_cons_of_mem _ hy)) ⟨rfl, ?_⟩)
    simpa using h.before

/-! ### Ways of a pattern -/

namespace Pattern

theorem ways_empty : (empty : Pattern ν).ways c = [.here c] := rfl

theorem ways_one_cons {before rest : List Char} {x : Char} :
    (one p : Pattern ν).ways ⟨before, x :: rest⟩ =
      if p x then [.here ⟨x :: before, rest⟩] else [] := rfl

theorem ways_greedy : (greedy p : Pattern ν).ways c =
    (greedyStops p c.before c.rest).map .here := rfl

theorem ways_seq : (seq a b).ways c =
    (a.ways c).flatMap fun m => (b.ways m.stop).map m.join := rfl

theorem ways_alt : (alt a b).ways c = a.ways c ++ b.ways c := rfl

theorem ways_group {name : ν} : (group name a).ways c = (a.ways c).map fun m =>
    ⟨m.stop, (name, ⟨c.before, c.span m.stop, m.stop.rest⟩) :: m.groups⟩ := rfl

theorem mem_ways_one (h : m ∈ (one p).ways c) :
    ∃ x rest, c.rest = x :: rest ∧ p x = true ∧ m = .here ⟨x :: c.before, rest⟩ := by
  obtain ⟨before, rest⟩ := c
  cases rest with
  | nil => cases h
  | cons x rest =>
    rw [ways_one_cons] at h
    split at h
    next hx => exact ⟨x, rest, rfl, hx, List.mem_singleton.mp h⟩
    · cases h

theorem eq_here_of_finish (h : m ∈ finish.ways c) : m = .here c := by
  replace h : m ∈ if c.rest = [] ∨ c.rest = ['\n'] then [Way.here c] else [] := h
  split at h
  · exact List.mem_singleton.mp h
  · cases h

theorem rest_of_finish (h : m ∈ finish.ways c) : c.rest = [] ∨ c.rest = ['\n'] := by
  replace h : m ∈ if c.rest = [] ∨ c.rest = ['\n'] then [Way.here c] else [] := h
  split at h
  next hend => exact hend
  · cases h

theorem eq_here_of_boundary (h : m ∈ (boundary p).ways c) : m = .here c := by
  replace h : m ∈ if c.before.head?.any p != c.rest.head?.any p then [Way.here c] else [] := h
  split at h
  · exact List.mem_singleton.mp h
  · cases h

theorem eq_here_of_notBehind (h : m ∈ (notBehind p).ways c) : m = .here c := by
  replace h : m ∈ if c.before.head?.any p then [] else [Way.here c] := h
  split at h
  · cases h
  · exact List.mem_singleton.mp h

theorem mem_ways_seq : m ∈ (seq a b).ways c ↔
    ∃ m₁ ∈ a.ways c, ∃ m₂ ∈ b.ways m₁.stop, m₁.join m₂ = m := by
  simp [ways_seq]

theorem mem_ways_alt : m ∈ (alt a b).ways c ↔ m ∈ a.ways c ∨ m ∈ b.ways c :=
  List.mem_append

/-- The first way through a sequence is a way through its first part and the first way on. -/
theorem head_seq (h : ((seq a b).ways c).head? = some m) :
    ∃ m₁ ∈ a.ways c, ∃ m₂, (b.ways m₁.stop).head? = some m₂ ∧ m = m₁.join m₂ := by
  rw [ways_seq] at h
  generalize a.ways c = ms at h ⊢
  induction ms with
  | nil => cases h
  | cons m₁ ms ih =>
    rw [List.flatMap_cons, List.head?_append] at h
    cases hb : (b.ways m₁.stop).head? with
    | some m₂ =>
      refine ⟨m₁, List.mem_cons_self, m₂, hb, ?_⟩
      rw [List.head?_map, hb] at h
      exact (Option.some.inj h).symm
    | none =>
      rw [List.head?_map, hb] at h
      obtain ⟨m₁', hmem, hm⟩ := ih h
      exact ⟨m₁', List.mem_cons_of_mem _ hmem, hm⟩

/-- Where the first way through the first part has a way on, it is the one taken. -/
theorem head_seq_of_head {m₁ : Way ν} (h₁ : (a.ways c).head? = some m₁)
    (hne : b.ways m₁.stop ≠ []) (h : ((seq a b).ways c).head? = some m) :
    ∃ m₂, (b.ways m₁.stop).head? = some m₂ ∧ m = m₁.join m₂ := by
  rw [ways_seq] at h
  obtain ⟨ms, hms⟩ : ∃ ms, a.ways c = m₁ :: ms := by
    cases hways : a.ways c with
    | nil => simp [hways] at h₁
    | cons m₁' ms =>
      rw [hways] at h₁
      exact ⟨ms, by rw [Option.some.inj h₁]⟩
  obtain ⟨m₂, ms₂, hms₂⟩ := List.exists_cons_of_ne_nil hne
  rw [hms, List.flatMap_cons, hms₂] at h
  exact ⟨m₂, by rw [hms₂]; rfl, (Option.some.inj h).symm⟩

/-- Every way leads on. -/
theorem exists_reaches : ∀ (a : Pattern ν) {c : Cursor} {m : Way ν}, m ∈ a.ways c →
    ∃ l, Reaches c l m.stop
  | empty, c, m, h => by
    obtain rfl := List.mem_singleton.mp h
    exact ⟨[], Reaches.refl c⟩
  | one p, c, m, h => by
    obtain ⟨x, rest, hrest, -, rfl⟩ := mem_ways_one h
    exact ⟨[x], hrest, rfl⟩
  | greedy p, c, m, h => by
    obtain ⟨d, hd, rfl⟩ := List.mem_map.mp h
    obtain ⟨l, -, hl⟩ := reaches_of_mem_greedyStops hd
    exact ⟨l, hl⟩
  | gap p, c, m, h => by
    obtain ⟨d, hd, rfl⟩ := List.mem_map.mp h
    obtain ⟨l, -, hl⟩ := reaches_of_mem_lazyStops hd
    exact ⟨l, hl⟩
  | seq a b, c, m, h => by
    obtain ⟨m₁, h₁, m₂, h₂, rfl⟩ := mem_ways_seq.mp h
    obtain ⟨l₁, hl₁⟩ := exists_reaches a h₁
    obtain ⟨l₂, hl₂⟩ := exists_reaches b h₂
    exact ⟨l₁ ++ l₂, hl₁.trans hl₂⟩
  | alt a b, c, m, h => by
    rcases mem_ways_alt.mp h with h | h
    · exact exists_reaches a h
    · exact exists_reaches b h
  | group name a, c, m, h => by
    obtain ⟨m', hm', rfl⟩ := List.mem_map.mp h
    obtain ⟨l, hl⟩ := exists_reaches a hm'
    exact ⟨l, hl⟩
  | finish, c, m, h => ⟨[], eq_here_of_finish h ▸ Reaches.refl c⟩
  | boundary p, c, m, h => ⟨[], eq_here_of_boundary h ▸ Reaches.refl c⟩
  | notBehind p, c, m, h => ⟨[], eq_here_of_notBehind h ▸ Reaches.refl c⟩

end Pattern

/-! ## The farthest way first -/

/-- The first way of a pattern goes farthest, and only characters of the class `p` lie between
the end of another and its own. -/
def Farthest (p : Char → Bool) (a : Pattern ν) : Prop :=
  ∀ c m₀, (a.ways c).head? = some m₀ → ∀ m ∈ a.ways c,
    ∃ l, (∀ x ∈ l, p x = true) ∧ m.stop.rest = l ++ m₀.stop.rest

/-- Every way of a pattern begins with a character of the class `q`. -/
def Starts (q : Char → Bool) (b : Pattern ν) : Prop :=
  ∀ c, b.ways c ≠ [] → ∃ x rest, c.rest = x :: rest ∧ q x = true

/-- Before a gap of any characters, the first way is the farthest. -/
theorem head_absorb (hfar : Farthest p a) (hstarts : Starts q b)
    (hdisjoint : ∀ x, p x = true → q x = false)
    (h : ((Pattern.seq a (.seq (.gap fun _ => true) b)).ways c).head? = some m) :
    ∃ m₁ m₂, (a.ways c).head? = some m₁ ∧
      ((Pattern.seq (.gap fun _ => true) b).ways m₁.stop).head? = some m₂ ∧ m = m₁.join m₂ := by
  obtain ⟨m', hm', m'', hhead, -⟩ := Pattern.head_seq h
  cases h₁ : (a.ways c).head? with
  | none =>
    rw [List.head?_eq_none_iff] at h₁
    rw [h₁] at hm'
    cases hm'
  | some m₁ =>
    obtain ⟨k, hk, hrest⟩ := hfar c m₁ h₁ m' hm'
    have hmem₁ : m₁ ∈ a.ways c := List.mem_of_head? h₁
    obtain ⟨l, hl⟩ := a.exists_reaches hm'
    obtain ⟨l₁, hl₁⟩ := a.exists_reaches hmem₁
    have hon : Reaches m'.stop k m₁.stop := hl.between hl₁ hrest
    obtain ⟨g, hg, n, hn, -⟩ := Pattern.mem_ways_seq.mp (List.mem_of_head? hhead)
    obtain ⟨d, hd, rfl⟩ := List.mem_map.mp hg
    obtain ⟨j, -, hj⟩ := reaches_of_mem_lazyStops hd
    replace hj : Reaches m'.stop j d := hj
    -- the rest of the pattern begins behind the farthest end, as no character before it is `q`
    have hbehind : ∃ i, Reaches m₁.stop i d := by
      obtain ⟨x, rest, hx, hq⟩ := hstarts d (List.ne_nil_of_mem hn)
      have htext : k ++ m₁.stop.rest = j ++ d.rest := hon.rest.symm.trans hj.rest
      rcases List.append_eq_append_iff.mp htext with ⟨i, rfl, hi⟩ | ⟨i, rfl, hi⟩
      · exact ⟨i, hon.between hj hi⟩
      · cases i with
        | nil => exact ⟨[], hon.between hj (by simpa using hi.symm)⟩
        | cons y i =>
          rw [hx] at hi
          obtain rfl := (List.cons.inj hi).1
          have := hdisjoint x (hk x (by simp))
          simp [hq] at this
    obtain ⟨i, hi⟩ := hbehind
    have hne : (Pattern.seq (.gap fun _ => true) b).ways m₁.stop ≠ [] := by
      refine List.ne_nil_of_mem (Pattern.mem_ways_seq.mpr ⟨.here d, ?_, n, hn, rfl⟩)
      exact List.mem_map.mpr ⟨d, mem_lazyStops_of_reaches (fun _ _ => rfl) hi, rfl⟩
    obtain ⟨m₂, hm₂, hm⟩ := Pattern.head_seq_of_head h₁ hne h
    exact ⟨m₁, m₂, rfl, hm₂, hm⟩

/-! ### Which patterns go farthest first -/

/-- Every way of a pattern passes over characters of the class `p` only. -/
def Within (p : Char → Bool) (a : Pattern ν) : Prop :=
  ∀ c, ∀ m ∈ a.ways c, ∃ l, (∀ x ∈ l, p x = true) ∧ Reaches c l m.stop

/-- From a place before a character of the class `r` a pattern does not move. -/
def Still (r : Char → Bool) (a : Pattern ν) : Prop :=
  ∀ c x rest, c.rest = x :: rest → r x = true → ∀ m ∈ a.ways c, m.stop = c

section Farthest

variable {r : Char → Bool}

theorem Starts.seq (h : Starts q a) : Starts q (.seq a b) := by
  intro c hne
  refine h c fun hnil => hne ?_
  rw [Pattern.ways_seq, hnil, List.flatMap_nil]

theorem starts_one : Starts q (.one q : Pattern ν) := by
  intro c hne
  obtain ⟨m, hm⟩ := List.exists_mem_of_ne_nil _ hne
  obtain ⟨x, rest, hrest, hx, -⟩ := Pattern.mem_ways_one hm
  exact ⟨x, rest, hrest, hx⟩

theorem Starts.alt (ha : Starts q a) (hb : Starts q b) : Starts q (.alt a b) := by
  intro c hne
  by_cases hnil : a.ways c = []
  · exact hb c fun h => hne (by rw [Pattern.ways_alt, hnil, h, List.append_nil])
  · exact ha c hnil

theorem Starts.group {n : ν} (h : Starts q a) : Starts q (.group n a) := by
  intro c hne
  exact h c fun hnil => hne (by rw [Pattern.ways_group, hnil, List.map_nil])

theorem Starts.mono {q' : Char → Bool} (h : Starts q a) (hq : ∀ x, q x = true → q' x = true) :
    Starts q' a := by
  intro c hne
  obtain ⟨x, rest, hrest, hx⟩ := h c hne
  exact ⟨x, rest, hrest, hq x hx⟩

theorem starts_greedy_seq (h : Starts q b) (hr : ∀ x, r x = true → q x = true) :
    Starts q (.seq (.greedy r) b) := by
  intro c hne
  obtain ⟨m, hm⟩ := List.exists_mem_of_ne_nil _ hne
  obtain ⟨m₁, h₁, m₂, h₂, -⟩ := Pattern.mem_ways_seq.mp hm
  obtain ⟨d, hd, rfl⟩ := List.mem_map.mp h₁
  obtain ⟨l, hl, hreach⟩ := reaches_of_mem_greedyStops hd
  have hrest : c.rest = l ++ d.rest := hreach.rest
  cases l with
  | nil =>
    obtain ⟨x, rest, hx, hq⟩ := h d (List.ne_nil_of_mem h₂)
    exact ⟨x, rest, by rw [hrest, hx]; rfl, hq⟩
  | cons x l => exact ⟨x, l ++ d.rest, hrest, hr x (hl x List.mem_cons_self)⟩

theorem within_empty : Within p (.empty : Pattern ν) := by
  intro c m hm
  obtain rfl := List.mem_singleton.mp hm
  exact ⟨[], by simp, Reaches.refl c⟩

theorem within_one (h : ∀ x, r x = true → p x = true) : Within p (.one r : Pattern ν) := by
  intro c m hm
  obtain ⟨x, rest, hrest, hx, rfl⟩ := Pattern.mem_ways_one hm
  exact ⟨[x], by simpa using h x hx, hrest, rfl⟩

theorem within_greedy (h : ∀ x, r x = true → p x = true) :
    Within p (.greedy r : Pattern ν) := by
  intro c m hm
  obtain ⟨d, hd, rfl⟩ := List.mem_map.mp hm
  obtain ⟨l, hl, hreach⟩ := reaches_of_mem_greedyStops hd
  exact ⟨l, fun x hx => h x (hl x hx), hreach⟩

theorem Within.mono {p' : Char → Bool} (h : Within p a) (hp : ∀ x, p x = true → p' x = true) :
    Within p' a := by
  intro c m hm
  obtain ⟨l, hl, hreach⟩ := h c m hm
  exact ⟨l, fun x hx => hp x (hl x hx), hreach⟩

theorem Within.seq (ha : Within p a) (hb : Within p b) : Within p (.seq a b) := by
  intro c m hm
  obtain ⟨m₁, h₁, m₂, h₂, rfl⟩ := Pattern.mem_ways_seq.mp hm
  obtain ⟨l₁, hl₁, hr₁⟩ := ha c m₁ h₁
  obtain ⟨l₂, hl₂, hr₂⟩ := hb _ m₂ h₂
  refine ⟨l₁ ++ l₂, fun x hx => ?_, hr₁.trans hr₂⟩
  rcases List.mem_append.mp hx with hx | hx
  · exact hl₁ x hx
  · exact hl₂ x hx

theorem Within.alt (ha : Within p a) (hb : Within p b) : Within p (.alt a b) := by
  intro c m hm
  rcases Pattern.mem_ways_alt.mp hm with hm | hm
  · exact ha c m hm
  · exact hb c m hm

theorem Within.opt (h : Within p a) : Within p a.opt := by
  intro c m hm
  rcases Pattern.mem_ways_alt.mp hm with hm | hm
  · exact h c m hm
  · exact within_empty c m hm

theorem opt_ne_nil : a.opt.ways c ≠ [] := by
  rw [Pattern.opt, Pattern.ways_alt, Pattern.ways_empty]
  simp

/-- A pattern that begins with other characters stays, where it may. -/
theorem Starts.still (h : Starts q a) (hdisjoint : ∀ x, r x = true → q x = false) :
    Still r a.opt := by
  intro c x rest hrest hx m hm
  rcases Pattern.mem_ways_alt.mp hm with hm | hm
  · obtain ⟨y, rest', hrest', hy⟩ := h c (List.ne_nil_of_mem hm)
    obtain rfl : x = y := (List.cons.inj (hrest.symm.trans hrest')).1
    simp [hdisjoint x hx] at hy
  · obtain rfl := List.mem_singleton.mp hm
    rfl

theorem farthest_empty : Farthest p (.empty : Pattern ν) := by
  intro c m₀ h₀ m hm
  obtain rfl := List.mem_singleton.mp hm
  obtain rfl := Option.some.inj h₀
  exact ⟨[], by simp, rfl⟩

theorem farthest_one : Farthest p (.one r : Pattern ν) := by
  intro c m₀ h₀ m hm
  obtain ⟨x, rest, hrest, -, rfl⟩ := Pattern.mem_ways_one hm
  obtain ⟨y, rest', hrest', -, rfl⟩ := Pattern.mem_ways_one (List.mem_of_head? h₀)
  exact ⟨[], by simp, (List.cons.inj (hrest.symm.trans hrest')).2⟩

theorem farthest_greedy : Farthest p (.greedy p : Pattern ν) := by
  intro c m₀ h₀ m hm
  obtain ⟨d, hd, rfl⟩ := List.mem_map.mp hm
  rw [Pattern.ways_greedy, List.head?_map, head_greedyStops] at h₀
  obtain rfl := Option.some.inj h₀
  exact exists_of_mem_greedyStops hd

theorem Farthest.mono {p' : Char → Bool} (h : Farthest p a) (hp : ∀ x, p x = true → p' x = true) :
    Farthest p' a := by
  intro c m₀ h₀ m hm
  obtain ⟨l, hl, hrest⟩ := h c m₀ h₀ m hm
  exact ⟨l, fun x hx => hp x (hl x hx), hrest⟩

theorem Farthest.group {n : ν} (h : Farthest p a) : Farthest p (.group n a) := by
  intro c m₀ h₀ m hm
  obtain ⟨m', hm', rfl⟩ := List.mem_map.mp hm
  rw [Pattern.ways_group, List.head?_map] at h₀
  obtain ⟨m₀', h₀', rfl⟩ := Option.map_eq_some_iff.mp h₀
  exact h c m₀' h₀' m' hm'

/-- The place of a way is determined by what is left. -/
theorem stop_eq {m' : Way ν} (hm : m ∈ a.ways c) (hm' : m' ∈ a.ways c)
    (h : m.stop.rest = m'.stop.rest) : m.stop = m'.stop := by
  obtain ⟨l, hl⟩ := a.exists_reaches hm
  obtain ⟨l', hl'⟩ := a.exists_reaches hm'
  have hreach : Reaches m.stop [] m'.stop := hl.between hl' (by simpa using h)
  have hbefore : m'.stop.before = m.stop.before := hreach.before
  cases hm : m.stop
  cases hm' : m'.stop
  simp_all

theorem exists_head {m : Way ν} (hm : m ∈ a.ways c) : ∃ m₀, (a.ways c).head? = some m₀ := by
  cases h : (a.ways c).head? with
  | some m₀ => exact ⟨m₀, rfl⟩
  | none =>
    rw [List.head?_eq_none_iff.mp h] at hm
    cases hm

/-- A part that only its farthest way leads on from. -/
theorem Farthest.seq_of_starts (ha : Farthest r a) (hb : Farthest p b) (hstarts : Starts q b)
    (hdisjoint : ∀ x, r x = true → q x = false) : Farthest p (.seq a b) := by
  intro c m₀ h₀ m hm
  have honly : ∀ m₁ ∈ a.ways c, ∀ a₀, (a.ways c).head? = some a₀ → b.ways m₁.stop ≠ [] →
      m₁.stop = a₀.stop := by
    intro m₁ h₁ a₀ ha₀ hne
    obtain ⟨l, hl, hrest⟩ := ha c a₀ ha₀ m₁ h₁
    cases l with
    | nil => exact stop_eq h₁ (List.mem_of_head? ha₀) hrest
    | cons x l =>
      obtain ⟨y, rest, hy, hq⟩ := hstarts _ hne
      obtain rfl : y = x := (List.cons.inj (hy.symm.trans hrest)).1
      simp [hdisjoint y (hl y List.mem_cons_self)] at hq
  obtain ⟨m₁, h₁, m₂, h₂, rfl⟩ := Pattern.mem_ways_seq.mp hm
  obtain ⟨n₁, g₁, n₂, g₂, rfl⟩ := Pattern.head_seq h₀
  obtain ⟨a₀, ha₀⟩ := exists_head h₁
  have hm₁ := honly m₁ h₁ a₀ ha₀ (List.ne_nil_of_mem h₂)
  have hn₁ := honly n₁ g₁ a₀ ha₀ (List.ne_nil_of_mem (List.mem_of_head? g₂))
  rw [hm₁] at h₂
  rw [hn₁] at g₂
  exact hb a₀.stop n₂ g₂ m₂ h₂

theorem Farthest.opt (h : Farthest p a) (hwithin : Within p a) : Farthest p a.opt := by
  intro c m₀ h₀ m hm
  rw [Pattern.opt, Pattern.ways_alt, List.head?_append] at h₀
  cases ha : (a.ways c).head? with
  | some a₀ =>
    rw [ha] at h₀
    obtain rfl := Option.some.inj h₀
    rcases Pattern.mem_ways_alt.mp hm with hm | hm
    · exact h c _ ha m hm
    · obtain rfl := List.mem_singleton.mp hm
      obtain ⟨l, hl, hreach⟩ := hwithin c _ (List.mem_of_head? ha)
      exact ⟨l, hl, hreach.rest⟩
  | none =>
    rw [ha] at h₀
    obtain rfl := Option.some.inj h₀
    rcases Pattern.mem_ways_alt.mp hm with hm | hm
    · rw [List.head?_eq_none_iff.mp ha] at hm
      cases hm
    · obtain rfl := List.mem_singleton.mp hm
      exact ⟨[], by simp, rfl⟩

/-- A part that can always end, and that stays where the part before it could go on. -/
theorem Farthest.seq (ha : Farthest r a) (hb : Farthest p b) (hwithin : Within p b)
    (hstill : Still r b) (htotal : ∀ c, b.ways c ≠ []) (hr : ∀ x, r x = true → p x = true) :
    Farthest p (.seq a b) := by
  intro c m₀ h₀ m hm
  obtain ⟨m₁, h₁, m₂, h₂, rfl⟩ := Pattern.mem_ways_seq.mp hm
  obtain ⟨a₀, ha₀⟩ := exists_head h₁
  obtain ⟨b₀, hb₀, rfl⟩ := Pattern.head_seq_of_head ha₀ (htotal _) h₀
  obtain ⟨l, hl, hrest⟩ := ha c a₀ ha₀ m₁ h₁
  cases l with
  | nil =>
    rw [stop_eq h₁ (List.mem_of_head? ha₀) hrest] at h₂
    exact hb a₀.stop b₀ hb₀ m₂ h₂
  | cons x l =>
    have hstop := hstill m₁.stop x (l ++ a₀.stop.rest) hrest (hl x List.mem_cons_self) m₂ h₂
    obtain ⟨k, hk, hreach⟩ := hwithin a₀.stop b₀ (List.mem_of_head? hb₀)
    refine ⟨x :: l ++ k, fun y hy => ?_, ?_⟩
    · rcases List.mem_append.mp hy with hy | hy
      · exact hr y (hl y hy)
      · exact hk y hy
    · change m₂.stop.rest = _ ++ b₀.stop.rest
      rw [hstop, hrest, hreach.rest, List.append_assoc]

theorem exhausts_aux {l : List Char} {x : Char} (h : (l.dropWhile r).head? = some x) :
    r x = false := by
  cases hl : l.dropWhile r with
  | nil => simp [hl] at h
  | cons y rest =>
    rw [hl] at h
    obtain rfl := Option.some.inj h
    have := List.head_dropWhile_not r (l := l) (by simp [hl])
    simpa [hl] using this

end Farthest

theorem greedy_ne_nil : (Pattern.greedy p : Pattern ν).ways c ≠ [] := by
  intro h
  have hhead := head_greedyStops (p := p) c.before c.rest
  rw [Pattern.ways_greedy, List.map_eq_nil_iff] at h
  simp [h] at hhead

theorem farthest_plus : Farthest p (.plus p : Pattern ν) :=
  Farthest.seq (r := fun _ => false) farthest_one farthest_greedy (within_greedy fun _ h => h)
    (by simp [Still]) (fun _ => greedy_ne_nil) (by simp)

theorem within_plus : Within p (.plus p : Pattern ν) :=
  (within_one fun _ h => h).seq (within_greedy fun _ h => h)

/-- A bounded repetition goes as far as it can. -/
theorem farthest_upTo {r : Char → Bool} (hfar : Farthest r a) (hwithin : Within p a)
    (hr : ∀ x, r x = true → p x = true) (hstarts : Starts q a)
    (hdisjoint : ∀ x, r x = true → q x = false) :
    ∀ n, Farthest p (a.upTo n) ∧ Within p (a.upTo n) ∧ Still r (a.upTo n)
  | 0 => by
    refine ⟨farthest_empty, within_empty, fun c x rest _ _ m hm => ?_⟩
    obtain rfl := List.mem_singleton.mp hm
    rfl
  | n + 1 => by
    obtain ⟨hfar', hwithin', hstill'⟩ := farthest_upTo hfar hwithin hr hstarts hdisjoint n
    have htotal : ∀ c, (a.upTo n).ways c ≠ [] := by
      intro c
      cases n with
      | zero => exact List.cons_ne_nil _ _
      | succ n => exact opt_ne_nil
    exact ⟨(hfar.seq hfar' hwithin' hstill' htotal hr).opt (hwithin.seq hwithin'),
      (hwithin.seq hwithin').opt, hstarts.seq.still hdisjoint⟩

/-! ## Where the first way ends -/

/-- Behind the first way no character of the class `r` follows. -/
def Exhausts (r : Char → Bool) (a : Pattern ν) : Prop :=
  ∀ c m, (a.ways c).head? = some m → ∀ x, m.stop.rest.head? = some x → r x = false

section Exhausts

variable {r : Char → Bool}

theorem exhausts_greedy : Exhausts r (.greedy r : Pattern ν) := by
  intro c m hm x hx
  rw [Pattern.ways_greedy, List.head?_map, head_greedyStops] at hm
  obtain rfl := Option.some.inj hm
  exact exhausts_aux hx

theorem exhausts_plus : Exhausts r (.plus r : Pattern ν) := by
  intro c m hm
  obtain ⟨m₁, -, m₂, h₂, rfl⟩ := Pattern.head_seq hm
  exact exhausts_greedy m₁.stop m₂ h₂

theorem Exhausts.seq (h : Exhausts r b) : Exhausts r (.seq a b) := by
  intro c m hm
  obtain ⟨m₁, -, m₂, h₂, rfl⟩ := Pattern.head_seq hm
  exact h m₁.stop m₂ h₂

theorem Exhausts.seq_opt (ha : Exhausts r a) (hb : Exhausts r b) :
    Exhausts r (.seq a b.opt) := by
  intro c m hm
  obtain ⟨m', hm', -⟩ := Pattern.head_seq hm
  obtain ⟨a₀, ha₀⟩ := exists_head hm'
  obtain ⟨m₂, h₂, rfl⟩ := Pattern.head_seq_of_head ha₀ opt_ne_nil hm
  rw [Pattern.opt, Pattern.ways_alt, List.head?_append] at h₂
  cases hways : (b.ways a₀.stop).head? with
  | some b₀ =>
    rw [hways] at h₂
    obtain rfl := Option.some.inj h₂
    exact hb a₀.stop b₀ hways
  | none =>
    rw [hways] at h₂
    obtain rfl := Option.some.inj h₂
    exact ha c a₀ ha₀

theorem exhausts_seq_upTo (hb : Exhausts r b) : ∀ (n : ℕ) {a : Pattern ν}, Exhausts r a →
    Exhausts r (.seq a (b.upTo n))
  | 0, a, ha => by
    intro c m hm
    obtain ⟨m', hm', -⟩ := Pattern.head_seq hm
    obtain ⟨a₀, ha₀⟩ := exists_head hm'
    have hne : (b.upTo 0).ways a₀.stop ≠ [] := List.cons_ne_nil _ _
    obtain ⟨m₂, h₂, rfl⟩ := Pattern.head_seq_of_head ha₀ hne hm
    obtain rfl := Option.some.inj h₂
    exact ha c a₀ ha₀
  | n + 1, a, ha => ha.seq_opt (exhausts_seq_upTo hb n hb)

end Exhausts

/-! ## What stands at the end of a way -/

/-- Every way of a pattern ends behind a character of the class `q`. -/
def EndsWith (q : Char → Bool) (a : Pattern ν) : Prop :=
  ∀ c, ∀ m ∈ a.ways c, ∃ x rest, m.stop.before = x :: rest ∧ q x = true

theorem endsWith_one : EndsWith q (.one q : Pattern ν) := by
  intro c m hm
  obtain ⟨x, rest, -, hx, rfl⟩ := Pattern.mem_ways_one hm
  exact ⟨x, c.before, rfl, hx⟩

theorem EndsWith.mono {q' : Char → Bool} (h : EndsWith q a) (hq : ∀ x, q x = true → q' x = true) :
    EndsWith q' a := by
  intro c m hm
  obtain ⟨x, rest, hrest, hx⟩ := h c m hm
  exact ⟨x, rest, hrest, hq x hx⟩

theorem EndsWith.seq (h : EndsWith q b) : EndsWith q (.seq a b) := by
  intro c m hm
  obtain ⟨m₁, -, m₂, h₂, rfl⟩ := Pattern.mem_ways_seq.mp hm
  exact h _ m₂ h₂

theorem EndsWith.seq_within (h : EndsWith q a) (hb : Within q b) : EndsWith q (.seq a b) := by
  intro c m hm
  obtain ⟨m₁, h₁, m₂, h₂, rfl⟩ := Pattern.mem_ways_seq.mp hm
  obtain ⟨l, hl, hreach⟩ := hb _ m₂ h₂
  cases hrev : l.reverse with
  | nil =>
    obtain ⟨x, rest, hx, hq⟩ := h c m₁ h₁
    exact ⟨x, rest, by rw [Way.join, hreach.before, hrev, hx]; rfl, hq⟩
  | cons x rest =>
    refine ⟨x, rest ++ m₁.stop.before, by rw [Way.join, hreach.before, hrev]; rfl, hl x ?_⟩
    rw [← List.mem_reverse, hrev]
    exact List.mem_cons_self

theorem EndsWith.alt (ha : EndsWith q a) (hb : EndsWith q b) : EndsWith q (.alt a b) := by
  intro c m hm
  rcases Pattern.mem_ways_alt.mp hm with hm | hm
  · exact ha c m hm
  · exact hb c m hm

theorem EndsWith.seq_opt (ha : EndsWith q a) (hb : EndsWith q b) : EndsWith q (.seq a b.opt) := by
  intro c m hm
  obtain ⟨m₁, h₁, m₂, h₂, rfl⟩ := Pattern.mem_ways_seq.mp hm
  rcases Pattern.mem_ways_alt.mp h₂ with h₂ | h₂
  · exact hb _ m₂ h₂
  · obtain rfl := List.mem_singleton.mp h₂
    exact ha c m₁ h₁

theorem EndsWith.group {n : ν} (h : EndsWith q a) : EndsWith q (.group n a) := by
  intro c m hm
  obtain ⟨m', hm', rfl⟩ := List.mem_map.mp hm
  exact h c m' hm'

theorem endsWith_plus : EndsWith p (.plus p : Pattern ν) :=
  endsWith_one.seq_within (within_greedy fun _ h => h)

/-! ## What is captured -/

theorem Pattern.mem_names : ∀ (a : Pattern ν) {c : Cursor} {m : Way ν} {n : ν} {cap : Capture},
    m ∈ a.ways c → (n, cap) ∈ m.groups → n ∈ a.names
  | .empty, c, m, n, cap, hm, hcap => by
    obtain rfl := List.mem_singleton.mp hm
    cases hcap
  | .one p, c, m, n, cap, hm, hcap => by
    obtain ⟨_, _, -, -, rfl⟩ := mem_ways_one hm
    cases hcap
  | .greedy p, c, m, n, cap, hm, hcap => by
    obtain ⟨d, -, rfl⟩ := List.mem_map.mp hm
    cases hcap
  | .gap p, c, m, n, cap, hm, hcap => by
    obtain ⟨d, -, rfl⟩ := List.mem_map.mp hm
    cases hcap
  | .seq a b, c, m, n, cap, hm, hcap => by
    obtain ⟨m₁, h₁, m₂, h₂, rfl⟩ := mem_ways_seq.mp hm
    rcases List.mem_append.mp hcap with hcap | hcap
    · exact List.mem_append_left _ (mem_names a h₁ hcap)
    · exact List.mem_append_right _ (mem_names b h₂ hcap)
  | .alt a b, c, m, n, cap, hm, hcap => by
    rcases mem_ways_alt.mp hm with hm | hm
    · exact List.mem_append_left _ (mem_names a hm hcap)
    · exact List.mem_append_right _ (mem_names b hm hcap)
  | .group name a, c, m, n, cap, hm, hcap => by
    obtain ⟨m', hm', rfl⟩ := List.mem_map.mp hm
    rcases List.mem_cons.mp hcap with hcap | hcap
    · rw [(Prod.mk.inj hcap).1]
      exact List.mem_cons_self
    · exact List.mem_cons_of_mem _ (mem_names a hm' hcap)
  | .finish, c, m, n, cap, hm, hcap => by
    rw [eq_here_of_finish hm] at hcap
    cases hcap
  | .boundary p, c, m, n, cap, hm, hcap => by
    rw [eq_here_of_boundary hm] at hcap
    cases hcap
  | .notBehind p, c, m, n, cap, hm, hcap => by
    rw [eq_here_of_notBehind hm] at hcap
    cases hcap

/-- What a group captured on a way. -/
def Way.capture [DecidableEq ν] (m : Way ν) (n : ν) : Option Capture :=
  (m.groups.find? fun g => g.1 = n).map Prod.snd

/-- The place the first pattern leads to, where the second goes on from it. -/
def Pattern.place (a b : Pattern ν) (c : Cursor) : Option Cursor :=
  ((a.ways c).find? fun m => !(b.ways m.stop).isEmpty).map Way.stop

section Captures

variable [DecidableEq ν] {n : ν} {as bs : List (Pattern ν)}

theorem capture_eq_none (hn : n ∉ a.names) (hm : m ∈ a.ways c) : m.capture n = none := by
  rw [Way.capture, Option.map_eq_none_iff, List.find?_eq_none]
  rintro ⟨k, cap⟩ hg hk
  obtain rfl : k = n := by simpa using hk
  exact hn (a.mem_names hm hg)

/-- The groups before do not matter. -/
theorem capture_join {m' : Way ν} (hn : n ∉ a.names) (hm : m ∈ a.ways c) :
    (m.join m').capture n = m'.capture n := by
  have hnone : m.groups.find? (fun g => g.1 = n) = none := by
    simpa [Way.capture] using capture_eq_none hn hm
  rw [Way.capture, Way.capture, Way.join, List.find?_append, hnone, Option.none_or]

/-- The first way through a sequence goes on from its place. -/
theorem capture_place (hn : n ∉ a.names) (h : ((Pattern.seq a b).ways c).head? = some m) :
    ∃ d m₂, a.place b c = some d ∧ (∃ m₁ ∈ a.ways c, m₁.stop = d) ∧
      (b.ways d).head? = some m₂ ∧ m.capture n = m₂.capture n := by
  have hfirst : ∀ ms : List (Way ν), (∀ m₁ ∈ ms, m₁ ∈ a.ways c) →
      (ms.flatMap fun m₁ => (b.ways m₁.stop).map m₁.join).head? = some m →
        ∃ m₁ ∈ ms, ∃ m₂, (ms.find? fun m => !(b.ways m.stop).isEmpty) = some m₁ ∧
          (b.ways m₁.stop).head? = some m₂ ∧ m = m₁.join m₂ := by
    intro ms
    induction ms with
    | nil =>
      intro _ h
      cases h
    | cons m₁ ms ih =>
      intro hmem h
      rw [List.flatMap_cons, List.head?_append] at h
      cases hb : (b.ways m₁.stop).head? with
      | some m₂ =>
        have hne : (b.ways m₁.stop).isEmpty = false := by
          cases hways : b.ways m₁.stop with
          | nil => simp [hways] at hb
          | cons => rfl
        rw [List.head?_map, hb] at h
        exact ⟨m₁, List.mem_cons_self, m₂, by simp [hne], hb, (Option.some.inj h).symm⟩
      | none =>
        rw [List.head?_map, hb] at h
        obtain ⟨m₁', hmem', m₂, hfind, hhead, hm⟩ :=
          ih (fun k hk => hmem k (List.mem_cons_of_mem _ hk)) h
        refine ⟨m₁', List.mem_cons_of_mem _ hmem', m₂, ?_, hhead, hm⟩
        rw [List.head?_eq_none_iff] at hb
        simpa [List.find?_cons, hb] using hfind
  obtain ⟨m₁, hmem, m₂, hfind, hhead, rfl⟩ := hfirst (a.ways c) (fun _ hk => hk) h
  exact ⟨m₁.stop, m₂, by rw [Pattern.place, hfind]; rfl, ⟨m₁, hmem, rfl⟩, hhead,
    capture_join hn hmem⟩

/-- A group captures what its pattern passes over, where the rest goes on. -/
theorem capture_group (h : ((Pattern.seq (.group n a) b).ways c).head? = some m) :
    ∃ m' ∈ a.ways c, b.ways m'.stop ≠ [] ∧
      m.capture n = some ⟨c.before, c.span m'.stop, m'.stop.rest⟩ := by
  obtain ⟨m₁, h₁, m₂, h₂, rfl⟩ := Pattern.head_seq h
  obtain ⟨m', hm', rfl⟩ := List.mem_map.mp h₁
  exact ⟨m', hm', List.ne_nil_of_mem (List.mem_of_head? h₂), by simp [Way.capture, Way.join]⟩

/-- Before a gap of any characters, a group captures what the first way of its pattern passes
over. -/
theorem capture_absorb (hfar : Farthest p a) (hstarts : Starts q b)
    (hdisjoint : ∀ x, p x = true → q x = false)
    (h : ((Pattern.seq (.group n a) (.seq (.gap fun _ => true) b)).ways c).head? = some m) :
    ∃ m', (a.ways c).head? = some m' ∧
      m.capture n = some ⟨c.before, c.span m'.stop, m'.stop.rest⟩ := by
  obtain ⟨m₁, m₂, h₁, -, rfl⟩ := head_absorb hfar.group hstarts hdisjoint h
  rw [Pattern.ways_group, List.head?_map] at h₁
  obtain ⟨m', hm', rfl⟩ := Option.map_eq_some_iff.mp h₁
  exact ⟨m', hm', by simp [Way.capture, Way.join]⟩

end Captures

/-! ## One pattern behind the other -/

section InOrder

variable {n : ν} {as bs : List (Pattern ν)}

theorem inOrder_cons (h : as ≠ []) : Pattern.inOrder (a :: as) = .seq a (.inOrder as) := by
  cases as with
  | nil => exact absurd rfl h
  | cons b as => rfl

theorem ways_seq_assoc {b' : Pattern ν} :
    (Pattern.seq (.seq a b) b').ways c = (Pattern.seq a (.seq b b')).ways c := by
  simp only [Pattern.ways_seq, List.flatMap_assoc, List.map_flatMap, List.flatMap_map,
    List.map_map]
  refine congrArg (List.flatMap · _) (funext fun m => congrArg (List.flatMap · _) (funext fun k =>
    List.map_congr_left fun k' _ => ?_))
  simp [Way.join]

/-- The sequence may be cut anywhere. -/
theorem ways_inOrder_append (hbs : bs ≠ []) : ∀ {as : List (Pattern ν)}, as ≠ [] → ∀ c,
    (Pattern.inOrder (as ++ bs)).ways c = (Pattern.seq (.inOrder as) (.inOrder bs)).ways c
  | [a], _, c => by
    rw [List.singleton_append, inOrder_cons hbs]
    rfl
  | a :: b :: as, _, c => by
    have hne : b :: as ≠ [] := List.cons_ne_nil _ _
    rw [List.cons_append, inOrder_cons (by simp), inOrder_cons hne, ways_seq_assoc,
      Pattern.ways_seq, Pattern.ways_seq]
    refine congrArg (List.flatMap · _) (funext fun m => ?_)
    rw [ways_inOrder_append hbs hne]

/-- What a sequence leads to stands behind its last pattern. -/
theorem exists_last : ∀ {as : List (Pattern ν)} {c : Cursor} {m : Way ν},
    m ∈ (Pattern.inOrder (as ++ [a])).ways c → ∃ c', ∃ k ∈ a.ways c', k.stop = m.stop
  | [], c, m, h => ⟨c, m, h, rfl⟩
  | b :: as, c, m, h => by
    rw [List.cons_append, inOrder_cons (by simp)] at h
    obtain ⟨m₁, -, m₂, h₂, rfl⟩ := Pattern.mem_ways_seq.mp h
    obtain ⟨c', k, hk, hstop⟩ := exists_last h₂
    exact ⟨c', k, hk, hstop⟩

theorem starts_inOrder (h : Starts q a) : Starts q (Pattern.inOrder (a :: as)) := by
  cases as with
  | nil => exact h
  | cons b as => exact h.seq

end InOrder

/-! ## Words -/

section Words

variable {same : Char → Char → Bool} {xs : List Char}

theorem starts_word (hxs : xs ≠ []) (h : ∀ x ∈ xs, ∀ y, same x y = true → q y = true) :
    Starts q (Pattern.word same xs : Pattern ν) := by
  cases xs with
  | nil => exact absurd rfl hxs
  | cons x xs => exact (starts_one.mono (h x List.mem_cons_self)).seq

theorem within_word : ∀ {xs : List Char}, (∀ x ∈ xs, ∀ y, same x y = true → q y = true) →
    Within q (Pattern.word same xs : Pattern ν)
  | [], _ => within_empty
  | x :: _, h => (within_one (h x List.mem_cons_self)).seq
      (within_word fun y hy => h y (List.mem_cons_of_mem _ hy))

theorem endsWith_word (hxs : xs ≠ []) (h : ∀ x ∈ xs, ∀ y, same x y = true → q y = true) :
    EndsWith q (Pattern.word same xs : Pattern ν) := by
  cases xs with
  | nil => exact absurd rfl hxs
  | cons x xs =>
    exact (endsWith_one.mono (h x List.mem_cons_self)).seq_within
      (within_word fun y hy => h y (List.mem_cons_of_mem _ hy))

end Words

/-! ## The groups of a sequence -/

section Names

variable {as : List (Pattern ν)}

theorem names_inOrder : ∀ as : List (Pattern ν),
    (Pattern.inOrder as).names = as.flatMap Pattern.names
  | [] => rfl
  | [a] => by simp [Pattern.inOrder]
  | a :: b :: as => by
    rw [List.flatMap_cons, ← names_inOrder (b :: as)]
    rfl

theorem names_oneOf : ∀ as : List (Pattern ν),
    (Pattern.oneOf as).names = as.flatMap Pattern.names
  | [] => rfl
  | [a] => by simp [Pattern.oneOf]
  | a :: b :: as => by
    rw [List.flatMap_cons, ← names_oneOf (b :: as)]
    rfl

theorem names_seq : (Pattern.seq a b).names = a.names ++ b.names := rfl

theorem names_alt : (Pattern.alt a b).names = a.names ++ b.names := rfl

theorem names_group {n : ν} : (Pattern.group n a).names = n :: a.names := rfl

theorem names_opt : a.opt.names = a.names := List.append_nil _

theorem names_upTo (h : a.names = []) : ∀ n, (a.upTo n).names = []
  | 0 => rfl
  | n + 1 => by rw [Pattern.upTo, names_opt, names_seq, h, names_upTo h n]; rfl

theorem names_word {same : Char → Char → Bool} : ∀ xs : List Char,
    (Pattern.word same xs : Pattern ν).names = []
  | [] => rfl
  | _ :: xs => names_word xs

end Names

/-! ## Ways in another text -/

/-- The pattern asks for nothing but the characters it passes over. -/
def Pattern.portable : Pattern ν → Bool
  | finish => false
  | boundary _ => false
  | notBehind _ => false
  | seq a b => a.portable && b.portable
  | alt a b => a.portable && b.portable
  | group _ a => a.portable
  | _ => true

theorem Reaches.unique {l l' : List Char} (h : Reaches c l d) (h' : Reaches c l' d) : l = l' :=
  List.append_cancel_right (h.rest.symm.trans h'.rest)

theorem mem_greedyStops_of_reaches : ∀ {l rest before : List Char} {d : Cursor},
    (∀ x ∈ l, p x = true) → Reaches ⟨before, rest⟩ l d → d ∈ greedyStops p before rest
  | [], rest, before, d, _, h => by
    obtain rfl : d = ⟨before, rest⟩ := by
      obtain ⟨b, r⟩ := d
      have hr : rest = r := h.rest
      have hb : b = before := by simpa using h.before
      rw [hr, hb]
    cases rest <;> simp [greedyStops]
  | x :: l, rest, before, d, hl, h => by
    obtain rfl : rest = x :: (l ++ d.rest) := h.rest
    have hx : p x = true := hl x List.mem_cons_self
    rw [greedyStops, if_pos hx]
    refine List.mem_append_left _ (mem_greedyStops_of_reaches
      (fun y hy => hl y (List.mem_cons_of_mem _ hy)) ⟨rfl, ?_⟩)
    simpa using h.before

/-- A way through a pattern is one through the same characters in every other text. -/
theorem exists_way : ∀ (a : Pattern ν), a.portable = true → ∀ {c : Cursor} {m : Way ν}
    {l : List Char}, m ∈ a.ways c → Reaches c l m.stop → ∀ before rest : List Char,
      ∃ m' ∈ a.ways ⟨before, l ++ rest⟩, m'.stop = ⟨l.reverse ++ before, rest⟩
  | .empty, _, c, m, l, hm, hl, before, rest => by
    obtain rfl := List.mem_singleton.mp hm
    obtain rfl := hl.unique (Reaches.refl c)
    exact ⟨_, List.mem_singleton_self _, rfl⟩
  | .one p, _, c, m, l, hm, hl, before, rest => by
    obtain ⟨x, s, hs, hx, rfl⟩ := Pattern.mem_ways_one hm
    obtain rfl : l = [x] := hl.unique ⟨hs, rfl⟩
    refine ⟨.here ⟨x :: before, rest⟩, ?_, rfl⟩
    rw [List.singleton_append, Pattern.ways_one_cons, if_pos hx]
    exact List.mem_singleton_self _
  | .greedy p, _, c, m, l, hm, hl, before, rest => by
    obtain ⟨d, hd, rfl⟩ := List.mem_map.mp hm
    obtain ⟨l', hall, hl'⟩ := reaches_of_mem_greedyStops hd
    obtain rfl := hl.unique hl'
    exact ⟨_, List.mem_map.mpr ⟨⟨l.reverse ++ before, rest⟩,
      mem_greedyStops_of_reaches hall ⟨rfl, rfl⟩, rfl⟩, rfl⟩
  | .gap p, _, c, m, l, hm, hl, before, rest => by
    obtain ⟨d, hd, rfl⟩ := List.mem_map.mp hm
    obtain ⟨l', hall, hl'⟩ := reaches_of_mem_lazyStops hd
    obtain rfl := hl.unique hl'
    exact ⟨_, List.mem_map.mpr ⟨⟨l.reverse ++ before, rest⟩,
      mem_lazyStops_of_reaches hall ⟨rfl, rfl⟩, rfl⟩, rfl⟩
  | .seq a b, h, c, m, l, hm, hl, before, rest => by
    obtain ⟨ha, hb⟩ := (Bool.and_eq_true _ _).mp h
    obtain ⟨m₁, h₁, m₂, h₂, rfl⟩ := Pattern.mem_ways_seq.mp hm
    obtain ⟨l₁, hl₁⟩ := a.exists_reaches h₁
    obtain ⟨l₂, hl₂⟩ := b.exists_reaches h₂
    obtain rfl := hl.unique (hl₁.trans hl₂)
    obtain ⟨n₁, hn₁, hstop₁⟩ := exists_way a ha h₁ hl₁ before (l₂ ++ rest)
    obtain ⟨n₂, hn₂, hstop₂⟩ := exists_way b hb h₂ hl₂ (l₁.reverse ++ before) rest
    rw [← List.append_assoc] at hn₁
    rw [← hstop₁] at hn₂
    refine ⟨n₁.join n₂, Pattern.mem_ways_seq.mpr ⟨n₁, hn₁, n₂, hn₂, rfl⟩, ?_⟩
    rw [Way.join, hstop₂]
    simp
  | .alt a b, h, c, m, l, hm, hl, before, rest => by
    obtain ⟨ha, hb⟩ := (Bool.and_eq_true _ _).mp h
    rcases Pattern.mem_ways_alt.mp hm with hm | hm
    · obtain ⟨m', hm', hstop⟩ := exists_way a ha hm hl before rest
      exact ⟨m', Pattern.mem_ways_alt.mpr (Or.inl hm'), hstop⟩
    · obtain ⟨m', hm', hstop⟩ := exists_way b hb hm hl before rest
      exact ⟨m', Pattern.mem_ways_alt.mpr (Or.inr hm'), hstop⟩
  | .group n a, h, c, m, l, hm, hl, before, rest => by
    obtain ⟨m₁, h₁, rfl⟩ := List.mem_map.mp hm
    obtain ⟨m', hm', hstop⟩ := exists_way a h h₁ hl before rest
    exact ⟨_, List.mem_map.mpr ⟨m', hm', rfl⟩, hstop⟩
  | .finish, h, _, _, _, _, _, _, _ => by cases h
  | .boundary _, h, _, _, _, _, _, _, _ => by cases h
  | .notBehind _, h, _, _, _, _, _, _, _ => by cases h

/-! ## Successive matches -/

theorem findAll_skip : ∀ (l : List Char) (k : ℕ) (before rest : List Char), k = l.length →
    a.findAll k before (l ++ rest) = a.findAll 0 (l.reverse ++ before) rest
  | [], k, before, rest, h => by
    obtain rfl : k = 0 := h
    rfl
  | x :: l, k, before, rest, h => by
    obtain rfl : k = l.length + 1 := h
    rw [List.cons_append, Pattern.findAll, findAll_skip l _ _ _ rfl]
    simp

/-- Where the pattern does not begin, nothing is found. -/
theorem findAll_pass (hstarts : Starts q a) : ∀ (l before rest : List Char),
    (∀ x ∈ l, q x = false) → a.findAll 0 before (l ++ rest) = a.findAll 0 (l.reverse ++ before) rest
  | [], before, rest, _ => rfl
  | x :: l, before, rest, h => by
    have hnil : a.ways ⟨before, x :: (l ++ rest)⟩ = [] := by
      by_contra hne
      obtain ⟨y, s, hy, hq⟩ := hstarts _ hne
      obtain rfl := (List.cons.inj hy).1
      simp [h x List.mem_cons_self] at hq
    rw [List.cons_append, Pattern.findAll, hnil]
    simp only [List.head?_nil]
    rw [findAll_pass hstarts l _ _ fun y hy => h y (List.mem_cons_of_mem _ hy)]
    simp

/-- The first match, and those behind it. -/
theorem findAll_head {m : Way ν} {x : Char} {l before rest : List Char}
    (hhead : (a.ways ⟨before, x :: (l ++ rest)⟩).head? = some m)
    (hreach : Reaches ⟨before, x :: (l ++ rest)⟩ (x :: l) m.stop) (hrest : m.stop.rest = rest) :
    a.findAll 0 before (x :: l ++ rest) =
      ⟨before, x :: l, rest⟩ :: a.findAll 0 ((x :: l).reverse ++ before) rest := by
  rw [List.cons_append, Pattern.findAll, hhead]
  dsimp only
  rw [hreach.span, hrest, findAll_skip l _ _ _ (by simp)]
  simp

end Backtracking
