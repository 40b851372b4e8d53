import FattyTrader.ExplicitSignals

/-!
# The numbers behind the labels

Where a message gives a signal, the stop of the first four expressions is a whole number of the
text, because nothing but spaces may follow it, and so are both prices of the rigid one. An
entry and a list of targets run as far as their expressions can read, because a gap follows
them ; they are whole unless the text goes on with a mark the expressions do not know. A stop of
the scalp expression is whole unless it stands behind a point, or a digit of another alphabet.
-/

set_option autoImplicit false

namespace FattyTrader.ExplicitSignals

open Backtracking Pattern

variable (e : Engine)

/-! ## Whole numbers -/

namespace Engine

/-- The text goes on with the mark and a digit. -/
def goesOn (mark : Char) : List Char → Bool
  | x :: y :: _ => x == mark && e.isDigit y
  | _ => false

/-- Neither a digit nor a decimal point. -/
def apart (x : Char) : Bool := !e.isDigit x && x != '.'

/-- A whole number of the text around it. -/
structure Whole (cap : Capture) : Prop where
  before : ∀ x, cap.before.head? = some x → e.apart x = true
  after : ∀ x, cap.after.head? = some x → e.isDigit x = false
  point : e.goesOn '.' cap.after = false

/-- And no part of a number with commas, nor a leverage. -/
structure WholePrice (cap : Capture) : Prop extends e.Whole cap where
  comma : e.goesOn ',' cap.after = false
  leverage : ∀ x, cap.after.head? = some x → x ∉ ['x', 'X']

/-- What may stand between two targets, or belongs to one. -/
def listed (x : Char) : Bool := e.isDigit x || e.isSpace x || x ∈ ['.', ',', '-', '/']

end Engine

/-- The capture stands in the text behind one of the labels, with only such characters between
them. -/
def StandsBehind (labels : List Regex) (between : Char → Bool) (text : List Char)
    (cap : Capture) : Prop :=
  ∃ label ∈ labels, ∃ c, ∃ m ∈ label.ways c, ∃ l, (∀ x ∈ l, between x = true) ∧
    Reaches m.stop l ⟨cap.before, cap.text ++ cap.after⟩ ∧
      ∃ k, Reaches ⟨[], text⟩ k ⟨cap.before, cap.text ++ cap.after⟩

/-- The captures the prices of a signal come from. -/
structure Reading where
  entry : Option Capture
  targets : List Capture
  stop : Capture

namespace Engine

def readingOf (m : Way Group) : Option Reading :=
  (m.capture .sl).map fun stop => ⟨m.capture .entry, e.targets m, stop⟩

def reading (text : List Char) : Option Reading :=
  ((e.sourceMatch text).or (e.scalpMarketStopOnly.first text)).bind e.readingOf

end Engine

namespace Reading

variable (r : Reading)

structure Whole : Prop where
  entry : ∀ cap, r.entry = some cap → e.WholePrice cap
  targets : ∀ cap ∈ r.targets, e.Whole cap
  stop : e.WholePrice r.stop

/-- Every capture stands in the text, behind a label of its own. -/
structure Stands (text : List Char) : Prop where
  entry : ∀ cap, r.entry = some cap →
    StandsBehind [e.channelEntry, e.naturalEntry, e.limitEntryLabel] (fun _ => false) text cap
  targets : ∀ cap ∈ r.targets,
    StandsBehind [e.channelTargets, e.rigidTarget] e.listed text cap
  stop : StandsBehind [e.channelStop, e.naturalStop, e.rigidStop, e.limitStop, e.scalpStop]
    (fun _ => false) text r.stop

end Reading

/-! ## When the text breaks no number -/

namespace Engine

/-- A price may end before this. -/
def clearBehind (after : List Char) : Bool :=
  !e.goesOn '.' after && !e.goesOn ',' after && after.head?.all fun x => x ∉ ['x', 'X']

/-- Behind the label that `head` ends with, where `rest` goes on, the number ends. -/
def entryUnbroken (head rest : List Regex) (text : List Char) : Bool :=
  ((inOrder head).place (inOrder (group .entry e.number :: rest)) ⟨[], text⟩).all fun d =>
    (e.number.ways d).head?.all fun m => e.clearBehind m.stop.rest

/-- Behind the label of the targets, the list of numbers ends. -/
def targetsUnbroken (text : List Char) : Bool :=
  ((inOrder (e.channelHead ++ [e.channelEntry] ++ [group .entry e.number, anything] ++
      [e.channelTargets])).place (inOrder e.channelTail) ⟨[], text⟩).all fun d =>
    (e.numbers.ways d).head?.all fun m => !e.goesOn '.' m.stop.rest

/-- Behind a scalp's label, no point and no digit stands before the last number. -/
def stopUnbroken (text : List Char) : Bool :=
  ((inOrder (e.scalpHead ++ [e.scalpStop])).place (inOrder e.lastStop) ⟨[], text⟩).all fun d =>
    d.before.head?.all e.apart

/-- The first expression that matches says which numbers of the text must not go on. -/
def unbroken (text : List Char) : Bool :=
  if (e.channel.first text).isSome then
    e.entryUnbroken (e.channelHead ++ [e.channelEntry])
      (anything :: e.channelTargets :: e.channelTail) text && e.targetsUnbroken text
  else if (e.naturalStopOnly.first text).isSome then
    e.entryUnbroken (e.naturalHead ++ [e.naturalEntry])
      (anything :: e.naturalStop :: e.lastStop) text
  else if (e.rigid.first text).isSome then true
  else if (e.limitEntry.first text).isSome then
    e.entryUnbroken (e.limitHead ++ [e.limitEntryLabel])
      (anything :: e.limitStop :: e.lastStop) text
  else e.stopUnbroken text

end Engine

variable {e} {text : List Char} {m : Way Group} {cap : Capture}

/-! ## Characters -/

section Characters

variable {x : Char}

/-- A character the words of the labels begin with. -/
def Engine.letter (e : Engine) (x : Char) : Bool :=
  !e.isDigit x && !e.isSpace x && !decide (x ∈ ['.', ',', '-', '/'])

theorem apart_of_letter (h : e.letter x = true) : e.apart x = true := by
  simp only [Engine.letter, Bool.and_eq_true, Bool.not_eq_true', decide_eq_false_iff_not] at h
  simp only [Engine.apart, h.1.1, Bool.not_false, Bool.true_and, bne_iff_ne]
  rintro rfl
  simp at h

theorem letter_of_listed (h : e.listed x = true) : e.letter x = false := by
  simp only [Engine.listed, Bool.or_eq_true, decide_eq_true_eq] at h
  simp only [Engine.letter, Bool.and_eq_false_iff, Bool.not_eq_false', decide_eq_true_eq]
  tauto

theorem apart_of_space (h : e.isSpace x = true) : e.apart x = true := by
  simp only [Engine.apart, e.digit_of_space x h, Bool.not_false, Bool.true_and, bne_iff_ne]
  rintro rfl
  rw [e.space_of_mark '.' (by simp)] at h
  cases h

theorem apart_of_mark (h : x ∈ [',', '-', '/', ':', '@']) : e.apart x = true := by
  have hdigit : e.isDigit x = false := e.digit_of_mark x (by simp at h ⊢; tauto)
  simp only [Engine.apart, hdigit, Bool.not_false, Bool.true_and, bne_iff_ne]
  rintro rfl
  simp at h

theorem letter_of_same {w : String} (hw : w.toList.all Char.isAlpha = true) :
    ∀ x ∈ w.toList, ∀ y, e.same x y = true → e.letter y = true := by
  intro x hx y hy
  obtain ⟨hdigit, hspace, hmark⟩ := e.other_of_letter x y (List.all_eq_true.mp hw x hx) hy
  simp [Engine.letter, hdigit, hspace] at hmark ⊢
  tauto

theorem starts_literal {w : String} (hw : w.toList.all Char.isAlpha = true)
    (hne : w.toList ≠ []) : Starts e.letter (e.literal w) :=
  starts_word hne (letter_of_same hw)

theorem endsWith_literal {w : String} (hw : w.toList.all Char.isAlpha = true)
    (hne : w.toList ≠ []) : EndsWith e.apart (e.literal w) :=
  (endsWith_word hne (letter_of_same hw)).mono fun _ => apart_of_letter

theorem within_literal {w : String} (hw : w.toList.all Char.isAlpha = true) :
    Within e.apart (e.literal w) :=
  within_word fun x hx y hy => apart_of_letter (letter_of_same hw x hx y hy)

end Characters

/-! ## Labels -/

section Labels

theorem within_space : Within e.apart e.space := within_greedy fun _ => apart_of_space

theorem within_spaces : Within e.apart e.spaces :=
  (within_one fun _ => apart_of_space).seq (within_greedy fun _ => apart_of_space)

theorem within_colon : Within e.apart e.colon :=
  within_space.seq (Within.seq (Within.opt (within_one fun x hx => apart_of_mark (by
    simp at hx
    simp [hx]))) within_space)

theorem endsWith_spaces : EndsWith e.apart e.spaces :=
  endsWith_plus.mono fun _ => apart_of_space

theorem endsWith_channelEntry : EndsWith e.apart e.channelEntry := by
  refine EndsWith.alt (EndsWith.seq (EndsWith.seq (EndsWith.seq_within ?_ within_space)))
    endsWith_spaces.seq
  exact endsWith_one.mono fun x hx => apart_of_mark (by
    simp at hx
    simp [hx])

theorem endsWith_channelTargets : EndsWith e.apart e.channelTargets :=
  EndsWith.seq_within (EndsWith.alt
    (EndsWith.seq_opt (endsWith_literal (by decide) (by decide))
      (endsWith_literal (by decide) (by decide)))
    (EndsWith.seq_opt (endsWith_literal (by decide) (by decide))
      (endsWith_literal (by decide) (by decide)))) within_colon

theorem endsWith_channelStop : EndsWith e.apart e.channelStop :=
  EndsWith.seq_within (EndsWith.alt (endsWith_literal (by decide) (by decide))
    (endsWith_literal (by decide) (by decide))) within_colon

theorem endsWith_naturalEntry : EndsWith e.apart e.naturalEntry := endsWith_spaces.seq

theorem endsWith_naturalStop : EndsWith e.apart e.naturalStop :=
  EndsWith.seq_within (EndsWith.alt (endsWith_literal (by decide) (by decide))
    (EndsWith.alt (EndsWith.seq (EndsWith.seq (endsWith_literal (by decide) (by decide))))
      (endsWith_literal (by decide) (by decide)))) within_colon

theorem endsWith_limitStop : EndsWith e.apart e.limitStop :=
  EndsWith.seq_within (EndsWith.alt (endsWith_literal (by decide) (by decide))
    (EndsWith.alt (EndsWith.seq (EndsWith.seq (endsWith_literal (by decide) (by decide))))
      (endsWith_literal (by decide) (by decide)))) within_colon

theorem endsWith_limitEntryLabel : EndsWith e.apart e.limitEntryLabel := by
  refine EndsWith.seq_within (EndsWith.group (EndsWith.alt
    (endsWith_literal (by decide) (by decide)) (endsWith_literal (by decide) (by decide)))) ?_
  refine within_spaces.seq (Within.seq (Within.opt
    ((within_literal (by decide)).seq within_spaces)) (Within.seq (Within.opt ?_) within_space))
  refine (within_literal (by decide)).alt ((within_literal (by decide)).alt
    ((within_literal (by decide)).alt (within_one fun x hx => apart_of_mark ?_)))
  simp at hx
  simp [hx]

theorem starts_channelTargets : Starts e.letter e.channelTargets :=
  Starts.seq (Starts.alt (starts_literal (by decide) (by decide)).seq
    (starts_literal (by decide) (by decide)).seq)

theorem starts_channelStop : Starts e.letter e.channelStop :=
  Starts.seq (Starts.alt (starts_literal (by decide) (by decide))
    (starts_literal (by decide) (by decide)))

theorem starts_naturalStop : Starts e.letter e.naturalStop :=
  Starts.seq (Starts.alt (starts_literal (by decide) (by decide))
    (Starts.alt (starts_literal (by decide) (by decide)).seq
      (starts_literal (by decide) (by decide))))

theorem starts_limitStop : Starts e.letter e.limitStop :=
  Starts.seq (Starts.alt (starts_literal (by decide) (by decide))
    (Starts.alt (starts_literal (by decide) (by decide)).seq
      (starts_literal (by decide) (by decide))))

end Labels

/-! ## Numbers -/

section Numbers

/-- A character of a number. -/
def Engine.numeral (e : Engine) (x : Char) : Bool := e.isDigit x || x == '.'

theorem digit_point : e.isDigit '.' = false := e.digit_of_mark '.' (by simp)

theorem within_number : Within e.numeral e.number := by
  have hdigits : Within e.numeral (plus e.isDigit : Regex) :=
    (within_one fun x hx => by simp [Engine.numeral, hx]).seq
      (within_greedy fun x hx => by simp [Engine.numeral, hx])
  refine hdigits.seq (Within.opt (Within.seq (within_one fun x hx => ?_) hdigits))
  simp at hx
  simp [Engine.numeral, hx]

theorem starts_number : Starts e.isDigit e.number := starts_one.seq.seq

theorem farthest_number : Farthest e.numeral e.number := by
  have hpoint : ∀ x, e.isDigit x = true → decide (x ∈ ['.']) = false := by
    intro x hx
    simp only [List.mem_singleton, decide_eq_false_iff_not]
    rintro rfl
    rw [digit_point] at hx
    cases hx
  have hfraction : Starts (fun x => decide (x ∈ ['.'])) (seq (mark ['.']) (plus e.isDigit)) :=
    starts_one.seq
  have hwithin : Within e.numeral (seq (mark ['.']) (plus e.isDigit)) := by
    refine Within.seq (within_one fun x hx => ?_) (within_plus.mono fun x hx => ?_)
    · simp at hx
      simp [Engine.numeral, hx]
    · simp [Engine.numeral, hx]
  have hfar : Farthest e.numeral (seq (mark ['.']) (plus e.isDigit)) :=
    (farthest_one (p := fun _ => false)).seq_of_starts
      (farthest_plus.mono fun x hx => by simp [Engine.numeral, hx])
      starts_one.seq (by simp)
  exact farthest_plus.seq (hfar.opt hwithin) hwithin.opt (hfraction.still hpoint)
    (fun _ => opt_ne_nil) fun x hx => by simp [Engine.numeral, hx]

theorem exhausts_number : Exhausts e.isDigit e.number :=
  exhausts_plus.seq_opt exhausts_plus.seq

theorem starts_nextNumber :
    Starts (fun x => e.isSpace x || decide (x ∈ ['-', ',', '/'])) e.nextNumber :=
  starts_greedy_seq (starts_one.seq.mono fun x hx => by simp at hx ⊢; tauto) fun x hx => by
    simp [hx]

theorem listed_of_numeral {x : Char} (h : e.numeral x = true) : e.listed x = true := by
  simp only [Engine.numeral, Bool.or_eq_true, beq_iff_eq] at h
  rcases h with h | rfl <;> simp [Engine.listed, *]

theorem within_nextNumber : Within e.listed e.nextNumber := by
  have hspace : Within e.listed e.space := within_greedy fun x hx => by simp [Engine.listed, hx]
  refine hspace.seq (Within.seq (within_one fun x hx => ?_)
    (hspace.seq (within_number.mono fun x => listed_of_numeral)))
  simp at hx
  simp only [Engine.listed, Bool.or_eq_true, decide_eq_true_eq]
  exact Or.inr (by simp; tauto)

theorem farthest_nextNumber : Farthest e.numeral e.nextNumber := by
  have hlast : Farthest e.numeral (seq e.space e.number) :=
    farthest_greedy.seq_of_starts farthest_number starts_number e.digit_of_space
  have hstarts : Starts (fun _ => true) (seq e.space e.number) :=
    starts_greedy_seq (starts_number.mono fun _ _ => rfl) fun _ _ => rfl
  have hmark : Farthest e.numeral (seq (mark ['-', ',', '/']) (seq e.space e.number)) :=
    (farthest_one (p := fun _ => false)).seq_of_starts hlast hstarts (by simp)
  refine farthest_greedy.seq_of_starts hmark starts_one.seq fun x hx => ?_
  simp only [decide_eq_false_iff_not]
  intro hmem
  rw [e.space_of_mark x (by simp at hmem ⊢; tauto)] at hx
  cases hx

theorem farthest_numbers : Farthest e.listed e.numbers := by
  have hdisjoint : ∀ x, e.numeral x = true →
      (e.isSpace x || decide (x ∈ ['-', ',', '/'])) = false := by
    intro x hx
    simp only [Engine.numeral, Bool.or_eq_true, beq_iff_eq] at hx
    simp only [Bool.or_eq_false_iff, decide_eq_false_iff_not]
    rcases hx with hx | rfl
    · constructor
      · cases hspace : e.isSpace x with
        | false => rfl
        | true => rw [e.digit_of_space x hspace] at hx; cases hx
      · intro hmem
        rw [e.digit_of_mark x (by simp at hmem ⊢; tauto)] at hx
        cases hx
    · exact ⟨e.space_of_mark '.' (by simp), by simp⟩
  obtain ⟨hfar, hwithin, hstill⟩ := farthest_upTo farthest_nextNumber within_nextNumber
    (fun x => listed_of_numeral) starts_nextNumber hdisjoint 4
  exact farthest_number.seq hfar hwithin hstill (fun _ => opt_ne_nil) fun x => listed_of_numeral

theorem exhausts_numbers : Exhausts e.isDigit e.numbers :=
  exhausts_seq_upTo exhausts_number.seq.seq.seq 4 exhausts_number

end Numbers

/-! ## The numbers of a list -/

section Listing

/-- The number pattern passes over the text. -/
def Engine.IsNumber (e : Engine) (l : List Char) : Prop :=
  ∃ c, ∃ m ∈ e.number.ways c, Reaches c l m.stop

/-- Numbers, and between any two of them spaces and a mark. -/
inductive Engine.Listing (e : Engine) : List Char → Prop
  | last {l : List Char} (hl : e.IsNumber l) : e.Listing l
  | next {l t : List Char} {x : Char} {s : List Char} (hl : e.IsNumber l)
      (hs : ∀ y ∈ x :: s, e.apart y = true ∧ e.listed y = true) (ht : e.Listing t) :
      e.Listing (l ++ (x :: s ++ t))

theorem apart_of_between {x : Char} (h : (e.isSpace x || decide (x ∈ ['-', ',', '/'])) = true) :
    e.apart x = true ∧ e.listed x = true := by
  simp only [Bool.or_eq_true, decide_eq_true_eq] at h
  rcases h with h | h
  · exact ⟨apart_of_space h, by simp [Engine.listed, h]⟩
  · refine ⟨apart_of_mark (by simp at h ⊢; tauto), ?_⟩
    simp only [Engine.listed, Bool.or_eq_true, decide_eq_true_eq]
    exact Or.inr (by simp at h ⊢; tauto)

theorem listing_of_mem : ∀ (n : ℕ) {c : Cursor} {m : Way Group} {l : List Char},
    m ∈ (seq e.number (upTo e.nextNumber n)).ways c → Reaches c l m.stop → e.Listing l
  | 0, c, m, l, hm, hl => by
    obtain ⟨m₁, h₁, m₂, h₂, rfl⟩ := mem_ways_seq.mp hm
    obtain rfl := List.mem_singleton.mp h₂
    exact .last ⟨c, m₁, h₁, hl⟩
  | n + 1, c, m, l, hm, hl => by
    obtain ⟨m₁, h₁, m₂, h₂, rfl⟩ := mem_ways_seq.mp hm
    obtain ⟨l₁, hl₁⟩ := e.number.exists_reaches h₁
    rcases mem_ways_alt.mp h₂ with h₂ | h₂
    · obtain ⟨k, hk, k', hk', rfl⟩ := mem_ways_seq.mp h₂
      obtain ⟨s, hs, a, ha, rfl⟩ := mem_ways_seq.mp hk
      obtain ⟨y, hy, b, hb, rfl⟩ := mem_ways_seq.mp ha
      obtain ⟨s', hs', z, hz, rfl⟩ := mem_ways_seq.mp hb
      have hspace : ∀ {c : Cursor} {m : Way Group}, m ∈ e.space.ways c →
          ∃ l, (∀ x ∈ l, e.isSpace x = true) ∧ Reaches c l m.stop :=
        fun hm => within_greedy (fun _ h => h) _ _ hm
      obtain ⟨ls, hls, hrs⟩ := hspace hs
      obtain ⟨x, rest, hrest, hx, rfl⟩ := mem_ways_one hy
      obtain ⟨ls', hls', hrs'⟩ := hspace hs'
      have htail : z.join k' ∈ (seq e.number (upTo e.nextNumber n)).ways s'.stop :=
        mem_ways_seq.mpr ⟨z, hz, k', hk', rfl⟩
      obtain ⟨t, ht⟩ := (seq e.number (upTo e.nextNumber n)).exists_reaches htail
      have hbetween : ∀ y ∈ ls ++ x :: ls', e.apart y = true ∧ e.listed y = true := by
        intro y hy
        refine apart_of_between ?_
        rcases List.mem_append.mp hy with hy | hy
        · simp [hls y hy]
        · rcases List.mem_cons.mp hy with rfl | hy
          · exact Bool.or_eq_true_iff.mpr (Or.inr hx)
          · simp [hls' y hy]
      have hreach : Reaches c (l₁ ++ (ls ++ x :: ls' ++ t)) (z.join k').stop := by
        have hone : Reaches s.stop [x] ⟨x :: s.stop.before, rest⟩ := ⟨hrest, rfl⟩
        have h := hl₁.trans ((hrs.trans (hone.trans hrs')).trans ht)
        simpa using h
      obtain rfl := hl.unique hreach
      cases hfirst : ls ++ x :: ls' with
      | nil => simp at hfirst
      | cons x' s'' =>
        rw [hfirst] at hbetween
        exact .next ⟨c, m₁, h₁, hl₁⟩ hbetween (listing_of_mem n htail ht)
    · obtain rfl := List.mem_singleton.mp h₂
      exact .last ⟨c, m₁, h₁, hl⟩

theorem Engine.IsNumber.ne_nil {l : List Char} (h : e.IsNumber l) : l ≠ [] := by
  obtain ⟨c, m, hm, hl⟩ := h
  obtain ⟨k, hk, f, hf, rfl⟩ := mem_ways_seq.mp hm
  obtain ⟨o, ho, g, hg, rfl⟩ := mem_ways_seq.mp hk
  obtain ⟨x, rest, hrest, -, rfl⟩ := mem_ways_one ho
  obtain ⟨lg, hlg⟩ := (greedy e.isDigit).exists_reaches hg
  obtain ⟨lf, hlf⟩ := (Pattern.opt (seq (mark ['.']) (plus e.isDigit))).exists_reaches hf
  have hone : Reaches c [x] ⟨x :: c.before, rest⟩ := ⟨hrest, rfl⟩
  rw [hl.unique ((hone.trans hlg).trans hlf)]
  simp

/-- The number pattern finds a number again, where no other character of a number follows. -/
theorem head_number {l : List Char} (hl : e.IsNumber l) (before rest : List Char)
    (hrest : ∀ x, rest.head? = some x → e.apart x = true) :
    ∃ m, (e.number.ways ⟨before, l ++ rest⟩).head? = some m ∧
      m.stop = ⟨l.reverse ++ before, rest⟩ := by
  obtain ⟨c, m, hm, hreach⟩ := hl
  obtain ⟨m', hm', hstop⟩ := exists_way e.number rfl hm hreach before rest
  obtain ⟨m₀, h₀⟩ := exists_head hm'
  obtain ⟨k, hk, hfar⟩ := farthest_number _ m₀ h₀ m' hm'
  refine ⟨m₀, h₀, ?_⟩
  cases k with
  | nil => rw [← stop_eq hm' (List.mem_of_head? h₀) hfar, hstop]
  | cons x k =>
    rw [hstop] at hfar
    have happart := hrest x (by rw [show rest = _ from hfar]; rfl)
    have hnumeral := hk x List.mem_cons_self
    simp [Engine.apart, Engine.numeral] at happart hnumeral
    simp [happart] at hnumeral

theorem findAll_number {l : List Char} (hl : e.IsNumber l) (before rest : List Char)
    (hrest : ∀ x, rest.head? = some x → e.apart x = true) :
    e.number.findAll 0 before (l ++ rest) =
      ⟨before, l, rest⟩ :: e.number.findAll 0 (l.reverse ++ before) rest := by
  obtain ⟨m, hm, hstop⟩ := head_number hl before rest hrest
  cases l with
  | nil => exact absurd rfl hl.ne_nil
  | cons x l =>
    exact findAll_head hm ⟨by rw [hstop]; rfl, by rw [hstop]⟩ (by rw [hstop])

theorem numbersIn_last {l : List Char} (hl : e.IsNumber l) (before after : List Char) :
    e.numbersIn ⟨before, l, after⟩ = [⟨before, l, after⟩] := by
  have h := findAll_number hl before [] (by simp)
  rw [List.append_nil] at h
  rw [Engine.numbersIn, h]
  rfl

theorem numbersIn_next {l t s : List Char} {x : Char} (hl : e.IsNumber l)
    (hs : ∀ y ∈ x :: s, e.apart y = true ∧ e.listed y = true) (before after : List Char) :
    e.numbersIn ⟨before, l ++ (x :: s ++ t), after⟩ =
      ⟨before, l, x :: s ++ t ++ after⟩ ::
        e.numbersIn ⟨(x :: s).reverse ++ (l.reverse ++ before), t, after⟩ := by
  have hrest : ∀ y, (x :: s ++ t).head? = some y → e.apart y = true := by
    intro y hy
    obtain rfl : x = y := by simpa using hy
    exact (hs x List.mem_cons_self).1
  rw [Engine.numbersIn, findAll_number hl before _ hrest,
    findAll_pass starts_number (x :: s) _ t fun y hy => ?_]
  · rfl
  · have happart := (hs y hy).1
    simp only [Engine.apart, Bool.and_eq_true, Bool.not_eq_true'] at happart
    exact happart.1

theorem listed_of_isNumber {l : List Char} (h : e.IsNumber l) :
    ∀ x ∈ l, e.listed x = true := by
  obtain ⟨c, m, hm, hl⟩ := h
  obtain ⟨l', hl', hreach⟩ := within_number c m hm
  rw [hl.unique hreach]
  exact fun x hx => listed_of_numeral (hl' x hx)

/-- Every number of a list stands apart from what is before it, and ends before what is no
digit. Only the last one can be gone on with. -/
theorem numbersIn_listing {l : List Char} (h : e.Listing l) : ∀ before after : List Char,
    (∀ x, before.head? = some x → e.apart x = true) →
    (∀ x, after.head? = some x → e.isDigit x = false) →
      (∀ cap ∈ e.numbersIn ⟨before, l, after⟩,
        (∀ x, cap.before.head? = some x → e.apart x = true) ∧
          (∀ x, cap.after.head? = some x → e.isDigit x = false) ∧
          ∃ k, (∀ x ∈ k, e.listed x = true) ∧
            Reaches ⟨before, l ++ after⟩ k ⟨cap.before, cap.text ++ cap.after⟩) ∧
      ((∀ cap ∈ e.numbersIn ⟨before, l, after⟩, e.goesOn '.' cap.after = false) ↔
        e.goesOn '.' after = false) := by
  induction h with
  | @last l hl =>
    intro before after hbefore hafter
    rw [numbersIn_last hl]
    refine ⟨fun cap hcap => ?_, by simp⟩
    obtain rfl := List.mem_singleton.mp hcap
    exact ⟨hbefore, hafter, [], by simp, Reaches.refl _⟩
  | @next l t x s hl hs _ ih =>
    intro before after hbefore hafter
    have hx := hs x List.mem_cons_self
    have hdigit : e.isDigit x = false ∧ x ≠ '.' := by
      simpa [Engine.apart] using hx.1
    have hhead : ∀ y, ((x :: s).reverse ++ (l.reverse ++ before)).head? = some y →
        e.apart y = true := by
      intro y hy
      cases hrev : (x :: s).reverse with
      | nil => simp at hrev
      | cons z zs =>
        rw [hrev] at hy
        obtain rfl : z = y := by simpa using hy
        exact (hs z (by rw [← List.mem_reverse, hrev]; exact List.mem_cons_self)).1
    obtain ⟨hall, hpoint⟩ := ih _ after hhead hafter
    rw [numbersIn_next hl hs]
    refine ⟨fun cap hcap => ?_, ?_⟩
    · rcases List.mem_cons.mp hcap with rfl | hcap
      · refine ⟨hbefore, fun y hy => ?_, [], by simp, ⟨by simp, rfl⟩⟩
        obtain rfl : x = y := by simpa using hy
        exact hdigit.1
      · obtain ⟨hbefore', hafter', k, hk, hreach⟩ := hall cap hcap
        refine ⟨hbefore', hafter', l ++ (x :: s) ++ k, fun y hy => ?_, ?_⟩
        · rcases List.mem_append.mp hy with hy | hy
          · rcases List.mem_append.mp hy with hy | hy
            · exact listed_of_isNumber hl y hy
            · exact (hs y hy).2
          · exact hk y hy
        · refine Reaches.trans (d := ⟨(x :: s).reverse ++ (l.reverse ++ before), t ++ after⟩)
            ⟨by simp, by simp⟩ hreach
    · rw [List.forall_mem_cons, hpoint, and_iff_right]
      cases hrest : s ++ t ++ after with
      | nil => simp [hrest, Engine.goesOn]
      | cons y ys => simp [hrest, Engine.goesOn, hdigit.2]

end Listing

/-! ## What the expressions capture -/

section Captured

variable {n : Group} {as bs : List Regex} {label next : Regex} {a : Regex} {d : Cursor}

/-- Behind the label the rest of the expression goes on. -/
theorem exists_place (hbs : bs ≠ []) (hn : n ∉ (inOrder (as ++ [label])).names)
    (h : (inOrder (as ++ [label] ++ bs)).first text = some m) :
    ∃ d m₂, (inOrder (as ++ [label])).place (inOrder bs) ⟨[], text⟩ = some d ∧
      (∃ c, ∃ k ∈ label.ways c, k.stop = d) ∧ (∃ l, Reaches ⟨[], text⟩ l d) ∧
      ((inOrder bs).ways d).head? = some m₂ ∧ m.capture n = m₂.capture n := by
  rw [first, ways_inOrder_append hbs (by simp)] at h
  obtain ⟨d, m₂, hplace, ⟨m₁, h₁, rfl⟩, hhead, hcap⟩ := capture_place hn h
  exact ⟨m₁.stop, m₂, hplace, exists_last h₁, exists_reaches _ h₁, hhead, hcap⟩

theorem standsBehind_place {labels : List Regex} {between : Char → Bool} {m' : Way Group}
    (hlabel : label ∈ labels) (hbehind : ∃ c, ∃ k ∈ label.ways c, k.stop = d)
    (htext : ∃ l, Reaches ⟨[], text⟩ l d) (hm : m' ∈ a.ways d) :
    StandsBehind labels between text ⟨d.before, d.span m'.stop, m'.stop.rest⟩ := by
  obtain ⟨l, hl⟩ := a.exists_reaches hm
  have hd : (⟨d.before, d.span m'.stop ++ m'.stop.rest⟩ : Cursor) = d := by
    rw [hl.span, ← hl.rest]
  obtain ⟨c, k, hk, rfl⟩ := hbehind
  obtain ⟨j, hj⟩ := htext
  exact ⟨label, hlabel, c, k, hk, [], by simp, by rw [hd]; exact Reaches.refl _, j,
    by rw [hd]; exact hj⟩

theorem apart_of_behind (hlabel : EndsWith e.apart label)
    (hbehind : ∃ c, ∃ k ∈ label.ways c, k.stop = d) :
    ∀ x, d.before.head? = some x → e.apart x = true := by
  obtain ⟨c, k, hk, rfl⟩ := hbehind
  obtain ⟨y, rest, hrest, hy⟩ := hlabel c k hk
  intro x hx
  rw [hrest] at hx
  exact Option.some.inj hx ▸ hy

theorem goesOn_of_space {after : List Char} (hafter : ∀ x, after.head? = some x →
    e.isSpace x = true) {mark : Char} (hmark : mark ∈ ['.', ',']) :
    e.goesOn mark after = false := by
  match after with
  | [] => rfl
  | [_] => rfl
  | x :: y :: rest =>
    have hx := hafter x rfl
    simp only [Engine.goesOn, Bool.and_eq_false_iff, beq_eq_false_iff_ne]
    left
    rintro rfl
    rw [e.space_of_mark x (by simp at hmark ⊢; tauto)] at hx
    cases hx

theorem wholePrice_of_space (hbefore : ∀ x, cap.before.head? = some x → e.apart x = true)
    (hafter : ∀ x, cap.after.head? = some x → e.isSpace x = true) : e.WholePrice cap where
  before := hbefore
  after x hx := e.digit_of_space x (hafter x hx)
  point := goesOn_of_space hafter (by simp)
  comma := goesOn_of_space hafter (by simp)
  leverage x hx hmem := by
    have := hafter x hx
    rw [e.space_of_mark x (by simp at hmem ⊢; tauto)] at this
    cases this

theorem wholePrice_iff_clearBehind
    (hbefore : ∀ x, cap.before.head? = some x → e.apart x = true)
    (hafter : ∀ x, cap.after.head? = some x → e.isDigit x = false) :
    e.WholePrice cap ↔ e.clearBehind cap.after = true := by
  simp only [Engine.clearBehind, Bool.and_eq_true, Bool.not_eq_true', Option.all_eq_true,
    decide_eq_true_eq]
  constructor
  · intro h
    exact ⟨⟨h.point, h.comma⟩, h.leverage⟩
  · rintro ⟨⟨hpoint, hcomma⟩, hleverage⟩
    exact ⟨⟨hbefore, hafter, hpoint⟩, hcomma, hleverage⟩

/-- An entry before a gap : it is whole exactly where nothing goes on behind it. -/
theorem exists_entry (hn : .entry ∉ (inOrder (as ++ [label])).names)
    (hlabel : EndsWith e.apart label) (hnext : Starts e.letter next)
    (h : (inOrder (as ++ [label] ++
      group .entry e.number :: anything :: next :: bs)).first text = some m) :
    ∃ cap, m.capture .entry = some cap ∧
      (∀ labels between, label ∈ labels → StandsBehind labels between text cap) ∧
      (e.WholePrice cap ↔
        e.entryUnbroken (as ++ [label]) (anything :: next :: bs) text = true) := by
  obtain ⟨d, m₂, hplace, hbehind, htext, hhead, hcap⟩ := exists_place (by simp) hn h
  have hdisjoint : ∀ x, e.numeral x = true → e.letter x = false := fun x hx =>
    letter_of_listed (listed_of_numeral hx)
  obtain ⟨m', hm', hcap'⟩ :=
    capture_absorb farthest_number (starts_inOrder hnext) hdisjoint hhead
  refine ⟨_, hcap.trans hcap', fun labels between hmem =>
    standsBehind_place hmem hbehind htext (List.mem_of_head? hm'), ?_⟩
  rw [wholePrice_iff_clearBehind (apart_of_behind hlabel hbehind) (exhausts_number d m' hm'),
    Engine.entryUnbroken, hplace, Option.all_some, hm', Option.all_some]

/-- A number that only spaces may follow. -/
theorem exists_price (hbs : bs ≠ []) (hn : n ∉ (inOrder (as ++ [label])).names)
    (hspace : ∀ c, (inOrder bs).ways c ≠ [] →
      ∀ x, c.rest.head? = some x → e.isSpace x = true)
    (h : (inOrder (as ++ [label] ++ group n e.number :: bs)).first text = some m) :
    ∃ d cap, (inOrder (as ++ [label])).place (inOrder (group n e.number :: bs)) ⟨[], text⟩ =
        some d ∧ (∃ c, ∃ k ∈ label.ways c, k.stop = d) ∧ m.capture n = some cap ∧
      (∀ labels between, label ∈ labels → StandsBehind labels between text cap) ∧
      cap.before = d.before ∧ e.IsNumber cap.text ∧
      ∀ x, cap.after.head? = some x → e.isSpace x = true := by
  obtain ⟨d, m₂, hplace, hbehind, htext, hhead, hcap⟩ := exists_place (by simp) hn h
  rw [inOrder_cons hbs] at hhead
  obtain ⟨m', hm', hne, hcap'⟩ := capture_group hhead
  obtain ⟨l, hl⟩ := e.number.exists_reaches hm'
  exact ⟨d, _, hplace, hbehind, hcap.trans hcap', fun labels between hmem =>
    standsBehind_place hmem hbehind htext hm', rfl, ⟨d, m', hm', by rw [hl.span]; exact hl⟩,
    hspace _ hne⟩

/-- What stands before the end of a message. -/
theorem space_of_end {c : Cursor} (h : (inOrder [e.space, finish] : Regex).ways c ≠ []) :
    ∀ x, c.rest.head? = some x → e.isSpace x = true := by
  obtain ⟨m, hm⟩ := List.exists_mem_of_ne_nil _ h
  obtain ⟨m₁, h₁, m₂, h₂, rfl⟩ := mem_ways_seq.mp hm
  obtain ⟨l, hl, hreach⟩ := within_greedy (fun _ h => h) _ _ h₁
  have hend : m₁.stop.rest = [] ∨ m₁.stop.rest = ['\n'] := rest_of_finish h₂
  intro x hx
  rw [hreach.rest] at hx
  cases l with
  | cons y l => exact hl x (by simp at hx; simp [hx])
  | nil =>
    rcases hend with hend | hend
    · simp [hend] at hx
    · obtain rfl : '\n' = x := by simpa [hend] using hx
      exact e.space_newline

/-- The stop at the end of an expression. -/
theorem exists_lastStop (hn : .sl ∉ (inOrder (as ++ [label])).names)
    (hlabel : EndsWith e.apart label)
    (h : (inOrder (as ++ [label] ++ e.lastStop)).first text = some m) :
    ∃ cap, m.capture .sl = some cap ∧
      (∀ labels between, label ∈ labels → StandsBehind labels between text cap) ∧
      e.WholePrice cap := by
  obtain ⟨d, cap, -, hbehind, hcap, hstands, hbefore, -, hafter⟩ :=
    exists_price (by simp) hn (fun _ => space_of_end) h
  refine ⟨cap, hcap, hstands, wholePrice_of_space ?_ hafter⟩
  rw [hbefore]
  exact apart_of_behind hlabel hbehind

end Captured

/-! ## Expression by expression -/

section Expressions

theorem names_literal (w : String) : (e.literal w).names = [] := names_word _

theorem names_token : e.token.names = [] := by
  rw [Engine.token, names_seq, names_upTo rfl]
  rfl

theorem names_numbers : e.numbers.names = [] := by
  rw [Engine.numbers, names_seq, names_upTo rfl]
  rfl

theorem names_entry : [group .entry e.number, anything].flatMap names = [.entry] := rfl

theorem names_lastStop : e.lastStop.flatMap names = [.sl] := rfl

theorem names_channelHead :
    (inOrder (e.channelHead ++ [e.channelEntry])).names = [.pair, .pair2, .direction] := by
  simp only [names_inOrder, Engine.channelHead, Engine.channelEntry, Engine.side,
    List.flatMap_append, List.flatMap_cons, List.flatMap_nil, names_opt, names_group, names_alt,
    names_seq, names_literal, names_token]
  rfl

theorem names_naturalHead :
    (inOrder (e.naturalHead ++ [e.naturalEntry])).names = [.direction, .pair] := by
  simp only [names_inOrder, names_oneOf, Engine.naturalHead, Engine.naturalEntry,
    List.flatMap_append, List.flatMap_cons, List.flatMap_nil, names_opt, names_group, names_seq,
    names_literal, names_token]
  rfl

theorem names_limitHead : (inOrder (e.limitHead ++ [e.limitEntryLabel])).names =
    [.pair, .pair2, .direction] := by
  simp only [names_inOrder, names_oneOf, Engine.limitHead, Engine.limitEntryLabel, Engine.side,
    List.flatMap_append, List.flatMap_cons, List.flatMap_nil, names_opt, names_group, names_alt,
    names_seq, names_literal, names_token]
  rfl

theorem names_rigidHead :
    (inOrder (e.rigidHead ++ [e.rigidStop])).names = [.pair, .direction] := by
  simp only [names_inOrder, Engine.rigidHead, Engine.rigidStop, Engine.side,
    List.flatMap_append, List.flatMap_cons, List.flatMap_nil, names_group, names_alt,
    names_seq, names_literal, names_token]
  rfl

theorem names_scalpHead : (inOrder (e.scalpHead ++ [e.scalpStop])).names =
    [.pair, .pair2, .direction] := by
  simp only [names_inOrder, names_oneOf, Engine.scalpHead, Engine.scalpStop, Engine.stopLoss,
    List.flatMap_append, List.flatMap_cons, List.flatMap_nil, names_opt, names_group,
    names_literal, names_token]
  rfl

theorem names_channelTargets : e.channelTargets.names = [] := by
  simp only [Engine.channelTargets, names_seq, names_alt, names_opt, names_literal]
  rfl

theorem names_channelStop : e.channelStop.names = [] := by
  simp only [Engine.channelStop, names_seq, names_alt, names_literal]
  rfl

theorem names_rigidTarget : e.rigidTarget.names = [] := by
  simp only [Engine.rigidTarget, names_seq, names_literal]
  rfl

theorem mem_of_first {a : Regex} (h : a.first text = some m) : m ∈ a.ways ⟨[], text⟩ :=
  List.mem_of_head? h

/-- A list of targets is whole where its last number is. -/
theorem whole_numbersIn {outer : Capture} (hlisting : e.Listing outer.text)
    (hbefore : ∀ x, outer.before.head? = some x → e.apart x = true)
    (hafter : ∀ x, outer.after.head? = some x → e.isDigit x = false) :
    (∀ cap ∈ e.numbersIn outer, e.Whole cap) ↔ e.goesOn '.' outer.after = false := by
  obtain ⟨hall, hpoint⟩ := numbersIn_listing hlisting outer.before outer.after hbefore hafter
  rw [← hpoint]
  exact ⟨fun h cap hcap => (h cap hcap).point, fun h cap hcap =>
    ⟨(hall cap hcap).1, (hall cap hcap).2.1, h cap hcap⟩⟩

theorem standsBehind_numbersIn {outer : Capture} {labels : List Regex}
    (hlisting : e.Listing outer.text)
    (hbefore : ∀ x, outer.before.head? = some x → e.apart x = true)
    (hafter : ∀ x, outer.after.head? = some x → e.isDigit x = false)
    (hstands : StandsBehind labels e.listed text outer) :
    ∀ cap ∈ e.numbersIn outer, StandsBehind labels e.listed text cap := by
  intro cap hcap
  obtain ⟨-, -, k, hk, hreach⟩ :=
    (numbersIn_listing hlisting outer.before outer.after hbefore hafter).1 cap hcap
  obtain ⟨label, hlabel, c, m, hm, l, hl, hreach', j, hj⟩ := hstands
  refine ⟨label, hlabel, c, m, hm, l ++ k, fun x hx => ?_, hreach'.trans hreach, j ++ k,
    hj.trans hreach⟩
  rcases List.mem_append.mp hx with hx | hx
  · exact hl x hx
  · exact hk x hx

/-- The targets of `_CHANNEL`. -/
theorem exists_targets (h : e.channel.first text = some m) :
    ∃ outer, m.capture .tps = some outer ∧
      (∀ cap ∈ e.numbersIn outer,
        StandsBehind [e.channelTargets, e.rigidTarget] e.listed text cap) ∧
      ((∀ cap ∈ e.numbersIn outer, e.Whole cap) ↔ e.targetsUnbroken text = true) := by
  have hn : .tps ∉ (inOrder (e.channelHead ++ [e.channelEntry] ++
      [group .entry e.number, anything] ++ [e.channelTargets])).names := by
    rw [names_inOrder, List.flatMap_append, List.flatMap_append, ← names_inOrder,
      names_channelHead, names_entry, List.flatMap_singleton, names_channelTargets]
    decide
  have h' : (inOrder (e.channelHead ++ [e.channelEntry] ++ [group .entry e.number, anything] ++
      [e.channelTargets] ++ e.channelTail)).first text = some m := by
    simpa [Engine.channel] using h
  obtain ⟨d, m₂, hplace, hbehind, htext, hhead, hcap⟩ :=
    exists_place (List.cons_ne_nil _ _) hn h'
  obtain ⟨m', hm', hcap'⟩ := capture_absorb farthest_numbers (starts_inOrder starts_channelStop)
    (fun x => letter_of_listed) hhead
  have hmem : m' ∈ e.numbers.ways d := List.mem_of_head? hm'
  obtain ⟨l, hl⟩ := e.numbers.exists_reaches hmem
  have hlisting : e.Listing (d.span m'.stop) := by
    rw [hl.span]
    exact listing_of_mem 4 hmem hl
  have hbefore := apart_of_behind endsWith_channelTargets hbehind
  have hafter := exhausts_numbers d m' hm'
  refine ⟨_, hcap.trans hcap', standsBehind_numbersIn hlisting hbefore hafter
    (standsBehind_place (by simp) hbehind htext hmem), ?_⟩
  rw [whole_numbersIn hlisting hbefore hafter, Engine.targetsUnbroken, Engine.channelTail, hplace,
    Option.all_some, hm', Option.all_some, Bool.not_eq_true']

theorem reading_channel (h : e.channel.first text = some m) :
    ∃ r, e.readingOf m = some r ∧ r.Stands e text ∧
      (r.Whole e ↔ e.entryUnbroken (e.channelHead ++ [e.channelEntry])
        (anything :: e.channelTargets :: e.channelTail) text = true ∧
          e.targetsUnbroken text = true) := by
  obtain ⟨entry, hcapEntry, hstandsEntry, hwhole⟩ := exists_entry
    (by rw [names_channelHead]; decide) endsWith_channelEntry starts_channelTargets h
  obtain ⟨outer, hcapTargets, hstandsTargets, hwholeTargets⟩ := exists_targets h
  have hbefore : .sl ∉ (inOrder (e.channelHead ++ [e.channelEntry] ++
      [group .entry e.number, anything] ++ [e.channelTargets] ++
        [group .tps e.numbers, anything] ++ [e.channelStop])).names := by
    have hnames : [group .tps e.numbers, anything].flatMap names = [.tps] := by
      simp only [List.flatMap_cons, names_group, names_numbers]
      rfl
    rw [names_inOrder]
    simp only [List.flatMap_append]
    rw [← List.flatMap_append, ← names_inOrder, names_channelHead, names_entry, hnames,
      List.flatMap_singleton, List.flatMap_singleton, names_channelTargets, names_channelStop]
    decide
  have h' : (inOrder (e.channelHead ++ [e.channelEntry] ++ [group .entry e.number, anything] ++
      [e.channelTargets] ++ [group .tps e.numbers, anything] ++ [e.channelStop] ++
        e.lastStop)).first text = some m := by
    simpa [Engine.channel, Engine.channelTail] using h
  obtain ⟨stop, hcapStop, hstandsStop, hwholeStop⟩ :=
    exists_lastStop hbefore endsWith_channelStop h'
  have htargets : e.targets m = e.numbersIn outer := by
    rw [Engine.targets, hcapTargets]
    rfl
  refine ⟨⟨some entry, e.numbersIn outer, stop⟩, ?_, ⟨?_, hstandsTargets,
    hstandsStop _ _ (by simp)⟩, ?_⟩
  · rw [Engine.readingOf, hcapStop, hcapEntry, htargets]
    rfl
  · rintro cap ⟨⟩
    exact hstandsEntry _ _ (by simp)
  · rw [← hwhole, ← hwholeTargets]
    constructor
    · exact fun hr => ⟨hr.entry entry rfl, hr.targets⟩
    · rintro ⟨hentry, htargets⟩
      refine ⟨?_, htargets, hwholeStop⟩
      rintro cap ⟨⟩
      exact hentry

/-- `_NATURAL_STOP_ONLY` and `_LIMIT_ENTRY` : an entry, a gap, and a stop at the end. -/
theorem reading_entryStop {as : List Regex} {label next : Regex}
    (hgroups : ∀ n ∈ [Group.entry, .tps, .tp, .sl], n ∉ (inOrder (as ++ [label])).names)
    (hnames : next.names = []) (hlabel : EndsWith e.apart label) (hnext : EndsWith e.apart next)
    (hstarts : Starts e.letter next)
    (hentry : label ∈ [e.channelEntry, e.naturalEntry, e.limitEntryLabel])
    (hstop : next ∈ [e.channelStop, e.naturalStop, e.rigidStop, e.limitStop, e.scalpStop])
    (h : (inOrder (as ++ [label] ++
      group .entry e.number :: anything :: next :: e.lastStop)).first text = some m) :
    ∃ r, e.readingOf m = some r ∧ r.Stands e text ∧
      (r.Whole e ↔ e.entryUnbroken (as ++ [label]) (anything :: next :: e.lastStop) text =
        true) := by
  have hbefore : .sl ∉ (inOrder (as ++ [label] ++
      [group .entry e.number, anything] ++ [next])).names := by
    have := hgroups .sl (by simp)
    rw [names_inOrder] at this ⊢
    rw [List.flatMap_append, List.flatMap_append, List.mem_append, List.mem_append]
    rintro ((hmem | hmem) | hmem)
    · exact this hmem
    · rw [names_entry] at hmem
      exact absurd hmem (by decide)
    · simp [hnames] at hmem
  obtain ⟨entry, hcapEntry, hstandsEntry, hwhole⟩ :=
    exists_entry (hgroups _ (by simp)) hlabel hstarts h
  have h' : (inOrder (as ++ [label] ++ [group .entry e.number, anything] ++ [next] ++
      e.lastStop)).first text = some m := by
    simpa using h
  obtain ⟨stop, hcapStop, hstandsStop, hwholeStop⟩ := exists_lastStop hbefore hnext h'
  have hnone : ∀ n ∈ [Group.tps, .tp], m.capture n = none := by
    intro n hn
    refine capture_eq_none ?_ (mem_of_first h)
    have := hgroups n (by simp at hn ⊢; tauto)
    rw [names_inOrder] at this ⊢
    rw [List.flatMap_append, List.mem_append]
    rintro (hmem | hmem)
    · exact this hmem
    · have hrest : (group .entry e.number :: anything :: next :: e.lastStop).flatMap names =
          [group .entry e.number, anything].flatMap names ++ e.lastStop.flatMap names := by
        simp [hnames]
      rw [hrest, names_entry, names_lastStop] at hmem
      rcases List.mem_pair.mp hn with rfl | rfl <;> exact absurd hmem (by decide)
  have htargets : e.targets m = [] := by
    rw [Engine.targets, hnone _ (by simp), hnone _ (by simp)]
    rfl
  refine ⟨⟨some entry, [], stop⟩, ?_, ⟨?_, by simp, hstandsStop _ _ hstop⟩, ?_⟩
  · rw [Engine.readingOf, hcapStop, hcapEntry, htargets]
    rfl
  · rintro cap ⟨⟩
    exact hstandsEntry _ _ hentry
  · rw [← hwhole]
    constructor
    · exact fun hr => hr.entry entry rfl
    · intro hentry
      refine ⟨?_, by simp, hwholeStop⟩
      rintro cap ⟨⟩
      exact hentry

theorem reading_natural (h : e.naturalStopOnly.first text = some m) :
    ∃ r, e.readingOf m = some r ∧ r.Stands e text ∧
      (r.Whole e ↔ e.entryUnbroken (e.naturalHead ++ [e.naturalEntry])
        (anything :: e.naturalStop :: e.lastStop) text = true) := by
  refine reading_entryStop ?_ ?_ endsWith_naturalEntry endsWith_naturalStop
    starts_naturalStop (by simp) (by simp) h
  · rw [names_naturalHead]
    decide
  · simp only [Engine.naturalStop, names_seq, names_oneOf, names_inOrder, List.flatMap_cons,
      names_literal]
    rfl

theorem reading_limit (h : e.limitEntry.first text = some m) :
    ∃ r, e.readingOf m = some r ∧ r.Stands e text ∧
      (r.Whole e ↔ e.entryUnbroken (e.limitHead ++ [e.limitEntryLabel])
        (anything :: e.limitStop :: e.lastStop) text = true) := by
  refine reading_entryStop ?_ ?_ endsWith_limitEntryLabel endsWith_limitStop
    starts_limitStop (by simp) (by simp) h
  · rw [names_limitHead]
    decide
  · simp only [Engine.limitStop, Engine.stopLoss, names_seq, names_oneOf, names_inOrder,
      List.flatMap_cons, names_literal]
    rfl

/-- `_RIGID` : both prices are followed by a space, or by the end. -/
theorem reading_rigid (h : e.rigid.first text = some m) :
    ∃ r, e.readingOf m = some r ∧ r.Stands e text ∧ r.Whole e := by
  have hspaces : ∀ c, (inOrder [e.spaces, e.rigidTarget, group .tp e.number, e.space,
      finish]).ways c ≠ [] → ∀ x, c.rest.head? = some x → e.isSpace x = true := by
    intro c hne x hx
    obtain ⟨y, rest, hrest, hy⟩ := starts_inOrder starts_one.seq c hne
    rw [hrest] at hx
    exact Option.some.inj hx ▸ hy
  have hmid : [group .sl e.number, e.spaces].flatMap names = [Group.sl] := rfl
  obtain ⟨d, stop, -, hbehind, hcapStop, hstandsStop, hbefore, -, hafter⟩ :=
    exists_price (List.cons_ne_nil _ _) (by rw [names_rigidHead]; decide) hspaces h
  have htp : .tp ∉ (inOrder (e.rigidHead ++ [e.rigidStop] ++ [group .sl e.number, e.spaces] ++
      [e.rigidTarget])).names := by
    rw [names_inOrder, List.flatMap_append, List.flatMap_append, ← names_inOrder,
      names_rigidHead, hmid, List.flatMap_singleton, names_rigidTarget]
    decide
  have h' : (inOrder (e.rigidHead ++ [e.rigidStop] ++ [group .sl e.number, e.spaces] ++
      [e.rigidTarget] ++ [group .tp e.number, e.space, finish])).first text = some m := by
    simpa [Engine.rigid] using h
  obtain ⟨d', target, -, hbehind', hcapTarget, hstandsTarget, hbefore', hnumber, hafter'⟩ :=
    exists_price (List.cons_ne_nil _ _) htp (fun _ => space_of_end) h'
  have hapart := apart_of_behind endsWith_spaces.seq hbehind
  have hapart' := apart_of_behind endsWith_spaces.seq hbehind'
  rw [← hbefore] at hapart
  rw [← hbefore'] at hapart'
  have hnone : ∀ n ∈ [Group.entry, .tps], m.capture n = none := by
    intro n hn
    refine capture_eq_none ?_ (mem_of_first h)
    have hend : [group .sl e.number, e.spaces, e.rigidTarget, group .tp e.number, e.space,
        finish].flatMap names = [Group.sl, .tp] := by
      simp only [List.flatMap_cons, names_rigidTarget]
      rfl
    rw [Engine.rigid, names_inOrder, List.flatMap_append, ← names_inOrder, names_rigidHead, hend]
    rcases List.mem_pair.mp hn with rfl | rfl <;> decide
  have hdigit : ∀ x, target.after.head? = some x → e.isDigit x = false := fun x hx =>
    e.digit_of_space x (hafter' x hx)
  have htargets : e.targets m = e.numbersIn target := by
    rw [Engine.targets, hnone _ (by simp), hcapTarget]
    rfl
  refine ⟨⟨none, e.numbersIn target, stop⟩, ?_, ⟨?_, ?_, hstandsStop _ _ (by simp)⟩, ⟨?_, ?_,
    wholePrice_of_space hapart hafter⟩⟩
  · rw [Engine.readingOf, hcapStop, hnone _ (by simp), htargets]
    rfl
  · rintro cap ⟨⟩
  · exact standsBehind_numbersIn (.last hnumber) hapart' hdigit (hstandsTarget _ _ (by simp))
  · rintro cap ⟨⟩
  · exact (whole_numbersIn (.last hnumber) hapart' hdigit).mpr
      (goesOn_of_space hafter' (by simp))

/-- A scalp gives a stop, and nothing else. -/
theorem capture_scalp (h : e.scalpMarketStopOnly.first text = some m) :
    ∀ n ∈ [Group.entry, .tps, .tp], m.capture n = none := by
  intro n hn
  refine capture_eq_none ?_ (mem_of_first h)
  rw [Engine.scalpMarketStopOnly, names_inOrder, List.flatMap_append, ← names_inOrder,
    names_scalpHead, names_lastStop]
  simp only [List.mem_cons, List.not_mem_nil, or_false] at hn
  rcases hn with rfl | rfl | rfl <;> decide

theorem targets_scalp (h : e.scalpMarketStopOnly.first text = some m) : e.targets m = [] := by
  rw [Engine.targets, capture_scalp h _ (by simp), capture_scalp h _ (by simp)]
  rfl

theorem reading_scalp (h : e.scalpMarketStopOnly.first text = some m) :
    ∃ r, e.readingOf m = some r ∧ r.Stands e text ∧
      (r.Whole e ↔ e.stopUnbroken text = true) := by
  obtain ⟨d, stop, hplace, -, hcapStop, hstandsStop, hbefore, -, hafter⟩ :=
    exists_price (List.cons_ne_nil _ _) (by rw [names_scalpHead]; decide)
      (fun _ => space_of_end) h
  refine ⟨⟨none, [], stop⟩, ?_, ⟨?_, by simp, hstandsStop _ _ (by simp)⟩, ?_⟩
  · rw [Engine.readingOf, hcapStop, capture_scalp h _ (by simp), targets_scalp h]
    rfl
  · rintro cap ⟨⟩
  · rw [Engine.stopUnbroken, Engine.lastStop, hplace, Option.all_some, ← hbefore,
      Option.all_eq_true]
    constructor
    · exact fun hr => hr.stop.before
    · intro hstop
      refine ⟨?_, by simp, wholePrice_of_space hstop hafter⟩
      rintro cap ⟨⟩

/-- What the first expression that matches captures. -/
theorem reading_eq (h : (e.sourceMatch text).or (e.scalpMarketStopOnly.first text) = some m) :
    ∃ r, e.readingOf m = some r ∧ r.Stands e text ∧ (r.Whole e ↔ e.unbroken text = true) := by
  rw [Engine.sourceMatch] at h
  rw [Engine.unbroken]
  cases hchannel : e.channel.first text with
  | some m' =>
    rw [hchannel, Option.some_or, Option.some_or] at h
    obtain rfl := Option.some.inj h
    simpa using reading_channel hchannel
  | none =>
  cases hnatural : e.naturalStopOnly.first text with
  | some m' =>
    rw [hchannel, hnatural, Option.none_or, Option.some_or, Option.some_or] at h
    obtain rfl := Option.some.inj h
    simpa using reading_natural hnatural
  | none =>
  cases hrigid : e.rigid.first text with
  | some m' =>
    rw [hchannel, hnatural, hrigid, Option.none_or, Option.none_or, Option.some_or,
      Option.some_or] at h
    obtain rfl := Option.some.inj h
    simpa using reading_rigid hrigid
  | none =>
  cases hlimit : e.limitEntry.first text with
  | some m' =>
    rw [hchannel, hnatural, hrigid, hlimit] at h
    obtain rfl := Option.some.inj h
    simpa using reading_limit hlimit
  | none =>
    rw [hchannel, hnatural, hrigid, hlimit] at h
    simpa using reading_scalp h

end Expressions

/-! ## The signal -/

section Signal

variable {messageId : ℤ} {marketPriceLookup : Option MarketPriceLookup}
  {signal : CanonicalSignal}

/-- The prices of a signal are what the captures say, but for an observed entry. -/
structure Reading.Prices (e : Engine) (r : Reading)
    (marketPriceLookup : Option MarketPriceLookup) (signal : CanonicalSignal) : Prop where
  entry : ∀ cap, r.entry = some cap → signal.entryPrice = e.decimal cap.text
  observed : r.entry = none → ∃ lookup token, marketPriceLookup = some lookup ∧
    lookup token = some (.finite signal.entryPrice)
  targets : signal.takeProfits = r.targets.map fun cap => e.decimal cap.text
  stop : signal.stopLoss = e.decimal r.stop.text

theorem observedEntry_some {token : List Char} {entry : ℚ}
    (h : observedEntry marketPriceLookup token = some entry) :
    ∃ lookup token, marketPriceLookup = some lookup ∧ lookup token = some (.finite entry) := by
  unfold observedEntry at h
  split at h
  · cases h
  next lookup =>
    split at h
    next price hprice =>
      split at h
      · cases h
      · obtain rfl := Option.some.inj h
        exact ⟨lookup, token, rfl, hprice⟩
    · cases h

theorem canonicalSignal_fields {f : SignalFields} (h : canonicalSignal f = some signal) :
    signal.toSignalFields = f := by
  unfold canonicalSignal at h
  split at h
  · obtain rfl := Option.some.inj h
    rfl
  · cases h

/-- What a match makes of a signal. -/
structure Engine.Prices (e : Engine) (m : Way Group)
    (marketPriceLookup : Option MarketPriceLookup) (signal : CanonicalSignal) : Prop where
  entry : ∀ cap, m.capture .entry = some cap → signal.entryPrice = e.decimal cap.text
  observed : m.capture .entry = none → ∃ lookup token, marketPriceLookup = some lookup ∧
    lookup token = some (.finite signal.entryPrice)
  targets : signal.takeProfits = (e.targets m).map fun cap => e.decimal cap.text
  stop : signal.stopLoss = e.decimal (Engine.textOf m .sl)

theorem scalpMarketSignal_ok
    (h : e.scalpMarketSignal messageId marketPriceLookup text = .ok (some signal)) :
    ∃ m, e.scalpMarketStopOnly.first text = some m ∧ e.Prices m marketPriceLookup signal := by
  unfold Engine.scalpMarketSignal at h
  split at h
  · cases h
  next m hm =>
    split at h
    · cases h
    next entry hentry =>
      cases hdirection : directionOf scalpDirections (e.upper (Engine.textOf m .direction)) with
      | error err =>
        rw [hdirection] at h
        cases h
      | ok direction =>
        rw [hdirection] at h
        have hfields := canonicalSignal_fields (Except.ok.inj h)
        refine ⟨m, hm, ⟨fun cap hcap => ?_, fun _ => ?_, ?_, by rw [hfields]⟩⟩
        · rw [capture_scalp hm _ (by simp)] at hcap
          cases hcap
        · rw [hfields]
          exact observedEntry_some hentry
        · rw [hfields, targets_scalp hm]
          rfl

theorem entryOf_some {entry : ℚ} (h : e.entryOf marketPriceLookup m = some entry) :
    (∀ cap, m.capture .entry = some cap → entry = e.decimal cap.text) ∧
      (m.capture .entry = none → ∃ lookup token, marketPriceLookup = some lookup ∧
        lookup token = some (.finite entry)) := by
  unfold Engine.entryOf at h
  cases hcap : m.capture .entry with
  | some cap =>
    rw [hcap] at h
    refine ⟨?_, fun hno => by cases hno⟩
    rintro cap' ⟨⟩
    exact (Option.some.inj h).symm
  | none =>
    rw [hcap] at h
    refine ⟨fun cap' hno => (by cases hno), fun _ => ?_⟩
    dsimp only at h
    split at h
    · cases h
    · exact observedEntry_some h

theorem parseExplicitSignal_ok
    (h : e.parseExplicitSignal messageId marketPriceLookup text = .ok (some signal)) :
    ∃ m, (e.sourceMatch text).or (e.scalpMarketStopOnly.first text) = some m ∧
      e.Prices m marketPriceLookup signal := by
  unfold Engine.parseExplicitSignal at h
  split at h
  · cases h
  · split at h
    next hsource =>
      obtain ⟨m, hm, hprices⟩ := scalpMarketSignal_ok h
      exact ⟨m, by rw [hsource, hm]; rfl, hprices⟩
    next m hsource =>
      refine ⟨m, by rw [hsource]; rfl, ?_⟩
      cases hdirection : directionOf sourceDirections (e.upper (Engine.textOf m .direction)) with
      | error err =>
        rw [hdirection] at h
        cases h
      | ok direction =>
        rw [hdirection] at h
        cases hentry : e.entryOf marketPriceLookup m with
        | none =>
          simp only [hentry] at h
          cases h
        | some entry =>
          simp only [hentry] at h
          have hfields := canonicalSignal_fields (Except.ok.inj h)
          obtain ⟨hcap, hobserved⟩ := entryOf_some hentry
          refine ⟨fun cap h => ?_, fun hnone => ?_, by rw [hfields], by rw [hfields]⟩
          · rw [hfields]
            exact hcap cap h
          · rw [hfields]
            exact hobserved hnone

/-- Every price of a signal that was not observed stands in the text behind a label of its own,
and every one is a whole number there exactly where the text does not go on with a number behind
the labels of the expression that matches. -/
theorem explicit_prices_whole_iff
    (h : e.parseExplicitSignal messageId marketPriceLookup text = .ok (some signal)) :
    ∃ r, e.reading text = some r ∧ r.Prices e marketPriceLookup signal ∧ r.Stands e text ∧
      (r.Whole e ↔ e.unbroken text = true) := by
  obtain ⟨m, hm, hprices⟩ := parseExplicitSignal_ok h
  obtain ⟨r, hr, hstands, hwhole⟩ := reading_eq hm
  refine ⟨r, by rw [Engine.reading, hm]; exact hr, ?_, hstands, hwhole⟩
  obtain ⟨stop, hstop, rfl⟩ := Option.map_eq_some_iff.mp hr
  refine ⟨hprices.entry, hprices.observed, hprices.targets, ?_⟩
  rw [hprices.stop, Engine.textOf, hstop]
  rfl

/-! ### Plain messages -/

def plainDecimal (number : List Char) : ℚ :=
  let fraction := (number.dropWhile (· ≠ '.')).drop 1
  Nat.ofDigitChars 10 (number.takeWhile (· ≠ '.') ++ fraction) 0 / 10 ^ fraction.length

theorem digit_of_isAlpha {y : Char} (h : y.isAlpha = true) : y.isDigit = false := by
  change (decide (y.val ≥ 'A'.val ∧ y.val ≤ 'Z'.val) ||
    (decide (y.val ≥ 'a'.val) && decide (y.val ≤ 'z'.val))) = true at h
  simp only [Bool.or_eq_true, decide_eq_true_eq, Bool.and_eq_true] at h
  simp only [Char.isDigit, Bool.and_eq_false_iff, decide_eq_false_iff_not]
  rcases h with h | h <;> grind

/-- The characters of a message in plain English. -/
def plain (sourceRevision : String) : Engine where
  isSpace := Char.isWhitespace
  isDigit := Char.isDigit
  isWord x := x.isAlphanum || x == '_'
  isToken := Char.isAlphanum
  same x y := x == y || (x.isAlpha && y.isAlpha && x.toLower == y.toLower)
  upper := List.map Char.toUpper
  decimal := plainDecimal
  sourceRevision _ := sourceRevision
  space_newline := by decide
  digit_of_space := by
    intro x hx
    simp only [Char.isWhitespace, Bool.or_eq_true, decide_eq_true_eq] at hx
    rcases hx with ((rfl | rfl) | rfl) | rfl <;> rfl
  digit_of_mark := by
    intro x hx
    simp only [List.mem_cons, List.not_mem_nil, or_false] at hx
    rcases hx with rfl | rfl | rfl | rfl | rfl | rfl | rfl | rfl <;> rfl
  space_of_mark := by
    intro x hx
    simp only [List.mem_cons, List.not_mem_nil, or_false] at hx
    rcases hx with rfl | rfl | rfl | rfl | rfl | rfl <;> rfl
  other_of_letter := by
    intro x y hx hy
    have halpha : y.isAlpha = true := by
      simp only [Bool.or_eq_true, beq_iff_eq, Bool.and_eq_true] at hy
      rcases hy with rfl | ⟨⟨-, hy⟩, -⟩
      · exact hx
      · exact hy
    refine ⟨digit_of_isAlpha halpha, ?_, ?_⟩
    · by_contra hspace
      simp only [Char.isWhitespace, Bool.not_eq_false, Bool.or_eq_true,
        decide_eq_true_eq] at hspace
      rcases hspace with ((rfl | rfl) | rfl) | rfl <;> cases halpha
    · intro hmark
      simp only [List.mem_cons, List.not_mem_nil, or_false] at hmark
      rcases hmark with rfl | rfl | rfl | rfl <;> cases halpha

def entryAccepted : Except ParseError (Option CanonicalSignal) → Option ℚ
  | .ok (some signal) => some signal.entryPrice
  | _ => none

theorem exists_signal {outcome : Except ParseError (Option CanonicalSignal)} {entry : ℚ}
    (h : entryAccepted outcome = some entry) :
    ∃ signal, outcome = .ok (some signal) ∧ signal.entryPrice = entry := by
  unfold entryAccepted at h
  split at h
  next signal => exact ⟨signal, rfl, Option.some.inj h⟩
  · cases h

def plainShort : Engine :=
  plain "274f95f8ac69c190b19ac79be7cd17e3a508e947da2e9b080b6e033eb5d57103"

theorem explicit_prices_whole_short : ∃ signal r,
    plainShort.parseExplicitSignal 1 none "BTC SHORT 65500 SL 66000".toList =
      .ok (some signal) ∧ signal.entryPrice = 65500 ∧
      plainShort.reading "BTC SHORT 65500 SL 66000".toList = some r ∧ r.Whole plainShort := by
  have haccepted : entryAccepted (plainShort.parseExplicitSignal 1 none
      "BTC SHORT 65500 SL 66000".toList) = some 65500 := by
    decide +kernel
  obtain ⟨signal, hsignal, hentry⟩ := exists_signal haccepted
  obtain ⟨r, hr, -, -, hwhole⟩ := explicit_prices_whole_iff hsignal
  exact ⟨signal, r, hsignal, hentry, hr, hwhole.mpr (by decide +kernel)⟩

def groupedShort : Engine :=
  plain "8f5c7d803dde7c671519349c666c25c2e7d434a4bf5fe797883a3fe5da585062"

/-- The entry of a short is read up to the comma, and its stop stands far above it : the
geometry allows the signal. -/
theorem grouped_entry_read : ∃ signal r,
    groupedShort.parseExplicitSignal 1 none "BTC SHORT 65,500 SL 66000".toList =
      .ok (some signal) ∧ signal.entryPrice = 65 ∧
      groupedShort.reading "BTC SHORT 65,500 SL 66000".toList = some r ∧
        ¬ r.Whole groupedShort := by
  have haccepted : entryAccepted (groupedShort.parseExplicitSignal 1 none
      "BTC SHORT 65,500 SL 66000".toList) = some 65 := by
    decide +kernel
  obtain ⟨signal, hsignal, hentry⟩ := exists_signal haccepted
  obtain ⟨m, hm, -⟩ := parseExplicitSignal_ok hsignal
  obtain ⟨r, hr, -, hwhole⟩ := reading_eq hm
  have hbroken : groupedShort.unbroken "BTC SHORT 65,500 SL 66000".toList = false := by
    decide +kernel
  refine ⟨signal, r, hsignal, hentry, by rw [Engine.reading, hm]; exact hr, fun h => ?_⟩
  rw [hwhole.mp h] at hbroken
  cases hbroken

end Signal

end FattyTrader.ExplicitSignals
