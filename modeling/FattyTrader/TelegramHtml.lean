import Mathlib.Algebra.BigOperators.Group.List.Basic
import Mathlib.Algebra.Order.BigOperators.Group.List
import Mathlib.Data.List.TakeWhile
import Mathlib.Algebra.Ring.Nat

/-!
# Bounded HTML

`boundedHtml` cuts a card for Telegram at a number of UTF-16 units. It reads the card token by token
(`tokens`), a tag, an entity or a single character at a time, and keeps room for the closing tags of
the tags that are open (`Scan.reserved`).

A `Markup` is a card of nested tags, entities and other characters, where a `<` is always one of a
tag. `scan_spec` is the invariant of the scan over one : what was kept is a prefix of its pieces, and
what was kept and reserved is within the limit. As the pieces to come close every open tag
(`closingUnits_le`), a card that fits is kept as a whole, and so is what the cut leaves
(`bounded_html`).
-/

set_option linter.unusedSectionVars false

namespace FattyTrader.TelegramHtml

/-! ## Tokens -/

inductive Tag
  | b
  | i
  | code
  | pre
deriving DecidableEq

namespace Tag

def name : Tag → List Char
  | b => ['b']
  | i => ['i']
  | code => ['c', 'o', 'd', 'e']
  | pre => ['p', 'r', 'e']

def all : List Tag := [b, i, code, pre]

def opening (t : Tag) : List Char := '<' :: (t.name ++ ['>'])

def closing (t : Tag) : List Char := '<' :: '/' :: (t.name ++ ['>'])

end Tag

def asciiLetter (c : Char) : Bool := ('a' ≤ c && c ≤ 'z') || ('A' ≤ c && c ≤ 'Z')

def asciiDigit (c : Char) : Bool := '0' ≤ c && c ≤ '9'

def hexDigit (c : Char) : Bool :=
  asciiDigit c || ('a' ≤ c && c ≤ 'f') || ('A' ≤ c && c ≤ 'F')

/-- `[A-Za-z]+|#[0-9]+|#x[0-9A-Fa-f]+`. -/
def entityBody : List Char → Bool
  | [] => false
  | ['#'] => false
  | ['#', 'x'] => false
  | '#' :: 'x' :: digits => digits.all hexDigit
  | '#' :: digits => digits.all asciiDigit
  | letters => letters.all asciiLetter

/-- The first token of a text that starts with `c`, and what comes after it. -/
def nextToken (c : Char) (rest : List Char) : List Char × List Char :=
  if c = '<' then
    match rest.span (· ≠ '>') with
    | (body, _ :: after) => (c :: (body ++ ['>']), after)
    | _ => ([c], rest)
  else if c = '&' then
    match rest.span (· ≠ ';') with
    | (body, _ :: after) => if entityBody body then (c :: (body ++ [';']), after) else ([c], rest)
    | _ => ([c], rest)
  else ([c], rest)

/-- The tokens of a text with at most `n` characters. -/
def tokensFrom : ℕ → List Char → List (List Char)
  | 0, _ => []
  | _, [] => []
  | n + 1, c :: rest => (nextToken c rest).1 :: tokensFrom n (nextToken c rest).2

/-- `_HTML_TOKEN.finditer`. -/
def tokens (text : List Char) : List (List Char) := tokensFrom text.length text

/-! ## The scan -/

def charUnits (c : Char) : ℕ := if 0xFFFF < c.toNat then 2 else 1

/-- The UTF-16 units of a text. -/
def units (text : List Char) : ℕ := (text.map charUnits).sum

/-- What the loop has kept, the tags open in it, its units, and the room for the closing tags. -/
structure Scan where
  text : List Char := []
  openTags : List Tag := []
  units : ℕ := 0
  reserved : ℕ := 0

def openingTag (token : List Char) : Option Tag := Tag.all.find? fun t => token = t.opening

def closingTag (token : List Char) : Option Tag := Tag.all.find? fun t => token = t.closing

namespace Scan

/-- The token closes the tag that was opened last. -/
def closes (s : Scan) (token : List Char) : Bool :=
  match closingTag token, s.openTags with
  | some t, last :: _ => t = last
  | _, _ => false

/-- The loop's body, `none` where it breaks. -/
def advance (limit : ℕ) (s : Scan) (token : List Char) : Option Scan :=
  let opening := openingTag token
  let nextReserved := match opening with
    | some t => s.reserved + t.closing.length
    | none => if s.closes token then s.reserved - token.length else s.reserved
  if limit < s.units + TelegramHtml.units token + nextReserved then none
  else some
    { text := s.text ++ token
      units := s.units + TelegramHtml.units token
      reserved := nextReserved
      openTags := match opening with
        | some t => t :: s.openTags
        | none => if s.closes token then s.openTags.tail else s.openTags }

def run (limit : ℕ) : Scan → List (List Char) → Scan
  | s, [] => s
  | s, token :: tokens =>
    match s.advance limit token with
    | none => s
    | some s' => s'.run limit tokens

end Scan

/-- `bounded_html`. -/
def boundedHtml (text : List Char) (limit : ℕ) : List Char :=
  let s := Scan.run limit {} (tokens text)
  s.text ++ s.openTags.flatMap Tag.closing

/-! ## Cards -/

/-- A character entity, without its `&` and its `;`. -/
structure Entity where
  body : List Char
  valid : entityBody body = true

/-- A part of a card. -/
inductive Piece
  | opening (t : Tag)
  | closing (t : Tag)
  | entity (e : Entity)
  | char (c : Char) (plain : c ≠ '<')

namespace Piece

def text : Piece → List Char
  | opening t => t.opening
  | closing t => t.closing
  | entity e => '&' :: (e.body ++ [';'])
  | char c _ => [c]

def isTag : Piece → Bool
  | opening _ | closing _ => true
  | _ => false

end Piece

def render (ps : List Piece) : List Char := ps.flatMap Piece.text

/-- The tags open after the pieces, the last one first, where each closing tag closes the last. -/
def openAfter : List Tag → List Piece → Option (List Tag)
  | stack, [] => some stack
  | stack, .opening t :: ps => openAfter (t :: stack) ps
  | last :: stack, .closing t :: ps => if t = last then openAfter stack ps else none
  | [], .closing _ :: _ => none
  | stack, .entity _ :: ps => openAfter stack ps
  | stack, .char _ _ :: ps => openAfter stack ps

/-- A text of nested tags, entities and other characters. -/
structure Markup where
  pieces : List Piece
  nested : openAfter [] pieces = some []

def Markup.text (m : Markup) : List Char := render m.pieces

@[simp] theorem render_nil : render [] = [] := rfl

@[simp] theorem render_cons {p : Piece} {ps : List Piece} : render (p :: ps) = p.text ++ render ps :=
  rfl

@[simp] theorem render_append {ps qs : List Piece} : render (ps ++ qs) = render ps ++ render qs :=
  List.flatMap_append

@[simp] theorem units_append (a b : List Char) : units (a ++ b) = units a + units b := by
  simp [units]

theorem openAfter_append {stack : List Tag} {ps qs : List Piece} :
    openAfter stack (ps ++ qs) = (openAfter stack ps).bind fun open' => openAfter open' qs := by
  induction ps generalizing stack with
  | nil => rfl
  | cons p ps ih =>
    cases p with
    | opening t => exact ih
    | closing t =>
      cases stack with
      | nil => rfl
      | cons last stack =>
        simp only [List.cons_append, openAfter]
        split
        · exact ih
        · rfl
    | entity e => simpa only [List.cons_append, openAfter] using ih
    | char c h => simpa only [List.cons_append, openAfter] using ih

theorem openAfter_plain {stack : List Tag} : ∀ {ps : List Piece}, (∀ p ∈ ps, p.isTag = false) →
    openAfter stack ps = some stack
  | [], _ => by simp [openAfter]
  | .opening _ :: _, h => by simp [Piece.isTag] at h
  | .closing _ :: _, h => by simp [Piece.isTag] at h
  | .entity _ :: ps, h => by
    simpa only [openAfter] using openAfter_plain fun p hp => h p (List.mem_cons_of_mem _ hp)
  | .char _ _ :: ps, h => by
    simpa only [openAfter] using openAfter_plain fun p hp => h p (List.mem_cons_of_mem _ hp)

/-- The closing tags of the open tags, in their order, close them all. -/
theorem openAfter_closing (stack : List Tag) : openAfter stack (stack.map Piece.closing) = some [] := by
  induction stack with
  | nil => rfl
  | cons t stack ih => simpa [openAfter] using ih

theorem render_closing (stack : List Tag) :
    render (stack.map Piece.closing) = stack.flatMap Tag.closing := by
  simp [render, List.flatMap_map, Piece.text]

/-- The units of the closing tags. -/
def closingUnits (stack : List Tag) : ℕ := (stack.map fun t => t.closing.length).sum

theorem units_closing (t : Tag) : units t.closing = t.closing.length := by
  cases t <;> decide

theorem units_flatMap_closing (stack : List Tag) :
    units (stack.flatMap Tag.closing) = closingUnits stack := by
  induction stack with
  | nil => rfl
  | cons t stack ih => simp [closingUnits, units_closing, ih]

/-- What closes all open tags has room for their closing tags. -/
theorem closingUnits_le {stack : List Tag} {ps : List Piece} (h : openAfter stack ps = some []) :
    closingUnits stack ≤ units (render ps) := by
  induction ps generalizing stack with
  | nil =>
    obtain rfl : stack = [] := by simpa [openAfter] using h
    exact le_rfl
  | cons p ps ih =>
    rw [render_cons, units_append]
    cases p with
    | opening t =>
      have hle : closingUnits (t :: stack) ≤ units (render ps) := ih h
      simp only [closingUnits, List.map_cons, List.sum_cons] at hle ⊢
      omega
    | closing t =>
      cases stack with
      | nil => cases h
      | cons last stack =>
        simp only [openAfter] at h
        split at h
        next heq =>
          have hle := ih h
          have hunits : units (Piece.closing t).text = last.closing.length := heq ▸ units_closing t
          rw [hunits]
          simpa [closingUnits] using hle
        next => cases h
    | entity e => exact (ih (by simpa only [openAfter] using h)).trans (Nat.le_add_left _ _)
    | char c hc => exact (ih (by simpa only [openAfter] using h)).trans (Nat.le_add_left _ _)

/-! ## The first token of a card -/

theorem span_stop {p : Char → Bool} {d : Char} {rest : List Char} (hd : p d = false) :
    ∀ {body : List Char}, (∀ c ∈ body, p c) → (body ++ d :: rest).span p = (body, d :: rest)
  | [], _ => by simp [List.span_eq_takeWhile_dropWhile, hd]
  | c :: body, h => by
    have htail := @span_stop p d rest hd body fun c hc => h c (List.mem_cons_of_mem _ hc)
    rw [List.span_eq_takeWhile_dropWhile] at htail ⊢
    simpa [h c List.mem_cons_self] using htail

/-- What `span` stops at. -/
theorem of_span {p : Char → Bool} {text body after : List Char} {d : Char}
    (h : text.span p = (body, d :: after)) :
    text = body ++ d :: after ∧ (∀ c ∈ body, p c) ∧ p d = false := by
  rw [List.span_eq_takeWhile_dropWhile] at h
  obtain ⟨hbody, hafter⟩ := Prod.mk.inj h
  refine ⟨?_, fun c hc => List.mem_takeWhile_imp (hbody ▸ hc), ?_⟩
  · rw [← hbody, ← hafter, List.takeWhile_append_dropWhile]
  · have hhead := List.head?_dropWhile_not p text
    rw [hafter] at hhead
    simpa using hhead

/-- The characters of an entity are no part of another token. -/
theorem entityBody_chars {body : List Char} (h : entityBody body = true) :
    ∀ c ∈ body, c ≠ '<' ∧ c ≠ '&' ∧ c ≠ ';' := by
  have hletter : ∀ c, asciiLetter c = true → c ≠ '<' ∧ c ≠ '&' ∧ c ≠ ';' := by
    intro c hc
    refine ⟨?_, ?_, ?_⟩ <;> rintro rfl <;> revert hc <;> decide
  have hhex : ∀ c, hexDigit c = true → c ≠ '<' ∧ c ≠ '&' ∧ c ≠ ';' := by
    intro c hc
    refine ⟨?_, ?_, ?_⟩ <;> rintro rfl <;> revert hc <;> decide
  have hdigit : ∀ c, asciiDigit c = true → c ≠ '<' ∧ c ≠ '&' ∧ c ≠ ';' := fun c hc =>
    hhex c (by simp [hexDigit, hc])
  unfold entityBody at h
  split at h
  · cases h
  · cases h
  · cases h
  · intro c hc
    rcases List.mem_cons.mp hc with rfl | hc
    · decide
    rcases List.mem_cons.mp hc with rfl | hc
    · decide
    exact hhex c (List.all_eq_true.mp h c hc)
  · intro c hc
    rcases List.mem_cons.mp hc with rfl | hc
    · decide
    exact hdigit c (List.all_eq_true.mp h c hc)
  · exact fun c hc => hletter c (List.all_eq_true.mp h c hc)

theorem name_ne (t : Tag) : ∀ c ∈ t.name, c ≠ '>' := by
  cases t <;> simp [Tag.name]

/-- A run of characters without a tag or an `&` is one of single characters. -/
theorem exists_chars : ∀ {run rest : List Char} {ps : List Piece},
    (∀ c ∈ run, c ≠ '<' ∧ c ≠ '&') → render ps = run ++ rest →
      ∃ head tail, ps = head ++ tail ∧ (∀ p ∈ head, p.isTag = false) ∧ render head = run ∧
        render tail = rest
  | [], rest, ps, _, h => ⟨[], ps, rfl, by simp, rfl, h⟩
  | c :: run, rest, [], _, h => by cases h
  | c :: run, rest, p :: ps, hrun, h => by
    have hc := hrun c List.mem_cons_self
    cases p with
    | opening t => exact absurd (List.cons.inj h).1.symm hc.1
    | closing t => exact absurd (List.cons.inj h).1.symm hc.1
    | entity e => exact absurd (List.cons.inj h).1.symm hc.2
    | char d hd =>
      obtain ⟨rfl, htail⟩ := List.cons.inj h
      obtain ⟨head, tail, rfl, hplain, hrender, hrest⟩ :=
        exists_chars (fun c hc => hrun c (List.mem_cons_of_mem _ hc)) htail
      refine ⟨.char d hd :: head, tail, rfl, ?_, by simp [Piece.text, hrender], hrest⟩
      intro p hp
      rcases List.mem_cons.mp hp with rfl | hp
      · rfl
      · exact hplain p hp

/-- What the first token of a card is made of : a tag, or pieces that are none. -/
structure TokenOf (ps head tail : List Piece) : Prop where
  split : ps = head ++ tail
  nonempty : head ≠ []
  kind : (∃ t, head = [.opening t]) ∨ (∃ t, head = [.closing t]) ∨ ∀ p ∈ head, p.isTag = false

theorem nextToken_tag {rest body after : List Char} {d : Char}
    (h : rest.span (· ≠ '>') = (body, d :: after)) :
    nextToken '<' rest = ('<' :: (body ++ ['>']), after) := by
  simp only [nextToken, if_pos, h]

theorem nextToken_entity {rest body after : List Char} {d : Char}
    (h : rest.span (· ≠ ';') = (body, d :: after)) (hbody : entityBody body = true) :
    nextToken '&' rest = ('&' :: (body ++ [';']), after) := by
  simp only [nextToken, h, hbody]
  rfl

theorem nextToken_amp {rest : List Char}
    (h : ∀ body d after, rest.span (· ≠ ';') = (body, d :: after) → entityBody body = false) :
    nextToken '&' rest = (['&'], rest) := by
  cases hspan : rest.span (· ≠ ';') with
  | mk body after =>
    cases after with
    | nil =>
      simp only [nextToken, hspan]
      rfl
    | cons d after =>
      simp only [nextToken, hspan, h body d after hspan]
      rfl

theorem nextToken_char {c : Char} {rest : List Char} (htag : c ≠ '<') (hamp : c ≠ '&') :
    nextToken c rest = ([c], rest) := by
  simp only [nextToken, if_neg htag, if_neg hamp]

theorem nextToken_render (p : Piece) (ps : List Piece) : ∃ c rest head tail,
    render (p :: ps) = c :: rest ∧ TokenOf (p :: ps) head tail ∧
      nextToken c rest = (render head, render tail) := by
  cases p with
  | opening t =>
    have hspan : (t.name ++ '>' :: render ps).span (· ≠ '>') = (t.name, '>' :: render ps) :=
      span_stop (by decide) fun c hc => by simpa using name_ne t c hc
    refine ⟨'<', t.name ++ '>' :: render ps, [.opening t], ps, ?_, ⟨rfl, by simp, Or.inl ⟨t, rfl⟩⟩,
      ?_⟩
    · simp [Piece.text, Tag.opening]
    · rw [nextToken_tag hspan]
      simp [Piece.text, Tag.opening]
  | closing t =>
    have hspan : ('/' :: t.name ++ '>' :: render ps).span (· ≠ '>') =
        ('/' :: t.name, '>' :: render ps) := by
      refine span_stop (by decide) fun c hc => ?_
      rcases List.mem_cons.mp hc with rfl | hc
      · decide
      · simpa using name_ne t c hc
    refine ⟨'<', '/' :: t.name ++ '>' :: render ps, [.closing t], ps, ?_,
      ⟨rfl, by simp, Or.inr (Or.inl ⟨t, rfl⟩)⟩, ?_⟩
    · simp [Piece.text, Tag.closing]
    · rw [nextToken_tag hspan]
      simp [Piece.text, Tag.closing]
  | entity e =>
    have hspan : (e.body ++ ';' :: render ps).span (· ≠ ';') = (e.body, ';' :: render ps) :=
      span_stop (by decide) fun c hc => by simpa using (entityBody_chars e.valid c hc).2.2
    refine ⟨'&', e.body ++ ';' :: render ps, [.entity e], ps, ?_,
      ⟨rfl, by simp, Or.inr (Or.inr (by simp [Piece.isTag]))⟩, ?_⟩
    · simp [Piece.text]
    · rw [nextToken_entity hspan e.valid]
      simp [Piece.text]
  | char c hc =>
    have hsingle : TokenOf (.char c hc :: ps) [.char c hc] ps :=
      ⟨rfl, by simp, Or.inr (Or.inr (by simp [Piece.isTag]))⟩
    by_cases hamp : c = '&'
    · subst hamp
      by_cases hentity : ∃ body d after,
          (render ps).span (· ≠ ';') = (body, d :: after) ∧ entityBody body = true
      · -- the characters up to the semicolon spell an entity
        obtain ⟨body, d, after, hspan, hbody⟩ := hentity
        obtain ⟨htext, -, hd⟩ := of_span hspan
        obtain rfl : d = ';' := by simpa using hd
        have hchars : ∀ c ∈ body ++ [';'], c ≠ '<' ∧ c ≠ '&' := by
          intro c hc
          rcases List.mem_append.mp hc with hc | hc
          · exact ⟨(entityBody_chars hbody c hc).1, (entityBody_chars hbody c hc).2.1⟩
          · obtain rfl := List.mem_singleton.mp hc
            decide
        obtain ⟨head, tail, hps, hplain, hrender, hrest⟩ :=
          @exists_chars _ after ps hchars (by simpa using htext)
        refine ⟨'&', render ps, .char '&' hc :: head, tail, rfl,
          ⟨by rw [hps, List.cons_append], by simp, Or.inr (Or.inr ?_)⟩, ?_⟩
        · intro p hp
          rcases List.mem_cons.mp hp with rfl | hp
          · rfl
          · exact hplain p hp
        · rw [nextToken_entity hspan hbody, hrest, render_cons, hrender]
          rfl
      · refine ⟨'&', render ps, [.char '&' hc], ps, rfl, hsingle, nextToken_amp ?_⟩
        intro body d after hspan
        by_contra hbody
        exact hentity ⟨body, d, after, hspan, by simpa using hbody⟩
    · exact ⟨c, render ps, [.char c hc], ps, rfl, hsingle, nextToken_char hc hamp⟩

/-! ## The scan of a card -/

theorem openingTag_opening (t : Tag) : openingTag t.opening = some t := by cases t <;> decide

theorem openingTag_closing (t : Tag) : openingTag t.closing = none := by cases t <;> decide

theorem closingTag_closing (t : Tag) : closingTag t.closing = some t := by cases t <;> decide

theorem tag_of_ne {c : Char} {token : List Char} (h : c ≠ '<') :
    openingTag (c :: token) = none ∧ closingTag (c :: token) = none := by
  constructor <;> refine List.find?_eq_none.mpr fun t _ ht => h ?_ <;>
    exact (List.cons.inj (of_decide_eq_true ht)).1

theorem length_render_pos {head : List Piece} (hne : head ≠ []) : 0 < (render head).length := by
  cases head with
  | nil => exact absurd rfl hne
  | cons p head => cases p <;> simp [Piece.text, Tag.opening, Tag.closing]

/-- Pieces that are no tags do not start like one. -/
theorem exists_render_of_plain {head : List Piece} (hne : head ≠ [])
    (h : ∀ p ∈ head, p.isTag = false) : ∃ c token, render head = c :: token ∧ c ≠ '<' := by
  cases head with
  | nil => exact absurd rfl hne
  | cons p head =>
    cases p with
    | opening t => cases h _ List.mem_cons_self
    | closing t => cases h _ List.mem_cons_self
    | entity e => exact ⟨'&', _, rfl, by decide⟩
    | char c hc => exact ⟨c, _, rfl, hc⟩

/-- A token is kept where it leaves room for the closing tags of the tags open after it. -/
theorem advance_head {limit : ℕ} {s : Scan} {ps head tail : List Piece} {open' : List Tag}
    (hres : s.reserved = closingUnits s.openTags) (htoken : TokenOf ps head tail)
    (hopen : openAfter s.openTags head = some open') :
    s.advance limit (render head) =
      if limit < s.units + units (render head) + closingUnits open' then none
      else some ⟨s.text ++ render head, open', s.units + units (render head), closingUnits open'⟩ := by
  rcases htoken.kind with ⟨t, rfl⟩ | ⟨t, rfl⟩ | hplain
  · obtain rfl : t :: s.openTags = open' := by simpa [openAfter] using hopen
    have hrender : render [.opening t] = t.opening := by simp [Piece.text]
    have hunits : s.reserved + t.closing.length = closingUnits (t :: s.openTags) := by
      rw [hres]
      simp [closingUnits, Nat.add_comm]
    simp only [Scan.advance, hrender, openingTag_opening, hunits]
  · cases hstack : s.openTags with
    | nil => simp [hstack, openAfter] at hopen
    | cons last stack =>
      rw [hstack] at hopen hres
      simp only [openAfter] at hopen
      split at hopen
      next heq =>
        subst heq
        obtain rfl : stack = open' := by simpa [openAfter] using hopen
        have hrender : render [.closing t] = t.closing := by simp [Piece.text]
        have hcloses : s.closes t.closing = true := by simp [Scan.closes, hstack, closingTag_closing]
        have hunits : s.reserved - t.closing.length = closingUnits stack := by
          rw [hres]
          simp [closingUnits]
        simp only [Scan.advance, hrender, openingTag_closing, hcloses, if_true, hunits, hstack,
          List.tail_cons]
      next => cases hopen
  · obtain ⟨c, token, hrender, hc⟩ := exists_render_of_plain htoken.nonempty hplain
    obtain ⟨hopening, hclosing⟩ := @tag_of_ne c token hc
    obtain rfl : s.openTags = open' := by simpa [openAfter_plain hplain] using hopen
    have hcloses : s.closes (c :: token) = false := by simp [Scan.closes, hclosing]
    simp only [Scan.advance, hrender, hopening, hcloses, hres]
    simp

/-- What the scan has done : it kept a prefix of the pieces, within the limit, and all of them where
they fit. -/
structure Scanned (limit : ℕ) (s : Scan) (ps : List Piece) (s' : Scan) : Prop where
  kept : ∃ kept tail, ps = kept ++ tail ∧ s'.text = s.text ++ render kept ∧
    openAfter s.openTags kept = some s'.openTags ∧ s'.units = s.units + units (render kept) ∧
    (s.units + units (render ps) ≤ limit → tail = [])
  room : s'.units + closingUnits s'.openTags ≤ limit

theorem scan_spec {limit : ℕ} : ∀ {n : ℕ} {ps : List Piece} {s : Scan},
    (render ps).length ≤ n → s.reserved = closingUnits s.openTags →
    s.units + closingUnits s.openTags ≤ limit → openAfter s.openTags ps = some [] →
      Scanned limit s ps (s.run limit (tokensFrom n (render ps)))
  | n, [], s, _, _, hroom, _ => by
    have hrun : s.run limit (tokensFrom n (render [])) = s := by
      cases n <;> rfl
    rw [hrun]
    exact ⟨⟨[], [], rfl, by simp, rfl, by simp [units], fun _ => rfl⟩, hroom⟩
  | n, p :: ps, s, hlength, hres, hroom, hnested => by
    obtain ⟨c, rest, head, tail, hrender, htoken, hnext⟩ := nextToken_render p ps
    cases n with
    | zero => simp [hrender] at hlength
    | succ n =>
      rw [hrender]
      simp only [tokensFrom, hnext, Scan.run]
      have hsplit : render (p :: ps) = render head ++ render tail := by
        rw [htoken.split, render_append]
      rw [htoken.split, openAfter_append] at hnested
      obtain ⟨open', hopen, htail⟩ := Option.bind_eq_some_iff.mp hnested
      rw [advance_head hres htoken hopen]
      by_cases hfull : limit < s.units + units (render head) + closingUnits open'
      · rw [if_pos hfull]
        refine ⟨⟨[], p :: ps, rfl, by simp, rfl, by simp [units], fun hfits => ?_⟩, hroom⟩
        have hle := closingUnits_le htail
        rw [hsplit, units_append] at hfits
        omega
      · rw [if_neg hfull]
        have hshort : (render tail).length ≤ n := by
          have hpos := length_render_pos htoken.nonempty
          rw [hsplit, List.length_append] at hlength
          omega
        obtain ⟨⟨kept, left, rfl, htext, hafter, hunits, hfits⟩, hroom'⟩ :=
          @scan_spec limit n tail
            ⟨s.text ++ render head, open', s.units + units (render head), closingUnits open'⟩
            hshort rfl (not_lt.mp hfull) htail
        refine ⟨⟨head ++ kept, left, by rw [htoken.split, List.append_assoc], ?_, ?_, ?_, ?_⟩, hroom'⟩
        · rw [htext, render_append, List.append_assoc]
        · rw [openAfter_append, hopen]
          exact hafter
        · rw [hunits, render_append, units_append, Nat.add_assoc]
        · intro hle
          rw [hsplit, units_append] at hle
          refine hfits ?_
          change s.units + units (render head) + units (render (kept ++ left)) ≤ limit
          omega

/-! ## The cut -/

/-- What a cut of a card is. -/
structure Bounded (m : Markup) (limit : ℕ) (out : List Char) : Prop where
  units_le : units out ≤ limit
  cut : ∃ kept tail openTags, m.pieces = kept ++ tail ∧ openAfter [] kept = some openTags ∧
    out = render kept ++ openTags.flatMap Tag.closing
  whole : units m.text ≤ limit → out = m.text
  again : boundedHtml out limit = out

theorem boundedHtml_of_le {ps : List Piece} {limit : ℕ} (hnested : openAfter [] ps = some [])
    (hfits : units (render ps) ≤ limit) : boundedHtml (render ps) limit = render ps := by
  obtain ⟨⟨kept, tail, rfl, htext, hopen, -, hall⟩, -⟩ :=
    @scan_spec limit _ _ {} le_rfl rfl (Nat.zero_le _) hnested
  obtain rfl : tail = [] := hall (by simpa using hfits)
  simp only [List.append_nil] at hnested htext hopen ⊢
  have hclosed : (Scan.run limit {} (tokens (render kept))).openTags = [] :=
    (Option.some.inj (hnested.symm.trans hopen)).symm
  simp only [boundedHtml, hclosed, List.flatMap_nil, List.append_nil]
  exact htext

/-- A card is cut between its pieces, the tags open at the cut are closed, and the result is within
the limit. A card that fits is left alone, and so is what a cut leaves. -/
theorem bounded_html (m : Markup) (limit : ℕ) : Bounded m limit (boundedHtml m.text limit) := by
  obtain ⟨⟨kept, tail, hps, htext, hopen, hunits, -⟩, hroom⟩ :=
    @scan_spec limit _ _ {} le_rfl rfl (Nat.zero_le _) m.nested
  have hout : boundedHtml m.text limit =
      render kept ++ (Scan.run limit {} (tokens m.text)).openTags.flatMap Tag.closing := by
    unfold boundedHtml
    exact congrArg (· ++ _) htext
  have hle : units (boundedHtml m.text limit) ≤ limit := by
    rw [hout, units_append, units_flatMap_closing]
    have hzero : (({} : Scan).units) = 0 := rfl
    rw [hunits, hzero, Nat.zero_add] at hroom
    exact hroom
  refine ⟨hle, ⟨kept, tail, _, hps, hopen, hout⟩, boundedHtml_of_le m.nested, ?_⟩
  -- the result is a card of its own
  have hcard : boundedHtml m.text limit = render
      (kept ++ (Scan.run limit {} (tokens m.text)).openTags.map Piece.closing) := by
    rw [hout, render_append, render_closing]
  have hnested : openAfter []
      (kept ++ (Scan.run limit {} (tokens m.text)).openTags.map Piece.closing) = some [] := by
    rw [openAfter_append]
    exact (congrArg (Option.bind · _) hopen).trans (openAfter_closing _)
  rw [hcard] at hle ⊢
  exact boundedHtml_of_le hnested hle

example : boundedHtml "<b>x&amp;<i>yz</i></b>".toList 20 = "<b>x&amp;<i></i></b>".toList := by
  decide +kernel

end FattyTrader.TelegramHtml
