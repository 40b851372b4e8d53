import Mathlib.Data.List.Basic
import Mathlib.Tactic.Common

/-!
# The statements of a migration

`_iter_statements` walks over the SQL text once and cuts it at the semicolons outside every
literal, comment and dollar quote. `Piece` is the lexical grammar a statement is written in,
and `Lexer.run` reads a piece as what it is (`exists_run_piece`) unless the text tricks one of
the four guesses the walk makes : that a quote right after an `e` opens an escape string, that
a `$tag$` shape opens a dollar quote wherever it stands, that a tag is ASCII, and that a line
ends with a line feed (`Piece.plainly`).
-/

set_option autoImplicit false

namespace FattyTrader.MigrationStatements

/-! ## The walk -/

/-- `str.strip`, over the characters that count as space. -/
def strip (space : Char → Bool) (text : List Char) : List Char :=
  ((text.dropWhile space).reverse.dropWhile space).reverse

/-- `[A-Za-z_0-9]`. -/
def isTagChar (c : Char) : Bool :=
  ('A' ≤ c && c ≤ 'Z') || ('a' ≤ c && c ≤ 'z') || c = '_' || ('0' ≤ c && c ≤ '9')

/-- The name of a tag : empty, or not led by a digit. -/
def isTagName (name : List Char) : Bool :=
  name.all isTagChar && name.head?.all fun c => !('0' ≤ c && c ≤ '9')

/-- The match of `\$(?:[A-Za-z_][A-Za-z_0-9]*)?\$` at the start of the text. -/
def matchTag : List Char → Option (List Char)
  | '$' :: rest =>
    let name := rest.takeWhile isTagChar
    if (rest.dropWhile isTagChar).head? = some '$' && isTagName name then
      some ('$' :: name ++ ['$'])
    else none
  | _ => none

/-- The variables of the loop : `current` is the text from `start` to `index`, and `skip` what
an increment of `index` beyond the next character still passes over. -/
structure Lexer where
  statements : List (List Char)
  current : List Char
  skip : ℕ
  quote : Option Char
  dollar : Option (List Char)
  escapeString : Bool
  commentDepth : ℕ
  lineComment : Bool

namespace Lexer

def init : Lexer := ⟨[], [], 0, none, none, false, 0, false⟩

/-- A statement without its outer space, unless nothing is left. -/
def cut (space : Char → Bool) (s : Lexer) : List (List Char) :=
  if strip space s.current = [] then s.statements
  else s.statements ++ [strip space s.current]

/-- The character before the next is an `e` or `E`. -/
def afterE (current : List Char) : Bool :=
  current.getLast? = some 'e' || current.getLast? = some 'E'

/-- One pass of the loop over the character `c`, with `rest` after it. -/
def read (space : Char → Bool) (s : Lexer) (c : Char) (rest : List Char) : Lexer :=
  let s' := { s with current := s.current ++ [c] }
  if s.lineComment then
    if c = '\n' then { s' with lineComment := false } else s'
  else if s.commentDepth ≠ 0 then
    if c = '/' ∧ rest.head? = some '*' then
      { s' with commentDepth := s.commentDepth + 1, skip := 1 }
    else if c = '*' ∧ rest.head? = some '/' then
      { s' with commentDepth := s.commentDepth - 1, skip := 1 }
    else s'
  else match s.dollar with
  | some tag =>
    if tag.isPrefixOf (c :: rest) then { s' with dollar := none, skip := tag.length - 1 } else s'
  | none =>
    match s.quote with
    | some q =>
      if c = q then
        if rest.head? = some q then { s' with skip := 1 } else { s' with quote := none }
      else if c = '\\' ∧ q = '\'' ∧ s.escapeString then { s' with skip := 1 }
      else s'
    | none =>
      if c = '-' ∧ rest.head? = some '-' then { s' with lineComment := true, skip := 1 }
      else if c = '/' ∧ rest.head? = some '*' then { s' with commentDepth := 1, skip := 1 }
      else if c = '\'' ∨ c = '"' then
        { s' with quote := some c, escapeString := c = '\'' && afterE s.current }
      else if c = '$' then
        match matchTag (c :: rest) with
        | some tag => { s' with dollar := some tag, skip := tag.length - 1 }
        | none => s'
      else if c = ';' then { s with statements := s.cut space, current := [] }
      else s'

/-- The loop. -/
def run (space : Char → Bool) : Lexer → List Char → Lexer
  | s, [] => s
  | s, c :: rest =>
    if s.skip = 0 then (s.read space c rest).run space rest
    else { s with skip := s.skip - 1, current := s.current ++ [c] }.run space rest

end Lexer

/-- `_iter_statements`, none where it raises. -/
def iterStatements (space : Char → Bool) (sql : List Char) : Option (List (List Char)) :=
  let s := Lexer.init.run space sql
  if s.quote.isSome || s.dollar.isSome || s.commentDepth ≠ 0 then none else some (s.cut space)

/-! ## What a statement is written in -/

/-- The inside of a block comment. -/
inductive Block
  | nil
  | char (c : Char) (rest : Block)
  | nest (inner rest : Block)

namespace Block

def text : Block → List Char
  | nil => []
  | char c rest => c :: rest.text
  | nest inner rest => '/' :: '*' :: inner.text ++ '*' :: '/' :: rest.text

/-- No two characters before `after` form a mark of their own. -/
def complete : Block → List Char → Bool
  | nil, _ => true
  | char c rest, after =>
    !(c = '/' && (rest.text ++ after).head? = some '*') &&
      !(c = '*' && (rest.text ++ after).head? = some '/') && rest.complete after
  | nest inner rest, after =>
    inner.complete ('*' :: '/' :: rest.text ++ after) && rest.complete after

end Block

/-- The text between quotes, with the quotes in it doubled. -/
def doubled (q : Char) : List Char → List Char
  | [] => []
  | c :: body => if c = q then q :: q :: doubled q body else c :: doubled q body

/-- The delimiter of a dollar quote. -/
def delimiter (tag : List Char) : List Char := '$' :: tag ++ ['$']

/-- No delimiter begins inside the body, where `after` follows it. -/
def delimited (tag after : List Char) : List Char → Bool
  | [] => true
  | c :: body => !(delimiter tag).isPrefixOf (c :: body ++ after) && delimited tag after body

/-- What ends a line comment : a line feed, or a carriage return with or without one. -/
inductive Newline
  | lf
  | crlf
  | cr
deriving DecidableEq

def Newline.text : Newline → List Char
  | lf => ['\n']
  | crlf => ['\r', '\n']
  | cr => ['\r']

/-- The inside of a line comment. -/
def inLine (body : List Char) : Bool := '\n' ∉ body && '\r' ∉ body

inductive Piece
  | plain (c : Char)
  | string (body : List Char)
  | identifier (body : List Char)
  | dollar (tag body : List Char)
  | line (body : List Char) (stop : Newline)
  | block (body : Block)

namespace Piece

def text : Piece → List Char
  | plain c => [c]
  | string body => '\'' :: doubled '\'' body ++ ['\'']
  | identifier body => '"' :: doubled '"' body ++ ['"']
  | dollar tag body => delimiter tag ++ body ++ delimiter tag
  | line body stop => '-' :: '-' :: body ++ stop.text
  | block body => '/' :: '*' :: body.text ++ ['*', '/']

/-- The piece ends where its text ends, when `after` follows it. -/
def complete (after : List Char) : Piece → Bool
  | plain c => !(c = '\'' || c = '"' || c = ';') && !(c = '-' && after.head? = some '-') &&
      !(c = '/' && after.head? = some '*')
  | string _ => after.head? ≠ some '\''
  | identifier _ => after.head? ≠ some '"'
  | dollar tag body => (tag.all fun c => isTagChar c || 128 ≤ c.toNat) &&
      (tag.head?.all fun c => !('0' ≤ c && c ≤ '9')) && delimited tag (delimiter tag ++ after) body
  | line body stop => inLine body && !(stop = .cr && after.head? = some '\n')
  | block body => body.complete ('*' :: '/' :: after)

end Piece

/-- No backslash takes away a quote of the text, when it is read as an escape string. -/
def quotesKept : List Char → Bool
  | '\\' :: c :: body => c ≠ '\'' && quotesKept body
  | _ :: body => quotesKept body
  | [] => true

/-- The guesses of the walk hold of the piece, where `before` stands before it in its
statement and `after` follows it. -/
def Piece.plainly (before after : List Char) : Piece → Bool
  | .plain c => matchTag (c :: after) = none
  | .string body => !Lexer.afterE before || quotesKept (body ++ ['\''])
  | .dollar tag _ => tag.all isTagChar
  | .line _ stop => stop ≠ .cr
  | _ => true

/-- The pieces of a statement. -/
abbrev Statement := List Piece

namespace Statement

def text (st : Statement) : List Char := st.flatMap Piece.text

/-- Every piece is complete, where `after` follows the statement. -/
def complete (after : List Char) : Statement → Bool
  | [] => true
  | p :: st => p.complete (text st ++ after) && complete after st

def plainly (after : List Char) : List Char → Statement → Bool
  | _, [] => true
  | before, p :: st => p.plainly before (text st ++ after) && plainly after (before ++ p.text) st

end Statement

/-- Statements that end with a semicolon, a last one that does not, and what follows it. -/
def script : List Statement → Statement → List Char → List Char
  | [], last, tail => last.text ++ tail
  | st :: sts, last, tail => st.text ++ ';' :: script sts last tail

def scriptComplete : List Statement → Statement → List Char → Bool
  | [], last, tail => last.complete tail
  | st :: sts, last, tail =>
    st.complete (';' :: script sts last tail) && scriptComplete sts last tail

def scriptPlainly : List Statement → Statement → List Char → Bool
  | [], last, tail => last.plainly tail []
  | st :: sts, last, tail =>
    st.plainly (';' :: script sts last tail) [] && scriptPlainly sts last tail

/-- The texts without their outer space, less the empty ones. -/
def trimmed (space : Char → Bool) (texts : List (List Char)) : List (List Char) :=
  (texts.map (strip space)).filter fun text => text ≠ []

/-- A line comment that ends with the text, or nothing. -/
def lineTail : Option (List Char) → List Char
  | none => []
  | some body => '-' :: '-' :: body

/-- The openings of nested comments, each with what stands behind it. -/
def openings : List Block → List Char
  | [] => []
  | b :: bs => '/' :: '*' :: b.text ++ openings bs

def openingsComplete : List Block → Bool
  | [] => true
  | b :: bs => b.complete (openings bs) && openingsComplete bs

/-- What the text may end inside of. -/
inductive Open
  | string (body : List Char)
  | identifier (body : List Char)
  | dollar (tag body : List Char)
  | block (body : Block) (inner : List Block)

namespace Open

def text : Open → List Char
  | string body => '\'' :: doubled '\'' body
  | identifier body => '"' :: doubled '"' body
  | dollar tag body => delimiter tag ++ body
  | block body inner => openings (body :: inner)

/-- The text stays inside to its end. -/
def complete : Open → Bool
  | dollar tag body => (tag.all fun c => isTagChar c || 128 ≤ c.toNat) &&
      (tag.head?.all fun c => !('0' ≤ c && c ≤ '9')) && delimited tag [] body
  | block body inner => openingsComplete (body :: inner)
  | _ => true

/-- The guesses of the walk hold of what the text ends inside of. -/
def plainly (before : List Char) : Open → Bool
  | string body => !Lexer.afterE before || quotesKept body
  | dollar tag _ => tag.all isTagChar
  | _ => true

end Open

/-! ## The walk over a piece -/

section Walk

variable {space : Char → Bool} {sts : List (List Char)} {cur t : List Char} {e : Bool}

/-- The loop outside of everything. -/
def outside (sts : List (List Char)) (cur : List Char) (e : Bool) : Lexer :=
  ⟨sts, cur, 0, none, none, e, 0, false⟩

theorem run_cons {s : Lexer} (h : s.skip = 0) (c : Char) :
    s.run space (c :: t) = (s.read space c t).run space t := by
  rw [Lexer.run, if_pos h]

theorem run_skip : ∀ (l : List Char) (s : Lexer), s.skip = l.length →
    s.run space (l ++ t) = { s with skip := 0, current := s.current ++ l }.run space t
  | [], s, h => by
    obtain ⟨_, _, k, _⟩ := s
    obtain rfl : k = 0 := h
    simp
  | c :: l, s, h => by
    have hne : s.skip ≠ 0 := by simp [h]
    rw [List.cons_append, Lexer.run, if_neg hne, run_skip l _ (by simp [h])]
    simp

/-- The loop inside quotes. -/
def quoted (q : Char) (sts : List (List Char)) (cur : List Char) (e : Bool) : Lexer :=
  ⟨sts, cur, 0, some q, none, e, 0, false⟩

theorem run_quoted_pair (q : Char) :
    (quoted q sts cur e).run space (q :: q :: t) =
      (quoted q sts (cur ++ [q, q]) e).run space t := by
  rw [run_cons rfl, show q :: t = [q] ++ t from rfl, run_skip]
  · simp [quoted, Lexer.read]
  · simp [quoted, Lexer.read]

theorem run_quoted_char {q c : Char} (hc : c ≠ q) (he : c = '\\' → q = '\'' → e = false) :
    (quoted q sts cur e).run space (c :: t) = (quoted q sts (cur ++ [c]) e).run space t := by
  rw [run_cons rfl]
  congr 1
  have hne : ¬ (c = '\\' ∧ q = '\'' ∧ e = true) := by
    rintro ⟨h₁, h₂, h₃⟩
    simp [he h₁ h₂] at h₃
  simp [quoted, Lexer.read, hc, hne]

/-- The text between quotes is read to its end. -/
theorem run_doubled {q : Char} (he : q = '\'' → e = false) : ∀ (body cur : List Char),
    (quoted q sts cur e).run space (doubled q body ++ t) =
      (quoted q sts (cur ++ doubled q body) e).run space t
  | [], cur => by simp [doubled]
  | c :: body, cur => by
    rw [doubled]
    split
    next hc =>
      subst hc
      rw [List.cons_append, List.cons_append, run_quoted_pair, run_doubled he body]
      simp
    next hc =>
      rw [List.cons_append, run_quoted_char hc fun _ => he, run_doubled he body]
      simp

/-- The closing quote. -/
theorem run_close {q : Char} (h : t.head? ≠ some q) :
    (quoted q sts cur e).run space (q :: t) = (outside sts (cur ++ [q]) e).run space t := by
  rw [run_cons rfl]
  simp [quoted, outside, Lexer.read, h]

theorem quotesKept_cons {c : Char} (hc : c ≠ '\\') (body : List Char) :
    quotesKept (c :: body) = quotesKept body := by
  cases body <;> simp [quotesKept, hc]

/-- A backslash passes over the character behind it. -/
theorem run_escape (c : Char) :
    (quoted '\'' sts cur true).run space ('\\' :: c :: t) =
      (quoted '\'' sts (cur ++ ['\\', c]) true).run space t := by
  rw [run_cons rfl, show c :: t = [c] ++ t from rfl, run_skip]
  · simp [quoted, Lexer.read]
  · simp [quoted, Lexer.read]

/-- A character of an escape string that is no backslash. -/
theorem run_unescaped {c : Char} (hc : c ≠ '\\') {body : List Char} (cur : List Char) :
    (quoted '\'' sts cur true).run space (doubled '\'' (c :: body) ++ t) =
      (quoted '\'' sts (cur ++ doubled '\'' [c]) true).run space (doubled '\'' body ++ t) := by
  by_cases hq : c = '\''
  · subst hq
    simpa [doubled] using run_quoted_pair '\'' (t := doubled '\'' body ++ t)
  · simpa [doubled, hq] using run_quoted_char hq (fun h => absurd h hc)
      (t := doubled '\'' body ++ t)

/-- An escape string no quote is taken from is read to its end. -/
theorem run_escaped : ∀ (body cur : List Char), quotesKept (body ++ ['\'']) = true →
    (quoted '\'' sts cur true).run space (doubled '\'' body ++ t) =
      (quoted '\'' sts (cur ++ doubled '\'' body) true).run space t
  | [], cur, _ => by simp [doubled]
  | [c], cur, h => by
    have hc : c ≠ '\\' := by
      rintro rfl
      simp [quotesKept] at h
    rw [run_unescaped hc cur]
    simp [doubled]
  | c :: d :: body, cur, h => by
    by_cases hc : c = '\\'
    · subst hc
      obtain ⟨hd, hbody⟩ : d ≠ '\'' ∧ quotesKept (body ++ ['\'']) = true := by
        simpa [quotesKept] using h
      have htext : doubled '\'' ('\\' :: d :: body) = '\\' :: d :: doubled '\'' body := by
        simp [doubled, hd]
      rw [htext, List.cons_append, List.cons_append, run_escape, run_escaped body _ hbody]
      simp
    · rw [List.cons_append, quotesKept_cons hc] at h
      rw [run_unescaped hc cur, run_escaped (d :: body) _ h]
      congr 2
      by_cases hq : c = '\'' <;> simp [doubled, hq]
  termination_by body => body.length

/-- The text ends inside an escape string no quote is taken from. -/
theorem quote_of_escaped : ∀ (body cur : List Char), quotesKept body = true →
    ((quoted '\'' sts cur true).run space (doubled '\'' body)).quote = some '\''
  | [], cur, _ => rfl
  | [c], cur, _ => by
    by_cases hc : c = '\\'
    · subst hc
      simp [doubled, Lexer.run, Lexer.read, quoted]
    · have h := @run_unescaped space sts [] c hc [] cur
      rw [List.append_nil] at h
      rw [h]
      rfl
  | c :: d :: body, cur, h => by
    by_cases hc : c = '\\'
    · subst hc
      obtain ⟨hd, hbody⟩ : d ≠ '\'' ∧ quotesKept body = true := by
        simpa [quotesKept] using h
      have htext : doubled '\'' ('\\' :: d :: body) = '\\' :: d :: doubled '\'' body := by
        simp [doubled, hd]
      rw [htext, run_escape]
      exact quote_of_escaped body _ hbody
    · rw [quotesKept_cons hc] at h
      have hrun := @run_unescaped space sts [] c hc (d :: body) cur
      rw [List.append_nil, List.append_nil] at hrun
      rw [hrun]
      exact quote_of_escaped (d :: body) _ h
  termination_by body => body.length

/-! ### Dollar quotes and comments -/

/-- The loop inside a dollar quote. -/
def dollared (tag : List Char) (sts : List (List Char)) (cur : List Char) (e : Bool) : Lexer :=
  ⟨sts, cur, 0, none, some (delimiter tag), e, 0, false⟩

theorem run_delimited {tag : List Char} : ∀ (body cur : List Char),
    delimited tag t body = true →
    (dollared tag sts cur e).run space (body ++ t) =
      (dollared tag sts (cur ++ body) e).run space t
  | [], cur, _ => by simp
  | c :: body, cur, h => by
    obtain ⟨hc, hbody⟩ : (delimiter tag).isPrefixOf (c :: body ++ t) = false ∧
        delimited tag t body = true := by
      simpa [delimited] using h
    rw [List.cons_append, run_cons rfl]
    rw [List.cons_append] at hc
    have hread : (dollared tag sts cur e).read space c (body ++ t) =
        dollared tag sts (cur ++ [c]) e := by
      simp [dollared, Lexer.read, hc]
    rw [hread, run_delimited body _ hbody]
    simp

/-- The closing delimiter. -/
theorem run_delimiter {tag : List Char} :
    (dollared tag sts cur e).run space (delimiter tag ++ t) =
      (outside sts (cur ++ delimiter tag) e).run space t := by
  have hprefix : ('$' :: (tag ++ ['$'])).isPrefixOf ('$' :: (tag ++ ['$'] ++ t)) = true := by simp
  rw [delimiter, List.cons_append, List.cons_append, run_cons rfl, run_skip]
  · simp only [dollared, delimiter, List.cons_append, Lexer.read, hprefix]
    simp [outside]
  · simp only [dollared, delimiter, List.cons_append, Lexer.read, hprefix]
    simp

/-- The loop inside a line comment. -/
def commented (sts : List (List Char)) (cur : List Char) (e : Bool) : Lexer :=
  ⟨sts, cur, 0, none, none, e, 0, true⟩

theorem not_mem_of_inLine {body : List Char} (h : inLine body = true) :
    '\n' ∉ body ∧ '\r' ∉ body := by
  simpa [inLine] using h

theorem run_commented : ∀ (body cur : List Char), '\n' ∉ body →
    (commented sts cur e).run space (body ++ t) = (commented sts (cur ++ body) e).run space t
  | [], cur, _ => by simp
  | c :: body, cur, h => by
    obtain ⟨hc, hbody⟩ : c ≠ '\n' ∧ '\n' ∉ body := by
      simpa [eq_comm] using h
    rw [List.cons_append, run_cons rfl]
    have hread : (commented sts cur e).read space c (body ++ t) = commented sts (cur ++ [c]) e := by
      simp [commented, Lexer.read, hc]
    rw [hread, run_commented body _ hbody]
    simp

/-- The loop inside a block comment. -/
def nested (d : ℕ) (sts : List (List Char)) (cur : List Char) (e : Bool) : Lexer :=
  ⟨sts, cur, 0, none, none, e, d + 1, false⟩

theorem run_nest {d : ℕ} :
    (nested d sts cur e).run space ('/' :: '*' :: t) =
      (nested (d + 1) sts (cur ++ ['/', '*']) e).run space t := by
  rw [run_cons rfl, show '*' :: t = ['*'] ++ t from rfl, run_skip]
  · simp [nested, Lexer.read]
  · simp [nested, Lexer.read]

theorem run_unnest {d : ℕ} :
    (nested (d + 1) sts cur e).run space ('*' :: '/' :: t) =
      (nested d sts (cur ++ ['*', '/']) e).run space t := by
  rw [run_cons rfl, show '/' :: t = ['/'] ++ t from rfl, run_skip]
  · simp [nested, Lexer.read]
  · simp [nested, Lexer.read]

/-- The inside of a block comment is read to its end. -/
theorem run_block : ∀ (b : Block) (d : ℕ) (cur t : List Char), b.complete t = true →
    (nested d sts cur e).run space (b.text ++ t) =
      (nested d sts (cur ++ b.text) e).run space t
  | .nil, d, cur, t, _ => by simp [Block.text]
  | .char c rest, d, cur, t, h => by
    simp only [Block.complete, Bool.and_eq_true, Bool.not_eq_true', Bool.and_eq_false_imp,
      decide_eq_true_eq, decide_eq_false_iff_not] at h
    obtain ⟨⟨hopen, hclose⟩, hrest⟩ := h
    rw [Block.text, List.cons_append, run_cons rfl]
    have hread : (nested d sts cur e).read space c (rest.text ++ t) =
        nested d sts (cur ++ [c]) e := by
      have hopen' : ¬ (c = '/' ∧ (rest.text ++ t).head? = some '*') := fun ⟨h₁, h₂⟩ => hopen h₁ h₂
      have hclose' : ¬ (c = '*' ∧ (rest.text ++ t).head? = some '/') :=
        fun ⟨h₁, h₂⟩ => hclose h₁ h₂
      simp only [nested, Lexer.read, hopen', hclose']
      simp
    rw [hread, run_block rest d _ t hrest]
    simp
  | .nest inner rest, d, cur, t, h => by
    obtain ⟨hinner, hrest⟩ := (Bool.and_eq_true _ _).mp h
    replace hinner : inner.complete ('*' :: '/' :: (rest.text ++ t)) = true := hinner
    have htext : (Block.nest inner rest).text ++ t =
        '/' :: '*' :: (inner.text ++ ('*' :: '/' :: (rest.text ++ t))) := by
      simp [Block.text]
    rw [htext, run_nest, run_block inner (d + 1) _ _ hinner, run_unnest,
      run_block rest d _ t hrest]
    simp [Block.text]

/-- The text ends inside the comments that were opened. -/
theorem depth_of_openings : ∀ (bs : List Block) (d : ℕ) (cur : List Char),
    openingsComplete bs = true →
    ((nested d sts cur e).run space (openings bs)).commentDepth ≠ 0
  | [], d, cur, _ => by simp [openings, Lexer.run, nested]
  | b :: bs, d, cur, h => by
    obtain ⟨hb, hbs⟩ := (Bool.and_eq_true _ _).mp h
    rw [openings, List.cons_append, List.cons_append, run_nest, run_block b _ _ _ hb]
    exact depth_of_openings bs _ _ hbs

/-! ### Pieces -/

theorem run_comment_open :
    (outside sts cur e).run space ('/' :: '*' :: t) =
      (nested 0 sts (cur ++ ['/', '*']) e).run space t := by
  rw [run_cons rfl, show '*' :: t = ['*'] ++ t from rfl, run_skip]
  · simp [outside, nested, Lexer.read]
  · simp [outside, Lexer.read]

theorem run_comment_close :
    (nested 0 sts cur e).run space ('*' :: '/' :: t) =
      (outside sts (cur ++ ['*', '/']) e).run space t := by
  rw [run_cons rfl, show '/' :: t = ['/'] ++ t from rfl, run_skip]
  · simp [outside, nested, Lexer.read]
  · simp [nested, Lexer.read]

theorem run_line_open :
    (outside sts cur e).run space ('-' :: '-' :: t) =
      (commented sts (cur ++ ['-', '-']) e).run space t := by
  rw [run_cons rfl, show '-' :: t = ['-'] ++ t from rfl, run_skip]
  · simp [outside, commented, Lexer.read]
  · simp [outside, Lexer.read]

theorem run_line_close :
    (commented sts cur e).run space ('\n' :: t) =
      (outside sts (cur ++ ['\n']) e).run space t := by
  rw [run_cons rfl]
  simp [outside, commented, Lexer.read]

theorem run_identifier_open :
    (outside sts cur e).run space ('"' :: t) =
      (quoted '"' sts (cur ++ ['"']) false).run space t := by
  rw [run_cons rfl]
  simp [outside, quoted, Lexer.read]

theorem run_string_open :
    (outside sts cur e).run space ('\'' :: t) =
      (quoted '\'' sts (cur ++ ['\'']) (Lexer.afterE cur)).run space t := by
  rw [run_cons rfl]
  simp [outside, quoted, Lexer.read]

/-- An ASCII tag is matched with its dollar signs. -/
theorem matchTag_delimiter {tag : List Char} (hchars : tag.all isTagChar = true)
    (hhead : (tag.head?.all fun c => !('0' ≤ c && c ≤ '9')) = true) :
    matchTag (delimiter tag ++ t) = some (delimiter tag) := by
  have hdollar : isTagChar '$' = false := by decide
  have hall : ∀ c ∈ tag, isTagChar c = true := List.all_eq_true.mp hchars
  have htake : (tag ++ '$' :: t).takeWhile isTagChar = tag := by
    rw [List.takeWhile_append_of_pos hall]
    simp [hdollar]
  have hdrop : (tag ++ '$' :: t).dropWhile isTagChar = '$' :: t := by
    rw [List.dropWhile_append_of_pos hall]
    simp [hdollar]
  have hname : isTagName tag = true := by
    rw [isTagName, hchars, hhead]
    rfl
  have htext : delimiter tag ++ t = '$' :: (tag ++ '$' :: t) := by simp [delimiter]
  rw [htext, matchTag, htake, hdrop, hname]
  simp [delimiter]

theorem run_dollar_open {tag : List Char} (hchars : tag.all isTagChar = true)
    (hhead : (tag.head?.all fun c => !('0' ≤ c && c ≤ '9')) = true) :
    (outside sts cur e).run space (delimiter tag ++ t) =
      (dollared tag sts (cur ++ delimiter tag) e).run space t := by
  have hmatch := matchTag_delimiter (t := t) hchars hhead
  have htext : ∀ u, delimiter tag ++ u = '$' :: ((tag ++ ['$']) ++ u) := by simp [delimiter]
  rw [htext] at hmatch ⊢
  rw [run_cons rfl, run_skip]
  · simp only [outside, Lexer.read, hmatch]
    simp [dollared, delimiter]
  · simp only [outside, Lexer.read, hmatch]
    simp [delimiter]

/-- A piece the walk guesses right is read to its end, and nothing is cut. -/
theorem exists_run_piece {p : Piece} (hcomplete : p.complete t = true)
    (hplainly : p.plainly cur t = true) :
    ∃ e', (outside sts cur e).run space (p.text ++ t) =
      (outside sts (cur ++ p.text) e').run space t := by
  cases p with
  | plain c =>
    refine ⟨e, ?_⟩
    simp only [Piece.complete, Bool.and_eq_true, Bool.not_eq_true', Bool.or_eq_false_iff,
      decide_eq_false_iff_not, Bool.and_eq_false_imp, decide_eq_true_eq] at hcomplete
    obtain ⟨⟨⟨⟨hquote, hdouble⟩, hsemi⟩, hline⟩, hblock⟩ := hcomplete
    have htag : matchTag (c :: t) = none := by simpa [Piece.plainly] using hplainly
    have hline' : ¬ (c = '-' ∧ t.head? = some '-') := fun ⟨h₁, h₂⟩ => hline h₁ h₂
    have hblock' : ¬ (c = '/' ∧ t.head? = some '*') := fun ⟨h₁, h₂⟩ => hblock h₁ h₂
    rw [Piece.text, List.singleton_append, run_cons rfl]
    simp only [outside, Lexer.read, hline', hblock', htag, hquote, hdouble, hsemi]
    simp
  | string body =>
    refine ⟨Lexer.afterE cur, ?_⟩
    have hnext : t.head? ≠ some '\'' := by simpa [Piece.complete] using hcomplete
    have htext : (Piece.string body).text ++ t =
        '\'' :: (doubled '\'' body ++ ('\'' :: t)) := by simp [Piece.text]
    rw [htext, run_string_open]
    cases he : Lexer.afterE cur with
    | false =>
      rw [run_doubled (fun _ => rfl), run_close hnext]
      simp [Piece.text]
    | true =>
      have hkept : quotesKept (body ++ ['\'']) = true := by
        simpa [Piece.plainly, he] using hplainly
      rw [run_escaped _ _ hkept, run_close hnext]
      simp [Piece.text]
  | identifier body =>
    refine ⟨false, ?_⟩
    have hnext : t.head? ≠ some '"' := by simpa [Piece.complete] using hcomplete
    have htext : (Piece.identifier body).text ++ t =
        '"' :: (doubled '"' body ++ ('"' :: t)) := by simp [Piece.text]
    rw [htext, run_identifier_open, run_doubled (fun _ => rfl), run_close hnext]
    simp [Piece.text]
  | dollar tag body =>
    refine ⟨e, ?_⟩
    simp only [Piece.complete, Bool.and_eq_true] at hcomplete
    obtain ⟨⟨-, hhead⟩, hbody⟩ := hcomplete
    have htext : (Piece.dollar tag body).text ++ t =
        delimiter tag ++ (body ++ (delimiter tag ++ t)) := by simp [Piece.text]
    rw [htext, run_dollar_open hplainly hhead, run_delimited _ _ hbody, run_delimiter]
    simp [Piece.text]
  | line body stop =>
    refine ⟨e, ?_⟩
    have hinside : inLine body = true := ((Bool.and_eq_true _ _).mp hcomplete).1
    have hbody : '\n' ∉ body := (not_mem_of_inLine hinside).1
    cases stop with
    | lf =>
      have htext : (Piece.line body .lf).text ++ t = '-' :: '-' :: (body ++ ('\n' :: t)) := by
        simp [Piece.text, Newline.text]
      rw [htext, run_line_open, run_commented _ _ hbody, run_line_close]
      simp [Piece.text, Newline.text]
    | crlf =>
      have htext : (Piece.line body .crlf).text ++ t =
          '-' :: '-' :: ((body ++ ['\r']) ++ ('\n' :: t)) := by
        simp [Piece.text, Newline.text]
      have hbody' : '\n' ∉ body ++ ['\r'] := by simp [hbody]
      rw [htext, run_line_open, run_commented _ _ hbody', run_line_close]
      simp [Piece.text, Newline.text]
    | cr => cases hplainly
  | block body =>
    refine ⟨e, ?_⟩
    have htext : (Piece.block body).text ++ t = '/' :: '*' :: (body.text ++ ('*' :: '/' :: t)) := by
      simp [Piece.text]
    rw [htext, run_comment_open, run_block _ _ _ _ hcomplete, run_comment_close]
    simp [Piece.text]

theorem exists_run_statement : ∀ (st : Statement) (cur t : List Char) (e : Bool),
    st.complete t = true → st.plainly t cur = true →
    ∃ e', (outside sts cur e).run space (st.text ++ t) =
      (outside sts (cur ++ st.text) e').run space t
  | [], cur, t, e, _, _ => ⟨e, by simp [Statement.text]⟩
  | p :: st, cur, t, e, hcomplete, hplainly => by
    obtain ⟨hp, hst⟩ := (Bool.and_eq_true _ _).mp hcomplete
    obtain ⟨hp', hst'⟩ := (Bool.and_eq_true _ _).mp hplainly
    obtain ⟨e₁, h₁⟩ := @exists_run_piece space sts cur _ e p hp hp'
    obtain ⟨e₂, h₂⟩ := exists_run_statement st (cur ++ p.text) t e₁ hst hst'
    refine ⟨e₂, ?_⟩
    have htext : Statement.text (p :: st) = p.text ++ Statement.text st := by simp [Statement.text]
    rw [htext, List.append_assoc, h₁, h₂, List.append_assoc]

/-- A semicolon outside of everything cuts the statement. -/
theorem run_semicolon :
    (outside sts cur e).run space (';' :: t) =
      (outside (sts ++ trimmed space [cur]) [] e).run space t := by
  rw [run_cons rfl]
  by_cases hempty : strip space cur = [] <;>
    simp [outside, Lexer.read, Lexer.cut, trimmed, hempty]

theorem trimmed_append (texts texts' : List (List Char)) :
    trimmed space (texts ++ texts') = trimmed space texts ++ trimmed space texts' := by
  simp [trimmed]

/-- The statements of a script are cut at their semicolons. -/
theorem exists_run_script : ∀ (sts : List Statement) (last : Statement) (tail : List Char)
    (done : List (List Char)) (e : Bool), scriptComplete sts last tail = true →
    scriptPlainly sts last tail = true →
    ∃ e', (outside done [] e).run space (script sts last tail) =
      (outside (done ++ trimmed space (sts.map Statement.text)) last.text e').run space tail
  | [], last, tail, done, e, hcomplete, hplainly => by
    obtain ⟨e', h⟩ := @exists_run_statement space done last [] tail e hcomplete hplainly
    exact ⟨e', by simpa [script, trimmed] using h⟩
  | st :: sts, last, tail, done, e, hcomplete, hplainly => by
    obtain ⟨hst, hsts⟩ := (Bool.and_eq_true _ _).mp hcomplete
    obtain ⟨hst', hsts'⟩ := (Bool.and_eq_true _ _).mp hplainly
    obtain ⟨e₁, h₁⟩ := @exists_run_statement space done st [] _ e hst hst'
    obtain ⟨e₂, h₂⟩ := exists_run_script sts last tail (done ++ trimmed space [st.text]) e₁
      hsts hsts'
    refine ⟨e₂, ?_⟩
    rw [script, h₁, List.nil_append, run_semicolon, h₂, List.append_assoc, ← trimmed_append]
    rfl

/-- The text ends inside what it opened. -/
theorem inside_of_open {u : Open} (hcomplete : u.complete = true)
    (hplainly : u.plainly cur = true) :
    let s := (outside sts cur e).run space u.text
    s.quote.isSome = true ∨ s.dollar.isSome = true ∨ s.commentDepth ≠ 0 := by
  cases u with
  | string body =>
    refine Or.inl ?_
    rw [Open.text, run_string_open]
    cases he : Lexer.afterE cur with
    | false =>
      rw [← List.append_nil (doubled '\'' body), run_doubled fun _ => rfl]
      rfl
    | true =>
      have hkept : quotesKept body = true := by simpa [Open.plainly, he] using hplainly
      rw [quote_of_escaped body _ hkept]
      rfl
  | identifier body =>
    refine Or.inl ?_
    rw [Open.text, run_identifier_open, ← List.append_nil (doubled '"' body),
      run_doubled fun _ => rfl]
    rfl
  | dollar tag body =>
    refine Or.inr (Or.inl ?_)
    simp only [Open.complete, Bool.and_eq_true] at hcomplete
    obtain ⟨⟨-, hhead⟩, hbody⟩ := hcomplete
    rw [Open.text, run_dollar_open hplainly hhead, ← List.append_nil body,
      run_delimited _ _ hbody]
    rfl
  | block body inner =>
    refine Or.inr (Or.inr ?_)
    obtain ⟨hbody, hinner⟩ := (Bool.and_eq_true _ _).mp hcomplete
    rw [Open.text, openings, List.cons_append, List.cons_append, run_comment_open,
      run_block _ _ _ _ hbody]
    exact depth_of_openings _ _ _ hinner

/-- A line comment may end with the text. -/
theorem run_lineTail {comment : Option (List Char)} (h : ∀ body ∈ comment, inLine body = true) :
    (outside sts cur e).run space (lineTail comment) =
      { outside sts (cur ++ lineTail comment) e with lineComment := comment.isSome } := by
  cases comment with
  | none => simp [lineTail, Lexer.run, outside]
  | some body =>
    rw [lineTail, run_line_open, ← List.append_nil body, run_commented _ _ (not_mem_of_inLine (h body rfl)).1]
    simp [Lexer.run, commented, outside]

end Walk

/-! ## Whole scripts -/

/-- Where the walk guesses right, a script of complete statements is cut into exactly its
statements, and a text that ends inside a literal, a dollar quote or a comment is refused. -/
theorem statements_split (space : Char → Bool) :
    (∀ sts last comment, (∀ body ∈ comment, inLine body = true) →
      scriptComplete sts last (lineTail comment) = true →
      scriptPlainly sts last (lineTail comment) = true →
      iterStatements space (script sts last (lineTail comment)) =
        some (trimmed space (sts.map Statement.text ++ [last.text ++ lineTail comment]))) ∧
    ∀ sts last (u : Open), u.complete = true → scriptComplete sts last u.text = true →
      scriptPlainly sts last u.text = true → u.plainly last.text = true →
      iterStatements space (script sts last u.text) = none := by
  refine ⟨fun sts last comment hcomment hcomplete hplainly => ?_,
    fun sts last u hopen hcomplete hplainly hopen' => ?_⟩
  · obtain ⟨e, h⟩ := @exists_run_script space sts last (lineTail comment) [] false hcomplete
      hplainly
    have hinit : Lexer.init = outside [] [] false := rfl
    rw [iterStatements, hinit, h, run_lineTail hcomment, trimmed_append]
    by_cases hempty : strip space (last.text ++ lineTail comment) = [] <;>
      simp [outside, Lexer.cut, trimmed, hempty]
  · obtain ⟨e, h⟩ := @exists_run_script space sts last u.text [] false hcomplete hplainly
    have hinit : Lexer.init = outside [] [] false := rfl
    have hinside := @inside_of_open space ([] ++ trimmed space (sts.map Statement.text))
      last.text e u hopen hopen'
    rw [iterStatements, hinit, h]
    refine if_pos ?_
    simpa [or_assoc] using hinside

/-- `SELECT a LIKE'C:\'` and `SELECT 2`. -/
def likeStatement : Statement :=
  "SELECT a LIKE".toList.map Piece.plain ++ [.string "C:\\".toList]

def nextStatement : Statement := " SELECT 2".toList.map Piece.plain

/-- An identifier with two dollar signs. -/
def dollarStatement : Statement := "SELECT a$b$".toList.map Piece.plain

/-- A comment that a carriage return ends. -/
def returnStatement : Statement :=
  "SELECT 1 ".toList.map Piece.plain ++ [.line "c".toList .cr]

/-- The plain string is taken for an escape string, whose closing quote is swallowed, the
identifier for the opening of a dollar quote, and the semicolon behind the carriage return for a
part of the comment. -/
theorem complete_statements_refused :
    scriptComplete [likeStatement] nextStatement [] = true ∧
      script [likeStatement] nextStatement [] = "SELECT a LIKE'C:\\'; SELECT 2".toList ∧
      iterStatements Char.isWhitespace (script [likeStatement] nextStatement []) = none ∧
      scriptComplete [dollarStatement] nextStatement [] = true ∧
      iterStatements Char.isWhitespace (script [dollarStatement] nextStatement []) = none ∧
      scriptComplete [returnStatement] nextStatement [] = true ∧
      script [returnStatement] nextStatement [] = "SELECT 1 --c\r; SELECT 2".toList ∧
      iterStatements Char.isWhitespace (script [returnStatement] nextStatement []) =
        some ["SELECT 1 --c\r; SELECT 2".toList] := by
  decide +kernel

/-- Comments that end with a line feed, with or without a carriage return. -/
def commentedStatement : Statement :=
  "SELECT 1 ".toList.map Piece.plain ++ [.line "a;".toList .lf, .line "b;".toList .crlf]

/-- The semicolons of the comments cut nothing, and a string that is not closed is refused. -/
theorem commented_statements_split :
    iterStatements Char.isWhitespace
        (script [commentedStatement] nextStatement (lineTail (some "end".toList))) =
      some ["SELECT 1 --a;\n--b;".toList, "SELECT 2--end".toList] ∧
    iterStatements Char.isWhitespace
      (script [commentedStatement] nextStatement (Open.string "a;".toList).text) = none := by
  obtain ⟨hsplit, hrefused⟩ := statements_split Char.isWhitespace
  refine ⟨(hsplit [commentedStatement] nextStatement (some "end".toList) (fun body hbody => ?_)
    (by decide +kernel) (by decide +kernel)).trans (by decide +kernel),
    hrefused [commentedStatement] nextStatement (.string "a;".toList) (by decide +kernel)
      (by decide +kernel) (by decide +kernel) (by decide +kernel)⟩
  obtain rfl := Option.some.inj hbody
  decide +kernel

end FattyTrader.MigrationStatements
