import Mathlib.Data.List.DropRight
import Mathlib.Algebra.Order.Ring.Rat

/-!
# Values of JSON, as they are read

A decoded answer is a `Json`. A reader takes an object apart by its keys (`firstOf` is a chain of
`get` with defaults), and makes texts and numbers of what it finds. What it makes of them is given
by `Texts` : the text of a value, its number, and the cases and the blanks of a text. The laws of a
`Texts` say that zero is one, and that neither `None` nor a blank is a number, so a key that is
absent, null or blank never reads as one (`number_null`, `number_of_blank`).

`ascii` are the texts where everything is in ASCII.
-/

namespace FattyTrader

/-- A decoded JSON value. A number is the text `str` gives of it, and the fields of an object have
distinct names. -/
inductive Json
  | null
  | bool (b : Bool)
  | number (text : String)
  | str (s : String)
  | arr (items : List Json)
  | obj (fields : List (String × Json))

/-- A number, as `Decimal` has them. -/
inductive Number
  | finite (value : ℚ)
  | infinite
  | nan
deriving DecidableEq

/-- The entries of an object. -/
abbrev Fields := List (String × Json)

namespace Json

def items? : Json → Option (List Json)
  | .arr items => some items
  | _ => none

def fields? : Json → Option Fields
  | .obj fields => some fields
  | _ => none

/-- `v is None`. -/
def isNull : Json → Bool
  | .null => true
  | _ => false

/-- `v == text`. -/
def isText : Json → String → Bool
  | .str s, t => s = t
  | _, _ => false

/-- `bool(value)`. -/
def truthy : Json → Bool
  | .null => false
  | .bool b => b
  | .number text => text ≠ "0" && text ≠ "0.0" && text ≠ "-0.0"
  | .str s => s ≠ ""
  | .arr items => !items.isEmpty
  | .obj fields => !fields.isEmpty

@[simp] theorem items?_eq_some {v : Json} {items : List Json} :
    v.items? = some items ↔ v = .arr items := by
  cases v <;> simp [items?]

@[simp] theorem fields?_eq_some {v : Json} {fields : Fields} :
    v.fields? = some fields ↔ v = .obj fields := by
  cases v <;> simp [fields?]

@[simp] theorem isNull_iff {v : Json} : v.isNull = true ↔ v = .null := by
  cases v <;> simp [isNull]

theorem isText_iff {v : Json} {s : String} : v.isText s = true ↔ v = .str s := by
  cases v <;> simp [isText]

end Json

namespace JsonValues

/-! ## Keys -/

section Keys

variable (fields : Fields)

/-- The value under a key, where the key is present. -/
def entry (key : String) : Option Json := List.lookup key fields

/-- `fields.get(key)`. -/
def valueOf (key : String) : Json := (entry fields key).getD .null

/-- The value of the first of the keys that is present. -/
def firstEntry (keys : List String) : Option Json := keys.findSome? (entry fields)

/-- `fields.get(k, fields.get(k', …, default))`. -/
def firstOf (keys : List String) (default : Json) : Json := (firstEntry fields keys).getD default

variable {fields}

theorem firstEntry_isSome {keys : List String} :
    (firstEntry fields keys).isSome ↔ ∃ key ∈ keys, (entry fields key).isSome := by
  simp [firstEntry, List.findSome?_isSome_iff]

theorem exists_of_firstEntry {keys : List String} {raw : Json}
    (h : firstEntry fields keys = some raw) : ∃ key ∈ keys, entry fields key = some raw :=
  List.exists_of_findSome?_eq_some h

end Keys

/-! ## Texts and numbers -/

/-- What a reader makes of texts. -/
structure Texts where
  /-- `Decimal(text)`, `none` where it raises. -/
  decimal : String → Option Number
  strip : String → String
  lower : String → String
  upper : String → String
  /-- `str` of a list or an object. -/
  repr : Json → String
  decimal_zero : decimal "0" = some (.finite 0)
  decimal_none : decimal "None" = none
  decimal_blank : ∀ text, strip text = "" → decimal text = none

namespace Texts

variable (P : Texts)

/-- `str(v)`. -/
def text : Json → String
  | .null => "None"
  | .bool true => "True"
  | .bool false => "False"
  | .number t => t
  | .str t => t
  | v => P.repr v

/-- `str(v or "")`. -/
def textOr (v : Json) : String := if v.truthy then P.text v else ""

/-- `str(v).strip().lower()`. -/
def key (v : Json) : String := P.lower (P.strip (P.text v))

/-- `Decimal(str(v))`, `none` where it raises. -/
def number (v : Json) : Option Number := P.decimal (P.text v)

/-- The number, where it is finite. -/
def finite (v : Json) : Option ℚ :=
  match P.number v with
  | some (.finite q) => some q
  | _ => none

variable {P}

theorem finite_eq_some {v : Json} {q : ℚ} :
    P.finite v = some q ↔ P.number v = some (.finite q) := by
  unfold finite
  cases h : P.number v with
  | none => simp
  | some n => cases n <;> simp

theorem finite_zero : P.finite (.number "0") = some 0 := finite_eq_some.mpr P.decimal_zero

theorem finite_null : P.finite .null = none := by
  unfold finite number
  rw [show P.text .null = "None" from rfl, P.decimal_none]

theorem number_null : P.number .null = none := P.decimal_none

theorem number_of_blank {v : Json} (h : P.strip (P.text v) = "") : P.number v = none :=
  P.decimal_blank _ h

/-- What reads as a number is neither null nor blank. -/
theorem of_number {v : Json} {n : Number} (h : P.number v = some n) :
    v.isNull = false ∧ P.strip (P.text v) ≠ "" := by
  constructor
  · cases v with
    | null => cases number_null.symm.trans h
    | _ => rfl
  · intro hblank
    cases (number_of_blank hblank).symm.trans h

end Texts

/-! ## Texts in ASCII -/

def asciiStrip (text : String) : String :=
  String.ofList ((text.toList.dropWhile Char.isWhitespace).rdropWhile Char.isWhitespace)

/-- The exponent after the digits, zero where there is none. -/
def asciiExponent : List Char → Option ℤ
  | [] => some 0
  | e :: rest =>
    if e = 'e' ∨ e = 'E' then
      match rest with
      | '-' :: digits =>
        if digits ≠ [] ∧ digits.all Char.isDigit then some (-(Nat.ofDigitChars 10 digits 0 : ℤ))
        else none
      | '+' :: digits =>
        if digits ≠ [] ∧ digits.all Char.isDigit then some (Nat.ofDigitChars 10 digits 0) else none
      | digits =>
        if digits ≠ [] ∧ digits.all Char.isDigit then some (Nat.ofDigitChars 10 digits 0) else none
    else none

def asciiUnsigned (text : List Char) : Option Number :=
  let (whole, rest) := text.span Char.isDigit
  let (fraction, rest) := match rest with
    | '.' :: rest => rest.span Char.isDigit
    | rest => ([], rest)
  if whole ++ fraction = [] then
    let word := String.ofList (text.map Char.toLower)
    if word = "inf" ∨ word = "infinity" then some .infinite
    else if word = "nan" then some .nan else none
  else (asciiExponent rest).map fun (e : ℤ) =>
    .finite (Nat.ofDigitChars 10 (whole ++ fraction) 0 * 10 ^ (e - (fraction.length : ℤ)))

def Number.neg : Number → Number
  | .finite q => .finite (-q)
  | n => n

def asciiDecimal (text : String) : Option Number :=
  match ((asciiStrip text).toList.filter (· ≠ '_')) with
  | '-' :: rest => (asciiUnsigned rest).map Number.neg
  | '+' :: rest => asciiUnsigned rest
  | rest => asciiUnsigned rest

/-- Texts whose letters, digits and blanks are in ASCII ; a container prints as its brackets. -/
def ascii : Texts where
  decimal := asciiDecimal
  strip := asciiStrip
  lower := String.toLower
  upper := String.toUpper
  repr
    | .obj _ => "{}"
    | _ => "[]"
  decimal_zero := by decide +kernel
  decimal_none := by decide +kernel
  decimal_blank text h := by
    unfold asciiDecimal
    rw [h]
    rfl

example : asciiDecimal " -1_2.50e1 " = some (.finite (-125)) := by decide +kernel

end JsonValues

end FattyTrader
