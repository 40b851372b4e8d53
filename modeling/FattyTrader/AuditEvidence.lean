import Mathlib.Data.List.Forall2
import Mathlib.Algebra.BigOperators.Group.List.Basic
import Mathlib.Algebra.Order.Group.Nat
import Mathlib.Algebra.Ring.Nat

/-!
# Public audit evidence

`sanitizeAuditEvidence` copies of a value what may be public : the entries under the keys of
`publicAuditKeys`, down to the depth five, and of a text only a short token. `clean` takes the levels
that are left and the nodes that may still be copied, and returns what it copied with the nodes that
are left.

Two values that differ only under other keys (`SamePublic`) have the same copy
(`clean_samePublic`), as a hidden entry takes neither a node nor a place. What is copied is
`Public`, with no more nodes down to the depth five than there were to copy (`clean_count`). A null
stands for each node of the depth six, and is not counted.
-/

set_option linter.unusedSectionVars false

namespace FattyTrader.AuditEvidence

/-- The key of a dict. -/
inductive Key
  | text (name : String)
  | other
deriving DecidableEq

/-- A value as evidence has them. The keys of a dict are distinct, a tuple is a list, and `other` is
any other object. -/
inductive Evidence
  | none
  | bool (b : Bool)
  | int (z : ℤ)
  | text (s : String)
  | dict (entries : List (Key × Evidence))
  | list (items : List Evidence)
  | other

/-- What is copied of it. -/
inductive Clean
  | null
  | bool (b : Bool)
  | int (z : ℤ)
  | text (s : String)
  | dict (entries : List (String × Clean))
  | list (items : List Clean)

/-- `_PUBLIC_AUDIT_KEYS`. -/
def publicAuditKeys : List String :=
  ["stage", "code", "requested_symbol", "row_count", "invalid_rows", "invalid_row_indexes", "index",
    "row_index", "field", "field_types", "type", "row_type", "payload_type", "payload_sha256",
    "response_hash", "public_response_hash", "offending_symbols", "public_symbols", "symbols",
    "symbol", "symbol_type", "selected_metadata", "target_metadata", "target_field_types",
    "target_metadata_types", "selected_symbol", "symbolStatus", "minTradeNum", "minTradeUSDT",
    "volumePlace", "pricePlace", "priceEndStep", "sizeMultiplier", "maxLever", "minLever",
    "productType", "status", "count", "truncated", "invalid_count", "duplicate_count",
    "match_count", "hash_encoding", "invalid_row_count", "matching_row_count",
    "matching_row_indexes", "unicode_symbol_count", "unicode_symbols", "maxOrderQty",
    "maxMarketOrderQty", "contractValue", "contractSize"]

/-- The name of a key of the list. -/
def Key.public? : Key → Option String
  | .text name => if name ∈ publicAuditKeys then some name else none
  | .other => none

variable (alnum : Char → Bool)

/-- A short text without blanks and punctuation, where `alnum` is `str.isalnum`. -/
def token (s : String) : Bool :=
  s.length ≤ 128 && s.toList.all fun c => alnum c || "_-.:".toList.contains c

def cleanText (s : String) : String := if token alnum s then s else "[redacted]"

/-- The loop over the entries of a dict, where `f` copies a child with the nodes that are left. -/
def cleanEntries (f : Evidence → ℕ → Clean × ℕ) :
    List (Key × Evidence) → List (String × Clean) → ℕ → List (String × Clean) × ℕ
  | [], result, remaining => (result, remaining)
  | (key, child) :: entries, result, remaining =>
    if remaining = 0 ∨ 24 ≤ result.length then (result, remaining)
    else
      match key.public? with
      | some name =>
        cleanEntries f entries (result ++ [(name, (f child remaining).1)]) (f child remaining).2
      | none => cleanEntries f entries result remaining

/-- The comprehension over the items of a list. -/
def cleanItems (f : Evidence → ℕ → Clean × ℕ) : List Evidence → ℕ → List Clean × ℕ
  | [], remaining => ([], remaining)
  | child :: items, remaining =>
    if 0 < remaining then
      let (rest, remaining') := cleanItems f items (f child remaining).2
      ((f child remaining).1 :: rest, remaining')
    else cleanItems f items remaining

/-- `clean`, at the depth `6 - levels`. -/
def clean : ℕ → Evidence → ℕ → Clean × ℕ
  | 0, _, remaining => (.null, remaining)
  | _, _, 0 => (.null, 0)
  | levels + 1, item, remaining + 1 =>
    match item with
    | .none => (.null, remaining)
    | .bool b => (.bool b, remaining)
    | .int z => (.int z, remaining)
    | .text s => (.text (cleanText alnum s), remaining)
    | .dict entries =>
      let (result, left) := cleanEntries (clean levels) entries [] remaining
      (.dict result, left)
    | .list items =>
      let (result, left) := cleanItems (clean levels) (items.take 12) remaining
      (.list result, left)
    | .other => (.null, remaining)

/-- `sanitize_audit_evidence`. -/
def sanitizeAuditEvidence (value : Evidence) : List (String × Clean) :=
  match (clean alnum 6 value 160).1 with
  | .dict result => result
  | _ => []

/-! ## What a copy depends on -/

/-- Two entries with one key, whose values are related where the key is public. -/
inductive SameEntry (R : Evidence → Evidence → Prop) : Key × Evidence → Key × Evidence → Prop
  | hidden {key : Key} {v v' : Evidence} : key.public? = none → SameEntry R (key, v) (key, v')
  | shown {key : Key} {v v' : Evidence} : R v v' → SameEntry R (key, v) (key, v')

/-- The values differ only in what is stored under keys that are not public, at any depth. -/
inductive SamePublic : Evidence → Evidence → Prop
  | refl (v : Evidence) : SamePublic v v
  | dict {es es' : List (Key × Evidence)} :
      List.Forall₂ (SameEntry SamePublic) es es' → SamePublic (.dict es) (.dict es')
  | list {xs xs' : List Evidence} :
      List.Forall₂ SamePublic xs xs' → SamePublic (.list xs) (.list xs')

variable {alnum}

section Loops

variable {f : Evidence → ℕ → Clean × ℕ}

theorem cleanEntries_same (hf : ∀ v v', SamePublic v v' → f v = f v') {es es' : List (Key × Evidence)}
    (h : List.Forall₂ (SameEntry SamePublic) es es') (result : List (String × Clean)) (remaining : ℕ) :
    cleanEntries f es result remaining = cleanEntries f es' result remaining := by
  induction h generalizing result remaining with
  | nil => rfl
  | cons hentry _ ih =>
    cases hentry with
    | @hidden key _ _ hkey => simp only [cleanEntries, hkey, ih]
    | @shown key _ _ hv => simp only [cleanEntries, hf _ _ hv, ih]

theorem cleanItems_same (hf : ∀ v v', SamePublic v v' → f v = f v') {xs xs' : List Evidence}
    (h : List.Forall₂ SamePublic xs xs') (remaining : ℕ) :
    cleanItems f xs remaining = cleanItems f xs' remaining := by
  induction h generalizing remaining with
  | nil => rfl
  | cons hv _ ih => simp only [cleanItems, hf _ _ hv, ih]

end Loops

theorem clean_samePublic (levels : ℕ) : ∀ v v', SamePublic v v' →
    clean alnum levels v = clean alnum levels v' := by
  induction levels with
  | zero => exact fun v v' _ => rfl
  | succ levels ih =>
    intro v v' h
    funext remaining
    cases remaining with
    | zero => rfl
    | succ remaining =>
      cases h with
      | refl => rfl
      | dict hentries => simp only [clean, cleanEntries_same ih hentries]
      | list hitems => simp only [clean, cleanItems_same ih (List.forall₂_take 12 hitems)]

/-! ## What a copy is -/

/-- The nodes of the first `levels` levels. -/
def nodes : ℕ → Clean → ℕ
  | 0, _ => 0
  | levels + 1, .dict entries => 1 + (entries.map fun e => nodes levels e.2).sum
  | levels + 1, .list items => 1 + (items.map (nodes levels)).sum
  | _ + 1, _ => 1

variable (alnum) in
/-- A value with at most `levels` levels, and nulls below them : its keys are public, and its texts
are tokens or redacted. -/
inductive Public : ℕ → Clean → Prop
  | null {levels : ℕ} : Public levels .null
  | bool {levels : ℕ} (b : Bool) : Public (levels + 1) (.bool b)
  | int {levels : ℕ} (z : ℤ) : Public (levels + 1) (.int z)
  | text {levels : ℕ} {s : String} :
      token alnum s = true ∨ s = "[redacted]" → Public (levels + 1) (.text s)
  | dict {levels : ℕ} {entries : List (String × Clean)} : entries.length ≤ 24 →
      (∀ e ∈ entries, e.1 ∈ publicAuditKeys) → (∀ e ∈ entries, Public levels e.2) →
      Public (levels + 1) (.dict entries)
  | list {levels : ℕ} {items : List Clean} : items.length ≤ 12 →
      (∀ item ∈ items, Public levels item) → Public (levels + 1) (.list items)

theorem cleanText_token (s : String) :
    token alnum (cleanText alnum s) = true ∨ cleanText alnum s = "[redacted]" := by
  unfold cleanText
  split
  next h => exact Or.inl h
  next => exact Or.inr rfl

theorem mem_of_public {key : Key} {name : String} (h : key.public? = some name) :
    name ∈ publicAuditKeys := by
  unfold Key.public? at h
  split at h
  · split at h
    next hmem => exact Option.some.inj h ▸ hmem
    next => cases h
  · cases h

section Bounds

variable {levels : ℕ} {f : Evidence → ℕ → Clean × ℕ}

/-- The entries copied so far, and the nodes they took. -/
theorem cleanEntries_spec
    (hf : ∀ v r, 0 < r → Public alnum levels (f v r).1 ∧ nodes levels (f v r).1 + (f v r).2 ≤ r) :
    ∀ (entries : List (Key × Evidence)) (result : List (String × Clean)) (r : ℕ),
      result.length ≤ 24 → (∀ e ∈ result, e.1 ∈ publicAuditKeys ∧ Public alnum levels e.2) →
      (cleanEntries f entries result r).1.length ≤ 24 ∧
        (∀ e ∈ (cleanEntries f entries result r).1, e.1 ∈ publicAuditKeys ∧ Public alnum levels e.2) ∧
        ((cleanEntries f entries result r).1.map fun e => nodes levels e.2).sum +
            (cleanEntries f entries result r).2 ≤
          (result.map fun e => nodes levels e.2).sum + r
  | [], _, _, hlength, hpublic => ⟨hlength, hpublic, le_rfl⟩
  | (key, child) :: entries, result, r, hlength, hpublic => by
    unfold cleanEntries
    split
    next => exact ⟨hlength, hpublic, le_rfl⟩
    next hroom =>
      push Not at hroom
      cases hkey : key.public? with
      | none => exact cleanEntries_spec hf entries result r hlength hpublic
      | some name =>
        obtain ⟨hchild, hcount⟩ := hf child r (Nat.pos_of_ne_zero hroom.1)
        obtain ⟨hlength', hpublic', hcount'⟩ := cleanEntries_spec hf entries
          (result ++ [(name, (f child r).1)]) (f child r).2
          (by rw [List.length_append]; exact hroom.2) (by
            intro e he
            rcases List.mem_append.mp he with he | he
            · exact hpublic e he
            · obtain rfl := List.mem_singleton.mp he
              exact ⟨mem_of_public hkey, hchild⟩)
        refine ⟨hlength', hpublic', hcount'.trans ?_⟩
        simp only [List.map_append, List.sum_append, List.map_cons, List.map_nil, List.sum_cons,
          List.sum_nil]
        omega

theorem cleanItems_spec
    (hf : ∀ v r, 0 < r → Public alnum levels (f v r).1 ∧ nodes levels (f v r).1 + (f v r).2 ≤ r) :
    ∀ (items : List Evidence) (r : ℕ), (cleanItems f items r).1.length ≤ items.length ∧
      (∀ item ∈ (cleanItems f items r).1, Public alnum levels item) ∧
      ((cleanItems f items r).1.map (nodes levels)).sum + (cleanItems f items r).2 ≤ r
  | [], r => ⟨le_rfl, by simp [cleanItems], by simp [cleanItems]⟩
  | child :: items, r => by
    unfold cleanItems
    split
    next hr =>
      obtain ⟨hchild, hcount⟩ := hf child r hr
      obtain ⟨hlength, hpublic, hcount'⟩ := cleanItems_spec hf items (f child r).2
      refine ⟨Nat.succ_le_succ hlength, ?_, ?_⟩
      · intro item hitem
        rcases List.mem_cons.mp hitem with rfl | hitem
        · exact hchild
        · exact hpublic item hitem
      · simp only [List.map_cons, List.sum_cons]
        omega
    next =>
      obtain ⟨hlength, hrest⟩ := cleanItems_spec hf items r
      exact ⟨hlength.trans (Nat.le_succ _), hrest⟩

end Bounds

/-- A copy is public, and takes a node of those that are left for each of its own down to the last
level. -/
theorem clean_count : ∀ (levels : ℕ) (v : Evidence) (r : ℕ), 0 < r →
    Public alnum levels (clean alnum levels v r).1 ∧
      nodes levels (clean alnum levels v r).1 + (clean alnum levels v r).2 ≤ r
  | 0, v, r, _ => ⟨.null, by simp [clean, nodes]⟩
  | levels + 1, v, r + 1, _ => by
    have hleaf : 1 + r ≤ r + 1 := (Nat.add_comm 1 r).le
    cases v with
    | none => exact ⟨.null, hleaf⟩
    | bool b => exact ⟨.bool b, hleaf⟩
    | int z => exact ⟨.int z, hleaf⟩
    | text s => exact ⟨.text (cleanText_token s), hleaf⟩
    | dict entries =>
      obtain ⟨hlength, hpublic, hcount⟩ := cleanEntries_spec (fun v r hr => clean_count levels v r hr)
        entries [] r (Nat.zero_le _) (by simp)
      refine ⟨.dict hlength (fun e he => (hpublic e he).1) fun e he => (hpublic e he).2, ?_⟩
      simp only [List.map_nil, List.sum_nil] at hcount
      simp only [clean, nodes]
      omega
    | list items =>
      obtain ⟨hlength, hpublic, hcount⟩ := cleanItems_spec (fun v r hr => clean_count levels v r hr)
        (items.take 12) r
      refine ⟨.list (hlength.trans (List.length_take_le 12 items)) hpublic, ?_⟩
      simp only [clean, nodes]
      omega
    | other => exact ⟨.null, hleaf⟩

/-! ## The sanitizer -/

/-- The public evidence of a value is the same for every value that differs only under hidden keys.
It has at most 160 nodes down to the depth five, nothing but nulls below, public keys only, and texts
that are tokens. -/
theorem evidence_sanitized (alnum : Char → Bool) :
    (∀ v v', SamePublic v v' → sanitizeAuditEvidence alnum v = sanitizeAuditEvidence alnum v') ∧
      ∀ v, Public alnum 6 (.dict (sanitizeAuditEvidence alnum v)) ∧
        nodes 6 (.dict (sanitizeAuditEvidence alnum v)) ≤ 160 := by
  constructor
  · intro v v' h
    simp only [sanitizeAuditEvidence, clean_samePublic 6 v v' h]
  · intro v
    obtain ⟨hpublic, hcount⟩ := @clean_count alnum 6 v 160 (by decide)
    unfold sanitizeAuditEvidence
    split
    next result hresult =>
      rw [hresult] at hpublic hcount
      exact ⟨hpublic, (Nat.le_add_right _ _).trans hcount⟩
    next => exact ⟨.dict (Nat.zero_le _) (by simp) (by simp), by decide⟩

/-- Twelve rows at the depth five, with 24 entries each. -/
def deepEvidence : Evidence :=
  .dict [(.text "symbols", .list [.list [.list [.list (List.replicate 12
    (.dict ((publicAuditKeys.take 24).map fun name => (.text name, .int 0))))]]])]

/-- The nulls that stand for the entries of the rows are not counted, and an integer is copied
whatever its size. -/
theorem deepEvidence_overflows :
    (¬ ∀ v : Evidence, nodes 7 (.dict (sanitizeAuditEvidence Char.isAlphanum v)) ≤ 160) ∧
      ¬ ∃ bound : ℤ, ∀ (v : Evidence) (z : ℤ),
        ("count", Clean.int z) ∈ sanitizeAuditEvidence Char.isAlphanum v → z ≤ bound := by
  constructor
  · intro h
    have hcount : nodes 7 (.dict (sanitizeAuditEvidence Char.isAlphanum deepEvidence)) = 305 := by
      decide +kernel
    exact absurd (hcount ▸ h deepEvidence) (by decide)
  · rintro ⟨bound, h⟩
    have hpublic : (Key.text "count").public? = some "count" := by decide +kernel
    have hcopied : sanitizeAuditEvidence Char.isAlphanum
        (.dict [(.text "count", .int (bound + 1))]) = [("count", .int (bound + 1))] := by
      simp [sanitizeAuditEvidence, clean, cleanEntries, hpublic]
    have hle := h _ (bound + 1) (hcopied ▸ List.mem_singleton_self _)
    omega

end FattyTrader.AuditEvidence
