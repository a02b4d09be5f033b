import VCBrain.Foundation.JsonText
import VCBrain.Foundation.Substrings

set_option relaxedAutoImplicit false
set_option autoImplicit false

/-!
# Indented JSON text

`json.dumps(value, indent=2)`: ASCII escapes, a line for each item and each field.

## Main definitions

* `Json.indented` — the text.
* `Json.texts` — the strings, the keys and the numbers in a value.
* `Json.Foreign` — a word that is no part of the syntax of JSON.

## Main results

* `Json.infix_indented_iff` — such a word occurs in the text exactly if it occurs in a string of the
  value.
-/

namespace Json

/-- The beginning of a line. -/
def newLine (level : ℕ) : Str := '\n' :: List.replicate (2 * level) ' '

mutual

/-- The text of a value on a level of the indentation. -/
def indented (level : ℕ) : Json → Str
  | null => "null"
  | bool b => if b then "true" else "false"
  | int n => if n < 0 then '-' :: Str.decimal n.natAbs else Str.decimal n.natAbs
  | float r => r
  | str s => quoteAscii s
  | arr [] => "[]"
  | arr (v :: vs) =>
    '[' :: newLine (level + 1) ++
      List.intercalate (',' :: newLine (level + 1)) (indentedItems (level + 1) (v :: vs)) ++
      newLine level ++ [']']
  | obj [] => "\x7b\x7d"
  | obj (f :: fs) =>
    '{' :: newLine (level + 1) ++
      List.intercalate (',' :: newLine (level + 1)) (indentedFields (level + 1) (f :: fs)) ++
      newLine level ++ ['}']

/-- The texts of the items of an array. -/
def indentedItems (level : ℕ) : List Json → List Str
  | [] => []
  | v :: vs => indented level v :: indentedItems level vs

/-- The texts of the fields of an object. -/
def indentedFields (level : ℕ) : List (Str × Json) → List Str
  | [] => []
  | (k, v) :: fs => (quoteAscii k ++ ": " ++ indented level v) :: indentedFields level fs

end

mutual

/-- The strings, the keys and the floats in a value. -/
def texts : Json → List Str
  | null | bool _ | int _ => []
  | float r => [r]
  | str s => [s]
  | arr vs => textsItems vs
  | obj fs => textsFields fs

/-- The strings, the keys and the floats in the items of an array. -/
def textsItems : List Json → List Str
  | [] => []
  | v :: vs => texts v ++ textsItems vs

/-- The strings, the keys and the floats in the fields of an object. -/
def textsFields : List (Str × Json) → List Str
  | [] => []
  | (k, v) :: fs => k :: texts v ++ textsFields fs

end

lemma mem_textsItems {x : Str} {vs : List Json} :
    x ∈ textsItems vs ↔ ∃ v ∈ vs, x ∈ texts v := by
  induction vs with
  | nil => simp [textsItems]
  | cons v vs ih => simp [textsItems, ih]

example : indented 0 (.arr [.obj [("a", .arr []), ("b", .arr [.int (-1)])]]) =
    ("[\n  \x7b\n    \"a\": [],\n    \"b\": [\n      -1\n    ]\n  \x7d\n]" : Str) := by
  decide +kernel

/-- The characters that JSON is written with, the literals and the numbers apart. -/
def marks : List Char := ['"', '\\', ',', ':', '[', ']', '{', '}']

/-- A word of printable characters that are no part of the syntax of JSON, and that begins neither a
literal nor an escape. -/
structure Foreign (word : Str) : Prop where
  plain : ∀ c ∈ word, 32 < c.toNat ∧ c.toNat ≤ 126 ∧ c ∉ marks
  head : ∃ c w, word = c :: w ∧ c.isAlphanum = false ∧ c ≠ '-'

variable {word : Str}

lemma Foreign.ne_nil (h : Foreign word) : word ≠ [] := by
  obtain ⟨c, w, rfl, -⟩ := h.head
  exact List.cons_ne_nil c w

/-- A word that is foreign does not occur in a literal. -/
lemma Foreign.not_infix {s : Str} (h : Foreign word) (hs : ∀ c ∈ s, c.isAlphanum = true ∨ c = '-') :
    ¬ word <:+: s := by
  obtain ⟨c, w, rfl, halnum, hdash⟩ := h.head
  intro hwithin
  rcases hs c (hwithin.subset (List.mem_cons_self ..)) with hc | hc
  · rw [halnum] at hc
    cases hc
  · exact hdash hc

/-- The characters of an escape behind its backslash. -/
def InEscape (c : Char) : Prop := c.isAlphanum = true ∨ c = '"' ∨ c = '\\'

private lemma inEscape_of_mem_hex {k n : ℕ} {c : Char} (h : c ∈ Str.hex k n) : InEscape c := by
  have key : ∀ d < 16, (Str.hexDigit d).isAlphanum = true := by decide
  obtain ⟨d, hd, rfl⟩ := Str.exists_of_mem_hex h
  exact Or.inl (key d hd)

private lemma inEscape_of_mem_unicode {k n : ℕ} {c : Char} (h : c ∈ 'u' :: Str.hex k n) :
    InEscape c := by
  rcases List.mem_cons.mp h with rfl | h
  · exact Or.inl rfl
  · exact inEscape_of_mem_hex h

/-- A printable character that is neither a quote nor a backslash stands for itself, and another one
for an escape. -/
lemma escapeAscii_shape (c : Char) : escapeAscii c = [c] ∨
    (c.toNat ≤ 32 ∨ 126 < c.toNat ∨ c = '"' ∨ c = '\\') ∧
      ∃ r, escapeAscii c = '\\' :: r ∧ ∀ e ∈ r, InEscape e := by
  have hshort : ∀ e : Char, InEscape e → ∀ x ∈ [e], InEscape x := by
    rintro e he x hx
    rwa [List.mem_singleton.mp hx]
  generalize hescape : escapeAscii c = escape
  unfold escapeAscii at hescape
  split_ifs at hescape with hquote hbackslash hn hr ht hff hbs hplain hsmall
  · exact Or.inr ⟨by simp [hquote], ['"'], hescape.symm, hshort _ (Or.inr (Or.inl rfl))⟩
  · exact Or.inr ⟨by simp [hbackslash], ['\\'], hescape.symm, hshort _ (Or.inr (Or.inr rfl))⟩
  · exact Or.inr ⟨Or.inl (by rw [hn]; decide), ['n'], hescape.symm, hshort _ (Or.inl rfl)⟩
  · exact Or.inr ⟨Or.inl (by rw [hr]; decide), ['r'], hescape.symm, hshort _ (Or.inl rfl)⟩
  · exact Or.inr ⟨Or.inl (by rw [ht]; decide), ['t'], hescape.symm, hshort _ (Or.inl rfl)⟩
  · exact Or.inr ⟨Or.inl (by omega), ['f'], hescape.symm, hshort _ (Or.inl rfl)⟩
  · exact Or.inr ⟨Or.inl (by omega), ['b'], hescape.symm, hshort _ (Or.inl rfl)⟩
  · exact Or.inl hescape.symm
  · refine Or.inr ⟨by omega, 'u' :: Str.hex 4 c.toNat, hescape.symm, fun e he => ?_⟩
    exact inEscape_of_mem_unicode he
  · refine Or.inr ⟨by omega, 'u' :: Str.hex 4 (0xd800 + (c.toNat - 0x10000) / 0x400) ++
      '\\' :: 'u' :: Str.hex 4 (0xdc00 + (c.toNat - 0x10000) % 0x400), ?_, fun e he => ?_⟩
    · rw [← hescape]
      rfl
    · rcases List.mem_append.mp he with he | he
      · exact inEscape_of_mem_unicode he
      · rcases List.mem_cons.mp he with rfl | he
        · exact Or.inr (Or.inr rfl)
        · exact inEscape_of_mem_unicode he

lemma Foreign.not_mem (h : Foreign word) {c : Char} (hc : c ∈ marks) : c ∉ word :=
  fun hmem => (h.plain c hmem).2.2 hc

/-- The ASCII escapes are escapes for a foreign word. -/
lemma Foreign.escapesFor (h : Foreign word) : Str.EscapesFor word escapeAscii := by
  have hquote : '"' ∉ word := h.not_mem (by decide)
  have hbackslash : '\\' ∉ word := h.not_mem (by decide)
  intro c
  rcases escapeAscii_shape c with hself | ⟨hc, r, hescape, hr⟩
  · exact Or.inl hself
  · refine Or.inr ⟨fun hmem => ?_, '\\', r, hescape, hbackslash, fun e he hmem => ?_⟩
    · obtain ⟨hlow, hhigh, -⟩ := h.plain c hmem
      rcases hc with hc | hc | rfl | rfl
      · omega
      · omega
      · exact hquote hmem
      · exact hbackslash hmem
    · obtain ⟨c', w, rfl, halnum, -⟩ := h.head
      obtain rfl : c' = e := Option.some.inj he
      rcases hr c' hmem with hc' | rfl | rfl
      · rw [halnum] at hc'
        cases hc'
      · exact hquote (List.mem_cons_self ..)
      · exact hbackslash (List.mem_cons_self ..)

lemma Foreign.infix_quoteAscii_iff (h : Foreign word) {s : Str} :
    word <:+: quoteAscii s ↔ word <:+: s := by
  have hquote : '"' ∉ word := h.not_mem (by decide)
  have hmarks : ∀ c ∈ ['"'], c ∉ word := by
    intro c hc
    rwa [List.mem_singleton.mp hc]
  have hsplit : quoteAscii s = [] ++ ['"'] ++ (s.flatMap escapeAscii ++ ['"'] ++ []) := by
    rw [quoteAscii, List.append_nil]
    rfl
  rw [hsplit, Str.infix_append_append_iff h.ne_nil (List.cons_ne_nil _ _) hmarks,
    Str.infix_append_append_iff h.ne_nil (List.cons_ne_nil _ _) hmarks,
    Str.infix_flatMap_iff h.ne_nil h.escapesFor]
  simp [h.ne_nil]

lemma Foreign.newLine_not_mem (h : Foreign word) {level : ℕ} : ∀ c ∈ newLine level, c ∉ word := by
  intro c hc hmem
  obtain ⟨hlow, -, -⟩ := h.plain c hmem
  rcases List.mem_cons.mp hc with rfl | hc
  · exact absurd hlow (by decide)
  · obtain rfl := List.eq_of_mem_replicate hc
    exact absurd hlow (by decide)

lemma Foreign.infix_field_iff (h : Foreign word) {k v : Str} :
    word <:+: quoteAscii k ++ ": " ++ v ↔ word <:+: k ∨ word <:+: v := by
  have hcolon : ∀ c ∈ [':', ' '], c ∉ word := by
    intro c hc hmem
    obtain ⟨hlow, -, hmarks⟩ := h.plain c hmem
    rcases List.mem_cons.mp hc with rfl | hc
    · exact hmarks (by decide)
    · rw [List.mem_singleton.mp hc] at hlow
      exact absurd hlow (by decide)
  have hsplit : quoteAscii k ++ ": " ++ v = quoteAscii k ++ [':', ' '] ++ v := rfl
  rw [hsplit, Str.infix_append_append_iff h.ne_nil (List.cons_ne_nil _ _) hcolon,
    h.infix_quoteAscii_iff]

/-- A foreign word does not occur in a text of marks. -/
lemma Foreign.not_infix_of_marks (h : Foreign word) {s : Str} (hs : ∀ c ∈ s, c ∈ marks) :
    ¬ word <:+: s := by
  obtain ⟨c, w, rfl, -⟩ := h.head
  intro hwithin
  have hmem : c ∈ c :: w := List.mem_cons_self ..
  exact h.not_mem (hs c (hwithin.subset hmem)) hmem

/-- A foreign word in a block of lines between brackets stands in one of the lines. -/
lemma Foreign.infix_block_iff (h : Foreign word) {level : ℕ} {left right : Char} {lines : List Str}
    (hleft : left ∈ marks) (hright : right ∈ marks) :
    word <:+: left :: newLine (level + 1) ++
        List.intercalate (',' :: newLine (level + 1)) lines ++ newLine level ++ [right] ↔
      ∃ line ∈ lines, word <:+: line := by
  have hopen : ∀ c ∈ left :: newLine (level + 1), c ∉ word := by
    intro c hc
    rcases List.mem_cons.mp hc with rfl | hc
    · exact h.not_mem hleft
    · exact h.newLine_not_mem c hc
  have hend : newLine level ++ [right] ≠ [] := by simp
  have hclose : ∀ c ∈ newLine level ++ [right], c ∉ word := by
    intro c hc
    rcases List.mem_append.mp hc with hc | hc
    · exact h.newLine_not_mem c hc
    · obtain rfl := List.mem_singleton.mp hc
      exact h.not_mem hright
  have hsep : ∀ c ∈ ',' :: newLine (level + 1), c ∉ word := by
    intro c hc
    rcases List.mem_cons.mp hc with rfl | hc
    · exact h.not_mem (by decide)
    · exact h.newLine_not_mem c hc
  have hsplit : left :: newLine (level + 1) ++
        List.intercalate (',' :: newLine (level + 1)) lines ++ newLine level ++ [right] =
      [] ++ (left :: newLine (level + 1)) ++
        (List.intercalate (',' :: newLine (level + 1)) lines ++ (newLine level ++ [right]) ++
          []) := by
    simp only [List.nil_append, List.append_nil, List.append_assoc]
  rw [hsplit, Str.infix_append_append_iff h.ne_nil (List.cons_ne_nil _ _) hopen,
    Str.infix_append_append_iff h.ne_nil hend hclose,
    Str.infix_intercalate_iff h.ne_nil (List.cons_ne_nil _ _) hsep]
  simp [h.ne_nil]

mutual

/-- **Indented text.** A word that is no part of the syntax of JSON occurs in the text of a value
exactly if it occurs in one of its strings, keys or floats. -/
theorem infix_indented_iff (h : Foreign word) (level : ℕ) :
    ∀ v, word <:+: indented level v ↔ ∃ x ∈ texts v, word <:+: x
  | null => by
    simpa [indented, texts] using h.not_infix (s := "null") (by decide)
  | bool true => by
    simpa [indented, texts] using h.not_infix (s := "true") (by decide)
  | bool false => by
    simpa [indented, texts] using h.not_infix (s := "false") (by decide)
  | int n => by
    have hdigits : ∀ c ∈ Str.decimal n.natAbs, c.isAlphanum = true ∨ c = '-' := by
      intro c hc
      refine Or.inl ?_
      rw [Char.isAlphanum, Str.isDigit_of_mem_decimal hc, Bool.or_true]
    have hchars : ∀ c ∈ indented level (int n), c.isAlphanum = true ∨ c = '-' := by
      intro c hc
      rw [indented] at hc
      split_ifs at hc
      · rcases List.mem_cons.mp hc with rfl | hc
        · exact Or.inr rfl
        · exact hdigits c hc
      · exact hdigits c hc
    simpa [texts] using h.not_infix hchars
  | float r => by simp [indented, texts]
  | str s => by simp [indented, texts, h.infix_quoteAscii_iff]
  | arr [] => by
    have hempty : ¬ word <:+: ['[', ']'] := h.not_infix_of_marks (by decide)
    simpa [indented, texts, textsItems] using hempty
  | arr (v :: vs) => by
    rw [indented, h.infix_block_iff (by decide) (by decide), infix_indentedItems_iff h, texts]
  | obj [] => by
    have hempty : ¬ word <:+: ['{', '}'] := h.not_infix_of_marks (by decide)
    simpa [indented, texts, textsFields] using hempty
  | obj (f :: fs) => by
    rw [indented, h.infix_block_iff (by decide) (by decide), infix_indentedFields_iff h, texts]

/-- The texts of the items of an array. -/
theorem infix_indentedItems_iff (h : Foreign word) (level : ℕ) :
    ∀ vs, (∃ x ∈ indentedItems level vs, word <:+: x) ↔ ∃ x ∈ textsItems vs, word <:+: x
  | [] => Iff.rfl
  | v :: vs => by
    rw [indentedItems, textsItems, List.exists_mem_cons_iff, infix_indented_iff h level v,
      infix_indentedItems_iff h level vs]
    simp only [List.mem_append, or_and_right, exists_or]

/-- The texts of the fields of an object. -/
theorem infix_indentedFields_iff (h : Foreign word) (level : ℕ) :
    ∀ fs, (∃ x ∈ indentedFields level fs, word <:+: x) ↔ ∃ x ∈ textsFields fs, word <:+: x
  | [] => Iff.rfl
  | (k, v) :: fs => by
    rw [indentedFields, textsFields, List.exists_mem_cons_iff, h.infix_field_iff,
      infix_indented_iff h level v, infix_indentedFields_iff h level fs]
    simp only [List.mem_append, List.mem_cons, or_and_right, exists_or, exists_eq_left, or_assoc]

end

end Json
