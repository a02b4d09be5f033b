import VCBrain.Foundation.Pattern
import VCBrain.Foundation.Unicode

set_option relaxedAutoImplicit false
set_option autoImplicit false

/-!
# Redaction of contact data

Before text about a person is sent to an external AI provider, email addresses and phone-like
strings in it are replaced.

## Main definitions

* `redactDirectIdentifiers` — the replacement of both.
* `IsPhone` — what the phone pattern takes for a phone number.

## Main results

* `covers_phone` — the phone pattern finds every such number, or a longer one around it.
* `infix_redactPhones_iff` — the text that survives the replacement of phone numbers.
* `infix_redactEmails_of_infix` — text between square brackets survives the replacement of emails.
-/

namespace VCBrain

section Patterns

variable (ucd : Ucd)

/-- `\w`. -/
def isWord (c : Char) : Bool := ucd.isAlnum c || decide (c = '_')

/-- `[\d ()-]`. -/
def isDial (c : Char) : Bool := ucd.isDecimal c || decide (c ∈ [' ', '(', ')', '-'])

/-- `_EMAIL_PATTERN`. -/
def emailPattern : List PatternItem :=
  [.boundary (isWord ucd), .many 1 fun c => isWord ucd c || decide (c ∈ ['.', '+', '-']),
    .one fun c => decide (c = '@'), .many 1 fun c => isWord ucd c || decide (c ∈ ['.', '-']),
    .one fun c => decide (c = '.'), .many 2 Char.isAlpha, .boundary (isWord ucd)]

/-- `_PHONE_PATTERN`. -/
def phonePattern : List PatternItem :=
  [.notAfter (isWord ucd), .opt fun c => decide (c = '+'), .one ucd.isDecimal,
    .many 7 (isDial ucd), .one ucd.isDecimal, .notBefore (isWord ucd)]

/-- The replacement of email addresses. -/
def redactEmails (value : Str) : Str :=
  Pattern.sub (Pattern.matchLen (emailPattern ucd)) "[REDACTED_EMAIL]" value

/-- The replacement of phone-like strings. -/
def redactPhones (value : Str) : Str :=
  Pattern.sub (Pattern.matchLen (phonePattern ucd)) "[REDACTED_PHONE]" value

/-- `redact_direct_identifiers`. -/
def redactDirectIdentifiers (value : Str) : Str := redactPhones ucd (redactEmails ucd value)

/-! ## Phone numbers -/

/-- At least nine digits, spaces, parentheses and dashes, from a digit to a digit. -/
structure IsNumber (number : Str) : Prop where
  length : 9 ≤ number.length
  first : number.head?.any ucd.isDecimal = true
  last : number.getLast?.any ucd.isDecimal = true
  dial : ∀ c ∈ number, isDial ucd c = true

/-- A number, possibly with a plus sign, between characters that are not of a word. -/
structure IsPhone (prev : Option Char) (span : Str) (next : Option Char) : Prop where
  prev : prev.any (isWord ucd) = false
  number : ∃ plus number, span = plus ++ number ∧ (plus = [] ∨ plus = ['+']) ∧ IsNumber ucd number
  next : next.any (isWord ucd) = false

/-- The spans that the phone pattern describes. -/
def PhoneSpan (prev : Option Char) (span rest : Str) : Prop := IsPhone ucd prev span rest.head?

/-- The text has a phone number in it. -/
def Dialable (x : Str) : Prop :=
  ∃ u span v, x = u ++ span ++ v ∧ IsPhone ucd u.getLast? span v.head?

end Patterns

example : redactDirectIdentifiers .ascii "ada@example.com or +44 20 7946 0000, 12 345" =
    ("[REDACTED_EMAIL] or [REDACTED_PHONE], 12 345" : Str) := by
  decide +kernel

section Phone

variable {ucd : Ucd} {prev : Option Char} {span rest : Str}

lemma not_isDecimal_plus : ucd.isDecimal '+' = false := by
  rw [ucd.isDecimal_ascii '+' (by decide)]
  decide

lemma not_isDial_plus : isDial ucd '+' = false := by
  rw [isDial, not_isDecimal_plus]
  decide

lemma isDial_of_isDecimal {c : Char} (h : ucd.isDecimal c = true) : isDial ucd c = true := by
  rw [isDial, h, Bool.true_or]

/-- The items behind the optional plus sign describe the numbers. -/
private lemma matches_number_iff :
    Pattern.Matches [.one ucd.isDecimal, .many 7 (isDial ucd), .one ucd.isDecimal,
      .notBefore (isWord ucd)] prev span rest ↔
      IsNumber ucd span ∧ rest.head?.any (isWord ucd) = false := by
  constructor
  · rintro ⟨c, t, rfl, hc, u, t', rfl, hlen, hu, e, t'', rfl, he, hnext, rfl⟩
    refine ⟨⟨?_, hc, ?_, fun x hx => ?_⟩, hnext⟩
    · simp only [List.length_cons, List.length_append, List.length_nil]
      omega
    · rw [← List.cons_append, List.getLast?_concat]
      exact he
    · rcases List.mem_cons.mp hx with rfl | hx
      · exact isDial_of_isDecimal hc
      · rcases List.mem_append.mp hx with hx | hx
        · exact hu x hx
        · rw [List.mem_singleton.mp hx]
          exact isDial_of_isDecimal he
  · rintro ⟨⟨hlen, hfirst, hlast, hdial⟩, hnext⟩
    cases span with
    | nil => cases hfirst
    | cons c t =>
      rcases List.eq_nil_or_concat t with rfl | ⟨u, e, rfl⟩
      · simp at hlen
      · rw [List.concat_eq_append] at hlen hlast hdial ⊢
        rw [← List.cons_append, List.getLast?_concat] at hlast
        refine ⟨c, u ++ [e], rfl, hfirst, u, [e], rfl, ?_, fun x hx => ?_, e, [], rfl, hlast,
          hnext, rfl⟩
        · simp only [List.length_cons, List.length_append, List.length_nil] at hlen
          omega
        · exact hdial x (List.mem_cons_of_mem c (List.mem_append_left _ hx))

/-- The pattern describes the phone numbers. -/
lemma matches_phone_iff :
    Pattern.Matches (phonePattern ucd) prev span rest ↔ IsPhone ucd prev span rest.head? := by
  constructor
  · rintro ⟨hprev, ⟨c, t, rfl, hc, hnumber⟩ | hnumber⟩
    · obtain ⟨hnumber, hnext⟩ := matches_number_iff.mp hnumber
      exact ⟨hprev, ⟨[c], t, rfl, Or.inr (by rw [of_decide_eq_true hc]), hnumber⟩, hnext⟩
    · obtain ⟨hnumber, hnext⟩ := matches_number_iff.mp hnumber
      exact ⟨hprev, ⟨[], span, rfl, Or.inl rfl, hnumber⟩, hnext⟩
  · rintro ⟨hprev, ⟨plus, number, rfl, rfl | rfl, hnumber⟩, hnext⟩
    · exact ⟨hprev, Or.inr (matches_number_iff.mpr ⟨hnumber, hnext⟩)⟩
    · exact ⟨hprev, Or.inl ⟨'+', number, rfl, rfl, matches_number_iff.mpr ⟨hnumber, hnext⟩⟩⟩

/-- The pattern finds the longest phone number. -/
lemma longest_phone : Pattern.Longest (phonePattern ucd) := by
  have hwidth : Pattern.FixedWidth [.one ucd.isDecimal, .notBefore (isWord ucd)] 1 :=
    .one (.notBefore Pattern.fixedWidth_nil)
  refine Pattern.Longest.notAfter (Pattern.Longest.opt (Pattern.Longest.one
    (Pattern.longest_many hwidth)) (fun prev c t rest hc hmatches => ?_)
    fun prev rest hmatches => ?_)
  · obtain ⟨c', t', heq, hc', -⟩ := hmatches
    obtain ⟨rfl, -⟩ := List.cons.inj heq
    rw [of_decide_eq_true hc, not_isDecimal_plus] at hc'
    cases hc'
  · obtain ⟨c', t', heq, -⟩ := hmatches
    cases heq

/-- Two numbers that overlap make up a number. -/
lemma IsNumber.glue {x y z : Str} (hy : y ≠ []) (hleft : IsNumber ucd (x ++ y))
    (hright : IsNumber ucd (y ++ z)) : IsNumber ucd (x ++ (y ++ z)) where
  length := by
    have hle := hright.length
    rw [List.length_append]
    omega
  first := by
    have hxy : x ++ y ≠ [] := List.append_ne_nil_of_right_ne_nil x hy
    rw [← List.append_assoc, List.head?_append_of_ne_nil _ hxy]
    exact hleft.first
  last := by
    rw [List.getLast?_append_of_ne_nil _ (List.append_ne_nil_of_left_ne_nil hy z)]
    exact hright.last
  dial c hc := by
    rcases List.mem_append.mp hc with hc | hc
    · exact hleft.dial c (List.mem_append_left y hc)
    · exact hright.dial c hc

/-- A phone number that begins inside another one, and not at its beginning, has no plus sign. -/
private lemma isNumber_of_inner {number y z : Str} {next : Option Char}
    (hphone : IsPhone ucd prev (y ++ z) next) (hy : y ≠ []) (hsuffix : y <:+ number)
    (hnumber : IsNumber ucd number) : IsNumber ucd (y ++ z) := by
  obtain ⟨-, ⟨plus, inner, heq, rfl | rfl, hinner⟩, -⟩ := hphone
  · rw [heq]
    exact hinner
  · obtain ⟨c, y', rfl⟩ := List.exists_cons_of_ne_nil hy
    obtain ⟨rfl, -⟩ := List.cons.inj heq
    have hdial := hnumber.dial '+' (hsuffix.subset (List.mem_cons_self ..))
    rw [not_isDial_plus] at hdial
    cases hdial

/-- A phone number that begins inside another one makes up a longer one with it. -/
private lemma isPhone_glue {a y z : Str} {next next' : Option Char} {prev' : Option Char}
    (ha : a ≠ []) (hy : y ≠ []) (hleft : IsPhone ucd prev (a ++ y) next)
    (hright : IsPhone ucd prev' (y ++ z) next') : IsPhone ucd prev (a ++ (y ++ z)) next' := by
  obtain ⟨hprev, ⟨plus, number, heq, hplus, hnumber⟩, -⟩ := hleft
  refine ⟨hprev, ?_, hright.next⟩
  obtain ⟨x, rfl, rfl⟩ : ∃ x, a = plus ++ x ∧ number = x ++ y := by
    rcases hplus with rfl | rfl
    · exact ⟨a, rfl, heq.symm⟩
    · obtain ⟨c, x, rfl⟩ := List.exists_cons_of_ne_nil ha
      obtain ⟨rfl, hx⟩ := List.cons.inj heq
      exact ⟨x, rfl, hx.symm⟩
  have hinner := isNumber_of_inner hright hy (List.suffix_append x y) hnumber
  exact ⟨plus, x ++ (y ++ z), by rw [List.append_assoc], hplus, hnumber.glue hy hinner⟩

/-- **Phone numbers are covered.** The pattern finds a phone number wherever one begins, and no
phone number reaches out of what it finds.

**Proof sketch.** It finds the longest one. A phone number that began inside it and ended behind it
would make up a longer one with it. -/
theorem covers_phone :
    Pattern.Covers (Pattern.matchLen (phonePattern ucd)) (PhoneSpan ucd) where
  sound prev s n hn := by
    obtain ⟨span, rest, hs, hlen, hspan⟩ := Pattern.matches_of_matchLen hn
    exact ⟨span, rest, hs, hlen, matches_phone_iff.mp hspan⟩
  complete prev span rest hne hspan := by
    have hmatches := matches_phone_iff.mpr hspan
    obtain ⟨n, hn⟩ := Pattern.exists_matchLen hmatches
    have hle := longest_phone _ _ _ hn span rest rfl hmatches
    have hpos := List.length_pos_iff.mpr hne
    exact ⟨n - 1, by rw [hn, Nat.sub_add_cancel (by omega)]⟩
  cover prev sp rest a span b hfound heq hlt hspan := by
    obtain ⟨sp', rest', hsplit, hlen, hsp⟩ := Pattern.matches_of_matchLen hfound
    obtain ⟨rfl, rfl⟩ := List.append_inj hsplit hlen.symm
    by_cases ha : a = []
    · subst ha
      have hle := longest_phone _ _ _ hfound span b heq (matches_phone_iff.mpr hspan)
      simpa using hle
    · obtain ⟨y, rfl⟩ : ∃ y, sp = a ++ y := by
        rw [List.append_assoc a] at heq
        have hinit : a <+: sp ++ rest := ⟨span ++ b, heq.symm⟩
        obtain ⟨y, hy⟩ := List.prefix_of_prefix_length_le hinit (List.prefix_append sp rest)
          hlt.le
        exact ⟨y, hy.symm⟩
      by_contra hlong
      rw [List.length_append] at hlt hlong
      rw [List.append_assoc, List.append_assoc] at heq
      have htail := List.append_cancel_left heq
      obtain ⟨z, rfl⟩ : ∃ z, span = y ++ z := by
        have hinit : y <+: span ++ b := ⟨rest, htail⟩
        obtain ⟨z, hz⟩ := List.prefix_of_prefix_length_le hinit (List.prefix_append span b)
          (by omega)
        exact ⟨z, hz.symm⟩
      have hy : y ≠ [] := List.length_pos_iff.mp (by omega)
      have hglued := isPhone_glue ha hy (matches_phone_iff.mp hsp) hspan
      have hle := longest_phone _ _ _ hfound (a ++ (y ++ z)) b
        (by rw [List.append_assoc, htail]; simp) (matches_phone_iff.mpr hglued)
      simp only [List.length_append] at hle hlong
      omega

/-- Text without a character of the replacement survives the replacement of phone numbers exactly if
it occurs at a place that none of them overlaps. -/
lemma infix_redactPhones_iff {x s : Str} (hx : x ≠ [])
    (hrepl : ∀ c ∈ "[REDACTED_PHONE]".toList, c ∉ x) :
    x <:+: redactPhones ucd s ↔ Pattern.StandsFree (PhoneSpan ucd) none x s :=
  Pattern.infix_sub_iff covers_phone hx (by decide) hrepl

/-! ## Text between square brackets -/

lemma not_isWord_of_mem {c : Char} (h : c ∈ ['[', ']']) : isWord ucd c = false := by
  have hascii : c.toNat < 128 ∧ c.isAlphanum = false ∧ c ≠ '_' := by
    rcases List.mem_pair.mp h with rfl | rfl <;> decide
  rw [isWord, ucd.isAlnum_ascii c hascii.1, hascii.2.1, decide_eq_false hascii.2.2]
  rfl

/-- An email address has an at sign. -/
lemma at_mem_of_email (h : Pattern.Matches (emailPattern ucd) prev span rest) : '@' ∈ span := by
  obtain ⟨-, u, t, rfl, -, -, c, t', rfl, hc, -⟩ := h
  rw [of_decide_eq_true hc]
  exact List.mem_append_right u (List.mem_cons_self ..)

/-- An email address has no square brackets. -/
lemma bracket_notMem_of_email {c : Char} (hc : c ∈ ['[', ']'])
    (h : Pattern.Matches (emailPattern ucd) prev span rest) : c ∉ span := by
  intro hmem
  obtain ⟨item, hitem, htakes⟩ := Pattern.exists_takes_of_matches h hmem
  have hword : isWord ucd c = false := not_isWord_of_mem hc
  have hsign : c ∉ ['@', '.', '+', '-'] ∧ c.isAlpha = false := by
    rcases List.mem_pair.mp hc with rfl | rfl <;> decide
  simp only [emailPattern, List.mem_cons, List.not_mem_nil, or_false] at hitem hsign
  rcases hitem with rfl | rfl | rfl | rfl | rfl | rfl | rfl <;>
    simp_all [PatternItem.takes]

/-- A phone number has no square brackets. -/
lemma bracket_notMem_of_phone {c : Char} (hc : c ∈ ['[', ']']) (h : PhoneSpan ucd prev span rest) :
    c ∉ span := by
  intro hmem
  obtain ⟨item, hitem, htakes⟩ := Pattern.exists_takes_of_matches (matches_phone_iff.mpr h) hmem
  have hdecimal : ucd.isDecimal c = false := by
    rw [ucd.isDecimal_ascii c (by rcases List.mem_pair.mp hc with rfl | rfl <;> decide)]
    rcases List.mem_pair.mp hc with rfl | rfl <;> decide
  have hsign : c ∉ ['+', ' ', '(', ')', '-'] := by
    rcases List.mem_pair.mp hc with rfl | rfl <;> decide
  simp only [phonePattern, List.mem_cons, List.not_mem_nil, or_false] at hitem hsign
  rcases hitem with rfl | rfl | rfl | rfl | rfl | rfl <;>
    simp_all [PatternItem.takes, isDial]

/-- Text without an at sign between square brackets survives the replacement of email addresses. -/
lemma infix_redactEmails_of_infix {x s : Str} (hx : '@' ∉ x) (h : '[' :: x ++ [']'] <:+: s) :
    '[' :: x ++ [']'] <:+: redactEmails ucd s := by
  have hsound : Pattern.Sound (Pattern.matchLen (emailPattern ucd))
      (Pattern.Matches (emailPattern ucd)) := fun prev s n hn => Pattern.matches_of_matchLen hn
  refine Pattern.infix_sub_of_standsFree hsound (List.cons_ne_nil _ _) ?_
  refine Pattern.standsFree_of_marked (fun prev span rest hspan => ?_)
    (fun u span v hsplit hne post hspan => ?_) h
  · exact ⟨bracket_notMem_of_email (by decide) hspan, bracket_notMem_of_email (by decide) hspan⟩
  · rw [hsplit] at hx
    exact hx (List.mem_append_left v (List.mem_append_right u (at_mem_of_email hspan)))

/-- Text without a phone number in it survives between square brackets the replacement of phone
numbers. -/
lemma infix_redactPhones_of_infix {x s : Str} (hx : ¬ Dialable ucd x)
    (h : '[' :: x ++ [']'] <:+: s) : '[' :: x ++ [']'] <:+: redactPhones ucd s := by
  refine Pattern.infix_sub_of_standsFree covers_phone.sound (List.cons_ne_nil _ _) ?_
  refine Pattern.standsFree_of_marked (fun prev span rest hspan => ?_)
    (fun u span v hsplit hne post hspan => ?_) h
  · exact ⟨bracket_notMem_of_phone (by decide) hspan, bracket_notMem_of_phone (by decide) hspan⟩
  · -- the marks are no characters of a word, so the number is one in the text alone
    refine hx ⟨u, span, v, hsplit, ?_, hspan.number, ?_⟩
    · cases hu : u.getLast? with
      | none => rfl
      | some c => simpa [hu] using hspan.prev
    · cases v with
      | nil => rfl
      | cons c v => exact hspan.next

end Phone

/-! ## Identifiers -/

/-- Neighbouring groups of the UUID, nine characters or more, are made up of decimal digits. That is
the last group, or any two neighbouring ones. -/
def HasNumber (u : Uuid) : Prop :=
  ∃ gs, gs <:+: u.groups ∧ 9 ≤ (List.intercalate ['-'] gs).length ∧
    ∀ g ∈ gs, ∀ c ∈ g, c.isDigit = true

section Identifier

variable {ucd : Ucd} {u : Uuid}

lemma isWord_hexDigit {d : ℕ} (hd : d < 16) : isWord ucd (Str.hexDigit d) = true := by
  have key : ∀ d < 16, (Str.hexDigit d).toNat < 128 ∧ (Str.hexDigit d).isAlphanum = true := by
    decide
  rw [isWord, ucd.isAlnum_ascii _ (key d hd).1, (key d hd).2, Bool.true_or]

lemma isDecimal_hexDigit {d : ℕ} (hd : d < 16) :
    ucd.isDecimal (Str.hexDigit d) = (Str.hexDigit d).isDigit := by
  have key : ∀ d < 16, (Str.hexDigit d).toNat < 128 := by decide
  exact ucd.isDecimal_ascii _ (key d hd)

lemma isDial_hexDigit {d : ℕ} (hd : d < 16) :
    isDial ucd (Str.hexDigit d) = (Str.hexDigit d).isDigit := by
  have key : ∀ d < 16, Str.hexDigit d ∉ [' ', '(', ')', '-'] := by decide
  rw [isDial, isDecimal_hexDigit hd, decide_eq_false (key d hd), Bool.or_false]

/-- Only dashes separate the words of a UUID. -/
private lemma eq_dash_of_mem_str {c : Char} (hc : c ∈ Uuid.str u) (h : isWord ucd c = false) :
    c = '-' := by
  rcases Uuid.eq_dash_or_of_mem_str hc with rfl | ⟨d, hd, rfl⟩
  · rfl
  · rw [isWord_hexDigit hd] at h
    cases h

/-- The groups of a UUID that a span between dashes consists of. -/
private lemma infix_groups {a span b : Str} (h : Uuid.str u = a ++ span ++ b)
    (ha : ∀ c, a.getLast? = some c → c = '-') (hb : ∀ c, b.head? = some c → c = '-') :
    List.splitOn '-' span <:+: u.groups := by
  rw [← Uuid.splitOn_str, h]
  have hleft : List.splitOn '-' (a ++ span) <:+: List.splitOn '-' (a ++ span ++ b) := by
    cases b with
    | nil => rw [List.append_nil]
    | cons c b =>
      rw [hb c rfl, List.splitOn_append_cons_self]
      exact (List.prefix_append _ _).isInfix
  refine List.IsInfix.trans ?_ hleft
  rcases List.eq_nil_or_concat a with rfl | ⟨a, c, rfl⟩
  · exact List.infix_rfl
  · rw [List.concat_eq_append, ha c (by simp), List.append_assoc, List.singleton_append,
      List.splitOn_append_cons_self]
    exact (List.suffix_append _ _).isInfix

/-- Decimal groups between dashes are a number. -/
private lemma isNumber_intercalate {gs : List Str} (hne : ∀ g ∈ gs, g ≠ [])
    (hdecimal : ∀ g ∈ gs, ∀ c ∈ g, ucd.isDecimal c = true)
    (hlen : 9 ≤ (List.intercalate ['-'] gs).length) :
    IsNumber ucd (List.intercalate ['-'] gs) where
  length := hlen
  first := by
    cases gs with
    | nil => simp at hlen
    | cons g gs =>
      obtain ⟨c, g, rfl⟩ := List.exists_cons_of_ne_nil (hne g (List.mem_cons_self ..))
      have hc := hdecimal _ (List.mem_cons_self ..) c (List.mem_cons_self ..)
      cases gs with
      | nil => simpa using hc
      | cons g' gs => simpa using hc
  last := by
    rcases List.eq_nil_or_concat gs with rfl | ⟨gs, g, rfl⟩
    · simp at hlen
    · rw [List.concat_eq_append] at hne hdecimal ⊢
      have hmem : g ∈ gs ++ [g] := by simp
      have hlast : (List.intercalate ['-'] (gs ++ [g])).getLast? = g.getLast? := by
        cases gs with
        | nil => simp
        | cons g' gs =>
          rw [Str.intercalate_append (List.cons_ne_nil _ _) (List.cons_ne_nil _ _),
            List.intercalate_singleton, List.getLast?_append_of_ne_nil _ (hne g hmem)]
      obtain ⟨c, hc⟩ := Option.ne_none_iff_exists'.mp (mt List.getLast?_eq_none_iff.mp (hne g hmem))
      rw [hlast, hc]
      exact hdecimal g hmem c (List.mem_of_getLast? hc)
  dial c hc := by
    rcases Str.mem_or_exists_of_mem_intercalate hc with hdash | ⟨g, hg, hc⟩
    · rw [List.mem_singleton.mp hdash, isDial]
      exact Bool.or_eq_true_iff.mpr (Or.inr (by decide))
    · exact isDial_of_isDecimal (hdecimal g hg c hc)

/-- Neighbouring groups of a UUID are a span between dashes. -/
private lemma exists_span_of_infix {gs : List Str} (hne : gs ≠ []) (h : gs <:+: u.groups) :
    ∃ a b, Uuid.str u = a ++ List.intercalate ['-'] gs ++ b ∧
      (∀ c, a.getLast? = some c → c = '-') ∧ ∀ c, b.head? = some c → c = '-' := by
  obtain ⟨p, q, hgroups⟩ := h
  obtain ⟨a, ha, hleft⟩ : ∃ a, (∀ c, a.getLast? = some c → c = '-') ∧
      List.intercalate ['-'] (p ++ gs) = a ++ List.intercalate ['-'] gs := by
    by_cases hp : p = []
    · exact ⟨[], by simp, by rw [hp]; rfl⟩
    · refine ⟨List.intercalate ['-'] p ++ ['-'], fun c hc => ?_, Str.intercalate_append hp hne⟩
      rw [List.getLast?_concat] at hc
      exact (Option.some.inj hc).symm
  rw [Uuid.str_eq_intercalate, ← hgroups]
  by_cases hq : q = []
  · exact ⟨a, [], by rw [hq, List.append_nil, List.append_nil, hleft], ha, by simp⟩
  · refine ⟨a, '-' :: List.intercalate ['-'] q, ?_, ha, fun c hc => (Option.some.inj hc).symm⟩
    rw [Str.intercalate_append (by simp [hne]) hq, hleft, List.append_assoc, List.singleton_append]

/-- **Phone numbers in a UUID.** The phone pattern finds a number in a UUID exactly if neighbouring
groups of at least nine characters are decimal.

**Proof sketch.** A number begins and ends at a dash or at an end of the UUID, so it consists of
whole groups. -/
lemma dialable_str_iff : Dialable ucd (Uuid.str u) ↔ HasNumber u := by
  constructor
  · rintro ⟨a, span, b, hsplit, hprev, ⟨plus, number, hspan, hplus, hnumber⟩, hnext⟩
    have hmem : ∀ c ∈ span, c ∈ Uuid.str u := by
      intro c hc
      rw [hsplit]
      exact List.mem_append_left b (List.mem_append_right a hc)
    obtain rfl : span = number := by
      rcases hplus with rfl | rfl
      · exact hspan
      · rw [hspan] at hmem
        exact absurd (hmem '+' (List.mem_cons_self ..)) (Uuid.notMem_str (by decide))
    have hgroups : List.splitOn '-' span <:+: u.groups := by
      refine infix_groups hsplit (fun c hc => ?_) fun c hc => ?_
      · have hword : isWord ucd c = false := by simpa [hc] using hprev
        have hcmem : c ∈ Uuid.str u := by
          rw [hsplit]
          exact List.mem_append_left b (List.mem_append_left span (List.mem_of_getLast? hc))
        exact eq_dash_of_mem_str hcmem hword
      · have hword : isWord ucd c = false := by simpa [hc] using hnext
        have hcmem : c ∈ Uuid.str u := by
          rw [hsplit]
          exact List.mem_append_right _ (List.mem_of_mem_head? hc)
        exact eq_dash_of_mem_str hcmem hword
    refine ⟨List.splitOn '-' span, hgroups, ?_, fun g hg c hc => ?_⟩
    · rw [List.intercalate_splitOn]
      exact hnumber.length
    · have hspan : c ∈ span := by
        have hpart : g <:+: List.intercalate ['-'] (List.splitOn '-' span) :=
          Str.infix_intercalate hg
        rw [List.intercalate_splitOn] at hpart
        exact hpart.subset hc
      obtain ⟨d, hd, rfl⟩ := Uuid.exists_of_mem_groups (hgroups.subset hg) hc
      have hdial := hnumber.dial _ hspan
      rwa [isDial_hexDigit hd] at hdial
  · rintro ⟨gs, hgs, hlen, hdigits⟩
    have hne : gs ≠ [] := by
      intro hnil
      simp [hnil] at hlen
    have hdecimal : ∀ g ∈ gs, ∀ c ∈ g, ucd.isDecimal c = true := by
      intro g hg c hc
      obtain ⟨d, hd, rfl⟩ := Uuid.exists_of_mem_groups (hgs.subset hg) hc
      rw [isDecimal_hexDigit hd]
      exact hdigits g hg _ hc
    obtain ⟨a, b, hsplit, ha, hb⟩ := exists_span_of_infix hne hgs
    have hdash : isWord ucd '-' = false := by
      rw [isWord, ucd.isAlnum_ascii '-' (by decide)]
      decide
    refine ⟨a, List.intercalate ['-'] gs, b, hsplit, ?_, ⟨[], _, rfl, Or.inl rfl, ?_⟩, ?_⟩
    · cases h : a.getLast? with
      | none => rfl
      | some c => rw [ha c h, Option.any_some, hdash]
    · exact isNumber_intercalate (fun g hg => Uuid.ne_nil_of_mem_groups (hgs.subset hg)) hdecimal
        hlen
    · cases h : b.head? with
      | none => rfl
      | some c => rw [hb c h, Option.any_some, hdash]

end Identifier

end VCBrain
