import VCBrain.Foundation.Remnant
import VCBrain.Redaction

set_option relaxedAutoImplicit false
set_option autoImplicit false

/-!
# Laws of the redaction

What the redaction leaves has no email address and no phone number in it, so redacting it once more
changes nothing.

## Main definitions

* `Bounded` — what the matches of both patterns have in common at their edges.

## Main results

* `email_edges`, `phone_edges` — the characters at the edges of an address and of a number.
* `email_of_remnant` — an address that a replacement has left was one before.
* `not_email_of_redactEmails`, `not_phone_of_redactPhones` — each replacement removes what it is
  for.
* `redactDirectIdentifiers_complete` — the redaction is complete and idempotent.

## Design

A match in redacted text has no bracket, so it stood in the text before, where it would have been
found unless one of its neighbours was another match. The neighbours decide it: an email address
ends in a letter in front of a character that is not of a word, and a phone number ends in a digit
there.
-/

namespace VCBrain

variable {ucd : Ucd} {prev next : Option Char} {span rest a x b s : Str}

/-! ## Edges -/

/-- The letters of the pattern are of ASCII and no digits. -/
lemma ascii_of_isAlpha {c : Char} (h : c.isAlpha = true) : c.toNat < 128 ∧ c.isDigit = false := by
  delta Char.isAlpha Char.isUpper Char.isLower at h
  simp only [Bool.or_eq_true, Bool.and_eq_true, decide_eq_true_eq, ge_iff_le,
    UInt32.le_iff_toNat_le] at h
  have hrange : (65 ≤ c.toNat ∧ c.toNat ≤ 90) ∨ (97 ≤ c.toNat ∧ c.toNat ≤ 122) := h
  refine ⟨by omega, Bool.eq_false_iff.mpr fun hdigit => ?_⟩
  simp only [Char.isDigit, Bool.and_eq_true, decide_eq_true_eq, ge_iff_le,
    UInt32.le_iff_toNat_le] at hdigit
  have hd : 48 ≤ c.toNat ∧ c.toNat ≤ 57 := hdigit
  omega

/-- Letters of ASCII are characters of a word. -/
lemma isWord_of_isAlpha {c : Char} (h : c.isAlpha = true) : isWord ucd c = true := by
  rw [isWord, ucd.isAlnum_ascii c (ascii_of_isAlpha h).1, Char.isAlphanum, h]
  rfl

/-- Decimal digits are characters of a word. -/
lemma isWord_of_isDecimal {c : Char} (h : ucd.isDecimal c = true) : isWord ucd c = true := by
  rw [isWord, ucd.isAlnum_of_isDecimal c h, Bool.true_or]

/-- The characters in front of the at sign of an email address. -/
def isUser (ucd : Ucd) (c : Char) : Bool := isWord ucd c || decide (c ∈ ['.', '+', '-'])

/-- The characters behind the at sign of an email address. -/
def isHost (ucd : Ucd) (c : Char) : Bool := isWord ucd c || decide (c ∈ ['.', '-'])

/-- The text of an email address. -/
def address (user host top : Str) : Str := user ++ '@' :: (host ++ '.' :: top)

/-- The parts of an email address: a user, a host and at least two letters. -/
structure IsAddress (ucd : Ucd) (user host top : Str) : Prop where
  user_ne_nil : user ≠ []
  isUser : ∀ c ∈ user, isUser ucd c = true
  host_ne_nil : host ≠ []
  isHost : ∀ c ∈ host, isHost ucd c = true
  length_top : 2 ≤ top.length
  isAlpha : ∀ c ∈ top, c.isAlpha = true

variable {user host top : Str}

/-- An address ends in a letter. -/
lemma IsAddress.getLast?_top (h : IsAddress ucd user host top) :
    ∃ c, top.getLast? = some c ∧ c.isAlpha = true := by
  have hne : top ≠ [] := List.length_pos_iff.mp (by have := h.length_top; omega)
  obtain ⟨c, hc⟩ := Option.ne_none_iff_exists'.mp (mt List.getLast?_eq_none_iff.mp hne)
  exact ⟨c, hc, h.isAlpha c (List.mem_of_getLast? hc)⟩

lemma IsAddress.getLast? (h : IsAddress ucd user host top) :
    ∃ c, (address user host top).getLast? = some c ∧ c.isAlpha = true := by
  obtain ⟨c, hc, hletter⟩ := h.getLast?_top
  have hsplit : address user host top = (user ++ '@' :: (host ++ ['.'])) ++ top := by
    simp [address]
  refine ⟨c, ?_, hletter⟩
  rw [hsplit, List.getLast?_append, hc, Option.some_or]

lemma head?_address_append (rest : Str) :
    (address user host top ++ rest).head? = (address user host top).head? :=
  List.head?_append_of_ne_nil _ (List.append_ne_nil_of_right_ne_nil user (List.cons_ne_nil _ _))

/-- The pattern describes the addresses that have a character of a word on one side of their
beginning and none behind their end. -/
lemma matches_email_iff : Pattern.Matches (emailPattern ucd) prev span rest ↔
    prev.any (isWord ucd) ≠ span.head?.any (isWord ucd) ∧
      (∃ user host top, span = address user host top ∧ IsAddress ucd user host top) ∧
      rest.head?.any (isWord ucd) = false := by
  constructor
  · rintro ⟨hstart, u, t, rfl, hu, huser, c, t', rfl, hc, v, t, rfl, hv, hhost, d, t', rfl, hd, w,
      t, rfl, hw, halpha, hend, rfl⟩
    obtain rfl : c = '@' := of_decide_eq_true hc
    obtain rfl : d = '.' := of_decide_eq_true hd
    have h : IsAddress ucd u v w :=
      ⟨List.length_pos_iff.mp hu, huser, List.length_pos_iff.mp hv, hhost, hw, halpha⟩
    have hspan : u ++ '@' :: (v ++ '.' :: (w ++ [])) = address u v w := by
      rw [List.append_nil, address]
    rw [hspan, head?_address_append] at hstart
    refine ⟨by rwa [hspan], ⟨u, v, w, hspan, h⟩, ?_⟩
    obtain ⟨e, he, hletter⟩ := h.getLast?_top
    rw [he, Option.some_or, Option.any_some, isWord_of_isAlpha hletter, List.nil_append] at hend
    exact Bool.eq_false_iff.mpr hend.symm
  · rintro ⟨hstart, ⟨user, host, top, rfl, h⟩, hnext⟩
    refine ⟨by rwa [head?_address_append], user, _, rfl, List.length_pos_iff.mpr h.user_ne_nil,
      h.isUser, '@', _, rfl, rfl, host, _, rfl, List.length_pos_iff.mpr h.host_ne_nil, h.isHost,
      '.', _, rfl, rfl, top, [], (List.append_nil top).symm, h.length_top, h.isAlpha, ?_, rfl⟩
    obtain ⟨e, he, hletter⟩ := h.getLast?_top
    rw [he, Option.some_or, Option.any_some, isWord_of_isAlpha hletter, List.nil_append, hnext]
    exact Bool.noConfusion

/-- An email address has a character of a word on one side of its beginning. It ends in such a
character and none follows. -/
lemma email_edges (h : Pattern.Matches (emailPattern ucd) prev span rest) :
    prev.any (isWord ucd) ≠ span.head?.any (isWord ucd) ∧
      span.getLast?.any (isWord ucd) = true ∧ rest.head?.any (isWord ucd) = false := by
  obtain ⟨hstart, ⟨user, host, top, rfl, haddress⟩, hnext⟩ := matches_email_iff.mp h
  obtain ⟨c, hc, halpha⟩ := haddress.getLast?
  exact ⟨hstart, by rw [hc]; exact isWord_of_isAlpha halpha, hnext⟩

lemma isWord_ascii {c : Char} (h : c.toNat < 128) :
    isWord ucd c = (c.isAlphanum || decide (c = '_')) := by
  rw [isWord, ucd.isAlnum_ascii c h]

lemma not_isUser_at : isUser ucd '@' = false := by
  rw [isUser, isWord_ascii (by decide)]
  decide

lemma not_isHost_of_mem {c : Char} (h : c ∈ ['@', '+']) : isHost ucd c = false := by
  rcases List.mem_pair.mp h with rfl | rfl <;>
  · rw [isHost, isWord_ascii (by decide)]
    decide

/-- The first of two texts that make up the same one contains what stands behind a shorter one. -/
private lemma mem_of_append_eq {c : Char} {u u' t t' : Str} (h : u ++ c :: t = u' ++ t')
    (hlt : u.length < u'.length) : c ∈ u' := by
  rcases List.append_eq_append_iff.mp h with ⟨d, rfl, hd⟩ | ⟨d, rfl, -⟩
  · cases d with
    | nil => simp at hlt
    | cons e d =>
      obtain ⟨rfl, -⟩ := List.cons.inj hd
      exact List.mem_append_right u (List.mem_cons_self ..)
  · rw [List.length_append] at hlt
    omega

/-- The pattern finds the longest email address. -/
lemma longest_email : Pattern.Longest (emailPattern ucd) := by
  have htop : Pattern.Longest [.many 2 Char.isAlpha, .boundary (isWord ucd)] :=
    Pattern.longest_many (.boundary Pattern.fixedWidth_nil)
  refine (((htop.one.many ?_).one).many ?_).boundary
  · -- a longer host ends behind the dot of a shorter one, and so behind the letters there
    rintro prev prev' u _ rest u' _ rest' heq - ⟨c, _, rfl, hc, w, t, rfl, -, halpha, -, rfl⟩
      ⟨d, t', rfl, hd, -⟩ hlt
    obtain rfl : c = '.' := of_decide_eq_true hc
    obtain rfl : d = '.' := of_decide_eq_true hd
    rw [List.append_nil, List.append_assoc, List.append_assoc] at heq
    obtain ⟨x, rfl, hx⟩ : ∃ x, u' = u ++ '.' :: x ∧ w ++ rest = x ++ '.' :: (t' ++ rest') := by
      rcases List.append_eq_append_iff.mp heq with ⟨x, rfl, hx⟩ | ⟨x, rfl, -⟩
      · cases x with
        | nil => simp at hlt
        | cons e x =>
          obtain ⟨rfl, htail⟩ := List.cons.inj hx
          exact ⟨x, rfl, htail⟩
      · rw [List.length_append] at hlt
        omega
    have hle : w.length ≤ x.length := by
      by_contra hgt
      have hdot := halpha '.' (mem_of_append_eq hx.symm (by omega))
      exact absurd hdot (by decide)
    simp only [List.append_nil, List.length_append, List.length_cons]
    omega
  · rintro prev prev' u _ rest u' _ rest' heq huser ⟨c, t, rfl, hc, -⟩ - hlt
    obtain rfl : c = '@' := of_decide_eq_true hc
    rw [List.append_assoc, List.append_assoc] at heq
    have hat : isUser ucd '@' = true := huser '@' (mem_of_append_eq heq hlt)
    rw [not_isUser_at] at hat
    cases hat

/-- A phone number ends in a digit, and no character of a word is next to it. -/
lemma phone_edges (h : IsPhone ucd prev span next) :
    prev.any (isWord ucd) = false ∧ span.getLast?.any (isWord ucd) = true ∧
      next.any (isWord ucd) = false := by
  refine ⟨h.prev, ?_, h.next⟩
  obtain ⟨plus, number, rfl, -, hnumber⟩ := h.number
  have hne : number ≠ [] := List.length_pos_iff.mp (by have := hnumber.length; omega)
  rw [List.getLast?_append_of_ne_nil _ hne]
  obtain ⟨c, hc, hdigit⟩ := (Option.any_eq_true _ _).mp hnumber.last
  rw [hc]
  exact isWord_of_isDecimal hdigit

/-! ## What the replacements leave -/

lemma sound_email : Pattern.Sound (Pattern.matchLen (emailPattern ucd))
    (Pattern.Matches (emailPattern ucd)) :=
  fun _ _ _ h => Pattern.matches_of_matchLen h

/-- The pattern finds an email address wherever there is one. -/
lemma exists_matchLen_email (h : Pattern.Matches (emailPattern ucd) prev span rest) :
    ∃ n, Pattern.matchLen (emailPattern ucd) prev (span ++ rest) = some (n + 1) := by
  obtain ⟨n, hn⟩ := Pattern.exists_matchLen h
  obtain ⟨span', rest', -, rfl, hspan'⟩ := Pattern.matches_of_matchLen hn
  have hpos := List.length_pos_of_mem (at_mem_of_email hspan')
  exact ⟨span'.length - 1, by rw [hn, Nat.sub_add_cancel hpos]⟩

/-- An email address depends on its neighbours only by whether they are of a word. -/
lemma email_congr {prev' : Option Char} {rest' : Str}
    (hprev : prev.any (isWord ucd) = prev'.any (isWord ucd))
    (hnext : rest.head?.any (isWord ucd) = rest'.head?.any (isWord ucd))
    (h : Pattern.Matches (emailPattern ucd) prev span rest) :
    Pattern.Matches (emailPattern ucd) prev' span rest' :=
  h.congr (by simp [emailPattern, PatternItem.Looks]) hprev hnext

lemma ne_nil_of_email (h : Pattern.Matches (emailPattern ucd) prev span rest) : span ≠ [] :=
  List.ne_nil_of_mem (at_mem_of_email h)

/-- An email address is not part of a replacement. -/
lemma not_infix_of_email {mid : Str} (hmid : '@' ∉ mid)
    (h : Pattern.Matches (emailPattern ucd) prev span rest) : ¬ span <:+: mid :=
  fun hwithin => hmid (hwithin.subset (at_mem_of_email h))

/-- The matches of a kind are not followed by a character of a word, and behind one they do not
begin with one. -/
def Bounded (ucd : Ucd) (M : Option Char → Str → Str → Prop) : Prop :=
  ∀ prev span rest, M prev span rest → rest.head?.any (isWord ucd) = false ∧
    (prev.any (isWord ucd) = true → span.head?.any (isWord ucd) = false)

lemma bounded_email : Bounded ucd (Pattern.Matches (emailPattern ucd)) := by
  intro prev span rest h
  obtain ⟨hstart, -, hnext⟩ := email_edges h
  refine ⟨hnext, fun hprev => ?_⟩
  rw [hprev] at hstart
  exact Bool.eq_false_iff.mpr hstart.symm

lemma bounded_phone : Bounded ucd (PhoneSpan ucd) := by
  intro prev span rest h
  refine ⟨h.next, fun hprev => ?_⟩
  rw [h.prev] at hprev
  cases hprev

/-- The mark at the end of a replacement is not of a word, and neither is the one at its start. -/
lemma isWord_marks : isWord ucd '[' = false ∧ isWord ucd ']' = false :=
  ⟨not_isWord_of_mem (by decide), not_isWord_of_mem (by decide)⟩

/-- An email address that a replacement has left was one before. -/
lemma email_of_remnant {m : Option Char → Str → Option ℕ} {M : Option Char → Str → Str → Prop}
    {pre post : Str} (hM : Bounded ucd M) (hremnant : Pattern.Remnant m M '[' ']' x a b pre post)
    (h : Pattern.Matches (emailPattern ucd) a.getLast? x b) :
    Pattern.Matches (emailPattern ucd) pre.getLast? x post := by
  obtain ⟨hstart, hlast, hnext⟩ := email_edges h
  refine email_congr ?_ ?_ h
  · rcases hremnant.left with heq | ⟨heq, prev, sp, -, -, hsp⟩
    · rw [heq]
    · -- neither the mark nor the character behind a match is of a word
      have hx := (hM _ _ _ hsp).1
      rw [List.head?_append_of_ne_nil _ (ne_nil_of_email h)] at hx
      rw [heq, hx, Option.any_some, isWord_marks.2] at hstart
      exact absurd rfl hstart
  · rcases hremnant.right with heq | ⟨-, sp, rest, hne, rfl, hsp⟩
    · rw [heq]
    · rw [hnext, List.head?_append_of_ne_nil _ hne, (hM _ _ _ hsp).2 hlast]

/-- No email address is left once they have been replaced. -/
theorem not_email_of_redactEmails (h : redactEmails ucd s = a ++ x ++ b) :
    ¬ Pattern.Matches (emailPattern ucd) a.getLast? x b := by
  intro hx
  obtain ⟨pre, post, -, hremnant⟩ := Pattern.exists_remnant sound_email (ne_nil_of_email hx)
    (bracket_notMem_of_email (by decide) hx) (bracket_notMem_of_email (by decide) hx)
    (@not_infix_of_email _ _ _ _ "REDACTED_EMAIL" (by decide) hx) h
  obtain ⟨n, hn⟩ := exists_matchLen_email (email_of_remnant bounded_email hremnant hx)
  refine hremnant.unmatched [] x rfl (ne_nil_of_email hx) n ?_
  rwa [List.append_nil]

/-- A phone number has a digit. -/
lemma exists_digit_of_phone (h : IsPhone ucd prev span next) :
    ∃ c ∈ span, ucd.isDecimal c = true := by
  obtain ⟨plus, number, rfl, -, hnumber⟩ := h.number
  obtain ⟨c, hc, hdigit⟩ := (Option.any_eq_true _ _).mp hnumber.first
  exact ⟨c, List.mem_append_right plus (List.mem_of_mem_head? hc), hdigit⟩

/-- A phone number is not part of a replacement. -/
lemma not_infix_of_phone {mid : Str} (hmid : ∀ c ∈ mid, c.toNat < 128 ∧ c.isDigit = false)
    (h : IsPhone ucd prev span next) : ¬ span <:+: mid := by
  intro hwithin
  obtain ⟨c, hc, hdigit⟩ := exists_digit_of_phone h
  obtain ⟨hlt, hno⟩ := hmid c (hwithin.subset hc)
  rw [ucd.isDecimal_ascii c hlt, hno] at hdigit
  cases hdigit

/-- A phone number that a replacement of phone numbers has left was one before, or its number was,
behind the plus sign. -/
private lemma phone_of_remnant {m : Option Char → Str → Option ℕ} {pre post : Str}
    (hremnant : Pattern.Remnant m (PhoneSpan ucd) '[' ']' x a b pre post)
    (h : PhoneSpan ucd a.getLast? x b) :
    ∃ u v, x = u ++ v ∧ v ≠ [] ∧ PhoneSpan ucd (pre ++ u).getLast? v post := by
  obtain ⟨hprev, hlast, hnext⟩ := phone_edges h
  obtain ⟨plus, number, rfl, hplus, hnumber⟩ := h.number
  have hne : number ≠ [] := List.length_pos_iff.mp (by have := hnumber.length; omega)
  have hpost : post.head?.any (isWord ucd) = false := by
    rcases hremnant.right with heq | ⟨-, sp, rest, -, -, hsp⟩
    · rw [← heq, hnext]
    · rw [hsp.prev] at hlast
      cases hlast
  rcases hremnant.left with heq | ⟨-, prev, sp, -, -, hsp⟩
  · refine ⟨[], plus ++ number, rfl, List.append_ne_nil_of_right_ne_nil _ hne, ?_, h.number, hpost⟩
    rw [List.append_nil, ← heq]
    exact hprev
  · -- behind a match there is no digit, so the number has a plus sign
    have hfirst : (plus ++ number ++ post).head?.any (isWord ucd) = false := hsp.next
    rcases hplus with rfl | rfl
    · rw [List.nil_append, List.head?_append_of_ne_nil _ hne] at hfirst
      obtain ⟨c, hc, hdigit⟩ := (Option.any_eq_true _ _).mp hnumber.first
      rw [hc, Option.any_some, isWord_of_isDecimal hdigit] at hfirst
      cases hfirst
    · refine ⟨['+'], number, rfl, hne, ?_, ⟨[], number, rfl, Or.inl rfl, hnumber⟩, hpost⟩
      rw [List.getLast?_concat]
      exact hfirst

/-- No phone number is left once they have been replaced. -/
theorem not_phone_of_redactPhones (h : redactPhones ucd s = a ++ x ++ b) :
    ¬ PhoneSpan ucd a.getLast? x b := by
  intro hx
  obtain ⟨c, hc, -⟩ := exists_digit_of_phone hx
  have hmid : ¬ x <:+: ("REDACTED_PHONE" : Str) := not_infix_of_phone (by decide) hx
  obtain ⟨pre, post, -, hremnant⟩ := Pattern.exists_remnant covers_phone.sound
    (List.ne_nil_of_mem hc) (bracket_notMem_of_phone (by decide) hx)
    (bracket_notMem_of_phone (by decide) hx) hmid h
  obtain ⟨u, v, rfl, hv, hspan⟩ := phone_of_remnant hremnant hx
  obtain ⟨n, hn⟩ := covers_phone.complete _ _ _ hv hspan
  exact hremnant.unmatched u v rfl hv n hn

/-- No email address is left once the phone numbers have been replaced as well. -/
theorem not_email_of_redact (h : redactDirectIdentifiers ucd s = a ++ x ++ b) :
    ¬ Pattern.Matches (emailPattern ucd) a.getLast? x b := by
  intro hx
  obtain ⟨pre, post, hemails, hremnant⟩ := Pattern.exists_remnant covers_phone.sound
    (ne_nil_of_email hx) (bracket_notMem_of_email (by decide) hx)
    (bracket_notMem_of_email (by decide) hx)
    (@not_infix_of_email _ _ _ _ "REDACTED_PHONE" (by decide) hx) h
  exact not_email_of_redactEmails hemails (email_of_remnant bounded_phone hremnant hx)

/-- **Completeness of the redaction.** No part of redacted text matches the email pattern or the
phone pattern where it stands, and redacting it once more changes nothing.

**Proof sketch.** A match in redacted text has no bracket, so it was left by the replacements. At
the place where it stood before, its neighbours allow the match as well, so it would have been
found. Nothing is replaced in a text without a match. -/
theorem redactDirectIdentifiers_complete (ucd : Ucd) (s : Str) :
    (∀ a x b, redactDirectIdentifiers ucd s = a ++ x ++ b →
        ¬ Pattern.Matches (emailPattern ucd) a.getLast? x b ∧
          ¬ Pattern.Matches (phonePattern ucd) a.getLast? x b) ∧
      redactDirectIdentifiers ucd (redactDirectIdentifiers ucd s) =
        redactDirectIdentifiers ucd s := by
  have hphone : ∀ a x b, redactDirectIdentifiers ucd s = a ++ x ++ b →
      ¬ PhoneSpan ucd a.getLast? x b := fun a x b h => not_phone_of_redactPhones h
  refine ⟨fun a x b h => ⟨not_email_of_redact h, fun hmatches => ?_⟩, ?_⟩
  · exact hphone a x b h (matches_phone_iff.mp hmatches)
  · have hemails : redactEmails ucd (redactDirectIdentifiers ucd s) =
        redactDirectIdentifiers ucd s :=
      Pattern.sub_eq_self sound_email fun a x b h _ => not_email_of_redact h
    have hphones : redactPhones ucd (redactDirectIdentifiers ucd s) =
        redactDirectIdentifiers ucd s :=
      Pattern.sub_eq_self covers_phone.sound fun a x b h _ => hphone a x b h
    calc redactDirectIdentifiers ucd (redactDirectIdentifiers ucd s)
        = redactPhones ucd (redactEmails ucd (redactDirectIdentifiers ucd s)) := rfl
      _ = redactPhones ucd (redactDirectIdentifiers ucd s) := by rw [hemails]
      _ = redactDirectIdentifiers ucd s := hphones

end VCBrain
