import VCBrain.Agents.EvidenceText
import VCBrain.Foundation.CutText
import VCBrain.RedactionLaws

set_option relaxedAutoImplicit false
set_option autoImplicit false

/-!
# The cut of an evidence value

The line of an observation shows the first 500 characters of its value, and the redaction sees no
more than these. An email address or a phone number that goes beyond them may be none any more.

## Main definitions

* `Redacts` — an email address or phone number that the redaction of a text replaces.
* `CutRedacted` — what is shown of a replaced contact that goes beyond the cut is replaced as well.
* `EndsInContact` — the text in front of the cut ends in an email address or a phone number.

## Main results

* `cutRedacted_iff` — what is shown is replaced exactly if the text in front of the cut ends in a
  contact that does not begin behind the one that goes beyond it.
-/

namespace VCBrain

open Pattern (Piece)

variable (ucd : Ucd)

/-! ## Contacts -/

/-- The email addresses of a text and the characters between them. -/
def emailPieces (w : Str) : List Piece :=
  Pattern.pieces (Pattern.matchLen (emailPattern ucd)) 0 none w

/-- The phone numbers of a text without email addresses and the characters between them. -/
def phonePieces (w : Str) : List Piece :=
  Pattern.pieces (Pattern.matchLen (phonePattern ucd)) 0 none (redactEmails ucd w)

/-- The redaction of a text replaces the email address `span` behind `a`. -/
def EmailFound (w a span : Str) : Prop :=
  ∃ before after, emailPieces ucd w = before ++ .found span :: after ∧
    before.flatMap Piece.text = a

/-- The redaction of a text replaces the phone number `span` behind `a`. -/
def PhoneFound (w a span : Str) : Prop :=
  ∃ before after, emailPieces ucd w = before ++ span.map Piece.char ++ after ∧
    before.flatMap Piece.text = a ∧
    ∃ before' after', phonePieces ucd w = before' ++ .found span :: after' ∧
      before'.flatMap Piece.text = Pattern.replaceFound "[REDACTED_EMAIL]" before

/-- The redaction of a text replaces `span` behind `a`. -/
def Redacts (w a span : Str) : Prop := EmailFound ucd w a span ∨ PhoneFound ucd w a span

/-- Text behind `a` begins in front of a limit and ends behind it. -/
def Straddles (limit : ℕ) (a span : Str) : Prop :=
  a.length < limit ∧ limit < a.length + span.length

/-- Every character in front of the limit of a contact that goes beyond it is redacted in the text
that is cut there. -/
def CutRedacted (limit : ℕ) (w : Str) : Prop :=
  ∀ a span, Redacts ucd w a span → Straddles limit a span → ∀ k, a.length ≤ k → k < limit →
    ∃ a' span', Redacts ucd (w.take limit) a' span' ∧ a'.length ≤ k ∧ k < a'.length + span'.length

/-- The first part `p` of a text `w` ends in an email address, at whose beginning none of `w` is
under way, or in a phone number behind an email address of `w` or behind no character of a word. It
does not begin behind the position `i`. -/
def EndsInContact (w p : Str) (i : ℕ) : Prop :=
  ∃ u v, p = u ++ v ∧ v ≠ [] ∧ u.length ≤ i ∧
    ((Pattern.Matches (emailPattern ucd) u.getLast? v [] ∧
        ∃ before after, emailPieces ucd w = before ++ after ∧ before.flatMap Piece.text = u) ∨
      (IsPhone ucd none v none ∧
        (u.getLast?.any (isWord ucd) = false ∨ ∃ a span, EmailFound ucd w a span ∧ u = a ++ span)))

section Found

variable {ucd} {w a span : Str}

lemma scan_emailPieces (ucd : Ucd) (w : Str) :
    Pattern.Scan (Pattern.matchLen (emailPattern ucd)) none w (emailPieces ucd w) :=
  Pattern.scan_of_sound sound_email none w

lemma scan_phonePieces (ucd : Ucd) (w : Str) :
    Pattern.Scan (Pattern.matchLen (phonePattern ucd)) none (redactEmails ucd w)
      (phonePieces ucd w) :=
  Pattern.scan_of_sound covers_phone.sound none _

/-- An email address that is replaced matches the pattern where it stands. -/
lemma EmailFound.matches (h : EmailFound ucd w a span) :
    ∃ b, w = a ++ span ++ b ∧ Pattern.Matches (emailPattern ucd) a.getLast? span b := by
  obtain ⟨before, after, hsplit, rfl⟩ := h
  have hscan := scan_emailPieces ucd w
  have htext := hscan.text
  rw [hsplit] at hscan htext
  obtain ⟨t, -, hrest⟩ := hscan.drop
  obtain ⟨-, hspan⟩ := hrest.found_inv sound_email
  rw [List.flatMap_append, List.flatMap_cons, ← List.append_assoc] at htext
  rw [Option.or_none] at hspan
  exact ⟨after.flatMap Piece.text, htext.symm, hspan⟩

/-- What is found in a text without email addresses is a phone number there. -/
lemma isPhone_of_phonePieces {front back : List Piece}
    (h : phonePieces ucd w = front ++ .found span :: back) :
    ∃ next, IsPhone ucd (front.flatMap Piece.text).getLast? span next := by
  have hscan := scan_phonePieces ucd w
  rw [h] at hscan
  obtain ⟨t, -, hrest⟩ := hscan.drop
  obtain ⟨-, hspan⟩ := hrest.found_inv covers_phone.sound
  rw [Option.or_none] at hspan
  exact ⟨_, hspan⟩

/-- A phone number that is replaced stands in the text. -/
lemma PhoneFound.isPhone (h : PhoneFound ucd w a span) :
    ∃ b prev next, w = a ++ span ++ b ∧ IsPhone ucd prev span next := by
  obtain ⟨before, after, hsplit, rfl, before', after', hphones, -⟩ := h
  have htext := (scan_emailPieces ucd w).text
  rw [hsplit, List.flatMap_append, List.flatMap_append, Pattern.flatMap_text_map_char] at htext
  obtain ⟨next, hspan⟩ := isPhone_of_phonePieces hphones
  exact ⟨after.flatMap Piece.text, _, next, htext.symm, hspan⟩

/-- A contact that is replaced stands in the text. -/
lemma Redacts.split (h : Redacts ucd w a span) : ∃ b, w = a ++ span ++ b := by
  rcases h with h | h
  · obtain ⟨b, hb, -⟩ := h.matches
    exact ⟨b, hb⟩
  · obtain ⟨b, -, -, hb, -⟩ := h.isPhone
    exact ⟨b, hb⟩

end Found

/-! ## The end of a text that has been cut -/

section Cut

variable {ucd} {p t u v a y span : Str} {prev : Option Char} {before after : List Piece} {i : ℕ}

/-- The pattern takes an email address at the end of a text to the end. -/
lemma matchLen_email_of_end (h : Pattern.Matches (emailPattern ucd) prev v []) :
    Pattern.matchLen (emailPattern ucd) prev v = some v.length := by
  obtain ⟨n, hn⟩ := Pattern.exists_matchLen h
  rw [List.append_nil] at hn
  have hle := longest_email _ _ _ hn v [] (List.append_nil v).symm h
  have hge := Pattern.length_le_of_matchLen hn
  rw [hn, Nat.le_antisymm hge hle]

lemma cutSearch_email (ucd : Ucd) (p t : Str) :
    Pattern.CutSearch (Pattern.matchLen (emailPattern ucd)) none (emailPieces ucd p)
      (emailPieces ucd (p ++ t)) :=
  (scan_emailPieces ucd p).cut (fun _ _ => Pattern.matchLen_cut) (scan_emailPieces ucd (p ++ t))

lemma text_emailPieces (ucd : Ucd) (w : Str) : (emailPieces ucd w).flatMap Piece.text = w :=
  (scan_emailPieces ucd w).text

lemma text_ne_nil_of_mem {w : Str} : ∀ q ∈ emailPieces ucd w, q.text ≠ [] :=
  fun _ => (scan_emailPieces ucd w).text_ne_nil

/-- A contact at the end of a text is replaced there. -/
def RedactsEnd (ucd : Ucd) (p : Str) (i : ℕ) : Prop :=
  ∃ a span, Redacts ucd p a span ∧ a.length ≤ i ∧ a.length + span.length = p.length

/-- An email address at the end of the first part of a text is replaced if none of the text is under
way at its beginning. -/
lemma redactsEnd_of_email (hemail : Pattern.Matches (emailPattern ucd) u.getLast? v [])
    (hp : p = u ++ v) (hsplit : emailPieces ucd (p ++ t) = before ++ after)
    (hu : before.flatMap Piece.text = u) : RedactsEnd ucd p u.length := by
  have hv := List.length_pos_iff.mpr (ne_nil_of_email hemail)
  have hlen := congrArg List.length hp
  rw [List.length_append] at hlen
  rcases (cutSearch_email ucd p t).of_stop text_ne_nil_of_mem hsplit
    (by rw [text_emailPieces, hu]; omega) with ⟨rest, hrest⟩ | ⟨front, sp, hfront, hle⟩
  · -- the search of the first part comes to the address and takes it to the end
    have hscan := scan_emailPieces ucd p
    have htext := text_emailPieces ucd p
    rw [hrest] at hscan htext
    obtain ⟨t', -, hscan⟩ := hscan.drop
    rw [List.flatMap_append, hu, hp, List.append_cancel_left_eq] at htext
    obtain rfl : t' = v := hscan.text.symm.trans htext
    rw [hu, Option.or_none] at hscan
    have hfound := hscan.eq_found (ne_nil_of_email hemail) (matchLen_email_of_end hemail)
    exact ⟨u, t', Or.inl ⟨before, [], by rw [hrest, hfound], hu⟩, le_refl _, hlen.symm⟩
  · have htext := text_emailPieces ucd p
    rw [hfront, List.flatMap_append] at htext
    refine ⟨front.flatMap Piece.text, sp, Or.inl ⟨front, [], hfront, rfl⟩, by rwa [hu] at hle, ?_⟩
    rw [← htext, List.length_append]
    simp [Piece.text]

/-- A phone number has no letters. -/
lemma not_isAlpha_of_phone {next : Option Char} (h : IsPhone ucd prev span next) {c : Char}
    (hc : c ∈ span) : c.isAlpha = false := by
  obtain ⟨plus, number, rfl, hplus, hnumber⟩ := h.number
  by_contra halpha
  rw [Bool.not_eq_false] at halpha
  obtain ⟨hascii, hnot⟩ := ascii_of_isAlpha halpha
  have hdigit : ucd.isDecimal c = false := (ucd.isDecimal_ascii c hascii).trans hnot
  rcases List.mem_append.mp hc with hc | hc
  · rcases hplus with rfl | rfl
    · cases hc
    · rw [List.mem_singleton.mp hc] at halpha
      exact absurd halpha (by decide)
  · have hdial := hnumber.dial c hc
    rw [isDial, hdigit, Bool.false_or, decide_eq_true_eq] at hdial
    simp only [List.mem_cons, List.not_mem_nil, or_false] at hdial
    rcases hdial with rfl | rfl | rfl | rfl <;> exact absurd halpha (by decide)

/-- An email address that is replaced ends in a letter. -/
lemma exists_letter_of_mem {w : Str} (h : .found span ∈ emailPieces ucd w) :
    ∃ c, span.getLast? = some c ∧ c.isAlpha = true := by
  obtain ⟨before, after, hsplit⟩ := List.append_of_mem h
  obtain ⟨b, -, hmatches⟩ := EmailFound.matches ⟨before, after, hsplit, rfl⟩
  obtain ⟨-, ⟨user, host, top, rfl, haddress⟩, -⟩ := matches_email_iff.mp hmatches
  exact haddress.getLast?

/-- A phone number at the end of the first part of a text was passed over by the search for email
addresses. -/
lemma exists_chars_of_phone (hphone : IsPhone ucd none v none) (hp : p = u ++ v) :
    ∃ before, emailPieces ucd p = before ++ v.map Piece.char ∧ before.flatMap Piece.text = u := by
  refine Pattern.exists_chars_of_text ((text_emailPieces ucd p).trans hp) fun span hmem => ?_
  obtain ⟨c, hc, halpha⟩ := exists_letter_of_mem hmem
  refine ⟨c, hc, fun hcv => ?_⟩
  rw [not_isAlpha_of_phone hphone hcv] at halpha
  cases halpha

/-- What replaces email addresses is not empty. -/
lemma eq_nil_of_replaceFound {repl : Str} (hrepl : repl ≠ [])
    (h : Pattern.replaceFound repl before = []) : before = [] := by
  cases before with
  | nil => rfl
  | cons q before =>
    cases q with
    | char c => cases h
    | found sp => exact absurd (List.append_eq_nil_iff.mp h).1 hrepl

/-- What replaces an email address stands between square brackets. -/
lemma emailMark_eq : ("[REDACTED_EMAIL]" : Str) = '[' :: "REDACTED_EMAIL" ++ [']'] := by decide

/-- A phone number that ends what is left of a text is replaced at the end of the text. -/
lemma exists_phoneFound_of_end {front : List Piece} (h : phonePieces ucd p = front ++ [.found y]) :
    ∃ before, emailPieces ucd p = before ++ y.map Piece.char ∧
      PhoneFound ucd p (before.flatMap Piece.text) y := by
  have hscan := scan_phonePieces ucd p
  have htext := hscan.text
  rw [h] at hscan htext
  obtain ⟨t', -, hrest⟩ := hscan.drop
  obtain ⟨hy, hspan⟩ := hrest.found_inv covers_phone.sound
  rw [List.flatMap_append, List.flatMap_singleton] at htext
  have hleft : Pattern.replaceFound ('[' :: "REDACTED_EMAIL" ++ [']']) (emailPieces ucd p) =
      front.flatMap Piece.text ++ y ++ [] := by
    rw [← emailMark_eq, List.append_nil]
    exact htext.symm
  obtain ⟨before, after, hsplit, hfront, hafter⟩ := Pattern.exists_of_replaceFound hy
    (bracket_notMem_of_phone (by decide) hspan) (bracket_notMem_of_phone (by decide) hspan)
    (not_infix_of_phone (by decide) hspan) hleft
  obtain rfl : after = [] := eq_nil_of_replaceFound (List.cons_ne_nil _ _) hafter.symm
  rw [← emailMark_eq] at hfront
  refine ⟨before, by rw [hsplit, List.append_nil], before, [], hsplit, rfl, front, [], h, hfront⟩

/-- A search whose last part is a character does not end with a match. -/
lemma not_found_of_chars {front : List Piece} {sp : Str} (hv : v ≠ []) :
    before ++ v.map Piece.char ≠ front ++ [.found sp] := by
  intro h
  obtain ⟨v, c, rfl⟩ := (List.eq_nil_or_concat v).resolve_left hv
  have hlast := congrArg List.getLast? h
  rw [List.concat_eq_append, List.map_append, ← List.append_assoc] at hlast
  simp at hlast

/-- In front of a phone number at the end of the first part there is no character of a word once the
email addresses are replaced. -/
lemma isWord_getLast?_replaceFound (hsplit : emailPieces ucd p = before ++ v.map Piece.char)
    (htext : before.flatMap Piece.text = u) (hp : p = u ++ v) (hv : v ≠ [])
    (hu : u.getLast?.any (isWord ucd) = false ∨
      ∃ a span, EmailFound ucd (p ++ t) a span ∧ u = a ++ span) :
    (Pattern.replaceFound "[REDACTED_EMAIL]" before).getLast?.any (isWord ucd) = false := by
  rcases List.eq_nil_or_concat before with rfl | ⟨front, q, rfl⟩
  · rfl
  · rw [List.concat_eq_append] at hsplit htext ⊢
    rw [Pattern.replaceFound, List.flatMap_append, List.flatMap_singleton]
    cases q with
    | found sp =>
      rw [List.getLast?_append_of_ne_nil _ (by simp)]
      exact isWord_marks.2
    | char c =>
      rw [List.getLast?_concat]
      rw [List.flatMap_append, List.flatMap_singleton] at htext
      rcases hu with hu | ⟨a, span, ⟨before, after, hwhole, rfl⟩, hend⟩
      · rwa [← htext, Piece.text, List.getLast?_concat] at hu
      · -- the search of the first part comes to the end of that address as well
        exfalso
        have hstop : emailPieces ucd (p ++ t) = (before ++ [Piece.found span]) ++ after := by
          rw [hwhole, List.append_assoc]
          rfl
        have htext' : (before ++ [Piece.found span]).flatMap Piece.text = u := by
          rw [hend, List.flatMap_append, List.flatMap_singleton]
          rfl
        have hlen : u.length < p.length := by
          rw [hp, List.length_append]
          have := List.length_pos_iff.mpr hv
          omega
        rcases (cutSearch_email ucd p t).of_stop text_ne_nil_of_mem hstop
          (by rwa [htext', text_emailPieces]) with ⟨rest, hrest⟩ | ⟨front', sp, hfront, -⟩
        · have hsame := Pattern.eq_of_length_text_eq text_ne_nil_of_mem hsplit hrest
            (by rw [htext', List.flatMap_append, List.flatMap_singleton, htext])
          exact absurd (List.append_inj_right' hsame rfl) (by simp)
        · exact not_found_of_chars hv (hsplit.symm.trans hfront)

/-- A phone number at the end of the first part of a text is replaced if no character of a word is
in front of it, or an email address of the text. -/
lemma redactsEnd_of_phone (hphone : IsPhone ucd none v none) (hp : p = u ++ v) (hv : v ≠ [])
    (hu : u.getLast?.any (isWord ucd) = false ∨
      ∃ a span, EmailFound ucd (p ++ t) a span ∧ u = a ++ span) : RedactsEnd ucd p u.length := by
  obtain ⟨before, hsplit, htext⟩ := exists_chars_of_phone hphone hp
  have hprev := isWord_getLast?_replaceFound hsplit htext hp hv hu
  have hspan : PhoneSpan ucd (Pattern.replaceFound "[REDACTED_EMAIL]" before).getLast? v [] :=
    ⟨hprev, hphone.number, rfl⟩
  have hredacted : redactEmails ucd p = Pattern.replaceFound "[REDACTED_EMAIL]" before ++ v := by
    have hpieces : redactEmails ucd p =
        Pattern.replaceFound "[REDACTED_EMAIL]" (emailPieces ucd p) := rfl
    rw [hpieces, hsplit, Pattern.replaceFound_append, Pattern.replaceFound_map_char]
  obtain ⟨front, x, hfront, hx⟩ := (scan_phonePieces ucd p).exists_found_of_covers covers_phone
    hredacted hv (by rwa [Option.or_none])
  obtain ⟨before', hsplit', hfound⟩ := exists_phoneFound_of_end hfront
  have hlen := congrArg List.length (text_emailPieces ucd p)
  rw [hsplit', List.flatMap_append, Pattern.flatMap_text_map_char, List.length_append] at hlen
  refine ⟨before'.flatMap Piece.text, x ++ v, Or.inr hfound, ?_, hlen⟩
  have hlen' := congrArg List.length hp
  rw [List.length_append] at hlen hlen'
  omega

/-- What a text ends in is replaced if it is a contact that begins early enough. -/
lemma EndsInContact.redactsEnd (h : EndsInContact ucd (p ++ t) p i) : RedactsEnd ucd p i := by
  obtain ⟨u, v, hp, hv, hle, ⟨hemail, before, after, hsplit, hu⟩ | ⟨hphone, hu⟩⟩ := h
  · obtain ⟨a, span, hfound, ha, hlen⟩ := redactsEnd_of_email hemail hp hsplit hu
    exact ⟨a, span, hfound, ha.trans hle, hlen⟩
  · obtain ⟨a, span, hfound, ha, hlen⟩ := redactsEnd_of_phone hphone hp hv hu
    exact ⟨a, span, hfound, ha.trans hle, hlen⟩

/-! ## Contacts that go beyond the cut -/

/-- The part of a contact in front of the cut. -/
lemma Straddles.exists_kept {b : Str} (h : Straddles p.length a span)
    (hw : p ++ t = a ++ span ++ b) : ∃ k k', p = a ++ k ∧ span = k ++ k' ∧ k ≠ [] := by
  obtain ⟨hlt, hgt⟩ := h
  rw [List.append_assoc] at hw
  obtain ⟨k, rfl⟩ : a <+: p :=
    List.prefix_of_prefix_length_le ⟨_, hw.symm⟩ (List.prefix_append p t) hlt.le
  rw [List.append_assoc, List.append_cancel_left_eq] at hw
  rw [List.length_append] at hlt hgt
  obtain ⟨k', rfl⟩ : k <+: span :=
    List.prefix_of_prefix_length_le ⟨_, hw⟩ (List.prefix_append span b) (by omega)
  exact ⟨k, k', rfl, rfl, List.length_pos_iff.mp (by omega)⟩

/-- Behind the at sign of an address there is neither an at sign nor a plus sign. -/
lemma IsAddress.notMem_host {user host top : Str} {c : Char} (h : IsAddress ucd user host top)
    (hc : c ∈ ['@', '+']) : c ∉ host ++ '.' :: top := by
  have hsign : c ≠ '.' ∧ c.isAlpha = false := by
    rcases List.mem_pair.mp hc with rfl | rfl <;> decide
  intro hmem
  rcases List.mem_append.mp hmem with hmem | hmem
  · have hhost := h.isHost c hmem
    rw [not_isHost_of_mem hc] at hhost
    cases hhost
  · rcases List.mem_cons.mp hmem with heq | hmem
    · exact hsign.1 heq
    · have halpha := h.isAlpha c hmem
      rw [hsign.2] at halpha
      cases halpha

/-- In front of the at sign of an address there is no other one. -/
lemma IsAddress.at_notMem_user {user host top : Str} (h : IsAddress ucd user host top) :
    '@' ∉ user := by
  intro hmem
  have huser := h.isUser '@' hmem
  rw [not_isUser_at] at huser
  cases huser

/-- An address inside another one has the same at sign, so the characters in front of it may be
added. -/
lemma isAddress_of_infix {user host top user' host' top' d k' : Str}
    (h : IsAddress ucd user host top) (h' : IsAddress ucd user' host' top')
    (heq : address user host top = d ++ address user' host' top' ++ k') :
    IsAddress ucd (d ++ user') host' top' := by
  have hparts : user ++ '@' :: (host ++ '.' :: top) =
      (d ++ user') ++ '@' :: ((host' ++ '.' :: top') ++ k') := by
    rw [address, address] at heq
    rw [heq]
    simp
  obtain ⟨huser, -, -⟩ := (List.append_cons_inj_of_notMem h.at_notMem_user
    (h.notMem_host (by decide))).mp hparts
  refine ⟨?_, ?_, h'.host_ne_nil, h'.isHost, h'.length_top, h'.isAlpha⟩
  · exact List.append_ne_nil_of_right_ne_nil d h'.user_ne_nil
  · rw [← huser]
    exact h.isUser

/-- If an email address that is replaced ends with the first part of a text, then so does a contact
that begins no later than one that goes beyond it. -/
lemma endsInContact_of_email {a' : Str} (hy : EmailFound ucd p a' y)
    (hend : a'.length + y.length = p.length) (hspan : Redacts ucd (p ++ t) a span)
    (hstraddles : Straddles p.length a span) : EndsInContact ucd (p ++ t) p a.length := by
  obtain ⟨b, hb, hmatches⟩ := hy.matches
  obtain rfl : b = [] := by
    have hlen := congrArg List.length hb
    simp only [List.length_append] at hlen
    exact List.length_eq_zero_iff.mp (by omega)
  rw [List.append_nil] at hb
  have hyne := ne_nil_of_email hmatches
  obtain ⟨user', host', top', rfl, haddress'⟩ := (matches_email_iff.mp hmatches).2.1
  rcases hspan with hspan | hspan
  · obtain ⟨b, hw, hmatches'⟩ := hspan.matches
    obtain ⟨k, k', hk, rfl, hne⟩ := hstraddles.exists_kept hw
    obtain ⟨before, after, hsplit, rfl⟩ := hspan
    obtain ⟨before', after', hsplit', rfl⟩ := hy
    obtain rfl : after' = [] := by
      have htext := text_emailPieces ucd p
      rw [hsplit', List.flatMap_append, List.flatMap_cons, hb, List.append_cancel_left_eq] at htext
      exact Pattern.eq_nil_of_text_eq_nil
        (fun q hq => text_ne_nil_of_mem q (by rw [hsplit']; simp [hq]))
        (List.append_right_eq_self.mp htext)
    obtain ⟨hlt, hgt⟩ := hstraddles
    have hpos := List.length_pos_iff.mpr hyne
    rcases (cutSearch_email ucd p t).of_beyond text_ne_nil_of_mem hsplit (by rwa [text_emailPieces])
      (by rwa [text_emailPieces]) with ⟨front, sp, back, hfront, hlast⟩ | ⟨rest, hrest, hinit, hnot⟩
    · -- the search of the whole text comes to the address at the cut
      obtain rfl : before' = front := List.append_inj_left' (hsplit'.symm.trans hlast) rfl
      obtain ⟨d, rfl⟩ := Pattern.prefix_of_length_lt text_ne_nil_of_mem hsplit hfront (by omega)
      refine ⟨_, _, hb, hyne, ?_, Or.inl ⟨hmatches, before', back, hfront, rfl⟩⟩
      rw [List.flatMap_append, List.length_append]
      omega
    · -- the kept part of the address would be an address, which the search would have found
      exfalso
      obtain ⟨d, rfl⟩ := Pattern.prefix_of_length_lt text_ne_nil_of_mem hsplit' hrest (by omega)
      have hkept : k = d.flatMap Piece.text ++ address user' host' top' := by
        rw [List.flatMap_append, List.append_assoc] at hb
        exact List.append_cancel_left (hk.symm.trans hb)
      have htext : rest.flatMap Piece.text = k := by
        have hwhole := text_emailPieces ucd p
        rw [hrest, List.flatMap_append] at hwhole
        exact List.append_cancel_left (hwhole.trans hk)
      obtain ⟨hstart, ⟨user, host, top, haddress, hparts⟩, -⟩ := matches_email_iff.mp hmatches'
      have hinner := isAddress_of_infix hparts haddress' (by rw [← haddress, hkept])
      rw [htext, Option.or_none] at hnot
      refine hnot (matchLen_email_of_end (matches_email_iff.mpr ⟨?_, ?_, rfl⟩))
      · rwa [List.head?_append_of_ne_nil _ hne] at hstart
      · exact ⟨_, _, _, by rw [hkept]; simp [address], hinner⟩
  · -- a phone number has no letters
    obtain ⟨b, prev, next, hw, hphone⟩ := hspan.isPhone
    obtain ⟨k, k', hk, rfl, hne⟩ := hstraddles.exists_kept hw
    obtain ⟨c, hc, halpha⟩ := haddress'.getLast?
    have hlast : k.getLast? = some c := by
      rw [← List.getLast?_append_of_ne_nil a hne, ← hk, hb, List.getLast?_append_of_ne_nil _ hyne,
        hc]
    have hmem : c ∈ k ++ k' := List.mem_append_left k' (List.mem_of_getLast? hlast)
    rw [not_isAlpha_of_phone hphone hmem] at halpha
    cases halpha

/-- A phone number that is replaced does not begin where another one ends. -/
lemma not_adjacent_phones {a' x : Str} (hx : PhoneFound ucd p a x) (hy : PhoneFound ucd p a' y)
    (hlt : a.length < a'.length) : a.length + x.length < a'.length := by
  obtain ⟨before, after, hsplit, rfl, front, back, hphones, hfront⟩ := hx
  obtain ⟨before', after', hsplit', rfl, front', back', hphones', hfront'⟩ := hy
  obtain ⟨nx, hx⟩ := isPhone_of_phonePieces hphones
  obtain ⟨ny, hy⟩ := isPhone_of_phonePieces hphones'
  rw [List.append_assoc] at hsplit hsplit'
  by_contra hle
  obtain ⟨d, rfl⟩ := Pattern.prefix_of_length_text_le text_ne_nil_of_mem hsplit hsplit' hlt.le
  rw [List.flatMap_append, List.length_append] at hlt hle
  rw [Pattern.replaceFound_append] at hfront'
  have hd : Pattern.replaceFound "[REDACTED_EMAIL]" d ≠ [] := by
    intro hnil
    rw [eq_nil_of_replaceFound (by simp) hnil] at hlt
    simp at hlt
  -- the second number lies behind the first one in the text without email addresses
  obtain ⟨e, rfl⟩ := Pattern.prefix_of_length_text_le
    (fun q => (scan_phonePieces ucd p).text_ne_nil) hphones hphones' (by
      rw [hfront, hfront', List.length_append]
      omega)
  rw [List.flatMap_append, hfront] at hfront' hy
  rw [List.append_cancel_left_eq] at hfront'
  rw [hphones, List.append_assoc, List.append_cancel_left_eq] at hphones'
  obtain ⟨e, rfl⟩ : ∃ e', e = .found x :: e' := by
    cases e with
    | nil => exact absurd hfront'.symm hd
    | cons q e => exact ⟨e, by rw [(List.cons.inj hphones').1]⟩
  have hdx : Pattern.replaceFound "[REDACTED_EMAIL]" d = x := by
    have hwhole := hsplit'
    rw [hsplit, List.append_assoc, List.append_cancel_left_eq] at hsplit'
    rcases List.append_eq_append_iff.mp hsplit' with ⟨c, rfl, -⟩ | ⟨c, hc, -⟩
    · rw [List.flatMap_append, Pattern.flatMap_text_map_char, List.length_append] at hle
      obtain rfl : c = [] := Pattern.eq_nil_of_text_eq_nil
        (fun q hq => text_ne_nil_of_mem q (by rw [hwhole]; simp [hq]))
        (List.length_eq_zero_iff.mp (by omega))
      rw [List.append_nil, Pattern.replaceFound_map_char]
    · obtain ⟨x₁, x₂, rfl, rfl, -⟩ := List.map_eq_append_iff.mp hc
      rw [Pattern.replaceFound_map_char] at hfront' ⊢
      have hlen := congrArg List.length hfront'
      simp only [List.flatMap_cons, List.length_append, Piece.text] at hlen
      obtain rfl : x₂ = [] := List.length_eq_zero_iff.mp (by omega)
      rw [List.append_nil]
  obtain ⟨-, hlast, -⟩ := phone_edges hx
  have hxne : x ≠ [] := by
    rintro rfl
    cases hlast
  have hprev := hy.prev
  rw [hfront', hdx, List.getLast?_append_of_ne_nil _ hxne, hlast] at hprev
  cases hprev

/-- A letter in front of the cut is not in a phone number that goes beyond it. -/
lemma not_straddles_of_letter {x : Str} {c : Char} (hspan : PhoneFound ucd (p ++ t) a span)
    (hstraddles : Straddles p.length a span) (hp : p = x ++ y) (hlt : a.length < x.length)
    (hc : x.getLast? = some c) (halpha : c.isAlpha = true) : False := by
  obtain ⟨b, prev, next, hw, hphone⟩ := hspan.isPhone
  obtain ⟨k, k', hk, rfl, -⟩ := hstraddles.exists_kept hw
  obtain ⟨d, rfl⟩ : a <+: x :=
    List.prefix_of_prefix_length_le ⟨k, hk.symm⟩ ⟨y, hp.symm⟩ hlt.le
  rw [List.length_append] at hlt
  have hd : d ≠ [] := List.length_pos_iff.mp (by omega)
  rw [hk, List.append_assoc, List.append_cancel_left_eq] at hp
  rw [List.getLast?_append_of_ne_nil _ hd] at hc
  have hmem : c ∈ k ++ k' := by
    rw [hp]
    exact List.mem_append_left k' (List.mem_append_left y (List.mem_of_getLast? hc))
  rw [not_isAlpha_of_phone hphone hmem] at halpha
  cases halpha

/-- What the search of the first part has come to in front of a contact that goes beyond the cut,
the search of the whole text has come to as well, if the first part ends in other characters. -/
lemma exists_stop_of_straddles (hspan : Redacts ucd (p ++ t) a span)
    (hstraddles : Straddles p.length a span) (hv : v ≠ [])
    (hsplit : emailPieces ucd p = before ++ v.map Piece.char)
    (hle : (before.flatMap Piece.text).length ≤ a.length) :
    ∃ back, emailPieces ucd (p ++ t) = before ++ back := by
  obtain ⟨hlt, hgt⟩ := hstraddles
  rcases hspan with ⟨front, after, hwhole, rfl⟩ | ⟨front, after, hwhole, rfl, -⟩
  · rcases (cutSearch_email ucd p t).of_beyond text_ne_nil_of_mem hwhole (by rwa [text_emailPieces])
      (by rwa [text_emailPieces]) with ⟨front', sp, back, -, hlast⟩ | ⟨rest, hrest, -, -⟩
    · exact absurd (hsplit.symm.trans hlast) (not_found_of_chars hv)
    · obtain ⟨d, rfl⟩ := Pattern.prefix_of_length_text_le text_ne_nil_of_mem hsplit hrest hle
      exact ⟨d ++ .found span :: after, by rw [hwhole, List.append_assoc]⟩
  · rcases cutSearch_email ucd p t with ⟨front', sp, back, -, hlast⟩ |
      ⟨back, hback⟩ | ⟨front', sp, back, rest, hfound, hrest, -, hinit, -⟩
    · exact absurd (hsplit.symm.trans hlast) (not_found_of_chars hv)
    · exact ⟨v.map Piece.char ++ back, by rw [hback, hsplit, List.append_assoc]⟩
    · -- an email address and a phone number would overlap at the cut
      exfalso
      have hlen := congrArg List.length (text_emailPieces ucd p)
      rw [hrest, List.flatMap_append, List.length_append] at hlen
      have hinit := hinit.length_le
      have hfree := Pattern.not_overlap_of_chars text_ne_nil_of_mem hfound hwhole (by omega)
      omega

/-- A phone number that begins with no character of a word begins with a plus sign. -/
lemma plus_mem_of_phone {next : Option Char} (hphone : IsPhone ucd prev y next)
    (hfirst : y.head?.any (isWord ucd) = false) : '+' ∈ y := by
  obtain ⟨plus, number, rfl, rfl | rfl, hnumber⟩ := hphone.number
  · obtain ⟨c, hc, hdigit⟩ := (Option.any_eq_true _ _).mp hnumber.first
    rw [List.nil_append, hc, Option.any_some, isWord_of_isDecimal hdigit] at hfirst
    cases hfirst
  · exact List.mem_cons_self ..

/-- A phone number that is replaced at the end of the first part does not begin behind an email
address that is replaced there, if a contact that goes beyond the cut begins in front of it. -/
lemma not_email_before_phone {a' x : Str} (hx : EmailFound ucd p a' x)
    (hphone : IsPhone ucd prev y none) (hp : p = a' ++ x ++ y) (hspan : Redacts ucd (p ++ t) a span)
    (hstraddles : Straddles p.length a span) : a'.length + x.length ≤ a.length := by
  by_contra hgt
  obtain ⟨b, hb, hmatches⟩ := hx.matches
  obtain rfl : b = y := List.append_cancel_left (hb.symm.trans hp)
  obtain ⟨-, ⟨user', host', top', rfl, haddress'⟩, hnext⟩ := matches_email_iff.mp hmatches
  obtain ⟨c, hc, halpha⟩ := haddress'.getLast?
  have hxne : address user' host' top' ≠ [] := ne_nil_of_email hmatches
  have hplus := plus_mem_of_phone hphone hnext
  rcases hspan with ⟨before, after, hwhole, rfl⟩ | hspan
  · obtain ⟨hlt, hlong⟩ := hstraddles
    rcases (cutSearch_email ucd p t).of_beyond text_ne_nil_of_mem hwhole (by rwa [text_emailPieces])
      (by rwa [text_emailPieces]) with ⟨front, sp, back, -, hlast⟩ | ⟨rest, hrest, ⟨k', rfl⟩, -⟩
    · obtain ⟨before', hsplit, -⟩ := exists_chars_of_phone ⟨rfl, hphone.number, rfl⟩ hp
      exact not_found_of_chars (List.ne_nil_of_mem hplus) (hsplit.symm.trans hlast)
    · -- the number would lie behind the at sign of the address that goes beyond the cut
      obtain ⟨before', after', hsplit, rfl⟩ := hx
      obtain ⟨d, rfl⟩ := Pattern.prefix_of_length_lt text_ne_nil_of_mem hsplit hrest (by omega)
      have htext : rest.flatMap Piece.text =
          d.flatMap Piece.text ++ address user' host' top' ++ b := by
        have hall := text_emailPieces ucd p
        rw [hrest, hp, List.flatMap_append, List.flatMap_append, List.append_assoc,
          List.append_assoc] at hall
        rw [List.append_cancel_left hall, List.append_assoc]
      obtain ⟨c, hw, hmatches'⟩ := EmailFound.matches ⟨before, after, hwhole, rfl⟩
      obtain ⟨-, ⟨user, host, top, heq, haddress⟩, -⟩ := matches_email_iff.mp hmatches'
      rw [htext, address, address] at heq
      have hparts : user ++ '@' :: (host ++ '.' :: top) =
          (d.flatMap Piece.text ++ user') ++ '@' :: ((host' ++ '.' :: top') ++ b ++ k') := by
        rw [← heq]
        simp
      obtain ⟨-, -, hhost⟩ := (List.append_cons_inj_of_notMem haddress.at_notMem_user
        (haddress.notMem_host (by decide))).mp hparts
      refine haddress.notMem_host (c := '+') (by decide) ?_
      rw [hhost]
      exact List.mem_append_left k' (List.mem_append_right _ hplus)
  · refine not_straddles_of_letter hspan hstraddles hp (by rw [List.length_append]; omega) ?_ halpha
    rw [List.getLast?_append_of_ne_nil _ hxne, hc]

/-- If a phone number that is replaced ends with the first part of a text, and what is kept of a
contact that goes beyond it is replaced, then the number begins no later. -/
lemma endsInContact_of_phone {a' : Str} (hy : PhoneFound ucd p a' y)
    (hend : a'.length + y.length = p.length) (hspan : Redacts ucd (p ++ t) a span)
    (hstraddles : Straddles p.length a span)
    (hcovered : ∀ k, a.length ≤ k → k < p.length → ∃ a' span', Redacts ucd p a' span' ∧
      a'.length ≤ k ∧ k < a'.length + span'.length) :
    EndsInContact ucd (p ++ t) p a.length := by
  have hfound := hy
  obtain ⟨before, after, hsplit, rfl, front, back, hphones, hfront⟩ := hy
  obtain ⟨next, hphone⟩ := isPhone_of_phonePieces hphones
  have hprev := hphone.prev
  rw [hfront] at hprev
  have hyne : y ≠ [] := by
    obtain ⟨c, hc, -⟩ := exists_digit_of_phone hphone
    exact List.ne_nil_of_mem hc
  have hp := text_emailPieces ucd p
  rw [hsplit, List.flatMap_append, List.flatMap_append, Pattern.flatMap_text_map_char] at hp
  obtain rfl : after = [] := by
    have hlen := congrArg List.length hp
    simp only [List.length_append] at hlen
    exact Pattern.eq_nil_of_text_eq_nil
      (fun q hq => text_ne_nil_of_mem q (by rw [hsplit]; simp [hq]))
      (List.length_eq_zero_iff.mp (by omega))
  rw [List.flatMap_nil, List.append_nil] at hp
  rw [List.append_nil] at hsplit
  have hle : (before.flatMap Piece.text).length ≤ a.length := by
    by_contra hgt
    have hypos := List.length_pos_iff.mpr hyne
    -- the contact that takes in the character in front of the number ends there
    obtain ⟨a', x, hx | hx, ha', hx'⟩ :=
      hcovered ((before.flatMap Piece.text).length - 1) (by omega) (by omega)
    · obtain ⟨b, hb, -⟩ := hx.matches
      obtain ⟨front', back', hsplit', rfl⟩ := hx
      have hend' : ¬ (before.flatMap Piece.text).length <
          (front'.flatMap Piece.text).length + x.length := by
        intro hlt
        have hfree := Pattern.not_overlap_of_chars text_ne_nil_of_mem hsplit'
          (hsplit.trans (List.append_nil _).symm) hlt
        omega
      obtain ⟨hfront', rfl⟩ := List.append_inj (hb.symm.trans hp.symm)
        (by rw [List.length_append]; omega)
      have hshort := not_email_before_phone ⟨front', back', hsplit', rfl⟩
        (⟨hphone.prev, hphone.number, rfl⟩ : IsPhone ucd _ b none) hb hspan hstraddles
      omega
    · have hlt := not_adjacent_phones hx hfound (by omega)
      omega
  refine ⟨before.flatMap Piece.text, y, hp.symm, hyne, hle, Or.inr ⟨⟨rfl, hphone.number, rfl⟩, ?_⟩⟩
  rcases List.eq_nil_or_concat before with rfl | ⟨before, q, rfl⟩
  · exact Or.inl rfl
  · rw [List.concat_eq_append] at hsplit hprev hle ⊢
    rw [List.flatMap_append, List.flatMap_singleton] at hle ⊢
    cases q with
    | char c =>
      left
      rw [Pattern.replaceFound_append, Pattern.replaceFound, Pattern.replaceFound,
        List.flatMap_singleton, List.getLast?_concat] at hprev
      rw [Piece.text, List.getLast?_concat]
      exact hprev
    | found sp =>
      right
      obtain ⟨back', hback⟩ := exists_stop_of_straddles hspan hstraddles hyne hsplit
        (by rwa [List.flatMap_append, List.flatMap_singleton])
      rw [List.append_assoc] at hback
      exact ⟨before.flatMap Piece.text, sp, ⟨before, back', hback, rfl⟩, rfl⟩

/-- **The cut.** What is kept of the contacts that go beyond a cut is redacted exactly if the text
in front of the cut ends in a contact that begins no later.

**Proof sketch.** The searches of the whole text and of its first part go on together until a match
ends at the cut or goes beyond it. A contact at the end of the first part is found, or one around
it. Conversely the character in front of the cut is redacted by a match that ends there. If this
began behind the contact that goes beyond the cut, the match in front of it would have to end where
it begins, and the neighbours of the two patterns do not allow that. -/
theorem cutRedacted_iff (limit : ℕ) (w : Str) : CutRedacted ucd limit w ↔
    ∀ a span, Redacts ucd w a span → Straddles limit a span →
      EndsInContact ucd w (w.take limit) a.length := by
  have hwhole : w.take limit ++ w.drop limit = w := List.take_append_drop limit w
  -- only a text that is longer has a contact that goes beyond the cut
  have hlen : ∀ {a span}, Redacts ucd w a span → Straddles limit a span →
      (w.take limit).length = limit := by
    intro a span hspan hstraddles
    obtain ⟨b, hb⟩ := hspan.split
    have hlong := congrArg List.length hb
    rw [List.length_append, List.length_append] at hlong
    have hgt := hstraddles.2
    rw [List.length_take]
    omega
  unfold CutRedacted
  generalize w.take limit = p at *
  generalize w.drop limit = t at *
  subst hwhole
  constructor
  · intro h a span hspan hstraddles
    have hcut := hlen hspan hstraddles
    subst hcut
    have hcovered := h a span hspan hstraddles
    have hlt := hstraddles.1
    obtain ⟨a', y, hy, hle, hgt⟩ := hcovered (p.length - 1) (by omega) (by omega)
    obtain ⟨b, hb⟩ := hy.split
    have hend := congrArg List.length hb
    rw [List.length_append, List.length_append] at hend
    rcases hy with hy | hy
    · exact endsInContact_of_email hy (by omega) hspan hstraddles
    · exact endsInContact_of_phone hy (by omega) hspan hstraddles hcovered
  · intro h a span hspan hstraddles k hle hlt
    have hcut := hlen hspan hstraddles
    obtain ⟨a', y, hy, hle', hend⟩ := (h a span hspan hstraddles).redactsEnd
    exact ⟨a', y, hy, by omega, by omega⟩

end Cut

/-! ## The line of an observation -/

/-- The line of an observation shows no part of a contact that goes beyond the cut of its value: it
ends with the redaction of the first 500 characters, and this takes in what they have of the
contact. -/
def ShowsNoPart (obs : Observation) : Prop :=
  ∃ head, evidenceLine ucd obs = head ++ redactDirectIdentifiers ucd (obs.objectValue.take 500) ∧
    CutRedacted ucd 500 obs.objectValue

/-- **Partial contact data.** The line of an observation shows no part of an email address or phone
number that goes beyond the cut exactly if, for each of these, the first 500 characters of the value
end in an address or a number that begins no later. -/
theorem showsNoPart_iff (obs : Observation) : ShowsNoPart ucd obs ↔
    ∀ a span, Redacts ucd obs.objectValue a span → Straddles 500 a span →
      EndsInContact ucd obs.objectValue (obs.objectValue.take 500) a.length := by
  rw [← cutRedacted_iff]
  constructor
  · rintro ⟨head, -, hcut⟩
    exact hcut
  · exact fun hcut => ⟨_, rfl, hcut⟩

/-- Nothing is redacted in a text without matches. -/
private lemma not_redacts {ucd : Ucd} {w a span : Str}
    (hemails : Pattern.foundSpans (emailPieces ucd w) = [])
    (hphones : Pattern.foundSpans (phonePieces ucd w) = []) : ¬ Redacts ucd w a span := by
  rintro (⟨before, after, hsplit, -⟩ | ⟨-, -, -, -, before, after, hsplit, -⟩)
  · rw [hsplit] at hemails
    simp [Pattern.foundSpans] at hemails
  · rw [hsplit] at hphones
    simp [Pattern.foundSpans] at hphones

/-- A value with an email address behind 490 characters. -/
def biographyObservation : Observation where
  id := 7
  snapshotId := 1
  subjectId := some 2
  opportunityId := none
  predicate := "bio"
  objectValue := List.replicate 490 ' ' ++ "ada@example.com"
  observedAt := 0
  extractorVersion := "web-v1"
  createdAt := 0

/-- The line shows the beginning of the address. -/
theorem shows_part_of_address : ¬ (∀ (ucd : Ucd) (obs : Observation), ShowsNoPart ucd obs) ∧
    "ada@exampl" <:+: evidenceLine .ascii biographyObservation := by
  have hwhole : emailPieces .ascii biographyObservation.objectValue =
      List.replicate 490 (.char ' ') ++ .found "ada@example.com" :: [] := by decide +kernel
  have hemails : Pattern.foundSpans (emailPieces .ascii
      (biographyObservation.objectValue.take 500)) = [] := by decide +kernel
  have hphones : Pattern.foundSpans (phonePieces .ascii
      (biographyObservation.objectValue.take 500)) = [] := by decide +kernel
  refine ⟨fun h => ?_, by decide +kernel⟩
  obtain ⟨-, -, hcut⟩ := h .ascii biographyObservation
  have htext : (List.replicate 490 (Piece.char ' ')).flatMap Piece.text =
      List.replicate 490 ' ' := by decide +kernel
  obtain ⟨a, span, hfound, -⟩ := hcut _ _ (Or.inl ⟨_, _, hwhole, htext⟩)
    ⟨by rw [List.length_replicate]; decide, by rw [List.length_replicate]; decide⟩ 490
    (by rw [List.length_replicate]) (by decide)
  exact not_redacts hemails hphones hfound

end VCBrain
