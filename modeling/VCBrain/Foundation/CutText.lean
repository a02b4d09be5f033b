import VCBrain.Foundation.Remnant

set_option relaxedAutoImplicit false
set_option autoImplicit false

/-!
# Searching a text that has been cut

A search of the first part of a text finds what the search of the whole text finds, until a match
would go beyond the cut or a match ends at it.

## Main definitions

* `Pattern.AgreesUpTo` — what is found in a cut text, beside what is found in the whole text.

## Main results

* `Pattern.matchLen_cut` — the matcher agrees up to the cut.
* `Pattern.Scan.cut` — the three ways in which the search of a cut text ends.
* `Pattern.Scan.exists_found_of_covers` — a span at the end of a text lies in the last match.
-/

namespace Pattern

/-- A match in a text of the given length and a match in a longer text: the first ends with the
text, or they are the same, or the second does not end before. -/
def AgreesUpTo (len : ℕ) (found whole : Option ℕ) : Prop :=
  found = some len ∨ found = whole ∨ ∃ n, len ≤ n ∧ whole = some n

section Agree

variable {len k l : ℕ} {a a' b b' : Option ℕ} {f g : ℕ → Option ℕ}

lemma AgreesUpTo.map_add (h : AgreesUpTo len a a') (n : ℕ) :
    AgreesUpTo (n + len) (a.map (n + ·)) (a'.map (n + ·)) := by
  rcases h with rfl | rfl | ⟨r, hle, rfl⟩
  · exact Or.inl rfl
  · exact Or.inr (Or.inl rfl)
  · exact Or.inr (Or.inr ⟨n + r, by omega, rfl⟩)

lemma AgreesUpTo.or (h : AgreesUpTo len a a') (h' : AgreesUpTo len b b') :
    AgreesUpTo len (a.or b) (a'.or b') := by
  rcases h with rfl | rfl | ⟨r, hle, rfl⟩
  · exact Or.inl rfl
  · cases a with
    | none => simpa using h'
    | some r => exact Or.inr (Or.inl rfl)
  · exact Or.inr (Or.inr ⟨r, hle, rfl⟩)

/-- Trying the same numbers agrees if each of them does. -/
lemma AgreesUpTo.tryDown (h : ∀ i ≤ k, AgreesUpTo len (f i) (g i)) :
    AgreesUpTo len (Pattern.tryDown f k) (Pattern.tryDown g k) := by
  induction k with
  | zero => exact h 0 (le_refl _)
  | succ k ih => exact (h (k + 1) (le_refl _)).or (ih fun i hi => h i (by omega))

/-- Numbers whose successes do not end before may be tried first. -/
lemma AgreesUpTo.tryMore (hkl : k ≤ l) (hmore : ∀ i, k < i → ∀ n, g i = some n → len ≤ n)
    (h : AgreesUpTo len a (Pattern.tryDown g k)) : AgreesUpTo len a (Pattern.tryDown g l) := by
  induction l, hkl using Nat.le_induction with
  | base => exact h
  | succ l hkl ih =>
    cases hg : g (l + 1) with
    | none => rwa [Pattern.tryDown, hg, Option.none_or]
    | some n =>
      have hfirst : Pattern.tryDown g (l + 1) = some n := by
        rw [Pattern.tryDown, hg, Option.some_or]
      exact Or.inr (Or.inr ⟨n, hmore _ (by omega) n hg, hfirst⟩)

end Agree

section Matcher

variable {p : Char → Bool} {m : Option Char → Str → Option ℕ} {items : List PatternItem}
  {prev : Option Char} {s t : Str}

private lemma consume_cut (h : ∀ prev s, AgreesUpTo s.length (m prev s) (m prev (s ++ t))) :
    AgreesUpTo s.length (consume p m s) (consume p m (s ++ t)) := by
  cases s with
  | nil =>
    cases hwhole : consume p m ([] ++ t) with
    | none => exact Or.inr (Or.inl rfl)
    | some n => exact Or.inr (Or.inr ⟨n, Nat.zero_le _, rfl⟩)
  | cons c s =>
    rw [List.cons_append, consume, consume]
    split_ifs
    · have hmap := (h (some c) s).map_add 1
      rwa [Nat.add_comm 1, ← List.length_cons, funext (Nat.add_comm 1)] at hmap
    · exact Or.inr (Or.inl rfl)

private lemma many_cut {least : ℕ}
    (h : ∀ prev s, AgreesUpTo s.length (matchLen items prev s) (matchLen items prev (s ++ t))) :
    AgreesUpTo s.length (matchLen (.many least p :: items) prev s)
      (matchLen (.many least p :: items) prev (s ++ t)) := by
  have htry : ∀ i ≤ s.length, AgreesUpTo s.length
      (if i < least then none
        else (matchLen items ((s.take i).getLast?.or prev) (s.drop i)).map (i + ·))
      (if i < least then none
        else (matchLen items (((s ++ t).take i).getLast?.or prev)
          ((s ++ t).drop i)).map (i + ·)) := by
    intro i hi
    split_ifs
    · exact Or.inr (Or.inl rfl)
    · rw [List.take_append_of_le_length hi, List.drop_append_of_le_length hi]
      have hmap := (h ((s.take i).getLast?.or prev) (s.drop i)).map_add i
      rwa [List.length_drop, Nat.add_sub_cancel' hi] at hmap
  have hrun := (List.takeWhile_prefix (l := s) p).length_le
  have hsame := AgreesUpTo.tryDown fun i (hi : i ≤ (s.takeWhile p).length) => htry i (hi.trans hrun)
  rw [matchLen, matchLen, List.takeWhile_append]
  split_ifs with hall
  · refine hsame.tryMore (by rw [hall, List.length_append]; omega) fun i hi n hn => ?_
    split_ifs at hn
    obtain ⟨r, -, rfl⟩ := Option.map_eq_some_iff.mp hn
    omega
  · exact hsame

/-- **The matcher and a cut.** What the items find in a text that has been cut ends at the cut, or
it is what they find in the whole text, or that does not end before the cut.

**Proof sketch.** Induction on the items. A repetition that could take more in the whole text tries
the larger numbers first, and whatever they find does not end before the cut. -/
theorem matchLen_cut :
    AgreesUpTo s.length (matchLen items prev s) (matchLen items prev (s ++ t)) := by
  induction items generalizing prev s with
  | nil => exact Or.inr (Or.inl rfl)
  | cons item is ih =>
    have hempty : ∀ {found whole : Option ℕ}, (∀ n, found = some n → n = 0) →
        AgreesUpTo ([] : Str).length found whole := by
      intro found whole hfound
      cases found with
      | some n => exact Or.inl (by rw [hfound n rfl]; rfl)
      | none =>
        cases whole with
        | none => exact Or.inr (Or.inl rfl)
        | some n => exact Or.inr (Or.inr ⟨n, Nat.zero_le _, rfl⟩)
    cases item with
    | one p => exact consume_cut fun _ _ => ih
    | opt p =>
      have hone : AgreesUpTo s.length (consume p (matchLen is) s)
          (consume p (matchLen is) (s ++ t)) :=
        consume_cut fun _ _ => ih
      exact hone.or ih
    | many least p => exact many_cut fun _ _ => ih
    | after p | notAfter p =>
      rw [matchLen, matchLen]
      split_ifs
      all_goals first | exact ih | exact Or.inr (Or.inl rfl)
    | notBefore p | boundary p =>
      cases s with
      | nil => exact hempty fun n hn => Nat.le_zero.mp (length_le_of_matchLen hn)
      | cons c s =>
        rw [List.cons_append, matchLen, matchLen, List.head?_cons, List.head?_cons]
        split_ifs
        all_goals first | exact ih | exact Or.inr (Or.inl rfl)

end Matcher

/-! ## Searches -/

section Scan

variable {m : Option Char → Str → Option ℕ} {M : Option Char → Str → Str → Prop}
  {prev : Option Char} {s t u v : Str} {ps qs before after : List Piece}

/-- The parts that a search finds are not empty. -/
lemma Scan.text_ne_nil (h : Scan m prev s ps) {q : Piece} (hq : q ∈ ps) : q.text ≠ [] := by
  induction h with
  | nil => cases hq
  | char hnone hrest ih =>
    rcases List.mem_cons.mp hq with rfl | hq
    · exact List.cons_ne_nil _ _
    · exact ih hq
  | found hfound hne hrest ih =>
    rcases List.mem_cons.mp hq with rfl | hq
    · exact hne
    · exact ih hq

/-- Parts without text are none. -/
lemma eq_nil_of_text_eq_nil (hps : ∀ q ∈ ps, q.text ≠ []) (h : ps.flatMap Piece.text = []) :
    ps = [] := by
  cases ps with
  | nil => rfl
  | cons q ps =>
    rw [List.flatMap_cons] at h
    exact absurd (List.append_eq_nil_iff.mp h).1 (hps q (List.mem_cons_self ..))

/-- Of two beginnings of a search the one with less text comes first. -/
lemma prefix_of_length_text_le {before' after' : List Piece} (hps : ∀ q ∈ ps, q.text ≠ [])
    (h : ps = before ++ after) (h' : ps = before' ++ after')
    (hle : (before.flatMap Piece.text).length ≤ (before'.flatMap Piece.text).length) :
    ∃ between, before' = before ++ between := by
  rcases List.append_eq_append_iff.mp (h.symm.trans h') with ⟨d, rfl, -⟩ | ⟨d, rfl, -⟩
  · exact ⟨d, rfl⟩
  · cases d with
    | nil => exact ⟨[], by simp⟩
    | cons q d =>
      have hq : q.text ≠ [] := hps q (by rw [h]; simp)
      have hpos := List.length_pos_iff.mpr hq
      simp only [List.flatMap_append, List.flatMap_cons, List.length_append] at hle
      omega

/-- Two beginnings of a search with as much text are the same. -/
lemma eq_of_length_text_eq {before' after' : List Piece} (hps : ∀ q ∈ ps, q.text ≠ [])
    (h : ps = before ++ after) (h' : ps = before' ++ after')
    (hlen : (before.flatMap Piece.text).length = (before'.flatMap Piece.text).length) :
    before = before' := by
  obtain ⟨d, rfl⟩ := prefix_of_length_text_le hps h h' hlen.le
  rw [List.flatMap_append, List.length_append] at hlen
  have hd := @eq_nil_of_text_eq_nil d (fun q hq => hps q (by rw [h']; simp [hq]))
    (List.length_eq_zero_iff.mp (by omega))
  rw [hd, List.append_nil]

/-- A beginning of a search with less text than one with a match behind it ends in front of the
match. -/
lemma prefix_of_length_lt {before' after' : List Piece} {span : Str} (hps : ∀ q ∈ ps, q.text ≠ [])
    (h : ps = before ++ .found span :: after) (h' : ps = before' ++ after')
    (hlt : (before'.flatMap Piece.text).length < (before.flatMap Piece.text).length + span.length) :
    ∃ between, before = before' ++ between := by
  rcases le_or_gt (before'.flatMap Piece.text).length (before.flatMap Piece.text).length with
    hle | hgt
  · exact prefix_of_length_text_le hps h' h hle
  · obtain ⟨d, rfl⟩ := prefix_of_length_text_le hps h h' hgt.le
    cases d with
    | nil => exact ⟨[], by simp⟩
    | cons q d =>
      rw [h', List.append_assoc, List.append_cancel_left_eq] at h
      obtain ⟨rfl, -⟩ := List.cons.inj h
      simp only [List.flatMap_append, List.flatMap_cons, List.length_append, Piece.text] at hlt
      omega

/-- A match and characters that were passed over do not overlap. -/
lemma not_overlap_of_chars {before' after' : List Piece} {span x : Str}
    (hps : ∀ q ∈ ps, q.text ≠ []) (h : ps = before ++ .found span :: after)
    (h' : ps = before' ++ x.map Piece.char ++ after')
    (hlt : (before'.flatMap Piece.text).length < (before.flatMap Piece.text).length + span.length) :
    (before'.flatMap Piece.text).length + x.length ≤ (before.flatMap Piece.text).length := by
  rw [List.append_assoc] at h'
  obtain ⟨d, rfl⟩ := prefix_of_length_lt hps h h' hlt
  rw [h', List.append_assoc, List.append_cancel_left_eq] at h
  rcases List.append_eq_append_iff.mp h with ⟨e, rfl, -⟩ | ⟨e, hx, hcons⟩
  · rw [List.flatMap_append, List.flatMap_append, flatMap_text_map_char]
    simp only [List.length_append]
    omega
  · cases e with
    | nil =>
      rw [List.append_nil] at hx
      rw [List.flatMap_append, ← hx, flatMap_text_map_char, List.length_append]
    | cons q e =>
      obtain ⟨rfl, -⟩ := List.cons.inj hcons
      have hmem : Piece.found span ∈ x.map Piece.char := by
        rw [hx]
        simp
      simp at hmem

/-- A text in which no match ends was passed over. -/
lemma eq_map_char_of_text (h : ps.flatMap Piece.text = v)
    (hfree : ∀ span, .found span ∈ ps → ∃ c, span.getLast? = some c ∧ c ∉ v) :
    ps = v.map Piece.char := by
  induction ps generalizing v with
  | nil =>
    rw [← h]
    rfl
  | cons q ps ih =>
    subst h
    cases q with
    | char c =>
      have hrest := ih rfl fun span hmem => by
        obtain ⟨e, hlast, hnot⟩ := hfree span (List.mem_cons_of_mem _ hmem)
        exact ⟨e, hlast, fun hin => hnot (List.mem_cons_of_mem c hin)⟩
      exact congrArg (Piece.char c :: ·) hrest
    | found span =>
      obtain ⟨e, hlast, hnot⟩ := hfree span (List.mem_cons_self ..)
      exact absurd (List.mem_append_left _ (List.mem_of_getLast? hlast)) hnot

/-- The end of a text in which no match ends was passed over. -/
lemma exists_chars_of_text (h : ps.flatMap Piece.text = u ++ v)
    (hfree : ∀ span, .found span ∈ ps → ∃ c, span.getLast? = some c ∧ c ∉ v) :
    ∃ before, ps = before ++ v.map Piece.char ∧ before.flatMap Piece.text = u := by
  induction ps generalizing u with
  | nil =>
    obtain ⟨rfl, rfl⟩ := List.append_eq_nil_iff.mp h.symm
    exact ⟨[], rfl, rfl⟩
  | cons q ps ih =>
    have hps : ∀ span, .found span ∈ ps → ∃ c, span.getLast? = some c ∧ c ∉ v := fun span hmem =>
      hfree span (List.mem_cons_of_mem q hmem)
    by_cases hu : u = []
    · subst hu
      exact ⟨[], eq_map_char_of_text h hfree, rfl⟩
    · rw [List.flatMap_cons] at h
      rcases List.append_eq_append_iff.mp h with ⟨d, rfl, hrest⟩ | ⟨d, hq, hv⟩
      · obtain ⟨before, rfl, rfl⟩ := ih hrest hps
        exact ⟨q :: before, rfl, rfl⟩
      · -- no part reaches into the end of the text
        obtain rfl : d = [] := by
          by_contra hd
          cases q with
          | char c =>
            have hlen := congrArg List.length hq
            have hupos := List.length_pos_iff.mpr hu
            have hdpos := List.length_pos_iff.mpr hd
            rw [Piece.text, List.length_append, List.length_singleton] at hlen
            omega
          | found span =>
            obtain ⟨e, hlast, hnot⟩ := hfree span (List.mem_cons_self ..)
            rw [show span = u ++ d from hq, List.getLast?_append_of_ne_nil _ hd] at hlast
            rw [hv] at hnot
            exact hnot (List.mem_append_left _ (List.mem_of_getLast? hlast))
        have hrest := eq_map_char_of_text hv.symm hps
        rw [List.append_nil] at hq
        exact ⟨[q], by rw [hrest]; rfl, by rw [List.flatMap_singleton, hq]⟩

/-- The search of an empty text finds nothing. -/
lemma Scan.nil_inv (h : Scan m prev [] ps) : ps = [] :=
  eq_nil_of_text_eq_nil (fun _ => h.text_ne_nil) h.text

/-- A match that the matcher finds is the first part of the search. -/
lemma Scan.found_of {n : ℕ} (h : Scan m prev s ps) (hs : s ≠ []) (hm : m prev s = some n)
    (hn : n ≠ 0) :
    ∃ span t rest, s = span ++ t ∧ span.length = n ∧ ps = .found span :: rest ∧
      Scan m (span.getLast?.or prev) t rest := by
  cases h with
  | nil => exact absurd rfl hs
  | char hnone _ =>
    obtain ⟨k, rfl⟩ := Nat.exists_eq_succ_of_ne_zero hn
    exact absurd hm (hnone k)
  | @found _ span t rest hfound _ hrest =>
    exact ⟨span, t, rest, rfl, Option.some.inj (hfound.symm.trans hm), rfl, hrest⟩

/-- Without a match the first part of the search is a character. -/
lemma Scan.char_of {c : Char} (h : Scan m prev (c :: s) ps)
    (hnone : ∀ n, m prev (c :: s) ≠ some (n + 1)) :
    ∃ rest, ps = .char c :: rest ∧ Scan m (some c) s rest := by
  generalize hs : c :: s = whole at h hnone
  cases h with
  | nil => cases hs
  | char _ hrest =>
    cases hs
    exact ⟨_, rfl, hrest⟩
  | @found _ span t rest hfound hne _ =>
    have hpos := List.length_pos_iff.mpr hne
    exact absurd (by rw [hfound, Nat.sub_add_cancel hpos]) (hnone (span.length - 1))

/-- If the matcher takes the whole text, the search finds it at once. -/
lemma Scan.eq_found (h : Scan m prev s ps) (hs : s ≠ []) (hm : m prev s = some s.length) :
    ps = [.found s] := by
  obtain ⟨span, t, rest, rfl, hlen, rfl, hrest⟩ :=
    h.found_of hs hm (List.length_pos_iff.mpr hs).ne'
  rw [List.length_append] at hlen
  obtain rfl : t = [] := List.length_eq_zero_iff.mp (by omega)
  rw [hrest.nil_inv, List.append_nil]

/-- The search of a cut text beside the search of the whole text. -/
def CutSearch (m : Option Char → Str → Option ℕ) (prev : Option Char) (qs ps : List Piece) : Prop :=
  (∃ before sp after, ps = before ++ after ∧ qs = before ++ [.found sp]) ∨
    (∃ after, ps = qs ++ after) ∨
    ∃ before span after rest, ps = before ++ .found span :: after ∧ qs = before ++ rest ∧
      rest.flatMap Piece.text ≠ [] ∧ rest.flatMap Piece.text <+: span ∧
      m ((before.flatMap Piece.text).getLast?.or prev) (rest.flatMap Piece.text) ≠
        some (rest.flatMap Piece.text).length

lemma CutSearch.cons (q : Piece) (h : CutSearch m (q.text.getLast?.or prev) qs ps) :
    CutSearch m prev (q :: qs) (q :: ps) := by
  rcases h with ⟨before, sp, after, rfl, rfl⟩ | ⟨after, rfl⟩ |
    ⟨before, span, after, rest, rfl, rfl, hne, hinit, hnot⟩
  · exact Or.inl ⟨q :: before, sp, after, rfl, rfl⟩
  · exact Or.inr (Or.inl ⟨after, rfl⟩)
  · refine Or.inr (Or.inr ⟨q :: before, span, after, rest, rfl, rfl, hne, hinit, ?_⟩)
    rwa [List.flatMap_cons, getLast?_append_or]

/-- **The search of a cut text.** It ends with a match that ends at the cut, or it is what the
search of the whole text begins with, or the latter has a match there that does not end before the
cut.

**Proof sketch.** Induction on the search of the cut text. As long as the matcher finds the same,
the two searches go on together. -/
theorem Scan.cut (hcut : ∀ prev s, AgreesUpTo s.length (m prev s) (m prev (s ++ t)))
    (hqs : Scan m prev s qs) (hps : Scan m prev (s ++ t) ps) : CutSearch m prev qs ps := by
  induction hqs generalizing ps with
  | nil => exact Or.inr (Or.inl ⟨ps, rfl⟩)
  | @char prev c s qs hnone hrest ih =>
    rcases hcut prev (c :: s) with htouch | hsame | ⟨n, hle, hwhole⟩
    · exact absurd htouch (hnone s.length)
    · rw [hsame] at hnone
      obtain ⟨rest, rfl, hwhole⟩ := hps.char_of hnone
      exact (ih hwhole).cons (.char c)
    · -- the match in the whole text begins here
      rw [List.length_cons] at hle
      obtain ⟨span, t', rest, hsplit, rfl, rfl, -⟩ :=
        hps.found_of (List.cons_ne_nil _ _) hwhole (by omega)
      have htext : (Piece.char c :: qs).flatMap Piece.text = c :: s := (Scan.char hnone hrest).text
      refine Or.inr (Or.inr ⟨[], span, rest, .char c :: qs, rfl, rfl, ?_, ?_, ?_⟩)
      · rw [htext]
        exact List.cons_ne_nil _ _
      · rw [htext]
        exact List.prefix_of_prefix_length_le (List.prefix_append (c :: s) t)
          ⟨t', hsplit.symm⟩ hle
      · rw [htext]
        exact hnone s.length
  | @found prev sp rest qs hfound hne hrest ih =>
    have hpos := List.length_pos_iff.mpr hne
    have hwne : sp ++ rest ++ t ≠ [] := by simp [hne]
    by_cases hend : rest = []
    · subst hend
      rw [hrest.nil_inv]
      exact Or.inl ⟨[], sp, ps, rfl, rfl⟩
    · have hshort : m prev (sp ++ rest) ≠ some (sp ++ rest).length := by
        intro htouch
        have hlen := Option.some.inj (hfound.symm.trans htouch)
        rw [List.length_append] at hlen
        exact hend (List.length_eq_zero_iff.mp (by omega))
      rcases hcut prev (sp ++ rest) with htouch | hsame | ⟨n, hle, hwhole⟩
      · exact absurd htouch hshort
      · obtain ⟨span, t', ps, hsplit, hlen, rfl, hwhole⟩ :=
          hps.found_of hwne (hsame.symm.trans hfound) hpos.ne'
        rw [List.append_assoc] at hsplit
        obtain ⟨rfl, rfl⟩ := List.append_inj hsplit hlen.symm
        exact (ih hwhole).cons (.found sp)
      · obtain ⟨span, t', ps, hsplit, rfl, rfl, -⟩ := hps.found_of hwne hwhole (by
          rw [List.length_append] at hle
          omega)
        have htext : (Piece.found sp :: qs).flatMap Piece.text = sp ++ rest :=
          (Scan.found hfound hne hrest).text
        refine Or.inr (Or.inr ⟨[], span, ps, .found sp :: qs, rfl, rfl, ?_, ?_, ?_⟩)
        · rw [htext]
          exact List.append_ne_nil_of_left_ne_nil hne rest
        · rw [htext]
          exact List.prefix_of_prefix_length_le (List.prefix_append _ t) ⟨t', hsplit.symm⟩ hle
        · rw [htext]
          exact hshort

/-- A place in front of the cut that the search of the whole text comes to is one that the search of
the cut text comes to, unless that ends with a match that begins no later. -/
lemma CutSearch.of_stop (h : CutSearch m prev qs ps) (hps : ∀ q ∈ ps, q.text ≠ [])
    (hsplit : ps = before ++ after)
    (hlt : (before.flatMap Piece.text).length < (qs.flatMap Piece.text).length) :
    (∃ rest, qs = before ++ rest) ∨ ∃ front sp, qs = front ++ [.found sp] ∧
      (front.flatMap Piece.text).length ≤ (before.flatMap Piece.text).length := by
  rcases h with ⟨front, sp, back, hfront, rfl⟩ | ⟨back, hback⟩ |
    ⟨front, span, back, rest, hfront, rfl, -, hinit, -⟩
  · rcases le_total (before.flatMap Piece.text).length (front.flatMap Piece.text).length with
      hle | hle
    · obtain ⟨d, rfl⟩ := prefix_of_length_text_le hps hsplit hfront hle
      exact Or.inl ⟨d ++ [.found sp], by rw [List.append_assoc]⟩
    · exact Or.inr ⟨front, sp, rfl, hle⟩
  · obtain ⟨d, rfl⟩ := prefix_of_length_text_le hps hsplit hback hlt.le
    exact Or.inl ⟨d, rfl⟩
  · have hle := hinit.length_le
    rw [List.flatMap_append, List.length_append] at hlt
    obtain ⟨d, rfl⟩ := prefix_of_length_lt hps hfront hsplit (by omega)
    exact Or.inl ⟨d ++ rest, by rw [List.append_assoc]⟩

/-- A match of the whole text that goes beyond the cut is where the search of the cut text differs,
unless that ends with a match that begins no later. -/
lemma CutSearch.of_beyond (h : CutSearch m prev qs ps) (hps : ∀ q ∈ ps, q.text ≠ []) {span : Str}
    (hsplit : ps = before ++ .found span :: after)
    (hlt : (before.flatMap Piece.text).length < (qs.flatMap Piece.text).length)
    (hgt : (qs.flatMap Piece.text).length < (before.flatMap Piece.text).length + span.length) :
    (∃ front sp back, ps = front ++ back ∧ qs = front ++ [.found sp]) ∨
      ∃ rest, qs = before ++ rest ∧ rest.flatMap Piece.text <+: span ∧
        m ((before.flatMap Piece.text).getLast?.or prev) (rest.flatMap Piece.text) ≠
          some (rest.flatMap Piece.text).length := by
  rcases h with hfront | ⟨back, hback⟩ | ⟨front, span', back, rest, hfront, rfl, hne, hinit, hnot⟩
  · exact Or.inl hfront
  · obtain ⟨d, hd⟩ := prefix_of_length_lt hps hsplit hback hgt
    rw [hd, List.flatMap_append, List.length_append] at hlt
    omega
  · right
    have hle := hinit.length_le
    rw [List.flatMap_append, List.length_append] at hlt hgt
    have hrest := List.length_pos_iff.mpr hne
    obtain ⟨d, hd⟩ := prefix_of_length_lt hps hfront hsplit (by omega)
    obtain ⟨d', hd'⟩ := prefix_of_length_lt hps hsplit hfront (by omega)
    obtain rfl : front = before := by
      rw [hd', List.append_assoc] at hd
      have hnil := List.append_eq_nil_iff.mp (List.self_eq_append_right.mp hd)
      rw [hd', hnil.1, List.append_nil]
    rw [hfront, List.append_cancel_left_eq] at hsplit
    obtain ⟨hspan, -⟩ := List.cons.inj hsplit
    cases hspan
    exact ⟨rest, rfl, hinit, hnot⟩

/-- **The end of a text.** If a span ends with the text, then so does the last match, and it does
not begin behind the span.

**Proof sketch.** Induction on the search. A match in front of which the span does not begin takes
in the whole of it. -/
theorem Scan.exists_found_of_covers (hcovers : Covers m M) (h : Scan m prev s ps) {span : Str}
    (hs : s = u ++ span) (hne : span ≠ []) (hspan : M (u.getLast?.or prev) span []) :
    ∃ before v, ps = before ++ [.found (v ++ span)] ∧ before.flatMap Piece.text ++ v = u := by
  induction h generalizing u with
  | nil => simp [hne] at hs
  | @char prev c t ps hnone hrest ih =>
    cases u with
    | nil =>
      obtain ⟨n, hn⟩ := hcovers.complete _ _ _ hne hspan
      rw [List.append_nil] at hn
      rw [List.nil_append] at hs
      exact absurd (hs ▸ hn) (hnone n)
    | cons c' u =>
      obtain ⟨rfl, htail⟩ := List.cons.inj hs
      rw [getLast?_cons_or] at hspan
      obtain ⟨before, v, rfl, rfl⟩ := ih htail hspan
      exact ⟨.char c :: before, v, rfl, rfl⟩
  | @found prev sp t ps hfound hspne hrest ih =>
    rcases List.append_eq_append_iff.mp hs with ⟨d, rfl, ht⟩ | ⟨d, rfl, hd⟩
    · rw [getLast?_append_or] at hspan
      obtain ⟨before, v, rfl, rfl⟩ := ih ht hspan
      exact ⟨.found sp :: before, v, rfl, by rw [List.flatMap_cons, List.append_assoc]; rfl⟩
    · by_cases hdne : d = []
      · subst hdne
        rw [List.append_nil] at ih
        obtain ⟨before, v, rfl, hnil⟩ := ih (u := []) hd.symm hspan
        refine ⟨.found u :: before, v, by rw [List.append_nil]; rfl, ?_⟩
        rw [List.flatMap_cons, List.append_assoc, hnil, List.append_nil]
        rfl
      · -- the match takes in a part of the span and so the whole of it
        have hdpos := List.length_pos_iff.mpr hdne
        have hle := hcovers.cover _ _ _ u span [] hfound (by rw [hd]; simp)
          (by rw [List.length_append]; omega) hspan
        have hlen := congrArg List.length hd
        rw [List.length_append] at hle hlen
        obtain rfl : t = [] := List.length_eq_zero_iff.mp (by omega)
        rw [hrest.nil_inv, hd, List.append_nil]
        exact ⟨[], u, rfl, rfl⟩

end Scan

end Pattern
