import VCBrain.Foundation.Text

set_option relaxedAutoImplicit false
set_option autoImplicit false

/-!
# Patterns

The part of regular expressions that Python's `re` is used for here: a sequence of items, each a
character of a class, an optional one, a greedy repetition or an assertion about the neighbouring
characters. The matcher backtracks: a repetition takes as much as it can and gives back one
character at a time. A search goes from left to right and resumes behind each match.

## Main definitions

* `PatternItem`, `Pattern.matchLen` — the items, and the length of the match at a position.
* `Pattern.Matches` — the spans an item sequence describes.
* `Pattern.pieces`, `Pattern.sub` — a text split at its matches, and `re.sub`.
* `Pattern.StandsFree` — text that occurs at a place which no span overlaps.
* `Pattern.Covers` — a matcher that misses no span and swallows every span it meets.

## Main results

* `Pattern.matches_of_matchLen`, `Pattern.exists_matchLen` — the matcher is sound and complete.
* `Pattern.longest_many` — a repetition in front of a fixed width finds the longest span.
* `Pattern.infix_sub_iff` — the text that survives `re.sub` is the text that stands free.
-/

/-- An item of a pattern. -/
inductive PatternItem where
  /-- A character of the class. -/
  | one (p : Char → Bool)
  /-- A character of the class, or none. -/
  | opt (p : Char → Bool)
  /-- Characters of the class, as many as possible and no fewer than `least`. -/
  | many (least : ℕ) (p : Char → Bool)
  /-- The character before is of the class. -/
  | after (p : Char → Bool)
  /-- The character before is not of the class. -/
  | notAfter (p : Char → Bool)
  /-- The character that follows is not of the class. -/
  | notBefore (p : Char → Bool)
  /-- Exactly one of the neighbouring characters is of the class. -/
  | boundary (p : Char → Bool)

/-- The characters an item takes. -/
def PatternItem.takes : PatternItem → Char → Bool
  | one p | opt p | many _ p => p
  | _ => fun _ => false

namespace Pattern

/-! ## Matching -/

/-- One character of the class, and then what a matcher finds behind it. -/
def consume (p : Char → Bool) (m : Option Char → Str → Option ℕ) : Str → Option ℕ
  | [] => none
  | c :: s => if p c then (m (some c) s).map (· + 1) else none

/-- The first success of `f` from a number downwards. -/
def tryDown (f : ℕ → Option ℕ) : ℕ → Option ℕ
  | 0 => f 0
  | n + 1 => (f (n + 1)).or (tryDown f n)

/-- The length of the match that the items find in front of a text, given the character before. -/
def matchLen : List PatternItem → Option Char → Str → Option ℕ
  | [], _, _ => some 0
  | .one p :: is, _, s => consume p (matchLen is) s
  | .opt p :: is, prev, s => (consume p (matchLen is) s).or (matchLen is prev s)
  | .many least p :: is, prev, s =>
    tryDown (fun n => if n < least then none
      else (matchLen is ((s.take n).getLast?.or prev) (s.drop n)).map (n + ·))
      (s.takeWhile p).length
  | .after p :: is, prev, s => if prev.any p then matchLen is prev s else none
  | .notAfter p :: is, prev, s => if prev.any p then none else matchLen is prev s
  | .notBefore p :: is, prev, s => if s.head?.any p then none else matchLen is prev s
  | .boundary p :: is, prev, s => if prev.any p = s.head?.any p then none else matchLen is prev s

/-- The items describe a span between the character before it and the rest of the text. -/
def Matches : List PatternItem → Option Char → Str → Str → Prop
  | [], _, span, _ => span = []
  | .one p :: is, _, span, rest => ∃ c t, span = c :: t ∧ p c = true ∧ Matches is (some c) t rest
  | .opt p :: is, prev, span, rest =>
    (∃ c t, span = c :: t ∧ p c = true ∧ Matches is (some c) t rest) ∨ Matches is prev span rest
  | .many least p :: is, prev, span, rest =>
    ∃ u t, span = u ++ t ∧ least ≤ u.length ∧ (∀ c ∈ u, p c = true) ∧
      Matches is (u.getLast?.or prev) t rest
  | .after p :: is, prev, span, rest => prev.any p = true ∧ Matches is prev span rest
  | .notAfter p :: is, prev, span, rest => prev.any p = false ∧ Matches is prev span rest
  | .notBefore p :: is, prev, span, rest =>
    (span ++ rest).head?.any p = false ∧ Matches is prev span rest
  | .boundary p :: is, prev, span, rest =>
    prev.any p ≠ (span ++ rest).head?.any p ∧ Matches is prev span rest

section Matcher

variable {p : Char → Bool} {m : Option Char → Str → Option ℕ} {f : ℕ → Option ℕ} {k r n : ℕ}
  {items : List PatternItem} {prev : Option Char} {s span rest : Str}

lemma consume_eq_some : consume p m s = some n ↔
    ∃ c t k, s = c :: t ∧ p c = true ∧ m (some c) t = some k ∧ n = k + 1 := by
  constructor
  · intro h
    cases s with
    | nil => cases h
    | cons c t =>
      rw [consume] at h
      split_ifs at h with hc
      obtain ⟨k, hk, rfl⟩ := Option.map_eq_some_iff.mp h
      exact ⟨c, t, k, rfl, hc, hk, rfl⟩
  · rintro ⟨c, t, k, rfl, hc, hk, rfl⟩
    rw [consume, if_pos hc, hk, Option.map_some]

/-- What `tryDown` finds is the success of the largest number that has one. -/
lemma tryDown_eq_some (h : tryDown f k = some r) :
    ∃ n ≤ k, f n = some r ∧ ∀ i, n < i → i ≤ k → f i = none := by
  induction k with
  | zero =>
    refine ⟨0, le_refl _, h, fun i hlt hle => ?_⟩
    omega
  | succ k ih =>
    cases hf : f (k + 1) with
    | some r' =>
      rw [tryDown, hf, Option.some_or] at h
      refine ⟨k + 1, le_refl _, by rw [hf, h], fun i hlt hle => ?_⟩
      omega
    | none =>
      rw [tryDown, hf, Option.none_or] at h
      obtain ⟨n, hn, hfn, hlast⟩ := ih h
      refine ⟨n, by omega, hfn, fun i hlt hle => ?_⟩
      by_cases hi : i = k + 1
      · rw [hi, hf]
      · exact hlast i hlt (by omega)

/-- `tryDown` finds a success if there is one. -/
lemma exists_tryDown (hn : n ≤ k) (h : f n = some r) : ∃ r', tryDown f k = some r' := by
  induction k with
  | zero =>
    obtain rfl : n = 0 := by omega
    exact ⟨r, h⟩
  | succ k ih =>
    cases hf : f (k + 1) with
    | some r' => exact ⟨r', by rw [tryDown, hf, Option.some_or]⟩
    | none =>
      have hne : n ≠ k + 1 := by
        intro heq
        rw [heq, hf] at h
        cases h
      rw [tryDown, hf, Option.none_or]
      exact ih (by omega)

/-- The characters of a class in front of a text are among its first ones. -/
lemma length_le_takeWhile {u t : Str} (h : ∀ c ∈ u, p c = true) :
    u.length ≤ ((u ++ t).takeWhile p).length := by
  rw [List.takeWhile_append_of_pos h, List.length_append]
  omega

/-- The first characters of a text up to the end of a class are of the class. -/
lemma of_mem_take {c : Char} (hn : n ≤ (s.takeWhile p).length) (hc : c ∈ s.take n) :
    p c = true := by
  have hinit : s.take n <+: s.takeWhile p := by
    refine List.prefix_of_prefix_length_le (List.take_prefix _ _) (List.takeWhile_prefix _) ?_
    rw [List.length_take]
    omega
  exact List.mem_takeWhile_imp (hinit.subset hc)

/-- **Soundness.** What the matcher finds is a span that the items describe. -/
theorem matches_of_matchLen (h : matchLen items prev s = some n) :
    ∃ span rest, s = span ++ rest ∧ span.length = n ∧ Matches items prev span rest := by
  induction items generalizing prev s n with
  | nil => exact ⟨[], s, rfl, Option.some.inj h, rfl⟩
  | cons item is ih =>
    have hone : ∀ p, consume p (matchLen is) s = some n → ∃ span rest, s = span ++ rest ∧
        span.length = n ∧
          ∃ c t, span = c :: t ∧ p c = true ∧ Matches is (some c) t rest := by
      intro p hconsume
      obtain ⟨c, t, k, rfl, hc, hk, rfl⟩ := consume_eq_some.mp hconsume
      obtain ⟨span, rest, rfl, rfl, hspan⟩ := ih hk
      exact ⟨c :: span, rest, rfl, rfl, c, span, rfl, hc, hspan⟩
    cases item with
    | one p => exact hone p h
    | opt p =>
      rw [matchLen] at h
      cases hconsume : consume p (matchLen is) s with
      | some k =>
        rw [hconsume, Option.some_or] at h
        obtain ⟨span, rest, hs, hlen, hspan⟩ := hone p (hconsume.trans h)
        exact ⟨span, rest, hs, hlen, Or.inl hspan⟩
      | none =>
        rw [hconsume, Option.none_or] at h
        obtain ⟨span, rest, hs, hlen, hspan⟩ := ih h
        exact ⟨span, rest, hs, hlen, Or.inr hspan⟩
    | many least p =>
      obtain ⟨k, hk, htry, -⟩ := tryDown_eq_some h
      split_ifs at htry with hleast
      obtain ⟨l, hl, rfl⟩ := Option.map_eq_some_iff.mp htry
      obtain ⟨span, rest, hdrop, rfl, hspan⟩ := ih hl
      have hlen : (s.take k).length = k := by
        rw [List.length_take]
        have hle := (List.takeWhile_prefix (l := s) p).length_le
        omega
      refine ⟨s.take k ++ span, rest, ?_, by rw [List.length_append, hlen], s.take k, span, rfl,
        by omega, fun c hc => of_mem_take hk hc, hspan⟩
      rw [List.append_assoc, ← hdrop, List.take_append_drop]
    | after p =>
      rw [matchLen] at h
      split_ifs at h with hprev
      obtain ⟨span, rest, rfl, hlen, hspan⟩ := ih h
      exact ⟨span, rest, rfl, hlen, hprev, hspan⟩
    | notAfter p =>
      rw [matchLen] at h
      split_ifs at h with hprev
      obtain ⟨span, rest, rfl, hlen, hspan⟩ := ih h
      exact ⟨span, rest, rfl, hlen, Bool.eq_false_iff.mpr hprev, hspan⟩
    | notBefore p =>
      rw [matchLen] at h
      split_ifs at h with hnext
      obtain ⟨span, rest, rfl, hlen, hspan⟩ := ih h
      exact ⟨span, rest, rfl, hlen, Bool.eq_false_iff.mpr hnext, hspan⟩
    | boundary p =>
      rw [matchLen] at h
      split_ifs at h with hsame
      obtain ⟨span, rest, rfl, hlen, hspan⟩ := ih h
      exact ⟨span, rest, rfl, hlen, hsame, hspan⟩

lemma length_le_of_matchLen {n : ℕ} (h : matchLen items prev s = some n) : n ≤ s.length := by
  obtain ⟨span, rest, rfl, rfl, -⟩ := matches_of_matchLen h
  rw [List.length_append]
  omega

/-- A span has only characters that an item takes. -/
lemma exists_takes_of_matches {c : Char} (h : Matches items prev span rest) (hc : c ∈ span) :
    ∃ item ∈ items, item.takes c = true := by
  induction items generalizing prev span with
  | nil =>
    rw [show span = [] from h] at hc
    cases hc
  | cons item is ih =>
    have hrest : ∀ {prev t}, Matches is prev t rest → c ∈ t →
        ∃ item' ∈ item :: is, item'.takes c = true := by
      intro prev t ht hmem
      obtain ⟨item', hitem', htakes⟩ := ih ht hmem
      exact ⟨item', List.mem_cons_of_mem item hitem', htakes⟩
    have hone : ∀ {p : Char → Bool}, item.takes = p →
        (∃ d t, span = d :: t ∧ p d = true ∧ Matches is (some d) t rest) →
        ∃ item' ∈ item :: is, item'.takes c = true := by
      rintro p hitem ⟨d, t, rfl, hd, ht⟩
      rcases List.mem_cons.mp hc with rfl | hc
      · exact ⟨item, List.mem_cons_self .., by rw [hitem, hd]⟩
      · exact hrest ht hc
    cases item with
    | one p => exact hone rfl h
    | opt p =>
      rcases h with hspan | hspan
      · exact hone rfl hspan
      · exact hrest hspan hc
    | many least p =>
      obtain ⟨u, t, rfl, -, hu, ht⟩ := h
      rcases List.mem_append.mp hc with hc | hc
      · exact ⟨.many least p, List.mem_cons_self .., hu c hc⟩
      · exact hrest ht hc
    | after p | notAfter p | notBefore p | boundary p => exact hrest h.2 hc

/-- **Completeness.** Where the items describe a span, the matcher finds one. -/
theorem exists_matchLen (h : Matches items prev span rest) :
    ∃ n, matchLen items prev (span ++ rest) = some n := by
  induction items generalizing prev span with
  | nil => exact ⟨0, rfl⟩
  | cons item is ih =>
    have hone : ∀ p, (∃ c t, span = c :: t ∧ p c = true ∧ Matches is (some c) t rest) →
        ∃ n, consume p (matchLen is) (span ++ rest) = some n := by
      rintro p ⟨c, t, rfl, hc, ht⟩
      obtain ⟨k, hk⟩ := ih ht
      exact ⟨k + 1, consume_eq_some.mpr ⟨c, t ++ rest, k, rfl, hc, hk, rfl⟩⟩
    cases item with
    | one p => exact hone p h
    | opt p =>
      rw [matchLen]
      rcases h with hspan | hspan
      · obtain ⟨n, hn⟩ := hone p hspan
        exact ⟨n, by rw [hn, Option.some_or]⟩
      · obtain ⟨n, hn⟩ := ih hspan
        cases hconsume : consume p (matchLen is) (span ++ rest) with
        | some k => exact ⟨k, Option.some_or⟩
        | none => exact ⟨n, by rw [Option.none_or, hn]⟩
    | many least p =>
      obtain ⟨u, t, rfl, hleast, hu, ht⟩ := h
      obtain ⟨k, hk⟩ := ih ht
      have hle : u.length ≤ ((u ++ (t ++ rest)).takeWhile p).length := length_le_takeWhile hu
      rw [matchLen, List.append_assoc]
      refine exists_tryDown (r := u.length + k) hle ?_
      rw [if_neg (by omega), List.take_left, List.drop_left, hk, Option.map_some]
    | after p =>
      obtain ⟨n, hn⟩ := ih h.2
      exact ⟨n, by rw [matchLen, if_pos h.1, hn]⟩
    | notAfter p =>
      obtain ⟨n, hn⟩ := ih h.2
      exact ⟨n, by rw [matchLen, if_neg (Bool.eq_false_iff.mp h.1), hn]⟩
    | notBefore p =>
      obtain ⟨n, hn⟩ := ih h.2
      exact ⟨n, by rw [matchLen, if_neg (Bool.eq_false_iff.mp h.1), hn]⟩
    | boundary p =>
      obtain ⟨n, hn⟩ := ih h.2
      exact ⟨n, by rw [matchLen, if_neg h.1, hn]⟩

/-! ## Longest matches -/

/-- Whatever the items describe in front of a text is no longer than what the matcher finds. -/
def Longest (items : List PatternItem) : Prop :=
  ∀ prev s n, matchLen items prev s = some n →
    ∀ span rest, s = span ++ rest → Matches items prev span rest → span.length ≤ n

/-- The items describe spans of one length only. -/
def FixedWidth (items : List PatternItem) (k : ℕ) : Prop :=
  ∀ prev span rest, Matches items prev span rest → span.length = k

lemma fixedWidth_nil : FixedWidth [] 0 := by
  intro prev span rest h
  rw [show span = [] from h, List.length_nil]

lemma FixedWidth.one (h : FixedWidth items k) : FixedWidth (.one p :: items) (k + 1) := by
  rintro prev span rest ⟨c, t, rfl, -, ht⟩
  rw [List.length_cons, h _ _ _ ht]

lemma FixedWidth.notBefore (h : FixedWidth items k) : FixedWidth (.notBefore p :: items) k :=
  fun prev span rest hspan => h prev span rest hspan.2

lemma FixedWidth.boundary (h : FixedWidth items k) : FixedWidth (.boundary p :: items) k :=
  fun prev span rest hspan => h prev span rest hspan.2

/-- Spans of one length are as long as each other. -/
lemma FixedWidth.longest (h : FixedWidth items k) : Longest items := by
  intro prev s n hn span rest _ hspan
  obtain ⟨span', rest', -, rfl, hspan'⟩ := matches_of_matchLen hn
  rw [h _ _ _ hspan, h _ _ _ hspan']

/-- A repetition finds the longest span if a longer run of its class never makes a shorter span. -/
lemma Longest.many (h : Longest items) {least : ℕ}
    (hrun : ∀ prev prev' u t rest u' t' rest', u ++ t ++ rest = u' ++ t' ++ rest' →
      (∀ c ∈ u', p c = true) → Matches items prev t rest → Matches items prev' t' rest' →
      u.length < u'.length → (u ++ t).length ≤ (u' ++ t').length) :
    Longest (.many least p :: items) := by
  rintro prev s n hn span rest hs ⟨u, t, rfl, hleast, hu, ht⟩
  obtain ⟨i, hi, hfound, hlast⟩ := tryDown_eq_some hn
  split_ifs at hfound with hless
  obtain ⟨l, hl, rfl⟩ := Option.map_eq_some_iff.mp hfound
  have hi' : (s.take i).length = i := by
    rw [List.length_take]
    have hle := (List.takeWhile_prefix (l := s) p).length_le
    omega
  -- a repetition of the length of `u` succeeds as well, so the one found is at least as long
  have hle : u.length ≤ i := by
    by_contra hgt
    have hlen : u.length ≤ (s.takeWhile p).length := by
      rw [hs, List.append_assoc]
      exact length_le_takeWhile hu
    have hnone := hlast u.length (by omega) hlen
    obtain ⟨r, hr⟩ := exists_matchLen ht
    rw [if_neg (by omega), hs, List.append_assoc, List.take_left, List.drop_left, hr] at hnone
    cases hnone
  rcases hle.lt_or_eq with hlt | rfl
  · obtain ⟨span', rest', hdrop, rfl, hspan'⟩ := matches_of_matchLen hl
    have hsplit : u ++ t ++ rest = s.take i ++ span' ++ rest' := by
      rw [← hs, List.append_assoc, ← hdrop, List.take_append_drop]
    have hshort := hrun _ _ _ _ _ _ _ _ hsplit (fun c hc => of_mem_take hi hc) ht hspan'
      (by rw [hi']; exact hlt)
    rwa [List.length_append, List.length_append, hi', ← List.length_append] at hshort
  · rw [hs, List.append_assoc, List.take_left, List.drop_left] at hl
    have hshort := h _ _ _ hl t rest rfl ht
    rw [List.length_append]
    omega

/-- A repetition in front of items of one width finds the longest span. -/
lemma longest_many (h : FixedWidth items k) {least : ℕ} : Longest (.many least p :: items) := by
  refine h.longest.many fun prev prev' u t rest u' t' rest' _ _ ht ht' hlt => ?_
  rw [List.length_append, List.length_append, h _ _ _ ht, h _ _ _ ht']
  omega

lemma Longest.one (h : Longest items) : Longest (.one p :: items) := by
  rintro prev s n hn span rest hs ⟨c, t, rfl, -, ht⟩
  obtain ⟨c', s', k, rfl, -, hk, rfl⟩ := consume_eq_some.mp hn
  obtain ⟨rfl, rfl⟩ := List.cons.inj hs
  rw [List.length_cons]
  exact Nat.succ_le_succ (h _ _ _ hk t rest rfl ht)

/-- An option finds the longest span if what follows cannot begin with its class. -/
lemma Longest.opt (h : Longest items)
    (hfree : ∀ prev c t rest, p c = true → ¬ Matches items prev (c :: t) rest)
    (hpos : ∀ prev rest, ¬ Matches items prev [] rest) : Longest (.opt p :: items) := by
  intro prev s n hn span rest hs hspan
  rw [matchLen] at hn
  cases hconsume : consume p (matchLen items) s with
  | some k =>
    rw [hconsume, Option.some_or] at hn
    obtain ⟨c, t, l, rfl, hc, hl, rfl⟩ := consume_eq_some.mp (hconsume.trans hn)
    rcases hspan with hone | hrest
    · exact h.one prev _ _ (hconsume.trans hn) span rest hs hone
    · cases span with
      | nil => exact absurd hrest (hpos prev rest)
      | cons c' t' =>
        obtain ⟨rfl, -⟩ := List.cons.inj hs
        exact absurd hrest (hfree prev c t' rest hc)
  | none =>
    rw [hconsume, Option.none_or] at hn
    rcases hspan with ⟨c, t, rfl, hc, ht⟩ | hrest
    · obtain ⟨r, hr⟩ := exists_matchLen ht
      have hsome : consume p (matchLen items) s = some (r + 1) :=
        consume_eq_some.mpr ⟨c, t ++ rest, r, hs, hc, hr, rfl⟩
      rw [hsome] at hconsume
      cases hconsume
    · exact h prev s n hn span rest hs hrest

lemma Longest.notAfter (h : Longest items) : Longest (.notAfter p :: items) := by
  intro prev s n hn span rest hs hspan
  rw [matchLen] at hn
  split_ifs at hn
  exact h prev s n hn span rest hs hspan.2

lemma Longest.boundary (h : Longest items) : Longest (.boundary p :: items) := by
  intro prev s n hn span rest hs hspan
  rw [matchLen] at hn
  split_ifs at hn
  exact h prev s n hn span rest hs hspan.2

end Matcher

/-! ## Scanning -/

/-- A part of a text that has been searched: a character behind which no match begins, or a
match. -/
inductive Piece where
  | char (c : Char)
  | found (span : Str)
deriving DecidableEq

/-- The text of a part. -/
def Piece.text : Piece → Str
  | char c => [c]
  | found span => span

/-- The parts of a text, with the number of characters of a match that are still to be skipped. An
empty match is passed over. -/
def pieces (m : Option Char → Str → Option ℕ) : ℕ → Option Char → Str → List Piece
  | _, _, [] => []
  | skip + 1, _, c :: s => pieces m skip (some c) s
  | 0, prev, c :: s =>
    match m prev (c :: s) with
    | some (n + 1) => .found ((c :: s).take (n + 1)) :: pieces m n (some c) s
    | _ => .char c :: pieces m 0 (some c) s

/-- The parts of a text as they are found one after another. -/
inductive Scan (m : Option Char → Str → Option ℕ) : Option Char → Str → List Piece → Prop
  | nil (prev : Option Char) : Scan m prev [] []
  | char {prev : Option Char} {c : Char} {s : Str} {ps : List Piece}
      (hnone : ∀ n, m prev (c :: s) ≠ some (n + 1)) (hrest : Scan m (some c) s ps) :
      Scan m prev (c :: s) (.char c :: ps)
  | found {prev : Option Char} {span rest : Str} {ps : List Piece}
      (hfound : m prev (span ++ rest) = some span.length) (hne : span ≠ [])
      (hrest : Scan m (span.getLast?.or prev) rest ps) :
      Scan m prev (span ++ rest) (.found span :: ps)

section Scan

variable {m : Option Char → Str → Option ℕ} {prev : Option Char} {s : Str} {ps : List Piece}

lemma pieces_skip (n : ℕ) :
    pieces m n prev s = pieces m 0 ((s.take n).getLast?.or prev) (s.drop n) := by
  induction n generalizing prev s with
  | zero => rfl
  | succ n ih =>
    cases s with
    | nil => rfl
    | cons c s =>
      rw [pieces, ih, List.take_succ_cons, List.drop_succ_cons, List.getLast?_cons]
      cases hlast : (s.take n).getLast? <;> rfl

/-- The parts of a text are found one after another. -/
theorem scan_pieces (hm : ∀ prev s n, m prev s = some n → n ≤ s.length) (prev : Option Char)
    (s : Str) : Scan m prev s (pieces m 0 prev s) := by
  induction hlen : s.length using Nat.strong_induction_on generalizing prev s with
  | _ len ih =>
    cases s with
    | nil => exact .nil prev
    | cons c t =>
      rw [List.length_cons] at hlen
      cases hfound : m prev (c :: t) with
      | none =>
        rw [pieces, hfound]
        exact .char (by simp [hfound]) (ih t.length (by omega) _ _ rfl)
      | some n =>
        cases n with
        | zero =>
          rw [pieces, hfound]
          exact .char (by simp [hfound]) (ih t.length (by omega) _ _ rfl)
        | succ n =>
          have hle := hm _ _ _ hfound
          rw [List.length_cons] at hle
          have htake : ((c :: t).take (n + 1)).length = n + 1 := by
            rw [List.length_take, List.length_cons]
            omega
          have hsplit : c :: t = (c :: t).take (n + 1) ++ t.drop n :=
            (List.take_append_drop (n + 1) (c :: t)).symm
          have hlast : (t.take n).getLast?.or (some c) =
              ((c :: t).take (n + 1)).getLast?.or prev := by
            rw [List.take_succ_cons, List.getLast?_cons]
            cases (t.take n).getLast? <;> rfl
          rw [pieces, hfound]
          show Scan m prev (c :: t) (.found ((c :: t).take (n + 1)) :: pieces m n (some c) t)
          rw [pieces_skip, hlast]
          have hscan : Scan m prev ((c :: t).take (n + 1) ++ t.drop n)
              (.found ((c :: t).take (n + 1)) ::
                pieces m 0 (((c :: t).take (n + 1)).getLast?.or prev) (t.drop n)) := by
            refine .found (by rw [← hsplit, hfound, htake]) (fun hnil => ?_) ?_
            · rw [hnil] at htake
              cases htake
            · exact ih (t.drop n).length (by rw [List.length_drop]; omega) _ _ rfl
          rwa [← hsplit] at hscan

/-- The parts of a text make up the text. -/
lemma Scan.text (h : Scan m prev s ps) : ps.flatMap Piece.text = s := by
  induction h with
  | nil => rfl
  | char hnone hrest ih => rw [List.flatMap_cons, ih]; rfl
  | found hfound hne hrest ih => rw [List.flatMap_cons, ih]; rfl

end Scan

/-! ## Substitution -/

/-- The text in which every match is replaced. -/
def replaceFound (repl : Str) (ps : List Piece) : Str :=
  ps.flatMap fun
    | .char c => [c]
    | .found _ => repl

/-- `re.sub`: every match is replaced, from left to right. -/
def sub (m : Option Char → Str → Option ℕ) (repl s : Str) : Str :=
  replaceFound repl (pieces m 0 none s)

/-- The text of the matches. -/
def foundSpans (ps : List Piece) : List Str :=
  ps.filterMap fun
    | .char _ => none
    | .found span => some span

/-- `re.findall`: the text of the matches. -/
def findAll (m : Option Char → Str → Option ℕ) (s : Str) : List Str :=
  foundSpans (pieces m 0 none s)

/-- The text between the matches, with the field read so far in reverse. -/
def fields : Str → List Piece → List Str
  | field, [] => [field.reverse]
  | field, .char c :: ps => fields (c :: field) ps
  | field, .found _ :: ps => field.reverse :: fields [] ps

/-- `re.split`: the text between the matches. -/
def split (m : Option Char → Str → Option ℕ) (s : Str) : List Str := fields [] (pieces m 0 none s)

/-- The text occurs at a place that no span overlaps. -/
def StandsFree (M : Option Char → Str → Str → Prop) (prev : Option Char) (x s : Str) : Prop :=
  ∃ pre post, s = pre ++ x ++ post ∧ ∀ a span b, s = a ++ span ++ b → span ≠ [] →
    M (a.getLast?.or prev) span b →
      a.length + span.length ≤ pre.length ∨ pre.length + x.length ≤ a.length

/-- A matcher finds spans of one kind only. -/
def Sound (m : Option Char → Str → Option ℕ) (M : Option Char → Str → Str → Prop) : Prop :=
  ∀ prev s n, m prev s = some n →
    ∃ span rest, s = span ++ rest ∧ span.length = n ∧ M prev span rest

/-- A matcher covers a kind of spans: it finds only such spans, it finds one wherever there is one,
and a span that begins inside a match also ends inside it. -/
structure Covers (m : Option Char → Str → Option ℕ) (M : Option Char → Str → Str → Prop) :
    Prop where
  sound : Sound m M
  complete : ∀ prev span rest, span ≠ [] → M prev span rest →
    ∃ n, m prev (span ++ rest) = some (n + 1)
  cover : ∀ prev sp rest a span b, m prev (sp ++ rest) = some sp.length →
    sp ++ rest = a ++ span ++ b → a.length < sp.length → M (a.getLast?.or prev) span b →
      a.length + span.length ≤ sp.length

section Sub

variable {m : Option Char → Str → Option ℕ} {M : Option Char → Str → Str → Prop}
  {prev : Option Char} {s x repl : Str} {ps : List Piece}

lemma getLast?_cons_or (c : Char) (a : Str) (prev : Option Char) :
    (c :: a).getLast?.or prev = a.getLast?.or (some c) := by
  rw [List.getLast?_cons]
  cases a.getLast? <;> rfl

lemma getLast?_append_or (u a : Str) (prev : Option Char) :
    (u ++ a).getLast?.or prev = a.getLast?.or (u.getLast?.or prev) := by
  rw [List.getLast?_append, Option.or_assoc]

/-- Text in front of which no span begins is scanned character by character. -/
private lemma prefix_of_scan (hsound : Sound m M) {post : Str}
    (hscan : Scan m prev (x ++ post) ps)
    (hfree : ∀ a span b, x ++ post = a ++ span ++ b → span ≠ [] →
      M (a.getLast?.or prev) span b → x.length ≤ a.length) :
    x.map Piece.char <+: ps := by
  induction x generalizing prev ps with
  | nil => exact List.nil_prefix
  | cons c x ih =>
    generalize hs : c :: x ++ post = s at hscan
    cases hscan with
    | nil => cases hs
    | char hnone hrest =>
      obtain ⟨rfl, rfl⟩ := List.cons.inj hs
      refine List.cons_prefix_cons.mpr ⟨rfl, ih hrest fun a span b heq hne hspan => ?_⟩
      rw [← getLast?_cons_or c a prev] at hspan
      have hle := hfree (c :: a) span b (by rw [List.cons_append, heq]; rfl) hne hspan
      simpa using hle
    | @found _ span rest ps hfound hne hrest =>
      obtain ⟨span', rest', heq, hlen, hspan⟩ := hsound _ _ _ hfound
      have hne' : span' ≠ [] := by
        intro hnil
        rw [hnil] at hlen
        exact hne (List.length_eq_zero_iff.mp hlen.symm)
      have hle := hfree [] span' rest' (hs.trans heq) hne' hspan
      simp at hle

/-- **What survives.** Text that stands free is scanned character by character. -/
theorem infix_of_standsFree (hsound : Sound m M) (hx : x ≠ []) (hscan : Scan m prev s ps)
    (h : StandsFree M prev x s) : x.map Piece.char <:+: ps := by
  obtain ⟨pre, post, hs, hfree⟩ := h
  induction hscan generalizing pre with
  | nil =>
    exfalso
    simp [hx] at hs
  | @char prev c t ps hnone hrest ih =>
    cases pre with
    | nil =>
      rw [List.nil_append] at hs
      have hscan : Scan m prev (x ++ post) (.char c :: ps) := hs ▸ Scan.char hnone hrest
      refine (prefix_of_scan hsound hscan fun a span b heq hne hspan => ?_).isInfix
      rcases hfree a span b (hs.trans heq) hne hspan with hbefore | hafter
      · rw [List.length_nil, Nat.le_zero, Nat.add_eq_zero_iff] at hbefore
        exact absurd (List.length_eq_zero_iff.mp hbefore.2) hne
      · simpa using hafter
    | cons c' pre =>
      obtain ⟨rfl, htail⟩ := List.cons.inj hs
      refine List.infix_cons (ih pre htail fun a span b heq hne hspan => ?_)
      rw [← getLast?_cons_or c a prev] at hspan
      have hside := hfree (c :: a) span b (by rw [heq]; rfl) hne hspan
      simp only [List.length_cons] at hside
      omega
  | @found prev span rest ps hfound hne hrest ih =>
    obtain ⟨span', rest', heq, hlen, hspan⟩ := hsound _ _ _ hfound
    obtain ⟨rfl, rfl⟩ := List.append_inj heq hlen.symm
    have hle : span.length ≤ pre.length := by
      rcases hfree [] span rest rfl hne hspan with hbefore | hafter
      · simpa using hbefore
      · have hxpos : 0 < x.length := List.length_pos_iff.mpr hx
        rw [List.length_nil] at hafter
        omega
    obtain ⟨pre', rfl⟩ : ∃ pre', pre = span ++ pre' := by
      rw [List.append_assoc] at hs
      obtain ⟨u, hu, -⟩ | ⟨u, hu, -⟩ := List.append_eq_append_iff.mp hs
      · exact ⟨u, hu⟩
      · have hnil : u = [] := by
          rw [hu, List.length_append] at hle
          exact List.length_eq_zero_iff.mp (by omega)
        exact ⟨[], by rw [hu, hnil, List.append_nil, List.append_nil]⟩
    have hrest' : rest = pre' ++ x ++ post := by
      rw [List.append_assoc, List.append_assoc] at hs
      rw [List.append_assoc]
      exact List.append_cancel_left hs
    refine (ih pre' hrest' fun a sp b heq' hne' hsp => ?_).trans (List.suffix_cons _ _).isInfix
    rw [← getLast?_append_or span a prev] at hsp
    have hside := hfree (span ++ a) sp b (by simp [heq']) hne' hsp
    simp only [List.length_append] at hside
    omega

/-- No span begins in text that is scanned character by character. -/
private lemma length_le_of_scan (hcovers : Covers m M) (hscan : Scan m prev s ps)
    {after : List Piece} (hps : ps = x.map Piece.char ++ after) {a span b : Str}
    (hs : s = a ++ span ++ b) (hne : span ≠ []) (hspan : M (a.getLast?.or prev) span b) :
    x.length ≤ a.length := by
  induction x generalizing prev s ps a with
  | nil => exact Nat.zero_le _
  | cons c x ih =>
    subst hps
    generalize hps : (c :: x).map Piece.char ++ after = ps at hscan
    cases hscan with
    | nil => cases hps
    | @char _ c' t ps hnone hrest =>
      obtain ⟨hc, rfl⟩ := List.cons.inj hps
      cases hc
      cases a with
      | nil =>
        obtain ⟨n, hn⟩ := hcovers.complete _ _ _ hne hspan
        rw [List.nil_append] at hs
        exact absurd (hs ▸ hn) (hnone n)
      | cons c'' a =>
        obtain ⟨rfl, htail⟩ := List.cons.inj hs
        rw [getLast?_cons_or] at hspan
        exact Nat.succ_le_succ (ih hrest rfl htail hspan)
    | found hfound _ hrest => cases (List.cons.inj hps).1

/-- **What was not replaced stood free.** -/
theorem standsFree_of_infix (hcovers : Covers m M) (hx : x ≠ []) (hscan : Scan m prev s ps)
    (h : x.map Piece.char <:+: ps) : StandsFree M prev x s := by
  obtain ⟨before, after, hps⟩ := h
  induction hscan generalizing before with
  | nil =>
    exfalso
    simp [hx] at hps
  | @char prev c t ps hnone hrest ih =>
    -- a span at the very beginning would have been found
    have hstart : ∀ span b, c :: t = [] ++ span ++ b → span ≠ [] →
        ¬ M (Option.or ([] : Str).getLast? prev) span b := by
      intro span b heq hne hspan
      obtain ⟨n, hn⟩ := hcovers.complete _ _ _ hne hspan
      rw [List.nil_append] at heq
      exact hnone n (heq ▸ hn)
    cases before with
    | nil =>
      rw [List.nil_append] at hps
      have hwhole : c :: t = x ++ after.flatMap Piece.text := by
        rw [← (Scan.char hnone hrest).text, ← hps, List.flatMap_append]
        congr 1
        rw [List.flatMap_map]
        exact List.flatMap_singleton' x
      refine ⟨[], after.flatMap Piece.text, hwhole, fun a span b heq hne hspan => Or.inr ?_⟩
      have hle := length_le_of_scan hcovers (.char hnone hrest) hps.symm heq hne hspan
      simpa using hle
    | cons q before =>
      obtain ⟨rfl, htail⟩ := List.cons.inj hps
      obtain ⟨pre, post, rfl, hfree⟩ := ih before htail
      refine ⟨c :: pre, post, rfl, fun a span b heq hne hspan => ?_⟩
      cases a with
      | nil => exact absurd hspan (hstart span b heq hne)
      | cons c' a =>
        obtain ⟨rfl, hrest'⟩ := List.cons.inj heq
        rw [getLast?_cons_or] at hspan
        have hside := hfree a span b hrest' hne hspan
        simp only [List.length_cons]
        omega
  | @found prev sp rest ps hfound hne hrest ih =>
    cases before with
    | nil =>
      cases x with
      | nil => exact absurd rfl hx
      | cons c x => cases (List.cons.inj hps).1
    | cons q before =>
      obtain ⟨rfl, htail⟩ := List.cons.inj hps
      obtain ⟨pre, post, rfl, hfree⟩ := ih before htail
      refine ⟨sp ++ pre, post, by simp, fun a span b heq hne' hspan => ?_⟩
      by_cases hlt : a.length < sp.length
      · have hinside := hcovers.cover _ _ _ a span b hfound heq hlt hspan
        rw [List.length_append]
        omega
      · obtain ⟨a', rfl⟩ : ∃ a', a = sp ++ a' := by
          rw [List.append_assoc a] at heq
          obtain ⟨u, hu, -⟩ | ⟨u, hu, -⟩ := List.append_eq_append_iff.mp heq
          · exact ⟨u, hu⟩
          · have hnil : u = [] := by
              rw [hu, List.length_append] at hlt
              exact List.length_eq_zero_iff.mp (by omega)
            exact ⟨[], by rw [hu, hnil, List.append_nil, List.append_nil]⟩
        rw [getLast?_append_or] at hspan
        have hrest' : pre ++ x ++ post = a' ++ span ++ b := by
          rw [List.append_assoc sp, List.append_assoc sp] at heq
          exact List.append_cancel_left heq
        have hside := hfree a' span b hrest' hne' hspan
        simp only [List.length_append]
        omega

/-- What is scanned character by character survives a replacement. -/
lemma infix_replaceFound (h : x.map Piece.char <:+: ps) : x <:+: replaceFound repl ps := by
  obtain ⟨before, after, rfl⟩ := h
  refine ⟨replaceFound repl before, replaceFound repl after, ?_⟩
  unfold replaceFound
  rw [List.flatMap_append, List.flatMap_append, List.flatMap_map]
  congr 2
  exact (List.flatMap_singleton' x).symm

/-- Text without a character of the replacement begins what a replacement leaves only if it was
scanned character by character. -/
private lemma prefix_of_prefix_replaceFound (hne : repl ≠ []) (hrepl : ∀ c ∈ repl, c ∉ x)
    (h : x <+: replaceFound repl ps) : x.map Piece.char <+: ps := by
  induction x generalizing ps with
  | nil => exact List.nil_prefix
  | cons c x ih =>
    cases ps with
    | nil =>
      rw [replaceFound, List.flatMap_nil, List.prefix_nil] at h
      cases h
    | cons q ps =>
      cases q with
      | char d =>
        have hcons : c :: x <+: d :: replaceFound repl ps := h
        obtain ⟨rfl, htail⟩ := List.cons_prefix_cons.mp hcons
        refine List.cons_prefix_cons.mpr ⟨rfl, ih (fun e he hmem => ?_) htail⟩
        exact hrepl e he (List.mem_cons_of_mem c hmem)
      | found span =>
        obtain ⟨r, repl', rfl⟩ := List.exists_cons_of_ne_nil hne
        have hcons : c :: x <+: r :: (repl' ++ replaceFound (r :: repl') ps) := h
        obtain ⟨rfl, -⟩ := List.cons_prefix_cons.mp hcons
        exact absurd (List.mem_cons_self ..) (hrepl c (List.mem_cons_self ..))

/-- Text does not occur at a place that begins with characters it does not have. -/
private lemma infix_of_infix_append {r t : Str} (hx : x ≠ []) (hr : ∀ c ∈ r, c ∉ x)
    (h : x <:+: r ++ t) : x <:+: t := by
  induction r with
  | nil => exact h
  | cons d r ih =>
    rcases List.infix_cons_iff.mp h with hinit | hrest
    · obtain ⟨c, y, rfl⟩ := List.exists_cons_of_ne_nil hx
      obtain ⟨rfl, -⟩ := List.cons_prefix_cons.mp hinit
      exact absurd (List.mem_cons_self ..) (hr c (List.mem_cons_self ..))
    · exact ih (fun c hc => hr c (List.mem_cons_of_mem d hc)) hrest

/-- Text without a character of the replacement occurs in what a replacement leaves only where it
was scanned character by character. -/
lemma infix_of_infix_replaceFound (hx : x ≠ []) (hne : repl ≠ []) (hrepl : ∀ c ∈ repl, c ∉ x)
    (h : x <:+: replaceFound repl ps) : x.map Piece.char <:+: ps := by
  induction ps with
  | nil =>
    rw [replaceFound, List.flatMap_nil, List.infix_nil] at h
    exact absurd h hx
  | cons q ps ih =>
    cases q with
    | char d =>
      have hcons : x <:+: d :: replaceFound repl ps := h
      rcases List.infix_cons_iff.mp hcons with hinit | hrest
      · have hwhole : x <+: replaceFound repl (.char d :: ps) := hinit
        exact (prefix_of_prefix_replaceFound hne hrepl hwhole).isInfix
      · exact List.infix_cons (ih hrest)
    | found span =>
      have happend : x <:+: repl ++ replaceFound repl ps := h
      exact List.infix_cons (ih (infix_of_infix_append hx hrepl happend))

/-- A sound matcher finds the parts of a text one after another. -/
lemma scan_of_sound (hsound : Sound m M) (prev : Option Char) (s : Str) :
    Scan m prev s (pieces m 0 prev s) := by
  refine scan_pieces (fun prev s n hn => ?_) prev s
  obtain ⟨span, rest, rfl, rfl, -⟩ := hsound _ _ _ hn
  rw [List.length_append]
  omega

/-- Text that stands free survives `re.sub`. -/
theorem infix_sub_of_standsFree (hsound : Sound m M) (hx : x ≠ []) (h : StandsFree M none x s) :
    x <:+: sub m repl s :=
  infix_replaceFound (infix_of_standsFree hsound hx (scan_of_sound hsound none s) h)

/-- **Substitution.** Text without a character of the replacement survives `re.sub` exactly if it
stands free.

**Proof sketch.** What survives was scanned character by character. A span that overlaps it would
begin in front of such a character, where the matcher would have found it, or inside a match, where
it also ends. -/
theorem infix_sub_iff (hcovers : Covers m M) (hx : x ≠ []) (hne : repl ≠ [])
    (hrepl : ∀ c ∈ repl, c ∉ x) : x <:+: sub m repl s ↔ StandsFree M none x s := by
  have hscan := scan_of_sound hcovers.sound none s
  constructor
  · intro h
    exact standsFree_of_infix hcovers hx hscan (infix_of_infix_replaceFound hx hne hrepl h)
  · exact infix_sub_of_standsFree hcovers.sound hx

/-! ## Text between two marks -/

/-- Text stands free if it does so with a mark on each side. -/
lemma StandsFree.inner {l r : Char} (h : StandsFree M prev (l :: x ++ [r]) s) :
    StandsFree M prev x s := by
  obtain ⟨pre, post, hs, hfree⟩ := h
  refine ⟨pre ++ [l], r :: post, by simp [hs], fun a span b heq hne hspan => ?_⟩
  have hside := hfree a span b heq hne hspan
  simp only [List.cons_append, List.length_cons, List.length_append, List.length_nil] at hside ⊢
  omega

/-- A span without a mark ends in front of the mark or begins behind it. -/
private lemma split_at_mark {c : Char} {pre post a span b : Str}
    (h : pre ++ c :: post = a ++ span ++ b) (hc : c ∉ span) :
    (∃ v, pre = a ++ span ++ v ∧ b = v ++ c :: post) ∨
      ∃ u, a = pre ++ c :: u ∧ post = u ++ span ++ b := by
  rcases List.append_eq_append_iff.mp h with ⟨w, hw, hb⟩ | ⟨w, hpre, hb⟩
  · cases w with
    | nil =>
      left
      rw [List.append_nil] at hw
      exact ⟨[], by rw [hw, List.append_nil], hb.symm⟩
    | cons d w =>
      obtain ⟨rfl, hpost⟩ := List.cons.inj hb
      rcases List.append_eq_append_iff.mp hw with ⟨y, -, hspan⟩ | ⟨y, ha, hy⟩
      · rw [hspan] at hc
        exact absurd (List.mem_append_right _ (List.mem_cons_self ..)) hc
      · cases y with
        | nil =>
          rw [List.nil_append] at hy
          rw [← hy] at hc
          exact absurd (List.mem_cons_self ..) hc
        | cons e u =>
          obtain ⟨rfl, hu⟩ := List.cons.inj hy
          right
          exact ⟨u, ha, by rw [hpost, hu]; rfl⟩
  · left
    exact ⟨w, hpre, hb⟩

/-- A span without the marks that overlaps the text between them lies inside it. -/
lemma inside_of_overlap {l r : Char} {pre post a span b : Str}
    (h : pre ++ (l :: x ++ [r]) ++ post = a ++ span ++ b) (hl : l ∉ span) (hr : r ∉ span) :
    a.length + span.length ≤ pre.length ∨ pre.length + (l :: x ++ [r]).length ≤ a.length ∨
      ∃ u v, x = u ++ span ++ v ∧ a = pre ++ l :: u ∧ b = v ++ r :: post := by
  have hmarks : pre ++ l :: (x ++ r :: post) = a ++ span ++ b := by
    rw [← h]
    simp
  rcases split_at_mark hmarks hl with ⟨v, rfl, -⟩ | ⟨u, rfl, hrest⟩
  · left
    simp only [List.length_append]
    omega
  · rcases split_at_mark hrest hr with ⟨v, hx, hb⟩ | ⟨u', rfl, -⟩
    · right; right
      exact ⟨u, v, hx, rfl, hb⟩
    · right; left
      simp only [List.cons_append, List.length_cons, List.length_append, List.length_nil]
      omega

/-- **Marked text.** Text between two marks that no span contains stands free with them if no span
lies inside it. -/
lemma standsFree_of_marked {l r : Char}
    (hmarks : ∀ prev span rest, M prev span rest → l ∉ span ∧ r ∉ span)
    (hinside : ∀ u span v, x = u ++ span ++ v → span ≠ [] → ∀ post,
      ¬ M (u.getLast?.or (some l)) span (v ++ r :: post))
    (h : l :: x ++ [r] <:+: s) : StandsFree M prev (l :: x ++ [r]) s := by
  obtain ⟨pre, post, rfl⟩ := h
  refine ⟨pre, post, rfl, fun a span b heq hne hspan => ?_⟩
  obtain ⟨hl, hr⟩ := hmarks _ _ _ hspan
  rcases inside_of_overlap heq hl hr with hbefore | hafter | ⟨u, v, hx, rfl, rfl⟩
  · exact Or.inl hbefore
  · exact Or.inr hafter
  · rw [getLast?_append_or, getLast?_cons_or] at hspan
    exact absurd hspan (hinside u span v hx hne post)

end Sub

end Pattern
