import VCBrain.Foundation.Remnant

set_option relaxedAutoImplicit false
set_option autoImplicit false

/-!
# Substitutions around a separator

A character that no item of a pattern takes and that no assertion is about is for the matcher what
the end of the text is. A substitution works on both sides of it on its own.

## Main definitions

* `PatternItem.Rejects` — neither the item nor its assertion is about the character.
* `Str.Splits` — a function on texts works on both sides of a character on its own.

## Main results

* `Pattern.matchLen_sep` — the matcher stops in front of a separator.
* `Pattern.splits_sub` — a substitution works on both sides of a separator.
* `Str.Splits.infix_take_iff` — where a word stands in the first part of the result.
-/

/-- Neither an item nor its assertion is about the character. -/
def PatternItem.Rejects (c : Char) : PatternItem → Prop
  | one p | opt p | many _ p | after p | notAfter p | notBefore p | boundary p => p c = false

namespace Str

/-- A function on texts works on both sides of a character on its own, and does not write it. -/
structure Splits (f : Str → Str) (c : Char) : Prop where
  append : ∀ a b, f (a ++ c :: b) = f a ++ c :: f b
  mem : ∀ s, c ∈ f s → c ∈ s

lemma splits_id (c : Char) : Splits id c := ⟨fun _ _ => rfl, fun _ => id⟩

lemma Splits.comp {f g : Str → Str} {c : Char} (hf : Splits f c) (hg : Splits g c) :
    Splits (f ∘ g) c := by
  refine ⟨fun a b => ?_, fun s hmem => hg.mem s (hf.mem _ hmem)⟩
  rw [Function.comp_apply, hg.append, hf.append]
  rfl

/-- Where the character stands in the result it stood in the text. -/
lemma Splits.exists_of_eq {f : Str → Str} {c : Char} {s a b : Str} (h : Splits f c)
    (heq : f s = a ++ c :: b) : ∃ x y, s = x ++ c :: y ∧ f x = a ∧ f y = b := by
  induction hlen : s.length using Nat.strong_induction_on generalizing s a with
  | _ n ih =>
  have hmem : c ∈ s := h.mem s (by rw [heq]; exact List.mem_append_right a (List.mem_cons_self ..))
  obtain ⟨x, y, rfl, hfirst⟩ := List.eq_append_cons_of_mem hmem
  rw [h.append] at heq
  rcases List.append_eq_append_iff.mp heq with ⟨d, ha, hd⟩ | ⟨d, hx, hd⟩
  · cases d with
    | nil =>
      rw [List.nil_append] at hd
      exact ⟨x, y, rfl, by rw [ha, List.append_nil], (List.cons.inj hd).2⟩
    | cons e d =>
      -- the character that is asked for stands behind the first one
      obtain ⟨rfl, hy⟩ := List.cons.inj hd
      rw [List.length_append, List.length_cons] at hlen
      obtain ⟨x', y', rfl, hx', hy'⟩ := ih y.length (by omega) hy rfl
      refine ⟨x ++ c :: x', y', by simp, ?_, hy'⟩
      rw [h.append, hx', ha]
  · cases d with
    | nil =>
      rw [List.nil_append] at hd
      exact ⟨x, y, rfl, by rw [hx, List.append_nil], (List.cons.inj hd).2.symm⟩
    | cons e d =>
      obtain ⟨rfl, -⟩ := List.cons.inj hd
      refine absurd (h.mem x ?_) hfirst
      rw [hx]
      exact List.mem_append_right a (List.mem_cons_self ..)

/-- A word stands in the first part of a text if it ends there. -/
lemma infix_take_iff {word s : Str} {n : ℕ} :
    word <:+: s.take n ↔ ∃ a, a ++ word <+: s ∧ (a ++ word).length ≤ n := by
  constructor
  · rintro ⟨a, b, hab⟩
    have hinit : a ++ word <+: s.take n := ⟨b, hab⟩
    exact ⟨a, hinit.trans (List.take_prefix n s), hinit.length_le.trans (List.length_take_le n s)⟩
  · rintro ⟨a, hinit, hle⟩
    have htake : a ++ word <+: s.take n := List.prefix_take_iff.mpr ⟨hinit, hle⟩
    exact (List.suffix_append a word).isInfix.trans htake.isInfix

/-- A function on texts keeps a word: it works on both sides of the first and of the last character
of it on its own, and what is between them comes from the same text only. -/
structure Keeps (f : Str → Str) (word : Str) : Prop where
  split : ∃ l mid r, word = l :: (mid ++ [r]) ∧ Splits f l ∧ Splits f r ∧ ∀ x, f x = mid ↔ x = mid

lemma keeps_id {word : Str} {l r : Char} {mid : Str} (h : word = l :: (mid ++ [r])) :
    Keeps id word :=
  ⟨l, mid, r, h, splits_id l, splits_id r, fun _ => Iff.rfl⟩

/-- **Kept words.** A word stands in a result exactly if it stands in the text, behind what becomes
of the text in front of it. -/
lemma Keeps.behind_iff {f : Str → Str} {word s a : Str} (h : Keeps f word) :
    a ++ word <+: f s ↔ ∃ x, x ++ word <+: s ∧ f x = a := by
  obtain ⟨l, mid, r, rfl, hl, hr, hmid⟩ := h.split
  constructor
  · rintro ⟨b, hb⟩
    have hb' : f s = a ++ l :: (mid ++ r :: b) := by
      rw [← hb]
      simp
    obtain ⟨x, y, rfl, hx, hy⟩ := hl.exists_of_eq hb'
    obtain ⟨m, z, rfl, hm, -⟩ := hr.exists_of_eq hy
    obtain rfl := (hmid m).mp hm
    exact ⟨x, ⟨z, by simp⟩, hx⟩
  · rintro ⟨x, ⟨b, rfl⟩, rfl⟩
    have hsplit : x ++ l :: (mid ++ [r]) ++ b = x ++ l :: (mid ++ r :: b) := by simp
    refine ⟨f b, ?_⟩
    rw [hsplit, hl.append, hr.append, (hmid mid).mpr rfl]
    simp

end Str

namespace Pattern

variable {p : Char → Bool} {items : List PatternItem} {prev : Option Char} {s t : Str} {c : Char}

private lemma consume_sep {m : Option Char → Str → Option ℕ} (hc : p c = false)
    (h : ∀ prev s, m prev (s ++ c :: t) = m prev s) :
    consume p m (s ++ c :: t) = consume p m s := by
  cases s with
  | nil => simp [consume, hc]
  | cons d s => rw [List.cons_append, consume, consume, h]

private lemma tryDown_congr {f g : ℕ → Option ℕ} {k : ℕ} (h : ∀ i ≤ k, f i = g i) :
    tryDown f k = tryDown g k := by
  induction k with
  | zero => exact h 0 (le_refl _)
  | succ k ih => rw [tryDown, tryDown, h (k + 1) (le_refl _), ih fun i hi => h i (by omega)]

/-- **Separators.** The matcher finds in front of a separator what it finds in front of the end of
the text. -/
theorem matchLen_sep (h : ∀ item ∈ items, item.Rejects c) :
    matchLen items prev (s ++ c :: t) = matchLen items prev s := by
  induction items generalizing prev s with
  | nil => rfl
  | cons item is ih =>
    have hc : item.Rejects c := h item (List.mem_cons_self ..)
    have his : ∀ prev s, matchLen is prev (s ++ c :: t) = matchLen is prev s := fun _ _ =>
      ih fun item' hmem => h item' (List.mem_cons_of_mem item hmem)
    have hhead : ∀ p : Char → Bool, p c = false → (s ++ c :: t).head?.any p = s.head?.any p := by
      intro p hp
      cases s with
      | nil => simp [hp]
      | cons d s => rfl
    cases item with
    | one p => exact consume_sep hc his
    | opt p => rw [matchLen, matchLen, consume_sep hc his, his]
    | many least p =>
      have hrun : (s ++ c :: t).takeWhile p = s.takeWhile p := by
        rw [List.takeWhile_append]
        split_ifs with hall
        · rw [List.takeWhile_cons, if_neg (by rw [hc]; decide), List.append_nil]
          exact ((List.takeWhile_prefix p).eq_of_length hall).symm
        · rfl
      have hle := (List.takeWhile_prefix (l := s) p).length_le
      rw [matchLen, matchLen, hrun]
      refine tryDown_congr fun i hi => ?_
      rw [List.take_append_of_le_length (hi.trans hle),
        List.drop_append_of_le_length (hi.trans hle), his]
    | after p | notAfter p => rw [matchLen, matchLen, his]
    | notBefore p | boundary p => rw [matchLen, matchLen, his, hhead p hc]

/-- Behind a separator the matcher finds what it finds at the beginning of the text. -/
lemma matchLen_some (h : ∀ item ∈ items, item.Rejects c) :
    matchLen items (some c) s = matchLen items none s := by
  induction items generalizing s with
  | nil => rfl
  | cons item is ih =>
    have hc : item.Rejects c := h item (List.mem_cons_self ..)
    have his : ∀ s, matchLen is (some c) s = matchLen is none s := fun _ =>
      ih fun item' hmem => h item' (List.mem_cons_of_mem item hmem)
    cases item with
    | one p => rfl
    | opt p => rw [matchLen, matchLen, his]
    | many least p =>
      rw [matchLen, matchLen]
      refine tryDown_congr fun i _ => ?_
      cases (s.take i).getLast? with
      | none => rw [Option.none_or, Option.none_or, his]
      | some d => rfl
    | after p | notAfter p | boundary p =>
      have hnone : (some c).any p = (none : Option Char).any p := hc
      rw [matchLen, matchLen, his, hnone]
    | notBefore p => rw [matchLen, matchLen, his]

private lemma pieces_some (h : ∀ item ∈ items, item.Rejects c) :
    pieces (matchLen items) 0 (some c) s = pieces (matchLen items) 0 none s := by
  cases s with
  | nil => rfl
  | cons d s => rw [pieces, pieces, matchLen_some h]

private lemma pieces_sep (h : ∀ item ∈ items, item.Rejects c) {skip : ℕ} (hskip : skip ≤ s.length) :
    pieces (matchLen items) skip prev (s ++ c :: t) =
      pieces (matchLen items) skip prev s ++ .char c :: pieces (matchLen items) 0 none t := by
  induction s generalizing skip prev with
  | nil =>
    obtain rfl : skip = 0 := Nat.le_zero.mp hskip
    have hnone : ∀ n, matchLen items prev (c :: t) ≠ some (n + 1) := by
      intro n hn
      rw [← List.nil_append (c :: t), matchLen_sep h] at hn
      exact absurd (length_le_of_matchLen hn) (Nat.not_succ_le_zero n)
    rw [List.nil_append, pieces, pieces, List.nil_append]
    split
    · rename_i n hn
      exact absurd hn (hnone n)
    · rw [pieces_some h]
  | cons d s ih =>
    cases skip with
    | succ skip =>
      rw [List.cons_append, pieces, pieces]
      exact ih (by simpa using hskip)
    | zero =>
      have hsame : matchLen items prev (d :: s ++ c :: t) = matchLen items prev (d :: s) :=
        matchLen_sep h
      rw [List.cons_append] at hsame ⊢
      rw [pieces, pieces, hsame]
      split
      · rename_i n hn
        have hle : n ≤ s.length := Nat.succ_le_succ_iff.mp (length_le_of_matchLen hn)
        rw [ih hle, List.take_succ_cons, List.take_append_of_le_length hle, List.take_succ_cons,
          List.cons_append]
      · rw [ih (Nat.zero_le _), List.cons_append]

/-- **Substitutions.** A substitution works on both sides of a separator on its own. -/
theorem splits_sub {repl : Str} (h : ∀ item ∈ items, item.Rejects c) (hrepl : c ∉ repl) :
    Str.Splits (sub (matchLen items) repl) c := by
  refine ⟨fun a b => ?_, fun s hmem => ?_⟩
  · rw [sub, pieces_sep h (Nat.zero_le _), replaceFound_append]
    rfl
  · obtain ⟨q, hq, hmem⟩ := List.mem_flatMap.mp hmem
    have hscan : Scan (matchLen items) none s (pieces (matchLen items) 0 none s) :=
      scan_pieces (fun _ _ _ => length_le_of_matchLen) none s
    rw [← hscan.text]
    refine List.mem_flatMap.mpr ⟨q, hq, ?_⟩
    cases q with
    | char d => exact hmem
    | found span => exact absurd hmem hrepl

/-- A result without a character of the replacement is the text itself. -/
lemma eq_of_sub_eq {repl : Str} (h : sub (matchLen items) repl s = t) (hrepl : c ∈ repl)
    (ht : c ∉ t) : s = t := by
  have hscan : Scan (matchLen items) none s (pieces (matchLen items) 0 none s) :=
    scan_pieces (fun _ _ _ => length_le_of_matchLen) none s
  refine (hscan.text.symm.trans ?_).trans h
  refine List.flatMap_congr fun q hq => ?_
  cases q with
  | char d => rfl
  | found span =>
    refine absurd ?_ ht
    rw [← h]
    exact List.mem_flatMap.mpr ⟨.found span, hq, hrepl⟩

end Pattern
