import VCBrain.Foundation.Pattern

set_option relaxedAutoImplicit false
set_option autoImplicit false

/-!
# What a substitution leaves

Text in the result of `re.sub` that has no mark of the replacement lies between the replacements. It
stood in the text already, at a place where no match was found. Its neighbours may differ: next to
a replacement there was a match.

## Main definitions

* `PatternItem.Looks` — the assertions of an item look at one class only.
* `Pattern.Remnant` — text that a substitution has left, at its place before the substitution.

## Main results

* `Pattern.Matches.congr` — a span depends on its neighbours through that class only.
* `Pattern.exists_remnant` — text without a mark is left by the substitution.
* `Pattern.sub_eq_self` — nothing is replaced in a text without a span.
-/

/-- What an item asserts about its neighbours is whether they are of the class. -/
def PatternItem.Looks (p : Char → Bool) : PatternItem → Prop
  | one _ | opt _ | many _ _ => True
  | after q | notAfter q | notBefore q | boundary q => q = p

namespace Pattern

variable {p : Char → Bool} {items : List PatternItem} {prev prev' : Option Char}
  {span rest rest' : Str}

/-- Text has the same class at its beginning if what follows has. -/
private lemma head?_any_append (h : rest.head?.any p = rest'.head?.any p) :
    (span ++ rest).head?.any p = (span ++ rest').head?.any p := by
  cases span with
  | nil => exact h
  | cons c span => rfl

/-- **Neighbours.** A span depends on the characters around it only through the class that the
assertions look at. -/
theorem Matches.congr (hlooks : ∀ item ∈ items, item.Looks p) (hprev : prev.any p = prev'.any p)
    (hnext : rest.head?.any p = rest'.head?.any p) (h : Matches items prev span rest) :
    Matches items prev' span rest' := by
  induction items generalizing prev prev' span with
  | nil => exact h
  | cons item is ih =>
    have his : ∀ item' ∈ is, item'.Looks p := fun item' hmem =>
      hlooks item' (List.mem_cons_of_mem item hmem)
    have hitem := hlooks item (List.mem_cons_self ..)
    have hone : ∀ {q : Char → Bool},
        (∃ c t, span = c :: t ∧ q c = true ∧ Matches is (some c) t rest) →
        ∃ c t, span = c :: t ∧ q c = true ∧ Matches is (some c) t rest' := by
      rintro q ⟨c, t, rfl, hc, ht⟩
      exact ⟨c, t, rfl, hc, ih his rfl ht⟩
    cases item with
    | one q => exact hone h
    | opt q =>
      rcases h with hspan | hspan
      · exact Or.inl (hone hspan)
      · exact Or.inr (ih his hprev hspan)
    | many least q =>
      obtain ⟨u, t, rfl, hleast, hu, ht⟩ := h
      refine ⟨u, t, rfl, hleast, hu, ih his ?_ ht⟩
      cases u.getLast? with
      | none => exact hprev
      | some c => rfl
    | after q =>
      obtain rfl : q = p := hitem
      exact ⟨hprev ▸ h.1, ih his hprev h.2⟩
    | notAfter q =>
      obtain rfl : q = p := hitem
      exact ⟨hprev ▸ h.1, ih his hprev h.2⟩
    | notBefore q =>
      obtain rfl : q = p := hitem
      exact ⟨head?_any_append hnext ▸ h.1, ih his hprev h.2⟩
    | boundary q =>
      obtain rfl : q = p := hitem
      refine ⟨?_, ih his hprev h.2⟩
      rw [← hprev, ← head?_any_append hnext]
      exact h.1

/-! ## Left text -/

/-- A substitution has left the text `x` between `a` and `b` that stood between `pre` and `post`. No
match began in it, and a neighbour has changed only where a match was replaced by a text between
the marks. -/
structure Remnant (m : Option Char → Str → Option ℕ) (M : Option Char → Str → Str → Prop)
    (l r : Char) (x a b pre post : Str) : Prop where
  unmatched : ∀ u v, x = u ++ v → v ≠ [] → ∀ n, m (pre ++ u).getLast? (v ++ post) ≠ some (n + 1)
  left : a.getLast? = pre.getLast? ∨ a.getLast? = some r ∧
    ∃ prev sp, sp ≠ [] ∧ sp.getLast? = pre.getLast? ∧ M prev sp (x ++ post)
  right : b.head? = post.head? ∨ b.head? = some l ∧
    ∃ sp rest, sp ≠ [] ∧ post = sp ++ rest ∧ M x.getLast? sp rest

section Left

variable {m : Option Char → Str → Option ℕ} {M : Option Char → Str → Str → Prop}
  {s x a b mid : Str} {l r : Char} {ps before after : List Piece}

/-- The text of characters is the characters. -/
@[simp]
lemma flatMap_text_map_char : (x.map Piece.char).flatMap Piece.text = x := by
  rw [List.flatMap_map]
  exact List.flatMap_singleton' x

lemma replaceFound_append (repl : Str) (before after : List Piece) :
    replaceFound repl (before ++ after) = replaceFound repl before ++ replaceFound repl after :=
  List.flatMap_append

/-- Nothing is replaced where every character was passed over. -/
@[simp]
lemma replaceFound_map_char {repl : Str} : replaceFound repl (x.map Piece.char) = x := by
  rw [replaceFound, List.flatMap_map]
  exact List.flatMap_singleton' x

/-- The rest of a search is the search of the rest. -/
lemma Scan.drop (h : Scan m prev s (before ++ after)) :
    ∃ t, s = before.flatMap Piece.text ++ t ∧
      Scan m ((before.flatMap Piece.text).getLast?.or prev) t after := by
  induction before generalizing prev s with
  | nil => exact ⟨s, rfl, h⟩
  | cons q before ih =>
    generalize hps : q :: before ++ after = ps at h
    cases h with
    | nil => cases hps
    | @char _ c t ps hnone hrest =>
      obtain ⟨rfl, rfl⟩ := List.cons.inj hps
      obtain ⟨t', rfl, hscan⟩ := ih hrest
      refine ⟨t', rfl, ?_⟩
      rwa [List.flatMap_cons, getLast?_append_or]
    | @found _ sp t ps hfound hne hrest =>
      obtain ⟨rfl, rfl⟩ := List.cons.inj hps
      obtain ⟨t', rfl, hscan⟩ := ih hrest
      refine ⟨t', by rw [List.flatMap_cons, List.append_assoc]; rfl, ?_⟩
      rwa [List.flatMap_cons, getLast?_append_or]

/-- A match that was found is a span in front of the rest. -/
lemma Scan.found_inv (hsound : Sound m M) {sp : Str} (h : Scan m prev s (.found sp :: after)) :
    sp ≠ [] ∧ M prev sp (after.flatMap Piece.text) := by
  generalize hps : Piece.found sp :: after = ps at h
  cases h with
  | nil => cases hps
  | char _ _ => cases (List.cons.inj hps).1
  | @found _ sp' t ps hfound hne hrest =>
    cases hps
    obtain ⟨sp', t', heq, hlen, hspan⟩ := hsound _ _ _ hfound
    obtain ⟨rfl, rfl⟩ := List.append_inj heq hlen.symm
    exact ⟨hne, by rwa [hrest.text]⟩

/-- No match begins where a character was passed over. -/
lemma Scan.char_inv {c : Char} (h : Scan m prev s (.char c :: after)) (n : ℕ) :
    m prev (c :: after.flatMap Piece.text) ≠ some (n + 1) := by
  generalize hps : Piece.char c :: after = ps at h
  cases h with
  | nil => cases hps
  | char hnone hrest =>
    cases hps
    rw [hrest.text]
    exact hnone n
  | found _ _ _ => cases (List.cons.inj hps).1

/-- Text that begins the result of a replacement and has no mark was not replaced. -/
private lemma exists_of_prefix (hl : l ∉ x)
    (h : replaceFound (l :: mid ++ [r]) ps = x ++ b) :
    ∃ after, ps = x.map Piece.char ++ after ∧ b = replaceFound (l :: mid ++ [r]) after := by
  induction x generalizing ps with
  | nil => exact ⟨ps, rfl, h.symm⟩
  | cons c x ih =>
    cases ps with
    | nil => cases h
    | cons q ps =>
      cases q with
      | char d =>
        obtain ⟨rfl, htail⟩ := List.cons.inj h
        obtain ⟨after, rfl, hb⟩ := ih (fun hmem => hl (List.mem_cons_of_mem d hmem)) htail
        exact ⟨after, rfl, hb⟩
      | found sp =>
        obtain ⟨rfl, -⟩ := List.cons.inj h
        exact absurd (List.mem_cons_self ..) hl

/-- Text without a mark in the result of a replacement was not replaced. -/
lemma exists_of_replaceFound (hx : x ≠ []) (hl : l ∉ x) (hr : r ∉ x) (hmid : ¬ x <:+: mid)
    (h : replaceFound (l :: mid ++ [r]) ps = a ++ x ++ b) :
    ∃ before after, ps = before ++ x.map Piece.char ++ after ∧
      a = replaceFound (l :: mid ++ [r]) before ∧ b = replaceFound (l :: mid ++ [r]) after := by
  induction ps generalizing a with
  | nil =>
    have hnil : a ++ x ++ b = [] := h.symm
    simp [hx] at hnil
  | cons q ps ih =>
    cases q with
    | char c =>
      cases a with
      | nil =>
        obtain ⟨after, hps, hb⟩ := exists_of_prefix hl h
        exact ⟨[], after, hps, rfl, hb⟩
      | cons d a =>
        obtain ⟨rfl, htail⟩ := List.cons.inj h
        obtain ⟨before, after, rfl, rfl, hb⟩ := ih htail
        exact ⟨.char c :: before, after, rfl, rfl, hb⟩
    | found sp =>
      have hmarks : [] ++ (l :: mid ++ [r]) ++ replaceFound (l :: mid ++ [r]) ps = a ++ x ++ b := h
      rcases inside_of_overlap hmarks hl hr with hbefore | hafter | ⟨u, v, hinside, -, -⟩
      · rw [List.length_nil, Nat.le_zero, Nat.add_eq_zero_iff] at hbefore
        exact absurd (List.length_eq_zero_iff.mp hbefore.2) hx
      · -- the text lies behind this replacement
        generalize hrepl : l :: mid ++ [r] = repl at hmarks hafter ih ⊢
        rw [List.length_nil, Nat.zero_add] at hafter
        rw [List.nil_append, List.append_assoc a] at hmarks
        have hinit : repl <+: a :=
          List.prefix_of_prefix_length_le ⟨_, hmarks⟩ (List.prefix_append a (x ++ b)) hafter
        obtain ⟨a', rfl⟩ := hinit
        rw [List.append_assoc, List.append_cancel_left_eq, ← List.append_assoc] at hmarks
        obtain ⟨before, after, rfl, rfl, hb⟩ := ih hmarks
        exact ⟨.found sp :: before, after, rfl, rfl, hb⟩
      · exact absurd ⟨u, v, hinside.symm⟩ hmid

/-- **Left text.** Text without a mark in the result of a substitution is what the substitution has
left.

**Proof sketch.** It was passed over character by character, so no match began in it. Its neighbour
is a character that was passed over too, or the mark of a replacement, and then a match stood
there. -/
theorem exists_remnant (hsound : Sound m M) (hx : x ≠ []) (hl : l ∉ x) (hr : r ∉ x)
    (hmid : ¬ x <:+: mid) (h : sub m (l :: mid ++ [r]) s = a ++ x ++ b) :
    ∃ pre post, s = pre ++ x ++ post ∧ Remnant m M l r x a b pre post := by
  have hscan := scan_of_sound hsound none s
  obtain ⟨before, after, hps, rfl, rfl⟩ := exists_of_replaceFound hx hl hr hmid h
  rw [hps] at hscan
  have htext := hscan.text
  rw [List.flatMap_append, List.flatMap_append, flatMap_text_map_char] at htext
  refine ⟨before.flatMap Piece.text, after.flatMap Piece.text, htext.symm, ⟨?_, ?_, ?_⟩⟩
  · rintro u v rfl hv n
    obtain ⟨c, v, rfl⟩ := List.exists_cons_of_ne_nil hv
    have hsplit : before ++ (u ++ c :: v).map Piece.char ++ after =
        (before ++ u.map Piece.char) ++ .char c :: (v.map Piece.char ++ after) := by simp
    rw [hsplit] at hscan
    obtain ⟨t, -, hrest⟩ := hscan.drop
    have hnone := hrest.char_inv n
    rwa [List.flatMap_append, flatMap_text_map_char, Option.or_none, List.flatMap_append,
      flatMap_text_map_char] at hnone
  · rcases List.eq_nil_or_concat before with rfl | ⟨before, q, rfl⟩
    · exact Or.inl rfl
    · rw [List.concat_eq_append] at hscan ⊢
      cases q with
      | char c =>
        left
        simp [replaceFound, Piece.text]
      | found sp =>
        right
        rw [List.append_assoc, List.append_assoc, List.singleton_append] at hscan
        obtain ⟨t, -, hrest⟩ := hscan.drop
        obtain ⟨hne, hspan⟩ := hrest.found_inv hsound
        rw [List.flatMap_append, flatMap_text_map_char] at hspan
        refine ⟨?_, _, sp, hne, ?_, hspan⟩
        · rw [replaceFound, List.flatMap_append, List.flatMap_singleton, ← List.append_assoc,
            List.getLast?_concat]
        · rw [List.flatMap_append, List.flatMap_singleton, Piece.text,
            List.getLast?_append_of_ne_nil _ hne]
  · cases after with
    | nil => exact Or.inl rfl
    | cons q after =>
      cases q with
      | char c => exact Or.inl rfl
      | found sp =>
        right
        obtain ⟨t, -, hrest⟩ := hscan.drop
        obtain ⟨hne, hspan⟩ := hrest.found_inv hsound
        rw [List.flatMap_append, flatMap_text_map_char, Option.or_none,
          List.getLast?_append_of_ne_nil _ hx] at hspan
        exact ⟨rfl, sp, after.flatMap Piece.text, hne, rfl, hspan⟩

/-- A text without a span is passed over. -/
private lemma Scan.eq_map_char (hsound : Sound m M) (hscan : Scan m prev s ps)
    (h : ∀ a span b, s = a ++ span ++ b → span ≠ [] → ¬ M (a.getLast?.or prev) span b) :
    ps = s.map Piece.char := by
  induction hscan with
  | nil => rfl
  | @char prev c t ps hnone hrest ih =>
    rw [List.map_cons, ih fun a span b heq hne hspan => ?_]
    rw [← getLast?_cons_or c a prev] at hspan
    exact h (c :: a) span b (by rw [heq]; rfl) hne hspan
  | @found prev sp t ps hfound hne hrest =>
    obtain ⟨hne, hspan⟩ := (Scan.found hfound hne hrest).found_inv hsound
    rw [hrest.text] at hspan
    exact absurd hspan (h [] sp t rfl hne)

/-- Nothing is replaced in a text without a span. -/
theorem sub_eq_self (hsound : Sound m M) {repl : Str}
    (h : ∀ a span b, s = a ++ span ++ b → span ≠ [] → ¬ M a.getLast? span b) :
    sub m repl s = s := by
  have hps := (scan_of_sound hsound none s).eq_map_char hsound fun a span b heq hne hspan =>
    h a span b heq hne (by rwa [Option.or_none] at hspan)
  rw [sub, hps, replaceFound_map_char]

end Left

end Pattern
