import VCBrain.Foundation.Separators
import VCBrain.Foundation.Substrings

set_option relaxedAutoImplicit false
set_option autoImplicit false

/-!
# Templates

A text that is put together of fixed parts and of fields, each of which is rendered in its own way.
A word that is none of the fixed parts stands in a field.

## Main definitions

* `Field`, `rendered` — a field behind its fixed text, and the text of several.
* `Field.Apart` — the word neither stands in the fixed text nor across an end of it.
* `Shows` — a field has the word at a place that lies in the first part of the text.

## Main results

* `infix_take_rendered_iff` — the word stands in the first part of a text exactly if a field shows
  it.
-/

namespace Str

/-- A field of a template: the fixed text in front of it, its own text, and what is shown of it. -/
structure Field where
  lead : Str
  text : Str
  render : Str → Str := id

/-- A field behind its fixed text. -/
def Field.shown (q : Field) : Str := q.lead ++ q.render q.text

/-- The text of some fields. -/
def rendered (fields : List Field) : Str := fields.flatMap Field.shown

/-- A fixed text that does not contain the word and that begins and ends with characters that are
none of the word. -/
structure Apart (word lead : Str) : Prop where
  not_infix : ¬ word <:+: lead
  head : ∃ c rest, lead = c :: rest ∧ c ∉ word
  last : ∃ c init, lead = init ++ [c] ∧ c ∉ word

/-- A field is behind fixed text apart from the word, and its rendering keeps the word. -/
structure Field.Quotes (word : Str) (q : Field) : Prop where
  apart : Apart word q.lead
  keeps : Keeps q.render word

/-- A field has the word at a place that lies in the first `n` characters of the text, as `f` writes
it. -/
def Shows (f : Str → Str) (n : ℕ) (word : Str) (fields : List Field) : Prop :=
  ∃ front q back x, fields = front ++ q :: back ∧ x ++ word <+: q.text ∧
    (f (rendered front ++ q.lead ++ q.render x) ++ word).length ≤ n

section Behind

variable {word lead a x y : Str} {c : Char}

/-- A word without a character does not stand across it. -/
lemma behind_append_cons_iff (hc : c ∉ word) : a ++ word <+: x ++ c :: y ↔
    a ++ word <+: x ∨ ∃ a', a = x ++ c :: a' ∧ a' ++ word <+: y := by
  constructor
  · intro h
    have ha : a <+: x ++ c :: y := (List.prefix_append a word).trans h
    rcases List.prefix_or_prefix_of_prefix ha (List.prefix_append x (c :: y)) with
      ⟨x', rfl⟩ | ⟨a', rfl⟩
    · rw [List.append_assoc, List.prefix_append_right_inj,
        prefix_append_sep_iff (not_standsAcross hc)] at h
      exact Or.inl ((List.prefix_append_right_inj a).mpr h)
    · rw [List.append_assoc, List.prefix_append_right_inj] at h
      cases a' with
      | nil =>
        have hword : word <+: [] := by
          rwa [List.nil_append, ← List.nil_append (c :: y),
            prefix_append_sep_iff (not_standsAcross hc)] at h
        rw [List.prefix_nil.mp hword, List.append_nil, List.append_nil]
        exact Or.inl List.prefix_rfl
      | cons d a' =>
        obtain ⟨rfl, htail⟩ := List.cons_prefix_cons.mp h
        exact Or.inr ⟨a', rfl, htail⟩
  · rintro (h | ⟨a', rfl, h⟩)
    · exact h.trans (List.prefix_append x (c :: y))
    · rw [List.append_assoc, List.cons_append, List.prefix_append_right_inj, List.prefix_cons_inj]
      exact h

/-- A word does not stand across a fixed text that is apart from it. -/
lemma Apart.behind_iff (h : Apart word lead) : a ++ word <+: x ++ lead ++ y ↔
    a ++ word <+: x ∨ ∃ a', a = x ++ lead ++ a' ∧ a' ++ word <+: y := by
  obtain ⟨d, init, hinit, hd⟩ := h.last
  have hsplit : x ++ lead ++ y = x ++ init ++ d :: y := by simp [hinit]
  constructor
  · intro hbehind
    rw [hsplit, behind_append_cons_iff hd] at hbehind
    rcases hbehind with hbefore | ⟨a', rfl, hrest⟩
    · obtain ⟨c, rest, hrest, hc⟩ := h.head
      have hlead : a ++ word <+: x ++ c :: rest := by
        rw [← hrest, hinit, ← List.append_assoc]
        exact hbefore.trans (List.prefix_append _ _)
      rcases (behind_append_cons_iff hc).mp hlead with hx | ⟨a', -, hword⟩
      · exact Or.inl hx
      · refine absurd ?_ h.not_infix
        rw [hrest]
        exact List.infix_cons ((List.suffix_append a' word).isInfix.trans hword.isInfix)
    · exact Or.inr ⟨a', by simp [hinit], hrest⟩
  · rintro (hbefore | ⟨a', rfl, hrest⟩)
    · rw [List.append_assoc]
      exact hbefore.trans (List.prefix_append x _)
    · rw [List.append_assoc (x ++ lead), List.prefix_append_right_inj]
      exact hrest

/-- **Templates.** A word stands behind `a` in a text that ends in a template exactly if it stands
there in front of the template or in a field.

**Proof sketch.** Induction on the fields. The first one with its fixed text belongs to what stands
in front of the others. -/
lemma behind_append_rendered_iff {fields : List Field} (h : ∀ q ∈ fields, Apart word q.lead) :
    a ++ word <+: x ++ rendered fields ↔ a ++ word <+: x ∨
      ∃ front q back u, fields = front ++ q :: back ∧ u ++ word <+: q.render q.text ∧
        a = x ++ rendered front ++ q.lead ++ u := by
  induction fields generalizing x with
  | nil => simp [rendered]
  | cons q fields ih =>
    have hsplit : x ++ rendered (q :: fields) =
        x ++ q.lead ++ q.render q.text ++ rendered fields := by
      simp [rendered, Field.shown]
    rw [hsplit, ih fun q' hmem => h q' (List.mem_cons_of_mem q hmem),
      (h q (List.mem_cons_self ..)).behind_iff, or_assoc]
    refine or_congr_right ⟨?_, ?_⟩
    · rintro (⟨u, rfl, hu⟩ | ⟨front, q', back, u, rfl, hu, rfl⟩)
      · exact ⟨[], q, fields, u, rfl, hu, by simp [rendered]⟩
      · exact ⟨q :: front, q', back, u, rfl, hu, by simp [rendered, Field.shown]⟩
    · rintro ⟨front, q', back, u, hfields, hu, rfl⟩
      cases front with
      | nil =>
        obtain ⟨rfl, rfl⟩ := List.cons.inj hfields
        exact Or.inl ⟨u, by simp [rendered], hu⟩
      | cons p front =>
        obtain ⟨rfl, rfl⟩ := List.cons.inj hfields
        exact Or.inr ⟨front, q', back, u, rfl, hu, by simp [rendered, Field.shown]⟩

/-- **Cut templates.** A word stands in the first part of a template, as `f` writes it, exactly if a
field shows it there. -/
theorem infix_take_rendered_iff {f : Str → Str} {n : ℕ} {fields : List Field} (hf : Keeps f word)
    (h : ∀ q ∈ fields, q.Quotes word) :
    word <:+: (f (rendered fields)).take n ↔ Shows f n word fields := by
  have hword : word ≠ [] := by
    obtain ⟨l, mid, r, rfl, -⟩ := hf.split
    exact List.cons_ne_nil l _
  have hfields : ∀ {b : Str}, b ++ word <+: rendered fields ↔
      ∃ front q back u, fields = front ++ q :: back ∧ u ++ word <+: q.render q.text ∧
        b = rendered front ++ q.lead ++ u := by
    intro b
    have hbehind := behind_append_rendered_iff (a := b) (x := []) fun q hq => (h q hq).apart
    rw [List.nil_append] at hbehind
    rw [hbehind, List.prefix_nil, List.append_eq_nil_iff]
    simp [hword]
  rw [infix_take_iff]
  constructor
  · rintro ⟨a, ha, hle⟩
    obtain ⟨b, hb, rfl⟩ := hf.behind_iff.mp ha
    obtain ⟨front, q, back, u, rfl, hu, rfl⟩ := hfields.mp hb
    obtain ⟨z, hz, rfl⟩ := (h q (by simp)).keeps.behind_iff.mp hu
    exact ⟨front, q, back, z, rfl, hz, hle⟩
  · rintro ⟨front, q, back, z, rfl, hz, hle⟩
    refine ⟨_, hf.behind_iff.mpr ⟨_, hfields.mpr ⟨front, q, back, _, rfl, ?_, rfl⟩, rfl⟩, hle⟩
    exact (h q (by simp)).keeps.behind_iff.mpr ⟨z, hz, rfl⟩

end Behind

end Str
