import VCBrain.Collectors.ResearchScore

set_option relaxedAutoImplicit false
set_option autoImplicit false

/-!
# A negative phrase in a result

Whether one more negative phrase lowers the score of an axis depends on the hits that are there
before and on the words that the phrase contains. This file counts the hits after the phrase is
added at the end of the content of a result.

## Main definitions

* `SearchResponse.corpusUpTo`, `SearchResponse.corpusAfter` — the texts before and behind the place
  where the phrase is added.
* `SearchResponse.SeamClean` — no keyword stands across that place.

## Main results

* `SearchResponse.seamClean_of_last` — no keyword stands across the end of the last result.
* `SearchResponse.occurrences_append` — the hits of the phrase are added to those of the response.
* `append_negative_score_le_iff_of_seamClean` — when the phrase does not raise the score.
-/

namespace VCBrain

namespace SearchResponse

variable {ucd : Ucd} {axis : Axis} {response : SearchResponse} {i : ℕ} {r : SearchResult}
  {phrase word : Str}

/-! ## The texts around the end of a result -/

/-- The texts of results. -/
def textsOf (results : List (Option SearchResult)) : List Str :=
  results.reduceOption.map fun r => r.title ++ ' ' :: r.content

/-- The text up to the end of the content of a result. -/
def corpusUpTo (ucd : Ucd) (response : SearchResponse) (i : ℕ) : Str :=
  ucd.lower (List.intercalate [' '] (response.answer :: textsOf (response.results.take (i + 1))))

/-- The text behind a result. -/
def corpusAfter (ucd : Ucd) (response : SearchResponse) (i : ℕ) : Str :=
  ucd.lower (List.intercalate [' '] (textsOf (response.results.drop (i + 1))))

lemma textsOf_append (xs ys : List (Option SearchResult)) :
    textsOf (xs ++ ys) = textsOf xs ++ textsOf ys := by
  unfold textsOf
  rw [List.reduceOption_append, List.map_append]

/-- Texts behind others follow after a space. -/
private def behind (ucd : Ucd) (texts : List Str) : Str :=
  if texts = [] then [] else ' ' :: ucd.lower (List.intercalate [' '] texts)

private lemma lower_intercalate_append {xs ys : List Str} (hx : xs ≠ []) :
    ucd.lower (List.intercalate [' '] (xs ++ ys)) =
      ucd.lower (List.intercalate [' '] xs) ++ behind ucd ys := by
  unfold behind
  split_ifs with hy
  · rw [hy, List.append_nil, List.append_nil]
  · rw [Str.intercalate_append hx hy, List.append_assoc, List.singleton_append,
      ucd.lower_append_sep (by decide) (by decide) (by decide)]

/-- More text at the end of the last text is at the end of all. -/
private lemma intercalate_concat_append (texts : List Str) (last more : Str) :
    List.intercalate [' '] (texts ++ [last ++ more]) =
      List.intercalate [' '] (texts ++ [last]) ++ more := by
  cases texts with
  | nil => simp
  | cons text texts =>
    rw [Str.intercalate_append (by simp) (by simp), Str.intercalate_append (by simp) (by simp)]
    simp

/-- The text of a response is what comes up to the end of a result and what is behind it. -/
lemma corpus_eq (response : SearchResponse) (i : ℕ) : response.corpus ucd =
    response.corpusUpTo ucd i ++ behind ucd (textsOf (response.results.drop (i + 1))) := by
  have htexts : response.texts = (response.answer :: textsOf (response.results.take (i + 1))) ++
      textsOf (response.results.drop (i + 1)) := by
    rw [List.cons_append, ← textsOf_append, List.take_append_drop]
    rfl
  unfold corpus corpusUpTo
  rw [htexts]
  exact lower_intercalate_append (by simp)

/-- A phrase that is added at the end of a result stands between spaces there. -/
lemma corpus_append (hr : response.results[i]? = some (some r))
    (hphrase : ∀ c ∈ phrase, c.toNat < 128 ∧ c.toLower = c) :
    (response.append i (' ' :: phrase ++ [' '])).corpus ucd =
      response.corpusUpTo ucd i ++
        ' ' :: (phrase ++ ' ' :: behind ucd (textsOf (response.results.drop (i + 1)))) := by
  obtain ⟨hi, hget⟩ := List.getElem?_eq_some_iff.mp hr
  have hupTo : textsOf (response.results.take (i + 1)) =
      textsOf (response.results.take i) ++ [r.title ++ ' ' :: r.content] := by
    rw [List.take_add_one, hr, textsOf_append]
    rfl
  have htexts : (response.append i (' ' :: phrase ++ [' '])).texts =
      ((response.answer :: textsOf (response.results.take i)) ++
        [(r.title ++ ' ' :: r.content) ++ (' ' :: phrase ++ [' '])]) ++
      textsOf (response.results.drop (i + 1)) := by
    have hresults : (response.append i (' ' :: phrase ++ [' '])).results =
        response.results.take i ++
          ([some { r with content := r.content ++ (' ' :: phrase ++ [' ']) }] ++
            response.results.drop (i + 1)) := by
      unfold append
      dsimp only
      rw [List.modify_eq_take_cons_drop hi, hget]
      rfl
    have hunfold : (response.append i (' ' :: phrase ++ [' '])).texts = response.answer ::
        textsOf (response.append i (' ' :: phrase ++ [' '])).results := rfl
    rw [hunfold, hresults, textsOf_append, textsOf_append]
    simp [textsOf]
  have hnil : ucd.lower [] = [] := rfl
  unfold corpus corpusUpTo
  rw [htexts, lower_intercalate_append (by simp), intercalate_concat_append, hupTo,
    List.cons_append, List.cons_append, ucd.lower_append_sep (by decide) (by decide) (by decide),
    ucd.lower_append_sep (by decide) (by decide) (by decide), ucd.lower_eq_self hphrase, hnil]
  simp

/-! ## Hits around the end of a result -/

/-- No keyword of the axis stands across the end of a result. -/
def SeamClean (ucd : Ucd) (axis : Axis) (response : SearchResponse) (i : ℕ) : Prop :=
  ∀ word ∈ (axisKeywords axis).1 ++ (axisKeywords axis).2,
    ¬ Str.StandsAcross word ' ' (response.corpusUpTo ucd i) (response.corpusAfter ucd i)

/-- After a space, a keyword goes on with another sign, and not as a negative phrase begins. -/
private lemma keyword_tail {u v : Str}
    (hword : u ++ ' ' :: v ∈ (axisKeywords axis).1 ++ (axisKeywords axis).2) :
    v ≠ [] ∧ v.head? ≠ some ' ' ∧
      ∀ phrase ∈ (axisKeywords axis).2, ¬ v <+: phrase ∧ ¬ phrase <+: v := by
  have hall : ∀ word ∈ (axisKeywords axis).1 ++ (axisKeywords axis).2, ∀ t ∈ word.tails,
      t.head? = some ' ' → t.tail ≠ [] ∧ t.tail.head? ≠ some ' ' ∧
        ∀ phrase ∈ (axisKeywords axis).2, ¬ t.tail <+: phrase ∧ ¬ phrase <+: t.tail := by
    cases axis <;> decide +kernel
  exact hall _ hword (' ' :: v) ((List.mem_tails _ _).mpr (List.suffix_append _ _)) rfl

/-- The negative phrases hold themselves once, and one positive word at most. -/
private lemma count_phrase (hphrase : phrase ∈ (axisKeywords axis).2) :
    ((axisKeywords axis).2.map fun word => Str.count word phrase).sum = 1 ∧
      ((axisKeywords axis).1.map fun word => Str.count word phrase).sum ≤ 1 := by
  revert phrase
  cases axis <;> decide +kernel

/-- A keyword does not stand across a space behind which a negative phrase or another space
follows. -/
private lemma not_standsAcross (hword : word ∈ (axisKeywords axis).1 ++ (axisKeywords axis).2)
    (x : Str) {y : Str}
    (hy : y.head?.all (· = ' ') ∨ ∃ phrase ∈ (axisKeywords axis).2, phrase <+: y) :
    ¬ Str.StandsAcross word ' ' x y := by
  rintro ⟨u, v, rfl, -, hv⟩
  obtain ⟨hne, hhead, hphrases⟩ := keyword_tail hword
  rcases hy with hspace | ⟨phrase, hphrase, hbegins⟩
  · obtain ⟨c, v, rfl⟩ := List.exists_cons_of_ne_nil hne
    obtain ⟨rest, rfl⟩ := hv
    simp only [List.cons_append, List.head?_cons, Option.all_some, decide_eq_true_eq] at hspace
    exact hhead (congrArg some hspace)
  · rcases List.prefix_or_prefix_of_prefix hv hbegins with hshort | hlong
    · exact (hphrases phrase hphrase).1 hshort
    · exact (hphrases phrase hphrase).2 hlong

/-- No keyword stands across the end of the last result. -/
lemma seamClean_of_last (hlast : response.results.length ≤ i + 1) :
    response.SeamClean ucd axis i := by
  have hafter : response.corpusAfter ucd i = [] := by
    unfold corpusAfter
    rw [List.drop_eq_nil_of_le hlast]
    rfl
  intro word hword
  rw [hafter]
  exact not_standsAcross hword _ (Or.inl rfl)

/-- The occurrences of one keyword. -/
private lemma count_append (hphrase : phrase ∈ (axisKeywords axis).2)
    (hr : response.results[i]? = some (some r)) (hclean : response.SeamClean ucd axis i)
    (hword : word ∈ (axisKeywords axis).1 ++ (axisKeywords axis).2) :
    Str.count word ((response.append i (' ' :: phrase ++ [' '])).corpus ucd) =
      Str.count word (response.corpus ucd) + Str.count word phrase := by
  have hne : word ≠ [] := (axisKeywords_ascii axis word hword).1
  have hlower := (axisKeywords_ascii axis phrase (List.mem_append_right _ hphrase)).2
  set later := behind ucd (textsOf (response.results.drop (i + 1))) with hlater
  have hbehind : later.head?.all (· = ' ') := by
    rw [hlater]
    unfold behind
    split_ifs <;> rfl
  have hbefore : Str.count word (response.corpus ucd) =
      Str.count word (response.corpusUpTo ucd i) + Str.count word later := by
    have hacross := hclean word hword
    have hstart : ¬ Str.StandsAcross word ' ' [] (response.corpusAfter ucd i) := by
      rintro ⟨u, v, hsplit, hu, hv⟩
      obtain rfl := List.suffix_nil.mp hu
      exact hacross ⟨[], v, hsplit, List.nil_suffix, hv⟩
    have hempty : Str.count word [] = 0 := by simp [Str.count, hne, Str.countFrom]
    have hseam := Str.count_append_sep hne hacross
    have hspace := Str.count_append_sep hne hstart
    rw [List.nil_append, hempty, Nat.zero_add] at hspace
    rw [corpus_eq response i, hlater]
    unfold behind
    unfold corpusAfter at hseam hspace
    split_ifs with hnone
    · rw [List.append_nil, hempty, Nat.add_zero]
    · rw [hseam, hspace]
  rw [corpus_append hr hlower, hbefore,
    Str.count_append_sep hne (not_standsAcross hword _ (Or.inr ⟨phrase, hphrase,
      List.prefix_append _ _⟩)),
    Str.count_append_sep hne (not_standsAcross hword _ (Or.inl hbehind))]
  omega

/-- **Hits.** Where no keyword stands across the end of a result, a phrase that is added there adds
the hits it contains. -/
lemma occurrences_append (hphrase : phrase ∈ (axisKeywords axis).2)
    (hr : response.results[i]? = some (some r)) (hclean : response.SeamClean ucd axis i)
    {words : List Str} (hwords : words ⊆ (axisKeywords axis).1 ++ (axisKeywords axis).2) :
    (response.append i (' ' :: phrase ++ [' '])).occurrences ucd words =
      response.occurrences ucd words + (words.map fun word => Str.count word phrase).sum := by
  unfold occurrences
  rw [← List.sum_map_add]
  exact congrArg List.sum (List.map_congr_left fun word hword =>
    count_append hphrase hr hclean (hwords hword))

end SearchResponse

section Score

variable {ucd : Ucd} {axis : Axis} {response : SearchResponse} {subjectTerms : List Str} {i : ℕ}
  {r : SearchResult} {phrase : Str}

/-- **Negative evidence in a result.** Where no keyword stands across the end of a result, and the
same subject terms are found, a further negative phrase there does not raise the score exactly if
it is one of the first three, the positive hits are at their limit, the phrase contains no positive
word, or the score stays at its floor.

**Proof sketch.** The phrase is one negative hit, and it contains one positive word at most
(`SearchResponse.occurrences_append`). A negative hit that counts weighs twice as much as a positive
one. -/
theorem append_negative_score_le_iff_of_seamClean (hphrase : phrase ∈ (axisKeywords axis).2)
    (hr : response.results[i]? = some (some r)) (hclean : response.SeamClean ucd axis i)
    (hterms : (response.append i (' ' :: phrase ++ [' '])).termsFound ucd subjectTerms =
      response.termsFound ucd subjectTerms) :
    (scoreResearchAxis ucd axis (response.append i (' ' :: phrase ++ [' '])) subjectTerms).score ≤
        (scoreResearchAxis ucd axis response subjectTerms).score ↔
      response.occurrences ucd (axisKeywords axis).2 < 3 ∨
        6 ≤ response.occurrences ucd (axisKeywords axis).1 ∨
        (∀ word ∈ (axisKeywords axis).1, ¬ word <:+: phrase) ∨
        (response.append i (' ' :: phrase ++ [' '])).AtFloor ucd axis subjectTerms := by
  have hpositive := SearchResponse.occurrences_append hphrase hr hclean
    (List.subset_append_left (axisKeywords axis).1 (axisKeywords axis).2)
  have hnegative := SearchResponse.occurrences_append hphrase hr hclean
    (List.subset_append_right (axisKeywords axis).1 (axisKeywords axis).2)
  obtain ⟨hone, hmost⟩ := SearchResponse.count_phrase hphrase
  have hidentity : (response.append i (' ' :: phrase ++ [' '])).identityHalves ucd subjectTerms =
      response.identityHalves ucd subjectTerms := by
    unfold SearchResponse.identityHalves
    rw [hterms]
  have hwords : ((axisKeywords axis).1.map fun word => Str.count word phrase).sum = 0 ↔
      ∀ word ∈ (axisKeywords axis).1, ¬ word <:+: phrase := by
    rw [List.sum_eq_zero_iff, List.forall_mem_map]
    exact forall₂_congr fun word hword => Str.count_eq_zero_iff
      (axisKeywords_ascii axis word (List.mem_append_left _ hword)).1
  rw [append_score_le_iff hphrase hr, hpositive, hnegative, hone, hidentity, ← hwords,
    ← or_assoc, ← or_assoc]
  refine or_congr ?_ Iff.rfl
  omega

end Score

end VCBrain
