import VCBrain.Foundation.JsonText

set_option relaxedAutoImplicit false
set_option autoImplicit false

/-!
# Compact JSON text

`json.dumps(value, separators=(",", ":"))` with ASCII escapes, for an object whose values are no
arrays and objects.

## Main definitions

* `Json.compact` — the text of the fields of such an object.

## Main results

* `Json.loads_compact` — what was written is read back.
* `Json.compact_injOn` — different objects have different texts.
-/

namespace Json

/-- The further fields, and the end of the object. -/
def moreCompact : List (Str × Json) → Str
  | [] => ['}']
  | (k, v) :: fs => ',' :: (quoteAscii k ++ ':' :: text v) ++ moreCompact fs

/-- The compact text of an object of these fields. -/
def compact : List (Str × Json) → Str
  | [] => "\x7b\x7d"
  | (k, v) :: fs => '{' :: (quoteAscii k ++ ':' :: text v) ++ moreCompact fs

lemma endsNumber_moreCompact (fs : List (Str × Json)) (rest : Str) :
    EndsNumber (moreCompact fs ++ rest) := by
  cases fs <;> rintro c ⟨⟩ <;> decide

/-- A field is read back. -/
lemma field_compact {k : Str} {v : Json} {fuel : ℕ} {rest : Str} (h : v.wellFormed)
    (hfuel : (text v).length ≤ fuel) (hrest : EndsNumber rest) :
    field (fuel + 1) (quoteAscii k ++ ':' :: (text v ++ rest)) = some ((k, v), rest) := by
  have hquote : quoteAscii k ++ ':' :: (text v ++ rest) =
      '"' :: (k.flatMap escapeAscii ++ '"' :: (':' :: (text v ++ rest))) := by
    simp [quoteAscii]
  have hcolon : skipSpace (':' :: (text v ++ rest)) = ':' :: (text v ++ rest) :=
    skipSpace_of_opens (by decide) _
  rw [hquote, field, after_cons_self, Option.bind_some, string_literal, Option.bind_some, hcolon,
    after_cons_self, Option.bind_some, skipSpace_text h, value_text h hfuel hrest, Option.map_some]

/-- The further fields are read back. -/
lemma moreFields_compact {fs : List (Str × Json)} (h : wellFormedFields fs) {fuel : ℕ}
    (hfuel : (moreCompact fs).length ≤ fuel) (rest : Str) :
    moreFields fuel (moreCompact fs ++ rest) = some (fs, rest) := by
  induction fs generalizing fuel with
  | nil =>
    obtain ⟨fuel, rfl⟩ := Nat.exists_eq_succ_of_ne_zero (by simp [moreCompact] at hfuel; omega :
      fuel ≠ 0)
    rfl
  | cons f fs ih =>
    obtain ⟨k, v⟩ := f
    simp only [wellFormedFields, Bool.and_eq_true] at h
    simp only [moreCompact, List.cons_append, List.length_cons, List.length_append] at hfuel
    obtain ⟨fuel, rfl⟩ := Nat.exists_eq_add_of_le' (show 2 ≤ fuel by omega)
    have htext : moreCompact ((k, v) :: fs) ++ rest =
        ',' :: (quoteAscii k ++ ':' :: (text v ++ (moreCompact fs ++ rest))) := by
      simp [moreCompact]
    have hfield := field_compact (k := k) h.1 (show (text v).length ≤ fuel by omega)
      (endsNumber_moreCompact fs rest)
    have hfields := ih h.2 (show (moreCompact fs).length ≤ fuel + 1 by omega)
    have hcomma := skipSpace_of_opens (c := ',') (by decide)
      (quoteAscii k ++ ':' :: (text v ++ (moreCompact fs ++ rest)))
    have hspace : skipSpace (quoteAscii k ++ ':' :: (text v ++ (moreCompact fs ++ rest))) =
        quoteAscii k ++ ':' :: (text v ++ (moreCompact fs ++ rest)) :=
      skipSpace_of_opens (by decide) _
    rw [htext, moreFields, hcomma]
    simp only [Char.reduceEq, ↓reduceIte]
    rw [hspace, hfield, Option.bind_some, hfields, Option.map_some]

/-- **What was written is read back.** -/
theorem loads_compact {fields : List (Str × Json)} (h : wellFormed (.obj fields)) :
    loads (compact fields) = some (.obj fields) := by
  cases fields with
  | nil => rfl
  | cons f fs =>
    obtain ⟨k, v⟩ := f
    simp only [wellFormed, wellFormedFields, Bool.and_eq_true, decide_eq_true_eq] at h
    have htext : compact ((k, v) :: fs) =
        '{' :: (quoteAscii k ++ ':' :: (text v ++ (moreCompact fs ++ []))) := by
      simp [compact]
    have hlength : (text v).length + 2 ≤ (compact ((k, v) :: fs)).length ∧
        (moreCompact fs).length + 2 ≤ (compact ((k, v) :: fs)).length := by
      simp only [compact, List.cons_append, List.length_cons, List.length_append]
      omega
    obtain ⟨fuel, hfuel⟩ := Nat.exists_eq_add_of_le' (show 2 ≤ (compact ((k, v) :: fs)).length by
      omega)
    have hfield := field_compact (k := k) h.2.1 (show (text v).length ≤ fuel by omega)
      (endsNumber_moreCompact fs [])
    have hfields := moreFields_compact h.2.2 (show (moreCompact fs).length ≤ fuel + 1 by omega) []
    have hopen : skipSpace (compact ((k, v) :: fs)) = compact ((k, v) :: fs) := by
      rw [htext]
      rfl
    have hspace : skipSpace (quoteAscii k ++ ':' :: (text v ++ (moreCompact fs ++ []))) =
        quoteAscii k ++ ':' :: (text v ++ (moreCompact fs ++ [])) :=
      skipSpace_of_opens (by decide) _
    have hclose : after ['}'] (quoteAscii k ++ ':' :: (text v ++ (moreCompact fs ++ []))) = none :=
      after_cons_of_ne (by decide) _
    rw [loads, hopen, hfuel, htext, value, if_neg (by decide), if_pos rfl, hspace, hclose,
      Option.elim_none, hfield, Option.bind_some, hfields, Option.map_some, Option.bind_some,
      dictOfPairs_of_nodup h.1]
    rfl

/-- Different objects have different texts. -/
lemma compact_injOn {fields fields' : List (Str × Json)} (h : wellFormed (.obj fields))
    (h' : wellFormed (.obj fields')) (heq : compact fields = compact fields') :
    fields = fields' := by
  have hread := loads_compact h
  rw [heq, loads_compact h'] at hread
  exact (obj.inj (Option.some.inj hread)).symm

end Json
