import VCBrain.Foundation.JsonText

set_option relaxedAutoImplicit false
set_option autoImplicit false

/-!
# Reading UUIDs

## Main definitions

* `Uuid.parse` — `uuid.UUID(s)`.

## Main results

* `Uuid.parse_str` — a UUID is read back from its text.
-/

/-- `uuid.UUID(s)`, where the digits are plain: `int(s, 16)` reads a sign, a prefix and underscores
as well. -/
def Uuid.parse (s : Str) : Option Uuid :=
  let s := Str.replace "uuid:" "" (Str.replace "urn:" "" s)
  let s := (s.dropWhile (· ∈ ['\x7b', '\x7d'])).rdropWhile (· ∈ ['\x7b', '\x7d'])
  let s := s.filter (· ≠ '-')
  (Json.hexDigits 32 0 s).bind fun r =>
    if h : r.2 = [] ∧ r.1 < 2 ^ 128 then some ⟨r.1, h.2⟩ else none

/-- Dashes put between digits are taken away again. -/
private lemma filter_dashed {h : Str} (hdash : '-' ∉ h) :
    (h.take 8 ++ '-' :: (h.drop 8).take 4 ++ '-' :: (h.drop 12).take 4 ++
      '-' :: (h.drop 16).take 4 ++ '-' :: h.drop 20).filter (· ≠ '-') = h := by
  have hpart : ∀ s : Str, (∀ c ∈ s, c ∈ h) → s.filter (· ≠ '-') = s := by
    refine fun s hs => List.filter_eq_self.mpr fun c hc => decide_eq_true ?_
    rintro rfl
    exact hdash (hs _ hc)
  have htake : ∀ n m, ∀ c ∈ (h.drop n).take m, c ∈ h :=
    fun n m c hc => List.mem_of_mem_drop (List.mem_of_mem_take hc)
  have hrest : ∀ n, (h.drop n).take 4 ++ h.drop (n + 4) = h.drop n := by
    intro n
    rw [← List.drop_drop, List.take_append_drop]
  simp only [List.append_assoc, List.cons_append, List.filter_append, ne_eq, not_true_eq_false,
    decide_false, Bool.false_eq_true, not_false_eq_true, List.filter_cons_of_neg]
  rw [hpart _ fun _ hc => List.mem_of_mem_take hc, hpart _ (htake 8 4), hpart _ (htake 12 4),
    hpart _ (htake 16 4), hpart _ fun _ hc => List.mem_of_mem_drop hc, hrest 16, hrest 12, hrest 8,
    List.take_append_drop]

/-- The text of a UUID is read back. -/
lemma Uuid.parse_str (u : Uuid) : Uuid.parse u.str = some u := by
  have hmark : 'u' ∉ u.str := Uuid.notMem_str (by decide)
  have hbrace : ∀ c ∈ u.str, ¬ decide (c ∈ ['\x7b', '\x7d']) = true := by
    intro c hc hmem
    rcases List.mem_cons.mp (of_decide_eq_true hmem) with rfl | hmem
    · exact Uuid.notMem_str (by decide) hc
    · rw [List.mem_singleton.mp hmem] at hc
      exact Uuid.notMem_str (by decide) hc
  have hdash : '-' ∉ Str.hex 32 u := by
    intro hmem
    obtain ⟨d, hd, heq⟩ := Str.exists_of_mem_hex hmem
    have key : ∀ d < 16, '-' ≠ Str.hexDigit d := by decide
    exact key d hd heq
  have hread := Json.hexDigits_hex 32 (show (u : ℕ) < 16 ^ 32 from u.isLt) 0 []
  rw [List.append_nil, Nat.mul_zero, Nat.zero_add] at hread
  have hurn : Str.replace "urn:" "" u.str = u.str := Str.replace_of_notMem hmark
  have huuid : Str.replace "uuid:" "" u.str = u.str := Str.replace_of_notMem hmark
  have hleft : u.str.dropWhile (· ∈ ['\x7b', '\x7d']) = u.str :=
    List.dropWhile_eq_self_iff.mpr fun _ => hbrace _ (List.get_mem ..)
  have hright : u.str.rdropWhile (· ∈ ['\x7b', '\x7d']) = u.str :=
    List.rdropWhile_eq_self_iff.mpr fun _ => hbrace _ (List.getLast_mem _)
  have hdigits : u.str.filter (· ≠ '-') = Str.hex 32 u := filter_dashed hdash
  unfold Uuid.parse
  dsimp only
  rw [hurn, huuid, hleft, hright, hdigits, hread, Option.bind_some]
  exact dif_pos ⟨rfl, u.isLt⟩
