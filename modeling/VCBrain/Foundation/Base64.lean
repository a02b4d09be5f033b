import VCBrain.Foundation.Text

set_option relaxedAutoImplicit false
set_option autoImplicit false

/-!
# URL-safe Base64

`base64.urlsafe_b64encode` and `base64.urlsafe_b64decode`. The decoder is `binascii.a2b_base64`
without its strict mode: it skips characters outside of the alphabet and stops at a complete
padding. A text may be kept without its padding, which its length determines.

## Main definitions

* `Base64.encode`, `Base64.decode` — the two functions.
* `Base64.strip`, `Base64.pad` — a text without its padding, and the padding put back.

## Main results

* `Base64.decode_pad_strip_encode` — bytes are read back from a text without its padding.
-/

namespace Base64

/-! ## The alphabet -/

/-- The characters of the values below 64. -/
def alphabet : Str := "ABCDEFGHIJKLMNOPQRSTUVWXYZabcdefghijklmnopqrstuvwxyz0123456789-_"

/-- The character of a value. -/
def char (v : ℕ) : Char := alphabet.getD v '='

/-- The value of a character; `urlsafe_b64decode` translates `-` and `_` and keeps `+` and `/`. -/
def value (c : Char) : Option ℕ :=
  if c = '+' then some 62
  else if c = '/' then some 63
  else if c ∈ alphabet then some (alphabet.idxOf c) else none

lemma value_char {v : ℕ} (hv : v < 64) : value (char v) = some v := by
  have key : ∀ v < 64, value (char v) = some v := by decide +kernel
  exact key v hv

/-- The character of a value is no padding. -/
lemma char_ne {v : ℕ} (hv : v < 64) : char v ≠ '=' := by
  have key : ∀ v < 64, char v ≠ '=' := by decide +kernel
  exact key v hv

/-! ## The two functions -/

/-- `urlsafe_b64encode`: three bytes are four characters, and the last ones are padded. -/
def encode : List UInt8 → Str
  | [] => []
  | [a] => [char (a.toNat / 4), char (a.toNat % 4 * 16), '=', '=']
  | [a, b] =>
    [char (a.toNat / 4), char (a.toNat % 4 * 16 + b.toNat / 16), char (b.toNat % 16 * 4), '=']
  | a :: b :: c :: rest =>
    char (a.toNat / 4) :: char (a.toNat % 4 * 16 + b.toNat / 16) ::
      char (b.toNat % 16 * 4 + c.toNat / 64) :: char (c.toNat % 64) :: encode rest

/-- The loop of `a2b_base64`: the place of the next character among four, the bits that are left of
the last one, and how many `=` were seen. Bits that do not make up a byte are an error. -/
def decodeLoop (place left pads : ℕ) : Str → Option (List UInt8)
  | [] => if place = 0 then some [] else none
  | c :: s =>
    if c = '=' then
      if 2 ≤ place then
        if 4 ≤ place + (pads + 1) then some [] else decodeLoop place left (pads + 1) s
      else decodeLoop place left pads s
    else
      match value c with
      | none => decodeLoop place left pads s
      | some v =>
        match place with
        | 0 => decodeLoop 1 v 0 s
        | 1 => (decodeLoop 2 (v % 16) 0 s).map (UInt8.ofNat (left * 4 + v / 16) :: ·)
        | 2 => (decodeLoop 3 (v % 4) 0 s).map (UInt8.ofNat (left * 16 + v / 4) :: ·)
        | _ => (decodeLoop 0 0 0 s).map (UInt8.ofNat (left * 64 + v) :: ·)

/-- `urlsafe_b64decode`; a text with other characters than ASCII is an error. -/
def decode (s : Str) : Option (List UInt8) :=
  if s.all fun c => c.toNat < 128 then decodeLoop 0 0 0 s else none

/-- `s.rstrip("=")`. -/
def strip (s : Str) : Str := s.rdropWhile (· = '=')

/-- `s + "=" * (-len(s) % 4)`. -/
def pad (s : Str) : Str := s ++ List.replicate ((-(s.length : ℤ)) % 4).toNat '='

example : encode [77, 97, 110, 77] = "TWFuTQ==".toList := by decide

/-! ## Round trips -/

section Loop

variable {v : ℕ} (hv : v < 64) (left pads : ℕ) (s : Str)

include hv

/-! The loop at a character of the alphabet, in each of the four places. -/

lemma decodeLoop_first : decodeLoop 0 left pads (char v :: s) = decodeLoop 1 v 0 s := by
  rw [decodeLoop, if_neg (char_ne hv), value_char hv]
  rfl

lemma decodeLoop_second : decodeLoop 1 left pads (char v :: s) =
    (decodeLoop 2 (v % 16) 0 s).map (UInt8.ofNat (left * 4 + v / 16) :: ·) := by
  rw [decodeLoop, if_neg (char_ne hv), value_char hv]
  rfl

lemma decodeLoop_third : decodeLoop 2 left pads (char v :: s) =
    (decodeLoop 3 (v % 4) 0 s).map (UInt8.ofNat (left * 16 + v / 4) :: ·) := by
  rw [decodeLoop, if_neg (char_ne hv), value_char hv]
  rfl

lemma decodeLoop_fourth : decodeLoop 3 left pads (char v :: s) =
    (decodeLoop 0 0 0 s).map (UInt8.ofNat (left * 64 + v) :: ·) := by
  rw [decodeLoop, if_neg (char_ne hv), value_char hv]
  rfl

end Loop

/-- **What was encoded is decoded.**

**Proof sketch.** Induction on the bytes by three. The loop joins the bits of neighbouring
characters to the bytes again, and after three bytes no bits are left. -/
lemma decodeLoop_encode (bytes : List UInt8) : decodeLoop 0 0 0 (encode bytes) = some bytes := by
  induction bytes using encode.induct with
  | case1 => rfl
  | case2 a =>
    have ha := a.toNat_lt
    have hfirst : a.toNat / 4 * 4 + a.toNat % 4 * 16 / 16 = a.toNat := by omega
    rw [encode, decodeLoop_first (by omega), decodeLoop_second (by omega), hfirst,
      UInt8.ofNat_toNat]
    rfl
  | case3 a b =>
    have ha := a.toNat_lt
    have hb := b.toNat_lt
    have hfirst : a.toNat / 4 * 4 + (a.toNat % 4 * 16 + b.toNat / 16) / 16 = a.toNat := by omega
    have hsecond : (a.toNat % 4 * 16 + b.toNat / 16) % 16 * 16 + b.toNat % 16 * 4 / 4 =
        b.toNat := by omega
    rw [encode, decodeLoop_first (by omega), decodeLoop_second (by omega),
      decodeLoop_third (by omega), hfirst, hsecond, UInt8.ofNat_toNat, UInt8.ofNat_toNat]
    rfl
  | case4 a b c rest ih =>
    have ha := a.toNat_lt
    have hb := b.toNat_lt
    have hc := c.toNat_lt
    have hfirst : a.toNat / 4 * 4 + (a.toNat % 4 * 16 + b.toNat / 16) / 16 = a.toNat := by omega
    have hsecond : (a.toNat % 4 * 16 + b.toNat / 16) % 16 * 16 +
        (b.toNat % 16 * 4 + c.toNat / 64) / 4 = b.toNat := by omega
    have hthird : (b.toNat % 16 * 4 + c.toNat / 64) % 4 * 64 + c.toNat % 64 = c.toNat := by omega
    rw [encode, decodeLoop_first (by omega), decodeLoop_second (by omega),
      decodeLoop_third (by omega), decodeLoop_fourth (by omega), hfirst, hsecond, hthird, ih]
    simp only [UInt8.ofNat_toNat, Option.map_some]

/-- The characters of a text without its padding. -/
def body : List UInt8 → Str
  | [] => []
  | [a] => [char (a.toNat / 4), char (a.toNat % 4 * 16)]
  | [a, b] => [char (a.toNat / 4), char (a.toNat % 4 * 16 + b.toNat / 16), char (b.toNat % 16 * 4)]
  | a :: b :: c :: rest =>
    char (a.toNat / 4) :: char (a.toNat % 4 * 16 + b.toNat / 16) ::
      char (b.toNat % 16 * 4 + c.toNat / 64) :: char (c.toNat % 64) :: body rest

/-- A text is its characters, padded. -/
lemma pad_body (bytes : List UInt8) : pad (body bytes) = encode bytes := by
  induction bytes using encode.induct with
  | case1 | case2 | case3 => rfl
  | case4 a b c rest ih =>
    unfold pad at ih ⊢
    have hlength : (-((body (a :: b :: c :: rest)).length : ℤ)) % 4 =
        (-((body rest).length : ℤ)) % 4 := by
      simp only [body, List.length_cons]
      omega
    rw [hlength, body, encode, ← ih]
    rfl

/-- The characters of a text are those of values. -/
lemma exists_of_mem_body {bytes : List UInt8} {c : Char} (h : c ∈ body bytes) :
    ∃ v < 64, c = char v := by
  induction bytes using encode.induct with
  | case1 => cases h
  | case2 a =>
    have ha := a.toNat_lt
    simp only [body, List.mem_cons, List.not_mem_nil, or_false] at h
    rcases h with rfl | rfl
    · exact ⟨_, by omega, rfl⟩
    · exact ⟨_, by omega, rfl⟩
  | case3 a b =>
    have ha := a.toNat_lt
    have hb := b.toNat_lt
    simp only [body, List.mem_cons, List.not_mem_nil, or_false] at h
    rcases h with rfl | rfl | rfl
    · exact ⟨_, by omega, rfl⟩
    · exact ⟨_, by omega, rfl⟩
    · exact ⟨_, by omega, rfl⟩
  | case4 a b c rest ih =>
    have ha := a.toNat_lt
    have hb := b.toNat_lt
    have hc := c.toNat_lt
    simp only [body, List.mem_cons] at h
    rcases h with rfl | rfl | rfl | rfl | h
    · exact ⟨_, by omega, rfl⟩
    · exact ⟨_, by omega, rfl⟩
    · exact ⟨_, by omega, rfl⟩
    · exact ⟨_, by omega, rfl⟩
    · exact ih h

/-- Removing the padding leaves the characters. -/
lemma strip_encode (bytes : List UInt8) : strip (encode bytes) = body bytes := by
  have hne : ∀ c ∈ (body bytes).reverse, ¬ decide (c = '=') = true := by
    intro c hc
    obtain ⟨v, hv, rfl⟩ := exists_of_mem_body (List.mem_reverse.mp hc)
    simpa using char_ne hv
  have hpadding : ∀ c ∈ List.replicate ((-((body bytes).length : ℤ)) % 4).toNat '=',
      decide (c = '=') = true := fun c hc => decide_eq_true (List.eq_of_mem_replicate hc)
  rw [← pad_body, strip, pad, List.rdropWhile, List.reverse_append, List.reverse_replicate,
    List.dropWhile_append_of_pos hpadding]
  have hkept : (body bytes).reverse.dropWhile (fun c => decide (c = '=')) =
      (body bytes).reverse := by
    cases hbody : (body bytes).reverse with
    | nil => rfl
    | cons c s => exact List.dropWhile_cons_of_neg (hne c (hbody ▸ List.mem_cons_self ..))
  rw [hkept, List.reverse_reverse]

/-- A text consists of ASCII characters. -/
lemma all_encode (bytes : List UInt8) : (encode bytes).all fun c => c.toNat < 128 := by
  have key : ∀ v < 64, (char v).toNat < 128 := by decide +kernel
  rw [← pad_body, pad, List.all_append, Bool.and_eq_true]
  refine ⟨List.all_eq_true.mpr fun c hc => ?_, List.all_eq_true.mpr fun c hc => ?_⟩
  · obtain ⟨v, hv, rfl⟩ := exists_of_mem_body hc
    exact decide_eq_true (key v hv)
  · rw [List.eq_of_mem_replicate hc]
    rfl

/-- **Bytes are read back from a text without its padding.** -/
theorem decode_pad_strip_encode (bytes : List UInt8) :
    decode (pad (strip (encode bytes))) = some bytes := by
  rw [strip_encode, pad_body, decode, if_pos (all_encode bytes), decodeLoop_encode]

end Base64
