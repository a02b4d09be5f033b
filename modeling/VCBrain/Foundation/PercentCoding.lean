import VCBrain.Foundation.Text

set_option relaxedAutoImplicit false
set_option autoImplicit false

/-!
# Percent-encoding

The URI functions of JavaScript and the decoding of form data. Text is encoded as UTF-8, and a byte
that may not stand for itself is written as `%` and two hexadecimal digits.

## Main definitions

* `JsText` — a string of JavaScript, whose surrogates need not be paired.
* `encodeURIComponent`, `decodeURIComponent` — the URI functions.
* `formDecode` — the decoding of a part of form data.

## Main results

* `decodeURIComponent_encoded` — an encoded text is decoded to what it was.
* `formDecode_encoded` — the same for form data.
* `isEncodedChar_of_mem` — the characters of an encoded text.
-/

/-- A string of JavaScript; `none` stands for a surrogate that is not paired. -/
abbrev JsText := List (Option Char)

namespace JsText

/-- A text without surrogates as a string of JavaScript. -/
def ofStr (s : Str) : JsText := s.map some

/-- The text, if no surrogate is unpaired. -/
def wellFormed? : JsText → Option Str
  | [] => some []
  | some c :: s => (wellFormed? s).map (c :: ·)
  | none :: _ => none

/-- The conversion that puts U+FFFD in the place of an unpaired surrogate. -/
def toWellFormed (s : JsText) : Str := s.map fun c => c.getD (Char.ofNat 0xFFFD)

@[simp] lemma wellFormed?_ofStr (s : Str) : wellFormed? (ofStr s) = some s := by
  induction s with
  | nil => rfl
  | cons c s ih =>
    change (wellFormed? (ofStr s)).map (c :: ·) = _
    rw [ih, Option.map_some]

lemma eq_ofStr_of_wellFormed? {u : JsText} {s : Str} (h : u.wellFormed? = some s) :
    u = ofStr s := by
  induction u generalizing s with
  | nil => rw [← Option.some_inj.mp h]; rfl
  | cons c u ih =>
    cases c with
    | none => cases h
    | some c =>
      obtain ⟨t, ht, rfl⟩ := Option.map_eq_some_iff.mp h
      rw [ih ht]
      rfl

@[simp] lemma toWellFormed_ofStr (s : Str) : toWellFormed (ofStr s) = s := by
  unfold toWellFormed ofStr
  rw [List.map_map]
  exact List.map_id s

lemma ofStr_append (s t : Str) : ofStr (s ++ t) = ofStr s ++ ofStr t := List.map_append

end JsText

/-! ## UTF-8 -/

/-- The bytes of a text. -/
def utf8Bytes (s : Str) : List UInt8 := s.flatMap String.utf8EncodeChar

/-- The character that the bytes begin with, if they do. -/
def firstChar (bytes : List UInt8) : Option Char := bytes.toByteArray.utf8DecodeChar? 0

lemma firstChar_append (c : Char) (bytes : List UInt8) :
    firstChar (String.utf8EncodeChar c ++ bytes) = some c := by
  unfold firstChar
  rw [List.toByteArray_append]
  exact ByteArray.utf8DecodeChar?_utf8EncodeChar_append

/-- The ranges of the bytes behind a first byte. -/
def continuationRanges (b : UInt8) : List (UInt8 × UInt8) :=
  if 0xC2 ≤ b ∧ b ≤ 0xDF then [(0x80, 0xBF)]
  else if b = 0xE0 then [(0xA0, 0xBF), (0x80, 0xBF)]
  else if b = 0xED then [(0x80, 0x9F), (0x80, 0xBF)]
  else if 0xE1 ≤ b ∧ b ≤ 0xEF then [(0x80, 0xBF), (0x80, 0xBF)]
  else if b = 0xF0 then [(0x90, 0xBF), (0x80, 0xBF), (0x80, 0xBF)]
  else if 0xF1 ≤ b ∧ b ≤ 0xF3 then [(0x80, 0xBF), (0x80, 0xBF), (0x80, 0xBF)]
  else if b = 0xF4 then [(0x80, 0x8F), (0x80, 0xBF), (0x80, 0xBF)]
  else []

/-- The number of bytes that are in their ranges, up to the first one that is not. -/
def inRanges : List (UInt8 × UInt8) → List UInt8 → ℕ
  | (low, high) :: ranges, b :: bytes =>
    if low ≤ b ∧ b ≤ high then inRanges ranges bytes + 1 else 0
  | _, _ => 0

/-- The decoding that puts U+FFFD in the place of what is not UTF-8, with the number of bytes that
are still to be skipped. -/
def utf8LossyFrom : ℕ → List UInt8 → Str
  | _, [] => []
  | skip + 1, _ :: bytes => utf8LossyFrom skip bytes
  | 0, b :: bytes =>
    match firstChar (b :: bytes) with
    | some c => c :: utf8LossyFrom (c.utf8Size - 1) bytes
    | none => Char.ofNat 0xFFFD :: utf8LossyFrom (inRanges (continuationRanges b) bytes) bytes

/-- The UTF-8 decoding of form data. -/
def utf8Lossy (bytes : List UInt8) : Str := utf8LossyFrom 0 bytes

lemma utf8LossyFrom_append (xs ys : List UInt8) :
    utf8LossyFrom xs.length (xs ++ ys) = utf8LossyFrom 0 ys := by
  induction xs with
  | nil => rfl
  | cons x xs ih => rw [List.length_cons, List.cons_append, utf8LossyFrom, ih]

/-- The bytes of a text are decoded to the text. -/
lemma utf8Lossy_utf8Bytes (s : Str) : utf8Lossy (utf8Bytes s) = s := by
  unfold utf8Lossy
  induction s with
  | nil => rfl
  | cons c s ih =>
    have hbytes : utf8Bytes (c :: s) = String.utf8EncodeChar c ++ utf8Bytes s := rfl
    have hfirst := firstChar_append c (utf8Bytes s)
    have hlength := String.length_utf8EncodeChar c
    rw [hbytes]
    cases hc : String.utf8EncodeChar c with
    | nil =>
      rw [hc] at hlength
      exact absurd hlength c.utf8Size_pos.ne
    | cons b bytes =>
      rw [hc] at hfirst hlength
      rw [List.cons_append] at hfirst ⊢
      have hsize : c.utf8Size - 1 = bytes.length := by
        rw [← hlength]
        rfl
      rw [utf8LossyFrom, hfirst]
      dsimp only
      rw [hsize, utf8LossyFrom_append, ih]

/-! ## Hexadecimal digits -/

/-- A digit of `%XX`, in capitals. -/
def hexDigit (n : ℕ) : Char := if n < 10 then Char.ofNat (48 + n) else Char.ofNat (55 + n)

/-- The value of a hexadecimal digit of either case. -/
def hexValue (c : Char) : Option ℕ :=
  if c.isDigit then some (c.toNat - 48)
  else if 'a' ≤ c ∧ c ≤ 'f' then some (c.toNat - 87)
  else if 'A' ≤ c ∧ c ≤ 'F' then some (c.toNat - 55)
  else none

/-- The byte of two hexadecimal digits. -/
def hexByte (high low : Char) : Option UInt8 :=
  match hexValue high, hexValue low with
  | some h, some l => some (UInt8.ofNat (16 * h + l))
  | _, _ => none

/-- `%XX`. -/
def escapeByte (b : UInt8) : Str := ['%', hexDigit (b.toNat / 16), hexDigit (b.toNat % 16)]

lemma hexValue_hexDigit : ∀ n < 16, hexValue (hexDigit n) = some n := by decide

lemma hexByte_escapeByte (b : UInt8) :
    hexByte (hexDigit (b.toNat / 16)) (hexDigit (b.toNat % 16)) = some b := by
  have hb : b.toNat < 256 := b.toNat_lt
  have hsplit : 16 * (b.toNat / 16) + b.toNat % 16 = b.toNat := Nat.div_add_mod _ _
  rw [hexByte, hexValue_hexDigit _ (by omega), hexValue_hexDigit _ (by omega)]
  dsimp only
  rw [hsplit, UInt8.ofNat_toNat]

/-! ## Encoding -/

/-- `uriUnescaped`: the characters that `encodeURIComponent` leaves as they are. -/
def uriUnescaped (c : Char) : Bool :=
  c.isAlphanum || c ∈ ['-', '_', '.', '!', '~', '*', '\'', '(', ')']

/-- A character of a URI component. -/
def encodeChar (c : Char) : Str :=
  if uriUnescaped c then [c] else (String.utf8EncodeChar c).flatMap escapeByte

/-- The encoding of a text without surrogates. -/
def encoded (s : Str) : Str := s.flatMap encodeChar

/-- `encodeURIComponent(s)`; `none` stands for `URIError`. -/
def encodeURIComponent (s : JsText) : Option Str := s.wellFormed?.map encoded

/-- A character that an encoded text may have. -/
def isEncodedChar (c : Char) : Bool := uriUnescaped c || c == '%'

lemma isEncodedChar_of_mem {c : Char} {s : Str} (h : c ∈ encoded s) : isEncodedChar c = true := by
  have hdigit : ∀ n < 16, isEncodedChar (hexDigit n) = true := by decide
  obtain ⟨d, -, hd⟩ := List.mem_flatMap.mp h
  unfold encodeChar at hd
  split_ifs at hd with hplain
  · obtain rfl := List.mem_singleton.mp hd
    rw [isEncodedChar, hplain, Bool.true_or]
  · obtain ⟨b, -, hb⟩ := List.mem_flatMap.mp hd
    have hbyte : b.toNat < 256 := b.toNat_lt
    simp only [escapeByte, List.mem_cons, List.not_mem_nil, or_false] at hb
    rcases hb with rfl | rfl | rfl
    · decide
    · exact hdigit _ (by omega)
    · exact hdigit _ (by omega)

/-! ## Decoding -/

/-- The bytes of the escapes that a string begins with. -/
def escapedBytes : JsText → List UInt8
  | some '%' :: some a :: some b :: s =>
    match hexByte a b with
    | some byte => byte :: escapedBytes s
    | none => []
  | _ => []

/-- `decodeURIComponent` from a position on, with the number of characters of an escape that are
still to be skipped. -/
def decodeFrom : ℕ → JsText → Option JsText
  | _, [] => some []
  | skip + 1, _ :: s => decodeFrom skip s
  | 0, c :: s =>
    if c = some '%' then
      match firstChar (escapedBytes (c :: s)) with
      | some d => (decodeFrom (3 * d.utf8Size - 1) s).map (some d :: ·)
      | none => none
    else (decodeFrom 0 s).map (c :: ·)

/-- `decodeURIComponent(s)`; `none` stands for `URIError`. -/
def decodeURIComponent (s : JsText) : Option JsText := decodeFrom 0 s

/-- The percent-decoding of form data: a `%` without two digits stands for itself. -/
def percentDecode : Str → List UInt8
  | '%' :: a :: b :: s =>
    match hexByte a b with
    | some byte => byte :: percentDecode s
    | none => 37 :: percentDecode (a :: b :: s)
  | c :: s => String.utf8EncodeChar c ++ percentDecode s
  | [] => []

/-- A name or a value of form data. -/
def formDecode (s : Str) : Str :=
  utf8Lossy (percentDecode (s.map fun c => if c = '+' then ' ' else c))

section RoundTrip

variable {c : Char} {s t : Str} {u : JsText}

lemma percentDecode_escapeByte (b : UInt8) (s : Str) :
    percentDecode (escapeByte b ++ s) = b :: percentDecode s := by
  have hbyte := hexByte_escapeByte b
  change percentDecode ('%' :: hexDigit (b.toNat / 16) :: hexDigit (b.toNat % 16) :: s) = _
  rw [percentDecode, hbyte]

lemma percentDecode_cons (h : c ≠ '%') :
    percentDecode (c :: s) = String.utf8EncodeChar c ++ percentDecode s := by
  rw [percentDecode]
  rintro a b s' ⟨rfl, -⟩
  exact absurd rfl h

/-- The bytes of an encoded text are those of the text. -/
lemma percentDecode_encoded : percentDecode (encoded t) = utf8Bytes t := by
  have hbytes : ∀ (bytes : List UInt8) (s : Str),
      percentDecode (bytes.flatMap escapeByte ++ s) = bytes ++ percentDecode s := by
    intro bytes s
    induction bytes with
    | nil => rfl
    | cons b bytes ih =>
      rw [List.flatMap_cons, List.append_assoc, percentDecode_escapeByte, ih, List.cons_append]
  induction t with
  | nil => rfl
  | cons c t ih =>
    have hcons : encoded (c :: t) = encodeChar c ++ encoded t := rfl
    have hutf8 : utf8Bytes (c :: t) = String.utf8EncodeChar c ++ utf8Bytes t := rfl
    rw [hcons, hutf8, ← ih, encodeChar]
    split_ifs with hplain
    · refine percentDecode_cons ?_
      rintro rfl
      exact absurd hplain (by decide)
    · exact hbytes _ _

/-- **Form data.** An encoded text is decoded to what it was. -/
theorem formDecode_encoded (t : Str) : formDecode (encoded t) = t := by
  have hplus : (encoded t).map (fun c => if c = '+' then ' ' else c) = encoded t := by
    refine (List.map_congr_left fun c hc => if_neg ?_).trans (List.map_id _)
    rintro rfl
    exact absurd (isEncodedChar_of_mem hc) (by decide)
  rw [formDecode, hplus, percentDecode_encoded, utf8Lossy_utf8Bytes]

lemma escapedBytes_append (bytes : List UInt8) (u : JsText) :
    escapedBytes (JsText.ofStr (bytes.flatMap escapeByte) ++ u) = bytes ++ escapedBytes u := by
  induction bytes with
  | nil => rfl
  | cons b bytes ih =>
    have hbyte := hexByte_escapeByte b
    have hcons : JsText.ofStr ((b :: bytes).flatMap escapeByte) ++ u =
        some '%' :: some (hexDigit (b.toNat / 16)) :: some (hexDigit (b.toNat % 16)) ::
          (JsText.ofStr (bytes.flatMap escapeByte) ++ u) := rfl
    rw [hcons, escapedBytes, hbyte]
    dsimp only
    rw [ih, List.cons_append]

lemma decodeFrom_append (v u : JsText) : decodeFrom v.length (v ++ u) = decodeFrom 0 u := by
  induction v with
  | nil => rfl
  | cons x v ih => rw [List.length_cons, List.cons_append, decodeFrom, ih]

lemma length_flatMap_escapeByte (bytes : List UInt8) :
    (bytes.flatMap escapeByte).length = 3 * bytes.length := by
  induction bytes with
  | nil => rfl
  | cons b bytes ih =>
    have hthree : (escapeByte b).length = 3 := rfl
    rw [List.flatMap_cons, List.length_append, ih, List.length_cons, hthree]
    omega

/-- An encoded character is decoded. -/
lemma decodeFrom_encodeChar (c : Char) (u : JsText) :
    decodeFrom 0 (JsText.ofStr (encodeChar c) ++ u) = (decodeFrom 0 u).map (some c :: ·) := by
  unfold encodeChar
  split_ifs with hplain
  · have hne : some c ≠ some '%' := by
      intro hc
      rw [Option.some_inj.mp hc] at hplain
      exact absurd hplain (by decide)
    change decodeFrom 0 (some c :: u) = _
    rw [decodeFrom, if_neg hne]
  · have hbytes := escapedBytes_append (String.utf8EncodeChar c) u
    have hlength : (JsText.ofStr ((String.utf8EncodeChar c).flatMap escapeByte)).length =
        3 * c.utf8Size := by
      rw [JsText.ofStr, List.length_map, length_flatMap_escapeByte, String.length_utf8EncodeChar]
    cases hv : JsText.ofStr ((String.utf8EncodeChar c).flatMap escapeByte) with
    | nil =>
      rw [hv] at hlength
      have hpos := c.utf8Size_pos
      simp at hlength
      omega
    | cons x v =>
      have hx : x = some '%' := by
        cases hbytes' : String.utf8EncodeChar c with
        | nil =>
          rw [hbytes'] at hv
          cases hv
        | cons b bytes =>
          rw [hbytes'] at hv
          exact (List.cons.inj hv).1.symm
      rw [hv] at hbytes hlength
      rw [List.cons_append] at hbytes ⊢
      have hsize : 3 * c.utf8Size - 1 = v.length := by
        rw [← hlength]
        rfl
      rw [decodeFrom, if_pos hx, hbytes, firstChar_append]
      dsimp only
      rw [hsize, decodeFrom_append]

/-- **URI components.** An encoded text is decoded to what it was. -/
theorem decodeURIComponent_encoded (t : Str) (u : JsText) :
    decodeURIComponent (JsText.ofStr (encoded t) ++ u) =
      (decodeURIComponent u).map (JsText.ofStr t ++ ·) := by
  unfold decodeURIComponent
  induction t with
  | nil =>
    have hnil : (fun v : JsText => JsText.ofStr [] ++ v) = id := funext fun v => rfl
    rw [hnil, Option.map_id]
    rfl
  | cons c t ih =>
    have hcons : encoded (c :: t) = encodeChar c ++ encoded t := rfl
    rw [hcons, JsText.ofStr_append, List.append_assoc, decodeFrom_encodeChar, ih, Option.map_map]
    rfl

/-- A string without escapes is decoded to itself. -/
lemma decodeURIComponent_of_notMem (h : some '%' ∉ u) : decodeURIComponent u = some u := by
  unfold decodeURIComponent
  induction u with
  | nil => rfl
  | cons c u ih =>
    rw [List.mem_cons, not_or] at h
    rw [decodeFrom, if_neg (Ne.symm h.1), ih h.2, Option.map_some]

end RoundTrip
