import VCBrain.Foundation.PercentCoding

set_option relaxedAutoImplicit false
set_option autoImplicit false

/-!
# Mail links

The two ends of the hand-over to the mail client: `safeMailto` builds a link from a recipient, a
subject and a body, and `safeActionUrl` checks a link before it is shown.

## Main definitions

* `isMailtoRecipient` — the pattern of a recipient.
* `safeMailto` — the builder.
* `safeExistingMailto`, `safeActionUrl` — the checker.

## Main results

* `safeMailto_accepted_iff` — which of the links that are built are accepted.

## Design

The parser of HTTP URLs is that of the browser and a parameter.
-/

namespace VCBrain

/-- A control character, as `hasControlCharacter` looks for. -/
def isControl : Option Char → Bool
  | some c => c.toNat ≤ 0x1f || c.toNat == 0x7f
  | none => false

/-- `hasControlCharacter`. -/
def hasControlCharacter (value : JsText) : Bool := value.any isControl

/-- `hasUnsafeMailtoBodyControl`: a line feed is allowed. -/
def hasUnsafeMailtoBodyControl (value : JsText) : Bool :=
  value.any fun c => isControl c && c != some '\n'

/-- The white space of JavaScript, with the ends of lines. -/
def isJsSpace : Option Char → Bool
  | some c => (9 ≤ c.toNat && c.toNat ≤ 13) || c.toNat == 0x20 || c.toNat == 0xA0 ||
      c.toNat == 0x1680 || (0x2000 ≤ c.toNat && c.toNat ≤ 0x200A) || c.toNat == 0x2028 ||
      c.toNat == 0x2029 || c.toNat == 0x202F || c.toNat == 0x205F || c.toNat == 0x3000 ||
      c.toNat == 0xFEFF
  | none => false

/-- `value.trim()`. -/
def jsTrim (value : JsText) : JsText := (value.dropWhile isJsSpace).rdropWhile isJsSpace

/-- A character of the part of an address before the `@`. -/
def isLocalChar (c : Char) : Bool :=
  c.isAlphanum ||
    c ∈ ['!', '$', '\'', '*', '+', '/', '^', '_', Char.ofNat 96, '{', '|', '}', '~', '-']

/-- A label of a domain: up to 63 letters, digits and hyphens, with none at the ends. -/
def isDomainLabel (s : Str) : Bool :=
  1 ≤ s.length && s.length ≤ 63 && s.all (fun c => c.isAlphanum || c == '-') &&
    s.head?.any Char.isAlphanum && s.getLast?.any Char.isAlphanum

/-- `mailtoRecipientPattern`. -/
def isMailtoRecipient (s : Str) : Bool :=
  let (mailbox, domain) := s.partition '@'
  (List.splitOn '.' mailbox).all (fun part => part != [] && part.all isLocalChar) &&
    2 ≤ (List.splitOn '.' domain).length && (List.splitOn '.' domain).all isDomainLabel

/-- The text before the last `@` of an address. -/
def localPart (address : Str) : Str :=
  address.take (address.length - (address.afterLast '@').length - 1)

/-- The address has an acceptable form and length. -/
def recipientAccepted (address : Str) : Bool :=
  isMailtoRecipient address && (localPart address).length ≤ 64 && address.length ≤ 254

/-- `safeMailto`. -/
def safeMailto (recipient : Option JsText) (subject body : JsText) : Option JsText :=
  match recipient with
  | none => none
  | some recipient =>
    if recipient = [] ∨ hasControlCharacter recipient then none
    else
      match (jsTrim recipient).wellFormed? with
      | none => none
      | some normalizedRecipient =>
        if !recipientAccepted normalizedRecipient then none
        else
          match encodeURIComponent (JsText.ofStr (localPart normalizedRecipient)),
            encodeURIComponent subject, encodeURIComponent body with
          | some encodedLocalPart, some encodedSubject, some encodedBody =>
            some (JsText.ofStr ("mailto:".toList ++ (encodedLocalPart ++ '@' ::
              normalizedRecipient.afterLast '@' ++ "?subject=".toList ++ encodedSubject ++
                "&body=".toList ++ encodedBody)))
          | _, _, _ => none

/-- Two hexadecimal digits stand in front. -/
def hexAhead : JsText → Bool
  | some a :: some b :: _ => (hexValue a).isSome && (hexValue b).isSome
  | _ => false

/-- Some `%` is not followed by two hexadecimal digits. -/
def hasBadEscape : JsText → Bool
  | [] => false
  | c :: s => (c == some '%' && !hexAhead s) || hasBadEscape s

/-- `new URLSearchParams(query)`: the names and the values. -/
def searchParams (query : JsText) : List (Str × Str) :=
  let text := query.toWellFormed
  let text := if text.head? = some '?' then text.tail else text
  ((List.splitOn '&' text).filter (· ≠ [])).map fun part =>
    (formDecode (Str.partition '=' part).1, formDecode (Str.partition '=' part).2)

/-- The check of the query of a mail link. -/
def queryAccepted (query : JsText) : Bool :=
  let params := searchParams query
  !hasBadEscape query &&
    params.all (fun param => param.1 ∈ [("subject" : Str), "body"]) &&
      decide (params.map Prod.fst).Nodup &&
        ((params.lookup "subject".toList).all fun subject =>
          !hasControlCharacter (JsText.ofStr subject)) &&
        ((params.lookup "body".toList).all fun body =>
          !hasUnsafeMailtoBodyControl (JsText.ofStr body))

/-- The query of a mail link, if it has one. -/
def mailtoQuery (value : JsText) : Option JsText :=
  let payload := value.drop "mailto:".length
  if some '?' ∈ payload then some (payload.dropWhile (· ≠ some '?')).tail else none

/-- `safeExistingMailto`. -/
def safeExistingMailto (value : JsText) : Option JsText :=
  if hasControlCharacter value then none
  else
    let payload := value.drop "mailto:".length
    if payload = [] ∨ some '#' ∈ payload then none
    else
      match (decodeURIComponent (payload.takeWhile (· ≠ some '?'))).bind JsText.wellFormed? with
      | none => none
      | some recipient =>
        if recipientAccepted recipient && (mailtoQuery value).all queryAccepted then some value
        else none

/-- The string begins with the text, in any case of its letters. -/
def startsWithFold (start : Str) (value : JsText) : Bool :=
  (value.take start.length).map (Option.map Char.toLower) == JsText.ofStr start

/-- `/^https?:\/\//i`. -/
def isHttpText (value : JsText) : Bool :=
  startsWithFold "http://" value || startsWithFold "https://" value

/-- `safeHttpUrl`; the URL parser gives the protocol and the text of a URL. -/
def safeHttpUrl (parseUrlText : JsText → Option (Str × JsText)) (value : JsText) : Option JsText :=
  if value = [] ∨ !isHttpText (jsTrim value) then none
  else
    match parseUrlText (jsTrim value) with
    | some (protocol, text) => if protocol ∈ [("http:" : Str), "https:"] then some text else none
    | none => none

/-- `safeActionUrl`. -/
def safeActionUrl (parseUrlText : JsText → Option (Str × JsText)) (value : Option JsText)
    (allowMailto : Bool) : Option JsText :=
  match value with
  | none => none
  | some value =>
    if value = [] ∨ jsTrim value = [] then none
    else if isHttpText (jsTrim value) then safeHttpUrl parseUrlText (jsTrim value)
    else if allowMailto && startsWithFold "mailto:" (jsTrim value) then
      safeExistingMailto (jsTrim value)
    else none

/-- The subject of a mail link, decoded. -/
def mailtoSubject (value : JsText) : Option Str :=
  (mailtoQuery value).bind fun query => (searchParams query).lookup "subject".toList

/-! ## Built links -/

section Built

variable {address mailbox domain subject body : Str} {value : JsText} {c : Char}

/-- A character that a built link may have. -/
def isMailChar (c : Char) : Bool := isEncodedChar c || c ∈ [':', '@', '?', '=', '&']

lemma toNat_of_isMailChar (h : isMailChar c = true) : 33 ≤ c.toNat ∧ c.toNat ≤ 126 := by
  have hnat : c.toNat = c.val.toNat := rfl
  have hsigns : ∀ d ∈ ['-', '_', '.', '!', '~', '*', '\'', '(', ')', '%', ':', '@', '?', '=', '&'],
      33 ≤ d.toNat ∧ d.toNat ≤ 126 := by decide
  delta isMailChar isEncodedChar uriUnescaped Char.isAlphanum Char.isAlpha Char.isUpper
    Char.isLower at h
  simp only [Char.isDigit, Bool.or_eq_true, Bool.and_eq_true, decide_eq_true_eq, beq_iff_eq,
    ge_iff_le, UInt32.le_iff_toNat_le] at h
  have hsize : 'A'.val.toNat = 65 ∧ 'Z'.val.toNat = 90 ∧ 'a'.val.toNat = 97 ∧
      'z'.val.toNat = 122 ∧ '0'.val.toNat = 48 ∧ '9'.val.toNat = 57 := by decide
  rcases h with ((h | h) | h) | h
  · omega
  · refine hsigns c ?_
    simp only [List.mem_cons, List.not_mem_nil, or_false] at h ⊢
    tauto
  · rw [h]
    decide
  · refine hsigns c ?_
    simp only [List.mem_cons, List.not_mem_nil, or_false] at h ⊢
    tauto

/-- A built link has no control characters, no white space and no fragment. -/
lemma notMem_of_isMailChar (h : isMailChar c = true) :
    isControl (some c) = false ∧ isJsSpace (some c) = false ∧ c ≠ '#' := by
  obtain ⟨hlow, hhigh⟩ := toNat_of_isMailChar h
  refine ⟨?_, ?_, ?_⟩
  · simp only [isControl, Bool.or_eq_false_iff, decide_eq_false_iff_not, beq_eq_false_iff_ne]
    omega
  · simp only [isJsSpace, Bool.or_eq_false_iff, Bool.and_eq_false_iff, decide_eq_false_iff_not,
      beq_eq_false_iff_ne]
    omega
  · rintro rfl
    exact absurd h (by decide)

/-- A string without white space is not trimmed. -/
lemma jsTrim_eq_self (h : ∀ c ∈ value, isJsSpace c = false) : jsTrim value = value := by
  have hdrop : value.dropWhile isJsSpace = value := by
    cases value with
    | nil => rfl
    | cons c value => exact List.dropWhile_cons_of_neg (by simp [h c (List.mem_cons_self ..)])
  rw [jsTrim, hdrop, List.rdropWhile_eq_self_iff]
  intro hne
  rw [h _ (List.getLast_mem hne)]
  exact Bool.false_ne_true

/-- An address that is accepted is split at its only `@`. -/
lemma exists_of_recipientAccepted (h : recipientAccepted address = true) :
    ∃ domain : Str, address = localPart address ++ '@' :: domain ∧
      address.afterLast '@' = domain ∧ ∀ c ∈ domain, c.isAlphanum = true ∨ c = '-' ∨ c = '.' := by
  have hmailto : isMailtoRecipient address = true := by
    simp only [recipientAccepted, Bool.and_eq_true] at h
    exact h.1.1
  unfold isMailtoRecipient at hmailto
  simp only [Bool.and_eq_true, decide_eq_true_eq, List.all_eq_true] at hmailto
  obtain ⟨⟨-, htwo⟩, hlabels⟩ := hmailto
  have hat : '@' ∈ address := by
    by_contra hat
    have hone : ¬ 2 ≤ (List.splitOn '.' ([] : Str)).length := by decide
    rw [Str.partition_of_notMem hat] at htwo
    exact hone htwo
  obtain ⟨mailbox, domain, rfl, hmailbox⟩ := List.eq_append_cons_of_mem hat
  rw [Str.partition_append_cons hmailbox] at hlabels
  have hchars : ∀ c ∈ domain, c.isAlphanum = true ∨ c = '-' ∨ c = '.' := by
    intro c hc
    have hjoin : List.intercalate ['.'] (List.splitOn '.' domain) = domain :=
      List.intercalate_splitOn '.'
    rw [← hjoin] at hc
    rcases Str.mem_or_exists_of_mem_intercalate hc with hdot | ⟨label, hlabel, hc⟩
    · exact Or.inr (Or.inr (List.mem_singleton.mp hdot))
    · have hvalid := hlabels label hlabel
      simp only [isDomainLabel, Bool.and_eq_true, List.all_eq_true, Bool.or_eq_true,
        beq_iff_eq] at hvalid
      exact (hvalid.1.1.2 c hc).imp_right Or.inl
  have hnotat : '@' ∉ domain := fun hmem => by
    rcases hchars '@' hmem with h | h | h <;> exact absurd h (by decide)
  have hafter : Str.afterLast '@' (mailbox ++ '@' :: domain) = domain := by
    rw [List.append_cons]
    exact Str.afterLast_append (Or.inr ⟨mailbox, rfl⟩) hnotat
  have hlocal : localPart (mailbox ++ '@' :: domain) = mailbox := by
    have hlength : (mailbox ++ '@' :: domain).length - domain.length - 1 = mailbox.length := by
      rw [List.length_append, List.length_cons]
      omega
    rw [localPart, hafter, hlength, List.take_left]
  exact ⟨domain, by rw [hlocal], hafter, hchars⟩

/-- The query of a built link. -/
def builtQuery (s b : Str) : Str :=
  ("subject=".toList ++ encoded s) ++ '&' :: ("body=".toList ++ encoded b)

/-- A built link. -/
def builtLink (mailbox domain s b : Str) : Str :=
  "mailto:".toList ++ ((encoded mailbox ++ '@' :: domain) ++ '?' :: builtQuery s b)

/-- The parts of a link that is built. -/
lemma exists_of_safeMailto {recipient : Option JsText} {subject body url : JsText}
    (h : safeMailto recipient subject body = some url) :
    ∃ address domain s b : Str, recipientAccepted address = true ∧
      address = localPart address ++ '@' :: domain ∧
        (∀ c ∈ domain, c.isAlphanum = true ∨ c = '-' ∨ c = '.') ∧ subject.wellFormed? = some s ∧
          body.wellFormed? = some b ∧
            url = JsText.ofStr (builtLink (localPart address) domain s b) := by
  unfold safeMailto at h
  cases recipient with
  | none => cases h
  | some recipient =>
    obtain ⟨-, h⟩ := Option.ite_none_left_eq_some.mp h
    cases haddress : (jsTrim recipient).wellFormed? with
    | none =>
      rw [haddress] at h
      cases h
    | some address =>
      rw [haddress] at h
      obtain ⟨haccepted, h⟩ := Option.ite_none_left_eq_some.mp h
      have hrecipient : recipientAccepted address = true := by simpa using haccepted
      obtain ⟨domain, hsplit, hafter, hchars⟩ := exists_of_recipientAccepted hrecipient
      have hlocal : encodeURIComponent (JsText.ofStr (localPart address)) =
          some (encoded (localPart address)) := by
        rw [encodeURIComponent, JsText.wellFormed?_ofStr, Option.map_some]
      rw [hlocal, hafter] at h
      cases hsubject : subject.wellFormed? with
      | none =>
        rw [encodeURIComponent, hsubject] at h
        cases h
      | some s =>
        cases hbody : body.wellFormed? with
        | none =>
          rw [encodeURIComponent, hsubject, encodeURIComponent, hbody] at h
          cases h
        | some b =>
          rw [encodeURIComponent, hsubject, encodeURIComponent, hbody] at h
          refine ⟨address, domain, s, b, hrecipient, hsplit, hchars, rfl, rfl, ?_⟩
          rw [← Option.some_inj.mp h]
          have hshape : ∀ m d x y : Str, "mailto:".toList ++ (m ++ '@' :: d ++
              "?subject=".toList ++ x ++ "&body=".toList ++ y) =
                "mailto:".toList ++ ((m ++ '@' :: d) ++ '?' ::
                  (("subject=".toList ++ x) ++ '&' :: ("body=".toList ++ y))) := by
            intro m d x y
            rw [List.append_assoc, List.append_assoc, List.append_assoc]
            rfl
          exact congrArg JsText.ofStr (hshape _ _ _ _)

lemma hasBadEscape_cons (h : c ≠ '%') (u : JsText) :
    hasBadEscape (some c :: u) = hasBadEscape u := by
  have hne : (some c == some '%') = false := by simpa using h
  rw [hasBadEscape, hne, Bool.false_and, Bool.false_or]

lemma hasBadEscape_append {x : Str} (h : '%' ∉ x) (u : JsText) :
    hasBadEscape (JsText.ofStr x ++ u) = hasBadEscape u := by
  induction x with
  | nil => rfl
  | cons c x ih =>
    rw [List.mem_cons, not_or] at h
    exact (hasBadEscape_cons (Ne.symm h.1) _).trans (ih h.2)

/-- An encoded text has no escape without digits. -/
lemma hasBadEscape_encoded (t : Str) (u : JsText) :
    hasBadEscape (JsText.ofStr (encoded t) ++ u) = hasBadEscape u := by
  have hdigit : ∀ n < 16, hexDigit n ≠ '%' ∧ (hexValue (hexDigit n)).isSome = true := by decide
  have hbytes : ∀ (bytes : List UInt8) (v : JsText),
      hasBadEscape (JsText.ofStr (bytes.flatMap escapeByte) ++ v) = hasBadEscape v := by
    intro bytes v
    induction bytes with
    | nil => rfl
    | cons b bytes ih =>
      have hb : b.toNat < 256 := b.toNat_lt
      obtain ⟨hhigh, hhigh'⟩ := hdigit (b.toNat / 16) (by omega)
      obtain ⟨hlow, hlow'⟩ := hdigit (b.toNat % 16) (by omega)
      change hasBadEscape (some '%' :: some (hexDigit (b.toNat / 16)) ::
        some (hexDigit (b.toNat % 16)) :: (JsText.ofStr (bytes.flatMap escapeByte) ++ v)) = _
      rw [hasBadEscape, hexAhead, hhigh', hlow', hasBadEscape_cons hhigh, hasBadEscape_cons hlow,
        ih]
      rfl
  induction t with
  | nil => rfl
  | cons c t ih =>
    have hcons : encoded (c :: t) = encodeChar c ++ encoded t := rfl
    rw [hcons, JsText.ofStr_append, List.append_assoc, encodeChar]
    split_ifs with hc
    · refine (hasBadEscape_cons ?_ _).trans ih
      rintro rfl
      exact absurd hc (by decide)
    · exact (hbytes _ _).trans ih

/-- The names and the values of a built link. -/
lemma searchParams_builtQuery (s b : Str) :
    searchParams (JsText.ofStr (builtQuery s b)) =
      [("subject".toList, s), ("body".toList, b)] := by
  have hfree : ∀ start t : Str, '&' ∉ start → '&' ∉ start ++ encoded t := by
    intro start t hstart hmem
    rcases List.mem_append.mp hmem with hmem | hmem
    · exact hstart hmem
    · exact absurd (isEncodedChar_of_mem hmem) (by decide)
  have hparts : ∀ x y : Str, '&' ∉ x → '&' ∉ y →
      List.splitOn '&' ((x ++ encoded s) ++ '&' :: (y ++ encoded b)) =
        [x ++ encoded s, y ++ encoded b] := by
    intro x y hx hy
    rw [List.splitOn_append_cons_self_of_not_mem (hfree x s hx),
      List.splitOn_eq_singleton (hfree y b hy)]
  have hsplit : List.splitOn '&' (builtQuery s b) =
      ["subject=".toList ++ encoded s, "body=".toList ++ encoded b] :=
    hparts "subject=".toList "body=".toList (by decide) (by decide)
  have hhead : ¬ (builtQuery s b).head? = some '?' := by
    change ¬ some 's' = some '?'
    decide
  have hname : ∀ name : Str, encoded name = name → formDecode name = name := by
    intro name hname
    have hdecode := formDecode_encoded name
    rwa [hname] at hdecode
  have hnames : encoded "subject".toList = "subject".toList ∧
      encoded "body".toList = "body".toList := by decide
  have hsubject : Str.partition '=' ("subject=".toList ++ encoded s) =
      ("subject".toList, encoded s) := by
    have hsign : '=' ∉ "subject".toList := by decide
    exact Str.partition_append_cons hsign (encoded s)
  have hbody : Str.partition '=' ("body=".toList ++ encoded b) = ("body".toList, encoded b) := by
    have hsign : '=' ∉ "body".toList := by decide
    exact Str.partition_append_cons hsign (encoded b)
  unfold searchParams
  dsimp only
  rw [JsText.toWellFormed_ofStr, if_neg hhead, hsplit]
  rw [List.filter_cons_of_pos (by simp), List.filter_cons_of_pos (by simp), List.filter_nil,
    List.map_cons, List.map_cons, List.map_nil, hsubject, hbody, hname _ hnames.1,
    hname _ hnames.2, formDecode_encoded, formDecode_encoded]

/-- The check of the query of a built link. -/
lemma queryAccepted_builtQuery (s b : Str) : queryAccepted (JsText.ofStr (builtQuery s b)) =
    (!hasControlCharacter (JsText.ofStr s) && !hasUnsafeMailtoBodyControl (JsText.ofStr b)) := by
  have hescape : hasBadEscape (JsText.ofStr (builtQuery s b)) = false := by
    have hparts : ∀ x y : Str, '%' ∉ x → '%' ∉ '&' :: y →
        hasBadEscape (JsText.ofStr ((x ++ encoded s) ++ '&' :: (y ++ encoded b))) = false := by
      intro x y hx hy
      have hsplit : JsText.ofStr ((x ++ encoded s) ++ '&' :: (y ++ encoded b)) = JsText.ofStr x ++
          (JsText.ofStr (encoded s) ++ (JsText.ofStr ('&' :: y) ++
            (JsText.ofStr (encoded b) ++ []))) := by
        simp only [JsText.ofStr, List.map_append, List.map_cons, List.append_assoc,
          List.cons_append, List.append_nil]
      rw [hsplit, hasBadEscape_append hx, hasBadEscape_encoded, hasBadEscape_append hy,
        hasBadEscape_encoded]
      rfl
    exact hparts "subject=".toList "body=".toList (by decide) (by decide)
  unfold queryAccepted
  rw [searchParams_builtQuery, hescape]
  rfl

/-- The characters of a built link. -/
lemma isMailChar_of_mem {s b : Str}
    (hdomain : ∀ c ∈ domain, c.isAlphanum = true ∨ c = '-' ∨ c = '.')
    (h : c ∈ builtLink mailbox domain s b) : isMailChar c = true := by
  have hencoded : ∀ t, c ∈ encoded t → isMailChar c = true := fun t hc => by
    rw [isMailChar, isEncodedChar_of_mem hc, Bool.true_or]
  have hmailto : ∀ c ∈ "mailto:".toList, isMailChar c = true := by decide
  have hsubject : ∀ c ∈ "subject=".toList, isMailChar c = true := by decide
  have hbody : ∀ c ∈ "body=".toList, isMailChar c = true := by decide
  have hsign : ∀ c ∈ ['@', '?', '&', '-', '.'], isMailChar c = true := by decide
  unfold builtLink builtQuery at h
  simp only [List.mem_append, List.mem_cons] at h
  rcases h with h | (h | h | h) | h | (h | h) | h | h | h
  · exact hmailto c h
  · exact hencoded _ h
  · exact hsign c (by simp [h])
  · rcases hdomain c h with h | h | h
    · rw [isMailChar, isEncodedChar, uriUnescaped, h]
      rfl
    · exact hsign c (by simp [h])
    · exact hsign c (by simp [h])
  · exact hsign c (by simp [h])
  · exact hsubject c h
  · exact hencoded _ h
  · exact hsign c (by simp [h])
  · exact hbody c h
  · exact hencoded _ h

/-- A string is cut at its first question mark. -/
lemma cut_ofStr {x y : Str} (h : '?' ∉ x) :
    (JsText.ofStr (x ++ '?' :: y)).takeWhile (· ≠ some '?') = JsText.ofStr x ∧
      (JsText.ofStr (x ++ '?' :: y)).dropWhile (· ≠ some '?') = some '?' :: JsText.ofStr y := by
  have hall : ∀ c ∈ JsText.ofStr x, decide (c ≠ some '?') = true := by
    intro c hc
    obtain ⟨d, hd, rfl⟩ := List.mem_map.mp hc
    rw [decide_eq_true_eq]
    rintro heq
    exact h (Option.some_inj.mp heq ▸ hd)
  rw [JsText.ofStr_append, List.takeWhile_append_of_pos hall, List.dropWhile_append_of_pos hall]
  exact ⟨List.append_nil _, rfl⟩

lemma drop_mailto (x : Str) :
    (JsText.ofStr ("mailto:".toList ++ x)).drop "mailto:".length = JsText.ofStr x := rfl

/-- The recipient and the query of a built link. -/
lemma payload_builtLink {s b : Str}
    (hdomain : ∀ c ∈ domain, c.isAlphanum = true ∨ c = '-' ∨ c = '.') :
    ((JsText.ofStr (builtLink mailbox domain s b)).drop "mailto:".length).takeWhile
        (· ≠ some '?') = JsText.ofStr (encoded mailbox ++ '@' :: domain) ∧
      mailtoQuery (JsText.ofStr (builtLink mailbox domain s b)) =
        some (JsText.ofStr (builtQuery s b)) := by
  have hmark : '?' ∉ encoded mailbox ++ '@' :: domain := by
    rw [List.mem_append, List.mem_cons]
    rintro (h | h | h)
    · exact absurd (isEncodedChar_of_mem h) (by decide)
    · exact absurd h (by decide)
    · rcases hdomain _ h with h | h | h <;> exact absurd h (by decide)
  obtain ⟨htake, hdrop⟩ := @cut_ofStr _ (builtQuery s b) hmark
  have hmem : some '?' ∈ JsText.ofStr ((encoded mailbox ++ '@' :: domain) ++
      '?' :: builtQuery s b) := by
    rw [JsText.ofStr_append]
    exact List.mem_append_right _ (List.mem_cons_self ..)
  unfold builtLink mailtoQuery
  rw [drop_mailto]
  refine ⟨htake, (if_pos hmem).trans ?_⟩
  rw [hdrop]
  rfl

/-- The recipient of a built link is decoded to the address. -/
lemma decodeURIComponent_recipient
    (hdomain : ∀ c ∈ domain, c.isAlphanum = true ∨ c = '-' ∨ c = '.') :
    decodeURIComponent (JsText.ofStr (encoded mailbox ++ '@' :: domain)) =
      some (JsText.ofStr (mailbox ++ '@' :: domain)) := by
  have hplain : some '%' ∉ JsText.ofStr ('@' :: domain) := by
    intro hmem
    obtain ⟨d, hd, heq⟩ := List.mem_map.mp hmem
    obtain rfl := Option.some_inj.mp heq
    rcases List.mem_cons.mp hd with h | h
    · exact absurd h (by decide)
    · rcases hdomain _ h with h | h | h <;> exact absurd h (by decide)
  rw [JsText.ofStr_append, decodeURIComponent_encoded, decodeURIComponent_of_notMem hplain,
    JsText.ofStr_append]
  rfl

/-- What the checker says of a built link is what it says of the query. -/
lemma safeActionUrl_builtLink (parseUrlText : JsText → Option (Str × JsText)) {s b : Str}
    (haccepted : recipientAccepted (mailbox ++ '@' :: domain) = true)
    (hdomain : ∀ c ∈ domain, c.isAlphanum = true ∨ c = '-' ∨ c = '.') :
    safeActionUrl parseUrlText (some (JsText.ofStr (builtLink mailbox domain s b))) true =
      if queryAccepted (JsText.ofStr (builtQuery s b)) then
        some (JsText.ofStr (builtLink mailbox domain s b)) else none := by
  obtain ⟨hrecipient, hquery⟩ := @payload_builtLink mailbox domain s b hdomain
  have hchars : ∀ c ∈ JsText.ofStr (builtLink mailbox domain s b), isControl c = false ∧
      isJsSpace c = false ∧ c ≠ some '#' := by
    intro c hc
    obtain ⟨d, hd, rfl⟩ := List.mem_map.mp hc
    obtain ⟨hcontrol, hspace, hmark⟩ := notMem_of_isMailChar (isMailChar_of_mem hdomain hd)
    exact ⟨hcontrol, hspace, fun heq => hmark (Option.some_inj.mp heq)⟩
  have htrim := jsTrim_eq_self fun c hc => (hchars c hc).2.1
  have hcontrol : hasControlCharacter (JsText.ofStr (builtLink mailbox domain s b)) = false :=
    List.any_eq_false.mpr fun c hc => by rw [(hchars c hc).1]; exact Bool.false_ne_true
  have hfragment : ¬ ((JsText.ofStr (builtLink mailbox domain s b)).drop "mailto:".length = [] ∨
      some '#' ∈ (JsText.ofStr (builtLink mailbox domain s b)).drop "mailto:".length) := by
    rintro (hempty | hmem)
    · rw [hempty] at hrecipient
      have hlength := congrArg List.length hrecipient
      simp [JsText.ofStr] at hlength
    · exact (hchars _ (List.mem_of_mem_drop hmem)).2.2 rfl
  have hexisting : safeExistingMailto (JsText.ofStr (builtLink mailbox domain s b)) =
      if queryAccepted (JsText.ofStr (builtQuery s b)) then
        some (JsText.ofStr (builtLink mailbox domain s b)) else none := by
    unfold safeExistingMailto
    rw [if_neg (by rw [hcontrol]; exact Bool.false_ne_true)]
    dsimp only
    rw [if_neg hfragment, hrecipient, decodeURIComponent_recipient hdomain, Option.bind_some,
      JsText.wellFormed?_ofStr, hquery]
    dsimp only
    rw [haccepted, Bool.true_and, Option.all_some]
  have hstart : JsText.ofStr (builtLink mailbox domain s b) ≠ [] ∧
      isHttpText (JsText.ofStr (builtLink mailbox domain s b)) = false ∧
        startsWithFold "mailto:" (JsText.ofStr (builtLink mailbox domain s b)) = true := by
    unfold builtLink
    exact ⟨List.cons_ne_nil _ _, rfl, rfl⟩
  unfold safeActionUrl
  dsimp only
  rw [htrim, if_neg (fun h => hstart.1 (h.elim id id)),
    if_neg (by rw [hstart.2.1]; exact Bool.false_ne_true), hstart.2.2, Bool.true_and, if_pos rfl,
    hexisting]

/-- **Built links.** Of the links that are built, those are accepted, with a subject free of control
characters, whose subject has no control character and whose body has none but line feeds.

**Proof sketch.** A built link has no white space, control character or fragment. Its recipient is
decoded to what it was and is accepted again, and its query to the subject and the body, of which
the checker asks what the builder does not. -/
theorem safeMailto_accepted_iff (parseUrlText : JsText → Option (Str × JsText))
    (recipient : Option JsText) (subject body url : JsText)
    (h : safeMailto recipient subject body = some url) :
    (safeActionUrl parseUrlText (some url) true = some url ∧
      ∃ decoded, mailtoSubject url = some decoded ∧
        hasControlCharacter (JsText.ofStr decoded) = false) ↔
      hasControlCharacter subject = false ∧ hasUnsafeMailtoBodyControl body = false := by
  obtain ⟨address, domain, s, b, haccepted, hsplit, hdomain, hsubject, hbody, rfl⟩ :=
    exists_of_safeMailto h
  rw [hsplit] at haccepted
  have hdecoded : mailtoSubject (JsText.ofStr (builtLink (localPart address) domain s b)) =
      some s := by
    rw [mailtoSubject, (payload_builtLink hdomain).2, Option.bind_some, searchParams_builtQuery]
    rfl
  rw [safeActionUrl_builtLink parseUrlText haccepted hdomain, hdecoded, queryAccepted_builtQuery,
    JsText.eq_ofStr_of_wellFormed? hsubject, JsText.eq_ofStr_of_wellFormed? hbody]
  simp only [Option.some_inj, exists_eq_left', Option.ite_none_right_eq_some, Bool.and_eq_true,
    Bool.not_eq_true', and_true]
  constructor
  · rintro ⟨⟨hcontrol, hunsafe⟩, -⟩
    exact ⟨hcontrol, hunsafe⟩
  · rintro ⟨hcontrol, hunsafe⟩
    exact ⟨⟨hcontrol, hunsafe⟩, hcontrol⟩

/-- A link whose subject has no control character is accepted. -/
theorem safeMailto_accepted_hello : safeActionUrl (fun _ => none)
      (some (.ofStr "mailto:ada@ex.org?subject=Hi%20%C3%A4&body=a%0Ab")) true =
        some (.ofStr "mailto:ada@ex.org?subject=Hi%20%C3%A4&body=a%0Ab") :=
  ((safeMailto_accepted_iff (fun _ => none) (some (JsText.ofStr "ada@ex.org"))
    (JsText.ofStr "Hi ä") (JsText.ofStr "a\nb")
    (JsText.ofStr "mailto:ada@ex.org?subject=Hi%20%C3%A4&body=a%0Ab")
    (by decide +kernel)).mpr (by decide +kernel)).1

/-- A link whose subject has a line end is built, and not accepted. -/
theorem safeMailto_injected : ¬ ∀ (parseUrlText : JsText → Option (Str × JsText))
    (recipient : Option JsText) (subject body url : JsText),
    safeMailto recipient subject body = some url →
      safeActionUrl parseUrlText (some url) true = some url ∧
        ∃ decoded, mailtoSubject url = some decoded ∧
          hasControlCharacter (JsText.ofStr decoded) = false := by
  intro h
  obtain ⟨haccepted, -⟩ := h (fun _ => none) (some (JsText.ofStr "ada@ex.org"))
    (JsText.ofStr "Hi\r\nBcc: eve@ex.org") (JsText.ofStr "a")
    (JsText.ofStr "mailto:ada@ex.org?subject=Hi%0D%0ABcc%3A%20eve%40ex.org&body=a")
    (by decide +kernel)
  exact absurd haccepted (by decide +kernel)

end Built

end VCBrain
