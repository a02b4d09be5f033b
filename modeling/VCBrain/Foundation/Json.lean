import Mathlib.Data.Char
import Mathlib.Data.List.Lex
import Mathlib.Data.List.Sort
import VCBrain.Foundation.Text

set_option relaxedAutoImplicit false
set_option autoImplicit false

/-!
# JSON values

The values `json.loads` returns and PostgreSQL keeps in a `JSONB` column, and the compact
text with sorted keys that `json.dumps(…, ensure_ascii=False, sort_keys=True,
separators=(",", ":"))` writes.

## Main definitions

* `Json` — a JSON value; a non-integral number is kept as the text Python prints for it.
* `Json.dumps` — the compact text with sorted keys.
* `Json.get?` — `dict.get` on an object.
* `Json.decEq` — equality is decidable.
-/

/-- A JSON value. -/
inductive Json where
  | null
  | bool (b : Bool)
  | int (n : ℤ)
  | float (repr : Str)
  | str (s : Str)
  | arr (items : List Json)
  | obj (fields : List (Str × Json))

namespace Json

/-- The escape of one character inside a JSON string. -/
def escapeChar (c : Char) : Str :=
  if c = '"' then "\\\""
  else if c = '\\' then "\\\\"
  else if c = '\n' then "\\n"
  else if c = '\r' then "\\r"
  else if c = '\t' then "\\t"
  else if c.toNat = 8 then "\\b"
  else if c.toNat = 12 then "\\f"
  else if c.toNat < 32 then "\\u" ++ Str.hex 4 c.toNat
  else [c]

/-- A JSON string literal. -/
def quote (s : Str) : Str := '"' :: s.flatMap escapeChar ++ ['"']

/-- Object fields by increasing key. -/
def sortFields (fields : List (Str × Str)) : List (Str × Str) :=
  fields.insertionSort fun a b => a.1 ≤ b.1

mutual

/-- The compact text of a value, object keys sorted. -/
def dumps : Json → Str
  | null => "null"
  | bool b => if b then "true" else "false"
  | int n => if n < 0 then '-' :: Str.decimal n.natAbs else Str.decimal n.natAbs
  | float r => r
  | str s => quote s
  | arr items => '[' :: List.intercalate [','] (dumpsItems items) ++ [']']
  | obj fields =>
    '{' :: List.intercalate [','] ((sortFields (dumpsFields fields)).map fun f =>
      quote f.1 ++ ':' :: f.2) ++ ['}']

/-- The texts of the items of an array. -/
def dumpsItems : List Json → List Str
  | [] => []
  | v :: vs => dumps v :: dumpsItems vs

/-- The texts of the fields of an object. -/
def dumpsFields : List (Str × Json) → List (Str × Str)
  | [] => []
  | (k, v) :: fs => (k, dumps v) :: dumpsFields fs

end

/-- `dict.get(key)`: the value of a key, `none` if it is absent or the value is no object. -/
def get? (key : Str) : Json → Option Json
  | obj fields => (fields.find? fun f => f.1 = key).map Prod.snd
  | _ => none

/-- `str(value)`, where `repr` is `repr` for the values that are no text. -/
def pyStr (repr : Json → Str) : Json → Str
  | str s => s
  | value => repr value

/-- The value is this string. -/
def isStr (s : Str) : Json → Bool
  | str t => t = s
  | _ => false

mutual

/-- Equality of values is decidable. -/
def decEq : ∀ v w : Json, Decidable (v = w)
  | null, null => .isTrue rfl
  | bool b, bool c => decidable_of_iff (b = c) (by simp)
  | int m, int n => decidable_of_iff (m = n) (by simp)
  | float r, float s => decidable_of_iff (r = s) (by simp)
  | str r, str s => decidable_of_iff (r = s) (by simp)
  | arr vs, arr ws =>
    have := decEqItems vs ws
    decidable_of_iff (vs = ws) (by simp)
  | obj fs, obj gs =>
    have := decEqFields fs gs
    decidable_of_iff (fs = gs) (by simp)
  | null, bool _ | null, int _ | null, float _ | null, str _ | null, arr _ | null, obj _
  | bool _, null | bool _, int _ | bool _, float _ | bool _, str _ | bool _, arr _ | bool _, obj _
  | int _, null | int _, bool _ | int _, float _ | int _, str _ | int _, arr _ | int _, obj _
  | float _, null | float _, bool _ | float _, int _ | float _, str _ | float _, arr _
  | float _, obj _ | str _, null | str _, bool _ | str _, int _ | str _, float _ | str _, arr _
  | str _, obj _ | arr _, null | arr _, bool _ | arr _, int _ | arr _, float _ | arr _, str _
  | arr _, obj _ | obj _, null | obj _, bool _ | obj _, int _ | obj _, float _ | obj _, str _
  | obj _, arr _ => .isFalse nofun

/-- Equality of the items of arrays is decidable. -/
def decEqItems : ∀ vs ws : List Json, Decidable (vs = ws)
  | [], [] => .isTrue rfl
  | [], _ :: _ | _ :: _, [] => .isFalse nofun
  | v :: vs, w :: ws =>
    have := decEq v w
    have := decEqItems vs ws
    decidable_of_iff (v = w ∧ vs = ws) (by simp)

/-- Equality of the fields of objects is decidable. -/
def decEqFields : ∀ fs gs : List (Str × Json), Decidable (fs = gs)
  | [], [] => .isTrue rfl
  | [], _ :: _ | _ :: _, [] => .isFalse nofun
  | (k, v) :: fs, (l, w) :: gs =>
    have := decEq v w
    have := decEqFields fs gs
    decidable_of_iff ((k = l ∧ v = w) ∧ fs = gs) (by simp)

end

instance : DecidableEq Json := decEq

end Json
