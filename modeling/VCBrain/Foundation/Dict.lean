import Mathlib.Algebra.BigOperators.Group.List.Basic
import Mathlib.Data.List.Nodup
import VCBrain.Foundation.Text

set_option relaxedAutoImplicit false
set_option autoImplicit false

/-!
# Dictionaries

A Python `dict` with string keys: its items in insertion order, no key twice.

## Main definitions

* `Dict` — the dictionary, with the absence of repeated keys as a field.
* `Dict.get?`, `Dict.setDefault` — lookup, and insertion of a key that is absent.
* `Dict.set`, `Dict.ofPairs`, `Dict.union`, `Dict.mapValues` — assignment, and what is built with
  it.

## Main results

* `Dict.get?_set`, `Dict.get?_mapValues` — what is found afterwards.
* `Dict.sum_eq_sum_get?_add` — a sum over the values, with those of some keys taken out.
-/

/-- What a lookup finds is in the list. -/
lemma mem_of_lookup_eq_some {κ β : Type*} [BEq κ] [LawfulBEq κ] {l : List (κ × β)} {k : κ}
    {b : β} (h : l.lookup k = some b) : (k, b) ∈ l := by
  obtain ⟨l₁, l₂, rfl, -⟩ := List.lookup_eq_some_iff.mp h
  simp

/-- Where no key is repeated, a lookup finds every pair of the list. -/
lemma lookup_eq_some_iff_mem {κ β : Type*} [BEq κ] [LawfulBEq κ] {l : List (κ × β)}
    (hnodup : (l.map Prod.fst).Nodup) {k : κ} {b : β} : l.lookup k = some b ↔ (k, b) ∈ l := by
  refine ⟨mem_of_lookup_eq_some, fun h => ?_⟩
  cases hlookup : l.lookup k with
  | none => exact absurd (List.lookup_eq_none_iff.mp hlookup _ h) (by simp)
  | some c =>
    have heq := List.inj_on_of_nodup_map hnodup (mem_of_lookup_eq_some hlookup) h rfl
    rw [(Prod.mk.inj heq).2]

/-- A lookup in a list of pairs whose second components were changed. -/
lemma lookup_map_snd {κ β γ : Type*} [BEq κ] [LawfulBEq κ] {l : List (κ × β)} (f : κ → β → γ)
    {k : κ} : (l.map fun p => (p.1, f p.1 p.2)).lookup k = (l.lookup k).map (f k) := by
  induction l with
  | nil => rfl
  | cons p l ih =>
    rw [List.map_cons, List.lookup_cons, List.lookup_cons, ih]
    cases hkey : k == p.1 with
    | false => rfl
    | true =>
      rw [eq_of_beq hkey]
      rfl

/-- A lookup among the pairs of some keys. -/
lemma lookup_filter {κ β : Type*} [BEq κ] [LawfulBEq κ] {l : List (κ × β)} (q : κ → Bool) {k : κ}
    (hk : q k = true) : (l.filter fun p => q p.1).lookup k = l.lookup k := by
  induction l with
  | nil => rfl
  | cons p l ih =>
    rw [List.filter_cons, List.lookup_cons]
    by_cases hkey : k = p.1
    · rw [if_pos (hkey ▸ hk), List.lookup_cons, hkey, beq_self_eq_true]
    · rw [beq_false_of_ne hkey]
      split_ifs
      · rw [List.lookup_cons, beq_false_of_ne hkey, ih]
      · exact ih

/-- A sum over pairs without repeated keys, with the pair of one key taken out. -/
lemma sum_eq_lookup_add {κ β M : Type*} [BEq κ] [LawfulBEq κ] [DecidableEq κ] [AddCommMonoid M]
    {l : List (κ × β)} (hnodup : (l.map Prod.fst).Nodup) (f : β → M) (k : κ) :
    (l.map fun p => f p.2).sum =
      ((l.lookup k).map f).getD 0 + ((l.filter fun p => p.1 ≠ k).map fun p => f p.2).sum := by
  induction l with
  | nil => simp
  | cons p l ih =>
    obtain ⟨key, b⟩ := p
    rw [List.map_cons, List.nodup_cons] at hnodup
    by_cases hkey : key = k
    · subst hkey
      have hrest : l.filter (fun p => p.1 ≠ key) = l := by
        refine List.filter_eq_self.mpr fun p hp => decide_eq_true fun heq => hnodup.1 ?_
        exact List.mem_map.mpr ⟨p, hp, heq⟩
      rw [List.filter_cons_of_neg (by simp), hrest]
      simp
    · have hbeq : (k == key) = false := by simpa using Ne.symm hkey
      rw [List.filter_cons_of_pos (by simpa using hkey), List.map_cons, List.map_cons,
        List.sum_cons, List.sum_cons, List.lookup_cons, hbeq, ih hnodup.2]
      exact add_left_comm _ _ _

/-- A dictionary with string keys, in insertion order. -/
@[ext]
structure Dict (β : Type*) where
  items : List (Str × β)
  nodup : (items.map Prod.fst).Nodup
deriving DecidableEq

namespace Dict

variable {β : Type*}

/-- The empty dictionary. -/
def empty : Dict β := ⟨[], List.nodup_nil⟩

/-- `d.get(key)`. -/
def get? (d : Dict β) (key : Str) : Option β := d.items.lookup key

/-- `d.setdefault(key, value)`: a key that is present keeps its value. -/
def setDefault (d : Dict β) (key : Str) (value : β) : Dict β :=
  if h : key ∈ d.items.map Prod.fst then d
  else ⟨d.items ++ [(key, value)], by simpa using List.Nodup.concat h d.nodup⟩

/-- `d[key] = value`: a key that is present keeps its place. -/
def set (d : Dict β) (key : Str) (value : β) : Dict β :=
  if h : key ∈ d.items.map Prod.fst then
    ⟨d.items.map fun item => (item.1, if item.1 = key then value else item.2), by
      simpa [Function.comp_def] using d.nodup⟩
  else ⟨d.items ++ [(key, value)], by simpa using List.Nodup.concat h d.nodup⟩

/-- The assignments one after another. -/
def setAll (d : Dict β) (pairs : List (Str × β)) : Dict β :=
  pairs.foldl (fun d pair => d.set pair.1 pair.2) d

/-- `{key: value for …}`: the last value of a key counts. -/
def ofPairs (pairs : List (Str × β)) : Dict β := empty.setAll pairs

/-- `{**d, **e}`. -/
def union (d e : Dict β) : Dict β := d.setAll e.items

/-- `d.values()`. -/
def values (d : Dict β) : List β := d.items.map Prod.snd

/-- `{key: f(value) for key, value in d.items()}`. -/
def mapValues {γ : Type*} (f : β → γ) (d : Dict β) : Dict γ :=
  ⟨d.items.map fun item => (item.1, f item.2), by simpa [Function.comp_def] using d.nodup⟩

section Lookup

variable {d : Dict β} {key key' : Str} {value : β}

/-- What is found is an item. -/
lemma get?_eq_some_iff : d.get? key = some value ↔ (key, value) ∈ d.items :=
  lookup_eq_some_iff_mem d.nodup

/-- The items that a function keeps, found by their keys. -/
lemma filterMap_items {γ : Type*} (f : Str → β → Option γ) :
    d.items.filterMap (fun item => f item.1 item.2) =
      (d.items.map Prod.fst).filterMap fun key => (d.get? key).bind (f key) := by
  rw [List.filterMap_map]
  refine List.filterMap_congr fun item hitem => ?_
  rw [Function.comp_apply, get?_eq_some_iff.mpr hitem, Option.bind_some]

/-- What is found after an assignment. -/
lemma get?_set : (d.set key value).get? key' = if key' = key then some value else d.get? key' := by
  by_cases hmem : key ∈ d.items.map Prod.fst
  · have hget : (d.set key value).get? key' =
        (d.items.map fun item => (item.1, if item.1 = key then value else item.2)).lookup key' := by
      rw [set, dif_pos hmem, get?]
    rw [hget, lookup_map_snd fun k b => if k = key then value else b]
    split_ifs with heq
    · obtain ⟨⟨k, b⟩, hitem, rfl⟩ := List.mem_map.mp hmem
      rw [heq, (lookup_eq_some_iff_mem d.nodup).mpr hitem, Option.map_some]
    · exact Option.map_id'
  · have hget : (d.set key value).get? key' = (d.items ++ [(key, value)]).lookup key' := by
      rw [set, dif_neg hmem, get?]
    rw [hget, List.lookup_append]
    split_ifs with heq
    · have hnone : d.items.lookup key' = none := by
        refine List.lookup_eq_none_iff.mpr fun p hp => bne_iff_ne.mpr fun h => hmem ?_
        exact List.mem_map.mpr ⟨p, hp, h.symm.trans heq⟩
      rw [hnone, heq, Option.none_or, List.lookup_cons, beq_self_eq_true]
    · rw [List.lookup_cons, beq_false_of_ne heq, List.lookup_nil, Option.or_none]
      rfl

/-- What is found after a function was applied to the values. -/
lemma get?_mapValues {γ : Type*} (f : β → γ) : (d.mapValues f).get? key = (d.get? key).map f := by
  rw [get?, mapValues, lookup_map_snd fun _ b => f b]
  rfl

/-- Assignments keep the keys. -/
lemma isSome_get?_setAll (pairs : List (Str × β)) (h : (d.get? key).isSome) :
    ((d.setAll pairs).get? key).isSome := by
  induction pairs generalizing d with
  | nil => exact h
  | cons pair pairs ih =>
    refine ih ?_
    rw [get?_set]
    split_ifs
    · rfl
    · exact h

/-- A sum over the values, with the values of some keys taken out. -/
lemma sum_eq_sum_get?_add {M : Type*} [AddCommMonoid M] (f : β → M) {keys : List Str}
    (hkeys : keys.Nodup) :
    (d.values.map f).sum = (keys.map fun key => ((d.get? key).map f).getD 0).sum +
      ((d.items.filter fun p => p.1 ∉ keys).map fun p => f p.2).sum := by
  induction keys with
  | nil => simp [values, Function.comp_def]
  | cons key keys ih =>
    rw [List.nodup_cons] at hkeys
    have hnodup : ((d.items.filter fun p => p.1 ∉ keys).map Prod.fst).Nodup :=
      d.nodup.sublist (List.filter_sublist.map Prod.fst)
    have hlookup : (d.items.filter fun p => p.1 ∉ keys).lookup key = d.get? key :=
      lookup_filter (fun k => decide (k ∉ keys)) (decide_eq_true hkeys.1)
    rw [ih hkeys.2, sum_eq_lookup_add hnodup f key, hlookup, List.filter_filter, List.map_cons,
      List.sum_cons, add_assoc, add_left_comm]
    simp only [List.mem_cons, not_or, ne_eq, Bool.decide_and]

end Lookup

end Dict
