import Mathlib.Data.List.Sort
import Mathlib.Data.Prod.Lex
import Mathlib.Logic.Embedding.Basic

set_option relaxedAutoImplicit false
set_option autoImplicit false

/-!
# Sorted sets

A sorted set keeps members with scores. The entries stand by increasing score, those of equal score
in a fixed order of the members; a member stands in one entry only. The order of the members is
given by their places in a linear order.

## Main definitions

* `SortedSet` — the entries in their order.
* `SortedSet.zadd`, `SortedSet.zpopmin`, `SortedSet.zrange` — the operations.

## Main results

* `SortedSet.ext_of_mem` — a sorted set is determined by the entries it has.
* `SortedSet.zrange_zero` — the range from the start is what a removal of that many entries returns.
* `SortedSet.foldl_zadd_of_perm` — entries that were removed can be added again in any order.
-/

variable {σ μ τ : Type*}

/-- The place of an entry: its score, then the place of its member. -/
def SortedSet.rank (tie : μ ↪ τ) (e : σ × μ) : σ ×ₗ τ := toLex (e.1, tie e.2)

lemma SortedSet.rank_injective (tie : μ ↪ τ) :
    Function.Injective (rank tie : σ × μ → σ ×ₗ τ) := by
  intro e f h
  have hpair := Prod.mk.inj (toLex.injective h)
  exact Prod.ext hpair.1 (tie.injective hpair.2)

variable [LinearOrder σ] [LinearOrder τ]

/-- Members with scores, by increasing score and no member twice. -/
structure SortedSet (σ : Type*) [LinearOrder σ] (tie : μ ↪ τ) where
  entries : List (σ × μ)
  sorted : entries.Pairwise fun e f => SortedSet.rank tie e < SortedSet.rank tie f
  nodup : (entries.map Prod.snd).Nodup

namespace SortedSet

variable {tie : μ ↪ τ}

/-- An entry with a smaller score has a smaller place. -/
lemma rank_lt_of_lt {e f : σ × μ} (h : e.1 < f.1) : rank tie e < rank tie f :=
  Prod.Lex.toLex_lt_toLex.mpr (Or.inl h)

/-- Places do not decrease with the scores. -/
lemma le_of_rank_le {e f : σ × μ} (h : rank tie e ≤ rank tie f) : e.1 ≤ f.1 := by
  rcases Prod.Lex.toLex_le_toLex.mp h with hlt | ⟨heq, -⟩
  · exact hlt.le
  · exact heq.le

/-- Two sorted sets with the same entries are equal. -/
lemma ext_of_mem {s t : SortedSet σ tie} (h : ∀ e, e ∈ s.entries ↔ e ∈ t.entries) : s = t := by
  have hs : s.entries.Nodup := s.nodup.of_map
  have ht : t.entries.Nodup := t.nodup.of_map
  have hperm : s.entries.Perm t.entries := (List.perm_ext_iff_of_nodup hs ht).mpr h
  have heq : s.entries = t.entries := hperm.eq_of_pairwise
    (fun e f _ _ hef hfe => absurd hef hfe.asymm) s.sorted t.sorted
  cases s; cases t; subst heq; rfl

/-- The sorted set without entries. -/
def empty : SortedSet σ tie := ⟨[], List.Pairwise.nil, List.nodup_nil⟩

/-- Entries in order and without repeated members are in strict order. -/
private lemma strict_of_pairwise {l : List (σ × μ)}
    (hle : l.Pairwise fun e f => rank tie e ≤ rank tie f) (hnodup : (l.map Prod.snd).Nodup) :
    l.Pairwise fun e f => rank tie e < rank tie f :=
  hle.imp₂ (fun _ _ hef hne => lt_of_le_of_ne hef fun h => hne (rank_injective tie h))
    hnodup.of_map

/-- A part of a sorted set that keeps its order. -/
def sublist (s : SortedSet σ tie) {l : List (σ × μ)} (h : l.Sublist s.entries) :
    SortedSet σ tie :=
  ⟨l, s.sorted.sublist h, s.nodup.sublist (h.map Prod.snd)⟩

/-! ## Adding -/

section

variable [DecidableEq μ]

/-- The entries of the other members, with a new entry in its place. -/
private def place (s : SortedSet σ tie) (score : σ) (member : μ) : List (σ × μ) :=
  (s.entries.filter fun e => e.2 ≠ member).orderedInsert
    (fun e f => rank tie e ≤ rank tie f) (score, member)

private lemma place_perm (s : SortedSet σ tie) (score : σ) (member : μ) :
    (s.place score member).Perm
      ((score, member) :: s.entries.filter fun e => e.2 ≠ member) :=
  List.perm_orderedInsert _ _ _

private lemma nodup_place (s : SortedSet σ tie) (score : σ) (member : μ) :
    ((s.place score member).map Prod.snd).Nodup := by
  rw [((s.place_perm score member).map Prod.snd).nodup_iff, List.map_cons, List.nodup_cons]
  refine ⟨fun hmem => ?_, s.nodup.sublist (List.filter_sublist.map Prod.snd)⟩
  obtain ⟨e, he, heq⟩ := List.mem_map.mp hmem
  exact (of_decide_eq_true (List.mem_filter.mp he).2) heq

private lemma sorted_place (s : SortedSet σ tie) (score : σ) (member : μ) :
    (s.place score member).Pairwise fun e f => rank tie e < rank tie f := by
  have htotal : Std.Total fun e f : σ × μ => rank tie e ≤ rank tie f :=
    ⟨fun e f => le_total (rank tie e) (rank tie f)⟩
  have htrans : IsTrans (σ × μ) fun e f => rank tie e ≤ rank tie f := ⟨fun _ _ _ => le_trans⟩
  have hothers : (s.entries.filter fun e => e.2 ≠ member).Pairwise
      fun e f => rank tie e ≤ rank tie f := (s.sorted.imp le_of_lt).filter _
  exact strict_of_pairwise (hothers.orderedInsert (score, member) _) (s.nodup_place score member)

/-- `ZADD`: give a member a score, a new one if it has one already. -/
def zadd (s : SortedSet σ tie) (score : σ) (member : μ) : SortedSet σ tie :=
  ⟨s.place score member, s.sorted_place score member, s.nodup_place score member⟩

lemma mem_zadd {s : SortedSet σ tie} {score : σ} {member : μ} {e : σ × μ} :
    e ∈ (s.zadd score member).entries ↔ e = (score, member) ∨ e ∈ s.entries ∧ e.2 ≠ member := by
  refine (s.place_perm score member).mem_iff.trans ?_
  simp [List.mem_cons, List.mem_filter]

/-- Entries of distinct members that are added are there, with the entries of all other members. -/
lemma mem_foldl_zadd {added : List (σ × μ)} (hnodup : (added.map Prod.snd).Nodup)
    {s : SortedSet σ tie} {e : σ × μ} :
    e ∈ (added.foldl (fun s f => s.zadd f.1 f.2) s).entries ↔
      e ∈ added ∨ e ∈ s.entries ∧ e.2 ∉ added.map Prod.snd := by
  induction added generalizing s with
  | nil => simp
  | cons a added ih =>
    rw [List.map_cons, List.nodup_cons] at hnodup
    rw [List.foldl_cons, ih hnodup.2, mem_zadd]
    constructor
    · rintro (hadded | ⟨rfl | ⟨hold, hne⟩, hnot⟩)
      · exact Or.inl (List.mem_cons_of_mem a hadded)
      · exact Or.inl (List.mem_cons_self ..)
      · exact Or.inr ⟨hold, by simpa using ⟨hne, by simpa using hnot⟩⟩
    · rintro (hadded | ⟨hold, hnot⟩)
      · rcases List.mem_cons.mp hadded with rfl | hmem
        · exact Or.inr ⟨Or.inl rfl, hnodup.1⟩
        · exact Or.inl hmem
      · rw [List.map_cons, List.mem_cons, not_or] at hnot
        exact Or.inr ⟨Or.inr ⟨hold, hnot.1⟩, hnot.2⟩

/-- **Adding again what was removed.** If a sorted set consists of the entries of another one and of
further ones, then these give the set when they are added to the other one, in any order. -/
theorem foldl_zadd_of_perm {s rest : SortedSet σ tie} {added : List (σ × μ)}
    (h : (added ++ rest.entries).Perm s.entries) :
    added.foldl (fun s f => s.zadd f.1 f.2) rest = s := by
  have hnodup : ((added ++ rest.entries).map Prod.snd).Nodup :=
    ((h.map Prod.snd).nodup_iff).mpr s.nodup
  rw [List.map_append, List.nodup_append] at hnodup
  refine ext_of_mem fun e => ?_
  rw [mem_foldl_zadd hnodup.1, ← h.mem_iff, List.mem_append]
  refine or_congr_right ⟨fun he => he.1, fun he => ⟨he, fun hmem => ?_⟩⟩
  exact hnodup.2.2 e.2 hmem e.2 (List.mem_map_of_mem he) rfl

end

/-! ## Removing and reading from the start -/

/-- `ZPOPMIN`: remove the entries with the smallest scores, at most so many. -/
def zpopmin (s : SortedSet σ tie) (count : ℕ) : List (σ × μ) × SortedSet σ tie :=
  (s.entries.take count, s.sublist (List.drop_sublist count s.entries))

@[simp] lemma zpopmin_fst (s : SortedSet σ tie) (count : ℕ) :
    (s.zpopmin count).1 = s.entries.take count := rfl

@[simp] lemma entries_zpopmin_snd (s : SortedSet σ tie) (count : ℕ) :
    (s.zpopmin count).2.entries = s.entries.drop count := rfl

/-- `ZRANGE`: the entries from one index to another, both included; a negative index counts from
the end. -/
def zrange (s : SortedSet σ tie) (start stop : ℤ) : List (σ × μ) :=
  let index := fun i : ℤ => if i < 0 then i + s.entries.length else i
  let first := (index start).toNat
  (s.entries.take (index stop + 1).toNat).drop first

/-- The range from the start to an index. -/
lemma zrange_zero (s : SortedSet σ tie) (stop : ℕ) :
    s.zrange 0 stop = (s.zpopmin (stop + 1)).1 := by
  have hstop : ¬(stop : ℤ) < 0 := by omega
  have hcount : ((stop : ℤ) + 1).toNat = stop + 1 := by omega
  simp [zrange, hstop, hcount]

end SortedSet
