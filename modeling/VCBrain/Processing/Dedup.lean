import Mathlib.Data.Rat.Lemmas
import VCBrain.Db.Models
import VCBrain.Foundation.GroupBy
import VCBrain.Foundation.Leaders
import VCBrain.Foundation.OrderBy
import VCBrain.Foundation.UuidText

set_option relaxedAutoImplicit false
set_option autoImplicit false

/-!
# Deduplication of claims

`deduplicate_claims` visits the current claims of a person from the newest on. A claim supersedes
the later ones of its predicate and opportunity whose embedding is similar to its own.

## Main definitions

* `Floats` — the arithmetic on embeddings; `cosineSimilarity`.
* `deduplicateClaims` — one pass for a person.
* `Duplicate` — the relation by which claims supersede.

## Main results

* `cosineSimilarity_comm` — similarity is symmetric.
* `deduplicateClaims_eq_some` — a pass closes the absorbed claims in favour of their leaders.

## Design

The numbers are of any type with the operations that the code uses, of which only the commutativity
of the product is known. An embedding is a column of `observations` that is given as a function. The
database may return claims of one `created_at` in any order, which is a number for each of them.
-/

namespace VCBrain

/-! ## Similarity -/

/-- The operations on floating-point numbers that similarity uses. -/
structure Floats (F : Type) where
  zero : F
  mul : F → F → F
  div : F → F → F
  /-- `sum(xs)`. -/
  sum : List F → F
  /-- `x ** 0.5`. -/
  root : F → F
  /-- `x == 0`. -/
  isZero : F → Bool
  /-- `_DUPLICATE_THRESHOLD`, which is `0.92`. -/
  duplicateThreshold : F
  le : F → F → Bool
  mul_comm : ∀ x y, mul x y = mul y x

/-- Rational numbers, whose root is exact on squares. -/
def rationalFloats : Floats ℚ where
  zero := 0
  mul := (· * ·)
  div := (· / ·)
  sum := List.sum
  root x := Nat.sqrt x.num.toNat / Nat.sqrt x.den
  isZero x := x = 0
  duplicateThreshold := 23 / 25
  le x y := x ≤ y
  mul_comm := mul_comm

section Floats

variable {F : Type} (fl : Floats F)

/-- `_cosine_similarity`. -/
def cosineSimilarity (a b : List F) : F :=
  if a = [] ∨ b = [] ∨ a.length ≠ b.length then fl.zero
  else
    let dot := fl.sum (List.zipWith fl.mul a b)
    let normA := fl.root (fl.sum (a.map fun x => fl.mul x x))
    let normB := fl.root (fl.sum (b.map fun y => fl.mul y y))
    if fl.isZero normA ∨ fl.isZero normB then fl.zero else fl.div dot (fl.mul normA normB)

/-- Similarity is symmetric. -/
lemma cosineSimilarity_comm (a b : List F) : cosineSimilarity fl a b = cosineSimilarity fl b a := by
  have hcase : (a = [] ∨ b = [] ∨ a.length ≠ b.length) ↔
      (b = [] ∨ a = [] ∨ b.length ≠ a.length) := by
    rw [or_left_comm, ne_comm]
  have hdot : List.zipWith fl.mul a b = List.zipWith fl.mul b a := by
    rw [List.zipWith_comm]
    congr 1
    funext x y
    exact fl.mul_comm y x
  unfold cosineSimilarity
  simp only [hcase, hdot, fl.mul_comm (fl.root (fl.sum (a.map fun x => fl.mul x x))),
    or_comm (a := fl.isZero (fl.root (fl.sum (a.map fun x => fl.mul x x))) = true)]

/-! ## One pass -/

variable (embedding : Uuid → Option (List F)) (tie : Uuid → ℕ) (personId : Uuid)

/-- The embedding of the first observation behind a claim; an identifier that is no UUID is an
error. -/
def claimEmbedding (db : Db) (claim : Claim) : Option (Option (List F)) :=
  match claim.observationIds with
  | [] => some none
  | obsId :: _ => (Uuid.parse obsId).map fun id =>
    (db.observations.find? fun obs => obs.id = id).bind fun obs => embedding obs.id

/-- The current claims of the person, the newest first. -/
def currentClaims (db : Db) : List Claim :=
  orderBy (fun claim : Claim => toLex (-claim.createdAt, tie claim.id))
    (db.claims.filter fun claim => claim.subjectId = some personId ∧ claim.supersessionId = none)

/-- The conditions of the loops under which a claim supersedes a later one. -/
def Duplicate (embeddings : Claim → Option (List F)) (a b : Claim) : Bool :=
  match embeddings a, embeddings b with
  | some embA, some embB =>
    embA ≠ [] && b.predicate = a.predicate && b.opportunityId = a.opportunityId && embB ≠ [] &&
      fl.le fl.duplicateThreshold (cosineSimilarity fl embA embB)
  | _, _ => false

/-- A claim that is superseded by a newer one. -/
def Claim.supersededBy (claim replacement : Claim) : Claim :=
  { claim with
    supersessionId := some replacement.id
    validTimeEnd := some replacement.validTimeStart }

/-- The table, where the marked claims are superseded. -/
def supersede (superseded : List (Uuid × Claim)) (rows : List Claim) : List Claim :=
  rows.map fun claim => (superseded.lookup claim.id).elim claim claim.supersededBy

/-- `deduplicate_claims`: the database after the pass and the number of claims superseded. -/
def deduplicateClaims (db : Db) : Option (Db × ℕ) :=
  let claims := currentClaims tie personId db
  if claims.length < 2 then some (db, 0)
  else do
    let claimEmbeddings ← claims.mapM fun claim =>
      (claimEmbedding embedding db claim).map fun emb => (claim.id, emb)
    let superseded := Leaders.sweep
      (Duplicate fl fun claim => (claimEmbeddings.lookup claim.id).join) Claim.id claims []
    return ({ db with claims := supersede superseded db.claims }, superseded.length)

/-! ## The effect of a pass -/

/-- The embedding of a claim, if there is one. -/
def embeddingOf (db : Db) (claim : Claim) : Option (List F) :=
  (claimEmbedding embedding db claim).join

/-- The claims that a pass supersedes, with their replacements. -/
def superseded (db : Db) : List (Claim × Claim) :=
  Leaders.absorbed (Duplicate fl (embeddingOf embedding db)) (currentClaims tie personId db)

variable {fl embedding tie personId} {db : Db} {a b claim : Claim}

/-- Whether claims are duplicates does not depend on their order. -/
lemma duplicate_comm (embeddings : Claim → Option (List F)) (a b : Claim) :
    Duplicate fl embeddings a b = Duplicate fl embeddings b a := by
  unfold Duplicate
  cases embeddings a <;> cases embeddings b
  · rfl
  · rfl
  · rfl
  · next embA embB =>
    simp only [cosineSimilarity_comm fl embA embB, eq_comm (a := b.predicate),
      eq_comm (a := b.opportunityId)]
    rw [Bool.eq_iff_iff]
    simp only [Bool.and_eq_true]
    tauto

/-- Duplicates are of one predicate and opportunity. -/
lemma Duplicate.same {embeddings : Claim → Option (List F)}
    (h : Duplicate fl embeddings a b = true) :
    b.predicate = a.predicate ∧ b.opportunityId = a.opportunityId := by
  unfold Duplicate at h
  split at h
  · simp only [Bool.and_eq_true, decide_eq_true_eq] at h
    exact ⟨h.1.1.1.2, h.1.1.2⟩
  · cases h

@[simp] lemma mem_currentClaims :
    claim ∈ currentClaims tie personId db ↔
      claim ∈ db.claims ∧ claim.subjectId = some personId ∧ claim.supersessionId = none := by
  simp [currentClaims]

lemma nodup_currentClaims (tie : Uuid → ℕ) (personId : Uuid)
    (hids : KeyUnique Claim.id db.claims) :
    ((currentClaims tie personId db).map Claim.id).Nodup := by
  rw [currentClaims, ((perm_orderBy _ _).map Claim.id).nodup_iff]
  exact hids.sublist (List.filter_sublist.map _)

/-- A claim is superseded by a current one of the same person, predicate and opportunity that is
not superseded itself. -/
lemma of_mem_superseded (hids : KeyUnique Claim.id db.claims)
    (h : (b, a) ∈ superseded fl embedding tie personId db) :
    a ∈ currentClaims tie personId db ∧ b ∈ currentClaims tie personId db ∧
      b.predicate = a.predicate ∧ b.opportunityId = a.opportunityId ∧
      ∀ c, (a, c) ∉ superseded fl embedding tie personId db := by
  have hnodup := (nodup_currentClaims tie personId hids).of_map
  have hmem := Leaders.mem_of_mem_absorbed h
  have hsame := Duplicate.same (Leaders.pair_of_mem_absorbed h).2
  exact ⟨hmem.1, hmem.2, hsame.1, hsame.2, Leaders.leader_not_absorbed hnodup h⟩

/-- The loops over the claims mark those that are superseded. -/
lemma superseded_eq (fl : Floats F) (hids : KeyUnique Claim.id db.claims)
    {claimEmbeddings : List (Uuid × Option (List F))}
    (h : ((currentClaims tie personId db).mapM fun claim =>
      (claimEmbedding embedding db claim).map fun emb => (claim.id, emb)) = some claimEmbeddings) :
    Leaders.absorbed (Duplicate fl fun claim => (claimEmbeddings.lookup claim.id).join)
      (currentClaims tie personId db) = superseded fl embedding tie personId db := by
  have hlookup : ∀ a ∈ currentClaims tie personId db,
      (claimEmbeddings.lookup a.id).join = embeddingOf embedding db a := fun a ha => by
    rw [lookup_of_mapM (nodup_currentClaims tie personId hids) h ha, embeddingOf]
  refine Leaders.absorbed_congr fun a ha b hb => ?_
  unfold Duplicate
  dsimp only
  rw [hlookup a ha, hlookup b hb]

/-- **A pass** closes the claims that are superseded in favour of their replacements, and leaves the
others as they are. -/
theorem deduplicateClaims_eq_some (hids : KeyUnique Claim.id db.claims) {db' : Db} {count : ℕ}
    (h : deduplicateClaims fl embedding tie personId db = some (db', count)) :
    ∃ update : Claim → Claim, db' = { db with claims := db.claims.map update } ∧
      (∀ a b, (b, a) ∈ superseded fl embedding tie personId db → update b = b.supersededBy a) ∧
      ∀ b ∈ db.claims, update b = b ∨
        ∃ a, (b, a) ∈ superseded fl embedding tie personId db ∧ update b = b.supersededBy a := by
  unfold deduplicateClaims at h
  dsimp only at h
  split_ifs at h with hfew
  · obtain ⟨rfl, -⟩ := Prod.mk.inj (Option.some.inj h)
    have hnone : superseded fl embedding tie personId db = [] := Leaders.absorbed_of_length_lt hfew
    refine ⟨id, by rw [List.map_id], fun a b hmem => ?_, fun b _ => Or.inl rfl⟩
    rw [hnone] at hmem
    cases hmem
  · obtain ⟨claimEmbeddings, hembeddings, h⟩ := Option.bind_eq_some_iff.mp h
    obtain ⟨rfl, -⟩ := Prod.mk.inj (Option.some.inj h)
    have hkeys := nodup_currentClaims tie personId hids
    have hsuperseded := superseded_eq fl hids hembeddings
    refine ⟨_, rfl, fun a b hmem => ?_, fun b hb => ?_⟩
    · rw [← hsuperseded] at hmem
      have hlookup := (Leaders.lookup_sweep hkeys (Leaders.mem_of_mem_absorbed hmem).2).mpr hmem
      rw [hlookup, Option.elim_some]
    · cases hlookup : (Leaders.sweep (Duplicate fl fun claim =>
          (claimEmbeddings.lookup claim.id).join) Claim.id (currentClaims tie personId db) []).lookup
          b.id with
      | none => exact Or.inl rfl
      | some a =>
        obtain ⟨c, hc, hid⟩ := Leaders.mem_of_lookup_sweep hkeys hlookup
        obtain rfl := hids.eq_of_id_eq (mem_currentClaims.mp hc).1 hb hid
        refine Or.inr ⟨a, ?_, rfl⟩
        rw [← hsuperseded]
        exact (Leaders.lookup_sweep hkeys hc).mp hlookup

/-- A pass keeps the ids of claims distinct. -/
lemma keyUnique_deduplicated (hids : KeyUnique Claim.id db.claims) {db' : Db} {count : ℕ}
    (h : deduplicateClaims fl embedding tie personId db = some (db', count)) :
    KeyUnique Claim.id db'.claims := by
  obtain ⟨update, rfl, -, hupdate⟩ := deduplicateClaims_eq_some hids h
  have hsame : (db.claims.map update).map Claim.id = db.claims.map Claim.id := by
    rw [List.map_map]
    refine List.map_congr_left fun claim hc => ?_
    rcases hupdate claim hc with heq | ⟨a, -, heq⟩
    · rw [Function.comp_apply, heq]
    · rw [Function.comp_apply, heq]
      rfl
  rw [KeyUnique, hsame]
  exact hids

/-- A pass reads the embedding of every current claim, unless there are fewer than two. -/
lemma exists_claimEmbedding {db' : Db} {count : ℕ}
    (h : deduplicateClaims fl embedding tie personId db = some (db', count)) :
    (currentClaims tie personId db).length < 2 ∨
      ∀ claim ∈ currentClaims tie personId db,
        ∃ emb, claimEmbedding embedding db claim = some emb := by
  unfold deduplicateClaims at h
  dsimp only at h
  split_ifs at h with hfew
  · exact Or.inl hfew
  · obtain ⟨claimEmbeddings, hembeddings, -⟩ := Option.bind_eq_some_iff.mp h
    refine Or.inr fun claim hc => ?_
    obtain ⟨pair, -, hpair⟩ := exists_of_mapM_eq_some hembeddings hc
    obtain ⟨emb, hemb, -⟩ := Option.map_eq_some_iff.mp hpair
    exact ⟨emb, hemb⟩

/-- A pass over claims none of which is superseded changes nothing. -/
lemma deduplicateClaims_of_superseded (hids : KeyUnique Claim.id db.claims)
    (hembedding : (currentClaims tie personId db).length < 2 ∨
      ∀ claim ∈ currentClaims tie personId db, ∃ emb, claimEmbedding embedding db claim = some emb)
    (h : superseded fl embedding tie personId db = []) :
    deduplicateClaims fl embedding tie personId db = some (db, 0) := by
  unfold deduplicateClaims
  dsimp only
  split_ifs with hfew
  · rfl
  · have hresults : ∀ claim ∈ currentClaims tie personId db, ∃ pair,
        ((claimEmbedding embedding db claim).map fun emb => (claim.id, emb)) = some pair := by
      intro claim hc
      obtain ⟨emb, hemb⟩ := (hembedding.resolve_left hfew) claim hc
      exact ⟨(claim.id, emb), by rw [hemb, Option.map_some]⟩
    obtain ⟨claimEmbeddings, hembeddings⟩ := exists_mapM_eq_some hresults
    have hmarks : Leaders.sweep (Duplicate fl fun claim => (claimEmbeddings.lookup claim.id).join)
        Claim.id (currentClaims tie personId db) [] = [] := by
      rw [Leaders.sweep_eq (nodup_currentClaims tie personId hids),
        superseded_eq fl hids hembeddings, h, List.map_nil]
    have hsame : supersede [] db.claims = db.claims := List.map_id _
    rw [hembeddings]
    show some ({ db with claims := supersede (Leaders.sweep _ Claim.id _ []) db.claims }, _) = _
    rw [hmarks, hsame, List.length_nil]

end Floats

end VCBrain
