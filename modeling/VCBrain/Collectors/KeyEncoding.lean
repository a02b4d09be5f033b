import VCBrain.Collectors.PersistenceMigration
import VCBrain.Foundation.Frames

set_option relaxedAutoImplicit false
set_option autoImplicit false

/-!
# The encoding of natural keys

The parts of a key are converted to text, with the empty text for `None`, and each is written behind
its number of bytes and a colon. No text in a part can imitate the end of the part.

## Main definitions

* `partText` — the text of a part.
* `keyPayload` — the bytes that are digested for parts of any kind.

## Main results

* `keyPayload_eq_iff` — the bytes determine the texts of the parts.
-/

namespace VCBrain

/-- `"" if part is None else str(part)`. -/
def partText {α : Type} (str : α → Str) (part : Option α) : Str := (part.map str).getD []

/-- The bytes that `_fingerprint` digests, for parts with a `str`. -/
def keyPayload {α : Type} (str : α → Str) (parts : List (Option α)) : List UInt8 :=
  fingerprintPayload (parts.map (partText str))

/-- Different texts have different bytes. -/
lemma utf8_injective : Function.Injective utf8 := by
  intro s t h
  have hdecode : ∀ s : Str, (utf8 s).toByteArray.utf8Decode?.map Array.toList = some s := by
    intro s
    have hbytes : (utf8 s).toByteArray = s.utf8Encode := rfl
    rw [hbytes, List.utf8Decode?_utf8Encode, Option.map_some]
  have hsame := hdecode s
  rw [h, hdecode t] at hsame
  exact (Option.some.inj hsame).symm

/-- A numeral has no colon. -/
lemma colon_notMem_utf8_decimal (n : ℕ) : 58 ∉ utf8 (Str.decimal n) := by
  intro hmem
  obtain ⟨c, hc, hbyte⟩ := List.mem_flatMap.mp hmem
  have hdigit := Str.isDigit_of_mem_decimal hc
  rw [Char.isDigit, Bool.and_eq_true, decide_eq_true_eq, decide_eq_true_eq] at hdigit
  have hhigh : c.toNat < 58 := Nat.lt_succ_of_le (UInt32.le_iff_toNat_le.mp hdigit.2)
  have hkey : ∀ n < 58, 58 ∉ String.utf8EncodeChar (Char.ofNat n) := by decide
  rw [← Char.ofNat_toNat c] at hbyte
  exact hkey c.toNat hhigh hbyte

/-- An id has a text, and different ids have different ones. -/
lemma optionalId_injective : Function.Injective optionalId := by
  intro a b h
  have hne : ∀ id : Uuid, Uuid.str id ≠ [] := by
    intro id
    simp [Uuid.str]
  cases a with
  | none =>
    cases b with
    | none => rfl
    | some b => exact absurd h.symm (hne b)
  | some a =>
    cases b with
    | none => exact absurd h (hne a)
    | some b => exact congrArg some (Uuid.str_injective h)

/-- The bytes of a key are the frames of the bytes of its parts. -/
lemma fingerprintPayload_eq_frames (parts : List Str) :
    fingerprintPayload parts =
      (parts.map utf8).flatMap (frame (fun n => utf8 (Str.decimal n)) 58) := by
  rw [fingerprintPayload, List.flatMap_map]
  refine List.flatMap_congr fun part _ => ?_
  rw [frame, List.append_assoc]
  rfl

lemma fingerprintPayload_injective : Function.Injective fingerprintPayload := by
  intro parts parts' h
  rw [fingerprintPayload_eq_frames, fingerprintPayload_eq_frames] at h
  have hbytes := flatMap_frame_injective (utf8_injective.comp Str.decimal_injective)
    colon_notMem_utf8_decimal h
  exact List.map_injective_iff.mpr utf8_injective hbytes

/-- **Natural keys.** The bytes that are digested for the parts of a key are those of another one
exactly if the texts of the parts are, one by one; so an observation is told from every other one
that differs in a text of its key.

**Proof sketch.** The bytes of a part stand behind their number and a colon, and a numeral has no
colon. So the first part can be taken off, and the rest goes by induction. -/
theorem keyPayload_eq_iff : (∀ {α : Type} (str : α → Str) (parts parts' : List (Option α)),
      keyPayload str parts = keyPayload str parts' ↔
        parts.map (partText str) = parts'.map (partText str)) ∧
    ∀ (snapshotId snapshotId' : Uuid)
      (subjectId subjectId' opportunityId opportunityId' : Option Uuid)
      (predicate predicate' objectValue objectValue' extractorVersion extractorVersion' : Str)
      (sourceLocator sourceLocator' : Option Json),
      observationPayload snapshotId subjectId opportunityId predicate objectValue extractorVersion
          sourceLocator =
        observationPayload snapshotId' subjectId' opportunityId' predicate' objectValue'
          extractorVersion' sourceLocator' ↔
      snapshotId = snapshotId' ∧ subjectId = subjectId' ∧ opportunityId = opportunityId' ∧
        predicate = predicate' ∧ objectValue = objectValue' ∧
        extractorVersion = extractorVersion' ∧
        partText Json.dumps sourceLocator = partText Json.dumps sourceLocator' := by
  refine ⟨fun str parts parts' => fingerprintPayload_injective.eq_iff, ?_⟩
  intros
  rw [observationPayload, observationPayload, fingerprintPayload_injective.eq_iff]
  simp only [List.cons.injEq, and_true, Uuid.str_injective.eq_iff, optionalId_injective.eq_iff]
  rfl

end VCBrain
