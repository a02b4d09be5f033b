import VCBrain.Collectors.Persistence

set_option relaxedAutoImplicit false
set_option autoImplicit false

/-!
# The migration of the fingerprints

Migration 031 gives the rows that are stored already a fingerprint, the MD5 digest of a text that it
builds in SQL. The application digests bytes that it builds itself.

## Main definitions

* `lengthPrefixedSql` — the SQL encoding of one column.
* `snapshotKeySql`, `observationKeySql` — the texts that the migration digests.
* `fingerprintPayload`, `observationPayload` — the bytes that the application digests.

## Main results

* `snapshotKeySql_eq` — for snapshots both are the same.
* `observationPayload_eq`, `observationKeySql_ne` — for observations the application appends the
  encoding of a source locator that is absent.
-/

namespace VCBrain

/-! ## The application -/

/-- The bytes of `_fingerprint` before they are digested. -/
def fingerprintPayload (parts : List Str) : List UInt8 :=
  parts.flatMap fun part => utf8 (Str.decimal (utf8 part).length) ++ utf8 ":" ++ utf8 part

/-- `_fingerprint` digests these bytes. -/
lemma fingerprint_eq (md5 : List UInt8 → Str) (parts : List Str) :
    fingerprint md5 parts = md5 (fingerprintPayload parts) := rfl

/-- The bytes of `observation_persistence_fingerprint` before they are digested. -/
def observationPayload (snapshotId : Uuid) (subjectId opportunityId : Option Uuid)
    (predicate objectValue extractorVersion : Str) (sourceLocator : Option Json) : List UInt8 :=
  fingerprintPayload [snapshotId.str, optionalId subjectId, optionalId opportunityId, predicate,
    objectValue, extractorVersion, (sourceLocator.map Json.dumps).getD []]

/-- `observation_persistence_fingerprint` digests these bytes. -/
lemma observationPersistenceFingerprint_eq (md5 : List UInt8 → Str) (snapshotId : Uuid)
    (subjectId opportunityId : Option Uuid) (predicate objectValue extractorVersion : Str)
    (sourceLocator : Option Json) :
    observationPersistenceFingerprint md5 snapshotId subjectId opportunityId predicate objectValue
        extractorVersion sourceLocator =
      md5 (observationPayload snapshotId subjectId opportunityId predicate objectValue
        extractorVersion sourceLocator) := rfl

/-! ## The migration -/

/-- `_length_prefixed_sql`: a column that may be null, as its number of bytes, a colon and its
text. -/
def lengthPrefixedSql (column : Option Str) : Str :=
  let value := column.getD []
  Str.decimal (utf8 value).length ++ ':' :: value

/-- `snapshot_key`. -/
def snapshotKeySql (uri sourceType contentHash : Str) : Str :=
  [some uri, some sourceType, some contentHash].flatMap lengthPrefixedSql

/-- `observation_key`. -/
def observationKeySql (snapshotId : Uuid) (subjectId opportunityId : Option Uuid)
    (predicate objectValue extractorVersion : Str) : Str :=
  [some snapshotId.str, subjectId.map Uuid.str, opportunityId.map Uuid.str, some predicate,
    some objectValue, some extractorVersion].flatMap lengthPrefixedSql

/-! ## Comparison -/

lemma utf8_append (s t : Str) : utf8 (s ++ t) = utf8 s ++ utf8 t := List.flatMap_append ..

/-- The SQL encoding of a column is that of the application. -/
lemma utf8_lengthPrefixedSql (column : Option Str) :
    utf8 (lengthPrefixedSql column) = fingerprintPayload [column.getD []] := by
  have hcolon : ∀ value : Str, utf8 (':' :: value) = utf8 ":" ++ utf8 value := fun value => rfl
  rw [lengthPrefixedSql, utf8_append, hcolon, fingerprintPayload, List.flatMap_singleton,
    List.append_assoc]

/-- The same for several columns. -/
lemma utf8_flatMap_lengthPrefixedSql (columns : List (Option Str)) :
    utf8 (columns.flatMap lengthPrefixedSql) =
      fingerprintPayload (columns.map fun column => column.getD []) := by
  induction columns with
  | nil => rfl
  | cons column columns ih =>
    rw [List.flatMap_cons, utf8_append, utf8_lengthPrefixedSql, ih]
    simp [fingerprintPayload]

/-- The migration and the application digest the same text for a snapshot. -/
theorem snapshotKeySql_eq (uri sourceType contentHash : Str) :
    utf8 (snapshotKeySql uri sourceType contentHash) =
      fingerprintPayload [uri, sourceType, contentHash] :=
  utf8_flatMap_lengthPrefixedSql _

section Observations

variable (snapshotId : Uuid) (subjectId opportunityId : Option Uuid)
  (predicate objectValue extractorVersion : Str)

/-- **What the application adds.** For an observation without a source locator the application
digests the text of the migration followed by an empty part. -/
theorem observationPayload_eq :
    observationPayload snapshotId subjectId opportunityId predicate objectValue extractorVersion
        none =
      utf8 (observationKeySql snapshotId subjectId opportunityId predicate objectValue
        extractorVersion) ++ utf8 "0:" := by
  have hlocator : fingerprintPayload [[]] = utf8 "0:" := by decide
  rw [observationKeySql, utf8_flatMap_lengthPrefixedSql, ← hlocator]
  simp only [observationPayload, fingerprintPayload, ← List.flatMap_append]
  rfl

/-- **The keys differ.** The text that the migration digests for an observation is never the one
that the application digests for the same columns. -/
theorem observationKeySql_ne :
    utf8 (observationKeySql snapshotId subjectId opportunityId predicate objectValue
        extractorVersion) ≠
      observationPayload snapshotId subjectId opportunityId predicate objectValue extractorVersion
        none := by
  intro h
  have hlength := congrArg List.length h
  rw [observationPayload_eq, List.length_append] at hlength
  have hpos : (utf8 "0:").length = 2 := by decide
  omega

end Observations

/-- The keys of an observation without subject and opportunity. -/
theorem observationKeySql_ne_github :
    utf8 (observationKeySql 1 none none "github_login" "ada" "github-v1") ≠
      observationPayload 1 none none "github_login" "ada" "github-v1" none := by
  decide +kernel

end VCBrain
