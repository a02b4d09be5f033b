import VCBrain.Db.Models

set_option relaxedAutoImplicit false
set_option autoImplicit false

/-!
# Fingerprints of persisted rows

The deduplication keys of `collectors/persistence.py`: a digest of the length-prefixed UTF-8
text of the parts. The digest itself is a parameter.

## Main definitions

* `observationPersistenceFingerprint` — the key of one extraction output.
-/

namespace VCBrain

/-- The UTF-8 bytes of a text. -/
def utf8 (s : Str) : List UInt8 := s.flatMap String.utf8EncodeChar

/-- `_fingerprint`: the digest of the parts, each preceded by its length and a colon. -/
def fingerprint (md5 : List UInt8 → Str) (parts : List Str) : Str :=
  md5 (parts.flatMap fun part =>
    let encoded := utf8 part
    utf8 (Str.decimal encoded.length) ++ utf8 ":" ++ encoded)

/-- `str(id)`, with the empty text for `None`. -/
def optionalId (id : Option Uuid) : Str := (id.map Uuid.str).getD []

/-- `observation_persistence_fingerprint`. -/
def observationPersistenceFingerprint (md5 : List UInt8 → Str) (snapshotId : Uuid)
    (subjectId opportunityId : Option Uuid) (predicate objectValue extractorVersion : Str)
    (sourceLocator : Option Json) : Str :=
  fingerprint md5 [snapshotId.str, optionalId subjectId, optionalId opportunityId, predicate,
    objectValue, extractorVersion, (sourceLocator.map Json.dumps).getD []]

end VCBrain
