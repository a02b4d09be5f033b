import VCBrain.Foundation.Json

set_option relaxedAutoImplicit false
set_option autoImplicit false

/-!
# Source-use policy

What a source may be used for, compiled from its type and its license metadata.

## Main definitions

* `SourceUsePolicy`, `buildSourceUsePolicy` — the policy, which denies by default.
* `SourceUsePolicy.allowsModelUse` — whether a source may enter the input of a model.
-/

namespace VCBrain

/-- The policy of a source. -/
structure SourceUsePolicy where
  version : Str := "source-use-v1"
  sourceType : Str
  status : Str := "unknown"
  collection : Str := "review"
  retention : Str := "review"
  display : Str := "denied"
  modelUse : Str := "denied"
  contact : Str := "denied"
  exportUse : Str := "denied"
  licenseMetadata : Option Json := none

/-- `if license_metadata`: metadata that is no empty object. -/
def filledMetadata : Option Json → Bool
  | some (.obj fields) => !fields.isEmpty
  | _ => false

/-- The license metadata allows model use. -/
def licenseAllowsModelUse (licenseMetadata : Option Json) : Bool :=
  match licenseMetadata.bind (Json.get? "model_use") with
  | some (.str value) => value = "allowed"
  | _ => false

/-- The policy of a source type, before the license metadata. -/
def typePolicy (sourceType : Str) : SourceUsePolicy :=
  if sourceType = "inbound_deck" ∨ sourceType = "outreach" then
    { sourceType := sourceType, status := "allowed", collection := "allowed"
      retention := "allowed", display := "allowed", modelUse := "allowed"
      contact := if sourceType = "outreach" then "allowed" else "denied" }
  else { sourceType := sourceType }

/-- `build_source_use_policy`. -/
def buildSourceUsePolicy (sourceType : Str) (licenseMetadata : Option Json) : SourceUsePolicy :=
  let policy := typePolicy sourceType
  let policy :=
    if licenseAllowsModelUse licenseMetadata then
      { policy with status := "allowed", collection := "allowed", retention := "allowed"
                    modelUse := "allowed" }
    else policy
  if filledMetadata licenseMetadata then { policy with licenseMetadata := licenseMetadata }
  else policy

/-- `source_allows_model_use`. -/
def SourceUsePolicy.allowsModelUse (policy : SourceUsePolicy) : Bool := policy.modelUse = "allowed"

end VCBrain
