import Ra2a.Types.Security

/-!
# Agent cards

`types/agent.rs`: the card an agent is known by, and its `Serialize` and
`Deserialize` implementations, which are derived throughout.
-/

namespace Ra2a

open SortedMap

/-- A newtype over `String` that is written as the string. -/
abbrev TransportProtocol := String

structure AgentInterface where
  url : String
  protocolBinding : TransportProtocol
  tenant : Option String
  protocolVersion : String
  deriving DecidableEq

structure AgentProvider where
  organization : String
  url : String
  deriving DecidableEq

structure AgentExtension where
  uri : String
  description : Option String
  required : Bool
  params : Option Metadata
  deriving DecidableEq

structure AgentCapabilities where
  streaming : Option Bool
  pushNotifications : Option Bool
  extensions : List AgentExtension
  extendedAgentCard : Option Bool
  deriving DecidableEq

structure AgentSkill where
  id : String
  name : String
  description : String
  tags : List String
  examples : List String
  inputModes : List String
  outputModes : List String
  securityRequirements : List SecurityRequirement
  deriving DecidableEq

structure AgentCardSignature where
  «protected» : String
  signature : String
  header : Option Metadata
  deriving DecidableEq

structure AgentCard where
  name : String
  description : String
  supportedInterfaces : List AgentInterface
  provider : Option AgentProvider
  version : String
  documentationUrl : Option String
  capabilities : AgentCapabilities
  securitySchemes : StringMap SecurityScheme
  securityRequirements : List SecurityRequirement
  defaultInputModes : List String
  defaultOutputModes : List String
  skills : List AgentSkill
  signatures : List AgentCardSignature
  iconUrl : Option String
  deriving DecidableEq

/-! ### Constructors -/

/-- The version of the protocol. -/
def PROTOCOL_VERSION : String := "1.0"

/-- `AgentInterface::new`. -/
def AgentInterface.new (url : String) (protocolBinding : TransportProtocol) : AgentInterface where
  url := url
  protocolBinding := protocolBinding
  tenant := none
  protocolVersion := PROTOCOL_VERSION

/-- `AgentCard::new`. -/
def AgentCard.new (name description : String) (interfaces : List AgentInterface) : AgentCard where
  name := name
  description := description
  supportedInterfaces := interfaces
  provider := none
  version := "1.0.0"
  documentationUrl := none
  capabilities := ⟨none, none, [], none⟩
  securitySchemes := ∅
  securityRequirements := []
  defaultInputModes := ["text/plain"]
  defaultOutputModes := ["text/plain"]
  skills := []
  signatures := []
  iconUrl := none

/-- `supports_push_notifications`. -/
def AgentCard.supportsPushNotifications (card : AgentCard) : Bool :=
  card.capabilities.pushNotifications.getD false

/-! ### The wire format -/

/-- `skip_serializing_if = "HashMap::is_empty"`. -/
def fieldUnlessEmptyMap {α : Type} [Serde α] (k : String) (m : StringMap α) :
    List (String × Json) :=
  if (entriesOf m).isEmpty then [] else field k m

def AgentInterface.serialize (i : AgentInterface) : Json :=
  .ofFields (field "url" i.url ++ field "protocolBinding" i.protocolBinding ++
    fieldUnlessNone "tenant" i.tenant ++ field "protocolVersion" i.protocolVersion)

def AgentInterface.deserialize (j : Json) : Option AgentInterface := do
  let ms ← j.members 4 ["url", "protocolBinding", "tenant", "protocolVersion"]
  return {
    url := ← readField (ms.lookup "url")
    protocolBinding := ← readField (ms.lookup "protocolBinding")
    tenant := ← readOption (ms.lookup "tenant")
    protocolVersion := ← readField (ms.lookup "protocolVersion") }

instance : Serde AgentInterface := ⟨AgentInterface.serialize, AgentInterface.deserialize⟩

def AgentProvider.serialize (p : AgentProvider) : Json :=
  .ofFields (field "organization" p.organization ++ field "url" p.url)

def AgentProvider.deserialize (j : Json) : Option AgentProvider := do
  let ms ← j.members 2 ["organization", "url"]
  return {
    organization := ← readField (ms.lookup "organization")
    url := ← readField (ms.lookup "url") }

instance : Serde AgentProvider := ⟨AgentProvider.serialize, AgentProvider.deserialize⟩

def AgentExtension.serialize (e : AgentExtension) : Json :=
  .ofFields (field "uri" e.uri ++ fieldUnlessNone "description" e.description ++
    fieldUnlessFalse "required" e.required ++ fieldUnlessNone "params" e.params)

def AgentExtension.deserialize (j : Json) : Option AgentExtension := do
  let ms ← j.members 1 ["uri", "description", "required", "params"]
  return {
    uri := ← readField (ms.lookup "uri")
    description := ← readOption (ms.lookup "description")
    required := ← readDefault false (ms.lookup "required")
    params := ← readOption (ms.lookup "params") }

instance : Serde AgentExtension := ⟨AgentExtension.serialize, AgentExtension.deserialize⟩

def AgentCapabilities.serialize (c : AgentCapabilities) : Json :=
  .ofFields (fieldUnlessNone "streaming" c.streaming ++
    fieldUnlessNone "pushNotifications" c.pushNotifications ++
    fieldUnlessEmpty "extensions" c.extensions ++
    fieldUnlessNone "extendedAgentCard" c.extendedAgentCard)

def AgentCapabilities.deserialize (j : Json) : Option AgentCapabilities := do
  let ms ← j.members 0 ["streaming", "pushNotifications", "extensions", "extendedAgentCard"]
  return {
    streaming := ← readOption (ms.lookup "streaming")
    pushNotifications := ← readOption (ms.lookup "pushNotifications")
    extensions := ← readDefault [] (ms.lookup "extensions")
    extendedAgentCard := ← readOption (ms.lookup "extendedAgentCard") }

instance : Serde AgentCapabilities := ⟨AgentCapabilities.serialize, AgentCapabilities.deserialize⟩

def AgentSkill.serialize (s : AgentSkill) : Json :=
  .ofFields (field "id" s.id ++ field "name" s.name ++ field "description" s.description ++
    field "tags" s.tags ++ fieldUnlessEmpty "examples" s.examples ++
    fieldUnlessEmpty "inputModes" s.inputModes ++ fieldUnlessEmpty "outputModes" s.outputModes ++
    fieldUnlessEmpty "securityRequirements" s.securityRequirements)

def AgentSkill.deserialize (j : Json) : Option AgentSkill := do
  let ms ← j.members 4 ["id", "name", "description", "tags", "examples", "inputModes",
    "outputModes", "securityRequirements"]
  return {
    id := ← readField (ms.lookup "id")
    name := ← readField (ms.lookup "name")
    description := ← readField (ms.lookup "description")
    tags := ← readField (ms.lookup "tags")
    examples := ← readDefault [] (ms.lookup "examples")
    inputModes := ← readDefault [] (ms.lookup "inputModes")
    outputModes := ← readDefault [] (ms.lookup "outputModes")
    securityRequirements := ← readDefault [] (ms.lookup "securityRequirements") }

instance : Serde AgentSkill := ⟨AgentSkill.serialize, AgentSkill.deserialize⟩

def AgentCardSignature.serialize (s : AgentCardSignature) : Json :=
  .ofFields (field "protected" s.«protected» ++ field "signature" s.signature ++
    fieldUnlessNone "header" s.header)

def AgentCardSignature.deserialize (j : Json) : Option AgentCardSignature := do
  let ms ← j.members 2 ["protected", "signature", "header"]
  return {
    «protected» := ← readField (ms.lookup "protected")
    signature := ← readField (ms.lookup "signature")
    header := ← readOption (ms.lookup "header") }

instance : Serde AgentCardSignature :=
  ⟨AgentCardSignature.serialize, AgentCardSignature.deserialize⟩

def AgentCard.fields (c : AgentCard) : List (String × Json) :=
  field "name" c.name ++ field "description" c.description ++
    field "supportedInterfaces" c.supportedInterfaces ++ fieldUnlessNone "provider" c.provider ++
    field "version" c.version ++ fieldUnlessNone "documentationUrl" c.documentationUrl ++
    field "capabilities" c.capabilities ++
    fieldUnlessEmptyMap "securitySchemes" c.securitySchemes ++
    fieldUnlessEmpty "securityRequirements" c.securityRequirements ++
    field "defaultInputModes" c.defaultInputModes ++
    field "defaultOutputModes" c.defaultOutputModes ++ field "skills" c.skills ++
    fieldUnlessEmpty "signatures" c.signatures ++ fieldUnlessNone "iconUrl" c.iconUrl

def AgentCard.serialize (c : AgentCard) : Json := .ofFields c.fields

def AgentCard.deserialize (j : Json) : Option AgentCard := do
  let ms ← j.members 12 ["name", "description", "supportedInterfaces", "provider", "version",
    "documentationUrl", "capabilities", "securitySchemes", "securityRequirements",
    "defaultInputModes", "defaultOutputModes", "skills", "signatures", "iconUrl"]
  return {
    name := ← readField (ms.lookup "name")
    description := ← readField (ms.lookup "description")
    supportedInterfaces := ← readField (ms.lookup "supportedInterfaces")
    provider := ← readOption (ms.lookup "provider")
    version := ← readField (ms.lookup "version")
    documentationUrl := ← readOption (ms.lookup "documentationUrl")
    capabilities := ← readField (ms.lookup "capabilities")
    securitySchemes := ← readDefault ∅ (ms.lookup "securitySchemes")
    securityRequirements := ← readDefault [] (ms.lookup "securityRequirements")
    defaultInputModes := ← readField (ms.lookup "defaultInputModes")
    defaultOutputModes := ← readField (ms.lookup "defaultOutputModes")
    skills := ← readField (ms.lookup "skills")
    signatures := ← readDefault [] (ms.lookup "signatures")
    iconUrl := ← readOption (ms.lookup "iconUrl") }

instance : Serde AgentCard := ⟨AgentCard.serialize, AgentCard.deserialize⟩

/-! ### What is written is read back -/

instance : LawfulSerde AgentInterface where
  deserialize_serialize i := by
    show AgentInterface.deserialize i.serialize = some i
    simp [AgentInterface.serialize, AgentInterface.deserialize, lookup_ofEntries]

instance : LawfulSerde AgentProvider where
  deserialize_serialize p := by
    show AgentProvider.deserialize p.serialize = some p
    simp [AgentProvider.serialize, AgentProvider.deserialize, lookup_ofEntries]

instance : LawfulSerde AgentExtension where
  deserialize_serialize e := by
    show AgentExtension.deserialize e.serialize = some e
    simp [AgentExtension.serialize, AgentExtension.deserialize, lookup_ofEntries]

instance : LawfulSerde AgentCapabilities where
  deserialize_serialize c := by
    show AgentCapabilities.deserialize c.serialize = some c
    simp [AgentCapabilities.serialize, AgentCapabilities.deserialize, lookup_ofEntries]

instance : LawfulSerde AgentSkill where
  deserialize_serialize s := by
    show AgentSkill.deserialize s.serialize = some s
    simp [AgentSkill.serialize, AgentSkill.deserialize, lookup_ofEntries]

instance : LawfulSerde AgentCardSignature where
  deserialize_serialize s := by
    show AgentCardSignature.deserialize s.serialize = some s
    simp [AgentCardSignature.serialize, AgentCardSignature.deserialize, lookup_ofEntries]

instance : NeverNull AgentProvider := ⟨fun a h => by cases h⟩

section Maps

variable {α : Type} [Serde α] {k l : String} {m : StringMap α}

@[simp] theorem find_fieldUnlessEmptyMap : find k (fieldUnlessEmptyMap l m) =
    if k = l ∧ entriesOf m ≠ [] then some (serialize m) else none := by
  by_cases hm : entriesOf m = [] <;> simp [fieldUnlessEmptyMap, hm]

@[simp] theorem readDefault_unlessEmptyMap [LawfulSerde α] :
    readDefault (∅ : StringMap α) (if entriesOf m = [] then none else some (serialize m)) =
      some m := by
  by_cases h : entriesOf m = []
  · rw [if_pos h, readDefault, entriesOf_eq_nil_iff.mp h]
  · rw [if_neg h, readDefault_serialize]

end Maps

/-- Each field of a card is read back by itself. -/
theorem AgentCard.read_fields (c : AgentCard) :
    readField ((ofEntries c.fields).lookup "name") = some c.name ∧
      readField ((ofEntries c.fields).lookup "description") = some c.description ∧
      readField ((ofEntries c.fields).lookup "supportedInterfaces") = some c.supportedInterfaces ∧
      readOption ((ofEntries c.fields).lookup "provider") = some c.provider ∧
      readField ((ofEntries c.fields).lookup "version") = some c.version ∧
      readOption ((ofEntries c.fields).lookup "documentationUrl") = some c.documentationUrl ∧
      readField ((ofEntries c.fields).lookup "capabilities") = some c.capabilities ∧
      readDefault ∅ ((ofEntries c.fields).lookup "securitySchemes") = some c.securitySchemes ∧
      readDefault [] ((ofEntries c.fields).lookup "securityRequirements") =
        some c.securityRequirements ∧
      readField ((ofEntries c.fields).lookup "defaultInputModes") = some c.defaultInputModes ∧
      readField ((ofEntries c.fields).lookup "defaultOutputModes") = some c.defaultOutputModes ∧
      readField ((ofEntries c.fields).lookup "skills") = some c.skills ∧
      readDefault [] ((ofEntries c.fields).lookup "signatures") = some c.signatures ∧
      readOption ((ofEntries c.fields).lookup "iconUrl") = some c.iconUrl := by
  and_intros <;> simp [lookup_ofEntries, AgentCard.fields]

instance : LawfulSerde AgentCard where
  deserialize_serialize c := by
    show AgentCard.deserialize (.ofFields c.fields) = some c
    rw [AgentCard.deserialize, members_ofFields, Option.bind_eq_bind, Option.bind_some]
    simp only [c.read_fields, Option.bind_eq_bind, Option.bind_some]
    rfl

end Ra2a
