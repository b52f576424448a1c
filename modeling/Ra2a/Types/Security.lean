import Ra2a.Lib.OneOf
import Ra2a.Types.Serde

/-!
# Security schemes

`types/security.rs`: the security schemes of an agent card and the OAuth flows in
them, with their `Serialize` and `Deserialize` implementations.

A scheme and a flow are one of five each.  Both are written as an object with one
member, whose name tells which, and read by looking for the five names in a fixed
order.
-/

namespace Ra2a

open SortedMap

/-- `HashMap<String, T>`. -/
abbrev StringMap (α : Type) := Finmap fun _ : String => α

inductive ApiKeyLocation
  | query
  | header
  | cookie
  deriving DecidableEq

structure ApiKeySecurityScheme where
  description : Option String
  location : ApiKeyLocation
  name : String
  deriving DecidableEq

structure HttpAuthSecurityScheme where
  description : Option String
  scheme : String
  bearerFormat : Option String
  deriving DecidableEq

structure OpenIdConnectSecurityScheme where
  description : Option String
  openIdConnectUrl : String
  deriving DecidableEq

structure MutualTlsSecurityScheme where
  description : Option String
  deriving DecidableEq

structure AuthorizationCodeOAuthFlow where
  authorizationUrl : String
  tokenUrl : String
  refreshUrl : Option String
  scopes : StringMap String
  pkceRequired : Bool
  deriving DecidableEq

structure ClientCredentialsOAuthFlow where
  tokenUrl : String
  refreshUrl : Option String
  scopes : StringMap String
  deriving DecidableEq

structure DeviceCodeOAuthFlow where
  deviceAuthorizationUrl : String
  tokenUrl : String
  refreshUrl : Option String
  scopes : StringMap String
  deriving DecidableEq

structure ImplicitOAuthFlow where
  authorizationUrl : String
  refreshUrl : Option String
  scopes : StringMap String
  deriving DecidableEq

structure PasswordOAuthFlow where
  tokenUrl : String
  refreshUrl : Option String
  scopes : StringMap String
  deriving DecidableEq

inductive OAuthFlow
  | authorizationCode (f : AuthorizationCodeOAuthFlow)
  | clientCredentials (f : ClientCredentialsOAuthFlow)
  | deviceCode (f : DeviceCodeOAuthFlow)
  | implicit (f : ImplicitOAuthFlow)
  | password (f : PasswordOAuthFlow)
  deriving DecidableEq

structure OAuth2SecurityScheme where
  description : Option String
  flows : OAuthFlow
  oauth2MetadataUrl : Option String
  deriving DecidableEq

inductive SecurityScheme
  | apiKey (s : ApiKeySecurityScheme)
  | http (s : HttpAuthSecurityScheme)
  | oAuth2 (s : OAuth2SecurityScheme)
  | openIdConnect (s : OpenIdConnectSecurityScheme)
  | mutualTLS (s : MutualTlsSecurityScheme)
  deriving DecidableEq

structure SecurityRequirement where
  schemes : StringMap (List String)
  deriving DecidableEq

/-! ### OAuth flows -/

def AuthorizationCodeOAuthFlow.serialize (f : AuthorizationCodeOAuthFlow) : Json :=
  .ofFields (field "authorizationUrl" f.authorizationUrl ++ field "tokenUrl" f.tokenUrl ++
    fieldUnlessNone "refreshUrl" f.refreshUrl ++ field "scopes" f.scopes ++
    fieldUnlessFalse "pkceRequired" f.pkceRequired)

def AuthorizationCodeOAuthFlow.deserialize (j : Json) : Option AuthorizationCodeOAuthFlow := do
  let ms ← j.members 4 ["authorizationUrl", "tokenUrl", "refreshUrl", "scopes", "pkceRequired"]
  return {
    authorizationUrl := ← readField (ms.lookup "authorizationUrl")
    tokenUrl := ← readField (ms.lookup "tokenUrl")
    refreshUrl := ← readOption (ms.lookup "refreshUrl")
    scopes := ← readField (ms.lookup "scopes")
    pkceRequired := ← readDefault false (ms.lookup "pkceRequired") }

instance : Serde AuthorizationCodeOAuthFlow :=
  ⟨AuthorizationCodeOAuthFlow.serialize, AuthorizationCodeOAuthFlow.deserialize⟩

def ClientCredentialsOAuthFlow.serialize (f : ClientCredentialsOAuthFlow) : Json :=
  .ofFields (field "tokenUrl" f.tokenUrl ++ fieldUnlessNone "refreshUrl" f.refreshUrl ++
    field "scopes" f.scopes)

def ClientCredentialsOAuthFlow.deserialize (j : Json) : Option ClientCredentialsOAuthFlow := do
  let ms ← j.members 3 ["tokenUrl", "refreshUrl", "scopes"]
  return {
    tokenUrl := ← readField (ms.lookup "tokenUrl")
    refreshUrl := ← readOption (ms.lookup "refreshUrl")
    scopes := ← readField (ms.lookup "scopes") }

instance : Serde ClientCredentialsOAuthFlow :=
  ⟨ClientCredentialsOAuthFlow.serialize, ClientCredentialsOAuthFlow.deserialize⟩

def DeviceCodeOAuthFlow.serialize (f : DeviceCodeOAuthFlow) : Json :=
  .ofFields (field "deviceAuthorizationUrl" f.deviceAuthorizationUrl ++
    field "tokenUrl" f.tokenUrl ++ fieldUnlessNone "refreshUrl" f.refreshUrl ++
    field "scopes" f.scopes)

def DeviceCodeOAuthFlow.deserialize (j : Json) : Option DeviceCodeOAuthFlow := do
  let ms ← j.members 4 ["deviceAuthorizationUrl", "tokenUrl", "refreshUrl", "scopes"]
  return {
    deviceAuthorizationUrl := ← readField (ms.lookup "deviceAuthorizationUrl")
    tokenUrl := ← readField (ms.lookup "tokenUrl")
    refreshUrl := ← readOption (ms.lookup "refreshUrl")
    scopes := ← readField (ms.lookup "scopes") }

instance : Serde DeviceCodeOAuthFlow :=
  ⟨DeviceCodeOAuthFlow.serialize, DeviceCodeOAuthFlow.deserialize⟩

def ImplicitOAuthFlow.serialize (f : ImplicitOAuthFlow) : Json :=
  .ofFields (field "authorizationUrl" f.authorizationUrl ++
    fieldUnlessNone "refreshUrl" f.refreshUrl ++ field "scopes" f.scopes)

/-- The deprecated flows may leave their scopes out. -/
def ImplicitOAuthFlow.deserialize (j : Json) : Option ImplicitOAuthFlow := do
  let ms ← j.members 1 ["authorizationUrl", "refreshUrl", "scopes"]
  return {
    authorizationUrl := ← readField (ms.lookup "authorizationUrl")
    refreshUrl := ← readOption (ms.lookup "refreshUrl")
    scopes := ← readDefault ∅ (ms.lookup "scopes") }

instance : Serde ImplicitOAuthFlow := ⟨ImplicitOAuthFlow.serialize, ImplicitOAuthFlow.deserialize⟩

def PasswordOAuthFlow.serialize (f : PasswordOAuthFlow) : Json :=
  .ofFields (field "tokenUrl" f.tokenUrl ++ fieldUnlessNone "refreshUrl" f.refreshUrl ++
    field "scopes" f.scopes)

def PasswordOAuthFlow.deserialize (j : Json) : Option PasswordOAuthFlow := do
  let ms ← j.members 1 ["tokenUrl", "refreshUrl", "scopes"]
  return {
    tokenUrl := ← readField (ms.lookup "tokenUrl")
    refreshUrl := ← readOption (ms.lookup "refreshUrl")
    scopes := ← readDefault ∅ (ms.lookup "scopes") }

instance : Serde PasswordOAuthFlow := ⟨PasswordOAuthFlow.serialize, PasswordOAuthFlow.deserialize⟩

/-- `Serialize for OAuthFlow`. -/
def OAuthFlow.serialize : OAuthFlow → Json
  | .authorizationCode f => .ofFields (field "authorizationCode" f)
  | .clientCredentials f => .ofFields (field "clientCredentials" f)
  | .deviceCode f => .ofFields (field "deviceCode" f)
  | .implicit f => .ofFields (field "implicit" f)
  | .password f => .ofFields (field "password" f)

/-- The names a flow is told by, in the order they are looked for. -/
def OAuthFlow.alternatives : List (String × (Json → Option OAuthFlow)) :=
  [("authorizationCode", fun v => (Serde.deserialize v).map .authorizationCode),
    ("clientCredentials", fun v => (Serde.deserialize v).map .clientCredentials),
    ("deviceCode", fun v => (Serde.deserialize v).map .deviceCode),
    ("implicit", fun v => (Serde.deserialize v).map .implicit),
    ("password", fun v => (Serde.deserialize v).map .password)]

/-- `Deserialize for OAuthFlow`. -/
def OAuthFlow.deserialize : Json → Option OAuthFlow
  | .object raw => OneOf.choose (fun k => raw.lookup k) OAuthFlow.alternatives
  | _ => none

instance : Serde OAuthFlow := ⟨OAuthFlow.serialize, OAuthFlow.deserialize⟩

/-! ### Security schemes -/

def ApiKeyLocation.asStr : ApiKeyLocation → String
  | .query => "query"
  | .header => "header"
  | .cookie => "cookie"

def ApiKeyLocation.ofStr : String → Option ApiKeyLocation
  | "query" => some .query
  | "header" => some .header
  | "cookie" => some .cookie
  | _ => none

/-- The variant of a derived enumeration may also stand as the one member of an
object. -/
def ApiKeyLocation.deserialize : Json → Option ApiKeyLocation
  | .string s => ApiKeyLocation.ofStr s
  | .object [(s, .null)] => ApiKeyLocation.ofStr s
  | _ => none

instance : Serde ApiKeyLocation := ⟨fun l => .string l.asStr, ApiKeyLocation.deserialize⟩

def ApiKeySecurityScheme.serialize (s : ApiKeySecurityScheme) : Json :=
  .ofFields (fieldUnlessNone "description" s.description ++ field "location" s.location ++
    field "name" s.name)

def ApiKeySecurityScheme.deserialize (j : Json) : Option ApiKeySecurityScheme := do
  let ms ← j.members 3 ["description", "location", "name"]
  return {
    description := ← readOption (ms.lookup "description")
    location := ← readField (ms.lookup "location")
    name := ← readField (ms.lookup "name") }

instance : Serde ApiKeySecurityScheme :=
  ⟨ApiKeySecurityScheme.serialize, ApiKeySecurityScheme.deserialize⟩

def HttpAuthSecurityScheme.serialize (s : HttpAuthSecurityScheme) : Json :=
  .ofFields (fieldUnlessNone "description" s.description ++ field "scheme" s.scheme ++
    fieldUnlessNone "bearerFormat" s.bearerFormat)

def HttpAuthSecurityScheme.deserialize (j : Json) : Option HttpAuthSecurityScheme := do
  let ms ← j.members 2 ["description", "scheme", "bearerFormat"]
  return {
    description := ← readOption (ms.lookup "description")
    scheme := ← readField (ms.lookup "scheme")
    bearerFormat := ← readOption (ms.lookup "bearerFormat") }

instance : Serde HttpAuthSecurityScheme :=
  ⟨HttpAuthSecurityScheme.serialize, HttpAuthSecurityScheme.deserialize⟩

def OAuth2SecurityScheme.serialize (s : OAuth2SecurityScheme) : Json :=
  .ofFields (fieldUnlessNone "description" s.description ++ field "flows" s.flows ++
    fieldUnlessNone "oauth2MetadataUrl" s.oauth2MetadataUrl)

def OAuth2SecurityScheme.deserialize (j : Json) : Option OAuth2SecurityScheme := do
  let ms ← j.members 2 ["description", "flows", "oauth2MetadataUrl"]
  return {
    description := ← readOption (ms.lookup "description")
    flows := ← readField (ms.lookup "flows")
    oauth2MetadataUrl := ← readOption (ms.lookup "oauth2MetadataUrl") }

instance : Serde OAuth2SecurityScheme :=
  ⟨OAuth2SecurityScheme.serialize, OAuth2SecurityScheme.deserialize⟩

def OpenIdConnectSecurityScheme.serialize (s : OpenIdConnectSecurityScheme) : Json :=
  .ofFields (fieldUnlessNone "description" s.description ++
    field "openIdConnectUrl" s.openIdConnectUrl)

def OpenIdConnectSecurityScheme.deserialize (j : Json) : Option OpenIdConnectSecurityScheme := do
  let ms ← j.members 2 ["description", "openIdConnectUrl"]
  return {
    description := ← readOption (ms.lookup "description")
    openIdConnectUrl := ← readField (ms.lookup "openIdConnectUrl") }

instance : Serde OpenIdConnectSecurityScheme :=
  ⟨OpenIdConnectSecurityScheme.serialize, OpenIdConnectSecurityScheme.deserialize⟩

def MutualTlsSecurityScheme.serialize (s : MutualTlsSecurityScheme) : Json :=
  .ofFields (fieldUnlessNone "description" s.description)

def MutualTlsSecurityScheme.deserialize (j : Json) : Option MutualTlsSecurityScheme := do
  let ms ← j.members 0 ["description"]
  return { description := ← readOption (ms.lookup "description") }

instance : Serde MutualTlsSecurityScheme :=
  ⟨MutualTlsSecurityScheme.serialize, MutualTlsSecurityScheme.deserialize⟩

/-- `Serialize for SecurityScheme`. -/
def SecurityScheme.serialize : SecurityScheme → Json
  | .apiKey s => .ofFields (field "apiKey" s)
  | .http s => .ofFields (field "http" s)
  | .oAuth2 s => .ofFields (field "oauth2" s)
  | .openIdConnect s => .ofFields (field "openIdConnect" s)
  | .mutualTLS s => .ofFields (field "mutualTLS" s)

/-- The names a scheme is told by, in the order they are looked for. -/
def SecurityScheme.alternatives : List (String × (Json → Option SecurityScheme)) :=
  [("apiKey", fun v => (Serde.deserialize v).map .apiKey),
    ("http", fun v => (Serde.deserialize v).map .http),
    ("oauth2", fun v => (Serde.deserialize v).map .oAuth2),
    ("openIdConnect", fun v => (Serde.deserialize v).map .openIdConnect),
    ("mutualTLS", fun v => (Serde.deserialize v).map .mutualTLS)]

/-- `Deserialize for SecurityScheme`. -/
def SecurityScheme.deserialize : Json → Option SecurityScheme
  | .object raw => OneOf.choose (fun k => raw.lookup k) SecurityScheme.alternatives
  | _ => none

instance : Serde SecurityScheme := ⟨SecurityScheme.serialize, SecurityScheme.deserialize⟩

def SecurityRequirement.serialize (r : SecurityRequirement) : Json :=
  .ofFields (field "schemes" r.schemes)

def SecurityRequirement.deserialize (j : Json) : Option SecurityRequirement := do
  let ms ← j.members 1 ["schemes"]
  return { schemes := ← readField (ms.lookup "schemes") }

instance : Serde SecurityRequirement :=
  ⟨SecurityRequirement.serialize, SecurityRequirement.deserialize⟩

/-! ### What is written is read back -/

instance : LawfulSerde AuthorizationCodeOAuthFlow where
  deserialize_serialize f := by
    show AuthorizationCodeOAuthFlow.deserialize f.serialize = some f
    simp [AuthorizationCodeOAuthFlow.serialize, AuthorizationCodeOAuthFlow.deserialize,
      lookup_ofEntries]

instance : LawfulSerde ClientCredentialsOAuthFlow where
  deserialize_serialize f := by
    show ClientCredentialsOAuthFlow.deserialize f.serialize = some f
    simp [ClientCredentialsOAuthFlow.serialize, ClientCredentialsOAuthFlow.deserialize,
      lookup_ofEntries]

instance : LawfulSerde DeviceCodeOAuthFlow where
  deserialize_serialize f := by
    show DeviceCodeOAuthFlow.deserialize f.serialize = some f
    simp [DeviceCodeOAuthFlow.serialize, DeviceCodeOAuthFlow.deserialize, lookup_ofEntries]

instance : LawfulSerde ImplicitOAuthFlow where
  deserialize_serialize f := by
    show ImplicitOAuthFlow.deserialize f.serialize = some f
    simp [ImplicitOAuthFlow.serialize, ImplicitOAuthFlow.deserialize, lookup_ofEntries,
      readDefault_serialize]

instance : LawfulSerde PasswordOAuthFlow where
  deserialize_serialize f := by
    show PasswordOAuthFlow.deserialize f.serialize = some f
    simp [PasswordOAuthFlow.serialize, PasswordOAuthFlow.deserialize, lookup_ofEntries,
      readDefault_serialize]

instance : LawfulSerde OAuthFlow where
  deserialize_serialize f := by
    show OAuthFlow.deserialize f.serialize = some f
    cases f <;>
      simp [OAuthFlow.serialize, OAuthFlow.deserialize, OAuthFlow.alternatives, Json.ofFields,
        OneOf.choose, lookup_ofEntries]

instance : LawfulSerde ApiKeyLocation := ⟨fun l => by cases l <;> rfl⟩

instance : LawfulSerde ApiKeySecurityScheme where
  deserialize_serialize s := by
    show ApiKeySecurityScheme.deserialize s.serialize = some s
    simp [ApiKeySecurityScheme.serialize, ApiKeySecurityScheme.deserialize, lookup_ofEntries]

instance : LawfulSerde HttpAuthSecurityScheme where
  deserialize_serialize s := by
    show HttpAuthSecurityScheme.deserialize s.serialize = some s
    simp [HttpAuthSecurityScheme.serialize, HttpAuthSecurityScheme.deserialize, lookup_ofEntries]

instance : LawfulSerde OAuth2SecurityScheme where
  deserialize_serialize s := by
    show OAuth2SecurityScheme.deserialize s.serialize = some s
    simp [OAuth2SecurityScheme.serialize, OAuth2SecurityScheme.deserialize, lookup_ofEntries]

instance : LawfulSerde OpenIdConnectSecurityScheme where
  deserialize_serialize s := by
    show OpenIdConnectSecurityScheme.deserialize s.serialize = some s
    simp [OpenIdConnectSecurityScheme.serialize, OpenIdConnectSecurityScheme.deserialize,
      lookup_ofEntries]

instance : LawfulSerde MutualTlsSecurityScheme where
  deserialize_serialize s := by
    show MutualTlsSecurityScheme.deserialize s.serialize = some s
    simp [MutualTlsSecurityScheme.serialize, MutualTlsSecurityScheme.deserialize, lookup_ofEntries]

instance : LawfulSerde SecurityScheme where
  deserialize_serialize s := by
    show SecurityScheme.deserialize s.serialize = some s
    cases s <;>
      simp [SecurityScheme.serialize, SecurityScheme.deserialize, SecurityScheme.alternatives,
        Json.ofFields, OneOf.choose, lookup_ofEntries]

instance : LawfulSerde SecurityRequirement where
  deserialize_serialize r := by
    show SecurityRequirement.deserialize r.serialize = some r
    simp [SecurityRequirement.serialize, SecurityRequirement.deserialize, lookup_ofEntries]

end Ra2a
