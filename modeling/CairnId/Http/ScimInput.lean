import CairnId.Validation

/-!
# SCIM input

`scim_input` and the parts of `scim_protocol`, `scim_projection` and `scim_query`
that it uses: how the operations of a PATCH request are read and folded over a
copy of the stored resource.
-/

namespace CairnId

/-- The header `WWW-Authenticate` is left out: no error here carries it. -/
structure ScimError where
  status : Nat
  detail : String
  scimType : Option String
  deriving DecidableEq

namespace ScimError

def invalidValue (detail : String) : ScimError := ⟨400, detail, some "invalidValue"⟩
def invalidFilter (detail : String) : ScimError := ⟨400, detail, some "invalidFilter"⟩
def invalidPath (detail : String) : ScimError := ⟨400, detail, some "invalidPath"⟩
def noTarget (detail : String) : ScimError := ⟨400, detail, some "noTarget"⟩
def uniqueness (detail : String) : ScimError := ⟨409, detail, some "uniqueness"⟩
def mutability (status : Nat) (detail : String) : ScimError := ⟨status, detail, some "mutability"⟩
def notFound (detail : String) : ScimError := ⟨404, detail, none⟩
def serverError (detail : String) : ScimError := ⟨500, detail, none⟩

/-- `From<DomainError>`. -/
def ofDomain (e : DomainError) : ScimError := invalidValue e.text

end ScimError

abbrev ScimResult := Except ScimError

def scimUserSchema : String := "urn:ietf:params:scim:schemas:core:2.0:User"
def scimGroupSchema : String := "urn:ietf:params:scim:schemas:core:2.0:Group"
def scimPatchOpSchema : String := "urn:ietf:params:scim:api:messages:2.0:PatchOp"
def scimPatchMaxOperations : Nat := 20
def scimGroupMaxMembers : Nat := 500

def scimNormalizeEmail (email : String) : ScimResult String :=
  (normalizeEmail email).mapError .ofDomain

-- scim_values

/-- The length is counted in characters. -/
def optionalScimString (field : String) (value : Option String) (maxLen : Nat) :
    ScimResult (Option String) := match value with
  | none => .ok none
  | some value =>
    let trimmed := trim value
    if trimmed.isEmpty then .ok none
    else if maxLen < trimmed.length then .error (.invalidValue (field ++ " exceeds maximum length"))
    else .ok (some trimmed)

def scimRequiredStringValue (field : String) (value : Json) (maxLen : Nat) : ScimResult String :=
  match value with
  | .string text => do
    match ← optionalScimString field (some text) maxLen with
    | some text => return text
    | none => throw (.invalidValue (field ++ " cannot be empty"))
  | _ => .error (.invalidValue (field ++ " must be a string"))

def scimOptionalStringValue (field : String) (value : Json) (maxLen : Nat) :
    ScimResult (Option String) := match value with
  | .null => .ok none
  | .string text => optionalScimString field (some text) maxLen
  | _ => .error (.invalidValue (field ++ " must be a string or null"))

def scimBoolValue (field : String) (value : Json) : ScimResult Bool := match value with
  | .bool b => .ok b
  | .string text =>
    if eqIgnoreAsciiCase text "true" then .ok true
    else if eqIgnoreAsciiCase text "false" then .ok false
    else .error (.invalidValue (field ++ " must be boolean"))
  | _ => .error (.invalidValue (field ++ " must be boolean"))

-- what serde reads

/-- The fields of a struct: by name in an object, by position in an array. -/
def Json.structFields (names : List String) : Json → Option (List (Option Json))
  | .object members => some (names.map fun name => (Json.object members).get? name)
  | .array values =>
    if values.length ≤ names.length then some ((List.range names.length).map fun i => values[i]?)
    else none
  | _ => none

/-- A field `Option<String>` with `#[serde(default)]`. -/
def Json.optionalString : Option Json → Option (Option String)
  | none | some .null => some none
  | some (.string s) => some (some s)
  | _ => none

/-- A field `Option<bool>` with `#[serde(default)]`. -/
def Json.optionalBool : Option Json → Option (Option Bool)
  | none | some .null => some none
  | some (.bool b) => some (some b)
  | _ => none

def Json.requiredString : Option Json → Option String
  | some (.string s) => some s
  | _ => none

def Json.stringArray : Json → Option (List String)
  | .array values => values.mapM asStr?
  | _ => none

-- scim_schemas

def validateRequiredSchemaPatchValue (value : Json) (requiredSchema errorMessage : String) :
    ScimResult Unit := do
  let containsSchema ← (match value with
    | .string value => pure (value = requiredSchema : Bool)
    | _ => match value.stringArray with
      | some schemas => pure (schemas.contains requiredSchema)
      | none => throw (.invalidValue "schemas must be a string array"))
  if containsSchema then return () else throw (.invalidValue errorMessage)

def validateScimUserSchemasPatchValue (value : Json) : ScimResult Unit :=
  validateRequiredSchemaPatchValue value scimUserSchema "schemas must include the core User schema"

def validateScimGroupSchemasPatchValue (value : Json) : ScimResult Unit :=
  validateRequiredSchemaPatchValue value scimGroupSchema
    "schemas must include the core Group schema"

-- scim_query

def scimEqCondition (condition : String) : ScimResult (String × String) := do
  let trimmed := (trim condition).toList
  let isText (c : Char) : Bool := !isWhiteSpace c
  let attr := trimmed.takeWhile isText
  let rest := trimmed.dropWhile isText
  if rest.isEmpty then throw (.invalidFilter "SCIM filter must use eq")
  let remaining := rest.dropWhile isWhiteSpace
  let operator := remaining.takeWhile isText
  let rest := remaining.dropWhile isText
  if rest.isEmpty then throw (.invalidFilter "SCIM filter must use eq")
  if !eqIgnoreAsciiCase (String.ofList operator) "eq" then
    throw (.invalidFilter "only eq filters are supported")
  let rawValue := rest.dropWhile isWhiteSpace
  if attr.isEmpty || rawValue.isEmpty then
    throw (.invalidFilter "SCIM filter must include attribute and value")
  return (String.ofList attr, String.ofList rawValue)

def quotationMark : Char := Char.ofNat 0x22
def backslash : Char := Char.ofNat 0x5C

/-- The loop of `scim_filter_string`. -/
def unescapeFilterChars (escaped : Bool) : List Char → ScimResult (List Char)
  | [] =>
    if escaped then .error (.invalidFilter "unterminated SCIM string escape") else .ok []
  | c :: cs =>
    if escaped then
      if c = quotationMark || c = backslash then (unescapeFilterChars false cs).map (c :: ·)
      else .error (.invalidFilter "unsupported SCIM string escape")
    else if c = backslash then unescapeFilterChars true cs
    else (unescapeFilterChars false cs).map (c :: ·)

def scimFilterString (value : String) : ScimResult String := do
  let chars := (trim value).toList
  if chars.head? ≠ some quotationMark || chars.getLast? ≠ some quotationMark ||
      chars.length < 2 then
    throw (.invalidFilter "SCIM string filter value must be quoted")
  return String.ofList (← unescapeFilterChars false chars.tail.dropLast)

-- scim_patch_path

inductive ScimEmailPatchAttribute where
  | resource
  | value
  | type
  | primary
  deriving DecidableEq

inductive ScimEmailFilter where
  | typeWork
  | primaryTrue
  | value (email : String)
  deriving DecidableEq

def ScimEmailFilter.matchesEmail (filter : ScimEmailFilter) (email : String) : Bool :=
  match filter with
  | .typeWork | .primaryTrue => true
  | .value expected => expected = email

inductive ScimPatchPath where
  | userName
  | externalId
  | displayName
  | active
  | name
  | nameFormatted
  | nameGivenName
  | nameFamilyName
  | emails (filter : Option ScimEmailFilter) (attr : ScimEmailPatchAttribute)
  | schemas
  deriving DecidableEq

inductive ScimGroupPatchPath where
  | displayName
  | externalId
  | members (value : Option UserId) (valueOnly : Bool)
  | schemas
  deriving DecidableEq

/-- `strip_scim_user_schema_prefix` and `strip_scim_group_schema_prefix`. -/
def stripScimSchema (schema path : String) : String :=
  let chars := path.toList
  if eqIgnoreAsciiCase (String.ofList (chars.take schema.length)) schema &&
      chars[schema.length]? = some ':' then
    String.ofList (chars.drop (schema.length + 1))
  else path

/-- What stands between the brackets of a path and, trimmed, after them. -/
def splitFilterPath (attr path invalid unterminated : String) :
    ScimResult (String × String) := do
  let chars := path.toList
  let filtered := chars.dropWhile (· ≠ '[')
  if filtered.isEmpty then throw (.invalidPath invalid)
  if !eqIgnoreAsciiCase (String.ofList (chars.takeWhile (· ≠ '['))) attr then
    throw (.invalidPath invalid)
  let closed := filtered.tail.dropWhile (· ≠ ']')
  if closed.isEmpty then throw (.invalidPath unterminated)
  return (String.ofList (filtered.tail.takeWhile (· ≠ ']')), trim (String.ofList closed.tail))

def scimEmailFilter (value : String) : ScimResult ScimEmailFilter := do
  let (attr, rawValue) ← scimEqCondition value
  match asciiLowercase attr with
  | "type" =>
    let value ← scimFilterString rawValue
    if eqIgnoreAsciiCase value "work" then return .typeWork
    else throw (.noTarget "SCIM PATCH email type filter did not match a stored email")
  | "primary" => match trim rawValue with
    | "true" => return .primaryTrue
    | "false" => throw (.noTarget "SCIM PATCH email primary filter did not match a stored email")
    | _ => throw (.invalidFilter "SCIM PATCH email primary filter must be boolean")
  | "value" => return .value (← scimNormalizeEmail (← scimFilterString rawValue))
  | _ => throw (.invalidFilter "unsupported SCIM PATCH email filter attribute")

def scimPatchEmailPath (path : String) : ScimResult ScimPatchPath := do
  let (condition, suffix) ← splitFilterPath "emails" path "invalid SCIM email path"
    "unterminated SCIM email filter path"
  let filter ← scimEmailFilter condition
  let attr ←
    (if suffix.isEmpty then pure .resource
    else if eqIgnoreAsciiCase suffix ".value" then pure .value
    else if eqIgnoreAsciiCase suffix ".type" then pure .type
    else if eqIgnoreAsciiCase suffix ".primary" then pure .primary
    else throw (.invalidPath "unsupported SCIM email filter sub-attribute"))
  return .emails (some filter) attr

def scimPatchPath (rawPath : String) : ScimResult ScimPatchPath :=
  let path := stripScimSchema scimUserSchema (trim rawPath)
  if path.isEmpty then .error (.invalidPath "SCIM PATCH path cannot be empty")
  else match asciiLowercase path with
    | "username" => .ok .userName
    | "externalid" => .ok .externalId
    | "displayname" => .ok .displayName
    | "active" => .ok .active
    | "name" => .ok .name
    | "name.formatted" => .ok .nameFormatted
    | "name.givenname" => .ok .nameGivenName
    | "name.familyname" => .ok .nameFamilyName
    | "emails" => .ok (.emails none .resource)
    | "emails.value" => .ok (.emails none .value)
    | "emails.type" => .ok (.emails none .type)
    | "emails.primary" => .ok (.emails none .primary)
    | "schemas" => .ok .schemas
    | "id" | "meta" | "meta.created" | "meta.lastmodified" | "meta.location" =>
      .error (.mutability 400 "read-only SCIM user attributes cannot be modified")
    | lower =>
      if "emails[".toList.isPrefixOf lower.toList then scimPatchEmailPath path
      else .error (.invalidPath "unsupported SCIM PATCH path")

-- scim_patch_request

inductive ScimPatchOp where
  | add
  | replace
  | remove
  deriving DecidableEq

def ScimPatchOp.parse (value : String) : ScimResult ScimPatchOp :=
  if eqIgnoreAsciiCase value "add" then .ok .add
  else if eqIgnoreAsciiCase value "replace" then .ok .replace
  else if eqIgnoreAsciiCase value "remove" then .ok .remove
  else .error (.invalidValue "unsupported SCIM PATCH op")

structure ScimPatchOperation where
  op : String
  path : Option String
  value : Option Json

structure ScimPatchRequest where
  schemas : List String
  operations : List ScimPatchOperation

namespace ScimPatchRequest

def operationCount (request : ScimPatchRequest) : Nat := request.operations.length

def intoValidatedOperations (request : ScimPatchRequest) :
    ScimResult (List ScimPatchOperation) :=
  if !request.schemas.contains scimPatchOpSchema then
    .error (.invalidValue "SCIM PATCH request must include PatchOp schema")
  else if request.operations.isEmpty then
    .error (.invalidValue "SCIM PATCH request must include at least one operation")
  else if scimPatchMaxOperations < request.operations.length then
    .error (.invalidValue "too many SCIM PATCH operations")
  else .ok request.operations

end ScimPatchRequest

/-- `for (attribute, value) in object` over the value of an operation without a
    path. -/
def forEachMember {σ : Type} (step : σ → String → Json → ScimResult σ) (state : σ) (value : Json) :
    ScimResult σ := match value with
  | .object members =>
    if members.isEmpty then .error (.invalidValue "SCIM PATCH resource value cannot be empty")
    else members.foldlM (fun state m => step state m.1 m.2) state
  | _ => .error (.invalidValue "SCIM PATCH resource value must be an object")

-- scim_user_profile

structure ScimNameRequest where
  formatted : Option String
  givenName : Option String
  familyName : Option String

def ScimNameRequest.fromValue (value : Json) : Option ScimNameRequest := do
  match ← value.structFields ["formatted", "givenName", "familyName"] with
  | [formatted, givenName, familyName] =>
    return ⟨← Json.optionalString formatted, ← Json.optionalString givenName,
      ← Json.optionalString familyName⟩
  | _ => none

structure ScimEmailRequest where
  value : String
  emailType : Option String
  primary : Option Bool

def ScimEmailRequest.fromValue (value : Json) : Option ScimEmailRequest := do
  match ← value.structFields ["value", "type", "primary"] with
  | [value, emailType, primary] =>
    return ⟨← Json.requiredString value, ← Json.optionalString emailType,
      ← Json.optionalBool primary⟩
  | _ => none

def ScimEmailRequest.isPrimary (email : ScimEmailRequest) : Bool := email.primary.getD false

/-- The part of `validate_scim_email_values` for each address. -/
def validateScimEmailValue (userName : String) (email : ScimEmailRequest) : ScimResult Unit := do
  let normalized ← scimNormalizeEmail email.value
  if normalized ≠ userName then
    throw (.invalidValue "emails.value must match userName for Cairn Identity users")
  match email.emailType.map trim with
  | some emailType =>
    if emailType.isEmpty || 32 < emailType.length || !eqIgnoreAsciiCase emailType "work" then
      throw (.invalidValue "emails.type must be work for Cairn Identity users")
  | none => return ()

def validateScimEmailValues (userName : String) (emails : List ScimEmailRequest) :
    ScimResult Unit := do
  emails.forM (validateScimEmailValue userName)
  if 1 < emails.countP ScimEmailRequest.isPrimary then
    throw (.invalidValue "only one primary email can be supplied")

def scimEmailFromPatchValue (value : Json) : ScimResult String := match value with
  | .string text => scimNormalizeEmail text
  | .object _ => match ScimEmailRequest.fromValue value with
    | some email => do
      let selectedEmail ← scimNormalizeEmail email.value
      validateScimEmailValues selectedEmail [email]
      return selectedEmail
    | none => .error (.invalidValue "emails must contain value fields")
  | .array values => match values.mapM ScimEmailRequest.fromValue with
    | some (first :: rest) => do
      let selected := ((first :: rest).find? ScimEmailRequest.isPrimary).getD first
      let selectedEmail ← scimNormalizeEmail selected.value
      validateScimEmailValues selectedEmail (first :: rest)
      return selectedEmail
    | some [] => .error (.invalidValue "emails cannot be empty")
    | none => .error (.invalidValue "emails must be a string, object, or array")
  | _ => .error (.invalidValue "emails must be a string, object, or array")

def validateScimEmailTypePatchValue (value : Json) : ScimResult Unit := do
  let emailType ← scimRequiredStringValue "emails.type" value 32
  if eqIgnoreAsciiCase emailType "work" then return ()
  else throw (.invalidValue "emails.type must be work for Cairn Identity users")

def validateScimEmailPrimaryPatchValue (value : Json) : ScimResult Unit := do
  if ← scimBoolValue "emails.primary" value then return ()
  else throw (.invalidValue "emails.primary must remain true for Cairn Identity users")

def scimDisplayName (userName : String) (displayName : Option String)
    (name : Option ScimNameRequest) : ScimResult String := do
  if let some displayName ← optionalScimString "displayName" displayName 160 then
    return displayName
  if let some name := name then
    if let some formatted ← optionalScimString "name.formatted" name.formatted 160 then
      return formatted
    let givenName ← optionalScimString "name.givenName" name.givenName 80
    let familyName ← optionalScimString "name.familyName" name.familyName 80
    let parts := givenName.toList ++ familyName.toList
    if !parts.isEmpty then
      return " ".intercalate parts
  return userName

end CairnId
