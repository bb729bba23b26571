import CairnId.Http.ScimInput

/-!
# SCIM PATCH

`scim_user_patch`, `scim_group_patch` and `scim_group_members`: the operations of
a PATCH request, folded over a copy of the user or the group. The copy has every
attribute; which of them a request is about is read off its paths.
-/

namespace CairnId

structure ScimUserInput where
  email : String
  externalId : Option String
  emailVerified : Bool
  displayName : String
  status : UserStatus
  deriving DecidableEq

structure ScimPatchState where
  email : String
  externalId : Option String
  emailVerified : Bool
  displayName : String
  status : UserStatus
  patchGivenName : Option String
  patchFamilyName : Option String

namespace ScimPatchState

def fromUser (user : User) : ScimPatchState where
  email := user.email
  externalId := user.scimExternalId
  emailVerified := user.emailVerified
  displayName := user.displayName
  status := user.status
  patchGivenName := none
  patchFamilyName := none

def intoInput (s : ScimPatchState) : ScimResult ScimUserInput := do
  match ← optionalScimString "displayName" (some s.displayName) 160 with
  | some displayName => return ⟨s.email, s.externalId, s.emailVerified, displayName, s.status⟩
  | none => throw (.invalidValue "displayName cannot be empty")

def setUserName (s : ScimPatchState) (email : String) : ScimPatchState :=
  if s.email ≠ email then { s with email := email, emailVerified := false } else s

def setDisplayName (s : ScimPatchState) (displayName : String) : ScimPatchState :=
  { s with displayName := displayName, patchGivenName := none, patchFamilyName := none }

def rebuildDisplayNameFromPatchParts (s : ScimPatchState) : ScimResult ScimPatchState := do
  let parts := s.patchGivenName.toList ++ s.patchFamilyName.toList
  match ← optionalScimString "displayName" (some (" ".intercalate parts)) 160 with
  | some displayName => return { s with displayName := displayName }
  | none => throw (.invalidValue "displayName cannot be empty")

def setGivenName (s : ScimPatchState) (givenName : String) : ScimResult ScimPatchState :=
  rebuildDisplayNameFromPatchParts { s with patchGivenName := some givenName }

def setFamilyName (s : ScimPatchState) (familyName : String) : ScimResult ScimPatchState :=
  rebuildDisplayNameFromPatchParts { s with patchFamilyName := some familyName }

end ScimPatchState

/-- The check of a filter against the stored address. -/
def requireEmailFilter (s : ScimPatchState) (filter : Option ScimEmailFilter) : ScimResult Unit :=
  if filter.any fun filter => !filter.matchesEmail s.email then
    .error (.noTarget "SCIM PATCH email filter did not match a stored email")
  else .ok ()

def applyScimPatchPathValue (s : ScimPatchState) (path : ScimPatchPath) (value : Json) :
    ScimResult ScimPatchState := match path with
  | .userName => do
    return s.setUserName (← scimNormalizeEmail (← scimRequiredStringValue "userName" value 320))
  | .externalId => do
    return { s with externalId := ← scimOptionalStringValue "externalId" value 256 }
  | .displayName => do
    return s.setDisplayName (← scimRequiredStringValue "displayName" value 160)
  | .active => do
    return { s with status := if ← scimBoolValue "active" value then .active else .suspended }
  | .name => match ScimNameRequest.fromValue value with
    | some name => do return s.setDisplayName (← scimDisplayName s.email none (some name))
    | none => .error (.invalidValue "name must be a SCIM name object")
  | .nameFormatted => do
    return s.setDisplayName (← scimRequiredStringValue "name.formatted" value 160)
  | .nameGivenName => do
    s.setGivenName (← scimRequiredStringValue "name.givenName" value 80)
  | .nameFamilyName => do
    s.setFamilyName (← scimRequiredStringValue "name.familyName" value 80)
  | .emails filter attr => do
    requireEmailFilter s filter
    match attr with
    | .resource => return s.setUserName (← scimEmailFromPatchValue value)
    | .value =>
      return s.setUserName
        (← scimNormalizeEmail (← scimRequiredStringValue "emails.value" value 320))
    | .type =>
      validateScimEmailTypePatchValue value
      return s
    | .primary =>
      validateScimEmailPrimaryPatchValue value
      return s
  | .schemas => do
    validateScimUserSchemasPatchValue value
    return s

def removeScimPatchPath (s : ScimPatchState) (path : ScimPatchPath) : ScimResult ScimPatchState :=
  match path with
  | .externalId => .ok { s with externalId := none }
  | .emails filter _ => do
    requireEmailFilter s filter
    throw (.mutability 400 "emails cannot be removed from Cairn Identity users")
  | .schemas => .error (.mutability 400 "schemas cannot be removed from Cairn Identity users")
  | .userName | .displayName | .active | .name | .nameFormatted | .nameGivenName
  | .nameFamilyName =>
    .error (.mutability 400
      "required Cairn Identity user attributes cannot be removed through SCIM PATCH")

def applyScimPatchOperation (s : ScimPatchState) (operation : ScimPatchOperation) :
    ScimResult ScimPatchState := do
  match ← ScimPatchOp.parse operation.op with
  | .add | .replace =>
    let some value := operation.value
      | throw (.invalidValue "SCIM PATCH value is required")
    match operation.path with
    | some path => applyScimPatchPathValue s (← scimPatchPath path) value
    | none =>
      forEachMember (fun s attr value => do applyScimPatchPathValue s (← scimPatchPath attr) value)
        s value
  | .remove =>
    let some path := operation.path
      | throw (.invalidPath "SCIM PATCH remove requires path")
    removeScimPatchPath s (← scimPatchPath path)

def scimPatchUserInput (currentUser : User) (payload : ScimPatchRequest) :
    ScimResult ScimUserInput := do
  let operations ← payload.intoValidatedOperations
  (← operations.foldlM applyScimPatchOperation (.fromUser currentUser)).intoInput

-- scim_group_members

section groups

variable (P : Primitives)

structure ScimGroupInput where
  displayName : String
  externalId : Option String
  memberUserIds : List UserId
  deriving DecidableEq

/-- Of the fields `value`, `$ref`, `type` and `display` only two are used. -/
structure ScimGroupMemberRequest where
  value : Uuid
  memberType : Option String

def ScimGroupMemberRequest.fromValue (value : Json) : Option ScimGroupMemberRequest := do
  match ← value.structFields ["value", "$ref", "type", "display"] with
  | [value, reference, memberType, display] =>
    let value ← P.parseUuid (← Json.requiredString value)
    let _ ← Json.optionalString reference
    let memberType ← Json.optionalString memberType
    let _ ← Json.optionalString display
    return ⟨value, memberType⟩
  | _ => none

def scimGroupMemberUserIdFromRequest (member : ScimGroupMemberRequest) : ScimResult UserId :=
  if member.memberType.any fun memberType => !eqIgnoreAsciiCase memberType "User" then
    .error (.invalidValue "SCIM group members only support User resources")
  else .ok member.value

def uniqueScimGroupMemberUserIds (userIds : List UserId) : ScimResult (List UserId) :=
  if scimGroupMaxMembers < userIds.length then .error (.invalidValue "too many group members")
  else if userIds.Nodup then .ok userIds
  else .error (.invalidValue "duplicate members.value entries are not allowed")

def scimGroupMemberValueUserIdFromPatchValue (value : Json) : ScimResult UserId := match value with
  | .string text => match P.parseUuid text with
    | some id => .ok id
    | none => .error (.invalidValue "members.value must be a UUID")
  | _ => .error (.invalidValue "members.value must be a UUID string")

def scimGroupMemberUserIdFromPatchValue (value : Json) : ScimResult UserId := match value with
  | .string text => match P.parseUuid text with
    | some id => .ok id
    | none => .error (.invalidValue "members.value must be a UUID")
  | _ => match ScimGroupMemberRequest.fromValue P value with
    | some member => scimGroupMemberUserIdFromRequest member
    | none => .error (.invalidValue "members must contain value fields")

/-- One value or an array of values, each read by `read`. -/
def scimGroupUserIdsFromPatchValue (read : Json → ScimResult UserId) (value : Json) :
    ScimResult (List UserId) := do
  match value with
  | .array values => uniqueScimGroupMemberUserIds (← values.mapM read)
  | _ => uniqueScimGroupMemberUserIds [← read value]

def scimGroupMemberUserIdsFromPatchValue (value : Json) : ScimResult (List UserId) :=
  scimGroupUserIdsFromPatchValue (scimGroupMemberUserIdFromPatchValue P) value

def scimGroupMemberValueUserIdsFromPatchValue (value : Json) : ScimResult (List UserId) :=
  scimGroupUserIdsFromPatchValue (scimGroupMemberValueUserIdFromPatchValue P) value

def scimGroupSingleMemberUserIdFromPatchValue (value : Json) (valueOnly : Bool) :
    ScimResult UserId :=
  if valueOnly then scimGroupMemberValueUserIdFromPatchValue P value
  else scimGroupMemberUserIdFromPatchValue P value

-- scim_patch_path, for groups

def scimGroupPatchMemberPath (path : String) : ScimResult ScimGroupPatchPath := do
  let (condition, suffix) ← splitFilterPath "members" path "invalid SCIM member path"
    "unterminated SCIM member filter path"
  let valueOnly ←
    (if suffix.isEmpty then pure false
    else if eqIgnoreAsciiCase suffix ".value" then pure true
    else if eqIgnoreAsciiCase suffix ".$ref" || eqIgnoreAsciiCase suffix ".display" ||
        eqIgnoreAsciiCase suffix ".type" then
      throw (.mutability 400 "generated SCIM group member attributes cannot be modified")
    else throw (.invalidPath "unsupported SCIM member filter sub-attribute"))
  let (attr, rawValue) ← scimEqCondition condition
  if !eqIgnoreAsciiCase attr "value" then
    throw (.invalidFilter "SCIM group member filters only support value")
  match P.parseUuid (← scimFilterString rawValue) with
  | some userId => return .members (some userId) valueOnly
  | none => throw (.invalidFilter "SCIM group member value must be a UUID")

def scimGroupPatchPath (rawPath : String) : ScimResult ScimGroupPatchPath :=
  let path := stripScimSchema scimGroupSchema (trim rawPath)
  if path.isEmpty then .error (.invalidPath "SCIM PATCH path cannot be empty")
  else match asciiLowercase path with
    | "displayname" => .ok .displayName
    | "externalid" => .ok .externalId
    | "members" => .ok (.members none false)
    | "members.value" => .ok (.members none true)
    | "members.$ref" | "members.display" | "members.type" =>
      .error (.mutability 400 "generated SCIM group member attributes cannot be modified")
    | "schemas" => .ok .schemas
    | "id" | "meta" | "meta.created" | "meta.lastmodified" | "meta.location" =>
      .error (.mutability 400 "read-only SCIM group attributes cannot be modified")
    | lower =>
      if "members[".toList.isPrefixOf lower.toList then scimGroupPatchMemberPath P path
      else .error (.invalidPath "unsupported SCIM PATCH path")

-- scim_group_patch

structure ScimGroupPatchState where
  displayName : String
  externalId : Option String
  memberUserIds : List UserId

namespace ScimGroupPatchState

def fromGroup (group : Group) (members : List ScimGroupMember) : ScimGroupPatchState :=
  ⟨group.displayName, group.scimExternalId, members.map (·.userId)⟩

def intoInput (s : ScimGroupPatchState) : ScimResult ScimGroupInput := do
  if scimGroupMaxMembers < s.memberUserIds.length then
    throw (.invalidValue "too many group members")
  match ← optionalScimString "displayName" (some s.displayName) 160 with
  | some displayName => return ⟨displayName, s.externalId, s.memberUserIds⟩
  | none => throw (.invalidValue "displayName is required")

/-- The ids are pushed one by one unless they are there already. -/
def pushMissing (members : List UserId) : List UserId → List UserId
  | [] => members
  | userId :: userIds =>
    pushMissing (if members.contains userId then members else members ++ [userId]) userIds

def addMemberUserIds (s : ScimGroupPatchState) (userIds : List UserId) :
    ScimResult ScimGroupPatchState :=
  let members := pushMissing s.memberUserIds userIds
  if scimGroupMaxMembers < members.length then .error (.invalidValue "too many group members")
  else .ok { s with memberUserIds := members }

def addFilteredMemberUserId (s : ScimGroupPatchState) (filteredUserId : UserId) (value : Json)
    (valueOnly : Bool) : ScimResult ScimGroupPatchState := do
  let userId ← scimGroupSingleMemberUserIdFromPatchValue P value valueOnly
  if userId ≠ filteredUserId then
    throw (.invalidValue "filtered members PATCH value must match the path filter")
  s.addMemberUserIds [userId]

def replaceFilteredMemberUserId (s : ScimGroupPatchState) (filteredUserId : UserId) (value : Json)
    (valueOnly : Bool) : ScimResult ScimGroupPatchState := do
  let replacementUserId ← scimGroupSingleMemberUserIdFromPatchValue P value valueOnly
  let some targetIndex := s.memberUserIds.findIdx? (· = filteredUserId)
    | throw (.noTarget "SCIM PATCH member filter did not match a stored member")
  if replacementUserId = filteredUserId then
    return s
  if s.memberUserIds.contains replacementUserId then
    return { s with memberUserIds := s.memberUserIds.eraseIdx targetIndex }
  return { s with memberUserIds := s.memberUserIds.set targetIndex replacementUserId }

def removeMemberUserId (s : ScimGroupPatchState) (userId : UserId) : ScimGroupPatchState :=
  { s with memberUserIds := s.memberUserIds.filter (· ≠ userId) }

end ScimGroupPatchState

/-- The ids that the value of an unfiltered `members` path names. -/
def membersOfPatchValue (valueOnly : Bool) (value : Json) : ScimResult (List UserId) :=
  if valueOnly then scimGroupMemberValueUserIdsFromPatchValue P value
  else scimGroupMemberUserIdsFromPatchValue P value

/-- `replace` is whether the operation is `ScimPatchOp::Replace`; the other one
    that gets here is `ScimPatchOp::Add`. -/
def applyScimGroupPatchPathValue (replace : Bool) (s : ScimGroupPatchState)
    (path : ScimGroupPatchPath) (value : Json) : ScimResult ScimGroupPatchState := match path with
  | .displayName => do
    return { s with displayName := ← scimRequiredStringValue "displayName" value 160 }
  | .externalId => do
    return { s with externalId := ← scimOptionalStringValue "externalId" value 256 }
  | .members none valueOnly => do
    let memberUserIds ← membersOfPatchValue P valueOnly value
    if replace then return { s with memberUserIds := memberUserIds }
    else s.addMemberUserIds memberUserIds
  | .members (some userId) valueOnly =>
    if replace then s.replaceFilteredMemberUserId P userId value valueOnly
    else s.addFilteredMemberUserId P userId value valueOnly
  | .schemas => do
    validateScimGroupSchemasPatchValue value
    return s

def removeScimGroupPatchPath (s : ScimGroupPatchState) (path : ScimGroupPatchPath) :
    ScimResult ScimGroupPatchState := match path with
  | .externalId => .ok { s with externalId := none }
  | .members none _ => .ok { s with memberUserIds := [] }
  | .members (some userId) _ => .ok (s.removeMemberUserId userId)
  | .schemas => .error (.mutability 400 "schemas cannot be removed from Cairn Identity groups")
  | .displayName =>
    .error (.mutability 400 "displayName cannot be removed from Cairn Identity groups")

def applyScimGroupPatchOperation (s : ScimGroupPatchState) (operation : ScimPatchOperation) :
    ScimResult ScimGroupPatchState := do
  match ← ScimPatchOp.parse operation.op with
  | .remove =>
    let some path := operation.path
      | throw (.invalidPath "SCIM PATCH remove requires path")
    removeScimGroupPatchPath s (← scimGroupPatchPath P path)
  | op =>
    let some value := operation.value
      | throw (.invalidValue "SCIM PATCH value is required")
    match operation.path with
    | some path =>
      applyScimGroupPatchPathValue P (op = .replace) s (← scimGroupPatchPath P path) value
    | none =>
      forEachMember (fun s attr value => do
        applyScimGroupPatchPathValue P (op = .replace) s (← scimGroupPatchPath P attr) value) s value

def scimPatchGroupInput (currentGroup : Group) (currentMembers : List ScimGroupMember)
    (payload : ScimPatchRequest) : ScimResult ScimGroupInput := do
  let operations ← payload.intoValidatedOperations
  (← operations.foldlM (applyScimGroupPatchOperation P)
    (.fromGroup currentGroup currentMembers)).intoInput

end groups

end CairnId
