import CairnId.Database.Listings
import CairnId.Http.ScimInput

/-!
# SCIM filters

`scim_query/filter.rs`: a filter is split into conditions, and each of them sets a
field of the list filter; with the queries that use the list filters.
-/

namespace CairnId

structure ScimUserListFilter where
  userNameEq : Option String := none
  externalIdEq : Option String := none
  activeEq : Option Bool := none
  deriving DecidableEq

structure ScimGroupListFilter where
  displayNameEq : Option String := none
  externalIdEq : Option String := none
  deriving DecidableEq

/-- `optional_filter_string`, a copy of `optional_scim_string`. -/
def optionalFilterString (field : String) (value : Option String) (maxLen : Nat) :
    ScimResult (Option String) := optionalScimString field value maxLen

def asciiKeywordAt (chars : List Char) (keyword : String) : Bool :=
  (chars.take keyword.length).map toAsciiLowercase = keyword.toList

/-- A condition between two keywords; `condition` is in reverse order. -/
def scimAndCondition (condition : List Char) : ScimResult String :=
  let condition := trim (String.ofList condition.reverse)
  if condition.isEmpty then .error (.invalidFilter "empty SCIM filter condition") else .ok condition

/-- The loop of `split_scim_and_conditions`, with the characters since `start` in
    reverse order and the number of characters that a keyword leaves to skip. -/
def splitScimAndConditionsLoop (skip : Nat) (inString escaped : Bool) (condition : List Char) :
    List Char → ScimResult (List String)
  | [] => do
    if inString then throw (.invalidFilter "unterminated SCIM filter string")
    return [← scimAndCondition condition]
  | c :: chars =>
    if 0 < skip then splitScimAndConditionsLoop (skip - 1) false false [] chars
    else if escaped then splitScimAndConditionsLoop 0 inString false (c :: condition) chars
    else if inString && c = backslash then
      splitScimAndConditionsLoop 0 inString true (c :: condition) chars
    else if c = quotationMark then
      splitScimAndConditionsLoop 0 (!inString) false (c :: condition) chars
    else if !inString && asciiKeywordAt (c :: chars) " and " then do
      let condition ← scimAndCondition condition
      return condition :: (← splitScimAndConditionsLoop (" and ".length - 1) false false [] chars)
    else splitScimAndConditionsLoop 0 inString false (c :: condition) chars

def splitScimAndConditions (value : String) : ScimResult (List String) :=
  splitScimAndConditionsLoop 0 false false [] value.toList

def scimUserFilterStep (filter : ScimUserListFilter) (condition : String) :
    ScimResult ScimUserListFilter := do
  let (attr, rawValue) ← scimEqCondition condition
  match asciiLowercase attr with
  | "username" =>
    if filter.userNameEq.isSome then throw (.invalidFilter "duplicate userName filter")
    return { filter with userNameEq := some (← scimNormalizeEmail (← scimFilterString rawValue)) }
  | "externalid" =>
    if filter.externalIdEq.isSome then throw (.invalidFilter "duplicate externalId filter")
    let externalId ← scimFilterString rawValue
    return { filter with
      externalIdEq := ← optionalFilterString "externalId" (some externalId) 256 }
  | "active" =>
    if filter.activeEq.isSome then throw (.invalidFilter "duplicate active filter")
    match trim rawValue with
    | "true" => return { filter with activeEq := some true }
    | "false" => return { filter with activeEq := some false }
    | _ => throw (.invalidFilter "active filter must be boolean")
  | _ => throw (.invalidFilter "unsupported SCIM filter attribute")

def scimUserFilter (value : String) : ScimResult ScimUserListFilter := do
  (← splitScimAndConditions value).foldlM scimUserFilterStep {}

def scimGroupFilterStep (filter : ScimGroupListFilter) (condition : String) :
    ScimResult ScimGroupListFilter := do
  let (attr, rawValue) ← scimEqCondition condition
  match asciiLowercase attr with
  | "displayname" =>
    if filter.displayNameEq.isSome then throw (.invalidFilter "duplicate displayName filter")
    let displayName ← scimFilterString rawValue
    match ← optionalFilterString "displayName" (some displayName) 160 with
    | some displayName => return { filter with displayNameEq := some displayName }
    | none => throw (.invalidFilter "displayName filter cannot be empty")
  | "externalid" =>
    if filter.externalIdEq.isSome then throw (.invalidFilter "duplicate externalId filter")
    let externalId ← scimFilterString rawValue
    match ← optionalFilterString "externalId" (some externalId) 256 with
    | some externalId => return { filter with externalIdEq := some externalId }
    | none => throw (.invalidFilter "externalId filter cannot be empty")
  | _ => throw (.invalidFilter "unsupported SCIM filter attribute")

def scimGroupFilter (value : String) : ScimResult ScimGroupListFilter := do
  (← splitScimAndConditions value).foldlM scimGroupFilterStep {}

namespace Database

section listings

variable {α : Type}

/-- `ORDER BY created_at DESC, id DESC OFFSET $n LIMIT $m`, with the number of rows. -/
def offsetPage (cursor : α → ListCursor) (startIndex count : Int) (rows : List α) :
    Nat × List α :=
  (rows.length, ((rows.insertionSort fun a b => cursor b ≤ cursor a).drop
    (startIndex - 1).toNat).take count.toNat)

def scimUsersMatching (db : Db) (organizationId : OrganizationId) (filter : ScimUserListFilter) :
    List User :=
  ((db .users).map (·.user)).filter fun user =>
    user.organizationId = organizationId &&
    filter.userNameEq.all (user.email = ·) &&
    filter.externalIdEq.all (user.scimExternalId = some ·) &&
    filter.activeEq.all fun active => if active then user.status = .active else user.status ≠ .active

def listScimUsersPageFiltered (db : Db) (organizationId : OrganizationId)
    (filter : ScimUserListFilter) (startIndex count : Int) : Nat × List User :=
  offsetPage (fun user => ⟨user.createdAt, user.id⟩) startIndex count
    (scimUsersMatching db organizationId filter)

def scimGroupsMatching (db : Db) (organizationId : OrganizationId) (filter : ScimGroupListFilter) :
    List Group :=
  (db .groups).filter fun group =>
    group.organizationId = organizationId &&
    filter.displayNameEq.all (group.displayName = ·) &&
    filter.externalIdEq.all (group.scimExternalId = some ·)

def listScimGroupsPageFiltered (db : Db) (organizationId : OrganizationId)
    (filter : ScimGroupListFilter) (startIndex count : Int) : Nat × List Group :=
  offsetPage (fun group => ⟨group.createdAt, group.id⟩) startIndex count
    (scimGroupsMatching db organizationId filter)

end listings

end Database

end CairnId
