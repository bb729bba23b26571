import Mathlib.Data.String.Basic
import CairnId.Http.Provisioning
import CairnId.Maps.SortedMap

/-!
# SCIM projections

`scim_projection`: the paths that a request lists, and the resource with or without
the attributes that they name. Objects are maps with their keys in order.
-/

namespace CairnId

def scimProjectionMaxAttributes : Nat := 20

-- values in memory

/-- `serde_json::Map`: the members in the order of their names, the last of a name kept. -/
abbrev JsonMap := List (String × Json)

mutual

/-- The value as it is held in memory. -/
def Json.canon : Json → Json
  | .array items => .array (canonItems items)
  | .object members => .object (canonMembers [] members)
  | value => value

def Json.canonItems : List Json → List Json
  | [] => []
  | item :: items => item.canon :: canonItems items

def Json.canonMembers (held : JsonMap) : List (String × Json) → JsonMap
  | [] => held
  | (key, value) :: members => canonMembers (SortedMap.insert key value.canon held) members

end

-- paths

inductive ScimResourceKind where
  | user
  | group
  deriving DecidableEq

structure ScimProjectionPath where
  top : String
  sub : Option String
  deriving DecidableEq

def ScimProjectionPath.isAlwaysReturned (path : ScimProjectionPath) : Bool :=
  path.top = "schemas" || path.top = "id"

def scimUserProjectionPath (top : String) (sub : Option String) : ScimResult ScimProjectionPath :=
  match top, sub with
  | "schemas", none => .ok ⟨"schemas", none⟩
  | "id", none => .ok ⟨"id", none⟩
  | "externalid", none => .ok ⟨"externalId", none⟩
  | "username", none => .ok ⟨"userName", none⟩
  | "displayname", none => .ok ⟨"displayName", none⟩
  | "active", none => .ok ⟨"active", none⟩
  | "name", none => .ok ⟨"name", none⟩
  | "name", some "formatted" => .ok ⟨"name", some "formatted"⟩
  | "name", some "givenname" => .ok ⟨"name", some "givenName"⟩
  | "name", some "familyname" => .ok ⟨"name", some "familyName"⟩
  | "emails", none => .ok ⟨"emails", none⟩
  | "emails", some "value" => .ok ⟨"emails", some "value"⟩
  | "emails", some "type" => .ok ⟨"emails", some "type"⟩
  | "emails", some "primary" => .ok ⟨"emails", some "primary"⟩
  | "meta", none => .ok ⟨"meta", none⟩
  | "meta", some "resourcetype" => .ok ⟨"meta", some "resourceType"⟩
  | "meta", some "created" => .ok ⟨"meta", some "created"⟩
  | "meta", some "lastmodified" => .ok ⟨"meta", some "lastModified"⟩
  | "meta", some "location" => .ok ⟨"meta", some "location"⟩
  | _, _ => .error (.invalidValue "unsupported SCIM user projection attribute")

def scimGroupProjectionPath (top : String) (sub : Option String) : ScimResult ScimProjectionPath :=
  match top, sub with
  | "schemas", none => .ok ⟨"schemas", none⟩
  | "id", none => .ok ⟨"id", none⟩
  | "externalid", none => .ok ⟨"externalId", none⟩
  | "displayname", none => .ok ⟨"displayName", none⟩
  | "members", none => .ok ⟨"members", none⟩
  | "members", some "value" => .ok ⟨"members", some "value"⟩
  | "members", some "$ref" => .ok ⟨"members", some "$ref"⟩
  | "members", some "display" => .ok ⟨"members", some "display"⟩
  | "members", some "type" => .ok ⟨"members", some "type"⟩
  | "meta", none => .ok ⟨"meta", none⟩
  | "meta", some "resourcetype" => .ok ⟨"meta", some "resourceType"⟩
  | "meta", some "created" => .ok ⟨"meta", some "created"⟩
  | "meta", some "lastmodified" => .ok ⟨"meta", some "lastModified"⟩
  | "meta", some "location" => .ok ⟨"meta", some "location"⟩
  | _, _ => .error (.invalidValue "unsupported SCIM group projection attribute")

def scimProjectionPath (kind : ScimResourceKind) (rawPath : String) :
    ScimResult ScimProjectionPath :=
  let path := stripScimSchema (match kind with
    | .user => scimUserSchema
    | .group => scimGroupSchema) (trim rawPath)
  if path.isEmpty then .error (.invalidValue "SCIM projection attribute cannot be empty")
  else if path.toList.contains '[' || path.toList.contains ']' then
    .error (.invalidValue "filtered SCIM projection attributes are not supported")
  else
    let parts := splitAt '.' path
    if 2 < parts.length || parts.any isBlank then
      .error (.invalidValue "unsupported SCIM projection attribute")
    else
      let top := asciiLowercase (trim (parts.headD ""))
      let sub := (parts[1]?).map fun part => asciiLowercase (trim part)
      match kind with
      | .user => scimUserProjectionPath top sub
      | .group => scimGroupProjectionPath top sub

def scimProjectionPathsFromValues (kind : ScimResourceKind) (values : List String) :
    ScimResult (List ScimProjectionPath) := do
  let paths ← (values.flatMap (splitAt ',')).foldlM (fun paths rawPath => do
    let path ← scimProjectionPath kind rawPath
    let paths := if paths.contains path then paths else paths ++ [path]
    if scimProjectionMaxAttributes < paths.length then
      throw (.invalidValue "too many SCIM projection attributes")
    return paths) []
  if paths.isEmpty then throw (.invalidValue "SCIM projection attributes cannot be empty")
  return paths

def scimProjectionPaths (kind : ScimResourceKind) (value : String) :
    ScimResult (List ScimProjectionPath) :=
  scimProjectionPathsFromValues kind (splitAt ',' value)

-- apply

inductive ScimProjection where
  | default
  | include (paths : List ScimProjectionPath)
  | exclude (paths : List ScimProjectionPath)

def Json.isEmptyObject : Json → Bool
  | .object [] => true
  | _ => false

def scimCopyTopAttribute (source : Json) (target : JsonMap) (attr : String) : JsonMap :=
  match source.get? attr with
  | some value => SortedMap.insert attr value target
  | none => target

def scimRemoveEmptyProjectedArray (target : JsonMap) (attr : String) : JsonMap :=
  match SortedMap.get attr target with
  | some (.array items) =>
    if items.all Json.isEmptyObject then SortedMap.erase attr target else target
  | _ => target

/-- The step for one item of an array. -/
def scimCopyItem (sub : String) (sourceItem targetItem : Json) : Json :=
  match sourceItem.get? sub, targetItem with
  | some value, .object members => .object (SortedMap.insert sub value members)
  | _, targetItem => targetItem

def scimCopyProjectionPath (source : Json) (target : JsonMap) (path : ScimProjectionPath) :
    JsonMap :=
  if path.isAlwaysReturned then scimCopyTopAttribute source target path.top
  else match path.sub with
  | none => scimCopyTopAttribute source target path.top
  | some sub =>
    match source.get? path.top with
    | some (.object sourceObject) =>
      match (Json.object sourceObject).get? sub with
      | none => target
      | some value =>
        match (SortedMap.get path.top target).getD (.object []) with
        | .object members =>
          SortedMap.insert path.top (.object (SortedMap.insert sub value members)) target
        | _ => target
    | some (.array sourceArray) =>
      let blank := List.replicate sourceArray.length (Json.object [])
      match (SortedMap.get path.top target).getD (.array blank) with
      | .array items =>
        let items := if items.length ≠ sourceArray.length then blank else items
        scimRemoveEmptyProjectedArray (SortedMap.insert path.top
          (.array (List.zipWith (scimCopyItem sub) sourceArray items)) target) path.top
      | _ => target
    | _ => target

def scimIncludeProjection (resource : Json) (paths : List ScimProjectionPath) : Json :=
  let projected := scimCopyTopAttribute resource [] "schemas"
  let projected := scimCopyTopAttribute resource projected "id"
  .object (paths.foldl (scimCopyProjectionPath resource) projected)

def scimRemoveProjectionPath (resource : JsonMap) (path : ScimProjectionPath) : JsonMap :=
  if path.isAlwaysReturned then resource
  else match path.sub with
  | none => SortedMap.erase path.top resource
  | some sub =>
    match SortedMap.get path.top resource with
    | some (.object members) =>
      let members := SortedMap.erase sub members
      if members.isEmpty then SortedMap.erase path.top resource
      else SortedMap.insert path.top (.object members) resource
    | some (.array items) =>
      let items := items.map fun item => match item with
        | .object members => .object (SortedMap.erase sub members)
        | item => item
      if items.all Json.isEmptyObject then SortedMap.erase path.top resource
      else SortedMap.insert path.top (.array items) resource
    | _ => resource

/-- A value that is no object has no path to remove. -/
def scimExcludeProjection (resource : Json) (paths : List ScimProjectionPath) : Json :=
  match resource with
  | .object members => .object (paths.foldl scimRemoveProjectionPath members)
  | resource => resource

def scimApplyProjection (resource : Json) : ScimProjection → Json
  | .default => resource
  | .include paths => scimIncludeProjection resource paths
  | .exclude paths => scimExcludeProjection resource paths

end CairnId
