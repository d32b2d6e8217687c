import PageMarkup.Json.Parser
import PageMarkup.Registry.Basic

/-!
# Configurations in JSON

A record may be written as an object or as an array of its fields in order. In an object unknown
members are ignored, whatever they hold, and a known one may occur once. In an array fields that
have a default may be left out at the end. Null stands for an absent text where a text is optional,
and is refused everywhere else.
-/

namespace PageMarkup

namespace Json

/-- A string. -/
def text? : Json → Option String
  | .string text => some text
  | _ => none

/-- A string or null, which stands for none. -/
def optionalText? : Json → Option (Option String)
  | .null => some none
  | .string text => some (some text)
  | _ => none

/-- An array whose elements can all be read. -/
def list? {α : Type} (read : Json → Option α) : Json → Option (List α)
  | .array elements => elements.mapM read
  | _ => none

/-- The value of a member; `none` if the key occurs twice, `some none` if it does not occur. -/
def member? (members : List (String × Json)) (key : String) : Option (Option Json) :=
  match members.filter (·.1 == key) with
  | [] => some none
  | [(_, value)] => some (some value)
  | _ => none

/-- The values of the named fields of a record, absent ones at `none`. -/
def fields? (names : List String) : Json → Option (List (Option Json))
  | .object members => names.mapM (member? members)
  | .array elements =>
    if elements.length ≤ names.length then
      some (elements.map some ++ List.replicate (names.length - elements.length) none)
    else none
  | _ => none

/-- Reads a field that must be there. -/
def required? {α : Type} (read : Json → Option α) (field : Option Json) : Option α :=
  field.bind read

/-- Reads a field that has a default. -/
def withDefault? {α : Type} (read : Json → Option α) (default : α) : Option Json → Option α
  | none => some default
  | some value => read value

end Json

namespace Contributor

/-- Reads a contributor. -/
def ofJson? (value : Json) : Option Contributor := do
  match ← Json.fields? ["username", "color", "twitchUsername"] value with
  | [username, color, twitchUsername] =>
    return {
      username := ← Json.required? Json.text? username
      color := ← Json.required? Json.text? color
      twitchUsername := ← Json.withDefault? Json.optionalText? none twitchUsername }
  | _ => none

/-- A contributor as an object; an absent channel is left out. -/
def toJson (contributor : Contributor) : Json :=
  .object
    ([("username", .string contributor.username), ("color", .string contributor.color)]
      ++ (contributor.twitchUsername.map fun name => ("twitchUsername", Json.string name)).toList)

end Contributor

namespace MediaDefinition

/-- Reads the definition of a media file. -/
def ofJson? (value : Json) : Option MediaDefinition := do
  match ← Json.fields? ["name", "description", "contributors", "srcPath", "dstPath"] value with
  | [name, description, contributors, srcPath, dstPath] =>
    return {
      name := ← Json.required? Json.text? name
      description := ← Json.required? Json.text? description
      contributors := ← Json.withDefault? (Json.list? Json.text?) [] contributors
      srcPath := ← Json.withDefault? Json.optionalText? none srcPath
      dstPath := ← Json.withDefault? Json.optionalText? none dstPath }
  | _ => none

/-- The definition of a media file as an object; absent paths are left out. -/
def toJson (definition : MediaDefinition) : Json :=
  .object
    ([ ("name", .string definition.name)
     , ("description", .string definition.description)
     , ("contributors", Json.ofList Json.string definition.contributors) ]
      ++ (definition.srcPath.map fun path => ("srcPath", Json.string path)).toList
      ++ (definition.dstPath.map fun path => ("dstPath", Json.string path)).toList)

end MediaDefinition

namespace RegistryConfig

/-- Reads a configuration. -/
def ofJson? (value : Json) : Option RegistryConfig := do
  match ← Json.fields? ["contributors", "media"] value with
  | [contributors, media] =>
    return {
      contributors := ← Json.withDefault? (Json.list? Contributor.ofJson?) [] contributors
      media := ← Json.withDefault? (Json.list? MediaDefinition.ofJson?) [] media }
  | _ => none

/-- A configuration as an object. -/
def toJson (config : RegistryConfig) : Json :=
  .object
    [ ("contributors", Json.ofList Contributor.toJson config.contributors)
    , ("media", Json.ofList MediaDefinition.toJson config.media) ]

/-- The configuration that a JSON text holds. -/
def ofJsonText (text : String) : Except RegistryFault RegistryConfig :=
  match (Json.parse? text).bind ofJson? with
  | some config => .ok config
  | none => .error (.unreadable .json)

/-- A configuration as a JSON text. -/
def toJsonText (config : RegistryConfig) : String := config.toJson.render

end RegistryConfig

end PageMarkup
