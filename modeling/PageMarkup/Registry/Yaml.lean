import PageMarkup.Registry.Basic
import PageMarkup.Yaml.Parser

/-!
# Configurations in YAML

Records are mappings; unknown keys are ignored and a known one may occur once. Every scalar is a
text, whatever it looks like. Where a text is optional, a plain scalar that is empty or says null
stands for an absent one; where a list or a record is wanted, nothing at all stands for an empty
one. A text without any document is the empty configuration.
-/

namespace PageMarkup

namespace Yaml

/-- The text of a scalar. -/
def text? : Yaml → Option String
  | .scalar text _ => some text
  | _ => none

/-- Plain scalars that say null. -/
def nullTexts : List String := ["", "~", "null", "Null", "NULL"]

/-- The text of a scalar, or none for a plain null. -/
def optionalText? : Yaml → Option (Option String)
  | .scalar text true => some (if nullTexts.contains text then none else some text)
  | .scalar text false => some (some text)
  | _ => none

/-- A sequence whose elements can all be read. -/
def list? {α : Type} (read : Yaml → Option α) : Yaml → Option (List α)
  | .sequence elements => elements.mapM read
  | .scalar "" true => some []
  | _ => none

/-- The entries of a record, whose keys are scalars. -/
def record? : Yaml → Option (List (String × Yaml))
  | .mapping entries => entries.mapM fun (key, value) => key.text?.map fun key => (key, value)
  | .scalar "" true => some []
  | _ => none

/-- The value of a field; `none` if the key occurs twice, `some none` if it does not occur. -/
def field? (entries : List (String × Yaml)) (key : String) : Option (Option Yaml) :=
  match entries.filter (·.1 == key) with
  | [] => some none
  | [(_, value)] => some (some value)
  | _ => none

/-- Reads a field that must be there. -/
def required? {α : Type} (entries : List (String × Yaml)) (read : Yaml → Option α)
    (key : String) : Option α := do
  read (← ← field? entries key)

/-- Reads a field that has a default. -/
def withDefault? {α : Type} (entries : List (String × Yaml)) (read : Yaml → Option α)
    (default : α) (key : String) : Option α := do
  match ← field? entries key with
  | none => some default
  | some value => read value

end Yaml

/-- Reads a contributor. -/
def Contributor.ofYaml? (value : Yaml) : Option Contributor := do
  let entries ← value.record?
  return {
    username := ← Yaml.required? entries Yaml.text? "username"
    color := ← Yaml.required? entries Yaml.text? "color"
    twitchUsername := ← Yaml.withDefault? entries Yaml.optionalText? none "twitchUsername" }

/-- Reads the definition of a media file. -/
def MediaDefinition.ofYaml? (value : Yaml) : Option MediaDefinition := do
  let entries ← value.record?
  return {
    name := ← Yaml.required? entries Yaml.text? "name"
    description := ← Yaml.required? entries Yaml.text? "description"
    contributors := ← Yaml.withDefault? entries (Yaml.list? Yaml.text?) [] "contributors"
    srcPath := ← Yaml.withDefault? entries Yaml.optionalText? none "srcPath"
    dstPath := ← Yaml.withDefault? entries Yaml.optionalText? none "dstPath" }

namespace RegistryConfig

/-- Reads a configuration. -/
def ofYaml? (value : Yaml) : Option RegistryConfig := do
  let entries ← value.record?
  return {
    contributors := ← Yaml.withDefault? entries (Yaml.list? Contributor.ofYaml?) [] "contributors"
    media := ← Yaml.withDefault? entries (Yaml.list? MediaDefinition.ofYaml?) [] "media" }

/-- The configuration that a YAML text holds. -/
def ofYamlText (text : String) : Except RegistryFault RegistryConfig :=
  match Yaml.parse? text with
  | none => .error (.unreadable .yaml)
  | some none => .ok {}
  | some (some value) =>
    match ofYaml? value with
    | some config => .ok config
    | none => .error (.unreadable .yaml)

end RegistryConfig

end PageMarkup
