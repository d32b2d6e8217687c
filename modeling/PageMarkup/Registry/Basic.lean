import PageMarkup.Registry.Config

/-!
# Registries

A configuration that is in order is made into a registry: two catalogs in which names are found
whatever their case. A configuration is in order when no two contributors and no two media files
share a name, every file credits listed contributors, and no two files go to the same place.
-/

namespace PageMarkup

/-- Values under keys that ascend by code point, each key once. -/
structure Catalog (α : Type) where
  entries : List (String × α) := []
  deriving Repr, Inhabited

namespace Catalog

variable {α : Type}

/-- The value under a key. -/
def get? (catalog : Catalog α) (key : String) : Option α :=
  (catalog.entries.find? (·.1 == key)).map (·.2)

/-- Whether there is a value under a key. -/
def contains (catalog : Catalog α) (key : String) : Bool := (catalog.get? key).isSome

/-- Puts an entry before the first with a greater key. -/
def insertEntry (key : String) (value : α) : List (String × α) → List (String × α)
  | [] => [(key, value)]
  | entry :: rest =>
    if key < entry.1 then (key, value) :: entry :: rest
    else entry :: insertEntry key value rest

/-- Adds a value under a key that is not in use. -/
def insert (catalog : Catalog α) (key : String) (value : α) : Catalog α :=
  ⟨insertEntry key value catalog.entries⟩

/-- The values in the order of their keys. -/
def values (catalog : Catalog α) : List α := catalog.entries.map (·.2)

/-- Number of entries. -/
def size (catalog : Catalog α) : Nat := catalog.entries.length

/-- Whether there is no entry. -/
def isEmpty (catalog : Catalog α) : Bool := catalog.entries.isEmpty

end Catalog

/-- Languages a configuration may be written in. -/
inductive ConfigFormat where
  | yaml
  | json
  deriving DecidableEq, Repr

/-- Why there is no registry. -/
inductive RegistryFault where
  /-- The text is no configuration in its language. -/
  | unreadable (format : ConfigFormat)
  /-- Two contributors share a name; the name is told in lower case. -/
  | duplicateContributor (username : String)
  /-- Two media files share a name. -/
  | duplicateAsset (name : String)
  /-- Two media files go to the same place. -/
  | duplicateDestination (name path : String)
  /-- A media file credits somebody who is not listed. -/
  | unknownAssetContributor (name username : String)
  deriving DecidableEq, Repr

namespace RegistryFault

/-- The wording of a fault. -/
def message : RegistryFault → String
  | .unreadable .yaml => "invalid YAML registry"
  | .unreadable .json => "invalid JSON registry"
  | .duplicateContributor username =>
    "contributor '" ++ username ++ "' is listed more than once"
  | .duplicateAsset name => "media asset '" ++ name ++ "' is listed more than once"
  | .duplicateDestination name path =>
    "media asset '" ++ name ++ "' would be copied to '" ++ path ++ "', like another asset"
  | .unknownAssetContributor name username =>
    "media asset '" ++ name ++ "' credits unknown contributor '" ++ username ++ "'"

end RegistryFault

/-- Catalogs of contributors and media files, keyed by lower-cased name. -/
structure Registry where
  contributors : Catalog Contributor := {}
  media : Catalog MediaAsset := {}
  deriving Repr, Inhabited

namespace Registry

/-- The contributor of a name. -/
def contributor? (registry : Registry) (username : String) : Option Contributor :=
  registry.contributors.get? (Text.lower username)

/-- The media file of a name. -/
def asset? (registry : Registry) (name : String) : Option MediaAsset :=
  registry.media.get? (Text.lower name)

/-- The registry as pages look things up in it. -/
def registries (registry : Registry) : Registries :=
  ⟨registry.contributor?, fun name => (registry.asset? name).map MediaAsset.media⟩

/-- Adds a contributor to a catalog. -/
def addContributor (catalog : Catalog Contributor) (contributor : Contributor) :
    Except RegistryFault (Catalog Contributor) :=
  let key := Text.lower contributor.username
  if catalog.contains key then .error (.duplicateContributor key)
  else .ok (catalog.insert key contributor)

/-- Accepts a media file if everybody it credits is in the catalog. -/
def checkCredits (catalog : Catalog Contributor) (asset : MediaAsset) :
    Except RegistryFault Unit :=
  match asset.contributors.find? fun username => !catalog.contains (Text.lower username) with
  | some username => .error (.unknownAssetContributor asset.name username)
  | none => .ok ()

/-- Adds a media file to a catalog. Its name is looked at before its destination. -/
def addAsset (catalog : Catalog MediaAsset) (asset : MediaAsset) :
    Except RegistryFault (Catalog MediaAsset) :=
  let key := Text.lower asset.name
  if catalog.contains key then .error (.duplicateAsset asset.name)
  else if catalog.values.any (·.dstPath == asset.dstPath) then
    .error (.duplicateDestination asset.name asset.dstPath)
  else .ok (catalog.insert key asset)

end Registry

/-- The registry of a configuration. Contributors are looked at first, then the credits of all
media files, then their names and destinations. -/
def RegistryConfig.build (config : RegistryConfig) : Except RegistryFault Registry := do
  let contributors ← config.contributors.foldlM Registry.addContributor {}
  let assets := config.media.map MediaDefinition.asset
  assets.forM (Registry.checkCredits contributors)
  let media ← assets.foldlM Registry.addAsset {}
  return ⟨contributors, media⟩

end PageMarkup
