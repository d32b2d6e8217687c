import PageMarkup.Registry.Lookup

/-!
# Registry configurations

What a registry is made from: a list of contributors and a list of media files as somebody wrote
them down. Paths may be left out; they then follow from the name of the file.
-/

namespace PageMarkup

/-- A media file as it is written in a configuration. -/
structure MediaDefinition where
  name : String
  description : String
  /-- User names of those who made the file. -/
  contributors : List String := []
  srcPath : Option String := none
  dstPath : Option String := none
  deriving DecidableEq, Repr, Inhabited

/-- A media file with its paths. -/
structure MediaAsset where
  name : String
  description : String
  contributors : List String
  /-- The file itself. -/
  srcPath : String
  /-- Where the file goes below the root of the site. -/
  dstPath : String
  deriving DecidableEq, Repr, Inhabited

namespace MediaAsset

/-- Public address of the file. -/
def link (asset : MediaAsset) : String := "/spud-wiki/" ++ asset.dstPath

/-- Where a build puts the file. -/
def buildPath (asset : MediaAsset) : String := "./build/" ++ asset.dstPath

/-- The file as pages see it. -/
def media (asset : MediaAsset) : Media := ⟨asset.name, asset.link, asset.description⟩

end MediaAsset

/-- The file that a definition describes, with the paths that its name implies where none is
given. -/
def MediaDefinition.asset (definition : MediaDefinition) : MediaAsset :=
  { name := definition.name
    description := definition.description
    contributors := definition.contributors
    srcPath := definition.srcPath.getD ("./src/media/" ++ definition.name)
    dstPath := definition.dstPath.getD ("media/" ++ definition.name) }

/-- A configuration. -/
structure RegistryConfig where
  contributors : List Contributor := []
  media : List MediaDefinition := []
  deriving DecidableEq, Repr, Inhabited

namespace RegistryConfig

/-- Whether a contributor of the name is listed, ASCII case ignored. -/
def hasContributor (config : RegistryConfig) (username : String) : Bool :=
  config.contributors.any fun contributor =>
    Text.eqIgnoringAsciiCase contributor.username username

/-- The configuration that is used where none is given. -/
def builtIn : RegistryConfig :=
  { contributors :=
      [ ⟨"19_meg_91", "00e700", none⟩
      , ⟨"BlueStrategosJ", "359bff", none⟩
      , ⟨"Kawaiitron", "00e700", some "Kawaiitron_"⟩
      , ⟨"Matty5957", "daa520", none⟩
      , ⟨"Spammer92", "92ff00", some "Spammer_92"⟩
      , ⟨"waarisdetaart", "daa520", none⟩ ]
    media :=
      [ { name := "favicon.ico"
          description := "Website icon."
          contributors := ["matty5957"]
          dstPath := some "favicon.ico" }
      , { name := "logo.png"
          description := "Website logo."
          contributors := ["matty5957"] } ] }

end RegistryConfig

end PageMarkup
