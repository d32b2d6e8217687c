import PageMarkup.Proofs.Json.RoundTrip
import PageMarkup.Registry.Json

/-! # Configurations survive as text

Every record is written as an object that has each of its fields once, or not at all where a
field is absent, so each field is found again under its own name. The objects hold nothing
but text, and so the text of a configuration is read as the configuration.
-/

namespace PageMarkup

namespace Json

theorem wellFormed_ofList {α : Type} {encode : α → Json} {values : List α}
    (hencode : ∀ value, (encode value).WellFormed) : (ofList encode values).WellFormed :=
  .array (List.forall_mem_map.mpr fun value _ => hencode value)

theorem list?_ofList {α : Type} {encode : α → Json} {read : Json → Option α}
    (hread : ∀ value, read (encode value) = some value) (values : List α) :
    list? read (ofList encode values) = some values := by
  have hpure : read ∘ encode = (pure : α → Option α) := funext hread
  rw [ofList, list?, List.mapM_map, hpure]
  exact List.mapM_pure.trans (congrArg some (List.map_id values))

/-- A field that may be absent. -/
theorem wellFormed_optionalMember (key : String) (text : Option String) :
    ∀ member ∈ (text.map fun text => (key, Json.string text)).toList, member.2.WellFormed := by
  cases text with
  | none => exact fun _ hmember => absurd hmember List.not_mem_nil
  | some text => exact List.forall_mem_singleton.mpr (.string text)

end Json

theorem Contributor.wellFormed_toJson (contributor : Contributor) :
    contributor.toJson.WellFormed := by
  refine .object (List.forall_mem_append.mpr ⟨?_, Json.wellFormed_optionalMember _ _⟩)
  exact List.forall_mem_cons.mpr ⟨.string _, List.forall_mem_singleton.mpr (.string _)⟩

theorem MediaDefinition.wellFormed_toJson (definition : MediaDefinition) :
    definition.toJson.WellFormed := by
  refine .object (List.forall_mem_append.mpr
    ⟨List.forall_mem_append.mpr ⟨?_, Json.wellFormed_optionalMember _ _⟩,
      Json.wellFormed_optionalMember _ _⟩)
  have hcontributors : (Json.ofList Json.string definition.contributors).WellFormed :=
    Json.wellFormed_ofList .string
  exact List.forall_mem_cons.mpr ⟨.string _,
    List.forall_mem_cons.mpr ⟨.string _, List.forall_mem_singleton.mpr hcontributors⟩⟩

theorem Contributor.ofJson?_toJson (contributor : Contributor) :
    ofJson? contributor.toJson = some contributor := by
  obtain ⟨username, color, twitchUsername⟩ := contributor
  cases twitchUsername <;> simp [ofJson?, toJson, Json.fields?, Json.member?, Json.required?,
    Json.text?, Json.withDefault?, Json.optionalText?]

theorem MediaDefinition.ofJson?_toJson (definition : MediaDefinition) :
    ofJson? definition.toJson = some definition := by
  obtain ⟨name, description, contributors, srcPath, dstPath⟩ := definition
  have hname : ∀ name, Json.text? (Json.string name) = some name := fun _ => rfl
  have hcontributors := Json.list?_ofList hname contributors
  cases srcPath <;> cases dstPath <;> simp [ofJson?, toJson, Json.fields?, Json.member?,
    Json.required?, Json.text?, Json.withDefault?, Json.optionalText?, hcontributors]

namespace RegistryConfig

theorem ofJson?_toJson (config : RegistryConfig) : ofJson? config.toJson = some config := by
  have hcontributors := Json.list?_ofList Contributor.ofJson?_toJson config.contributors
  have hmedia := Json.list?_ofList MediaDefinition.ofJson?_toJson config.media
  simp [ofJson?, toJson, Json.fields?, Json.member?, Json.withDefault?, hcontributors, hmedia]

theorem wellFormed_toJson (config : RegistryConfig) : config.toJson.WellFormed :=
  .object (List.forall_mem_cons.mpr
    ⟨Json.wellFormed_ofList Contributor.wellFormed_toJson,
      List.forall_mem_singleton.mpr
        (Json.wellFormed_ofList MediaDefinition.wellFormed_toJson)⟩)

/-- A configuration is what its JSON text is read as. -/
theorem ofJsonText_toJsonText (config : RegistryConfig) :
    ofJsonText config.toJsonText = .ok config := by
  rw [ofJsonText, toJsonText, Json.parse?_render config.wellFormed_toJson, Option.bind_some,
    ofJson?_toJson]

end RegistryConfig

end PageMarkup
