import PageMarkup.Proofs.Registry.Catalogs

/-! # Which configurations make a registry

A configuration makes a registry if its names, its credits and its destinations are in
order. Otherwise the first fault is told: repeated contributors come before credits of
people who are not listed, and these before media files that repeat a name or a
destination. The registry of a configuration has an entry for everything that is listed,
and a name finds the one that it is the name of, whatever the case.
-/

namespace PageMarkup

/-- What a contributor is found by. -/
def Contributor.key (contributor : Contributor) : String := Text.lower contributor.username

/-- What a media file is found by. -/
def MediaDefinition.key (definition : MediaDefinition) : String := Text.lower definition.name

/-- Where a media file goes, which its name tells if nothing else does. -/
def MediaDefinition.destination (definition : MediaDefinition) : String :=
  definition.dstPath.getD ("media/" ++ definition.name)

/-- What a media file is found by, once it has its paths. -/
def MediaAsset.key (asset : MediaAsset) : String := Text.lower asset.name

namespace RegistryConfig

/-- Somebody of the name is listed, whatever the case. -/
def Knows (config : RegistryConfig) (username : String) : Prop :=
  ∃ contributor ∈ config.contributors, contributor.key = Text.lower username

instance (config : RegistryConfig) (username : String) : Decidable (config.Knows username) :=
  inferInstanceAs (Decidable (∃ contributor ∈ config.contributors,
    contributor.key = Text.lower username))

/-- A configuration that is in order. -/
structure Valid (config : RegistryConfig) : Prop where
  usernames : (config.contributors.map Contributor.key).Nodup
  credits : ∀ definition ∈ config.media, ∀ username ∈ definition.contributors,
    config.Knows username
  names : (config.media.map MediaDefinition.key).Nodup
  destinations : (config.media.map MediaDefinition.destination).Nodup

instance (config : RegistryConfig) : Decidable config.Valid :=
  decidable_of_iff
    ((config.contributors.map Contributor.key).Nodup ∧
      (∀ definition ∈ config.media, ∀ username ∈ definition.contributors,
        config.Knows username) ∧
      (config.media.map MediaDefinition.key).Nodup ∧
      (config.media.map MediaDefinition.destination).Nodup)
    ⟨fun ⟨husernames, hcredits, hnames, hdestinations⟩ =>
      ⟨husernames, hcredits, hnames, hdestinations⟩,
      fun ⟨husernames, hcredits, hnames, hdestinations⟩ =>
        ⟨husernames, hcredits, hnames, hdestinations⟩⟩

/-- The fault that a configuration is refused for. -/
inductive Faulty (config : RegistryConfig) : RegistryFault → Prop
  /-- The first contributor with the name of an earlier one. -/
  | contributor {before after : List Contributor} {contributor : Contributor}
      (hsplit : config.contributors = before ++ contributor :: after)
      (hbefore : (before.map Contributor.key).Nodup)
      (hrepeated : contributor.key ∈ before.map Contributor.key) :
      Faulty config (.duplicateContributor contributor.key)
  /-- The first name that the first media file with such a name credits without its being
  listed. -/
  | credit {before after : List MediaDefinition} {definition : MediaDefinition}
      {known others : List String} {username : String}
      (husernames : (config.contributors.map Contributor.key).Nodup)
      (hsplit : config.media = before ++ definition :: after)
      (hbefore : ∀ earlier ∈ before, ∀ username ∈ earlier.contributors, config.Knows username)
      (hcredited : definition.contributors = known ++ username :: others)
      (hknown : ∀ username ∈ known, config.Knows username)
      (hunknown : ¬config.Knows username) :
      Faulty config (.unknownAssetContributor definition.name username)
  /-- The first media file that has something in common with an earlier one, its name. -/
  | name {before after : List MediaDefinition} {definition : MediaDefinition}
      (husernames : (config.contributors.map Contributor.key).Nodup)
      (hcredits : ∀ other ∈ config.media, ∀ username ∈ other.contributors, config.Knows username)
      (hsplit : config.media = before ++ definition :: after)
      (hnames : (before.map MediaDefinition.key).Nodup)
      (hdestinations : (before.map MediaDefinition.destination).Nodup)
      (hrepeated : definition.key ∈ before.map MediaDefinition.key) :
      Faulty config (.duplicateAsset definition.name)
  /-- The first media file that has something in common with an earlier one, not its name
  but its destination. -/
  | destination {before after : List MediaDefinition} {definition : MediaDefinition}
      (husernames : (config.contributors.map Contributor.key).Nodup)
      (hcredits : ∀ other ∈ config.media, ∀ username ∈ other.contributors, config.Knows username)
      (hsplit : config.media = before ++ definition :: after)
      (hnames : (before.map MediaDefinition.key).Nodup)
      (hdestinations : (before.map MediaDefinition.destination).Nodup)
      (hnew : definition.key ∉ before.map MediaDefinition.key)
      (hshared : definition.destination ∈ before.map MediaDefinition.destination) :
      Faulty config (.duplicateDestination definition.name definition.destination)

end RegistryConfig

/-- A registry has what a configuration lists, and finds it by name. -/
structure Registry.Presents (registry : Registry) (config : RegistryConfig) : Prop where
  /-- Every contributor is there once, in the order of the names. -/
  contributors : registry.contributors.values.Perm config.contributors ∧
    (registry.contributors.values.map Contributor.key).Pairwise (· < ·)
  /-- Every media file is there once, in the order of the names. -/
  media : registry.media.values.Perm (config.media.map MediaDefinition.asset) ∧
    (registry.media.values.map MediaAsset.key).Pairwise (· < ·)
  /-- A name finds the contributor whose name it is. -/
  contributor?_eq_some : ∀ username contributor,
    registry.contributor? username = some contributor ↔
      contributor ∈ config.contributors ∧ contributor.key = Text.lower username
  /-- A name finds the media file whose name it is. -/
  asset?_eq_some : ∀ name asset,
    registry.asset? name = some asset ↔
      ∃ definition ∈ config.media, definition.key = Text.lower name ∧ definition.asset = asset
  /-- Pages find the same contributors. -/
  registries_contributor? : registry.registries.contributor? = registry.contributor?
  /-- Pages find the same media files, with their names, addresses and descriptions. -/
  registries_media?_eq_some : ∀ name media,
    registry.registries.media? name = some media ↔
      ∃ definition ∈ config.media, definition.key = Text.lower name ∧
        media =
          { name := definition.name
            link := "/spud-wiki/" ++ definition.destination
            description := definition.description }

namespace Registry

/-- A contributor is refused if an earlier one has the name. -/
def RefusesContributor (before : List Contributor) (contributor : Contributor)
    (fault : RegistryFault) : Prop :=
  contributor.key ∈ before.map Contributor.key ∧ fault = .duplicateContributor contributor.key

/-- A media file is refused if an earlier one has the name or else the destination. -/
def RefusesAsset (before : List MediaAsset) (asset : MediaAsset) (fault : RegistryFault) : Prop :=
  (asset.key ∈ before.map MediaAsset.key ∧ fault = .duplicateAsset asset.name) ∨
    (asset.key ∉ before.map MediaAsset.key ∧ asset.dstPath ∈ before.map MediaAsset.dstPath ∧
      fault = .duplicateDestination asset.name asset.dstPath)

theorem admits_addContributor :
    Catalog.Admits addContributor Contributor.key RefusesContributor where
  refuse := by
    rintro catalog items contributor fault hlists ⟨hused, rfl⟩
    exact if_pos (hlists.contains_iff.mpr hused)
  accept := by
    intro catalog items contributor hlists haccepted
    have hnew : contributor.key ∉ items.map Contributor.key := fun hused =>
      haccepted _ ⟨hused, rfl⟩
    exact ⟨if_neg fun hused => hnew (hlists.contains_iff.mp hused), hnew⟩

theorem any_dstPath {catalog : Catalog MediaAsset} {items : List MediaAsset}
    (hlists : catalog.Lists MediaAsset.key items) (path : String) :
    catalog.values.any (·.dstPath == path) = true ↔ path ∈ items.map MediaAsset.dstPath := by
  rw [List.any_eq_true, List.mem_map]
  simp only [hlists.values_perm.mem_iff, beq_iff_eq]

theorem admits_addAsset : Catalog.Admits addAsset MediaAsset.key RefusesAsset where
  refuse := by
    rintro catalog items asset fault hlists (⟨hused, rfl⟩ | ⟨hnew, hshared, rfl⟩)
    · exact if_pos (hlists.contains_iff.mpr hused)
    · refine (if_neg fun hused => hnew (hlists.contains_iff.mp hused)).trans ?_
      exact if_pos ((any_dstPath hlists _).mpr hshared)
  accept := by
    intro catalog items asset hlists haccepted
    have hnew : asset.key ∉ items.map MediaAsset.key := fun hused => haccepted _ (.inl ⟨hused, rfl⟩)
    have hown : asset.dstPath ∉ items.map MediaAsset.dstPath := fun hshared =>
      haccepted _ (.inr ⟨hnew, hshared, rfl⟩)
    refine ⟨(if_neg fun hused => hnew (hlists.contains_iff.mp hused)).trans ?_, hnew⟩
    exact if_neg fun hshared => hown ((any_dstPath hlists _).mp hshared)

theorem refusesContributor_iff {before : List Contributor} {contributor : Contributor} :
    (∃ fault, RefusesContributor before contributor fault) ↔
      contributor.key ∈ before.map Contributor.key := by
  simp [RefusesContributor]

theorem refusesAsset_iff {before : List MediaAsset} {asset : MediaAsset} :
    (∃ fault, RefusesAsset before asset fault) ↔
      asset.key ∈ before.map MediaAsset.key ∨ asset.dstPath ∈ before.map MediaAsset.dstPath := by
  simp only [RefusesAsset]
  grind

/-- Contributors are accepted if no name occurs twice. -/
theorem passes_contributors {contributors : List Contributor} :
    Passes (fun before contributor => ∃ fault, RefusesContributor before contributor fault)
        contributors ↔
      (contributors.map Contributor.key).Nodup := by
  simp only [refusesContributor_iff]
  exact Passes.nodup_iff

/-- Media files are accepted if no name and no destination occurs twice. -/
theorem passes_assets {assets : List MediaAsset} :
    Passes (fun before asset => ∃ fault, RefusesAsset before asset fault) assets ↔
      (assets.map MediaAsset.key).Nodup ∧ (assets.map MediaAsset.dstPath).Nodup := by
  simp only [refusesAsset_iff]
  rw [Passes.or_iff, Passes.nodup_iff, Passes.nodup_iff]

theorem map_key_asset (media : List MediaDefinition) :
    (media.map MediaDefinition.asset).map MediaAsset.key = media.map MediaDefinition.key := by
  rw [List.map_map]
  rfl

theorem map_dstPath_asset (media : List MediaDefinition) :
    (media.map MediaDefinition.asset).map MediaAsset.dstPath =
      media.map MediaDefinition.destination := by
  rw [List.map_map]
  rfl

end Registry

namespace RegistryConfig

variable {config : RegistryConfig} {contributors : Catalog Contributor}
  {definition : MediaDefinition}

/-! ## Credits -/

theorem contains_iff_knows (hlists : contributors.Lists Contributor.key config.contributors)
    {username : String} : contributors.contains (Text.lower username) = true ↔
      config.Knows username := by
  rw [hlists.contains_iff, List.mem_map]
  rfl

theorem checkCredits_ok (hlists : contributors.Lists Contributor.key config.contributors)
    (hcredits : ∀ username ∈ definition.contributors, config.Knows username) :
    Registry.checkCredits contributors definition.asset = .ok () := by
  have hnone : definition.contributors.find?
      (fun username => !contributors.contains (Text.lower username)) = none :=
    List.find?_eq_none.mpr fun username hmem => by
      simp [(contains_iff_knows hlists).mpr (hcredits username hmem)]
  rw [Registry.checkCredits]
  simp only [MediaDefinition.asset, hnone]

theorem checkCredits_error (hlists : contributors.Lists Contributor.key config.contributors)
    {known others : List String} {username : String}
    (hcredited : definition.contributors = known ++ username :: others)
    (hknown : ∀ username ∈ known, config.Knows username) (hunknown : ¬config.Knows username) :
    Registry.checkCredits contributors definition.asset =
      .error (.unknownAssetContributor definition.name username) := by
  have hfind : definition.contributors.find?
      (fun username => !contributors.contains (Text.lower username)) = some username := by
    rw [List.find?_eq_some_iff_append]
    refine ⟨?_, known, others, hcredited, fun name hmem => ?_⟩
    · simpa using mt (contains_iff_knows hlists).mp hunknown
    · simpa using (contains_iff_knows hlists).mpr (hknown name hmem)
  rw [Registry.checkCredits]
  simp only [MediaDefinition.asset, hfind]

theorem forM_checkCredits_ok (hlists : contributors.Lists Contributor.key config.contributors)
    {media : List MediaDefinition}
    (hcredits : ∀ definition ∈ media, ∀ username ∈ definition.contributors,
      config.Knows username) :
    (media.map MediaDefinition.asset).forM (Registry.checkCredits contributors) = .ok () := by
  induction media with
  | nil => rfl
  | cons definition rest ih =>
      obtain ⟨hfirst, hrest⟩ := List.forall_mem_cons.mp hcredits
      rw [List.map_cons, List.forM, checkCredits_ok hlists hfirst]
      exact ih hrest

theorem forM_checkCredits_error (hlists : contributors.Lists Contributor.key config.contributors)
    {before : List MediaDefinition} (after : List MediaDefinition) {fault : RegistryFault}
    (hbefore : ∀ definition ∈ before, ∀ username ∈ definition.contributors,
      config.Knows username)
    (hfault : Registry.checkCredits contributors definition.asset = .error fault) :
    ((before ++ definition :: after).map MediaDefinition.asset).forM
      (Registry.checkCredits contributors) = .error fault := by
  induction before with
  | nil =>
      rw [List.nil_append, List.map_cons, List.forM, hfault]
      rfl
  | cons earlier rest ih =>
      obtain ⟨hfirst, hrest⟩ := List.forall_mem_cons.mp hbefore
      rw [List.cons_append, List.map_cons, List.forM, checkCredits_ok hlists hfirst]
      exact ih hrest

/-! ## Building -/

theorem exists_contributors (husernames : (config.contributors.map Contributor.key).Nodup) :
    ∃ contributors, config.contributors.foldlM Registry.addContributor {} = .ok contributors ∧
      contributors.Lists Contributor.key config.contributors :=
  Registry.admits_addContributor.foldlM_ok (Registry.passes_contributors.mpr husernames)

theorem build_of_contributors
    (hcontributors : config.contributors.foldlM Registry.addContributor {} = .ok contributors) :
    config.build = do
      (config.media.map MediaDefinition.asset).forM (Registry.checkCredits contributors)
      let media ← (config.media.map MediaDefinition.asset).foldlM Registry.addAsset {}
      return ⟨contributors, media⟩ := by
  rw [build, hcontributors]
  rfl

theorem build_of_credits
    (hcontributors : config.contributors.foldlM Registry.addContributor {} = .ok contributors)
    (hcredits : (config.media.map MediaDefinition.asset).forM
      (Registry.checkCredits contributors) = .ok ()) :
    config.build =
      ((config.media.map MediaDefinition.asset).foldlM Registry.addAsset {}).map
        fun media => ⟨contributors, media⟩ := by
  rw [build_of_contributors hcontributors, hcredits]
  rfl

theorem presents_of_lists {media : Catalog MediaAsset}
    (hcontributors : contributors.Lists Contributor.key config.contributors)
    (hmedia : media.Lists MediaAsset.key (config.media.map MediaDefinition.asset)) :
    Registry.Presents ⟨contributors, media⟩ config where
  contributors := ⟨hcontributors.values_perm, hcontributors.values_ascending⟩
  media := ⟨hmedia.values_perm, hmedia.values_ascending⟩
  contributor?_eq_some _ _ := hcontributors.get?_eq_some
  asset?_eq_some name asset := by
    rw [Registry.asset?, hmedia.get?_eq_some, List.mem_map]
    constructor
    · rintro ⟨⟨definition, hmem, rfl⟩, hkey⟩
      exact ⟨definition, hmem, hkey, rfl⟩
    · rintro ⟨definition, hmem, hkey, rfl⟩
      exact ⟨⟨definition, hmem, rfl⟩, hkey⟩
  registries_contributor? := rfl
  registries_media?_eq_some name found := by
    simp only [Registry.registries, Registry.asset?, Option.map_eq_some_iff, hmedia.get?_eq_some,
      List.mem_map]
    constructor
    · rintro ⟨_, ⟨⟨definition, hmem, rfl⟩, hkey⟩, rfl⟩
      exact ⟨definition, hmem, hkey, rfl⟩
    · rintro ⟨definition, hmem, hkey, rfl⟩
      exact ⟨_, ⟨⟨definition, hmem, rfl⟩, hkey⟩, rfl⟩

/-- A configuration that is in order makes a registry. -/
theorem Valid.exists_registry (hvalid : config.Valid) :
    ∃ registry, config.build = .ok registry ∧ registry.Presents config := by
  obtain ⟨contributors, hcontributors, hlists⟩ := exists_contributors hvalid.usernames
  obtain ⟨media, hmedia, hassets⟩ := Registry.admits_addAsset.foldlM_ok <|
    Registry.passes_assets.mpr
      ⟨Registry.map_key_asset _ ▸ hvalid.names, Registry.map_dstPath_asset _ ▸ hvalid.destinations⟩
  refine ⟨⟨contributors, media⟩, ?_, presents_of_lists hlists hassets⟩
  rw [build_of_credits hcontributors (forM_checkCredits_ok hlists hvalid.credits), hmedia]
  rfl

/-- A media file that is refused puts an end to building. -/
theorem build_of_refused {before after : List MediaDefinition} {fault : RegistryFault}
    (husernames : (config.contributors.map Contributor.key).Nodup)
    (hcredits : ∀ other ∈ config.media, ∀ username ∈ other.contributors, config.Knows username)
    (hsplit : config.media = before ++ definition :: after)
    (hnames : (before.map MediaDefinition.key).Nodup)
    (hdestinations : (before.map MediaDefinition.destination).Nodup)
    (hrefused : Registry.RefusesAsset (before.map MediaDefinition.asset) definition.asset fault) :
    config.build = .error fault := by
  obtain ⟨contributors, hcontributors, hlists⟩ := exists_contributors husernames
  have hpasses := Registry.passes_assets.mpr
    ⟨Registry.map_key_asset _ ▸ hnames, Registry.map_dstPath_asset _ ▸ hdestinations⟩
  rw [build_of_credits hcontributors (forM_checkCredits_ok hlists hcredits), hsplit,
    List.map_append, List.map_cons, Registry.admits_addAsset.foldlM_error hpasses hrefused]
  rfl

/-- A configuration that has a fault is refused for it. -/
theorem Faulty.build_eq {fault : RegistryFault} (hfaulty : config.Faulty fault) :
    config.build = .error fault := by
  cases hfaulty with
  | contributor hsplit hbefore hrepeated =>
      have hfold := Registry.admits_addContributor.foldlM_error
        (Registry.passes_contributors.mpr hbefore) ⟨hrepeated, rfl⟩
      rw [build, hsplit, hfold]
      rfl
  | credit husernames hsplit hbefore hcredited hknown hunknown =>
      obtain ⟨contributors, hcontributors, hlists⟩ := exists_contributors husernames
      have hcheck := checkCredits_error hlists hcredited hknown hunknown
      rw [build_of_contributors hcontributors, hsplit,
        forM_checkCredits_error hlists _ hbefore hcheck]
      rfl
  | name husernames hcredits hsplit hnames hdestinations hrepeated =>
      refine build_of_refused husernames hcredits hsplit hnames hdestinations (.inl ⟨?_, rfl⟩)
      rwa [Registry.map_key_asset]
  | destination husernames hcredits hsplit hnames hdestinations hnew hshared =>
      refine build_of_refused husernames hcredits hsplit hnames hdestinations (.inr ⟨?_, ?_, rfl⟩)
      · rwa [Registry.map_key_asset]
      · rwa [Registry.map_dstPath_asset]

/-- A configuration is in order or has a fault. -/
theorem valid_or_faulty (config : RegistryConfig) :
    config.Valid ∨ ∃ fault, config.Faulty fault := by
  -- The cases are split in the order of the checks, since a fault is told only if all that is
  -- looked at before is in order.
  rcases Passes.or_first (fun before (contributor : Contributor) =>
      contributor.key ∈ before.map Contributor.key) config.contributors with
    husernames | ⟨before, contributor, after, hsplit, hbefore, hrepeated⟩
  case inr => exact .inr ⟨_, .contributor hsplit (Passes.nodup_iff.mp hbefore) hrepeated⟩
  rw [Passes.nodup_iff] at husernames
  rcases Passes.or_first (fun _ (definition : MediaDefinition) =>
      ¬∀ username ∈ definition.contributors, config.Knows username) config.media with
    hcredits | ⟨before, definition, after, hsplit, hbefore, hunknown⟩
  case inr =>
    rcases Passes.or_first (fun _ username => ¬config.Knows username) definition.contributors with
      hknown | ⟨known, username, others, hcredited, hknown, hunknown⟩
    · exact absurd (fun name hmem => not_not.mp (Passes.forall_iff.mp hknown name hmem)) hunknown
    · exact .inr ⟨_, .credit husernames hsplit
        (fun earlier hmem => not_not.mp (Passes.forall_iff.mp hbefore earlier hmem)) hcredited
        (fun name hmem => not_not.mp (Passes.forall_iff.mp hknown name hmem)) hunknown⟩
  have hcredits : ∀ definition ∈ config.media, ∀ username ∈ definition.contributors,
      config.Knows username := fun definition hmem =>
    not_not.mp (Passes.forall_iff.mp hcredits definition hmem)
  rcases Passes.or_first (fun before (definition : MediaDefinition) =>
      definition.key ∈ before.map MediaDefinition.key ∨
        definition.destination ∈ before.map MediaDefinition.destination) config.media with
    hpasses | ⟨before, definition, after, hsplit, hbefore, hcommon⟩
  · rw [Passes.or_iff, Passes.nodup_iff, Passes.nodup_iff] at hpasses
    exact .inl ⟨husernames, hcredits, hpasses.1, hpasses.2⟩
  · rw [Passes.or_iff, Passes.nodup_iff, Passes.nodup_iff] at hbefore
    by_cases hname : definition.key ∈ before.map MediaDefinition.key
    · exact .inr ⟨_, .name husernames hcredits hsplit hbefore.1 hbefore.2 hname⟩
    · exact .inr ⟨_, .destination husernames hcredits hsplit hbefore.1 hbefore.2 hname
        (hcommon.resolve_left hname)⟩

/-- A registry that is made of a configuration presents it. -/
theorem presents_of_build {registry : Registry} (hbuild : config.build = .ok registry) :
    registry.Presents config := by
  rcases config.valid_or_faulty with hvalid | ⟨fault, hfaulty⟩
  · obtain ⟨other, hother, hpresents⟩ := hvalid.exists_registry
    cases hbuild.symm.trans hother
    exact hpresents
  · cases hbuild.symm.trans hfaulty.build_eq

/-- A registry is made of a configuration exactly if that is in order, and then it presents
just what is configured. A configuration that is not in order is refused for its first
fault, and for nothing else. -/
theorem build_outcome (config : RegistryConfig) :
    ((∃ registry, config.build = .ok registry) ↔ config.Valid) ∧
      (∀ fault, config.build = .error fault ↔ config.Faulty fault) ∧
      ∀ registry, config.build = .ok registry → registry.Presents config := by
  refine ⟨⟨?_, fun hvalid => ?_⟩, fun fault => ⟨fun herror => ?_, Faulty.build_eq⟩,
    fun registry => presents_of_build⟩
  · rintro ⟨registry, hbuild⟩
    rcases config.valid_or_faulty with hvalid | ⟨fault, hfaulty⟩
    · exact hvalid
    · cases hbuild.symm.trans hfaulty.build_eq
  · obtain ⟨registry, hbuild, -⟩ := hvalid.exists_registry
    exact ⟨registry, hbuild⟩
  · rcases config.valid_or_faulty with hvalid | ⟨other, hfaulty⟩
    · obtain ⟨registry, hbuild, -⟩ := hvalid.exists_registry
      cases hbuild.symm.trans herror
    · cases hfaulty.build_eq.symm.trans herror
      exact hfaulty

end RegistryConfig

end PageMarkup
