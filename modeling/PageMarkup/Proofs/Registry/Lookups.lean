import Mathlib.Data.Option.Basic
import PageMarkup.Proofs.Registry.Validity
import PageMarkup.Proofs.Text.Case

/-! # Lookups without case

A list of contributors is searched without regard to ASCII case, a registry without regard
to any case. Texts that differ in ASCII case only have the same lower case, so a list finds
nobody whom the registry made of it does not find. The other way round this holds of ASCII
names: a list does not find the contributor whose name has another accented capital.
-/

namespace PageMarkup

namespace Text

/-- Only ASCII characters occur in the text. -/
def IsAscii (s : String) : Prop := ∀ c ∈ s.toList, c.toNat < 0x80

instance (s : String) : Decidable (IsAscii s) :=
  List.decidableBAll (fun c : Char => c.toNat < 0x80) s.toList

theorem lowerFrom_of_ascii (before : List Char) {cs : List Char}
    (hascii : ∀ c ∈ cs, c.toNat < 0x80) : lowerFrom before cs = cs.map Char.toLower := by
  induction cs generalizing before with
  | nil => rfl
  | cons c rest ih =>
      obtain ⟨hc, hrest⟩ := List.forall_mem_cons.mp hascii
      have hsigma : c.toNat ≠ 0x3A3 := by omega
      rw [lowerFrom, if_neg hsigma, lowerChar, if_pos hc, ih _ hrest]
      rfl

/-- ASCII texts with the same lower case differ in ASCII case only. -/
theorem IsAscii.eqIgnoringAsciiCase {s t : String} (hs : IsAscii s) (ht : IsAscii t)
    (heq : lower s = lower t) : eqIgnoringAsciiCase s t = true := by
  rw [lower, lower, lowerFrom_of_ascii [] hs, lowerFrom_of_ascii [] ht] at heq
  exact beq_iff_eq.mpr heq

end Text

namespace RegistryConfig

variable {config : RegistryConfig} {registry : Registry}

theorem hasContributor_eq (config : RegistryConfig) (username : String) :
    config.hasContributor username = (Contributor.find? config.contributors username).isSome := by
  rw [hasContributor, Contributor.find?, List.isSome_find?]

/-- A list finds those whom the registry finds, as far as their names differ in ASCII case
only. -/
theorem find?_eq_filter (hpresents : registry.Presents config) (username : String) :
    Contributor.find? config.contributors username =
      (registry.contributor? username).filter
        (Text.eqIgnoringAsciiCase ·.username username) := by
  ext contributor
  have hfound : ∀ other, Contributor.find? config.contributors username = some other →
      registry.contributor? username = some other ∧
        Text.eqIgnoringAsciiCase other.username username = true := fun other hfind => by
    have hequal := List.find?_some hfind
    refine ⟨(hpresents.contributor?_eq_some ..).mpr ⟨List.mem_of_find?_eq_some hfind, ?_⟩, hequal⟩
    exact Text.lower_eq_of_eqIgnoringAsciiCase hequal
  rw [Option.filter_eq_some_iff]
  refine ⟨hfound contributor, fun ⟨hregistry, hequal⟩ => ?_⟩
  have hmem := ((hpresents.contributor?_eq_some ..).mp hregistry).1
  cases hfind : Contributor.find? config.contributors username with
  | none => exact absurd hequal (List.find?_eq_none.mp hfind contributor hmem)
  | some other => rw [← (hfound other hfind).1, hregistry]

/-- A configuration and the list in it find the same people, namely those whom the registry
finds under a name that differs in ASCII case only. All of them agree on ASCII names. -/
theorem build_lookups (hbuild : config.build = .ok registry) (username : String) :
    config.hasContributor username = (Contributor.find? config.contributors username).isSome ∧
      Contributor.find? config.contributors username =
        (registry.contributor? username).filter
          (Text.eqIgnoringAsciiCase ·.username username) ∧
      (Text.IsAscii username →
        (∀ contributor ∈ config.contributors, Text.IsAscii contributor.username) →
          Contributor.find? config.contributors username = registry.contributor? username) := by
  have hpresents := presents_of_build hbuild
  refine ⟨hasContributor_eq config username, find?_eq_filter hpresents username,
    fun husername hlisted => ?_⟩
  rw [find?_eq_filter hpresents]
  cases hfound : registry.contributor? username with
  | none => rfl
  | some contributor =>
      obtain ⟨hmem, hkey⟩ := (hpresents.contributor?_eq_some ..).mp hfound
      rw [Option.filter_some, if_pos ((hlisted contributor hmem).eqIgnoringAsciiCase husername hkey)]

/-- Two people, of whom one is looked up in other letters. -/
def lookupExample : RegistryConfig :=
  { contributors := [{ username := "Ann", color := "00e700" }, { username := "bob", color := "daa520" }] }

/-- Ann is found in all three ways. -/
theorem build_lookups_ascii : ∃ registry, lookupExample.build = .ok registry ∧
    lookupExample.hasContributor "aNN" = true ∧
    Contributor.find? lookupExample.contributors "aNN" = registry.contributor? "aNN" := by
  have hvalid : lookupExample.Valid := by decide +kernel
  obtain ⟨registry, hbuild, -⟩ := hvalid.exists_registry
  obtain ⟨hlisted, -, hascii⟩ := build_lookups hbuild "aNN"
  refine ⟨registry, hbuild, ?_, hascii (by decide +kernel) (by decide +kernel)⟩
  rw [hlisted]
  decide +kernel

/-- One person, whose name begins with an accented capital. -/
def accentedExample : RegistryConfig :=
  { contributors := [{ username := "É", color := "00e700" }] }

/-- Somebody whose name begins with an accented capital is found in the registry under the
name in small letters, and in no other way. -/
theorem build_lookups_accented : ∃ registry, accentedExample.build = .ok registry ∧
    registry.contributor? "é" = some { username := "É", color := "00e700" } ∧
    Contributor.find? accentedExample.contributors "é" = none ∧
    accentedExample.hasContributor "é" = false := by
  have hvalid : accentedExample.Valid := by decide +kernel
  obtain ⟨registry, hbuild, hpresents⟩ := hvalid.exists_registry
  have hkey : Contributor.key { username := "É", color := "00e700" } = Text.lower "é" := by
    decide +kernel
  exact ⟨registry, hbuild,
    (hpresents.contributor?_eq_some ..).mpr ⟨List.mem_cons_self, hkey⟩,
    by decide +kernel, by decide +kernel⟩

end RegistryConfig

end PageMarkup
