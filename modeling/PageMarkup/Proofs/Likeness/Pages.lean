import PageMarkup.Proofs.Directive.Lifting
import PageMarkup.Proofs.Likeness.Output

/-! # Likeness of whole pages

Pages whose bodies are alike show bodies that are alike. The closest likeness asks for
the same texts at any places; pages that are that much alike have the same HTML and the
same headings.
-/

namespace PageMarkup

open Node

variable {L : Likeness}

theorem Rule.Stable.pruneEmpty {rule : Rule} (hrule : rule.Stable) {forest : Forest}
    (hforest : forest.Obeys rule) : forest.pruneEmpty.1.Obeys rule :=
  Tree.forestObeys_pruneEmpty @hrule.fewer hforest

namespace Forest

/-- A page without directives still has plain names. -/
theorem plainName_body {source : Source} {forest : Forest}
    (hforest : Forest.ofLexemes source.lexemes = .ok forest) (hcheck : forest.check = .ok ()) :
    (Directive.body source forest.pruneEmpty.1).Obeys PlainName := by
  have hpruned := Rule.stable_plainName.pruneEmpty (plainName_of_check hforest hcheck)
  exact hpruned.subset List.filter_sublist.subset

namespace Like

variable {body other : Forest}

theorem lifted {C : String → String → Prop} (hlike : Forest.Like L C body other) :
    Forest.Like L C body.lifted other.lifted := by
  have hpruned : Forest.Like L C body.pruneEmpty.1 other.pruneEmpty.1 :=
    (Tree.forestLike_pruneEmpty hlike).1
  exact hpruned.filter fun htree => by rw [Directive.isLine, Directive.isLine, htree.kind]

theorem arranged {C : String → String → Prop} (hlike : Forest.Like L C body other) :
    Forest.Like L C body.arranged other.arranged :=
  hlike.mergeQuotes.trimNewlines.paragraphs

/-- Bodies that are alike are presented alike. Their contents are related by any relation
between the texts that stand for each other and those that may as well be the same. -/
theorem presented {C : String → String → Prop} (hC : ∀ a b, L.text a b → C a b)
    (hshown : ∀ a b, C a b → L.Shown a b) {registries : Registries}
    (hmedia : Embed.Registered C registries) {definitions definitions' : List Directive}
    (hdefinitions : List.Forall₂ (Directive.Like L) definitions definitions')
    (hbody : body.Obeys PlainName) (hlike : Forest.Like L L.text body other) :
    Forest.Like L C (body.presented registries definitions).1
        (other.presented registries definitions').1 ∧
      List.Forall₂ (Heading.Like C) (body.presented registries definitions).2
        (other.presented registries definitions').2 := by
  have hstable := Rule.stable_plainName
  have hmerged : body.mergeQuotes.Obeys PlainName := hbody.mergeQuotes hstable
  have harranged : body.arranged.Obeys PlainName := hmerged.trimNewlines.paragraphs hstable
  have hnotes := (Note.like_resolve hdefinitions harranged hlike.arranged).1
  have hlinked := (Link.like_resolveExternals hnotes).1
  have hembedded := (Embed.like_resolveAll hC hmedia hlinked).1
  have hkept : Forest.Like L C (body.arranged.resolved registries definitions)
      (other.arranged.resolved registries definitions') := hembedded.dropBlankHeadings.1
  obtain ⟨hslugged, hheadings⟩ := hkept.slugHeadings hC hshown
  have hlowered := Tree.forestLike_lower hslugged
  simp only [Forest.presented, Forest.lower]
  constructor
  · exact hlowered
  · exact hheadings

end Like

end Forest

/-! ## The same texts -/

theorem Forest.eq_of_rel {α : Type} {R : α → α → Prop} (hR : ∀ {a b}, R a b → a = b)
    {xs ys : List α} (hlists : List.Forall₂ R xs ys) : xs = ys := by
  induction hlists with
  | nil => rfl
  | cons hhead _ ih => rw [hR hhead, ih]

/-- The likeness of pages with the same texts at any places. -/
def Likeness.exact : Likeness where
  text := Eq
  placed := False
  plain _ := rfl
  append := by rintro a _ c _ rfl rfl; rfl
  isEmpty := by rintro a _ rfl; rfl
  isBlank := by rintro a _ rfl; rfl
  trimStart := by rintro a _ rfl; rfl
  trimEnd := by rintro a _ rfl; rfl
  link := by rintro a _ rfl; exact ⟨rfl, rfl⟩
  embed := by
    rintro a _ rfl
    refine ⟨rfl, rfl, rfl, ?_⟩
    cases (Embed.parse a).caption with
    | none => exact .none
    | some caption => exact .some rfl
  slug hparts := by
    rw [Forest.eq_of_rel or_self_iff.mp hparts]

/-- Lexemes that have only moved are alike. -/
theorem Lexeme.like_map {f g : Lexeme → Lexeme}
    (hfg : ∀ lexeme, (f lexeme).kind = (g lexeme).kind ∧ (f lexeme).text = (g lexeme).text)
    (lexemes : List Lexeme) :
    List.Forall₂ (Lexeme.Like .exact) (lexemes.map f) (lexemes.map g) := by
  induction lexemes with
  | nil => exact .nil
  | cons lexeme rest ih =>
      obtain ⟨hkind, htext⟩ := hfg lexeme
      exact .cons ⟨hkind, htext, fun _ => htext, nofun⟩ ih

theorem Likeness.shown_exact {a b : String} : exact.Shown a b ↔ a = b := or_self_iff

/-- Elements with the same texts are the same. -/
theorem Element.Like.eq_of_exact {element other : Element}
    (hlike : element.Like .exact Likeness.exact.Shown other) : element = other := by
  obtain ⟨tag, attributes, content⟩ := element
  obtain ⟨tag', attributes', content'⟩ := other
  obtain ⟨rfl : tag = tag', hattributes, hcontent⟩ := hlike
  obtain rfl : attributes = attributes' := Forest.eq_of_rel
    (fun hentry => Prod.ext hentry.1 (Likeness.shown_exact.mp hentry.2.1)) hattributes
  dsimp only at hcontent
  cases hcontent with
  | none => rfl
  | some hsome => rw [Likeness.shown_exact.mp hsome]

theorem Html.Piece.Like.eq_of_exact {piece other : Html.Piece}
    (hlike : Piece.Like .exact piece other) : piece = other := by
  cases hlike with
  | openTag helement => rw [helement.eq_of_exact]
  | closeTag => rfl
  | whole helement => rw [helement.eq_of_exact]
  | text htext => rw [show _ = _ from htext]

/-- Pages with the same texts have the same HTML. -/
theorem Forest.Like.html_eq {forest other : Forest}
    (hlike : Forest.Like .exact Likeness.exact.Shown forest other) : forest.html = other.html := by
  have hpieces : Tree.forestPieces forest = Tree.forestPieces other :=
    Forest.eq_of_rel Html.Piece.Like.eq_of_exact (Tree.forestLike_pieces hlike)
  rw [Forest.html, Forest.html, hpieces]

/-- Headings with the same texts are the same. -/
theorem Heading.eq_of_exact {headings others : List Heading}
    (hlike : List.Forall₂ (Heading.Like Likeness.exact.Shown) headings others) : headings = others := by
  refine Forest.eq_of_rel (fun {heading other} hlike => ?_) hlike
  obtain ⟨depth, slug, text⟩ := heading
  obtain ⟨depth', slug', text'⟩ := other
  obtain ⟨rfl : depth = depth', rfl : slug = slug', parts, others, hparts, htext, htext'⟩ := hlike
  have heq : parts = others := Forest.eq_of_rel Likeness.shown_exact.mp hparts
  dsimp only at htext htext'
  rw [htext, htext', heq]

end PageMarkup
