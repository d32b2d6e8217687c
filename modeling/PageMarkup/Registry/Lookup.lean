import PageMarkup.Html
import PageMarkup.Text.Letter.Lower

/-!
# Lookups

While a page is compiled, contributors and media are looked up by name. A page does not care where
they come from, so `Registries` is a pair of functions. Names are compared without case: plain lists
ignore ASCII case only and give their first match.
-/

namespace PageMarkup

/-- Somebody whom pages credit. -/
structure Contributor where
  username : String
  /-- Colour of the credit as hexadecimal digits. -/
  color : String
  /-- The channel, where it differs from the user name. -/
  twitchUsername : Option String := none
  deriving DecidableEq, Repr, Inhabited

namespace Contributor

/-- Name of the channel. -/
def twitch (contributor : Contributor) : String :=
  contributor.twitchUsername.getD contributor.username

/-- The credit of a contributor: a link to the channel, in the forced colour if there is one. -/
def creditHtml (contributor : Contributor) (forcedColor : Option String) : String :=
  "<a target=\"_blank\" rel=\"noopener noreferrer\" class=\"tw-name\" "
    ++ "href=\"https://www.twitch.tv/" ++ Html.escapeAttribute contributor.twitch
    ++ "\" style=\"color:#" ++ Html.escapeAttribute (forcedColor.getD contributor.color)
    ++ "\">" ++ Html.escapeText contributor.username ++ "</a>"

/-- First contributor of a list with the name, ASCII case ignored. -/
def find? (contributors : List Contributor) (username : String) : Option Contributor :=
  contributors.find? fun contributor =>
    Text.eqIgnoringAsciiCase contributor.username username

end Contributor

/-- A media file as pages see it. -/
structure Media where
  name : String
  /-- Where the file is published. -/
  link : String
  /-- The caption of an embed that gives none. -/
  description : String
  deriving DecidableEq, Repr, Inhabited

/-- First media file of a list with the name, ASCII case ignored. -/
def Media.find? (media : List Media) (name : String) : Option Media :=
  media.find? fun item => Text.eqIgnoringAsciiCase item.name name

/-- What a page can look up. -/
structure Registries where
  contributor? : String → Option Contributor
  media? : String → Option Media

namespace Registries

/-- Registries that know nobody and nothing. -/
def empty : Registries := ⟨fun _ => none, fun _ => none⟩

/-- Registries over plain lists. -/
def ofLists (contributors : List Contributor) (media : List Media) : Registries :=
  ⟨Contributor.find? contributors, Media.find? media⟩

/-- What is shown of registries: their name. Lookups are functions and have no text. -/
def text : String := "Registries \x7b .. \x7d"

end Registries

end PageMarkup
