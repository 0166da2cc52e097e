import Legible.Text.Scan
import Legible.Theme.CoreColor
import Legible.Theme.LayerId

/-!
# References between documents

A reference is written as dotted segments between braces.

* `tokens.color.<ramp>.<level>` and `tokens.<category>.<key…>` point at a token.
* `tokens.color.<ramp>` points at a whole ramp.
* `brand.themes.<mode>.<site>` points at a binding of a theme. Without
  `themes.<mode>` the mode is that of whoever follows the reference.
* `brand.<subsystem>.<path…>` points at a property that is written out.

Every other text is kept as it is and points nowhere.
-/

namespace Legible

/-- A place in one mode of a theme where a color or ramp is bound. -/
inductive Site where
  /-- A palette, or one level of it; without a level its primary level. -/
  | palette (key : String) (level : Option Token.Level)
  | core (color : CoreColor) (state : Option InteractiveState)
  | surface (layer : LayerId)
  deriving DecidableEq, Repr

namespace Site

/-- The site of a core color slot. -/
def ofSlot (slot : CoreSlot) : Site := .core slot.color slot.state

/-- The segments of a site in references. -/
def segments : Site → List String
  | .palette key level => ["palettes", key] ++ (level.map Token.Level.text).toList
  | .core color state => "core-colors" :: (CoreSlot.mk color state).segments
  | .surface layer => "layers" :: layer.documentPath ++ ["surface"]

/-- The site that segments spell. -/
def ofSegments? : List String → Option Site
  | ["palettes", key] => some (.palette key none)
  | ["palettes", key, level] =>
      (Token.Level.read? level).map fun level => .palette key (some level)
  | ["core-colors", "interactive", state] =>
      (InteractiveState.read? state).map fun state => .core .interactive (some state)
  | ["core-colors", name] => (CoreColor.read? name).map fun color => .core color none
  | ["layers", "alternative", name, "surface"] => some (.surface (.alternative name))
  | ["layers", layer, "surface"] => (LayerId.read? layer).map .surface
  | _ => none

end Site

/-- What the text of a reference says. -/
inductive Reference where
  | token (path : Token.Path)
  | ramp (name : String)
  | site (mode : Option Mode) (site : Site)
  | property (subsystem : Subsystem) (path : List String)
  /-- A text in none of the known forms. -/
  | unrecognized (text : String)
  deriving DecidableEq, Repr

namespace Reference

/-- The segments of a reference, unless it is unrecognized. -/
def segments? : Reference → Option (List String)
  | .token path => some ("tokens" :: path.segments)
  | .ramp name => some ["tokens", Token.Path.colorCategory, name]
  | .site mode place =>
      some ("brand" ::
        ((mode.map fun mode => ["themes", mode.text]).getD [] ++ place.segments))
  | .property subsystem path => some ("brand" :: subsystem.text :: path)
  | .unrecognized _ => none

/-- The text of a reference. -/
def text (reference : Reference) : String :=
  match reference, reference.segments? with
  | .unrecognized text, _ => text
  | _, segments => "\x7b" ++ String.intercalate "." (segments.getD []) ++ "\x7d"

/-- The reference that segments spell. -/
def ofSegments? : List String → Option Reference
  | ["tokens", "color", family, level] =>
      (Token.Level.read? level).map fun level => .token (Token.Path.color family level)
  | ["tokens", "color", family] => some (.ramp family)
  | "tokens" :: category :: key :: rest =>
      some (.token (Token.Path.plain category (String.intercalate "-" (key :: rest))))
  | "brand" :: "themes" :: mode :: rest => do
      let mode ← Mode.read? mode
      let place ← Site.ofSegments? rest
      pure (.site (some mode) place)
  | "brand" :: rest =>
      match Site.ofSegments? rest, rest with
      | some place, _ => some (.site none place)
      | none, subsystem :: first :: more =>
          (Subsystem.read? subsystem).map fun subsystem => .property subsystem (first :: more)
      | none, _ => none
  | _ => none

/-- The pieces of a text between dots. -/
def pieces (characters : List Char) : List (List Char) :=
  characters.foldr
    (fun character pieces =>
      if character = '.' then [] :: pieces
      else
        match pieces with
        | first :: rest => (character :: first) :: rest
        | [] => [[character]]) [[]]

/-- The segments between the braces of a trimmed text: each has name characters
only, and at least one. -/
def segmentsOf? (characters : List Char) : Option (List String) :=
  match characters with
  | '\x7b' :: opened =>
      match opened.reverse with
      | '\x7d' :: inner =>
          let segments := pieces (Text.trimCharacters inner.reverse)
          if segments.all fun segment => !segment.isEmpty && segment.all Text.isNameCharacter then
            some (segments.map String.ofList)
          else none
      | _ => none
  | _ => none

/-- The reference that a text spells. -/
def read (text : String) : Reference :=
  ((segmentsOf? (Text.trimCharacters text.toList)).bind ofSegments?).getD (.unrecognized text)

end Reference

end Legible
