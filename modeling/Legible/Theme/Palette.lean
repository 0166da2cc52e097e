import Legible.Theme.Anchor

/-!
# Palettes

A palette binds a key to a whole ramp. Each level gives a tone and, while the black
and white anchors are there, an on-tone: the anchor that is legible on the tone, or
the better one when both or neither are. The level marked as primary gives a second
pair of properties. An on-tone that is not legible is reported; only the ramp itself
could mend it.
-/

namespace Legible

open Property

/-- The anchor chosen for a tone. -/
structure OnTone where
  slot : CoreSlot
  anchor : Anchor
  ratio : ContrastRatio
  deriving DecidableEq, Repr

namespace OnTone

/-- Whether the anchor is legible on the tone. -/
def isLegible (onTone : OnTone) : Bool := decide (ContrastRatio.threshold ≤ onTone.ratio)

/-- The one of two candidates that is legible; when both or neither are, the one with
more contrast, and the first when they are equal. -/
def better (first second : OnTone) : OnTone :=
  match first.isLegible, second.isLegible with
  | true, false => first
  | false, true => second
  | _, _ => if second.ratio ≤ first.ratio then first else second

/-- Chooses black or white for a tone. -/
def choose (tone : Color) (black white : Anchor) : OnTone :=
  better ⟨.black, black, ContrastRatio.between tone black.color⟩
    ⟨.white, white, ContrastRatio.between tone white.color⟩

end OnTone

/-- A level of a palette with its tone and on-tone. -/
structure PaletteLevel where
  level : Token.Level
  tone : Anchor
  onTone : Option OnTone
  deriving DecidableEq, Repr

/-- A palette of one mode. -/
structure Palette where
  key : String
  /-- The name of the ramp. -/
  ramp : String
  primary : Option Token.Level
  levels : List PaletteLevel
  deriving DecidableEq, Repr

namespace Palette

/-- The level as property names spell it. -/
def levelSegment (level : Option Token.Level) : String :=
  (level.map Token.Level.text).getD "primary"

/-- The property of a tone; without a level the primary one. -/
def toneProperty (mode : Mode) (key : String) (level : Option Token.Level) : Name :=
  Name.brand mode .palettes [key, levelSegment level, "tone"]

/-- The property of an on-tone; without a level the primary one. -/
def onToneProperty (mode : Mode) (key : String) (level : Option Token.Level) : Name :=
  Name.brand mode .palettes [key, levelSegment level, "on-tone"]

/-- The entry of a level. -/
def level? (palette : Palette) (level : Token.Level) : Option PaletteLevel :=
  palette.levels.find? fun entry => entry.level == level

/-- The level marked as primary, and the issue of a mark that names no level. -/
def resolvePrimary (resolver : Resolver) (key : String) (ramp : Ramp) :
    Option Token.Level × List Issue :=
  match resolver.primaryText? resolver.mode key with
  | none => (none, [])
  | some text =>
      match (Token.Level.read? text).filter fun level => (ramp.color? level).isSome with
      | some level => (some level, [])
      | none =>
          let path := Resolver.palettePath resolver.mode key ++ ["$primary"]
          (none,
            [Issue.warning .reference (String.intercalate "." path)
              (Text.quote text ++ " is not a level of ramp " ++ Text.quote ramp.name)])

/-- The ramp that a palette binds, or what is said about its binding. -/
def resolveRamp (resolver : Resolver) (key : String) : Except String Ramp :=
  let text := (resolver.theme.leafText? (Resolver.palettePath resolver.mode key)).getD ""
  let reference := Reference.read text
  match resolver.resolve reference with
  | .ok (.ramp name) =>
      match resolver.index.ramp? name with
      | some ramp => .ok ramp
      | none => .error (ReferenceError.unknownRamp name).message
  | .ok (.token path) => .error ("palette must bind a whole ramp, found " ++ path.text)
  | .error error => .error error.message

/-- The levels of a ramp with their on-tones. -/
def levelsOf (ramp : Ramp) (anchors : Anchors) : List PaletteLevel :=
  ramp.colors.toList.map fun (level, color) =>
    { level
      tone := ⟨ramp.path level, color⟩
      onTone := anchors.contrasting?.map fun (black, white) => OnTone.choose color black white }

/-- The issues of an on-tone that is not legible: one for its own property, and one
for the primary property where the level is primary. -/
def onToneIssues (mode : Mode) (key : String) (primary : Option Token.Level)
    (entry : PaletteLevel) : List Issue :=
  match entry.onTone with
  | some onTone =>
      if onTone.isLegible then []
      else
        let names := some entry.level :: if primary = some entry.level then [none] else []
        names.map fun level =>
          (Issue.warning .onTone (onToneProperty mode key level).text
            ("neither black nor white reaches AA on " ++ entry.tone.token.text)).withRatio
            onTone.ratio.toFloat
  | none => []

/-- The palette under a key, and the issues about it. -/
def resolve (resolver : Resolver) (anchors : Anchors) (key : String) :
    Option Palette × List Issue :=
  let locus := String.intercalate "." (Resolver.palettePath resolver.mode key)
  match resolveRamp resolver key with
  | .error failure => (none, [Issue.warning .reference locus failure])
  | .ok ramp =>
      let (primary, primaryIssues) := resolvePrimary resolver key ramp
      let missing :=
        if anchors.contrasting?.isSome then []
        else
          [Issue.warning .reference locus "core black/white unresolved; on-tones skipped"]
      let levels := levelsOf ramp anchors
      (some { key, ramp := ramp.name, primary, levels },
        primaryIssues ++ missing ++ levels.flatMap (onToneIssues resolver.mode key primary))

/-- The properties of one level under its own or the primary name. The primary tone
follows the tone of its level. -/
def levelEmission (mode : Mode) (key : String) (entry : PaletteLevel)
    (level : Option Token.Level) : Emission :=
  let tone := toneProperty mode key level
  let input :=
    match level with
    | none => toneProperty mode key (some entry.level)
    | some _ => entry.tone.property
  let onTone : Emission :=
    match entry.onTone with
    | some onTone =>
        .entry (onToneProperty mode key level)
          { value := .reference onTone.anchor.property
            origin := some ((Origin.ofInputs (Anchors.contrastInputs mode)).against tone) }
    | none => {}
  Emission.entry tone
    { value := .reference entry.tone.property
      origin := some (.ofInputs [input])
      binding := some (.tone mode key level) } ++ onTone

/-- The brand properties of a palette. -/
def emission (mode : Mode) (palette : Palette) : Emission :=
  let own := palette.levels.map fun entry =>
    levelEmission mode palette.key entry (some entry.level)
  let primary := (palette.primary.bind palette.level?).toList.map fun entry =>
    levelEmission mode palette.key entry none
  .join (own ++ primary)

/-- The palettes of the resolver's mode by key, with their properties and issues. -/
def resolveAll (resolver : Resolver) (anchors : Anchors) :
    Std.TreeMap String Palette × Emission :=
  let keys := resolver.theme.keys ["themes", resolver.mode.text, "palettes"]
  let found := keys.map fun key => resolve resolver anchors key
  let palettes := found.filterMap (·.1)
  (palettes.foldl (fun kept palette => kept.insert palette.key palette) ∅,
    .join <| found.map fun (palette, issues) =>
      (palette.map (emission resolver.mode)).getD {} ++ .ofIssues issues)

end Palette

end Legible
