import Legible.Theme.Configuration

/-!
# Presets

A preset is a complete set of documents to start from, in which every binding leads
somewhere and every derived pair is legible in both modes. `default` is a neutral
gray system with a blue accent and slightly transparent text. `high-contrast` has the
same tokens with purer surfaces, stronger interactive colors and opaque text.
-/

namespace Legible

/-- A named set of documents. -/
structure Preset where
  name : String
  tokens : Document
  theme : Document
  uiKit : Document

namespace Preset

/-- The configuration of a preset with some options. -/
def configuration (preset : Preset) (options : Options) : Configuration :=
  .ofDocuments preset.tokens preset.theme preset.uiKit options

/-- A leaf that holds a value. -/
def leaf (value : Json) : Json := .object [("$value", value)]

/-- A leaf that holds a whole number. -/
def whole (value : Int) : Json := leaf (.number (.integer value))

/-- A leaf that holds a number with places. -/
def real (value : Float) : Json := leaf (.number (.real value))

/-- A leaf that refers to a dotted path. -/
def bound (path : String) : Json := leaf (.text ("\x7b" ++ path ++ "\x7d"))

/-- A leaf that refers to a color. -/
def boundColor (path : String) : Json := bound ("tokens.color." ++ path)

/-- A ramp with its alias. -/
def ramp (aliasName : String) (colors : List (String × String)) : Json :=
  .object (("$alias", .text aliasName) :: colors.map fun (level, hex) =>
    (level, .object [("$value", .text hex), ("$type", .text "color")]))

/-- The ramps of both presets. -/
def ramps : Json :=
  .object
    [("gray", ramp "neutral"
      [("000", "#ffffff"), ("050", "#f5f5f5"), ("100", "#e8e8e8"), ("200", "#d1d1d1"),
        ("300", "#b4b4b4"), ("400", "#959595"), ("500", "#767676"), ("600", "#5e5e5e"),
        ("700", "#474747"), ("800", "#303030"), ("900", "#1c1c1c"), ("1000", "#000000")]),
      ("blue", ramp "brand"
      [("100", "#dbe8ff"), ("200", "#b3ceff"), ("300", "#80abff"), ("400", "#4d8af0"),
        ("500", "#2f6fde"), ("600", "#1e5bc6"), ("700", "#17479c"), ("800", "#113473"),
        ("900", "#0b214a")]),
      ("red", ramp "danger"
      [("100", "#ffe0de"), ("200", "#ffb8b3"), ("300", "#ff8a80"), ("400", "#f55a4e"),
        ("500", "#e0352b"), ("600", "#bf2519"), ("700", "#951c13"), ("800", "#6b140e"),
        ("900", "#420c08")]),
      ("amber", ramp "caution"
      [("100", "#fff1d6"), ("200", "#ffe0a3"), ("300", "#ffcb66"), ("400", "#f5b12e"),
        ("500", "#d99100"), ("600", "#b07400"), ("700", "#855700"), ("800", "#5c3c00"),
        ("900", "#332100")]),
      ("green", ramp "positive"
      [("100", "#dcf5e3"), ("200", "#b0e8c0"), ("300", "#7dd697"), ("400", "#4bbf6d"),
        ("500", "#2ea052"), ("600", "#208040"), ("700", "#186130"), ("800", "#104421"),
        ("900", "#082612")])]

/-- The tokens of both presets. -/
def tokenTree : Json :=
  .object
    [("color", ramps),
      ("opacity", .object
        [("full", whole 1), ("high", real 0.87), ("medium", real 0.6), ("disabled", real 0.38)]),
      ("size", .object
        [("xs", whole 4), ("sm", whole 8), ("md", whole 16), ("lg", whole 24), ("xl", whole 32)]),
      ("font-family", .object
        [("sans", leaf (.text "Inter, sans-serif")),
          ("mono", leaf (.text "JetBrains Mono, monospace"))]),
      ("font-size", .object [("body", whole 14), ("heading", whole 20)]),
      ("font-weight", .object [("regular", whole 400), ("bold", whole 600)]),
      ("line-height", .object [("body", real 1.5), ("heading", real 1.25)])]

/-- What a preset chooses for a mode. -/
structure Choices where
  alert : String
  warning : String
  success : String
  interactive : String
  hover : String
  /-- The surfaces of the numbered layers. -/
  layers : List String
  primaryLayer : String
  dangerLayer : String
  emphasis : String

/-- The palettes of every mode. -/
def palettes : Json :=
  let palette (name primary : String) : Json :=
    .object [("$value", .text ("\x7btokens.color." ++ name ++ "\x7d")), ("$primary", .text primary)]
  .object
    [("neutral", palette "gray" "500"), ("primary", palette "brand" "600"),
      ("danger", palette "red" "600"), ("caution", palette "amber" "500"),
      ("positive", palette "green" "600")]

/-- The elevations of every mode. -/
def elevations : Json :=
  let elevation (opacity blur : String) : Json :=
    .object
      [("shadow", boundColor "gray.1000"), ("opacity", bound ("tokens.opacity." ++ opacity)),
        ("blur", bound ("tokens.size." ++ blur))]
  .object [("1", elevation "disabled" "sm"), ("2", elevation "medium" "lg")]

/-- The typography of every mode. -/
def typography : Json :=
  let style (size weight : String) : Json :=
    .object
      [("family", bound "tokens.font-family.sans"), ("size", bound ("tokens.font-size." ++ size)),
        ("weight", bound ("tokens.font-weight." ++ weight)),
        ("line-height", bound ("tokens.line-height." ++ size))]
  .object
    [("body", style "body" "regular"), ("heading", style "heading" "bold"),
      ("code", .object
        [("family", bound "tokens.font-family.mono"), ("size", bound "tokens.font-size.body")])]

/-- The bindings of a mode. -/
def Choices.bindings (choices : Choices) : Json :=
  let surface (node : Json) : Json := .object [("surface", node)]
  let numbered := choices.layers.zipIdx.map fun (color, number) =>
    ("layer-" ++ toString number, surface (boundColor color))
  .object
    [("palettes", palettes),
      ("core-colors", .object
        [("black", boundColor "gray.1000"), ("white", boundColor "gray.000"),
          ("alert", boundColor choices.alert), ("warning", boundColor choices.warning),
          ("success", boundColor choices.success),
          ("interactive", .object
            [("default", boundColor choices.interactive), ("hover", boundColor choices.hover)])]),
      ("layers", .object
        (numbered ++
          [("alternative", .object
            [("primary", surface (bound choices.primaryLayer)),
              ("danger", surface (bound choices.dangerLayer))])])),
      ("text-emphasis", bound ("tokens.opacity." ++ choices.emphasis)),
      ("elevations", elevations),
      ("typography", typography),
      ("dimensions", .object
        [("gutter", bound "tokens.size.md"), ("radius", bound "tokens.size.xs"),
          ("section", bound "tokens.size.xl")])]

/-- The component bindings of both presets. -/
def components : Json :=
  let layer (path : String) : Json := bound ("brand.layer." ++ path)
  .object
    [("page", .object [("background", layer "0.surface"), ("text", layer "0.text")]),
      ("card", .object
        [("background", layer "1.surface"), ("text", layer "1.text"),
          ("shadow", bound "brand.elevations.1.shadow")]),
      ("button", .object
        [("primary", .object
          [("background", layer "1.interactive.default.tone"),
            ("label", layer "1.interactive.default.on-tone"),
            ("hover-background", layer "1.interactive.hover.tone"),
            ("hover-label", layer "1.interactive.hover.on-tone"),
            ("radius", bound "brand.dimensions.radius")])]),
      ("banner", .object
        [("danger", .object
          [("background", layer "alternative.danger.surface"),
            ("text", layer "alternative.danger.alert.text")])]),
      ("text", .object
        [("body", bound "brand.typography.body.family"),
          ("code", bound "brand.typography.code.family")])]

/-- What the default preset chooses for the light mode. -/
def defaultLight : Choices :=
  { alert := "red.600"
    warning := "amber.700"
    success := "green.700"
    interactive := "blue.600"
    hover := "blue.700"
    layers := ["gray.000", "neutral.050", "gray.100", "gray.200"]
    primaryLayer := "brand.palettes.primary"
    dangerLayer := "brand.palettes.danger.100"
    emphasis := "high" }

/-- What the default preset chooses for the dark mode. -/
def defaultDark : Choices :=
  { alert := "red.300"
    warning := "amber.300"
    success := "green.300"
    interactive := "blue.300"
    hover := "blue.200"
    layers := ["gray.1000", "gray.900", "gray.800", "gray.700"]
    primaryLayer := "brand.palettes.primary.800"
    dangerLayer := "brand.palettes.danger.900"
    emphasis := "high" }

/-- What the high-contrast preset chooses for the light mode. -/
def highContrastLight : Choices :=
  { alert := "red.700"
    warning := "amber.800"
    success := "green.800"
    interactive := "blue.800"
    hover := "blue.900"
    layers := ["gray.000", "gray.000", "gray.050", "gray.100"]
    primaryLayer := "brand.palettes.primary.900"
    dangerLayer := "brand.palettes.danger.100"
    emphasis := "full" }

/-- What the high-contrast preset chooses for the dark mode. -/
def highContrastDark : Choices :=
  { alert := "red.200"
    warning := "amber.200"
    success := "green.200"
    interactive := "blue.200"
    hover := "blue.100"
    layers := ["gray.1000", "gray.1000", "gray.900", "gray.800"]
    primaryLayer := "brand.palettes.primary.900"
    dangerLayer := "brand.palettes.danger.900"
    emphasis := "full" }

/-- The preset with a name and choices for both modes. -/
def ofChoices (name : String) (light dark : Choices) : Preset :=
  { name
    tokens := ⟨"tokens", tokenTree⟩
    theme := ⟨"theme",
      .object [("themes", .object [("light", light.bindings), ("dark", dark.bindings)])]⟩
    uiKit := ⟨"ui-kit", components⟩ }

/-- Every preset. -/
def all : List Preset :=
  [ofChoices "default" defaultLight defaultDark,
    ofChoices "high-contrast" highContrastLight highContrastDark]

/-- The names of the presets. -/
def names : List String := all.map Preset.name

/-- The preset with a name. -/
def find? (name : String) : Option Preset := all.find? fun preset => preset.name == name

end Preset

end Legible
