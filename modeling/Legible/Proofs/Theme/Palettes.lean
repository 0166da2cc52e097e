import Legible.Proofs.Theme.Binding
import Legible.Proofs.Theme.Reported
import Legible.Proofs.Watch.Run

/-!
# Everything that a palette declares

A palette declares a ramp and perhaps a primary level. If the ramp is not found, that is
reported and the palette adds nothing. Otherwise every level of the ramp has a tone and,
where there are black and white, an on-tone, and the primary level has both under the
primary name as well. What is not legible is reported under each of its names. A text
that marks no level of the ramp is reported; a mark that is no text is passed over.
-/

namespace Legible

open Property

namespace Palette

/-- Whether a property of this level, or of the primary one, belongs to a level of the
ramp. -/
def Names (primary named : Option Token.Level) (level : Token.Level) : Prop :=
  named = some level ∨ named = none ∧ primary = some level

/-- A level of a ramp as a level of the palette over it. -/
def levelOf (ramp : Ramp) (anchors : Anchors) (level : Token.Level) (color : Color) :
    PaletteLevel where
  level
  tone := ⟨ramp.path level, color⟩
  onTone := anchors.contrasting?.map fun (black, white) => OnTone.choose color black white

section Level

variable {ramp : Ramp} {anchors : Anchors} {level : Token.Level} {color : Color}
  {named primary : Option Token.Level}

theorem levelOf_mem (anchors : Anchors) (held : ramp.color? level = some color) :
    levelOf ramp anchors level color ∈ levelsOf ramp anchors :=
  List.mem_map_of_mem (Std.TreeMap.mem_toList_iff_getElem?_eq_some.2 held)

/-- The names of a level lead to it. -/
theorem Names.named? (names : Names primary named level)
    (held : ramp.color? level = some color) (anchors : Anchors) (key name : String) :
    Palette.named? ⟨key, name, primary, levelsOf ramp anchors⟩ named =
      some (levelOf ramp anchors level color) := by
  have found := find?_levelsOf (levelOf_mem anchors held)
  rcases names with rfl | ⟨rfl, rfl⟩
  · exact found
  · exact found

/-- An on-tone that is not legible is reported under every name of its level. -/
theorem Names.exists_issue (names : Names primary named level) (mode : Mode) (key : String)
    {chosen : OnTone} (onTone : (levelOf ramp anchors level color).onTone = some chosen)
    (illegible : chosen.isLegible = false) :
    ∃ issue ∈ onToneIssues mode key primary (levelOf ramp anchors level color),
      issue.kind = .onTone ∧ issue.locus = (onToneProperty mode key named).text := by
  have own : named ∈ some (levelOf ramp anchors level color).level ::
      if primary = some (levelOf ramp anchors level color).level then [none] else [] := by
    rcases names with rfl | ⟨rfl, rfl⟩
    · exact List.mem_cons_self
    · have same : (levelOf ramp anchors level color).level = level := rfl
      rw [same, if_pos rfl]
      exact List.mem_cons_of_mem _ (List.mem_singleton_self _)
  rw [onToneIssues, onTone]
  simp only [illegible, Bool.false_eq_true, if_false]
  exact ⟨_, List.mem_map_of_mem own, rfl, rfl⟩

end Level

end Palette

namespace Configuration

variable {configuration : Configuration} {mode : Mode} {key : String}

/-- What a palette node carries as its mark. -/
def markOf (configuration : Configuration) (mode : Mode) (key : String) : Option Json :=
  (configuration.theme.get? (Resolver.palettePath mode key)).bind fun node =>
    node.member? "$primary"

theorem primaryText?_eq (configuration : Configuration) (mode : Mode) (key : String) :
    (configuration.resolver mode).primaryText? mode key =
      (configuration.markOf mode key).bind Json.text? := rfl

/-- What a computation gives for a palette over a ramp with this primary level. -/
structure Offers (configuration : Configuration) (mode : Mode) (key : String) (ramp : Ramp)
    (primary : Option Token.Level) : Prop where
  tone : ∀ level color named, ramp.color? level = some color →
    Palette.Names primary named level →
    configuration.compute.map.value? (Palette.toneProperty mode key named) =
      some (.reference (Name.ofToken (ramp.path level)))
  onTone : ∀ level color named black white, ramp.color? level = some color →
    Palette.Names primary named level →
    (configuration.anchorsOf mode).contrasting? = some (black, white) →
    configuration.compute.map.value? (Palette.onToneProperty mode key named) =
        some (.reference (OnTone.choose color black white).anchor.property) ∧
      ((OnTone.choose color black white).isLegible = false →
        ∃ issue ∈ configuration.compute.issues, issue.kind = .onTone ∧
          issue.locus = (Palette.onToneProperty mode key named).text)
  unanchored : (configuration.anchorsOf mode).contrasting? = none →
    ∃ issue ∈ configuration.compute.issues,
      issue.locus = String.intercalate "." (Resolver.palettePath mode key)
  marked : ∀ text, configuration.markOf mode key = some (.text text) →
    (∃ level, Token.Level.read? text = some level ∧ primary = some level ∧
        (ramp.color? level).isSome) ∨
      ∃ issue ∈ configuration.compute.issues,
        issue.locus = String.intercalate "." (Resolver.palettePath mode key ++ ["$primary"])
  unmarked : configuration.compute.map.contains (Palette.toneProperty mode key none) = true →
    ∃ text, configuration.markOf mode key = some (.text text) ∧
      Token.Level.read? text = primary ∧ primary.isSome

/-- What shows under the name of an on-tone is the anchor that was chosen. -/
theorem shows_onTone {level : Option Token.Level} {palette : Palette} {shade : PaletteLevel}
    {chosen : OnTone} (bound : configuration.paletteOf mode key = some palette)
    (named : palette.named? level = some shade) (onTone : shade.onTone = some chosen) :
    configuration.Shows (Palette.onToneProperty mode key level) chosen.anchor.property := by
  intro issues entry part
  obtain ⟨palette', shade', chosen', bound', named', onTone', value⟩ := part.of_onToneProperty
  cases bound.symm.trans bound'
  cases named.symm.trans named'
  cases onTone.symm.trans onTone'
  exact value

/-- A palette that is not there adds nothing. -/
theorem not_adds_of_unresolved (missing : configuration.paletteOf mode key = none)
    (level : Option Token.Level) :
    ¬ configuration.Adds (Palette.toneProperty mode key level) ∧
      ¬ configuration.Adds (Palette.onToneProperty mode key level) := by
  constructor
  · rintro ⟨entry, member⟩
    obtain ⟨palette, shade, input, bound, -⟩ := (part_of_mem member).of_toneProperty
    rw [missing] at bound
    cases bound
  · rintro ⟨entry, member⟩
    obtain ⟨palette, shade, chosen, bound, -⟩ := (part_of_mem member).of_onToneProperty
    rw [missing] at bound
    cases bound

/-- A mark is the primary level, or it is reported. -/
theorem resolvePrimary_of_marked (ramp : Ramp) {text : String}
    (carried : configuration.markOf mode key = some (.text text)) :
    (∃ level, Token.Level.read? text = some level ∧ (ramp.color? level).isSome ∧
        Palette.resolvePrimary (configuration.resolver mode) key ramp = (some level, [])) ∨
      ∃ issue, Palette.resolvePrimary (configuration.resolver mode) key ramp = (none, [issue]) ∧
        issue.locus =
          String.intercalate "." (Resolver.palettePath mode key ++ ["$primary"]) := by
  have written : (configuration.resolver mode).primaryText?
      (configuration.resolver mode).mode key = some text := by
    change (configuration.resolver mode).primaryText? mode key = some text
    rw [primaryText?_eq, carried]
    rfl
  simp only [Palette.resolvePrimary, written]
  split
  · next level marked =>
      obtain ⟨read, colored⟩ := Option.filter_eq_some_iff.1 marked
      exact .inl ⟨level, read, colored, rfl⟩
  · exact .inr ⟨_, rfl, rfl⟩

/-- A primary level is what the mark of the palette says. -/
theorem exists_mark_of_resolvePrimary {ramp : Ramp} {level : Token.Level}
    (primary : (Palette.resolvePrimary (configuration.resolver mode) key ramp).1 = some level) :
    ∃ text, configuration.markOf mode key = some (.text text) ∧
      Token.Level.read? text = some level := by
  have read := read?_of_resolvePrimary primary
  change ((configuration.resolver mode).primaryText? mode key).bind _ = _ at read
  rw [primaryText?_eq] at read
  obtain ⟨text, written, read⟩ := Option.bind_eq_some_iff.1 read
  obtain ⟨mark, carried, isText⟩ := Option.bind_eq_some_iff.1 written
  refine ⟨text, ?_, read⟩
  rw [carried]
  cases mark <;> cases isText
  rfl

/-- What a computation gives for a key that binds a ramp. -/
theorem offers_of_ramp {ramp : Ramp}
    (listed : key ∈ configuration.theme.keys ["themes", mode.text, "palettes"])
    (bound : Palette.resolveRamp (configuration.resolver mode) key = .ok ramp) :
    configuration.Offers mode key ramp
      (Palette.resolvePrimary (configuration.resolver mode) key ramp).1 := by
  have declared : mode ∈ configuration.modes := mem_modes_of_mem_keys listed
  have resolved := Palette.resolve_eq_of_ramp (configuration.anchorsOf mode) bound
  have palette := congrArg Prod.fst resolved
  rw [← paletteOf] at palette
  have reported {issue : Issue} (given : issue ∈ (Palette.resolve (configuration.resolver mode)
      (configuration.anchorsOf mode) key).2) : issue ∈ configuration.compute.issues :=
    mem_issues_of_palette declared listed given
  rw [resolved] at reported
  constructor
  case tone =>
    intro level color named held names
    have found := names.named? held (configuration.anchorsOf mode) key ramp.name
    exact (shows_tone palette found).value? (adds_tone declared listed palette found)
  case onTone =>
    intro level color named black white held names anchors
    have found := names.named? held (configuration.anchorsOf mode) key ramp.name
    have onTone : (Palette.levelOf ramp (configuration.anchorsOf mode) level color).onTone =
        some (OnTone.choose color black white) := by
      rw [Palette.levelOf, anchors]
      rfl
    refine ⟨?_, fun illegible => ?_⟩
    · exact (shows_onTone palette found onTone).value?
        (adds_onTone declared listed palette found onTone)
    · obtain ⟨issue, given, kind, locus⟩ := names.exists_issue mode key onTone illegible
      exact ⟨issue, reported (List.mem_append_right _
        (List.mem_flatMap.2 ⟨_, Palette.levelOf_mem _ held, given⟩)), kind, locus⟩
  case unanchored =>
    intro missing
    have given : Palette.missingIssues (configuration.resolver mode).mode
        (configuration.anchorsOf mode) key = [Issue.warning .reference
          (String.intercalate "." (Resolver.palettePath mode key))
          "core black/white unresolved; on-tones skipped"] := by
      rw [Palette.missingIssues, missing]
      rfl
    rw [given] at reported
    exact ⟨_, reported (List.mem_append_left _ (List.mem_append_right _
      (List.mem_singleton_self _))), rfl⟩
  case marked =>
    intro text carried
    rcases resolvePrimary_of_marked ramp carried with
      ⟨level, read, colored, primary⟩ | ⟨issue, given, locus⟩
    · exact .inl ⟨level, read, by rw [primary], colored⟩
    · refine .inr ⟨issue, reported ?_, locus⟩
      rw [given]
      exact List.mem_append_left _ (List.mem_append_left _ (List.mem_singleton_self _))
  case unmarked =>
    intro contained
    obtain ⟨entry, member⟩ := (contains_iff_adds _ _).1 contained
    obtain ⟨palette', shade, input, bound', named, -⟩ := (part_of_mem member).of_toneProperty
    cases palette.symm.trans bound'
    obtain ⟨level, primary, -⟩ := Option.bind_eq_some_iff.1 named
    obtain ⟨text, carried, read⟩ := exists_mark_of_resolvePrimary primary
    exact ⟨text, carried, read.trans primary.symm, Option.isSome_of_eq_some primary⟩

/-- Every key among the palettes of a mode is reported and adds nothing, or everything is
there that belongs to the ramp it binds. -/
theorem offers_or_reports
    (listed : key ∈ configuration.theme.keys ["themes", mode.text, "palettes"]) :
    ((∃ issue ∈ configuration.compute.issues,
        issue.locus = String.intercalate "." (Resolver.palettePath mode key)) ∧
      ∀ level, configuration.compute.map.contains (Palette.toneProperty mode key level) = false ∧
        configuration.compute.map.contains (Palette.onToneProperty mode key level) = false) ∨
    ∃ ramp primary, Palette.resolveRamp (configuration.resolver mode) key = .ok ramp ∧
      configuration.Offers mode key ramp primary := by
  cases bound : Palette.resolveRamp (configuration.resolver mode) key with
  | ok ramp => exact .inr ⟨ramp, _, rfl, offers_of_ramp listed bound⟩
  | error failure =>
      have declared : mode ∈ configuration.modes := mem_modes_of_mem_keys listed
      have resolved : Palette.resolve (configuration.resolver mode)
          (configuration.anchorsOf mode) key = (none, [Issue.warning .reference
            (String.intercalate "." (Resolver.palettePath mode key)) failure]) := by
        rw [Palette.resolve, bound]
        rfl
      have missing : configuration.paletteOf mode key = none := by rw [paletteOf, resolved]
      refine .inl ⟨⟨Issue.warning .reference
        (String.intercalate "." (Resolver.palettePath mode key)) failure, ?_, rfl⟩, fun level => ?_⟩
      · refine mem_issues_of_palette declared listed ?_
        rw [resolved]
        exact List.mem_singleton_self _
      · obtain ⟨tone, onTone⟩ := not_adds_of_unresolved missing level
        exact ⟨(contains_eq_false_iff_adds _ _).2 tone, (contains_eq_false_iff_adds _ _).2 onTone⟩

end Configuration

/-! ## Marks that are no text -/

/-- A palette over a ramp of one gray, with this mark. -/
def Sample.marked (mark : Json) : Configuration :=
  Sample.accented.withTheme ⟨"theme", .object
    [("themes", .object
      [("light", .object
        [("core-colors", .object (Sample.core.take 2)),
          ("palettes", .object [("accent", .object
            [("$value", .text "\x7btokens.color.stone\x7d"), ("$primary", mark)])])])])]⟩

namespace Configuration

/-- A palette whose mark is a text that names a level. -/
theorem offers_or_reports_marked :
    "accent" ∈ (Sample.marked (.text "500")).theme.keys ["themes", Mode.light.text, "palettes"] ∧
      (((∃ issue ∈ (Sample.marked (.text "500")).compute.issues,
            issue.locus = String.intercalate "." (Resolver.palettePath .light "accent")) ∧
          ∀ level,
            (Sample.marked (.text "500")).compute.map.contains
                (Palette.toneProperty .light "accent" level) = false ∧
              (Sample.marked (.text "500")).compute.map.contains
                (Palette.onToneProperty .light "accent" level) = false) ∨
        ∃ ramp primary,
          Palette.resolveRamp ((Sample.marked (.text "500")).resolver .light) "accent" =
            .ok ramp ∧
          (Sample.marked (.text "500")).Offers .light "accent" ramp primary) := by
  have listed : "accent" ∈
      (Sample.marked (.text "500")).theme.keys ["themes", Mode.light.text, "palettes"] := by
    decide +kernel
  exact ⟨listed, offers_or_reports listed⟩

/-- A number is passed over as a mark: the palette is there, but neither is its primary
tone, nor is the mark reported. -/
theorem not_marked_of_number :
    "accent" ∈ (Sample.marked (.number (.integer 500))).theme.keys
        ["themes", Mode.light.text, "palettes"] ∧
      (Sample.marked (.number (.integer 500))).markOf .light "accent" =
        some (.number (.integer 500)) ∧
      (Sample.marked (.number (.integer 500))).compute.map.contains
        (Palette.toneProperty .light "accent" (some ⟨500⟩)) = true ∧
      ¬ ((Sample.marked (.number (.integer 500))).compute.map.contains
          (Palette.toneProperty .light "accent" none) = true ∨
        ∃ issue ∈ (Sample.marked (.number (.integer 500))).compute.issues,
          issue.locus =
            String.intercalate "." (Resolver.palettePath .light "accent" ++ ["$primary"])) := by
  refine ⟨by decide +kernel, rfl, by decide +kernel, by decide +kernel⟩

end Configuration

end Legible
