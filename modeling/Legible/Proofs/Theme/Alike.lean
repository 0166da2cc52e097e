import Legible.Proofs.Theme.Elements
import Legible.Proofs.Theme.Follow
import Legible.Proofs.Watch.Run

/-!
# Text does not depend on how its surface was named

A surface that is bound to a palette tone hands its text the on-tone of that palette, and
any other surface lets it choose between black and white. The two choices are written
differently: one looks first at which of the anchors is legible. Legibility is a bound on
the contrast, so that never overrules the contrast, and both choose the same anchor. A
reference to a palette is followed to the token that the palette shows, so the tone for
which the on-tone was chosen is the color that the surface holds.
-/

namespace Legible

open Property

/-! ## The choice between black and white -/

namespace OnTone

/-- Legibility never overrules contrast: the one with more contrast is chosen, and the
first when they are equal. -/
theorem better_eq (first second : OnTone) :
    better first second = if second.ratio ≤ first.ratio then first else second := by
  cases own : first.isLegible with
  | true =>
      cases other : second.isLegible with
      | true => simp only [better, own, other]
      | false =>
          have least : ContrastRatio.threshold ≤ first.ratio := of_decide_eq_true own
          have below : ¬ ContrastRatio.threshold ≤ second.ratio := of_decide_eq_false other
          have less : second.ratio ≤ first.ratio :=
            (ContrastRatio.le_total _ _).resolve_right fun more =>
              below (ContrastRatio.le_trans least more)
          simp only [better, own, other, if_pos less]
  | false =>
      cases other : second.isLegible with
      | true =>
          have below : ¬ ContrastRatio.threshold ≤ first.ratio := of_decide_eq_false own
          have least : ContrastRatio.threshold ≤ second.ratio := of_decide_eq_true other
          have more : ¬ second.ratio ≤ first.ratio := fun less =>
            below (ContrastRatio.le_trans least less)
          simp only [better, own, other, if_neg more]
      | false => simp only [better, own, other]

/-- Black is chosen where it is equal to white. -/
theorem choose_of_tie {tone : Color} {black white : Anchor}
    (tie : ContrastRatio.between tone black.color = ContrastRatio.between tone white.color) :
    choose tone black white = ⟨.black, black, ContrastRatio.between tone black.color⟩ := by
  rw [choose, better_eq, ← tie]
  exact if_pos ((ContrastRatio.le_total _ _).elim id id)

/-- The on-tone of a tone is the better of black and white for its color, and black where
they are equal. -/
theorem better?_eq_choose {anchors : Anchors} {black white : Anchor}
    (contrasting : anchors.contrasting? = some (black, white)) (tone : Color) :
    anchors.better? tone =
      some ((choose tone black white).slot, (choose tone black white).anchor) := by
  rw [Anchors.better?, contrasting, Option.map_some, choose, better_eq]
  dsimp only
  rw [ContrastRatio.between_comm white.color, ContrastRatio.between_comm black.color]
  split <;> rfl

end OnTone

/-! ## What is shown -/

/-- Two emissions show the same: the same values for the same properties and the same
issues, whatever the properties are derived from. -/
structure Emission.ShowsAlike (first second : Emission) : Prop where
  values : (first.entries.map fun added => (added.1, added.2.value)) =
    second.entries.map fun added => (added.1, added.2.value)
  issues : first.issues = second.issues

namespace LayerContext

variable {context : LayerContext}

/-- A foreground shows the same on backdrops of one token and color, wherever the search
starts from the same anchor. -/
theorem foreground_showsAlike {backdrop other : Backdrop} (token : backdrop.token = other.token)
    (color : backdrop.color = other.color) (name : Name) (anchor : Anchor) (blended : Bool)
    (origin otherOrigin : Origin) :
    (context.foreground name anchor backdrop blended origin).2.ShowsAlike
      (context.foreground name anchor other blended otherOrigin).2 := by
  unfold foreground
  rw [← token, ← color]
  split
  · next ramp start _ _ =>
      dsimp only
      cases ramp.search? start backdrop.color
          (((context.emphasisFor blended).map Emphasis.opacity).getD 1) with
      | none => exact ⟨rfl, rfl⟩
      | some step =>
          cases context.emphasisFor blended with
          | none => exact ⟨rfl, rfl⟩
          | some emphasis => exact ⟨rfl, rfl⟩
  · exact ⟨rfl, rfl⟩

/-- Text shows the same on surfaces of one layer, token and color, where it starts from the
same anchor. -/
theorem text_showsAlike {surface other : Surface} {anchor : Anchor}
    {followed otherFollowed : Option Name} (layer : surface.layer = other.layer)
    (token : surface.backdrop.token = other.backdrop.token)
    (color : surface.backdrop.color = other.backdrop.color)
    (own : context.textAnchor? surface = some (anchor, followed))
    (others : context.textAnchor? other = some (anchor, otherFollowed)) :
    (context.text surface).ShowsAlike (context.text other) := by
  unfold text
  rw [own, others, ← layer]
  exact foreground_showsAlike token color _ _ _ _ _

/-- The text on a surface is what the search from an anchor finds, with its issue, or else
one issue says why there is none. -/
def TextStartsFrom (context : LayerContext) (surface : Surface) (anchor : Anchor) : Prop :=
  (∃ (search : ForegroundSearch context anchor surface.backdrop true) (origin : Origin),
    context.text surface =
      .ofIssues (search.step.issue? (surface.layer.element context.mode ["text"]).text
          search.ramp).toList ++
        .entry (surface.layer.element context.mode ["text"]) (search.entry origin)) ∨
  ∃ issue : Issue, issue.locus = (surface.layer.element context.mode ["text"]).text ∧
    context.text surface = .ofIssues [issue]

/-- Without a palette tone, text starts from the better of black and white. -/
theorem textAnchor?_of_plain {surface : Surface} {slot : CoreSlot} {anchor : Anchor}
    (plain : surface.palette = none)
    (better : context.anchors.better? surface.backdrop.color = some (slot, anchor)) :
    context.textAnchor? surface = some (anchor, none) := by
  rw [textAnchor?, plain, better]
  rfl

end LayerContext

/-! ## Palette tones -/

namespace Configuration

variable {configuration : Configuration} {mode : Mode} {layer : LayerId} {surface : Surface}
  {key : String} {level : Token.Level}

/-- The source of a palette tone is a palette of the layers. -/
theorem kept_of_paletteSource? {context : LayerContext} {reference : Reference}
    (source : context.paletteSource? reference = some (key, level)) :
    ∃ palette, context.palettes[key]? = some palette := by
  unfold LayerContext.paletteSource? at source
  split at source
  · split at source
    · obtain ⟨palette, kept, rest⟩ := Option.bind_eq_some_iff.1 source
      obtain ⟨_, -, rest⟩ := Option.bind_eq_some_iff.1 rest
      obtain ⟨_, -, given⟩ := Option.bind_eq_some_iff.1 rest
      cases given
      exact ⟨palette, kept⟩
    · cases source
  · cases source

/-- A surface that is a palette tone holds the token and the color of that tone. -/
theorem tone_of_surfaceOf (found : configuration.surfaceOf mode layer = some surface)
    (source : surface.palette = some (key, level)) :
    ∃ palette shade, (configuration.layersOf mode).palettes[key]? = some palette ∧
      configuration.paletteOf mode key = some palette ∧ palette.level? level = some shade ∧
      shade.tone = ⟨surface.backdrop.token, surface.backdrop.color⟩ := by
  have held := isHeld_of_surfaceOf found
  rw [surfaceOf] at found
  rcases surface_cases (configuration.layersOf mode) layer with
    ⟨issues, none⟩ | ⟨anchor, palette, isFallback, input, issues, origin, given⟩
  · rw [none] at found
    cases found
  · rw [given] at found
    cases found
    cases origin with
    | token => cases source
    | standIn => cases source
    | tone binding tone =>
        cases source
        obtain ⟨palette, shade, -, bound, named, token⟩ := tone_of_surfaceBinding binding tone
        obtain ⟨own, kept⟩ := kept_of_paletteSource? tone
        obtain rfl : own = palette :=
          Option.some.inj ((palette_of_layersOf kept).2.symm.trans bound)
        refine ⟨own, shade, kept, bound, named, ?_⟩
        have shown := (isHeld_of_named? bound named).1
        rw [Anchor.IsHeld, token] at shown
        have color := Token.Value.color.inj (Option.some.inj (held.symm.trans shown))
        rw [color, ← token]

/-- The on-tone of that tone was chosen for the color of the surface. -/
theorem onTone_of_surfaceOf {black white : Anchor}
    (contrasting : (configuration.anchorsOf mode).contrasting? = some (black, white))
    (found : configuration.surfaceOf mode layer = some surface)
    (source : surface.palette = some (key, level)) :
    ∃ palette shade, (configuration.layersOf mode).palettes[key]? = some palette ∧
      palette.level? level = some shade ∧
      shade.tone = ⟨surface.backdrop.token, surface.backdrop.color⟩ ∧
      shade.onTone = some (OnTone.choose surface.backdrop.color black white) := by
  obtain ⟨palette, shade, kept, bound, named, tone⟩ := tone_of_surfaceOf found source
  have leveled : palette.named? (some level) = some shade := named
  have onTone := (isHeld_of_named? bound leveled).2
  rw [contrasting, tone, Option.map_some] at onTone
  exact ⟨palette, shade, kept, named, tone, onTone⟩

/-- The text on a palette tone starts from the on-tone of that palette. -/
theorem textAnchor?_of_tone {black white : Anchor}
    (contrasting : (configuration.anchorsOf mode).contrasting? = some (black, white))
    (found : configuration.surfaceOf mode layer = some surface)
    (source : surface.palette = some (key, level)) :
    (configuration.layersOf mode).textAnchor? surface =
      some ((OnTone.choose surface.backdrop.color black white).anchor,
        some (Palette.onToneProperty mode key (some level))) := by
  obtain ⟨palette, shade, kept, named, -, onTone⟩ := onTone_of_surfaceOf contrasting found source
  simp only [LayerContext.textAnchor?, source, bind, Option.bind_some, kept, named, onTone]
  rfl

/-- The text starts from its anchor, where the index holds that. -/
theorem textStartsFrom_of_textAnchor? {anchor : Anchor} {followed : Option Name}
    (held : anchor.IsHeld configuration.index)
    (chosen : (configuration.layersOf mode).textAnchor? surface = some (anchor, followed)) :
    (configuration.layersOf mode).TextStartsFrom surface anchor := by
  rw [LayerContext.TextStartsFrom, LayerContext.text, chosen]
  rcases search_or_issue mode held (surface.layer.element mode ["text"]) surface.backdrop true
      ((Origin.ofInputs (Anchors.contrastInputs mode ++ followed.toList)).against
        surface.backdrop.name) with
    ⟨⟨search⟩⟩ | ⟨issue, given, locus⟩
  · exact .inl ⟨search, _, congrArg Prod.snd (LayerContext.foreground_of_search search _ _)⟩
  · exact .inr ⟨issue, locus, congrArg Prod.snd given⟩

/-- The text on a palette tone starts from the better of black and white, and it is that on
any surface of the same token and color: the palette shows the color of the surface, and its
on-tone is the anchor that any other surface chooses, also where black and white are equal. -/
theorem text_showsAlike_of_tone {black white : Anchor}
    (contrasting : (configuration.anchorsOf mode).contrasting? = some (black, white))
    (found : configuration.surfaceOf mode layer = some surface)
    (source : surface.palette = some (key, level)) :
    (∃ palette shade, (configuration.layersOf mode).palettes[key]? = some palette ∧
      palette.level? level = some shade ∧
      shade.tone = ⟨surface.backdrop.token, surface.backdrop.color⟩ ∧
      shade.onTone = some (OnTone.choose surface.backdrop.color black white)) ∧
    (configuration.layersOf mode).TextStartsFrom surface
      (OnTone.choose surface.backdrop.color black white).anchor ∧
    (∀ plain : Surface, plain.layer = surface.layer →
      plain.backdrop.token = surface.backdrop.token →
      plain.backdrop.color = surface.backdrop.color → plain.palette = none →
      ((configuration.layersOf mode).text surface).ShowsAlike
        ((configuration.layersOf mode).text plain)) ∧
    ∀ (tone : Color) (anchors : Anchors) (first second : Anchor),
      anchors.contrasting? = some (first, second) →
        anchors.better? tone =
            some ((OnTone.choose tone first second).slot,
              (OnTone.choose tone first second).anchor) ∧
          (ContrastRatio.between tone first.color = ContrastRatio.between tone second.color →
            anchors.better? tone = some (.black, first)) := by
  have chosen := textAnchor?_of_tone contrasting found source
  refine ⟨onTone_of_surfaceOf contrasting found source,
    textStartsFrom_of_textAnchor? (isHeld_of_choose contrasting) chosen,
    fun plain layer token color plainSource => ?_, fun tone anchors first second pair =>
    ⟨OnTone.better?_eq_choose pair tone, fun tie => ?_⟩⟩
  · have better : (configuration.layersOf mode).anchors.better? plain.backdrop.color =
        some ((OnTone.choose surface.backdrop.color black white).slot,
          (OnTone.choose surface.backdrop.color black white).anchor) := by
      rw [color]
      exact OnTone.better?_eq_choose contrasting surface.backdrop.color
    exact LayerContext.text_showsAlike layer.symm token.symm color.symm chosen
      (LayerContext.textAnchor?_of_plain plainSource better)
  · rw [OnTone.better?_eq_choose pair tone, OnTone.choose_of_tie tie]

end Configuration

/-! ## A gray surface under two names -/

/-- A layer that is bound to a palette tone. -/
def Sample.toned : Configuration :=
  Sample.accented.withTheme ⟨"theme", .object
    [("themes", .object
      [("light", .object
        [("core-colors", .object (Sample.core.take 2)),
          ("palettes", .object
            [("accent", Sample.leaf (.text "\x7btokens.color.stone\x7d"))]),
          ("layers", .object [("layer-0", .object
            [("surface", Sample.leaf (.text "\x7bbrand.palettes.accent.500\x7d"))])])])])]⟩

/-- Its surface, if it was bound to this palette tone. -/
def Sample.stoneSurface (palette : Option (String × Token.Level)) : Surface where
  layer := .indexed 0
  backdrop := ⟨LayerId.surface .light (.indexed 0), .color "stone" ⟨500⟩, ⟨0x76, 0x76, 0x76⟩⟩
  palette := palette
  isFallback := false

namespace Configuration

/-- The text on the gray of a palette is that on the same gray. -/
theorem text_showsAlike_stone :
    (Sample.toned.anchorsOf .light).contrasting? =
        some (⟨.color "gray" ⟨900⟩, .black⟩, ⟨.color "gray" ⟨0⟩, .white⟩) ∧
      Sample.toned.surfaceOf .light (.indexed 0) =
        some (Sample.stoneSurface (some ("accent", ⟨500⟩))) ∧
      ((Sample.toned.layersOf .light).text
          (Sample.stoneSurface (some ("accent", ⟨500⟩)))).ShowsAlike
        ((Sample.toned.layersOf .light).text (Sample.stoneSurface none)) := by
  have contrasting : (Sample.toned.anchorsOf .light).contrasting? =
      some (⟨.color "gray" ⟨900⟩, .black⟩, ⟨.color "gray" ⟨0⟩, .white⟩) := by
    decide +kernel
  have found : Sample.toned.surfaceOf .light (.indexed 0) =
      some (Sample.stoneSurface (some ("accent", ⟨500⟩))) := by
    decide +kernel
  exact ⟨contrasting, found,
    (text_showsAlike_of_tone contrasting found rfl).2.2.1 _ rfl rfl rfl rfl⟩

end Configuration

end Legible
