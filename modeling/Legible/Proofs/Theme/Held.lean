import Legible.Proofs.Color.Blend
import Legible.Proofs.Live.Evaluation
import Legible.Proofs.Theme.Part
import Legible.Proofs.Theme.Stepping

/-!
# Tokens behind a computed map

Wherever a computation measures a color, it does so on a token that the index holds
with exactly that color: anchors, tones, surfaces, and the levels that a search
visits. The emphasis of text is held by the index as a number.
-/

namespace Legible

open Property

/-- A color of an index with the token that holds it. -/
def Anchor.IsHeld (index : Token.Index) (anchor : Anchor) : Prop :=
  index.values[anchor.token]? = some (.color anchor.color)

namespace Configuration

variable {configuration : Configuration} {mode : Mode}

/-! ## Anchors -/

theorem isHeld_of_resolveColor {resolver : Resolver} {reference : Reference} {anchor : Anchor}
    (found : resolver.resolveColor reference = .ok anchor) : anchor.IsHeld resolver.index := by
  rw [Resolver.resolveColor] at found
  cases resolved : resolver.resolveToken reference with
  | error error => simp [resolved] at found
  | ok token =>
      obtain ⟨value, held⟩ := Resolver.exists_of_resolveToken resolved
      have color : resolver.index.color? token = value.color? := by
        rw [Token.Index.color?, Token.Index.get?_of_held held]
        rfl
      cases value with
      | color shade =>
          simp only [resolved, color, Token.Value.color?, Except.ok.injEq] at found
          rw [← found]
          exact held
      | dimension pixels => simp [resolved, color, Token.Value.color?] at found
      | number amount => simp [resolved, color, Token.Value.color?] at found
      | text text => simp [resolved, color, Token.Value.color?] at found

theorem isHeld_of_resolveSlot {resolver : Resolver} {slot : CoreSlot} {anchor : Anchor}
    (found : (Anchors.resolveSlot resolver slot).1 = some anchor) :
    anchor.IsHeld resolver.index := by
  rw [Anchors.resolveSlot] at found
  cases direct : resolver.resolveColor (.site (some resolver.mode) (.ofSlot slot)) with
  | ok bound =>
      simp only [direct, Option.some.injEq] at found
      rw [← found]
      exact isHeld_of_resolveColor direct
  | error failure =>
      cases stand : (Anchors.standIn? slot).bind fun color =>
          (resolver.index.findColor? color).map fun token => Anchor.mk token color with
      | none => simp [direct, stand] at found
      | some other =>
          simp only [direct, stand, Option.some.injEq] at found
          obtain ⟨color, -, inner⟩ := Option.bind_eq_some_iff.1 stand
          obtain ⟨token, named, rfl⟩ := Option.map_eq_some_iff.1 inner
          rw [← found]
          exact Token.Index.getElem?_of_findColor? named

/-- Every anchor of a mode is held. -/
theorem isHeld_of_bound {slot : CoreSlot} {anchor : Anchor}
    (bound : (slot, anchor) ∈ (configuration.anchorsOf mode).bound) :
    anchor.IsHeld configuration.index := by
  obtain ⟨⟨slot', anchor', issue⟩, listed, given⟩ := List.mem_filterMap.1 bound
  obtain ⟨own, -, equal⟩ := List.mem_map.1 listed
  obtain ⟨-, resolved⟩ := Prod.mk.inj equal
  cases anchor' with
  | none => cases given
  | some found =>
      cases given
      exact isHeld_of_resolveSlot (congrArg Prod.fst resolved)

theorem mem_bound_of_get? {anchors : Anchors} {slot : CoreSlot} {anchor : Anchor}
    (found : anchors.get? slot = some anchor) : (slot, anchor) ∈ anchors.bound := by
  obtain ⟨before, after, split, -⟩ := List.lookup_eq_some_iff.1 found
  rw [split]
  exact List.mem_append_right _ List.mem_cons_self

theorem isHeld_of_get? {slot : CoreSlot} {anchor : Anchor}
    (found : (configuration.anchorsOf mode).get? slot = some anchor) :
    anchor.IsHeld configuration.index :=
  isHeld_of_bound (mem_bound_of_get? found)

/-- The black and white anchors are held. -/
theorem isHeld_of_contrasting? {black white : Anchor}
    (found : (configuration.anchorsOf mode).contrasting? = some (black, white)) :
    black.IsHeld configuration.index ∧ white.IsHeld configuration.index := by
  rw [Anchors.contrasting?] at found
  split at found
  · next blackFound whiteFound =>
      cases found
      exact ⟨isHeld_of_get? blackFound, isHeld_of_get? whiteFound⟩
  · cases found

/-! ## Ramps and palettes -/

/-- The level of a ramp is a token of the ramp's color. -/
theorem getElem?_of_ramp? {name : String} {ramp : Ramp} {level : Token.Level} {color : Color}
    (found : configuration.index.ramp? name = some ramp) (held : ramp.color? level = some color) :
    configuration.index.values[ramp.path level]? = some (.color color) := by
  rw [configuration.index_eq] at found ⊢
  exact Token.Index.getElem?_values_of_ramp found held

/-- What is known about a palette that a key binds. -/
theorem paletteOf_eq_some {key : String} {palette : Palette}
    (bound : configuration.paletteOf mode key = some palette) :
    palette.key = key ∧ ∃ name ramp, configuration.index.ramp? name = some ramp ∧
      palette.levels = Palette.levelsOf ramp (configuration.anchorsOf mode) := by
  cases ramped : Palette.resolveRamp (configuration.resolver mode) key with
  | error failure =>
      rw [paletteOf, Palette.resolve, ramped] at bound
      cases bound
  | ok ramp =>
      obtain ⟨primary, notes, resolved⟩ :=
        Palette.resolve_of_ramp (configuration.anchorsOf mode) ramped
      rw [paletteOf, resolved] at bound
      cases bound
      refine ⟨rfl, ?_⟩
      unfold Palette.resolveRamp at ramped
      simp only at ramped
      split at ramped
      · next name target =>
          split at ramped
          · next ramp' found =>
              cases ramped
              exact ⟨name, ramp, found, rfl⟩
          · cases ramped
      · cases ramped
      · cases ramped

/-- A named level is one of the palette's. -/
theorem mem_of_named? {palette : Palette} {level : Option Token.Level} {entry : PaletteLevel}
    (named : palette.named? level = some entry) : entry ∈ palette.levels := by
  cases level with
  | some level => exact List.mem_of_find?_eq_some named
  | none =>
      obtain ⟨level, -, found⟩ := Option.bind_eq_some_iff.1 named
      exact List.mem_of_find?_eq_some found

/-- The tone of a palette level is held, and its on-tone was chosen for it. -/
theorem isHeld_of_named? {key : String} {palette : Palette} {level : Option Token.Level}
    {entry : PaletteLevel} (bound : configuration.paletteOf mode key = some palette)
    (named : palette.named? level = some entry) :
    entry.tone.IsHeld configuration.index ∧
      entry.onTone = (configuration.anchorsOf mode).contrasting?.map fun (black, white) =>
        OnTone.choose entry.tone.color black white := by
  obtain ⟨-, name, ramp, found, levels⟩ := paletteOf_eq_some bound
  have listed := mem_of_named? named
  rw [levels] at listed
  obtain ⟨⟨own, color⟩, shade, rfl⟩ := List.mem_map.1 listed
  exact ⟨getElem?_of_ramp? found (Std.TreeMap.mem_toList_iff_getElem?_eq_some.1 shade), rfl⟩

/-- The better of two candidates is one of them. -/
theorem better_cases (first second : OnTone) :
    OnTone.better first second = first ∨ OnTone.better first second = second := by
  rw [OnTone.better]
  split
  · exact .inl rfl
  · exact .inr rfl
  · split
    · exact .inl rfl
    · exact .inr rfl

/-- An on-tone is black or white, with its contrast on the tone. -/
theorem choose_cases (tone : Color) (black white : Anchor) :
    OnTone.choose tone black white =
        ⟨.black, black, ContrastRatio.between tone black.color⟩ ∨
      OnTone.choose tone black white =
        ⟨.white, white, ContrastRatio.between tone white.color⟩ :=
  better_cases _ _

/-- The ratio of an on-tone is the contrast of its anchor on the tone. -/
theorem ratio_choose (tone : Color) (black white : Anchor) :
    (OnTone.choose tone black white).ratio =
      ContrastRatio.between tone (OnTone.choose tone black white).anchor.color := by
  rcases choose_cases tone black white with equal | equal <;> rw [equal]

theorem isHeld_of_choose {tone : Color} {black white : Anchor}
    (found : (configuration.anchorsOf mode).contrasting? = some (black, white)) :
    (OnTone.choose tone black white).anchor.IsHeld configuration.index := by
  obtain ⟨blackHeld, whiteHeld⟩ := isHeld_of_contrasting? found
  rcases choose_cases tone black white with equal | equal
  · rw [equal]
    exact blackHeld
  · rw [equal]
    exact whiteHeld

/-! ## Surfaces and searches -/

/-- A bound surface holds the color that its reference leads to. -/
theorem resolveColor_of_surfaceBinding {context : LayerContext} {layer : LayerId}
    {reference : Reference} {anchor : Anchor}
    (bound : context.surfaceBinding layer = .ok (reference, anchor)) :
    context.resolver.resolveColor reference = .ok anchor := by
  rw [LayerContext.surfaceBinding] at bound
  split at bound
  · cases bound
  · next text _ =>
      simp only at bound
      cases resolved : context.resolver.resolveColor (Reference.read text) with
      | error failure =>
          rw [resolved] at bound
          cases bound
      | ok anchor' =>
          rw [resolved] at bound
          cases bound
          exact resolved

/-- The token of a surface is held. -/
theorem isHeld_of_surfaceOf {layer : LayerId} {surface : Surface}
    (found : configuration.surfaceOf mode layer = some surface) :
    configuration.index.values[surface.backdrop.token]? = some (.color surface.backdrop.color) := by
  rw [surfaceOf] at found
  rcases surface_cases (configuration.layersOf mode) layer with
    ⟨issues, none⟩ | ⟨anchor, palette, isFallback, input, issues, source, given⟩
  · rw [none] at found
    cases found
  · rw [given] at found
    cases found
    cases source with
    | token binding plain => exact isHeld_of_resolveColor (resolveColor_of_surfaceBinding binding)
    | tone binding source => exact isHeld_of_resolveColor (resolveColor_of_surfaceBinding binding)
    | standIn stand => exact isHeld_of_get? stand

/-- What a search chooses is a level of its ramp, measured on the background. -/
theorem chosen_of_search? {ramp : Ramp} {start : Token.Level} {background : Color}
    {opacity : Float} {step : Step} (found : ramp.search? start background opacity = some step) :
    (∃ level color, ramp.color? level = some color ∧
        step.chosen = Candidate.measure level color background opacity) ∧
      (step.isLegible = true → step.chosen.isLegible = true) := by
  have listed {candidate : Candidate}
      (member : candidate ∈ ramp.candidates start background opacity) :
      ∃ level color, ramp.color? level = some color ∧
        candidate = Candidate.measure level color background opacity := by
    obtain ⟨color, held, measured⟩ := Ramp.measured_of_mem_candidates member
    exact ⟨_, color, held, measured⟩
  rw [Ramp.search?] at found
  rcases Step.choose?_cases (ramp.candidates start background opacity) with
    ⟨-, outcome⟩ | ⟨before, legible, after, split, -, reads, outcome⟩ |
      ⟨first, rest, split, -, outcome⟩
  · cases outcome.symm.trans found
  · cases outcome.symm.trans found
    refine ⟨listed ?_, fun _ => reads⟩
    rw [split]
    exact List.mem_append_right _ List.mem_cons_self
  · cases outcome.symm.trans found
    refine ⟨listed ?_, fun isLegible => by cases isLegible⟩
    rw [split]
    exact List.mem_cons_self

section Search

variable {anchor : Anchor} {backdrop : Backdrop} {blended : Bool}

/-- The token that a search chose is held. -/
theorem isHeld_of_search (search : configuration.SearchOf mode anchor backdrop blended) :
    configuration.index.values[search.token]? = some (.color search.step.chosen.color) := by
  obtain ⟨⟨level, color, held, equal⟩, -⟩ := chosen_of_search? search.step_eq
  have chosen : search.ramp.color? search.step.chosen.level = some search.step.chosen.color := by
    rw [equal]
    exact held
  exact getElem?_of_ramp? search.ramp_eq chosen

/-- The emphasis of text is held as a share. -/
theorem isHeld_of_emphasisFor {emphasis : Emphasis}
    (found : (configuration.layersOf mode).emphasisFor blended = some emphasis) :
    configuration.index.values[emphasis.token]? = some (.number emphasis.opacity) ∧
      Token.isShare emphasis.opacity = true := by
  have resolved := (Option.filter_eq_some_iff.1 found).1
  change (Emphasis.resolve (configuration.resolver mode)
    configuration.options.textEmphasis).1 = some emphasis at resolved
  unfold Emphasis.resolve at resolved
  split at resolved
  · cases resolved
  · next text _ _ =>
      split at resolved
      · next found' =>
          cases resolved
          unfold Emphasis.ofReference at found'
          split at found'
          · cases found'
          · next token led =>
              obtain ⟨value, held⟩ := Resolver.exists_of_resolveToken led
              rw [Token.Index.get?_of_held held] at found'
              split at found'
              · next opacity isNumber =>
                  split at found'
                  · next share =>
                      cases found'
                      cases isNumber
                      exact ⟨held, share⟩
                  · cases found'
              · cases found'
      · cases resolved

/-- The entry of a foreground composes to the color that its search measured. -/
theorem composes_of_search (search : configuration.SearchOf mode anchor backdrop blended)
    (origin : Origin)
    (held : blended = true →
      configuration.index.values[backdrop.token]? = some (.color backdrop.color)) :
    Composes configuration.index (search.entry origin).value search.step.chosen.composite := by
  have own := isHeld_of_search search
  obtain ⟨⟨level, color, -, equal⟩, -⟩ := chosen_of_search? search.step_eq
  rw [ForegroundSearch.entry]
  cases found : (configuration.layersOf mode).emphasisFor blended with
  | none =>
      rw [found] at equal
      have full : search.step.chosen.composite = search.step.chosen.color := by
        rw [equal]
        exact Color.blendOver_one color backdrop.color
      rw [full]
      exact .reference own
  | some emphasis =>
      rw [found] at equal
      have isBlended : blended = true := by
        have kept := (Option.filter_eq_some_iff.1 found).2
        simp only [Bool.and_eq_true] at kept
        exact kept.1
      have composite : search.step.chosen.composite =
          search.step.chosen.color.blendOver backdrop.color emphasis.opacity := by
        rw [equal]
        rfl
      rw [composite]
      obtain ⟨opacity, isShare⟩ := isHeld_of_emphasisFor found
      exact .blend own (held isBlended) opacity isShare

/-- A foreground that was found legible is legible on its backdrop. -/
theorem legible_of_search (search : configuration.SearchOf mode anchor backdrop blended)
    (legible : search.step.isLegible = true) :
    ContrastRatio.threshold ≤
      ContrastRatio.between search.step.chosen.composite backdrop.color := by
  obtain ⟨⟨level, color, -, equal⟩, chosen⟩ := chosen_of_search? search.step_eq
  have enough := chosen legible
  rw [equal] at enough ⊢
  exact of_decide_eq_true enough

end Search

end Configuration

end Legible
