import Legible.Proofs.Theme.Binding
import Legible.Proofs.Theme.Reported
import Legible.Proofs.Theme.Stepping
import Legible.Proofs.Watch.Run

/-!
# Everything that a layer declares

A layer declares a surface and, on it, a text, a tone and an on-tone for each state of
the interactive color, and a text for each status color. Each of these is in the
computed map, or else a cause of its absence is reported: the element itself, its
surface, or a core color that it starts from. An on-tone has the causes of its tone as
well. A cause counts only when the map lacks it too, so an issue that came with a
stand-in excuses nothing.
-/

namespace Legible

open Property

/-- An element of a layer. -/
inductive LayerElement where
  | surface
  | text
  | tone (state : InteractiveState)
  | onTone (state : InteractiveState)
  | status (color : CoreColor)
  deriving DecidableEq, Repr

/-- Something that an element is derived from: its property, and where it is reported. -/
structure Cause where
  property : Name
  locus : String
  deriving DecidableEq, Repr

namespace Cause

/-- A property that is reported under its own name. -/
def ofName (name : Name) : Cause := ⟨name, name.text⟩

/-- The surface of a layer, reported at its binding. -/
def ofSurface (mode : Mode) (layer : LayerId) : Cause :=
  ⟨layer.surface mode, String.intercalate "." (layer.surfacePath mode)⟩

/-- A core color, reported at its binding. -/
def ofSlot (mode : Mode) (slot : CoreSlot) : Cause :=
  ⟨slot.property mode, String.intercalate "." (slot.documentPath mode)⟩

end Cause

namespace LayerElement

/-- The elements of every layer. -/
def all : List LayerElement :=
  [surface, text] ++ InteractiveState.all.map tone ++ InteractiveState.all.map onTone ++
    CoreColor.status.map status

/-- The path of an element below its layer. -/
def path : LayerElement → List String
  | surface => ["surface"]
  | text => ["text"]
  | tone state => LayerId.tonePath state
  | onTone state => LayerId.onTonePath state
  | status color => [color.text, "text"]

/-- The brand property of an element. -/
def property (mode : Mode) (layer : LayerId) (element : LayerElement) : Name :=
  layer.element mode element.path

/-- The core colors that the search for an element starts from. -/
def slots : LayerElement → List CoreSlot
  | surface => []
  | text | onTone _ => [.black, .white]
  | tone state => [.interactive state]
  | status color => [.plain color]

/-- The tone that an element stands on. -/
def tone? : LayerElement → Option LayerElement
  | onTone state => some (tone state)
  | _ => none

/-- The causes of an element, apart from those of a tone that it stands on. -/
def ownCauses (mode : Mode) (layer : LayerId) (element : LayerElement) : List Cause :=
  .ofName (element.property mode layer) :: .ofSurface mode layer ::
    element.slots.map (.ofSlot mode)

/-- What an element can be missing for. -/
def causes (mode : Mode) (layer : LayerId) (element : LayerElement) : List Cause :=
  element.ownCauses mode layer ++
    (element.tone?.toList.flatMap fun tone => tone.ownCauses mode layer)

variable {mode : Mode} {layer : LayerId} {element : LayerElement}

theorem ofName_mem_causes : .ofName (element.property mode layer) ∈ element.causes mode layer :=
  List.mem_append_left _ List.mem_cons_self

theorem ofSurface_mem_causes : .ofSurface mode layer ∈ element.causes mode layer :=
  List.mem_append_left _ (List.mem_cons_of_mem _ List.mem_cons_self)

theorem ofSlot_mem_causes {slot : CoreSlot} (listed : slot ∈ element.slots) :
    .ofSlot mode slot ∈ element.causes mode layer :=
  List.mem_append_left _
    (List.mem_cons_of_mem _ (List.mem_cons_of_mem _ (List.mem_map_of_mem listed)))

theorem causes_tone_subset (state : InteractiveState) :
    (tone state).causes mode layer ⊆ (onTone state).causes mode layer := by
  intro cause listed
  refine List.mem_append_right _ (List.mem_flatMap.2 ⟨tone state, List.mem_singleton_self _, ?_⟩)
  exact (List.mem_append.1 listed).resolve_right List.not_mem_nil

end LayerElement

namespace Emission

/-- Whether everything that one emission gives is given by another. -/
structure Within (part whole : Emission) : Prop where
  entries : part.entries ⊆ whole.entries
  issues : part.issues ⊆ whole.issues

theorem within_refl (emission : Emission) : emission.Within emission :=
  ⟨List.Subset.refl _, List.Subset.refl _⟩

theorem Within.trans {first second third : Emission} (low : first.Within second)
    (high : second.Within third) : first.Within third :=
  ⟨List.Subset.trans low.entries high.entries, List.Subset.trans low.issues high.issues⟩

theorem within_append_left (first second : Emission) : first.Within (first ++ second) :=
  ⟨List.subset_append_left _ _, List.subset_append_left _ _⟩

theorem within_append_right (first second : Emission) : second.Within (first ++ second) :=
  ⟨List.subset_append_right _ _, List.subset_append_right _ _⟩

theorem within_join {emissions : List Emission} {emission : Emission}
    (listed : emission ∈ emissions) : emission.Within (join emissions) :=
  ⟨fun _ member => List.mem_flatMap.2 ⟨emission, listed, member⟩,
    fun _ member => List.mem_flatMap.2 ⟨emission, listed, member⟩⟩

end Emission

namespace LayerContext

open Emission

variable (context : LayerContext) (surface : Surface)

theorem within_text : (context.text surface).Within (context.elements surface) :=
  (within_append_left _ _).trans (within_append_left _ _)

theorem within_interactive (state : InteractiveState) :
    (context.interactive surface state).Within (context.elements surface) := by
  have listed : state ∈ InteractiveState.all := by cases state <;> decide
  refine .trans (within_join (List.mem_map_of_mem listed)) ?_
  exact (within_append_right _ _).trans (within_append_left _ _)

theorem within_status {color : CoreColor} (listed : color ∈ CoreColor.status) :
    (context.status surface color).Within (context.elements surface) :=
  (within_join (List.mem_map_of_mem listed)).trans (within_append_right _ _)

variable {state : InteractiveState} {anchor : Anchor}
  (bound : context.anchors.get? (.interactive state) = some anchor)

include bound

theorem within_tone :
    (context.foreground (surface.layer.element context.mode (LayerId.tonePath state)) anchor
      surface.backdrop false ((Origin.ofInputs
        [(CoreSlot.interactive state).property context.mode]).against
          surface.backdrop.name)).2.Within (context.elements surface) := by
  refine .trans ?_ (context.within_interactive surface state)
  rw [interactive]
  simp only [bound]
  split
  · exact within_refl _
  · exact within_append_left _ _

theorem within_onTone (tone : ForegroundSearch context anchor surface.backdrop false) :
    (context.interactiveOnTone surface state
      (surface.layer.element context.mode (LayerId.tonePath state)) anchor tone.step).Within
        (context.elements surface) := by
  refine .trans ?_ (context.within_interactive surface state)
  rw [interactive]
  simp only [bound, foreground_of_search tone]
  exact within_append_right _ _

end LayerContext

namespace Configuration

open Emission LayerElement

variable {configuration : Configuration} {mode : Mode} {layer : LayerId} {surface : Surface}

/-- Whether an element is added, or a cause of its absence is missing and reported. -/
def Accounts (configuration : Configuration) (mode : Mode) (layer : LayerId)
    (element : LayerElement) : Prop :=
  configuration.Adds (element.property mode layer) ∨
    ∃ cause ∈ element.causes mode layer,
      ¬ configuration.Adds cause.property ∧ configuration.Reports cause.locus

/-- A layer that a theme lists belongs to a mode that it declares. -/
theorem mem_modes_of_mem_layerIds (listed : layer ∈ layerIds configuration.theme mode) :
    mode ∈ configuration.modes := by
  have keyed : ∃ key, key ∈ configuration.theme.keys ["themes", mode.text, "layers"] := by
    rcases List.mem_append.1 listed with numbered | alternative
    · obtain ⟨number, sorted, -⟩ := List.mem_map.1 numbered
      obtain ⟨key, found, -⟩ := List.mem_filterMap.1 (List.mem_mergeSort.1 sorted)
      exact ⟨key, found⟩
    · obtain ⟨name, found, -⟩ := List.mem_map.1 alternative
      obtain ⟨key, found, -⟩ := List.mem_flatMap.1 found
      exact ⟨key, found⟩
  obtain ⟨key, found⟩ := keyed
  exact mem_modes_of_mem_keys found

/-! ## Causes -/

/-- A core color without an anchor accounts for what starts from it. -/
theorem accounts_of_unbound (declared : mode ∈ configuration.modes) {element : LayerElement}
    {slot : CoreSlot} (listed : slot ∈ CoreSlot.all) (starts : slot ∈ element.slots)
    (unbound : (configuration.anchorsOf mode).get? slot = none) :
    configuration.Accounts mode layer element :=
  .inr ⟨_, ofSlot_mem_causes starts, not_adds_of_unbound unbound,
    reports_of_unbound declared listed unbound⟩

/-- Without both black and white, one of them accounts for what starts from them. -/
theorem accounts_of_contrasting? (declared : mode ∈ configuration.modes)
    {element : LayerElement} (black : .black ∈ element.slots) (white : .white ∈ element.slots)
    (none : (configuration.anchorsOf mode).contrasting? = none) :
    configuration.Accounts mode layer element := by
  cases blackFound : (configuration.anchorsOf mode).get? .black with
  | none => exact accounts_of_unbound declared (by decide) black blackFound
  | some _ =>
      cases whiteFound : (configuration.anchorsOf mode).get? .white with
      | none => exact accounts_of_unbound declared (by decide) white whiteFound
      | some _ =>
          rw [Anchors.contrasting?, blackFound, whiteFound] at none
          cases none

/-- An issue under its own name accounts for an element. -/
theorem accounts_of_reported {element : LayerElement}
    (settled : configuration.Adds (element.property mode layer) ∨
      configuration.Reports (element.property mode layer).text) :
    configuration.Accounts mode layer element := by
  by_cases added : configuration.Adds (element.property mode layer)
  · exact .inl added
  · exact .inr ⟨_, ofName_mem_causes, added, settled.resolve_left added⟩

/-- Whatever accounts for a tone that is missing accounts for its on-tone. -/
theorem accounts_onTone_of_tone {state : InteractiveState}
    (missing : ¬ configuration.Adds (LayerElement.property mode layer (tone state)))
    (accounted : configuration.Accounts mode layer (tone state)) :
    configuration.Accounts mode layer (onTone state) := by
  obtain ⟨cause, listed, absent, reported⟩ := accounted.resolve_left missing
  exact .inr ⟨cause, causes_tone_subset state listed, absent, reported⟩

/-! ## Foregrounds -/

/-- A search whose anchor the index holds succeeds, or says why it was not made. -/
theorem search_or_issue (mode : Mode) {anchor : Anchor} (held : anchor.IsHeld configuration.index)
    (name : Name) (backdrop : Backdrop) (blended : Bool) (origin : Origin) :
    Nonempty (configuration.SearchOf mode anchor backdrop blended) ∨
      ∃ issue, (configuration.layersOf mode).foreground name anchor backdrop blended origin =
        (none, .ofIssues [issue]) ∧ issue.locus = name.text := by
  cases leveled : anchor.token.level with
  | none =>
      refine .inr ⟨Issue.warning .reference name.text
        (anchor.token.text ++ " is not a ramp level"), ?_, rfl⟩
      cases ramped : (configuration.layersOf mode).resolver.index.ramp? anchor.token.key <;>
        simp only [LayerContext.foreground, ramped, leveled]
  | some start =>
      have held' := held
      rw [Anchor.IsHeld, configuration.index_eq] at held'
      obtain ⟨ramp, color, ramped, colored⟩ := Token.Index.exists_color?_of_held held' leveled
      rw [← configuration.index_eq] at ramped
      obtain ⟨step, found⟩ := Ramp.exists_search? colored backdrop.color
        ((((configuration.layersOf mode).emphasisFor blended).map Emphasis.opacity).getD 1)
      exact .inl ⟨⟨ramp, start, step, ramped, leveled, found⟩⟩

/-- A tone is only there when its search was made on the surface. -/
theorem search_of_adds_tone (found : configuration.surfaceOf mode layer = some surface)
    {state : InteractiveState}
    (added : configuration.Adds (LayerElement.property mode layer (tone state))) :
    ∃ anchor, (configuration.anchorsOf mode).get? (.interactive state) = some anchor ∧
      Nonempty (configuration.SearchOf mode anchor surface.backdrop false) := by
  obtain ⟨entry, member⟩ := added
  obtain ⟨surface', anchor, found', bound, search, -⟩ := (part_of_mem member).of_interactiveTone
  cases found.symm.trans found'
  exact ⟨anchor, bound, ⟨search⟩⟩

/-- An anchor that is black or white is held. -/
theorem isHeld_of_either {black white anchor : Anchor}
    (contrasting : (configuration.anchorsOf mode).contrasting? = some (black, white))
    (either : anchor = black ∨ anchor = white) : anchor.IsHeld configuration.index := by
  obtain ⟨blackHeld, whiteHeld⟩ := isHeld_of_contrasting? contrasting
  rcases either with rfl | rfl
  · exact blackHeld
  · exact whiteHeld

section OnSurface

variable (declared : mode ∈ configuration.modes)
  (listed : layer ∈ layerIds configuration.theme mode)
  (found : configuration.surfaceOf mode layer = some surface)

include declared listed found

/-- What is reported on a surface is reported by the computation. -/
theorem reports_of_elements {issue : Issue}
    (member : issue ∈ ((configuration.layersOf mode).elements surface).issues) :
    configuration.Reports issue.locus := by
  refine ⟨issue, mem_issues_of_layer declared listed ?_, rfl⟩
  rw [surfaceOf] at found
  rw [LayerContext.layer]
  cases whole : (configuration.layersOf mode).surface layer with
  | mk own emission =>
      rw [whole] at found
      simp only at found
      rw [found]
      exact List.mem_append_right _ member

/-- A foreground on a surface whose anchor is held is added or reported. -/
theorem adds_or_reports_of_foreground {anchor : Anchor}
    (held : anchor.IsHeld configuration.index) {name : Name} {backdrop : Backdrop}
    {blended : Bool} {origin : Origin}
    (within : ((configuration.layersOf mode).foreground name anchor backdrop blended
      origin).2.Within ((configuration.layersOf mode).elements surface)) :
    configuration.Adds name ∨ configuration.Reports name.text := by
  rcases search_or_issue mode held name backdrop blended origin with
    ⟨⟨search⟩⟩ | ⟨issue, given, locus⟩
  · have member := LayerContext.mem_foreground.2 ⟨@rfl _ name, search, @rfl _ (search.entry origin)⟩
    exact .inl (adds_element declared listed found (within.entries member))
  · rw [given] at within
    refine .inr (locus ▸ reports_of_elements declared listed found ?_)
    exact within.issues (List.mem_singleton_self _)

theorem accounts_text : configuration.Accounts mode layer .text := by
  obtain ⟨ownLayer, -⟩ := backdrop_name_of_surfaceOf found
  have within := (configuration.layersOf mode).within_text surface
  rw [LayerContext.text] at within
  refine accounts_of_reported ?_
  cases chosen : (configuration.layersOf mode).textAnchor? surface with
  | none =>
      simp only [chosen, ownLayer] at within
      exact .inr (reports_of_elements declared listed found
        (within.issues (List.mem_singleton_self _)))
  | some found' =>
      obtain ⟨anchor, followed⟩ := found'
      simp only [chosen, ownLayer] at within
      obtain ⟨⟨black, white, contrasting, either⟩, -⟩ := textAnchor?_cases chosen
      exact adds_or_reports_of_foreground declared listed found
        (isHeld_of_either contrasting either) within

theorem accounts_status {color : CoreColor} (status : color ∈ CoreColor.status) :
    configuration.Accounts mode layer (.status color) := by
  obtain ⟨ownLayer, -⟩ := backdrop_name_of_surfaceOf found
  have within := (configuration.layersOf mode).within_status surface status
  rw [LayerContext.status] at within
  cases bound : (configuration.anchorsOf mode).get? (.plain color) with
  | none =>
      refine accounts_of_unbound declared ?_ (List.mem_singleton_self _) bound
      revert status
      cases color <;> decide
  | some anchor =>
      have own : (configuration.layersOf mode).anchors.get? (.plain color) = some anchor := bound
      simp only [own, ownLayer] at within
      exact accounts_of_reported
        (adds_or_reports_of_foreground declared listed found (isHeld_of_get? bound) within)

theorem accounts_tone (state : InteractiveState) :
    configuration.Accounts mode layer (.tone state) := by
  obtain ⟨ownLayer, -⟩ := backdrop_name_of_surfaceOf found
  cases bound : (configuration.anchorsOf mode).get? (.interactive state) with
  | none =>
      refine accounts_of_unbound declared ?_ (List.mem_singleton_self _) bound
      cases state <;> decide
  | some anchor =>
      have within := (configuration.layersOf mode).within_tone surface bound
      rw [ownLayer] at within
      exact accounts_of_reported
        (adds_or_reports_of_foreground declared listed found (isHeld_of_get? bound) within)

theorem accounts_onTone (state : InteractiveState) :
    configuration.Accounts mode layer (.onTone state) := by
  obtain ⟨ownLayer, -⟩ := backdrop_name_of_surfaceOf found
  by_cases added : configuration.Adds (LayerElement.property mode layer (tone state))
  · obtain ⟨anchor, bound, ⟨search⟩⟩ := search_of_adds_tone found added
    have within := (configuration.layersOf mode).within_onTone surface bound search
    rw [LayerContext.interactiveOnTone] at within
    cases better : (configuration.anchorsOf mode).better? search.step.chosen.color with
    | none =>
        exact accounts_of_contrasting? declared List.mem_cons_self
          (List.mem_cons_of_mem _ List.mem_cons_self) (Option.map_eq_none_iff.1 better)
    | some chosen =>
        obtain ⟨slot, onAnchor⟩ := chosen
        have own : (configuration.layersOf mode).anchors.better? search.step.chosen.color =
            some (slot, onAnchor) := better
        simp only [own, ownLayer] at within
        obtain ⟨black, white, contrasting, either⟩ := contrasting?_of_better? better
        exact accounts_of_reported (adds_or_reports_of_foreground declared listed found
          (isHeld_of_either contrasting either) within)
  · exact accounts_onTone_of_tone added (accounts_tone declared listed found state)

end OnSurface

/-- A surface that is left out accounts for itself and for all that would stand on it. -/
theorem accounts_of_missing (declared : mode ∈ configuration.modes)
    (listed : layer ∈ layerIds configuration.theme mode)
    (missing : configuration.surfaceOf mode layer = none) (element : LayerElement) :
    configuration.Accounts mode layer element :=
  .inr ⟨_, ofSurface_mem_causes, not_adds_of_missing missing,
    reports_of_missing declared listed missing⟩

/-- Every element of a layer that a theme lists is in the computed map, or is missing for
a cause that the map lacks as well and that is reported. -/
theorem contains_or_reports (listed : layer ∈ layerIds configuration.theme mode)
    {element : LayerElement} (own : element ∈ LayerElement.all) :
    configuration.compute.map.contains (element.property mode layer) = true ∨
      ∃ cause ∈ element.causes mode layer,
        configuration.compute.map.contains cause.property = false ∧
        ∃ issue ∈ configuration.compute.issues, issue.locus = cause.locus := by
  have declared := mem_modes_of_mem_layerIds listed
  have accounted : configuration.Accounts mode layer element := by
    cases found : configuration.surfaceOf mode layer with
    | none => exact accounts_of_missing declared listed found element
    | some surface =>
        cases element with
        | surface => exact .inl (adds_surface declared listed found)
        | text => exact accounts_text declared listed found
        | tone state => exact accounts_tone declared listed found state
        | onTone state => exact accounts_onTone declared listed found state
        | status color =>
            refine accounts_status declared listed found ?_
            revert own
            cases color <;> decide
  rcases accounted with added | ⟨cause, given, absent, reported⟩
  · exact .inl ((contains_iff_adds _ _).2 added)
  · exact .inr ⟨cause, given, (contains_eq_false_iff_adds _ _).2 absent, reported⟩

/-- On a white surface, the on-tone of a state that binds no color is accounted for. -/
theorem contains_or_reports_onWhite :
    .indexed 0 ∈ layerIds Sample.onWhite.theme .light ∧
      LayerElement.onTone .hover ∈ LayerElement.all ∧
      (Sample.onWhite.compute.map.contains
          ((LayerElement.onTone .hover).property .light (.indexed 0)) = true ∨
        ∃ cause ∈ (LayerElement.onTone .hover).causes .light (.indexed 0),
          Sample.onWhite.compute.map.contains cause.property = false ∧
          ∃ issue ∈ Sample.onWhite.compute.issues, issue.locus = cause.locus) := by
  have listed : .indexed 0 ∈ layerIds Sample.onWhite.theme .light := by decide +kernel
  have own : LayerElement.onTone .hover ∈ LayerElement.all := by decide
  exact ⟨listed, own, contains_or_reports listed own⟩

/-- That on-tone is missing for its tone alone, and the tone for its core color: of what the
on-tone itself starts from, and under both of their names, nothing is reported. -/
theorem not_reports_onWhite :
    .indexed 0 ∈ layerIds Sample.onWhite.theme .light ∧
      LayerElement.onTone .hover ∈ LayerElement.all ∧
      ¬ (Sample.onWhite.compute.map.contains
          ((LayerElement.onTone .hover).property .light (.indexed 0)) = true ∨
        ∃ cause ∈ Cause.ofName ((LayerElement.tone .hover).property .light (.indexed 0)) ::
            (LayerElement.onTone .hover).ownCauses .light (.indexed 0),
          ∃ issue ∈ Sample.onWhite.compute.issues, issue.locus = cause.locus) := by
  decide +kernel

end Configuration

end Legible
