import Legible.Proofs.Theme.Backdrop
import Legible.Proofs.Theme.Presence

/-!
# What a layer searches for

On its surface a layer looks for a text, a tone and an on-tone for each state of the
interactive color, and a text for each status color. All of them are found in one way:
a search of the ramp of an anchor, on a backdrop, derived from that backdrop and a few
core colors and on-tones. `Seeks` lists the searches with their parameters, and
everything that a layer adds on its surface is what one of them finds.
-/

namespace Legible

open Property

/-- What a layer searches for, by name: the anchor where the search starts, what the
result has to be legible on, whether it is blended, and what it is derived from apart
from that backdrop. -/
inductive LayerContext.Seeks (context : LayerContext) (surface : Surface) :
    Name → Anchor → Backdrop → Bool → List Name → Prop where
  | text {anchor : Anchor} {followed : Option Name}
      (chosen : context.textAnchor? surface = some (anchor, followed)) :
      Seeks context surface (surface.layer.element context.mode ["text"]) anchor surface.backdrop
        true (Anchors.contrastInputs context.mode ++ followed.toList)
  | tone {state : InteractiveState} {anchor : Anchor}
      (bound : context.anchors.get? (.interactive state) = some anchor) :
      Seeks context surface (surface.layer.element context.mode (LayerId.tonePath state)) anchor
        surface.backdrop false [(CoreSlot.interactive state).property context.mode]
  | onTone {state : InteractiveState} {anchor onAnchor : Anchor} {slot : CoreSlot}
      (bound : context.anchors.get? (.interactive state) = some anchor)
      (tone : ForegroundSearch context anchor surface.backdrop false)
      (better : context.anchors.better? tone.step.chosen.color = some (slot, onAnchor)) :
      Seeks context surface (surface.layer.element context.mode (LayerId.onTonePath state)) onAnchor
        ⟨surface.layer.element context.mode (LayerId.tonePath state),
          Token.Path.color anchor.token.key tone.step.chosen.level, tone.step.chosen.color⟩
        false (Anchors.contrastInputs context.mode)
  | status {color : CoreColor} {anchor : Anchor} (listed : color ∈ CoreColor.status)
      (bound : context.anchors.get? (.plain color) = some anchor) :
      Seeks context surface (surface.layer.element context.mode [color.text, "text"]) anchor
        surface.backdrop true [(CoreSlot.plain color).property context.mode]

namespace LayerContext

variable {context : LayerContext} {surface : Surface}

/-- An entry that a layer finds for its surface. -/
inductive Finds (context : LayerContext) (surface : Surface) : Name → Entry → Prop where
  | intro {name : Name} {anchor : Anchor} {backdrop : Backdrop} {blended : Bool}
      {inputs : List Name} (sought : context.Seeks surface name anchor backdrop blended inputs)
      (search : ForegroundSearch context anchor backdrop blended) :
      Finds context surface name
        (search.entry ((Origin.ofInputs inputs).against backdrop.name))

section Finds

variable {name : Name} {entry : Entry}

/-- A foreground that a layer searches for is found with its search. -/
theorem finds_of_foreground {own : Name} {anchor : Anchor} {backdrop : Backdrop}
    {blended : Bool} {inputs : List Name}
    (sought : context.Seeks surface own anchor backdrop blended inputs)
    (member : (name, entry) ∈ (context.foreground own anchor backdrop blended
      ((Origin.ofInputs inputs).against backdrop.name)).2.entries) :
    context.Finds surface name entry := by
  obtain ⟨rfl, search, rfl⟩ := mem_foreground.1 member
  exact .intro sought search

theorem finds_of_text (member : (name, entry) ∈ (context.text surface).entries) :
    context.Finds surface name entry := by
  unfold text at member
  dsimp only at member
  split at member
  · cases member
  · next anchor followed chosen => exact finds_of_foreground (.text chosen) member

theorem finds_of_status {color : CoreColor} (listed : color ∈ CoreColor.status)
    (member : (name, entry) ∈ (context.status surface color).entries) :
    context.Finds surface name entry := by
  unfold status at member
  dsimp only at member
  split at member
  · cases member
  · next anchor bound => exact finds_of_foreground (.status listed bound) member

/-- A state of the interactive color adds a tone and, once that is found, an on-tone. -/
theorem mem_interactive {state : InteractiveState} :
    (name, entry) ∈ (context.interactive surface state).entries ↔
      ∃ anchor, context.anchors.get? (.interactive state) = some anchor ∧
        ∃ tone : ForegroundSearch context anchor surface.backdrop false,
          (name, entry) = (surface.layer.element context.mode (LayerId.tonePath state),
              tone.entry ((Origin.ofInputs
                [(CoreSlot.interactive state).property context.mode]).against
                  surface.backdrop.name)) ∨
            (name, entry) ∈ (context.interactiveOnTone surface state
              (surface.layer.element context.mode (LayerId.tonePath state)) anchor
              tone.step).entries := by
  rw [interactive]
  cases bound : context.anchors.get? (.interactive state) with
  | none => simp
  | some anchor =>
      simp only [Option.some.injEq, exists_eq_left']
      rcases context.foreground_cases (surface.layer.element context.mode
          ["interactive", state.text, "tone"]) anchor surface.backdrop false
          ((Origin.ofInputs [(CoreSlot.interactive state).property context.mode]).against
            surface.backdrop.name) with ⟨issues, none⟩ | ⟨tone, found⟩
      · rw [none]
        constructor
        · intro member
          cases member
        · rintro ⟨tone, -⟩
          rw [foreground_of_search tone] at none
          cases none
      · rw [found]
        constructor
        · intro member
          rcases List.mem_append.1 member with own | onTone
          · exact ⟨tone, .inl (List.mem_singleton.1 own)⟩
          · exact ⟨tone, .inr onTone⟩
        · rintro ⟨tone', member⟩
          rw [Subsingleton.elim tone' tone] at member
          refine List.mem_append.2 (member.imp_left fun own => ?_)
          rw [own]
          exact List.mem_singleton_self _

theorem finds_of_interactive {state : InteractiveState}
    (member : (name, entry) ∈ (context.interactive surface state).entries) :
    context.Finds surface name entry := by
  obtain ⟨anchor, bound, tone, own | onTone⟩ := mem_interactive.1 member
  · cases own
    exact .intro (.tone bound) tone
  · unfold interactiveOnTone at onTone
    split at onTone
    · cases onTone
    · next slot onAnchor better =>
        exact finds_of_foreground (.onTone bound tone better) onTone

/-- What a layer adds on its surface is what it finds. -/
theorem finds_of_mem_elements (member : (name, entry) ∈ (context.elements surface).entries) :
    context.Finds surface name entry := by
  rcases List.mem_append.1 member with before | statuses
  · rcases List.mem_append.1 before with text | states
    · exact finds_of_text text
    · obtain ⟨_, listed, held⟩ := List.mem_flatMap.1 states
      obtain ⟨state, -, rfl⟩ := List.mem_map.1 listed
      exact finds_of_interactive held
  · obtain ⟨_, listed, held⟩ := List.mem_flatMap.1 statuses
    obtain ⟨color, status, rfl⟩ := List.mem_map.1 listed
    exact finds_of_status status held

/-- The tone that an on-tone stands on is among what a layer adds. -/
theorem exists_mem_elements_of_tone {state : InteractiveState} {anchor : Anchor}
    (bound : context.anchors.get? (.interactive state) = some anchor)
    (tone : ForegroundSearch context anchor surface.backdrop false) :
    ∃ entry, (surface.layer.element context.mode (LayerId.tonePath state), entry) ∈
      (context.elements surface).entries := by
  refine ⟨_, List.mem_append_left _ (List.mem_append_right _ (List.mem_flatMap.2
    ⟨_, List.mem_map.2 ⟨state, ?_, rfl⟩, mem_interactive.2 ⟨anchor, bound, tone, .inl rfl⟩⟩))⟩
  cases state <;> decide

end Finds

end LayerContext

end Legible
