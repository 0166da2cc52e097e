import Legible.Proofs.Theme.Binding
import Legible.Proofs.Theme.Shown
import Legible.Proofs.Watch.Plan

/-!
# Live palette tones

A palette tone that was changed live is settled together with its on-tone: the tone
is kept, and the on-tone is chosen again for what the tone shows. No other property
stands on a palette tone, and no palette tone stands on anything.
-/

namespace Legible

open Property

/-! ## What a computed map says about tones -/

namespace Configuration

variable {configuration : Configuration} {mode : Mode} {key : String} {level : Option Token.Level}

/-- The anchors of a computation are those of its configuration. -/
theorem anchors?_compute {anchors : Anchors}
    (found : configuration.compute.anchors? mode = some anchors) :
    anchors = configuration.anchorsOf mode := by
  have ofList (modes : List Mode) :
      (modes.map fun mode => (mode, configuration.anchorsOf mode)).lookup mode = some anchors →
        anchors = configuration.anchorsOf mode := by
    induction modes with
    | nil =>
        intro none
        cases none
    | cons other rest inductionHypothesis =>
        intro held
        rw [List.map_cons, List.lookup_cons] at held
        split at held
        · next same =>
            rw [← Option.some.inj held, eq_of_beq same]
        · exact inductionHypothesis held
  have listed : configuration.compute.anchors =
      configuration.modes.map fun mode => (mode, configuration.anchorsOf mode) := by
    rw [compute]
    simp only [List.map_map]
    rfl
  rw [Computation.anchors?, listed] at found
  exact ofList _ found

/-- What the map binds as a tone has the name of the tone. -/
theorem name_of_binding? {name : Name}
    (bound : configuration.compute.map.binding? name = some (.tone mode key level)) :
    name = Palette.toneProperty mode key level := by
  cases binds_of_binding? bound
  rfl

theorem background?_cases {name background : Name}
    (opposite : configuration.compute.map.background? name = some background) :
    (∃ mode key level, name = Palette.onToneProperty mode key level ∧
        background = Palette.toneProperty mode key level) ∨
      ∃ mode path path', name = Name.brand mode .layer path ∧
        background = Name.brand mode .layer path' := by
  obtain ⟨origin, derived, back⟩ := Option.bind_eq_some_iff.1 opposite
  rw [compute_map] at derived
  obtain ⟨entry, member, own⟩ := PropertyMap.mem_of_origin? derived
  refine (part_of_mem member).background_cases ?_
  rw [own]
  exact back

/-- An on-tone stands on its tone. -/
theorem background?_onToneProperty {background : Name}
    (opposite : configuration.compute.map.background? (Palette.onToneProperty mode key level) =
      some background) : background = Palette.toneProperty mode key level := by
  rcases background?_cases opposite with ⟨_, _, _, same, back⟩ | ⟨_, _, _, same, -⟩
  · obtain ⟨rfl, rfl, rfl⟩ := Palette.onToneProperty_inj same
    exact back
  · exact absurd same (brand_ne_of_subsystem (by decide))

/-- Every on-tone of the map stands on its tone. -/
theorem background?_of_onToneProperty {value : Value}
    (held : configuration.compute.map.value? (Palette.onToneProperty mode key level) =
      some value) :
    configuration.compute.map.background? (Palette.onToneProperty mode key level) =
      some (Palette.toneProperty mode key level) := by
  have tier : (Palette.onToneProperty mode key level).tier ≠ .tokens := by
    rw [Palette.onToneProperty, Name.tier_brand]
    decide
  rw [compute_map] at held ⊢
  obtain ⟨entry, member, -, same⟩ :=
    PropertyMap.mem_of_value?_of_origins (fun _ => isSome_origin_of_mem tier) held
  rw [PropertyMap.background?, same]
  obtain ⟨_, _, _, _, _, -, -, ⟨own, -⟩ | ⟨own, _, -, rfl⟩⟩ := (part_of_mem member).of_palettes
  · exact absurd own.symm (Palette.toneProperty_ne_onToneProperty _ _ _ _ _ _)
  · obtain ⟨rfl, rfl, rfl⟩ := Palette.onToneProperty_inj own
    rfl

/-- What stands on a tone is its on-tone. -/
theorem eq_of_background?_toneProperty {name : Name}
    (opposite : configuration.compute.map.background? name =
      some (Palette.toneProperty mode key level)) :
    name = Palette.onToneProperty mode key level := by
  rcases background?_cases opposite with ⟨_, _, _, own, same⟩ | ⟨_, _, _, -, same⟩
  · obtain ⟨rfl, rfl, rfl⟩ := Palette.toneProperty_inj same
    exact own
  · exact absurd same (brand_ne_of_subsystem (by decide))

/-- A tone stands on nothing. -/
theorem background?_toneProperty :
    configuration.compute.map.background? (Palette.toneProperty mode key level) = none := by
  cases opposite : configuration.compute.map.background?
      (Palette.toneProperty mode key level) with
  | none => rfl
  | some background =>
      rcases background?_cases opposite with ⟨_, _, _, same, -⟩ | ⟨_, _, _, same, -⟩
      · exact absurd same (Palette.toneProperty_ne_onToneProperty _ _ _ _ _ _)
      · exact absurd same (brand_ne_of_subsystem (by decide))

end Configuration

/-! ## Tone plans -/

namespace ToneOverride

/-- The palette tone that a name is bound as. -/
def of? (bindings : PropertyMap) (name : Name) : Option ToneOverride :=
  match bindings.binding? name with
  | some (.tone mode key level) => some ⟨name, mode, key, level⟩
  | _ => none

/-- The on-tone of a live tone. -/
def onToneName (override : ToneOverride) : Name :=
  Palette.onToneProperty override.mode override.key override.level

/-- The color that a live tone shows, with the anchors to choose from. -/
structure Choice (registry : Registry) (next : Computation) (override : ToneOverride) where
  color : Color
  black : Anchor
  white : Anchor
  shown : registry.color override.tone = .ok color
  anchors : (next.anchors? override.mode).bind Anchors.contrasting? = some (black, white)

/-- The on-tone that is chosen. -/
def Choice.onTone {registry : Registry} {next : Computation} {override : ToneOverride}
    (choice : Choice registry next override) : OnTone :=
  OnTone.choose choice.color choice.black choice.white

end ToneOverride

namespace TonePlan

variable {registry : Registry} {next : Computation} {overrides : List ToneOverride}

/-- A live tone is settled by a choice, which is reported unless it is legible, or it is
to be written again. -/
theorem decide_cases (registry : Registry) (next : Computation) (plan : TonePlan)
    (override : ToneOverride) :
    (∃ choice : override.Choice registry next, ∃ issues : List Issue,
        (choice.onTone.isLegible = true ∨ ∃ issue ∈ issues, issue.locus = override.onToneName.text) ∧
          decide registry next plan override =
            { plan with
              writes := plan.writes ++
                [(override.onToneName, .reference choice.onTone.anchor.property)]
              kept := plan.kept ++ [override.tone]
              issues := plan.issues ++ issues }) ∨
      decide registry next plan override =
        { plan with forced := plan.forced ++ [override.tone] } := by
  cases shown : registry.color override.tone with
  | error error => exact .inr (by simp only [decide, shown])
  | ok color =>
      cases found : (next.anchors? override.mode).bind Anchors.contrasting? with
      | none => exact .inr (by simp only [decide, shown, found])
      | some anchors =>
          obtain ⟨black, white⟩ := anchors
          refine .inl ⟨⟨color, black, white, shown, found⟩, _, ?_,
            by simp only [decide, shown, found]; rfl⟩
          split
          · next legible => exact .inl legible
          · exact .inr ⟨_, List.mem_cons_self, rfl⟩

/-- What a tone plan writes was chosen for a live tone that it keeps, and whatever it
keeps it writes the on-tone of. -/
structure Settles (registry : Registry) (next : Computation) (overrides : List ToneOverride)
    (plan : TonePlan) : Prop where
  writes : ∀ name value, (name, value) ∈ plan.writes → ∃ override ∈ overrides,
    ∃ choice : override.Choice registry next, name = override.onToneName ∧
      value = .reference choice.onTone.anchor.property ∧ override.tone ∈ plan.kept ∧
      (choice.onTone.isLegible = true ∨ ∃ issue ∈ plan.issues, issue.locus = name.text)
  kept : ∀ tone ∈ plan.kept, ∃ override ∈ overrides, override.tone = tone ∧
    override.onToneName ∈ plan.handled

/-- Deciding about one more live tone settles it as well. -/
theorem Settles.decide {plan : TonePlan} (settles : Settles registry next overrides plan)
    (last : ToneOverride) :
    Settles registry next (overrides ++ [last]) (decide registry next plan last) := by
  have earlier {override : ToneOverride} (member : override ∈ overrides) :
      override ∈ overrides ++ [last] := List.mem_append_left _ member
  have own : last ∈ overrides ++ [last] := List.mem_append_right _ List.mem_cons_self
  rcases decide_cases registry next plan last with ⟨choice, issues, reported, decided⟩ | decided
  · rw [decided]
    constructor
    · intro name value member
      rcases List.mem_append.1 member with before | new
      · obtain ⟨override, listed, choice, named, written, kept, reported⟩ :=
          settles.writes name value before
        refine ⟨override, earlier listed, choice, named, written, List.mem_append_left _ kept,
          reported.imp_right ?_⟩
        rintro ⟨issue, given, locus⟩
        exact ⟨issue, List.mem_append_left _ given, locus⟩
      · cases List.mem_singleton.1 new
        refine ⟨last, own, choice, rfl, rfl, List.mem_append_right _ List.mem_cons_self,
          reported.imp_right ?_⟩
        rintro ⟨issue, given, locus⟩
        exact ⟨issue, List.mem_append_right _ given, locus⟩
    · intro tone member
      rw [handled, List.map_append]
      rcases List.mem_append.1 member with before | new
      · obtain ⟨override, listed, named, settled⟩ := settles.kept tone before
        refine ⟨override, earlier listed, named, ?_⟩
        rcases List.mem_append.1 settled with written | kept
        · exact List.mem_append_left _ (List.mem_append_left _ written)
        · exact List.mem_append_right _ (List.mem_append_left _ kept)
      · exact ⟨last, own, (List.mem_singleton.1 new).symm,
          List.mem_append_left _ (List.mem_append_right _ List.mem_cons_self)⟩
  · rw [decided]
    constructor
    · intro name value member
      obtain ⟨override, listed, rest⟩ := settles.writes name value member
      exact ⟨override, earlier listed, rest⟩
    · intro tone member
      obtain ⟨override, listed, rest⟩ := settles.kept tone member
      exact ⟨override, earlier listed, rest⟩

theorem settles_ofOverrides (registry : Registry) (next : Computation)
    (overrides : List ToneOverride) :
    Settles registry next overrides (ofOverrides registry next overrides) := by
  induction overrides using List.reverseRecOn with
  | nil =>
      constructor
      · intro name value member
        cases member
      · intro tone member
        cases member
  | append_singleton overrides last inductionHypothesis =>
      rw [ofOverrides, List.foldl_append]
      exact inductionHypothesis.decide last

/-- A tone plan forces live tones only. -/
theorem exists_of_mem_forced {name : Name}
    (member : name ∈ (ofOverrides registry next overrides).forced) :
    ∃ override ∈ overrides, override.tone = name := by
  induction overrides using List.reverseRecOn with
  | nil => cases member
  | append_singleton overrides last inductionHypothesis =>
      have earlier (before : name ∈ (ofOverrides registry next overrides).forced) :
          ∃ override ∈ overrides ++ [last], override.tone = name := by
        obtain ⟨override, listed, named⟩ := inductionHypothesis before
        exact ⟨override, List.mem_append_left _ listed, named⟩
      rw [ofOverrides, List.foldl_append] at member
      rcases decide_cases registry next (overrides.foldl (decide registry next) {}) last with
        ⟨choice, issues, -, decided⟩ | decided
      · rw [List.foldl_cons, List.foldl_nil, decided] at member
        exact earlier member
      · rw [List.foldl_cons, List.foldl_nil, decided] at member
        rcases List.mem_append.1 member with before | own
        · exact earlier before
        · exact ⟨last, List.mem_append_right _ List.mem_cons_self, (List.mem_singleton.1 own).symm⟩

end TonePlan

/-! ## The tones of a flush -/

namespace Watcher

variable {watcher : Watcher}

/-- The live tones are the live changes of what is bound as a tone, in their order. -/
theorem tones_adoptAll (watcher : Watcher) (changed : List Name) :
    (adoptAll watcher changed).tones =
      changed.filterMap (ToneOverride.of? watcher.current.map) := by
  have step (bindings : PropertyMap) (adoption : Adoption) :
      (changed.foldl (adopt bindings) adoption).tones =
        adoption.tones ++ changed.filterMap (ToneOverride.of? bindings) := by
    induction changed generalizing adoption with
    | nil => exact (List.append_nil _).symm
    | cons name rest inductionHypothesis =>
        have own : (adopt bindings adoption name).tones =
            adoption.tones ++ (ToneOverride.of? bindings name).toList := by
          rw [adopt, ToneOverride.of?]
          cases bound : bindings.binding? name with
          | none => exact (List.append_nil _).symm
          | some binding =>
              cases binding with
              | token path =>
                  dsimp only
                  split <;> exact (List.append_nil _).symm
              | theme path =>
                  dsimp only
                  split <;> exact (List.append_nil _).symm
              | tone mode key level => rfl
        rw [List.foldl_cons, inductionHypothesis, own, List.append_assoc, List.filterMap_cons]
        cases ToneOverride.of? bindings name <;> rfl
  exact step watcher.current.map { watcher }

/-- A live tone is a live change of what is bound as a tone in the current map. -/
theorem mem_tones {changed : List Name} {override : ToneOverride} :
    override ∈ (adoptAll watcher changed).tones ↔
      override.tone ∈ changed ∧ watcher.current.map.binding? override.tone =
        some (.tone override.mode override.key override.level) := by
  rw [tones_adoptAll, List.mem_filterMap]
  constructor
  · rintro ⟨name, listed, read⟩
    rw [ToneOverride.of?] at read
    split at read
    · next mode key level bound =>
        cases read
        exact ⟨listed, bound⟩
    · cases read
  · rintro ⟨listed, bound⟩
    exact ⟨override.tone, listed, by rw [ToneOverride.of?, bound]⟩

/-- A live tone is bound as a tone in the current map. -/
theorem binding?_of_mem_tones {changed : List Name} {override : ToneOverride}
    (member : override ∈ (adoptAll watcher changed).tones) :
    watcher.current.map.binding? override.tone =
      some (.tone override.mode override.key override.level) := (mem_tones.1 member).2

/-- A live tone has the name of its tone. -/
theorem tone_of_mem_tones
    (computed : ∃ configuration : Configuration, watcher.current = configuration.compute)
    {changed : List Name} {override : ToneOverride}
    (member : override ∈ (adoptAll watcher changed).tones) :
    override.tone = Palette.toneProperty override.mode override.key override.level := by
  obtain ⟨configuration, computed⟩ := computed
  have bound := binding?_of_mem_tones member
  rw [computed] at bound
  exact Configuration.name_of_binding? bound

/-- A live change that could not be folded back is bound in the current map. -/
theorem binding?_of_mem_adoptAll_forced {changed : List Name} {name : Name}
    (member : name ∈ (adoptAll watcher changed).forced) :
    ∃ binding, watcher.current.map.binding? name = some binding := by
  have step (bindings : PropertyMap) (changed : List Name) (adoption : Adoption)
      (member : name ∈ (changed.foldl (adopt bindings) adoption).forced) :
      name ∈ adoption.forced ∨ ∃ binding, bindings.binding? name = some binding := by
    have own {first : Name} {binding : Binding} (bound : bindings.binding? first = some binding)
        {earlier : List Name} (listed : name ∈ earlier ++ [first]) :
        name ∈ earlier ∨ ∃ binding, bindings.binding? name = some binding := by
      refine (List.mem_append.1 listed).imp_right fun last => ?_
      rw [List.mem_singleton.1 last]
      exact ⟨binding, bound⟩
    induction changed generalizing adoption with
    | nil => exact .inl member
    | cons first rest inductionHypothesis =>
        rcases inductionHypothesis _ member with earlier | bound
        · rw [adopt] at earlier
          dsimp only at earlier
          split at earlier
          · next path bound =>
              split at earlier
              · exact .inl earlier
              · exact own bound earlier
          · next path bound =>
              split at earlier
              · exact .inl earlier
              · exact own bound earlier
          · exact .inl earlier
          · exact .inl earlier
        · exact .inr bound
  exact (step watcher.current.map changed { watcher } member).resolve_left List.not_mem_nil

/-- Whatever a flush writes without looking at its live text is bound in the current map. -/
theorem binding?_of_mem_forced {name : Name} (member : name ∈ watcher.decideFlush.forced) :
    ∃ binding, watcher.current.map.binding? name = some binding := by
  rw [forced_decideFlush] at member
  rcases List.mem_append.1 member with unadopted | unshown
  · exact @binding?_of_mem_adoptAll_forced { watcher with liveRoots := ∅ } _ _ unadopted
  · rw [tones_decideFlush] at unshown
    obtain ⟨override, listed, rfl⟩ := TonePlan.exists_of_mem_forced unshown
    exact ⟨_, @binding?_of_mem_tones { watcher with liveRoots := ∅ } _ _ listed⟩

/-- The live tones that a flush decides about, each under the name of its tone. -/
theorem settles_decideFlush (tracks : watcher.Tracks) :
    ∃ overrides, (∀ override ∈ overrides, override.tone =
        Palette.toneProperty override.mode override.key override.level) ∧
      TonePlan.Settles watcher.decideFlush.folded.registry watcher.decideFlush.next overrides
        watcher.decideFlush.tones := by
  refine ⟨_, fun override member => ?_, by
    rw [tones_decideFlush]
    exact TonePlan.settles_ofOverrides _ _ _⟩
  exact @tone_of_mem_tones { watcher with liveRoots := ∅ } tracks.computed _ _ member

/-- A tone that a flush keeps has no background in the next map. -/
theorem background?_of_tones_kept (tracks : watcher.Tracks) {tone : Name}
    (kept : tone ∈ watcher.decideFlush.tones.kept) :
    watcher.decideFlush.next.map.background? tone = none := by
  obtain ⟨overrides, named, settles⟩ := settles_decideFlush tracks
  obtain ⟨override, listed, rfl, -⟩ := settles.kept tone kept
  rw [named override listed, tracks.next]
  exact Configuration.background?_toneProperty

/-- What the tone plan has settled is a palette tone that is kept, or the on-tone of one,
chosen between black and white. -/
theorem handled_cases (tracks : watcher.Tracks) {name : Name}
    (handled : name ∈ watcher.decideFlush.tones.handled) :
    name ∈ watcher.decideFlush.tones.kept ∨
      ∃ mode key level, name = Palette.onToneProperty mode key level ∧
        Palette.toneProperty mode key level ∈ watcher.decideFlush.tones.kept ∧
        (watcher.decideFlush.folded.configuration.anchorsOf mode).contrasting?.isSome := by
  rcases List.mem_append.1 handled with onTone | tone
  · obtain ⟨⟨_, value⟩, written, rfl⟩ := List.mem_map.1 onTone
    obtain ⟨overrides, named, settles⟩ := settles_decideFlush tracks
    obtain ⟨override, listed, choice, own, -, kept, -⟩ := settles.writes _ value written
    obtain ⟨anchors, found, contrasting⟩ := Option.bind_eq_some_iff.1 choice.anchors
    rw [tracks.next] at found
    rw [Configuration.anchors?_compute found] at contrasting
    rw [named override listed] at kept
    exact .inr ⟨override.mode, override.key, override.level, own, kept,
      Option.isSome_of_eq_some contrasting⟩
  · exact .inl tone

/-- Every value that a flush decides to write is accepted as it is. -/
theorem accepts_writes (tracks : watcher.Tracks) :
    Store.Accepts watcher.decideFlush.folded.configuration.index
      (watcher.decideFlush.tones.writes ++ watcher.decideFlush.plan.writes) := by
  intro name value member
  rcases List.mem_append.1 member with tone | planned
  · obtain ⟨overrides, -, settles⟩ := settles_decideFlush tracks
    obtain ⟨override, -, choice, rfl, rfl, -, -⟩ := settles.writes name value tone
    obtain ⟨anchors, found, contrasting⟩ := Option.bind_eq_some_iff.1 choice.anchors
    rw [tracks.next] at found
    rw [Configuration.anchors?_compute found] at contrasting
    have held := @Configuration.isHeld_of_choose _ _ choice.color _ _ contrasting
    exact @Configuration.validate_of_form _ _
      { value := .reference choice.onTone.anchor.property, origin := some (.ofInputs []) }
      (.tokens (.inl (Name.tier_brand _ _ _)) (.reference held) rfl)
  · exact accepts_planWrites tracks name value planned

end Watcher

end Legible
