import Legible.Proofs.Document.Leaves
import Legible.Proofs.Theme.Follow

/-!
# What properties are bound to

The map keeps with a property the token, the place in the theme, or the palette tone
that it is computed from. A token is bound to itself; a core color, a surface and a
property that is copied through each have a place of their own. Once the text at such
a place refers to a token, the map that is computed from the theme refers to that
token under the same name.
-/

namespace Legible

open Property

namespace Configuration

variable {configuration : Configuration} {mode : Mode} {name : Name} {path : List String}

/-- What the properties of a computation are bound to. -/
inductive Binds (configuration : Configuration) : Name → Binding → Prop where
  | token {path : Token.Path} {held : Token.Value}
      (held : configuration.index.values[path]? = some held) :
      Binds configuration (Name.ofToken path) (.token path)
  | tone {mode : Mode} {key : String} {level : Option Token.Level} :
      Binds configuration (Palette.toneProperty mode key level) (.tone mode key level)
  | core {mode : Mode} {slot : CoreSlot} (listed : slot ∈ CoreSlot.all) :
      Binds configuration (slot.property mode) (.theme (slot.documentPath mode))
  | surface {mode : Mode} {layer : LayerId} (listed : layer ∈ layerIds configuration.theme mode) :
      Binds configuration (layer.surface mode) (.theme (layer.surfacePath mode))
  | copied {mode : Mode} {subsystem : Subsystem} {leaf : Document.Leaf}
      (listed : subsystem ∈ Subsystem.copied)
      (found : leaf ∈ configuration.theme.leaves ["themes", mode.text, subsystem.text]) :
      Binds configuration (Name.brand mode subsystem (leaf.path.drop 3)) (.theme leaf.path)

theorem Part.binds {issues : List Issue} {entry : Entry} {binding : Binding}
    (part : Part configuration issues name entry) (bound : entry.binding = some binding) :
    configuration.Binds name binding := by
  cases part with
  | token held =>
      cases bound
      exact .token held
  | tone =>
      cases bound
      exact .tone
  | core anchored =>
      cases bound
      exact .core (mem_bound.1 anchored).1
  | surface listed found =>
      cases bound
      exact .surface listed
  | copied listed found _ resolved =>
      cases bound
      exact .copied listed found
  | onTone => cases bound
  | componentToken resolved => cases bound
  | componentBrand read => cases bound
  | text found search reported =>
      rw [binding_entry] at bound
      cases bound
  | interactiveTone found _ search reported =>
      rw [binding_entry] at bound
      cases bound
  | interactiveOnTone found _ tone search reported =>
      rw [binding_entry] at bound
      cases bound
  | status listed found search reported =>
      rw [binding_entry] at bound
      cases bound

/-- The bindings that the map keeps are those of its properties. -/
theorem binds_of_binding? {binding : Binding}
    (bound : configuration.compute.map.binding? name = some binding) :
    configuration.Binds name binding := by
  rw [compute_map] at bound
  obtain ⟨entry, member, own⟩ := PropertyMap.mem_of_binding? bound
  exact (part_of_mem member).binds own

/-! ## Places in the theme -/

theorem alternative_of_mem_layerIds {theme : Document} {key : String}
    (listed : LayerId.alternative key ∈ layerIds theme mode) :
    Document.isMetadata key = false := by
  rw [layerIds, List.mem_append] at listed
  rcases listed with indexed | named
  · simp at indexed
  · obtain ⟨other, among, equal⟩ := List.mem_map.1 named
    cases equal
    obtain ⟨parent, -, own⟩ := List.mem_flatMap.1 among
    split at own
    · exact Document.isMetadata_of_mem_keys own
    · cases own

/-- No place in the theme leads through the value of a leaf. -/
theorem Binds.not_mem (binds : configuration.Binds name (.theme path)) : "$value" ∉ path := by
  have metadata : Document.isMetadata "$value" = true := by decide
  cases binds with
  | core listed =>
      rename_i mode slot
      revert slot
      cases mode <;> decide
  | surface listed =>
      rename_i mode layer
      have inMode : "$value" ≠ mode.text := by cases mode <;> decide
      cases layer with
      | indexed number =>
          have begins : "$value" ≠ "layer-" ++ LayerId.numberText number := fun same => by
            have first := congrArg (fun text => text.toList.head?) same
            simp at first
          simp [LayerId.surfacePath, LayerId.documentPath, inMode, begins]
      | alternative key =>
          have child : "$value" ≠ key := fun same => by
            have plain := alternative_of_mem_layerIds listed
            rw [← same, metadata] at plain
            cases plain
          simp [LayerId.surfacePath, LayerId.documentPath, inMode, child]
  | copied listed found =>
      rename_i mode subsystem leaf
      obtain ⟨rest, stands, children⟩ := Document.exists_of_mem_leaves found
      have inMode : "$value" ≠ mode.text := by cases mode <;> decide
      have inSubsystem : "$value" ≠ subsystem.text := by cases subsystem <;> decide
      rw [stands]
      intro member
      rcases List.mem_append.1 member with head | tail
      · simp [inMode, inSubsystem] at head
      · rw [children _ tail] at metadata
        cases metadata

/-- The layer that a path of a theme names has one spelling in property names. -/
theorem nameSegments_of_documentPath {layer layer' : LayerId}
    (same : layer.documentPath = layer'.documentPath) : layer.nameSegments = layer'.nameSegments := by
  cases layer <;> cases layer' <;>
    simp_all [LayerId.documentPath, LayerId.nameSegments]

/-- No subsystem that is copied through stands where core colors or layers do. -/
theorem text_ne_of_mem_copied {subsystem : Subsystem} (listed : subsystem ∈ Subsystem.copied) :
    subsystem.text ≠ "core-colors" ∧ subsystem.text ≠ "layers" := by
  revert listed
  cases subsystem <;> decide

/-- The place in a theme determines the property, in any computation. -/
theorem Binds.name_of_path {other : Configuration} {name' : Name}
    (binds : configuration.Binds name (.theme path)) (binds' : other.Binds name' (.theme path)) :
    name = name' := by
  have modes {mode mode' : Mode} (same : mode.text = mode'.text) : mode = mode' := by
    simpa using congrArg Mode.read? same
  have subsystems {subsystem subsystem' : Subsystem} (same : subsystem.text = subsystem'.text) :
      subsystem = subsystem' := by
    simpa using congrArg Subsystem.read? same
  generalize same : path = path' at binds'
  cases binds with
  | core listed =>
      cases binds' with
      | core listed' =>
          simp only [CoreSlot.documentPath, List.cons_append, List.cons.injEq, true_and,
            List.nil_append] at same
          rw [CoreSlot.property, CoreSlot.property, modes same.1, same.2]
      | surface listed' => simp [CoreSlot.documentPath, LayerId.surfacePath] at same
      | copied listed' found' =>
          obtain ⟨rest, stands, -⟩ := Document.exists_of_mem_leaves found'
          rw [stands] at same
          simp only [CoreSlot.documentPath, List.cons_append, List.cons.injEq] at same
          exact absurd same.2.2.1.symm (text_ne_of_mem_copied listed').1
  | surface listed =>
      cases binds' with
      | core listed' => simp [CoreSlot.documentPath, LayerId.surfacePath] at same
      | surface listed' =>
          simp only [LayerId.surfacePath, List.cons_append, List.cons.injEq, true_and,
            List.nil_append, List.append_cancel_right_eq] at same
          rw [LayerId.surface, LayerId.surface, LayerId.element, LayerId.element, modes same.1,
            nameSegments_of_documentPath same.2]
      | copied listed' found' =>
          obtain ⟨rest, stands, -⟩ := Document.exists_of_mem_leaves found'
          rw [stands] at same
          simp only [LayerId.surfacePath, List.cons_append, List.cons.injEq] at same
          exact absurd same.2.2.1.symm (text_ne_of_mem_copied listed').2
  | copied listed found =>
      obtain ⟨rest, stands, -⟩ := Document.exists_of_mem_leaves found
      cases binds' with
      | core listed' =>
          rw [stands] at same
          simp only [CoreSlot.documentPath, List.cons_append, List.cons.injEq] at same
          exact absurd same.2.2.1 (text_ne_of_mem_copied listed).1
      | surface listed' =>
          rw [stands] at same
          simp only [LayerId.surfacePath, List.cons_append, List.cons.injEq] at same
          exact absurd same.2.2.1 (text_ne_of_mem_copied listed).2
      | copied listed' found' =>
          obtain ⟨rest', stands', -⟩ := Document.exists_of_mem_leaves found'
          rw [stands, stands'] at same ⊢
          simp only [List.cons_append, List.cons.injEq, true_and, List.nil_append] at same
          obtain ⟨sameMode, sameSubsystem, rfl⟩ := same
          rw [modes sameMode, subsystems sameSubsystem]

/-- The property of a core color is bound to the place of that core color. -/
theorem Binds.of_core {slot : CoreSlot} {binding : Binding}
    (binds : configuration.Binds (slot.property mode) binding) :
    slot ∈ CoreSlot.all ∧ binding = .theme (slot.documentPath mode) := by
  generalize same : slot.property mode = name at binds
  cases binds with
  | token => exact absurd same.symm (Name.ofToken_ne_brand _ _ _ _)
  | tone => exact absurd same (brand_ne_of_subsystem (by decide))
  | core listed =>
      obtain ⟨rfl, rfl⟩ := CoreSlot.property_inj same
      exact ⟨listed, rfl⟩
  | surface => exact absurd same (brand_ne_of_subsystem (by decide))
  | copied listed =>
      exact absurd same (brand_ne_of_subsystem (ne_of_mem_copied listed).2.1)

/-- The property of a surface is bound to the place of that surface. -/
theorem Binds.of_surface {layer : LayerId} {binding : Binding}
    (binds : configuration.Binds (layer.surface mode) binding) :
    layer ∈ layerIds configuration.theme mode ∧ binding = .theme (layer.surfacePath mode) := by
  generalize same : layer.surface mode = name at binds
  cases binds with
  | token => exact absurd same.symm (Name.ofToken_ne_brand _ _ _ _)
  | tone => exact absurd same (brand_ne_of_subsystem (by decide))
  | core => exact absurd same (brand_ne_of_subsystem (by decide))
  | surface listed =>
      obtain ⟨rfl, rfl⟩ := LayerId.surface_inj same
      exact ⟨listed, rfl⟩
  | copied listed =>
      exact absurd same (brand_ne_of_subsystem (ne_of_mem_copied listed).2.2)

/-- The property of a binding that is copied through is bound to a place of its
subsystem. -/
theorem Binds.of_copied {subsystem : Subsystem} {rest : List String}
    (copied : subsystem ∈ Subsystem.copied)
    (binds : configuration.Binds (Name.brand mode subsystem rest) (.theme path)) :
    ["themes", mode.text, subsystem.text] <+: path := by
  generalize same : Name.brand mode subsystem rest = name at binds
  obtain ⟨-, core, layer⟩ := ne_of_mem_copied copied
  cases binds with
  | core => exact absurd same (brand_ne_of_subsystem core.symm)
  | surface => exact absurd same (brand_ne_of_subsystem layer.symm)
  | copied listed found =>
      obtain ⟨rfl, rfl, -⟩ := Name.brand_eq_brand_iff.1 same
      obtain ⟨tail, stands, -⟩ := Document.exists_of_mem_leaves found
      exact ⟨tail, stands.symm⟩

/-- A property that is bound to a place of a subsystem that is copied through is bound to a
leaf of the theme. -/
theorem Binds.exists_leaf {subsystem : Subsystem} (copied : subsystem ∈ Subsystem.copied)
    (binds : configuration.Binds name (.theme path))
    (below : ["themes", mode.text, subsystem.text] <+: path) :
    ∃ leaf ∈ configuration.theme.leaves ["themes", mode.text, subsystem.text], leaf.path = path := by
  obtain ⟨rest, stands⟩ := below
  generalize same : path = place at binds
  cases binds with
  | core =>
      rw [← stands] at same
      simp only [CoreSlot.documentPath, List.cons_append, List.cons.injEq] at same
      exact absurd same.2.2.1 (text_ne_of_mem_copied copied).1
  | surface =>
      rw [← stands] at same
      simp only [LayerId.surfacePath, List.cons_append, List.cons.injEq] at same
      exact absurd same.2.2.1 (text_ne_of_mem_copied copied).2
  | @copied mode' subsystem' leaf listed found =>
      obtain ⟨tail, own, -⟩ := Document.exists_of_mem_leaves found
      refine ⟨leaf, ?_, rfl⟩
      rw [← stands, own] at same
      simp only [List.cons_append, List.cons.injEq, true_and] at same
      rw [same.1, same.2.1]
      exact found

/-- The property of a token is bound to a token of that name. -/
theorem Binds.of_token {token : Token.Path} {binding : Binding}
    (binds : configuration.Binds (Name.ofToken token) binding) :
    ∃ own, binding = .token own ∧ Name.ofToken own = Name.ofToken token := by
  generalize same : Name.ofToken token = name at binds
  cases binds with
  | token => exact ⟨_, rfl, rfl⟩
  | tone => exact absurd same (Name.ofToken_ne_brand _ _ _ _)
  | core => exact absurd same (Name.ofToken_ne_brand _ _ _ _)
  | surface => exact absurd same (Name.ofToken_ne_brand _ _ _ _)
  | copied => exact absurd same (Name.ofToken_ne_brand _ _ _ _)

/-- What is bound to a token or to a place of the theme is no tone and no on-tone of a
palette. -/
theorem Binds.not_palette {binding : Binding} (binds : configuration.Binds name binding)
    (other : ∀ mode key level, binding ≠ .tone mode key level) (mode : Mode) (rest : List String) :
    name ≠ Name.brand mode .palettes rest := by
  cases binds with
  | token => exact Name.ofToken_ne_brand _ _ _ _
  | tone => exact absurd rfl (other _ _ _)
  | core => exact brand_ne_of_subsystem (by decide)
  | surface => exact brand_ne_of_subsystem (by decide)
  | copied listed => exact brand_ne_of_subsystem (ne_of_mem_copied listed).1.symm

/-- What a property is bound to determines the property. -/
theorem Binds.name_of_binding {other : Configuration} {name' : Name} {binding : Binding}
    (binds : configuration.Binds name binding) (binds' : other.Binds name' binding) :
    name = name' := by
  cases binding with
  | token path =>
      cases binds
      cases binds'
      rfl
  | tone mode key level =>
      cases binds
      cases binds'
      rfl
  | theme path => exact binds.name_of_path binds'

/-! ## Places that refer to a token -/

section

variable {token : Token.Path} {held : Token.Value} {color : Color} {text : String}

/-- A reference to a token that the index holds leads to that token. -/
theorem resolveToken_token (found : configuration.index.values[token]? = some held) :
    (configuration.resolver mode).resolveToken (.token token) = .ok token := by
  have canonical : (configuration.resolver mode).index.canonicalize? token = some token :=
    Token.Index.canonicalize?_of_held found
  simp only [Resolver.resolveToken, Resolver.resolve, Resolver.follow, canonical]

/-- A reference that leads to a color of the index leads to its anchor. -/
theorem resolveColor_of_resolveToken {reference : Reference}
    (resolved : (configuration.resolver mode).resolveToken reference = .ok token)
    (found : configuration.index.values[token]? = some (.color color)) :
    (configuration.resolver mode).resolveColor reference = .ok ⟨token, color⟩ := by
  have shade : (configuration.resolver mode).index.color? token = some color := by
    rw [Token.Index.color?, show (configuration.resolver mode).index.get? token =
      some (.color color) from Token.Index.get?_of_held found]
    rfl
  rw [Resolver.resolveColor, resolved]
  simp only [shade]

/-- A mode is declared when something is bound in it. -/
theorem mem_modes_of_get? (rest : List String)
    (found : (configuration.theme.get? (["themes", mode.text] ++ rest)).isSome) :
    mode ∈ configuration.modes :=
  List.mem_filter.2 ⟨by cases mode <;> decide, Document.isSome_get?_of_append found⟩

/-- A mode is declared when something stands below one of its nodes. -/
theorem mem_modes_of_mem_keys {rest : List String} {key : String}
    (listed : key ∈ configuration.theme.keys (["themes", mode.text] ++ rest)) :
    mode ∈ configuration.modes :=
  mem_modes_of_get? rest (Document.isSome_get?_of_mem_keys listed)

/-- The binding of a slot is followed in one step. -/
theorem step_ofSlot {resolver : Resolver} {slot : CoreSlot} (listed : slot ∈ CoreSlot.all) :
    resolver.step mode (.ofSlot slot) = resolver.binding (slot.documentPath mode) := by
  simp only [CoreSlot.all, List.mem_cons, List.not_mem_nil, or_false] at listed
  rcases listed with rfl | rfl | rfl | rfl | rfl | rfl | rfl <;> rfl

/-- A core color that is bound to a token refers to it. -/
theorem value?_of_core {slot : CoreSlot} (listed : slot ∈ CoreSlot.all)
    (deep : 0 < configuration.options.maxReferenceDepth)
    (bound : configuration.theme.leafText? (slot.documentPath mode) = some text)
    (read : Reference.read text = .token token)
    (found : configuration.index.values[token]? = some (.color color)) :
    configuration.compute.map.value? (slot.property mode) =
      some (.reference (Name.ofToken token)) := by
  have declared : mode ∈ configuration.modes :=
    mem_modes_of_get? _ (Document.isSome_get?_of_leafText? bound)
  obtain ⟨depth, remaining⟩ := Nat.exists_eq_succ_of_ne_zero (Nat.ne_of_gt deep)
  have followed : (configuration.resolver mode).resolveToken
      (.site (some mode) (.ofSlot slot)) = .ok token := by
    have stepped : (configuration.resolver mode).step mode (.ofSlot slot) = .ok (.token token) := by
      rw [step_ofSlot listed, Resolver.binding,
        show (configuration.resolver mode).theme = configuration.theme from rfl, bound]
      exact congrArg Except.ok read
    have canonical : (configuration.resolver mode).index.canonicalize? token = some token :=
      Token.Index.canonicalize?_of_held found
    have limit : (configuration.resolver mode).maxDepth = depth + 1 := remaining
    simp only [Resolver.resolveToken, Resolver.resolve, limit, Resolver.follow, Option.getD_some,
      List.not_mem_nil, if_false, stepped, canonical]
  have anchored : (slot, ⟨token, color⟩) ∈ (configuration.anchorsOf mode).bound :=
    mem_bound.2 ⟨listed, by
      have own : (configuration.resolver mode).mode = mode := rfl
      simp only [Anchors.resolveSlot, own, resolveColor_of_resolveToken followed found]⟩
  exact (shows_core anchored).value? (adds_core declared anchored)

/-- A layer is declared when it has a surface. -/
theorem mem_layerIds_of_leafText? {layer : LayerId}
    (plain : ∀ key, layer = .alternative key → Document.isMetadata key = false)
    (bound : configuration.theme.leafText? (layer.surfacePath mode) = some text) :
    layer ∈ layerIds configuration.theme mode := by
  have found := Document.isSome_get?_of_leafText? bound
  rw [layerIds, List.mem_append]
  cases layer with
  | indexed number =>
      have begins : Document.isMetadata ("layer-" ++ LayerId.numberText number) = false := by
        simp [Document.isMetadata, String.toList_append]
      have key : "layer-" ++ LayerId.numberText number ∈
          configuration.theme.keys ["themes", mode.text, "layers"] :=
        Document.mem_keys_of_get? _ ["surface"] begins found
      refine .inl (List.mem_map.2 ⟨number, ?_, rfl⟩)
      rw [List.mem_mergeSort, List.mem_filterMap]
      exact ⟨_, key, by rw [LayerId.read?_append_numberText]⟩
  | alternative key =>
      have parent : "alternative" ∈ configuration.theme.keys ["themes", mode.text, "layers"] :=
        Document.mem_keys_of_get? _ [key, "surface"] (by decide) found
      have child : key ∈ configuration.theme.keys
          (["themes", mode.text, "layers"] ++ ["alternative"]) :=
        Document.mem_keys_of_get? _ ["surface"] (plain key rfl) found
      refine .inr (List.mem_map.2 ⟨key, List.mem_flatMap.2 ⟨_, parent, ?_⟩, rfl⟩)
      rwa [if_pos rfl]

/-- A surface that is bound to a token refers to it. -/
theorem value?_of_surface {layer : LayerId}
    (plain : ∀ key, layer = .alternative key → Document.isMetadata key = false)
    (bound : configuration.theme.leafText? (layer.surfacePath mode) = some text)
    (read : Reference.read text = .token token)
    (found : configuration.index.values[token]? = some (.color color)) :
    configuration.compute.map.value? (layer.surface mode) =
      some (.reference (Name.ofToken token)) := by
  have declared : mode ∈ configuration.modes :=
    mem_modes_of_get? _ (Document.isSome_get?_of_leafText? bound)
  have resolved : (configuration.resolver mode).resolveColor (Reference.read text) =
      .ok ⟨token, color⟩ := by
    rw [read]
    exact resolveColor_of_resolveToken (resolveToken_token found) found
  have binding : (configuration.layersOf mode).surfaceBinding layer =
      .ok (Reference.read text, ⟨token, color⟩) := by
    have own : (configuration.layersOf mode).resolver.theme.leafText?
        (layer.surfacePath (configuration.layersOf mode).mode) = some text := bound
    rw [LayerContext.surfaceBinding, own]
    change Except.map _ ((configuration.resolver mode).resolveColor (Reference.read text)) = _
    rw [resolved]
    rfl
  obtain ⟨palette, surface⟩ : ∃ palette, configuration.surfaceOf mode layer =
      some ⟨layer, ⟨layer.surface mode, token, color⟩, palette, false⟩ := by
    rw [surfaceOf, LayerContext.surface]
    simp only [binding]
    exact ⟨_, rfl⟩
  exact (shows_surface surface).value?
    (adds_surface declared (mem_layerIds_of_leafText? plain bound) surface)

/-- A binding that is copied through refers to the token that it is bound to, when no other
place gives the same property. -/
theorem value?_of_copied {subsystem : Subsystem} {leaf : Document.Leaf}
    (listed : subsystem ∈ Subsystem.copied) (unique : configuration.theme.root.UniqueKeys)
    (own : leaf ∈ configuration.theme.leaves ["themes", mode.text, subsystem.text])
    (bound : configuration.theme.leafText? leaf.path = some text)
    (read : Reference.read text = .token token)
    (found : configuration.index.values[token]? = some held)
    (alone : ∀ other ∈ configuration.theme.leaves ["themes", mode.text, subsystem.text],
      Name.brand mode subsystem (other.path.drop 3) = Name.brand mode subsystem (leaf.path.drop 3) →
        other.path = leaf.path) :
    configuration.compute.map.value? (Name.brand mode subsystem (leaf.path.drop 3)) =
      some (.reference (Name.ofToken token)) := by
  have holds {other : Document.Leaf} (same : other.path = leaf.path)
      (listed : other ∈ configuration.theme.leaves ["themes", mode.text, subsystem.text]) :
      other.value.text? = some text := by
    rw [← bound, Document.leafText?, ← same, Document.leafValue?_of_mem_leaves unique listed]
    rfl
  have declared : mode ∈ configuration.modes := by
    obtain ⟨node, stands⟩ := Document.exists_get?_of_mem_leaves own
    refine mem_modes_of_get? [subsystem.text] ?_
    rw [show ["themes", mode.text] ++ [subsystem.text] =
      ["themes", mode.text, subsystem.text] from rfl, stands]
    rfl
  have added : configuration.Adds (Name.brand mode subsystem (leaf.path.drop 3)) := by
    have resolved : (configuration.resolver mode).resolveToken (Reference.read text) =
        .ok token := by
      rw [read]
      exact resolveToken_token found
    obtain ⟨entry, emitted⟩ : ∃ entry, (Name.brand mode subsystem (leaf.path.drop 3), entry) ∈
        (copiedLeaf (configuration.resolver mode) subsystem leaf).entries := by
      rw [copiedLeaf, holds rfl own]
      simp only [resolved]
      exact ⟨_, List.mem_singleton_self _⟩
    exact adds_of_modeEmission declared (mem_modeEmission.2 (.inr (.inr (.inl ⟨subsystem, listed,
      List.mem_flatMap.2 ⟨_, List.mem_map.2 ⟨leaf, own, rfl⟩, emitted⟩⟩))))
  refine Shows.value? (fun issues entry part => ?_) added
  generalize given : Name.brand mode subsystem (leaf.path.drop 3) = name at part
  obtain ⟨palettes, core, layer⟩ := ne_of_mem_copied listed
  cases part with
  | token => exact absurd given.symm (Name.ofToken_ne_brand _ _ _ _)
  | core => exact absurd given (brand_ne_of_subsystem core.symm)
  | tone => exact absurd given (brand_ne_of_subsystem palettes.symm)
  | onTone => exact absurd given (brand_ne_of_subsystem palettes.symm)
  | surface => exact absurd given (brand_ne_of_subsystem layer.symm)
  | text => exact absurd given (brand_ne_of_subsystem layer.symm)
  | interactiveTone => exact absurd given (brand_ne_of_subsystem layer.symm)
  | interactiveOnTone => exact absurd given (brand_ne_of_subsystem layer.symm)
  | status => exact absurd given (brand_ne_of_subsystem layer.symm)
  | componentToken => exact absurd given (Name.brand_ne_ui _ _ _ _)
  | componentBrand => exact absurd given (Name.brand_ne_ui _ _ _ _)
  | copied listed' own' bound' resolved' =>
      obtain ⟨rfl, rfl, -⟩ := Name.brand_eq_brand_iff.1 given
      have first := holds (alone _ own' given.symm) own'
      rw [bound'] at first
      cases first
      rw [read, resolveToken_token found] at resolved'
      cases resolved'
      rfl

end

end Configuration

end Legible
