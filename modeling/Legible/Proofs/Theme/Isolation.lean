import Legible.Proofs.Theme.Binding
import Legible.Proofs.Theme.Sought
import Legible.Proofs.Watch.Run

/-!
# What a mode does not depend on

A mode reads the tokens, the options and what the theme binds below it. Two themes that
are the same below a mode, and there refer to no place in another one, give it the same
properties: every step of a reference stays below the mode, so it leads to the same
token in both, and all that is emitted for the mode is the same. In the computed map
nothing of another mode has the name of a token or of this mode.
-/

namespace Legible

open Property

/-! ## Texts in a tree -/

namespace Json

mutual

/-- The texts that are values anywhere in a tree. -/
def texts : Json → List String
  | .text value => [value]
  | .array items => textsOfItems items
  | .object members => textsOfMembers members
  | _ => []

/-- The texts in the items of an array. -/
def textsOfItems : List Json → List String
  | [] => []
  | item :: rest => item.texts ++ textsOfItems rest

/-- The texts in the members of an object. -/
def textsOfMembers : List (String × Json) → List String
  | [] => []
  | (_, child) :: rest => child.texts ++ textsOfMembers rest

end

variable {node child : Json} {text : String}

theorem mem_texts_of_text? (held : node.text? = some text) : text ∈ node.texts := by
  cases node with
  | text value =>
      cases held
      exact List.mem_singleton_self _
  | _ => cases held

theorem texts_subset_of_mem {members : List (String × Json)} {key : String}
    (listed : (key, child) ∈ members) : child.texts ⊆ textsOfMembers members := by
  induction members with
  | nil => cases listed
  | cons first rest inductionHypothesis =>
      rw [textsOfMembers]
      rcases List.mem_cons.1 listed with rfl | later
      · exact List.subset_append_left _ _
      · exact List.Subset.trans (inductionHypothesis later) (List.subset_append_right _ _)

theorem texts_subset_of_member? {key : String} (found : node.member? key = some child) :
    child.texts ⊆ node.texts := by
  cases node with
  | object members =>
      obtain ⟨before, after, split, -⟩ := List.lookup_eq_some_iff.1 found
      have listed : (key, child) ∈ members := by
        rw [show members = _ from split]
        exact List.mem_append_right _ List.mem_cons_self
      exact texts_subset_of_mem listed
  | _ => cases found

/-- The texts of a node are texts of every node above it. -/
theorem texts_subset_of_at? {path : List String} (found : node.at? path = some child) :
    child.texts ⊆ node.texts := by
  induction path generalizing node with
  | nil =>
      cases found
      exact List.Subset.refl _
  | cons key rest inductionHypothesis =>
      obtain ⟨next, own, below⟩ := Option.bind_eq_some_iff.1 found
      exact List.Subset.trans (inductionHypothesis below) (texts_subset_of_member? own)

end Json

namespace Document

mutual

/-- The text of a listed leaf is among those of the node that it stands in. -/
theorem mem_texts_of_mem_leavesOf {path : List String} {leaf : Leaf} {text : String}
    (held : leaf.value.text? = some text) :
    (node : Json) → leaf ∈ leavesOf path node → text ∈ node.texts
  | .object members, member => by
      rw [leavesOf] at member
      split at member
      · next value found =>
          rw [List.mem_singleton.1 member] at held
          have own : (Json.object members).member? "$value" = some value := found
          exact Json.texts_subset_of_member? own (Json.mem_texts_of_text? held)
      · exact mem_texts_of_mem_leavesOfMembers held members member
  | .null, member | .boolean _, member | .number _, member | .text _, member
  | .array _, member => by simp [leavesOf] at member

/-- So it is for the members of an object. -/
theorem mem_texts_of_mem_leavesOfMembers {path : List String} {leaf : Leaf} {text : String}
    (held : leaf.value.text? = some text) :
    (members : List (String × Json)) → leaf ∈ leavesOfMembers path members →
      text ∈ Json.textsOfMembers members
  | [], member => by simp [leavesOfMembers] at member
  | (key, child) :: rest, member => by
      rw [leavesOfMembers, List.mem_append] at member
      rw [Json.textsOfMembers, List.mem_append]
      rcases member with own | later
      · split at own
        · cases own
        · exact .inl (mem_texts_of_mem_leavesOf held child own)
      · exact .inr (mem_texts_of_mem_leavesOfMembers held rest later)

end

/-- Replacing a node changes nothing outside the nodes above it. -/
theorem agreesOutside_setNode (document : Document) (key : String) (front rest : List String)
    (node : Json) :
    AgreesOutside (key :: front) document (document.setNode (key :: front ++ rest) node) := by
  intro other apart apart'
  refine (Json.at?_place_of_apart (fun below => ?_) fun above => ?_).symm
  · exact apart ((List.prefix_append _ _).trans below)
  · rcases List.prefix_or_prefix_of_prefix above (List.prefix_append _ _) with within | beyond
    · exact apart' within
    · exact apart beyond

end Document

/-! ## References within a mode -/

namespace Reference

/-- The mode that a reference names. -/
def mode? : Reference → Option Mode
  | .site place _ => place
  | _ => none

/-- Whether a reference names no other mode than this one. -/
def StaysIn (mode : Mode) (reference : Reference) : Prop :=
  ∀ place, reference.mode? = some place → place = mode

theorem staysIn_token (mode : Mode) (path : Token.Path) : (token path).StaysIn mode :=
  fun _ named => by cases named

end Reference

namespace Resolver

/-- The resolver over another theme. -/
def onTheme (resolver : Resolver) (theme : Document) : Resolver := { resolver with theme }

/-- Whether another theme has the same below the resolver's mode, where no text refers to
another mode. -/
structure Shares (resolver : Resolver) (theme : Document) : Prop where
  agrees : ∀ rest, theme.get? (["themes", resolver.mode.text] ++ rest) =
    resolver.theme.get? (["themes", resolver.mode.text] ++ rest)
  stays : ∀ node, resolver.theme.get? ["themes", resolver.mode.text] = some node →
    ∀ text ∈ node.texts, (Reference.read text).StaysIn resolver.mode

section Shares

variable {resolver : Resolver} {theme : Document} (shares : resolver.Shares theme)

include shares

theorem Shares.leafText? (rest : List String) :
    theme.leafText? (["themes", resolver.mode.text] ++ rest) =
      resolver.theme.leafText? (["themes", resolver.mode.text] ++ rest) := by
  rw [Document.leafText?, Document.leafValue?, shares.agrees]
  rfl

theorem Shares.keys (rest : List String) :
    theme.keys (["themes", resolver.mode.text] ++ rest) =
      resolver.theme.keys (["themes", resolver.mode.text] ++ rest) := by
  rw [Document.keys, shares.agrees]
  rfl

theorem Shares.leaves (rest : List String) :
    theme.leaves (["themes", resolver.mode.text] ++ rest) =
      resolver.theme.leaves (["themes", resolver.mode.text] ++ rest) := by
  rw [Document.leaves, shares.agrees]
  rfl

/-- A text of a node below the mode stays in the mode. -/
theorem Shares.staysIn_of_mem_texts {rest : List String} {node : Json} {text : String}
    (found : resolver.theme.get? (["themes", resolver.mode.text] ++ rest) = some node)
    (within : text ∈ node.texts) : (Reference.read text).StaysIn resolver.mode := by
  rw [Document.get?, Json.at?_append] at found
  obtain ⟨top, own, below⟩ := Option.bind_eq_some_iff.1 found
  exact shares.stays top own text (Json.texts_subset_of_at? below within)

theorem Shares.staysIn_of_leafText? (rest : List String) {text : String}
    (held : resolver.theme.leafText? (["themes", resolver.mode.text] ++ rest) = some text) :
    (Reference.read text).StaysIn resolver.mode := by
  obtain ⟨value, own, isText⟩ := Option.bind_eq_some_iff.1 held
  obtain ⟨node, found, member⟩ := Option.bind_eq_some_iff.1 own
  exact shares.staysIn_of_mem_texts found
    (Json.texts_subset_of_member? member (Json.mem_texts_of_text? isText))

theorem Shares.staysIn_of_mem_leaves (rest : List String) {leaf : Document.Leaf} {text : String}
    (listed : leaf ∈ resolver.theme.leaves (["themes", resolver.mode.text] ++ rest))
    (held : leaf.value.text? = some text) : (Reference.read text).StaysIn resolver.mode := by
  rw [Document.leaves] at listed
  split at listed
  · next node found =>
      exact shares.staysIn_of_mem_texts found
        (Document.mem_texts_of_mem_leavesOf held node listed)
  · cases listed

/-! ## Following a reference -/

theorem Shares.binding (rest : List String) :
    (resolver.onTheme theme).binding (["themes", resolver.mode.text] ++ rest) =
      resolver.binding (["themes", resolver.mode.text] ++ rest) := by
  have same : (resolver.onTheme theme).theme.leafText? (["themes", resolver.mode.text] ++ rest) =
      resolver.theme.leafText? (["themes", resolver.mode.text] ++ rest) := shares.leafText? rest
  rw [Resolver.binding, Resolver.binding, same]

theorem Shares.staysIn_of_binding (rest : List String) {next : Reference}
    (bound : resolver.binding (["themes", resolver.mode.text] ++ rest) = .ok next) :
    next.StaysIn resolver.mode := by
  rw [Resolver.binding] at bound
  split at bound
  · next text held =>
      cases bound
      exact shares.staysIn_of_leafText? rest held
  · cases bound

theorem Shares.primaryText? (key : String) :
    (resolver.onTheme theme).primaryText? resolver.mode key =
      resolver.primaryText? resolver.mode key := by
  have same : (resolver.onTheme theme).theme.get? (palettePath resolver.mode key) =
      resolver.theme.get? (palettePath resolver.mode key) := shares.agrees ["palettes", key]
  rw [Resolver.primaryText?, Resolver.primaryText?, same]

/-- A site of the mode is bound to the same reference in both themes. -/
theorem Shares.step (site : Site) :
    (resolver.onTheme theme).step resolver.mode site = resolver.step resolver.mode site := by
  cases site with
  | palette key level =>
      have bound : (resolver.onTheme theme).binding (palettePath resolver.mode key) =
          resolver.binding (palettePath resolver.mode key) := shares.binding ["palettes", key]
      have leveled (level : Option Token.Level) :
          (resolver.onTheme theme).paletteLevel resolver.mode key level =
            resolver.paletteLevel resolver.mode key level := by
        rw [paletteLevel, paletteLevel, shares.primaryText?]
      simp only [Resolver.step, bound, leveled]
  | core color state =>
      have bound (slot : CoreSlot) :
          (resolver.onTheme theme).binding (slot.documentPath resolver.mode) =
            resolver.binding (slot.documentPath resolver.mode) :=
        shares.binding ("core-colors" :: slot.segments)
      cases color <;> exact bound _
  | surface layer =>
      exact shares.binding ("layers" :: layer.documentPath ++ ["surface"])

/-- What a site of the mode is bound to stays in the mode. -/
theorem Shares.staysIn_of_step {site : Site} {next : Reference}
    (stepped : resolver.step resolver.mode site = .ok next) : next.StaysIn resolver.mode := by
  cases site with
  | palette key level =>
      obtain ⟨name, level', -, -, rfl⟩ := Resolver.cases_of_step_palette stepped
      exact Reference.staysIn_token _ _
  | core color state =>
      have bound (slot : CoreSlot)
          (given : resolver.binding (slot.documentPath resolver.mode) = .ok next) :
          next.StaysIn resolver.mode :=
        shares.staysIn_of_binding ("core-colors" :: slot.segments) given
      cases color <;> exact bound _ stepped
  | surface layer =>
      exact shares.staysIn_of_binding ("layers" :: layer.documentPath ++ ["surface"]) stepped

omit shares in
/-- A reference that stays in the mode and names a site names one of the mode. -/
theorem mode_of_staysIn {place : Option Mode} {site : Site}
    (stays : (Reference.site place site).StaysIn resolver.mode) :
    place.getD resolver.mode = resolver.mode := by
  cases place with
  | none => rfl
  | some place => exact stays place rfl

/-- A reference that stays in the mode is followed to the same end in both themes: every
site on the way is bound alike, and to a reference that stays in the mode. -/
theorem Shares.follow (remaining : Nat) (seen : List (Mode × Site)) {reference : Reference}
    (stays : reference.StaysIn resolver.mode) :
    (resolver.onTheme theme).follow remaining seen reference =
      resolver.follow remaining seen reference := by
  induction remaining generalizing seen reference with
  | zero =>
      cases reference <;> rfl
  | succ remaining inductionHypothesis =>
      cases reference with
      | site place site =>
          have own := mode_of_staysIn stays
          have own' : place.getD (resolver.onTheme theme).mode = resolver.mode := own
          simp only [Resolver.follow, own, own', shares.step]
          cases stepped : resolver.step resolver.mode site with
          | error error => rfl
          | ok next =>
              simp only [inductionHypothesis _ (shares.staysIn_of_step stepped)]
      | _ => rfl

theorem Shares.resolve {reference : Reference} (stays : reference.StaysIn resolver.mode) :
    (resolver.onTheme theme).resolve reference = resolver.resolve reference :=
  shares.follow resolver.maxDepth [] stays

theorem Shares.resolveToken {reference : Reference} (stays : reference.StaysIn resolver.mode) :
    (resolver.onTheme theme).resolveToken reference = resolver.resolveToken reference := by
  rw [Resolver.resolveToken, Resolver.resolveToken, shares.resolve stays]

theorem Shares.resolveColor {reference : Reference} (stays : reference.StaysIn resolver.mode) :
    (resolver.onTheme theme).resolveColor reference = resolver.resolveColor reference := by
  rw [Resolver.resolveColor, Resolver.resolveColor, shares.resolveToken stays]
  rfl

/-! ## What a mode emits -/

theorem Shares.anchors : Anchors.resolve (resolver.onTheme theme) = Anchors.resolve resolver := by
  have slot (slot : CoreSlot) :
      Anchors.resolveSlot (resolver.onTheme theme) slot = Anchors.resolveSlot resolver slot := by
    have stays : (Reference.site (some resolver.mode) (.ofSlot slot)).StaysIn resolver.mode :=
      fun place named => (Option.some.inj named).symm
    have color : (resolver.onTheme theme).resolveColor
        (.site (some (resolver.onTheme theme).mode) (.ofSlot slot)) =
          resolver.resolveColor (.site (some resolver.mode) (.ofSlot slot)) :=
      shares.resolveColor stays
    rw [Anchors.resolveSlot, Anchors.resolveSlot, color]
    rfl
  rw [Anchors.resolve, Anchors.resolve]
  simp only [slot]
  rfl

theorem Shares.resolveRamp (key : String) :
    Palette.resolveRamp (resolver.onTheme theme) key = Palette.resolveRamp resolver key := by
  have written : (resolver.onTheme theme).theme.leafText?
      (palettePath (resolver.onTheme theme).mode key) =
        resolver.theme.leafText? (palettePath resolver.mode key) :=
    shares.leafText? ["palettes", key]
  have stays : (Reference.read ((resolver.theme.leafText?
      (palettePath resolver.mode key)).getD "")).StaysIn resolver.mode := by
    cases held : resolver.theme.leafText? (palettePath resolver.mode key) with
    | none =>
        intro place named
        have unread : Reference.read "" = .unrecognized "" := by decide
        rw [Option.getD_none, unread] at named
        cases named
    | some text => exact shares.staysIn_of_leafText? ["palettes", key] held
  simp only [Palette.resolveRamp, written, shares.resolve stays]
  rfl

theorem Shares.palette (anchors : Anchors) (key : String) :
    Palette.resolve (resolver.onTheme theme) anchors key =
      Palette.resolve resolver anchors key := by
  have primary (ramp : Ramp) : Palette.resolvePrimary (resolver.onTheme theme) key ramp =
      Palette.resolvePrimary resolver key ramp := by
    have written : (resolver.onTheme theme).primaryText? (resolver.onTheme theme).mode key =
        resolver.primaryText? resolver.mode key := shares.primaryText? key
    rw [Palette.resolvePrimary, Palette.resolvePrimary, written]
    rfl
  rw [Palette.resolve, Palette.resolve, shares.resolveRamp]
  simp only [primary]
  rfl

theorem Shares.palettes (anchors : Anchors) :
    Palette.resolveAll (resolver.onTheme theme) anchors = Palette.resolveAll resolver anchors := by
  have keys : (resolver.onTheme theme).theme.keys
      ["themes", (resolver.onTheme theme).mode.text, "palettes"] =
        resolver.theme.keys ["themes", resolver.mode.text, "palettes"] :=
    shares.keys ["palettes"]
  rw [Palette.resolveAll, Palette.resolveAll, keys]
  simp only [shares.palette]
  rfl

theorem Shares.copied (subsystem : Subsystem) :
    Configuration.copiedEmission (resolver.onTheme theme) subsystem =
      Configuration.copiedEmission resolver subsystem := by
  have leaves : (resolver.onTheme theme).theme.leaves
      ["themes", (resolver.onTheme theme).mode.text, subsystem.text] =
        resolver.theme.leaves ["themes", resolver.mode.text, subsystem.text] :=
    shares.leaves [subsystem.text]
  rw [Configuration.copiedEmission, Configuration.copiedEmission, leaves]
  refine congrArg Emission.join (List.map_congr_left fun leaf listed => ?_)
  rw [Configuration.copiedLeaf, Configuration.copiedLeaf]
  cases held : leaf.value.text? with
  | none => rfl
  | some text =>
      have stays := shares.staysIn_of_mem_leaves [subsystem.text] listed held
      simp only [shares.resolveToken stays]
      rfl

theorem Shares.emphasis (configured : Option String)
    (option : ∀ text ∈ configured, (Reference.read text).StaysIn resolver.mode) :
    Emphasis.resolve (resolver.onTheme theme) configured =
      Emphasis.resolve resolver configured := by
  have bound : Emphasis.binding? (resolver.onTheme theme) configured =
      Emphasis.binding? resolver configured := by
    cases configured with
    | some text => rfl
    | none =>
        have written : (resolver.onTheme theme).theme.leafText?
            (Emphasis.documentPath (resolver.onTheme theme).mode) =
              resolver.theme.leafText? (Emphasis.documentPath resolver.mode) :=
          shares.leafText? ["text-emphasis"]
        simp only [Emphasis.binding?, written]
        rfl
  rw [Emphasis.resolve, Emphasis.resolve, bound]
  cases held : Emphasis.binding? resolver configured with
  | none => rfl
  | some binding =>
      obtain ⟨text, locus⟩ := binding
      have stays : (Reference.read text).StaysIn resolver.mode := by
        cases configured with
        | some given =>
            cases held
            exact option text rfl
        | none =>
            obtain ⟨own, written, given⟩ := Option.map_eq_some_iff.1 held
            cases given
            exact shares.staysIn_of_leafText? ["text-emphasis"] written
      simp only [Emphasis.ofReference, shares.resolveToken stays]
      rfl

theorem Shares.layers (anchors : Anchors) (palettes : Std.TreeMap String Palette)
    (emphasis : Option Emphasis) :
    LayerContext.resolve ⟨resolver.onTheme theme, anchors, palettes, emphasis⟩ =
      LayerContext.resolve ⟨resolver, anchors, palettes, emphasis⟩ := by
  have binding (layer : LayerId) :
      LayerContext.surfaceBinding ⟨resolver.onTheme theme, anchors, palettes, emphasis⟩ layer =
        LayerContext.surfaceBinding ⟨resolver, anchors, palettes, emphasis⟩ layer := by
    have written : (resolver.onTheme theme).theme.leafText?
        (layer.surfacePath (resolver.onTheme theme).mode) =
          resolver.theme.leafText? (layer.surfacePath resolver.mode) :=
      shares.leafText? ("layers" :: layer.documentPath ++ ["surface"])
    simp only [LayerContext.surfaceBinding, LayerContext.mode, written]
    cases held : resolver.theme.leafText? (layer.surfacePath resolver.mode) with
    | none => rfl
    | some text =>
        have stays := shares.staysIn_of_leafText?
          ("layers" :: layer.documentPath ++ ["surface"]) held
        simp only [shares.resolveColor stays]
  have surface (layer : LayerId) :
      LayerContext.surface ⟨resolver.onTheme theme, anchors, palettes, emphasis⟩ layer =
        LayerContext.surface ⟨resolver, anchors, palettes, emphasis⟩ layer := by
    simp only [LayerContext.surface, binding]
    rfl
  have whole (layer : LayerId) :
      LayerContext.layer ⟨resolver.onTheme theme, anchors, palettes, emphasis⟩ layer =
        LayerContext.layer ⟨resolver, anchors, palettes, emphasis⟩ layer := by
    simp only [LayerContext.layer, surface]
    rfl
  have listed : layerIds theme resolver.mode = layerIds resolver.theme resolver.mode := by
    have keys : theme.keys ["themes", resolver.mode.text, "layers"] =
        resolver.theme.keys ["themes", resolver.mode.text, "layers"] := shares.keys ["layers"]
    have alternatives : theme.keys (["themes", resolver.mode.text, "layers"] ++ ["alternative"]) =
        resolver.theme.keys (["themes", resolver.mode.text, "layers"] ++ ["alternative"]) :=
      shares.keys ["layers", "alternative"]
    simp only [layerIds, keys, alternatives]
  have listed' : layerIds (resolver.onTheme theme).theme (resolver.onTheme theme).mode =
      layerIds resolver.theme resolver.mode := listed
  simp only [LayerContext.resolve, LayerContext.mode, listed']
  rw [List.map_congr_left fun layer _ => whole layer]

end Shares

end Resolver

/-! ## Two runs -/

/-- What the entries of a name leave in a map does not depend on the others. -/
theorem Property.PropertyMap.entries_ofList_filter (entries : List (Name × Entry)) (name : Name) :
    (ofList (entries.filter fun added => added.1 == name)).entries[name]? =
      (ofList entries).entries[name]? := by
  induction entries using List.reverseRecOn with
  | nil => rfl
  | append_singleton entries last inductionHypothesis =>
      rw [List.filter_append, ofList_append_singleton, entries_add]
      by_cases same : last.1 = name
      · have kept : [last].filter (fun added => added.1 == name) = [last] := by simp [same]
        rw [kept, ofList_append_singleton, entries_add]
        simp only [same, origin?, binding?, inductionHypothesis]
      · have dropped : [last].filter (fun added => added.1 == name) = [] := by simp [same]
        rw [dropped, List.append_nil, if_neg same]
        exact inductionHypothesis

namespace Property.Name

theorem mode?_brand (mode : Mode) (subsystem : Subsystem) (path : List String) :
    (brand mode subsystem path).mode? = some mode := by
  have shape : (brand mode subsystem path).text =
      "--brand-" ++ (mode.text ++ dashed (subsystem.text :: path)) := by
    rw [brand, append_dashed_cons]
    rfl
  have begins : beginsWith "--brand-" (brand mode subsystem path).text = true := by
    rw [shape]
    exact beginsWith_append _ _
  have rest : (brand mode subsystem path).text.toList.drop 8 =
      mode.text.toList ++ '-' :: (subsystem.text ++ dashed path).toList := by
    rw [shape]
    simp [String.toList_append, toList_dashed]
  rw [mode?, if_pos begins, rest]
  cases mode <;> simp [Mode.text, List.takeWhile, Mode.read?, Mode.all]

theorem mode?_ui (path : List String) : (ui path).mode? = none := by
  have other : beginsWith "--brand-" (ui path).text = false := by
    simp [ui, beginsWith, String.toList_append, List.isPrefixOf]
  simp [mode?, other]

end Property.Name

namespace Configuration

variable {first second configuration : Configuration} {mode other : Mode} {name : Name}

/-- Whether two configurations differ at most below a mode of the theme. -/
structure DiffersIn (other : Mode) (first second : Configuration) : Prop where
  tokens : second.tokens = first.tokens
  uiKit : second.uiKit = first.uiKit
  options : second.options = first.options
  theme : first.theme.AgreesOutside ["themes", other.text] second.theme

/-- Whether no text below a mode of the theme, nor the configured emphasis, names another
mode. -/
structure KeepsOff (configuration : Configuration) (mode other : Mode) : Prop where
  theme : ∀ node ∈ configuration.theme.get? ["themes", mode.text],
    ∀ text ∈ node.texts, (Reference.read text).mode? ≠ some other
  emphasis : ∀ text ∈ configuration.options.textEmphasis,
    (Reference.read text).mode? ≠ some other

/-- Of two modes, a reference stays in the one if it does not name the other. -/
theorem staysIn_of_ne {reference : Reference} (different : mode ≠ other)
    (avoids : reference.mode? ≠ some other) : reference.StaysIn mode := by
  intro place named
  by_contra apart
  have only : place = other := by
    revert different apart
    cases mode <;> cases other <;> cases place <;> decide
  exact avoids (only ▸ named)

/-- Whatever is replaced below a mode, the configurations differ there only. -/
theorem differsIn_setNode (configuration : Configuration) (other : Mode) (rest : List String)
    (node : Json) :
    DiffersIn other configuration (configuration.withTheme
      (configuration.theme.setNode (["themes", other.text] ++ rest) node)) where
  tokens := rfl
  uiKit := rfl
  options := rfl
  theme := configuration.theme.agreesOutside_setNode "themes" [other.text] rest node

theorem DiffersIn.symm (differ : DiffersIn other first second) : DiffersIn other second first where
  tokens := differ.tokens.symm
  uiKit := differ.uiKit.symm
  options := differ.options.symm
  theme path apart apart' := (differ.theme path apart apart').symm

theorem DiffersIn.trans {third : Configuration} (differ : DiffersIn other first second)
    (differ' : DiffersIn other second third) : DiffersIn other first third where
  tokens := differ'.tokens.trans differ.tokens
  uiKit := differ'.uiKit.trans differ.uiKit
  options := differ'.options.trans differ.options
  theme path apart apart' :=
    (differ.theme path apart apart').trans (differ'.theme path apart apart')

/-- Of two configurations that differ below another mode, each resolver of the mode is the
other one over another theme. -/
theorem DiffersIn.resolver (differ : DiffersIn other first second) (mode : Mode) :
    second.resolver mode = (first.resolver mode).onTheme second.theme := by
  have index : second.index = first.index := by
    rw [second.index_eq, first.index_eq, differ.tokens]
  rw [Configuration.resolver, index, differ.options]
  rfl

theorem DiffersIn.shares (differ : DiffersIn other first second) (different : mode ≠ other)
    (keeps : first.KeepsOff mode other) : (first.resolver mode).Shares second.theme where
  agrees rest := by
    have texts : mode.text ≠ other.text := by
      revert different
      cases mode <;> cases other <;> decide
    refine (differ.theme _ (fun above => ?_) fun below => ?_).symm
    · rw [List.cons_append, List.prefix_cons_inj, List.cons_append] at above
      exact texts (List.head_eq_of_cons_eq above.choose_spec).symm
    · rw [List.cons_append, List.prefix_cons_inj, List.cons_append] at below
      exact texts (List.head_eq_of_cons_eq below.choose_spec)
  stays node found text within := staysIn_of_ne different (keeps.theme node found text within)

/-- Everything that a mode gives is the same where the other mode changes. -/
theorem DiffersIn.modeEmission (differ : DiffersIn other first second) (different : mode ≠ other)
    (keeps : first.KeepsOff mode other) :
    second.modeEmission mode = first.modeEmission mode := by
  have shares := differ.shares different keeps
  have emphasis := shares.emphasis first.options.textEmphasis
    fun text given => staysIn_of_ne different (keeps.emphasis text given)
  have copied : copiedEmission ((first.resolver mode).onTheme second.theme) =
      copiedEmission (first.resolver mode) := funext shares.copied
  rw [Configuration.modeEmission, Configuration.modeEmission, differ.resolver, differ.options]
  simp only [shares.anchors, shares.palettes, emphasis, shares.layers, copied]

/-- Whether a mode is declared does not depend on another one. -/
theorem DiffersIn.mem_modes (differ : DiffersIn other first second) (different : mode ≠ other)
    (keeps : first.KeepsOff mode other) : mode ∈ second.modes ↔ mode ∈ first.modes := by
  have same : second.theme.get? ["themes", mode.text] = first.theme.get? ["themes", mode.text] :=
    (differ.shares different keeps).agrees []
  rw [modes, modes, List.mem_filter, List.mem_filter, same]

/-- What is copied through are brand properties of its subsystem. -/
theorem exists_path_of_mem_copied {subsystem : Subsystem} {entry : Entry}
    (member : (name, entry) ∈
      (copiedEmission (configuration.resolver mode) subsystem).entries) :
    ∃ path, name = Name.brand mode subsystem path := by
  obtain ⟨_, listed, own⟩ := List.mem_flatMap.1 member
  obtain ⟨leaf, -, rfl⟩ := List.mem_map.1 listed
  rw [copiedLeaf] at own
  cases bound : leaf.value.text? with
  | none =>
      rw [bound] at own
      cases own
  | some text =>
      simp only [bound] at own
      split at own
      · cases List.mem_singleton.1 own
        exact ⟨_, rfl⟩
      · cases own

/-- What a mode adds are brand properties of that mode. -/
theorem exists_brand_of_mem {entry : Entry}
    (member : (name, entry) ∈ (configuration.modeEmission mode).2.entries) :
    ∃ subsystem path, name = Name.brand mode subsystem path := by
  rcases mem_modeEmission.1 member with anchor | palette | ⟨subsystem, -, copied⟩ | layer
  · obtain ⟨_, listed, own⟩ := List.mem_flatMap.1 anchor
    obtain ⟨⟨slot, anchor⟩, -, rfl⟩ := List.mem_map.1 listed
    cases List.mem_singleton.1 own
    exact ⟨_, _, rfl⟩
  · obtain ⟨key, -, palette, -, level, shade, -, held⟩ := mem_palettes.1 palette
    rcases Palette.mem_levelEmission held with tone | ⟨chosen, -, own⟩
    · cases tone
      exact ⟨_, _, rfl⟩
    · cases own
      exact ⟨_, _, rfl⟩
  · obtain ⟨path, rfl⟩ := exists_path_of_mem_copied copied
    exact ⟨_, _, rfl⟩
  · obtain ⟨layer, -, surface | ⟨surface, -, element⟩⟩ := mem_layers.1 layer
    · rcases surface_cases (configuration.layersOf mode) layer with
        ⟨issues, none⟩ | ⟨anchor, palette, isFallback, input, issues, -, given⟩
      · rw [none] at surface
        cases surface
      · rw [given] at surface
        cases List.mem_singleton.1 surface
        exact ⟨_, _, rfl⟩
    · obtain ⟨sought, -⟩ := LayerContext.finds_of_mem_elements element
      cases sought <;> exact ⟨_, _, rfl⟩

/-- Whether a property is that of a token, or a brand property of a mode. -/
def Belongs (mode : Mode) (name : Name) : Prop := name.tier = .tokens ∨ name.mode? = some mode

theorem Belongs.ne_ui (belongs : Belongs mode name) (path : List String) : name ≠ Name.ui path := by
  rintro rfl
  rcases belongs with token | moded
  · rw [Name.tier_ui] at token
    cases token
  · rw [Name.mode?_ui] at moded
    cases moded

theorem Belongs.ne_brand (belongs : Belongs mode name) (different : other ≠ mode)
    (subsystem : Subsystem) (path : List String) : name ≠ Name.brand other subsystem path := by
  rintro rfl
  rcases belongs with token | moded
  · rw [Name.tier_brand] at token
    cases token
  · rw [Name.mode?_brand] at moded
    exact different (Option.some.inj moded)

/-- What the components add are component properties. -/
theorem exists_ui_of_mem {bound : PropertyMap} {entry : Entry}
    (member : (name, entry) ∈ (configuration.componentEmission bound).entries) :
    ∃ path, name = Name.ui path := by
  obtain ⟨_, listed, own⟩ := List.mem_flatMap.1 member
  obtain ⟨leaf, -, rfl⟩ := List.mem_map.1 listed
  rw [componentLeaf] at own
  split at own
  · cases List.mem_singleton.1 own
    exact ⟨_, rfl⟩
  · cases own

/-- Of the entries of a token or of a mode, none come from another mode or a component. -/
theorem filter_entries (configuration : Configuration) (belongs : Belongs mode name) :
    configuration.entries.filter (fun added => added.1 == name) =
      (tokenEmission configuration.index).entries.filter (fun added => added.1 == name) ++
        if mode ∈ configuration.modes then
          (configuration.modeEmission mode).2.entries.filter fun added => added.1 == name
        else [] := by
  have foreign (own : Mode) (different : own ≠ mode) :
      (configuration.modeEmission own).2.entries.filter (fun added => added.1 == name) = [] := by
    rw [List.filter_eq_nil_iff]
    rintro ⟨added, entry⟩ member
    obtain ⟨subsystem, path, rfl⟩ := exists_brand_of_mem member
    rw [beq_iff_eq]
    exact (belongs.ne_brand different subsystem path).symm
  have component : (configuration.componentEmission
      (.ofList configuration.boundEmission.entries)).entries.filter
        (fun added => added.1 == name) = [] := by
    rw [List.filter_eq_nil_iff]
    rintro ⟨added, entry⟩ member
    obtain ⟨path, rfl⟩ := exists_ui_of_mem member
    rw [beq_iff_eq]
    exact (belongs.ne_ui path).symm
  have distinct : configuration.modes.Nodup := .filter _ (by decide)
  have bound : configuration.boundEmission.entries =
      (tokenEmission configuration.index).entries ++
        configuration.modes.flatMap fun mode => (configuration.modeEmission mode).2.entries := by
    rw [boundEmission, Emission.entries_append, Emission.join, List.flatMap_map]
  rw [entries, List.filter_append, component, List.append_nil, bound, List.filter_append,
    List.filter_flatMap, flatMap_eq_of_alone distinct foreign]

/-- Two configurations that differ below one mode have the same tokens and the same brand
properties of the other mode, if nothing there names the first: with the same values,
derived from the same properties, and bound at the same places. -/
theorem isolated_of_differsIn (differ : DiffersIn other first second) (different : mode ≠ other)
    (keeps : first.KeepsOff mode other) (belongs : Belongs mode name) :
    second.compute.map.value? name = first.compute.map.value? name ∧
      second.compute.map.origin? name = first.compute.map.origin? name ∧
      second.compute.map.binding? name = first.compute.map.binding? name := by
  have index : second.index = first.index := by
    rw [second.index_eq, first.index_eq, differ.tokens]
  have added : second.entries.filter (fun added => added.1 == name) =
      first.entries.filter fun added => added.1 == name := by
    rw [filter_entries _ belongs, filter_entries _ belongs, index,
      differ.modeEmission different keeps]
    simp only [differ.mem_modes different keeps]
  have held : second.compute.map.entries[name]? = first.compute.map.entries[name]? := by
    rw [compute_map, compute_map, ← PropertyMap.entries_ofList_filter, added,
      PropertyMap.entries_ofList_filter]
  simp only [PropertyMap.value?, PropertyMap.origin?, PropertyMap.binding?, held, and_self]

end Configuration

/-! ## A light and a dark mode -/

namespace Sample

/-- The bare layer in light mode, and a layer with this surface in dark mode. -/
def bothModes (dark : String) : Configuration :=
  bare.withTheme (bare.theme.setNode ["themes", "dark"] (.object
    [("layers", .object [("layer-0", .object [("surface", leaf (.text dark))])])]))

/-- The surface of the dark layer. -/
def darkSurface : Name := ⟨"--brand-dark-layer-0-surface"⟩

theorem differsIn_bothModes (dark dark' : String) :
    Configuration.DiffersIn .dark (bothModes dark) (bothModes dark') :=
  (bare.differsIn_setNode .dark [] _).symm.trans (bare.differsIn_setNode .dark [] _)

end Sample

namespace Configuration

/-- Themes whose dark surfaces are different, and are shown so, have the same light text. -/
theorem isolated_of_differsIn_bothModes :
    DiffersIn .dark (Sample.bothModes "\x7btokens.color.gray.900\x7d")
        (Sample.bothModes "\x7btokens.color.gray.000\x7d") ∧
      Mode.light ≠ .dark ∧
      (Sample.bothModes "\x7btokens.color.gray.900\x7d").KeepsOff .light .dark ∧
      Belongs .light Sample.text ∧
      (Sample.bothModes "\x7btokens.color.gray.000\x7d").compute.map.value?
          Sample.darkSurface ≠
        (Sample.bothModes "\x7btokens.color.gray.900\x7d").compute.map.value?
          Sample.darkSurface ∧
      (Sample.bothModes "\x7btokens.color.gray.000\x7d").compute.map.value? Sample.text =
          (Sample.bothModes "\x7btokens.color.gray.900\x7d").compute.map.value? Sample.text ∧
        (Sample.bothModes "\x7btokens.color.gray.000\x7d").compute.map.origin? Sample.text =
          (Sample.bothModes "\x7btokens.color.gray.900\x7d").compute.map.origin? Sample.text ∧
        (Sample.bothModes "\x7btokens.color.gray.000\x7d").compute.map.binding? Sample.text =
          (Sample.bothModes "\x7btokens.color.gray.900\x7d").compute.map.binding?
            Sample.text := by
  have differ := Sample.differsIn_bothModes "\x7btokens.color.gray.900\x7d"
    "\x7btokens.color.gray.000\x7d"
  have keeps : (Sample.bothModes "\x7btokens.color.gray.900\x7d").KeepsOff .light .dark :=
    ⟨by decide +kernel, by decide +kernel⟩
  have belongs : Belongs .light Sample.text := .inr (by decide +kernel)
  exact ⟨differ, by decide, keeps, belongs, by decide +kernel,
    isolated_of_differsIn differ (by decide) keeps belongs⟩

end Configuration

end Legible
