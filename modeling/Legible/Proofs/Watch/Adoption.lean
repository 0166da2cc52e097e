import Legible.Proofs.Watch.Folding
import Legible.Proofs.Watch.Outcome

/-!
# Live changes that are folded back

A live change that a flush reports as folded back is in the documents, in the map that
is computed from them, and in the registry, and all three agree: as long as the change is
written as the program writes it, and the documents take it. A token takes a value that
fits its category; a place of the theme takes a reference to a token that takes its own
live change, if any. The range of a value is not looked at when it is folded back, only
when the index is read again.
-/

namespace Legible

open Property

namespace Watcher

variable {watcher : Watcher} {names : List Name} {name : Name} {report : FlushReport}

/-! ## Changes that the documents take -/

/-- Whether the index of a watcher holds a token under a name of its own, and takes the
value that is live for it when the token is among the names that are folded back. -/
structure TakesToken (watcher : Watcher) (names : List Name) (path : Token.Path)
    (held : Token.Value) : Prop where
  found : watcher.configuration.index.values[path]? = some held
  alone : ∀ other value, watcher.configuration.index.values[other]? = some value →
    Name.ofToken other = Name.ofToken path → other = path
  once : Name.ofToken path ∈ names → Token.GivenOnce watcher.configuration.tokens path
  fits : Name.ofToken path ∈ names → ∀ text value,
    watcher.registry.get? (Name.ofToken path) = some text →
      held.spelled? (Text.trim text) = some value → value.fits path.category = true

/-- Whether a property is a live reference to a token that the documents take, with texts
that read back in the registry and in a theme. -/
structure RefersTo (watcher : Watcher) (names : List Name) (name : Name) (path : Token.Path)
    (held : Token.Value) : Prop where
  takes : watcher.TakesToken names path held
  live : watcher.registry.get? name = some (Value.reference (Name.ofToken path)).render
  readsBack : Value.read (Value.reference (Name.ofToken path)).render =
    .reference (Name.ofToken path)
  spelled : Reference.read (Reference.token path).text = .token path

/-- Whether the documents take the live change of a name, together with those of other
names. -/
inductive Takes (watcher : Watcher) (names : List Name) : Name → Prop where
  /-- The live text is the text of a value of the token's kind. -/
  | token {path : Token.Path} {held value : Token.Value} {text : String}
      (takes : watcher.TakesToken names path held)
      (live : watcher.registry.get? (Name.ofToken path) = some text)
      (spelled : held.spelled? (Text.trim text) = some value)
      (written : value.literal = text) : Takes watcher names (Name.ofToken path)
  | core {mode : Mode} {slot : CoreSlot} {path : Token.Path} {color : Color}
      (deep : 0 < watcher.configuration.options.maxReferenceDepth)
      (refers : watcher.RefersTo names (slot.property mode) path (.color color)) :
      Takes watcher names (slot.property mode)
  | surface {mode : Mode} {layer : LayerId} {path : Token.Path} {color : Color}
      (refers : watcher.RefersTo names (layer.surface mode) path (.color color)) :
      Takes watcher names (layer.surface mode)
  /-- No other place of the theme gives the property. -/
  | copied {mode : Mode} {subsystem : Subsystem} {place : List String} {path : Token.Path}
      {held : Token.Value} (listed : subsystem ∈ Subsystem.copied)
      (bound : watcher.current.map.binding? (Name.brand mode subsystem (place.drop 3)) =
        some (.theme place))
      (refers : watcher.RefersTo names (Name.brand mode subsystem (place.drop 3)) path held)
      (alone : ∀ leaf ∈ watcher.configuration.theme.leaves ["themes", mode.text, subsystem.text],
        Name.brand mode subsystem (leaf.path.drop 3) = Name.brand mode subsystem (place.drop 3) →
          leaf.path = place) :
      Takes watcher names (Name.brand mode subsystem (place.drop 3))

/-! ## What the folds leave -/

section

variable {origin after : Configuration}

/-- A token that the documents take is held afterwards, by a value of the same kind. -/
theorem TakesToken.held_after {path : Token.Path} {held : Token.Value}
    (takes : watcher.TakesToken names path held)
    (folds : FoldAll watcher.store origin.compute.map watcher.configuration names after)
    (distinct : names.Nodup)
    (places : KeepsPlaces origin.compute.map watcher.configuration names) :
    ∃ value, after.index.values[path]? = some value ∧ value.color?.isSome = held.color?.isSome := by
  by_cases member : Name.ofToken path ∈ names
  · rcases folds.bound distinct places member with ⟨own, _, bound, found⟩ | ⟨place, bound⟩
    · have same : own = path := takes.alone own _ found (by
        obtain ⟨token, equal, named⟩ := (Configuration.binds_of_binding? bound).of_token
        cases equal
        exact named)
      rw [same] at bound
      obtain ⟨text, value, live, spelled, leaves⟩ :=
        folds.token distinct places member bound takes.found (takes.once member)
      exact ⟨value, leaves (takes.fits member text value live spelled),
        Token.Value.isSome_color?_of_spelled? spelled⟩
    · obtain ⟨own, equal, -⟩ := (Configuration.binds_of_binding? bound).of_token
      cases equal
  · refine ⟨held, ?_, rfl⟩
    rw [folds.of_others distinct places ?_, takes.found]
    intro name listed bound
    have named := (Configuration.binds_of_binding? bound).name_of_binding (.token takes.found)
    exact member (named ▸ listed)

theorem TakesToken.exists_color {path : Token.Path} {color : Color}
    (takes : watcher.TakesToken names path (.color color))
    (folds : FoldAll watcher.store origin.compute.map watcher.configuration names after)
    (distinct : names.Nodup)
    (places : KeepsPlaces origin.compute.map watcher.configuration names) :
    ∃ color, after.index.values[path]? = some (.color color) := by
  obtain ⟨value, found, kind⟩ := takes.held_after folds distinct places
  cases value with
  | color color => exact ⟨color, found⟩
  | _ => cases kind

/-- A reference to a token that the documents take is at its place of the theme. -/
theorem RefersTo.leafText? {path : Token.Path} {held : Token.Value} {place : List String}
    (refers : watcher.RefersTo names name path held)
    (folds : FoldAll watcher.store origin.compute.map watcher.configuration names after)
    (distinct : names.Nodup)
    (places : KeepsPlaces origin.compute.map watcher.configuration names) (member : name ∈ names)
    (bound : origin.compute.map.binding? name = some (.theme place)) :
    after.theme.leafText? place = some (Reference.token path).text := by
  obtain ⟨token, value, live, found, leaves⟩ := folds.theme distinct places member bound
  have read : watcher.store.value? name = some (.reference (Name.ofToken path)) := by
    have shown : watcher.store.get? name = some (Value.reference (Name.ofToken path)).render :=
      refers.live
    rw [Store.value?, shown, Option.map_some, refers.readsBack]
  have named : Name.ofToken token = Name.ofToken path :=
    Value.reference.inj (Option.some.inj (live.symm.trans read))
  rw [leaves, refers.takes.alone token value found named]

/-- The map that is computed from the documents afterwards holds what is live. -/
theorem Takes.value? (takes : watcher.Takes names name)
    (folds : FoldAll watcher.store origin.compute.map watcher.configuration names after)
    (current : watcher.current = origin.compute) (distinct : names.Nodup)
    (places : KeepsPlaces origin.compute.map watcher.configuration names)
    (member : name ∈ names) :
    ∃ value, after.compute.map.value? name = some value ∧
      watcher.registry.get? name = some value.render := by
  cases takes with
  | @token path held value text takes live spelled written =>
      have bound : origin.compute.map.binding? (Name.ofToken path) = some (.token path) := by
        rcases folds.bound distinct places member with ⟨own, _, bound, found⟩ | ⟨place, bound⟩
        · obtain ⟨token, equal, named⟩ := (Configuration.binds_of_binding? bound).of_token
          cases equal
          rwa [takes.alone own _ found named] at bound
        · obtain ⟨own, equal, -⟩ := (Configuration.binds_of_binding? bound).of_token
          cases equal
      obtain ⟨text', value', live', spelled', leaves⟩ :=
        folds.token distinct places member bound takes.found (takes.once member)
      cases live.symm.trans live'
      cases spelled.symm.trans spelled'
      have found := leaves (takes.fits member text value live spelled)
      refine ⟨.literal value.literal,
        Configuration.value?_ofToken_of_alone found fun other other' own named => ?_, ?_⟩
      · obtain ⟨before, earlier⟩ := folds.exists_held distinct places own
        exact takes.alone other before earlier named
      · rw [live, ← written]
        rfl
  | @core mode slot path color deep refers =>
      obtain ⟨binding, bound⟩ := folds.exists_binding distinct places member
      obtain ⟨listed, rfl⟩ := (Configuration.binds_of_binding? bound).of_core
      obtain ⟨color', found⟩ := refers.takes.exists_color folds distinct places
      refine ⟨_, Configuration.value?_of_core listed ?_
        (refers.leafText? folds distinct places member bound) refers.spelled found, refers.live⟩
      rwa [folds.options]
  | @surface mode layer path color refers =>
      obtain ⟨binding, bound⟩ := folds.exists_binding distinct places member
      obtain ⟨listed, rfl⟩ := (Configuration.binds_of_binding? bound).of_surface
      obtain ⟨color', found⟩ := refers.takes.exists_color folds distinct places
      refine ⟨_, Configuration.value?_of_surface (fun key same => ?_)
        (refers.leafText? folds distinct places member bound) refers.spelled found, refers.live⟩
      exact Configuration.alternative_of_mem_layerIds (same ▸ listed)
  | @copied mode subsystem place path held listed bound refers alone =>
      rw [current] at bound
      have below := (Configuration.binds_of_binding? bound).of_copied listed
      have paths := folds.leafPaths distinct places mode listed
      obtain ⟨before, among, stands⟩ :=
        places.copied _ member place bound mode subsystem listed below
      obtain ⟨leaf, own, rfl⟩ : ∃ leaf ∈ after.theme.leaves ["themes", mode.text, subsystem.text],
          leaf.path = place := by
        rw [← List.mem_map, paths]
        exact List.mem_map.2 ⟨before, among, stands⟩
      obtain ⟨value, found, -⟩ := refers.takes.held_after folds distinct places
      refine ⟨_, Configuration.value?_of_copied listed (folds.unique distinct places) own
        (refers.leafText? folds distinct places member bound) refers.spelled found
          fun other listed' same => ?_, refers.live⟩
      obtain ⟨earlier, among', stands'⟩ : ∃ earlier ∈
          watcher.configuration.theme.leaves ["themes", mode.text, subsystem.text],
          earlier.path = other.path := by
        rw [← List.mem_map, ← paths]
        exact List.mem_map_of_mem listed'
      rw [← stands'] at same ⊢
      exact alone earlier among' same

end

/-- Where no document has changed since the last flush, the places that are bound are places
of the documents. -/
theorem Tracks.keepsPlaces (tracks : watcher.Tracks)
    (steady : watcher.pending.needsRecompute = false)
    (tokens : watcher.configuration.tokens.root.UniqueKeys)
    (theme : watcher.configuration.theme.root.UniqueKeys) (names : List Name) :
    KeepsPlaces watcher.current.map watcher.configuration names where
  tokens := tokens
  theme := theme
  held name _ path canonical bound leads := by
    rw [tracks.fresh steady] at bound
    have binds := Configuration.binds_of_binding? bound
    cases binds with
    | token held =>
        rw [Token.Index.canonicalize?_of_held held] at leads
        exact (Option.some.inj leads).symm
  copied name _ path bound mode subsystem listed below := by
    rw [tracks.fresh steady] at bound
    exact (Configuration.binds_of_binding? bound).exists_leaf listed below

/-! ## Agreement after a flush -/

/-- Whether the documents, the map and the registry of a watcher agree on a property: the
map is computed from the documents, what it holds is live, and the live text is no
override. -/
structure Agrees (watcher : Watcher) (name : Name) : Prop where
  computed : watcher.current = watcher.configuration.compute
  shown : ∃ value, watcher.current.map.value? name = some value ∧
    watcher.registry.get? name = some value.render
  settled : ∀ generated, watcher.isOverride name generated = false

/-- What shows the value of the next map already is not changed by a flush. -/
theorem Outcome.get?_of_rendered {state : Store × FlushReport} (tracks : watcher.Tracks)
    (outcome : watcher.Outcome report state) {value : Value}
    (held : watcher.decideFlush.next.map.value? name = some value)
    (live : watcher.registry.get? name = some value.render)
    (unhandled : name ∉ watcher.decideFlush.tones.handled) :
    watcher.flush.1.registry.get? name = some value.render := by
  have shown : watcher.decideFlush.folded.store.get? name = some value.render := by
    rw [(folds_decideFlush watcher).store]
    exact live
  have written : watcher.decideFlush.folded.action watcher.decideFlush.next.map
      watcher.decideFlush.forced name = .write value := by
    simp [action, held, isOverride, shown]
  have planned {other : Action} (listed : (name, other) ∈ watcher.decideFlush.actions) :
      other = .write value :=
    (FlushDecision.mem_actions.1 listed).2.2.symm.trans written
  have uncontested (contest : Contest)
      (listed : contest ∈ watcher.decideFlush.plan.contests) : contest.name ≠ name := by
    rintro rfl
    cases planned (FlushPlan.mem_contests.1 listed)
  rw [outcome.get?_of_uncontested tracks uncontested]
  by_cases member : name ∈ watcher.decideFlush.writes.map Prod.fst
  · obtain ⟨value', listed, put⟩ := @Store.exists_of_get?_putAll
      (watcher.decideFlush.folded.store.unsetAll watcher.decideFlush.plan.unset).1 _ _ member
    rw [outcome.applied.get?, put]
    rcases List.mem_append.1 listed with tone | own
    · exact absurd (List.mem_append_left _ (List.mem_map_of_mem tone)) unhandled
    · cases planned (FlushPlan.mem_writes.1 own)
      rfl
  · rw [outcome.applied.get?_of_unwritten member, if_neg, shown]
    intro unset
    cases planned unset

/-- What is folded back is settled by no tone plan. -/
theorem unhandled_of_adopted (tracks : watcher.Tracks) {binding : Binding}
    (bound : watcher.current.map.binding? name = some binding)
    (other : ∀ mode key level, binding ≠ .tone mode key level) :
    name ∉ watcher.decideFlush.tones.handled := by
  obtain ⟨origin, current⟩ := tracks.computed
  rw [current] at bound
  have apart := (Configuration.binds_of_binding? bound).not_palette other
  intro handled
  rcases handled_cases tracks handled with kept | ⟨mode, key, level, named, -⟩
  · obtain ⟨overrides, named, settles⟩ := settles_decideFlush tracks
    obtain ⟨override, listed, same, -⟩ := settles.kept name kept
    exact apart _ _ (same.symm.trans (named override listed))
  · exact apart _ _ named

/-- What a flush reports as folded back was folded back, each name once. -/
theorem Outcome.folds {state : Store × FlushReport} (tracks : watcher.Tracks)
    (outcome : watcher.Outcome report state) :
    report.adopted.Nodup ∧ FoldAll watcher.store watcher.current.map watcher.configuration
      report.adopted watcher.decideFlush.folded.configuration := by
  have same : report.adopted = watcher.decideFlush.adopted :=
    (outcome.continues tracks).adopted.trans outcome.applied.adopted
  obtain ⟨among, folds⟩ :=
    foldAll_adoptAll { watcher with liveRoots := ∅ } watcher.decideFlush.changed
  rw [same]
  exact ⟨among.nodup watcher.nodup_changed, folds⟩

/-- A live change that a flush reports as folded back is in the documents, in the map that
is computed from them and in the registry, as long as the places of what is folded back
are places of the documents and these take the change. -/
theorem agrees_of_adopted (reachable : watcher.Reachable) (flushed : watcher.flush.2 = some report)
    (adopted : name ∈ report.adopted)
    (places : KeepsPlaces watcher.current.map watcher.configuration report.adopted)
    (takes : watcher.Takes report.adopted name) : watcher.flush.1.Agrees name := by
  have tracks := reachable.tracks
  rcases outcome_of_flush tracks flushed with rfl | ⟨state, outcome⟩
  · cases adopted
  obtain ⟨origin, current⟩ := tracks.computed
  obtain ⟨distinct, folds⟩ := outcome.folds tracks
  have computed : watcher.flush.1.current = watcher.flush.1.configuration.compute := by
    rw [outcome.current, outcome.configuration, tracks.next]
  have unhandled : name ∉ watcher.decideFlush.tones.handled := by
    rw [current] at folds places
    rcases folds.bound distinct places adopted with ⟨path, _, bound, -⟩ | ⟨path, bound⟩
    · exact unhandled_of_adopted tracks (current ▸ bound) (by simp)
    · exact unhandled_of_adopted tracks (current ▸ bound) (by simp)
  rw [current] at folds places
  obtain ⟨value, held, live⟩ := takes.value? folds current distinct places adopted
  have shown : watcher.flush.1.registry.get? name = some value.render :=
    outcome.get?_of_rendered tracks (by rw [tracks.next]; exact held) live unhandled
  have own : watcher.flush.1.current.map.value? name = some value := by
    rw [computed, outcome.configuration]
    exact held
  refine ⟨computed, ⟨value, own, shown⟩, fun generated => ?_⟩
  have text : watcher.flush.1.store.get? name = some value.render := shown
  simp [isOverride, text, own]

end Watcher

namespace Sample

/-- One opacity, and no theme. -/
def sheer : Configuration :=
  .ofDocuments ⟨"tokens", .object [("opacity", .object [("muted", leaf (.number (.real 0.5)))])]⟩
    (.empty "theme") (.empty "ui-kit") {}

/-- An opacity, and black and white without a layer. -/
def plain : Configuration :=
  .ofDocuments (tokens grays [("opacity", .object [("muted", leaf (.number (.real 0.75)))])])
    ⟨"theme", .object
      [("themes", .object [("light", .object [("core-colors", .object (core.take 2))])])]⟩
    (.empty "ui-kit") {}

/-- The address of the opacity of text. -/
def opacityPath : Token.Path := .plain "opacity" "muted"

/-- The opacity of text. -/
def opacity : Name := ⟨"--tokens-opacity-muted"⟩

/-- The address of the gray. -/
def grayPath : Token.Path := .color "gray" ⟨500⟩

/-- The white core color. -/
def white : Name := CoreSlot.white.property .light

/-- A lower opacity, and a white that is gray. -/
def dimmed : List (Name × String) :=
  [(opacity, "0.5"), (white, "var(--tokens-color-gray-500)")]

/-- Writes alone leave the documents. -/
theorem sameDocuments_attached (configuration : Configuration) (writes : List (Name × String)) :
    Watcher.SameDocuments (.start configuration .empty)
      (attached configuration (writes.map fun (name, text) => .writeLive name text)) := by
  have all (watcher : Watcher) : Watcher.SameDocuments watcher
      ((writes.map fun (name, text) => .writeLive name text).foldl Watcher.operate watcher) := by
    induction writes generalizing watcher with
    | nil => exact Watcher.sameDocuments_refl watcher
    | cons write rest inductionHypothesis =>
        rw [List.map_cons, List.foldl_cons]
        exact (Watcher.sameDocuments_operate_writeLive _ _ _).trans (inductionHypothesis _)
  rw [attached, List.foldl_cons]
  exact (Watcher.sameDocuments_attach _ 0).trans (all _)

theorem uniqueKeys_plain : plain.tokens.root.UniqueKeys ∧ plain.theme.root.UniqueKeys := by
  constructor
  · simp [plain, tokens, leaf, grays, Configuration.ofDocuments, Json.UniqueKeys,
      Json.UniqueKeysMembers]
  · simp [plain, leaf, core, Configuration.ofDocuments, Json.UniqueKeys, Json.UniqueKeysMembers]

theorem givenOnce_opacity : Token.GivenOnce plain.tokens opacityPath where
  shade ramp level same := by
    have leveled := congrArg Token.Path.level same
    cases leveled
  leaf _ leaf listed other listed' _ _ := by
    have all : plain.tokens.leaves ["opacity"] =
        [⟨["opacity", "muted"], .number (.real 0.75), none⟩] := rfl
    have own : leaf ∈ plain.tokens.leaves ["opacity"] := listed
    have own' : other ∈ plain.tokens.leaves ["opacity"] := listed'
    rw [all, List.mem_singleton] at own own'
    rw [own, own']

theorem alone_plain {path other : Token.Path} {held value : Token.Value}
    (found : plain.index.values[path]? = some held) (listed : plain.index.values[other]? = some value)
    (same : Name.ofToken other = Name.ofToken path) : other = path := by
  have names : plain.index.HasPlainNames :=
    Token.Index.hasPlainNames_of_tokens (by decide +kernel) (by decide +kernel)
  exact (names.distinct path other held value found listed same.symm).symm

variable {watcher : Watcher} {names : List Name}

/-- One half fits the opacities. -/
theorem takes_opacity (documents : watcher.configuration = plain)
    (live : watcher.registry.get? opacity = some "0.5") : watcher.Takes names opacity := by
  have found : plain.index.values[opacityPath]? = some (.number 0.75) := by decide +kernel
  have half : (Token.Value.number 0.75).spelled? (Text.trim "0.5") = some (.number 0.5) := by
    decide +kernel
  have fits (text : String) (value : Token.Value)
      (shown : watcher.registry.get? opacity = some text)
      (spelled : (Token.Value.number 0.75).spelled? (Text.trim text) = some value) :
      value.fits "opacity" = true := by
    cases live.symm.trans shown
    cases half.symm.trans spelled
    decide +kernel
  have takes : watcher.TakesToken names opacityPath (.number 0.75) :=
    { found := documents ▸ found
      alone := fun _ _ listed same => alone_plain found (documents ▸ listed) same
      once := fun _ => documents ▸ givenOnce_opacity
      fits := fun _ => fits }
  have own : watcher.registry.get? (Name.ofToken opacityPath) = some "0.5" := live
  exact .token takes own half (by decide +kernel)

/-- The gray is a color that is not folded back itself. -/
theorem takes_white (documents : watcher.configuration = plain)
    (live : watcher.registry.get? white = some "var(--tokens-color-gray-500)")
    (fixed : Name.ofToken grayPath ∉ names) : watcher.Takes names white := by
  have found : plain.index.values[grayPath]? = some (.color ⟨118, 118, 118⟩) := by decide +kernel
  have takes : watcher.TakesToken names grayPath (.color ⟨118, 118, 118⟩) :=
    { found := documents ▸ found
      alone := fun _ _ listed same => alone_plain found (documents ▸ listed) same
      once := fun member => absurd member fixed
      fits := fun member => absurd member fixed }
  have own : watcher.registry.get? white =
      some (Value.reference (Name.ofToken grayPath)).render := by
    rw [live]
    decide
  exact .core (by rw [documents]; decide) ⟨takes, own, by decide +kernel, by decide +kernel⟩

end Sample

namespace Watcher

/-- An opacity is folded back into the tokens, and a gray white into the theme. -/
theorem agrees_of_adopted_dimmed :
    ∃ watcher : Watcher, ∃ report : FlushReport, watcher.Reachable ∧ watcher.isAttached = true ∧
      watcher.flush.2 = some report ∧ Sample.opacity ∈ report.adopted ∧
      Sample.white ∈ report.adopted ∧ watcher.registry.get? Sample.opacity = some "0.5" ∧
      watcher.flush.1.Agrees Sample.opacity ∧ watcher.flush.1.Agrees Sample.white := by
  have same := (Sample.sameDocuments_attached Sample.plain Sample.dimmed).configuration
  have reachable := Sample.reachable_attached Sample.plain
    (Sample.dimmed.map fun (name, text) => .writeLive name text)
  have facts : (fun watcher : Watcher => (watcher.isAttached, watcher.pending.needsRecompute,
      watcher.flush.2.map FlushReport.adopted, watcher.registry.get? Sample.opacity,
        watcher.registry.get? Sample.white))
        (Sample.attached Sample.plain
          (Sample.dimmed.map fun (name, text) => .writeLive name text)) =
        (true, false, some [Sample.white, Sample.opacity], some "0.5",
          some "var(--tokens-color-gray-500)") := by
    decide +kernel
  generalize Sample.attached Sample.plain _ = watcher at facts same reachable
  have documents : watcher.configuration = Sample.plain := same
  obtain ⟨isAttached, rest⟩ := Prod.mk.inj facts
  obtain ⟨steady, rest⟩ := Prod.mk.inj rest
  obtain ⟨reported, rest⟩ := Prod.mk.inj rest
  obtain ⟨opacity, white⟩ := Prod.mk.inj rest
  obtain ⟨report, flushed, adopted⟩ := Option.map_eq_some_iff.1 reported
  obtain ⟨tokens, theme⟩ := Sample.uniqueKeys_plain
  have places := reachable.tracks.keepsPlaces steady (documents ▸ tokens) (documents ▸ theme)
    report.adopted
  have fixed : Name.ofToken Sample.grayPath ∉ report.adopted := by
    rw [adopted]
    decide
  have listed : Sample.opacity ∈ report.adopted := by
    rw [adopted]
    decide
  have listed' : Sample.white ∈ report.adopted := by
    rw [adopted]
    decide
  exact ⟨watcher, report, reachable, isAttached, flushed, listed, listed', opacity,
    agrees_of_adopted reachable flushed listed places (Sample.takes_opacity documents opacity),
    agrees_of_adopted reachable flushed listed' places
      (Sample.takes_white documents white fixed)⟩

/-- An opacity above one is folded back into the tokens, where the index refuses it: the
property leaves the map and is unset. -/
theorem not_agrees_of_adopted_faded :
    ∃ watcher : Watcher, ∃ report : FlushReport, watcher.Reachable ∧ watcher.isAttached = true ∧
      watcher.flush.2 = some report ∧ Sample.opacity ∈ report.adopted ∧
      Sample.opacity ∈ report.removed ∧
      watcher.flush.1.current.map.value? Sample.opacity = none ∧
      ¬ watcher.flush.1.Agrees Sample.opacity := by
  have reachable := Sample.reachable_attached Sample.sheer [.writeLive Sample.opacity "1.5"]
  have facts : (fun watcher : Watcher => (watcher.isAttached,
      watcher.flush.2.map fun report => (report.adopted, report.removed),
      watcher.flush.1.current.map.value? Sample.opacity))
        (Sample.attached Sample.sheer [.writeLive Sample.opacity "1.5"]) =
        (true, some ([Sample.opacity], [Sample.opacity]), none) := by
    decide +kernel
  generalize Sample.attached Sample.sheer _ = watcher at facts reachable
  obtain ⟨isAttached, rest⟩ := Prod.mk.inj facts
  obtain ⟨reported, gone⟩ := Prod.mk.inj rest
  obtain ⟨report, flushed, lists⟩ := Option.map_eq_some_iff.1 reported
  obtain ⟨adopted, removed⟩ := Prod.mk.inj lists
  refine ⟨watcher, report, reachable, isAttached, flushed, ?_, ?_, gone, fun agrees => ?_⟩
  · rw [adopted]
    exact List.mem_cons_self
  · rw [removed]
    exact List.mem_cons_self
  · obtain ⟨value, held, -⟩ := agrees.shown
    rw [gone] at held
    cases held

end Watcher

end Legible
