import Mathlib.Data.List.Nodup
import Mathlib.Data.List.Perm.Subperm
import Mathlib.Logic.Relation
import Legible.Proofs.Reference.Text
import Legible.Proofs.Token.Index

/-!
# Chains of bindings

A reference is followed from one place of a theme to the next. The places that lead on are
among the core colors and the surfaces that the theme has a node for, so a chain that is
longer than their number has been at a place before. From there it leads around again
however many bindings may be passed, and in every other case the chain ends by itself.
-/

namespace Legible

open Relation

namespace Target

/-- The reference that points at a target. -/
def reference : Target → Reference
  | .token path => .token path
  | .ramp name => .ramp name

/-- Whether a target is a token or a ramp of an index, the ramp under its own name. -/
def IsHeld (index : Token.Index) : Target → Prop
  | .token path => ∃ value, index.values[path]? = some value
  | .ramp name => ∃ ramp, index.ramps[name]? = some ramp ∧ ramp.name = name

end Target

namespace Resolver

/-! ## Places that lead on -/

/-- Whether a place is bound to a reference to another place. -/
def Hops (resolver : Resolver) (here next : Mode × Site) : Prop :=
  ∃ written, resolver.step here.1 here.2 = .ok (.site written next.2) ∧
    written.getD resolver.mode = next.1

/-- The core colors, each with every state that a reference can give it. -/
def coreSites : List Site :=
  CoreColor.all.flatMap fun color =>
    (none :: InteractiveState.all.map some).map fun state => .core color state

/-- The layers that a mode has a node for. Other than where the layers of a theme are listed,
names that begin with `$` count here: no text spells them, but a reference can hold them. -/
def layersIn (theme : Document) (mode : Mode) : List LayerId :=
  (theme.allKeys ["themes", mode.text, "layers"]).filterMap LayerId.read? ++
    (theme.allKeys ["themes", mode.text, "layers", "alternative"]).map .alternative

/-- The places of a theme that can be bound to a reference to another place. -/
def placesOf (theme : Document) : List (Mode × Site) :=
  Mode.all.flatMap fun mode =>
    (coreSites ++ (layersIn theme mode).map Site.surface).map fun site => (mode, site)

variable {resolver : Resolver} {here next : Mode × Site}

theorem mem_coreSites (color : CoreColor) (state : Option InteractiveState) :
    .core color state ∈ coreSites := by
  cases color <;> rcases state with _ | _ | _ <;> decide

/-- A layer that has a surface has a node. -/
theorem mem_layersIn {theme : Document} {mode : Mode} {layer : LayerId}
    (found : (theme.get? (layer.surfacePath mode)).isSome) : layer ∈ layersIn theme mode := by
  rw [layersIn, List.mem_append]
  cases layer with
  | indexed number =>
      have listed : "layer-" ++ LayerId.numberText number ∈
          theme.allKeys ["themes", mode.text, "layers"] :=
        Document.mem_allKeys_of_get? _ ["surface"] found
      exact .inl (List.mem_filterMap.2 ⟨_, listed, LayerId.read?_append_numberText number⟩)
  | alternative name =>
      have listed : name ∈ theme.allKeys ["themes", mode.text, "layers", "alternative"] :=
        Document.mem_allKeys_of_get? _ ["surface"] found
      exact .inr (List.mem_map_of_mem listed)

/-- A place that leads on is no palette; a surface that does has a node. -/
theorem Hops.cases (hops : resolver.Hops here next) :
    (∃ color state, here.2 = .core color state) ∨
      ∃ layer, here.2 = .surface layer ∧ layer ∈ layersIn resolver.theme here.1 := by
  obtain ⟨written, stepped, -⟩ := hops
  obtain ⟨mode, place⟩ := here
  cases place with
  | palette key level =>
      obtain ⟨name, level, -, -, leads⟩ := cases_of_step_palette stepped
      cases leads
  | core color state => exact .inl ⟨color, state, rfl⟩
  | surface layer =>
      refine .inr ⟨layer, rfl, mem_layersIn ?_⟩
      simp only [step, binding] at stepped
      split at stepped
      · next bound => exact Document.isSome_get?_of_leafText? bound
      · cases stepped

/-- The places that lead on are listed. -/
theorem Hops.mem_placesOf (hops : resolver.Hops here next) : here ∈ placesOf resolver.theme := by
  obtain ⟨mode, place⟩ := here
  have listed : mode ∈ Mode.all := by cases mode <;> decide
  refine List.mem_flatMap.2 ⟨mode, listed, List.mem_map.2 ⟨place, ?_, rfl⟩⟩
  rw [List.mem_append]
  rcases hops.cases with ⟨color, state, rfl⟩ | ⟨layer, rfl, node⟩
  · exact .inl (mem_coreSites color state)
  · exact .inr (List.mem_map_of_mem node)

/-- No other place is written like one that leads on. -/
theorem Hops.eq_of_text (hops : resolver.Hops here next) {other : Mode × Site}
    (same : (Reference.site (some other.1) other.2).text =
      (Reference.site (some here.1) here.2).text) : other = here := by
  have bound : ∀ key level, here.2 ≠ .palette key level := by
    intro key level palette
    rcases hops.cases with ⟨color, state, core⟩ | ⟨layer, surface, -⟩
    · cases palette.symm.trans core
    · cases palette.symm.trans surface
  obtain ⟨mode, place⟩ := Reference.place_eq_of_text bound same.symm
  exact Prod.ext mode.symm place.symm

/-! ## Chains -/

variable {remaining : Nat} {seen : List (Mode × Site)} {reference : Reference}

/-- Whether a reference points at a place. -/
def PointsAt (resolver : Resolver) (reference : Reference) (place : Mode × Site) : Prop :=
  ∃ written, reference = .site written place.2 ∧ written.getD resolver.mode = place.1

/-- Whether the places that were passed lead on to where a reference points. -/
def Passed (resolver : Resolver) (seen : List (Mode × Site)) (reference : Reference) : Prop :=
  ∀ here ∈ seen, ∀ next, resolver.PointsAt reference next → TransGen resolver.Hops here next

/-- A place leads on to where the reference points that is bound to it. -/
theorem hops_iff_pointsAt {bound : Reference}
    (stepped : resolver.step here.1 here.2 = .ok bound) :
    resolver.Hops here next ↔ resolver.PointsAt bound next := by
  constructor
  · rintro ⟨written, leads, mode⟩
    cases stepped.symm.trans leads
    exact ⟨written, rfl, mode⟩
  · rintro ⟨written, rfl, mode⟩
    exact ⟨written, stepped, mode⟩

/-- One more place is passed. -/
theorem Passed.step {bound : Reference} (passed : resolver.Passed seen reference)
    (points : resolver.PointsAt reference here)
    (stepped : resolver.step here.1 here.2 = .ok bound) :
    resolver.Passed (here :: seen) bound := by
  intro before listed next follows
  have hops := (hops_iff_pointsAt stepped).2 follows
  rcases List.mem_cons.1 listed with rfl | listed
  · exact .single hops
  · exact (passed before listed here points).tail hops

/-- The places that were passed are listed. -/
theorem Passed.subset (passed : resolver.Passed seen reference)
    (points : resolver.PointsAt reference here) : seen ⊆ placesOf resolver.theme := by
  intro before listed
  obtain ⟨next, hops, -⟩ := TransGen.head'_iff.1 (passed before listed here points)
  exact hops.mem_placesOf

theorem binding_error {path : List String} {error : ReferenceError}
    (failed : resolver.binding path = .error error) : error = .missingBinding path := by
  rw [binding] at failed
  split at failed
  · cases failed
  · cases failed
    rfl

/-- A place fails because of what is bound there, and not because of a chain. -/
theorem step_error {mode : Mode} {place : Site} {error : ReferenceError}
    (failed : resolver.step mode place = .error error) :
    (∃ path, error = .missingBinding path) ∨ ∃ key, error = .paletteNotARamp key := by
  have unbound (path : List String) (failed : resolver.binding path = .error error) :
      (∃ path, error = .missingBinding path) ∨ ∃ key, error = .paletteNotARamp key :=
    .inl ⟨path, binding_error failed⟩
  cases place with
  | palette key level =>
      rw [step] at failed
      cases bound : resolver.binding (palettePath mode key) with
      | error error' =>
          rw [bound] at failed
          cases failed
          exact unbound _ bound
      | ok reference =>
          rw [bound] at failed
          cases reference with
          | ramp name =>
              -- A ramp is bound here, so only the level can be missing.
              simp only [bind, Except.bind] at failed
              split at failed
              · next unknown =>
                  cases failed
                  rw [paletteLevel] at unknown
                  split at unknown
                  · cases unknown
                  · cases unknown
                    exact .inl ⟨_, rfl⟩
              · cases failed
          | _ =>
              cases failed
              exact .inr ⟨key, rfl⟩
  | core color state => cases color <;> exact unbound _ failed
  | surface layer => exact unbound _ failed

/-- A chain that is too long has passed as many places as it may. -/
theorem length_le_of_tooDeep {limit : Nat} (apart : seen.Nodup)
    (passed : resolver.Passed seen reference)
    (deep : resolver.follow remaining seen reference = .error (.tooDeep limit)) :
    seen.length + remaining ≤ (placesOf resolver.theme).length := by
  -- Along the way the places that were passed stay apart and lead on, so they are listed.
  fun_induction resolver.follow remaining seen reference with
  | case8 seen written place mode fresh =>
      have points : resolver.PointsAt (.site written place) (mode, place) := ⟨written, rfl, rfl⟩
      exact (apart.subperm (passed.subset points)).length_le
  | case9 seen written place mode fresh remaining bound stepped inductionHypothesis =>
      have points : resolver.PointsAt (.site written place) (mode, place) := ⟨written, rfl, rfl⟩
      have further := inductionHypothesis (List.nodup_cons.2 ⟨fresh, apart⟩)
        (passed.step points stepped) deep
      rw [List.length_cons] at further
      omega
  | case10 seen written place mode fresh remaining error failed =>
      rcases step_error failed with ⟨path, rfl⟩ | ⟨key, rfl⟩ <;> cases deep
  | _ => cases deep

/-- A chain that leads around comes to a place that leads back to itself. -/
theorem loops_of_cycle {mode : Mode} {place : Site} (passed : resolver.Passed seen reference)
    (cycle : resolver.follow remaining seen reference = .error (.cycle mode place)) :
    ∃ start, resolver.PointsAt reference start ∧
      ReflTransGen resolver.Hops start (mode, place) ∧
      TransGen resolver.Hops (mode, place) (mode, place) := by
  fun_induction resolver.follow remaining seen reference with
  | case7 remaining seen written own ownMode again =>
      have points : resolver.PointsAt (.site written own) (ownMode, own) := ⟨written, rfl, rfl⟩
      clear_value ownMode
      cases cycle
      exact ⟨_, points, .refl, passed _ again _ points⟩
  | case9 seen written own ownMode fresh remaining bound stepped inductionHypothesis =>
      have points : resolver.PointsAt (.site written own) (ownMode, own) := ⟨written, rfl, rfl⟩
      obtain ⟨next, follows, leads, loops⟩ :=
        inductionHypothesis (passed.step points stepped) cycle
      exact ⟨_, points, leads.head ((hops_iff_pointsAt stepped).2 follows), loops⟩
  | case10 seen written own ownMode fresh remaining error failed =>
      rcases step_error failed with ⟨path, rfl⟩ | ⟨key, rfl⟩ <;> cases cycle
  | _ => cases cycle

/-! ## More bindings -/

/-- The same resolver with another number of bindings that may be passed. -/
def within (resolver : Resolver) (depth : Nat) : Resolver := { resolver with maxDepth := depth }

@[simp] theorem index_within (depth : Nat) : (resolver.within depth).index = resolver.index := rfl

@[simp] theorem step_within (depth : Nat) : (resolver.within depth).step = resolver.step := by
  funext mode place
  cases place with
  | palette key level => rfl
  | core color state => cases color <;> rfl
  | surface layer => rfl

variable {written : Option Mode} {place : Site}

/-- A place that was passed before is a cycle. -/
theorem follow_of_mem (again : (written.getD resolver.mode, place) ∈ seen) :
    resolver.follow remaining seen (.site written place) =
      .error (.cycle (written.getD resolver.mode) place) := by
  cases remaining <;> simp [follow, again]

/-- A new place is passed by following what it is bound to. -/
theorem follow_succ (fresh : (written.getD resolver.mode, place) ∉ seen) :
    resolver.follow (remaining + 1) seen (.site written place) =
      (resolver.step (written.getD resolver.mode) place).bind fun next =>
        resolver.follow remaining ((written.getD resolver.mode, place) :: seen) next := by
  simp only [follow, if_neg fresh]
  cases resolver.step (written.getD resolver.mode) place <;> rfl

/-- A chain that ends ends the same way when more bindings may be passed. -/
theorem follow_of_le (resolver : Resolver) {depth depth' : Nat}
    (ends : (resolver.within depth).follow remaining seen reference ≠ .error (.tooDeep depth)) :
    ∀ more, remaining ≤ more →
      (resolver.within depth').follow more seen reference =
        (resolver.within depth).follow remaining seen reference := by
  fun_induction (resolver.within depth).follow remaining seen reference with
  | case7 remaining seen written place mode again => exact fun more _ => follow_of_mem again
  | case8 => exact absurd rfl ends
  | case9 seen written place mode fresh remaining bound stepped inductionHypothesis =>
      intro more enough
      obtain ⟨further, rfl⟩ := Nat.exists_eq_add_one_of_ne_zero (by omega : more ≠ 0)
      have own : (written.getD (resolver.within depth').mode, place) ∉ seen := fresh
      have leads : (resolver.within depth').step mode place = .ok bound := by
        rwa [step_within] at stepped ⊢
      rw [follow_succ own]
      exact (congrArg (Except.bind · _) leads).trans
        (inductionHypothesis ends further (Nat.le_of_succ_le_succ enough))
  | case10 seen written place mode fresh remaining error failed =>
      intro more enough
      obtain ⟨further, rfl⟩ := Nat.exists_eq_add_one_of_ne_zero (by omega : more ≠ 0)
      have own : (written.getD (resolver.within depth').mode, place) ∉ seen := fresh
      have fails : (resolver.within depth').step mode place = .error error := by
        rwa [step_within] at failed ⊢
      rw [follow_succ own]
      exact congrArg (Except.bind · _) fails
  | _ => simp_all [follow]

/-! ## Targets -/

/-- What a reference leads to, however many bindings are passed on the way. -/
inductive Leads (resolver : Resolver) : Reference → Target → Prop where
  | token {path canonical : Token.Path}
      (held : resolver.index.canonicalize? path = some canonical) :
      Leads resolver (.token path) (.token canonical)
  | ramp {name : String} {ramp : Ramp} (held : resolver.index.ramp? name = some ramp) :
      Leads resolver (.ramp name) (.ramp ramp.name)
  | site {written : Option Mode} {place : Site} {bound : Reference} {target : Target}
      (stepped : resolver.step (written.getD resolver.mode) place = .ok bound)
      (leads : Leads resolver bound target) : Leads resolver (.site written place) target

variable {target : Target}

/-- What is found is what the reference leads to. -/
theorem leads_of_follow (found : resolver.follow remaining seen reference = .ok target) :
    resolver.Leads reference target := by
  fun_induction resolver.follow remaining seen reference with
  | case1 remaining seen path canonical held =>
      cases found
      exact .token held
  | case3 remaining seen name ramp held =>
      cases found
      exact .ramp held
  | case9 seen written place mode fresh remaining bound stepped inductionHypothesis =>
      exact .site stepped (inductionHypothesis found)
  | _ => cases found

/-- What a reference leads to is found unless the chain is too long or comes around. -/
theorem follow_of_leads (leads : resolver.Leads reference target) :
    resolver.follow remaining seen reference = .ok target ∨
      (∃ limit, resolver.follow remaining seen reference = .error (.tooDeep limit)) ∨
      ∃ mode place, resolver.follow remaining seen reference = .error (.cycle mode place) := by
  induction leads generalizing remaining seen with
  | token held => exact .inl (by simp [follow, held])
  | ramp held => exact .inl (by simp [follow, held])
  | @site written place bound target stepped leads inductionHypothesis =>
      by_cases again : (written.getD resolver.mode, place) ∈ seen
      · exact .inr (.inr ⟨_, _, follow_of_mem again⟩)
      · cases remaining with
        | zero => exact .inr (.inl ⟨resolver.maxDepth, by simp [follow, again]⟩)
        | succ remaining =>
            rw [follow_succ again, stepped]
            exact inductionHypothesis

/-- A reference that leads somewhere comes to no place that leads back to itself. -/
theorem Leads.not_loops (leads : resolver.Leads reference target) {there : Mode × Site}
    (points : resolver.PointsAt reference here) (reaches : ReflTransGen resolver.Hops here there) :
    ¬TransGen resolver.Hops there there := by
  induction leads generalizing here with
  | token held => exact absurd points fun ⟨_, same, _⟩ => by cases same
  | ramp held => exact absurd points fun ⟨_, same, _⟩ => by cases same
  | @site written place bound target stepped leads inductionHypothesis =>
      obtain ⟨own, same, mode⟩ := points
      obtain ⟨rfl, rfl⟩ : written = own ∧ place = here.2 := by simpa using same
      rw [mode] at stepped
      rcases reaches.cases_head with rfl | ⟨next, hops, reaches⟩
      · intro loop
        obtain ⟨next, hops, back⟩ := TransGen.head'_iff.1 loop
        exact inductionHypothesis ((hops_iff_pointsAt stepped).1 hops) back loop
      · exact inductionHypothesis ((hops_iff_pointsAt stepped).1 hops) reaches

/-- What a reference leads to is held by the index of the document. -/
theorem isHeld_of_follow {tokens : Document} (own : resolver.index = .ofDocument tokens)
    (found : resolver.follow remaining seen reference = .ok target) :
    target.IsHeld resolver.index := by
  fun_induction resolver.follow remaining seen reference with
  | case1 remaining seen path canonical held =>
      cases found
      exact Token.Index.exists_of_canonicalize? held
  | case3 remaining seen name ramp held =>
      cases found
      rw [own] at held ⊢
      obtain ⟨declared, same⟩ := Token.Index.ramp?_ofDocument held
      refine ⟨ramp, ?_, rfl⟩
      rw [Token.Index.getElem?_ramps_ofDocument, if_pos declared, ← same]
  | case9 _ _ _ _ _ _ _ _ inductionHypothesis => exact inductionHypothesis found
  | _ => cases found

/-- What the index holds leads to itself. -/
theorem follow_reference (held : target.IsHeld resolver.index) :
    resolver.follow remaining seen target.reference = .ok target := by
  cases target with
  | token path =>
      obtain ⟨value, found⟩ := held
      simp [Target.reference, follow, Token.Index.canonicalize?_of_held found]
  | ramp name =>
      obtain ⟨ramp, found, rfl⟩ := held
      have own : resolver.index.ramp? ramp.name = some ramp := by
        rw [Token.Index.ramp?, found]
        rfl
      simp [Target.reference, follow, own]

/-! ## Outcomes -/

/-- The resolver of a token document and a theme. -/
def ofDocuments (tokens theme : Document) (mode : Mode) (depth : Nat) : Resolver :=
  ⟨.ofDocument tokens, theme, mode, depth⟩

/-- How many places of a theme a chain can pass before it comes to one again. -/
def hopLimit (theme : Document) : Nat := (placesOf theme).length

variable {tokens theme : Document} {mode : Mode}

/-- Before anything is passed there is nothing to lead on. -/
theorem passed_nil (resolver : Resolver) (reference : Reference) :
    resolver.Passed [] reference := fun _ listed => absurd listed List.not_mem_nil

/-- What a reference leads to, or why it leads nowhere, stays when more bindings may be
passed. -/
theorem resolve_of_le {depth more : Nat} (enough : depth ≤ more)
    (ends : (ofDocuments tokens theme mode depth).resolve reference ≠ .error (.tooDeep depth)) :
    (ofDocuments tokens theme mode more).resolve reference =
      (ofDocuments tokens theme mode depth).resolve reference :=
  follow_of_le (ofDocuments tokens theme mode depth) ends more enough

/-- A cycle is found with any number of bindings that suffices to come around. -/
theorem cycle_or_tooDeep {depth : Nat} {place : Site} {placeMode : Mode}
    (cycle : (ofDocuments tokens theme mode depth).resolve reference =
      .error (.cycle placeMode place)) (other : Nat) :
    (ofDocuments tokens theme mode other).resolve reference = .error (.cycle placeMode place) ∨
      (ofDocuments tokens theme mode other).resolve reference = .error (.tooDeep other) := by
  by_cases deep : (ofDocuments tokens theme mode other).resolve reference =
      .error (.tooDeep other)
  · exact .inr deep
  · refine .inl ?_
    have ends : (ofDocuments tokens theme mode depth).resolve reference ≠
        .error (.tooDeep depth) := by
      rw [cycle]
      rintro ⟨⟩
    rcases Nat.le_total depth other with less | less
    · exact (resolve_of_le less ends).trans cycle
    · exact (resolve_of_le less deep).symm.trans cycle

/-- No chain is too long for one binding more than the theme has places. -/
theorem resolve_ne_tooDeep {depth : Nat} (enough : hopLimit theme < depth) (limit : Nat) :
    (ofDocuments tokens theme mode depth).resolve reference ≠ .error (.tooDeep limit) := by
  intro deep
  have short := length_le_of_tooDeep List.nodup_nil (passed_nil _ _) deep
  rw [List.length_nil, Nat.zero_add] at short
  exact absurd enough (Nat.not_lt.2 short)

/-- With so many bindings everything is found that the reference leads to. -/
theorem resolve_eq_ok_iff {depth : Nat} {target : Target} (enough : hopLimit theme < depth) :
    (ofDocuments tokens theme mode depth).resolve reference = .ok target ↔
      (ofDocuments tokens theme mode depth).Leads reference target := by
  refine ⟨leads_of_follow, fun leads => ?_⟩
  rcases follow_of_leads leads with found | ⟨limit, deep⟩ | ⟨placeMode, place, cycle⟩
  · exact found
  · exact absurd deep (resolve_ne_tooDeep enough limit)
  · obtain ⟨start, points, reaches, loops⟩ := loops_of_cycle (passed_nil _ _) cycle
    exact absurd loops (leads.not_loops points reaches)

/-- What a reference leads to does not change when more bindings may be passed, and no chain
is too long for one binding more than the theme has places: with so many, everything is found
that the reference leads to. A cycle is a place that the reference leads to and that leads
back to itself, so with any other number of bindings it is found or the chain is too long;
and places that lead on are told from all others by their texts. What is reached is a token
of the index or a ramp of it under its own name, and leads to itself. -/
theorem resolve_settles (tokens theme : Document) (mode : Mode) (reference : Reference) :
    (∀ depth more, depth ≤ more →
      (ofDocuments tokens theme mode depth).resolve reference ≠ .error (.tooDeep depth) →
      (ofDocuments tokens theme mode more).resolve reference =
        (ofDocuments tokens theme mode depth).resolve reference) ∧
    (∀ depth limit, hopLimit theme < depth →
      (ofDocuments tokens theme mode depth).resolve reference ≠ .error (.tooDeep limit)) ∧
    (∀ depth target, hopLimit theme < depth →
      ((ofDocuments tokens theme mode depth).resolve reference = .ok target ↔
        (ofDocuments tokens theme mode depth).Leads reference target)) ∧
    (∀ depth placeMode place,
      (ofDocuments tokens theme mode depth).resolve reference =
        .error (.cycle placeMode place) →
      (∃ start, (ofDocuments tokens theme mode depth).PointsAt reference start ∧
        ReflTransGen (ofDocuments tokens theme mode depth).Hops start (placeMode, place)) ∧
      TransGen (ofDocuments tokens theme mode depth).Hops (placeMode, place)
        (placeMode, place) ∧
      ∀ other,
        (ofDocuments tokens theme mode other).resolve reference =
          .error (.cycle placeMode place) ∨
        (ofDocuments tokens theme mode other).resolve reference = .error (.tooDeep other)) ∧
    (∀ depth here next, (ofDocuments tokens theme mode depth).Hops here next →
      ∀ other, (Reference.site (some other.1) other.2).text =
        (Reference.site (some here.1) here.2).text → other = here) ∧
    ∀ depth target, (ofDocuments tokens theme mode depth).resolve reference = .ok target →
      target.IsHeld (.ofDocument tokens) ∧
      ∀ other, (ofDocuments tokens theme mode other).resolve target.reference = .ok target := by
  refine ⟨fun depth more enough => resolve_of_le enough,
    fun depth limit enough => resolve_ne_tooDeep enough limit,
    fun depth target enough => resolve_eq_ok_iff enough, ?_,
    fun depth here next hops other => hops.eq_of_text, ?_⟩
  · intro depth placeMode place cycle
    obtain ⟨start, points, leads, loops⟩ := loops_of_cycle (passed_nil _ _) cycle
    exact ⟨⟨start, points, leads⟩, loops, cycle_or_tooDeep cycle⟩
  · intro depth target found
    have held := isHeld_of_follow rfl found
    exact ⟨held, fun other => follow_reference held⟩

end Resolver

namespace Sample

/-- A ramp of one color that has an alias. -/
def neutral : Document :=
  ⟨"tokens", .object [("color", .object [("gray", .object
    [("$alias", .text "neutral"), ("500", .object [("$value", .text "#767676")])])])]⟩

/-- Black is bound to a color, white to black, and two core colors to each other. -/
def looping : Document :=
  ⟨"theme", .object [("themes", .object [("light", .object [("core-colors", .object
    [("black", .object [("$value", .text "\x7btokens.color.neutral.500\x7d")]),
      ("white", .object [("$value", .text "\x7bbrand.core-colors.black\x7d")]),
      ("alert", .object [("$value", .text "\x7bbrand.core-colors.warning\x7d")]),
      ("warning", .object [("$value", .text "\x7bbrand.core-colors.alert\x7d")])])])])]⟩

end Sample

namespace Resolver

/-- White needs two bindings and then leads to the token under its own name; alert comes back
to itself and never leads anywhere. -/
theorem resolve_settles_looping :
    (∀ depth, 2 ≤ depth →
      (ofDocuments Sample.neutral Sample.looping .light depth).resolve
        (.site none (.core .white none)) = .ok (.token (.color "gray" ⟨500⟩))) ∧
    (ofDocuments Sample.neutral Sample.looping .light 37).Leads
      (.site none (.core .white none)) (.token (.color "gray" ⟨500⟩)) ∧
    (∀ depth, (ofDocuments Sample.neutral Sample.looping .light depth).resolve
      (.token (.color "gray" ⟨500⟩)) = .ok (.token (.color "gray" ⟨500⟩))) ∧
    (ofDocuments Sample.neutral Sample.looping .light 1).resolve
      (.site none (.core .white none)) = .error (.tooDeep 1) ∧
    (∀ depth, 36 < depth →
      (ofDocuments Sample.neutral Sample.looping .light depth).resolve
        (.site none (.core .alert none)) = .error (.cycle .light (.core .alert none))) ∧
    TransGen (ofDocuments Sample.neutral Sample.looping .light 2).Hops
      (.light, .core .alert none) (.light, .core .alert none) := by
  obtain ⟨stays, -, finds, -, -, held⟩ :=
    resolve_settles Sample.neutral Sample.looping .light (.site none (.core .white none))
  obtain ⟨-, bounded, -, cycles, -⟩ :=
    resolve_settles Sample.neutral Sample.looping .light (.site none (.core .alert none))
  have reached : (ofDocuments Sample.neutral Sample.looping .light 2).resolve
      (.site none (.core .white none)) = .ok (.token (.color "gray" ⟨500⟩)) := by
    decide +kernel
  have around : (ofDocuments Sample.neutral Sample.looping .light 2).resolve
      (.site none (.core .alert none)) = .error (.cycle .light (.core .alert none)) := by
    decide +kernel
  have limit : hopLimit Sample.looping = 36 := by decide +kernel
  have settled (depth : Nat) (enough : 2 ≤ depth) :
      (ofDocuments Sample.neutral Sample.looping .light depth).resolve
        (.site none (.core .white none)) = .ok (.token (.color "gray" ⟨500⟩)) := by
    rw [stays 2 depth enough (by rw [reached]; rintro ⟨⟩), reached]
  obtain ⟨-, loops, others⟩ := cycles 2 _ _ around
  refine ⟨settled, (finds 37 _ (by omega)).1 (settled 37 (by decide)), (held 2 _ reached).2,
    by decide +kernel, fun depth enough => ?_, loops⟩
  rcases others depth with found | deep
  · exact found
  · exact absurd deep (bounded depth depth (by omega))

end Resolver

end Legible
