import Legible.Proofs.Theme.Binding
import Legible.Proofs.Theme.Shown
import Legible.Proofs.Token.Edit
import Legible.Proofs.Watch.Run

/-!
# Names of tokens

The name of a token's property joins the parts of its address by dashes, and the parts may
hold dashes themselves. So one name may stand for two tokens, if the category of one goes on
where that of the other ends. In all other cases a token has its name for itself: the index
gives the token back for it, and the map publishes the token's literal under it.
-/

namespace Legible

open Property

/-! ## Texts joined by a dash -/

/-- Two texts that are joined by a dash are taken apart in one way, up to where the dash
is. -/
theorem Text.joined_eq_iff {first first' second second' : String} :
    first ++ "-" ++ second = first' ++ "-" ++ second' ↔
      (first = first' ∧ second = second') ∨
        (∃ more, first' = first ++ "-" ++ more ∧ second = more ++ "-" ++ second') ∨
          ∃ more, first = first' ++ "-" ++ more ∧ second' = more ++ "-" ++ second := by
  have longer {first first' second second' : String} {more : List Char}
      (front : first'.toList = first.toList ++ more)
      (back : '-' :: second.toList = more ++ '-' :: second'.toList) :
      (first = first' ∧ second = second') ∨
        ∃ more, first' = first ++ "-" ++ more ∧ second = more ++ "-" ++ second' := by
    cases more with
    | nil =>
        refine .inl ⟨String.toList_inj.1 ?_, String.toList_inj.1 ?_⟩
        · rw [front, List.append_nil]
        · exact (List.cons.inj back).2
    | cons dash more =>
        obtain ⟨rfl, rest⟩ := List.cons.inj back
        refine .inr ⟨String.ofList more, String.toList_inj.1 ?_, String.toList_inj.1 ?_⟩
        · simpa [String.toList_append] using front
        · simpa [String.toList_append] using rest
  constructor
  · intro same
    have characters := congrArg String.toList same
    simp only [String.toList_append, List.append_assoc] at characters
    rcases List.append_eq_append_iff.1 characters with ⟨more, front, back⟩ | ⟨more, front, back⟩
    · exact (longer front back).imp_right .inl
    · rcases longer front back with ⟨rfl, rfl⟩ | further
      · exact .inl ⟨rfl, rfl⟩
      · exact .inr (.inr further)
  · rintro (⟨rfl, rfl⟩ | ⟨more, rfl, rfl⟩ | ⟨more, rfl, rfl⟩)
    · rfl
    · simp only [String.append_assoc]
    · simp only [String.append_assoc]

namespace Token.Path

/-! ## Addresses with one name -/

/-- What the name of a token's property says after the category. -/
def rest (path : Path) : String := path.key ++ Name.dashed (path.level.map Level.text).toList

/-- Whether the category of another token is this one's, a dash and more, and the rest of
this one's address begins with that much more. -/
def RunsInto (path other : Path) : Prop :=
  ∃ more, other.category = path.category ++ "-" ++ more ∧ path.rest = more ++ "-" ++ other.rest

theorem text_ofToken (path : Path) :
    (Name.ofToken path).text = "--tokens" ++ "-" ++ (path.category ++ "-" ++ path.rest) := by
  rw [Name.ofToken, segments, List.cons_append, List.cons_append, List.nil_append,
    Name.append_dashed_cons, Name.append_dashed_cons]
  rfl

/-- Two addresses of one category have one rest only if they are the same, if both have
levels or neither has. -/
theorem eq_of_rest {path other : Path} (category : path.category = other.category)
    (leveled : path.level.isSome = other.level.isSome) (same : path.rest = other.rest) :
    path = other := by
  obtain ⟨category, key, level⟩ := path
  obtain ⟨category', key', level'⟩ := other
  dsimp only at category
  subst category
  have unleveled (key : String) : key ++ Name.dashed [] = key := by
    simp [Name.dashed, String.join]
  have withLevel (key : String) (level : Level) :
      key ++ Name.dashed [level.text] = key ++ "-" ++ level.text := by
    rw [Name.append_dashed_cons, unleveled]
  cases level with
  | none =>
      cases level' with
      | none =>
          simp only [rest, Option.map_none, Option.toList_none, unleveled] at same
          rw [same]
      | some level' => cases leveled
  | some level =>
      cases level' with
      | none => cases leveled
      | some level' =>
          simp only [rest, Option.map_some, Option.toList_some, withLevel] at same
          have noDash {level level' : Level} {more : String}
              (split : level.text = more ++ "-" ++ level'.text) : False := by
            refine level.not_mem_text ?_
            rw [split]
            simp [String.toList_append]
          rcases Text.joined_eq_iff.1 same with
            ⟨rfl, texts⟩ | ⟨more, -, split⟩ | ⟨more, -, split⟩
          · rw [Level.text_injective texts]
          · exact (noDash split).elim
          · exact (noDash split).elim

theorem ofToken_eq_iff {path other : Path} :
    Name.ofToken path = Name.ofToken other ↔
      (path.category = other.category ∧ path.rest = other.rest) ∨ path.RunsInto other ∨
        other.RunsInto path := by
  refine Iff.trans ?_ Text.joined_eq_iff
  constructor
  · intro same
    have texts := congrArg Name.text same
    rwa [text_ofToken, text_ofToken, String.append_right_inj] at texts
  · intro joined
    have texts : (Name.ofToken path).text = (Name.ofToken other).text := by
      rw [text_ofToken, text_ofToken, joined]
    exact congrArg Name.mk texts

end Token.Path

namespace Token

variable {document : Document}

/-- A token has a level exactly if it is a color. -/
theorem Gives.isSome_level {path : Path} {value : Value} (gives : Gives document path value) :
    path.level.isSome = path.isColor := by
  cases gives with
  | shade => rfl
  | leaf other => exact (beq_false_of_ne other).symm

/-- Two tokens of a document share a name exactly if they are the same, or the address of
one runs into that of the other. -/
theorem ofToken_eq_iff_of_held {path other : Path} {value value' : Value}
    (held : (Index.ofDocument document).values[path]? = some value)
    (held' : (Index.ofDocument document).values[other]? = some value') :
    Name.ofToken path = Name.ofToken other ↔
      path = other ∨ path.RunsInto other ∨ other.RunsInto path := by
  refine Path.ofToken_eq_iff.trans (or_congr_left ⟨?_, ?_⟩)
  · rintro ⟨category, rest⟩
    refine Path.eq_of_rest category ?_ rest
    rw [(gives_of_held held).isSome_level, (gives_of_held held').isSome_level, Path.isColor,
      Path.isColor, category]
  · rintro rfl
    exact ⟨rfl, rfl⟩

/-- The index gives a token back for a name that it has for itself. -/
theorem pathOf?_ofToken_of_alone {path : Path} {value : Value}
    (held : (Index.ofDocument document).values[path]? = some value)
    (alone : ∀ other value', (Index.ofDocument document).values[other]? = some value' →
      Name.ofToken other = Name.ofToken path → other = path) :
    (Index.ofDocument document).pathOf? (Name.ofToken path) = some path := by
  obtain ⟨published, found⟩ := Index.pathOf?_ofToken held
  obtain ⟨named, value', held'⟩ := Index.exists_of_pathOf? found
  rw [found, alone published value' held' named.symm]

end Token

namespace Configuration

variable {configuration : Configuration}

/-- A token that has its name for itself is bound under it. -/
theorem binding?_ofToken_of_alone {path : Token.Path} {value : Token.Value}
    (held : configuration.index.values[path]? = some value)
    (alone : ∀ other value', configuration.index.values[other]? = some value' →
      Name.ofToken other = Name.ofToken path → other = path) :
    configuration.compute.map.binding? (Name.ofToken path) = some (.token path) := by
  have added : (Name.ofToken path,
      ({ value := .literal value.literal, binding := some (.token path) } : Entry)) ∈
        configuration.entries :=
    List.mem_append_left _ (List.mem_append_left _ (List.mem_map.2
      ⟨(path, value), (Token.Index.mem_tokens _ path value).2 held, rfl⟩))
  obtain ⟨binding, bound⟩ := PropertyMap.exists_binding?_of_mem added rfl
  rw [← compute_map] at bound
  have binds := binds_of_binding? bound
  obtain ⟨own, rfl, named⟩ := binds.of_token
  obtain ⟨value', held'⟩ : ∃ value', configuration.index.values[own]? = some value' := by
    generalize Name.ofToken path = name at binds
    cases binds with
    | token held' => exact ⟨_, held'⟩
  rw [bound, alone own value' held' named]

/-- Two tokens share a name exactly if the address of one runs into that of the other. A token
with which that is so for no other one is given back by the index for its name, and the map
publishes its literal under the name and binds it there. -/
theorem publishes_of_held {path : Token.Path} {value : Token.Value}
    (held : configuration.index.values[path]? = some value) :
    (∀ other value', configuration.index.values[other]? = some value' →
      (Name.ofToken path = Name.ofToken other ↔
        path = other ∨ path.RunsInto other ∨ other.RunsInto path)) ∧
      ((∀ other value', configuration.index.values[other]? = some value' → path ≠ other →
          ¬path.RunsInto other ∧ ¬other.RunsInto path) →
        configuration.index.pathOf? (Name.ofToken path) = some path ∧
          configuration.compute.map.value? (Name.ofToken path) =
            some (.literal value.literal) ∧
          configuration.compute.map.binding? (Name.ofToken path) = some (.token path)) := by
  have shared (other : Token.Path) (value' : Token.Value)
      (held' : configuration.index.values[other]? = some value') :
      Name.ofToken path = Name.ofToken other ↔
        path = other ∨ path.RunsInto other ∨ other.RunsInto path := by
    rw [configuration.index_eq] at held held'
    exact Token.ofToken_eq_iff_of_held held held'
  refine ⟨shared, fun apart => ?_⟩
  have alone : ∀ other value', configuration.index.values[other]? = some value' →
      Name.ofToken other = Name.ofToken path → other = path := by
    intro other value' held' same
    by_contra different
    obtain ⟨unlike, unlike'⟩ := apart other value' held' (Ne.symm different)
    rcases (shared other value' held').1 same.symm with equal | runs | runs
    · exact different equal.symm
    · exact unlike runs
    · exact unlike' runs
  refine ⟨?_, value?_ofToken_of_alone held alone, binding?_ofToken_of_alone held alone⟩
  rw [configuration.index_eq] at held alone ⊢
  exact Token.pathOf?_ofToken_of_alone held alone

end Configuration

/-- A gray in a ramp, and a white in a category whose name goes on to that ramp. -/
def Sample.overlapping (level : String) : Configuration :=
  .ofDocuments
    (tokens [("500", "#767676")] [("color-gray", .object [(level, leaf (.text "#ffffff"))])])
    (.empty "theme") (.empty "ui-kit") {}

namespace Configuration

/-- Where the white stands at another level, the gray has its name for itself. -/
theorem publishes_of_held_gray :
    ∃ (configuration : Configuration) (path : Token.Path) (value : Token.Value),
      configuration.index.values[path]? = some value ∧
      (∃ entry ∈ configuration.index.tokens, path ≠ entry.1) ∧
      configuration.index.pathOf? (Name.ofToken path) = some path ∧
      configuration.compute.map.value? (Name.ofToken path) = some (.literal value.literal) ∧
      configuration.compute.map.binding? (Name.ofToken path) = some (.token path) := by
  have facts : (fun (configuration : Configuration) (path : Token.Path) =>
      (configuration.index.values[path]?).isSome = true ∧
        (∃ entry ∈ configuration.index.tokens, path ≠ entry.1) ∧
        ∀ entry ∈ configuration.index.tokens, path ≠ entry.1 →
          Name.ofToken path ≠ Name.ofToken entry.1)
      (Sample.overlapping "900") (.color "gray" ⟨500⟩) := by
    decide +kernel
  generalize Sample.overlapping "900" = configuration at facts
  generalize Token.Path.color "gray" ⟨500⟩ = path at facts
  obtain ⟨present, further, distinct⟩ := facts
  obtain ⟨value, held⟩ := Option.isSome_iff_exists.1 present
  obtain ⟨shared, publishes⟩ := publishes_of_held held
  refine ⟨configuration, path, value, held, further, publishes fun other value' held' unlike => ?_⟩
  have named := distinct (other, value') ((Token.Index.mem_tokens _ _ _).2 held') unlike
  exact ⟨fun runs => named ((shared other value' held').2 (.inr (.inl runs))),
    fun runs => named ((shared other value' held').2 (.inr (.inr runs)))⟩

/-- Where the white stands at the level of the gray, both have one name. The index gives the
white back for it, and the map publishes the white alone. -/
theorem shared_of_overlapping :
    ∃ (configuration : Configuration) (path other : Token.Path) (value value' : Token.Value),
      configuration.index.values[path]? = some value ∧
      configuration.index.values[other]? = some value' ∧ path ≠ other ∧
      Name.ofToken path = Name.ofToken other ∧
      configuration.index.pathOf? (Name.ofToken path) ≠ some path ∧
      configuration.compute.map.value? (Name.ofToken path) ≠ some (.literal value.literal) := by
  have facts : (fun (configuration : Configuration) (path other : Token.Path) =>
      (configuration.index.values[other]?).isSome = true ∧ path ≠ other ∧
        Name.ofToken path = Name.ofToken other ∧
        configuration.index.pathOf? (Name.ofToken path) ≠ some path ∧
        (configuration.index.values[path]?.map Token.Value.literal).any
          (fun literal => configuration.compute.map.value? (Name.ofToken path) ≠
            some (.literal literal)) = true)
      (Sample.overlapping "500") (.color "gray" ⟨500⟩) (.plain "color-gray" "500") := by
    decide +kernel
  generalize Sample.overlapping "500" = configuration at facts
  generalize Token.Path.color "gray" ⟨500⟩ = path at facts
  generalize Token.Path.plain "color-gray" "500" = other at facts
  obtain ⟨present, different, same, unlisted, unpublished⟩ := facts
  obtain ⟨value', held'⟩ := Option.isSome_iff_exists.1 present
  obtain ⟨literal, found, other⟩ := (Option.any_eq_true _ _).1 unpublished
  obtain ⟨value, held, rfl⟩ := Option.map_eq_some_iff.1 found
  exact ⟨configuration, path, _, value, value', held, held', different, same, unlisted,
    of_decide_eq_true other⟩

end Configuration

end Legible
