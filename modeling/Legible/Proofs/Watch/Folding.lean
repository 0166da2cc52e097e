import Legible.Proofs.Theme.Binding
import Legible.Proofs.Token.Overruled
import Legible.Proofs.Watch.Plan

/-!
# Folding live changes back

A live text that spells a value of a token's kind is set in the token document, and a
live reference to a token is set in the theme. Each fold leaves what the index holds for
other tokens, and every other place of the theme. What becomes of one token, or of one
place, is therefore decided by the one live change that is bound to it.
-/

namespace Legible

open Property

namespace Token

/-! ## Values that live texts spell -/

namespace Value

/-- The value of the same kind that a text spells. -/
def spelled? (held : Value) (text : String) : Option Value :=
  match held with
  | .color _ => (Color.read? text).map .color
  | .dimension _ => (pixels? text).map .dimension
  | .number _ => (Numeric.Decimal.read? text.toList).map .number
  | .text _ => some (.text text)

/-- The document value of a token. -/
def json : Value → Json
  | .color held => .text held.hex
  | .dimension amount | .number amount => .ofFloat amount
  | .text held => .text held

/-- Whether the documents of a category can hold a value: a number is finite there, and
an opacity is a share of one. -/
def fits (category : String) : Value → Bool
  | .dimension amount | .number amount =>
      amount.isFinite && (category != "opacity" || isShare amount)
  | .color _ | .text _ => true

variable {held value : Value} {text category : String}

/-- What is folded back for a live text is the value that it spells. -/
theorem adoptedValue?_eq (held : Value) (text : String) :
    Watcher.adoptedValue? held text = (held.spelled? text).map json := by
  cases held <;> simp [Watcher.adoptedValue?, spelled?, json, Function.comp_def]

/-- A color spells a color, and nothing else does. -/
theorem isSome_color?_of_spelled? (spelled : held.spelled? text = some value) :
    value.color?.isSome = held.color?.isSome := by
  cases held with
  | color =>
      obtain ⟨color, -, rfl⟩ := Option.map_eq_some_iff.1 spelled
      rfl
  | dimension =>
      obtain ⟨amount, -, rfl⟩ := Option.map_eq_some_iff.1 spelled
      rfl
  | number =>
      obtain ⟨amount, -, rfl⟩ := Option.map_eq_some_iff.1 spelled
      rfl
  | text =>
      cases spelled
      rfl

theorem uniqueKeys_json (value : Value) : value.json.UniqueKeys := by
  have number (amount : Float) : (Json.ofFloat amount).UniqueKeys := by
    rw [Json.ofFloat]
    split <;> trivial
  cases value with
  | color | text => trivial
  | dimension amount | number amount => exact number amount

/-- Whether a leaf of a category and type holds values of this kind. -/
def IsTyped (category : String) (kind : Option String) : Value → Prop
  | .dimension _ => isDimension category kind = true
  | .number _ => isDimension category kind = false
  | .color _ => isDimension category kind = false ∧ (kind == some "color") = true
  | .text _ => isDimension category kind = false ∧ (kind == some "color") = false

/-- The kind of what a leaf holds is the kind that its category and type ask for. -/
theorem isTyped_of_valueOfLeaf {kind : Option String} {json : Json}
    (taken : valueOfLeaf category kind json = .ok held) : held.IsTyped category kind := by
  cases json with
  | text own =>
      cases sized : isDimension category kind with
      | true =>
          simp only [valueOfLeaf, sized, if_pos] at taken
          split at taken <;> cases taken
          exact sized
      | false =>
          cases colored : kind == some "color" with
          | true =>
              simp only [valueOfLeaf, sized, colored, Bool.false_eq_true, if_false, if_true] at taken
              split at taken <;> cases taken
              exact ⟨sized, colored⟩
          | false =>
              simp only [valueOfLeaf, sized, colored, Bool.false_eq_true, if_false] at taken
              cases taken
              exact ⟨sized, colored⟩
  | number number =>
      simp only [valueOfLeaf] at taken
      split at taken
      · cases taken
      · split at taken
        · next sized =>
            cases taken
            exact sized
        · next plain =>
            cases taken
            exact Bool.eq_false_iff.2 plain
  | _ => cases taken

/-- What a text spells is typed as what was held. -/
theorem IsTyped.spelled {kind : Option String} (typed : held.IsTyped category kind)
    (spelled : held.spelled? text = some value) : value.IsTyped category kind := by
  cases held with
  | text =>
      cases spelled
      exact typed
  | _ =>
      obtain ⟨own, -, rfl⟩ := Option.map_eq_some_iff.1 spelled
      exact typed

/-- A leaf takes every value of its kind that fits. -/
theorem valueOfLeaf_json {kind : Option String} (typed : value.IsTyped category kind)
    (fits : value.fits category = true) : valueOfLeaf category kind value.json = .ok value := by
  have number {amount : Float}
      (fits : (amount.isFinite && (category != "opacity" || isShare amount)) = true) :
      Json.ofFloat amount = .number (.real amount) ∧
        (category == "opacity" && !isShare amount) = false := by
    rw [Bool.and_eq_true, Bool.or_eq_true, bne_iff_ne] at fits
    refine ⟨if_pos fits.1, ?_⟩
    rcases fits.2 with other | inside
    · simp [other]
    · simp [inside]
  cases value with
  | color color => simp [json, valueOfLeaf, typed.1, typed.2, Color.read?_hex]
  | text own => simp [json, valueOfLeaf, typed.1, typed.2]
  | dimension amount | number amount =>
      have sized := typed
      rw [IsTyped] at sized
      obtain ⟨written, inside⟩ := number fits
      simp [json, written, valueOfLeaf, inside, sized, Json.Number.toFloat]

end Value

/-! ## Setting what was spelled -/

section

variable {document : Document} {path : Path} {held value : Value} {text : String}

/-- The document in which the place of a token holds a value. -/
def fold (document : Document) (path : Path) (value : Value) : Document :=
  document.setLeaf (Watcher.tokenDocumentPath document path) value.json

/-- Folding what a text spells into the document sets the token, and the index holds the
value when it fits and no other place gives the token. -/
theorem isSet_fold (unique : document.root.UniqueKeys)
    (found : (Index.ofDocument document).values[path]? = some held)
    (spelled : held.spelled? text = some value) :
    IsSet document (fold document path value) path ∧
      (GivenOnce document path → value.fits path.category = true →
        (Index.ofDocument (fold document path value)).values[path]? = some value) := by
  cases gives_of_held found with
  | @shade ramp _ level _ declared listed own =>
      obtain ⟨color, -, rfl⟩ := Option.map_eq_some_iff.1 spelled
      refine ⟨isSet_setLevel unique trivial declared, fun once _ => ?_⟩
      have holds := @getElem?_values_setLevel document (.text color.hex) unique ramp level color
        declared (Color.read?_hex color) trivial
      rwa [overruling_of_givenOnce unique once] at holds
  | leaf other declared listed taken =>
      obtain ⟨first, among, same, -, place⟩ := exists_leaf? other listed
      rw [fold, place, ← same]
      refine ⟨isSet_setLeaf unique value.uniqueKeys_json declared other among,
        fun once fits => ?_⟩
      obtain rfl := once.leaf other first among _ listed rfl same.symm
      have holds := getElem?_values_setLeaf unique declared other among place
        (Value.valueOfLeaf_json ((Value.isTyped_of_valueOfLeaf taken).spelled spelled) fits)
        value.uniqueKeys_json
      rwa [overruling_of_givenOnce unique once] at holds

end

end Token

/-! ## Folds -/

/-- What folding one live change back makes of a configuration: a token is set to what
the live text spells, or a place of the theme to the token that the live text refers
to. -/
inductive Fold (store : Store) (bindings : PropertyMap) (before : Configuration) (name : Name) :
    Configuration → Prop where
  | token {path canonical : Token.Path} {held value : Token.Value} {text : String}
      (bound : bindings.binding? name = some (.token path))
      (leads : before.index.canonicalize? path = some canonical)
      (found : before.index.values[canonical]? = some held)
      (live : store.get? name = some text)
      (spelled : held.spelled? (Text.trim text) = some value) :
      Fold store bindings before name
        (before.withTokens (Token.fold before.tokens canonical value))
  | theme {path : List String} {target : Name} {token : Token.Path}
      (bound : bindings.binding? name = some (.theme path))
      (live : store.value? name = some (.reference target))
      (published : before.index.pathOf? target = some token) :
      Fold store bindings before name
        (before.withTheme (before.theme.setLeaf path (.text (Reference.token token).text)))

/-- The folds of a list of names, one after another. -/
inductive FoldAll (store : Store) (bindings : PropertyMap) :
    Configuration → List Name → Configuration → Prop where
  | nil {configuration : Configuration} : FoldAll store bindings configuration [] configuration
  | cons {before between after : Configuration} {name : Name} {rest : List Name}
      (first : Fold store bindings before name between)
      (others : FoldAll store bindings between rest after) :
      FoldAll store bindings before (name :: rest) after

namespace Watcher

/-- A live change that is reported as folded back is, and any other leaves the documents. -/
theorem adopt_cases (bindings : PropertyMap) (adoption : Adoption) (name : Name) :
    (Fold adoption.watcher.store bindings adoption.watcher.configuration name
          (adopt bindings adoption name).watcher.configuration ∧
        (adopt bindings adoption name).adopted = adoption.adopted ++ [name]) ∨
      ((adopt bindings adoption name).watcher.configuration = adoption.watcher.configuration ∧
        (adopt bindings adoption name).adopted = adoption.adopted) := by
  rw [adopt]
  dsimp only
  split
  · next path bound =>
      cases adopted : adoption.watcher.adoptToken? name path with
      | none => exact .inr ⟨rfl, rfl⟩
      | some changed =>
          unfold adoptToken? at adopted
          obtain ⟨text, live, rest⟩ := Option.bind_eq_some_iff.1 adopted
          obtain ⟨held, found, rest⟩ := Option.bind_eq_some_iff.1 rest
          obtain ⟨json, adoptable, final⟩ := Option.bind_eq_some_iff.1 rest
          cases final
          obtain ⟨canonical, leads, found⟩ := Option.bind_eq_some_iff.1 found
          rw [Token.Value.adoptedValue?_eq] at adoptable
          obtain ⟨value, spelled, rfl⟩ := Option.map_eq_some_iff.1 adoptable
          refine .inl ⟨?_, rfl⟩
          simp only [setToken, leads, Option.getD_some]
          exact Fold.token bound leads found live spelled
  · next path bound =>
      cases adopted : adoption.watcher.adoptTheme? name path with
      | none => exact .inr ⟨rfl, rfl⟩
      | some changed =>
          unfold adoptTheme? at adopted
          split at adopted
          · next target live =>
              split at adopted
              · obtain ⟨token, published, rfl⟩ := Option.map_eq_some_iff.1 adopted
                exact .inl ⟨.theme bound live published, rfl⟩
              · cases adopted
          · cases adopted
  · exact .inr ⟨rfl, rfl⟩
  · exact .inr ⟨rfl, rfl⟩

/-- What is reported as folded back is folded back, in the order of the live changes. -/
theorem foldAll_adoptAll (watcher : Watcher) (changed : List Name) :
    (adoptAll watcher changed).adopted.Sublist changed ∧
      FoldAll watcher.store watcher.current.map watcher.configuration
        (adoptAll watcher changed).adopted (adoptAll watcher changed).watcher.configuration := by
  have step (bindings : PropertyMap) (adoption : Adoption) : ∃ adopted,
      (changed.foldl (adopt bindings) adoption).adopted = adoption.adopted ++ adopted ∧
        adopted.Sublist changed ∧
        FoldAll adoption.watcher.store bindings adoption.watcher.configuration adopted
          (changed.foldl (adopt bindings) adoption).watcher.configuration := by
    induction changed generalizing adoption with
    | nil => exact ⟨[], (List.append_nil _).symm, .slnil, .nil⟩
    | cons name rest inductionHypothesis =>
        obtain ⟨adopted, listed, among, folds⟩ :=
          inductionHypothesis (adopt bindings adoption name)
        rw [(folds_adopt bindings adoption name).store] at folds
        rw [List.foldl_cons, listed]
        rcases adopt_cases bindings adoption name with ⟨first, own⟩ | ⟨same, own⟩
        · rw [own, List.append_assoc]
          exact ⟨name :: adopted, rfl, among.cons_cons name, .cons first folds⟩
        · rw [own]
          rw [same] at folds
          exact ⟨adopted, rfl, among.cons name, folds⟩
  obtain ⟨adopted, listed, among, folds⟩ := step watcher.current.map { watcher }
  have own : (adoptAll watcher changed).adopted = adopted := listed
  rw [own]
  exact ⟨among, folds⟩

end Watcher

/-! ## Places that stay places -/

/-- Whether the places that names are bound to are places of the documents: a token is
held under its own path, and a binding that is copied through is a leaf of the theme. No
object of the documents has a key twice. -/
structure KeepsPlaces (bindings : PropertyMap) (configuration : Configuration)
    (names : List Name) : Prop where
  tokens : configuration.tokens.root.UniqueKeys
  theme : configuration.theme.root.UniqueKeys
  held : ∀ name ∈ names, ∀ path canonical, bindings.binding? name = some (.token path) →
    configuration.index.canonicalize? path = some canonical → canonical = path
  copied : ∀ name ∈ names, ∀ path, bindings.binding? name = some (.theme path) →
    ∀ mode : Mode, ∀ subsystem ∈ Subsystem.copied,
      ["themes", mode.text, subsystem.text] <+: path →
        ∃ leaf ∈ configuration.theme.leaves ["themes", mode.text, subsystem.text],
          leaf.path = path

section

variable {store : Store} {bindings : PropertyMap} {before after : Configuration} {name : Name}
  {rest : List Name}

/-- The documents after a fold: the tokens with one of them set, or the theme with the text
of one place. -/
theorem Fold.documents (fold : Fold store bindings before name after)
    (places : KeepsPlaces bindings before (name :: rest)) :
    (∃ path held, bindings.binding? name = some (.token path) ∧
        before.index.values[path]? = some held ∧
        Token.IsSet before.tokens after.tokens path ∧ after.theme = before.theme) ∨
      ∃ path text, bindings.binding? name = some (.theme path) ∧
        after.tokens = before.tokens ∧ after.theme = before.theme.setLeaf path (.text text) := by
  cases fold with
  | @token path canonical held value text bound leads found live spelled =>
      obtain rfl := places.held name List.mem_cons_self path canonical bound leads
      have own := found
      rw [before.index_eq] at own
      exact .inl ⟨canonical, held, bound, found,
        (Token.isSet_fold places.tokens own spelled).1, rfl⟩
  | theme bound live published => exact .inr ⟨_, _, bound, rfl, rfl⟩

/-- The options stay. -/
theorem Fold.options (fold : Fold store bindings before name after) :
    after.options = before.options := by
  cases fold <;> rfl

/-- No token appears in a fold. -/
theorem Fold.exists_held (fold : Fold store bindings before name after)
    (places : KeepsPlaces bindings before (name :: rest)) {path : Token.Path} {value : Token.Value}
    (held : after.index.values[path]? = some value) :
    ∃ value, before.index.values[path]? = some value := by
  rw [after.index_eq] at held
  rcases fold.documents places with ⟨_, _, -, present, set, -⟩ | ⟨_, _, -, tokens, -⟩
  · rw [before.index_eq] at present ⊢
    exact set.exists_held present held
  · rw [tokens, ← before.index_eq] at held
    exact ⟨value, held⟩

/-- A token that the folded name is not bound to stays as it was, and stays the only one
of its place. -/
theorem Fold.of_other (fold : Fold store bindings before name after)
    (places : KeepsPlaces bindings before (name :: rest)) {path : Token.Path}
    (other : bindings.binding? name ≠ some (.token path)) :
    after.index.values[path]? = before.index.values[path]? ∧
      (Token.GivenOnce before.tokens path → Token.GivenOnce after.tokens path) := by
  rw [after.index_eq, before.index_eq]
  rcases fold.documents places with ⟨own, _, bound, -, set, -⟩ | ⟨_, _, -, tokens, -⟩
  · have different : path ≠ own := fun same => other (by rw [same]; exact bound)
    exact ⟨set.others path different, set.once path different⟩
  · rw [tokens]
    exact ⟨rfl, id⟩

/-- Setting the place of the first name resets it among the leaves that are copied
through. -/
theorem KeepsPlaces.leaves (places : KeepsPlaces bindings before (name :: rest))
    {path : List String} (bound : bindings.binding? name = some (.theme path)) (mode : Mode)
    {subsystem : Subsystem} (listed : subsystem ∈ Subsystem.copied) (value : Json) :
    (before.theme.setLeaf path value).leaves ["themes", mode.text, subsystem.text] =
      (before.theme.leaves ["themes", mode.text, subsystem.text]).map
        (Document.Leaf.reset path value) := by
  refine Document.leaves_setLeaf_of_kept _ places.theme ?_
    (places.copied name List.mem_cons_self path bound mode subsystem listed)
  revert listed
  cases mode <;> cases subsystem <;> decide

/-- The places of the names that are folded later stay places. -/
theorem Fold.keepsPlaces (fold : Fold store bindings before name after)
    (places : KeepsPlaces bindings before (name :: rest))
    (apart : ∀ other ∈ rest, ∀ path, bindings.binding? other = some (.token path) →
      bindings.binding? name ≠ some (.token path)) :
    KeepsPlaces bindings after rest where
  tokens := by
    rcases fold.documents places with ⟨_, _, -, -, set, -⟩ | ⟨_, _, -, tokens, -⟩
    · exact set.unique
    · rw [tokens]
      exact places.tokens
  theme := by
    rcases fold.documents places with ⟨_, _, -, -, -, theme⟩ | ⟨_, _, -, -, theme⟩
    · rw [theme]
      exact places.theme
    · rw [theme]
      exact places.theme.place trivial
  held other listed path canonical bound leads := by
    refine places.held other (List.mem_cons_of_mem _ listed) path canonical bound ?_
    rw [after.index_eq] at leads
    rw [before.index_eq]
    rcases fold.documents places with ⟨own, _, first, present, set, -⟩ | ⟨_, _, -, tokens, -⟩
    · rw [before.index_eq] at present
      refine set.canonicalize? present ?_ leads
      rintro rfl
      exact apart other listed path bound first
    · rwa [tokens] at leads
  copied other listed path bound mode subsystem copied below := by
    obtain ⟨leaf, own, stands⟩ := places.copied other (List.mem_cons_of_mem _ listed) path bound
      mode subsystem copied below
    rcases fold.documents places with ⟨_, _, -, -, -, theme⟩ | ⟨place, text, first, -, theme⟩
    · exact ⟨leaf, theme ▸ own, stands⟩
    · refine ⟨leaf.reset place (.text text), ?_, (leaf.path_reset _ _).trans stands⟩
      rw [theme, places.leaves first mode copied]
      exact List.mem_map_of_mem own

end

/-! ## What all folds leave -/

section

variable {store : Store} {origin before after : Configuration} {names : List Name}

/-- Two names are not bound to the same. -/
theorem name_eq_of_binding? {first second : Name} {binding : Binding}
    (bound : origin.compute.map.binding? first = some binding)
    (bound' : origin.compute.map.binding? second = some binding) : first = second :=
  (Configuration.binds_of_binding? bound).name_of_binding (Configuration.binds_of_binding? bound')

theorem Fold.keepsPlaces_rest {between : Configuration} {name : Name} {rest : List Name}
    (fold : Fold store origin.compute.map before name between) (distinct : (name :: rest).Nodup)
    (places : KeepsPlaces origin.compute.map before (name :: rest)) :
    KeepsPlaces origin.compute.map between rest :=
  fold.keepsPlaces places fun _ listed _ bound bound' =>
    (List.nodup_cons.1 distinct).1 (name_eq_of_binding? bound bound' ▸ listed)

theorem FoldAll.options (folds : FoldAll store origin.compute.map before names after) :
    after.options = before.options := by
  induction folds with
  | nil => rfl
  | cons first others inductionHypothesis => exact inductionHypothesis.trans first.options

theorem FoldAll.unique (folds : FoldAll store origin.compute.map before names after)
    (distinct : names.Nodup) (places : KeepsPlaces origin.compute.map before names) :
    after.theme.root.UniqueKeys := by
  induction folds with
  | nil => exact places.theme
  | cons first others inductionHypothesis =>
      exact inductionHypothesis distinct.of_cons (first.keepsPlaces_rest distinct places)

/-- No token appears. -/
theorem FoldAll.exists_held (folds : FoldAll store origin.compute.map before names after)
    (distinct : names.Nodup) (places : KeepsPlaces origin.compute.map before names)
    {path : Token.Path} {value : Token.Value} (held : after.index.values[path]? = some value) :
    ∃ value, before.index.values[path]? = some value := by
  induction folds with
  | nil => exact ⟨value, held⟩
  | cons first others inductionHypothesis =>
      obtain ⟨between, found⟩ :=
        inductionHypothesis distinct.of_cons (first.keepsPlaces_rest distinct places) held
      exact first.exists_held places found

/-- What is folded back is bound to a token that is held, or to a place of the theme. -/
theorem FoldAll.bound (folds : FoldAll store origin.compute.map before names after)
    (distinct : names.Nodup) (places : KeepsPlaces origin.compute.map before names)
    {name : Name} (member : name ∈ names) :
    (∃ path held, origin.compute.map.binding? name = some (.token path) ∧
        before.index.values[path]? = some held) ∨
      ∃ path, origin.compute.map.binding? name = some (.theme path) := by
  induction folds with
  | nil => cases member
  | @cons before between after head rest first others inductionHypothesis =>
      rcases List.mem_cons.1 member with rfl | later
      · rcases first.documents places with ⟨path, held, bound, found, -⟩ | ⟨path, _, bound, -⟩
        · exact .inl ⟨path, held, bound, found⟩
        · exact .inr ⟨path, bound⟩
      · rcases inductionHypothesis distinct.of_cons (first.keepsPlaces_rest distinct places) later
          with ⟨path, held, bound, found⟩ | theme
        · obtain ⟨earlier, found⟩ := first.exists_held places found
          exact .inl ⟨path, earlier, bound, found⟩
        · exact .inr theme

theorem FoldAll.exists_binding (folds : FoldAll store origin.compute.map before names after)
    (distinct : names.Nodup) (places : KeepsPlaces origin.compute.map before names)
    {name : Name} (member : name ∈ names) :
    ∃ binding, origin.compute.map.binding? name = some binding := by
  rcases folds.bound distinct places member with ⟨_, _, bound, -⟩ | ⟨_, bound⟩
  · exact ⟨_, bound⟩
  · exact ⟨_, bound⟩

/-- A token that none of the names is bound to stays as it was. -/
theorem FoldAll.of_others (folds : FoldAll store origin.compute.map before names after)
    (distinct : names.Nodup) (places : KeepsPlaces origin.compute.map before names)
    {path : Token.Path}
    (others : ∀ name ∈ names, origin.compute.map.binding? name ≠ some (.token path)) :
    after.index.values[path]? = before.index.values[path]? := by
  induction folds with
  | nil => rfl
  | cons first rest inductionHypothesis =>
      rw [inductionHypothesis distinct.of_cons (first.keepsPlaces_rest distinct places)
        fun name listed => others name (List.mem_cons_of_mem _ listed)]
      exact (first.of_other places (others _ List.mem_cons_self)).1

/-- A token that one of the names is bound to becomes what the live text of that name
spells, if that fits and no other place gives the token. -/
theorem FoldAll.token (folds : FoldAll store origin.compute.map before names after)
    (distinct : names.Nodup) (places : KeepsPlaces origin.compute.map before names)
    {name : Name} (member : name ∈ names) {path : Token.Path} {held : Token.Value}
    (bound : origin.compute.map.binding? name = some (.token path))
    (found : before.index.values[path]? = some held)
    (once : Token.GivenOnce before.tokens path) :
    ∃ text value, store.get? name = some text ∧ held.spelled? (Text.trim text) = some value ∧
      (value.fits path.category = true → after.index.values[path]? = some value) := by
  induction folds with
  | nil => cases member
  | @cons before between after head rest first others inductionHypothesis =>
      have later := first.keepsPlaces_rest distinct places
      by_cases same : head = name
      · subst same
        have untouched : ∀ other ∈ rest, origin.compute.map.binding? other ≠ some (.token path) :=
          fun other listed bound' =>
            (List.nodup_cons.1 distinct).1 (name_eq_of_binding? bound' bound ▸ listed)
        rw [others.of_others distinct.of_cons later untouched]
        cases first with
        | token bound' leads found' live spelled =>
            cases bound.symm.trans bound'
            obtain rfl := places.held head List.mem_cons_self path _ bound leads
            cases found.symm.trans found'
            refine ⟨_, _, live, spelled, fun fits => ?_⟩
            have own := found
            rw [before.index_eq] at own
            exact (Token.isSet_fold places.tokens own spelled).2 once fits
        | theme bound' => cases bound.symm.trans bound'
      · have other : origin.compute.map.binding? head ≠ some (.token path) := fun bound' =>
          same (name_eq_of_binding? bound' bound)
        obtain ⟨stays, onceAfter⟩ := first.of_other places other
        exact inductionHypothesis distinct.of_cons later
          ((List.mem_cons.1 member).resolve_left fun equal => same equal.symm)
          (stays.trans found) (onceAfter once)

/-- A place that none of the names is bound to holds what it held. -/
theorem FoldAll.leafText?_of_others (folds : FoldAll store origin.compute.map before names after)
    (distinct : names.Nodup) (places : KeepsPlaces origin.compute.map before names)
    {path : List String} (plain : "$value" ∉ path)
    (others : ∀ name ∈ names, origin.compute.map.binding? name ≠ some (.theme path)) :
    after.theme.leafText? path = before.theme.leafText? path := by
  induction folds with
  | nil => rfl
  | cons first rest inductionHypothesis =>
      rw [inductionHypothesis distinct.of_cons (first.keepsPlaces_rest distinct places)
        fun name listed => others name (List.mem_cons_of_mem _ listed)]
      rcases first.documents places with ⟨_, _, -, -, -, theme⟩ | ⟨own, _, bound, -, theme⟩
      · rw [theme]
      · rw [theme]
        refine Document.leafText?_setLeaf_of_ne ?_ plain
          (Configuration.binds_of_binding? bound).not_mem
        rintro rfl
        exact others _ List.mem_cons_self bound

/-- A place that one of the names is bound to refers to the token that is live. -/
theorem FoldAll.theme (folds : FoldAll store origin.compute.map before names after)
    (distinct : names.Nodup) (places : KeepsPlaces origin.compute.map before names)
    {name : Name} (member : name ∈ names) {path : List String}
    (bound : origin.compute.map.binding? name = some (.theme path)) :
    ∃ token held, store.value? name = some (.reference (Name.ofToken token)) ∧
      before.index.values[token]? = some held ∧
      after.theme.leafText? path = some (Reference.token token).text := by
  induction folds with
  | nil => cases member
  | @cons before between after head rest first others inductionHypothesis =>
      have later := first.keepsPlaces_rest distinct places
      by_cases same : head = name
      · subst same
        have untouched : ∀ other ∈ rest, origin.compute.map.binding? other ≠ some (.theme path) :=
          fun other listed bound' =>
            (List.nodup_cons.1 distinct).1 (name_eq_of_binding? bound' bound ▸ listed)
        rw [others.leafText?_of_others distinct.of_cons later
          (Configuration.binds_of_binding? bound).not_mem untouched]
        cases first with
        | token bound' => cases bound.symm.trans bound'
        | @theme _ target token bound' live published =>
            cases bound.symm.trans bound'
            rw [before.index_eq] at published
            obtain ⟨rfl, held, found⟩ := Token.Index.exists_of_pathOf? published
            rw [← before.index_eq] at found
            exact ⟨token, held, live, found, Document.leafText?_setLeaf _ _⟩
      · obtain ⟨token, held, live, found, holds⟩ := inductionHypothesis distinct.of_cons later
          ((List.mem_cons.1 member).resolve_left fun equal => same equal.symm)
        obtain ⟨earlier, found⟩ := first.exists_held places found
        exact ⟨token, earlier, live, found, holds⟩

/-- The places of the bindings that are copied through stay. -/
theorem FoldAll.leafPaths (folds : FoldAll store origin.compute.map before names after)
    (distinct : names.Nodup) (places : KeepsPlaces origin.compute.map before names) (mode : Mode)
    {subsystem : Subsystem} (listed : subsystem ∈ Subsystem.copied) :
    (after.theme.leaves ["themes", mode.text, subsystem.text]).map Document.Leaf.path =
      (before.theme.leaves ["themes", mode.text, subsystem.text]).map Document.Leaf.path := by
  induction folds with
  | nil => rfl
  | cons first rest inductionHypothesis =>
      rw [inductionHypothesis distinct.of_cons (first.keepsPlaces_rest distinct places)]
      rcases first.documents places with ⟨_, _, -, -, -, theme⟩ | ⟨_, _, bound, -, theme⟩
      · rw [theme]
      · rw [theme, places.leaves bound mode listed, List.map_map]
        exact List.map_congr_left fun leaf _ => leaf.path_reset _ _

end

end Legible
