import Legible.Proofs.Property.Name
import Legible.Proofs.Property.Text
import Legible.Reference.Basic

/-!
# References read back

A reference is written as its segments, and what is written is cut into the same
segments again, since none of them holds a dot, a brace or a blank. Levels, layer numbers
and modes read back as what they were. Reading the segments then gives the reference, but
for one form: the parts of a color key that are more than a ramp and a level are joined by
dashes, and the one segment that they become spells a ramp.
-/

namespace Legible

namespace Reference

/-! ## Segments -/

/-- Whether a text can stand between dots. -/
def isSegment (segment : String) : Bool :=
  !segment.toList.isEmpty && segment.toList.all Text.isNameCharacter

theorem isSegment_iff {segment : String} :
    isSegment segment = true ↔ segment.toList ≠ [] ∧
      ∀ character ∈ segment.toList, Text.isNameCharacter character = true := by
  simp [isSegment]

/-- Digits alone can stand between dots. -/
theorem isSegment_of_isDigit {segment : String} (present : segment.toList ≠ [])
    (digits : ∀ character ∈ segment.toList, character.isDigit = true) :
    isSegment segment = true :=
  isSegment_iff.2 ⟨present, fun character member =>
    Text.isNameCharacter_of_isDigit (digits character member)⟩

/-- What can stand between dots holds no dot. -/
theorem not_mem_of_isSegment {segment : String} (plain : isSegment segment = true) :
    '.' ∉ segment.toList := by
  intro dot
  exact absurd ((isSegment_iff.1 plain).2 '.' dot) (by decide)

/-- The pieces of a text are what its dots keep apart. -/
theorem pieces_eq_splitOn (characters : List Char) :
    pieces characters = characters.splitOn '.' := by
  induction characters with
  | nil => rfl
  | cons first rest inductionHypothesis =>
      rw [List.splitOn_cons_eq_if_modifyHead, ← inductionHypothesis, pieces, List.foldr_cons]
      by_cases dot : first = '.'
      · rw [if_pos dot, if_pos (beq_iff_eq.2 dot)]
        rfl
      · rw [if_neg dot, if_neg (by simpa using dot)]
        cases held : pieces rest with
        | nil => exact absurd (inductionHypothesis.symm.trans held) (List.splitOn_ne_nil _ _)
        | cons head tail =>
            rw [pieces] at held
            rw [held]
            rfl

/-- The segments between the braces of a text can stand there. -/
theorem isSegment_of_segmentsOf? {characters : List Char} {segments : List String}
    (read : segmentsOf? characters = some segments) :
    ∀ segment ∈ segments, isSegment segment = true := by
  unfold segmentsOf? at read
  split at read
  · split at read
    · dsimp only at read
      split at read
      · next plain =>
          cases read
          intro segment listed
          obtain ⟨piece, own, rfl⟩ := List.mem_map.1 listed
          rw [isSegment, String.toList_ofList]
          exact List.all_eq_true.1 plain piece own
      · cases read
    · cases read
  · cases read

/-- What is joined comes from a segment or stands between two. -/
theorem mem_toList_intercalate {separator : String} {segments : List String} {character : Char}
    (member : character ∈ (String.intercalate separator segments).toList) :
    character ∈ separator.toList ∨ ∃ segment ∈ segments, character ∈ segment.toList := by
  rw [String.toList_intercalate] at member
  induction segments with
  | nil => cases member
  | cons first rest inductionHypothesis =>
      cases rest with
      | nil =>
          rw [List.map_singleton, List.intercalate_singleton] at member
          exact .inr ⟨first, List.mem_cons_self, member⟩
      | cons second rest =>
          rw [List.map_cons, List.map_cons, List.intercalate_cons_cons, List.append_assoc,
            List.mem_append, List.mem_append] at member
          rcases member with own | between | later
          · exact .inr ⟨first, List.mem_cons_self, own⟩
          · exact .inl between
          · exact (inductionHypothesis later).imp_right fun ⟨segment, listed, held⟩ =>
              ⟨segment, List.mem_cons_of_mem _ listed, held⟩

/-- Segments that are joined by dashes are one. -/
theorem isSegment_intercalate {first : String} {rest : List String}
    (every : ∀ segment ∈ first :: rest, isSegment segment = true) :
    isSegment (String.intercalate "-" (first :: rest)) = true := by
  refine isSegment_iff.2 ⟨?_, fun character member => ?_⟩
  · obtain ⟨present, -⟩ := isSegment_iff.1 (every first List.mem_cons_self)
    rw [String.toList_intercalate]
    cases rest with
    | nil => simpa using present
    | cons second rest =>
        rw [List.map_cons, List.map_cons, List.intercalate_cons_cons, List.append_assoc]
        exact List.append_ne_nil_of_left_ne_nil present _
  · rcases mem_toList_intercalate member with dash | ⟨segment, listed, held⟩
    · rw [List.mem_singleton.1 dash]
      decide
    · exact (isSegment_iff.1 (every segment listed)).2 character held

/-- Segments that are joined by dots are cut apart again. -/
theorem pieces_intercalate {segments : List String} (present : segments ≠ [])
    (every : ∀ segment ∈ segments, isSegment segment = true) :
    pieces (String.intercalate "." segments).toList = segments.map String.toList := by
  rw [pieces_eq_splitOn, String.toList_intercalate]
  refine List.splitOn_intercalate '.' ?_ (by simpa using present)
  intro characters listed
  obtain ⟨segment, own, rfl⟩ := List.mem_map.1 listed
  exact not_mem_of_isSegment (every segment own)

/-- Between braces they are found. -/
theorem segmentsOf?_braces {segments : List String} (present : segments ≠ [])
    (every : ∀ segment ∈ segments, isSegment segment = true) :
    segmentsOf? (Text.trimCharacters
      ("\x7b" ++ String.intercalate "." segments ++ "\x7d").toList) = some segments := by
  have begins : ("\x7b" ++ String.intercalate "." segments ++ "\x7d").toList =
      '\x7b' :: ((String.intercalate "." segments).toList ++ ['\x7d']) := by
    simp [String.toList_append]
  have solid : ∀ character ∈ (String.intercalate "." segments).toList,
      Text.isBlank character = false := by
    intro character member
    rcases mem_toList_intercalate member with dot | ⟨segment, listed, held⟩
    · rw [List.mem_singleton.1 dot]
      decide
    · exact Text.isBlank_of_isNameCharacter ((isSegment_iff.1 (every segment listed)).2 _ held)
  have allowed : (segments.map String.toList).all
      (fun segment => !segment.isEmpty && segment.all Text.isNameCharacter) = true := by
    rw [List.all_map]
    exact List.all_eq_true.2 every
  rw [begins, Text.trimCharacters_of_solid ⟨_, rfl⟩ (by rw [← List.cons_append]) (by decide)
    (by decide), segmentsOf?, List.reverse_append, List.reverse_singleton, List.singleton_append]
  simp only [List.reverse_reverse, Text.trimCharacters_of_forall solid,
    pieces_intercalate present every, allowed, if_pos]
  simp

/-- The text of segments reads as what the segments spell. -/
theorem read_braces {segments : List String} {reference : Reference}
    (every : ∀ segment ∈ segments, isSegment segment = true)
    (spelled : ofSegments? segments = some reference) :
    read ("\x7b" ++ String.intercalate "." segments ++ "\x7d") = reference := by
  have present : segments ≠ [] := by
    rintro rfl
    cases spelled
  rw [read, segmentsOf?_braces present every, Option.bind_some, spelled, Option.getD_some]

end Reference

/-- A layer that is read has a number. -/
theorem LayerId.exists_of_read? {key : String} {layer : LayerId} (read : read? key = some layer) :
    ∃ number, layer = .indexed number := by
  rw [read?] at read
  split at read
  · obtain ⟨number, -, rfl⟩ := Option.map_eq_some_iff.1 read
    exact ⟨number, rfl⟩
  · cases read

/-- The key of a numbered layer can stand between dots. -/
theorem LayerId.isSegment_append_numberText (number : UInt16) :
    Reference.isSegment ("layer-" ++ numberText number) = true := by
  rw [Reference.isSegment_iff, String.toList_append, toList_numberText]
  refine ⟨by simp, fun character member => ?_⟩
  rcases List.mem_append.1 member with head | digit
  · exact List.all_eq_true.1 (by decide : "layer-".toList.all Text.isNameCharacter = true) _ head
  · exact Text.isNameCharacter_of_isDigit (Numeric.Decimal.isDigit_of_mem_toDigits digit)

/-! ## Sites -/

/-- A site that is spelled by segments is written in segments, and they spell it again. -/
theorem Site.ofSegments?_segments {segments : List String} {place : Site}
    (spelled : ofSegments? segments = some place)
    (every : ∀ segment ∈ segments, Reference.isSegment segment = true) :
    ofSegments? place.segments = some place ∧
      ∀ segment ∈ place.segments, Reference.isSegment segment = true := by
  fun_cases ofSegments? segments with
  | case1 key =>
      cases spelled
      exact ⟨rfl, every⟩
  | case2 key level =>
      obtain ⟨level, -, rfl⟩ := Option.map_eq_some_iff.1 spelled
      have digits : Reference.isSegment level.text = true :=
        Reference.isSegment_of_isDigit level.text_ne_nil fun _ => level.isDigit_of_mem_text
      constructor
      · change (Token.Level.read? level.text).map _ = _
        rw [Token.Level.read?_text, Option.map_some]
      · change ∀ segment ∈ ["palettes", key, level.text], _
        simp [every, digits]
  | case3 state =>
      obtain ⟨state, -, rfl⟩ := Option.map_eq_some_iff.1 spelled
      cases state <;> exact ⟨rfl, by decide⟩
  | case4 name =>
      rw [ofSegments?] at spelled
      obtain ⟨color, -, rfl⟩ := Option.map_eq_some_iff.1 spelled
      cases color <;> exact ⟨rfl, by decide⟩
  | case5 name =>
      cases spelled
      exact ⟨rfl, every⟩
  | case6 layer =>
      rw [ofSegments?] at spelled
      obtain ⟨layer, read, rfl⟩ := Option.map_eq_some_iff.1 spelled
      obtain ⟨number, rfl⟩ := LayerId.exists_of_read? read
      constructor
      · change (LayerId.read? ("layer-" ++ LayerId.numberText number)).map _ = _
        rw [LayerId.read?_append_numberText, Option.map_some]
      · change ∀ segment ∈ ["layers", "layer-" ++ LayerId.numberText number, "surface"], _
        simp [every, LayerId.isSegment_append_numberText]
  | case7 => simp [ofSegments?] at spelled

/-- A subsystem that is read has the text it was read from. -/
theorem Subsystem.text_of_read? {text : String} {subsystem : Subsystem}
    (read : read? text = some subsystem) : subsystem.text = text := by
  have found := List.find?_some read
  exact beq_iff_eq.1 found

namespace Reference

/-! ## References -/

variable {segments rest : List String} {reference : Reference} {place : Site}

/-- What a reference is read as when it is written: a color without a level is a ramp there. -/
def asWritten : Reference → Reference
  | .token path => if path.isColor ∧ path.level = none then .ramp path.key else .token path
  | reference => reference

/-- A site with a mode stands behind it. -/
theorem ofSegments?_themes (mode : Mode) (spelled : Site.ofSegments? rest = some place) :
    ofSegments? ("brand" :: "themes" :: mode.text :: rest) = some (.site (some mode) place) := by
  simp [ofSegments?, spelled]

/-- A site without a mode stands right behind the brand. -/
theorem ofSegments?_brand (spelled : Site.ofSegments? rest = some place) :
    ofSegments? ("brand" :: rest) = some (.site none place) := by
  unfold ofSegments?
  split
  · next same => simp at same
  · next same => simp at same
  · next same => simp at same
  · next same =>
      cases same
      simp [Site.ofSegments?] at spelled
  · next same =>
      cases same
      rw [spelled]
  · next other => exact absurd rfl (other rest)

/-- A reference that is spelled by segments is written in segments, and they spell it again
as far as writing can. -/
theorem ofSegments?_written (spelled : ofSegments? segments = some reference)
    (every : ∀ segment ∈ segments, isSegment segment = true) :
    ∃ written, reference.segments? = some written ∧
      ofSegments? written = some reference.asWritten ∧
      ∀ segment ∈ written, isSegment segment = true := by
  have again := spelled
  unfold ofSegments? at spelled
  split at spelled
  · next family _ =>
      obtain ⟨level, -, rfl⟩ := Option.map_eq_some_iff.1 spelled
      have digits : isSegment level.text = true :=
        isSegment_of_isDigit level.text_ne_nil fun _ => level.isDigit_of_mem_text
      refine ⟨["tokens", "color", family, level.text], rfl, ?_, by simp [every, digits]⟩
      simp [ofSegments?, asWritten, Token.Path.color]
  · next family =>
      cases spelled
      exact ⟨_, rfl, rfl, every⟩
  · next category key rest _ _ =>
      cases spelled
      have joined : isSegment (String.intercalate "-" (key :: rest)) = true :=
        isSegment_intercalate fun segment listed => every segment
          (List.mem_cons_of_mem _ (List.mem_cons_of_mem _ listed))
      refine ⟨["tokens", category, String.intercalate "-" (key :: rest)], rfl, ?_,
        by simp [every, joined]⟩
      -- Joined, the parts of a color key stand where a ramp is written.
      by_cases color : category = "color"
      · subst color
        rfl
      · simp [ofSegments?, asWritten, Token.Path.isColor, Token.Path.plain,
          Token.Path.colorCategory, color]
  · next mode rest =>
      obtain ⟨mode, -, spelled⟩ := Option.bind_eq_some_iff.1 spelled
      obtain ⟨place, known, given⟩ := Option.bind_eq_some_iff.1 spelled
      cases given
      obtain ⟨back, plain⟩ := Site.ofSegments?_segments known fun segment listed =>
        every segment (by simp [listed])
      have inMode : isSegment mode.text = true := by cases mode <;> decide
      refine ⟨"brand" :: "themes" :: mode.text :: place.segments, rfl,
        ofSegments?_themes mode back, ?_⟩
      simpa [every, inMode] using plain
  · next rest _ =>
      split at spelled
      · next place _ known =>
          cases spelled
          obtain ⟨back, plain⟩ := Site.ofSegments?_segments known fun segment listed =>
            every segment (List.mem_cons_of_mem _ listed)
          refine ⟨"brand" :: place.segments, rfl, ofSegments?_brand back, ?_⟩
          simpa [every] using plain
      · next subsystem first more _ _ =>
          obtain ⟨found, read, rfl⟩ := Option.map_eq_some_iff.1 spelled
          refine ⟨"brand" :: subsystem :: first :: more, ?_, again, every⟩
          rw [segments?, Subsystem.text_of_read? read]
      · cases spelled
  · cases spelled

/-- Writing keeps every reference but a color without a level. -/
theorem asWritten_eq_self_iff :
    reference.asWritten = reference ↔
      ∀ key, reference ≠ .token (Token.Path.plain Token.Path.colorCategory key) := by
  fun_cases asWritten reference with
  | case1 path bare =>
      refine iff_of_false (fun same => by cases same) fun apart => apart path.key ?_
      obtain ⟨category, key, level⟩ := path
      obtain ⟨color, rfl⟩ := bare
      obtain rfl : category = Token.Path.colorCategory := beq_iff_eq.1 color
      rfl
  | case2 path full =>
      refine iff_of_true rfl ?_
      rintro key ⟨⟩
      exact full ⟨rfl, rfl⟩
  | case3 _ other =>
      refine iff_of_true rfl ?_
      rintro key rfl
      exact other _ rfl

/-- A reference with segments is written as they are, between braces. -/
theorem text_of_segments? {written : List String} (writes : reference.segments? = some written) :
    reference.text = "\x7b" ++ String.intercalate "." written ++ "\x7d" := by
  cases reference with
  | unrecognized text => cases writes
  | _ =>
      cases writes
      rfl

/-- A text reads back from what it was read as, with one exception: a color token without a
level, which is read where the key of a color has more than two parts, reads back as the ramp
of the joined parts. -/
theorem read_text_read (text : String) :
    read (read text).text = (read text).asWritten ∧
      (read (read text).text = read text ↔
        ∀ key, read text ≠ .token (Token.Path.plain Token.Path.colorCategory key)) := by
  have back : read (read text).text = (read text).asWritten := by
    cases known : (segmentsOf? (Text.trimCharacters text.toList)).bind ofSegments? with
    | none =>
        have kept : read text = .unrecognized text := by rw [read, known, Option.getD_none]
        rw [kept]
        exact kept
    | some reference =>
        have kept : read text = reference := by rw [read, known, Option.getD_some]
        obtain ⟨segments, cut, spelled⟩ := Option.bind_eq_some_iff.1 known
        obtain ⟨written, writes, again, plain⟩ :=
          ofSegments?_written spelled (isSegment_of_segmentsOf? cut)
        rw [kept, text_of_segments? writes]
        exact read_braces plain again
  refine ⟨back, ?_⟩
  rw [back]
  exact asWritten_eq_self_iff

/-- The parts of a long color key read back as a ramp. -/
theorem not_read_text_read :
    read "\x7btokens.color.a.b.c\x7d" = .token (Token.Path.plain "color" "a-b-c") ∧
      read (read "\x7btokens.color.a.b.c\x7d").text = .ramp "a-b-c" := by
  decide +kernel

/-! ## Texts of places -/

/-- Behind its first segment a text goes on with a dot. -/
theorem toList_intercalate_cons (first second : String) (rest : List String) :
    (String.intercalate "." (first :: second :: rest)).toList =
      first.toList ++ '.' :: (String.intercalate "." (second :: rest)).toList := by
  simp [String.toList_intercalate]

/-- The text of a place that has a mode. -/
theorem toList_text_site (mode : Mode) (place : Site) :
    (site (some mode) place).text.toList =
      "\x7bbrand.themes.".toList ++ (mode.text.toList ++
        '.' :: ((String.intercalate "." place.segments).toList ++ ['\x7d'])) := by
  have written : (site (some mode) place).text =
      "\x7b" ++ String.intercalate "." ("brand" :: "themes" :: mode.text :: place.segments) ++
        "\x7d" := rfl
  obtain ⟨first, rest, shape⟩ : ∃ first rest, place.segments = first :: rest := by
    cases place <;> exact ⟨_, _, rfl⟩
  rw [written, shape, String.toList_append, String.toList_append, toList_intercalate_cons,
    toList_intercalate_cons, toList_intercalate_cons]
  simp

/-- The joined path of a layer determines the layer. -/
theorem layer_eq_of_joined {layer layer' : LayerId}
    (same : (String.intercalate "." layer.documentPath).toList =
      (String.intercalate "." layer'.documentPath).toList) : layer = layer' := by
  cases layer with
  | indexed number =>
      cases layer' with
      | indexed number' =>
          simp only [LayerId.documentPath, String.intercalate_singleton, String.toList_inj] at same
          have read := congrArg LayerId.read? same
          rw [LayerId.read?_append_numberText, LayerId.read?_append_numberText] at read
          exact Option.some.inj read
      | alternative name => simp [LayerId.documentPath, String.toList_append] at same
  | alternative name =>
      cases layer' with
      | indexed number => simp [LayerId.documentPath, String.toList_append] at same
      | alternative name' =>
          simpa [LayerId.documentPath, String.toList_append, String.toList_inj] using same

/-- The joined segments of a core color determine its slot. -/
theorem slot_eq_of_joined {slot slot' : CoreSlot}
    (same : (String.intercalate "." slot.segments).toList =
      (String.intercalate "." slot'.segments).toList) : slot = slot' := by
  have every (slot : CoreSlot) : ∀ segment ∈ slot.segments, isSegment segment = true := by
    obtain ⟨color, state⟩ := slot
    cases color <;> rcases state with _ | _ | _ <;> decide
  have cut (slot : CoreSlot) : pieces (String.intercalate "." slot.segments).toList =
      slot.segments.map String.toList :=
    pieces_intercalate (List.cons_ne_nil _ _) (every slot)
  have cut := (cut slot).symm.trans ((congrArg pieces same).trans (cut slot'))
  exact CoreSlot.segments_inj (List.map_inj_right (fun _ _ => String.toList_inj.1) |>.1 cut)

theorem joined_core (color : CoreColor) (state : Option InteractiveState) :
    (String.intercalate "." (Site.core color state).segments).toList =
      "core-colors.".toList ++
        (String.intercalate "." (CoreSlot.mk color state).segments).toList := by
  rw [Site.segments, CoreSlot.segments, toList_intercalate_cons]
  simp

theorem joined_surface (layer : LayerId) :
    (String.intercalate "." (Site.surface layer).segments).toList =
      "layers.".toList ++
        ((String.intercalate "." layer.documentPath).toList ++ ".surface".toList) := by
  cases layer <;> simp [Site.segments, LayerId.documentPath]

/-- The joined segments of a site determine it unless it is a palette, whose key may hold
dots. -/
theorem site_eq_of_joined {place place' : Site} (bound : ∀ key level, place ≠ .palette key level)
    (same : (String.intercalate "." place.segments).toList =
      (String.intercalate "." place'.segments).toList) : place = place' := by
  cases place with
  | palette key level => exact absurd rfl (bound key level)
  | core color state =>
      rw [joined_core] at same
      cases place' with
      | palette key level => simp [Site.segments] at same
      | core color' state' =>
          rw [joined_core, List.append_cancel_left_eq] at same
          cases slot_eq_of_joined same
          rfl
      | surface layer =>
          rw [joined_surface] at same
          simp at same
  | surface layer =>
      rw [joined_surface] at same
      cases place' with
      | palette key level => simp [Site.segments] at same
      | core color state =>
          rw [joined_core] at same
          simp at same
      | surface layer' =>
          rw [joined_surface, List.append_cancel_left_eq, List.append_cancel_right_eq] at same
          rw [layer_eq_of_joined same]

/-- The text of a place determines it unless it is a palette. -/
theorem place_eq_of_text {mode mode' : Mode} {place place' : Site}
    (bound : ∀ key level, place ≠ .palette key level)
    (same : (site (some mode) place).text = (site (some mode') place').text) :
    mode = mode' ∧ place = place' := by
  have joined := congrArg String.toList same
  rw [toList_text_site, toList_text_site, List.append_cancel_left_eq] at joined
  have sameMode : mode = mode' := by
    cases mode <;> cases mode' <;> simp [Mode.text] at joined ⊢
  subst sameMode
  rw [List.append_cancel_left_eq, List.cons.injEq, List.append_cancel_right_eq] at joined
  exact ⟨rfl, site_eq_of_joined bound joined.2⟩

end Reference

end Legible
