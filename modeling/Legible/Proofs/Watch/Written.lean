import Legible.Proofs.Watch.Outcome

/-!
# Foregrounds that a flush writes

A flush writes foregrounds that were chosen for a color of their background: for what
a live palette tone showed before, and otherwise for what the next value of the
background composes to. Where the background shows that color in the end, what was
written is legible on it, or it is reported. A background that was changed live and
kept shows another color, and only the foregrounds of palette tones are chosen again.
-/

namespace Legible

open Property

namespace Watcher

variable {watcher : Watcher}

/-- The color that the foregrounds on a background are chosen for in a flush. -/
def Expects (watcher : Watcher) (background : Name) (color : Color) : Prop :=
  if background ∈ watcher.decideFlush.tones.kept then
    watcher.registry.color background = .ok color
  else
    ∃ value, watcher.flush.1.current.map.value? background = some value ∧
      Composes watcher.flush.1.configuration.index value color

/-- A palette tone that a flush keeps is settled together with the on-tone on it. -/
theorem mem_handled_of_background (tracks : watcher.Tracks) {name background : Name}
    (kept : background ∈ watcher.decideFlush.tones.kept)
    (pair : watcher.decideFlush.next.map.background? name = some background) :
    name ∈ watcher.decideFlush.tones.handled := by
  obtain ⟨overrides, named, settles⟩ := settles_decideFlush tracks
  obtain ⟨override, listed, rfl, settled⟩ := settles.kept background kept
  rw [named override listed, tracks.next] at pair
  rw [Configuration.eq_of_background?_toneProperty pair]
  exact settled

/-- What a flush writes for a name composes, in the documents that it leaves, to a color
that is legible on what it expects of the background, unless that is reported. -/
structure Fits (watcher : Watcher) (report : FlushReport) (name background : Name)
    (value : Value) (front : Color) : Prop where
  composes : Composes watcher.flush.1.configuration.index value front
  legible : ∀ back, watcher.Expects background back →
    ContrastRatio.threshold ≤ ContrastRatio.between front back ∨
      Inspection.isKnown watcher.flush.1.current.issues name = true ∨
      ∃ issue ∈ report.issues, issue.locus = name.text

/-- An on-tone of the tone plan was chosen for what its tone showed. -/
theorem fits_of_tone (tracks : watcher.Tracks) {report : FlushReport}
    {state : Store × FlushReport} (outcome : watcher.Outcome report state) {name background : Name}
    {value : Value} (written : (name, value) ∈ watcher.decideFlush.tones.writes)
    (pair : watcher.decideFlush.next.map.background? name = some background) :
    ∃ front, watcher.Fits report name background value front := by
  obtain ⟨overrides, named, settles⟩ := settles_decideFlush tracks
  obtain ⟨override, listed, choice, rfl, rfl, kept, reported⟩ := settles.writes name value written
  obtain ⟨anchors, found, contrasting⟩ := Option.bind_eq_some_iff.1 choice.anchors
  rw [tracks.next] at found pair
  rw [Configuration.anchors?_compute found] at contrasting
  have stands : background = override.tone := by
    rw [named override listed]
    exact Configuration.background?_onToneProperty pair
  refine ⟨choice.onTone.anchor.color, ?_, fun back expected => ?_⟩
  · rw [outcome.configuration]
    exact .reference (Configuration.isHeld_of_choose contrasting)
  · rw [Expects, stands, if_pos kept] at expected
    have shown : back = choice.color := by
      have same : watcher.decideFlush.folded.registry = watcher.registry :=
        congrArg Store.registry (folds_decideFlush watcher).store
      exact Except.ok.inj (expected.symm.trans (same ▸ choice.shown))
    rcases reported with legible | ⟨issue, given, locus⟩
    · refine .inl ?_
      rw [shown, ContrastRatio.between_comm, ToneOverride.Choice.onTone, ← Configuration.ratio_choose]
      exact of_decide_eq_true legible
    · refine .inr (.inr ⟨issue, ?_, locus⟩)
      rw [outcome.report_eq]
      refine (Contest.continues_judgeAll fun contest => isAccepted_of_mem_contests tracks).issues ?_
      rw [outcome.applied.issues]
      exact given

/-- A planned value was measured against what the next value of its background composes
to. -/
theorem fits_of_planned (tracks : watcher.Tracks) {report : FlushReport}
    {state : Store × FlushReport} (outcome : watcher.Outcome report state) {name background : Name}
    {value : Value} (names : watcher.flush.1.configuration.index.HasPlainNames)
    (written : (name, value) ∈ watcher.decideFlush.plan.writes)
    (pair : watcher.decideFlush.next.map.background? name = some background) :
    ∃ front, watcher.Fits report name background value front := by
  obtain ⟨-, unhandled, planned⟩ := FlushDecision.mem_actions.1 (FlushPlan.mem_writes.1 written)
  have held := value?_of_action_write planned
  have unkept : background ∉ watcher.decideFlush.tones.kept := fun kept =>
    unhandled (mem_handled_of_background tracks kept pair)
  rw [tracks.next] at held pair
  obtain ⟨front, back, measured⟩ := Configuration.measured_of_background? held pair
  refine ⟨front, ?_, fun color expected => ?_⟩
  · rw [outcome.configuration]
    exact measured.frontComposes
  · rw [Expects, if_neg unkept] at expected
    obtain ⟨opposite, stands, composes⟩ := expected
    rw [outcome.current, tracks.next] at stands
    have same : color = back := by
      refine composes.unique names ?_
      rw [outcome.configuration]
      exact Configuration.composes_of_measured measured stands
    rw [same, outcome.current, tracks.next]
    exact measured.legible.imp_right .inl

/-- A foreground that a flush writes is legible on its background in the registry that
the flush leaves, or the computation or the report says that it is not. The tokens that
it reads have to be shown, and its background has to show what is expected of it. -/
theorem legible_of_written (reachable : watcher.Reachable) {report : FlushReport}
    (flushed : watcher.flush.2 = some report) {name background : Name}
    (written : name ∈ report.written)
    (pair : watcher.flush.1.current.map.background? name = some background)
    (names : watcher.flush.1.configuration.index.HasPlainNames)
    (shown : ∀ path, watcher.flush.1.registry.Reads name (Name.ofToken path) →
      watcher.flush.1.registry.Shows watcher.flush.1.configuration.index path)
    (expected : ∃ color, watcher.Expects background color ∧
      watcher.flush.1.registry.color background = .ok color) :
    Inspection.measurePair watcher.flush.1.current.map watcher.flush.1.registry name background =
        none ∨
      Inspection.isKnown watcher.flush.1.current.issues name = true ∨
      ∃ issue ∈ report.issues, issue.locus = name.text := by
  have tracks := reachable.tracks
  rcases outcome_of_flush tracks flushed with rfl | ⟨state, outcome⟩
  · cases written
  have accepted : ∀ contest ∈ watcher.decideFlush.plan.contests,
      contest.IsAccepted watcher.decideFlush.folded.configuration.index :=
    fun contest => isAccepted_of_mem_contests tracks
  have reported := @Contest.reported_judgeAll watcher.decideFlush.next.map _ _ state accepted name
  rw [← outcome.report_eq, outcome.applied.written, outcome.applied.replaced] at reported
  rcases reported.1 written with listed | reported'
  swap
  · exact .inr (.inr reported')
  obtain ⟨value, member, put⟩ := Store.exists_of_get?_putAll listed
  rcases @Contest.get?_judgeAll watcher.decideFlush.next.map _ _ state accepted name with
    same | ⟨-, replaced⟩
  swap
  · -- A contest that was replaced is reported.
    rw [← outcome.report_eq] at replaced
    exact .inr (.inr ((reported.2 replaced).resolve_left List.not_mem_nil))
  have live : watcher.flush.1.registry.get? name = some value.render := by
    rw [outcome.registry]
    exact same.trans ((outcome.applied.get? name).trans put)
  rw [outcome.current] at pair
  obtain ⟨front, fits⟩ : ∃ front, watcher.Fits report name background value front := by
    rcases List.mem_append.1 member with tone | planned
    · exact fits_of_tone tracks outcome tone pair
    · exact fits_of_planned tracks outcome names planned pair
  have reads := Configuration.read_render_of_readsTokens names fits.composes.readsTokens
  have frontShown : watcher.flush.1.registry.color name = .ok front := by
    refine Registry.color_of_composes live reads fits.composes fun path member => ?_
    refine shown path ⟨value.render, live, ?_⟩
    rw [reads]
    exact member
  obtain ⟨back, expects, backShown⟩ := expected
  refine (fits.legible back expects).imp_left fun contrast => ?_
  simp only [Inspection.measurePair, frontShown, backShown, if_pos contrast]

/-- A text that is written on a white surface is black. -/
theorem legible_of_written_text :
    ∃ watcher : Watcher, ∃ report : FlushReport, watcher.Reachable ∧
      watcher.flush.2 = some report ∧ Sample.text ∈ report.written ∧
      watcher.flush.1.current.map.background? Sample.text = some Sample.surface ∧
      watcher.flush.1.configuration.index.HasPlainNames ∧
      (∀ path, watcher.flush.1.registry.Reads Sample.text (Name.ofToken path) →
        watcher.flush.1.registry.Shows watcher.flush.1.configuration.index path) ∧
      (∃ color, watcher.Expects Sample.surface color ∧
        watcher.flush.1.registry.color Sample.surface = .ok color) ∧
      (Inspection.measurePair watcher.flush.1.current.map watcher.flush.1.registry Sample.text
          Sample.surface = none ∨
        Inspection.isKnown watcher.flush.1.current.issues Sample.text = true ∨
        ∃ issue ∈ report.issues, issue.locus = Sample.text.text) := by
  -- One evaluation of the flush decides all that is needed of it.
  have facts : (Sample.told []).flush.2.map FlushReport.written = some [Sample.text] ∧
      (Sample.told []).decideFlush.tones.kept = [] ∧
      (Sample.told []).flush.1.current.map.background? Sample.text = some Sample.surface ∧
      (Sample.told []).flush.1.current.map.value? Sample.surface =
        some (.reference (Name.ofToken (.color "gray" ⟨0⟩))) ∧
      (Sample.told []).flush.1.configuration.index.values[Token.Path.color "gray" ⟨0⟩]? =
        some (.color .white) ∧
      ((Sample.told []).flush.1.registry.color Sample.surface).toOption = some .white ∧
      (∀ entry ∈ (Sample.told []).flush.1.configuration.index.tokens,
        (Name.ofToken entry.1).text.toList.all Text.isNameCharacter = true) ∧
      (∀ entry ∈ (Sample.told []).flush.1.configuration.index.tokens,
        ∀ other ∈ (Sample.told []).flush.1.configuration.index.tokens,
          Name.ofToken entry.1 = Name.ofToken other.1 → entry.1 = other.1) ∧
      (∀ entry ∈ (Sample.told []).flush.1.configuration.index.tokens,
        ∀ color ∈ entry.2.color?,
          (Evaluation.colorAt (Sample.told []).flush.1.registry maxEvaluationDepth
            (Name.ofToken entry.1)).toOption = some color) ∧
      (∀ entry ∈ (Sample.told []).flush.1.configuration.index.tokens,
        ∀ amount ∈ entry.2.number?, Token.isShare amount = true →
          (Evaluation.numberAt (Sample.told []).flush.1.registry maxEvaluationDepth
            (Name.ofToken entry.1)).toOption = some amount) := by
    decide +kernel
  have reachable := Sample.reachable_told []
  generalize Sample.told [] = watcher at facts reachable
  obtain ⟨reported, noTones, pair, surface, held, white, plain, distinct, colors, numbers⟩ := facts
  have names := Token.Index.hasPlainNames_of_tokens plain distinct
  have shown := Registry.shows_of_tokens colors numbers
  obtain ⟨report, flushed, writtenIs⟩ := Option.map_eq_some_iff.1 reported
  have written : Sample.text ∈ report.written := by
    rw [writtenIs]
    exact List.mem_cons_self
  have expected : ∃ color, watcher.Expects Sample.surface color ∧
      watcher.flush.1.registry.color Sample.surface = .ok color := by
    refine ⟨.white, ?_, ?_⟩
    · rw [Expects, noTones, if_neg List.not_mem_nil]
      exact ⟨_, surface, .reference held⟩
    · revert white
      cases watcher.flush.1.registry.color Sample.surface with
      | error error => exact fun none => by cases none
      | ok color => exact fun same => congrArg Except.ok (Option.some.inj same)
  exact ⟨watcher, report, reachable, flushed, written, pair, names, fun path _ => shown path,
    expected, legible_of_written reachable flushed written pair names (fun path _ => shown path)
      expected⟩

/-- An interactive tone that was set to white is kept on the gray surface. Its on-tone is
written as it was chosen for a black tone: white on white, and nothing says so. -/
theorem illegible_of_written_onTone :
    ∃ watcher : Watcher, ∃ report : FlushReport, watcher.Reachable ∧ watcher.isAttached = true ∧
      watcher.flush.2 = some report ∧ Sample.onTone ∈ report.written ∧
      watcher.flush.1.current.map.background? Sample.onTone = some Sample.tone ∧
      Inspection.measurePair watcher.flush.1.current.map watcher.flush.1.registry Sample.onTone
        Sample.tone ≠ none ∧
      Inspection.isKnown watcher.flush.1.current.issues Sample.onTone = false ∧
      report.issues = [] := by
  have facts : (fun watcher : Watcher =>
      (watcher.isAttached,
        watcher.flush.2.map fun report => (report.written, report.issues),
        watcher.flush.1.current.map.background? Sample.onTone,
        (Inspection.measurePair watcher.flush.1.current.map watcher.flush.1.registry
          Sample.onTone Sample.tone).isSome,
        Inspection.isKnown watcher.flush.1.current.issues Sample.onTone))
      (Sample.attached Sample.onGray [.writeLive Sample.tone "var(--tokens-color-gray-000)"]) =
        (true, some ([Sample.onTone], []), some Sample.tone, true, false) := by
    decide +kernel
  have reachable := Sample.reachable_attached Sample.onGray
    [.writeLive Sample.tone "var(--tokens-color-gray-000)"]
  generalize Sample.attached Sample.onGray _ = watcher at facts reachable
  obtain ⟨isAttached, rest⟩ := Prod.mk.inj facts
  obtain ⟨reported, rest⟩ := Prod.mk.inj rest
  obtain ⟨pair, rest⟩ := Prod.mk.inj rest
  obtain ⟨illegible, unknown⟩ := Prod.mk.inj rest
  obtain ⟨report, flushed, lists⟩ := Option.map_eq_some_iff.1 reported
  obtain ⟨writtenIs, silent⟩ := Prod.mk.inj lists
  refine ⟨watcher, report, reachable, isAttached, flushed, ?_, pair, ?_, unknown, silent⟩
  · rw [writtenIs]
    exact List.mem_cons_self
  · intro none
    rw [none] at illegible
    cases illegible

end Watcher

end Legible
