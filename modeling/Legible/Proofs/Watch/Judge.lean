import Legible.Proofs.Watch.Plan

/-!
# Judging contests one after another

A contest leaves its property as it is, or writes the generated value over it, reports
that and lists the property as replaced. A contest that is judged later may therefore
change what an earlier one was judged by, but only at a property that it replaces. As
no two contests are about one property, each of them ends in one of the two ways.
-/

namespace Legible

open Property

/-- A report that goes on from another one: it adds to what was written, kept, replaced
and said, and leaves the rest. -/
structure FlushReport.Continues (earlier later : FlushReport) : Prop where
  issues : earlier.issues ⊆ later.issues
  written : earlier.written ⊆ later.written
  kept : earlier.kept ⊆ later.kept
  replaced : earlier.replaced ⊆ later.replaced
  removed : later.removed = earlier.removed
  adopted : later.adopted = earlier.adopted

theorem FlushReport.Continues.trans {first second third : FlushReport}
    (left : first.Continues second) (right : second.Continues third) : first.Continues third where
  issues := List.Subset.trans left.issues right.issues
  written := List.Subset.trans left.written right.written
  kept := List.Subset.trans left.kept right.kept
  replaced := List.Subset.trans left.replaced right.replaced
  removed := right.removed.trans left.removed
  adopted := right.adopted.trans left.adopted

namespace Contest

variable {next : PropertyMap} {index : Token.Index} {contest : Contest}
  {contests : List Contest} {state : Store × FlushReport}

/-- A contest whose generated value is accepted as it is. -/
def IsAccepted (index : Token.Index) (contest : Contest) : Prop :=
  validate contest.name contest.generated index = .ok (.accepted contest.generated)

/-- A judged change stays, or it is written over, reported and listed. -/
theorem judge_cases (accepted : contest.IsAccepted index) (state : Store × FlushReport) :
    (Inspection.measurePair next state.1.registry contest.name contest.background = none ∧
      judge next index state contest =
        (state.1, { state.2 with kept := state.2.kept ++ [contest.name] })) ∨
      ∃ store said, said.locus = contest.name.text ∧
        store.get? contest.name = some contest.generated.render ∧
        (∀ name, name ≠ contest.name → store.get? name = state.1.get? name) ∧
        judge next index state contest =
          (store,
            { state.2 with
              issues := state.2.issues ++ [said]
              written := state.2.written ++ [contest.name]
              replaced := state.2.replaced ++ [contest.name] }) := by
  obtain ⟨store, report⟩ := state
  cases measured : Inspection.measurePair next store.registry contest.name contest.background with
  | none =>
      refine .inl ⟨rfl, ?_⟩
      simp only [judge, measured]
  | some issue =>
      have applied := Store.applyValues_of_accepts store
        (show Store.Accepts index [(contest.name, contest.generated)] from
          fun name value member => by
            cases List.mem_singleton.1 member
            exact accepted)
      refine .inr ⟨(store.putAll [(contest.name, contest.generated)]).emit
        (Event.updated [contest.name]),
        { Issue.warning issue.kind contest.name.text
            (contest.reason issue ++ "; replaced with " ++ contest.generated.render) with
          ratio := issue.ratio }, rfl, Store.get?_put_self _ _ _, fun name other => ?_, ?_⟩
      · exact Store.get?_putAll_of_absent fun value member =>
          other (congrArg Prod.fst (List.mem_singleton.1 member))
      · simp only [judge, measured, applied]
        rfl

/-- Judging one contest goes on from the report so far. -/
theorem continues_judge (accepted : contest.IsAccepted index) (state : Store × FlushReport) :
    state.2.Continues (judge next index state contest).2 := by
  rcases judge_cases accepted state with ⟨-, judged⟩ | ⟨store, said, -, -, -, judged⟩
  · rw [judged]
    exact ⟨List.Subset.refl _, List.Subset.refl _, List.subset_append_left _ _,
      List.Subset.refl _, rfl, rfl⟩
  · rw [judged]
    exact ⟨List.subset_append_left _ _, List.subset_append_left _ _, List.Subset.refl _,
      List.subset_append_left _ _, rfl, rfl⟩

/-- Judging keeps what was reported before. -/
theorem continues_judgeAll (accepted : ∀ contest ∈ contests, contest.IsAccepted index) :
    state.2.Continues (contests.foldl (judge next index) state).2 := by
  induction contests generalizing state with
  | nil =>
      exact ⟨List.Subset.refl _, List.Subset.refl _, List.Subset.refl _, List.Subset.refl _,
        rfl, rfl⟩
  | cons contest rest inductionHypothesis =>
      rw [List.foldl_cons]
      exact (continues_judge (accepted contest List.mem_cons_self) state).trans
        (inductionHypothesis fun other member => accepted other (List.mem_cons_of_mem _ member))

/-- Judging changes the text of what it replaces and nothing else. -/
theorem get?_judgeAll (accepted : ∀ contest ∈ contests, contest.IsAccepted index) (name : Name) :
    (contests.foldl (judge next index) state).1.get? name = state.1.get? name ∨
      (∃ contest ∈ contests, contest.name = name) ∧
        name ∈ (contests.foldl (judge next index) state).2.replaced := by
  induction contests generalizing state with
  | nil => exact .inl rfl
  | cons contest rest inductionHypothesis =>
      have acceptedRest : ∀ contest ∈ rest, contest.IsAccepted index := fun other member =>
        accepted other (List.mem_cons_of_mem _ member)
      rw [List.foldl_cons]
      rcases @inductionHypothesis (judge next index state contest) acceptedRest with
        same | ⟨⟨other, listed, named⟩, replaced⟩
      · rcases judge_cases (accepted contest List.mem_cons_self) state with
          ⟨-, judged⟩ | ⟨store, said, -, -, others, judged⟩
        · rw [judged] at same ⊢
          exact .inl same
        · by_cases own : name = contest.name
          · refine .inr ⟨⟨contest, List.mem_cons_self, own.symm⟩, ?_⟩
            have replaced := (@continues_judgeAll next index rest (judge next index state contest)
              acceptedRest).replaced
            rw [judged] at replaced ⊢
            rw [own]
            exact replaced (List.mem_append_right _ List.mem_cons_self)
          · refine .inl (same.trans ?_)
            rw [judged]
            exact others name own
      · exact .inr ⟨⟨other, List.mem_cons_of_mem _ listed, named⟩, replaced⟩

/-- Whatever is written while judging is contested. -/
theorem written_judgeAll (accepted : ∀ contest ∈ contests, contest.IsAccepted index) {name : Name}
    (written : name ∈ (contests.foldl (judge next index) state).2.written) :
    name ∈ state.2.written ∨ ∃ contest ∈ contests, contest.name = name := by
  induction contests generalizing state with
  | nil => exact .inl written
  | cons contest rest inductionHypothesis =>
      rw [List.foldl_cons] at written
      have ways := @judge_cases next index contest (accepted contest List.mem_cons_self) state
      rcases inductionHypothesis (fun other member => accepted other (List.mem_cons_of_mem _ member))
        written with earlier | ⟨other, listed, named⟩
      · rcases ways with ⟨-, judged⟩ | ⟨store, said, -, -, -, judged⟩
        · rw [judged] at earlier
          exact .inl earlier
        · rw [judged] at earlier
          refine (List.mem_append.1 earlier).imp_right fun last => ?_
          exact ⟨contest, List.mem_cons_self, (List.mem_singleton.1 last).symm⟩
      · exact .inr ⟨other, List.mem_cons_of_mem _ listed, named⟩

/-- Whatever is written or replaced while judging is reported. -/
theorem reported_judgeAll (accepted : ∀ contest ∈ contests, contest.IsAccepted index) (name : Name) :
    (name ∈ (contests.foldl (judge next index) state).2.written → name ∈ state.2.written ∨
        ∃ issue ∈ (contests.foldl (judge next index) state).2.issues, issue.locus = name.text) ∧
      (name ∈ (contests.foldl (judge next index) state).2.replaced → name ∈ state.2.replaced ∨
        ∃ issue ∈ (contests.foldl (judge next index) state).2.issues, issue.locus = name.text) := by
  induction contests generalizing state with
  | nil => exact ⟨.inl, .inl⟩
  | cons contest rest inductionHypothesis =>
      have acceptedRest : ∀ contest ∈ rest, contest.IsAccepted index := fun other member =>
        accepted other (List.mem_cons_of_mem _ member)
      rw [List.foldl_cons]
      obtain ⟨written, replaced⟩ := @inductionHypothesis (judge next index state contest)
        acceptedRest
      have issues := (@continues_judgeAll next index rest (judge next index state contest)
        acceptedRest).issues
      rcases judge_cases (accepted contest List.mem_cons_self) state with
        ⟨-, judged⟩ | ⟨store, said, locus, -, -, judged⟩
      · rw [judged] at written replaced ⊢
        exact ⟨written, replaced⟩
      · rw [judged] at written replaced issues ⊢
        -- A name that this contest has added is the one that its issue is about.
        have added {earlier : List Name} (listed : name ∈ earlier ++ [contest.name]) :
            name ∈ earlier ∨ said.locus = name.text := by
          refine (List.mem_append.1 listed).imp_right fun own => ?_
          rw [locus, List.mem_singleton.1 own]
        have saying (same : said.locus = name.text) :
            ∃ issue ∈ (rest.foldl (judge next index) (store,
              { state.2 with
                issues := state.2.issues ++ [said]
                written := state.2.written ++ [contest.name]
                replaced := state.2.replaced ++ [contest.name] })).2.issues,
              issue.locus = name.text :=
          ⟨said, issues (List.mem_append_right _ List.mem_cons_self), same⟩
        exact ⟨fun listed => (written listed).elim (fun before => (added before).imp_right saying) .inr,
          fun listed => (replaced listed).elim (fun before => (added before).imp_right saying) .inr⟩

/-- A change that was judged to stay was legible when it was judged, and since then only
what stands later in the list has changed. -/
theorem split_of_kept (accepted : ∀ contest ∈ contests, contest.IsAccepted index) {name : Name}
    (kept : name ∈ (contests.foldl (judge next index) state).2.kept) :
    name ∈ state.2.kept ∨
      ∃ before contest after registry, contests = before ++ contest :: after ∧
        contest.name = name ∧
        Inspection.measurePair next registry name contest.background = none ∧
        ∀ other, (contests.foldl (judge next index) state).1.get? other = registry.get? other ∨
          (∃ later ∈ after, later.name = other) ∧
            other ∈ (contests.foldl (judge next index) state).2.replaced := by
  induction contests generalizing state with
  | nil => exact .inl kept
  | cons contest rest inductionHypothesis =>
      have acceptedRest : ∀ contest ∈ rest, contest.IsAccepted index := fun other member =>
        accepted other (List.mem_cons_of_mem _ member)
      rw [List.foldl_cons] at kept ⊢
      rcases inductionHypothesis acceptedRest kept with
        earlier | ⟨before, found, after, registry, split, named, legible, since⟩
      · rcases judge_cases (accepted contest List.mem_cons_self) state with
          ⟨legible, judged⟩ | ⟨store, said, -, -, -, judged⟩
        · have since := @get?_judgeAll next index rest (judge next index state contest)
            acceptedRest
          rw [judged] at earlier since
          rcases List.mem_append.1 earlier with before | own
          · exact .inl before
          · cases List.mem_singleton.1 own
            refine .inr ⟨[], contest, rest, state.1.registry, rfl, rfl, legible, fun other => ?_⟩
            rw [judged]
            exact since other
        · rw [judged] at earlier
          exact .inl earlier
      · exact .inr ⟨contest :: before, found, after, registry, by rw [split]; rfl, named, legible,
          since⟩

/-- Each contest ends in one of two ways: its property keeps its text and is listed as
kept, or it shows the generated value, is listed as written and replaced, and an issue is
about it. -/
theorem settled_judgeAll (accepted : ∀ contest ∈ contests, contest.IsAccepted index)
    (distinct : contests.Pairwise fun first second => first.name ≠ second.name)
    (member : contest ∈ contests) :
    (contest.name ∈ (contests.foldl (judge next index) state).2.kept ∧
        (contests.foldl (judge next index) state).1.get? contest.name =
          state.1.get? contest.name) ∨
      (contest.name ∈ (contests.foldl (judge next index) state).2.written ∧
        contest.name ∈ (contests.foldl (judge next index) state).2.replaced ∧
        (∃ issue ∈ (contests.foldl (judge next index) state).2.issues,
          issue.locus = contest.name.text) ∧
        (contests.foldl (judge next index) state).1.get? contest.name =
          some contest.generated.render) := by
  induction contests generalizing state with
  | nil => cases member
  | cons head rest inductionHypothesis =>
      obtain ⟨apart, distinctRest⟩ := List.pairwise_cons.1 distinct
      have acceptedRest : ∀ contest ∈ rest, contest.IsAccepted index := fun other listed =>
        accepted other (List.mem_cons_of_mem _ listed)
      have ways := @judge_cases next index head (accepted head List.mem_cons_self) state
      rw [List.foldl_cons]
      rcases List.mem_cons.1 member with rfl | later
      · -- Nothing that is judged later is about the same property.
        have unchanged := (@get?_judgeAll next index rest (judge next index state contest)
          acceptedRest contest.name).resolve_right fun ⟨⟨other, listed, named⟩, _⟩ =>
            apart other listed named.symm
        have report := @continues_judgeAll next index rest (judge next index state contest)
          acceptedRest
        rw [unchanged]
        rcases ways with ⟨-, judged⟩ | ⟨store, said, locus, shows, -, judged⟩
        · rw [judged] at report ⊢
          exact .inl ⟨report.kept (List.mem_append_right _ List.mem_cons_self), rfl⟩
        · rw [judged] at report ⊢
          exact .inr ⟨report.written (List.mem_append_right _ List.mem_cons_self),
            report.replaced (List.mem_append_right _ List.mem_cons_self),
            ⟨said, report.issues (List.mem_append_right _ List.mem_cons_self), locus⟩, shows⟩
      · refine (@inductionHypothesis (judge next index state head) acceptedRest distinctRest
          later).imp_left (And.imp_right fun same => same.trans ?_)
        rcases ways with ⟨-, judged⟩ | ⟨store, said, -, -, others, judged⟩
        · rw [judged]
        · rw [judged]
          exact others contest.name (apart contest later).symm

end Contest

end Legible
