import Mathlib.Tactic.MkIffOfInductiveProp
import Legible.Proofs.Live.Evaluation

/-!
# What live properties mean

A property that holds a color means that color, a reference means what its target means, and
a blend means the composition of what its operands mean. A property on a cycle means nothing.
The evaluator computes this meaning as long as no chain of references exceeds its depth, and
nothing else; whether it does is settled by the properties that can be reached.
-/

namespace Legible

open Property

namespace Registry

/-! ## Meanings -/

/-- The number that a property means. -/
@[mk_iff] inductive MeansNumber (registry : Registry) : Name → Float → Prop where
  | literal {name : Name} {text literal : String} {amount : Float}
      (held : registry.get? name = some text) (reads : Value.read text = .literal literal)
      (spells : Evaluation.literalNumber? literal = some amount) :
      MeansNumber registry name amount
  | reference {name target : Name} {text : String} {amount : Float}
      (held : registry.get? name = some text) (reads : Value.read text = .reference target)
      (means : MeansNumber registry target amount) : MeansNumber registry name amount

/-- The share of the foreground that the weight of a blend means. -/
@[mk_iff] inductive MeansShare (registry : Registry) : Weight → Float → Prop where
  | property {name : Name} {amount : Float} (means : registry.MeansNumber name amount) :
      MeansShare registry (.property name) amount
  | percent (amount : Float) : MeansShare registry (.percent amount) (amount / 100)

/-- The color that a property means. -/
@[mk_iff] inductive Means (registry : Registry) : Name → Color → Prop where
  | literal {name : Name} {text literal : String} {color : Color}
      (held : registry.get? name = some text) (reads : Value.read text = .literal literal)
      (spells : Color.read? literal = some color) : Means registry name color
  | reference {name target : Name} {text : String} {color : Color}
      (held : registry.get? name = some text) (reads : Value.read text = .reference target)
      (means : Means registry target color) : Means registry name color
  | blend {name foreground background : Name} {weight : Weight} {text : String}
      {front back : Color} {share : Float}
      (held : registry.get? name = some text)
      (reads : Value.read text = .blend foreground background weight)
      (frontMeans : Means registry foreground front) (backMeans : Means registry background back)
      (shareMeans : registry.MeansShare weight share) :
      Means registry name (front.blendOver back share)

variable {registry : Registry} {name : Name} {text : String} {weight : Weight} {color : Color}
  {amount : Float}

/-- A blend means the composition of what its operands mean. -/
theorem means_iff_of_blend {foreground background : Name} (held : registry.get? name = some text)
    (reads : Value.read text = .blend foreground background weight) :
    registry.Means name color ↔ ∃ front back share, registry.Means foreground front ∧
      registry.Means background back ∧ registry.MeansShare weight share ∧
      front.blendOver back share = color := by
  constructor
  · intro means
    cases means with
    | blend held' reads' front back share =>
        cases held.symm.trans held'
        cases reads.symm.trans reads'
        exact ⟨_, _, _, front, back, share, rfl⟩
    | literal held' reads' _ | reference held' reads' _ =>
        cases held.symm.trans held'
        cases reads.symm.trans reads'
  · rintro ⟨front, back, share, frontMeans, backMeans, shareMeans, rfl⟩
    exact .blend held reads frontMeans backMeans shareMeans

/-- A property means at most one number. -/
theorem MeansNumber.unique {other : Float} (means : registry.MeansNumber name amount)
    (means' : registry.MeansNumber name other) : amount = other := by
  induction means with
  | literal held reads spells =>
      rw [meansNumber_iff] at means'
      simpa [held, reads, spells] using means'
  | reference held reads _ inductionHypothesis =>
      rw [meansNumber_iff] at means'
      exact inductionHypothesis (by simpa [held, reads] using means')

theorem MeansShare.unique {other : Float} (means : registry.MeansShare weight amount)
    (means' : registry.MeansShare weight other) : amount = other := by
  cases means with
  | property means =>
      cases means' with
      | property means' => exact means.unique means'
  | percent amount =>
      cases means'
      rfl

/-- A property means at most one color. -/
theorem Means.unique {other : Color} (means : registry.Means name color)
    (means' : registry.Means name other) : color = other := by
  induction means generalizing other with
  | literal held reads spells =>
      rw [means_iff] at means'
      simpa [held, reads, spells] using means'
  | reference held reads _ inductionHypothesis =>
      rw [means_iff] at means'
      exact inductionHypothesis (by simpa [held, reads] using means')
  | blend held reads _ _ share frontSame backSame =>
      obtain ⟨_, _, _, front, back, share', rfl⟩ := (means_iff_of_blend held reads).1 means'
      rw [frontSame front, backSame back, share.unique share']

/-! ## Chains of references -/

/-- A chain of so many references leads from a property to another one. -/
inductive ReadsIn (registry : Registry) : (hops : Nat) → Name → Name → Prop where
  | refl (name : Name) : ReadsIn registry 0 name name
  | head {hops : Nat} {reader target reached : Name} (read : registry.Reads reader target)
      (rest : ReadsIn registry hops target reached) : ReadsIn registry (hops + 1) reader reached

/-- Whether every chain of references from a property is shorter than so many. -/
def Within (registry : Registry) (limit : Nat) (name : Name) : Prop :=
  ∀ hops reached, registry.ReadsIn hops name reached → hops < limit

theorem not_within_zero : ¬ registry.Within 0 name :=
  fun within => absurd (within 0 name (.refl name)) (Nat.lt_irrefl 0)

/-- The chains from a property are those from what it reads, one longer. -/
theorem within_succ_iff {limit : Nat} (held : registry.get? name = some text) :
    registry.Within (limit + 1) name ↔
      ∀ target ∈ (Value.read text).references, registry.Within limit target := by
  constructor
  · intro within target read hops reached rest
    exact Nat.lt_of_succ_lt_succ (within (hops + 1) reached (.head ⟨text, held, read⟩ rest))
  · intro below hops reached chain
    cases chain with
    | refl => exact Nat.succ_pos limit
    | head read rest =>
        obtain ⟨text', held', read⟩ := read
        cases held.symm.trans held'
        exact Nat.succ_lt_succ (below _ read _ _ rest)

end Registry

namespace Evaluation

variable {registry : Registry} {name : Name} {color : Color} {amount : Float}

/-- The evaluator finds the number that a property means, if its chain is short enough. -/
theorem numberAt_eq_ok_iff {remaining : Nat} :
    numberAt registry remaining name = .ok amount ↔
      registry.MeansNumber name amount ∧ registry.Within remaining name := by
  induction remaining generalizing name with
  | zero => simp [numberAt, Registry.not_within_zero]
  | succ remaining inductionHypothesis =>
      rw [numberAt, Registry.meansNumber_iff]
      cases held : registry.get? name with
      | none => simp
      | some text =>
          rw [Registry.within_succ_iff held]
          cases reads : Value.read text with
          | literal literal =>
              cases spelled : literalNumber? literal <;> simp [reads, spelled, Value.references]
          | reference target => simp [reads, inductionHypothesis, Value.references]
          | blend foreground background weight => simp [reads]

/-- The evaluator finds the share that the weight of a blend means, if it is near enough. -/
theorem shareOf_eq_ok_iff {remaining : Nat} {weight : Weight} :
    shareOf (numberAt registry remaining) weight = .ok amount ↔
      registry.MeansShare weight amount ∧
        ∀ target ∈ weight.property?.toList, registry.Within remaining target := by
  rw [Registry.meansShare_iff]
  cases weight with
  | property name => simp [shareOf, numberAt_eq_ok_iff, Weight.property?]
  | percent percentage => simp [shareOf, Weight.property?, eq_comm]

/-- A blend renders as a color when its operands do. -/
theorem colorOf_blend_eq_ok_iff {colorAt : Name → Except EvaluationError Color}
    {numberOf : Name → Except EvaluationError Float} {foreground background : Name}
    {weight : Weight} :
    colorOf colorAt numberOf name (.blend foreground background weight) = .ok color ↔
      ∃ front back share, colorAt foreground = .ok front ∧ colorAt background = .ok back ∧
        shareOf numberOf weight = .ok share ∧ front.blendOver back share = color := by
  rw [colorOf]
  cases colorAt foreground with
  | error => simp [bind, Except.bind]
  | ok front =>
      cases colorAt background with
      | error => simp [bind, Except.bind]
      | ok back => cases shareOf numberOf weight <;> simp [bind, Except.bind, pure, Except.pure]

/-- The evaluator finds the color that a property means, if its chains are short enough. -/
theorem colorAt_eq_ok_iff {remaining : Nat} :
    colorAt registry remaining name = .ok color ↔
      registry.Means name color ∧ registry.Within remaining name := by
  induction remaining generalizing name color with
  | zero => simp [colorAt, Registry.not_within_zero]
  | succ remaining inductionHypothesis =>
      cases held : registry.get? name with
      | none =>
          rw [colorAt, Registry.means_iff]
          simp [held]
      | some text =>
          rw [colorAt_succ held, Registry.within_succ_iff held]
          cases reads : Value.read text with
          | literal literal =>
              rw [Registry.means_iff, colorOf]
              cases spelled : Color.read? literal <;>
                simp [held, reads, spelled, Value.references]
          | reference target =>
              rw [Registry.means_iff, colorOf, inductionHypothesis]
              simp [held, reads, Value.references]
          | blend foreground background weight =>
              rw [colorOf_blend_eq_ok_iff, Registry.means_iff_of_blend held reads]
              simp only [inductionHypothesis, shareOf_eq_ok_iff, Value.references,
                List.forall_mem_append, List.forall_mem_cons]
              constructor
              · rintro ⟨front, back, share, ⟨frontMeans, frontNear⟩, ⟨backMeans, backNear⟩,
                  ⟨shareMeans, shareNear⟩, blended⟩
                exact ⟨⟨front, back, share, frontMeans, backMeans, shareMeans, blended⟩,
                  ⟨frontNear, backNear, by simp⟩, shareNear⟩
              · rintro ⟨⟨front, back, share, frontMeans, backMeans, shareMeans, blended⟩,
                  ⟨frontNear, backNear, -⟩, shareNear⟩
                exact ⟨front, back, share, ⟨frontMeans, frontNear⟩, ⟨backMeans, backNear⟩,
                  ⟨shareMeans, shareNear⟩, blended⟩

end Evaluation

/-- A property renders as the color that it means, when no chain of references from it is longer
than the depth of the evaluation, and as none otherwise. Whether it does, and why not, is settled by
the texts of the properties that can be reached from it. -/
theorem Registry.color_computes_meaning (registry : Registry) (name : Name) :
    (∀ color, registry.color name = .ok color ↔
      (∀ other, registry.Means name other ↔ other = color) ∧
        ∀ hops reached, registry.ReadsIn hops name reached → hops ≤ maxEvaluationDepth) ∧
      ∀ other, registry.AgreesFrom other name → registry.color name = other.color name := by
  refine ⟨fun color => ?_, fun other agree => color_congr agree⟩
  have meant : (∀ other, registry.Means name other ↔ other = color) ↔ registry.Means name color :=
    ⟨fun only => (only color).2 rfl, fun means other =>
      ⟨fun means' => means'.unique means, fun same => same ▸ means⟩⟩
  rw [Registry.color, Evaluation.colorAt_eq_ok_iff, meant]
  exact and_congr_right fun _ => forall_congr' fun hops => forall_congr' fun reached =>
    imp_congr_right fun _ => Nat.lt_succ_iff

end Legible
