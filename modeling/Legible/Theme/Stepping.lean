import Legible.Color.Contrast
import Legible.Issue
import Legible.Token.Ramp

/-!
# The nearest legible level of a ramp

From a start level the search walks a ramp by positions, alternating between the
darker and the lighter side, the darker first; past one end it goes on along the
other side, so that every level is visited once. A level counts as legible when
its color, composited over the background at the wanted opacity, is legible on
that background. The first such level wins; when there is none, the first level of
the walk comes back marked as not legible.
-/

namespace Legible

open Token

/-- Takes from two lists in turn, beginning with the first, until one is used up,
and then the rest of the other. -/
def alternate {α : Type} : List α → List α → List α
  | [], second => second
  | first, [] => first
  | first :: firsts, second :: seconds => first :: second :: alternate firsts seconds

/-- Taking in turn keeps every element of both lists. -/
theorem alternate_perm {α : Type} (first second : List α) :
    (alternate first second).Perm (first ++ second) := by
  induction first generalizing second with
  | nil => simp [alternate]
  | cons head tail inductionHypothesis =>
      cases second with
      | nil => simp [alternate]
      | cons other others =>
          have rest : (other :: alternate tail others).Perm (tail ++ other :: others) :=
            ((inductionHypothesis others).cons other).trans List.perm_middle.symm
          simpa [alternate] using rest

namespace Ramp

/-- The levels around a position: itself, then the darker and the lighter
neighbours in turn. -/
def outward (levels : List Level) (origin : Nat) : List Level :=
  (levels.drop origin).take 1 ++
    alternate (levels.drop (origin + 1)) (levels.take origin).reverse

/-- The position where a search for a level begins: that of the level, or of the
nearest one when the ramp does not have it. -/
def origin? (ramp : Ramp) (start : Level) : Option Nat :=
  (ramp.position? start).orElse fun _ => (ramp.nearest? start).bind ramp.position?

/-- The levels of a ramp in the order in which a search visits them. -/
def searchOrder (ramp : Ramp) (start : Level) : List Level :=
  match ramp.origin? start with
  | some origin => outward ramp.levels origin
  | none => []

end Ramp

/-- A level of a ramp as it reads on a background. -/
structure Candidate where
  level : Level
  color : Color
  /-- The color composited over the background. -/
  composite : Color
  ratio : ContrastRatio
  deriving DecidableEq, Repr

namespace Candidate

/-- Measures a color of a level on a background. -/
def measure (level : Level) (color background : Color) (opacity : Float) : Candidate :=
  let composite := color.blendOver background opacity
  ⟨level, color, composite, ContrastRatio.between composite background⟩

/-- Whether the level is legible on its background. -/
def isLegible (candidate : Candidate) : Bool :=
  decide (ContrastRatio.threshold ≤ candidate.ratio)

end Candidate

/-- The outcome of a search. -/
structure Step where
  chosen : Candidate
  isLegible : Bool
  /-- The levels that were examined, in order. -/
  tried : List Level
  deriving DecidableEq, Repr

namespace Step

/-- The first legible candidate, or the first of all. -/
def choose? (candidates : List Candidate) : Option Step :=
  let failing := candidates.takeWhile fun candidate => !candidate.isLegible
  match candidates.dropWhile fun candidate => !candidate.isLegible with
  | legible :: _ => some ⟨legible, true, (failing ++ [legible]).map Candidate.level⟩
  | [] => failing.head?.map fun first => ⟨first, false, failing.map Candidate.level⟩

/-- The issue of a search without a legible level. -/
def issue? (step : Step) (locus : String) (ramp : Ramp) : Option Issue :=
  if step.isLegible then none
  else
    some <|
      (Issue.warning .exhausted locus
        ("no level of ramp " ++ Text.quote ramp.name ++ " reaches AA; kept " ++
          (ramp.path step.chosen.level).text)).withRatio step.chosen.ratio.toFloat

end Step

namespace Ramp

/-- The levels in search order as they read on a background. -/
def candidates (ramp : Ramp) (start : Level) (background : Color) (opacity : Float) :
    List Candidate :=
  (ramp.searchOrder start).filterMap fun level =>
    (ramp.color? level).map fun color => Candidate.measure level color background opacity

/-- Searches a ramp from a start level; only an empty ramp has no outcome. -/
def search? (ramp : Ramp) (start : Level) (background : Color) (opacity : Float) : Option Step :=
  Step.choose? (ramp.candidates start background opacity)

end Ramp

end Legible
