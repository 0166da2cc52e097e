import Legible.Color.Contrast
import Legible.Live.Evaluation
import Legible.Live.Validation
import Legible.Theme.Computation

/-!
# Inspecting what is live

The registry is compared with a computation. An error is a computed property that is
not set, a literal or a fixed blend weight in the brand or component tier, and a
foreground that cannot be evaluated or is not legible on its background. Pairs that
the computation has already reported are not measured again.
-/

namespace Legible

open Property

namespace Inspection

/-- The issue of a live pair, if there is one. A property that is missing is only an
issue here when the map does not hold it either. -/
def measurePair (map : PropertyMap) (registry : Registry) (foreground background : Name) :
    Option Issue :=
  let failure (error : EvaluationError) : Option Issue :=
    match error with
    | .missing name =>
        if map.contains name then none
        else some (Issue.error .reference foreground.text error.message)
    | _ => some (Issue.error .reference foreground.text error.message)
  match registry.color foreground, registry.color background with
  | .error error, _ => failure error
  | .ok _, .error error => failure error
  | .ok front, .ok back =>
      let ratio := ContrastRatio.between front back
      if ContrastRatio.threshold ≤ ratio then none
      else
        some <|
          (Issue.error .contrast foreground.text ("below AA on " ++ background.text)).withRatio
            ratio.toFloat

/-- The computed properties that are not set. -/
def unsetIssues (map : PropertyMap) (registry : Registry) : List Issue :=
  (map.names.filter fun name => !registry.contains name).map fun name =>
    Issue.error .validation name.text "not set"

/-- The issue of a live text that is no indirection to properties alone. -/
def indirectionIssue? (name : Name) (text : String) : Option Issue :=
  if name.tier.readable?.isNone then none
  else
    let value := Value.read text
    if value.isLiteral then
      some (Issue.error .validation name.text
        ("literal " ++ Text.quote text ++ " in an indirection tier"))
    else if value.hasFixedWeight then
      some (Issue.error .validation name.text
        ("fixed blend weight in " ++ Text.quote text ++ "; must read an opacity token"))
    else none

/-- The live texts that are no indirections to properties alone. -/
def indirectionIssues (registry : Registry) : List Issue :=
  registry.toList.filterMap fun (name, text) => indirectionIssue? name text

/-- Whether a computation has reported that a foreground is not legible. -/
def isKnown (issues : List Issue) (foreground : Name) : Bool :=
  issues.any fun issue =>
    (issue.kind == .exhausted || issue.kind == .onTone) && issue.locus == foreground.text

/-- The live pairs that are not legible or cannot be evaluated. -/
def pairIssues (computation : Computation) (registry : Registry) : List Issue :=
  computation.map.pairs.filterMap fun (foreground, background) =>
    if isKnown computation.issues foreground then none
    else measurePair computation.map registry foreground background

end Inspection

/-- Every live problem in a registry. -/
def Computation.liveIssues (computation : Computation) (registry : Registry) : List Issue :=
  Inspection.unsetIssues computation.map registry ++ Inspection.indirectionIssues registry ++
    Inspection.pairIssues computation registry

end Legible
