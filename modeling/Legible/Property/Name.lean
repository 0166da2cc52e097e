import Legible.Theme.Mode
import Legible.Token.Path

/-!
# Names of output properties

A property name begins with `--`. Three tiers of names are managed:
`--tokens-…` for token values, `--brand-<mode>-<subsystem>-…` for what a theme
derives, and `--ui-…` for component bindings. All other names are foreign.
-/

namespace Legible.Property

/-- The tier of a property name. -/
inductive Tier where
  | tokens
  | brand
  | ui
  | foreign
  deriving DecidableEq, Repr

/-- The written form of a tier. -/
def Tier.text : Tier → String
  | .tokens => "tokens"
  | .brand => "brand"
  | .ui => "ui"
  | .foreign => "foreign"

/-- A property name with its leading dashes. -/
structure Name where
  text : String
  deriving DecidableEq, Repr

namespace Name

instance : Ord Name := ⟨compareOn text⟩

instance : Std.TransOrd Name := inferInstanceAs (Std.TransCmp (compareOn text))

instance : Std.LawfulEqOrd Name where
  eq_of_compare {left right} equal := by
    have same : compare left.text right.text = .eq := equal
    cases left
    cases right
    simpa using same

/-- Whether a text begins with the given characters. -/
def beginsWith (start text : String) : Bool :=
  start.toList.isPrefixOf text.toList

/-- The name that a text stands for; missing dashes are added. -/
def ofText (text : String) : Name :=
  if beginsWith "--" text then ⟨text⟩ else ⟨"--" ++ text⟩

/-- The segments of a path, each after a dash. -/
def dashed (path : List String) : String :=
  String.join (path.map fun segment => "-" ++ segment)

/-- The name of a token's property. -/
def ofToken (path : Token.Path) : Name :=
  ⟨"--tokens" ++ dashed path.segments⟩

/-- The name of a brand property. -/
def brand (mode : Mode) (subsystem : Subsystem) (path : List String) : Name :=
  ⟨"--brand" ++ dashed (mode.text :: subsystem.text :: path)⟩

/-- The name of a component property. -/
def ui (path : List String) : Name :=
  ⟨"--ui-" ++ String.intercalate "-" path⟩

/-- The tier that a name belongs to. -/
def tier (name : Name) : Tier :=
  if beginsWith "--tokens-" name.text then .tokens
  else if beginsWith "--brand-" name.text then .brand
  else if beginsWith "--ui-" name.text then .ui
  else .foreign

/-- The mode that a brand name carries. -/
def mode? (name : Name) : Option Mode :=
  if beginsWith "--brand-" name.text then
    let rest := name.text.toList.drop 8
    Mode.read? (String.ofList (rest.takeWhile (· != '-')))
  else none

/-- Whether a name belongs to a managed tier. -/
def isManaged (name : Name) : Bool := name.tier != .foreign

end Name

end Legible.Property
