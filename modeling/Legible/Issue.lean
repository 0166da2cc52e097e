import Legible.Json.Writer
import Legible.Numeric.Places
import Legible.Text.Quoted

/-!
# Issues and reports

An issue is one finding about a property or a place in a document. Issues are
values, never failures: whoever finds one records it and goes on. A report is a
list of issues with a text and a JSON form.
-/

namespace Legible

/-- What an issue is about. -/
inductive IssueKind where
  /-- A token that was left out of the index. -/
  | invalidToken
  /-- Neither anchor is legible on a palette tone. -/
  | onTone
  /-- No level of a ramp is legible. -/
  | exhausted
  /-- A binding that leads nowhere. -/
  | reference
  /-- A live pair of properties that is not legible. -/
  | contrast
  /-- A write that is no indirection and cannot be repaired. -/
  | validation
  deriving DecidableEq, Repr

/-- The written form of a kind. -/
def IssueKind.text : IssueKind → String
  | .invalidToken => "invalid-token"
  | .onTone => "on-tone"
  | .exhausted => "exhausted"
  | .reference => "reference"
  | .contrast => "contrast"
  | .validation => "validation"

/-- Every kind. -/
def IssueKind.all : List IssueKind :=
  [.invalidToken, .onTone, .exhausted, .reference, .contrast, .validation]

/-- The kind with a written form. -/
def IssueKind.read? (text : String) : Option IssueKind :=
  IssueKind.all.find? fun kind => kind.text == text

/-- How serious an issue is. -/
inductive Severity where
  | warning
  | error
  deriving DecidableEq, Repr

/-- The written form of a severity. -/
def Severity.text : Severity → String
  | .warning => "warning"
  | .error => "error"

/-- The severity with a written form. -/
def Severity.read? (text : String) : Option Severity :=
  [.warning, .error].find? fun severity => severity.text == text

/-- One finding. -/
structure Issue where
  kind : IssueKind
  /-- The property name or document path that the issue is about. -/
  locus : String
  severity : Severity
  message : String
  /-- The contrast that was measured, if any. -/
  ratio : Option Float
  deriving DecidableEq, Repr

namespace Issue

/-- An issue that is only reported. -/
def warning (kind : IssueKind) (locus message : String) : Issue :=
  ⟨kind, locus, .warning, message, none⟩

/-- An issue that may be fixed. -/
def error (kind : IssueKind) (locus message : String) : Issue :=
  ⟨kind, locus, .error, message, none⟩

/-- The issue with a measured contrast. -/
def withRatio (issue : Issue) (ratio : Float) : Issue :=
  { issue with ratio := some ratio }

/-- Whether an issue is an error. -/
def isError (issue : Issue) : Bool := issue.severity == .error

/-- What stays the same when an issue is found again: its kind and its locus. -/
def fingerprint (issue : Issue) : String :=
  issue.kind.text ++ ":" ++ issue.locus

/-- An issue on one line; the ratio has two places. -/
def text (issue : Issue) : String :=
  issue.severity.text ++ "[" ++ issue.kind.text ++ "] " ++ issue.locus ++ ": " ++ issue.message ++
    match issue.ratio with
    | some ratio => " (" ++ Numeric.Places.ofFloat ratio 2 ++ ":1)"
    | none => ""

/-- An issue as a JSON object; the ratio is left out when there is none. -/
def toJson (issue : Issue) : Json :=
  .object
    ([("kind", .text issue.kind.text), ("locus", .text issue.locus)] ++
      (issue.ratio.map fun ratio => ("measured_ratio", Json.ofFloat ratio)).toList ++
      [("severity", .text issue.severity.text), ("message", .text issue.message)])

end Issue

/-- A list of issues in the order they were found. -/
structure Report where
  issues : List Issue

namespace Report

/-- The report without issues. -/
def empty : Report := ⟨[]⟩

/-- The report with further issues at its end. -/
def extend (report : Report) (issues : List Issue) : Report := ⟨report.issues ++ issues⟩

/-- The errors of a report. -/
def errors (report : Report) : List Issue := report.issues.filter Issue.isError

/-- The warnings of a report. -/
def warnings (report : Report) : List Issue := report.issues.filter fun issue => !issue.isError

/-- Whether a report has an error. -/
def hasErrors (report : Report) : Bool := report.issues.any Issue.isError

/-- One issue a line, then a line of totals. -/
def text (report : Report) : String :=
  String.join (report.issues.map fun issue => issue.text ++ "\n") ++
    toString report.errors.length ++ " error(s), " ++
    toString (report.issues.length - report.errors.length) ++ " warning(s)\n"

/-- The JSON text of a report, one entry a line. -/
def jsonText (report : Report) : String :=
  (Json.object [("issues", .array (report.issues.map Issue.toJson))]).renderPretty

end Report

end Legible
