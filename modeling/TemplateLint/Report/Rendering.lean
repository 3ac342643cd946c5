import TemplateLint.Json.Printer
import TemplateLint.Report.Basic

/-!
# Renderings of a report

A report is shown as text, one numbered line for each finding under a heading for its severity, or
as JSON. Both may name the template it is about.
-/

namespace TemplateLint

/-! ### As text -/

/-- A finding under its number, with the hint on a line of its own if hints are wanted. -/
def Diagnostic.lines (hints : Bool) (number : Nat) (d : Diagnostic) : List String :=
  let hint := d.hint.getD ""
  (toString number ++ ". " ++ d.message ++ " (" ++ d.code ++ ")") ::
    if hints && hint != "" then ["   hint: " ++ hint] else []

namespace Report

/-- Findings numbered from one. -/
def numbered (hints : Bool) (findings : List Diagnostic) : List String :=
  (findings.zipIdx 1).flatMap fun (d, number) => d.lines hints number

/-- The findings of one bucket under a heading; an empty bucket is left out. -/
def titled (title : String) (hints : Bool) (findings : List Diagnostic) : List String :=
  if findings.isEmpty then [] else ["", title, ""] ++ numbered hints findings

/-- The first line, which names the template if it has a name. -/
def header (source : Option String) : String :=
  let name := source.getD ""
  "Sline Template Validation Results" ++ if name = "" then "" else " for: " ++ name

/-- The verdict, with the errors if there are any. -/
def verdict (report : Report) (hints : Bool) : List String :=
  if report.isValid then ["Template is valid!"]
  else ["Template has errors:", ""] ++ numbered hints report.errors

/-- The lines of the report. -/
def lines (report : Report) (source : Option String) (hints : Bool) : List String :=
  [header source, ""] ++ report.verdict hints ++ titled "Warnings:" hints report.warnings ++
    titled "Suggestions:" hints report.suggestions

/-- The report as text. -/
def renderText (report : Report) (source : Option String) (hints : Bool) : String :=
  String.intercalate "\n" (report.lines source hints) ++ "\n"

end Report

/-! ### As JSON -/

/-- A finding with the offset at which it stands, if it stands somewhere. -/
def Diagnostic.toJson (d : Diagnostic) : Json :=
  .object ([("type", .text d.code), ("message", .text d.message)] ++
    (d.position.map fun offset => ("position", Json.number offset)).toList)

namespace Report

/-- The three buckets and the verdict. -/
def members (report : Report) : List (String × Json) :=
  [("errors", .array (report.errors.map Diagnostic.toJson)),
    ("warnings", .array (report.warnings.map Diagnostic.toJson)),
    ("suggestions", .array (report.suggestions.map Diagnostic.toJson)),
    ("isValid", .boolean report.isValid)]

/-- The report, after the name of the template if one is given. -/
def toJson (report : Report) (source : Option String) : Json :=
  .object ((source.map fun name => ("source", Json.text name)).toList ++ report.members)

/-- The report as printed JSON. -/
def renderJson (report : Report) (source : Option String) : String :=
  (report.toJson source).render

end Report

end TemplateLint
