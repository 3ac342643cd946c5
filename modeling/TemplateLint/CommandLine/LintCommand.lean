import TemplateLint.CommandLine.Outcome
import TemplateLint.Report.Rendering

/-!
# The lint command

The command judges every template it is given, files by themselves and directories by the
templates below them, and writes one report for each. A template that cannot be read is
complained about, and the others are judged all the same. The exit status is the worst thing that
happened: `2` if a template could not be read, else `1` if one has errors, else `0`.

The command goes through its templates one by one and writes about each before it looks at the next
one (`LintCommand.record`), so that what it has written stays when something breaks it off.
-/

namespace TemplateLint.CommandLine

open TemplateLint.Files

/-- How reports are written. -/
inductive ReportFormat where
  | text
  | json
  deriving DecidableEq

/-- What the lint command is asked to do. -/
structure LintSettings where
  paths : List Path := []
  format : ReportFormat := .text
  /-- The codes that are switched off, and nothing where one was left blank. -/
  disabled : List (Option String) := []
  hints : Bool := false
  verbose : Bool := false

namespace LintCommand

/-! ### Arguments -/

/-- Chooses the format of reports. -/
def setFormat (format : ReportFormat) (settings : LintSettings) : LintSettings :=
  { settings with format }

/-- Reads the format of reports. -/
def readFormat (value : String) : Except ValueFault (LintSettings → LintSettings) :=
  match value with
  | "text" => .ok (setFormat .text)
  | "json" => .ok (setFormat .json)
  | _ => .error (.notAmong ["text", "json"])

/-- Switches one more code off. -/
def disable (code : Option String) (settings : LintSettings) : LintSettings :=
  { settings with disabled := settings.disabled ++ [code] }

/-- Reads a code that is to be switched off. -/
def readDisabled (value : String) : Except ValueFault (LintSettings → LintSettings) :=
  match Kind.ofCode? value with
  | some kind => .ok (disable (some kind.code))
  | none => .error (.notAmong (Kind.all.map Kind.code))

/-- The arguments of the lint command. A format that is left blank is text. -/
def interface : Interface LintSettings where
  program := "slinepy"
  usage :=
    "usage: slinepy [-h] [--format \x7btext,json\x7d] [--disable CODE] [--hints]\n" ++
    "               [--verbose]\n" ++
    "               paths [paths ...]\n"
  manual :=
    "\n" ++
    "Check Sline templates for syntax errors, style issues and performance risks\n" ++
    "\n" ++
    "positional arguments:\n" ++
    "  paths                 Template files or directories to validate\n" ++
    "\n" ++
    "options:\n" ++
    "  -h, --help            show this help message and exit\n" ++
    "  --format \x7btext,json\x7d  Report output format (default: text)\n" ++
    "  --disable CODE        Skip the rule producing this diagnostic code\n" ++
    "                        (repeatable)\n" ++
    "  --hints               Show a fix hint under each text-format diagnostic\n" ++
    "  --verbose             Log per-rule debug output\n"
  switches := [
    ⟨["-h", "--help"], .help⟩,
    ⟨["--format"], .value readFormat (setFormat .text)⟩,
    ⟨["--disable"], .value readDisabled (disable none)⟩,
    ⟨["--hints"], .flag fun settings => { settings with hints := true }⟩,
    ⟨["--verbose"], .flag fun settings => { settings with verbose := true }⟩]
  operand := "paths"
  repeated := true
  store operands settings := { settings with paths := operands.map Path.parse }

/-! ### What is logged -/

/-- The line that a rule leaves in the log. -/
def ruleLine : RuleRun → String
  | .skipped rule =>
    "DEBUG slinepy.lint.scanner: Skipping disabled rule " ++ rule.name ++ " (" ++ rule.code ++
      ")\n"
  | .completed rule found =>
    "DEBUG slinepy.lint.scanner: Rule " ++ rule.category ++ "/" ++ rule.name ++ " produced " ++
      toString found.length ++ " diagnostic(s)\n"

/-- The lines that a run leaves in the log. -/
def logLines (run : LintRun) : String :=
  String.join (run.runs.map ruleLine) ++ "DEBUG slinepy.lint.runner: Linted " ++
    toString run.source.length ++ " chars: " ++ toString run.report.errors.length ++
    " error(s), " ++ toString run.report.warnings.length ++ " warning(s), " ++
    toString run.report.suggestions.length ++ " suggestion(s)\n"

/-! ### Judging templates -/

/-- What became of one template. -/
inductive Verdict where
  | unreadable (error : LoadError)
  | judged (path : Path) (run : LintRun)

namespace Verdict

/-- The exit status after the template. One that cannot be read makes it `2` in any case, and one
that has errors makes it `1` unless something was wrong before. -/
def statusAfter (status : Nat) : Verdict → Nat
  | .unreadable _ => 2
  | .judged _ run => if hasErrors run.report.diagnostics && status == 0 then 1 else status

/-- What the template adds to the output. -/
def output (settings : LintSettings) : Verdict → String
  | .unreadable _ => ""
  | .judged path run =>
    match settings.format with
    | .json => run.report.renderJson (some path.display) ++ "\n"
    | .text => run.report.renderText (some path.display) settings.hints ++ "\n"

/-- What the template adds to the errors. In verbose mode the complaint about a template that cannot
be read follows a line `DEBUG slinepy.cli: Load failure for` with its path, and a trace of where
loading failed; a trace is about the running program and not about the template, and the line is
left out here together with it. -/
def errors (settings : LintSettings) : Verdict → String
  | .unreadable error => "Error: " ++ error.message ++ "\n"
  | .judged _ run => if settings.verbose then logLines run else ""

end Verdict

/-- What has been written and the exit status after one more template. -/
def record (settings : LintSettings) (outcome : Outcome) (verdict : Verdict) : Outcome where
  status := verdict.statusAfter outcome.status
  output := outcome.output ++ verdict.output settings
  errors := outcome.errors ++ verdict.errors settings

/-- The templates that an argument stands for, as far as they can be listed. A path that is no
directory stands for itself, so that a missing file is complained about. -/
def listingAt (fs : FileSystem) (root : Path) : Listing :=
  match fs.isDirectory root with
  | .error error => { paths := [], obstacle := some error }
  | .ok true => listTemplates fs root
  | .ok false => { paths := [root] }

/-- The templates that an argument stands for. -/
def templatesAt (fs : FileSystem) (root : Path) : Except PathTooLong (List Path) :=
  (listingAt fs root).complete

/-- Judges one template. -/
def judge (fs : FileSystem) (options : Options) (path : Path) : Except Breakdown Verdict :=
  match loadTemplate fs path with
  | .error .embeddedNul => .error (.load .embeddedNul)
  | .error (.unreadable error) => .ok (.unreadable error)
  | .ok source => ((lint source options).map (.judged path)).mapError .lint

/-- The options with codes switched off. The codes of a command were read from the catalogue, so
none is refused. -/
def options (codes : List String) : Options :=
  match ({} : Options).withDisabled codes with
  | .ok options => options
  | .error _ => {}

/-! ### The command at work -/

/-- Judges one template and writes about it. -/
def lintTemplate (fs : FileSystem) (settings : LintSettings) (options : Options) (path : Path)
    (outcome : Outcome) : Course :=
  match judge fs options path with
  | .error breakdown => { outcome, breakdown }
  | .ok verdict => { outcome := record settings outcome verdict }

/-- Judges the templates that an argument stands for while they are listed, so that those before
what ends the list have been written about. -/
def lintArgument (fs : FileSystem) (settings : LintSettings) (options : Options) (root : Path)
    (outcome : Outcome) : Course :=
  let listing := listingAt fs root
  (Course.inTurn (lintTemplate fs settings options) listing.paths outcome).andThen fun outcome =>
    { outcome, breakdown := listing.obstacle.map .pathTooLong }

/-- The course of the lint command. A code that was left blank is found before any template is
looked at. -/
def course (fs : FileSystem) (settings : LintSettings) : Course :=
  match settings.disabled.mapM id with
  | none => { outcome := { status := 0 }, breakdown := some .blankCode }
  | some codes =>
    Course.inTurn (lintArgument fs settings (options codes)) settings.paths { status := 0 }

/-- Carries the lint command out. -/
def carryOut (fs : FileSystem) (settings : LintSettings) : Except Breakdown Outcome :=
  (course fs settings).ending

/-- The course of the lint command with its arguments. -/
def start (fs : FileSystem) (arguments : List String) : Course :=
  interface.dispatch {} arguments (course fs)

/-- The lint command with its arguments. -/
def run (fs : FileSystem) (arguments : List String) : Except Breakdown Outcome :=
  (start fs arguments).ending

end LintCommand

end TemplateLint.CommandLine
