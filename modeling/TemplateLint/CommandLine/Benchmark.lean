import TemplateLint.CommandLine.Outcome

/-!
# The benchmark command

The command loads the templates below a directory, validates all of them several times over, and
writes how many there are, what was found in them, and how long it took. What was found is the same
in every run; the times are measured outside and come in as `Figures`.
-/

namespace TemplateLint.CommandLine

open TemplateLint.Files

/-- What the benchmark command is asked to do. -/
structure BenchmarkSettings where
  root : Path := ⟨.here, []⟩
  /-- How many runs are measured; nothing if that was left blank. -/
  runs : Option Int := some 5
  /-- How many runs come before those that are measured; nothing if that was left blank. -/
  warmups : Option Int := some 1
  progress : Bool := true

/-- The figures of a benchmark, as they are written. -/
structure Figures where
  best : String
  median : String
  mean : String
  worst : String
  /-- Templates in a second, on average. -/
  rate : String

/-- Figures that are kept back. -/
def Figures.masked : Figures := ⟨"#", "#", "#", "#", "#"⟩

namespace Benchmark

/-- An option whose value is a whole number. -/
def integerOption (set : Option Int → BenchmarkSettings → BenchmarkSettings) :
    Action BenchmarkSettings :=
  let read (value : String) : Except ValueFault (BenchmarkSettings → BenchmarkSettings) :=
    match Text.readInt? value with
    | some n => .ok (set (some n))
    | none => .error .notInteger
  .value read (set none)

/-- The arguments of the benchmark command. -/
def interface : Interface BenchmarkSettings where
  program := "time_validate.py"
  usage :=
    "usage: time_validate.py [-h] [--runs RUNS] [--warmups WARMUPS] [--no-progress]\n" ++
    "                        root\n"
  manual :=
    "\n" ++
    "Benchmark template validation throughput\n" ++
    "\n" ++
    "positional arguments:\n" ++
    "  root               Directory of templates to validate\n" ++
    "\n" ++
    "options:\n" ++
    "  -h, --help         show this help message and exit\n" ++
    "  --runs RUNS        Measured runs\n" ++
    "  --warmups WARMUPS  Warmup runs\n" ++
    "  --no-progress      Disable tqdm progress bars (useful for pure timing)\n"
  switches := [
    ⟨["-h", "--help"], .help⟩,
    ⟨["--runs"], integerOption fun n settings => { settings with runs := n }⟩,
    ⟨["--warmups"], integerOption fun n settings => { settings with warmups := n }⟩,
    ⟨["--no-progress"], .flag fun settings => { settings with progress := false }⟩]
  operand := "root"
  repeated := false
  store operands settings := { settings with root := Path.parse (operands.head?.getD "") }

/-- What was found in a set of templates. -/
structure Census where
  templates : Nat
  /-- How many of them have errors. -/
  invalid : Nat
  diagnostics : Nat

/-- The census of reports, one for each template. -/
def Census.ofReports (reports : List Report) : Census where
  templates := reports.length
  invalid := (reports.filter fun report => !report.isValid).length
  diagnostics := (reports.flatMap Report.diagnostics).length

/-- What the command writes at its end. -/
def summary (root : Path) (census : Census) (figures : Figures) : String :=
  "Dataset: " ++ root.display ++ "\n" ++
  "Templates: " ++ toString census.templates ++ " (" ++ toString census.invalid ++
    " invalid)\n" ++
  "Diagnostics: " ++ toString census.diagnostics ++ "\n" ++
  "Best:   " ++ figures.best ++ "s\n" ++
  "Median: " ++ figures.median ++ "s\n" ++
  "Mean:   " ++ figures.mean ++ "s\n" ++
  "Worst:  " ++ figures.worst ++ "s\n" ++
  "Templates/s (mean): " ++ figures.rate ++ "\n"

/-- Ends the command with a complaint. -/
def refuse (complaint : String) : Outcome :=
  { status := 1, errors := complaint ++ "\n" }

/-- Carries the benchmark out. Templates are loaded while they are listed, so that one that cannot
be read is complained about before what ends the list. A count that was left blank is found when the
templates have been loaded. -/
def carryOut (fs : FileSystem) (figures : Figures) (settings : BenchmarkSettings) :
    Except Breakdown Outcome := do
  let root := settings.root
  if !(← (fs.isDirectory root).mapError .pathTooLong) then
    return refuse ("Invalid template root: " ++ root.display)
  let listing := listTemplates fs root
  let templates ← listing.paths.mapM fun path => (loadTemplate fs path).mapError .load
  if let some error := listing.obstacle then
    throw (.pathTooLong error)
  if templates.isEmpty then
    return refuse ("No templates found under " ++ root.display)
  if settings.warmups.isNone || settings.runs.isNone then
    throw .blankCount
  let reports ← templates.mapM fun source => (validate source).mapError .lint
  return { status := 0, output := summary root (Census.ofReports reports) figures }

/-- The benchmark command with its arguments. It writes nothing before its end. -/
def run (fs : FileSystem) (figures : Figures) (arguments : List String) :
    Except Breakdown Outcome :=
  (interface.dispatch {} arguments fun settings => .atOnce (carryOut fs figures settings)).ending

end Benchmark

end TemplateLint.CommandLine
