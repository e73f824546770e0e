import DocLineage.CommandLine.Command

/-!
# The command that dumps and resolves

Two programs are run one after the other: one that dumps the doclets of a source tree into a file,
and the resolver on that file. How programs are run is left open; the command decides what is run
and what follows from the status of a program.

## Main definitions

* `execute` — runs one program
* `PipelineOptions` — what is asked for
* `pipelineCommand` — the command as it is called with the words of a command line
-/

namespace DocLineage.CommandLine

/-! ### Programs -/

/-- The status that a program ends with, and what it writes. -/
structure ExecutionResult where
  status : Int := 0
  output : String := ""

/-- The means to run programs: what comes of a program after a number of others. -/
abbrev Runner := Nat → Execution → ExecutionResult

/-- Makes the file that takes what a program writes. -/
def prepareOutput (p : Path) : Command Unit := do
  Command.store (·.makeDirectories p.parent)
  Command.store (·.writeText p "")

/-- Runs a program. A status other than zero ends the command. -/
def execute (run : Runner) (e : Execution) : Command Unit := do
  Command.say ("Running: " ++ e.line)
  if let some p := e.outputFile then prepareOutput p
  let result := run (← get).executed.length e
  modify fun w => { w with executed := w.executed ++ [e] }
  if let some p := e.outputFile then Command.store (·.writeText p result.output)
  if result.status != 0 then
    Command.say ("Error executing command: " ++ e.line)
    throw (.left result.status)

/-! ### Options -/

/-- The options of the command. -/
inductive PipelineOption where
  | help | outDir | config | jsdocConfig
deriving DecidableEq, Repr

/-- The options and the operands of the command. -/
def pipelineGrammar : Grammar PipelineOption where
  options := [
    { id := .help, names := ["-h", "--help"], arity := .help },
    { id := .outDir, names := ["--out-dir"], arity := .value },
    { id := .config, names := ["--config"], arity := .value },
    { id := .jsdocConfig, names := ["--jsdoc-config"], arity := .value }]
  operand := "source_dir"
  repeats := false

/-- The name of the command. -/
def pipelineName : String := "main.py"

/-- How the command is called. -/
def pipelineUsage : String :=
  "usage: main.py [-h] [--out-dir OUT_DIR] [--config CONFIG]\n" ++
  "               [--jsdoc-config JSDOC_CONFIG]\n" ++
  "               source_dir\n"

/-- The text that explains the command. -/
def pipelineHelp : String :=
  pipelineUsage ++
  "\n" ++
  "Dump JSDoc doclets and resolve documentation inheritance.\n" ++
  "\n" ++
  "positional arguments:\n" ++
  "  source_dir            JavaScript source tree to document\n" ++
  "\n" ++
  "options:\n" ++
  "  -h, --help            show this help message and exit\n" ++
  "  --out-dir OUT_DIR     Directory for the raw dump, resolved doclets and\n" ++
  "                        report\n" ++
  "  --config CONFIG       Path to configuration file\n" ++
  "  --jsdoc-config JSDOC_CONFIG\n" ++
  "                        JSDoc configuration file (must allow unknown tags)\n"

/-- What is asked for. -/
structure PipelineOptions where
  sourceDir : Path
  outDir : Path
  config : Option Text
  jsdocConfig : Option Text

/-- An argument that is not empty. -/
def nonempty? (t : Option Text) : Option Text := t.filter (!·.isEmpty)

/-- The directory for the results; one is used by default, but not where an option was given without
its argument. -/
def outputDirectory (r : Request PipelineOption) : Except Fault Path :=
  match r.arguments? .outDir with
  | none => .ok (Path.ofText "doclets_out")
  | some [] => .error (.notPath .list)
  | some (t :: _) => .ok (Path.ofText t)

/-- What a request asks for. -/
def PipelineOptions.ofRequest (r : Request PipelineOption) : Except Fault PipelineOptions := do
  return {
    sourceDir := Path.ofText (((r.operands.getD []).head?).getD [])
    outDir := ← outputDirectory r
    config := nonempty? (r.argument? .config)
    jsdocConfig := nonempty? (r.argument? .jsdocConfig) }

namespace PipelineOptions

/-- An option with its argument, if there is one. -/
def withArgument (name : Text) : Option Text → List Text
  | none => []
  | some t => [name, t]

/-- The file for the dump before it is resolved. -/
def rawDump (o : PipelineOptions) : Path := o.outDir.child "doclets.raw.json"

/-- The program that dumps the doclets of the source tree. -/
def dumping (o : PipelineOptions) : Execution where
  words := (["jsdoc", "-X", "-r", o.sourceDir.toText] : List Text) ++ withArgument "-c" o.jsdocConfig
  outputFile := o.rawDump

/-- The words that start the resolver. -/
def resolverWords : List Text := ["python", "-m", "doclet_inherit.resolve_inheritance"]

/-- The program that resolves the dump. -/
def resolving (o : PipelineOptions) : Execution where
  words := resolverWords ++ [
    o.rawDump.toText,
    "--out-file", (o.outDir.child "doclets.json").toText,
    "--report", (o.outDir.child "resolution_report.json").toText,
    "--index", (o.outDir.child "index.json").toText] ++ withArgument "--config" o.config
  outputFile := none

end PipelineOptions

/-! ### The command -/

/-- The command as it is called with the words of a command line, with the means to run programs. -/
def pipelineCommand (run : Runner) (words : List Text) : Command Unit := do
  let request ← Command.request pipelineGrammar pipelineHelp words
  let o ← Command.ofExcept (PipelineOptions.ofRequest request)
  Command.say "--- Step 1: Dumping doclets with jsdoc -X ---"
  execute run o.dumping
  Command.say "\n--- Step 2: Resolving inherited documentation ---"
  execute run o.resolving
  Command.say ("\nSUCCESS: Resolved doclets written to " ++ o.outDir.toText)

end DocLineage.CommandLine
