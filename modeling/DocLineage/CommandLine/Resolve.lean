import DocLineage.CommandLine.Command
import DocLineage.Files.Dump
import DocLineage.Index
import DocLineage.Resolution.Resolve

/-!
# The command that resolves dumps

Reads dumps, resolves inheritance among their doclets in one run or file by file, and writes the
doclets back, with a report and an index if these are asked for.

## Main definitions

* `ResolveOptions` — what is asked for
* `resolveGroups` — the runs over the dumps
* `resolveDumps` — the whole command
* `resolveCommand` — the command as it is called with the words of a command line
-/

namespace DocLineage.CommandLine

/-! ### Options -/

/-- The options of the command. -/
inductive ResolveOption where
  | help | outFile | config | report | index | isolateFiles | verbose
deriving DecidableEq, Repr

/-- The options and the operands of the command. -/
def resolveGrammar : Grammar ResolveOption where
  options := [
    { id := .help, names := ["-h", "--help"], arity := .help },
    { id := .outFile, names := ["-o", "--out-file"], arity := .value, required := true },
    { id := .config, names := ["--config"], arity := .value },
    { id := .report, names := ["--report"], arity := .value },
    { id := .index, names := ["--index"], arity := .value },
    { id := .isolateFiles, names := ["--isolate-files"], arity := .flag },
    { id := .verbose, names := ["-v", "--verbose"], arity := .flag }]
  operand := "inputs"
  repeats := true

/-- The name of the command. -/
def resolveName : String := "doclet-inherit"

/-- How the command is called. -/
def resolveUsage : String :=
  "usage: doclet-inherit [-h] -o OUT_FILE [--config CONFIG] [--report REPORT]\n" ++
  "                      [--index INDEX] [--isolate-files] [-v]\n" ++
  "                      inputs [inputs ...]\n"

/-- The text that explains the command. -/
def resolveHelp : String :=
  resolveUsage ++
  "\n" ++
  "Resolve documentation inheritance in `jsdoc -X` doclet dumps.\n" ++
  "\n" ++
  "positional arguments:\n" ++
  "  inputs                Doclet dump files (*.json, *.yml) or directories\n" ++
  "                        containing them\n" ++
  "\n" ++
  "options:\n" ++
  "  -h, --help            show this help message and exit\n" ++
  "  -o OUT_FILE, --out-file OUT_FILE\n" ++
  "                        Where to write the resolved doclets (JSON)\n" ++
  "  --config CONFIG       Path to configuration file\n" ++
  "  --report REPORT       Write a JSON report of unresolved and ignored\n" ++
  "                        declarations\n" ++
  "  --index INDEX         Write a nested namespace/class index (JSON)\n" ++
  "  --isolate-files       Resolve each input file on its own instead of as one\n" ++
  "                        run\n" ++
  "  -v, --verbose         Log every dependency and merge\n"

/-- What is asked for. -/
structure ResolveOptions where
  inputs : List Path
  /-- Where the doclets are written, if that was said. -/
  outFile : Option Path
  config : Option Text
  report : Option Path
  index : Option Path
  isolateFiles : Bool
  verbose : Bool

/-- What a request asks for. -/
def ResolveOptions.ofRequest (r : Request ResolveOption) : ResolveOptions where
  inputs := (r.operands.getD []).map Path.ofText
  outFile := (r.argument? .outFile).map Path.ofText
  config := r.argument? .config
  report := (r.argument? .report).map Path.ofText
  index := (r.argument? .index).map Path.ofText
  isolateFiles := r.has .isolateFiles
  verbose := r.has .verbose

/-! ### Runs -/

/-- The dumps that are resolved together: all of them, or each on its own. -/
def dumpGroups (isolate : Bool) (dumps : List Path) : List (List Path) :=
  if isolate then dumps.map ([·]) else [dumps]

/-- Resolves one group of dumps. -/
def resolveGroup (config : Config) (report : Report) (dumps : List Path) :
    Command (List Doclet × Report) := do
  let (loaded, notices) := Dump.loadAll (← Command.files) dumps
  Command.note notices
  let doclets ← Command.ofExcept loaded
  Command.note [.resolving doclets.length dumps.length]
  let outcome := Resolution.resolve config doclets report
  Command.note outcome.journal
  Command.check outcome.fault
  return (outcome.doclets, outcome.report.getD report)

/-- Resolves groups of dumps one after the other, all with one report. -/
def resolveGroups (config : Config) (report : Report) :
    List (List Path) → Command (List Doclet × Report)
  | [] => return ([], report)
  | group :: groups => do
    let (doclets, report) ← resolveGroup config report group
    let (more, report) ← resolveGroups config report groups
    return (doclets ++ more, report)

/-! ### Output -/

/-- Writes a value as an indented text; missing directories are made. -/
def writeValue (p : Path) (v : Value) : Command Unit := do
  Command.store (·.makeDirectories p.parent)
  let text ← Command.ofExcept (Json.indented v)
  Command.store (·.writeText p text)

/-- Writes the report; its directory has to exist. -/
def writeReport (p : Path) (report : Report) (clock : Report.Clock) : Command Unit := do
  let text ← Command.ofExcept (Json.indented (report.toValue clock))
  Command.store (·.writeText p text)

/-- Writes the index of the kinds that the configuration names. -/
def writeIndex (p : Path) (config : Config) (doclets : List Doclet) : Command Unit := do
  let kinds ← Command.ofExcept (Index.wantedKinds (config.get "index_kinds" .null))
  let index ← Command.ofExcept (Index.build kinds doclets)
  writeValue p (.map index)

/-- Where a result is to be written, which has to be said. -/
def destination : Option Path → Except Fault Path
  | some p => .ok p
  | none => .error (.lacks .list .parent)

/-- Resolves the dumps that are asked for, and writes what came of it. -/
def resolveDumps (clock : Report.Clock) (o : ResolveOptions) : Command Unit := do
  let dumps ← Command.ofExcept (Dump.collect (← Command.files) o.inputs)
  if dumps.isEmpty then
    throw (.refused
      ("No doclet dumps found under: " ++ Text.join ", " (o.inputs.map Path.toText)))
  let config ← Command.ofExcept (Config.load (← Command.files) o.config)
  let fingerprint ← Command.ofExcept config.fingerprint
  let (doclets, report) ←
    resolveGroups config { fingerprint } (dumpGroups o.isolateFiles dumps)
  let outFile ← Command.ofExcept (destination o.outFile)
  writeValue outFile (.list (doclets.map fun d => .map d.toMapping))
  if let some p := o.report then writeReport p report clock
  if let some p := o.index then writeIndex p config doclets
  Command.say ("Resolved " ++ toString doclets.length ++ " doclets into: " ++ outFile.toText)
  let waiting := report.unresolved.length
  if waiting != 0 then
    Command.say (toString waiting ++ " doclet(s) still wait on undocumented ancestors")

/-- The command as it is called with the words of a command line. -/
def resolveCommand (clock : Report.Clock) (words : List Text) : Command Unit := do
  let o := ResolveOptions.ofRequest (← Command.request resolveGrammar resolveHelp words)
  modify fun w => { w with verbose := o.verbose }
  resolveDumps clock o

end DocLineage.CommandLine
