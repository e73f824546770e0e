import DocLineage.CommandLine.Options
import DocLineage.Files.Tree
import DocLineage.Journal

/-!
# Commands

A command changes files, writes lines and notes what happens, until it ends in one way or another.
What it did before a failure stays done.

## Main definitions

* `Ending` — the ways in which a command ends
* `Execution` — a program that a command runs
* `World` — what a command can change
* `Command`, `Command.runIn` — commands and what they leave
-/

namespace DocLineage.CommandLine

/-- The ways in which a command ends. -/
inductive Ending where
  | finished
  /-- The command leaves with a status. -/
  | left (status : Int)
  /-- The command leaves with a message, since there is nothing to do. -/
  | refused (message : Text)
  | misused (m : Misuse)
  /-- The command has shown how it is used. -/
  | explained
  | failed (fault : Fault)
deriving DecidableEq, Repr

/-- A program to be run: its words, and the file that takes what it writes. -/
structure Execution where
  words : List Text
  outputFile : Option Path
deriving DecidableEq, Repr

/-- The words on one line. -/
def Execution.line (e : Execution) : Text := Text.join " " e.words

/-- What a command can change: files, the lines that it writes, its journal, and the programs that
it has run. -/
structure World where
  storage : Storage
  output : Text := []
  journal : List Notice := []
  executed : List Execution := []
  /-- Notices below a warning are shown too. -/
  verbose : Bool := false

/-- The notices that are shown. -/
def World.shown (w : World) : List Notice :=
  if w.verbose then w.journal else w.journal.filter fun n => n.level == .warning

/-- Something that changes the world and may end early. -/
abbrev Command (α : Type) := ExceptT Ending (StateM World) α

namespace Command

/-- Writes a line. -/
def say (line : Text) : Command Unit :=
  modify fun w => { w with output := w.output ++ (line ++ "\n") }

/-- Notes what happened. -/
def note (notices : List Notice) : Command Unit :=
  modify fun w => { w with journal := w.journal ++ notices }

/-- Goes on with a result, or ends with a fault. -/
def ofExcept {α : Type} : Except Fault α → Command α
  | .ok a => pure a
  | .error fault => throw (.failed fault)

/-- Ends with a fault if there is one. -/
def check : Option Fault → Command Unit
  | none => pure ()
  | some fault => throw (.failed fault)

/-- The files as they are. -/
def files : Command Storage := do return (← get).storage

/-- Changes the files. -/
def store (change : Storage → Except Fault Storage) : Command Unit := do
  let storage ← ofExcept (change (← files))
  modify fun w => { w with storage }

/-- What a command line asks for. Whoever asks for help gets the text that explains the command. -/
def request {κ : Type} [BEq κ] (g : Grammar κ) (help : String) (words : List Text) :
    Command (Request κ) :=
  match g.read words with
  | .ok r => pure r
  | .error .help => do
    modify fun w => { w with output := w.output ++ help }
    throw .explained
  | .error (.misuse m) => throw (.misused m)

/-- The world after a command, and how the command ended. -/
def runIn (c : Command Unit) (w : World) : World × Ending :=
  match c w with
  | (.ok (), w) => (w, .finished)
  | (.error ending, w) => (w, ending)

end Command

end DocLineage.CommandLine
