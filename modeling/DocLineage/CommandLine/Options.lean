import DocLineage.Text.Digit
import DocLineage.Text.Quoted

/-!
# Command lines

A command line is a list of words. Words that start with a hyphen name options, in full, by an
unambiguous beginning of a long name, or as a cluster of short names; all words after a double
hyphen are operands. The operands of a command stand together: once some have been taken, further
ones are refused.

## Main definitions

* `OptionSpec`, `Grammar` — the options and the operands of a command
* `Misuse` — what is wrong with a command line
* `Grammar.classify` — what a single word means
* `Grammar.read` — what a command line asks for
-/

namespace DocLineage.CommandLine

/-- What an option needs or does. -/
inductive Arity where
  | flag
  | value
  /-- Shows how the command is used, whatever else is asked for. -/
  | help
deriving DecidableEq, Repr

/-- An option with its names. -/
structure OptionSpec (κ : Type) where
  id : κ
  names : List Text
  arity : Arity
  required : Bool := false

/-- The names of an option as one text. -/
def OptionSpec.label {κ : Type} (o : OptionSpec κ) : Text := Text.join "/" o.names

/-- The options and the operands of a command. -/
structure Grammar (κ : Type) where
  options : List (OptionSpec κ)
  operand : Text
  /-- There may be more than one operand. -/
  repeats : Bool

/-- What is wrong with a command line. -/
inductive Misuse where
  | ambiguous (word : Text) (matching : List Text)
  | lacksArgument (option : Text)
  | refusesArgument (option argument : Text)
  | missing (names : List Text)
  | unrecognized (words : List Text)
deriving DecidableEq, Repr

/-- The wording of a misuse. -/
def Misuse.message : Misuse → Text
  | ambiguous word matching =>
    "ambiguous option: " ++ word ++ " could match " ++ Text.join ", " matching
  | lacksArgument option => "argument " ++ option ++ ": expected one argument"
  | refusesArgument option argument =>
    "argument " ++ option ++ ": ignored explicit argument " ++ Text.quoted argument
  | missing names => "the following arguments are required: " ++ Text.join ", " names
  | unrecognized words => "unrecognized arguments: " ++ Text.join " " words

/-- Why the reading of a command line stops before its end. -/
inductive Stop where
  | help
  | misuse (m : Misuse)
deriving DecidableEq, Repr

/-- What a word means. -/
inductive Word (κ : Type) where
  | operand (t : Text)
  /-- The double hyphen before words that are all operands. -/
  | divider
  /-- An option, whether it is named by a single hyphen, and the argument joined to it. -/
  | option (spec : OptionSpec κ) (short : Bool) (joined : Option Text)
  | unknown (t : Text)

/-- What a command line asks for: the options with their arguments, the operands if they have been
taken, and the words that mean nothing. A flag has no argument; any other option has one, unless
that was a double hyphen, which counts as none. -/
structure Request (κ : Type) where
  given : List (κ × List Text) := []
  operands : Option (List Text) := none
  extras : List Text := []

namespace Grammar

variable {κ : Type}

/-- All names with their options, in order. -/
def names (g : Grammar κ) : List (Text × OptionSpec κ) :=
  g.options.flatMap fun o => o.names.map (·, o)

/-! ### Single words -/

/-- The mark that names of options start with. -/
def hyphen : Symbol := .char '-'

/-- The double hyphen. -/
def doubleHyphen : Text := [hyphen, hyphen]

/-- A number with a minus sign and perhaps a line feed after it, which is an operand. -/
def isNegativeNumber (t : Text) : Bool :=
  let isDigit (s : Symbol) : Bool := s.isIn Text.isDecimalDigit
  let line := if t.getLast? == some (.char '\n') then t.dropLast else t
  match line with
  | .char '-' :: t =>
    match t.dropWhile isDigit with
    | [] => !t.isEmpty
    | .char '.' :: digits => !digits.isEmpty && digits.all isDigit
    | _ => false
  | _ => false

/-- The parts of a word before and after the first equals sign. -/
def splitEquals (t : Text) : Text × Option Text :=
  match t.dropWhile (· != .char '=') with
  | [] => (t, none)
  | _ :: after => (t.takeWhile (· != .char '='), some after)

/-- The name is written with a single hyphen. -/
def isShort (name : Text) : Bool := name[1]? != some hyphen

/-- The names that the beginning of a word may stand for, with the argument joined to them. -/
def candidates (g : Grammar κ) (t : Text) : List (Text × Word κ) :=
  if isShort t then
    g.names.filterMap fun (name, o) =>
      if name == t.take 2 then some (name, Word.option o true (some (t.drop 2)))
      else if t.isPrefixOf name then some (name, Word.option o (isShort name) none)
      else none
  else
    let (start, joined) := splitEquals t
    g.names.filterMap fun (name, o) =>
      if start.isPrefixOf name then some (name, Word.option o false joined) else none

/-- What a word means that is not the double hyphen. -/
def classify (g : Grammar κ) (word : Text) : Except Misuse (Word κ) :=
  let (start, joined) := splitEquals word
  if word.head? != some hyphen then .ok (.operand word)
  else
    match g.names.lookup word, g.names.lookup start with
    | some o, _ => .ok (.option o (isShort word) none)
    | none, some o => .ok (.option o (isShort start) joined)
    | none, none =>
      if word.length == 1 then .ok (.operand word)
      else
        match g.candidates word with
        | [] =>
          if isNegativeNumber word || word.contains (.char ' ') then .ok (.operand word)
          else .ok (.unknown word)
        | [(_, w)] => .ok w
        | several => .error (.ambiguous word (several.map Prod.fst))

/-- What the words of a command line mean. -/
def classifyAll (g : Grammar κ) : List Text → Except Misuse (List (Word κ))
  | [] => .ok []
  | word :: words =>
    if word == doubleHyphen then .ok (.divider :: words.map .operand)
    else do return (← g.classify word) :: (← g.classifyAll words)

/-! ### Options -/

/-- What an option word asks for before the next word is read. -/
structure Cluster (κ : Type) where
  given : List (κ × List Text) := []
  /-- The last option, if it still needs an argument. -/
  open? : Option (OptionSpec κ) := none
  asksHelp : Bool := false

/-- A cluster with an option before it that takes no argument. -/
def Cluster.addFlag (o : OptionSpec κ) (c : Cluster κ) : Cluster κ :=
  { c with given := (o.id, []) :: c.given, asksHelp := c.asksHelp || o.arity == .help }

/-- An option that nothing is joined to. -/
def Cluster.single (o : OptionSpec κ) : Cluster κ :=
  if o.arity == .value then { open? := some o } else Cluster.addFlag o {}

/-- The options of a cluster: an option and what is joined to it. An option that takes no argument
and has a short name may be followed by the letters of further ones. -/
def cluster (g : Grammar κ) (o : OptionSpec κ) (short : Bool) (joined : Text) :
    Except Misuse (Cluster κ) :=
  if o.arity == .value then
    .ok { given := [(o.id, if joined == doubleHyphen then [] else [joined])] }
  else
    match joined with
    | [] => .error (.refusesArgument o.label [])
    | letter :: rest =>
      match if short then g.names.lookup [hyphen, letter] else none with
      | none => .error (.refusesArgument o.label (letter :: rest))
      | some next =>
        if rest.isEmpty then .ok (Cluster.addFlag o (Cluster.single next))
        else (g.cluster next true rest).map (Cluster.addFlag o)

/-- What an option word asks for. -/
def optionWord (g : Grammar κ) (o : OptionSpec κ) (short : Bool) (joined : Option Text) :
    Except Misuse (Cluster κ) :=
  match joined with
  | none => .ok (Cluster.single o)
  | some joined => g.cluster o short joined

/-! ### Operands -/

/-- The text of an operand or a divider. -/
def operandText : Word κ → Text
  | .operand t => t
  | _ => doubleHyphen

/-- The word is an operand. -/
def isOperand : Word κ → Bool
  | .operand _ => true
  | _ => false

/-- How many words of a run of operands and dividers the operands of the command take. A single
operand may have a divider on either side. -/
def operandCount (g : Grammar κ) (run : List (Word κ)) : Nat :=
  if !run.any isOperand then 0
  else if g.repeats then run.length
  else
    let before := (run.takeWhile (!isOperand ·)).length
    before + 1 + ((run.drop (before + 1)).takeWhile (!isOperand ·)).length

/-- A request after a run of operands and dividers. A divider that belongs to the operands of the
command is dropped. -/
def takeRun (g : Grammar κ) (run : List (Word κ)) (r : Request κ) : Request κ :=
  let count := if r.operands.isSome then 0 else g.operandCount run
  let taken := run.take count
  let operands := if count == 0 then r.operands else some ((taken.filter isOperand).map operandText)
  { r with operands, extras := r.extras ++ (run.drop count).map operandText }

/-! ### Whole command lines -/

/-- A request after what an option word asks for. -/
def addCluster (c : Cluster κ) (r : Request κ) : Request κ :=
  { r with given := r.given ++ c.given }

/-- What the rest of a command line asks for after a request; `run` holds the operands and dividers
just before it. -/
def readWords (g : Grammar κ) (r : Request κ) (run : List (Word κ)) :
    List (Word κ) → Except Stop (Request κ)
  | [] => .ok (g.takeRun run r)
  | .operand t :: ws => g.readWords r (run ++ [.operand t]) ws
  | .divider :: ws => g.readWords r (run ++ [.divider]) ws
  | .unknown t :: ws =>
    let r := g.takeRun run r
    g.readWords { r with extras := r.extras ++ [t] } [] ws
  | .option o short joined :: ws =>
    let r := g.takeRun run r
    match g.optionWord o short joined with
    | .error m => .error (.misuse m)
    | .ok c =>
      match c.open?, ws with
      | none, ws => if c.asksHelp then .error .help else g.readWords (addCluster c r) [] ws
      | some o, .operand t :: ws =>
        if c.asksHelp then .error .help
        else g.readWords (addCluster { c with given := c.given ++ [(o.id, [t])] } r) [] ws
      | some o, _ => .error (.misuse (.lacksArgument o.label))

/-- The names of what a request has to ask for and does not. -/
def missing [BEq κ] (g : Grammar κ) (r : Request κ) : List Text :=
  (if r.operands.isNone then [g.operand] else []) ++
    (g.options.filter fun o => o.required && (r.given.lookup o.id).isNone).map OptionSpec.label

/-- What a command line asks for. Everything that is required has to be there, and every word has to
mean something. -/
def read [BEq κ] (g : Grammar κ) (words : List Text) : Except Stop (Request κ) := do
  let words ← (g.classifyAll words).mapError .misuse
  let r ← g.readWords {} [] words
  match g.missing r, r.extras with
  | [], [] => return r
  | [], extras => throw (.misuse (.unrecognized extras))
  | names, _ => throw (.misuse (.missing names))

end Grammar

namespace Request

variable {κ : Type} [BEq κ]

/-- The arguments of an option that is given; of an option that is given twice the last one
counts. -/
def arguments? (r : Request κ) (id : κ) : Option (List Text) := r.given.reverse.lookup id

/-- The argument of an option, if it is given with one. -/
def argument? (r : Request κ) (id : κ) : Option Text := (r.arguments? id).bind List.head?

/-- The option is given. -/
def has (r : Request κ) (id : κ) : Bool := (r.arguments? id).isSome

end Request

end DocLineage.CommandLine
