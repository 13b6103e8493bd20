import SymSolve.Engine.Solve
import SymSolve.Numeral

/-!
# Command lines

`solve MATRIX` solves the system in a file, and `options` shows the options in force. Options may
stand before, between and after other words. An option with a value takes the next word, whatever
that is, or what follows an equals sign; of several values the last counts. After `--` no word is
an option.
-/

namespace SymSolve.CommandLine

/-- How a report is written. -/
inductive ReportFormat where
  | text
  | json
  deriving DecidableEq, Repr

/-- A system to solve: the paths of its files, and what is asked of the solver. -/
structure SolveRequest where
  matrix : String
  /-- The right-hand side; without one it consists of ones. -/
  rhs : Option String
  options : Option String
  demand : InertiaDemand
  format : ReportFormat
  deriving DecidableEq, Repr

/-- The path of an artifact: an empty one is that of the working directory. -/
def artifactPath (path : String) : String := if path = "" then "." else path

/-- What a command line asks for. -/
inductive Request where
  | help
  | solve (request : SolveRequest)
  | options (artifact : Option String)
  deriving DecidableEq, Repr

/-- What is wrong with a command line. -/
inductive UsageFault where
  | noCommand
  | unknownCommand (word : String)
  | unknownOption (name : String)
  | valueMissing (name : String)
  | valueGiven (name : String)
  | matrixMissing
  | extraWord (word : String)
  | noCount (text : String)
  | unknownFormat (text : String)
  deriving DecidableEq, Repr

/-- The text of a fault. -/
def UsageFault.text : UsageFault → String
  | noCommand => "a command is missing"
  | unknownCommand word => s!"there is no command '{word}'"
  | unknownOption name => s!"there is no option '{name}'"
  | valueMissing name => s!"option '{name}' needs a value"
  | valueGiven name => s!"option '{name}' takes no value"
  | matrixMissing => "the path of a matrix is missing"
  | extraWord word => s!"'{word}' is one word too many"
  | noCount text => s!"'{text}' is not a number of eigenvalues"
  | unknownFormat text => s!"'{text}' is neither 'text' nor 'json'"

/-! ## Words and options -/

/-- The options of a command: those that take a value, and those that do not. -/
structure OptionNames where
  valued : List String
  plain : List String

/-- A command line taken apart. Options are listed in the order in which they are given. -/
structure Words where
  positional : List String
  valued : List (String × String)
  plain : List String
  deriving DecidableEq, Repr

namespace Words

/-- Whether a word is an option. -/
def isOption (word : String) : Bool := word.startsWith "-" && word ≠ "-"

/-- The name of an option, and the value after an equals sign. -/
def nameAndValue (word : String) : String × Option String :=
  let cs := word.toList
  let value := match cs.dropWhile (· ≠ '=') with
    | _ :: value => some (String.ofList value)
    | [] => none
  (.ofList (cs.takeWhile (· ≠ '=')), value)

/-- Takes the words after a command apart. -/
def read (names : OptionNames) : List String → Except UsageFault Words
  | [] => .ok ⟨[], [], []⟩
  | word :: rest =>
    if word = "--" then .ok ⟨rest, [], []⟩
    else if !isOption word then
      (read names rest).map fun w => { w with positional := word :: w.positional }
    else
      let (name, value) := nameAndValue word
      if names.plain.contains name then
        if value.isSome then .error (.valueGiven name)
        else (read names rest).map fun w => { w with plain := name :: w.plain }
      else if names.valued.contains name then
        match value, rest with
        | some value, rest =>
          (read names rest).map fun w => { w with valued := (name, value) :: w.valued }
        | none, value :: rest =>
          (read names rest).map fun w => { w with valued := (name, value) :: w.valued }
        | none, [] => .error (.valueMissing name)
      else .error (.unknownOption name)

/-- The value of an option; of several the last. -/
def value? (w : Words) (name : String) : Option String :=
  (w.valued.reverse.find? fun v => v.1 = name).map Prod.snd

/-- Whether an option without value is given. -/
def has (w : Words) (name : String) : Bool := w.plain.contains name

end Words

/-! ## Commands -/

/-- The options of `solve`. -/
def solveOptions : OptionNames :=
  ⟨["--rhs", "--expected-neg", "--options", "--format"], ["--check-inertia", "--help"]⟩

/-- The options of `options`. -/
def optionsOptions : OptionNames := ⟨["--options"], ["--help"]⟩

/-- The number of negative eigenvalues that a text asks for. -/
def countOf (text : String) : Except UsageFault Int :=
  match Numeral.int? text.toList with
  | some count => if count < 0 then .error (.noCount text) else .ok count
  | none => .error (.noCount text)

/-- The format that a text names. -/
def formatOf (text : String) : Except UsageFault ReportFormat :=
  if text = "text" then .ok .text
  else if text = "json" then .ok .json
  else .error (.unknownFormat text)

namespace Request

/-- What `solve` is asked for. A number of eigenvalues is demanded only if the inertia is to be
checked. -/
def ofSolveWords (w : Words) : Except UsageFault Request := do
  if w.has "--help" then return .help
  let matrix ← match w.positional with
    | [] => throw .matrixMissing
    | [matrix] => pure matrix
    | _ :: extra :: _ => throw (.extraWord extra)
  let expected ← ((w.value? "--expected-neg").map countOf).getD (.ok 0)
  let format ← ((w.value? "--format").map formatOf).getD (.ok .text)
  return .solve {
    matrix
    rhs := w.value? "--rhs"
    options := w.value? "--options"
    demand := if w.has "--check-inertia" then some expected else none
    format }

/-- What `options` is asked for. -/
def ofOptionsWords (w : Words) : Except UsageFault Request := do
  if w.has "--help" then return .help
  match w.positional with
  | [] => return .options (w.value? "--options")
  | extra :: _ => throw (.extraWord extra)

/-- The request of a command with the words after it. -/
def ofCommand : List String → Except UsageFault Request
  | [] => .error .noCommand
  | command :: words =>
    if command = "solve" then (Words.read solveOptions words).bind ofSolveWords
    else if command = "options" then (Words.read optionsOptions words).bind ofOptionsWords
    else .error (.unknownCommand command)

/-- The words from the command on, and whether help is asked for before it. No other option
stands there. -/
def beforeCommand : List String → Except UsageFault (Bool × List String)
  | [] => .ok (false, [])
  | word :: rest =>
    if word = "--" then .ok (false, rest)
    else if word = "--help" then (beforeCommand rest).map fun r => (true, r.2)
    else if Words.isOption word then .error (.unknownOption word)
    else .ok (false, word :: rest)

/-- The request of a command line. -/
def ofArgs (args : List String) : Except UsageFault Request := do
  let (helpAsked, words) ← beforeCommand args
  if helpAsked then return .help else ofCommand words

/-- The paths that a request may read. -/
def paths : Request → List String
  | help => []
  | solve r => r.matrix :: (r.rhs.toList ++ (r.options.map artifactPath).toList)
  | options artifact => (artifact.map artifactPath).toList

end Request

end SymSolve.CommandLine
