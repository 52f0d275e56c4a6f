/-
# The arguments of a command

A command is given switches and operands. A switch has a name after two dashes
or a letter after one, or both, and letters may be joined in one word. The
value that a switch needs is the rest of its word or the next word, which then
must not look like a switch. All words after `--` are operands.

What a grammar takes from the arguments it takes in their order, so that the
first of a fault and a wish for help decides.

Key definitions: `Switch`, `Argument`, `Switch.arguments`, `Grammar`,
`Grammar.parse`.
-/
import Profiler.Error
import Profiler.Text.Blank

namespace Profiler

/-- Something that can be asked for with a dash. -/
structure Switch where
  /-- What the switch is called here, and after two dashes unless it has only
  a letter. -/
  name : String
  letter? : Option Char := none
  onlyLetter : Bool := false
  takesValue : Bool := false
  /-- Whether it can be given more than once. -/
  repeats : Bool := false
  deriving DecidableEq, Repr

/-- Something that a list of words says. -/
inductive Argument where
  | flag (name : String)
  | value (name value : String)
  | operand (text : String)
  deriving DecidableEq, Repr

namespace Switch

/-- The switch that every command knows. -/
def help : Switch := { name := "help", letter? := some 'h' }

/-- Whether a word is no switch: a single dash is none. -/
def isOperand (word : String) : Bool := !word.startsWith "-" || word == "-"

/-- Arguments of which `none` is one that is wrong, and the switch that the
next word is the value of. -/
abbrev Found := List (Option Argument) × Option Switch

/-- What joined letters say. -/
def ofLetters (known : List Switch) : List Char → Found
  | [] => ([], none)
  | c :: rest =>
    match known.find? (·.letter? == some c) with
    | none => ([none], none)
    | some s =>
      if s.takesValue then
        match rest with
        | [] => ([], some s)
        | '=' :: value => ([some (.value s.name (String.ofList value))], none)
        | value => ([some (.value s.name (String.ofList value))], none)
      else
        let (found, pending) := ofLetters known rest
        (some (.flag s.name) :: found, pending)

/-- What stands after two dashes says: a name, or a name and a value. -/
def ofName (known : List Switch) (text : List Char) : Found :=
  let (name, value?) := match Text.splitFirst? '=' text with
    | some (name, value) => (name, some (String.ofList value))
    | none => (text, none)
  match known.find? fun s => !s.onlyLetter && s.name == String.ofList name, value? with
  | none, _ => ([none], none)
  | some s, some value => ([if s.takesValue then some (.value s.name value) else none], none)
  | some s, none => if s.takesValue then ([], some s) else ([some (.flag s.name)], none)

/-- What a word says that is no value. -/
def ofWord (known : List Switch) (word : String) : Found :=
  if isOperand word then ([some (.operand word)], none)
  else match word.toList with
    | '-' :: '-' :: name => ofName known name
    | _ :: letters => ofLetters known letters
    | [] => ([], none)

/-- What words say, if the first one is the value of a pending switch. -/
def argumentsAfter (known : List Switch) : (pending : Option Switch) → List String →
    List (Option Argument)
  | none, [] => []
  | some _, [] => [none]
  | some s, word :: rest =>
    if isOperand word then some (.value s.name word) :: argumentsAfter known none rest else [none]
  | none, word :: rest =>
    if word = "--" then rest.map fun w => some (.operand w)
    else
      let (found, pending) := ofWord known word
      found ++ argumentsAfter known pending rest

/-- What words say; `none` is something wrong. -/
def arguments (known : List Switch) (words : List String) : List (Option Argument) :=
  argumentsAfter known none words

/-- How a switch is written. -/
def usage (s : Switch) : String :=
  let letter := s.letter?.toList.map fun c => "-" ++ c.toString
  let name := if s.onlyLetter then [] else ["--" ++ s.name]
  "  " ++ ", ".intercalate (letter ++ name) ++ (if s.takesValue then " <value>" else "")

end Switch

/-- What a list of words asks a command for. -/
inductive Request (σ : Type) where
  | help
  | run (arguments : σ)
  deriving Repr

/-- What a command takes. -/
structure Grammar (σ : Type) where
  switches : List Switch
  /-- Take an argument, if it can be taken. -/
  take : σ → Argument → Option σ
  /-- Switches that cannot both be given. -/
  conflicts : List (String × String) := []

namespace Grammar

/-- Whether a switch has been given that cannot be given again. -/
def isRepeated (g : Grammar σ) (given : List String) (name : String) : Bool :=
  given.contains name && !g.switches.any fun s => s.name == name && s.repeats

/-- Take arguments in turn; `given` has the switches that came before. -/
def takeAll (g : Grammar σ) (given : List String) (s : σ) :
    List (Option Argument) → Except Misuse (Request σ)
  | [] =>
    if g.conflicts.any fun (a, b) => given.contains a && given.contains b then .error .usage
    else .ok (.run s)
  | none :: _ => .error .usage
  | some a :: rest =>
    let names := match a with
      | .flag name | .value name _ => [name]
      | .operand _ => []
    if names.contains Switch.help.name then .ok .help
    else if names.any (g.isRepeated given) then .error .usage
    else match g.take s a with
      | some s => g.takeAll (names ++ given) s rest
      | none => .error .usage

def parse (g : Grammar σ) (s : σ) (words : List String) : Except Misuse (Request σ) :=
  g.takeAll [] s (Switch.arguments (Switch.help :: g.switches) words)

def usage (g : Grammar σ) (command : String) : String :=
  "\n".intercalate (s!"Usage: {command} [switches]" ::
    (g.switches ++ [Switch.help]).map Switch.usage)

end Grammar

/-- A value that is a path, which is not empty. -/
def pathValue? (text : String) : Option String := if text.isEmpty then none else some text

/-- A value that is several values with commas between them. -/
def commaValues (text : String) : List String :=
  (splitWhere (· == ',') text.toList).map String.ofList

end Profiler
