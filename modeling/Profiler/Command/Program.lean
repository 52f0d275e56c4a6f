/-
# The program

The program is given its own switches, then the name of a command, then the
words for the command. A switch of the program is also taken after the name,
as long as no other word came; what looks like a switch there and is none of
the program's is for the command, and so is all that follows it.

Key definitions: `Invocation`, `Invocation.parse`, `Program.run`.
-/
import Profiler.Command.Registry

namespace Profiler

/-- How the program was called. -/
structure Invocation where
  verbose : Bool := false
  command? : Option String := none
  words : List String := []
  deriving DecidableEq, Repr

/-- What the program is asked for. -/
inductive ProgramRequest where
  | help
  | version
  | run (invocation : Invocation)
  deriving DecidableEq, Repr

namespace Invocation

/-- A switch of the program. -/
inductive ProgramSwitch where
  | verbose
  | help
  | version
  deriving DecidableEq, Repr

def ProgramSwitch.ofLetter? : Char → Option ProgramSwitch
  | 'v' => some verbose
  | 'h' => some help
  | 'V' => some version
  | _ => none

def ProgramSwitch.ofName? : String → Option ProgramSwitch
  | "verbose" => some verbose
  | "help" => some help
  | "version" => some version
  | _ => none

/-- What a word is to the program. -/
inductive ProgramWord where
  | switches (found : List ProgramSwitch)
  /-- A switch with a value that it does not take. -/
  | valued
  | unknown
  | operand
  deriving DecidableEq, Repr

/-- What a word is. -/
def classify (word : String) : ProgramWord :=
  if Switch.isOperand word then .operand
  else match word.toList with
    | '-' :: '-' :: name =>
      match Text.splitFirst? '=' name with
      | some (name, _) =>
        if (ProgramSwitch.ofName? (String.ofList name)).isSome then .valued else .unknown
      | none =>
        match ProgramSwitch.ofName? (String.ofList name) with
        | some s => .switches [s]
        | none => .unknown
    | _ :: letters =>
      match letters.mapM ProgramSwitch.ofLetter? with
      | some found => .switches found
      | none => .unknown
    | [] => .operand

/-- Take switches in turn; the answer is what they ask for if that ends it. -/
def takeSwitches (i : Invocation) :
    List ProgramSwitch → Except Misuse (Option ProgramRequest × Invocation)
  | [] => .ok (none, i)
  | .help :: _ => .ok (some .help, i)
  | .version :: _ => .ok (some .version, i)
  | .verbose :: rest =>
    if i.verbose then .error .usage else takeSwitches { i with verbose := true } rest

/-- The rest of the words, none of which is a switch of the program. -/
def takeOperands (i : Invocation) : List String → Invocation
  | [] => i
  | word :: rest =>
    match i.command? with
    | none => { i with command? := some word, words := rest }
    | some _ => { i with words := word :: rest }

/-- Take words in turn. -/
def parseAfter (i : Invocation) : List String → Except Misuse ProgramRequest
  | [] => .ok (.run i)
  | word :: rest =>
    if word = "--" then .ok (.run (i.takeOperands rest))
    else match classify word with
      | .switches found =>
        match i.takeSwitches found with
        | .error e => .error e
        | .ok (some request, _) => .ok request
        | .ok (none, i) => parseAfter i rest
      | .valued => .error .usage
      | .unknown =>
        if i.command?.isSome then .ok (.run { i with words := word :: rest }) else .error .usage
      | .operand =>
        if i.command?.isSome then .ok (.run { i with words := word :: rest })
        else parseAfter { i with command? := some word } rest

def parse (words : List String) : Except Misuse ProgramRequest := parseAfter {} words

end Invocation

namespace Program

def usage : String := "Usage: rsperf [-v] [<command> [<words>]]"

/-- The status after words that the program does not take. -/
def usageStatus : Nat := 2

/-- The words about a failure: what failed and why, and again the system's
words if it is to blame. -/
def failureText (e : Error) : String :=
  match e with
  | .io cause => s!"{e.message}: {cause.message}"
  | e => e.message

/-- Run a command by its name. -/
def runCommand (name : String) (words : List String) : StateM Machine Nat := fun m =>
  match Registry.standard.run? name words with
  | none =>
    let e := Error.misuse (.unknownCommand name Registry.standard.keys)
    (e.exitCode, { m with remarks := m.remarks ++ s!"Error: {e.message}\n" })
  | some run =>
    let (result, m) := run m
    match result with
    | .ok () => (0, m)
    | .error e =>
      (e.exitCode, { m with remarks := m.remarks ++ s!"Error: {name} failed: {failureText e}\n" })

/-- Do what the words of a call ask for. The answer is the status with which
the program ends. -/
def run (words : List String) : StateM Machine Nat := fun m =>
  match Invocation.parse words with
  | .error cause => (usageStatus, { m with remarks := m.remarks ++ cause.message ++ "\n" })
  | .ok .help => (0, { m with printed := m.printed ++ usage ++ "\n" })
  | .ok .version => (0, { m with printed := m.printed ++ s!"rsperf {RecordCommand.version}\n" })
  | .ok (.run i) =>
    match i.command? with
    | none =>
      (0, { m with remarks := m.remarks ++ Registry.standard.helpText ++
        "\nRun \x27rsperf <command> --help\x27 for the options of a command.\n" })
    | some name => runCommand name i.words m

end Program
end Profiler
