/-
# The command `report`

Prints the rows of a recording with the share that each has in all periods,
and on demand the call chains of each row.

Key definitions: `ReportArguments`, `Report.tableOf`, `Report.graphText`,
`Command.report`.
-/
import Profiler.Command.Basic
import Profiler.Decimal.Reading
import Profiler.Event.Type
import Profiler.Report.Summary
import Profiler.Report.TextTable

namespace Profiler

structure ReportArguments where
  input : String := Command.defaultFile
  /-- What rows are told apart by, once something is given. -/
  sort : List SortKey := []
  withChains : Bool := false
  withCounts : Bool := false
  /-- Where recorded binaries are looked for. -/
  binaryRoot? : Option String := none
  /-- A list of the kernel's symbols, in place of the recorded one. -/
  kernelSymbols? : Option String := none
  /-- Rows with a smaller share are left out. -/
  leastPercent : Reading := .finite false .zero

namespace Report

def grammar : Grammar ReportArguments where
  switches :=
    [{ name := "input", letter? := some 'i', takesValue := true },
      { name := "sort", takesValue := true, repeats := true },
      { name := "children", letter? := some 'g' },
      { name := "sample-count", letter? := some 'n' },
      { name := "symfs", takesValue := true },
      { name := "kallsyms", takesValue := true },
      { name := "percent-limit", takesValue := true }]
  take a
    | .value "input" text => (pathValue? text).map ({ a with input := · })
    | .value "sort" text =>
      ((commaValues text).mapM SortKey.ofName?).map fun keys => { a with sort := a.sort ++ keys }
    | .flag "children" => some { a with withChains := true }
    | .flag "sample-count" => some { a with withCounts := true }
    | .value "symfs" text => (pathValue? text).map ({ a with binaryRoot? := some · })
    | .value "kallsyms" text => (pathValue? text).map ({ a with kernelSymbols? := some · })
    | .value "percent-limit" text => (Reading.ofText? text).map ({ a with leastPercent := · })
    | _ => none

def defaultSort : List SortKey := [.comm, .pid, .tid, .dso]

/-- A share from 0 to 100, which a negative zero is too. -/
def share? : Reading → Option Binary64
  | .finite negative x =>
    if x.mantissa = 0 then some .zero
    else if negative || Binary64.lt (.ofWord 100) x then none else some x
  | _ => none

def title : SortKey → String
  | .comm => "Command"
  | .pid => "Pid"
  | .tid => "Tid"
  | .dso => "Shared Object"

def keyText (row : SampleRow) : SortKey → String
  | .comm => row.comm
  | .pid => toString row.pid.toInt
  | .tid => toString row.tid.toInt
  | .dso => row.map.filename

def percentText (x : Binary64) : String := x.fixed 2 ++ "%"

def eventNames (f : RecordFile) : Except Corruption (List String) := do
  let descs ← f.eventDescs
  return if descs.isEmpty then f.attrs.map fun a => eventName a.attr.type a.attr.config
    else descs.map EventDesc.name

def shownRows (least : Binary64) (t : SampleTable) : List SampleRow :=
  t.byWeight.filter fun row => !Binary64.lt (.percentage row.period t.totalPeriod) least

/-- The rows as a table with titles. -/
def tableOf (keys : List SortKey) (withCounts : Bool) (total : UInt64) (rows : List SampleRow) :
    TextTable :=
  let counts (text : String) (atRight : Bool) : List TextCell :=
    if withCounts then [{ text, atRight }] else []
  let titles := { text := "Overhead" } :: (counts "Samples" false ++ keys.map ({ text := title · }))
  titles :: rows.map fun row =>
    { text := percentText (.percentage row.period total), atRight := true } ::
      (counts (toString row.count) true ++ keys.map ({ text := keyText row · }))

/-- The call chains of a row, with their shares in the row. -/
def graphText (keys : List SortKey) (total : UInt64) (row : SampleRow) : String :=
  let lines := row.chains.nodes.map fun (depth, node) =>
    String.join (List.replicate (depth + 1) "  ") ++
      percentText (.percentage node.totalPeriod row.period) ++ " " ++
      " -> ".intercalate node.frames ++ "\n"
  percentText (.percentage row.period total) ++ " " ++
    " ".intercalate (keys.map (keyText row)) ++ "\n" ++ String.join lines

open Machine in
/-- Take in the records of a file. -/
def summarize (a : ReportArguments) (keys : List SortKey) (f : RecordFile) :
    Effect Machine Summary := do
  let given? ← match a.kernelSymbols? with
    | some path => some <$> readText path
    | none => pure none
  let kernelSymbols := (given?.map SymbolTable.ofKallsyms).getD []
  let start : Summary :=
    { table := { keys }
      dso := { root? := a.binaryRoot?, kernelSymbols }
      withChains := a.withChains
      kernelKnown := given?.isSome }
  let m ← get
  let read? path := ((m.filesFor path).map path).toOption
  let v := f.visit true (fun (s : Summary) r => (s.take read? r, true)) start
  for (name, _) in v.state.dso.binaries do
    let _ ← Effect.ofState (look (v.state.dso.path name))
  Command.decoded v.outcome
  return v.state

open Machine Command in
def run (a : ReportArguments) : Effect Machine Unit := do
  let some least := share? a.leastPercent
    | Effect.refuse (.percentLimit a.leastPercent.text)
  let keys := if a.sort.isEmpty then defaultSort else a.sort
  let f ← openRecord a.input
  let summary ← summarize a keys f
  let words ← decoded f.commandLine
  if !words.isEmpty then printLine ("Cmdline: " ++ " ".intercalate words)
  if let some arch := ← decoded f.arch then printLine s!"Arch: {arch}"
  printLine ("Event: " ++ ", ".intercalate (← decoded (eventNames f)))
  let table := summary.table.sortChains
  printLine s!"Samples: {table.totalCount}"
  printLine s!"Event count: {table.totalPeriod}"
  printLine ""
  if table.rows.isEmpty then remark s!"No samples in {a.input}"
  else
    let rows := shownRows least table
    printLine (tableOf keys a.withCounts table.totalPeriod rows).render
    if a.withChains then
      for row in rows do
        if !row.chains.isEmpty then print ("\n" ++ graphText keys table.totalPeriod row)

end Report

def Command.report : Command :=
  .ofGrammar "report" "report sample overhead by thread and binary" Report.grammar {} Report.run

end Profiler
