/-
# Rows of samples

A report has a row for each combination of key values; samples that agree on
every key are merged by adding their periods and counting them. Rows are in
the order of their keys.

Key definitions: `SortKey`, `SampleRow`, `SampleTable`, `SampleTable.add`,
`SampleTable.addChain`, `SampleTable.processRecord`, `SampleTable.byWeight`.
-/
import Profiler.Process.ThreadTree
import Profiler.Report.CallTree

namespace Profiler

/-- What rows are told apart by. -/
inductive SortKey where
  | pid
  | tid
  | comm
  | dso
  deriving DecidableEq, Repr

namespace SortKey

def name : SortKey → String
  | pid => "pid"
  | tid => "tid"
  | comm => "comm"
  | dso => "dso"

def all : List SortKey := [pid, tid, comm, dso]

def ofName? (s : String) : Option SortKey := all.find? (·.name == s)

end SortKey

/-- Samples that agree on every key. What is no key is that of the first of
them. -/
structure SampleRow where
  pid : Pid
  tid : Pid
  comm : String
  ip : UInt64
  time : UInt64
  period : UInt64
  count : UInt64
  map : MapEntry
  chains : CallTree String := {}
  deriving Repr, Inhabited

/-- Order two rows by one key. -/
def SortKey.compare (k : SortKey) (a b : SampleRow) : Ordering :=
  match k with
  | pid => Ord.compare a.pid b.pid
  | tid => Ord.compare a.tid b.tid
  | comm => Ord.compare a.comm b.comm
  | dso => Ord.compare a.map.filename b.map.filename

def compareRows (keys : List SortKey) (a b : SampleRow) : Ordering :=
  keys.foldr (fun k rest => (k.compare a b).then rest) .eq

namespace SampleRow

/-- The row with another row's samples added. -/
def merge (row other : SampleRow) : SampleRow :=
  { row with period := row.period + other.period, count := row.count + other.count }

def addChain (row : SampleRow) (chain : List String) (period : UInt64) : SampleRow :=
  { row with chains := row.chains.insert chain period }

end SampleRow

/-- The rows with one more, merged with the row that has the same keys if
there is one; and its place. -/
def insertRow (keys : List SortKey) (row : SampleRow) : List SampleRow → Nat × List SampleRow
  | [] => (0, [row])
  | first :: rest =>
    match compareRows keys first row with
    | .eq => (0, first.merge row :: rest)
    | .gt => (0, row :: first :: rest)
    | .lt =>
      let (i, rest) := insertRow keys row rest
      (i + 1, first :: rest)

/-- The rows of a report, and the threads that its samples belong to. -/
structure SampleTable where
  keys : List SortKey
  threads : ThreadTree := {}
  rows : List SampleRow := []
  totalCount : UInt64 := 0
  totalPeriod : UInt64 := 0
  deriving Repr, Inhabited

namespace SampleTable

/-- Add a sample; the place of its row is given too. -/
def add (t : SampleTable) (pid tid : Pid) (ip time period : UInt64) : Nat × SampleTable :=
  let map := t.threads.findMap pid ip
  let (thread, threads) := t.threads.findThread pid tid
  let row : SampleRow := { pid, tid, comm := thread.comm, ip, time, period, count := 1, map }
  let (i, rows) := insertRow t.keys row t.rows
  (i, { t with
    threads, rows, totalCount := t.totalCount + 1, totalPeriod := t.totalPeriod + period })

/-- Add a sample and the call chain that led to it. -/
def addChain (t : SampleTable) (pid tid : Pid) (ip time period : UInt64) (chain : List String) :
    Nat × SampleTable :=
  let (i, t) := t.add pid tid ip time period
  (i, { t with rows := t.rows.modify i fun row => row.addChain chain period })

/-- A sample without a period stands for one event. -/
def countedPeriod (s : Sample) : UInt64 := max s.period 1

/-- Take in a record: a sample becomes part of a row, and other records tell
of threads and maps. -/
def processRecord (t : SampleTable) : Record → SampleTable
  | .sample s =>
    (t.add (ThreadTree.pidOf s.pid) (ThreadTree.pidOf s.tid) s.ip s.time (countedPeriod s)).2
  | r => { t with threads := t.threads.update r }

def sortChains (t : SampleTable) : SampleTable :=
  { t with rows := t.rows.map fun row => { row with chains := row.chains.sort } }

/-- The rows with the heaviest first; equals stay in the order of their keys. -/
def byWeight (t : SampleTable) : List SampleRow :=
  t.rows.mergeSort fun a b => b.period ≤ a.period

end SampleTable
end Profiler
