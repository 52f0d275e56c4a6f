/-
# Features of a record file

Beside its records a file holds features, each a payload under a number below
256. The features that have a name are listed here, in the order of their
numbers.

Key definitions: `Feature`, `Feature.names`, `featureName`, `featureId?`.
-/
namespace Profiler

abbrev Feature := Nat

namespace Feature

/-- Numbers from here on name no feature. -/
def bound : Nat := 256

def buildId : Feature := 2
def hostname : Feature := 3
def osRelease : Feature := 4
def arch : Feature := 6
def nrCpus : Feature := 7
def cmdline : Feature := 11
def eventDesc : Feature := 12
def branchStack : Feature := 15
def file : Feature := 128
def metaInfo : Feature := 129

/-- The names of the features that have one. -/
def names : List (Feature × String) :=
  [(1, "tracing_data"), (2, "build_id"), (3, "hostname"), (4, "osrelease"), (5, "version"),
    (6, "arch"), (7, "nrcpus"), (8, "cpudesc"), (9, "cpuid"), (10, "total_mem"), (11, "cmdline"),
    (12, "event_desc"), (13, "cpu_topology"), (14, "numa_topology"), (15, "branch_stack"),
    (16, "pmu_mappings"), (17, "group_desc"), (18, "auxtrace"), (128, "file"), (129, "meta_info"),
    (130, "debug_unwind"), (131, "debug_unwind_file"), (132, "file2"), (133, "etm_branch_list"),
    (134, "init_map")]

end Feature

def featureName (f : Feature) : String :=
  match Feature.names.find? (·.1 == f) with
  | some (_, name) => name
  | none => s!"unknown_feature({f})"

def featureId? (name : String) : Option Feature :=
  (Feature.names.find? (·.2 == name)).map Prod.fst

end Profiler
