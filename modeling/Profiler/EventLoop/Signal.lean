/-
# Signals

Key definitions: `Signal.number`.
-/
namespace Profiler
namespace Signal

def hangup : Nat := 1

def interrupt : Nat := 2

def terminate : Nat := 15

/-- The signals that are known by name. -/
def names : List (String × Nat) :=
  [("HUP", hangup), ("INT", interrupt), ("USR1", 10), ("USR2", 12), ("TERM", terminate)]

/-- The number of a signal; no signal has the number 0. -/
def number (name : String) : Nat := (names.lookup name).getD 0

end Signal
end Profiler
