/-
# Shortening samples

A sample that carries registers and a copy of the stack can be stored shorter:
the part of the stack that nobody will read can go, or, once the stack has been
unwound, registers and stack can give way to the call chain they led to.

Key definitions: `Sample.trimUserStack`, `Sample.replaceRegsAndStack`.
-/
import Profiler.Record.Basic

namespace Profiler

/-- The call chain entry that says the next frames are a user program's. -/
def userContext : UInt64 := 0xfffffffffffffe00

/-- The call chain entry that says the next frames are the kernel's. -/
def kernelContext : UInt64 := 0xffffffffffffff80

/-- Call chain entries from here on are marks and no addresses. -/
def leastContext : UInt64 := 0xfffffffffffff001

namespace Sample

/-- Keep at most `length` bytes of the stack, rounded down to whole words. -/
def trimUserStack (s : Sample) (length : Nat) : Sample :=
  let data := s.userStack.data.take (length / 8 * 8)
  let inUse := UInt64.ofNat data.length
  { s with userStack :=
      { data, dynSize := if s.userStack.dynSize ≤ inUse then s.userStack.dynSize else inUse } }

/-- Append user frames to a call chain, under a user mark. -/
def appendUserFrames (chain ips : List UInt64) : List UInt64 :=
  if ips.isEmpty then chain
  else if chain.getLast? = some userContext then chain ++ ips
  else chain ++ [userContext] ++ ips

/-- Put the frames that unwinding gave in the place of registers and stack. -/
def replaceRegsAndStack (s : Sample) (ips : List UInt64) : Sample :=
  let chain := if s.has .callchain then s.callchain else []
  { s with
    sampleType := (s.sampleType ||| SampleField.callchain.mask) &&&
      ~~~(SampleField.regsUser.mask ||| SampleField.stackUser.mask)
    callchain := appendUserFrames chain ips
    userRegs := { mask := s.userRegs.mask }
    userStack := {} }

end Sample
end Profiler
