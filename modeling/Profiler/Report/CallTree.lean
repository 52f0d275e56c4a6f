/-
# Trees of call chains

Call chains, outermost frame first, are kept as a tree in which chains share
their common beginnings. A node holds the frames that all chains through it
have next, the weight of the chains that end at it, and the weight of those
that go on. Where a chain leaves the frames of a node, the node is cut in two.

Weights are added as words, so a sum that is too large for one comes around. A
program that checks its sums ends there instead, and has a tree only where
every sum fits (`CallTree.insert?`).

Key definitions: `CallNode`, `CallTree`, `CallTree.insert`, `CallTree.insert?`,
`CallTree.sort`, `CallTree.nodes`.
Key theorems: `commonSplit_fst_append_left`, `commonSplit_fst_append_right`,
`not_mem_head?_commonSplit`.
-/
namespace Profiler

/-- The longest common beginning of two lists, and what each has after it. -/
def commonSplit [DecidableEq φ] : List φ → List φ → List φ × List φ × List φ
  | a :: as, b :: bs =>
    if a = b then
      let (common, as, bs) := commonSplit as bs
      (a :: common, as, bs)
    else ([], a :: as, b :: bs)
  | as, bs => ([], as, bs)

theorem commonSplit_fst_append_left [DecidableEq φ] (as bs : List φ) :
    (commonSplit as bs).1 ++ (commonSplit as bs).2.1 = as := by
  fun_induction commonSplit as bs with
  | case1 as b bs common as' bs' heq ih => rw [heq] at ih; simpa using ih
  | case2 => simp
  | case3 => simp

theorem commonSplit_fst_append_right [DecidableEq φ] (as bs : List φ) :
    (commonSplit as bs).1 ++ (commonSplit as bs).2.2 = bs := by
  fun_induction commonSplit as bs with
  | case1 as b bs common as' bs' heq ih => rw [heq] at ih; simpa using ih
  | case2 => simp
  | case3 => simp

/-- The longest common beginning is left where the lists part. -/
theorem not_mem_head?_commonSplit [DecidableEq φ] (as bs : List φ) :
    ∀ a ∈ (commonSplit as bs).2.1.head?, a ∉ (commonSplit as bs).2.2.head? := by
  fun_induction commonSplit as bs with
  | case1 as b bs common as' bs' heq ih => rw [heq] at ih; exact ih
  | case2 a as b bs hne => simpa using Ne.symm hne
  | case3 as bs hshort =>
    intro a ha hb
    cases as with
    | nil => cases ha
    | cons x xs =>
      cases bs with
      | nil => cases hb
      | cons y ys => exact hshort x xs y ys rfl rfl

/-- A node: its frames, the weight of the chains that end here, the weight of
those that go on, and where they go. -/
inductive CallNode (φ : Type) where
  | mk (frames : List φ) (period childrenPeriod : UInt64) (children : List (CallNode φ))
  deriving Repr

namespace CallNode

variable {φ : Type}

def frames : CallNode φ → List φ
  | mk frames _ _ _ => frames

def period : CallNode φ → UInt64
  | mk _ period _ _ => period

def childrenPeriod : CallNode φ → UInt64
  | mk _ _ childrenPeriod _ => childrenPeriod

def children : CallNode φ → List (CallNode φ)
  | mk _ _ _ children => children

def totalPeriod (n : CallNode φ) : UInt64 := n.period + n.childrenPeriod

def leaf (chain : List φ) (period : UInt64) : CallNode φ := mk chain period 0 []

mutual

/-- Add a chain that begins with the first frame of the node. -/
def insert [DecidableEq φ] (chain : List φ) (weight : UInt64) : CallNode φ → CallNode φ
  | mk frames period childrenPeriod children =>
    match commonSplit frames chain with
    | (_, [], []) => mk frames (period + weight) childrenPeriod children
    | (_, [], rest) => mk frames period (childrenPeriod + weight) (insertAmong rest weight children)
    | (common, tail, []) =>
      mk common weight (period + childrenPeriod) [mk tail period childrenPeriod children]
    | (common, tail, rest) =>
      mk common 0 (period + childrenPeriod + weight)
        [mk tail period childrenPeriod children, leaf rest weight]

/-- Add a chain to the node that begins like it, or as a new last node. -/
def insertAmong [DecidableEq φ] (chain : List φ) (weight : UInt64) :
    List (CallNode φ) → List (CallNode φ)
  | [] => [leaf chain weight]
  | n :: rest =>
    if n.frames.head? = chain.head? then n.insert chain weight :: rest
    else n :: insertAmong chain weight rest

end

/-- Whether the sum of two weights is a word. -/
def sumFits (a b : UInt64) : Bool := a.toNat + b.toNat < UInt64.size

mutual

/-- Whether the sums that adding a chain to the node makes are words. -/
def hasRoom [DecidableEq φ] (chain : List φ) (weight : UInt64) : CallNode φ → Bool
  | mk frames period childrenPeriod children =>
    match commonSplit frames chain with
    | (_, [], []) => sumFits period weight
    | (_, [], rest) => sumFits childrenPeriod weight && hasRoomAmong rest weight children
    | (_, _, []) => sumFits period childrenPeriod
    | (_, _, _) => sumFits period childrenPeriod && sumFits (period + childrenPeriod) weight

def hasRoomAmong [DecidableEq φ] (chain : List φ) (weight : UInt64) : List (CallNode φ) → Bool
  | [] => true
  | n :: rest =>
    if n.frames.head? = chain.head? then n.hasRoom chain weight
    else hasRoomAmong chain weight rest

end

/-- Siblings with the heaviest first; equals keep their order. -/
def sortSiblings (nodes : List (CallNode φ)) : List (CallNode φ) :=
  nodes.mergeSort fun a b => b.totalPeriod ≤ a.totalPeriod

mutual

def sort : CallNode φ → CallNode φ
  | mk frames period childrenPeriod children =>
    mk frames period childrenPeriod (sortSiblings (sortEach children))

def sortEach : List (CallNode φ) → List (CallNode φ)
  | [] => []
  | n :: rest => n.sort :: sortEach rest

end

mutual

def visit (depth : Nat) : CallNode φ → List (Nat × CallNode φ)
  | mk frames period childrenPeriod children =>
    (depth, mk frames period childrenPeriod children) :: visitEach (depth + 1) children

def visitEach (depth : Nat) : List (CallNode φ) → List (Nat × CallNode φ)
  | [] => []
  | n :: rest => n.visit depth ++ visitEach depth rest

end

end CallNode

/-- The chains of a set of samples. -/
structure CallTree (φ : Type) where
  childrenPeriod : UInt64 := 0
  children : List (CallNode φ) := []
  deriving Repr

namespace CallTree

variable {φ : Type}

instance : Inhabited (CallTree φ) := ⟨{}⟩

def isEmpty (t : CallTree φ) : Bool := t.children.isEmpty

/-- Add a chain, outermost frame first; a chain without frames does not count. -/
def insert [DecidableEq φ] (t : CallTree φ) (chain : List φ) (weight : UInt64) : CallTree φ :=
  if chain = [] then t
  else ⟨t.childrenPeriod + weight, CallNode.insertAmong chain weight t.children⟩

/-- Whether the sums that adding a chain makes are words. -/
def hasRoom [DecidableEq φ] (t : CallTree φ) (chain : List φ) (weight : UInt64) : Bool :=
  chain.isEmpty ||
    CallNode.sumFits t.childrenPeriod weight && CallNode.hasRoomAmong chain weight t.children

/-- Add a chain with its sums checked; none if one is too large. -/
def insert? [DecidableEq φ] (t : CallTree φ) (chain : List φ) (weight : UInt64) :
    Option (CallTree φ) :=
  if t.hasRoom chain weight then some (t.insert chain weight) else none

def sort (t : CallTree φ) : CallTree φ :=
  { t with children := CallNode.sortSiblings (CallNode.sortEach t.children) }

def nodes (t : CallTree φ) : List (Nat × CallNode φ) := CallNode.visitEach 0 t.children

end CallTree
end Profiler
