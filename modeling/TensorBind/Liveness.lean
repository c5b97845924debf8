import TensorBind.Computation.Basic

/-!
# Liveness of nodes

The liveness analysis that drives slot allocation, aotc's `Analyzer`. Only
the nodes that some output depends on are compiled. They are found by
following operands from the outputs (`Search`): a worklist of nodes is popped
until it is empty, and a node is marked and expanded the first time it is
met. Each expansion takes a node out of those not yet marked, which is why
the search ends.

A second pass over the live nodes, in definition order, records for each of
them the position of its definition, the position of its last use and its
reference count (`Lifetime`). Output nodes are pinned: their slots are never
recycled, whatever their last use.

An analyzer keeps both tables and reuses them for the next computation
(`Liveness.analyze`).
-/

namespace TensorBind

/-- **aotc's `LivenessInfo`**: the liveness of a single node. -/
structure Lifetime where
  /-- The position of the node, where its value is defined. -/
  first : Nat
  /-- The position of the last node that reads the value. -/
  last : Nat
  /-- The `ref_count`: the number of uses, the definition included. It is a
  word of 32 bits and wraps around; a build that checks for overflow stops
  there. -/
  refCount : UInt32
  /-- Whether the value is an output and stays allocated. -/
  pinned : Bool
deriving DecidableEq, Repr

namespace Lifetime

/-- The information of a node before any use is recorded. -/
def unused : Lifetime := ⟨0, 0, 0, false⟩

/-- The reference count as a number. -/
def uses (l : Lifetime) : Nat := l.refCount.toNat

/-- aotc's `record` on one entry of the table. The use that makes the count
one is taken for the definition. -/
def record (position : Nat) (l : Lifetime) : Lifetime :=
  let refCount := l.refCount + 1
  if refCount = 1 then
    { l with first := position, last := position, refCount }
  else { l with last := max l.last position, refCount }

end Lifetime

namespace Computation

/-- The nodes that a node reads, none for a position that is no node. -/
def operandsOf (c : Computation) (id : Nat) : List Nat :=
  match c.nodes[id]? with
  | some node => node.op.operands
  | none => []

theorem length_operandsOf_le_two (c : Computation) (id : Nat) :
    (c.operandsOf id).length ≤ 2 := by
  unfold operandsOf
  split
  · exact NodeOp.length_operands_le_two _
  · simp

end Computation

/-- **The worklist loop of `analyze`**, which marks the nodes that some output
depends on. -/
structure Search where
  /-- The worklist, its top in front. -/
  stack : List Nat
  /-- For each node, whether it has been visited. -/
  marks : List Bool
deriving DecidableEq

namespace Search

/-- **One iteration**: pops a node and, unless it is marked, marks it and
pushes its operands, so that the last operand is on top. -/
def round (c : Computation) (s : Search) : Search :=
  match s.stack with
  | [] => s
  | id :: rest =>
    if s.marks[id]? = some false then
      ⟨(c.operandsOf id).reverse ++ rest, s.marks.set id true⟩
    else ⟨rest, s.marks⟩

/-- The measure of the loop: a node that is not marked pushes two others at
most. -/
def weight (s : Search) : Nat := 3 * s.marks.count false + s.stack.length

/-- Every iteration lowers the measure. -/
theorem weight_round_lt (c : Computation) {s : Search} (h : s.stack ≠ []) :
    (s.round c).weight < s.weight := by
  obtain ⟨stack, marks⟩ := s
  cases stack with
  | nil => exact absurd rfl h
  | cons id rest =>
    unfold round
    dsimp only
    split
    · rename_i hmark
      obtain ⟨hlt, hfalse⟩ := List.getElem?_eq_some_iff.mp hmark
      have hop := c.length_operandsOf_le_two id
      have hcount : (marks.set id true).count false
          = marks.count false - 1 := by
        rw [List.count_set hlt, hfalse]
        simp
      have hpos : 0 < marks.count false :=
        List.count_pos_iff.mpr (hfalse ▸ List.getElem_mem hlt)
      simp only [weight, hcount, List.length_append, List.length_reverse,
        List.length_cons]
      omega
    · simp [weight]

/-- **The marks when the worklist is empty.** -/
def finish (c : Computation) (s : Search) : List Bool :=
  if s.stack = [] then s.marks else (s.round c).finish c
termination_by s.weight
decreasing_by exact weight_round_lt c (by assumption)

end Search

/-- **aotc's `Analyzer`**: the two tables of an analysis. -/
structure Liveness where
  /-- For each node, whether some output depends on it. -/
  live : List Bool
  /-- For each node, its liveness information. -/
  lifetimes : List Lifetime
deriving DecidableEq

namespace Liveness

/-- Whether a node is live, aotc's `is_live`. A position past the last node is
not. -/
def isLive (l : Liveness) (id : Nat) : Bool := l.live[id]?.getD false

/-- aotc's `liveness`: the information of a live node. -/
def lifetime? (l : Liveness) (id : Nat) : Option Lifetime :=
  if l.isLive id then l.lifetimes[id]? else none

/-- **aotc's `dies_at`**: whether the value of a node is dead once the node at
a position has read its operands. -/
def diesAt (l : Liveness) (id position : Nat) : Bool :=
  (l.lifetime? id).any fun lifetime =>
    !lifetime.pinned && lifetime.last == position

/-- How many nodes are live, aotc's `live_count`. -/
def liveCount (l : Liveness) : Nat := l.live.count true

/-- How many nodes are dead, aotc's `dead_count`. -/
def deadCount (l : Liveness) : Nat := l.live.length - l.liveCount

/-- aotc's `record`: counts a use of a node at a position. -/
def recordUse (position : Nat) (lifetimes : List Lifetime) (id : Nat) :
    List Lifetime :=
  lifetimes.modify id (Lifetime.record position)

/-- Records the definition of a node and the use of each operand. -/
def recordNode (lifetimes : List Lifetime) (node : Node) (position : Nat) :
    List Lifetime :=
  (position :: node.op.operands).foldl (recordUse position) lifetimes

/-- Pins an output. -/
def pin (lifetimes : List Lifetime) (id : Nat) : List Lifetime :=
  lifetimes.modify id fun lifetime => { lifetime with pinned := true }

/-- A new analyzer. -/
def empty : Liveness := ⟨[], []⟩

/-- A table cut or padded to a length. -/
def resize {α : Type} (count : Nat) (fill : α) (table : List α) : List α :=
  table.take count ++ List.replicate (count - table.length) fill

/-- A table that is cleared and then padded to a length. -/
def renew {α : Type} (count : Nat) (fill : α) (table : List α) : List α :=
  resize count fill (table.take 0)

/-- The worklist at the start: the outputs, the last one on top, and no
marks. -/
def search (l : Liveness) (c : Computation) : Search :=
  ⟨c.outputs.reverse, renew c.nodes.length false l.live⟩

/-- **aotc's `analyze`**, by an analyzer that may have been used before. -/
def analyze (l : Liveness) (c : Computation) : Liveness :=
  let live := (l.search c).finish c
  let used := (c.nodes.zipIdx.zip live).foldl
    (fun lifetimes ((node, position), alive) =>
      if alive then recordNode lifetimes node position else lifetimes)
    (renew c.nodes.length Lifetime.unused l.lifetimes)
  ⟨live, c.outputs.foldl pin used⟩

end Liveness

/-- **The liveness of a computation**, by a new analyzer. -/
def Computation.liveness (c : Computation) : Liveness :=
  Liveness.empty.analyze c

end TensorBind
