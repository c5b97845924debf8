import TensorBind.Proofs.Liveness

/-!
# The analysis of a computation is exact

What an analysis says of a computation that was built is all true, and says
all there is to say: which nodes some output depends on, where the value of
such a node is first and last needed, how often it occurs, and the one
position at which it dies (`Liveness.analyze_exact`).

A node is read only behind its own position, so among the places at which a
live node occurs its own comes first. A live node that is no output was met
as the operand of another live node, so it has a reader, and the last of its
readers is the last place at which it occurs.

How often a node occurs is kept in 32 bits, so the count can be trusted only
below `2 ^ 32` occurrences, which fewer than `2 ^ 32 - 1` operands cannot
reach. A computation with that many operands for which the count is wrong can
be built (`Computation.manyReaders_uses_wrap`).
-/

namespace TensorBind

/-- The running maximum of a list that is not empty is its largest
member. -/
theorem isGreatest_foldl_max {l : List Nat} (h : l ≠ []) :
    IsGreatest {x | x ∈ l} (l.foldl max 0) := by
  cases l with
  | nil => exact absurd rfl h
  | cons x l =>
    have hmax : (x :: l).max? = some ((x :: l).foldl max 0) := by
      rw [List.max?_cons', List.foldl_cons, Nat.zero_max]
    obtain ⟨hmem, hle⟩ := List.max?_eq_some_iff.mp hmax
    exact ⟨hmem, fun y hy => hle y hy⟩

namespace Computation

variable {c : Computation} {id : Nat}

/-! ## Readers -/

/-- **The readers of a node** among those that some output depends on. -/
def readers (c : Computation) (id : Nat) : Set Nat :=
  {p | c.Reachable p ∧ id ∈ c.operandsOf p}

theorem mem_readers {p : Nat} :
    p ∈ c.readers id ↔ c.liveness.isLive p ∧ id ∈ c.operandsOf p := by
  refine and_congr_left fun hread => ?_
  rw [isLive_iff, and_iff_right (lt_length_of_mem_operandsOf hread)]

theorem operandsOf_eq {node : Node} (h : c.nodes[id]? = some node) :
    c.operandsOf id = node.op.operands := by
  rw [operandsOf, h]

/-- **A node is read only behind it.** -/
theorem WellFormed.lt_of_mem_operandsOf (hc : c.WellFormed) {x : Nat}
    (h : x ∈ c.operandsOf id) : x < id := by
  have hnode := List.getElem?_eq_getElem (lt_length_of_mem_operandsOf h)
  rw [operandsOf_eq hnode] at h
  exact (hc.fits hnode).operand_lt x h

/-- What can be reached from an output is a node. -/
theorem WellFormed.lt_length_of_reachable (hc : c.WellFormed)
    (h : c.Reachable id) : id < c.nodes.length := by
  obtain ⟨output, houtput, hpath⟩ := h
  induction hpath with
  | refl => exact hc.output_lt output houtput
  | tail _ hx ih => exact Nat.lt_trans (hc.lt_of_mem_operandsOf hx) ih

/-- **In a well-formed computation the live nodes are those that some
output depends on.** -/
theorem WellFormed.isLive_iff_reachable (hc : c.WellFormed) :
    c.liveness.isLive id ↔ c.Reachable id :=
  isLive_iff.trans (and_iff_right_of_imp hc.lt_length_of_reachable)

/-- **A live node that is no output is read** by a live node. -/
theorem readers_nonempty (hlive : c.liveness.isLive id)
    (hout : id ∉ c.outputs) : (c.readers id).Nonempty := by
  obtain ⟨output, houtput, hpath⟩ := reachable_of_isLive hlive
  rcases Relation.ReflTransGen.cases_tail hpath with rfl | ⟨p, hp, hread⟩
  · exact absurd houtput hout
  · exact ⟨p, ⟨output, houtput, hp⟩, hread⟩

/-! ## Where a node occurs -/

theorem mem_occurrences_self (hlive : c.liveness.isLive id) :
    id ∈ c.occurrences id :=
  mem_occurrences.mpr ⟨hlive, .inl rfl⟩

/-- **A live node first occurs where it stands.** -/
theorem WellFormed.headD_occurrences (hc : c.WellFormed)
    (hlive : c.liveness.isLive id) : (c.occurrences id).headD 0 = id := by
  have hself := mem_occurrences_self hlive
  have hsorted := c.pairwise_occurrences id
  have hmem : ∀ {p}, p ∈ c.occurrences id → id ≤ p := by
    intro p hp
    obtain ⟨-, rfl | hread⟩ := mem_occurrences.mp hp
    · exact Nat.le_refl _
    · exact Nat.le_of_lt (hc.lt_of_mem_operandsOf hread)
  cases hocc : c.occurrences id with
  | nil =>
    rw [hocc] at hself
    exact absurd hself List.not_mem_nil
  | cons p rest =>
    rw [hocc] at hself hsorted hmem
    show p = id
    refine Nat.le_antisymm ?_ (hmem List.mem_cons_self)
    rcases List.mem_cons.mp hself with rfl | hrest
    · exact Nat.le_refl _
    · exact List.rel_of_pairwise_cons hsorted hrest

/-- **The last place at which a live node occurs** is its last reader, or
its own place if it has none. -/
theorem WellFormed.last_occurrence (hc : c.WellFormed)
    (hlive : c.liveness.isLive id) :
    IsGreatest (c.readers id) ((c.occurrences id).foldl max 0)
      ∨ c.readers id = ∅ ∧ (c.occurrences id).foldl max 0 = id := by
  obtain ⟨hmem, hle⟩ := isGreatest_foldl_max
    (List.ne_nil_of_mem (mem_occurrences_self hlive))
  have hreader : ∀ p ∈ c.readers id, p ∈ c.occurrences id :=
    fun p hp => mem_occurrences.mpr ((mem_readers.mp hp).imp_right .inr)
  obtain ⟨hlast, heq | hread⟩ := mem_occurrences.mp hmem
  · refine .inr ⟨Set.eq_empty_iff_forall_notMem.mpr fun p hp => ?_, heq⟩
    have hbefore := hc.lt_of_mem_operandsOf hp.2
    have hafter := hle (hreader p hp)
    omega
  · exact .inl ⟨mem_readers.mpr ⟨hlast, hread⟩,
      fun p hp => hle (hreader p hp)⟩

/-- **A value dies at a position** exactly if it is live and no output, and
its last reader stands there. -/
theorem WellFormed.diesAt_iff_isGreatest (hc : c.WellFormed)
    {position : Nat} :
    c.liveness.diesAt id position ↔ c.liveness.isLive id
      ∧ id ∉ c.outputs ∧ IsGreatest (c.readers id) position := by
  rw [diesAt_iff]
  refine and_congr_right fun hlive => and_congr_right fun hout => ?_
  obtain hlast | ⟨hempty, -⟩ := hc.last_occurrence hlive
  · exact ⟨fun h => h ▸ hlast, fun h => hlast.unique h⟩
  · exact absurd (readers_nonempty hlive hout)
      (Set.not_nonempty_iff_eq_empty.mpr hempty)

/-! ## How often a node occurs -/

/-- **What the live nodes read**, once for each time it is read. -/
def liveOperands (c : Computation) : List Nat :=
  (c.nodes.zipIdx.filter fun node => c.liveness.isLive node.2).flatMap
    fun node => node.1.op.operands

/-- A node stands in one place. -/
theorem countP_zipIdx_nodes (h : id < c.nodes.length) :
    c.nodes.zipIdx.countP (fun node => node.2 = id) = 1 := by
  have hcount : ((c.nodes.zipIdx.map Prod.snd).count id) = 1 := by
    rw [List.zipIdx_map_snd]
    refine List.count_eq_one_of_mem List.nodup_range' ?_
    rw [List.mem_range'_1, Nat.zero_add]
    exact ⟨Nat.zero_le _, h⟩
  rw [List.count_eq_countP, List.countP_map] at hcount
  rw [← hcount]
  refine List.countP_congr fun node _ => ?_
  simp

/-- **Node by node** a live node occurs where it stands and where it is
read. -/
theorem length_flatMap_occurrences (hlive : c.liveness.isLive id)
    (nodes : List (Node × Nat)) :
    (nodes.flatMap fun node => if c.liveness.isLive node.2 then
      List.replicate ((node.2 :: node.1.op.operands).count id) node.2
      else []).length
    = nodes.countP (fun node => node.2 = id)
      + ((nodes.filter fun node => c.liveness.isLive node.2).flatMap
        fun node => node.1.op.operands).count id := by
  induction nodes with
  | nil => rfl
  | cons node nodes ih =>
    rw [List.flatMap_cons, List.length_append, ih, List.countP_cons,
      List.filter_cons]
    by_cases hnode : c.liveness.isLive node.2
    · rw [if_pos hnode, if_pos hnode, List.length_replicate,
        List.flatMap_cons, List.count_append, List.count_cons]
      by_cases hid : node.2 = id
      · simp only [hid, beq_self_eq_true, decide_true, if_true]
        omega
      · simp only [hid, beq_eq_false_iff_ne.mpr hid, decide_false,
          Bool.false_eq_true, if_false]
        omega
    · -- a dead node is not the one that is counted
      have hid : node.2 ≠ id := fun heq => hnode (heq ▸ hlive)
      rw [if_neg hnode, if_neg hnode]
      simp [hid]

/-- **A live node occurs once where it stands**, and once for each time it
is read. -/
theorem length_occurrences (hlive : c.liveness.isLive id) :
    (c.occurrences id).length = 1 + c.liveOperands.count id := by
  rw [occurrences, length_flatMap_occurrences hlive,
    countP_zipIdx_nodes (lt_length_of_isLive hlive), liveOperands]

/-- **How many operands there are**, of live and of dead nodes. -/
def operandCount (c : Computation) : Nat :=
  (c.nodes.flatMap fun node => node.op.operands).length

/-- What all nodes read, by their positions. -/
theorem flatMap_operands (c : Computation) :
    (c.nodes.flatMap fun node => node.op.operands)
      = c.nodes.zipIdx.flatMap fun node => node.1.op.operands := by
  conv_lhs => rw [← List.zipIdx_map_fst 0 c.nodes, List.flatMap_map]

/-- If every node is live, the operands of live nodes are all operands. -/
theorem liveOperands_eq (h : ∀ id < c.nodes.length, c.liveness.isLive id) :
    c.liveOperands = c.nodes.flatMap fun node => node.op.operands := by
  have hall : (c.nodes.zipIdx.filter fun node => c.liveness.isLive node.2)
      = c.nodes.zipIdx := by
    refine List.filter_eq_self.mpr fun node hnode => h node.2 ?_
    exact (List.getElem?_eq_some_iff.mp
      (List.mem_zipIdx_iff_getElem?.mp hnode)).1
  rw [liveOperands, hall, flatMap_operands]

/-- **No node is read more often than there are operands.** -/
theorem count_liveOperands_le (c : Computation) (id : Nat) :
    c.liveOperands.count id ≤ c.operandCount := by
  refine List.count_le_length.trans ?_
  rw [operandCount, flatMap_operands]
  exact (List.filter_sublist.flatMap _).length_le

/-! ## Lifetimes -/

/-- **The lifetime that a node should have**, if some output depends on
it. -/
structure HasLifetime (c : Computation) (id : Nat) (lifetime : Lifetime) :
    Prop where
  /-- Its value is defined where it stands. -/
  first : lifetime.first = id
  /-- The value is needed up to its last reader, or nowhere else. -/
  last : IsGreatest (c.readers id) lifetime.last
    ∨ c.readers id = ∅ ∧ lifetime.last = id
  /-- It occurs where it stands and as often as it is read. -/
  uses : lifetime.uses = 1 + c.liveOperands.count id
  /-- It is kept exactly if it is an output. -/
  pinned : lifetime.pinned ↔ id ∈ c.outputs

/-- The lifetime of a live node is found in the table. -/
theorem lifetime?_eq (hlive : c.liveness.isLive id) :
    c.liveness.lifetime? id
      = some { Lifetime.ofOccurrences (c.occurrences id) with
          pinned := decide (id ∈ c.outputs) } :=
  (if_pos hlive).trans (getElem?_lifetimes (lt_length_of_isLive hlive))

/-- **The reference count of a live node** is how often it occurs, as far as
32 bits tell. -/
theorem exists_uses (hlive : c.liveness.isLive id) :
    ∃ lifetime, c.liveness.lifetime? id = some lifetime
      ∧ lifetime.uses = (1 + c.liveOperands.count id) % 2 ^ 32 := by
  refine ⟨_, lifetime?_eq hlive, ?_⟩
  rw [← length_occurrences hlive]
  exact Lifetime.uses_ofOccurrences _

/-- **A live node has the lifetime that it should have**, if there are too
few operands to fill its reference count. -/
theorem WellFormed.exists_lifetime (hc : c.WellFormed)
    (hfew : c.operandCount < 2 ^ 32 - 1) (hlive : c.liveness.isLive id) :
    ∃ lifetime, c.liveness.lifetime? id = some lifetime
      ∧ c.HasLifetime id lifetime := by
  have hcount : 1 + c.liveOperands.count id < 2 ^ 32 := by
    have hle := c.count_liveOperands_le id
    omega
  obtain ⟨lifetime, hfound, huses⟩ := exists_uses hlive
  refine ⟨lifetime, hfound, ?_⟩
  obtain rfl := Option.some.inj (hfound.symm.trans (lifetime?_eq hlive))
  refine ⟨?_, ?_, huses.trans (Nat.mod_eq_of_lt hcount), decide_eq_true_iff⟩
  · refine (Lifetime.first_ofOccurrences ?_).trans (hc.headD_occurrences hlive)
    rwa [length_occurrences hlive]
  · have hlast := Lifetime.last_ofOccurrences (c.pairwise_occurrences id)
    exact hlast ▸ hc.last_occurrence hlive

/-- **A live node that is no output dies at one position**, behind its
own. -/
theorem WellFormed.exists_diesAt (hc : c.WellFormed)
    (hlive : c.liveness.isLive id) (hout : id ∉ c.outputs) :
    ∃ p, id < p ∧ ∀ q, c.liveness.diesAt id q ↔ q = p := by
  obtain hlast | ⟨hempty, -⟩ := hc.last_occurrence hlive
  · refine ⟨_, hc.lt_of_mem_operandsOf hlast.1.2, fun q => ?_⟩
    rw [hc.diesAt_iff_isGreatest, and_iff_right hlive, and_iff_right hout]
    exact ⟨fun h => h.unique hlast, fun h => h ▸ hlast⟩
  · exact absurd (readers_nonempty hlive hout)
      (Set.not_nonempty_iff_eq_empty.mpr hempty)

end Computation

namespace Liveness

variable {c : Computation}

/-- **A search visits only nodes**: as long as it goes on, what it takes
next is a node. -/
theorem exists_rounds_search (hc : c.WellFormed) (l : Liveness) :
    ∃ k, (Search.round c)^[k] (l.search c) = ⟨[], (l.analyze c).live⟩
      ∧ ∀ j < k, ∃ id rest,
        ((Search.round c)^[j] (l.search c)).stack = id :: rest
          ∧ id < c.nodes.length := by
  obtain ⟨k, -, hend, hbefore⟩ := Search.exists_rounds c (l.search c)
  refine ⟨k, hend, fun j hj => ?_⟩
  have hwithin : ((Search.round c)^[j] (l.search c)).Within c.Reachable :=
    Function.Iterate.rec (Search.Within c.Reachable)
      (l.within_search c)
      (fun _ hs => hs.round fun _ hv _ hx => hv.operand hx) j
  obtain ⟨id, rest, hstack⟩ := List.exists_cons_of_ne_nil (hbefore j hj)
  refine ⟨id, rest, hstack, hc.lt_length_of_reachable ?_⟩
  exact hwithin.stack id (hstack ▸ List.mem_cons_self)

theorem liveCount_add_deadCount (l : Liveness) :
    l.liveCount + l.deadCount = l.live.length :=
  Nat.add_sub_cancel' List.count_le_length

/-- **An analysis is exact**, for every computation that can be built with
fewer than `2 ^ 32 - 1` operands and whatever was analysed before.

The search ends and visits nodes only. A node is live exactly if some output
depends on it. The lifetime of a live node is the one it should have. A live
node that is no output dies at exactly one position, behind its own, and no
other node dies anywhere. Live and dead nodes are all nodes. -/
theorem analyze_exact (hc : c.Built) (hfew : c.operandCount < 2 ^ 32 - 1)
    (l : Liveness) :
    let a := l.analyze c
    (∃ k, (Search.round c)^[k] (l.search c) = ⟨[], a.live⟩
      ∧ ∀ j < k, ∃ id rest,
        ((Search.round c)^[j] (l.search c)).stack = id :: rest
          ∧ id < c.nodes.length)
    ∧ (∀ id, a.isLive id ↔ c.Reachable id)
    ∧ (∀ id, a.isLive id → ∃ lifetime, a.lifetime? id = some lifetime
      ∧ c.HasLifetime id lifetime)
    ∧ (∀ id, a.isLive id → id ∉ c.outputs →
      ∃ p, id < p ∧ ∀ q, a.diesAt id q ↔ q = p)
    ∧ (∀ id, ¬(a.isLive id ∧ id ∉ c.outputs) → ∀ p, ¬a.diesAt id p)
    ∧ a.liveCount + a.deadCount = c.nodes.length
    ∧ ∀ before : Liveness, before.analyze c = a := by
  intro a
  have hwf := hc.wellFormed
  have ha : a = c.liveness := l.analyze_eq c
  refine ⟨exists_rounds_search hwf l, ?_⟩
  rw [ha]
  refine ⟨fun id => hwf.isLive_iff_reachable,
    fun id => hwf.exists_lifetime hfew, fun id => hwf.exists_diesAt,
    fun id hid p hdies => hid ?_, ?_, fun before => before.analyze_eq c⟩
  · obtain ⟨hlive, hout, -⟩ := Computation.diesAt_iff.mp hdies
    exact ⟨hlive, hout⟩
  · rw [liveCount_add_deadCount, Computation.length_live]

/-- The sum of two parameters times the second of them, which a node that
nothing depends on reads as well. -/
def sumTimesSecond : Computation :=
  ⟨"f", [⟨.parameter 0, ⟨.s32, []⟩⟩, ⟨.parameter 1, ⟨.s32, []⟩⟩,
    ⟨.unary .negate 1, ⟨.s32, []⟩⟩, ⟨.binary .add 0 1, ⟨.s32, []⟩⟩,
    ⟨.binary .multiply 3 1, ⟨.s32, []⟩⟩], [0, 1], [4]⟩

/-- The tables are full of marks and of a lifetime that was pinned, and one
of them is too short. The second parameter occurs three times, and dies
where it is read last. -/
theorem sumTimesSecond_analyze_exact :
    let a := analyze ⟨[true, true, true, true, true, true, true],
      [⟨9, 9, 9, true⟩, ⟨9, 9, 9, true⟩]⟩ sumTimesSecond
    (∃ k, ((Search.round sumTimesSecond)^[k] ⟨[4],
        [false, false, false, false, false]⟩).stack = [])
    ∧ ¬sumTimesSecond.Reachable 2
    ∧ (∃ lifetime, a.lifetime? 1 = some lifetime ∧ lifetime.first = 1
      ∧ lifetime.uses = 3 ∧ 4 ≤ lifetime.last ∧ ¬lifetime.pinned)
    ∧ (∃ p, 1 < p ∧ ∀ q, a.diesAt 1 q ↔ q = p) ∧ ¬a.diesAt 2 4
    ∧ a.liveCount + a.deadCount = 5 := by
  intro a
  have hbuilt : sumTimesSecond.Built :=
    ⟨"f", [.parameter 0 ⟨.s32, []⟩, .parameter 1 ⟨.s32, []⟩,
      .unary .negate 1, .binary .add 0 1, .binary .multiply 3 1], [4], rfl⟩
  obtain ⟨⟨k, hk, -⟩, hreachable, hlifetime, hdies, hdead, hcount, -⟩ :=
    analyze_exact hbuilt (by decide)
      ⟨[true, true, true, true, true, true, true],
        [⟨9, 9, 9, true⟩, ⟨9, 9, 9, true⟩]⟩
  have hlive : a.isLive 1 := by cbv
  have hnot : ¬a.isLive 2 := Bool.eq_false_iff.mp (by cbv)
  obtain ⟨lifetime, hfound, hshould⟩ := hlifetime 1 hlive
  have hreader : 4 ∈ sumTimesSecond.readers 1 :=
    ⟨Computation.reachable_of_mem_outputs List.mem_cons_self, by decide⟩
  refine ⟨⟨k, congrArg Search.stack hk⟩, fun h => hnot ((hreachable 2).mpr h),
    ⟨lifetime, hfound, hshould.first, ?_, ?_, ?_⟩,
    hdies 1 hlive (by decide), hdead 2 (fun h => hnot h.1) 4, hcount⟩
  · rw [hshould.uses]
    cbv
  · rcases hshould.last with hlast | ⟨hempty, -⟩
    · exact hlast.2 hreader
    · exact absurd (hempty ▸ hreader) (Set.notMem_empty 4)
  · rw [hshould.pinned]
    decide

end Liveness

/-! ## A reference count that is too small -/

namespace Computation

/-- **A parameter with many readers**: `n` sums read it twice and a negation
reads it once, and all of them are outputs. -/
def manyReaders (n : Nat) : Computation :=
  ⟨"f", ⟨.parameter 0, ⟨.s32, []⟩⟩
      :: (List.replicate n ⟨.binary .add 0 0, ⟨.s32, []⟩⟩
        ++ [⟨.unary .negate 0, ⟨.s32, []⟩⟩]),
    [0], List.range' 1 (n + 1)⟩

theorem length_nodes_manyReaders (n : Nat) :
    (manyReaders n).nodes.length = n + 2 := by
  simp [manyReaders]

/-- Adding a node to itself over and over adds as many nodes. -/
theorem after_replicate_add (n : Nat) {b : Builder} {node : Node}
    {calls : List Builder.Call} (h : b.nodes[0]? = some node)
    (hshape : node.shape = ⟨.s32, []⟩) :
    b.after (List.replicate n (.binary .add 0 0) ++ calls)
      = Builder.after ⟨b.name, b.nodes
          ++ List.replicate n ⟨.binary .add 0 0, ⟨.s32, []⟩⟩⟩ calls := by
  induction n generalizing b with
  | zero => simp
  | succ n ih =>
    have hsum : b.perform (.binary .add 0 0)
        = .ok (b.push (.binary .add 0 0) ⟨.s32, []⟩).2 := by
      have hoperand : b.operandShape 0 = .ok ⟨.s32, []⟩ := by
        rw [Builder.operandShape, h]
        exact congrArg _ hshape
      rw [Builder.perform, Builder.binary, hoperand]
      rfl
    have hfirst : (b.push (.binary .add 0 0) ⟨.s32, []⟩).2.nodes[0]?
        = some node := by
      rw [Builder.push, List.getElem?_append_left
        (List.getElem?_eq_some_iff.mp h).1, h]
    rw [List.replicate_succ, List.cons_append, Builder.after, hsum]
    show (b.push _ _).2.after _ = _
    rw [ih hfirst, Builder.push, List.replicate_succ, List.append_assoc]
    rfl

/-- Nodes that take no parameter leave the number of parameters as it is. -/
theorem parameterCount_append_of_ne {name : String}
    {nodes rest : List Node}
    (h : ∀ node ∈ rest, ∀ number, node.op ≠ .parameter number) :
    Builder.parameterCount ⟨name, nodes ++ rest⟩
      = Builder.parameterCount ⟨name, nodes⟩ := by
  unfold Builder.parameterCount
  rw [List.foldl_append]
  refine List.foldlRecOn rest _ (motive := (· = _)) rfl ?_
  intro count hcount node hnode
  split
  · rename_i number hop
    exact absurd hop (h node hnode number)
  · exact hcount

/-- **A parameter with many readers can be built.** -/
theorem built_manyReaders (n : Nat) : (manyReaders n).Built := by
  refine ⟨"f", .parameter 0 ⟨.s32, []⟩
    :: (List.replicate n (.binary .add 0 0) ++ [.unary .negate 0]),
    List.range' 1 (n + 1), ?_⟩
  have hafter : (Builder.empty "f").after (.parameter 0 ⟨.s32, []⟩
      :: (List.replicate n (.binary .add 0 0) ++ [.unary .negate 0]))
      = ⟨"f", (manyReaders n).nodes⟩ := by
    show Builder.after ⟨"f", [⟨.parameter 0, ⟨.s32, []⟩⟩]⟩ _ = _
    rw [after_replicate_add n rfl rfl]
    rfl
  have hcount : Builder.parameterCount ⟨"f", (manyReaders n).nodes⟩ = 1 := by
    show Builder.parameterCount
      ⟨"f", [⟨.parameter 0, ⟨.s32, []⟩⟩] ++ _⟩ = _
    refine parameterCount_append_of_ne fun node hnode number => ?_
    rcases List.mem_append.mp hnode with hsum | hnegation
    · rw [List.eq_of_mem_replicate hsum]
      exact NodeOp.noConfusion
    · rw [List.mem_singleton.mp hnegation]
      exact NodeOp.noConfusion
  rw [hafter]
  refine Builder.build_eq_ok.mpr ⟨by simp, fun id hid => ?_, [0], ?_, rfl⟩
  · rw [List.mem_range'_1] at hid
    rw [length_nodes_manyReaders]
    omega
  · rw [hcount]
    rfl

/-- Nothing but the parameter is read. -/
theorem flatMap_operands_manyReaders (n : Nat) :
    ((manyReaders n).nodes.flatMap fun node => node.op.operands)
      = List.replicate (2 * n + 1) 0 := by
  have hsums : (List.replicate n
      (⟨.binary .add 0 0, ⟨.s32, []⟩⟩ : Node)).flatMap
      (fun node => node.op.operands) = List.replicate (n * 2) 0 := by
    rw [List.flatMap_replicate]
    show (List.replicate n (List.replicate 2 0)).flatten = _
    exact List.flatten_replicate_replicate
  rw [manyReaders, List.flatMap_cons, List.flatMap_append, hsums,
    Nat.mul_comm, List.replicate_succ']
  rfl

/-- Every node is an output or read by one. -/
theorem isLive_manyReaders {n id : Nat}
    (h : id < (manyReaders n).nodes.length) :
    (manyReaders n).liveness.isLive id := by
  have hlength := length_nodes_manyReaders n
  have hreader : ∀ k, 1 ≤ k → k < n + 2 →
      (manyReaders n).liveness.isLive k := fun k hk hlt =>
    isLive_of_mem_outputs (hlength ▸ hlt)
      (List.mem_range'_1.mpr ⟨hk, by omega⟩)
  rcases Nat.eq_zero_or_pos id with rfl | hpos
  · -- the negation comes last and reads the parameter
    refine isLive_of_mem_operandsOf h (hreader (n + 1) (by omega) (by omega)) ?_
    simp [operandsOf, manyReaders, NodeOp.operands]
  · exact hreader id hpos (hlength ▸ h)

/-- **From `2 ^ 32 - 1` operands on a reference count may be wrong.** Here
they are all the one parameter, whose count has started again at zero. -/
theorem manyReaders_uses_wrap :
    (manyReaders (2 ^ 31 - 1)).Built
    ∧ (manyReaders (2 ^ 31 - 1)).operandCount = 2 ^ 32 - 1
    ∧ ∃ lifetime,
      (manyReaders (2 ^ 31 - 1)).liveness.lifetime? 0 = some lifetime
        ∧ lifetime.uses = 0
        ∧ ¬(manyReaders (2 ^ 31 - 1)).HasLifetime 0 lifetime := by
  have hlive : (manyReaders (2 ^ 31 - 1)).liveness.isLive 0 := by
    refine isLive_manyReaders ?_
    rw [length_nodes_manyReaders]
    exact Nat.succ_pos _
  have hcount :
      (manyReaders (2 ^ 31 - 1)).liveOperands.count 0 = 2 ^ 32 - 1 := by
    rw [liveOperands_eq fun _ => isLive_manyReaders,
      flatMap_operands_manyReaders, List.count_replicate_self]
    rfl
  obtain ⟨lifetime, hfound, huses⟩ := exists_uses hlive
  rw [hcount] at huses
  refine ⟨built_manyReaders _, ?_, lifetime, hfound, huses, fun h => ?_⟩
  · rw [operandCount, flatMap_operands_manyReaders, List.length_replicate]
    rfl
  · have hshould := h.uses
    rw [hcount] at hshould
    exact absurd (huses.symm.trans hshould) (by decide)

end Computation

end TensorBind
