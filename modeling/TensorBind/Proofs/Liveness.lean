import TensorBind.Liveness
import TensorBind.Proofs.Computation.WellFormed

/-!
# What the liveness of a node means

Two things are asked of the analysis of a computation. The live nodes are
to be those that some output depends on: a node is live exactly if operands
lead to it from an output (`Computation.isLive_iff`). And a value that dies
at a position is to be needed no more: it is no output, and no live node
behind that position reads it (`Computation.diesAt_iff`).

For the first, the rounds of the search keep two things: what is marked or
still to be visited can be reached, and the operands of what is marked are
marked or still to be visited. For the second, a lifetime is what recording
leads to over the list of the places at which a node occurs
(`Computation.occurrences`), so that its last use is the largest of them.
-/

namespace TensorBind

/-! ## The search -/

namespace Search

variable {c : Computation} {s : Search} {id : Nat}

/-- **What a round does**: nothing if nothing is to be visited, else it
expands the next node or passes over it. -/
theorem round_cases (c : Computation) (s : Search) :
    s.stack = [] ∧ s.round c = s
    ∨ ∃ id rest, s.stack = id :: rest
      ∧ (s.marks[id]? = some false ∧ s.round c
          = ⟨(c.operandsOf id).reverse ++ rest, s.marks.set id true⟩
        ∨ s.marks[id]? ≠ some false ∧ s.round c = ⟨rest, s.marks⟩) := by
  obtain ⟨stack, marks⟩ := s
  cases stack with
  | nil => exact .inl ⟨rfl, rfl⟩
  | cons id rest =>
    refine .inr ⟨id, rest, rfl, ?_⟩
    by_cases hmark : marks[id]? = some false
    · exact .inl ⟨hmark, if_pos hmark⟩
    · exact .inr ⟨hmark, if_neg hmark⟩

/-- **The search ends**: after some rounds, and not before, nothing is left
to be visited, and there are no more rounds than there was to do. -/
theorem exists_rounds (c : Computation) (s : Search) :
    ∃ k ≤ s.weight, (round c)^[k] s = ⟨[], s.finish c⟩
      ∧ ∀ j < k, ((round c)^[j] s).stack ≠ [] := by
  fun_induction finish c s with
  | case1 s hstack =>
    obtain ⟨stack, marks⟩ := s
    subst hstack
    exact ⟨0, Nat.zero_le _, rfl, fun j hj => absurd hj (Nat.not_lt_zero j)⟩
  | case2 s hstack ih =>
    obtain ⟨k, hk, hend, hbefore⟩ := ih
    have hlt := weight_round_lt c hstack
    refine ⟨k + 1, by omega, hend, fun j hj => ?_⟩
    cases j with
    | zero => exact hstack
    | succ j => exact hbefore j (by omega)

/-- **What every round keeps holds at the end.** -/
theorem finish_invariant {P : Search → Prop}
    (hround : ∀ s, P s → P (s.round c)) (hs : P s) :
    P ⟨[], s.finish c⟩ := by
  obtain ⟨k, -, hend, -⟩ := exists_rounds c s
  rw [← hend]
  exact Function.Iterate.rec P hs hround k

@[simp] theorem length_marks_round :
    (s.round c).marks.length = s.marks.length := by
  obtain ⟨-, h⟩ | ⟨_, _, -, ⟨-, h⟩ | ⟨-, h⟩⟩ := round_cases c s
  · rw [h]
  · rw [h, List.length_set]
  · rw [h]

@[simp] theorem length_finish :
    (s.finish c).length = s.marks.length :=
  finish_invariant (P := fun t => t.marks.length = s.marks.length)
    (fun _ ht => length_marks_round.trans ht) rfl

/-- **Only what is met on the way is marked**: if what is to be visited has
a property that operands inherit, so has what is marked. -/
structure Within (P : Nat → Prop) (s : Search) : Prop where
  /-- What is to be visited has the property. -/
  stack : ∀ id ∈ s.stack, P id
  /-- What is marked has it. -/
  marked : ∀ id, s.marks[id]? = some true → P id

theorem Within.round {P : Nat → Prop} (h : s.Within P)
    (hop : ∀ id, P id → ∀ x ∈ c.operandsOf id, P x) :
    (s.round c).Within P := by
  obtain ⟨-, heq⟩ | ⟨id, rest, hstack, ⟨-, heq⟩ | ⟨-, heq⟩⟩ :=
    round_cases c s
  · rwa [heq]
  · have hall := h.stack
    rw [hstack, List.forall_mem_cons] at hall
    rw [heq]
    refine ⟨List.forall_mem_append.mpr ⟨fun x hx => ?_, hall.2⟩,
      fun x hx => ?_⟩
    · exact hop id hall.1 x (List.mem_reverse.mp hx)
    · by_cases hid : id = x
      · exact hid ▸ hall.1
      · rw [List.getElem?_set_ne hid] at hx
        exact h.marked x hx
  · have hall := h.stack
    rw [hstack, List.forall_mem_cons] at hall
    rw [heq]
    exact ⟨hall.2, h.marked⟩

/-- **Nothing is lost on the way**: what has to be met is marked or still to
be visited, and so are the operands of what is marked. -/
structure Covers (c : Computation) (roots : List Nat) (s : Search) :
    Prop where
  /-- What has to be met is marked or to be visited. -/
  root : ∀ id ∈ roots, id < s.marks.length →
    s.marks[id]? = some true ∨ id ∈ s.stack
  /-- The operands of what is marked are marked or to be visited. -/
  operand : ∀ id, s.marks[id]? = some true → ∀ x ∈ c.operandsOf id,
    x < s.marks.length → s.marks[x]? = some true ∨ x ∈ s.stack

/-- What was marked or to be visited is so after a round. -/
theorem marked_or_mem_stack_round (hlt : id < s.marks.length)
    (h : s.marks[id]? = some true ∨ id ∈ s.stack) :
    (s.round c).marks[id]? = some true ∨ id ∈ (s.round c).stack := by
  obtain ⟨-, heq⟩ | ⟨next, rest, hstack, ⟨-, heq⟩ | ⟨hmet, heq⟩⟩ :=
    round_cases c s
  · rwa [heq]
  · rw [heq]
    by_cases hid : next = id
    · exact .inl (hid ▸ List.getElem?_set_self (hid ▸ hlt))
    · rw [hstack, List.mem_cons] at h
      rw [List.getElem?_set_ne hid]
      refine h.imp_right fun hmem => List.mem_append_right _ ?_
      exact hmem.resolve_left (Ne.symm hid)
  · rw [heq]
    rw [hstack, List.mem_cons] at h
    rcases h with h | rfl | h
    · exact .inl h
    · -- a node that is passed over is marked
      rw [List.getElem?_eq_getElem hlt, Ne, Option.some.injEq,
        Bool.not_eq_false] at hmet
      exact .inl (List.getElem?_eq_some_iff.mpr ⟨hlt, hmet⟩)
    · exact .inr h

theorem Covers.round {roots : List Nat} (h : s.Covers c roots) :
    (s.round c).Covers c roots := by
  refine ⟨fun id hid hlt => ?_, fun id hid x hx hlt => ?_⟩
  · rw [length_marks_round] at hlt
    exact marked_or_mem_stack_round hlt (h.root id hid hlt)
  · rw [length_marks_round] at hlt
    by_cases hold : s.marks[id]? = some true
    · exact marked_or_mem_stack_round hlt (h.operand id hold x hx hlt)
    · -- the node was marked just now, and its operands come next
      obtain ⟨-, heq⟩ | ⟨next, rest, -, ⟨-, heq⟩ | ⟨-, heq⟩⟩ :=
        round_cases c s
      · rw [heq] at hid
        exact absurd hid hold
      · rw [heq] at hid ⊢
        obtain rfl : next = id := by
          by_contra hne
          rw [List.getElem?_set_ne hne] at hid
          exact hold hid
        exact .inr (List.mem_append_left _ (List.mem_reverse.mpr hx))
      · rw [heq] at hid
        exact absurd hid hold

end Search

/-! ## Live nodes -/

namespace Computation

variable {c : Computation} {id : Nat}

/-- **A node that some output depends on**: operands lead to it from an
output. -/
def Reachable (c : Computation) (id : Nat) : Prop :=
  ∃ output ∈ c.outputs,
    Relation.ReflTransGen (fun v x => x ∈ c.operandsOf v) output id

theorem reachable_of_mem_outputs (h : id ∈ c.outputs) : c.Reachable id :=
  ⟨id, h, .refl⟩

theorem Reachable.operand (h : c.Reachable id) {x : Nat}
    (hx : x ∈ c.operandsOf id) : c.Reachable x := by
  obtain ⟨output, houtput, hpath⟩ := h
  exact ⟨output, houtput, hpath.tail hx⟩

/-- Only nodes read others. -/
theorem lt_length_of_mem_operandsOf {x : Nat} (h : x ∈ c.operandsOf id) :
    id < c.nodes.length := by
  by_contra hge
  rw [operandsOf, List.getElem?_eq_none (Nat.le_of_not_lt hge)] at h
  exact absurd h List.not_mem_nil

end Computation

namespace Liveness

@[simp] theorem renew_eq {α : Type} (count : Nat) (fill : α)
    (table : List α) : renew count fill table = List.replicate count fill := by
  simp [renew, resize]

/-- **An analysis starts afresh**, whatever was analysed before. -/
theorem analyze_eq (l : Liveness) (c : Computation) :
    l.analyze c = c.liveness := by
  simp only [Computation.liveness, analyze, search, renew_eq]

variable (l : Liveness) (c : Computation)

/-- Nothing is marked at the start. -/
theorem getElem?_marks_search (id : Nat) :
    (l.search c).marks[id]? ≠ some true := by
  rw [search, renew_eq, List.getElem?_replicate]
  split
  · simp
  · simp

theorem within_search : (l.search c).Within c.Reachable := by
  refine ⟨fun id hid => ?_, fun id hid => ?_⟩
  · exact Computation.reachable_of_mem_outputs (List.mem_reverse.mp hid)
  · exact absurd hid (l.getElem?_marks_search c id)

theorem covers_search : (l.search c).Covers c c.outputs := by
  refine ⟨fun id hid _ => .inr (List.mem_reverse.mpr hid), fun id hid => ?_⟩
  exact absurd hid (l.getElem?_marks_search c id)

end Liveness

namespace Computation

variable {c : Computation} {id : Nat}

@[simp] theorem length_live : c.liveness.live.length = c.nodes.length := by
  show ((Liveness.empty.search c).finish c).length = _
  simp [Liveness.search]

theorem isLive_iff_getElem? :
    c.liveness.isLive id ↔ c.liveness.live[id]? = some true := by
  unfold Liveness.isLive
  cases c.liveness.live[id]? <;> simp

theorem lt_length_of_isLive (h : c.liveness.isLive id) :
    id < c.nodes.length := by
  rw [← length_live]
  exact (List.getElem?_eq_some_iff.mp (isLive_iff_getElem?.mp h)).1

/-- What is live is reached from an output. -/
theorem reachable_of_isLive (h : c.liveness.isLive id) : c.Reachable id :=
  (Search.finish_invariant
    (fun _ hs => hs.round fun _ hv _ hx => Reachable.operand hv hx)
    (Liveness.empty.within_search c)).marked id (isLive_iff_getElem?.mp h)

/-- At the end of the search nothing is left to be visited. -/
theorem covers_live : Search.Covers c c.outputs ⟨[], c.liveness.live⟩ :=
  Search.finish_invariant (fun _ hs => hs.round)
    (Liveness.empty.covers_search c)

/-- **An output is live.** -/
theorem isLive_of_mem_outputs (hlt : id < c.nodes.length)
    (h : id ∈ c.outputs) : c.liveness.isLive id := by
  rw [isLive_iff_getElem?]
  exact (covers_live.root id h
    (length_live.symm ▸ hlt)).resolve_right List.not_mem_nil

/-- **What a live node reads is live.** -/
theorem isLive_of_mem_operandsOf {x : Nat} (hlt : x < c.nodes.length)
    (h : c.liveness.isLive id) (hx : x ∈ c.operandsOf id) :
    c.liveness.isLive x := by
  rw [isLive_iff_getElem?] at h ⊢
  exact (covers_live.operand id h x hx
    (length_live.symm ▸ hlt)).resolve_right List.not_mem_nil

/-- **A node is live exactly if some output depends on it.** -/
theorem isLive_iff :
    c.liveness.isLive id ↔ id < c.nodes.length ∧ c.Reachable id := by
  refine ⟨fun h => ⟨lt_length_of_isLive h, reachable_of_isLive h⟩, ?_⟩
  rintro ⟨hlt, output, houtput, hpath⟩
  induction hpath with
  | refl => exact isLive_of_mem_outputs hlt houtput
  | tail _ hx ih =>
    exact isLive_of_mem_operandsOf hlt
      (ih (lt_length_of_mem_operandsOf hx)) hx

end Computation

/-! ## Lifetimes -/

/-- The running maximum is past where it starts and past every member. -/
theorem le_foldl_max {l : List Nat} {a x : Nat} (h : x ≤ a ∨ x ∈ l) :
    x ≤ l.foldl max a := by
  induction l generalizing a with
  | nil => exact h.resolve_right List.not_mem_nil
  | cons b l ih =>
    refine ih ?_
    rcases h with h | h
    · exact .inl (Nat.le_trans h (Nat.le_max_left a b))
    · rcases List.mem_cons.mp h with rfl | h
      · exact .inl (Nat.le_max_right a x)
      · exact .inr h

namespace Lifetime

variable {l : Lifetime} {position : Nat} {positions : List Nat}

theorem uses_lt (l : Lifetime) : l.uses < 2 ^ 32 := l.refCount.toNat_lt

theorem uses_record (l : Lifetime) (position : Nat) :
    (l.record position).uses = (l.uses + 1) % 2 ^ 32 := by
  have hcount : (l.record position).refCount = l.refCount + 1 := by
    unfold record
    dsimp only
    split <;> rfl
  rw [uses, hcount, UInt32.toNat_add]
  rfl

theorem pinned_record : (l.record position).pinned = l.pinned := by
  unfold record
  dsimp only
  split <;> rfl

/-- An occurrence that is not before the last one is the last one then,
whatever the count says. -/
theorem last_record (h : l.last ≤ position) :
    (l.record position).last = position := by
  unfold record
  dsimp only
  split
  · rfl
  · exact Nat.max_eq_right h

/-- Only where the count starts is the definition recorded. -/
theorem first_record (h : 0 < l.uses) (hfull : l.uses + 1 < 2 ^ 32) :
    (l.record position).first = l.first := by
  have hcount : l.refCount + 1 ≠ 1 := by
    intro heq
    have hword := UInt32.toNat_add l.refCount 1
    rw [heq, UInt32.toNat_one, ← uses, Nat.mod_eq_of_lt hfull] at hword
    omega
  unfold record
  dsimp only
  rw [if_neg hcount]

/-- Every occurrence is counted, in 32 bits. -/
theorem uses_foldl_record (positions : List Nat) (l : Lifetime) :
    (positions.foldl (fun l p => l.record p) l).uses
      = (l.uses + positions.length) % 2 ^ 32 := by
  induction positions generalizing l with
  | nil => exact (Nat.mod_eq_of_lt l.uses_lt).symm
  | cons p positions ih =>
    rw [List.foldl_cons, ih, uses_record, Nat.mod_add_mod, List.length_cons,
      Nat.add_assoc, Nat.add_comm 1]

theorem pinned_foldl_record (positions : List Nat) (l : Lifetime) :
    (positions.foldl (fun l p => l.record p) l).pinned = l.pinned := by
  induction positions generalizing l with
  | nil => rfl
  | cons p positions ih => rw [List.foldl_cons, ih, pinned_record]

/-- The last of occurrences that come in order is the largest of them, also
where the count starts again on the way. -/
theorem last_foldl_record (hsorted : positions.Pairwise (· ≤ ·))
    (hle : ∀ p ∈ positions, l.last ≤ p) :
    (positions.foldl (fun l p => l.record p) l).last
      = positions.foldl max l.last := by
  induction positions generalizing l with
  | nil => rfl
  | cons p positions ih =>
    obtain ⟨hp, hrest⟩ := List.pairwise_cons.mp hsorted
    have hlast := last_record (hle p List.mem_cons_self)
    rw [List.foldl_cons, ih hrest fun q hq => hlast.symm ▸ hp q hq, hlast,
      List.foldl_cons, Nat.max_eq_right (hle p List.mem_cons_self)]

/-- Further occurrences leave the definition alone, as long as the count
does not start again. -/
theorem first_foldl_record (h : 0 < l.uses)
    (hfull : l.uses + positions.length < 2 ^ 32) :
    (positions.foldl (fun l p => l.record p) l).first = l.first := by
  induction positions generalizing l with
  | nil => rfl
  | cons p positions ih =>
    rw [List.length_cons] at hfull
    have huses := l.uses_record p
    rw [Nat.mod_eq_of_lt (by omega)] at huses
    rw [List.foldl_cons, ih (by omega) (by omega), first_record h (by omega)]

/-- **The lifetime of a value that occurs at the given positions**, one
occurrence after another. -/
def ofOccurrences (positions : List Nat) : Lifetime :=
  positions.foldl (fun l p => l.record p) unused

/-- **The count is the number of occurrences** as far as 32 bits tell. -/
theorem uses_ofOccurrences (positions : List Nat) :
    (ofOccurrences positions).uses = positions.length % 2 ^ 32 := by
  have hnone : unused.uses = 0 := rfl
  rw [ofOccurrences, uses_foldl_record, hnone, Nat.zero_add]

/-- **The last of occurrences that come in order** is the largest of
them. -/
theorem last_ofOccurrences (h : positions.Pairwise (· ≤ ·)) :
    (ofOccurrences positions).last = positions.foldl max 0 :=
  last_foldl_record h fun _ _ => Nat.zero_le _

/-- **A value is defined where it first occurs**, as long as the count does
not start again. -/
theorem first_ofOccurrences (h : positions.length < 2 ^ 32) :
    (ofOccurrences positions).first = positions.headD 0 := by
  cases positions with
  | nil => rfl
  | cons p positions =>
    have hone : (unused.record p).uses = 1 := rfl
    rw [List.length_cons, Nat.add_comm] at h
    exact first_foldl_record (hone ▸ Nat.one_pos) (hone.symm ▸ h)

end Lifetime

namespace Liveness

variable {id : Nat}

/-- Recording uses at a position touches only the lifetimes of what is
used. -/
theorem getElem?_foldl_recordUse (position : Nat) (used : List Nat)
    (lifetimes : List Lifetime) :
    (used.foldl (recordUse position) lifetimes)[id]?
      = lifetimes[id]?.map fun l =>
        (List.replicate (used.count id) position).foldl
          (fun l p => l.record p) l := by
  induction used generalizing lifetimes with
  | nil => simp
  | cons x used ih =>
    rw [List.foldl_cons, ih, recordUse, List.getElem?_modify, List.count_cons]
    by_cases hx : x = id
    · simp [hx, List.replicate_succ, Function.comp_def]
    · simp [hx]

/-- Marking outputs touches only their lifetimes. -/
theorem getElem?_foldl_pin (outputs : List Nat)
    (lifetimes : List Lifetime) :
    (outputs.foldl pin lifetimes)[id]?
      = lifetimes[id]?.map fun l =>
        { l with pinned := l.pinned || decide (id ∈ outputs) } := by
  induction outputs generalizing lifetimes with
  | nil => simp
  | cons x outputs ih =>
    rw [List.foldl_cons, ih, pin, List.getElem?_modify]
    by_cases hx : x = id
    · simp [hx, Function.comp_def]
    · simp [hx, Ne.symm hx]

end Liveness

namespace Computation

variable {c : Computation} {id : Nat}

/-- **The positions at which a node occurs** among the live nodes, as the
node that stands there or as what it reads, once for each time. -/
def occurrences (c : Computation) (id : Nat) : List Nat :=
  c.nodes.zipIdx.flatMap fun node =>
    if c.liveness.isLive node.2 then
      List.replicate ((node.2 :: node.1.op.operands).count id) node.2
    else []

/-- **The lifetime of a node** is what recording the places at which it
occurs leads to, one after another. -/
theorem getElem?_lifetimes (hid : id < c.nodes.length) :
    c.liveness.lifetimes[id]?
      = some { Lifetime.ofOccurrences (c.occurrences id) with
          pinned := decide (id ∈ c.outputs) } := by
  have hzip : c.nodes.zipIdx.zip c.liveness.live
      = c.nodes.zipIdx.map fun node => (node, c.liveness.isLive node.2) := by
    refine List.ext_getElem (by simp) fun k hk _ => ?_
    have hlt : k < c.liveness.live.length := by
      rw [List.length_zip] at hk
      omega
    simp only [List.getElem_zip, List.getElem_map, List.getElem_zipIdx,
      Nat.zero_add, Liveness.isLive, List.getElem?_eq_getElem hlt,
      Option.getD_some]
  have hfold : ∀ (nodes : List (Node × Nat)) (lifetimes : List Lifetime),
      ((nodes.map fun node => (node, c.liveness.isLive node.2)).foldl
        (fun lifetimes entry =>
          if entry.2 then Liveness.recordNode lifetimes entry.1.1 entry.1.2
          else lifetimes) lifetimes)[id]?
      = lifetimes[id]?.map fun l => (nodes.flatMap fun node =>
          if c.liveness.isLive node.2 then
            List.replicate ((node.2 :: node.1.op.operands).count id) node.2
          else []).foldl (fun l p => l.record p) l := by
    intro nodes
    induction nodes with
    | nil => simp
    | cons node nodes ih =>
      intro lifetimes
      rw [List.map_cons, List.foldl_cons, ih, List.flatMap_cons]
      by_cases hlive : c.liveness.isLive node.2
      · simp only [hlive, if_true, Liveness.recordNode,
          Liveness.getElem?_foldl_recordUse, Option.map_map,
          List.foldl_append, Function.comp_def]
      · simp [hlive]
  have hlifetimes : c.liveness.lifetimes = c.outputs.foldl Liveness.pin
      ((c.nodes.zipIdx.zip c.liveness.live).foldl
        (fun lifetimes entry =>
          if entry.2 then Liveness.recordNode lifetimes entry.1.1 entry.1.2
          else lifetimes)
        (List.replicate c.nodes.length Lifetime.unused)) := by
    simp only [liveness, Liveness.analyze, Liveness.renew_eq]
  rw [hlifetimes, Liveness.getElem?_foldl_pin, hzip, hfold,
    List.getElem?_replicate, if_pos hid]
  simp only [Option.map_some, Lifetime.pinned_foldl_record, Lifetime.unused,
    Bool.false_or]
  rfl

/-- A live node occurs where it stands and where a live node reads it. -/
theorem mem_occurrences {position : Nat} :
    position ∈ c.occurrences id ↔ c.liveness.isLive position
      ∧ (position = id ∨ id ∈ c.operandsOf position) := by
  have hcount : ∀ {used : List Nat}, used.count id ≠ 0 ↔ id ∈ used :=
    fun {used} => by rw [← Nat.pos_iff_ne_zero, List.count_pos_iff]
  simp only [occurrences, List.mem_flatMap, Prod.exists,
    List.mem_zipIdx_iff_getElem?, List.mem_ite_nil_right,
    List.mem_replicate, hcount, List.mem_cons]
  constructor
  · rintro ⟨node, k, hnode, hlive, hmem, rfl⟩
    refine ⟨hlive, hmem.imp Eq.symm fun h => ?_⟩
    rw [operandsOf, hnode]
    exact h
  · rintro ⟨hlive, hmem⟩
    have hlt := lt_length_of_isLive hlive
    have hnode := List.getElem?_eq_getElem hlt
    refine ⟨c.nodes[position], position, hnode, hlive,
      hmem.imp Eq.symm fun h => ?_, rfl⟩
    rwa [operandsOf, hnode] at h

/-- The places at which a node occurs are found in order. -/
theorem pairwise_occurrences (c : Computation) (id : Nat) :
    (c.occurrences id).Pairwise (· ≤ ·) := by
  have hplace : ∀ {node : Node × Nat} {p : Nat},
      p ∈ (if c.liveness.isLive node.2 then
        List.replicate ((node.2 :: node.1.op.operands).count id) node.2
        else []) → p = node.2 := by
    intro node p hp
    split at hp
    · exact List.eq_of_mem_replicate hp
    · exact absurd hp List.not_mem_nil
  have hzip : c.nodes.zipIdx.Pairwise (·.2 < ·.2) := by
    rw [← List.pairwise_map (f := Prod.snd), List.zipIdx_map_snd]
    exact List.pairwise_lt_range'
  refine List.pairwise_flatMap.mpr ⟨fun node _ => ?_, hzip.imp ?_⟩
  · split
    · exact List.pairwise_replicate.mpr (.inr (Nat.le_refl _))
    · exact .nil
  · intro a b hab p hp q hq
    rw [hplace hp, hplace hq]
    exact Nat.le_of_lt hab

/-- **A value dies at a position** exactly if it is live and no output, and
the position is the last at which it occurs. -/
theorem diesAt_iff {position : Nat} :
    c.liveness.diesAt id position ↔ c.liveness.isLive id
      ∧ id ∉ c.outputs ∧ (c.occurrences id).foldl max 0 = position := by
  unfold Liveness.diesAt Liveness.lifetime?
  by_cases hlive : c.liveness.isLive id
  · rw [if_pos hlive, getElem?_lifetimes (lt_length_of_isLive hlive)]
    simp [hlive, Lifetime.last_ofOccurrences (c.pairwise_occurrences id)]
  · simp [hlive]

/-- A value that dies at a position is no output. -/
theorem notMem_outputs_of_diesAt {position : Nat}
    (h : c.liveness.diesAt id position) : id ∉ c.outputs :=
  (diesAt_iff.mp h).2.1

/-- **A value that dies at a position is read by no live node behind
it.** -/
theorem le_of_diesAt {position reader : Nat}
    (h : c.liveness.diesAt id position) (hlive : c.liveness.isLive reader)
    (hread : id ∈ c.operandsOf reader) : reader ≤ position := by
  rw [← (diesAt_iff.mp h).2.2]
  exact le_foldl_max (.inr (mem_occurrences.mpr ⟨hlive, .inr hread⟩))

end Computation

end TensorBind
