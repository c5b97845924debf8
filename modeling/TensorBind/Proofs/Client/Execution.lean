import TensorBind.Client.Execution
import TensorBind.Proofs.Device.Ledger
import TensorBind.Proofs.Device.Residence

/-!
# The course of an execution

An execution passes through many memories: one after each instruction, one
after each slot that is written over, one after each buffer that is dropped.
`Loaded.trace` lists them, following the execution step by step.

The memories on this list are a course of a ledger
(`Loaded.course_execute`): every block that an execution places or adds a
holder to is held by a slot, by a result or by nobody anymore. What is held
at the end is what was held before and, if the execution succeeds, its
results. The one thing that is asked of the program is that its
instructions write slots it has, since a buffer that is put nowhere would
never be released.
-/

namespace TensorBind

/-! ## Buffers that are held -/

namespace Buffer

variable {buffers : List Buffer} {m : Memory} {held outer : Multiset Nat}

/-- The blocks of buffers, each as often as it occurs. -/
def blocks (buffers : List Buffer) : Multiset Nat :=
  ↑(buffers.map Buffer.block)

theorem blocks_nil : blocks [] = 0 := rfl

theorem blocks_cons (b : Buffer) (buffers : List Buffer) :
    blocks (b :: buffers) = b.block ::ₘ blocks buffers := rfl

theorem blocks_append (first second : List Buffer) :
    blocks (first ++ second) = blocks first + blocks second := by
  rw [blocks, List.map_append]
  rfl

theorem mem_blocks {b : Buffer} (h : b ∈ buffers) :
    b.block ∈ blocks buffers :=
  List.mem_map_of_mem h

/-- The order of results does not matter to what is held. -/
theorem blocks_flatten_reverse (results : List (List Buffer)) :
    blocks results.reverse.flatten = blocks results.flatten :=
  Multiset.coe_eq_coe.mpr (results.reverse_perm.flatten.map _)

/-- **Putting another buffer, or none, into a cell** exchanges what the
cell held. -/
theorem blocks_set {cells : List (Option Buffer)} {i : Nat}
    {old : Option Buffer} (h : cells[i]? = some old) (new : Option Buffer) :
    blocks ((cells.set i new).filterMap id) + blocks old.toList
      = blocks (cells.filterMap id) + blocks new.toList := by
  induction cells generalizing i with
  | nil => cases h
  | cons cell cells ih =>
    have hcons : ∀ (cell : Option Buffer) (cells : List (Option Buffer)),
        blocks ((cell :: cells).filterMap id)
          = blocks cell.toList + blocks (cells.filterMap id) := by
      intro cell cells
      cases cell with
      | none => rfl
      | some b => rfl
    cases i with
    | zero =>
      obtain rfl : cell = old := by simpa using h
      rw [List.set_cons_zero, hcons, hcons]
      ac_rfl
    | succ i =>
      rw [List.set_cons_succ, hcons, hcons, Multiset.add_assoc, ih h,
        Multiset.add_assoc]

/-- **The blocks that an outcome gives to the caller**: those of the
results, or none. -/
def given {ε : Type} : Except ε (List Buffer) → Multiset Nat
  | .ok buffers => blocks buffers
  | .error _ => 0

theorem given_error {ε : Type} (cause : ε) : given (.error cause) = 0 := rfl

/-- The memories while buffers are treated in turn. -/
def trace (change : Memory → Nat → Memory) :
    List Buffer → Memory → List Memory
  | [], _ => []
  | b :: buffers, m =>
    change m b.block :: trace change buffers (change m b.block)

/-- **Letting go of buffers** is a course after which they are not
held. -/
theorem course_releaseAll (buffers : List Buffer) (m : Memory)
    (held : Multiset Nat) :
    Ledger.Course ⟨m, blocks buffers + held⟩
      (trace Memory.release buffers m) ⟨releaseAll buffers m, held⟩ := by
  induction buffers generalizing m with
  | nil =>
    rw [blocks_nil, Multiset.zero_add]
    exact .nil _
  | cons b buffers ih =>
    rw [blocks_cons, Multiset.cons_add]
    exact .cons .release (ih _)

/-- **Adding holders to buffers that are held** is a course after which
they are held once more. -/
theorem course_retainAll (m : Memory)
    (h : ∀ b ∈ buffers, b.block ∈ held) :
    Ledger.Course ⟨m, held⟩ (trace Memory.retain buffers m)
      ⟨Run.retainAll buffers m, held + blocks buffers⟩ := by
  induction buffers generalizing m held with
  | nil =>
    rw [blocks_nil, Multiset.add_zero]
    exact .nil _
  | cons b buffers ih =>
    rw [List.forall_mem_cons] at h
    rw [blocks_cons, Multiset.add_cons, ← Multiset.cons_add]
    exact .cons (.retain h.1) (ih _ fun other hother =>
      Multiset.mem_cons_of_mem (h.2 other hother))

end Buffer

/-! ## Invocations -/

namespace Run

variable {p : SlotProgram} {place : Nat} {arguments : List Buffer}
  {r : Run} {outer : Multiset Nat}

/-- The ledger of an invocation: its slots hold what they hold, and others
hold the rest. -/
def ledger (outer : Multiset Nat) (r : Run) : Ledger :=
  ⟨r.memory, outer + Buffer.blocks r.held⟩

/-- The memories while instructions are run: one after a value was
computed, and one after it was put into its slot. -/
def trace (p : SlotProgram) (place : Nat) (arguments : List Buffer) :
    List Instruction → Run → List Memory
  | [], _ => []
  | instruction :: rest, r =>
    match r.evaluate p place arguments instruction with
    | .error _ => []
    | .ok (buffer, memory) =>
      let next := write r.slots instruction.dst buffer memory
      memory :: next.memory :: trace p place arguments rest next

/-- **Computing a value is a step**: an argument gets one more holder, and
anything else is placed on the device. -/
theorem step_evaluate {held : Multiset Nat} {buffer : Buffer}
    {memory : Memory} {instruction : Instruction}
    (harguments : ∀ b ∈ arguments, b.block ∈ held)
    (h : r.evaluate p place arguments instruction
      = .ok (buffer, memory)) :
    Ledger.Step ⟨r.memory, held⟩ ⟨memory, buffer.block ::ₘ held⟩ := by
  rcases evaluate_cases h with ⟨hargument, rfl⟩ | ⟨bytes, hplaced⟩
  · exact .retain (harguments buffer hargument)
  · exact .place hplaced

/-- **Putting a buffer into a slot is a step**, in which what the slot held
is released. -/
theorem step_write {slots : List (Option Buffer)} {slot : Nat}
    (hslot : slot < slots.length) (buffer : Buffer) (memory : Memory) :
    Ledger.Step
      ⟨memory,
        buffer.block ::ₘ (outer + Buffer.blocks (slots.filterMap id))⟩
      ((write slots slot buffer memory).ledger outer) := by
  have hcell := List.getElem?_eq_getElem hslot
  have hcons : ∀ (b : Buffer) (held : Multiset Nat),
      b.block ::ₘ (outer + held) = outer + (held + Buffer.blocks [b]) := by
    intro b held
    rw [← Multiset.add_cons, ← Multiset.singleton_add, Multiset.add_comm held]
    rfl
  -- the new buffer and what the slots held are what the slots hold now and
  -- what the cell held before
  have hset := Buffer.blocks_set hcell (some buffer)
  unfold write ledger held
  rw [hcell, Option.join_some, hcons, ← Option.toList_some, ← hset]
  cases hold : slots[slot] with
  | none =>
    rw [Option.toList_none, Buffer.blocks_nil, Multiset.add_zero]
    exact .idle _
  | some old =>
    rw [Option.toList_some, ← hcons]
    exact .release

/-- **Running instructions is a course**, whether they succeed or not. -/
theorem course_steps {instructions : List Instruction}
    (hdst : ∀ i ∈ instructions, i.dst < r.slots.length)
    (harguments : ∀ b ∈ arguments, b.block ∈ outer) :
    (r.ledger outer).Course (trace p place arguments instructions r)
      ((reached (steps p place arguments instructions r)).ledger outer) := by
  induction instructions generalizing r with
  | nil => exact .nil _
  | cons i rest ih =>
    rw [List.forall_mem_cons] at hdst
    unfold trace steps
    cases hvalue : r.evaluate p place arguments i with
    | error cause => exact .nil _
    | ok given =>
      obtain ⟨buffer, memory⟩ := given
      refine .cons (step_evaluate (fun b hb =>
          Multiset.mem_add.mpr (.inl (harguments b hb))) hvalue)
        (.cons (step_write hdst.1 buffer memory) (ih fun j hj => ?_))
      rw [write, List.length_set]
      exact hdst.2 j hj

/-- **Letting go of all slots** is a course after which only others hold
anything. -/
theorem course_finish (r : Run) (outer : Multiset Nat) :
    (r.ledger outer).Course (Buffer.trace Memory.release r.held r.memory)
      ⟨r.finish, outer⟩ := by
  rw [ledger, Multiset.add_comm]
  exact Buffer.course_releaseAll r.held r.memory outer

end Run

namespace SlotProgram

variable {p : SlotProgram} {place : Nat} {arguments : List Buffer}
  {outer : Multiset Nat}

/-- The memories of an invocation. -/
def trace (p : SlotProgram) (place : Nat) (arguments : List Buffer)
    (memory : Memory) : List Memory :=
  let start : Run := ⟨memory, List.replicate p.slotCount none⟩
  Run.trace p place arguments p.instructions start
    ++ match Run.steps p place arguments p.instructions start with
      | .error (_, r) => Buffer.trace Memory.release r.held r.memory
      | .ok r =>
        match r.outputs p with
        | .error _ => Buffer.trace Memory.release r.held r.memory
        | .ok buffers =>
          Buffer.trace Memory.retain buffers r.memory
            ++ Buffer.trace Memory.release r.held
              (Run.retainAll buffers r.memory)

/-- **An invocation is a course** at the end of which only its outputs are
held in addition. -/
theorem course_run (hdst : ∀ i ∈ p.instructions, i.dst < p.slotCount)
    (harguments : ∀ b ∈ arguments, b.block ∈ outer) (m : Memory) :
    Ledger.Course ⟨m, outer⟩ (p.trace place arguments m)
      ⟨(p.run place arguments m).2,
        outer + Buffer.given (p.run place arguments m).1⟩ := by
  have hstart : Run.ledger outer ⟨m, List.replicate p.slotCount none⟩
      = ⟨m, outer⟩ := by
    have hheld : Run.held ⟨m, List.replicate p.slotCount none⟩ = [] := by
      simp [Run.held]
    rw [Run.ledger, hheld, Buffer.blocks_nil, Multiset.add_zero]
  rw [← hstart]
  unfold trace run
  dsimp only
  refine (Run.course_steps (by simpa using hdst) harguments).append ?_
  generalize Run.steps p place arguments p.instructions
    ⟨m, List.replicate p.slotCount none⟩ = outcome
  cases outcome with
  | error failure =>
    rw [Buffer.given_error, Multiset.add_zero]
    exact Run.course_finish failure.2 outer
  | ok r =>
    dsimp only [Run.reached]
    cases houtputs : r.outputs p with
    | error cause =>
      rw [Buffer.given_error, Multiset.add_zero]
      exact Run.course_finish r outer
    | ok buffers =>
      have hheld : ∀ b ∈ buffers, b.block ∈ (r.ledger outer).held :=
        fun b hb => Multiset.mem_add.mpr (.inr
          (Buffer.mem_blocks (Run.mem_held_of_outputs houtputs b hb)))
      -- the outputs are held by the caller before the slots are dropped
      refine (Buffer.course_retainAll r.memory hheld).append ?_
      rw [Run.ledger, add_right_comm]
      exact Run.course_finish ⟨Run.retainAll buffers r.memory, r.slots⟩
        (outer + Buffer.blocks buffers)

end SlotProgram

/-! ## Executions -/

namespace Loaded

variable {p : SlotProgram} {outer : Multiset Nat}

/-- The memories while invocations are run one after another. -/
def traceInvocations (p : SlotProgram) :
    List (List Buffer × Nat) → List (List Buffer) → Memory → List Memory
  | [], _, _ => []
  | (arguments, place) :: rest, results, m =>
    p.trace place arguments m
      ++ match p.run place arguments m with
        | (.ok outputs, m) => traceInvocations p rest (outputs :: results) m
        | (.error _, m) => Buffer.trace Memory.release results.flatten m

/-- **Invocations are a course**, and so is letting go of the results when
one of them fails. -/
theorem course_runInvocations
    (hdst : ∀ i ∈ p.instructions, i.dst < p.slotCount)
    {invocations : List (List Buffer × Nat)}
    (harguments : ∀ i ∈ invocations, ∀ b ∈ i.1, b.block ∈ outer)
    (results : List (List Buffer)) (m : Memory) :
    Ledger.Course ⟨m, outer + Buffer.blocks results.flatten⟩
      (traceInvocations p invocations results m)
      ⟨(runInvocations p invocations results m).2,
        outer + Buffer.given
          ((runInvocations p invocations results m).1.map
            List.flatten)⟩ := by
  induction invocations generalizing results m with
  | nil =>
    show Ledger.Course _ []
      ⟨m, outer + Buffer.blocks results.reverse.flatten⟩
    rw [Buffer.blocks_flatten_reverse]
    exact .nil _
  | cons invocation rest ih =>
    obtain ⟨arguments, place⟩ := invocation
    rw [List.forall_mem_cons] at harguments
    unfold traceInvocations runInvocations
    refine (SlotProgram.course_run hdst (fun b hb =>
      Multiset.mem_add.mpr (.inl (harguments.1 b hb))) m).append ?_
    generalize p.run place arguments m = outcome
    obtain ⟨outcome, m'⟩ := outcome
    cases outcome with
    | ok outputs =>
      have hheld : outer + Buffer.blocks results.flatten
          + Buffer.blocks outputs
          = outer + Buffer.blocks (outputs :: results).flatten := by
        rw [List.flatten_cons, Buffer.blocks_append,
          Multiset.add_comm (Buffer.blocks outputs), Multiset.add_assoc]
      rw [Buffer.given, hheld]
      exact ih harguments.2 (outputs :: results) m'
    | error cause =>
      rw [Buffer.given_error, Multiset.add_zero,
        show Buffer.given _ = 0 from rfl, Multiset.add_zero,
        Multiset.add_comm]
      exact Buffer.course_releaseAll results.flatten m' outer

/-- **The memories of an execution.** Nothing happens if an argument is
wrong. -/
def trace (l : Loaded) (arguments : List (List Buffer)) (m : Memory) :
    List Memory :=
  match l.checkArguments m arguments with
  | .error _ => []
  | .ok () => traceInvocations l.program (arguments.zip l.places) [] m

/-- **An execution is a course** at the end of which only its results are
held in addition. -/
theorem course_execute {l : Loaded} {arguments : List (List Buffer)}
    (hdst : ∀ i ∈ l.program.instructions, i.dst < l.program.slotCount)
    (harguments : ∀ buffers ∈ arguments, ∀ b ∈ buffers, b.block ∈ outer)
    (m : Memory) :
    Ledger.Course ⟨m, outer⟩ (l.trace arguments m)
      ⟨(l.execute arguments m).2, outer + Buffer.given
        ((l.execute arguments m).1.map List.flatten)⟩ := by
  unfold trace execute
  cases l.checkArguments m arguments with
  | error cause =>
    rw [show Buffer.given _ = 0 from rfl, Multiset.add_zero]
    exact .nil _
  | ok checked =>
    have hinvocations : ∀ i ∈ arguments.zip l.places, ∀ b ∈ i.1,
        b.block ∈ outer := fun i hi =>
      harguments i.1 (List.of_mem_zip hi).1
    have hcourse := course_runInvocations hdst hinvocations [] m
    rw [List.flatten_nil, Buffer.blocks_nil, Multiset.add_zero] at hcourse
    dsimp only
    generalize runInvocations l.program (arguments.zip l.places) [] m
      = outcome at hcourse
    obtain ⟨outcome, m'⟩ := outcome
    cases outcome with
    | ok results => exact hcourse
    | error cause => exact hcourse

/-- **Executions move nothing**, whether they succeed or not. -/
theorem stays_runInvocations (invocations : List (List Buffer × Nat))
    (results : List (List Buffer)) (m : Memory) :
    m.Stays (runInvocations p invocations results m).2 := by
  induction invocations generalizing results m with
  | nil => exact .refl m
  | cons invocation rest ih =>
    obtain ⟨arguments, place⟩ := invocation
    have hrun := (p.run_residence place arguments m).1
    unfold runInvocations
    generalize p.run place arguments m = outcome at hrun
    obtain ⟨outcome, after⟩ := outcome
    cases outcome with
    | ok outputs => exact hrun.trans (ih (outputs :: results) after)
    | error cause => exact hrun.trans (.releaseAll results.flatten after)

theorem stays_execute (l : Loaded) (arguments : List (List Buffer))
    (m : Memory) : m.Stays (l.execute arguments m).2 := by
  unfold execute
  cases l.checkArguments m arguments with
  | error cause => exact .refl m
  | ok checked => exact stays_runInvocations _ [] m

/-- **Results come from invocations that succeeded**, in their order, and
nothing has moved since. -/
theorem forall₂_of_runInvocations {invocations : List (List Buffer × Nat)}
    {results all : List (List Buffer)} {m m' : Memory}
    (h : runInvocations p invocations results m = (.ok all, m')) :
    ∃ outputs, all = results.reverse ++ outputs
      ∧ List.Forall₂ (fun i given => ∃ before after,
        p.run i.2 i.1 before = (.ok given, after) ∧ after.Stays m')
        invocations outputs := by
  induction invocations generalizing results m with
  | nil =>
    cases h
    exact ⟨[], (List.append_nil _).symm, .nil⟩
  | cons invocation rest ih =>
    obtain ⟨arguments, place⟩ := invocation
    rw [runInvocations] at h
    cases hrun : p.run place arguments m with
    | mk outcome after =>
      rw [hrun] at h
      cases outcome with
      | error cause => cases h
      | ok given =>
        have hrest : runInvocations p rest (given :: results) after
            = (.ok all, m') := h
        have hstays := stays_runInvocations (p := p) rest (given :: results)
          after
        rw [hrest] at hstays
        obtain ⟨outputs, rfl, houtputs⟩ := ih hrest
        refine ⟨given :: outputs, ?_,
          .cons ⟨m, after, hrun, hstays⟩ houtputs⟩
        rw [List.reverse_cons, List.append_assoc, List.singleton_append]

variable {l : Loaded} {m m' : Memory}

/-! ## What an execution accepts and gives -/

theorem checkArgument_eq_ok {invocation argument : Nat} {device : UInt32}
    {buffer : Buffer} {expected : Shape} :
    l.checkArgument m invocation device argument buffer expected = .ok ()
      ↔ buffer.shape = expected ∧ buffer.deviceId m = device := by
  unfold checkArgument
  by_cases hshape : buffer.shape = expected
  · by_cases hdevice : buffer.deviceId m = device
    · simp [hshape, hdevice]
    · simp [hshape, hdevice]
  · simp [hshape]

/-- **What an invocation accepts**: a buffer for each parameter, of its
shape and on a device of the right id. -/
theorem checkInvocation_eq_ok {invocation : Nat} {device : UInt32}
    {arguments : List Buffer} :
    l.checkInvocation m invocation device arguments = .ok ()
      ↔ List.Forall₂ (fun b shape =>
          b.shape = shape ∧ b.deviceId m = device)
        arguments l.program.parameterShapes := by
  rw [List.forall₂_iff_zip]
  unfold checkInvocation
  by_cases hlength : arguments.length = l.program.parameterShapes.length
  · dsimp only
    rw [if_neg (not_not.mpr hlength), List.forM_zipIdx_eq_ok
      (P := fun pair => pair.1.shape = pair.2 ∧ pair.1.deviceId m = device)
      fun _ _ => checkArgument_eq_ok, Prod.forall]
    exact (and_iff_right hlength).symm
  · simp [hlength]

/-- **What an execution accepts**: for each device arguments that the
invocation there accepts. -/
theorem checkArguments_eq_ok {arguments : List (List Buffer)} :
    l.checkArguments m arguments = .ok ()
      ↔ arguments.length = l.places.length
        ∧ ∀ pair ∈ arguments.zip (l.deviceIds m),
          List.Forall₂ (fun b shape =>
              b.shape = shape ∧ b.deviceId m = pair.2)
            pair.1 l.program.parameterShapes := by
  unfold checkArguments
  by_cases hlength : arguments.length = l.places.length
  · rw [if_neg (not_not.mpr hlength), List.forM_zipIdx_eq_ok
      fun _ _ => checkInvocation_eq_ok]
    exact (and_iff_right hlength).symm
  · simp [hlength]

/-- **An execution that succeeds** has accepted its arguments, and it has
results for each invocation. -/
theorem execute_eq_ok {arguments results : List (List Buffer)}
    (h : l.execute arguments m = (.ok results, m')) :
    l.checkArguments m arguments = .ok ()
      ∧ List.Forall₂ (fun i outputs => ∃ before after,
        l.program.run i.2 i.1 before = (.ok outputs, after)
        ∧ after.Stays m') (arguments.zip l.places) results := by
  unfold execute at h
  cases hcheck : l.checkArguments m arguments with
  | error cause =>
    rw [hcheck] at h
    cases h
  | ok checked =>
    rw [hcheck] at h
    have hresults := Except.mapError_eq_ok.mp (congrArg Prod.fst h)
    have hmemory : (runInvocations l.program (arguments.zip l.places) []
        m).2 = m' := congrArg Prod.snd h
    obtain ⟨outputs, houtputs, hrun⟩ :=
      forall₂_of_runInvocations (Prod.ext hresults hmemory)
    rw [List.reverse_nil, List.nil_append] at houtputs
    exact ⟨rfl, houtputs ▸ hrun⟩

/-- The results of an execution, by the arguments of the invocations. -/
theorem forall₂_of_execute {arguments results : List (List Buffer)}
    (h : l.execute arguments m = (.ok results, m')) :
    List.Forall₂ (fun buffers outputs => ∃ place before after,
      l.program.run place buffers before = (.ok outputs, after))
      arguments results := by
  obtain ⟨hcheck, hrun⟩ := execute_eq_ok h
  refine ((List.forall₂_zip_iff (S := fun _ _ => True)
    (checkArguments_eq_ok.mp hcheck).1).mp (hrun.imp
      fun i outputs ⟨before, after, hgiven, _⟩ => ⟨?_, trivial⟩)).1
  exact ⟨i.2, before, after, hgiven⟩

end Loaded

end TensorBind
