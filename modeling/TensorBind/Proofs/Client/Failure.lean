import TensorBind.Proofs.Client.Execution
import TensorBind.Proofs.SlotProgram.Limits
import TensorBind.Proofs.Structured.AsGraph

/-!
# How an execution can fail

The arguments of an execution are checked before anything runs. If the
check finds something wrong, that is the failure, and memory is as it was
(`Loaded.Equipped.execute_of_not_admits`). If it does not, none of the things
that an invocation looks for is missing: a well-formed computation, run on
buffers that hold literals of the right shapes, is **answered**
(`Computation.Answered`) or runs out of memory
(`Computation.WellFormed.run_outcome`), and so is a whole execution
(`Loaded.Equipped.execute_outcome`).

Computations are well-formed whatever program they come from
(`Program.wellFormed_of_toComputation`).
-/

namespace TensorBind

/-! ## The computations of programs -/

/-- What instructions are lowered to is well-formed, whatever they refer
to. -/
theorem Graph.Entry.wellFormed_of_toComputation {e : Graph.Entry}
    {c : Computation} (h : e.toComputation = .ok c) : c.WellFormed := by
  obtain ⟨nodes, hlowered⟩ := exists_lowered h
  exact hlowered.wellFormed

theorem Structured.Func.wellFormed_of_toComputation {f : Structured.Func}
    {c : Computation} (h : f.toComputation = .ok c) : c.WellFormed := by
  obtain ⟨a, l, outputs, ha, hl, -, -, hc⟩ := toComputation_eq_ok.mp h
  have htakes := (Lowering.takes_of_lowerArguments ha).operations hl
  exact (htakes.wellFormed.build hc).1

/-- **The computation of a program is well-formed.** -/
theorem Program.wellFormed_of_toComputation {program : Program}
    {c : Computation} (h : program.toComputation = .ok c) :
    c.WellFormed := by
  cases program with
  | graph m =>
    exact Graph.Entry.wellFormed_of_toComputation
      (Except.mapError_eq_ok.mp h)
  | structured m =>
    obtain ⟨f, -, hf⟩ := Except.bind_eq_ok.mp (Except.mapError_eq_ok.mp h)
    exact Structured.Func.wellFormed_of_toComputation hf

/-! ## Running out of memory -/

/-- **A request that would go beyond what a device can have in use.** -/
def OutOfMemory.Exceeds (e : OutOfMemory) : Prop :=
  min e.limit largestSize < e.inUse + e.requested

theorem Memory.exceeds_of_allocate {m : Memory} {place : Nat}
    {bytes : List UInt8} {oom : OutOfMemory}
    (h : m.allocate place bytes = .error (.outOfMemory oom)) :
    oom.Exceeds := by
  cases hdevice : m.devices[place]? with
  | none =>
    rw [allocate, hdevice] at h
    cases h
  | some device =>
    cases hmeter : device.meter.reserve? bytes.length with
    | none =>
      rw [allocate_eq_error hdevice hmeter] at h
      cases h
      exact Meter.reserve?_eq_none.mp hmeter
    | some meter =>
      rw [allocate_eq_ok.mpr ⟨device, meter, hdevice, hmeter, rfl, rfl⟩] at h
      cases h

namespace Run

variable {p : SlotProgram} {place : Nat} {arguments : List Buffer} {r : Run}
  {oom : OutOfMemory}

theorem exceeds_of_store {value : Literal}
    (h : r.store place value = .error (.allocation (.outOfMemory oom))) :
    oom.Exceeds := by
  unfold store at h
  split at h
  · cases h
  · rename_i cause hcause
    cases h
    exact Memory.exceeds_of_allocate hcause

/-- A failure to place the value that a step before has given. -/
theorem exceeds_of_bind {α : Type} {x : Except RunError α}
    {f : α → Except RunError (Buffer × Memory)}
    (h : (x >>= f) = .error (.allocation (.outOfMemory oom)))
    (hx : ∀ cause, x = .error cause →
      ∀ allocation, cause ≠ .allocation allocation)
    (hf : ∀ a, f a = .error (.allocation (.outOfMemory oom)) →
      oom.Exceeds) : oom.Exceeds := by
  cases x with
  | error cause =>
    cases h
    exact absurd rfl (hx _ rfl _)
  | ok a => exact hf a h

/-- **An instruction that runs out of memory** asks for more than there
is. -/
theorem exceeds_of_evaluate {instruction : Instruction}
    (h : r.evaluate p place arguments instruction
      = .error (.allocation (.outOfMemory oom))) : oom.Exceeds := by
  cases instruction with
  | parameter dst index =>
    simp only [evaluate] at h
    split at h <;> cases h
  | constant dst index =>
    simp only [evaluate] at h
    split at h
    · exact exceeds_of_store h
    · cases h
  | unary op dst src =>
    refine exceeds_of_bind h ne_allocation_of_read fun x h => ?_
    refine exceeds_of_bind h (ne_allocation_of_mapError ?_)
      fun _ => exceeds_of_store
    rintro _ _ ⟨⟩
  | binary op dst lhs rhs =>
    refine exceeds_of_bind h ne_allocation_of_read fun x h => ?_
    refine exceeds_of_bind h ne_allocation_of_read fun y h => ?_
    refine exceeds_of_bind h (ne_allocation_of_mapError ?_)
      fun _ => exceeds_of_store
    rintro _ _ ⟨⟩

/-- What fails is one of the instructions. -/
theorem exceeds_of_steps {instructions : List Instruction} {r' : Run}
    (h : steps p place arguments instructions r
      = .error (.allocation (.outOfMemory oom), r')) : oom.Exceeds := by
  induction instructions generalizing r with
  | nil => cases h
  | cons i rest ih =>
    unfold steps at h
    cases hvalue : r.evaluate p place arguments i with
    | error cause =>
      rw [hvalue] at h
      cases h
      exact exceeds_of_evaluate hvalue
    | ok given =>
      rw [hvalue] at h
      exact ih h

end Run

/-- **An invocation that runs out of memory** asks for more than there
is. -/
theorem SlotProgram.exceeds_of_run {p : SlotProgram} {place : Nat}
    {arguments : List Buffer} {m m' : Memory} {oom : OutOfMemory}
    (h : p.run place arguments m
      = (.error (.allocation (.outOfMemory oom)), m')) : oom.Exceeds := by
  unfold run at h
  dsimp only at h
  split at h
  · rename_i cause r hsteps
    cases h
    exact Run.exceeds_of_steps hsteps
  · split at h
    · rename_i cause houtputs
      cases h
      -- an output is only missing because its slot is empty
      obtain ⟨slot, -, hslot⟩ := List.exists_of_mapM_eq_error houtputs
      split at hslot <;> cases hslot
    · cases h

/-! ## Invocations -/

namespace Computation

variable {c : Computation} {p : SlotProgram} {stats : CompileStats}
  {literals : List Literal} {buffers outputs : List Buffer}
  {m m' : Memory} {place : Nat}

/-- A compiled program has the shapes of the computation. -/
theorem shapes_of_toSlotProgram (h : c.toSlotProgram = .ok (p, stats)) :
    p.parameterShapes = c.parameterShapes
      ∧ p.outputShapes = c.outputShapes := by
  obtain ⟨e, -, hrest⟩ := Except.bind_eq_ok.mp h
  obtain ⟨outputSlots, -, hp⟩ := Except.bind_eq_ok.mp hrest
  cases hp
  exact ⟨rfl, rfl⟩

/-- **An invocation that is answered**: the outputs have their shapes, and
they hold the results of the computation on what the arguments hold. -/
structure Answered (c : Computation) (m : Memory)
    (buffers outputs : List Buffer) : Prop where
  /-- There is a buffer for each output, of its shape. -/
  shapes : outputs.map Buffer.shape = c.outputShapes
  /-- The buffers hold the results. -/
  values : ∃ literals results,
    List.Forall₂ (fun b l => b.Holds m l) buffers literals
    ∧ c.evaluate literals = .ok results
    ∧ List.Forall₂ (fun b l => b.Holds m l) outputs results

theorem Answered.keeps (h : c.Answered m buffers outputs)
    (hm : m.Keeps m') : c.Answered m' buffers outputs := by
  obtain ⟨literals, results, hbuffers, hresults, houtputs⟩ := h.values
  exact ⟨h.shapes, literals, results, hbuffers.imp fun _ _ h => h.keeps hm,
    hresults, houtputs.imp fun _ _ h => h.keeps hm⟩

/-- Without a limit, an invocation that succeeds is answered. -/
theorem WellFormed.answered_of_run {device : Device} (hc : c.WellFormed)
    (hp : c.toSlotProgram = .ok (p, stats))
    (hdevice : m.devices[place]? = some device)
    (hunlimited : device.meter.limit = none)
    (harguments : c.Accepts literals)
    (hbuffers : List.Forall₂ (fun b l => b.Holds m l) buffers literals)
    (hrun : p.run place buffers m = (.ok outputs, m')) :
    c.Answered m' buffers outputs := by
  obtain ⟨values, hnodes, hvalues⟩ := hc.exists_valuation harguments
  obtain ⟨results, hresults⟩ := List.exists_forall₂ fun id hid =>
    hvalues.exists_value (hc.output_lt id hid)
  have hevaluate : c.evaluate literals = .ok results := by
    rw [evaluate, hnodes, Except.ok_bind, List.mapM_eq_ok]
    exact hresults.imp fun _ _ => valueAt_eq_ok.mpr
  obtain ⟨p', stats', e, hprogram, he, hslots, hreach⟩ :=
    hc.exists_program hvalues hbuffers
      ⟨device, hdevice, hunlimited, Nat.le_refl _⟩
  cases hp.symm.trans hprogram
  obtain ⟨r, hsteps, houtputs, rfl⟩ := SlotProgram.run_eq_ok.mp hrun
  rw [hsteps] at hreach
  have hsimulates : Run.Simulates c values m place _ p.slotCount
    c.nodes.length e r := hreach
  obtain ⟨taken, htaken, hholds⟩ := hc.exists_outputs he hsimulates hslots
  cases houtputs.symm.trans htaken
  have hkeeps : r.memory.Keeps
      (Run.finish ⟨Run.retainAll outputs r.memory, r.slots⟩) :=
    (Memory.Keeps.retainAll outputs r.memory).trans (.releaseAll _ _)
  have hholds' := hholds.imp fun _ _ hb value hvalue =>
    Buffer.Holds.keeps (hb value hvalue) hkeeps
  refine ⟨hc.map_shape_eq hvalues hholds', literals, results,
    hbuffers.imp fun _ _ h => h.keeps (hsimulates.keeps.trans hkeeps),
    hevaluate, ?_⟩
  exact hholds'.join hresults fun id b value _ hb hvalue => hb value hvalue

end Computation

/-- A device without a limit. -/
def Device.withoutLimit (d : Device) : Device :=
  { d with meter := { d.meter with limit := none } }

namespace Memory

variable {m : Memory} {place limit : Nat} {device : Device}

/-- **The same memory without a limit** on the device at a place. -/
def withoutLimit (m : Memory) (place : Nat) : Memory :=
  { m with devices := m.devices.modify place (·.withoutLimit) }

theorem getElem?_withoutLimit (h : m.devices[place]? = some device) :
    (m.withoutLimit place).devices[place]? = some device.withoutLimit := by
  rw [withoutLimit, List.getElem?_modify_eq, h]
  rfl

/-- A limit that is put back. -/
theorem withLimit_withoutLimit (hdevice : m.devices[place]? = some device)
    (hlimit : device.meter.limit = some limit) :
    (m.withoutLimit place).withLimit place limit = m := by
  obtain ⟨hplace, rfl⟩ := List.getElem?_eq_some_iff.mp hdevice
  have hsame : m.devices.modify place
      ((·.withLimit limit) ∘ (·.withoutLimit)) = m.devices := by
    rw [List.modify_eq_set_getElem?, hdevice]
    show m.devices.set place _ = _
    rw [Function.comp_apply, Device.withoutLimit, Device.withLimit, ← hlimit,
      List.set_getElem_self]
  unfold withLimit withoutLimit
  dsimp only
  rw [List.modify_modify_eq, hsame]

end Memory

namespace Computation

variable {c : Computation} {p : SlotProgram} {stats : CompileStats}
  {literals : List Literal} {buffers outputs : List Buffer}
  {m m' : Memory} {place : Nat}

/-- **An invocation is answered or runs out of memory**, if its arguments
hold what the parameters ask for. -/
theorem WellFormed.run_outcome {device : Device} (hc : c.WellFormed)
    (hp : c.toSlotProgram = .ok (p, stats))
    (hdevice : m.devices[place]? = some device)
    (hmeter : device.meter.Sound)
    (harguments : c.Accepts literals)
    (hbuffers : List.Forall₂ (fun b l => b.Holds m l) buffers literals) :
    (∃ outputs m', p.run place buffers m = (.ok outputs, m')
        ∧ c.Answered m' buffers outputs)
      ∨ ∃ oom m', p.run place buffers m
        = (.error (.allocation (.outOfMemory oom)), m') := by
  cases hlimit : device.meter.limit with
  | none =>
    rcases hc.run_unlimited hp hdevice hlimit harguments hbuffers with
      ⟨outputs, m', hrun⟩ | ⟨-, cause, r, bound, hsteps, oom, rfl, -⟩
    · exact .inl ⟨outputs, m', hrun, hc.answered_of_run hp hdevice hlimit
        harguments hbuffers hrun⟩
    · refine .inr ⟨oom, r.finish, ?_⟩
      simp only [SlotProgram.run, hsteps]
  | some limit =>
    -- the invocation is compared with the one without the limit
    have hback := Memory.withLimit_withoutLimit hdevice hlimit
    have hfree := Memory.getElem?_withoutLimit hdevice
    have hheld : List.Forall₂ (fun b l => b.Holds (m.withoutLimit place) l)
        buffers literals :=
      hbuffers.imp fun _ _ h => ⟨h.block_lt, h.shape_eq, h.bytes_eq⟩
    have hrun := hc.run_unlimited hp hfree rfl harguments hheld
    have hstart : ((m.withoutLimit place).meter place).inUse ≤ limit := by
      rw [Memory.meter, hfree]
      exact hmeter.inUse_le hlimit
    obtain ⟨outputs, m', hrun, -, hlimited⟩ | ⟨-, cause, m', hlimited, oom,
      rfl, -⟩ := SlotProgram.run_withLimit_cases hstart
        (hrun.imp_right And.right)
    · rw [hback] at hlimited
      refine .inl ⟨outputs, _, hlimited, ?_⟩
      exact (hc.answered_of_run hp hfree rfl harguments hheld hrun).keeps
        ⟨Nat.le_refl _, fun _ _ => rfl⟩
    · rw [hback] at hlimited
      exact .inr ⟨oom, m', hlimited⟩

/-- **An invocation that is ready**: its device is there, and what is bound
to the parameters is what they ask for. -/
structure Ready (c : Computation) (m : Memory)
    (invocation : List Buffer × Nat) : Prop where
  /-- The device is there. -/
  place_lt : invocation.2 < m.devices.length
  /-- The arguments hold literals that the computation accepts. -/
  arguments : ∃ literals, c.Accepts literals
    ∧ List.Forall₂ (fun b l => b.Holds m l) invocation.1 literals

/-- What is ready stays so. -/
theorem Ready.keeps {invocation : List Buffer × Nat}
    (h : c.Ready m invocation) (hm : m.Keeps m')
    (hdevices : m.devices.length ≤ m'.devices.length) :
    c.Ready m' invocation := by
  obtain ⟨literals, haccepts, hholds⟩ := h.arguments
  exact ⟨Nat.lt_of_lt_of_le h.place_lt hdevices, literals, haccepts,
    hholds.imp fun _ _ h => h.keeps hm⟩

end Computation

/-! ## Executions -/

namespace Loaded

variable {c : Computation} {p : SlotProgram} {stats : CompileStats}
  {l : Loaded} {m : Memory} {outer : Multiset Nat}

/-- **Invocations that are ready are all answered**, or one of them runs out
of memory. -/
theorem runInvocations_outcome (hc : c.WellFormed)
    (hp : c.toSlotProgram = .ok (p, stats))
    {invocations : List (List Buffer × Nat)}
    (hheld : ∀ i ∈ invocations, ∀ b ∈ i.1, b.block ∈ outer)
    (hready : ∀ i ∈ invocations, c.Ready m i)
    (hbalanced : Ledger.Balanced ⟨m, outer⟩)
    (hmeters : ∀ place, (m.meter place).Sound)
    (results : List (List Buffer)) :
    (∃ all m', runInvocations p invocations results m
        = (.ok (results.reverse ++ all), m')
        ∧ m.Keeps m'
        ∧ List.Forall₂ (fun i outputs => c.Answered m' i.1 outputs)
          invocations all)
      ∨ ∃ oom m', runInvocations p invocations results m
          = (.error (.allocation (.outOfMemory oom)), m')
        ∧ oom.Exceeds := by
  induction invocations generalizing m outer results with
  | nil =>
    refine .inl ⟨[], m, ?_, .refl m, .nil⟩
    rw [runInvocations, List.append_nil]
  | cons invocation rest ih =>
    obtain ⟨arguments, place⟩ := invocation
    rw [List.forall_mem_cons] at hheld hready
    obtain ⟨hplace, literals, haccepts, hholds⟩ := hready.1
    have hdevice := List.getElem?_eq_getElem hplace
    have hmeter : m.devices[place].meter.Sound := by
      have hsound := hmeters place
      rwa [Memory.meter, hdevice] at hsound
    rcases hc.run_outcome hp hdevice hmeter haccepts hholds with
      ⟨outputs, m', hrun, hanswered⟩ | ⟨oom, m', hrun⟩
    · have hcourse : Ledger.Course ⟨m, outer⟩ (p.trace place arguments m) _ :=
        SlotProgram.course_run (Computation.dst_lt_slotCount hp) hheld.1 m
      rw [hrun] at hcourse
      obtain ⟨hkeeps, hdevices⟩ := hcourse.keeps
      have hrest : runInvocations p ((arguments, place) :: rest) results m
          = runInvocations p rest (outputs :: results) m' := by
        rw [runInvocations, hrun]
      rw [hrest]
      rcases ih (fun i hi b hb => Multiset.mem_add.mpr
          (.inl (hheld.2 i hi b hb)))
        (fun i hi => (hready.2 i hi).keeps hkeeps hdevices)
        (hcourse.balanced hbalanced)
        (fun place => Memory.sound_of_course hcourse hbalanced
          (hmeters place))
        (outputs :: results) with ⟨all, m'', hall, hkeeps', hanswers⟩ | hfail
      · refine .inl ⟨outputs :: all, m'', ?_, hkeeps.trans hkeeps',
          .cons (hanswered.keeps hkeeps') hanswers⟩
        rw [hall, List.reverse_cons, List.append_assoc,
          List.singleton_append]
      · exact .inr hfail
    · refine .inr ⟨oom, Buffer.releaseAll results.flatten m', ?_,
        SlotProgram.exceeds_of_run hrun⟩
      rw [runInvocations, hrun]

/-- **Something loaded that can be run**: its program is that of a
well-formed computation, and its devices are there. -/
structure Equipped (l : Loaded) (m : Memory) : Prop where
  /-- The program was compiled from a well-formed computation. -/
  computation : ∃ c stats, Computation.WellFormed c
    ∧ c.toSlotProgram = .ok (l.program, stats)
  /-- The devices are there. -/
  place_lt : ∀ place ∈ l.places, place < m.devices.length

/-- **Arguments as an execution wants them**: a list for each invocation,
with a buffer for each parameter, of its shape and on a device of the id
that the device of the invocation has. -/
def Admits (l : Loaded) (m : Memory) (arguments : List (List Buffer)) :
    Prop :=
  List.Forall₂ (fun buffers place => ∃ device,
      m.devices[place]? = some device
      ∧ List.Forall₂ (fun b shape =>
          b.shape = shape ∧ b.deviceId m = device.id)
        buffers l.program.parameterShapes)
    arguments l.places

/-- **Arguments pass the check** exactly if they are admitted. -/
theorem Equipped.checkArguments_eq_ok {arguments : List (List Buffer)}
    (h : l.Equipped m) :
    l.checkArguments m arguments = .ok () ↔ l.Admits m arguments := by
  obtain ⟨devices, hdevices⟩ : ∃ devices, List.Forall₂
      (fun place device => m.devices[place]? = some device) l.places
        devices := by
    refine List.exists_forall₂ fun place hplace => ?_
    exact ⟨_, List.getElem?_eq_getElem (h.place_lt place hplace)⟩
  have hids : l.deviceIds m = devices.map (·.id) := by
    refine List.Forall₂.filterMap_eq (List.forall₂_map_right_iff.mpr ?_)
    exact hdevices.imp fun place device h => congrArg (Option.map _) h
  have hlength : l.places.length = (devices.map (·.id)).length := by
    rw [List.length_map, hdevices.length_eq]
  rw [Loaded.checkArguments_eq_ok, hids, hlength, Prod.forall,
    ← List.forall₂_iff_zip, List.forall₂_map_right_iff]
  constructor
  · intro hall
    refine (hall.flip.join hdevices.flip
      fun device buffers place _ hbuffers hdevice => ?_)
    exact ⟨device, hdevice, hbuffers⟩
  · intro hall
    refine hall.flip.join hdevices fun place buffers device _ ⟨device',
      hdevice', hbuffers⟩ hdevice => ?_
    obtain rfl := Option.some.inj (hdevice.symm.trans hdevice')
    exact hbuffers

/-- Invocations on admitted arguments are ready, if the buffers hold
literals. -/
theorem Admits.ready {arguments : List (List Buffer)}
    (h : l.Admits m arguments)
    (hp : c.toSlotProgram = .ok (l.program, stats))
    (hstored : ∀ buffers ∈ arguments, ∀ b ∈ buffers,
      ∃ value : Literal, b.Holds m value) :
    ∀ i ∈ arguments.zip l.places, c.Ready m i := by
  intro i hi
  obtain ⟨device, hdevice, hshapes⟩ := (List.forall₂_iff_zip.mp h).2 hi
  obtain ⟨literals, hliterals⟩ :=
    List.exists_forall₂ (hstored i.1 (List.of_mem_zip hi).1)
  refine ⟨(List.getElem?_eq_some_iff.mp hdevice).1, literals, ?_, hliterals⟩
  -- both are the shapes of the buffers
  rw [Computation.Accepts, ← (Computation.shapes_of_toSlotProgram hp).1,
    ← List.forall₂_eq_eq_eq, List.forall₂_map_left_iff]
  exact hliterals.join hshapes fun b value shape _ hvalue hshape =>
    hvalue.shape_eq.symm.trans hshape.1

/-- What is found wrong with an argument is shown as such. -/
theorem kind_of_checkArguments {arguments : List (List Buffer)}
    {cause : ExecuteError} (h : l.checkArguments m arguments = .error cause) :
    cause.toFault.kind = .invalidArgument := by
  unfold checkArguments at h
  split at h
  · cases h
    rfl
  · obtain ⟨⟨⟨buffers, device⟩, invocation⟩, -, h⟩ :=
      List.exists_of_forM_eq_error h
    unfold checkInvocation at h
    dsimp only at h
    split at h
    · cases h
      rfl
    · obtain ⟨⟨⟨buffer, shape⟩, argument⟩, -, h⟩ :=
        List.exists_of_forM_eq_error h
      unfold checkArgument at h
      split at h
      · cases h
        rfl
      · split at h
        · cases h
          rfl
        · cases h

/-- **Arguments that are not admitted** are refused, and nothing has
happened. -/
theorem Equipped.execute_of_not_admits {arguments : List (List Buffer)}
    (hl : l.Equipped m) (h : ¬l.Admits m arguments) :
    ∃ cause, l.execute arguments m = (.error cause, m)
      ∧ cause.toFault.kind = .invalidArgument := by
  cases hcheck : l.checkArguments m arguments with
  | ok checked => exact absurd (hl.checkArguments_eq_ok.mp hcheck) h
  | error cause =>
    refine ⟨cause, ?_, kind_of_checkArguments hcheck⟩
    rw [execute, hcheck]

/-- **Admitted arguments** are answered, or an invocation runs out
of memory. -/
theorem Equipped.execute_outcome {arguments : List (List Buffer)}
    (hl : l.Equipped m) (hadmits : l.Admits m arguments)
    (hheld : ∀ buffers ∈ arguments, ∀ b ∈ buffers, b.block ∈ outer)
    (hstored : ∀ buffers ∈ arguments, ∀ b ∈ buffers,
      ∃ value : Literal, b.Holds m value)
    (hbalanced : Ledger.Balanced ⟨m, outer⟩)
    (hmeters : ∀ place, (m.meter place).Sound) :
    (∃ c stats results m', Computation.toSlotProgram c
          = .ok (l.program, stats)
        ∧ l.execute arguments m = (.ok results, m')
        ∧ List.Forall₂ (c.Answered m') arguments results)
      ∨ ∃ oom m', l.execute arguments m
          = (.error (.run (.allocation (.outOfMemory oom))), m')
        ∧ oom.Exceeds := by
  obtain ⟨c, stats, hc, hp⟩ := hl.computation
  have hcheck := hl.checkArguments_eq_ok.mpr hadmits
  rcases runInvocations_outcome hc hp (fun i hi =>
      hheld i.1 (List.of_mem_zip hi).1) (hadmits.ready hp hstored) hbalanced
      hmeters [] with
    ⟨results, m', hrun, -, hanswers⟩ | ⟨oom, m', hrun, hexceeds⟩
  · refine .inl ⟨c, stats, results, m', hp, ?_, ?_⟩
    · rw [execute, hcheck]
      simp only [hrun]
      rfl
    · exact ((List.forall₂_zip_iff (R := c.Answered m')
        (S := fun _ _ => True) hadmits.length_eq).mp
          (hanswers.imp fun _ _ h => ⟨h, trivial⟩)).1
  · refine .inr ⟨oom, m', ?_, hexceeds⟩
    rw [execute, hcheck]
    simp only [hrun]
    rfl

end Loaded

end TensorBind
