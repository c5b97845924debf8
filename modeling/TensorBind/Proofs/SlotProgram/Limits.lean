import TensorBind.Proofs.Client.Execution
import TensorBind.Proofs.SlotProgram.Sharing

/-!
# Invocations under a memory limit

A limit on the memory of a device decides whether an invocation succeeds
and nothing else. The two invocations that are compared start from the same
memory, except that in the second the device has a limit
(`Memory.withLimit`). They go on side by side: what is placed, held and let
go is the same, and so is the count of bytes in use, up to the first value
that does not fit.

Whether there is such a value can be read off the invocation without a
limit. `SlotProgram.mostInUse` is the largest count on its way, and the
invocation under a limit succeeds exactly if that count is within the limit
(`Computation.run_withLimit`). New values are in memory before the ones they
replace are released, so this count is in general larger than the sizes of the
values that are needed at any one time.

An invocation without a limit fails itself if its count would pass the
largest size there is. Then it fails under every limit.
-/

namespace TensorBind

/-! ## Limits on devices -/

/-- A device with a limit. -/
def Device.withLimit (d : Device) (limit : Nat) : Device :=
  { d with meter := { d.meter with limit := some limit } }

namespace Memory

variable {m m' : Memory} {place limit block : Nat} {bytes : List UInt8}

/-- **The same memory with a limit** on the device at a place. -/
def withLimit (m : Memory) (place limit : Nat) : Memory :=
  { m with devices := m.devices.modify place (·.withLimit limit) }

/-- What is counted out does not depend on a limit. -/
theorem release_withLimit (m : Memory) (place limit block : Nat) :
    (m.withLimit place limit).release block
      = (m.release block).withLimit place limit := by
  cases hb : m.blocks[block]? with
  | none =>
    have hb' : (m.withLimit place limit).blocks[block]? = none := hb
    rw [release, hb', release, hb]
  | some b =>
    have hb' : (m.withLimit place limit).blocks[block]? = some b := hb
    rw [release_eq hb', release_eq hb]
    by_cases hlast : b.holders = 1
    · rw [if_pos hlast, if_pos hlast]
      unfold withLimit
      congr 1
      -- the count and the limit of a device are changed independently
      by_cases hplace : place = b.place
      · rw [hplace, List.modify_modify_eq, List.modify_modify_eq]
        rfl
      · rw [List.modify_modify_ne _ _ _ hplace]
    · rw [if_neg hlast, if_neg hlast]
      rfl

theorem releaseAll_withLimit (buffers : List Buffer) (m : Memory)
    (place limit : Nat) :
    Buffer.releaseAll buffers (m.withLimit place limit)
      = (Buffer.releaseAll buffers m).withLimit place limit := by
  induction buffers generalizing m with
  | nil => rfl
  | cons b buffers ih =>
    show Buffer.releaseAll buffers ((m.withLimit place limit).release b.block)
      = _
    rw [release_withLimit, ih]
    rfl

theorem retainAll_withLimit (buffers : List Buffer) (m : Memory)
    (place limit : Nat) :
    Run.retainAll buffers (m.withLimit place limit)
      = (Run.retainAll buffers m).withLimit place limit := by
  induction buffers generalizing m with
  | nil => rfl
  | cons b buffers ih => exact ih (m.retain b.block)

/-- The device that bytes are placed on, under a limit. -/
theorem getElem?_withLimit {device : Device}
    (h : m.devices[place]? = some device) :
    (m.withLimit place limit).devices[place]?
      = some (device.withLimit limit) := by
  show (m.devices.modify place _)[place]? = _
  rw [List.getElem?_modify_eq, h]
  rfl

/-- **Bytes are placed under a limit** as they are without one, if the count
stays within it. -/
theorem allocate_withLimit_of_le
    (h : m.allocate place bytes = .ok (block, m'))
    (hle : (m'.meter place).inUse ≤ limit) :
    (m.withLimit place limit).allocate place bytes
      = .ok (block, m'.withLimit place limit) := by
  have hcount := meter_allocate h place
  rw [if_pos rfl, Meter.reserve?_eq_some] at hcount
  obtain ⟨device, meter, hdevice, hmeter, rfl, rfl⟩ := allocate_eq_ok.mp h
  obtain ⟨hfits, rfl⟩ := Meter.reserve?_eq_some.mp hmeter
  rw [hcount.2, show m.meter place = device.meter by
    rw [Memory.meter, hdevice]] at hle
  refine allocate_eq_ok.mpr ⟨_, _, getElem?_withLimit hdevice,
    Meter.reserve?_eq_some.mpr ⟨?_, rfl⟩, rfl, ?_⟩
  · have hsize : device.meter.capacity ≤ largestSize := Nat.min_le_right _ _
    exact Nat.le_min.mpr ⟨hle, Nat.le_trans hfits hsize⟩
  · unfold withLimit
    dsimp only
    rw [List.set_eq_modify, List.set_eq_modify, List.modify_modify_eq,
      List.modify_modify_eq]
    rfl

/-- **A request is turned down** by a device that would pass its limit. -/
theorem allocate_withLimit_eq_error {device : Device}
    (hdevice : m.devices[place]? = some device)
    (h : min limit largestSize < device.meter.inUse + bytes.length) :
    (m.withLimit place limit).allocate place bytes
      = .error (.outOfMemory ⟨device.id, bytes.length, device.meter.inUse,
        limit⟩) :=
  allocate_eq_error (getElem?_withLimit hdevice) (Meter.reserve?_eq_none.mpr h)

/-! ## Counts on the way -/

/-- Taking a holder counts nothing in. -/
theorem inUse_release_le (m : Memory) (place block : Nat) :
    ((m.release block).meter place).inUse ≤ (m.meter place).inUse := by
  cases hb : m.blocks[block]? with
  | none =>
    rw [release, hb]
  | some b =>
    rw [meter_release hb]
    split
    · exact Nat.sub_le _ _
    · exact Nat.le_refl _

end Memory

namespace Buffer

/-- While buffers are released, no more is in use than before. -/
theorem inUse_trace_release_le {buffers : List Buffer} {m m' : Memory}
    {place : Nat} (h : m' ∈ trace Memory.release buffers m) :
    (m'.meter place).inUse ≤ (m.meter place).inUse := by
  induction buffers generalizing m with
  | nil => cases h
  | cons b buffers ih =>
    have hfirst := m.inUse_release_le place b.block
    rcases List.mem_cons.mp h with rfl | h
    · exact hfirst
    · exact Nat.le_trans (ih h) hfirst

/-- Adding holders counts nothing in. -/
theorem inUse_trace_retain {buffers : List Buffer} {m m' : Memory}
    {place : Nat} (h : m' ∈ trace Memory.retain buffers m) :
    (m'.meter place).inUse = (m.meter place).inUse := by
  induction buffers generalizing m with
  | nil => cases h
  | cons b buffers ih =>
    rcases List.mem_cons.mp h with rfl | h
    · rfl
    · have hrest := ih h
      exact hrest

theorem inUse_retainAll (buffers : List Buffer) (m : Memory) (place : Nat) :
    ((Run.retainAll buffers m).meter place).inUse
      = (m.meter place).inUse := by
  induction buffers generalizing m with
  | nil => rfl
  | cons b buffers ih => exact ih (m.retain b.block)

end Buffer

/-- **A failure because a device would pass its limit.** -/
def RunError.Exhausted (limit : Nat) (cause : RunError) : Prop :=
  ∃ oom, cause = .allocation (.outOfMemory oom) ∧ oom.limit = limit

namespace Run

variable {p : SlotProgram} {place limit : Nat} {arguments : List Buffer}
  {r r' : Run} {instructions : List Instruction}

/-- The same invocation with a limit on a device. -/
def withLimit (r : Run) (place limit : Nat) : Run :=
  ⟨r.memory.withLimit place limit, r.slots⟩

/-- **What an instruction comes to under a limit**, given what it comes to
without one: the same if the count stays within the limit, and a failure for
lack of memory if it does not or would overflow anyway. -/
def Follows (place limit : Nat) :
    Except RunError (Buffer × Memory) →
      Except RunError (Buffer × Memory) → Prop
  | .ok (buffer, memory), outcome =>
    if (memory.meter place).inUse ≤ limit then
      outcome = .ok (buffer, memory.withLimit place limit)
    else ∃ cause, outcome = .error cause ∧ cause.Exhausted limit
  | .error cause, outcome => (∃ bound, cause.Overflow bound) →
      ∃ cause', outcome = .error cause' ∧ cause'.Exhausted limit

theorem Follows.eq_ok {buffer : Buffer} {memory : Memory}
    {outcome : Except RunError (Buffer × Memory)}
    (h : Follows place limit (.ok (buffer, memory)) outcome)
    (hle : (memory.meter place).inUse ≤ limit) :
    outcome = .ok (buffer, memory.withLimit place limit) := by
  have h : if _ then _ else _ := h
  rwa [if_pos hle] at h

theorem Follows.exhausted {buffer : Buffer} {memory : Memory}
    {outcome : Except RunError (Buffer × Memory)}
    (h : Follows place limit (.ok (buffer, memory)) outcome)
    (hlt : ¬(memory.meter place).inUse ≤ limit) :
    ∃ cause, outcome = .error cause ∧ cause.Exhausted limit := by
  have h : if _ then _ else _ := h
  rwa [if_neg hlt] at h

/-- Computing a value from what is in memory does not depend on a limit;
only placing it does. -/
theorem follows_bind {α : Type} {x : Except RunError α}
    {f g : α → Except RunError (Buffer × Memory)}
    (hx : ∀ cause, x = .error cause →
      ∀ allocation, cause ≠ .allocation allocation)
    (h : ∀ a, Follows place limit (f a) (g a)) :
    Follows place limit (x >>= f) (x >>= g) := by
  cases x with
  | error cause =>
    rintro ⟨bound, oom, rfl, -⟩
    exact absurd rfl (hx _ rfl _)
  | ok a => exact h a

theorem ne_allocation_of_mapError {ε α : Type} {x : Except ε α}
    {f : ε → RunError} (hf : ∀ e allocation, f e ≠ .allocation allocation) :
    ∀ cause, x.mapError f = .error cause →
      ∀ allocation, cause ≠ .allocation allocation := by
  intro cause h
  cases x with
  | error e =>
    cases h
    exact hf e
  | ok a => cases h

/-- Why a slot cannot be read is no lack of memory. -/
theorem ne_allocation_of_read {slot : Nat} :
    ∀ cause, r.read slot = .error cause →
      ∀ allocation, cause ≠ .allocation allocation := by
  unfold read
  split
  · exact ne_allocation_of_mapError fun _ _ => nofun
  · rintro _ ⟨⟩ _
    nofun

/-- **Placing a value under a limit.** -/
theorem follows_store (r : Run) (value : Literal) :
    Follows place limit (r.store place value)
      ((r.withLimit place limit).store place value) := by
  unfold store withLimit
  cases hplaced : r.memory.allocate place value.toBytes with
  | ok given =>
    obtain ⟨block, memory⟩ := given
    show if _ then _ else _
    split
    · rename_i hle
      dsimp only
      rw [Memory.allocate_withLimit_of_le hplaced hle]
    · rename_i hlt
      obtain ⟨device, meter, hdevice, -⟩ := Memory.allocate_eq_ok.mp hplaced
      have hcount := Memory.meter_allocate hplaced place
      rw [if_pos rfl, Meter.reserve?_eq_some, Memory.meter, hdevice] at hcount
      rw [hcount.2] at hlt
      dsimp only at hlt ⊢
      rw [Memory.allocate_withLimit_eq_error hdevice (by omega)]
      exact ⟨_, rfl, _, rfl, rfl⟩
  | error cause =>
    rintro ⟨bound, oom, hoom, hlarge, -⟩
    cases hoom
    unfold Memory.allocate Device.reserve at hplaced
    cases hdevice : r.memory.devices[place]? with
    | none => simp [hdevice] at hplaced
    | some device =>
      have hfull : ¬(device.meter.reserve? value.toBytes.length).isSome := by
        intro hsome
        obtain ⟨meter, hmeter⟩ := Option.isSome_iff_exists.mp hsome
        simp [hdevice, hmeter] at hplaced
      rw [Option.not_isSome_iff_eq_none] at hfull
      simp only [hdevice, hfull, Except.error.injEq,
        AllocationError.outOfMemory.injEq] at hplaced
      subst hplaced
      dsimp only at hlarge ⊢
      rw [Memory.allocate_withLimit_eq_error hdevice (by omega)]
      exact ⟨_, rfl, _, rfl, rfl⟩

/-- **An instruction under a limit** does what it does without one, as long
as the count stays within the limit. -/
theorem follows_evaluate (p : SlotProgram) (arguments : List Buffer)
    (hr : (r.memory.meter place).inUse ≤ limit)
    (instruction : Instruction) :
    Follows place limit (r.evaluate p place arguments instruction)
      ((r.withLimit place limit).evaluate p place arguments
        instruction) := by
  cases instruction with
  | parameter dst index =>
    simp only [evaluate]
    cases arguments[index]? with
    | none =>
      rintro ⟨bound, oom, ⟨⟩, -⟩
    | some buffer =>
      show if (r.memory.meter place).inUse ≤ limit then _ else _
      rw [if_pos hr]
      rfl
  | constant dst index =>
    simp only [evaluate]
    cases p.constants[index]? with
    | none =>
      rintro ⟨bound, oom, ⟨⟩, -⟩
    | some value => exact follows_store r value
  | unary op dst src =>
    refine follows_bind ne_allocation_of_read fun x => ?_
    refine follows_bind (ne_allocation_of_mapError ?_) (follows_store r)
    rintro _ _ ⟨⟩
  | binary op dst lhs rhs =>
    refine follows_bind ne_allocation_of_read fun x => ?_
    refine follows_bind ne_allocation_of_read fun y => ?_
    refine follows_bind (ne_allocation_of_mapError ?_) (follows_store r)
    rintro _ _ ⟨⟩

theorem write_withLimit (slots : List (Option Buffer)) (slot : Nat)
    (buffer : Buffer) (memory : Memory) :
    write slots slot buffer (memory.withLimit place limit)
      = (write slots slot buffer memory).withLimit place limit := by
  unfold write withLimit
  cases slots[slot]?.join with
  | none => rfl
  | some old =>
    dsimp only
    rw [Memory.release_withLimit]

theorem inUse_write_le (place : Nat) (slots : List (Option Buffer))
    (slot : Nat) (buffer : Buffer) (memory : Memory) :
    ((write slots slot buffer memory).memory.meter place).inUse
      ≤ (memory.meter place).inUse := by
  unfold write
  cases slots[slot]?.join with
  | none => exact Nat.le_refl _
  | some old => exact memory.inUse_release_le place old.block

/-- **Instructions that stay within a limit** lead to the same place under
it. -/
theorem steps_withLimit_eq_ok
    (hsteps : steps p place arguments instructions r = .ok r')
    (hr : (r.memory.meter place).inUse ≤ limit)
    (htrace : ∀ m ∈ trace p place arguments instructions r,
      (m.meter place).inUse ≤ limit) :
    steps p place arguments instructions (r.withLimit place limit)
      = .ok (r'.withLimit place limit) := by
  induction instructions generalizing r with
  | nil =>
    cases hsteps
    rfl
  | cons i rest ih =>
    have hfollows := follows_evaluate p arguments hr i
    unfold steps at hsteps ⊢
    unfold trace at htrace
    cases hvalue : r.evaluate p place arguments i with
    | error cause =>
      rw [hvalue] at hsteps
      cases hsteps
    | ok given =>
      obtain ⟨buffer, memory⟩ := given
      rw [hvalue] at hsteps hfollows htrace
      dsimp only at hsteps htrace
      rw [List.forall_mem_cons, List.forall_mem_cons] at htrace
      rw [hfollows.eq_ok htrace.1]
      dsimp only
      rw [show (r.withLimit place limit).slots = r.slots from rfl,
        write_withLimit]
      exact ih hsteps htrace.2.1 htrace.2.2

/-- **Instructions that do not stay within a limit** fail under it for lack
of memory. -/
theorem steps_withLimit_eq_error
    (hr : (r.memory.meter place).inUse ≤ limit)
    (h : (∃ m ∈ trace p place arguments instructions r,
        limit < (m.meter place).inUse)
      ∨ ∃ cause r' bound, steps p place arguments instructions r
        = .error (cause, r') ∧ cause.Overflow bound) :
    ∃ cause r', steps p place arguments instructions
        (r.withLimit place limit) = .error (cause, r')
      ∧ cause.Exhausted limit := by
  induction instructions generalizing r with
  | nil =>
    rcases h with ⟨m, hm, -⟩ | ⟨cause, r', bound, herror, -⟩
    · cases hm
    · cases herror
  | cons i rest ih =>
    have hfollows := follows_evaluate p arguments hr i
    unfold steps at h ⊢
    unfold trace at h
    cases hvalue : r.evaluate p place arguments i with
    | error cause =>
      rw [hvalue] at h hfollows
      rcases h with ⟨m, hm, -⟩ | ⟨cause', r', bound, herror, hoverflow⟩
      · cases hm
      · cases herror
        obtain ⟨cause', hcause', hexhausted⟩ := hfollows ⟨bound, hoverflow⟩
        rw [hcause']
        exact ⟨cause', _, rfl, hexhausted⟩
    | ok given =>
      obtain ⟨buffer, memory⟩ := given
      rw [hvalue] at h hfollows
      dsimp only at h
      by_cases hfits : (memory.meter place).inUse ≤ limit
      · -- the value is placed, so that the limit is passed later on
        rw [hfollows.eq_ok hfits]
        dsimp only
        rw [show (r.withLimit place limit).slots = r.slots from rfl,
          write_withLimit]
        have hnext := Nat.le_trans
          (inUse_write_le place r.slots i.dst buffer memory) hfits
        refine ih hnext (h.imp ?_ id)
        rintro ⟨m, hm, hlt⟩
        rcases List.mem_cons.mp hm with rfl | hm
        · exact absurd hfits (Nat.not_le_of_lt hlt)
        rcases List.mem_cons.mp hm with rfl | hm
        · exact absurd hnext (Nat.not_le_of_lt hlt)
        · exact ⟨m, hm, hlt⟩
      · obtain ⟨cause, hcause, hexhausted⟩ := hfollows.exhausted hfits
        rw [hcause]
        exact ⟨cause, _, rfl, hexhausted⟩

/-- Where instructions lead, no more is in use than on the way. -/
theorem inUse_reached_le (hr : (r.memory.meter place).inUse ≤ limit)
    (htrace : ∀ m ∈ trace p place arguments instructions r,
      (m.meter place).inUse ≤ limit) :
    ((reached (steps p place arguments instructions r)).memory.meter
      place).inUse ≤ limit := by
  induction instructions generalizing r with
  | nil => exact hr
  | cons i rest ih =>
    unfold steps
    unfold trace at htrace
    cases hvalue : r.evaluate p place arguments i with
    | error cause => exact hr
    | ok given =>
      obtain ⟨buffer, memory⟩ := given
      rw [hvalue] at htrace
      dsimp only at htrace
      rw [List.forall_mem_cons, List.forall_mem_cons] at htrace
      exact ih htrace.2.1 htrace.2.2

end Run

namespace SlotProgram

variable {p : SlotProgram} {place limit : Nat}
  {arguments outputs : List Buffer} {m m' : Memory}

/-- **The largest number of bytes in use** on a device at any time of an
invocation. -/
def mostInUse (p : SlotProgram) (place : Nat) (arguments : List Buffer)
    (m : Memory) : Nat :=
  ((m :: p.trace place arguments m).map
    fun m => (m.meter place).inUse).foldr max 0

theorem mostInUse_le_iff : p.mostInUse place arguments m ≤ limit
    ↔ ∀ m' ∈ m :: p.trace place arguments m,
      (m'.meter place).inUse ≤ limit := by
  unfold mostInUse
  generalize m :: p.trace place arguments m = memories
  induction memories with
  | nil => simp
  | cons m memories ih =>
    rw [List.map_cons, List.foldr_cons, Nat.max_le, List.forall_mem_cons, ih]

theorem inUse_le_mostInUse :
    (m.meter place).inUse ≤ p.mostInUse place arguments m :=
  mostInUse_le_iff.mp (Nat.le_refl _) m List.mem_cons_self

/-- **Only instructions count bytes in**: what is done once they have been
run releases memory. -/
theorem mostInUse_le_iff_instructions :
    p.mostInUse place arguments m ≤ limit
      ↔ (m.meter place).inUse ≤ limit
        ∧ ∀ m' ∈ Run.trace p place arguments p.instructions
            ⟨m, List.replicate p.slotCount none⟩,
          (m'.meter place).inUse ≤ limit := by
  rw [mostInUse_le_iff, List.forall_mem_cons, trace, List.forall_mem_append]
  refine and_congr_right fun hstart => and_iff_left_of_imp fun hway => ?_
  have hend := Run.inUse_reached_le hstart hway
  intro m' hm'
  generalize Run.steps p place arguments p.instructions
    ⟨m, List.replicate p.slotCount none⟩ = outcome at hend hm'
  cases outcome with
  | error failure =>
    exact Nat.le_trans (Buffer.inUse_trace_release_le hm') hend
  | ok r =>
    dsimp only [Run.reached] at hend hm'
    cases houtputs : r.outputs p with
    | error cause =>
      rw [houtputs] at hm'
      exact Nat.le_trans (Buffer.inUse_trace_release_le hm') hend
    | ok buffers =>
      rw [houtputs] at hm'
      rcases List.mem_append.mp hm' with hm' | hm'
      · rw [Buffer.inUse_trace_retain hm']
        exact hend
      · refine Nat.le_trans (Buffer.inUse_trace_release_le hm') ?_
        rw [Buffer.inUse_retainAll]
        exact hend

/-- **An invocation that stays within a limit** gives the same outputs under
it. -/
theorem run_withLimit_eq_ok
    (hrun : p.run place arguments m = (.ok outputs, m'))
    (h : p.mostInUse place arguments m ≤ limit) :
    p.run place arguments (m.withLimit place limit)
      = (.ok outputs, m'.withLimit place limit) := by
  rw [mostInUse_le_iff_instructions] at h
  obtain ⟨r, hsteps, houtputs, rfl⟩ := run_eq_ok.mp hrun
  refine run_eq_ok.mpr ⟨r.withLimit place limit,
    Run.steps_withLimit_eq_ok hsteps h.1 h.2, houtputs, ?_⟩
  unfold Run.finish
  rw [← Memory.releaseAll_withLimit, ← Memory.retainAll_withLimit]
  rfl

/-- **An invocation that does not stay within a limit**, or would overflow
without one, fails under it for lack of memory. -/
theorem run_withLimit_eq_error (hstart : (m.meter place).inUse ≤ limit)
    (h : limit < p.mostInUse place arguments m
      ∨ ∃ cause r bound, Run.steps p place arguments p.instructions
          ⟨m, List.replicate p.slotCount none⟩ = .error (cause, r)
        ∧ cause.Overflow bound) :
    ∃ cause m', p.run place arguments (m.withLimit place limit)
      = (.error cause, m') ∧ cause.Exhausted limit := by
  have hpasses : limit < p.mostInUse place arguments m →
      ∃ m' ∈ Run.trace p place arguments p.instructions
          ⟨m, List.replicate p.slotCount none⟩,
        limit < (m'.meter place).inUse := by
    intro hlt
    rw [← Nat.not_le, mostInUse_le_iff_instructions] at hlt
    by_contra hnone
    push Not at hnone
    exact hlt ⟨hstart, hnone⟩
  obtain ⟨cause, r, hsteps, hexhausted⟩ :=
    Run.steps_withLimit_eq_error hstart (h.imp_left hpasses)
  refine ⟨cause, r.finish, ?_, hexhausted⟩
  unfold run
  dsimp only
  rw [show (⟨m.withLimit place limit, _⟩ : Run)
    = Run.withLimit ⟨m, List.replicate p.slotCount none⟩ place limit from rfl,
    hsteps]

/-- **Under a limit an invocation is the one without it**, or it runs out of
memory. -/
theorem run_withLimit_cases (hstart : (m.meter place).inUse ≤ limit)
    (hrun : (∃ outputs m', p.run place arguments m = (.ok outputs, m'))
      ∨ ∃ cause r bound, Run.steps p place arguments p.instructions
          ⟨m, List.replicate p.slotCount none⟩ = .error (cause, r)
        ∧ cause.Overflow bound) :
    (∃ outputs m', p.run place arguments m = (.ok outputs, m')
        ∧ p.mostInUse place arguments m ≤ limit
        ∧ p.run place arguments (m.withLimit place limit)
          = (.ok outputs, m'.withLimit place limit))
      ∨ ¬((∃ outputs m', p.run place arguments m = (.ok outputs, m'))
          ∧ p.mostInUse place arguments m ≤ limit)
        ∧ ∃ cause m', p.run place arguments (m.withLimit place limit)
          = (.error cause, m') ∧ cause.Exhausted limit := by
  rcases hrun with ⟨outputs, m', hrun⟩ | hoverflow
  · by_cases hfits : p.mostInUse place arguments m ≤ limit
    · exact .inl ⟨outputs, m', hrun, hfits, run_withLimit_eq_ok hrun hfits⟩
    · exact .inr ⟨fun h => hfits h.2,
        run_withLimit_eq_error hstart (.inl (Nat.lt_of_not_le hfits))⟩
  · refine .inr ⟨fun h => ?_, run_withLimit_eq_error hstart (.inr hoverflow)⟩
    obtain ⟨⟨outputs, m', hrun⟩, -⟩ := h
    obtain ⟨r, hr, -⟩ := run_eq_ok.mp hrun
    obtain ⟨cause, r', bound, herror, -⟩ := hoverflow
    cases hr.symm.trans herror

end SlotProgram

namespace Computation

variable {c : Computation} {p : SlotProgram} {stats : CompileStats}
  {arguments : List Literal} {buffers : List Buffer} {m : Memory}
  {place : Nat} {device : Device}

/-- **Without a limit an invocation succeeds** unless its count of bytes
would overflow. -/
theorem WellFormed.run_unlimited (hc : c.WellFormed)
    (hp : c.toSlotProgram = .ok (p, stats))
    (hdevice : m.devices[place]? = some device)
    (hunlimited : device.meter.limit = none)
    (harguments : c.Accepts arguments)
    (hbuffers : List.Forall₂ (fun b l => b.Holds m l) buffers arguments) :
    (∃ outputs m', p.run place buffers m = (.ok outputs, m'))
      ∨ largestSize < device.meter.inUse + c.totalBytes
        ∧ ∃ cause r bound, Run.steps p place buffers p.instructions
            ⟨m, List.replicate p.slotCount none⟩ = .error (cause, r)
          ∧ cause.Overflow bound := by
  obtain ⟨values, -, hvalues⟩ := hc.exists_valuation harguments
  obtain ⟨p', stats', e, hprogram, he, hslots, hreach⟩ :=
    hc.exists_program hvalues hbuffers
      ⟨device, hdevice, hunlimited, Nat.le_refl _⟩
  cases hp.symm.trans hprogram
  cases hsteps : Run.steps p place buffers p.instructions
      ⟨m, List.replicate p.slotCount none⟩ with
  | error failure =>
    rw [hsteps] at hreach
    have hoverflow : failure.1.Overflow _ := hreach
    obtain ⟨oom, -, hlarge, hbound⟩ := hreach
    exact .inr ⟨Nat.lt_of_lt_of_le hlarge hbound, failure.1, failure.2, _,
      rfl, hoverflow⟩
  | ok r =>
    rw [hsteps] at hreach
    obtain ⟨outputs, houtputs, -⟩ := hc.exists_outputs he hreach hslots
    exact .inl ⟨outputs, _,
      SlotProgram.run_eq_ok.mpr ⟨r, hsteps, houtputs, rfl⟩⟩

/-- **A limit only decides success.** Take an invocation of a compiled
program on a device without a limit, with any number of bytes in use before.
It succeeds, unless its count of bytes would pass the largest size. Under a
limit of no less than what is in use before, the same invocation

* succeeds if and only if it does without the limit and the most that is in
  use on its way is within the limit;
* gives, if it succeeds, the same outputs in the same memory;
* fails otherwise in the execution because the limit would be passed;
* succeeds under every larger limit, if it succeeds. -/
theorem run_withLimit (hc : c.Built)
    (hp : c.toSlotProgram = .ok (p, stats))
    (hdevice : m.devices[place]? = some device)
    (hunlimited : device.meter.limit = none)
    (harguments : c.Accepts arguments)
    (hbuffers : List.Forall₂ (fun b l => b.Holds m l) buffers arguments) :
    device.meter.inUse ≤ p.mostInUse place buffers m
      ∧ ((∃ outputs m', p.run place buffers m = (.ok outputs, m'))
        ∨ largestSize < device.meter.inUse + c.totalBytes)
      ∧ ∀ limit, device.meter.inUse ≤ limit →
        ((∃ outputs m', p.run place buffers (m.withLimit place limit)
            = (.ok outputs, m'))
          ↔ (∃ outputs m', p.run place buffers m = (.ok outputs, m'))
            ∧ p.mostInUse place buffers m ≤ limit)
        ∧ (∀ outputs m', p.run place buffers (m.withLimit place limit)
            = (.ok outputs, m') →
          ∃ m'', p.run place buffers m = (.ok outputs, m'')
            ∧ m' = m''.withLimit place limit)
        ∧ (∀ cause m', p.run place buffers (m.withLimit place limit)
            = (.error cause, m') →
          cause.Exhausted limit ∧ cause.toFault.kind = .execution)
        ∧ ∀ larger, limit ≤ larger →
          (∃ outputs m', p.run place buffers (m.withLimit place limit)
            = (.ok outputs, m')) →
          ∃ outputs m', p.run place buffers (m.withLimit place larger)
            = (.ok outputs, m') := by
  have hmeter : m.meter place = device.meter := by
    rw [Memory.meter, hdevice]
  have hunlimited := hc.wellFormed.run_unlimited hp hdevice hunlimited
    harguments hbuffers
  have hrun := hunlimited.imp_right And.right
  refine ⟨hmeter ▸ SlotProgram.inUse_le_mostInUse,
    hunlimited.imp_right And.left, ?_⟩
  intro limit hstart
  rw [← hmeter] at hstart
  have hiff : ∀ limit, (m.meter place).inUse ≤ limit →
      ((∃ outputs m', p.run place buffers (m.withLimit place limit)
          = (.ok outputs, m'))
        ↔ (∃ outputs m', p.run place buffers m = (.ok outputs, m'))
          ∧ p.mostInUse place buffers m ≤ limit) := by
    intro limit hstart
    rcases SlotProgram.run_withLimit_cases hstart hrun with
      ⟨outputs, m', hm, hfits, hok⟩ | ⟨hnot, cause, m', herror, -⟩
    · exact ⟨fun _ => ⟨⟨outputs, m', hm⟩, hfits⟩, fun _ => ⟨_, _, hok⟩⟩
    · refine ⟨?_, fun h => absurd h hnot⟩
      rintro ⟨outputs, m'', hok⟩
      cases hok.symm.trans herror
  refine ⟨hiff limit hstart, fun outputs m' hok => ?_,
    fun cause m' herror => ?_, fun larger hle hok => ?_⟩
  · rcases SlotProgram.run_withLimit_cases hstart hrun with
      ⟨outputs', m'', hm, -, hok'⟩ | ⟨-, cause, m'', herror, -⟩
    · cases hok.symm.trans hok'
      exact ⟨m'', hm, rfl⟩
    · cases hok.symm.trans herror
  · rcases SlotProgram.run_withLimit_cases hstart hrun with
      ⟨outputs', m'', -, -, hok⟩ | ⟨-, cause', m'', herror', hexhausted⟩
    · cases herror.symm.trans hok
    · cases herror.symm.trans herror'
      exact ⟨hexhausted, rfl⟩
  · obtain ⟨hm, hfits⟩ := (hiff limit hstart).mp hok
    exact (hiff larger (Nat.le_trans hstart hle)).mpr
      ⟨hm, Nat.le_trans hfits hle⟩

/-- What `negatedDouble` is compiled to: the negation takes the slot of the
double. -/
def negatedDoubleProgram : SlotProgram :=
  ⟨[.parameter 0 0, .binary .add 1 0 0, .unary .negate 1 1], [],
    [⟨.s32, [2]⟩], [0, 1, 1], [⟨.s32, [2]⟩, ⟨.s32, [2]⟩, ⟨.s32, [2]⟩], 2⟩

/-- The negation is in memory before the double is released, and the argument
is in memory all the time. So 24 bytes are needed for values of 8 bytes, and
a limit of one byte less is not enough. -/
theorem negatedDouble_run_withLimit :
    negatedDoubleProgram.mostInUse 0 [⟨⟨.s32, [2]⟩, 0⟩] twoIntegers = 24
      ∧ (∃ outputs m', negatedDoubleProgram.run 0 [⟨⟨.s32, [2]⟩, 0⟩]
        (twoIntegers.withLimit 0 24) = (.ok outputs, m'))
      ∧ ¬∃ outputs m', negatedDoubleProgram.run 0 [⟨⟨.s32, [2]⟩, 0⟩]
        (twoIntegers.withLimit 0 23) = (.ok outputs, m') := by
  have hbuilt : negatedDouble.Built :=
    ⟨"f", [.parameter 0 ⟨.s32, [2]⟩, .binary .add 0 0, .unary .abs 1,
      .unary .negate 1], [0, 3, 3], rfl⟩
  have hprogram : negatedDouble.toSlotProgram = .ok (negatedDoubleProgram,
      ⟨3, 1, 3, 2, 0, [("parameter", 1), ("add", 1), ("negate", 1)]⟩) := by
    cbv
  have haccepts : negatedDouble.Accepts
      [.vector .s32 [(7 : Int32), (-1 : Int32)]] := rfl
  have hholds : Buffer.Holds ⟨⟨.s32, [2]⟩, 0⟩ twoIntegers
      (.vector .s32 [(7 : Int32), (-1 : Int32)]) :=
    ⟨by decide, rfl, by decide⟩
  have hdevice : twoIntegers.devices[0]? = some ⟨0, "cpu", ⟨none, 8, 8⟩⟩ :=
    rfl
  have hmost : negatedDoubleProgram.mostInUse 0 [⟨⟨.s32, [2]⟩, 0⟩]
      twoIntegers = 24 := by decide +kernel
  obtain ⟨-, hok, hlimit⟩ := run_withLimit hbuilt hprogram hdevice rfl
    haccepts (.cons hholds .nil)
  have hok := hok.resolve_right (by decide)
  refine ⟨hmost, (hlimit 24 (by decide)).1.mpr ⟨hok, by rw [hmost]⟩, ?_⟩
  intro h
  have hle := ((hlimit 23 (by decide)).1.mp h).2
  rw [hmost] at hle
  exact absurd hle (by decide)

end Computation

end TensorBind
