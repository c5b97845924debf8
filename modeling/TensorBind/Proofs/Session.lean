import TensorBind.Proofs.Client.Binding
import TensorBind.Proofs.Client.Execution
import TensorBind.Proofs.SlotProgram.Sharing
import TensorBind.Session

/-!
# Sessions keep exact accounts

A session is driven by a caller who makes clients, loads and unloads
executables, moves values to devices, executes, and drops what they hold.
Each of these is a `Session.Action`, and any of them may fail.

`Session.history` lists the memories a session passes through, those in the
middle of an execution included. They are a course of the ledger in which
a block is held as often as the caller has a buffer with it
(`Session.course_performAll`), so that everything that is known of courses
holds of sessions (`Session.memory_accounting`): after each action a device
has in use what the caller can reach on it, at no time does it have more in
use than its limit or count out more than is in use, and its peak is the
largest count it ever had.
-/

namespace TensorBind

/-- **An executable that was compiled.** -/
def Executable.Compiled (e : Executable) : Prop :=
  ∃ options program topology client,
    Executable.compile options program topology client = .ok e

/-- What was compiled is the program of some computation. -/
theorem Executable.Compiled.exists_computation {e : Executable}
    (h : e.Compiled) :
    ∃ c stats, Computation.toSlotProgram c = .ok (e.program, stats) := by
  obtain ⟨options, program, topology, client, h⟩ := h
  obtain ⟨-, c, -, h⟩ := compile_eq_ok.mp h
  exact ⟨c, e.stats, (ofComputation_eq_ok.mp h).2.1⟩

namespace Session

/-! ## What a caller does -/

/-- **Something a caller does**: one call, with its arguments. Only what was
compiled can be loaded. -/
inductive Action where
  /-- Makes a client. -/
  | addClient (options : ClientOptions)
  /-- Loads an executable on a client. -/
  | load (client : Nat) (e : Executable) (compiled : e.Compiled)
  /-- Takes a loaded executable off the table of a client. -/
  | unload (client id : Nat)
  /-- Moves a value to a device of a client. -/
  | transfer (client : Nat) (value : Literal) (device : UInt32)
  /-- Executes what is loaded on buffers. -/
  | execute (handle : Nat) (arguments : List (List Nat))
  /-- Drops a buffer. -/
  | drop (handle : Nat)
  /-- Drops a loaded executable. -/
  | dropLoaded (handle : Nat)

/-- The session after a call that gives a new one or fails. -/
def settle (s : Session) : Except SessionError (Nat × Session) → Session
  | .ok (_, next) => next
  | .error _ => s

/-- **The session after an action**, whether it succeeds or not. -/
def perform (s : Session) : Action → Session
  | .addClient options => s.settle (s.addClient options)
  | .load client e _ => s.settle (s.load client e)
  | .unload client id => (s.unload client id).2
  | .transfer client value device =>
    s.settle (s.transfer client value device)
  | .execute handle arguments => (s.execute handle arguments).2
  | .drop handle => s.drop handle
  | .dropLoaded handle => s.dropLoaded handle

/-- The memories of an action: that after it, except that an execution goes
through many. -/
def trace (s : Session) : Action → List Memory
  | .execute handle arguments =>
    match s.entry? handle, arguments.mapM s.buffersOf with
    | some entry, .ok arguments => entry.loaded.trace arguments s.memory
    | _, _ => []
  | action => [(s.perform action).memory]

/-- **The session after all of some actions.** -/
def performAll (s : Session) (actions : List Action) : Session :=
  actions.foldl perform s

/-- **The memories a session passes through** in the course of actions. -/
def history (s : Session) : List Action → List Memory
  | [] => []
  | action :: actions => s.trace action ++ (s.perform action).history actions

/-- **The ledger of a session**: what is held is what the caller has
buffers of. -/
def ledger (s : Session) : Ledger := ⟨s.memory, Buffer.blocks s.held⟩

/-- **Outputs that are not copied**: for each output of a computation the
caller has a buffer, one and the same for an output that is listed twice,
and that of the argument for a parameter. -/
def Shares (s s' : Session) (c : Computation)
    (arguments outputs : List Nat) : Prop :=
  ∃ bufferOf : Nat → Buffer,
    outputs.map s'.buffer? = c.outputs.map (fun id => some (bufferOf id))
    ∧ ∀ id ∈ c.outputs, ∀ number shape,
      c.nodes[id]? = some ⟨.parameter number, shape⟩ →
      arguments[number]?.bind s.buffer? = some (bufferOf id)

/-! ## What actions do to the ledger -/

variable {s s' : Session} {handle : Nat} {arguments : List (List Nat)}

/-- **A session in which only compiled programs are loaded.** -/
def Sound (s : Session) : Prop :=
  ∀ entry ∈ s.loaded, ∃ c stats,
    Computation.toSlotProgram c = .ok (entry.loaded.program, stats)

theorem mem_held_of_buffer? {b : Buffer} (h : s.buffer? handle = some b) :
    b ∈ s.held :=
  List.mem_filterMap.mpr ⟨_, List.mem_of_getElem?
    (Option.join_eq_some_iff.mp h), rfl⟩

/-- Handles that are accepted stand for buffers. -/
theorem forall₂_of_buffersOf {handles : List Nat} {buffers : List Buffer}
    (h : s.buffersOf handles = .ok buffers) :
    List.Forall₂ (fun handle b => s.buffer? handle = some b) handles
      buffers := by
  refine (List.mapM_eq_ok.mp h).imp fun handle b hb => ?_
  split at hb
  · rename_i buffer hbuffer
    cases hb
    exact hbuffer
  · cases hb

theorem mem_held_of_buffersOf {buffers : List (List Buffer)}
    (h : arguments.mapM s.buffersOf = .ok buffers) :
    ∀ list ∈ buffers, ∀ b ∈ list, b.block ∈ Buffer.blocks s.held := by
  intro list hlist b hb
  obtain ⟨handles, -, hhandles⟩ :=
    (List.mapM_eq_ok.mp h).flip.exists_of_mem hlist
  obtain ⟨handle, -, hhandle⟩ :=
    (forall₂_of_buffersOf hhandles).flip.exists_of_mem hb
  exact Buffer.mem_blocks (mem_held_of_buffer? hhandle)

/-- **What an execution is**: a call that is turned away, an execution that
fails, or one whose results the caller gets. -/
theorem execute_cases (s : Session) (handle : Nat)
    (arguments : List (List Nat)) :
    (∃ cause, s.execute handle arguments = (.error cause, s)
      ∧ s.trace (.execute handle arguments) = [])
    ∨ ∃ entry buffers, s.entry? handle = some entry
      ∧ arguments.mapM s.buffersOf = .ok buffers
      ∧ s.trace (.execute handle arguments)
        = entry.loaded.trace buffers s.memory
      ∧ ((∃ cause memory,
          entry.loaded.execute buffers s.memory = (.error cause, memory)
          ∧ s.execute handle arguments
            = (.error (.execute cause), { s with memory }))
        ∨ ∃ outputs memory,
          entry.loaded.execute buffers s.memory = (.ok outputs, memory)
          ∧ s.execute handle arguments
            = (.ok (numberOutputs s.buffers.length outputs), { s with
              memory
              loaded := s.loaded.set handle
                { entry with executions := entry.executions + 1 }
              buffers := s.buffers ++ outputs.flatten.map some })) := by
  unfold trace execute
  dsimp only
  cases hentry : s.entry? handle with
  | none => exact .inl ⟨_, rfl, rfl⟩
  | some entry =>
    cases hbuffers : arguments.mapM s.buffersOf with
    | error cause => exact .inl ⟨_, rfl, rfl⟩
    | ok buffers =>
      refine .inr ⟨entry, buffers, rfl, rfl, rfl, ?_⟩
      dsimp only
      generalize entry.loaded.execute buffers s.memory = outcome
      obtain ⟨outcome, memory⟩ := outcome
      cases outcome with
      | error cause => exact .inl ⟨cause, memory, rfl, rfl⟩
      | ok outputs => exact .inr ⟨outputs, memory, rfl, rfl⟩

/-- **What an execution that succeeds is.** -/
theorem execute_eq_ok {handles : List (List Nat)}
    (h : s.execute handle arguments = (.ok handles, s')) :
    ∃ entry buffers outputs memory, s.entry? handle = some entry
      ∧ arguments.mapM s.buffersOf = .ok buffers
      ∧ entry.loaded.execute buffers s.memory = (.ok outputs, memory)
      ∧ handles = numberOutputs s.buffers.length outputs
      ∧ s' = { s with
        memory
        loaded := s.loaded.set handle
          { entry with executions := entry.executions + 1 }
        buffers := s.buffers ++ outputs.flatten.map some } := by
  obtain ⟨cause, hexecute, -⟩ | ⟨entry, buffers, hentry, hbuffers, -,
    hresult⟩ := s.execute_cases handle arguments
  · rw [hexecute] at h
    cases h
  obtain ⟨cause, memory, -, hexecute⟩ | ⟨outputs, memory, hloaded,
    hexecute⟩ := hresult
  · rw [hexecute] at h
    cases h
  · rw [hexecute] at h
    cases h
    exact ⟨entry, buffers, outputs, memory, hentry, hbuffers, hloaded, rfl,
      rfl⟩

/-- What is loaded is a compiled program. -/
theorem Sound.exists_computation {entry : LoadedEntry} (hs : s.Sound)
    (h : s.entry? handle = some entry) :
    ∃ c stats, Computation.toSlotProgram c
      = .ok (entry.loaded.program, stats) := by
  have hmem := List.mem_of_getElem? (Option.filter_eq_some_iff.mp h).1
  exact hs entry hmem

/-- New buffers are held in addition. -/
theorem blocks_append_map (s : Session) (buffers : List Buffer) :
    Buffer.blocks ((s.buffers ++ buffers.map some).filterMap id)
      = Buffer.blocks s.held + Buffer.blocks buffers := by
  rw [List.filterMap_append, Buffer.blocks_append, List.filterMap_map]
  exact congrArg _ (congrArg _ List.filterMap_some)

/-- A client comes with devices that have counted nothing. -/
theorem step_addClient (s : Session) (options : ClientOptions) :
    s.ledger.Step (s.settle (s.addClient options)).ledger := by
  unfold addClient
  cases hclient : Client.ofOptions options s.memory.devices.length with
  | error cause => exact .idle _
  | ok given =>
    obtain ⟨ids, -, hdevices⟩ := Except.bind_eq_ok.mp hclient
    cases hdevices
    refine .grow fun device hdevice => ?_
    obtain ⟨id, -, rfl⟩ := List.mem_map.mp hdevice
    rfl

/-- A value that is moved to a device is held by the caller. -/
theorem step_transfer (s : Session) (client : Nat) (value : Literal)
    (device : UInt32) :
    s.ledger.Step (s.settle (s.transfer client value device)).ledger := by
  unfold transfer
  cases s.clients[client]? with
  | none => exact .idle _
  | some c =>
    dsimp only
    unfold Client.transfer
    cases c.place? device with
    | none => exact .idle _
    | some place =>
      dsimp only
      cases hplaced : s.memory.allocate place value.toBytes with
      | error cause => exact .idle _
      | ok given =>
        have hheld := s.blocks_append_map [⟨value.shape, given.1⟩]
        rw [Multiset.add_comm, Buffer.blocks_cons, Buffer.blocks_nil,
          Multiset.cons_add, Multiset.zero_add] at hheld
        show Ledger.Step _ ⟨given.2, Buffer.blocks ((s.buffers
          ++ [(⟨value.shape, given.1⟩ : Buffer)].map some).filterMap id)⟩
        rw [hheld]
        exact .place hplaced

/-- A buffer that is dropped is released. -/
theorem step_drop (s : Session) (handle : Nat) :
    s.ledger.Step (s.drop handle).ledger := by
  unfold drop
  cases hbuffer : s.buffer? handle with
  | none => exact .idle _
  | some b =>
    have hset := Buffer.blocks_set (Option.join_eq_some_iff.mp hbuffer) none
    rw [Option.toList_none, Buffer.blocks_nil, Multiset.add_zero,
      Multiset.add_comm, Option.toList_some, Buffer.blocks_cons,
      Buffer.blocks_nil, Multiset.cons_add, Multiset.zero_add] at hset
    unfold ledger held
    rw [← hset]
    exact .release

/-- An execution is a course after which the caller holds its results. -/
theorem course_execute (hs : s.Sound) (handle : Nat)
    (arguments : List (List Nat)) :
    s.ledger.Course (s.trace (.execute handle arguments))
      (s.execute handle arguments).2.ledger := by
  obtain ⟨cause, hexecute, htrace⟩ | ⟨entry, buffers, hentry, hbuffers,
    htrace, hresult⟩ := s.execute_cases handle arguments
  · rw [hexecute, htrace]
    exact .nil _
  obtain ⟨c, stats, hc⟩ := hs.exists_computation hentry
  have hcourse := Loaded.course_execute (Computation.dst_lt_slotCount hc)
    (mem_held_of_buffersOf hbuffers) s.memory
  rw [htrace]
  obtain ⟨cause, memory, hloaded, hexecute⟩ | ⟨outputs, memory, hloaded,
    hexecute⟩ := hresult
  · rw [hloaded, show Buffer.given _ = 0 from rfl, Multiset.add_zero]
      at hcourse
    rw [hexecute]
    exact hcourse
  · rw [hloaded] at hcourse
    rw [hexecute]
    show Ledger.Course _ _ ⟨memory, Buffer.blocks
      ((s.buffers ++ outputs.flatten.map some).filterMap id)⟩
    rw [blocks_append_map]
    exact hcourse

/-- Loading and unloading leave the memory and the buffers alone. -/
theorem ledger_load (s : Session) (client : Nat) (e : Executable) :
    (s.settle (s.load client e)).ledger = s.ledger := by
  unfold load
  cases s.clients[client]? with
  | none => rfl
  | some c =>
    dsimp only
    cases c.load e with
    | error cause => rfl
    | ok given => rfl

theorem ledger_unload (s : Session) (client id : Nat) :
    (s.unload client id).2.ledger = s.ledger := by
  unfold unload
  cases s.clients[client]? with
  | none => rfl
  | some c => rfl

/-- **Every action is a course of the ledger.** -/
theorem course_perform (hs : s.Sound) (action : Action) :
    s.ledger.Course (s.trace action) (s.perform action).ledger := by
  have hstep : s.ledger.Step (s.perform action).ledger →
      s.ledger.Course [(s.perform action).memory]
        (s.perform action).ledger := Ledger.Step.course
  cases action with
  | addClient options => exact hstep (s.step_addClient options)
  | load client e _ =>
    refine hstep ?_
    rw [perform, ledger_load]
    exact .idle _
  | unload client id =>
    refine hstep ?_
    rw [perform, ledger_unload]
    exact .idle _
  | transfer client value device =>
    exact hstep (s.step_transfer client value device)
  | execute handle arguments => exact course_execute hs handle arguments
  | drop handle => exact hstep (s.step_drop handle)
  | dropLoaded handle => exact hstep (.idle _)

/-- Making a client, taking a loaded executable off its table, moving a
value and dropping a buffer leave alone what the caller has loaded. -/
theorem loaded_addClient (s : Session) (options : ClientOptions) :
    (s.settle (s.addClient options)).loaded = s.loaded := by
  unfold addClient
  cases Client.ofOptions options s.memory.devices.length with
  | error cause => rfl
  | ok given => rfl

theorem loaded_unload (s : Session) (client id : Nat) :
    (s.unload client id).2.loaded = s.loaded := by
  unfold unload
  cases s.clients[client]? with
  | none => rfl
  | some c => rfl

theorem loaded_transfer (s : Session) (client : Nat) (value : Literal)
    (device : UInt32) :
    (s.settle (s.transfer client value device)).loaded = s.loaded := by
  unfold transfer
  cases s.clients[client]? with
  | none => rfl
  | some c =>
    dsimp only
    cases c.transfer value device s.memory with
    | error cause => rfl
    | ok given => rfl

theorem loaded_drop (s : Session) (handle : Nat) :
    (s.drop handle).loaded = s.loaded := by
  unfold drop
  cases s.buffer? handle with
  | none => rfl
  | some b => rfl

theorem Sound.of_loaded_eq (hs : s.Sound) (h : s'.loaded = s.loaded) :
    s'.Sound := by
  intro entry hentry
  rw [h] at hentry
  exact hs entry hentry

/-- What is loaded was compiled. -/
theorem Sound.load (hs : s.Sound) (client : Nat) {e : Executable}
    (compiled : e.Compiled) : (s.settle (s.load client e)).Sound := by
  unfold Session.load
  cases s.clients[client]? with
  | none => exact hs
  | some c =>
    dsimp only
    cases hload : c.load e with
    | error cause => exact hs
    | ok given =>
      obtain ⟨places, -, hl, -⟩ := Client.load_eq_ok.mp hload
      intro entry hentry
      rcases List.mem_append.mp hentry with hold | hnew
      · exact hs entry hold
      · rw [List.mem_singleton.mp hnew, hl]
        exact compiled.exists_computation

/-- An execution counts itself and changes nothing else of what is
loaded. -/
theorem Sound.execute (hs : s.Sound) (handle : Nat)
    (arguments : List (List Nat)) : (s.execute handle arguments).2.Sound := by
  obtain ⟨cause, hexecute, -⟩ | ⟨entry, buffers, hentry, -, -,
    hresult⟩ := s.execute_cases handle arguments
  · rw [hexecute]
    exact hs
  obtain ⟨cause, memory, -, hexecute⟩ | ⟨outputs, memory, -,
    hexecute⟩ := hresult
  · rw [hexecute]
    exact hs
  · rw [hexecute]
    intro other hother
    rcases List.mem_or_eq_of_mem_set hother with hold | rfl
    · exact hs other hold
    · obtain ⟨c, stats, hc⟩ := hs.exists_computation hentry
      exact ⟨c, stats, hc⟩

theorem Sound.dropLoaded (hs : s.Sound) (handle : Nat) :
    (s.dropLoaded handle).Sound := by
  intro entry hentry
  obtain ⟨i, hi⟩ := List.getElem?_of_mem hentry
  rw [Session.dropLoaded, List.getElem?_modify] at hi
  obtain ⟨old, hold, rfl⟩ := Option.map_eq_some_iff.mp hi
  obtain ⟨c, stats, hc⟩ := hs old (List.mem_of_getElem? hold)
  refine ⟨c, stats, ?_⟩
  rw [hc]
  split <;> rfl

/-- **Every action leaves only compiled programs loaded.** -/
theorem Sound.perform (hs : s.Sound) (action : Action) :
    (s.perform action).Sound := by
  cases action with
  | addClient options => exact hs.of_loaded_eq (s.loaded_addClient options)
  | load client e compiled => exact hs.load client compiled
  | unload client id => exact hs.of_loaded_eq (s.loaded_unload client id)
  | transfer client value device =>
    exact hs.of_loaded_eq (s.loaded_transfer client value device)
  | execute handle arguments => exact hs.execute handle arguments
  | drop handle => exact hs.of_loaded_eq (s.loaded_drop handle)
  | dropLoaded handle => exact hs.dropLoaded handle

/-- **Actions are a course of the ledger**, and only compiled programs are
loaded in the end. -/
theorem course_performAll (hs : s.Sound) (actions : List Action) :
    s.ledger.Course (s.history actions) (s.performAll actions).ledger
      ∧ (s.performAll actions).Sound := by
  induction actions generalizing s with
  | nil => exact ⟨.nil _, hs⟩
  | cons action actions ih =>
    obtain ⟨hcourse, hsound⟩ := ih (hs.perform action)
    exact ⟨(course_perform hs action).append hcourse, hsound⟩

theorem sound_empty : empty.Sound := fun _ h => absurd h List.not_mem_nil

/-! ## What an execution gives and leaves -/

/-- **The handles of results stand for the results**, which come behind the
buffers there were. -/
theorem forall₂_numberOutputs (before : List (Option Buffer))
    (outputs : List (List Buffer)) :
    List.Forall₂ (fun handles given => handles.map (fun handle =>
        (before ++ outputs.flatten.map some)[handle]?.join)
        = given.map some)
      (numberOutputs before.length outputs) outputs := by
  induction outputs generalizing before with
  | nil => exact .nil
  | cons given rest ih =>
    rw [List.flatten_cons, List.map_append]
    refine .cons ?_ ?_
    · refine List.ext_getElem (by simp) fun i hi _ => ?_
      have hi : i < given.length := by simpa using hi
      rw [List.getElem_map, List.getElem_range', Nat.one_mul,
        List.getElem?_append_right (Nat.le_add_right _ _),
        Nat.add_sub_cancel_left, List.getElem?_append_left (by simpa),
        List.getElem?_map, List.getElem?_eq_getElem hi, List.getElem_map]
      rfl
    · have hrest := ih (before ++ given.map some)
      rw [List.length_append, List.length_map, List.append_assoc] at hrest
      exact hrest

/-- **Results are not copied.** -/
theorem forall₂_shares {handles : List (List Nat)} {entry : LoadedEntry}
    {c : Computation} {stats : CompileStats}
    (h : s.execute handle arguments = (.ok handles, s'))
    (hentry : s.entry? handle = some entry)
    (hc : c.toSlotProgram = .ok (entry.loaded.program, stats)) :
    List.Forall₂ (s.Shares s' c) arguments handles := by
  obtain ⟨entry', buffers, outputs, memory, hentry', hbuffers, hloaded, rfl,
    rfl⟩ := execute_eq_ok h
  obtain rfl : entry = entry' :=
    Option.some.inj (hentry.symm.trans hentry')
  -- arguments and results are matched through the buffers of the arguments
  have hruns := (List.mapM_eq_ok.mp hbuffers).flip.join
    (T := fun args given => ∃ list place before after,
      s.buffersOf args = .ok list
      ∧ entry.loaded.program.run place list before = (.ok given, after))
    (Loaded.forall₂_of_execute hloaded)
    fun list args given _ hlist ⟨place, before, after, hrun⟩ =>
      ⟨list, place, before, after, hlist, hrun⟩
  refine hruns.flip.join (forall₂_numberOutputs s.buffers outputs).flip ?_
  rintro given args handles - ⟨list, place, before, after, hlist, hrun⟩
    hhandles
  obtain ⟨bufferOf, rfl, hparameters⟩ := Computation.outputs_of_run hc hrun
  refine ⟨bufferOf, ?_, fun id hid number shape hnode => ?_⟩
  · rw [List.map_map] at hhandles
    exact hhandles
  · rw [(forall₂_of_buffersOf hlist).getElem?_bind]
    exact hparameters id hid number shape hnode

/-- **An execution that fails** leaves the buffers, and on each device it
leaves as much in use as there was. -/
theorem inUse_of_execute_eq_error {cause : SessionError} (hs : s.Sound)
    (hl : s.ledger.Balanced)
    (h : s.execute handle arguments = (.error cause, s')) :
    s'.buffers = s.buffers ∧ ∀ place,
      (s'.memory.meter place).inUse = (s.memory.meter place).inUse := by
  have hcourse := course_execute hs handle arguments
  have hbuffers : s'.buffers = s.buffers := by
    obtain ⟨cause, hexecute, -⟩ | ⟨entry, buffers, -, -, -, hresult⟩ :=
      s.execute_cases handle arguments
    · rw [hexecute] at h
      cases h
      rfl
    obtain ⟨cause, memory, -, hexecute⟩ | ⟨outputs, memory, -,
      hexecute⟩ := hresult
    · rw [hexecute] at h
      cases h
      rfl
    · rw [hexecute] at h
      cases h
  refine ⟨hbuffers, fun place => ?_⟩
  rw [h] at hcourse
  have hheld : s'.ledger = ⟨s'.memory, s.ledger.held⟩ := by
    simp only [ledger, held, hbuffers]
  have hinUse : (s'.memory.meter place).inUse = s'.ledger.bytesOn place :=
    (hcourse.balanced hl).inUse_eq place
  have hinUse' : (s.memory.meter place).inUse = s.ledger.bytesOn place :=
    hl.inUse_eq place
  -- both counts are the room of the same blocks
  rw [hinUse, hinUse', hheld]
  exact hcourse.bytesOn_eq hl place

/-! ## The accounts of a session -/

/-- **Device memory is accounted for exactly**, over any actions of a
caller, those that fail included.

After the actions each device has in use the bytes of the blocks on it that
the caller has buffers of, each block counted once. In all memories on the
way no device has more in use than its limit; each memory comes from the
one before by a single step that never counts out more than is in use; and
the peak of a device is the largest count it had in any of them.

A transfer that fails changes nothing, and an execution that fails leaves
the counts as they were. The results of an execution that succeeds are not
copied. When the caller holds no buffer, nothing is in use. -/
theorem memory_accounting (actions : List Action) :
    let s := empty.performAll actions
    let past := Memory.empty :: empty.history actions
    past.getLast? = some s.memory
    ∧ (∀ place, (s.memory.meter place).inUse = s.ledger.bytesOn place)
    ∧ (∀ m ∈ past, ∀ place limit, (m.meter place).limit = some limit →
      (m.meter place).inUse ≤ limit)
    ∧ past.IsChain Memory.Step
    ∧ (∀ place, (past.map fun m => (m.meter place).inUse).max?
      = some (s.memory.meter place).peak)
    ∧ (∀ client value device cause,
      s.transfer client value device = .error cause →
      s.perform (.transfer client value device) = s)
    ∧ (∀ handle arguments cause s',
      s.execute handle arguments = (.error cause, s') →
      s'.buffers = s.buffers ∧ ∀ place,
        (s'.memory.meter place).inUse = (s.memory.meter place).inUse)
    ∧ (∀ handle arguments handles s' entry c stats,
      s.execute handle arguments = (.ok handles, s') →
      s.entry? handle = some entry →
      Computation.toSlotProgram c = .ok (entry.loaded.program, stats) →
      List.Forall₂ (s.Shares s' c) arguments handles)
    ∧ (s.held = [] → ∀ place, (s.memory.meter place).inUse = 0) := by
  intro s past
  obtain ⟨hcourse, hsound⟩ := course_performAll sound_empty actions
  have hbalanced : s.ledger.Balanced :=
    hcourse.balanced Ledger.balanced_empty
  have hchain : past.IsChain Memory.Step :=
    hcourse.isChain Ledger.balanced_empty
  have hlast : past.getLast? = some s.memory := hcourse.getLast?
  have hinUse : ∀ place, (s.memory.meter place).inUse
      = s.ledger.bytesOn place := hbalanced.inUse_eq
  refine ⟨hlast, hinUse, fun m hm place limit hlimit => ?_, hchain,
    Memory.max?_inUse hchain hlast, fun client value device cause h => ?_,
    fun handle arguments cause s' h =>
      inUse_of_execute_eq_error hsound hbalanced h,
    fun handle arguments handles s' entry c stats h hentry hc =>
      forall₂_shares h hentry hc, fun hheld place => ?_⟩
  · exact (Memory.sound_of_isChain hchain (Meter.sound_empty none) m
      hm).inUse_le hlimit
  · rw [perform, h, settle]
  · rw [hinUse, ledger, hheld]
    rfl

/-- A program that gives out its parameter and, twice, a value for which
another is computed on the way. -/
def sharingProgram : Graph.Module :=
  ⟨"m", "f", none, none,
    [⟨"x", .array ⟨.s32, [2]⟩, .parameter 0, []⟩,
      ⟨"d", .array ⟨.s32, [2]⟩, .binary .add, [0, 0]⟩,
      ⟨"n", .array ⟨.s32, [2]⟩, .unary .negate, [1]⟩,
      ⟨"t", .tuple [⟨.s32, [2]⟩, ⟨.s32, [2]⟩, ⟨.s32, [2]⟩], .tuple,
        [0, 2, 2]⟩], 3⟩

/-- The program is executed on a device that has room for three values. -/
def sharingActions : List Action :=
  let topology : Topology :=
    ⟨Topology.platformOfName "host", "host", "host_device", [0]⟩
  match h : Executable.compile .default (.graph sharingProgram) topology
    (some (.ok topology)) with
  | .error _ => []
  | .ok e =>
    [.addClient ⟨"host", "host_device", 1, 0, some 24⟩,
      .load 0 e ⟨_, _, _, _, h⟩,
      .transfer 0 (.vector .s32 [(7 : Int32), (-1 : Int32)]) 0,
      .execute 0 [[0]]]

/-- The caller holds four buffers of two blocks, while three values were in
use for a moment. Another execution and the transfer of a longer value fail
for want of room, and once all buffers are dropped nothing is in use. -/
theorem sharingActions_memory_accounting :
    let s := empty.performAll sharingActions
    s.held.length = 4
    ∧ (s.memory.meter 0).inUse = 16
    ∧ (s.memory.meter 0).inUse ≤ 24
    ∧ (s.memory.meter 0).peak = 24
    ∧ s.perform (.transfer 0 (.vector .s64 [(1 : Int64), (2 : Int64)]) 0)
      = s
    ∧ ((s.perform (.execute 0 [[0]])).memory.meter 0).inUse
      = (s.memory.meter 0).inUse
    ∧ List.Forall₂ ((empty.performAll (sharingActions.take 3)).Shares s
        ⟨"f", [⟨.parameter 0, ⟨.s32, [2]⟩⟩, ⟨.binary .add 0 0, ⟨.s32, [2]⟩⟩,
          ⟨.unary .negate 1, ⟨.s32, [2]⟩⟩], [0], [0, 2, 2]⟩)
      [[0]] [[1, 2, 3]]
    ∧ ((empty.performAll (sharingActions
      ++ [.drop 0, .drop 1, .drop 2, .drop 3])).memory.meter 0).inUse = 0 := by
  intro s
  obtain ⟨hlast, hinUse, hlimit, -, hpeak, htransfer, hexecute, -, -⟩ :=
    memory_accounting sharingActions
  obtain ⟨-, -, -, -, -, -, -, hshares, -⟩ :=
    memory_accounting (sharingActions.take 3)
  obtain ⟨-, -, -, -, -, -, -, -, hnone⟩ := memory_accounting
    (sharingActions ++ [.drop 0, .drop 1, .drop 2, .drop 3])
  have hfull : (s.execute 0 [[0]]).1 = .error (.execute (.run
      (.allocation (.outOfMemory ⟨0, 8, 24, 24⟩)))) := by decide +kernel
  have hloaded : Option.isSome <|
      entry? (empty.performAll (sharingActions.take 3)) 0 := by
    decide +kernel
  have hmax : ((Memory.empty :: empty.history sharingActions).map
      fun m => (m.meter 0).inUse).max? = some 24 := by decide +kernel
  refine ⟨by decide +kernel, (hinUse 0).trans (by decide +kernel),
    hlimit _ (List.mem_of_getLast? hlast) 0 24 (by decide +kernel),
    Option.some.inj ((hpeak 0).symm.trans hmax),
    htransfer 0 _ 0 (.transfer (.allocation (.outOfMemory
      ⟨0, 16, 16, 24⟩))) (by decide +kernel),
    (hexecute 0 [[0]] _ _ (Prod.ext hfull rfl)).2 0,
    hshares 0 [[0]] [[1, 2, 3]] s _ _
      ⟨3, 0, 3, 2, 0, [("parameter", 1), ("add", 1), ("negate", 1)]⟩
      (by decide +kernel) (Option.some_get hloaded).symm
      (by decide +kernel +revert),
    hnone (by decide +kernel) 0⟩

end Session

end TensorBind
