import TensorBind.Proofs.Client.Failure
import TensorBind.Proofs.Session.Residence

/-!
# A failing execution changes nothing but peaks

Whatever a caller does, the session is **stocked** (`Session.Stocked`): every
buffer holds a literal, and everything loaded can be run. No action takes
that away (`Session.stocked_performAll`).

An execution can therefore fail in two ways only
(`Session.execute_failure`). Its arguments are refused, and the session is
as it was to the last count. Or a device runs out of memory; then the counts
of bytes in use, the number of executions and all buffers with what they
hold are as they were, and only peaks may be higher.

Executions are counted when they succeed (`Session.executionsOf_performAll`).
-/

namespace TensorBind

/-- What a client has moved to a device is held there. -/
theorem Client.holds_of_transfer {c : Client} {value : Literal}
    {device : UInt32} {b : Buffer} {m m' : Memory}
    (h : c.transfer value device m = .ok (b, m')) : b.Holds m' value := by
  unfold transfer at h
  split at h
  · cases h
  · split at h
    · cases h
    · rename_i hplaced
      cases h
      exact Buffer.holds_of_allocate hplaced

namespace Session

variable {s t : Session} {handle : Nat} {arguments : List (List Nat)}

/-! ## Stocked sessions -/

/-- **A session in which everything can be used**: what is loaded can be run,
and what buffers hold can be read. -/
structure Stocked (s : Session) : Prop where
  /-- Everything loaded can be run. -/
  equipped : ∀ l ∈ s.bindings, l.Equipped s.memory
  /-- Every buffer holds a literal. -/
  stored : ∀ b ∈ s.held, ∃ value : Literal, b.Holds s.memory value

theorem stocked_empty : empty.Stocked := ⟨nofun, nofun⟩

/-- What there was stays as good as it was, so only what is new has to be
looked at. -/
theorem Stocked.of_course {trace : List Memory} (hs : s.Stocked)
    (hcourse : s.ledger.Course trace t.ledger)
    (hbindings : ∀ l ∈ t.bindings, l ∈ s.bindings ∨ l.Equipped t.memory)
    (hheld : ∀ b ∈ t.held, b ∈ s.held
      ∨ ∃ value : Literal, b.Holds t.memory value) :
    t.Stocked := by
  obtain ⟨hkeeps, hdevices⟩ := hcourse.keeps
  constructor
  · intro l hl
    rcases hbindings l hl with hold | hnew
    · obtain ⟨hcomputation, hplaces⟩ := hs.equipped l hold
      exact ⟨hcomputation, fun place hplace =>
        Nat.lt_of_lt_of_le (hplaces place hplace) hdevices⟩
    · exact hnew
  · intro b hb
    rcases hheld b hb with hold | hnew
    · obtain ⟨value, hholds⟩ := hs.stored b hold
      exact ⟨value, hholds.keeps hkeeps⟩
    · exact hnew

/-- **What a session is known to be** in the course of any actions. -/
structure Regular (s : Session) : Prop where
  /-- Only compiled programs are loaded. -/
  sound : s.Sound
  /-- Everything is in its place. -/
  housed : s.Housed
  /-- The accounts are right. -/
  balanced : s.ledger.Balanced
  /-- No device has more in use than it may. -/
  meters : ∀ place, (s.memory.meter place).Sound

theorem regular_performAll (actions : List Action) :
    (empty.performAll actions).Regular := by
  obtain ⟨hcourse, hsound⟩ := course_performAll sound_empty actions
  refine ⟨hsound, housed_performAll actions, balanced_performAll actions,
    fun place => ?_⟩
  exact Memory.sound_of_course hcourse Ledger.balanced_empty
    (Meter.sound_empty none)

/-- What is loaded can be run. -/
theorem Stocked.equipped_of_entry {entry : LoadedEntry} (hs : s.Stocked)
    (h : s.entry? handle = some entry) :
    entry.loaded.Equipped s.memory := by
  have hmem := List.mem_of_getElem? (Option.filter_eq_some_iff.mp h).1
  exact hs.equipped _ (List.mem_map_of_mem hmem)

/-- What handles stand for is held. -/
theorem mem_held_of_mapM {buffers : List (List Buffer)}
    (h : arguments.mapM s.buffersOf = .ok buffers) :
    ∀ list ∈ buffers, ∀ b ∈ list, b ∈ s.held := by
  intro list hlist b hb
  obtain ⟨handles, -, hhandles⟩ :=
    (List.mapM_eq_ok.mp h).flip.exists_of_mem hlist
  obtain ⟨handle, -, hhandle⟩ :=
    (forall₂_of_buffersOf hhandles).flip.exists_of_mem hb
  exact mem_held_of_buffer? hhandle

/-- **An execution whose arguments are admitted** is answered or runs out of memory. -/
theorem Stocked.execute_outcome {entry : LoadedEntry}
    {buffers : List (List Buffer)} (hs : s.Stocked) (hr : s.Regular)
    (hentry : s.entry? handle = some entry)
    (hbuffers : arguments.mapM s.buffersOf = .ok buffers)
    (hadmits : entry.loaded.Admits s.memory buffers) :
    (∃ c stats results m', Computation.toSlotProgram c
          = .ok (entry.loaded.program, stats)
        ∧ entry.loaded.execute buffers s.memory = (.ok results, m')
        ∧ List.Forall₂ (c.Answered m') buffers results)
      ∨ ∃ oom m', entry.loaded.execute buffers s.memory
          = (.error (.run (.allocation (.outOfMemory oom))), m')
        ∧ oom.Exceeds :=
  (hs.equipped_of_entry hentry).execute_outcome hadmits
    (mem_held_of_buffersOf hbuffers)
    (fun list hlist b hb =>
      hs.stored b (mem_held_of_mapM hbuffers list hlist b hb))
    hr.balanced hr.meters

/-! ## Actions keep a session stocked -/

/-- A call that fails changes nothing. -/
theorem Stocked.settle {call : Except SessionError (Nat × Session)}
    (hs : s.Stocked) (h : ∀ handle t, call = .ok (handle, t) → t.Stocked) :
    (s.settle call).Stocked := by
  cases call with
  | error cause => exact hs
  | ok given => exact h given.1 given.2 rfl

/-- Where neither what is loaded nor the buffers change, there is nothing
new. -/
theorem Stocked.of_eq {trace : List Memory} (hs : s.Stocked)
    (hcourse : s.ledger.Course trace t.ledger)
    (hloaded : t.bindings = s.bindings) (hbuffers : t.buffers = s.buffers) :
    t.Stocked := by
  refine hs.of_course hcourse (fun l hl => .inl (hloaded ▸ hl))
    fun b hb => .inl ?_
  rw [held, hbuffers] at hb
  exact hb

/-- **What is loaded can be run**, as it was compiled from a program. -/
theorem Stocked.load {client : Nat} {e : Executable} (hs : s.Stocked)
    (hr : s.Regular) (compiled : e.Compiled) :
    (s.settle (s.load client e)).Stocked := by
  have hledger := s.ledger_load client e
  refine hs.settle fun handle t h => ?_
  rw [h, Session.settle] at hledger
  have hcourse : s.ledger.Course [] t.ledger := hledger ▸ .nil _
  obtain ⟨c, l, c', hclient, hload, -, rfl⟩ := load_eq_ok.mp h
  obtain ⟨places, hplaces, rfl, -⟩ := Client.load_eq_ok.mp hload
  refine hs.of_course hcourse (fun l hl => ?_) fun b => .inl
  rw [bindings, List.map_append, List.mem_append] at hl
  refine hl.imp id fun hnew => ?_
  rw [List.map_singleton, List.mem_singleton] at hnew
  subst hnew
  constructor
  · obtain ⟨options, program, topology, bound, hcompile⟩ := compiled
    obtain ⟨-, c, hc, he⟩ := Executable.compile_eq_ok.mp hcompile
    exact ⟨c, e.stats, Program.wellFormed_of_toComputation hc,
      (Executable.ofComputation_eq_ok.mp he).2.1⟩
  · intro place hplace
    obtain ⟨device, -, hdevice⟩ := hplaces.flip.exists_of_mem hplace
    have hid := hr.housed.getElem?_ids hclient hdevice
    rw [Memory.ids, List.getElem?_map, Option.map_eq_some_iff] at hid
    obtain ⟨d, hd, -⟩ := hid
    exact (List.getElem?_eq_some_iff.mp hd).1

/-- **What is moved to a device is held there.** -/
theorem Stocked.transfer {client : Nat} {value : Literal} {device : UInt32}
    (hs : s.Stocked) :
    (s.settle (s.transfer client value device)).Stocked := by
  have hstep := s.step_transfer client value device
  refine hs.settle fun handle t h => ?_
  rw [h, Session.settle] at hstep
  unfold Session.transfer at h
  split at h
  · cases h
  · split at h
    · cases h
    · rename_i b memory hmoved
      cases h
      refine hs.of_course hstep.course (fun l => .inl) fun b' hb' => ?_
      rw [held, List.filterMap_append, List.mem_append] at hb'
      refine hb'.imp id fun hnew => ?_
      obtain rfl : b' = b := by simpa using hnew
      exact ⟨value, Client.holds_of_transfer hmoved⟩

/-- **The results of an execution hold what was computed.** -/
theorem Stocked.execute (hs : s.Stocked) (hr : s.Regular) (handle : Nat)
    (arguments : List (List Nat)) :
    (s.execute handle arguments).2.Stocked := by
  have hcourse := course_execute hr.sound handle arguments
  obtain ⟨cause, hexecute, -⟩ | ⟨entry, buffers, hentry, hbuffers, -,
    hresult⟩ := s.execute_cases handle arguments
  · rw [hexecute]
    exact hs
  obtain ⟨cause, memory, -, hexecute⟩ | ⟨outputs, memory, hloaded,
    hexecute⟩ := hresult
  · rw [hexecute] at hcourse ⊢
    exact hs.of_eq hcourse rfl rfl
  · rw [hexecute] at hcourse ⊢
    have hadmits := (hs.equipped_of_entry hentry).checkArguments_eq_ok.mp
      (Loaded.execute_eq_ok hloaded).1
    have hsame := List.map_set_eq (f := LoadedEntry.loaded)
      (b := { entry with executions := entry.executions + 1 })
      (Option.filter_eq_some_iff.mp hentry).1 rfl
    refine hs.of_course hcourse (fun l hl => .inl ?_) fun b hb => ?_
    · rw [bindings, hsame] at hl
      exact hl
    · rw [held, List.filterMap_append, List.mem_append] at hb
      refine hb.imp id fun hnew => ?_
      rw [List.filterMap_map] at hnew
      obtain ⟨given, hgiven, hb⟩ : ∃ given ∈ outputs, b ∈ given := by
        simpa using hnew
      obtain ⟨c, stats, results, m', -, hrun, hanswers⟩ | ⟨oom, m', hrun,
        -⟩ := hs.execute_outcome hr hentry hbuffers hadmits
      · cases hloaded.symm.trans hrun
        obtain ⟨list, -, hanswered⟩ := hanswers.flip.exists_of_mem hgiven
        obtain ⟨literals, values, -, -, hvalues⟩ := hanswered.values
        obtain ⟨value, -, hholds⟩ := hvalues.exists_of_mem hb
        exact ⟨value, hholds⟩
      · cases hloaded.symm.trans hrun

/-- Dropping a buffer leaves the others. -/
theorem Stocked.drop (hs : s.Stocked) (handle : Nat) :
    (s.drop handle).Stocked := by
  have hstep := s.step_drop handle
  unfold Session.drop at hstep ⊢
  cases hbuffer : s.buffer? handle with
  | none => exact hs
  | some b =>
    rw [hbuffer] at hstep
    refine hs.of_course hstep.course (fun l => .inl) fun b' hb' => .inl ?_
    obtain ⟨cell, hcell, rfl⟩ := List.mem_filterMap.mp hb'
    rcases List.mem_or_eq_of_mem_set hcell with hold | hnone
    · exact List.mem_filterMap.mpr ⟨_, hold, rfl⟩
    · cases hnone

theorem buffers_addClient (s : Session) (options : ClientOptions) :
    (s.settle (s.addClient options)).buffers = s.buffers := by
  unfold addClient
  cases Client.ofOptions options s.memory.devices.length with
  | error cause => rfl
  | ok given => rfl

theorem buffers_unload (s : Session) (client id : Nat) :
    (s.unload client id).2.buffers = s.buffers := by
  unfold unload
  cases s.clients[client]? with
  | none => rfl
  | some c => rfl

/-- **Actions keep a session stocked.** -/
theorem Stocked.perform (hs : s.Stocked) (hr : s.Regular)
    (action : Action) : (s.perform action).Stocked := by
  have hcourse := course_perform hr.sound action
  cases action with
  | addClient options =>
    exact hs.of_eq hcourse
      (congrArg (List.map _) (s.loaded_addClient options))
      (s.buffers_addClient options)
  | load client e compiled => exact hs.load hr compiled
  | unload client id =>
    exact hs.of_eq hcourse
      (congrArg (List.map _) (s.loaded_unload client id))
      (s.buffers_unload client id)
  | transfer client value device => exact hs.transfer
  | execute handle arguments => exact hs.execute hr handle arguments
  | drop handle => exact hs.drop handle
  | dropLoaded handle =>
    refine hs.of_eq hcourse (List.map_modify_eq ?_ s.loaded handle) rfl
    exact fun _ => rfl

/-- **In the course of any actions** a session is stocked. -/
theorem stocked_performAll (actions : List Action) :
    (empty.performAll actions).Stocked := by
  induction actions using List.reverseRecOn with
  | nil => exact stocked_empty
  | append_singleton actions action ih =>
    rw [performAll, List.foldl_append]
    exact ih.perform (regular_performAll actions) action

/-! ## Counting executions -/

/-- Whether an action is an execution of what is loaded under a handle, and
one that succeeds. -/
def succeeds (s : Session) (handle : Nat) : Action → Bool
  | .execute other arguments =>
    other == handle && (s.execute other arguments).1.isOk
  | _ => false

/-- **How many executions succeed** of what is loaded under a handle, in the
course of actions. -/
def successes (s : Session) (handle : Nat) : List Action → Nat
  | [] => 0
  | action :: actions => (s.succeeds handle action).toNat
    + (s.perform action).successes handle actions

/-- The number of executions that is shown of a handle, none if nothing is
loaded under it. -/
def executionsOf (s : Session) (handle : Nat) : Nat :=
  (s.loaded.map (·.executions)).getD handle 0

theorem executionsOf_eq {entry : LoadedEntry}
    (h : s.entry? handle = some entry) :
    s.executionsOf handle = entry.executions := by
  rw [executionsOf, List.getD_eq_getElem?_getD, List.getElem?_map,
    (Option.filter_eq_some_iff.mp h).1]
  rfl

theorem executionsOf_congr (h : t.loaded.map (·.executions)
    = s.loaded.map (·.executions)) (handle : Nat) :
    t.executionsOf handle = s.executionsOf handle := by
  rw [executionsOf, h, executionsOf]

/-- Nothing has been executed of what was just loaded. -/
theorem executionsOf_load (s : Session) (client : Nat) (e : Executable)
    (handle : Nat) :
    (s.settle (s.load client e)).executionsOf handle
      = s.executionsOf handle := by
  cases h : s.load client e with
  | error cause => rfl
  | ok given =>
    obtain ⟨c, l, c', -, -, -, ht⟩ := load_eq_ok.mp h
    rw [settle, ht]
    simp only [executionsOf, List.map_append, List.map_singleton,
      List.getD_eq_getElem?_getD]
    rcases Nat.lt_or_ge handle s.loaded.length with hlt | hge
    · rw [List.getElem?_append_left (by simpa using hlt)]
    · rw [List.getElem?_append_right (by simpa using hge),
        List.getElem?_eq_none (l := s.loaded.map _) (by simpa using hge)]
      cases handle - (s.loaded.map (·.executions)).length <;> rfl

/-- **An execution counts itself if it succeeds.** -/
theorem executionsOf_execute (s : Session) (other : Nat)
    (arguments : List (List Nat)) (handle : Nat) :
    (s.execute other arguments).2.executionsOf handle
      = s.executionsOf handle
        + (other == handle && (s.execute other arguments).1.isOk).toNat := by
  obtain ⟨cause, hexecute, -⟩ | ⟨entry, buffers, hentry, -, -,
    hresult⟩ := s.execute_cases other arguments
  · rw [hexecute, Except.isOk, Except.toBool, Bool.and_false]
    rfl
  obtain ⟨cause, memory, -, hexecute⟩ | ⟨outputs, memory, -,
    hexecute⟩ := hresult
  · rw [hexecute, Except.isOk, Except.toBool, Bool.and_false]
    rfl
  · rw [hexecute, Except.isOk, Except.toBool, Bool.and_true]
    obtain ⟨hlt, rfl⟩ := List.getElem?_eq_some_iff.mp
      (Option.filter_eq_some_iff.mp hentry).1
    simp only [executionsOf, List.map_set, List.getD_eq_getElem?_getD,
      List.getElem?_set, List.length_map]
    by_cases hsame : other = handle
    · subst hsame
      simp [hlt]
    · simp [hsame]

/-- **An action is counted** if it is an execution that succeeds. -/
theorem executionsOf_perform (s : Session) (handle : Nat)
    (action : Action) :
    (s.perform action).executionsOf handle
      = s.executionsOf handle + (s.succeeds handle action).toNat := by
  cases action with
  | addClient options =>
    exact executionsOf_congr
      (congrArg (List.map _) (s.loaded_addClient options)) handle
  | load client e _ => exact s.executionsOf_load client e handle
  | unload client id =>
    exact executionsOf_congr
      (congrArg (List.map _) (s.loaded_unload client id)) handle
  | transfer client value device =>
    exact executionsOf_congr
      (congrArg (List.map _) (s.loaded_transfer client value device)) handle
  | execute other arguments => exact s.executionsOf_execute other arguments _
  | drop other =>
    exact executionsOf_congr
      (congrArg (List.map _) (s.loaded_drop other)) handle
  | dropLoaded other =>
    refine executionsOf_congr (List.map_modify_eq ?_ s.loaded other) handle
    exact fun _ => rfl

/-- **Over any actions** the executions that succeed are counted. -/
theorem executionsOf_performAll (s : Session) (handle : Nat)
    (actions : List Action) :
    (s.performAll actions).executionsOf handle
      = s.executionsOf handle + s.successes handle actions := by
  induction actions generalizing s with
  | nil => rfl
  | cons action actions ih =>
    rw [performAll, List.foldl_cons, ← performAll, ih, executionsOf_perform,
      successes, Nat.add_assoc]

/-! ## How an execution fails -/

/-- **What a failure for want of memory leaves alone**: everything but the
peaks of devices. -/
structure SameButPeaks (s t : Session) : Prop where
  /-- The clients are the same. -/
  clients_eq : t.clients = s.clients
  /-- What is loaded is the same, with the numbers of executions. -/
  loaded_eq : t.loaded = s.loaded
  /-- The caller has the same buffers. -/
  buffers_eq : t.buffers = s.buffers
  /-- As much is in use on every device. -/
  inUse_eq : ∀ place,
    (t.memory.meter place).inUse = (s.memory.meter place).inUse
  /-- The buffers hold what they held, where they held it. -/
  contents_eq : ∀ b ∈ s.held, b.toLiteral t.memory = b.toLiteral s.memory
    ∧ b.deviceId t.memory = b.deviceId s.memory

/-- **The results an execution gives** for the arguments of an invocation:
a handle for each output, of a buffer with its shape that holds its
value. -/
def Gives (t : Session) (p : SlotProgram) (buffers : List Buffer)
    (results : List Nat) : Prop :=
  ∃ c stats outputs, Computation.toSlotProgram c = .ok (p, stats)
    ∧ results.map t.buffer? = outputs.map some
    ∧ outputs.map Buffer.shape = p.outputShapes
    ∧ c.Answered t.memory buffers outputs

/-- The device of a buffer is the same where nothing has moved. -/
theorem deviceId_eq_of_stays {b : Buffer} {m : Memory} (hr : s.Regular)
    (hb : b ∈ s.held) (hstays : s.memory.Stays m) :
    b.deviceId m = b.deviceId s.memory := by
  obtain ⟨place, hplace, hhere⟩ :=
    exists_place_of_mem_held hr.housed hr.balanced hb
  have hthere := Memory.deviceId_eq (hstays.grounded hr.housed.grounded)
    (hstays.placeOf?_eq hplace)
  rw [hstays.ids_eq, hhere] at hthere
  exact (Option.some.inj hthere).symm

/-- **An execution that fails leaves everything but peaks.** -/
theorem Stocked.sameButPeaks {cause : SessionError} (hs : s.Stocked)
    (hr : s.Regular) (h : s.execute handle arguments = (.error cause, t)) :
    s.SameButPeaks t := by
  have hkeeps := (course_execute hr.sound handle arguments).keeps.1
  rw [h] at hkeeps
  have hleft : t.clients = s.clients ∧ t.loaded = s.loaded
      ∧ s.memory.Stays t.memory := by
    obtain ⟨cause, hexecute, -⟩ | ⟨entry, buffers, -, -, -, hresult⟩ :=
      s.execute_cases handle arguments
    · cases h.symm.trans hexecute
      exact ⟨rfl, rfl, .refl _⟩
    have hstays := entry.loaded.stays_execute buffers s.memory
    obtain ⟨cause, memory, hloaded, hexecute⟩ | ⟨outputs, memory, -,
      hexecute⟩ := hresult
    · cases h.symm.trans hexecute
      rw [hloaded] at hstays
      exact ⟨rfl, rfl, hstays⟩
    · cases h.symm.trans hexecute
  obtain ⟨hclients, hloaded, hstays⟩ := hleft
  obtain ⟨hbuffers, hinUse⟩ :=
    inUse_of_execute_eq_error hr.sound hr.balanced h
  refine ⟨hclients, hloaded, hbuffers, hinUse, fun b hb => ⟨?_, ?_⟩⟩
  · obtain ⟨value, hholds⟩ := hs.stored b hb
    have hbytes : t.memory.bytes b.block = s.memory.bytes b.block :=
      hkeeps.bytes_eq b.block hholds.block_lt
    rw [Buffer.toLiteral, Buffer.toLiteral, hbytes]
  · exact deviceId_eq_of_stays hr hb hstays

/-- **A failing execution changes nothing but peaks.** Take a session after
any actions, something loaded in it and buffers of the caller for its
invocations.

The number of executions it shows is that of the executions that succeeded.
If there is not a list for each device, or in any list there are not as many
buffers as parameters, or one has another shape or is on a device of another
id, the execution is refused because of an invalid argument, and the session
is the same. Otherwise it succeeds, and gives a list for each invocation, in
order, with a buffer for each output; or it fails in the execution because a
device would have more in use than it may, and then everything but peaks is
the same. -/
theorem execute_failure {before : List Action} {entry : LoadedEntry}
    {buffers : List (List Buffer)}
    (hentry : entry? (empty.performAll before) handle = some entry)
    (hbuffers : arguments.mapM (empty.performAll before).buffersOf
      = .ok buffers) :
    let s := empty.performAll before
    entry.executions = empty.successes handle before
    ∧ (¬entry.loaded.Admits s.memory buffers →
      ∃ cause, s.execute handle arguments = (.error cause, s)
        ∧ cause.toFault.kind = .invalidArgument)
    ∧ (entry.loaded.Admits s.memory buffers →
      (∃ results s', s.execute handle arguments = (.ok results, s')
        ∧ List.Forall₂ (s'.Gives entry.loaded.program) buffers results)
      ∨ ∃ oom s', s.execute handle arguments
          = (.error (.execute (.run (.allocation (.outOfMemory oom)))), s')
        ∧ (SessionError.execute
            (.run (.allocation (.outOfMemory oom)))).toFault.kind
          = .execution
        ∧ oom.Exceeds ∧ s.SameButPeaks s') := by
  intro s
  have hs : s.Stocked := stocked_performAll before
  have hr : s.Regular := regular_performAll before
  have hequipped := hs.equipped_of_entry hentry
  refine ⟨?_, fun hadmits => ?_, fun hadmits => ?_⟩
  · have hcount := empty.executionsOf_performAll handle before
    rw [← executionsOf_eq hentry, hcount]
    exact Nat.zero_add _
  · obtain ⟨cause, hloaded, hkind⟩ :=
      hequipped.execute_of_not_admits hadmits
    refine ⟨.execute cause, ?_, hkind⟩
    rw [execute, hentry, hbuffers]
    simp only [hloaded]
  · rcases hs.execute_outcome hr hentry hbuffers hadmits with
      ⟨c, stats, outputs, m', hp, hloaded, hanswers⟩
      | ⟨oom, m', hloaded, hexceeds⟩
    · have hexecute : s.execute handle arguments
          = (.ok (numberOutputs s.buffers.length outputs), { s with
            memory := m'
            loaded := s.loaded.set handle
              { entry with executions := entry.executions + 1 }
            buffers := s.buffers ++ outputs.flatten.map some }) := by
        rw [execute, hentry, hbuffers]
        simp only [hloaded]
      refine .inl ⟨_, _, hexecute, ?_⟩
      refine hanswers.flip.join (forall₂_numberOutputs s.buffers outputs).flip
        fun given list results _ hanswered hresults => ?_
      refine ⟨c, stats, given, hp, hresults, ?_, hanswered⟩
      rw [(Computation.shapes_of_toSlotProgram hp).2]
      exact hanswered.shapes
    · have hexecute : s.execute handle arguments
          = (.error (.execute (.run (.allocation (.outOfMemory oom)))),
            { s with memory := m' }) := by
        rw [execute, hentry, hbuffers]
        simp only [hloaded]
      exact .inr ⟨oom, _, hexecute, rfl, hexceeds,
        hs.sameButPeaks hr hexecute⟩

/-- The program is loaded on a device with room for three values, a value is
moved there, and an execution succeeds. -/
def crowdedActions : List Action :=
  [.addClient ⟨"host", "host_device", 1, 0, some 24⟩,
    .load 0 sharingExecutable compiled_sharingExecutable,
    .transfer 0 sampleArgument 0, .execute 0 [[0]]]

/-- Another execution runs out of memory halfway, and one with an argument
too many is refused. -/
theorem crowdedActions_execute_failure :
    let s := empty.performAll crowdedActions
    s.executionsOf 0 = empty.successes 0 crowdedActions
    ∧ empty.successes 0 crowdedActions = 1
    ∧ (s.execute 0 [[0]]).1 = .error (.execute (.run
      (.allocation (.outOfMemory ⟨0, 8, 24, 24⟩))))
    ∧ s.SameButPeaks (s.execute 0 [[0]]).2
    ∧ (s.execute 0 [[0, 0]]).2 = s := by
  intro s
  let b : Buffer := ⟨⟨.s32, [2]⟩, 0⟩
  have hloaded : Option.isSome <| s.entry? 0 := by decide +kernel
  obtain ⟨entry, hentry⟩ := Option.isSome_iff_exists.mp hloaded
  have hone : [[0]].mapM s.buffersOf = .ok [[b]] := by decide +kernel
  have htwo : [[0, 0]].mapM s.buffersOf = .ok [[b, b]] := by decide +kernel
  have hfull : (s.execute 0 [[0]]).1 = .error (.execute (.run
      (.allocation (.outOfMemory ⟨0, 8, 24, 24⟩)))) := by decide +kernel
  have hmany : (s.execute 0 [[0, 0]]).1
      = .error (.execute (.argumentCount 0 "f" 1 2)) := by decide +kernel
  obtain ⟨hcount, hrefused, hanswered⟩ :=
    execute_failure hentry hone
  obtain ⟨-, hrefused', hanswered'⟩ :=
    execute_failure hentry htwo
  refine ⟨?_, by decide +kernel, hfull, ?_, ?_⟩
  · rw [executionsOf_eq hentry, hcount]
  · have hadmits : entry.loaded.Admits s.memory [[b]] := by
      by_contra h
      obtain ⟨cause, hexecute, hkind⟩ := hrefused h
      rw [hexecute] at hfull
      cases hfull
      cases hkind
    obtain ⟨results, s', hexecute, -⟩ | ⟨oom, s', hexecute, -, -, hsame⟩ :=
      hanswered hadmits
    · rw [hexecute] at hfull
      cases hfull
    · rw [hexecute]
      exact hsame
  · have hwrong : ¬entry.loaded.Admits s.memory [[b, b]] := by
      intro h
      obtain ⟨results, s', hexecute, -⟩ | ⟨oom, s', hexecute, -⟩ :=
        hanswered' h
      · rw [hexecute] at hmany
        cases hmany
      · rw [hexecute] at hmany
        cases hmany
    obtain ⟨cause, hexecute, -⟩ := hrefused' hwrong
    rw [hexecute]

end Session

end TensorBind
