import TensorBind.Client.Execution

/-!
# Sessions

A session is everything that is in use at a time: the memory of the devices,
the clients, the executables that are loaded, and the buffers that the caller
owns. The caller refers to clients, loaded executables and buffers by
**handles**, which are numbers given out in order and never reused. Several
buffers may share one block; its bytes are in use until the last of them is
dropped.

A loaded executable is shared between the client and the caller, as aotc's
`LoadedExecutable` is. Unloading removes it from the table of the client, and
the caller may go on executing it.
-/

namespace TensorBind

/-- A loaded executable with its `execution_count`. -/
structure LoadedEntry where
  /-- The loaded executable. -/
  loaded : Loaded
  /-- How many calls of `execute` succeeded. -/
  executions : Nat
  /-- Whether the caller has not dropped it. -/
  held : Bool
deriving DecidableEq

/-- **Everything that is in use.** -/
structure Session where
  /-- The memory of all devices. -/
  memory : Memory
  /-- The clients, by handle. -/
  clients : List Client
  /-- The loaded executables, by handle. -/
  loaded : List LoadedEntry
  /-- The buffers of the caller, by handle; none where one was dropped. -/
  buffers : List (Option Buffer)
deriving DecidableEq

/-- Why a step of a session fails. -/
inductive SessionError where
  /-- A handle does not refer to anything. -/
  | badHandle (handle : Nat)
  /-- A client could not be made. -/
  | client (cause : ClientError)
  /-- An executable could not be loaded. -/
  | load (cause : LoadError)
  /-- A literal could not be transferred to a device. -/
  | transfer (cause : TransferError)
  /-- An execution failed. -/
  | execute (cause : ExecuteError)
deriving DecidableEq

namespace SessionError

/-- The fault a caller is shown. -/
def toFault : SessionError → Fault
  | badHandle handle =>
    ⟨.invalidArgument, "no object has the handle " ++ toString handle⟩
  | client cause => cause.toFault
  | load cause => cause.toFault
  | transfer cause => cause.toFault
  | execute cause => cause.toFault

end SessionError

namespace Session

/-- The session before the first call. -/
def empty : Session := ⟨Memory.empty, [], [], []⟩

/-- The buffer of a handle. -/
def buffer? (s : Session) (handle : Nat) : Option Buffer :=
  s.buffers[handle]?.join

/-- The loaded executable of a handle, unless the caller has dropped it. -/
def entry? (s : Session) (handle : Nat) : Option LoadedEntry :=
  s.loaded[handle]?.filter (·.held)

/-- The buffers that the caller owns. -/
def held (s : Session) : List Buffer := s.buffers.filterMap id

/-- **Makes a client** and returns its handle. -/
def addClient (s : Session) (options : ClientOptions) :
    Except SessionError (Nat × Session) :=
  match Client.ofOptions options s.memory.devices.length with
  | .error cause => .error (.client cause)
  | .ok (c, devices) =>
    .ok (s.clients.length, { s with
      memory := s.memory.addDevices devices
      clients := s.clients ++ [c] })

/-- **Loads an executable on a client** and returns a handle. -/
def load (s : Session) (client : Nat) (e : Executable) :
    Except SessionError (Nat × Session) :=
  match s.clients[client]? with
  | none => .error (.badHandle client)
  | some c =>
    match c.load e with
    | .error cause => .error (.load cause)
    | .ok (loaded, c) =>
      .ok (s.loaded.length, { s with
        clients := s.clients.set client c
        loaded := s.loaded ++ [⟨loaded, 0, true⟩] })

/-- **Unloads the executable of an id** from a client. -/
def unload (s : Session) (client id : Nat) : Option Loaded × Session :=
  match s.clients[client]? with
  | none => (none, s)
  | some c =>
    let (removed, c) := c.unload id
    (removed, { s with clients := s.clients.set client c })

/-- **Transfers a literal to a device** and returns the handle of a buffer. -/
def transfer (s : Session) (client : Nat) (value : Literal)
    (device : UInt32) : Except SessionError (Nat × Session) :=
  match s.clients[client]? with
  | none => .error (.badHandle client)
  | some c =>
    match c.transfer value device s.memory with
    | .error cause => .error (.transfer cause)
    | .ok (buffer, memory) =>
      .ok (s.buffers.length,
        { s with memory, buffers := s.buffers ++ [some buffer] })

/-- **Drops a buffer.** A handle that refers to none is ignored. -/
def drop (s : Session) (handle : Nat) : Session :=
  match s.buffer? handle with
  | none => s
  | some buffer =>
    { s with
      memory := s.memory.release buffer.block
      buffers := s.buffers.set handle none }

/-- **Drops a loaded executable.** The binding of the client remains. -/
def dropLoaded (s : Session) (handle : Nat) : Session :=
  { s with loaded := s.loaded.modify handle fun entry =>
      { entry with held := false } }

/-- The buffers of handles. -/
def buffersOf (s : Session) (handles : List Nat) :
    Except SessionError (List Buffer) :=
  handles.mapM fun handle =>
    match s.buffer? handle with
    | some buffer => .ok buffer
    | none => .error (.badHandle handle)

/-- New handles for the outputs of each invocation, from `next` on. -/
def numberOutputs : Nat → List (List Buffer) → List (List Nat)
  | _, [] => []
  | next, outputs :: rest =>
    List.range' next outputs.length
      :: numberOutputs (next + outputs.length) rest

/-- **Executes a loaded executable** and returns handles for the outputs. A
failure can still raise the peaks of the devices. -/
def execute (s : Session) (handle : Nat) (arguments : List (List Nat)) :
    Except SessionError (List (List Nat)) × Session :=
  match s.entry? handle, arguments.mapM s.buffersOf with
  | none, _ => (.error (.badHandle handle), s)
  | _, .error cause => (.error cause, s)
  | some entry, .ok arguments =>
    match entry.loaded.execute arguments s.memory with
    | (.error cause, memory) =>
      (.error (.execute cause), { s with memory })
    | (.ok outputs, memory) =>
      (.ok (numberOutputs s.buffers.length outputs), { s with
        memory
        loaded := s.loaded.set handle
          { entry with executions := entry.executions + 1 }
        buffers := s.buffers ++ outputs.flatten.map some })

end Session

end TensorBind
