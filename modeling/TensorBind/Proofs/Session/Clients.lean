import TensorBind.Proofs.Session

/-!
# Clients in the course of a session

The devices of all clients stand in one row, those of each client together
and in the order of its topology (`Housing`). No action moves a client or
changes its topology, and what is loaded stays what it is
(`Session.Later`). So a client that is found once is found ever after, and
its devices are its own.

A program that was compiled for a client can be loaded on it at any later
time (`Session.load_of_compile`), and it is spread over devices of that
client. Nothing else is asked when it is loaded, on this client or another,
than that the client has devices of the right ids
(`Session.load_iff_owns_devices`).
-/

namespace TensorBind

/-! ## Homes -/

/-- **The devices of a client**: the topology they form and the place of
the first one. -/
structure Home where
  /-- The topology. -/
  topology : Topology
  /-- The place of the first device. -/
  firstPlace : Nat

/-- The places of the devices. -/
def Home.places (h : Home) : List Nat :=
  List.range' h.firstPlace h.topology.deviceCount

/-- The devices of a client. -/
def Client.home (c : Client) : Home := ⟨c.topology, c.firstPlace⟩

/-- Where a client finds its devices depends on nothing else. -/
theorem Client.place?_congr {c d : Client} (h : d.home = c.home)
    (device : UInt32) : d.place? device = c.place? device := by
  have htopology : d.topology = c.topology := congrArg Home.topology h
  have hfirst : d.firstPlace = c.firstPlace := congrArg Home.firstPlace h
  rw [place?, place?, htopology, hfirst]

/-- Moving a value to a device moves no block. -/
theorem Client.stays_of_transfer {c : Client} {value : Literal}
    {device : UInt32} {b : Buffer} {m m' : Memory}
    (h : c.transfer value device m = .ok (b, m')) : m.Stays m' := by
  unfold transfer at h
  split at h
  · cases h
  · split at h
    · cases h
    · rename_i hplaced
      cases h
      exact .allocate hplaced

/-- **Homes that stand one behind another** in a row of devices, which is
given by the ids. No client has two devices of one id. -/
inductive Housing : List Home → List UInt32 → Prop
  /-- There are no clients and no devices. -/
  | empty : Housing [] []
  /-- A client comes with its devices. -/
  | grow {homes : List Home} {ids : List UInt32} {topology : Topology}
    (h : Housing homes ids) (hids : topology.deviceIds.Nodup) :
    Housing (homes ++ [⟨topology, ids.length⟩]) (ids ++ topology.deviceIds)

namespace Housing

variable {homes : List Home} {ids : List UInt32} {home : Home} {i : Nat}
  {id : UInt32}

theorem nodup_deviceIds (h : Housing homes ids) (hhome : home ∈ homes) :
    home.topology.deviceIds.Nodup := by
  induction h with
  | empty => exact absurd hhome List.not_mem_nil
  | grow _ hids ih =>
    rcases List.mem_append.mp hhome with hold | hnew
    · exact ih hold
    · rw [List.mem_singleton.mp hnew]
      exact hids

/-- **The devices of a home stand in the row** from its first place on. -/
theorem getElem?_ids (h : Housing homes ids) (hhome : home ∈ homes)
    (hid : home.topology.deviceIds[i]? = some id) :
    ids[home.firstPlace + i]? = some id := by
  induction h with
  | empty => exact absurd hhome List.not_mem_nil
  | grow _ _ ih =>
    rcases List.mem_append.mp hhome with hold | hnew
    · exact (List.prefix_append _ _).getElem?_eq_some (ih hold)
    · rw [List.mem_singleton.mp hnew] at hid ⊢
      rw [List.getElem?_append_right (Nat.le_add_right _ _),
        Nat.add_sub_cancel_left]
      exact hid

theorem lt_length (h : Housing homes ids) (hhome : home ∈ homes)
    {place : Nat} (hplace : place ∈ home.places) : place < ids.length := by
  obtain ⟨hfirst, hlast⟩ := List.mem_range'_1.mp hplace
  have hi : place - home.firstPlace < home.topology.deviceIds.length := by
    rw [← Topology.deviceCount]
    omega
  have hid := h.getElem?_ids hhome (List.getElem?_eq_getElem hi)
  rw [Nat.add_sub_cancel' hfirst] at hid
  exact (List.getElem?_eq_some_iff.mp hid).1

/-- **Every device of the row is in a home.** -/
theorem exists_home (h : Housing homes ids) {place : Nat}
    (hid : ids[place]? = some id) :
    ∃ (handle : Nat) (home : Home) (i : Nat), homes[handle]? = some home
      ∧ home.topology.deviceIds[i]? = some id
      ∧ place = home.firstPlace + i := by
  induction h with
  | empty => cases hid
  | @grow homes ids topology _ _ ih =>
    rcases Nat.lt_or_ge place ids.length with hold | hnew
    · rw [List.getElem?_append_left hold] at hid
      obtain ⟨handle, home, i, hhome, hi, hplace⟩ := ih hid
      exact ⟨handle, home, i,
        (List.prefix_append _ _).getElem?_eq_some hhome, hi, hplace⟩
    · rw [List.getElem?_append_right hnew] at hid
      exact ⟨homes.length, _, _, List.getElem?_concat_length, hid,
        (Nat.add_sub_cancel' hnew).symm⟩

/-- **No device is in two homes.** -/
theorem handle_eq (h : Housing homes ids) {a b place : Nat} {other : Home}
    (ha : homes[a]? = some home) (hb : homes[b]? = some other)
    (hplace : place ∈ home.places) (hother : place ∈ other.places) :
    a = b := by
  induction h with
  | empty => cases ha
  | @grow homes ids topology h _ ih =>
    -- a new home begins behind all devices there were
    have hbehind : ∀ {old : Home}, old ∈ homes → place ∈ old.places →
        place ∉ Home.places ⟨topology, ids.length⟩ := fun hold hplace hnew =>
      Nat.not_lt_of_le (List.mem_range'_1.mp hnew).1 (h.lt_length hold hplace)
    rcases List.getElem?_concat_eq_some.mp ha with ha | ⟨rfl, rfl⟩
    · rcases List.getElem?_concat_eq_some.mp hb with hb | ⟨rfl, rfl⟩
      · exact ih ha hb
      · exact absurd hother (hbehind (List.mem_of_getElem? ha) hplace)
    · rcases List.getElem?_concat_eq_some.mp hb with hb | ⟨rfl, rfl⟩
      · exact absurd hplace (hbehind (List.mem_of_getElem? hb) hother)
      · rfl

end Housing

/-! ## What actions leave alone -/

namespace Session

variable {s t u : Session}

/-- The homes of the clients, by handle. -/
def homes (s : Session) : List Home := s.clients.map Client.home

theorem getElem?_homes {client : Nat} {c : Client}
    (h : s.clients[client]? = some c) : s.homes[client]? = some c.home := by
  rw [homes, List.getElem?_map, h, Option.map_some]

/-- What is loaded, by handle, whether or not the caller still holds it. -/
def bindings (s : Session) : List Loaded := s.loaded.map (·.loaded)

/-- **A session in which everything is in its place**: the devices are those
of the clients, and blocks are on devices. -/
structure Housed (s : Session) : Prop where
  /-- The clients stand one behind another. -/
  housing : Housing s.homes s.memory.ids
  /-- Blocks are on devices. -/
  grounded : s.memory.Grounded

theorem housed_empty : empty.Housed := ⟨.empty, nofun⟩

/-- **A session at a later time.** Clients have not moved, what was loaded
has not changed, and everything is in its place as before. -/
structure Later (s t : Session) : Prop where
  /-- Clients are where they were. -/
  homes_prefix : s.homes <+: t.homes
  /-- What was loaded is the same. -/
  bindings_prefix : s.bindings <+: t.bindings
  /-- Everything is in its place. -/
  housed : s.Housed → t.Housed

namespace Later

theorem refl (s : Session) : s.Later s :=
  ⟨List.prefix_rfl, List.prefix_rfl, id⟩

theorem trans (h : s.Later t) (h' : t.Later u) : s.Later u :=
  ⟨h.homes_prefix.trans h'.homes_prefix,
    h.bindings_prefix.trans h'.bindings_prefix, h'.housed ∘ h.housed⟩

/-- Where no client comes and nothing moves, all is as it was. -/
theorem of_stays (hmemory : s.memory.Stays t.memory)
    (hhomes : t.homes = s.homes) (hbindings : s.bindings <+: t.bindings) :
    s.Later t := by
  refine ⟨hhomes ▸ List.prefix_rfl, hbindings, fun hs => ?_⟩
  refine ⟨?_, hmemory.grounded hs.grounded⟩
  rw [hhomes, hmemory.ids_eq]
  exact hs.housing

/-- A client that was there is there, with the same devices. -/
theorem exists_client (h : s.Later t) {client : Nat} {c : Client}
    (hc : s.clients[client]? = some c) :
    ∃ d, t.clients[client]? = some d ∧ d.home = c.home := by
  have hlater := h.homes_prefix.getElem?_eq_some (getElem?_homes hc)
  rwa [homes, List.getElem?_map, Option.map_eq_some_iff] at hlater

/-- What is loaded under a handle is what was loaded under it. -/
theorem loaded_eq (h : s.Later t) {handle : Nat} {l : Loaded}
    {entry : LoadedEntry} (hl : s.bindings[handle]? = some l)
    (hentry : t.entry? handle = some entry) : entry.loaded = l := by
  have hlater := h.bindings_prefix.getElem?_eq_some hl
  rw [bindings, List.getElem?_map,
    (Option.filter_eq_some_iff.mp hentry).1] at hlater
  exact Option.some.inj hlater

/-- A call that fails changes nothing. -/
theorem settle {call : Except SessionError (Nat × Session)}
    (h : ∀ handle t, call = .ok (handle, t) → s.Later t) :
    s.Later (s.settle call) := by
  cases call with
  | error cause => exact refl s
  | ok given => exact h given.1 given.2 rfl

end Later

/-- **A client is made** if there are ids for its devices. It gets the next
handle, and its devices come behind all others. -/
theorem addClient_eq_ok {options : ClientOptions} {handle : Nat} :
    s.addClient options = .ok (handle, t)
      ↔ ∃ ids, options.deviceIds = .ok ids ∧ handle = s.clients.length
        ∧ t = { s with
          memory := s.memory.addDevices (ids.map fun id =>
            Device.empty id options.deviceKind options.memoryLimit)
          clients := s.clients ++ [⟨options,
            ⟨Topology.platformOfName options.platformName,
              options.platformName, options.deviceKind, ids⟩,
            s.memory.devices.length, 1, []⟩] } := by
  unfold addClient Client.ofOptions
  cases options.deviceIds with
  | error cause => simp
  | ok ids =>
    constructor
    · rintro ⟨⟩
      exact ⟨ids, rfl, rfl, rfl⟩
    · rintro ⟨_, ⟨⟩, rfl, rfl⟩
      rfl

/-- **A new client** comes behind the others with its devices. -/
theorem later_addClient {options : ClientOptions} {handle : Nat}
    (h : s.addClient options = .ok (handle, t)) : s.Later t := by
  obtain ⟨ids, hids, rfl, rfl⟩ := addClient_eq_ok.mp h
  refine ⟨?_, List.prefix_rfl, fun hs => ⟨?_, hs.grounded.addDevices _⟩⟩
  · rw [homes, homes, List.map_append]
    exact List.prefix_append _ _
  · have hdevices : (ids.map fun id => Device.empty id options.deviceKind
        options.memoryLimit).map (·.id) = ids := by
      rw [List.map_map]
      exact List.map_id ids
    have hlength : s.memory.ids.length = s.memory.devices.length :=
      List.length_map _
    rw [homes, List.map_append, Memory.ids_addDevices, hdevices]
    show Housing (s.homes ++ [⟨_, s.memory.devices.length⟩]) _
    rw [← hlength]
    exact hs.housing.grow (ClientOptions.nodup_deviceIds hids)

/-- **An executable is loaded on a client** if the client loads it, and what
is loaded gets the next handle. -/
theorem load_eq_ok {client handle : Nat} {e : Executable} :
    s.load client e = .ok (handle, t)
      ↔ ∃ c l c', s.clients[client]? = some c ∧ c.load e = .ok (l, c')
        ∧ handle = s.loaded.length
        ∧ t = { s with
          clients := s.clients.set client c'
          loaded := s.loaded ++ [⟨l, 0, true⟩] } := by
  unfold load
  cases hclient : s.clients[client]? with
  | none => simp
  | some c =>
    dsimp only
    cases hload : c.load e with
    | error cause => simp [hload]
    | ok given =>
      obtain ⟨l, c'⟩ := given
      simp only [Except.ok.injEq, Prod.mk.injEq, Option.some.injEq]
      constructor
      · rintro ⟨rfl, rfl⟩
        exact ⟨c, l, c', rfl, hload, rfl, rfl⟩
      · rintro ⟨_, l', c'', rfl, hload', rfl, rfl⟩
        rw [hload] at hload'
        cases hload'
        exact ⟨rfl, rfl⟩

theorem later_load {client handle : Nat} {e : Executable}
    (h : s.load client e = .ok (handle, t)) : s.Later t := by
  obtain ⟨c, l, c', hclient, hload, rfl, rfl⟩ := load_eq_ok.mp h
  obtain ⟨places, -, -, rfl⟩ := Client.load_eq_ok.mp hload
  refine .of_stays (.refl _) (List.map_set_eq hclient rfl) ?_
  rw [bindings, bindings, List.map_append]
  exact List.prefix_append _ _

theorem later_unload (s : Session) (client id : Nat) :
    s.Later (s.unload client id).2 := by
  unfold unload
  cases hclient : s.clients[client]? with
  | none => exact .refl s
  | some c =>
    refine .of_stays (.refl _) (List.map_set_eq hclient ?_) List.prefix_rfl
    unfold Client.unload
    split <;> rfl

theorem later_transfer {client handle : Nat} {value : Literal}
    {device : UInt32}
    (h : s.transfer client value device = .ok (handle, t)) : s.Later t := by
  unfold transfer at h
  split at h
  · cases h
  · split at h
    · cases h
    · rename_i hmoved
      cases h
      exact .of_stays (Client.stays_of_transfer hmoved) rfl List.prefix_rfl

theorem later_execute (s : Session) (handle : Nat)
    (arguments : List (List Nat)) :
    s.Later (s.execute handle arguments).2 := by
  obtain ⟨cause, hexecute, -⟩ | ⟨entry, buffers, hentry, -, -,
    hresult⟩ := s.execute_cases handle arguments
  · rw [hexecute]
    exact .refl s
  have hstays := entry.loaded.stays_execute buffers s.memory
  obtain ⟨cause, memory, hloaded, hexecute⟩ | ⟨outputs, memory, hloaded,
    hexecute⟩ := hresult
  · rw [hloaded] at hstays
    rw [hexecute]
    exact .of_stays hstays rfl List.prefix_rfl
  · rw [hloaded] at hstays
    rw [hexecute]
    have hsame := List.map_set_eq (f := LoadedEntry.loaded)
      (b := { entry with executions := entry.executions + 1 })
      (Option.filter_eq_some_iff.mp hentry).1 rfl
    refine .of_stays hstays rfl ?_
    rw [bindings, bindings, hsame]

theorem later_drop (s : Session) (handle : Nat) :
    s.Later (s.drop handle) := by
  unfold drop
  cases s.buffer? handle with
  | none => exact .refl s
  | some b => exact .of_stays (.release _ _) rfl List.prefix_rfl

theorem later_dropLoaded (s : Session) (handle : Nat) :
    s.Later (s.dropLoaded handle) := by
  have hsame : (s.dropLoaded handle).bindings = s.bindings := by
    refine List.map_modify_eq ?_ s.loaded handle
    exact fun _ => rfl
  refine .of_stays (.refl _) rfl ?_
  rw [hsame]

/-- **Every action leaves clients and what is loaded alone.** -/
theorem later_perform (s : Session) (action : Action) :
    s.Later (s.perform action) := by
  cases action with
  | addClient options => exact .settle fun _ _ => later_addClient
  | load client e _ => exact .settle fun _ _ => later_load
  | unload client id => exact s.later_unload client id
  | transfer client value device => exact .settle fun _ _ => later_transfer
  | execute handle arguments => exact s.later_execute handle arguments
  | drop handle => exact s.later_drop handle
  | dropLoaded handle => exact s.later_dropLoaded handle

theorem later_performAll (s : Session) (actions : List Action) :
    s.Later (s.performAll actions) := by
  induction actions generalizing s with
  | nil => exact .refl s
  | cons action actions ih =>
    exact (s.later_perform action).trans (ih (s.perform action))

/-- **In the course of any actions everything stays in its place.** -/
theorem housed_performAll (actions : List Action) :
    (empty.performAll actions).Housed :=
  (empty.later_performAll actions).housed housed_empty

namespace Housed

variable {client : Nat} {c : Client} {device : UInt32} {place : Nat}

/-- A client has no two devices of one id. -/
theorem nodup_deviceIds (hs : s.Housed) (h : s.clients[client]? = some c) :
    c.topology.deviceIds.Nodup :=
  hs.housing.nodup_deviceIds (List.mem_of_getElem? (getElem?_homes h))

/-- **What a client finds is the device of that id.** -/
theorem getElem?_ids (hs : s.Housed) (h : s.clients[client]? = some c)
    (hplace : c.place? device = some place) :
    s.memory.ids[place]? = some device := by
  obtain ⟨i, hi, rfl⟩ := Client.exists_index_of_place? hplace
  exact hs.housing.getElem?_ids (List.mem_of_getElem? (getElem?_homes h)) hi

/-- **Every device is found by a client.** -/
theorem exists_client (hs : s.Housed)
    (h : s.memory.ids[place]? = some device) :
    ∃ (client : Nat) (c : Client), s.clients[client]? = some c
      ∧ c.place? device = some place := by
  obtain ⟨client, home, i, hhome, hi, rfl⟩ := hs.housing.exists_home h
  rw [homes, List.getElem?_map, Option.map_eq_some_iff] at hhome
  obtain ⟨c, hc, rfl⟩ := hhome
  exact ⟨client, c, hc,
    Client.place?_of_getElem? (hs.nodup_deviceIds hc) hi⟩

/-- **No device is two clients'.** -/
theorem client_eq (hs : s.Housed) {other : Nat} {d : Client}
    (hc : s.clients[client]? = some c) (hd : s.clients[other]? = some d)
    (hplace : place ∈ c.places) (hother : place ∈ d.places) :
    client = other :=
  hs.housing.handle_eq (getElem?_homes hc) (getElem?_homes hd) hplace hother

end Housed

/-! ## Compiling and loading -/

/-- **The devices of what is loaded** have the ids they were found by. -/
theorem Housed.deviceIds_eq {client : Nat} {c : Client} {l : Loaded}
    {devices : List UInt32} (hs : s.Housed)
    (hc : s.clients[client]? = some c)
    (h : List.Forall₂ (fun device place => c.place? device = some place)
      devices l.places) :
    l.deviceIds s.memory = devices := by
  refine List.Forall₂.filterMap_eq (h.flip.imp fun place device h => ?_)
  rw [← List.getElem?_map]
  exact hs.getElem?_ids hc h

/-- Loading asks only for devices of the right ids. -/
theorem exists_load_iff {client : Nat} {c : Client} {e : Executable}
    (hc : s.clients[client]? = some c) :
    (∃ handle s', s.load client e = .ok (handle, s'))
      ↔ e.assignment.devices ⊆ c.topology.deviceIds := by
  rw [List.subset_def]
  refine Iff.trans ?_ Client.exists_load_iff
  constructor
  · rintro ⟨handle, s', hload⟩
    obtain ⟨d, l, d', hd, hl, -⟩ := load_eq_ok.mp hload
    rw [hc, Option.some.injEq] at hd
    exact ⟨l, d', hd ▸ hl⟩
  · rintro ⟨l, c', hl⟩
    exact ⟨_, _, load_eq_ok.mpr ⟨c, l, c', hc, hl, rfl, rfl⟩⟩

/-- **A client loads what was compiled for its topology**, and spreads it
over devices that no other client has. -/
theorem exists_load_of_same {client : Nat} {c : Client} {e : Executable}
    {options : CompileOptions} {topology : Topology} (hs : s.Housed)
    (hc : s.clients[client]? = some c)
    (hassignment : Assignment.ofOptions options topology = .ok e.assignment)
    (hsame : c.topology.same topology) :
    ∃ handle l s', s.load client e = .ok (handle, s')
      ∧ s'.entry? handle = some ⟨l, 0, true⟩
      ∧ l.program = e.program
      ∧ l.SpreadOver c options
      ∧ l.deviceIds s'.memory = e.assignment.devices
      ∧ ∀ place ∈ l.places, ∀ other d, s'.clients[other]? = some d →
        place ∈ d.places → client = other := by
  obtain ⟨l, c', hl⟩ := Client.exists_load_of_same hassignment hsame
  have hload := load_eq_ok.mpr ⟨c, l, c', hc, hl, rfl, rfl⟩
  have hspread := Client.spreadOver_of_load hl hassignment hsame
    (hs.nodup_deviceIds hc)
  obtain ⟨places, hplaces, hl', -⟩ := Client.load_eq_ok.mp hl
  have hdevices : l.deviceIds s.memory = e.assignment.devices :=
    hs.deviceIds_eq hc (hl' ▸ hplaces)
  refine ⟨_, l, _, hload, ?_, congrArg Loaded.program hl', hspread, hdevices,
    fun place hplace other d hd hown => ?_⟩
  · unfold entry?
    rw [List.getElem?_concat_length]
    rfl
  · obtain ⟨c'', hc'', hhome⟩ := (later_load hload).exists_client hc
    have hplaces : c''.places = c.places := congrArg Home.places hhome
    exact ((later_load hload).housed hs).client_eq hc'' hd
      (hplaces ▸ hspread.subset_places hplace) hown

/-- A client of the host with two devices, and a client of another platform
whose only device has the id of the first of them. -/
def twoPlatforms : List Action :=
  [.addClient ⟨"host", "host_device", 2, 0, none⟩,
    .addClient ⟨"other", "host_device", 1, 0, none⟩]

/-- The client of the other platform. -/
def otherClient : Client :=
  ⟨⟨"other", "host_device", 1, 0, none⟩,
    ⟨Topology.platformOfName "other", "other", "host_device", [0]⟩, 2, 1, []⟩

/-- The topology of the first of these clients, under other names. -/
def hostPair : Topology :=
  ⟨Topology.platformOfName "host", "pair", "device", [0, 1]⟩

/-- A program is compiled for the pair. -/
def compileForPair (options : CompileOptions) :
    Except CompileError Executable :=
  Executable.compile options (.graph sharingProgram) hostPair
    ((empty.performAll twoPlatforms).clients[0]?.map Client.report)

theorem assignment_of_compileForPair {options : CompileOptions}
    {e : Executable} (h : compileForPair options = .ok e) :
    Assignment.ofOptions options hostPair = .ok e.assignment
      ∧ e.topology = hostPair := by
  obtain ⟨-, computation, -, he⟩ := Executable.compile_eq_ok.mp h
  obtain ⟨hassignment, -, -, -, htopology, -⟩ :=
    Executable.ofComputation_eq_ok.mp he
  exact ⟨hassignment, htopology⟩

/-- **What compiles for a client loads on it.** If a program of either form
is compiled for a client, the topology is the client's, and after any
actions the client loads what was compiled. It is then spread over devices
that are the client's and no other's, and it has as many outputs as the
computation of the program.

Without a client, or with one that is bound to another topology, no program
gets further than the gate, whatever the options. -/
theorem load_of_compile {before : List Action} {client : Nat} {c : Client}
    (hclient : (empty.performAll before).clients[client]? = some c)
    (options : CompileOptions) (program : Program) (topology : Topology) :
    (∀ e, Executable.compile options program topology (some c.report)
        = .ok e →
      topology.same c.topology
      ∧ ∃ computation, program.toComputation = .ok computation
      ∧ ∀ after, let s := (empty.performAll before).performAll after
        ∃ d handle l s', s.clients[client]? = some d ∧ d.home = c.home
        ∧ s.load client e = .ok (handle, s')
        ∧ s'.entry? handle = some ⟨l, 0, true⟩
        ∧ l.outputCount = computation.outputs.length
        ∧ l.SpreadOver d options
        ∧ l.deviceIds s'.memory = e.assignment.devices
        ∧ ∀ place ∈ l.places, ∀ other d', s'.clients[other]? = some d' →
          place ∈ d'.places → client = other)
    ∧ Executable.compile options program topology none
      = .error (.gate .noClient)
    ∧ (¬topology.same c.topology →
      Executable.compile options program topology (some c.report)
        = .error (.gate .otherTopology))
    ∧ GateError.noClient.toFault.kind = .unimplemented
    ∧ GateError.otherTopology.toFault.kind = .unimplemented := by
  refine ⟨fun e hcompile => ?_, Executable.compile_of_check_eq_error rfl,
    fun hother => Executable.compile_of_check_eq_error ?_, rfl, rfl⟩
  · obtain ⟨⟨bound, hbound, hsame⟩, computation, hcomputation, he⟩ :=
      Executable.compile_eq_ok.mp hcompile
    cases hbound
    obtain ⟨hassignment, hprogram, -⟩ :=
      Executable.ofComputation_eq_ok.mp he
    refine ⟨Topology.same_comm.mp hsame, computation, hcomputation,
      fun after => ?_⟩
    have hlater := (empty.performAll before).later_performAll after
    obtain ⟨d, hd, hhome⟩ := hlater.exists_client hclient
    have htopology : d.topology = c.topology := congrArg Home.topology hhome
    obtain ⟨handle, l, s', hload, hentry, hl, hspread, hdevices, hown⟩ :=
      exists_load_of_same (hlater.housed (housed_performAll before)) hd
        hassignment (htopology ▸ hsame)
    refine ⟨d, handle, l, s', hd, hhome, hload, hentry, ?_, hspread,
      hdevices, hown⟩
    rw [Loaded.outputCount, hl]
    exact Computation.length_outputShapes hprogram
  · exact if_neg (mt Topology.same_comm.mp hother)

/-- Two replicas are compiled for the pair and loaded when there is one more
client. -/
theorem hostPair_load_of_compile :
    ∃ e d handle l s', compileForPair ⟨2, 1, none⟩ = .ok e
      ∧ ((empty.performAll twoPlatforms).performAll
        [.addClient .default]).load 0 e = .ok (handle, s')
      ∧ s'.entry? handle = some ⟨l, 0, true⟩
      ∧ l.outputCount = 3
      ∧ l.SpreadOver d ⟨2, 1, none⟩
      ∧ l.deviceIds s'.memory = [0, 1] := by
  obtain ⟨e, hcompile⟩ : ∃ e, compileForPair ⟨2, 1, none⟩ = .ok e :=
    ⟨_, Except.eq_ok_get (by decide +kernel)⟩
  have hclient : (empty.performAll twoPlatforms).clients[0]?
      = some ⟨⟨"host", "host_device", 2, 0, none⟩,
        ⟨Topology.platformOfName "host", "host", "host_device", [0, 1]⟩, 0,
        1, []⟩ := by decide +kernel
  have hreported := hcompile
  rw [compileForPair, hclient] at hreported
  obtain ⟨-, computation, hcomputation, hloads⟩ :=
    (load_of_compile hclient ⟨2, 1, none⟩ (.graph sharingProgram)
      hostPair).1 e hreported
  obtain ⟨d, handle, l, s', -, -, hload, hentry, houtputs, hspread, hdevices,
    -⟩ := hloads [.addClient .default]
  have hthree : (Program.graph sharingProgram).toComputation.map
      (·.outputs.length) = .ok 3 := by decide +kernel
  rw [hcomputation] at hthree
  have hpair : e.assignment = ⟨2, 1, [0, 1]⟩ := Except.ok.inj
    ((assignment_of_compileForPair hcompile).1.symm.trans (by decide))
  exact ⟨e, d, handle, l, s', hcompile, hload, hentry,
    houtputs.trans (Except.ok.inj hthree), hspread,
    hdevices.trans (congrArg Assignment.devices hpair)⟩

/-- **A client loads what is assigned to ids of its devices**, and nothing
else is asked for. A program that was compiled with one client is compiled
for the topology of that client, is assigned to devices of that topology,
and can after any actions be loaded on another client exactly if that client
has devices of the same ids, whatever its platform and its other devices. In
particular it can be loaded on all clients of the same topology. -/
theorem load_iff_owns_devices {before after : List Action} {a b : Nat}
    {d : Client} {e : Executable} {options : CompileOptions}
    {program : Program} {topology : Topology}
    (hcompile : Executable.compile options program topology
      ((empty.performAll before).clients[a]?.map Client.report) = .ok e)
    (hclient : ((empty.performAll before).performAll after).clients[b]?
      = some d) :
    let s := (empty.performAll before).performAll after
    (∃ c, s.clients[a]? = some c ∧ e.topology.same c.topology)
    ∧ e.assignment.devices ⊆ e.topology.deviceIds
    ∧ ((∃ handle s', s.load b e = .ok (handle, s'))
      ↔ e.assignment.devices ⊆ d.topology.deviceIds)
    ∧ (e.topology.same d.topology →
      ∃ handle s', s.load b e = .ok (handle, s')) := by
  obtain ⟨⟨bound, hbound, hsame⟩, computation, -, he⟩ :=
    Executable.compile_eq_ok.mp hcompile
  obtain ⟨hassignment, -, -, -, rfl, -⟩ :=
    Executable.ofComputation_eq_ok.mp he
  obtain ⟨c, hc, hreport⟩ := Option.map_eq_some_iff.mp hbound
  cases hreport
  have hassigned : e.assignment.devices ⊆ e.topology.deviceIds :=
    (Assignment.sublist_devices hassignment).subset
  refine ⟨?_, hassigned, exists_load_iff hclient, fun hsame' => ?_⟩
  · obtain ⟨c', hc', hhome⟩ :=
      (later_performAll _ after).exists_client hc
    have htopology : c'.topology = c.topology := congrArg Home.topology hhome
    exact ⟨c', hc', htopology ▸ Topology.same_comm.mp hsame⟩
  · rw [exists_load_iff hclient, ← (Topology.same_iff.mp hsame').2]
    exact hassigned

/-- What is compiled for the first device of the pair loads on the client of
the other platform, and what is compiled for the second does not. -/
theorem twoPlatforms_load_iff_owns_devices :
    let s := (empty.performAll twoPlatforms).performAll []
    ∃ e e', compileForPair .default = .ok e
      ∧ compileForPair ⟨1, 1, some 1⟩ = .ok e'
      ∧ (∃ handle s', s.load 1 e = .ok (handle, s'))
      ∧ ¬∃ handle s', s.load 1 e' = .ok (handle, s') := by
  intro s
  obtain ⟨e, hcompile⟩ : ∃ e, compileForPair .default = .ok e :=
    ⟨_, Except.eq_ok_get (by decide +kernel)⟩
  obtain ⟨e', hcompile'⟩ : ∃ e, compileForPair ⟨1, 1, some 1⟩ = .ok e :=
    ⟨_, Except.eq_ok_get (by decide +kernel)⟩
  have hclient : s.clients[1]? = some otherClient := by decide +kernel
  have hfirst : e.assignment = ⟨1, 1, [0]⟩ := Except.ok.inj
    ((assignment_of_compileForPair hcompile).1.symm.trans (by decide))
  have hsecond : e'.assignment = ⟨1, 1, [1]⟩ := Except.ok.inj
    ((assignment_of_compileForPair hcompile').1.symm.trans (by decide))
  obtain ⟨-, -, hloads, -⟩ := load_iff_owns_devices hcompile hclient
  obtain ⟨-, -, hloads', -⟩ := load_iff_owns_devices hcompile' hclient
  refine ⟨e, e', hcompile, hcompile', hloads.mpr ?_, fun h => ?_⟩
  · rw [hfirst]
    exact List.Subset.refl _
  · have hsubset := hloads'.mp h
    rw [hsecond] at hsubset
    exact absurd (hsubset List.mem_cons_self) (by decide)

/-- **A client may load what was compiled for another topology**: the one of
the other platform loads what was compiled for the pair. -/
theorem load_on_other_topology :
    ¬∀ (before after : List Action) (a b : Nat) (options : CompileOptions)
      (program : Program) (topology : Topology) (e : Executable)
      (d : Client) (handle : Nat) (s' : Session),
      Executable.compile options program topology
        ((empty.performAll before).clients[a]?.map Client.report) = .ok e →
      ((empty.performAll before).performAll after).clients[b]? = some d →
      ((empty.performAll before).performAll after).load b e
        = .ok (handle, s') →
      e.topology.same d.topology := by
  intro h
  obtain ⟨e, hcompile⟩ : ∃ e, compileForPair .default = .ok e :=
    ⟨_, Except.eq_ok_get (by decide +kernel)⟩
  obtain ⟨hassignment, htopology⟩ := assignment_of_compileForPair hcompile
  have hfirst : e.assignment = ⟨1, 1, [0]⟩ :=
    Except.ok.inj (hassignment.symm.trans (by decide))
  have hclient : ((empty.performAll twoPlatforms).performAll []).clients[1]?
      = some otherClient := by decide +kernel
  have hassigned : e.assignment.devices ⊆ otherClient.topology.deviceIds := by
    rw [hfirst]
    exact List.Subset.refl _
  obtain ⟨handle, s', hload⟩ := (exists_load_iff hclient).mpr hassigned
  have hsame := h twoPlatforms [] 0 1 .default _ _ e _ handle s' hcompile
    hclient hload
  rw [htopology] at hsame
  exact absurd hsame (by decide +kernel)

end Session

end TensorBind
