import TensorBind.Proofs.Session.Clients

/-!
# The numbers of devices

The devices of a client are numbered from as many times their count as the
client has others before it. So the client that a number belongs to can be
told by division (`ClientOptions.toNat_div_of_mem`), and clients that agree
on their count of devices have no number in common.

What the client says of its devices, what its topology says, and the
devices that stand in memory are three records of the same numbers. They
agree when the client is made, and no action changes any of them: an action
leaves the roster of every client alone, and only a new client adds one
(`Session.rosters_perform`).
-/

namespace TensorBind

namespace ClientOptions

variable {options other : ClientOptions} {ids ids' : List UInt32}
  {id : UInt32}

/-- **There are ids for the devices of a client** exactly if there is a
device and the number of the last one is an id. -/
theorem exists_deviceIds_iff :
    (∃ ids, options.deviceIds = .ok ids)
      ↔ 1 ≤ options.deviceCount
        ∧ options.nodeId * options.deviceCount + options.deviceCount - 1
          ≤ 2 ^ 32 - 1 := by
  have hsize : idCount = 2 ^ 32 := rfl
  simp only [deviceIds_eq_ok, exists_and_left, exists_eq, and_true, hsize]
  omega

/-- **The ids are consecutive numbers.** -/
theorem map_toNat_deviceIds (h : options.deviceIds = .ok ids) :
    ids.map UInt32.toNat
      = List.range' (options.nodeId * options.deviceCount)
        options.deviceCount := by
  obtain ⟨-, hfits, rfl⟩ := deviceIds_eq_ok.mp h
  rw [List.map_map, List.range'_eq_map_range]
  refine List.map_congr_left fun i hi => ?_
  have hsize : UInt32.size = idCount := rfl
  rw [List.mem_range] at hi
  exact UInt32.toNat_ofNat_of_lt' (by omega)

/-- **The place of a client can be told from any of its ids.** -/
theorem toNat_div_of_mem (h : options.deviceIds = .ok ids)
    (hid : id ∈ ids) : id.toNat / options.deviceCount = options.nodeId := by
  have hmem : id.toNat ∈ ids.map UInt32.toNat := List.mem_map_of_mem hid
  rw [map_toNat_deviceIds h, List.mem_range'_1] at hmem
  refine Nat.div_eq_of_lt_le hmem.1 ?_
  rw [Nat.succ_mul]
  exact hmem.2

/-- **Clients with equally many devices share no id**, unless they have the
same place. -/
theorem disjoint_deviceIds (h : options.deviceIds = .ok ids)
    (h' : other.deviceIds = .ok ids')
    (hcount : options.deviceCount = other.deviceCount)
    (hnode : options.nodeId ≠ other.nodeId) : ids.Disjoint ids' := by
  intro id hid hid'
  refine hnode ?_
  rw [← toNat_div_of_mem h hid, hcount, toNat_div_of_mem h' hid']

end ClientOptions

/-! ## Rosters -/

/-- **What a client was made from, and the ids of its devices.** -/
def Client.roster (c : Client) : ClientOptions × List UInt32 :=
  (c.options, c.deviceIds)

namespace Session

variable {s t : Session} {options : ClientOptions}

/-- The rosters of the clients, by handle. -/
def rosters (s : Session) : List (ClientOptions × List UInt32) :=
  s.clients.map Client.roster

/-- **An action leaves all rosters alone**, except that a new client comes
with its own. -/
theorem rosters_perform (s : Session) (action : Action) :
    (s.perform action).rosters = s.rosters
      ∨ ∃ options ids, action = .addClient options
        ∧ options.deviceIds = .ok ids
        ∧ (s.perform action).rosters = s.rosters ++ [(options, ids)] := by
  cases action with
  | addClient options =>
    rw [perform]
    cases h : s.addClient options with
    | error cause => exact .inl rfl
    | ok given =>
      obtain ⟨ids, hids, -, hgiven⟩ := addClient_eq_ok.mp h
      refine .inr ⟨options, ids, rfl, hids, ?_⟩
      rw [settle, hgiven, rosters, List.map_append]
      rfl
  | load client e _ =>
    left
    rw [perform]
    cases h : s.load client e with
    | error cause => rfl
    | ok given =>
      obtain ⟨c, l, c', hc, hload, -, hgiven⟩ := load_eq_ok.mp h
      obtain ⟨places, -, -, rfl⟩ := Client.load_eq_ok.mp hload
      rw [settle, hgiven]
      exact List.map_set_eq hc rfl
  | unload client id =>
    left
    rw [perform, unload]
    cases hc : s.clients[client]? with
    | none => rfl
    | some c =>
      refine List.map_set_eq hc ?_
      unfold Client.unload
      split <;> rfl
  | transfer client value device =>
    left
    rw [perform, transfer]
    cases s.clients[client]? with
    | none => rfl
    | some c =>
      dsimp only
      cases c.transfer value device s.memory <;> rfl
  | execute handle arguments =>
    left
    rw [perform]
    obtain ⟨cause, hexecute, -⟩ | ⟨entry, buffers, -, -, -,
      ⟨cause, memory, -, hexecute⟩ | ⟨outputs, memory, -, hexecute⟩⟩ :=
        s.execute_cases handle arguments
    · rw [hexecute]
    · rw [hexecute]
      rfl
    · rw [hexecute]
      rfl
  | drop handle =>
    left
    rw [perform, drop]
    cases s.buffer? handle <;> rfl
  | dropLoaded handle => exact .inl rfl

/-- A session in which every roster is what the options of its client
ask for. -/
def Enrolled (s : Session) : Prop :=
  ∀ roster ∈ s.rosters, roster.1.deviceIds = .ok roster.2

theorem Enrolled.perform (hs : s.Enrolled) (action : Action) :
    (s.perform action).Enrolled := by
  intro roster hroster
  obtain hsame | ⟨options, ids, -, hids, hnew⟩ := s.rosters_perform action
  · exact hs roster (hsame ▸ hroster)
  · rw [hnew, List.mem_append, List.mem_singleton] at hroster
    rcases hroster with hold | rfl
    · exact hs roster hold
    · exact hids

/-- **In the course of any actions** every client has the ids that its
options ask for. -/
theorem Enrolled.performAll (hs : s.Enrolled) (actions : List Action) :
    (s.performAll actions).Enrolled := by
  induction actions generalizing s with
  | nil => exact hs
  | cons action actions ih => exact ih (hs.perform action)

theorem enrolled_performAll (actions : List Action) :
    (empty.performAll actions).Enrolled :=
  Enrolled.performAll (fun _ h => absurd h List.not_mem_nil) actions

/-- **A roster is kept for good.** -/
theorem rosters_prefix_performAll (s : Session) (actions : List Action) :
    s.rosters <+: (s.performAll actions).rosters := by
  induction actions generalizing s with
  | nil => exact List.prefix_rfl
  | cons action actions ih =>
    refine List.IsPrefix.trans ?_ (ih (s.perform action))
    obtain hsame | ⟨options, ids, -, -, hnew⟩ := s.rosters_perform action
    · rw [hsame]
    · rw [hnew]
      exact List.prefix_append _ _

/-- A new client has its roster under its handle. -/
theorem getElem?_rosters_of_addClient {handle : Nat}
    (h : s.addClient options = .ok (handle, t)) :
    ∃ ids, t.rosters[handle]? = some (options, ids) := by
  obtain ⟨ids, -, rfl, rfl⟩ := addClient_eq_ok.mp h
  refine ⟨ids, ?_⟩
  rw [rosters, List.getElem?_map, List.getElem?_concat_length]
  rfl

/-! ## The devices of a client -/

/-- **The devices of a client in memory** have the ids of its topology. -/
theorem Housed.map_id_devices (hs : s.Housed) {client : Nat} {c : Client}
    (hc : s.clients[client]? = some c) :
    (c.devices s.memory).map Device.id = c.deviceIds := by
  rw [Client.devices, List.map_filterMap]
  refine List.Forall₂.filterMap_eq (List.forall₂_iff_get.mpr ⟨?_, ?_⟩)
  · exact List.length_range'
  · intro i hi hi'
    have hid := hs.housing.getElem?_ids
      (List.mem_of_getElem? (getElem?_homes hc))
      (List.getElem?_eq_getElem hi')
    rw [Memory.ids, List.getElem?_map] at hid
    simpa [Client.places, Client.home] using hid

end Session

namespace Client

variable {c : Client} {m : Memory} {id : UInt32} {d : Device}

/-- **The device of an id** is the one device that has it. -/
theorem device?_eq_some_iff (hids : ((c.devices m).map Device.id).Nodup) :
    c.device? m id = some d ↔ d ∈ c.devices m ∧ d.id = id :=
  List.find?_key_eq_some hids

theorem device?_eq_none_iff :
    c.device? m id = none ↔ id ∉ (c.devices m).map Device.id := by
  simp [device?]

/-- **A client whose devices are numbered as its options say.** -/
structure Numbered (options : ClientOptions) (c : Client) (m : Memory) :
    Prop where
  /-- The options are those the client was made from. -/
  options_eq : c.options = options
  /-- The ids are consecutive, from the client's place on. -/
  map_toNat_deviceIds : c.deviceIds.map UInt32.toNat
    = List.range' (options.nodeId * options.deviceCount) options.deviceCount
  /-- The topology has these ids. -/
  topology_eq : c.topology.deviceIds = c.deviceIds
  /-- The devices have these ids. -/
  devices_eq : (c.devices m).map Device.id = c.deviceIds
  /-- No two of the devices have one id. -/
  nodup : ((c.devices m).map Device.id).Nodup
  /-- The device of an id is the one that has it. -/
  device?_eq_some_iff : ∀ id d,
    c.device? m id = some d ↔ d ∈ c.devices m ∧ d.id = id
  /-- There is no device of any other id. -/
  device?_eq_none_iff : ∀ id, c.device? m id = none ↔ id ∉ c.deviceIds
  /-- It is the device that values and programs are placed on. -/
  place?_bind : ∀ id,
    ((c.place? id).bind fun place => m.devices[place]?) = c.device? m id

end Client

namespace Session

variable {s t : Session} {options : ClientOptions}

/-- **What is found by id is what is found by place.** -/
theorem Housed.place?_bind (hs : s.Housed) {client : Nat} {c : Client}
    (hc : s.clients[client]? = some c) (id : UInt32) :
    ((c.place? id).bind fun place => s.memory.devices[place]?)
      = c.device? s.memory id := by
  have hdevices := hs.map_id_devices hc
  cases hplace : c.place? id with
  | none =>
    refine (Client.device?_eq_none_iff.mpr ?_).symm
    rw [hdevices]
    intro hid
    obtain ⟨place, hfound⟩ := Client.exists_place?_iff.mpr hid
    rw [hplace] at hfound
    cases hfound
  | some place =>
    have hid := hs.getElem?_ids hc hplace
    rw [Memory.ids, List.getElem?_map, Option.map_eq_some_iff] at hid
    obtain ⟨d, hd, hid⟩ := hid
    rw [Option.bind_some, hd, eq_comm, Client.device?_eq_some_iff]
    · refine ⟨List.mem_filterMap.mpr ⟨place, ?_, hd⟩, hid⟩
      exact Client.mem_places_of_place? hplace
    · rw [hdevices]
      exact hs.nodup_deviceIds hc

theorem Housed.numbered (hs : s.Housed) (henrolled : s.Enrolled)
    {client : Nat} {c : Client} (hc : s.clients[client]? = some c) :
    c.Numbered c.options s.memory := by
  have hids : c.options.deviceIds = .ok c.deviceIds :=
    henrolled c.roster (List.mem_map_of_mem (List.mem_of_getElem? hc))
  have hdevices := hs.map_id_devices hc
  have hnodup : ((c.devices s.memory).map Device.id).Nodup := by
    rw [hdevices]
    exact hs.nodup_deviceIds hc
  exact {
    options_eq := rfl
    map_toNat_deviceIds := ClientOptions.map_toNat_deviceIds hids
    topology_eq := rfl
    devices_eq := hdevices
    nodup := hnodup
    device?_eq_some_iff := fun _ _ => Client.device?_eq_some_iff hnodup
    device?_eq_none_iff := fun _ => by
      rw [Client.device?_eq_none_iff, hdevices]
    place?_bind := hs.place?_bind hc }

/-- All that can be wrong with a new client is its options. -/
theorem kind_of_addClient_eq_error {cause : SessionError}
    (h : s.addClient options = .error cause) :
    cause.toFault.kind = .invalidArgument := by
  unfold addClient at h
  split at h
  · cases h
    rfl
  · cases h

/-- **A new client is numbered for good.** -/
theorem numbered_of_addClient {handle : Nat} (hs : s.Housed)
    (henrolled : s.Enrolled)
    (h : s.addClient options = .ok (handle, t)) (after : List Action) :
    ∃ c, (t.performAll after).clients[handle]? = some c
      ∧ c.Numbered options (t.performAll after).memory := by
  have ht : s.perform (.addClient options) = t := by
    rw [perform, h]
    rfl
  have henrolled : (t.performAll after).Enrolled :=
    (ht ▸ henrolled.perform (.addClient options)).performAll after
  have hhoused : (t.performAll after).Housed :=
    (t.later_performAll after).housed ((later_addClient h).housed hs)
  obtain ⟨ids, hids⟩ := getElem?_rosters_of_addClient h
  have hroster := (t.rosters_prefix_performAll after).getElem?_eq_some hids
  rw [rosters, List.getElem?_map, Option.map_eq_some_iff] at hroster
  obtain ⟨c, hc, hroster⟩ := hroster
  obtain rfl : c.options = options := congrArg Prod.fst hroster
  exact ⟨c, hc, hhoused.numbered henrolled hc⟩

/-- **Clients number their devices without clashes.** Whatever was done
before, a client can be made exactly if it has a device and the number of
its last device is an id, and all that can be wrong with it is its options.
Whatever is done later, its devices are numbered as its options say. Of all
clients, made here or in another session, those with equally many devices
and different places share no id. -/
theorem addClient_numbering (before : List Action)
    (options : ClientOptions) :
    ((∃ handle t,
        (empty.performAll before).addClient options = .ok (handle, t))
      ↔ 1 ≤ options.deviceCount
        ∧ options.nodeId * options.deviceCount + options.deviceCount - 1
          ≤ 2 ^ 32 - 1)
    ∧ (∀ cause, (empty.performAll before).addClient options = .error cause →
      cause.toFault.kind = .invalidArgument)
    ∧ (∀ handle t after,
      (empty.performAll before).addClient options = .ok (handle, t) →
      ∃ c, (t.performAll after).clients[handle]? = some c
        ∧ c.Numbered options (t.performAll after).memory)
    ∧ ∀ elsewhere, ∀ c ∈ (empty.performAll before).clients,
      ∀ d ∈ (empty.performAll elsewhere).clients,
        c.options.deviceCount = d.options.deviceCount →
        c.options.nodeId ≠ d.options.nodeId →
        c.deviceIds.Disjoint d.deviceIds := by
  have hs := housed_performAll before
  have henrolled := enrolled_performAll before
  refine ⟨?_, fun _ => kind_of_addClient_eq_error,
    fun _ _ after h => numbered_of_addClient hs henrolled h after,
    fun elsewhere c hc d hd => ?_⟩
  · rw [← ClientOptions.exists_deviceIds_iff]
    constructor
    · rintro ⟨handle, t, h⟩
      obtain ⟨ids, hids, -⟩ := addClient_eq_ok.mp h
      exact ⟨ids, hids⟩
    · rintro ⟨ids, hids⟩
      exact ⟨_, _, addClient_eq_ok.mpr ⟨ids, hids, rfl, rfl⟩⟩
  · exact ClientOptions.disjoint_deviceIds
      (henrolled c.roster (List.mem_map_of_mem hc))
      (enrolled_performAll elsewhere d.roster (List.mem_map_of_mem hd))

/-- A client at a place among clients of three devices each. -/
def threeAt (nodeId : Nat) : Action :=
  .addClient ⟨"host", "host_device", 3, nodeId, some 64⟩

/-- The client at the place 2 has the devices 6, 7 and 8 and none that
belongs to the client at the place 0. There are no ids for a device behind
the last number. -/
theorem threeAt_addClient_numbering :
    (∃ t c, (empty.performAll [threeAt 0]).addClient
          ⟨"host", "host_device", 3, 2, some 64⟩ = .ok (1, t)
        ∧ t.clients[1]? = some c
        ∧ c.deviceIds.map UInt32.toNat = [6, 7, 8]
        ∧ c.device? t.memory 9 = none
        ∧ ∀ d ∈ (empty.performAll [threeAt 0]).clients,
          d.deviceIds.Disjoint c.deviceIds)
    ∧ ¬∃ handle t, empty.addClient
      ⟨"host", "host_device", 1, 2 ^ 32, none⟩ = .ok (handle, t) := by
  obtain ⟨hmade, -, hnumbered, hdisjoint⟩ := addClient_numbering
    [threeAt 0] ⟨"host", "host_device", 3, 2, some 64⟩
  obtain ⟨handle, t, ht⟩ := hmade.mpr (by decide)
  obtain rfl : handle = 1 := (addClient_eq_ok.mp ht).choose_spec.2.1
  obtain ⟨c, hc, hnumbers⟩ := hnumbered 1 t [] ht
  have hlast : empty.performAll [threeAt 0, threeAt 2] = t :=
    calc empty.performAll [threeAt 0, threeAt 2]
        = settle (empty.performAll [threeAt 0])
          ((empty.performAll [threeAt 0]).addClient
            ⟨"host", "host_device", 3, 2, some 64⟩) := rfl
      _ = t := by rw [ht, settle]
  refine ⟨⟨t, c, ht, hc, hnumbers.map_toNat_deviceIds,
    (hnumbers.device?_eq_none_iff 9).mpr fun h => ?_, fun d hd => ?_⟩, ?_⟩
  · have hmem := List.mem_map_of_mem (f := UInt32.toNat) h
    rw [hnumbers.map_toNat_deviceIds] at hmem
    revert hmem
    decide
  · have hoptions : d.options = ⟨"host", "host_device", 3, 0, some 64⟩ := by
      rw [List.mem_singleton.mp hd]
    refine hdisjoint [threeAt 0, threeAt 2] d hd c ?_ ?_ ?_
    · rw [hlast]
      exact List.mem_of_getElem? hc
    · rw [hoptions, hnumbers.options_eq]
    · rw [hoptions, hnumbers.options_eq]
      decide
  · intro hlarge
    exact absurd ((addClient_numbering [] _).1.mp hlarge) (by decide)

end Session

end TensorBind
