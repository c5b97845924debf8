import TensorBind.Proofs.Session.Clients

/-!
# Whose devices an execution uses

An execution checks of each argument that it is on a device with the id of
the device that the invocation runs on. Two clients can have devices of one
id, so the device of an argument need not be the one of the invocation, and
a result that is an argument is then not there either
(`Session.execute_accepts_foreign`). What the check does ensure is said by
`Session.Stationed`: every argument is on a device of the right id of some
client, and every other result is on the device of the invocation. Where no
other client has a device of that id, all of them are on the one device of
the client that the program was loaded on.
-/

namespace TensorBind.Session

variable {s s' : Session} {handle client : Nat} {c : Client}

/-- The place of the device a buffer of the caller is on. -/
def placeOf? (s : Session) (handle : Nat) : Option Nat :=
  (s.buffer? handle).bind fun b => s.memory.placeOf? b.block

/-- **Where the buffers of an invocation are** that runs at a place, on a
device of an id. -/
structure Stationed (s s' : Session) (device : UInt32) (place : Nat)
    (arguments results : List Nat) : Prop where
  /-- Arguments are on devices of the id. -/
  argument_on_id : ∀ argument ∈ arguments,
    ∃ (other : Nat) (d : Client) (there : Nat), s.clients[other]? = some d
      ∧ d.place? device = some there ∧ s.placeOf? argument = some there
  /-- A result is on the device of the invocation, or it is an argument. -/
  result_on_device : ∀ result ∈ results, s'.placeOf? result = some place
    ∨ ∃ argument ∈ arguments, s'.buffer? result = s.buffer? argument

/-- **A buffer that the caller holds is on a device**, and it shows the id
of that device. -/
theorem exists_place_of_mem_held {b : Buffer} (hs : s.Housed)
    (hl : s.ledger.Balanced) (hb : b ∈ s.held) :
    ∃ place, s.memory.placeOf? b.block = some place
      ∧ s.memory.ids[place]? = some (b.deviceId s.memory) := by
  obtain ⟨block, hblock, -⟩ := hl.exists_block (Buffer.mem_blocks hb)
  have hplace : s.memory.placeOf? b.block = some block.place := by
    rw [Memory.placeOf?, Memory.blockPlaces, List.getElem?_map, hblock,
      Option.map_some]
  exact ⟨block.place, hplace, Memory.deviceId_eq hs.grounded hplace⟩

/-- The same of a buffer by its handle. -/
theorem exists_placeOf? {b : Buffer} (hs : s.Housed)
    (hl : s.ledger.Balanced) (hb : s.buffer? handle = some b) :
    ∃ place, s.placeOf? handle = some place
      ∧ s.memory.ids[place]? = some (b.deviceId s.memory) := by
  obtain ⟨place, hplace, hid⟩ :=
    exists_place_of_mem_held hs hl (mem_held_of_buffer? hb)
  refine ⟨place, ?_, hid⟩
  rw [placeOf?, hb, Option.bind_some, hplace]

/-- **An invocation that succeeds** on arguments with the right id. -/
theorem stationed_of_run {p : SlotProgram} {device : UInt32} {place : Nat}
    {arguments results : List Nat} {buffers outputs : List Buffer}
    {before after : Memory} (hs : s.Housed) (hl : s.ledger.Balanced)
    (harguments : List.Forall₂ (fun handle b => s.buffer? handle = some b)
      arguments buffers)
    (hchecked : ∀ b ∈ buffers, b.deviceId s.memory = device)
    (hrun : p.run place buffers before = (.ok outputs, after))
    (hafter : after.Stays s'.memory)
    (hresults : results.map s'.buffer? = outputs.map some) :
    s.Stationed s' device place arguments results := by
  constructor
  · intro argument hargument
    obtain ⟨b, hb, hbuffer⟩ := harguments.exists_of_mem hargument
    obtain ⟨there, hthere, hid⟩ := exists_placeOf? hs hl hbuffer
    rw [hchecked b hb] at hid
    obtain ⟨other, d, hd, hplace⟩ := hs.exists_client hid
    exact ⟨other, d, there, hd, hplace, hthere⟩
  · intro result hresult
    have hmem := List.mem_map_of_mem (f := s'.buffer?) hresult
    rw [hresults] at hmem
    obtain ⟨b, hb, hbuffer⟩ := List.mem_map.mp hmem
    have hresidence := (p.run_residence place buffers before).2 outputs
      (congrArg Prod.fst hrun) b hb
    rw [hrun] at hresidence
    rcases hresidence with hargument | hplaced
    · obtain ⟨argument, hargument, hsame⟩ :=
        harguments.flip.exists_of_mem hargument
      exact .inr ⟨argument, hargument, hbuffer.symm.trans hsame.symm⟩
    · refine .inl ?_
      rw [placeOf?, ← hbuffer, Option.bind_some]
      exact hafter.placeOf?_eq hplaced

/-- **Where only one client has the id**, all buffers of the invocation are
on its device. -/
theorem Stationed.all_on_device {device : UInt32} {place : Nat}
    {arguments results : List Nat}
    (h : s.Stationed s' device place arguments results)
    (hc : s.clients[client]? = some c)
    (hplace : c.place? device = some place)
    (hstays : s.memory.Stays s'.memory)
    (hsole : ∀ (other : Nat) (d : Client), s.clients[other]? = some d →
      device ∈ d.topology.deviceIds → other = client) :
    (∀ argument ∈ arguments, s.placeOf? argument = some place)
      ∧ ∀ result ∈ results, s'.placeOf? result = some place := by
  have harguments : ∀ argument ∈ arguments,
      s.placeOf? argument = some place := by
    intro argument hargument
    obtain ⟨other, d, there, hd, hfound, hthere⟩ :=
      h.argument_on_id argument hargument
    obtain rfl := hsole other d hd
      (Client.exists_place?_iff.mp ⟨there, hfound⟩)
    obtain rfl : c = d := Option.some.inj (hc.symm.trans hd)
    rw [hthere, ← hfound, hplace]
  refine ⟨harguments, fun result hresult => ?_⟩
  rcases h.result_on_device result hresult with hplaced | ⟨argument,
    hargument, hsame⟩
  · exact hplaced
  · obtain ⟨b, hb, hthere⟩ :=
      Option.bind_eq_some_iff.mp (harguments argument hargument)
    rw [placeOf?, hsame, hb, Option.bind_some]
    exact hstays.placeOf?_eq hthere

/-- **The invocations of an execution that succeeds.** -/
theorem stationed_of_execute {devices : List UInt32} {entry : LoadedEntry}
    {arguments handles : List (List Nat)} (hs : s.Housed)
    (hl : s.ledger.Balanced) (hentry : s.entry? handle = some entry)
    (hc : s.clients[client]? = some c)
    (hplaces : List.Forall₂ (fun device place => c.place? device = some place)
      devices entry.loaded.places)
    (h : s.execute handle arguments = (.ok handles, s')) :
    arguments.length = devices.length ∧ handles.length = devices.length
      ∧ s.memory.Stays s'.memory
      ∧ ∀ (i : Nat) (args results : List Nat) (device : UInt32),
        arguments[i]? = some args → handles[i]? = some results →
        devices[i]? = some device →
        ∃ place, c.place? device = some place
          ∧ s.Stationed s' device place args results := by
  obtain ⟨entry', buffers, outputs, memory, hentry', hbuffers, hloaded, rfl,
    rfl⟩ := execute_eq_ok h
  obtain rfl : entry = entry' :=
    Option.some.inj (hentry.symm.trans hentry')
  have hhandles := forall₂_numberOutputs s.buffers outputs
  have hbuffers := List.mapM_eq_ok.mp hbuffers
  obtain ⟨hcheck, hruns⟩ := Loaded.execute_eq_ok hloaded
  obtain ⟨hlength, hchecked⟩ := Loaded.checkArguments_eq_ok.mp hcheck
  rw [hs.deviceIds_eq hc hplaces] at hchecked
  have hstays := entry.loaded.stays_execute buffers s.memory
  rw [hloaded] at hstays
  refine ⟨?_, ?_, hstays, fun i args results device hargs hresults
    hdevice => ?_⟩
  · rw [hbuffers.length_eq, hlength, hplaces.length_eq]
  · rw [hhandles.length_eq, ← hruns.length_eq, List.length_zip, hlength,
      Nat.min_self, hplaces.length_eq]
  · obtain ⟨list, hlist, hlistOf⟩ := hbuffers.exists_getElem? hargs
    obtain ⟨place, hplace, hfound⟩ := hplaces.exists_getElem? hdevice
    obtain ⟨given, hgiven, hresultsOf⟩ := hhandles.exists_getElem? hresults
    have hinvocation : (buffers.zip entry.loaded.places)[i]?
        = some (list, place) := List.getElem?_zip_eq_some.mpr ⟨hlist, hplace⟩
    obtain ⟨given', hgiven', before, after, hrun, hafter⟩ :=
      hruns.exists_getElem? hinvocation
    obtain rfl : given = given' := Option.some.inj (hgiven.symm.trans hgiven')
    -- the check is made against the id and not against the place
    have hpair : (list, device) ∈ buffers.zip devices :=
      List.mem_of_getElem? (List.getElem?_zip_eq_some.mpr ⟨hlist, hdevice⟩)
    have hids : ∀ b ∈ list, b.deviceId s.memory = device := by
      intro b hb
      obtain ⟨shape, -, -, hid⟩ := (hchecked _ hpair).exists_of_mem hb
      exact hid
    exact ⟨place, hfound, stationed_of_run hs hl
      (forall₂_of_buffersOf hlistOf) hids hrun hafter hresultsOf⟩

/-- In the course of any actions the accounts of a session are balanced. -/
theorem balanced_performAll (actions : List Action) :
    (empty.performAll actions).ledger.Balanced :=
  (course_performAll sound_empty actions).1.balanced Ledger.balanced_empty

/-- **Executions and the devices of clients.** Whatever a caller has done
before and after a program was loaded on a client, an execution of it that
succeeds runs each invocation on a device of that client, which is no other
client's. Its arguments are on devices of the same id, and its results are
on the device of the invocation or are arguments. If no other client has a
device of the id, all arguments and results are on the device of the
invocation. -/
theorem execute_residence {before after : List Action} {e : Executable}
    {loaded : Session} {arguments handles : List (List Nat)}
    (compiled : e.Compiled)
    (hload : (empty.performAll before).load client e
      = .ok (handle, loaded))
    (hexecute : (loaded.performAll after).execute handle arguments
      = (.ok handles, s')) :
    let s := loaded.performAll after
    ∃ c, s.clients[client]? = some c
      ∧ arguments.length = e.assignment.devices.length
      ∧ handles.length = e.assignment.devices.length
      ∧ ∀ (i : Nat) (args results : List Nat) (device : UInt32),
        arguments[i]? = some args → handles[i]? = some results →
        e.assignment.devices[i]? = some device →
        ∃ place, c.place? device = some place
          ∧ (∀ (other : Nat) (d : Client), s.clients[other]? = some d →
            place ∈ d.places → other = client)
          ∧ s.Stationed s' device place args results
          ∧ ((∀ (other : Nat) (d : Client), s.clients[other]? = some d →
              device ∈ d.topology.deviceIds → other = client) →
            (∀ argument ∈ args, s.placeOf? argument = some place)
              ∧ ∀ result ∈ results, s'.placeOf? result = some place) := by
  intro s
  obtain ⟨c₀, l, c', hc₀, hl, rfl, hloaded⟩ := load_eq_ok.mp hload
  obtain ⟨places, hplaces, hl', -⟩ := Client.load_eq_ok.mp hl
  have hlater : loaded.Later s := loaded.later_performAll after
  have hall := (later_load hload).trans hlater
  have hhoused : s.Housed := hall.housed (housed_performAll before)
  have hactions : s = empty.performAll
      (before ++ .load client e compiled :: after) := by
    rw [performAll, List.foldl_append, List.foldl_cons]
    show loaded.performAll after = performAll (settle _ _) after
    rw [← performAll, hload, settle]
  have hbalanced : s.ledger.Balanced :=
    hactions ▸ balanced_performAll _
  obtain ⟨c, hc, hhome⟩ := hall.exists_client hc₀
  obtain ⟨entry, -, -, -, hentry, -⟩ := execute_eq_ok hexecute
  have hbinding : loaded.bindings[(empty.performAll before).loaded.length]?
      = some l := by
    rw [hloaded, bindings, List.getElem?_map, List.getElem?_concat_length,
      Option.map_some]
  have hentryLoaded : entry.loaded = l := hlater.loaded_eq hbinding hentry
  -- the client has not moved since it found the devices
  have hfound : List.Forall₂
      (fun device place => c.place? device = some place)
      e.assignment.devices entry.loaded.places := by
    rw [hentryLoaded, hl']
    exact hplaces.imp fun device place h =>
      (Client.place?_congr hhome device).trans h
  obtain ⟨harguments, hhandles, hstays, hstationed⟩ :=
    stationed_of_execute hhoused hbalanced hentry hc hfound hexecute
  refine ⟨c, hc, harguments, hhandles, fun i args results device hargs
    hresults hdevice => ?_⟩
  obtain ⟨place, hplace, hinvocation⟩ :=
    hstationed i args results device hargs hresults hdevice
  exact ⟨place, hplace, fun other d hd hown => hhoused.client_eq hd hc hown
      (Client.mem_places_of_place? hplace), hinvocation,
    hinvocation.all_on_device hc hplace hstays⟩

/-- A program that gives out its parameter is compiled for one device of the
host. -/
def compileForOne : Except CompileError Executable :=
  let topology : Topology :=
    ⟨Topology.platformOfName "host", "host", "host_device", [0]⟩
  Executable.compile .default (.graph sharingProgram) topology
    (some (.ok topology))

/-- What is compiled. -/
def sharingExecutable : Executable :=
  compileForOne.toOption.get (by decide +kernel)

theorem compiled_sharingExecutable : sharingExecutable.Compiled :=
  ⟨_, _, _, _, Except.eq_ok_get (x := compileForOne) (by decide +kernel)⟩

/-- It is loaded on the first of two clients. -/
def loadedOnFirst (second : ClientOptions) : Session :=
  empty.performAll [.addClient .default, .addClient second,
    .load 0 sharingExecutable compiled_sharingExecutable]

/-- A client whose device has the next id. -/
def secondNode : ClientOptions := { ClientOptions.default with nodeId := 1 }

/-- An argument of the program. -/
def sampleArgument : Literal :=
  .vector .s32 [(7 : Int32), (-1 : Int32)]

/-- Two clients number their devices apart, and the program is executed on a
buffer of the first. -/
theorem loadedOnFirst_execute_residence :
    let s := (loadedOnFirst secondNode).performAll
      [.transfer 0 sampleArgument 0]
    let s' := (s.execute 0 [[0]]).2
    (s.execute 0 [[0]]).1 = .ok [[1, 2, 3]]
    ∧ (∀ argument ∈ [0], s.placeOf? argument = some 0)
    ∧ ∀ result ∈ [1, 2, 3], s'.placeOf? result = some 0 := by
  intro s s'
  have hload : (empty.performAll [.addClient .default,
      .addClient secondNode]).load 0 sharingExecutable
        = .ok (0, loadedOnFirst secondNode) := by decide +kernel
  have hresults : (s.execute 0 [[0]]).1 = .ok [[1, 2, 3]] := by
    decide +kernel
  obtain ⟨c, hc, -, -, hinvocations⟩ := execute_residence
    compiled_sharingExecutable hload (Prod.ext hresults rfl)
  obtain ⟨place, hplace, -, -, hall⟩ :=
    hinvocations 0 [0] [1, 2, 3] 0 rfl rfl (by decide +kernel)
  have hfirst : s.clients[0]?.bind (·.place? 0) = some 0 := by
    decide +kernel
  obtain rfl : place = 0 := by
    rw [hc, Option.bind_some, hplace] at hfirst
    exact Option.some.inj hfirst
  have hids : s.clients.map (·.topology.deviceIds) = [[0], [1]] := by
    decide +kernel
  refine ⟨hresults, hall fun other d hd hdevice => ?_⟩
  have hother := congrArg (·[other]?) hids
  rw [List.getElem?_map, hd] at hother
  match other with
  | 0 => rfl
  | 1 =>
    have hsecond : d.topology.deviceIds = [1] := Option.some.inj hother
    rw [hsecond] at hdevice
    exact absurd hdevice (by decide)
  | _ + 2 => cases hother

/-- **A buffer of another client is accepted** if its device has the same id
as that of the invocation: the argument is at the place of the second
client, the program runs at the place of the first, and the result that is
the argument stays where it is. -/
theorem execute_accepts_foreign :
    let s := (loadedOnFirst .default).performAll
      [.transfer 1 sampleArgument 0]
    let s' := (s.execute 0 [[0]]).2
    (empty.performAll [.addClient .default, .addClient .default]).load 0
      sharingExecutable = .ok (0, loadedOnFirst .default)
    ∧ (s.execute 0 [[0]]).1 = .ok [[1, 2, 3]]
    ∧ s.clients.map (·.place? 0) = [some 0, some 1]
    ∧ s.placeOf? 0 = some 1
    ∧ [1, 2, 3].map s'.placeOf? = [some 1, some 0, some 0] := by
  decide +kernel

end TensorBind.Session
