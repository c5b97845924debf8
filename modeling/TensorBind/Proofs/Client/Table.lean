import TensorBind.Proofs.Client.Binding

/-!
# The table of a client

A client numbers what it loads, and keeps it in a table until it is
unloaded. What the table holds can be said from the calls alone: a call
that loads something gives it a number, and it is there as long as no later
call unloads that number (`Client.Live`). What one more call makes of this
is read off the call (`Client.live_concat`), and the table follows step by
step (`Client.Tracks`). The order of the table does not matter, since
numbers are given in increasing order: sorting by number is listing in the
order of loading (`Client.listing_eq`).
-/

namespace TensorBind.Client

/-! ## Calls -/

/-- **A call that uses the table of a client.** -/
inductive Call where
  /-- Loads an executable. -/
  | load (e : Executable)
  /-- Unloads what has a number. -/
  | unload (id : Nat)
deriving DecidableEq

/-- What a call loads. -/
def loaded? (c : Client) : Call → Option Loaded
  | .load e => (c.load e).toOption.map Prod.fst
  | .unload _ => none

/-- What a call makes of a client. One that fails leaves it as it was. -/
def perform (c : Client) : Call → Client
  | .load e => (c.load e).toOption.elim c Prod.snd
  | .unload id => (c.unload id).2

/-- **The client after some calls.** -/
def after (c : Client) (calls : List Call) : Client :=
  calls.foldl perform c

/-- **What some calls load**, in order. -/
def loads (c : Client) : List Call → List Loaded
  | [] => []
  | call :: calls => (c.loaded? call).toList ++ (c.perform call).loads calls

/-- **What was loaded and has not been unloaded** after some calls. -/
def Live (c : Client) (calls : List Call) (l : Loaded) : Prop :=
  ∃ before call later, calls = before ++ call :: later
    ∧ (c.after before).loaded? call = some l
    ∧ .unload l.id ∉ later

variable {c t : Client} {calls : List Call} {call : Call} {l : Loaded}

@[simp] theorem after_nil : c.after [] = c := rfl

@[simp] theorem after_append (more : List Call) :
    c.after (calls ++ more) = (c.after calls).after more :=
  List.foldl_append

@[simp] theorem after_cons :
    c.after (call :: calls) = (c.perform call).after calls := rfl

@[simp] theorem loads_append (more : List Call) :
    c.loads (calls ++ more) = c.loads calls ++ (c.after calls).loads more := by
  induction calls generalizing c with
  | nil => rfl
  | cons call calls ih =>
    rw [List.cons_append, loads, ih, loads, List.append_assoc, after_cons]

@[simp] theorem loads_singleton : c.loads [call] = (c.loaded? call).toList :=
  List.append_nil _

theorem not_live_nil : ¬c.Live [] l := by
  simp [Live]

/-- **What one more call makes of what is loaded**: it may load something,
and all else stays but what it unloads. -/
theorem live_concat :
    c.Live (calls ++ [call]) l
      ↔ (c.Live calls l ∧ call ≠ .unload l.id)
        ∨ (c.after calls).loaded? call = some l := by
  constructor
  · rintro ⟨before, loading, later, heq, hloads, hlater⟩
    rcases List.eq_nil_or_concat later with rfl | ⟨later, last, rfl⟩
    · obtain ⟨rfl, hcall⟩ := List.append_inj' heq rfl
      cases hcall
      exact .inr hloads
    · rw [List.concat_eq_append, ← List.cons_append,
        ← List.append_assoc] at heq
      obtain ⟨rfl, hcall⟩ := List.append_inj' heq rfl
      cases hcall
      rw [List.concat_eq_append, List.mem_append, List.mem_singleton,
        not_or] at hlater
      exact .inl ⟨⟨before, loading, later, rfl, hloads, hlater.1⟩,
        Ne.symm hlater.2⟩
  · rintro (⟨⟨before, loading, later, rfl, hloads, hlater⟩, hne⟩ | hloads)
    · refine ⟨before, loading, later ++ [call], by simp, hloads, ?_⟩
      rw [List.mem_append, List.mem_singleton, not_or]
      exact ⟨hlater, Ne.symm hne⟩
    · exact ⟨calls, call, [], rfl, hloads, List.not_mem_nil⟩

/-! ## Single calls -/

/-- What is found under a number is unloaded. -/
theorem unload_fst (id : Nat) :
    (c.unload id).1 = c.bindings.find? (·.id == id) := by
  unfold unload
  cases c.bindings.find? (·.id == id) <;> rfl

/-- **Unloading a number leaves what has another.** -/
theorem unload_snd (id : Nat) :
    (c.unload id).2
      = { c with bindings := c.bindings.filter (·.id != id) } := by
  unfold unload
  cases hfind : c.bindings.find? (·.id == id) with
  | some l => rfl
  | none =>
    rw [List.find?_eq_none] at hfind
    have hall : c.bindings.filter (·.id != id) = c.bindings :=
      List.filter_eq_self.mpr fun l hl => by simpa using hfind l hl
    rw [hall]

theorem perform_load_of_eq_error {e : Executable} {cause : LoadError}
    (h : c.load e = .error cause) :
    c.loaded? (.load e) = none ∧ c.perform (.load e) = c := by
  rw [loaded?, perform, h]
  exact ⟨rfl, rfl⟩

theorem perform_load_of_eq_ok {e : Executable} (h : c.load e = .ok (l, t)) :
    c.loaded? (.load e) = some l ∧ c.perform (.load e) = t := by
  rw [loaded?, perform, h]
  exact ⟨rfl, rfl⟩

/-! ## All calls -/

/-- **The table of a client that was made with nothing loaded**, after some
calls. -/
structure Tracks (c : Client) (calls : List Call) : Prop where
  /-- The devices are those the client was made with. -/
  topology_eq : (c.after calls).topology = c.topology
  /-- The next number is one more than has been loaded. -/
  nextId_eq : (c.after calls).nextId = 1 + (c.loads calls).length
  /-- What is loaded is numbered from one on. -/
  ids : (c.loads calls).map Loaded.id
    = List.range' 1 (c.loads calls).length
  /-- The table is in the order of loading. -/
  sublist : (c.after calls).bindings.Sublist (c.loads calls)
  /-- It holds what was loaded and has not been unloaded. -/
  mem_iff : ∀ {l : Loaded}, l ∈ (c.after calls).bindings ↔ c.Live calls l

theorem tracks_nil (hnext : c.nextId = 1) (hbindings : c.bindings = []) :
    c.Tracks [] where
  topology_eq := rfl
  nextId_eq := hnext
  ids := rfl
  sublist := by rw [after_nil, hbindings, loads]
  mem_iff := by simp [hbindings, not_live_nil]

/-- A call that loads nothing and keeps what it does not unload. -/
theorem Tracks.concat_of_filter (h : c.Tracks calls) (keep : Loaded → Bool)
    (hloaded : (c.after calls).loaded? call = none)
    (hperform : (c.after calls).perform call
      = { c.after calls with
          bindings := (c.after calls).bindings.filter keep })
    (hkeep : ∀ l, keep l = true ↔ call ≠ .unload l.id) :
    c.Tracks (calls ++ [call]) := by
  have hafter : c.after (calls ++ [call])
      = { c.after calls with
          bindings := (c.after calls).bindings.filter keep } := by
    rw [after_append, after_cons, after_nil, hperform]
  have hloads : c.loads (calls ++ [call]) = c.loads calls := by
    simp [hloaded]
  refine ⟨?_, ?_, ?_, ?_, ?_⟩
  · rw [hafter, h.topology_eq]
  · rw [hafter, hloads, h.nextId_eq]
  · rw [hloads, h.ids]
  · rw [hafter, hloads]
    exact List.filter_sublist.trans h.sublist
  · intro l
    rw [hafter, live_concat, hloaded, ← h.mem_iff]
    simp [hkeep]

/-- A call that loads something puts it at the end. -/
theorem Tracks.concat_of_load (h : c.Tracks calls) {e : Executable}
    (hload : (c.after calls).load e = .ok (l, t)) :
    c.Tracks (calls ++ [.load e]) := by
  obtain ⟨hloaded, hperform⟩ := perform_load_of_eq_ok hload
  obtain ⟨places, -, hl, rfl⟩ := load_eq_ok.mp hload
  have hid : l.id = 1 + (c.loads calls).length := by
    rw [hl, ← h.nextId_eq]
  refine ⟨?_, ?_, ?_, ?_, ?_⟩
  · simp [hperform, h.topology_eq]
  · simp [hperform, hloaded, h.nextId_eq, Nat.add_assoc]
  · simp [hloaded, h.ids, hid, List.range'_1_concat]
  · simpa [hperform, hloaded] using h.sublist
  · intro l'
    rw [live_concat, hloaded, ← h.mem_iff]
    simp [hperform, eq_comm]

/-- **One more call.** -/
theorem Tracks.concat (h : c.Tracks calls) (call : Call) :
    c.Tracks (calls ++ [call]) := by
  cases call with
  | load e =>
    cases hload : (c.after calls).load e with
    | error cause =>
      obtain ⟨hloaded, hperform⟩ := perform_load_of_eq_error hload
      exact h.concat_of_filter (fun _ => true) hloaded (by simp [hperform])
        (by simp)
    | ok given => exact h.concat_of_load hload
  | unload id =>
    exact h.concat_of_filter (·.id != id) rfl (unload_snd id)
      (by simp [eq_comm (a := id)])

/-- **The table follows every history.** -/
theorem tracks (hnext : c.nextId = 1) (hbindings : c.bindings = [])
    (calls : List Call) : c.Tracks calls := by
  induction calls using List.reverseRecOn with
  | nil => exact tracks_nil hnext hbindings
  | append_singleton calls call ih => exact ih.concat call

/-! ## Numbers and the order of loading -/

/-- Later loads have greater numbers. -/
theorem Tracks.pairwise_loads (h : c.Tracks calls) :
    (c.loads calls).Pairwise fun a b => a.id < b.id := by
  rw [← List.pairwise_map, h.ids]
  exact List.pairwise_lt_range'

theorem Tracks.pairwise_bindings (h : c.Tracks calls) :
    (c.after calls).bindings.Pairwise fun a b => a.id < b.id :=
  h.pairwise_loads.sublist h.sublist

/-- **Sorting by number is listing in the order of loading**, in whatever
order the table is. -/
theorem listing_eq {table : List Loaded}
    (h : c.bindings.Pairwise fun a b => a.id < b.id)
    (hperm : table.Perm c.bindings) :
    { c with bindings := table }.listing = c.bindings := by
  let le (a b : Loaded) : Bool := a.id ≤ b.id
  have hsorted : (table.mergeSort le).Pairwise fun a b => le a b :=
    List.pairwise_mergeSort
      (fun a b c hab hbc => by simp only [le, decide_eq_true_eq] at *; omega)
      (fun a b => by simp only [le, Bool.or_eq_true, decide_eq_true_eq]; omega)
      table
  have hids : (c.bindings.map Loaded.id).Nodup :=
    List.pairwise_map.mpr (h.imp Nat.ne_of_lt)
  have htable := (table.mergeSort_perm le).trans hperm
  have hbindings : c.bindings.Pairwise fun a b => le a b :=
    h.imp fun hlt => decide_eq_true hlt.le
  refine List.Perm.eq_of_pairwise ?_ hsorted hbindings htable
  intro a b ha hb hab hba
  exact List.inj_on_of_nodup_map hids (htable.subset ha) hb
    (Nat.le_antisymm (of_decide_eq_true hab) (of_decide_eq_true hba))

/-! ## The table is exact -/

/-- **What the table of a client does** after some calls. -/
structure Exact (c : Client) (calls : List Call) : Prop where
  /-- Loads get the numbers 1, 2, 3 and so on. -/
  ids : (c.loads calls).map Loaded.id
    = List.range' 1 (c.loads calls).length
  /-- The numbers fit in a word while there are fewer loads than words. -/
  id_lt : (c.loads calls).length < 2 ^ 64 → ∀ l ∈ c.loads calls,
    l.id < 2 ^ 64
  /-- An executable is loaded exactly if the client was made with all
  devices it is assigned to. -/
  load_iff : ∀ e, (∃ l t, (c.after calls).load e = .ok (l, t))
    ↔ ∀ device ∈ e.assignment.devices, device ∈ c.topology.deviceIds
  /-- What is loaded gets the next number and is listed last. -/
  load_eq_ok : ∀ e l t, (c.after calls).load e = .ok (l, t) →
    l.id = 1 + (c.loads calls).length
    ∧ t.listing = (c.after calls).listing ++ [l]
  /-- A load that fails is as if it had not been tried. -/
  load_eq_error : ∀ e cause, (c.after calls).load e = .error cause →
    ∀ later, c.after (calls ++ .load e :: later) = c.after (calls ++ later)
      ∧ c.loads (calls ++ .load e :: later) = c.loads (calls ++ later)
  /-- Unloading gives what has the number, if it was loaded and has not
  been unloaded. -/
  unload_iff : ∀ id l, ((c.after calls).unload id).1 = some l
    ↔ c.Live calls l ∧ l.id = id
  /-- It takes away only this, and no number is free again. -/
  unload_listing : ∀ id,
    ((c.after calls).unload id).2.listing
      = (c.after calls).listing.filter (·.id != id)
    ∧ ((c.after calls).unload id).2.nextId = (c.after calls).nextId
  /-- What was loaded and has not been unloaded is listed. -/
  mem_listing : ∀ l, l ∈ (c.after calls).listing ↔ c.Live calls l
  /-- It is listed once. -/
  nodup_listing : (c.after calls).listing.Nodup
  /-- It is listed in the order of loading. -/
  listing_sublist : (c.after calls).listing.Sublist (c.loads calls)
  /-- The order of the table makes no difference. -/
  listing_of_perm : ∀ table, table.Perm (c.after calls).bindings →
    { c.after calls with bindings := table }.listing
      = (c.after calls).listing

theorem Tracks.listing_eq_bindings (h : c.Tracks calls) :
    (c.after calls).listing = (c.after calls).bindings :=
  listing_eq h.pairwise_bindings (List.Perm.refl _)

/-- What is found under a number is the one entry that has it. -/
theorem Tracks.unload_fst_eq_some (h : c.Tracks calls) {id : Nat} :
    ((c.after calls).unload id).1 = some l ↔ c.Live calls l ∧ l.id = id := by
  have hids : ((c.after calls).bindings.map Loaded.id).Nodup :=
    List.pairwise_map.mpr (h.pairwise_bindings.imp Nat.ne_of_lt)
  rw [unload_fst, ← h.mem_iff, List.find?_key_eq_some hids]

/-- **The table of a client is exact over any history.** -/
theorem table_exact {options : ClientOptions} {firstPlace : Nat}
    {devices : List Device}
    (h : ofOptions options firstPlace = .ok (c, devices))
    (calls : List Call) : c.Exact calls := by
  have hnew : c.nextId = 1 ∧ c.bindings = [] := by
    obtain ⟨ids, -, hc⟩ := Except.bind_eq_ok.mp h
    cases hc
    exact ⟨rfl, rfl⟩
  have htracks := tracks hnew.1 hnew.2 calls
  have hlisting := htracks.listing_eq_bindings
  refine
    { ids := htracks.ids
      id_lt := fun hlt l hl => ?_
      load_iff := fun e => ?_
      load_eq_ok := fun e l t hload => ?_
      load_eq_error := fun e cause hload later => ?_
      unload_iff := fun id l => htracks.unload_fst_eq_some
      unload_listing := fun id => ?_
      mem_listing := fun l => ?_
      nodup_listing := ?_
      listing_sublist := ?_
      listing_of_perm := fun table hperm => ?_ }
  · have hid := List.mem_map_of_mem (f := Loaded.id) hl
    rw [htracks.ids, List.mem_range'_1] at hid
    omega
  · rw [exists_load_iff, htracks.topology_eq]
  · have hnext :=
      (tracks hnew.1 hnew.2 (calls ++ [.load e])).listing_eq_bindings
    obtain ⟨-, hperform⟩ := perform_load_of_eq_ok hload
    obtain ⟨places, -, hl, rfl⟩ := Client.load_eq_ok.mp hload
    rw [after_append, after_cons, after_nil, hperform] at hnext
    rw [hnext, hlisting, hl, ← htracks.nextId_eq]
    exact ⟨rfl, rfl⟩
  · obtain ⟨hloaded, hperform⟩ := perform_load_of_eq_error hload
    simp [loads, hloaded, hperform]
  · have hnext :=
      (tracks hnew.1 hnew.2 (calls ++ [.unload id])).listing_eq_bindings
    rw [after_append, after_cons, after_nil, perform] at hnext
    rw [hnext, hlisting, unload_snd]
    exact ⟨rfl, rfl⟩
  · rw [hlisting, htracks.mem_iff]
  · rw [hlisting]
    exact htracks.pairwise_bindings.imp fun hlt heq =>
      Nat.ne_of_lt hlt (congrArg Loaded.id heq)
  · rw [hlisting]
    exact htracks.sublist
  · rw [listing_eq htracks.pairwise_bindings hperm, hlisting]

/-- An executable for one device that does nothing. -/
def idleOn (device : UInt32) : Executable where
  name := "idle"
  kind := .graph
  topology := ⟨Topology.platformOfName Topology.hostPlatform,
    Topology.hostPlatform, "host_device", [device]⟩
  assignment := ⟨1, 1, [device]⟩
  program := ⟨[], [], [], [], [], 0⟩
  fingerprint := 0
  stats := ⟨0, 0, 0, 0, 0, []⟩

/-- Calls that unload a number before it is given and twice after, and that
try to load what is assigned to a device of another client. -/
def mixedCalls : List Call :=
  [.unload 1, .load (idleOn 0), .load (idleOn 7), .load (idleOn 0),
    .unload 1, .unload 1, .load (idleOn 0)]

theorem mixedCalls_table_exact :
    ∃ c devices, ofOptions ClientOptions.default 0 = .ok (c, devices)
      ∧ (c.loads mixedCalls).map Loaded.id = [1, 2, 3]
      ∧ (c.after mixedCalls).bindings.map Loaded.id = [2, 3]
      ∧ c.Exact mixedCalls := by
  have h : ofOptions ClientOptions.default 0 = .ok (_, _) := rfl
  exact ⟨_, _, h, rfl, rfl, table_exact h mixedCalls⟩

end TensorBind.Client
