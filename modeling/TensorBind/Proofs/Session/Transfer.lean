import TensorBind.Proofs.Literal.Codec
import TensorBind.Proofs.Session.Failure

/-!
# What is moved to a device is read back

A value is moved to a device as its bytes, and read back from them. Two
things make that faithful. The bytes determine the literal, and the literal
determines the bytes (`Literal.bytes_bijective`). And nothing that a caller
does to other buffers touches these: a buffer stays what it is until it is
dropped (`Session.buffer?_perform`), and the bytes of a block never change.
So a value can be read back at any later time, and any number of times
(`Session.toLiteral_performAll`).
-/

namespace TensorBind

namespace Session

variable {s t : Session} {handle : Nat} {b : Buffer}

/-- Buffers that come behind others leave those as they are. -/
theorem buffer?_of_prefix (h : s.buffer? handle = some b)
    (hmore : s.buffers <+: t.buffers) : t.buffer? handle = some b := by
  rw [buffer?, Option.join_eq_some_iff] at h ⊢
  exact hmore.getElem?_eq_some h

/-- A call that fails leaves the buffers as they are. -/
theorem prefix_settle {call : Except SessionError (Nat × Session)}
    (h : ∀ handle t, call = .ok (handle, t) → s.buffers <+: t.buffers) :
    s.buffers <+: (s.settle call).buffers := by
  cases call with
  | error cause => exact List.prefix_rfl
  | ok given => exact h given.1 given.2 rfl

/-- **A value is moved to a device** if the client moves it, and its buffer
gets the next handle. -/
theorem transfer_eq_ok {client : Nat} {value : Literal} {device : UInt32} :
    s.transfer client value device = .ok (handle, t)
      ↔ ∃ c b memory, s.clients[client]? = some c
        ∧ c.transfer value device s.memory = .ok (b, memory)
        ∧ handle = s.buffers.length
        ∧ t = { s with memory, buffers := s.buffers ++ [some b] } := by
  unfold transfer
  cases hclient : s.clients[client]? with
  | none => simp
  | some c =>
    dsimp only
    cases hmoved : c.transfer value device s.memory with
    | error cause => simp [hmoved]
    | ok given =>
      obtain ⟨b, memory⟩ := given
      simp only [Except.ok.injEq, Prod.mk.injEq, Option.some.injEq]
      constructor
      · rintro ⟨rfl, rfl⟩
        exact ⟨c, b, memory, rfl, hmoved, rfl, rfl⟩
      · rintro ⟨_, b', memory', rfl, hmoved', rfl, rfl⟩
        rw [hmoved] at hmoved'
        cases hmoved'
        exact ⟨rfl, rfl⟩

theorem prefix_execute (s : Session) (handle : Nat)
    (arguments : List (List Nat)) :
    s.buffers <+: (s.execute handle arguments).2.buffers := by
  obtain ⟨cause, hexecute, -⟩ | ⟨entry, buffers, -, -, -, hresult⟩ :=
    s.execute_cases handle arguments
  · rw [hexecute]
  obtain ⟨cause, memory, -, hexecute⟩ | ⟨outputs, memory, -, hexecute⟩ :=
    hresult
  · rw [hexecute]
  · rw [hexecute]
    exact List.prefix_append _ _

/-- Dropping a buffer leaves the others. -/
theorem buffer?_drop {other : Nat} (hne : other ≠ handle)
    (h : s.buffer? handle = some b) :
    (s.drop other).buffer? handle = some b := by
  unfold drop
  cases s.buffer? other with
  | none => exact h
  | some dropped =>
    show ((s.buffers.set other none)[handle]?).join = some b
    rw [List.getElem?_set_ne hne]
    exact h

/-- **A buffer stays what it is** until it is dropped. -/
theorem buffer?_perform {action : Action} (hne : action ≠ .drop handle)
    (h : s.buffer? handle = some b) :
    (s.perform action).buffer? handle = some b := by
  cases action with
  | addClient options =>
    refine buffer?_of_prefix h ?_
    rw [perform, buffers_addClient]
  | load client e _ =>
    refine buffer?_of_prefix h (prefix_settle fun _ t hload => ?_)
    obtain ⟨c, l, c', -, -, -, rfl⟩ := load_eq_ok.mp hload
    exact List.prefix_rfl
  | unload client id =>
    refine buffer?_of_prefix h ?_
    rw [perform, buffers_unload]
  | transfer client value device =>
    refine buffer?_of_prefix h (prefix_settle fun _ t hmoved => ?_)
    obtain ⟨c, b, memory, -, -, -, rfl⟩ := transfer_eq_ok.mp hmoved
    exact List.prefix_append _ _
  | execute other arguments =>
    exact buffer?_of_prefix h (s.prefix_execute other arguments)
  | drop other => exact buffer?_drop (fun heq => hne (heq ▸ rfl)) h
  | dropLoaded other => exact h

/-- **A buffer goes on to hold what it holds** until it is dropped. -/
theorem holds_performAll {actions : List Action} {value : Literal}
    (hs : s.Sound) (hdrop : .drop handle ∉ actions)
    (hbuffer : s.buffer? handle = some b) (hb : b.Holds s.memory value) :
    (s.performAll actions).buffer? handle = some b
      ∧ b.Holds (s.performAll actions).memory value := by
  induction actions generalizing s with
  | nil => exact ⟨hbuffer, hb⟩
  | cons action actions ih =>
    rw [List.mem_cons, not_or] at hdrop
    have hkeeps := (course_perform hs action).keeps.1
    exact ih (hs.perform action) hdrop.2
      (buffer?_perform (Ne.symm hdrop.1) hbuffer) (hb.keeps hkeeps)

/-- What was moved to a device is held by its buffer. -/
theorem holds_of_transfer {client : Nat} {value : Literal}
    {device : UInt32}
    (h : s.transfer client value device = .ok (handle, t)) :
    ∃ b, t.buffer? handle = some b ∧ b.Holds t.memory value := by
  obtain ⟨c, b, memory, -, hmoved, rfl, rfl⟩ := transfer_eq_ok.mp h
  refine ⟨b, ?_, Client.holds_of_transfer hmoved⟩
  rw [buffer?, List.getElem?_concat_length]
  rfl

/-- **What was moved to a device is read back**, whatever is done in the
meantime, until it is dropped. -/
theorem toLiteral_performAll {client : Nat} {device : UInt32}
    {value : Literal} {actions : List Action} (hs : s.Sound)
    (h : s.transfer client value device = .ok (handle, t))
    (hdrop : .drop handle ∉ actions) :
    ∃ b, (t.performAll actions).buffer? handle = some b
      ∧ b.toLiteral (t.performAll actions).memory = .ok value := by
  obtain ⟨b, hbuffer, hb⟩ := holds_of_transfer h
  have ht : t.Sound := by
    have hsound := hs.perform (.transfer client value device)
    rwa [perform, h, settle] at hsound
  obtain ⟨hlater, hholds⟩ := holds_performAll ht hdrop hbuffer hb
  exact ⟨b, hlater, hholds.toLiteral⟩

end Session

namespace Literal

/-- **Literals and bytes determine each other.** Elements that can be in
memory make a literal of a shape exactly if they are of its type and as many
as it holds, and they are the elements of that literal; so are those of a
scalar and a vector.

A literal has as many elements as its shape holds, of the type of the shape,
and as many bytes as the shape takes. It is read back from its bytes, and so
it is read back from the device it was moved to, at any time until it is
dropped.

Bytes are read as a literal of a shape exactly if there are as many as the
shape takes. Writing that literal gives the same bytes again; only of truth
values every byte that is not zero becomes one. -/
theorem bytes_bijective :
    (∀ (shape : Shape) (data : Elements),
      data.length * data.type.byteWidth < largestSize →
      ((∃ l, ofElements shape data = .ok l)
        ↔ data.type = shape.elementType
          ∧ data.length = shape.elementCount)
      ∧ ∀ l, ofElements shape data = .ok l →
        l.shape = shape ∧ l.elements = data)
    ∧ (∀ (t : ElementType) (value : t.Value),
      (scalar t value).elements = ⟨t, [value]⟩)
    ∧ (∀ (t : ElementType) (values : List t.Value),
      values.length * t.byteWidth ≤ listCapacity →
      (vector t values).elements = ⟨t, values⟩)
    ∧ (∀ l : Literal,
      l.elements.type = l.shape.elementType
      ∧ l.elements.length = l.shape.elementCount
      ∧ l.toBytes.length = l.shape.byteSize
      ∧ ofBytes l.shape l.toBytes = .ok l
      ∧ ∀ (before after : List Session.Action) (client : Nat)
        (device : UInt32) (handle : Nat) (s : Session),
        (Session.empty.performAll before).transfer client l device
          = .ok (handle, s) →
        .drop handle ∉ after →
        ∃ b, (s.performAll after).buffer? handle = some b
          ∧ b.toLiteral (s.performAll after).memory = .ok l)
    ∧ ∀ (shape : Shape) (bytes : List UInt8), bytes.length < largestSize →
      ((∃ l, ofBytes shape bytes = .ok l) ↔ bytes.length = shape.byteSize)
      ∧ ∀ l, ofBytes shape bytes = .ok l → l.shape = shape
        ∧ (shape.elementType ≠ .pred → l.toBytes = bytes)
        ∧ (shape.elementType = .pred →
          l.toBytes = bytes.map fun byte => if byte = 0 then 0 else 1) := by
  refine ⟨fun shape data hsize => ⟨exists_ofElements_iff hsize,
      fun l => elements_of_ofElements⟩, fun _ _ => rfl,
    fun _ _ => elements_vector, fun l => ?_,
    fun shape bytes hsize => ⟨?_, fun l hl => ?_⟩⟩
  · refine ⟨rfl, l.length_eq, l.length_toBytes, l.ofBytes_toBytes, ?_⟩
    intro before after client device handle s hmoved hdrop
    exact Session.toLiteral_performAll
      (Session.course_performAll Session.sound_empty before).2 hmoved hdrop
  · constructor
    · rintro ⟨l, hl⟩
      exact (ofBytes_eq_ok.mp hl).1
    · intro hlength
      rw [ofBytes, dif_pos ⟨hlength, hsize⟩]
      exact ⟨_, rfl⟩
  · have hbytes := toBytes_of_ofBytes hl
    obtain ⟨-, -, _, _, rfl⟩ := ofBytes_eq_ok.mp hl
    refine ⟨rfl, fun htype => ?_, fun htype => ?_⟩
    · rw [hbytes, ElementType.canonicalByte_of_ne_pred htype, List.map_id]
    · rw [hbytes, htype]
      rfl

/-- Two truth values in two dimensions, read from bytes of which one is
neither zero nor one. -/
def readPair : Literal :=
  ⟨⟨.pred, [2, 1]⟩, [true, false], by decide, by decide⟩

/-- The pair is written as one and zero, and it is read back from a device
after another value came and went. -/
theorem readPair_bytes_bijective :
    let before : List Session.Action := [.addClient .default]
    let after : List Session.Action :=
      [.transfer 0 (scalar .s32 (7 : Int32)) 0, .drop 1]
    ofBytes ⟨.pred, [2, 1]⟩ [7, 0] = .ok readPair
      ∧ readPair.toBytes = [1, 0]
      ∧ ∃ s b, (Session.empty.performAll before).transfer 0 readPair 0
          = .ok (0, s)
        ∧ (s.performAll after).buffer? 0 = some b
        ∧ b.toLiteral (s.performAll after).memory = .ok readPair := by
  intro before after
  have hread : ofBytes ⟨.pred, [2, 1]⟩ [7, 0] = .ok readPair := by decide
  obtain ⟨-, -, -, hmake, hbytes⟩ := bytes_bijective
  obtain ⟨-, -, htruth⟩ :=
    (hbytes ⟨.pred, [2, 1]⟩ [7, 0] (by decide)).2 readPair hread
  obtain ⟨s, hmoved⟩ : ∃ s, (Session.empty.performAll before).transfer 0
      readPair 0 = .ok (0, s) := ⟨_, rfl⟩
  obtain ⟨-, -, -, -, hback⟩ := hmake readPair
  obtain ⟨b, hb, hliteral⟩ :=
    hback before after 0 0 0 s hmoved (by simp [after])
  exact ⟨hread, htruth rfl, s, b, hmoved, hb, hliteral⟩

end Literal

end TensorBind
