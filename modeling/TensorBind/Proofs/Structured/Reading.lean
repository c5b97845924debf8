import TensorBind.Proofs.Outcome
import TensorBind.Proofs.Text.Yields
import TensorBind.Structured.Parser

/-!
# What is true of structured programs that were read

A program that was read from a text can be written again, because of what
the reader has checked: names are made of the characters of names, types
have a size that can be counted, an operation does what its name says and
reads values that are defined before it, and values are numbered in the
order of their definition (`Module.Legible`).

Of the names of values only their number is kept. A number is a place among
the names that are defined, so it is less than their number, but it is kept
as a word of 32 bits and is that place only if there are not too many of
them.
-/

namespace TensorBind.Structured

open TensorBind.Parser

/-- **A value** of a function that has defined so many. -/
def IsValue (count : Nat) (value : UInt32) : Prop :=
  ∃ place < count, value = UInt32.ofNat place

/-- **What an operation does is what its name says.** -/
inductive Operation.Described (count : Nat) (op : Operation) : Prop where
  /-- A constant with at least one element. -/
  | constant (elements : Dense)
    (mnemonic : mnemonic? op.name = some "constant")
    (kind : op.kind = .constant elements) (operands : op.operands = [])
    (nonempty : elements ≠ [])
  /-- An operation on as many values as it takes. -/
  | operation (name : String) (arity : Nat)
    (mnemonic : mnemonic? op.name = some name) (other : name ≠ "constant")
    (kind : kindOfName? name = some (op.kind, arity))
    (length : op.operands.length = arity)
    (operands : ∀ value ∈ op.operands, IsValue count value)

/-- **An operation that can be written**, behind so many values. -/
structure Operation.Legible (count : Nat) (op : Operation) : Prop where
  /-- Its name is an identifier. -/
  name : IsName op.name ∧ op.name.toList.head?.any startsIdentifier
  /-- It does what its name says. -/
  described : op.Described count
  /-- It defines the next value. -/
  result : op.result = UInt32.ofNat count
  /-- Its type has a size. -/
  resultType : op.resultType.checkedByteSize.isSome

/-- Operations that can be written one behind the other. -/
def AreLegible (count : Nat) (body : List Operation) : Prop :=
  ∀ (k : Nat) (op : Operation), body[k]? = some op → op.Legible (count + k)

theorem AreLegible.append {count : Nat} {body : List Operation}
    {op : Operation} (h : AreLegible count body)
    (hop : op.Legible (count + body.length)) :
    AreLegible count (body ++ [op]) := by
  intro k op' hk
  obtain hk | ⟨rfl, rfl⟩ := List.getElem?_concat_eq_some.mp hk
  · exact h k op' hk
  · exact hop

/-- **A function that can be written.** -/
structure Func.Legible (f : Func) : Prop where
  /-- It has a name. -/
  name : IsName f.name
  /-- The types of its arguments have a size. -/
  arguments : ∀ type ∈ f.arguments, type.checkedByteSize.isSome
  /-- The types of its results have a size. -/
  resultTypes : ∀ type ∈ f.resultTypes, type.checkedByteSize.isSome
  /-- Its operations can be written. -/
  body : AreLegible f.arguments.length f.body
  /-- It returns values of its own. -/
  returned : ∀ value ∈ f.returned,
    IsValue (f.arguments.length + f.body.length) value

/-- **A program that can be written.** -/
structure Module.Legible (m : Module) : Prop where
  /-- If it has a name, it is one. -/
  name : ∀ name ∈ m.name, IsName name
  /-- It has a function. -/
  nonempty : m.functions ≠ []
  /-- Its functions can be written. -/
  functions : ∀ f ∈ m.functions, f.Legible

/-! ## Types and attributes -/

theorem readTensorType_yields :
    Yields readTensorType fun type => type.checkedByteSize.isSome := by
  unfold readTensorType
  refine Yields.after fun _ => Yields.after fun _ => Yields.after fun text =>
    Yields.after fun next => Yields.ite (fun _ => ?_) fun _ => Yields.fail
  refine Yields.after fun _ => ?_
  unfold tensorOfParts
  dsimp only
  split
  · exact Yields.fail
  · refine Yields.after fun dims => ?_
    refine Yields.ite (fun _ => Yields.fail) fun hsize => Yields.pure ?_
    rwa [Bool.not_eq_true, Option.isNone_eq_false_iff] at hsize

theorem readDense_yields : Yields readDense fun elements => elements ≠ [] := by
  unfold readDense
  refine Yields.after fun elements => ?_
  refine Yields.ite (fun _ => Yields.fail) fun hne => Yields.pure ?_
  exact mt List.isEmpty_iff.mpr hne

/-! ## Values and operations -/

theorem readValue_yields (names : Names) :
    Yields (readValue names) (IsValue names.length) := by
  unfold readValue
  refine Yields.after fun start => Yields.after fun name => ?_
  split
  · rename_i value hvalue
    obtain ⟨place, hplace, rfl⟩ := Option.map_eq_some_iff.mp hvalue
    exact Yields.pure ⟨place,
      (List.findIdx?_eq_some_iff_findIdx_eq.mp hplace).1, rfl⟩
  · exact Yields.failAt

/-- **What an operation does and reads** fits its name. -/
theorem readKind_yields (names : Names) (start : Cursor) (name : String) :
    Yields (readKind names start name) fun result =>
      ∀ (value : UInt32) (type : Shape),
        Operation.Described names.length
          ⟨name, result.1, result.2, value, type⟩ := by
  unfold readKind
  split
  · exact Yields.failAt
  · rename_i mnemonic hmnemonic
    refine Yields.ite (fun hconstant => ?_) fun hother => ?_
    · refine Yields.after fun _ => Yields.after fun _ => ?_
      refine readDense_yields.bind fun elements hne => Yields.pure ?_
      exact fun value type => .constant elements
        (hmnemonic.trans (congrArg some hconstant)) rfl rfl hne
    · split
      · exact Yields.failAt
      · rename_i kind arity hkind
        refine (commaSeparated_yields (readValue_yields names)).bind
          fun operands hoperands => ?_
        refine Yields.ite (fun hlength => Yields.pure ?_) fun _ => Yields.fail
        exact fun value type => .operation mnemonic arity hmnemonic hother
          hkind hlength hoperands

theorem define_yields (names : Names) (name : String) :
    Yields (names.define name) fun next =>
      next.length = names.length + 1 := by
  refine Yields.ite (fun _ => Yields.fail) fun _ => Yields.pure ?_
  rw [List.length_append, List.length_singleton]

/-- **An operation can be written** behind the values before it. -/
theorem readOperation_yields (names : Names) :
    Yields (readOperation names) fun result =>
      result.1.Legible names.length
        ∧ result.2.length = names.length + 1 := by
  unfold readOperation
  refine Yields.after fun result => Yields.after fun _ =>
    Yields.after fun _ => Yields.after fun next => ?_
  refine Yields.ite (fun _ => Yields.fail) fun _ => Yields.after fun start => ?_
  refine identifier_yields.bind fun name hname => ?_
  refine (readKind_yields names start name).bind ?_
  rintro ⟨kind, operands⟩ hdescribed
  have htype : Yields readResultType
      fun type => type.checkedByteSize.isSome := by
    unfold readResultType
    refine Yields.after fun _ => Yields.after fun _ => Yields.after fun next => ?_
    refine Yields.ite (fun _ => ?_) fun _ => readTensorType_yields
    exact Yields.after fun _ => Yields.after fun _ => Yields.after fun _ =>
      readTensorType_yields
  refine htype.bind fun type hsize => ?_
  refine (define_yields names result).bind fun next hnext => Yields.pure ?_
  exact ⟨⟨hname, hdescribed _ _, rfl, hsize⟩, hnext⟩

theorem readReturn_yields (names : Names) :
    Yields (readReturn names) fun values =>
      ∀ value ∈ values, IsValue names.length value := by
  unfold readReturn
  refine Yields.after fun _ => Yields.after fun next => ?_
  refine Yields.ite (fun _ => ?_)
    fun _ => Yields.pure fun _ h => absurd h List.not_mem_nil
  refine (commaSeparated_yields (readValue_yields names)).bind
    fun values hvalues => ?_
  refine Yields.after fun _ => Yields.after fun types => ?_
  exact Yields.ite (fun _ => Yields.pure hvalues) fun _ => Yields.fail

/-! ## Functions and modules -/

/-- The body of a function: every operation can be written behind the
values before it, and only values are returned. -/
theorem readBody_yields (function : String) (names : Names) :
    Yields (readBody function names) fun result =>
      AreLegible names.length result.1
        ∧ ∀ value ∈ result.2,
          IsValue (names.length + result.1.length) value := by
  unfold readBody
  refine Yields.loop (fun state => AreLegible names.length state.1
    ∧ state.2.length = names.length + state.1.length)
    ⟨fun _ _ h => absurd h (by simp), rfl⟩ ?_
  rintro ⟨body, defined⟩ ⟨hbody, hdefined⟩
  dsimp only at hbody hdefined
  refine Yields.after fun isReturn => Yields.ite (fun _ => ?_) fun _ => ?_
  · refine (readReturn_yields defined).bind fun values hvalues =>
      Yields.pure ⟨hbody, ?_⟩
    rwa [hdefined] at hvalues
  refine Yields.after fun next => Yields.ite (fun _ => Yields.fail) fun _ => ?_
  refine (readOperation_yields defined).bind ?_
  rintro ⟨op, next⟩ ⟨hop, hnext⟩
  rw [hdefined] at hop
  refine Yields.pure ⟨hbody.append hop, ?_⟩
  rw [hnext, hdefined, List.length_append, List.length_singleton,
    Nat.add_assoc]

theorem readArgument_yields (state : List Shape × Names)
    (h : (∀ type ∈ state.1, type.checkedByteSize.isSome)
      ∧ state.2.length = state.1.length) :
    Yields (readArgument state) fun state =>
      (∀ type ∈ state.1, type.checkedByteSize.isSome)
        ∧ state.2.length = state.1.length := by
  unfold readArgument
  refine Yields.after fun name => Yields.after fun _ => ?_
  refine readTensorType_yields.bind fun type htype => Yields.after fun _ => ?_
  refine (define_yields state.2 name).bind fun names hnames =>
    Yields.pure ⟨?_, ?_⟩
  · exact List.forall_mem_append.mpr
      ⟨h.1, List.forall_mem_singleton.mpr htype⟩
  · rw [hnames, h.2, List.length_append, List.length_singleton]

theorem readResults_yields :
    Yields readResults fun types =>
      ∀ type ∈ types, type.checkedByteSize.isSome := by
  unfold readResults
  refine Yields.after fun arrow => Yields.ite (fun _ => ?_)
    fun _ => Yields.pure fun _ h => absurd h List.not_mem_nil
  refine Yields.after fun _ => Yields.after fun listed =>
    Yields.ite (fun _ => ?_) fun _ => ?_
  · refine listUntil_yields (readTensorType_yields.bind fun type htype => ?_)
    exact Yields.after fun _ => Yields.pure htype
  · exact readTensorType_yields.bind fun type htype =>
      Yields.pure (List.forall_mem_singleton.mpr htype)

/-- **A function that was read can be written.** -/
theorem readFunc_yields : Yields readFunc Func.Legible := by
  unfold readFunc
  refine Yields.after fun _ => Yields.after fun isPublic => ?_
  refine Yields.optional ?_
  refine Yields.after fun _ => word_yields.bind fun name hname => ?_
  refine Yields.after fun _ => (itemsUntil_yields
    ⟨fun _ h => absurd h List.not_mem_nil, rfl⟩ readArgument_yields).bind ?_
  rintro ⟨arguments, names⟩ ⟨harguments, hnames⟩
  refine readResults_yields.bind fun resultTypes hresultTypes => ?_
  refine Yields.after fun _ => Yields.after fun _ => ?_
  refine (readBody_yields name names).bind ?_
  rintro ⟨body, returned⟩ ⟨hbody, hreturned⟩
  refine Yields.after fun _ => Yields.pure ?_
  dsimp only at hnames hbody hreturned
  rw [hnames] at hbody hreturned
  exact ⟨hname, harguments, hresultTypes, hbody, hreturned⟩

/-- One more function that was read. -/
theorem readFunc_yields_append {functions : List Func}
    (h : ∀ f ∈ functions, f.Legible) :
    Yields readFunc fun f => ∀ g ∈ functions ++ [f], g.Legible :=
  fun c f next hf => List.forall_mem_append.mpr
    ⟨h, List.forall_mem_singleton.mpr (readFunc_yields c f next hf)⟩

theorem readBracedFunctions_yields : Yields readBracedFunctions
    fun functions => ∀ f ∈ functions, f.Legible := by
  refine Yields.loop (fun functions => ∀ f ∈ functions, f.Legible) nofun
    fun functions hfunctions => ?_
  refine Yields.after fun closed =>
    Yields.ite (fun _ => Yields.pure hfunctions) fun _ => ?_
  refine Yields.after fun ended =>
    Yields.ite (fun _ => Yields.fail) fun _ => ?_
  exact (readFunc_yields_append hfunctions).bind fun f hf => Yields.pure hf

theorem readBareFunctions_yields : Yields readBareFunctions
    fun functions => ∀ f ∈ functions, f.Legible := by
  refine Yields.after fun _ => Yields.loop
    (fun functions => ∀ f ∈ functions, f.Legible) nofun
    fun functions hfunctions => ?_
  refine Yields.after fun ended =>
    Yields.ite (fun _ => Yields.pure hfunctions) fun _ => ?_
  exact (readFunc_yields_append hfunctions).bind fun f hf =>
    Yields.after fun _ => Yields.pure hf

theorem readModuleName_yields : Yields readModuleName fun name? =>
    ∀ name ∈ name?, IsName name := by
  refine Yields.after fun _ => Yields.after fun next =>
    Yields.ite (fun _ => ?_) fun _ => Yields.pure nofun
  refine Yields.after fun _ => word_yields.bind fun name hname =>
    Yields.pure ?_
  rintro _ ⟨⟩
  exact hname

theorem readModuleText_yields : Yields readModuleText fun m =>
    (∀ name ∈ m.name, IsName name) ∧ ∀ f ∈ m.functions, f.Legible := by
  refine Yields.after fun isModule => Yields.ite (fun _ => ?_) fun _ => ?_
  · refine readModuleName_yields.bind fun name hname =>
      Yields.after fun _ => Yields.after fun _ => ?_
    exact readBracedFunctions_yields.bind fun functions hfunctions =>
      Yields.pure ⟨hname, hfunctions⟩
  · exact readBareFunctions_yields.bind fun functions hfunctions =>
      Yields.pure ⟨nofun, hfunctions⟩

/-- **A program that was read can be written.** -/
theorem Module.legible_of_parse {text : String} {m : Module}
    (h : parse text = .ok m) : m.Legible := by
  have hmodule : Yields readModule Legible := by
    refine readModuleText_yields.bind fun m hm => Yields.after fun _ =>
      Yields.after fun ended => ?_
    refine Yields.ite (fun _ => Yields.fail) fun _ => ?_
    refine Yields.ite (fun _ => Yields.fail) fun hne => Yields.pure ?_
    exact ⟨hm.1, mt List.isEmpty_iff.mpr hne, hm.2⟩
  exact hmodule.onText h

end TensorBind.Structured
