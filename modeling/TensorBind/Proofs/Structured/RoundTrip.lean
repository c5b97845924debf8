import TensorBind.Proofs.Structured.Parts

/-!
# Structured programs are read back

A program that was read from a text, written and read again is the same
program (`Context.parse_render`), although its text is not the same: the
names of values are replaced by numbers, and attributes, dictionaries and
operand types are left out.

The text of each part is followed through the reader of that part. What is
used of the program is only that it can be written (`Module.Legible`), and
of a floating-point number that its text is read as that number.
-/

namespace TensorBind

open Cursor (unblanked)

namespace Structured

open TensorBind.Parser

/-! ## Operations -/

/-- An operation on values is no constant, and takes at least one. -/
theorem kindOfName?_eq_some {name : String} {kind : OpKind} {arity : Nat}
    (h : kindOfName? name = some (kind, arity)) :
    0 < arity ∧ ∀ elements, kind ≠ .constant elements := by
  unfold kindOfName? at h
  split at h
  · cases h
    exact ⟨Nat.one_pos, nofun⟩
  · obtain ⟨op, -, heq⟩ := Option.map_eq_some_iff.mp h
    cases heq
    exact ⟨Nat.two_pos, nofun⟩

/-- **An operation whose constant, if it is one, is read back.** -/
def Operation.ReadsBack (op : Operation) : Prop :=
  ∀ elements, op.kind = .constant elements → Structured.ReadsBack elements

theorem renderOperands_eq {op : Operation}
    (h : ∀ elements, op.kind ≠ .constant elements) :
    op.renderOperands = renderValues op.operands := by
  unfold Operation.renderOperands
  split
  · rename_i elements hkind
    exact absurd hkind (h elements)
  · rfl

/-- Values begin with the mark of a value. -/
theorem exists_renderValues {values : List UInt32} (hne : values ≠ []) :
    ∃ tail, (renderValues values).toList = '%' :: tail := by
  rw [toList_renderValues]
  cases values with
  | nil => exact absurd rfl hne
  | cons value values =>
    have htext := toList_renderValue value.toNat []
    rw [List.append_nil] at htext
    rw [List.map_cons, htext, List.intercalate_cons_cons_left]
    exact ⟨_, rfl⟩

theorem unblanked_renderValues {values : List UInt32} (hne : values ≠ [])
    (rest : List Char) :
    unblanked ((renderValues values).toList ++ rest)
      = (renderValues values).toList ++ rest := by
  obtain ⟨tail, htail⟩ := exists_renderValues hne
  rw [htail]
  rfl

/-- **What an operation does is read back**, up to the colon in front of its
type. -/
theorem reads_readKind {count : Nat} {op : Operation} {start : Cursor}
    (hcount : count < 2 ^ 32) (hop : op.Described count)
    (hread : op.ReadsBack) (rest : List Char) :
    ∃ mid, Reads (readKind (valueNames count) start op.name)
        (' ' :: (op.renderOperands.toList ++ ' ' :: ':' :: rest))
        (op.kind, op.operands) mid
      ∧ unblanked mid = ':' :: rest := by
  cases hop with
  | constant elements hmnemonic hkind hoperands hne =>
    refine ⟨' ' :: ':' :: rest, ?_, rfl⟩
    rw [Operation.renderOperands, hkind]
    dsimp only
    rw [toList_renderDense]
    unfold readKind
    rw [hmnemonic, hoperands]
    dsimp only
    rw [if_pos rfl]
    refine .bind (.expectKeyword rfl rfl) (.bind (.expectChar rfl) ?_)
    exact .bind (reads_readDense (hread elements hkind) hne _) (.pure _ _)
  | operation name arity hmnemonic hother hkind hlength hoperands =>
    obtain ⟨hpos, hconstant⟩ := kindOfName?_eq_some hkind
    have hne : op.operands ≠ [] := by
      rw [← hlength] at hpos
      exact List.length_pos_iff.mp hpos
    refine ⟨':' :: rest, ?_, rfl⟩
    rw [renderOperands_eq hconstant]
    unfold readKind
    rw [hmnemonic]
    dsimp only
    rw [if_neg hother, hkind]
    refine .bind (reads_values hcount hoperands hne
      (unblanked_renderValues hne _) rfl ?_) ?_
    · show some ':' ≠ some ','
      decide
    · rw [if_pos hlength]
      exact .pure _ _

theorem toList_renderOperation (op : Operation) (rest : List Char) :
    op.render.toList ++ rest
      = ' ' :: ' ' :: ' ' :: ' ' :: ((renderValue op.result.toNat).toList
        ++ ' ' :: '=' :: ' ' :: (op.name.toList
        ++ ' ' :: (op.renderOperands.toList ++ ' ' :: ':' :: ' '
          :: (op.resultType.renderTensor.toList ++ '\n' :: rest)))) := by
  simp only [Operation.render, String.toList_append, String.reduceToList,
    List.append_assoc, List.cons_append, List.nil_append]

theorem unblanked_renderValue (place : Nat) (rest : List Char) :
    unblanked ((renderValue place).toList ++ rest)
      = (renderValue place).toList ++ rest := by
  rw [toList_renderValue]
  rfl

/-- The type of a result is read back. -/
theorem reads_readResultType {s : Shape} {text rest : List Char}
    (hs : s.checkedByteSize.isSome)
    (h : unblanked text = ':' :: ' ' :: (s.renderTensor.toList ++ rest)) :
    Reads readResultType text s rest := by
  have hnext : unblanked (' ' :: (s.renderTensor.toList ++ rest))
      = s.renderTensor.toList ++ rest := unblanked_renderTensor s rest
  refine .bind (.expectChar h) (.bind .skipBlanks (.bind .peek ?_))
  rw [hnext, toList_renderTensor, List.head?_cons,
    if_neg (by decide), ← toList_renderTensor]
  exact reads_readTensorType hs (unblanked_renderTensor s rest)

/-- **An operation is read back** behind the values before it. -/
theorem reads_readOperation {count : Nat} {op : Operation}
    {text rest : List Char} (hcount : count < 2 ^ 32)
    (hop : op.Legible count) (hread : op.ReadsBack)
    (h : unblanked text = unblanked (op.render.toList ++ rest)) :
    Reads (readOperation (valueNames count)) text
      (op, valueNames (count + 1)) ('\n' :: rest) := by
  have hresult : op.result.toNat = count := by
    rw [hop.result, UInt32.toNat_ofNat_of_lt' hcount]
  obtain ⟨hname, hfirst⟩ := hop.name
  simp only [toList_renderOperation, hresult, Cursor.unblanked_space,
    unblanked_renderValue] at h
  refine .bind (reads_readValueName h rfl) ?_
  refine .bind (.expectChar rfl) (.bind .skipBlanks (.bind .peek ?_))
  have hnext : ∀ rest, unblanked (' ' :: (op.name.toList ++ rest))
      = op.name.toList ++ rest := hname.unblanked_append
  rw [hnext, if_neg (hname.head?_ne rfl _)]
  refine .get fun start => ?_
  refine .bind (.identifier hname hfirst (hname.unblanked_append _) rfl) ?_
  obtain ⟨mid, hkind, hmid⟩ := reads_readKind hcount hop.described hread _
  refine .bind hkind (.bind (reads_readResultType hop.resultType hmid) ?_)
  rw [define_valueNames, pure_bind, length_valueNames, ← hop.result]
  exact .pure _ _

/-- The line of an operation begins with its value and ends in a line
feed. -/
theorem exists_renderOperation (op : Operation) :
    ∃ line, ∀ rest, unblanked (op.render.toList ++ rest)
      = '%' :: line ++ '\n' :: rest := by
  refine ⟨(valueName op.result.toNat).toList ++ ' ' :: '=' :: ' '
    :: (op.name.toList ++ ' ' :: (op.renderOperands.toList ++ ' ' :: ':'
      :: ' ' :: op.resultType.renderTensor.toList)), fun rest => ?_⟩
  rw [toList_renderOperation, toList_renderValue]
  simp only [List.cons_append, List.append_assoc]
  rfl

/-! ## Lists of types -/

theorem areItems_renderTensor {closing : Char} (hclosing : closing ≠ 't')
    (types : List Shape) :
    AreItems closing (types.map fun type => type.renderTensor.toList) := by
  intro piece hpiece
  obtain ⟨type, -, rfl⟩ := List.mem_map.mp hpiece
  have htext := toList_renderTensor type []
  rw [List.append_nil] at htext
  exact ⟨'t', _, htext, rfl, hclosing.symm⟩

theorem toList_renderTypes (types : List Shape) :
    (renderTypes types).toList = [',', ' '].intercalate
      (types.map fun type => type.renderTensor.toList) := by
  rw [renderTypes, String.toList_intercalate, List.map_map]
  rfl

theorem unblanked_renderTypes {types : List Shape} (hne : types ≠ [])
    (rest : List Char) :
    unblanked ((renderTypes types).toList ++ rest)
      = (renderTypes types).toList ++ rest := by
  rw [toList_renderTypes]
  exact (areItems_renderTensor (by decide : ',' ≠ 't') types).unblanked_append
    (mt List.map_eq_nil_iff.mp hne) rest

/-- **Types are read back** up to what follows them. -/
theorem reads_types {types : List Shape} {text rest : List Char}
    (htypes : ∀ type ∈ types, type.checkedByteSize.isSome)
    (hne : types ≠ [])
    (h : unblanked text = (renderTypes types).toList ++ rest)
    (hcomma : (unblanked rest).head? ≠ some ',') :
    Reads (commaSeparated readTensorType) text types (unblanked rest) := by
  rw [toList_renderTypes] at h
  refine .commaSeparated hne (fun _ => rfl)
    (areItems_renderTensor (by decide) types) ?_ hcomma h
  exact fun type htype text rest' _ h =>
    reads_readTensorType (htypes type htype) h

/-! ## Functions -/

namespace Func

/-- How many values a function has. -/
def count (f : Func) : Nat := f.arguments.length + f.body.length

/-- **Every value of a function has a type**, and that has a size. -/
theorem exists_valueType {f : Func} {value : UInt32} (hf : f.Legible)
    (hcount : f.count < 2 ^ 32) (hvalue : IsValue f.count value) :
    ∃ type, f.valueType? value = some type
      ∧ type.checkedByteSize.isSome := by
  obtain ⟨place, hplace, rfl⟩ := hvalue
  have hlength : place
      < (f.arguments ++ f.body.map Operation.resultType).length := by
    rwa [List.length_append, List.length_map]
  rw [valueType?, UInt32.toNat_ofNat_of_lt' (Nat.lt_trans hplace hcount)]
  refine ⟨_, List.getElem?_eq_getElem hlength, ?_⟩
  rcases List.mem_append.mp (List.getElem_mem hlength) with htype | htype
  · exact hf.arguments _ htype
  · obtain ⟨op, hop, htype⟩ := List.mem_map.mp htype
    obtain ⟨k, hk⟩ := List.mem_iff_getElem?.mp hop
    rw [← htype]
    exact (hf.body k op hk).resultType

/-- What stands behind the word of a return. -/
def returnText (f : Func) : String :=
  if f.returned.isEmpty then "\n"
  else " " ++ renderValues f.returned ++ " : "
    ++ renderTypes (f.returned.filterMap f.valueType?) ++ "\n"

theorem toList_renderReturn (f : Func) (rest : List Char) :
    f.renderReturn.toList ++ rest = ' ' :: ' ' :: ' ' :: ' ' :: 'r' :: 'e'
      :: 't' :: 'u' :: 'r' :: 'n' :: (f.returnText.toList ++ rest) := by
  unfold renderReturn returnText
  split
  · simp only [String.reduceToList, List.cons_append, List.nil_append]
  · simp only [String.toList_append, String.reduceToList, List.append_assoc,
      List.cons_append, List.nil_append]

theorem length_returnTypes {f : Func} (hf : f.Legible)
    (hcount : f.count < 2 ^ 32) :
    (f.returned.filterMap f.valueType?).length = f.returned.length := by
  rw [List.filterMap_length_eq_length]
  intro value hvalue
  obtain ⟨type, htype, -⟩ := exists_valueType hf hcount
    (hf.returned value hvalue)
  rw [htype]
  rfl

theorem checkedByteSize_returnTypes {f : Func} (hf : f.Legible)
    (hcount : f.count < 2 ^ 32) :
    ∀ type ∈ f.returned.filterMap f.valueType?,
      type.checkedByteSize.isSome := by
  intro type htype
  obtain ⟨value, hvalue, htype⟩ := List.mem_filterMap.mp htype
  obtain ⟨type', htype', hsize⟩ := exists_valueType hf hcount
    (hf.returned value hvalue)
  rw [htype, Option.some.injEq] at htype'
  rwa [htype']

/-- **What a function returns is read back.** -/
theorem reads_readReturn {f : Func} (hf : f.Legible)
    (hcount : f.count < 2 ^ 32) (rest : List Char) :
    Reads (readReturn (valueNames f.count))
      (f.returnText.toList ++ ' ' :: ' ' :: '}' :: rest) f.returned
      ('}' :: rest) := by
  refine .bind .skipBlanks (.bind .peek ?_)
  unfold returnText
  split
  · rename_i hnil
    rw [List.isEmpty_iff.mp hnil]
    exact .pure [] _
  · rename_i hne
    have hne : f.returned ≠ [] := mt List.isEmpty_iff.mpr hne
    have hlength := length_returnTypes hf hcount
    have htypes : f.returned.filterMap f.valueType? ≠ [] := by
      rw [← List.length_pos_iff, hlength]
      exact List.length_pos_iff.mpr hne
    obtain ⟨tail, htail⟩ := exists_renderValues hne
    simp only [String.toList_append, String.reduceToList, List.append_assoc,
      List.cons_append, List.nil_append]
    have hnext : ∀ rest,
        unblanked (' ' :: ((renderValues f.returned).toList ++ rest))
          = (renderValues f.returned).toList ++ rest :=
      unblanked_renderValues hne
    rw [hnext, htail, List.cons_append, List.head?_cons, if_pos rfl,
      ← List.cons_append, ← htail]
    refine .bind (reads_values hcount hf.returned hne
      (unblanked_renderValues hne _) rfl ?_) ?_
    · show some ':' ≠ some ','
      decide
    refine .bind (.expectChar rfl) (.bind (reads_types
      (checkedByteSize_returnTypes hf hcount) htypes
      (unblanked_renderTypes htypes _) ?_) ?_)
    · show some '}' ≠ some ','
      decide
    · rw [if_pos hlength]
      exact .pure _ _

end Func

/-- The round of the return. -/
theorem reads_bodyRound_return {f : Func} {body : List Operation}
    {text rest : List Char} (hf : f.Legible) (hcount : f.count < 2 ^ 32)
    (h : unblanked text
      = unblanked (f.renderReturn.toList ++ ' ' :: ' ' :: '}' :: rest)) :
    Reads (bodyRound f.name (body, valueNames f.count)) text
      (.done (body, f.returned)) ('}' :: rest) := by
  rw [f.toList_renderReturn] at h
  have hhead : (f.returnText.toList ++ ' ' :: ' ' :: '}' :: rest).head?.any
      isNameChar = false := by
    unfold Func.returnText
    split
    · rfl
    · simp only [String.toList_append, String.reduceToList,
        List.append_assoc, List.cons_append, List.nil_append]
      rfl
  refine .bind (.bind (.tryKeyword h hhead) (.pure true _)) ?_
  exact .bind (Func.reads_readReturn hf hcount rest) (.pure _ _)

/-- The round of an operation. -/
theorem reads_bodyRound_operation {function : String} {count : Nat}
    {op : Operation} {body : List Operation} {text rest : List Char}
    (hcount : count < 2 ^ 32) (hop : op.Legible count)
    (hread : op.ReadsBack)
    (h : unblanked text = unblanked (op.render.toList ++ rest)) :
    Reads (bodyRound function (body, valueNames count)) text
      (.more (body ++ [op], valueNames (count + 1))) ('\n' :: rest) := by
  obtain ⟨line, hline⟩ := exists_renderOperation op
  rw [hline, List.cons_append] at h
  have hkeyword : Reads (do
      if ← tryKeyword "return" then return true
      else tryKeyword "func.return") text false
      ('%' :: (line ++ '\n' :: rest)) := by
    refine .bind (.tryKeyword_ne ?_) ?_
    · rw [h]
      rfl
    · rw [if_neg Bool.false_ne_true, h]
      exact .tryKeyword_ne rfl
  refine .bind hkeyword (.bind .peek ?_)
  rw [List.head?_cons, if_neg (by decide)]
  have hstart : unblanked ('%' :: (line ++ '\n' :: rest))
      = unblanked (op.render.toList ++ rest) := by
    rw [hline]
    rfl
  exact .bind (reads_readOperation hcount hop hread hstart) (.pure _ _)

/-- **The body of a function is read back.** -/
theorem reads_body {f : Func} {ops before : List Operation} {count : Nat}
    {text rest : List Char} (hf : f.Legible) (hcount : f.count < 2 ^ 32)
    (hops : AreLegible count ops) (hread : ∀ op ∈ ops, op.ReadsBack)
    (htotal : count + ops.length = f.count)
    (h : unblanked text = unblanked (ops.flatMap (fun op => op.render.toList)
      ++ (f.renderReturn.toList ++ ' ' :: ' ' :: '}' :: rest))) :
    Reads (loop (bodyRound f.name) (before, valueNames count)) text
      (before ++ ops, f.returned) ('}' :: rest) := by
  induction ops generalizing before count text with
  | nil =>
    rw [List.length_nil, Nat.add_zero] at htotal
    rw [List.append_nil, htotal]
    exact .loop_done (reads_bodyRound_return hf hcount h)
  | cons op ops ih =>
    rw [List.length_cons, Nat.add_comm ops.length, ← Nat.add_assoc] at htotal
    rw [List.forall_mem_cons] at hread
    rw [List.flatMap_cons, List.append_assoc] at h
    have hop : op.Legible count := hops 0 op rfl
    have hops' : AreLegible (count + 1) ops := by
      intro k op' hk
      have hop' := hops (k + 1) op' hk
      rwa [Nat.add_comm k, ← Nat.add_assoc] at hop'
    obtain ⟨line, hline⟩ := exists_renderOperation op
    have hlt := length_lt_of_unblanked (h.trans (hline _)) (List.cons_ne_nil _ _)
    rw [List.append_cons]
    exact .loop_more (reads_bodyRound_operation (by omega) hop hread.1 h) hlt
      (ih hops' hread.2 htotal rfl)

/-! ## Headers -/

/-- What follows an item of a list is no dictionary. -/
theorem reads_skipDictionary {rest : List Char}
    (h : rest.head? = some ',' ∨ rest.head? = some ')') :
    Reads skipDictionary rest () rest := by
  obtain ⟨tail, rfl | rfl⟩ : ∃ tail, rest = ',' :: tail ∨ rest = ')' :: tail := by
    rcases h with h | h
    · exact ⟨_, .inl (List.eq_cons_of_mem_head? h)⟩
    · exact ⟨_, .inr (List.eq_cons_of_mem_head? h)⟩
  · exact .bind .skipBlanks (.bind .peek (.pure () _))
  · exact .bind .skipBlanks (.bind .peek (.pure () _))

/-- An argument as it is written. -/
def argumentText (argument : Shape × Nat) : List Char :=
  (renderValue argument.2).toList
    ++ ':' :: ' ' :: argument.1.renderTensor.toList

theorem toList_renderArguments (f : Func) :
    f.renderArguments.toList
      = [',', ' '].intercalate (f.arguments.zipIdx.map argumentText) := by
  rw [Func.renderArguments, String.toList_intercalate, List.map_map]
  refine congrArg (List.intercalate [',', ' ']) (List.map_congr_left ?_)
  intro argument _
  simp only [Function.comp_apply, String.toList_append, String.reduceToList,
    List.append_assoc, List.cons_append, List.nil_append, argumentText]

theorem areItems_argumentText (arguments : List (Shape × Nat)) :
    AreItems ')' (arguments.map argumentText) := by
  intro piece hpiece
  obtain ⟨argument, -, rfl⟩ := List.mem_map.mp hpiece
  refine ⟨'%', _, toList_renderValue _ _, rfl, by decide⟩

/-- **An argument is read back** behind those before it. -/
theorem reads_readArgument {types : List Shape} {type : Shape} {count : Nat}
    {rest : List Char} (htype : type.checkedByteSize.isSome)
    (hrest : rest.head? = some ',' ∨ rest.head? = some ')') :
    Reads (readArgument (types, valueNames count))
      (argumentText (type, count) ++ rest)
      (types ++ [type], valueNames (count + 1)) rest := by
  unfold argumentText
  rw [List.append_assoc, List.cons_append, List.cons_append]
  refine .bind (reads_readValueName (unblanked_renderValue count _) rfl) ?_
  refine .bind (.expectChar rfl) ?_
  refine .bind (reads_readTensorType htype
    (unblanked_renderTensor type rest)) ?_
  refine .bind (reads_skipDictionary hrest) ?_
  rw [define_valueNames, pure_bind]
  exact .pure _ rest

/-- **The arguments of a function are read back**, and its values are
called by their numbers. -/
theorem reads_arguments {f : Func} (hf : f.Legible) (rest : List Char) :
    Reads (itemsUntil ')' .argumentSeparator readArgument ([], []))
      (f.renderArguments.toList ++ ')' :: rest)
      (f.arguments, valueNames f.arguments.length) rest := by
  have hitems := areItems_argumentText f.arguments.zipIdx
  have hitem : ∀ i (h : i < (f.arguments.zipIdx.map argumentText).length)
      rest, (rest.head? = some ',' ∨ rest.head? = some ')') →
      Reads (readArgument (f.arguments.take i, valueNames i))
        ((f.arguments.zipIdx.map argumentText)[i] ++ rest)
        (f.arguments.take (i + 1), valueNames (i + 1)) rest := by
    intro i hi rest hrest
    rw [List.length_map, List.length_zipIdx] at hi
    rw [List.getElem_map, List.getElem_zipIdx, Nat.zero_add,
      List.take_succ_eq_append_getElem hi]
    exact reads_readArgument (hf.arguments _ (List.getElem_mem hi)) hrest
  have hlist : Reads (itemsUntil ')' .argumentSeparator readArgument _) _ _
      rest := .itemsUntil (fun i => (f.arguments.take i, valueNames i)) rfl
        (by decide) isGap_blank hitems hitem (hitems.unblanked_closed rfl rest)
  rw [List.length_map, List.length_zipIdx, List.take_length] at hlist
  rw [toList_renderArguments]
  exact hlist

/-- **The types of the results are read back.** -/
theorem reads_readResults {types : List Shape}
    (htypes : ∀ type ∈ types, type.checkedByteSize.isSome)
    (rest : List Char) :
    Reads readResults (' ' :: '-' :: '>' :: ' ' :: '('
      :: ((renderTypes types).toList ++ ')' :: rest)) types rest := by
  have hitems := areItems_renderTensor (by decide : ')' ≠ 't') types
  rw [toList_renderTypes]
  refine .bind (.tryChar rfl) (.bind (.expectChar rfl)
    (.bind (.tryChar rfl) ?_))
  refine .listUntil rfl (by decide) isGap_blank hitems ?_
    (hitems.unblanked_closed rfl rest)
  intro type htype rest hrest
  exact .bind (reads_readTensorType (htypes type htype)
    (unblanked_renderTensor type rest))
    (.bind (reads_skipDictionary hrest) (.pure _ rest))

theorem toList_renderFunc (f : Func) (rest : List Char) :
    f.render.toList ++ rest = ' ' :: ' ' :: 'f' :: 'u' :: 'n' :: 'c' :: '.'
      :: 'f' :: 'u' :: 'n' :: 'c' :: ' ' :: '@' :: (f.name.toList ++ '('
      :: (f.renderArguments.toList ++ ')' :: ' ' :: '-' :: '>' :: ' ' :: '('
      :: ((renderTypes f.resultTypes).toList ++ ')' :: ' ' :: '{' :: '\n'
      :: (f.body.flatMap (fun op => op.render.toList)
        ++ (f.renderReturn.toList ++ ' ' :: ' ' :: '}' :: '\n'
          :: rest))))) := by
  have hbody : (String.join (f.body.map Operation.render)).toList
      = f.body.flatMap fun op => op.render.toList := by
    rw [String.toList_join, List.flatMap_map]
  unfold Func.render
  simp only [String.toList_append, String.reduceToList, List.append_assoc,
    List.cons_append, List.nil_append, hbody]

/-- **A function is read back.** -/
theorem reads_readFunc {f : Func} {text rest : List Char} (hf : f.Legible)
    (hcount : f.count < 2 ^ 32) (hread : ∀ op ∈ f.body, op.ReadsBack)
    (h : unblanked text = unblanked (f.render.toList ++ rest)) :
    Reads readFunc text f ('\n' :: rest) := by
  rw [toList_renderFunc] at h
  refine .bind (.expectKeyword h rfl) (.bind (.tryKeyword_ne rfl) ?_)
  refine .bind (.tryKeyword_ne rfl) ?_
  refine .bind (.expectChar rfl) ?_
  refine .bind (.word hf.name (hf.name.unblanked_append _) rfl) ?_
  refine .bind (.expectChar rfl) ?_
  refine .bind (reads_arguments hf _) ?_
  refine .bind (reads_readResults hf.resultTypes _) ?_
  refine .bind (.bind (.tryKeyword_ne rfl) (.pure () _)) ?_
  refine .bind (.expectChar rfl) ?_
  refine .bind (reads_body hf hcount hf.body hread rfl rfl) ?_
  exact .bind (.expectChar rfl) (.pure _ _)

/-! ## Modules -/

/-- The text of a function begins with a word and ends in a line feed. -/
theorem exists_renderFunc (f : Func) :
    ∃ tail, ∀ rest, unblanked (f.render.toList ++ rest)
      = 'f' :: tail ++ '\n' :: rest := by
  refine ⟨'u' :: 'n' :: 'c' :: '.' :: 'f' :: 'u' :: 'n' :: 'c' :: ' ' :: '@'
    :: (f.name.toList ++ '(' :: (f.renderArguments.toList ++ ')' :: ' '
      :: '-' :: '>' :: ' ' :: '(' :: ((renderTypes f.resultTypes).toList
      ++ ')' :: ' ' :: '{' :: '\n'
      :: (f.body.flatMap (fun op => op.render.toList)
        ++ (f.renderReturn.toList ++ [' ', ' ', '}']))))), fun rest => ?_⟩
  rw [toList_renderFunc]
  simp only [List.cons_append, List.append_assoc, List.nil_append]
  rfl

/-- **The functions of a module are read back.** -/
theorem reads_functions {functions before : List Func}
    {text : List Char} (hfunctions : ∀ f ∈ functions, f.Legible)
    (hcount : ∀ f ∈ functions, f.count < 2 ^ 32)
    (hread : ∀ f ∈ functions, ∀ op ∈ f.body, op.ReadsBack)
    (h : unblanked text = unblanked
      (functions.flatMap (fun f => f.render.toList) ++ ['}'])) :
    Reads (loop (fun functions => do
      if ← tryChar '}' then
        return .done functions
      else if ← atEnd then
        fail .moduleNotClosed
      else
        return .more (functions ++ [← readFunc])) before) text
      (before ++ functions) [] := by
  induction functions generalizing before text with
  | nil =>
    rw [List.append_nil]
    exact .loop_done (.bind (.tryChar h) (.pure _ _))
  | cons f functions ih =>
    rw [List.forall_mem_cons] at hfunctions hcount hread
    rw [List.flatMap_cons, List.append_assoc] at h
    obtain ⟨tail, htail⟩ := exists_renderFunc f
    have hstart := h.trans (htail _)
    rw [List.append_cons]
    refine .loop_more ?_ (length_lt_of_unblanked hstart (List.cons_ne_nil _ _))
      (ih hfunctions.2 hcount.2 hread.2 rfl)
    refine .bind (.tryChar_ne ?_) ?_
    · rw [hstart, List.cons_append, List.head?_cons]
      decide
    · rw [if_neg Bool.false_ne_true, hstart]
      refine .bind .atEnd (.bind (reads_readFunc hfunctions.1 hcount.1
        hread.1 ?_) (.pure _ _))
      rw [htail]
      rfl

/-- What stands between the word and the brace of a module. -/
def headText : Option String → List Char
  | none => [' ']
  | some name => ' ' :: '@' :: (name.toList ++ [' '])

theorem toList_renderModule (m : Module) :
    m.render.toList = 'm' :: 'o' :: 'd' :: 'u' :: 'l' :: 'e'
      :: (headText m.name ++ '{' :: '\n'
        :: (m.functions.flatMap (fun f => f.render.toList) ++ ['}'])) := by
  have hfunctions : (String.join (m.functions.map Func.render)).toList
      = m.functions.flatMap fun f => f.render.toList := by
    rw [String.toList_join, List.flatMap_map]
  unfold Module.render headText
  cases m.name with
  | none =>
    simp only [String.toList_append, String.reduceToList, List.cons_append,
      List.nil_append, hfunctions]
  | some name =>
    simp only [String.toList_append, String.reduceToList, List.append_assoc,
      List.cons_append, List.nil_append, hfunctions]

/-- The name of a module is read back. -/
theorem reads_readModuleName {name : Option String} (rest : List Char)
    (hname : ∀ n ∈ name, IsName n) :
    ∃ mid, Reads readModuleName (headText name ++ '{' :: rest) name mid
      ∧ unblanked mid = '{' :: rest := by
  cases name with
  | none => exact ⟨_, .bind .skipBlanks (.bind .peek (.pure none _)), rfl⟩
  | some name =>
    have hname : IsName name := hname name rfl
    refine ⟨' ' :: '{' :: rest, ?_, rfl⟩
    unfold headText
    rw [List.cons_append, List.cons_append, List.append_assoc]
    refine .bind .skipBlanks (.bind .peek (.bind .skipOne ?_))
    exact .bind (.word hname (hname.unblanked_append _) rfl) (.pure _ _)

/-- **A module is read back.** -/
theorem reads_readModule {m : Module} (hm : m.Legible)
    (hcount : ∀ f ∈ m.functions, f.count < 2 ^ 32)
    (hread : ∀ f ∈ m.functions, ∀ op ∈ f.body, op.ReadsBack) :
    Reads readModule m.render.toList m [] := by
  obtain ⟨mid, hname, hmid⟩ := reads_readModuleName ('\n'
    :: (m.functions.flatMap (fun f => f.render.toList) ++ ['}'])) hm.name
  have hhead : (headText m.name ++ '{' :: '\n' :: (m.functions.flatMap
      (fun f => f.render.toList) ++ ['}'])).head?.any isNameChar = false := by
    unfold headText
    split
    · rfl
    · rfl
  have hfunctions : Reads readBracedFunctions ('\n' :: (m.functions.flatMap
      (fun f => f.render.toList) ++ ['}'])) m.functions [] :=
    reads_functions hm.functions hcount hread rfl
  have htext : Reads readModuleText m.render.toList m [] := by
    rw [toList_renderModule]
    refine .bind (.tryKeyword rfl hhead) (.bind hname ?_)
    refine .bind (.bind (.tryKeyword_ne ?_) (.pure () _)) ?_
    · rw [hmid]
      rfl
    · rw [hmid]
      exact .bind (.expectChar rfl) (.bind hfunctions (.pure _ _))
  refine .bind htext (.bind .skipBlanks (.bind .atEnd ?_))
  rw [if_neg (by decide), if_neg (mt List.isEmpty_iff.mp hm.nonempty)]
  exact .pure m []

/-! ## The alphabet of a program -/

theorem isBasicText_renderValue (place : Nat) :
    IsBasicText (renderValue place) := by
  rw [renderValue, IsBasicText, writtenIn_append]
  exact ⟨by decide, fun c hc => isBasic_of_isDecimalDigit
    (Integer.isDecimalDigit_of_mem_toString hc)⟩

theorem isBasicText_renderValues (values : List UInt32) :
    IsBasicText (renderValues values) := by
  refine writtenIn_intercalate (by decide) fun text htext => ?_
  obtain ⟨value, -, rfl⟩ := List.mem_map.mp htext
  exact isBasicText_renderValue _

theorem isBasicText_renderTypes (types : List Shape) :
    IsBasicText (renderTypes types) := by
  refine writtenIn_intercalate (by decide) fun text htext => ?_
  obtain ⟨type, -, rfl⟩ := List.mem_map.mp htext
  exact isBasicText_renderTensor type

theorem isBasicText_renderDense {elements : Dense}
    (h : ReadsBack elements) : IsBasicText (renderDense elements) := by
  have helement : ∀ element ∈ elements, IsBasicText element.render :=
    fun element helement c hc =>
      (isScalar_of_read? (h element helement)).isBasic hc
  unfold renderDense
  split
  · simp only [writtenIn_append]
    exact ⟨⟨by decide, helement _ List.mem_cons_self⟩, by decide⟩
  · simp only [writtenIn_append]
    refine ⟨⟨by decide, writtenIn_intercalate (by decide) ?_⟩, by decide⟩
    intro text htext
    obtain ⟨element, hmem, rfl⟩ := List.mem_map.mp htext
    exact helement element hmem

theorem isBasicText_renderOperation {count : Nat} {op : Operation}
    (hop : op.Legible count) (hread : op.ReadsBack) :
    IsBasicText op.render := by
  have hoperands : IsBasicText op.renderOperands := by
    unfold Operation.renderOperands
    split
    · rename_i elements hkind
      exact isBasicText_renderDense (hread elements hkind)
    · exact isBasicText_renderValues op.operands
  rw [Operation.render]
  simp only [writtenIn_append]
  exact ⟨⟨⟨⟨⟨⟨⟨⟨by decide, isBasicText_renderValue _⟩, by decide⟩,
    hop.name.1.isBasicText⟩, by decide⟩, hoperands⟩, by decide⟩,
    isBasicText_renderTensor op.resultType⟩, by decide⟩

theorem isBasicText_renderFunc {f : Func} (hf : f.Legible)
    (hread : ∀ op ∈ f.body, op.ReadsBack) : IsBasicText f.render := by
  have harguments : IsBasicText f.renderArguments := by
    refine writtenIn_intercalate (by decide) fun text htext => ?_
    obtain ⟨⟨type, number⟩, -, rfl⟩ := List.mem_map.mp htext
    simp only [writtenIn_append]
    exact ⟨⟨isBasicText_renderValue _, by decide⟩,
      isBasicText_renderTensor type⟩
  have hbody : ∀ text ∈ f.body.map Operation.render, IsBasicText text := by
    intro text htext
    obtain ⟨op, hop, rfl⟩ := List.mem_map.mp htext
    obtain ⟨k, hk⟩ := List.mem_iff_getElem?.mp hop
    exact isBasicText_renderOperation (hf.body k op hk) (hread op hop)
  have hreturn : IsBasicText f.renderReturn := by
    unfold Func.renderReturn
    split
    · decide
    · simp only [writtenIn_append]
      exact ⟨⟨⟨⟨by decide, isBasicText_renderValues _⟩, by decide⟩,
        isBasicText_renderTypes _⟩, by decide⟩
  unfold Func.render
  simp only [writtenIn_append]
  exact ⟨⟨⟨⟨⟨⟨⟨⟨⟨by decide, hf.name.isBasicText⟩, by decide⟩, harguments⟩,
    by decide⟩, isBasicText_renderTypes f.resultTypes⟩, by decide⟩,
    writtenIn_join hbody⟩, hreturn⟩, by decide⟩

/-- **A program is written in the basic alphabet.** -/
theorem isBasicText_renderModule {m : Module} (hm : m.Legible)
    (hread : ∀ f ∈ m.functions, ∀ op ∈ f.body, op.ReadsBack) :
    IsBasicText m.render := by
  have hfunctions : ∀ text ∈ m.functions.map Func.render,
      IsBasicText text := by
    intro text htext
    obtain ⟨f, hf, rfl⟩ := List.mem_map.mp htext
    exact isBasicText_renderFunc (hm.functions f hf) (hread f hf)
  rw [Module.render, IsBasicText, writtenIn_append, writtenIn_append]
  refine ⟨⟨?_, writtenIn_join hfunctions⟩, by decide⟩
  split
  · rename_i name hname
    simp only [writtenIn_append]
    exact ⟨⟨by decide, (hm.name name hname).isBasicText⟩, by decide⟩
  · decide

/-! ## Reading what was written -/

/-- **A program that can be written is read back.** -/
theorem Module.parse_render_of_legible {m : Module} (hm : m.Legible)
    (hcount : ∀ f ∈ m.functions, f.count < 2 ^ 32)
    (hread : ∀ f ∈ m.functions, ∀ op ∈ f.body, op.ReadsBack) :
    Module.parse m.render = .ok m := by
  have hreads := reads_readModule hm hcount hread
  rw [← (isBasicText_renderModule hm hread).byteChars_eq] at hreads
  exact hreads.onText

/-- **Writing and reading a program are inverse.** A program that was read
is read back from its own text in any context, which counts it, if none of
its functions has more values than can be numbered and the text of each
floating-point number in a constant is read as that number. Truth values
and integers always are. -/
theorem Context.parse_render {c : Context} {text : String} {m : Module}
    (hm : (c.parse text).1 = .ok m)
    (hcount : ∀ f ∈ m.functions,
      f.arguments.length + f.body.length < 2 ^ 32)
    (hfloat : ∀ f ∈ m.functions, ∀ op ∈ f.body, ∀ elements,
      op.kind = .constant elements → ∀ x, .float x ∈ elements →
      DenseElement.read? x.pointed.toList = some (.float x))
    (c' : Context) :
    c'.parse m.render = (.ok m, ⟨c'.modulesParsed + 1⟩) := by
  have hparse : Module.parse text = .ok m := by
    unfold Context.parse at hm
    split at hm
    · rename_i m' hparse
      exact hparse.trans hm
    · cases hm
  have hread : ∀ f ∈ m.functions, ∀ op ∈ f.body, op.ReadsBack := by
    intro f hf op hop elements hkind element helement
    refine read?_render fun x hx => hfloat f hf op hop elements hkind x ?_
    rwa [← hx]
  rw [Context.parse, Module.parse_render_of_legible
    (Module.legible_of_parse hparse) hcount hread]

/-- One and a half. -/
def oneAndHalf : Binary Format.binary64 := .ofBits _ 0x3ff8000000000000

/-- A function that adds a constant to its argument. -/
def shift : Module :=
  ⟨none, [⟨"main", [⟨.f32, [2]⟩], [⟨.f32, [2]⟩],
    [⟨"mhlo.constant", .constant [.float oneAndHalf, .int (-2)], [], 1,
        ⟨.f32, [2]⟩⟩,
      ⟨"mhlo.add", .binary .add, [0, 1], 2, ⟨.f32, [2]⟩⟩], [2]⟩]⟩

/-- The function as it may be written by hand. -/
def shiftText : String :=
  "func.func @main(%x: tensor<2xf32>) -> tensor<2xf32> \x7b\n"
    ++ "  %c = mhlo.constant dense<[[1.5], -2]> : tensor<2xf32>\n"
    ++ "  %s = mhlo.add %x, %c : (tensor<2xf32>) -> tensor<2xf32>\n"
    ++ "  return %s : tensor<2xf32>\n\x7d"

theorem shift_parse_render :
    (Context.empty.parse shiftText).1 = .ok shift
      ∧ Context.empty.parse shift.render = (.ok shift, ⟨1⟩) := by
  have hm : (Context.empty.parse shiftText).1 = .ok shift := by
    decide +kernel
  have hfloat : DenseElement.read? oneAndHalf.pointed.toList
      = some (.float oneAndHalf) := by
    decide +kernel
  refine ⟨hm, Context.parse_render hm (by decide) ?_ Context.empty⟩
  simpa [shift] using hfloat

end Structured

end TensorBind
