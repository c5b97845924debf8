import TensorBind.Proofs.Literal
import TensorBind.Proofs.Number.Reading
import TensorBind.Proofs.Structured.Reading
import TensorBind.Structured.Printer

/-!
# The parts of a structured program are read back

Tensor types, values and dense attributes are read back from the text that
is written for them, wherever it stands. A value is written by its number,
so it is read back among the names that are written for the values before
it (`valueNames`) and not among those it was first read with.
-/

namespace TensorBind

open Cursor (unblanked)

namespace Structured

open TensorBind.Parser

/-! ## Types -/

theorem splitAtCross_ne_nil (text : List Char) : splitAtCross text ≠ [] := by
  cases text with
  | nil => exact List.cons_ne_nil _ _
  | cons c rest =>
    unfold splitAtCross
    split
    · exact List.cons_ne_nil _ _
    · split
      · exact List.cons_ne_nil _ _
      · exact List.cons_ne_nil _ _

/-- A text without the letter `x` is one part. -/
theorem splitAtCross_of_not_mem {part : List Char} (h : 'x' ∉ part) :
    splitAtCross part = [part] := by
  induction part with
  | nil => rfl
  | cons c part ih =>
    rw [List.mem_cons, not_or] at h
    rw [splitAtCross, ih h.2]
    dsimp only
    rw [if_neg fun hc => h.1 hc.symm]

theorem splitAtCross_append {part : List Char} (h : 'x' ∉ part)
    (rest : List Char) :
    splitAtCross (part ++ 'x' :: rest) = part :: splitAtCross rest := by
  induction part with
  | nil =>
    rw [List.nil_append, splitAtCross]
    split
    · rename_i hnil
      exact absurd hnil (splitAtCross_ne_nil rest)
    · rename_i part parts hparts
      rw [if_pos rfl, hparts]
  | cons c part ih =>
    rw [List.mem_cons, not_or] at h
    rw [List.cons_append, splitAtCross, ih h.2]
    dsimp only
    rw [if_neg fun hc => h.1 hc.symm]

/-- What stands between the angle brackets of a tensor type. -/
def tensorText (s : Shape) : String :=
  String.join (s.dims.map fun d => toString d.toInt ++ "x")
    ++ s.elementType.tensorName

theorem toList_tensorText (s : Shape) :
    (tensorText s).toList
      = s.dims.flatMap (fun d => (toString d.toInt).toList ++ ['x'])
        ++ s.elementType.tensorName.toList := by
  rw [tensorText, String.toList_append, String.toList_join,
    List.flatMap_map]
  simp only [String.toList_append, String.reduceToList]

theorem toList_renderTensor (s : Shape) (rest : List Char) :
    s.renderTensor.toList ++ rest = 't' :: 'e' :: 'n' :: 's' :: 'o' :: 'r'
      :: '<' :: ((tensorText s).toList ++ '>' :: rest) := by
  simp only [Shape.renderTensor, tensorText, String.toList_append,
    String.reduceToList, List.append_assoc, List.cons_append,
    List.nil_append]

theorem unblanked_renderTensor (s : Shape) (rest : List Char) :
    unblanked (s.renderTensor.toList ++ rest)
      = s.renderTensor.toList ++ rest := by
  rw [toList_renderTensor]
  rfl

/-- No dimension is written with the letter `x`. -/
theorem cross_notMem_toString (i : Int) : 'x' ∉ (toString i).toList := by
  by_cases hi : i < 0
  · obtain ⟨digits, htext, hdigits⟩ := Integer.exists_minus_toString hi
    rw [htext, List.mem_cons, not_or]
    exact ⟨by decide, fun hx => absurd (hdigits 'x' hx) (by decide)⟩
  · rw [Int.toString_eq_repr, Int.repr_eq_if, if_pos (Int.not_lt.mp hi),
      ← Nat.toString_eq_repr]
    exact fun hx =>
      absurd (Integer.isDecimalDigit_of_mem_toString hx) (by decide)

theorem splitAtCross_tensorText (s : Shape) :
    (splitAtCross (tensorText s).toList).map String.ofList
      = s.dims.map (fun d => toString d.toInt)
        ++ [s.elementType.tensorName] := by
  rw [toList_tensorText]
  obtain ⟨type, dims⟩ := s
  dsimp only
  induction dims with
  | nil =>
    have hname : 'x' ∉ type.tensorName.toList := by
      cases type <;> decide
    rw [List.flatMap_nil, List.nil_append, splitAtCross_of_not_mem hname,
      List.map_singleton, String.ofList_toList]
    rfl
  | cons d dims ih =>
    rw [List.flatMap_cons, List.append_assoc, List.append_assoc,
      List.singleton_append, splitAtCross_append (cross_notMem_toString _),
      List.map_cons, ih, String.ofList_toList]
    rfl

theorem isName_tensorText (s : Shape) : IsName (tensorText s) := by
  rw [IsName, toList_tensorText]
  refine ⟨?_, List.forall_mem_append.mpr ⟨fun c hc => ?_, ?_⟩⟩
  · cases s.elementType <;> simp [ElementType.tensorName]
  · obtain ⟨d, -, hc⟩ := List.mem_flatMap.mp hc
    rcases List.mem_append.mp hc with hc | hc
    · exact (isName_toString_int d.toInt).2 c hc
    · rw [List.mem_singleton.mp hc]
      rfl
  · have hname : IsName s.elementType.tensorName := by
      cases s.elementType <;> decide
    exact hname.2

theorem isBasicText_renderTensor (s : Shape) :
    IsBasicText s.renderTensor := by
  have htext := writtenIn_append.mp (isName_tensorText s).isBasicText
  rw [Shape.renderTensor]
  simp only [writtenIn_append]
  exact ⟨⟨⟨by decide, htext.1⟩, htext.2⟩, by decide⟩

theorem readDimension_toString {d : Int64} (hd : ¬d < 0) :
    readDimension (toString d.toInt) = return d := by
  rw [readDimension, Integer.readInt64_toString]
  dsimp only
  rw [if_neg hd]

theorem mapM_readDimension {dims : List Int64} (h : ∀ d ∈ dims, ¬d < 0) :
    (dims.map fun d => toString d.toInt).mapM readDimension
      = return dims := by
  induction dims with
  | nil => rfl
  | cons d dims ih =>
    rw [List.forall_mem_cons] at h
    rw [List.map_cons, List.mapM_cons, readDimension_toString h.1, pure_bind,
      ih h.2, pure_bind]

/-- A dimension that is negative is refused. -/
theorem refuses_readDimension {d : Int64} (hd : d < 0) (text : List Char) :
    Refuses (readDimension (toString d.toInt)) text := by
  rw [readDimension, Integer.readInt64_toString]
  dsimp only
  rw [if_pos hd]
  exact .fail

theorem refuses_mapM_readDimension {dims : List Int64}
    (h : ∃ d ∈ dims, d < 0) (text : List Char) :
    Refuses ((dims.map fun d => toString d.toInt).mapM readDimension)
      text := by
  induction dims with
  | nil =>
    obtain ⟨d, hd, -⟩ := h
    exact absurd hd List.not_mem_nil
  | cons d dims ih =>
    rw [List.map_cons, List.mapM_cons]
    by_cases hd : d < 0
    · exact .bind_left (refuses_readDimension hd text)
    · obtain ⟨e, he, hneg⟩ := h
      have hmem : e ∈ dims := (List.mem_cons.mp he).resolve_left
        fun heq => hd (heq ▸ hneg)
      rw [readDimension_toString hd, pure_bind]
      exact .bind_left (ih ⟨e, hmem, hneg⟩)

/-- What the parts of a tensor type stand for. -/
theorem tensorOfParts_eq (s : Shape) :
    tensorOfParts (s.dims.map (fun d => toString d.toInt)
      ++ [s.elementType.tensorName]) = (do
        let dims ← (s.dims.map fun d => toString d.toInt).mapM readDimension
        let shape : Shape := ⟨s.elementType, dims⟩
        if shape.checkedByteSize.isNone then
          fail (.tensorTooLarge shape.renderTensor)
        else
          return shape) := by
  have hname : ElementType.ofTensorName? s.elementType.tensorName
      = some s.elementType := by
    cases s.elementType <;> decide
  unfold tensorOfParts
  dsimp only
  rw [List.getLast?_concat, Option.getD_some, hname, List.dropLast_concat]

/-- **The parts of a tensor type** give the type back. -/
theorem reads_tensorOfParts {s : Shape} (h : s.checkedByteSize.isSome)
    (text : List Char) :
    Reads (tensorOfParts (s.dims.map (fun d => toString d.toInt)
      ++ [s.elementType.tensorName])) text s text := by
  have hsize : ¬s.checkedByteSize.isNone := by
    rwa [Bool.not_eq_true, Option.isNone_eq_false_iff]
  rw [tensorOfParts_eq, mapM_readDimension (Shape.nonneg_of_checkedByteSize h),
    pure_bind]
  dsimp only
  rw [if_neg hsize]
  exact .pure s text

/-- **A tensor type without a size is refused**: for a dimension that is
negative, or as a whole. -/
theorem refuses_tensorOfParts {s : Shape} (h : s.checkedByteSize.isNone)
    (text : List Char) :
    Refuses (tensorOfParts (s.dims.map (fun d => toString d.toInt)
      ++ [s.elementType.tensorName])) text := by
  rw [tensorOfParts_eq]
  by_cases hneg : ∃ d ∈ s.dims, d < 0
  · exact .bind_left (refuses_mapM_readDimension hneg text)
  · simp only [not_exists, not_and] at hneg
    rw [mapM_readDimension hneg, pure_bind]
    dsimp only
    rw [if_pos h]
    exact .fail

/-- **A tensor type is read back.** -/
theorem reads_readTensorType {s : Shape} {text rest : List Char}
    (hs : s.checkedByteSize.isSome)
    (h : unblanked text = s.renderTensor.toList ++ rest) :
    Reads readTensorType text s rest := by
  have hname := isName_tensorText s
  rw [toList_renderTensor] at h
  refine .bind (.expectKeyword h rfl) ?_
  refine .bind (.expectChar rfl) ?_
  refine .bind (.word hname (hname.unblanked_append _) rfl) ?_
  refine .bind .peek ?_
  rw [List.head?_cons, if_pos rfl, splitAtCross_tensorText]
  exact .bind .skipOne (reads_tensorOfParts hs rest)

/-- **A tensor type without a size is refused.** -/
theorem refuses_readTensorType {s : Shape} {text rest : List Char}
    (hs : s.checkedByteSize.isNone)
    (h : unblanked text = s.renderTensor.toList ++ rest) :
    Refuses readTensorType text := by
  have hname := isName_tensorText s
  rw [toList_renderTensor] at h
  refine .bind (.expectKeyword h rfl) ?_
  refine .bind (.expectChar rfl) ?_
  refine .bind (.word hname (hname.unblanked_append _) rfl) ?_
  refine .bind .peek ?_
  rw [List.head?_cons, if_pos rfl, splitAtCross_tensorText]
  exact .bind .skipOne (refuses_tensorOfParts hs rest)

/-! ## Values -/

/-- The name that a value is written with. -/
def valueName (place : Nat) : String := "v" ++ toString place

/-- **The names of the values** of a function that is read back. -/
def valueNames (count : Nat) : Names := (List.range count).map valueName

theorem toList_renderValue (place : Nat) (rest : List Char) :
    (renderValue place).toList ++ rest
      = '%' :: ((valueName place).toList ++ rest) := by
  simp only [renderValue, valueName, String.toList_append,
    String.reduceToList, List.cons_append, List.nil_append]

theorem isName_valueName (place : Nat) : IsName (valueName place) := by
  rw [IsName, valueName, String.toList_append]
  have hmark : IsName "v" := by decide
  refine ⟨by simp, List.forall_mem_append.mpr ⟨hmark.2, fun c hc => ?_⟩⟩
  simp [isNameChar, Integer.isDecimalDigit_of_mem_toString hc]

/-- Values have different names. -/
theorem valueName_injective {a b : Nat} (h : valueName a = valueName b) :
    a = b := by
  have hdigits : (toString a).toList = (toString b).toList := by
    have hlist := congrArg String.toList h
    rw [valueName, valueName, String.toList_append, String.toList_append]
      at hlist
    exact List.append_cancel_left hlist
  have ha := Integer.readNat_toString (Nat.le_max_left a b)
  have hb := Integer.readNat_toString (Nat.le_max_right a b)
  rw [hdigits, hb] at ha
  exact (Except.ok.inj ha).symm

theorem length_valueNames (count : Nat) :
    (valueNames count).length = count := by
  rw [valueNames, List.length_map, List.length_range]

/-- **A value is found by its name.** -/
theorem number?_valueNames {place count : Nat} (h : place < count) :
    (valueNames count).number? (valueName place)
      = some (UInt32.ofNat place) := by
  have hfind : (valueNames count).findIdx? (· = valueName place)
      = some place := by
    rw [List.findIdx?_eq_some_iff_getElem]
    refine ⟨by rwa [length_valueNames], ?_, fun j hj => ?_⟩
    · simp [valueNames]
    · simp only [valueNames, List.getElem_map, List.getElem_range,
        decide_eq_true_eq]
      exact fun hname => Nat.ne_of_lt hj (valueName_injective hname)
  rw [Names.number?, hfind]
  rfl

/-- A value that is not defined yet has a new name. -/
theorem define_valueNames (count : Nat) :
    (valueNames count).define (valueName count)
      = return valueNames (count + 1) := by
  have hnew : ¬(valueNames count).contains (valueName count) := by
    rw [List.contains_iff_mem, valueNames, List.mem_map]
    rintro ⟨place, hplace, hname⟩
    rw [valueName_injective hname, List.mem_range] at hplace
    exact Nat.lt_irrefl _ hplace
  rw [Names.define, if_neg hnew, valueNames, valueNames, List.range_succ,
    List.map_append, List.map_singleton]

theorem reads_readValueName {place : Nat} {text rest : List Char}
    (h : unblanked text = (renderValue place).toList ++ rest)
    (hrest : rest.head?.any isNameChar = false) :
    Reads readValueName text (valueName place) rest := by
  rw [toList_renderValue] at h
  have hname := isName_valueName place
  exact .bind (.expectChar h)
    (.word hname (hname.unblanked_append rest) hrest)

/-- **A value is read back** if values can be numbered. -/
theorem reads_readValue {count : Nat} {value : UInt32}
    {text rest : List Char} (hcount : count < 2 ^ 32)
    (hvalue : IsValue count value)
    (h : unblanked text = (renderValue value.toNat).toList ++ rest)
    (hrest : rest.head?.any isNameChar = false) :
    Reads (readValue (valueNames count)) text value rest := by
  obtain ⟨place, hplace, rfl⟩ := hvalue
  have hword : (UInt32.ofNat place).toNat = place :=
    UInt32.toNat_ofNat_of_lt' (Nat.lt_trans hplace hcount)
  rw [hword] at h
  refine .get fun start => .bind (reads_readValueName h hrest) ?_
  rw [number?_valueNames hplace]
  exact .pure _ rest

/-- Values begin with the mark of a value. -/
theorem areItems_renderValue {closing : Char} (hclosing : closing ≠ '%')
    (values : List UInt32) :
    AreItems closing
      (values.map fun value => (renderValue value.toNat).toList) := by
  intro piece hpiece
  obtain ⟨value, -, rfl⟩ := List.mem_map.mp hpiece
  refine ⟨'%', (valueName value.toNat).toList, ?_, rfl, hclosing.symm⟩
  rw [← List.append_nil (renderValue _).toList, toList_renderValue,
    List.append_nil]

theorem toList_renderValues (values : List UInt32) :
    (renderValues values).toList = [',', ' '].intercalate
      (values.map fun value => (renderValue value.toNat).toList) := by
  rw [renderValues, String.toList_intercalate, List.map_map]
  rfl

/-- **Values are read back** up to what follows them. -/
theorem reads_values {count : Nat} {values : List UInt32}
    {text rest : List Char} (hcount : count < 2 ^ 32)
    (hvalues : ∀ value ∈ values, IsValue count value) (hne : values ≠ [])
    (h : unblanked text = (renderValues values).toList ++ rest)
    (hrest : rest.head?.any isNameChar = false)
    (hcomma : (unblanked rest).head? ≠ some ',') :
    Reads (commaSeparated (readValue (valueNames count))) text values
      (unblanked rest) := by
  rw [toList_renderValues] at h
  refine .commaSeparated hne (fun _ => rfl)
    (areItems_renderValue (by decide) values) ?_ hcomma h
  intro value hvalue text rest' hrest' h
  refine reads_readValue hcount (hvalues value hvalue) h ?_
  rcases hrest' with hrest' | rfl
  · rw [hrest']
    rfl
  · exact hrest

/-! ## Dense attributes -/

/-- A truth value or an integer is read back. -/
theorem read?_render {element : DenseElement}
    (hfloat : ∀ x, element = .float x →
      DenseElement.read? x.pointed.toList = some (.float x)) :
    DenseElement.read? element.render.toList = some element := by
  cases element with
  | bool value => cases value <;> rfl
  | int value =>
    have hread := Integer.readInt64_toString value
    -- a word is no integer
    have hword : ∀ word : List Char,
        (Integer.readInt64 word).toOption = none →
        (toString value.toInt).toList ≠ word := by
      intro word hword heq
      rw [← heq, hread] at hword
      cases hword
    show DenseElement.read? (toString value.toInt).toList = _
    rw [DenseElement.read?, if_neg (hword _ rfl), if_neg (hword _ rfl),
      hread]
  | float x => exact hfloat x rfl

/-- **What is read as an element** is one scalar. -/
theorem isScalar_of_read? {token : List Char} {element : DenseElement}
    (h : DenseElement.read? token = some element) : IsScalar token := by
  unfold DenseElement.read? at h
  split at h
  · rename_i htrue
    rw [htrue]
    exact ⟨by decide, rfl⟩
  · split at h
    · rename_i hfalse
      rw [hfalse]
      exact ⟨by decide, rfl⟩
    · split at h
      · rename_i n hn
        obtain ⟨i, hi, -⟩ := Except.map_eq_ok.mp hn
        exact Integer.isScalar_of_readInt hi
      · obtain ⟨x, hx, -⟩ := Option.map_eq_some_iff.mp h
        exact Binary.isScalar_of_read? hx

/-- **A dense attribute whose elements are read back.** Truth values and
integers always are. -/
def ReadsBack (elements : Dense) : Prop :=
  ∀ element ∈ elements,
    DenseElement.read? element.render.toList = some element

theorem ReadsBack.areItems {elements : Dense} (h : ReadsBack elements) :
    AreItems ']' (elements.map fun element => element.render.toList) := by
  refine areItems_of_isScalar rfl fun token htoken => ?_
  obtain ⟨element, helement, rfl⟩ := List.mem_map.mp htoken
  exact isScalar_of_read? (h element helement)

/-- A round that reads an element. -/
theorem reads_denseRound_element {element : DenseElement} {depth : Nat}
    {elements : Dense} {text rest : List Char}
    (helement : DenseElement.read? element.render.toList = some element)
    (h : unblanked text = element.render.toList ++ rest)
    (hrest : rest.head?.any isScalarChar = false) :
    Reads (denseRound (depth, elements)) text
      (.more (depth, elements ++ [element])) rest := by
  have hscalar := isScalar_of_read? helement
  have hread : Reads (readElement elements) (element.render.toList ++ rest)
      (elements ++ [element]) rest := by
    refine .bind (.scalarToken hscalar (hscalar.unblanked_append rest)
      hrest) ?_
    rw [helement]
    exact .pure _ rest
  refine .bind .skipBlanks (.bind .peek ?_)
  obtain ⟨c, tail, htoken, hc⟩ := hscalar.exists_cons
  rw [htoken] at h hread
  rw [h, List.cons_append, List.head?_cons]
  -- no scalar begins with a bracket or a comma
  split
  · rename_i heq
    cases heq
  · rename_i heq
    cases heq
    exact absurd hc (by decide)
  · rename_i heq
    cases heq
    exact absurd hc (by decide)
  · rename_i heq
    cases heq
    exact absurd hc (by decide)
  · rename_i heq
    cases heq
    exact absurd hc (by decide)
  · exact .bind hread (.pure _ rest)

/-- **Elements in brackets** are read to the end of the attribute. -/
theorem reads_denseElements {elements : Dense} {text rest : List Char}
    (helements : ReadsBack elements)
    (h : unblanked text = [',', ' '].intercalate
      (elements.map fun element => element.render.toList)
        ++ ']' :: '>' :: rest) :
    Reads (loop denseRound (1, [])) text elements rest := by
  refine .bracketed rfl rfl
    (fun element helement => isScalar_of_read? (helements element helement))
    ?_ ?_ ?_ ?_ h
  · intro element helement before text rest h hrest
    exact reads_denseRound_element (helements element helement) h hrest
  · exact fun before rest =>
      .bind .skipBlanks (.bind .peek (.bind .skipOne (.pure _ _)))
  · intro before text h
    refine .bind .skipBlanks (.bind .peek ?_)
    rw [h]
    exact .bind .skipOne (.pure _ _)
  · exact .loop_done
      (.bind .skipBlanks (.bind .peek (.bind .skipOne (.pure _ rest))))

/-- What stands between the angle brackets of a dense attribute. -/
def denseText : Dense → String
  | [only] => only.render
  | elements =>
    "[" ++ ", ".intercalate (elements.map DenseElement.render) ++ "]"

theorem toList_renderDense (elements : Dense) (rest : List Char) :
    (renderDense elements).toList ++ rest = 'd' :: 'e' :: 'n' :: 's' :: 'e'
      :: '<' :: ((denseText elements).toList ++ '>' :: rest) := by
  unfold renderDense denseText
  split
  · simp only [String.toList_append, String.reduceToList, List.append_assoc,
      List.cons_append, List.nil_append]
  · simp only [String.toList_append, String.reduceToList, List.append_assoc,
      List.cons_append, List.nil_append]

/-- **A dense attribute is read back.** -/
theorem reads_readDense {elements : Dense} (helements : ReadsBack elements)
    (hne : elements ≠ []) (rest : List Char) :
    Reads readDense ((denseText elements).toList ++ '>' :: rest) elements
      rest := by
  have hloop : Reads (loop denseRound (0, []))
      ((denseText elements).toList ++ '>' :: rest) elements rest := by
    unfold denseText
    split
    · rename_i only
      have honly := helements only List.mem_cons_self
      have hscalar := isScalar_of_read? honly
      refine .loop_more (reads_denseRound_element honly
        (hscalar.unblanked_append _) rfl) ?_ (.loop_done ?_)
      · exact length_lt_of_unblanked (hscalar.unblanked_append _) hscalar.1
      · exact .bind .skipBlanks (.bind .peek (.bind .skipOne (.pure _ rest)))
    · have hitems : unblanked ([',', ' '].intercalate _
          ++ ']' :: '>' :: rest) = _ :=
        helements.areItems.unblanked_append (mt List.map_eq_nil_iff.mp hne) _
      rw [String.toList_append, String.toList_append,
        String.toList_intercalate, List.map_map, List.append_assoc,
        List.append_assoc]
      refine .loop_more
        (.bind .skipBlanks (.bind .peek (.bind .skipOne (.pure _ _))))
        (Nat.lt_succ_self _) (reads_denseElements helements hitems)
  unfold readDense
  refine .bind hloop ?_
  rw [if_neg (mt List.isEmpty_iff.mp hne)]
  exact .pure _ rest

end Structured

end TensorBind
