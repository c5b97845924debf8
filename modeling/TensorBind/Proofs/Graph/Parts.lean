import TensorBind.Proofs.Graph.Legible
import TensorBind.Proofs.Graph.Spelling

/-!
# The parts of a graph program are read back

Names, shapes, constants and operands are read back from any text that is
spelled for them. The mark of a name, the layout of an array and the shape of
an operand are read and left out, and where they are missing nothing else is
taken for them.
-/

namespace TensorBind

open Cursor (unblanked)

namespace Graph

open TensorBind.Parser

/-! ## Names -/

theorem toList_spellName_true (name : String) :
    (spellName true name).toList = '%' :: name.toList :=
  String.toList_append

/-- A character that a name can begin with, or its mark. -/
def startsName (c : Char) : Bool := isNameChar c || c == '%'

theorem isSolid_of_startsName {c : Char} (h : startsName c) :
    Cursor.isSolid c := by
  rw [startsName, Bool.or_eq_true, beq_iff_eq] at h
  rcases h with h | rfl
  · exact Cursor.isSolid_of_isNameChar h
  · rfl

theorem exists_spellName {name : String} (h : IsName name) (marked : Bool) :
    ∃ c tail, (spellName marked name).toList = c :: tail ∧ startsName c := by
  cases marked with
  | true => exact ⟨'%', _, toList_spellName_true name, rfl⟩
  | false =>
    obtain ⟨c, tail, hname, hc⟩ := h.exists_cons
    exact ⟨c, tail, hname, by rw [startsName, hc, Bool.true_or]⟩

theorem isItem_spellName {closing : Char} {name : String} (h : IsName name)
    (hclosing : startsName closing = false) (marked : Bool) :
    IsItem closing (spellName marked name).toList := by
  obtain ⟨c, tail, hname, hc⟩ := exists_spellName h marked
  refine ⟨c, tail, hname, isSolid_of_startsName hc, ?_⟩
  rintro rfl
  rw [hc] at hclosing
  cases hclosing

theorem unblanked_spellName {name : String} (h : IsName name) (marked : Bool)
    (rest : List Char) :
    unblanked ((spellName marked name).toList ++ rest)
      = (spellName marked name).toList ++ rest :=
  (isItem_spellName h (rfl : startsName ',' = false) marked).unblanked_append
    rest

/-- **A name is read back**, with its mark or without. -/
theorem reads_readName {name : String} {marked : Bool}
    {text rest : List Char} (hname : IsName name)
    (h : unblanked text = (spellName marked name).toList ++ rest)
    (hrest : rest.head?.any isNameChar = false) :
    Reads readName text name rest := by
  refine .bind .skipBlanks (.bind .peek ?_)
  rw [h]
  cases marked with
  | true =>
    rw [toList_spellName_true, List.cons_append, List.head?_cons, if_pos rfl]
    exact .bind .skipOne (.word hname (hname.unblanked_append rest) hrest)
  | false =>
    rw [spellName, if_neg (hname.head?_ne rfl rest)]
    exact .word hname (hname.unblanked_append rest) hrest

/-! ## Shapes -/

/-- The text of a dimension is digits, and it is read back. -/
theorem reads_readDimension {d : Int64} {text rest : List Char}
    (hd : ¬d < 0) (h : unblanked text = (toString d.toInt).toList ++ rest)
    (hrest : rest.head?.any isDecimalDigit = false) :
    Reads readDimension text d rest := by
  have hnonneg : 0 ≤ d.toInt := Int.not_lt.mp fun hlt =>
    hd (Int64.lt_iff_toInt_lt.mpr hlt)
  have hlt := d.toInt_lt
  rw [Integer.toString_toInt hd] at h
  obtain ⟨c, digits, hchars, hdigits⟩ :=
    Integer.exists_digit_toString d.toInt.toNat
  have hread : Integer.readWord (toString d.toInt.toNat).toList
      = .ok d.toInt.toNat := Integer.readNat_toString (by omega)
  rw [hchars] at h hread
  refine .bind (.natural (List.cons_ne_nil c digits) hdigits hread h hrest) ?_
  rw [if_neg (by omega), ← Int64.ofInt_eq_ofNat, Int.toNat_of_nonneg hnonneg,
    Int64.ofInt_toInt]
  exact .pure d rest

/-- A dimension that is negative is refused: it begins with its sign. -/
theorem refuses_readDimension {d : Int64} (hd : d < 0) (rest : List Char) :
    Refuses readDimension ((toString d.toInt).toList ++ rest) := by
  obtain ⟨digits, htext, -⟩ :=
    Integer.exists_minus_toString (Int64.lt_iff_toInt_lt.mp hd)
  rw [htext]
  exact .bind_left (.natural rfl)

theorem areItems_dimensions (dims : List Int64) :
    AreItems ']' (dims.map fun d => (toString d.toInt).toList) := by
  intro piece hpiece
  obtain ⟨d, -, rfl⟩ := List.mem_map.mp hpiece
  exact (isName_toString_int d.toInt).isItem rfl

theorem toList_renderShape (s : Shape) (rest : List Char) :
    s.render.toList ++ rest = s.elementType.name.toList ++ '['
      :: ([','].intercalate (s.dims.map fun d => (toString d.toInt).toList)
        ++ ']' :: rest) := by
  have hdims : (",".intercalate (s.dims.map fun d => toString d.toInt)).toList
      = [','].intercalate
        (s.dims.map fun d => (toString d.toInt).toList) := by
    rw [String.toList_intercalate, List.map_map]
    rfl
  unfold Shape.render
  simp only [String.toList_append, String.reduceToList, List.append_assoc,
    List.cons_append, List.nil_append, hdims]

theorem toList_spellArray (s : Shape) (layout : Option Layout)
    (rest : List Char) :
    (spellArray s layout).toList ++ rest = s.elementType.name.toList ++ '['
      :: ([','].intercalate (s.dims.map fun d => (toString d.toInt).toList)
        ++ ']' :: ((spellLayout layout).toList ++ rest)) := by
  rw [spellArray, String.toList_append, List.append_assoc,
    toList_renderShape]

theorem isName_elementType (type : ElementType) :
    IsName type.name ∧ type.name.toList.head?.any startsIdentifier := by
  cases type <;> exact ⟨by decide, by decide⟩

theorem ofName?_elementType (type : ElementType) :
    ElementType.ofName? type.name = some type := by
  cases type <;> decide

theorem isItem_spellArray {closing : Char}
    (hclosing : isNameChar closing = false) (s : Shape)
    (layout : Option Layout) : IsItem closing (spellArray s layout).toList := by
  have htext := toList_spellArray s layout []
  rw [List.append_nil] at htext
  rw [htext]
  exact ((isName_elementType s.elementType).1.isItem hclosing).append _

theorem unblanked_spellArray (s : Shape) (layout : Option Layout)
    (rest : List Char) :
    unblanked ((spellArray s layout).toList ++ rest)
      = (spellArray s layout).toList ++ rest :=
  (isItem_spellArray (rfl : isNameChar ',' = false) s
    layout).unblanked_append rest

/-- **A layout is passed over**, and nothing else is taken for one. -/
theorem reads_skipLayout {layout : Option Layout} {rest : List Char}
    (hrest : rest.head? ≠ some '{') :
    Reads skipLayout ((spellLayout layout).toList ++ rest) () rest := by
  refine .bind .peek ?_
  cases layout with
  | none =>
    show Reads (ite (rest.head? = some '{') _ _) rest () rest
    rw [if_neg hrest]
    exact .pure () rest
  | some layout =>
    have hinside : ∀ c ∈ layout.text.toList, c ≠ '{' ∧ c ≠ '}' := by
      intro c hc
      have hlayout := layout.isLayout c hc
      refine ⟨?_, ?_⟩
      · rintro rfl
        exact absurd hlayout (by decide)
      · rintro rfl
        exact absurd hlayout (by decide)
    have htext : (spellLayout (some layout)).toList ++ rest
        = '{' :: (layout.text.toList ++ '}' :: rest) := by
      simp only [spellLayout, String.toList_append, String.reduceToList,
        List.append_assoc, List.cons_append, List.nil_append]
    rw [htext, List.head?_cons, if_pos rfl]
    exact .skipGroup (by decide) hinside

/-- A dimension in a list is read back if it is not negative. -/
theorem reads_dimension {d : Int64} (hd : ¬d < 0) {rest : List Char}
    (hrest : rest.head? = some ',' ∨ rest.head? = some ']') :
    Reads readDimension ((toString d.toInt).toList ++ rest) d rest := by
  refine reads_readDimension hd
    ((isName_toString_int d.toInt).unblanked_append rest) ?_
  rcases hrest with hrest | hrest
  · rw [hrest]
    rfl
  · rw [hrest]
    rfl

/-- The dimensions of an array are read back. -/
theorem reads_dimensions {dims : List Int64} (hnonneg : ∀ d ∈ dims, ¬d < 0)
    (rest : List Char) :
    Reads (listUntil ']' .dimensionSeparator readDimension)
      ([','].intercalate (dims.map fun d => (toString d.toInt).toList)
        ++ ']' :: rest) dims rest := by
  have hitems := areItems_dimensions dims
  exact .listUntil rfl (by decide) isGap_nil hitems
    (fun d hd _ => reads_dimension (hnonneg d hd))
    (hitems.unblanked_closed rfl rest)

theorem refuses_dimensions {dims : List Int64} (hneg : ∃ d ∈ dims, d < 0)
    (rest : List Char) :
    Refuses (listUntil ']' .dimensionSeparator readDimension)
      ([','].intercalate (dims.map fun d => (toString d.toInt).toList)
        ++ ']' :: rest) := by
  have hitems := areItems_dimensions dims
  refine .listUntil rfl (by decide) isGap_nil hitems (fun d _ => ?_) ?_
    (hitems.unblanked_closed rfl rest)
  · by_cases hd : d < 0
    · exact .inr (refuses_readDimension hd)
    · exact .inl fun _ => reads_dimension hd
  · obtain ⟨d, hmem, hd⟩ := hneg
    exact ⟨d, hmem, refuses_readDimension hd⟩

/-- **The shape of an array is read back**, with a layout or without. -/
theorem reads_readArrayShape {s : Shape} {layout : Option Layout}
    {text rest : List Char} (hs : s.checkedByteSize.isSome)
    (h : unblanked text = (spellArray s layout).toList ++ rest)
    (hrest : rest.head? ≠ some '{') : Reads readArrayShape text s rest := by
  have hnonneg := Shape.nonneg_of_checkedByteSize hs
  have hsize : ¬s.checkedByteSize.isNone := by
    rwa [Bool.not_eq_true, Option.isNone_eq_false_iff]
  obtain ⟨hname, hfirst⟩ := isName_elementType s.elementType
  rw [toList_spellArray] at h
  refine .bind (.identifier hname hfirst h rfl) ?_
  rw [ofName?_elementType]
  refine .bind (.expectChar rfl) (.bind (reads_dimensions hnonneg _) ?_)
  refine .bind (reads_skipLayout hrest) ?_
  rw [if_neg hsize]
  exact .pure s rest

/-- **The shape of an array without a size is refused**: for a dimension that
is negative, or as a whole. -/
theorem refuses_readArrayShape {s : Shape} {layout : Option Layout}
    {text rest : List Char} (hs : s.checkedByteSize.isNone)
    (h : unblanked text = (spellArray s layout).toList ++ rest)
    (hrest : rest.head? ≠ some '{') : Refuses readArrayShape text := by
  obtain ⟨hname, hfirst⟩ := isName_elementType s.elementType
  rw [toList_spellArray] at h
  refine .bind (.identifier hname hfirst h rfl) ?_
  rw [ofName?_elementType]
  refine .bind (.expectChar rfl) ?_
  by_cases hneg : ∃ d ∈ s.dims, d < 0
  · exact .bind_left (refuses_dimensions hneg _)
  · simp only [not_exists, not_and] at hneg
    refine .bind (reads_dimensions hneg _) (.bind (reads_skipLayout hrest) ?_)
    rw [if_pos hs]
    exact .fail

/-! ## Declared shapes -/

theorem isItem_spellDeclared (s : DeclaredShape) (layouts : Layouts) :
    IsItem ')' (s.spell layouts).toList := by
  cases s with
  | array shape => exact isItem_spellArray rfl shape _
  | tuple shapes =>
    unfold DeclaredShape.spell
    simp only [String.toList_append, String.reduceToList, List.cons_append,
      List.nil_append]
    exact ⟨'(', _, rfl, rfl, by decide⟩

theorem unblanked_spellDeclared (s : DeclaredShape) (layouts : Layouts)
    (rest : List Char) :
    unblanked ((s.spell layouts).toList ++ rest)
      = (s.spell layouts).toList ++ rest :=
  (isItem_spellDeclared s layouts).unblanked_append rest

/-- An array at any depth but the last. -/
theorem reads_readShapeWithin_array {s : Shape} {layout : Option Layout}
    {depth : Nat} {text rest : List Char} (hs : s.checkedByteSize.isSome)
    (h : unblanked text = (spellArray s layout).toList ++ rest)
    (hrest : rest.head? ≠ some '{') :
    Reads (readShapeWithin (depth + 1)) text (.array s) rest := by
  obtain ⟨hname, -⟩ := isName_elementType s.elementType
  unfold readShapeWithin
  refine .bind (.tryChar_ne ?_) ?_
  · rw [h, toList_spellArray]
    exact hname.head?_ne rfl _
  · rw [if_neg Bool.false_ne_true, h]
    exact .bind (reads_readArrayShape hs (unblanked_spellArray s layout rest)
      hrest) (.pure _ rest)

/-- The arrays of a tuple, as they are written at their places. -/
def spelledArray (layouts : Layouts) (array : Shape × Nat) : List Char :=
  (spellArray array.1 (layouts array.2)).toList

theorem areItems_spelledArray (layouts : Layouts)
    (arrays : List (Shape × Nat)) :
    AreItems ')' (arrays.map (spelledArray layouts)) := by
  intro piece hpiece
  obtain ⟨array, -, rfl⟩ := List.mem_map.mp hpiece
  exact isItem_spellArray rfl array.1 _

theorem toList_spellTuple (shapes : List Shape) (layouts : Layouts)
    (rest : List Char) :
    ((DeclaredShape.tuple shapes).spell layouts).toList ++ rest
      = '(' :: ([',', ' '].intercalate
        (shapes.zipIdx.map (spelledArray layouts)) ++ ')' :: rest) := by
  have hshapes : (", ".intercalate (shapes.zipIdx.map fun array =>
      spellArray array.1 (layouts array.2))).toList
      = [',', ' '].intercalate (shapes.zipIdx.map (spelledArray layouts)) := by
    rw [String.toList_intercalate, List.map_map]
    rfl
  unfold DeclaredShape.spell
  simp only [String.toList_append, String.reduceToList, List.append_assoc,
    List.cons_append, List.nil_append, hshapes]

/-- **A declared shape is read back** with any of its layouts. -/
theorem reads_readShape {s : DeclaredShape} {layouts : Layouts}
    {text rest : List Char} (hs : s.Sized)
    (h : unblanked text = (s.spell layouts).toList ++ rest)
    (hrest : rest.head? ≠ some '{') : Reads readShape text s rest := by
  suffices hwithin : ∀ depth, Reads (readShapeWithin (depth + 2)) text s rest by
    -- a text with a shape in it is deep enough to hold one
    cases text with
    | nil =>
      obtain ⟨c, tail, htext, -⟩ := isItem_spellDeclared s layouts
      rw [htext] at h
      cases h
    | cons c text => exact fun before => hwithin text.length before
  intro depth
  cases s with
  | array shape =>
    exact reads_readShapeWithin_array (hs shape List.mem_cons_self) h hrest
  | tuple shapes =>
    have hitems := areItems_spelledArray layouts shapes.zipIdx
    rw [toList_spellTuple] at h
    unfold readShapeWithin
    refine .bind (.tryChar h) (.bind (.listUntil_map Prod.fst rfl (by decide)
      isGap_blank hitems ?_ (hitems.unblanked_closed rfl rest)) ?_)
    · intro array harray rest' hrest'
      refine .bind (reads_readShapeWithin_array
        (hs array.1 (List.fst_mem_of_mem_zipIdx harray))
        (unblanked_spellArray array.1 _ rest') ?_) (.pure array.1 rest')
      rcases hrest' with hrest' | hrest'
      · rw [hrest']
        decide
      · rw [hrest']
        decide
    · rw [List.zipIdx_map_fst]
      exact .pure _ rest

/-! ## Constants -/

/-- **A literal whose elements are read back.** Truth values and integers
always are. -/
def ReadsBack (value : Literal) : Prop :=
  ∀ v ∈ value.values, readValue? value.shape.elementType
    (value.shape.elementType.render v).toList = some v

/-- **Truth values and integers are read back.** -/
theorem readValue?_render {type : ElementType} (h : ¬type.isFloating)
    (v : type.Value) :
    readValue? type (type.render v).toList = some v := by
  cases type with
  | pred =>
    have hpred : ∀ b : Bool,
        readPred? (cond b "true" "false").toList = some b := by
      decide
    exact hpred v
  | s32 => exact congrArg Except.toOption (Integer.readInt32_toString v)
  | s64 => exact congrArg Except.toOption (Integer.readInt64_toString v)
  | f32 => exact absurd rfl h
  | f64 => exact absurd rfl h

theorem isScalar_of_readPred? {token : List Char} {b : Bool}
    (h : readPred? token = some b) : IsScalar token := by
  unfold readPred? at h
  split at h
  · rename_i htrue
    rcases htrue with rfl | rfl
    · exact ⟨by decide, rfl⟩
    · exact ⟨by decide, rfl⟩
  · split at h
    · rename_i hfalse
      rcases hfalse with rfl | rfl
      · exact ⟨by decide, rfl⟩
      · exact ⟨by decide, rfl⟩
    · cases h

theorem eq_ok_of_toOption {ε α : Type} {x : Except ε α} {a : α}
    (h : x.toOption = some a) : x = .ok a := by
  cases x with
  | error e => cases h
  | ok b => exact congrArg Except.ok (Option.some.inj h)

/-- **What is read as an element** is one scalar. -/
theorem isScalar_of_readValue? {type : ElementType} {token : List Char}
    {v : type.Value} (h : readValue? type token = some v) :
    IsScalar token := by
  cases type with
  | pred => exact isScalar_of_readPred? h
  | s32 =>
    obtain ⟨i, hi, -⟩ := Except.map_eq_ok.mp (eq_ok_of_toOption h)
    exact Integer.isScalar_of_readInt hi
  | s64 =>
    obtain ⟨i, hi, -⟩ := Except.map_eq_ok.mp (eq_ok_of_toOption h)
    exact Integer.isScalar_of_readInt hi
  | f32 =>
    obtain ⟨x, hx, -⟩ := Option.map_eq_some_iff.mp h
    exact Binary.isScalar_of_read? hx
  | f64 => exact Binary.isScalar_of_read? h

/-- The tokens of a literal. -/
def tokens (value : Literal) : List (List Char) :=
  value.values.map fun v => (value.shape.elementType.render v).toList

theorem ReadsBack.isScalar {value : Literal} (h : ReadsBack value) :
    ∀ token ∈ tokens value, IsScalar token := by
  intro token htoken
  obtain ⟨v, hv, rfl⟩ := List.mem_map.mp htoken
  exact isScalar_of_readValue? (h v hv)

/-- **The tokens of a literal are read** as its elements. -/
theorem ReadsBack.readValues_tokens {value : Literal} (h : ReadsBack value) :
    readValues value.shape.elementType (tokens value) = .ok value.values := by
  unfold tokens ReadsBack at *
  generalize value.values = values at h
  induction values with
  | nil => rfl
  | cons v values ih =>
    rw [List.forall_mem_cons] at h
    rw [List.map_cons, readValues, h.1]
    dsimp only
    rw [ih h.2]
    rfl

/-- A round that reads a token. -/
theorem reads_tokenRound {token : List Char} {depth : Nat}
    {before : List (List Char)} {text rest : List Char}
    (htoken : IsScalar token) (h : unblanked text = token ++ rest)
    (hrest : rest.head?.any isScalarChar = false) :
    Reads (tokenRound (depth, before)) text
      (.more (depth, before ++ [token])) rest := by
  have hread : Reads (do
      return (.more (depth, before ++ [← scalarToken])
        : Round (Nat × List (List Char)) (List (List Char))))
      (token ++ rest) (.more (depth, before ++ [token])) rest :=
    .bind (.scalarToken htoken (htoken.unblanked_append rest) hrest)
      (.pure _ rest)
  refine .bind .skipBlanks (.bind .peek ?_)
  obtain ⟨c, tail, rfl, hc⟩ := htoken.exists_cons
  rw [h, List.cons_append, List.head?_cons]
  -- no scalar begins with a brace, a comma or a parenthesis
  split
  · rename_i heq
    cases heq
  · rename_i heq
    cases heq
    exact absurd hc (by decide)
  · rename_i heq
    cases heq
    exact absurd hc (by decide)
  · rename_i heq
    cases heq
    exact absurd hc (by decide)
  · rename_i heq
    cases heq
    exact absurd hc (by decide)
  · exact hread

/-- **Tokens in braces** are read to the end of the constant. -/
theorem reads_bracedTokens {tokens : List (List Char)}
    {text rest : List Char} (htokens : ∀ token ∈ tokens, IsScalar token)
    (h : unblanked text
      = [',', ' '].intercalate tokens ++ '}' :: ')' :: rest) :
    Reads (loop tokenRound (1, [])) text tokens (')' :: rest) := by
  rw [← List.map_id tokens] at h
  refine .bracketed rfl rfl htokens ?_ ?_ ?_ ?_ h
  · exact fun token htoken before text rest h hrest =>
      reads_tokenRound (htokens token htoken) h hrest
  · exact fun before rest =>
      .bind .skipBlanks (.bind .peek (.bind .skipOne (.pure _ _)))
  · intro before text h
    refine .bind .skipBlanks (.bind .peek ?_)
    rw [h]
    exact .bind .skipOne (.pure _ _)
  · exact .loop_done (.bind .skipBlanks (.bind .peek (.pure _ _)))

/-- **The tokens of a literal are read back.** -/
theorem reads_readTokens {value : Literal} (hread : ReadsBack value)
    (rest : List Char) :
    Reads readTokens (value.renderValues.toList ++ ')' :: rest)
      (tokens value) (')' :: rest) := by
  have hscalars := hread.isScalar
  unfold readTokens
  unfold Literal.renderValues
  split
  · rename_i v _ hvalues
    unfold tokens at hscalars ⊢
    rw [hvalues, List.map_singleton] at hscalars ⊢
    have hscalar := hscalars _ List.mem_cons_self
    have hstart := hscalar.unblanked_append (')' :: rest)
    exact .loop_more (reads_tokenRound hscalar hstart rfl)
      (length_lt_of_unblanked hstart hscalar.1)
      (.loop_done (.bind .skipBlanks (.bind .peek (.pure _ _))))
  · have htokens : (", ".intercalate (value.values.map
        value.shape.elementType.render)).toList
        = [',', ' '].intercalate (tokens value) := by
      rw [String.toList_intercalate, List.map_map]
      rfl
    have hitems := areItems_of_isScalar (rfl : isScalarChar '}' = false)
      hscalars
    simp only [String.toList_append, String.reduceToList, List.append_assoc,
      List.cons_append, List.nil_append, htokens]
    exact .loop_more
      (.bind .skipBlanks (.bind .peek (.bind .skipOne (.pure _ _))))
      (Nat.lt_succ_self _)
      (reads_bracedTokens hscalars (hitems.unblanked_closed rfl _))

/-- **A constant is read back.** -/
theorem reads_readLiteral {value : Literal} (hread : ReadsBack value)
    (hsize : value.shape.literalByteSize.isSome) (rest : List Char) :
    Reads (readLiteral value.shape)
      (value.renderValues.toList ++ ')' :: rest) value (')' :: rest) := by
  have hnone : ¬value.shape.literalByteSize.isNone := by
    rwa [Bool.not_eq_true, Option.isNone_eq_false_iff]
  have hcount : ¬(tokens value).length ≠ value.shape.elementCount := by
    rw [tokens, List.length_map, value.length_eq]
    exact not_not_intro rfl
  have hlaid : Literal.ofElements value.shape
      ⟨value.shape.elementType, value.values⟩ = .ok value :=
    value.ofElements_elements
  refine .bind (reads_readTokens hread rest) ?_
  rw [if_neg hnone, if_neg hcount, hread.readValues_tokens]
  simp only [hlaid]
  exact .pure value _

/-! ## Operands -/

/-- A name is no shape, whatever its mark. -/
theorem reads_skipOperandShape_name {name : String} {marked : Bool}
    {text rest : List Char} (hname : IsName name)
    (h : unblanked text = (spellName marked name).toList ++ rest)
    (hrest : rest.head?.any isNameChar = false)
    (hbracket : rest.head? ≠ some '[') :
    Reads skipOperandShape text () ((spellName marked name).toList ++ rest) := by
  refine .bind .skipBlanks fun before => ⟨before, ?_⟩
  rw [h]
  cases marked with
  | true =>
    rw [toList_spellName_true]
    rfl
  | false =>
    have hrun : Cursor.run ⟨before, name.toList ++ rest⟩ isNameChar
        = name.toList := takeWhile_append hname.2 hrest
    have hparen : ¬Cursor.peek? ⟨before, name.toList ++ rest⟩ = some '(' :=
      hname.head?_ne rfl rest
    have hnext : ¬Cursor.peek? (Cursor.advance ⟨before, name.toList ++ rest⟩
        name.toList.length) = some '[' := by
      rwa [Cursor.advance_append]
    rw [spellName]
    dsimp only
    rw [hrun, if_neg hparen, decide_eq_false hnext, Bool.and_false,
      if_neg Bool.false_ne_true]

/-- An element type is a shape if a bracket follows at once. -/
theorem reads_skipOperandShape_array {type : ElementType} {s : Shape}
    {text tail rest : List Char}
    (h : unblanked text = type.name.toList ++ '[' :: tail)
    (hread : Reads readArrayShape (type.name.toList ++ '[' :: tail) s rest) :
    Reads skipOperandShape text () rest := by
  obtain ⟨hname, hfirst⟩ := isName_elementType type
  obtain ⟨c, chars, hchars, -⟩ := hname.exists_cons
  refine .bind .skipBlanks fun before => ?_
  rw [h]
  obtain ⟨after, hafter⟩ := hread before
  have hrun : Cursor.run ⟨before, type.name.toList ++ '[' :: tail⟩ isNameChar
      = type.name.toList := takeWhile_append hname.2 rfl
  have hparen : ¬Cursor.peek? ⟨before, type.name.toList ++ '[' :: tail⟩
      = some '(' := hname.head?_ne rfl _
  have hstart : (Cursor.peek? ⟨before, type.name.toList ++ '[' :: tail⟩).any
      startsIdentifier := by
    rw [hchars] at hfirst ⊢
    exact hfirst
  have hnext : Cursor.peek? (Cursor.advance ⟨before, type.name.toList
      ++ '[' :: tail⟩ type.name.toList.length) = some '[' := by
    rw [Cursor.advance_append]
    rfl
  refine ⟨after, ?_⟩
  dsimp only
  rw [hrun, if_neg hparen, String.ofList_toList, ofName?_elementType, hstart,
    decide_eq_true hnext, Option.isSome_some, Bool.and_true, Bool.true_and,
    if_pos rfl, hafter]
  rfl

/-- **The shape of an operand is passed over.** -/
theorem reads_skipOperandShape {s : DeclaredShape} {layouts : Layouts}
    {text rest : List Char} (hs : s.Sized)
    (h : unblanked text = (s.spell layouts).toList ++ rest)
    (hrest : rest.head? ≠ some '{') :
    Reads skipOperandShape text () rest := by
  have hstart := unblanked_spellDeclared s layouts rest
  cases s with
  | array shape =>
    have hread := reads_readArrayShape (hs shape List.mem_cons_self) hstart
      hrest
    rw [DeclaredShape.spell, toList_spellArray] at h hread
    exact reads_skipOperandShape_array h hread
  | tuple shapes =>
    have hread := reads_readShape hs hstart hrest
    rw [toList_spellTuple] at h hread
    refine .bind .skipBlanks fun before => ?_
    obtain ⟨after, hafter⟩ := hread before
    have hparen : ∀ tail, Cursor.peek? ⟨before, '(' :: tail⟩ = some '(' :=
      fun _ => rfl
    refine ⟨after, ?_⟩
    rw [h]
    dsimp only
    rw [if_pos (hparen _), hafter]
    rfl

/-- **What may stand before the name of an operand is passed over.** -/
theorem exists_reads_skipOperandShape {i : Instruction} {s : OperandSpelling}
    {text rest : List Char} (hname : IsName i.name) (hshape : i.shape.Sized)
    (h : unblanked text = (i.spellReference s).toList ++ rest)
    (hrest : rest.head?.any isNameChar = false)
    (hbracket : rest.head? ≠ some '[') :
    ∃ mid, Reads skipOperandShape text () mid
      ∧ unblanked mid = (spellName s.marked i.name).toList ++ rest := by
  have hstart := unblanked_spellName hname s.marked rest
  unfold Instruction.spellReference at h
  cases hspelled : s.shape with
  | none =>
    rw [hspelled, String.empty_append] at h
    exact ⟨_, reads_skipOperandShape_name hname h hrest hbracket, hstart⟩
  | some layouts =>
    rw [hspelled, String.toList_append, String.toList_append,
      List.append_assoc, List.append_assoc] at h
    refine ⟨_, reads_skipOperandShape hshape h ?_, hstart⟩
    show some ' ' ≠ some '{'
    decide

/-- **An operand is found by its name** if no instruction before it has the
same. -/
theorem findIdx?_name {instructions : List Instruction} {operand : Nat}
    {i : Instruction} (hi : instructions[operand]? = some i)
    (hfresh : ∀ j ∈ instructions.take operand, j.name ≠ i.name) :
    instructions.findIdx? (·.name = i.name) = some operand := by
  obtain ⟨hlt, hget⟩ := List.getElem?_eq_some_iff.mp hi
  rw [List.findIdx?_eq_some_iff_getElem]
  refine ⟨hlt, ?_, fun k hk => ?_⟩
  · rw [hget]
    exact decide_eq_true rfl
  · have hmem : instructions[k] ∈ instructions.take operand :=
      List.mem_take_iff_getElem.mpr ⟨k, by omega, rfl⟩
    rw [decide_eq_true_eq]
    exact hfresh _ hmem

/-- **An operand is read back** among legible instructions. -/
theorem reads_readOperand {earlier : List Instruction} {operand : Nat}
    {i : Instruction} {s : OperandSpelling} {text rest : List Char}
    (hearlier : AreLegible earlier) (hi : earlier[operand]? = some i)
    (h : unblanked text = (i.spellReference s).toList ++ rest)
    (hrest : rest.head? = some ',' ∨ rest.head? = some ')') :
    Reads (readOperand earlier) text operand rest := by
  have hlegible := hearlier operand i hi
  have hname : rest.head?.any isNameChar = false := by
    rcases hrest with hrest | hrest
    · rw [hrest]
      rfl
    · rw [hrest]
      rfl
  have hbracket : rest.head? ≠ some '[' := by
    rcases hrest with hrest | hrest
    · rw [hrest]
      decide
    · rw [hrest]
      decide
  obtain ⟨mid, hskip, hmid⟩ := exists_reads_skipOperandShape hlegible.name
    hlegible.shape h hname hbracket
  refine .bind hskip (.bind (reads_readName hlegible.name hmid hname) ?_)
  rw [findIdx?_name hi hlegible.fresh]
  exact .pure operand rest

/-- **Operands that are written by the names** of their instructions, each
at its place. -/
def AreNamed (earlier : List Instruction) (write : Nat × Nat → List Char)
    (operands : List (Nat × Nat)) : Prop :=
  ∀ operand ∈ operands, ∃ i s, earlier[operand.1]? = some i
    ∧ write operand = (i.spellReference s).toList

theorem isItem_spellReference {i : Instruction} (h : IsName i.name)
    (s : OperandSpelling) : IsItem ')' (i.spellReference s).toList := by
  unfold Instruction.spellReference
  cases s.shape with
  | none =>
    rw [String.empty_append]
    exact isItem_spellName h rfl s.marked
  | some layouts =>
    rw [String.toList_append, String.toList_append]
    exact ((isItem_spellDeclared i.shape layouts).append _).append _

theorem AreNamed.areItems {earlier : List Instruction}
    {write : Nat × Nat → List Char} {operands : List (Nat × Nat)}
    (h : AreNamed earlier write operands) (hearlier : AreLegible earlier) :
    AreItems ')' (operands.map write) := by
  intro piece hpiece
  obtain ⟨operand, hoperand, rfl⟩ := List.mem_map.mp hpiece
  obtain ⟨i, s, hi, hwrite⟩ := h operand hoperand
  rw [hwrite]
  exact isItem_spellReference (hearlier operand.1 i hi).name s

/-- One operand after the other. -/
theorem reads_operandLoop {earlier : List Instruction}
    {operands : List (Nat × Nat)} {before : List Nat}
    {write : Nat × Nat → List Char} {text rest : List Char}
    (hearlier : AreLegible earlier)
    (hoperands : AreNamed earlier write operands) (hne : operands ≠ [])
    (h : unblanked text
      = [',', ' '].intercalate (operands.map write) ++ ')' :: rest) :
    Reads (loop (operandRound earlier) before) text
      (before ++ operands.map Prod.fst) rest := by
  induction operands generalizing before text with
  | nil => exact absurd rfl hne
  | cons operand operands ih =>
    obtain ⟨⟨i, s, hi, hwrite⟩, hmore⟩ := List.forall_mem_cons.mp hoperands
    cases operands with
    | nil =>
      rw [List.map_singleton, List.intercalate_singleton, hwrite] at h
      exact .loop_done (.bind (reads_readOperand hearlier hi h (.inr rfl))
        (.bind (.tryChar rfl) (.pure _ rest)))
    | cons next operands =>
      have hitems := AreNamed.areItems hmore hearlier
      have hnext : unblanked (' ' :: ([',', ' '].intercalate _
          ++ ')' :: rest)) = _ := hitems.unblanked_closed rfl rest
      rw [List.map_cons, List.map_cons, List.intercalate_cons_cons,
        ← List.map_cons, List.append_assoc, List.append_assoc, hwrite] at h
      rw [List.map_cons, List.append_cons]
      refine .loop_more ?_ ?_ (ih hmore (List.cons_ne_nil _ _) hnext)
      · refine .bind (reads_readOperand hearlier hi h (.inl rfl)) ?_
        refine .bind (.tryChar_ne ?_) (.bind (.expectChar rfl) (.pure _ _))
        show some ',' ≠ some ')'
        decide
      · have hitem := isItem_spellReference (hearlier operand.1 i hi).name s
        exact Nat.lt_trans (Nat.lt_succ_self _)
          (length_lt_of_unblanked h hitem.ne_nil)

/-- **Operands are read back** up to the parenthesis that closes them. -/
theorem reads_readOperands {earlier : List Instruction}
    {operands : List (Nat × Nat)} {write : Nat × Nat → List Char}
    (rest : List Char) (hearlier : AreLegible earlier)
    (hoperands : AreNamed earlier write operands) :
    Reads (readOperands earlier)
      ([',', ' '].intercalate (operands.map write) ++ ')' :: rest)
      (operands.map Prod.fst) rest := by
  have hitems := hoperands.areItems hearlier
  have hstart : unblanked ([',', ' '].intercalate _ ++ ')' :: rest) = _ :=
    hitems.unblanked_closed rfl rest
  unfold readOperands
  by_cases hne : operands = []
  · rw [hne]
    exact .bind (.tryChar rfl) (.pure [] rest)
  · refine .bind (.tryChar_ne ?_) ?_
    · rw [hstart]
      exact hitems.head?_ne (mt List.map_eq_nil_iff.mp hne) _
    · rw [if_neg Bool.false_ne_true, hstart]
      exact reads_operandLoop hearlier hoperands hne hstart

end Graph

end TensorBind
