import TensorBind.Proofs.Literal.Text

/-!
# The lines of a graph program are read back

A line is written in an alphabet of its own, except for the attributes at its
end, which are any text without the end of a line. It is read back behind the
lines before it, whatever stands in it besides (`reads_readLine`), unless it
is not the root, is called `ROOT` and has no mark: then its name is taken for
the mark of the root, and it is refused (`refuses_readLine`). A body is read
line by line (`reads_bodyLoop`, `refuses_bodyLoop`).

Behind attributes the reader stands in front of the next line, and behind a
line without them it has already passed over the blanks. Where it stops is
therefore known up to blanks only (`unblanked_behind`).
-/

namespace TensorBind

open Cursor (unblanked)

namespace Graph

open TensorBind.Parser

/-! ## The alphabet of a program -/

/-- **The characters that a program is written in**: those of names and their
mark, blanks, ends of lines and the marks between them. -/
def isProgramChar (c : Char) : Bool :=
  isNameChar c || ['%', '(', ')', '[', ']', '{', '}', ',', ':', '=', '>', ' ',
    '\n'].contains c

theorem isProgramChar_of_isNameChar {c : Char} (h : isNameChar c) :
    isProgramChar c := by
  rw [isProgramChar, h, Bool.true_or]

theorem isBasic_of_isProgramChar {c : Char} (h : isProgramChar c) :
    isBasic c := by
  rw [isProgramChar, Bool.or_eq_true, List.contains_iff_mem] at h
  rcases h with h | h
  · exact isBasic_of_isNameChar h
  · exact List.all_eq_true.mp rfl c h

theorem byteChars_of_isProgramText {text : String}
    (h : WrittenIn isProgramChar text) : byteChars text = text.toList :=
  IsBasicText.byteChars_eq (h.mono isBasic_of_isProgramChar)

theorem isProgramText_of_isName {name : String} (h : IsName name) :
    WrittenIn isProgramChar name :=
  fun c hc => isProgramChar_of_isNameChar (h.2 c hc)

theorem isProgramText_spellName {name : String} (h : IsName name)
    (marked : Bool) : WrittenIn isProgramChar (spellName marked name) := by
  cases marked with
  | true => exact writtenIn_append.mpr ⟨by decide, isProgramText_of_isName h⟩
  | false => exact isProgramText_of_isName h

theorem isProgramText_spellLayout (layout : Option Layout) :
    WrittenIn isProgramChar (spellLayout layout) := by
  cases layout with
  | none => exact fun c hc => absurd hc List.not_mem_nil
  | some layout =>
    rw [spellLayout]
    simp only [writtenIn_append]
    refine ⟨⟨by decide, layout.isLayout.mono fun {c} hc => ?_⟩, by decide⟩
    rw [isLayoutChar, Bool.or_eq_true, beq_iff_eq] at hc
    rcases hc with hc | rfl
    · exact isProgramChar_of_isNameChar (by simp [isNameChar, hc])
    · rfl

theorem isProgramText_spellArray (s : Shape) (layout : Option Layout) :
    WrittenIn isProgramChar (spellArray s layout) := by
  have hdims : ∀ text ∈ s.dims.map fun d => toString d.toInt,
      WrittenIn isProgramChar text := by
    intro text htext
    obtain ⟨d, -, rfl⟩ := List.mem_map.mp htext
    exact isProgramText_of_isName (isName_toString_int d.toInt)
  rw [spellArray, Shape.render]
  simp only [writtenIn_append]
  exact ⟨⟨⟨⟨isProgramText_of_isName (isName_elementType s.elementType).1,
    by decide⟩, writtenIn_intercalate (by decide) hdims⟩, by decide⟩,
    isProgramText_spellLayout layout⟩

theorem isProgramText_spellDeclared (s : DeclaredShape) (layouts : Layouts) :
    WrittenIn isProgramChar (s.spell layouts) := by
  cases s with
  | array shape => exact isProgramText_spellArray shape _
  | tuple shapes =>
    rw [DeclaredShape.spell]
    simp only [writtenIn_append]
    refine ⟨⟨by decide, writtenIn_intercalate (by decide) ?_⟩, by decide⟩
    intro text htext
    obtain ⟨array, -, rfl⟩ := List.mem_map.mp htext
    exact isProgramText_spellArray array.1 _

theorem isProgramText_renderValues (value : Literal) :
    WrittenIn isProgramChar value.renderValues := by
  have hvalue : ∀ v, WrittenIn isProgramChar
      (value.shape.elementType.render v) := fun v c hc =>
    isProgramChar_of_isNameChar
      (value.shape.elementType.isNameChar_of_mem_render v c hc)
  unfold Literal.renderValues
  split
  · exact hvalue _
  · simp only [writtenIn_append]
    refine ⟨⟨by decide, writtenIn_intercalate (by decide) ?_⟩, by decide⟩
    intro text htext
    obtain ⟨v, -, rfl⟩ := List.mem_map.mp htext
    exact hvalue v

theorem isProgramText_spellReference {i : Instruction} (h : IsName i.name)
    (s : OperandSpelling) : WrittenIn isProgramChar (i.spellReference s) := by
  have hname := isProgramText_spellName h s.marked
  rw [Instruction.spellReference, writtenIn_append]
  refine ⟨?_, hname⟩
  split
  · exact writtenIn_append.mpr
      ⟨isProgramText_spellDeclared i.shape _, by decide⟩
  · decide

/-! ## Instructions -/

theorem isName_opcode (opcode : Opcode) :
    IsName opcode.name ∧ opcode.name.toList.head?.any startsIdentifier := by
  cases opcode with
  | parameter number =>
    rw [Opcode.name]
    exact ⟨by decide, by decide⟩
  | constant value =>
    rw [Opcode.name]
    exact ⟨by decide, by decide⟩
  | unary op => cases op <;> exact ⟨by decide, by decide⟩
  | binary op => cases op <;> exact ⟨by decide, by decide⟩
  | tuple => exact ⟨by decide, by decide⟩

/-- **An instruction whose constant, if it is one, is read back.** -/
def Instruction.ReadsBack (i : Instruction) : Prop :=
  ∀ value, i.opcode = .constant value → Graph.ReadsBack value

/-- An instruction whose constant, if it is one of floating-point numbers, is
read back. -/
def Instruction.FloatsReadBack (i : Instruction) : Prop :=
  ∀ value, i.opcode = .constant value →
    value.shape.elementType.isFloating → Graph.ReadsBack value

/-- Whatever is no floating-point number is read back. -/
theorem Instruction.FloatsReadBack.readsBack {i : Instruction}
    (h : i.FloatsReadBack) : i.ReadsBack := by
  intro value hvalue
  by_cases hfloating : value.shape.elementType.isFloating
  · exact h value hvalue hfloating
  · exact fun v _ => readValue?_render hfloating v

/-- An operand as it is written at its place. -/
def spelledOperand (e : Entry) (s : Nat → OperandSpelling)
    (operand : Nat × Nat) : List Char :=
  (e.spellOperand (s operand.2) operand.1).toList

/-- What an operation is written with refers to its operands. -/
theorem toList_spellOperands {e : Entry} {i : Instruction}
    (h : opcodeOfName? i.opcode.name = some i.opcode)
    (s : Nat → OperandSpelling) :
    (e.spellOperands s i).toList = [',', ' '].intercalate
      (i.operands.zipIdx.map (spelledOperand e s)) := by
  unfold Entry.spellOperands
  split
  · rename_i number hopcode
    rw [hopcode] at h
    cases h
  · rename_i value hopcode
    rw [hopcode] at h
    cases h
  · rw [String.toList_intercalate, List.map_map]
    rfl

/-- The operands of an instruction are written by their names. -/
theorem areNamed_operands {e : Entry} {position : Nat} {i : Instruction}
    (hi : i.Legible (e.instructions.take position))
    (s : Nat → OperandSpelling) :
    AreNamed (e.instructions.take position) (spelledOperand e s)
      i.operands.zipIdx := by
  intro operand hoperand
  have hlt := hi.operand_lt operand.1 (List.fst_mem_of_mem_zipIdx hoperand)
  have hposition := Nat.lt_of_lt_of_le hlt (List.length_take_le _ _)
  have hget := List.getElem?_eq_getElem hlt
  refine ⟨_, s operand.2, hget, ?_⟩
  rw [List.getElem?_take_of_lt hposition] at hget
  rw [spelledOperand, Entry.spellOperand, hget]

theorem reads_checkArity {name : String} {opcode : Opcode}
    {operands : List Nat}
    (h : ∀ n, arity? opcode = some n → operands.length = n)
    (text : List Char) :
    Reads (checkArity name opcode operands) text () text := by
  unfold checkArity
  split
  · exact .pure () text
  · rename_i expected hexpected
    rw [if_pos (h expected hexpected)]
    exact .pure () text

/-- **What an instruction does is read back.** -/
theorem reads_readOpcode {e : Entry} {earlier : List Instruction}
    {i : Instruction} {s : Nat → OperandSpelling}
    (hearlier : AreLegible earlier) (hi : i.Legible earlier)
    (hread : i.ReadsBack)
    (hnamed : AreNamed earlier (spelledOperand e s) i.operands.zipIdx)
    (rest : List Char) :
    Reads (readOpcode earlier i.shape) (' ' :: (i.opcode.name.toList ++ '('
      :: ((e.spellOperands s i).toList ++ ')' :: rest)))
      (i.opcode, i.operands) rest := by
  obtain ⟨hname, hfirst⟩ := isName_opcode i.opcode
  refine .get fun start => ?_
  refine .bind (.identifier hname hfirst (hname.unblanked_append _) rfl) ?_
  refine .bind (.expectChar rfl) ?_
  cases hi.described with
  | parameter number hopcode hoperands hfits =>
    obtain ⟨c, digits, hchars, hdigits⟩ :=
      Integer.exists_digit_toString number
    have htext : (e.spellOperands s i).toList = c :: digits := by
      rw [Entry.spellOperands, hopcode]
      exact hchars
    have hnumber : Integer.readWord (c :: digits) = .ok number := by
      rw [← hchars]
      exact Integer.readNat_toString (Nat.le_pred_of_lt hfits)
    have hstart : unblanked (c :: digits ++ ')' :: rest) = _ :=
      Cursor.unblanked_cons (Cursor.isSolid_of_isNameChar
        (by simp [isNameChar, hdigits c List.mem_cons_self])) _
    rw [hopcode, hoperands, htext, Opcode.name, if_pos rfl]
    refine .bind (.natural (List.cons_ne_nil c digits) hdigits hnumber hstart
      rfl) ?_
    exact .bind (.expectChar rfl) (.pure _ rest)
  | constant value hopcode hoperands hshape hsize =>
    have htext : e.spellOperands s i = value.renderValues := by
      rw [Entry.spellOperands, hopcode]
    rw [hopcode, hoperands, htext, Opcode.name, if_neg (by decide),
      if_pos rfl, hshape]
    refine .bind (reads_readLiteral (hread value hopcode) hsize _) ?_
    exact .bind (.expectChar rfl) (.pure _ rest)
  | operation hopcode harity =>
    have hparameter : i.opcode.name ≠ "parameter" := by
      intro h
      rw [h] at hopcode
      cases hopcode
    have hconstant : i.opcode.name ≠ "constant" := by
      intro h
      rw [h] at hopcode
      cases hopcode
    have hoperands := reads_readOperands rest hearlier hnamed
    rw [List.zipIdx_map_fst] at hoperands
    rw [if_neg hparameter, if_neg hconstant, toList_spellOperands hopcode]
    unfold readOperation
    rw [hopcode]
    refine .bind hoperands ?_
    exact .bind (reads_checkArity harity rest) (.pure _ rest)

/-! ## Attributes -/

/-- **Where the reader stands behind a line**: behind the blanks that follow,
unless it went to the end of the line for its attributes. -/
def behind (attributes : Option Attributes) (rest : List Char) : List Char :=
  match attributes with
  | some _ => rest
  | none => unblanked rest

theorem unblanked_behind (attributes : Option Attributes)
    (rest : List Char) :
    unblanked (behind attributes rest) = unblanked rest := by
  cases attributes with
  | none => exact Cursor.unblanked_unblanked rest
  | some attributes => rfl

theorem length_behind_le (attributes : Option Attributes)
    (rest : List Char) : (behind attributes rest).length ≤ rest.length := by
  cases attributes with
  | none => exact Cursor.length_unblanked_le rest
  | some attributes => exact Nat.le_refl _

/-- Attributes do not go on in another line. -/
theorem newline_notMem_spellAttributes (attributes : Option Attributes) :
    '\n' ∉ byteChars (spellAttributes attributes) := by
  intro hmem
  have hwritten := mem_toList_of_mem_byteChars hmem rfl
  cases attributes with
  | none => exact absurd hwritten List.not_mem_nil
  | some attributes =>
    rw [spellAttributes, String.toList_append, List.mem_append] at hwritten
    rcases hwritten with hcomma | htext
    · exact absurd hcomma (by decide)
    · exact attributes.isLine htext

theorem byteChars_spellAttributes (attributes : Attributes) :
    byteChars (spellAttributes (some attributes))
      = ',' :: ' ' :: byteChars attributes.text := by
  have hcomma : byteChars ", " = [',', ' '] :=
    byteChars_of_isProgramText (by decide)
  rw [spellAttributes, byteChars_append, hcomma]
  rfl

/-! ## Lines -/

/-- **The line of an instruction** behind the mark of the root, if it has
one. -/
def lineText (e : Entry) (s : InstructionSpelling) (i : Instruction)
    (rest : List Char) : List Char :=
  (spellName s.marked i.name).toList ++ ' ' :: '=' :: ' '
    :: ((i.shape.spell s.layouts).toList ++ ' ' :: (i.opcode.name.toList
      ++ '(' :: ((e.spellOperands s.operands i).toList ++ ')'
        :: (byteChars (spellAttributes s.attributes) ++ '\n' :: rest))))

/-- **An instruction is read back** behind those before it, up to the next
line. -/
theorem reads_readInstruction {e : Entry} {earlier : List Instruction}
    {i : Instruction} {s : InstructionSpelling} {text rest : List Char}
    (hearlier : AreLegible earlier) (hi : i.Legible earlier)
    (hread : i.ReadsBack)
    (hnamed : AreNamed earlier (spelledOperand e s.operands)
      i.operands.zipIdx)
    (hrest : (unblanked rest).head? ≠ some ',')
    (h : unblanked text = lineText e s i rest) :
    Reads (readInstruction earlier) text i (behind s.attributes rest) := by
  unfold lineText at h
  refine .bind (reads_readName hi.name h rfl) (.bind (.expectChar rfl) ?_)
  refine .bind (reads_readShape hi.shape
    (unblanked_spellDeclared i.shape s.layouts _) ?_) ?_
  · show some ' ' ≠ some '{'
    decide
  refine .bind (reads_readOpcode hearlier hi hread hnamed _) ?_
  have hline := newline_notMem_spellAttributes s.attributes
  cases hattributes : s.attributes with
  | none => exact .bind (.tryChar_ne hrest) (.pure i _)
  | some attributes =>
    rw [hattributes, byteChars_spellAttributes] at hline
    rw [byteChars_spellAttributes]
    refine .bind (.tryChar rfl) (.bind (.skipLine ?_) (.pure i rest))
    exact fun hmem => hline (List.mem_cons_of_mem _ hmem)

section Lines

variable {e : Entry} {position : Nat} {i : Instruction}
  {s : InstructionSpelling} {text rest : List Char}

theorem isProgramText_spellOperands (he : e.Legible)
    (hi : e.instructions[position]? = some i) (s : Nat → OperandSpelling) :
    WrittenIn isProgramChar (e.spellOperands s i) := by
  have hlegible := he.instructions position i hi
  unfold Entry.spellOperands
  split
  · exact isProgramText_of_isName (isName_toString _)
  · exact isProgramText_renderValues _
  · refine writtenIn_intercalate (by decide) fun text htext => ?_
    obtain ⟨operand, hoperand, rfl⟩ := List.mem_map.mp htext
    obtain ⟨j, s', hj, hwrite⟩ := areNamed_operands hlegible s operand hoperand
    rw [String.toList_inj.mp hwrite]
    exact isProgramText_spellReference
      ((he.instructions.take position) operand.1 j hj).name s'

theorem isProgramText_spellLine (he : e.Legible)
    (hi : e.instructions[position]? = some i) (s : InstructionSpelling) :
    WrittenIn isProgramChar (e.spellLine s i position) := by
  have hlegible := he.instructions position i hi
  have hmark : WrittenIn isProgramChar
      (if position = e.root then "ROOT " else "") := by
    split
    · decide
    · decide
  rw [Entry.spellLine]
  simp only [writtenIn_append]
  exact ⟨⟨⟨⟨⟨⟨⟨⟨⟨by decide, hmark⟩,
    isProgramText_spellName hlegible.name s.marked⟩, by decide⟩,
    isProgramText_spellDeclared i.shape s.layouts⟩, by decide⟩,
    isProgramText_of_isName (isName_opcode i.opcode).1⟩, by decide⟩,
    isProgramText_spellOperands he hi s.operands⟩, by decide⟩

theorem byteChars_spellInstruction (he : e.Legible)
    (hi : e.instructions[position]? = some i) (s : InstructionSpelling)
    (rest : List Char) :
    byteChars (e.spellInstruction s i position) ++ rest
      = (e.spellLine s i position).toList
        ++ (byteChars (spellAttributes s.attributes) ++ '\n' :: rest) := by
  have hline := byteChars_of_isProgramText (isProgramText_spellLine he hi s)
  have hend : byteChars "\n" = ['\n'] :=
    byteChars_of_isProgramText (by decide)
  rw [Entry.spellInstruction, byteChars_append, byteChars_append, hline, hend,
    List.append_assoc, List.append_assoc]
  rfl

/-- The line of the root begins with its mark. -/
theorem byteChars_spellInstruction_root (he : e.Legible)
    (hi : e.instructions[e.root]? = some i) (s : InstructionSpelling)
    (rest : List Char) :
    byteChars (e.spellInstruction s i e.root) ++ rest
      = ' ' :: ' ' :: 'R' :: 'O' :: 'O' :: 'T' :: ' '
        :: lineText e s i rest := by
  rw [byteChars_spellInstruction he hi, Entry.spellLine, if_pos rfl, lineText]
  simp only [String.toList_append, String.reduceToList, List.append_assoc,
    List.cons_append, List.nil_append]

theorem byteChars_spellInstruction_other (he : e.Legible)
    (hi : e.instructions[position]? = some i) (h : position ≠ e.root)
    (s : InstructionSpelling) (rest : List Char) :
    byteChars (e.spellInstruction s i position) ++ rest
      = ' ' :: ' ' :: lineText e s i rest := by
  rw [byteChars_spellInstruction he hi, Entry.spellLine, if_neg h, lineText]
  simp only [String.toList_append, String.reduceToList, List.append_assoc,
    List.cons_append, List.nil_append]

/-- The text of a line begins as a name does. -/
theorem exists_lineText (e : Entry) (s : InstructionSpelling)
    (h : IsName i.name) :
    ∃ c line, startsName c ∧ ∀ rest, lineText e s i rest
      = c :: line ++ rest := by
  obtain ⟨c, tail, hname, hc⟩ := exists_spellName h s.marked
  unfold lineText
  refine ⟨c, tail ++ ' ' :: '=' :: ' ' :: ((i.shape.spell s.layouts).toList
    ++ ' ' :: (i.opcode.name.toList ++ '(' :: ((e.spellOperands s.operands
      i).toList ++ ')' :: (byteChars (spellAttributes s.attributes)
        ++ ['\n'])))), hc, fun rest => ?_⟩
  rw [hname]
  simp only [List.cons_append, List.append_assoc, List.nil_append]

theorem unblanked_lineText (e : Entry) (s : InstructionSpelling)
    (h : IsName i.name) (rest : List Char) :
    unblanked (lineText e s i rest) = lineText e s i rest :=
  unblanked_spellName h s.marked _

theorem exists_spellInstruction (he : e.Legible)
    (hi : e.instructions[position]? = some i) (s : InstructionSpelling) :
    ∃ c line, startsName c
      ∧ ∀ rest, unblanked (byteChars (e.spellInstruction s i position) ++ rest)
        = c :: line ++ rest := by
  have hname := (he.instructions position i hi).name
  obtain ⟨c, line, hc, hline⟩ := exists_lineText e s hname
  by_cases hroot : position = e.root
  · subst hroot
    refine ⟨'R', 'O' :: 'O' :: 'T' :: ' ' :: c :: line, rfl, fun rest => ?_⟩
    rw [byteChars_spellInstruction_root he hi, hline]
    rfl
  · refine ⟨c, line, hc, fun rest => ?_⟩
    rw [byteChars_spellInstruction_other he hi hroot]
    exact (unblanked_lineText e s hname rest).trans (hline rest)

/-- The root as it is known behind so many instructions. -/
def rootBefore (e : Entry) (count : Nat) : Option Nat :=
  if e.root < count then some e.root else none

/-- Whether the name of an instruction can be told from the mark of the
root: it is the root, or it has another name, or the mark of a name. -/
def IsReadable (e : Entry) (s : InstructionSpelling) (position : Nat)
    (i : Instruction) : Prop :=
  position ≠ e.root → i.name = "ROOT" → s.marked

/-- The mark of the root does not come next where a readable line that is not
the root begins. -/
theorem IsReadable.startsWithWord_eq_false (h : IsReadable e s position i)
    (hroot : position ≠ e.root) (hname : IsName i.name) (rest : List Char) :
    startsWithWord "ROOT".toList (lineText e s i rest) = false := by
  unfold lineText
  cases hmarked : s.marked with
  | true =>
    rw [toList_spellName_true]
    rfl
  | false =>
    refine hname.startsWithWord_eq_false (by decide) (fun heq => ?_) rfl
    have hmark := h hroot heq
    rw [hmarked] at hmark
    cases hmark

/-- **A line that can be read is read back**, and the root is known behind
it. -/
theorem reads_readLine (he : e.Legible)
    (hi : e.instructions[position]? = some i) (hread : i.ReadsBack)
    (hname : IsReadable e s position i)
    (hrest : (unblanked rest).head? ≠ some ',') :
    Reads (readLine e.name (e.instructions.take position)
        (rootBefore e position))
      (unblanked (byteChars (e.spellInstruction s i position) ++ rest))
      (.more (e.instructions.take (position + 1),
        rootBefore e (position + 1)))
      (behind s.attributes rest) := by
  have hlegible := he.instructions position i hi
  obtain ⟨hlt, hget⟩ := List.getElem?_eq_some_iff.mp hi
  have htake : e.instructions.take (position + 1)
      = e.instructions.take position ++ [i] := by
    rw [List.take_succ_eq_append_getElem hlt, hget]
  have hnew : ¬(e.instructions.take position).any (·.name = i.name) := by
    rw [List.any_eq_true]
    rintro ⟨j, hj, hname⟩
    exact hlegible.fresh j hj (of_decide_eq_true hname)
  have hinstruction : ∀ {text}, unblanked text = lineText e s i rest →
      Reads (readInstruction (e.instructions.take position)) text i
        (behind s.attributes rest) :=
    reads_readInstruction (he.instructions.take position) hlegible hread
      (areNamed_operands hlegible s.operands) hrest
  have hline := unblanked_lineText e s hlegible.name rest
  by_cases hroot : position = e.root
  · -- the mark of the root is read, and then the line
    subst hroot
    rw [byteChars_spellInstruction_root he hi]
    refine .bind (.tryKeyword rfl rfl) (.bind (hinstruction hline) ?_)
    have hbefore : rootBefore e e.root = none :=
      if_neg (Nat.lt_irrefl e.root)
    have hafter : rootBefore e (e.root + 1) = some e.root :=
      if_pos (Nat.lt_succ_self e.root)
    rw [if_neg hnew, htake, hbefore, hafter,
      List.length_take_of_le (Nat.le_of_lt hlt)]
    exact .pure _ _
  · have hstart : unblanked (' ' :: ' ' :: lineText e s i rest)
        = lineText e s i rest := hline
    have hkeyword := hname.startsWithWord_eq_false hroot hlegible.name rest
    rw [← hline] at hkeyword
    have hbefore : e.root < position + 1 ↔ e.root < position := by omega
    have hsame : rootBefore e (position + 1) = rootBefore e position := by
      simp only [rootBefore, hbefore]
    rw [byteChars_spellInstruction_other he hi hroot, hstart]
    refine .bind (.tryKeyword_ne hkeyword) ?_
    rw [hline]
    refine .bind (hinstruction hline) ?_
    rw [if_neg hnew, htake, hsame]
    exact .pure _ _

/-- **A line that cannot be read is refused**: its name is taken for the
mark of the root. -/
theorem refuses_readLine {name : String} {instructions : List Instruction}
    {root : Option Nat} (he : e.Legible)
    (hi : e.instructions[position]? = some i)
    (hname : ¬IsReadable e s position i) (rest : List Char) :
    Refuses (readLine name instructions root)
      (unblanked (byteChars (e.spellInstruction s i position) ++ rest)) := by
  obtain ⟨hroot, hname⟩ := Classical.not_imp.mp hname
  obtain ⟨hname, hmarked⟩ := Classical.not_imp.mp hname
  rw [byteChars_spellInstruction_other he hi hroot, lineText, hname,
    Bool.eq_false_iff.mpr hmarked]
  refine .bind (.tryKeyword rfl rfl) (.bind_left (.bind_left ?_))
  exact .bind .skipBlanks (.bind .peek (.word rfl))

end Lines

/-! ## Bodies -/

/-- **A line is read** where one comes next. -/
theorem reads_bodyRound {name : String} {instructions : List Instruction}
    {root : Option Nat} {c : Char} {next : BodyRound}
    {text tail rest : List Char} (hc : startsName c)
    (h : unblanked text = c :: tail)
    (hline : Reads (readLine name instructions root) (c :: tail) next rest) :
    Reads (bodyRound name (instructions, root)) text next rest := by
  refine .bind (.tryChar_ne ?_) ?_
  · rw [h, List.head?_cons, ne_eq, Option.some.injEq]
    rintro rfl
    exact absurd hc (by decide)
  · rw [if_neg Bool.false_ne_true, h]
    exact .bind .atEnd hline

theorem refuses_bodyRound {name : String} {instructions : List Instruction}
    {root : Option Nat} {c : Char} {text tail : List Char}
    (hc : startsName c) (h : unblanked text = c :: tail)
    (hline : Refuses (readLine name instructions root) (c :: tail)) :
    Refuses (bodyRound name (instructions, root)) text := by
  refine .bind (.tryChar_ne ?_) ?_
  · rw [h, List.head?_cons, ne_eq, Option.some.injEq]
    rintro rfl
    exact absurd hc (by decide)
  · rw [if_neg Bool.false_ne_true, h]
    exact .bind .atEnd hline

section Bodies

variable {e : Entry} {s : Nat → InstructionSpelling} {position : Nat}
  {i : Instruction} {text rest : List Char}

/-- The lines of a computation from a position on. -/
def bodyText (e : Entry) (s : Nat → InstructionSpelling) (position : Nat) :
    List Char :=
  (e.instructions.zipIdx.drop position).flatMap fun line =>
    byteChars (e.spellInstruction (s line.2) line.1 line.2)

theorem bodyText_eq (s : Nat → InstructionSpelling)
    (hi : e.instructions[position]? = some i) :
    bodyText e s position
      = byteChars (e.spellInstruction (s position) i position)
        ++ bodyText e s (position + 1) := by
  obtain ⟨hlt, hget⟩ := List.getElem?_eq_some_iff.mp hi
  have hlength : position < e.instructions.zipIdx.length := by
    rwa [List.length_zipIdx]
  rw [bodyText, List.drop_eq_getElem_cons hlength, List.flatMap_cons,
    List.getElem_zipIdx, hget, Nat.zero_add]
  rfl

theorem bodyText_length (e : Entry) (s : Nat → InstructionSpelling) :
    bodyText e s e.instructions.length = [] := by
  rw [bodyText, ← List.length_zipIdx, List.drop_length, List.flatMap_nil]

/-- No line begins with a comma, and the end of a body does not either. -/
theorem head?_bodyText_ne (he : e.Legible) (s : Nat → InstructionSpelling)
    (hposition : position ≤ e.instructions.length) (rest : List Char) :
    (unblanked (bodyText e s position ++ '}' :: rest)).head? ≠ some ',' := by
  by_cases hlt : position < e.instructions.length
  · have hi := List.getElem?_eq_getElem hlt
    obtain ⟨c, line, hc, hline⟩ := exists_spellInstruction he hi (s position)
    rw [bodyText_eq s hi, List.append_assoc, hline, List.cons_append,
      List.head?_cons, ne_eq, Option.some.injEq]
    rintro rfl
    exact absurd hc (by decide)
  · rw [Nat.le_antisymm hposition (Nat.le_of_not_lt hlt), bodyText_length]
    show some '}' ≠ some ','
    decide

/-- **One line of a body is read back**, and less is to come. -/
theorem reads_bodyRound_line (he : e.Legible)
    (hread : ∀ i ∈ e.instructions, i.ReadsBack)
    (hi : e.instructions[position]? = some i)
    (hname : IsReadable e (s position) position i)
    (h : unblanked text = unblanked (bodyText e s position ++ '}' :: rest)) :
    ∃ mid, Reads (bodyRound e.name
        (e.instructions.take position, rootBefore e position)) text
        (.more (e.instructions.take (position + 1),
          rootBefore e (position + 1))) mid
      ∧ mid.length < text.length
      ∧ unblanked mid
        = unblanked (bodyText e s (position + 1) ++ '}' :: rest) := by
  obtain ⟨hlt, -⟩ := List.getElem?_eq_some_iff.mp hi
  obtain ⟨c, line, hc, hline⟩ := exists_spellInstruction he hi (s position)
  have hround := reads_readLine he hi (hread i (List.mem_of_getElem? hi))
    hname (head?_bodyText_ne he s hlt rest)
  rw [bodyText_eq s hi, List.append_assoc, hline] at h
  rw [hline] at hround
  refine ⟨_, reads_bodyRound hc h hround, ?_, unblanked_behind _ _⟩
  exact Nat.lt_of_le_of_lt (length_behind_le _ _)
    (length_lt_of_unblanked h (List.cons_ne_nil _ _))

/-- **The body of a computation is read back** if every line can be. -/
theorem reads_bodyLoop (he : e.Legible)
    (hread : ∀ i ∈ e.instructions, i.ReadsBack)
    (hnames : ∀ position i, e.instructions[position]? = some i →
      IsReadable e (s position) position i)
    (hposition : position ≤ e.instructions.length)
    (h : unblanked text = unblanked (bodyText e s position ++ '}' :: rest)) :
    Reads (loop (bodyRound e.name)
      (e.instructions.take position, rootBefore e position)) text
      (e.instructions, some e.root) rest := by
  induction hleft : e.instructions.length - position
    generalizing position text with
  | zero =>
    have hend : position = e.instructions.length := by omega
    rw [hend, bodyText_length] at h
    rw [hend, List.take_length, rootBefore, if_pos he.root_lt]
    exact .loop_done (.bind (.tryChar h) (.pure _ rest))
  | succ left ih =>
    have hlt : position < e.instructions.length := by omega
    have hi := List.getElem?_eq_getElem hlt
    obtain ⟨mid, hround, hless, hmid⟩ := reads_bodyRound_line he hread hi
      (hnames position _ hi) h
    exact .loop_more hround hless (ih hlt hmid (by omega))

/-- A body is refused at a line that cannot be read. -/
theorem refuses_bodyRound_line {state : List Instruction × Option Nat}
    (he : e.Legible) (hi : e.instructions[position]? = some i)
    (hname : ¬IsReadable e (s position) position i)
    (h : unblanked text = unblanked (bodyText e s position ++ '}' :: rest)) :
    Refuses (bodyRound e.name state) text := by
  obtain ⟨c, line, hc, hline⟩ := exists_spellInstruction he hi (s position)
  have hrefuses : Refuses (readLine e.name state.1 state.2) _ :=
    refuses_readLine he hi hname (bodyText e s (position + 1) ++ '}' :: rest)
  rw [bodyText_eq s hi, List.append_assoc, hline] at h
  rw [hline] at hrefuses
  exact refuses_bodyRound hc h hrefuses

/-- **The body of a computation is refused** if a line cannot be read. -/
theorem refuses_bodyLoop {bad : Nat} (he : e.Legible)
    (hread : ∀ i ∈ e.instructions, i.ReadsBack)
    (hbad : e.instructions[bad]? = some i)
    (hname : ¬IsReadable e (s bad) bad i) (hposition : position ≤ bad)
    (h : unblanked text = unblanked (bodyText e s position ++ '}' :: rest)) :
    Refuses (loop (bodyRound e.name)
      (e.instructions.take position, rootBefore e position)) text := by
  obtain ⟨hlt, -⟩ := List.getElem?_eq_some_iff.mp hbad
  -- the first such line decides, and it need not be the one that is given
  induction hleft : bad - position generalizing position text with
  | zero =>
    rw [show position = bad by omega] at h ⊢
    exact .loop (refuses_bodyRound_line he hbad hname h)
  | succ left ih =>
    have hi := List.getElem?_eq_getElem
      (show position < e.instructions.length by omega)
    by_cases hreadable : IsReadable e (s position) position
        e.instructions[position]
    · obtain ⟨mid, hround, hless, hmid⟩ := reads_bodyRound_line he hread hi
        hreadable h
      exact .loop_more hround hless (ih (by omega) hmid (by omega))
    · exact .loop (refuses_bodyRound_line he hi hreadable h)

/-- The body of a computation is read back as it was written. -/
theorem reads_readBody (he : e.Legible)
    (hread : ∀ i ∈ e.instructions, i.ReadsBack)
    (hnames : ∀ position i, e.instructions[position]? = some i →
      IsReadable e (s position) position i) :
    Reads (readBody e.name) ('\n' :: (bodyText e s 0 ++ ['}']))
      (e.instructions, some e.root) [] := by
  have hloop : Reads _ ('\n' :: (bodyText e s 0 ++ ['}'])) _ [] :=
    reads_bodyLoop he hread hnames (Nat.zero_le _) rfl
  rwa [rootBefore, if_neg (Nat.not_lt_zero _)] at hloop

/-- The body of a computation is refused for one line. -/
theorem refuses_readBody (he : e.Legible)
    (hread : ∀ i ∈ e.instructions, i.ReadsBack)
    (hi : e.instructions[position]? = some i)
    (hname : ¬IsReadable e (s position) position i) :
    Refuses (readBody e.name) ('\n' :: (bodyText e s 0 ++ ['}'])) := by
  have hloop : Refuses _ ('\n' :: (bodyText e s 0 ++ ['}'])) :=
    refuses_bodyLoop he hread hi hname (Nat.zero_le _) rfl
  rwa [rootBefore, if_neg (Nat.not_lt_zero _)] at hloop

end Bodies

end Graph

end TensorBind
