import TensorBind.Proofs.Literal.Text
import TensorBind.SlotProgram.Basic

/-!
# What the text of a slot program says

The text of a program is made of lines: one for each instruction, one for
the outputs, and in a fingerprint one for each constant. A line is made of
words. Instructions are told from what follows by how their lines begin,
and no line is part of another, so the text is taken apart in one way: it
says what the instructions are, where the outputs are, and what the text of
each constant is (`SlotProgram.text_eq_iff`). It says nothing else.
-/

namespace List

variable {α : Type} {mark : α}

/-- A first line is followed by lines behind ends of lines. -/
theorem intercalate_cons_eq (a : List α) (r : List (List α)) :
    [mark].intercalate (a :: r) = a ++ r.flatMap (mark :: ·) := by
  induction r generalizing a with
  | nil => simp
  | cons b r ih =>
    rw [intercalate_cons_cons, ih, flatMap_cons]
    simp

/-- Lines with their ends come in front of a line. -/
theorem intercalate_append_cons (l : List (List α)) (a : List α)
    (r : List (List α)) :
    [mark].intercalate (l ++ a :: r)
      = l.flatMap (· ++ [mark]) ++ (a ++ r.flatMap (mark :: ·)) := by
  induction l with
  | nil => exact intercalate_cons_eq a r
  | cons b l ih =>
    rw [cons_append, intercalate_cons_of_ne_nil (by simp), ih]
    simp

end List

namespace TensorBind

open TensorBind.Parser (IsName)

/-- A word of a line. -/
def IsWord (word : List Char) : Prop :=
  (' ' ∉ word ∧ '\n' ∉ word) ∧ word ≠ []

theorem isWord_of_isName {name : String} (h : IsName name) :
    IsWord name.toList :=
  ⟨⟨fun hc => ne_of_isNameChar (h.2 _ hc) rfl rfl,
    fun hc => ne_of_isNameChar (h.2 _ hc) rfl rfl⟩, h.1⟩

/-- A mark in front of a name is part of the word. -/
theorem isWord_cons {mark : Char} {word : List Char} (h : IsWord word)
    (hblank : mark ≠ ' ') (hend : mark ≠ '\n') : IsWord (mark :: word) := by
  simp [IsWord, h.1, hblank.symm, hend.symm]

/-- A line of words has no end of a line in it. -/
theorem one_line_of_isWord {words : List (List Char)}
    (h : ∀ word ∈ words, IsWord word) :
    '\n' ∉ [' '].intercalate words := by
  suffices hne : ∀ c ∈ [' '].intercalate words, c ≠ '\n' from
    fun hc => hne _ hc rfl
  refine List.forall_mem_intercalate (by simp) fun word hword c hc => ?_
  rintro rfl
  exact (h word hword).1.2 hc

/-- A line of words says what the words are. -/
theorem eq_of_line_eq {l r : List (List Char)}
    (hl : ∀ word ∈ l, IsWord word) (hr : ∀ word ∈ r, IsWord word)
    (h : [' '].intercalate l = [' '].intercalate r) : l = r :=
  List.eq_of_intercalate_eq
    (fun word hword => (hl word hword).imp_left And.left)
    (fun word hword => (hr word hword).imp_left And.left) h

/-! ## Instructions -/

theorem UnaryOp.name_inj {a b : UnaryOp} : a.name = b.name ↔ a = b := by
  cases a <;> cases b <;> decide

theorem BinaryOp.name_inj {a b : BinaryOp} : a.name = b.name ↔ a = b := by
  cases a <;> cases b <;> decide

namespace Instruction

theorem renderSlot_inj {a b : Nat} : renderSlot a = renderSlot b ↔ a = b := by
  rw [renderSlot, renderSlot, String.append_right_inj, Nat.toString_eq_repr,
    Nat.toString_eq_repr, Nat.repr_inj]

theorem isWord_renderSlot (slot : Nat) : IsWord (renderSlot slot).toList := by
  rw [renderSlot, String.toList_append]
  exact isWord_cons (isWord_of_isName (isName_toString slot)) (by decide)
    (by decide)

/-- The words behind the name of an instruction. -/
def arguments : Instruction → List String
  | parameter _ index => [toString index]
  | constant _ index => ["#" ++ toString index]
  | unary _ _ src => [renderSlot src]
  | binary _ _ lhs rhs => [renderSlot lhs ++ ",", renderSlot rhs]

/-- **The words of an instruction.** -/
def words (i : Instruction) : List (List Char) :=
  (renderSlot i.dst :: "=" :: i.name :: i.arguments).map String.toList

theorem toList_render (i : Instruction) :
    i.render.toList = [' '].intercalate i.words := by
  cases i <;> simp [render, words, arguments, name, dst,
    List.intercalate_cons_cons]

theorem isName_name (i : Instruction) : IsName i.name := by
  cases i with
  | parameter dst index =>
    rw [name]
    decide
  | constant dst index =>
    rw [name]
    decide
  | unary op dst src =>
    rw [name]
    cases op <;> decide
  | binary op dst lhs rhs =>
    rw [name]
    cases op <;> decide

theorem isWord_of_mem_words (i : Instruction) :
    ∀ word ∈ i.words, IsWord word := by
  have hequals : IsWord "=".toList := by simp [IsWord]
  have hnumber : ∀ n : Nat, IsWord (toString n).toList := fun n =>
    isWord_of_isName (isName_toString n)
  have harguments : ∀ text ∈ i.arguments, IsWord text.toList := by
    cases i with
    | parameter dst index => simpa [arguments] using hnumber index
    | constant dst index =>
      simpa [arguments] using
        isWord_cons (hnumber index) (by decide : '#' ≠ ' ') (by decide)
    | unary op dst src => simpa [arguments] using isWord_renderSlot src
    | binary op dst lhs rhs =>
      have hcomma : IsWord ((renderSlot lhs).toList ++ [',']) := by
        simpa [IsWord] using (isWord_renderSlot lhs).1
      simpa [arguments] using ⟨hcomma, isWord_renderSlot rhs⟩
  rw [words, List.forall_mem_map, List.forall_mem_cons, List.forall_mem_cons,
    List.forall_mem_cons]
  exact ⟨isWord_renderSlot i.dst, hequals, isWord_of_isName i.isName_name,
    harguments⟩

/-- **An instruction is what its words say.** -/
theorem eq_of_words_eq {i j : Instruction} (h : i.words = j.words) :
    i = j := by
  have htexts := List.map_injective_iff.mpr
    (fun _ _ => String.toList_injective) h
  simp only [List.cons.injEq, true_and, renderSlot_inj] at htexts
  obtain ⟨hdst, hname, harguments⟩ := htexts
  have hunary : ∀ op : UnaryOp,
      op.name ≠ "parameter" ∧ op.name ≠ "constant" := by
    intro op
    cases op <;> decide
  cases i <;> cases j <;>
    simp_all [dst, name, arguments, renderSlot_inj, UnaryOp.name_inj,
      BinaryOp.name_inj, String.append_right_inj, String.append_left_inj,
      Nat.toString_eq_repr, Nat.repr_inj]

/-- The text of an instruction is one line, and it begins with the mark of
a slot. -/
theorem one_line (i : Instruction) :
    '\n' ∉ i.render.toList ∧ i.render.toList.head? = some '$' := by
  constructor
  · rw [toList_render]
    exact one_line_of_isWord i.isWord_of_mem_words
  · cases i <;> simp [render, renderSlot]

theorem eq_of_render_eq {i j : Instruction} (h : i.render = j.render) :
    i = j := by
  refine eq_of_words_eq
    (eq_of_line_eq i.isWord_of_mem_words j.isWord_of_mem_words ?_)
  rw [← toList_render, ← toList_render, h]

end Instruction

/-! ## Programs -/

namespace SlotProgram

/-- The words of the line of the outputs. -/
def outputWords (p : SlotProgram) : List (List Char) :=
  "outputs".toList
    :: p.outputSlots.map fun slot => (Instruction.renderSlot slot).toList

/-- **The lines of a program**, with those of its constants. -/
def lines (p : SlotProgram) : List (List Char) :=
  p.instructions.map (·.render.toList)
    ++ [' '].intercalate p.outputWords
      :: p.constants.map (·.render.toList)

/-- The text of a program and of its constants. -/
def text (p : SlotProgram) : String :=
  p.render ++ String.join (p.constants.map fun c => "\n" ++ c.render)

theorem toList_text (p : SlotProgram) :
    p.text.toList = ['\n'].intercalate p.lines := by
  rw [lines, List.intercalate_append_cons, outputWords,
    List.intercalate_cons_eq]
  simp [text, render, String.toList_join, List.flatMap_map]

theorem isWord_of_mem_outputWords (p : SlotProgram) :
    ∀ word ∈ p.outputWords, IsWord word := by
  rw [outputWords, List.forall_mem_cons, List.forall_mem_map]
  exact ⟨by simp [IsWord], fun slot _ => Instruction.isWord_renderSlot slot⟩

/-- The line of the outputs does not begin with the mark of a slot. -/
theorem head?_outputs_ne (p : SlotProgram) :
    ([' '].intercalate p.outputWords).head? ≠ some '$' := by
  simp [outputWords, List.intercalate_cons_eq]

theorem one_line_of_mem_lines (p : SlotProgram) :
    ∀ line ∈ p.lines, '\n' ∉ line ∧ line ≠ [] := by
  rw [lines, List.forall_mem_append, List.forall_mem_cons,
    List.forall_mem_map, List.forall_mem_map]
  refine ⟨fun i _ => ⟨i.one_line.1, ?_⟩,
    ⟨one_line_of_isWord p.isWord_of_mem_outputWords, ?_⟩,
    fun c _ => ⟨c.one_line, ?_⟩⟩
  · intro hnil
    have hhead := i.one_line.2
    rw [hnil] at hhead
    cases hhead
  · simp [outputWords, List.intercalate_cons_eq]
  · simp [Literal.toList_render]

/-- **A program is what its lines say**, up to the values of constants that
are printed alike and to shapes. -/
theorem eq_of_lines_eq {p q : SlotProgram} (h : p.lines = q.lines) :
    p.instructions = q.instructions ∧ p.outputSlots = q.outputSlots
      ∧ p.constants.map Literal.render = q.constants.map Literal.render := by
  have hinstructions : ∀ r : SlotProgram,
      ∀ line ∈ r.instructions.map (·.render.toList),
        line.head? = some '$' := by
    intro r
    rw [List.forall_mem_map]
    exact fun i _ => i.one_line.2
  obtain ⟨hfirst, houtputs, hconstants⟩ := List.eq_of_append_cons_eq
    (p := fun line => line.head? = some '$') (hinstructions p)
    p.head?_outputs_ne (hinstructions q) q.head?_outputs_ne h
  refine ⟨?_, ?_, ?_⟩
  · refine List.map_injective_iff.mpr (fun i j hij => ?_) hfirst
    exact Instruction.eq_of_render_eq (String.toList_injective hij)
  · have hwords := eq_of_line_eq p.isWord_of_mem_outputWords
      q.isWord_of_mem_outputWords houtputs
    refine List.map_injective_iff.mpr (fun a b hab => ?_)
      (List.cons.inj hwords).2
    exact Instruction.renderSlot_inj.mp (String.toList_injective hab)
  · refine List.map_injective_iff.mpr
      (fun _ _ => String.toList_injective) ?_
    rw [List.map_map, List.map_map]
    exact hconstants

/-- **What the text of a program says**: its instructions, the slots of its
outputs and the texts of its constants, and nothing else. -/
theorem text_eq_iff {p q : SlotProgram} :
    p.text = q.text ↔ p.instructions = q.instructions
      ∧ p.outputSlots = q.outputSlots
      ∧ p.constants.map Literal.render = q.constants.map Literal.render := by
  constructor
  · intro h
    have htext := congrArg String.toList h
    rw [toList_text, toList_text] at htext
    exact eq_of_lines_eq (List.eq_of_intercalate_eq p.one_line_of_mem_lines
      q.one_line_of_mem_lines htext)
  · rintro ⟨hinstructions, houtputs, hconstants⟩
    have hlines : (p.constants.map fun c => "\n" ++ c.render)
        = q.constants.map fun c => "\n" ++ c.render := by
      simpa [Function.comp_def] using
        congrArg (List.map ("\n" ++ ·)) hconstants
    rw [text, text, render, render, hinstructions, houtputs, hlines]

end SlotProgram

end TensorBind
