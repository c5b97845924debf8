import TensorBind.Proofs.Graph.Parts
import TensorBind.Proofs.Text.Position

/-!
# Reading graph programs from arbitrary texts

On every text reading ends with a program or with a refusal at a place of
the text (`Module.parse_total`), without exception. A layout is passed over
only from the brace that opens it, so its depth can be counted. Repetitions
move forward with every round. A declared shape may contain declared shapes
to any depth that the text has room for: each of them begins behind a
parenthesis of its own, so what is left of the text bounds how deep they can
be (`runs_readShapeWithin`).

Which place it is can be told from the line and the column of the refusal
(`Module.splits_of_parse`).

The number of elements of a constant is checked against its shape while it
is read, and their type is that of the shape, so laying them out cannot fail
(`ofElements_of_readValues`, `readLiteral_yields_ofElements`).
-/

namespace TensorBind.Graph

open TensorBind.Parser

variable {text : String} {extra : ParseError → Prop}

theorem consumes_readName : Consumes text extra readName := by
  refine fun n => (keeps_skipBlanks (n + 1)).bind fun _ => .peek fun next => ?_
  refine .ite (fun hnext => ?_) fun _ => .of_ahead (consumes_word n)
  subst hnext
  exact (Runs.skipOne rfl).bind fun _ => consumes_word.keeps n

/-! ## Shapes -/

theorem consumes_readDimension : Consumes text extra readDimension :=
  consumes_natural.bind fun _ => .ite (fun _ => .fail) fun _ => .pure

/-- **A layout** is passed over from the brace that opens it. -/
theorem keeps_skipLayout : Keeps text extra skipLayout := by
  refine fun n => .peek fun next => ?_
  refine .ite (fun hnext => ?_) fun _ => .of_ahead (.pure fun _ hc => hc)
  subst hnext
  exact runs_skipGroup rfl n

theorem consumes_readArrayShape : Consumes text extra readArrayShape := by
  refine consumes_identifier.bind fun name => ?_
  split
  · exact .fail
  · refine (consumes_expectChar rfl).keeps.bind fun _ => ?_
    refine (keeps_listUntil rfl consumes_readDimension).bind fun dims => ?_
    exact keeps_skipLayout.bind fun _ => .ite (fun _ => .fail) fun _ => .pure

/-- **A declared shape** moves forward if the text is no longer than the
depth that is allowed for. A shape inside it begins behind a parenthesis, in
a text that is shorter by one. -/
theorem runs_readShapeWithin {depth n : Nat} (h : n < depth) :
    Runs text extra (Ahead text (n + 1)) (readShapeWithin depth)
      fun _ => Ahead text n := by
  induction depth generalizing n with
  | zero => exact absurd h (Nat.not_lt_zero n)
  | succ depth ih =>
    refine (takes_tryChar rfl n).bind fun isTuple => ?_
    cases isTuple with
    | false =>
      exact (consumes_readArrayShape n).bind fun _ => .pure fun _ hc => hc
    | true =>
      refine Runs.bind (.itemsUntil rfl fun shapes k hk => ?_)
        fun _ => .pure fun _ hc => hc
      have hdepth : k < depth :=
        Nat.lt_of_lt_of_le hk (Nat.le_of_lt_succ h)
      refine Runs.bind (R := fun _ => Ahead text k) ?_
        fun _ => .pure fun _ hc => hc
      refine (ih hdepth).bind fun shape => ?_
      split
      · exact .pure fun _ hc => hc
      · exact .fail fun _ hc => hc.1

theorem consumes_readShape : Consumes text extra readShape := by
  intro n c hc
  have hruns : Runs text extra (Ahead text (c.rest.length + 1))
      (readShapeWithin (c.rest.length + 1))
      fun _ => Ahead text c.rest.length :=
    runs_readShapeWithin (Nat.lt_succ_self c.rest.length)
  have hshape := hruns c ⟨hc.1, Nat.lt_succ_self _⟩
  show Outcome text extra _ (readShapeWithin (c.rest.length + 1) c)
  cases hrun : readShapeWithin (c.rest.length + 1) c with
  | error e =>
    rw [hrun] at hshape
    exact hshape
  | ok result =>
    rw [hrun] at hshape
    exact ⟨hshape.1, Nat.lt_of_lt_of_le hshape.2 (Nat.le_of_lt_succ hc.2)⟩

/-! ## Constants -/

/-- Every round of reading tokens takes a brace, a comma or a token, or it
is the last. -/
theorem keeps_readTokens : Keeps text extra readTokens := by
  unfold readTokens
  refine .loop ?_
  rintro ⟨depth, tokens⟩ n
  refine (keeps_skipBlanks (n + 1)).bind fun _ => .peek fun next => ?_
  have htoken : Runs text extra (Facing text (n + 1) next)
      (do return Round.more (depth, tokens ++ [← scalarToken]))
      (Moved (α := List (List Char)) text n) :=
    .of_ahead ((consumes_scalarToken n).bind fun _ => .pure fun _ hc => hc)
  split
  · exact .fail fun _ hc => hc.1.1
  · exact (Runs.skipOne rfl).bind fun _ => .pure fun _ hc => hc
  · refine .ite (fun _ => .fail fun _ hc => hc.1.1) fun _ => ?_
    exact (Runs.skipOne rfl).bind fun _ => .pure fun _ hc => hc
  · refine .ite (fun _ => htoken) fun _ => ?_
    exact (Runs.skipOne rfl).bind fun _ => .pure fun _ hc => hc
  · exact .ite (fun _ => .pure fun _ hc => hc.1) fun _ => htoken
  · exact htoken

theorem keeps_readLiteral (shape : Shape) :
    Keeps text extra (readLiteral shape) := by
  refine keeps_readTokens.bind fun tokens => ?_
  refine .ite (fun _ => .fail) fun hsize =>
    .ite (fun _ => .fail) fun hcount => ?_
  split
  · exact .fail
  · rename_i values hvalues
    rw [Bool.not_eq_true, Option.isNone_eq_false_iff] at hsize
    obtain ⟨hlength, hfits, hlaid⟩ :=
      ofElements_of_readValues hsize hcount hvalues
    simp only [hlaid]
    exact .pure

/-- What a reader gives does not matter to where it gets. -/
theorem outcome_map_unit {α : Type} {n : Nat}
    {result : Except ParseError (α × Cursor)}
    (h : Outcome text extra (fun _ => Ahead text n) result) :
    Outcome text extra (fun _ => Ahead text n)
      (result.map fun (_, next) => ((), next)) := by
  cases result with
  | error e => exact h
  | ok given => exact h

theorem keeps_skipOperandShape : Keeps text extra skipOperandShape := by
  refine keeps_skipBlanks.bind fun _ n c hc => ?_
  dsimp only
  split
  · exact outcome_map_unit (consumes_readShape.keeps n c hc)
  · split
    · exact outcome_map_unit (consumes_readArrayShape.keeps n c hc)
    · exact hc

theorem consumes_readOperand (earlier : List Instruction) :
    Consumes text extra (readOperand earlier) := by
  refine fun n => (keeps_skipOperandShape (n + 1)).bind fun _ => ?_
  refine (consumes_readName n).bind fun name => ?_
  split
  · exact .pure fun _ hc => hc
  · exact .fail fun _ hc => hc.1

theorem keeps_readOperands (earlier : List Instruction) :
    Keeps text extra (readOperands earlier) := by
  refine (takes_tryChar rfl).keeps.bind fun _ =>
    .ite (fun _ => .pure) fun _ => .loop fun operands n => ?_
  refine (consumes_readOperand earlier n).bind fun operand => ?_
  refine ((takes_tryChar rfl).keeps n).bind fun _ =>
    .ite (fun _ => .pure fun _ hc => hc.succ) fun _ => ?_
  exact ((consumes_expectChar rfl).keeps n).bind fun _ => .pure fun _ hc => hc

theorem keeps_checkArity (name : String) (opcode : Opcode)
    (operands : List Nat) :
    Keeps text extra (checkArity name opcode operands) := by
  unfold checkArity
  split
  · exact .pure
  · exact .ite (fun _ => .pure) fun _ => .fail

theorem keeps_readOperation {earlier : List Instruction} {start : Cursor}
    {name : String} (hstart : start.Splits text) :
    Keeps text extra (readOperation earlier start name) := by
  unfold readOperation
  split
  · exact .failAt hstart
  · refine (keeps_readOperands earlier).bind fun operands => ?_
    exact (keeps_checkArity name _ operands).bind fun _ => .pure

theorem keeps_readOpcode (earlier : List Instruction)
    (shape : DeclaredShape) :
    Keeps text extra (readOpcode earlier shape) := by
  refine fun n => .get fun start hstart => ?_
  refine (keeps_identifier n).bind fun name => Keeps.bind
    (consumes_expectChar rfl).keeps (fun _ => ?_) n
  refine .ite (fun _ => ?_) fun _ => .ite (fun _ => ?_)
    fun _ => keeps_readOperation hstart
  · refine consumes_natural.keeps.bind fun number => ?_
    exact (consumes_expectChar rfl).keeps.bind fun _ => .pure
  · split
    · exact .fail
    · refine (keeps_readLiteral _).bind fun value => ?_
      exact (consumes_expectChar rfl).keeps.bind fun _ => .pure

theorem consumes_readInstruction (earlier : List Instruction) :
    Consumes text extra (readInstruction earlier) := by
  refine consumes_readName.bind fun name => ?_
  refine (consumes_expectChar rfl).keeps.bind fun _ => ?_
  refine consumes_readShape.keeps.bind fun shape => ?_
  refine (keeps_readOpcode earlier shape).bind fun _ => ?_
  refine (takes_tryChar rfl).keeps.bind fun _ =>
    .ite (fun _ => ?_) fun _ => .pure
  exact keeps_skipLine.bind fun _ => .pure

/-! ## Computations and modules -/

theorem keeps_readBody (name : String) :
    Keeps text extra (readBody name) := by
  refine .loop ?_
  rintro ⟨instructions, root⟩ n
  refine ((takes_tryChar rfl).keeps (n + 1)).bind fun _ =>
    .ite (fun _ => .pure fun _ hc => hc) fun _ => ?_
  refine (keeps_atEnd (n + 1)).bind fun _ =>
    .ite (fun _ => .fail fun _ hc => hc.1) fun _ => ?_
  refine ((takes_tryKeyword (by decide) (by decide)).keeps (n + 1)).bind
    fun _ => ?_
  refine (consumes_readInstruction instructions n).bind fun _ =>
    .ite (fun _ => .fail fun _ hc => hc.1) fun _ => .ite (fun _ => ?_)
      fun _ => .pure fun _ hc => hc
  exact .ite (fun _ => .fail fun _ hc => hc.1) fun _ => .pure fun _ hc => hc

theorem consumes_readParameter : Consumes text extra readParameter := by
  refine consumes_readName.bind fun name => ?_
  refine (consumes_expectChar rfl).keeps.bind fun _ => ?_
  exact consumes_readArrayShape.keeps.bind fun _ => .pure

theorem keeps_readSignature : Keeps text extra readSignature := by
  refine (takes_tryChar rfl).keeps.bind fun _ =>
    .ite (fun _ => ?_) fun _ => .pure
  refine (keeps_listUntil rfl consumes_readParameter).bind fun _ => ?_
  refine (consumes_expectChar rfl).keeps.bind fun _ => ?_
  refine (consumes_expectChar rfl).keeps.bind fun _ => ?_
  exact consumes_readShape.keeps.bind fun _ => .pure

theorem consumes_readComputation : Consumes text extra readComputation := by
  refine consumes_readName.bind fun name => ?_
  refine keeps_readSignature.bind fun _ => ?_
  refine (consumes_expectChar rfl).keeps.bind fun _ => ?_
  refine (keeps_readBody name).bind fun _ => ?_
  exact .ite (fun _ => .fail) fun _ => .pure

theorem keeps_readComputations : Keeps text extra readComputations := by
  refine .loop ?_
  rintro ⟨entry, others⟩ n
  refine (keeps_atEnd (n + 1)).bind fun _ =>
    .ite (fun _ => .pure fun _ hc => hc) fun _ => ?_
  refine ((takes_tryKeyword (by decide) (by decide)).keeps (n + 1)).bind
    fun _ => ?_
  refine (consumes_readComputation n).bind fun _ =>
    .ite (fun _ => .fail fun _ hc => hc.1) fun _ => ?_
  refine (keeps_skipBlanks n).bind fun _ => ?_
  exact .ite (fun _ => .pure fun _ hc => hc) fun _ => .pure fun _ hc => hc

theorem keeps_readModule : Keeps text extra readModule := by
  refine (consumes_expectKeyword (by decide) (by decide)).keeps.bind
    fun _ => ?_
  refine consumes_readName.keeps.bind fun name => ?_
  refine keeps_skipLine.bind fun _ => keeps_skipBlanks.bind fun _ => ?_
  refine keeps_readComputations.bind fun found => ?_
  split
  · exact .pure
  · exact .pure
  · exact .fail

namespace Module

/-- **Where a text is refused**: the line and the column of a refusal are
those of one place between two characters. -/
theorem splits_of_parse {text : String} {line column : Nat}
    {cause : ParseCause}
    (h : parse text = .error (.refused line column cause)) :
    Text.Locates text line column (Text.offset text line column)
      ∧ ((Cursor.ofText text).advance
        (Text.offset text line column)).Splits text := by
  have hkeeps : Keeps text (fun _ => False) readModule := keeps_readModule
  exact hkeeps.splits_offset (fun _ _ _ hfalse => hfalse) h

end Module

end TensorBind.Graph
