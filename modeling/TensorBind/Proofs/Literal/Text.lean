import TensorBind.Proofs.Graph.Parts
import TensorBind.Proofs.Number.Plain

/-!
# What the text of a literal says

A text is taken apart at a character that none of its parts has. Names,
numbers and the values of literals are made of the characters of names
(`IsName`), so blanks, commas, brackets and the ends of lines stand between
them. The text of a literal is therefore one line (`Literal.one_line`), and
its first word says what shape the literal has
(`Literal.shape_eq_of_render_eq`). It does not say all of its values: all
NaNs have one text.
-/

namespace List

variable {α : Type}

/-- **A list is cut in one way** at the first member without a property. -/
theorem eq_of_append_cons_eq {p : α → Prop} {l r rest rest' : List α}
    {a b : α} (hl : ∀ x ∈ l, p x) (ha : ¬p a) (hr : ∀ x ∈ r, p x)
    (hb : ¬p b) (h : l ++ a :: rest = r ++ b :: rest') :
    l = r ∧ a = b ∧ rest = rest' := by
  induction l generalizing r with
  | nil =>
    cases r with
    | nil => simpa using h
    | cons x r =>
      rw [nil_append, cons_append, cons.injEq] at h
      exact absurd (h.1 ▸ hr x mem_cons_self) ha
  | cons y l ih =>
    obtain ⟨hy, hl⟩ := forall_mem_cons.mp hl
    cases r with
    | nil =>
      rw [nil_append, cons_append, cons.injEq] at h
      exact absurd (h.1 ▸ hy) hb
    | cons x r =>
      rw [cons_append, cons_append, cons.injEq] at h
      obtain ⟨rfl, hrest⟩ := ih hl (forall_mem_cons.mp hr).2 h.2
      exact ⟨by rw [h.1], hrest⟩

/-- There is something in a line of words. -/
theorem eq_nil_of_intercalate_eq_nil {mark : α} {l : List (List α)}
    (hl : ∀ word ∈ l, word ≠ []) (h : [mark].intercalate l = []) : l = [] := by
  cases l with
  | nil => rfl
  | cons word l =>
    have hword := hl word mem_cons_self
    cases l with
    | nil => exact absurd (by simpa using h) hword
    | cons next l => simp [intercalate_cons_cons, hword] at h

/-- **Words are taken apart** at what stands between them, if none has it
and none is empty. -/
theorem eq_of_intercalate_eq [DecidableEq α] {mark : α}
    {l r : List (List α)} (hl : ∀ word ∈ l, mark ∉ word ∧ word ≠ [])
    (hr : ∀ word ∈ r, mark ∉ word ∧ word ≠ [])
    (h : [mark].intercalate l = [mark].intercalate r) : l = r := by
  by_cases hl' : l = []
  · rw [hl'] at h ⊢
    exact (eq_nil_of_intercalate_eq_nil (fun word hword => (hr word hword).2)
      h.symm).symm
  · by_cases hr' : r = []
    · rw [hr'] at h ⊢
      exact eq_nil_of_intercalate_eq_nil (fun word hword => (hl word hword).2)
        h
    · rw [← splitOn_intercalate mark (fun word hword => (hl word hword).1)
        hl', h, splitOn_intercalate mark (fun word hword =>
        (hr word hword).1) hr']

end List

namespace TensorBind

open TensorBind.Parser (IsName)

/-! ## Numbers -/

/-- Positional notation is made of digits and a point. -/
theorem Decimal.isNameChar_of_mem_positional (d : Decimal) :
    ∀ c ∈ d.positional.toList, isNameChar c := by
  have hdigit : ∀ {c : Char}, isDecimalDigit c → isNameChar c := fun hc => by
    simp [isNameChar, hc]
  obtain ⟨coefficient, _ | p⟩ := d
  · rename_i p
    rw [toList_positional_ofNat]
    exact fun c hc => hdigit (isDecimalDigit_zeros _ _ _ c hc)
  · obtain ⟨whole, fraction, before, htext, -, -, hall⟩ :=
      toList_positional_negSucc coefficient p
    have hdigits := isDecimalDigit_zeros coefficient before 0
    rw [← hall, List.forall_mem_append] at hdigits
    rw [htext, List.forall_mem_append, List.forall_mem_cons]
    exact ⟨fun c hc => hdigit (hdigits.1 c hc), rfl,
      fun c hc => hdigit (hdigits.2 c hc)⟩

theorem Binary.isNameChar_of_mem_plain {F : Format} (x : Binary F) :
    ∀ c ∈ x.plain.toList, isNameChar c := by
  have hnan : IsName "NaN" := by decide
  have hminus : IsName "-" := by decide
  have hinf : IsName "inf" := by decide
  unfold plain render
  split
  · exact hnan.2
  · rw [String.toList_append, List.forall_mem_append]
    constructor
    · split
      · exact hminus.2
      · simp
    · split
      · exact hinf.2
      · exact Decimal.isNameChar_of_mem_positional _

/-- The text of a value is made of the characters of names. -/
theorem ElementType.isNameChar_of_mem_render (type : ElementType)
    (v : type.Value) : ∀ c ∈ (type.render v).toList, isNameChar c := by
  cases type with
  | pred =>
    have htrue : IsName "true" := by decide
    have hfalse : IsName "false" := by decide
    cases v
    · exact hfalse.2
    · exact htrue.2
  | s32 => exact (isName_toString_int _).2
  | s64 => exact (isName_toString_int _).2
  | f32 => exact Binary.isNameChar_of_mem_plain v
  | f64 => exact Binary.isNameChar_of_mem_plain v

/-- What stands between words is in no name. -/
theorem ne_of_isNameChar {c mark : Char} (h : isNameChar c)
    (hmark : isNameChar mark = false) : c ≠ mark := by
  rintro rfl
  exact absurd h (by simp [hmark])

/-! ## Shapes -/

theorem ElementType.name_inj {a b : ElementType} :
    a.name = b.name ↔ a = b := by
  cases a <;> cases b <;> decide

theorem ElementType.ne_of_mem_name {mark : Char}
    (hmark : isNameChar mark = false) (type : ElementType) :
    ∀ c ∈ type.name.toList, c ≠ mark := fun c hc =>
  ne_of_isNameChar ((Graph.isName_elementType type).1.2 c hc) hmark

namespace Shape

/-- The dimensions as they are written. -/
def dimensionWords (s : Shape) : List (List Char) :=
  s.dims.map fun d => (toString d.toInt).toList

theorem toList_render (s : Shape) :
    s.render.toList = s.elementType.name.toList
      ++ '[' :: ([','].intercalate s.dimensionWords ++ [']']) := by
  simpa [dimensionWords] using Graph.toList_renderShape s []

theorem ne_of_mem_dimensionWords {mark : Char}
    (hmark : isNameChar mark = false) (s : Shape) :
    ∀ word ∈ s.dimensionWords, (∀ c ∈ word, c ≠ mark) ∧ word ≠ [] := by
  rw [dimensionWords, List.forall_mem_map]
  intro d _
  obtain ⟨hne, hall⟩ := isName_toString_int d.toInt
  exact ⟨fun c hc => ne_of_isNameChar (hall c hc) hmark, hne⟩

/-- The text of a shape has no mark but brackets and commas. -/
theorem notMem_render {mark : Char} (hmark : isNameChar mark = false)
    (hbracket : mark ≠ '[' ∧ mark ≠ ']') (hcomma : mark ≠ ',') (s : Shape) :
    mark ∉ s.render.toList := by
  suffices h : ∀ c ∈ s.render.toList, c ≠ mark from fun hc => h mark hc rfl
  rw [toList_render, List.forall_mem_append, List.forall_mem_cons,
    List.forall_mem_append, List.forall_mem_singleton]
  refine ⟨s.elementType.ne_of_mem_name hmark, hbracket.1.symm,
    List.forall_mem_intercalate ?_ ?_, hbracket.2.symm⟩
  · simpa using hcomma.symm
  · exact fun word hword => (s.ne_of_mem_dimensionWords hmark word hword).1

theorem dims_eq_of_intercalate_eq {s t : Shape}
    (h : [','].intercalate s.dimensionWords
      = [','].intercalate t.dimensionWords) : s.dims = t.dims := by
  have hcomma : ∀ u : Shape, ∀ word ∈ u.dimensionWords,
      ',' ∉ word ∧ word ≠ [] := fun u word hword =>
    (u.ne_of_mem_dimensionWords rfl word hword).imp_left
      fun hne hc => hne ',' hc rfl
  have hwords := List.eq_of_intercalate_eq (hcomma s) (hcomma t) h
  refine List.map_injective_iff.mpr (fun a b hab => ?_) hwords
  rw [String.toList_inj, Int.toString_eq_repr, Int.toString_eq_repr,
    Int.repr_inj] at hab
  exact Int64.toInt_inj.mp hab

/-- **A shape is what its text says.** -/
theorem eq_of_render_eq {s t : Shape} (h : s.render = t.render) : s = t := by
  have htext := congrArg String.toList h
  rw [toList_render, toList_render] at htext
  obtain ⟨htype, -, hrest⟩ := List.eq_of_append_cons_eq (p := (· ≠ '['))
    (s.elementType.ne_of_mem_name rfl) (by simp)
    (t.elementType.ne_of_mem_name rfl) (by simp) htext
  cases s
  cases t
  rw [Shape.mk.injEq]
  exact ⟨ElementType.name_inj.mp (String.toList_injective htype),
    dims_eq_of_intercalate_eq (List.append_cancel_right hrest)⟩

end Shape

/-! ## Literals -/

namespace Literal

theorem toList_render (l : Literal) :
    l.render.toList
      = l.shape.render.toList ++ ' ' :: l.renderValues.toList := by
  simp [render]

/-- The values of a literal are on one line. -/
theorem notMem_renderValues (l : Literal) : '\n' ∉ l.renderValues.toList := by
  have hvalue : ∀ v, ∀ c ∈ (l.shape.elementType.render v).toList,
      c ≠ '\n' := fun v c hc => ne_of_isNameChar
    (l.shape.elementType.isNameChar_of_mem_render v c hc) rfl
  suffices h : ∀ c ∈ l.renderValues.toList, c ≠ '\n' from
    fun hmem => h _ hmem rfl
  unfold renderValues
  split
  · exact hvalue _
  · rw [String.toList_append, String.toList_append, List.forall_mem_append,
      List.forall_mem_append, String.toList_intercalate]
    refine ⟨⟨by simp, List.forall_mem_intercalate (by simp) ?_⟩, by simp⟩
    rw [List.forall_mem_map, List.forall_mem_map]
    exact fun v _ => hvalue v

/-- **The text of a literal is one line.** -/
theorem one_line (l : Literal) : '\n' ∉ l.render.toList := by
  rw [toList_render, List.mem_append, List.mem_cons, not_or, not_or]
  exact ⟨l.shape.notMem_render rfl ⟨by decide, by decide⟩ (by decide),
    by decide, l.notMem_renderValues⟩

/-- **The text of a literal says what shape it has.** -/
theorem shape_eq_of_render_eq {l m : Literal} (h : l.render = m.render) :
    l.shape = m.shape := by
  have hblank : ∀ s : Shape, ∀ c ∈ s.render.toList, c ≠ ' ' := by
    rintro s c hc rfl
    exact s.notMem_render rfl ⟨by decide, by decide⟩ (by decide) hc
  have htext := congrArg String.toList h
  rw [toList_render, toList_render] at htext
  obtain ⟨hshape, -, -⟩ := List.eq_of_append_cons_eq (p := (· ≠ ' '))
    (hblank l.shape) (by simp) (hblank m.shape) (by simp) htext
  exact Shape.eq_of_render_eq (String.toList_inj.mp hshape)

end Literal

end TensorBind
