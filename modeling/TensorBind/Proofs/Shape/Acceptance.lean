import TensorBind.Proofs.Graph.Lines
import TensorBind.Proofs.Structured.Parts

/-!
# Which shapes have a size, and which are read

A size is counted dimension by dimension, and a product that is too large on
the way is not brought down again by a zero that follows. So of the sizes that
can be represented, those are counted whose dimensions fit one after the other,
up to the first zero; and the order of the dimensions matters exactly where
there is a zero and the other dimensions do not fit
(`Shape.checkedByteSize_exact`).

Graph programs and structured programs are written with shapes that have a
size. A shape that has none is refused by both, for a dimension that is
negative or as a whole, so the order of the dimensions matters there as well.
-/

namespace TensorBind

open TensorBind.Parser

/-- What a reader gives for a whole text that it accepts on a condition. -/
theorem Parser.toOption_onText {α β : Type} {p : Parser α} {a : α}
    {text : String} {condition : Option β}
    (hbytes : byteChars text = text.toList)
    (hreads : condition.isSome → Reads p (text.toList ++ []) a [])
    (hrefuses : condition.isNone → Refuses p (text.toList ++ [])) :
    (p.onText text).toOption = condition.map fun _ => a := by
  rw [List.append_nil, ← hbytes] at hreads hrefuses
  cases condition with
  | some b =>
    rw [(hreads rfl).onText]
    rfl
  | none =>
    obtain ⟨error, herror⟩ := (hrefuses rfl).onText
    rw [herror]
    rfl

/-- **Graph programs are read with the shapes that have a size.** -/
theorem Graph.readArrayShape_render (s : Shape) :
    (readArrayShape.onText s.render).toOption
      = s.checkedByteSize.map fun _ => s := by
  have hstart := unblanked_spellArray s none []
  rw [← spellArray_none]
  exact toOption_onText
    (byteChars_of_isProgramText (isProgramText_spellArray s none))
    (fun hs => reads_readArrayShape hs hstart (by decide))
    (fun hs => refuses_readArrayShape hs hstart (by decide))

/-- **Structured programs are read with the shapes that have a size.** -/
theorem Structured.readTensorType_renderTensor (s : Shape) :
    (readTensorType.onText s.renderTensor).toOption
      = s.checkedByteSize.map fun _ => s := by
  have hstart := unblanked_renderTensor s []
  exact toOption_onText (isBasicText_renderTensor s).byteChars_eq
    (fun hs => reads_readTensorType hs hstart)
    (fun hs => refuses_readTensorType hs hstart)

namespace Shape

/-- **Which sizes are counted.** The size of a shape is counted exactly if it
can be represented and the dimensions in front of the first zero fit; and then
it is that size. The order of the dimensions is of no account exactly if one is
negative, none is zero or those that are not zero fit, and then whatever can be
represented is counted. A shape is read in a graph program, and likewise in a
structured program, exactly if its size is counted. -/
theorem checkedByteSize_exact (s : Shape) :
    (∀ size, s.checkedByteSize = some size
      ↔ s.Representable size ∧ FitsInOrder s.dims)
    ∧ ((∀ order : List Int64, order.Perm s.dims →
        checkedByteSize ⟨s.elementType, order⟩ = s.checkedByteSize)
      ↔ OrderFree s.dims)
    ∧ (OrderFree s.dims → ∀ size,
      s.checkedByteSize = some size ↔ s.Representable size)
    ∧ (Graph.readArrayShape.onText s.render).toOption
      = s.checkedByteSize.map (fun _ => s)
    ∧ (Structured.readTensorType.onText s.renderTensor).toOption
      = s.checkedByteSize.map (fun _ => s) :=
  ⟨fun _ => checkedByteSize_eq_some_iff, checkedByteSize_perm_iff,
    fun hfree _ => hfree.checkedByteSize_eq_some_iff,
    Graph.readArrayShape_render s, Structured.readTensorType_renderTensor s⟩

/-- With the zero between the other dimensions, or behind them, the size is
nothing. -/
theorem zeroBetween_checkedByteSize_exact :
    OrderFree [2 ^ 40, 0, 2 ^ 20]
      ∧ checkedByteSize ⟨.f64, [2 ^ 40, 0, 2 ^ 20]⟩ = some 0
      ∧ checkedByteSize ⟨.f64, [2 ^ 40, 2 ^ 20, 0]⟩ = some 0 := by
  have hfree : OrderFree [2 ^ 40, 0, 2 ^ 20] := by decide
  obtain ⟨-, horder, hsize, -⟩ :=
    checkedByteSize_exact ⟨.f64, [2 ^ 40, 0, 2 ^ 20]⟩
  have hchecked := (hsize hfree 0).mpr (by decide)
  have hswap : [2 ^ 40, 2 ^ 20, 0].Perm ([2 ^ 40, 0, 2 ^ 20] : List Int64) :=
    (List.Perm.swap 0 (2 ^ 20) []).cons (2 ^ 40)
  exact ⟨hfree, hchecked, (horder.mpr hfree _ hswap).trans hchecked⟩

/-- **A size that can be represented and is not counted**: there is nothing in
the array, but the dimensions do not fit in front of the zero. In another order
they do. -/
theorem zeroLast_not_checkedByteSize :
    Representable ⟨.s32, [2 ^ 32, 2 ^ 32, 0]⟩ 0
      ∧ checkedByteSize ⟨.s32, [2 ^ 32, 2 ^ 32, 0]⟩ = none
      ∧ checkedByteSize ⟨.s32, [0, 2 ^ 32, 2 ^ 32]⟩ = some 0 := by
  decide

end Shape

end TensorBind
