import TensorBind.Operation
import TensorBind.Proofs.Shape

/-!
# Literals in memory

A literal survives the way through device memory: reading its bytes gives it
back (`Literal.ofBytes_toBytes`). Elements of the right type and number are
laid out in a shape without fail if the shape may be materialized
(`Literal.ofElements_of_literalByteSize`).

Operations that are defined on the elements of literals have a result, and it
has the shape of the operands (`UnaryOp.exists_onLiteral`,
`BinaryOp.exists_onLiterals`).
-/

namespace TensorBind

/-- The number of a number's bits is that number. -/
theorem Binary.ofBits_toBits {F : Format} (x : Binary F) :
    Binary.ofBits F x.toBits = x := by
  rw [ofBits, toBits, BitVec.ofNat_toNat, BitVec.setWidth_eq]

namespace ElementType

/-- The bits of a value fit the bytes of its type. -/
theorem toWord_lt (t : ElementType) (value : t.Value) :
    t.toWord value < 256 ^ t.byteWidth := by
  cases t with
  | pred => exact Nat.lt_of_le_of_lt (Bool.toNat_le value) (by decide)
  | s32 => exact BitVec.isLt (Int32.toBitVec value)
  | s64 => exact BitVec.isLt (Int64.toBitVec value)
  | f32 => exact BitVec.isLt (Binary.bits value)
  | f64 => exact BitVec.isLt (Binary.bits value)

/-- **The value of a value's bits** is that value. -/
theorem ofWord_toWord (t : ElementType) (value : t.Value) :
    t.ofWord (t.toWord value) = value := by
  cases t with
  | pred => cases value <;> rfl
  | s32 =>
    have h (n : Int32) :
        Int32.ofBitVec (BitVec.ofNat 32 n.toBitVec.toNat) = n := by
      rw [BitVec.ofNat_toNat, BitVec.setWidth_eq, Int32.ofBitVec_toBitVec]
    exact h value
  | s64 =>
    have h (n : Int64) :
        Int64.ofBitVec (BitVec.ofNat 64 n.toBitVec.toNat) = n := by
      rw [BitVec.ofNat_toNat, BitVec.setWidth_eq, Int64.ofBitVec_toBitVec]
    exact h value
  | f32 => exact Binary.ofBits_toBits value
  | f64 => exact Binary.ofBits_toBits value

end ElementType

namespace Literal

/-- **A literal takes the bytes that its shape asks for.** -/
theorem length_toBytes (l : Literal) :
    l.toBytes.length = l.shape.byteSize := by
  have hbytes : l.toBytes.length
      = l.values.length * l.shape.elementType.byteWidth := by
    rw [toBytes, List.length_flatMap]
    simp
  rw [hbytes, Shape.byteSize, saturatingMul, ← l.length_eq,
    Nat.min_eq_right (Nat.le_of_lt l.fits)]

/-- Cutting the bytes of equally wide pieces gives the pieces back. -/
theorem chunks_flatMap {α : Type} {width : Nat} (f : α → List UInt8)
    (hf : ∀ a, (f a).length = width) (l : List α) :
    chunks width l.length (l.flatMap f) = l.map f := by
  induction l with
  | nil => rfl
  | cons a l ih =>
    have hle : (f a).length ≤ width := Nat.le_of_eq (hf a)
    have hge : width ≤ (f a).length := Nat.le_of_eq (hf a).symm
    rw [List.length_cons, chunks, List.flatMap_cons, List.map_cons,
      List.take_append_of_le_length hge, List.take_of_length_le hle,
      List.drop_append, List.drop_of_length_le hle, hf a, Nat.sub_self,
      List.drop_zero, List.nil_append, ih]

/-- **Reading the bytes of a literal gives it back.** -/
theorem ofBytes_toBytes (l : Literal) :
    ofBytes l.shape l.toBytes = .ok l := by
  have hsize : l.toBytes.length < largestSize := by
    rw [l.length_toBytes, Shape.byteSize, saturatingMul, ← l.length_eq]
    exact Nat.lt_of_le_of_lt (Nat.min_le_right _ _) l.fits
  have hvalues : (chunks l.shape.elementType.byteWidth l.shape.elementCount
        l.toBytes).map
        (fun chunk => l.shape.elementType.ofWord (ofLittleEndian chunk))
      = l.values := by
    rw [← l.length_eq, toBytes,
      chunks_flatMap _ (fun _ => length_littleEndian _ _), List.map_map]
    refine (List.map_congr_left fun value _ => ?_).trans (List.map_id _)
    show l.shape.elementType.ofWord (ofLittleEndian _) = value
    rw [ofLittleEndian_littleEndian,
      Nat.mod_eq_of_lt (ElementType.toWord_lt _ _), ElementType.ofWord_toWord]
  rw [ofBytes, dif_pos ⟨l.length_toBytes, hsize⟩]
  simp only [hvalues]

/-- **Elements are laid out in a shape of their type** exactly if they are as
many as it holds and their bytes can be counted. -/
theorem ofElements_eq_ok {shape : Shape}
    {values : List shape.elementType.Value} {l : Literal} :
    ofElements shape ⟨shape.elementType, values⟩ = .ok l
      ↔ ∃ hlength hfits, l = ⟨shape, values, hlength, hfits⟩ := by
  unfold ofElements
  rw [dif_pos rfl]
  dsimp only
  by_cases h : values.length = shape.elementCount
      ∧ values.length * shape.elementType.byteWidth < largestSize
  · rw [dif_pos h, Except.ok.injEq, eq_comm]
    refine ⟨fun heq => ⟨h.1, h.2, heq⟩, ?_⟩
    rintro ⟨_, _, heq⟩
    exact heq
  · rw [dif_neg h]
    simp only [reduceCtorEq, false_iff]
    rintro ⟨hlength, hfits, -⟩
    exact h ⟨hlength, hfits⟩

/-- The elements of a literal are laid out as that literal again. -/
theorem ofElements_elements (l : Literal) :
    ofElements l.shape l.elements = .ok l :=
  ofElements_eq_ok.mpr ⟨l.length_eq, l.fits, rfl⟩

/-- **As many elements as a literal has** can be laid out in its shape. -/
theorem exists_ofElements_of_length (l : Literal)
    {values : List l.shape.elementType.Value}
    (h : values.length = l.values.length) :
    ∃ k, ofElements l.shape ⟨l.shape.elementType, values⟩ = .ok k
      ∧ k.shape = l.shape := by
  have hlength : values.length = l.shape.elementCount := h.trans l.length_eq
  have hfits : values.length * l.shape.elementType.byteWidth < largestSize := by
    rw [h]
    exact l.fits
  exact ⟨_, ofElements_eq_ok.mpr ⟨hlength, hfits, rfl⟩, rfl⟩

/-- Elements in the number that a shape asks for can be counted, if the shape
may be materialized. -/
theorem fits_of_literalByteSize {shape : Shape}
    (hsize : shape.literalByteSize.isSome) :
    shape.elementCount * shape.elementType.byteWidth < largestSize := by
  obtain ⟨size, hsize⟩ := Option.isSome_iff_exists.mp hsize
  obtain ⟨hchecked, hle⟩ := Option.filter_eq_some_iff.mp hsize
  obtain ⟨hmul, -⟩ := Shape.elementCount_mul_of_checkedByteSize hchecked
  rw [hmul]
  exact Nat.lt_of_le_of_lt (of_decide_eq_true hle) (by decide)

/-- **Elements in the number that a shape asks for** are laid out in it
without fail, if the shape may be materialized. -/
theorem ofElements_of_literalByteSize {shape : Shape}
    {values : List shape.elementType.Value}
    (hsize : shape.literalByteSize.isSome)
    (hlength : values.length = shape.elementCount) :
    ∃ hfits, ofElements shape ⟨shape.elementType, values⟩
      = .ok ⟨shape, values, hlength, hfits⟩ := by
  have hfits := fits_of_literalByteSize hsize
  rw [← hlength] at hfits
  exact ⟨hfits, ofElements_eq_ok.mpr ⟨hlength, hfits, rfl⟩⟩

end Literal

/-! ## Operations on literals -/

namespace UnaryOp

/-- **An operation with one operand has a result** of the operand's
shape. -/
theorem exists_onLiteral (op : UnaryOp) (x : Literal) :
    ∃ y, op.onLiteral x = .ok y ∧ y.shape = x.shape := by
  obtain ⟨y, hy, hshape⟩ :=
    x.exists_ofElements_of_length (List.length_map (op.apply _))
  refine ⟨y, ?_, hshape⟩
  rw [onLiteral, hy]
  rfl

end UnaryOp

namespace BinaryOp

/-- Where an operation is defined there is something it does. -/
theorem exists_result? {op : BinaryOp} {t : ElementType}
    (h : op.definedOn t) : ∃ f, op.result? t = some f := by
  cases op <;> cases t <;> first | exact ⟨_, rfl⟩ | simp [definedOn, isLogical,
    ElementType.isIntegral] at h

/-- On elements of one type an operation that is defined pairs them up. -/
theorem onElements_eq_ok {op : BinaryOp} {t : ElementType}
    {f : t.Value → t.Value → t.Value} (hf : op.result? t = some f)
    (xs ys : List t.Value) :
    op.onElements ⟨t, xs⟩ ⟨t, ys⟩ = .ok ⟨t, List.zipWith f xs ys⟩ := by
  simp only [onElements, Elements.as?, dif_pos, hf]

/-- **An operation with two operands of one shape has a result** of that
shape, where it is defined on the elements. -/
theorem exists_onLiterals {op : BinaryOp} {x y : Literal}
    (hshape : x.shape = y.shape) (hop : op.definedOn x.shape.elementType) :
    ∃ z, op.onLiterals x y = .ok z ∧ z.shape = x.shape := by
  obtain ⟨f, hf⟩ := exists_result? hop
  obtain ⟨shape, ys, hys, _⟩ := y
  obtain rfl : x.shape = shape := hshape
  have hlength : (List.zipWith f x.values ys).length = x.values.length := by
    rw [List.length_zipWith, hys, x.length_eq, Nat.min_self]
  obtain ⟨z, hz, hzshape⟩ := x.exists_ofElements_of_length hlength
  refine ⟨z, ?_, hzshape⟩
  show (op.onElements ⟨x.shape.elementType, x.values⟩
    ⟨x.shape.elementType, ys⟩ >>= _) = _
  rw [onElements_eq_ok hf, Except.ok_bind]
  exact congrArg (Except.mapError OperationError.result) hz

end BinaryOp

end TensorBind
