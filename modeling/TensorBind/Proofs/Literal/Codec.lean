import TensorBind.Proofs.Literal

/-!
# Bytes and literals

`Proofs.Literal` shows that the bytes of a literal are read back as that
literal. Here is the other direction, and what both directions are about.

Reading bytes and writing them again changes nothing, except that the byte
of a truth value becomes zero or one (`ElementType.canonicalByte`,
`Literal.toBytes_of_ofBytes`). This is shown for one word, then for the
words that a list of bytes is cut into.

A caller makes literals from elements and from bytes. Elements that can be in
memory are refused only for their type or their number, and kept as they are
otherwise (`Literal.exists_ofElements_iff`, `Literal.elements_of_ofElements`,
`Literal.elements_vector`): the sizes of a shape saturate only where no
elements or bytes could fill them.
-/

namespace TensorBind

/-- The bytes of a word can be counted up to what they can hold. -/
theorem ofLittleEndian_lt (bytes : List UInt8) :
    ofLittleEndian bytes < 256 ^ bytes.length := by
  induction bytes with
  | nil => exact Nat.one_pos
  | cons byte rest ih =>
    have hbyte : byte.toNat < 256 := byte.toNat_lt
    rw [ofLittleEndian, List.length_cons, Nat.pow_succ]
    omega

namespace ElementType

/-- **What a byte is written back as**: a truth value is written as zero or
one, and any other byte as it was. -/
def canonicalByte : ElementType → UInt8 → UInt8
  | pred, byte => if byte = 0 then 0 else 1
  | _, byte => byte

/-- Only truth values have bytes that are not written back. -/
theorem canonicalByte_of_ne_pred {t : ElementType} (h : t ≠ .pred) :
    t.canonicalByte = id := by
  funext byte
  cases t with
  | pred => exact absurd rfl h
  | _ => rfl

/-- **The bits of the value of given bits** are those bits, where every word
is the bits of a value. -/
theorem toWord_ofWord {t : ElementType} (ht : t ≠ .pred) {n : Nat}
    (hn : n < 256 ^ t.byteWidth) : t.toWord (t.ofWord n) = n := by
  cases t with
  | pred => exact absurd rfl ht
  | s32 => exact Nat.mod_eq_of_lt hn
  | s64 => exact Nat.mod_eq_of_lt hn
  | f32 => exact Nat.mod_eq_of_lt hn
  | f64 => exact Nat.mod_eq_of_lt hn

/-- **Reading one word and writing it again.** -/
theorem littleEndian_toWord_ofWord (t : ElementType) {chunk : List UInt8}
    (h : chunk.length = t.byteWidth) :
    littleEndian t.byteWidth (t.toWord (t.ofWord (ofLittleEndian chunk)))
      = chunk.map t.canonicalByte := by
  by_cases ht : t = .pred
  · subst ht
    obtain ⟨byte, rfl⟩ := List.length_eq_one_iff.mp h
    have hzero : byte.toNat = 0 ↔ byte = 0 := UInt8.toNat_inj (b := 0)
    by_cases hbyte : byte = 0
    · subst hbyte
      rfl
    · simp [littleEndian, ofLittleEndian, toWord, ofWord, canonicalByte,
        byteWidth, hzero, hbyte]
  · have hword := ofLittleEndian_lt chunk
    rw [h] at hword
    rw [toWord_ofWord ht hword, canonicalByte_of_ne_pred ht, List.map_id, ← h,
      littleEndian_ofLittleEndian]

end ElementType

namespace Literal

/-! ## From bytes to a literal and back -/

variable {shape : Shape} {bytes : List UInt8} {l : Literal}

/-- **Cutting bytes into words that fill them** loses none. -/
theorem flatten_chunks {width count : Nat} {bytes : List UInt8}
    (h : bytes.length = count * width) :
    (chunks width count bytes).flatten = bytes := by
  induction count generalizing bytes with
  | zero =>
    rw [Nat.zero_mul, List.length_eq_zero_iff] at h
    rw [h]
    rfl
  | succ count ih =>
    have hrest : (bytes.drop width).length = count * width := by
      rw [List.length_drop, h, Nat.succ_mul, Nat.add_sub_cancel]
    rw [chunks, List.flatten_cons, ih hrest, List.take_append_drop]

/-- All words that fill the bytes are as wide as they should be. -/
theorem length_of_mem_chunks {width count : Nat} {bytes chunk : List UInt8}
    (h : bytes.length = count * width)
    (hchunk : chunk ∈ chunks width count bytes) : chunk.length = width := by
  induction count generalizing bytes with
  | zero => exact absurd hchunk List.not_mem_nil
  | succ count ih =>
    rw [Nat.succ_mul] at h
    rcases List.mem_cons.mp hchunk with rfl | hchunk
    · rw [List.length_take, h]
      exact Nat.min_eq_left (Nat.le_add_left _ _)
    · refine ih ?_ hchunk
      rw [List.length_drop, h, Nat.add_sub_cancel]

/-- **Bytes are read** exactly if there are as many as the shape takes, and
few enough to be in memory. -/
theorem ofBytes_eq_ok :
    ofBytes shape bytes = .ok l
      ↔ bytes.length = shape.byteSize ∧ bytes.length < largestSize
        ∧ ∃ hlength hfits, l = ⟨shape, (chunks shape.elementType.byteWidth
            shape.elementCount bytes).map fun chunk =>
          shape.elementType.ofWord (ofLittleEndian chunk),
          hlength, hfits⟩ := by
  unfold ofBytes
  by_cases h : bytes.length = shape.byteSize ∧ bytes.length < largestSize
  · rw [dif_pos h, Except.ok.injEq, eq_comm]
    refine ⟨fun heq => ⟨h.1, h.2, _, _, heq⟩, ?_⟩
    rintro ⟨-, -, _, _, heq⟩
    exact heq
  · rw [dif_neg h]
    simp only [reduceCtorEq, false_iff]
    rintro ⟨hlength, hsize, -⟩
    exact h ⟨hlength, hsize⟩

/-- **Reading bytes and writing them again** gives the same bytes, but for
those of truth values. -/
theorem toBytes_of_ofBytes (h : ofBytes shape bytes = .ok l) :
    l.toBytes = bytes.map shape.elementType.canonicalByte := by
  obtain ⟨hlength, hsize, -, -, rfl⟩ := ofBytes_eq_ok.mp h
  have hfill : bytes.length
      = shape.elementCount * shape.elementType.byteWidth := by
    rw [Shape.elementCount_mul_of_byteSize_lt (hlength ▸ hsize), hlength]
  rw [toBytes, List.flatMap_map]
  -- each word is written as it was read, up to the bytes of truth values
  have hchunks := List.flatMap_congr fun chunk
      (hchunk : chunk ∈ chunks shape.elementType.byteWidth shape.elementCount
        bytes) =>
    shape.elementType.littleEndian_toWord_ofWord
      (length_of_mem_chunks hfill hchunk)
  rw [hchunks, List.flatMap_def, ← List.map_flatten, flatten_chunks hfill]

/-! ## From elements to a literal and back -/

/-- **Elements that can be in memory are laid out in a shape** exactly if
they are of its type and as many as it holds. -/
theorem exists_ofElements_iff {data : Elements}
    (hsize : data.length * data.type.byteWidth < largestSize) :
    (∃ l, ofElements shape data = .ok l)
      ↔ data.type = shape.elementType ∧ data.length = shape.elementCount := by
  obtain ⟨type, values⟩ := data
  by_cases htype : type = shape.elementType
  · subst htype
    simp only [ofElements_eq_ok, true_and]
    refine ⟨?_, fun hlength => ⟨_, hlength, hsize, rfl⟩⟩
    rintro ⟨_, hlength, -⟩
    exact hlength
  · rw [ofElements, dif_neg htype]
    simp [htype]

/-- A literal has the elements that were laid out, and the shape they were
laid out in. -/
theorem elements_of_ofElements {data : Elements}
    (h : ofElements shape data = .ok l) :
    l.shape = shape ∧ l.elements = data := by
  obtain ⟨type, values⟩ := data
  by_cases htype : type = shape.elementType
  · subst htype
    obtain ⟨hlength, hfits, rfl⟩ := ofElements_eq_ok.mp h
    exact ⟨rfl, rfl⟩
  · rw [ofElements, dif_neg htype] at h
    cases h

/-- **The elements of a vector** are those given, as long as they can be in
memory. -/
theorem elements_vector {t : ElementType} {values : List t.Value}
    (h : values.length * t.byteWidth ≤ listCapacity) :
    (vector t values).elements = ⟨t, values⟩ := by
  have hlength : values.length ≤ listCapacity / t.byteWidth :=
    (Nat.le_div_iff_mul_le t.byteWidth_pos).mpr h
  show Elements.mk t (values.take _) = _
  rw [List.take_of_length_le hlength]

end Literal

end TensorBind
