import TensorBind.Proofs.Literal
import TensorBind.Proofs.Number.Integers
import TensorBind.Structured.Dense

/-!
# Dense attributes, element by element

A dense attribute has an element for each place of an array: the one that
stands there, or the only one there is (`Dense.element?`). What an element
becomes in an array of a given type is said by a relation
(`DenseElement.Becomes`) that mentions no conversion: integers keep their
value, and what is not a number of the format is rounded to the nearest
one. Of a NaN it says only that it stays one.

An attribute is materialized exactly if the type may be, there is one
element or one for each place, and all of them become elements of the type
(`Dense.toLiteral_elementwise`). Laying the elements out cannot fail after
that. A single element is an abbreviation: it gives what a copy of it for
each place would give, be that an array or an error
(`Dense.toLiteral_singleton`).
-/

namespace TensorBind

open Format (binary32 binary64)

/-- **A number that a magnitude is rounded to**, with a given sign. What is
too large for the format is infinite. -/
def Binary.RoundedFrom {F : Format} (negative : Bool) (magnitude : ℚ)
    (x : Binary F) : Prop :=
  ∃ field, F.RoundsTo magnitude field
    ∧ x = Binary.ofMagnitude F negative (Min.min F.infinity field)

namespace Structured

/-! ## One element -/

/-- **What an element becomes** in an array of a type. -/
inductive DenseElement.Becomes :
    (t : ElementType) → DenseElement → t.Value → Prop
  /-- A truth value is a truth value. -/
  | truth (b : Bool) : Becomes .pred (.bool b) b
  /-- Zero is false. -/
  | zero : Becomes .pred (.int 0) false
  /-- One is true. -/
  | one : Becomes .pred (.int 1) true
  /-- An integer is the same in 32 bits, if it is in their range. -/
  | narrow {n : Int64} {m : Int32} (h : m.toInt = n.toInt) :
    Becomes .s32 (.int n) m
  /-- An integer is an integer. -/
  | keep (n : Int64) : Becomes .s64 (.int n) n
  /-- An integer is rounded to 32 bits. -/
  | single {n : Int64} {x : Binary binary32}
    (h : x.RoundedFrom (decide (n.toInt < 0)) n.toInt.natAbs) :
    Becomes .f32 (.int n) x
  /-- An integer is rounded to 64 bits. -/
  | double {n : Int64} {x : Binary binary64}
    (h : x.RoundedFrom (decide (n.toInt < 0)) n.toInt.natAbs) :
    Becomes .f64 (.int n) x
  /-- A finite number is rounded to 32 bits. -/
  | finite {y : Binary binary64} {x : Binary binary32}
    (hy : y.magnitude < binary64.infinity)
    (h : x.RoundedFrom y.negative (binary64.value y.magnitude)) :
    Becomes .f32 (.float y) x
  /-- An infinite number stays infinite. -/
  | infinite (negative : Bool) :
    Becomes .f32 (.float (.infinite binary64 negative))
      (Binary.infinite binary32 negative)
  /-- A NaN stays a NaN. -/
  | nan {y : Binary binary64} {x : Binary binary32} (hy : y.isNaN)
    (hx : x.isNaN) : Becomes .f32 (.float y) x
  /-- A number is a number. -/
  | keepFloat (y : Binary binary64) : Becomes .f64 (.float y) y

namespace DenseElement

variable {t : ElementType} {e : DenseElement} {v : t.Value} {n : Int64}

theorem becomes_pred {b : Bool} (h : predOfInt? n = some b) :
    Becomes .pred (.int n) b := by
  unfold predOfInt? at h
  split at h
  · rename_i hzero
    cases h
    exact hzero ▸ .zero
  · split at h
    · rename_i hone
      cases h
      exact hone ▸ .one
    · cases h

/-- **An integer fits into 32 bits** exactly if it is the value of some. -/
theorem int32OfInt?_eq_some {m : Int32} :
    int32OfInt? n = some m ↔ m.toInt = n.toInt := by
  unfold int32OfInt?
  constructor
  · intro h
    split at h
    · rename_i hrange
      cases h
      exact Int32.toInt_ofInt_of_le hrange.1 hrange.2
    · cases h
  · intro h
    have hle := m.le_toInt
    have hlt := m.toInt_lt
    rw [h] at hle hlt
    rw [if_pos ⟨hle, hlt⟩, ← h, Int32.ofInt_toInt]

/-- A number of 64 bits, narrowed to 32. -/
theorem becomes_convert (y : Binary binary64) :
    Becomes .f32 (.float y) (y.convert binary32) := by
  have hw := Format.ample_binary32.fractionBits_pos
  by_cases hnan : y.isNaN
  · refine .nan hnan ?_
    rw [Binary.convert, if_pos hnan, Binary.isNaN,
      Binary.magnitude_ofMagnitude (binary32.quietNaN_lt hw)]
    decide
  · rcases (Binary.magnitude_le hnan).lt_or_eq with hfinite | hinfinite
    · obtain ⟨field, hfield⟩ :=
        binary32.exists_roundsTo_value hw binary64 y.magnitude
      exact .finite hfinite ⟨field, hfield,
        Binary.convert_eq hw hfinite hfield⟩
    · have hy : Binary.infinite binary64 y.negative = y := by
        rw [Binary.infinite, ← hinfinite, y.ofMagnitude_eq]
      rw [← hy, Binary.convert_infinite]
      exact .infinite y.negative

/-- **A converted element** is what the element becomes. -/
theorem becomes_of_convert? (h : e.convert? t = some v) : e.Becomes t v := by
  cases t with
  | pred =>
    cases e with
    | bool b =>
      cases h
      exact .truth _
    | int n => exact becomes_pred h
    | float y => cases h
  | s32 =>
    cases e with
    | bool b => cases h
    | int n => exact .narrow (int32OfInt?_eq_some.mp h)
    | float y => cases h
  | s64 =>
    cases e with
    | bool b => cases h
    | int n =>
      cases h
      exact .keep _
    | float y => cases h
  | f32 =>
    cases e with
    | bool b => cases h
    | int n =>
      cases h
      exact .single (Binary.exists_ofInt_eq
        Format.ample_binary32.fractionBits_pos n.toInt)
    | float y =>
      cases h
      exact becomes_convert y
  | f64 =>
    cases e with
    | bool b => cases h
    | int n =>
      cases h
      exact .double (Binary.exists_ofInt_eq
        Format.ample_binary64.fractionBits_pos n.toInt)
    | float y =>
      cases h
      exact .keepFloat _

/-- **What becomes an element of a type is converted to it.** -/
theorem Becomes.exists_convert? (h : e.Becomes t v) :
    ∃ w, e.convert? t = some w := by
  cases h with
  | narrow h => exact ⟨_, int32OfInt?_eq_some.mpr h⟩
  | _ => exact ⟨_, rfl⟩

end DenseElement

/-! ## All elements -/

namespace Dense

variable {t : ElementType} {elements spreadOut : Dense}
  {values : List t.Value} {count i : Nat}

/-- **The element for a place**, which is the only one if there is no
other. -/
def element? (elements : Dense) (place : Nat) : Option DenseElement :=
  elements[if elements.length = 1 then 0 else place]?

/-- **Elements are converted one by one.** -/
theorem convertAll_eq_ok :
    convertAll t elements = .ok values
      ↔ List.Forall₂ (fun e v => e.convert? t = some v) elements values := by
  induction elements generalizing values with
  | nil =>
    rw [convertAll, List.forall₂_nil_left_iff, Except.ok.injEq, eq_comm]
  | cons e elements ih =>
    rw [convertAll, List.forall₂_cons_left_iff]
    cases hconvert : e.convert? t with
    | none =>
      refine iff_of_false (by rintro ⟨⟩) ?_
      rintro ⟨v, rest, h, -⟩
      cases h
    | some v =>
      simp only [Except.map_eq_ok, ih, Option.some.injEq]
      constructor
      · rintro ⟨rest, hrest, rfl⟩
        exact ⟨v, rest, rfl, hrest, rfl⟩
      · rintro ⟨_, rest, rfl, hrest, rfl⟩
        exact ⟨rest, hrest, rfl⟩

/-- An element that is given back cannot be converted. -/
theorem of_convertAll_eq_error {e : DenseElement}
    (h : convertAll t elements = .error e) :
    e ∈ elements ∧ e.convert? t = none := by
  induction elements with
  | nil => cases h
  | cons first elements ih =>
    rw [convertAll] at h
    cases hconvert : first.convert? t with
    | none =>
      rw [hconvert] at h
      cases h
      exact ⟨List.mem_cons_self, hconvert⟩
    | some v =>
      rw [hconvert] at h
      cases hrest : convertAll t elements with
      | error other =>
        rw [hrest] at h
        cases h
        obtain ⟨hmem, hnone⟩ := ih hrest
        exact ⟨List.mem_cons_of_mem _ hmem, hnone⟩
      | ok values =>
        rw [hrest] at h
        cases h

/-- A single element goes to every place. -/
theorem spread_singleton (e : DenseElement) (count : Nat) :
    spread [e] count = some (List.replicate count e) := rfl

theorem spread_of_length_ne_one (h : elements.length ≠ 1) :
    elements.spread count
      = if elements.length = count then some elements else none := by
  unfold spread
  split
  · exact absurd rfl h
  · rfl

/-- Copies of an element for each place stay as they are. -/
theorem spread_replicate (e : DenseElement) (count : Nat) :
    spread (List.replicate count e) count
      = some (List.replicate count e) := by
  by_cases hone : count = 1
  · rw [hone]
    rfl
  · rw [spread_of_length_ne_one (by rwa [List.length_replicate]),
      if_pos List.length_replicate]

/-- **Elements can be spread out** if there is one, or one for each
place. -/
theorem spread_eq_none :
    elements.spread count = none
      ↔ ¬(elements.length = 1 ∨ elements.length = count) := by
  by_cases hone : elements.length = 1
  · obtain ⟨e, rfl⟩ := List.length_eq_one_iff.mp hone
    rw [spread_singleton]
    simp
  · rw [spread_of_length_ne_one hone]
    simp [hone]

/-- Elements that are spread out fill all places. -/
theorem length_of_spread (h : elements.spread count = some spreadOut) :
    spreadOut.length = count := by
  by_cases hone : elements.length = 1
  · obtain ⟨e, rfl⟩ := List.length_eq_one_iff.mp hone
    cases h
    exact List.length_replicate
  · rw [spread_of_length_ne_one hone] at h
    split at h
    · rename_i hlength
      cases h
      exact hlength
    · cases h

/-- **Each place gets its element.** -/
theorem getElem?_of_spread (h : elements.spread count = some spreadOut)
    (hi : i < count) : spreadOut[i]? = elements.element? i := by
  unfold element?
  by_cases hone : elements.length = 1
  · obtain ⟨e, rfl⟩ := List.length_eq_one_iff.mp hone
    cases h
    rw [List.getElem?_replicate, if_pos hi]
    rfl
  · rw [spread_of_length_ne_one hone] at h
    rw [if_neg hone]
    split at h
    · cases h
      rfl
    · cases h

/-! ## The literal -/

variable {type : Shape} {l : Literal}

/-- **What can come of an attribute.** -/
theorem toLiteral_cases (elements : Dense) (type : Shape) :
    ¬type.literalByteSize.isSome
      ∧ elements.toLiteral type = .error (.tooLarge type)
    ∨ elements.spread type.elementCount = none
      ∧ elements.toLiteral type
        = .error (.countMismatch elements.length type)
    ∨ ∃ spreadOut, elements.spread type.elementCount = some spreadOut
      ∧ ((∃ e ∈ spreadOut, e.convert? type.elementType = none
          ∧ elements.toLiteral type = .error (.invalidElement e type))
        ∨ type.literalByteSize.isSome ∧ ∃ values hlength hfits,
          List.Forall₂ (fun e v => e.convert? type.elementType = some v)
            spreadOut values
          ∧ elements.toLiteral type
            = .ok ⟨type, values, hlength, hfits⟩) := by
  unfold toLiteral
  cases hsize : type.literalByteSize with
  | none => exact .inl ⟨Bool.false_ne_true, rfl⟩
  | some size =>
    refine .inr ?_
    rw [Option.isNone_some, if_neg Bool.false_ne_true]
    cases hspread : elements.spread type.elementCount with
    | none => exact .inl ⟨rfl, rfl⟩
    | some spreadOut =>
      refine .inr ⟨spreadOut, rfl, ?_⟩
      cases hvalues : convertAll type.elementType spreadOut with
      | error e =>
        obtain ⟨hmem, hnone⟩ := of_convertAll_eq_error hvalues
        exact .inl ⟨e, hmem, hnone, by simp only [hvalues]⟩
      | ok values =>
        have hall := convertAll_eq_ok.mp hvalues
        have hlength : values.length = type.elementCount :=
          hall.length_eq.symm.trans (length_of_spread hspread)
        obtain ⟨hfits, hlaid⟩ := Literal.ofElements_of_literalByteSize
          (by rw [hsize]; rfl) hlength
        refine .inr ⟨rfl, values, hlength, hfits, hall, ?_⟩
        simp only [hvalues, hlaid]
        rfl

/-- **An attribute is materialized** if the type may be and all elements can
be converted once they are spread out. -/
theorem toLiteral_eq_ok :
    elements.toLiteral type = .ok l
      ↔ type.literalByteSize.isSome ∧ ∃ spreadOut values,
        elements.spread type.elementCount = some spreadOut
        ∧ List.Forall₂ (fun e v => e.convert? type.elementType = some v)
          spreadOut values
        ∧ ∃ hlength hfits, l = ⟨type, values, hlength, hfits⟩ := by
  obtain ⟨hsize, herror⟩ | ⟨hspread, herror⟩
    | ⟨spreadOut, hspread, ⟨e, hmem, hnone, herror⟩
      | ⟨hsize, values, hlength, hfits, hall, hok⟩⟩ :=
        toLiteral_cases elements type
  · simp [herror, hsize]
  · simp [herror, hspread]
  · refine iff_of_false (by rw [herror]; rintro ⟨⟩) ?_
    rintro ⟨-, out, values, hout, hall, -⟩
    obtain rfl := Option.some.inj (hspread.symm.trans hout)
    obtain ⟨v, -, hv⟩ := hall.exists_of_mem hmem
    exact absurd (hnone.symm.trans hv) (by rintro ⟨⟩)
  · rw [hok, Except.ok.injEq]
    constructor
    · rintro rfl
      exact ⟨hsize, spreadOut, values, hspread, hall, hlength, hfits, rfl⟩
    · rintro ⟨-, out, values', hout, hall', -, -, rfl⟩
      obtain rfl := Option.some.inj (hspread.symm.trans hout)
      have heq := (convertAll_eq_ok.mpr hall).symm.trans
        (convertAll_eq_ok.mpr hall')
      obtain rfl := Except.ok.inj heq
      rfl

/-- **A single element is an abbreviation** for one at each place. -/
theorem toLiteral_singleton (e : DenseElement) (type : Shape) :
    toLiteral [e] type
      = toLiteral (List.replicate type.elementCount e) type := by
  unfold toLiteral
  rw [spread_singleton, spread_replicate]

/-- **What cannot be materialized fails to be lowered.** -/
theorem kind_of_toLiteral_eq_error {cause : DenseError}
    (h : elements.toLiteral type = .error cause) :
    cause.toFault.kind = .lowering := by
  obtain ⟨-, herror⟩ | ⟨-, herror⟩
    | ⟨spreadOut, -, ⟨e, -, -, herror⟩ | ⟨-, values, _, _, -, hok⟩⟩ :=
      toLiteral_cases elements type
  · cases herror.symm.trans h
    rfl
  · cases herror.symm.trans h
    rfl
  · cases herror.symm.trans h
    rfl
  · cases hok.symm.trans h

/-- What stands at a place of the array is what its element becomes. -/
theorem exists_becomes_of_forall₂
    (hspread : elements.spread count = some spreadOut)
    (hall : List.Forall₂ (fun e v => e.convert? t = some v) spreadOut values)
    (hi : i < count) :
    ∃ e v, elements.element? i = some e ∧ values[i]? = some v
      ∧ e.convert? t = some v ∧ e.Becomes t v := by
  have hlt : i < spreadOut.length := (length_of_spread hspread).symm ▸ hi
  have he := List.getElem?_eq_getElem hlt
  obtain ⟨v, hv, hconvert⟩ := hall.exists_getElem? he
  rw [getElem?_of_spread hspread hi] at he
  exact ⟨_, v, he, hv, hconvert, DenseElement.becomes_of_convert? hconvert⟩

/-- **Dense attributes are materialized element by element.** That takes a
type of which arrays may be materialized, one element or one for each place,
and that the element for each place becomes one of the type. The array has
the type and holds at each place what the element for it is converted to,
which is what it should become. Everything else fails to be lowered. Hence
one element is the same as a copy of it for each place. -/
theorem toLiteral_elementwise (elements : Dense) (type : Shape) :
    ((∃ l, elements.toLiteral type = .ok l)
      ↔ type.literalByteSize.isSome
        ∧ (elements.length = 1 ∨ elements.length = type.elementCount)
        ∧ ∀ i < type.elementCount, ∃ e v, elements.element? i = some e
          ∧ e.Becomes type.elementType v)
    ∧ (∀ l, elements.toLiteral type = .ok l →
      l.shape = type ∧ ∃ values, l.elements = ⟨type.elementType, values⟩
        ∧ values.length = type.elementCount
        ∧ ∀ i < type.elementCount, ∃ e v, elements.element? i = some e
          ∧ values[i]? = some v ∧ e.convert? type.elementType = some v
          ∧ e.Becomes type.elementType v)
    ∧ (∀ cause, elements.toLiteral type = .error cause →
      cause.toFault.kind = .lowering)
    ∧ ∀ e, toLiteral [e] type
      = toLiteral (List.replicate type.elementCount e) type := by
  refine ⟨⟨?_, ?_⟩, ?_, fun _ => kind_of_toLiteral_eq_error,
    fun e => toLiteral_singleton e type⟩
  · rintro ⟨l, hl⟩
    obtain ⟨hsize, spreadOut, values, hspread, hall, -⟩ :=
      toLiteral_eq_ok.mp hl
    refine ⟨hsize, ?_, fun i hi => ?_⟩
    · by_contra hcount
      rw [spread_eq_none.mpr hcount] at hspread
      cases hspread
    · obtain ⟨e, v, he, -, -, hbecomes⟩ :=
        exists_becomes_of_forall₂ hspread hall hi
      exact ⟨e, v, he, hbecomes⟩
  · rintro ⟨hsize, hcount, hbecomes⟩
    obtain ⟨spreadOut, hspread⟩ := Option.ne_none_iff_exists'.mp
      (mt spread_eq_none.mp (not_not_intro hcount))
    have hconvert : ∀ e ∈ spreadOut,
        ∃ v, e.convert? type.elementType = some v := by
      intro e he
      obtain ⟨i, hi, rfl⟩ := List.mem_iff_getElem.mp he
      have hplace : i < type.elementCount := length_of_spread hspread ▸ hi
      obtain ⟨e, v, hplaced, hv⟩ := hbecomes i hplace
      rw [← getElem?_of_spread hspread hplace, List.getElem?_eq_getElem hi,
        Option.some.injEq] at hplaced
      exact hplaced ▸ hv.exists_convert?
    obtain ⟨values, hall⟩ := List.exists_forall₂ hconvert
    have hlength : values.length = type.elementCount :=
      hall.length_eq.symm.trans (length_of_spread hspread)
    have hfits := Literal.fits_of_literalByteSize hsize
    rw [← hlength] at hfits
    exact ⟨⟨type, values, hlength, hfits⟩, toLiteral_eq_ok.mpr
      ⟨hsize, spreadOut, values, hspread, hall, hlength, hfits, rfl⟩⟩
  · intro l hl
    obtain ⟨-, spreadOut, values, hspread, hall, hlength, -, rfl⟩ :=
      toLiteral_eq_ok.mp hl
    exact ⟨rfl, values, rfl, hlength,
      fun i hi => exists_becomes_of_forall₂ hspread hall hi⟩

/-- Three sevens are written as one; a truth value in their place is no
integer, and an array of no elements takes it. -/
theorem sevens_toLiteral_elementwise :
    (∃ l, toLiteral [.int 7] ⟨.s32, [3]⟩ = .ok l)
    ∧ toLiteral [.int 7] ⟨.s32, [3]⟩
      = toLiteral [.int 7, .int 7, .int 7] ⟨.s32, [3]⟩
    ∧ (∃ cause, toLiteral [.bool true] ⟨.s32, [3]⟩ = .error cause
      ∧ cause.toFault.kind = .lowering)
    ∧ toLiteral [.bool true] ⟨.s32, [2, 0]⟩ = toLiteral [] ⟨.s32, [2, 0]⟩
    ∧ ∃ l values, toLiteral [] ⟨.s32, [2, 0]⟩ = .ok l
      ∧ l.elements = ⟨.s32, values⟩ ∧ values.length = 0 := by
  obtain ⟨hsevens, -, -, hcopies⟩ :=
    toLiteral_elementwise [.int 7] ⟨.s32, [3]⟩
  obtain ⟨-, -, hfails, -⟩ := toLiteral_elementwise [.bool true] ⟨.s32, [3]⟩
  obtain ⟨-, hempty, -, hnone⟩ := toLiteral_elementwise [] ⟨.s32, [2, 0]⟩
  refine ⟨hsevens.mpr ⟨rfl, .inl rfl, fun i _ => ?_⟩, hcopies (.int 7),
    ⟨_, rfl, hfails _ rfl⟩, hnone (.bool true), ?_⟩
  · exact ⟨.int 7, (7 : Int32), rfl, .narrow rfl⟩
  · obtain ⟨-, values, heq, hlength, -⟩ := hempty _ rfl
    exact ⟨_, values, rfl, heq, hlength⟩

end Dense

end Structured

end TensorBind
