import TensorBind.Proofs.Graph.Parts
import TensorBind.Proofs.Number.Separation

/-!
# Values of constants

What is written for a value in a constant is one token, and reading it gives
the value back (`values_read_back`). Truth values and integers always come
back, and so does every 64-bit number, which is read in its own format. A
32-bit number is read at 64 bits and narrowed, so its text is rounded twice.
This gives back every number but those of one magnitude, which become their
neighbours away from zero.
-/

namespace TensorBind

open Format (binary32 binary64)

namespace Binary

/-- **The text of a 32-bit number, read at 64 bits and narrowed.** -/
theorem convert_read?_plain {x : Binary binary32} (h : ¬x.isNaN)
    (hne : x.magnitude ≠ oddOneOut) :
    (read? binary64 x.plain.toList).map (convert binary32) = some x := by
  have hle := magnitude_le h
  rcases hle.lt_or_eq with hlt | heq
  · obtain ⟨fine, hfine⟩ := (binary32.shortest x.magnitude).exists_roundsTo
      Format.ample_binary64.fractionBits_pos
    have hfinite : fine < binary64.infinity :=
      Format.finer_binary64.lt_infinity hfine
        (Format.roundsTo_shortest Format.ample_binary32 hlt) hlt
    have hbits := hfinite.trans binary64.infinity_lt
    rw [read?_plain_of_finite Format.ample_binary64 hlt hfine,
      Nat.min_eq_right hfinite.le, Option.map_some,
      convert_eq Format.ample_binary32.fractionBits_pos
        (by rwa [magnitude_ofMagnitude hbits])
        (by
          rw [magnitude_ofMagnitude hbits]
          exact Format.roundsTo_shortest_fine hlt hne hfine),
      negative_ofMagnitude hbits, Nat.min_eq_right hle, x.ofMagnitude_eq]
  · rw [read?_plain_of_infinite binary64 (decide_eq_true heq),
      Option.map_some, convert_infinite, infinite, ← heq, x.ofMagnitude_eq]

/-- **The number that does not come back** comes back as its neighbour. -/
theorem convert_read?_plain_oddOneOut (negative : Bool) :
    (read? binary64 (ofMagnitude binary32 negative oddOneOut).plain.toList).map
        (convert binary32)
      = some (ofMagnitude binary32 negative (oddOneOut + 1)) := by
  cases negative with
  | false => decide +kernel
  | true => decide +kernel

end Binary

namespace Graph

open TensorBind.Parser (IsScalar isScalarChar Reads scalarToken)

variable {type : ElementType} {token : List Char} {v : type.Value}

/-- **A text that is one token** wherever it stands, as long as nothing
follows that goes on as a scalar. -/
def IsToken (text : List Char) : Prop :=
  ∀ rest : List Char, rest.head?.any isScalarChar = false →
    Reads scalarToken (text ++ rest) text rest

/-- Whether a value is a number, as everything but a NaN is. -/
def isNumber : (type : ElementType) → type.Value → Bool
  | .f32, x => !Binary.isNaN x
  | .f64, x => !Binary.isNaN x
  | _, _ => true

/-- **The values that do not come back**: the two 32-bit numbers of one
magnitude. -/
def IsLost : (type : ElementType) → type.Value → Prop
  | .f32, x => Binary.magnitude x = oddOneOut
  | _, _ => False

theorem isToken_of_readValue? (h : readValue? type token = some v) :
    IsToken token := by
  have hscalar : IsScalar token := isScalar_of_readValue? h
  exact fun rest => .scalarToken hscalar (hscalar.unblanked_append rest)

/-- A single token is read as it is read by itself. -/
theorem readValues_singleton :
    readValues type [token] = .ok [v] ↔ readValue? type token = some v := by
  rw [readValues]
  cases hread : readValue? type token with
  | none =>
    constructor <;> intro h <;> cases h
  | some w =>
    show Except.ok [w] = .ok [v] ↔ _
    rw [Except.ok.injEq, List.cons.injEq, Option.some.injEq,
      and_iff_left rfl]

/-- **The text of a 32-bit number is read**, as the number itself unless it
is lost. -/
theorem readValue?_render_f32 (x : ElementType.Value .f32)
    (hnumber : ¬Binary.isNaN x) :
    ∃ y, readValue? .f32 (ElementType.render .f32 x).toList = some y
      ∧ (y = x ↔ ¬IsLost .f32 x) := by
  by_cases hlost : Binary.magnitude x = oddOneOut
  · have hread := Binary.convert_read?_plain_oddOneOut (Binary.negative x)
    rw [← hlost, Binary.ofMagnitude_eq x] at hread
    refine ⟨_, hread, iff_of_false ?_ (not_not_intro hlost)⟩
    intro heq
    have hmagnitude := congrArg Binary.magnitude heq
    rw [hlost, Binary.magnitude_ofMagnitude (by decide)] at hmagnitude
    exact absurd hmagnitude (Nat.succ_ne_self _)
  · exact ⟨x, Binary.convert_read?_plain hnumber hlost,
      iff_of_true rfl hlost⟩

/-- **The text of a number is read.** -/
theorem exists_readValue?_render (hnumber : isNumber type v) :
    ∃ w, readValue? type (type.render v).toList = some w
      ∧ (w = v ↔ ¬IsLost type v) := by
  cases type with
  | pred => exact ⟨v, readValue?_render (by decide) v, iff_of_true rfl id⟩
  | s32 => exact ⟨v, readValue?_render (by decide) v, iff_of_true rfl id⟩
  | s64 => exact ⟨v, readValue?_render (by decide) v, iff_of_true rfl id⟩
  | f32 =>
    rw [isNumber, Bool.not_eq_true', ← Bool.not_eq_true] at hnumber
    exact readValue?_render_f32 v hnumber
  | f64 =>
    rw [isNumber, Bool.not_eq_true', ← Bool.not_eq_true] at hnumber
    exact ⟨v, Binary.read?_plain Format.ample_binary64 hnumber,
      iff_of_true rfl id⟩

/-- **A value comes back from its text**: what is written for a number is one
token, and it is read as the number unless that is lost. -/
theorem values_read_back (hnumber : isNumber type v) :
    IsToken (type.render v).toList
      ∧ (readValues type [(type.render v).toList] = .ok [v]
        ↔ ¬IsLost type v) := by
  obtain ⟨w, hread, hlost⟩ := exists_readValue?_render hnumber
  refine ⟨isToken_of_readValue? hread, ?_⟩
  rw [readValues_singleton, hread, Option.some.injEq, hlost]

/-- A tenth in 32 bits. -/
def tenth : ElementType.Value .f32 := Binary.ofBits binary32 0x3dcccccd

/-- The larger of the two numbers that are lost. -/
def lostNumber : ElementType.Value .f32 := Binary.ofBits binary32 0x15ae43fd

theorem tenth_read_back :
    readValues .f32 [(ElementType.render .f32 tenth).toList] = .ok [tenth]
      ∧ readValues .f32 [(ElementType.render .f32 lostNumber).toList]
        ≠ .ok [lostNumber] := by
  have htenth : ¬IsLost .f32 tenth := by
    show ¬Binary.magnitude tenth = oddOneOut
    decide
  have hlost : IsLost .f32 lostNumber := by
    show Binary.magnitude lostNumber = oddOneOut
    decide
  exact ⟨(values_read_back (by decide)).2.mpr htenth,
    mt (values_read_back (by decide)).2.mp (not_not_intro hlost)⟩

/-- The text of the number that is lost is read as the next number. -/
theorem lostNumber_not_read_back :
    ¬∀ x : ElementType.Value .f32, isNumber .f32 x →
      readValues .f32 [(ElementType.render .f32 x).toList] = .ok [x] := by
  intro hall
  have hread := readValues_singleton.mp (hall lostNumber (by decide))
  have hnext : readValue? .f32 (ElementType.render .f32 lostNumber).toList
      = some _ := Binary.convert_read?_plain_oddOneOut false
  have hsame := Option.some.inj (hnext.symm.trans hread)
  have hne : Binary.ofMagnitude binary32 false (oddOneOut + 1)
      ≠ Binary.ofBits binary32 0x15ae43fd := by
    decide
  exact hne hsame

end Graph

end TensorBind
