import TensorBind.Proofs.Graph.Parts
import TensorBind.Proofs.Number.Integers
import TensorBind.Structured.Dense

/-!
# Elements of constants in both forms

The graph form reads a token as an element of the type it needs. The
structured form first decides by the token alone whether it is a truth
value, an integer or a floating-point number, and converts it afterwards.
Where both accept a token they mostly give the same element, and
`elements_agree_iff` says exactly when. The route matters only for an
integer in place of a floating-point number: minus zero loses its sign as
an integer, and a 32-bit number is rounded once from the integer but twice
from the text.
-/

namespace TensorBind.Structured

open Format (binary32 binary64)

variable {type : ElementType} {token : List Char} {element : DenseElement}
  {n : Int64} {v w : type.Value}

/-- **What a token is read as.** -/
theorem DenseElement.read?_cases (h : DenseElement.read? token = some element) :
    (∃ b : Bool, token = (cond b "true" "false").toList ∧ element = .bool b)
    ∨ (∃ n, Integer.readInt64 token = .ok n ∧ element = .int n)
    ∨ ∃ x, Integer.readInt64 token = .error x ∧ ∃ y,
      Binary.read? binary64 token = some y ∧ element = .float y := by
  unfold DenseElement.read? at h
  split at h
  · rename_i htrue
    cases h
    exact .inl ⟨true, htrue, rfl⟩
  · split at h
    · rename_i hfalse
      cases h
      exact .inl ⟨false, hfalse, rfl⟩
    · split at h
      · rename_i n hn
        cases h
        exact .inr (.inl ⟨n, hn, rfl⟩)
      · rename_i fault hfault
        obtain ⟨y, hy, rfl⟩ := Option.map_eq_some_iff.mp h
        exact .inr (.inr ⟨fault, hfault, y, hy, rfl⟩)

/-! ## Integers -/

/-- **The integer of a token**, as it is read before it is stored. -/
theorem readInt_of_readInt64 (h : Integer.readInt64 token = .ok n) :
    Integer.readInt (2 ^ 63) (2 ^ 63 - 1) token = .ok n.toInt := by
  obtain ⟨i, hi, rfl⟩ := Except.map_eq_ok.mp h
  have hrange : -2 ^ 63 ≤ i ∧ i < 2 ^ 63 := by
    obtain ⟨digits, -, -, ⟨-, hle, rfl⟩ | ⟨-, hle, rfl⟩⟩ :=
      Integer.readInt_cases hi
    · omega
    · omega
  rw [hi, Int64.toInt_ofInt_of_le hrange.1 hrange.2]

theorem pred_agree {b b' : Bool} (hn : Integer.readInt64 token = .ok n)
    (hgraph : Graph.readPred? token = some b)
    (hconvert : DenseElement.predOfInt? n = some b') : b = b' := by
  unfold Graph.readPred? at hgraph
  split at hgraph
  · rename_i htoken
    cases hgraph
    rcases htoken with rfl | rfl
    · cases hn
    · cases hn
      exact Option.some.inj hconvert
  · split at hgraph
    · rename_i htoken
      cases hgraph
      rcases htoken with rfl | rfl
      · cases hn
      · cases hn
        exact Option.some.inj hconvert
    · cases hgraph

theorem s32_agree {m m' : Int32} (hn : Integer.readInt64 token = .ok n)
    (hgraph : Integer.readInt32 token = .ok m)
    (hconvert : DenseElement.int32OfInt? n = some m') : m = m' := by
  obtain ⟨i, hi, rfl⟩ := Except.map_eq_ok.mp hgraph
  have hwide : Integer.readInt (2 ^ 63) (2 ^ 63 - 1) token = .ok i :=
    Integer.readInt_mono hi (by decide) (by decide)
  rw [readInt_of_readInt64 hn] at hwide
  unfold DenseElement.int32OfInt? at hconvert
  split at hconvert
  · cases hconvert
    exact congrArg Int32.ofInt (Except.ok.inj hwide).symm
  · cases hconvert

/-! ## Floating-point numbers -/

/-- As a 64-bit number an integer is the same in both forms, unless the
token is minus zero. -/
theorem f64_agree_iff {x : Binary binary64}
    (hn : Integer.readInt64 token = .ok n)
    (hgraph : Binary.read? binary64 token = some x) :
    x = Binary.ofInt binary64 n.toInt
      ↔ ¬(n = 0 ∧ token.head? = some '-') := by
  have hread := Binary.read?_eq_ofInt_iff Format.ample_binary64
    (readInt_of_readInt64 hn)
  rwa [hgraph, Option.some.injEq, ← Int64.toInt_zero, Int64.toInt_inj] at hread

/-- As a 32-bit number it must not round away either. -/
theorem f32_agree_iff {x : Binary binary64}
    (hn : Integer.readInt64 token = .ok n)
    (hgraph : Binary.read? binary64 token = some x) :
    x.convert binary32 = Binary.ofInt binary32 n.toInt
      ↔ ¬(n = 0 ∧ token.head? = some '-' ∨ Binary.RoundsAway n.toInt) := by
  by_cases hzero : n = 0 ∧ token.head? = some '-'
  · obtain ⟨rfl, hminus⟩ := hzero
    have hx := Binary.read?_of_readInt Format.ample_binary64
      (readInt_of_readInt64 hn)
    rw [hgraph, Option.some.injEq, decide_eq_true hminus] at hx
    refine iff_of_false ?_ (not_not_intro (.inl ⟨rfl, hminus⟩))
    intro heq
    have hsign := congrArg Binary.negative heq
    rw [Binary.negative_convert Format.ample_binary32.fractionBits_pos, hx,
      Binary.nearest, Binary.negative_ofMagnitude (binary64.nearest_lt _ _),
      Binary.ofInt, Binary.nearest,
      Binary.negative_ofMagnitude (binary32.nearest_lt _ _)] at hsign
    cases hsign
  · have hsize : n.toInt.natAbs ≤ 2 ^ 64 := by
      have hlt := n.toInt_lt
      have hle := n.le_toInt
      omega
    rw [(f64_agree_iff hn hgraph).mpr hzero, Binary.convert_ofInt_iff hsize,
      or_iff_right hzero]

/-! ## All types -/

/-- **Where the forms differ** on a token that is read as an integer. -/
def Differs (type : ElementType) (token : List Char) (n : Int64) : Prop :=
  type.isFloating ∧ (n = 0 ∧ token.head? = some '-'
    ∨ type = .f32 ∧ Binary.RoundsAway n.toInt)

theorem differs_f32 : Differs .f32 token n
    ↔ n = 0 ∧ token.head? = some '-' ∨ Binary.RoundsAway n.toInt := by
  simp [Differs, ElementType.isFloating]

theorem differs_f64 : Differs .f64 token n
    ↔ n = 0 ∧ token.head? = some '-' := by
  simp [Differs, ElementType.isFloating]

/-- A word is a truth value in both forms. -/
theorem word_agree {b : Bool}
    (hgraph : Graph.readValue? type (cond b "true" "false").toList = some v)
    (hconvert : (DenseElement.bool b).convert? type = some w) : v = w := by
  cases type with
  | pred =>
    cases hconvert
    cases b <;> exact (Option.some.inj hgraph).symm
  | s32 => cases hconvert
  | s64 => cases hconvert
  | f32 => cases hconvert
  | f64 => cases hconvert

/-- What is no integer is read at 64 bits in both forms. -/
theorem float_agree {x : Binary binary64}
    (hx : Binary.read? binary64 token = some x)
    (hgraph : Graph.readValue? type token = some v)
    (hconvert : (DenseElement.float x).convert? type = some w) : v = w := by
  cases type with
  | pred => cases hconvert
  | s32 => cases hconvert
  | s64 => cases hconvert
  | f32 =>
    obtain ⟨y, hy, rfl⟩ := Option.map_eq_some_iff.mp hgraph
    cases hx.symm.trans hy
    exact Option.some.inj hconvert
  | f64 =>
    cases hx.symm.trans hgraph
    exact Option.some.inj hconvert

/-- **An integer is the same element in both forms**, unless they differ on
it. -/
theorem integer_agree_iff (hn : Integer.readInt64 token = .ok n)
    (hgraph : Graph.readValue? type token = some v)
    (hconvert : (DenseElement.int n).convert? type = some w) :
    v = w ↔ ¬Differs type token n := by
  cases type with
  | pred => exact iff_of_true (pred_agree hn hgraph hconvert) (nomatch ·.1)
  | s32 =>
    exact iff_of_true
      (s32_agree hn (Graph.eq_ok_of_toOption hgraph) hconvert) (nomatch ·.1)
  | s64 =>
    cases hn.symm.trans (Graph.eq_ok_of_toOption hgraph)
    exact iff_of_true (Option.some.inj hconvert) (nomatch ·.1)
  | f32 =>
    obtain ⟨x, hx, rfl⟩ := Option.map_eq_some_iff.mp hgraph
    cases hconvert
    exact (f32_agree_iff hn hx).trans (not_congr differs_f32.symm)
  | f64 =>
    cases hconvert
    exact (f64_agree_iff hn hgraph).trans (not_congr differs_f64.symm)

/-- **Both forms give the same element** of a token that both accept, unless
it is an integer in place of a floating-point number and is minus zero or,
in 32 bits, rounds away. -/
theorem elements_agree_iff (hgraph : Graph.readValue? type token = some v)
    (hread : DenseElement.read? token = some element)
    (hconvert : element.convert? type = some w) :
    v = w ↔ ¬∃ n, Integer.readInt64 token = .ok n ∧ Differs type token n := by
  rcases DenseElement.read?_cases hread with
    ⟨b, rfl, rfl⟩ | ⟨n, hn, rfl⟩ | ⟨fault, hfault, x, hx, rfl⟩
  · refine iff_of_true (word_agree hgraph hconvert) ?_
    rintro ⟨n, hn, -⟩
    cases b <;> cases hn
  · rw [integer_agree_iff hn hgraph hconvert]
    refine not_congr ⟨fun hdiffers => ⟨n, hn, hdiffers⟩, ?_⟩
    rintro ⟨m, hm, hdiffers⟩
    cases hn.symm.trans hm
    exact hdiffers
  · refine iff_of_true (float_agree hx hgraph hconvert) ?_
    rintro ⟨n, hn, -⟩
    cases hfault.symm.trans hn

/-- An integer just above the middle between two 32-bit numbers, which is
its nearest 64-bit number. -/
def aboveMiddle : Int64 := 9007199791611905

/-- The 32-bit numbers on both sides of the middle, the lower one first. -/
def aroundMiddle (upper : Bool) : ElementType.Value .f32 :=
  Binary.ofBits binary32 (cond upper 0x5a000001 0x5a000000)

/-- Both forms on two tokens. -/
theorem elements_of_tokens :
    Graph.readValue? .f32 "9007199791611905".toList
        = some (aroundMiddle false)
      ∧ Integer.readInt64 "9007199791611905".toList = .ok aboveMiddle
      ∧ DenseElement.read? "9007199791611905".toList = some (.int aboveMiddle)
      ∧ (DenseElement.int aboveMiddle).convert? .f32
        = some (aroundMiddle true)
      ∧ Binary.read? binary64 "-0".toList = some (Binary.zero binary64 true)
      ∧ DenseElement.read? "-0".toList = some (.int 0)
      ∧ Binary.ofInt binary64 0 = Binary.zero binary64 false := by
  decide +kernel

theorem aboveMiddle_elements_agree_iff :
    Graph.readValue? .f32 "9007199791611905".toList
        = some (aroundMiddle false)
      ∧ DenseElement.read? "9007199791611905".toList = some (.int aboveMiddle)
      ∧ (DenseElement.int aboveMiddle).convert? .f32
        = some (aroundMiddle true)
      ∧ Differs .f32 "9007199791611905".toList aboveMiddle := by
  obtain ⟨hgraph, hinteger, hread, hconvert, -⟩ := elements_of_tokens
  have hne : aroundMiddle false ≠ aroundMiddle true := by decide
  obtain ⟨n, hn, hdiffers⟩ := not_not.mp
    (mt (elements_agree_iff hgraph hread hconvert).mpr hne)
  cases hn.symm.trans hinteger
  exact ⟨hgraph, hread, hconvert, hdiffers⟩

/-- Minus zero is negative in one form only. -/
theorem minusZero_elements_differ :
    ¬∀ (type : ElementType) (token : List Char) (element : DenseElement)
      (v w : type.Value), Graph.readValue? type token = some v →
      DenseElement.read? token = some element →
      element.convert? type = some w → v = w := by
  intro hall
  obtain ⟨-, -, -, -, hgraph, hread, hzero⟩ := elements_of_tokens
  have hsame := hall .f64 "-0".toList (.int 0) (Binary.zero binary64 true)
    (Binary.zero binary64 false) hgraph hread (congrArg some hzero)
  have hne : Binary.zero binary64 true ≠ Binary.zero binary64 false := by
    decide
  exact hne hsame

end TensorBind.Structured
