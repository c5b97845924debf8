import TensorBind.Number.Reading
import TensorBind.Proofs.Outcome
import TensorBind.Proofs.Text.Reads

/-!
# Numbers in texts

Integers are written in decimal and read back (`Integer.readInt_toString`).
Whatever is read as a number is one scalar token, so that a text in which
it stands is cut at the right places (`Binary.isScalar_of_read?`).
-/

namespace TensorBind

/-! ## Integers -/

namespace Integer

theorem digit?_eq_some {c : Char} {d : Nat} :
    digit? c = some d ↔ isDecimalDigit c ∧ d = c.toNat - '0'.toNat := by
  unfold digit? isDecimalDigit
  rw [Bool.and_eq_true, decide_eq_true_eq, decide_eq_true_eq]
  split
  · rename_i h
    rw [Option.some.injEq, and_iff_right h, eq_comm]
  · rename_i h
    exact ⟨nofun, fun hc => absurd hc.1 h⟩

/-- **The digits of a number are read** up to the bound. -/
theorem readDigits_eq_ok {bound value : Nat} {fault : IntegerFault}
    {digits : List Char} (hdigits : ∀ c ∈ digits, isDecimalDigit c)
    (hbound : Nat.ofDigitChars 10 digits value ≤ bound) :
    readDigits bound fault value digits
      = .ok (Nat.ofDigitChars 10 digits value) := by
  induction digits generalizing value with
  | nil => rfl
  | cons c digits ih =>
    rw [List.forall_mem_cons] at hdigits
    rw [Nat.ofDigitChars_cons] at hbound ⊢
    have hle : 10 * value + (c.toNat - '0'.toNat) ≤ bound := by
      refine Nat.le_trans ?_ hbound
      rw [Nat.ofDigitChars_eq_ofDigitChars_zero]
      exact Nat.le_add_right_of_le (Nat.le_mul_of_pos_left _ (Nat.pow_pos (by decide)))
    rw [readDigits, digit?_eq_some.mpr ⟨hdigits.1, rfl⟩]
    dsimp only
    rw [if_pos hle, ih hdigits.2 hbound]

/-- The text of a number is its digits, at least one. -/
theorem exists_digit_toString (n : Nat) :
    ∃ c digits, (toString n).toList = c :: digits
      ∧ ∀ d ∈ c :: digits, isDecimalDigit d := by
  rw [Nat.toString_eq_ofList_toDigits, String.toList_ofList]
  cases hdigits : Nat.toDigits 10 n with
  | nil => exact absurd hdigits Nat.toDigits_ne_nil
  | cons c digits =>
    refine ⟨c, digits, rfl, fun d hd => ?_⟩
    rw [← hdigits] at hd
    exact Nat.isDigit_of_mem_toDigits (by decide) (by decide) hd

theorem isDecimalDigit_of_mem_toString {n : Nat} {c : Char}
    (h : c ∈ (toString n).toList) : isDecimalDigit c := by
  obtain ⟨d, digits, hn, hdigits⟩ := exists_digit_toString n
  exact hdigits c (hn ▸ h)

theorem readDigits_toString {bound n : Nat} {fault : IntegerFault}
    (h : n ≤ bound) :
    readDigits bound fault 0 (toString n).toList = .ok n := by
  have hvalue : Nat.ofDigitChars 10 (toString n).toList 0 = n := by
    rw [Nat.toString_eq_ofList_toDigits, String.toList_ofList,
      Nat.ofDigitChars_ten_toDigits]
  rw [readDigits_eq_ok (fun c => isDecimalDigit_of_mem_toString)
    (by rwa [hvalue]), hvalue]

/-- **A natural number is read back.** -/
theorem readNat_toString {bound n : Nat} (h : n ≤ bound) :
    readNat bound (toString n).toList = .ok n := by
  have hread : readDigits bound .tooLarge 0 (toString n).toList = .ok n :=
    readDigits_toString h
  obtain ⟨c, digits, hn, hdigits⟩ := exists_digit_toString n
  rw [hn] at hread ⊢
  have hplus : c ≠ '+' := by
    rintro rfl
    exact absurd (hdigits '+' List.mem_cons_self) (by decide)
  unfold readNat
  split
  · rename_i heq
    cases heq
  · rename_i heq
    exact absurd (List.cons.inj heq).1 hplus
  · rename_i heq
    exact absurd (List.cons.inj heq).1 hplus
  · exact hread

theorem le_of_readDigits {bound value n : Nat} {fault : IntegerFault}
    {digits : List Char} (hvalue : value ≤ bound)
    (h : readDigits bound fault value digits = .ok n) : n ≤ bound := by
  induction digits generalizing value with
  | nil =>
    cases h
    exact hvalue
  | cons c digits ih =>
    unfold readDigits at h
    split at h
    · cases h
    · split at h
      · rename_i hfits
        exact ih hfits h
      · cases h

/-- **A number that was read fits its bound.** -/
theorem le_of_readNat {bound n : Nat} {text : List Char}
    (h : readNat bound text = .ok n) : n ≤ bound := by
  unfold readNat at h
  split at h
  · cases h
  · cases h
  · exact le_of_readDigits (Nat.zero_le bound) h
  · exact le_of_readDigits (Nat.zero_le bound) h

/-- A digit is no sign. -/
theorem ne_sign_of_isDecimalDigit {c : Char} (h : isDecimalDigit c) :
    c ≠ '-' ∧ c ≠ '+' := by
  constructor
  · rintro rfl
    exact absurd h (by decide)
  · rintro rfl
    exact absurd h (by decide)

/-- A text that begins with a digit is read without a sign. -/
theorem readInt_cons {below above : Nat} {c : Char} {digits : List Char}
    (h : isDecimalDigit c) :
    readInt below above (c :: digits)
      = (readDigits above .tooLarge 0 (c :: digits)).map Int.ofNat := by
  obtain ⟨hminus, hplus⟩ := ne_sign_of_isDecimalDigit h
  unfold readInt
  split
  · rename_i heq
    cases heq
  · rename_i heq
    exact absurd (List.cons.inj heq).1 hplus
  · rename_i heq
    exact absurd (List.cons.inj heq).1 hminus
  · rename_i heq
    exact absurd (List.cons.inj heq).1 hplus
  · rename_i heq
    exact absurd (List.cons.inj heq).1 hminus
  · rfl

theorem readInt_minus (below above : Nat) (c : Char) (digits : List Char) :
    readInt below above ('-' :: c :: digits)
      = (readDigits below .tooSmall 0 (c :: digits)).map
        fun n => -(n : Int) := rfl

/-- **An integer is read back.** -/
theorem readInt_toString {below above : Nat} {i : Int}
    (hbelow : -below ≤ i) (habove : i ≤ above) :
    readInt below above (toString i).toList = .ok i := by
  rw [Int.toString_eq_repr, Int.repr_eq_if]
  split
  · rename_i hi
    have hread : readDigits above .tooLarge 0 (toString i.toNat).toList
        = .ok i.toNat := readDigits_toString (by omega)
    rw [← Nat.toString_eq_repr]
    obtain ⟨c, digits, hn, hdigits⟩ := exists_digit_toString i.toNat
    rw [hn] at hread ⊢
    rw [readInt_cons (hdigits c List.mem_cons_self), hread]
    exact congrArg Except.ok (Int.toNat_of_nonneg hi)
  · rename_i hi
    have hread : readDigits below .tooSmall 0 (toString (-i).toNat).toList
        = .ok (-i).toNat := readDigits_toString (by omega)
    obtain ⟨c, digits, hn, -⟩ := exists_digit_toString (-i).toNat
    rw [hn] at hread
    rw [← Nat.toString_eq_repr, String.toList_append, hn,
      show "-".toList ++ c :: digits = '-' :: c :: digits from rfl,
      readInt_minus, hread]
    refine congrArg Except.ok ?_
    show -((-i).toNat : Int) = i
    omega

/-- The text of an integer that is not negative is digits only. -/
theorem toString_toInt {n : Int64} (h : ¬n < 0) :
    toString n.toInt = toString n.toInt.toNat := by
  have hnonneg : 0 ≤ n.toInt := Int.not_lt.mp fun hlt =>
    h (Int64.lt_iff_toInt_lt.mpr hlt)
  rw [Int.toString_eq_repr, Int.repr_eq_if, if_pos hnonneg,
    Nat.toString_eq_repr]

/-- The text of a negative integer begins with its sign, and digits follow. -/
theorem exists_minus_toString {i : Int} (h : i < 0) :
    ∃ digits, (toString i).toList = '-' :: digits
      ∧ ∀ c ∈ digits, isDecimalDigit c := by
  rw [Int.toString_eq_repr, Int.repr_eq_if, if_neg (Int.not_le.mpr h),
    ← Nat.toString_eq_repr]
  exact ⟨_, String.toList_append, fun _ => isDecimalDigit_of_mem_toString⟩

theorem readInt64_toString (n : Int64) :
    readInt64 (toString n.toInt).toList = .ok n := by
  have hlt := n.toInt_lt
  have hle := n.le_toInt
  rw [readInt64, readInt_toString (by omega) (by omega)]
  exact congrArg Except.ok n.ofInt_toInt

theorem readInt32_toString (n : Int32) :
    readInt32 (toString n.toInt).toList = .ok n := by
  have hlt := n.toInt_lt
  have hle := n.le_toInt
  rw [readInt32, readInt_toString (by omega) (by omega)]
  exact congrArg Except.ok n.ofInt_toInt

end Integer

/-- The text of a number is a name. -/
theorem isName_toString (n : Nat) : Parser.IsName (toString n) := by
  obtain ⟨c, digits, hn, hdigits⟩ := Integer.exists_digit_toString n
  rw [Parser.IsName, hn]
  exact ⟨List.cons_ne_nil c digits, fun d hd => by
    simp [isNameChar, hdigits d hd]⟩

theorem isName_toString_int (i : Int) : Parser.IsName (toString i) := by
  rw [Int.toString_eq_repr, Int.repr_eq_if]
  split
  · rw [← Nat.toString_eq_repr]
    exact isName_toString _
  · rw [← Nat.toString_eq_repr, Parser.IsName, String.toList_append]
    have hminus : Parser.IsName "-" := by decide
    exact ⟨by simp, List.forall_mem_append.mpr
      ⟨hminus.2, (isName_toString _).2⟩⟩

theorem Parser.natural_yields : Yields natural (· < 2 ^ 64) := by
  refine Yields.after fun _ => Yields.after fun digits => ?_
  refine Yields.ite (fun _ => Yields.fail) fun _ => ?_
  split
  · rename_i n hn
    exact Yields.pure (Nat.lt_of_le_pred (by decide)
      (Integer.le_of_readNat hn))
  · exact Yields.fail

/-! ## Scalars -/

namespace Parser

/-- A text that a scalar goes on with, whatever stands before it. -/
def GoesOn (text : List Char) : Prop :=
  ∀ previous, Cursor.scalarRun previous text = text

theorem goesOn_nil : GoesOn [] := fun _ => rfl

/-- A letter, a digit or a point in front. -/
theorem GoesOn.cons {c : Char} {text : List Char} (h : GoesOn text)
    (hc : isLetter c || isDecimalDigit c || c == '.') :
    GoesOn (c :: text) := by
  intro previous
  rw [Cursor.scalarRun, hc, Bool.true_or, if_pos rfl, h]

theorem GoesOn.append {run text : List Char} (h : GoesOn text)
    (hrun : ∀ c ∈ run, isLetter c || isDecimalDigit c || c == '.') :
    GoesOn (run ++ text) := by
  induction run with
  | nil => exact h
  | cons c run ih =>
    rw [List.forall_mem_cons] at hrun
    exact (ih hrun.2).cons hrun.1

theorem goesOn_digits {digits : List Char}
    (h : ∀ c ∈ digits, isDecimalDigit c) : GoesOn digits := by
  rw [← List.append_nil digits]
  refine goesOn_nil.append fun c hc => ?_
  rw [h c hc, Bool.or_true, Bool.true_or]

/-- The mark of an exponent in front of a sign. -/
theorem GoesOn.exponent {mark sign : Char} {text : List Char}
    (h : GoesOn text) (hmark : mark = 'e' ∨ mark = 'E')
    (hsign : isSign sign) : GoesOn (mark :: sign :: text) := by
  intro previous
  have hafter : (mark == 'e' || mark == 'E') = true := by
    rcases hmark with rfl | rfl
    · rfl
    · rfl
  have hletter : isLetter mark := by
    rcases hmark with rfl | rfl
    · rfl
    · rfl
  rw [Cursor.scalarRun, hletter, Bool.true_or, Bool.true_or, Bool.true_or,
    if_pos rfl, Cursor.scalarRun, hsign, hafter, Bool.true_and, Bool.or_true,
    if_pos rfl, h]

theorem GoesOn.isScalar {text : List Char} (h : GoesOn text)
    (hne : text ≠ []) : IsScalar text := by
  refine ⟨hne, ?_⟩
  cases text with
  | nil => rfl
  | cons c text =>
    have hspace := h ' '
    unfold Cursor.scalarToken
    dsimp only
    split
    · rw [Cursor.scalarRun] at hspace
      split at hspace
      · exact hspace
      · cases hspace
    · exact hspace

/-- A sign in front. -/
theorem GoesOn.isScalar_sign {sign : Char} {text : List Char}
    (h : GoesOn text) (hsign : isSign sign) : IsScalar (sign :: text) := by
  refine ⟨List.cons_ne_nil _ _, ?_⟩
  unfold Cursor.scalarToken
  dsimp only
  rw [if_pos hsign, h]

end Parser

namespace Integer

open TensorBind.Parser (IsScalar GoesOn)

theorem isDecimalDigit_of_readDigits {bound value n : Nat}
    {fault : IntegerFault} {digits : List Char}
    (h : readDigits bound fault value digits = .ok n) :
    ∀ c ∈ digits, isDecimalDigit c := by
  induction digits generalizing value with
  | nil => exact fun c hc => absurd hc List.not_mem_nil
  | cons c digits ih =>
    unfold readDigits at h
    split at h
    · cases h
    · rename_i d hd
      split at h
      · exact List.forall_mem_cons.mpr ⟨(digit?_eq_some.mp hd).1, ih h⟩
      · cases h

/-- **What is read as an integer** is one scalar. -/
theorem isScalar_of_readInt {below above : Nat} {text : List Char} {i : Int}
    (h : readInt below above text = .ok i) : IsScalar text := by
  have hgoesOn : ∀ {bound n : Nat} {fault : IntegerFault}
      {digits : List Char}, readDigits bound fault 0 digits = .ok n →
      GoesOn digits :=
    fun hn => Parser.goesOn_digits (isDecimalDigit_of_readDigits hn)
  unfold readInt at h
  split at h
  · cases h
  · cases h
  · cases h
  · obtain ⟨n, hn, -⟩ := Except.map_eq_ok.mp h
    exact (hgoesOn hn).isScalar_sign rfl
  · obtain ⟨n, hn, -⟩ := Except.map_eq_ok.mp h
    obtain ⟨k, hk, -⟩ := Except.bind_eq_ok.mp hn
    exact (hgoesOn hk).isScalar_sign rfl
  · rename_i hne _ _ _ _
    obtain ⟨n, hn, -⟩ := Except.map_eq_ok.mp h
    exact (hgoesOn hn).isScalar hne

end Integer

namespace Decimal

open TensorBind.Parser (GoesOn)

theorem isDecimalDigit_of_isDigit {c : Char} (h : isDigit c) :
    isDecimalDigit c := by
  obtain ⟨d, hd⟩ := Option.isSome_iff_exists.mp h
  exact (Integer.digit?_eq_some.mp hd).1

theorem goesOn_of_readExponentDigits? {text : List Char} {n : Nat}
    (h : readExponentDigits? text = some n) : GoesOn text := by
  unfold readExponentDigits? at h
  split at h
  · cases h
  · rename_i hdigits
    rw [Bool.or_eq_true, not_or, Bool.not_eq_true, Bool.not_eq_true,
      Bool.not_eq_false'] at hdigits
    exact Parser.goesOn_digits fun c hc =>
      isDecimalDigit_of_isDigit (List.all_eq_true.mp hdigits.2 c hc)

/-- An exponent goes on behind its mark. -/
theorem goesOn_exponent {mark : Char} {text : List Char} {i : Int}
    (hmark : mark = 'e' ∨ mark = 'E') (h : readExponent? text = some i) :
    GoesOn (mark :: text) := by
  have hletter : isLetter mark := by
    rcases hmark with rfl | rfl
    · rfl
    · rfl
  unfold readExponent? at h
  split at h
  · obtain ⟨n, hn, -⟩ := Option.map_eq_some_iff.mp h
    obtain ⟨k, hk, -⟩ := Option.bind_eq_some_iff.mp hn
    exact (goesOn_of_readExponentDigits? hk).exponent hmark rfl
  · obtain ⟨n, hn, -⟩ := Option.map_eq_some_iff.mp h
    exact (goesOn_of_readExponentDigits? hn).exponent hmark rfl
  · obtain ⟨n, hn, -⟩ := Option.map_eq_some_iff.mp h
    refine (goesOn_of_readExponentDigits? hn).cons ?_
    rw [hletter, Bool.true_or, Bool.true_or]

theorem goesOn_of_readScale? {text : List Char} {i : Int}
    (h : readScale? text = some i) : GoesOn text := by
  unfold readScale? at h
  split at h
  · exact Parser.goesOn_nil
  · exact goesOn_exponent (.inl rfl) h
  · exact goesOn_exponent (.inr rfl) h
  · cases h

/-- **What is read as a decimal** goes on from its first character. -/
theorem goesOn_of_read? {text : List Char} {d : Decimal}
    (h : read? text = some d) : GoesOn text := by
  have hdigits : ∀ (run : List Char), ∀ c ∈ run.takeWhile isDigit,
      isLetter c || isDecimalDigit c || c == '.' := by
    intro run c hc
    rw [isDecimalDigit_of_isDigit
      (List.all_eq_true.mp List.all_takeWhile c hc), Bool.or_true,
      Bool.true_or]
  unfold read? at h
  rw [List.span_eq_takeWhile_dropWhile] at h
  dsimp only at h
  rw [← List.takeWhile_append_dropWhile (p := isDigit) (l := text)]
  refine GoesOn.append ?_ (hdigits text)
  generalize text.dropWhile isDigit = rest at h
  -- the point and the digits behind it, if there is one
  have hsplit : GoesOn (splitFraction rest).2 → GoesOn rest := by
    intro hafter
    unfold splitFraction at hafter
    split at hafter
    · rename_i digits
      rw [List.span_eq_takeWhile_dropWhile] at hafter
      rw [← List.takeWhile_append_dropWhile (p := isDigit) (l := digits)]
      exact (hafter.append (hdigits digits)).cons rfl
    · exact hafter
  refine hsplit ?_
  split at h
  · cases h
  · obtain ⟨scale, hscale, -⟩ := Option.map_eq_some_iff.mp h
    exact goesOn_of_readScale? hscale

theorem ne_nil_of_read? {text : List Char} {d : Decimal}
    (h : read? text = some d) : text ≠ [] := by
  rintro rfl
  cases h

end Decimal

/-- A letter in either case. -/
theorem isLetter_of_isLetter_toLower {c : Char} (h : isLetter c.toLower) :
    isLetter c := by
  rw [Char.toLower] at h
  split at h
  · rename_i hupper
    rw [isLetter, Bool.or_eq_true, Bool.and_eq_true, Bool.and_eq_true]
    exact .inr ⟨decide_eq_true hupper.1, decide_eq_true hupper.2⟩
  · exact h

namespace Binary

open TensorBind.Parser (IsScalar GoesOn)

variable {F : Format}

/-- A word for a number is made of letters. -/
theorem goesOn_of_readMagnitude? {text : List Char} {field : Nat}
    (h : readMagnitude? F text = some field) :
    text ≠ [] ∧ GoesOn text := by
  have hword : ∀ word : String, word.toList ≠ [] →
      word.toList.all isLetter →
      String.ofList (text.map Char.toLower) = word →
      text ≠ [] ∧ GoesOn text := by
    intro word hne hletters hword
    have hmap : text.map Char.toLower = word.toList := by
      rw [← hword, String.toList_ofList]
    refine ⟨fun hempty => hne ?_, ?_⟩
    · rw [← hmap, hempty, List.map_nil]
    · rw [← List.append_nil text]
      refine Parser.goesOn_nil.append fun c hc => ?_
      have hlower : c.toLower ∈ word.toList :=
        hmap ▸ List.mem_map_of_mem hc
      rw [isLetter_of_isLetter_toLower
        (List.all_eq_true.mp hletters _ hlower), Bool.true_or, Bool.true_or]
  unfold readMagnitude? at h
  split at h
  · rename_i d hd
    exact ⟨Decimal.ne_nil_of_read? hd, Decimal.goesOn_of_read? hd⟩
  · dsimp only at h
    split at h
    · rename_i hinf
      rcases hinf with hinf | hinf
      · exact hword "inf" (by decide) (by decide) hinf
      · exact hword "infinity" (by decide) (by decide) hinf
    · split at h
      · rename_i hnan
        exact hword "nan" (by decide) (by decide) hnan
      · cases h

/-- **What is read as a number** is one scalar. -/
theorem isScalar_of_read? {text : List Char} {x : Binary F}
    (h : read? F text = some x) : IsScalar text := by
  unfold read? at h
  split at h
  · obtain ⟨field, hfield, -⟩ := Option.map_eq_some_iff.mp h
    exact (goesOn_of_readMagnitude? hfield).2.isScalar_sign rfl
  · obtain ⟨field, hfield, -⟩ := Option.map_eq_some_iff.mp h
    exact (goesOn_of_readMagnitude? hfield).2.isScalar_sign rfl
  · obtain ⟨field, hfield, -⟩ := Option.map_eq_some_iff.mp h
    obtain ⟨hne, hgoesOn⟩ := goesOn_of_readMagnitude? hfield
    exact hgoesOn.isScalar hne

end Binary

end TensorBind
