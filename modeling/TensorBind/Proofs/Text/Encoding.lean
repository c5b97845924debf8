import Mathlib
import TensorBind.Text.Cursor

/-!
# Characters and bytes

Texts are read byte by byte (`byteChars`). A character of the basic
alphabet is encoded by itself (`charBytes_of_isBasic`), and in the encoding
of every other character no byte is one of the basic alphabet
(`isBasic_of_mem_charBytes`).

So a text of the basic alphabet is its own sequence of bytes
(`IsBasicText.byteChars_eq`), and a sequence of bytes that is cut behind a
character of the basic alphabet is cut between two characters
(`exists_append_of_flatMap`).
-/

namespace List

/-- What holds of all words and of what stands between them holds of the
text they make. -/
theorem forall_mem_intercalate {α : Type} {p : α → Prop} {sep : List α}
    {words : List (List α)} (hsep : ∀ c ∈ sep, p c)
    (hwords : ∀ word ∈ words, ∀ c ∈ word, p c) :
    ∀ c ∈ sep.intercalate words, p c := by
  induction words with
  | nil => exact fun c hc => absurd hc not_mem_nil
  | cons word words ih =>
    rw [forall_mem_cons] at hwords
    cases words with
    | nil =>
      rw [intercalate_singleton]
      exact hwords.1
    | cons next words =>
      rw [intercalate_cons_cons, forall_mem_append, forall_mem_append]
      exact ⟨⟨hwords.1, hsep⟩, ih hwords.2⟩

end List

namespace TensorBind

/-- A character of the basic alphabet, whose code is a byte of its own. -/
def isBasic (c : Char) : Bool := c.toNat < 128

/-- The bytes of a character, each as the character of the same code. -/
def charBytes (c : Char) : List Char :=
  (String.utf8EncodeChar c).map fun byte => Char.ofNat byte.toNat

theorem byteChars_ofList (chars : List Char) :
    byteChars (String.ofList chars) = chars.flatMap charBytes := by
  rw [byteChars, String.toUTF8_eq_toByteArray, String.toByteArray_ofList,
    List.utf8Encode, List.toList_data_toByteArray, List.map_flatMap]
  rfl

theorem byteChars_eq_flatMap (text : String) :
    byteChars text = text.toList.flatMap charBytes := by
  rw [← byteChars_ofList, String.ofList_toList]

theorem byteChars_append (s t : String) :
    byteChars (s ++ t) = byteChars s ++ byteChars t := by
  rw [byteChars_eq_flatMap, byteChars_eq_flatMap, byteChars_eq_flatMap,
    String.toList_append, List.flatMap_append]

theorem byteChars_join (texts : List String) :
    byteChars (String.join texts) = texts.flatMap byteChars := by
  rw [byteChars_eq_flatMap, String.toList_join, List.flatMap_assoc]
  simp only [← byteChars_eq_flatMap]

theorem isBasic_ofNat_toNat (byte : UInt8) :
    isBasic (Char.ofNat byte.toNat) = decide (byte.toNat < 128) := by
  have hvalid : byte.toNat.isValidChar :=
    .inl (Nat.lt_trans byte.toNat_lt (by decide))
  rw [isBasic, Char.ofNat, dif_pos hvalid]
  rfl

/-- Every byte of a character beyond the basic alphabet is beyond it. -/
theorem le_toNat_of_mem_utf8EncodeChar {c : Char} {byte : UInt8}
    (hc : 127 < c.val.toNat) (h : byte ∈ String.utf8EncodeChar c) :
    128 ≤ byte.toNat := by
  rw [String.utf8EncodeChar.eq_1, if_neg (Nat.not_le_of_lt hc)] at h
  have hbyte : ∃ n, 128 ≤ n ∧ n < 256 ∧ byte = UInt8.ofNat n := by
    split at h
    · simp only [List.mem_cons, List.not_mem_nil, or_false] at h
      rcases h with h | h
      · exact ⟨_, by omega, by omega, h⟩
      · exact ⟨_, by omega, by omega, h⟩
    · split at h
      · simp only [List.mem_cons, List.not_mem_nil, or_false] at h
        rcases h with h | h | h
        · exact ⟨_, by omega, by omega, h⟩
        · exact ⟨_, by omega, by omega, h⟩
        · exact ⟨_, by omega, by omega, h⟩
      · simp only [List.mem_cons, List.not_mem_nil, or_false] at h
        rcases h with h | h | h | h
        · exact ⟨_, by omega, by omega, h⟩
        · exact ⟨_, by omega, by omega, h⟩
        · exact ⟨_, by omega, by omega, h⟩
        · exact ⟨_, by omega, by omega, h⟩
  obtain ⟨n, hle, hlt, rfl⟩ := hbyte
  rwa [UInt8.toNat_ofNat_of_lt' hlt]

/-- **A character of the basic alphabet** is a byte of its own. -/
theorem charBytes_of_isBasic {c : Char} (h : isBasic c) :
    charBytes c = [c] := by
  have hlt : c.val.toNat < 128 := of_decide_eq_true h
  have hsize : c.val.toNat < UInt8.size := Nat.lt_trans hlt (by decide)
  rw [charBytes, String.utf8EncodeChar.eq_1, if_pos (Nat.le_of_lt_succ hlt),
    List.map_singleton, UInt8.toNat_ofNat_of_lt' hsize]
  exact congrArg (fun d => [d]) (Char.ofNat_toNat c)

/-- **A byte of the basic alphabet** is a whole character. -/
theorem isBasic_of_mem_charBytes {b c : Char} (h : b ∈ charBytes c)
    (hb : isBasic b) : isBasic c := by
  obtain ⟨byte, hbyte, rfl⟩ := List.mem_map.mp h
  rw [isBasic_ofNat_toNat, decide_eq_true_eq] at hb
  refine decide_eq_true (Nat.lt_succ_of_le (Nat.le_of_not_lt fun hc => ?_))
  exact Nat.not_lt_of_le (le_toNat_of_mem_utf8EncodeChar hc hbyte) hb

/-- A character of the basic alphabet is a byte only where it is written. -/
theorem mem_toList_of_mem_byteChars {text : String} {c : Char}
    (h : c ∈ byteChars text) (hc : isBasic c) : c ∈ text.toList := by
  rw [byteChars_eq_flatMap] at h
  obtain ⟨d, hd, hbytes⟩ := List.mem_flatMap.mp h
  rw [charBytes_of_isBasic (isBasic_of_mem_charBytes hbytes hc),
    List.mem_singleton] at hbytes
  rwa [hbytes]

theorem isBasic_of_isLetter {c : Char} (h : isLetter c) : isBasic c := by
  simp only [isLetter, Bool.or_eq_true, Bool.and_eq_true,
    decide_eq_true_eq] at h
  rcases h with ⟨-, h⟩ | ⟨-, h⟩
  · exact decide_eq_true (Nat.lt_of_le_of_lt h (by decide))
  · exact decide_eq_true (Nat.lt_of_le_of_lt h (by decide))

theorem isBasic_of_isDecimalDigit {c : Char} (h : isDecimalDigit c) :
    isBasic c := by
  simp only [isDecimalDigit, Bool.and_eq_true, decide_eq_true_eq] at h
  exact decide_eq_true (Nat.lt_of_le_of_lt h.2 (by decide))

theorem isBasic_of_isSign {c : Char} (h : isSign c) : isBasic c := by
  simp only [isSign, Bool.or_eq_true, beq_iff_eq] at h
  rcases h with rfl | rfl
  · rfl
  · rfl

theorem isBasic_of_isNameChar {c : Char} (h : isNameChar c) :
    isBasic c := by
  simp only [isNameChar, Bool.or_eq_true, beq_iff_eq] at h
  rcases h with (((h | h) | rfl) | rfl) | rfl
  · exact isBasic_of_isLetter h
  · exact isBasic_of_isDecimalDigit h
  all_goals rfl

/-- A scalar token is of the basic alphabet. -/
theorem Cursor.isBasic_of_mem_scalarRun {previous b : Char} {rest : List Char}
    (h : b ∈ scalarRun previous rest) : isBasic b := by
  induction rest generalizing previous with
  | nil => cases h
  | cons d rest ih =>
    unfold scalarRun at h
    split at h
    · rename_i hd
      rcases List.mem_cons.mp h with rfl | h
      · simp only [Bool.or_eq_true, Bool.and_eq_true, beq_iff_eq] at hd
        rcases hd with ((hd | hd) | rfl) | ⟨hd, -⟩
        · exact isBasic_of_isLetter hd
        · exact isBasic_of_isDecimalDigit hd
        · rfl
        · exact isBasic_of_isSign hd
      · exact ih h
    · cases h

/-! ## Texts of an alphabet -/

/-- **A text of an alphabet.** -/
def WrittenIn (alphabet : Char → Bool) (text : String) : Prop :=
  ∀ c ∈ text.toList, alphabet c

section Alphabet

variable {alphabet larger : Char → Bool}

instance (text : String) : Decidable (WrittenIn alphabet text) :=
  decidable_of_decidable_of_iff (p := text.toList.all alphabet)
    List.all_eq_true

@[simp] theorem writtenIn_append {s t : String} :
    WrittenIn alphabet (s ++ t)
      ↔ WrittenIn alphabet s ∧ WrittenIn alphabet t := by
  rw [WrittenIn, String.toList_append, List.forall_mem_append]
  rfl

theorem writtenIn_join {texts : List String}
    (h : ∀ text ∈ texts, WrittenIn alphabet text) :
    WrittenIn alphabet (String.join texts) := by
  intro c hc
  rw [String.toList_join] at hc
  obtain ⟨text, htext, hc⟩ := List.mem_flatMap.mp hc
  exact h text htext c hc

theorem writtenIn_intercalate {sep : String} {texts : List String}
    (hsep : WrittenIn alphabet sep)
    (h : ∀ text ∈ texts, WrittenIn alphabet text) :
    WrittenIn alphabet (sep.intercalate texts) := by
  unfold WrittenIn
  rw [String.toList_intercalate]
  refine List.forall_mem_intercalate hsep ?_
  rw [List.forall_mem_map]
  exact h

theorem WrittenIn.mono {text : String} (h : WrittenIn alphabet text)
    (hle : ∀ {c : Char}, alphabet c → larger c) : WrittenIn larger text :=
  fun c hc => hle (h c hc)

end Alphabet

/-- **A text of the basic alphabet.** -/
abbrev IsBasicText (text : String) : Prop := WrittenIn isBasic text

/-- **A text of the basic alphabet** is its own sequence of bytes. -/
theorem IsBasicText.byteChars_eq {text : String} (h : IsBasicText text) :
    byteChars text = text.toList := by
  rw [byteChars_eq_flatMap]
  unfold IsBasicText WrittenIn at h
  generalize text.toList = chars at h
  induction chars with
  | nil => rfl
  | cons c chars ih =>
    rw [List.forall_mem_cons] at h
    rw [List.flatMap_cons, charBytes_of_isBasic h.1, ih h.2]
    rfl

/-- **Between bytes and between characters.** Bytes that are cut behind one
of the basic alphabet are cut between two characters. -/
theorem exists_append_of_flatMap {chars taken rest : List Char}
    (h : chars.flatMap charBytes = taken ++ rest)
    (hlast : ∀ c ∈ taken.getLast?, isBasic c) :
    ∃ before after, chars = before ++ after
      ∧ before.flatMap charBytes = taken ∧ after.flatMap charBytes = rest := by
  induction chars generalizing taken with
  | nil =>
    rw [List.flatMap_nil, List.nil_eq_append_iff] at h
    exact ⟨[], [], rfl, h.1.symm, h.2.symm⟩
  | cons c chars ih =>
    rw [List.flatMap_cons, List.append_eq_append_iff] at h
    rcases h with ⟨more, rfl, hrest⟩ | ⟨more, hbytes, rfl⟩
    · -- the cut is behind the character
      have hmore : ∀ c ∈ more.getLast?, isBasic c := by
        intro d hd
        refine hlast d ?_
        rw [List.getLast?_append, Option.mem_def.mp hd]
        rfl
      obtain ⟨before, after, rfl, rfl, hafter⟩ := ih hrest hmore
      exact ⟨c :: before, after, rfl, rfl, hafter⟩
    · -- the cut is in front of the last byte of the character
      rcases List.eq_nil_or_concat taken with rfl | ⟨init, b, rfl⟩
      · refine ⟨[], c :: chars, rfl, rfl, ?_⟩
        rw [List.flatMap_cons, hbytes, List.nil_append]
      · rw [List.concat_eq_append] at hlast hbytes ⊢
        have hb : isBasic b := hlast b List.getLast?_concat
        have hc : isBasic c := by
          refine isBasic_of_mem_charBytes ?_ hb
          rw [hbytes]
          exact List.mem_append_left _ (List.mem_append_right _
            List.mem_cons_self)
        rw [charBytes_of_isBasic hc] at hbytes
        cases init with
        | nil =>
          cases hbytes
          refine ⟨[c], chars, rfl, ?_, rfl⟩
          rw [List.flatMap_singleton, charBytes_of_isBasic hc]
          rfl
        | cons d init =>
          have htail := congrArg List.tail hbytes
          simp at htail

end TensorBind
