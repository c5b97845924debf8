import TensorBind.Proofs.Graph.Lines

/-!
# Graph programs are read back

A program that was read from a text is written so that it can be read
again, with two exceptions. A computation without a header is written with
the parentheses of one, and then the arrow is missing. An instruction that
is not the root but is called `ROOT` is written as if it were marked as the
root, and then the name is missing. Any other program is read back as it is
(`Module.parse_render_iff`).

What may be written besides makes no difference. A program with a header is
read back from each of its spellings, except those that leave out the mark of
an instruction that is not the root but is called `ROOT`
(`Module.parse_spell_iff`).
-/

namespace TensorBind

open Cursor (unblanked)

namespace Graph

open TensorBind.Parser

variable {e : Entry} {position : Nat} {i : Instruction} {s : Spelling}

/-! ## Headers -/

/-- A parameter of a header as it is written at its place. -/
def spelledParameter (s : Nat → ParameterSpelling)
    (parameter : (String × Shape) × Nat) : List Char :=
  (Entry.spellParameter (s parameter.2) parameter.1).toList

theorem toList_spellSignature (s : Nat → ParameterSpelling)
    (parameters : List (String × Shape)) :
    (Entry.spellSignature s parameters).toList = [',', ' '].intercalate
      (parameters.zipIdx.map (spelledParameter s)) := by
  rw [Entry.spellSignature, String.toList_intercalate, List.map_map]
  rfl

theorem areItems_spelledParameter {parameters : List (String × Shape)}
    (h : ∀ parameter ∈ parameters, IsName parameter.1)
    (s : Nat → ParameterSpelling) :
    AreItems ')' (parameters.zipIdx.map (spelledParameter s)) := by
  intro piece hpiece
  obtain ⟨parameter, hparameter, rfl⟩ := List.mem_map.mp hpiece
  have hname := h parameter.1 (List.fst_mem_of_mem_zipIdx hparameter)
  rw [spelledParameter, Entry.spellParameter, String.toList_append,
    String.toList_append]
  exact ((isItem_spellName hname rfl _).append _).append _

/-- A parameter of a header is read back. -/
theorem reads_readParameter {parameter : String × Shape}
    {spelling : ParameterSpelling} {rest : List Char}
    (hname : IsName parameter.1) (hshape : parameter.2.checkedByteSize.isSome)
    (hrest : rest.head? = some ',' ∨ rest.head? = some ')') :
    Reads readParameter ((Entry.spellParameter spelling parameter).toList
      ++ rest) parameter rest := by
  have hlayout : rest.head? ≠ some '{' := by
    rcases hrest with hrest | hrest
    · rw [hrest]
      decide
    · rw [hrest]
      decide
  unfold Entry.spellParameter
  simp only [String.toList_append, String.reduceToList, List.append_assoc,
    List.cons_append, List.nil_append]
  exact .bind (reads_readName hname (unblanked_spellName hname _ _) rfl)
    (.bind (.expectChar rfl) (.bind (reads_readArrayShape hshape
      (unblanked_spellArray _ _ rest) hlayout) (.pure _ rest)))

/-- **A header is read back.** -/
theorem reads_readSignature {parameters : List (String × Shape)}
    {result : DeclaredShape}
    (hparameters : ∀ parameter ∈ parameters,
      IsName parameter.1 ∧ parameter.2.checkedByteSize.isSome)
    (hresult : result.Sized) (s : Spelling) (rest : List Char) :
    Reads readSignature
      ('(' :: ((Entry.spellSignature s.parameters parameters).toList
        ++ ')' :: ' ' :: '-' :: '>' :: ' ' :: ((result.spell s.result).toList
          ++ ' ' :: rest)))
      (some parameters, some result) (' ' :: rest) := by
  have hitems := areItems_spelledParameter (fun parameter hparameter =>
    (hparameters parameter hparameter).1) s.parameters
  have hlist : ∀ rest, Reads
      (listUntil ')' .parameterSeparator readParameter)
      ([',', ' '].intercalate
        (parameters.zipIdx.map (spelledParameter s.parameters))
        ++ ')' :: rest) (parameters.zipIdx.map Prod.fst) rest := by
    intro rest
    refine .listUntil_map Prod.fst rfl (by decide) isGap_blank hitems ?_
      (hitems.unblanked_closed rfl rest)
    intro parameter hparameter rest' hrest'
    obtain ⟨hname, hshape⟩ := hparameters parameter.1
      (List.fst_mem_of_mem_zipIdx hparameter)
    exact reads_readParameter hname hshape hrest'
  rw [List.zipIdx_map_fst] at hlist
  rw [toList_spellSignature]
  refine .bind (.tryChar rfl) (.bind (hlist _) (.bind (.expectChar rfl)
    (.bind (.expectChar rfl) (.bind (reads_readShape hresult
      (unblanked_spellDeclared result s.result _) ?_) (.pure _ _)))))
  show some ' ' ≠ some '{'
  decide

theorem isProgramText_spellHeader (he : e.Legible) (s : Spelling) :
    WrittenIn isProgramChar (e.spellHeader s) := by
  have hsignature : WrittenIn isProgramChar
      (Entry.spellSignature s.parameters (e.signature.getD [])) := by
    refine writtenIn_intercalate (by decide) fun text htext => ?_
    obtain ⟨parameter, hparameter, rfl⟩ := List.mem_map.mp htext
    have hmem := List.fst_mem_of_mem_zipIdx hparameter
    cases hparameters : e.signature with
    | none =>
      rw [hparameters] at hmem
      cases hmem
    | some parameters =>
      rw [hparameters] at hmem
      have hname := (he.signature parameters hparameters _ hmem).1
      rw [Entry.spellParameter]
      simp only [writtenIn_append]
      exact ⟨⟨isProgramText_spellName hname _, by decide⟩,
        isProgramText_spellArray _ _⟩
  rw [Entry.spellHeader]
  simp only [writtenIn_append]
  refine ⟨⟨⟨⟨⟨⟨by decide, isProgramText_spellName he.name _⟩, by decide⟩,
    hsignature⟩, by decide⟩, ?_⟩, by decide⟩
  cases e.resultShape with
  | none =>
    rw [Entry.spellResult]
    decide
  | some result =>
    rw [Entry.spellResult, writtenIn_append]
    exact ⟨by decide, isProgramText_spellDeclared result s.result⟩

/-! ## Computations -/

/-- What is written behind the mark of the entry. -/
def spelledEntry (s : Spelling) (e : Entry) : List Char :=
  ' ' :: ((spellName s.entryMarked e.name).toList ++ '('
    :: ((Entry.spellSignature s.parameters (e.signature.getD [])).toList
      ++ ')' :: ((Entry.spellResult s.result e.resultShape).toList
      ++ ' ' :: '{' :: '\n' :: (bodyText e s.instructions 0 ++ ['}']))))

theorem byteChars_spellEntry (he : e.Legible) (s : Spelling) :
    byteChars (e.spell s)
      = 'E' :: 'N' :: 'T' :: 'R' :: 'Y' :: spelledEntry s e := by
  have hheader := byteChars_of_isProgramText (isProgramText_spellHeader he s)
  have hend : byteChars "\x7d" = ['}'] :=
    byteChars_of_isProgramText (by decide)
  have hbody : byteChars (String.join (e.instructions.zipIdx.map fun line =>
      e.spellInstruction (s.instructions line.2) line.1 line.2))
      = bodyText e s.instructions 0 := by
    rw [byteChars_join, List.flatMap_map]
    rfl
  rw [Entry.spell, byteChars_append, byteChars_append, hheader, hbody, hend]
  unfold Entry.spellHeader spelledEntry
  simp only [String.toList_append, String.reduceToList, List.append_assoc,
    List.cons_append, List.nil_append]

/-- A computation as it is written with its header. -/
theorem spelledEntry_signed {parameters : List (String × Shape)}
    {result : DeclaredShape} (hparameters : e.signature = some parameters)
    (hresult : e.resultShape = some result) (s : Spelling) :
    spelledEntry s e = ' ' :: ((spellName s.entryMarked e.name).toList ++ '('
      :: ((Entry.spellSignature s.parameters parameters).toList ++ ')' :: ' '
      :: '-' :: '>' :: ' ' :: ((result.spell s.result).toList ++ ' ' :: '{'
      :: '\n' :: (bodyText e s.instructions 0 ++ ['}'])))) := by
  unfold spelledEntry
  rw [hparameters, hresult, Entry.spellResult]
  simp only [Option.getD_some, String.toList_append, String.reduceToList,
    List.cons_append, List.nil_append]

/-- **A computation with a header is read back** if every line can be. -/
theorem reads_spelledEntry (he : e.Legible)
    (hread : ∀ i ∈ e.instructions, i.ReadsBack)
    (hsignature : e.signature.isSome)
    (hnames : ∀ position i, e.instructions[position]? = some i →
      IsReadable e (s.instructions position) position i) :
    Reads readComputation (spelledEntry s e) e [] := by
  obtain ⟨parameters, hparameters⟩ := Option.isSome_iff_exists.mp hsignature
  obtain ⟨result, hresult⟩ :=
    Option.isSome_iff_exists.mp (he.header.trans hsignature)
  have hne : ¬e.instructions.isEmpty := by
    rw [List.isEmpty_iff_length_eq_zero]
    exact Nat.ne_of_gt (Nat.zero_lt_of_lt he.root_lt)
  rw [spelledEntry_signed hparameters hresult]
  refine .bind (reads_readName he.name (unblanked_spellName he.name _ _) rfl)
    ?_
  refine .bind (reads_readSignature (he.signature parameters hparameters)
    (he.resultShape result hresult) s _) ?_
  refine .bind (.expectChar rfl) (.bind (reads_readBody he hread hnames) ?_)
  dsimp only
  rw [if_neg hne, ← hparameters, ← hresult]
  exact .pure e []

/-- **A computation without a header is refused**: what is written for it is
an empty one without a result. -/
theorem refuses_spelledEntry_unsigned (he : e.Legible)
    (hsignature : e.signature = none) :
    Refuses readComputation (spelledEntry s e) := by
  have hresult : e.resultShape = none := by
    rw [← Option.isNone_iff_eq_none, ← Option.isSome_eq_false_iff,
      he.header, hsignature]
    rfl
  have hlist : Reads (listUntil ')' .parameterSeparator readParameter)
      (')' :: ' ' :: '{' :: '\n' :: (bodyText e s.instructions 0 ++ ['}']))
      [] _ :=
    .loop_done (.bind (.tryChar rfl) (.pure _ _))
  unfold spelledEntry
  rw [hsignature, hresult]
  refine .bind (reads_readName he.name (unblanked_spellName he.name _ _) rfl)
    ?_
  refine .bind_left (.bind (.tryChar rfl) (.bind hlist (.bind_left ?_)))
  refine .expectChar ?_
  show some '{' ≠ some '-'
  decide

/-- **A computation with a line that cannot be read is refused.** -/
theorem refuses_spelledEntry_line (he : e.Legible)
    (hread : ∀ i ∈ e.instructions, i.ReadsBack)
    (hi : e.instructions[position]? = some i)
    (hname : ¬IsReadable e (s.instructions position) position i) :
    Refuses readComputation (spelledEntry s e) := by
  by_cases hsignature : e.signature.isSome
  · obtain ⟨parameters, hparameters⟩ :=
      Option.isSome_iff_exists.mp hsignature
    obtain ⟨result, hresult⟩ :=
      Option.isSome_iff_exists.mp (he.header.trans hsignature)
    rw [spelledEntry_signed hparameters hresult]
    refine .bind (reads_readName he.name (unblanked_spellName he.name _ _)
      rfl) ?_
    refine .bind (reads_readSignature (he.signature parameters hparameters)
      (he.resultShape result hresult) s _) ?_
    exact .bind (.expectChar rfl)
      (.bind_left (refuses_readBody he hread hi hname))
  · exact refuses_spelledEntry_unsigned he
      (Option.not_isSome_iff_eq_none.mp hsignature)

/-! ## Modules -/

variable {m : Module}

theorem byteChars_spellModule (hm : m.Legible) (s : Spelling) :
    byteChars (m.spell s) = 'H' :: 'l' :: 'o' :: 'M' :: 'o' :: 'd' :: 'u'
      :: 'l' :: 'e' :: ' ' :: ((spellName s.marked m.name).toList
        ++ (byteChars (spellAttributes s.attributes) ++ '\n' :: '\n' :: 'E'
          :: 'N' :: 'T' :: 'R' :: 'Y' :: spelledEntry s m.entry)) := by
  have hkeyword : byteChars "HloModule " = "HloModule ".toList :=
    byteChars_of_isProgramText (by decide)
  have hname := byteChars_of_isProgramText
    (isProgramText_spellName hm.name s.marked)
  have hlines : byteChars "\n\n" = ['\n', '\n'] :=
    byteChars_of_isProgramText (by decide)
  unfold Module.spell
  simp only [byteChars_append, hkeyword, hname, hlines,
    byteChars_spellEntry hm.entry, String.reduceToList, List.append_assoc,
    List.cons_append, List.nil_append]

/-- The name of a module ends where its attributes start. -/
theorem head?_spellAttributes (attributes : Option Attributes)
    (rest : List Char) :
    (byteChars (spellAttributes attributes) ++ '\n' :: rest).head?.any
      isNameChar = false := by
  cases attributes with
  | none => rfl
  | some attributes =>
    rw [byteChars_spellAttributes]
    rfl

/-- **A module is read back** if its computation is. -/
theorem reads_spelledModule (hm : m.Legible)
    (hentry : Reads readComputation (spelledEntry s m.entry) m.entry []) :
    Reads readModule (byteChars (m.spell s)) m [] := by
  have hround : Reads (computationRound (none, []))
      ('E' :: 'N' :: 'T' :: 'R' :: 'Y' :: spelledEntry s m.entry)
      (.more (some m.entry, [])) [] :=
    .bind .atEnd (.bind (.tryKeyword rfl rfl) (.bind hentry
      (.bind .skipBlanks (.pure _ []))))
  have hdone : Reads (computationRound (some m.entry, [])) []
      (.done (some m.entry, [])) [] := .bind .atEnd (.pure _ [])
  have hloop : Reads readComputations
      ('E' :: 'N' :: 'T' :: 'R' :: 'Y' :: spelledEntry s m.entry)
      (some m.entry, []) [] := by
    unfold readComputations
    exact .loop_more hround (Nat.zero_lt_succ _) (.loop_done hdone)
  rw [byteChars_spellModule hm]
  refine .bind (.expectKeyword rfl rfl) (.bind (reads_readName hm.name
    (unblanked_spellName hm.name _ _) (head?_spellAttributes _ _)) ?_)
  exact .bind (.skipLine (newline_notMem_spellAttributes _))
    (.bind .skipBlanks (.bind hloop (.pure m [])))

/-- A module is refused if its computation is. -/
theorem refuses_spelledModule (hm : m.Legible)
    (hentry : Refuses readComputation (spelledEntry s m.entry)) :
    Refuses readModule (byteChars (m.spell s)) := by
  have hround : Refuses (computationRound (none, []))
      ('E' :: 'N' :: 'T' :: 'R' :: 'Y' :: spelledEntry s m.entry) :=
    .bind .atEnd (.bind (.tryKeyword rfl rfl) (.bind_left hentry))
  have hloop : Refuses readComputations
      ('E' :: 'N' :: 'T' :: 'R' :: 'Y' :: spelledEntry s m.entry) := by
    unfold readComputations
    exact .loop hround
  rw [byteChars_spellModule hm]
  refine .bind (.expectKeyword rfl rfl) (.bind (reads_readName hm.name
    (unblanked_spellName hm.name _ _) (head?_spellAttributes _ _)) ?_)
  exact .bind (.skipLine (newline_notMem_spellAttributes _))
    (.bind .skipBlanks (.bind_left hloop))

/-! ## Programs as they are printed -/

/-- **A program is printed in names and marks.** -/
theorem isProgramText_renderModule (hm : m.Legible) :
    WrittenIn isProgramChar m.render := by
  have hlines : ∀ text ∈ m.entry.instructions.zipIdx.map fun line =>
      m.entry.spellInstruction (Spelling.plain.instructions line.2) line.1
        line.2, WrittenIn isProgramChar text := by
    intro text htext
    obtain ⟨line, hmem, rfl⟩ := List.mem_map.mp htext
    have hline := isProgramText_spellLine hm.entry
      (List.mem_zipIdx_iff_getElem?.mp hmem)
      (Spelling.plain.instructions line.2)
    have hnone : WrittenIn isProgramChar (spellAttributes none) := by decide
    rw [Entry.spellInstruction, writtenIn_append, writtenIn_append]
    exact ⟨⟨hline, hnone⟩, by decide⟩
  rw [← Module.spell_plain, Module.spell, Entry.spell]
  simp only [writtenIn_append]
  exact ⟨⟨⟨⟨by decide, isProgramText_spellName hm.name _⟩, by decide⟩,
    by decide⟩, ⟨isProgramText_spellHeader hm.entry _, writtenIn_join hlines⟩,
    by decide⟩

/-! ## Reading what was written -/

/-- **Which texts of a program are read back.** There has to be a header, and
every line has to be told from the mark of the root. -/
theorem Module.parse_spell_eq_ok (hm : m.Legible)
    (hread : ∀ i ∈ m.entry.instructions, i.ReadsBack) (s : Spelling) :
    Module.parse (m.spell s) = .ok m ↔ m.entry.signature.isSome
      ∧ ∀ position i, m.entry.instructions[position]? = some i →
        IsReadable m.entry (s.instructions position) position i := by
  constructor
  · intro hparse
    have hnot : ¬Refuses readComputation (spelledEntry s m.entry) := by
      intro hrefuses
      obtain ⟨error, herror⟩ := (refuses_spelledModule hm hrefuses).onText
      rw [Module.parse, herror] at hparse
      cases hparse
    refine ⟨?_, fun position i hi => ?_⟩
    · by_contra hsignature
      exact hnot (refuses_spelledEntry_unsigned hm.entry
        (Option.not_isSome_iff_eq_none.mp hsignature))
    · by_contra hname
      exact hnot (refuses_spelledEntry_line hm.entry hread hi hname)
  · rintro ⟨hsignature, hnames⟩
    exact (reads_spelledModule hm
      (reads_spelledEntry hm.entry hread hsignature hnames)).onText

/-- In the text that is printed no name has a mark. -/
theorem isReadable_plain :
    IsReadable e (Spelling.plain.instructions position) position i
      ↔ (position ≠ e.root → i.name ≠ "ROOT") := by
  unfold IsReadable Spelling.plain
  simp only [Bool.false_eq_true, ne_eq]

/-- **Which programs are read back.** A program that was read is read back
from its own text exactly if its computation has a header and no
instruction but the root is called `ROOT`. The text of each floating-point
number in a constant has to be read as that number; truth values and
integers always are. -/
theorem Module.parse_render_iff {text : String} {m : Module}
    (hm : Module.parse text = .ok m)
    (hfloat : ∀ i ∈ m.entry.instructions, i.FloatsReadBack) :
    Module.parse m.render = .ok m ↔ m.entry.signature.isSome
      ∧ ∀ position i, m.entry.instructions[position]? = some i →
        position ≠ m.entry.root → i.name ≠ "ROOT" := by
  rw [← Module.spell_plain, Module.parse_spell_eq_ok
    (Module.legible_of_parse hm) fun i hi => (hfloat i hi).readsBack]
  simp only [isReadable_plain]

/-- One and a half, and minus two. -/
def shiftValues : List (ElementType.Value .f32) :=
  [Binary.ofBits _ 0x3fc00000, Binary.ofBits _ 0xc0000000]

/-- A program with a constant whose root is called `ROOT`. -/
def shift : Module :=
  ⟨"m", ⟨"main", some [("x", ⟨.f32, [2]⟩)], some (.array ⟨.f32, [2]⟩),
    [⟨"x", .array ⟨.f32, [2]⟩, .parameter 0, []⟩,
      ⟨"c", .array ⟨.f32, [2]⟩, .constant (.vector .f32 shiftValues), []⟩,
      ⟨"ROOT", .array ⟨.f32, [2]⟩, .binary .add, [0, 1]⟩], 2⟩⟩

/-- The program as it may be written by hand. -/
def shiftText : String :=
  "HloModule m, version=1\n\nENTRY %main(x: f32[2]) -> f32[2] \x7b\n"
    ++ "  %x = f32[2]\x7b0\x7d parameter(0)\n"
    ++ "  c = f32[2] constant(\x7b1.5, -2\x7d), metadata=none\n"
    ++ "  ROOT %ROOT = f32[2] add(f32[2] %x, c)\n\x7d"

/-- The same program with its parameter as the root. -/
def shiftUnread : Module := { shift with entry.root := 0 }

/-- This program too can be written by hand, with the mark of a name. -/
def shiftUnreadText : String :=
  "HloModule m\n\nENTRY main(x: f32[2]) -> f32[2] \x7b\n"
    ++ "  ROOT x = f32[2] parameter(0)\n"
    ++ "  c = f32[2] constant(\x7b1.5, -2\x7d)\n"
    ++ "  %ROOT = f32[2] add(x, c)\n\x7d"

theorem shift_parse_render_iff :
    Module.parse shiftText = .ok shift
      ∧ Module.parse shift.render = .ok shift
      ∧ Module.parse shiftUnreadText = .ok shiftUnread
      ∧ Module.parse shiftUnread.render ≠ .ok shiftUnread := by
  have hm : Module.parse shiftText = .ok shift := by decide +kernel
  have hunread : Module.parse shiftUnreadText = .ok shiftUnread := by
    decide +kernel
  have hvalues : ∀ v ∈ shiftValues,
      readValue? .f32 (ElementType.render .f32 v).toList = some v := by
    decide +kernel
  have hfloat : ∀ i ∈ shift.entry.instructions, i.FloatsReadBack := by
    simp only [shift, List.forall_mem_cons]
    refine ⟨nofun, ?_, nofun, nofun⟩
    rintro _ ⟨⟩ _
    exact hvalues
  refine ⟨hm, (Module.parse_render_iff hm hfloat).mpr ?_, hunread,
    mt (Module.parse_render_iff hunread hfloat).mp ?_⟩
  · refine ⟨rfl, fun position i hi hroot => ?_⟩
    match position with
    | 0 =>
      cases hi
      decide
    | 1 =>
      cases hi
      decide
    | 2 => exact absurd rfl hroot
  · exact fun h => h.2 2 _ rfl (by decide) rfl

/-- **What may be written besides makes no difference.** A program with a
header that was read from a text is read back from whatever text is spelled
for it, exactly if each instruction that is called `ROOT` without being the
root is written with its mark there. The spelling with nothing besides is the
text that is printed. -/
theorem Module.parse_spell_iff {text : String} {m : Module}
    (hm : Module.parse text = .ok m) (hsignature : m.entry.signature.isSome)
    (hfloat : ∀ i ∈ m.entry.instructions, i.FloatsReadBack) :
    m.spell .plain = m.render
    ∧ ∀ s : Spelling, Module.parse (m.spell s) = .ok m
      ↔ ∀ position i, m.entry.instructions[position]? = some i →
        position ≠ m.entry.root → i.name = "ROOT" →
          (s.instructions position).marked := by
  refine ⟨m.spell_plain, fun s => ?_⟩
  rw [Module.parse_spell_eq_ok (Module.legible_of_parse hm)
    fun i hi => (hfloat i hi).readsBack, and_iff_right hsignature]
  rfl

/-- A program in which an instruction is called `ROOT` and another is the
root. -/
def mirror : Module :=
  ⟨"m", ⟨"main", some [("x", ⟨.s32, [2, 3]⟩)],
    some (.tuple [⟨.s32, [2, 3]⟩, ⟨.s32, [2, 3]⟩]),
    [⟨"x", .array ⟨.s32, [2, 3]⟩, .parameter 0, []⟩,
      ⟨"ROOT", .array ⟨.s32, [2, 3]⟩, .unary .negate, [0]⟩,
      ⟨"t", .tuple [⟨.s32, [2, 3]⟩, ⟨.s32, [2, 3]⟩], .tuple, [1, 0]⟩], 2⟩⟩

/-- The layout by columns. -/
def byColumns : Layout := ⟨"0,1", by decide⟩

/-- The program with marks, shapes, layouts and attributes at some places. -/
def mirrorSpelling : Spelling where
  marked := true
  attributes := some ⟨"größe=6", by decide⟩
  entryMarked := false
  parameters := fun _ => ⟨true, some byColumns⟩
  result := fun place => if place = 1 then some byColumns else none
  instructions := fun place =>
    ⟨place == 1, fun _ => some byColumns,
      fun operand => ⟨operand == 0, some fun _ => none⟩,
      if place = 1 then some ⟨"metadata=\x7b\x7d", by decide⟩ else none⟩

/-- The text of the program for this spelling. -/
def mirrorText : String :=
  "HloModule %m, größe=6\n\nENTRY main(%x: s32[2,3]\x7b0,1\x7d) -> "
    ++ "(s32[2,3], s32[2,3]\x7b0,1\x7d) \x7b\n"
    ++ "  x = s32[2,3]\x7b0,1\x7d parameter(0)\n"
    ++ "  %ROOT = s32[2,3]\x7b0,1\x7d negate(s32[2,3] %x), "
    ++ "metadata=\x7b\x7d\n"
    ++ "  ROOT t = (s32[2,3]\x7b0,1\x7d, s32[2,3]\x7b0,1\x7d) "
    ++ "tuple(s32[2,3] %ROOT, s32[2,3] x)\n\x7d"

/-- The program is read from this text, but not from the one that is
printed. -/
theorem mirror_parse_spell_iff :
    Module.parse mirrorText = .ok mirror
      ∧ mirror.spell mirrorSpelling = mirrorText
      ∧ Module.parse (mirror.spell mirrorSpelling) = .ok mirror
      ∧ Module.parse mirror.render ≠ .ok mirror := by
  have hm : Module.parse mirrorText = .ok mirror := by decide +kernel
  have hfloat : ∀ i ∈ mirror.entry.instructions, i.FloatsReadBack := by
    simp only [mirror, List.forall_mem_cons]
    exact ⟨nofun, nofun, nofun, nofun⟩
  obtain ⟨hplain, hspell⟩ := Module.parse_spell_iff hm rfl hfloat
  refine ⟨hm, by decide +kernel, (hspell mirrorSpelling).mpr ?_, ?_⟩
  · intro position i hi hroot hname
    match position with
    | 0 =>
      cases hi
      exact absurd hname (by decide)
    | 1 => rfl
    | 2 => exact absurd rfl hroot
  · rw [← hplain, ne_eq, hspell]
    exact fun h => Bool.false_ne_true (h 1 _ rfl (by decide) rfl)

end Graph

end TensorBind
