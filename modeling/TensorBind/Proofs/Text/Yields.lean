import Mathlib
import TensorBind.Text.Parser

/-!
# What readers give

`Parser.Yields` says of a reader that whatever it gives has a property,
from any place in any text. A reader that fails gives nothing, so what a
reader checks before it gives a value can be read off its value.

The rules follow how readers are put together: one after another, by
cases, and repeated, where the rounds keep a property of the state
(`Parser.Yields.loop`).
-/

namespace TensorBind.Parser

variable {σ α β : Type} {Q : α → Prop}

/-- Where a reader leads, the next one goes on. -/
theorem bind_of_eq_ok {first : Parser β} {second : β → Parser α}
    {c next : Cursor} {b : β} (h : first c = .ok (b, next)) :
    (first >>= second) c = second b next := by
  show (first c >>= fun s => second s.1 s.2) = _
  rw [h]
  rfl

theorem bind_of_eq_error {first : Parser β} {second : β → Parser α}
    {c : Cursor} {e : ParseError} (h : first c = .error e) :
    (first >>= second) c = .error e := by
  show (first c >>= fun s => second s.1 s.2) = _
  rw [h]
  rfl

/-- **Whatever a reader gives has a property.** -/
def Yields (p : Parser α) (Q : α → Prop) : Prop :=
  ∀ c a next, p c = .ok (a, next) → Q a

namespace Yields

variable {p q : Parser α}

/-- Of any reader nothing in particular can be said. -/
theorem trivial (p : Parser α) : Yields p fun _ => True :=
  fun _ _ _ _ => True.intro

theorem pure {a : α} (h : Q a) : Yields (Pure.pure a) Q := by
  intro c b next hp
  cases hp
  exact h

/-- Of two readers, the second may use what the first gives. -/
theorem bind {first : Parser β} {second : β → Parser α} {R : β → Prop}
    (hfirst : Yields first R) (hsecond : ∀ b, R b → Yields (second b) Q) :
    Yields (first >>= second) Q := by
  intro c a next h
  cases hrun : first c with
  | error e =>
    rw [bind_of_eq_error hrun] at h
    cases h
  | ok result =>
    rw [bind_of_eq_ok hrun] at h
    exact hsecond result.1 (hfirst c result.1 result.2 hrun) _ a next h

/-- Of two readers, the second alone decides. -/
theorem after {first : Parser β} {second : β → Parser α}
    (h : ∀ b, Yields (second b) Q) : Yields (first >>= second) Q :=
  (trivial first).bind fun b _ => h b

theorem and {R : α → Prop} (hq : Yields p Q) (hr : Yields p R) :
    Yields p fun a => Q a ∧ R a :=
  fun c a next h => ⟨hq c a next h, hr c a next h⟩

/-- A reader that refuses gives nothing. -/
theorem fail {cause : ParseCause} : Yields (Parser.fail cause) Q := by
  intro c a next h
  cases h

theorem failAt {c : Cursor} {cause : ParseCause} :
    Yields (Parser.failAt c cause) Q := by
  intro _ a next h
  cases h

theorem ite {P : Prop} [Decidable P] (hp : P → Yields p Q)
    (hq : ¬P → Yields q Q) : Yields (if P then p else q) Q := by
  split
  · rename_i h
    exact hp h
  · rename_i h
    exact hq h

/-- A reader that may have another one before it. -/
theorem optional {first : Parser β} {P : Prop} [Decidable P]
    (h : Yields p Q) : Yields (if P then first >>= fun _ => p else p) Q :=
  ite (fun _ => after fun _ => h) fun _ => h

/-- **A repetition** gives what its last round does, and all rounds keep a
property of the state. -/
theorem loop {round : σ → Parser (Round σ α)} {state : σ}
    (invariant : σ → Prop) (h : invariant state)
    (hround : ∀ state, invariant state → Yields (round state) fun
      | .more state => invariant state
      | .done value => Q value) :
    Yields (Parser.loop round state) Q := by
  intro c
  fun_induction Parser.loop round state c with
  | case1 state c e hrun =>
    intro a next hp
    cases hp
  | case2 state c value after hrun =>
    intro a next hp
    cases hp
    exact hround state h c _ _ hrun
  | case3 state c state' after hrun hlt ih =>
    exact ih (hround state h c _ _ hrun)
  | case4 state c state' after hrun hlt =>
    intro a next hp
    cases hp

/-- What holds of every value a reader gives holds of the value it gives
for a text. -/
theorem onText {text : String} {a : α} (h : Yields p Q)
    (hp : p.onText text = .ok a) : Q a := by
  unfold Parser.onText at hp
  cases hrun : p (Cursor.ofText text) with
  | error e =>
    rw [hrun] at hp
    cases hp
  | ok result =>
    rw [hrun] at hp
    cases hp
    exact h _ _ _ hrun

end Yields

/-! ## Names -/

/-- **A name**: at least one character, all of those of names. -/
def IsName (name : String) : Prop :=
  name.toList ≠ [] ∧ ∀ c ∈ name.toList, isNameChar c

instance (name : String) : Decidable (IsName name) :=
  decidable_of_decidable_of_iff
    (p := name.toList ≠ [] ∧ name.toList.all isNameChar)
    (and_congr_right fun _ => List.all_eq_true)

theorem takeRun_yields (p : Char → Bool) :
    Yields (takeRun p) fun run => ∀ c ∈ run, p c := by
  intro c run next h
  cases h
  exact List.all_eq_true.mp List.all_takeWhile

theorem word_yields : Yields word IsName := by
  refine Yields.after fun _ => (takeRun_yields isNameChar).bind
    fun run hrun => ?_
  refine Yields.ite (fun _ => Yields.fail) fun hne => Yields.pure ?_
  rw [IsName, String.toList_ofList]
  exact ⟨mt List.isEmpty_iff.mpr hne, hrun⟩

/-- What an identifier may start with belongs to its run. -/
theorem exists_run_of_startsIdentifier {c : Cursor}
    (h : c.peek?.any startsIdentifier) :
    ∃ b run, c.run isNameChar = b :: run ∧ startsIdentifier b := by
  unfold Cursor.peek? at h
  cases hrest : c.rest with
  | nil =>
    rw [hrest] at h
    cases h
  | cons b rest =>
    rw [hrest] at h
    have hfirst : startsIdentifier b := h
    have hb : isNameChar b := by
      simp only [startsIdentifier, Bool.or_eq_true] at hfirst
      rcases hfirst with hb | hb
      · simp [isNameChar, hb]
      · simp [isNameChar, hb]
    refine ⟨b, rest.takeWhile isNameChar, ?_, hfirst⟩
    rw [Cursor.run, hrest, List.takeWhile_cons_of_pos hb]

/-- An identifier is a name that begins as one has to. -/
theorem identifier_yields : Yields identifier fun name =>
    IsName name ∧ name.toList.head?.any startsIdentifier := by
  refine Yields.after fun _ => ?_
  intro c name next h
  have h : (if c.peek?.any startsIdentifier then
      (do return String.ofList (← takeRun isNameChar) : Parser String)
    else Parser.fail (.expectedIdentifier c.peek?)) c = .ok (name, next) := h
  split at h
  · rename_i hfirst
    cases h
    obtain ⟨b, run, hrun, hb⟩ := exists_run_of_startsIdentifier hfirst
    rw [IsName, String.toList_ofList]
    refine ⟨⟨?_, List.all_eq_true.mp List.all_takeWhile⟩, ?_⟩
    · rw [hrun]
      exact List.cons_ne_nil _ _
    · rw [hrun]
      exact hb
  · cases h

/-! ## Lists -/

theorem itemsUntil_yields {closing : Char} {cause : ParseCause}
    {item : σ → Parser σ} {state : σ} {invariant : σ → Prop}
    (h : invariant state)
    (hitem : ∀ state, invariant state → Yields (item state) invariant) :
    Yields (itemsUntil closing cause item state) invariant := by
  refine Yields.loop invariant h fun state hstate => ?_
  refine Yields.after fun closed => Yields.ite (fun _ => Yields.pure hstate)
    fun _ => ?_
  exact (hitem state hstate).bind fun state hstate =>
    Yields.after fun _ => Yields.pure hstate

theorem listUntil_yields {closing : Char} {cause : ParseCause}
    {item : Parser α} (hitem : Yields item Q) :
    Yields (listUntil closing cause item) fun items => ∀ a ∈ items, Q a := by
  refine itemsUntil_yields (fun _ h => absurd h List.not_mem_nil)
    fun items hitems => hitem.bind fun a ha => Yields.pure ?_
  exact List.forall_mem_append.mpr ⟨hitems, List.forall_mem_singleton.mpr ha⟩

theorem commaSeparated_yields {item : Parser α} (hitem : Yields item Q) :
    Yields (commaSeparated item) fun items => ∀ a ∈ items, Q a := by
  refine Yields.loop (fun items => ∀ a ∈ items, Q a)
    (fun _ h => absurd h List.not_mem_nil) fun items hitems => ?_
  refine hitem.bind fun a ha => ?_
  have hmore : ∀ b ∈ items ++ [a], Q b :=
    List.forall_mem_append.mpr ⟨hitems, List.forall_mem_singleton.mpr ha⟩
  exact Yields.after fun comma =>
    Yields.ite (fun _ => Yields.pure hmore) fun _ => Yields.pure hmore

end TensorBind.Parser
