import TensorBind.Computation.Draft
import TensorBind.Proofs.Computation.WellFormed

/-!
# Drafts fail without a trace

A call of a draft may lengthen the table of parameters before it turns out
that it has to refuse. It still leaves the draft exactly as it was: a number
that is taken is within the table, so that nothing was added
(`Draft.reserve_eq_self`). Whatever calls are made, those that failed might
as well not have been made (`Draft.after_accepted`).

What ties a draft to the builder inside it is that its table says of every
number what the nodes say, and is no longer than the numbers ask for
(`Draft.Tabled`). All calls keep this, so that a draft answers, adds and
finishes as its builder does, and what it finishes is well-formed.
-/

namespace TensorBind

namespace Builder

variable {b : Builder}

/-- A node that is added takes the parameter it is for. -/
theorem parameterNode?_append (op : NodeOp) (shape : Shape) (number : Nat) :
    (b.append op shape).parameterNode? number
      = (b.parameterNode? number).or
        (if op = .parameter number then some b.nodes.length else none) := by
  unfold parameterNode?
  rw [append_nodes, List.findIdx?_append, List.findIdx?_singleton]
  by_cases hop : op = .parameter number
  · simp [hop]
  · simp [hop]

theorem parameterCount_append_parameter (number : Nat) (shape : Shape) :
    (b.append (.parameter number) shape).parameterCount
      = max b.parameterCount (number + 1) := by
  unfold parameterCount
  rw [append_nodes, List.foldl_append]
  rfl

theorem parameterCount_append {op : NodeOp} (shape : Shape)
    (h : ∀ number, op ≠ .parameter number) :
    (b.append op shape).parameterCount = b.parameterCount := by
  unfold parameterCount
  rw [append_nodes, List.foldl_append]
  cases op with
  | parameter number => exact absurd rfl (h number)
  | constant value => rfl
  | unary op x => rfl
  | binary op x y => rfl

end Builder

namespace Draft

variable {d : Draft} {number : Nat}

/-! ## Calls that fail -/

/-- **A number that is taken is within the table**, which is then long
enough as it is. -/
theorem reserve_eq_self (h : (d.reserve number).takes number) :
    d.reserve number = d := by
  unfold takes reserve at h
  dsimp only at h
  have hlt : number < d.parameters.length := by
    by_contra hge
    rw [List.getElem?_append_right (Nat.le_of_not_lt hge),
      List.getElem?_replicate] at h
    split at h
    · exact Bool.false_ne_true h
    · exact Bool.false_ne_true h
  unfold reserve
  rw [Nat.sub_eq_zero_of_le hlt, List.replicate_zero, List.append_nil]

theorem eq_of_parameter_eq_error {shape : Shape} {cause : BuildError}
    {next : Draft} (h : d.parameter number shape = (.error cause, next)) :
    next = d := by
  unfold parameter at h
  split at h
  · cases h
    rfl
  · dsimp only at h
    split at h
    · rename_i htaken
      cases h
      exact reserve_eq_self htaken
    · cases h

theorem eq_of_settle_eq_error {call : Except BuildError (Nat × Builder)}
    {cause : BuildError} {next : Draft}
    (h : d.settle call = (.error cause, next)) : next = d := by
  cases call with
  | error e =>
    cases h
    rfl
  | ok given => cases h

/-- **What a call answers and makes of a draft.** The answer is the node
that was added, if the call is one that adds a node. -/
def perform (d : Draft) :
    Builder.Call → Except BuildError (Option Nat) × Draft
  | .parameter number shape =>
    (d.parameter number shape).map (Except.map some) id
  | .constant value => (d.constant value).map (Except.map some) id
  | .unary op x => (d.unary op x).map (Except.map some) id
  | .binary op x y => (d.binary op x y).map (Except.map some) id
  | .expectShape id declared what =>
    ((d.toBuilder.expectShape id declared what).map fun _ => none, d)

/-- **A call that fails leaves the draft as it was.** -/
theorem eq_of_perform_eq_error {call : Builder.Call} {cause : BuildError}
    {next : Draft} (h : d.perform call = (.error cause, next)) :
    next = d := by
  have hcause : ∀ {made : Except BuildError Nat × Draft},
      made.map (Except.map some) id = (.error cause, next) →
      made = (.error cause, next) := by
    rintro ⟨answer, after⟩ hmade
    cases answer with
    | error e =>
      cases hmade
      rfl
    | ok id => cases hmade
  cases call with
  | parameter number shape => exact eq_of_parameter_eq_error (hcause h)
  | constant value => cases h
  | unary op x => exact eq_of_settle_eq_error (hcause h)
  | binary op x y => exact eq_of_settle_eq_error (hcause h)
  | expectShape id declared what => exact (congrArg Prod.snd h).symm

/-! ## Runs -/

/-- **The draft after some calls.** -/
def after (d : Draft) (calls : List Builder.Call) : Draft :=
  calls.foldl (fun d call => (d.perform call).2) d

/-- **The calls that succeed**, if all of some are made. -/
def accepted (d : Draft) : List Builder.Call → List Builder.Call
  | [] => []
  | call :: calls =>
    match d.perform call with
    | (.ok _, next) => call :: next.accepted calls
    | (.error _, next) => next.accepted calls

theorem accepted_sublist (d : Draft) (calls : List Builder.Call) :
    (d.accepted calls).Sublist calls := by
  induction calls generalizing d with
  | nil => exact .slnil
  | cons call calls ih =>
    unfold accepted
    split
    · rename_i next _
      exact (ih next).cons_cons call
    · rename_i next _
      exact (ih next).cons call

/-- **Calls that failed might as well not have been made**: without them no
call fails, and the draft is the same in the end. -/
theorem after_accepted (d : Draft) (calls : List Builder.Call) :
    d.accepted (d.accepted calls) = d.accepted calls
      ∧ d.after (d.accepted calls) = d.after calls := by
  induction calls generalizing d with
  | nil => exact ⟨rfl, rfl⟩
  | cons call calls ih =>
    have hafter : d.after (call :: calls)
        = (d.perform call).2.after calls := rfl
    rw [hafter, accepted]
    cases hcall : d.perform call with
    | mk answer next =>
      cases answer with
      | error cause =>
        obtain rfl := eq_of_perform_eq_error hcall
        exact ih next
      | ok id =>
        obtain ⟨haccepted, hsame⟩ := ih next
        dsimp only
        constructor
        · rw [accepted, hcall]
          exact congrArg (call :: ·) haccepted
        · rw [show d.after (call :: next.accepted calls)
            = (d.perform call).2.after (next.accepted calls) from rfl, hcall]
          exact hsame

/-! ## The table and the nodes -/

/-- **A table that says what the nodes say**: for each number the node that
takes it, and no number behind the largest that is taken. -/
structure Tabled (d : Draft) : Prop where
  /-- The table has the node of each number. -/
  join_getElem? : ∀ number,
    d.parameters[number]?.join = d.toBuilder.parameterNode? number
  /-- The table ends with the largest number. -/
  length_eq : d.parameters.length = d.toBuilder.parameterCount

theorem tabled_empty (name : String) : (empty name).Tabled :=
  ⟨fun _ => rfl, rfl⟩

/-- A node that takes no parameter leaves the table right. -/
theorem Tabled.append {op : NodeOp} (h : d.Tabled) (shape : Shape)
    (hop : ∀ number, op ≠ .parameter number) :
    Tabled { d with toBuilder := d.toBuilder.append op shape } := by
  constructor
  · intro number
    rw [Builder.parameterNode?_append, if_neg (hop number), Option.or_none]
    exact h.join_getElem? number
  · rw [Builder.parameterCount_append shape hop]
    exact h.length_eq

theorem length_reserve (d : Draft) (number : Nat) :
    (d.reserve number).parameters.length
      = max d.parameters.length (number + 1) := by
  unfold reserve
  rw [List.length_append, List.length_replicate]
  omega

/-- Holes say nothing. -/
theorem join_getElem?_reserve (d : Draft) (number k : Nat) :
    (d.reserve number).parameters[k]?.join = d.parameters[k]?.join := by
  unfold reserve
  dsimp only
  rw [List.getElem?_append]
  split
  · rfl
  · rename_i hk
    rw [List.getElem?_replicate, List.getElem?_eq_none (Nat.le_of_not_lt hk)]
    split
    · rfl
    · rfl

/-- The table knows whether a number is taken. -/
theorem Tabled.takes_reserve (h : d.Tabled) :
    (d.reserve number).takes number = d.toBuilder.hasParameter number := by
  rw [takes, join_getElem?_reserve, h.join_getElem?, Builder.hasParameter]

/-- **A parameter that is entered** leaves the table right. -/
theorem Tabled.enter (h : d.Tabled) (shape : Shape)
    (hfree : d.toBuilder.parameterNode? number = none) :
    Tabled ⟨d.toBuilder.append (.parameter number) shape,
      (d.reserve number).parameters.set number (some d.nodes.length)⟩ := by
  have hlength := d.length_reserve number
  constructor
  · intro k
    dsimp only
    rw [Builder.parameterNode?_append]
    by_cases hk : number = k
    · subst hk
      rw [List.getElem?_set_self (by omega), if_pos rfl, hfree,
        Option.none_or]
      rfl
    · rw [List.getElem?_set_ne hk, if_neg (mt NodeOp.parameter.inj hk),
        Option.or_none, join_getElem?_reserve, h.join_getElem?]
  · rw [Builder.parameterCount_append_parameter, List.length_set, hlength,
      h.length_eq]

/-- **A draft does what its builder does**, and keeps its table right. -/
theorem Tabled.parameter (h : d.Tabled) (number : Nat) (shape : Shape) :
    (d.parameter number shape).2.Tabled
      ∧ d.toBuilder.parameter number shape
        = (d.parameter number shape).1.map
          fun id => (id, (d.parameter number shape).2.toBuilder) := by
  unfold Draft.parameter Builder.parameter
  by_cases hlarge : largestSize ≤ number
  · rw [if_pos hlarge, if_pos hlarge]
    exact ⟨h, rfl⟩
  rw [if_neg hlarge, if_neg hlarge]
  dsimp only
  rw [h.takes_reserve]
  by_cases htaken : d.toBuilder.hasParameter number
  · rw [if_pos htaken, if_pos htaken]
    rw [← h.takes_reserve] at htaken
    rw [reserve_eq_self htaken]
    exact ⟨h, rfl⟩
  · rw [if_neg htaken, if_neg htaken]
    exact ⟨h.enter shape (Option.not_isSome_iff_eq_none.mp htaken), rfl⟩

theorem Tabled.settle (h : d.Tabled)
    {call : Except BuildError (Nat × Builder)}
    (hcall : ∀ id b, call = .ok (id, b) → ∃ op shape,
      b = d.toBuilder.append op shape ∧ ∀ number, op ≠ .parameter number) :
    (d.settle call).2.Tabled
      ∧ call = (d.settle call).1.map
        fun id => (id, (d.settle call).2.toBuilder) := by
  cases call with
  | error cause => exact ⟨h, rfl⟩
  | ok given =>
    obtain ⟨op, shape, hb, hop⟩ := hcall given.1 given.2 rfl
    refine ⟨?_, rfl⟩
    show Tabled { d with toBuilder := given.2 }
    rw [hb]
    exact h.append shape hop

/-- **Every call keeps the table right**, and it does to the builder inside
what the same call of a builder does. -/
theorem Tabled.perform (h : d.Tabled) (call : Builder.Call) :
    (d.perform call).2.Tabled
      ∧ d.toBuilder.perform call
        = (d.perform call).1.map
          fun _ => (d.perform call).2.toBuilder := by
  -- what is known of the answer with the node holds of the answer alone
  have hanswer : ∀ {made : Except BuildError Nat × Draft}
      {call : Except BuildError (Nat × Builder)},
      made.2.Tabled
        ∧ call = made.1.map (fun id => (id, made.2.toBuilder)) →
      (made.map (Except.map some) id).2.Tabled
        ∧ call.map Prod.snd
          = (made.map (Except.map some) id).1.map
            fun _ => (made.map (Except.map some) id).2.toBuilder := by
    rintro ⟨answer, next⟩ call ⟨hnext, rfl⟩
    cases answer with
    | error cause => exact ⟨hnext, rfl⟩
    | ok id => exact ⟨hnext, rfl⟩
  cases call with
  | parameter number shape => exact hanswer (h.parameter number shape)
  | constant value =>
    refine hanswer (h.settle fun id b hb => ?_)
    cases hb
    exact ⟨.constant value, value.shape, rfl, by simp⟩
  | unary op x =>
    refine hanswer (h.settle fun id b hb => ?_)
    obtain ⟨shape, -, -, -, rfl⟩ := Builder.unary_eq_ok.mp hb
    exact ⟨.unary op x, shape, rfl, by simp⟩
  | binary op x y =>
    refine hanswer (h.settle fun id b hb => ?_)
    obtain ⟨shape, -, -, -, -, rfl⟩ := Builder.binary_eq_ok.mp hb
    exact ⟨.binary op x y, shape, rfl, by simp⟩
  | expectShape id declared what =>
    refine ⟨h, ?_⟩
    unfold Draft.perform Builder.perform
    dsimp only
    cases d.toBuilder.expectShape id declared what with
    | error cause => rfl
    | ok given => rfl

/-- **The builder inside a draft** goes the way of a builder. -/
theorem Tabled.after (h : d.Tabled) (calls : List Builder.Call) :
    (d.after calls).Tabled
      ∧ (d.after calls).toBuilder = d.toBuilder.after calls := by
  induction calls generalizing d with
  | nil => exact ⟨h, rfl⟩
  | cons call calls ih =>
    obtain ⟨hnext, hperform⟩ := h.perform call
    obtain ⟨htabled, hafter⟩ := ih hnext
    refine ⟨htabled, ?_⟩
    rw [Builder.after, hperform]
    cases hcall : d.perform call with
    | mk answer next =>
      rw [hcall] at hafter
      show (d.after (call :: calls)).toBuilder = _
      rw [show d.after (call :: calls) = (d.perform call).2.after calls
        from rfl, hcall]
      cases answer with
      | ok id => exact hafter
      | error cause =>
        rw [eq_of_perform_eq_error hcall] at hafter ⊢
        exact hafter

/-! ## Finished drafts -/

/-- A table without holes lists the nodes that a search finds. -/
theorem withoutHoles_eq {b : Builder} {table : List (Option Nat)}
    (h : ∀ k, table[k]?.join
      = if k < table.length then b.parameterNode? (number + k) else none) :
    withoutHoles b.name number table
      = b.parametersFrom number table.length := by
  induction table generalizing number with
  | nil => rfl
  | cons entry table ih =>
    have hentry : entry = b.parameterNode? number := by
      have hzero := h 0
      rwa [List.getElem?_cons_zero, Option.join_some, if_pos (by simp)]
        at hzero
    have hrest := @ih (number + 1) fun k => by
      have hsucc := h (k + 1)
      rw [List.getElem?_cons_succ, List.length_cons,
        ← Nat.add_assoc, Nat.add_right_comm] at hsucc
      rw [hsucc]
      exact if_congr Nat.succ_lt_succ_iff rfl rfl
    rw [List.length_cons, Builder.parametersFrom, ← hentry]
    cases entry with
    | none => rfl
    | some id =>
      rw [withoutHoles, hrest]

/-- **A draft is finished as its builder is.** -/
theorem Tabled.build_eq (h : d.Tabled) (outputs : List Nat) :
    d.build outputs = d.toBuilder.build outputs := by
  have htable : withoutHoles d.name 0 d.parameters
      = d.toBuilder.parametersFrom 0 d.toBuilder.parameterCount := by
    rw [← h.length_eq]
    refine withoutHoles_eq fun k => ?_
    split
    · rw [Nat.zero_add, h.join_getElem?]
    · rename_i hk
      rw [List.getElem?_eq_none (Nat.le_of_not_lt hk)]
      rfl
  unfold build Builder.build
  cases outputs.find? (d.nodes.length ≤ ·) with
  | none =>
    dsimp only
    rw [htable]
  | some id => rfl

/-- **Drafts fail without a trace and finish well-formed**, over any calls
with any arguments.

A call that fails leaves the draft, its table included, exactly as it was.
So the draft after some calls is the one after only those that succeeded,
and these succeed again on their own. The draft is finished exactly if the
builder of the same calls is, with the same result, and the computation is
well-formed. -/
theorem perform_atomic_build_wellFormed (name : String)
    (calls : List Builder.Call) :
    let d := (empty name).after calls
    let kept := (empty name).accepted calls
    (∀ call cause next, d.perform call = (.error cause, next) → next = d)
    ∧ kept.Sublist calls
    ∧ (empty name).accepted kept = kept
    ∧ (empty name).after kept = d
    ∧ ∀ outputs,
      d.build outputs = ((Builder.empty name).after calls).build outputs
      ∧ ∀ c, d.build outputs = .ok c →
        c.WellFormed ∧ c.name = d.name ∧ c.nodes = d.nodes
          ∧ c.outputs = outputs := by
  intro d kept
  obtain ⟨hagain, hsame⟩ := (empty name).after_accepted calls
  obtain ⟨htabled, hbuilder⟩ := (tabled_empty name).after calls
  refine ⟨fun call cause next => eq_of_perform_eq_error,
    accepted_sublist _ _, hagain, hsame, fun outputs => ?_⟩
  have hbuild := htabled.build_eq outputs
  rw [hbuilder] at hbuild
  refine ⟨hbuild, fun c hc => ?_⟩
  have hwellFormed : d.toBuilder.WellFormed := by
    rw [hbuilder]
    exact (Builder.wellFormed_empty name).after calls
  exact hwellFormed.build ((htabled.build_eq outputs).symm.trans hc)

/-- Parameters that come out of order and leave a gap for a while, one of
them a second time, an operand that is missing and a shape that is
wrong. -/
def outOfOrderCalls : List Builder.Call :=
  [.parameter 2 ⟨.s32, [2]⟩, .parameter 0 ⟨.s32, [2]⟩,
    .parameter 2 ⟨.f32, []⟩, .unary .negate 7, .parameter 1 ⟨.s32, [2]⟩,
    .binary .add 0 2, .expectShape 3 ⟨.f32, []⟩ "sum"]

/-- Three of the seven calls fail. Another parameter that is taken fails
too and leaves no trace, and what is finished lists the parameters by
number. -/
theorem outOfOrder_perform_atomic :
    let d := (empty "f").after outOfOrderCalls
    let again := d.perform (.parameter 1 ⟨.f32, []⟩)
    again.1 = .error (.parameterTwice 1 "f") ∧ again.2 = d
    ∧ (empty "f").accepted outOfOrderCalls
      = [.parameter 2 ⟨.s32, [2]⟩, .parameter 0 ⟨.s32, [2]⟩,
        .parameter 1 ⟨.s32, [2]⟩, .binary .add 0 2]
    ∧ (empty "f").after ((empty "f").accepted outOfOrderCalls) = d
    ∧ ∃ c, d.build [3] = .ok c ∧ c.parameters = [1, 2, 0]
      ∧ c.WellFormed := by
  intro d again
  obtain ⟨hatomic, -, -, hsame, hbuild⟩ :=
    perform_atomic_build_wellFormed "f" outOfOrderCalls
  have hagain : again.1 = .error (.parameterTwice 1 "f") := by
    decide +kernel
  have hresult : d.build [3] = .ok ⟨"f",
      [⟨.parameter 2, ⟨.s32, [2]⟩⟩, ⟨.parameter 0, ⟨.s32, [2]⟩⟩,
        ⟨.parameter 1, ⟨.s32, [2]⟩⟩, ⟨.binary .add 0 2, ⟨.s32, [2]⟩⟩],
      [1, 2, 0], [3]⟩ := by
    decide +kernel
  exact ⟨hagain, hatomic _ _ _ (Prod.ext hagain rfl), by decide +kernel,
    hsame, _, hresult, rfl, ((hbuild [3]).2 _ hresult).1⟩

end Draft

end TensorBind
