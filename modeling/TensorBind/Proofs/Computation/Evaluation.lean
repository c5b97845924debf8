import TensorBind.Computation.Evaluation
import TensorBind.Proofs.Computation.WellFormed

/-!
# Evaluating well-formed computations

On arguments that match its parameters a well-formed computation has a
value, and every node of it does. What is used of that later is not how
the values are found but what they are: a list with one literal for each
node, of the node's shape, which is what the node computes from the
arguments and from the list itself (`Computation.Valuation`). There is
such a list for every matching list of arguments
(`Computation.WellFormed.exists_valuation`).
-/

namespace TensorBind

namespace Computation

variable {c : Computation} {arguments values : List Literal}

/-- **Arguments that match the parameters** of a computation: they have the
shapes of the parameters, in order. -/
def Accepts (c : Computation) (arguments : List Literal) : Prop :=
  arguments.map Literal.shape = c.parameterShapes

/-- **The values of the nodes** of a computation on some arguments. -/
structure Valuation (c : Computation) (arguments values : List Literal) :
    Prop where
  /-- There is one for each node. -/
  length_eq : values.length = c.nodes.length
  /-- Each is what its node computes. -/
  evaluateNode : ∀ {id : Nat} {node : Node} {value : Literal},
    c.nodes[id]? = some node → values[id]? = some value →
    evaluateNode arguments values node.op = .ok value
  /-- Each has the shape of its node. -/
  shape : ∀ {id : Nat} {node : Node} {value : Literal},
    c.nodes[id]? = some node → values[id]? = some value →
    value.shape = node.shape

/-- A parameter of a matching list of arguments is there. -/
theorem Accepts.exists_argument (ha : c.Accepts arguments)
    (hc : c.WellFormed) {id number : Nat} {shape : Shape}
    (hnode : c.nodes[id]? = some ⟨.parameter number, shape⟩) :
    ∃ value, arguments[number]? = some value ∧ value.shape = shape := by
  have hshape := hc.getElem?_parameterShapes hnode
  rw [← ha, List.getElem?_map] at hshape
  exact Option.map_eq_some_iff.mp hshape

/-- The value of a node that has one. -/
theorem valueAt_eq_ok {id : Nat} {value : Literal} :
    valueAt values id = .ok value ↔ values[id]? = some value := by
  unfold valueAt
  cases values[id]? <;> simp

/-- A parameter has the value of its argument. -/
theorem evaluateNode_parameter_eq_ok {number : Nat} {value : Literal} :
    Computation.evaluateNode arguments values (.parameter number) = .ok value
      ↔ arguments[number]? = some value := by
  unfold Computation.evaluateNode
  cases h : arguments[number]? <;> simp [h]

/-- **A node that fits has a value**, if the nodes it reads have values of
its shape. -/
theorem exists_evaluateNode (hc : c.WellFormed) (ha : c.Accepts arguments)
    {id : Nat} {node : Node} (hnode : c.nodes[id]? = some node)
    (hoperands : ∀ x ∈ node.op.operands, ∃ value,
      values[x]? = some value ∧ value.shape = node.shape) :
    ∃ value, Computation.evaluateNode arguments values node.op = .ok value
      ∧ value.shape = node.shape := by
  obtain ⟨op, shape⟩ := node
  have hdefined := (hc.fits hnode).definedOn
  cases op with
  | parameter number =>
    obtain ⟨value, hvalue, hshape⟩ := ha.exists_argument hc hnode
    exact ⟨value, evaluateNode_parameter_eq_ok.mpr hvalue, hshape⟩
  | constant value => exact ⟨value, rfl, hdefined⟩
  | unary op x =>
    obtain ⟨operand, hx, hshape⟩ := hoperands x (by simp [NodeOp.operands])
    obtain ⟨value, hvalue, hvshape⟩ := op.exists_onLiteral operand
    refine ⟨value, ?_, hvshape.trans hshape⟩
    rw [Computation.evaluateNode, valueAt_eq_ok.mpr hx, Except.ok_bind,
      hvalue]
    rfl
  | binary op x y =>
    obtain ⟨left, hx, hxshape⟩ := hoperands x (by simp [NodeOp.operands])
    obtain ⟨right, hy, hyshape⟩ := hoperands y (by simp [NodeOp.operands])
    have hop : op.definedOn left.shape.elementType := by
      rw [hxshape]
      exact hdefined
    obtain ⟨value, hvalue, hvshape⟩ :=
      BinaryOp.exists_onLiterals (hxshape.trans hyshape.symm) hop
    refine ⟨value, ?_, hvshape.trans hxshape⟩
    rw [Computation.evaluateNode, valueAt_eq_ok.mpr hx, Except.ok_bind,
      valueAt_eq_ok.mpr hy, Except.ok_bind, hvalue]
    rfl

/-- What a node computes depends only on the values of its operands. -/
theorem evaluateNode_congr {values' : List Literal} {op : NodeOp}
    (h : ∀ x ∈ op.operands, values[x]? = values'[x]?) :
    Computation.evaluateNode arguments values op
      = Computation.evaluateNode arguments values' op := by
  cases op with
  | parameter number => rfl
  | constant value => rfl
  | unary op x =>
    simp only [Computation.evaluateNode, valueAt,
      h x (by simp [NodeOp.operands])]
  | binary op x y =>
    simp only [Computation.evaluateNode, valueAt,
      h x (by simp [NodeOp.operands]), h y (by simp [NodeOp.operands])]

/-- **Every node of a well-formed computation has a value** on matching
arguments. -/
theorem WellFormed.exists_valuation (hc : c.WellFormed)
    (ha : c.Accepts arguments) :
    ∃ values, evaluateNodes arguments c.nodes = .ok values
      ∧ c.Valuation arguments values := by
  -- what holds of the values found so far
  let P (k : Nat) (values : List Literal) : Prop :=
    values.length = k ∧ ∀ (id : Nat) (node : Node), id < k →
      c.nodes[id]? = some node → ∃ value, values[id]? = some value
        ∧ value.shape = node.shape
  obtain ⟨values, hvalues, hlength, hall⟩ : ∃ values,
      evaluateNodes arguments c.nodes = .ok values
        ∧ P c.nodes.length values := by
    refine List.foldlM_eq_ok_of_step P ⟨rfl, by simp⟩ ?_
    rintro k hk values ⟨hlength, hall⟩
    have hnode : c.nodes[k]? = some c.nodes[k] := List.getElem?_eq_getElem hk
    have hfits := hc.fits hnode
    have hoperands : ∀ x ∈ c.nodes[k].op.operands, ∃ value,
        values[x]? = some value ∧ value.shape = c.nodes[k].shape := by
      intro x hx
      obtain ⟨n, hn, hnshape⟩ :=
        Option.map_eq_some_iff.mp (hfits.operand_shape x hx)
      rw [← hnshape]
      exact hall x n (hfits.operand_lt x hx) hn
    obtain ⟨value, hvalue, hshape⟩ :=
      exists_evaluateNode hc ha hnode hoperands
    refine ⟨values ++ [value], by rw [hvalue]; rfl, by simp [hlength], ?_⟩
    intro id node hid hidnode
    rcases Nat.lt_or_ge id k with hlt | hge
    · rw [List.getElem?_append_left (by omega)]
      exact hall id node hlt hidnode
    · obtain rfl : id = k := by omega
      rw [hnode, Option.some.injEq] at hidnode
      refine ⟨value, ?_, hidnode ▸ hshape⟩
      rw [← hlength]
      exact List.getElem?_concat_length
  have hrec := (List.foldlM_concat_eq_ok.mp hvalues).2
  refine ⟨values, hvalues, hlength, ?_, ?_⟩
  · intro id node value hnode hvalue
    rw [← hrec id node value hnode hvalue]
    refine evaluateNode_congr fun x hx => ?_
    rw [List.getElem?_take_of_lt ((hc.fits hnode).operand_lt x hx)]
  · intro id node value hnode hvalue
    obtain ⟨value', hvalue', hshape⟩ :=
      hall id node (List.getElem?_eq_some_iff.mp hnode).1 hnode
    rw [hvalue, Option.some.injEq] at hvalue'
    exact hvalue' ▸ hshape

/-- A node has a value. -/
theorem Valuation.exists_value (h : c.Valuation arguments values) {id : Nat}
    (hid : id < c.nodes.length) : ∃ value, values[id]? = some value :=
  ⟨_, List.getElem?_eq_getElem (h.length_eq ▸ hid)⟩

end Computation

end TensorBind
