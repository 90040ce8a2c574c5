import Mathlib.Data.List.Basic
import Mathlib.Order.Lattice.Nat
import Mathlib.Tactic.Common

/-! # Forests and their pre-order

* `RoseTree`: a label with a list of subtrees.
* `RoseTree.preorderAll`, `RoseTree.heightAll`: the labels of a forest, a parent before its children, and
  the number of its levels. -/

set_option autoImplicit false

/-- A label with its subtrees, in order. -/
inductive RoseTree (α : Type) where
  | node (label : α) (children : List (RoseTree α))

namespace RoseTree

variable {α : Type}

@[elab_as_elim]
theorem induction {motive : RoseTree α → Prop}
    (node : ∀ label children, (∀ c ∈ children, motive c) → motive (.node label children))
    (t : RoseTree α) : motive t :=
  match t with
  | .node label children => node label children fun c _ => induction node c

mutual

/-- The labels, a parent before its children. -/
def preorder : RoseTree α → List α
  | .node label children => label :: preorderAll children

def preorderAll : List (RoseTree α) → List α
  | [] => []
  | t :: ts => t.preorder ++ preorderAll ts

end

mutual

/-- The number of levels. -/
def height : RoseTree α → ℕ
  | .node _ children => heightAll children + 1

def heightAll : List (RoseTree α) → ℕ
  | [] => 0
  | t :: ts => max t.height (heightAll ts)

end

theorem preorderAll_append (ts us : List (RoseTree α)) :
    preorderAll (ts ++ us) = preorderAll ts ++ preorderAll us := by
  induction ts with
  | nil => rfl
  | cons t ts ih => rw [List.cons_append, preorderAll, preorderAll, ih, List.append_assoc]

/-- A tree is its label and, in its place, its children. -/
theorem preorderAll_node_cons (label : α) (children ts : List (RoseTree α)) :
    preorderAll (.node label children :: ts) = label :: preorderAll (children ++ ts) := by
  rw [preorderAll, preorder, preorderAll_append, List.cons_append]

theorem length_le_preorderAll (ts : List (RoseTree α)) : ts.length ≤ (preorderAll ts).length := by
  induction ts with
  | nil => rfl
  | cons t ts ih =>
    obtain ⟨label, children⟩ := t
    rw [preorderAll_node_cons, preorderAll_append, List.length_cons, List.length_cons,
      List.length_append]
    omega

theorem heightAll_le {ts : List (RoseTree α)} {n : ℕ} :
    heightAll ts ≤ n ↔ ∀ t ∈ ts, t.height ≤ n := by
  induction ts with
  | nil => simp [heightAll]
  | cons t ts ih => rw [heightAll, max_le_iff, ih, List.forall_mem_cons]

end RoseTree
