import Mathlib.Logic.Basic

/-! Forests given by a parent function. -/
namespace TinyOs.Library

variable {Node : Type*}

/-- The parent links from a node lead to the root. -/
inductive Descends (parent : Node → Option Node) (root : Node) : Node → Prop where
  | child {node : Node} : parent node = some root → Descends parent root node
  | step {node middle : Node} :
      parent node = some middle → Descends parent root middle → Descends parent root node

/-- Nodes whose parents are nodes of a lower rank, or the root, lead to the
root. -/
theorem descends_of_rank {parent : Node → Option Node} {root : Node} (rank : Node → Nat)
    (Member : Node → Prop)
    (parented : ∀ node, Member node → ∃ above, parent node = some above ∧
      (above = root ∨ Member above) ∧ rank above < rank node)
    {node : Node} (member : Member node) : Descends parent root node := by
  induction bound : rank node using Nat.strongRecOn generalizing node with
  | _ n ih =>
    obtain ⟨above, link, rooted | among, lower⟩ := parented node member
    · exact .child (rooted ▸ link)
    · exact .step link (ih (rank above) (bound ▸ lower) among rfl)

end TinyOs.Library
