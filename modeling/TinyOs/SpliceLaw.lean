import TinyOs.IntrusiveList

/-! The law of `rl_splice`, from which the other operations on lists are made:
it composes the permutation `next` with one transposition. -/
namespace TinyOs.IntrusiveList
open Library

variable {Node Key : Type*} [DecidableEq Node] {h : Heap Node Key}

/-- How two nodes may lie to one another. -/
inductive Apart (h : Heap Node Key) : Node → Node → Prop where
  | same {a} : Apart h a a
  | oneRing {a b xs ys} : h.Ring a (xs ++ b :: ys) → Apart h a b
  | twoRings {a b xs ys} : h.Ring a xs → h.Ring b ys → b ∉ a :: xs → Apart h a b

omit [DecidableEq Node] in
/-- In a finite heap there is no other case. -/
theorem apart_total [Finite Node] (formed : h.WellFormed) (a b : Node) : Apart h a b := by
  obtain ⟨xs, ring⟩ := formed.exists_ring a
  obtain ⟨ys, other⟩ := formed.exists_ring b
  by_cases here : b ∈ a :: xs
  · rcases List.mem_cons.mp here with rfl | inside
    · exact .same
    · obtain ⟨before, after, rfl⟩ := List.append_of_mem inside
      exact .oneRing ring
  · exact .twoRings ring other here

/-- What `rl_splice(a,b)` does: the law in the comment of `rlists`, and that
nothing else changes. -/
structure Splices (h : Heap Node Key) (a b : Node) : Prop where
  formed : (rlSplice h a b).1.WellFormed
  returns : (rlSplice h a b).2 = b
  keys : (rlSplice h a b).1.key = h.key
  next_other : ∀ c, c ≠ a → c ≠ b → (rlSplice h a b).1.next c = h.next c
  prev_other : ∀ c, c ≠ h.next a → c ≠ h.next b → (rlSplice h a b).1.prev c = h.prev c
  merges : ∀ xs ys, h.Ring a xs → h.Ring b ys → b ∉ a :: xs →
    (rlSplice h a b).1.Ring a (ys ++ b :: xs)
  splits : ∀ xs ys, h.Ring a (xs ++ b :: ys) →
    (rlSplice h a b).1.Ring a ys ∧ (rlSplice h a b).1.Ring b xs
  symmetric : (rlSplice h b a).1 = (rlSplice h a b).1
  involutive : (rlSplice (rlSplice h a b).1 a b).1 = h

/-- The pointers are exchanged one field after the other, which changes nothing:
`rlnode_swap` of the `prev` fields leaves the `next` fields alone. -/
theorem rlSplice_links (h : Heap Node Key) (a b : Node) :
    (rlSplice h a b).1 = ⟨h.toLinks.splice a b, h.key⟩ := rfl

/-- **The splice law.** In every finite heap of well-formed rings and for all
nodes, `rl_splice` keeps the rings well formed, merges two rings and splits one,
and is symmetric and its own inverse. -/
theorem splice_law [Finite Node] (formed : h.WellFormed) (a b : Node) :
    Apart h a b ∧ Splices h a b := by
  refine ⟨apart_total formed a b, ?_⟩
  constructor
  case formed => exact formed.splice a b
  case returns => rfl
  case keys => rfl
  case next_other => exact fun c notA notB => Links.splice_next_other _ notA notB
  case prev_other => exact fun c notA notB => Links.splice_prev_other _ notA notB
  case merges => exact fun xs ys ring other apart => ring.splice_join other apart
  case splits => exact fun xs ys ring => ring.splice_cut
  case symmetric =>
    rw [rlSplice_links, rlSplice_links, h.toLinks.splice_comm]
  case involutive =>
    rw [rlSplice_links, rlSplice_links]
    exact congrArg (fun links => Heap.mk links h.key) (h.toLinks.splice_splice a b)

/-- The sentinel of a list of two nodes, and a node that is a ring by itself. -/
theorem splice_law_merge : (rlSplice twoNodes 0 3).1.Ring 0 [3, 1, 2] ∧
    (rlSplice (rlSplice twoNodes 0 3).1 0 3).1 = twoNodes := by
  obtain ⟨formed, ring⟩ := twoNodes_rings
  obtain ⟨-, law⟩ := splice_law formed 0 3
  exact ⟨law.merges [1, 2] [] ring (Links.Ring.nil_iff.mpr rfl) (by decide), law.involutive⟩

end TinyOs.IntrusiveList
