import Mathlib.Data.List.Iterate
import Mathlib.Data.List.Nodup
import Mathlib.Dynamics.PeriodicPts.Lemmas
import Mathlib.Logic.Equiv.Basic

/-! Rings of doubly linked nodes under two operations. Exchanging the successors
of two nodes joins two rings or cuts one ring in two; exchanging the two links of
every node of a ring turns it round. -/
namespace TinyOs.Library
open Function

variable {Node : Type*}

/-- Nodes joined to one another by two link fields. -/
structure Links (Node : Type*) where
  next : Node → Node
  prev : Node → Node

/-- From `first`, the successors are the nodes of the list in its order, and
then `last`. -/
def Walk (next : Node → Node) : Node → List Node → Node → Prop
  | first, [], last => next first = last
  | first, node :: rest, last => next first = node ∧ Walk next node rest last

section Walks
variable {next prev : Node → Node} {first last node : Node} {nodes others : List Node}

theorem walk_append :
    Walk next first (nodes ++ node :: others) last ↔
      Walk next first nodes node ∧ Walk next node others last := by
  induction nodes generalizing first with
  | nil => rfl
  | cons head rest ih => simp only [List.cons_append, Walk, ih, and_assoc]

/-- A walk reads the successors of the nodes it leaves, and no others. -/
theorem Walk.congr {other : Node → Node} (walk : Walk next first nodes last)
    (same : ∀ node ∈ first :: nodes, other node = next node) : Walk other first nodes last := by
  induction nodes generalizing first with
  | nil => exact (same first List.mem_cons_self).trans walk
  | cons head rest ih =>
    refine ⟨(same first List.mem_cons_self).trans walk.1, ih walk.2 ?_⟩
    exact fun node member => same node (List.mem_cons_of_mem _ member)

/-- The nodes before the first return to `last` are determined by the links. -/
theorem Walk.unique (walk : Walk next first nodes last) (absent : last ∉ nodes)
    (other : Walk next first others last) (absent' : last ∉ others) : nodes = others := by
  induction nodes generalizing first others with
  | nil =>
    cases others with
    | nil => rfl
    | cons head rest => exact absurd (walk.symm.trans other.1) (List.ne_of_not_mem_cons absent')
  | cons head rest ih =>
    cases others with
    | nil => exact absurd (other.symm.trans walk.1) (List.ne_of_not_mem_cons absent)
    | cons head' rest' =>
      obtain rfl : head = head' := walk.1.symm.trans other.1
      rw [ih walk.2 (List.not_mem_of_not_mem_cons absent) other.2
        (List.not_mem_of_not_mem_cons absent')]

/-- A walk with another first successor. -/
theorem Walk.redirect {other : Node → Node} {start : Node} (walk : Walk next first nodes last)
    (begins : other start = next first) (same : ∀ node ∈ nodes, other node = next node) :
    Walk other start nodes last := by
  cases nodes with
  | nil => exact begins.trans walk
  | cons head rest => exact ⟨begins.trans walk.1, walk.2.congr same⟩

/-- The predecessors lead back over a walk. -/
theorem Walk.back (walk : Walk next first nodes last)
    (matched : ∀ node ∈ first :: nodes, prev (next node) = node) :
    Walk prev last nodes.reverse first := by
  induction nodes generalizing first with
  | nil =>
    have ends : next first = last := walk
    exact ends ▸ matched first List.mem_cons_self
  | cons head rest ih =>
    obtain ⟨begins, walk⟩ := walk
    rw [List.reverse_cons, walk_append]
    refine ⟨ih walk fun node member => matched node (List.mem_cons_of_mem _ member), ?_⟩
    exact begins ▸ matched first List.mem_cons_self

theorem walk_iterate (count : Nat) :
    Walk next first (List.iterate next (next first) count) (next^[count + 1] first) := by
  induction count generalizing first with
  | zero => rfl
  | succ count ih => exact ⟨rfl, ih⟩

end Walks

namespace Links
variable {links : Links Node} {a b c : Node} {nodes others more : List Node}

/-- The predecessor of a node's successor is the node, and the other way round. -/
def WellFormed (links : Links Node) : Prop :=
  ∀ node, links.prev (links.next node) = node ∧ links.next (links.prev node) = node

/-- The links of every node match. -/
theorem WellFormed.matched (formed : links.WellFormed) (nodes : List Node) :
    ∀ node ∈ nodes, links.prev (links.next node) = node :=
  fun node _ => (formed node).1

theorem WellFormed.next_injective (formed : links.WellFormed) : Injective links.next :=
  LeftInverse.injective fun node => (formed node).1

/-- Following `next` from `a` visits exactly the nodes of the list, in its order
and each once, and returns to `a`. -/
def Ring (links : Links Node) (a : Node) (nodes : List Node) : Prop :=
  Walk links.next a nodes a ∧ (a :: nodes).Nodup

namespace Ring

theorem absent (ring : links.Ring a nodes) : a ∉ nodes :=
  (List.nodup_cons.mp ring.2).1

theorem nodup (ring : links.Ring a nodes) : nodes.Nodup :=
  (List.nodup_cons.mp ring.2).2

/-- A node determines its ring. -/
theorem unique (ring : links.Ring a nodes) (other : links.Ring a others) : nodes = others :=
  ring.1.unique ring.absent other.1 other.absent

theorem nil_iff : links.Ring a [] ↔ links.next a = a := by
  simp [Ring, Walk]

/-- The same ring from another of its nodes. -/
theorem rotate (ring : links.Ring a (nodes ++ b :: others)) :
    links.Ring b (others ++ a :: nodes) := by
  obtain ⟨walk, once⟩ := ring
  obtain ⟨before, after⟩ := walk_append.mp walk
  have turned : ((a :: nodes) ++ b :: others).Perm ((b :: others) ++ a :: nodes) :=
    List.perm_append_comm
  exact ⟨walk_append.mpr ⟨after, before⟩, turned.nodup once⟩

/-- A ring can be entered at each of its nodes. -/
theorem enter (ring : links.Ring a nodes) (member : b ∈ a :: nodes) :
    ∃ rest, links.Ring b rest ∧ ∀ node, node ∈ b :: rest ↔ node ∈ a :: nodes := by
  rcases List.mem_cons.mp member with rfl | inside
  · exact ⟨nodes, ring, fun node => Iff.rfl⟩
  · obtain ⟨before, after, rfl⟩ := List.append_of_mem inside
    refine ⟨after ++ a :: before, ring.rotate, fun node => ?_⟩
    simp only [List.mem_cons, List.mem_append]
    tauto

/-- Rings that share a node are the same ring. -/
theorem meet (ring : links.Ring a nodes) (other : links.Ring b others) (here : c ∈ a :: nodes)
    (there : c ∈ b :: others) : b ∈ a :: nodes := by
  obtain ⟨rest, entered, same⟩ := ring.enter here
  obtain ⟨rest', entered', same'⟩ := other.enter there
  obtain rfl := entered.unique entered'
  exact (same b).mp ((same' b).mpr List.mem_cons_self)

theorem disjoint (ring : links.Ring a nodes) (other : links.Ring b others)
    (apart : b ∉ a :: nodes) : (a :: nodes).Disjoint (b :: others) :=
  fun _ here there => apart (ring.meet other here there)

theorem next_head (ring : links.Ring a (b :: nodes)) : links.next a = b :=
  ring.1.1

theorem next_last (ring : links.Ring a (nodes ++ [b])) : links.next b = a :=
  (walk_append.mp ring.1).2

theorem next_mem (ring : links.Ring a nodes) (member : b ∈ a :: nodes) :
    links.next b ∈ a :: nodes := by
  obtain ⟨rest, entered, same⟩ := ring.enter member
  apply (same _).mp
  cases rest with
  | nil => exact List.mem_cons.mpr (.inl (nil_iff.mp entered))
  | cons node rest => simp [entered.next_head]

theorem prev_self (ring : links.Ring a []) (matched : links.prev (links.next a) = a) :
    links.prev a = a := by
  rwa [nil_iff.mp ring] at matched

theorem prev_last (ring : links.Ring a (nodes ++ [b])) (matched : links.prev (links.next b) = b) :
    links.prev a = b := by
  rwa [ring.next_last] at matched

/-- The predecessor of a node is on its ring. -/
theorem prev_mem (ring : links.Ring a nodes)
    (matched : ∀ node ∈ a :: nodes, links.prev (links.next node) = node) (member : b ∈ a :: nodes) :
    links.prev b ∈ a :: nodes := by
  obtain ⟨rest, entered, same⟩ := ring.enter member
  apply (same _).mp
  rcases rest.eq_nil_or_concat' with rfl | ⟨before, tail, rfl⟩
  · simp [entered.prev_self (matched b member)]
  · have onRing : tail ∈ a :: nodes := (same tail).mp (by simp)
    simp [entered.prev_last (matched tail onRing)]

end Ring

/-- Among finitely many nodes with matching links, every node is on a ring. -/
theorem WellFormed.exists_ring [Finite Node] (formed : links.WellFormed) (a : Node) :
    ∃ nodes, links.Ring a nodes := by
  have periodic := formed.next_injective.mem_periodicPts a
  obtain ⟨count, period⟩ :=
    Nat.exists_eq_add_one_of_ne_zero (minimalPeriod_pos_of_mem_periodicPts periodic).ne'
  have closed : links.next^[minimalPeriod links.next a] a = a := iterate_minimalPeriod
  have walk : Walk links.next a (List.iterate links.next (links.next a) count)
      (links.next^[count + 1] a) := walk_iterate count
  rw [← period, closed] at walk
  have once : (List.iterate links.next a (count + 1)).Nodup := by
    rw [← List.range_map_iterate]
    refine List.nodup_range.map_on fun i inI j inJ same => ?_
    rw [List.mem_range, ← period] at inI inJ
    exact iterate_injOn_Iio_minimalPeriod inI inJ same
  exact ⟨_, walk, once⟩

/-- Two entries of a link field trade places. -/
def exchange [DecidableEq Node] (field : Node → Node) (p q : Node) : Node → Node :=
  update (update field p (field q)) q (field p)

/-- The successors of `a` and `b` trade places. -/
def splice [DecidableEq Node] (links : Links Node) (a b : Node) : Links Node where
  prev := exchange links.prev (links.next a) (links.next b)
  next := exchange links.next a b

section Splice
variable [DecidableEq Node]

theorem exchange_eq_swap (field : Node → Node) (p q : Node) :
    exchange field p q = field ∘ Equiv.swap p q := by
  rw [Equiv.swap_comm, Equiv.comp_swap_eq_update, exchange]

theorem splice_self (links : Links Node) (a : Node) : links.splice a a = links := by
  simp [splice, exchange_eq_swap]

theorem splice_comm (links : Links Node) (a b : Node) : links.splice b a = links.splice a b := by
  simp [splice, exchange_eq_swap, Equiv.swap_comm]

/-- The exchange undoes itself. -/
theorem splice_splice (links : Links Node) (a b : Node) :
    (links.splice a b).splice a b = links := by
  have undone : ∀ p q : Node, Equiv.swap p q ∘ Equiv.swap p q = id := fun p q =>
    funext (Equiv.swap_apply_self p q)
  simp [splice, exchange_eq_swap, comp_assoc, Equiv.swap_comm, undone]

theorem splice_next_left (links : Links Node) (a b : Node) :
    (links.splice a b).next a = links.next b := by
  simp [splice, exchange_eq_swap]

theorem splice_next_right (links : Links Node) (a b : Node) :
    (links.splice a b).next b = links.next a := by
  simp [splice, exchange_eq_swap]

theorem splice_next_other (links : Links Node) (notA : c ≠ a) (notB : c ≠ b) :
    (links.splice a b).next c = links.next c := by
  simp [splice, exchange_eq_swap, Equiv.swap_apply_of_ne_of_ne notA notB]

theorem splice_prev_other (links : Links Node) (notA : c ≠ links.next a) (notB : c ≠ links.next b) :
    (links.splice a b).prev c = links.prev c := by
  simp [splice, exchange_eq_swap, Equiv.swap_apply_of_ne_of_ne notA notB]

/-- After the exchange, what followed `b` follows `a`. -/
theorem splice_walk_left {last : Node} (walk : Walk links.next b nodes last) (notA : a ∉ nodes)
    (notB : b ∉ nodes) : Walk (links.splice a b).next a nodes last := by
  apply walk.redirect (splice_next_left links a b)
  intro node member
  exact splice_next_other links (ne_of_mem_of_not_mem member notA)
    (ne_of_mem_of_not_mem member notB)

/-- After the exchange, what followed `a` follows `b`. -/
theorem splice_walk_right {last : Node} (walk : Walk links.next a nodes last) (notA : a ∉ nodes)
    (notB : b ∉ nodes) : Walk (links.splice a b).next b nodes last := by
  apply walk.redirect (splice_next_right links a b)
  intro node member
  exact splice_next_other links (ne_of_mem_of_not_mem member notA)
    (ne_of_mem_of_not_mem member notB)

/-- Exchanging two successors whose links match keeps every match. -/
theorem splice_matched {node : Node} (first : links.prev (links.next a) = a)
    (second : links.prev (links.next b) = b) (third : links.prev (links.next node) = node) :
    (links.splice a b).prev ((links.splice a b).next node) = node := by
  simp only [splice, exchange_eq_swap, comp_apply]
  by_cases isA : node = a
  · rw [isA, Equiv.swap_apply_left, Equiv.swap_apply_right, first]
  by_cases isB : node = b
  · rw [isB, Equiv.swap_apply_right, Equiv.swap_apply_left, second]
  rw [Equiv.swap_apply_of_ne_of_ne isA isB, Equiv.swap_apply_of_ne_of_ne, third]
  · exact fun same => isA (by rw [← third, same, first])
  · exact fun same => isB (by rw [← third, same, second])

/-- On well-formed links, exchanging two successors is one transposition of the
permutation `next`, so the predecessors stay its inverse. -/
theorem WellFormed.splice (formed : links.WellFormed) (a b : Node) :
    (links.splice a b).WellFormed := by
  have through : ∀ node, links.next (Equiv.swap a b node) =
      Equiv.swap (links.next a) (links.next b) (links.next node) := fun node =>
    (formed.next_injective.swap_apply a b node).symm
  intro node
  simp only [Links.splice, exchange_eq_swap, comp_apply]
  constructor
  · rw [through, Equiv.swap_apply_self, (formed node).1]
  · rw [through, (formed _).2, Equiv.swap_apply_self]

namespace Ring

/-- Rings without the two nodes are left alone. -/
theorem splice_other (ring : links.Ring c nodes) (notA : a ∉ c :: nodes) (notB : b ∉ c :: nodes) :
    (links.splice a b).Ring c nodes := by
  refine ⟨ring.1.congr fun node member => ?_, ring.2⟩
  exact splice_next_other links (ne_of_mem_of_not_mem member notA)
    (ne_of_mem_of_not_mem member notB)

/-- Two nodes of one ring are cut into two rings. -/
theorem splice_cut (ring : links.Ring a (nodes ++ b :: others)) :
    (links.splice a b).Ring a others ∧ (links.splice a b).Ring b nodes := by
  obtain ⟨before, after⟩ := walk_append.mp ring.1
  obtain ⟨first, second, apart⟩ :=
    List.nodup_append'.mp (show ((a :: nodes) ++ b :: others).Nodup from ring.2)
  obtain ⟨notA, onceA⟩ := List.nodup_cons.mp first
  obtain ⟨notB, onceB⟩ := List.nodup_cons.mp second
  have aElsewhere : a ∉ others := fun member =>
    apart List.mem_cons_self (List.mem_cons_of_mem _ member)
  have bElsewhere : b ∉ nodes := fun member =>
    apart (List.mem_cons_of_mem _ member) List.mem_cons_self
  refine ⟨⟨splice_walk_left after aElsewhere notB, ?_⟩, splice_walk_right before notA bElsewhere, ?_⟩
  · exact List.nodup_cons.mpr ⟨aElsewhere, onceB⟩
  · exact List.nodup_cons.mpr ⟨bElsewhere, onceA⟩

/-- Two rings are joined into one: after `a` come the nodes that followed `b`. -/
theorem splice_join (ring : links.Ring a nodes) (other : links.Ring b others)
    (apart : b ∉ a :: nodes) : (links.splice a b).Ring a (others ++ b :: nodes) := by
  have disjoint := ring.disjoint other apart
  have aElsewhere : a ∉ others := fun member =>
    disjoint List.mem_cons_self (List.mem_cons_of_mem _ member)
  have bElsewhere : b ∉ nodes := fun member => apart (List.mem_cons_of_mem _ member)
  refine ⟨walk_append.mpr ⟨?_, ?_⟩, ?_⟩
  · exact splice_walk_left other.1 aElsewhere other.absent
  · exact splice_walk_right ring.1 ring.absent bElsewhere
  · have once : ((a :: nodes) ++ (b :: others)).Nodup :=
      List.nodup_append'.mpr ⟨ring.2, other.2, disjoint⟩
    have turned : (nodes ++ b :: others).Perm ((b :: others) ++ nodes) := List.perm_append_comm
    exact ((turned.trans List.perm_middle.symm).cons a).nodup once

/-- A ring is put at the end of another one. -/
theorem splice_tail (ring : links.Ring a nodes)
    (matched : ∀ node ∈ a :: nodes, links.prev (links.next node) = node)
    (other : links.Ring b others) (apart : b ∉ a :: nodes) :
    (links.splice (links.prev a) b).Ring a (nodes ++ (others ++ [b])) := by
  rcases nodes.eq_nil_or_concat' with rfl | ⟨before, tail, rfl⟩
  · rw [ring.prev_self (matched a (by simp))]
    exact ring.splice_join other apart
  · rw [ring.prev_last (matched tail (by simp))]
    have turned := ring.rotate.splice_join other (by simpa [or_comm, or_left_comm] using apart)
    rw [← List.singleton_append, ← List.append_assoc] at turned
    simpa using turned.rotate

/-- A node is cut out of its ring by its own and its predecessor's successors. -/
theorem splice_out (ring : links.Ring a (nodes ++ b :: others))
    (matched : ∀ node ∈ a :: (nodes ++ b :: others), links.prev (links.next node) = node) :
    (links.splice b (links.prev b)).Ring a (nodes ++ others) ∧
      (links.splice b (links.prev b)).Ring b [] := by
  have turned := ring.rotate
  rcases nodes.eq_nil_or_concat' with rfl | ⟨before, tail, rfl⟩
  · rw [turned.prev_last (matched a (by simp))]
    exact ⟨turned.splice_cut.2, turned.splice_cut.1⟩
  · have whole : others ++ a :: (before ++ [tail]) = (others ++ a :: before) ++ tail :: [] := by simp
    rw [whole] at turned
    rw [turned.prev_last (matched tail (by simp))]
    obtain ⟨single, rest⟩ := turned.splice_cut
    exact ⟨by simpa using rest.rotate, single⟩

/-- Exchanges at nodes of two rings leave every third ring alone. -/
theorem splice_apart {p q : Node} {ringNodes : List Node} (ring : links.Ring c ringNodes)
    (first : links.Ring a nodes) (second : links.Ring b others) (onFirst : p ∈ a :: nodes)
    (onSecond : q ∈ b :: others) (notFirst : a ∉ c :: ringNodes) (notSecond : b ∉ c :: ringNodes) :
    (links.splice p q).Ring c ringNodes :=
  ring.splice_other (ring.disjoint first notFirst · onFirst)
    (ring.disjoint second notSecond · onSecond)

end Ring

/-- A ring where the predecessor of every node's successor is the node. -/
structure Linked (links : Links Node) (a : Node) (nodes : List Node) : Prop where
  ring : links.Ring a nodes
  matched : ∀ node ∈ a :: nodes, links.prev (links.next node) = node

namespace Linked

omit [DecidableEq Node] in
/-- A node with what comes before it, taken from the end of a part of the ring. -/
theorem walk_rest (linked : links.Linked a (nodes ++ others)) :
    Walk links.next (nodes.getLastD a) others a := by
  rcases nodes.eq_nil_or_concat' with rfl | ⟨before, tail, rfl⟩
  · exact linked.ring.1
  · have walk := linked.ring.1
    rw [List.append_assoc] at walk
    rw [List.getLastD_concat]
    exact (walk_append.mp walk).2

omit [DecidableEq Node] in
theorem prev_mem (linked : links.Linked a nodes) (member : b ∈ a :: nodes) :
    links.prev b ∈ a :: nodes :=
  linked.ring.prev_mem linked.matched member

omit [DecidableEq Node] in
theorem enter (linked : links.Linked a nodes) (member : b ∈ a :: nodes) :
    ∃ rest, links.Linked b rest ∧ ∀ node, node ∈ b :: rest ↔ node ∈ a :: nodes := by
  obtain ⟨rest, entered, same⟩ := linked.ring.enter member
  exact ⟨rest, ⟨entered, fun node here => linked.matched node ((same node).mp here)⟩, same⟩

omit [DecidableEq Node] in
/-- On a ring the successor of a node's predecessor is the node, too. -/
theorem next_prev (linked : links.Linked a nodes) (member : b ∈ a :: nodes) :
    links.next (links.prev b) = b := by
  obtain ⟨rest, entered, -⟩ := linked.enter member
  rcases rest.eq_nil_or_concat' with rfl | ⟨before, tail, rfl⟩
  · rw [entered.ring.prev_self (entered.matched b (by simp))]
    exact Ring.nil_iff.mp entered.ring
  · rw [entered.ring.prev_last (entered.matched tail (by simp))]
    exact entered.ring.next_last

/-- A node is cut out, and is a ring of its own. -/
theorem splice_out (linked : links.Linked a (nodes ++ b :: others)) :
    (links.splice b (links.prev b)).Linked a (nodes ++ others) ∧
      (links.splice b (links.prev b)).Linked b [] := by
  have here : b ∈ a :: (nodes ++ b :: others) := by simp
  have first := linked.matched b here
  have second := linked.matched (links.prev b) (linked.prev_mem here)
  obtain ⟨rest, single⟩ := linked.ring.splice_out linked.matched
  refine ⟨⟨rest, fun node member => ?_⟩, ⟨single, fun node member => ?_⟩⟩
  · refine splice_matched first second (linked.matched node ?_)
    simp only [List.mem_cons, List.mem_append] at member ⊢
    tauto
  · obtain rfl := List.mem_singleton.mp member
    exact splice_matched first second first

/-- A ring is put at the end of another one, and its links match too. -/
theorem splice_tail (linked : links.Linked a nodes) (other : links.Linked b others)
    (apart : b ∉ a :: nodes) :
    (links.splice (links.prev a) b).Linked a (nodes ++ (others ++ [b])) := by
  have first := linked.matched (links.prev a) (linked.prev_mem List.mem_cons_self)
  have second := other.matched b List.mem_cons_self
  refine ⟨linked.ring.splice_tail linked.matched other.ring apart, fun node member => ?_⟩
  have known : node ∈ a :: nodes ∨ node ∈ b :: others := by
    simp only [List.mem_cons, List.mem_append, List.not_mem_nil, or_false] at member ⊢
    tauto
  rcases known with mine | added
  · exact splice_matched first second (linked.matched node mine)
  · exact splice_matched first second (other.matched node added)

/-- Exchanges at nodes of two rings leave a third one alone. -/
theorem splice_apart {p q : Node} {ringNodes : List Node} (linked : links.Linked c ringNodes)
    (first : links.Linked a nodes) (second : links.Linked b others) (onFirst : p ∈ a :: nodes)
    (onSecond : q ∈ b :: others) (notFirst : a ∉ c :: ringNodes) (notSecond : b ∉ c :: ringNodes) :
    (links.splice p q).Linked c ringNodes := by
  refine ⟨linked.ring.splice_apart first.ring second.ring onFirst onSecond notFirst notSecond,
    fun node member => ?_⟩
  exact splice_matched (first.matched p onFirst) (second.matched q onSecond)
    (linked.matched node member)

/-- They leave the links of every node outside the two rings alone. -/
theorem splice_outside {p q : Node} (first : links.Linked a nodes) (second : links.Linked b others)
    (onFirst : p ∈ a :: nodes) (onSecond : q ∈ b :: others) (notFirst : c ∉ a :: nodes)
    (notSecond : c ∉ b :: others) :
    (links.splice p q).next c = links.next c ∧ (links.splice p q).prev c = links.prev c :=
  ⟨splice_next_other links (ne_of_mem_of_not_mem onFirst notFirst).symm
      (ne_of_mem_of_not_mem onSecond notSecond).symm,
    splice_prev_other links (ne_of_mem_of_not_mem (first.ring.next_mem onFirst) notFirst).symm
      (ne_of_mem_of_not_mem (second.ring.next_mem onSecond) notSecond).symm⟩

end Linked
end Splice

section Turn
variable [DecidableEq Node]

/-- The two links of some nodes trade places. -/
def turn (links : Links Node) (nodes : List Node) : Links Node where
  next node := if node ∈ nodes then links.prev node else links.next node
  prev node := if node ∈ nodes then links.next node else links.prev node

theorem turn_turn (same : ∀ node, node ∈ others ↔ node ∈ nodes) :
    (links.turn nodes).turn others = links := by
  simp only [turn, same]
  congr <;> funext node <;> split <;> rfl

/-- A ring whose nodes are all turned is the ring in the other direction. -/
theorem Linked.turned (linked : links.Linked a nodes) :
    (links.turn (a :: nodes)).Linked a nodes.reverse := by
  have same : ∀ node, node ∈ a :: nodes.reverse ↔ node ∈ a :: nodes := by simp
  refine ⟨⟨?_, ?_⟩, fun node member => ?_⟩
  · refine (linked.ring.1.back linked.matched).congr fun node member => ?_
    exact if_pos ((same node).mp member)
  · exact ((List.reverse_perm nodes).cons a).nodup_iff.mpr linked.ring.2
  · have here := (same node).mp member
    simp only [turn, here, linked.prev_mem here, if_true]
    exact linked.next_prev here

end Turn
end Links
end TinyOs.Library
