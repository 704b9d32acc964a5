import TinyOs.IntrusiveList

/-! `rlist_reverse`, which exchanges the two pointers of every node of a ring and
follows the pointers it has just exchanged. -/
namespace TinyOs.IntrusiveList
open Library

variable {Node Key : Type*} [DecidableEq Node]

/-- `rlnode_swap(& p->prev, & p->next)`. -/
def Heap.swapLinks (h : Heap Node Key) (p : Node) : Heap Node Key :=
  { h with
    prev := Function.update h.prev p (h.next p)
    next := Function.update h.next p (h.prev p) }

/-- The loop of `rlist_reverse`, with the nodes it visited. -/
def rlistReverseLoop (l : Node) : Nat → Heap Node Key → Node → List Node →
    Option (Heap Node Key × List Node)
  | 0, _, _, _ => none
  | fuel + 1, h, p, visited =>
    let h := h.swapLinks p
    let visited := visited ++ [p]
    let p := h.next p
    if p ≠ l then rlistReverseLoop l fuel h p visited else some (h, visited)

def rlistReverse (fuel : Nat) (h : Heap Node Key) (l : Node) :
    Option (Heap Node Key × List Node) :=
  rlistReverseLoop l fuel h l []

/-- The heap in which the given nodes have been swapped. -/
def Heap.turn (h : Heap Node Key) (nodes : List Node) : Heap Node Key :=
  ⟨h.toLinks.turn nodes, h.key⟩

/-- What `rlist_reverse` does to a ring: it runs in the other direction, and
nothing else has changed. -/
structure Reverses (h h' : Heap Node Key) (l : Node) (nodes : List Node) : Prop where
  ring : h'.Linked l nodes.reverse
  exchanged : ∀ node ∈ l :: nodes, h'.next node = h.prev node ∧ h'.prev node = h.next node
  outside : ∀ node ∉ l :: nodes, h'.next node = h.next node ∧ h'.prev node = h.prev node
  keys : h'.key = h.key

section
variable {h h' : Heap Node Key} {a c l p : Node} {nodes others rest visited : List Node}

@[simp] theorem turn_nil (h : Heap Node Key) : h.turn [] = h := by
  simp [Heap.turn, Links.turn]

theorem swapLinks_turn (absent : p ∉ nodes) : (h.swapLinks p).turn nodes = h.turn (p :: nodes) := by
  unfold Heap.turn Heap.swapLinks Links.turn
  congr 2
  all_goals
    funext node
    by_cases here : node = p
    · simp [here, absent]
    · simp [here]

/-- **The loop.** At the node `p` the nodes of the rest have their old pointers,
and the way to the start leads over the old `prev` pointers. -/
theorem rlistReverseLoop_eq (walk : Walk h.prev p rest l) (absent : l ∉ rest)
    (once : (p :: rest).Nodup) {fuel : Nat} (enough : rest.length < fuel) :
    rlistReverseLoop l fuel h p visited = some (h.turn (p :: rest), visited ++ p :: rest) := by
  have next : (h.swapLinks p).next p = h.prev p := Function.update_self ..
  induction rest generalizing h p visited fuel with
  | nil =>
    obtain ⟨fuel, rfl⟩ := Nat.exists_eq_add_of_lt enough
    have back : h.prev p = l := walk
    have turned : (h.swapLinks p).turn [] = h.turn [p] := swapLinks_turn List.not_mem_nil
    rw [turn_nil] at turned
    rw [← turned]
    simp [rlistReverseLoop, next, back]
  | cons q rest ih =>
    obtain ⟨begins, tail⟩ := walk
    obtain ⟨notRest, once⟩ := List.nodup_cons.mp once
    have elsewhere : q ≠ l := (List.ne_of_not_mem_cons absent).symm
    have untouched : Walk (h.swapLinks p).prev q rest l := by
      refine tail.congr fun node member => ?_
      exact Function.update_of_ne (ne_of_mem_of_not_mem member notRest) ..
    cases fuel with
    | zero => exact absurd enough (Nat.not_lt_zero _)
    | succ fuel =>
      simp only [rlistReverseLoop, next, begins, ne_eq, elsewhere, not_false_eq_true, if_true]
      rw [ih untouched (List.not_mem_of_not_mem_cons absent) once (Nat.lt_of_succ_lt_succ enough)
        (Function.update_self ..), swapLinks_turn notRest, List.append_assoc, List.singleton_append]

/-- The whole call: it goes round the ring backwards. -/
theorem rlistReverse_eq (linked : h.Linked l nodes) {fuel : Nat} (enough : nodes.length < fuel) :
    rlistReverse fuel h l = some (h.turn (l :: nodes), l :: nodes.reverse) := by
  have back := linked.ring.1.back linked.matched
  have absent : l ∉ nodes.reverse := by simpa using linked.ring.absent
  have once : (l :: nodes.reverse).Nodup := linked.turned.ring.2
  have same : ∀ node, node ∈ l :: nodes.reverse ↔ node ∈ l :: nodes := by simp
  rw [rlistReverse, rlistReverseLoop_eq back absent once (by simpa using enough)]
  simp only [Heap.turn, Links.turn, same, List.nil_append]

theorem turn_reverses (linked : h.Linked l nodes) : Reverses h (h.turn (l :: nodes)) l nodes where
  ring := linked.turned
  exchanged _ member := ⟨if_pos member, if_pos member⟩
  outside _ absent := ⟨if_neg absent, if_neg absent⟩
  keys := rfl

omit [DecidableEq Node] in
/-- The other rings are as before. -/
theorem Reverses.other (reverses : Reverses h h' l nodes) (linked : h.Linked l nodes)
    (other : h.Linked c others) (apart : c ∉ l :: nodes) : h'.Linked c others := by
  have disjoint := linked.ring.disjoint other.ring apart
  have outside : ∀ node ∈ c :: others, h'.next node = h.next node ∧ h'.prev node = h.prev node :=
    fun node member => reverses.outside node fun here => disjoint here member
  refine ⟨⟨other.ring.1.congr fun node member => (outside node member).1, other.ring.2⟩, ?_⟩
  intro node member
  rw [(outside node member).1, (outside _ (other.ring.next_mem member)).2]
  exact other.matched node member

/-- **`rlist_reverse` ends and reverses.** From any node of a well-formed ring it
visits each node once and stops. The ring then runs in the other direction, the
other rings are as before, and a second call restores the heap. -/
theorem reverse_reverses (ring : h.Linked a nodes) (member : l ∈ a :: nodes) :
    ∃ rest h', h.Linked l rest ∧ (l :: rest).Perm (a :: nodes) ∧
      (∀ fuel > rest.length, rlistReverse fuel h l = some (h', l :: rest.reverse)) ∧
      Reverses h h' l rest ∧
      (∀ c others, h.Linked c others → c ∉ a :: nodes → h'.Linked c others) ∧
      ∀ fuel > rest.length, rlistReverse fuel h' l = some (h, l :: rest) := by
  obtain ⟨rest, linked, same⟩ := ring.enter member
  have reverses := turn_reverses linked
  refine ⟨rest, h.turn (l :: rest), linked, ?_, fun fuel enough => rlistReverse_eq linked enough,
    reverses, fun c others other apart => ?_, fun fuel enough => ?_⟩
  · exact (List.perm_ext_iff_of_nodup linked.ring.2 ring.ring.2).mpr same
  · exact reverses.other linked other (mt (same c).mp apart)
  · have again := rlistReverse_eq reverses.ring (by simpa using enough)
    have restored : (h.turn (l :: rest)).turn (l :: rest.reverse) = h :=
      congrArg (fun links => Heap.mk links h.key) (Links.turn_turn (by simp))
    rw [restored, List.reverse_reverse] at again
    exact again

/-- A list of two nodes, reversed at its second node. -/
theorem reverse_reverses_second : ∃ rest h', (2 :: rest).Perm [0, 1, 2] ∧
    Reverses twoNodes h' 2 rest ∧ rlistReverse 3 h' 2 = some (twoNodes, 2 :: rest) := by
  obtain ⟨formed, ring⟩ := twoNodes_rings
  obtain ⟨rest, h', -, same, -, reverses, -, again⟩ :=
    reverse_reverses ⟨ring, formed.matched _⟩ (by simp : (2 : Fin 4) ∈ [0, 1, 2])
  have length : rest.length = 2 := by simpa using same.length_eq
  exact ⟨rest, h', same, reverses, again 3 (by omega)⟩

end
end TinyOs.IntrusiveList
