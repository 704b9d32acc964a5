import TinyOs.IntrusiveList

/-! `rlist_select`, which moves the nodes of a list that satisfy a predicate to
the end of another list. -/
namespace TinyOs.IntrusiveList
open Library

variable {Node Key : Type*} [DecidableEq Node]

/-- A predicate on nodes, which reads what is stored in them. As in C, a result
other than zero is true. -/
abbrev Pred (Node Key : Type*) := (Node → Key) → Node → Int

/-- The loop of `rlist_select`, at its cursor `I`, with the nodes the predicate
was evaluated for. -/
def rlistSelectLoop (Lsrc Ldest : Node) (pred : Pred Node Key) :
    Nat → Heap Node Key → Node → List Node → Option (Heap Node Key × List Node)
  | 0, _, _, _ => none
  | fuel + 1, h, I, evaluated =>
    if h.next I = Lsrc then some (h, evaluated)
    else
      let evaluated := evaluated ++ [h.next I]
      if pred h.key (h.next I) ≠ 0 then
        let (h, p) := rlistRemove h (h.next I)
        rlistSelectLoop Lsrc Ldest pred fuel (rlistPushBack h Ldest p) I evaluated
      else rlistSelectLoop Lsrc Ldest pred fuel h (h.next I) evaluated

def rlistSelect (fuel : Nat) (h : Heap Node Key) (Lsrc Ldest : Node) (pred : Pred Node Key) :
    Option (Heap Node Key × List Node) :=
  rlistSelectLoop Lsrc Ldest pred fuel h Lsrc []

/-- The two lists of a selection: disjoint, and well formed with these nodes. -/
structure TwoLists (h : Heap Node Key) (Lsrc Ldest : Node) (src dest : List Node) : Prop where
  apart : Ldest ∉ Lsrc :: src
  src : h.Linked Lsrc src
  dest : h.Linked Ldest dest

/-- The node at the cursor, which is the last one that was passed over. -/
def cursor (Lsrc : Node) (passed : List Node) : Node := passed.getLastD Lsrc

section
variable {h h' : Heap Node Key} {Lsrc Ldest node other : Node}
  {src dest passed rest evaluated : List Node} {pred : Pred Node Key}

omit [DecidableEq Node] in
theorem TwoLists.disjoint (lists : TwoLists h Lsrc Ldest src dest) :
    (Lsrc :: src).Disjoint (Ldest :: dest) :=
  lists.src.ring.disjoint lists.dest.ring lists.apart

/-- A node is taken out of one list. -/
theorem TwoLists.remove (lists : TwoLists h Lsrc Ldest (passed ++ node :: rest) dest) :
    TwoLists (rlistRemove h node).1 Lsrc Ldest (passed ++ rest) dest ∧
      (rlistRemove h node).1.Linked node [] := by
  have here : node ∈ Lsrc :: (passed ++ node :: rest) := by simp
  have apart' : Lsrc ∉ Ldest :: dest := lists.disjoint List.mem_cons_self
  have apart : Ldest ∉ Lsrc :: (passed ++ rest) := by
    have apart := lists.apart
    simp only [List.mem_cons, List.mem_append] at apart ⊢
    tauto
  obtain ⟨left, single⟩ := lists.src.splice_out
  refine ⟨⟨apart, left, ?_⟩, single⟩
  exact lists.dest.splice_apart lists.src lists.src here (lists.src.prev_mem here) apart' apart'

/-- A node by itself is put at the end of the other list. -/
theorem TwoLists.push (lists : TwoLists h Lsrc Ldest src dest) (single : h.Linked node [])
    (notSrc : node ∉ Lsrc :: src) (notDest : node ∉ Ldest :: dest) :
    TwoLists (rlistPushBack h Ldest node) Lsrc Ldest src (dest ++ [node]) := by
  have pushed := lists.dest.splice_tail single notDest
  refine ⟨lists.apart, ?_, pushed⟩
  exact lists.src.splice_apart lists.dest single (lists.dest.prev_mem List.mem_cons_self)
    List.mem_cons_self lists.apart notSrc

/-- What one round does that moves a node: it leaves the one list for the end of
the other, and the nodes outside both lists keep their links. -/
theorem TwoLists.move (lists : TwoLists h Lsrc Ldest (passed ++ node :: rest) dest) :
    TwoLists (rlistPushBack (rlistRemove h node).1 Ldest node) Lsrc Ldest (passed ++ rest)
      (dest ++ [node]) ∧
    ∀ other, other ∉ Lsrc :: (passed ++ node :: rest) → other ∉ Ldest :: dest →
      (rlistPushBack (rlistRemove h node).1 Ldest node).next other = h.next other ∧
        (rlistPushBack (rlistRemove h node).1 Ldest node).prev other = h.prev other := by
  have here : node ∈ Lsrc :: (passed ++ node :: rest) := by simp
  have once : ((Lsrc :: passed) ++ node :: rest).Nodup := lists.src.ring.2
  have notSrc : node ∉ Lsrc :: (passed ++ rest) :=
    (List.nodup_cons.mp (List.nodup_middle.mp once)).1
  have notDest : node ∉ Ldest :: dest := fun member => lists.disjoint here member
  obtain ⟨removed, single⟩ := lists.remove
  refine ⟨removed.push single notSrc notDest, fun other outside outside' => ?_⟩
  have different : other ∉ [node] := by
    rw [List.mem_singleton]
    rintro rfl
    exact outside here
  obtain ⟨next, prev⟩ := lists.src.splice_outside lists.src here (lists.src.prev_mem here) outside
    outside
  obtain ⟨next', prev'⟩ := removed.dest.splice_outside single
    (removed.dest.prev_mem List.mem_cons_self) List.mem_cons_self outside' different
  exact ⟨next'.trans next, prev'.trans prev⟩

/-- **The loop.** With the nodes that were passed over behind the cursor, the
rest is divided: its nodes that fail the predicate stay, the others go to the
end of the destination. -/
theorem rlistSelectLoop_eq (lists : TwoLists h Lsrc Ldest (passed ++ rest) dest) {fuel : Nat}
    (enough : rest.length < fuel) :
    ∃ h', rlistSelectLoop Lsrc Ldest pred fuel h (cursor Lsrc passed) evaluated =
        some (h', evaluated ++ rest) ∧ h'.key = h.key ∧
      TwoLists h' Lsrc Ldest (passed ++ rest.filter fun node => pred h.key node = 0)
        (dest ++ rest.filter fun node => pred h.key node ≠ 0) ∧
      ∀ other, other ∉ Lsrc :: (passed ++ rest) → other ∉ Ldest :: dest →
        h'.next other = h.next other ∧ h'.prev other = h.prev other := by
  have walk : Walk h.next (cursor Lsrc passed) rest Lsrc := lists.src.walk_rest
  induction rest generalizing h passed dest evaluated fuel with
  | nil =>
    obtain ⟨fuel, rfl⟩ := Nat.exists_eq_add_of_lt enough
    have done : h.next (cursor Lsrc passed) = Lsrc := walk
    refine ⟨h, ?_, rfl, by simpa using lists, fun _ _ _ => ⟨rfl, rfl⟩⟩
    simp [rlistSelectLoop, done]
  | cons node rest ih =>
    obtain ⟨begins, tail⟩ := walk
    have elsewhere : node ≠ Lsrc := fun same => lists.src.ring.absent (by simp [same])
    rw [List.length_cons] at enough
    cases fuel with
    | zero => omega
    | succ fuel =>
      simp only [rlistSelectLoop, begins, elsewhere, if_false]
      by_cases satisfies : pred h.key node = 0
      · have stays : TwoLists h Lsrc Ldest ((passed ++ [node]) ++ rest) dest := by
          simpa using lists
        have next : cursor Lsrc (passed ++ [node]) = node := List.getLastD_concat ..
        have less : rest.length < fuel := by omega
        obtain ⟨h', ran, key, divided, outside⟩ := ih stays less stays.src.walk_rest
        rw [next] at ran
        rw [if_neg (not_not.mpr satisfies), ran]
        refine ⟨h', by simp, key, ?_, fun other => ?_⟩
        · simpa [satisfies] using divided
        · simpa using outside other
      · obtain ⟨moved, kept⟩ := lists.move
        have same : (rlistPushBack (rlistRemove h node).1 Ldest node).key = h.key := rfl
        have less : rest.length < fuel := by omega
        obtain ⟨h', ran, key, divided, outside⟩ := ih moved less moved.src.walk_rest
        rw [same] at divided
        rw [if_pos satisfies]
        refine ⟨h', ?_, key, ?_, fun other notSrc notDest => ?_⟩
        · exact ran.trans (by simp)
        · simpa [satisfies] using divided
        · obtain ⟨next, prev⟩ := kept other notSrc notDest
          have different : other ≠ node := fun same => notSrc (by simp [same])
          obtain ⟨next', prev'⟩ := outside other
            (by simp only [List.mem_cons, List.mem_append] at notSrc ⊢; tauto) (by simp_all)
          exact ⟨next'.trans next, prev'.trans prev⟩

/-- **`rlist_select` is a stable partition.** It ends, with each node of the
source evaluated once, and in order. The nodes that fail the predicate are left
in the source, the others follow the former nodes of the destination, and both
rings are well formed. Nothing else has changed in the heap. -/
theorem select_partitions (src_formed : h.Linked Lsrc src) (dest_formed : h.Linked Ldest dest)
    (disjoint : (Lsrc :: src).Disjoint (Ldest :: dest)) (pred : Pred Node Key) {fuel : Nat}
    (enough : src.length < fuel) :
    ∃ h', rlistSelect fuel h Lsrc Ldest pred = some (h', src) ∧
      h'.Linked Lsrc (src.filter fun node => pred h.key node = 0) ∧
      h'.Linked Ldest (dest ++ src.filter fun node => pred h.key node ≠ 0) ∧
      h'.key = h.key ∧ ∀ other, other ∉ Lsrc :: src → other ∉ Ldest :: dest →
        h'.next other = h.next other ∧ h'.prev other = h.prev other := by
  have apart : Ldest ∉ Lsrc :: src := fun member => disjoint member List.mem_cons_self
  have lists : TwoLists h Lsrc Ldest ([] ++ src) dest := ⟨apart, src_formed, dest_formed⟩
  obtain ⟨h', ran, key, divided, outside⟩ :=
    @rlistSelectLoop_eq _ _ _ h Lsrc Ldest dest [] src [] pred lists fuel enough
  exact ⟨h', ran, divided.src, divided.dest, key, outside⟩

/-- The two nodes of a list, of which the second is to be moved to a node that
is a list by itself. -/
theorem select_partitions_second : ∃ h', rlistSelect 3 twoNodes 0 3 (fun key node => key node - 7) =
      some (h', [1, 2]) ∧
    h'.Linked 0 [1] ∧ h'.Linked 3 [2] := by
  have matched := twoNodes_rings.1.matched
  have alone : twoNodes.Ring 3 [] := Links.Ring.nil_iff.mpr rfl
  obtain ⟨h', ran, src, dest, -⟩ := select_partitions ⟨twoNodes_rings.2, matched _⟩
    ⟨alone, matched _⟩ (by simp) (fun key node => key node - 7) (by decide : 2 < 3)
  exact ⟨h', ran, src, dest⟩

end
end TinyOs.IntrusiveList
