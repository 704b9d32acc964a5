import Mathlib.Algebra.Group.Nat.Defs
import Mathlib.Data.Fin.VecNotation
import TinyOs.Library.Ring

/-! The lists the kernel threads through its control blocks (`rlnode`): every
operation that changes one is made of `rl_splice`. -/
namespace TinyOs.IntrusiveList
open Library

/-- The memory of the list nodes: the pointers of each and its key. -/
structure Heap (Node Key : Type*) extends Links Node where
  key : Node → Key

variable {Node Key : Type*} [DecidableEq Node] [DecidableEq Key]

def rlnodeNew (h : Heap Node Key) (p : Node) : Heap Node Key :=
  { h with prev := Function.update h.prev p p, next := Function.update h.next p p }

def rlnodeInit (h : Heap Node Key) (p : Node) (ptr : Key) : Heap Node Key :=
  { rlnodeNew h p with key := Function.update h.key p ptr }

/-- `rlnode_swap` of the `prev` pointers of two nodes. -/
def Heap.swapPrev (h : Heap Node Key) (p q : Node) : Heap Node Key :=
  { h with prev := Links.exchange h.prev p q }

/-- `rlnode_swap` of the `next` pointers of two nodes. -/
def Heap.swapNext (h : Heap Node Key) (p q : Node) : Heap Node Key :=
  { h with next := Links.exchange h.next p q }

/-- The two nodes exchange their successors. -/
def rlSplice (h : Heap Node Key) (a b : Node) : Heap Node Key × Node :=
  let h := h.swapPrev (h.next a) (h.next b)
  let h := h.swapNext a b
  (h, b)

def rlistRemove (h : Heap Node Key) (a : Node) : Heap Node Key × Node :=
  ((rlSplice h a (h.prev a)).1, a)

def isRlistEmpty (h : Heap Node Key) (a : Node) : Bool :=
  decide (a = h.next a)

def rlistPushFront (h : Heap Node Key) (list node : Node) : Heap Node Key :=
  (rlSplice h list node).1

def rlistPushBack (h : Heap Node Key) (list node : Node) : Heap Node Key :=
  (rlSplice h (h.prev list) node).1

def rlistPopFront (h : Heap Node Key) (list : Node) : Heap Node Key × Node :=
  rlSplice h list (h.next list)

def rlistPopBack (h : Heap Node Key) (list : Node) : Heap Node Key × Node :=
  rlSplice h list (h.prev list)

def rlistAppend (h : Heap Node Key) (ldest lsrc : Node) : Heap Node Key :=
  let h := rlistPushBack h ldest lsrc
  (rlistRemove h lsrc).1

def rlistPrepend (h : Heap Node Key) (ldest lsrc : Node) : Heap Node Key :=
  let h := rlistPushFront h ldest lsrc
  (rlistRemove h lsrc).1

/-- The loop of `rlist_len`, whose `count` is an `unsigned int`. -/
def rlistLenLoop (h : Heap Node Key) (list : Node) : Nat → Node → Nat → Option Nat
  | 0, _, _ => none
  | fuel + 1, p, count =>
    if p = list then some count
    else rlistLenLoop h list fuel (h.next p) ((count + 1) % 2 ^ 32)

def rlistLen (fuel : Nat) (h : Heap Node Key) (list : Node) : Option Nat :=
  rlistLenLoop h list fuel (h.next list) 0

def rlistEqualLoop (h : Heap Node Key) (L1 L2 : Node) : Nat → Node → Node → Option Bool
  | 0, _, _ => none
  | fuel + 1, i1, i2 =>
    if i1 = L1 then some (decide (i2 = L2))
    else if i2 = L2 ∨ h.key i1 ≠ h.key i2 then some false
    else rlistEqualLoop h L1 L2 fuel (h.next i1) (h.next i2)

def rlistEqual (fuel : Nat) (h : Heap Node Key) (L1 L2 : Node) : Option Bool :=
  rlistEqualLoop h L1 L2 fuel (h.next L1) (h.next L2)

/-- The loop of `rlist_find`; the node returned on failure may be `NULL`. -/
def rlistFindLoop (h : Heap Node Key) (List : Node) (key : Key) (fail : Option Node) :
    Nat → Node → Option (Option Node)
  | 0, _ => none
  | fuel + 1, i =>
    if i = List then some fail
    else if h.key i = key then some (some i)
    else rlistFindLoop h List key fail fuel (h.next i)

def rlistFind (fuel : Nat) (h : Heap Node Key) (List : Node) (key : Key) (fail : Option Node) :
    Option (Option Node) :=
  rlistFindLoop h List key fail fuel (h.next List)

/-- The calls on lists. -/
inductive Op (Node Key : Type*) where
  | pushFront (list node : Node)
  | pushBack (list node : Node)
  | popFront (list : Node)
  | popBack (list : Node)
  | remove (node : Node)
  | append (ldest lsrc : Node)
  | prepend (ldest lsrc : Node)
  | len (list : Node)
  | equal (L1 L2 : Node)
  | find (list : Node) (key : Key) (fail : Option Node)

/-- What a call returns. -/
inductive Result (Node : Type*) where
  | nothing
  | node (n : Option Node)
  | count (n : Nat)
  | truth (b : Bool)

/-- A call with bounded loops; `none` is a loop that did not end. -/
def Op.run (fuel : Nat) (h : Heap Node Key) : Op Node Key → Option (Heap Node Key × Result Node)
  | pushFront list node => some (rlistPushFront h list node, .nothing)
  | pushBack list node => some (rlistPushBack h list node, .nothing)
  | popFront list =>
    let (h, node) := rlistPopFront h list
    some (h, .node (some node))
  | popBack list =>
    let (h, node) := rlistPopBack h list
    some (h, .node (some node))
  | remove node =>
    let (h, node) := rlistRemove h node
    some (h, .node (some node))
  | append ldest lsrc => some (rlistAppend h ldest lsrc, .nothing)
  | prepend ldest lsrc => some (rlistPrepend h ldest lsrc, .nothing)
  | len list => (rlistLen fuel h list).map fun count => (h, .count count)
  | equal L1 L2 => (rlistEqual fuel h L1 L2).map fun truth => (h, .truth truth)
  | find list key fail => (rlistFind fuel h list key fail).map fun node => (h, .node node)

/-! ### Sequences -/

/-- A call's effect on the lists it works on: none, or new lists in their place. -/
inductive Effect (Node : Type*) where
  | nothing
  | lists (after : List (Node × List Node))

/-- **What the calls mean on sequences.** A list is its sentinel with the nodes
after it; a node outside a list is a list of its own. The first lists are those
a call works on. -/
inductive Meaning (key : Node → Key) :
    Op Node Key → List (Node × List Node) → Effect Node → Result Node → Prop where
  | pushFront {list node nodes} : node ∉ list :: nodes →
      Meaning key (.pushFront list node) [(list, nodes), (node, [])]
        (.lists [(list, node :: nodes)]) .nothing
  | pushBack {list node nodes} : node ∉ list :: nodes →
      Meaning key (.pushBack list node) [(list, nodes), (node, [])]
        (.lists [(list, nodes ++ [node])]) .nothing
  | popFrontEmpty {list} :
      Meaning key (.popFront list) [(list, [])] .nothing (.node (some list))
  | popFront {list node nodes} :
      Meaning key (.popFront list) [(list, node :: nodes)]
        (.lists [(list, nodes), (node, [])]) (.node (some node))
  | popBackEmpty {list} :
      Meaning key (.popBack list) [(list, [])] .nothing (.node (some list))
  | popBack {list node nodes} :
      Meaning key (.popBack list) [(list, nodes ++ [node])]
        (.lists [(list, nodes), (node, [])]) (.node (some node))
  | remove {list node nodes} : node ∈ nodes →
      Meaning key (.remove node) [(list, nodes)]
        (.lists [(list, nodes.erase node), (node, [])]) (.node (some node))
  | append {ldest lsrc dest src} : lsrc ∉ ldest :: dest →
      Meaning key (.append ldest lsrc) [(ldest, dest), (lsrc, src)]
        (.lists [(ldest, dest ++ src), (lsrc, [])]) .nothing
  | prepend {ldest lsrc dest src} : lsrc ∉ ldest :: dest →
      Meaning key (.prepend ldest lsrc) [(ldest, dest), (lsrc, src)]
        (.lists [(ldest, src ++ dest), (lsrc, [])]) .nothing
  | len {list nodes} : nodes.length < 2 ^ 32 →
      Meaning key (.len list) [(list, nodes)] .nothing (.count nodes.length)
  | equal {L1 L2 nodes others} :
      Meaning key (.equal L1 L2) [(L1, nodes), (L2, others)] .nothing
        (.truth (decide (nodes.map key = others.map key)))
  | find {list k fail nodes} :
      Meaning key (.find list k fail) [(list, nodes)] .nothing
        (.node ((nodes.find? fun node => key node = k).or fail))

/-- How an effect on lists shows in the heap: the new lists are there, the keys
and every list that took no part are as before. -/
def Effect.Shows (h h' : Heap Node Key) (before : List (Node × List Node)) : Effect Node → Prop
  | nothing => h' = h
  | lists after => h'.WellFormed ∧ h'.key = h.key ∧ (∀ list ∈ after, h'.Ring list.1 list.2) ∧
      ∀ other nodes, h.Ring other nodes → (∀ list ∈ before, list.1 ∉ other :: nodes) →
        h'.Ring other nodes

/-- The call ends with this effect and this result. -/
def Refines (h : Heap Node Key) (op : Op Node Key) (before : List (Node × List Node))
    (effect : Effect Node) (result : Result Node) : Prop :=
  ∃ enough, ∀ fuel ≥ enough, ∃ h', op.run fuel h = some (h', result) ∧ effect.Shows h h' before

/-! ### A fresh node -/

section Fresh
variable {Node Key : Type*} [DecidableEq Node] {h : Heap Node Key} {p list : Node} {ptr : Key}
variable {nodes : List Node}

theorem rlnodeInit_single : (rlnodeInit h p ptr).Ring p [] := by
  simp [Links.Ring.nil_iff, rlnodeInit, rlnodeNew]

/-- A list that the node is not in stays as it is. -/
theorem rlnodeInit_other (ring : h.Ring list nodes) (absent : p ∉ list :: nodes) :
    (rlnodeInit h p ptr).Ring list nodes := by
  refine ⟨ring.1.congr fun node member => ?_, ring.2⟩
  exact Function.update_of_ne (ne_of_mem_of_not_mem member absent) ..

theorem rlnodeInit_matched : (rlnodeInit h p ptr).prev ((rlnodeInit h p ptr).next p) = p := by
  simp [rlnodeInit, rlnodeNew]

end Fresh

/-! ### The loops -/

section Loops
variable {h : Heap Node Key} {list first : Node} {nodes : List Node}

omit [DecidableEq Key] in
/-- The loop counts what is left of the list. The induction is on that rest. -/
theorem len_loop (walk : Walk h.next first nodes list) (absent : list ∉ nodes) {fuel count : Nat}
    (enough : nodes.length < fuel) (fits : count + nodes.length < 2 ^ 32) :
    rlistLenLoop h list fuel (h.next first) count = some (count + nodes.length) := by
  induction nodes generalizing first fuel count with
  | nil =>
    obtain ⟨fuel, rfl⟩ := Nat.exists_eq_add_of_lt enough
    simp [rlistLenLoop, show h.next first = list from walk]
  | cons node rest ih =>
    obtain ⟨begins, tail⟩ := walk
    have elsewhere : node ≠ list := (List.ne_of_not_mem_cons absent).symm
    simp only [List.length_cons] at enough fits ⊢
    cases fuel with
    | zero => omega
    | succ fuel =>
      have counted : (count + 1) % 2 ^ 32 = count + 1 := Nat.mod_eq_of_lt (by omega)
      simp only [rlistLenLoop, begins, elsewhere, if_false, counted]
      rw [ih tail (List.not_mem_of_not_mem_cons absent) (by omega) (by omega)]
      congr 1
      omega

/-- The loop stops at the first node with the key. -/
theorem find_loop (walk : Walk h.next first nodes list) (absent : list ∉ nodes) (key : Key)
    (fail : Option Node) {fuel : Nat} (enough : nodes.length < fuel) :
    rlistFindLoop h list key fail fuel (h.next first) =
      some ((nodes.find? fun node => h.key node = key).or fail) := by
  induction nodes generalizing first fuel with
  | nil =>
    obtain ⟨fuel, rfl⟩ := Nat.exists_eq_add_of_lt enough
    simp [rlistFindLoop, show h.next first = list from walk]
  | cons node rest ih =>
    obtain ⟨begins, tail⟩ := walk
    have elsewhere : node ≠ list := (List.ne_of_not_mem_cons absent).symm
    cases fuel with
    | zero => exact absurd enough (Nat.not_lt_zero _)
    | succ fuel =>
      simp only [rlistFindLoop, begins, elsewhere, if_false, List.find?_cons]
      by_cases here : h.key node = key
      · simp [here]
      · simp only [here, if_false, decide_false]
        exact ih tail (List.not_mem_of_not_mem_cons absent) (Nat.lt_of_succ_lt_succ enough)

/-- The loop compares what is left of both lists. -/
theorem equal_loop {list' first' : Node} {others : List Node} (walk : Walk h.next first nodes list)
    (absent : list ∉ nodes) (walk' : Walk h.next first' others list') (absent' : list' ∉ others)
    {fuel : Nat} (enough : nodes.length < fuel) :
    rlistEqualLoop h list list' fuel (h.next first) (h.next first') =
      some (decide (nodes.map h.key = others.map h.key)) := by
  induction nodes generalizing first first' others fuel with
  | nil =>
    obtain ⟨fuel, rfl⟩ := Nat.exists_eq_add_of_lt enough
    simp only [rlistEqualLoop, show h.next first = list from walk, if_true]
    cases others with
    | nil => simp [show h.next first' = list' from walk']
    | cons node' rest' =>
      simp [show h.next first' = node' from walk'.1, (List.ne_of_not_mem_cons absent').symm]
  | cons node rest ih =>
    obtain ⟨begins, tail⟩ := walk
    have elsewhere : node ≠ list := (List.ne_of_not_mem_cons absent).symm
    cases fuel with
    | zero => exact absurd enough (Nat.not_lt_zero _)
    | succ fuel =>
      simp only [rlistEqualLoop, begins, elsewhere, if_false]
      cases others with
      | nil => simp [show h.next first' = list' from walk']
      | cons node' rest' =>
        obtain ⟨begins', tail'⟩ := walk'
        have elsewhere' : node' ≠ list' := (List.ne_of_not_mem_cons absent').symm
        simp only [begins', elsewhere', false_or]
        by_cases same : h.key node = h.key node'
        · simp only [same, ne_eq, not_true, if_false]
          rw [ih tail (List.not_mem_of_not_mem_cons absent) tail'
            (List.not_mem_of_not_mem_cons absent') (Nat.lt_of_succ_lt_succ enough)]
          simp [same]
        · simp [same]

end Loops

/-! ### The calls on the rings -/

section Calls
variable {Node Key : Type*} [DecidableEq Node] {h h' h'' : Heap Node Key}
variable {list node a b p q : Node} {nodes others ps qs : List Node}
variable {before middle after : List (Node × List Node)}

/-- One exchange of successors at nodes of the lists of a call. -/
theorem shows_splice (formed : h.WellFormed) (first : h.Ring p ps) (second : h.Ring q qs)
    (firstIn : (p, ps) ∈ before) (secondIn : (q, qs) ∈ before) (onFirst : a ∈ p :: ps)
    (onSecond : b ∈ q :: qs) (rings : ∀ list ∈ after, (h.toLinks.splice a b).Ring list.1 list.2) :
    (Effect.lists after).Shows h (rlSplice h a b).1 before := by
  refine ⟨formed.splice a b, rfl, rings, fun other nodes ring apart => ?_⟩
  exact ring.splice_apart first second onFirst onSecond (apart _ firstIn) (apart _ secondIn)

omit [DecidableEq Node] in
/-- Two calls, the second on lists the first one left. -/
theorem shows_trans (once : (Effect.lists middle).Shows h h' before)
    (again : (Effect.lists after).Shows h' h'' middle)
    (known : ∀ list ∈ middle, ∃ nodes, (list.1, nodes) ∈ before) :
    (Effect.lists after).Shows h h'' before := by
  obtain ⟨-, key, -, frame⟩ := once
  obtain ⟨formed, key', rings, frame'⟩ := again
  refine ⟨formed, key'.trans key, rings, fun other nodes ring apart => ?_⟩
  apply frame' other nodes (frame other nodes ring apart)
  intro list member
  obtain ⟨nodes', present⟩ := known list member
  exact apart (list.1, nodes') present

/-- The ring of the node, with the node first, comes before the list. -/
theorem pushFront_shows (formed : h.WellFormed) (ring : h.Ring list nodes)
    (added : h.Ring node others) (apart : node ∉ list :: nodes) :
    (Effect.lists [(list, others ++ node :: nodes)]).Shows h (rlistPushFront h list node)
      [(list, nodes), (node, others)] := by
  apply shows_splice formed ring added (by simp) (by simp) List.mem_cons_self List.mem_cons_self
  simpa using ring.splice_join added apart

theorem pushBack_shows (formed : h.WellFormed) (ring : h.Ring list nodes)
    (added : h.Ring node others) (apart : node ∉ list :: nodes) :
    (Effect.lists [(list, nodes ++ (others ++ [node]))]).Shows h (rlistPushBack h list node)
      [(list, nodes), (node, others)] := by
  refine shows_splice formed ring added (by simp) (by simp) (ring.prev_mem (formed.matched _) List.mem_cons_self)
    List.mem_cons_self ?_
  simpa using ring.splice_tail (formed.matched _) added apart

/-- A node that is removed is a list of its own. -/
theorem remove_shows (formed : h.WellFormed) (ring : h.Ring list (nodes ++ node :: others)) :
    (Effect.lists [(list, nodes ++ others), (node, [])]).Shows h (rlistRemove h node).1
      [(list, nodes ++ node :: others)] := by
  have onRing : h.prev node ∈ list :: (nodes ++ node :: others) :=
    ring.prev_mem (formed.matched _) (by simp)
  apply shows_splice formed ring ring (by simp) (by simp) (by simp) onRing
  simpa using ring.splice_out (formed.matched _)

theorem popFront_shows (formed : h.WellFormed) (ring : h.Ring list (node :: nodes)) :
    (Effect.lists [(list, nodes), (node, [])]).Shows h (rlistPopFront h list).1
      [(list, node :: nodes)] := by
  rw [rlistPopFront, ring.next_head]
  apply shows_splice formed ring ring (by simp) (by simp) (by simp) (by simp)
  simpa using ring.splice_cut

/-- **`rlist_pop_back` empties the list.** It cuts the sentinel out of the ring
and not the tail, which stays linked with the other nodes. -/
theorem popBack_shows (formed : h.WellFormed) (ring : h.Ring list (nodes ++ [node])) :
    (Effect.lists [(list, []), (node, nodes)]).Shows h (rlistPopBack h list).1
      [(list, nodes ++ [node])] := by
  rw [rlistPopBack, ring.prev_last (formed node).1]
  apply shows_splice formed ring ring (by simp) (by simp) (by simp) (by simp)
  simpa using ring.splice_cut

/-- At either end of an empty list the list node itself is popped, and nothing changes. -/
theorem pop_empty (formed : h.WellFormed) (ring : h.Ring list []) :
    rlistPopFront h list = (h, list) ∧ rlistPopBack h list = (h, list) := by
  have nothing : rlSplice h list list = (h, list) := by
    refine Prod.ext ?_ rfl
    exact congrArg (fun links => Heap.mk links h.key) (h.toLinks.splice_self list)
  rw [rlistPopFront, rlistPopBack, Links.Ring.nil_iff.mp ring, ring.prev_self (formed list).1]
  exact ⟨nothing, nothing⟩

/-- The second list is empty afterwards. -/
theorem append_shows (formed : h.WellFormed) (ring : h.Ring list nodes)
    (added : h.Ring node others) (apart : node ∉ list :: nodes) :
    (Effect.lists [(list, nodes ++ others), (node, [])]).Shows h (rlistAppend h list node)
      [(list, nodes), (node, others)] := by
  have joined := pushBack_shows formed ring added apart
  have whole : (rlistPushBack h list node).Ring list ((nodes ++ others) ++ [node]) := by
    simpa using joined.2.2.1
  have removed := remove_shows joined.1 whole
  rw [List.append_assoc, List.append_nil] at removed
  exact shows_trans joined removed (by simp)

theorem prepend_shows (formed : h.WellFormed) (ring : h.Ring list nodes)
    (added : h.Ring node others) (apart : node ∉ list :: nodes) :
    (Effect.lists [(list, others ++ nodes), (node, [])]).Shows h (rlistPrepend h list node)
      [(list, nodes), (node, others)] := by
  have joined := pushFront_shows formed ring added apart
  have whole : (rlistPushFront h list node).Ring list (others ++ node :: nodes) := by
    simpa using joined.2.2.1
  exact shows_trans joined (remove_shows joined.1 whole) (by simp)

end Calls

omit [DecidableEq Key] in
theorem isRlistEmpty_iff {h : Heap Node Key} {list : Node} {nodes : List Node}
    (ring : h.Ring list nodes) : isRlistEmpty h list = true ↔ nodes = [] := by
  cases nodes with
  | nil => simp [isRlistEmpty, Links.Ring.nil_iff.mp ring]
  | cons node rest =>
    have elsewhere : list ≠ node := List.ne_of_not_mem_cons ring.absent
    simp [isRlistEmpty, ring.next_head, elsewhere]

/-! ### Refinement -/

section Refinement
variable {h h' : Heap Node Key} {op : Op Node Key} {before : List (Node × List Node)}
variable {effect : Effect Node} {result : Result Node}

theorem refines_of_run (ran : ∀ fuel, op.run fuel h = some (h', result))
    (shows : effect.Shows h h' before) : Refines h op before effect result :=
  ⟨0, fun fuel _ => ⟨h', ran fuel, shows⟩⟩

omit [DecidableEq Node] [DecidableEq Key] in
theorem both_rings {first second : Node × List Node}
    (rings : ∀ list ∈ [first, second], h.Ring list.1 list.2) :
    h.Ring first.1 first.2 ∧ h.Ring second.1 second.2 :=
  ⟨rings first (by simp), rings second (by simp)⟩

/-- A call of `rlist_pop_back` on a list of two nodes or more. -/
def PopsBackOfSeveral (op : Op Node Key) (before : List (Node × List Node)) : Prop :=
  ∃ list nodes, op = .popBack list ∧ before = [(list, nodes)] ∧ 2 ≤ nodes.length

theorem refines_of_not_several (formed : h.WellFormed)
    (meaning : Meaning h.key op before effect result)
    (rings : ∀ list ∈ before, h.Ring list.1 list.2) (single : ¬ PopsBackOfSeveral op before) :
    Refines h op before effect result := by
  cases meaning with
  | pushFront apart =>
    obtain ⟨ring, added⟩ := both_rings rings
    exact refines_of_run (fun _ => rfl) (pushFront_shows formed ring added apart)
  | pushBack apart =>
    obtain ⟨ring, added⟩ := both_rings rings
    exact refines_of_run (fun _ => rfl) (pushBack_shows formed ring added apart)
  | @popFrontEmpty list =>
    have same := (pop_empty formed (rings (list, []) (by simp))).1
    exact refines_of_run (fun _ => by simp only [Op.run, same]) rfl
  | @popFront list node nodes =>
    have ring : h.Ring list (node :: nodes) := rings (list, node :: nodes) (by simp)
    have returned : (rlistPopFront h list).2 = node := ring.next_head
    exact refines_of_run (fun _ => by simp only [Op.run, returned]) (popFront_shows formed ring)
  | @popBackEmpty list =>
    have same := (pop_empty formed (rings (list, []) (by simp))).2
    exact refines_of_run (fun _ => by simp only [Op.run, same]) rfl
  | @popBack list node nodes =>
    obtain rfl : nodes = [] := by
      by_contra several
      refine single ⟨list, nodes ++ [node], rfl, rfl, ?_⟩
      have positive := List.length_pos_iff.mpr several
      simp only [List.length_append, List.length_singleton]
      omega
    have ring : h.Ring list ([] ++ [node]) := rings (list, [node]) (by simp)
    have returned : (rlistPopBack h list).2 = node := ring.prev_last (formed node).1
    exact refines_of_run (fun _ => by simp only [Op.run, returned]) (popBack_shows formed ring)
  | @remove list node nodes member =>
    have once := (rings (list, nodes) (by simp)).nodup
    obtain ⟨front, back, rfl⟩ := List.append_of_mem member
    have ring : h.Ring list (front ++ node :: back) := rings (list, front ++ node :: back) (by simp)
    have notFront : node ∉ front := fun inFront =>
      (List.nodup_append'.mp once).2.2 inFront List.mem_cons_self
    rw [List.erase_append_right _ notFront, List.erase_cons_head]
    exact refines_of_run (fun _ => rfl) (remove_shows formed ring)
  | append apart =>
    obtain ⟨ring, added⟩ := both_rings rings
    exact refines_of_run (fun _ => rfl) (append_shows formed ring added apart)
  | prepend apart =>
    obtain ⟨ring, added⟩ := both_rings rings
    exact refines_of_run (fun _ => rfl) (prepend_shows formed ring added apart)
  | @len list nodes fits =>
    have ring := rings (list, nodes) (by simp)
    refine ⟨nodes.length + 1, fun fuel enough => ⟨h, ?_, rfl⟩⟩
    have fitting : 0 + nodes.length < 2 ^ 32 := by omega
    have counted := len_loop ring.1 ring.absent enough fitting
    simp only [Op.run, rlistLen, counted, Option.map_some, Nat.zero_add]
  | @equal L1 L2 nodes others =>
    obtain ⟨first, second⟩ := both_rings rings
    refine ⟨nodes.length + 1, fun fuel enough => ⟨h, ?_, rfl⟩⟩
    have compared := equal_loop first.1 first.absent second.1 second.absent enough
    simp only [Op.run, rlistEqual, compared, Option.map_some]
  | @find list key fail nodes =>
    have ring := rings (list, nodes) (by simp)
    refine ⟨nodes.length + 1, fun fuel enough => ⟨h, ?_, rfl⟩⟩
    have found := find_loop ring.1 ring.absent key fail enough
    simp only [Op.run, rlistFind, found, Option.map_some]

/-- `rlist_pop_back` cuts the list node itself out, and not the last node. -/
theorem not_refines_of_several (formed : h.WellFormed)
    (meaning : Meaning h.key op before effect result)
    (rings : ∀ list ∈ before, h.Ring list.1 list.2) (several : PopsBackOfSeveral op before) :
    ¬ Refines h op before effect result := by
  rintro ⟨enough, ends⟩
  obtain ⟨h', ran, shows⟩ := ends enough (Nat.le_refl _)
  obtain ⟨list, whole, rfl, rfl, long⟩ := several
  cases meaning with
  | popBackEmpty => exact absurd long (by simp)
  | @popBack _ node nodes =>
    have ring : h.Ring list (nodes ++ [node]) := rings (list, nodes ++ [node]) (by simp)
    have emptied : (rlistPopBack h list).1.Ring list [] :=
      (popBack_shows formed ring).2.2.1 (list, []) (by simp)
    have kept : h'.Ring list nodes := shows.2.2.1 (list, nodes) (by simp)
    obtain ⟨rfl, -⟩ := by simpa [Op.run] using ran
    obtain rfl := emptied.unique kept
    exact absurd long (by simp)

/-- **The lists refine sequences, except for `rlist_pop_back`.** On a heap of
well-formed rings a call does what it means on sequences, its result, the keys
and the other lists included, if and only if it is not `rlist_pop_back` on a
list of two nodes or more. -/
theorem refines_iff (formed : h.WellFormed) (meaning : Meaning h.key op before effect result)
    (rings : ∀ list ∈ before, h.Ring list.1 list.2) :
    Refines h op before effect result ↔ ¬ PopsBackOfSeveral op before := by
  constructor
  · exact fun refines several => not_refines_of_several formed meaning rings several refines
  · exact refines_of_not_several formed meaning rings

/-- A sentinel with two nodes, and a node by itself. -/
def twoNodes : Heap (Fin 4) Nat where
  next := ![1, 2, 0, 3]
  prev := ![2, 0, 1, 3]
  key := ![0, 7, 8, 9]

theorem twoNodes_rings : twoNodes.WellFormed ∧ twoNodes.Ring 0 [1, 2] := by
  refine ⟨?_, ⟨rfl, rfl, rfl⟩, by decide⟩
  unfold Links.WellFormed
  decide

theorem refines_iff_pop_front : Refines twoNodes (.popFront 0) [(0, [1, 2])]
    (.lists [(0, [2]), (1, [])]) (.node (some 1)) := by
  refine (refines_iff twoNodes_rings.1 .popFront ?_).mpr ?_
  · simpa using twoNodes_rings.2
  · simp [PopsBackOfSeveral]

/-- Popping the tail of a list of two nodes does not leave the first one in it. -/
theorem pop_back_of_two : twoNodes.WellFormed ∧ twoNodes.Ring 0 [1, 2] ∧
    Meaning twoNodes.key (.popBack 0) [(0, [1] ++ [2])] (.lists [(0, [1]), (2, [])])
      (.node (some 2)) ∧
    ¬ Refines twoNodes (.popBack 0) [(0, [1] ++ [2])] (.lists [(0, [1]), (2, [])])
      (.node (some 2)) := by
  obtain ⟨formed, ring⟩ := twoNodes_rings
  refine ⟨formed, ring, .popBack, not_refines_of_several formed .popBack ?_ ?_⟩
  · simpa using ring
  · exact ⟨0, [1, 2], rfl, rfl, by decide⟩

end Refinement
end TinyOs.IntrusiveList
