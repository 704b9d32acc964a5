import Mathlib.Data.List.Count
import TinyOs.KernelSys
import TinyOs.Library.Forest
import TinyOs.Library.FreeList

/-! What the process table says about which processes there are: the tree of
parents and children with its zombies, and the free list. -/
namespace TinyOs.Kernel
open Function Library

/-- The lists of children and of exited children agree with the parent links of
the processes, which lead to the initial process. -/
structure Tree (pstate : Pid → PidState) (parent : Pid → Option Pid)
    (childrenList exitedList : Pid → List Pid) : Prop where
  null : pstate 0 = .alive ∧ parent 0 = none
  init : pstate 1 ≠ .free ∧ parent 1 = none
  parented : ∀ pid, 2 ≤ pid → pstate pid ≠ .free →
    ∃ above, parent pid = some above ∧ pstate above = .alive ∧ above ≠ 0
  children : ∀ pid above, pid ∈ childrenList above ↔
    2 ≤ pid ∧ pstate pid ≠ .free ∧ parent pid = some above
  children_nodup : ∀ pid, (childrenList pid).Nodup
  exited : ∀ pid above, pid ∈ exitedList above ↔
    2 ≤ pid ∧ pstate pid = .zombie ∧ parent pid = some above
  exited_nodup : ∀ pid, (exitedList pid).Nodup
  ranked : ∃ rank : Pid → Nat, rank 1 = 0 ∧ ∀ pid above, 2 ≤ pid → pstate pid ≠ .free →
    parent pid = some above → rank above < rank pid

/-- The free list holds the free entries, each once, and `process_count` counts
the others. -/
def FreeEntries (pstate : Pid → PidState) (parent : Pid → Option Pid)
    (pcbFreelist : Option Pid) (processCount : BitVec 32) : Prop :=
  ∃ entries, Chain parent pcbFreelist entries ∧ entries.Nodup ∧
    (∀ pid, pid ∈ entries ↔ pid < maxProc ∧ pstate pid = .free) ∧
    (∀ pid, pstate pid ≠ .free → pid < maxProc) ∧
    processCount.toNat + entries.length = maxProc

variable {pstate : Pid → PidState} {parent : Pid → Option Pid}
  {childrenList exitedList : Pid → List Pid} {pcbFreelist : Option Pid} {processCount : BitVec 32}

theorem Tree.descends (tree : Tree pstate parent childrenList exitedList) {pid : Pid}
    (large : 2 ≤ pid) (used : pstate pid ≠ .free) : Descends parent 1 pid := by
  obtain ⟨rank, -, lower⟩ := tree.ranked
  refine descends_of_rank rank (fun pid => 2 ≤ pid ∧ pstate pid ≠ .free) ?_ ⟨large, used⟩
  rintro node ⟨large, used⟩
  obtain ⟨above, link, alive, positive⟩ := tree.parented node large used
  refine ⟨above, link, ?_, lower node above large used link⟩
  by_cases root : above = 1
  · exact .inl root
  · exact .inr ⟨(Nat.two_le_iff above).mpr ⟨positive, root⟩, by simp [alive]⟩

/-- A new process joins as a child of a live one. -/
theorem Tree.adopt (tree : Tree pstate parent childrenList exitedList) {pid above : Pid}
    (large : 2 ≤ pid) (unused : pstate pid = .free) (alive : pstate above = .alive)
    (positive : above ≠ 0) :
    Tree (update pstate pid .alive) (update parent pid (some above))
      (update childrenList above (pid :: childrenList above)) exitedList := by
  obtain ⟨null, init, parented, children, children_nodup, exited, exited_nodup, rank, root, lower⟩ :=
    tree
  have apart : above ≠ pid := by
    rintro rfl
    simp [unused] at alive
  constructor
  case null => grind
  case init => grind
  case parented =>
    intro other large' used
    rcases eq_or_ne other pid with rfl | different
    · exact ⟨above, update_self .., by rw [update_of_ne apart, alive], positive⟩
    · rw [update_of_ne different] at used
      obtain ⟨up, link, alive', positive'⟩ := parented other large' used
      refine ⟨up, by rw [update_of_ne different, link], ?_, positive'⟩
      grind
  case children =>
    intro other up
    simp only [update_apply]
    grind
  case children_nodup =>
    intro up
    simp only [update_apply]
    grind
  case exited =>
    intro other up
    simp only [update_apply]
    grind
  case exited_nodup => exact exited_nodup
  case ranked =>
    refine ⟨update rank pid (rank above + 1), by grind, ?_⟩
    intro other up large' used link
    have up_apart : other ≠ pid → up ≠ pid := by
      rintro different rfl
      obtain ⟨up, link', alive', -⟩ := parented other large' (by grind)
      grind
    grind

/-- A reaped zombie leaves both lists. -/
theorem Tree.reap (tree : Tree pstate parent childrenList exitedList) {pid : Pid}
    (large : 2 ≤ pid) (zombie : pstate pid = .zombie) (link : Option Pid) :
    Tree (update pstate pid .free) (update parent pid link)
      (fun above => (childrenList above).erase pid) (fun above => (exitedList above).erase pid) := by
  obtain ⟨null, init, parented, children, children_nodup, exited, exited_nodup, rank, root, lower⟩ :=
    tree
  constructor
  case null => grind
  case init => grind
  case parented =>
    intro other large' used
    have different : other ≠ pid := by
      rintro rfl
      simp at used
    rw [update_of_ne different] at used
    obtain ⟨up, up_link, alive, positive⟩ := parented other large' used
    refine ⟨up, by rw [update_of_ne different, up_link], ?_, positive⟩
    grind
  case children =>
    intro other up
    simp only [update_apply, (children_nodup up).mem_erase_iff]
    grind
  case children_nodup => exact fun up => (children_nodup up).erase pid
  case exited =>
    intro other up
    simp only [update_apply, (exited_nodup up).mem_erase_iff]
    grind
  case exited_nodup => exact fun up => (exited_nodup up).erase pid
  case ranked =>
    refine ⟨rank, root, ?_⟩
    intro other up large' used up_link
    grind

/-- While there are processes besides the first two, the initial one lives. -/
theorem Tree.init_alive (tree : Tree pstate parent childrenList exitedList) {pid : Pid}
    (large : 2 ≤ pid) (used : pstate pid ≠ .free) : pstate 1 = .alive := by
  have walk : ∀ pid, Descends parent 1 pid → 2 ≤ pid → pstate pid ≠ .free → pstate 1 = .alive := by
    intro pid descends
    induction descends with
    | child link =>
      intro large used
      obtain ⟨above, same, alive, -⟩ := tree.parented _ large used
      obtain rfl := Option.some.inj (link.symm.trans same)
      exact alive
    | @step _ middle link _ ih =>
      intro large used
      obtain ⟨above, same, alive, positive⟩ := tree.parented _ large used
      obtain rfl : above = middle := Option.some.inj (same.symm.trans link)
      by_cases root : above = 1
      · rwa [root] at alive
      · exact ih ((Nat.two_le_iff above).mpr ⟨positive, root⟩) (by simp [alive])
  exact walk pid (tree.descends large used) large used

theorem Tree.not_own_child (tree : Tree pstate parent childrenList exitedList) (pid : Pid) :
    pid ∉ childrenList pid := by
  intro member
  obtain ⟨large, used, link⟩ := (tree.children pid pid).mp member
  obtain ⟨rank, -, lower⟩ := tree.ranked
  exact absurd (lower pid pid large used link) (lt_irrefl _)

/-- A process that ends leaves its children, exited ones included, to the
initial process, and itself to its parent as a zombie. -/
theorem Tree.orphan (tree : Tree pstate parent childrenList exitedList) {pid above : Pid}
    (large : 2 ≤ pid) (alive : pstate pid = .alive) (link : parent pid = some above) :
    Tree (update pstate pid .zombie)
      (fun child => if child ∈ childrenList pid then some 1 else parent child)
      (update (update childrenList pid []) 1 ((childrenList pid).reverse ++ childrenList 1))
      (let adopted := update (update exitedList pid []) 1 (exitedList 1 ++ exitedList pid)
       update adopted above (pid :: adopted above)) := by
  have init_alive := tree.init_alive large (by simp [alive])
  have not_own := tree.not_own_child pid
  obtain ⟨null, init, parented, children, children_nodup, exited, exited_nodup, rank, root, lower⟩ :=
    tree
  have apart : pid ≠ 1 := by
    rintro rfl
    exact absurd large (by decide)
  have not_above : above ≠ pid := by
    rintro rfl
    exact not_own ((children above above).mpr ⟨large, by simp [alive], link⟩)
  constructor
  case null => grind
  case init => grind
  case parented =>
    intro other large' used
    by_cases child : other ∈ childrenList pid
    · exact ⟨1, by simp [child], by rw [update_of_ne apart.symm, init_alive], by decide⟩
    · have used' : pstate other ≠ .free := by grind
      obtain ⟨up, up_link, up_alive, positive⟩ := parented other large' used'
      refine ⟨up, by simp [child, up_link], ?_, positive⟩
      have different : up ≠ pid := by
        rintro rfl
        exact child ((children other up).mpr ⟨large', used', up_link⟩)
      rw [update_of_ne different, up_alive]
  case children =>
    intro other up
    have here := children other pid
    have there := children other up
    have root_member := children other 1
    simp only [update_apply]
    grind
  case children_nodup =>
    intro up
    have here := children_nodup pid
    have root_nodup := children_nodup 1
    have disjoint : ∀ other ∈ childrenList pid, other ∉ childrenList 1 := by grind
    simp only [update_apply]
    grind [List.nodup_append, List.nodup_reverse]
  case exited =>
    intro other up
    have here := exited other pid
    have there := exited other up
    have root_member := exited other 1
    have child := children other pid
    simp only [update_apply]
    grind
  case exited_nodup =>
    intro up
    have here := exited_nodup pid
    have there := exited_nodup up
    have root_nodup := exited_nodup 1
    have disjoint : ∀ other ∈ exitedList pid, other ∉ exitedList 1 := by grind
    have unlisted : ∀ up, pid ∉ exitedList up := by grind
    simp only [update_apply]
    grind [List.nodup_append]
  case ranked =>
    refine ⟨rank, root, ?_⟩
    intro other up large' used up_link
    have used' : pstate other ≠ .free := by grind
    by_cases child : other ∈ childrenList pid
    · have below := (children other pid).mp child
      have lower' := lower other pid large' used' below.2.2
      simp only [child, if_true, Option.some.injEq] at up_link
      subst up
      omega
    · simp only [child, if_false] at up_link
      exact lower other up large' used' up_link

/-- The initial process ends without children. -/
theorem Tree.close (tree : Tree pstate parent childrenList exitedList)
    (childless : childrenList 1 = []) :
    Tree (update pstate 1 .zombie) parent childrenList exitedList := by
  obtain ⟨null, init, parented, children, children_nodup, exited, exited_nodup, rank, root, lower⟩ :=
    tree
  constructor
  case null => grind
  case init => grind
  case parented =>
    intro other large used
    have used' : pstate other ≠ .free := by grind
    obtain ⟨up, link, alive, positive⟩ := parented other large used'
    refine ⟨up, link, ?_, positive⟩
    have member := children other up
    grind
  case children => grind
  case children_nodup => exact children_nodup
  case exited => grind
  case exited_nodup => exact exited_nodup
  case ranked =>
    refine ⟨rank, root, ?_⟩
    intro other above large used link
    exact lower other above large (by grind) link

theorem FreeEntries.frame (entries : FreeEntries pstate parent pcbFreelist processCount)
    {pstate' : Pid → PidState} {parent' : Pid → Option Pid}
    (same : ∀ pid, pstate' pid = .free ↔ pstate pid = .free)
    (links : ∀ pid, pstate pid = .free → parent' pid = parent pid) :
    FreeEntries pstate' parent' pcbFreelist processCount := by
  obtain ⟨entries, chain, nodup, members, bounded, count⟩ := entries
  refine ⟨entries, chain.frame ?_, nodup, ?_, ?_, count⟩
  · exact fun pid member => links pid ((members pid).mp member).2
  · exact fun pid => by rw [members, same]
  · exact fun pid used => bounded pid fun free => used ((same pid).mpr free)

/-- `process_count` is the number of entries in use. -/
theorem FreeEntries.count (entries : FreeEntries pstate parent pcbFreelist processCount) :
    processCount.toNat = (List.range maxProc).countP fun pid => pstate pid ≠ .free := by
  obtain ⟨entries, -, nodup, members, -, count⟩ := entries
  have same : entries.Perm ((List.range maxProc).filter fun pid => pstate pid = .free) := by
    apply (List.perm_ext_iff_of_nodup nodup (List.nodup_range.filter _)).mpr
    intro pid
    rw [members, List.mem_filter, List.mem_range, decide_eq_true_eq]
  have split := List.length_eq_countP_add_countP (l := List.range maxProc)
    fun pid => decide (pstate pid = .free)
  rw [List.length_range, List.countP_eq_length_filter, ← same.length_eq] at split
  simp only [decide_eq_true_eq] at split
  simp only [ne_eq]
  omega

/-- The entry that `acquire_PCB` takes was free. -/
theorem FreeEntries.pop {pid : Pid}
    (entries : FreeEntries pstate parent (some pid) processCount) (link : Option Pid) :
    pstate pid = .free ∧ FreeEntries (update pstate pid .alive) (update parent pid link)
      (parent pid) (processCount + 1) := by
  obtain ⟨entries, chain, nodup, members, bounded, count⟩ := entries
  obtain ⟨rest, rfl, tail⟩ := chain.pop
  obtain ⟨absent, nodup⟩ := List.nodup_cons.mp nodup
  have first := (members pid).mp List.mem_cons_self
  refine ⟨first.2, rest, tail.update absent link, nodup, ?_, ?_, ?_⟩
  · intro other
    have member := members other
    grind
  · grind
  · have grows : (processCount + 1).toNat = processCount.toNat + 1 := by
      rw [BitVec.toNat_add, Nat.mod_eq_of_lt]
      · rfl
      · simp only [List.length_cons, maxProc] at count
        change processCount.toNat + 1 < 2 ^ 32
        omega
    simp only [List.length_cons] at count
    omega

/-- `release_PCB` on an entry in use. -/
theorem FreeEntries.push {pid : Pid}
    (entries : FreeEntries pstate parent pcbFreelist processCount) (used : pstate pid ≠ .free) :
    FreeEntries (update pstate pid .free) (update parent pid pcbFreelist) (some pid)
      (processCount - 1) := by
  obtain ⟨entries, chain, nodup, members, bounded, count⟩ := entries
  have absent : pid ∉ entries := fun member => used ((members pid).mp member).2
  have small := bounded pid used
  refine ⟨pid :: entries, chain.push absent, List.nodup_cons.mpr ⟨absent, nodup⟩, ?_, ?_, ?_⟩
  · intro other
    have member := members other
    grind
  · grind
  · have room : entries.length + 1 ≤ maxProc := by
      have inside : (pid :: entries) ⊆ List.range maxProc := by
        intro other member
        rcases List.mem_cons.mp member with rfl | member
        · exact List.mem_range.mpr small
        · exact List.mem_range.mpr ((members other).mp member).1
      have short := (List.nodup_cons.mpr ⟨absent, nodup⟩).length_le_of_subset inside
      simpa using short
    have shrinks : (processCount - 1).toNat = processCount.toNat - 1 := by
      rw [BitVec.toNat_sub_of_le]
      · rfl
      · rw [BitVec.le_def]
        change 1 ≤ processCount.toNat
        omega
    simp only [List.length_cons]
    omega

end TinyOs.Kernel
