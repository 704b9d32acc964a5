import Mathlib.Data.List.Count
import Mathlib.Logic.Relation
import TinyOs.ProcessTree

/-! Which processes and threads there are, as a state of its own. Every part of
a system call is either one of a few changes of the census or none. -/
namespace TinyOs.Kernel
open Function Library

structure Census where
  pstate : Pid → PidState
  parent : Pid → Option Pid
  exitval : Pid → Int
  threadCount : Pid → BitVec 32
  mainTask : Pid → Task
  childrenList : Pid → List Pid
  exitedList : Pid → List Pid
  pcbFreelist : Option Pid
  processCount : BitVec 32
  live : List TcbRef
  owner : TcbRef → Pid
  incarnation : Pid → Nat
  exitedWith : Pid → Int
  reaped : List Reap

def State.census (s : State) : Census where
  pstate := s.pt.pstate
  parent := s.pt.parent
  exitval := s.pt.exitval
  threadCount := s.pt.threadCount
  mainTask := s.pt.mainTask
  childrenList := s.pt.childrenList
  exitedList := s.pt.exitedList
  pcbFreelist := s.pt.pcbFreelist
  processCount := s.pt.processCount
  live := s.threads.live
  owner := s.threads.owner
  incarnation := s.history.incarnation
  exitedWith := s.history.exitedWith
  reaped := s.history.reaped

namespace Census

/-- How many threads of a process have not exited. -/
def population (c : Census) (pid : Pid) : Nat := c.live.countP fun thread => c.owner thread = pid

/-- A process without a thread is made from the free entry `pid`. -/
def fork (c : Census) (curproc pid : Pid) (call : Task) : Census :=
  { c with
    pstate := update c.pstate pid .alive
    parent := update c.parent pid (some curproc)
    childrenList := update c.childrenList curproc (pid :: c.childrenList curproc)
    threadCount := update c.threadCount pid 0
    mainTask := update c.mainTask pid call
    pcbFreelist := c.parent pid
    processCount := c.processCount + 1
    incarnation := update c.incarnation pid (c.incarnation pid + 1) }

/-- One of the two processes without a parent is made. -/
def enroll (c : Census) (pid : Pid) (call : Task) : Census :=
  { c with
    pstate := update c.pstate pid .alive
    parent := update c.parent pid none
    threadCount := update c.threadCount pid 0
    mainTask := update c.mainTask pid call
    pcbFreelist := c.parent pid
    processCount := c.processCount + 1
    incarnation := update c.incarnation pid (c.incarnation pid + 1) }

def spawn (c : Census) (pid : Pid) (thread : TcbRef) : Census :=
  { c with
    threadCount := update c.threadCount pid (c.threadCount pid + 1)
    live := thread :: c.live
    owner := update c.owner thread pid }

def reap (c : Census) (pid : Pid) : Census :=
  { c with
    pstate := update c.pstate pid .free
    parent := update c.parent pid c.pcbFreelist
    childrenList := fun above => (c.childrenList above).erase pid
    exitedList := fun above => (c.exitedList above).erase pid
    pcbFreelist := some pid
    processCount := c.processCount - 1
    reaped :=
      { pid := pid, incarnation := c.incarnation pid, pstate := c.pstate pid
        exitval := c.exitval pid, exitedWith := c.exitedWith pid } :: c.reaped }

def leave (c : Census) (thread : TcbRef) : Census :=
  { c with
    threadCount :=
      update c.threadCount (c.owner thread) (c.threadCount (c.owner thread) - 1)
    live := c.live.erase thread }

/-- An exited process is put in front of the exited children of its parent. -/
def enlist (pid : Pid) (exitedList : Pid → List Pid) : Option Pid → Pid → List Pid
  | none => exitedList
  | some above => update exitedList above (pid :: exitedList above)

/-- The children of `pid` and its exited children go to the initial process,
and `pid` to the exited children of its parent. -/
def terminate (c : Census) (pid : Pid) (exitval : Int) : Census :=
  let adopted := update (update c.exitedList pid []) 1 (c.exitedList 1 ++ c.exitedList pid)
  { c with
    pstate := update c.pstate pid .zombie
    parent := fun child => if child ∈ c.childrenList pid then some 1 else c.parent child
    exitval := update c.exitval pid exitval
    childrenList := update (update c.childrenList pid []) 1
      ((c.childrenList pid).reverse ++ c.childrenList 1)
    exitedList := enlist pid adopted (c.parent pid)
    exitedWith := update c.exitedWith pid exitval }

/-- What a thread may do to the census. It makes threads only if there are
`threads` besides the main ones, and it reaps children of other processes only
if there are `strays`. -/
inductive Move (threads strays : Prop) (thread : TcbRef) : Census → Census → Prop where
  /-- `Exec` without a task. -/
  | idle {c : Census} {pid : Pid} : thread ∈ c.live → c.pcbFreelist = some pid →
      Move threads strays thread c (c.fork (c.owner thread) pid 0)
  | exec {c : Census} {pid : Pid} {call : Task} {new : TcbRef} : thread ∈ c.live →
      c.pcbFreelist = some pid → call ≠ 0 → new < maxThreads → new ∉ c.live →
      Move threads strays thread c ((c.fork (c.owner thread) pid call).spawn pid new)
  | spawn {c : Census} {new : TcbRef} : threads → thread ∈ c.live → new < maxThreads →
      new ∉ c.live → Move threads strays thread c (c.spawn (c.owner thread) new)
  | reap {c : Census} {pid : Pid} : 2 ≤ pid → c.pstate pid = .zombie →
      (strays ∨ c.parent pid = some (c.owner thread)) →
      Move threads strays thread c (c.reap pid)
  | leave {c : Census} : thread ∈ c.live →
      (c.leave thread).threadCount (c.owner thread) ≠ 0 →
      Move threads strays thread c (c.leave thread)
  /-- The last thread of a process exits. -/
  | last {c : Census} {exitval : Int} : thread ∈ c.live →
      (c.leave thread).threadCount (c.owner thread) = 0 →
      (c.owner thread = 1 → c.childrenList 1 = []) →
      Move threads strays thread c ((c.leave thread).terminate (c.owner thread) exitval)

/-- A system call may change the census more than once. -/
abbrev Moves (threads strays : Prop) (thread : TcbRef) : Census → Census → Prop :=
  Relation.ReflTransGen (Move threads strays thread)

end Census

/-- The tables agree with each other and with what has happened. -/
structure CensusInv (c : Census) : Prop where
  tree : Tree c.pstate c.parent c.childrenList c.exitedList
  entries : FreeEntries c.pstate c.parent c.pcbFreelist c.processCount
  live_nodup : c.live.Nodup
  live_small : ∀ thread ∈ c.live, thread < maxThreads
  owners : ∀ thread ∈ c.live, c.pstate (c.owner thread) = .alive ∧ c.owner thread ≠ 0
  counted : ∀ pid, (c.threadCount pid).toNat = c.population pid
  zombies : ∀ pid, c.pstate pid = .zombie → c.exitval pid = c.exitedWith pid
  reaps : ∀ reap ∈ c.reaped, reap.pstate = .zombie ∧ reap.exitval = reap.exitedWith ∧
    reap.incarnation ≤ c.incarnation reap.pid ∧
    (reap.incarnation = c.incarnation reap.pid → c.pstate reap.pid = .free)
  reaped_once : (c.reaped.map fun reap => (reap.pid, reap.incarnation)).Nodup

/-- A process that was made with a task has a thread as long as it lives. -/
def Staffed (c : Census) : Prop :=
  ∀ pid, c.pstate pid = .alive → pid ≠ 0 → c.mainTask pid ≠ 0 → c.population pid ≠ 0

namespace CensusInv
variable {c : Census} {thread : TcbRef}

theorem population_zero (inv : CensusInv c) {pid : Pid} (idle : c.pstate pid ≠ .alive) :
    c.population pid = 0 := by
  rw [Census.population, List.countP_eq_zero]
  intro thread member
  have alive := (inv.owners thread member).1
  simp only [decide_eq_true_eq]
  rintro rfl
  exact idle alive

/-- There are fewer threads than fit into the counter. -/
theorem population_small (inv : CensusInv c) (pid : Pid) : c.population pid ≤ maxThreads := by
  have inside : c.live ⊆ List.range maxThreads := fun thread member =>
    List.mem_range.mpr (inv.live_small thread member)
  have short := inv.live_nodup.length_le_of_subset inside
  rw [List.length_range] at short
  exact List.countP_le_length.trans short

theorem pid_small (inv : CensusInv c) {pid : Pid} (used : c.pstate pid ≠ .free) :
    pid < maxProc := by
  obtain ⟨entries, -, -, -, bounded, -⟩ := inv.entries
  exact bounded pid used

/-- Processes 0 and 1 are never free. -/
theorem free_large (inv : CensusInv c) {pid : Pid} (first : c.pcbFreelist = some pid) :
    2 ≤ pid := by
  have entries := inv.entries
  rw [first] at entries
  have unused := (entries.pop none).1
  have null := inv.tree.null.1
  have init := inv.tree.init.1
  refine (Nat.two_le_iff pid).mpr ⟨?_, ?_⟩ <;> rintro rfl <;> simp_all

/-- Only processes from 2 on have a parent. -/
theorem child_large (inv : CensusInv c) {child parent : Pid}
    (link : c.parent child = some parent) (used : c.pstate child ≠ .free) : 2 ≤ child := by
  have null := inv.tree.null.2
  have init := inv.tree.init.2
  refine (Nat.two_le_iff child).mpr ⟨?_, ?_⟩ <;> rintro rfl <;> simp_all

theorem fork (inv : CensusInv c) {curproc pid : Pid} (call : Task)
    (first : c.pcbFreelist = some pid) (alive : c.pstate curproc = .alive)
    (positive : curproc ≠ 0) : CensusInv (c.fork curproc pid call) := by
  have entries := inv.entries
  rw [first] at entries
  obtain ⟨unused, entries⟩ := entries.pop (some curproc)
  have large := inv.free_large first
  have nobody : c.population pid = 0 := inv.population_zero (by simp [unused])
  constructor
  case tree => exact inv.tree.adopt large unused alive positive
  case entries => exact entries
  case live_nodup => exact inv.live_nodup
  case live_small => exact inv.live_small
  case owners =>
    have owners := inv.owners
    simp only [Census.fork, update_apply]
    grind
  case counted =>
    have counted := inv.counted
    intro other
    change (update c.threadCount pid 0 other).toNat = c.population other
    rw [update_apply]
    grind
  case zombies =>
    have zombies := inv.zombies
    simp only [Census.fork, update_apply]
    grind
  case reaps =>
    have reaps := inv.reaps
    intro reap member
    have before := reaps reap member
    simp only [Census.fork, update_apply]
    grind
  case reaped_once => exact inv.reaped_once

theorem population_spawn (new : thread ∉ c.live) (pid other : Pid) :
    (c.spawn pid thread).population other =
      c.population other + if other = pid then 1 else 0 := by
  have same : c.live.countP (fun t => update c.owner thread pid t = other) =
      c.population other := by
    apply List.countP_congr
    intro t member
    have apart : t ≠ thread := by
      rintro rfl
      exact new member
    rw [update_of_ne apart]
  change (thread :: c.live).countP (fun t => update c.owner thread pid t = other) = _
  rw [List.countP_cons, same, update_self]
  grind

theorem spawn (inv : CensusInv c) {pid : Pid} (alive : c.pstate pid = .alive)
    (positive : pid ≠ 0) (small : thread < maxThreads) (new : thread ∉ c.live) :
    CensusInv (c.spawn pid thread) := by
  constructor
  case tree => exact inv.tree
  case entries => exact inv.entries
  case live_nodup => exact List.nodup_cons.mpr ⟨new, inv.live_nodup⟩
  case live_small =>
    have live_small := inv.live_small
    simp only [Census.spawn]
    grind
  case owners =>
    have owners := inv.owners
    simp only [Census.spawn, update_apply]
    grind
  case counted =>
    intro other
    rw [population_spawn new]
    simp only [Census.spawn, update_apply]
    have counted := inv.counted
    have room := inv.population_small pid
    split
    next same =>
      subst other
      rw [BitVec.toNat_add, counted, Nat.mod_eq_of_lt]
      · rfl
      · simp only [maxThreads] at room
        change c.population pid + 1 < 2 ^ 32
        omega
    next => exact counted other
  case zombies => exact inv.zombies
  case reaps => exact inv.reaps
  case reaped_once => exact inv.reaped_once

theorem reap (inv : CensusInv c) {pid : Pid} (large : 2 ≤ pid) (zombie : c.pstate pid = .zombie) :
    CensusInv (c.reap pid) := by
  constructor
  case tree => exact inv.tree.reap large zombie c.pcbFreelist
  case entries => exact inv.entries.push (by simp [zombie])
  case live_nodup => exact inv.live_nodup
  case live_small => exact inv.live_small
  case owners =>
    have owners := inv.owners
    simp only [Census.reap, update_apply]
    grind
  case counted => exact inv.counted
  case zombies =>
    have zombies := inv.zombies
    simp only [Census.reap, update_apply]
    grind
  case reaps =>
    have reaps := inv.reaps
    have same := inv.zombies pid zombie
    intro reap member
    rcases List.mem_cons.mp member with rfl | member
    · exact ⟨zombie, same, le_refl _, fun _ => update_self ..⟩
    · have before := reaps reap member
      simp only [Census.reap, update_apply]
      grind
  case reaped_once =>
    refine List.nodup_cons.mpr ⟨?_, inv.reaped_once⟩
    intro again
    obtain ⟨reap, member, same⟩ := List.mem_map.mp again
    obtain ⟨-, -, -, freed⟩ := inv.reaps reap member
    simp only [Prod.mk.injEq] at same
    obtain ⟨rfl, current⟩ := same
    simp [zombie] at freed
    exact freed current

theorem population_leave (member : thread ∈ c.live) (other : Pid) :
    (c.leave thread).population other =
      c.population other - if other = c.owner thread then 1 else 0 := by
  change (c.live.erase thread).countP (fun t => c.owner t = other) = _
  rw [List.countP_erase, Census.population]
  grind

theorem population_pos (member : thread ∈ c.live) : 0 < c.population (c.owner thread) :=
  List.countP_pos_iff.mpr ⟨thread, member, by simp⟩

theorem leave (inv : CensusInv c) (member : thread ∈ c.live) : CensusInv (c.leave thread) := by
  have positive := population_pos member
  constructor
  case tree => exact inv.tree
  case entries => exact inv.entries
  case live_nodup => exact inv.live_nodup.erase thread
  case live_small => exact fun other there => inv.live_small other (List.mem_of_mem_erase there)
  case owners => exact fun other there => inv.owners other (List.mem_of_mem_erase there)
  case counted =>
    intro other
    rw [population_leave member]
    have counted := inv.counted
    simp only [Census.leave, update_apply]
    split
    next same =>
      subst other
      rw [BitVec.toNat_sub_of_le, counted]
      · rfl
      · rw [BitVec.le_def, counted]
        exact positive
    next => exact counted other
  case zombies => exact inv.zombies
  case reaps => exact inv.reaps
  case reaped_once => exact inv.reaped_once

theorem terminate (inv : CensusInv c) {pid : Pid} (exitval : Int) (positive : pid ≠ 0)
    (alive : c.pstate pid = .alive) (empty : c.population pid = 0)
    (childless : pid = 1 → c.childrenList pid = []) : CensusInv (c.terminate pid exitval) := by
  constructor
  case tree =>
    by_cases root : pid = 1
    · subst pid
      have childless := childless rfl
      have unexited : c.exitedList 1 = [] := by
        apply List.eq_nil_iff_forall_not_mem.mpr
        intro child exited
        obtain ⟨large, zombie, link⟩ := (inv.tree.exited child 1).mp exited
        have member := (inv.tree.children child 1).mpr ⟨large, by simp [zombie], link⟩
        simp [childless] at member
      have closed := inv.tree.close childless
      have children : update c.childrenList 1 [] = c.childrenList := by
        rw [← childless, update_eq_self]
      have exited : update c.exitedList 1 [] = c.exitedList := by
        rw [← unexited, update_eq_self]
      simpa [Census.terminate, Census.enlist, childless, unexited, inv.tree.init.2, children, exited] using closed
    · have large : 2 ≤ pid := (Nat.two_le_iff pid).mpr ⟨positive, root⟩
      obtain ⟨above, link, -⟩ := inv.tree.parented pid large (by simp [alive])
      have orphaned := inv.tree.orphan large alive link
      simpa only [Census.terminate, Census.enlist, link] using orphaned
  case entries =>
    refine inv.entries.frame ?_ ?_
    · intro other
      simp only [Census.terminate, update_apply]
      grind
    · intro other unused
      have child := (inv.tree.children other pid)
      simp only [Census.terminate]
      grind
  case live_nodup => exact inv.live_nodup
  case live_small => exact inv.live_small
  case owners =>
    intro thread member
    have owner := inv.owners thread member
    have other : c.owner thread ≠ pid := by
      rintro same
      have some_thread := population_pos (c := c) member
      rw [same] at some_thread
      omega
    simpa [Census.terminate, other] using owner
  case counted => exact inv.counted
  case zombies =>
    have zombies := inv.zombies
    simp only [Census.terminate, update_apply]
    grind
  case reaps =>
    have reaps := inv.reaps
    intro reap member
    have before := reaps reap member
    simp only [Census.terminate, update_apply]
    grind
  case reaped_once => exact inv.reaped_once

section
variable {d : Census} {threads strays : Prop}

theorem move (inv : CensusInv c) (moved : c.Move threads strays thread d) : CensusInv d := by
  cases moved with
  | idle member first =>
    obtain ⟨alive, positive⟩ := inv.owners thread member
    exact inv.fork 0 first alive positive
  | @exec pid call new member first task small fresh =>
    obtain ⟨alive, positive⟩ := inv.owners thread member
    refine (inv.fork call first alive positive).spawn (update_self ..) ?_ small fresh
    rintro rfl
    exact absurd (inv.free_large first) (by decide)
  | spawn _ member small fresh =>
    obtain ⟨alive, positive⟩ := inv.owners thread member
    exact inv.spawn alive positive small fresh
  | reap large zombie _ => exact inv.reap large zombie
  | leave member _ => exact inv.leave member
  | last member last childless =>
    obtain ⟨alive, positive⟩ := inv.owners thread member
    have left := inv.leave member
    refine left.terminate _ positive alive ?_ ?_
    · rw [← left.counted, last]
      rfl
    · intro root
      rw [root]
      exact childless root

theorem moves (inv : CensusInv c) (moved : c.Moves threads strays thread d) : CensusInv d := by
  induction moved with
  | refl => exact inv
  | tail _ last ih => exact ih.move last

end
end CensusInv

section
variable {c d : Census} {threads strays : Prop} {thread : TcbRef}

theorem Staffed.move (staffed : Staffed c) (inv : CensusInv c)
    (moved : c.Move threads strays thread d) : Staffed d := by
  intro other alive positive task
  have before := staffed other
  cases moved with
  | @idle pid _ first =>
    have different : other ≠ pid := by
      rintro rfl
      exact task (update_self ..)
    simp only [Census.fork, update_of_ne different] at alive task
    exact before alive positive task
  | @exec pid call _ _ first _ _ fresh =>
    rw [CensusInv.population_spawn (c := c.fork (c.owner thread) pid call) fresh]
    by_cases same : other = pid
    · simp [same]
    · simp only [Census.spawn, Census.fork, update_of_ne same] at alive task
      have some_thread := before alive positive task
      rw [if_neg same]
      exact some_thread
  | spawn _ _ _ fresh =>
    rw [CensusInv.population_spawn fresh]
    have some_thread := before alive positive task
    omega
  | @reap pid large zombie _ =>
    have different : other ≠ pid := by
      rintro rfl
      simp [Census.reap] at alive
    simp only [Census.reap, update_of_ne different] at alive
    exact before alive positive task
  | leave member more =>
    by_cases same : other = c.owner thread
    · have counted := (inv.leave member).counted (c.owner thread)
      subst other
      rw [← counted]
      intro none
      exact more (BitVec.eq_of_toNat_eq none)
    · rw [CensusInv.population_leave member]
      simpa [same] using before alive positive task
  | last member last childless =>
    have different : other ≠ c.owner thread := by
      rintro rfl
      simp [Census.terminate] at alive
    change (c.leave thread).population other ≠ 0
    rw [CensusInv.population_leave member]
    simp only [Census.terminate, update_of_ne different] at alive
    simpa [different] using before alive positive task

theorem Staffed.moves (staffed : Staffed c) (inv : CensusInv c)
    (moved : c.Moves threads strays thread d) : Staffed d := by
  induction moved with
  | refl => exact staffed
  | tail earlier last ih => exact ih.move (inv.moves earlier) last

end
end TinyOs.Kernel
