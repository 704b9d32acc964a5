import TinyOs.KernelExit
import TinyOs.ProcessTreeSafety

/-! The end of processes: whether `sys_ThreadExit` gets to its end in the last
thread of a process, and what is left when the initial process ends. -/
namespace TinyOs.Kernel
open Function Library

namespace State
variable {s t : State} {pid : Pid}

/-- One round of the re-parenting loop of `sys_ThreadExit`. -/
def reparentRound (s : State) (pid child : Pid) (rest : List Pid) : State :=
  let s := { s with
    pt.childrenList := update s.pt.childrenList pid rest
    pt.parent := update s.pt.parent child (some 1) }
  { s with pt.childrenList := update s.pt.childrenList 1 (child :: s.pt.childrenList 1) }

/-- The re-parenting loop, if it ends after fewer than `fuel` rounds. -/
def reparentLoop : Nat → State → Pid → Option State
  | 0, _, _ => none
  | fuel + 1, s, pid =>
    match s.pt.childrenList pid with
    | [] => some s
    | child :: rest => reparentLoop fuel (s.reparentRound pid child rest) pid

/-- The end of a process with its loop run round by round. -/
def terminateLoop (fuel : Nat) (s : State) (pid : Pid) (exitval : Int) : Option State :=
  (((s.setExitval pid exitval).cleanUpFidt pid).reparentLoop fuel pid).map fun s =>
    let s := (s.adoptExited pid).tellParent pid
    { s with pt.pstate := update s.pt.pstate pid .zombie }

/-- `sys_ThreadExit` with its loop run round by round. -/
def sysThreadExitLoop (fuel : Nat) (s : State) (thread : TcbRef) (exitval : Int) : Option State :=
  let curproc := s.curproc thread
  let s := (s.exitPtcb (s.threads.ptcb thread) exitval).uncountThread curproc
  if s.pt.threadCount curproc = 0 then
    (s.terminateLoop fuel curproc exitval).map fun s => s.kernelSleepExited thread
  else some (s.kernelSleepExited thread)

/-- The loop of another process than the initial one takes a child off its list
in every round. -/
theorem reparentLoop_other (apart : pid ≠ 1) {fuel : Nat}
    (enough : (s.pt.childrenList pid).length < fuel) :
    s.reparentLoop fuel pid = some (s.reparent pid (s.pt.childrenList pid)) := by
  induction fuel generalizing s with
  | zero => exact absurd enough (Nat.not_lt_zero _)
  | succ fuel ih =>
    unfold reparentLoop
    split
    next none =>
      rw [none]
      rfl
    next child rest children =>
      have popped : (s.reparentRound pid child rest).pt.childrenList pid = rest := by
        simp [reparentRound, apart]
      rw [children, List.length_cons, Nat.add_lt_add_iff_right] at enough
      rw [ih (by rw [popped]; exact enough), popped, children]
      rfl

/-- The initial process puts each child it takes back in front of its list. -/
theorem reparentLoop_init (some_child : s.pt.childrenList 1 ≠ []) (fuel : Nat) :
    s.reparentLoop fuel 1 = none := by
  induction fuel generalizing s with
  | zero => rfl
  | succ fuel ih =>
    unfold reparentLoop
    split
    next none => exact absurd none some_child
    next child rest children =>
      apply ih
      simp [reparentRound]

theorem reparentLoop_sound (apart : pid ≠ 1) {fuel : Nat}
    (ends : s.reparentLoop fuel pid = some t) : t = s.reparent pid (s.pt.childrenList pid) := by
  induction fuel generalizing s with
  | zero => cases ends
  | succ fuel ih =>
    unfold reparentLoop at ends
    split at ends
    next none =>
      obtain rfl := Option.some.inj ends
      rw [none]
      rfl
    next child rest children =>
      have popped : (s.reparentRound pid child rest).pt.childrenList pid = rest := by
        simp [reparentRound, apart]
      rw [ih ends, popped, children]
      rfl

/-- When the loop ends, and how. -/
theorem reparentLoop_iff (s : State) (pid : Pid) (t : State) :
    (∃ fuel, s.reparentLoop fuel pid = some t) ↔
      ¬ (pid = 1 ∧ s.pt.childrenList pid ≠ []) ∧ t = s.reparent pid (s.pt.childrenList pid) := by
  by_cases init : pid = 1
  · subst init
    by_cases none : s.pt.childrenList 1 = []
    · have once : ∀ fuel, s.reparentLoop (fuel + 1) 1 = some s := by
        intro fuel
        unfold reparentLoop
        rw [none]
      rw [none]
      constructor
      · rintro ⟨fuel, ends⟩
        cases fuel with
        | zero => cases ends
        | succ fuel => exact ⟨by simp, (Option.some.inj ((once fuel).symm.trans ends)).symm⟩
      · rintro ⟨-, rfl⟩
        exact ⟨1, once 0⟩
    · simp [reparentLoop_init none, none]
  · constructor
    · rintro ⟨fuel, ends⟩
      exact ⟨fun both => init both.1, reparentLoop_sound init ends⟩
    · rintro ⟨-, rfl⟩
      exact ⟨_, reparentLoop_other init (Nat.lt_succ_self _)⟩

theorem terminateLoop_iff {exitval : Int} :
    (∃ fuel, terminateLoop fuel s pid exitval = some t) ↔ s.terminate pid exitval = some t := by
  have loop := fun t => reparentLoop_iff ((s.setExitval pid exitval).cleanUpFidt pid) pid t
  unfold terminateLoop terminate
  dsimp only
  generalize (s.setExitval pid exitval).cleanUpFidt pid = s' at loop
  constructor
  · rintro ⟨fuel, ends⟩
    obtain ⟨looped, goes, rfl⟩ := Option.map_eq_some_iff.mp ends
    obtain ⟨free, rfl⟩ := (loop looped).mp ⟨fuel, goes⟩
    rw [if_neg free]
  · intro ends
    split at ends
    · cases ends
    next free =>
      obtain rfl := Option.some.inj ends
      obtain ⟨fuel, goes⟩ := (loop _).mpr ⟨free, rfl⟩
      exact ⟨fuel, by rw [goes]; rfl⟩

/-- `sys_ThreadExit` is what its loop does, if that ends. -/
theorem sysThreadExitLoop_iff {thread : TcbRef} {exitval : Int} :
    (∃ fuel, sysThreadExitLoop fuel s thread exitval = some t) ↔
      s.sysThreadExit thread exitval = some t := by
  unfold sysThreadExitLoop sysThreadExit
  dsimp only
  split
  · simp only [Option.map_eq_some_iff, ← terminateLoop_iff]
    constructor
    · rintro ⟨fuel, ended, terminated, rfl⟩
      exact ⟨ended, ⟨fuel, terminated⟩, rfl⟩
    · rintro ⟨ended, ⟨fuel, terminated⟩, rfl⟩
      exact ⟨fuel, ended, terminated, rfl⟩
  · simp

variable {thread : TcbRef} {exitval : Int}

theorem sysThreadExit_ends (exitval : Int) (inv : CensusInv s.census)
    (childless : s.curproc thread = 1 → s.pt.childrenList 1 = []) :
    ∃ t, s.sysThreadExit thread exitval = some t := by
  unfold sysThreadExit
  dsimp only
  have left : ((s.exitPtcb (s.threads.ptcb thread) exitval).uncountThread
      (s.curproc thread)).pt.childrenList = s.pt.childrenList :=
    congrArg Census.childrenList (census_exitPtcb (s := s) (s.threads.ptcb thread) exitval)
  split
  · have ended := census_terminate (s := (s.exitPtcb (s.threads.ptcb thread) exitval).uncountThread
      (s.curproc thread)) (fun root : s.curproc thread = 1 => by
        rw [left, root]
        exact childless root) (by
        rw [left]
        exact inv.tree.not_own_child (s.curproc thread)) exitval
    obtain ⟨t, terminated, -⟩ := Option.map_eq_some_iff.mp ended
    exact ⟨_, by rw [terminated]; rfl⟩
  · exact ⟨_, rfl⟩

theorem sysThreadExit_last (inv : CensusInv s.census)
    (last : s.pt.threadCount (s.curproc thread) = 1)
    (exited : s.sysThreadExit thread exitval = some t) :
    (s.curproc thread = 1 → s.pt.childrenList 1 = []) ∧
      t.census = (s.census.leave thread).terminate (s.curproc thread) exitval := by
  have none : (s.census.leave thread).threadCount (s.curproc thread) = 0 := by
    change update s.pt.threadCount (s.curproc thread) (s.pt.threadCount (s.curproc thread) - 1)
      (s.curproc thread) = 0
    rw [update_self, last]
    rfl
  obtain ⟨-, childless, same⟩ | ⟨more, -⟩ := sysThreadExit_census inv exited
  · exact ⟨childless, same⟩
  · exact absurd none more

/-- The last `sys_ThreadExit` of a process gets past its loop, leaves nothing in
the lists of the process, and every child in the list of the initial one. -/
def Completes (s : State) (thread : TcbRef) (exitval : Int) : Prop :=
  ∃ fuel t, sysThreadExitLoop fuel s thread exitval = some t ∧
    t.pt.childrenList (s.curproc thread) = [] ∧ t.pt.exitedList (s.curproc thread) = [] ∧
    ∀ child ∈ s.pt.childrenList (s.curproc thread), ∀ above,
      (t.pt.childrenList above).count child = if above = 1 then 1 else 0

theorem completes_iff (inv : CensusInv s.census) (live : thread ∈ s.threads.live)
    (last : s.pt.threadCount (s.curproc thread) = 1) :
    s.Completes thread exitval ↔ ¬ (s.curproc thread = 1 ∧ s.pt.childrenList 1 ≠ []) := by
  constructor
  · rintro ⟨fuel, t, ends, -⟩ ⟨root, children⟩
    have exited := sysThreadExitLoop_iff.mp ⟨fuel, ends⟩
    exact children ((sysThreadExit_last inv last exited).1 root)
  · intro free
    have childless : s.curproc thread = 1 → s.pt.childrenList 1 = [] := by
      intro root
      by_contra children
      exact free ⟨root, children⟩
    obtain ⟨t, exited⟩ := sysThreadExit_ends exitval inv childless
    obtain ⟨fuel, ends⟩ := sysThreadExitLoop_iff.mpr exited
    have after := (sysThreadExit_last inv last exited).2
    have moved : s.census.Move False False thread t.census := sysThreadExit_move inv live exited
    have kept : CensusInv t.census := inv.move moved
    have zombie : t.census.pstate (s.curproc thread) = .zombie := by
      rw [after]
      exact update_self ..
    obtain ⟨none, no_zombies⟩ := kept.childless (fun alive => nomatch zombie.symm.trans alive)
    refine ⟨fuel, t, ends, none, no_zombies, fun child member above => ?_⟩
    obtain ⟨large, used, -⟩ := (inv.tree.children child (s.curproc thread)).mp member
    have link : t.census.parent child = some 1 := by
      rw [after]
      exact if_pos member
    have still : t.census.pstate child ≠ .free := by
      rw [after]
      simp only [Census.terminate, update_apply]
      split
      · decide
      · exact used
    change (t.census.childrenList above).count child = _
    have listed := kept.tree.children child above
    split
    next root =>
      subst root
      exact List.count_eq_one_of_mem (kept.tree.children_nodup 1) (listed.mpr ⟨large, still, link⟩)
    next other =>
      refine List.count_eq_zero.mpr fun member => other ?_
      exact Option.some.inj ((listed.mp member).2.2.symm.trans link)

end State

/-- The machine whose threads do not go on with a PCB that has become free, or
with a target that has been detached. -/
def keptMachine : Machine State Label :=
  machine.restrict fun s label => s.childKept label && s.targetKept label

theorem keptMachine_step {s t : State} {label : Label} (moved : keptMachine.step s label = some t) :
    s.childKept label = true ∧ s.targetKept label = true ∧ machine.step s label = some t := by
  obtain ⟨offered, moved⟩ := Machine.restrict_step.mp moved
  rw [Bool.and_eq_true] at offered
  exact ⟨offered.1, offered.2, moved⟩

theorem Sound.of_reachable {s : State} (reached : keptMachine.Reachable s) : Sound s :=
  reached.induction (fun _ booted => .boot booted) fun _ _ _ sound moved =>
    let ⟨child, target, moved⟩ := keptMachine_step moved
    sound.step child target moved

/-- **The last thread of a process gets to its end** exactly when it does not
end the initial process by `ThreadExit` while that has children. -/
theorem termination_completes_iff {s s' : State} (reached : keptMachine.Reachable s)
    {label : Label} {thread : TcbRef} {exitval : Int}
    (begins : s.exitCall label = some (s', thread, exitval))
    (last : s'.pt.threadCount (s'.curproc thread) = 1) :
    s'.Completes thread exitval ↔ ¬ (label = .threadExit thread exitval ∧ s.curproc thread = 1 ∧
      s.pt.childrenList 1 ≠ []) := by
  obtain ⟨-, -, live, -, drains, how⟩ := exitCall_begins begins
  have sound := Sound.of_reachable reached
  have inv := sound.census.moves (drains.moves sound.census False False)
  have roster := drains.roster
  have live' : thread ∈ s'.threads.live := by
    change thread ∈ s'.roster.live
    rw [roster]
    exact live
  have owner : s'.curproc thread = s.curproc thread :=
    congrArg (fun r : Roster => r.owner thread) roster
  rw [State.completes_iff inv live' last, not_iff_not]
  obtain ⟨rfl, threadExit | other⟩ | ⟨exit, childless⟩ := how
  · simp [threadExit]
  · simp [other]
  · constructor
    · rintro ⟨root, children⟩
      rw [root] at childless
      exact absurd childless children
    · rintro ⟨threadExit, -⟩
      exact absurd threadExit exit

/-- The initial process, left alone, may end either way. -/
theorem termination_completes_iff_alone :
    booted.exitCall (.threadExit 0 7) = some (booted, 0, 7) ∧ booted.Completes 0 7 :=
  have reached : keptMachine.Reachable booted := .start booted_initial
  have begins : booted.exitCall (.threadExit 0 7) = some (booted, 0, 7) := rfl
  ⟨begins, (termination_completes_iff reached begins rfl).mpr (by decide)⟩

/-- The boot task has a child and calls `ThreadExit`. -/
def childOfInit : List Label := [.exec 0 1 0 0 [] 2 1]

theorem termination_stuck : ¬ ∀ s, keptMachine.Reachable s → ∀ label s' thread exitval,
    s.exitCall label = some (s', thread, exitval) →
    s'.pt.threadCount (s'.curproc thread) = 1 → s'.Completes thread exitval := by
  intro every
  have reached : keptMachine.Reachable booted := .start booted_initial
  have reached := reached.replay childOfInit rfl
  obtain ⟨fuel, t, ends, -⟩ := every _ reached (.threadExit 0 7) _ 0 7 rfl rfl
  have exited := State.sysThreadExitLoop_iff.mp ⟨fuel, ends⟩
  cases exited

/-! ### The end of the initial process -/

/-- The thread of the initial process gets past the `WaitChild` loop of
`sys_Exit` and leaves. -/
def State.InitPasses (s : State) (label : Label) : Prop :=
  ∃ thread t, label.thread = some thread ∧ thread ∈ s.threads.live ∧ s.curproc thread = 1 ∧
    processMachine.step s label = some t ∧ thread ∉ t.threads.live

/-- Only the null process and the initial one are left, without threads. -/
structure Deserted (c : Census) : Prop where
  nobody : c.live = []
  free : ∀ pid, 2 ≤ pid → c.pstate pid = .free

namespace Census
variable {c d : Census} {threads strays : Prop} {thread : TcbRef}

/-- When the initial process has no children there are no others. -/
theorem free_of_childless (inv : CensusInv c) (childless : c.childrenList 1 = []) {pid : Pid}
    (large : 2 ≤ pid) : c.pstate pid = .free := by
  by_contra used
  obtain ⟨rank, -, lower⟩ := inv.tree.ranked
  have none : ∀ n pid, rank pid = n → 2 ≤ pid → c.pstate pid ≠ .free → False := by
    intro n
    induction n using Nat.strong_induction_on with
    | h n ih =>
      rintro pid rfl large used
      obtain ⟨above, link, alive, positive⟩ := inv.tree.parented pid large used
      by_cases root : above = 1
      · subst root
        have member := (inv.tree.children pid 1).mpr ⟨large, used, link⟩
        rw [childless] at member
        cases member
      · exact ih _ (lower pid above large used link) above rfl
          ((Nat.two_le_iff above).mpr ⟨positive, root⟩) (fun free => nomatch alive.symm.trans free)
  exact none _ pid rfl large used

/-- As long as a thread of the initial process goes on it is there, and when it
is not there is nothing else. -/
theorem Move.init (inv : CensusInv c) (moved : c.Move False strays thread d)
    (alone : ∀ pid, c.population pid ≤ 1)
    (here : thread ∈ c.live ∧ c.owner thread = 1 ∨ Deserted c) :
    thread ∈ d.live ∧ d.owner thread = 1 ∨ Deserted d := by
  have living : ∀ member : thread ∈ c.live, c.owner thread = 1 := fun member =>
    here.elim And.right fun deserted => by
      rw [deserted.nobody] at member
      cases member
  cases moved with
  | idle member => exact .inl ⟨member, living member⟩
  | @exec pid call new member first task small fresh =>
    have apart : thread ≠ new := by
      rintro rfl
      exact fresh member
    exact .inl ⟨List.mem_cons_of_mem _ member, (update_of_ne apart ..).trans (living member)⟩
  | spawn impossible => exact impossible.elim
  | reap large zombie =>
    obtain ⟨member, own⟩ | deserted := here
    · exact .inl ⟨member, own⟩
    · cases zombie.symm.trans (deserted.free _ large)
  | leave member more =>
    have one : c.population (c.owner thread) = 1 :=
      Nat.le_antisymm (alone _) (CensusInv.population_pos member)
    refine absurd ?_ more
    have count := inv.counted (c.owner thread)
    rw [one] at count
    change update c.threadCount (c.owner thread) (c.threadCount (c.owner thread) - 1) _ = 0
    rw [update_self]
    exact BitVec.eq_of_toNat_eq (by simp [BitVec.toNat_sub, count])
  | last member _ childless =>
    have own := living member
    have free : ∀ pid, 2 ≤ pid → c.pstate pid = .free :=
      fun pid large => free_of_childless inv (childless own) large
    refine .inr ⟨?_, fun pid large => ?_⟩
    · apply List.eq_nil_iff_forall_not_mem.mpr
      intro other left
      obtain ⟨apart, member_other⟩ := inv.live_nodup.mem_erase_iff.mp left
      obtain ⟨alive, positive⟩ := inv.owners other member_other
      have root : c.owner other = 1 := by
        by_contra not_root
        have large := (Nat.two_le_iff (c.owner other)).mpr ⟨positive, not_root⟩
        cases alive.symm.trans (free _ large)
      exact apart (same_of_alone alone member_other member (root.trans own.symm))
    · have apart : pid ≠ c.owner thread := by
        rintro rfl
        rw [own] at large
        exact absurd large (by decide)
      exact (update_of_ne apart ..).trans (free pid large)

theorem Moves.init (inv : CensusInv c) (moved : c.Moves False strays thread d)
    (alone : ∀ pid, c.population pid ≤ 1)
    (here : thread ∈ c.live ∧ c.owner thread = 1 ∨ Deserted c) :
    thread ∈ d.live ∧ d.owner thread = 1 ∨ Deserted d := by
  induction moved with
  | refl => exact here
  | tail earlier last ih =>
    exact last.init (inv.moves earlier) (Moves.alone inv earlier alone) ih

end Census

theorem Solo.of_reachable {s : State} (reached : processMachine.Reachable s) : Solo s :=
  reached.induction (fun _ => .boot) fun _ _ _ solo moved => solo.step moved

/-- Without threads nothing happens to the processes. -/
theorem Solo.deserted {s t : State} {label : Label} (solo : Solo s) (deserted : Deserted s.census)
    (moved : processMachine.step s label = some t) : Deserted t.census := by
  obtain ⟨offered, moved⟩ := Machine.restrict_step.mp moved
  have moves := solo.moves offered (act_of_step moved)
  split at moves
  · have member : _ ∈ s.census.live := moves.1
    rw [deserted.nobody] at member
    cases member
  · rw [moves]
    exact deserted

theorem Solo.passes {s t : State} {label : Label} (solo : Solo s) (passes : s.InitPasses label)
    (moved : processMachine.step s label = some t) : Deserted t.census := by
  obtain ⟨thread, after, own, live, init, moved', gone⟩ := passes
  obtain rfl := Option.some.inj (moved'.symm.trans moved)
  obtain ⟨offered, moved⟩ := Machine.restrict_step.mp moved
  have moves := solo.moves offered (act_of_step moved)
  rw [own] at moves
  obtain ⟨here, -⟩ | deserted := moves.2.init solo.census solo.alone (.inl ⟨live, init⟩)
  · exact absurd here gone
  · exact deserted

/-- **The initial process finishes last.** In a run of `Exec`, `Exit` and
`WaitChild` in which every process has one thread, no other process is left
from the moment the initial one gets past its loop. -/
theorem init_finishes_last {past : List (State × Label)} {last : State}
    (run : processMachine.Run past last) {left : State × Label} (taken : left ∈ past)
    (passes : left.1.InitPasses left.2) : ∀ pid, 2 ≤ pid → last.pt.pstate pid = .free := by
  suffices deserted : Deserted last.census from deserted.free
  induction run with
  | start => cases taken
  | @step past s t label run moved ih =>
    have solo := Solo.of_reachable ⟨past, run⟩
    rcases List.mem_cons.mp taken with rfl | earlier
    · exact solo.passes passes moved
    · exact solo.deserted (ih earlier) moved

/-- The initial process waits for a child and for the orphan it leaves. -/
theorem init_finishes_last_orphan : ∃ past last, processMachine.Run past last ∧
    last.history.reaped.length = 2 ∧ ∀ pid, 2 ≤ pid → last.pt.pstate pid = .free := by
  have run := Machine.Run.start (M := processMachine) booted_initial
  have run := (((((run.next (.exec 0 1 0 0 [] 2 1) rfl).next (.exec 1 1 0 0 [] 3 2) rfl).next
    (.exit 0 0) rfl).next (.exit 1 7) rfl).next (.exit 2 8) rfl).next (.resume 0 0) rfl
  refine ⟨_, _, run, rfl, init_finishes_last run List.mem_cons_self ?_⟩
  exact ⟨0, _, rfl, by decide, rfl, rfl, by decide⟩

end TinyOs.Kernel
