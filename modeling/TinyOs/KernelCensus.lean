import TinyOs.Census
import TinyOs.KernelCases

/-! What each function of the kernel does to the census. -/
namespace TinyOs.Kernel
open Function Library

namespace State
variable {s : State} {threads strays : Prop}

/-! ### Functions that leave the census alone -/

@[simp] theorem census_setStatus (thread : TcbRef) (status : Status) :
    (s.setStatus thread status).census = s.census := rfl

/-- What a thread is doing is not in the census. -/
@[simp] theorem census_ret (thread : TcbRef) (value : Int) :
    (s.ret thread value).census = s.census := rfl

@[simp] theorem census_kernelWait (thread : TcbRef) (wait : Wait) :
    (s.kernelWait thread wait).census = s.census := rfl

@[simp] theorem census_kernelBroadcast (cv : Cv) : (s.kernelBroadcast cv).census = s.census := rfl

@[simp] theorem census_crash (crash : Crash) : (s.crash crash).census = s.census := rfl

/-- Nor are fids. -/
@[simp] theorem census_setFid (pid : Pid) (fid : Nat) (fcb : Option FcbRef) :
    (s.setFid pid fid fcb).census = s.census := rfl

@[simp] theorem census_freePtcb (ptcb : PtcbRef) : (s.freePtcb ptcb).census = s.census := rfl

@[simp] theorem census_recordJoin (serial : Nat) (exitval : Pointer) (result : Option Int) :
    (s.recordJoin serial exitval result).census = s.census := by
  unfold recordJoin
  split <;> rfl

/-- Streams do not count. -/
@[simp] theorem census_openStream (thread : TcbRef) (device : Device) :
    (s.openStream thread device).census = s.census := by
  obtain same | ⟨fid, fcb, rest, -, -, -, same | same⟩ := openStream_cases (s := s) thread device
  all_goals
    rw [same]
    rfl

/-- A read that waits and one that returns leave the census alone. -/
@[simp] theorem census_deviceRead (thread : TcbRef) (fcb : FcbRef) (size : BitVec 32)
    (ready : Nat) (device : Device) :
    (s.deviceRead thread fcb size ready device).census = s.census := by
  obtain same | ⟨count, same⟩ := deviceRead_cases (s := s) thread fcb size ready device
  all_goals
    rw [same]
    rfl

@[simp] theorem census_deviceWrite (thread : TcbRef) (fcb : FcbRef) (size : BitVec 32)
    (ready : Nat) (device : Device) :
    (s.deviceWrite thread fcb size ready device).census = s.census := by
  obtain ⟨writer, same | ⟨count, same⟩⟩ :=
    deviceWrite_cases (s := s) thread fcb size ready device
  all_goals
    rw [same]
    rfl

/-- A read holds the FCB, and nothing else. -/
@[simp] theorem census_sysRead (thread : TcbRef) (fd : Int) (size : BitVec 32) (ready : Nat) :
    (s.sysRead thread fd size ready).census = s.census := by
  obtain same | ⟨fid, fcb, -, -, same⟩ := sysRead_cases (s := s) thread fd size ready
  · rw [same, census_ret]
  · rw [same, census_deviceRead]
    rfl

@[simp] theorem census_sysWrite (thread : TcbRef) (fd : Int) (size : BitVec 32) (ready : Nat) :
    (s.sysWrite thread fd size ready).census = s.census := by
  obtain same | ⟨fid, fcb, -, -, same⟩ := sysWrite_cases (s := s) thread fd size ready
  · rw [same, census_ret]
  · rw [same, census_deviceWrite]
    rfl

/-- `sys_Close` empties one slot of the FIDT. -/
@[simp] theorem census_sysClose (thread : TcbRef) (fd : Int) :
    (s.sysClose thread fd).census = s.census := by
  obtain ⟨value, same⟩ | ⟨fid, fcb, -, -, same⟩ := sysClose_cases (s := s) thread fd
  all_goals
    rw [same]
    rfl

/-- `sys_Dup2` fills one. -/
@[simp] theorem census_sysDup2 (thread : TcbRef) (oldfd newfd : Int) :
    (s.sysDup2 thread oldfd newfd).census = s.census := by
  obtain ⟨value, same⟩ | ⟨old, new, fcb, -, -, -, ⟨-, same⟩ | ⟨other, -, -, same⟩⟩ :=
    sysDup2_cases (s := s) thread oldfd newfd
  all_goals
    rw [same]
    rfl

/-- The handler broadcasts on each terminal. -/
@[simp] theorem census_rxReady : s.rxReady.census = s.census := by
  unfold rxReady
  exact foldl_same State.census (fun s devno => census_kernelBroadcast (.rxReady (.serial devno))) _ s

/-- The flag of a PTCB does not count. -/
@[simp] theorem census_sysThreadDetach (thread : TcbRef) (tid : PtcbRef) :
    (s.sysThreadDetach thread tid).census = s.census := by
  unfold sysThreadDetach
  split
  · rfl
  · split <;> rfl

/-- The loop over the FIDT of a process that ends. -/
@[simp] theorem census_cleanUpFidt (pid : Pid) : (s.cleanUpFidt pid).census = s.census := by
  refine foldl_same State.census (fun s fid => ?_) _ s
  unfold closeFid
  split <;> rfl

/-- A thread that exits is counted until `sys_ThreadExit` counts it out. -/
@[simp] theorem census_exitPtcb (ptcb : PtcbRef) (exitval : Int) :
    (s.exitPtcb ptcb exitval).census = s.census := by
  unfold exitPtcb
  dsimp only
  split <;> split <;> rfl

@[simp] theorem census_refPtcb (ptcb : PtcbRef) : (s.refPtcb ptcb).census = s.census := rfl

@[simp] theorem census_unrefPtcb (ptcb : PtcbRef) : (s.unrefPtcb ptcb).census = s.census := by
  unfold unrefPtcb
  split <;> rfl

/-- A joiner that waits on or returns. -/
theorem census_joinLoop {thread : TcbRef} {ptcb : PtcbRef} (undetached : s.heap.detached ptcb = false)
    (exitval : Pointer) (serial : Nat) :
    (s.joinLoop thread ptcb exitval serial).census = s.census := by
  obtain ⟨-, same⟩ | ⟨-, same⟩ := joinLoop_undetached undetached thread exitval serial
  all_goals
    rw [same]
    simp only [census_kernelWait, census_ret, census_recordJoin, census_unrefPtcb]

/-- A joiner of a thread that has been detached decrements the `thread_count` of its own
process. -/
theorem census_joinLoop_detached {thread : TcbRef} {ptcb : PtcbRef}
    (detached : s.heap.detached ptcb = true) (exitval : Pointer) (serial : Nat) :
    (s.joinLoop thread ptcb exitval serial).census =
      { s.census with
        threadCount := update s.census.threadCount (s.curproc thread)
          (s.census.threadCount (s.curproc thread) - 1) } := by
  rw [joinLoop_detached detached]
  have same : ((s.unrefPtcb ptcb).recordJoin serial exitval (some 0)).census = s.census := by
    rw [census_recordJoin, census_unrefPtcb]
  rw [← same]
  rfl

/-- `sys_ThreadJoin` up to its loop. -/
@[simp] theorem census_sysThreadJoin (thread : TcbRef) (tid : PtcbRef) (exitval : Pointer) :
    (s.sysThreadJoin thread tid exitval).census = s.census := by
  obtain same | same | ⟨-, -, ⟨-, -, same⟩ | ⟨-, -, same⟩ | ⟨-, same⟩⟩ :=
    sysThreadJoin_cases (s := s) thread tid exitval
  all_goals
    rw [same]
    simp only [census_kernelWait, census_ret, census_crash, census_recordJoin, census_refPtcb]

/-! ### Functions that change it -/

/-- A thread is made in a process. -/
@[simp] theorem census_createPtcb (pid : Pid) (task : Task) (argl : Int) (args : Pointer)
    (ptcb : PtcbRef) (tcb : TcbRef) :
    (s.createPtcb pid task argl args ptcb tcb).census = s.census.spawn pid tcb := rfl

/-- A zombie is reaped. -/
@[simp] theorem census_cleanupZombie (child : Pid) (status : Pointer) :
    (s.cleanupZombie child status).census = s.census.reap child := rfl

/-- A new process has the fids of its parent. -/
@[simp] theorem census_inheritFidt (curproc newproc : Pid) :
    (s.inheritFidt curproc newproc).census = s.census := by
  refine foldl_same State.census (fun s fid => ?_) _ s
  unfold inheritFid
  dsimp only
  split <;> rfl

/-- Without a free entry `sys_Exec` does nothing, else it makes a process, with
a thread if it has a task. -/
theorem census_exec {curproc pid : Pid} (first : s.pt.pcbFreelist = some pid) (large : 2 ≤ pid)
    (call : Task) (argl : Int) (args : Pointer) (bytes : List (BitVec 8)) (ptcb : PtcbRef)
    (tcb : TcbRef) :
    (s.exec curproc call argl args bytes ptcb tcb).2.census =
      if call ≠ 0 then (s.census.fork curproc pid call).spawn pid tcb
      else s.census.fork curproc pid call := by
  have larger : ¬ pid ≤ 1 := by
    intro small
    exact absurd (large.trans small) (by decide)
  have forked : ∀ s' : State,
      s'.census = { s.census.fork curproc pid call with mainTask := s.pt.mainTask } →
      (s'.setTask pid call argl args bytes).census = s.census.fork curproc pid call := by
    intro s' same
    change { s'.census with mainTask := update s'.census.mainTask pid call } = _
    rw [same]
    rfl
  unfold exec acquirePcb
  simp only [first, inherit, larger, if_false]
  split
  next task =>
    rw [census_createPtcb, forked _ ((census_inheritFidt ..).trans rfl)]
  next idle =>
    rw [forked _ ((census_inheritFidt ..).trans rfl)]

/-- `sys_Exec` without a free PCB. -/
theorem exec_full (full : s.pt.pcbFreelist = none) (curproc : Pid)
    (call : Task) (argl : Int) (args : Pointer) (bytes : List (BitVec 8)) (ptcb : PtcbRef)
    (tcb : TcbRef) : s.exec curproc call argl args bytes ptcb tcb = (getPid none, s) := by
  unfold exec acquirePcb
  rw [full]

/-! ### The end of a thread -/

/-- The children of a process become children of the initial one. -/
theorem census_reparent {pid : Pid} (apart : pid ≠ 1) (children : List Pid)
    (mine : s.pt.childrenList pid = children) :
    (s.reparent pid children).census =
      { s.census with
        parent := fun child => if child ∈ children then some 1 else s.pt.parent child
        childrenList := update (update s.pt.childrenList pid []) 1
          (children.reverse ++ s.pt.childrenList 1) } := by
  induction children generalizing s with
  | nil =>
    have own : update s.pt.childrenList pid [] = s.pt.childrenList := by rw [← mine, update_eq_self]
    simp [reparent, own, census]
  | cons child rest ih =>
    rw [reparent, ih (by simp [apart])]
    have parents : (fun other => if other ∈ rest then some 1
          else update s.pt.parent child (some 1) other) =
        fun other => if other ∈ child :: rest then some 1 else s.pt.parent other := by
      funext other
      by_cases same : other = child <;> simp [same]
    have lists : update (update (update (update s.pt.childrenList pid rest) 1
          (child :: s.pt.childrenList 1)) pid []) 1 (rest.reverse ++ child :: s.pt.childrenList 1) =
        update (update s.pt.childrenList pid []) 1
          ((child :: rest).reverse ++ s.pt.childrenList 1) := by
      rw [update_comm apart.symm, update_idem, update_idem, List.reverse_cons, List.append_assoc,
        List.singleton_append]
    have top : update s.pt.childrenList pid rest 1 = s.pt.childrenList 1 :=
      update_of_ne apart.symm ..
    simp only [census, update_self, top, parents, lists]

/-- Those that have exited are put behind the ones that the initial process has. -/
theorem census_adoptExited (pid : Pid) :
    (s.adoptExited pid).census =
      { s.census with
        exitedList := update (update s.census.exitedList pid []) 1
          (s.census.exitedList 1 ++ s.census.exitedList pid) } := by
  unfold adoptExited
  split
  next none =>
    have own : update s.pt.exitedList pid [] = s.pt.exitedList := by rw [← none, update_eq_self]
    simp [none, own, census]
  next => rfl

/-- A process that has ended is in the list of its parent. -/
theorem census_tellParent (pid : Pid) :
    (s.tellParent pid).census =
      { s.census with
        exitedList := Census.enlist pid s.census.exitedList (s.census.parent pid) } := by
  have same : s.census.parent pid = s.pt.parent pid := rfl
  rw [same]
  cases link : s.pt.parent pid <;> simp only [tellParent, link] <;> rfl

/-- A process that is not its own child leaves its children to the initial
process, which does not end before it has none. -/
theorem census_terminate {pid : Pid} (childless : pid = 1 → s.pt.childrenList pid = [])
    (not_own : pid ∉ s.pt.childrenList pid) (exitval : Int) :
    (s.terminate pid exitval).map census = some (s.census.terminate pid exitval) := by
  have clean : ((s.setExitval pid exitval).cleanUpFidt pid).census =
      (s.setExitval pid exitval).census := census_cleanUpFidt pid
  unfold terminate
  dsimp only
  generalize (s.setExitval pid exitval).cleanUpFidt pid = s' at clean
  have children : s'.pt.childrenList = s.pt.childrenList := congrArg Census.childrenList clean
  have goes : ¬ (pid = 1 ∧ s'.pt.childrenList pid ≠ []) := by
    rw [children]
    exact fun ⟨root, some_child⟩ => some_child (childless root)
  rw [if_neg goes, Option.map_some, Option.some_inj]
  have moved : (s'.reparent pid (s'.pt.childrenList pid)).census =
      { s'.census with
        parent := (s.census.terminate pid exitval).parent
        childrenList := (s.census.terminate pid exitval).childrenList } := by
    by_cases root : pid = 1
    · subst pid
      have none := childless rfl
      have own : update s.pt.childrenList 1 [] = s.pt.childrenList := by rw [← none, update_eq_self]
      have parents : s'.pt.parent = s.pt.parent := congrArg Census.parent clean
      rw [children, none, reparent]
      simp [Census.terminate, census, none, own, children, parents]
    · apply (census_reparent root _ rfl).trans
      have parents : s'.pt.parent = s.pt.parent := congrArg Census.parent clean
      rw [children, parents]
      rfl
  have unmoved : (s.census.terminate pid exitval).parent pid = s.census.parent pid := if_neg not_own
  change { (((s'.reparent pid (s'.pt.childrenList pid)).adoptExited pid).tellParent pid).census with
    pstate := update (((s'.reparent pid (s'.pt.childrenList pid)).adoptExited pid).tellParent
      pid).census.pstate pid .zombie } = _
  rw [census_tellParent, census_adoptExited, moved, clean]
  dsimp only
  rw [unmoved]
  rfl

/-- The initial process has no children left when it ends. -/
theorem terminate_childless {pid : Pid} {exitval : Int} {t : State}
    (ended : s.terminate pid exitval = some t) : pid = 1 → s.pt.childrenList 1 = [] := by
  rintro rfl
  by_contra children
  have same : ((s.setExitval 1 exitval).cleanUpFidt 1).pt.childrenList = s.pt.childrenList :=
    congrArg Census.childrenList (census_cleanUpFidt (s := s.setExitval 1 exitval) 1)
  unfold terminate at ended
  dsimp only at ended
  rw [same, if_pos ⟨rfl, children⟩] at ended
  cases ended

@[simp] theorem census_kernelSleepExited (thread : TcbRef) :
    (s.kernelSleepExited thread).census = { s.census with live := s.census.live.erase thread } :=
  rfl

/-- The thread leaves, and the last one of a process ends it. -/
theorem sysThreadExit_census (inv : CensusInv s.census) {thread : TcbRef} {exitval : Int}
    {t : State} (exited : s.sysThreadExit thread exitval = some t) :
    (s.census.leave thread).threadCount (s.curproc thread) = 0 ∧
      (s.curproc thread = 1 → s.pt.childrenList 1 = []) ∧
      t.census = (s.census.leave thread).terminate (s.curproc thread) exitval ∨
    (s.census.leave thread).threadCount (s.curproc thread) ≠ 0 ∧
      t.census = s.census.leave thread := by
  unfold sysThreadExit at exited
  dsimp only at exited
  have left : ((s.exitPtcb (s.threads.ptcb thread) exitval).uncountThread
      (s.curproc thread)).census = { s.census.leave thread with live := s.census.live } := by
    change { (s.exitPtcb (s.threads.ptcb thread) exitval).census with
      threadCount := update (s.exitPtcb (s.threads.ptcb thread) exitval).census.threadCount
        (s.curproc thread) ((s.exitPtcb (s.threads.ptcb thread) exitval).census.threadCount
          (s.curproc thread) - 1) } = _
    rw [census_exitPtcb]
    rfl
  generalize (s.exitPtcb (s.threads.ptcb thread) exitval).uncountThread (s.curproc thread) = s'
    at exited left
  have count : s'.pt.threadCount = (s.census.leave thread).threadCount :=
    congrArg Census.threadCount left
  have children : s'.pt.childrenList = s.pt.childrenList := congrArg Census.childrenList left
  split at exited
  next last =>
    obtain ⟨ended, terminated, rfl⟩ := Option.map_eq_some_iff.mp exited
    have childless := terminate_childless terminated
    have not_own := inv.tree.not_own_child (s.curproc thread)
    have ended_census := census_terminate (s := s') (fun root : s.curproc thread = 1 => by
      rw [root]
      exact childless root) (by rwa [children]) exitval
    rw [terminated, Option.map_some, Option.some_inj] at ended_census
    rw [census_kernelSleepExited, ended_census, left]
    rw [count] at last
    rw [children] at childless
    exact .inl ⟨last, childless, rfl⟩
  next more =>
    obtain rfl := Option.some.inj exited
    rw [census_kernelSleepExited, left]
    rw [count] at more
    exact .inr ⟨more, rfl⟩

/-- The kernel changes the census only as `Census.Move` allows. -/
theorem sysThreadExit_move (inv : CensusInv s.census) {thread : TcbRef}
    (member : thread ∈ s.threads.live) {exitval : Int} {t : State}
    (exited : s.sysThreadExit thread exitval = some t) :
    s.census.Move threads strays thread t.census := by
  obtain ⟨last, childless, same⟩ | ⟨more, same⟩ := sysThreadExit_census inv exited
  · rw [same]
    exact .last member last childless
  · rw [same]
    exact .leave member more

/-! ### Waiting for children -/

/-- `wait_for_specific_child` reaps its child, or waits. -/
theorem specificLoop_moves {thread : TcbRef} {child : Pid} (large : 2 ≤ child)
    (used : s.pt.pstate child ≠ .free)
    (mine : strays ∨ s.pt.parent child = some (s.curproc thread)) (status : Pointer) :
    s.census.Moves threads strays thread (s.specificLoop thread child status).census := by
  obtain ⟨-, same⟩ | ⟨exited, same⟩ := specificLoop_cases (s := s) thread child status
  · rw [same, census_kernelWait]
  · rw [same, census_ret, census_cleanupZombie]
    refine .single (.reap large ?_ mine)
    change s.pt.pstate child = .zombie
    cases state : s.pt.pstate child <;> simp_all

/-- The assertion of `wait_for_any_child` holds. -/
theorem reapExited_first (inv : CensusInv s.census) {pid child : Pid} {rest : List Pid}
    (exited : s.pt.exitedList pid = child :: rest) (status : Pointer) :
    2 ≤ child ∧ s.pt.pstate child = .zombie ∧ s.pt.parent child = some pid ∧
      s.reapExited child status = s.cleanupZombie child status := by
  have member : child ∈ s.census.exitedList pid := by
    change child ∈ s.pt.exitedList pid
    rw [exited]
    exact List.mem_cons_self
  obtain ⟨large, zombie, link⟩ := (inv.tree.exited child pid).mp member
  exact ⟨large, zombie, link, if_pos zombie⟩

/-- `wait_for_any_child` reaps the first child that has exited, or waits. -/
theorem anyLoop_moves (inv : CensusInv s.census) (thread : TcbRef) (status : Pointer) :
    s.census.Moves threads strays thread (s.anyLoop thread status).census := by
  obtain ⟨-, same⟩ | ⟨child, rest, exited, same⟩ := anyLoop_cases (s := s) thread status
  · rw [same, census_kernelWait]
  · obtain ⟨large, zombie, link, reaps⟩ := reapExited_first inv exited status
    rw [same, reaps]
    exact .single (.reap large zombie (.inr link))

/-- `sys_WaitChild` reaps at most one child of its process. -/
theorem sysWaitChild_moves (inv : CensusInv s.census) (thread : TcbRef) (cpid : Int)
    (status : Pointer) :
    s.census.Moves threads strays thread (s.sysWaitChild thread cpid status).census := by
  obtain same | ⟨child, -, used, link, same⟩ | ⟨-, -, same⟩ :=
    sysWaitChild_cases (s := s) thread cpid status
  · rw [same, census_ret]
  · rw [same]
    exact specificLoop_moves (inv.child_large link used) used (.inr link) status
  · rw [same]
    exact anyLoop_moves inv thread status

/-- The initial process reaps its children one after the other, and then its thread leaves.
By induction on the rounds. -/
theorem exitRounds_moves (inv : CensusInv s.census) {thread : TcbRef}
    (member : thread ∈ s.threads.live) {fuel : Nat} {exitval : Int} {t : State}
    (exits : exitRounds fuel s thread exitval = some t) : s.census.Moves threads strays thread t.census := by
  induction fuel generalizing s with
  | zero => cases exits
  | succ fuel ih =>
    unfold exitRounds at exits
    split at exits
    · exact .single (sysThreadExit_move inv member exits)
    · split at exits
      · obtain rfl := Option.some.inj exits
        exact .refl
      next child _ exited =>
        obtain ⟨large, zombie, link, reaps⟩ := reapExited_first inv exited 0
        rw [reaps] at exits
        have cleaned : CensusInv (s.cleanupZombie child 0).census := inv.reap large zombie
        have reaped := ih cleaned member exits
        exact .head (.reap large zombie (.inr link)) reaped

/-- The same after a wait. -/
theorem exitResume_moves (inv : CensusInv s.census) {thread : TcbRef}
    (member : thread ∈ s.threads.live) {exitval : Int} {t : State}
    (exits : s.exitResume thread exitval = some t) : s.census.Moves threads strays thread t.census := by
  unfold exitResume at exits
  split at exits
  · obtain rfl := Option.some.inj exits
    exact .refl
  next child _ exited =>
    obtain ⟨large, zombie, link, reaps⟩ := reapExited_first inv exited 0
    rw [reaps] at exits
    have cleaned : CensusInv (s.cleanupZombie child 0).census := inv.reap large zombie
    have reaped : (s.cleanupZombie child 0).census.Moves threads strays thread t.census :=
      exitRounds_moves cleaned member exits
    exact .head (.reap large zombie (.inr link)) reaped

/-- `sys_Exit` of a process. -/
theorem sysExit_moves (inv : CensusInv s.census) {thread : TcbRef}
    (member : thread ∈ s.threads.live) {exitval : Int} {t : State}
    (exits : s.sysExit thread exitval = some t) : s.census.Moves threads strays thread t.census := by
  unfold sysExit at exits
  split at exits
  · exact exitRounds_moves inv member exits
  · exact .single (sysThreadExit_move inv member exits)

/-- `sys_Exec` makes a process or nothing. -/
theorem sysExec_moves (inv : CensusInv s.census) {thread : TcbRef}
    (member : thread ∈ s.threads.live) (call : Task) (argl : Int) (args : Pointer)
    (bytes : List (BitVec 8)) (ptcb : PtcbRef) {tcb : TcbRef} (small : tcb < maxThreads)
    (new : tcb ∉ s.threads.live) :
    s.census.Moves threads strays thread (s.sysExec thread call argl args bytes ptcb tcb).census := by
  change s.census.Moves threads strays thread (s.exec (s.curproc thread) call argl args bytes ptcb tcb).2.census
  cases first : s.pt.pcbFreelist with
  | none =>
    rw [exec_full first]
  | some pid =>
    rw [census_exec first (inv.free_large first)]
    split
    next task => exact .single (.exec member first task small new)
    next idle =>
      rw [not_not.mp idle]
      exact .single (.idle member first)

end State
end TinyOs.Kernel
