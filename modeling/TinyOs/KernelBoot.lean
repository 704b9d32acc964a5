import TinyOs.KernelRoster

/-! The machine at the end of `boot_tinyos_kernel`. -/
namespace TinyOs.Kernel
open Function Library

namespace State
variable {s : State}

theorem census_exec_small {pid : Pid} (first : s.pt.pcbFreelist = some pid) (small : pid ≤ 1)
    (curproc : Pid) (call : Task) (argl : Int) (args : Pointer) (bytes : List (BitVec 8))
    (ptcb : PtcbRef) (tcb : TcbRef) :
    (s.exec curproc call argl args bytes ptcb tcb).2.census =
      if call ≠ 0 then (s.census.enroll pid call).spawn pid tcb else s.census.enroll pid call := by
  unfold exec acquirePcb
  simp only [first, inherit, small, if_true]
  split
  · rfl
  · rfl

end State

/-- The entries that `initialize_processes` links. -/
theorem freeEntries_linked :
    FreeEntries initializeProcesses.pstate initializeProcesses.parent (some 0) 0 := by
  refine ⟨List.range' 0 maxProc, chain_range' 0 maxProc (by decide) (by decide), ?_, ?_, ?_, ?_⟩
  · exact List.nodup_range'
  · intro pid
    simp [initializeProcesses]
  · intro pid used
    exact absurd rfl used
  · simp

/-- The census of the tables before the first `Exec`. -/
def emptyCensus (threads : ThreadTable) : Census where
  pstate := initializeProcesses.pstate
  parent := initializeProcesses.parent
  exitval := initializeProcesses.exitval
  threadCount := initializeProcesses.threadCount
  mainTask := initializeProcesses.mainTask
  childrenList := initializeProcesses.childrenList
  exitedList := initializeProcesses.exitedList
  pcbFreelist := some 0
  processCount := 0
  live := []
  owner := threads.owner
  incarnation := fun _ => 0
  exitedWith := fun _ => 0
  reaped := []

theorem pstate_enroll (threads : ThreadTable) (call : Task) (pid : Pid) :
    (((emptyCensus threads).enroll 0 0).enroll 1 call).pstate pid =
      if pid ≤ 1 then .alive else .free := by
  simp only [Census.enroll, emptyCensus, initializeProcesses, update_apply]
  grind

/-- The null process and the initial one, without threads. -/
theorem censusInv_enroll (threads : ThreadTable) (call : Task) :
    CensusInv (((emptyCensus threads).enroll 0 0).enroll 1 call) := by
  have states := pstate_enroll threads call
  have unused : ∀ pid, 2 ≤ pid →
      (((emptyCensus threads).enroll 0 0).enroll 1 call).pstate pid = .free := by
    intro pid large
    rw [states, if_neg (Nat.not_le.mpr large)]
  constructor
  case tree =>
    constructor
    case null => exact ⟨rfl, rfl⟩
    case init => exact ⟨by simp [states], rfl⟩
    case parented => exact fun pid large used => absurd (unused pid large) used
    case children =>
      intro pid above
      constructor
      · intro member
        cases member
      · rintro ⟨large, used, -⟩
        exact absurd (unused pid large) used
    case children_nodup => exact fun _ => List.nodup_nil
    case exited =>
      intro pid above
      constructor
      · intro member
        cases member
      · rintro ⟨large, zombie, -⟩
        rw [unused pid large] at zombie
        cases zombie
    case exited_nodup => exact fun _ => List.nodup_nil
    case ranked =>
      exact ⟨fun _ => 0, rfl, fun pid _ large used => absurd (unused pid large) used⟩
  case entries => exact ((freeEntries_linked.pop none).2.pop none).2
  case live_nodup => exact List.nodup_nil
  case live_small => exact fun _ member => (List.not_mem_nil member).elim
  case owners => exact fun _ member => (List.not_mem_nil member).elim
  case counted =>
    intro pid
    simp only [Census.enroll, emptyCensus, initializeProcesses, update_apply, Census.population]
    split <;> [skip; split] <;> rfl
  case zombies =>
    intro pid zombie
    rw [states] at zombie
    split at zombie <;> cases zombie
  case reaps => exact fun _ member => (List.not_mem_nil member).elim
  case reaped_once => exact List.nodup_nil

theorem census_boot (heap : PtcbHeap) (threads : ThreadTable) (stream : FcbRef → Device)
    (memory : Pointer → Int) (serialPorts : Nat) (call : Task) (argl : Int) (args : Pointer)
    (bytes : List (BitVec 8)) (ptcb : PtcbRef) (tcb : TcbRef) :
    (boot (initialized heap threads stream memory serialPorts) call argl args bytes ptcb tcb).census =
      if call ≠ 0 then (((emptyCensus threads).enroll 0 0).enroll 1 call).spawn 1 tcb
      else ((emptyCensus threads).enroll 0 0).enroll 1 call := by
  let s := initialized heap threads stream memory serialPorts
  have null : (s.exec 0 0 0 0 [] 0 0).2.census = (emptyCensus threads).enroll 0 0 :=
    State.census_exec_small rfl (by decide) ..
  have next : (s.exec 0 0 0 0 [] 0 0).2.pt.pcbFreelist = some 1 :=
    congrArg Census.pcbFreelist null
  apply (State.census_exec_small next (le_refl 1) ..).trans
  rw [null]

theorem censusInv_boot {s : State} (booted : machine.initial s) : CensusInv s.census := by
  obtain ⟨heap, threads, stream, memory, serialPorts, call, argl, args, bytes, ptcb, tcb, -, small,
    rfl⟩ := booted
  have enrolled := censusInv_enroll threads call
  rw [census_boot]
  split
  · exact enrolled.spawn rfl (by decide) small (by simp [Census.enroll, emptyCensus])
  · exact enrolled

theorem staffed_boot {s : State} (booted : machine.initial s) : Staffed s.census := by
  obtain ⟨heap, threads, stream, memory, serialPorts, call, argl, args, bytes, ptcb, tcb, -, small,
    rfl⟩ := booted
  have enrolled : ∀ pid, (((emptyCensus threads).enroll 0 0).enroll 1 call).pstate pid = .alive →
      pid ≠ 0 → pid = 1 := by
    intro pid alive positive
    rw [pstate_enroll] at alive
    grind
  rw [census_boot]
  intro pid alive positive task
  split at alive
  next some_task =>
    obtain rfl := enrolled pid alive positive
    rw [if_pos some_task, CensusInv.population_spawn (by simp [Census.enroll, emptyCensus])]
    simp
  next no_task =>
    obtain rfl := enrolled pid alive positive
    rw [if_neg no_task] at task
    exact absurd task no_task

theorem pstate_boot {s : State} (booted : machine.initial s) (pid : Pid) :
    s.pt.pstate pid = if pid ≤ 1 then .alive else .free := by
  obtain ⟨heap, threads, stream, memory, serialPorts, call, argl, args, bytes, ptcb, tcb, -, -,
    rfl⟩ := booted
  have census := census_boot heap threads stream memory serialPorts call argl args bytes ptcb tcb
  apply (congrFun (congrArg Census.pstate census) pid).trans
  split <;> exact pstate_enroll threads call pid

/-- The thread of the boot task has not called the kernel yet. -/
theorem user_boot {s : State} (booted : machine.initial s) :
    ∀ thread ∈ s.threads.live, s.threads.status thread = .user := by
  obtain ⟨heap, threads, stream, memory, serialPorts, call, argl, args, bytes, ptcb, tcb, -, -,
    rfl⟩ := booted
  have made : ∀ (s : State) (call : Task) (argl : Int) (args : Pointer) (bytes : List (BitVec 8))
      (ptcb : PtcbRef) (tcb : TcbRef),
      (∀ thread ∈ s.roster.live, s.roster.status thread = .user) →
      ∀ thread ∈ (s.exec 0 call argl args bytes ptcb tcb).2.roster.live,
        (s.exec 0 call argl args bytes ptcb tcb).2.roster.status thread = .user := by
    intro s call argl args bytes ptcb tcb user
    obtain same | ⟨pid, same⟩ := State.roster_exec (s := s) 0 call argl args bytes ptcb tcb
    · rw [same]
      exact user
    · rw [same]
      intro thread member
      simp only [Roster.spawn, update_apply]
      split
      · rfl
      next apart => exact user thread ((List.mem_cons.mp member).resolve_left apart)
  exact made _ _ _ _ _ _ _ (made _ _ _ _ _ _ _ (by simp [initialized, State.roster]))

theorem not_awaits_boot {s : State} (booted : machine.initial s) (thread : TcbRef) (wait : Wait) :
    ¬ s.roster.Awaits thread wait := by
  rintro ⟨live, waits⟩
  cases (user_boot booted thread live).symm.trans waits

/-- The first two processes inherit no streams. -/
theorem files_boot {s : State} (booted : machine.initial s) :
    (∀ pid fid, s.pt.fidt pid fid = none) ∧ ∃ stream, s.ft = initializeFiles stream := by
  obtain ⟨heap, threads, stream, memory, serialPorts, call, argl, args, bytes, ptcb, tcb, -, -,
    rfl⟩ := booted
  have made : ∀ (s : State) (pid : Pid) (call : Task) (argl : Int) (args : Pointer)
      (bytes : List (BitVec 8)) (ptcb : PtcbRef) (tcb : TcbRef), s.pt.pcbFreelist = some pid →
      pid ≤ 1 → (s.exec 0 call argl args bytes ptcb tcb).2.pt.fidt = s.pt.fidt ∧
        (s.exec 0 call argl args bytes ptcb tcb).2.ft = s.ft := by
    intro s pid call argl args bytes ptcb tcb first small
    unfold State.exec State.acquirePcb
    simp only [first, State.inherit, small, if_true]
    split <;> exact ⟨rfl, rfl⟩
  let s := initialized heap threads stream memory serialPorts
  have null := made s 0 0 0 0 [] 0 0 rfl (by decide)
  have next : (s.exec 0 0 0 0 [] 0 0).2.pt.pcbFreelist = some 1 := rfl
  have init := made (s.exec 0 0 0 0 [] 0 0).2 1 call argl args bytes ptcb tcb next (le_refl 1)
  refine ⟨fun pid fid => ?_, stream, init.2.trans null.2⟩
  exact congrFun (congrFun (init.1.trans null.1) pid) fid

def blankHeap : PtcbHeap where
  allocated := fun _ => false
  tcb := fun _ => 0
  detached := fun _ => false
  exited := fun _ => false
  refCount := fun _ => 0
  exitval := fun _ => 0
  task := fun _ => 0
  argl := fun _ => 0
  args := fun _ => 0
  serial := fun _ => 0
  created := 0
  exitOf := fun _ => none
  detachedOf := fun _ => false

def blankThreads : ThreadTable where
  live := []
  owner := fun _ => 0
  ptcb := fun _ => 0
  status := fun _ => .user
  woken := fun _ => false
  returned := fun _ => 0

/-- A machine whose boot task has the thread 0 and the PTCB 1. -/
def booted : State :=
  boot (initialized blankHeap blankThreads (fun _ => .null) (fun _ => 0) 1) 1 0 0 [] 1 0

theorem booted_initial : machine.initial booted :=
  ⟨_, _, _, _, _, _, _, _, _, _, _, by decide, by decide, rfl⟩

end TinyOs.Kernel
