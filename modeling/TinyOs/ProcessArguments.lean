import TinyOs.KernelExit

/-! The main task of a process and its arguments, from `Exec` to the end of the
process. -/
namespace TinyOs.Kernel
open Function Library

/-- What `start_main_thread` reads, and what says whether a process is still the
same one. -/
def State.argumentBase (s : State) : (Pid → Task) × (Pid → Int) ×
    (Pid → Option (List (BitVec 8))) × (Pid → PidState) × (Pid → Nat) :=
  (s.pt.mainTask, s.pt.argl, s.pt.args, s.pt.pstate, s.history.incarnation)

/-- A process that is alive in the second state, in the incarnation it had in the
first, has been alive since, with the same main task and arguments. -/
structure State.Keeps (pid : Pid) (s t : State) : Prop where
  older : s.history.incarnation pid ≤ t.history.incarnation pid
  kept : t.history.incarnation pid = s.history.incarnation pid → t.pt.pstate pid = .alive →
    s.pt.pstate pid = .alive ∧ t.pt.mainTask pid = s.pt.mainTask pid ∧
      t.pt.argl pid = s.pt.argl pid ∧ t.pt.args pid = s.pt.args pid

namespace State
variable {s t u : State} {pid : Pid}

section
variable (s)

theorem argumentBase_openStream (thread : TcbRef) (device : Device) :
    (s.openStream thread device).argumentBase = s.argumentBase := by
  obtain same | ⟨fid, fcb, rest, -, -, -, same | same⟩ := openStream_cases (s := s) thread device
  all_goals
    rw [same]
    rfl

theorem argumentBase_deviceRead (thread : TcbRef) (fcb : FcbRef) (size : BitVec 32) (ready : Nat)
    (device : Device) :
    (s.deviceRead thread fcb size ready device).argumentBase = s.argumentBase := by
  obtain same | ⟨count, same⟩ := deviceRead_cases (s := s) thread fcb size ready device
  all_goals
    rw [same]
    rfl

theorem argumentBase_deviceWrite (thread : TcbRef) (fcb : FcbRef) (size : BitVec 32) (ready : Nat)
    (device : Device) :
    (s.deviceWrite thread fcb size ready device).argumentBase = s.argumentBase := by
  obtain ⟨writer, same | ⟨count, same⟩⟩ :=
    deviceWrite_cases (s := s) thread fcb size ready device
  all_goals
    rw [same]
    rfl

theorem argumentBase_sysClose (thread : TcbRef) (fd : Int) :
    (s.sysClose thread fd).argumentBase = s.argumentBase := by
  obtain ⟨value, same⟩ | ⟨fid, fcb, -, -, same⟩ := sysClose_cases (s := s) thread fd
  all_goals
    rw [same]
    rfl

theorem argumentBase_sysDup2 (thread : TcbRef) (oldfd newfd : Int) :
    (s.sysDup2 thread oldfd newfd).argumentBase = s.argumentBase := by
  obtain ⟨value, same⟩ | ⟨old, new, fcb, -, -, -, ⟨-, same⟩ | ⟨other, -, -, same⟩⟩ :=
    sysDup2_cases (s := s) thread oldfd newfd
  all_goals
    rw [same]
    rfl

theorem argumentBase_rxReady : s.rxReady.argumentBase = s.argumentBase := by
  refine foldl_same argumentBase (fun s devno => ?_) _ s
  rfl

theorem argumentBase_recordJoin (serial : Nat) (exitval : Pointer) (result : Option Int) :
    (s.recordJoin serial exitval result).argumentBase = s.argumentBase := by
  unfold recordJoin
  split <;> rfl

/-- `ThreadJoin` after its loop. -/
theorem argumentBase_pastLoop (target : PtcbRef) (serial : Nat) (exitval : Pointer) :
    ((s.unrefPtcb target).recordJoin serial exitval (some 0)).argumentBase = s.argumentBase := by
  obtain ⟨refCount, same⟩ := unrefPtcb_eq (s := s) target
  rw [argumentBase_recordJoin, same]
  rfl

theorem argumentBase_sysThreadJoin (thread : TcbRef) (tid : PtcbRef) (exitval : Pointer) :
    (s.sysThreadJoin thread tid exitval).argumentBase = s.argumentBase := by
  obtain same | same | ⟨-, -, ⟨-, -, same⟩ | ⟨-, -, same⟩ | ⟨-, same⟩⟩ :=
    sysThreadJoin_cases (s := s) thread tid exitval
  all_goals rw [same]
  · rfl
  · rfl
  · exact argumentBase_recordJoin s ..
  · exact argumentBase_recordJoin s ..
  · rfl

theorem argumentBase_joinLoop (thread : TcbRef) (target : PtcbRef) (exitval : Pointer)
    (serial : Nat) : (s.joinLoop thread target exitval serial).argumentBase = s.argumentBase := by
  cases detached : s.heap.detached target
  · obtain ⟨-, same⟩ | ⟨-, same⟩ := joinLoop_undetached detached thread exitval serial
    · rw [same]
      rfl
    · rw [same]
      exact argumentBase_pastLoop s target serial exitval
  · rw [joinLoop_detached detached]
    exact argumentBase_pastLoop s target serial exitval

theorem argumentBase_exitPtcb (ptcb : PtcbRef) (exitval : Int) :
    (s.exitPtcb ptcb exitval).argumentBase = s.argumentBase := by
  obtain ⟨-, same⟩ | ⟨-, -, same⟩ := exitPtcb_cases (s := s) ptcb exitval
  all_goals
    rw [same]
    rfl

theorem argumentBase_cleanUpFidt (pid : Pid) : (s.cleanUpFidt pid).argumentBase = s.argumentBase := by
  refine foldl_same argumentBase (fun s fid => ?_) _ s
  unfold closeFid
  split <;> rfl

theorem argumentBase_reparent (pid : Pid) (children : List Pid) :
    (s.reparent pid children).argumentBase = s.argumentBase := by
  induction children generalizing s with
  | nil => rfl
  | cons child rest ih =>
    rw [reparent, ih]
    rfl

theorem argumentBase_adoptExited (pid : Pid) : (s.adoptExited pid).argumentBase = s.argumentBase := by
  unfold adoptExited
  split <;> rfl

theorem argumentBase_tellParent (pid : Pid) : (s.tellParent pid).argumentBase = s.argumentBase := by
  unfold tellParent
  split <;> rfl

theorem argumentBase_inherit (curproc newproc : Pid) :
    (s.inherit curproc newproc).argumentBase = s.argumentBase := by
  unfold inherit
  split
  · rfl
  · refine (foldl_same argumentBase (fun s fid => ?_) _ _).trans rfl
    unfold inheritFid
    dsimp only
    split <;> rfl

end

/-! ### What each call keeps -/

namespace Keeps

/-- Whoever changes nothing of what the arguments depend on keeps them. -/
theorem of_base (same : t.argumentBase = s.argumentBase) : Keeps pid s t := by
  simp only [argumentBase, Prod.mk.injEq] at same
  obtain ⟨mainTask, argl, args, pstate, incarnation⟩ := same
  refine ⟨le_of_eq (congrFun incarnation pid).symm, fun _ alive => ?_⟩
  exact ⟨by rwa [← pstate], congrFun mainTask pid, congrFun argl pid, congrFun args pid⟩

theorem refl (s : State) : Keeps pid s s := of_base rfl

theorem trans (first : Keeps pid s t) (second : Keeps pid t u) : Keeps pid s u := by
  refine ⟨first.older.trans second.older, fun same alive => ?_⟩
  have late : u.history.incarnation pid = t.history.incarnation pid :=
    le_antisymm (same ▸ first.older) second.older
  obtain ⟨alive, mainTask, argl, args⟩ := second.kept late alive
  obtain ⟨before, mainTask', argl', args'⟩ := first.kept (late.symm.trans same) alive
  exact ⟨before, mainTask.trans mainTask', argl.trans argl', args.trans args'⟩

/-- A process that is released is no longer alive. -/
theorem cleanupZombie (child : Pid) (status : Pointer) :
    Keeps pid s (s.cleanupZombie child status) := by
  refine ⟨le_refl _, fun _ alive => ?_⟩
  change update s.pt.pstate child .free pid = .alive at alive
  by_cases here : pid = child
  · rw [here, update_self] at alive
    cases alive
  · rw [update_of_ne here] at alive
    exact ⟨alive, rfl, rfl, rfl⟩

theorem reapExited (child : Pid) (status : Pointer) : Keeps pid s (s.reapExited child status) := by
  unfold State.reapExited
  split
  · exact cleanupZombie child status
  · exact .of_base rfl

/-- The rounds in which an exiting process waits for its children. -/
theorem drains {thread : TcbRef} (drains : Drains thread s t) : Keeps pid s t := by
  induction drains with
  | done => exact .refl _
  | @reap _ _ child _ _ _ ih => exact (reapExited child 0).trans ih

/-- Nor is one that has terminated. -/
theorem terminate {ending : Pid} {exitval : Int} (ended : s.terminate ending exitval = some t) :
    Keeps pid s t := by
  unfold State.terminate at ended
  dsimp only at ended
  split at ended
  · cases ended
  · obtain rfl := Option.some.inj ended
    have closed := argumentBase_cleanUpFidt (s.setExitval ending exitval) ending
    have children := (argumentBase_reparent _ ending
      (((s.setExitval ending exitval).cleanUpFidt ending).pt.childrenList ending)).trans closed
    have base := (argumentBase_tellParent _ ending).trans
      ((argumentBase_adoptExited _ ending).trans children)
    simp only [argumentBase, Prod.mk.injEq] at base
    obtain ⟨mainTask, argl, args, pstate, incarnation⟩ := base
    refine ⟨le_of_eq (congrFun incarnation pid).symm, fun _ alive => ?_⟩
    dsimp only at alive
    by_cases here : pid = ending
    · rw [here, update_self] at alive
      cases alive
    · rw [update_of_ne here, congrFun pstate pid] at alive
      exact ⟨alive, congrFun mainTask pid, congrFun argl pid,
        (congrFun args pid).trans (update_of_ne here ..)⟩

theorem sysThreadExit {thread : TcbRef} {exitval : Int}
    (exited : s.sysThreadExit thread exitval = some t) : Keeps pid s t := by
  unfold State.sysThreadExit at exited
  dsimp only at exited
  have left : Keeps pid s ((s.exitPtcb (s.threads.ptcb thread) exitval).uncountThread
      (s.curproc thread)) := .of_base (argumentBase_exitPtcb s ..)
  split at exited
  · obtain ⟨ended, terminated, rfl⟩ := Option.map_eq_some_iff.mp exited
    exact left.trans ((terminate terminated).trans (.of_base rfl))
  · obtain rfl := Option.some.inj exited
    exact left.trans (.of_base rfl)

theorem specificLoop (thread : TcbRef) (child : Pid) (status : Pointer) :
    Keeps pid s (s.specificLoop thread child status) := by
  obtain ⟨-, same⟩ | ⟨-, same⟩ := specificLoop_cases (s := s) thread child status
  · rw [same]
    exact .of_base rfl
  · rw [same]
    exact (cleanupZombie child status).trans (.of_base rfl)

theorem anyLoop (thread : TcbRef) (status : Pointer) : Keeps pid s (s.anyLoop thread status) := by
  obtain ⟨-, same⟩ | ⟨child, rest, -, same⟩ := anyLoop_cases (s := s) thread status
  · rw [same]
    exact .of_base rfl
  · rw [same]
    exact (reapExited child status).trans (.of_base rfl)

theorem sysWaitChild (thread : TcbRef) (cpid : Int) (status : Pointer) :
    Keeps pid s (s.sysWaitChild thread cpid status) := by
  obtain same | ⟨child, -, -, -, same⟩ | ⟨-, -, same⟩ :=
    sysWaitChild_cases (s := s) thread cpid status
  all_goals rw [same]
  · exact .of_base rfl
  · exact specificLoop thread child status
  · exact anyLoop thread status

end Keeps

/-- The new process has the task and the copy of the arguments; the others are
as they were. -/
theorem argumentBase_exec {newproc : Pid} (first : s.pt.pcbFreelist = some newproc) (curproc : Pid)
    (call : Task) (argl : Int) (args : Pointer) (bytes : List (BitVec 8)) (ptcb : PtcbRef)
    (tcb : TcbRef) : (s.exec curproc call argl args bytes ptcb tcb).2.argumentBase =
      (update s.pt.mainTask newproc call, update s.pt.argl newproc argl,
        update s.pt.args newproc (if args ≠ 0 then some bytes else none),
        update s.pt.pstate newproc .alive,
        update s.history.incarnation newproc (s.history.incarnation newproc + 1)) := by
  have taken := argumentBase_inherit (s.takePcb newproc) curproc newproc
  simp only [argumentBase, Prod.mk.injEq] at taken
  obtain ⟨mainTask, argl', args', pstate, incarnation⟩ := taken
  unfold exec acquirePcb
  simp only [first]
  split
  all_goals
    simp only [argumentBase, createPtcb, setTask, mainTask, argl', args', pstate, incarnation]
    rfl

/-- A process that is made takes a free PCB, so nobody loses its arguments. -/
theorem Keeps.exec (curproc : Pid) (call : Task) (argl : Int) (args : Pointer)
    (bytes : List (BitVec 8)) (ptcb : PtcbRef) (tcb : TcbRef) :
    Keeps pid s (s.exec curproc call argl args bytes ptcb tcb).2 := by
  cases first : s.pt.pcbFreelist with
  | none =>
    rw [exec_full first]
    exact .refl s
  | some newproc =>
    have base := argumentBase_exec first curproc call argl args bytes ptcb tcb
    simp only [argumentBase, Prod.mk.injEq] at base
    obtain ⟨mainTask, argl', args', pstate, incarnation⟩ := base
    by_cases here : pid = newproc
    · subst here
      have grown := congrFun incarnation pid
      rw [update_self] at grown
      exact ⟨by omega, fun same => by omega⟩
    · have same := congrFun incarnation pid
      rw [update_of_ne here] at same
      refine ⟨same.ge, fun _ alive => ⟨?_, ?_, ?_, ?_⟩⟩
      · rwa [congrFun pstate pid, update_of_ne here] at alive
      · rw [congrFun mainTask pid, update_of_ne here]
      · rw [congrFun argl' pid, update_of_ne here]
      · rw [congrFun args' pid, update_of_ne here]

end State

section
variable {s t : State} {label : Label} {pid : Pid}

/-- No step touches the arguments of a process that stays alive. -/
theorem act_keeps (moved : act s label = some t) : State.Keeps pid s t := by
  cases exits : s.exits label
  case true =>
    obtain ⟨s', thread, exitval, begins, exited⟩ |
      ⟨-, s', thread, exitval, -, drains, -, -, rfl⟩ := exitOutcome exits moved
    · obtain ⟨-, -, -, -, drains, -⟩ := exitCall_begins begins
      exact (State.Keeps.drains drains).trans (.sysThreadExit exited)
    · exact (State.Keeps.drains drains).trans (.of_base rfl)
  case false =>
    cases acted_of_act moved with
    | threadExit | exit => cases exits
    | exec caller call argl args bytes ptcb tcb =>
      exact (State.Keeps.exec (s.curproc caller) call argl args bytes ptcb tcb).trans (.of_base rfl)
    | createThread => exact .of_base rfl
    | threadJoin => exact .of_base (s.argumentBase_sysThreadJoin ..)
    | threadDetach =>
      refine .of_base ?_
      unfold State.sysThreadDetach
      split
      · rfl
      · split <;> rfl
    | waitChild caller cpid status => exact .sysWaitChild caller cpid status
    | openNull => exact .of_base (s.argumentBase_openStream ..)
    | openTerminal => exact .of_base (s.argumentBase_openStream ..)
    | close => exact .of_base (s.argumentBase_sysClose ..)
    | dup2 => exact .of_base (s.argumentBase_sysDup2 ..)
    | read caller fd size ready =>
      obtain same | ⟨fid, fcb, -, -, same⟩ := State.sysRead_cases (s := s) caller fd size ready
      · exact .of_base (same ▸ rfl)
      · rw [same]
        exact .of_base (State.argumentBase_deviceRead _ ..)
    | write caller fd size ready =>
      obtain same | ⟨fid, fcb, -, -, same⟩ := State.sysWrite_cases (s := s) caller fd size ready
      · exact .of_base (same ▸ rfl)
      · rw [same]
        exact .of_base (State.argumentBase_deviceWrite _ ..)
    | resumeJoin => exact .of_base (s.argumentBase_joinLoop ..)
    | resumeSpecific caller _ child status => exact .specificLoop caller child status
    | resumeAny caller _ status => exact .anyLoop caller status
    | resumeExit _ _ _ back => simp [State.exits, back.waits] at exits
    | resumeRead => exact .of_base (s.argumentBase_deviceRead ..)
    | poll => exact .of_base (s.argumentBase_deviceWrite ..)
    | rxReady => exact .of_base (State.argumentBase_rxReady _)
    | store => exact .of_base rfl

/-- Nor does a run. -/
theorem run_keeps {labels : List Label} (ran : labels.foldlM step s = some t) :
    State.Keeps pid s t := by
  induction labels generalizing s with
  | nil =>
    obtain rfl := Option.some.inj ran
    exact .refl _
  | cons label rest ih =>
    rw [List.foldlM_cons] at ran
    obtain ⟨middle, moved, ran⟩ := Option.bind_eq_some_iff.mp ran
    exact (act_keeps (act_of_step moved)).trans (ih ran)

end

end TinyOs.Kernel
