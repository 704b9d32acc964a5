import TinyOs.KernelCensus
import TinyOs.Library.Counting

/-! What each function of the kernel does to the threads: which of them are
live, and what they are doing. -/
namespace TinyOs.Kernel
open Function Library

/-- The threads without what they were told. -/
structure Roster where
  live : List TcbRef
  owner : TcbRef → Pid
  ptcb : TcbRef → PtcbRef
  status : TcbRef → Status

def State.roster (s : State) : Roster where
  live := s.threads.live
  owner := s.threads.owner
  ptcb := s.threads.ptcb
  status := s.threads.status

namespace Roster

/-- A thread goes on to do something else. -/
def become (r : Roster) (thread : TcbRef) (status : Status) : Roster :=
  { r with status := update r.status thread status }

/-- A new thread outside the kernel. -/
def spawn (r : Roster) (pid : Pid) (ptcb : PtcbRef) (thread : TcbRef) : Roster where
  live := thread :: r.live
  owner := update r.owner thread pid
  ptcb := update r.ptcb thread ptcb
  status := update r.status thread .user

/-- A thread ends. What it was doing is not looked at any more. -/
def leave (r : Roster) (thread : TcbRef) : Roster := { r with live := r.live.erase thread }

/-- A live thread waits. -/
def Awaits (r : Roster) (thread : TcbRef) (wait : Wait) : Prop :=
  thread ∈ r.live ∧ r.status thread = .waiting wait

variable {r : Roster} {thread other : TcbRef} {wait : Wait}

theorem become_same {status : Status} (same : r.status thread = status) :
    r.become thread status = r := by
  rw [become, ← same, update_eq_self]

/-- Only the thread that becomes something may wait for something new. -/
theorem Awaits.of_become {status : Status} (awaits : (r.become other status).Awaits thread wait) :
    r.Awaits thread wait ∨ thread = other ∧ thread ∈ r.live ∧ status = .waiting wait := by
  obtain ⟨live, waits⟩ := awaits
  by_cases same : thread = other
  · subst other
    simp only [become, update_self] at waits
    exact .inr ⟨rfl, live, waits⟩
  · simp only [become, update_of_ne same] at waits
    exact .inl ⟨live, waits⟩

/-- A thread that leaves the kernel does not wait. -/
theorem Awaits.of_user (awaits : (r.become other .user).Awaits thread wait) :
    r.Awaits thread wait := by
  obtain before | ⟨-, -, waits⟩ := awaits.of_become
  · exact before
  · cases waits

/-- Nor does a new one. -/
theorem Awaits.of_spawn {pid : Pid} {ptcb : PtcbRef}
    (awaits : (r.spawn pid ptcb other).Awaits thread wait) : r.Awaits thread wait := by
  obtain ⟨live, waits⟩ := awaits
  by_cases same : thread = other
  · subst other
    simp [spawn] at waits
  · simp only [spawn, update_of_ne same] at waits
    exact ⟨(List.mem_cons.mp live).resolve_left same, waits⟩

theorem Awaits.of_leave (awaits : (r.leave other).Awaits thread wait) : r.Awaits thread wait :=
  ⟨List.mem_of_mem_erase awaits.1, awaits.2⟩

/-- How many live threads are doing something of a kind. -/
def count (r : Roster) (kind : Status → Bool) : Nat :=
  r.live.countP fun thread => kind (r.status thread)

/-- A thread is counted for what it does now, and not for what it did. -/
theorem count_become (kind : Status → Bool) (nodup : r.live.Nodup) (member : thread ∈ r.live)
    (status : Status) :
    (r.become thread status).count kind + (if kind (r.status thread) then 1 else 0) =
      r.count kind + if kind status then 1 else 0 :=
  countP_update nodup member r.status status kind

/-- A thread that does nothing of the kind before or after. -/
theorem count_idle (kind : Status → Bool) (before : kind (r.status thread) = false) {status : Status}
    (after : kind status = false) : (r.become thread status).count kind = r.count kind := by
  apply List.countP_congr
  intro other _
  rcases eq_or_ne other thread with rfl | different
  · simp [become, before, after]
  · simp [become, different]

/-- A new thread is outside the kernel, so it does not count for a kind that is not. -/
theorem count_spawn (kind : Status → Bool) (user : kind .user = false) (fresh : thread ∉ r.live)
    (pid : Pid) (ptcb : PtcbRef) : (r.spawn pid ptcb thread).count kind = r.count kind := by
  have others := countP_update_of_notMem fresh r.status .user kind
  simp only [count, spawn, List.countP_cons, update_self, others, user]
  rfl

/-- A thread that does nothing of the kind ends. -/
theorem count_leave (kind : Status → Bool) (idle : kind (r.status thread) = false) :
    (r.leave thread).count kind = r.count kind := by
  simp only [count, leave, List.countP_erase, idle]
  simp

theorem count_pos (kind : Status → Bool) (member : thread ∈ r.live) (doing : kind (r.status thread) = true) :
    r.count kind ≠ 0 :=
  Nat.pos_iff_ne_zero.mp (List.countP_pos_iff.mpr ⟨thread, member, doing⟩)

/-- No more threads than fit into memory. -/
theorem count_le (kind : Status → Bool) (nodup : r.live.Nodup)
    (bounded : ∀ thread ∈ r.live, thread < maxThreads) : r.count kind ≤ maxThreads := by
  have inside : r.live ⊆ List.range maxThreads := fun thread member =>
    List.mem_range.mpr (bounded thread member)
  have short := nodup.length_le_of_subset inside
  rw [List.length_range] at short
  exact List.countP_le_length.trans short

end Roster

namespace State
variable {s : State}

@[simp] theorem roster_ret (thread : TcbRef) (value : Int) :
    (s.ret thread value).roster = s.roster.become thread .user := rfl

@[simp] theorem roster_kernelWait (thread : TcbRef) (wait : Wait) :
    (s.kernelWait thread wait).roster = s.roster.become thread (.waiting wait) := rfl

@[simp] theorem roster_kernelBroadcast (cv : Cv) : (s.kernelBroadcast cv).roster = s.roster := rfl

@[simp] theorem roster_crash (crash : Crash) : (s.crash crash).roster = s.roster := rfl

@[simp] theorem roster_setFid (pid : Pid) (fid : Nat) (fcb : Option FcbRef) :
    (s.setFid pid fid fcb).roster = s.roster := rfl

@[simp] theorem roster_freePtcb (ptcb : PtcbRef) : (s.freePtcb ptcb).roster = s.roster := rfl

@[simp] theorem roster_uncountThread (pid : Pid) : (s.uncountThread pid).roster = s.roster := rfl

@[simp] theorem roster_refPtcb (ptcb : PtcbRef) : (s.refPtcb ptcb).roster = s.roster := rfl

@[simp] theorem roster_unrefPtcb (ptcb : PtcbRef) : (s.unrefPtcb ptcb).roster = s.roster := by
  unfold unrefPtcb
  split <;> rfl

@[simp] theorem roster_recordJoin (serial : Nat) (exitval : Pointer) (result : Option Int) :
    (s.recordJoin serial exitval result).roster = s.roster := by
  unfold recordJoin
  split <;> rfl

@[simp] theorem roster_createPtcb (pid : Pid) (task : Task) (argl : Int) (args : Pointer)
    (ptcb : PtcbRef) (tcb : TcbRef) :
    (s.createPtcb pid task argl args ptcb tcb).roster = s.roster.spawn pid ptcb tcb := rfl

@[simp] theorem roster_cleanupZombie (child : Pid) (status : Pointer) :
    (s.cleanupZombie child status).roster = s.roster := rfl

/-! ### Files -/

/-- `open_stream` returns, whether or not there are a fid and an FCB. -/
theorem roster_openStream (thread : TcbRef) (device : Device) :
    (s.openStream thread device).roster = s.roster.become thread .user := by
  obtain same | ⟨fid, fcb, rest, -, -, -, same | same⟩ := openStream_cases (s := s) thread device
  all_goals
    rw [same]
    rfl

/-- A read returns or waits for its device. -/
theorem roster_deviceRead (thread : TcbRef) (fcb : FcbRef) (size : BitVec 32) (ready : Nat)
    (device : Device) : ∃ status,
      (s.deviceRead thread fcb size ready device).roster = s.roster.become thread status ∧
      (status = .user ∨ status = .waiting (.read fcb device size)) := by
  obtain same | ⟨count, same⟩ := deviceRead_cases (s := s) thread fcb size ready device
  · rw [same]
    exact ⟨_, rfl, .inr rfl⟩
  · rw [same]
    exact ⟨_, rfl, .inl rfl⟩

/-- A write returns or polls its device. -/
theorem roster_deviceWrite (thread : TcbRef) (fcb : FcbRef) (size : BitVec 32) (ready : Nat)
    (device : Device) : ∃ status,
      (s.deviceWrite thread fcb size ready device).roster = s.roster.become thread status ∧
      (status = .user ∨ status = .writing fcb device size) := by
  obtain ⟨writer, same | ⟨count, same⟩⟩ :=
    deviceWrite_cases (s := s) thread fcb size ready device
  · rw [same]
    exact ⟨_, rfl, .inr rfl⟩
  · rw [same]
    exact ⟨_, rfl, .inl rfl⟩

/-- `sys_Read` fails at once for a fid that is not open. -/
theorem roster_sysRead (thread : TcbRef) (fd : Int) (size : BitVec 32) (ready : Nat) : ∃ status,
    (s.sysRead thread fd size ready).roster = s.roster.become thread status ∧
    (status = .user ∨ ∃ fcb device, status = .waiting (.read fcb device size)) := by
  obtain same | ⟨fid, fcb, -, -, same⟩ := sysRead_cases (s := s) thread fd size ready
  · rw [same]
    exact ⟨_, rfl, .inl rfl⟩
  · rw [same]
    obtain ⟨status, becomes, user | reading⟩ :=
      roster_deviceRead (s := { s with ft := fcbIncref s.ft fcb }) thread fcb size ready
        (s.ft.stream fcb)
    · exact ⟨_, becomes, .inl user⟩
    · exact ⟨_, becomes, .inr ⟨_, _, reading⟩⟩

/-- `sys_Write` fails at once for a fid that is not open. -/
theorem roster_sysWrite (thread : TcbRef) (fd : Int) (size : BitVec 32) (ready : Nat) : ∃ status,
    (s.sysWrite thread fd size ready).roster = s.roster.become thread status ∧
    (status = .user ∨ ∃ fcb device, status = .writing fcb device size) := by
  obtain same | ⟨fid, fcb, -, -, same⟩ := sysWrite_cases (s := s) thread fd size ready
  · rw [same]
    exact ⟨_, rfl, .inl rfl⟩
  · rw [same]
    obtain ⟨status, becomes, user | writing⟩ :=
      roster_deviceWrite (s := { s with ft := fcbIncref s.ft fcb }) thread fcb size ready
        (s.ft.stream fcb)
    · exact ⟨_, becomes, .inl user⟩
    · exact ⟨_, becomes, .inr ⟨_, _, writing⟩⟩

theorem roster_sysClose (thread : TcbRef) (fd : Int) :
    (s.sysClose thread fd).roster = s.roster.become thread .user := by
  obtain ⟨value, same⟩ | ⟨fid, fcb, -, -, same⟩ := sysClose_cases (s := s) thread fd
  all_goals
    rw [same]
    rfl

theorem roster_sysDup2 (thread : TcbRef) (oldfd newfd : Int) :
    (s.sysDup2 thread oldfd newfd).roster = s.roster.become thread .user := by
  obtain ⟨value, same⟩ | ⟨old, new, fcb, -, -, -, ⟨-, same⟩ | ⟨other, -, -, same⟩⟩ :=
    sysDup2_cases (s := s) thread oldfd newfd
  all_goals
    rw [same]
    rfl

/-- `serial_rx_handler` wakes its readers, but they have not resumed yet. -/
theorem roster_rxReady : s.rxReady.roster = s.roster := by
  unfold rxReady
  exact foldl_same State.roster (fun s devno => roster_kernelBroadcast (.rxReady (.serial devno))) _ s

/-! ### Threads -/

/-- `sys_ThreadDetach` returns, unless it dereferences NULL. -/
theorem roster_sysThreadDetach (thread : TcbRef) (tid : PtcbRef) :
    (s.sysThreadDetach thread tid).roster = s.roster ∨
    (s.sysThreadDetach thread tid).roster = s.roster.become thread .user := by
  unfold sysThreadDetach
  split
  · exact .inl rfl
  · split <;> exact .inr rfl

/-- A joiner returns when its target has exited, and waits on until then. -/
theorem roster_joinLoop (thread : TcbRef) (ptcb : PtcbRef) (exitval : Pointer) (serial : Nat) :
    ∃ status, (s.joinLoop thread ptcb exitval serial).roster = s.roster.become thread status ∧
      (status = .user ∨ status = .waiting (.join ptcb exitval serial)) := by
  unfold joinLoop
  split
  · exact ⟨_, rfl, .inr rfl⟩
  · unfold joinExited
    dsimp only
    split
    · refine ⟨_, ?_, .inl rfl⟩
      rw [roster_ret, roster_uncountThread, roster_freePtcb, roster_recordJoin, roster_unrefPtcb]
    · refine ⟨_, ?_, .inl rfl⟩
      rw [roster_ret, roster_recordJoin, roster_unrefPtcb]

/-- `sys_ThreadJoin` crashes, returns or waits. -/
theorem roster_sysThreadJoin (thread : TcbRef) (tid : PtcbRef) (exitval : Pointer) :
    (s.sysThreadJoin thread tid exitval).roster = s.roster ∨
    ∃ status, (s.sysThreadJoin thread tid exitval).roster = s.roster.become thread status ∧
      (status = .user ∨ status = .waiting (.join tid exitval (s.heap.serial tid))) := by
  obtain same | same | ⟨-, -, ⟨-, -, same⟩ | ⟨-, -, same⟩ | ⟨-, same⟩⟩ :=
    sysThreadJoin_cases (s := s) thread tid exitval
  · exact .inl (by rw [same, roster_crash])
  · exact .inr ⟨_, by rw [same, roster_ret], .inl rfl⟩
  · exact .inl (by rw [same, roster_crash, roster_recordJoin])
  · exact .inr ⟨_, by rw [same, roster_ret, roster_recordJoin], .inl rfl⟩
  · exact .inr ⟨_, by rw [same, roster_kernelWait, roster_refPtcb], .inr rfl⟩

theorem roster_sysCreateThread (thread : TcbRef) (task : Task) (argl : Int) (args : Pointer)
    (ptcb : PtcbRef) (tcb : TcbRef) :
    (s.sysCreateThread thread task argl args ptcb tcb).roster =
      (s.roster.spawn (s.curproc thread) ptcb tcb).become thread .user := rfl

/-- The steps of `sys_ThreadExit` for the last thread of a process touch no thread. -/
theorem roster_cleanUpFidt (pid : Pid) : (s.cleanUpFidt pid).roster = s.roster := by
  refine foldl_same State.roster (fun s fid => ?_) _ s
  unfold closeFid
  split <;> rfl

theorem roster_reparent (pid : Pid) (children : List Pid) :
    (s.reparent pid children).roster = s.roster := by
  induction children generalizing s with
  | nil => rfl
  | cons child rest ih =>
    rw [reparent, ih]
    rfl

theorem roster_terminate {pid : Pid} {exitval : Int} {t : State}
    (ended : s.terminate pid exitval = some t) : t.roster = s.roster := by
  unfold terminate at ended
  dsimp only at ended
  split at ended
  · cases ended
  · obtain rfl := Option.some.inj ended
    have adopted : ∀ s : State, (s.adoptExited pid).roster = s.roster := by
      intro s
      unfold adoptExited
      split <;> rfl
    have told : ∀ s : State, (s.tellParent pid).roster = s.roster := by
      intro s
      unfold tellParent
      split <;> rfl
    exact (told _).trans ((adopted _).trans ((roster_reparent ..).trans (roster_cleanUpFidt pid)))

/-- What a thread leaves in its PTCB. -/
theorem roster_exitPtcb (ptcb : PtcbRef) (exitval : Int) :
    (s.exitPtcb ptcb exitval).roster = s.roster := by
  unfold exitPtcb
  dsimp only
  split <;> split <;> rfl

/-- A thread that exits is not live any more. -/
theorem roster_sysThreadExit {thread : TcbRef} {exitval : Int} {t : State}
    (exited : s.sysThreadExit thread exitval = some t) : t.roster = s.roster.leave thread := by
  unfold sysThreadExit at exited
  dsimp only at exited
  have left : ((s.exitPtcb (s.threads.ptcb thread) exitval).uncountThread
      (s.curproc thread)).roster = s.roster := roster_exitPtcb ..
  split at exited
  · obtain ⟨ended, terminated, rfl⟩ := Option.map_eq_some_iff.mp exited
    have kept := roster_terminate terminated
    change { ended.roster with live := ended.roster.live.erase thread } = _
    rw [kept, left]
    rfl
  · obtain rfl := Option.some.inj exited
    change Roster.leave (((s.exitPtcb (s.threads.ptcb thread) exitval).uncountThread
      (s.curproc thread)).roster) thread = _
    rw [left]

/-! ### Processes -/

/-- A new process gets the fids of its parent; no thread takes part. -/
theorem roster_inheritFidt (curproc newproc : Pid) :
    (s.inheritFidt curproc newproc).roster = s.roster := by
  refine foldl_same State.roster (fun s fid => ?_) _ s
  unfold inheritFid
  dsimp only
  split <;> rfl

theorem roster_inherit (curproc newproc : Pid) : (s.inherit curproc newproc).roster = s.roster := by
  unfold inherit
  split
  · rfl
  · exact roster_inheritFidt ..

/-- `sys_Exec` may make a thread in another process. -/
theorem roster_exec (curproc : Pid) (call : Task) (argl : Int) (args : Pointer)
    (bytes : List (BitVec 8)) (ptcb : PtcbRef) (tcb : TcbRef) :
    (s.exec curproc call argl args bytes ptcb tcb).2.roster = s.roster ∨
    ∃ pid, (s.exec curproc call argl args bytes ptcb tcb).2.roster = s.roster.spawn pid ptcb tcb := by
  cases first : s.pt.pcbFreelist with
  | none =>
    rw [exec_full first]
    exact .inl rfl
  | some pid =>
    unfold exec acquirePcb
    simp only [first]
    split
    · refine .inr ⟨pid, ?_⟩
      rw [roster_createPtcb]
      exact congrArg (fun r : Roster => r.spawn pid ptcb tcb) (roster_inherit curproc pid)
    · exact .inl (roster_inherit curproc pid)

theorem roster_reapExited (child : Pid) (status : Pointer) :
    (s.reapExited child status).roster = s.roster := by
  unfold reapExited
  split <;> rfl

/-- `wait_for_specific_child` waits only while the child is alive. -/
theorem roster_specificLoop (thread : TcbRef) (child : Pid) (status : Pointer) :
    ∃ become, (s.specificLoop thread child status).roster = s.roster.become thread become ∧
      (become = .user ∨ become = .waiting (.specificChild child status) ∧
        s.pt.pstate child = .alive) := by
  obtain ⟨alive, same⟩ | ⟨-, same⟩ := specificLoop_cases (s := s) thread child status
  · exact ⟨_, by rw [same, roster_kernelWait], .inr ⟨rfl, alive⟩⟩
  · exact ⟨_, by rw [same, roster_ret, roster_cleanupZombie], .inl rfl⟩

/-- `wait_for_any_child` returns with a child that has exited, or waits. -/
theorem roster_anyLoop (thread : TcbRef) (status : Pointer) :
    ∃ become, (s.anyLoop thread status).roster = s.roster.become thread become ∧
      (become = .user ∨ become = .waiting (.anyChild status)) := by
  obtain ⟨-, same⟩ | ⟨child, rest, -, same⟩ := anyLoop_cases (s := s) thread status
  · exact ⟨_, by rw [same, roster_kernelWait], .inr rfl⟩
  · exact ⟨_, by rw [same, roster_ret, roster_reapExited], .inl rfl⟩

/-- A thread waits for any child, or for a live child of its process. -/
theorem roster_sysWaitChild (thread : TcbRef) (cpid : Int) (status : Pointer) :
    ∃ become, (s.sysWaitChild thread cpid status).roster = s.roster.become thread become ∧
      (become = .user ∨ become = .waiting (.anyChild status) ∨
        ∃ child, become = .waiting (.specificChild child status) ∧ cpid ≠ noproc ∧
          s.pt.pstate child = .alive ∧ s.pt.parent child = some (s.curproc thread)) := by
  obtain same | ⟨child, specific, -, link, same⟩ | ⟨-, -, same⟩ :=
    sysWaitChild_cases (s := s) thread cpid status
  · exact ⟨_, by rw [same, roster_ret], .inl rfl⟩
  · obtain ⟨become, becomes, user | ⟨waits, alive⟩⟩ := roster_specificLoop (s := s) thread child status
    · exact ⟨_, by rw [same, becomes], .inl user⟩
    · exact ⟨_, by rw [same, becomes], .inr (.inr ⟨child, waits, specific, alive, link⟩)⟩
  · obtain ⟨become, becomes, user | waits⟩ := roster_anyLoop (s := s) thread status
    · exact ⟨_, by rw [same, becomes], .inl user⟩
    · exact ⟨_, by rw [same, becomes], .inr (.inl waits)⟩

/-- The initial process reaps its children in `sys_Exit`: it gets to `sys_ThreadExit`, or it
waits for the next one. -/
theorem roster_exitRounds {thread : TcbRef} {fuel : Nat} {exitval : Int} {t : State}
    (exits : exitRounds fuel s thread exitval = some t) :
    t.roster = s.roster.leave thread ∨
      t.roster = s.roster.become thread (.waiting (.exitLoop exitval)) := by
  induction fuel generalizing s with
  | zero => cases exits
  | succ fuel ih =>
    unfold exitRounds at exits
    split at exits
    · exact .inl (roster_sysThreadExit exits)
    · split at exits
      · obtain rfl := Option.some.inj exits
        exact .inr rfl
      next child _ _ =>
        rw [← roster_reapExited (s := s) child 0]
        exact ih exits

/-- A round of that loop after a wait. -/
theorem roster_exitResume {thread : TcbRef} {exitval : Int} {t : State}
    (exits : s.exitResume thread exitval = some t) :
    t.roster = s.roster.leave thread ∨
      t.roster = s.roster.become thread (.waiting (.exitLoop exitval)) := by
  unfold exitResume at exits
  split at exits
  · obtain rfl := Option.some.inj exits
    exact .inr rfl
  next child _ _ =>
    rw [← roster_reapExited (s := s) child 0]
    exact roster_exitRounds exits

/-- `sys_Exit` of any process. -/
theorem roster_sysExit {thread : TcbRef} {exitval : Int} {t : State}
    (exits : s.sysExit thread exitval = some t) :
    t.roster = s.roster.leave thread ∨
      t.roster = s.roster.become thread (.waiting (.exitLoop exitval)) := by
  unfold sysExit at exits
  split at exits
  · exact roster_exitRounds exits
  · exact .inl (roster_sysThreadExit exits)

/-- By which call, and when, a thread may begin to wait. -/
def MayWait (s : State) (label : Label) (thread : TcbRef) : Wait → Prop
  | .specificChild child status =>
    (∃ cpid, label = .waitChild thread cpid status ∧ cpid ≠ noproc) ∧
      s.pt.pstate child = .alive ∧ s.pt.parent child = some (s.curproc thread)
  | .join target exitval serial => label = .threadJoin thread target exitval ∧
      s.heap.detached target = false ∧ s.heap.exited target = false ∧
      target ∈ s.pt.threadList (s.curproc thread) ∧ serial = s.heap.serial target
  | .read _ _ size => ∃ fd ready, label = .read thread fd size ready
  | .anyChild status => ∃ cpid, label = .waitChild thread cpid status
  | .exitLoop exitval => label = .exit thread exitval

/-- The thread that makes the call is the only one that may begin to wait. -/
theorem mayWait_of_become {t : State} {label : Label} {thread other : TcbRef} {status : Status} {wait : Wait}
    (becomes : t.roster = s.roster.become other status)
    (may : ∀ wait, status = .waiting wait →
      s.roster.Awaits other wait ∨ s.MayWait label other wait)
    (awaits : t.roster.Awaits thread wait) :
    s.roster.Awaits thread wait ∨ thread ∈ s.threads.live ∧ s.MayWait label thread wait := by
  rw [becomes] at awaits
  obtain before | ⟨rfl, live, waits⟩ := awaits.of_become
  · exact .inl before
  · obtain before | may := may wait waits
    · exact .inl before
    · exact .inr ⟨live, may⟩

end State

/-- Who resumes has waited. -/
theorem State.Resumes.awaits {s : State} {thread : TcbRef} {wait : Wait}
    (back : s.Resumes thread wait) : s.roster.Awaits thread wait :=
  ⟨back.live, back.waits⟩

section Awaits
variable {s t : State} {label : Label} {thread caller : TcbRef} {wait : Wait}

open State

/-- A round of a loop that waits in the kernel returns or waits on. -/
theorem awaits_of_round {round : Wait}
    (back : s.Resumes caller round)
    (rounds : ∃ status, t.roster = s.roster.become caller status ∧
      (status = .user ∨ status = .waiting round))
    (awaits : t.roster.Awaits thread wait) : s.roster.Awaits thread wait := by
  obtain ⟨status, becomes, rfl | rfl⟩ := rounds
  · rw [becomes] at awaits
    exact awaits.of_user
  · rwa [becomes, Roster.become_same back.waits] at awaits

/-- `sys_Exec` makes nobody wait. -/
theorem exec_awaits {call : Task} {argl : Int} {args : Pointer} {bytes : List (BitVec 8)}
    {ptcb : PtcbRef} {tcb : TcbRef}
    (awaits : (s.sysExec caller call argl args bytes ptcb tcb).roster.Awaits thread wait) :
    s.roster.Awaits thread wait := by
  have made : (s.exec (s.curproc caller) call argl args bytes ptcb tcb).2.roster.Awaits thread
      wait := Roster.Awaits.of_user awaits
  obtain same | ⟨pid, same⟩ := roster_exec (s := s) (s.curproc caller) call argl args bytes ptcb tcb
  · exact same ▸ made
  · rw [same] at made
    exact made.of_spawn

/-- A thread begins to wait in `sys_ThreadJoin` for a thread of its process that runs. -/
theorem threadJoin_awaits {tid : PtcbRef} {exitval : Pointer}
    (awaits : (s.sysThreadJoin caller tid exitval).roster.Awaits thread wait) :
    s.roster.Awaits thread wait ∨
      thread ∈ s.threads.live ∧ s.MayWait (.threadJoin caller tid exitval) thread wait := by
  obtain same | same | ⟨mine, undetached, ⟨-, -, same⟩ | ⟨-, -, same⟩ | ⟨running, same⟩⟩ :=
    sysThreadJoin_cases (s := s) caller tid exitval
  all_goals rw [same] at awaits
  · exact .inl awaits
  · rw [roster_ret] at awaits
    exact .inl awaits.of_user
  · rw [roster_crash, roster_recordJoin] at awaits
    exact .inl awaits
  · rw [roster_ret, roster_recordJoin] at awaits
    exact .inl awaits.of_user
  · refine mayWait_of_become (roster_kernelWait ..) ?_ awaits
    rintro _ ⟨⟩
    exact .inr ⟨rfl, undetached, running, mine, rfl⟩

theorem threadDetach_awaits {tid : PtcbRef}
    (awaits : (s.sysThreadDetach caller tid).roster.Awaits thread wait) :
    s.roster.Awaits thread wait := by
  obtain same | same := roster_sysThreadDetach (s := s) caller tid
  · exact same ▸ awaits
  · rw [same] at awaits
    exact awaits.of_user

/-- A thread leaves, or waits for the children of the initial process. -/
theorem exit_awaits {exitval : Int}
    (exits : t.roster = s.roster.leave caller ∨
      t.roster = s.roster.become caller (.waiting (.exitLoop exitval)))
    (may : s.roster.Awaits caller (.exitLoop exitval) ∨ s.MayWait label caller (.exitLoop exitval))
    (awaits : t.roster.Awaits thread wait) :
    s.roster.Awaits thread wait ∨ thread ∈ s.threads.live ∧ s.MayWait label thread wait := by
  obtain left | becomes := exits
  · rw [left] at awaits
    exact .inl awaits.of_leave
  · refine mayWait_of_become becomes ?_ awaits
    rintro _ ⟨⟩
    exact may

/-- A thread begins to wait in `sys_WaitChild` for any child, or for one that is alive. -/
theorem waitChild_awaits {cpid : Int} {status : Pointer}
    (awaits : (s.sysWaitChild caller cpid status).roster.Awaits thread wait) :
    s.roster.Awaits thread wait ∨
      thread ∈ s.threads.live ∧ s.MayWait (.waitChild caller cpid status) thread wait := by
  obtain ⟨become, becomes, user | any | ⟨child, specific, named, may⟩⟩ :=
    roster_sysWaitChild (s := s) caller cpid status
  all_goals
    refine mayWait_of_become becomes ?_ awaits
    subst become
    rintro _ ⟨⟩
  · exact .inr ⟨cpid, rfl⟩
  · exact .inr ⟨⟨cpid, rfl, named⟩, may⟩

theorem read_awaits {fd : Int} {size : BitVec 32} {ready : Nat}
    (awaits : (s.sysRead caller fd size ready).roster.Awaits thread wait) :
    s.roster.Awaits thread wait ∨
      thread ∈ s.threads.live ∧ s.MayWait (.read caller fd size ready) thread wait := by
  obtain ⟨status, becomes, rfl | ⟨fcb, device, rfl⟩⟩ := roster_sysRead (s := s) caller fd size ready
  all_goals
    refine mayWait_of_become becomes ?_ awaits
    rintro _ ⟨⟩
  exact .inr ⟨fd, ready, rfl⟩

/-- A thread that waits after a step has waited before it, or begins to wait. -/
theorem act_awaits (moved : act s label = some t) (awaits : t.roster.Awaits thread wait) :
    s.roster.Awaits thread wait ∨ thread ∈ s.threads.live ∧ s.MayWait label thread wait := by
  cases acted_of_act moved with
  | exec => exact .inl (exec_awaits awaits)
  | createThread =>
    rw [roster_sysCreateThread] at awaits
    exact .inl awaits.of_user.of_spawn
  | threadJoin => exact threadJoin_awaits awaits
  | threadDetach => exact .inl (threadDetach_awaits awaits)
  | threadExit _ _ _ exited =>
    rw [roster_sysThreadExit exited] at awaits
    exact .inl awaits.of_leave
  | exit _ _ _ exited => exact exit_awaits (roster_sysExit exited) (.inr rfl) awaits
  | waitChild => exact waitChild_awaits awaits
  | openNull =>
    rw [sysOpenNull, roster_openStream] at awaits
    exact .inl awaits.of_user
  | openTerminal =>
    rw [sysOpenTerminal, roster_openStream] at awaits
    exact .inl awaits.of_user
  | close =>
    rw [roster_sysClose] at awaits
    exact .inl awaits.of_user
  | dup2 =>
    rw [roster_sysDup2] at awaits
    exact .inl awaits.of_user
  | read => exact read_awaits awaits
  | write caller fd size ready =>
    obtain ⟨status, becomes, rfl | ⟨fcb, device, rfl⟩⟩ := roster_sysWrite (s := s) caller fd size ready
    all_goals
      refine mayWait_of_become becomes ?_ awaits
      rintro _ ⟨⟩
  | resumeSpecific caller _ child status back =>
    obtain ⟨become, becomes, round⟩ := roster_specificLoop (s := s) caller child status
    exact .inl (awaits_of_round back ⟨become, becomes, round.imp_right And.left⟩ awaits)
  | resumeAny caller _ status back =>
    exact .inl (awaits_of_round back (roster_anyLoop caller status) awaits)
  | resumeExit caller _ _ back resumes =>
    exact exit_awaits (roster_exitResume resumes) (.inl back.awaits) awaits
  | resumeJoin caller _ target exitval serial back =>
    exact .inl (awaits_of_round back (roster_joinLoop caller target exitval serial) awaits)
  | resumeRead caller ready fcb device size back =>
    exact .inl (awaits_of_round back (roster_deviceRead caller fcb size ready device) awaits)
  | poll caller ready fcb device size =>
    obtain ⟨become, becomes, rfl | rfl⟩ := roster_deviceWrite (s := s) caller fcb size ready device
    all_goals
      refine mayWait_of_become becomes ?_ awaits
      rintro _ ⟨⟩
  | rxReady =>
    rw [roster_rxReady] at awaits
    exact .inl awaits
  | store => exact .inl awaits

end Awaits

end TinyOs.Kernel
