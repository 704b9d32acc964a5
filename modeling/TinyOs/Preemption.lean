import TinyOs.CondVar
import TinyOs.SchedulerSafety

/-! Mutexes and preemption on any set of cores. Each thread has a stack of what
it is still to do, one step executes the next instruction of the thread of one
core, and an interrupt puts the code of its handler on top. What the scheduler
does under `sched_spinlock` is its own machine. -/
namespace TinyOs.Preemption
open Library Function
open Scheduler (TcbRef ThreadState SchedCause TimerDuration)
open CondVar (Waiter)

/-- The condition variables: that of the kernel semaphore, those of the serial
devices, and all others of the kernel and of user code. -/
inductive Cv (Name : Type*) where
  | kernelSem
  | rxReady (devno : Nat)
  | other (name : Name)
  deriving DecidableEq, Repr

inductive Mutex (Name : Type*) where
  | kernelMutex
  | schedSpinlock
  | activeThreadsSpinlock
  | waitsetLock (cv : Cv Name)
  | user (name : Name)
  deriving DecidableEq, Repr

/-- What a thread may be about to do. -/
inductive Instr (Core Name : Type*) where
  /-- The outer loop of `Mutex_Lock`, at `__atomic_test_and_set`. -/
  | mutexLock (mutex : Mutex Name)
  /-- The inner loop of `Mutex_Lock`. -/
  | mutexSpin (mutex : Mutex Name) (spin : Nat)
  | mutexUnlock (mutex : Mutex Name)
  | preemptOff
  /-- `if(preempt) preempt_on`. -/
  | restore (preempt : Bool)
  /-- The call of `yield`, up to its `preempt_off`. -/
  | yield (cause : SchedCause)
  /-- The section of `yield` under `sched_spinlock`. -/
  | select (cause : SchedCause)
  | swapContext (cause : SchedCause)
  /-- The section of `gain` under `sched_spinlock`, up to `release_TCB`. -/
  | takeOver
  /-- `active_threads++`. -/
  | countThread
  /-- `active_threads--`. -/
  | uncountThread
  /-- The call of `wakeup`, up to its `preempt_off`, perhaps for a waiter in
  `cv_signal`. -/
  | wakeup (thread : TcbRef Core) (signal : Option (Cv Name × Bool))
  /-- The section of `wakeup` under `sched_spinlock`. -/
  | makeReady (thread : TcbRef Core) (signal : Option (Cv Name × Bool)) (preempt : Bool)
  /-- The call of `sleep_releasing`, up to its `preempt_off`. -/
  | sleepReleasing (newstate : ThreadState) (mutex : Mutex Name) (cause : SchedCause)
      (timeout : Option (BitVec 64))
  /-- The section of `sleep_releasing` under `sched_spinlock`, up to its
  `Mutex_Unlock(mx)`. -/
  | fallAsleep (newstate : ThreadState) (cause : SchedCause) (timeout : Option (BitVec 64))
  /-- `cv_wait` puts its waiter into the ring. -/
  | enqueue (cv : Cv Name)
  /-- `cv_wait` tidies up after waking. -/
  | recheck (cv : Cv Name)
  /-- The loop of `cv_signal`, in `Cond_Signal` or in the loop of
  `Cond_Broadcast`. -/
  | cvSignal (cv : Cv Name) (broadcast : Bool)
  /-- `waiter->signalled = 1; return`. -/
  | markSignalled (waiter : TcbRef Core) (cv : Cv Name) (broadcast : Bool)
  /-- `while(kernel_sem<=0) Cond_Wait(..); kernel_sem--`. -/
  | semDown
  /-- `kernel_sem++`. -/
  | semUp
  /-- The loop of `serial_read`. -/
  | readSerial (devno : Nat) (size count : Nat)
  /-- `serial_rx_handler`, up to its `preempt_off`. -/
  | serialRxHandler
  /-- In a system call, between `kernel_lock` and `kernel_unlock`. -/
  | inKernel
  /-- The test of the loop of `idle_thread`. -/
  | idle
  deriving DecidableEq, Repr

structure State (Core Name : Type*) where
  /-- Its `activeThreads` counts the blocks that hold a TCB. -/
  sched : Scheduler.State Core
  activeThreads : BitVec 32
  /-- Who locked a mutex; its flag is set unless this is `none`. -/
  mutex : Mutex Name → Option (TcbRef Core)
  /-- `cctx[core].preemption`, which is also whether interrupts are enabled. -/
  preemption : Core → Bool
  /-- What a thread is still to do before it is back in user code. -/
  code : TcbRef Core → List (Instr Core Name)
  kernelSem : Int
  waitset : Cv Name → List (TcbRef Core)
  waiter : TcbRef Core → Waiter
  serialPorts : Nat
  /-- The `assert` of `cv_wait` has failed. -/
  assertFailed : Bool

variable {Core Name : Type*} [DecidableEq Core] [DecidableEq Name]

/-! ### The functions as code -/

/-- `MUTEX_SPINS`. -/
def mutexSpins : Nat := 1000

def gain (preempt : Bool) : List (Instr Core Name) :=
  [.mutexLock .schedSpinlock, .takeOver, .mutexUnlock .schedSpinlock, .restore preempt]

/-- `yield` past its `preempt_off`. -/
def yieldBody (cause : SchedCause) (preempt : Bool) : List (Instr Core Name) :=
  [.mutexLock .schedSpinlock, .select cause, .mutexUnlock .schedSpinlock, .swapContext cause] ++
    gain preempt

/-- `release_TCB` past `free_thread`. -/
def releaseTcb : List (Instr Core Name) :=
  [.mutexLock .activeThreadsSpinlock, .uncountThread, .mutexUnlock .activeThreadsSpinlock]

/-- `spawn_thread` past `cpu_initialize_context`. -/
def spawnThread : List (Instr Core Name) :=
  [.mutexLock .activeThreadsSpinlock, .countThread, .mutexUnlock .activeThreadsSpinlock]

/-- `thread_start`, up to the function of the thread. -/
def threadStart : List (Instr Core Name) := gain true

/-- `idle_thread`. -/
def idleThread : List (Instr Core Name) := [.yield .idle, .idle]

/-- `wakeup` past its `preempt_off`. -/
def wakeupBody (thread : TcbRef Core) (signal : Option (Cv Name × Bool)) (preempt : Bool) :
    List (Instr Core Name) :=
  [.mutexLock .schedSpinlock, .makeReady thread signal preempt]

/-- What follows the section of `wakeup`: its result tells `cv_signal` to go on
with the next waiter, or to return. -/
def afterWakeup (thread : TcbRef Core) (signal : Option (Cv Name × Bool)) (preempt woke : Bool) :
    List (Instr Core Name) :=
  [.mutexUnlock .schedSpinlock, .restore preempt] ++
    match signal with
    | none => []
    | some (cv, broadcast) =>
      if woke then [.markSignalled thread cv broadcast] else [.cvSignal cv broadcast]

/-- `sleep_releasing` past its `preempt_off`. -/
def sleepBody (newstate : ThreadState) (mutex : Mutex Name) (cause : SchedCause)
    (timeout : Option (BitVec 64)) (preempt : Bool) : List (Instr Core Name) :=
  [.mutexLock .schedSpinlock, .fallAsleep newstate cause timeout, .mutexUnlock mutex,
    .mutexUnlock .schedSpinlock, .yield cause, .restore preempt]

def cvWait (mutex : Mutex Name) (cv : Cv Name) (cause : SchedCause)
    (timeout : Option (BitVec 64)) : List (Instr Core Name) :=
  [.mutexLock (.waitsetLock cv), .enqueue cv, .mutexUnlock mutex,
    .sleepReleasing .stopped (.waitsetLock cv) cause timeout,
    .mutexLock (.waitsetLock cv), .recheck cv, .mutexUnlock (.waitsetLock cv), .mutexLock mutex]

/-- `Cond_Signal` and `Cond_Broadcast`. -/
def condSignal (cv : Cv Name) (broadcast : Bool) : List (Instr Core Name) :=
  [.mutexLock (.waitsetLock cv), .cvSignal cv broadcast, .mutexUnlock (.waitsetLock cv)]

def kernelLock : List (Instr Core Name) :=
  [.mutexLock .kernelMutex, .semDown, .mutexUnlock .kernelMutex]

def kernelUnlock : List (Instr Core Name) :=
  [.mutexLock .kernelMutex, .semUp] ++ condSignal .kernelSem false ++ [.mutexUnlock .kernelMutex]

/-- `kernel_wait_wchan`. -/
def kernelWait (cv : Cv Name) (cause : SchedCause) (timeout : Option (BitVec 64)) :
    List (Instr Core Name) :=
  [.mutexLock .kernelMutex, .semUp] ++ condSignal .kernelSem false ++
    cvWait .kernelMutex cv cause timeout ++ [.semDown, .mutexUnlock .kernelMutex]

def kernelSleep (newstate : ThreadState) (cause : SchedCause) : List (Instr Core Name) :=
  [.mutexLock .kernelMutex, .semUp] ++ condSignal .kernelSem false ++
    [.sleepReleasing newstate .kernelMutex cause none]

def serialRead (devno size : Nat) : List (Instr Core Name) :=
  [.preemptOff, .readSerial devno size 0, .restore true]

/-- `serial_rx_handler` past its `preempt_off`. -/
def serialRxBody (serialPorts : Nat) (preempt : Bool) : List (Instr Core Name) :=
  (List.range serialPorts).flatMap (fun devno => condSignal (.rxReady devno) true) ++
    [.restore preempt]

/-- What user code calls. -/
inductive Call (Name : Type*) where
  | mutexLock (mutex : Name)
  | mutexUnlock (mutex : Name)
  | condWait (mutex cv : Name) (timeout : Option (BitVec 64))
  | condSignal (cv : Name) (broadcast : Bool)
  | systemCall
  deriving DecidableEq, Repr

def Call.code : Call Name → List (Instr Core Name)
  | .mutexLock mutex => [.mutexLock (.user mutex)]
  | .mutexUnlock mutex => [.mutexUnlock (.user mutex)]
  | .condWait mutex cv timeout => cvWait (.user mutex) (.other cv) .user timeout
  | .condSignal cv broadcast => Preemption.condSignal (.other cv) broadcast
  | .systemCall => kernelLock ++ [.inKernel]

/-- What the code of a system call calls. -/
inductive KernelCall (Core Name : Type*) where
  | wakeup (thread : TcbRef Core)
  | signal (cv : Name) (broadcast : Bool)
  | wait (cv : Name) (cause : SchedCause) (timeout : Option (BitVec 64))
  | serialRead (devno size : Nat)
  /-- The `yield(SCHED_IO)` of `serial_write`. -/
  | serialWrite
  /-- `kernel_sleep(EXITED, ..)` of `sys_ThreadExit`. -/
  | exit
  /-- The system call returns. -/
  | unlock
  deriving DecidableEq, Repr

def KernelCall.code : KernelCall Core Name → List (Instr Core Name)
  | .wakeup thread => [.wakeup thread none, .inKernel]
  | .signal cv broadcast => condSignal (.other cv) broadcast ++ [.inKernel]
  | .wait cv cause timeout => kernelWait (.other cv) cause timeout ++ [.inKernel]
  | .serialRead devno size => Preemption.serialRead devno size ++ [.inKernel]
  | .serialWrite => [.yield .io, .inKernel]
  | .exit => kernelSleep .exited .user ++ [.inKernel]
  | .unlock => kernelUnlock

/-! ### Steps -/

namespace State

/-- `CURTHREAD` of a core. -/
def current (s : State Core Name) (core : Core) : TcbRef Core := s.sched.current core

def setCode (s : State Core Name) (thread : TcbRef Core) (code : List (Instr Core Name)) :
    State Core Name :=
  { s with code := update s.code thread code }

def setMutex (s : State Core Name) (mutex : Mutex Name) (locker : Option (TcbRef Core)) :
    State Core Name :=
  { s with mutex := update s.mutex mutex locker }

def setPreemption (s : State Core Name) (core : Core) (preempt : Bool) : State Core Name :=
  { s with preemption := update s.preemption core preempt }

/-- A section of the scheduler. -/
def schedule (s : State Core Name) (label : Scheduler.Label Core) : Option (State Core Name) :=
  (Scheduler.step s.sched label).map fun sched => { s with sched := sched }

/-- A waiter that is still in the ring leaves it; it must not be signalled. -/
def recheckRing (s : State Core Name) (thread : TcbRef Core) (cv : Cv Name) : State Core Name :=
  if (s.waiter thread).removed then s
  else
    { s with
      assertFailed := s.assertFailed || (s.waiter thread).signalled
      waitset := update s.waitset cv ((s.waitset cv).erase thread) }

/-- The thread that leaves the core has exited, and its TCB is to be released. -/
def releases (s : State Core Name) (core : Core) : Bool :=
  s.current core ≠ s.sched.previous core ∧
    (s.sched.tcb (s.sched.previous core)).state = .exited

/-- The core executes the instruction, which its thread has on top of `rest`. -/
def execute (s : State Core Name) (core : Core) (rest : List (Instr Core Name)) :
    Instr Core Name → Option (State Core Name)
  | .mutexLock mutex =>
    if s.mutex mutex = none then
      some ((s.setMutex mutex (some (s.current core))).setCode (s.current core) rest)
    else some (s.setCode (s.current core) (.mutexSpin mutex mutexSpins :: rest))
  | .mutexSpin mutex spin =>
    if s.mutex mutex = none then some (s.setCode (s.current core) (.mutexLock mutex :: rest))
    else if 0 < spin then
      some (s.setCode (s.current core) (.mutexSpin mutex (spin - 1) :: rest))
    else if s.preemption core then
      some (s.setCode (s.current core) (.yield .mutex :: .mutexSpin mutex mutexSpins :: rest))
    else some (s.setCode (s.current core) (.mutexSpin mutex mutexSpins :: rest))
  | .mutexUnlock mutex => some ((s.setMutex mutex none).setCode (s.current core) rest)
  | .preemptOff => some ((s.setPreemption core false).setCode (s.current core) rest)
  | .restore preempt =>
    some ((if preempt then s.setPreemption core true else s).setCode (s.current core) rest)
  | .yield cause =>
    some ((s.setPreemption core false).setCode (s.current core)
      (yieldBody cause (s.preemption core) ++ rest))
  | .swapContext _ => (s.setCode (s.current core) rest).schedule (.swapContext core)
  | .takeOver =>
    (s.setCode (s.current core) (if s.releases core then releaseTcb ++ rest else rest)).schedule
      (.gain core)
  | .countThread =>
    some ({ s with activeThreads := s.activeThreads + 1 }.setCode (s.current core) rest)
  | .uncountThread =>
    some ({ s with activeThreads := s.activeThreads - 1 }.setCode (s.current core) rest)
  | .wakeup thread signal =>
    some ((s.setPreemption core false).setCode (s.current core)
      (wakeupBody thread signal (s.preemption core) ++ rest))
  | .makeReady thread signal preempt =>
    (s.setCode (s.current core)
      (afterWakeup thread signal preempt (Scheduler.wakeup s.sched thread).1 ++ rest)).schedule
        (.wakeup core thread)
  | .sleepReleasing newstate mutex cause timeout =>
    some ((s.setPreemption core false).setCode (s.current core)
      (sleepBody newstate mutex cause timeout (s.preemption core) ++ rest))
  | .fallAsleep newstate cause timeout =>
    (s.setCode (s.current core) rest).schedule (.sleepReleasing core newstate cause timeout)
  | .enqueue cv =>
    some ({ s with
      waitset := update s.waitset cv (s.waitset cv ++ [s.current core])
      waiter := update s.waiter (s.current core) { signalled := false, removed := false }
      }.setCode (s.current core) rest)
  | .recheck cv => some ((s.recheckRing (s.current core) cv).setCode (s.current core) rest)
  | .cvSignal cv broadcast =>
    match s.waitset cv with
    | [] => some (s.setCode (s.current core) rest)
    | waiter :: ring =>
      some ({ s with
        waitset := update s.waitset cv ring
        waiter := update s.waiter waiter { s.waiter waiter with removed := true }
        }.setCode (s.current core) (.wakeup waiter (some (cv, broadcast)) :: rest))
  | .markSignalled waiter cv broadcast =>
    some ({ s with
      waiter := update s.waiter waiter { s.waiter waiter with signalled := true }
      }.setCode (s.current core) (if broadcast then .cvSignal cv broadcast :: rest else rest))
  | .semDown =>
    if s.kernelSem ≤ 0 then
      some (s.setCode (s.current core)
        (cvWait .kernelMutex .kernelSem .user none ++ .semDown :: rest))
    else some ({ s with kernelSem := s.kernelSem - 1 }.setCode (s.current core) rest)
  | .semUp => some ({ s with kernelSem := s.kernelSem + 1 }.setCode (s.current core) rest)
  | .serialRxHandler =>
    some ((s.setPreemption core false).setCode (s.current core)
      (serialRxBody s.serialPorts (s.preemption core) ++ rest))
  | .idle =>
    some (s.setCode (s.current core)
      (if s.activeThreads ≠ 0 then .yield .idle :: .idle :: rest else rest))
  | .select _ | .readSerial .. | .inKernel => none

/-- One round of the loop of `serial_read`, which may find a byte. -/
def readSerial (s : State Core Name) (core : Core) (valid : Bool) (rest : List (Instr Core Name))
    (devno size count : Nat) : State Core Name :=
  s.setCode (s.current core)
    (if count < size then
      if valid then .readSerial devno size (count + 1) :: rest
      else if count = 0 then
        kernelWait (.rxReady devno) .io none ++ .readSerial devno size count :: rest
      else rest
    else rest)

end State

inductive Label (Core Name : Type*) where
  | run (core : Core)
  /-- The section of `yield`, with what was left of the time slice. -/
  | select (core : Core) (remaining : TimerDuration)
  | readSerial (core : Core) (valid : Bool)
  | call (core : Core) (call : Call Name)
  | kernelCall (core : Core) (call : KernelCall Core Name)
  /-- `spawn_thread`, called from a system call. -/
  | spawnThread (core : Core) (address : Nat)
  /-- The ALARM interrupt, whose handler yields. -/
  | alarm (core : Core)
  /-- The SERIAL_RX_READY interrupt. -/
  | serialRxReady (core : Core)
  | tick (clock : BitVec 64)
  deriving DecidableEq, Repr

def step (s : State Core Name) : Label Core Name → Option (State Core Name)
  | .run core =>
    match s.code (s.current core) with
    | [] => none
    | instr :: rest => s.execute core rest instr
  | .select core remaining =>
    match s.code (s.current core) with
    | .select cause :: rest =>
      (s.setCode (s.current core) rest).schedule (.yield core cause remaining)
    | _ => none
  | .readSerial core valid =>
    match s.code (s.current core) with
    | .readSerial devno size count :: rest => some (s.readSerial core valid rest devno size count)
    | _ => none
  | .call core call =>
    match s.code (s.current core), s.current core with
    | [], .heap _ => some (s.setCode (s.current core) call.code)
    | _, _ => none
  | .kernelCall core call =>
    match s.code (s.current core) with
    | [.inKernel] => some (s.setCode (s.current core) call.code)
    | _ => none
  | .spawnThread core address =>
    match s.code (s.current core) with
    | [.inKernel] =>
      ((s.setCode (.heap address) threadStart).setCode (s.current core)
        (spawnThread ++ [.inKernel])).schedule (.spawnThread core address)
    | _ => none
  | .alarm core =>
    if s.preemption core then
      some (s.setCode (s.current core) (.yield .quantum :: s.code (s.current core)))
    else none
  | .serialRxReady core =>
    if s.preemption core then
      some (s.setCode (s.current core) (.serialRxHandler :: s.code (s.current core)))
    else none
  | .tick clock => s.schedule (.tick clock)

/-- Every core has entered `run_scheduler`, and the main thread of the boot
task is ready. -/
def boot (memory : Nat → Scheduler.Tcb) (clock : BitVec 64) (main : Nat) (waiter : TcbRef Core → Waiter)
    (serialPorts : Nat) : State Core Name where
  sched := (Scheduler.wakeup (Scheduler.spawnThread (Scheduler.boot memory clock) main)
    (.heap main)).2
  activeThreads := 1
  mutex := fun _ => none
  preemption := fun _ => true
  code := fun
    | .idleThread _ => idleThread
    | .heap _ => threadStart
  kernelSem := 1
  waitset := fun _ => []
  waiter := waiter
  serialPorts := serialPorts
  assertFailed := false

def machine (Core Name : Type*) [DecidableEq Core] [DecidableEq Name] :
    Machine (State Core Name) (Label Core Name) where
  initial s := ∃ memory clock main waiter serialPorts,
    s = boot memory clock main waiter serialPorts
  step := step

/-! ### Hopeless spins -/

namespace State

/-- The core is in `Mutex_Lock` of a mutex that is locked. -/
def spinsOn (s : State Core Name) (core : Core) : Option (Mutex Name) :=
  match s.code (s.current core) with
  | .mutexLock mutex :: _ | .mutexSpin mutex _ :: _ =>
    if s.mutex mutex = none then none else some mutex
  | _ => none

/-- Code that spins with preemption off waits for a thread that executes on
another core. -/
def NoHopelessSpin (s : State Core Name) : Prop :=
  ∀ core mutex, s.preemption core = false → s.spinsOn core = some mutex →
    ∃ other, other ≠ core ∧ s.mutex mutex = some (s.current other)

end State

end TinyOs.Preemption
