import TinyOs.Scheduler

/-! The condition variables of `kernel_cc.c` as a machine over any threads,
mutexes and condition variables. One step is one section under a
`waitset_lock` or `sched_spinlock`, or a part of one, so signals, broadcasts,
timeouts and the waiters' own clean-up interleave freely. An interrupt handler
that signals is a thread of its own here. -/
namespace TinyOs.CondVar
open Library Function
open Scheduler (ThreadState)

/-- The `__cv_waiter` on the stack of a waiting thread. Its `node` is its
place in the ring and its `thread` is the thread that owns the stack. -/
structure Waiter where
  signalled : Bool
  removed : Bool
  deriving DecidableEq, Repr

/-- One call of `Cond_Signal` or `Cond_Broadcast`. The code has only the first
two; `found` is the ring when the call locked it and `readied` the threads the
call has made `READY`, the last first. -/
structure Signal (Thread Cond : Type*) where
  cv : Cond
  broadcast : Bool
  found : List Thread
  readied : List Thread
  deriving DecidableEq, Repr

/-- Where a thread is in `cv_wait`, `Cond_Signal` or `Cond_Broadcast`. -/
inductive Point (Thread Mutex Cond : Type*) where
  | outside
  /-- In the ring, with `waitset_lock` and the caller's mutex. -/
  | enqueued (mutex : Mutex) (cv : Cond) (timed : Bool)
  /-- The caller's mutex is unlocked, `waitset_lock` is not. -/
  | released (mutex : Mutex) (cv : Cond) (timed : Bool)
  /-- Past the locked section of `sleep_releasing`. -/
  | asleep (mutex : Mutex) (cv : Cond)
  /-- Woke up and tidied up, with `waitset_lock`. -/
  | rechecked (mutex : Mutex) (cv : Cond)
  /-- About to lock the caller's mutex and return. -/
  | relocking (mutex : Mutex)
  /-- At the loop of `cv_signal`, with `waitset_lock`. -/
  | scanning (call : Signal Thread Cond)
  /-- Took the waiter out of the ring, about to call `wakeup`. -/
  | taken (call : Signal Thread Cond) (waiter : Thread)
  /-- `wakeup` returned 1 for the waiter. -/
  | woken (call : Signal Thread Cond) (waiter : Thread)
  /-- About to unlock `waitset_lock` and return. -/
  | finishing (call : Signal Thread Cond)
  deriving DecidableEq, Repr

/-- What made a sleeping thread `READY`. -/
inductive Readier where
  | signal | timeout
  deriving DecidableEq, Repr

structure State (Thread Mutex Cond : Type*) where
  /-- Who locked a mutex; its flag is set unless this is `none`. -/
  mutex : Mutex → Option Thread
  waitsetLock : Cond → Option Thread
  /-- The ring from `cv->waitset` on; no waiter is the null pointer. -/
  waitset : Cond → List Thread
  waiter : Thread → Waiter
  threadState : Thread → ThreadState
  /-- The thread is in `TIMEOUT_LIST`. -/
  timed : Thread → Bool
  point : Thread → Point Thread Mutex Cond
  /-- What the last `cv_wait` of a thread returned. -/
  result : Thread → Bool
  /-- Some `assert` of `cv_wait` or `sched_make_ready` has failed. -/
  assertFailed : Bool
  /-- What made a thread `READY` since it entered its current `cv_wait`. -/
  readiedBy : Thread → Option Readier
  /-- How often a signal or broadcast has made a thread `READY`. -/
  signalWakeups : Thread → Nat
  /-- How often `cv_wait` has returned 1 to a thread. -/
  onesReturned : Thread → Nat

variable {Thread Mutex Cond : Type*} [DecidableEq Thread] [DecidableEq Mutex] [DecidableEq Cond]

/-- `sched_make_ready`, as far as a thread that sleeps on a condition variable
can tell. -/
def schedMakeReady (s : State Thread Mutex Cond) (thread : Thread) (readier : Readier) :
    State Thread Mutex Cond :=
  { s with
    assertFailed := s.assertFailed || !(s.threadState thread = .stopped ∨
      s.threadState thread = .init)
    threadState := update s.threadState thread .ready
    timed := update s.timed thread false
    readiedBy := update s.readiedBy thread (some readier) }

def removeFromRing (waitset : Cond → List Thread) (cv : Cond) (waiter : Thread) :
    Cond → List Thread :=
  update waitset cv ((waitset cv).erase waiter)

/-- The head of `cv_wait`: the waiter joins the back of the ring. -/
def enqueue (s : State Thread Mutex Cond) (thread : Thread) (mutex : Mutex) (cv : Cond)
    (timed : Bool) : State Thread Mutex Cond :=
  { s with
    waitsetLock := update s.waitsetLock cv (some thread)
    waiter := update s.waiter thread { signalled := false, removed := false }
    waitset := update s.waitset cv (s.waitset cv ++ [thread])
    readiedBy := update s.readiedBy thread none
    point := update s.point thread (.enqueued mutex cv timed) }

/-- `Mutex_Unlock(mutex)` in `cv_wait`. -/
def releaseMutex (s : State Thread Mutex Cond) (thread : Thread) (mutex : Mutex) (cv : Cond)
    (timed : Bool) : State Thread Mutex Cond :=
  { s with
    mutex := update s.mutex mutex none
    point := update s.point thread (.released mutex cv timed) }

/-- The locked section of `sleep_releasing(STOPPED, &cv->waitset_lock, ..)`. -/
def sleepReleasing (s : State Thread Mutex Cond) (thread : Thread) (mutex : Mutex) (cv : Cond)
    (timed : Bool) : State Thread Mutex Cond :=
  { s with
    threadState := update s.threadState thread .stopped
    timed := update s.timed thread timed
    waitsetLock := update s.waitsetLock cv none
    point := update s.point thread (.asleep mutex cv) }

/-- The tidying-up section of `cv_wait`: a waiter that is still in the ring is
not signalled and removes itself. -/
def recheck (s : State Thread Mutex Cond) (thread : Thread) (mutex : Mutex) (cv : Cond) :
    State Thread Mutex Cond :=
  let waiter := s.waiter thread
  { s with
    waitsetLock := update s.waitsetLock cv (some thread)
    assertFailed := s.assertFailed || (!waiter.removed && waiter.signalled)
    waitset := if waiter.removed then s.waitset else removeFromRing s.waitset cv thread
    point := update s.point thread (.rechecked mutex cv) }

def releaseWaitset (s : State Thread Mutex Cond) (thread : Thread) (mutex : Mutex) (cv : Cond) :
    State Thread Mutex Cond :=
  { s with
    waitsetLock := update s.waitsetLock cv none
    point := update s.point thread (.relocking mutex) }

/-- `Mutex_Lock(mutex); return waiter.signalled`. -/
def returnSignalled (s : State Thread Mutex Cond) (thread : Thread) (mutex : Mutex) :
    State Thread Mutex Cond :=
  let signalled := (s.waiter thread).signalled
  { s with
    mutex := update s.mutex mutex (some thread)
    result := update s.result thread signalled
    readiedBy := update s.readiedBy thread none
    onesReturned := update s.onesReturned thread (s.onesReturned thread + signalled.toNat)
    point := update s.point thread .outside }

/-- `Mutex_Lock(&cv->waitset_lock)` of `Cond_Signal` and `Cond_Broadcast`. -/
def lockRing (s : State Thread Mutex Cond) (thread : Thread) (cv : Cond) (broadcast : Bool) :
    State Thread Mutex Cond :=
  { s with
    waitsetLock := update s.waitsetLock cv (some thread)
    point := update s.point thread
      (.scanning { cv := cv, broadcast := broadcast, found := s.waitset cv, readied := [] }) }

/-- `remove_from_ring(cv, waiter); waiter->removed = 1`. -/
def takeWaiter (s : State Thread Mutex Cond) (thread : Thread) (call : Signal Thread Cond)
    (waiter : Thread) : State Thread Mutex Cond :=
  { s with
    waitset := removeFromRing s.waitset call.cv waiter
    waiter := update s.waiter waiter { s.waiter waiter with removed := true }
    point := update s.point thread (.taken call waiter) }

/-- The test of the loop of `cv_signal` and the round up to `wakeup`. -/
def scan (s : State Thread Mutex Cond) (thread : Thread) (call : Signal Thread Cond) :
    State Thread Mutex Cond :=
  match s.waitset call.cv with
  | [] => { s with point := update s.point thread (.finishing call) }
  | waiter :: _ => takeWaiter s thread call waiter

/-- `wakeup(waiter->thread)`; when it returns 0 the loop goes on. -/
def wakeup (s : State Thread Mutex Cond) (thread : Thread) (call : Signal Thread Cond)
    (waiter : Thread) : State Thread Mutex Cond :=
  if s.threadState waiter = .stopped ∨ s.threadState waiter = .init then
    let s := schedMakeReady s waiter .signal
    { s with
      signalWakeups := update s.signalWakeups waiter (s.signalWakeups waiter + 1)
      point := update s.point thread
        (.woken { call with readied := waiter :: call.readied } waiter) }
  else { s with point := update s.point thread (.scanning call) }

/-- `waiter->signalled = 1; return`, after which only a broadcast goes on. -/
def markSignalled (s : State Thread Mutex Cond) (thread : Thread) (call : Signal Thread Cond)
    (waiter : Thread) : State Thread Mutex Cond :=
  { s with
    waiter := update s.waiter waiter { s.waiter waiter with signalled := true }
    point := update s.point thread (if call.broadcast then .scanning call else .finishing call) }

def unlockRing (s : State Thread Mutex Cond) (thread : Thread) (call : Signal Thread Cond) :
    State Thread Mutex Cond :=
  { s with
    waitsetLock := update s.waitsetLock call.cv none
    point := update s.point thread .outside }

/-- What the code of a thread may do next. -/
inductive Action (Mutex Cond : Type*) where
  | mutexLock (mutex : Mutex)
  | mutexUnlock (mutex : Mutex)
  /-- `sleep_releasing` outside `cv_wait`, with no timeout. -/
  | sleep (newstate : ThreadState) (mutex : Mutex)
  | condWait (mutex : Mutex) (cv : Cond) (timed : Bool)
  | condSignal (cv : Cond) (broadcast : Bool)
  /-- The next section of the call the thread is in. -/
  | advance
  deriving DecidableEq, Repr

/-- The next section of the call a thread is in. A section that starts by
locking waits until the lock is free. -/
def advance (s : State Thread Mutex Cond) (thread : Thread) :
    Point Thread Mutex Cond → Option (State Thread Mutex Cond)
  | .outside => none
  | .enqueued mutex cv timed => some (releaseMutex s thread mutex cv timed)
  | .released mutex cv timed => some (sleepReleasing s thread mutex cv timed)
  | .asleep mutex cv =>
    if s.waitsetLock cv = none then some (recheck s thread mutex cv) else none
  | .rechecked mutex cv => some (releaseWaitset s thread mutex cv)
  | .relocking mutex =>
    if s.mutex mutex = none then some (returnSignalled s thread mutex) else none
  | .scanning call => some (scan s thread call)
  | .taken call waiter => some (wakeup s thread call waiter)
  | .woken call waiter => some (markSignalled s thread call waiter)
  | .finishing call => some (unlockRing s thread call)

def act (s : State Thread Mutex Cond) (thread : Thread) :
    Action Mutex Cond → Option (State Thread Mutex Cond)
  | .mutexLock mutex =>
    if s.point thread = .outside ∧ s.mutex mutex = none then
      some { s with mutex := update s.mutex mutex (some thread) }
    else none
  | .mutexUnlock mutex =>
    if s.point thread = .outside then some { s with mutex := update s.mutex mutex none }
    else none
  | .sleep newstate mutex =>
    if s.point thread = .outside ∧ (newstate = .stopped ∨ newstate = .exited) then
      some { s with
        threadState := update s.threadState thread newstate
        mutex := update s.mutex mutex none }
    else none
  | .condWait mutex cv timed =>
    if s.point thread = .outside ∧ s.waitsetLock cv = none then
      some (enqueue s thread mutex cv timed)
    else none
  | .condSignal cv broadcast =>
    if s.point thread = .outside ∧ s.waitsetLock cv = none then
      some (lockRing s thread cv broadcast)
    else none
  | .advance => advance s thread (s.point thread)

inductive Label (Thread Mutex Cond : Type*) where
  | run (thread : Thread) (action : Action Mutex Cond)
  /-- `wakeup` of a thread that no condition variable has put to sleep. -/
  | wakeup (thread : Thread)
  | dispatch (thread : Thread)
  | preempt (thread : Thread)
  /-- `sched_wakeup_expired_timeouts` reaches the thread. -/
  | expire (thread : Thread)
  deriving DecidableEq, Repr

def step (s : State Thread Mutex Cond) :
    Label Thread Mutex Cond → Option (State Thread Mutex Cond)
  | .run thread action => if s.threadState thread = .running then act s thread action else none
  | .wakeup thread =>
    if s.point thread = .outside ∧
        (s.threadState thread = .init ∨ s.threadState thread = .stopped) then
      some { s with threadState := update s.threadState thread .ready }
    else none
  | .dispatch thread =>
    if s.threadState thread = .ready then
      some { s with threadState := update s.threadState thread .running }
    else none
  | .preempt thread =>
    if s.threadState thread = .running then
      some { s with threadState := update s.threadState thread .ready }
    else none
  | .expire thread => if s.timed thread then some (schedMakeReady s thread .timeout) else none

/-- Mutexes and condition variables as `MUTEX_INIT` and `COND_INIT` make them.
The threads and their stacks are arbitrary. -/
def boot (threadState : Thread → ThreadState) (stack : Thread → Waiter) :
    State Thread Mutex Cond where
  mutex := fun _ => none
  waitsetLock := fun _ => none
  waitset := fun _ => []
  waiter := stack
  threadState := threadState
  timed := fun _ => false
  point := fun _ => .outside
  result := fun _ => false
  assertFailed := false
  readiedBy := fun _ => none
  signalWakeups := fun _ => 0
  onesReturned := fun _ => 0

def machine (Thread Mutex Cond : Type*) [DecidableEq Thread] [DecidableEq Mutex]
    [DecidableEq Cond] : Machine (State Thread Mutex Cond) (Label Thread Mutex Cond) where
  initial s := ∃ threadState stack, s = boot threadState stack
  step := step

end TinyOs.CondVar
