import TinyOs.CondVarInvariant

/-! The kernel monitor of `kernel_cc.c`: `kernel_lock`, `kernel_unlock`,
`kernel_wait_wchan` and `kernel_sleep` as programs over the condition
variables. A thread calls the last three only while it is inside the kernel,
as the `SYSCALL` wrappers do. -/
namespace TinyOs.Monitor
open Library Function
open Scheduler (ThreadState)
open CondVar (Action)

/-- What a thread gives the kernel up for. -/
inductive Exit (Cond : Type*) where
  | unlock
  | wait (cv : Cond) (timed : Bool)
  | sleep (newstate : ThreadState)
  deriving DecidableEq, Repr

/-- Where a thread is in the kernel monitor. -/
inductive Point (Cond : Type*) where
  | user
  /-- In `kernel_lock`, about to lock `kernel_mutex`. -/
  | locking
  /-- At the test of `kernel_sem`, with `kernel_mutex`. -/
  | testing
  /-- In `Cond_Wait(&kernel_mutex, &kernel_sem_cv)`. -/
  | waitingSem
  /-- Past `kernel_sem--`, with `kernel_mutex`. -/
  | acquired
  | inside
  /-- About to lock `kernel_mutex`. -/
  | leaving (exit : Exit Cond)
  /-- About to execute `kernel_sem++`, with `kernel_mutex`. -/
  | posting (exit : Exit Cond)
  /-- At or in `Cond_Signal(&kernel_sem_cv)`, with `kernel_mutex`. -/
  | signalling (exit : Exit Cond)
  /-- Past the signal, with `kernel_mutex`. -/
  | signalled (exit : Exit Cond)
  /-- In the `cv_wait` of `kernel_wait_wchan`. -/
  | waiting (cv : Cond)
  deriving DecidableEq, Repr

structure State (Thread Mutex Cond : Type*) where
  cond : CondVar.State Thread Mutex Cond
  kernelSem : Int
  point : Thread → Point Cond

variable {Thread Mutex Cond : Type*} [DecidableEq Thread] [DecidableEq Mutex] [DecidableEq Cond]

def State.move (s : State Thread Mutex Cond) (thread : Thread) (point : Point Cond) :
    State Thread Mutex Cond :=
  { s with point := update s.point thread point }

section
variable (kernelMutex : Mutex) (kernelSemCv : Cond)

/-- `kernel_mutex` and `kernel_sem_cv` are static in `kernel_cc.c`, so no other
code can name them. -/
def foreign : Action Mutex Cond → Bool
  | .mutexLock mutex | .mutexUnlock mutex | .sleep _ mutex => mutex ≠ kernelMutex
  | .condWait mutex cv _ => mutex ≠ kernelMutex ∧ cv ≠ kernelSemCv
  | .condSignal cv _ => cv ≠ kernelSemCv
  | .advance => true

/-- Where the code of the monitor is after a section of `thread`, or `none` if
that section is not the next one of the code. -/
def next (kernelSem : Int) (returned : Bool) :
    Point Cond → Action Mutex Cond → Option (Point Cond)
  | .user, action => if foreign kernelMutex kernelSemCv action then some .user else none
  | .inside, action => if foreign kernelMutex kernelSemCv action then some .inside else none
  | .locking, action => if action = .mutexLock kernelMutex then some .testing else none
  | .testing, action =>
    if kernelSem ≤ 0 ∧ action = .condWait kernelMutex kernelSemCv false then some .waitingSem
    else none
  | .waitingSem, .advance => if returned then some .testing else some .waitingSem
  | .acquired, action => if action = .mutexUnlock kernelMutex then some .inside else none
  | .leaving exit, action =>
    if action = .mutexLock kernelMutex then some (.posting exit) else none
  | .signalling exit, .condSignal cv broadcast =>
    if cv = kernelSemCv ∧ broadcast = false then some (.signalling exit) else none
  | .signalling exit, .advance =>
    if returned then some (.signalled exit) else some (.signalling exit)
  | .signalled .unlock, action =>
    if action = .mutexUnlock kernelMutex then some .user else none
  | .signalled (.wait cv timed), action =>
    if action = .condWait kernelMutex cv timed then some (.waiting cv) else none
  | .signalled (.sleep newstate), action =>
    if action = .sleep newstate kernelMutex then some .user else none
  | .waiting cv, .advance => if returned then some .testing else some (.waiting cv)
  | _, _ => none

inductive Label (Thread Mutex Cond : Type*) where
  /-- A section of `kernel_cc.c` that touches mutexes or condition variables. -/
  | run (thread : Thread) (action : Action Mutex Cond)
  | kernelLock (thread : Thread)
  | kernelExit (thread : Thread) (exit : Exit Cond)
  /-- `kernel_sem--`, once the test has found it positive. -/
  | semDown (thread : Thread)
  /-- `kernel_sem++`. -/
  | semUp (thread : Thread)
  | wakeup (thread : Thread)
  | dispatch (thread : Thread)
  | preempt (thread : Thread)
  | expire (thread : Thread)
  deriving DecidableEq, Repr

/-- The thread executes code of its own, outside `cv_wait` and the signals. -/
def executes (s : State Thread Mutex Cond) (thread : Thread) : Bool :=
  s.cond.threadState thread = .running ∧ s.cond.point thread = .outside

def schedule (s : State Thread Mutex Cond) (label : CondVar.Label Thread Mutex Cond) :
    Option (State Thread Mutex Cond) :=
  (CondVar.step s.cond label).map fun cond => { s with cond := cond }

def step (s : State Thread Mutex Cond) :
    Label Thread Mutex Cond → Option (State Thread Mutex Cond)
  | .run thread action =>
    match CondVar.step s.cond (.run thread action) with
    | none => none
    | some cond =>
      match next kernelMutex kernelSemCv s.kernelSem (cond.point thread = .outside)
          (s.point thread) action with
      | none => none
      | some point => some ({ s with cond := cond }.move thread point)
  | .kernelLock thread =>
    if executes s thread ∧ s.point thread = .user then some (s.move thread .locking) else none
  | .kernelExit thread exit =>
    if executes s thread ∧ s.point thread = .inside ∧ ∀ timed, exit ≠ .wait kernelSemCv timed then
      some (s.move thread (.leaving exit))
    else none
  | .semDown thread =>
    if executes s thread ∧ s.point thread = .testing ∧ 0 < s.kernelSem then
      some ({ s with kernelSem := s.kernelSem - 1 }.move thread .acquired)
    else none
  | .semUp thread =>
    match s.point thread with
    | .posting exit =>
      if executes s thread then
        some ({ s with kernelSem := s.kernelSem + 1 }.move thread (.signalling exit))
      else none
    | _ => none
  | .wakeup thread => schedule s (.wakeup thread)
  | .dispatch thread => schedule s (.dispatch thread)
  | .preempt thread => schedule s (.preempt thread)
  | .expire thread => schedule s (.expire thread)

end

def boot (threadState : Thread → ThreadState) (stack : Thread → CondVar.Waiter) :
    State Thread Mutex Cond where
  cond := CondVar.boot threadState stack
  kernelSem := 1
  point := fun _ => .user

def machine (kernelMutex : Mutex) (kernelSemCv : Cond) :
    Machine (State Thread Mutex Cond) (Label Thread Mutex Cond) where
  initial s := ∃ threadState stack, s = boot threadState stack
  step := step kernelMutex kernelSemCv

end TinyOs.Monitor
