import Mathlib.Data.BitVec
import Mathlib.Data.List.Sort
import TinyOs.Library.Machine

/-! The scheduler of `kernel_sched.c` as a machine over any set of cores. One
step is one section executed under `sched_spinlock` (or the context switch
between two of them), so every interleaving of the cores is a run. The queues
are lists of TCBs: an `rlnode` ring is its sequence, and unlinking a node
removes it from whichever list holds it. -/
namespace TinyOs.Scheduler
open Library Function

inductive ThreadState where
  | init | ready | running | stopped | exited
  deriving DecidableEq, Repr

inductive ThreadPhase where
  | ctxClean | ctxDirty
  deriving DecidableEq, Repr

inductive ThreadType where
  | idleThread | normalThread
  deriving DecidableEq, Repr

inductive SchedCause where
  | quantum | io | mutex | pipe | poll | idle | user
  deriving DecidableEq, Repr

/-- `uint64_t` microseconds. -/
abbrev TimerDuration := BitVec 64

/-- `NO_TIMEOUT`, that is `(TimerDuration)-1`. -/
def noTimeout : TimerDuration := -1

def quantum : TimerDuration := 10000

def schedMaxLevel : Int := 3

def schedMaxScheduled : Int := 3

structure Tcb where
  priority : Int
  type : ThreadType
  state : ThreadState
  phase : ThreadPhase
  wakeupTime : TimerDuration
  its : TimerDuration
  rts : TimerDuration
  currCause : SchedCause
  lastCause : SchedCause
  deriving DecidableEq, Repr

/-- A `TCB*`: the idle thread embedded in a core's control block, or a block
of heap memory. -/
inductive TcbRef (Core : Type*) where
  | idleThread (core : Core)
  | heap (address : Nat)
  deriving DecidableEq, Repr

structure Ccb (Core : Type*) where
  currentThread : TcbRef Core
  previousThread : TcbRef Core

/-- Where a core is between two sections under `sched_spinlock`. -/
inductive Point (Core : Type*) where
  /-- Running the code of its current thread. -/
  | executing
  /-- Past the locked section of `sleep_releasing`, about to call `yield`. -/
  | blocked (cause : SchedCause)
  /-- Past the locked section of `yield`, which chose `next`. -/
  | selected (next : TcbRef Core)
  /-- On the stack of the chosen thread, about to call `gain`. -/
  | switched
  deriving DecidableEq, Repr

structure State (Core : Type*) where
  tcb : TcbRef Core → Tcb
  /-- Which heap blocks hold a TCB. -/
  allocated : Nat → Bool
  activeThreads : BitVec 32
  sched : Int → List (TcbRef Core)
  timeoutList : List (TcbRef Core)
  scheduled : Int
  cctx : Core → Ccb Core
  point : Core → Point Core
  /-- The millisecond clock of the machine. -/
  systemClock : BitVec 64
  /-- Some `assert` of `kernel_sched.c` has failed. -/
  assertFailed : Bool

variable {Core : Type*} [DecidableEq Core]

namespace State

/-- `CURTHREAD` of a core. -/
def current (s : State Core) (core : Core) : TcbRef Core := (s.cctx core).currentThread

def previous (s : State Core) (core : Core) : TcbRef Core := (s.cctx core).previousThread

/-- The memory a `TCB*` points to holds a TCB. -/
def holds (s : State Core) : TcbRef Core → Bool
  | .idleThread _ => true
  | .heap address => s.allocated address

def setTcb (s : State Core) (thread : TcbRef Core) (tcb : Tcb) : State Core :=
  { s with tcb := update s.tcb thread tcb }

def setPoint (s : State Core) (core : Core) (point : Point Core) : State Core :=
  { s with point := update s.point core point }

def setCore (s : State Core) (core : Core) (ccb : Ccb Core) : State Core :=
  { s with cctx := update s.cctx core ccb }

def check (s : State Core) (condition : Bool) : State Core :=
  { s with assertFailed := s.assertFailed || !condition }

end State

/-- `bios_clock`: microseconds modulo 2^64. -/
def biosClock (s : State Core) : TimerDuration := s.systemClock * 1000

/-- `spawn_thread`, up to the fields no scheduler section reads. -/
def spawnThread (s : State Core) (address : Nat) : State Core :=
  { s.setTcb (.heap address)
      { priority := 0, type := .normalThread, state := .init, phase := .ctxClean
        wakeupTime := noTimeout, its := quantum, rts := quantum
        currCause := .idle, lastCause := .idle } with
    allocated := update s.allocated address true
    activeThreads := s.activeThreads + 1 }

/-- `release_TCB`. -/
def releaseTcb (s : State Core) : TcbRef Core → State Core
  | .idleThread _ => s
  | .heap address =>
    { s with
      allocated := update s.allocated address false
      activeThreads := s.activeThreads - 1 }

/-- `rlist_remove(&tcb->sched_node)`. -/
def rlistRemove (s : State Core) (thread : TcbRef Core) : State Core :=
  { s with
    sched := fun level => (s.sched level).erase thread
    timeoutList := s.timeoutList.erase thread }

/-- The node of a TCB is not a singleton ring. -/
def linked (s : State Core) (thread : TcbRef Core) : Bool :=
  s.timeoutList.contains thread || [0, 1, 2].any fun level => (s.sched level).contains thread

def schedRegisterTimeout (s : State Core) (thread : TcbRef Core) (timeout : TimerDuration) :
    State Core :=
  if timeout ≠ noTimeout then
    let s := s.setTcb thread { s.tcb thread with wakeupTime := biosClock s + timeout }
    -- The scan stops at the first entry with a later deadline.
    { s with
      timeoutList := s.timeoutList.orderedInsert
        (fun new entry => (s.tcb new).wakeupTime < (s.tcb entry).wakeupTime) thread }
  else s

/-- `sched_queue_add`. Restarting a halted core touches no scheduler data. -/
def schedQueueAdd (s : State Core) (thread : TcbRef Core) : State Core :=
  let level := (s.tcb thread).priority
  { s with sched := update s.sched level (s.sched level ++ [thread]) }

def schedMakeReady (s : State Core) (thread : TcbRef Core) : State Core :=
  let s := s.check ((s.tcb thread).state = .stopped ∨ (s.tcb thread).state = .init)
  let s :=
    if (s.tcb thread).wakeupTime ≠ noTimeout then
      let s := s.check (linked s thread ∧ (s.tcb thread).state = .stopped)
      let s := rlistRemove s thread
      s.setTcb thread { s.tcb thread with wakeupTime := noTimeout }
    else s
  let s := s.setTcb thread { s.tcb thread with state := .ready }
  if (s.tcb thread).phase = .ctxClean then schedQueueAdd s thread else s

/-- The loop of `sched_wakeup_expired_timeouts`. Each round unlinks the head,
so the length of the list bounds the rounds. -/
def wakeupExpired (now : TimerDuration) : Nat → State Core → State Core
  | 0, s => s
  | fuel + 1, s =>
    match s.timeoutList with
    | [] => s
    | thread :: _ =>
      if now < (s.tcb thread).wakeupTime then s
      else wakeupExpired now fuel (schedMakeReady s thread)

def schedWakeupExpiredTimeouts (s : State Core) : State Core :=
  wakeupExpired (biosClock s) s.timeoutList.length s

/-- The scan of `sched_queue_select` over the remaining indices `i`. Past
`SCHED_MAX_SCHEDULED` decisions it looks at `SCHED[i % 4]` and resets the
counter when it finds a thread. -/
def schedScan : List Int → State Core → Option (TcbRef Core) × State Core
  | [], s => (none, s)
  | i :: rest, s =>
    if s.scheduled ≤ schedMaxScheduled then
      match s.sched i with
      | thread :: queue => (some thread, { s with sched := update s.sched i queue })
      | [] => schedScan rest s
    else
      match s.sched (i % 4) with
      | thread :: queue =>
        (some thread, { s with sched := update s.sched (i % 4) queue, scheduled := 0 })
      | [] => schedScan rest s

def schedQueueSelect (s : State Core) (core : Core) : TcbRef Core × State Core :=
  let (selected, s) := schedScan [0, 1, 2] s
  let next := selected.getD
    (if (s.tcb (s.current core)).state = .ready then s.current core else .idleThread core)
  (next, s.setTcb next { s.tcb next with its := quantum })

/-- The section of `wakeup`, with its return value. -/
def wakeup (s : State Core) (thread : TcbRef Core) : Bool × State Core :=
  if (s.tcb thread).state = .stopped ∨ (s.tcb thread).state = .init then
    (true, schedMakeReady s thread)
  else (false, s)

/-- The `timeout` argument of the sleeping calls: none for `NO_TIMEOUT`, or
the milliseconds `Cond_TimedWait` converts. -/
def sleepTimeout : Option (BitVec 64) → TimerDuration
  | none => noTimeout
  | some timeout => timeout * 1000

/-- The locked section of `sleep_releasing`. -/
def sleepReleasing (s : State Core) (core : Core) (newstate : ThreadState) (cause : SchedCause)
    (timeout : TimerDuration) : State Core :=
  let thread := s.current core
  let s := s.check (newstate = .stopped ∨ newstate = .exited)
  let s := s.setTcb thread { s.tcb thread with state := newstate }
  let s := if newstate ≠ .exited then schedRegisterTimeout s thread timeout else s
  s.setPoint core (.blocked cause)

/-- The dynamic priority after a time slice that ended for `cause`. -/
def adjustPriority (cause : SchedCause) (priority : Int) : Int :=
  let priority :=
    if cause = .quantum ∧ priority < schedMaxLevel - 1 then priority + 1 else priority
  let priority := if cause = .io ∧ 0 < priority then priority - 1 else priority
  if cause = .mutex ∧ priority < schedMaxLevel - 1 then priority + 1 else priority

/-- The first half of the locked section of `yield`: the accounting of the
time slice that ends. -/
def endTimeSlice (s : State Core) (core : Core) (cause : SchedCause)
    (remaining : TimerDuration) : State Core :=
  let thread := s.current core
  let tcb := s.tcb thread
  let s := s.setTcb thread
    { tcb with
      state := if tcb.state = .running then .ready else tcb.state
      rts := remaining
      lastCause := tcb.currCause
      currCause := cause
      priority := adjustPriority cause tcb.priority }
  s.setPoint core (.blocked cause)

/-- The second half of the locked section of `yield`: the choice of the next
thread. -/
def selectNext (s : State Core) (core : Core) : State Core :=
  let (next, s) := schedQueueSelect s core
  let s := { s with scheduled := s.scheduled + 1 }
  (s.setCore core { s.cctx core with previousThread := s.current core }).setPoint core
    (.selected next)

def yield (s : State Core) (core : Core) (cause : SchedCause) (remaining : TimerDuration) :
    State Core :=
  selectNext (schedWakeupExpiredTimeouts (endTimeSlice s core cause remaining)) core

/-- The context switch of `yield`, outside the lock. -/
def swapContext (s : State Core) (core : Core) (next : TcbRef Core) : State Core :=
  (s.setCore core { s.cctx core with currentThread := next }).setPoint core .switched

def gain (s : State Core) (core : Core) : State Core :=
  let current := s.current core
  let prev := s.previous core
  let s := s.setTcb current
    { s.tcb current with state := .running, phase := .ctxDirty, rts := (s.tcb current).its }
  let s :=
    if current ≠ prev then
      let s := s.setTcb prev { s.tcb prev with phase := .ctxClean }
      match (s.tcb prev).state with
      | .ready => if (s.tcb prev).type ≠ .idleThread then schedQueueAdd s prev else s
      | .exited => releaseTcb s prev
      | .stopped => s
      | _ => s.check false
    else s
  s.setPoint core .executing

inductive Label (Core : Type*) where
  | spawnThread (core : Core) (address : Nat)
  | wakeup (core : Core) (thread : TcbRef Core)
  | sleepReleasing (core : Core) (newstate : ThreadState) (cause : SchedCause)
      (timeout : Option (BitVec 64))
  | yield (core : Core) (cause : SchedCause) (remaining : TimerDuration)
  | swapContext (core : Core)
  | gain (core : Core)
  | tick (clock : BitVec 64)

/-- One atomic section of one core. Only the code of a normal thread sleeps,
and its callers pass `STOPPED` or `EXITED`. -/
def step (s : State Core) : Label Core → Option (State Core)
  | .spawnThread core address =>
    if s.point core = .executing ∧ s.allocated address = false then
      some (spawnThread s address)
    else none
  | .wakeup core thread =>
    if s.point core = .executing ∧ s.holds thread then some (wakeup s thread).2 else none
  | .sleepReleasing core newstate cause timeout =>
    match s.current core with
    | .idleThread _ => none
    | .heap _ =>
      if s.point core = .executing ∧ (newstate = .stopped ∨ newstate = .exited) then
        some (sleepReleasing s core newstate cause (sleepTimeout timeout))
      else none
  | .yield core cause remaining =>
    if s.point core = .executing ∨ s.point core = .blocked cause then
      some (yield s core cause remaining)
    else none
  | .swapContext core =>
    match s.point core with
    | .selected next => some (swapContext s core next)
    | _ => none
  | .gain core => if s.point core = .switched then some (gain s core) else none
  | .tick clock => some { s with systemClock := clock }

/-- The steps there are, each with what it requires. -/
inductive Stepped (s : State Core) : Label Core → State Core → Prop where
  | spawnThread {core address} (executing : s.point core = .executing)
      (free : s.allocated address = false) :
      Stepped s (.spawnThread core address) (spawnThread s address)
  | wakeup {core thread} (executing : s.point core = .executing) (held : s.holds thread) :
      Stepped s (.wakeup core thread) (wakeup s thread).2
  | sleepReleasing {core address newstate cause timeout} (executing : s.point core = .executing)
      (normal : s.current core = .heap address)
      (sleeps : newstate = .stopped ∨ newstate = .exited) :
      Stepped s (.sleepReleasing core newstate cause timeout)
        (sleepReleasing s core newstate cause (sleepTimeout timeout))
  | yield {core cause remaining}
      (point : s.point core = .executing ∨ s.point core = .blocked cause) :
      Stepped s (.yield core cause remaining) (yield s core cause remaining)
  | swapContext {core next} (point : s.point core = .selected next) :
      Stepped s (.swapContext core) (swapContext s core next)
  | gain {core} (point : s.point core = .switched) : Stepped s (.gain core) (gain s core)
  | tick {clock} : Stepped s (.tick clock) { s with systemClock := clock }

theorem stepped_of_step {s t : State Core} {label : Label Core} (moved : step s label = some t) :
    Stepped s label t := by
  cases label with
  | spawnThread core address =>
    obtain ⟨⟨executing, free⟩, rfl⟩ : _ ∧ spawnThread s address = t := by simpa [step] using moved
    exact .spawnThread executing free
  | wakeup core thread =>
    obtain ⟨⟨executing, held⟩, rfl⟩ : _ ∧ (wakeup s thread).2 = t := by simpa [step] using moved
    exact .wakeup executing held
  | sleepReleasing core newstate cause timeout =>
    cases normal : s.current core with
    | idleThread c => simp [step, normal] at moved
    | heap address =>
      obtain ⟨⟨executing, sleeps⟩, rfl⟩ :
          _ ∧ sleepReleasing s core newstate cause (sleepTimeout timeout) = t := by
        simpa [step, normal] using moved
      exact .sleepReleasing executing normal sleeps
  | yield core cause remaining =>
    obtain ⟨point, rfl⟩ : _ ∧ yield s core cause remaining = t := by simpa [step] using moved
    exact .yield point
  | swapContext core =>
    cases point : s.point core with
    | selected next =>
      obtain rfl : swapContext s core next = t := by simpa [step, point] using moved
      exact .swapContext point
    | executing | blocked cause | switched => simp [step, point] at moved
  | gain core =>
    obtain ⟨point, rfl⟩ : _ ∧ gain s core = t := by simpa [step] using moved
    exact .gain point
  | tick clock =>
    obtain rfl : { s with systemClock := clock } = t := by simpa [step] using moved
    exact .tick

/-- The idle thread as `run_scheduler` sets it up. -/
def idleTcb : Tcb :=
  { priority := 0, type := .idleThread, state := .running, phase := .ctxDirty
    wakeupTime := noTimeout, its := quantum, rts := quantum, currCause := .idle
    lastCause := .idle }

/-- Every core has entered `run_scheduler`; the heap and the clock are
arbitrary. -/
def boot (memory : Nat → Tcb) (clock : BitVec 64) : State Core where
  tcb := fun
    | .idleThread _ => idleTcb
    | .heap address => memory address
  allocated := fun _ => false
  activeThreads := 0
  sched := fun _ => []
  timeoutList := []
  scheduled := 0
  cctx := fun core => ⟨.idleThread core, .idleThread core⟩
  point := fun _ => .executing
  systemClock := clock
  assertFailed := false

def machine (Core : Type*) [DecidableEq Core] : Machine (State Core) (Label Core) where
  initial s := ∃ memory clock, s = boot memory clock
  step := step

end TinyOs.Scheduler
