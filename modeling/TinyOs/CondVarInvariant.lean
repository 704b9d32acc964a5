import TinyOs.CondVar

/-! What holds of a condition variable between any two sections: who is in the
ring, who owns `waitset_lock`, and what a signal under way has done so far. -/
namespace TinyOs.CondVar
open Library Function
open Scheduler (ThreadState)

variable {Thread Mutex Cond : Type*} [DecidableEq Thread]

namespace Point

/-- The condition variable whose `waitset_lock` a thread has locked. -/
def locks : Point Thread Mutex Cond → Option Cond
  | .enqueued _ cv _ | .released _ cv _ | .rechecked _ cv => some cv
  | .scanning call | .taken call _ | .woken call _ | .finishing call => some call.cv
  | .outside | .asleep _ _ | .relocking _ => none

/-- The condition variable a thread waits for, until it has tidied up. -/
def waitsOn : Point Thread Mutex Cond → Option Cond
  | .enqueued _ cv _ | .released _ cv _ | .asleep _ cv => some cv
  | _ => none

/-- The thread has gone to sleep in `cv_wait` and not yet returned. -/
def hasSlept : Point Thread Mutex Cond → Bool
  | .asleep _ _ | .rechecked _ _ | .relocking _ => true
  | _ => false

def call : Point Thread Mutex Cond → Option (Signal Thread Cond)
  | .scanning call | .taken call _ | .woken call _ | .finishing call => some call
  | _ => none

end Point

/-- A signal is about to make the waiter `READY`. -/
def Taken (point : Thread → Point Thread Mutex Cond) (waiter : Thread) : Prop :=
  ∃ signaller call, point signaller = .taken call waiter

/-- A signal has made the waiter `READY` and has not marked it yet. -/
def Woken (point : Thread → Point Thread Mutex Cond) (waiter : Thread) : Prop :=
  ∃ signaller call, point signaller = .woken call waiter

theorem Taken.update {point : Thread → Point Thread Mutex Cond} {waiter : Thread}
    (taken : Taken point waiter) (thread : Thread) (elsewhere : ∀ call, point thread ≠ .taken call waiter)
    (next : Point Thread Mutex Cond) : Taken (update point thread next) waiter := by
  obtain ⟨signaller, call, here⟩ := taken
  have apart : signaller ≠ thread := by
    rintro rfl
    exact elsewhere call here
  exact ⟨signaller, call, by rw [update_of_ne apart, here]⟩

theorem Woken.update {point : Thread → Point Thread Mutex Cond} {waiter : Thread}
    (woken : Woken point waiter) (thread : Thread) (elsewhere : ∀ call, point thread ≠ .woken call waiter)
    (next : Point Thread Mutex Cond) : Woken (update point thread next) waiter := by
  obtain ⟨signaller, call, here⟩ := woken
  have apart : signaller ≠ thread := by
    rintro rfl
    exact elsewhere call here
  exact ⟨signaller, call, by rw [update_of_ne apart, here]⟩

/-- A waiter is asleep until a signal or its timeout readies it; its flags
follow what a signaller has done to it. -/
structure WaiterInv (s : State Thread Mutex Cond) (thread : Thread) : Prop where
  fresh : ∀ mutex cv timed,
    s.point thread = .enqueued mutex cv timed ∨ s.point thread = .released mutex cv timed →
      s.waiter thread = ⟨false, false⟩
  unreadied : (s.point thread).hasSlept = false → s.readiedBy thread = none
  stopped : ∀ mutex cv, s.point thread = .asleep mutex cv →
    (s.threadState thread = .stopped ↔ s.readiedBy thread = none) ∧
      s.threadState thread ≠ .init ∧ s.threadState thread ≠ .exited
  active : s.point thread ≠ .outside → (∀ mutex cv, s.point thread ≠ .asleep mutex cv) →
    s.threadState thread = .ready ∨ s.threadState thread = .running
  awake : (s.point thread).waitsOn = none → (s.point thread).hasSlept = true →
    s.readiedBy thread ≠ none
  removed : ∀ mutex cv, s.point thread = .asleep mutex cv → (s.waiter thread).removed = true →
    s.readiedBy thread = none → Taken s.point thread
  marked : (s.point thread).hasSlept = true → (s.waiter thread).signalled = true →
    s.readiedBy thread = some .signal
  signalled : s.readiedBy thread = some .signal →
    (s.waiter thread).removed = true ∧ ((s.waiter thread).signalled = true ∨ Woken s.point thread)
  timed : s.timed thread = true → s.threadState thread = .stopped ∧
    ∃ mutex cv, s.point thread = .asleep mutex cv
  counted : s.signalWakeups thread =
    s.onesReturned thread + if s.readiedBy thread = some .signal then 1 else 0

/-- Whom a call found in the ring, and what has become of them. -/
structure CallInv (s : State Thread Mutex Cond) (signaller : Thread)
    (call : Signal Thread Cond) : Prop where
  found : ∀ waiter ∈ call.found, ∃ mutex, s.point waiter = .asleep mutex call.cv
  ring : ∀ waiter ∈ s.waitset call.cv, waiter ∈ call.found
  settled : ∀ waiter ∈ call.found, waiter ∈ s.waitset call.cv ∨
    s.readiedBy waiter = some .timeout ∨ waiter ∈ call.readied ∨
      s.point signaller = .taken call waiter
  readied : ∀ waiter ∈ call.readied, waiter ∈ call.found ∧ waiter ∉ s.waitset call.cv ∧
    s.readiedBy waiter = some .signal
  once : call.readied.Nodup
  taken : ∀ waiter, s.point signaller = .taken call waiter →
    waiter ∈ call.found ∧ waiter ∉ s.waitset call.cv ∧ s.waiter waiter = ⟨false, true⟩ ∧
      s.readiedBy waiter ≠ some .signal
  woken : ∀ waiter, s.point signaller = .woken call waiter →
    s.waiter waiter = ⟨false, true⟩ ∧ ∃ others, call.readied = waiter :: others
  single : call.broadcast = false →
    (∀ waiter, s.point signaller = .woken call waiter → call.readied = [waiter]) ∧
    (s.point signaller = .finishing call →
      (call.readied = [] ∧ s.waitset call.cv = []) ∨ ∃ waiter, call.readied = [waiter]) ∧
    (s.point signaller = .scanning call ∨ (∃ waiter, s.point signaller = .taken call waiter) →
      call.readied = [])
  emptied : call.broadcast = true → s.point signaller = .finishing call → s.waitset call.cv = []

structure Inv (s : State Thread Mutex Cond) : Prop where
  lock_held : ∀ cv thread, s.waitsetLock cv = some thread ↔ (s.point thread).locks = some cv
  ring_nodup : ∀ cv, (s.waitset cv).Nodup
  ring_member : ∀ cv thread, thread ∈ s.waitset cv ↔
    (s.point thread).waitsOn = some cv ∧ (s.waiter thread).removed = false
  waiters : ∀ thread, WaiterInv s thread
  calls : ∀ thread call, (s.point thread).call = some call → CallInv s thread call
  asserts : s.assertFailed = false

omit [DecidableEq Thread] in
theorem boot_inv (threadState : Thread → ThreadState) (stack : Thread → Waiter) :
    Inv (boot threadState stack : State Thread Mutex Cond) where
  lock_held cv thread := by simp [boot, Point.locks]
  ring_nodup cv := by simp [boot]
  ring_member cv thread := by simp [boot, Point.waitsOn]
  waiters thread := by constructor <;> simp [boot, Point.hasSlept]
  calls thread call at_call := by simp [boot, Point.call] at at_call
  asserts := rfl

variable {s t : State Thread Mutex Cond}

omit [DecidableEq Thread] in
/-- A step that leaves a thread, its waiter and whoever signals it alone keeps
what holds of the thread. -/
theorem WaiterInv.frame {thread : Thread} (before : WaiterInv s thread)
    (point : t.point thread = s.point thread) (waiter : t.waiter thread = s.waiter thread)
    (readiedBy : t.readiedBy thread = s.readiedBy thread)
    (timed : t.timed thread = s.timed thread)
    (signalWakeups : t.signalWakeups thread = s.signalWakeups thread)
    (onesReturned : t.onesReturned thread = s.onesReturned thread)
    (threadState : t.threadState thread = s.threadState thread)
    (taken : Taken s.point thread → Taken t.point thread) (woken : Woken s.point thread → Woken t.point thread) :
    WaiterInv t thread := by
  obtain ⟨fresh, unreadied, stopped, active, awake, removed, marked, signalled, timers, counted⟩ := before
  constructor <;> grind

omit [DecidableEq Thread] in
/-- A step that leaves the ring of a call, its signaller and the waiters it
found alone keeps what holds of the call. -/
theorem CallInv.frame {signaller : Thread} {call : Signal Thread Cond}
    (before : CallInv s signaller call) (point : t.point signaller = s.point signaller)
    (waitset : t.waitset call.cv = s.waitset call.cv)
    (same : ∀ waiter ∈ call.found, t.point waiter = s.point waiter ∧
      t.waiter waiter = s.waiter waiter ∧ t.readiedBy waiter = s.readiedBy waiter) :
    CallInv t signaller call := by
  obtain ⟨found, ring, settled, readied, once, taken, woken, single, emptied⟩ := before
  constructor <;> grind

/-- A section of `thread` that touches no other thread, and the ring of a
condition variable only if nobody else has locked it. -/
structure Quiet (s t : State Thread Mutex Cond) (thread : Thread) : Prop where
  others : ∀ other ≠ thread, t.point other = s.point other ∧ t.waiter other = s.waiter other ∧
    t.readiedBy other = s.readiedBy other ∧ t.timed other = s.timed other ∧
    t.signalWakeups other = s.signalWakeups other ∧ t.onesReturned other = s.onesReturned other ∧
    t.threadState other = s.threadState other
  ring : ∀ cv, t.waitset cv = s.waitset cv ∨ s.waitsetLock cv = none ∨
    s.waitsetLock cv = some thread
  free : ∀ mutex cv, s.point thread = .asleep mutex cv → s.waitsetLock cv = none
  harmless : ∀ call waiter, s.point thread ≠ .taken call waiter ∧ s.point thread ≠ .woken call waiter

omit [DecidableEq Thread] in
theorem Quiet.waiters {thread : Thread} (quiet : Quiet s t thread) (inv : Inv s)
    (own : WaiterInv t thread) (other : Thread) : WaiterInv t other := by
  obtain ⟨others, -, -, harmless⟩ := quiet
  rcases eq_or_ne other thread with rfl | different
  · exact own
  · have same := others other different
    apply (inv.waiters other).frame <;> grind [Taken, Woken]

omit [DecidableEq Thread] in
theorem Quiet.calls {thread : Thread} (quiet : Quiet s t thread) (inv : Inv s)
    (own : ∀ call, (t.point thread).call = some call → CallInv t thread call)
    (other : Thread) (call : Signal Thread Cond) (at_call : (t.point other).call = some call) :
    CallInv t other call := by
  obtain ⟨others, ring, free, -⟩ := quiet
  rcases eq_or_ne other thread with rfl | different
  · exact own call at_call
  · have same := others other different
    rw [same.1] at at_call
    have before := inv.calls other call at_call
    have locked : s.waitsetLock call.cv = some other := by
      rw [inv.lock_held]
      cases point : s.point other <;> grind [Point.call, Point.locks]
    have unrelated : ∀ waiter ∈ call.found, waiter ≠ thread := by
      rintro waiter member rfl
      obtain ⟨mutex, asleep⟩ := before.found waiter member
      grind
    apply before.frame same.1
    · grind
    · grind

omit [DecidableEq Thread] in
theorem Inv.locked (inv : Inv s) {thread : Thread} {cv : Cond}
    (holds : (s.point thread).locks = some cv) : s.waitsetLock cv = some thread :=
  (inv.lock_held cv thread).mpr holds

omit [DecidableEq Thread] in
/-- A thread that a signal has woken and not yet marked is still where it went
to sleep: it needs the `waitset_lock` that the signaller holds. -/
theorem Inv.woken_asleep (inv : Inv s) {waiter : Thread} (woken : Woken s.point waiter) :
    ∃ mutex cv, s.point waiter = .asleep mutex cv := by
  obtain ⟨signaller, call, here⟩ := woken
  have at_call := inv.calls signaller call (by rw [here, Point.call])
  obtain ⟨-, others, readied⟩ := at_call.woken waiter here
  have member : waiter ∈ call.readied := by simp [readied]
  obtain ⟨mutex, asleep⟩ := at_call.found waiter (at_call.readied waiter member).1
  exact ⟨mutex, call.cv, asleep⟩

omit [DecidableEq Thread] in
/-- Whoever is in the ring without its lock has gone to sleep. -/
theorem Inv.ring_asleep (inv : Inv s) {cv : Cond} {waiter : Thread}
    (member : waiter ∈ s.waitset cv) (unlocked : s.waitsetLock cv ≠ some waiter) :
    ∃ mutex, s.point waiter = .asleep mutex cv := by
  have waits := ((inv.ring_member cv waiter).mp member).1
  rw [ne_eq, inv.lock_held] at unlocked
  cases point : s.point waiter <;> grind [Point.waitsOn, Point.locks]

theorem enqueue_inv [DecidableEq Cond] (inv : Inv s) (thread : Thread) (mutex : Mutex) (cv : Cond)
    (timed : Bool)
    (here : s.point thread = .outside) (free : s.waitsetLock cv = none)
    (running : s.threadState thread = .running) : Inv (enqueue s thread mutex cv timed) := by
  have quiet : Quiet s (enqueue s thread mutex cv timed) thread := by
    refine ⟨?_, ?_, by grind, by grind⟩ <;> simp only [enqueue, update_apply] <;> grind
  have own := inv.waiters thread
  have absent : thread ∉ s.waitset cv := by
    rw [inv.ring_member]
    simp [here, Point.waitsOn]
  constructor
  case lock_held =>
    have held := inv.lock_held
    simp only [enqueue, update_apply]
    grind [Point.locks]
  case ring_nodup =>
    have nodup := inv.ring_nodup
    simp only [enqueue, update_apply]
    grind
  case ring_member =>
    have member := inv.ring_member
    simp only [enqueue, update_apply]
    grind [Point.waitsOn]
  case waiters =>
    apply quiet.waiters inv
    obtain ⟨fresh, unreadied, stopped, active, awake, removed, marked, signalled, timed, counted⟩ := own
    constructor <;> simp only [enqueue, update_apply, Taken, Woken] <;>
      grind [Point.waitsOn, Point.hasSlept]
  case calls =>
    apply quiet.calls inv
    simp [enqueue, Point.call]
  case asserts => exact inv.asserts

theorem releaseMutex_inv [DecidableEq Mutex] (inv : Inv s) (thread : Thread) (mutex : Mutex)
    (cv : Cond) (timed : Bool)
    (here : s.point thread = .enqueued mutex cv timed) :
    Inv (releaseMutex s thread mutex cv timed) := by
  have quiet : Quiet s (releaseMutex s thread mutex cv timed) thread := by
    refine ⟨?_, ?_, by grind, by grind⟩ <;> simp only [releaseMutex, update_apply] <;> grind
  have own := inv.waiters thread
  constructor
  case lock_held =>
    have held := inv.lock_held
    simp only [releaseMutex, update_apply]
    grind [Point.locks]
  case ring_nodup => exact inv.ring_nodup
  case ring_member =>
    have member := inv.ring_member
    simp only [releaseMutex, update_apply]
    grind [Point.waitsOn]
  case waiters =>
    apply quiet.waiters inv
    obtain ⟨fresh, unreadied, stopped, active, awake, removed, marked, signalled, timed, counted⟩ := own
    constructor <;> simp only [releaseMutex, update_apply, Taken, Woken] <;>
      grind [Point.waitsOn, Point.hasSlept, Taken, Woken]
  case calls =>
    apply quiet.calls inv
    simp [releaseMutex, Point.call]
  case asserts => exact inv.asserts

theorem sleepReleasing_inv [DecidableEq Cond] (inv : Inv s) (thread : Thread) (mutex : Mutex)
    (cv : Cond)
    (timed : Bool) (here : s.point thread = .released mutex cv timed) :
    Inv (sleepReleasing s thread mutex cv timed) := by
  have locked : s.waitsetLock cv = some thread := inv.locked (by rw [here, Point.locks])
  have quiet : Quiet s (sleepReleasing s thread mutex cv timed) thread := by
    refine ⟨?_, ?_, by grind, by grind⟩ <;> simp only [sleepReleasing, update_apply] <;> grind
  have own := inv.waiters thread
  constructor
  case lock_held =>
    have held := inv.lock_held
    simp only [sleepReleasing, update_apply]
    grind [Point.locks]
  case ring_nodup => exact inv.ring_nodup
  case ring_member =>
    have member := inv.ring_member
    simp only [sleepReleasing, update_apply]
    grind [Point.waitsOn]
  case waiters =>
    apply quiet.waiters inv
    obtain ⟨fresh, unreadied, stopped, active, awake, removed, marked, signalled, timed, counted⟩ := own
    constructor <;> simp only [sleepReleasing, update_apply, Taken, Woken] <;>
      grind [Point.waitsOn, Point.hasSlept]
  case calls =>
    apply quiet.calls inv
    simp [sleepReleasing, Point.call]
  case asserts => exact inv.asserts

/-- The `assert` of `cv_wait` holds: only a removed waiter is signalled. -/
theorem recheck_inv [DecidableEq Cond] (inv : Inv s) (thread : Thread) (mutex : Mutex) (cv : Cond)
    (here : s.point thread = .asleep mutex cv) (free : s.waitsetLock cv = none)
    (running : s.threadState thread = .running) : Inv (recheck s thread mutex cv) := by
  have own := inv.waiters thread
  have quiet : Quiet s (recheck s thread mutex cv) thread := by
    refine ⟨?_, ?_, by grind, by grind⟩ <;> simp only [recheck, removeFromRing, update_apply] <;>
      grind
  have readied : s.readiedBy thread ≠ none := by
    intro none
    have asleep := (own.stopped mutex cv here).1.mpr none
    simp [asleep] at running
  constructor
  case lock_held =>
    have held := inv.lock_held
    simp only [recheck, removeFromRing, update_apply]
    grind [Point.locks]
  case ring_nodup =>
    have nodup := inv.ring_nodup
    simp only [recheck, removeFromRing]
    grind [List.Nodup.erase]
  case ring_member =>
    have member := inv.ring_member
    have nodup := inv.ring_nodup
    simp only [recheck, removeFromRing, update_apply]
    grind [Point.waitsOn, List.Nodup.mem_erase_iff]
  case waiters =>
    apply quiet.waiters inv
    obtain ⟨fresh, unreadied, stopped, active, awake, removed, marked, signalled, timed, counted⟩ := own
    constructor <;> simp only [recheck, removeFromRing, update_apply, Taken, Woken] <;>
      grind [Point.waitsOn, Point.hasSlept, Taken, Woken]
  case calls =>
    apply quiet.calls inv
    simp only [recheck, removeFromRing]
    grind [Point.call]
  case asserts =>
    have before := inv.asserts
    have marked := own.marked
    have signalled := own.signalled
    simp only [recheck, removeFromRing]
    grind [Point.hasSlept]

theorem releaseWaitset_inv [DecidableEq Cond] (inv : Inv s) (thread : Thread) (mutex : Mutex)
    (cv : Cond)
    (here : s.point thread = .rechecked mutex cv) : Inv (releaseWaitset s thread mutex cv) := by
  have locked : s.waitsetLock cv = some thread := inv.locked (by rw [here, Point.locks])
  have quiet : Quiet s (releaseWaitset s thread mutex cv) thread := by
    refine ⟨?_, ?_, by grind, by grind⟩ <;> simp only [releaseWaitset, update_apply] <;> grind
  have own := inv.waiters thread
  constructor
  case lock_held =>
    have held := inv.lock_held
    simp only [releaseWaitset, update_apply]
    grind [Point.locks]
  case ring_nodup => exact inv.ring_nodup
  case ring_member =>
    have member := inv.ring_member
    simp only [releaseWaitset, update_apply]
    grind [Point.waitsOn]
  case waiters =>
    apply quiet.waiters inv
    obtain ⟨fresh, unreadied, stopped, active, awake, removed, marked, signalled, timed, counted⟩ := own
    constructor <;> simp only [releaseWaitset, update_apply, Taken, Woken] <;>
      grind [Point.waitsOn, Point.hasSlept, Taken, Woken]
  case calls =>
    apply quiet.calls inv
    simp [releaseWaitset, Point.call]
  case asserts => exact inv.asserts

theorem returnSignalled_inv [DecidableEq Mutex] (inv : Inv s) (thread : Thread) (mutex : Mutex)
    (here : s.point thread = .relocking mutex) : Inv (returnSignalled s thread mutex) := by
  have marked : ¬ Woken s.point thread := by
    intro woken
    obtain ⟨_, _, asleep⟩ := inv.woken_asleep woken
    rw [here] at asleep
    cases asleep
  have quiet : Quiet s (returnSignalled s thread mutex) thread := by
    refine ⟨?_, ?_, by grind, by grind⟩ <;> simp only [returnSignalled, update_apply] <;> grind
  have own := inv.waiters thread
  constructor
  case lock_held =>
    have held := inv.lock_held
    simp only [returnSignalled, update_apply]
    grind [Point.locks]
  case ring_nodup => exact inv.ring_nodup
  case ring_member =>
    have member := inv.ring_member
    simp only [returnSignalled, update_apply]
    grind [Point.waitsOn]
  case waiters =>
    apply quiet.waiters inv
    obtain ⟨fresh, unreadied, stopped, active, awake, removed, marked, signalled, timed, counted⟩ := own
    constructor <;> simp only [returnSignalled, update_apply] <;>
      grind [Point.waitsOn, Point.hasSlept]
  case calls =>
    apply quiet.calls inv
    simp [returnSignalled, Point.call]
  case asserts => exact inv.asserts

theorem lockRing_inv [DecidableEq Cond] (inv : Inv s) (thread : Thread) (cv : Cond)
    (broadcast : Bool)
    (here : s.point thread = .outside) (free : s.waitsetLock cv = none)
    (running : s.threadState thread = .running) : Inv (lockRing s thread cv broadcast) := by
  have quiet : Quiet s (lockRing s thread cv broadcast) thread := by
    refine ⟨?_, ?_, by grind, by grind⟩ <;> simp only [lockRing, update_apply] <;> grind
  have own := inv.waiters thread
  constructor
  case lock_held =>
    have held := inv.lock_held
    simp only [lockRing, update_apply]
    grind [Point.locks]
  case ring_nodup => exact inv.ring_nodup
  case ring_member =>
    have member := inv.ring_member
    simp only [lockRing, update_apply]
    grind [Point.waitsOn]
  case waiters =>
    apply quiet.waiters inv
    obtain ⟨fresh, unreadied, stopped, active, awake, removed, marked, signalled, timed, counted⟩ := own
    constructor <;> simp only [lockRing, update_apply, Taken, Woken] <;>
      grind [Point.waitsOn, Point.hasSlept, Taken, Woken]
  case calls =>
    -- With the lock free, nobody in the ring is on the way to sleep.
    have asleep : ∀ waiter ∈ s.waitset cv, ∃ mutex, s.point waiter = .asleep mutex cv :=
      fun waiter member => inv.ring_asleep member (by simp [free])
    apply quiet.calls inv
    simp only [lockRing, update_self, Point.call, Option.some.injEq, forall_eq']
    constructor <;> simp only [update_apply] <;> grind
  case asserts => exact inv.asserts

theorem unlockRing_inv [DecidableEq Cond] (inv : Inv s) (thread : Thread)
    (call : Signal Thread Cond)
    (here : s.point thread = .finishing call) : Inv (unlockRing s thread call) := by
  have locked : s.waitsetLock call.cv = some thread := inv.locked (by rw [here, Point.locks])
  have quiet : Quiet s (unlockRing s thread call) thread := by
    refine ⟨?_, ?_, by grind, by grind⟩ <;> simp only [unlockRing, update_apply] <;> grind
  have own := inv.waiters thread
  constructor
  case lock_held =>
    have held := inv.lock_held
    simp only [unlockRing, update_apply]
    grind [Point.locks]
  case ring_nodup => exact inv.ring_nodup
  case ring_member =>
    have member := inv.ring_member
    simp only [unlockRing, update_apply]
    grind [Point.waitsOn]
  case waiters =>
    apply quiet.waiters inv
    obtain ⟨fresh, unreadied, stopped, active, awake, removed, marked, signalled, timed, counted⟩ := own
    constructor <;> simp only [unlockRing, update_apply, Taken, Woken] <;>
      grind [Point.waitsOn, Point.hasSlept, Taken, Woken]
  case calls =>
    apply quiet.calls inv
    simp [unlockRing, Point.call]
  case asserts => exact inv.asserts

omit [DecidableEq Thread] in
/-- No signal has touched a waiter that is still in the ring. -/
theorem Inv.ring_unsignalled (inv : Inv s) {cv : Cond} {waiter : Thread}
    (member : waiter ∈ s.waitset cv) :
    s.waiter waiter = ⟨false, false⟩ ∧ s.readiedBy waiter ≠ some .signal := by
  obtain ⟨waits, linked⟩ := (inv.ring_member cv waiter).mp member
  have own := inv.waiters waiter
  have unsignalled : s.readiedBy waiter ≠ some .signal := by
    intro readied
    have removed := (own.signalled readied).1
    simp [linked] at removed
  refine ⟨?_, unsignalled⟩
  cases point : s.point waiter with
  | enqueued mutex cv timed => exact own.fresh mutex cv timed (.inl point)
  | released mutex cv timed => exact own.fresh mutex cv timed (.inr point)
  | asleep mutex cv =>
    have unmarked : (s.waiter waiter).signalled ≠ true := fun marked =>
      unsignalled (own.marked (by simp [point, Point.hasSlept]) marked)
    cases flags : s.waiter waiter with
    | mk signalled removed => grind
  | _ => simp [point, Point.waitsOn] at waits

omit [DecidableEq Thread] in
/-- Two calls under way are on two condition variables, so they found
different waiters. -/
theorem Inv.found_apart (inv : Inv s) (waiter : Thread) {signaller other : Thread}
    {call others : Signal Thread Cond} (here : (s.point signaller).call = some call)
    (there : (s.point other).call = some others) (apart : other ≠ signaller) :
    others.cv ≠ call.cv ∧ signaller ∉ others.found ∧
      (∀ mutex, s.point waiter = .asleep mutex call.cv → waiter ∉ others.found) := by
  have ours : (s.point signaller).locks = some call.cv := by
    cases point : s.point signaller <;> grind [Point.call, Point.locks]
  have theirs : (s.point other).locks = some others.cv := by
    cases point : s.point other <;> grind [Point.call, Point.locks]
  rw [← inv.lock_held] at ours theirs
  have different : others.cv ≠ call.cv := by grind
  have found := (inv.calls other others there).found
  refine ⟨different, ?_, ?_⟩
  · intro member
    obtain ⟨_, asleep⟩ := found signaller member
    simp [asleep, Point.call] at here
  · intro mutex asleep member
    obtain ⟨_, elsewhere⟩ := found waiter member
    grind

/-- A section of a signal on `cv` that touches only the signaller and the waiter
it is at. -/
structure Visit (s t : State Thread Mutex Cond) (thread : Thread) (cv : Cond) (waiter : Thread)
    (next : Point Thread Mutex Cond) : Prop where
  apart : waiter ≠ thread
  point : t.point = update s.point thread next
  at_waiter : ∀ call other, other ≠ waiter →
    s.point thread ≠ .taken call other ∧ s.point thread ≠ .woken call other
  others : ∀ other, other ≠ thread → other ≠ waiter → t.waiter other = s.waiter other ∧
    t.readiedBy other = s.readiedBy other ∧ t.timed other = s.timed other ∧
    t.signalWakeups other = s.signalWakeups other ∧ t.onesReturned other = s.onesReturned other ∧
    t.threadState other = s.threadState other
  ring : ∀ other ≠ cv, t.waitset other = s.waitset other

namespace Visit
variable {thread waiter : Thread} {call : Signal Thread Cond} {next : Point Thread Mutex Cond}

theorem lock_held (visit : Visit s t thread call.cv waiter next) (inv : Inv s)
    (lock : t.waitsetLock = s.waitsetLock) (same : next.locks = (s.point thread).locks) (cv : Cond)
    (other : Thread) : t.waitsetLock cv = some other ↔ (t.point other).locks = some cv := by
  rw [lock, visit.point, inv.lock_held]
  rcases eq_or_ne other thread with rfl | different
  · rw [update_self, same]
  · rw [update_of_ne different]

theorem ring_member (visit : Visit s t thread call.cv waiter next) (inv : Inv s)
    (waitset : t.waitset = s.waitset)
    (removed : ∀ other, (t.waiter other).removed = (s.waiter other).removed)
    (same : next.waitsOn = (s.point thread).waitsOn) (cv : Cond) (other : Thread) :
    other ∈ t.waitset cv ↔
      (t.point other).waitsOn = some cv ∧ (t.waiter other).removed = false := by
  rw [waitset, visit.point, inv.ring_member, removed]
  rcases eq_or_ne other thread with rfl | different
  · rw [update_self, same]
  · rw [update_of_ne different]

theorem waiters (visit : Visit s t thread call.cv waiter next) (inv : Inv s)
    (own : WaiterInv t thread) (its : WaiterInv t waiter) (other : Thread) : WaiterInv t other := by
  rcases eq_or_ne other thread with rfl | other_thread
  · exact own
  rcases eq_or_ne other waiter with rfl | other_waiter
  · exact its
  obtain ⟨flags, readiedBy, timed, wakeups, ones, state⟩ :=
    visit.others other other_thread other_waiter
  have point : t.point other = s.point other := by rw [visit.point, update_of_ne other_thread]
  refine (inv.waiters other).frame point flags readiedBy timed wakeups ones state ?_ ?_ <;>
    rw [visit.point]
  · exact fun taken => taken.update thread (fun call => (visit.at_waiter call other other_waiter).1) _
  · exact fun woken => woken.update thread (fun call => (visit.at_waiter call other other_waiter).2) _

/-- Other calls are on other condition variables. -/
theorem calls (visit : Visit s t thread call.cv waiter next) (inv : Inv s)
    (here : (s.point thread).call = some call) {mutex : Mutex}
    (asleep : s.point waiter = .asleep mutex call.cv)
    (own : ∀ call, next.call = some call → CallInv t thread call) (other : Thread)
    (others : Signal Thread Cond) (at_others : (t.point other).call = some others) :
    CallInv t other others := by
  rcases eq_or_ne other thread with rfl | different
  · rw [visit.point, update_self] at at_others
    exact own others at_others
  rw [visit.point, update_of_ne different] at at_others
  obtain ⟨other_cv, not_thread, not_waiter⟩ := inv.found_apart waiter here at_others different
  refine (inv.calls other others at_others).frame ?_ (visit.ring _ other_cv) ?_
  · rw [visit.point, update_of_ne different]
  · intro sleeper found
    have sleeper_thread : sleeper ≠ thread := by
      rintro rfl
      exact not_thread found
    have sleeper_waiter : sleeper ≠ waiter := by
      rintro rfl
      exact not_waiter mutex asleep found
    obtain ⟨flags, readiedBy, -⟩ := visit.others sleeper sleeper_thread sleeper_waiter
    exact ⟨by rw [visit.point, update_of_ne sleeper_thread], flags, readiedBy⟩

end Visit

theorem takeWaiter_inv [DecidableEq Cond] (inv : Inv s) (thread : Thread)
    (call : Signal Thread Cond)
    (waiter : Thread) (here : s.point thread = .scanning call)
    (member : waiter ∈ s.waitset call.cv) : Inv (takeWaiter s thread call waiter) := by
  have at_call := inv.calls thread call (by rw [here, Point.call])
  obtain ⟨mutex, asleep⟩ := at_call.found waiter (at_call.ring waiter member)
  have unsignalled := inv.ring_unsignalled member
  have visit : Visit s (takeWaiter s thread call waiter) thread call.cv waiter
      (.taken call waiter) := by
    constructor
    case apart =>
      rintro rfl
      rw [here] at asleep
      cases asleep
    case point => rfl
    case at_waiter => simp [here]
    all_goals
      simp only [takeWaiter, removeFromRing, update_apply]
      grind
  constructor
  case lock_held => exact visit.lock_held inv rfl (by rw [here]; rfl)
  case ring_nodup =>
    have nodup := inv.ring_nodup
    simp only [takeWaiter, removeFromRing, update_apply]
    grind [List.Nodup.erase]
  case ring_member =>
    have nodup := inv.ring_nodup
    have members := inv.ring_member
    simp only [takeWaiter, removeFromRing, update_apply]
    grind [Point.waitsOn, List.Nodup.mem_erase_iff]
  case waiters =>
    have apart := visit.apart
    refine visit.waiters inv ?_ ?_
    · obtain ⟨fresh, unreadied, stopped, active, awake, removed, marked, signalled, timed, counted⟩ :=
        inv.waiters thread
      have stillWoken := fun woken : Woken s.point thread =>
        woken.update thread (by simp [here]) (.taken call waiter)
      constructor <;> simp only [takeWaiter, update_apply] <;>
        grind [Point.waitsOn, Point.hasSlept]
    · obtain ⟨fresh, unreadied, stopped, active, awake, removed, marked, signalled, timed, counted⟩ :=
        inv.waiters waiter
      have taken : Taken (update s.point thread (.taken call waiter)) waiter :=
        ⟨thread, call, update_self ..⟩
      constructor <;> simp only [takeWaiter, update_apply] <;>
        grind [Point.waitsOn, Point.hasSlept]
  case calls =>
    apply visit.calls inv (by rw [here, Point.call]) asleep
    obtain ⟨found, ring, settled, readied, once, taken, woken, single, emptied⟩ := at_call
    have nodup := inv.ring_nodup call.cv
    simp only [Point.call, Option.some.injEq, forall_eq']
    constructor <;> try simp only [takeWaiter, removeFromRing, update_apply]
    all_goals grind [List.Nodup.mem_erase_iff]
  case asserts => exact inv.asserts

theorem scan_inv [DecidableEq Cond] (inv : Inv s) (thread : Thread) (call : Signal Thread Cond)
    (here : s.point thread = .scanning call) : Inv (scan s thread call) := by
  have at_call := inv.calls thread call (by rw [here, Point.call])
  have own := inv.waiters thread
  cases ring : s.waitset call.cv with
  | nil =>
    have quiet : Quiet s (scan s thread call) thread := by
      refine ⟨?_, ?_, by grind, by grind⟩ <;> simp only [scan, ring, update_apply] <;> grind
    constructor
    case lock_held =>
      have held := inv.lock_held
      simp only [scan, ring, update_apply]
      grind [Point.locks]
    case ring_nodup => simpa only [scan, ring] using inv.ring_nodup
    case ring_member =>
      have member := inv.ring_member
      simp only [scan, ring, update_apply]
      grind [Point.waitsOn]
    case waiters =>
      apply quiet.waiters inv
      obtain ⟨fresh, unreadied, stopped, active, awake, removed, marked, signalled, timed, counted⟩ := own
      constructor <;> simp only [scan, ring, update_apply, Taken, Woken] <;>
        grind [Point.waitsOn, Point.hasSlept, Taken, Woken]
    case calls =>
      apply quiet.calls inv
      obtain ⟨found, members, settled, readied, once, taken, woken, single, emptied⟩ := at_call
      simp only [scan, ring, update_self, Point.call, Option.some.injEq, forall_eq']
      constructor <;> try simp only [update_apply]
      all_goals grind
    case asserts => simpa only [scan, ring] using inv.asserts
  | cons waiter rest =>
    have member : waiter ∈ s.waitset call.cv := by simp [ring]
    simpa only [scan, ring] using takeWaiter_inv inv thread call waiter here member

/-- The waiter is still `STOPPED` and the signal readies it. -/
theorem wakeup_readies (inv : Inv s) (thread : Thread) (call : Signal Thread Cond) (waiter : Thread)
    (here : s.point thread = .taken call waiter) (stopped : s.threadState waiter = .stopped) :
    Inv (wakeup s thread call waiter) := by
  have at_call := inv.calls thread call (by rw [here, Point.call])
  obtain ⟨found_waiter, unlinked, flags, unsignalled⟩ := at_call.taken waiter here
  obtain ⟨mutex, asleep⟩ := at_call.found waiter found_waiter
  have unreadied := ((inv.waiters waiter).stopped mutex call.cv asleep).1.mp stopped
  have visit : Visit s (wakeup s thread call waiter) thread call.cv waiter
      (.woken { call with readied := waiter :: call.readied } waiter) := by
    simp only [wakeup, stopped, schedMakeReady, true_or, if_true]
    constructor
    case apart =>
      rintro rfl
      rw [here] at asleep
      cases asleep
    case point => rfl
    case at_waiter =>
      simp only [here, Point.taken.injEq, ne_eq, reduceCtorEq, not_false_eq_true, and_true]
      rintro _ other different ⟨-, rfl⟩
      exact different rfl
    case others =>
      simp only [update_apply]
      grind
    case ring => exact fun _ _ => rfl
  have apart := visit.apart
  simp only [wakeup, stopped, schedMakeReady, true_or, if_true] at visit ⊢
  constructor
  case lock_held => exact visit.lock_held inv rfl (by rw [here]; rfl)
  case ring_nodup => exact inv.ring_nodup
  case ring_member => exact visit.ring_member inv rfl (fun _ => rfl) (by rw [here]; rfl)
  case waiters =>
    refine visit.waiters inv ?_ ?_
    · obtain ⟨fresh, unreadied, stopped, active, awake, removed, marked, signalled, timed, counted⟩ :=
        inv.waiters thread
      have stillWoken := fun woken : Woken s.point thread =>
        woken.update thread (by simp [here])
          (.woken { call with readied := waiter :: call.readied } waiter)
      constructor <;> simp only [update_apply] <;> grind [Point.waitsOn, Point.hasSlept]
    · obtain ⟨fresh, -, stopped, active, awake, removed, marked, signalled, timed, counted⟩ :=
        inv.waiters waiter
      have woken : Woken (update s.point thread
          (.woken { call with readied := waiter :: call.readied } waiter)) waiter :=
        ⟨thread, _, update_self ..⟩
      constructor <;> simp only [update_apply] <;> grind [Point.waitsOn, Point.hasSlept]
  case calls =>
    apply visit.calls inv (by rw [here, Point.call]) asleep
    have first : call.broadcast = false → call.readied = [] := fun kind =>
      (at_call.single kind).2.2 (.inr ⟨waiter, here⟩)
    obtain ⟨found, ring, settled, readied, once, taken, woken, single, emptied⟩ := at_call
    simp only [Point.call, Option.some.injEq, forall_eq']
    constructor <;> try simp only [update_apply]
    all_goals grind
  case asserts => simp [inv.asserts]

/-- The timeout of the waiter has readied it, and the signal goes on. -/
theorem wakeup_late (inv : Inv s) (thread : Thread) (call : Signal Thread Cond) (waiter : Thread)
    (here : s.point thread = .taken call waiter) (late : s.threadState waiter ≠ .stopped) :
    Inv (wakeup s thread call waiter) := by
  have at_call := inv.calls thread call (by rw [here, Point.call])
  obtain ⟨found_waiter, unlinked, flags, unsignalled⟩ := at_call.taken waiter here
  obtain ⟨mutex, asleep⟩ := at_call.found waiter found_waiter
  have sleeping := (inv.waiters waiter).stopped mutex call.cv asleep
  have readied : s.readiedBy waiter = some .timeout := by
    rcases readier : s.readiedBy waiter with _ | (_ | _)
    · exact absurd (sleeping.1.mpr readier) late
    · exact absurd readier unsignalled
    · rfl
  simp only [wakeup, late, sleeping.2.1, or_self, if_false]
  have visit : Visit s { s with point := update s.point thread (.scanning call) } thread call.cv
      waiter (.scanning call) := by
    constructor
    case apart =>
      rintro rfl
      rw [here] at asleep
      cases asleep
    case point => rfl
    case at_waiter =>
      simp only [here, Point.taken.injEq, ne_eq, reduceCtorEq, not_false_eq_true, and_true]
      rintro _ other different ⟨-, rfl⟩
      exact different rfl
    case others => exact fun _ _ _ => ⟨rfl, rfl, rfl, rfl, rfl, rfl⟩
    case ring => exact fun _ _ => rfl
  have apart := visit.apart
  constructor
  case lock_held => exact visit.lock_held inv rfl (by rw [here]; rfl)
  case ring_nodup => exact inv.ring_nodup
  case ring_member => exact visit.ring_member inv rfl (fun _ => rfl) (by rw [here]; rfl)
  case waiters =>
    refine visit.waiters inv ?_ ?_
    · obtain ⟨fresh, unreadied, stopped, active, awake, removed, marked, signalled, timed, counted⟩ :=
        inv.waiters thread
      have stillWoken := fun woken : Woken s.point thread =>
        woken.update thread (by simp [here]) (.scanning call)
      constructor <;> simp only [update_apply] <;> grind [Point.waitsOn, Point.hasSlept]
    · obtain ⟨fresh, unreadied, stopped, active, awake, removed, marked, signalled, timed, counted⟩ :=
        inv.waiters waiter
      constructor <;> simp only [update_apply] <;> grind [Point.waitsOn, Point.hasSlept]
  case calls =>
    apply visit.calls inv (by rw [here, Point.call]) asleep
    obtain ⟨found, ring, settled, readied, once, taken, woken, single, emptied⟩ := at_call
    simp only [Point.call, Option.some.injEq, forall_eq']
    constructor <;> try simp only [update_apply]
    all_goals grind
  case asserts => exact inv.asserts

/-- `wakeup` finds its waiter asleep, so one of the two. -/
theorem wakeup_inv (inv : Inv s) (thread : Thread) (call : Signal Thread Cond) (waiter : Thread)
    (here : s.point thread = .taken call waiter) : Inv (wakeup s thread call waiter) := by
  by_cases stopped : s.threadState waiter = .stopped
  · exact wakeup_readies inv thread call waiter here stopped
  · exact wakeup_late inv thread call waiter here stopped

theorem markSignalled_inv (inv : Inv s) (thread : Thread) (call : Signal Thread Cond)
    (waiter : Thread) (here : s.point thread = .woken call waiter) :
    Inv (markSignalled s thread call waiter) := by
  have at_call := inv.calls thread call (by rw [here, Point.call])
  obtain ⟨flags, others, rest⟩ := at_call.woken waiter here
  have readied_waiter := at_call.readied waiter (by simp [rest])
  obtain ⟨mutex, asleep⟩ := at_call.found waiter readied_waiter.1
  have visit : Visit s (markSignalled s thread call waiter) thread call.cv waiter
      (if call.broadcast then .scanning call else .finishing call) := by
    constructor
    case apart =>
      rintro rfl
      rw [here] at asleep
      cases asleep
    case point => rfl
    case at_waiter =>
      simp only [here, Point.woken.injEq, ne_eq, reduceCtorEq, not_false_eq_true, true_and]
      rintro _ other different ⟨-, rfl⟩
      exact different rfl
    case others =>
      simp only [markSignalled, update_apply]
      grind
    case ring => exact fun _ _ => rfl
  have apart := visit.apart
  constructor
  case lock_held =>
    apply visit.lock_held inv rfl
    rw [here]
    split <;> rfl
  case ring_nodup => exact inv.ring_nodup
  case ring_member =>
    refine visit.ring_member inv rfl ?_ ?_
    · intro other
      simp only [markSignalled, update_apply]
      split
      next same => rw [same]
      next => rfl
    · rw [here]
      split <;> rfl
  case waiters =>
    refine visit.waiters inv ?_ ?_
    · obtain ⟨fresh, unreadied, stopped, active, awake, removed, marked, signalled, timed, counted⟩ :=
        inv.waiters thread
      have stillWoken := fun woken : Woken s.point thread =>
        woken.update thread (by simp [here, apart])
          (if call.broadcast then .scanning call else .finishing call)
      constructor <;> simp only [markSignalled, update_apply] <;>
        grind [Point.waitsOn, Point.hasSlept]
    · obtain ⟨fresh, unreadied, stopped, active, awake, removed, marked, signalled, timed, counted⟩ :=
        inv.waiters waiter
      constructor <;> simp only [markSignalled, update_apply] <;>
        grind [Point.waitsOn, Point.hasSlept]
  case calls =>
    apply visit.calls inv (by rw [here, Point.call]) asleep
    intro others at_others
    obtain ⟨found, ring, settled, readied, once, taken, woken, single, emptied⟩ := at_call
    have same : others = call := by grind [Point.call]
    subst others
    constructor <;> try simp only [markSignalled, update_apply]
    all_goals grind
  case asserts => exact inv.asserts

omit [DecidableEq Thread] in
theorem mutex_inv (inv : Inv s) (mutex : Mutex → Option Thread) : Inv
    { s with mutex := mutex } where
  lock_held := inv.lock_held
  ring_nodup := inv.ring_nodup
  ring_member := inv.ring_member
  waiters thread := (inv.waiters thread).frame rfl rfl rfl rfl rfl rfl rfl id id
  calls thread call at_call := (inv.calls thread call at_call).frame rfl rfl fun _ _ => ⟨rfl, rfl, rfl⟩
  asserts := inv.asserts

/-- The scheduler may do what it likes with a thread that is not in `cv_wait`,
and switch a woken one in and out. -/
theorem reschedule_inv (inv : Inv s) (thread : Thread) (next : ThreadState)
    (allowed : s.point thread = .outside ∨
      s.threadState thread ≠ .stopped ∧ (next = .ready ∨ next = .running)) :
    Inv { s with threadState := update s.threadState thread next } where
  lock_held := inv.lock_held
  ring_nodup := inv.ring_nodup
  ring_member := inv.ring_member
  waiters other := by
    obtain ⟨fresh, unreadied, stopped, active, awake, removed, marked, signalled, timed, counted⟩ :=
      inv.waiters other
    constructor <;> try simp only [update_apply]
    all_goals grind
  calls other call at_call := (inv.calls other call at_call).frame rfl rfl fun _ _ => ⟨rfl, rfl, rfl⟩
  asserts := inv.asserts

theorem expire_inv (inv : Inv s) (thread : Thread) (timed : s.timed thread = true) :
    Inv (schedMakeReady s thread .timeout) := by
  obtain ⟨stopped, mutex, cv, asleep⟩ := (inv.waiters thread).timed timed
  have unreadied := ((inv.waiters thread).stopped mutex cv asleep).1.mp stopped
  constructor
  case lock_held => exact inv.lock_held
  case ring_nodup => exact inv.ring_nodup
  case ring_member => exact inv.ring_member
  case waiters =>
    intro other
    obtain ⟨fresh, unreadied, stopped, active, awake, removed, marked, signalled, timed, counted⟩ :=
      inv.waiters other
    constructor <;> simp only [schedMakeReady, update_apply] <;>
      grind [Point.waitsOn, Point.hasSlept]
  case calls =>
    intro other call at_call
    obtain ⟨found, ring, settled, readied, once, taken, woken, single, emptied⟩ :=
      inv.calls other call at_call
    constructor <;> try simp only [schedMakeReady, update_apply]
    all_goals grind
  case asserts => simp [schedMakeReady, inv.asserts, stopped]

variable [DecidableEq Mutex] [DecidableEq Cond]

theorem advance_inv (inv : Inv s) (thread : Thread) (running : s.threadState thread = .running)
    (moved : advance s thread (s.point thread) = some t) : Inv t := by
  cases here : s.point thread with
  | outside => simp [here, advance] at moved
  | enqueued mutex cv timed =>
    obtain rfl : releaseMutex s thread mutex cv timed = t := by simpa [here, advance] using moved
    exact releaseMutex_inv inv thread mutex cv timed here
  | released mutex cv timed =>
    obtain rfl : sleepReleasing s thread mutex cv timed = t := by simpa [here, advance] using moved
    exact sleepReleasing_inv inv thread mutex cv timed here
  | asleep mutex cv =>
    obtain ⟨free, rfl⟩ : s.waitsetLock cv = none ∧ recheck s thread mutex cv = t := by
      simpa [here, advance] using moved
    exact recheck_inv inv thread mutex cv here free running
  | rechecked mutex cv =>
    obtain rfl : releaseWaitset s thread mutex cv = t := by simpa [here, advance] using moved
    exact releaseWaitset_inv inv thread mutex cv here
  | relocking mutex =>
    obtain ⟨-, rfl⟩ : s.mutex mutex = none ∧ returnSignalled s thread mutex = t := by
      simpa [here, advance] using moved
    exact returnSignalled_inv inv thread mutex here
  | scanning call =>
    obtain rfl : scan s thread call = t := by simpa [here, advance] using moved
    exact scan_inv inv thread call here
  | taken call waiter =>
    obtain rfl : wakeup s thread call waiter = t := by simpa [here, advance] using moved
    exact wakeup_inv inv thread call waiter here
  | woken call waiter =>
    obtain rfl : markSignalled s thread call waiter = t := by simpa [here, advance] using moved
    exact markSignalled_inv inv thread call waiter here
  | finishing call =>
    obtain rfl : unlockRing s thread call = t := by simpa [here, advance] using moved
    exact unlockRing_inv inv thread call here

theorem act_inv (inv : Inv s) (thread : Thread) (action : Action Mutex Cond)
    (running : s.threadState thread = .running) (moved : act s thread action = some t) : Inv t := by
  cases action with
  | mutexLock mutex =>
    simp only [act, Option.ite_none_right_eq_some, Option.some.injEq] at moved
    obtain ⟨-, rfl⟩ := moved
    exact mutex_inv inv _
  | mutexUnlock mutex =>
    simp only [act, Option.ite_none_right_eq_some, Option.some.injEq] at moved
    obtain ⟨-, rfl⟩ := moved
    exact mutex_inv inv _
  | sleep newstate mutex =>
    simp only [act, Option.ite_none_right_eq_some, Option.some.injEq] at moved
    obtain ⟨⟨here, -⟩, rfl⟩ := moved
    exact mutex_inv (reschedule_inv inv thread newstate (by simp [here])) _
  | condWait mutex cv timed =>
    simp only [act, Option.ite_none_right_eq_some, Option.some.injEq] at moved
    obtain ⟨⟨here, free⟩, rfl⟩ := moved
    exact enqueue_inv inv thread mutex cv timed here free running
  | condSignal cv broadcast =>
    simp only [act, Option.ite_none_right_eq_some, Option.some.injEq] at moved
    obtain ⟨⟨here, free⟩, rfl⟩ := moved
    exact lockRing_inv inv thread cv broadcast here free running
  | advance => exact advance_inv inv thread running moved

theorem step_inv (inv : Inv s) (label : Label Thread Mutex Cond) (moved : step s label = some t) :
    Inv t := by
  cases label with
  | run thread action =>
    simp only [step, Option.ite_none_right_eq_some] at moved
    exact act_inv inv thread action moved.1 moved.2
  | wakeup thread =>
    simp only [step, Option.ite_none_right_eq_some, Option.some.injEq] at moved
    obtain ⟨⟨here, -⟩, rfl⟩ := moved
    exact reschedule_inv inv thread .ready (by simp [here])
  | dispatch thread =>
    simp only [step, Option.ite_none_right_eq_some, Option.some.injEq] at moved
    obtain ⟨ready, rfl⟩ := moved
    exact reschedule_inv inv thread .running (by simp [ready])
  | preempt thread =>
    simp only [step, Option.ite_none_right_eq_some, Option.some.injEq] at moved
    obtain ⟨running, rfl⟩ := moved
    exact reschedule_inv inv thread .ready (by simp [running])
  | expire thread =>
    simp only [step, Option.ite_none_right_eq_some, Option.some.injEq] at moved
    obtain ⟨timed, rfl⟩ := moved
    exact expire_inv inv thread timed

theorem reachable_inv (reached : (machine Thread Mutex Cond).Reachable s) : Inv s := by
  have booted : ∀ s, (machine Thread Mutex Cond).initial s → Inv s := by
    rintro s ⟨threadState, stack, rfl⟩
    exact boot_inv threadState stack
  have kept : ∀ s label t, Inv s → (machine Thread Mutex Cond).step s label = some t → Inv t :=
    fun s label t inv moved => step_inv inv label moved
  exact reached.induction booted kept

end TinyOs.CondVar
