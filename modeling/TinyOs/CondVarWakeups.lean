import Mathlib.Algebra.BigOperators.Group.Finset.Basic
import TinyOs.CondVarInvariant

/-! What signals, broadcasts and timeouts do to the threads that wait on a
condition variable, whatever the interleaving. -/
namespace TinyOs.CondVar
open Library Function
open Scheduler (ThreadState)

variable {Thread Mutex Cond : Type*} [DecidableEq Thread] [DecidableEq Mutex] [DecidableEq Cond]
  {s t : State Thread Mutex Cond}

/-- The thread has released the caller's mutex in `cv_wait` on `cv` and nothing
has made it `READY` since. -/
def WaitsIdle (s : State Thread Mutex Cond) (thread : Thread) (cv : Cond) : Prop :=
  s.readiedBy thread = none ∧ ∃ mutex,
    (∃ timed, s.point thread = .released mutex cv timed) ∨ s.point thread = .asleep mutex cv

/-- What a finished signal owes the waiters it found in the ring: it readied
one of them, or all of them had timed out and none is left. -/
def SignalDelivered (s : State Thread Mutex Cond) (call : Signal Thread Cond) : Prop :=
  (∃ waiter ∈ call.found, call.readied = [waiter] ∧ s.readiedBy waiter = some .signal) ∨
  (call.readied = [] ∧ s.waitset call.cv = [] ∧
    ∀ waiter ∈ call.found, s.readiedBy waiter = some .timeout)

/-- What a finished broadcast owes the waiters it found: it readied each of
them once unless it had timed out, and the ring is empty. -/
def BroadcastDelivered (s : State Thread Mutex Cond) (call : Signal Thread Cond) : Prop :=
  s.waitset call.cv = [] ∧ call.readied.Nodup ∧
  ∀ waiter ∈ call.found, s.threadState waiter ≠ .stopped ∧
    (s.readiedBy waiter = some .signal ∧ waiter ∈ call.readied ∨
      s.readiedBy waiter = some .timeout ∧ waiter ∉ call.readied)

structure WakeupInvariant (s : State Thread Mutex Cond) : Prop where
  /-- Whoever has released the mutex is in the ring and `STOPPED` by the time a
  signal inspects the ring. -/
  inspected : ∀ signaller call thread, s.point signaller = .scanning call →
    WaitsIdle s thread call.cv → thread ∈ s.waitset call.cv ∧ s.threadState thread = .stopped
  /-- A signal issued now finds all of them. -/
  issued : ∀ signaller cv broadcast t,
    step s (.run signaller (.condSignal cv broadcast)) = some t → ∃ call,
      t.point signaller = .scanning call ∧ call.cv = cv ∧ call.broadcast = broadcast ∧
      call.found = s.waitset cv ∧ call.readied = [] ∧ ∀ thread, WaitsIdle s thread cv →
        thread ∈ call.found ∧ s.threadState thread = .stopped
  /-- A signal readies the waiter it took, or finds that its timeout has and
  goes on without any other effect. -/
  spent : ∀ signaller call waiter t, s.point signaller = .taken call waiter →
    step s (.run signaller .advance) = some t →
      (s.threadState waiter = .stopped ∧ t.threadState waiter = .ready ∧
        t.point signaller = .woken { call with readied := waiter :: call.readied } waiter) ∨
      (s.readiedBy waiter = some .timeout ∧
        t = { s with point := update s.point signaller (.scanning call) })
  signalled : ∀ signaller call, s.point signaller = .finishing call → call.broadcast = false →
    SignalDelivered s call
  broadcast : ∀ signaller call, s.point signaller = .finishing call → call.broadcast = true →
    BroadcastDelivered s call
  /-- `cv_wait` returns 1 to exactly the threads that a signal has readied. -/
  returned : ∀ thread mutex t, s.point thread = .relocking mutex →
    step s (.run thread .advance) = some t →
      (t.result thread = true ↔ s.readiedBy thread = some .signal)
  counted : ∀ thread, s.signalWakeups thread =
    s.onesReturned thread + if s.readiedBy thread = some .signal then 1 else 0
  /-- Once nobody of a set of threads is in `cv_wait`, the returns of 1 are as
  many as the wakeups by signals. -/
  total : ∀ threads : Finset Thread, (∀ thread ∈ threads, (s.point thread).hasSlept = false) →
    ∑ thread ∈ threads, s.onesReturned thread = ∑ thread ∈ threads, s.signalWakeups thread
  /-- Only a removed waiter is signalled. -/
  asserts : s.assertFailed = false

omit [DecidableEq Thread] [DecidableEq Mutex] [DecidableEq Cond] in
/-- A thread on its way to sleep holds `waitset_lock`, and only the holder of
that lock takes waiters out of the ring. -/
theorem Inv.idle_inspected (inv : Inv s) {thread : Thread} {cv : Cond}
    (scanned : ∀ holder, s.waitsetLock cv = some holder → ∃ call, s.point holder = .scanning call)
    (waits : WaitsIdle s thread cv) :
    thread ∈ s.waitset cv ∧ s.threadState thread = .stopped := by
  obtain ⟨unreadied, mutex, ⟨timed, released⟩ | asleep⟩ := waits
  · obtain ⟨call, scanning⟩ := scanned thread (inv.locked (by rw [released, Point.locks]))
    rw [released] at scanning
    cases scanning
  have own := inv.waiters thread
  have untaken : ¬ Taken s.point thread := by
    rintro ⟨signaller, call, here⟩
    have at_call := inv.calls signaller call (by rw [here, Point.call])
    obtain ⟨_, there⟩ := at_call.found thread (at_call.taken thread here).1
    rw [asleep] at there
    cases there
    obtain ⟨_, scanning⟩ := scanned signaller (inv.locked (by rw [here, Point.locks]))
    rw [here] at scanning
    cases scanning
  refine ⟨?_, (own.stopped mutex cv asleep).1.mpr unreadied⟩
  rw [inv.ring_member, asleep, Point.waitsOn]
  refine ⟨rfl, ?_⟩
  cases removed : (s.waiter thread).removed with
  | false => rfl
  | true => exact absurd (own.removed mutex cv asleep removed unreadied) untaken

omit [DecidableEq Thread] [DecidableEq Mutex] [DecidableEq Cond] in
theorem Inv.signalDelivered (inv : Inv s) {signaller : Thread} {call : Signal Thread Cond}
    (here : s.point signaller = .finishing call) (signal : call.broadcast = false) :
    SignalDelivered s call := by
  have at_call := inv.calls signaller call (by rw [here, Point.call])
  rcases (at_call.single signal).2.1 here with ⟨unspent, empty⟩ | ⟨waiter, spent⟩
  · refine .inr ⟨unspent, empty, ?_⟩
    intro waiter found
    rcases at_call.settled waiter found with ring | timeout | readied | taken
    · simp [empty] at ring
    · exact timeout
    · simp [unspent] at readied
    · simp [here] at taken
  · obtain ⟨found, -, readied⟩ := at_call.readied waiter (by simp [spent])
    exact .inl ⟨waiter, found, spent, readied⟩

omit [DecidableEq Thread] [DecidableEq Mutex] [DecidableEq Cond] in
theorem Inv.broadcastDelivered (inv : Inv s) {signaller : Thread} {call : Signal Thread Cond}
    (here : s.point signaller = .finishing call) (broadcast : call.broadcast = true) :
    BroadcastDelivered s call := by
  have at_call := inv.calls signaller call (by rw [here, Point.call])
  have empty := at_call.emptied broadcast here
  refine ⟨empty, at_call.once, ?_⟩
  intro waiter found
  obtain ⟨mutex, asleep⟩ := at_call.found waiter found
  have sleeping := ((inv.waiters waiter).stopped mutex call.cv asleep).1
  rcases at_call.settled waiter found with ring | timeout | readied | taken
  · simp [empty] at ring
  · have unreadied : waiter ∉ call.readied := by
      intro member
      have signalled := (at_call.readied waiter member).2.2
      simp [timeout] at signalled
    exact ⟨by simp [sleeping, timeout], .inr ⟨timeout, unreadied⟩⟩
  · have signalled := (at_call.readied waiter readied).2.2
    exact ⟨by simp [sleeping, signalled], .inl ⟨signalled, readied⟩⟩
  · simp [here] at taken

/-- **Condition variables lose no wakeup.** Over all interleavings of waits,
signals, broadcasts and timeouts of any number of threads, a signal finds
every thread that has released its mutex, readies exactly one waiter that is
still asleep (a broadcast all of them), and `cv_wait` returns 1 to exactly the
threads readied so. -/
theorem wakeup_invariant (reached : (machine Thread Mutex Cond).Reachable s) :
    WakeupInvariant s := by
  have inv := reachable_inv reached
  constructor
  case inspected =>
    intro signaller call thread here waits
    refine inv.idle_inspected ?_ waits
    intro holder held
    have locked : s.waitsetLock call.cv = some signaller :=
      inv.locked (by rw [here, Point.locks])
    obtain rfl : signaller = holder := by simpa [locked] using held
    exact ⟨call, here⟩
  case issued =>
    intro signaller cv broadcast t moved
    simp only [step, act, Option.ite_none_right_eq_some, Option.some.injEq] at moved
    obtain ⟨-, ⟨-, free⟩, rfl⟩ := moved
    refine ⟨_, update_self .., rfl, rfl, rfl, rfl, ?_⟩
    intro thread waits
    exact inv.idle_inspected (by simp [free]) waits
  case spent =>
    intro signaller call waiter t here moved
    have at_call := inv.calls signaller call (by rw [here, Point.call])
    obtain ⟨found, -, -, unsignalled⟩ := at_call.taken waiter here
    obtain ⟨mutex, asleep⟩ := at_call.found waiter found
    have sleeping := (inv.waiters waiter).stopped mutex call.cv asleep
    simp only [step, act, here, advance, Option.ite_none_right_eq_some, Option.some.injEq] at moved
    obtain ⟨-, rfl⟩ := moved
    by_cases stopped : s.threadState waiter = .stopped
    · exact .inl ⟨stopped, by simp [wakeup, stopped, schedMakeReady],
        by simp [wakeup, stopped, schedMakeReady]⟩
    · refine .inr ⟨?_, by simp [wakeup, stopped, sleeping.2.1]⟩
      rcases readier : s.readiedBy waiter with _ | (_ | _)
      · exact absurd (sleeping.1.mpr readier) stopped
      · exact absurd readier unsignalled
      · rfl
  case signalled => exact fun signaller call here signal => inv.signalDelivered here signal
  case broadcast => exact fun signaller call here broadcast => inv.broadcastDelivered here broadcast
  case returned =>
    intro thread mutex t here moved
    simp only [step, act, here, advance, Option.ite_none_right_eq_some, Option.some.injEq] at moved
    obtain ⟨-, -, rfl⟩ := moved
    simp only [returnSignalled, update_self]
    have own := inv.waiters thread
    refine ⟨own.marked (by rw [here, Point.hasSlept]), ?_⟩
    intro readied
    apply (own.signalled readied).2.resolve_right
    intro woken
    obtain ⟨_, _, asleep⟩ := inv.woken_asleep woken
    rw [here] at asleep
    cases asleep
  case counted => exact fun thread => (inv.waiters thread).counted
  case total =>
    intro threads outside
    apply Finset.sum_congr rfl
    intro thread member
    have own := inv.waiters thread
    have counted := own.counted
    rw [own.unreadied (outside thread member)] at counted
    simpa using counted.symm
  case asserts => exact inv.asserts

/-- Thread 0 waits without a timeout, then thread 1 signals. -/
def oneSignal : List (Label (Fin 2) Unit Unit) :=
  [.run 0 (.mutexLock ()), .run 0 (.condWait () () false), .run 0 .advance, .run 0 .advance,
    .run 1 (.condSignal () false), .run 1 .advance, .run 1 .advance, .run 1 .advance]

def twoThreads : State (Fin 2) Unit Unit := boot (fun _ => .running) fun _ => ⟨false, false⟩

theorem wakeup_invariant_oneSignal : ∃ s, oneSignal.foldlM step twoThreads = some s ∧
    WakeupInvariant s ∧ s.point 1 = .finishing ⟨(), false, [0], [0]⟩ := by
  have booted : (machine (Fin 2) Unit Unit).Reachable twoThreads := .start ⟨_, _, rfl⟩
  exact ⟨_, rfl, wakeup_invariant (booted.replay oneSignal rfl), rfl⟩

end TinyOs.CondVar
