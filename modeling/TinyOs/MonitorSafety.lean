import Mathlib.Data.Set.Card
import TinyOs.CondVarWakeups
import TinyOs.Monitor

/-! The kernel monitor admits one thread at a time, and a free kernel is never
left to sleeping claimants. -/
namespace TinyOs.Monitor
open Library Function
open Scheduler (ThreadState)
open CondVar (Action)

variable {Thread Mutex Cond : Type*} [DecidableEq Thread] [DecidableEq Mutex] [DecidableEq Cond]
  {kernelMutex : Mutex} {kernelSemCv : Cond}

/-- The thread is inside the kernel: past its decrement of `kernel_sem` and
before its next increment. -/
def Point.inKernel : Point Cond → Bool
  | .acquired | .inside | .leaving _ | .posting _ => true
  | _ => false

/-- In `cv_wait` on the two arguments, wherever in it. -/
def WaitsAt (mutex : Mutex) (cv : Cond) : CondVar.Point Thread Mutex Cond → Prop
  | .enqueued m c _ | .released m c _ | .asleep m c | .rechecked m c => m = mutex ∧ c = cv
  | .relocking m => m = mutex
  | _ => False

/-- In no call on the mutex or the condition variable of the monitor. -/
def ForeignAt (kernelMutex : Mutex) (kernelSemCv : Cond) :
    CondVar.Point Thread Mutex Cond → Prop
  | .outside => True
  | .enqueued m c _ | .released m c _ | .asleep m c | .rechecked m c =>
    m ≠ kernelMutex ∧ c ≠ kernelSemCv
  | .relocking m => m ≠ kernelMutex
  | .scanning call | .taken call _ | .woken call _ | .finishing call => call.cv ≠ kernelSemCv

/-- Where a thread is in the condition variables follows from where it is in
the monitor. -/
def Fits (kernelMutex : Mutex) (kernelSemCv : Cond) :
    Point Cond → CondVar.Point Thread Mutex Cond → Prop
  | .user, point | .inside, point => ForeignAt kernelMutex kernelSemCv point
  | .waitingSem, point => WaitsAt kernelMutex kernelSemCv point
  | .waiting cv, point => cv ≠ kernelSemCv ∧ WaitsAt kernelMutex cv point
  | .signalling exit, point => (∀ timed, exit ≠ .wait kernelSemCv timed) ∧
    (point = .outside ∨ ∃ call, point.call = some call ∧ call.cv = kernelSemCv)
  | .leaving exit, point | .posting exit, point | .signalled exit, point =>
    (∀ timed, exit ≠ .wait kernelSemCv timed) ∧ point = .outside
  | .locking, point | .testing, point | .acquired, point => point = .outside

/-- The thread has locked `kernel_mutex`. -/
def holdsMutex : Point Cond → CondVar.Point Thread Mutex Cond → Bool
  | .testing, _ | .acquired, _ | .posting _, _ | .signalling _, _ | .signalled _, _ => true
  | .waitingSem, .enqueued _ _ _ | .waiting _, .enqueued _ _ _ => true
  | _, _ => false

omit [DecidableEq Thread] [DecidableEq Mutex] [DecidableEq Cond] in
@[simp] theorem holdsMutex_waitingSem (point : CondVar.Point Thread Mutex Cond) :
    holdsMutex .waitingSem point = true ↔ ∃ m c b, point = .enqueued m c b := by
  cases point <;> simp [holdsMutex]

omit [DecidableEq Thread] [DecidableEq Mutex] [DecidableEq Cond] in
@[simp] theorem holdsMutex_waiting (cv : Cond) (point : CondVar.Point Thread Mutex Cond) :
    holdsMutex (.waiting cv) point = true ↔ ∃ m c b, point = .enqueued m c b := by
  cases point <;> simp [holdsMutex]

/-- The thread will test `kernel_sem` without further help, or is about to
signal a thread that will. -/
def Claims (s : State Thread Mutex Cond) (thread : Thread) : Prop :=
  s.point thread = .testing ∨
  (s.point thread = .waitingSem ∧ s.cond.readiedBy thread = some .signal) ∨
  ∃ exit, s.point thread = .signalling exit ∧ (s.cond.point thread = .outside ∨
    ∃ call, s.cond.point thread = .scanning call ∨ ∃ waiter, s.cond.point thread = .taken call waiter)

def NobodySleeps (s : State Thread Mutex Cond) : Prop :=
  ∀ thread, s.point thread = .waitingSem → s.cond.readiedBy thread ≠ none

structure Inv (kernelMutex : Mutex) (kernelSemCv : Cond) (s : State Thread Mutex Cond) : Prop where
  cond : CondVar.Inv s.cond
  fits : ∀ thread, Fits kernelMutex kernelSemCv (s.point thread) (s.cond.point thread)
  held : ∀ thread, s.cond.mutex kernelMutex = some thread ↔
    holdsMutex (s.point thread) (s.cond.point thread) = true
  counted : (s.kernelSem = 1 ∧ ∀ thread, (s.point thread).inKernel = false) ∨
    (s.kernelSem = 0 ∧ ∃ thread, ∀ other, (s.point other).inKernel = true ↔ other = thread)
  claimed : s.kernelSem = 1 → (∃ thread, Claims s thread) ∨ NobodySleeps s

/-- What a section of one thread leaves of the others. -/
structure Moves (s t : CondVar.State Thread Mutex Cond) (thread : Thread) : Prop where
  point : ∀ other ≠ thread, t.point other = s.point other
  readiedBy : ∀ other ≠ thread,
    t.readiedBy other = s.readiedBy other ∨ t.readiedBy other = some .signal

section Sections
variable {s t : CondVar.State Thread Mutex Cond} {thread : Thread} {action : Action Mutex Cond}

theorem advance_moves (moved : CondVar.advance s thread (s.point thread) = some t) :
    Moves s t thread := by
  cases here : s.point thread <;> rw [here] at moved <;>
    simp only [CondVar.advance, Option.ite_none_right_eq_some, Option.some.injEq] at moved
  case outside => cases moved
  case asleep mutex cv =>
    obtain ⟨-, rfl⟩ := moved
    constructor <;> intro other different <;> simp [CondVar.recheck, different]
  case relocking mutex =>
    obtain ⟨-, rfl⟩ := moved
    constructor <;> intro other different <;> simp [CondVar.returnSignalled, different]
  case scanning call =>
    subst moved
    constructor <;> intro other different <;> unfold CondVar.scan <;> split <;>
      simp [CondVar.takeWaiter, different]
  case taken call waiter =>
    subst moved
    constructor <;> intro other different <;> unfold CondVar.wakeup <;> split <;>
      simp [CondVar.schedMakeReady, different, update_apply]
    grind
  all_goals
    subst moved
    constructor <;> intro other different <;>
      simp [CondVar.releaseMutex, CondVar.sleepReleasing, CondVar.releaseWaitset,
        CondVar.markSignalled, CondVar.unlockRing, different]

theorem act_moves (moved : CondVar.act s thread action = some t) : Moves s t thread := by
  cases action <;> simp only [CondVar.act, Option.ite_none_right_eq_some, Option.some.injEq] at moved
  case advance => exact advance_moves moved
  all_goals
    obtain ⟨-, rfl⟩ := moved
    constructor <;> intro other different <;> simp [CondVar.enqueue, CondVar.lockRing, different]

/-- Code outside the monitor leaves `kernel_mutex` and `kernel_sem_cv` alone. -/
theorem foreign_section (fits : ForeignAt kernelMutex kernelSemCv (s.point thread))
    (names : foreign kernelMutex kernelSemCv action = true)
    (moved : CondVar.act s thread action = some t) :
    ForeignAt kernelMutex kernelSemCv (t.point thread) ∧
      t.mutex kernelMutex = s.mutex kernelMutex := by
  cases action <;>
    simp only [CondVar.act, Option.ite_none_right_eq_some, Option.some.injEq] at moved <;>
    simp only [foreign, decide_eq_true_eq] at names
  case advance =>
    cases here : s.point thread <;> rw [here] at moved fits <;>
      simp only [CondVar.advance, Option.ite_none_right_eq_some, Option.some.injEq, reduceCtorEq]
        at moved <;>
      simp only [ForeignAt] at fits
    case scanning call =>
      subst moved
      unfold CondVar.scan
      split <;> simp [CondVar.takeWaiter, ForeignAt, fits]
    case taken call waiter =>
      subst moved
      unfold CondVar.wakeup
      split <;> simp [CondVar.schedMakeReady, ForeignAt, fits]
    case woken call waiter =>
      subst moved
      simp only [CondVar.markSignalled, update_self]
      split <;> simp [ForeignAt, fits]
    all_goals
      obtain ⟨-, rfl⟩ := moved
      simp [CondVar.releaseMutex, CondVar.sleepReleasing, CondVar.recheck, CondVar.releaseWaitset,
        CondVar.returnSignalled, CondVar.unlockRing, ForeignAt, fits, update_apply] <;> grind
  all_goals
    obtain ⟨here, rfl⟩ := moved
    simp [CondVar.enqueue, CondVar.lockRing, ForeignAt, update_apply]
    grind

/-- A section of `cv_wait` on `kernel_mutex`: the first unlocks the mutex, the
last locks it and returns. -/
theorem wait_section {cv : Cond} (waits : WaitsAt kernelMutex cv (s.point thread))
    (moved : CondVar.advance s thread (s.point thread) = some t) :
    (t.point thread = .outside ∧ s.mutex kernelMutex = none ∧
      t.mutex kernelMutex = some thread) ∨
    (WaitsAt kernelMutex cv (t.point thread) ∧ (∀ m c b, t.point thread ≠ .enqueued m c b) ∧
      t.readiedBy thread = s.readiedBy thread ∧
      ((∃ m c b, s.point thread = .enqueued m c b) ∧ t.mutex kernelMutex = none ∨
        (∀ m c b, s.point thread ≠ .enqueued m c b) ∧
          t.mutex kernelMutex = s.mutex kernelMutex)) := by
  cases here : s.point thread <;> rw [here] at moved waits <;>
    simp only [CondVar.advance, Option.ite_none_right_eq_some, Option.some.injEq, reduceCtorEq]
      at moved <;>
    simp only [WaitsAt] at waits
  case relocking mutex =>
    obtain ⟨free, rfl⟩ := moved
    subst mutex
    exact .inl ⟨update_self .., free, update_self ..⟩
  all_goals
    refine .inr ?_
    obtain ⟨rfl, rfl⟩ := waits
    obtain ⟨-, rfl⟩ := moved
    simp [CondVar.releaseMutex, CondVar.sleepReleasing, CondVar.recheck, CondVar.releaseWaitset,
      WaitsAt]

/-- A section of `Cond_Signal(&kernel_sem_cv)`, which leaves the mutexes alone. -/
theorem signal_section {call : CondVar.Signal Thread Cond}
    (here : (s.point thread).call = some call)
    (moved : CondVar.advance s thread (s.point thread) = some t) :
    t.mutex = s.mutex ∧ (t.point thread = .outside ∨
      ∃ next, (t.point thread).call = some next ∧ next.cv = call.cv) := by
  cases point : s.point thread <;> rw [point] at moved here <;>
    simp only [CondVar.advance, Option.some.injEq, reduceCtorEq] at moved <;>
    simp only [CondVar.Point.call, Option.some.injEq, reduceCtorEq] at here <;> subst here
  case scanning call =>
    subst moved
    unfold CondVar.scan
    split <;> simp [CondVar.takeWaiter, CondVar.Point.call]
  case taken call waiter =>
    subst moved
    unfold CondVar.wakeup
    split <;> simp [CondVar.schedMakeReady, CondVar.Point.call]
  case woken call waiter =>
    subst moved
    refine ⟨rfl, .inr ⟨call, ?_, rfl⟩⟩
    simp only [CondVar.markSignalled, update_self]
    split <;> rfl
  case finishing call =>
    subst moved
    simp [CondVar.unlockRing]

end Sections

variable {s t : State Thread Mutex Cond} {thread : Thread}

omit [DecidableEq Thread] [DecidableEq Mutex] [DecidableEq Cond] in
/-- A step of one thread keeps the invariant when it hands the mutex and the
semaphore over properly and no claim is lost. -/
theorem Inv.moved (inv : Inv kernelMutex kernelSemCv s) (cond : CondVar.Inv t.cond)
    (apart : ∀ other ≠ thread, t.point other = s.point other)
    (moves : Moves s.cond t.cond thread)
    (fits : Fits kernelMutex kernelSemCv (t.point thread) (t.cond.point thread))
    (mutex :
      (t.cond.mutex kernelMutex = s.cond.mutex kernelMutex ∧
        holdsMutex (t.point thread) (t.cond.point thread) =
          holdsMutex (s.point thread) (s.cond.point thread)) ∨
      (s.cond.mutex kernelMutex = none ∧ t.cond.mutex kernelMutex = some thread ∧
        holdsMutex (t.point thread) (t.cond.point thread) = true) ∨
      (holdsMutex (s.point thread) (s.cond.point thread) = true ∧
        t.cond.mutex kernelMutex = none ∧
        holdsMutex (t.point thread) (t.cond.point thread) = false))
    (sem :
      (t.kernelSem = s.kernelSem ∧ (t.point thread).inKernel = (s.point thread).inKernel) ∨
      (0 < s.kernelSem ∧ t.kernelSem = s.kernelSem - 1 ∧ (t.point thread).inKernel = true) ∨
      ((s.point thread).inKernel = true ∧ t.kernelSem = s.kernelSem + 1 ∧
        (t.point thread).inKernel = false))
    (claims : t.kernelSem = 1 → (∃ other, Claims t other) ∨ NobodySleeps t ∨
      (s.kernelSem = 1 ∧ ¬ Claims s thread ∧ (t.point thread = .waitingSem →
        s.point thread = .waitingSem ∧ t.cond.readiedBy thread = s.cond.readiedBy thread))) :
    Inv kernelMutex kernelSemCv t where
  cond := cond
  fits other := by
    rcases eq_or_ne other thread with rfl | different
    · exact fits
    · rw [apart other different, moves.point other different]
      exact inv.fits other
  held other := by
    have before := inv.held other
    have own := inv.held thread
    rcases eq_or_ne other thread with rfl | different
    · grind
    · rw [apart other different, moves.point other different]
      grind
  counted := by
    have others : ∀ other ≠ thread, (t.point other).inKernel = (s.point other).inKernel :=
      fun other different => by rw [apart other different]
    rcases inv.counted with ⟨free, nobody⟩ | ⟨taken, owner, only⟩
    · rcases sem with ⟨same, kept⟩ | ⟨-, down, entered⟩ | ⟨left, -, -⟩
      · refine .inl ⟨by omega, ?_⟩
        grind
      · refine .inr ⟨by omega, thread, ?_⟩
        grind
      · simp [nobody] at left
    · rcases sem with ⟨same, kept⟩ | ⟨positive, -, -⟩ | ⟨left, up, gone⟩
      · refine .inr ⟨by omega, owner, ?_⟩
        grind
      · omega
      · refine .inl ⟨by omega, ?_⟩
        grind
  claimed one := by
    have readied := moves.readiedBy
    rcases claims one with claimed | nobody | ⟨before, unclaimed, asleep⟩
    · exact .inl claimed
    · exact .inr nobody
    rcases inv.claimed before with ⟨other, claimant⟩ | nobody
    · have different : other ≠ thread := by
        rintro rfl
        exact unclaimed claimant
      refine .inl ⟨other, ?_⟩
      unfold Claims at claimant ⊢
      rw [apart other different, moves.point other different]
      grind
    · refine .inr ?_
      intro other waits
      rcases eq_or_ne other thread with rfl | different
      · obtain ⟨there, same⟩ := asleep waits
        rw [same]
        exact nobody other there
      · rw [apart other different] at waits
        have before := nobody other waits
        grind

omit [DecidableEq Thread] [DecidableEq Mutex] [DecidableEq Cond] in
/-- Whoever sleeps on `kernel_sem_cv` is in its ring while nobody has taken a
waiter out. -/
theorem Inv.nobody_sleeps (inv : Inv kernelMutex kernelSemCv s) {call : CondVar.Signal Thread Cond}
    (scanning : s.cond.point thread = .scanning call) (sem : call.cv = kernelSemCv)
    (empty : s.cond.waitset call.cv = []) : NobodySleeps s := by
  intro other waits unreadied
  have locked : s.cond.waitsetLock call.cv = some thread :=
    inv.cond.locked (by rw [scanning, CondVar.Point.locks])
  have scanned : ∀ holder, s.cond.waitsetLock call.cv = some holder →
      ∃ call, s.cond.point holder = .scanning call := by
    intro holder held
    obtain rfl : thread = holder := by simpa [locked] using held
    exact ⟨call, scanning⟩
  have waits_at : WaitsAt kernelMutex kernelSemCv (s.cond.point other) := by
    have fits := inv.fits other
    rwa [waits] at fits
  have awake := (inv.cond.waiters other).awake
  have unlocked := fun cv => inv.cond.lock_held cv other
  have idle := fun idles : CondVar.WaitsIdle s.cond other call.cv =>
    (inv.cond.idle_inspected scanned idles).1
  cases point : s.cond.point other <;> rw [point] at waits_at <;> try exact waits_at
  case enqueued mutex cv timed =>
    have held := (unlocked cv).mpr (by rw [point, CondVar.Point.locks])
    grind [WaitsAt]
  case released mutex cv timed =>
    have held := (unlocked cv).mpr (by rw [point, CondVar.Point.locks])
    grind [WaitsAt]
  case asleep mutex cv =>
    have member := idle ⟨unreadied, mutex, .inr (by grind [WaitsAt])⟩
    simp [empty] at member
  all_goals
    refine awake ?_ ?_ unreadied <;> simp [point, CondVar.Point.waitsOn, CondVar.Point.hasSlept]

/-- A signal on `kernel_sem_cv` goes on until it has readied a sleeper or there
is none. -/
theorem Inv.signal_claims (inv : Inv kernelMutex kernelSemCv s) {call : CondVar.Signal Thread Cond}
    {cond : CondVar.State Thread Mutex Cond}
    (at_call : (s.cond.point thread).call = some call) (sem : call.cv = kernelSemCv)
    (acted : CondVar.advance s.cond thread (s.cond.point thread) = some cond) :
    (s.cond.point thread ≠ .outside ∧ ∀ call, s.cond.point thread ≠ .scanning call ∧
      ∀ waiter, s.cond.point thread ≠ .taken call waiter) ∨
    (NobodySleeps s ∧ cond.readiedBy = s.cond.readiedBy) ∨
    (∃ call, cond.point thread = .scanning call ∨ ∃ waiter, cond.point thread = .taken call waiter) ∨
    (∃ waiter ≠ thread, s.point waiter = .waitingSem ∧ cond.readiedBy waiter = some .signal) := by
  cases here : s.cond.point thread <;> rw [here] at acted at_call <;>
    simp only [CondVar.advance, Option.some.injEq] at acted <;>
    simp only [CondVar.Point.call, Option.some.injEq, reduceCtorEq] at at_call <;> subst at_call
  case scanning call =>
    subst acted
    cases ring : s.cond.waitset call.cv with
    | nil => exact .inr (.inl ⟨inv.nobody_sleeps here sem ring, by simp [CondVar.scan, ring]⟩)
    | cons waiter rest =>
      exact .inr (.inr (.inl ⟨call, .inr ⟨waiter, by simp [CondVar.scan, ring, CondVar.takeWaiter]⟩⟩))
  case taken call waiter =>
    subst acted
    have of_call := inv.cond.calls thread call (by rw [here, CondVar.Point.call])
    obtain ⟨mutex, asleep⟩ := of_call.found waiter (of_call.taken waiter here).1
    have sleeper : s.point waiter = .waitingSem := by
      have fits := inv.fits waiter
      rw [asleep] at fits
      cases there : s.point waiter <;> rw [there] at fits <;>
        grind [Fits, ForeignAt, WaitsAt, CondVar.Point.call]
    have apart : waiter ≠ thread := by
      rintro rfl
      rw [here] at asleep
      cases asleep
    unfold CondVar.wakeup
    split
    · exact .inr (.inr (.inr ⟨waiter, apart, sleeper, by simp [CondVar.schedMakeReady]⟩))
    · exact .inr (.inr (.inl ⟨call, .inl (by simp)⟩))
  all_goals exact .inl (by simp)

section Run
variable {cond : CondVar.State Thread Mutex Cond} {action : Action Mutex Cond} {point : Point Cond}
  {exit : Exit Cond}

/-- What a section of `kernel_cc.c` by one thread has to hand over. -/
theorem Inv.run (inv : Inv kernelMutex kernelSemCv s)
    (running : s.cond.threadState thread = .running)
    (acted : CondVar.act s.cond thread action = some cond)
    (fits : Fits kernelMutex kernelSemCv point (cond.point thread))
    (mutex :
      (cond.mutex kernelMutex = s.cond.mutex kernelMutex ∧
        holdsMutex point (cond.point thread) = holdsMutex (s.point thread) (s.cond.point thread)) ∨
      (s.cond.mutex kernelMutex = none ∧ cond.mutex kernelMutex = some thread ∧
        holdsMutex point (cond.point thread) = true) ∨
      (holdsMutex (s.point thread) (s.cond.point thread) = true ∧
        cond.mutex kernelMutex = none ∧ holdsMutex point (cond.point thread) = false))
    (sem : point.inKernel = (s.point thread).inKernel)
    (claims : s.kernelSem = 1 → (∃ other, Claims ({ s with cond := cond }.move thread point) other) ∨
      NobodySleeps ({ s with cond := cond }.move thread point) ∨
      (¬ Claims s thread ∧ (point = .waitingSem →
        s.point thread = .waitingSem ∧ cond.readiedBy thread = s.cond.readiedBy thread))) :
    Inv kernelMutex kernelSemCv ({ s with cond := cond }.move thread point) := by
  have own : ({ s with cond := cond }.move thread point).point thread = point := update_self ..
  have apart : ∀ other ≠ thread,
      ({ s with cond := cond }.move thread point).point other = s.point other :=
    fun other different => update_of_ne different ..
  apply inv.moved (CondVar.act_inv inv.cond thread action running acted) apart (act_moves acted)
  · rw [own]
    exact fits
  · rw [own]
    exact mutex
  · rw [own]
    exact .inl ⟨rfl, sem⟩
  · intro one
    rw [own]
    rcases claims one with claimed | nobody | kept
    · exact .inl claimed
    · exact .inr (.inl nobody)
    · exact .inr (.inr ⟨one, kept⟩)

/-- Code outside the monitor. -/
theorem Inv.run_foreign (inv : Inv kernelMutex kernelSemCv s)
    (running : s.cond.threadState thread = .running)
    (acted : CondVar.act s.cond thread action = some cond)
    (names : foreign kernelMutex kernelSemCv action = true)
    (here : s.point thread = point) (code : point = .user ∨ point = .inside) :
    Inv kernelMutex kernelSemCv ({ s with cond := cond }.move thread point) := by
  have fits := inv.fits thread
  rw [here] at fits
  have before : ForeignAt kernelMutex kernelSemCv (s.cond.point thread) := by
    rcases code with rfl | rfl <;> exact fits
  obtain ⟨still, mutex⟩ := foreign_section before names acted
  apply inv.run running acted
  · rcases code with rfl | rfl <;> exact still
  · rw [here]
    refine .inl ⟨mutex, ?_⟩
    rcases code with rfl | rfl <;> rfl
  · rw [here]
  · intro _
    refine .inr (.inr ⟨?_, ?_⟩)
    · rcases code with rfl | rfl <;> simp [Claims, here]
    · rcases code with rfl | rfl <;> simp

/-- The thread has locked `kernel_mutex` and tests `kernel_sem`. -/
theorem Inv.run_tests (inv : Inv kernelMutex kernelSemCv s)
    (running : s.cond.threadState thread = .running)
    (acted : CondVar.act s.cond thread action = some cond)
    (outside : cond.point thread = .outside) (free : s.cond.mutex kernelMutex = none)
    (locked : cond.mutex kernelMutex = some thread)
    (away : (s.point thread).inKernel = false) :
    Inv kernelMutex kernelSemCv ({ s with cond := cond }.move thread .testing) := by
  have fits : Fits kernelMutex kernelSemCv .testing (cond.point thread) := outside
  apply inv.run running acted fits (.inr (.inl ⟨free, locked, rfl⟩)) away.symm
  exact fun _ => .inl ⟨thread, .inl (update_self ..)⟩

omit [DecidableEq Thread] [DecidableEq Mutex] [DecidableEq Cond] in
/-- What becomes of `kernel_mutex` while `cv_wait` goes on. -/
theorem waits_mutex
    (now : ∀ at_ : CondVar.Point Thread Mutex Cond,
      holdsMutex point at_ = true ↔ ∃ m c b, at_ = .enqueued m c b)
    (unlocked : ∀ m c b, cond.point thread ≠ .enqueued m c b)
    (mutex : (∃ m c b, s.cond.point thread = .enqueued m c b) ∧ cond.mutex kernelMutex = none ∨
      (∀ m c b, s.cond.point thread ≠ .enqueued m c b) ∧
        cond.mutex kernelMutex = s.cond.mutex kernelMutex) :
    (cond.mutex kernelMutex = s.cond.mutex kernelMutex ∧
      holdsMutex point (cond.point thread) = holdsMutex point (s.cond.point thread)) ∨
    (s.cond.mutex kernelMutex = none ∧ cond.mutex kernelMutex = some thread ∧
      holdsMutex point (cond.point thread) = true) ∨
    (holdsMutex point (s.cond.point thread) = true ∧
      cond.mutex kernelMutex = none ∧ holdsMutex point (cond.point thread) = false) := by
  have after : holdsMutex point (cond.point thread) = false := by
    rw [Bool.eq_false_iff, ne_eq, now]
    rintro ⟨m, c, b, enqueued⟩
    exact unlocked m c b enqueued
  rcases mutex with ⟨enqueued, none⟩ | ⟨before, kept⟩
  · exact .inr (.inr ⟨(now _).mpr enqueued, none, after⟩)
  · refine .inl ⟨kept, ?_⟩
    rw [after, eq_comm, Bool.eq_false_iff, ne_eq, now]
    rintro ⟨m, c, b, enqueued⟩
    exact before m c b enqueued

/-- `cv_wait` on `kernel_sem_cv`. -/
theorem Inv.run_waitingSem (inv : Inv kernelMutex kernelSemCv s)
    (running : s.cond.threadState thread = .running)
    (acted : CondVar.act s.cond thread action = some cond) (here : s.point thread = .waitingSem)
    (follows : next kernelMutex kernelSemCv s.kernelSem (cond.point thread = .outside)
      .waitingSem action = some point) :
    Inv kernelMutex kernelSemCv ({ s with cond := cond }.move thread point) := by
  have fits := inv.fits thread
  rw [here] at fits
  cases action <;> simp only [next, reduceCtorEq] at follows
  rcases wait_section fits acted with ⟨outside, free, locked⟩ | ⟨waits, unlocked, same, mutex⟩
  · obtain rfl : .testing = point := by simpa [outside] using follows
    exact inv.run_tests running acted outside free locked (by rw [here]; rfl)
  · have away : cond.point thread ≠ .outside := by
      intro outside
      simp [outside, WaitsAt] at waits
    obtain rfl : .waitingSem = point := by simpa [away] using follows
    apply inv.run running acted
    · exact waits
    · rw [here]
      exact waits_mutex holdsMutex_waitingSem unlocked mutex
    · rw [here]
    · intro _
      by_cases claims : Claims s thread
      · refine .inl ⟨thread, .inr (.inl ⟨by simp [State.move], ?_⟩)⟩
        simp only [Claims, here, reduceCtorEq, false_or, false_and, exists_false, or_false,
          true_and] at claims
        exact same.trans claims
      · exact .inr (.inr ⟨claims, fun _ => ⟨here, same⟩⟩)

/-- `cv_wait` of `kernel_wait_wchan`. -/
theorem Inv.run_waiting {cv : Cond} (inv : Inv kernelMutex kernelSemCv s)
    (running : s.cond.threadState thread = .running)
    (acted : CondVar.act s.cond thread action = some cond) (here : s.point thread = .waiting cv)
    (follows : next kernelMutex kernelSemCv s.kernelSem (cond.point thread = .outside)
      (.waiting cv) action = some point) :
    Inv kernelMutex kernelSemCv ({ s with cond := cond }.move thread point) := by
  have fits := inv.fits thread
  rw [here] at fits
  obtain ⟨other_cv, waits⟩ := fits
  cases action <;> simp only [next, reduceCtorEq] at follows
  rcases wait_section waits acted with ⟨outside, free, locked⟩ | ⟨waits, unlocked, -, mutex⟩
  · obtain rfl : .testing = point := by simpa [outside] using follows
    exact inv.run_tests running acted outside free locked (by rw [here]; rfl)
  · have away : cond.point thread ≠ .outside := by
      intro outside
      simp [outside, WaitsAt] at waits
    obtain rfl : .waiting cv = point := by simpa [away] using follows
    apply inv.run running acted
    · exact ⟨other_cv, waits⟩
    · rw [here]
      exact waits_mutex (holdsMutex_waiting cv) unlocked mutex
    · rw [here]
    · exact fun _ => .inr (.inr ⟨by simp [Claims, here], by simp⟩)

/-- A section of the signal on `kernel_sem_cv` leaves a claim to somebody, or nobody
sleeps. -/
theorem Inv.run_signal (inv : Inv kernelMutex kernelSemCv s)
    (running : s.cond.threadState thread = .running)
    (acted : CondVar.act s.cond thread .advance = some cond)
    (here : s.point thread = .signalling exit)
    (follows : next kernelMutex kernelSemCv s.kernelSem (cond.point thread = .outside)
      (.signalling exit) .advance = some point) :
    Inv kernelMutex kernelSemCv ({ s with cond := cond }.move thread point) := by
  have fits := inv.fits thread
  rw [here] at fits
  obtain ⟨others, at_signal⟩ := fits
  rcases at_signal with outside | ⟨call, at_call, sem⟩
  · simp [CondVar.act, outside, CondVar.advance] at acted
  obtain ⟨mutex, after⟩ := signal_section at_call acted
  have kept := inv.signal_claims at_call sem acted
  have nobody : ∀ point, NobodySleeps s ∧ cond.readiedBy = s.cond.readiedBy →
      point ≠ .waitingSem → NobodySleeps ({ s with cond := cond }.move thread point) := by
    rintro point ⟨nobody, same⟩ signals other waits
    have different : other ≠ thread := by
      rintro rfl
      simp [State.move, signals] at waits
    simp only [State.move, update_of_ne different, same] at waits ⊢
    exact nobody other waits
  have woken : ∀ point, (∃ waiter ≠ thread, s.point waiter = .waitingSem ∧
      cond.readiedBy waiter = some .signal) →
      ∃ other, Claims ({ s with cond := cond }.move thread point) other := by
    rintro point ⟨waiter, different, waits, readied⟩
    exact ⟨waiter, .inr (.inl ⟨by simpa [State.move, different] using waits, readied⟩)⟩
  by_cases outside : cond.point thread = .outside
  · obtain rfl : .signalled exit = point := by simpa [next, outside] using follows
    apply inv.run running acted
    · exact ⟨others, outside⟩
    · exact .inl (by simp [here, mutex, holdsMutex])
    · rw [here]
      rfl
    · intro one
      rcases kept with ⟨begun, spent⟩ | nobodyNow | ⟨call, scanning | ⟨_, taken⟩⟩ | readied
      · exact .inr (.inr ⟨by simp [Claims, here, begun, spent], by simp⟩)
      · exact .inr (.inl (nobody _ nobodyNow (by simp)))
      · simp [outside] at scanning
      · simp [outside] at taken
      · exact .inl (woken _ readied)
  · obtain rfl : .signalling exit = point := by simpa [next, outside] using follows
    obtain ⟨next, at_next, same⟩ := after.resolve_left outside
    apply inv.run running acted
    · exact ⟨others, .inr ⟨next, at_next, same.trans sem⟩⟩
    · exact .inl (by simp [here, mutex, holdsMutex])
    · rw [here]
    · intro one
      rcases kept with ⟨begun, spent⟩ | nobodyNow | ⟨call, still⟩ | readied
      · exact .inr (.inr ⟨by simp [Claims, here, begun, spent], by simp⟩)
      · exact .inr (.inl (nobody _ nobodyNow (by simp)))
      · exact .inl ⟨thread, .inr (.inr ⟨exit, by simp [State.move], .inr ⟨call, still⟩⟩)⟩
      · exact .inl (woken _ readied)

/-- The thread leaves the monitor, with `kernel_mutex` unlocked or within `cv_wait`. -/
theorem Inv.run_signalled (inv : Inv kernelMutex kernelSemCv s)
    (running : s.cond.threadState thread = .running)
    (acted : CondVar.act s.cond thread action = some cond)
    (here : s.point thread = .signalled exit)
    (follows : next kernelMutex kernelSemCv s.kernelSem (cond.point thread = .outside)
      (.signalled exit) action = some point) :
    Inv kernelMutex kernelSemCv ({ s with cond := cond }.move thread point) := by
  have fits := inv.fits thread
  rw [here] at fits
  obtain ⟨others, outside⟩ := fits
  have sections := acted
  cases exit with
  | unlock =>
    simp only [next, Option.ite_none_right_eq_some, Option.some.injEq] at follows
    obtain ⟨rfl, rfl⟩ := follows
    simp only [CondVar.act, Option.ite_none_right_eq_some, Option.some.injEq] at acted
    obtain ⟨-, rfl⟩ := acted
    refine inv.run running sections ?_ (.inr (.inr ⟨?_, ?_, ?_⟩)) ?_
      fun _ => .inr (.inr ⟨?_, ?_⟩)
    all_goals simp [Fits, ForeignAt, holdsMutex, Point.inKernel, Claims, here, outside]
  | wait cv timed =>
    simp only [next, Option.ite_none_right_eq_some, Option.some.injEq] at follows
    obtain ⟨rfl, rfl⟩ := follows
    simp only [CondVar.act, Option.ite_none_right_eq_some, Option.some.injEq] at acted
    obtain ⟨-, rfl⟩ := acted
    have other_cv : cv ≠ kernelSemCv := by
      rintro rfl
      exact others timed rfl
    refine inv.run running sections ?_ (.inl ⟨?_, ?_⟩) ?_ fun _ => .inr (.inr ⟨?_, ?_⟩)
    · simp [Fits, CondVar.enqueue, WaitsAt, other_cv]
    all_goals simp [CondVar.enqueue, holdsMutex, Point.inKernel, Claims, here]
  | sleep newstate =>
    simp only [next, Option.ite_none_right_eq_some, Option.some.injEq] at follows
    obtain ⟨rfl, rfl⟩ := follows
    simp only [CondVar.act, Option.ite_none_right_eq_some, Option.some.injEq] at acted
    obtain ⟨-, rfl⟩ := acted
    refine inv.run running sections ?_ (.inr (.inr ⟨?_, ?_, ?_⟩)) ?_
      fun _ => .inr (.inr ⟨?_, ?_⟩)
    all_goals simp [Fits, ForeignAt, holdsMutex, Point.inKernel, Claims, here, outside]

/-- A section of `kernel_cc.c` by one thread. -/
theorem run_inv (inv : Inv kernelMutex kernelSemCv s)
    (running : s.cond.threadState thread = .running)
    (acted : CondVar.act s.cond thread action = some cond)
    (follows : next kernelMutex kernelSemCv s.kernelSem (cond.point thread = .outside)
      (s.point thread) action = some point) :
    Inv kernelMutex kernelSemCv ({ s with cond := cond }.move thread point) := by
  have fits := inv.fits thread
  have sections := acted
  cases here : s.point thread with
  | user =>
    rw [here] at follows
    simp only [next, Option.ite_none_right_eq_some, Option.some.injEq] at follows
    obtain ⟨names, rfl⟩ := follows
    exact inv.run_foreign running acted names here (.inl rfl)
  | inside =>
    rw [here] at follows
    simp only [next, Option.ite_none_right_eq_some, Option.some.injEq] at follows
    obtain ⟨names, rfl⟩ := follows
    exact inv.run_foreign running acted names here (.inr rfl)
  | locking =>
    rw [here] at follows
    simp only [next, Option.ite_none_right_eq_some, Option.some.injEq] at follows
    obtain ⟨rfl, rfl⟩ := follows
    simp only [CondVar.act, Option.ite_none_right_eq_some, Option.some.injEq] at acted
    obtain ⟨⟨outside, free⟩, rfl⟩ := acted
    exact inv.run_tests running sections outside free (update_self ..) (by rw [here]; rfl)
  | testing =>
    rw [here] at follows
    simp only [next, Option.ite_none_right_eq_some, Option.some.injEq] at follows
    obtain ⟨⟨taken, rfl⟩, rfl⟩ := follows
    simp only [CondVar.act, Option.ite_none_right_eq_some, Option.some.injEq] at acted
    obtain ⟨-, rfl⟩ := acted
    refine inv.run running sections ?_ (.inl ?_) ?_ fun one => ?_
    · simp [Fits, WaitsAt, CondVar.enqueue]
    · simp [CondVar.enqueue, here, holdsMutex]
    · simp [here, Point.inKernel]
    · omega
  | waitingSem =>
    rw [here] at follows
    exact inv.run_waitingSem running acted here follows
  | acquired =>
    rw [here] at fits follows
    simp only [next, Option.ite_none_right_eq_some, Option.some.injEq] at follows
    obtain ⟨rfl, rfl⟩ := follows
    simp only [CondVar.act, Option.ite_none_right_eq_some, Option.some.injEq] at acted
    obtain ⟨outside, rfl⟩ := acted
    refine inv.run running sections ?_ (.inr (.inr ⟨?_, ?_, ?_⟩)) ?_
      fun _ => .inr (.inr ⟨?_, ?_⟩)
    all_goals simp [Fits, ForeignAt, holdsMutex, Point.inKernel, Claims, here, outside]
  | leaving exit =>
    rw [here] at fits follows
    simp only [next, Option.ite_none_right_eq_some, Option.some.injEq] at follows
    obtain ⟨rfl, rfl⟩ := follows
    simp only [CondVar.act, Option.ite_none_right_eq_some, Option.some.injEq] at acted
    obtain ⟨⟨outside, free⟩, rfl⟩ := acted
    refine inv.run running sections fits (.inr (.inl ⟨free, ?_, ?_⟩)) ?_
      fun _ => .inr (.inr ⟨?_, ?_⟩)
    all_goals simp [holdsMutex, Point.inKernel, Claims, here]
  | posting exit => simp [here, next] at follows
  | signalling exit =>
    rw [here] at fits follows
    cases action <;> simp only [next, reduceCtorEq] at follows
    case condSignal cv broadcast =>
      simp only [Option.ite_none_right_eq_some, Option.some.injEq] at follows
      obtain ⟨⟨rfl, rfl⟩, rfl⟩ := follows
      simp only [CondVar.act, Option.ite_none_right_eq_some, Option.some.injEq] at acted
      obtain ⟨-, rfl⟩ := acted
      refine inv.run running sections ?_ (.inl ?_) ?_ fun _ => .inl ⟨thread, ?_⟩
      · simpa [Fits, CondVar.lockRing, CondVar.Point.call] using fits.1
      · simp [CondVar.lockRing, here, holdsMutex]
      · simp [here]
      · simp [State.move, CondVar.lockRing, Claims]
    case advance => exact inv.run_signal running acted here follows
  | signalled exit =>
    rw [here] at follows
    exact inv.run_signalled running acted here follows
  | waiting cv =>
    rw [here] at follows
    exact inv.run_waiting running acted here follows

end Run

theorem schedule_inv (inv : Inv kernelMutex kernelSemCv s)
    {label : CondVar.Label Thread Mutex Cond} (scheduled : ∀ thread action, label ≠ .run thread action)
    (moved : schedule s label = some t) : Inv kernelMutex kernelSemCv t := by
  obtain ⟨cond, stepped, rfl⟩ := Option.map_eq_some_iff.mp moved
  have condInv := CondVar.step_inv inv.cond label stepped
  have effect : cond.point = s.cond.point ∧ cond.mutex = s.cond.mutex ∧ ∀ thread,
      cond.readiedBy thread = s.cond.readiedBy thread ∨
        s.cond.readiedBy thread = none ∧ cond.readiedBy thread = some .timeout := by
    cases label with
    | run thread action => exact absurd rfl (scheduled thread action)
    | expire thread =>
      simp only [CondVar.step, Option.ite_none_right_eq_some, Option.some.injEq] at stepped
      obtain ⟨timed, rfl⟩ := stepped
      have own := inv.cond.waiters thread
      obtain ⟨stopped, mutex, cv, asleep⟩ := own.timed timed
      have unreadied := (own.stopped mutex cv asleep).1.mp stopped
      refine ⟨rfl, rfl, fun other => ?_⟩
      simp only [CondVar.schedMakeReady, update_apply]
      grind
    | _ =>
      simp only [CondVar.step, Option.ite_none_right_eq_some, Option.some.injEq] at stepped
      obtain ⟨-, rfl⟩ := stepped
      exact ⟨rfl, rfl, fun _ => .inl rfl⟩
  obtain ⟨point, mutex, readied⟩ := effect
  refine ⟨condInv, by simpa [point] using inv.fits, by simpa [point, mutex] using inv.held,
    inv.counted, fun one => ?_⟩
  rcases inv.claimed one with ⟨thread, claims⟩ | nobody
  · refine .inl ⟨thread, ?_⟩
    unfold Claims at claims ⊢
    have before := readied thread
    grind
  · refine .inr fun thread waits => ?_
    have before := nobody thread waits
    have after := readied thread
    grind

omit [DecidableEq Thread] [DecidableEq Mutex] [DecidableEq Cond] in
theorem Moves.refl (cond : CondVar.State Thread Mutex Cond) (thread : Thread) :
    Moves cond cond thread :=
  ⟨fun _ _ => rfl, fun _ _ => .inl rfl⟩

theorem step_inv (inv : Inv kernelMutex kernelSemCv s) (label : Label Thread Mutex Cond)
    (moved : step kernelMutex kernelSemCv s label = some t) : Inv kernelMutex kernelSemCv t := by
  cases label with
  | run thread action =>
    simp only [step] at moved
    split at moved
    · cases moved
    next cond acted =>
      split at moved
      · cases moved
      next point follows =>
        cases moved
        obtain ⟨running, acted⟩ := Option.ite_none_right_eq_some.mp acted
        exact run_inv inv running acted follows
  | kernelLock thread =>
    simp only [step, Option.ite_none_right_eq_some, Option.some.injEq] at moved
    obtain ⟨⟨idle, here⟩, rfl⟩ := moved
    simp only [executes, decide_eq_true_eq] at idle
    refine inv.moved inv.cond (fun other different => update_of_ne different ..) (.refl ..) ?_
      (.inl ?_) (.inl ?_) fun one => .inr (.inr ⟨one, ?_, ?_⟩)
    all_goals simp [State.move, Fits, holdsMutex, Point.inKernel, Claims, here, idle]
  | kernelExit thread exit =>
    simp only [step, Option.ite_none_right_eq_some, Option.some.injEq] at moved
    obtain ⟨⟨idle, here, other_cv⟩, rfl⟩ := moved
    simp only [executes, decide_eq_true_eq] at idle
    refine inv.moved inv.cond (fun other different => update_of_ne different ..) (.refl ..) ?_
      (.inl ?_) (.inl ?_) fun one => .inr (.inr ⟨one, ?_, ?_⟩)
    · simpa [State.move, Fits, idle] using other_cv
    all_goals simp [State.move, holdsMutex, Point.inKernel, Claims, here]
  | semDown thread =>
    simp only [step, Option.ite_none_right_eq_some, Option.some.injEq] at moved
    obtain ⟨⟨idle, here, positive⟩, rfl⟩ := moved
    simp only [executes, decide_eq_true_eq] at idle
    refine inv.moved inv.cond (fun other different => update_of_ne different ..) (.refl ..) ?_
      (.inl ?_) (.inr (.inl ⟨positive, rfl, ?_⟩)) fun one => ?_
    case refine_4 =>
      have counted := inv.counted
      simp only [State.move] at one
      omega
    all_goals simp [State.move, Fits, holdsMutex, Point.inKernel, here, idle]
  | semUp thread =>
    cases here : s.point thread <;> simp only [step, here, reduceCtorEq] at moved
    case posting exit =>
      simp only [Option.ite_none_right_eq_some, Option.some.injEq] at moved
      obtain ⟨idle, rfl⟩ := moved
      simp only [executes, decide_eq_true_eq] at idle
      have fits := inv.fits thread
      rw [here] at fits
      refine inv.moved inv.cond (fun other different => update_of_ne different ..) (.refl ..) ?_
        (.inl ?_) (.inr (.inr ⟨?_, rfl, ?_⟩))
        fun _ => .inl ⟨thread, .inr (.inr ⟨exit, ?_, .inl idle.2⟩)⟩
      · simp only [State.move, update_self]
        exact ⟨fits.1, .inl idle.2⟩
      all_goals simp [State.move, holdsMutex, Point.inKernel, here]
  | wakeup thread => exact schedule_inv inv (by simp) moved
  | dispatch thread => exact schedule_inv inv (by simp) moved
  | preempt thread => exact schedule_inv inv (by simp) moved
  | expire thread => exact schedule_inv inv (by simp) moved

omit [DecidableEq Thread] [DecidableEq Mutex] [DecidableEq Cond] in
theorem boot_inv (threadState : Thread → ThreadState) (stack : Thread → CondVar.Waiter) :
    Inv kernelMutex kernelSemCv (boot threadState stack : State Thread Mutex Cond) where
  cond := CondVar.boot_inv threadState stack
  fits thread := by simp [boot, CondVar.boot, Fits, ForeignAt]
  held thread := by simp [boot, CondVar.boot, holdsMutex]
  counted := .inl ⟨rfl, fun _ => rfl⟩
  claimed _ := .inr fun thread waits => by simp [boot] at waits

theorem reachable_inv (reached : (machine kernelMutex kernelSemCv).Reachable s) :
    Inv kernelMutex kernelSemCv s := by
  have booted : ∀ s : State Thread Mutex Cond, (machine kernelMutex kernelSemCv).initial s →
      Inv kernelMutex kernelSemCv s := by
    rintro s ⟨threadState, stack, rfl⟩
    exact boot_inv threadState stack
  have kept : ∀ (s : State Thread Mutex Cond) label t, Inv kernelMutex kernelSemCv s →
      (machine kernelMutex kernelSemCv).step s label = some t → Inv kernelMutex kernelSemCv t :=
    fun s label t inv moved => step_inv inv label moved
  exact reached.induction booted kept

/-- The thread has called `Cond_Wait(&kernel_mutex, &kernel_sem_cv)` and sleeps. -/
def AsleepOnSem (s : State Thread Mutex Cond) (thread : Thread) : Prop :=
  s.point thread = .waitingSem ∧ s.cond.threadState thread = .stopped

/-- The thread has been signalled on `kernel_sem_cv`, is awake and has not yet
tested `kernel_sem` again. -/
def InTransit (s : State Thread Mutex Cond) (thread : Thread) : Prop :=
  s.point thread = .waitingSem ∧ s.cond.readiedBy thread = some .signal ∧
    (s.cond.threadState thread = .ready ∨ s.cond.threadState thread = .running)

omit [DecidableEq Thread] [DecidableEq Mutex] [DecidableEq Cond] in
theorem Inv.readied_awake (inv : Inv kernelMutex kernelSemCv s) {readier : CondVar.Readier}
    (readied : s.cond.readiedBy thread = some readier) :
    s.cond.threadState thread = .ready ∨ s.cond.threadState thread = .running := by
  have own := inv.cond.waiters thread
  cases point : s.cond.point thread
  case asleep mutex cv =>
    obtain ⟨asleep, new, gone⟩ := own.stopped mutex cv point
    cases state : s.cond.threadState thread <;> simp_all
  all_goals
    have away : s.cond.point thread ≠ .outside := by
      intro outside
      have unreadied := own.unreadied (by simp [outside, CondVar.Point.hasSlept])
      simp [readied] at unreadied
    exact own.active away (by simp [point])

/-- **The kernel admits one thread at a time and is never left to sleepers.**
While `kernel_mutex` is free, `kernel_sem` and the threads inside the kernel add
up to one, and when the kernel is free and somebody sleeps for it, somebody
else has been signalled and is on the way to it. -/
theorem kernel_monitor (reached : (machine kernelMutex kernelSemCv).Reachable s)
    (free : s.cond.mutex kernelMutex = none) :
    (s.kernelSem = 0 ∨ s.kernelSem = 1) ∧
    (s.kernelSem.toNat : ℕ∞) + {thread | (s.point thread).inKernel = true}.encard = 1 ∧
    (s.kernelSem = 1 → ∀ sleeper, AsleepOnSem s sleeper →
      ∃ thread ≠ sleeper, InTransit s thread) := by
  have inv := reachable_inv reached
  have unheld : ∀ thread, holdsMutex (s.point thread) (s.cond.point thread) = false := by
    intro thread
    have held := inv.held thread
    rw [free] at held
    simpa using held
  refine ⟨?_, ?_, ?_⟩
  · rcases inv.counted with ⟨one, -⟩ | ⟨zero, -⟩
    · exact .inr one
    · exact .inl zero
  · rcases inv.counted with ⟨one, nobody⟩ | ⟨zero, owner, only⟩
    · simp [one, nobody]
    · have alone : {thread | (s.point thread).inKernel = true} = {owner} := by
        ext other
        simpa using only other
      simp [zero, alone]
  · intro one sleeper ⟨waits, stopped⟩
    have sleeps : s.cond.readiedBy sleeper = none := by
      cases readier : s.cond.readiedBy sleeper with
      | none => rfl
      | some readier =>
        have awake := inv.readied_awake readier
        simp [stopped] at awake
    rcases inv.claimed one with ⟨thread, testing | ⟨waiting, readied⟩ | ⟨exit, signalling, -⟩⟩ | nobody
    · have unlocked := unheld thread
      simp [testing, holdsMutex] at unlocked
    · have awake := inv.readied_awake readied
      refine ⟨thread, ?_, waiting, readied, awake⟩
      rintro rfl
      simp [readied] at sleeps
    · have unlocked := unheld thread
      simp [signalling, holdsMutex] at unlocked
    · exact absurd sleeps (nobody sleeper waits)

/-- Thread 0 enters the kernel, threads 1 and 2 go to sleep for it, and thread 0
leaves again. -/
def handOver : List (Label (Fin 3) Unit Unit) :=
  [.kernelLock 0, .run 0 (.mutexLock ()), .semDown 0, .run 0 (.mutexUnlock ()),
    .kernelLock 1, .run 1 (.mutexLock ()), .run 1 (.condWait () () false), .run 1 .advance,
    .run 1 .advance,
    .kernelLock 2, .run 2 (.mutexLock ()), .run 2 (.condWait () () false), .run 2 .advance,
    .run 2 .advance,
    .kernelExit 0 .unlock, .run 0 (.mutexLock ()), .semUp 0, .run 0 (.condSignal () false),
    .run 0 .advance, .run 0 .advance, .run 0 .advance, .run 0 .advance,
    .run 0 (.mutexUnlock ())]

def threeThreads : State (Fin 3) Unit Unit := boot (fun _ => .running) fun _ => ⟨false, false⟩

theorem kernel_monitor_handOver : ∃ s, handOver.foldlM (step () ()) threeThreads = some s ∧
    s.kernelSem = 1 ∧ AsleepOnSem s 2 ∧ ∃ thread ≠ 2, InTransit s thread := by
  have booted : (machine () ()).Reachable threeThreads := .start ⟨_, _, rfl⟩
  refine ⟨_, rfl, rfl, ⟨rfl, rfl⟩, ?_⟩
  exact (kernel_monitor (booted.replay handOver rfl) rfl).2.2 rfl 2 ⟨rfl, rfl⟩

end TinyOs.Monitor
