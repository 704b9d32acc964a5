import TinyOs.MonitorSections

/-! The monitor of `kernel_cc.c` makes the sections of kernel code atomic. First
its threads are shown to make the moves of `Library.Sections`; that these come
to whole sections is a fact of that library. -/
namespace TinyOs.Monitor
open Library Function Relation
open Scheduler (ThreadState)
open CondVar (Action)
open Sections (Place Admitted Move Outer Inner Leaves OuterStep InnerStep)

variable {Thread Mutex Cond Data Local Input : Type*} [DecidableEq Thread] [DecidableEq Mutex]
  [DecidableEq Cond] {kernelMutex : Mutex} {kernelSemCv : Cond} {kernelCv : Cond → Bool}
  {code : Local → Input → Instr Data Local Mutex Cond}

/-- What a thread is on its way to, once it gives the kernel up. -/
def Exit.Showing (kernelCv : Cond → Bool) : Exit Cond → Place Cond → Prop
  | .wait cv timed, place => place = .giving cv timed ∧ kernelCv cv = true
  | .unlock, place | .sleep _, place => place = .outside

/-- Where a thread in the code of the monitor is for its own code. -/
def Point.Showing (kernelCv : Cond → Bool) : Point Cond → Place Cond → Prop
  | .user, place => place = .outside
  | .locking, place => place = .entering
  | .testing, place | .waitingSem, place => Admitted place
  | .acquired, place | .inside, place => place = .inside
  | .leaving exit, place | .posting exit, place | .signalling exit, place
  | .signalled exit, place =>
    exit.Showing kernelCv place
  | .waiting cv, place => kernelCv cv = true ∧ ∃ timed woken, place = .waiting cv timed woken

def Point.isWait : Point Cond → Bool
  | .waiting _ => true
  | _ => false

def waitAt : Point Cond → Place Cond → Option (Wait Cond)
  | .waiting _, .waiting cv timed woken => some ⟨cv, timed, woken⟩
  | _, _ => none

section Shows
variable {s t : State Thread Mutex Cond} {now : Sections.State Thread Data Local Cond}
  {thread : Thread} {point : Point Cond} {place : Place Cond}
  {cond : CondVar.State Thread Mutex Cond}

def waits (s : State Thread Mutex Cond) (now : Sections.State Thread Data Local Cond)
    (thread : Thread) : Option (Wait Cond) :=
  waitAt (s.point thread) (now.place thread)

/-- What a state of the monitor shows of the sections. -/
structure Shows (kernelCv : Cond → Bool) (s : State Thread Mutex Cond)
    (now : Sections.State Thread Data Local Cond) : Prop where
  places : ∀ thread, (s.point thread).Showing kernelCv (now.place thread)
  wakes : Wakes kernelCv s.cond (waits s now)

omit [DecidableEq Cond] in
theorem waitAt_of_ne (elsewhere : point.isWait = false) (place : Place Cond) :
    waitAt point place = none := by
  cases point with
  | waiting cv => cases elsewhere
  | _ => rfl

theorem waitAt_wake (point : Point Cond) (place : Place Cond) (cv : Option Cond) :
    waitAt point (place.wake cv) = (waitAt point place).map (Wait.wake cv) := by
  cases point <;> cases place <;> rfl

omit [DecidableEq Thread] in
theorem wake_none (wait : Thread → Option (Wait Cond)) :
    (fun other => (wait other).map (Wait.wake none)) = wait := by
  funext other
  cases wait other <;> simp [Wait.wake]

theorem Point.Showing.wake (showing : point.Showing kernelCv place) (cv : Option Cond) :
    point.Showing kernelCv (place.wake cv) := by
  cases point with
  | user | locking | acquired | inside =>
    cases showing
    rfl
  | testing | waitingSem => exact Sections.admitted_wake showing cv
  | leaving exit | posting exit | signalling exit | signalled exit =>
    cases exit with
    | unlock | sleep =>
      cases showing
      rfl
    | wait =>
      obtain ⟨rfl, kernel⟩ := showing
      exact ⟨rfl, kernel⟩
  | waiting =>
    obtain ⟨kernel, timed, woken, rfl⟩ := showing
    exact ⟨kernel, timed, _, rfl⟩

omit [DecidableEq Mutex] in
/-- A thread moves, in the monitor and in the sections. -/
theorem Shows.move (shows : Shows kernelCv s now) {next : Local} {data : Data} {cv : Option Cond}
    (points : t.point = update s.point thread point) (showing : point.Showing kernelCv place)
    (wakes : Wakes kernelCv t.cond
      (update (fun other => (waits s now other).map (Wait.wake cv)) thread (waitAt point place))) :
    Shows kernelCv t (now.move thread next place data cv) := by
  constructor
  · intro other
    rw [points]
    rcases eq_or_ne other thread with rfl | different
    · simpa [Sections.State.move] using showing
    · simpa [Sections.State.move, different] using (shows.places other).wake cv
  · convert wakes using 1
    funext other
    rcases eq_or_ne other thread with rfl | different
    · simp [waits, points, Sections.State.move]
    · simp [waits, points, Sections.State.move, different, waitAt_wake]

omit [DecidableEq Mutex] in
/-- A thread moves in the monitor alone. -/
theorem Shows.stay (shows : Shows kernelCv s now) (points : t.point = update s.point thread point)
    (showing : point.Showing kernelCv (now.place thread))
    (wakes : Wakes kernelCv t.cond
      (update (waits s now) thread (waitAt point (now.place thread)))) :
    Shows kernelCv t now := by
  have moved : Shows kernelCv t
      (now.move thread (now.locals thread) (now.place thread) now.data none) :=
    shows.move points showing (by rwa [wake_none])
  rwa [Sections.State.move_self] at moved

omit [DecidableEq Thread] [DecidableEq Mutex] [DecidableEq Cond] in
theorem Shows.inWait (shows : Shows kernelCv s now) (inv : Inv kernelMutex kernelSemCv s) :
    InWait kernelMutex kernelCv s.cond (waits s now) := by
  intro thread w found
  have showing := shows.places thread
  have fits := inv.fits thread
  unfold waits at found
  cases here : s.point thread with
  | waiting cv =>
    rw [here] at found showing fits
    obtain ⟨kernel, timed, woken, at_place⟩ := showing
    rw [at_place] at found
    cases found
    exact ⟨fits.2, kernel⟩
  | _ =>
    rw [here, waitAt_of_ne rfl] at found
    cases found

omit [DecidableEq Thread] [DecidableEq Mutex] [DecidableEq Cond] in
theorem waits_of_ne (now : Sections.State Thread Data Local Cond)
    (elsewhere : (s.point thread).isWait = false) : waits s now thread = none :=
  waitAt_of_ne elsewhere _

omit [DecidableEq Mutex] in
/-- A thread moves within the monitor, by a section that changes no waits. -/
theorem Shows.pass (shows : Shows kernelCv s now) (points : t.point = update s.point thread point)
    (elsewhere : (s.point thread).isWait = false) (after : point.isWait = false)
    (showing : point.Showing kernelCv (now.place thread))
    (wakes : Wakes kernelCv t.cond (waits s now)) : Shows kernelCv t now := by
  refine shows.stay points showing ?_
  rw [waitAt_of_ne after, ← waits_of_ne now elsewhere, update_eq_self]
  exact wakes

omit [DecidableEq Thread] [DecidableEq Mutex] [DecidableEq Cond] in
/-- Sections that neither signal nor wait. -/
theorem Wakes.same {s t : CondVar.State Thread Mutex Cond} {wait : Thread → Option (Wait Cond)}
    (wakes : Wakes kernelCv s wait) (point : t.point = s.point)
    (readied : t.readiedBy = s.readiedBy) (timed : t.timed = s.timed) : Wakes kernelCv t wait :=
  wakes.frame (fun _ => by rw [point]) (fun _ _ _ => .inl (by rw [readied]))
    (fun _ _ _ still => .inl (timed ▸ still)) fun _ _ _ _ here => point ▸ here

/-- Whoever is back from `cv_wait` has been readied. -/
theorem readied_of_return {s t : CondVar.State Thread Mutex Cond} (inv : CondVar.Inv s) {cv : Cond}
    (inside : WaitsAt kernelMutex cv (s.point thread))
    (moved : CondVar.advance s thread (s.point thread) = some t)
    (returned : t.point thread = .outside) : s.readiedBy thread ≠ none := by
  cases here : s.point thread with
  | relocking m => exact (inv.waiters thread).awake (by rw [here]; rfl) (by rw [here]; rfl)
  | enqueued | released | rechecked =>
    rw [here] at moved
    cases moved
    cases (update_self ..).symm.trans returned
  | asleep =>
    rw [here, CondVar.advance, Option.ite_none_right_eq_some] at moved
    cases moved.2
    cases (update_self ..).symm.trans returned
  | _ =>
    rw [here] at inside
    exact inside.elim

/-- What a label of the monitor comes to. -/
def Follows (code : Local → Input → Instr Data Local Mutex Cond) (kernelCv : Cond → Bool)
    (t : State Thread Mutex Cond) (now : Sections.State Thread Data Local Cond) : Prop :=
  ∃ after, ReflTransGen (Move code) now after ∧ Shows kernelCv t after ∧ after.data = now.data ∧
    after.locals = now.locals

omit [DecidableEq Mutex] in
theorem Follows.stay (shows : Shows kernelCv t now) : Follows code kernelCv t now :=
  ⟨now, .refl, shows, rfl, rfl⟩

theorem Shows.advance (shows : Shows kernelCv s now) (inv : Inv kernelMutex kernelSemCv s)
    (elsewhere : (s.point thread).isWait = false) (after : point.isWait = false)
    (acted : CondVar.act s.cond thread .advance = some cond)
    (showing : point.Showing kernelCv (now.place thread)) :
    Shows kernelCv ({ s with cond := cond }.move thread point) now := by
  refine shows.pass rfl elsewhere after showing ?_
  have kept := (shows.wakes.advance inv.cond (shows.inWait inv) acted).1
  rwa [← waits_of_ne now elsewhere, update_eq_self] at kept

/-- A thread in a `kernel_wait` goes on. -/
theorem Shows.wait (shows : Shows kernelCv s now) (inv : Inv kernelMutex kernelSemCv s) {cv : Cond}
    (here : s.point thread = .waiting cv) (acted : CondVar.act s.cond thread .advance = some cond) :
    Shows kernelCv ({ s with cond := cond }.move thread
      (if cond.point thread = CondVar.Point.outside then .testing else .waiting cv)) now := by
  have showing := shows.places thread
  have kept := shows.wakes.advance inv.cond (shows.inWait inv) acted
  rw [here] at showing
  obtain ⟨kernel, timed, woken, at_place⟩ := showing
  have found : waits s now thread = some ⟨cv, timed, woken⟩ := by
    rw [waits, here, at_place]
    rfl
  refine shows.stay rfl ?_ ?_
  · split
    next returned =>
      change Admitted _
      rw [at_place]
      refine .again ?_
      have inside := (shows.inWait inv thread _ found).1
      rcases readier : s.cond.readiedBy thread with _ | _ | _
      · exact absurd readier (readied_of_return inv.cond inside acted returned)
      · exact .inl (shows.wakes.signalled thread _ found readier)
      · exact .inr (shows.wakes.timeout thread _ found readier)
    · exact ⟨kernel, timed, woken, at_place⟩
  · split
    · exact kept.1
    next staying =>
      have same : waitAt (.waiting cv) (now.place thread) = waits s now thread := by
        rw [waits, here]
      rw [same, update_eq_self]
      exact kept.2 staying

/-- The end of a `kernel_wait`'s way into `cv_wait` is the end of the section. -/
theorem Shows.begin (shows : Shows kernelCv s now) {cv : Cond}
    {timed : Bool} (here : s.point thread = .signalled (.wait cv timed))
    (acted : CondVar.act s.cond thread (.condWait kernelMutex cv timed) = some cond)
    (after : CondVar.Inv cond) :
    Follows code kernelCv ({ s with cond := cond }.move thread (.waiting cv)) now := by
  have showing := shows.places thread
  rw [here] at showing
  obtain ⟨at_place, kernel⟩ := showing
  rw [CondVar.act, Option.ite_none_right_eq_some] at acted
  obtain ⟨⟨outside, -⟩, same⟩ := acted
  cases same
  have idle : waits s now thread = none := waits_of_ne now (here ▸ rfl)
  have leaves : Leaves code (now.locals thread) (now.place thread) (now.locals thread)
      (.waiting cv timed false) := at_place ▸ .wait
  refine ⟨_, .single (.leave leaves), ?_, rfl, update_eq_self ..⟩
  refine shows.move rfl ⟨kernel, timed, false, rfl⟩ ?_
  rw [wake_none]
  exact (shows.wakes.enqueue outside idle ..).begin after (update_self ..)

section Run
variable {action : Action Mutex Cond} (shows : Shows kernelCv s now)
  (acted : CondVar.act s.cond thread action = some cond)
  (follows : next kernelMutex kernelSemCv s.kernelSem (cond.point thread = .outside)
    (s.point thread) action = some point)
include shows acted follows

/-- `kernel_lock` takes the mutex. -/
theorem Shows.run_locking (here : s.point thread = .locking) :
    Follows code kernelCv ({ s with cond := cond }.move thread point) now := by
  have elsewhere : (s.point thread).isWait = false := by rw [here]; rfl
  have showing := shows.places thread
  rw [here] at follows showing
  simp only [next, Option.ite_none_right_eq_some, Option.some.injEq] at follows
  obtain ⟨rfl, rfl⟩ := follows
  rw [CondVar.act, Option.ite_none_right_eq_some] at acted
  cases acted.2
  refine Follows.stay (shows.pass rfl elsewhere rfl ?_ (shows.wakes.same rfl rfl rfl))
  exact showing ▸ .first

/-- The semaphore is taken, so the thread begins to wait for it. -/
theorem Shows.run_testing (here : s.point thread = .testing) :
    Follows code kernelCv ({ s with cond := cond }.move thread point) now := by
  have elsewhere : (s.point thread).isWait = false := by rw [here]; rfl
  have showing := shows.places thread
  rw [here] at follows showing
  simp only [next, Option.ite_none_right_eq_some, Option.some.injEq] at follows
  obtain ⟨⟨-, rfl⟩, rfl⟩ := follows
  rw [CondVar.act, Option.ite_none_right_eq_some] at acted
  cases acted.2
  have idle : waits s now thread = none := waits_of_ne now (here ▸ rfl)
  exact Follows.stay (shows.pass rfl elsewhere rfl showing (shows.wakes.enqueue acted.1.1 idle ..))

/-- The mutex is given back, with the semaphore taken or before it is posted. -/
theorem Shows.run_unlocking
    (here : s.point thread = .acquired ∨ ∃ exit, s.point thread = .leaving exit) :
    Follows code kernelCv ({ s with cond := cond }.move thread point) now := by
  have showing := shows.places thread
  rcases here with here | ⟨exit, here⟩
  all_goals
    have elsewhere : (s.point thread).isWait = false := by rw [here]; rfl
    rw [here] at follows showing
    simp only [next, Option.ite_none_right_eq_some, Option.some.injEq] at follows
    obtain ⟨rfl, rfl⟩ := follows
    rw [CondVar.act, Option.ite_none_right_eq_some] at acted
    cases acted.2
    exact Follows.stay (shows.pass rfl elsewhere rfl showing (shows.wakes.same rfl rfl rfl))

/-- After the post the thread unlocks, begins its `kernel_wait`, or sleeps. -/
theorem Shows.run_signalled (after : CondVar.Inv cond) {exit : Exit Cond}
    (here : s.point thread = .signalled exit) :
    Follows code kernelCv ({ s with cond := cond }.move thread point) now := by
  have elsewhere : (s.point thread).isWait = false := by rw [here]; rfl
  have showing := shows.places thread
  rw [here] at follows showing
  cases exit with
  | unlock =>
    simp only [next, Option.ite_none_right_eq_some, Option.some.injEq] at follows
    obtain ⟨rfl, rfl⟩ := follows
    rw [CondVar.act, Option.ite_none_right_eq_some] at acted
    cases acted.2
    exact Follows.stay (shows.pass rfl elsewhere rfl showing (shows.wakes.same rfl rfl rfl))
  | wait cv timed =>
    simp only [next, Option.ite_none_right_eq_some, Option.some.injEq] at follows
    obtain ⟨rfl, rfl⟩ := follows
    exact shows.begin here acted after
  | sleep newstate =>
    simp only [next, Option.ite_none_right_eq_some, Option.some.injEq] at follows
    obtain ⟨rfl, rfl⟩ := follows
    rw [CondVar.act, Option.ite_none_right_eq_some] at acted
    cases acted.2
    exact Follows.stay (shows.pass rfl elsewhere rfl showing (shows.wakes.same rfl rfl rfl))

variable (inv : Inv kernelMutex kernelSemCv s)
include inv

/-- The thread waits for the semaphore, and is back or not. -/
theorem Shows.run_waitingSem (here : s.point thread = .waitingSem) :
    Follows code kernelCv ({ s with cond := cond }.move thread point) now := by
  have elsewhere : (s.point thread).isWait = false := by rw [here]; rfl
  have showing := shows.places thread
  rw [here] at follows showing
  cases action <;> simp only [next, reduceCtorEq] at follows
  split at follows <;> cases follows
  · exact Follows.stay (shows.advance inv elsewhere rfl acted showing)
  · exact Follows.stay (shows.advance inv elsewhere rfl acted showing)

/-- The signal for the semaphore wakes nobody who waits for the kernel's data. -/
theorem Shows.run_signalling (own : kernelCv kernelSemCv = false) {exit : Exit Cond}
    (here : s.point thread = .signalling exit) :
    Follows code kernelCv ({ s with cond := cond }.move thread point) now := by
  have elsewhere : (s.point thread).isWait = false := by rw [here]; rfl
  have showing := shows.places thread
  rw [here] at follows showing
  cases action <;> simp only [next, reduceCtorEq] at follows
  case condSignal cv broadcast =>
    simp only [Option.ite_none_right_eq_some, Option.some.injEq] at follows
    obtain ⟨⟨rfl, rfl⟩, rfl⟩ := follows
    rw [CondVar.act, Option.ite_none_right_eq_some] at acted
    obtain ⟨⟨outside, free⟩, same⟩ := acted
    cases same
    have never : kernelCv cv = true → false = true := by simp [own]
    have woken := shows.wakes.lockRing inv.cond (shows.inWait inv) outside free never
    rw [(shows.inWait inv).apart own] at woken
    exact Follows.stay (shows.pass rfl elsewhere rfl showing woken)
  case advance =>
    split at follows <;> cases follows
    · exact Follows.stay (shows.advance inv elsewhere rfl acted showing)
    · exact Follows.stay (shows.advance inv elsewhere rfl acted showing)

theorem Shows.run_waiting {cv : Cond} (here : s.point thread = .waiting cv) :
    Follows code kernelCv ({ s with cond := cond }.move thread point) now := by
  rw [here] at follows
  cases action <;> simp only [next, reduceCtorEq] at follows
  have moved := shows.wait inv here acted
  split at follows <;> cases follows
  next returned =>
    rw [if_pos (of_decide_eq_true returned)] at moved
    exact Follows.stay moved
  next staying =>
    rw [if_neg (of_decide_eq_false (Bool.eq_false_iff.mpr staying))] at moved
    exact Follows.stay moved

/-- The monitor's own sections. -/
theorem Shows.run (own : kernelCv kernelSemCv = false)
    (monitors : action = .advance ∨ s.ownCode thread = false) (after : CondVar.Inv cond) :
    Follows code kernelCv ({ s with cond := cond }.move thread point) now := by
  have showing := shows.places thread
  cases here : s.point thread with
  | user | inside =>
    have elsewhere : (s.point thread).isWait = false := by rw [here]; rfl
    obtain rfl : action = .advance := by simpa [State.ownCode, here] using monitors
    rw [here] at follows showing
    cases follows
    exact Follows.stay (shows.advance inv elsewhere rfl acted showing)
  | locking => exact shows.run_locking acted follows here
  | testing => exact shows.run_testing acted follows here
  | waitingSem => exact shows.run_waitingSem acted follows inv here
  | acquired => exact shows.run_unlocking acted follows (.inl here)
  | leaving exit => exact shows.run_unlocking acted follows (.inr ⟨exit, here⟩)
  | posting exit => simp [here, next] at follows
  | signalling exit => exact shows.run_signalling acted follows inv own here
  | signalled exit => exact shows.run_signalled acted follows after here
  | waiting cv => exact shows.run_waiting acted follows inv here

end Run

omit [DecidableEq Thread] [DecidableEq Mutex] [DecidableEq Cond] in
/-- A step that leaves everybody where they are. -/
theorem Shows.still (shows : Shows kernelCv s now) (point : t.point = s.point)
    (wakes : Wakes kernelCv t.cond (waits s now)) : Shows kernelCv t now := by
  refine ⟨fun thread => point ▸ shows.places thread, ?_⟩
  have same : waits t now = waits s now := by
    funext thread
    rw [waits, waits, point]
  rwa [same]

/-- The scheduler readies nobody but those whose time is up. -/
theorem Shows.schedule (shows : Shows kernelCv s now) {label : CondVar.Label Thread Mutex Cond}
    (scheduled : ∀ thread action, label ≠ .run thread action)
    (moved : schedule s label = some t) : Shows kernelCv t now := by
  obtain ⟨cond, stepped, rfl⟩ := Option.map_eq_some_iff.mp moved
  refine shows.still rfl ?_
  cases label with
  | run thread action => exact absurd rfl (scheduled thread action)
  | expire thread =>
    rw [CondVar.step, Option.ite_none_right_eq_some] at stepped
    obtain ⟨timed, same⟩ := stepped
    cases same
    refine shows.wakes.frame (fun _ => rfl) (fun other w found => ?_) (fun other w _ still => ?_)
      fun _ _ _ _ here => here
    · rcases eq_or_ne other thread with rfl | different
      · exact .inr (.inr ⟨update_self .., shows.wakes.timer other w found timed⟩)
      · exact .inl (update_of_ne different ..)
    · rcases eq_or_ne other thread with rfl | different
      · exact .inl timed
      · simp only [CondVar.schedMakeReady, update_of_ne different] at still
        exact .inl still
  | wakeup | dispatch | preempt =>
    rw [CondVar.step, Option.ite_none_right_eq_some] at stepped
    cases stepped.2
    exact shows.wakes.same rfl rfl rfl

omit [DecidableEq Thread] [DecidableEq Mutex] [DecidableEq Cond] in
/-- Who finds `kernel_sem` positive finds nobody in a section. -/
theorem Shows.nobody (shows : Shows kernelCv s now) (inv : Inv kernelMutex kernelSemCv s)
    (here : s.point thread = .testing) (free : 0 < s.kernelSem) (other : Thread) :
    (now.place other).within = false := by
  have showing := shows.places other
  have outside : (s.point other).inKernel = false := by
    rcases inv.counted with ⟨-, nobody⟩ | ⟨taken, -⟩
    · exact nobody other
    · omega
  have only : holdsMutex (s.point other) (s.cond.point other) = true →
      s.point other = .testing := by
    intro holds
    have mine := (inv.held thread).mpr (by rw [here]; rfl)
    cases mine.symm.trans ((inv.held other).mpr holds)
    exact here
  cases there : s.point other with
  | user | locking =>
    rw [there] at showing
    rw [show now.place other = _ from showing]
    rfl
  | testing | waitingSem =>
    rw [there] at showing
    exact Admitted.within showing
  | acquired | inside | leaving | posting =>
    rw [there] at outside
    cases outside
  | signalling | signalled =>
    cases there.symm.trans (only (by rw [there]; rfl))
  | waiting =>
    rw [there] at showing
    obtain ⟨-, timed, woken, at_place⟩ := showing
    rw [at_place]
    rfl

/-- What user code does with its own mutexes and condition variables. -/
theorem Wakes.user {s t : CondVar.State Thread Mutex Cond} {wait : Thread → Option (Wait Cond)}
    (wakes : Wakes kernelCv s wait) (inv : CondVar.Inv s)
    (inWait : InWait kernelMutex kernelCv s wait) (idle : wait thread = none)
    {action : Action Mutex Cond} (users : userAction kernelCv action = true)
    (acted : CondVar.act s thread action = some t) : Wakes kernelCv t wait := by
  cases action with
  | advance =>
    have kept := (wakes.advance inv inWait acted).1
    rwa [← idle, update_eq_self] at kept
  | mutexLock | mutexUnlock | sleep =>
    rw [CondVar.act, Option.ite_none_right_eq_some] at acted
    cases acted.2
    exact wakes.same rfl rfl rfl
  | condWait =>
    rw [CondVar.act, Option.ite_none_right_eq_some] at acted
    cases acted.2
    exact wakes.enqueue acted.1.1 idle ..
  | condSignal cv broadcast =>
    have apart : kernelCv cv = false := by simpa [userAction] using users
    rw [CondVar.act, Option.ite_none_right_eq_some] at acted
    obtain ⟨⟨outside, free⟩, same⟩ := acted
    cases same
    have never : kernelCv cv = true → broadcast = true := by simp [apart]
    have woken := wakes.lockRing inv inWait outside free never
    rwa [inWait.apart apart] at woken

end Shows

section Shared
variable {s t : Shared Thread Mutex Cond Data Local}
  {now : Sections.State Thread Data Local Cond} {thread : Thread}

/-- What a state of the machine shows of the sections: the data and what is
private to each thread are the same, and everybody is where the monitor has
them. -/
structure Reflects (kernelCv : Cond → Bool) (s : Shared Thread Mutex Cond Data Local)
    (now : Sections.State Thread Data Local Cond) : Prop where
  shows : Shows kernelCv s.monitor now
  data : now.data = s.data
  locals : now.locals = s.locals

/-- A section of the code of a thread itself. -/
theorem step_run {m n : State Thread Mutex Cond} {action : Action Mutex Cond}
    (moved : step kernelMutex kernelSemCv m (.run thread action) = some n) :
    ∃ cond point, CondVar.act m.cond thread action = some cond ∧
      CondVar.step m.cond (.run thread action) = some cond ∧
      next kernelMutex kernelSemCv m.kernelSem (cond.point thread = .outside) (m.point thread)
        action = some point ∧ n = { m with cond := cond }.move thread point := by
  simp only [step] at moved
  split at moved
  · cases moved
  next cond acted =>
    split at moved
    · cases moved
    next point follows =>
      cases moved
      exact ⟨cond, point, (Option.ite_none_right_eq_some.mp acted).2, acted, follows, rfl⟩

theorem step_own {m n : State Thread Mutex Cond} {action : Action Mutex Cond}
    (own : m.ownCode thread = true)
    (moved : step kernelMutex kernelSemCv m (.run thread action) = some n) :
    CondVar.act m.cond thread action = some n.cond ∧ n.point = m.point := by
  obtain ⟨cond, point, acted, -, follows, rfl⟩ := step_run moved
  refine ⟨acted, ?_⟩
  have here : m.point thread = .user ∨ m.point thread = .inside := of_decide_eq_true own
  have same : point = m.point thread := by
    rcases here with here | here <;> rw [here] at follows ⊢ <;>
      simp only [next, Option.ite_none_right_eq_some, Option.some.injEq] at follows <;>
      exact follows.2.symm
  rw [same]
  exact update_eq_self ..

omit [DecidableEq Mutex] in
/-- The code of a thread goes on where it is. -/
theorem Reflects.goes (reflects : Reflects kernelCv s now) {next : Local} {cv : Option Cond}
    {monitor : State Thread Mutex Cond} (own : s.monitor.ownCode thread = true)
    (points : monitor.point = s.monitor.point)
    (wakes : Wakes kernelCv monitor.cond
      fun other => (waits s.monitor now other).map (Wait.wake cv))
    (outer : Outer code (now.locals thread) next .outside cv)
    (inner : Inner code (now.locals thread) now.data next .inside now.data cv) :
    ∃ after, ReflTransGen (Move code) now after ∧
      Reflects kernelCv
        { s with monitor := monitor, locals := update s.locals thread next } after := by
  have here : s.monitor.point thread = .user ∨ s.monitor.point thread = .inside :=
    of_decide_eq_true own
  have showing := reflects.shows.places thread
  have idle : waits s.monitor now thread = none :=
    waits_of_ne now (by rcases here with here | here <;> rw [here] <;> rfl)
  have moved {place : Place Cond} (there : (s.monitor.point thread).Showing kernelCv place)
      (none : waitAt (s.monitor.point thread) place = none) :
      Reflects kernelCv { s with monitor := monitor, locals := update s.locals thread next }
        (now.move thread next place now.data cv) := by
    refine ⟨reflects.shows.move (by rw [points, update_eq_self]) there ?_, reflects.data, ?_⟩
    · have same : (fun other => (waits s.monitor now other).map (Wait.wake cv)) thread = .none := by
        simp [idle]
      rwa [none, ← same, update_eq_self]
    · exact congrArg (fun locals => update locals thread next) reflects.locals
  rcases here with here | here
  · rw [here] at showing
    exact ⟨_, .single (.outer (.mk showing outer)), moved (by rw [here]; rfl) (by rw [here]; rfl)⟩
  · rw [here] at showing
    exact ⟨_, .single (.inner (.mk showing inner)), moved (by rw [here]; rfl) (by rw [here]; rfl)⟩

omit [DecidableEq Mutex] [DecidableEq Cond] in
theorem enters_eq {next : Local} {monitor : Option (State Thread Mutex Cond)}
    (moved : s.enters thread next monitor = some t) : ∃ m, monitor = some m ∧
      t = { s with monitor := m, locals := update s.locals thread next } := by
  obtain ⟨m, some_m, rfl⟩ := Option.map_eq_some_iff.mp moved
  exact ⟨m, some_m, rfl⟩

omit [DecidableEq Mutex] in
/-- The code of a thread calls the monitor. -/
theorem Reflects.calls (reflects : Reflects kernelCv s now) {next : Local} {data changed : Data}
    {point : Point Cond} {place : Place Cond} (elsewhere : (s.monitor.point thread).isWait = false)
    (after : point.isWait = false) (showing : point.Showing kernelCv place)
    (same : changed = data) :
    Reflects kernelCv
      { monitor := s.monitor.move thread point, data := data
        locals := update s.locals thread next }
      (now.move thread next place changed none) := by
  refine ⟨reflects.shows.move rfl showing ?_, same, ?_⟩
  swap
  · exact congrArg (fun locals => update locals thread next) reflects.locals
  rw [wake_none, waitAt_of_ne after, ← waits_of_ne now elsewhere, update_eq_self]
  exact reflects.shows.wakes

/-- A step of the code of a thread. -/
theorem Reflects.coded (reflects : Reflects kernelCv s now)
    (inv : Inv kernelMutex kernelSemCv s.monitor) {input : Input}
    (moved : sharedStep kernelMutex kernelSemCv kernelCv code s (.code thread input) = some t) :
    ∃ after, ReflTransGen (Move code) now after ∧ Reflects kernelCv t after := by
  have inWait := reflects.shows.inWait inv
  have showing := reflects.shows.places thread
  have idle (own : s.monitor.ownCode thread = true) : waits s.monitor now thread = none := by
    refine waits_of_ne now ?_
    rcases of_decide_eq_true own with here | here <;> rw [here] <;> rfl
  rw [sharedStep] at moved
  rw [← reflects.locals] at moved
  split at moved
  next next named =>
    rw [Option.ite_none_right_eq_some] at moved
    obtain ⟨⟨-, own⟩, moved⟩ := moved
    obtain ⟨m, same, rfl⟩ := enters_eq moved
    cases same
    refine reflects.goes own rfl ?_ (.own named) (.own named)
    rw [wake_none]
    exact reflects.shows.wakes
  next action next named =>
    rw [Option.ite_none_right_eq_some] at moved
    obtain ⟨⟨own, users⟩, moved⟩ := moved
    obtain ⟨m, stepped, rfl⟩ := enters_eq moved
    obtain ⟨acted, points⟩ := step_own own stepped
    refine reflects.goes own points ?_ (.own named) (.own named)
    rw [wake_none]
    exact reflects.shows.wakes.user inv.cond inWait (idle own) users acted
  next next named =>
    obtain ⟨m, stepped, rfl⟩ := enters_eq moved
    simp only [step, Option.ite_none_right_eq_some, Option.some.injEq] at stepped
    obtain ⟨⟨-, here⟩, rfl⟩ := stepped
    rw [here] at showing
    exact ⟨_, .single (.outer (.mk showing (.enter named))),
      reflects.calls (by rw [here]; rfl) rfl rfl reflects.data⟩
  next run named =>
    rw [Option.ite_none_right_eq_some] at moved
    obtain ⟨⟨-, here⟩, moved⟩ := moved
    obtain ⟨_, entered, rfl⟩ := Option.map_eq_some_iff.mp moved
    obtain ⟨m, same, rfl⟩ := enters_eq entered
    cases same
    rw [here] at showing
    have still : s.monitor.move thread .inside = s.monitor := by
      rw [State.move, ← here, update_eq_self]
    refine ⟨_, .single (.inner (.mk showing (.access named))), ?_⟩
    rw [reflects.data, ← still]
    exact reflects.calls (by rw [here]; rfl) rfl rfl rfl
  next cv next named =>
    rw [Option.ite_none_right_eq_some] at moved
    obtain ⟨own, moved⟩ := moved
    obtain ⟨m, stepped, rfl⟩ := enters_eq moved
    obtain ⟨acted, points⟩ := step_own own stepped
    refine reflects.goes own points ?_ (.broadcast named) (.broadcast named)
    rw [CondVar.act, Option.ite_none_right_eq_some, Option.some.injEq] at acted
    rw [← acted.2]
    exact reflects.shows.wakes.lockRing inv.cond inWait acted.1.1 acted.1.2 fun _ => rfl
  next how next named =>
    obtain ⟨m, stepped, rfl⟩ := enters_eq moved
    simp only [step, Option.ite_none_right_eq_some, Option.some.injEq] at stepped
    obtain ⟨⟨-, here, -⟩, rfl⟩ := stepped
    rw [here] at showing
    have leaves : Leaves code (now.locals thread) (now.place thread) next .outside := by
      rw [show now.place thread = _ from showing]
      exact .leave named
    exact ⟨_, .single (.leave leaves),
      reflects.calls (by rw [here]; rfl) rfl (by cases how <;> rfl) reflects.data⟩
  next cv timed next named =>
    rw [Option.ite_none_right_eq_some] at moved
    obtain ⟨kernel, moved⟩ := moved
    obtain ⟨m, stepped, rfl⟩ := enters_eq moved
    simp only [step, Option.ite_none_right_eq_some, Option.some.injEq] at stepped
    obtain ⟨⟨-, here, -⟩, rfl⟩ := stepped
    rw [here] at showing
    exact ⟨_, .single (.inner (.mk showing (.wait named))),
      reflects.calls (by rw [here]; rfl) rfl ⟨rfl, kernel⟩ reflects.data⟩

omit [DecidableEq Mutex] in
theorem Reflects.of_shows (reflects : Reflects kernelCv s now) {m : State Thread Mutex Cond}
    (shows : Shows kernelCv m now) : ∃ after, ReflTransGen (Move code) now after ∧
      Reflects kernelCv { s with monitor := m } after :=
  ⟨now, .refl, shows, reflects.data, reflects.locals⟩

/-- A step of the monitor or of the scheduler. -/
theorem Reflects.monitored (reflects : Reflects kernelCv s now)
    (inv : Inv kernelMutex kernelSemCv s.monitor) (own : kernelCv kernelSemCv = false)
    {label : Label Thread Mutex Cond} (monitors : s.monitor.ofMonitor label = true)
    {m : State Thread Mutex Cond} (moved : step kernelMutex kernelSemCv s.monitor label = some m) :
    ∃ after, ReflTransGen (Move code) now after ∧
      Reflects kernelCv { s with monitor := m } after := by
  have shows := reflects.shows
  cases label with
  | run thread action =>
    obtain ⟨cond, point, acted, stepped, follows, rfl⟩ := step_run moved
    obtain ⟨after, moves, shows, data, locals⟩ : Follows code kernelCv _ now :=
      shows.run acted follows inv own (of_decide_eq_true monitors)
        (CondVar.step_inv inv.cond _ stepped)
    exact ⟨after, moves, shows, data.trans reflects.data, locals.trans reflects.locals⟩
  | kernelLock | kernelExit => cases monitors
  | semDown thread =>
    simp only [step, Option.ite_none_right_eq_some, Option.some.injEq] at moved
    obtain ⟨⟨-, here, free⟩, rfl⟩ := moved
    have admitted := shows.places thread
    rw [here] at admitted
    refine ⟨now.letIn thread, .single (.letIn admitted (shows.nobody inv here free)), ?_,
      reflects.data, (update_eq_self ..).trans reflects.locals⟩
    refine shows.move rfl rfl ?_
    rw [wake_none, waitAt_of_ne rfl, ← waits_of_ne now (by rw [here]; rfl), update_eq_self]
    exact shows.wakes
  | semUp thread =>
    cases here : s.monitor.point thread <;> simp only [step, here, reduceCtorEq] at moved
    case posting exit =>
      simp only [Option.ite_none_right_eq_some, Option.some.injEq] at moved
      obtain ⟨-, rfl⟩ := moved
      have showing := shows.places thread
      rw [here] at showing
      exact reflects.of_shows (shows.pass rfl (by rw [here]; rfl) rfl showing shows.wakes)
  | wakeup => exact reflects.of_shows (shows.schedule (by simp) moved)
  | dispatch => exact reflects.of_shows (shows.schedule (by simp) moved)
  | preempt => exact reflects.of_shows (shows.schedule (by simp) moved)
  | expire => exact reflects.of_shows (shows.schedule (by simp) moved)

/-- The monitor takes a step of its own machine, or none. -/
theorem shared_monitor {label : SharedLabel Thread Mutex Cond Input}
    (moved : sharedStep kernelMutex kernelSemCv kernelCv code s label = some t) :
    t.monitor = s.monitor ∨
      ∃ label, step kernelMutex kernelSemCv s.monitor label = some t.monitor := by
  have entered {thread : Thread} {next : Local} {label : Label Thread Mutex Cond}
      (entered : s.enters thread next (step kernelMutex kernelSemCv s.monitor label) = some t) :
      t.monitor = s.monitor ∨
        ∃ label, step kernelMutex kernelSemCv s.monitor label = some t.monitor := by
    obtain ⟨m, stepped, rfl⟩ := enters_eq entered
    exact .inr ⟨label, stepped⟩
  cases label with
  | code thread input =>
    rw [sharedStep] at moved
    split at moved
    next =>
      obtain ⟨m, same, rfl⟩ := enters_eq (Option.ite_none_right_eq_some.mp moved).2
      cases same
      exact .inl rfl
    next => exact entered (Option.ite_none_right_eq_some.mp moved).2
    next => exact entered moved
    next =>
      obtain ⟨_, before, rfl⟩ :=
        Option.map_eq_some_iff.mp (Option.ite_none_right_eq_some.mp moved).2
      obtain ⟨m, same, rfl⟩ := enters_eq before
      cases same
      exact .inl rfl
    next => exact entered (Option.ite_none_right_eq_some.mp moved).2
    next => exact entered moved
    next => exact entered (Option.ite_none_right_eq_some.mp moved).2
  | monitor label =>
    rw [sharedStep, Option.ite_none_right_eq_some] at moved
    obtain ⟨m, stepped, rfl⟩ := Option.map_eq_some_iff.mp moved.2
    exact .inr ⟨label, stepped⟩

/-- What the machine and its moves have come to. -/
structure Moved (kernelMutex : Mutex) (kernelSemCv : Cond) (kernelCv : Cond → Bool)
    (code : Local → Input → Instr Data Local Mutex Cond)
    (start now : Sections.State Thread Data Local Cond)
    (s : Shared Thread Mutex Cond Data Local) : Prop where
  inv : Inv kernelMutex kernelSemCv s.monitor
  moves : ReflTransGen (Move code) start now
  reflects : Reflects kernelCv s now

theorem Moved.step {start : Sections.State Thread Data Local Cond}
    (moved : Moved kernelMutex kernelSemCv kernelCv code start now s)
    (own : kernelCv kernelSemCv = false) {label : SharedLabel Thread Mutex Cond Input}
    (stepped : sharedStep kernelMutex kernelSemCv kernelCv code s label = some t) :
    ∃ after, Moved kernelMutex kernelSemCv kernelCv code start after t := by
  obtain ⟨inv, moves, reflects⟩ := moved
  have kept : Inv kernelMutex kernelSemCv t.monitor := by
    rcases shared_monitor stepped with same | ⟨label, moved⟩
    · exact same ▸ inv
    · exact step_inv inv label moved
  cases label with
  | code thread input =>
    obtain ⟨after, more, reflects⟩ := reflects.coded inv stepped
    exact ⟨after, kept, moves.trans more, reflects⟩
  | monitor label =>
    rw [sharedStep, Option.ite_none_right_eq_some] at stepped
    obtain ⟨m, stepped', rfl⟩ := Option.map_eq_some_iff.mp stepped.2
    obtain ⟨after, more, reflects⟩ : ∃ after, ReflTransGen (Move code) now after ∧ _ :=
      reflects.monitored inv own stepped.1 stepped'
    exact ⟨after, kept, moves.trans more, reflects⟩

omit [DecidableEq Thread] [DecidableEq Mutex] [DecidableEq Cond] in
theorem wakes_boot (threadState : Thread → ThreadState) (stack : Thread → CondVar.Waiter) :
    Wakes kernelCv (CondVar.boot threadState stack : CondVar.State Thread Mutex Cond)
      fun _ => none where
  signalled := nofun
  timeout := nofun
  timer := nofun
  armed := nofun
  found := nofun
  missed := nofun

omit [DecidableEq Mutex] in
theorem moved_boot (threadState : Thread → ThreadState) (stack : Thread → CondVar.Waiter)
    (data : Data) (locals : Thread → Local) :
    Moved kernelMutex kernelSemCv kernelCv code ⟨data, locals, fun _ => .outside⟩
      ⟨data, locals, fun _ => .outside⟩
      { monitor := boot threadState stack, data := data, locals := locals } :=
  ⟨boot_inv .., .refl, ⟨fun _ => rfl, wakes_boot ..⟩, rfl, rfl⟩

/-- What a state of the machine comes to: whole sections up to `before`, and
from there to `now` the section under way. -/
structure Atomic (kernelCv : Cond → Bool) (code : Local → Input → Instr Data Local Mutex Cond)
    (start before now : Sections.State Thread Data Local Cond)
    (s : Shared Thread Mutex Cond Data Local) : Prop where
  sections : ReflTransGen (Sections.Step code) start before
  held : Sections.Held code before now
  data : now.data = s.data
  locals : now.locals = s.locals
  places : ∀ thread, (s.monitor.point thread).Showing kernelCv (now.place thread)
  /-- Whom a broadcast has woken, no longer sleeps when it is over. -/
  sleeps : ∀ thread cv, s.monitor.point thread = .waiting cv →
    s.monitor.cond.threadState thread = .stopped →
      (∀ caller call, (s.monitor.cond.point caller).call = some call → call.cv ≠ cv) →
        ∃ timed, now.place thread = .waiting cv timed false

omit [DecidableEq Mutex] in
theorem Moved.atomic {start : Sections.State Thread Data Local Cond}
    (moved : Moved kernelMutex kernelSemCv kernelCv code start now s)
    (nobody : ∀ thread, (start.place thread).within = false) :
    ∃ before, Atomic kernelCv code start before now s := by
  obtain ⟨inv, moves, shows, data, locals⟩ := moved
  obtain ⟨before, sections, held⟩ := Sections.held_of_moves nobody moves
  refine ⟨before, sections, held, data, locals, shows.places, ?_⟩
  intro thread cv here stopped quiet
  have showing := shows.places thread
  rw [here] at showing
  obtain ⟨-, timed, woken, at_place⟩ := showing
  have found : waits s.monitor now thread = some ⟨cv, timed, woken⟩ := by
    rw [waits, here, at_place]
    rfl
  cases woken with
  | false => exact ⟨timed, at_place⟩
  | true =>
    rcases shows.wakes.missed thread _ found rfl with readied | ⟨caller, ring, seeks, -⟩
    · obtain ⟨readier, readied⟩ := Option.ne_none_iff_exists'.mp readied
      rcases inv.readied_awake readied with awake | awake <;> cases stopped.symm.trans awake
    · obtain ⟨call, at_call, same, -⟩ := sought_of_call seeks
      exact absurd same (quiet caller call at_call)

/-- **The sections of kernel code are atomic.** However the threads interleave
on any number of cores, and whatever interrupts broadcast meanwhile, the data of
the kernel are what whole sections have made of them, one after the other, and
the one section under way; and a thread goes on after a `kernel_wait` only once
it has been broadcast to, or because its wait has a timeout. -/
theorem sections_atomic (own : kernelCv kernelSemCv = false) {data : Data} {locals : Thread → Local}
    (reached : (sharedMachine kernelMutex kernelSemCv kernelCv code data locals).Reachable s) :
    ∃ before now, Atomic kernelCv code ⟨data, locals, fun _ => .outside⟩ before now s := by
  obtain ⟨now, moved⟩ : ∃ now, Moved kernelMutex kernelSemCv kernelCv code
      ⟨data, locals, fun _ => .outside⟩ now s := by
    refine reached.induction (P := fun s => ∃ now, Moved kernelMutex kernelSemCv kernelCv code
      ⟨data, locals, fun _ => .outside⟩ now s) ?_ fun s label t before stepped => ?_
    · rintro _ ⟨threadState, stack, rfl⟩
      exact ⟨_, moved_boot ..⟩
    · obtain ⟨now, moved⟩ := before
      exact moved.step own stepped
  obtain ⟨before, atomic⟩ := moved.atomic fun _ => rfl
  exact ⟨before, now, atomic⟩

/-- Thread 0 adds 1, waits, and multiplies by 10; thread 1 adds 2 and broadcasts. -/
def waitsForTwo : Nat → Unit → Instr Nat Nat Unit Bool
  | 0, _ => .enter 1
  | 1, _ => .access fun d => (2, d + 1)
  | 2, _ => .wait true false 3
  | 3, _ => .access fun d => (4, d * 10)
  | 10, _ => .enter 11
  | 11, _ => .access fun d => (12, d + 2)
  | 12, _ => .broadcast true 13
  | 13, _ => .leave none 14
  | l, _ => .own none l

theorem sections_atomic_two : ∃ s : Shared (Fin 2) Unit Bool Nat Nat, s.data = 30 ∧
    s.monitor.point 0 = .inside ∧ ∃ before now, Atomic id waitsForTwo
      ⟨0, fun thread : Fin 2 => 10 * thread, fun _ => .outside⟩ before now s := by
  have reached := Machine.Reachable.replay
    (M := sharedMachine () false id waitsForTwo 0 fun thread : Fin 2 => 10 * thread)
    (.start ⟨fun _ => .running, fun _ => ⟨false, false⟩, rfl⟩)
    [.code 0 (), .monitor (.run 0 (.mutexLock ())), .monitor (.semDown 0),
      .monitor (.run 0 (.mutexUnlock ())), .code 0 (), .code 0 (),
      .monitor (.run 0 (.mutexLock ())), .monitor (.semUp 0),
      .monitor (.run 0 (.condSignal false false)), .monitor (.run 0 .advance),
      .monitor (.run 0 .advance), .monitor (.run 0 (.condWait () true false)),
      .monitor (.run 0 .advance), .monitor (.run 0 .advance),
      .code 1 (), .monitor (.run 1 (.mutexLock ())), .monitor (.semDown 1),
      .monitor (.run 1 (.mutexUnlock ())), .code 1 (), .code 1 (), .monitor (.run 1 .advance),
      .monitor (.run 1 .advance), .monitor (.run 1 .advance), .monitor (.run 1 .advance),
      .monitor (.run 1 .advance), .code 1 (), .monitor (.run 1 (.mutexLock ())),
      .monitor (.semUp 1), .monitor (.run 1 (.condSignal false false)),
      .monitor (.run 1 .advance), .monitor (.run 1 .advance), .monitor (.run 1 (.mutexUnlock ())),
      .monitor (.dispatch 0), .monitor (.run 0 .advance), .monitor (.run 0 .advance),
      .monitor (.run 0 .advance), .monitor (.semDown 0), .monitor (.run 0 (.mutexUnlock ())),
      .code 0 ()] rfl
  exact ⟨_, rfl, rfl, sections_atomic rfl reached⟩

end Shared
end TinyOs.Monitor
