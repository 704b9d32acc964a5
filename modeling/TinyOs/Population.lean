import TinyOs.Kernel
import TinyOs.Library.Counting
import TinyOs.SchedulerSafety

/-! The threads there are, how each is released after it has exited, and when
the idle threads of the cores stop scheduling. -/
namespace TinyOs.Scheduler
open Library Function
variable {Core : Type*} [DecidableEq Core] {s t : State Core}

/-- The TCB that the step passes to `release_TCB`. -/
def State.releases (s : State Core) : Label Core → Option Nat
  | .gain core =>
    match s.previous core with
    | .heap address =>
      if s.current core ≠ s.previous core ∧ (s.tcb (s.previous core)).state = .exited then
        some address
      else none
    | .idleThread _ => none
  | _ => none

/-- A thread that has exited and that its core has not left for good: `yield` or
`gain` comes next there. -/
def Exiting (s : State Core) (core : Core) (address : Nat) : Prop :=
  s.allocated address = true ∧ (s.tcb (.heap address)).state = .exited ∧
    (AboutToYield s core ∧ s.current core = .heap address ∨
      AboutToGain s core ∧ s.previous core = .heap address)

/-! ### What the steps allocate and release -/

theorem sleepReleasing_departed (inv : Inv s) (core : Core) {newstate : ThreadState}
    (newstateOk : newstate = .stopped ∨ newstate = .exited) (cause : SchedCause)
    (timeout : Option (BitVec 64)) : ∃ tcb list,
      sleepReleasing s core newstate cause (sleepTimeout timeout) =
        departed s core tcb list cause := by
  by_cases timed : newstate = .exited ∨ timeout = none
  · exact ⟨_, _, sleepReleasing_untimed inv core newstateOk cause timed⟩
  · obtain ⟨sleeps, registers⟩ := not_or.mp timed
    obtain rfl := newstateOk.resolve_right sleeps
    obtain ⟨milliseconds, rfl⟩ := Option.ne_none_iff_exists'.mp registers
    exact ⟨_, _, sleepReleasing_timed inv core cause milliseconds⟩

/-- The loop over expired timeouts touches no thread but those asleep. -/
theorem wakeupExpired_leaves (now : TimerDuration) (fuel : Nat) (inv : Inv s) :
    (wakeupExpired now fuel s).allocated = s.allocated ∧
      (wakeupExpired now fuel s).activeThreads = s.activeThreads ∧
      ∀ u, (s.tcb u).state ≠ .stopped → (wakeupExpired now fuel s).tcb u = s.tcb u := by
  induction fuel generalizing s with
  | zero => exact ⟨rfl, rfl, fun _ _ => rfl⟩
  | succ fuel ih =>
    unfold wakeupExpired
    split
    · exact ⟨rfl, rfl, fun _ _ => rfl⟩
    next thread rest first =>
      obtain ⟨held, stopped⟩ := inv.timed_stopped thread (by simp [first])
      split
      · exact ⟨rfl, rfl, fun _ _ => rfl⟩
      · rw [makeReady_eq inv held (.inl stopped)]
        obtain ⟨allocated, active, same⟩ := ih (readied_inv inv held (.inl stopped))
        refine ⟨allocated, active, fun u awake => ?_⟩
        have apart : u ≠ thread := by
          rintro rfl
          exact awake stopped
        have unready : (readied s thread).tcb u = s.tcb u := by simp [apart]
        rw [same u (by rwa [unready]), unready]

/-- The section of `yield` makes and releases no thread, one that has exited
stays so, and its core starts to switch. -/
theorem yield_leaves (inv : Inv s) {core : Core} {cause : SchedCause}
    (point : s.point core = .executing ∨ s.point core = .blocked cause)
    (remaining : TimerDuration) :
    (yield s core cause remaining).allocated = s.allocated ∧
      (yield s core cause remaining).activeThreads = s.activeThreads ∧
      (∀ u, (s.tcb u).state = .exited →
        ((yield s core cause remaining).tcb u).state = .exited) ∧
      ∃ next, (yield s core cause remaining).point = update s.point core (.selected next) ∧
        (yield s core cause remaining).cctx =
          update s.cctx core { s.cctx core with previousThread := s.current core } := by
  have ending := endTimeSlice_inv inv point remaining
  obtain ⟨allocated, active, same⟩ := wakeupExpired_leaves
    (biosClock (endTimeSlice s core cause remaining))
    (endTimeSlice s core cause remaining).timeoutList.length ending
  obtain ⟨-, points, cores⟩ := wakeupExpired_inv
    (biosClock (endTimeSlice s core cause remaining))
    (endTimeSlice s core cause remaining).timeoutList.length ending
  have ended : ∀ u, (s.tcb u).state = .exited →
      ((endTimeSlice s core cause remaining).tcb u).state = .exited := by
    intro u exited
    by_cases mine : u = s.current core
    · subst u
      simp [endTimeSlice, State.setTcb, State.setPoint, exited]
    · simpa [endTimeSlice, State.setTcb, State.setPoint, mine] using exited
  obtain ⟨next, sched, count, shape, -⟩ :=
    selectNext_cases (schedWakeupExpiredTimeouts (endTimeSlice s core cause remaining)) core
  unfold yield
  rw [shape]
  have left : (schedWakeupExpiredTimeouts (endTimeSlice s core cause remaining)).cctx = s.cctx :=
    cores
  have point : (schedWakeupExpiredTimeouts (endTimeSlice s core cause remaining)).point =
      update s.point core (.blocked cause) := points
  refine ⟨allocated, active, fun u exited => ?_, next, ?_, ?_⟩
  rotate_left
  · simp only [selectedState, point, update_idem]
  · simp only [selectedState, State.current, left]
  have kept : ((schedWakeupExpiredTimeouts (endTimeSlice s core cause remaining)).tcb u).state =
      .exited := by
    have after := same u (by simp [ended u exited])
    change (wakeupExpired _ _ (endTimeSlice s core cause remaining)).tcb u = _ at after
    rw [schedWakeupExpiredTimeouts, after, ended u exited]
  rw [selectedState_tcb]
  split
  next chosen => rwa [chosen] at kept
  next => exact kept

/-- A step makes one thread, or releases one that is there, or neither. -/
theorem step_allocates (inv : Inv s) {label : Label Core} (moved : step s label = some t) :
    (∃ core address, label = .spawnThread core address ∧ s.allocated address = false ∧
      t.allocated = update s.allocated address true ∧ t.activeThreads = s.activeThreads + 1) ∨
    (∃ address, s.releases label = some address ∧ s.allocated address = true ∧
      t.allocated = update s.allocated address false ∧ t.activeThreads = s.activeThreads - 1) ∨
    s.releases label = none ∧ (∀ core address, label ≠ .spawnThread core address) ∧
      t.allocated = s.allocated ∧ t.activeThreads = s.activeThreads := by
  cases stepped_of_step moved with
  | @spawnThread core address _ free =>
    exact .inl ⟨core, address, rfl, free, rfl, rfl⟩
  | @wakeup core thread _ held =>
    refine .inr (.inr ⟨rfl, by simp, ?_⟩)
    unfold wakeup
    split
    next waiting =>
      rw [makeReady_eq inv held waiting]
      exact ⟨rfl, rfl⟩
    next => exact ⟨rfl, rfl⟩
  | @sleepReleasing core _ newstate cause timeout _ _ sleeps =>
    refine .inr (.inr ⟨rfl, by simp, ?_⟩)
    obtain ⟨tcb, list, shape⟩ := sleepReleasing_departed inv core sleeps cause timeout
    rw [shape]
    exact ⟨rfl, rfl⟩
  | @yield core cause remaining point =>
    obtain ⟨allocated, active, -⟩ := yield_leaves inv point remaining
    exact .inr (.inr ⟨rfl, by simp, allocated, active⟩)
  | @swapContext core next _ =>
    exact .inr (.inr ⟨rfl, by simp, rfl, rfl⟩)
  | @gain core point =>
    obtain ⟨same, shape⟩ | ⟨other, ⟨state, ⟨c, home⟩, shape⟩ | ⟨state, ⟨a, heap⟩, shape⟩ |
      ⟨state, shape⟩ | ⟨state, a, heap, shape⟩⟩ := gain_cases inv point
    all_goals rw [shape]
    · refine .inr (.inr ⟨?_, by simp, rfl, rfl⟩)
      simp only [State.releases]
      split
      · exact if_neg fun both => both.1 same
      · rfl
    · exact .inr (.inr ⟨by simp [State.releases, home], by simp, rfl, rfl⟩)
    · refine .inr (.inr ⟨?_, by simp, rfl, rfl⟩)
      rw [heap] at state
      simp [State.releases, heap, state]
    · refine .inr (.inr ⟨?_, by simp, rfl, rfl⟩)
      simp only [State.releases]
      split
      · exact if_neg fun both => absurd (state.symm.trans both.2) (by decide)
      · rfl
    · have taken : chosen s core = some (s.current core) := by simp [chosen, point]
      have held := inv.occupied_holds core (s.previous core) (.inr (.inr ⟨by simp [taken], rfl⟩))
      rw [heap] at held state other
      exact .inr (.inl ⟨a, by simp [State.releases, heap, state, other], held, rfl, rfl⟩)
  | @tick clock =>
    exact .inr (.inr ⟨rfl, by simp, rfl, rfl⟩)

theorem standing_update (allocated : Nat → Bool) {address : Nat}
    (fits : address < Kernel.maxThreads) (value : Bool) :
    (List.range Kernel.maxThreads).countP (update allocated address value) +
        (if allocated address then 1 else 0) =
      (List.range Kernel.maxThreads).countP allocated + if value then 1 else 0 :=
  countP_update List.nodup_range (List.mem_range.mpr fits) allocated value id

/-- `active_threads` is the number of heap blocks that hold a TCB. -/
structure Counted (s : State Core) : Prop where
  inv : Inv s
  standing : s.activeThreads.toNat = (List.range Kernel.maxThreads).countP s.allocated
  bounded : ∀ address, s.allocated address = true → address < Kernel.maxThreads

theorem Counted.step (counted : Counted s) {label : Label Core}
    (moved : Scheduler.step s label = some t)
    (fits : ∀ core address, label = .spawnThread core address → address < Kernel.maxThreads) :
    Counted t := by
  obtain ⟨inv, standing, bounded⟩ := counted
  refine ⟨step_inv inv moved, ?_, ?_⟩
  · have most : (List.range Kernel.maxThreads).countP s.allocated ≤ 2 ^ 30 :=
      List.countP_le_length.trans_eq List.length_range
    obtain ⟨core, address, spawns, free, allocated, active⟩ |
      ⟨address, -, held, allocated, active⟩ | ⟨-, -, allocated, active⟩ := step_allocates inv moved
    · have grown := standing_update s.allocated (fits core address spawns) true
      have one : (1 : BitVec 32).toNat = 1 := rfl
      rw [allocated, active, BitVec.toNat_add, standing, one]
      simp only [free, Bool.false_eq_true, if_false, if_true] at grown
      omega
    · have shrunk := standing_update s.allocated (bounded address held) false
      have one : (1 : BitVec 32).toNat = 1 := rfl
      rw [allocated, active, BitVec.toNat_sub, standing, one]
      simp only [held, Bool.false_eq_true, if_false, if_true] at shrunk
      omega
    · rw [allocated, active, standing]
  · intro other held
    obtain ⟨core, address, spawns, -, allocated, -⟩ |
      ⟨address, -, -, allocated, -⟩ | ⟨-, -, allocated, -⟩ := step_allocates inv moved
    · rw [allocated, update_apply] at held
      split at held
      next same => exact same ▸ fits core address spawns
      next => exact bounded other held
    · rw [allocated, update_apply] at held
      split at held
      · cases held
      · exact bounded other held
    · exact bounded other (allocated ▸ held)

/-! ### The last steps of a thread -/

omit [DecidableEq Core] in
/-- A thread that has exited is still on its way out of a core. -/
theorem exiting_of_exited (inv : Inv s) {address : Nat} (held : s.allocated address = true)
    (exited : (s.tcb (.heap address)).state = .exited) : ∃ core, Exiting s core address := by
  obtain ⟨core, occupied⟩ : ∃ core, Occupies s core (.heap address) := by
    by_contra free
    have rests := (inv.resting (.heap address) held fun core occupied => free ⟨core, occupied⟩).2
    simp [exited] at rests
  have unchosen : ∀ {u}, chosen s core = some u → (s.tcb u).state = .ready :=
    fun chooses => (inv.entering core _ chooses).1
  refine ⟨core, held, exited, ?_⟩
  rcases occupied with current | chooses | ⟨switching, previous⟩
  · cases point : s.point core with
    | executing =>
      have running := (inv.executing core point).1
      rw [← current, exited] at running
      cases running
    | blocked cause => exact .inl ⟨⟨cause, point⟩, current.symm⟩
    | selected next =>
      exact .inr ⟨.inl ⟨next, point⟩, (inv.selected core next point).trans current.symm⟩
    | switched =>
      have ready := unchosen (u := s.current core) (by simp [chosen, point])
      rw [← current, exited] at ready
      cases ready
  · have ready := unchosen chooses
    rw [exited] at ready
    cases ready
  · refine .inr ⟨?_, previous.symm⟩
    cases point : s.point core with
    | executing | blocked cause => simp [chosen, point] at switching
    | selected next => exact .inl ⟨next, point⟩
    | switched => exact .inr point

omit [DecidableEq Core] in
theorem Exiting.occupies {core : Core} {address : Nat} (exiting : Exiting s core address) :
    Occupies s core (.heap address) := by
  rcases exiting.2.2 with ⟨_, current⟩ | ⟨⟨next, point⟩ | point, previous⟩
  · exact .inl current.symm
  · exact .inr (.inr ⟨by simp [chosen, point], previous.symm⟩)
  · exact .inr (.inr ⟨by simp [chosen, point], previous.symm⟩)

omit [DecidableEq Core] in
/-- A step that leaves the core where it is, and the thread exited, does not
matter to it. -/
theorem Exiting.same {core : Core} {address : Nat} (exiting : Exiting s core address)
    (held : t.allocated address = true)
    (exited : (t.tcb (.heap address)).state = .exited) (point : t.point core = s.point core)
    (ccb : t.cctx core = s.cctx core) : Exiting t core address := by
  refine ⟨held, exited, ?_⟩
  simpa only [AboutToYield, AboutToGain, State.current, State.previous, point, ccb] using
    exiting.2.2

/-- Until the core calls `gain` the thread stays as it is, and `gain` releases
it. -/
theorem exiting_step (inv : Inv s) {label : Label Core} (moved : step s label = some t)
    {core : Core} {address : Nat} (exiting : Exiting s core address) :
    label = .gain core ∧ s.releases label = some address ∨
      label ≠ .gain core ∧ Exiting t core address := by
  obtain ⟨held, exited, leaves⟩ := id exiting
  have elsewhere : ∀ {other}, other ≠ core → ¬ Occupies s other (.heap address) :=
    fun apart occupied => apart (inv.occupied_once _ core _ occupied exiting.occupies)
  cases stepped_of_step moved with
  | @spawnThread other new _ free =>
    have apart : address ≠ new := by
      rintro rfl
      simp [held] at free
    refine .inr ⟨by simp, exiting.same ?_ ?_ rfl rfl⟩
    · simp [spawnThread, apart, held]
    · simp [spawnThread, State.setTcb, apart, exited]
  | @wakeup other thread _ holds =>
    refine .inr ⟨by simp, ?_⟩
    unfold wakeup
    split
    next waiting =>
      have apart : .heap address ≠ thread := by
        rintro rfl
        simp [exited] at waiting
      rw [makeReady_eq inv holds waiting]
      exact exiting.same held (by simp [apart, exited]) rfl rfl
    next => exact exiting
  | @sleepReleasing other _ newstate cause timeout executing _ sleeps =>
    have apart : other ≠ core := by
      rintro rfl
      simp [AboutToYield, AboutToGain, executing] at leaves
    have away : .heap address ≠ s.current other := fun same => elsewhere apart (.inl same)
    obtain ⟨tcb, list, shape⟩ := sleepReleasing_departed inv other sleeps cause timeout
    rw [shape]
    exact .inr ⟨by simp, exiting.same held (by simp [away, exited]) (by simp [apart.symm]) rfl⟩
  | @yield other cause remaining point =>
    obtain ⟨allocated, -, kept, next, points, cores⟩ := yield_leaves inv point remaining
    refine .inr ⟨by simp, ?_⟩
    by_cases mine : core = other
    · subst mine
      have current : s.current core = .heap address := by
        rcases leaves with ⟨-, current⟩ | ⟨⟨next, selected⟩ | switched, -⟩
        · exact current
        · simp [selected] at point
        · simp [switched] at point
      refine ⟨by rwa [allocated], kept _ exited, .inr ⟨.inl ⟨next, by simp [points]⟩, ?_⟩⟩
      simp [State.previous, cores, current]
    · exact exiting.same (by rwa [allocated]) (kept _ exited) (by simp [points, mine])
        (by simp [cores, mine])
  | @swapContext other next point =>
    refine .inr ⟨by simp, ?_⟩
    by_cases mine : core = other
    · subst mine
      have previous : s.previous core = .heap address := by
        rcases leaves with ⟨⟨cause, blocked⟩, -⟩ | ⟨-, previous⟩
        · simp [blocked] at point
        · exact previous
      refine ⟨held, exited, .inr ⟨.inr ?_, ?_⟩⟩
      · simp [swapContext, State.setPoint]
      · simpa [swapContext, State.setPoint, State.setCore, State.previous] using previous
    · refine exiting.same held exited ?_ ?_
      · simp [swapContext, State.setPoint, State.setCore, mine]
      · simp [swapContext, State.setPoint, State.setCore, mine]
  | @gain other point =>
    by_cases mine : other = core
    · subst mine
      have previous : s.previous other = .heap address := by
        rcases leaves with ⟨⟨cause, blocked⟩, -⟩ | ⟨-, previous⟩
        · simp [blocked] at point
        · exact previous
      have ready := (inv.entering other (s.current other) (by simp [chosen, point])).1
      have apart : s.current other ≠ .heap address := fun same => by
        simp [same, exited] at ready
      exact .inl ⟨rfl, by simp [State.releases, previous, exited, apart]⟩
    · have away : .heap address ≠ s.current other := fun same => elsewhere mine (.inl same)
      have past : .heap address ≠ s.previous other := fun same =>
        elsewhere mine (.inr (.inr ⟨by simp [chosen, point], same⟩))
      refine .inr ⟨by simpa using mine, ?_⟩
      obtain ⟨-, shape⟩ | ⟨-, ⟨-, -, shape⟩ | ⟨-, -, shape⟩ | ⟨-, shape⟩ |
        ⟨-, a, heap, shape⟩⟩ := gain_cases inv point
      all_goals rw [shape]
      iterate 4
        exact exiting.same held (by simp [away, past, exited]) (by simp [Ne.symm mine]) rfl
      have other : address ≠ a := fun same => past (by rw [heap, same])
      refine exiting.same ?_ (by simp [away, past, exited]) (by simp [Ne.symm mine]) rfl
      simp [gained, other, held]
  | @tick clock =>
    exact .inr ⟨by simp, exiting⟩

/-! ### From the boot to the end of the idle threads -/

/-- How far `boot_tinyos_kernel` is: before or in the `Exec` of core 0, at the
barrier, or in `run_scheduler` on every core. -/
inductive BootPoint where
  | execing
  | spawned (address : Nat)
  | waiting
  | scheduling
  deriving DecidableEq, Repr

/-- Where an idle thread is in `idle_thread`. -/
inductive IdlePoint where
  /-- About to call the `yield` before the loop, or the one in it. -/
  | yielding
  /-- About to test `active_threads`. -/
  | testing
  /-- Out of the loop. -/
  | left
  deriving DecidableEq, Repr

structure System (Core : Type*) where
  scheduler : State Core
  idle : Core → IdlePoint
  booting : BootPoint

inductive SystemLabel (Core : Type*) where
  /-- A section of a system call, of an interrupt handler or of the switch to
  another thread. -/
  | sched (label : Label Core)
  /-- The `yield` of `idle_thread`. -/
  | idleYield (core : Core) (remaining : TimerDuration)
  /-- The condition of the loop of `idle_thread`. -/
  | idleTest (core : Core)
  /-- Every core returns from `cpu_core_barrier_sync`. -/
  | barrier

namespace System

/-- What the scheduler is called from: before the barrier only the `Exec` of
the boot task, and afterwards only the code of a normal thread spawns. -/
def calls (s : System Core) : Label Core → Bool
  | .spawnThread core address =>
    decide (address < Kernel.maxThreads) &&
      (decide (s.booting = .execing) ||
        decide (s.booting = .scheduling) && match s.scheduler.current core with
          | .heap _ => true
          | .idleThread _ => false)
  | .wakeup _ thread =>
    match s.booting with
    | .spawned address => thread = .heap address
    | .scheduling => true
    | .execing | .waiting => false
  | .tick _ => true
  | .sleepReleasing _ _ _ _ | .yield _ _ _ | .swapContext _ | .gain _ => s.booting = .scheduling

/-- What the loop condition of `idle_thread` leads to. -/
def afterTest (s : System Core) : IdlePoint :=
  if 0 < s.scheduler.activeThreads then .yielding else .left

end System

def BootPoint.after : BootPoint → Label Core → BootPoint
  | .execing, .spawnThread _ address => .spawned address
  | .spawned _, .wakeup _ _ => .waiting
  | point, _ => point

def System.step (s : System Core) : SystemLabel Core → Option (System Core)
  | .sched label =>
    if s.calls label then
      (Scheduler.step s.scheduler label).map fun scheduler =>
        { s with scheduler := scheduler, booting := s.booting.after label }
    else none
  | .idleYield core remaining =>
    if s.booting = .scheduling ∧ s.scheduler.point core = .executing ∧
        s.scheduler.current core = .idleThread core ∧ s.idle core = .yielding then
      (Scheduler.step s.scheduler (.yield core .idle remaining)).map fun scheduler =>
        { s with scheduler := scheduler, idle := update s.idle core .testing }
    else none
  | .idleTest core =>
    if s.booting = .scheduling ∧ s.scheduler.point core = .executing ∧
        s.scheduler.current core = .idleThread core ∧ s.idle core = .testing then
      some { s with idle := update s.idle core s.afterTest }
    else none
  | .barrier =>
    -- Without a boot task `Exec` makes no thread.
    if s.booting = .execing ∨ s.booting = .waiting then some { s with booting := .scheduling }
    else none

def systemMachine (Core : Type*) [DecidableEq Core] : Machine (System Core) (SystemLabel Core) where
  initial s := ∃ memory clock, s = ⟨boot memory clock, fun _ => .yielding, .execing⟩
  step := System.step

/-- Each step is a step of the scheduler, or one of the boot or of the loops of
the idle threads. -/
theorem System.step_cases {s t : System Core} {label : SystemLabel Core}
    (moved : System.step s label = some t) :
    (∃ scheduled, label = .sched scheduled ∧ s.calls scheduled = true ∧
      Scheduler.step s.scheduler scheduled = some t.scheduler ∧ t.idle = s.idle ∧
      t.booting = s.booting.after scheduled) ∨
    (∃ core remaining, label = .idleYield core remaining ∧
      Scheduler.step s.scheduler (.yield core .idle remaining) = some t.scheduler ∧
      t.idle = update s.idle core .testing ∧ s.booting = .scheduling ∧ t.booting = s.booting) ∨
    (∃ core, label = .idleTest core ∧ t.scheduler = s.scheduler ∧
      t.idle = update s.idle core s.afterTest ∧ s.booting = .scheduling ∧
        t.booting = s.booting) ∨
    label = .barrier ∧ t.scheduler = s.scheduler ∧ t.idle = s.idle ∧ t.booting = .scheduling := by
  cases label with
  | sched scheduled =>
    obtain ⟨calls, scheduler, stepped, rfl⟩ : s.calls scheduled = true ∧ ∃ scheduler,
        Scheduler.step s.scheduler scheduled = some scheduler ∧
          { s with scheduler := scheduler, booting := s.booting.after scheduled } = t := by
      simpa [System.step] using moved
    exact .inl ⟨scheduled, rfl, calls, stepped, rfl, rfl⟩
  | idleYield core remaining =>
    obtain ⟨⟨scheduling, -⟩, scheduler, stepped, rfl⟩ : (s.booting = .scheduling ∧ _) ∧
        ∃ scheduler, Scheduler.step s.scheduler (.yield core .idle remaining) = some scheduler ∧
          { s with scheduler := scheduler, idle := update s.idle core .testing } = t := by
      simpa [System.step] using moved
    exact .inr (.inl ⟨core, remaining, rfl, stepped, rfl, scheduling, rfl⟩)
  | idleTest core =>
    obtain ⟨⟨scheduling, -⟩, rfl⟩ : (s.booting = .scheduling ∧ _) ∧
        { s with idle := update s.idle core s.afterTest } = t := by
      simpa [System.step] using moved
    exact .inr (.inr (.inl ⟨core, rfl, rfl, rfl, scheduling, rfl⟩))
  | barrier =>
    obtain ⟨-, rfl⟩ : _ ∧ { s with booting := .scheduling } = t := by
      simpa [System.step] using moved
    exact .inr (.inr (.inr ⟨rfl, rfl, rfl, rfl⟩))

/-- What every step of the system keeps. -/
structure Populated (s : System Core) : Prop where
  counted : Counted s.scheduler
  /-- No idle thread runs before the barrier. -/
  early : s.booting ≠ .scheduling → ∀ core, s.idle core ≠ .left
  left : ∀ core, s.idle core = .left → ∀ address, s.scheduler.allocated address = false

omit [DecidableEq Core] in
theorem Counted.nobody (counted : Counted s) (none : ¬ 0 < s.activeThreads) (address : Nat) :
    s.allocated address = false := by
  have zero : s.activeThreads.toNat = 0 := by simpa [BitVec.lt_def] using none
  rw [counted.standing, List.countP_eq_zero] at zero
  by_contra held
  have held : s.allocated address = true := by simpa using held
  exact zero address (List.mem_range.mpr (counted.bounded address held)) held

/-- Only a normal thread makes another one once the cores schedule. -/
theorem Populated.spawner {s : System Core} (populated : Populated s) {core : Core}
    {address : Nat} (calls : s.calls (.spawnThread core address) = true) :
    address < Kernel.maxThreads ∧
      (s.booting = .execing ∨ ∃ running, s.scheduler.allocated running = true) := by
  obtain ⟨fits, execing | ⟨-, normal⟩⟩ : address < Kernel.maxThreads ∧
      (s.booting = .execing ∨ s.booting = .scheduling ∧ _) := by
    simpa only [System.calls, Bool.and_eq_true, Bool.or_eq_true, decide_eq_true_eq] using calls
  · exact ⟨fits, .inl execing⟩
  · refine ⟨fits, .inr ?_⟩
    cases current : s.scheduler.current core with
    | heap running =>
      exact ⟨running, populated.counted.inv.occupied_holds core _ (.inl current.symm)⟩
    | idleThread c => simp [current] at normal

theorem Populated.step {s t : System Core} (populated : Populated s) {label : SystemLabel Core}
    (moved : System.step s label = some t) : Populated t := by
  obtain ⟨counted, early, left⟩ := id populated
  obtain ⟨scheduled, rfl, calls, stepped, idle, booting⟩ |
    ⟨core, remaining, rfl, stepped, idle, scheduling, booting⟩ |
    ⟨core, rfl, same, idle, scheduling, booting⟩ | ⟨rfl, same, idle, booting⟩ :=
      System.step_cases moved
  · have fits : ∀ core address, scheduled = .spawnThread core address →
        address < Kernel.maxThreads := by
      rintro core address rfl
      exact (populated.spawner calls).1
    refine ⟨counted.step stepped fits, fun starting core => ?_, fun core gone address => ?_⟩
    · rw [idle]
      refine early (fun scheduling => starting ?_) core
      rw [booting, scheduling]
      rfl
    · rw [idle] at gone
      have nobody := left core gone
      obtain ⟨_, _, rfl, -, -, -⟩ | ⟨_, -, -, allocated, -⟩ | ⟨-, -, allocated, -⟩ :=
        step_allocates counted.inv stepped
      · rcases (populated.spawner calls).2 with execing | ⟨running, held⟩
        · exact absurd gone (early (by simp [execing]) core)
        · simp [nobody running] at held
      · simp [allocated, update_apply, nobody]
      · rw [allocated, nobody]
  · refine ⟨counted.step stepped nofun, fun starting => absurd (booting.trans scheduling) starting,
      fun other gone address => ?_⟩
    rw [idle, update_apply] at gone
    split at gone
    · cases gone
    · obtain ⟨_, _, spawns, -⟩ | ⟨_, -, -, allocated, -⟩ | ⟨-, -, allocated, -⟩ :=
        step_allocates counted.inv stepped
      · cases spawns
      · simp [allocated, update_apply, left other gone]
      · rw [allocated, left other gone]
  · refine ⟨same ▸ counted, fun starting => absurd (booting.trans scheduling) starting,
      fun other gone address => ?_⟩
    rw [idle, update_apply] at gone
    rw [same]
    split at gone
    · unfold System.afterTest at gone
      split at gone
      · cases gone
      next none => exact counted.nobody none address
    · exact left other gone address
  · exact ⟨same ▸ counted, fun starting => absurd booting starting, by rwa [idle, same]⟩

theorem populated_of_run {past : List (System Core × SystemLabel Core)} {s : System Core}
    (run : (systemMachine Core).Run past s) : Populated s := by
  induction run with
  | start begins =>
    obtain ⟨memory, clock, rfl⟩ := begins
    have zero : (List.range Kernel.maxThreads).countP (fun _ => false) = 0 := by
      simp only [List.countP_false, Function.const_apply]
    exact ⟨⟨boot_inv memory clock, zero.symm, nofun⟩, fun _ _ => nofun, fun _ => nofun⟩
  | step run moved populated => exact populated.step moved

/-! ### The threads of a run -/

/-- The block that the step makes a TCB of. -/
def SystemLabel.spawns : SystemLabel Core → Option Nat
  | .sched (.spawnThread _ address) => some address
  | _ => none

/-- The TCB that the step passes to `release_TCB`. -/
def System.releases (s : System Core) : SystemLabel Core → Option Nat
  | .sched label => s.scheduler.releases label
  | _ => none

/-- What becomes of the threads of a run. -/
structure Population (past : List (System Core × SystemLabel Core)) (s : System Core) : Prop where
  active : past.countP (fun left => left.2.spawns.isSome) =
    past.countP (fun left => (left.1.releases left.2).isSome) + s.scheduler.activeThreads.toNat
  /-- Every TCB that was spawned has been released once, or stands. -/
  released_once : ∀ address, past.countP (fun left => left.2.spawns = some address) =
    past.countP (fun left => left.1.releases left.2 = some address) +
      if s.scheduler.allocated address then 1 else 0
  exiting : ∀ address, s.scheduler.allocated address = true →
    (s.scheduler.tcb (.heap address)).state = .exited → ∃ core, Exiting s.scheduler core address
  /-- The next `gain` of its core releases the thread, and nothing else does. -/
  released_by : ∀ core address, Exiting s.scheduler core address →
    ∀ label t, System.step s label = some t →
      label = .sched (.gain core) ∧ s.releases label = some address ∧
          t.scheduler.allocated address = false ∨
        label ≠ .sched (.gain core) ∧ s.releases label ≠ some address ∧
          Exiting t.scheduler core address
  gone : ∀ address, s.scheduler.allocated address = false →
    (∀ core, s.scheduler.current core ≠ .heap address) ∧
      (∀ level, .heap address ∉ s.scheduler.sched level) ∧
        .heap address ∉ s.scheduler.timeoutList
  left : ∀ core, s.idle core = .left → ∀ address, s.scheduler.allocated address = false

/-- What one step adds to the counts of spawned and released TCBs. -/
theorem Populated.counts {s t : System Core} (populated : Populated s) {label : SystemLabel Core}
    (moved : System.step s label = some t) :
    (∃ address, label.spawns = some address ∧ s.releases label = none ∧
      s.scheduler.allocated address = false ∧
      t.scheduler.allocated = update s.scheduler.allocated address true) ∨
    (∃ address, label.spawns = none ∧ s.releases label = some address ∧
      s.scheduler.allocated address = true ∧
      t.scheduler.allocated = update s.scheduler.allocated address false) ∨
    label.spawns = none ∧ s.releases label = none ∧
      t.scheduler.allocated = s.scheduler.allocated := by
  have none_of : ∀ {scheduled : Label Core}, (∀ core address, scheduled ≠ .spawnThread core address) →
      (SystemLabel.sched scheduled).spawns = none := by
    intro scheduled other
    cases scheduled with
    | spawnThread core address => exact absurd rfl (other core address)
    | wakeup | sleepReleasing | yield | swapContext | gain | tick => rfl
  obtain ⟨scheduled, rfl, -, stepped, -⟩ | ⟨core, remaining, rfl, stepped, -⟩ |
    ⟨core, rfl, same, -⟩ | ⟨rfl, same, -⟩ := System.step_cases moved
  · obtain ⟨core, address, rfl, free, allocated, -⟩ | ⟨address, releases, held, allocated, -⟩ |
      ⟨releases, other, allocated, -⟩ := step_allocates populated.counted.inv stepped
    · exact .inl ⟨address, rfl, rfl, free, allocated⟩
    · refine .inr (.inl ⟨address, none_of ?_, releases, held, allocated⟩)
      rintro core spawned rfl
      cases releases
    · exact .inr (.inr ⟨none_of other, releases, allocated⟩)
  · obtain ⟨_, _, spawns, -⟩ | ⟨_, releases, -⟩ | ⟨-, -, allocated, -⟩ :=
      step_allocates populated.counted.inv stepped
    · cases spawns
    · cases releases
    · exact .inr (.inr ⟨rfl, rfl, allocated⟩)
  · exact .inr (.inr ⟨rfl, rfl, by rw [same]⟩)
  · exact .inr (.inr ⟨rfl, rfl, by rw [same]⟩)

theorem released_once_of_run {past : List (System Core × SystemLabel Core)} {s : System Core}
    (run : (systemMachine Core).Run past s) (address : Nat) :
    past.countP (fun left => left.2.spawns = some address) =
      past.countP (fun left => left.1.releases left.2 = some address) +
        if s.scheduler.allocated address then 1 else 0 := by
  induction run with
  | start begins =>
    obtain ⟨memory, clock, rfl⟩ := begins
    rfl
  | @step past s t label run moved ih =>
    rw [List.countP_cons, List.countP_cons, ih]
    obtain ⟨changed, spawns, releases, before, after⟩ | ⟨changed, spawns, releases, before, after⟩ |
      ⟨spawns, releases, after⟩ := (populated_of_run run).counts moved
    · by_cases same : changed = address
      · subst same
        simp [spawns, releases, before, after]
      · simp [spawns, releases, after, same, Ne.symm same]
    · by_cases same : changed = address
      · subst same
        simp [spawns, releases, before, after]
      · simp [spawns, releases, after, same, Ne.symm same]
    · simp [spawns, releases, after]

theorem active_of_run {past : List (System Core × SystemLabel Core)} {s : System Core}
    (run : (systemMachine Core).Run past s) :
    past.countP (fun left => left.2.spawns.isSome) =
      past.countP (fun left => (left.1.releases left.2).isSome) +
        s.scheduler.activeThreads.toNat := by
  induction run with
  | start begins =>
    obtain ⟨memory, clock, rfl⟩ := begins
    rfl
  | @step past s t label run moved ih =>
    have before := populated_of_run run
    have after := before.step moved
    have stood := before.counted.standing
    rw [List.countP_cons, List.countP_cons, ih, stood, after.counted.standing]
    obtain ⟨address, spawns, releases, free, changed⟩ |
      ⟨address, spawns, releases, held, changed⟩ | ⟨spawns, releases, same⟩ := before.counts moved
    · have fits := after.counted.bounded address (by simp [changed])
      have grown := standing_update s.scheduler.allocated fits true
      simp only [free, Bool.false_eq_true, if_false, if_true] at grown
      simp only [spawns, releases, changed, Option.isSome_some, Option.isSome_none,
        Bool.false_eq_true, if_true, if_false]
      omega
    · have shrunk := standing_update s.scheduler.allocated (before.counted.bounded address held)
        false
      simp only [held, Bool.false_eq_true, if_false, if_true] at shrunk
      simp only [spawns, releases, changed, Option.isSome_some, Option.isSome_none,
        Bool.false_eq_true, if_true, if_false]
      omega
    · simp [spawns, releases, same]

/-- **The population of threads.** Over every run of any number of cores, from
the boot on, `active_threads` counts the TCBs spawned and not yet released. A
thread that has exited is released once, by the `gain` after the last `yield`
on its core, and no core and no list of the scheduler knows it afterwards. An
idle thread leaves its loop only when there is no thread left. -/
theorem population {past : List (System Core × SystemLabel Core)} {s : System Core}
    (run : (systemMachine Core).Run past s) : Population past s := by
  have populated := populated_of_run run
  have inv := populated.counted.inv
  constructor
  case active => exact active_of_run run
  case released_once => exact released_once_of_run run
  case exiting => exact fun address held exited => exiting_of_exited inv held exited
  case released_by =>
    intro core address exiting label t moved
    obtain ⟨scheduled, rfl, -, stepped, -⟩ | ⟨c, remaining, rfl, stepped, -⟩ |
      ⟨c, rfl, same, -⟩ | ⟨rfl, same, -⟩ := System.step_cases moved
    · rcases exiting_step inv stepped exiting with ⟨rfl, releases⟩ | ⟨other, still⟩
      · refine .inl ⟨rfl, releases, ?_⟩
        obtain ⟨_, _, spawns, -⟩ | ⟨released, found, -, allocated, -⟩ | ⟨none, -⟩ :=
          step_allocates inv stepped
        · cases spawns
        · obtain rfl : released = address := by simpa [found] using releases
          simp [allocated]
        · simp [none] at releases
      · refine .inr ⟨by simpa using other, fun releases => ?_, still⟩
        obtain ⟨_, _, rfl, -⟩ | ⟨released, found, -, allocated, -⟩ | ⟨none, -⟩ :=
          step_allocates inv stepped
        · cases releases
        · obtain rfl : released = address := by
            simpa using found.symm.trans releases
          exact absurd still.1 (by simp [allocated])
        · cases none.symm.trans releases
    · obtain ⟨absurd, -⟩ | ⟨-, still⟩ := exiting_step inv stepped exiting
      · cases absurd
      · exact .inr ⟨nofun, nofun, still⟩
    · exact .inr ⟨nofun, nofun, by rwa [same]⟩
    · exact .inr ⟨nofun, nofun, by rwa [same]⟩
  case gone =>
    intro address free
    refine ⟨fun core current => ?_, fun level member => ?_, fun member => ?_⟩
    · have held := inv.occupied_holds core _ (.inl current.symm)
      simp [State.holds, free] at held
    · have held := ((inv.queued level _).mp member).1.1
      simp [State.holds, free] at held
    · have held := (inv.timed_stopped _ member).1
      simp [State.holds, free] at held
  case left => exact populated.left

/-- A boot on one core, whose only thread runs and exits. -/
theorem population_oneThread : ∃ past, ∃ s : System (Fin 1), Population past s ∧
    past.length = 12 ∧ s.idle 0 = .left := by
  have run := Machine.Run.start (M := systemMachine (Fin 1)) ⟨fun _ => idleTcb, 3, rfl⟩
  have run := run.next (.sched (.spawnThread 0 7)) rfl
  have run := run.next (.sched (.wakeup 0 (.heap 7))) rfl
  have run := run.next .barrier rfl
  have run := run.next (.idleYield 0 0) rfl
  have run := run.next (.sched (.swapContext 0)) rfl
  have run := run.next (.sched (.gain 0)) rfl
  have run := run.next (.sched (.sleepReleasing 0 .exited .user none)) rfl
  have run := run.next (.sched (.yield 0 .user 0)) rfl
  have run := run.next (.sched (.swapContext 0)) rfl
  have run := run.next (.sched (.tick 4)) rfl
  have run := run.next (.sched (.gain 0)) rfl
  have run := run.next (.idleTest 0) rfl
  exact ⟨_, _, population run, rfl, rfl⟩

end TinyOs.Scheduler
