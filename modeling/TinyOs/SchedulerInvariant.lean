import TinyOs.Scheduler

/-! The joint invariant of the scheduler. It relates the current and previous
threads of all cores to the states, phases and list membership of all TCBs.
The one loop, over expired timeouts, is covered because `schedMakeReady` keeps
the whole invariant. -/
namespace TinyOs.Scheduler
open Library Function
variable {Core : Type*}

/-- The thread a core chose in `yield` and has not started with `gain` yet. -/
def chosen (s : State Core) (core : Core) : Option (TcbRef Core) :=
  match s.point core with
  | .selected next => some next
  | .switched => some (s.current core)
  | _ => none

/-- The core runs the thread, or switches to it or away from it. -/
def Occupies (s : State Core) (core : Core) (thread : TcbRef Core) : Prop :=
  thread = s.current core ∨ chosen s core = some thread ∨
    ((chosen s core).isSome ∧ thread = s.previous core)

/-- A thread that gave up its core, its context not saved yet: woken again,
asleep or finished. -/
def Departing (s : State Core) (thread : TcbRef Core) : Prop :=
  ((s.tcb thread).state = .ready ∨ (s.tcb thread).state = .stopped ∨
    (s.tcb thread).state = .exited) ∧ (s.tcb thread).phase = .ctxDirty

/-- A thread that may stand in a run queue: its context is saved and nobody
else has taken it yet. -/
def Runnable (s : State Core) (thread : TcbRef Core) : Prop :=
  s.holds thread ∧ (∃ address, thread = .heap address) ∧ (s.tcb thread).state = .ready ∧
    (s.tcb thread).phase = .ctxClean ∧ ∀ core, chosen s core ≠ some thread

/-- What holds between any two steps of the cores: who is where, what the states and
phases say of it, and which lists that puts a thread on. -/
structure Inv (s : State Core) : Prop where
  occupied_once : ∀ c d t, Occupies s c t → Occupies s d t → c = d
  idle_at_home : ∀ c d, Occupies s c (.idleThread d) → d = c
  occupied_holds : ∀ c t, Occupies s c t → s.holds t
  executing : ∀ c, s.point c = .executing →
    (s.tcb (s.current c)).state = .running ∧ (s.tcb (s.current c)).phase = .ctxDirty
  blocked : ∀ c cause, s.point c = .blocked cause → Departing s (s.current c)
  selected : ∀ c next, s.point c = .selected next → s.previous c = s.current c
  leaving : ∀ c, (chosen s c).isSome → Departing s (s.previous c)
  entering : ∀ c next, chosen s c = some next → (s.tcb next).state = .ready ∧
    (next ≠ s.previous c → (s.tcb next).phase = .ctxClean)
  idle_state : ∀ c, (s.tcb (.idleThread c)).state = .ready ∨
    (s.tcb (.idleThread c)).state = .running
  resting : ∀ t, s.holds t → (∀ c, ¬ Occupies s c t) → (s.tcb t).phase = .ctxClean ∧
    ((s.tcb t).state = .init ∨ (s.tcb t).state = .ready ∨ (s.tcb t).state = .stopped)
  typed : ∀ t, s.holds t → ((s.tcb t).type = .idleThread ↔ ∃ c, t = .idleThread c)
  range : ∀ t, s.holds t → 0 ≤ (s.tcb t).priority ∧ (s.tcb t).priority < schedMaxLevel
  queued : ∀ level t, t ∈ s.sched level ↔ Runnable s t ∧ (s.tcb t).priority = level
  queue_nodup : ∀ level, (s.sched level).Nodup
  timed : ∀ t, s.holds t → (t ∈ s.timeoutList ↔ (s.tcb t).wakeupTime ≠ noTimeout)
  timed_stopped : ∀ t, t ∈ s.timeoutList → s.holds t ∧ (s.tcb t).state = .stopped
  timeout_nodup : s.timeoutList.Nodup
  asserts : s.assertFailed = false

variable {s : State Core}

/-- Idle threads are only ever ready or running. -/
theorem heap_of_state (inv : Inv s) {t : TcbRef Core}
    (other : (s.tcb t).state ≠ .ready ∧ (s.tcb t).state ≠ .running) :
    ∃ address, t = .heap address := by
  cases t with
  | idleThread core => exact absurd (inv.idle_state core) (by simp [other])
  | heap address => exact ⟨address, rfl⟩

/-- Two threads in the same run queue level are queued for the same reason, so
a thread stands in one queue only. -/
theorem queued_once (inv : Inv s) {t : TcbRef Core} {level other : Int}
    (here : t ∈ s.sched level) (there : t ∈ s.sched other) : level = other :=
  ((inv.queued level t).mp here).2.symm.trans ((inv.queued other t).mp there).2

/-- Only ready threads stand in the run queues. -/
theorem unqueued_of_state (inv : Inv s) {t : TcbRef Core} (other : (s.tcb t).state ≠ .ready)
    (level : Int) : t ∉ s.sched level :=
  fun member => other ((inv.queued level t).mp member).1.2.2.1

/-- A clean thread that nobody has chosen is on no core at all. -/
theorem clean_rests (inv : Inv s) {t : TcbRef Core} (clean : (s.tcb t).phase = .ctxClean)
    (free : ∀ core, chosen s core ≠ some t) (core : Core) : ¬ Occupies s core t := by
  rintro (rfl | taken | ⟨switching, rfl⟩)
  · cases point : s.point core with
    | executing => simp [inv.executing core point] at clean
    | blocked cause => simp [(inv.blocked core cause point).2] at clean
    | selected next =>
      have departed := inv.leaving core (by simp [chosen, point])
      rw [inv.selected core next point] at departed
      simp [departed.2] at clean
    | switched => exact free core (by simp [chosen, point])
  · exact free core taken
  · simp [(inv.leaving core switching).2] at clean

/-- The clock and the timeout of a timed wait are both multiples of 8
microseconds, so a deadline is never mistaken for `NO_TIMEOUT`. -/
theorem deadline_ne_noTimeout (clock timeout : BitVec 64) :
    clock * 1000 + timeout * 1000 ≠ noTimeout := by
  intro same
  have numbers := congrArg BitVec.toNat same
  have thousand : (1000 : BitVec 64).toNat = 1000 := rfl
  have last : noTimeout.toNat = 2 ^ 64 - 1 := rfl
  simp only [BitVec.toNat_add, BitVec.toNat_mul, thousand, last] at numbers
  omega

/-- Whatever the cause, a priority stays on one of the levels. -/
theorem adjustPriority_range {priority : Int} (low : 0 ≤ priority)
    (high : priority < schedMaxLevel) (cause : SchedCause) :
    0 ≤ adjustPriority cause priority ∧ adjustPriority cause priority < schedMaxLevel := by
  unfold adjustPriority schedMaxLevel at *
  cases cause <;> simp <;> grind

/-! ### Waking a thread -/

variable [DecidableEq Core]

/-- The state after `sched_make_ready`, when all its tests are as the
invariant says. -/
def readied (s : State Core) (t : TcbRef Core) : State Core :=
  { s with
    tcb := update s.tcb t { s.tcb t with state := .ready, wakeupTime := noTimeout }
    timeoutList := s.timeoutList.erase t
    sched := if (s.tcb t).phase = .ctxClean then
      update s.sched (s.tcb t).priority (s.sched (s.tcb t).priority ++ [t]) else s.sched }

section Readied
variable (t u : TcbRef Core) (core : Core)

@[simp] theorem readied_tcb : (readied s t).tcb u =
    if u = t then { s.tcb t with state := .ready, wakeupTime := noTimeout } else s.tcb u := by
  simp [readied, update_apply]

@[simp] theorem readied_current : (readied s t).current core = s.current core := rfl
@[simp] theorem readied_previous : (readied s t).previous core = s.previous core := rfl
@[simp] theorem readied_point : (readied s t).point core = s.point core := rfl
@[simp] theorem readied_holds : (readied s t).holds u = s.holds u := rfl
@[simp] theorem readied_clock : (readied s t).systemClock = s.systemClock := rfl
@[simp] theorem chosen_readied : chosen (readied s t) core = chosen s core := rfl
@[simp] theorem occupies_readied : Occupies (readied s t) core u ↔ Occupies s core u := Iff.rfl

end Readied

/-- `sched_make_ready` takes a sleeper off the timeout list and queues it, if its context
is saved; no assertion of it fails. -/
theorem makeReady_eq (inv : Inv s) {t : TcbRef Core} (held : s.holds t)
    (waiting : (s.tcb t).state = .stopped ∨ (s.tcb t).state = .init) :
    schedMakeReady s t = readied s t := by
  have unqueued : ∀ level, t ∉ s.sched level :=
    unqueued_of_state inv (by rcases waiting with state | state <;> simp [state])
  have same : (fun level => (s.sched level).erase t) = s.sched := by
    funext level
    exact List.erase_of_not_mem (unqueued level)
  have asserts := inv.asserts
  by_cases sleeping : (s.tcb t).wakeupTime = noTimeout
  · have absent : t ∉ s.timeoutList := by simp [inv.timed t held, sleeping]
    have kept : { s.tcb t with state := .ready, wakeupTime := noTimeout } =
        { s.tcb t with state := .ready } := by rw [← sleeping]
    rw [readied, List.erase_of_not_mem absent, kept]
    cases s
    simp_all [schedMakeReady, State.check, State.setTcb, schedQueueAdd]
    split <;> simp_all
  · have present : t ∈ s.timeoutList := (inv.timed t held).mpr sleeping
    have stopped := (inv.timed_stopped t present).2
    cases s
    simp_all [readied, schedMakeReady, State.check, State.setTcb, schedQueueAdd, rlistRemove,
      linked]
    split <;> simp_all

/-- A thread that is made ready may still be on its way out of a core; then `gain` will
queue it. -/
theorem readied_inv (inv : Inv s) {t : TcbRef Core} (held : s.holds t)
    (waiting : (s.tcb t).state = .stopped ∨ (s.tcb t).state = .init) : Inv (readied s t) := by
  have other : (s.tcb t).state ≠ .ready ∧ (s.tcb t).state ≠ .running := by
    rcases waiting with state | state <;> simp [state]
  obtain ⟨address, heap⟩ := heap_of_state inv other
  have unqueued : ∀ level, t ∉ s.sched level := unqueued_of_state inv other.1
  have unchosen : ∀ core, chosen s core ≠ some t :=
    fun core taken => other.1 (inv.entering core t taken).1
  constructor
  case occupied_once => exact inv.occupied_once
  case idle_at_home => exact inv.idle_at_home
  case occupied_holds => exact inv.occupied_holds
  case executing =>
    intro c point
    have before := inv.executing c point
    have away : s.current c ≠ t := fun same => other.2 (same ▸ before.1)
    simpa [away] using before
  case blocked =>
    intro c cause point
    have before := inv.blocked c cause point
    unfold Departing at *
    grind [readied_tcb, readied_current, readied_previous]
  case selected => exact inv.selected
  case leaving =>
    intro c switching
    have before := inv.leaving c switching
    unfold Departing at *
    grind [readied_tcb, readied_current, readied_previous]
  case entering =>
    intro c next taken
    have before := inv.entering c next taken
    have away : next ≠ t := fun same => unchosen c (same ▸ taken)
    simpa [away] using before
  case idle_state =>
    intro c
    have before := inv.idle_state c
    grind [readied_tcb, readied_current, readied_previous]
  case resting =>
    intro u heldU free
    have before := inv.resting u heldU free
    grind [readied_tcb, readied_current, readied_previous]
  case typed =>
    intro u heldU
    have before := inv.typed u heldU
    grind [readied_tcb, readied_current, readied_previous]
  case range =>
    intro u heldU
    have before := inv.range u heldU
    grind [readied_tcb, readied_current, readied_previous]
  case queued =>
    intro level u
    have before := inv.queued level u
    simp only [Runnable, readied_tcb, readied_holds, chosen_readied] at before ⊢
    by_cases same : u = t
    · subst same
      simp only [readied, heap]
      split <;> grind [update_apply]
    · simp only [readied, same, if_false]
      split <;> grind [update_apply]
  case queue_nodup =>
    intro level
    have before := inv.queue_nodup level
    simp only [readied]
    split
    · by_cases same : level = (s.tcb t).priority
      · subst same
        simpa [List.nodup_append, before] using fun u member => ne_of_mem_of_not_mem member (unqueued _)
      · simpa [update_of_ne same] using before
    · exact before
  case timed =>
    intro u heldU
    have before := inv.timed u heldU
    by_cases same : u = t
    · subst same
      simp [readied, List.Nodup.mem_erase_iff inv.timeout_nodup]
    · simpa [readied, update_of_ne same, List.mem_erase_of_ne same] using before
  case timed_stopped =>
    intro u member
    obtain ⟨different, before⟩ := (List.Nodup.mem_erase_iff inv.timeout_nodup).mp member
    simpa [different] using inv.timed_stopped u before
  case timeout_nodup => exact inv.timeout_nodup.erase t
  case asserts => exact inv.asserts

theorem makeReady_inv (inv : Inv s) {t : TcbRef Core} (held : s.holds t)
    (waiting : (s.tcb t).state = .stopped ∨ (s.tcb t).state = .init) :
    Inv (schedMakeReady s t) := by
  rw [makeReady_eq inv held waiting]
  exact readied_inv inv held waiting

/-- `wakeup` of any thread that has a TCB. -/
theorem wakeup_inv (inv : Inv s) {t : TcbRef Core} (held : s.holds t) :
    Inv (wakeup s t).2 := by
  unfold wakeup
  split
  · exact makeReady_inv inv held ‹_›
  · exact inv

/-- The loop over the expired timeouts, by induction on its rounds; no core moves. -/
theorem wakeupExpired_inv (now : TimerDuration) (fuel : Nat) (inv : Inv s) :
    Inv (wakeupExpired now fuel s) ∧ (wakeupExpired now fuel s).point = s.point ∧
      (wakeupExpired now fuel s).cctx = s.cctx := by
  induction fuel generalizing s with
  | zero => exact ⟨inv, rfl, rfl⟩
  | succ fuel ih =>
    unfold wakeupExpired
    cases list : s.timeoutList with
    | nil => exact ⟨inv, rfl, rfl⟩
    | cons t rest =>
      obtain ⟨held, stopped⟩ := inv.timed_stopped t (by simp [list])
      simp only
      split
      · exact ⟨inv, rfl, rfl⟩
      · rw [makeReady_eq inv held (.inl stopped)]
        exact ih (readied_inv inv held (.inl stopped))

/-! ### Leaving a core -/

/-- The state after a core's thread gave up its time slice: its TCB and the
timeout list changed, and `yield` comes next or is already running. -/
def departed (s : State Core) (core : Core) (tcb : Tcb) (list : List (TcbRef Core))
    (cause : SchedCause) : State Core :=
  { s with
    tcb := update s.tcb (s.current core) tcb
    timeoutList := list
    point := update s.point core (.blocked cause) }

section Departed
variable (core other : Core) (tcb : Tcb) (list : List (TcbRef Core)) (cause : SchedCause)
  (u : TcbRef Core)

@[simp] theorem departed_tcb : (departed s core tcb list cause).tcb u =
    if u = s.current core then tcb else s.tcb u := by
  simp [departed, update_apply]

@[simp] theorem departed_point : (departed s core tcb list cause).point other =
    if other = core then .blocked cause else s.point other := by
  simp [departed, update_apply]

@[simp] theorem departed_current : (departed s core tcb list cause).current other =
    s.current other := rfl
@[simp] theorem departed_previous : (departed s core tcb list cause).previous other =
    s.previous other := rfl
@[simp] theorem departed_sched : (departed s core tcb list cause).sched = s.sched := rfl
@[simp] theorem departed_holds : (departed s core tcb list cause).holds u = s.holds u := by
  cases u <;> rfl

theorem chosen_departed (out : chosen s core = none) :
    chosen (departed s core tcb list cause) other = chosen s other := by
  unfold chosen
  by_cases same : other = core
  · subst same
    simpa [chosen] using out.symm
  · simp [same]

/-- Giving up a time slice gives up no core. -/
theorem occupies_departed (out : chosen s core = none) :
    Occupies (departed s core tcb list cause) other u ↔ Occupies s other u := by
  simp [Occupies, chosen_departed core other tcb list cause out]

end Departed

omit [DecidableEq Core] in
theorem chosen_of_point {core : Core}
    (point : s.point core = .executing ∨ ∃ cause, s.point core = .blocked cause) :
    chosen s core = none := by
  rcases point with point | ⟨cause, point⟩ <;> simp [chosen, point]

omit [DecidableEq Core] in
/-- The context of a thread that runs is not saved. -/
theorem current_dirty (inv : Inv s) {core : Core}
    (point : s.point core = .executing ∨ ∃ cause, s.point core = .blocked cause) :
    (s.tcb (s.current core)).phase = .ctxDirty := by
  rcases point with point | ⟨cause, point⟩
  · exact (inv.executing core point).2
  · exact (inv.blocked core cause point).2

section Departs
variable {core : Core} {tcb : Tcb} {list : List (TcbRef Core)} {cause : SchedCause} (inv : Inv s)
  (point : s.point core = .executing ∨ ∃ cause, s.point core = .blocked cause)
include inv

omit [DecidableEq Core] in
/-- A thread runs on one core only. -/
theorem current_elsewhere {c : Core} (different : c ≠ core) {u : TcbRef Core}
    (occupied : Occupies s c u) : u ≠ s.current core :=
  fun same => different (inv.occupied_once c core u occupied (.inl same))

include point

omit [DecidableEq Core] in
theorem current_unchosen (c : Core) : chosen s c ≠ some (s.current core) := by
  intro taken
  have same := inv.occupied_once c core _ (.inr (.inl taken)) (.inl rfl)
  simp [same, chosen_of_point point] at taken

theorem departed_blocked (dirty : tcb.phase = .ctxDirty)
    (state : tcb.state = .ready ∨ tcb.state = .stopped ∨ tcb.state = .exited) (c : Core)
    (reason : SchedCause) (running : (departed s core tcb list cause).point c = .blocked reason) :
    Departing (departed s core tcb list cause) ((departed s core tcb list cause).current c) := by
  by_cases same : c = core
  · subst same
    simpa [Departing] using ⟨state, dirty⟩
  · have away := current_elsewhere inv same (.inl rfl)
    simpa [Departing, away] using inv.blocked c reason (by simpa [same] using running)

theorem departed_leaving (c : Core)
    (switching : (chosen (departed s core tcb list cause) c).isSome) :
    Departing (departed s core tcb list cause) ((departed s core tcb list cause).previous c) := by
  have out := chosen_of_point point
  rw [chosen_departed core c tcb list cause out] at switching
  have different : c ≠ core := by
    rintro rfl
    simp [out] at switching
  have away := current_elsewhere inv different (.inr (.inr ⟨switching, rfl⟩))
  simpa [Departing, away] using inv.leaving c switching

theorem departed_resting (u : TcbRef Core) (held : (departed s core tcb list cause).holds u)
    (free : ∀ c, ¬ Occupies (departed s core tcb list cause) c u) :
    ((departed s core tcb list cause).tcb u).phase = .ctxClean ∧
      (((departed s core tcb list cause).tcb u).state = .init ∨
        ((departed s core tcb list cause).tcb u).state = .ready ∨
        ((departed s core tcb list cause).tcb u).state = .stopped) := by
  have occupiesSame := fun other =>
    occupies_departed core other tcb list cause u (chosen_of_point point)
  have away : u ≠ s.current core := by
    rintro rfl
    exact free core ((occupiesSame core).mpr (.inl rfl))
  simpa [away] using inv.resting u (by simpa using held) fun c => (occupiesSame c).not.mp (free c)

/-- The thread that departs is dirty, so it was and is in no queue. -/
theorem departed_queued (dirty : tcb.phase = .ctxDirty) (level : Int) (u : TcbRef Core) :
    u ∈ (departed s core tcb list cause).sched level ↔
      Runnable (departed s core tcb list cause) u ∧
        ((departed s core tcb list cause).tcb u).priority = level := by
  have was := current_dirty inv point
  have chosenSame := fun other => chosen_departed core other tcb list cause (chosen_of_point point)
  simp only [Runnable, chosenSame, departed_holds, departed_tcb]
  have before := inv.queued level u
  by_cases same : u = s.current core
  · subst same
    simp only [Runnable, was] at before
    simpa [dirty] using before
  · simpa [Runnable, same] using before

/-- What is asked of the TCB with which a thread leaves its core. -/
theorem departed_inv (dirty : tcb.phase = .ctxDirty)
    (state : tcb.state = .ready ∨ tcb.state = .stopped ∨ tcb.state = .exited)
    (type : tcb.type = (s.tcb (s.current core)).type)
    (range : 0 ≤ tcb.priority ∧ tcb.priority < schedMaxLevel)
    (idle : ∀ c, s.current core = .idleThread c → tcb.state = .ready)
    (members : ∀ u, u ∈ list ↔ (u ≠ s.current core ∧ u ∈ s.timeoutList) ∨
      (u = s.current core ∧ tcb.wakeupTime ≠ noTimeout))
    (nodup : list.Nodup) (stopped : tcb.wakeupTime ≠ noTimeout → tcb.state = .stopped)
    (cause : SchedCause) : Inv (departed s core tcb list cause) := by
  have out := chosen_of_point point
  have chosenSame := fun other => chosen_departed core other tcb list cause out
  have occupiesSame := fun other u => occupies_departed core other tcb list cause u out
  constructor
  case occupied_once => simpa only [occupiesSame] using inv.occupied_once
  case idle_at_home => simpa only [occupiesSame] using inv.idle_at_home
  case occupied_holds => simpa only [occupiesSame, departed_holds] using inv.occupied_holds
  case executing =>
    intro c running
    by_cases same : c = core
    · simp [same] at running
    · have away := current_elsewhere inv same (.inl rfl)
      simpa [away] using inv.executing c (by simpa [same] using running)
  case blocked => exact departed_blocked inv point dirty state
  case selected =>
    intro c next running
    by_cases same : c = core
    · simp [same] at running
    · exact inv.selected c next (by simpa [same] using running)
  case leaving => exact departed_leaving inv point
  case entering =>
    intro c next taken
    rw [chosenSame] at taken
    have away : next ≠ s.current core := fun same => current_unchosen inv point c (same ▸ taken)
    simpa [away] using inv.entering c next taken
  case idle_state =>
    intro c
    by_cases same : s.current core = .idleThread c
    · simp [same, idle c same]
    · simpa [Ne.symm same] using inv.idle_state c
  case resting => exact departed_resting inv point
  case typed =>
    intro u held
    have before := inv.typed u (by simpa using held)
    by_cases same : u = s.current core
    · subst same
      simpa [type] using before
    · simpa [same] using before
  case range =>
    intro u held
    by_cases same : u = s.current core
    · simpa [same] using range
    · simpa [same] using inv.range u (by simpa using held)
  case queued => exact departed_queued inv point dirty
  case queue_nodup => exact inv.queue_nodup
  case timed =>
    intro u held
    have before := inv.timed u (by simpa using held)
    rw [show (departed s core tcb list cause).timeoutList = list from rfl, members]
    by_cases same : u = s.current core
    · simp [same]
    · simpa [same] using before
  case timed_stopped =>
    intro u member
    rcases (members u).mp member with ⟨away, before⟩ | ⟨same, late⟩
    · simpa [away] using inv.timed_stopped u before
    · subst same
      simpa using ⟨inv.occupied_holds core _ (.inl rfl), stopped late⟩
  case timeout_nodup => exact nodup
  case asserts => exact inv.asserts

end Departs

/-- The first part of `yield`, before it chooses. -/
theorem endTimeSlice_inv (inv : Inv s) {core : Core} {cause : SchedCause}
    (point : s.point core = .executing ∨ s.point core = .blocked cause)
    (remaining : TimerDuration) : Inv (endTimeSlice s core cause remaining) := by
  have held := inv.occupied_holds core _ (.inl rfl)
  have point' : s.point core = .executing ∨ ∃ cause, s.point core = .blocked cause :=
    point.imp_right fun blocked => ⟨cause, blocked⟩
  have state : (s.tcb (s.current core)).state = .running ∨ Departing s (s.current core) := by
    rcases point with running | blocked
    · exact .inl (inv.executing core running).1
    · exact .inr (inv.blocked core cause blocked)
  have member := inv.timed _ held
  have asleep := inv.timed_stopped (s.current core)
  change Inv (departed s core _ s.timeoutList cause)
  apply departed_inv inv point'
  · exact current_dirty inv point'
  · unfold Departing at state
    grind
  · rfl
  · exact adjustPriority_range (inv.range _ held).1 (inv.range _ held).2 cause
  · intro c same
    have ready := inv.idle_state c
    rw [← same] at ready
    simp only
    grind
  · intro u
    by_cases same : u = s.current core
    · simp [same, member]
    · simp [same]
  · exact inv.timeout_nodup
  · intro late
    simp [(asleep (member.mpr late)).2]

/-- A thread that goes to sleep with a deadline. -/
def timedTcb (s : State Core) (core : Core) (milliseconds : BitVec 64) : Tcb :=
  { s.tcb (s.current core) with
    state := .stopped, wakeupTime := biosClock s + sleepTimeout (some milliseconds) }

/-- The deadline of a timed sleep is always registered. -/
theorem sleepReleasing_timed (inv : Inv s) (core : Core) (cause : SchedCause)
    (milliseconds : BitVec 64) :
    sleepReleasing s core .stopped cause (sleepTimeout (some milliseconds)) =
      departed s core (timedTcb s core milliseconds)
        (s.timeoutList.orderedInsert (fun new entry =>
          (update s.tcb (s.current core) (timedTcb s core milliseconds) new).wakeupTime <
          (update s.tcb (s.current core) (timedTcb s core milliseconds) entry).wakeupTime)
          (s.current core)) cause := by
  have asserts := inv.asserts
  have timed : sleepTimeout (some milliseconds) ≠ noTimeout := by
    have late := deadline_ne_noTimeout 0 milliseconds
    simpa [sleepTimeout] using late
  simp [sleepReleasing, schedRegisterTimeout, timed, departed, timedTcb, State.check, State.setTcb,
    State.setPoint]
  exact ⟨rfl, rfl⟩

/-- Without a timeout, and for a thread that exits, the timeout list stays as it is. -/
theorem sleepReleasing_untimed (inv : Inv s) (core : Core) {newstate : ThreadState}
    (newstateOk : newstate = .stopped ∨ newstate = .exited) (cause : SchedCause)
    {timeout : Option (BitVec 64)} (untimed : newstate = .exited ∨ timeout = none) :
    sleepReleasing s core newstate cause (sleepTimeout timeout) =
      departed s core { s.tcb (s.current core) with state := newstate } s.timeoutList cause := by
  have asserts := inv.asserts
  have unregistered : ¬ (newstate ≠ .exited ∧ sleepTimeout timeout ≠ noTimeout) := by
    rintro ⟨sleeps, timed⟩
    obtain exits | rfl := untimed
    · exact sleeps exits
    · exact timed rfl
  cases s
  simp_all [sleepReleasing, departed, schedRegisterTimeout, State.check, State.setTcb,
    State.setPoint, State.current]
  grind

/-- `sleep_releasing` up to its call of `yield`, with a timeout or without. -/
theorem sleepReleasing_inv (inv : Inv s) {core : Core} (point : s.point core = .executing)
    {address : Nat} (normal : s.current core = .heap address) {newstate : ThreadState}
    (newstateOk : newstate = .stopped ∨ newstate = .exited) (cause : SchedCause)
    (timeout : Option (BitVec 64)) :
    Inv (sleepReleasing s core newstate cause (sleepTimeout timeout)) := by
  have held := inv.occupied_holds core _ (.inl rfl)
  obtain ⟨running, dirty⟩ := inv.executing core point
  have untimed : s.current core ∉ s.timeoutList := by
    intro member
    simp [(inv.timed_stopped _ member).2] at running
  have never : (s.tcb (s.current core)).wakeupTime = noTimeout := by
    by_contra late
    exact untimed ((inv.timed _ held).mpr late)
  by_cases timed : newstate = .exited ∨ timeout = none
  · rw [sleepReleasing_untimed inv core newstateOk cause timed]
    apply departed_inv inv (.inl point)
    · exact dirty
    · exact .inr newstateOk
    · rfl
    · exact inv.range _ held
    · simp [normal]
    · grind
    · exact inv.timeout_nodup
    · exact fun late => absurd never late
  · obtain ⟨sleeps, registers⟩ := not_or.mp timed
    obtain rfl := newstateOk.resolve_right sleeps
    obtain ⟨milliseconds, rfl⟩ := Option.ne_none_iff_exists'.mp registers
    have late : biosClock s + sleepTimeout (some milliseconds) ≠ noTimeout :=
      deadline_ne_noTimeout s.systemClock milliseconds
    rw [sleepReleasing_timed inv core cause milliseconds]
    apply departed_inv inv (.inl point)
    · exact dirty
    · exact .inr newstateOk
    · rfl
    · exact inv.range _ held
    · simp [normal]
    · intro u
      simp only [List.mem_orderedInsert]
      tauto
    · exact (List.perm_orderedInsert _ _ _).nodup_iff.mpr
        (List.nodup_cons.mpr ⟨untimed, inv.timeout_nodup⟩)
    · exact fun _ => rfl

end TinyOs.Scheduler
