import TinyOs.SchedulerSwitch

/-! Every section of every core keeps the joint invariant, so it holds in all
reachable states. The documented invariant of the run queues and the exclusion
of double execution are read off it. -/
namespace TinyOs.Scheduler
open Library Function
variable {Core : Type*} [DecidableEq Core] {s : State Core}

/-- A normal thread that is still ready goes to the end of its queue. -/
theorem gain_requeues {core : Core} (other : s.current core ≠ s.previous core)
    (ready : (s.tcb (s.previous core)).state = .ready)
    (normal : (s.tcb (s.previous core)).type ≠ .idleThread) :
    gain s core = gained s core .ctxClean s.allocated s.activeThreads
      (update s.sched (s.tcb (s.previous core)).priority
        (s.sched (s.tcb (s.previous core)).priority ++ [s.previous core])) := by
  have back : s.previous core ≠ s.current core := Ne.symm other
  simp [gain, gained, other, back, State.setTcb, ready, normal, update_comm back, State.setPoint,
    schedQueueAdd]

/-- What `gain` does with the thread its core ran before: nothing when the core
goes on with it, and else what its state asks for. -/
theorem gain_cases (inv : Inv s) {core : Core} (point : s.point core = .switched) :
    s.current core = s.previous core ∧
      gain s core = gained s core .ctxDirty s.allocated s.activeThreads s.sched ∨
    s.current core ≠ s.previous core ∧
      ((s.tcb (s.previous core)).state = .ready ∧ (∃ c, s.previous core = .idleThread c) ∧
        gain s core = gained s core .ctxClean s.allocated s.activeThreads s.sched ∨
      (s.tcb (s.previous core)).state = .ready ∧ (∃ a, s.previous core = .heap a) ∧
        gain s core = gained s core .ctxClean s.allocated s.activeThreads
          (update s.sched (s.tcb (s.previous core)).priority
            (s.sched (s.tcb (s.previous core)).priority ++ [s.previous core])) ∨
      (s.tcb (s.previous core)).state = .stopped ∧
        gain s core = gained s core .ctxClean s.allocated s.activeThreads s.sched ∨
      (s.tcb (s.previous core)).state = .exited ∧ ∃ a, s.previous core = .heap a ∧
        gain s core = gained s core .ctxClean (update s.allocated a false) (s.activeThreads - 1)
          s.sched) := by
  have taken : chosen s core = some (s.current core) := by simp [chosen, point]
  have departing := (inv.leaving core (by simp [taken])).1
  have held := inv.occupied_holds core (s.previous core) (.inr (.inr ⟨by simp [taken], rfl⟩))
  have typed := inv.typed _ held
  by_cases same : s.current core = s.previous core
  · refine .inl ⟨same, ?_⟩
    simp [gain, gained, State.setTcb, State.setPoint, same]
  · refine .inr ⟨same, ?_⟩
    have other : s.previous core ≠ s.current core := Ne.symm same
    rcases departing with state | state | state
    · by_cases idle : (s.tcb (s.previous core)).type = .idleThread
      · refine .inl ⟨state, typed.mp idle, ?_⟩
        simp [gain, gained, same, other, State.setTcb, state, idle, update_comm other, State.setPoint]
      · refine .inr (.inl ⟨state, ?_, ?_⟩)
        · cases previous : s.previous core with
          | idleThread c => exact absurd (typed.mpr ⟨c, previous⟩) idle
          | heap a => exact ⟨a, rfl⟩
        · exact gain_requeues same state idle
    · refine .inr (.inr (.inl ⟨state, ?_⟩))
      simp [gain, gained, same, other, State.setTcb, state, update_comm other, State.setPoint]
    · obtain ⟨a, heap⟩ := heap_of_state inv (t := s.previous core) (by simp [state])
      refine .inr (.inr (.inr ⟨state, a, heap, ?_⟩))
      simp [gain, gained, same, other, State.setTcb, state, update_comm other, State.setPoint]
      simp [releaseTcb, heap]

theorem gain_gained (inv : Inv s) {core : Core} (point : s.point core = .switched) :
    ∃ phase allocated active sched, gain s core = gained s core phase allocated active sched := by
  obtain ⟨-, shape⟩ | ⟨-, ⟨-, -, shape⟩ | ⟨-, -, shape⟩ | ⟨-, shape⟩ | ⟨-, a, -, shape⟩⟩ :=
    gain_cases inv point
  all_goals exact ⟨_, _, _, _, shape⟩

theorem gain_inv (inv : Inv s) {core : Core} (point : s.point core = .switched) :
    Inv (gain s core) := by
  have taken : chosen s core = some (s.current core) := by simp [chosen, point]
  have ready := (inv.entering core _ taken).1
  obtain ⟨same, shape⟩ | ⟨other, ⟨state, ⟨c, home⟩, shape⟩ | ⟨state, normal, shape⟩ |
    ⟨state, shape⟩ | ⟨state, a, heap, shape⟩⟩ := gain_cases inv point
  all_goals rw [shape]
  · apply gained_inv inv point
    · exact fun different => absurd same different
    · intro a
      simp [← same, ready]
    · simp [same]
    · exact inv.queue_nodup
  · apply gained_inv inv point _ (fun _ => rfl)
    · simp [state]
    · simp [home]
    · exact inv.queue_nodup
  · have unqueued : ∀ level, s.previous core ∉ s.sched level := by
      intro level member
      have clean := ((inv.queued level _).mp member).1.2.2.2.1
      simp [(inv.leaving core (by simp [taken])).2] at clean
    apply gained_inv inv point _ (fun _ => rfl)
    · simp [state]
    · intro level u
      by_cases here : level = (s.tcb (s.previous core)).priority
      · subst here
        rw [update_self, List.mem_append, List.mem_singleton]
        grind
      · rw [update_of_ne here]
        grind
    · intro level
      by_cases here : level = (s.tcb (s.previous core)).priority
      · subst here
        simpa [List.nodup_append, inv.queue_nodup] using
          fun u member => ne_of_mem_of_not_mem member (unqueued _)
      · simpa [here] using inv.queue_nodup level
  · apply gained_inv inv point _ (fun _ => rfl)
    · simp [state]
    · simp [state]
    · exact inv.queue_nodup
  · apply gained_inv inv point _ (fun _ => rfl)
    · intro b
      by_cases here : b = a
      · subst here
        simp [heap, heap ▸ state]
      · simp [here, heap, Ne.symm here]
    · simp [state]
    · exact inv.queue_nodup

theorem spawnThread_inv (inv : Inv s) {address : Nat} (free : s.allocated address = false) :
    Inv (spawnThread s address) := by
  have fresh : ∀ t, s.holds t → t ≠ .heap address := by
    rintro t held rfl
    simp [State.holds, free] at held
  have tcbOf : ∀ t, t ≠ .heap address → (spawnThread s address).tcb t = s.tcb t := by
    intro t different
    simp [spawnThread, State.setTcb, different]
  have tcbNew : (spawnThread s address).tcb (.heap address) =
      { priority := 0, type := .normalThread, state := .init, phase := .ctxClean
        wakeupTime := noTimeout, its := quantum, rts := quantum
        currCause := .idle, lastCause := .idle } := by
    simp [spawnThread, State.setTcb]
  have holdsNow : ∀ t, (spawnThread s address).holds t = true ↔
      s.holds t = true ∨ t = .heap address := by
    intro t
    cases t with
    | idleThread c => simp [State.holds]
    | heap a =>
      by_cases same : a = address <;> simp [spawnThread, State.holds, State.setTcb, same]
  have occupant : ∀ c t, Occupies s c t → t ≠ .heap address :=
    fun c t occupied => fresh t (inv.occupied_holds c t occupied)
  have current : ∀ c, (spawnThread s address).current c = s.current c := fun _ => rfl
  have previous : ∀ c, (spawnThread s address).previous c = s.previous c := fun _ => rfl
  have timeouts : (spawnThread s address).timeoutList = s.timeoutList := rfl
  constructor
  case occupied_once => exact inv.occupied_once
  case idle_at_home => exact inv.idle_at_home
  case occupied_holds =>
    exact fun c t occupied => (holdsNow t).mpr (.inl (inv.occupied_holds c t occupied))
  case executing =>
    intro c running
    have away := occupant c (s.current c) (.inl rfl)
    simpa only [current, tcbOf _ away] using inv.executing c running
  case blocked =>
    intro c cause running
    have away := occupant c (s.current c) (.inl rfl)
    simpa only [Departing, current, tcbOf _ away] using inv.blocked c cause running
  case selected => exact inv.selected
  case leaving =>
    intro c switching
    have away := occupant c (s.previous c) (.inr (.inr ⟨switching, rfl⟩))
    simpa only [Departing, previous, tcbOf _ away] using inv.leaving c switching
  case entering =>
    intro c next taken
    have away := occupant c next (.inr (.inl taken))
    simpa only [previous, tcbOf _ away] using inv.entering c next taken
  case idle_state =>
    intro c
    simpa only [tcbOf (.idleThread c) (by simp)] using inv.idle_state c
  case resting =>
    intro t held unoccupied
    rcases (holdsNow t).mp held with held | rfl
    · simpa only [tcbOf _ (fresh t held)] using inv.resting t held unoccupied
    · simp [tcbNew]
  case typed =>
    intro t held
    rcases (holdsNow t).mp held with held | rfl
    · simpa only [tcbOf _ (fresh t held)] using inv.typed t held
    · simp [tcbNew]
  case range =>
    intro t held
    rcases (holdsNow t).mp held with held | rfl
    · simpa only [tcbOf _ (fresh t held)] using inv.range t held
    · simp [tcbNew, schedMaxLevel]
  case queued =>
    intro level t
    have before := inv.queued level t
    rw [show (spawnThread s address).sched level = s.sched level from rfl, before]
    unfold Runnable
    rw [holdsNow]
    by_cases same : t = .heap address
    · subst same
      simp [tcbNew, State.holds, free]
    · simp only [tcbOf t same, same, or_false]
      exact Iff.rfl
  case queue_nodup => exact inv.queue_nodup
  case timed =>
    intro t held
    rcases (holdsNow t).mp held with held | rfl
    · simpa only [timeouts, tcbOf _ (fresh t held)] using inv.timed t held
    · have absent : .heap address ∉ s.timeoutList := fun member =>
        fresh _ (inv.timed_stopped _ member).1 rfl
      simpa [timeouts, tcbNew] using absent
  case timed_stopped =>
    intro t member
    obtain ⟨held, stopped⟩ := inv.timed_stopped t member
    rw [tcbOf t (fresh t held)]
    exact ⟨(holdsNow t).mpr (.inl held), stopped⟩
  case timeout_nodup => exact inv.timeout_nodup
  case asserts => exact inv.asserts

/-- The section of `yield` in one piece: the time slice ends, expired sleepers
wake up, and a thread is chosen that may run here. -/
theorem yield_spec (inv : Inv s) {core : Core} {cause : SchedCause}
    (point : s.point core = .executing ∨ s.point core = .blocked cause)
    (remaining : TimerDuration) :
    Inv (yield s core cause remaining) ∧
      ∃ next, (yield s core cause remaining).point core = .selected next ∧
        (((yield s core cause remaining).tcb next).phase = .ctxClean ∨ next = s.current core ∨
          next = .idleThread core) := by
  have ended := endTimeSlice_inv inv point remaining
  obtain ⟨woken, points, cores⟩ := wakeupExpired_inv
    (biosClock (endTimeSlice s core cause remaining))
    (endTimeSlice s core cause remaining).timeoutList.length ended
  have blocked : (schedWakeupExpiredTimeouts (endTimeSlice s core cause remaining)).point core =
      .blocked cause := by
    unfold schedWakeupExpiredTimeouts
    rw [points]
    simp [endTimeSlice, State.setPoint]
  have current : (schedWakeupExpiredTimeouts (endTimeSlice s core cause remaining)).current core =
      s.current core := by
    unfold State.current schedWakeupExpiredTimeouts
    rw [cores]
    rfl
  obtain ⟨next, sched, count, shape, kept, choice⟩ := selectNext_spec woken blocked
  unfold yield
  change selectNext (schedWakeupExpiredTimeouts _) core = _ at shape
  rw [shape]
  refine ⟨kept, next, by simp, ?_⟩
  rw [← current]
  rcases choice with clean | rfl | home
  · exact .inl (by simpa using clean)
  · exact .inr (.inl rfl)
  · exact .inr (.inr home)

theorem step_inv {label : Label Core} {t : State Core} (inv : Inv s)
    (moved : step s label = some t) : Inv t := by
  cases stepped_of_step moved with
  | @spawnThread core address _ free =>
    exact spawnThread_inv inv free
  | @wakeup core thread _ held =>
    exact wakeup_inv inv held
  | @sleepReleasing core _ newstate cause timeout executing normal sleeps =>
    exact sleepReleasing_inv inv executing normal sleeps cause timeout
  | @yield core cause remaining point =>
    exact (yield_spec inv point remaining).1
  | @swapContext core next point =>
    exact swapContext_inv inv point
  | @gain core point =>
    exact gain_inv inv point
  | @tick clock =>
    exact ⟨inv.occupied_once, inv.idle_at_home, inv.occupied_holds, inv.executing, inv.blocked,
      inv.selected, inv.leaving, inv.entering, inv.idle_state, inv.resting, inv.typed, inv.range,
      inv.queued, inv.queue_nodup, inv.timed, inv.timed_stopped, inv.timeout_nodup, inv.asserts⟩

omit [DecidableEq Core] in
theorem boot_inv (memory : Nat → Tcb) (clock : BitVec 64) :
    Inv (boot memory clock : State Core) := by
  have occupant : ∀ c t, Occupies (boot memory clock : State Core) c t → t = .idleThread c := by
    rintro c t (current | taken | ⟨switching, _⟩)
    · exact current
    · simp [chosen, boot] at taken
    · simp [chosen, boot] at switching
  have held : ∀ t, (boot memory clock : State Core).holds t → ∃ c, t = .idleThread c := by
    rintro (c | a) held
    · exact ⟨c, rfl⟩
    · simp [State.holds, boot] at held
  have idle : ∀ c, (boot memory clock : State Core).tcb (.idleThread c) = idleTcb := fun _ => rfl
  constructor
  case occupied_once =>
    intro c d t inC inD
    simpa using (occupant c t inC).symm.trans (occupant d t inD)
  case idle_at_home =>
    intro c d occupied
    simpa using occupant c _ occupied
  case occupied_holds =>
    intro c t occupied
    rw [occupant c t occupied]
    rfl
  case executing => exact fun c _ => ⟨rfl, rfl⟩
  case blocked =>
    intro c cause point
    cases point
  case selected =>
    intro c next point
    cases point
  case leaving =>
    intro c switching
    simp [chosen, boot] at switching
  case entering =>
    intro c next taken
    simp [chosen, boot] at taken
  case idle_state => exact fun c => .inr rfl
  case resting =>
    intro t here free
    obtain ⟨c, rfl⟩ := held t here
    exact absurd (.inl rfl) (free c)
  case typed =>
    intro t here
    obtain ⟨c, rfl⟩ := held t here
    simp [idle, idleTcb]
  case range =>
    intro t here
    obtain ⟨c, rfl⟩ := held t here
    simp [idle, idleTcb, schedMaxLevel]
  case queued =>
    intro level t
    constructor
    · intro member
      cases member
    · rintro ⟨⟨here, ⟨a, rfl⟩, _⟩, _⟩
      simp [State.holds, boot] at here
  case queue_nodup => exact fun _ => List.nodup_nil
  case timed =>
    intro t here
    obtain ⟨c, rfl⟩ := held t here
    simp [idleTcb, boot]
  case timed_stopped =>
    intro t member
    cases member
  case timeout_nodup => exact List.nodup_nil
  case asserts => rfl

theorem reachable_inv (reached : (machine Core).Reachable s) : Inv s := by
  have initial : ∀ s, (machine Core).initial s → Inv s := by
    rintro s ⟨memory, clock, rfl⟩
    exact boot_inv memory clock
  have kept : ∀ s label t, Inv s → (machine Core).step s label = some t → Inv t :=
    fun _ _ _ inv moved => step_inv inv moved
  exact reached.induction initial kept

/-! ### The documented invariant of the run queues -/

/-- The core is in `sleep_releasing`, past its locked section. -/
def AboutToYield (s : State Core) (core : Core) : Prop := ∃ cause, s.point core = .blocked cause

/-- The core is past the locked section of `yield` and not yet in `gain`. -/
def AboutToGain (s : State Core) (core : Core) : Prop :=
  (∃ next, s.point core = .selected next) ∨ s.point core = .switched

/-- "A TCB is in the scheduler queue, if and only if, its state is `READY` and
its phase is `CTX_CLEAN`", with the one exception the code makes: a thread
that some core has taken out to run it next. -/
structure QueueInvariant (s : State Core) : Prop where
  queued_iff : ∀ t, s.holds t → (s.tcb t).type = .normalThread →
    ((∃ level, 0 ≤ level ∧ level < schedMaxLevel ∧ t ∈ s.sched level) ↔
      (s.tcb t).state = .ready ∧ (s.tcb t).phase = .ctxClean ∧ ∀ core, chosen s core ≠ some t)
  queued_once : ∀ t level, t ∈ s.sched level → level = (s.tcb t).priority ∧
    0 ≤ level ∧ level < schedMaxLevel ∧ (s.sched level).count t = 1 ∧ s.holds t ∧
    ∀ other, t ∈ s.sched other → other = level
  ready_kept : ∀ t, s.holds t → (s.tcb t).type = .normalThread → (s.tcb t).state = .ready →
    (∀ level, t ∉ s.sched level) →
    (∃ core, chosen s core = some t) ∨
    ((s.tcb t).phase = .ctxDirty ∧ ∃ core, (AboutToYield s core ∧ t = s.current core) ∨
      (AboutToGain s core ∧ t = s.previous core))
  idle_unqueued : ∀ t level, (s.tcb t).type = .idleThread → t ∉ s.sched level

omit [DecidableEq Core] in
theorem heap_of_normal (inv : Inv s) {t : TcbRef Core} (held : s.holds t)
    (normal : (s.tcb t).type = .normalThread) : ∃ address, t = .heap address := by
  cases t with
  | idleThread c => simp [(inv.typed _ held).mpr ⟨c, rfl⟩] at normal
  | heap address => exact ⟨address, rfl⟩

omit [DecidableEq Core] in
/-- A ready thread whose context is not saved yet still belongs to the core it
is leaving, which has `yield` or `gain` before it. -/
theorem dirty_leaves (inv : Inv s) {t : TcbRef Core} (held : s.holds t)
    (ready : (s.tcb t).state = .ready) (dirty : (s.tcb t).phase = .ctxDirty)
    (unchosen : ∀ core, chosen s core ≠ some t) :
    ∃ core, (AboutToYield s core ∧ t = s.current core) ∨
      (AboutToGain s core ∧ t = s.previous core) := by
  obtain ⟨core, occupied⟩ : ∃ core, Occupies s core t := by
    by_contra free
    have rests := inv.resting t held fun core occupied => free ⟨core, occupied⟩
    simp [rests.1] at dirty
  refine ⟨core, ?_⟩
  rcases occupied with rfl | taken | ⟨switching, rfl⟩
  · cases point : s.point core with
    | executing => simp [(inv.executing core point).1] at ready
    | blocked cause => exact .inl ⟨⟨cause, point⟩, rfl⟩
    | selected next =>
      exact .inr ⟨.inl ⟨next, point⟩, (inv.selected core next point).symm⟩
    | switched => exact absurd (by simp [chosen, point]) (unchosen core)
  · exact absurd taken (unchosen core)
  · refine .inr ⟨?_, rfl⟩
    cases point : s.point core with
    | executing | blocked cause => simp [chosen, point] at switching
    | selected next => exact .inl ⟨next, point⟩
    | switched => exact .inr point

/-- **The run queues.** In every reachable state of any number of cores the
queues hold exactly the ready threads with a saved context that nobody has
taken, once each and at their priority; no ready thread is lost. -/
theorem run_queue_invariant (reached : (machine Core).Reachable s) : QueueInvariant s := by
  have inv := reachable_inv reached
  constructor
  case queued_iff =>
    intro t held normal
    constructor
    · rintro ⟨level, _, _, member⟩
      obtain ⟨_, _, ready, clean, unchosen⟩ := ((inv.queued level t).mp member).1
      exact ⟨ready, clean, unchosen⟩
    · rintro ⟨ready, clean, unchosen⟩
      obtain ⟨low, high⟩ := inv.range t held
      refine ⟨(s.tcb t).priority, low, high, (inv.queued _ t).mpr ⟨?_, rfl⟩⟩
      exact ⟨held, heap_of_normal inv held normal, ready, clean, unchosen⟩
  case queued_once =>
    intro t level member
    obtain ⟨runnable, priority⟩ := (inv.queued level t).mp member
    obtain ⟨low, high⟩ := inv.range t runnable.1
    exact ⟨priority.symm, priority ▸ low, priority ▸ high,
      List.count_eq_one_of_mem (inv.queue_nodup level) member, runnable.1,
      fun other there => queued_once inv there member⟩
  case ready_kept =>
    intro t held normal ready unqueued
    by_cases taken : ∃ core, chosen s core = some t
    · exact .inl taken
    · have unchosen : ∀ core, chosen s core ≠ some t := fun core chooses => taken ⟨core, chooses⟩
      cases phase : (s.tcb t).phase with
      | ctxDirty => exact .inr ⟨rfl, dirty_leaves inv held ready phase unchosen⟩
      | ctxClean =>
        have heap := heap_of_normal inv held normal
        exact absurd ((inv.queued _ t).mpr ⟨⟨held, heap, ready, phase, unchosen⟩, rfl⟩)
          (unqueued _)
  case idle_unqueued =>
    intro t level idle member
    obtain ⟨held, ⟨address, heap⟩, _⟩ := ((inv.queued level t).mp member).1
    obtain ⟨core, home⟩ := (inv.typed t held).mp idle
    rw [heap] at home
    cases home

/-- Core 0 of two cores has created the thread at address 7 and woken it. -/
def oneThread : State (Fin 2) :=
  (wakeup (spawnThread (boot (fun _ => idleTcb) 0) 7) (.heap 7)).2

theorem oneThread_reachable : (machine (Fin 2)).Reachable oneThread := by
  have spawned : (machine (Fin 2)).step (boot (fun _ => idleTcb) 0) (.spawnThread 0 7) =
      some (spawnThread (boot (fun _ => idleTcb) 0) 7) := rfl
  have woken : (machine (Fin 2)).step (spawnThread (boot (fun _ => idleTcb) 0) 7)
      (.wakeup 0 (.heap 7)) = some oneThread := rfl
  have booted : (machine (Fin 2)).Reachable (boot (fun _ => idleTcb) 0) := .start ⟨_, _, rfl⟩
  exact (booted.step spawned).step woken

theorem run_queue_invariant_oneThread :
    QueueInvariant oneThread ∧ oneThread.sched 0 = [.heap 7] :=
  ⟨run_queue_invariant oneThread_reachable, by decide⟩

/-! ### One core for a thread -/

/-- No thread executes on two cores, and the switching code of each core finds
what it expects. -/
structure CoreExclusion (s : State Core) : Prop where
  current_once : ∀ c d, s.current c = s.current d → c = d
  /-- The stack of the thread that leaves is in use until `gain`. -/
  previous_elsewhere : ∀ c d, AboutToGain s c → s.previous c = s.current d → c = d
  switch_safe : ∀ c next, s.point c = .selected next →
    (s.tcb next).phase = .ctxClean ∨ next = s.current c ∨ next = .idleThread c
  lists_disjoint : ∀ t level, t ∈ s.sched level →
    t ∉ s.timeoutList ∧ ∀ other, t ∈ s.sched other → other = level
  lists_nodup : s.timeoutList.Nodup ∧ ∀ level, (s.sched level).Nodup
  previous_state : ∀ c, AboutToGain s c → s.current c ≠ s.previous c →
    (s.tcb (s.previous c)).state = .ready ∨ (s.tcb (s.previous c)).state = .exited ∨
      (s.tcb (s.previous c)).state = .stopped
  asserts : s.assertFailed = false

/-- **One core for a thread.** Over all interleavings of the sections and the
context switches of any number of cores, a thread is current on one core at
most, is switched to only with a saved context, stands in one list at most,
and no assertion of the scheduler fails. -/
theorem core_exclusion (reached : (machine Core).Reachable s) : CoreExclusion s := by
  have inv := reachable_inv reached
  have switching : ∀ c, AboutToGain s c → (chosen s c).isSome := by
    rintro c (⟨next, point⟩ | point) <;> simp [chosen, point]
  constructor
  case current_once =>
    intro c d same
    exact inv.occupied_once c d (s.current c) (.inl rfl) (.inl same)
  case previous_elsewhere =>
    intro c d gains same
    exact inv.occupied_once c d (s.previous c) (.inr (.inr ⟨switching c gains, rfl⟩)) (.inl same)
  case switch_safe =>
    intro c next point
    by_cases same : next = s.current c
    · exact .inr (.inl same)
    · have entering := inv.entering c next (by simp [chosen, point])
      exact .inl (entering.2 (by rwa [inv.selected c next point]))
  case lists_disjoint =>
    intro t level member
    have ready := ((inv.queued level t).mp member).1.2.2.1
    refine ⟨fun late => ?_, fun other there => queued_once inv there member⟩
    simp [(inv.timed_stopped t late).2] at ready
  case lists_nodup => exact ⟨inv.timeout_nodup, inv.queue_nodup⟩
  case previous_state =>
    intro c gains _
    rcases (inv.leaving c (switching c gains)).1 with ready | stopped | exited
    · exact .inl ready
    · exact .inr (.inr stopped)
    · exact .inr (.inl exited)
  case asserts => exact inv.asserts

theorem core_exclusion_oneThread : CoreExclusion oneThread ∧ oneThread.current 1 = .idleThread 1 :=
  ⟨core_exclusion oneThread_reachable, by decide⟩

end TinyOs.Scheduler
