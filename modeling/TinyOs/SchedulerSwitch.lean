import TinyOs.SchedulerInvariant

/-! The context switch keeps the joint invariant: the choice made in `yield`,
the switch itself, and `gain` on the other side of it. Together with the steps
that leave or wake a thread, this covers every section of every core. -/
namespace TinyOs.Scheduler
open Library Function
variable {Core : Type*} [DecidableEq Core] {s : State Core}

/-! ### Choosing the next thread -/

omit [DecidableEq Core] in
/-- What a scan did: it took the head of one queue, or it found nothing and
changed nothing. -/
theorem schedScan_cases (levels : List Int) (s : State Core) :
    (∃ level thread queue, s.sched level = thread :: queue ∧
      (schedScan levels s).1 = some thread ∧
      ∃ count, (schedScan levels s).2 =
        { s with sched := update s.sched level queue, scheduled := count }) ∨
    ((schedScan levels s).1 = none ∧ (schedScan levels s).2 = s) := by
  induction levels with
  | nil => exact .inr ⟨rfl, rfl⟩
  | cons i rest ih =>
    unfold schedScan
    split
    · cases queue : s.sched i with
      | nil => exact ih
      | cons thread queue' => exact .inl ⟨i, thread, queue', queue, rfl, _, rfl⟩
    · cases queue : s.sched (i % 4) with
      | nil => exact ih
      | cons thread queue' => exact .inl ⟨i % 4, thread, queue', queue, rfl, _, rfl⟩

/-- The state after `yield` unlocked `sched_spinlock`, having chosen `next`
and left `sched` in the queues. -/
def selectedState (s : State Core) (core : Core) (next : TcbRef Core)
    (sched : Int → List (TcbRef Core)) (count : Int) : State Core :=
  { s with
    tcb := update s.tcb next { s.tcb next with its := quantum }
    sched := sched
    scheduled := count
    cctx := update s.cctx core { s.cctx core with previousThread := s.current core }
    point := update s.point core (.selected next) }

section Selected
variable (core other : Core) (next u : TcbRef Core) (sched : Int → List (TcbRef Core))
  (count : Int)

@[simp] theorem selectedState_tcb : (selectedState s core next sched count).tcb u =
    if u = next then { s.tcb next with its := quantum } else s.tcb u := by
  simp [selectedState, update_apply]

@[simp] theorem selectedState_point : (selectedState s core next sched count).point other =
    if other = core then .selected next else s.point other := by
  simp [selectedState, update_apply]

@[simp] theorem selectedState_current : (selectedState s core next sched count).current other =
    s.current other := by
  by_cases same : other = core
  · simp [selectedState, State.current, same]
  · simp [selectedState, State.current, same]

@[simp] theorem selectedState_previous : (selectedState s core next sched count).previous other =
    if other = core then s.current core else s.previous other := by
  by_cases same : other = core
  · simp [selectedState, State.previous, State.current, same]
  · simp [selectedState, State.previous, same]

@[simp] theorem selectedState_holds : (selectedState s core next sched count).holds u =
    s.holds u := by
  cases u <;> rfl

@[simp] theorem chosen_selectedState : chosen (selectedState s core next sched count) other =
    if other = core then some next else chosen s other := by
  unfold chosen
  by_cases same : other = core
  · simp [same]
  · simp [same]

theorem occupies_selectedState (out : chosen s core = none) :
    Occupies (selectedState s core next sched count) other u ↔
      Occupies s other u ∨ (other = core ∧ u = next) := by
  unfold Occupies
  by_cases same : other = core
  · subst same
    simp only [selectedState_current, chosen_selectedState, selectedState_previous, out]
    grind
  · simp [same]

end Selected

section Selects
variable {core : Core} {cause : SchedCause} {next : TcbRef Core} {sched : Int → List (TcbRef Core)}
  {count : Int}

/-- A core at any other point is not the one that has chosen. -/
theorem selectedState_point_other {c : Core} {elsewhere : Point Core}
    (running : (selectedState s core next sched count).point c = elsewhere)
    (other : elsewhere ≠ .selected next) : c ≠ core ∧ s.point c = elsewhere := by
  rw [selectedState_point] at running
  split at running
  next => exact absurd running.symm other
  next different => exact ⟨different, running⟩

variable (inv : Inv s) (point : s.point core = .blocked cause)
include inv

theorem selectedState_blocked (ready : (s.tcb next).state = .ready) (c : Core) (reason : SchedCause)
    (running : (selectedState s core next sched count).point c = .blocked reason) :
    Departing (selectedState s core next sched count)
      ((selectedState s core next sched count).current c) := by
  obtain ⟨-, running⟩ := selectedState_point_other running nofun
  have before := inv.blocked c reason running
  unfold Departing at *
  grind [selectedState_tcb, selectedState_current]

include point

theorem selectedState_occupied_once (free : ∀ c, Occupies s c next → c = core) (c d : Core)
    (t : TcbRef Core) (inC : Occupies (selectedState s core next sched count) c t)
    (inD : Occupies (selectedState s core next sched count) d t) : c = d := by
  have out := chosen_of_point (.inr ⟨cause, point⟩)
  rw [occupies_selectedState _ _ _ _ _ _ out] at inC inD
  rcases inC with inC | ⟨rfl, rfl⟩
  · rcases inD with inD | ⟨rfl, rfl⟩
    · exact inv.occupied_once c d t inC inD
    · exact free c inC
  · rcases inD with inD | ⟨rfl, -⟩
    · exact (free d inD).symm
    · rfl

/-- The core that has chosen leaves the thread that it was about to leave. -/
theorem selectedState_leaving (ready : (s.tcb next).state = .ready) (c : Core)
    (switching : (chosen (selectedState s core next sched count) c).isSome) :
    Departing (selectedState s core next sched count)
      ((selectedState s core next sched count).previous c) := by
  have before : c ≠ core → Departing s (s.previous c) := fun different =>
    inv.leaving c (by simpa [different] using switching)
  have departing := inv.blocked core cause point
  unfold Departing at *
  grind [selectedState_tcb, selectedState_previous]

theorem selectedState_entering (ready : (s.tcb next).state = .ready)
    (clean : next ≠ s.current core → (s.tcb next).phase = .ctxClean) (c : Core) (n : TcbRef Core)
    (taken : chosen (selectedState s core next sched count) c = some n) :
    ((selectedState s core next sched count).tcb n).state = .ready ∧
      (n ≠ (selectedState s core next sched count).previous c →
        ((selectedState s core next sched count).tcb n).phase = .ctxClean) := by
  by_cases same : c = core
  · subst same
    obtain rfl : next = n := by simpa using taken
    simpa [ready] using clean
  · have before := inv.entering c n (by simpa [same] using taken)
    grind [selectedState_tcb, selectedState_previous]

/-- The thread that has been chosen is in no queue any more, and the others are where they
were. -/
theorem selectedState_queued (queues : ∀ level u, u ∈ sched level ↔ u ∈ s.sched level ∧ u ≠ next)
    (level : Int) (u : TcbRef Core) :
    u ∈ (selectedState s core next sched count).sched level ↔
      Runnable (selectedState s core next sched count) u ∧
        ((selectedState s core next sched count).tcb u).priority = level := by
  have out := chosen_of_point (.inr ⟨cause, point⟩)
  have before := inv.queued level u
  rw [show (selectedState s core next sched count).sched = sched from rfl, queues, before]
  simp only [Runnable, selectedState_holds, selectedState_tcb, chosen_selectedState]
  by_cases same : u = next
  · simp only [same]
    grind
  · simp only [same]
    grind

/-- Choosing a thread keeps the invariant when that thread is on no core, or
is the one that yields, or is the idle thread of this core. -/
theorem selectedState_inv (count : Int) (held : s.holds next) (ready : (s.tcb next).state = .ready)
    (clean : next ≠ s.current core → (s.tcb next).phase = .ctxClean)
    (free : ∀ c, Occupies s c next → c = core)
    (home : ∀ c, next = .idleThread c → c = core)
    (queues : ∀ level u, u ∈ sched level ↔ u ∈ s.sched level ∧ u ≠ next)
    (nodup : ∀ level, (sched level).Nodup) :
    Inv (selectedState s core next sched count) := by
  have out := chosen_of_point (.inr ⟨cause, point⟩)
  have occupiesNow := fun other u => occupies_selectedState core other next u sched count out
  constructor
  case occupied_once => exact selectedState_occupied_once inv point free
  case idle_at_home =>
    intro c d occupied
    rcases (occupiesNow c _).mp occupied with before | ⟨rfl, same⟩
    · exact inv.idle_at_home c d before
    · exact home d same.symm
  case occupied_holds =>
    intro c t occupied
    rw [selectedState_holds]
    rcases (occupiesNow c t).mp occupied with before | ⟨-, rfl⟩
    · exact inv.occupied_holds c t before
    · exact held
  case executing =>
    intro c running
    obtain ⟨-, running⟩ := selectedState_point_other running nofun
    have before := inv.executing c running
    have away : s.current c ≠ next := fun same => by simp [same, ready] at before
    simpa [away] using before
  case blocked => exact selectedState_blocked inv ready
  case selected =>
    intro c n running
    by_cases same : c = core
    · simp [same]
    · simpa [same] using inv.selected c n (by simpa [same] using running)
  case leaving => exact selectedState_leaving inv point ready
  case entering => exact selectedState_entering inv point ready clean
  case idle_state =>
    intro c
    have before := inv.idle_state c
    grind [selectedState_tcb]
  case resting =>
    intro u heldU free
    simp only [occupiesNow, not_or, not_and] at free
    have before := inv.resting u (by simpa using heldU) fun c => (free c).1
    have away : u ≠ next := (free core).2 rfl
    simpa [away] using before
  case typed =>
    intro u heldU
    have before := inv.typed u (by simpa using heldU)
    grind [selectedState_tcb]
  case range =>
    intro u heldU
    have before := inv.range u (by simpa using heldU)
    grind [selectedState_tcb]
  case queued => exact selectedState_queued inv point queues
  case queue_nodup => exact nodup
  case timed =>
    intro u heldU
    have before := inv.timed u (by simpa using heldU)
    rw [show (selectedState s core next sched count).timeoutList = s.timeoutList from rfl]
    grind [selectedState_tcb]
  case timed_stopped =>
    intro u member
    have before := inv.timed_stopped u member
    grind [selectedState_tcb, selectedState_holds]
  case timeout_nodup => exact inv.timeout_nodup
  case asserts => exact inv.asserts

end Selects

/-- The three ways `sched_queue_select` ends, each with what it leaves in the
queues. -/
theorem selectNext_cases (s : State Core) (core : Core) :
    ∃ next sched count, selectNext s core = selectedState s core next sched count ∧
      ((∃ level queue, s.sched level = next :: queue ∧ sched = update s.sched level queue) ∨
       (sched = s.sched ∧ next = s.current core ∧ (s.tcb next).state = .ready) ∨
       (sched = s.sched ∧ next = .idleThread core ∧ (s.tcb (s.current core)).state ≠ .ready)) := by
  rcases schedScan_cases [0, 1, 2] s with ⟨level, thread, queue, head, found, count, after⟩ | ⟨found, after⟩
  · refine ⟨thread, update s.sched level queue, count + 1, ?_, .inl ⟨level, queue, head, rfl⟩⟩
    simp only [selectNext, schedQueueSelect, found, after]
    rfl
  · by_cases ready : (s.tcb (s.current core)).state = .ready
    · refine ⟨s.current core, s.sched, s.scheduled + 1, ?_, .inr (.inl ⟨rfl, rfl, ready⟩)⟩
      simp only [selectNext, schedQueueSelect, found, after, Option.getD_none, if_pos ready]
      rfl
    · refine ⟨.idleThread core, s.sched, s.scheduled + 1, ?_, .inr (.inr ⟨rfl, rfl, ready⟩)⟩
      simp only [selectNext, schedQueueSelect, found, after, Option.getD_none, if_neg ready]
      rfl

omit [DecidableEq Core] in
/-- The idle thread of a core that runs something else is ready to run. -/
theorem idle_waits (inv : Inv s) {core : Core} {cause : SchedCause}
    (point : s.point core = .blocked cause) (away : s.current core ≠ .idleThread core) :
    (s.tcb (.idleThread core)).state = .ready ∧
      (s.tcb (.idleThread core)).phase = .ctxClean := by
  have free : ∀ c, ¬ Occupies s c (.idleThread core) := by
    intro c occupied
    obtain rfl := inv.idle_at_home c core occupied
    rcases occupied with same | taken | ⟨switching, _⟩
    · exact away same.symm
    · simp [chosen, point] at taken
    · simp [chosen, point] at switching
  obtain ⟨clean, state⟩ := inv.resting (.idleThread core) rfl free
  have alternatives := inv.idle_state core
  refine ⟨?_, clean⟩
  grind

/-- Whatever `yield` chooses satisfies the side conditions of a switch. -/
theorem selectNext_spec (inv : Inv s) {core : Core} {cause : SchedCause}
    (point : s.point core = .blocked cause) :
    ∃ next sched count, selectNext s core = selectedState s core next sched count ∧
      Inv (selectedState s core next sched count) ∧
      ((s.tcb next).phase = .ctxClean ∨ next = s.current core ∨ next = .idleThread core) := by
  obtain ⟨next, sched, count, shape, choice⟩ := selectNext_cases s core
  refine ⟨next, sched, count, shape, ?_⟩
  rcases choice with ⟨level, queue, head, rfl⟩ | ⟨rfl, rfl, ready⟩ | ⟨rfl, rfl, unready⟩
  · obtain ⟨⟨held, ⟨address, heap⟩, ready, clean, unchosen⟩, priority⟩ :=
      (inv.queued level next).mp (by simp [head])
    have rests := clean_rests inv clean unchosen
    have distinct : (next :: queue).Nodup := head ▸ inv.queue_nodup level
    refine ⟨selectedState_inv inv point count held ready (fun _ => clean)
      (fun c occupied => absurd occupied (rests c)) (by simp [heap]) ?_ ?_, .inl clean⟩
    · intro other u
      by_cases same : other = level
      · subst same
        rw [update_self, head]
        grind [List.nodup_cons]
      · rw [update_of_ne same]
        have apart : next ∉ s.sched other := fun member =>
          same (queued_once inv member (by simp [head]))
        grind
    · intro other
      by_cases same : other = level
      · subst same
        simpa using distinct.of_cons
      · simpa [same] using inv.queue_nodup other
  · have here : Occupies s core (s.current core) := .inl rfl
    have dirty := (inv.blocked core cause point).2
    refine ⟨selectedState_inv inv point count (inv.occupied_holds core _ here) ready
      (fun away => absurd rfl away) (fun c occupied => inv.occupied_once c core _ occupied here)
      (fun c same => inv.idle_at_home core c (same ▸ here)) ?_ inv.queue_nodup, .inr (.inl rfl)⟩
    intro level u
    have unqueued : s.current core ∉ s.sched level := fun member => by
      simp [((inv.queued level _).mp member).1.2.2.2.1] at dirty
    grind
  · have away : s.current core ≠ .idleThread core := by
      intro same
      have states := inv.idle_state core
      have departing := (inv.blocked core cause point).1
      rw [same] at departing unready
      grind
    obtain ⟨ready, clean⟩ := idle_waits inv point away
    refine ⟨selectedState_inv inv point count rfl ready (fun _ => clean)
      (fun c occupied => (inv.idle_at_home c core occupied).symm) (by simp) ?_ inv.queue_nodup,
      .inr (.inr rfl)⟩
    intro level u
    have unqueued : .idleThread core ∉ s.sched level := fun member => by
      obtain ⟨address, heap⟩ := ((inv.queued level _).mp member).1.2.1
      cases heap
    grind

/-! ### Switching contexts -/

section SwapContext
variable (core : Core) (next : TcbRef Core) (c : Core)

@[simp] theorem swapContext_current : (swapContext s core next).current c =
    if c = core then next else s.current c := by
  by_cases same : c = core <;>
    simp [swapContext, State.setPoint, State.setCore, State.current, same]

@[simp] theorem swapContext_previous :
    (swapContext s core next).previous c = s.previous c := by
  by_cases same : c = core <;>
    simp [swapContext, State.setPoint, State.setCore, State.previous, same]

@[simp] theorem swapContext_point : (swapContext s core next).point c =
    if c = core then .switched else s.point c := by
  simp [swapContext, State.setPoint, State.setCore, update_apply]

end SwapContext

/-- Restoring the context of the chosen thread moves nothing but the
`CURTHREAD` of this core, which was leaving anyway. -/
theorem swapContext_inv (inv : Inv s) {core : Core} {next : TcbRef Core}
    (point : s.point core = .selected next) : Inv (swapContext s core next) := by
  have stays := inv.selected core next point
  have current : ∀ c, (swapContext s core next).current c =
      if c = core then next else s.current c := swapContext_current core next
  have previous : ∀ c, (swapContext s core next).previous c = s.previous c :=
    swapContext_previous core next
  have points : ∀ c, (swapContext s core next).point c =
      if c = core then .switched else s.point c := swapContext_point core next
  have chosenSame : ∀ c, chosen (swapContext s core next) c = chosen s c := by
    intro c
    by_cases same : c = core
    · subst same
      simp [chosen, current, point]
    · simp [chosen, current, same]
  have occupiesSame : ∀ c t, Occupies (swapContext s core next) c t ↔ Occupies s c t := by
    intro c t
    have taken : chosen s core = some next := by simp [chosen, point]
    simp only [Occupies, chosenSame, previous, current]
    by_cases same : c = core
    · subst same
      simp only [taken, if_true]
      grind
    · simp [same]
  constructor
  case occupied_once => simpa only [occupiesSame] using inv.occupied_once
  case idle_at_home => simpa only [occupiesSame] using inv.idle_at_home
  case occupied_holds =>
    simp only [occupiesSame]
    exact inv.occupied_holds
  case executing =>
    intro c running
    have different : c ≠ core := by
      rintro rfl
      simp at running
    rw [current, if_neg different]
    exact inv.executing c (by simpa [points, different] using running)
  case blocked =>
    intro c cause running
    have different : c ≠ core := by
      rintro rfl
      simp at running
    rw [current, if_neg different]
    exact inv.blocked c cause (by simpa [points, different] using running)
  case selected =>
    intro c n running
    have different : c ≠ core := by
      rintro rfl
      simp at running
    rw [current, previous, if_neg different]
    exact inv.selected c n (by simpa [points, different] using running)
  case leaving =>
    simp only [chosenSame, previous]
    exact inv.leaving
  case entering =>
    simp only [chosenSame, previous]
    exact inv.entering
  case idle_state => exact inv.idle_state
  case resting =>
    simp only [occupiesSame]
    exact inv.resting
  case typed => exact inv.typed
  case range => exact inv.range
  case queued =>
    simp only [Runnable, chosenSame]
    exact inv.queued
  case queue_nodup => exact inv.queue_nodup
  case timed => exact inv.timed
  case timed_stopped => exact inv.timed_stopped
  case timeout_nodup => exact inv.timeout_nodup
  case asserts => exact inv.asserts

/-! ### Starting the time slice -/

/-- What `gain` makes of the state, up to what it does to the phase of the
previous thread, to the heap and to the queues. -/
def gained (s : State Core) (core : Core) (phase : ThreadPhase) (allocated : Nat → Bool)
    (active : BitVec 32) (sched : Int → List (TcbRef Core)) : State Core :=
  { s with
    tcb := update
      (update s.tcb (s.previous core) { s.tcb (s.previous core) with phase := phase })
      (s.current core)
      { s.tcb (s.current core) with
        state := .running, phase := .ctxDirty, rts := (s.tcb (s.current core)).its }
    allocated := allocated
    activeThreads := active
    sched := sched
    point := update s.point core .executing }

section Gained
variable (core other : Core) (phase : ThreadPhase) (allocated : Nat → Bool) (active : BitVec 32)
  (sched : Int → List (TcbRef Core)) (u : TcbRef Core)

@[simp] theorem gained_tcb : (gained s core phase allocated active sched).tcb u =
    if u = s.current core then
      { s.tcb (s.current core) with
        state := .running, phase := .ctxDirty, rts := (s.tcb (s.current core)).its }
    else if u = s.previous core then { s.tcb (s.previous core) with phase := phase }
    else s.tcb u := by
  simp [gained, update_apply]

@[simp] theorem gained_point : (gained s core phase allocated active sched).point other =
    if other = core then .executing else s.point other := by
  simp [gained, update_apply]

@[simp] theorem gained_current : (gained s core phase allocated active sched).current other =
    s.current other := rfl
@[simp] theorem gained_previous : (gained s core phase allocated active sched).previous other =
    s.previous other := rfl

@[simp] theorem chosen_gained : chosen (gained s core phase allocated active sched) other =
    if other = core then none else chosen s other := by
  unfold chosen
  by_cases same : other = core
  · simp [same]
  · simp [same]

@[simp] theorem occupies_gained : Occupies (gained s core phase allocated active sched) other u ↔
    if other = core then u = s.current core else Occupies s other u := by
  unfold Occupies
  by_cases same : other = core
  · simp [same]
  · simp [same]

end Gained

section Gains
variable {core : Core} {phase : ThreadPhase} {allocated : Nat → Bool} {active : BitVec 32}
  {sched : Int → List (TcbRef Core)}

/-- The thread that the core leaves is not allocated any more if it has exited. -/
theorem gained_holds
    (heap : ∀ a, allocated a = true ↔ s.allocated a = true ∧
      ¬ (s.previous core = .heap a ∧ (s.tcb (s.previous core)).state = .exited))
    (u : TcbRef Core) : (gained s core phase allocated active sched).holds u = true ↔
      s.holds u = true ∧ ¬ (s.previous core = u ∧ (∃ a, u = .heap a) ∧
        (s.tcb (s.previous core)).state = .exited) := by
  cases u with
  | idleThread c => simp [State.holds]
  | heap a =>
    rw [show (gained s core phase allocated active sched).holds (.heap a) = allocated a from rfl,
      heap]
    simp [State.holds]

variable (inv : Inv s) (point : s.point core = .switched)

omit [DecidableEq Core] in
include point in
theorem switched_taken : chosen s core = some (s.current core) := by
  simp [chosen, point]

omit [DecidableEq Core] in
include point in
theorem switched_leaves : Occupies s core (s.previous core) :=
  .inr (.inr ⟨by simp [switched_taken point], rfl⟩)

include inv

theorem gained_occupied_once (c d : Core) (t : TcbRef Core)
    (inC : Occupies (gained s core phase allocated active sched) c t)
    (inD : Occupies (gained s core phase allocated active sched) d t) : c = d := by
  have before : ∀ c, Occupies (gained s core phase allocated active sched) c t →
      Occupies s c t := by
    intro c occupied
    rw [occupies_gained] at occupied
    split at occupied
    next same => exact same ▸ .inl occupied
    next => exact occupied
  exact inv.occupied_once c d t (before c inC) (before d inD)

include point

omit [DecidableEq Core] in
/-- What another core occupies is neither the thread of this core nor the one it leaves. -/
theorem switched_elsewhere {c : Core} (different : c ≠ core) {u : TcbRef Core}
    (occupied : Occupies s c u) : u ≠ s.current core ∧ u ≠ s.previous core := by
  constructor
  · rintro rfl
    exact different (inv.occupied_once c core _ occupied (.inl rfl))
  · rintro rfl
    exact different (inv.occupied_once c core _ occupied (switched_leaves point))

theorem gained_tcb_elsewhere {c : Core} (different : c ≠ core) {u : TcbRef Core}
    (occupied : Occupies s c u) :
    (gained s core phase allocated active sched).tcb u = s.tcb u := by
  obtain ⟨notCurrent, notPrevious⟩ := switched_elsewhere inv point different occupied
  rw [gained_tcb, if_neg notCurrent, if_neg notPrevious]

/-- What a core goes on with has not exited, and what others occupy is still theirs. -/
theorem gained_occupied_holds
    (heap : ∀ a, allocated a = true ↔ s.allocated a = true ∧
      ¬ (s.previous core = .heap a ∧ (s.tcb (s.previous core)).state = .exited))
    (c : Core) (t : TcbRef Core)
    (occupied : Occupies (gained s core phase allocated active sched) c t) :
    (gained s core phase allocated active sched).holds t := by
  rw [gained_holds heap]
  rw [occupies_gained] at occupied
  by_cases same : c = core
  · rw [if_pos same] at occupied
    subst occupied
    refine ⟨inv.occupied_holds core _ (.inl rfl), ?_⟩
    rintro ⟨same, -, exited⟩
    rw [same, (inv.entering core _ (switched_taken point)).1] at exited
    cases exited
  · rw [if_neg same] at occupied
    have away := (switched_elsewhere inv point same occupied).2
    exact ⟨inv.occupied_holds c t occupied, fun gone => away gone.1.symm⟩

/-- The thread that the core has left rests with its context saved. -/
theorem gained_resting (saved : s.current core ≠ s.previous core → phase = .ctxClean)
    (heap : ∀ a, allocated a = true ↔ s.allocated a = true ∧
      ¬ (s.previous core = .heap a ∧ (s.tcb (s.previous core)).state = .exited))
    (u : TcbRef Core) (held : (gained s core phase allocated active sched).holds u)
    (free : ∀ c, ¬ Occupies (gained s core phase allocated active sched) c u) :
    ((gained s core phase allocated active sched).tcb u).phase = .ctxClean ∧
      (((gained s core phase allocated active sched).tcb u).state = .init ∨
        ((gained s core phase allocated active sched).tcb u).state = .ready ∨
        ((gained s core phase allocated active sched).tcb u).state = .stopped) := by
  obtain ⟨held, kept⟩ := (gained_holds heap u).mp held
  have taken := switched_taken point
  have away : u ≠ s.current core := by
    rintro rfl
    exact free core (by simp)
  by_cases left : u = s.previous core
  · subst left
    have normal : (∃ a, s.previous core = .heap a) ∨ ∃ c, s.previous core = .idleThread c := by
      cases s.previous core <;> simp
    have departing := inv.leaving core (by simp [taken])
    have idles := inv.idle_state
    unfold Departing at departing
    simp only [gained_tcb, away, if_false, if_true]
    grind
  · have rests := inv.resting u held fun c occupied => by
      by_cases same : c = core
      · subst same
        rcases occupied with current | chooses | ⟨_, previous⟩
        · exact away current
        · exact away (Option.some.inj (chooses.symm.trans taken))
        · exact left previous
      · exact free c (by simpa [same] using occupied)
    simpa [away, left] using rests

/-- The thread that the core has left is queued if it is ready. -/
theorem gained_queued (saved : s.current core ≠ s.previous core → phase = .ctxClean)
    (heap : ∀ a, allocated a = true ↔ s.allocated a = true ∧
      ¬ (s.previous core = .heap a ∧ (s.tcb (s.previous core)).state = .exited))
    (queues : ∀ level u, u ∈ sched level ↔ u ∈ s.sched level ∨
      (u = s.previous core ∧ s.current core ≠ s.previous core ∧ (∃ a, u = .heap a) ∧
        (s.tcb u).state = .ready ∧ (s.tcb u).priority = level)) (level : Int) (u : TcbRef Core) :
    u ∈ (gained s core phase allocated active sched).sched level ↔
      Runnable (gained s core phase allocated active sched) u ∧
        ((gained s core phase allocated active sched).tcb u).priority = level := by
  have taken := switched_taken point
  rw [show (gained s core phase allocated active sched).sched = sched from rfl, queues,
    inv.queued level u]
  simp only [Runnable, gained_holds heap, gained_tcb, chosen_gained]
  by_cases same : u = s.current core
  · subst same
    simp only [if_true]
    grind
  by_cases left : u = s.previous core
  · subst left
    have held := inv.occupied_holds core _ (switched_leaves point)
    have departing := inv.leaving core (by simp [taken])
    have unchosen : ∀ c, (if c = core then none else chosen s c) ≠ some (s.previous core) := by
      intro c chooses
      by_cases sameCore : c = core
      · simp [sameCore] at chooses
      · rw [if_neg sameCore] at chooses
        exact (switched_elsewhere inv point sameCore (.inr (.inl chooses))).2 rfl
    unfold Departing at departing
    simp only [same, if_false, if_true]
    grind
  · simp only [same, left, if_false]
    grind

theorem gained_inv (active : BitVec 32)
    (saved : s.current core ≠ s.previous core → phase = .ctxClean)
    (heap : ∀ a, allocated a = true ↔ s.allocated a = true ∧
      ¬ (s.previous core = .heap a ∧ (s.tcb (s.previous core)).state = .exited))
    (queues : ∀ level u, u ∈ sched level ↔ u ∈ s.sched level ∨
      (u = s.previous core ∧ s.current core ≠ s.previous core ∧ (∃ a, u = .heap a) ∧
        (s.tcb u).state = .ready ∧ (s.tcb u).priority = level))
    (nodup : ∀ level, (sched level).Nodup) :
    Inv (gained s core phase allocated active sched) := by
  have ready := (inv.entering core _ (switched_taken point)).1
  constructor
  case occupied_once => exact gained_occupied_once inv
  case idle_at_home =>
    intro c d occupied
    rw [occupies_gained] at occupied
    split at occupied
    next same => exact inv.idle_at_home c d (same ▸ .inl occupied)
    next => exact inv.idle_at_home c d occupied
  case occupied_holds => exact gained_occupied_holds inv point heap
  case executing =>
    intro c running
    by_cases same : c = core
    · simp [same]
    · rw [gained_current, gained_tcb_elsewhere inv point same (.inl rfl)]
      exact inv.executing c (by simpa [same] using running)
  case blocked =>
    intro c cause running
    by_cases same : c = core
    · simp [same] at running
    · rw [gained_current, Departing, gained_tcb_elsewhere inv point same (.inl rfl)]
      exact inv.blocked c cause (by simpa [same] using running)
  case selected =>
    intro c n running
    by_cases same : c = core
    · simp [same] at running
    · exact inv.selected c n (by simpa [same] using running)
  case leaving =>
    intro c switching
    by_cases same : c = core
    · simp [same] at switching
    · rw [chosen_gained, if_neg same] at switching
      rw [gained_previous, Departing,
        gained_tcb_elsewhere inv point same (.inr (.inr ⟨switching, rfl⟩))]
      exact inv.leaving c switching
  case entering =>
    intro c n chooses
    by_cases same : c = core
    · simp [same] at chooses
    · rw [chosen_gained, if_neg same] at chooses
      rw [gained_previous, gained_tcb_elsewhere inv point same (.inr (.inl chooses))]
      exact inv.entering c n chooses
  case idle_state =>
    intro c
    have before := inv.idle_state c
    simp only [gained_tcb]
    grind
  case resting => exact gained_resting inv point saved heap
  case typed =>
    intro u held
    have before := inv.typed u ((gained_holds heap u).mp held).1
    simp only [gained_tcb]
    grind
  case range =>
    intro u held
    have before := inv.range u ((gained_holds heap u).mp held).1
    simp only [gained_tcb]
    grind
  case queued => exact gained_queued inv point saved heap queues
  case queue_nodup => exact nodup
  case timed =>
    intro u held
    have before := inv.timed u ((gained_holds heap u).mp held).1
    rw [show (gained s core phase allocated active sched).timeoutList = s.timeoutList from rfl]
    simp only [gained_tcb]
    grind
  case timed_stopped =>
    intro u member
    obtain ⟨held, stopped⟩ := inv.timed_stopped u member
    have departing := inv.leaving core (by simp [switched_taken point])
    unfold Departing at departing
    rw [gained_holds heap]
    simp only [gained_tcb]
    grind
  case timeout_nodup => exact inv.timeout_nodup
  case asserts => exact inv.asserts

end Gains

end TinyOs.Scheduler
