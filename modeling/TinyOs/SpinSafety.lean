import TinyOs.LockDiscipline

/-! What can be read off the code of a thread agrees with the mutexes in every
state, as long as nobody is switched out with a mutex that code with preemption
off may want. Code with preemption off then waits only for a thread on another
core. -/
namespace TinyOs.Preemption
open Library Function
open Scheduler (TcbRef ThreadState SchedCause TimerDuration)

variable {Core Name : Type*} [DecidableEq Core] [DecidableEq Name]

/-- The mutexes that spin which the thread holds. -/
def State.held (s : State Core Name) (thread : TcbRef Core) : Held Name :=
  fun mutex => mutex.spins && decide (s.mutex mutex = some thread)

/-- Between the switch to a thread and the section of its `gain`. -/
def Boarding : List (Instr Core Name) → Prop
  | .mutexLock .schedSpinlock :: .takeOver :: _ => True
  | .mutexSpin .schedSpinlock _ :: .takeOver :: _ => True
  | .takeOver :: _ => True
  | _ => False

structure Disciplined (s : State Core Name) : Prop where
  sched : Scheduler.Inv s.sched
  running : ∀ core, Fits (s.code (s.current core)) (s.preemption core) (s.held (s.current core))
  steady : ∀ core, s.preemption core = true → Unmasked (s.held (s.current core))
  away : ∀ thread, (∀ core, s.current core ≠ thread) → s.held thread = noMutex ∧
    (s.sched.holds thread = true → Boards (s.code thread) ∧ Fits (s.code thread) false noMutex)
  arrived : ∀ core, s.sched.point core = .switched → s.current core ≠ s.sched.previous core →
    Boarding (s.code (s.current core)) ∧ s.held (s.current core) .activeThreadsSpinlock = false

/-! ### Sections of the scheduler -/

/-- No core is given another thread, and no TCB is made. -/
structure Stays (s t : Scheduler.State Core) : Prop where
  current : ∀ core, t.current core = s.current core
  holds : ∀ thread, t.holds thread = true → s.holds thread = true
  switched : ∀ core, t.point core = .switched →
    s.point core = .switched ∧ t.previous core = s.previous core

omit [DecidableEq Core] in
theorem Stays.refl (s : Scheduler.State Core) : Stays s s :=
  ⟨fun _ => rfl, fun _ held => held, fun _ point => ⟨point, rfl⟩⟩

section
variable {s t : Scheduler.State Core}

theorem stays_wakeup (inv : Scheduler.Inv s) {core : Core} {thread : TcbRef Core}
    (moved : Scheduler.step s (.wakeup core thread) = some t) : Stays s t := by
  cases Scheduler.stepped_of_step moved with
  | wakeup _ held =>
    unfold Scheduler.wakeup
    split
    next waiting =>
      rw [Scheduler.makeReady_eq inv held waiting]
      exact ⟨fun _ => rfl, fun _ held => held, fun _ point => ⟨point, rfl⟩⟩
    next => exact Stays.refl s

theorem stays_sleepReleasing (inv : Scheduler.Inv s) {core : Core} {newstate : ThreadState}
    {cause : SchedCause} {timeout : Option (BitVec 64)}
    (moved : Scheduler.step s (.sleepReleasing core newstate cause timeout) = some t) :
    Stays s t := by
  cases Scheduler.stepped_of_step moved with
  | sleepReleasing _ _ sleeps =>
    obtain ⟨tcb, list, shape⟩ := Scheduler.sleepReleasing_departed inv core sleeps cause timeout
    rw [shape]
    refine ⟨fun _ => rfl, fun thread held => ?_, fun other point => ⟨?_, rfl⟩⟩
    · simpa using held
    · rw [Scheduler.departed_point] at point
      split at point
      · cases point
      · exact point

theorem stays_yield (inv : Scheduler.Inv s) {core : Core} {cause : SchedCause}
    {remaining : TimerDuration} (moved : Scheduler.step s (.yield core cause remaining) = some t) :
    Stays s t := by
  cases Scheduler.stepped_of_step moved with
  | yield point =>
    obtain ⟨allocated, -, -, next, points, cores⟩ := Scheduler.yield_leaves inv point remaining
    refine ⟨fun other => ?_, fun thread held => ?_, fun other switched => ?_⟩
    · rw [Scheduler.State.current, cores]
      by_cases same : other = core
      · subst other
        rw [update_self]
        rfl
      · rw [update_of_ne same]
        rfl
    · cases thread with
      | idleThread home => rfl
      | heap address => rwa [Scheduler.State.holds, allocated] at held
    · rw [points] at switched
      have apart : other ≠ core := by
        rintro rfl
        simp at switched
      rw [update_of_ne apart] at switched
      refine ⟨switched, ?_⟩
      rw [Scheduler.State.previous, cores, update_of_ne apart]
      rfl

theorem stays_gained (s : Scheduler.State Core) (core : Core) (phase : Scheduler.ThreadPhase)
    {allocated : Nat → Bool} (fewer : ∀ address, allocated address = true → s.allocated address = true)
    (active : BitVec 32) (sched : Int → List (TcbRef Core)) :
    Stays s (Scheduler.gained s core phase allocated active sched) := by
  refine ⟨fun _ => rfl, fun thread held => ?_, fun other point => ⟨?_, rfl⟩⟩
  · cases thread with
    | idleThread home => rfl
    | heap address => exact fewer address held
  · rw [Scheduler.gained_point] at point
    split at point
    · cases point
    · exact point

theorem stays_gain (inv : Scheduler.Inv s) {core : Core}
    (moved : Scheduler.step s (.gain core) = some t) :
    s.point core = .switched ∧ Stays s t ∧ t.point core = .executing := by
  cases Scheduler.stepped_of_step moved with
  | gain point =>
    have all : ∀ address, s.allocated address = true → s.allocated address = true := fun _ held => held
    obtain ⟨-, shape⟩ | ⟨-, ⟨-, -, shape⟩ | ⟨-, -, shape⟩ | ⟨-, shape⟩ | ⟨-, a, -, shape⟩⟩ :=
      Scheduler.gain_cases inv point
    all_goals rw [shape]
    · exact ⟨point, stays_gained s core _ all _ _, by simp⟩
    · exact ⟨point, stays_gained s core _ all _ _, by simp⟩
    · exact ⟨point, stays_gained s core _ all _ _, by simp⟩
    · exact ⟨point, stays_gained s core _ all _ _, by simp⟩
    · refine ⟨point, stays_gained s core _ (fun address held => ?_) _ _, by simp⟩
      by_cases same : address = a
      · simp [same] at held
      · rwa [update_of_ne same] at held

end

/-! ### Steps of one core -/

section
variable {s t : State Core Name} {core : Core}

omit [DecidableEq Name] in
@[simp] theorem held_setCode (thread other : TcbRef Core) (code : List (Instr Core Name)) :
    (s.setCode thread code).held other = s.held other := rfl

omit [DecidableEq Name] in
@[simp] theorem held_setPreemption (preempt : Bool) (thread : TcbRef Core) :
    (s.setPreemption core preempt).held thread = s.held thread := rfl

theorem held_locked {mutex : Mutex Name} (free : s.mutex mutex = none) (thread other : TcbRef Core) :
    (s.setMutex mutex (some thread)).held other =
      if other = thread then update (s.held thread) mutex mutex.spins else s.held other := by
  funext asked
  by_cases same : asked = mutex
  · subst asked
    by_cases mine : other = thread
    · simp [State.held, State.setMutex, mine]
    · simp [State.held, State.setMutex, mine, free, Ne.symm mine]
  · by_cases mine : other = thread
    · subst other
      simp [State.held, State.setMutex, same]
    · simp [State.held, State.setMutex, mine, same]

theorem held_unlocked {mutex : Mutex Name} {thread : TcbRef Core}
    (mine : mutex.spins = true → s.held thread mutex = true) (other : TcbRef Core) :
    (s.setMutex mutex none).held other =
      if other = thread then update (s.held thread) mutex false else s.held other := by
  funext asked
  by_cases same : asked = mutex
  · subst asked
    by_cases self : other = thread
    · simp [State.held, State.setMutex, self]
    · have apart : mutex.spins = true → s.mutex mutex ≠ some other := by
        intro spins
        have locked := mine spins
        simp only [State.held, spins, Bool.true_and, decide_eq_true_eq] at locked
        rw [locked]
        simpa using Ne.symm self
      simp only [State.held, State.setMutex, update_self, if_neg self]
      cases spins : mutex.spins
      · rfl
      · simp [apart spins]
  · by_cases self : other = thread
    · subst other
      simp [State.held, State.setMutex, same]
    · simp [State.held, State.setMutex, self, same]

theorem Disciplined.apart (disciplined : Disciplined s) {other : Core} (apart : other ≠ core) :
    s.current other ≠ s.current core := fun same =>
  apart (disciplined.sched.occupied_once other core _ (.inl rfl) (.inl same))

/-- A step in which no core is given another thread, and only the thread of one
core goes on. -/
theorem Disciplined.moves (disciplined : Disciplined s) (stays : Stays s.sched t.sched)
    (sched : Scheduler.Inv t.sched)
    (others : ∀ thread, thread ≠ s.current core →
      t.code thread = s.code thread ∧ t.held thread = s.held thread)
    (cores : ∀ other, other ≠ core → t.preemption other = s.preemption other)
    (fits : Fits (t.code (s.current core)) (t.preemption core) (t.held (s.current core)))
    (steady : t.preemption core = true → Unmasked (t.held (s.current core)))
    (arrived : t.sched.point core = .switched → s.current core ≠ s.sched.previous core →
      Boarding (t.code (s.current core)) ∧
        t.held (s.current core) .activeThreadsSpinlock = false) : Disciplined t := by
  have current : ∀ other, t.current other = s.current other := stays.current
  refine ⟨sched, fun other => ?_, fun other enabled => ?_, fun thread out => ?_, fun other point => ?_⟩
  · rw [current]
    by_cases same : other = core
    · subst other
      exact fits
    · obtain ⟨code, held⟩ := others _ (disciplined.apart same)
      rw [code, held, cores other same]
      exact disciplined.running other
  · rw [current]
    by_cases same : other = core
    · subst other
      exact steady enabled
    · rw [(others _ (disciplined.apart same)).2]
      rw [cores other same] at enabled
      exact disciplined.steady other enabled
  · have gone : ∀ other, s.current other ≠ thread := fun other => current other ▸ out other
    obtain ⟨code, held⟩ := others thread (gone core).symm
    rw [code, held]
    obtain ⟨nothing, boards⟩ := disciplined.away thread gone
    exact ⟨nothing, fun holds => boards (stays.holds thread holds)⟩
  · obtain ⟨before, previous⟩ := stays.switched other point
    rw [current, previous]
    by_cases same : other = core
    · subst other
      exact arrived point
    · obtain ⟨code, held⟩ := others _ (disciplined.apart same)
      rw [code, held]
      exact disciplined.arrived other before

/-- The thread of one core goes on without locking or unlocking. -/
theorem Disciplined.proceeds (disciplined : Disciplined s) (stays : Stays s.sched t.sched)
    (sched : Scheduler.Inv t.sched) (mutex : t.mutex = s.mutex)
    (others : ∀ thread, thread ≠ s.current core → t.code thread = s.code thread)
    (cores : ∀ other, other ≠ core → t.preemption other = s.preemption other)
    (boards : Boarding (s.code (s.current core)) → Boarding (t.code (s.current core)))
    (fits : Fits (t.code (s.current core)) (t.preemption core) (s.held (s.current core)))
    (steady : t.preemption core = true → Unmasked (s.held (s.current core))) : Disciplined t := by
  have same : ∀ thread, t.held thread = s.held thread := by
    intro thread
    unfold State.held
    rw [mutex]
  refine disciplined.moves stays sched (fun thread apart => ⟨others thread apart, same thread⟩) cores
    (same _ ▸ fits) (same _ ▸ steady) fun point apart => ?_
  obtain ⟨boarding, free⟩ := disciplined.arrived core (stays.switched core point).1 apart
  exact ⟨boards boarding, same _ ▸ free⟩

/-- The thread puts code in the place of its instruction. -/
theorem Disciplined.continues (disciplined : Disciplined s) {instr : Instr Core Name}
    {rest code : List (Instr Core Name)} (head : s.code (s.current core) = instr :: rest)
    (sched : t.sched = s.sched) (mutex : t.mutex = s.mutex)
    (codes : t.code = update s.code (s.current core) code)
    (cores : ∀ other, other ≠ core → t.preemption other = s.preemption other)
    (boards : Boarding (instr :: rest) → Boarding code)
    (fits : Fits code (t.preemption core) (s.held (s.current core)))
    (steady : t.preemption core = true → Unmasked (s.held (s.current core))) : Disciplined t := by
  refine disciplined.proceeds (sched ▸ Stays.refl s.sched)
    (sched ▸ disciplined.sched) mutex ?_ cores ?_ ?_ steady
  · intro thread apart
    rw [codes, update_of_ne apart]
  · rw [head, codes, update_self]
    exact boards
  · rw [codes, update_self]
    exact fits

/-- The thread turns preemption off and goes on with other code. -/
theorem Disciplined.masks (disciplined : Disciplined s) {instr : Instr Core Name}
    {rest code : List (Instr Core Name)} (head : s.code (s.current core) = instr :: rest)
    (boards : ¬ Boarding (instr :: rest)) (fits : Fits code false (s.held (s.current core))) :
    Disciplined ((s.setPreemption core false).setCode (s.current core) code) := by
  refine disciplined.continues head rfl rfl rfl (fun _ apart => update_of_ne apart _ _)
    (fun boarding => absurd boarding boards) ?_ ?_
  · simpa [State.setCode, State.setPreemption] using fits
  · simp [State.setCode, State.setPreemption]

end

/-! ### The instructions -/

section
variable {s t : State Core Name} {core : Core} {rest : List (Instr Core Name)}

theorem Unmasked.locked {held : Held Name} (unmasked : Unmasked held) {mutex : Mutex Name}
    (plain : mutex.masked = false) (value : Bool) : Unmasked (update held mutex value) := by
  intro asked masked
  have apart : asked ≠ mutex := by
    rintro rfl
    cases plain.symm.trans masked
  rw [update_of_ne apart]
  exact unmasked asked masked

theorem Unmasked.unlocked {held : Held Name} (unmasked : Unmasked held) (mutex : Mutex Name) :
    Unmasked (update held mutex false) := by
  intro asked masked
  by_cases same : asked = mutex
  · rw [same, update_self]
  · rw [update_of_ne same]
    exact unmasked asked masked

omit [DecidableEq Core] in
/-- Preemption is off until `gain` is over. -/
theorem Boarding.masked {code : List (Instr Core Name)} (boarding : Boarding code) {preempt : Bool}
    {held : Held Name} (fits : Fits code preempt held) : preempt = false := by
  unfold Boarding at boarding
  split at boarding
  · exact fits.2.2.1 rfl
  · exact fits.2.2.1 rfl
  · exact fits.1
  · exact boarding.elim

omit [DecidableEq Core] [DecidableEq Name] in
theorem boarding_mutexSpin {mutex : Mutex Name} (spin : Nat) :
    Boarding (.mutexSpin mutex spin :: rest) ↔ Boarding (.mutexLock mutex :: rest) := by
  cases mutex
  case schedSpinlock =>
    cases rest with
    | nil => rfl
    | cons instr rest => cases instr <;> rfl
  all_goals rfl

theorem Disciplined.mutexLock (disciplined : Disciplined s) {mutex : Mutex Name}
    (head : s.code (s.current core) = .mutexLock mutex :: rest)
    (moved : s.execute core rest (.mutexLock mutex) = some t) : Disciplined t := by
  have fits := disciplined.running core
  rw [head] at fits
  have steady := disciplined.steady core
  simp only [State.execute] at moved
  split at moved
  next free =>
    cases moved
    have mine := held_locked free (s.current core) (s.current core)
    rw [if_pos rfl] at mine
    refine disciplined.moves (Stays.refl s.sched) disciplined.sched
      (fun thread apart => ⟨update_of_ne apart _ _, ?_⟩) (fun _ _ => rfl) ?_ ?_ ?_
    · rw [held_setCode, held_locked free, if_neg apart]
    · rw [held_setCode, mine]
      simpa [State.setCode, State.setMutex] using fits.2.2.2
    · intro enabled
      have plain : mutex.masked = false := by
        by_contra masked
        have off := fits.2.2.1 (by simpa using masked)
        cases off.symm.trans enabled
      rw [held_setCode, mine]
      exact (steady enabled).locked plain _
    · intro point apart
      obtain ⟨boarding, free⟩ := disciplined.arrived core point apart
      rw [head] at boarding
      rw [held_setCode, mine]
      unfold Boarding at boarding
      split at boarding
      next more same =>
        cases same
        exact ⟨by simp [State.setCode, Boarding], by rwa [update_of_ne (by simp)]⟩
      all_goals simp_all
  next =>
    cases moved
    exact disciplined.continues head rfl rfl rfl (fun _ _ => rfl) (boarding_mutexSpin _).mpr fits
      steady

theorem Disciplined.mutexSpin (disciplined : Disciplined s) {mutex : Mutex Name} {spin : Nat}
    (head : s.code (s.current core) = .mutexSpin mutex spin :: rest)
    (moved : s.execute core rest (.mutexSpin mutex spin) = some t) : Disciplined t := by
  have fits := disciplined.running core
  rw [head] at fits
  have steady := disciplined.steady core
  have boards (spin' : Nat) : Boarding (.mutexSpin mutex spin :: rest) →
      Boarding (.mutexSpin mutex spin' :: rest) := fun boarding =>
    (boarding_mutexSpin spin').mpr ((boarding_mutexSpin spin).mp boarding)
  simp only [State.execute] at moved
  split at moved
  · cases moved
    exact disciplined.continues head rfl rfl rfl (fun _ _ => rfl) (boarding_mutexSpin _).mp fits
      steady
  · split at moved
    · cases moved
      exact disciplined.continues head rfl rfl rfl (fun _ _ => rfl) (boards _) fits steady
    · split at moved
      next enabled =>
        cases moved
        refine disciplined.continues head rfl rfl rfl (fun _ _ => rfl) (fun boarding => ?_)
          ⟨steady enabled, .inl rfl, fits⟩ steady
        cases (boarding.masked fits).symm.trans enabled
      next =>
        cases moved
        exact disciplined.continues head rfl rfl rfl (fun _ _ => rfl) (boards _) fits steady

theorem Disciplined.mutexUnlock (disciplined : Disciplined s) {mutex : Mutex Name}
    (head : s.code (s.current core) = .mutexUnlock mutex :: rest)
    (moved : s.execute core rest (.mutexUnlock mutex) = some t) : Disciplined t := by
  have fits := disciplined.running core
  rw [head] at fits
  cases moved
  have mine := held_unlocked fits.1 (s.current core)
  rw [if_pos rfl] at mine
  refine disciplined.moves (Stays.refl s.sched) disciplined.sched
    (fun thread apart => ⟨update_of_ne apart _ _, ?_⟩) (fun _ _ => rfl) ?_ ?_ ?_
  · rw [held_setCode, held_unlocked fits.1, if_neg apart]
  · rw [held_setCode, mine]
    simpa [State.setCode, State.setMutex] using fits.2
  · intro enabled
    rw [held_setCode, mine]
    exact (disciplined.steady core enabled).unlocked mutex
  · intro point apart
    have boarding := (disciplined.arrived core point apart).1
    rw [head] at boarding
    exact boarding.elim

end

/-! ### The sections of the scheduler -/

section
variable {s t : State Core Name} {core : Core} {rest : List (Instr Core Name)}

omit [DecidableEq Name] in
theorem schedule_cases {code : List (Instr Core Name)} {label : Scheduler.Label Core}
    (moved : (s.setCode (s.current core) code).schedule label = some t) :
    ∃ sched, Scheduler.step s.sched label = some sched ∧
      t = { s.setCode (s.current core) code with sched := sched } := by
  obtain ⟨sched, stepped, rfl⟩ := Option.map_eq_some_iff.mp moved
  exact ⟨sched, stepped, rfl⟩

/-- A section in which the core keeps its thread, under `sched_spinlock`. -/
theorem Disciplined.underLock (disciplined : Disciplined s) {instr : Instr Core Name}
    {code : List (Instr Core Name)} (head : s.code (s.current core) = instr :: rest)
    (boards : ¬ Boarding (instr :: rest)) {sched : Scheduler.State Core}
    (stays : Stays s.sched sched) (inv : Scheduler.Inv sched) (masked : s.preemption core = false)
    (fits : Fits code false (s.held (s.current core))) :
    Disciplined { s.setCode (s.current core) code with sched := sched } := by
  refine disciplined.proceeds stays inv rfl (fun thread apart => update_of_ne apart _ _)
    (fun _ _ => rfl) ?_ ?_ ?_
  · rw [head]
    exact fun boarding => absurd boarding boards
  · simpa [State.setCode, masked] using fits
  · simp [State.setCode, masked]

theorem Disciplined.makeReady (disciplined : Disciplined s) {thread : TcbRef Core}
    {signal : Option (Cv Name × Bool)} {preempt : Bool}
    (head : s.code (s.current core) = .makeReady thread signal preempt :: rest)
    (moved : s.execute core rest (.makeReady thread signal preempt) = some t) :
    Disciplined t := by
  have fits := disciplined.running core
  rw [head] at fits
  obtain ⟨sched, stepped, rfl⟩ := schedule_cases moved
  exact disciplined.underLock head (by simp [Boarding]) (stays_wakeup disciplined.sched stepped)
    (Scheduler.step_inv disciplined.sched stepped) fits.1
    (fits_afterWakeup fits.2.1 fits.2.2.1 fits.2.2.2)

theorem Disciplined.fallAsleep (disciplined : Disciplined s) {newstate : ThreadState}
    {cause : SchedCause} {timeout : Option (BitVec 64)}
    (head : s.code (s.current core) = .fallAsleep newstate cause timeout :: rest)
    (moved : s.execute core rest (.fallAsleep newstate cause timeout) = some t) :
    Disciplined t := by
  have fits := disciplined.running core
  rw [head] at fits
  obtain ⟨sched, stepped, rfl⟩ := schedule_cases moved
  exact disciplined.underLock head (by simp [Boarding])
    (stays_sleepReleasing disciplined.sched stepped)
    (Scheduler.step_inv disciplined.sched stepped) fits.1 fits.2

theorem Disciplined.takeOver (disciplined : Disciplined s)
    (head : s.code (s.current core) = .takeOver :: rest)
    (moved : s.execute core rest .takeOver = some t) : Disciplined t := by
  have fits := disciplined.running core
  rw [head] at fits
  obtain ⟨sched, stepped, rfl⟩ := schedule_cases moved
  obtain ⟨point, stays, executing⟩ := stays_gain disciplined.sched stepped
  refine disciplined.moves stays (Scheduler.step_inv disciplined.sched stepped)
    (fun thread apart => ⟨update_of_ne apart _ _, rfl⟩) (fun _ _ => rfl) ?_ ?_ ?_
  · change Fits (update s.code (s.current core) _ (s.current core)) (s.preemption core)
      (s.held (s.current core))
    rw [update_self, fits.1]
    split
    next releases =>
      simp only [State.releases, decide_eq_true_eq] at releases
      exact fits_counting (.inr rfl) (disciplined.arrived core point releases.1).2 fits.2
    next => exact fits.2
  · simp [State.setCode, fits.1]
  · intro point
    cases executing.symm.trans point

/-- The thread that is switched out keeps no mutex that code with preemption
off may want. -/
def State.LeavesFree (s : State Core Name) (thread : TcbRef Core) : Prop :=
  ∀ mutex ∈ [Mutex.kernelMutex, .waitsetLock .kernelSem, .activeThreadsSpinlock],
    s.mutex mutex ≠ some thread

omit [DecidableEq Name] in
theorem noMutex_of_leavesFree {thread : TcbRef Core} (free : s.LeavesFree thread)
    (unmasked : Unmasked (s.held thread)) : s.held thread = noMutex := by
  funext mutex
  by_cases masked : mutex.masked = true
  · exact unmasked mutex masked
  · by_cases spins : mutex.spins = true
    · have listed : mutex ∈ [Mutex.kernelMutex, .waitsetLock .kernelSem,
          .activeThreadsSpinlock] := by
        cases mutex with
        | waitsetLock cv => cases cv <;> simp_all [Mutex.masked, Mutex.spins]
        | kernelMutex | activeThreadsSpinlock => simp
        | schedSpinlock => exact absurd rfl masked
        | user name => cases spins
      simp [State.held, free mutex listed, noMutex]
    · simp [State.held, spins, noMutex]

/-- A thread that a core chose and that it does not run yet is at the head of
its `gain`, and holds nothing. -/
theorem Disciplined.comes (disciplined : Disciplined s) {next : TcbRef Core}
    (point : s.sched.point core = .selected next) (apart : next ≠ s.current core) :
    (∀ other, s.current other ≠ next) ∧ s.held next = noMutex ∧ Boards (s.code next) ∧
      Fits (s.code next) false noMutex := by
  have taken : Scheduler.Occupies s.sched core next :=
    .inr (.inl (by simp [Scheduler.chosen, point]))
  have out : ∀ other, s.current other ≠ next := by
    rintro other rfl
    obtain rfl := disciplined.sched.occupied_once other core _ (.inl rfl) taken
    exact apart rfl
  obtain ⟨nothing, ready⟩ := disciplined.away next out
  exact ⟨out, nothing, ready (disciplined.sched.occupied_holds core next taken)⟩

/-- The state in which a core has been given the thread it chose. -/
def State.switched (s : State Core Name) (core : Core) (rest : List (Instr Core Name))
    (next : TcbRef Core) : State Core Name :=
  { s.setCode (s.current core) rest with sched := Scheduler.swapContext s.sched core next }

omit [DecidableEq Name] in
theorem current_switched (next : TcbRef Core) (other : Core) :
    (s.switched core rest next).current other = if other = core then next else s.current other :=
  Scheduler.swapContext_current core next other

omit [DecidableEq Name] in
@[simp] theorem code_switched_self (next : TcbRef Core) :
    (s.switched core rest next).code (s.current core) = rest :=
  update_self ..

omit [DecidableEq Name] in
theorem code_switched_of_ne (next : TcbRef Core) {thread : TcbRef Core}
    (apart : thread ≠ s.current core) :
    (s.switched core rest next).code thread = s.code thread :=
  update_of_ne apart _ _

omit [DecidableEq Name] in
@[simp] theorem held_switched (next thread : TcbRef Core) :
    (s.switched core rest next).held thread = s.held thread := rfl

omit [DecidableEq Name] in
theorem holds_switched (next : TcbRef Core) (thread : TcbRef Core) :
    (s.switched core rest next).sched.holds thread = s.sched.holds thread := by
  cases thread <;> rfl

section Switch
variable {next : TcbRef Core} (disciplined : Disciplined s)
  (point : s.sched.point core = .selected next) (masked : s.preemption core = false)
  (fits : Fits rest false (s.held (s.current core)))

include disciplined point masked fits in
/-- The core goes on in the code of the thread it is given. -/
theorem Disciplined.running_switched (other : Core) :
    Fits ((s.switched core rest next).code ((s.switched core rest next).current other))
      (s.preemption other) (s.held ((s.switched core rest next).current other)) := by
  rw [current_switched]
  split
  next here =>
    subst other
    rw [masked]
    by_cases mine : next = s.current core
    · rw [mine, code_switched_self]
      exact fits
    · obtain ⟨-, nothing, -, ready⟩ := disciplined.comes point mine
      rw [code_switched_of_ne next mine, nothing]
      exact ready
  next there =>
    rw [code_switched_of_ne next (disciplined.apart there)]
    exact disciplined.running other

include disciplined masked in
theorem Disciplined.steady_switched (other : Core) (enabled : s.preemption other = true) :
    Unmasked (s.held ((s.switched core rest next).current other)) := by
  rw [current_switched]
  split
  next here =>
    subst other
    cases masked.symm.trans enabled
  next => exact disciplined.steady other enabled

include disciplined fits in
/-- The thread that is left holds nothing, and is at the head of its `gain`. -/
theorem Disciplined.away_switched (boards : Boards rest)
    (leaves : next ≠ s.current core → s.held (s.current core) = noMutex) {thread : TcbRef Core}
    (out : ∀ other, (s.switched core rest next).current other ≠ thread) :
    s.held thread = noMutex ∧ (s.sched.holds thread = true →
      Boards ((s.switched core rest next).code thread) ∧
        Fits ((s.switched core rest next).code thread) false noMutex) := by
  by_cases mine : thread = s.current core
  · subst thread
    have left : next ≠ s.current core := by simpa [current_switched] using out core
    have nothing := leaves left
    rw [code_switched_self]
    exact ⟨nothing, fun _ => ⟨boards, nothing ▸ fits⟩⟩
  · rw [code_switched_of_ne next mine]
    apply disciplined.away thread
    intro other
    by_cases here : other = core
    · exact here ▸ Ne.symm mine
    · simpa [current_switched, here] using out other

include disciplined point in
/-- A core that arrives in another thread is at the head of its `gain`. -/
theorem Disciplined.arrived_switched {other : Core}
    (at_switched : (s.switched core rest next).sched.point other = .switched)
    (apart : (s.switched core rest next).current other ≠
      (s.switched core rest next).sched.previous other) :
    Boarding ((s.switched core rest next).code ((s.switched core rest next).current other)) ∧
      s.held ((s.switched core rest next).current other) .activeThreadsSpinlock = false := by
  have before : (s.switched core rest next).sched.previous other = s.sched.previous other :=
    Scheduler.swapContext_previous core next other
  rw [before, current_switched] at apart
  rw [current_switched]
  split at apart
  next here =>
    subst other
    rw [disciplined.sched.selected core next point] at apart
    obtain ⟨-, nothing, ⟨more, boards⟩, -⟩ := disciplined.comes point apart
    rw [if_pos rfl, code_switched_of_ne next apart, nothing, boards]
    exact ⟨trivial, rfl⟩
  next there =>
    have points : (s.switched core rest next).sched.point other = s.sched.point other :=
      (Scheduler.swapContext_point core next other).trans (if_neg there)
    rw [if_neg there, code_switched_of_ne next (disciplined.apart there)]
    exact disciplined.arrived other (points ▸ at_switched) apart

end Switch

/-- A core is given the thread it chose. -/
theorem Disciplined.swapContext (disciplined : Disciplined s) {cause : SchedCause}
    (head : s.code (s.current core) = .swapContext cause :: rest)
    (keeps : forced cause = true → ∀ next, s.sched.point core = .selected next →
      next ≠ s.current core → s.LeavesFree (s.current core))
    (moved : s.execute core rest (.swapContext cause) = some t) : Disciplined t := by
  have fits := disciplined.running core
  rw [head] at fits
  obtain ⟨masked, unmasked, may, boards, fits⟩ := fits
  obtain ⟨sched, stepped, shape⟩ := schedule_cases moved
  obtain ⟨next, point, rfl⟩ : ∃ next, s.sched.point core = .selected next ∧
      sched = Scheduler.swapContext s.sched core next := by
    cases Scheduler.stepped_of_step stepped with
    | swapContext point => exact ⟨_, point, rfl⟩
  obtain rfl : t = s.switched core rest next := shape
  have leaves : next ≠ s.current core → s.held (s.current core) = noMutex := by
    intro left
    rcases may with forced | nothing
    · exact noMutex_of_leavesFree (keeps forced next point left) unmasked
    · exact nothing
  refine ⟨Scheduler.swapContext_inv disciplined.sched point,
    disciplined.running_switched point masked fits, disciplined.steady_switched masked,
    fun thread out => ?_, fun other => disciplined.arrived_switched point⟩
  rw [held_switched, holds_switched]
  exact disciplined.away_switched fits boards leaves out

theorem Disciplined.restore (disciplined : Disciplined s) {preempt : Bool}
    (head : s.code (s.current core) = .restore preempt :: rest)
    (moved : s.execute core rest (.restore preempt) = some t) : Disciplined t := by
  have fits := disciplined.running core
  rw [head] at fits
  cases moved
  cases preempt with
  | false =>
    refine disciplined.continues head rfl rfl rfl (fun _ _ => rfl) (by simp [Boarding]) ?_
      (disciplined.steady core)
    simpa [State.setCode] using fits.2
  | true =>
    refine disciplined.continues head rfl rfl rfl (fun _ apart => update_of_ne apart _ _)
      (by simp [Boarding]) ?_ (fun _ => fits.1 rfl)
    simpa [State.setCode, State.setPreemption] using fits.2

/-- The thread goes on to the next instruction, or to other code, with
preemption and the mutexes as they are. -/
theorem Disciplined.stays (disciplined : Disciplined s) {instr : Instr Core Name}
    {code : List (Instr Core Name)} (head : s.code (s.current core) = instr :: rest)
    (sched : t.sched = s.sched) (mutex : t.mutex = s.mutex)
    (codes : t.code = update s.code (s.current core) code) (preempt : t.preemption = s.preemption)
    (boards : ¬ Boarding (instr :: rest))
    (fits : Fits code (s.preemption core) (s.held (s.current core))) : Disciplined t :=
  disciplined.continues head sched mutex codes (fun other _ => congrFun preempt other)
    (fun boarding => absurd boarding boards) (preempt ▸ fits)
    (preempt ▸ disciplined.steady core)

theorem Disciplined.recheck (disciplined : Disciplined s) {cv : Cv Name}
    (head : s.code (s.current core) = .recheck cv :: rest)
    (moved : s.execute core rest (.recheck cv) = some t) : Disciplined t := by
  have fits := disciplined.running core
  rw [head] at fits
  cases moved
  simp only [State.recheckRing]
  split
  · exact disciplined.stays head rfl rfl rfl rfl (by simp [Boarding]) fits
  · exact disciplined.stays head rfl rfl rfl rfl (by simp [Boarding]) fits

theorem Disciplined.cvSignal (disciplined : Disciplined s) {cv : Cv Name} {broadcast : Bool}
    (head : s.code (s.current core) = .cvSignal cv broadcast :: rest)
    (moved : s.execute core rest (.cvSignal cv broadcast) = some t) : Disciplined t := by
  have fits := disciplined.running core
  rw [head] at fits
  simp only [State.execute] at moved
  split at moved
  · cases moved
    exact disciplined.stays head rfl rfl rfl rfl (by simp [Boarding]) fits.2
  · cases moved
    exact disciplined.stays head rfl rfl rfl rfl (by simp [Boarding]) fits

/-- `kernel_sem_down` goes on, or begins its wait with `kernel_mutex` alone. -/
theorem Disciplined.semDown (disciplined : Disciplined s)
    (head : s.code (s.current core) = .semDown :: rest)
    (moved : s.execute core rest .semDown = some t) : Disciplined t := by
  have fits := disciplined.running core
  rw [head] at fits
  simp only [State.execute] at moved
  split at moved
  · cases moved
    refine disciplined.stays head rfl rfl rfl rfl (by simp [Boarding]) ?_
    obtain ⟨alone, rest⟩ := fits
    rw [alone] at rest ⊢
    exact fits_cvWait (by simp) (by simp) (fun _ => ⟨rfl, rfl⟩) (by simp [Mutex.masked])
      ⟨rfl, rest⟩
  · cases moved
    exact disciplined.stays head rfl rfl rfl rfl (by simp [Boarding]) fits.2

/-- The loop of `idle_thread` goes round, or ends with the last `yield`. -/
theorem Disciplined.idle (disciplined : Disciplined s)
    (head : s.code (s.current core) = .idle :: rest)
    (moved : s.execute core rest .idle = some t) : Disciplined t := by
  have fits := disciplined.running core
  rw [head] at fits
  cases moved
  obtain ⟨enabled, nothing, rfl⟩ := fits
  refine disciplined.stays head rfl rfl rfl rfl (by simp [Boarding]) ?_
  rw [nothing]
  split
  · exact ⟨unmasked_noMutex, .inr rfl, enabled, rfl, rfl⟩
  · exact ⟨enabled, rfl⟩

/-- Every instruction of a thread keeps the discipline, if a switch in the ALARM
handler or in `Mutex_Lock` leaves the mutexes free. -/
theorem Disciplined.execute (disciplined : Disciplined s) {instr : Instr Core Name}
    (head : s.code (s.current core) = instr :: rest)
    (keeps : ∀ cause, instr = .swapContext cause → forced cause = true →
      ∀ next, s.sched.point core = .selected next → next ≠ s.current core →
        s.LeavesFree (s.current core))
    (moved : s.execute core rest instr = some t) : Disciplined t := by
  have fits := disciplined.running core
  rw [head] at fits
  have steady := disciplined.steady core
  cases instr with
  | mutexLock mutex => exact disciplined.mutexLock head moved
  | mutexSpin mutex spin => exact disciplined.mutexSpin head moved
  | mutexUnlock mutex => exact disciplined.mutexUnlock head moved
  | takeOver => exact disciplined.takeOver head moved
  | makeReady thread signal preempt => exact disciplined.makeReady head moved
  | fallAsleep newstate cause timeout => exact disciplined.fallAsleep head moved
  | swapContext cause => exact disciplined.swapContext head (keeps cause rfl) moved
  | restore preempt => exact disciplined.restore head moved
  | recheck cv => exact disciplined.recheck head moved
  | cvSignal cv broadcast => exact disciplined.cvSignal head moved
  | semDown => exact disciplined.semDown head moved
  | idle => exact disciplined.idle head moved
  | select cause | readSerial devno size count | inKernel => simp [State.execute] at moved
  | preemptOff =>
    cases moved
    exact disciplined.masks head (by simp [Boarding]) fits
  | yield cause =>
    cases moved
    exact disciplined.masks head (by simp [Boarding]) (fits_yieldBody fits.1 fits.2.1 fits.2.2)
  | wakeup thread signal =>
    cases moved
    exact disciplined.masks head (by simp [Boarding]) (fits_wakeupBody fits.1 steady fits.2)
  | sleepReleasing newstate mutex cause timeout =>
    cases moved
    exact disciplined.masks head (by simp [Boarding])
      (fits_sleepBody fits.1 fits.2.1 fits.2.2.1 fits.2.2.2)
  | serialRxHandler =>
    cases moved
    exact disciplined.masks head (by simp [Boarding])
      (fits_serialRxBody s.serialPorts fits.1 fits.2)
  | countThread | uncountThread | enqueue cv | semUp =>
    cases moved
    exact disciplined.stays head rfl rfl rfl rfl (by simp [Boarding]) fits
  | markSignalled waiter cv broadcast =>
    cases moved
    refine disciplined.stays head rfl rfl rfl rfl (by simp [Boarding]) ?_
    split
    · exact fits
    · exact fits.2

end

/-! ### Runs -/

section
variable {s t : State Core Name}

/-- Where the ALARM handler or `Mutex_Lock` switches to another thread, the
thread that is left holds no mutex that code with preemption off may want. -/
def KeepsLocks (s : State Core Name) : Label Core Name → Prop
  | .run core => ∀ cause rest next, s.code (s.current core) = .swapContext cause :: rest →
      forced cause = true → s.sched.point core = .selected next → next ≠ s.current core →
      s.LeavesFree (s.current core)
  | _ => True

/-- An interrupt puts its code on top of that of the thread. -/
theorem Disciplined.interrupt (disciplined : Disciplined s) {core : Core}
    (enabled : s.preemption core = true) {instr : Instr Core Name}
    (fits : Fits (instr :: s.code (s.current core)) true (s.held (s.current core))) :
    Disciplined (s.setCode (s.current core) (instr :: s.code (s.current core))) := by
  refine disciplined.proceeds (Stays.refl s.sched) disciplined.sched rfl
    (fun thread apart => update_of_ne apart _ _) (fun _ _ => rfl) (fun boarding => ?_) ?_
    (disciplined.steady core)
  · cases (boarding.masked (disciplined.running core)).symm.trans enabled
  · simpa [State.setCode, enabled] using fits

/-- A thread in user code, or between the calls of a system call, calls. -/
theorem Disciplined.calls (disciplined : Disciplined s) {core : Core}
    (between : s.code (s.current core) = [] ∨ s.code (s.current core) = [.inKernel])
    {code : List (Instr Core Name)} (fits : Fits code true noMutex) :
    Disciplined (s.setCode (s.current core) code) := by
  have running := disciplined.running core
  obtain ⟨enabled, nothing⟩ :
      s.preemption core = true ∧ s.held (s.current core) = noMutex := by
    rcases between with head | head
    · rwa [head] at running
    · rw [head] at running
      exact ⟨running.1, running.2.1⟩
  refine disciplined.proceeds (Stays.refl s.sched) disciplined.sched rfl
    (fun thread apart => update_of_ne apart _ _) (fun _ _ => rfl) (fun boarding => ?_) ?_
    (disciplined.steady core)
  · cases (boarding.masked running).symm.trans enabled
  · simpa [State.setCode, enabled, nothing] using fits

theorem Disciplined.fresh (disciplined : Disciplined s) {address : Nat}
    (free : s.sched.allocated address = false) (core : Core) : s.current core ≠ .heap address := by
  intro same
  have held := disciplined.sched.occupied_holds core _ (.inl rfl)
  rw [show s.sched.current core = .heap address from same, Scheduler.State.holds, free] at held
  cases held

/-- The new thread is on no core. -/
theorem Disciplined.spawns (disciplined : Disciplined s) {address : Nat}
    (free : s.sched.allocated address = false) :
    Disciplined { s.setCode (.heap address) threadStart with
      sched := Scheduler.spawnThread s.sched address } := by
  have out := disciplined.fresh free
  have codes : ∀ thread, thread ≠ .heap address →
      (s.setCode (.heap address) threadStart).code thread = s.code thread :=
    fun thread apart => update_of_ne apart _ _
  refine ⟨Scheduler.spawnThread_inv disciplined.sched free, fun other => ?_, disciplined.steady,
    fun thread away => ?_, fun other point apart => ?_⟩
  · change Fits ((s.setCode (.heap address) threadStart).code (s.current other)) _ _
    rw [codes _ (out other)]
    exact disciplined.running other
  · obtain ⟨nothing, ready⟩ := disciplined.away thread away
    refine ⟨nothing, fun holds => ?_⟩
    by_cases same : thread = .heap address
    · subst thread
      have code : (s.setCode (.heap address) threadStart).code (.heap address) = threadStart :=
        update_self ..
      change Boards ((s.setCode (.heap address) threadStart).code (.heap address)) ∧
        Fits ((s.setCode (.heap address) threadStart).code (.heap address)) false noMutex
      rw [code]
      exact ⟨⟨_, rfl⟩, fits_threadStart⟩
    · change Boards ((s.setCode (.heap address) threadStart).code thread) ∧
        Fits ((s.setCode (.heap address) threadStart).code thread) false noMutex
      rw [codes thread same]
      apply ready
      cases thread with
      | idleThread home => rfl
      | heap other =>
        have apart : other ≠ address := by simpa using same
        simpa [Scheduler.State.holds, Scheduler.spawnThread, apart] using holds
  · change Boarding ((s.setCode (.heap address) threadStart).code (s.current other)) ∧ _
    rw [codes _ (out other)]
    exact disciplined.arrived other point apart

/-- The scheduler chooses the next thread of the core, under `sched_spinlock`. -/
theorem Disciplined.selects (disciplined : Disciplined s) {core : Core} {remaining : BitVec 64}
    (moved : step s (.select core remaining) = some t) : Disciplined t := by
  simp only [Preemption.step] at moved
  split at moved
  next cause rest head =>
    have fits := disciplined.running core
    rw [head] at fits
    obtain ⟨sched, stepped, rfl⟩ := schedule_cases moved
    exact disciplined.underLock head (by simp [Boarding]) (stays_yield disciplined.sched stepped)
      (Scheduler.step_inv disciplined.sched stepped) fits.1 fits.2
  · cases moved

/-- `serial_read` takes a byte, waits with nothing held, or returns. -/
theorem Disciplined.readSerial (disciplined : Disciplined s) {core : Core} {valid : Bool}
    (moved : step s (.readSerial core valid) = some t) : Disciplined t := by
  simp only [Preemption.step] at moved
  split at moved
  next devno size count rest head =>
    have fits := disciplined.running core
    rw [head] at fits
    obtain ⟨masked, nothing, fits⟩ := fits
    cases moved
    refine disciplined.stays head rfl rfl rfl rfl (by simp [Boarding]) ?_
    rw [masked, nothing]
    split
    · split
      · exact ⟨rfl, rfl, fits⟩
      · split
        · exact fits_kernelWait (fun _ => rfl) (fun _ => rfl) ⟨rfl, rfl, fits⟩
        · exact fits
    · exact fits
  · cases moved

/-- `spawn_thread`, between the calls of a system call: the new thread is on no
core, and its caller goes on to count it. -/
theorem Disciplined.spawnThread (disciplined : Disciplined s) {core : Core} {address : Nat}
    (moved : step s (.spawnThread core address) = some t) : Disciplined t := by
  simp only [Preemption.step] at moved
  split at moved
  next head =>
    obtain ⟨sched, stepped, rfl⟩ := Option.map_eq_some_iff.mp moved
    have stepped : Scheduler.step s.sched (.spawnThread core address) = some sched := stepped
    obtain ⟨-, free⟩ := Scheduler.stepped_of_step stepped
    have code : update s.code (.heap address) threadStart (s.current core) = [.inKernel] := by
      rw [update_of_ne (disciplined.fresh free core), head]
    have fits : Fits (Preemption.spawnThread ++ [(.inKernel : Instr Core Name)]) true noMutex :=
      fits_counting (.inl rfl) rfl fits_inKernel
    exact (disciplined.spawns free).calls (.inr code) fits
  · cases moved

theorem Disciplined.step (disciplined : Disciplined s) {label : Label Core Name}
    (keeps : KeepsLocks s label) (moved : step s label = some t) : Disciplined t := by
  cases label with
  | run core =>
    simp only [Preemption.step] at moved
    split at moved
    · cases moved
    next instr rest head =>
      exact disciplined.execute head
        (fun cause same forced next => keeps cause rest next (same ▸ head) forced) moved
  | select core remaining => exact disciplined.selects moved
  | readSerial core valid => exact disciplined.readSerial moved
  | spawnThread core address => exact disciplined.spawnThread moved
  | call core call =>
    simp only [Preemption.step] at moved
    split at moved
    next head _ =>
      cases moved
      exact disciplined.calls (.inl head) (fits_call call)
    · cases moved
  | kernelCall core call =>
    simp only [Preemption.step] at moved
    split at moved
    next head =>
      cases moved
      exact disciplined.calls (.inr head) (fits_kernelCall call)
    · cases moved
  | alarm core =>
    simp only [Preemption.step] at moved
    split at moved
    next enabled =>
      cases moved
      refine disciplined.interrupt enabled ⟨disciplined.steady core enabled, .inl rfl, ?_⟩
      exact enabled ▸ disciplined.running core
    · cases moved
  | serialRxReady core =>
    simp only [Preemption.step] at moved
    split at moved
    next enabled =>
      cases moved
      refine disciplined.interrupt enabled ⟨disciplined.steady core enabled, ?_⟩
      exact enabled ▸ disciplined.running core
    · cases moved
  | tick clock =>
    simp only [Preemption.step, State.schedule] at moved
    obtain ⟨sched, stepped, rfl⟩ := Option.map_eq_some_iff.mp moved
    have inv := Scheduler.step_inv disciplined.sched stepped
    obtain ⟨⟩ := Scheduler.stepped_of_step stepped
    exact ⟨inv, disciplined.running, disciplined.steady, disciplined.away, disciplined.arrived⟩

theorem disciplined_boot (memory : Nat → Scheduler.Tcb) (clock : BitVec 64) (main : Nat)
    (waiter : TcbRef Core → CondVar.Waiter) (serialPorts : Nat) :
    Disciplined (boot memory clock main waiter serialPorts : State Core Name) := by
  let before : Scheduler.State Core := Scheduler.spawnThread (Scheduler.boot memory clock) main
  have inv : Scheduler.Inv before :=
    Scheduler.spawnThread_inv (Scheduler.boot_inv memory clock) rfl
  have held : before.holds (.heap main) = true := by
    simp [before, Scheduler.State.holds, Scheduler.spawnThread]
  have init : (before.tcb (.heap main)).state = .init := by
    simp [before, Scheduler.spawnThread, Scheduler.State.setTcb]
  have ready : (Scheduler.wakeup before (.heap main)).2 = Scheduler.readied before (.heap main) := by
    rw [Scheduler.wakeup, if_pos (.inr init), Scheduler.makeReady_eq inv held (.inr init)]
  have nothing : ∀ thread,
      (boot memory clock main waiter serialPorts : State Core Name).held thread = noMutex := by
    intro thread
    funext mutex
    simp [State.held, boot, noMutex]
  have sched : (boot memory clock main waiter serialPorts : State Core Name).sched =
      Scheduler.readied before (.heap main) := ready
  have current : ∀ core, (boot memory clock main waiter serialPorts : State Core Name).current core =
      .idleThread core := by
    intro core
    rw [State.current, sched]
    rfl
  refine ⟨Scheduler.wakeup_inv inv held, fun core => ?_, fun core _ => ?_, fun thread out => ?_,
    fun core point => ?_⟩
  · rw [current, nothing]
    exact fits_idleThread
  · rw [nothing]
    exact unmasked_noMutex
  · refine ⟨nothing thread, fun _ => ?_⟩
    cases thread with
    | idleThread home => exact absurd (current home) (out home)
    | heap address => exact ⟨⟨_, rfl⟩, fits_threadStart⟩
  · rw [sched] at point
    cases point

/-- Whoever code with preemption off waits for is on another core. -/
theorem Disciplined.noHopelessSpin (disciplined : Disciplined s) : s.NoHopelessSpin := by
  intro core mutex masked spinning
  obtain ⟨rest, locked⟩ : ∃ rest, Fits (.mutexLock mutex :: rest) (s.preemption core)
      (s.held (s.current core)) ∧ s.mutex mutex ≠ none := by
    have fits := disciplined.running core
    unfold State.spinsOn at spinning
    split at spinning
    next head =>
      rw [head] at fits
      split at spinning
      · cases spinning
      next locked =>
        cases spinning
        exact ⟨_, fits, locked⟩
    next head =>
      rw [head] at fits
      split at spinning
      · cases spinning
      next locked =>
        cases spinning
        exact ⟨_, fits, locked⟩
    · cases spinning
  obtain ⟨⟨free, spins, -⟩, locked⟩ := locked
  obtain ⟨holder, holds⟩ := Option.ne_none_iff_exists'.mp locked
  have held : s.held holder mutex = true := by simp [State.held, spins masked, holds]
  have apart : holder ≠ s.current core := by
    rintro rfl
    cases free.symm.trans held
  by_cases away : ∀ other, s.current other ≠ holder
  · rw [(disciplined.away holder away).1] at held
    cases held
  · obtain ⟨other, here⟩ := not_forall_not.mp away
    refine ⟨other, ?_, by rw [here, holds]⟩
    rintro rfl
    exact apart here.symm

/-- **No hopeless spin.** As long as every switch in the ALARM handler or in
`Mutex_Lock` leaves `kernel_mutex`, the lock of the waitset of the kernel
semaphore and `active_threads_spinlock` to others, code with preemption off that
spins waits for a thread that executes on another core. -/
theorem no_hopeless_spin (reached : (machine Core Name).ReachableBy KeepsLocks s) :
    s.NoHopelessSpin := by
  apply Disciplined.noHopelessSpin
  refine Machine.ReachableBy.induction ?_ ?_ reached
  · rintro s ⟨memory, clock, main, waiter, serialPorts, rfl⟩
    exact disciplined_boot memory clock main waiter serialPorts
  · intro s label t disciplined keeps moved
    exact disciplined.step keeps moved

omit [DecidableEq Core] [DecidableEq Name] in
theorem keepsLocks_run (core : Core) {instr : Instr Core Name} {rest : List (Instr Core Name)}
    (head : s.code (s.current core) = instr :: rest)
    (other : ∀ cause, instr ≠ .swapContext cause) : KeepsLocks s (.run core) := by
  intro cause more next same
  rw [head] at same
  exact absurd (List.cons.inj same).1 (other cause)

end

/-- Both cores in `yield` of their idle threads, one of them past
`Mutex_Lock(&sched_spinlock)`. -/
theorem no_hopeless_spin_yields : ∃ s : State Bool Unit, s.NoHopelessSpin ∧
    s.preemption false = false ∧ s.spinsOn false = some .schedSpinlock := by
  have start : (machine Bool Unit).ReachableBy KeepsLocks
      (boot (fun _ => Scheduler.idleTcb) 0 1 (fun _ => ⟨false, false⟩) 1) :=
    .start ⟨_, _, _, _, _, rfl⟩
  have calls := start.step (keepsLocks_run true rfl (by simp)) rfl
  have locks := calls.step (keepsLocks_run true rfl (by simp)) rfl
  have spins := locks.step (keepsLocks_run false rfl (by simp)) rfl
  exact ⟨_, no_hopeless_spin spins, rfl, rfl⟩

/-! ### The schedule that spins forever -/

/-- One core, whose thread 1 locks the kernel, spawns thread 2 and wakes it,
and then an ALARM. Thread 2 enters `kernel_lock`, and an ALARM comes while it
holds `kernel_mutex`. Thread 1 goes on, and reads from a serial device that has
no byte for it. -/
def hopelessSchedule : List (Label Unit Unit) :=
  let runs (steps : Nat) : List (Label Unit Unit) := List.replicate steps (.run ())
  let switch := runs 2 ++ [.select () 0] ++ runs 6
  switch ++ [.call () .systemCall] ++ runs 3 ++ [.spawnThread () 2] ++ runs 3 ++
    [.kernelCall () (.wakeup (.heap 2))] ++ runs 5 ++ [.alarm ()] ++
    switch ++ [.call () .systemCall] ++ runs 1 ++ [.alarm ()] ++
    switch ++ [.kernelCall () (.serialRead 0 1), .run (), .readSerial () false]

/-- Thread 1 spins with preemption off for `kernel_mutex`, which thread 2 holds
on no core. -/
theorem hopeless_spin :
    ¬ ∀ s : State Unit Unit, (machine Unit Unit).Reachable s → s.NoHopelessSpin := by
  intro never
  have ran : (hopelessSchedule.foldlM step
      (boot (fun _ => Scheduler.idleTcb) 0 1 (fun _ => ⟨false, false⟩) 1)).map
        (fun s => (s.preemption (), s.spinsOn ())) = some (false, some .kernelMutex) := by
    decide +kernel
  obtain ⟨s, run, spins⟩ := Option.map_eq_some_iff.mp ran
  obtain ⟨masked, spinning⟩ := Prod.mk.inj spins
  have reached : (machine Unit Unit).Reachable s :=
    Machine.Reachable.replay (.start ⟨_, _, _, _, _, rfl⟩) hopelessSchedule run
  obtain ⟨other, apart, -⟩ := never s reached () .kernelMutex masked spinning
  exact apart rfl

end TinyOs.Preemption
