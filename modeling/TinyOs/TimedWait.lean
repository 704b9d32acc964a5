import TinyOs.TimeoutList

/-! When a thread that called `Cond_TimedWait` may be made ready by
`sched_wakeup_expired_timeouts`. The deadline is a product and a sum modulo
2^64, so a timeout beyond the end of the clock expires too early. -/
namespace TinyOs.Scheduler
open Library Function
variable {Core : Type*} [DecidableEq Core] {s t u : State Core}

/-- The thread is asleep all along a run from one state to another. -/
inductive SleepsOn (thread : TcbRef Core) (s : State Core) : State Core → Prop where
  | here : (s.tcb thread).state = .stopped → SleepsOn thread s s
  | step {t u : State Core} {label : Label Core} : SleepsOn thread s t →
      Scheduler.step t label = some u → (u.tcb thread).state = .stopped → SleepsOn thread s u

/-- The `sched_wakeup_expired_timeouts` of a `yield` makes the thread ready. -/
def Expires (t : State Core) (core : Core) (cause : SchedCause) (remaining : TimerDuration)
    (thread : TcbRef Core) : Prop :=
  (step t (.yield core cause remaining)).isSome ∧
    ((schedWakeupExpiredTimeouts (endTimeSlice t core cause remaining)).tcb thread).state = .ready

/-- The thread, asleep since the given state, is made ready at the time `now`. -/
def ExpiresAt (t : State Core) (thread : TcbRef Core) (now : Nat) : Prop :=
  ∃ u core cause remaining, SleepsOn thread t u ∧ (biosClock u).toNat = now ∧
    Expires u core cause remaining thread

/-- The thread sleeps with the given deadline. -/
structure Due (s : State Core) (thread : TcbRef Core) (deadline : TimerDuration) : Prop where
  listed : thread ∈ s.timeoutList
  wakeupTime : (s.tcb thread).wakeupTime = deadline

/-! ### The deadline of a sleeping thread -/

section
variable {thread : TcbRef Core} {deadline : TimerDuration}

/-- `sleep_releasing` registers the deadline. -/
theorem due_sleepReleasing (inv : Inv s) {core : Core} {cause : SchedCause} {timeout : BitVec 64}
    (sleeps : step s (.sleepReleasing core .stopped cause (some timeout)) = some t) :
    Due t (s.current core) (biosClock s + timeout * 1000) ∧
      (t.tcb (s.current core)).state = .stopped ∧ t.point core = .blocked cause ∧
      biosClock t = biosClock s := by
  cases normal : s.current core with
  | idleThread c => simp [step, normal] at sleeps
  | heap address =>
    obtain ⟨-, rfl⟩ : _ ∧ sleepReleasing s core .stopped cause (sleepTimeout (some timeout)) = t := by
      simpa [step, normal] using sleeps
    rw [sleepReleasing_timed inv core cause timeout, ← normal]
    refine ⟨⟨?_, ?_⟩, ?_, ?_, rfl⟩
    · exact (List.mem_orderedInsert ..).mpr (.inl rfl)
    · simp [timedTcb, sleepTimeout]
    · simp [timedTcb]
    · simp

omit [DecidableEq Core] in
theorem Due.apart (due : Due s thread deadline) (inv : Inv s) {core : Core}
    (point : s.point core = .executing) : thread ≠ s.current core := by
  rintro rfl
  cases (inv.timed_stopped _ due.listed).2.symm.trans (inv.executing core point).1

/-- The pass over the expired timeouts in a `yield` makes exactly those ready
whose deadlines have come. -/
theorem Due.expires_iff (due : Due s thread deadline) (inv : Inv s)
    {past : List (State Core × Label Core)} (timely : Timely past s) {core : Core}
    {cause : SchedCause} {remaining : TimerDuration}
    (enabled : (step s (.yield core cause remaining)).isSome) :
    Expires s core cause remaining thread ↔ deadline ≤ biosClock s := by
  have point : s.point core = .executing ∨ s.point core = .blocked cause := by
    simpa [step] using enabled
  have ended := endTimeSlice_inv inv point remaining
  have expired := (expiry ended (timely.endTimeSlice core cause remaining)).tcb thread
  have listed : thread ∈ (endTimeSlice s core cause remaining).timeoutList := due.listed
  have stopped := (ended.timed_stopped thread listed).2
  have clock : biosClock (endTimeSlice s core cause remaining) = biosClock s := rfl
  rw [Timely.wakeupTime_endTimeSlice, due.wakeupTime, clock] at expired
  rw [Expires, and_iff_right enabled]
  by_cases late : deadline ≤ biosClock s
  · rw [if_pos ⟨listed, late⟩] at expired
    simp [expired, late]
  · rw [if_neg fun both => late both.2] at expired
    simp [expired, late, stopped]

/-- The section of `yield` keeps the deadline of a thread that it does not make
ready. -/
theorem Due.yield (due : Due s thread deadline) (inv : Inv s)
    {past : List (State Core × Label Core)} (timely : Timely past s) {core : Core}
    {cause : SchedCause} {remaining : TimerDuration}
    (point : s.point core = .executing ∨ s.point core = .blocked cause)
    (asleep : ((Scheduler.yield s core cause remaining).tcb thread).state = .stopped) :
    Due (Scheduler.yield s core cause remaining) thread deadline := by
  have enabled : (Scheduler.step s (.yield core cause remaining)).isSome := by
    simpa [Scheduler.step] using point
  have ended := endTimeSlice_inv inv point remaining
  have expired := expiry ended (timely.endTimeSlice core cause remaining)
  have listed : thread ∈ (endTimeSlice s core cause remaining).timeoutList := due.listed
  have wakeupTime : ((endTimeSlice s core cause remaining).tcb thread).wakeupTime = deadline := by
    rw [Timely.wakeupTime_endTimeSlice, due.wakeupTime]
  obtain ⟨next, sched, count, shape, -⟩ :=
    selectNext_cases (schedWakeupExpiredTimeouts (endTimeSlice s core cause remaining)) core
  have yields : Scheduler.yield s core cause remaining = selectedState
      (schedWakeupExpiredTimeouts (endTimeSlice s core cause remaining)) core next sched count := shape
  rw [yields] at asleep ⊢
  have late : ¬ deadline ≤ biosClock s := by
    intro late
    have ready := ((due.expires_iff inv timely enabled).mpr late).2
    rw [selectedState_tcb] at asleep
    split at asleep
    next same =>
      rw [← same, ready] at asleep
      cases asleep
    next =>
      rw [ready] at asleep
      cases asleep
  have kept := expired.tcb thread
  rw [wakeupTime, if_neg fun both => late both.2] at kept
  refine ⟨?_, ?_⟩
  · change thread ∈ (schedWakeupExpiredTimeouts (endTimeSlice s core cause remaining)).timeoutList
    rw [expired.list, List.mem_filter]
    exact ⟨listed, by rw [wakeupTime]; exact decide_eq_true (BitVec.not_le.mp late)⟩
  · rw [selectedState_tcb]
    split
    next same => rw [← same, kept, wakeupTime]
    next => rw [kept, wakeupTime]

/-- Nothing but its waking changes the deadline of a thread. -/
theorem Due.step (due : Due s thread deadline) (inv : Inv s)
    {past : List (State Core × Label Core)} (timely : Timely past s) {label : Label Core}
    (moved : step s label = some t) (asleep : (t.tcb thread).state = .stopped) :
    Due t thread deadline := by
  obtain ⟨held, stopped⟩ := inv.timed_stopped thread due.listed
  cases stepped_of_step moved with
  | @spawnThread core address _ free =>
    have apart : thread ≠ .heap address := by
      rintro rfl
      simp [State.holds, free] at held
    exact ⟨due.listed, by simpa [spawnThread, State.setTcb, apart] using due.wakeupTime⟩
  | @wakeup core other _ there =>
    unfold wakeup at asleep ⊢
    split at asleep
    next waiting =>
      rw [makeReady_eq inv there waiting] at asleep
      rw [if_pos waiting, makeReady_eq inv there waiting]
      have apart : thread ≠ other := by
        rintro rfl
        simp at asleep
      refine ⟨?_, by simpa [apart] using due.wakeupTime⟩
      exact (List.mem_erase_of_ne apart).mpr due.listed
    next idle =>
      rw [if_neg idle]
      exact due
  | @sleepReleasing core _ newstate cause timeout executing _ sleeps =>
    have apart := due.apart inv executing
    by_cases timed : newstate = .exited ∨ timeout = none
    · rw [sleepReleasing_untimed inv core sleeps cause timed]
      exact ⟨due.listed, by simpa [apart] using due.wakeupTime⟩
    · obtain ⟨sleeping, registers⟩ := not_or.mp timed
      obtain rfl := sleeps.resolve_right sleeping
      obtain ⟨milliseconds, rfl⟩ := Option.ne_none_iff_exists'.mp registers
      rw [sleepReleasing_timed inv core cause milliseconds]
      refine ⟨(List.mem_orderedInsert ..).mpr (.inr due.listed), ?_⟩
      simpa [apart] using due.wakeupTime
  | @yield core cause remaining point =>
    exact due.yield inv timely point asleep
  | @swapContext core next _ =>
    exact ⟨due.listed, due.wakeupTime⟩
  | @gain core point =>
    obtain ⟨phase, allocated, active, sched, shape⟩ := gain_gained inv point
    rw [shape] at asleep ⊢
    refine ⟨due.listed, ?_⟩
    rw [gained_tcb] at asleep ⊢
    split
    next same =>
      rw [if_pos same] at asleep
      cases asleep
    next =>
      split
      next same => rw [← same, due.wakeupTime]
      next => exact due.wakeupTime
  | @tick clock =>
    exact ⟨due.listed, due.wakeupTime⟩

/-- A thread that sleeps on keeps its deadline. -/
theorem SleepsOn.due (sleeps : SleepsOn thread s t) (due : Due s thread deadline)
    {past : List (State Core × Label Core)} (run : (machine Core).Run past s) :
    (∃ later, (machine Core).Run later t) ∧ Due t thread deadline := by
  induction sleeps with
  | here => exact ⟨⟨past, run⟩, due⟩
  | step _ moved asleep ih =>
    obtain ⟨⟨later, run⟩, due⟩ := ih
    obtain ⟨inv, timely⟩ := Timely.of_run run
    exact ⟨⟨_, run.step moved⟩, due.step inv timely moved asleep⟩

end

/-! ### The clock -/

omit [DecidableEq Core] in
theorem deadline_toNat (s : State Core) (timeout : BitVec 64) :
    (biosClock s + timeout * 1000).toNat =
      ((biosClock s).toNat + 1000 * timeout.toNat) % 2 ^ 64 := by
  have thousand : (1000 : BitVec 64).toNat = 1000 := rfl
  rw [BitVec.toNat_add, BitVec.toNat_mul, thousand]
  omega

omit [DecidableEq Core] in
/-- The clock and the deadlines are multiples of 8 microseconds. -/
theorem biosClock_mod (s : State Core) : (biosClock s).toNat % 8 = 0 := by
  have thousand : (1000 : BitVec 64).toNat = 1000 := rfl
  rw [biosClock, BitVec.toNat_mul, thousand]
  omega

/-- The last value that the clock takes before it starts again at zero. -/
def lastClock : BitVec 64 := 239807672958224171

omit [DecidableEq Core] in
theorem biosClock_last (s : State Core) :
    (biosClock { s with systemClock := lastClock }).toNat = 2 ^ 64 - 8 := by
  change (lastClock * 1000 : BitVec 64).toNat = 2 ^ 64 - 8
  decide

/-! ### Timed waits over whole runs -/

/-- The thread of the core, which goes to sleep for so many milliseconds, is
made ready by `sched_wakeup_expired_timeouts` before that time has passed. -/
def Early (s t : State Core) (core : Core) (timeout : BitVec 64) : Prop :=
  ∃ now, (biosClock s).toNat ≤ now ∧ now < (biosClock s).toNat + 1000 * timeout.toNat ∧
    ExpiresAt t (s.current core) now

theorem expires_since (reached : (machine Core).Reachable s) {core : Core} {cause : SchedCause}
    {timeout : BitVec 64}
    (sleeps : step s (.sleepReleasing core .stopped cause (some timeout)) = some t)
    (sleepsOn : SleepsOn (s.current core) t u) {core' : Core} {cause' : SchedCause}
    {remaining : TimerDuration} (enabled : (step u (.yield core' cause' remaining)).isSome) :
    Expires u core' cause' remaining (s.current core) ↔
      ((biosClock s).toNat + 1000 * timeout.toNat) % 2 ^ 64 ≤ (biosClock u).toNat := by
  obtain ⟨past, run⟩ := reached
  obtain ⟨due, -⟩ := due_sleepReleasing (Timely.of_run run).1 sleeps
  obtain ⟨⟨later, after⟩, due⟩ := sleepsOn.due due
    (run.next (.sleepReleasing core .stopped cause (some timeout)) sleeps)
  obtain ⟨inv, timely⟩ := Timely.of_run after
  rw [due.expires_iff inv timely enabled, BitVec.le_def, deadline_toNat]

theorem early_iff (reached : (machine Core).Reachable s) {core : Core} {cause : SchedCause}
    {timeout : BitVec 64}
    (sleeps : step s (.sleepReleasing core .stopped cause (some timeout)) = some t) :
    Early s t core timeout ↔ 2 ^ 64 ≤ (biosClock s).toNat + 1000 * timeout.toNat := by
  constructor
  · rintro ⟨now, -, before, u, core', cause', remaining, sleepsOn, rfl, expires⟩
    have late := (expires_since reached sleeps sleepsOn expires.1).mp expires
    by_contra fits
    rw [Nat.mod_eq_of_lt (not_le.mp fits)] at late
    exact absurd before (not_lt.mpr late)
  · intro beyond
    obtain ⟨past, run⟩ := reached
    obtain ⟨-, asleep, point, -⟩ := due_sleepReleasing (Timely.of_run run).1 sleeps
    -- The clock comes to its last value, and the core looks for expired timeouts.
    have ticks : step t (.tick lastClock) = some { t with systemClock := lastClock } := rfl
    have sleepsOn : SleepsOn (s.current core) t { t with systemClock := lastClock } :=
      (SleepsOn.here asleep).step ticks asleep
    have enabled : (step { t with systemClock := lastClock } (.yield core cause 0)).isSome := by
      simp [step, point]
    have now := biosClock_last t
    have multiple := biosClock_mod s
    have small := (biosClock s).isLt
    refine ⟨2 ^ 64 - 8, ?_, ?_, _, core, cause, 0, sleepsOn, now, ?_⟩
    · omega
    · omega
    · rw [expires_since ⟨past, run⟩ sleeps sleepsOn enabled, now]
      omega

/-- Two threads register at the same time, and neither timeout is beyond the end
of the clock. -/
theorem larger_later {s' t' : State Core} (reached : (machine Core).Reachable s)
    (reached' : (machine Core).Reachable s') {core core' : Core} {cause cause' : SchedCause}
    {timeout timeout' : BitVec 64}
    (sleeps : step s (.sleepReleasing core .stopped cause (some timeout)) = some t)
    (sleeps' : step s' (.sleepReleasing core' .stopped cause' (some timeout')) = some t')
    (together : biosClock s' = biosClock s) (smaller : timeout' ≤ timeout)
    (fits : (biosClock s).toNat + 1000 * timeout.toNat < 2 ^ 64)
    (sleepsOn : SleepsOn (s.current core) t u) (sleepsOn' : SleepsOn (s'.current core') t' u)
    {c : Core} {why : SchedCause} {remaining : TimerDuration}
    (expires : Expires u c why remaining (s.current core)) :
    Expires u c why remaining (s'.current core') := by
  rw [expires_since reached' sleeps' sleepsOn' expires.1, together]
  have late := (expires_since reached sleeps sleepsOn expires.1).mp expires
  have smaller := BitVec.le_def.mp smaller
  rw [Nat.mod_eq_of_lt fits] at late
  rw [Nat.mod_eq_of_lt (by omega)]
  omega

/-- **Timed waits do not expire early**, and larger timeouts not before smaller
ones, exactly when the end of the wait is not beyond that of the clock. -/
theorem timed_wait_iff (reached : (machine Core).Reachable s) {core : Core} {cause : SchedCause}
    {timeout : BitVec 64}
    (sleeps : step s (.sleepReleasing core .stopped cause (some timeout)) = some t) :
    (¬ Early s t core timeout ∧
        ∀ s' t' core' cause' timeout', (machine Core).Reachable s' →
          step s' (.sleepReleasing core' .stopped cause' (some timeout')) = some t' →
          biosClock s' = biosClock s → timeout' ≤ timeout →
          ∀ u, SleepsOn (s.current core) t u → SleepsOn (s'.current core') t' u →
            ∀ c why remaining, Expires u c why remaining (s.current core) →
              Expires u c why remaining (s'.current core')) ↔
      (biosClock s).toNat + 1000 * timeout.toNat < 2 ^ 64 := by
  rw [early_iff reached sleeps, not_le]
  constructor
  · exact fun both => both.1
  · intro fits
    refine ⟨fits, ?_⟩
    intro s' t' core' cause' timeout' reached' sleeps' together smaller u sleepsOn sleepsOn' c why
      remaining expires
    exact larger_later reached reached' sleeps sleeps' together smaller fits sleepsOn sleepsOn'
      expires

/-- One thread starts on one core, three milliseconds after the clock. -/
def started : State Unit :=
  gain (swapContext (yield (wakeup (spawnThread (boot (fun _ => idleTcb) 3) 7) (.heap 7)).2 () .idle 0)
    () (.heap 7)) ()

theorem started_reachable : (machine Unit).Reachable started := by
  refine Machine.Reachable.replay (.start ⟨fun _ => idleTcb, 3, rfl⟩)
    [.spawnThread () 7, .wakeup () (.heap 7), .yield () .idle 0, .swapContext (), .gain ()] ?_
  rfl

/-- It waits for five milliseconds. -/
theorem timed_wait_started : ∃ t,
    step started (.sleepReleasing () .stopped .user (some 5)) = some t ∧ ¬ Early started t () 5 :=
  ⟨_, rfl, ((timed_wait_iff started_reachable (by rfl)).mpr (by decide)).1⟩

/-- It waits for as long as a `timeout_t` can say, and its deadline is before
the time of the call. -/
theorem timed_wait_forever : ¬ ∀ (s t : State Unit) core cause timeout,
    (machine Unit).Reachable s →
    step s (.sleepReleasing core .stopped cause (some timeout)) = some t →
    ¬ Early s t core timeout := by
  intro never
  have sleeps : (step started (.sleepReleasing () .stopped .user (some (BitVec.allOnes 64)))).isSome := rfl
  obtain ⟨t, sleeps⟩ := Option.isSome_iff_exists.mp sleeps
  apply never started t () .user _ started_reachable sleeps
  have forever : (BitVec.allOnes 64).toNat = 2 ^ 64 - 1 := by decide
  rw [early_iff started_reachable sleeps, forever]
  omega

end TinyOs.Scheduler
