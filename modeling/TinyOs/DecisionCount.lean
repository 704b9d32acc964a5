import TinyOs.Selection

/-! The decision counter `scheduled`, an `int` that every decision increments. It
is reset by a decision that finds a thread in the queues, once it is past
`SCHED_MAX_SCHEDULED`, and by nothing else. -/
namespace TinyOs.Scheduler
open Library Function
variable {Core : Type*} [DecidableEq Core] {s t : State Core}

/-- `INT_MAX`. -/
def intMax : Int := 2 ^ 31 - 1

/-- The queues have no thread, whether or not one runs on some core. -/
def nothingQueued (s : State Core) : Bool := levels.all fun level => (s.sched level).isEmpty

/-- How many decisions in a row, up to the latest one, found nothing in the queues. -/
def fruitless (past : List (State Core × Core)) : Nat :=
  (past.takeWhile fun d => nothingQueued d.1).length

/-- Some `scheduled++` of the run leaves the range of an `int`. -/
def Overflows (past : List (State Core × Label Core)) : Prop :=
  ∃ d ∈ decisions past, intMax < (schedQueueSelect d.1 d.2).2.scheduled + 1

/-! ### The counter and the queues -/

theorem select_nothing (nothing : nothingQueued s = true) (core : Core) :
    (schedQueueSelect s core).2.scheduled = s.scheduled := by
  have empty : ∀ level ∈ levels, s.sched level = [] := by simpa [nothingQueued] using nothing
  exact (select_idle empty core).2.2

theorem select_something (something : nothingQueued s = false) (core : Core) :
    (schedQueueSelect s core).2.scheduled ≤ schedMaxScheduled := by
  obtain ⟨level, inside, some_here⟩ : ∃ level ∈ levels, s.sched level ≠ [] := by
    simpa [nothingQueued] using something
  obtain ⟨first, inside_first, some_first, above⟩ := first_level inside some_here
  obtain ⟨thread, queue, head⟩ := List.exists_cons_of_ne_nil some_first
  rw [(select_takes inside_first head above core).2]
  split
  next few => exact few
  next => decide

/-- The counter is the number of the latest fruitless decisions, up to what it may
have been before them. -/
theorem counted_fruitless {past : List (State Core × Core)} (counting : Counting past) :
    (fruitless past : Int) ≤ counted past ∧
      counted past ≤ fruitless past + (schedMaxScheduled + 1) := by
  induction past with
  | nil => exact ⟨le_refl 0, by simp [counted, fruitless, schedMaxScheduled]⟩
  | cons d older ih =>
    have nonneg := counted_nonneg counting
    obtain ⟨same, counting⟩ := counting
    obtain ⟨low, high⟩ := ih counting
    have count : counted (d :: older) = (schedQueueSelect d.1 d.2).2.scheduled + 1 := rfl
    cases queued : nothingQueued d.1 with
    | true =>
      have longer : fruitless (d :: older) = fruitless older + 1 := by simp [fruitless, queued]
      have kept := select_nothing queued d.2
      omega
    | false =>
      have ended : fruitless (d :: older) = 0 := by simp [fruitless, queued]
      have few := select_something queued d.2
      omega

theorem scheduled_fruitless {past : List (State Core × Label Core)}
    (run : (machine Core).Run past s) :
    (fruitless (decisions past) : Int) ≤ s.scheduled ∧
      s.scheduled ≤ fruitless (decisions past) + (schedMaxScheduled + 1) := by
  obtain ⟨-, count, counting⟩ := counting_of_run run
  rw [count]
  exact counted_fruitless counting

/-- **The counter is bounded exactly when the fruitless decisions are.** Over any
set of runs it has a bound if and only if there is one on how many decisions in a
row find nothing in the queues. It does not overflow in a run where these are at
most `INT_MAX - SCHED_MAX_SCHEDULED - 1`. -/
theorem counter_bounded_iff :
    (∀ among : List (State Core × Label Core) → Prop,
      (∃ bound : Int, ∀ past s, (machine Core).Run past s → among past → s.scheduled ≤ bound) ↔
        ∃ bound : Nat, ∀ past s, (machine Core).Run past s → among past →
          fruitless (decisions past) ≤ bound) ∧
    ∀ past (s : State Core), (machine Core).Run past s →
      (∀ older, older <:+ decisions past →
        (fruitless older : Int) ≤ intMax - schedMaxScheduled - 1) → ¬ Overflows past := by
  refine ⟨fun among => ⟨?_, ?_⟩, fun past s run short => ?_⟩
  · rintro ⟨bound, bounded⟩
    refine ⟨bound.toNat, fun past s run chosen => ?_⟩
    have low := (scheduled_fruitless run).1
    have high := bounded past s run chosen
    omega
  · rintro ⟨bound, bounded⟩
    refine ⟨bound + (schedMaxScheduled + 1), fun past s run chosen => ?_⟩
    have high := (scheduled_fruitless run).2
    have short := bounded past s run chosen
    omega
  · rintro ⟨d, member, exceeds⟩
    obtain ⟨newer, older, split⟩ := List.append_of_mem member
    obtain ⟨-, -, counting⟩ := counting_of_run run
    rw [split] at counting
    have high := (counted_fruitless (counting_append counting)).2
    have short := short (d :: older) (split ▸ List.suffix_append newer _)
    have count : counted (d :: older) = (schedQueueSelect d.1 d.2).2.scheduled + 1 := rfl
    omega

/-! ### One thread that never sleeps -/

/-- The thread at address 1 runs, no other is ready or waits for a timeout, and
this many decisions have been counted. -/
structure Alone (s : State Unit) (count : Nat) : Prop where
  executing : s.point () = .executing
  current : s.current () = .heap 1
  running : (s.tcb (.heap 1)).state = .running
  nothing : nothingQueued s = true
  timeouts : s.timeoutList = []
  counted : s.scheduled = count

section
variable {s t : State Unit} {count : Nat}

/-- Its time slice ends, and it is chosen again. -/
theorem Alone.yields (alone : Alone s count) (same : yield s () .quantum 0 = t) :
    t.point () = .selected (.heap 1) ∧ t.previous () = .heap 1 ∧ nothingQueued t = true ∧
      t.timeoutList = [] ∧ t.scheduled = (count : Int) + 1 := by
  obtain ⟨-, current, running, nothing, timeouts, counted⟩ := alone
  have current : (s.cctx ()).currentThread = .heap 1 := current
  simp only [nothingQueued, levels, List.all_cons, List.all_nil, Bool.and_true, Bool.and_eq_true,
    List.isEmpty_iff] at nothing
  obtain ⟨first, second, third⟩ := nothing
  subst same
  simp [yield, selectNext, schedQueueSelect, schedScan, schedWakeupExpiredTimeouts, wakeupExpired,
    endTimeSlice, State.setTcb, State.setPoint, State.setCore, State.current, State.previous,
    nothingQueued, levels, current, running, first, second, third, timeouts, counted]

/-- It starts again, and is not put into a queue. -/
theorem Alone.starts (previous : s.previous () = .heap 1) (nothing : nothingQueued s = true)
    (timeouts : s.timeoutList = []) (counted : s.scheduled = count) :
    Alone (gain (swapContext s () (.heap 1)) ()) count := by
  have previous : (s.cctx ()).previousThread = .heap 1 := previous
  constructor
  all_goals
    simp [gain, swapContext, State.setTcb, State.setPoint, State.setCore, State.current,
      State.previous, previous]
  · exact nothing
  · exact timeouts
  · exact counted

/-- One decision more is counted. -/
theorem Alone.slice (reached : (machine Unit).Reachable s) (alone : Alone s count) :
    ∃ t, (machine Unit).Reachable t ∧ Alone t (count + 1) := by
  obtain ⟨t, yielded⟩ : ∃ t, yield s () .quantum 0 = t := ⟨_, rfl⟩
  obtain ⟨point, previous, nothing, timeouts, counted⟩ := alone.yields yielded
  have first : (machine Unit).step s (.yield () .quantum 0) = some t :=
    yielded ▸ if_pos (.inl alone.executing)
  have second : (machine Unit).step t (.swapContext ()) = some (swapContext t () (.heap 1)) := by
    simp [machine, step, point]
  have third : (machine Unit).step (swapContext t () (.heap 1)) (.gain ()) =
      some (gain (swapContext t () (.heap 1)) ()) := by
    simp [machine, step]
  exact ⟨_, ((reached.step first).step second).step third,
    .starts previous nothing timeouts (by rw [counted, Nat.cast_succ])⟩

end

/-- As many decisions as one likes are counted while a single thread runs. -/
theorem alone_reachable (count : Nat) :
    ∃ s, (machine Unit).Reachable s ∧ Alone s (count + 1) := by
  induction count with
  | zero =>
    have ran : ∃ t, (spawn 1 ++ slice .idle).foldlM step (boot (fun _ => idleTcb) 0) = some t ∧
        Alone t 1 := ⟨_, rfl, rfl, rfl, rfl, rfl, rfl, rfl⟩
    obtain ⟨t, ran, alone⟩ := ran
    exact ⟨t, .replay (.start ⟨_, _, rfl⟩) _ ran, alone⟩
  | succ count ih =>
    obtain ⟨s, reached, alone⟩ := ih
    exact alone.slice reached

/-- **The counter has no bound**, and its increment overflows: while one thread
runs, every decision finds the queues empty. -/
theorem counter_unbounded :
    (¬ ∃ bound : Int, ∀ s : State Unit, (machine Unit).Reachable s → s.scheduled ≤ bound) ∧
      ∃ past s, (machine Unit).Run past s ∧ Overflows past := by
  constructor
  · rintro ⟨bound, bounded⟩
    obtain ⟨s, reached, alone⟩ := alone_reachable bound.toNat
    have high := bounded s reached
    rw [alone.counted] at high
    omega
  · obtain ⟨s, ⟨past, run⟩, alone⟩ := alone_reachable (2 ^ 31 - 1)
    obtain ⟨-, count, -⟩ := counting_of_run run
    refine ⟨past, s, run, ?_⟩
    have large : counted (decisions past) = 2 ^ 31 := by rw [← count, alone.counted]; rfl
    cases latest : decisions past with
    | nil => simp [latest, counted] at large
    | cons d older =>
      rw [latest] at large
      have count : (schedQueueSelect d.1 d.2).2.scheduled + 1 = 2 ^ 31 := large
      refine ⟨d, by simp [latest], ?_⟩
      rw [count]
      decide

end TinyOs.Scheduler
