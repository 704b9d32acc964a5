import TinyOs.SchedulerSafety

/-! Which thread `sched_queue_select` takes. Past `SCHED_MAX_SCHEDULED`
decisions it is meant to look at the queues in the reverse order, but the index
`i%4` of its scan is `i`. So the lowest level waits until the others are empty,
which may be never. -/
namespace TinyOs.Scheduler
open Library Function
variable {Core : Type*} [DecidableEq Core] {s t : State Core}

/-- The levels of the run queues, the highest priority first. -/
def levels : List Int := [0, 1, 2]

/-- The queue of a level loses its head, which is returned. -/
def Takes (s : State Core) (core : Core) (level : Int) (thread : TcbRef Core)
    (queue : List (TcbRef Core)) : Prop :=
  (schedQueueSelect s core).1 = thread ∧
    (schedQueueSelect s core).2.sched = update s.sched level queue

/-- What `sched_queue_select` is for. -/
structure Selection (s : State Core) (core : Core) : Prop where
  ordered : s.scheduled ≤ schedMaxScheduled → ∀ level ∈ levels, ∀ thread queue,
    s.sched level = thread :: queue → (∀ higher ∈ levels, higher < level → s.sched higher = []) →
    Takes s core level thread queue
  reversed : schedMaxScheduled < s.scheduled → ∀ level ∈ levels, ∀ thread queue,
    s.sched level = thread :: queue → (∀ lower ∈ levels, level < lower → s.sched lower = []) →
    Takes s core level thread queue ∧ (schedQueueSelect s core).2.scheduled = 0
  idle : (∀ level ∈ levels, s.sched level = []) →
    (schedQueueSelect s core).1 =
        (if (s.tcb (s.current core)).state = .ready then s.current core else .idleThread core) ∧
      (schedQueueSelect s core).2.sched = s.sched

/-- The order of the scan makes no difference. -/
def Orderly (s : State Core) : Prop :=
  s.scheduled ≤ schedMaxScheduled ∨
    ∀ a ∈ levels, ∀ b ∈ levels, s.sched a ≠ [] → s.sched b ≠ [] → a = b

/-- The state in which the section of `yield` calls `sched_queue_select`. -/
def atSelect (s : State Core) (core : Core) (cause : SchedCause) (remaining : TimerDuration) :
    State Core :=
  schedWakeupExpiredTimeouts (endTimeSlice s core cause remaining)

theorem atSelect_inv (inv : Inv s) {core : Core} {cause : SchedCause}
    (point : s.point core = .executing ∨ s.point core = .blocked cause)
    (remaining : TimerDuration) : Inv (atSelect s core cause remaining) :=
  (wakeupExpired_inv _ _ (endTimeSlice_inv inv point remaining)).1

/-! ### The scan -/

omit [DecidableEq Core] in
/-- The scan takes the head of the first queue that is not empty, whatever has
been counted. -/
theorem schedScan_eq (scan : List Int) (plain : ∀ i ∈ scan, i % 4 = i) (s : State Core) :
    schedScan scan s =
      match scan.find? fun i => !(s.sched i).isEmpty with
      | none => (none, s)
      | some level => ((s.sched level).head?, { s with
          sched := update s.sched level (s.sched level).tail
          scheduled := if s.scheduled ≤ schedMaxScheduled then s.scheduled else 0 }) := by
  induction scan with
  | nil => rfl
  | cons i rest ih =>
    have ih := ih fun j member => plain j (List.mem_cons_of_mem _ member)
    unfold schedScan
    rw [plain i List.mem_cons_self]
    cases queue : s.sched i with
    | nil => simp [queue, ih]
    | cons thread queue' =>
      by_cases few : s.scheduled ≤ schedMaxScheduled
      · simp [queue, few]
      · simp [queue, few]

omit [DecidableEq Core] in
/-- The first level of the scan that has a thread. -/
theorem find_level {level : Int} (inside : level ∈ levels) (some_here : s.sched level ≠ [])
    (above : ∀ higher ∈ levels, higher < level → s.sched higher = []) :
    levels.find? (fun i => !(s.sched i).isEmpty) = some level := by
  simp only [levels, List.mem_cons, List.not_mem_nil, or_false] at inside above ⊢
  rcases inside with rfl | rfl | rfl
  · simp [some_here]
  · simp [some_here, above 0 (.inl rfl) (by decide)]
  · simp [some_here, above 0 (.inl rfl) (by decide), above 1 (.inr (.inl rfl)) (by decide)]

/-- `sched_queue_select` never looks at a level before those above it. -/
theorem select_takes {level : Int} {thread : TcbRef Core} {queue : List (TcbRef Core)}
    (inside : level ∈ levels) (head : s.sched level = thread :: queue)
    (above : ∀ higher ∈ levels, higher < level → s.sched higher = []) (core : Core) :
    Takes s core level thread queue ∧ (schedQueueSelect s core).2.scheduled =
      if s.scheduled ≤ schedMaxScheduled then s.scheduled else 0 := by
  have found := find_level inside (by simp [head]) above
  have scan := schedScan_eq levels (by decide) s
  rw [found] at scan
  simp only [head, List.head?_cons, List.tail_cons, levels] at scan
  simp [Takes, schedQueueSelect, scan, State.setTcb]

theorem select_idle (empty : ∀ level ∈ levels, s.sched level = []) (core : Core) :
    (schedQueueSelect s core).1 =
        (if (s.tcb (s.current core)).state = .ready then s.current core else .idleThread core) ∧
      (schedQueueSelect s core).2.sched = s.sched ∧
      (schedQueueSelect s core).2.scheduled = s.scheduled := by
  have nothing : levels.find? (fun i => !(s.sched i).isEmpty) = none := by
    rw [List.find?_eq_none]
    intro level inside
    simp [empty level inside]
  have scan := schedScan_eq levels (by decide) s
  rw [nothing] at scan
  simp only [levels] at scan
  simp [schedQueueSelect, scan, State.setTcb]

omit [DecidableEq Core] in
theorem first_level {level : Int} (inside : level ∈ levels) (some_here : s.sched level ≠ []) :
    ∃ first ∈ levels, s.sched first ≠ [] ∧
      ∀ higher ∈ levels, higher < first → s.sched higher = [] := by
  by_cases zero : s.sched 0 = []
  · by_cases one : s.sched 1 = []
    · refine ⟨2, by decide, ?_, by simp [levels, zero, one]⟩
      simp only [levels, List.mem_cons, List.not_mem_nil, or_false] at inside
      rcases inside with rfl | rfl | rfl
      · exact absurd zero some_here
      · exact absurd one some_here
      · exact some_here
    · exact ⟨1, by decide, one, by simp [levels, zero]⟩
  · exact ⟨0, by decide, zero, by simp [levels]⟩

omit [DecidableEq Core] in
theorem last_level {level : Int} (inside : level ∈ levels) (some_here : s.sched level ≠ []) :
    ∃ last ∈ levels, s.sched last ≠ [] ∧
      ∀ lower ∈ levels, last < lower → s.sched lower = [] := by
  by_cases two : s.sched 2 = []
  · by_cases one : s.sched 1 = []
    · refine ⟨0, by decide, ?_, by simp [levels, one, two]⟩
      simp only [levels, List.mem_cons, List.not_mem_nil, or_false] at inside
      rcases inside with rfl | rfl | rfl
      · exact some_here
      · exact absurd one some_here
      · exact absurd two some_here
    · exact ⟨1, by decide, one, by simp [levels, two]⟩
  · exact ⟨2, by decide, two, by simp [levels]⟩

/-- The choice of `sched_queue_select` is as intended exactly when few decisions
have been counted or no two levels have threads. -/
theorem selection_iff_orderly (s : State Core) (core : Core) : Selection s core ↔ Orderly s := by
  constructor
  · intro selection
    by_contra disorderly
    obtain ⟨many, two⟩ := not_or.mp disorderly
    push Not at two many
    obtain ⟨a, inside_a, b, inside_b, some_a, some_b, apart⟩ := two
    obtain ⟨first, inside_first, some_first, above⟩ := first_level inside_a some_a
    obtain ⟨last, inside_last, some_last, below⟩ := last_level inside_a some_a
    obtain ⟨thread, queue, head⟩ := List.exists_cons_of_ne_nil some_first
    obtain ⟨other, rest, tail⟩ := List.exists_cons_of_ne_nil some_last
    -- The queue of the first level loses its head, and that of the last does not.
    have taken := (select_takes inside_first head above core).1.2
    have meant := (selection.reversed many last inside_last other rest tail below).1.2
    have same : first = last := by
      by_contra different
      have after := congrFun (taken.symm.trans meant) last
      rw [update_of_ne (Ne.symm different), update_self, tail] at after
      exact List.cons_ne_self _ _ after
    have only : ∀ level ∈ levels, s.sched level ≠ [] → level = first := by
      intro level inside some_here
      rcases lt_trichotomy level first with earlier | rfl | later
      · exact absurd (above level inside earlier) some_here
      · rfl
      · exact absurd (below level inside (same ▸ later)) some_here
    exact apart ((only a inside_a some_a).trans (only b inside_b some_b).symm)
  · intro orderly
    refine ⟨fun few level inside thread queue head above => ?_,
      fun many level inside thread queue head below => ?_, fun empty => ?_⟩
    · exact (select_takes inside head above core).1
    · have alone := orderly.resolve_left (not_le.mpr many)
      have above : ∀ higher ∈ levels, higher < level → s.sched higher = [] := by
        intro higher inside' less
        by_contra some_there
        exact less.ne (alone higher inside' level inside some_there (by simp [head]))
      obtain ⟨takes, counts⟩ := select_takes inside head above core
      exact ⟨takes, by rw [counts, if_neg (not_le.mpr many)]⟩
    · obtain ⟨next, same, -⟩ := select_idle empty core
      exact ⟨next, same⟩

/-! ### Decisions over a run -/

/-- The decisions of a run, the newest first: the state in which
`sched_queue_select` is called, and the core that calls it. -/
def decisions : List (State Core × Label Core) → List (State Core × Core)
  | [] => []
  | (s, .yield core cause remaining) :: past =>
    (atSelect s core cause remaining, core) :: decisions past
  | _ :: past => decisions past

/-- A decision selects a thread of the lowest level. -/
def TakesLowest (d : State Core × Core) : Prop :=
  (schedQueueSelect d.1 d.2).1 ∈ d.1.sched (schedMaxLevel - 1)

/-- A decision finds threads of priority 0 and threads of the lowest level. -/
def Contested (d : State Core × Core) : Prop :=
  d.1.sched 0 ≠ [] ∧ d.1.sched (schedMaxLevel - 1) ≠ []

/-- While threads of priority 0 are available all the time, a thread of the lowest
level, if there is any, is selected by one of any `few` consecutive decisions. -/
def LowestServed (few : Nat) (past : List (State Core × Label Core)) : Prop :=
  ∀ newer served older, decisions past = newer ++ served ++ older → served.length = few →
    (∀ d ∈ served, Contested d) → ∃ d ∈ served, TakesLowest d

/-- One of any `few` consecutive decisions finds no thread of priority 0, or none of
the lowest level. -/
def Relieved (few : Nat) (past : List (State Core × Label Core)) : Prop :=
  ∀ newer served older, decisions past = newer ++ served ++ older → served.length = few →
    ∃ d ∈ served, ¬ Contested d

/-- The counter after some decisions. -/
def counted : List (State Core × Core) → Int
  | [] => 0
  | (s, core) :: _ => (schedQueueSelect s core).2.scheduled + 1

/-- Each decision finds the counter that those before it have left. -/
def Counting : List (State Core × Core) → Prop
  | [] => True
  | (s, _) :: older => s.scheduled = counted older ∧ Counting older

theorem scheduled_makeReady (s : State Core) (thread : TcbRef Core) :
    (schedMakeReady s thread).scheduled = s.scheduled := by
  simp [schedMakeReady, State.check, State.setTcb, rlistRemove, schedQueueAdd,
    apply_ite State.scheduled]

theorem scheduled_wakeupExpired (now : TimerDuration) (fuel : Nat) (s : State Core) :
    (wakeupExpired now fuel s).scheduled = s.scheduled := by
  induction fuel generalizing s with
  | zero => rfl
  | succ fuel ih =>
    unfold wakeupExpired
    split
    · rfl
    · split
      · rfl
      · rw [ih, scheduled_makeReady]

theorem scheduled_atSelect (s : State Core) (core : Core) (cause : SchedCause)
    (remaining : TimerDuration) : (atSelect s core cause remaining).scheduled = s.scheduled :=
  scheduled_wakeupExpired ..

/-- Only `yield` counts. -/
theorem counting_step {label : Label Core} (inv : Inv s) (moved : step s label = some t)
    {past : List (State Core × Label Core)} (before : s.scheduled = counted (decisions past))
    (counting : Counting (decisions past)) :
    t.scheduled = counted (decisions ((s, label) :: past)) ∧
      Counting (decisions ((s, label) :: past)) := by
  cases stepped_of_step moved with
  | @yield core cause remaining _ =>
    exact ⟨rfl, (scheduled_atSelect s core cause remaining).trans before, counting⟩
  | @spawnThread core address _ _ =>
    exact ⟨before, counting⟩
  | @wakeup core thread _ _ =>
    refine ⟨Eq.trans ?_ before, counting⟩
    unfold wakeup
    split
    · exact scheduled_makeReady s thread
    · rfl
  | @sleepReleasing core _ newstate cause timeout _ _ _ =>
    refine ⟨Eq.trans ?_ before, counting⟩
    simp [sleepReleasing, State.check, State.setTcb, State.setPoint, schedRegisterTimeout,
      apply_ite State.scheduled]
  | @swapContext core next _ =>
    exact ⟨before, counting⟩
  | @gain core point =>
    refine ⟨Eq.trans ?_ before, counting⟩
    obtain ⟨phase, allocated, active, sched, shape⟩ := gain_gained inv point
    rw [shape]
    rfl
  | @tick clock =>
    exact ⟨before, counting⟩

theorem counting_of_run {past : List (State Core × Label Core)}
    (run : (machine Core).Run past s) :
    Inv s ∧ s.scheduled = counted (decisions past) ∧ Counting (decisions past) := by
  induction run with
  | start booted =>
    obtain ⟨memory, clock, rfl⟩ := booted
    exact ⟨boot_inv memory clock, rfl, trivial⟩
  | step _ moved ih => exact ⟨step_inv ih.1 moved, counting_step ih.1 moved ih.2.1 ih.2.2⟩

/-- The counter is reset when many decisions have been counted, or not at all. -/
theorem select_counts (s : State Core) (core : Core) :
    (schedQueueSelect s core).2.scheduled = s.scheduled ∨
      schedMaxScheduled < s.scheduled ∧ (schedQueueSelect s core).2.scheduled = 0 := by
  by_cases empty : ∀ level ∈ levels, s.sched level = []
  · exact .inl (select_idle empty core).2.2
  · push Not at empty
    obtain ⟨level, inside, some_here⟩ := empty
    obtain ⟨first, inside_first, some_first, above⟩ := first_level inside some_here
    obtain ⟨thread, queue, head⟩ := List.exists_cons_of_ne_nil some_first
    rw [(select_takes inside_first head above core).2]
    split
    next => exact .inl rfl
    next many => exact .inr ⟨not_le.mp many, rfl⟩

theorem counted_nonneg {past : List (State Core × Core)} (counting : Counting past) :
    0 ≤ counted past := by
  induction past with
  | nil => exact le_refl 0
  | cons d older ih =>
    obtain ⟨same, counting⟩ := counting
    have nonneg := ih counting
    rw [← same] at nonneg
    change 0 ≤ (schedQueueSelect d.1 d.2).2.scheduled + 1
    rcases select_counts d.1 d.2 with kept | ⟨-, reset⟩
    · omega
    · omega

theorem counting_append {newer older : List (State Core × Core)}
    (counting : Counting (newer ++ older)) : Counting older := by
  induction newer with
  | nil => exact counting
  | cons d newer ih => exact ih counting.2

/-- The queues of a decision are those of a reachable state. -/
theorem decisions_inv {past : List (State Core × Label Core)} (run : (machine Core).Run past s) :
    ∀ d ∈ decisions past, Inv d.1 := by
  induction run with
  | start => exact fun _ member => nomatch member
  | @step past s t label run moved ih =>
    have inv := (counting_of_run run).1
    cases stepped_of_step moved with
    | yield point => exact List.forall_mem_cons.mpr ⟨atSelect_inv inv point _, ih⟩
    | spawnThread | wakeup | sleepReleasing | swapContext | gain | tick => exact ih

/-- The lowest level is served by the decisions that find the others empty, and by
no other. -/
theorem takesLowest_iff {d : State Core × Core} (inv : Inv d.1) : TakesLowest d ↔
    d.1.sched (schedMaxLevel - 1) ≠ [] ∧
      ∀ higher ∈ levels, higher < schedMaxLevel - 1 → d.1.sched higher = [] := by
  constructor
  · intro lowest
    have some_last := List.ne_nil_of_mem lowest
    obtain ⟨first, inside, some_first, above⟩ := first_level (by decide) some_last
    obtain ⟨thread, queue, head⟩ := List.exists_cons_of_ne_nil some_first
    -- A thread stands in one queue only, so the first level is the lowest.
    have taken : (schedQueueSelect d.1 d.2).1 ∈ d.1.sched first := by
      rw [(select_takes inside head above d.2).1.1, head]
      exact List.mem_cons_self
    obtain rfl := queued_once inv taken lowest
    exact ⟨some_last, above⟩
  · rintro ⟨some_last, above⟩
    obtain ⟨thread, queue, head⟩ := List.exists_cons_of_ne_nil some_last
    rw [TakesLowest, (select_takes (by decide) head above d.2).1.1, head]
    exact List.mem_cons_self

/-- Whatever has been counted, threads of priority 0 go first. -/
theorem not_takesLowest {d : State Core × Core} (inv : Inv d.1) (contested : Contested d) :
    ¬ TakesLowest d := fun lowest =>
  contested.1 (((takesLowest_iff inv).mp lowest).2 0 (by decide) (by decide))

theorem lowestServed_iff {past : List (State Core × Label Core)}
    (run : (machine Core).Run past s) (few : Nat) : LowestServed few past ↔ Relieved few past := by
  have invs := decisions_inv run
  constructor
  · intro serves newer served older split length
    by_contra contested
    push Not at contested
    obtain ⟨d, member, lowest⟩ := serves newer served older split length contested
    exact not_takesLowest (invs d (by simp [split, member])) (contested d member) lowest
  · intro relieved newer served older split length contested
    obtain ⟨d, member, free⟩ := relieved newer served older split length
    exact absurd (contested d member) free

/-- **Queue selection with periodic reversal**: a decision is as intended exactly when
few have been counted or no two levels have threads. In a run, the lowest level is
served exactly when the others are empty, so once in every few decisions only where
no so many in a row find threads of priority 0 and of the lowest level. -/
theorem selection_iff : (∀ (s : State Core) core, Selection s core ↔ Orderly s) ∧
    ∀ past (s : State Core), (machine Core).Run past s →
      (∀ few, LowestServed few past ↔ Relieved few past) ∧
      ∀ d ∈ decisions past, TakesLowest d ↔ d.1.sched (schedMaxLevel - 1) ≠ [] ∧
        ∀ higher ∈ levels, higher < schedMaxLevel - 1 → d.1.sched higher = [] :=
  ⟨selection_iff_orderly, fun _ _ run =>
    ⟨lowestServed_iff run, fun d member => takesLowest_iff (decisions_inv run d member)⟩⟩

/-! ### A run that does not reverse -/

/-- A time slice ends, and the chosen thread starts. -/
def slice (cause : SchedCause) : List (Label Unit) :=
  [.yield () cause 0, .swapContext (), .gain ()]

def spawn (address : Nat) : List (Label Unit) :=
  [.spawnThread () address, .wakeup () (.heap address)]

/-- Threads 1 and 2 use up their time slices, and each thread spawns another
one, so that all levels have a thread when four decisions have been counted. -/
def crowded : List (Label Unit) :=
  spawn 1 ++ spawn 2 ++ slice .idle ++ slice .quantum ++ slice .quantum ++ spawn 3 ++
    slice .quantum ++ spawn 4

/-- Of two threads of priority 0 one runs and the other is ready, and a thread of the
lowest level waits. -/
structure Alternating (s : State Unit) (runs waits : Nat) : Prop where
  executing : s.point () = .executing
  current : s.current () = .heap runs
  running : (s.tcb (.heap runs)).state = .running
  highest : (s.tcb (.heap runs)).priority = 0 ∧ (s.tcb (.heap waits)).priority = 0
  normal : (s.tcb (.heap runs)).type = .normalThread ∧ (s.tcb (.heap waits)).type = .normalThread
  apart : runs ≠ waits
  first : s.sched 0 = [.heap waits]
  last : s.sched (schedMaxLevel - 1) ≠ []
  timeouts : s.timeoutList = []

theorem crowded_alternating :
    ∃ s : State Unit, (machine Unit).Reachable s ∧ Alternating s 3 4 := by
  have ran : ∃ t, crowded.foldlM step (boot (fun _ => idleTcb) 0) = some t ∧ Alternating t 3 4 :=
    ⟨_, rfl, rfl, rfl, rfl, ⟨rfl, rfl⟩, ⟨rfl, rfl⟩, by decide, rfl, by decide +kernel, rfl⟩
  obtain ⟨t, ran, alternating⟩ := ran
  exact ⟨t, .replay (.start ⟨_, _, rfl⟩) crowded ran, alternating⟩

section
variable {s t : State Unit} {runs waits : Nat}

/-- The time slice of the running thread ends for input or output. -/
theorem Alternating.atSelect_eq (alternating : Alternating s runs waits) :
    atSelect s () .io 0 = endTimeSlice s () .io 0 := by
  have timeouts : (endTimeSlice s () .io 0).timeoutList = [] := alternating.timeouts
  rw [atSelect, schedWakeupExpiredTimeouts, timeouts]
  rfl

theorem Alternating.contested (alternating : Alternating s runs waits) :
    Contested (atSelect s () .io 0, ()) := by
  have same : (atSelect s () .io 0).sched = s.sched := by
    rw [alternating.atSelect_eq]
    rfl
  rw [Contested, same, alternating.first]
  exact ⟨List.cons_ne_nil _ _, alternating.last⟩

/-- The other one is chosen, however many decisions have been counted. -/
theorem Alternating.yields (alternating : Alternating s runs waits) :
    ∃ count, yield s () .io 0 = selectedState (endTimeSlice s () .io 0) () (.heap waits)
      (update s.sched 0 []) count := by
  have first : (endTimeSlice s () .io 0).sched 0 = [.heap waits] := alternating.first
  change ∃ count, selectNext (atSelect s () .io 0) () = _
  rw [alternating.atSelect_eq]
  by_cases few : (endTimeSlice s () .io 0).scheduled ≤ schedMaxScheduled
  · refine ⟨s.scheduled + 1, ?_⟩
    simp only [selectNext, schedQueueSelect, schedScan, if_pos few, first]
    rfl
  · refine ⟨0 + 1, ?_⟩
    simp only [selectNext, schedQueueSelect, schedScan, if_neg few, Int.zero_emod, first]
    rfl

/-- It starts, and the thread that yielded goes back to its queue. -/
theorem Alternating.slice (alternating : Alternating s runs waits)
    (yielded : yield s () .io 0 = t) :
    t.point () = .selected (.heap waits) ∧
      Alternating (gain (swapContext t () (.heap waits)) ()) waits runs := by
  obtain ⟨count, shape⟩ := alternating.yields
  obtain ⟨-, current, running, ⟨highest, highest'⟩, ⟨normal, normal'⟩, apart, -, last, timeouts⟩ :=
    alternating
  obtain rfl := yielded.symm.trans shape
  have apart' : (.heap waits : TcbRef Unit) ≠ .heap runs := fun same =>
    apart (TcbRef.heap.inj same).symm
  refine ⟨by simp, ?_⟩
  obtain ⟨u, switched⟩ : ∃ u, swapContext (selectedState (endTimeSlice s () .io 0) () (.heap waits)
    (update s.sched 0 []) count) () (.heap waits) = u := ⟨_, rfl⟩
  have now : u.current () = .heap waits := by simp [← switched]
  have before : u.previous () = .heap runs := by
    rw [← switched, swapContext_previous, selectedState_previous, if_pos rfl]
    exact current
  have left : u.tcb (.heap runs) = { s.tcb (.heap runs) with
      state := .ready, rts := 0, lastCause := (s.tcb (.heap runs)).currCause
      currCause := .io } := by
    simp [← switched, swapContext, selectedState, endTimeSlice, State.setTcb, State.setPoint,
      State.setCore, apart'.symm, current, running, highest, adjustPriority]
  have taken : u.tcb (.heap waits) = { s.tcb (.heap waits) with its := quantum } := by
    simp [← switched, swapContext, selectedState, endTimeSlice, State.setTcb, State.setPoint,
      State.setCore, apart', current]
  have queues : u.sched = update s.sched 0 [] := by rw [← switched]; rfl
  have other : u.current () ≠ u.previous () := by
    rw [now, before]
    exact apart'
  have requeued := gain_requeues other (by rw [before, left]) (by rw [before, left]; simp [normal])
  rw [switched, requeued, before, left, queues]
  simp only [highest]
  constructor
  case executing => simp
  case current => simpa using now
  case running => simp [now]
  case highest => simp [now, before, left, taken, apart'.symm, highest, highest']
  case normal => simp [now, before, left, taken, apart'.symm, normal, normal']
  case apart => exact Ne.symm apart
  case first => simp [gained]
  case last => simpa [gained, schedMaxLevel] using last
  case timeouts =>
    rw [gained, ← switched]
    exact timeouts

/-- One more decision finds threads of both levels. -/
theorem Alternating.goes_on {past : List (State Unit × Label Unit)}
    (run : (machine Unit).Run past s) (alternating : Alternating s runs waits) :
    ∃ past' t, (machine Unit).Run past' t ∧ Alternating t waits runs ∧
      decisions past' = (atSelect s () .io 0, ()) :: decisions past := by
  obtain ⟨t, yielded⟩ : ∃ t, yield s () .io 0 = t := ⟨_, rfl⟩
  obtain ⟨point, next⟩ := alternating.slice yielded
  have first : (machine Unit).step s (.yield () .io 0) = some t :=
    yielded ▸ if_pos (.inl alternating.executing)
  have second : (machine Unit).step t (.swapContext ()) = some (swapContext t () (.heap waits)) := by
    simp [machine, step, point]
  have third : (machine Unit).step (swapContext t () (.heap waits)) (.gain ()) =
      some (gain (swapContext t () (.heap waits)) ()) := by
    simp [machine, step]
  exact ⟨_, _, ((run.step first).step second).step third, next, rfl⟩

end

/-- As many decisions in a row as one likes find threads of priority 0 and of the
lowest level. -/
theorem contested_run (few : Nat) : ∃ past, ∃ s : State Unit, (machine Unit).Run past s ∧
    ∃ served older, decisions past = served ++ older ∧ served.length = few ∧
      ∀ d ∈ served, Contested d := by
  suffices alternating : ∃ past, ∃ s : State Unit, ∃ runs waits, (machine Unit).Run past s ∧
      Alternating s runs waits ∧ ∃ served older, decisions past = served ++ older ∧
        served.length = few ∧ ∀ d ∈ served, Contested d by
    obtain ⟨past, s, -, -, run, -, busy⟩ := alternating
    exact ⟨past, s, run, busy⟩
  induction few with
  | zero =>
    obtain ⟨s, ⟨past, run⟩, alternating⟩ := crowded_alternating
    exact ⟨past, s, 3, 4, run, alternating, [], _, rfl, rfl, by simp⟩
  | succ few ih =>
    obtain ⟨past, s, runs, waits, run, alternating, served, older, split, length, contested⟩ := ih
    obtain ⟨past', t, run', next, more⟩ := alternating.goes_on run
    refine ⟨past', t, waits, runs, run', next, (atSelect s () .io 0, ()) :: served, older, ?_, ?_,
      List.forall_mem_cons.mpr ⟨alternating.contested, contested⟩⟩
    · rw [more, split, List.cons_append]
    · rw [List.length_cons, length]

/-- Five decisions in a row find threads of all levels, and the lowest is not served. -/
theorem selection_iff_crowded : ∃ past, ∃ s : State Unit, (machine Unit).Run past s ∧
    (∃ served older, decisions past = served ++ older ∧ served.length = 5 ∧
      ∀ d ∈ served, Contested d) ∧ ¬ LowestServed 5 past := by
  obtain ⟨past, s, run, busy⟩ := contested_run 5
  refine ⟨past, s, run, busy, fun serves => ?_⟩
  obtain ⟨served, older, split, length, contested⟩ := busy
  obtain ⟨d, member, free⟩ :=
    ((selection_iff.2 past s run).1 5).mp serves [] served older split length
  exact free (contested d member)

/-- Thread 4 of level 0 is selected, and not thread 1 of level 2; and for any number of
decisions there is a run in which so many in a row pass over the lowest level. -/
theorem selection_crowded :
    (¬ ∀ s : State Unit, (machine Unit).Reachable s → ∀ core cause remaining,
      (step s (.yield core cause remaining)).isSome →
        Selection (atSelect s core cause remaining) core) ∧
    ∀ few, ∃ past, ∃ s : State Unit, (machine Unit).Run past s ∧ ¬ LowestServed few past := by
  refine ⟨fun always => ?_, fun few => ?_⟩
  · have ran : (crowded.foldlM step (boot (fun _ => idleTcb) 0)).map
        (fun s => ((step s (.yield () .io 0)).isSome, (atSelect s () .io 0).scheduled,
          (atSelect s () .io 0).sched 0, (atSelect s () .io 0).sched 2)) =
        some (true, 4, [.heap 4], [.heap 1]) := by
      decide +kernel
    obtain ⟨s, run, found⟩ := Option.map_eq_some_iff.mp ran
    simp only [Prod.mk.injEq] at found
    obtain ⟨enabled, many, first, last⟩ := found
    have reached : (machine Unit).Reachable s :=
      Machine.Reachable.replay (.start ⟨_, _, rfl⟩) crowded run
    have meant := ((always s reached () .io 0 enabled).reversed (by rw [many]; decide) 2
      (by decide) (.heap 1) [] last (by simp [levels])).1.1
    have taken := (select_takes (by decide) first (by simp [levels]) ()).1.1
    cases taken.symm.trans meant
  · obtain ⟨past, s, run, served, older, split, length, contested⟩ := contested_run few
    refine ⟨past, s, run, fun serves => ?_⟩
    obtain ⟨d, member, lowest⟩ := serves [] served older split length contested
    exact not_takesLowest (decisions_inv run d (by simp [split, member])) (contested d member) lowest

end TinyOs.Scheduler
