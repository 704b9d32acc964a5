import TinyOs.Library.PriorityQueue
import TinyOs.Selection

/-! The order in which ready threads get a core: first come, first served within
a level, and never before a thread of a higher one. -/
namespace TinyOs.Scheduler
open Library Function
variable {Core : Type*} [DecidableEq Core] {s t : State Core}

/-- The thread that `sched_queue_select` takes from a queue, with its level. -/
def taken (s : State Core) (core : Core) : Option (Int × TcbRef Core) :=
  let next := (schedQueueSelect s core).1
  if next ∈ s.sched (s.tcb next).priority then some ((s.tcb next).priority, next) else none

/-- The step is a scheduling decision. -/
def Label.decides : Label Core → Bool
  | .yield _ _ _ => true
  | _ => false

/-- What a step takes from the queues. -/
def decided (s : State Core) : Label Core → Option (Int × TcbRef Core)
  | .yield core cause remaining => taken (atSelect s core cause remaining) core
  | _ => none

/-- What some steps take from the queues, in that order. -/
def dispatched (s : State Core) : List (Label Core) → List (Int × TcbRef Core)
  | [] => []
  | label :: rest =>
    (decided s label).toList ++ match step s label with
      | some t => dispatched t rest
      | none => []

/-! ### What the sections do to the queues -/

theorem readied_joins (thread : TcbRef Core) (level : Int) :
    s.sched level <+: (readied s thread).sched level := by
  unfold readied
  dsimp only
  split
  next =>
    rw [update_apply]
    split
    next here => exact here ▸ List.prefix_append _ _
    next => exact List.prefix_refl _
  next => exact List.prefix_refl _

theorem wakeupExpired_joins (now : TimerDuration) (fuel : Nat) (inv : Inv s) (level : Int) :
    s.sched level <+: (wakeupExpired now fuel s).sched level := by
  induction fuel generalizing s with
  | zero => exact List.prefix_refl _
  | succ fuel ih =>
    unfold wakeupExpired
    cases list : s.timeoutList with
    | nil => exact List.prefix_refl _
    | cons thread rest =>
      obtain ⟨held, stopped⟩ := inv.timed_stopped thread (by simp [list])
      simp only
      split
      · exact List.prefix_refl _
      · rw [makeReady_eq inv held (.inl stopped)]
        exact (readied_joins thread level).trans (ih (readied_inv inv held (.inl stopped)))

theorem atSelect_joins (inv : Inv s) {core : Core} {cause : SchedCause}
    (point : s.point core = .executing ∨ s.point core = .blocked cause)
    (remaining : TimerDuration) (level : Int) :
    s.sched level <+: (atSelect s core cause remaining).sched level :=
  wakeupExpired_joins _ _ (endTimeSlice_inv inv point remaining) level

theorem gain_joins (inv : Inv s) {core : Core} (point : s.point core = .switched) (level : Int) :
    s.sched level <+: (gain s core).sched level := by
  obtain ⟨-, shape⟩ | ⟨-, ⟨-, -, shape⟩ | ⟨-, -, shape⟩ | ⟨-, shape⟩ | ⟨-, a, -, shape⟩⟩ :=
    gain_cases inv point <;> rw [shape]
  case inr.inr.inl =>
    change _ <+: update s.sched _ _ level
    rw [update_apply]
    split
    next here => exact here ▸ List.prefix_append _ _
    next => exact List.prefix_refl _
  all_goals exact List.prefix_refl _

omit [DecidableEq Core] in
/-- Only the levels of the scan have threads. -/
theorem inside_of_queued (inv : Inv s) {level : Int} (some_here : s.sched level ≠ []) :
    level ∈ levels := by
  obtain ⟨thread, member⟩ := List.exists_mem_of_ne_nil _ some_here
  obtain ⟨runnable, priority⟩ := (inv.queued level thread).mp member
  have range := inv.range thread runnable.1
  rw [priority] at range
  unfold schedMaxLevel at range
  have cases_of : level = 0 ∨ level = 1 ∨ level = 2 := by omega
  simpa [levels] using cases_of

/-- While a thread waits, a decision takes the first one of the first level that
has one. -/
theorem taken_of_queued (inv : Inv s) {level : Int} (some_here : s.sched level ≠ [])
    (core : Core) : ∃ first thread queue, taken s core = some (first, thread) ∧
      s.sched first = thread :: queue ∧ (∀ higher, higher < first → s.sched higher = []) ∧
      (schedQueueSelect s core).2.sched = update s.sched first queue := by
  obtain ⟨first, inside, some_first, above⟩ :=
    first_level (inside_of_queued inv some_here) some_here
  obtain ⟨thread, queue, head⟩ := List.exists_cons_of_ne_nil some_first
  obtain ⟨selects, leaves⟩ := (select_takes inside head above core).1
  have queued : thread ∈ s.sched first := by rw [head]; exact List.mem_cons_self
  have priority := ((inv.queued first thread).mp queued).2
  refine ⟨first, thread, queue, ?_, head, fun higher less => ?_, leaves⟩
  · unfold taken
    rw [selects]
    dsimp only
    rw [priority, if_pos queued]
  · by_contra some_there
    exact some_there (above higher (inside_of_queued inv some_there) less)

theorem selectNext_sched (core : Core) :
    (selectNext s core).sched = (schedQueueSelect s core).2.sched := rfl

theorem select_dispatch (inv : Inv s) (core : Core) :
    Dispatch s.sched (taken s core) (selectNext s core).sched := by
  rw [selectNext_sched]
  by_cases empty : ∀ level ∈ levels, s.sched level = []
  · obtain ⟨-, same, -⟩ := select_idle empty core
    have nothing : taken s core = none := by
      apply if_neg
      intro member
      have some_here := List.ne_nil_of_mem member
      exact some_here (empty _ (inside_of_queued inv some_here))
    rw [nothing, same]
    exact .join fun _ => List.prefix_refl _
  · push Not at empty
    obtain ⟨level, -, some_here⟩ := empty
    obtain ⟨first, thread, queue, takes, head, above, leaves⟩ :=
      taken_of_queued inv some_here core
    rw [takes, leaves]
    refine .take ?_ above fun other apart => update_of_ne apart ..
    rw [update_self, head]

/-- Each step dispatches what it decides. -/
theorem step_dispatches {label : Label Core} (inv : Inv s) (moved : step s label = some t) :
    Dispatches s.sched (decided s label).toList t.sched := by
  cases stepped_of_step moved with
  | @spawnThread core address _ _ => exact .single (.join fun _ => List.prefix_refl _)
  | @wakeup core thread _ held =>
    refine .single (.join fun level => ?_)
    unfold wakeup
    split
    next waiting =>
      rw [makeReady_eq inv held waiting]
      exact readied_joins thread level
    next => exact List.prefix_refl _
  | @sleepReleasing core _ newstate cause timeout _ _ _ =>
    refine .single (.join fun level => ?_)
    simp [sleepReleasing, State.check, State.setTcb, State.setPoint, schedRegisterTimeout,
      apply_ite State.sched]
  | @yield core cause remaining point =>
    have woken : Dispatches s.sched ([] ++ (decided s (.yield core cause remaining)).toList)
        (yield s core cause remaining).sched :=
      .append (.single (.join (atSelect_joins inv point remaining)))
        (.single (select_dispatch (atSelect_inv inv point remaining) core))
    exact woken
  | @swapContext core next _ => exact .single (.join fun _ => List.prefix_refl _)
  | @gain core point => exact .single (.join (gain_joins inv point))
  | @tick clock => exact .single (.join fun _ => List.prefix_refl _)

theorem dispatches {labels : List (Label Core)} (inv : Inv s)
    (ran : labels.foldlM step s = some t) :
    Dispatches s.sched (dispatched s labels) t.sched := by
  induction labels generalizing s with
  | nil =>
    cases ran
    exact .nil
  | cons label rest ih =>
    rw [List.foldlM_cons] at ran
    obtain ⟨middle, moved, rest⟩ := Option.bind_eq_some_iff.mp ran
    unfold dispatched
    rw [moved]
    exact (step_dispatches inv moved).append (ih (step_inv inv moved) rest)

/-- While a thread waits, each decision takes one from the queues. -/
theorem decided_length {label : Label Core} (inv : Inv s) (moved : step s label = some t)
    {level : Int} (some_here : s.sched level ≠ []) :
    (decided s label).toList.length = if label.decides then 1 else 0 := by
  cases stepped_of_step moved with
  | @yield core cause remaining point =>
    have still : (atSelect s core cause remaining).sched level ≠ [] := fun empty =>
      some_here (List.prefix_nil.mp (empty ▸ atSelect_joins inv point remaining level))
    obtain ⟨first, thread, queue, takes, -⟩ :=
      taken_of_queued (atSelect_inv inv point remaining) still core
    change (taken _ core).toList.length = 1
    rw [takes]
    rfl
  | spawnThread | wakeup | sleepReleasing | swapContext | gain | tick => rfl

theorem decisions_length {labels : List (Label Core)} (inv : Inv s)
    (ran : labels.foldlM step s = some t) {level : Int} {thread : TcbRef Core}
    {ahead behind : List (TcbRef Core)} (queued : s.sched level = ahead ++ thread :: behind)
    (still : (level, thread) ∉ dispatched s labels) :
    labels.countP Label.decides = (dispatched s labels).length := by
  induction labels generalizing s ahead behind with
  | nil => rfl
  | cons label rest ih =>
    rw [List.foldlM_cons] at ran
    obtain ⟨middle, moved, rest_ran⟩ := Option.bind_eq_some_iff.mp ran
    unfold dispatched at still ⊢
    rw [moved, List.mem_append, not_or] at still
    rw [moved, List.length_append, List.countP_cons, Nat.add_comm]
    obtain ⟨⟨waiting, new, -, next⟩, -⟩ := (step_dispatches inv moved).waits queued still.1
    rw [ih (step_inv inv moved) rest_ran next still.2,
      @decided_length _ _ _ _ _ inv moved level (by simp [queued])]

/-- **No overtaking**: while a ready thread waits in the queue of its level, the
threads taken from that queue are those ahead of it, in their order, and all
others taken are of higher levels, as many as there are decisions. -/
theorem no_overtaking {labels : List (Label Core)} (reached : (machine Core).Reachable s)
    (ran : labels.foldlM step s = some t) {level : Int} {thread : TcbRef Core}
    {ahead behind : List (TcbRef Core)} (queued : s.sched level = ahead ++ thread :: behind)
    (still : (level, thread) ∉ dispatched s labels) :
    Dispatches.Waits level thread ahead behind (dispatched s labels) t.sched ∧
      labels.countP Label.decides = (dispatched s labels).length ∧
      labels.countP Label.decides ≤
        ahead.length + (dispatched s labels).countP (·.1 < level) := by
  have inv := reachable_inv reached
  have waits := (dispatches inv ran).waits queued still
  have counted := decisions_length inv ran queued still
  exact ⟨waits, counted, counted ▸ waits.length_le⟩

/-- The second of two threads waits for one decision. -/
theorem no_overtaking_two : ∃ s t : State Unit, (slice .idle).foldlM step s = some t ∧
    s.sched 0 = [.heap 1, .heap 2] ∧ dispatched s (slice .idle) = [(0, .heap 1)] ∧
    Dispatches.Waits 0 (.heap 2) [.heap 1] [] (dispatched s (slice .idle)) t.sched := by
  obtain ⟨s, started⟩ :
      ∃ s, (spawn 1 ++ spawn 2).foldlM step (boot (fun _ => idleTcb) 0) = some s :=
    ⟨_, rfl⟩
  have ran : ((spawn 1 ++ spawn 2).foldlM step (boot (fun _ => idleTcb) 0)).bind (fun s =>
      ((slice .idle).foldlM step s).map fun _ => (s.sched 0, dispatched s (slice .idle))) =
      some ([.heap 1, .heap 2], [(0, .heap 1)]) := by
    decide +kernel
  rw [started, Option.bind_some] at ran
  obtain ⟨t, ran, found⟩ := Option.map_eq_some_iff.mp ran
  obtain ⟨queued, taken⟩ := Prod.mk.inj found
  have reached : (machine Unit).Reachable s :=
    Machine.Reachable.replay (.start ⟨_, _, rfl⟩) _ started
  refine ⟨s, t, ran, queued, taken, ?_⟩
  exact (@no_overtaking _ _ _ _ _ reached ran 0 (.heap 2) [.heap 1] [] queued (by simp [taken])).1

end TinyOs.Scheduler
