import TinyOs.Library.StableQueue
import TinyOs.SchedulerSafety

/-! The list of threads with a timeout: who is in it, in which order, and whom
`sched_wakeup_expired_timeouts` makes ready. -/
namespace TinyOs.Scheduler
open Library Function
variable {Core : Type*} [DecidableEq Core] {s t : State Core}

/-- The deadline of a thread, as a number of microseconds. -/
def State.deadline (s : State Core) (thread : TcbRef Core) : Nat :=
  (s.tcb thread).wakeupTime.toNat

/-- The thread that registers a timeout in a step. -/
def State.registers (s : State Core) : Label Core → Option (TcbRef Core)
  | .sleepReleasing core .stopped _ (some _) => some (s.current core)
  | _ => none

/-- When a thread registered its last timeout, by the number of steps before. -/
def registeredAt : List (State Core × Label Core) → TcbRef Core → Nat
  | [], _ => 0
  | (s, label) :: past, thread =>
    if s.registers label = some thread then past.length + 1 else registeredAt past thread

/-- The order of the list: by deadline, and by registration among equal ones. -/
def Timely (past : List (State Core × Label Core)) (s : State Core) : Prop :=
  Queued s.deadline (registeredAt past) s.timeoutList

omit [DecidableEq Core] in
theorem due_iff {now : TimerDuration} {thread : TcbRef Core} :
    now < (s.tcb thread).wakeupTime ↔ now.toNat < s.deadline thread :=
  BitVec.lt_def

theorem registeredAt_le (past : List (State Core × Label Core)) (thread : TcbRef Core) :
    registeredAt past thread ≤ past.length := by
  induction past with
  | nil => exact Nat.le_refl 0
  | cons left past ih =>
    unfold registeredAt
    split
    · exact Nat.le_refl _
    · exact Nat.le_succ_of_le ih

/-! ### The loop over the expired timeouts -/

/-- What the loop does at the time `now`: it makes the threads ready whose
deadlines have come, in the order of the list, and leaves the others. -/
structure Expired (now : TimerDuration) (s t : State Core) : Prop where
  calls : t = (s.timeoutList.filter fun u => (s.tcb u).wakeupTime ≤ now).foldl schedMakeReady s
  list : t.timeoutList = s.timeoutList.filter fun u => now < (s.tcb u).wakeupTime
  tcb : ∀ u, t.tcb u =
    if u ∈ s.timeoutList ∧ (s.tcb u).wakeupTime ≤ now then
      { s.tcb u with state := .ready, wakeupTime := noTimeout }
    else s.tcb u
  sched : ∀ level, t.sched level = s.sched level ++ s.timeoutList.filter fun u =>
    (s.tcb u).wakeupTime ≤ now ∧ (s.tcb u).phase = .ctxClean ∧ (s.tcb u).priority = level

/-- Nothing is left to do. -/
theorem Expired.refl {now : TimerDuration} (late : ∀ u ∈ s.timeoutList, now < (s.tcb u).wakeupTime) :
    Expired now s s := by
  have none : ∀ u ∈ s.timeoutList, ¬ (s.tcb u).wakeupTime ≤ now := fun u member =>
    BitVec.not_le.mpr (late u member)
  constructor
  case calls =>
    rw [List.filter_eq_nil_iff.mpr (by simpa using none)]
    rfl
  case list => exact (List.filter_eq_self.mpr (by simpa using late)).symm
  case tcb => exact fun u => (if_neg fun both => none u both.1 both.2).symm
  case sched =>
    intro level
    rw [List.filter_eq_nil_iff.mpr, List.append_nil]
    intro u member
    simp [none u member]

/-- The first thread of the list is made ready. -/
theorem Expired.head {now : TimerDuration} (inv : Inv s) {thread : TcbRef Core}
    {rest : List (TcbRef Core)} (first : s.timeoutList = thread :: rest)
    (due : (s.tcb thread).wakeupTime ≤ now) (expired : Expired now (readied s thread) t) :
    Expired now s t := by
  obtain ⟨held, stopped⟩ := inv.timed_stopped thread (by simp [first])
  have nodup := inv.timeout_nodup
  rw [first] at nodup
  have tail : (readied s thread).timeoutList = rest := by simp [readied, first]
  have apart : ∀ u ∈ rest, u ≠ thread := by
    rintro u member rfl
    exact (List.nodup_cons.mp nodup).1 member
  have same : ∀ u ∈ rest, (readied s thread).tcb u = s.tcb u := fun u member => by
    simp [apart u member]
  have kept : ∀ (p : Tcb → Bool), (rest.filter fun u => p ((readied s thread).tcb u)) =
      rest.filter fun u => p (s.tcb u) := fun p =>
    List.filter_congr fun u member => by rw [same u member]
  constructor
  case calls =>
    have calls := expired.calls
    rw [tail, kept fun tcb => tcb.wakeupTime ≤ now, ← makeReady_eq inv held (.inl stopped)] at calls
    rw [first, List.filter_cons_of_pos (by simpa using due)]
    exact calls
  case list =>
    rw [expired.list, tail, kept fun tcb => now < tcb.wakeupTime, first,
      List.filter_cons_of_neg (by simpa using due)]
  case tcb =>
    intro u
    rw [expired.tcb u, tail, first]
    by_cases mine : u = thread
    · subst u
      have absent : thread ∉ rest := (List.nodup_cons.mp nodup).1
      simp [absent, due]
    · simp [mine]
  case sched =>
    intro level
    rw [expired.sched level, tail,
      kept fun tcb => tcb.wakeupTime ≤ now ∧ tcb.phase = .ctxClean ∧ tcb.priority = level, first]
    by_cases queues : (s.tcb thread).phase = .ctxClean ∧ (s.tcb thread).priority = level
    · obtain ⟨clean, rfl⟩ := queues
      rw [List.filter_cons_of_pos (by simp [due, clean])]
      simp [readied, clean]
    · rw [List.filter_cons_of_neg (by simp [due, queues])]
      have unqueued : (readied s thread).sched level = s.sched level := by
        simp only [readied]
        split
        next clean => exact update_of_ne (fun same => queues ⟨clean, same.symm⟩) ..
        next => rfl
      rw [unqueued]

/-- The loop is past its end after as many rounds as the list is long. -/
theorem wakeupExpired_expired {rank : TcbRef Core → Nat} {now : TimerDuration} {fuel : Nat}
    (inv : Inv s) (queued : Queued s.deadline rank s.timeoutList)
    (enough : s.timeoutList.length ≤ fuel) : Expired now s (wakeupExpired now fuel s) := by
  induction fuel generalizing s with
  | zero =>
    have empty := List.eq_nil_of_length_eq_zero (Nat.le_zero.mp enough)
    exact .refl (by simp [empty])
  | succ fuel ih =>
    unfold wakeupExpired
    split
    next empty => exact .refl (by simp [empty])
    next thread rest first =>
      rw [first] at queued
      split
      next late =>
        refine .refl fun u member => ?_
        rw [first] at member
        rcases List.mem_cons.mp member with rfl | member
        · exact late
        · exact due_iff.mpr ((due_iff.mp late).trans_le (queued.le_head member))
      next due =>
        obtain ⟨held, stopped⟩ := inv.timed_stopped thread (by simp [first])
        have nodup := inv.timeout_nodup
        rw [first] at nodup
        have tail : (readied s thread).timeoutList = rest := by
          simp [readied, first]
        rw [makeReady_eq inv held (.inl stopped)]
        refine .head inv first (BitVec.not_lt.mp due) (ih (readied_inv inv held (.inl stopped)) ?_ ?_)
        · rw [tail]
          refine Queued.congr (List.pairwise_cons.mp queued).2 fun u member => ⟨?_, rfl⟩
          have apart : u ≠ thread := fun same => (List.nodup_cons.mp nodup).1 (same ▸ member)
          simp [State.deadline, apart]
        · rw [tail]
          rw [first, List.length_cons] at enough
          exact Nat.le_of_succ_le_succ enough

/-- So `sched_wakeup_expired_timeouts` ends. -/
theorem expiry {rank : TcbRef Core → Nat} (inv : Inv s)
    (queued : Queued s.deadline rank s.timeoutList) :
    Expired (biosClock s) s (schedWakeupExpiredTimeouts s) :=
  wakeupExpired_expired inv queued (Nat.le_refl _)

/-! ### The order of the list -/

namespace Timely
variable {past : List (State Core × Label Core)} {label : Label Core}

/-- A step that registers nothing and leaves the deadlines of the list. -/
theorem frame (timely : Timely past s) (none : s.registers label = none)
    (inside : t.timeoutList.Sublist s.timeoutList)
    (same : ∀ u ∈ t.timeoutList, (t.tcb u).wakeupTime = (s.tcb u).wakeupTime) :
    Timely ((s, label) :: past) t := by
  refine Queued.congr (List.Pairwise.sublist inside timely) fun u member => ⟨?_, ?_⟩
  · rw [State.deadline, same u member]
    rfl
  · rw [registeredAt, none]
    exact if_neg nofun

/-- The accounting of `yield` changes no deadline. -/
theorem wakeupTime_endTimeSlice (core : Core) (cause : SchedCause) (remaining : TimerDuration)
    (u : TcbRef Core) :
    ((endTimeSlice s core cause remaining).tcb u).wakeupTime = (s.tcb u).wakeupTime := by
  by_cases same : u = s.current core
  · subst u
    simp [Scheduler.endTimeSlice, State.setTcb, State.setPoint]
  · simp [Scheduler.endTimeSlice, State.setTcb, State.setPoint, same]

theorem endTimeSlice (timely : Timely past s) (core : Core) (cause : SchedCause)
    (remaining : TimerDuration) :
    Timely past (endTimeSlice s core cause remaining) :=
  Queued.congr timely fun u _ =>
    ⟨congrArg BitVec.toNat (wakeupTime_endTimeSlice core cause remaining u), rfl⟩

theorem sleepReleasing (timely : Timely past s) (inv : Inv s) {core : Core}
    (point : s.point core = .executing) {newstate : ThreadState}
    (newstateOk : newstate = .stopped ∨ newstate = .exited) (cause : SchedCause)
    (timeout : Option (BitVec 64)) :
    Timely ((s, .sleepReleasing core newstate cause timeout) :: past)
      (sleepReleasing s core newstate cause (sleepTimeout timeout)) := by
  by_cases timed : newstate = .exited ∨ timeout = none
  · rw [sleepReleasing_untimed inv core newstateOk cause timed]
    refine timely.frame ?_ (List.Sublist.refl _) fun u _ => ?_
    · obtain rfl | rfl := timed
      · rfl
      · obtain rfl | rfl := newstateOk <;> rfl
    · rw [departed_tcb]
      split
      next same => rw [same]
      next => rfl
  · obtain ⟨sleeps, registers⟩ := not_or.mp timed
    obtain rfl := newstateOk.resolve_right sleeps
    obtain ⟨milliseconds, rfl⟩ := Option.ne_none_iff_exists'.mp registers
    have absent : ∀ u ∈ s.timeoutList, u ≠ s.current core := by
      rintro u member rfl
      cases (inv.timed_stopped _ member).2.symm.trans (inv.executing core point).1
    rw [sleepReleasing_timed inv core cause milliseconds]
    have older : ∀ u, u ≠ s.current core → registeredAt
        ((s, .sleepReleasing core .stopped cause (some milliseconds)) :: past) u =
        registeredAt past u := fun u other => if_neg fun same => other (Option.some.inj same).symm
    refine Queued.insert (Queued.congr timely fun u member => ⟨?_, ?_⟩) ?_ ?_
    · simp [State.deadline, absent u member]
    · exact older u (absent u member)
    · intro u member
      rw [State.deadline, State.deadline, departed_tcb, departed_tcb, if_pos rfl,
        if_neg (absent u member), update_self, update_of_ne (absent u member)]
      exact BitVec.lt_def
    · intro u member
      rw [older u (absent u member)]
      refine (Nat.lt_succ_of_le (registeredAt_le past u)).trans_eq (if_pos rfl).symm

theorem yield (timely : Timely past s) (inv : Inv s) {core : Core} {cause : SchedCause}
    (point : s.point core = .executing ∨ s.point core = .blocked cause)
    (remaining : TimerDuration) :
    Timely ((s, .yield core cause remaining) :: past) (yield s core cause remaining) := by
  have ended := endTimeSlice_inv inv point remaining
  have expired := expiry ended (timely.endTimeSlice core cause remaining)
  unfold Scheduler.yield
  obtain ⟨next, sched, count, shape, -⟩ :=
    selectNext_cases (schedWakeupExpiredTimeouts (Scheduler.endTimeSlice s core cause remaining)) core
  rw [shape]
  refine timely.frame rfl ?_ fun u member => ?_
  · change (schedWakeupExpiredTimeouts _).timeoutList.Sublist _
    rw [expired.list]
    exact List.filter_sublist
  · have late : ¬ ((Scheduler.endTimeSlice s core cause remaining).tcb u).wakeupTime ≤
        biosClock (Scheduler.endTimeSlice s core cause remaining) := by
      have stays : u ∈ (schedWakeupExpiredTimeouts (Scheduler.endTimeSlice s core cause remaining)).timeoutList :=
        member
      rw [expired.list, List.mem_filter] at stays
      exact BitVec.not_le.mpr (of_decide_eq_true stays.2)
    have unchanged := expired.tcb u
    rw [if_neg fun both => late both.2] at unchanged
    rw [selectedState_tcb, ← wakeupTime_endTimeSlice core cause remaining u, ← unchanged]
    split
    next same => rw [same]
    next => rfl

theorem gain (timely : Timely past s) (inv : Inv s) {core : Core}
    (point : s.point core = .switched) :
    Timely ((s, .gain core) :: past) (gain s core) := by
  obtain ⟨phase, allocated, active, sched, shape⟩ := gain_gained inv point
  rw [shape]
  refine timely.frame rfl (List.Sublist.refl _) fun u _ => ?_
  rw [gained_tcb]
  split
  next same => rw [same]
  next =>
    split
    next same => rw [same]
    next => rfl

theorem step (timely : Timely past s) (inv : Inv s) (moved : step s label = some t) :
    Timely ((s, label) :: past) t := by
  cases stepped_of_step moved with
  | @spawnThread core address _ free =>
    refine timely.frame rfl (List.Sublist.refl _) fun u member => ?_
    have apart : u ≠ .heap address := by
      rintro rfl
      have held := (inv.timed_stopped _ member).1
      simp [State.holds, free] at held
    simp [spawnThread, State.setTcb, apart]
  | @wakeup core thread _ held =>
    unfold wakeup
    split
    next waiting =>
      rw [makeReady_eq inv held waiting]
      apply timely.frame rfl List.erase_sublist
      intro u member
      have apart := ((List.Nodup.mem_erase_iff inv.timeout_nodup).mp member).1
      simp [apart]
    next => exact timely.frame rfl (List.Sublist.refl _) fun _ _ => rfl
  | @sleepReleasing core _ newstate cause timeout executing _ sleeps =>
    exact timely.sleepReleasing inv executing sleeps cause timeout
  | @yield core cause remaining point =>
    exact timely.yield inv point remaining
  | @swapContext core next _ =>
    exact timely.frame rfl (List.Sublist.refl _) fun _ _ => rfl
  | @gain core point =>
    exact timely.gain inv point
  | @tick clock =>
    exact timely.frame rfl (List.Sublist.refl _) fun _ _ => rfl

theorem of_run (run : (machine Core).Run past s) : Inv s ∧ Timely past s := by
  induction run with
  | start booted =>
    obtain ⟨memory, clock, rfl⟩ := booted
    exact ⟨boot_inv memory clock, List.Pairwise.nil⟩
  | step _ moved ih => exact ⟨step_inv ih.1 moved, ih.2.step ih.1 moved⟩

end Timely

/-! ### The list of timeouts over whole runs -/

/-- The list holds the threads with a deadline, all of them asleep, in order,
and no assertion has failed. -/
structure TimeoutList (past : List (State Core × Label Core)) (s : State Core) : Prop where
  listed_iff : ∀ u, s.holds u → (u ∈ s.timeoutList ↔ (s.tcb u).wakeupTime ≠ noTimeout)
  stopped : ∀ u ∈ s.timeoutList, s.holds u ∧ (s.tcb u).state = .stopped ∧ ∀ level, u ∉ s.sched level
  once : s.timeoutList.Nodup
  sorted : s.timeoutList.Pairwise fun first second =>
    s.deadline first < s.deadline second ∨
      s.deadline first = s.deadline second ∧ registeredAt past first < registeredAt past second
  /-- The loop ends, and however long it is let run, it has then made ready
  those whose deadlines have come, in the order of the list. -/
  expires : ∀ core cause remaining, (step s (.yield core cause remaining)).isSome →
    ∀ fuel, s.timeoutList.length ≤ fuel →
      Expired (biosClock s) (endTimeSlice s core cause remaining)
        (wakeupExpired (biosClock s) fuel (endTimeSlice s core cause remaining))
  asserts : s.assertFailed = false

/-- **The list of timeouts** in every run of any number of cores, whatever the
clock does and whatever the timeouts are. -/
theorem timeout_list {past : List (State Core × Label Core)} (run : (machine Core).Run past s) :
    TimeoutList past s := by
  obtain ⟨inv, timely⟩ := Timely.of_run run
  constructor
  case listed_iff => exact inv.timed
  case stopped =>
    intro u member
    obtain ⟨held, stopped⟩ := inv.timed_stopped u member
    exact ⟨held, stopped, unqueued_of_state inv fun ready => nomatch stopped.symm.trans ready⟩
  case once => exact inv.timeout_nodup
  case sorted => exact timely
  case expires =>
    intro core cause remaining enabled fuel enough
    have point : s.point core = .executing ∨ s.point core = .blocked cause := by
      simpa [step] using enabled
    exact wakeupExpired_expired (endTimeSlice_inv inv point remaining)
      (timely.endTimeSlice core cause remaining) enough
  case asserts => exact inv.asserts

/-- On the first of two cores a thread sleeps for 5 milliseconds. -/
theorem timeout_list_oneThread : ∃ past, ∃ s : State (Fin 2), TimeoutList past s ∧
    s.timeoutList = [.heap 7] ∧ s.deadline (.heap 7) = 8000 := by
  have run := Machine.Run.start (M := machine (Fin 2)) ⟨fun _ => idleTcb, 3, rfl⟩
  have run := run.next (.spawnThread 0 7) rfl
  have run := run.next (.wakeup 0 (.heap 7)) rfl
  have run := run.next (.yield 0 .idle 0) rfl
  have run := run.next (.swapContext 0) rfl
  have run := run.next (.gain 0) rfl
  have run := run.next (.sleepReleasing 0 .stopped .user (some 5)) rfl
  exact ⟨_, _, timeout_list run, rfl, rfl⟩

end TinyOs.Scheduler
