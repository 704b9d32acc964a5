import TinyOs.JoinMoves
import TinyOs.WaitSafety

/-! Whether the answer of `ThreadJoin` depends on which comes first, the call or
the exit of its target. -/
namespace TinyOs.Kernel
open Function Library

/-! ### Who is told of an exit -/

section
variable {s t : State} {label : Label} {thread : TcbRef} {exitval : Int}

/-- The exit of a thread wakes its joiners. -/
theorem sysThreadExit_tells {other : TcbRef} {ptcb : PtcbRef}
    (exited : s.sysThreadExit thread exitval = some t) (own : s.threads.ptcb thread = ptcb)
    (waits : s.WaitsOn other (.exitCv ptcb)) : t.threads.woken other = true := by
  subst own
  have told : ((s.exitPtcb (s.threads.ptcb thread) exitval).uncountThread
      (s.curproc thread)).threads.woken other = true := by
    obtain ⟨-, same⟩ | ⟨-, -, same⟩ := State.exitPtcb_cases (s := s) (s.threads.ptcb thread) exitval
    all_goals
      rw [same]
      exact State.kernelBroadcast_wakes (s := s.markExited (s.threads.ptcb thread) exitval) waits
  unfold State.sysThreadExit at exited
  dsimp only at exited
  split at exited
  · obtain ⟨ended, terminated, rfl⟩ := Option.map_eq_some_iff.mp exited
    have woken := State.woken_terminate terminated told
    exact woken
  · obtain rfl := Option.some.inj exited
    exact told

/-- The joiners of a thread that has exited know it. -/
def Told (s : State) : Prop :=
  ∀ thread target exitval serial, s.roster.Awaits thread (.join target exitval serial) →
    s.heap.detachedOf serial = false → s.heap.exited target = true →
      s.threads.woken thread = true

namespace Told

/-- A step of another thread does not take the news back. -/
theorem keeps (moved : act s label = some t)
    (apart : label.thread ≠ some thread) (told : s.threads.woken thread = true) :
    t.threads.woken thread = true := by
  cases exits : s.exits label
  · exact (act_goesOn moved exits).woken thread apart told
  · obtain ⟨s', caller, exitval, begins, exited⟩ |
      ⟨-, s', caller, exitval, own, drains, -, -, rfl⟩ := exitOutcome exits moved
    · obtain ⟨-, -, -, -, drains, -⟩ := exitCall_begins begins
      apply State.woken_sysThreadExit exited
      rwa [drains.woken]
    · have different : thread ≠ caller := by
        rintro rfl
        exact apart own
      apply State.woken_kernelWait different _
      rwa [drains.woken]

theorem step (told : Told s) (inv : Delivery s.joinView) (target : s.targetKept label = true)
    (moved : act s label = some t) : Told t := by
  intro thread ptcb pointer serial awaits undetached exited
  have move := act_anyMove (joinSafe_of_targetKept target) moved
  have undetached : s.heap.detachedOf serial = false := by
    by_contra detached
    have still := move.detachedOf_kept (Bool.eq_true_of_not_eq_false detached)
    cases undetached.symm.trans still
  rcases act_awaits moved awaits with before | ⟨-, rfl, -, running, -⟩
  · obtain ⟨used, number⟩ := (inv.awaited thread ptcb pointer serial before).2 undetached
    have undetached_now : s.heap.detached ptcb = false := by
      have detached : s.heap.detachedOf (s.heap.serial ptcb) = s.heap.detached ptcb :=
        inv.numbered.detached ptcb used
      rw [← detached]
      exact number ▸ undetached
    rcases move.exited_before exited with earlier | ⟨ended, ends, own⟩
    · have woken := told thread ptcb pointer serial before undetached earlier
      by_cases actor : label.thread = some thread
      · obtain ⟨ready, rfl⟩ := State.resume_of_awaits moved actor before.2
        obtain ⟨-, resumes⟩ := resume_of_waits before.2 moved
        obtain rfl := Option.some.inj resumes
        obtain ⟨running, -⟩ | ⟨-, same⟩ :=
          State.joinLoop_undetached undetached_now thread pointer serial
        · cases earlier.symm.trans running
        · rw [same] at awaits
          have asleep := awaits.2
          simp [State.roster_ret, Roster.become] at asleep
      · exact keeps moved actor woken
    · -- The target exits in this step.
      cases call : s.exitCall label with
      | none => simp [call] at ends
      | some begun =>
        obtain ⟨s', caller, exitval⟩ := begun
        obtain rfl : caller = ended := by simpa [call] using ends
        obtain ⟨exits, -, -, -, drains, -⟩ := exitCall_begins call
        obtain ⟨s₂, caller₂, exitval₂, begins, ended⟩ | ⟨none, -⟩ := exitOutcome exits moved
        · cases call.symm.trans begins
          have roster := drains.roster
          have mine : s'.threads.ptcb caller = ptcb :=
            (congrArg (fun r : Roster => r.ptcb caller) roster).trans own
          apply sysThreadExit_tells ended mine
          rw [State.WaitsOn, roster, before.2]
          simp [Status.waitsOn, Wait.cv]
        · cases call.symm.trans none
  · rcases move.exited_before exited with earlier | ⟨ended, ends, -⟩
    · cases earlier.symm.trans running
    · cases ends

theorem boot (booted : machine.initial s) : Told s :=
  fun thread _ _ _ awaits => absurd awaits (not_awaits_boot booted thread _)

end Told

end

/-! ### The threads that were created -/

/-- A thread that `CreateThread` made: for which incarnation of which process,
and the number of the creation of its PTCB. -/
structure Creation where
  pid : Pid
  incarnation : Nat
  tid : PtcbRef
  serial : Nat
  deriving DecidableEq, Repr

def State.creation (s : State) : Label → Option Creation
  | .createThread thread _ _ _ ptcb _ =>
    some
      { pid := s.curproc thread, incarnation := s.history.incarnation (s.curproc thread)
        tid := ptcb, serial := s.heap.created }
  | _ => none

def creations (past : List (State × Label)) : List Creation :=
  past.filterMap fun left => left.1.creation left.2

/-- The threads of a run that have been created and have not exited are live. -/
def Made (past : List (State × Label)) (s : State) : Prop :=
  ∀ creation ∈ creations past, creation.tid ≠ 0 ∧ (s.heap.exitOf creation.serial = none →
    ∃ thread ∈ s.threads.live, s.threads.ptcb thread = creation.tid ∧
      s.curproc thread = creation.pid ∧ s.heap.serial creation.tid = creation.serial)

namespace Made
variable {past : List (State × Label)} {s t : State} {label : Label}

theorem of_move {ends : Option TcbRef} (made : Made past s) (inv : Delivery s.joinView)
    (move : AnyMove s.joinView ends t.joinView) : Made past t := by
  intro creation member
  obtain ⟨valid, lives⟩ := made creation member
  refine ⟨valid, fun running => ?_⟩
  have before : s.heap.exitOf creation.serial = none := by
    by_contra exited
    exact move.exitOf_kept exited running
  obtain ⟨thread, live, own, home, number⟩ := lives before
  obtain ⟨-, exited⟩ | ⟨stays, own', home', number'⟩ := move.stays inv live
  · change t.heap.exitOf (s.heap.serial (s.threads.ptcb thread)) ≠ none at exited
    rw [own, number] at exited
    exact absurd running exited
  · change t.threads.ptcb thread = s.threads.ptcb thread at own'
    change t.heap.serial (s.threads.ptcb thread) = s.heap.serial (s.threads.ptcb thread) at number'
    rw [own, number] at number'
    exact ⟨thread, stays, own'.trans own, home'.trans home, number'⟩

theorem step (made : Made past s) (inv : Delivery s.joinView) (target : s.targetKept label = true)
    (moved : act s label = some t) : Made ((s, label) :: past) t := by
  have kept := made.of_move inv (act_anyMove (joinSafe_of_targetKept target) moved)
  cases created : s.creation label with
  | none =>
    have same : creations ((s, label) :: past) = creations past := List.filterMap_cons_none created
    rw [Made, same]
    exact kept
  | some creation =>
    have more : creations ((s, label) :: past) = creation :: creations past :=
      List.filterMap_cons_some created
    rw [Made, more]
    refine List.forall_mem_cons.mpr ⟨?_, kept⟩
    cases label
    case createThread caller task argl args ptcb tcb =>
      obtain rfl := Option.some.inj created
      simp only [act, Option.ite_none_right_eq_some, Option.some.injEq] at moved
      obtain ⟨⟨-, fresh⟩, rfl⟩ := moved
      obtain ⟨valid, -⟩ := State.fresh_iff.mp fresh
      exact ⟨valid, fun _ => ⟨tcb, List.mem_cons_self, update_self .., update_self ..,
        update_self ..⟩⟩
    all_goals cases created

end Made

/-! ### The answers of `ThreadJoin` -/

/-- A call of `ThreadJoin` for another thread of the process that has not been
detached, and whose `Tid_t` no other thread has got since. -/
structure Joins (past : List (State × Label)) (s : State) (caller : TcbRef) (tid : PtcbRef)
    (serial : Nat) : Prop where
  created : { pid := s.curproc caller, incarnation := s.history.incarnation (s.curproc caller)
              tid := tid, serial := serial } ∈ creations past
  kept : s.heap.serial tid = serial
  undetached : s.heap.detachedOf serial = false
  other : s.threads.ptcb caller = tid → s.heap.exitOf serial ≠ none

namespace State

/-- Some `ThreadJoin` for the thread has returned 0. -/
def joinedBefore (s : State) (serial : Nat) : Prop :=
  ∃ record ∈ s.history.joined, record.serial = serial ∧ record.result = some 0

def Returns (t : State) (caller : TcbRef) (value : Int) : Prop :=
  t.crashed = none ∧ t.threads.status caller = .user ∧ t.threads.returned caller = value

/-- What the thread is told, when its `ThreadJoin` is to succeed unless another
one has done so before. -/
def JoinAnswered (s t : State) (caller : TcbRef) (tid : PtcbRef) (exitval : Pointer)
    (serial : Nat) : Prop :=
  s.joinedBefore serial ∧ t.Returns caller (-1) ∨
  ¬ s.joinedBefore serial ∧
    (t.Returns caller 0 ∨ t.threads.status caller = .waiting (.join tid exitval serial))

/-- The target still runs. Or it has exited, and is found in the list of threads
exactly as long as a join may succeed, and `*exitval` is what is to be
returned. -/
def joinTimely (s : State) (caller : TcbRef) (tid : PtcbRef) (exitval : Pointer) (serial : Nat) :
    Prop :=
  s.heap.exitOf serial = none ∨
  s.joinedBefore serial ∧ (s.joinable caller tid = true → exitval ≠ 0 ∧ s.memory exitval = -1) ∨
  ¬ s.joinedBefore serial ∧ s.joinable caller tid = true ∧ exitval ≠ 0 ∧ s.memory exitval = 0

end State

section
variable {past : List (State × Label)} {s t : State} {caller : TcbRef} {tid : PtcbRef}
  {exitval : Pointer} {serial : Nat}

theorem crashed_of_step {label : Label} (moved : step s label = some t) : s.crashed = none := by
  unfold step at moved
  split at moved
  · assumption
  · cases moved

/-- A thread that runs can be joined. -/
theorem Joins.joinable (joins : Joins past s caller tid serial) (inv : Delivery s.joinView)
    (enrolled : Enrolled s.joinView) (made : Made past s) (running : s.heap.exitOf serial = none) :
    s.joinable caller tid = true ∧ s.heap.exited tid = false := by
  obtain ⟨valid, lives⟩ := made _ joins.created
  obtain ⟨thread, live, own, home, number⟩ := lives running
  obtain ⟨listed, tcb⟩ := enrolled.listed thread live
  obtain ⟨used, unexited⟩ := inv.owned thread live
  change s.threads.ptcb thread ∈ s.pt.threadList (s.curproc thread) at listed
  change s.heap.tcb (s.threads.ptcb thread) = thread at tcb
  change s.heap.allocated (s.threads.ptcb thread) = true at used
  change s.heap.exited (s.threads.ptcb thread) = false at unexited
  dsimp only at own home
  rw [own] at listed tcb used unexited
  rw [home] at listed
  have detached : s.heap.detachedOf (s.heap.serial tid) = s.heap.detached tid :=
    inv.numbered.detached tid used
  rw [joins.kept, joins.undetached] at detached
  have apart : s.heap.tcb tid ≠ caller := by
    rintro same
    rw [← same, tcb] at joins
    exact joins.other own running
  exact ⟨decide_eq_true ⟨valid, detached.symm, apart, listed⟩, unexited⟩

theorem joinedBefore_exited (inv : Delivery s.joinView) (before : s.joinedBefore serial) :
    s.heap.exitOf serial ≠ none := by
  obtain ⟨record, member, rfl, -⟩ := before
  obtain ⟨value, exited, -⟩ := inv.recorded record member
  change s.heap.exitOf record.serial = some value at exited
  simp [exited]

theorem join_answered_iff (joins : Joins past s caller tid serial) (inv : Delivery s.joinView)
    (enrolled : Enrolled s.joinView) (made : Made past s)
    (moved : step s (.threadJoin caller tid exitval) = some t) :
    s.JoinAnswered t caller tid exitval serial ↔ s.joinTimely caller tid exitval serial := by
  have up := crashed_of_step moved
  have moved := act_of_step moved
  simp only [act, Option.ite_none_right_eq_some, Option.some.injEq] at moved
  obtain ⟨calls, rfl⟩ := moved
  have user := (State.calls_iff.mp calls).2.1
  unfold State.JoinAnswered State.joinTimely
  by_cases running : s.heap.exitOf serial = none
  · obtain ⟨joinable, unexited⟩ := joins.joinable inv enrolled made running
    have unjoined : ¬ s.joinedBefore serial := fun before => joinedBefore_exited inv before running
    obtain ⟨exited, -⟩ | ⟨exited, -⟩ | ⟨-, same⟩ := State.sysThreadJoin_joinable joinable exitval
    · cases exited.symm.trans unexited
    · cases exited.symm.trans unexited
    · refine iff_of_true (.inr ⟨unjoined, .inr ?_⟩) (.inl running)
      rw [same, ← joins.kept]
      exact update_self ..
  · cases joinable : s.joinable caller tid
    · have valid : tid ≠ 0 := (made _ joins.created).1
      have fails : s.sysThreadJoin caller tid exitval = s.ret caller (-1) := by
        rcases State.sysThreadJoin_unjoinable joinable exitval with ⟨null, -⟩ | failed
        · exact absurd null valid
        · exact failed
      have answer : (s.ret caller (-1)).Returns caller (-1) :=
        ⟨up, update_self .., update_self ..⟩
      rw [fails]
      by_cases before : s.joinedBefore serial
      · exact iff_of_true (.inl ⟨before, answer⟩) (.inr (.inl ⟨before, by simp⟩))
      · refine iff_of_false ?_ ?_
        · rintro (⟨earlier, -⟩ | ⟨-, succeeds | blocks⟩)
          · exact before earlier
          · cases answer.2.2.symm.trans succeeds.2.2
          · cases answer.2.1.symm.trans blocks
        · rintro (unexited | ⟨earlier, -⟩ | ⟨-, passes, -⟩)
          · exact running unexited
          · exact before earlier
          · cases passes
    · have exited : s.heap.exited tid = true := by
        obtain ⟨-, -, -, member⟩ := of_decide_eq_true joinable
        have used : s.heap.allocated tid = true := inv.listed (s.curproc caller) tid member
        by_contra unexited
        have none : s.heap.exitOf (s.heap.serial tid) = none :=
          inv.numbered.running tid used (Bool.eq_false_of_not_eq_true unexited)
        exact running (joins.kept ▸ none)
      obtain ⟨-, null, same⟩ | ⟨-, valid, same⟩ | ⟨unexited, -⟩ :=
        State.sysThreadJoin_joinable joinable exitval
      · have crashes : ∀ value, ¬ (s.sysThreadJoin caller tid exitval).Returns caller value := by
          intro value returns
          rw [same] at returns
          cases returns.1
        have stays : (s.sysThreadJoin caller tid exitval).threads.status caller = .user := by
          rw [same]
          exact (congrArg (fun r : Roster => r.status caller) (State.roster_recordJoin ..)).trans user
        refine iff_of_false ?_ ?_
        · rintro (⟨-, returns⟩ | ⟨-, returns | blocks⟩)
          · exact crashes _ returns
          · exact crashes _ returns
          · cases stays.symm.trans blocks
        · rintro (unexited | ⟨-, right⟩ | ⟨-, -, given, -⟩)
          · exact running unexited
          · exact (right rfl).1 null
          · exact given null
      · have answer : ∀ value, (s.sysThreadJoin caller tid exitval).Returns caller value ↔
            s.memory exitval = value := by
          intro value
          have crashed : (s.recordJoin (s.heap.serial tid) exitval
              (some (s.memory exitval))).crashed = none := by
            unfold State.recordJoin
            split <;> exact up
          rw [same]
          constructor
          · rintro ⟨-, -, returned⟩
            exact (update_self ..).symm.trans returned
          · rintro rfl
            exact ⟨crashed, update_self .., update_self ..⟩
        have stays : (s.sysThreadJoin caller tid exitval).threads.status caller = .user := by
          rw [same]
          exact update_self ..
        rw [answer, answer, stays]
        simp [running, valid]
      · cases exited.symm.trans unexited

/-- A joiner that is back in its loop goes on to wait while its target runs, and
else its call succeeds. -/
def State.JoinResumed (s t : State) (caller : TcbRef) (wait : Wait) (serial : Nat) : Prop :=
  s.heap.exitOf serial = none ∧ t.threads.status caller = .waiting wait ∨
  s.heap.exitOf serial ≠ none ∧ t.Returns caller 0

theorem joinLoop_resumed {ready : Nat} {target : PtcbRef} (inv : Delivery s.joinView)
    (waits : s.threads.status caller = .waiting (.join target exitval serial))
    (undetached : s.heap.detachedOf serial = false)
    (moved : step s (.resume caller ready) = some t) :
    s.JoinResumed t caller (.join target exitval serial) serial := by
  have up := crashed_of_step moved
  obtain ⟨back, resumes⟩ := resume_of_waits waits (act_of_step moved)
  obtain rfl := Option.some.inj resumes
  obtain ⟨used, rfl⟩ := (inv.awaited caller target exitval serial back.awaits).2 undetached
  have detached : s.heap.detachedOf (s.heap.serial target) = s.heap.detached target :=
    inv.numbered.detached target used
  obtain ⟨running, same⟩ | ⟨exited, same⟩ := State.joinLoop_undetached
    (detached.symm.trans undetached) caller exitval (s.joinView.heap.serial target)
  · rw [same]
    exact .inl ⟨inv.numbered.running target used running, update_self ..⟩
  · have value : s.heap.exitOf (s.heap.serial target) = some (s.heap.exitval target) :=
      inv.numbered.exited target used exited
    have crashed : ((s.unrefPtcb target).recordJoin (s.heap.serial target) exitval
        (some 0)).crashed = none := by
      obtain ⟨refCount, unref⟩ := State.unrefPtcb_eq (s := s) target
      rw [unref]
      unfold State.recordJoin
      split <;> exact up
    rw [same]
    exact .inr ⟨(fun none => nomatch value.symm.trans none), crashed, update_self ..,
      update_self ..⟩

end

/-! ### Whole runs -/

/-- What is to hold of a step of a run: the call is answered and the joiner goes
on, each of which is told of the exit it waits for. -/
structure JoinsAnswered (past : List (State × Label)) (s : State) (label : Label) : Prop where
  answered : ∀ caller tid exitval serial t, label = .threadJoin caller tid exitval →
    Joins past s caller tid serial → step s label = some t →
      s.JoinAnswered t caller tid exitval serial
  resumed : ∀ caller ready target exitval serial t, label = .resume caller ready →
    s.threads.status caller = .waiting (.join target exitval serial) →
    s.heap.detachedOf serial = false → step s label = some t →
      s.JoinResumed t caller (.join target exitval serial) serial
  told : ∀ caller target exitval serial, s.roster.Awaits caller (.join target exitval serial) →
    s.heap.detachedOf serial = false → s.heap.exitOf serial ≠ none →
      s.threads.woken caller = true

/-- The target of a join still runs, or else is found exactly as long as a join
may succeed, with `*exitval` as the answer. -/
def JoinsTimely (past : List (State × Label)) (s : State) (label : Label) : Prop :=
  ∀ caller tid exitval serial, label = .threadJoin caller tid exitval →
    Joins past s caller tid serial → s.joinTimely caller tid exitval serial

/-- What the runs keep in which no joiner resumes on a detached target. -/
structure Joinable (past : List (State × Label)) (s : State) : Prop where
  delivery : Delivery s.joinView
  enrolled : Enrolled s.joinView
  told : Told s
  made : Made past s

namespace Joinable
variable {past : List (State × Label)} {s : State}

theorem of_run (run : Machine.Run (machine.restrict State.targetKept) past s) :
    Joinable past s := by
  induction run with
  | start booted => exact ⟨(Delivery.boot booted).1, .boot booted, .boot booted, nofun⟩
  | step _ moved ih =>
    obtain ⟨target, moved⟩ := Machine.restrict_step.mp moved
    have moved := act_of_step moved
    have move := act_anyMove (joinSafe_of_targetKept target) moved
    exact ⟨ih.delivery.move move, ih.enrolled.move ih.delivery move,
      ih.told.step ih.delivery target moved, ih.made.step ih.delivery target moved⟩

/-- A step is as it is to be when its call of `ThreadJoin`, if it is one, is
timely. -/
theorem answered_iff (joinable : Joinable past s) {label : Label} {t : State}
    (moved : step s label = some t) : JoinsAnswered past s label ↔ JoinsTimely past s label := by
  obtain ⟨inv, enrolled, told, made⟩ := joinable
  constructor
  · rintro answered caller tid exitval serial rfl joins
    have answer := answered.answered caller tid exitval serial t rfl joins moved
    exact (join_answered_iff joins inv enrolled made moved).mp answer
  · intro timely
    refine ⟨?_, ?_, ?_⟩
    · rintro caller tid exitval serial t' rfl joins moved'
      exact (join_answered_iff joins inv enrolled made moved').mpr
        (timely caller tid exitval serial rfl joins)
    · rintro caller ready target exitval serial t' rfl waits undetached moved'
      exact joinLoop_resumed inv waits undetached moved'
    · intro caller target exitval serial awaits undetached exited
      obtain ⟨used, rfl⟩ := (inv.awaited caller target exitval serial awaits).2 undetached
      apply told caller target exitval _ awaits undetached
      by_contra running
      exact exited (inv.numbered.running target used (Bool.eq_false_of_not_eq_true running))

end Joinable

/-- **Joinability and timing.** In a run in which no joiner resumes on a
detached target, all joins are answered as if it made no difference whether
they or the exits of their targets come first, exactly when all are timely. -/
theorem joinability_iff {past : List (State × Label)} {last : State}
    (run : Machine.Run (machine.restrict State.targetKept) past last) :
    (∀ earlier s label, ((s, label) :: earlier) <:+ past → JoinsAnswered earlier s label) ↔
      ∀ earlier s label, ((s, label) :: earlier) <:+ past → JoinsTimely earlier s label := by
  refine forall_congr' fun earlier => forall_congr' fun s => forall_congr' fun label =>
    forall_congr' fun suffix => ?_
  obtain ⟨before, t, moved⟩ := run.before suffix
  exact (Joinable.of_run before).answered_iff (Machine.restrict_step.mp moved).2

/-- The main thread joins another one that still runs. -/
theorem joinability_iff_running : ∃ past last,
    Machine.Run (machine.restrict State.targetKept) past last ∧
    last.threads.status 0 = .waiting (.join 2 4 1) ∧
    ∀ earlier s label, ((s, label) :: earlier) <:+ past → JoinsAnswered earlier s label := by
  have run := Machine.Run.start (M := machine.restrict State.targetKept) booted_initial
  have run := (run.next (.createThread 0 1 0 0 2 1) rfl).next (.threadJoin 0 2 4) rfl
  refine ⟨_, _, run, rfl, (joinability_iff run).mpr ?_⟩
  rintro earlier s label suffix caller tid exitval serial rfl -
  rcases List.suffix_cons_iff.mp suffix with same | suffix
  · cases same
    exact .inl rfl
  · rcases List.suffix_cons_iff.mp suffix with same | suffix
    · cases same
    · cases List.suffix_nil.mp suffix

/-- A thread exits before main joins it. -/
theorem exited_unjoinable : ¬ ∀ past last,
    Machine.Run (machine.restrict State.targetKept) past last →
    ∀ earlier s label, ((s, label) :: earlier) <:+ past → JoinsAnswered earlier s label := by
  intro every
  have run := Machine.Run.start (M := machine.restrict State.targetKept) booted_initial
  have run := ((run.next (.createThread 0 1 0 0 2 1) rfl).next (.threadExit 1 7) rfl).next
    (.threadJoin 0 2 4) rfl
  have joins := (every _ _ run _ _ _ (List.suffix_refl _)).answered 0 2 4 1 _ rfl
    ⟨by decide, rfl, rfl, by decide⟩ rfl
  obtain ⟨⟨record, member, -⟩, -⟩ | ⟨-, returns | blocks⟩ := joins
  · cases member
  · cases returns.2.2
  · cases blocks

end TinyOs.Kernel
