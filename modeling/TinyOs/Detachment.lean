import TinyOs.Joinability

/-! What `ThreadDetach` refuses, and what becomes of the joins of a thread that
has been detached. -/
namespace TinyOs.Kernel
open Function Library

/-- What a thread may detach: a thread of its own process that has neither
exited nor been detached. -/
def State.detachable (s : State) (caller : TcbRef) (tid : PtcbRef) : Bool :=
  tid ∈ s.pt.threadList (s.curproc caller) ∧ s.heap.exited tid = false ∧
    s.heap.detached tid = false

/-- The threads and the thread count of every process are as before. -/
def State.SameThreads (s t : State) : Prop :=
  t.pt.threadList = s.pt.threadList ∧ t.pt.threadCount = s.pt.threadCount

/-- What is to hold of a step of a run. A thread that has been detached is known
by the number of its creation; `detachedOf` is set by any `ThreadDetach` on a
PTCB in use that returns 0. -/
structure DetachHonoured (s : State) (label : Label) : Prop where
  accepted : ∀ caller tid t, label = .threadDetach caller tid → s.heap.allocated tid = true →
    tid ≠ 0 → s.detachable caller tid = true → step s label = some t →
      t.Returns caller 0 ∧ t.heap.detachedOf (s.heap.serial tid) = true ∧ s.SameThreads t ∧
        ∀ joiner, s.WaitsOn joiner (.exitCv tid) → t.threads.woken joiner = true
  refused : ∀ caller tid t, label = .threadDetach caller tid → s.heap.allocated tid = true →
    tid ≠ 0 → s.detachable caller tid = false → step s label = some t → t = s.ret caller (-1)
  later : ∀ caller tid exitval t, label = .threadJoin caller tid exitval → tid ≠ 0 →
    s.heap.detachedOf (s.heap.serial tid) = true → step s label = some t → t = s.ret caller (-1)
  blocked : ∀ caller ready target exitval serial t, label = .resume caller ready →
    s.threads.status caller = .waiting (.join target exitval serial) →
    s.heap.detachedOf serial = true → step s label = some t →
      t.Returns caller (-1) ∧ (s.heap.exitOf serial = none → s.SameThreads t)

/-- A PTCB that is not detached is so by a thread of its process and before its
own exits, and no thread that has joined it finds out in its loop. -/
structure DetachKept (s : State) (label : Label) : Prop where
  own : ∀ caller tid, label = .threadDetach caller tid → s.heap.allocated tid = true → tid ≠ 0 →
    s.heap.detached tid = false →
      tid ∈ s.pt.threadList (s.curproc caller) ∧ s.heap.exited tid = false
  unjoined : ∀ caller ready target exitval serial, label = .resume caller ready →
    s.threads.status caller = .waiting (.join target exitval serial) →
      s.heap.detachedOf serial = false

section
variable {s t : State} {caller : TcbRef} {tid : PtcbRef}

theorem State.sysThreadDetach_undetached (valid : tid ≠ 0) (undetached : s.heap.detached tid = false)
    (caller : TcbRef) : s.sysThreadDetach caller tid =
      ((s.markDetached tid).kernelBroadcast (.exitCv tid)).ret caller 0 := by
  rw [State.sysThreadDetach, if_neg valid, if_pos undetached]

theorem State.sysThreadDetach_detached (valid : tid ≠ 0) (detached : s.heap.detached tid = true)
    (caller : TcbRef) : s.sysThreadDetach caller tid = s.ret caller (-1) := by
  rw [State.sysThreadDetach, if_neg valid, if_neg (by simp [detached])]

/-- The call as a step of a machine that is up. -/
theorem step_threadDetach (moved : step s (.threadDetach caller tid) = some t) :
    s.crashed = none ∧ t = s.sysThreadDetach caller tid := by
  have up := crashed_of_step moved
  have moved := act_of_step moved
  simp only [act, Option.ite_none_right_eq_some, Option.some.injEq] at moved
  exact ⟨up, moved.2.symm⟩

/-- An accepted call marks the PTCB, and all that wait for the thread hear of
it. -/
theorem detach_accepted (used : s.heap.allocated tid = true) (valid : tid ≠ 0)
    (undetached : s.heap.detached tid = false)
    (moved : step s (.threadDetach caller tid) = some t) :
    t.Returns caller 0 ∧ t.heap.detachedOf (s.heap.serial tid) = true ∧ s.SameThreads t ∧
      ∀ joiner, s.WaitsOn joiner (.exitCv tid) → t.threads.woken joiner = true := by
  obtain ⟨up, rfl⟩ := step_threadDetach moved
  rw [State.sysThreadDetach_undetached valid undetached]
  refine ⟨⟨up, update_self .., update_self ..⟩, ?_, ⟨rfl, rfl⟩, fun joiner waits => ?_⟩
  · change (s.markDetached tid).heap.detachedOf (s.heap.serial tid) = true
    simp [State.markDetached, used]
  · exact State.kernelBroadcast_wakes (s := s.markDetached tid) waits

/-- Nobody can join a thread that has been detached, whether its PTCB is still
in use or not. -/
theorem unjoinable_of_detached (inv : Delivery s.joinView)
    (detached : s.heap.detachedOf (s.heap.serial tid) = true) (caller : TcbRef) :
    s.joinable caller tid = false := by
  by_contra joins
  obtain ⟨-, undetached, -, member⟩ := of_decide_eq_true (Bool.eq_true_of_not_eq_false joins)
  have used : s.heap.allocated tid = true := inv.listed (s.curproc caller) tid member
  have same : s.heap.detachedOf (s.heap.serial tid) = s.heap.detached tid :=
    inv.numbered.detached tid used
  cases (same.symm.trans detached).symm.trans undetached

/-- A joiner in its loop goes on to wait, or its call succeeds. -/
theorem joinLoop_not_error {ready : Nat} {target : PtcbRef} {exitval : Pointer} {serial : Nat}
    (waits : s.threads.status caller = .waiting (.join target exitval serial))
    (moved : step s (.resume caller ready) = some t) : ¬ t.Returns caller (-1) := by
  obtain ⟨-, resumes⟩ := resume_of_waits waits (act_of_step moved)
  obtain rfl := Option.some.inj resumes
  rintro ⟨-, outside, returned⟩
  cases detached : s.heap.detached target
  · obtain ⟨-, same⟩ | ⟨-, same⟩ := State.joinLoop_undetached detached caller exitval serial
    · rw [same] at outside
      cases (update_self ..).symm.trans outside
    · rw [same] at returned
      cases (update_self ..).symm.trans returned
  · rw [State.joinLoop_detached detached] at returned
    cases (update_self ..).symm.trans returned

variable {label : Label}

/-- A joiner of a thread that nobody detached finds its PTCB undetached. -/
theorem DetachKept.joinSafe (kept : DetachKept s label) (inv : Delivery s.joinView)
    (moved : act s label = some t) : s.joinSafe label = true := by
  apply joinSafe_of
  rintro thread ready target exitval serial rfl waits detached
  have undetached := kept.unjoined thread ready target exitval serial rfl waits
  obtain ⟨back, -⟩ := resume_of_waits waits moved
  obtain ⟨used, rfl⟩ := (inv.awaited thread target exitval serial back.awaits).2 undetached
  have same : s.heap.detachedOf (s.heap.serial target) = s.heap.detached target :=
    inv.numbered.detached target used
  cases (same.trans detached).symm.trans undetached

/-- A step is as it is to be exactly when it does not detach what it may not, and
is not of a joiner whose thread was detached. -/
theorem detach_honoured_iff (inv : Delivery s.joinView) (moved : step s label = some t) :
    DetachHonoured s label ↔ DetachKept s label := by
  constructor
  · intro honoured
    constructor
    · rintro caller tid rfl used valid undetached
      by_contra foreign
      have refused : s.detachable caller tid = false :=
        decide_eq_false fun ⟨member, running, _⟩ => foreign ⟨member, running⟩
      have fails := honoured.refused caller tid t rfl used valid refused moved
      obtain ⟨⟨-, -, succeeds⟩, -⟩ := detach_accepted used valid undetached moved
      rw [fails] at succeeds
      cases (update_self ..).symm.trans succeeds
    · rintro caller ready target exitval serial rfl waits
      by_contra detached
      have fails := honoured.blocked caller ready target exitval serial t rfl waits
        (Bool.eq_true_of_not_eq_false detached) moved
      exact joinLoop_not_error waits moved fails.1
  · intro kept
    constructor
    case accepted =>
      rintro caller tid t rfl used valid detachable moved
      exact detach_accepted used valid (of_decide_eq_true detachable).2.2 moved
    case refused =>
      rintro caller tid t rfl used valid refused moved
      have detached : s.heap.detached tid = true := by
        by_contra undetached
        have undetached := Bool.eq_false_of_not_eq_true undetached
        obtain ⟨member, running⟩ := kept.own caller tid rfl used valid undetached
        exact of_decide_eq_false refused ⟨member, running, undetached⟩
      rw [(step_threadDetach moved).2, State.sysThreadDetach_detached valid detached]
    case later =>
      rintro caller tid exitval t rfl valid detached moved
      have moved := act_of_step moved
      cases acted_of_act moved
      obtain ⟨null, -⟩ | fails := State.sysThreadJoin_unjoinable
        (unjoinable_of_detached inv detached caller) exitval
      · exact absurd null valid
      · exact fails
    case blocked =>
      rintro caller ready target exitval serial t rfl waits detached
      cases (kept.unjoined caller ready target exitval serial rfl waits).symm.trans detached

end

/-- **The contract of `ThreadDetach`.** A run honours it in all its steps exactly
when in none a foreign or an exited thread is detached, and in none a joiner is
back in its loop after its thread was. -/
theorem detach_contract_iff {past : List (State × Label)} {last : State}
    (run : machine.Run past last) :
    (∀ left ∈ past, DetachHonoured left.1 left.2) ↔ ∀ left ∈ past, DetachKept left.1 left.2 := by
  have both : ((∀ s, Machine.Visits past last s → True) ∧
      ∀ left ∈ past, DetachHonoured left.1 left.2) ↔ ∀ left ∈ past, DetachKept left.1 left.2 := by
    refine Machine.lawful_iff_allowed DetachKept DetachHonoured (fun s => Delivery s.joinView)
      (fun s booted => (Delivery.boot booted).1) ?_ (fun _ _ => trivial) ?_ ?_ run
    · intro s label t inv kept moved
      have moved := act_of_step moved
      exact inv.move (act_anyMove (kept.joinSafe inv moved) moved)
    · intro s label t inv kept moved
      exact (detach_honoured_iff inv moved).mpr kept
    · intro s label t inv refused moved honoured
      exact absurd ((detach_honoured_iff inv moved).mp honoured) refused
  simpa using both

/-- A thread detaches itself, and main fails to join it. -/
theorem detach_contract_iff_self : ∃ past last, machine.Run past last ∧
    last.threads.returned 1 = 0 ∧ last.threads.returned 0 = -1 ∧
    ∀ left ∈ past, DetachHonoured left.1 left.2 := by
  have run := Machine.Run.start (M := machine) booted_initial
  have run := run.next (.createThread 0 1 0 0 2 1) rfl
  have run := run.next (.threadDetach 1 2) rfl
  have run := run.next (.threadJoin 0 2 4) rfl
  refine ⟨_, _, run, rfl, rfl, (detach_contract_iff run).mpr ?_⟩
  simp only [List.forall_mem_cons]
  refine ⟨⟨by simp, by simp⟩, ⟨?_, by simp⟩, ⟨by simp, by simp⟩, by simp⟩
  rintro caller tid same - - -
  cases same
  exact ⟨by decide, rfl⟩

/-- Main joins a thread, which detaches itself while main waits: the join returns
0, and the thread is no longer one of the two of its process. -/
theorem detached_joined : ¬ ∀ past last, machine.Run past last →
    ∀ left ∈ past, DetachHonoured left.1 left.2 := by
  intro every
  have run := Machine.Run.start (M := machine) booted_initial
  have run := run.next (.createThread 0 1 0 0 2 1) rfl
  have run := run.next (.threadJoin 0 2 4) rfl
  have run := run.next (.threadDetach 1 2) rfl
  have run := run.next (.resume 0 0) rfl
  have honoured := every _ _ run _ List.mem_cons_self
  obtain ⟨⟨-, -, returned⟩, -⟩ := honoured.blocked 0 0 2 4 1 _ rfl rfl rfl rfl
  cases returned

end TinyOs.Kernel
