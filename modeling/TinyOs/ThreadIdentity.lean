import TinyOs.Detachment

/-! The `Tid_t` that `ThreadSelf` returns. It is the address of a TCB, where
`CreateThread` returns, and `ThreadJoin` and `ThreadDetach` expect, the address
of a PTCB. -/
namespace TinyOs.Kernel
open Function Library

namespace State

/-- `allocate_thread` and `xmalloc` return memory that is not in use, so no PTCB
in use is where a TCB is. -/
def apart (address : TcbRef → Pointer) (s : State) : Bool :=
  ∀ thread ∈ s.threads.live, address thread ≠ 0 ∧ s.heap.allocated (address thread) = false

def sysThreadSelf (address : TcbRef → Pointer) (s : State) (thread : TcbRef) : State :=
  s.ret thread (address thread)

/-- The memory of a TCB changes, which for a call that takes it for a PTCB is to
change the fields that its checks read. -/
def touch (s : State) (ptcb : PtcbRef) (tcb : TcbRef) (detached : Bool) : State :=
  { s with
    heap.tcb := update s.heap.tcb ptcb tcb
    heap.detached := update s.heap.detached ptcb detached }

end State

inductive SelfLabel where
  | kernel (label : Label)
  | threadSelf (thread : TcbRef)
  /-- The scheduler writes to the TCB of a thread. -/
  | touch (thread tcb : TcbRef) (detached : Bool)
  deriving DecidableEq, Repr

def selfStep (address : TcbRef → Pointer) (s : State) : SelfLabel → Option State
  | .kernel label => (step s label).filter fun t => t.apart address
  | .threadSelf thread =>
    if s.crashed = none ∧ s.calls thread then some (s.sysThreadSelf address thread) else none
  | .touch thread tcb detached =>
    if thread ∈ s.threads.live then some (s.touch (address thread) tcb detached) else none

/-- The kernel with the calls of `ThreadSelf`, its TCBs at the given
addresses. -/
def selfMachine (address : TcbRef → Pointer) : Machine State SelfLabel where
  initial s := machine.initial s ∧ s.apart address = true
  step := selfStep address

/-- What is to hold of `ThreadSelf` called by a thread: it returns the `Tid_t` of
the thread, the `PTCB*` that `CreateThread` returned or that is in the list of
its process, and so the other calls do with its value what they do with that. -/
structure SelfKnown (address : TcbRef → Pointer) (s : State) (thread : TcbRef) : Prop where
  known : ∀ t, selfStep address s (.threadSelf thread) = some t →
    t.threads.returned thread = s.threads.ptcb thread
  join_self : ∀ exitval t,
    selfStep address s (.kernel (.threadJoin thread (address thread) exitval)) = some t →
      t = s.ret thread (-1)
  detach_self : ∀ t, selfStep address s (.kernel (.threadDetach thread (address thread))) = some t →
    t = s.sysThreadDetach thread (s.threads.ptcb thread)
  joined : ∀ other exitval t, s.joinable other (s.threads.ptcb thread) = true →
    selfStep address s (.kernel (.threadJoin other (address thread) exitval)) = some t →
      t = s.sysThreadJoin other (s.threads.ptcb thread) exitval

/-- The PTCBs of the live threads are not where their TCBs are, and the lists of
threads hold PTCBs in use. -/
structure Identities (address : TcbRef → Pointer) (v : JoinView) : Prop where
  own : ∀ thread ∈ v.roster.live, v.roster.ptcb thread ≠ address thread
  listed : ∀ pid, ∀ ptcb ∈ v.threadList pid, v.heap.allocated ptcb = true
  listed_nodup : ∀ pid, (v.threadList pid).Nodup

section
variable {Leaves : TcbRef → PtcbRef → Nat → Prop} {address : TcbRef → Pointer} {s t : State}
  {v w : JoinView} {ends : Option TcbRef} {thread : TcbRef}

theorem State.apart_iff : s.apart address = true ↔ ∀ thread ∈ s.threads.live,
    address thread ≠ 0 ∧ s.heap.allocated (address thread) = false := by
  simp [State.apart]

/-- A live thread has been live before with the PTCB it has, or it has just been
created, with one in use. -/
theorem JoinMove.origin (move : JoinMove Leaves v ends w) (live : thread ∈ w.roster.live) :
    thread ∈ v.roster.live ∧ w.roster.ptcb thread = v.roster.ptcb thread ∨
    w.heap.allocated (w.roster.ptcb thread) = true := by
  cases move with
  | quiet | become | detach | block => exact .inl ⟨live, rfl⟩
  | @create s caller tcb ptcb =>
    by_cases made : thread = tcb
    · subst made
      right
      change update s.heap.allocated ptcb true (update s.threads.ptcb thread ptcb thread) = true
      rw [update_self, update_self]
    · exact .inl ⟨List.mem_of_ne_of_mem made live, update_of_ne made ..⟩
  | @join s caller tid exitval result =>
    revert live
    unfold State.recordJoin
    split <;> exact fun live => .inl ⟨live, rfl⟩
  | @drop s caller target exitval serial =>
    obtain ⟨refCount, joined, view⟩ := State.joinView_pastLoop (s := s) target serial exitval
    rw [view] at live ⊢
    exact .inl ⟨live, rfl⟩
  | @dropFree s caller target exitval serial =>
    obtain ⟨refCount, joined, view⟩ := State.joinView_pastLoop (s := s) target serial exitval
    rw [State.joinView_freePtcb, view] at live ⊢
    exact .inl ⟨live, rfl⟩
  | @exit s caller exitval =>
    left
    obtain ⟨-, same⟩ | ⟨-, -, same⟩ := State.exitPtcb_cases (s := s) (s.threads.ptcb caller) exitval
    all_goals
      rw [same] at live ⊢
      exact ⟨List.mem_of_mem_erase live, rfl⟩

namespace Identities

theorem free (known : Identities address v) (ptcb : PtcbRef) : Identities address (v.free ptcb) := by
  refine ⟨known.own, fun pid other member => ?_, fun pid => (known.listed_nodup pid).erase ptcb⟩
  obtain ⟨different, member⟩ := (known.listed_nodup pid).mem_erase_iff.mp member
  change update v.heap.allocated ptcb false other = true
  rw [update_of_ne different]
  exact known.listed pid other member

theorem create (known : Identities address s.joinView) {ptcb : PtcbRef} {tcb : TcbRef}
    (unused : s.heap.allocated ptcb = false) (pid : Pid) (task : Task) (argl : Int) (args : Pointer)
    (own : ∀ thread ∈ tcb :: s.threads.live,
      update s.threads.ptcb tcb ptcb thread ≠ address thread) :
    Identities address (s.createPtcb pid task argl args ptcb tcb).joinView := by
  have unlisted : ∀ pid, ptcb ∉ s.pt.threadList pid := fun pid member =>
    Bool.noConfusion (unused.symm.trans (known.listed pid ptcb member))
  refine ⟨own, fun other p member => ?_, fun other => ?_⟩
  · change p ∈ update s.pt.threadList pid (s.pt.threadList pid ++ [ptcb]) other at member
    change update s.heap.allocated ptcb true p = true
    by_cases made : p = ptcb
    · rw [made, update_self]
    · rw [update_of_ne made]
      rw [update_apply] at member
      split at member
      next =>
        have before : p ∈ s.pt.threadList pid := by simpa [made] using member
        exact known.listed pid p before
      next => exact known.listed other p member
  · change (update s.pt.threadList pid (s.pt.threadList pid ++ [ptcb]) other).Nodup
    rw [update_apply]
    split
    · exact List.nodup_append.mpr ⟨known.listed_nodup pid, List.nodup_singleton _,
        fun p member q made same => unlisted pid (List.mem_singleton.mp made ▸ same ▸ member)⟩
    · exact known.listed_nodup other

/-- A thread whose PTCB is freed early keeps the pointer to it, which is why the
memory in use says nothing of it later. -/
theorem own_move (known : Identities address v) (move : JoinMove Leaves v ends w)
    (apart : ∀ thread ∈ w.roster.live, w.heap.allocated (address thread) = false) :
    ∀ thread ∈ w.roster.live, w.roster.ptcb thread ≠ address thread := by
  intro thread live same
  obtain ⟨before, stays⟩ | used := move.origin live
  · exact known.own thread before (stays.symm.trans same)
  · cases (same ▸ apart thread live).symm.trans used

theorem move (known : Identities address v) (move : JoinMove Leaves v ends w)
    (apart : ∀ thread ∈ w.roster.live, w.heap.allocated (address thread) = false) :
    Identities address w := by
  have own := known.own_move move apart
  cases move with
  | quiet | become | block | detach => exact ⟨own, known.listed, known.listed_nodup⟩
  | @create s caller tcb ptcb pid task argl args user fresh =>
    obtain ⟨-, unused, -⟩ := State.fresh_iff.mp fresh
    have made := known.create unused pid task argl args own
    exact ⟨own, made.listed, made.listed_nodup⟩
  | @join s caller tid exitval result =>
    revert own
    unfold State.recordJoin
    split <;> exact fun own => ⟨own, known.listed, known.listed_nodup⟩
  | @drop s caller target exitval serial =>
    obtain ⟨refCount, joined, view⟩ := State.joinView_pastLoop (s := s) target serial exitval
    rw [view] at own ⊢
    exact ⟨own, known.listed, known.listed_nodup⟩
  | @dropFree s caller target exitval serial =>
    obtain ⟨refCount, joined, view⟩ := State.joinView_pastLoop (s := s) target serial exitval
    have freed := known.free target
    rw [State.joinView_freePtcb, view] at own ⊢
    exact ⟨own, freed.listed, freed.listed_nodup⟩
  | @exit s thread exitval =>
    have freed := known.free (s.threads.ptcb thread)
    obtain ⟨-, same⟩ | ⟨-, -, same⟩ := State.exitPtcb_cases (s := s) (s.threads.ptcb thread) exitval
    · rw [same] at own ⊢
      exact ⟨own, freed.listed, freed.listed_nodup⟩
    · rw [same] at own ⊢
      exact ⟨own, known.listed, known.listed_nodup⟩

/-- A joiner that finds its target detached frees it, whoever else uses it. -/
theorem unsafe_move {label : Label} (known : Identities address s.joinView)
    (risky : s.joinSafe label = false) (moved : act s label = some t) :
    Identities address t.joinView := by
  obtain ⟨thread, ready, target, exitval, serial, rfl, waits, detached⟩ : ∃ thread ready target
      exitval serial, label = .resume thread ready ∧
      s.threads.status thread = .waiting (.join target exitval serial) ∧
      s.heap.detached target = true := by
    by_contra none
    have safe : s.joinSafe label = true :=
      joinSafe_of fun thread ready target exitval serial same waits detached =>
        absurd ⟨thread, ready, target, exitval, serial, same, waits, detached⟩ none
    cases risky.symm.trans safe
  obtain ⟨-, resumes⟩ := resume_of_waits waits moved
  obtain rfl := Option.some.inj resumes
  rw [State.joinLoop_detached detached]
  obtain ⟨refCount, joined, view⟩ := State.joinView_pastLoop (s := s) target serial exitval
  have freed := known.free target
  have view : (((s.unrefPtcb target).recordJoin serial exitval (some 0)).freePtcb target).joinView =
      { s.joinView.free target with
        heap := { (s.joinView.free target).heap with refCount := refCount }, joined := joined } := by
    rw [State.joinView_freePtcb, view]
    rfl
  have same : Identities address
      (((s.unrefPtcb target).recordJoin serial exitval (some 0)).freePtcb target).joinView := by
    rw [view]
    exact ⟨freed.own, freed.listed, freed.listed_nodup⟩
  exact ⟨same.own, same.listed, same.listed_nodup⟩

theorem boot (booted : machine.initial s) (apart : s.apart address = true) :
    Identities address s.joinView := by
  obtain ⟨delivery, -⟩ := Delivery.boot booted
  refine ⟨fun thread live same => ?_, delivery.listed, delivery.listed_nodup⟩
  have same : s.threads.ptcb thread = address thread := same
  have used : s.heap.allocated (s.threads.ptcb thread) = true := (delivery.owned thread live).1
  have unused := (State.apart_iff.mp apart thread live).2
  rw [same] at used
  cases unused.symm.trans used

end Identities

/-- What every run keeps: no TCB is taken for a PTCB in use or for the thread's
own. -/
theorem identities_reachable (reached : (selfMachine address).Reachable s) :
    s.apart address = true ∧ Identities address s.joinView := by
  refine Machine.Reachable.induction (M := selfMachine address)
    (P := fun s => s.apart address = true ∧ Identities address s.joinView) ?_ ?_ reached
  · rintro s ⟨booted, apart⟩
    exact ⟨apart, .boot booted apart⟩
  rintro s label t ⟨apart, known⟩ moved
  cases label with
  | kernel label =>
    obtain ⟨moved, apart⟩ := Option.filter_eq_some_iff.mp moved
    refine ⟨apart, ?_⟩
    have moved := act_of_step moved
    cases safe : s.joinSafe label
    · exact known.unsafe_move safe moved
    · exact known.move (act_anyMove safe moved)
        fun thread live => (State.apart_iff.mp apart thread live).2
  | threadSelf thread =>
    obtain ⟨-, moved⟩ := Option.ite_none_right_eq_some.mp moved
    obtain rfl := Option.some.inj moved
    exact ⟨apart, known.own, known.listed, known.listed_nodup⟩
  | touch thread tcb detached =>
    obtain ⟨-, moved⟩ := Option.ite_none_right_eq_some.mp moved
    obtain rfl := Option.some.inj moved
    exact ⟨apart, known.own, known.listed, known.listed_nodup⟩

/-- A TCB is in no list of threads, so nobody can join it. -/
theorem Identities.unjoinable (known : Identities address s.joinView) (apart : s.apart address = true)
    (live : thread ∈ s.threads.live) (caller : TcbRef) :
    s.joinable caller (address thread) = false := by
  by_contra joins
  obtain ⟨-, -, -, member⟩ := of_decide_eq_true (Bool.eq_true_of_not_eq_false joins)
  have used := known.listed (s.curproc caller) (address thread) member
  cases (State.apart_iff.mp apart thread live).2.symm.trans used

/-- A kernel step of `selfMachine` on a call of a thread. -/
theorem selfStep_kernel {label : Label} (moved : selfStep address s (.kernel label) = some t) :
    act s label = some t :=
  act_of_step (Option.filter_eq_some_iff.mp moved).1

/-- **`ThreadSelf` is known to nobody.** Whoever calls it in whatever state gets
a value that is not its `Tid_t`. To detach that value does not detach the
caller, and to join it is an error, for the caller and for every other thread. -/
theorem self_unknown {address : TcbRef → Pointer} {s : State} {thread : TcbRef}
    (reached : (selfMachine address).Reachable s) (up : s.crashed = none)
    (calls : s.calls thread = true) :
    ¬ SelfKnown address s thread ∧
    (∀ t, selfStep address s (.kernel (.threadDetach thread (address thread))) = some t →
      t.heap.detached (s.threads.ptcb thread) = s.heap.detached (s.threads.ptcb thread)) ∧
    ∀ other exitval t,
      selfStep address s (.kernel (.threadJoin other (address thread) exitval)) = some t →
        t = s.ret other (-1) := by
  obtain ⟨apart, known⟩ := identities_reachable reached
  have live := (State.calls_iff.mp calls).1
  have valid := (State.apart_iff.mp apart thread live).1
  have other : s.threads.ptcb thread ≠ address thread := known.own thread live
  refine ⟨fun self => ?_, fun t moved => ?_, fun caller exitval t moved => ?_⟩
  · have answer := self.known (s.sysThreadSelf address thread) (if_pos ⟨up, calls⟩)
    have same : (address thread : Int) = s.threads.ptcb thread := (update_self ..).symm.trans answer
    exact other (Int.ofNat.inj same).symm
  · have moved := selfStep_kernel moved
    cases acted_of_act moved
    cases detached : s.heap.detached (address thread)
    · rw [State.sysThreadDetach_undetached valid detached]
      exact update_of_ne other ..
    · rw [State.sysThreadDetach_detached valid detached]
      rfl
  · have moved := selfStep_kernel moved
    cases acted_of_act moved
    obtain ⟨null, -⟩ | fails :=
      State.sysThreadJoin_unjoinable (known.unjoinable apart live caller) exitval
    · exact absurd null valid
    · exact fails

end

/-- The TCBs of the examples, where no PTCB of theirs is. -/
def addressAbove (thread : TcbRef) : Pointer := 1000 + thread

/-- A thread tells main its value of `ThreadSelf`, and main joins that. -/
theorem self_unknown_thread : ∃ s t, (selfMachine addressAbove).Reachable s ∧
    s.threads.returned 0 = 2 ∧ s.threads.returned 1 = 1001 ∧ ¬ SelfKnown addressAbove s 1 ∧
    s.joinable 0 2 = true ∧
    selfStep addressAbove s (.kernel (.threadJoin 0 1001 4)) = some t ∧ t = s.ret 0 (-1) := by
  have run := Machine.Run.start (M := selfMachine addressAbove) ⟨booted_initial, by decide⟩
  have run := run.next (.kernel (.createThread 0 1 0 0 2 1)) rfl
  have run := run.next (.threadSelf 1) rfl
  have misnamed := fun calls => self_unknown ⟨_, run⟩ rfl (calls : State.calls _ 1 = true)
  obtain ⟨unknown, -, joined⟩ := misnamed rfl
  exact ⟨_, _, ⟨_, run⟩, rfl, rfl, unknown, rfl, rfl, joined 0 4 _ rfl⟩

/-- Main calls `ThreadSelf`. -/
theorem main_misnamed : ¬ ∀ address s, (selfMachine address).Reachable s →
    ∀ thread, s.crashed = none → s.calls thread = true → SelfKnown address s thread := by
  intro every
  have reached := Machine.Reachable.start (M := selfMachine addressAbove)
    ⟨booted_initial, by decide⟩
  have answer := (every addressAbove _ reached 0 rfl rfl).known _ rfl
  cases answer

end TinyOs.Kernel
