import TinyOs.KernelBoot

/-! What `ThreadJoin` relies on: the PTCBs in use, the threads that own them,
the joiners they count, and the exit values on record. -/
namespace TinyOs.Kernel
open Function Library

/-- The part of the kernel that joins and exits of threads work on. -/
structure JoinView where
  heap : PtcbHeap
  threadList : Pid → List PtcbRef
  roster : Roster
  joined : List JoinReturn

def State.joinView (s : State) : JoinView where
  heap := s.heap
  threadList := s.pt.threadList
  roster := s.roster
  joined := s.history.joined

namespace JoinView

def become (v : JoinView) (thread : TcbRef) (status : Status) : JoinView :=
  { v with roster := v.roster.become thread status }

def leave (v : JoinView) (thread : TcbRef) : JoinView :=
  { v with roster := v.roster.leave thread }

end JoinView

/-- The thread is in the loop of a `ThreadJoin` of the given creation of a
PTCB. -/
def Status.joins (ptcb : PtcbRef) (serial : Nat) : Status → Bool
  | .waiting (.join target _ number) => target = ptcb ∧ number = serial
  | _ => false

/-- How many threads have joined the present thread of a PTCB. -/
def joiners (v : JoinView) (ptcb : PtcbRef) : Nat :=
  v.roster.count fun status => status.joins ptcb (v.heap.serial ptcb)

/-- The records of a PTCB in use are under its number, which is its own. -/
structure Numbered (heap : PtcbHeap) : Prop where
  created : ∀ ptcb, heap.allocated ptcb = true → heap.serial ptcb < heap.created
  once : ∀ a b, heap.allocated a = true → heap.allocated b = true →
    heap.serial a = heap.serial b → a = b
  detached : ∀ ptcb, heap.allocated ptcb = true →
    heap.detachedOf (heap.serial ptcb) = heap.detached ptcb
  running : ∀ ptcb, heap.allocated ptcb = true → heap.exited ptcb = false →
    heap.exitOf (heap.serial ptcb) = none
  exited : ∀ ptcb, heap.allocated ptcb = true → heap.exited ptcb = true →
    heap.exitOf (heap.serial ptcb) = some (heap.exitval ptcb)
  unborn : ∀ serial, heap.created ≤ serial →
    heap.detachedOf serial = false ∧ heap.exitOf serial = none

namespace Numbered
variable {s : State} {ptcb : PtcbRef}

theorem create (numbered : Numbered s.heap) (fresh : s.heap.allocated ptcb = false) (pid : Pid)
    (task : Task) (argl : Int) (args : Pointer) (tcb : TcbRef) :
    Numbered (s.createPtcb pid task argl args ptcb tcb).heap := by
  have others : ∀ other, update s.heap.allocated ptcb true other = true → other ≠ ptcb →
      s.heap.allocated other = true := by
    intro other used apart
    rwa [update_of_ne apart] at used
  have unborn := numbered.unborn s.heap.created (le_refl _)
  constructor
  case created =>
    intro other used
    simp only [State.createPtcb, update_apply] at used ⊢
    split
    · exact Nat.lt_succ_self _
    next apart => exact Nat.lt_succ_of_lt (numbered.created other (by simpa [apart] using used))
  case once =>
    intro a b used_a used_b same
    simp only [State.createPtcb] at used_a used_b same
    by_cases is_a : a = ptcb
    · subst a
      by_contra apart
      have old := others b used_b (Ne.symm apart)
      rw [update_self, update_of_ne (Ne.symm apart)] at same
      exact absurd same.symm (numbered.created b old).ne
    · have old_a := others a used_a is_a
      by_cases is_b : b = ptcb
      · subst b
        rw [update_self, update_of_ne is_a] at same
        exact absurd same (numbered.created a old_a).ne
      · rw [update_of_ne is_a, update_of_ne is_b] at same
        exact numbered.once a b old_a (others b used_b is_b) same
  case detached =>
    intro other used
    simp only [State.createPtcb] at used ⊢
    by_cases same : other = ptcb
    · subst other
      rw [update_self, update_self, unborn.1]
    · rw [update_of_ne same, update_of_ne same]
      exact numbered.detached other (others other used same)
  case running =>
    intro other used running
    simp only [State.createPtcb] at used running ⊢
    by_cases same : other = ptcb
    · subst other
      rw [update_self, unborn.2]
    · rw [update_of_ne same] at running ⊢
      exact numbered.running other (others other used same) running
  case exited =>
    intro other used exited
    simp only [State.createPtcb] at used exited ⊢
    have same : other ≠ ptcb := by
      rintro rfl
      rw [update_self] at exited
      cases exited
    rw [update_of_ne same] at exited ⊢
    exact numbered.exited other (others other used same) exited
  case unborn =>
    intro serial later
    exact numbered.unborn serial (Nat.le_of_succ_le later)

/-- `ThreadDetach` of any PTCB, in use or not. -/
theorem markDetached (numbered : Numbered s.heap) (ptcb : PtcbRef) :
    Numbered (s.markDetached ptcb).heap := by
  refine ⟨numbered.created, numbered.once, ?_, numbered.running, numbered.exited, ?_⟩
  · intro other used
    change s.heap.allocated other = true at used
    simp only [State.markDetached]
    by_cases same : other = ptcb
    · subst other
      simp [used]
    · rw [update_of_ne same]
      split
      next in_use =>
        have apart : s.heap.serial other ≠ s.heap.serial ptcb := fun clash =>
          same (numbered.once other ptcb used in_use clash)
        rw [update_of_ne apart]
        exact numbered.detached other used
      · exact numbered.detached other used
  · intro serial later
    refine ⟨?_, (numbered.unborn serial later).2⟩
    simp only [State.markDetached]
    split
    next in_use =>
      have apart : serial ≠ s.heap.serial ptcb :=
        (lt_of_lt_of_le (numbered.created ptcb in_use) later).ne'
      rw [update_of_ne apart]
      exact (numbered.unborn serial later).1
    · exact (numbered.unborn serial later).1

theorem markExited (numbered : Numbered s.heap) (used : s.heap.allocated ptcb = true)
    (exitval : Int) : Numbered (s.markExited ptcb exitval).heap := by
  have serials : ∀ other, s.heap.allocated other = true → other ≠ ptcb →
      s.heap.serial other ≠ s.heap.serial ptcb := fun other used_other apart clash =>
    apart (numbered.once other ptcb used_other used clash)
  refine ⟨numbered.created, numbered.once, numbered.detached, ?_, ?_, ?_⟩
  · intro other used_other running
    simp only [State.markExited] at running ⊢
    have same : other ≠ ptcb := by
      rintro rfl
      rw [update_self] at running
      cases running
    rw [update_of_ne same] at running
    rw [update_of_ne (serials other used_other same)]
    exact numbered.running other used_other running
  · intro other used_other exited
    simp only [State.markExited] at exited ⊢
    by_cases same : other = ptcb
    · subst other
      rw [update_self, update_self]
    · rw [update_of_ne same] at exited
      rw [update_of_ne (serials other used_other same), update_of_ne same]
      exact numbered.exited other used_other exited
  · intro serial later
    have apart : serial ≠ s.heap.serial ptcb :=
      (lt_of_lt_of_le (numbered.created ptcb used) later).ne'
    refine ⟨(numbered.unborn serial later).1, ?_⟩
    simp only [State.markExited]
    rw [update_of_ne apart]
    exact (numbered.unborn serial later).2

theorem free (numbered : Numbered s.heap) (ptcb : PtcbRef) :
    Numbered (s.freePtcb ptcb).heap := by
  have used : ∀ other, (s.freePtcb ptcb).heap.allocated other = true →
      s.heap.allocated other = true := by
    intro other still
    simp only [State.freePtcb, update_apply] at still
    split at still
    · cases still
    · exact still
  exact ⟨fun other still => numbered.created other (used other still),
    fun a b still_a still_b => numbered.once a b (used a still_a) (used b still_b),
    fun other still => numbered.detached other (used other still),
    fun other still => numbered.running other (used other still),
    fun other still => numbered.exited other (used other still), numbered.unborn⟩

end Numbered

/-- What the calls on threads keep: a live thread owns a PTCB in use, the
threads of a process are in use, and a PTCB counts its joiners while its
thread runs. -/
structure Delivery (v : JoinView) : Prop where
  numbered : Numbered v.heap
  live_nodup : v.roster.live.Nodup
  live_small : ∀ thread ∈ v.roster.live, thread < maxThreads
  owned : ∀ thread ∈ v.roster.live, v.heap.allocated (v.roster.ptcb thread) = true ∧
    v.heap.exited (v.roster.ptcb thread) = false
  owned_once : ∀ a ∈ v.roster.live, ∀ b ∈ v.roster.live, v.roster.ptcb a = v.roster.ptcb b → a = b
  listed : ∀ pid, ∀ ptcb ∈ v.threadList pid, v.heap.allocated ptcb = true
  listed_nodup : ∀ pid, (v.threadList pid).Nodup
  awaited : ∀ thread target exitval serial, v.roster.Awaits thread (.join target exitval serial) →
    serial < v.heap.created ∧ (v.heap.detachedOf serial = false →
      v.heap.allocated target = true ∧ v.heap.serial target = serial)
  counted : ∀ ptcb, v.heap.allocated ptcb = true → v.heap.detached ptcb = false →
    v.heap.exited ptcb = false → (v.heap.refCount ptcb).toNat = joiners v ptcb
  recorded : ∀ record ∈ v.joined, ∃ value,
    v.heap.exitOf record.serial = some value ∧ record.exitedWith = some value

theorem Status.joins_iff {status : Status} {ptcb : PtcbRef} {serial : Nat} :
    status.joins ptcb serial = true ↔ ∃ exitval, status = .waiting (.join ptcb exitval serial) := by
  constructor
  · intro joins
    unfold Status.joins at joins
    split at joins
    next target exitval number =>
      obtain ⟨rfl, rfl⟩ := of_decide_eq_true joins
      exact ⟨exitval, rfl⟩
    · cases joins
  · rintro ⟨exitval, rfl⟩
    simp [Status.joins]

namespace Delivery
variable {v : JoinView} {s : State} {thread : TcbRef} {ptcb : PtcbRef}

/-- A thread stops or starts doing something else than to wait for a thread
that runs. -/
theorem become (inv : Delivery v) {status : Status}
    (idle : ∀ ptcb, v.heap.exited ptcb = false →
      ∀ serial, (v.roster.status thread).joins ptcb serial = false)
    (still : ∀ ptcb serial, status.joins ptcb serial = false) :
    Delivery (v.become thread status) := by
  refine ⟨inv.numbered, inv.live_nodup, inv.live_small, inv.owned, inv.owned_once, inv.listed,
    inv.listed_nodup, ?_, ?_, inv.recorded⟩
  · intro other target exitval serial awaits
    obtain before | ⟨-, -, waits⟩ := awaits.of_become
    · exact inv.awaited other target exitval serial before
    · cases (still target serial).symm.trans (Status.joins_iff.mpr ⟨exitval, waits⟩)
  · intro ptcb used undetached running
    have same := Roster.count_idle (r := v.roster)
      (fun status => status.joins ptcb (v.heap.serial ptcb))
      (idle ptcb running (v.heap.serial ptcb)) (still ptcb (v.heap.serial ptcb))
    exact (inv.counted ptcb used undetached running).trans same.symm

/-- Nobody waits for a thread that has not been created. -/
theorem unawaited (inv : Delivery v) (ptcb : PtcbRef) :
    v.roster.count (fun status => status.joins ptcb v.heap.created) = 0 := by
  apply List.countP_eq_zero.mpr
  intro thread live joins
  obtain ⟨exitval, waits⟩ := Status.joins_iff.mp joins
  have earlier := (inv.awaited thread ptcb exitval v.heap.created ⟨live, waits⟩).1
  exact absurd earlier (lt_irrefl _)

theorem create (inv : Delivery s.joinView) (fresh : s.heap.allocated ptcb = false) {tcb : TcbRef}
    (small : tcb < maxThreads) (new : tcb ∉ s.threads.live) (pid : Pid) (task : Task) (argl : Int)
    (args : Pointer) : Delivery (s.createPtcb pid task argl args ptcb tcb).joinView := by
  have unowned : ∀ thread ∈ s.threads.live, s.threads.ptcb thread ≠ ptcb := by
    rintro thread live rfl
    cases fresh.symm.trans (inv.owned thread live).1
  have unlisted : ∀ pid, ptcb ∉ s.pt.threadList pid := by
    intro pid member
    cases fresh.symm.trans (inv.listed pid ptcb member)
  have others : ∀ thread, thread ∈ s.threads.live → thread ≠ tcb := by
    rintro thread live rfl
    exact new live
  constructor
  case numbered => exact inv.numbered.create fresh pid task argl args tcb
  case live_nodup => exact List.nodup_cons.mpr ⟨new, inv.live_nodup⟩
  case live_small =>
    intro thread member
    rcases List.mem_cons.mp member with rfl | live
    · exact small
    · exact inv.live_small thread live
  case owned =>
    intro thread member
    simp only [State.joinView, State.roster, State.createPtcb] at member ⊢
    rcases List.mem_cons.mp member with rfl | live
    · simp
    · have apart := unowned thread live
      rw [update_of_ne (others thread live), update_of_ne apart, update_of_ne apart]
      exact inv.owned thread live
  case owned_once =>
    intro a member_a b member_b same
    simp only [State.joinView, State.roster, State.createPtcb] at member_a member_b same
    rcases List.mem_cons.mp member_a with rfl | live_a <;>
      rcases List.mem_cons.mp member_b with rfl | live_b
    · rfl
    · rw [update_self, update_of_ne (others b live_b)] at same
      exact absurd same.symm (unowned b live_b)
    · rw [update_self, update_of_ne (others a live_a)] at same
      exact absurd same (unowned a live_a)
    · rw [update_of_ne (others a live_a), update_of_ne (others b live_b)] at same
      exact inv.owned_once a live_a b live_b same
  case listed =>
    intro other p member
    simp only [State.joinView, State.createPtcb, update_apply] at member ⊢
    split
    · rfl
    next apart =>
      apply inv.listed other p
      change p ∈ s.pt.threadList other
      split at member
      next same =>
        rw [same]
        simpa [apart] using member
      · exact member
  case listed_nodup =>
    intro other
    simp only [State.joinView, State.createPtcb, update_apply]
    split
    · refine List.nodup_append'.mpr ⟨inv.listed_nodup pid, List.nodup_singleton ptcb, ?_⟩
      simpa using unlisted pid
    · exact inv.listed_nodup other
  case awaited =>
    intro thread target exitval serial awaits
    change (s.roster.spawn pid ptcb tcb).Awaits thread (.join target exitval serial) at awaits
    obtain ⟨earlier, kept⟩ := inv.awaited thread target exitval serial awaits.of_spawn
    refine ⟨Nat.lt_succ_of_lt earlier, fun undetached => ?_⟩
    obtain ⟨used, number⟩ := kept undetached
    have apart : target ≠ ptcb := by
      rintro rfl
      cases fresh.symm.trans used
    simp only [State.joinView, State.createPtcb]
    rw [update_of_ne apart, update_of_ne apart]
    exact ⟨used, number⟩
  case counted =>
    intro p used undetached running
    have spawned := Roster.count_spawn (r := s.roster)
      (fun status => status.joins p ((s.createPtcb pid task argl args ptcb tcb).heap.serial p)) rfl
      new pid ptcb
    refine Eq.trans ?_ spawned.symm
    simp only [State.joinView, State.createPtcb] at used undetached running ⊢
    by_cases same : p = ptcb
    · subst p
      rw [update_self, update_self]
      exact (inv.unawaited ptcb).symm
    · rw [update_of_ne same] at used undetached running
      rw [update_of_ne same, update_of_ne same]
      exact inv.counted p used undetached running
  case recorded => exact inv.recorded

theorem detach (inv : Delivery s.joinView) (ptcb : PtcbRef) :
    Delivery (s.markDetached ptcb).joinView := by
  refine ⟨inv.numbered.markDetached ptcb, inv.live_nodup, inv.live_small, inv.owned,
    inv.owned_once, inv.listed, inv.listed_nodup, ?_, ?_, inv.recorded⟩
  · intro thread target exitval serial awaits
    obtain ⟨earlier, kept⟩ := inv.awaited thread target exitval serial awaits
    refine ⟨earlier, fun undetached => kept ?_⟩
    simp only [State.joinView, State.markDetached] at undetached ⊢
    split at undetached
    · rw [update_apply] at undetached
      split at undetached
      · cases undetached
      · exact undetached
    · exact undetached
  · intro other used undetached running
    simp only [State.joinView, State.markDetached, update_apply] at undetached
    split at undetached
    · cases undetached
    · exact inv.counted other used undetached running

/-! ### The end of a thread -/

/-- The thread is gone, and its PTCB has its exit value. -/
theorem mark (inv : Delivery s.joinView) (live : thread ∈ s.threads.live)
    (idle : ∀ ptcb serial, (s.threads.status thread).joins ptcb serial = false) (exitval : Int) :
    Delivery ((s.markExited (s.threads.ptcb thread) exitval).kernelSleepExited thread).joinView := by
  obtain ⟨used, running⟩ := inv.owned thread live
  have stays : ∀ other ∈ s.threads.live.erase thread, other ∈ s.threads.live ∧
      s.threads.ptcb other ≠ s.threads.ptcb thread := by
    intro other member
    obtain ⟨apart, live_other⟩ := inv.live_nodup.mem_erase_iff.mp member
    exact ⟨live_other, fun same => apart (inv.owned_once other live_other thread live same)⟩
  constructor
  case numbered => exact inv.numbered.markExited used exitval
  case live_nodup => exact inv.live_nodup.erase thread
  case live_small => exact fun other member => inv.live_small other (stays other member).1
  case owned =>
    intro other member
    obtain ⟨live_other, apart⟩ := stays other member
    obtain ⟨used_other, running_other⟩ := inv.owned other live_other
    refine ⟨used_other, ?_⟩
    change update s.heap.exited (s.threads.ptcb thread) true (s.threads.ptcb other) = false
    rw [update_of_ne apart]
    exact running_other
  case owned_once =>
    exact fun a member_a b member_b => inv.owned_once a (stays a member_a).1 b (stays b member_b).1
  case listed => exact inv.listed
  case listed_nodup => exact inv.listed_nodup
  case awaited =>
    intro other target exitval serial awaits
    change (s.roster.leave thread).Awaits other (.join target exitval serial) at awaits
    exact inv.awaited other target exitval serial awaits.of_leave
  case counted =>
    intro other used_other undetached running_other
    change update s.heap.exited (s.threads.ptcb thread) true other = false at running_other
    have apart : other ≠ s.threads.ptcb thread := by
      rintro rfl
      rw [update_self] at running_other
      cases running_other
    rw [update_of_ne apart] at running_other
    have left := Roster.count_leave (r := s.roster)
      (fun status => status.joins other (s.heap.serial other)) (idle other (s.heap.serial other))
    exact (inv.counted other used_other undetached running_other).trans left.symm
  case recorded =>
    intro record member
    obtain ⟨value, exited, same⟩ := inv.recorded record member
    refine ⟨value, ?_, same⟩
    have apart : record.serial ≠ s.heap.serial (s.threads.ptcb thread) := by
      intro clash
      have none := inv.numbered.running (s.threads.ptcb thread) used running
      rw [clash] at exited
      cases exited.symm.trans none
    change update s.heap.exitOf (s.heap.serial (s.threads.ptcb thread)) (some exitval)
      record.serial = some value
    rw [update_of_ne apart]
    exact exited

/-- A PTCB that nobody owns or has joined may be freed. -/
theorem free (inv : Delivery s.joinView) (ptcb : PtcbRef)
    (unowned : ∀ thread ∈ s.threads.live, s.threads.ptcb thread ≠ ptcb)
    (unjoined : ∀ thread exitval serial, s.roster.Awaits thread (.join ptcb exitval serial) →
      s.heap.detachedOf serial = true) :
    Delivery (s.freePtcb ptcb).joinView := by
  constructor
  case numbered => exact inv.numbered.free ptcb
  case live_nodup => exact inv.live_nodup
  case live_small => exact inv.live_small
  case owned =>
    intro thread live
    refine ⟨?_, (inv.owned thread live).2⟩
    change update s.heap.allocated ptcb false (s.threads.ptcb thread) = true
    rw [update_of_ne (unowned thread live)]
    exact (inv.owned thread live).1
  case owned_once => exact inv.owned_once
  case listed =>
    intro pid other member
    obtain ⟨apart, member⟩ := (inv.listed_nodup pid).mem_erase_iff.mp member
    change update s.heap.allocated ptcb false other = true
    rw [update_of_ne apart]
    exact inv.listed pid other member
  case listed_nodup => exact fun pid => (inv.listed_nodup pid).erase ptcb
  case awaited =>
    intro thread target exitval serial awaits
    obtain ⟨earlier, kept⟩ := inv.awaited thread target exitval serial awaits
    refine ⟨earlier, fun undetached => ?_⟩
    have apart : target ≠ ptcb := by
      rintro rfl
      cases undetached.symm.trans (unjoined thread exitval serial awaits)
    change update s.heap.allocated ptcb false target = true ∧ _
    rw [update_of_ne apart]
    exact kept undetached
  case counted =>
    intro other used
    simp only [State.joinView, State.freePtcb, update_apply] at used
    split at used
    · cases used
    · exact inv.counted other used
  case recorded => exact inv.recorded

/-- The last part of the life of a thread: its PTCB stays for its joiners. -/
theorem exit (inv : Delivery s.joinView) (live : thread ∈ s.threads.live)
    (idle : ∀ ptcb serial, (s.threads.status thread).joins ptcb serial = false) (exitval : Int) :
    Delivery ((s.exitPtcb (s.threads.ptcb thread) exitval).kernelSleepExited thread).joinView := by
  have marked := inv.mark live idle exitval
  obtain ⟨used, running⟩ := inv.owned thread live
  have unowned : ∀ other ∈ s.threads.live.erase thread,
      s.threads.ptcb other ≠ s.threads.ptcb thread := by
    intro other member same
    obtain ⟨apart, live_other⟩ := inv.live_nodup.mem_erase_iff.mp member
    exact apart (inv.owned_once other live_other thread live same)
  obtain ⟨released, same⟩ | ⟨-, -, same⟩ := State.exitPtcb_cases (s := s) (s.threads.ptcb thread) exitval
  · rw [same]
    apply marked.free (s.threads.ptcb thread) unowned
    intro other pointer serial awaits
    by_contra still
    have undetached : s.heap.detachedOf serial = false := Bool.eq_false_of_not_eq_true still
    have awaits : s.roster.Awaits other (.join (s.threads.ptcb thread) pointer serial) :=
      Roster.Awaits.of_leave awaits
    obtain ⟨-, rfl⟩ := (inv.awaited other _ pointer serial awaits).2 undetached
    have undetached := (inv.numbered.detached _ used).symm.trans undetached
    -- So the joiner is counted, and the PTCB is not freed.
    have count := inv.counted _ used undetached running
    have joined := Roster.count_pos (r := s.roster)
      (fun status => status.joins (s.threads.ptcb thread) (s.heap.serial (s.threads.ptcb thread)))
      awaits.1 (Status.joins_iff.mpr ⟨pointer, awaits.2⟩)
    obtain detached | unreferenced := released
    · cases undetached.symm.trans detached
    · refine joined (count.symm.trans ?_)
      change (s.heap.refCount (s.threads.ptcb thread)).toNat = 0
      rw [unreferenced]
      rfl
  · rw [same]
    exact marked

/-! ### Joiners -/

/-- A joiner blocks, and is counted. -/
theorem block (inv : Delivery s.joinView) (live : thread ∈ s.threads.live)
    (user : s.threads.status thread = .user) (used : s.heap.allocated ptcb = true)
    (exitval : Pointer) :
    Delivery ((s.refPtcb ptcb).kernelWait thread (.join ptcb exitval (s.heap.serial ptcb))).joinView := by
  refine ⟨⟨inv.numbered.created, inv.numbered.once, inv.numbered.detached, inv.numbered.running,
    inv.numbered.exited, inv.numbered.unborn⟩, inv.live_nodup, inv.live_small, inv.owned,
    inv.owned_once, inv.listed, inv.listed_nodup, ?_, ?_, inv.recorded⟩
  · intro other target pointer serial awaits
    change (s.roster.become thread _).Awaits other _ at awaits
    obtain before | ⟨-, -, waits⟩ := awaits.of_become
    · exact inv.awaited other target pointer serial before
    · cases waits
      exact ⟨inv.numbered.created ptcb used, fun _ => ⟨used, rfl⟩⟩
  · intro other used_other undetached running
    have count : (s.heap.refCount other).toNat =
        s.roster.count fun status => status.joins other (s.heap.serial other) :=
      inv.counted other used_other undetached running
    have added := Roster.count_become (r := s.roster)
      (fun status => status.joins other (s.heap.serial other)) inv.live_nodup live
      (.waiting (.join ptcb exitval (s.heap.serial ptcb)))
    have idle : (s.roster.status thread).joins other (s.heap.serial other) = false := by
      change (s.threads.status thread).joins other (s.heap.serial other) = false
      rw [user]
      rfl
    rw [idle, if_neg (by decide), Nat.add_zero] at added
    change (update s.heap.refCount ptcb (s.heap.refCount ptcb + 1) other).toNat =
      (s.roster.become thread _).count fun status => status.joins other (s.heap.serial other)
    rw [added]
    by_cases same : other = ptcb
    · subst other
      have few := Roster.count_le (r := s.roster)
        (fun status => status.joins ptcb (s.heap.serial ptcb)) inv.live_nodup inv.live_small
      rw [if_pos (Status.joins_iff.mpr ⟨exitval, rfl⟩), update_self, ← count]
      apply BitVec.toNat_add_of_lt
      rw [count]
      simp only [maxThreads] at few
      exact lt_of_le_of_lt (Nat.add_le_add_right few 1) (by decide)
    · have apart : ¬ Status.joins other (s.heap.serial other)
          (.waiting (.join ptcb exitval (s.heap.serial ptcb))) = true := by
        simp [Status.joins, Ne.symm same]
      rw [if_neg apart, update_of_ne same, count]
      rfl

/-- A joiner of a thread that has exited drops its reference. -/
theorem unref (inv : Delivery s.joinView) (exited : s.heap.exited ptcb = true) :
    Delivery (s.unrefPtcb ptcb).joinView := by
  unfold State.unrefPtcb
  split
  · refine ⟨⟨inv.numbered.created, inv.numbered.once, inv.numbered.detached, inv.numbered.running,
      inv.numbered.exited, inv.numbered.unborn⟩, inv.live_nodup, inv.live_small, inv.owned,
      inv.owned_once, inv.listed, inv.listed_nodup, inv.awaited, ?_, inv.recorded⟩
    intro other used undetached running
    have apart : other ≠ ptcb := by
      rintro rfl
      cases exited.symm.trans running
    change (update s.heap.refCount ptcb _ other).toNat = _
    rw [update_of_ne apart]
    exact inv.counted other used undetached running
  · exact inv

/-- A record is of a value that is itself on record. -/
theorem record (inv : Delivery s.joinView) {serial : Nat}
    (exited : s.heap.detachedOf serial = false → ∃ value, s.heap.exitOf serial = some value)
    (exitval : Pointer) (result : Option Int) :
    Delivery (s.recordJoin serial exitval result).joinView := by
  unfold State.recordJoin
  split
  · exact inv
  next undetached =>
    refine ⟨inv.numbered, inv.live_nodup, inv.live_small, inv.owned, inv.owned_once, inv.listed,
      inv.listed_nodup, inv.awaited, inv.counted, ?_⟩
    intro record member
    rcases List.mem_cons.mp member with rfl | member
    · obtain ⟨value, known⟩ := exited (by simpa using undetached)
      exact ⟨value, known, known⟩
    · exact inv.recorded record member

end Delivery
end TinyOs.Kernel
