import TinyOs.CondVarInvariant
import TinyOs.IntrusiveList

/-! The ring of waiters of a condition variable, as `cv_wait` and `cv_signal`
keep it: nodes on the stacks of the waiting threads, no sentinel, and
`cv->waitset` moved by hand. -/
namespace TinyOs.CondVar
open Library Function IntrusiveList

variable {Thread Mutex Cond : Type*} [DecidableEq Thread] [DecidableEq Mutex] [DecidableEq Cond]

/-- The `node` of every thread's waiter, whose key is the waiter it is part of,
and `cv->waitset`. A thread stands for the one waiter on its stack. -/
structure Rings (Thread Cond : Type*) where
  heap : Heap Thread Thread
  waitset : Cond → Option Thread

namespace Rings

/-- The head of `cv_wait`: the node is initialized and put at the back. -/
def push (rings : Rings Thread Cond) (cv : Cond) (waiter : Thread) : Rings Thread Cond :=
  let heap := rlnodeInit rings.heap waiter waiter
  match rings.waitset cv with
  | some wset => { rings with heap := rlistPushBack heap wset waiter }
  | none => { heap := heap, waitset := update rings.waitset cv (some waiter) }

def removeFromRing (rings : Rings Thread Cond) (cv : Cond) (w : Thread) : Rings Thread Cond :=
  let waitset :=
    if rings.waitset cv = some w then
      let nextw := rings.heap.key (rings.heap.next w)
      update rings.waitset cv (if nextw = w then none else some nextw)
    else rings.waitset
  { waitset := waitset, heap := (rlistRemove rings.heap w).1 }

/-- The ring lists these waiters, the first one at `cv->waitset`. -/
def Holds (rings : Rings Thread Cond) (cv : Cond) (waiters : List Thread) : Prop :=
  rings.waitset cv = waiters.head? ∧
    (∀ first rest, waiters = first :: rest → rings.heap.Ring first rest) ∧
    ∀ waiter ∈ waiters, rings.heap.prev (rings.heap.next waiter) = waiter ∧
      rings.heap.key waiter = waiter

variable {rings : Rings Thread Cond} {cv other : Cond} {waiter : Thread}
variable {waiters others : List Thread}

omit [DecidableEq Thread] [DecidableEq Cond] in
theorem Holds.matched (holds : rings.Holds cv waiters) :
    ∀ waiter ∈ waiters, rings.heap.prev (rings.heap.next waiter) = waiter :=
  fun waiter member => (holds.2.2 waiter member).1

omit [DecidableEq Thread] [DecidableEq Cond] in
/-- The ring of a condition variable does not depend on waiters outside it. -/
theorem Holds.frame {rings' : Rings Thread Cond} (holds : rings.Holds cv waiters)
    (head : rings'.waitset cv = rings.waitset cv)
    (same : ∀ waiter ∈ waiters, rings'.heap.next waiter = rings.heap.next waiter ∧
      rings'.heap.prev waiter = rings.heap.prev waiter ∧
      rings'.heap.key waiter = rings.heap.key waiter) : rings'.Holds cv waiters := by
  cases waiters with
  | nil => exact ⟨head.trans holds.1, by simp, by simp⟩
  | cons first rest =>
    have ring := holds.2.1 first rest rfl
    refine ⟨head.trans holds.1, ?_, fun waiter member => ?_⟩
    · rintro first' rest' whole
      obtain ⟨rfl, rfl⟩ := List.cons.inj whole
      exact ⟨ring.1.congr fun node member => (same node member).1, ring.2⟩
    · obtain ⟨matched, key⟩ := holds.2.2 waiter member
      rw [(same waiter member).1, (same _ (ring.next_mem member)).2.1, (same waiter member).2.2]
      exact ⟨matched, key⟩

omit [DecidableEq Cond] in
/-- The node of a waiter outside a ring can be initialized. -/
theorem Holds.init (holds : rings.Holds cv waiters) (absent : waiter ∉ waiters) :
    ({ rings with heap := rlnodeInit rings.heap waiter waiter }).Holds cv waiters := by
  refine holds.frame rfl fun node member => ?_
  have apart : node ≠ waiter := ne_of_mem_of_not_mem member absent
  exact ⟨update_of_ne apart .., update_of_ne apart .., update_of_ne apart ..⟩

omit [DecidableEq Cond] in
/-- An exchange at two nodes of one ring or of none is not seen by the others. -/
theorem Holds.splice_other {heap : Heap Thread Thread} {waitset : Cond → Option Thread}
    {a b : Thread} (holds : rings.Holds other others)
    (changed : heap.toLinks = rings.heap.toLinks.splice a b) (keys : heap.key = rings.heap.key)
    (head : waitset other = rings.waitset other)
    (apart : ∀ node ∈ others, node ≠ a ∧ node ≠ b ∧ node ≠ rings.heap.next a ∧
      node ≠ rings.heap.next b) : (Rings.mk heap waitset).Holds other others := by
  apply holds.frame head
  intro node member
  obtain ⟨notA, notB, notNextA, notNextB⟩ := apart node member
  refine ⟨?_, ?_, congrFun keys node⟩
  · rw [changed, rings.heap.splice_next_other notA notB]
  · rw [changed, rings.heap.splice_prev_other notNextA notNextB]

/-- A waiter that is in no ring gets to the back of one. -/
theorem Holds.push (holds : rings.Holds cv waiters) (absent : waiter ∉ waiters) :
    (rings.push cv waiter).Holds cv (waiters ++ [waiter]) := by
  cases waiters with
  | nil =>
    have head : rings.waitset cv = none := holds.1
    simp only [Rings.push, head]
    refine ⟨by simp, ?_, ?_⟩
    · rintro first rest whole
      obtain ⟨rfl, rfl⟩ : waiter = first ∧ [] = rest := by simpa using whole
      exact rlnodeInit_single
    · simp [rlnodeInit, rlnodeNew]
  | cons first rest =>
    have head : rings.waitset cv = some first := holds.1
    have ready := holds.init absent
    have ring := ready.2.1 first rest rfl
    simp only [Rings.push, head]
    refine ⟨by simp [head], ?_, fun node member => ?_⟩
    · rintro first' rest' whole
      obtain ⟨rfl, rfl⟩ := List.cons.inj whole
      exact ring.splice_tail ready.matched rlnodeInit_single absent
    · have own : ∀ node ∈ first :: rest ++ [waiter],
          (rlnodeInit rings.heap waiter waiter).prev
            ((rlnodeInit rings.heap waiter waiter).next node) = node ∧
          (rlnodeInit rings.heap waiter waiter).key node = node := by
        intro node member
        rcases List.mem_append.mp member with old | new
        · exact ready.2.2 node old
        · obtain rfl := List.mem_singleton.mp new
          exact ⟨rlnodeInit_matched, update_self ..⟩
      have tail := ring.prev_mem ready.matched List.mem_cons_self
      exact ⟨Links.splice_matched (ready.matched _ tail) rlnodeInit_matched (own node member).1,
        (own node member).2⟩

/-- **`remove_from_ring` takes out the waiter it is given**, be it the first, one
in the middle, the last or the only one. -/
theorem Holds.removeFromRing (holds : rings.Holds cv waiters) (member : waiter ∈ waiters) :
    (rings.removeFromRing cv waiter).Holds cv (waiters.erase waiter) := by
  cases waiters with
  | nil => cases member
  | cons first rest =>
    have ring := holds.2.1 first rest rfl
    have head : rings.waitset cv = some first := holds.1
    have kept : ∀ node ∈ (first :: rest).erase waiter,
        (rlistRemove rings.heap waiter).1.prev ((rlistRemove rings.heap waiter).1.next node) = node ∧
        (rlistRemove rings.heap waiter).1.key node = node := by
      intro node inside
      obtain ⟨matched, key⟩ := holds.2.2 node (List.mem_of_mem_erase inside)
      have behind := ring.prev_mem holds.matched member
      exact ⟨Links.splice_matched (holds.matched _ member) (holds.matched _ behind) matched, key⟩
    by_cases front : waiter = first
    · subst front
      rw [List.erase_cons_head] at kept ⊢
      cases rest with
      | nil =>
        have alone : rings.heap.key (rings.heap.next waiter) = waiter := by
          rw [Links.Ring.nil_iff.mp ring, (holds.2.2 waiter member).2]
        exact ⟨by simp [Rings.removeFromRing, head, alone], by simp, by simp⟩
      | cons second tail =>
        have follows : rings.heap.key (rings.heap.next waiter) = second := by
          rw [ring.next_head, (holds.2.2 second (by simp)).2]
        have apart : second ≠ waiter := (List.ne_of_not_mem_cons ring.absent).symm
        refine ⟨by simp [Rings.removeFromRing, head, follows, apart], ?_, kept⟩
        rintro first' rest' whole
        obtain ⟨rfl, rfl⟩ := List.cons.inj whole
        have straight : rings.heap.Ring waiter ([] ++ second :: tail) := ring
        have turned : rings.heap.Ring second (tail ++ [waiter]) := straight.rotate
        have out := turned.splice_out fun node inside => holds.matched node (by
          simp only [List.mem_cons, List.mem_append, List.not_mem_nil, or_false] at inside ⊢
          tauto)
        rw [List.append_nil] at out
        exact out.1
    · have inRest : waiter ∈ rest := (List.mem_cons.mp member).resolve_left front
      obtain ⟨before, after, rfl⟩ := List.append_of_mem inRest
      have notBefore : waiter ∉ before := fun early =>
        (List.nodup_append'.mp ring.nodup).2.2 early List.mem_cons_self
      have erased : (first :: (before ++ waiter :: after)).erase waiter =
          first :: (before ++ after) := by
        rw [List.erase_cons_tail (by simpa using Ne.symm front), List.erase_append_right _ notBefore,
          List.erase_cons_head]
      rw [erased] at kept ⊢
      refine ⟨by simp [Rings.removeFromRing, head, Ne.symm front], ?_, kept⟩
      rintro first' rest' whole
      obtain ⟨rfl, rfl⟩ := List.cons.inj whole
      exact (ring.splice_out holds.matched).1

/-- Pushing a waiter is not seen by the other condition variables. -/
theorem Holds.push_other (holds : rings.Holds cv waiters) (absent : waiter ∉ waiters)
    (third : rings.Holds other others) (elsewhere : other ≠ cv) (notThird : waiter ∉ others)
    (apart : others.Disjoint waiters) : (rings.push cv waiter).Holds other others := by
  have ready := third.init notThird
  cases waiters with
  | nil =>
    have head : rings.waitset cv = none := holds.1
    simp only [Rings.push, head]
    exact ready.frame (update_of_ne elsewhere ..) fun node _ => ⟨rfl, rfl, rfl⟩
  | cons first rest =>
    have head : rings.waitset cv = some first := holds.1
    have own := holds.init absent
    have ring := own.2.1 first rest rfl
    have tail := ring.prev_mem own.matched List.mem_cons_self
    have beyond := ring.next_mem tail
    simp only [Rings.push, head]
    refine ready.splice_other rfl rfl rfl fun node member => ?_
    have notIn : node ∉ first :: rest := fun inside => apart member inside
    have notWaiter : node ≠ waiter := ne_of_mem_of_not_mem member notThird
    refine ⟨?_, notWaiter, ?_, ?_⟩
    · exact fun same => notIn (by rw [same]; exact tail)
    · exact fun same => notIn (by rw [same]; exact beyond)
    · simpa [rlnodeInit, rlnodeNew] using notWaiter

/-- Removing a waiter is not seen by the other condition variables. -/
theorem Holds.removeFromRing_other (holds : rings.Holds cv waiters) (member : waiter ∈ waiters)
    (third : rings.Holds other others) (elsewhere : other ≠ cv) (apart : others.Disjoint waiters) :
    (rings.removeFromRing cv waiter).Holds other others := by
  cases waiters with
  | nil => cases member
  | cons first rest =>
    have ring := holds.2.1 first rest rfl
    have behind := ring.prev_mem holds.matched member
    have head : (rings.removeFromRing cv waiter).waitset other = rings.waitset other := by
      unfold Rings.removeFromRing
      by_cases front : rings.waitset cv = some waiter
      · simp [front, elsewhere]
      · simp [front]
    refine third.splice_other rfl rfl head fun node inside => ?_
    have notIn : node ∉ first :: rest := fun here => apart inside here
    refine ⟨?_, ?_, ?_, ?_⟩
    · exact fun same => notIn (by rw [same]; exact member)
    · exact fun same => notIn (by rw [same]; exact behind)
    · exact fun same => notIn (by rw [same]; exact ring.next_mem member)
    · exact fun same => notIn (by rw [same]; exact ring.next_mem behind)

end Rings

/-! ### The machine over the pointers -/

/-- The threads with their rings. In `state` the lists of waiters are history:
no step reads them. -/
structure RingState (Thread Mutex Cond : Type*) where
  state : State Thread Mutex Cond
  rings : Rings Thread Cond
  /-- When a thread last joined a ring, on a clock that counts such events. -/
  arrival : Thread → Nat
  clock : Nat

namespace RingState

/-- The head of `cv_wait`. -/
def enqueue (r : RingState Thread Mutex Cond) (thread : Thread) (mutex : Mutex) (cv : Cond)
    (timed : Bool) : RingState Thread Mutex Cond where
  state := CondVar.enqueue r.state thread mutex cv timed
  rings := r.rings.push cv thread
  arrival := update r.arrival thread r.clock
  clock := r.clock + 1

/-- The tidying-up section of `cv_wait`. -/
def recheck (r : RingState Thread Mutex Cond) (thread : Thread) (mutex : Mutex) (cv : Cond) :
    RingState Thread Mutex Cond :=
  { r with
    state := CondVar.recheck r.state thread mutex cv
    rings := if (r.state.waiter thread).removed then r.rings else r.rings.removeFromRing cv thread }

/-- The test of the loop of `cv_signal` and the round up to `wakeup`. -/
def scan (r : RingState Thread Mutex Cond) (thread : Thread) (call : Signal Thread Cond) :
    RingState Thread Mutex Cond :=
  match r.rings.waitset call.cv with
  | none =>
    { r with state := { r.state with point := update r.state.point thread (.finishing call) } }
  | some waiter =>
    { r with
      state := takeWaiter r.state thread call waiter
      rings := r.rings.removeFromRing call.cv waiter }

def advance (r : RingState Thread Mutex Cond) (thread : Thread) :
    Point Thread Mutex Cond → Option (RingState Thread Mutex Cond)
  | .asleep mutex cv =>
    if r.state.waitsetLock cv = none then some (r.recheck thread mutex cv) else none
  | .scanning call => some (r.scan thread call)
  | point => (CondVar.advance r.state thread point).map fun state => { r with state := state }

def act (r : RingState Thread Mutex Cond) (thread : Thread) :
    Action Mutex Cond → Option (RingState Thread Mutex Cond)
  | .condWait mutex cv timed =>
    if r.state.point thread = .outside ∧ r.state.waitsetLock cv = none then
      some (r.enqueue thread mutex cv timed)
    else none
  | .advance => r.advance thread (r.state.point thread)
  | action => (CondVar.act r.state thread action).map fun state => { r with state := state }

def step (r : RingState Thread Mutex Cond) :
    Label Thread Mutex Cond → Option (RingState Thread Mutex Cond)
  | .run thread action =>
    if r.state.threadState thread = .running then r.act thread action else none
  | label => (CondVar.step r.state label).map fun state => { r with state := state }

end RingState

/-- The stacks, and with them the nodes of the waiters, are arbitrary. -/
def bootRings (threadState : Thread → Scheduler.ThreadState) (stack : Thread → Waiter)
    (heap : Heap Thread Thread) : RingState Thread Mutex Cond where
  state := boot threadState stack
  rings := { heap := heap, waitset := fun _ => none }
  arrival := fun _ => 0
  clock := 0

def ringMachine (Thread Mutex Cond : Type*) [DecidableEq Thread] [DecidableEq Mutex]
    [DecidableEq Cond] : Machine (RingState Thread Mutex Cond) (Label Thread Mutex Cond) where
  initial r := ∃ threadState stack heap, r = bootRings threadState stack heap
  step := RingState.step

/-! ### What a step does to the rings -/

/-- The waiter that a signaller has taken out of a ring and not yet marked. -/
def Point.hand : Point Thread Mutex Cond → Option (Cond × Thread)
  | .taken call waiter | .woken call waiter => some (call.cv, waiter)
  | _ => none

def InHand (point : Thread → Point Thread Mutex Cond) (cv : Cond) (waiter : Thread) : Prop :=
  ∃ signaller, (point signaller).hand = some (cv, waiter)

/-- A step that neither changes a ring nor takes a waiter out of one. -/
structure Undisturbed (s t : State Thread Mutex Cond) : Prop where
  waitset : t.waitset = s.waitset
  inHand : ∀ cv waiter, InHand t.point cv waiter → InHand s.point cv waiter
  signalled : ∀ waiter, (t.waiter waiter).signalled = true →
    (s.waiter waiter).signalled = true ∨ ∃ cv, InHand s.point cv waiter

section Steps
variable {s t : State Thread Mutex Cond} {r r' : RingState Thread Mutex Cond}
variable {thread waiter : Thread} {cv : Cond}

omit [DecidableEq Mutex] [DecidableEq Cond] in
theorem InHand.before {point : Thread → Point Thread Mutex Cond} {next : Point Thread Mutex Cond}
    (plain : next.hand = none ∨ next.hand = (point thread).hand)
    (inHand : InHand (update point thread next) cv waiter) : InHand point cv waiter := by
  obtain ⟨signaller, holds⟩ := inHand
  by_cases own : signaller = thread
  · subst own
    rw [update_self] at holds
    rcases plain with nothing | same
    · rw [nothing] at holds
      cases holds
    · exact ⟨signaller, same.symm.trans holds⟩
  · rw [update_of_ne own] at holds
    exact ⟨signaller, holds⟩

omit [DecidableEq Mutex] [DecidableEq Cond] in
/-- A thread moves on, and rings and marks stay. -/
theorem Undisturbed.point {next : Point Thread Mutex Cond} (waitset : t.waitset = s.waitset)
    (waiters : t.waiter = s.waiter) (moved : t.point = update s.point thread next)
    (plain : next.hand = none ∨ next.hand = (s.point thread).hand) : Undisturbed s t where
  waitset := waitset
  inHand cv waiter inHand := by
    rw [moved] at inHand
    exact inHand.before plain
  signalled waiter marked := .inl (by rwa [waiters] at marked)

omit [DecidableEq Thread] [DecidableEq Mutex] [DecidableEq Cond] in
theorem Undisturbed.still (waitset : t.waitset = s.waitset) (waiters : t.waiter = s.waiter)
    (point : t.point = s.point) : Undisturbed s t where
  waitset := waitset
  inHand cv waiter inHand := by rwa [point] at inHand
  signalled waiter marked := .inl (by rwa [waiters] at marked)

omit [DecidableEq Mutex] [DecidableEq Cond] in
theorem wakeup_undisturbed {call : Signal Thread Cond} (here : s.point thread = .taken call waiter) :
    Undisturbed s (wakeup s thread call waiter) := by
  unfold wakeup
  split
  · exact .point rfl rfl rfl (.inr (by simp [here, Point.hand]))
  · exact .point rfl rfl rfl (.inl rfl)

omit [DecidableEq Mutex] [DecidableEq Cond] in
theorem markSignalled_undisturbed {call : Signal Thread Cond}
    (here : s.point thread = .woken call waiter) :
    Undisturbed s (markSignalled s thread call waiter) where
  waitset := rfl
  inHand cv other inHand := by
    refine InHand.before (.inl ?_) inHand
    split <;> rfl
  signalled other marked := by
    by_cases own : other = waiter
    · subst own
      exact .inr ⟨call.cv, thread, by simp [here, Point.hand]⟩
    · simp only [markSignalled, update_of_ne own] at marked
      exact .inl marked

/-- The other sections of the calls. -/
theorem advance_undisturbed (moved : advance s thread (s.point thread) = some t)
    (notAsleep : ∀ mutex cv, s.point thread ≠ .asleep mutex cv)
    (notScanning : ∀ call, s.point thread ≠ .scanning call) : Undisturbed s t := by
  cases here : s.point thread with
  | outside => simp [here, advance] at moved
  | enqueued mutex cv timed =>
    obtain rfl : releaseMutex s thread mutex cv timed = t := by simpa [here, advance] using moved
    exact .point rfl rfl rfl (.inl rfl)
  | released mutex cv timed =>
    obtain rfl : sleepReleasing s thread mutex cv timed = t := by simpa [here, advance] using moved
    exact .point rfl rfl rfl (.inl rfl)
  | asleep mutex cv => exact absurd here (notAsleep mutex cv)
  | rechecked mutex cv =>
    obtain rfl : releaseWaitset s thread mutex cv = t := by simpa [here, advance] using moved
    exact .point rfl rfl rfl (.inl rfl)
  | relocking mutex =>
    obtain ⟨-, rfl⟩ : s.mutex mutex = none ∧ returnSignalled s thread mutex = t := by
      simpa [here, advance] using moved
    exact .point rfl rfl rfl (.inl rfl)
  | scanning call => exact absurd here (notScanning call)
  | taken call waiter =>
    obtain rfl : wakeup s thread call waiter = t := by simpa [here, advance] using moved
    exact wakeup_undisturbed here
  | woken call waiter =>
    obtain rfl : markSignalled s thread call waiter = t := by simpa [here, advance] using moved
    exact markSignalled_undisturbed here
  | finishing call =>
    obtain rfl : unlockRing s thread call = t := by simpa [here, advance] using moved
    exact .point rfl rfl rfl (.inl rfl)

theorem act_undisturbed {action : Action Mutex Cond} (moved : act s thread action = some t)
    (notWait : ∀ mutex cv timed, action ≠ .condWait mutex cv timed) (notAdvance : action ≠ .advance) :
    Undisturbed s t := by
  cases action with
  | mutexLock mutex =>
    simp only [act, Option.ite_none_right_eq_some, Option.some.injEq] at moved
    obtain ⟨-, rfl⟩ := moved
    exact .still rfl rfl rfl
  | mutexUnlock mutex =>
    simp only [act, Option.ite_none_right_eq_some, Option.some.injEq] at moved
    obtain ⟨-, rfl⟩ := moved
    exact .still rfl rfl rfl
  | sleep newstate mutex =>
    simp only [act, Option.ite_none_right_eq_some, Option.some.injEq] at moved
    obtain ⟨-, rfl⟩ := moved
    exact .still rfl rfl rfl
  | condWait mutex cv timed => exact absurd rfl (notWait mutex cv timed)
  | condSignal cv broadcast =>
    simp only [act, Option.ite_none_right_eq_some, Option.some.injEq] at moved
    obtain ⟨-, rfl⟩ := moved
    exact .point rfl rfl rfl (.inl rfl)
  | advance => exact absurd rfl notAdvance

theorem step_undisturbed {label : Label Thread Mutex Cond} (moved : step s label = some t)
    (notRun : ∀ thread action, label ≠ .run thread action) : Undisturbed s t := by
  cases label with
  | run thread action => exact absurd rfl (notRun thread action)
  | wakeup thread =>
    simp only [step, Option.ite_none_right_eq_some, Option.some.injEq] at moved
    obtain ⟨-, rfl⟩ := moved
    exact .still rfl rfl rfl
  | dispatch thread =>
    simp only [step, Option.ite_none_right_eq_some, Option.some.injEq] at moved
    obtain ⟨-, rfl⟩ := moved
    exact .still rfl rfl rfl
  | preempt thread =>
    simp only [step, Option.ite_none_right_eq_some, Option.some.injEq] at moved
    obtain ⟨-, rfl⟩ := moved
    exact .still rfl rfl rfl
  | expire thread =>
    simp only [step, Option.ite_none_right_eq_some, Option.some.injEq] at moved
    obtain ⟨-, rfl⟩ := moved
    exact .still rfl rfl rfl

/-- The four kinds of steps. -/
inductive RingMove (r : RingState Thread Mutex Cond) : RingState Thread Mutex Cond → Prop where
  | enqueue {thread mutex cv timed} : r.state.point thread = .outside →
      r.state.waitsetLock cv = none → RingMove r (r.enqueue thread mutex cv timed)
  | leave {thread mutex cv} : r.state.point thread = .asleep mutex cv →
      r.state.waitsetLock cv = none → (r.state.waiter thread).removed = false →
      RingMove r (r.recheck thread mutex cv)
  | take {thread call waiter} : r.state.point thread = .scanning call →
      r.rings.waitset call.cv = some waiter → RingMove r (r.scan thread call)
  | undisturbed {state} : Undisturbed r.state state → RingMove r { r with state := state }

/-- The sections that do not look at a ring. -/
theorem RingState.advance_other {point : Point Thread Mutex Cond}
    (notAsleep : ∀ mutex cv, point ≠ .asleep mutex cv) (notScanning : ∀ call, point ≠ .scanning call) :
    r.advance thread point =
      (CondVar.advance r.state thread point).map fun state => { r with state := state } := by
  cases point with
  | asleep mutex cv => exact absurd rfl (notAsleep mutex cv)
  | scanning call => exact absurd rfl (notScanning call)
  | _ => rfl

theorem advance_ringMove (moved : r.advance thread (r.state.point thread) = some r') :
    RingMove r r' := by
  cases here : r.state.point thread with
  | asleep mutex cv =>
    simp only [here, RingState.advance, Option.ite_none_right_eq_some, Option.some.injEq] at moved
    obtain ⟨free, rfl⟩ := moved
    cases removed : (r.state.waiter thread).removed with
    | false => exact .leave here free removed
    | true =>
      have same : r.recheck thread mutex cv =
          { r with state := recheck r.state thread mutex cv } := by simp [RingState.recheck, removed]
      rw [same]
      exact .undisturbed (.point (by simp [recheck, removed]) rfl rfl (.inl rfl))
  | scanning call =>
    obtain rfl : r.scan thread call = r' := by simpa [here, RingState.advance] using moved
    cases head : r.rings.waitset call.cv with
    | none =>
      have same : r.scan thread call = { r with state :=
          { r.state with point := update r.state.point thread (.finishing call) } } := by
        simp [RingState.scan, head]
      rw [same]
      exact .undisturbed (.point rfl rfl rfl (.inl rfl))
    | some waiter => exact .take here head
  | _ =>
    rw [RingState.advance_other (by simp [here]) (by simp [here]), Option.map_eq_some_iff] at moved
    obtain ⟨state, advanced, rfl⟩ := moved
    exact .undisturbed (advance_undisturbed advanced (by simp [here]) (by simp [here]))

theorem act_ringMove {action : Action Mutex Cond} (moved : r.act thread action = some r') :
    RingMove r r' := by
  cases action with
  | condWait mutex cv timed =>
    simp only [RingState.act, Option.ite_none_right_eq_some, Option.some.injEq] at moved
    obtain ⟨⟨outside, free⟩, rfl⟩ := moved
    exact .enqueue outside free
  | advance => exact advance_ringMove moved
  | mutexLock | mutexUnlock | sleep | condSignal =>
    obtain ⟨state, acted, rfl⟩ := Option.map_eq_some_iff.mp moved
    exact .undisturbed (act_undisturbed acted (by simp) (by simp))

theorem step_ringMove {label : Label Thread Mutex Cond} (moved : r.step label = some r') :
    RingMove r r' := by
  cases label with
  | run thread action =>
    simp only [RingState.step, Option.ite_none_right_eq_some] at moved
    exact act_ringMove moved.2
  | wakeup | dispatch | preempt | expire =>
    obtain ⟨state, stepped, rfl⟩ := Option.map_eq_some_iff.mp moved
    exact .undisturbed (step_undisturbed stepped (by simp))

/-! ### The invariant -/

/-- The rings on the heap are the lists of waiters, and these are in the order
of arrival. -/
structure RingInv (r : RingState Thread Mutex Cond) : Prop where
  inv : Inv r.state
  holds : ∀ cv, r.rings.Holds cv (r.state.waitset cv)
  sorted : ∀ cv, (r.state.waitset cv).Pairwise fun a b => r.arrival a < r.arrival b
  early : ∀ cv, ∀ thread ∈ r.state.waitset cv, r.arrival thread < r.clock
  ahead : ∀ cv waiter, InHand r.state.point cv waiter →
    ∀ thread ∈ r.state.waitset cv, r.arrival waiter < r.arrival thread

omit [DecidableEq Thread] [DecidableEq Mutex] [DecidableEq Cond] in
/-- A waiter in hand is asleep, and the ring it was in is locked. -/
theorem Inv.inHand (inv : Inv s) {signaller : Thread}
    (hand : (s.point signaller).hand = some (cv, waiter)) :
    (∃ mutex, s.point waiter = .asleep mutex cv) ∧ s.waitsetLock cv = some signaller := by
  cases here : s.point signaller with
  | taken call taken =>
    obtain ⟨rfl, rfl⟩ : call.cv = cv ∧ taken = waiter := by simpa [here, Point.hand] using hand
    have called := inv.calls signaller call (by rw [here, Point.call])
    exact ⟨called.found taken (called.taken taken here).1, inv.locked (by rw [here, Point.locks])⟩
  | woken call woken =>
    obtain ⟨rfl, rfl⟩ : call.cv = cv ∧ woken = waiter := by simpa [here, Point.hand] using hand
    have called := inv.calls signaller call (by rw [here, Point.call])
    obtain ⟨-, others, readied⟩ := called.woken woken here
    have member : woken ∈ call.readied := by simp [readied]
    exact ⟨called.found woken (called.readied woken member).1,
      inv.locked (by rw [here, Point.locks])⟩
  | _ => simp [here, Point.hand] at hand

omit [DecidableEq Mutex] in
theorem scan_abstract {call : Signal Thread Cond} (inv : RingInv r) :
    (r.scan thread call).state = scan r.state thread call := by
  have head := (inv.holds call.cv).1
  cases list : r.state.waitset call.cv with
  | nil =>
    rw [list] at head
    simp [RingState.scan, scan, head, list]
  | cons waiter rest =>
    rw [list] at head
    simp [RingState.scan, scan, head, list]

theorem advance_abstract (inv : RingInv r)
    (moved : r.advance thread (r.state.point thread) = some r') :
    advance r.state thread (r.state.point thread) = some r'.state := by
  cases here : r.state.point thread with
  | asleep mutex cv =>
    simp only [here, RingState.advance, Option.ite_none_right_eq_some, Option.some.injEq] at moved
    obtain ⟨free, rfl⟩ := moved
    simp [advance, free, RingState.recheck]
  | scanning call =>
    obtain rfl : r.scan thread call = r' := by simpa [here, RingState.advance] using moved
    rw [advance, scan_abstract inv]
  | _ =>
    rw [here, RingState.advance_other (by simp) (by simp), Option.map_eq_some_iff] at moved
    obtain ⟨state, advanced, rfl⟩ := moved
    exact advanced

/-- The threads move as in the machine over lists. -/
theorem step_abstract {label : Label Thread Mutex Cond} (inv : RingInv r)
    (moved : r.step label = some r') : step r.state label = some r'.state := by
  cases label with
  | run thread action =>
    simp only [RingState.step, Option.ite_none_right_eq_some] at moved
    obtain ⟨running, acted⟩ := moved
    rw [step, if_pos running]
    cases action with
    | condWait mutex cv timed =>
      simp only [RingState.act, Option.ite_none_right_eq_some, Option.some.injEq] at acted
      obtain ⟨guard, rfl⟩ := acted
      rw [act, if_pos guard, RingState.enqueue]
    | advance => exact advance_abstract inv acted
    | mutexLock | mutexUnlock | sleep | condSignal =>
      obtain ⟨state, performed, rfl⟩ := Option.map_eq_some_iff.mp acted
      exact performed
  | wakeup | dispatch | preempt | expire =>
    obtain ⟨state, stepped, rfl⟩ := Option.map_eq_some_iff.mp moved
    exact stepped

omit [DecidableEq Thread] [DecidableEq Mutex] [DecidableEq Cond] in
/-- Rings of different condition variables share no waiter. -/
theorem Inv.rings_disjoint (inv : Inv s) {other : Cond} (elsewhere : other ≠ cv) :
    (s.waitset other).Disjoint (s.waitset cv) := by
  intro thread here there
  have first := ((inv.ring_member other thread).mp here).1
  have second := ((inv.ring_member cv thread).mp there).1
  exact elsewhere (Option.some.inj (first.symm.trans second))

omit [DecidableEq Thread] [DecidableEq Mutex] [DecidableEq Cond] in
theorem Inv.outside_absent (inv : Inv s) (outside : s.point thread = .outside) (cv : Cond) :
    thread ∉ s.waitset cv := by
  intro member
  have waits := ((inv.ring_member cv thread).mp member).1
  simp [outside, Point.waitsOn] at waits

omit [DecidableEq Mutex] in
theorem enqueue_ringInv (inv : RingInv r) {mutex : Mutex} {timed : Bool}
    (outside : r.state.point thread = .outside) (free : r.state.waitsetLock cv = none)
    (next : Inv (r.enqueue thread mutex cv timed).state) : RingInv (r.enqueue thread mutex cv timed) := by
  have absent := inv.inv.outside_absent outside
  have arrived : ∀ cv', ∀ node ∈ r.state.waitset cv',
      (r.enqueue thread mutex cv timed).arrival node = r.arrival node := fun cv' node member =>
    update_of_ne (ne_of_mem_of_not_mem member (absent cv')) ..
  have others : ∀ other, other ≠ cv →
      (r.enqueue thread mutex cv timed).state.waitset other = r.state.waitset other :=
    fun other elsewhere => update_of_ne elsewhere ..
  have own : (r.enqueue thread mutex cv timed).state.waitset cv = r.state.waitset cv ++ [thread] :=
    update_self ..
  have kept : ∀ cv', (r.state.waitset cv').Pairwise fun a b =>
      (r.enqueue thread mutex cv timed).arrival a < (r.enqueue thread mutex cv timed).arrival b :=
    fun cv' => (inv.sorted cv').imp_of_mem fun {a b} first second less => by
      rwa [arrived cv' a first, arrived cv' b second]
  have last : (r.enqueue thread mutex cv timed).arrival thread = r.clock := update_self ..
  refine ⟨next, fun other => ?_, fun other => ?_, fun other node member => ?_,
    fun other waiter hand node member => ?_⟩
  · by_cases same : other = cv
    · subst same
      rw [own]
      exact (inv.holds other).push (absent other)
    · rw [others other same]
      exact (inv.holds cv).push_other (absent cv) (inv.holds other) same (absent other)
        (inv.inv.rings_disjoint same)
  · by_cases same : other = cv
    · subst same
      rw [own]
      refine List.pairwise_append.mpr ⟨kept other, List.pairwise_singleton .., ?_⟩
      intro node member final isThread
      obtain rfl := List.mem_singleton.mp isThread
      rw [arrived other node member, last]
      exact inv.early other node member
    · rw [others other same]
      exact kept other
  · have before : node = thread ∨ ∃ cv', node ∈ r.state.waitset cv' := by
      by_cases same : other = cv
      · subst same
        rw [own] at member
        rcases List.mem_append.mp member with old | new
        · exact .inr ⟨other, old⟩
        · exact .inl (List.mem_singleton.mp new)
      · rw [others other same] at member
        exact .inr ⟨other, member⟩
    rcases before with rfl | ⟨cv', old⟩
    · rw [last]
      exact Nat.lt_succ_self _
    · rw [arrived cv' node old]
      exact Nat.lt_succ_of_lt (inv.early cv' node old)
  · have held : InHand r.state.point other waiter := InHand.before (.inl rfl) hand
    obtain ⟨signaller, holds⟩ := id held
    obtain ⟨⟨mutex', asleep⟩, locked⟩ := inv.inv.inHand holds
    have elsewhere : other ≠ cv := by
      rintro rfl
      rw [free] at locked
      cases locked
    have apart : waiter ≠ thread := by
      rintro rfl
      rw [outside] at asleep
      cases asleep
    rw [others other elsewhere] at member
    rw [arrived other node member, show (r.enqueue thread mutex cv timed).arrival waiter =
      r.arrival waiter from update_of_ne apart ..]
    exact inv.ahead other waiter held node member

omit [DecidableEq Mutex] in
/-- A waiter leaves the ring of `cv`, and nobody arrives. -/
theorem remove_ringInv (inv : RingInv r) (next : Inv t) (member : waiter ∈ r.state.waitset cv)
    (waitset : t.waitset = removeFromRing r.state.waitset cv waiter)
    (ahead : ∀ node ∈ (r.state.waitset cv).erase waiter, ∀ other, InHand t.point cv other →
      r.arrival other < r.arrival node)
    (held : ∀ other, other ≠ cv → ∀ waiter, InHand t.point other waiter →
      InHand r.state.point other waiter) :
    RingInv { r with state := t, rings := r.rings.removeFromRing cv waiter } := by
  have own : t.waitset cv = (r.state.waitset cv).erase waiter := by
    rw [waitset]
    exact update_self ..
  have others : ∀ other, other ≠ cv → t.waitset other = r.state.waitset other := by
    intro other elsewhere
    rw [waitset]
    exact update_of_ne elsewhere ..
  have subset : ∀ other, (t.waitset other).Sublist (r.state.waitset other) := by
    intro other
    by_cases same : other = cv
    · subst same
      exact own ▸ List.erase_sublist
    · rw [others other same]
  refine ⟨next, fun other => ?_, fun other => (inv.sorted other).sublist (subset other),
    fun other node inside => inv.early other node ((subset other).subset inside),
    fun other waiter hand node inside => ?_⟩
  · by_cases same : other = cv
    · subst same
      simp only [own]
      exact (inv.holds other).removeFromRing member
    · simp only [others other same]
      exact (inv.holds cv).removeFromRing_other member (inv.holds other) same
        (inv.inv.rings_disjoint same)
  · by_cases same : other = cv
    · subst same
      exact ahead node (by simpa only [own] using inside) waiter hand
    · simp only [others other same] at inside
      exact inv.ahead other waiter (held other same waiter hand) node inside

omit [DecidableEq Mutex] in
theorem ringMove_inv (inv : RingInv r) (move : RingMove r r') (next : Inv r'.state) :
    RingInv r' := by
  cases move with
  | enqueue outside free => exact enqueue_ringInv inv outside free next
  | @leave thread mutex cv asleep free removed =>
    have member : thread ∈ r.state.waitset cv :=
      (inv.inv.ring_member cv thread).mpr ⟨by simp [asleep, Point.waitsOn], removed⟩
    have same : r.recheck thread mutex cv =
        { r with
          state := (r.recheck thread mutex cv).state
          rings := r.rings.removeFromRing cv thread } := by simp [RingState.recheck, removed]
    have before : ∀ other waiter, InHand (r.recheck thread mutex cv).state.point other waiter →
        InHand r.state.point other waiter := fun _ _ => InHand.before (.inl rfl)
    rw [same]
    refine remove_ringInv inv next member ?_ (fun node _ other hand => ?_) fun other _ => before other
    · simp [RingState.recheck, recheck, removed]
    · obtain ⟨signaller, held⟩ := before cv other hand
      have locked := (inv.inv.inHand held).2
      rw [free] at locked
      cases locked
  | @take thread call waiter here head =>
    have first := inv.holds call.cv
    obtain ⟨rest, list⟩ : ∃ rest, r.state.waitset call.cv = waiter :: rest := by
      have same := first.1.symm.trans head
      cases whole : r.state.waitset call.cv with
      | nil => simp [whole] at same
      | cons node rest =>
        obtain rfl : node = waiter := by simpa [whole] using same
        exact ⟨rest, rfl⟩
    have sorted := inv.sorted call.cv
    have same : r.scan thread call =
        { r with
          state := takeWaiter r.state thread call waiter
          rings := r.rings.removeFromRing call.cv waiter } := by simp [RingState.scan, head]
    rw [same] at next ⊢
    refine remove_ringInv inv next (by simp [list]) rfl (fun node inside other hand => ?_) ?_
    · obtain ⟨signaller, held⟩ := hand
      by_cases own : signaller = thread
      · subst own
        obtain rfl : waiter = other := by simpa [takeWaiter, Point.hand] using held
        rw [list, List.erase_cons_head] at inside
        rw [list] at sorted
        exact (List.pairwise_cons.mp sorted).1 node inside
      · simp only [takeWaiter, update_of_ne own] at held
        have locked := (inv.inv.inHand held).2
        rw [inv.inv.locked (by rw [here, Point.locks])] at locked
        exact absurd (Option.some.inj locked).symm own
    · rintro other elsewhere node ⟨signaller, held⟩
      by_cases own : signaller = thread
      · subst own
        simp [takeWaiter, Point.hand, Ne.symm elsewhere] at held
      · exact ⟨signaller, by simpa only [takeWaiter, update_of_ne own] using held⟩
  | @undisturbed state still =>
    refine ⟨next, fun cv => ?_, fun cv => ?_, fun cv => ?_, fun cv waiter hand => ?_⟩
    · simpa only [still.waitset] using inv.holds cv
    · simpa only [still.waitset] using inv.sorted cv
    · simpa only [still.waitset] using inv.early cv
    · simpa only [still.waitset] using inv.ahead cv waiter (still.inHand cv waiter hand)

theorem reachable_ringInv (reached : (ringMachine Thread Mutex Cond).Reachable r) : RingInv r := by
  have booted : ∀ r, (ringMachine Thread Mutex Cond).initial r → RingInv r := by
    rintro r ⟨threadState, stack, heap, rfl⟩
    refine ⟨boot_inv threadState stack, fun cv => ⟨rfl, ?_, ?_⟩, ?_, ?_, ?_⟩ <;>
      simp [bootRings, boot]
  have kept : ∀ r label r', RingInv r → (ringMachine Thread Mutex Cond).step r label = some r' →
      RingInv r' := fun r label r' inv moved =>
    ringMove_inv inv (step_ringMove moved) (step_inv inv.inv label (step_abstract inv moved))
  exact reached.induction booted kept

/-! ### The ring of waiters -/

/-- In `cv_wait`, before its own tidying-up, and not removed by a signaller. -/
def Unremoved (s : State Thread Mutex Cond) (cv : Cond) (thread : Thread) : Prop :=
  (s.point thread).waitsOn = some cv ∧ (s.waiter thread).removed = false

/-- What the ring of a condition variable says of its waiters. -/
structure WaiterRing (r : RingState Thread Mutex Cond) (cv : Cond) (waiters : List Thread) :
    Prop where
  members : ∀ thread, thread ∈ waiters ↔ Unremoved r.state cv thread
  /-- They are listed in the order of arrival, and each once. -/
  ordered : waiters.Pairwise fun a b => r.arrival a < r.arrival b
  null : r.rings.waitset cv = none ↔ ∀ thread, ¬ Unremoved r.state cv thread
  first : ∀ thread, r.rings.waitset cv = some thread → Unremoved r.state cv thread ∧
    ∀ other, Unremoved r.state cv other → other ≠ thread → r.arrival thread < r.arrival other
  /-- Following `node.next` from `cv->waitset` lists them. -/
  listed : ∀ first rest, waiters = first :: rest →
    r.rings.waitset cv = some first ∧ r.rings.heap.Ring first rest
  removal : ∀ waiter ∈ waiters, (r.rings.removeFromRing cv waiter).Holds cv (waiters.erase waiter)

omit [DecidableEq Mutex] in
theorem RingInv.waiterRing (inv : RingInv r) (cv : Cond) :
    WaiterRing r cv (r.state.waitset cv) := by
  have members := inv.inv.ring_member cv
  have holds := inv.holds cv
  have head := holds.1
  refine ⟨members, inv.sorted cv, ?_, fun thread points => ?_, fun first rest whole => ?_,
    fun waiter member => holds.removeFromRing member⟩
  · rw [head, List.head?_eq_none_iff, List.eq_nil_iff_forall_not_mem]
    exact forall_congr' fun thread => not_congr (members thread)
  · rw [head] at points
    obtain ⟨rest, whole⟩ := List.head?_eq_some_iff.mp points
    have sorted := inv.sorted cv
    rw [whole] at sorted
    refine ⟨(members thread).mp (by simp [whole]), fun other unremoved apart => ?_⟩
    have member := (members other).mpr unremoved
    rw [whole] at member
    exact (List.pairwise_cons.mp sorted).1 other ((List.mem_cons.mp member).resolve_left apart)
  · exact ⟨by rw [head, whole, List.head?_cons], holds.2.1 first rest whole⟩

omit [DecidableEq Mutex] in
/-- A step that marks a waiter as signalled marks the one that came first. -/
theorem RingInv.marks_first (inv : RingInv r) (move : RingMove r r') {other : Thread}
    (waits : (r.state.point waiter).waitsOn = some cv)
    (unmarked : (r.state.waiter waiter).signalled = false)
    (marked : (r'.state.waiter waiter).signalled = true) (unremoved : Unremoved r.state cv other) :
    r.arrival waiter < r.arrival other := by
  have unchanged (same : (r'.state.waiter waiter).signalled = (r.state.waiter waiter).signalled) :
      r.arrival waiter < r.arrival other := by
    rw [same, unmarked] at marked
    cases marked
  cases move with
  | @enqueue thread mutex cv' timed outside free =>
    have apart : waiter ≠ thread := by
      rintro rfl
      simp [outside, Point.waitsOn] at waits
    exact unchanged (by simp [RingState.enqueue, enqueue, apart])
  | leave asleep free removed => exact unchanged rfl
  | @take thread call taken here head =>
    apply unchanged
    simp only [RingState.scan, head, takeWaiter, update_apply]
    split
    · next same => rw [same]
    · rfl
  | @undisturbed state still =>
    rcases still.signalled waiter marked with already | ⟨cv', signaller, hand⟩
    · rw [unmarked] at already
      cases already
    · obtain ⟨mutex, asleep⟩ := (inv.inv.inHand hand).1
      obtain rfl : cv' = cv := by simpa [asleep, Point.waitsOn] using waits
      exact inv.ahead cv' waiter ⟨signaller, hand⟩ other ((inv.inv.ring_member cv' other).mpr unremoved)

/-- **The ring lists the waiters in the order of arrival.** Whenever
`waitset_lock` is free, `cv->waitset` and the `next` pointers list exactly the
waiters that neither a signaller nor they themselves have removed; removing any
of them leaves the others; and a waiter is signalled before all who came later. -/
theorem waiter_ring (reached : (ringMachine Thread Mutex Cond).Reachable r) :
    (∀ cv, r.state.waitsetLock cv = none → ∃ waiters, WaiterRing r cv waiters) ∧
    ∀ label r', r.step label = some r' → ∀ cv waiter, (r.state.point waiter).waitsOn = some cv →
      (r.state.waiter waiter).signalled = false → (r'.state.waiter waiter).signalled = true →
      ∀ other, Unremoved r.state cv other → r.arrival waiter < r.arrival other := by
  have inv := reachable_ringInv reached
  refine ⟨fun cv _ => ⟨_, inv.waiterRing cv⟩, ?_⟩
  intro label r' moved cv waiter waits unmarked marked other unremoved
  exact inv.marks_first (step_ringMove moved) waits unmarked marked unremoved

end Steps

/-- A thread waits with a timeout, which expires; it removes itself and is
about to lock the mutex again. -/
def timedOut (thread : Fin 2) : List (Label (Fin 2) Unit Unit) :=
  [.run thread (.mutexLock ()), .run thread (.condWait () () true), .run thread .advance,
    .run thread .advance, .expire thread, .dispatch thread, .run thread .advance,
    .run thread .advance]

def twoStacks : RingState (Fin 2) Unit Unit :=
  bootRings (fun _ => .running) (fun _ => ⟨false, false⟩) ⟨⟨id, id⟩, id⟩

theorem waiter_ring_timedOut : ∃ r, (timedOut 0).foldlM RingState.step twoStacks = some r ∧
    ∃ waiters, WaiterRing r () waiters := by
  have booted : (ringMachine (Fin 2) Unit Unit).Reachable twoStacks := .start ⟨_, _, _, rfl⟩
  exact ⟨_, rfl, (waiter_ring (booted.replay (timedOut 0) rfl)).1 () rfl⟩

/-- The thread is in `cv_wait`. -/
def Point.inCvWait : Point Thread Mutex Cond → Bool
  | .enqueued _ _ _ | .released _ _ _ | .asleep _ _ | .rechecked _ _ | .relocking _ => true
  | _ => false

/-- A waiter that removes itself leaves its `removed` flag unset. -/
theorem removed_unset_after_timeout : ∃ r, (ringMachine (Fin 2) Unit Unit).Reachable r ∧
    r.state.waitsetLock () = none ∧
    ¬ (r.rings.waitset () = none ↔ ∀ thread, ¬ ((r.state.point thread).inCvWait = true ∧
      (r.state.waiter thread).removed = false)) := by
  have booted : (ringMachine (Fin 2) Unit Unit).Reachable twoStacks := .start ⟨_, _, _, rfl⟩
  refine ⟨_, booted.replay (timedOut 0) rfl, rfl, fun same => ?_⟩
  exact same.mp rfl 0 ⟨rfl, rfl⟩

end TinyOs.CondVar
