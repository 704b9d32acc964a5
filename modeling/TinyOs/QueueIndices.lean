import TinyOs.IntrusiveList
import TinyOs.SchedulerSafety

/-! The indices of the array `SCHED`: those of the loop that initialises it, the
priorities of the threads that are added to a queue, and those of the scan. -/
namespace TinyOs.Scheduler
open Library Function IntrusiveList
variable {Core : Type*} [DecidableEq Core] {s t : State Core}

/-- One access to `SCHED`, by the function that makes it. -/
inductive Access where
  | initializeScheduler (index : Int)
  | schedQueueAdd (index : Int)
  | schedQueueSelect (index : Int)
  deriving DecidableEq

def Access.index : Access → Int
  | initializeScheduler index => index
  | schedQueueAdd index => index
  | schedQueueSelect index => index

/-- `SCHED` has an entry of this index. -/
def InSched (index : Int) : Prop := 0 ≤ index ∧ index < schedMaxLevel

instance (index : Int) : Decidable (InSched index) := inferInstanceAs (Decidable (_ ∧ _))

/-! ### Initialisation -/

/-- Where the list nodes of the scheduler are. `sched` is the address `&SCHED[i]`,
for an index outside the array that of whatever is there. -/
structure Layout (Node : Type*) where
  sched : Int → Node
  timeoutList : Node

section Initialisation
variable {Node Thread : Type*} [DecidableEq Node]

/-- The loop of `initialize_scheduler`, with the accesses so far, the latest first. -/
def initializeLoop (layout : Layout Node) :
    Nat → Int → Heap Node (Option Thread) → List Access →
      Option (Heap Node (Option Thread) × List Access)
  | 0, _, _, _ => none
  | fuel + 1, i, h, past =>
    if i ≤ schedMaxLevel then
      initializeLoop layout fuel (i + 1) (rlnodeInit h (layout.sched i) none)
        (.initializeScheduler i :: past)
    else some (h, past)

def initializeScheduler (fuel : Nat) (layout : Layout Node) (h : Heap Node (Option Thread)) :
    Option (Heap Node (Option Thread) × List Access) :=
  (initializeLoop layout fuel 0 h []).map fun (h, past) =>
    (rlnodeInit h layout.timeoutList none, past)

/-- The accesses of its loop, whose test is `i<=SCHED_MAX_LEVEL`, the latest first. -/
def initialAccesses : List Access :=
  [.initializeScheduler 3, .initializeScheduler 2, .initializeScheduler 1, .initializeScheduler 0]

/-- An empty ring, as `rlnode_init(p, NULL)` leaves it. -/
def EmptyRing (h : Heap Node (Option Thread)) (p : Node) : Prop :=
  h.Linked p [] ∧ h.key p = none

end Initialisation

/-! ### The sections of the scheduler -/

def queueAddAccesses (s : State Core) (thread : TcbRef Core) : List Access :=
  [.schedQueueAdd (s.tcb thread).priority]

/-- `sched_make_ready` changes neither the phase nor the priority. -/
def makeReadyAccesses (s : State Core) (thread : TcbRef Core) : List Access :=
  if (s.tcb thread).phase = .ctxClean then queueAddAccesses s thread else []

def wakeupExpiredAccesses (now : TimerDuration) : Nat → State Core → List Access
  | 0, _ => []
  | fuel + 1, s =>
    match s.timeoutList with
    | [] => []
    | thread :: _ =>
      if now < (s.tcb thread).wakeupTime then []
      else makeReadyAccesses s thread ++ wakeupExpiredAccesses now fuel (schedMakeReady s thread)

/-- The scan goes on while the queues are empty. The pop is at the index of the test. -/
def scanAccesses : List Int → State Core → List Access
  | [], _ => []
  | i :: rest, s =>
    let index := if s.scheduled ≤ schedMaxScheduled then i else i % 4
    .schedQueueSelect index :: if s.sched index = [] then scanAccesses rest s else []

/-- Before its scan, `sched_queue_select` takes the address of `SCHED[0]`. -/
def queueSelectAccesses (s : State Core) : List Access :=
  .schedQueueSelect 0 :: scanAccesses [0, 1, 2] s

def yieldAccesses (s : State Core) (core : Core) (cause : SchedCause) (remaining : TimerDuration) :
    List Access :=
  let s := endTimeSlice s core cause remaining
  wakeupExpiredAccesses (biosClock s) s.timeoutList.length s ++
    queueSelectAccesses (schedWakeupExpiredTimeouts s)

def gainAccesses (s : State Core) (core : Core) : List Access :=
  let prev := s.previous core
  if s.current core ≠ prev ∧ (s.tcb prev).state = .ready ∧ (s.tcb prev).type ≠ .idleThread then
    queueAddAccesses s prev
  else []

/-- The accesses of one step, in their order. -/
def stepAccesses (s : State Core) : Label Core → List Access
  | .wakeup _ thread =>
    if (s.tcb thread).state = .stopped ∨ (s.tcb thread).state = .init then
      makeReadyAccesses s thread
    else []
  | .yield core cause remaining => yieldAccesses s core cause remaining
  | .gain core => gainAccesses s core
  | .spawnThread _ _ | .sleepReleasing _ _ _ _ | .swapContext _ | .tick _ => []

/-- The accesses of a run, the latest first. -/
def accesses : List (State Core × Label Core) → List Access
  | [] => initialAccesses
  | (s, label) :: past => (stepAccesses s label).reverse ++ accesses past

/-- What is promised of the indices, some accesses excepted: they are inside
`SCHED`, and so are the priorities of all threads; its queues are initialised as
empty rings, and before the first thread is added to one. -/
structure QueueIndices {Node : Type*} (layout : Layout Node)
    (h : Heap Node (Option (TcbRef Core))) (excepted : List Access)
    (past : List (State Core × Label Core)) (s : State Core) : Prop where
  inside : ∀ access ∈ accesses past, access ∉ excepted → InSched access.index
  priorities : ∀ thread, s.holds thread → InSched (s.tcb thread).priority
  empty : ∀ level, InSched level → EmptyRing h (layout.sched level)
  before : ∀ newer older index, accesses past = newer ++ .schedQueueAdd index :: older →
    ∀ level, InSched level → .initializeScheduler level ∈ older

/-! ### The initialisation -/

section
variable {Node Thread : Type*} [DecidableEq Node] {layout : Layout Node} {p q : Node}
  {h : Heap Node (Option Thread)}

theorem emptyRing_init : EmptyRing (rlnodeInit h p none) p := by
  refine ⟨⟨rlnodeInit_single, fun node member => ?_⟩, update_self ..⟩
  obtain rfl := List.mem_singleton.mp member
  exact rlnodeInit_matched

/-- An initialised node stays one, also when it is initialised again. -/
theorem EmptyRing.init (empty : EmptyRing h q) (p : Node) : EmptyRing (rlnodeInit h p none) q := by
  by_cases same : q = p
  · exact same ▸ emptyRing_init
  · obtain ⟨⟨ring, matched⟩, key⟩ := empty
    have apart : p ∉ [q] := by simpa using Ne.symm same
    refine ⟨⟨rlnodeInit_other ring apart, fun node member => ?_⟩, (update_of_ne same ..).trans key⟩
    obtain rfl := List.mem_singleton.mp member
    have next : h.next node = node := Links.Ring.nil_iff.mp ring
    have prev : h.prev node = node := ring.prev_self (matched node member)
    simp [rlnodeInit, rlnodeNew, update_of_ne same, next, prev]

/-- **The loop of `initialize_scheduler`** with some rounds left: it uses the
indices from `i` on up to `SCHED_MAX_LEVEL`, and leaves an empty ring at each. -/
theorem initializeLoop_eq {rounds : Nat} {i : Int} (left : i + rounds = schedMaxLevel + 1)
    (h : Heap Node (Option Thread)) (past : List Access) :
    ∃ h', (∀ fuel > rounds, initializeLoop layout fuel i h past = some (h',
        ((List.range rounds).map fun k : Nat => Access.initializeScheduler (i + k)).reverse ++
          past)) ∧
      (∀ q, EmptyRing h q → EmptyRing h' q) ∧
      ∀ level, i ≤ level → level ≤ schedMaxLevel → EmptyRing h' (layout.sched level) := by
  induction rounds generalizing i h past with
  | zero =>
    have done : ¬ i ≤ schedMaxLevel := by omega
    refine ⟨h, fun fuel enough => ?_, fun q empty => empty, fun level low high => ?_⟩
    · obtain ⟨fuel, rfl⟩ := Nat.exists_eq_add_of_lt enough
      simp [initializeLoop, done]
    · exact absurd (low.trans high) done
  | succ rounds ih =>
    have going : i ≤ schedMaxLevel := by omega
    have left : (i + 1) + (rounds : Int) = schedMaxLevel + 1 := by omega
    obtain ⟨h', ran, kept, empty⟩ := ih left (rlnodeInit h (layout.sched i) none)
      (.initializeScheduler i :: past)
    refine ⟨h', fun fuel enough => ?_, fun q before => kept q (before.init _), ?_⟩
    · cases fuel with
      | zero => exact absurd enough (Nat.not_lt_zero _)
      | succ fuel =>
        have shifted : ∀ k : Nat, i + 1 + (k : Int) = i + ((k + 1 : Nat) : Int) := by omega
        rw [initializeLoop, if_pos going, ran fuel (Nat.lt_of_succ_lt_succ enough),
          List.range_succ_eq_map]
        simp [Function.comp_def, shifted]
    · intro level low high
      rcases low.eq_or_lt with rfl | later
      · exact kept _ emptyRing_init
      · exact empty level later high

theorem initializeScheduler_eq (layout : Layout Node) (h : Heap Node (Option Thread)) :
    ∃ h', (∀ fuel > 4, initializeScheduler fuel layout h = some (h', initialAccesses)) ∧
      ∀ level, InSched level → EmptyRing h' (layout.sched level) := by
  obtain ⟨h', ran, -, empty⟩ := initializeLoop_eq (by rfl : (0 : Int) + (4 : Nat) = _) h []
  refine ⟨rlnodeInit h' layout.timeoutList none, fun fuel enough => ?_, fun level inside => ?_⟩
  · rw [initializeScheduler, ran fuel enough]
    rfl
  · exact (empty level inside.1 inside.2.le).init _

end

/-! ### The accesses of a step -/

omit [DecidableEq Core] in
theorem queueAdd_accesses (inv : Inv s) {thread : TcbRef Core} (held : s.holds thread) :
    ∀ access ∈ queueAddAccesses s thread, InSched access.index := by
  rw [queueAddAccesses, List.forall_mem_singleton]
  exact inv.range thread held

omit [DecidableEq Core] in
theorem makeReady_accesses (inv : Inv s) {thread : TcbRef Core} (held : s.holds thread) :
    ∀ access ∈ makeReadyAccesses s thread, InSched access.index := by
  unfold makeReadyAccesses
  split
  · exact queueAdd_accesses inv held
  · simp

theorem wakeupExpired_accesses (now : TimerDuration) (fuel : Nat) (inv : Inv s) :
    ∀ access ∈ wakeupExpiredAccesses now fuel s, InSched access.index := by
  induction fuel generalizing s with
  | zero => simp [wakeupExpiredAccesses]
  | succ fuel ih =>
    unfold wakeupExpiredAccesses
    cases list : s.timeoutList with
    | nil => simp
    | cons thread rest =>
      obtain ⟨held, stopped⟩ := inv.timed_stopped thread (by simp [list])
      simp only
      split
      · simp
      · rw [List.forall_mem_append]
        exact ⟨makeReady_accesses inv held, ih (makeReady_inv inv held (.inl stopped))⟩

omit [DecidableEq Core] in
/-- Past `SCHED_MAX_SCHEDULED` decisions, too, the scan stays inside the array. -/
theorem scan_accesses (s : State Core) {scan : List Int}
    (inside : ∀ i ∈ scan, InSched i ∧ InSched (i % 4)) :
    ∀ access ∈ scanAccesses scan s, InSched access.index := by
  induction scan with
  | nil => simp [scanAccesses]
  | cons i rest ih =>
    obtain ⟨here, later⟩ := List.forall_mem_cons.mp inside
    unfold scanAccesses
    rw [List.forall_mem_cons]
    have index : InSched (if s.scheduled ≤ schedMaxScheduled then i else i % 4) := by
      split
      · exact here.1
      · exact here.2
    refine ⟨index, fun access member => ?_⟩
    obtain ⟨-, later_on⟩ : _ ∧ access ∈ scanAccesses rest s := by simpa using member
    exact ih later access later_on

theorem step_accesses {label : Label Core} (inv : Inv s) (moved : step s label = some t) :
    ∀ access ∈ stepAccesses s label, InSched access.index := by
  cases stepped_of_step moved with
  | wakeup _ held =>
    simp only [stepAccesses]
    split
    · exact makeReady_accesses inv held
    · simp
  | @yield core cause remaining point =>
    have ended := endTimeSlice_inv inv point remaining
    simp only [stepAccesses, yieldAccesses, queueSelectAccesses, List.forall_mem_append,
      List.forall_mem_cons]
    exact ⟨wakeupExpired_accesses _ _ ended, by decide, scan_accesses _ (by decide)⟩
  | @gain core point =>
    have leaves : Occupies s core (s.previous core) := .inr (.inr ⟨by simp [chosen, point], rfl⟩)
    have held := inv.occupied_holds core _ leaves
    simp only [stepAccesses, gainAccesses]
    split
    · exact queueAdd_accesses inv held
    · simp
  | spawnThread | sleepReleasing | swapContext | tick => simp [stepAccesses]

/-! ### Queues without an access -/

section Untouched
variable {level : Int}

theorem makeReady_untouched (inv : Inv s) {thread : TcbRef Core} (held : s.holds thread)
    (waiting : (s.tcb thread).state = .stopped ∨ (s.tcb thread).state = .init)
    (untouched : ∀ access ∈ makeReadyAccesses s thread, access.index ≠ level) :
    (schedMakeReady s thread).sched level = s.sched level := by
  rw [makeReady_eq inv held waiting]
  unfold makeReadyAccesses at untouched
  unfold readied
  split
  next clean =>
    rw [if_pos clean] at untouched
    exact update_of_ne (untouched _ (List.mem_singleton_self _)).symm ..
  next => rfl

theorem wakeupExpired_untouched (now : TimerDuration) (fuel : Nat) (inv : Inv s)
    (untouched : ∀ access ∈ wakeupExpiredAccesses now fuel s, access.index ≠ level) :
    (wakeupExpired now fuel s).sched level = s.sched level := by
  induction fuel generalizing s with
  | zero => rfl
  | succ fuel ih =>
    unfold wakeupExpired
    unfold wakeupExpiredAccesses at untouched
    cases list : s.timeoutList with
    | nil => rfl
    | cons thread rest =>
      obtain ⟨held, stopped⟩ := inv.timed_stopped thread (by simp [list])
      simp only [list] at untouched ⊢
      split
      next => rfl
      next expired =>
        rw [if_neg expired, List.forall_mem_append] at untouched
        obtain ⟨first, later⟩ := untouched
        exact (ih (makeReady_inv inv held (.inl stopped)) later).trans
          (makeReady_untouched inv held (.inl stopped) first)

omit [DecidableEq Core] in
theorem scan_untouched (scan : List Int) (s : State Core)
    (untouched : ∀ access ∈ scanAccesses scan s, access.index ≠ level) :
    (schedScan scan s).2.sched level = s.sched level := by
  induction scan with
  | nil => rfl
  | cons i rest ih =>
    unfold scanAccesses at untouched
    unfold schedScan
    obtain ⟨first, later⟩ := List.forall_mem_cons.mp untouched
    split
    next few =>
      simp only [if_pos few] at first later
      cases queue : s.sched i with
      | nil => exact ih (by simpa [queue] using later)
      | cons thread rest => exact update_of_ne (Ne.symm first) ..
    next many =>
      simp only [if_neg many] at first later
      cases queue : s.sched (i % 4) with
      | nil => exact ih (by simpa [queue] using later)
      | cons thread rest => exact update_of_ne (Ne.symm first) ..

theorem gain_untouched (inv : Inv s) {core : Core} (point : s.point core = .switched)
    (untouched : ∀ access ∈ gainAccesses s core, access.index ≠ level) :
    (gain s core).sched level = s.sched level := by
  have leaves : Occupies s core (s.previous core) := .inr (.inr ⟨by simp [chosen, point], rfl⟩)
  have held := inv.occupied_holds core _ leaves
  obtain ⟨-, shape⟩ | ⟨away, ⟨-, -, shape⟩ | ⟨ready, ⟨a, heap⟩, shape⟩ | ⟨-, shape⟩ |
    ⟨-, a, -, shape⟩⟩ := gain_cases inv point
  case inr.inr.inl =>
    have normal : (s.tcb (s.previous core)).type ≠ .idleThread := fun idle => by
      obtain ⟨c, same⟩ := (inv.typed _ held).mp idle
      cases heap.symm.trans same
    unfold gainAccesses at untouched
    rw [if_pos ⟨away, ready, normal⟩] at untouched
    rw [shape]
    exact update_of_ne (untouched _ (List.mem_singleton_self _)).symm ..
  all_goals rw [shape]; rfl

/-- A step leaves the queues alone that it does not access. -/
theorem step_untouched {label : Label Core} (inv : Inv s) (moved : step s label = some t)
    (untouched : ∀ access ∈ stepAccesses s label, access.index ≠ level) :
    t.sched level = s.sched level := by
  cases stepped_of_step moved with
  | @wakeup core thread _ held =>
    simp only [stepAccesses] at untouched
    unfold wakeup
    split
    next waiting =>
      rw [if_pos waiting] at untouched
      exact makeReady_untouched inv held waiting untouched
    next => rfl
  | @yield core cause remaining point =>
    have ended := endTimeSlice_inv inv point remaining
    simp only [stepAccesses, yieldAccesses, queueSelectAccesses, List.forall_mem_append,
      List.forall_mem_cons] at untouched
    obtain ⟨woken, -, scanned⟩ := untouched
    exact (scan_untouched _ _ scanned).trans (wakeupExpired_untouched _ _ ended woken)
  | @gain core point =>
    exact gain_untouched inv point untouched
  | @spawnThread core address _ _ =>
    rfl
  | @sleepReleasing core _ newstate cause timeout _ _ _ =>
    simp [sleepReleasing, State.check, State.setTcb, State.setPoint, schedRegisterTimeout,
      apply_ite State.sched]
  | @swapContext core next _ =>
    rfl
  | @tick clock =>
    rfl

end Untouched

/-! ### The accesses of a run -/

theorem run_accesses {past : List (State Core × Label Core)} (run : (machine Core).Run past s) :
    ∀ access ∈ accesses past, access ∉ [.initializeScheduler schedMaxLevel] →
      InSched access.index := by
  induction run with
  | start booted =>
    show ∀ access ∈ initialAccesses, access ∉ [.initializeScheduler schedMaxLevel] → InSched access.index
    decide
  | @step past s t label run moved ih =>
    have inv := reachable_inv ⟨past, run⟩
    intro access member allowed
    rcases List.mem_append.mp member with now | earlier
    · exact step_accesses inv moved access (List.mem_reverse.mp now)
    · exact ih access earlier allowed

/-- The initialisation comes first. -/
theorem accesses_initial (past : List (State Core × Label Core)) : initialAccesses <:+ accesses past := by
  induction past with
  | nil => exact List.suffix_rfl
  | cons d past ih => exact ih.trans (List.suffix_append ..)

theorem initialised_before {past : List (State Core × Label Core)} {newer older : List Access}
    {index level : Int} (split : accesses past = newer ++ .schedQueueAdd index :: older)
    (inside : InSched level) : .initializeScheduler level ∈ older := by
  have other : .schedQueueAdd index ∉ initialAccesses := by simp [initialAccesses]
  have added : .schedQueueAdd index :: older <:+ accesses past := split ▸ List.suffix_append ..
  have first : initialAccesses <:+ older := by
    rcases List.suffix_or_suffix_of_suffix (accesses_initial past) added with earlier | later
    · rcases List.suffix_cons_iff.mp earlier with same | earlier
      · exact absurd (same ▸ List.mem_cons_self) other
      · exact earlier
    · exact absurd (later.mem List.mem_cons_self) other
  obtain ⟨low, high⟩ := inside
  have levels : level = 0 ∨ level = 1 ∨ level = 2 := by
    unfold schedMaxLevel at high
    omega
  apply first.mem
  rcases levels with rfl | rfl | rfl <;> decide

/-- **The indices of the queues, but for one.** Every run accesses `SCHED` outside
the array: the loop of `initialize_scheduler` does, with the index
`SCHED_MAX_LEVEL`. All other accesses and all priorities are inside, and the
queues are initialised before a thread is added. -/
theorem queue_indices_but_one {Node : Type*} [DecidableEq Node] (layout : Layout Node)
    (h : Heap Node (Option (TcbRef Core))) :
    ∃ h', (∀ fuel > 4, initializeScheduler fuel layout h = some (h', initialAccesses)) ∧
      ∀ past (s : State Core), (machine Core).Run past s →
        ¬ QueueIndices layout h' [] past s ∧
          QueueIndices layout h' [.initializeScheduler schedMaxLevel] past s := by
  obtain ⟨h', ran, empty⟩ := initializeScheduler_eq layout h
  refine ⟨h', ran, fun past s run => ⟨fun promised => ?_, ?_⟩⟩
  · have overrun : .initializeScheduler 3 ∈ accesses past :=
      (accesses_initial past).mem (by decide)
    exact absurd (promised.inside _ overrun (by simp)) (by decide)
  · constructor
    case inside => exact run_accesses run
    case priorities => exact (reachable_inv ⟨past, run⟩).range
    case empty => exact empty
    case before => exact fun newer older index split level inside => initialised_before split inside

/-- One core boots, and `SCHED` has been written outside the array. -/
theorem queue_indices_overrun :
    let layout : Layout (Option Int) := ⟨some, none⟩
    ∃ h' s, initializeScheduler 5 layout ⟨⟨id, id⟩, fun _ => none⟩ = some (h', initialAccesses) ∧
      (machine Unit).Run [] s ∧ ¬ QueueIndices layout h' [] [] s := by
  obtain ⟨h', ran, -⟩ := initializeScheduler_eq (⟨some, none⟩ : Layout (Option Int))
    ⟨⟨id, id⟩, fun _ => none⟩
  refine ⟨h', boot (fun _ => idleTcb) 0, ran 5 (by decide), .start ⟨_, _, rfl⟩, ?_⟩
  intro promised
  have inside := promised.inside (.initializeScheduler 3) List.mem_cons_self List.not_mem_nil
  exact absurd inside (by decide)

end TinyOs.Scheduler
