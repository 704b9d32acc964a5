import TinyOs.Joinability

/-! The life of a PTCB between `xmalloc` and `free`: who uses it, who frees it,
and whether anybody does in the end. -/
namespace TinyOs.Kernel
open Function Library

/-- A PTCB as an object of the heap: where it is, and the number of its
creation. -/
structure Ptcb where
  address : PtcbRef
  serial : Nat
  deriving DecidableEq, Repr

/-- What the kernel does with a PTCB. -/
inductive Access where
  /-- A field or the node in it is read or written. -/
  | use (ptcb : Ptcb)
  /-- `free(ptcb)`, with what `ptcb->exited` is then. -/
  | free (ptcb : Ptcb) (exited : Bool)
  deriving DecidableEq, Repr

/-- Only PTCBs that have not been freed are used or freed, and freed only those
whose threads have exited. -/
def legal : (Ptcb → Bool) → List Access → Bool
  | _, [] => true
  | present, .use ptcb :: rest => present ptcb && legal present rest
  | present, .free ptcb exited :: rest =>
    present ptcb && exited && legal (update present ptcb false) rest

/-- The nodes next to that of a PTCB in the ring of a list, but for the one of
the list itself. -/
def neighbours (threadList : List PtcbRef) (ptcb : PtcbRef) : List PtcbRef :=
  (threadList.zip threadList.tail).filterMap fun (first, second) =>
    if first = ptcb then some second else if second = ptcb then some first else none

namespace State

def object (s : State) (ptcb : PtcbRef) : Ptcb := ⟨ptcb, s.heap.serial ptcb⟩

/-- The object has not been freed. -/
def present (s : State) (ptcb : Ptcb) : Bool :=
  s.heap.allocated ptcb.address && decide (s.heap.serial ptcb.address = ptcb.serial)

def useAll (s : State) (ptcbs : List PtcbRef) : List Access :=
  ptcbs.map fun ptcb => .use (s.object ptcb)

/-- `rlist_push_back` writes to the node that was last. -/
def pushAccesses (s : State) (curproc : Pid) : List Access :=
  s.useAll (s.pt.threadList curproc).getLast?.toList

/-- `rlist_remove(&ptcb->thread_list_node); free(ptcb)`. -/
def freeAccesses (s : State) (curproc : Pid) (ptcb : Ptcb) : List Access :=
  .use ptcb :: s.useAll (neighbours (s.pt.threadList curproc) ptcb.address) ++
    [.free ptcb (s.heap.exited ptcb.address)]

/-- `sys_ThreadJoin` up to its loop. The search reads the nodes up to the one it
looks for. -/
def joinAccesses (s : State) (thread : TcbRef) (tid : PtcbRef) : List Access :=
  let threadList := s.pt.threadList (s.curproc thread)
  .use (s.object tid) ::
    if s.heap.detached tid = true ∨ s.heap.tcb tid = thread then []
    else
      s.useAll (threadList.takeWhile fun ptcb => ptcb ≠ tid) ++
        if tid ∈ threadList then [.use (s.object tid)] else []

/-- A joiner back in the loop of `sys_ThreadJoin`, and past it. -/
def loopAccesses (s : State) (thread : TcbRef) (target : Ptcb) : List Access :=
  let curproc := s.curproc thread
  let ptcb := target.address
  .use target ::
    if s.heap.exited ptcb = false ∧ s.heap.detached ptcb = false then []
    else
      let s := s.unrefPtcb ptcb
      .use target ::
        (if s.heap.refCount ptcb = 0 then s.useAll (s.pt.threadList curproc) else []) ++
        if (s.heap.refCount ptcb = 0 ∧
            rlistFind (s.pt.threadList curproc) (.threadListNode ptcb) = some ptcb ∧
            s.heap.detached ptcb = false) ∨ s.heap.detached ptcb = true then
          s.freeAccesses curproc target
        else []

/-- What `sys_ThreadExit` does with the PTCB of the thread. It reads the
`ref_count` of a detached PTCB that it has just freed. -/
def exitAccesses (s : State) (thread : TcbRef) (exitval : Int) : List Access :=
  let curproc := s.curproc thread
  let ptcb := s.threads.ptcb thread
  let s := s.markExited ptcb exitval
  .use (s.object ptcb) ::
    ((if s.heap.detached ptcb = true then s.freeAccesses curproc (s.object ptcb) else []) ++
      .use (s.object ptcb) ::
        if s.heap.refCount ptcb = 0 ∧ s.heap.detached ptcb = false then
          s.freeAccesses curproc (s.object ptcb)
        else [])

/-- What a step does with PTCBs that existed before. -/
def accesses (s : State) (label : Label) : List Access :=
  match s.exitCall label with
  | some (_, thread, exitval) => s.exitAccesses thread exitval
  | none =>
    match label with
    | .exec _ call .. =>
      match s.pt.pcbFreelist with
      | some pid => if call ≠ 0 then s.pushAccesses pid else []
      | none => []
    | .createThread thread .. => s.pushAccesses (s.curproc thread)
    | .threadJoin thread tid _ => s.joinAccesses thread tid
    | .threadDetach _ tid => [.use (s.object tid)]
    | .resume thread _ =>
      match s.threads.status thread with
      | .waiting (.join target _ serial) => s.loopAccesses thread ⟨target, serial⟩
      | _ => []
    | _ => []

end State

/-! ### Runs -/

inductive LifeLabel where
  | kernel (label : Label)
  /-- In `cv_wait`, a joiner that has been woken locks `exit_cv.waitset_lock`,
  before it has the kernel again. -/
  | waking (thread : TcbRef)
  deriving DecidableEq, Repr

namespace State

/-- `ThreadJoin` and `ThreadDetach` are called on PTCBs that have not been
freed. -/
def tidLive (s : State) : Label → Bool
  | .threadJoin _ tid _ | .threadDetach _ tid => s.heap.allocated tid
  | _ => true

def lifeStep (s : State) : LifeLabel → Option State
  | .kernel label => if s.tidLive label then step s label else none
  | .waking thread =>
    match s.threads.status thread with
    | .waiting (.join ..) =>
      if s.crashed = none ∧ thread ∈ s.threads.live ∧ s.threads.woken thread then some s else none
    | _ => none

def lifeAccesses (s : State) : LifeLabel → List Access
  | .kernel label => s.accesses label
  | .waking thread =>
    match s.threads.status thread with
    | .waiting (.join target _ serial) => [.use ⟨target, serial⟩]
    | _ => []

/-- The PTCB has no use any more. -/
def Over (s : State) (ptcb : PtcbRef) : Prop :=
  s.heap.exited ptcb = true ∧
  (∀ thread exitval, ¬ s.roster.Awaits thread (.join ptcb exitval (s.heap.serial ptcb))) ∧
  (s.heap.detached ptcb = true ∨ s.joinedBefore (s.heap.serial ptcb) ∨
    ∃ pid, ptcb ∈ s.pt.threadList pid ∧ s.pt.pstate pid ≠ .alive)

/-- Every PTCB that has no use any more has been freed. -/
def NoLeak (s : State) : Prop := ∀ ptcb, s.heap.allocated ptcb = true → ¬ s.Over ptcb

/-- A joiner that goes on finds its target where it was, and detached only when
it has exited. If it is the last one, an exited target is detached. -/
def JoinerKept (s : State) (thread : TcbRef) (target : PtcbRef) (serial : Nat) : Prop :=
  s.present ⟨target, serial⟩ = true ∧
  (s.heap.detached target = true → s.heap.exited target = true) ∧
  (s.heap.detached target = false → s.heap.exited target = true →
    ∃ other exitval, other ≠ thread ∧ s.roster.Awaits other (.join target exitval serial))

/-- No detached thread exits, and joiners go on as they may. -/
def LifeKept (s : State) : LifeLabel → Prop
  | .kernel label =>
    (∀ s' thread exitval, s.exitCall label = some (s', thread, exitval) →
      s.heap.detached (s.threads.ptcb thread) = false) ∧
    ∀ thread ready target exitval serial, label = .resume thread ready →
      s.threads.status thread = .waiting (.join target exitval serial) →
        s.JoinerKept thread target serial
  | .waking thread => ∀ target exitval serial,
    s.threads.status thread = .waiting (.join target exitval serial) →
      s.present ⟨target, serial⟩ = true

end State

def lifeMachine : Machine State LifeLabel where
  initial := machine.initial
  step := State.lifeStep

/-! ### Who keeps a PTCB from being freed -/

theorem Roster.Awaits.become {r : Roster} {thread other : TcbRef} {wait : Wait}
    (awaits : r.Awaits thread wait) (apart : thread ≠ other) (status : Status) :
    (r.become other status).Awaits thread wait :=
  ⟨awaits.1, (update_of_ne apart ..).trans awaits.2⟩

/-- Every PTCB whose thread has exited is still being joined. -/
def Attended (v : JoinView) : Prop :=
  ∀ ptcb, v.heap.allocated ptcb = true → v.heap.exited ptcb = true →
    ∃ thread exitval, v.roster.Awaits thread (.join ptcb exitval (v.heap.serial ptcb))

/-- A joiner that finds its target exited and not detached is not the last. -/
def Followed (v : JoinView) (caller : TcbRef) (target : PtcbRef) (serial : Nat) : Prop :=
  v.heap.detached target = false → v.heap.exited target = true →
    ∃ other exitval, other ≠ caller ∧ v.roster.Awaits other (.join target exitval serial)

namespace Attended
variable {v w : JoinView} {ends : Option TcbRef} {s : State} {thread : TcbRef}

/-- A thread that joined nobody does something else. -/
theorem become (attended : Attended v)
    (idle : ∀ ptcb serial, (v.roster.status thread).joins ptcb serial = false) (status : Status) :
    Attended (v.become thread status) := by
  intro ptcb used exited
  obtain ⟨joiner, exitval, awaits⟩ := attended ptcb used exited
  refine ⟨joiner, exitval, awaits.become ?_ status⟩
  rintro rfl
  have joins := Status.joins_iff.mpr ⟨exitval, awaits.2⟩
  cases joins.symm.trans (idle ptcb _)

theorem exists_joiner (inv : Delivery v) {ptcb : PtcbRef} (used : v.heap.allocated ptcb = true)
    (undetached : v.heap.detached ptcb = false) (running : v.heap.exited ptcb = false)
    (referenced : v.heap.refCount ptcb ≠ 0) :
    ∃ joiner exitval, v.roster.Awaits joiner (.join ptcb exitval (v.heap.serial ptcb)) := by
  have count := inv.counted ptcb used undetached running
  have some_joiner : joiners v ptcb ≠ 0 := by
    rw [← count]
    exact fun zero => referenced (BitVec.eq_of_toNat_eq zero)
  obtain ⟨joiner, live, joins⟩ := List.countP_pos_iff.mp (Nat.pos_of_ne_zero some_joiner)
  obtain ⟨exitval, waits⟩ := Status.joins_iff.mp joins
  exact ⟨joiner, exitval, live, waits⟩

theorem exit (attended : Attended s.joinView) (inv : Delivery s.joinView)
    (live : thread ∈ s.threads.live)
    (idle : ∀ ptcb serial, (s.threads.status thread).joins ptcb serial = false) (exitval : Int) :
    Attended ((s.exitPtcb (s.threads.ptcb thread) exitval).kernelSleepExited thread).joinView := by
  obtain ⟨used, running⟩ := inv.owned thread live
  have stays : ∀ {joiner ptcb pointer serial},
      s.roster.Awaits joiner (.join ptcb pointer serial) →
        (s.roster.leave thread).Awaits joiner (.join ptcb pointer serial) := by
    intro joiner ptcb pointer serial awaits
    refine ⟨(List.mem_erase_of_ne ?_).mpr awaits.1, awaits.2⟩
    rintro rfl
    have joins := Status.joins_iff.mpr ⟨pointer, awaits.2⟩
    cases joins.symm.trans (idle ptcb serial)
  have others : ∀ ptcb, ptcb ≠ s.threads.ptcb thread → s.heap.allocated ptcb = true →
      update s.heap.exited (s.threads.ptcb thread) true ptcb = true →
        ∃ joiner pointer, (s.roster.leave thread).Awaits joiner
          (.join ptcb pointer (s.heap.serial ptcb)) := by
    intro ptcb apart used exited
    rw [update_of_ne apart] at exited
    obtain ⟨joiner, pointer, awaits⟩ := attended ptcb used exited
    exact ⟨joiner, pointer, stays awaits⟩
  intro ptcb still exited
  obtain ⟨-, same⟩ | ⟨undetached, referenced, same⟩ :=
    State.exitPtcb_cases (s := s) (s.threads.ptcb thread) exitval
  all_goals
    rw [same] at still exited ⊢
  · change update s.heap.allocated (s.threads.ptcb thread) false ptcb = true at still
    have apart : ptcb ≠ s.threads.ptcb thread := by
      rintro rfl
      rw [update_self] at still
      cases still
    rw [update_of_ne apart] at still
    exact others ptcb apart still exited
  · by_cases own : ptcb = s.threads.ptcb thread
    · subst own
      obtain ⟨joiner, pointer, awaits⟩ := exists_joiner inv used undetached running referenced
      exact ⟨joiner, pointer, stays awaits⟩
    · exact others ptcb own still exited

/-- A joiner that leaves its loop leaves another one there, or a PTCB that has
been freed. -/
theorem leave (attended : Attended v) {target : PtcbRef} {pointer : Pointer} {serial : Nat}
    (waits : v.roster.Awaits thread (.join target pointer serial)) {ptcb : PtcbRef}
    (used : v.heap.allocated ptcb = true) (exited : v.heap.exited ptcb = true)
    (followed : ptcb = target → v.heap.serial ptcb = serial → ∃ other exitval, other ≠ thread ∧
      v.roster.Awaits other (.join target exitval serial)) :
    ∃ joiner exitval, (v.roster.become thread .user).Awaits joiner
      (.join ptcb exitval (v.heap.serial ptcb)) := by
  obtain ⟨joiner, exitval, awaits⟩ := attended ptcb used exited
  by_cases mine : joiner = thread
  · subst mine
    cases awaits.2.symm.trans waits.2
    obtain ⟨other, value, apart, awaits⟩ := followed rfl rfl
    exact ⟨other, value, awaits.become apart .user⟩
  · exact ⟨joiner, exitval, awaits.become mine .user⟩

theorem move (attended : Attended v) (inv : Delivery v) (move : JoinMove (Followed v) v ends w) :
    Attended w := by
  cases move with
  | quiet => exact attended
  | become idle => exact attended.become idle _
  | @create s caller tcb ptcb pid task argl args user fresh =>
    obtain ⟨-, unused, -, new⟩ := State.fresh_iff.mp fresh
    intro other used exited
    have apart : other ≠ ptcb := by
      rintro rfl
      change update s.heap.exited other false other = true at exited
      rw [update_self] at exited
      cases exited
    have used : s.heap.allocated other = true := (update_of_ne apart ..).symm.trans used
    have exited : s.heap.exited other = true := (update_of_ne apart ..).symm.trans exited
    obtain ⟨joiner, exitval, live, waits⟩ := attended other used exited
    have different : joiner ≠ tcb := fun same => new (same ▸ live)
    have busy : joiner ≠ caller := by
      rintro rfl
      cases user.symm.trans waits
    refine ⟨joiner, exitval, List.mem_cons_of_mem _ live, ?_⟩
    change update (update s.threads.status tcb .user) caller .user joiner =
      .waiting (.join other exitval (update s.heap.serial ptcb s.heap.created other))
    rw [update_of_ne busy, update_of_ne different, update_of_ne apart]
    exact waits
  | @detach s caller tid user =>
    exact attended.become (JoinMove.idle_user user) .user
  | @block s caller tid exitval live user =>
    exact attended.become (JoinMove.idle_user user) _
  | @join s caller tid exitval result user =>
    have same : (s.recordJoin (s.heap.serial tid) exitval result).joinView =
        { s.joinView with
          joined := (s.recordJoin (s.heap.serial tid) exitval result).joinView.joined } := by
      unfold State.recordJoin
      split <;> rfl
    rw [same]
    exact attended.become (v := s.joinView) (JoinMove.idle_user user) .user
  | @drop s caller target exitval serial followed waits exited undetached =>
    obtain ⟨refCount, joined, view⟩ := State.joinView_pastLoop (s := s) target serial exitval
    rw [view]
    exact fun ptcb used gone => attended.leave waits used gone
      fun _ _ => followed undetached exited
  | @dropFree s caller target exitval serial followed waits =>
    obtain ⟨refCount, joined, view⟩ := State.joinView_pastLoop (s := s) target serial exitval
    rw [State.joinView_freePtcb, view]
    intro ptcb used gone
    have apart : ptcb ≠ target := by
      rintro rfl
      change update s.heap.allocated ptcb false ptcb = true at used
      rw [update_self] at used
      cases used
    exact attended.leave waits ((update_of_ne apart ..).symm.trans used) gone
      fun same => absurd same apart
  | @exit s thread exitval live idle => exact attended.exit inv live idle exitval

end Attended

/-! ### Which steps are legal -/

section
variable {s t : State} {thread : TcbRef} {curproc : Pid}

theorem mem_neighbours {threadList : List PtcbRef} {ptcb other : PtcbRef}
    (member : other ∈ neighbours threadList ptcb) : other ∈ threadList := by
  obtain ⟨⟨first, second⟩, both, chosen⟩ := List.mem_filterMap.mp member
  obtain ⟨left, right⟩ := List.of_mem_zip both
  simp only at chosen
  split at chosen
  · obtain rfl := Option.some.inj chosen
    exact List.mem_of_mem_tail right
  · split at chosen
    · obtain rfl := Option.some.inj chosen
      exact left
    · cases chosen

@[simp] theorem legal_use (present : Ptcb → Bool) (ptcb : Ptcb) (rest : List Access) :
    legal present (.use ptcb :: rest) = (present ptcb && legal present rest) := rfl

theorem State.present_iff {ptcb : Ptcb} : s.present ptcb = true ↔
    s.heap.allocated ptcb.address = true ∧ s.heap.serial ptcb.address = ptcb.serial := by
  simp [State.present]

theorem State.present_object {ptcb : PtcbRef} : s.present (s.object ptcb) = s.heap.allocated ptcb := by
  simp [State.present, State.object]

theorem legal_useAll {ptcbs : List PtcbRef} (used : ∀ ptcb ∈ ptcbs, s.heap.allocated ptcb = true)
    (rest : List Access) :
    legal s.present (s.useAll ptcbs ++ rest) = legal s.present rest := by
  induction ptcbs with
  | nil => rfl
  | cons ptcb ptcbs ih =>
    obtain ⟨first, others⟩ := List.forall_mem_cons.mp used
    change (s.present (s.object ptcb) && legal s.present (s.useAll ptcbs ++ rest)) = _
    rw [State.present_object, first, Bool.true_and, ih others]

theorem legal_freeAccesses (listed : ∀ ptcb ∈ s.pt.threadList curproc, s.heap.allocated ptcb = true)
    (ptcb : Ptcb) (rest : List Access) :
    legal s.present (s.freeAccesses curproc ptcb ++ rest) =
      (s.present ptcb && s.heap.exited ptcb.address && legal (update s.present ptcb false) rest) := by
  have beside : ∀ other ∈ neighbours (s.pt.threadList curproc) ptcb.address,
      s.heap.allocated other = true := fun other member => listed other (mem_neighbours member)
  have near := legal_useAll beside
  rw [State.freeAccesses, List.append_assoc, List.cons_append, legal_use, near]
  simp only [List.singleton_append, legal]
  cases s.present ptcb <;> simp

/-- A thread that exits leaves nothing freed to use, unless it is detached. -/
theorem legal_exitAccesses (inv : Delivery s.joinView) (live : thread ∈ s.threads.live)
    (exitval : Int) : legal s.present (s.exitAccesses thread exitval) = true ↔
      s.heap.detached (s.threads.ptcb thread) = false := by
  have used : s.heap.allocated (s.threads.ptcb thread) = true := (inv.owned thread live).1
  have here : s.present (s.object (s.threads.ptcb thread)) = true := State.present_object.trans used
  have listed : ∀ ptcb ∈ (s.markExited (s.threads.ptcb thread) exitval).pt.threadList
      (s.curproc thread), s.heap.allocated ptcb = true := inv.listed (s.curproc thread)
  have free := legal_freeAccesses (s := s.markExited (s.threads.ptcb thread) exitval) listed
    (s.object (s.threads.ptcb thread))
  have present : (s.markExited (s.threads.ptcb thread) exitval).present = s.present := rfl
  have object : (s.markExited (s.threads.ptcb thread) exitval).object (s.threads.ptcb thread) =
      s.object (s.threads.ptcb thread) := rfl
  have marked : (s.markExited (s.threads.ptcb thread) exitval).heap.exited
      (s.object (s.threads.ptcb thread)).address = true := update_self ..
  rw [present, marked, here] at free
  have detached : (s.markExited (s.threads.ptcb thread) exitval).heap.detached = s.heap.detached :=
    rfl
  unfold State.exitAccesses
  simp only [legal_use, object, here, detached, Bool.true_and]
  cases unwanted : s.heap.detached (s.threads.ptcb thread)
  · simp only [Bool.false_eq_true, if_false, List.nil_append, legal_use, here, Bool.true_and,
      and_true, iff_true]
    split
    · have last := free []
      rwa [List.append_nil] at last
    · rfl
  · simp [free, legal]

theorem legal_joinAccesses (inv : Delivery s.joinView) {tid : PtcbRef}
    (used : s.heap.allocated tid = true) :
    legal s.present (s.joinAccesses thread tid) = true := by
  have listed : ∀ ptcb ∈ s.pt.threadList (s.curproc thread), s.heap.allocated ptcb = true :=
    inv.listed (s.curproc thread)
  have here : s.present (s.object tid) = true := State.present_object.trans used
  unfold State.joinAccesses
  rw [legal_use, here, Bool.true_and]
  split
  · rfl
  · rw [legal_useAll fun ptcb member => listed ptcb ((List.takeWhile_sublist _).mem member)]
    split
    · simp [legal, here]
    · rfl

theorem legal_loopAccesses (inv : Delivery s.joinView) (thread : TcbRef) (target : Ptcb) :
    legal s.present (s.loopAccesses thread target) = true ↔ s.present target = true ∧
      (s.heap.detached target.address = true → s.heap.exited target.address = true) := by
  have listed : ∀ ptcb ∈ s.pt.threadList (s.curproc thread), s.heap.allocated ptcb = true :=
    inv.listed (s.curproc thread)
  have dropped : (s.unrefPtcb target.address).present = s.present ∧
      (s.unrefPtcb target.address).heap.allocated = s.heap.allocated ∧
      (s.unrefPtcb target.address).heap.exited = s.heap.exited ∧
      (s.unrefPtcb target.address).heap.detached = s.heap.detached ∧
      (s.unrefPtcb target.address).pt = s.pt := by
    obtain ⟨refCount, same⟩ := State.unrefPtcb_eq (s := s) target.address
    rw [same]
    exact ⟨rfl, rfl, rfl, rfl, rfl⟩
  unfold State.loopAccesses
  dsimp only
  generalize s.unrefPtcb target.address = s' at dropped
  obtain ⟨present, allocated, exited, detached, table⟩ := dropped
  rw [← table, ← allocated] at listed
  have scan : ∀ (condition : Prop) [Decidable condition] (rest : List Access),
      legal s.present ((if condition then s'.useAll (s'.pt.threadList (s.curproc thread)) else []) ++
        rest) = legal s.present rest := by
    intro condition _ rest
    split
    · rw [← present]
      exact legal_useAll listed rest
    · rfl
  have free := legal_freeAccesses listed target []
  rw [List.append_nil, present, exited] at free
  rw [legal_use]
  cases here : s.present target
  · simp
  · split
    next runs => simp [legal, runs]
    next leaves =>
      rw [Bool.true_and, List.cons_append, legal_use, here, Bool.true_and, scan,
        State.rlistFind_threadListNode, detached]
      cases unwanted : s.heap.detached target.address
      · simp [legal]
      · simp [free, here, legal]

/-- A call, an exit or a joiner that goes on is legal exactly when the condition
says so, but for the last joiners. -/
theorem legal_accesses (inv : Delivery s.joinView) {label : Label} (named : s.tidLive label = true)
    (moved : act s label = some t) : legal s.present (s.accesses label) = true ↔
      (∀ s' thread exitval, s.exitCall label = some (s', thread, exitval) →
        s.heap.detached (s.threads.ptcb thread) = false) ∧
      ∀ thread ready target exitval serial, label = .resume thread ready →
        s.threads.status thread = .waiting (.join target exitval serial) →
          s.present ⟨target, serial⟩ = true ∧
            (s.heap.detached target = true → s.heap.exited target = true) := by
  have pushes : ∀ pid, legal s.present (s.pushAccesses pid) = true := by
    intro pid
    have used : ∀ ptcb ∈ (s.pt.threadList pid).getLast?.toList, s.heap.allocated ptcb = true := by
      intro ptcb last
      have member : ptcb ∈ s.pt.threadList pid := List.mem_of_getLast? (by simpa using last)
      exact inv.listed pid ptcb member
    have last := legal_useAll used []
    rwa [List.append_nil] at last
  cases call : s.exitCall label with
  | some begun =>
    obtain ⟨s', caller, exitval⟩ := begun
    obtain ⟨exits, -, live, -⟩ := exitCall_begins call
    have joins : ∀ thread ready target pointer serial, label = .resume thread ready →
        s.threads.status thread ≠ .waiting (.join target pointer serial) := by
      rintro thread ready target pointer serial rfl waits
      simp [State.exits, waits] at exits
    simp only [State.accesses, call]
    rw [legal_exitAccesses inv live exitval]
    constructor
    · intro undetached
      refine ⟨?_, fun thread ready target pointer serial same waits =>
        absurd waits (joins thread ready target pointer serial same)⟩
      rintro _ _ _ ⟨rfl, rfl, rfl⟩
      exact undetached
    · exact fun both => both.1 s' caller exitval rfl
  | none =>
    simp only [State.accesses, call]
    cases acted_of_act moved with
    | resumeJoin caller ready target pointer serial back =>
      simp only [back.waits]
      rw [legal_loopAccesses inv caller ⟨target, serial⟩]
      constructor
      · intro both
        refine ⟨by simp, ?_⟩
        rintro _ _ _ _ _ ⟨rfl, rfl⟩ waits
        cases back.waits.symm.trans waits
        exact both
      · exact fun both => both.2 caller ready target pointer serial rfl back.waits
    | resumeSpecific _ _ _ _ back | resumeAny _ _ _ back | resumeExit _ _ _ back
    | resumeRead _ _ _ _ _ back =>
      simp only [back.waits]
      refine iff_of_true rfl ⟨by simp, ?_⟩
      rintro _ _ _ _ _ ⟨rfl, rfl⟩ waits
      cases back.waits.symm.trans waits
    | exec =>
      refine iff_of_true ?_ ⟨by simp, by simp⟩
      simp only
      split
      · split
        · exact pushes _
        · rfl
      · rfl
    | createThread => exact iff_of_true (pushes _) ⟨by simp, by simp⟩
    | threadJoin =>
      exact iff_of_true (legal_joinAccesses inv named) ⟨by simp, by simp⟩
    | threadDetach _ tid =>
      have here : s.present (s.object tid) = true := State.present_object.trans named
      exact iff_of_true (by simp [legal, here]) ⟨by simp, by simp⟩
    | _ => exact iff_of_true rfl ⟨by simp, by simp⟩

/-- What a run keeps whose steps are as they may be. -/
structure Life (s : State) : Prop where
  delivery : Delivery s.joinView
  attended : Attended s.joinView

namespace Life

theorem boot (booted : machine.initial s) : Life s := by
  refine ⟨(Delivery.boot booted).1, fun ptcb used exited => ?_⟩
  cases (exited_boot booted used).symm.trans exited

/-- A joined thread is attended to, so that its PTCB is not over. -/
theorem noLeak (life : Life s) : s.NoLeak := by
  rintro ptcb used ⟨exited, unjoined, -⟩
  obtain ⟨thread, exitval, awaits⟩ := life.attended ptcb used exited
  exact unjoined thread exitval awaits

theorem step (life : Life s) {label : LifeLabel} (kept : s.LifeKept label)
    (moved : s.lifeStep label = some t) : Life t := by
  cases label with
  | waking thread =>
    simp only [State.lifeStep] at moved
    split at moved
    · split at moved
      · exact Option.some.inj moved ▸ life
      · cases moved
    · cases moved
  | kernel label =>
    simp only [State.lifeStep, Option.ite_none_right_eq_some] at moved
    obtain ⟨-, joiner⟩ := kept
    have safe : s.joinSafe label = true := joinSafe_of fun thread ready target exitval serial same
        waits detached => by
      obtain ⟨here, exits, -⟩ := joiner thread ready target exitval serial same waits
      obtain ⟨used, number⟩ := State.present_iff.mp here
      exact ⟨exits detached, used, number⟩
    have move : JoinMove (Followed s.joinView) _ _ _ := act_joinMove safe
      (fun thread ready target exitval serial same waits =>
        (joiner thread ready target exitval serial same waits).2.2)
      (act_of_step moved.2)
    exact ⟨life.delivery.move move, life.attended.move life.delivery move⟩

/-- The last joiner of a thread that is not detached leaves its PTCB behind. -/
theorem leaks (life : Life s) {ready : Nat} {target : PtcbRef} {exitval : Pointer} {serial : Nat}
    (waits : s.threads.status thread = .waiting (.join target exitval serial))
    (here : s.present ⟨target, serial⟩ = true) (undetached : s.heap.detached target = false)
    (exited : s.heap.exited target = true)
    (last : ¬ ∃ other exitval, other ≠ thread ∧ s.roster.Awaits other (.join target exitval serial))
    (moved : act s (.resume thread ready) = some t) : ¬ t.NoLeak := by
  obtain ⟨used, number⟩ := State.present_iff.mp here
  obtain rfl : s.heap.serial target = serial := number
  obtain ⟨-, resumes⟩ := resume_of_waits waits moved
  obtain rfl := Option.some.inj resumes
  have undetached_of : s.heap.detachedOf (s.heap.serial target) = false :=
    (life.delivery.numbered.detached target used).trans undetached
  obtain ⟨running, -⟩ | ⟨-, same⟩ :=
    State.joinLoop_undetached undetached thread exitval (s.heap.serial target)
  · cases exited.symm.trans running
  · obtain ⟨refCount, unref⟩ := State.unrefPtcb_eq (s := s) target
    rw [same, unref, State.recordJoin, if_neg (by simp [undetached_of])]
    intro sound
    refine sound target used ⟨exited, fun other pointer awaits => ?_, .inr (.inl ?_)⟩
    · have awaits : (s.roster.become thread .user).Awaits other
          (.join target pointer (s.heap.serial target)) := awaits
      have before := awaits.of_user
      refine last ⟨other, pointer, ?_, before⟩
      rintro rfl
      exact absurd awaits.2 (by simp [Roster.become])
    · exact ⟨_, List.mem_cons_self, rfl, rfl⟩

end Life

end

/-- **The life of a PTCB.** Over every run of calls on PTCBs that have not been
freed: none is used, unlinked or freed after it has been freed, none is freed
before its thread has exited, and each has been freed when it has no use any
more, exactly when no detached thread exits and all joiners go on as they may. -/
theorem ptcb_lifetime_iff {past : List (State × LifeLabel)} {last : State}
    (run : lifeMachine.Run past last) :
    ((∀ s, Machine.Visits past last s → s.NoLeak) ∧
      ∀ left ∈ past, legal left.1.present (left.1.lifeAccesses left.2) = true) ↔
      ∀ left ∈ past, left.1.LifeKept left.2 := by
  refine Machine.lawful_iff_allowed State.LifeKept
    (fun s label => legal s.present (s.lifeAccesses label) = true) Life (fun _ => .boot)
    (fun s label t life kept moved => life.step kept moved) (fun _ => Life.noLeak) ?_ ?_ run
  · intro s label t life kept moved
    cases label with
    | waking thread =>
      simp only [State.lifeAccesses]
      split
      next target exitval serial waits => simp [legal, kept target exitval serial waits]
      · rfl
    | kernel label =>
      simp only [lifeMachine, State.lifeStep, Option.ite_none_right_eq_some] at moved
      refine (legal_accesses life.delivery moved.1 (act_of_step moved.2)).mpr ⟨kept.1, ?_⟩
      intro thread ready target exitval serial same waits
      obtain ⟨here, exits, -⟩ := kept.2 thread ready target exitval serial same waits
      exact ⟨here, exits⟩
  · intro s label t life refused moved lawful sound
    cases label with
    | waking thread =>
      apply refused
      intro target exitval serial waits
      simpa [State.lifeAccesses, waits, legal] using lawful
    | kernel label =>
      simp only [lifeMachine, State.lifeStep, Option.ite_none_right_eq_some] at moved
      have moved := And.intro moved.1 (act_of_step moved.2)
      obtain ⟨exits, joins⟩ := (legal_accesses life.delivery moved.1 moved.2).mp lawful
      refine refused ⟨exits, ?_⟩
      rintro thread ready target exitval serial rfl waits
      obtain ⟨here, exits⟩ := joins thread ready target exitval serial rfl waits
      refine ⟨here, exits, fun undetached exited => ?_⟩
      by_contra last
      exact life.leaks waits here undetached exited last moved.2 sound

/-- A thread exits while main joins it, and is then detached by a third one. -/
theorem ptcb_lifetime_iff_detached : ∃ past last, lifeMachine.Run past last ∧
    last.heap.allocated 2 = false ∧ last.threads.returned 0 = 0 ∧
    (∀ s, Machine.Visits past last s → s.NoLeak) ∧
      ∀ left ∈ past, legal left.1.present (left.1.lifeAccesses left.2) = true := by
  have run := Machine.Run.start (M := lifeMachine) booted_initial
  have run := run.next (.kernel (.createThread 0 1 0 0 2 1)) rfl
  have run := run.next (.kernel (.createThread 0 1 0 0 3 2)) rfl
  have run := run.next (.kernel (.threadJoin 0 2 4)) rfl
  have run := run.next (.kernel (.threadExit 1 7)) rfl
  have run := run.next (.waking 0) rfl
  have run := run.next (.kernel (.threadDetach 2 2)) rfl
  have run := run.next (.kernel (.resume 0 0)) rfl
  refine ⟨_, _, run, rfl, rfl, (ptcb_lifetime_iff run).mpr ?_⟩
  simp only [List.forall_mem_cons]
  refine ⟨⟨nofun, ?_⟩, ⟨nofun, nofun⟩, ?_, ⟨?_, nofun⟩, ⟨nofun, nofun⟩, ⟨nofun, nofun⟩,
    ⟨nofun, nofun⟩, nofun⟩
  · rintro thread ready target exitval serial same waits
    cases same
    cases waits
    exact ⟨rfl, fun _ => rfl, fun undetached => nomatch undetached⟩
  · rintro target exitval serial waits
    cases waits
    rfl
  · rintro s' thread exitval exits
    cases exits
    rfl

/-- A detached thread exits: its PTCB is freed, and then read. -/
theorem freed_used : ¬ ∀ past last, lifeMachine.Run past last →
    (∀ s, Machine.Visits past last s → s.NoLeak) ∧
      ∀ left ∈ past, legal left.1.present (left.1.lifeAccesses left.2) = true := by
  intro every
  have run := Machine.Run.start (M := lifeMachine) booted_initial
  have run := run.next (.kernel (.createThread 0 1 0 0 2 1)) rfl
  have run := run.next (.kernel (.threadDetach 0 2)) rfl
  have run := run.next (.kernel (.threadExit 1 7)) rfl
  have lawful := (every _ _ run).2 _ List.mem_cons_self
  revert lawful
  decide

end TinyOs.Kernel
