import TinyOs.Joinability
import TinyOs.StreamSafety

/-! Process table entries that are used again: what `acquire_PCB` returns, and
which threads a new process can name. -/
namespace TinyOs.Kernel
open Function Library

/-- A PCB without a trace of a process: no threads, children or exited children
in its lists, in no such list itself, no open files, and nobody waits on its
`child_exit`. -/
structure State.Clean (s : State) (pid : Pid) : Prop where
  threadList : s.pt.threadList pid = []
  childrenList : s.pt.childrenList pid = []
  exitedList : s.pt.exitedList pid = []
  childrenNode : ∀ other, pid ∉ s.pt.childrenList other
  exitedNode : ∀ other, pid ∉ s.pt.exitedList other
  fidt : ∀ fid, s.pt.fidt pid fid = none
  childExit : ∀ thread ∈ s.threads.live,
    (s.threads.status thread).waitsOn (s.curproc thread) (.childExit pid) = false

namespace State

/-- The call of `acquire_PCB`: what it returns, and the state then. -/
def acquires (s : State) : Label → Option (Pid × State)
  | .exec .. => s.acquirePcb
  | _ => none

/-- The `Tid_t` that a step makes for a process. -/
def makes (s : State) (pid : Pid) : Label → Option PtcbRef
  | .exec _ call _ _ _ ptcb _ =>
    if call ≠ 0 ∧ s.pt.pcbFreelist = some pid then some ptcb else none
  | .createThread thread _ _ _ ptcb _ => if s.curproc thread = pid then some ptcb else none
  | _ => none

/-- The process in whose thread list the step leaves the PTCB of a thread that
exits: one that is not detached and has joiners. -/
def leavesPtcb (s : State) (label : Label) : Option Pid :=
  match s.exitCall label with
  | some (_, thread, _) =>
    if s.heap.detached (s.threads.ptcb thread) = false ∧
        s.heap.refCount (s.threads.ptcb thread) ≠ 0 then
      some (s.curproc thread)
    else none
  | none => none

end State

def tids (past : List (State × Label)) (pid : Pid) : List PtcbRef :=
  past.filterMap fun left => left.1.makes pid left.2

/-! ### What is in a thread list -/

section
variable {s t : State} {label : Label} {pid : Pid} {ptcb : PtcbRef}

theorem State.threadList_same (same : t.joinBase = s.joinBase) : t.pt.threadList = s.pt.threadList :=
  congrArg (fun base => base.2.1) same

theorem State.makes_exec (call : Task) (argl : Int) (args : Pointer) (bytes : List (BitVec 8))
    {made : PtcbRef} {caller tcb : TcbRef}
    (member : ptcb ∈ (s.sysExec caller call argl args bytes made tcb).pt.threadList pid) :
    ptcb ∈ s.pt.threadList pid ∨ s.makes pid (.exec caller call argl args bytes made tcb) = some ptcb := by
  change ptcb ∈ (s.exec (s.curproc caller) call argl args bytes made tcb).2.pt.threadList pid at member
  cases first : s.pt.pcbFreelist with
  | none =>
    rw [State.exec_full first] at member
    exact .inl member
  | some new =>
    unfold State.exec State.acquirePcb at member
    simp only [first] at member
    have lists : (((s.takePcb new).inherit (s.curproc caller) new).setTask new call argl args
        bytes).pt.threadList = s.pt.threadList :=
      State.threadList_same (State.joinBase_inherit (s := s.takePcb new) (s.curproc caller) new)
    split at member
    next task =>
      simp only [State.createPtcb, lists, update_apply] at member
      split at member
      next same =>
        subst new
        rcases List.mem_append.mp member with old | made
        · exact .inl old
        · obtain rfl := List.mem_singleton.mp made
          exact .inr (if_pos ⟨task, first⟩)
      · exact .inl member
    · rw [lists] at member
      exact .inl member

theorem State.threadList_exit {thread : TcbRef} {exitval : Int}
    (exited : s.sysThreadExit thread exitval = some t) (member : ptcb ∈ t.pt.threadList pid) :
    ptcb ∈ s.pt.threadList pid := by
  have lists : t.pt.threadList = (s.exitPtcb (s.threads.ptcb thread) exitval).pt.threadList :=
    congrArg JoinView.threadList (State.joinView_sysThreadExit exited)
  rw [lists] at member
  obtain ⟨-, same⟩ | ⟨-, -, same⟩ := State.exitPtcb_cases (s := s) (s.threads.ptcb thread) exitval
  all_goals rw [same] at member
  · exact List.mem_of_mem_erase member
  · exact member

theorem State.threadList_recordJoin (serial : Nat) (exitval : Pointer) (result : Option Int) :
    (s.recordJoin serial exitval result).pt.threadList = s.pt.threadList := by
  unfold State.recordJoin
  split <;> rfl

theorem State.threadList_sysThreadJoin (thread : TcbRef) (tid : PtcbRef) (exitval : Pointer) :
    (s.sysThreadJoin thread tid exitval).pt.threadList = s.pt.threadList := by
  obtain same | same | ⟨-, -, ⟨-, -, same⟩ | ⟨-, -, same⟩ | ⟨-, same⟩⟩ :=
    State.sysThreadJoin_cases (s := s) thread tid exitval
  all_goals rw [same]
  · rfl
  · rfl
  · exact State.threadList_recordJoin ..
  · exact State.threadList_recordJoin ..
  · rfl

/-- A thread list grows only by the threads that the process makes. -/
theorem act_threadList (target : s.targetKept label = true) (moved : act s label = some t)
    (member : ptcb ∈ t.pt.threadList pid) :
    ptcb ∈ s.pt.threadList pid ∨ s.makes pid label = some ptcb := by
  have quiet : t.joinBase = s.joinBase → ptcb ∈ s.pt.threadList pid := fun same => by
    rwa [← State.threadList_same same]
  cases exits : s.exits label
  case true =>
    left
    obtain ⟨s', thread, exitval, begins, exited⟩ | ⟨-, s', thread, exitval, -, drains, -, -, rfl⟩ :=
      exitOutcome exits moved
    · obtain ⟨-, -, -, -, drains, -⟩ := exitCall_begins begins
      have lists : s'.pt.threadList = s.pt.threadList :=
        congrArg JoinView.threadList drains.joinView
      rw [← lists]
      exact State.threadList_exit exited member
    · have lists : s'.pt.threadList = s.pt.threadList :=
        congrArg JoinView.threadList drains.joinView
      rw [← lists]
      exact member
  case false =>
    cases acted_of_act moved with
    | threadExit | exit => cases exits
    | exec _ call argl args bytes => exact State.makes_exec call argl args bytes member
    | createThread caller _ _ _ made =>
      change ptcb ∈ update s.pt.threadList (s.curproc caller)
        (s.pt.threadList (s.curproc caller) ++ [made]) pid at member
      rw [update_apply] at member
      split at member
      next same =>
        subst same
        rcases List.mem_append.mp member with old | new
        · exact .inl old
        · obtain rfl := List.mem_singleton.mp new
          exact .inr (if_pos rfl)
      · exact .inl member
    | resumeJoin caller ready joined exitval serial back =>
      left
      have undetached := targetKept_iff.mp target caller ready joined exitval serial rfl back.waits
      obtain ⟨-, same⟩ | ⟨-, same⟩ := State.joinLoop_undetached undetached caller exitval serial
      all_goals rw [same] at member
      · exact member
      · obtain ⟨refCount, unref⟩ := State.unrefPtcb_eq (s := s) joined
        change ptcb ∈ (State.recordJoin ..).pt.threadList pid at member
        rwa [State.threadList_recordJoin, unref] at member
    | resumeExit _ _ _ back => simp [State.exits, back.waits] at exits
    | resumeSpecific => exact .inl (quiet (State.joinBase_specificLoop ..))
    | resumeAny => exact .inl (quiet (State.joinBase_anyLoop ..))
    | resumeRead => exact .inl (quiet (State.joinBase_deviceRead ..))
    | poll => exact .inl (quiet (State.joinBase_deviceWrite ..))
    | rxReady => exact .inl (quiet State.joinBase_rxReady)
    | store => exact .inl member
    | threadJoin =>
      left
      rwa [State.threadList_sysThreadJoin] at member
    | threadDetach =>
      left
      unfold State.sysThreadDetach at member
      split at member
      · exact member
      · split at member
        · exact member
        · exact member
    | waitChild => exact .inl (quiet (State.joinBase_sysWaitChild ..))
    | openNull => exact .inl (quiet (State.joinBase_openStream ..))
    | openTerminal => exact .inl (quiet (State.joinBase_openStream ..))
    | close => exact .inl (quiet (State.joinBase_sysClose ..))
    | dup2 => exact .inl (quiet (State.joinBase_sysDup2 ..))
    | read => exact .inl (quiet (State.joinBase_sysRead ..))
    | write => exact .inl (quiet (State.joinBase_sysWrite ..))

end

/-! ### What exits leave behind -/

/-- The thread list of the process has the PTCB of a thread that has exited. -/
def JoinView.Strewn (v : JoinView) (pid : Pid) : Prop :=
  ∃ ptcb ∈ v.threadList pid, v.heap.exited ptcb = true

/-- The exit of the thread does not unlink its PTCB. -/
def JoinView.Leaves (v : JoinView) (thread : TcbRef) : Prop :=
  v.heap.detached (v.roster.ptcb thread) = false ∧ v.heap.refCount (v.roster.ptcb thread) ≠ 0

section
variable {s t : State} {label : Label} {v w : JoinView} {pid : Pid} {thread : TcbRef}

theorem strewn_exit (inv : Delivery s.joinView) (enrolled : Enrolled s.joinView)
    (live : thread ∈ s.threads.live) (exitval : Int) :
    ((s.exitPtcb (s.threads.ptcb thread) exitval).kernelSleepExited thread).joinView.Strewn pid ↔
      s.joinView.Strewn pid ∨ s.joinView.Leaves thread ∧ s.threads.owner thread = pid := by
  have running : s.heap.exited (s.threads.ptcb thread) = false := (inv.owned thread live).2
  have apart : ∀ {ptcb}, s.heap.exited ptcb = true → ptcb ≠ s.threads.ptcb thread := by
    rintro _ exited rfl
    cases running.symm.trans exited
  obtain ⟨freed, same⟩ | ⟨undetached, joined, same⟩ :=
    State.exitPtcb_cases (s := s) (s.threads.ptcb thread) exitval
  · have gone : ¬ s.joinView.Leaves thread := by
      rintro ⟨undetached, joined⟩
      rcases freed with detached | unjoined
      · cases detached.symm.trans undetached
      · exact joined unjoined
    rw [same, or_iff_left fun both => gone both.1]
    constructor
    · rintro ⟨ptcb, member, exited⟩
      obtain ⟨other, member⟩ := (inv.listed_nodup pid).mem_erase_iff.mp member
      change update s.heap.exited (s.threads.ptcb thread) true ptcb = true at exited
      rw [update_of_ne other] at exited
      exact ⟨ptcb, member, exited⟩
    · rintro ⟨ptcb, member, exited⟩
      exact ⟨ptcb, (List.mem_erase_of_ne (apart exited)).mpr member,
        (update_of_ne (apart exited) ..).trans exited⟩
  · rw [same]
    constructor
    · rintro ⟨ptcb, member, exited⟩
      change update s.heap.exited (s.threads.ptcb thread) true ptcb = true at exited
      by_cases mine : ptcb = s.threads.ptcb thread
      · subst mine
        obtain ⟨other, lives, own, home⟩ := enrolled.running pid _ member running
        obtain rfl := inv.owned_once other lives thread live own
        exact .inr ⟨⟨undetached, joined⟩, home⟩
      · rw [update_of_ne mine] at exited
        exact .inl ⟨ptcb, member, exited⟩
    · rintro (⟨ptcb, member, exited⟩ | ⟨-, rfl⟩)
      · exact ⟨ptcb, member, (update_of_ne (apart exited) ..).trans exited⟩
      · exact ⟨s.threads.ptcb thread, (enrolled.listed thread live).1, update_self ..⟩

/-- As long as joiners find their targets not detached, nothing that an exit
leaves in a list gets out again. -/
theorem JoinMove.strewn {Leaves : TcbRef → PtcbRef → Nat → Prop} {ends : Option TcbRef}
    (inv : Delivery v) (enrolled : Enrolled v)
    (undetached : ∀ caller target serial, Leaves caller target serial →
      v.heap.detached target = false)
    (move : JoinMove Leaves v ends w) : w.Strewn pid ↔
      v.Strewn pid ∨ ∃ thread, ends = some thread ∧ v.Leaves thread ∧ v.roster.owner thread = pid := by
  have quiet : ∀ {p : Prop}, p ↔
      p ∨ ∃ thread, none = some thread ∧ v.Leaves thread ∧ v.roster.owner thread = pid := by
    simp
  cases move with
  | quiet | become | detach | block => exact quiet
  | @create s caller tcb ptcb made task argl args user fresh =>
    obtain ⟨-, unused, -, -⟩ := State.fresh_iff.mp fresh
    have apart : ∀ other ∈ s.pt.threadList pid, other ≠ ptcb := by
      rintro _ member rfl
      cases unused.symm.trans (inv.listed pid _ member)
    refine Iff.trans ?_ quiet
    constructor
    · rintro ⟨other, member, exited⟩
      change update s.heap.exited ptcb false other = true at exited
      have different : other ≠ ptcb := by
        rintro rfl
        simp at exited
      rw [update_of_ne different] at exited
      refine ⟨other, ?_, exited⟩
      change other ∈ update s.pt.threadList made (s.pt.threadList made ++ [ptcb]) pid at member
      rw [update_apply] at member
      split at member
      next same =>
        subst same
        have old : other ∈ s.pt.threadList pid := by simpa [different] using member
        exact old
      · exact member
    · rintro ⟨other, member, exited⟩
      refine ⟨other, ?_, (update_of_ne (apart other member) ..).trans exited⟩
      change other ∈ update s.pt.threadList made (s.pt.threadList made ++ [ptcb]) pid
      rw [update_apply]
      split
      next same =>
        subst same
        exact List.mem_append_left _ member
      · exact member
  | @join s caller tid exitval result =>
    unfold State.recordJoin
    split <;> exact quiet
  | @drop s caller target exitval serial =>
    obtain ⟨refCount, joined, view⟩ := State.joinView_pastLoop (s := s) target serial exitval
    rw [view]
    exact quiet
  | @dropFree s caller target exitval serial leaves waits exited detached =>
    cases detached.symm.trans (undetached caller target serial leaves)
  | @exit s thread exitval live =>
    rw [strewn_exit inv enrolled live]
    simp
    rfl

theorem leavesPtcb_iff : s.leavesPtcb label = some pid ↔
    ∃ thread, (s.exitCall label).map (fun call => call.2.1) = some thread ∧
      s.joinView.Leaves thread ∧ s.joinView.roster.owner thread = pid := by
  unfold State.leavesPtcb
  split
  next s' thread exitval call =>
    rw [call]
    simp [JoinView.Leaves, State.joinView, State.roster, State.curproc]
  next call => simp [call]

theorem act_strewn (inv : Delivery s.joinView) (enrolled : Enrolled s.joinView)
    (target : s.targetKept label = true) (moved : act s label = some t) :
    t.joinView.Strewn pid ↔ s.joinView.Strewn pid ∨ s.leavesPtcb label = some pid := by
  have move : JoinMove (fun _ target _ => s.joinView.heap.detached target = false) _ _ _ :=
    act_joinMove (joinSafe_of_targetKept target)
      (fun thread ready target' exitval serial same waits =>
        targetKept_iff.mp target thread ready target' exitval serial same waits) moved
  rw [leavesPtcb_iff]
  exact move.strewn inv enrolled fun _ _ _ => id

end

/-! ### Runs -/

/-- The entry that `acquire_PCB` returns in the step is clean. -/
def AcquiresClean (s : State) (label : Label) : Prop :=
  ∀ pid fresh, s.acquires label = some (pid, fresh) → fresh.Clean pid

/-- `ThreadJoin` rejects a `Tid_t` that belonged to an earlier process of the
same pid, and to no thread that the process has made since. -/
def RejectsOld (past : List (State × Label)) (s : State) (label : Label) : Prop :=
  ∀ caller tid exitval t, label = .threadJoin caller tid exitval → step s label = some t →
    ∀ recent acquired exec earlier fresh, past = recent ++ (acquired, exec) :: earlier →
      acquired.acquires exec = some (s.curproc caller, fresh) →
      tid ∈ tids earlier (s.curproc caller) →
      tid ∉ tids (recent ++ [(acquired, exec)]) (s.curproc caller) → t.Returns caller (-1)

/-- No thread of an earlier process of the same pid has left its PTCB. -/
def NothingLeft (past : List (State × Label)) (s : State) (label : Label) : Prop :=
  ∀ pid fresh, s.acquires label = some (pid, fresh) →
    ∀ left ∈ past, left.1.leavesPtcb left.2 ≠ some pid

/-- What runs keep of the entries that are used again. -/
structure Recyclable (past : List (State × Label)) (s : State) : Prop where
  sound : Sound s
  streams : Streams s
  delivery : Delivery s.joinView
  enrolled : Enrolled s.joinView
  strewn : ∀ pid, s.joinView.Strewn pid ↔ ∃ left ∈ past, left.1.leavesPtcb left.2 = some pid
  valid : ∀ pid, ∀ tid ∈ tids past pid, tid ≠ 0

theorem State.acquires_iff {s s' : State} {label : Label} {pid : Pid} :
    s.acquires label = some (pid, s') ↔
      s.pt.pcbFreelist = some pid ∧ s' = s.takePcb pid ∧
        ∃ caller call argl args bytes ptcb tcb, label = .exec caller call argl args bytes ptcb tcb := by
  cases label
  case exec =>
    simp only [acquires, acquirePcb]
    cases s.pt.pcbFreelist with
    | none => simp
    | some first =>
      simp only [Option.some.injEq, Prod.mk.injEq]
      constructor
      · rintro ⟨rfl, rfl⟩
        exact ⟨rfl, rfl, _, _, _, _, _, _, _, rfl⟩
      · rintro ⟨rfl, rfl, -⟩
        exact ⟨rfl, rfl⟩
  all_goals simp [acquires]

theorem State.makes_valid {s t : State} {label : Label} {pid : Pid} {tid : PtcbRef}
    (moved : act s label = some t) (made : s.makes pid label = some tid) : tid ≠ 0 := by
  cases acted_of_act moved with
  | exec _ _ _ _ _ _ _ _ fresh =>
    obtain ⟨-, same⟩ := Option.ite_none_right_eq_some.mp made
    cases same
    exact (State.fresh_iff.mp fresh).1
  | createThread _ _ _ _ _ _ _ fresh =>
    obtain ⟨-, same⟩ := Option.ite_none_right_eq_some.mp made
    cases same
    exact (State.fresh_iff.mp fresh).1
  | _ => cases made

namespace Recyclable
variable {past : List (State × Label)} {s t : State} {label : Label} {pid : Pid}

theorem boot (booted : machine.initial s) : Recyclable [] s := by
  have delivery := (Delivery.boot booted).1
  refine ⟨.boot booted, .boot booted, delivery, .boot booted, fun pid => ?_, by simp [tids]⟩
  refine iff_of_false ?_ (by simp)
  rintro ⟨ptcb, member, exited⟩
  cases (exited_boot booted (delivery.listed pid ptcb member)).symm.trans exited

theorem step (before : Recyclable past s) (moved : keptMachine.step s label = some t) :
    Recyclable ((s, label) :: past) t := by
  obtain ⟨sound, streams, delivery, enrolled, strewn, valid⟩ := before
  obtain ⟨child, target, moved⟩ := keptMachine_step moved
  have acted := act_of_step moved
  have move := act_anyMove (joinSafe_of_targetKept target) acted
  refine ⟨sound.step child target moved, streams.act sound.census child acted, delivery.move move,
    enrolled.move delivery move, fun pid => ?_, fun pid tid member => ?_⟩
  · rw [act_strewn delivery enrolled target acted, strewn pid]
    simp [or_comm]
  · obtain ⟨left, member, made⟩ := List.mem_filterMap.mp member
    rcases List.mem_cons.mp member with rfl | member
    · exact State.makes_valid acted made
    · exact valid pid tid (List.mem_filterMap.mpr ⟨left, member, made⟩)

theorem of_run (run : keptMachine.Run past s) : Recyclable past s := by
  induction run with
  | start booted => exact .boot booted
  | step _ moved ih => exact ih.step moved

/-- A free entry is clean but for its thread list. -/
theorem clean_iff (kept : Recyclable past s) (first : s.pt.pcbFreelist = some pid) :
    (s.takePcb pid).Clean pid ↔ ∀ left ∈ past, left.1.leavesPtcb left.2 ≠ some pid := by
  have inv := kept.sound.census
  have unused : s.pt.pstate pid = .free := by
    have entries := inv.entries
    change FreeEntries s.pt.pstate s.pt.parent s.pt.pcbFreelist s.pt.processCount at entries
    rw [first] at entries
    exact (entries.pop none).1
  have deserted : ∀ thread ∈ s.threads.live, s.threads.owner thread ≠ pid := by
    rintro thread live rfl
    cases (inv.owners thread live).1.symm.trans unused
  have swept : (∀ left ∈ past, left.1.leavesPtcb left.2 ≠ some pid) ↔ ¬ s.joinView.Strewn pid := by
    rw [kept.strewn pid]
    simp
  have strewn : s.joinView.Strewn pid ↔ s.pt.threadList pid ≠ [] := by
    constructor
    · rintro ⟨ptcb, member, -⟩ empty
      have member : ptcb ∈ s.pt.threadList pid := member
      simp [empty] at member
    · intro some_left
      obtain ⟨ptcb, member⟩ := List.exists_mem_of_ne_nil _ some_left
      refine ⟨ptcb, member, ?_⟩
      by_contra running
      obtain ⟨thread, live, -, home⟩ := kept.enrolled.running pid ptcb member
        (Bool.eq_false_of_not_eq_true running)
      exact deserted thread live home
  rw [swept, strewn, not_not]
  refine ⟨fun clean => clean.threadList, fun empty => ?_⟩
  have childless : ∀ child, s.pt.pstate child ≠ .free → 2 ≤ child → s.pt.parent child ≠ some pid := by
    intro child used large link
    obtain ⟨above, link', alive, -⟩ := inv.tree.parented child large used
    obtain rfl := Option.some.inj (link.symm.trans link')
    cases unused.symm.trans alive
  refine ⟨empty, ?_, ?_, ?_, ?_, ?_, ?_⟩
  · apply List.eq_nil_iff_forall_not_mem.mpr
    intro child member
    obtain ⟨large, used, link⟩ := (inv.tree.children child pid).mp member
    exact childless child used large link
  · apply List.eq_nil_iff_forall_not_mem.mpr
    intro child member
    obtain ⟨large, zombie, link⟩ := (inv.tree.exited child pid).mp member
    have zombie : s.pt.pstate child = .zombie := zombie
    exact childless child (by simp [zombie]) large link
  · intro other member
    exact ((inv.tree.children pid other).mp member).2.1 unused
  · intro other member
    cases unused.symm.trans ((inv.tree.exited pid other).mp member).2.1
  · intro fid
    cases slot : s.pt.fidt pid fid with
    | none => exact slot
    | some fcb => cases unused.symm.trans (kept.streams.open_slot pid fid fcb slot).2.2
  · intro thread live
    have apart := deserted thread live
    change (s.threads.status thread).waitsOn (s.threads.owner thread) (.childExit pid) = false
    unfold Status.waitsOn
    split
    next wait _ => cases wait <;> simp [Wait.cv, apart]
    · rfl

/-- A process that began with an empty thread list has made all that is in it. -/
theorem own_tids {recent earlier : List (State × Label)} {acquired : State} {exec : Label}
    (run : keptMachine.Run (recent ++ (acquired, exec) :: earlier) s)
    (empty : acquired.pt.threadList pid = []) {ptcb : PtcbRef} (member : ptcb ∈ s.pt.threadList pid) :
    ptcb ∈ tids (recent ++ [(acquired, exec)]) pid := by
  induction recent generalizing s with
  | nil =>
    cases run with
    | step _ moved =>
      obtain ⟨-, target, moved⟩ := keptMachine_step moved
      rcases act_threadList target (act_of_step moved) member with old | made
      · simp [empty] at old
      · exact List.mem_filterMap.mpr ⟨_, List.mem_cons_self, made⟩
  | cons left recent ih =>
    cases run with
    | step run moved =>
      obtain ⟨-, target, moved⟩ := keptMachine_step moved
      rcases act_threadList target (act_of_step moved) member with old | made
      · obtain ⟨maker, earlier, made⟩ := List.mem_filterMap.mp (ih run old)
        exact List.mem_filterMap.mpr ⟨maker, List.mem_cons_of_mem _ earlier, made⟩
      · exact List.mem_filterMap.mpr ⟨_, List.mem_cons_self, made⟩

theorem rejects (run : keptMachine.Run past s)
    (cleaned : ∀ earlier acquired exec, ((acquired, exec) :: earlier) <:+ past →
      AcquiresClean acquired exec) : RejectsOld past s label := by
  rintro caller tid exitval t rfl moved recent acquired exec earlier fresh rfl acquires old renewed
  obtain ⟨-, rfl, -⟩ := State.acquires_iff.mp acquires
  have clean := cleaned earlier acquired exec (List.suffix_append ..) _ _ acquires
  have foreign : tid ∉ s.pt.threadList (s.curproc caller) :=
    fun member => renewed (own_tids run clean.threadList member)
  have valid : tid ≠ 0 := by
    obtain ⟨left, member, made⟩ := List.mem_filterMap.mp old
    refine (of_run run).valid (s.curproc caller) tid (List.mem_filterMap.mpr ⟨left, ?_, made⟩)
    exact List.mem_append_right _ (List.mem_cons_of_mem _ member)
  have unjoinable : s.joinable caller tid = false :=
    decide_eq_false fun passes => foreign passes.2.2.2
  have up := crashed_of_step moved
  have moved := act_of_step moved
  cases acted_of_act moved
  obtain ⟨null, -⟩ | same := State.sysThreadJoin_unjoinable unjoinable exitval
  · exact absurd null valid
  · rw [same]
    exact ⟨up, update_self .., update_self ..⟩

end Recyclable

/-- **A recycled pid starts clean**, and knows none of the threads that used it
before, exactly when no thread of an earlier process with that pid has exited
undetached while others were in `ThreadJoin` for it. -/
theorem recycled_clean_iff {past : List (State × Label)} {last : State}
    (run : keptMachine.Run past last) :
    (∀ earlier s label, ((s, label) :: earlier) <:+ past →
      AcquiresClean s label ∧ RejectsOld earlier s label) ↔
      ∀ earlier s label, ((s, label) :: earlier) <:+ past → NothingLeft earlier s label := by
  have clean_iff : ∀ earlier s label, ((s, label) :: earlier) <:+ past →
      (AcquiresClean s label ↔ NothingLeft earlier s label) := by
    intro earlier s label suffix
    have kept := Recyclable.of_run (run.before suffix).1
    refine forall_congr' fun pid => forall_congr' fun fresh => forall_congr' fun acquires => ?_
    obtain ⟨first, rfl, -⟩ := State.acquires_iff.mp acquires
    exact kept.clean_iff first
  constructor
  · intro clean earlier s label suffix
    exact (clean_iff earlier s label suffix).mp (clean earlier s label suffix).1
  · intro nothing earlier s label suffix
    have clean : ∀ earlier s label, ((s, label) :: earlier) <:+ past → AcquiresClean s label :=
      fun earlier s label suffix =>
        (clean_iff earlier s label suffix).mpr (nothing earlier s label suffix)
    refine ⟨clean earlier s label suffix, ?_⟩
    apply Recyclable.rejects (run.before suffix).1
    intro first acquired exec shorter
    exact clean first acquired exec (shorter.trans ((List.suffix_cons _ _).trans suffix))

/-- The second process with pid 2 asks for the main thread of the first. -/
theorem recycled_clean_iff_reused : ∃ past last, keptMachine.Run past last ∧
    last.history.incarnation 2 = 2 ∧ last.threads.returned 1 = -1 ∧
    ∀ earlier s label, ((s, label) :: earlier) <:+ past →
      AcquiresClean s label ∧ RejectsOld earlier s label := by
  have run := Machine.Run.start (M := keptMachine) booted_initial
  have run := (run.next (.exec 0 1 0 0 [] 2 1) rfl).next (.exit 1 7) rfl
  have run := (run.next (.waitChild 0 2 5) rfl).next (.exec 0 1 0 0 [] 3 1) rfl
  have run := run.next (.threadJoin 1 2 4) rfl
  refine ⟨_, _, run, rfl, rfl, (recycled_clean_iff run).mpr ?_⟩
  intro earlier s label suffix pid fresh _ left member
  have quiet : left.1.leavesPtcb left.2 = none := by
    have taken := suffix.subset (List.mem_cons_of_mem _ member)
    simp only [List.mem_cons, List.not_mem_nil, or_false] at taken
    rcases taken with rfl | rfl | rfl | rfl | rfl <;> rfl
  simp [quiet]

/-- In process 2, main waits for its other thread, and then both have exited. -/
theorem recycled_strewn : ¬ ∀ past last, keptMachine.Run past last →
    ∀ earlier s label, ((s, label) :: earlier) <:+ past →
      AcquiresClean s label ∧ RejectsOld earlier s label := by
  intro every
  have run := Machine.Run.start (M := keptMachine) booted_initial
  have run := (run.next (.exec 0 1 0 0 [] 2 1) rfl).next (.createThread 1 1 0 0 3 2) rfl
  have run := (run.next (.threadJoin 1 3 4) rfl).next (.threadExit 2 7) rfl
  have run := (run.next (.resume 1 0) rfl).next (.exit 1 0) rfl
  have run := (run.next (.waitChild 0 2 5) rfl).next (.exec 0 1 0 0 [] 4 1) rfl
  obtain ⟨clean, -⟩ := every _ _ run _ _ _ (List.suffix_refl _)
  cases (clean 2 _ rfl).threadList

end TinyOs.Kernel
