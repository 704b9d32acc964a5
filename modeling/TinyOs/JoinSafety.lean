import TinyOs.Joins
import TinyOs.ProcessSafety

/-! Exit values over whole runs: what `ThreadJoin` returns and leaves in
`*exitval` when its target has exited. -/
namespace TinyOs.Kernel
open Function Library

/-- What the calls that neither make, join nor end a thread leave alone. -/
def State.joinBase (s : State) : PtcbHeap × (Pid → List PtcbRef) × List JoinReturn :=
  (s.heap, s.pt.threadList, s.history.joined)

namespace State
variable {s t : State}

theorem joinView_same (base : t.joinBase = s.joinBase) (roster : t.roster = s.roster) :
    t.joinView = s.joinView := by
  simp only [joinBase, Prod.mk.injEq] at base
  obtain ⟨heap, threadList, joined⟩ := base
  simp only [joinView, heap, threadList, joined, roster]

theorem joinView_become {thread : TcbRef} {status : Status} (base : t.joinBase = s.joinBase)
    (becomes : t.roster = s.roster.become thread status) :
    t.joinView = s.joinView.become thread status := by
  simp only [joinBase, Prod.mk.injEq] at base
  obtain ⟨heap, threadList, joined⟩ := base
  simp only [joinView, JoinView.become, heap, threadList, joined, becomes]

theorem joinBase_openStream (thread : TcbRef) (device : Device) :
    (s.openStream thread device).joinBase = s.joinBase := by
  obtain same | ⟨fid, fcb, rest, -, -, -, same | same⟩ := openStream_cases (s := s) thread device
  all_goals
    rw [same]
    rfl

theorem joinBase_deviceRead (thread : TcbRef) (fcb : FcbRef) (size : BitVec 32) (ready : Nat)
    (device : Device) : (s.deviceRead thread fcb size ready device).joinBase = s.joinBase := by
  obtain same | ⟨count, same⟩ := deviceRead_cases (s := s) thread fcb size ready device
  all_goals
    rw [same]
    rfl

theorem joinBase_deviceWrite (thread : TcbRef) (fcb : FcbRef) (size : BitVec 32) (ready : Nat)
    (device : Device) : (s.deviceWrite thread fcb size ready device).joinBase = s.joinBase := by
  obtain ⟨writer, same | ⟨count, same⟩⟩ :=
    deviceWrite_cases (s := s) thread fcb size ready device
  all_goals
    rw [same]
    rfl

theorem joinBase_sysRead (thread : TcbRef) (fd : Int) (size : BitVec 32) (ready : Nat) :
    (s.sysRead thread fd size ready).joinBase = s.joinBase := by
  obtain same | ⟨fid, fcb, -, -, same⟩ := sysRead_cases (s := s) thread fd size ready
  · rw [same]
    rfl
  · rw [same, joinBase_deviceRead]
    rfl

theorem joinBase_sysWrite (thread : TcbRef) (fd : Int) (size : BitVec 32) (ready : Nat) :
    (s.sysWrite thread fd size ready).joinBase = s.joinBase := by
  obtain same | ⟨fid, fcb, -, -, same⟩ := sysWrite_cases (s := s) thread fd size ready
  · rw [same]
    rfl
  · rw [same, joinBase_deviceWrite]
    rfl

theorem joinBase_sysClose (thread : TcbRef) (fd : Int) :
    (s.sysClose thread fd).joinBase = s.joinBase := by
  obtain ⟨value, same⟩ | ⟨fid, fcb, -, -, same⟩ := sysClose_cases (s := s) thread fd
  all_goals
    rw [same]
    rfl

theorem joinBase_sysDup2 (thread : TcbRef) (oldfd newfd : Int) :
    (s.sysDup2 thread oldfd newfd).joinBase = s.joinBase := by
  obtain ⟨value, same⟩ | ⟨old, new, fcb, -, -, -, ⟨-, same⟩ | ⟨other, -, -, same⟩⟩ :=
    sysDup2_cases (s := s) thread oldfd newfd
  all_goals
    rw [same]
    rfl

theorem joinBase_rxReady : s.rxReady.joinBase = s.joinBase := by
  unfold rxReady
  exact foldl_same joinBase (fun s devno => by rfl) _ s

theorem joinBase_cleanUpFidt (pid : Pid) : (s.cleanUpFidt pid).joinBase = s.joinBase := by
  refine foldl_same joinBase (fun s fid => ?_) _ s
  unfold closeFid
  split <;> rfl

theorem joinBase_reparent (pid : Pid) (children : List Pid) :
    (s.reparent pid children).joinBase = s.joinBase := by
  induction children generalizing s with
  | nil => rfl
  | cons child rest ih =>
    rw [reparent, ih]
    rfl

theorem joinBase_terminate {pid : Pid} {exitval : Int} (ended : s.terminate pid exitval = some t) :
    t.joinBase = s.joinBase := by
  unfold terminate at ended
  dsimp only at ended
  split at ended
  · cases ended
  · obtain rfl := Option.some.inj ended
    have adopted : ∀ s : State, (s.adoptExited pid).joinBase = s.joinBase := by
      intro s
      unfold adoptExited
      split <;> rfl
    have told : ∀ s : State, (s.tellParent pid).joinBase = s.joinBase := by
      intro s
      unfold tellParent
      split <;> rfl
    exact (told _).trans ((adopted _).trans ((joinBase_reparent ..).trans (joinBase_cleanUpFidt pid)))

/-- Only the PTCB of a thread that exits is changed. -/
theorem joinView_sysThreadExit {thread : TcbRef} {exitval : Int}
    (exited : s.sysThreadExit thread exitval = some t) : t.joinView =
      ((s.exitPtcb (s.threads.ptcb thread) exitval).kernelSleepExited thread).joinView := by
  unfold sysThreadExit at exited
  dsimp only at exited
  split at exited
  · obtain ⟨ended, terminated, rfl⟩ := Option.map_eq_some_iff.mp exited
    have same := joinView_same (joinBase_terminate terminated) (roster_terminate terminated)
    exact congrArg (fun v : JoinView => v.leave thread) same
  · obtain rfl := Option.some.inj exited
    rfl

theorem joinBase_reapExited (child : Pid) (status : Pointer) :
    (s.reapExited child status).joinBase = s.joinBase := by
  unfold reapExited
  split <;> rfl

theorem joinView_reapExited (child : Pid) (status : Pointer) :
    (s.reapExited child status).joinView = s.joinView :=
  joinView_same (joinBase_reapExited child status) (roster_reapExited child status)

theorem joinBase_specificLoop (thread : TcbRef) (child : Pid) (status : Pointer) :
    (s.specificLoop thread child status).joinBase = s.joinBase := by
  obtain ⟨-, same⟩ | ⟨-, same⟩ := specificLoop_cases (s := s) thread child status
  all_goals
    rw [same]
    rfl

theorem joinBase_anyLoop (thread : TcbRef) (status : Pointer) :
    (s.anyLoop thread status).joinBase = s.joinBase := by
  obtain ⟨-, same⟩ | ⟨child, rest, -, same⟩ := anyLoop_cases (s := s) thread status
  · rw [same]
    rfl
  · rw [same]
    exact joinBase_reapExited (s := s) child status

theorem joinBase_sysWaitChild (thread : TcbRef) (cpid : Int) (status : Pointer) :
    (s.sysWaitChild thread cpid status).joinBase = s.joinBase := by
  obtain same | ⟨child, -, -, -, same⟩ | ⟨-, -, same⟩ :=
    sysWaitChild_cases (s := s) thread cpid status
  · rw [same]
    rfl
  · rw [same, joinBase_specificLoop]
  · rw [same, joinBase_anyLoop]

/-- The target has not been detached, so the return is recorded. -/
theorem recordJoin_joined {serial : Nat} (undetached : s.heap.detachedOf serial = false)
    (exitval : Pointer) (result : Option Int) :
    (s.recordJoin serial exitval result).history.joined =
      { serial := serial, exitedWith := s.heap.exitOf serial, exitval := exitval
        stored := s.memory exitval, result := result } :: s.history.joined := by
  rw [recordJoin, if_neg (by simp [undetached])]

theorem recordJoin_detached {serial : Nat} (detached : s.heap.detachedOf serial = true)
    (exitval : Pointer) (result : Option Int) : s.recordJoin serial exitval result = s :=
  if_pos detached

theorem joinBase_inherit (curproc newproc : Pid) :
    (s.inherit curproc newproc).joinBase = s.joinBase := by
  unfold inherit
  split
  · rfl
  · refine foldl_same joinBase (fun s fid => ?_) _ (s.addChild curproc newproc)
    unfold inheritFid
    dsimp only
    split <;> rfl

end State

/-- The call succeeded, and the exit value is where the caller wants it. -/
def JoinReturn.Delivered (record : JoinReturn) : Prop :=
  record.result = some 0 ∧ (record.exitval ≠ 0 → record.exitedWith = some record.stored)

/-- Every join of a thread that was not detached has delivered, and all joins of
one thread the same value. -/
structure JoinsDeliver (s : State) : Prop where
  delivered : ∀ record ∈ s.history.joined, record.Delivered
  same : ∀ a ∈ s.history.joined, ∀ b ∈ s.history.joined, a.serial = b.serial → a.exitval ≠ 0 →
    b.exitval ≠ 0 → a.stored = b.stored

/-- A join that finds its target exited happens to be passed a pointer to what
it should have stored there. -/
def State.joinKept (s : State) : Label → Bool
  | .threadJoin thread tid exitval => s.joinable thread tid = true ∧ s.heap.exited tid = true →
    exitval ≠ 0 ∧ s.memory exitval = 0 ∧ s.heap.exitval tid = 0
  | .resume thread _ =>
    match s.threads.status thread with
    | .waiting (.join target exitval serial) =>
      s.heap.exited target = true ∧ s.heap.detachedOf serial = false →
        exitval = 0 ∨ s.memory exitval = s.heap.exitval target
    | _ => true
  | _ => true

/-- What a step does to the records: it adds at most one. -/
def Recorded (s t : State) (label : Label) : Prop :=
  t.history.joined = s.history.joined ∧ s.joinKept label = true ∨
  ∃ record, t.history.joined = record :: s.history.joined ∧
    (record.Delivered ↔ s.joinKept label = true)

namespace Delivery
variable {s t : State} {thread : TcbRef} {label : Label}

/-- A step that concerns no join. -/
theorem quiet (delivery : Delivery t.joinView) (base : t.joinView.joined = s.joinView.joined)
    (kept : s.joinKept label = true) : Delivery t.joinView ∧ Recorded s t label :=
  ⟨delivery, .inl ⟨base, kept⟩⟩

theorem idle_user (user : s.threads.status thread = .user) (ptcb : PtcbRef) (serial : Nat) :
    (s.threads.status thread).joins ptcb serial = false := by
  rw [user]
  rfl

/-- A thread that joins nobody goes on to do something else. -/
theorem turn (inv : Delivery s.joinView) {status : Status} (base : t.joinBase = s.joinBase)
    (becomes : t.roster = s.roster.become thread status)
    (idle : ∀ ptcb serial, (s.threads.status thread).joins ptcb serial = false)
    (still : ∀ ptcb serial, status.joins ptcb serial = false) (kept : s.joinKept label = true) :
    Delivery t.joinView ∧ Recorded s t label := by
  have view := State.joinView_become base becomes
  refine quiet ?_ (by rw [view]; rfl) kept
  rw [view]
  exact inv.become (fun ptcb _ serial => idle ptcb serial) still

theorem sysThreadExit (inv : Delivery s.joinView) (live : thread ∈ s.threads.live)
    (idle : ∀ ptcb serial, (s.threads.status thread).joins ptcb serial = false) {exitval : Int}
    (exited : s.sysThreadExit thread exitval = some t) :
    Delivery t.joinView ∧ t.joinView.joined = s.joinView.joined := by
  have view := State.joinView_sysThreadExit exited
  have left := inv.exit live idle exitval
  refine ⟨view ▸ left, ?_⟩
  rw [view]
  obtain ⟨-, same⟩ | ⟨-, -, same⟩ := State.exitPtcb_cases (s := s) (s.threads.ptcb thread) exitval
  all_goals
    rw [same]
    rfl

theorem exitRounds (inv : Delivery s.joinView) (live : thread ∈ s.joinView.roster.live)
    (idle : ∀ ptcb serial, (s.joinView.roster.status thread).joins ptcb serial = false)
    {fuel : Nat} {exitval : Int} (exits : State.exitRounds fuel s thread exitval = some t) :
    Delivery t.joinView ∧ t.joinView.joined = s.joinView.joined := by
  induction fuel generalizing s with
  | zero => cases exits
  | succ fuel ih =>
    unfold State.exitRounds at exits
    split at exits
    · exact inv.sysThreadExit live idle exits
    · split at exits
      · obtain rfl := Option.some.inj exits
        exact ⟨inv.become (fun ptcb _ serial => idle ptcb serial) fun _ _ => rfl, rfl⟩
      next child _ _ =>
        rw [← State.joinView_reapExited (s := s) child 0] at inv live idle ⊢
        exact ih inv live idle exits

theorem exitResume (inv : Delivery s.joinView) (live : thread ∈ s.joinView.roster.live)
    (idle : ∀ ptcb serial, (s.joinView.roster.status thread).joins ptcb serial = false)
    {exitval : Int} (exits : s.exitResume thread exitval = some t) :
    Delivery t.joinView ∧ t.joinView.joined = s.joinView.joined := by
  unfold State.exitResume at exits
  split at exits
  · obtain rfl := Option.some.inj exits
    exact ⟨inv.become (fun ptcb _ serial => idle ptcb serial) fun _ _ => rfl, rfl⟩
  next child _ _ =>
    rw [← State.joinView_reapExited (s := s) child 0] at inv live idle ⊢
    exact inv.exitRounds live idle exits

theorem exec (inv : Delivery s.joinView) {ptcb : PtcbRef} {tcb : TcbRef}
    (fresh : s.fresh ptcb tcb = true) (curproc : Pid) (call : Task) (argl : Int) (args : Pointer)
    (bytes : List (BitVec 8)) :
    Delivery (s.exec curproc call argl args bytes ptcb tcb).2.joinView ∧
      (s.exec curproc call argl args bytes ptcb tcb).2.joinView.joined = s.joinView.joined := by
  obtain ⟨-, unused, small, new⟩ := State.fresh_iff.mp fresh
  cases first : s.pt.pcbFreelist with
  | none =>
    rw [State.exec_full first]
    exact ⟨inv, rfl⟩
  | some pid =>
    unfold State.exec State.acquirePcb
    simp only [first]
    have view : (((s.takePcb pid).inherit curproc pid).setTask pid call argl args bytes).joinView =
        s.joinView :=
      State.joinView_same (State.joinBase_inherit (s := s.takePcb pid) curproc pid)
        (State.roster_inherit (s := s.takePcb pid) curproc pid)
    generalize ((s.takePcb pid).inherit curproc pid).setTask pid call argl args bytes = s' at view
    have heap : s'.heap = s.heap := congrArg JoinView.heap view
    have lives : s'.threads.live = s.threads.live := congrArg (fun v => v.roster.live) view
    have joined : s'.history.joined = s.history.joined := congrArg JoinView.joined view
    by_cases task : call ≠ 0
    · rw [if_pos task]
      refine ⟨Delivery.create (view ▸ inv) ?_ small ?_ pid call argl args, joined⟩
      · rw [heap]
        exact unused
      · rw [lives]
        exact new
    · rw [if_neg task]
      exact ⟨view ▸ inv, joined⟩

theorem sysExec (inv : Delivery s.joinView) (user : s.threads.status thread = .user)
    {ptcb : PtcbRef} {tcb : TcbRef} (fresh : s.fresh ptcb tcb = true) (call : Task) (argl : Int)
    (args : Pointer) (bytes : List (BitVec 8)) :
    Delivery (s.sysExec thread call argl args bytes ptcb tcb).joinView ∧
      (s.sysExec thread call argl args bytes ptcb tcb).joinView.joined = s.joinView.joined := by
  obtain ⟨made, joined⟩ := inv.exec fresh (s.curproc thread) call argl args bytes
  refine ⟨made.become ?_ fun _ _ => rfl, joined⟩
  intro other _ serial
  change ((s.exec (s.curproc thread) call argl args bytes ptcb tcb).2.roster.status thread).joins
    other serial = false
  obtain same | ⟨pid, same⟩ :=
    State.roster_exec (s := s) (s.curproc thread) call argl args bytes ptcb tcb
  · rw [same]
    exact idle_user user other serial
  · rw [same]
    simp only [Roster.spawn, update_apply]
    split
    · rfl
    · exact idle_user user other serial

theorem sysThreadJoin (inv : Delivery s.joinView) (live : thread ∈ s.threads.live)
    (user : s.threads.status thread = .user) (tid : PtcbRef) (exitval : Pointer) :
    Delivery (s.sysThreadJoin thread tid exitval).joinView ∧
      Recorded s (s.sysThreadJoin thread tid exitval) (.threadJoin thread tid exitval) := by
  have idle := idle_user user
  cases joinable : s.joinable thread tid
  · have kept : s.joinKept (.threadJoin thread tid exitval) = true := by
      simp [State.joinKept, joinable]
    obtain ⟨-, same⟩ | same := State.sysThreadJoin_unjoinable joinable exitval
    · rw [same]
      exact quiet inv rfl kept
    · rw [same]
      exact inv.turn rfl (State.roster_ret ..) idle (fun _ _ => rfl) kept
  · obtain ⟨-, undetached, -, member⟩ := of_decide_eq_true joinable
    have used : s.heap.allocated tid = true := inv.listed (s.curproc thread) tid member
    have undetached_of : s.heap.detachedOf (s.heap.serial tid) = false :=
      (inv.numbered.detached tid used).trans undetached
    obtain ⟨exited, null, same⟩ | ⟨exited, valid, same⟩ | ⟨running, same⟩ :=
      State.sysThreadJoin_joinable joinable exitval
    all_goals rw [same]
    · have value : s.heap.exitOf (s.heap.serial tid) = some (s.heap.exitval tid) :=
        inv.numbered.exited tid used exited
      refine ⟨inv.record (fun _ => ⟨_, value⟩) exitval none,
        .inr ⟨_, State.recordJoin_joined undetached_of exitval none, ?_⟩⟩
      simp [State.joinKept, JoinReturn.Delivered, joinable, exited, null]
    · have value : s.heap.exitOf (s.heap.serial tid) = some (s.heap.exitval tid) :=
        inv.numbered.exited tid used exited
      have recorded := inv.record (fun _ => ⟨_, value⟩) exitval (some (s.memory exitval))
      refine ⟨recorded.become ?_ fun _ _ => rfl,
        .inr ⟨_, State.recordJoin_joined undetached_of exitval _, ?_⟩⟩
      · intro ptcb _ serial
        change ((State.recordJoin ..).roster.status thread).joins ptcb serial = false
        rw [State.roster_recordJoin]
        exact idle ptcb serial
      · simp only [State.joinKept, JoinReturn.Delivered, joinable, exited, value, true_and,
          forall_const, decide_eq_true_eq, Option.some.injEq]
        constructor
        · rintro ⟨zero, stored⟩
          exact ⟨valid, zero, (stored valid).trans zero⟩
        · rintro ⟨-, zero, exit⟩
          exact ⟨zero, fun _ => exit.trans zero.symm⟩
    · refine quiet (inv.block live user used exitval) rfl ?_
      simp [State.joinKept, running]

/-- A joiner that does not find its target detached waits again, or returns. -/
theorem joinLoop (inv : Delivery s.joinView) (ready : Nat) {target : PtcbRef} {exitval : Pointer}
    {serial : Nat} (live : thread ∈ s.threads.live)
    (waits : s.threads.status thread = .waiting (.join target exitval serial))
    (undetached : s.heap.detached target = false) :
    Delivery (s.joinLoop thread target exitval serial).joinView ∧
      Recorded s (s.joinLoop thread target exitval serial) (.resume thread ready) := by
  obtain ⟨running, same⟩ | ⟨exited, same⟩ :=
    State.joinLoop_undetached undetached thread exitval serial
  all_goals rw [same]
  · have view : (s.kernelWait thread (.join target exitval serial)).joinView = s.joinView :=
      State.joinView_same rfl ((State.roster_kernelWait ..).trans (Roster.become_same waits))
    refine quiet (by rw [view]; exact inv) rfl ?_
    simp [State.joinKept, waits, running]
  · -- A joiner whose own target was detached may wait on a later one.
    have known : s.heap.detachedOf serial = false →
        s.heap.exitOf serial = some (s.heap.exitval target) := by
      intro undetached_of
      obtain ⟨used, rfl⟩ := (inv.awaited thread target exitval serial ⟨live, waits⟩).2 undetached_of
      exact inv.numbered.exited target used exited
    have dropped := inv.unref exited
    obtain ⟨refCount, unref⟩ := State.unrefPtcb_eq (s := s) target
    rw [unref] at dropped ⊢
    have recorded := dropped.record (fun undetached_of => ⟨_, known undetached_of⟩) exitval (some 0)
    refine ⟨recorded.become ?_ fun _ _ => rfl, ?_⟩
    · intro ptcb running number
      change (State.recordJoin ..).heap.exited ptcb = false at running
      rw [State.recordJoin_heap] at running
      change ((State.recordJoin ..).roster.status thread).joins ptcb number = false
      rw [State.roster_recordJoin]
      have apart : target ≠ ptcb := by
        rintro rfl
        cases exited.symm.trans running
      change (s.threads.status thread).joins ptcb number = false
      simp [waits, Status.joins, apart]
    · cases detached_of : s.heap.detachedOf serial
      · refine .inr ⟨_, State.recordJoin_joined (s := { s with heap.refCount := refCount }) detached_of
          exitval (some 0), ?_⟩
        simp only [State.joinKept, JoinReturn.Delivered, waits, exited, detached_of,
          known detached_of, true_and, forall_const, and_self, decide_eq_true_eq,
          Option.some.injEq]
        constructor
        · intro stored
          by_cases null : exitval = 0
          · exact .inl null
          · exact .inr (stored null).symm
        · rintro (null | stored) valid
          · exact absurd null valid
          · exact stored.symm
      · refine .inl ⟨?_, by simp [State.joinKept, waits, detached_of]⟩
        have unrecorded := State.recordJoin_detached (s := { s with heap.refCount := refCount })
          detached_of exitval (some 0)
        exact (congrArg (fun s : State => s.history.joined) unrecorded).trans rfl

/-- A thread that goes on after a `kernel_wait`. -/
theorem resume {caller : TcbRef} {ready : Nat} (inv : Delivery s.joinView)
    (target : s.targetKept (.resume caller ready) = true)
    (moved : Kernel.act s (.resume caller ready) = some t) :
    Delivery t.joinView ∧ Recorded s t (.resume caller ready) := by
  cases acted_of_act moved with
  | resumeJoin _ _ target' exitval serial back =>
    have undetached := targetKept_iff.mp target caller ready target' exitval serial rfl back.waits
    exact inv.joinLoop ready back.live back.waits undetached
  | resumeSpecific _ _ child status back =>
    obtain ⟨become, becomes, rfl | ⟨rfl, -⟩⟩ :=
      State.roster_specificLoop (s := s) caller child status
    all_goals
      exact inv.turn (State.joinBase_specificLoop ..) becomes
        (fun _ _ => by rw [back.waits]; rfl) (fun _ _ => rfl) (by simp [State.joinKept, back.waits])
  | resumeAny _ _ status back =>
    obtain ⟨become, becomes, rfl | rfl⟩ := State.roster_anyLoop (s := s) caller status
    all_goals
      exact inv.turn (State.joinBase_anyLoop ..) becomes
        (fun _ _ => by rw [back.waits]; rfl) (fun _ _ => rfl) (by simp [State.joinKept, back.waits])
  | resumeExit _ _ exitval back resumes =>
    have idle : ∀ ptcb serial, (s.threads.status caller).joins ptcb serial = false :=
      fun _ _ => by rw [back.waits]; rfl
    have left := inv.exitResume back.live idle resumes
    exact quiet left.1 left.2 (by simp [State.joinKept, back.waits])
  | resumeRead _ _ fcb device size back =>
    obtain ⟨become, becomes, rfl | rfl⟩ :=
      State.roster_deviceRead (s := s) caller fcb size ready device
    all_goals
      exact inv.turn (State.joinBase_deviceRead ..) becomes
        (fun _ _ => by rw [back.waits]; rfl) (fun _ _ => rfl) (by simp [State.joinKept, back.waits])

theorem act (inv : Delivery s.joinView) (target : s.targetKept label = true)
    (moved : act s label = some t) : Delivery t.joinView ∧ Recorded s t label := by
  cases acted_of_act moved with
  | exec _ call argl args bytes _ _ calls fresh =>
    have made := inv.sysExec (State.calls_iff.mp calls).2.1 fresh call argl args bytes
    exact quiet made.1 made.2 rfl
  | createThread caller task argl args _ tcb calls fresh =>
    obtain ⟨-, unused, small, new⟩ := State.fresh_iff.mp fresh
    have made := inv.create unused small new (s.curproc caller) task argl args
    refine quiet (made.become (fun other _ serial => ?_) fun _ _ => rfl) rfl rfl
    change (update s.threads.status tcb .user caller).joins other serial = false
    rw [update_apply, (State.calls_iff.mp calls).2.1, ite_self]
    rfl
  | threadJoin _ tid exitval calls =>
    obtain ⟨live, user, -⟩ := State.calls_iff.mp calls
    exact inv.sysThreadJoin live user tid exitval
  | threadDetach _ tid calls =>
    have idle := idle_user (State.calls_iff.mp calls).2.1
    unfold State.sysThreadDetach
    split
    · exact quiet inv rfl rfl
    · split
      · exact quiet ((inv.detach tid).become (fun ptcb _ serial => idle ptcb serial) fun _ _ => rfl)
          rfl rfl
      · exact inv.turn rfl (State.roster_ret ..) idle (fun _ _ => rfl) rfl
  | threadExit _ _ calls exited =>
    obtain ⟨live, user, -⟩ := State.calls_iff.mp calls
    have left := inv.sysThreadExit live (idle_user user) exited
    exact quiet left.1 left.2 rfl
  | exit _ _ calls exited =>
    obtain ⟨live, user, -⟩ := State.calls_iff.mp calls
    have exits := exited
    have left : Delivery t.joinView ∧ t.joinView.joined = s.joinView.joined := by
      unfold State.sysExit at exits
      split at exits
      · exact inv.exitRounds live (idle_user user) exits
      · exact inv.sysThreadExit live (idle_user user) exits
    exact quiet left.1 left.2 rfl
  | waitChild caller cpid status calls =>
    have idle := idle_user (State.calls_iff.mp calls).2.1
    obtain ⟨become, becomes, user | any | ⟨child, specific, -⟩⟩ :=
      State.roster_sysWaitChild (s := s) caller cpid status
    all_goals
      refine inv.turn (State.joinBase_sysWaitChild ..) becomes idle ?_ rfl
      subst become
      exact fun _ _ => rfl
  | openNull _ calls =>
    exact inv.turn (State.joinBase_openStream ..) (State.roster_openStream ..)
      (idle_user (State.calls_iff.mp calls).2.1) (fun _ _ => rfl) rfl
  | openTerminal _ _ calls =>
    exact inv.turn (State.joinBase_openStream ..) (State.roster_openStream ..)
      (idle_user (State.calls_iff.mp calls).2.1) (fun _ _ => rfl) rfl
  | close _ _ calls =>
    exact inv.turn (State.joinBase_sysClose ..) (State.roster_sysClose ..)
      (idle_user (State.calls_iff.mp calls).2.1) (fun _ _ => rfl) rfl
  | dup2 _ _ _ calls =>
    exact inv.turn (State.joinBase_sysDup2 ..) (State.roster_sysDup2 ..)
      (idle_user (State.calls_iff.mp calls).2.1) (fun _ _ => rfl) rfl
  | read caller fd size ready calls =>
    obtain ⟨become, becomes, rfl | ⟨fcb, device, rfl⟩⟩ :=
      State.roster_sysRead (s := s) caller fd size ready
    all_goals
      exact inv.turn (State.joinBase_sysRead ..) becomes
        (idle_user (State.calls_iff.mp calls).2.1) (fun _ _ => rfl) rfl
  | write caller fd size ready calls =>
    obtain ⟨become, becomes, rfl | ⟨fcb, device, rfl⟩⟩ :=
      State.roster_sysWrite (s := s) caller fd size ready
    all_goals
      exact inv.turn (State.joinBase_sysWrite ..) becomes
        (idle_user (State.calls_iff.mp calls).2.1) (fun _ _ => rfl) rfl
  | resumeSpecific | resumeAny | resumeExit | resumeJoin | resumeRead =>
    exact inv.resume target moved
  | poll caller ready fcb device size _ writes =>
    obtain ⟨become, becomes, rfl | rfl⟩ :=
      State.roster_deviceWrite (s := s) caller fcb size ready device
    all_goals
      exact inv.turn (State.joinBase_deviceWrite ..) becomes
        (fun _ _ => by rw [writes]; rfl) (fun _ _ => rfl) rfl
  | rxReady =>
    have view := State.joinView_same (State.joinBase_rxReady (s := s)) State.roster_rxReady
    refine quiet ?_ (by rw [view]) rfl
    rw [view]
    exact inv
  | store => exact quiet inv rfl rfl

theorem blank (heap : PtcbHeap) (threads : ThreadTable) (stream : FcbRef → Device)
    (memory : Pointer → Int) (serialPorts : Nat) :
    Delivery (initialized heap threads stream memory serialPorts).joinView where
  numbered := ⟨nofun, nofun, nofun, nofun, nofun, fun _ _ => ⟨rfl, rfl⟩⟩
  live_nodup := List.nodup_nil
  live_small := nofun
  owned := nofun
  owned_once := nofun
  listed := nofun
  listed_nodup := fun _ => List.nodup_nil
  awaited := fun _ _ _ _ awaits => absurd awaits.1 List.not_mem_nil
  counted := nofun
  recorded := nofun

/-- A process without a task has no thread. -/
theorem joinView_exec_null (s : State) (argl : Int) (args : Pointer) (bytes : List (BitVec 8))
    (ptcb : PtcbRef) (tcb : TcbRef) :
    (s.exec 0 0 argl args bytes ptcb tcb).2.joinView = s.joinView := by
  cases first : s.pt.pcbFreelist with
  | none => rw [State.exec_full first]
  | some pid =>
    unfold State.exec State.acquirePcb
    simp only [first]
    exact State.joinView_same (State.joinBase_inherit (s := s.takePcb pid) 0 pid)
      (State.roster_inherit (s := s.takePcb pid) 0 pid)

theorem boot (booted : machine.initial s) : Delivery s.joinView ∧ s.history.joined = [] := by
  obtain ⟨heap, threads, stream, memory, serialPorts, call, argl, args, bytes, ptcb, tcb, valid,
    small, rfl⟩ := booted
  have blank := blank heap threads stream memory serialPorts
  have null := joinView_exec_null (initialized heap threads stream memory serialPorts) 0 0 [] 0 0
  have allocated := congrArg (fun v : JoinView => v.heap.allocated) null
  have live : (State.exec _ 0 0 0 0 [] 0 0).2.threads.live = [] :=
    congrArg (fun v : JoinView => v.roster.live) null
  have joined := congrArg JoinView.joined null
  rw [← null] at blank
  change Delivery (State.exec _ 0 call argl args bytes ptcb tcb).2.joinView ∧
    (State.exec _ 0 call argl args bytes ptcb tcb).2.joinView.joined = []
  generalize ((initialized heap threads stream memory serialPorts).exec 0 0 0 0 [] 0 0).2 = s
    at blank allocated live joined
  have fresh : s.fresh ptcb tcb = true :=
    State.fresh_iff.mpr ⟨valid, congrFun allocated ptcb, small,
      by simp [live]⟩
  have made := blank.exec fresh 0 call argl args bytes
  exact ⟨made.1, made.2.trans joined⟩

end Delivery

/-- **Joins deliver the exit value.** In a run in which no joiner resumes on a
detached target this holds in all states exactly when every join that finds
its target exited is passed a pointer to the right value already. -/
theorem joins_deliver_iff {past : List (State × Label)} {last : State}
    (run : Machine.Run (machine.restrict State.targetKept) past last) :
    (∀ s, Machine.Visits past last s → JoinsDeliver s) ↔
      ∀ left ∈ past, left.1.joinKept left.2 = true := by
  refine Machine.good_iff_allowed (M := machine.restrict State.targetKept)
    (fun s label => s.joinKept label = true)
    (fun s => Delivery s.joinView ∧ ∀ record ∈ s.history.joined, record.Delivered) ?_ ?_ ?_ ?_ run
  · intro s booted
    obtain ⟨inv, none⟩ := Delivery.boot booted
    exact ⟨inv, by simp [none]⟩
  · rintro s label t ⟨inv, delivered⟩ kept moved
    obtain ⟨target, moved⟩ := Machine.restrict_step.mp moved
    obtain ⟨after, ⟨same, -⟩ | ⟨record, more, good⟩⟩ := inv.act target (act_of_step moved)
    · exact ⟨after, same ▸ delivered⟩
    · refine ⟨after, ?_⟩
      rw [more]
      exact List.forall_mem_cons.mpr ⟨good.mpr kept, delivered⟩
  · rintro s ⟨inv, delivered⟩
    refine ⟨delivered, ?_⟩
    intro a member_a b member_b serial valid_a valid_b
    obtain ⟨value, known_a, exit_a⟩ := inv.recorded a member_a
    obtain ⟨other, known_b, exit_b⟩ := inv.recorded b member_b
    -- Both values are the one on record for the thread.
    have one : value = other := by
      rw [serial, known_b] at known_a
      exact (Option.some.inj known_a).symm
    have stored_a := exit_a.symm.trans ((delivered a member_a).2 valid_a)
    have stored_b := exit_b.symm.trans ((delivered b member_b).2 valid_b)
    exact (Option.some.inj stored_a).symm.trans (one.trans (Option.some.inj stored_b))
  · rintro s label t ⟨inv, -⟩ missed moved after
    obtain ⟨target, moved⟩ := Machine.restrict_step.mp moved
    obtain ⟨-, ⟨-, kept⟩ | ⟨record, more, good⟩⟩ := inv.act target (act_of_step moved)
    · exact missed kept
    · refine missed (good.mp (after.delivered record ?_))
      rw [more]
      exact List.mem_cons_self

/-- The joiner has put the exit value there itself. -/
theorem joins_deliver_iff_stored : ∃ past last,
    Machine.Run (machine.restrict State.targetKept) past last ∧
    last.history.joined = [⟨1, some 7, 4, 7, some 0⟩] ∧
    ∀ s, Machine.Visits past last s → JoinsDeliver s := by
  have run := Machine.Run.start (M := machine.restrict State.targetKept) booted_initial
  have run := ((((run.next (.createThread 0 1 0 0 2 1) rfl).next (.store 4 7) rfl).next
    (.threadJoin 0 2 4) rfl).next (.threadExit 1 7) rfl).next (.resume 0 0) rfl
  refine ⟨_, _, run, rfl, (joins_deliver_iff run).mpr ?_⟩
  simp only [List.forall_mem_cons]
  exact ⟨rfl, rfl, rfl, rfl, rfl, nofun⟩

/-- A thread that main joins exits with 7. -/
def joinedThread : List Label :=
  [.createThread 0 1 0 0 2 1, .threadJoin 0 2 4, .threadExit 1 7, .resume 0 0]

theorem exitval_missing : ¬ ∀ s,
    Machine.Reachable (machine.restrict State.targetKept) s → JoinsDeliver s := by
  intro every
  have reached := Machine.Reachable.start (M := machine.restrict State.targetKept) booted_initial
  have delivered := (every _ (reached.replay joinedThread rfl)).delivered
  have stored := (delivered ⟨1, some 7, 4, 0, some 0⟩ List.mem_cons_self).2 (by decide)
  cases stored

end TinyOs.Kernel
