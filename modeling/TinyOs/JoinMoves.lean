import TinyOs.JoinSafety
import TinyOs.KernelExit

/-! All that a step can do to the PTCBs and to the threads that own or join
them, for whatever such steps keep. -/
namespace TinyOs.Kernel
open Function Library

/-- What a step does to the part that joins and exits work on, and which thread
it ends. `Leaves` is what is known of a joiner that leaves its loop. -/
inductive JoinMove (Leaves : TcbRef → PtcbRef → Nat → Prop) :
    JoinView → Option TcbRef → JoinView → Prop where
  | quiet {v : JoinView} : JoinMove Leaves v none v
  | become {v : JoinView} {thread : TcbRef} {status : Status}
      (idle : ∀ ptcb serial, (v.roster.status thread).joins ptcb serial = false)
      (still : ∀ ptcb serial, status.joins ptcb serial = false) :
      JoinMove Leaves v none (v.become thread status)
  | create {s : State} {caller tcb : TcbRef} {ptcb : PtcbRef} (pid : Pid) (task : Task)
      (argl : Int) (args : Pointer) (user : s.threads.status caller = .user)
      (fresh : s.fresh ptcb tcb = true) :
      JoinMove Leaves s.joinView none
        ((s.createPtcb pid task argl args ptcb tcb).joinView.become caller .user)
  | detach {s : State} {caller : TcbRef} (tid : PtcbRef)
      (user : s.threads.status caller = .user) :
      JoinMove Leaves s.joinView none ((s.markDetached tid).joinView.become caller .user)
  | block {s : State} {caller : TcbRef} {tid : PtcbRef} (exitval : Pointer)
      (live : caller ∈ s.threads.live) (user : s.threads.status caller = .user)
      (joinable : s.joinable caller tid = true) (running : s.heap.exited tid = false) :
      JoinMove Leaves s.joinView none
        ((s.refPtcb tid).kernelWait caller (.join tid exitval (s.heap.serial tid))).joinView
  | join {s : State} {caller : TcbRef} {tid : PtcbRef} (exitval : Pointer) (result : Option Int)
      (user : s.threads.status caller = .user) (joinable : s.joinable caller tid = true)
      (exited : s.heap.exited tid = true) :
      JoinMove Leaves s.joinView none
        ((s.recordJoin (s.heap.serial tid) exitval result).joinView.become caller .user)
  | drop {s : State} {caller : TcbRef} {target : PtcbRef} {exitval : Pointer} {serial : Nat}
      (leaves : Leaves caller target serial)
      (waits : s.roster.Awaits caller (.join target exitval serial))
      (exited : s.heap.exited target = true) (undetached : s.heap.detached target = false) :
      JoinMove Leaves s.joinView none
        (((s.unrefPtcb target).recordJoin serial exitval (some 0)).joinView.become caller .user)
  /-- A joiner that finds its target exited and detached, and still there. -/
  | dropFree {s : State} {caller : TcbRef} {target : PtcbRef} {exitval : Pointer} {serial : Nat}
      (leaves : Leaves caller target serial)
      (waits : s.roster.Awaits caller (.join target exitval serial))
      (exited : s.heap.exited target = true) (detached : s.heap.detached target = true)
      (used : s.heap.allocated target = true) (number : s.heap.serial target = serial) :
      JoinMove Leaves s.joinView none
        ((((s.unrefPtcb target).recordJoin serial exitval (some 0)).freePtcb target
          ).joinView.become caller .user)
  | exit {s : State} {thread : TcbRef} (exitval : Int) (live : thread ∈ s.threads.live)
      (idle : ∀ ptcb serial, (s.threads.status thread).joins ptcb serial = false) :
      JoinMove Leaves s.joinView (some thread)
        ((s.exitPtcb (s.threads.ptcb thread) exitval).kernelSleepExited thread).joinView

/-- A joiner that finds its target detached finds it exited, and not yet
freed. -/
def State.joinSafe (s : State) : Label → Bool
  | .resume thread _ =>
    match s.threads.status thread with
    | .waiting (.join target _ serial) => s.heap.detached target = true →
      s.heap.exited target = true ∧ s.heap.allocated target = true ∧ s.heap.serial target = serial
    | _ => true
  | _ => true

section
variable {s t : State} {label : Label} {Leaves : TcbRef → PtcbRef → Nat → Prop}

theorem joinSafe_of (safe : ∀ thread ready target exitval serial, label = .resume thread ready →
    s.threads.status thread = .waiting (.join target exitval serial) →
    s.heap.detached target = true → s.heap.exited target = true ∧
      s.heap.allocated target = true ∧ s.heap.serial target = serial) :
    s.joinSafe label = true := by
  unfold State.joinSafe
  split
  next thread ready =>
    split
    next target exitval serial waits =>
      exact decide_eq_true (safe thread ready target exitval serial rfl waits)
    · rfl
  · rfl

theorem joinSafe_of_targetKept (kept : s.targetKept label = true) : s.joinSafe label = true := by
  apply joinSafe_of
  intro thread ready target exitval serial same waits detached
  have undetached := targetKept_iff.mp kept thread ready target exitval serial same waits
  cases detached.symm.trans undetached

theorem JoinView.become_same {v : JoinView} {thread : TcbRef} {status : Status}
    (same : v.roster.status thread = status) : v.become thread status = v := by
  rw [JoinView.become, Roster.become_same same]

theorem State.Drains.joinView {thread : TcbRef} (drains : State.Drains thread s t) :
    t.joinView = s.joinView := by
  induction drains with
  | done => rfl
  | @reap _ _ child _ _ _ ih => exact ih.trans (State.joinView_reapExited child 0)

theorem exitCall_none (goes : s.exits label = false) : s.exitCall label = none := by
  cases call : s.exitCall label with
  | none => rfl
  | some begins =>
    obtain ⟨s', thread, exitval⟩ := begins
    cases goes.symm.trans (exitCall_begins call).1

/-- A thread in `sys_Exit` or about to call it joins nobody. -/
theorem exits_idle {thread : TcbRef} (exits : s.exits label = true) (moved : act s label = some t)
    (own : label.thread = some thread) (ptcb : PtcbRef) (serial : Nat) :
    (s.threads.status thread).joins ptcb serial = false := by
  cases acted_of_act moved with
  | threadExit _ _ calls | exit _ _ calls =>
    obtain rfl := Option.some.inj own
    rw [(State.calls_iff.mp calls).2.1]
    rfl
  | resumeExit _ _ _ back =>
    obtain rfl := Option.some.inj own
    rw [back.waits]
    rfl
  | resumeSpecific _ _ _ _ back | resumeAny _ _ _ back | resumeJoin _ _ _ _ _ back
  | resumeRead _ _ _ _ _ back => simp [State.exits, back.waits] at exits
  | _ => cases exits

/-- A new process has at most one thread. -/
theorem State.joinView_exec (curproc : Pid) (call : Task) (argl : Int) (args : Pointer)
    (bytes : List (BitVec 8)) (ptcb : PtcbRef) (tcb : TcbRef) :
    (s.exec curproc call argl args bytes ptcb tcb).2.joinView = s.joinView ∨
    ∃ (s' : State) (pid : Pid), s'.joinView = s.joinView ∧
      (s.exec curproc call argl args bytes ptcb tcb).2.joinView =
        (s'.createPtcb pid call argl args ptcb tcb).joinView := by
  cases first : s.pt.pcbFreelist with
  | none =>
    rw [State.exec_full first]
    exact .inl rfl
  | some pid =>
    unfold State.exec State.acquirePcb
    simp only [first]
    have view : (((s.takePcb pid).inherit curproc pid).setTask pid call argl args bytes).joinView =
        s.joinView :=
      State.joinView_same (State.joinBase_inherit (s := s.takePcb pid) curproc pid)
        (State.roster_inherit (s := s.takePcb pid) curproc pid)
    split
    · exact .inr ⟨_, pid, view, rfl⟩
    · exact .inl view

/-- The thread of the boot task has not exited. -/
theorem exited_boot (booted : machine.initial s) {ptcb : PtcbRef}
    (used : s.heap.allocated ptcb = true) : s.heap.exited ptcb = false := by
  obtain ⟨heap, threads, stream, memory, serialPorts, call, argl, args, bytes, made, tcb, -, -,
    rfl⟩ := booted
  have null := Delivery.joinView_exec_null (initialized heap threads stream memory serialPorts)
    0 0 [] 0 0
  have unused : ∀ {s' : State}, s'.joinView =
      (State.exec (initialized heap threads stream memory serialPorts) 0 0 0 0 [] 0 0).2.joinView →
      s'.heap.allocated ptcb = false := fun view =>
    congrFun (congrArg (fun v : JoinView => v.heap.allocated) (view.trans null)) ptcb
  obtain same | ⟨s', pid, view, task⟩ := State.joinView_exec
    (s := (State.exec (initialized heap threads stream memory serialPorts) 0 0 0 0 [] 0 0).2)
    0 call argl args bytes made tcb
  · cases (unused same).symm.trans used
  · have heap' := congrArg JoinView.heap task
    have allocated := congrArg (fun heap => heap.allocated ptcb) heap'
    apply (congrArg (fun heap => heap.exited ptcb) heap').trans
    change update s'.heap.exited made false ptcb = false
    rw [update_apply]
    split
    · rfl
    next apart =>
      have before : update s'.heap.allocated made true ptcb = true := allocated.symm.trans used
      rw [update_of_ne apart] at before
      cases (unused view).symm.trans before

theorem State.fresh_same (view : t.joinView = s.joinView) {ptcb : PtcbRef} {tcb : TcbRef}
    (fresh : s.fresh ptcb tcb = true) : t.fresh ptcb tcb = true := by
  obtain ⟨valid, unused, small, new⟩ := State.fresh_iff.mp fresh
  have allocated : t.heap.allocated = s.heap.allocated := congrArg (fun v => v.heap.allocated) view
  have live : t.threads.live = s.threads.live := congrArg (fun v => v.roster.live) view
  exact State.fresh_iff.mpr ⟨valid, by rw [allocated, unused], small, by rwa [live]⟩

namespace JoinMove

theorem idle_user {thread : TcbRef} (user : s.threads.status thread = .user) (ptcb : PtcbRef)
    (serial : Nat) : (s.threads.status thread).joins ptcb serial = false := by
  rw [user]
  rfl

/-- A thread that joins nobody goes on to do something else. -/
theorem turn {thread : TcbRef} {status : Status} (base : t.joinBase = s.joinBase)
    (becomes : t.roster = s.roster.become thread status)
    (idle : ∀ ptcb serial, (s.threads.status thread).joins ptcb serial = false)
    (still : ∀ ptcb serial, status.joins ptcb serial = false) :
    JoinMove Leaves s.joinView none t.joinView := by
  rw [State.joinView_become base becomes]
  exact .become idle still

theorem of_sysExec {thread : TcbRef} (user : s.threads.status thread = .user) {ptcb : PtcbRef}
    {tcb : TcbRef} (fresh : s.fresh ptcb tcb = true) (call : Task) (argl : Int) (args : Pointer)
    (bytes : List (BitVec 8)) :
    JoinMove Leaves s.joinView none (s.sysExec thread call argl args bytes ptcb tcb).joinView := by
  change JoinMove Leaves s.joinView none
    ((s.exec (s.curproc thread) call argl args bytes ptcb tcb).2.joinView.become thread .user)
  obtain same | ⟨s', pid, view, made⟩ :=
    State.joinView_exec (s := s) (s.curproc thread) call argl args bytes ptcb tcb
  · rw [same]
    exact .become (idle_user user) fun _ _ => rfl
  · have status : s'.threads.status = s.threads.status := congrArg (fun v => v.roster.status) view
    rw [made, ← view]
    exact .create pid call argl args (by rw [status, user]) (State.fresh_same view fresh)

theorem of_sysThreadJoin {thread : TcbRef} (live : thread ∈ s.threads.live)
    (user : s.threads.status thread = .user) (tid : PtcbRef) (exitval : Pointer) :
    JoinMove Leaves s.joinView none (s.sysThreadJoin thread tid exitval).joinView := by
  cases joinable : s.joinable thread tid
  · obtain ⟨-, same⟩ | same := State.sysThreadJoin_unjoinable joinable exitval
    all_goals rw [same]
    · exact .quiet
    · exact .become (idle_user user) fun _ _ => rfl
  · obtain ⟨exited, -, same⟩ | ⟨exited, -, same⟩ | ⟨running, same⟩ :=
      State.sysThreadJoin_joinable joinable exitval
    all_goals rw [same]
    · have stays : (s.recordJoin (s.heap.serial tid) exitval none).roster.status thread = .user := by
        rw [State.roster_recordJoin]
        exact user
      have move : JoinMove Leaves _ _ _ := .join exitval none user joinable exited
      rwa [JoinView.become_same stays] at move
    · exact .join exitval (some (s.memory exitval)) user joinable exited
    · exact .block exitval live user joinable running

theorem of_joinLoop {thread : TcbRef} {ready : Nat} {target : PtcbRef} {exitval : Pointer}
    {serial : Nat} (live : thread ∈ s.threads.live)
    (waits : s.threads.status thread = .waiting (.join target exitval serial))
    (leaves : Leaves thread target serial) (safe : s.joinSafe (.resume thread ready) = true) :
    JoinMove Leaves s.joinView none (s.joinLoop thread target exitval serial).joinView := by
  cases detached : s.heap.detached target
  · obtain ⟨-, same⟩ | ⟨exited, same⟩ := State.joinLoop_undetached detached thread exitval serial
    all_goals rw [same]
    · have view : (s.kernelWait thread (.join target exitval serial)).joinView = s.joinView :=
        State.joinView_same rfl ((State.roster_kernelWait ..).trans (Roster.become_same waits))
      rw [view]
      exact .quiet
    · exact .drop leaves ⟨live, waits⟩ exited detached
  · rw [State.joinLoop_detached detached]
    simp only [State.joinSafe, waits, detached, forall_const, decide_eq_true_eq] at safe
    obtain ⟨exited, used, number⟩ := safe
    exact .dropFree leaves ⟨live, waits⟩ exited detached used number

theorem of_sysThreadDetach {thread : TcbRef} (user : s.threads.status thread = .user)
    (tid : PtcbRef) : JoinMove Leaves s.joinView none (s.sysThreadDetach thread tid).joinView := by
  unfold State.sysThreadDetach
  split
  · exact .quiet
  · split
    · exact .detach tid user
    · exact .turn rfl (State.roster_ret ..) (idle_user user) fun _ _ => rfl

/-- A call that returns, or waits for something other than a thread. -/
theorem of_call {thread : TcbRef} {status : Status} (calls : s.calls thread = true)
    (base : t.joinBase = s.joinBase) (becomes : t.roster = s.roster.become thread status)
    (still : ∀ ptcb serial, status.joins ptcb serial = false) :
    JoinMove Leaves s.joinView none t.joinView :=
  .turn base becomes (idle_user (State.calls_iff.mp calls).2.1) still

/-- A thread that waits for something other than a thread resumes. -/
theorem of_round {thread : TcbRef} {wait : Wait} (back : s.Resumes thread wait)
    (base : t.joinBase = s.joinBase)
    (idle : ∀ ptcb serial, (Status.waiting wait).joins ptcb serial = false)
    (rounds : ∃ status, t.roster = s.roster.become thread status ∧
      (status = .user ∨ status = .waiting wait)) :
    JoinMove Leaves s.joinView none t.joinView := by
  have idles : ∀ ptcb serial, (s.threads.status thread).joins ptcb serial = false := by
    rw [back.waits]
    exact idle
  obtain ⟨status, becomes, rfl | rfl⟩ := rounds
  · exact .turn base becomes idles fun _ _ => rfl
  · exact .turn base becomes idles idle

end JoinMove

/-- A step in which a process exits: its thread ends, or waits for the children that the
initial process has left. -/
theorem exits_joinMove (exits : s.exits label = true) (moved : act s label = some t) :
    JoinMove Leaves s.joinView ((s.exitCall label).map fun call => call.2.1) t.joinView := by
  obtain ⟨s', thread, exitval, begins, exited⟩ |
    ⟨none, s', thread, exitval, own, drains, -, -, rfl⟩ := exitOutcome exits moved
  · obtain ⟨-, -, live, how, drains, -⟩ := exitCall_begins begins
    rw [begins, Option.map_some, State.joinView_sysThreadExit exited, ← drains.joinView]
    have lives : s'.threads.live = s.threads.live := congrArg Roster.live drains.roster
    refine .exit exitval ?_ fun ptcb serial => ?_
    · rwa [lives]
    · have status : s'.threads.status = s.threads.status := congrArg Roster.status drains.roster
      rw [status]
      obtain how | how := how <;> rw [how] <;> rfl
  · rw [none, Option.map_none, ← drains.joinView]
    refine .become (fun ptcb serial => ?_) fun _ _ => rfl
    rw [drains.joinView]
    exact exits_idle exits moved own ptcb serial

theorem goes_joinMove (goes : s.exits label = false) (safe : s.joinSafe label = true)
    (leaves : ∀ thread ready target exitval serial, label = .resume thread ready →
      s.threads.status thread = .waiting (.join target exitval serial) →
        Leaves thread target serial) (moved : act s label = some t) :
    JoinMove Leaves s.joinView none t.joinView := by
  cases acted_of_act moved with
  | threadExit | exit => cases goes
  | exec _ call argl args bytes _ _ calls fresh =>
    exact .of_sysExec (State.calls_iff.mp calls).2.1 fresh call argl args bytes
  | createThread caller task argl args _ _ calls fresh =>
    exact .create (s.curproc caller) task argl args (State.calls_iff.mp calls).2.1 fresh
  | threadJoin _ tid exitval calls =>
    obtain ⟨live, user, -⟩ := State.calls_iff.mp calls
    exact .of_sysThreadJoin live user tid exitval
  | threadDetach _ tid calls => exact .of_sysThreadDetach (State.calls_iff.mp calls).2.1 tid
  | waitChild caller cpid status calls =>
    obtain ⟨become, becomes, user | any | ⟨child, specific, -⟩⟩ :=
      State.roster_sysWaitChild (s := s) caller cpid status
    all_goals
      refine .of_call calls (State.joinBase_sysWaitChild ..) becomes ?_
      subst become
      exact fun _ _ => rfl
  | openNull _ calls =>
    exact .of_call calls (State.joinBase_openStream ..) (State.roster_openStream ..) fun _ _ => rfl
  | openTerminal _ _ calls =>
    exact .of_call calls (State.joinBase_openStream ..) (State.roster_openStream ..) fun _ _ => rfl
  | close _ _ calls =>
    exact .of_call calls (State.joinBase_sysClose ..) (State.roster_sysClose ..) fun _ _ => rfl
  | dup2 _ _ _ calls =>
    exact .of_call calls (State.joinBase_sysDup2 ..) (State.roster_sysDup2 ..) fun _ _ => rfl
  | read caller fd size ready calls =>
    obtain ⟨become, becomes, rfl | ⟨fcb, device, rfl⟩⟩ :=
      State.roster_sysRead (s := s) caller fd size ready
    all_goals exact .of_call calls (State.joinBase_sysRead ..) becomes fun _ _ => rfl
  | write caller fd size ready calls =>
    obtain ⟨become, becomes, rfl | ⟨fcb, device, rfl⟩⟩ :=
      State.roster_sysWrite (s := s) caller fd size ready
    all_goals exact .of_call calls (State.joinBase_sysWrite ..) becomes fun _ _ => rfl
  | resumeJoin caller ready target exitval serial back =>
    exact .of_joinLoop back.live back.waits
      (leaves caller ready target exitval serial rfl back.waits) safe
  | resumeSpecific caller _ child status back =>
    obtain ⟨become, becomes, round⟩ := State.roster_specificLoop (s := s) caller child status
    exact .of_round back (State.joinBase_specificLoop ..) (fun _ _ => rfl)
      ⟨become, becomes, round.imp_right And.left⟩
  | resumeAny caller _ status back =>
    exact .of_round back (State.joinBase_anyLoop ..) (fun _ _ => rfl)
      (State.roster_anyLoop caller status)
  | resumeExit _ _ _ back => simp [State.exits, back.waits] at goes
  | resumeRead caller ready fcb device size back =>
    exact .of_round back (State.joinBase_deviceRead ..) (fun _ _ => rfl)
      (State.roster_deviceRead caller fcb size ready device)
  | poll caller ready fcb device size _ writes =>
    obtain ⟨become, becomes, rfl | rfl⟩ :=
      State.roster_deviceWrite (s := s) caller fcb size ready device
    all_goals
      exact .turn (State.joinBase_deviceWrite ..) becomes
        (fun _ _ => by rw [writes]; rfl) fun _ _ => rfl
  | rxReady =>
    rw [State.joinView_same (State.joinBase_rxReady (s := s)) State.roster_rxReady]
    exact .quiet
  | store => exact .quiet

theorem act_joinMove (safe : s.joinSafe label = true)
    (leaves : ∀ thread ready target exitval serial, label = .resume thread ready →
      s.threads.status thread = .waiting (.join target exitval serial) →
        Leaves thread target serial) (moved : act s label = some t) :
    JoinMove Leaves s.joinView ((s.exitCall label).map fun call => call.2.1) t.joinView := by
  cases exits : s.exits label with
  | true => exact exits_joinMove exits moved
  | false =>
    rw [exitCall_none exits, Option.map_none]
    exact goes_joinMove exits safe leaves moved

/-- Joiners leave their loops for whatever reason. -/
abbrev AnyMove := JoinMove fun _ _ _ => True

theorem act_anyMove (safe : s.joinSafe label = true) (moved : act s label = some t) :
    AnyMove s.joinView ((s.exitCall label).map fun call => call.2.1) t.joinView :=
  act_joinMove safe (fun _ _ _ _ _ _ _ => trivial) moved

end

/-! ### What every move keeps -/

/-- A joiner that is past its loop, up to what its reference was worth and what
is on record of it. -/
theorem State.joinView_pastLoop {s : State} (target : PtcbRef) (serial : Nat) (exitval : Pointer) :
    ∃ refCount joined, ((s.unrefPtcb target).recordJoin serial exitval (some 0)).joinView =
      { s.joinView with heap.refCount := refCount, joined := joined } := by
  obtain ⟨refCount, same⟩ := State.unrefPtcb_eq (s := s) target
  rw [same, State.recordJoin]
  split
  · exact ⟨refCount, _, rfl⟩
  · exact ⟨refCount, _, rfl⟩

def JoinView.free (v : JoinView) (ptcb : PtcbRef) : JoinView :=
  { v with
    threadList := fun pid => (v.threadList pid).erase ptcb
    heap.allocated := update v.heap.allocated ptcb false }

theorem State.joinView_freePtcb (s : State) (ptcb : PtcbRef) :
    (s.freePtcb ptcb).joinView = s.joinView.free ptcb := rfl

namespace Delivery
variable {Leaves : TcbRef → PtcbRef → Nat → Prop} {v w : JoinView} {ends : Option TcbRef} {s : State} {caller : TcbRef}
  {target : PtcbRef} {exitval : Pointer} {serial : Nat}

theorem unowned_of_unused (inv : Delivery v) (unused : v.heap.allocated target = false) :
    ∀ thread ∈ v.roster.live, v.roster.ptcb thread ≠ target := by
  rintro thread live rfl
  cases unused.symm.trans (inv.owned thread live).1

theorem unowned_of_exited (inv : Delivery v) (exited : v.heap.exited target = true) :
    ∀ thread ∈ v.roster.live, v.roster.ptcb thread ≠ target := by
  rintro thread live rfl
  cases exited.symm.trans (inv.owned thread live).2

/-- Nobody else owns the PTCB of a thread. -/
theorem unowned_erase (inv : Delivery v) (live : caller ∈ v.roster.live) :
    ∀ thread ∈ v.roster.live.erase caller, v.roster.ptcb thread ≠ v.roster.ptcb caller := by
  intro thread member same
  obtain ⟨apart, other⟩ := inv.live_nodup.mem_erase_iff.mp member
  exact apart (inv.owned_once thread other caller live same)

theorem pastLoop (inv : Delivery s.joinView)
    (waits : s.roster.Awaits caller (.join target exitval serial))
    (exited : s.heap.exited target = true) :
    Delivery ((s.unrefPtcb target).recordJoin serial exitval (some 0)).joinView := by
  refine (inv.unref exited).record (fun undetached_of => ⟨s.heap.exitval target, ?_⟩) exitval _
  obtain ⟨refCount, same⟩ := State.unrefPtcb_eq (s := s) target
  rw [same] at undetached_of ⊢
  obtain ⟨used, rfl⟩ := (inv.awaited caller target exitval serial waits).2 undetached_of
  exact inv.numbered.exited target used exited

/-- Who joins an exited thread is none of those who are counted. -/
theorem joins_exited (waits : s.roster.Awaits caller (.join target exitval serial))
    (exited : s.heap.exited target = true) {ptcb : PtcbRef} (running : s.heap.exited ptcb = false)
    (number : Nat) : (s.roster.status caller).joins ptcb number = false := by
  have apart : target ≠ ptcb := by
    rintro rfl
    cases exited.symm.trans running
  rw [waits.2]
  simp [Status.joins, apart]

theorem move (inv : Delivery v) (move : JoinMove Leaves v ends w) : Delivery w := by
  cases move with
  | quiet => exact inv
  | become idle still => exact inv.become (fun ptcb _ serial => idle ptcb serial) still
  | @create s caller tcb ptcb pid task argl args user fresh =>
    obtain ⟨-, unused, small, new⟩ := State.fresh_iff.mp fresh
    refine (inv.create unused small new pid task argl args).become (fun other _ serial => ?_)
      fun _ _ => rfl
    change (update s.threads.status tcb .user caller).joins other serial = false
    rw [update_apply, user, ite_self]
    rfl
  | detach tid user =>
    exact (inv.detach tid).become (fun ptcb _ serial => JoinMove.idle_user user ptcb serial)
      fun _ _ => rfl
  | @block s caller tid exitval live user joinable =>
    obtain ⟨-, -, -, member⟩ := of_decide_eq_true joinable
    exact inv.block live user (inv.listed (s.curproc caller) tid member) exitval
  | @join s caller tid exitval result user joinable exited =>
    obtain ⟨-, -, -, member⟩ := of_decide_eq_true joinable
    have value := inv.numbered.exited tid (inv.listed (s.curproc caller) tid member) exited
    refine (inv.record (fun _ => ⟨_, value⟩) exitval result).become (fun ptcb _ serial => ?_)
      fun _ _ => rfl
    change ((State.recordJoin ..).roster.status caller).joins ptcb serial = false
    rw [State.roster_recordJoin]
    exact JoinMove.idle_user user ptcb serial
  | @drop s caller target exitval serial leaves waits exited =>
    have past := inv.pastLoop waits exited
    obtain ⟨refCount, joined, view⟩ := State.joinView_pastLoop (s := s) target serial exitval
    rw [view] at past ⊢
    exact past.become (fun _ running => joins_exited waits exited running) fun _ _ => rfl
  | @dropFree s caller target exitval serial leaves waits exited detached used number =>
    have past := inv.pastLoop waits exited
    obtain ⟨refCount, joined, view⟩ := State.joinView_pastLoop (s := s) target serial exitval
    have roster : ((s.unrefPtcb target).recordJoin serial exitval (some 0)).roster = s.roster :=
      congrArg JoinView.roster view
    have heap : ((s.unrefPtcb target).recordJoin serial exitval (some 0)).heap =
        { s.heap with refCount := refCount } := congrArg JoinView.heap view
    have freed := past.free target ?_ ?_
    · refine freed.become (fun ptcb running number => ?_) fun _ _ => rfl
      change ((State.recordJoin ..).roster.status caller).joins ptcb number = false
      rw [roster]
      change (State.recordJoin ..).heap.exited ptcb = false at running
      rw [heap] at running
      exact joins_exited waits exited running number
    · intro thread live
      change thread ∈ (State.recordJoin ..).roster.live at live
      change (State.recordJoin ..).roster.ptcb thread ≠ target
      rw [roster] at live ⊢
      exact inv.unowned_of_exited exited thread live
    · intro thread pointer other awaits
      rw [roster] at awaits
      rw [heap]
      by_contra undetached
      obtain ⟨-, rfl⟩ := (inv.awaited thread target pointer other awaits).2
        (Bool.eq_false_of_not_eq_true undetached)
      exact undetached ((inv.numbered.detached target used).trans detached)
  | exit exitval live idle => exact inv.exit live idle exitval

end Delivery

/-- The threads of a process that run are live, and the live ones are listed. -/
structure Enrolled (v : JoinView) : Prop where
  listed : ∀ thread ∈ v.roster.live, v.roster.ptcb thread ∈ v.threadList (v.roster.owner thread) ∧
    v.heap.tcb (v.roster.ptcb thread) = thread
  running : ∀ pid, ∀ ptcb ∈ v.threadList pid, v.heap.exited ptcb = false →
    ∃ thread ∈ v.roster.live, v.roster.ptcb thread = ptcb ∧ v.roster.owner thread = pid

namespace Enrolled
variable {Leaves : TcbRef → PtcbRef → Nat → Prop} {v w : JoinView} {ends : Option TcbRef} {s : State} {thread : TcbRef}

theorem create (enrolled : Enrolled s.joinView) (inv : Delivery s.joinView) {ptcb : PtcbRef}
    {tcb : TcbRef} (fresh : s.heap.allocated ptcb = false) (new : tcb ∉ s.threads.live) (pid : Pid)
    (task : Task) (argl : Int) (args : Pointer) :
    Enrolled (s.createPtcb pid task argl args ptcb tcb).joinView := by
  have others : ∀ thread ∈ s.threads.live, thread ≠ tcb ∧ s.threads.ptcb thread ≠ ptcb :=
    fun thread live => ⟨fun same => new (same ▸ live), inv.unowned_of_unused fresh thread live⟩
  have grown : ∀ other, ∀ p ∈ s.pt.threadList other,
      p ∈ update s.pt.threadList pid (s.pt.threadList pid ++ [ptcb]) other := by
    intro other p member
    rw [update_apply]
    split
    next same => exact List.mem_append_left _ (same ▸ member)
    · exact member
  constructor
  · intro thread member
    simp only [State.joinView, State.roster, State.createPtcb] at member ⊢
    rcases List.mem_cons.mp member with rfl | live
    · simp
    · obtain ⟨apart, other⟩ := others thread live
      rw [update_of_ne apart, update_of_ne apart, update_of_ne other]
      obtain ⟨listed, tcb⟩ := enrolled.listed thread live
      exact ⟨grown _ _ listed, tcb⟩
  · intro other p member running
    simp only [State.joinView, State.roster, State.createPtcb] at member running ⊢
    by_cases same : p = ptcb
    · subst p
      refine ⟨tcb, List.mem_cons_self, update_self .., ?_⟩
      rw [update_self]
      by_contra apart
      rw [update_of_ne (Ne.symm apart)] at member
      cases fresh.symm.trans (inv.listed other ptcb member)
    · rw [update_of_ne same] at running
      have old : p ∈ s.pt.threadList other := by
        rw [update_apply] at member
        split at member
        next here =>
          rw [here]
          simpa [same] using member
        · exact member
      obtain ⟨thread, live, own, home⟩ := enrolled.running other p old running
      have apart := (others thread live).1
      refine ⟨thread, List.mem_cons_of_mem _ live, ?_, ?_⟩
      · rwa [update_of_ne apart]
      · rwa [update_of_ne apart]

theorem free (enrolled : Enrolled v) {ptcb : PtcbRef}
    (unowned : ∀ thread ∈ v.roster.live, v.roster.ptcb thread ≠ ptcb) : Enrolled (v.free ptcb) := by
  constructor
  · intro thread live
    obtain ⟨listed, tcb⟩ := enrolled.listed thread live
    exact ⟨(List.mem_erase_of_ne (unowned thread live)).mpr listed, tcb⟩
  · intro pid p member running
    exact enrolled.running pid p (List.mem_of_mem_erase member) running

/-- The thread is gone, and its PTCB has its exit value. -/
theorem mark (enrolled : Enrolled s.joinView) (inv : Delivery s.joinView)
    (live : thread ∈ s.threads.live) (exitval : Int) :
    Enrolled ((s.markExited (s.threads.ptcb thread) exitval).kernelSleepExited thread).joinView := by
  have stays : ∀ other ∈ s.threads.live.erase thread, other ∈ s.threads.live :=
    fun other member => (inv.live_nodup.mem_erase_iff.mp member).2
  refine ⟨fun other member => enrolled.listed other (stays other member), ?_⟩
  intro pid p member running
  change update s.heap.exited (s.threads.ptcb thread) true p = false at running
  have apart : p ≠ s.threads.ptcb thread := by
    rintro rfl
    rw [update_self] at running
    cases running
  rw [update_of_ne apart] at running
  obtain ⟨other, live_other, own, home⟩ := enrolled.running pid p member running
  have different : other ≠ thread := by
    rintro rfl
    exact apart own.symm
  exact ⟨other, inv.live_nodup.mem_erase_iff.mpr ⟨different, live_other⟩, own, home⟩

theorem move (enrolled : Enrolled v) (inv : Delivery v) (move : JoinMove Leaves v ends w) :
    Enrolled w := by
  cases move with
  | quiet | become | block | detach => exact ⟨enrolled.listed, enrolled.running⟩
  | @create s caller tcb ptcb pid task argl args user fresh =>
    obtain ⟨-, unused, -, new⟩ := State.fresh_iff.mp fresh
    have made := enrolled.create inv unused new pid task argl args
    exact ⟨made.listed, made.running⟩
  | @join s caller tid exitval result =>
    unfold State.recordJoin
    split <;> exact ⟨enrolled.listed, enrolled.running⟩
  | @drop s caller target exitval serial =>
    obtain ⟨refCount, joined, view⟩ := State.joinView_pastLoop (s := s) target serial exitval
    rw [view]
    exact ⟨enrolled.listed, enrolled.running⟩
  | @dropFree s caller target exitval serial leaves waits exited =>
    have freed := enrolled.free (inv.unowned_of_exited exited)
    obtain ⟨refCount, joined, view⟩ := State.joinView_pastLoop (s := s) target serial exitval
    rw [State.joinView_freePtcb, view]
    exact ⟨freed.listed, freed.running⟩
  | @exit s thread exitval live idle =>
    have marked := enrolled.mark inv live exitval
    obtain ⟨-, same⟩ | ⟨-, -, same⟩ := State.exitPtcb_cases (s := s) (s.threads.ptcb thread) exitval
    · rw [same]
      exact marked.free (inv.unowned_erase live)
    · rw [same]
      exact marked

theorem boot (booted : machine.initial s) : Enrolled s.joinView := by
  obtain ⟨heap, threads, stream, memory, serialPorts, call, argl, args, bytes, ptcb, tcb, -, -,
    rfl⟩ := booted
  have null := Delivery.joinView_exec_null (initialized heap threads stream memory serialPorts)
    0 0 [] 0 0
  have blank := Delivery.blank heap threads stream memory serialPorts
  have nobody : Enrolled (initialized heap threads stream memory serialPorts).joinView :=
    ⟨nofun, nofun⟩
  rw [← null] at blank nobody
  obtain same | ⟨s', pid, view, made⟩ := State.joinView_exec
    (s := (State.exec (initialized heap threads stream memory serialPorts) 0 0 0 0 [] 0 0).2)
    0 call argl args bytes ptcb tcb
  · exact same ▸ nobody
  · have empty := view.trans null
    have allocated := congrArg (fun v : JoinView => v.heap.allocated) empty
    have live := congrArg (fun v : JoinView => v.roster.live) empty
    have live : s'.threads.live = [] := live
    refine made ▸ Enrolled.create (view ▸ nobody) (view ▸ blank) (congrFun allocated ptcb) ?_ ..
    simp [live]

end Enrolled

namespace JoinMove
variable {Leaves : TcbRef → PtcbRef → Nat → Prop} {v w : JoinView} {ends : Option TcbRef}

/-- What is on record of the threads that have exited stays there. -/
theorem exitOf_kept (move : JoinMove Leaves v ends w) {serial : Nat} (exited : v.heap.exitOf serial ≠ none) :
    w.heap.exitOf serial ≠ none := by
  cases move with
  | quiet | become | create | detach | block => exact exited
  | @join s caller tid exitval result =>
    change (State.recordJoin ..).heap.exitOf serial ≠ none
    rwa [State.recordJoin_heap]
  | @drop s caller target exitval number =>
    obtain ⟨refCount, joined, view⟩ := State.joinView_pastLoop (s := s) target number exitval
    rw [view]
    exact exited
  | @dropFree s caller target exitval number =>
    obtain ⟨refCount, joined, view⟩ := State.joinView_pastLoop (s := s) target number exitval
    rw [State.joinView_freePtcb, view]
    exact exited
  | @exit s thread exitval =>
    have marked : (s.markExited (s.threads.ptcb thread) exitval).heap.exitOf serial ≠ none := by
      simp only [State.markExited, update_apply]
      split
      · exact Option.some_ne_none _
      · exact exited
    obtain ⟨-, same⟩ | ⟨-, -, same⟩ := State.exitPtcb_cases (s := s) (s.threads.ptcb thread) exitval
    all_goals
      rw [same]
      exact marked

theorem detachedOf_kept (move : JoinMove Leaves v ends w) {serial : Nat}
    (detached : v.heap.detachedOf serial = true) : w.heap.detachedOf serial = true := by
  cases move with
  | quiet | become | create | block => exact detached
  | @detach s caller tid =>
    change (s.markDetached tid).heap.detachedOf serial = true
    simp only [State.markDetached]
    split
    · rw [update_apply]
      split
      · rfl
      · exact detached
    · exact detached
  | @join s caller tid exitval result =>
    change (State.recordJoin ..).heap.detachedOf serial = true
    rwa [State.recordJoin_heap]
  | @drop s caller target exitval number =>
    obtain ⟨refCount, joined, view⟩ := State.joinView_pastLoop (s := s) target number exitval
    rw [view]
    exact detached
  | @dropFree s caller target exitval number =>
    obtain ⟨refCount, joined, view⟩ := State.joinView_pastLoop (s := s) target number exitval
    rw [State.joinView_freePtcb, view]
    exact detached
  | @exit s thread exitval =>
    obtain ⟨-, same⟩ | ⟨-, -, same⟩ := State.exitPtcb_cases (s := s) (s.threads.ptcb thread) exitval
    all_goals
      rw [same]
      exact detached

/-- A thread is found exited only after it has called `sys_ThreadExit`. -/
theorem exited_before (move : JoinMove Leaves v ends w) {ptcb : PtcbRef}
    (exited : w.heap.exited ptcb = true) :
    v.heap.exited ptcb = true ∨ ∃ thread, ends = some thread ∧ v.roster.ptcb thread = ptcb := by
  cases move with
  | quiet | become | detach | block => exact .inl exited
  | @create s caller tcb made =>
    change update s.heap.exited made false ptcb = true at exited
    rw [update_apply] at exited
    split at exited
    · cases exited
    · exact .inl exited
  | @join s caller tid exitval result =>
    change (State.recordJoin ..).heap.exited ptcb = true at exited
    rw [State.recordJoin_heap] at exited
    exact .inl exited
  | @drop s caller target exitval number =>
    obtain ⟨refCount, joined, view⟩ := State.joinView_pastLoop (s := s) target number exitval
    rw [view] at exited
    exact .inl exited
  | @dropFree s caller target exitval number =>
    obtain ⟨refCount, joined, view⟩ := State.joinView_pastLoop (s := s) target number exitval
    rw [State.joinView_freePtcb, view] at exited
    exact .inl exited
  | @exit s thread exitval =>
    have marked : (s.markExited (s.threads.ptcb thread) exitval).heap.exited ptcb = true := by
      obtain ⟨-, same⟩ | ⟨-, -, same⟩ := State.exitPtcb_cases (s := s) (s.threads.ptcb thread) exitval
      all_goals
        rw [same] at exited
        exact exited
    simp only [State.markExited, update_apply] at marked
    split at marked
    next same => exact .inr ⟨thread, rfl, same.symm⟩
    · exact .inl marked

/-- A live thread exits, or stays with its process and its PTCB. -/
theorem stays (inv : Delivery v) (move : JoinMove Leaves v ends w) {thread : TcbRef}
    (live : thread ∈ v.roster.live) :
    ends = some thread ∧ w.heap.exitOf (v.heap.serial (v.roster.ptcb thread)) ≠ none ∨
    thread ∈ w.roster.live ∧ w.roster.ptcb thread = v.roster.ptcb thread ∧
      w.roster.owner thread = v.roster.owner thread ∧
      w.heap.serial (v.roster.ptcb thread) = v.heap.serial (v.roster.ptcb thread) := by
  cases move with
  | quiet | become | detach | block => exact .inr ⟨live, rfl, rfl, rfl⟩
  | @create s caller tcb ptcb pid task argl args user fresh =>
    obtain ⟨-, unused, -, new⟩ := State.fresh_iff.mp fresh
    have apart : thread ≠ tcb := fun same => new (same ▸ live)
    have other := inv.unowned_of_unused unused thread live
    exact .inr ⟨List.mem_cons_of_mem _ live, update_of_ne apart .., update_of_ne apart ..,
      update_of_ne other ..⟩
  | @join s caller tid exitval result =>
    unfold State.recordJoin
    split <;> exact .inr ⟨live, rfl, rfl, rfl⟩
  | @drop s caller target exitval serial =>
    obtain ⟨refCount, joined, view⟩ := State.joinView_pastLoop (s := s) target serial exitval
    rw [view]
    exact .inr ⟨live, rfl, rfl, rfl⟩
  | @dropFree s caller target exitval serial =>
    obtain ⟨refCount, joined, view⟩ := State.joinView_pastLoop (s := s) target serial exitval
    rw [State.joinView_freePtcb, view]
    exact .inr ⟨live, rfl, rfl, rfl⟩
  | @exit s caller exitval =>
    by_cases own : thread = caller
    · subst own
      have marked : (s.markExited (s.threads.ptcb thread) exitval).heap.exitOf
          (s.heap.serial (s.threads.ptcb thread)) ≠ none := by
        simp [State.markExited]
      refine .inl ⟨rfl, ?_⟩
      obtain ⟨-, same⟩ | ⟨-, -, same⟩ := State.exitPtcb_cases (s := s) (s.threads.ptcb thread) exitval
      all_goals
        rw [same]
        exact marked
    · have left : thread ∈ s.threads.live.erase caller := (List.mem_erase_of_ne own).mpr live
      right
      obtain ⟨-, same⟩ | ⟨-, -, same⟩ := State.exitPtcb_cases (s := s) (s.threads.ptcb caller) exitval
      all_goals
        rw [same]
        exact ⟨left, rfl, rfl, rfl⟩

end JoinMove

end TinyOs.Kernel
