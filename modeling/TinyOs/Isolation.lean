import TinyOs.ProcessArguments
import TinyOs.ProcessTreeSafety
import TinyOs.StreamSafety
import TinyOs.WaitSafety

/-! What the threads of one process can do to another one that is alive: reap its
zombies they cannot, nor close its files. -/
namespace TinyOs.Kernel
open Function Library

/-! ### The processes and threads -/

namespace Census
variable {c d e : Census} {threads : Prop} {thread : TcbRef} {pid : Pid}

/-- A process stays alive with its threads. Only its parent may change, to the
initial process, and it may find more of its children exited; what the initial
process adopts is up to the others. -/
structure Spares (pid : Pid) (c d : Census) : Prop where
  alive : d.pstate pid = .alive
  incarnation : d.incarnation pid = c.incarnation pid
  threadCount : d.threadCount pid = c.threadCount pid
  parent : d.parent pid = c.parent pid ∨ d.parent pid = some 1
  children : pid ≠ 1 → d.childrenList pid = c.childrenList pid
  exited : pid ≠ 1 → c.exitedList pid <:+ d.exitedList pid
  members : ∀ other, other ∈ d.live ∧ d.owner other = pid ↔ other ∈ c.live ∧ c.owner other = pid

theorem Spares.refl (alive : c.pstate pid = .alive) : Spares pid c c :=
  ⟨alive, rfl, rfl, .inl rfl, fun _ => rfl, fun _ => List.suffix_refl _, fun _ => Iff.rfl⟩

theorem Spares.trans (first : Spares pid c d) (second : Spares pid d e) : Spares pid c e where
  alive := second.alive
  incarnation := second.incarnation.trans first.incarnation
  threadCount := second.threadCount.trans first.threadCount
  parent := by
    rcases second.parent with same | adopted
    · rw [same]
      exact first.parent
    · exact .inr adopted
  children := fun large => (second.children large).trans (first.children large)
  exited := fun large => (first.exited large).trans (second.exited large)
  members := fun other => (second.members other).trans (first.members other)

/-- The entry of a new process was not that of a live one. -/
theorem fork_spares (inv : CensusInv c) {made : Pid} (first : c.pcbFreelist = some made)
    (alive : c.pstate pid = .alive) {curproc : Pid} (apart : curproc ≠ pid) (call : Task) :
    Spares pid c (c.fork curproc made call) := by
  have entries := inv.entries
  rw [first] at entries
  have unused := (entries.pop none).1
  have different : pid ≠ made := by
    rintro rfl
    cases alive.symm.trans unused
  constructor
  case alive => simpa [fork, different] using alive
  case incarnation => simp [fork, different]
  case threadCount => simp [fork, different]
  case parent => exact .inl (update_of_ne different ..)
  case children => exact fun _ => update_of_ne apart.symm ..
  case exited => exact fun _ => List.suffix_refl _
  case members => exact fun _ => Iff.rfl

theorem spawn_spares (alive : c.pstate pid = .alive) {curproc : Pid} (apart : curproc ≠ pid)
    {new : TcbRef} (fresh : new ∉ c.live) : Spares pid c (c.spawn curproc new) := by
  constructor
  case alive => exact alive
  case incarnation => rfl
  case threadCount => exact update_of_ne apart.symm ..
  case parent => exact .inl rfl
  case children => exact fun _ => rfl
  case exited => exact fun _ => List.suffix_refl _
  case members =>
    intro other
    simp only [spawn, update_apply, List.mem_cons]
    grind

theorem reap_spares (inv : CensusInv c) {child : Pid} (zombie : c.pstate child = .zombie)
    (alive : c.pstate pid = .alive) (apart : c.owner thread ≠ pid)
    (mine : c.parent child = some (c.owner thread)) : Spares pid c (c.reap child) := by
  have different : pid ≠ child := by
    rintro rfl
    cases alive.symm.trans zombie
  have stranger : c.parent child ≠ some pid := by
    rw [mine]
    exact fun same => apart (Option.some.inj same)
  constructor
  case alive => simpa [reap, different] using alive
  case incarnation => rfl
  case threadCount => rfl
  case parent => exact .inl (update_of_ne different ..)
  case children =>
    refine fun _ => List.erase_of_not_mem fun member => stranger ?_
    exact ((inv.tree.children child pid).mp member).2.2
  case exited =>
    intro _
    have absent : child ∉ c.exitedList pid := fun member =>
      stranger ((inv.tree.exited child pid).mp member).2.2
    change c.exitedList pid <:+ (c.exitedList pid).erase child
    rw [List.erase_of_not_mem absent]
  case members => exact fun _ => Iff.rfl

theorem leave_spares (inv : CensusInv c) (alive : c.pstate pid = .alive)
    (apart : c.owner thread ≠ pid) : Spares pid c (c.leave thread) := by
  constructor
  case alive => exact alive
  case incarnation => rfl
  case threadCount => exact update_of_ne apart.symm ..
  case parent => exact .inl rfl
  case children => exact fun _ => rfl
  case exited => exact fun _ => List.suffix_refl _
  case members =>
    intro other
    simp only [leave, inv.live_nodup.mem_erase_iff]
    grind

/-- The children of a process that ends go to the initial process, and its parent
finds it exited. -/
theorem terminate_spares (alive : c.pstate pid = .alive) {ending : Pid} (apart : ending ≠ pid)
    (exitval : Int) : Spares pid c (c.terminate ending exitval) := by
  have elsewhere : pid ≠ 1 → update (update c.exitedList ending []) 1
      (c.exitedList 1 ++ c.exitedList ending) pid = c.exitedList pid := fun large => by
    rw [update_of_ne large, update_of_ne apart.symm]
  constructor
  case alive => simpa [terminate, apart.symm] using alive
  case incarnation => rfl
  case threadCount => rfl
  case parent =>
    simp only [terminate]
    split
    · exact .inr rfl
    · exact .inl rfl
  case children =>
    intro large
    simp only [terminate]
    rw [update_of_ne large, update_of_ne apart.symm]
  case exited =>
    intro large
    simp only [terminate]
    cases c.parent ending with
    | none =>
      simp only [enlist]
      rw [elsewhere large]
    | some above =>
      simp only [enlist]
      rcases eq_or_ne pid above with rfl | other
      · rw [update_self, elsewhere large]
        exact List.suffix_cons ..
      · rw [update_of_ne other, elsewhere large]
  case members => exact fun _ => Iff.rfl

theorem Move.spares (inv : CensusInv c) (moved : c.Move threads False thread d)
    (alive : c.pstate pid = .alive) (apart : c.owner thread ≠ pid) : Spares pid c d := by
  cases moved with
  | idle _ first => exact fork_spares inv first alive apart 0
  | @exec made call _ _ first _ _ fresh =>
    have forked := fork_spares inv first alive apart call
    refine forked.trans (spawn_spares forked.alive ?_ fresh)
    rintro rfl
    have entries := inv.entries
    rw [first] at entries
    cases alive.symm.trans (entries.pop none).1
  | spawn _ _ _ fresh => exact spawn_spares alive apart fresh
  | reap _ zombie mine => exact reap_spares inv zombie alive apart (mine.resolve_left id)
  | leave => exact leave_spares inv alive apart
  | last =>
    have left := leave_spares inv alive apart
    exact left.trans (terminate_spares (c := c.leave thread) left.alive apart _)

theorem Moves.spares (inv : CensusInv c) (moved : c.Moves threads False thread d)
    (alive : c.pstate pid = .alive) (apart : c.owner thread ≠ pid) : Spares pid c d := by
  induction moved with
  | refl => exact .refl alive
  | tail earlier last ih =>
    refine ih.trans (last.spares (inv.moves earlier) ih.alive ?_)
    rwa [Moves.own earlier]

end Census

/-! ### What the threads are doing -/

namespace Roster
variable {r r' : Roster} {thread other : TcbRef}

/-- One thread goes to do something else, makes another one, or leaves. -/
inductive Turn (thread : TcbRef) (r : Roster) : Roster → Prop where
  | stays : Turn thread r r
  | becomes (status : Status) : Turn thread r (r.become thread status)
  | makes (pid : Pid) (ptcb : PtcbRef) (new : TcbRef) (fresh : new ∉ r.live) (status : Status) :
      Turn thread r ((r.spawn pid ptcb new).become thread status)
  | leaves : Turn thread r (r.leave thread)

theorem Turn.of_become {status : Status} (becomes : r' = r.become thread status) :
    r.Turn thread r' :=
  becomes ▸ .becomes status

/-- What `Exit` does: the thread leaves, or waits in the kernel. -/
theorem Turn.of_exit {status : Status}
    (exits : r' = r.leave thread ∨ r' = r.become thread status) : r.Turn thread r' := by
  rcases exits with rfl | becomes
  · exact .leaves
  · exact .of_become becomes

theorem Turn.status (turn : r.Turn thread r') (member : other ∈ r.live) (apart : other ≠ thread) :
    r'.status other = r.status other := by
  cases turn with
  | stays | leaves => rfl
  | becomes status => exact update_of_ne apart ..
  | makes pid ptcb new fresh status =>
    have older : other ≠ new := by
      rintro rfl
      exact fresh member
    exact (update_of_ne apart ..).trans (update_of_ne older ..)

end Roster

open State in
theorem exec_turn {s : State} {caller tcb : TcbRef} (new : tcb ∉ s.threads.live) (call : Task)
    (argl : Int) (args : Pointer) (bytes : List (BitVec 8)) (ptcb : PtcbRef) :
    s.roster.Turn caller (s.sysExec caller call argl args bytes ptcb tcb).roster := by
  change s.roster.Turn caller
    ((s.exec (s.curproc caller) call argl args bytes ptcb tcb).2.roster.become caller .user)
  obtain same | ⟨pid, same⟩ := roster_exec (s := s) (s.curproc caller) call argl args bytes ptcb tcb
  · rw [same]
    exact .becomes .user
  · rw [same]
    exact .makes pid ptcb tcb new .user

open State Roster in
theorem act_turn {s t : State} {label : Label} (moved : act s label = some t) :
    match label.thread with
    | some thread => s.roster.Turn thread t.roster
    | none => t.roster = s.roster := by
  cases acted_of_act moved with
  | exec _ call argl args bytes ptcb _ _ fresh =>
    exact exec_turn (fresh_iff.mp fresh).2.2.2 call argl args bytes ptcb
  | createThread caller _ _ _ ptcb tcb _ fresh =>
    exact Turn.makes (s.curproc caller) ptcb tcb (fresh_iff.mp fresh).2.2.2 .user
  | threadJoin caller tid exitval =>
    obtain same | ⟨status, becomes, -⟩ := roster_sysThreadJoin (s := s) caller tid exitval
    · exact same.symm ▸ Turn.stays
    · exact Turn.of_become becomes
  | threadDetach caller tid =>
    obtain same | becomes := roster_sysThreadDetach (s := s) caller tid
    · exact same.symm ▸ Turn.stays
    · exact Turn.of_become becomes
  | threadExit _ _ _ exited => exact roster_sysThreadExit exited ▸ Turn.leaves
  | exit _ _ _ exited => exact Turn.of_exit (roster_sysExit exited)
  | waitChild caller cpid status =>
    obtain ⟨become, becomes, -⟩ := roster_sysWaitChild (s := s) caller cpid status
    exact Turn.of_become becomes
  | openNull | openTerminal => exact Turn.of_become (roster_openStream ..)
  | close => exact Turn.of_become (roster_sysClose ..)
  | dup2 => exact Turn.of_become (roster_sysDup2 ..)
  | read caller fd size ready =>
    obtain ⟨status, becomes, -⟩ := roster_sysRead (s := s) caller fd size ready
    exact Turn.of_become becomes
  | write caller fd size ready =>
    obtain ⟨status, becomes, -⟩ := roster_sysWrite (s := s) caller fd size ready
    exact Turn.of_become becomes
  | resumeSpecific caller _ child status =>
    obtain ⟨become, becomes, -⟩ := roster_specificLoop (s := s) caller child status
    exact Turn.of_become becomes
  | resumeAny caller _ status =>
    obtain ⟨become, becomes, -⟩ := roster_anyLoop (s := s) caller status
    exact Turn.of_become becomes
  | resumeExit _ _ _ _ resumes => exact Turn.of_exit (roster_exitResume resumes)
  | resumeJoin caller _ target exitval serial =>
    obtain ⟨status, becomes, -⟩ := roster_joinLoop (s := s) caller target exitval serial
    exact Turn.of_become becomes
  | resumeRead caller ready fcb device size =>
    obtain ⟨status, becomes, -⟩ := roster_deviceRead (s := s) caller fcb size ready device
    exact Turn.of_become becomes
  | poll caller ready fcb device size =>
    obtain ⟨status, becomes, -⟩ := roster_deviceWrite (s := s) caller fcb size ready device
    exact Turn.of_become becomes
  | rxReady => exact roster_rxReady
  | store => rfl

/-! ### The files -/

/-- The FIDT of a process, what the streams are, and what terminals there are. -/
def State.fileBase (pid : Pid) (s : State) :
    (Nat → Option FcbRef) × (FcbRef → Device) × (FcbRef → Nat) × Nat :=
  (s.pt.fidt pid, s.ft.stream, s.ft.opened, s.serialPorts)

namespace State
variable {s t : State} {pid : Pid} {thread : TcbRef}

theorem fileBase_recordJoin (serial : Nat) (exitval : Pointer) (result : Option Int) :
    (s.recordJoin serial exitval result).fileBase pid = s.fileBase pid := by
  unfold recordJoin
  split <;> rfl

theorem fileBase_pastLoop (target : PtcbRef) (serial : Nat) (exitval : Pointer) :
    ((s.unrefPtcb target).recordJoin serial exitval (some 0)).fileBase pid = s.fileBase pid := by
  obtain ⟨refCount, same⟩ := unrefPtcb_eq (s := s) target
  rw [fileBase_recordJoin, same]
  rfl

theorem fileBase_joinLoop (target : PtcbRef) (exitval : Pointer) (serial : Nat) :
    (s.joinLoop thread target exitval serial).fileBase pid = s.fileBase pid := by
  cases detached : s.heap.detached target
  · obtain ⟨-, same⟩ | ⟨-, same⟩ := joinLoop_undetached detached thread exitval serial
    · rw [same]
      rfl
    · rw [same]
      exact fileBase_pastLoop target serial exitval
  · rw [joinLoop_detached detached]
    exact fileBase_pastLoop target serial exitval

theorem fileBase_sysThreadJoin (tid : PtcbRef) (exitval : Pointer) :
    (s.sysThreadJoin thread tid exitval).fileBase pid = s.fileBase pid := by
  obtain same | same | ⟨-, -, ⟨-, -, same⟩ | ⟨-, -, same⟩ | ⟨-, same⟩⟩ :=
    sysThreadJoin_cases (s := s) thread tid exitval
  all_goals rw [same]
  · rfl
  · rfl
  · exact fileBase_recordJoin ..
  · exact fileBase_recordJoin ..
  · rfl

theorem fileBase_exitPtcb (ptcb : PtcbRef) (exitval : Int) :
    (s.exitPtcb ptcb exitval).fileBase pid = s.fileBase pid := by
  obtain ⟨-, same⟩ | ⟨-, -, same⟩ := exitPtcb_cases (s := s) ptcb exitval
  all_goals
    rw [same]
    rfl

theorem fileBase_reparent (ending : Pid) (children : List Pid) :
    (s.reparent ending children).fileBase pid = s.fileBase pid := by
  induction children generalizing s with
  | nil => rfl
  | cons child rest ih =>
    rw [reparent, ih]
    rfl

theorem fileBase_fcbDecref (ft : FileTable) (fcb : FcbRef) :
    (fcbDecref ft fcb).stream = ft.stream ∧ (fcbDecref ft fcb).opened = ft.opened := by
  unfold fcbDecref
  dsimp only
  split <;> exact ⟨rfl, rfl⟩

/-- Another process gives up a reference and changes a slot of its own. -/
theorem fileBase_setFid {other : Pid} (apart : other ≠ pid) (fid : Nat) (value : Option FcbRef)
    {ft : FileTable} (stream : ft.stream = s.ft.stream) (opened : ft.opened = s.ft.opened) :
    { s.setFid other fid value with ft := ft }.fileBase pid = s.fileBase pid := by
  have fidt : (s.setFid other fid value).pt.fidt pid = s.pt.fidt pid := update_of_ne apart.symm ..
  simp only [fileBase, stream, opened, fidt]
  rfl

theorem fileBase_finishCall (fcb : FcbRef) (count : BitVec 32) :
    (s.finishCall thread fcb count).fileBase pid = s.fileBase pid := by
  obtain ⟨stream, opened⟩ := fileBase_fcbDecref s.ft fcb
  change (s.pt.fidt pid, (fcbDecref s.ft fcb).stream, (fcbDecref s.ft fcb).opened,
    s.serialPorts) = _
  rw [stream, opened]
  rfl

theorem fileBase_deviceRead (fcb : FcbRef) (size : BitVec 32) (ready : Nat) (device : Device) :
    (s.deviceRead thread fcb size ready device).fileBase pid = s.fileBase pid := by
  obtain same | ⟨count, same⟩ := deviceRead_cases (s := s) thread fcb size ready device
  · rw [same]
    rfl
  · rw [same]
    exact fileBase_finishCall fcb count

theorem fileBase_deviceWrite (fcb : FcbRef) (size : BitVec 32) (ready : Nat) (device : Device) :
    (s.deviceWrite thread fcb size ready device).fileBase pid = s.fileBase pid := by
  obtain ⟨writer, same | ⟨count, same⟩⟩ :=
    deviceWrite_cases (s := s) thread fcb size ready device
  · rw [same]
    rfl
  · rw [same]
    change (s.finishCall thread fcb count).fileBase pid = s.fileBase pid
    exact fileBase_finishCall fcb count

theorem fileBase_sysClose (apart : s.curproc thread ≠ pid) (fd : Int) :
    (s.sysClose thread fd).fileBase pid = s.fileBase pid := by
  obtain ⟨value, same⟩ | ⟨fid, fcb, -, -, same⟩ := sysClose_cases (s := s) thread fd
  · rw [same]
    rfl
  · obtain ⟨stream, opened⟩ := fileBase_fcbDecref s.ft fcb
    rw [same]
    exact fileBase_setFid apart fid none stream opened

theorem fileBase_sysDup2 (apart : s.curproc thread ≠ pid) (oldfd newfd : Int) :
    (s.sysDup2 thread oldfd newfd).fileBase pid = s.fileBase pid := by
  obtain ⟨value, same⟩ | ⟨old, new, fcb, -, -, -, ⟨-, same⟩ | ⟨other, -, -, same⟩⟩ :=
    sysDup2_cases (s := s) thread oldfd newfd
  all_goals rw [same]
  · rfl
  · exact fileBase_setFid apart new (some fcb) rfl rfl
  · obtain ⟨stream, opened⟩ := fileBase_fcbDecref s.ft other
    exact @fileBase_setFid s pid (s.curproc thread) apart new (some fcb)
      (fcbIncref (fcbDecref s.ft other) fcb) stream opened

theorem fileBase_cleanUpFidt {ending : Pid} (apart : ending ≠ pid) :
    (s.cleanUpFidt ending).fileBase pid = s.fileBase pid := by
  refine foldl_same (fileBase pid) (fun s fid => ?_) _ s
  unfold closeFid
  split
  · rfl
  next fcb _ =>
    obtain ⟨stream, opened⟩ := fileBase_fcbDecref s.ft fcb
    exact fileBase_setFid apart fid none stream opened

theorem fileBase_terminate {ending : Pid} (apart : ending ≠ pid) {exitval : Int}
    (ended : s.terminate ending exitval = some t) : t.fileBase pid = s.fileBase pid := by
  have cleaned := fileBase_cleanUpFidt (s := s.setExitval ending exitval) apart
  unfold terminate at ended
  dsimp only at ended
  generalize (s.setExitval ending exitval).cleanUpFidt ending = s' at ended cleaned
  split at ended
  · cases ended
  · obtain rfl := Option.some.inj ended
    refine Eq.trans ?_ cleaned
    have adopted : ∀ s : State, (s.adoptExited ending).fileBase pid = s.fileBase pid := by
      intro s
      unfold adoptExited
      split <;> rfl
    have told : ∀ s : State, (s.tellParent ending).fileBase pid = s.fileBase pid := by
      intro s
      unfold tellParent
      split <;> rfl
    exact (told _).trans ((adopted _).trans (fileBase_reparent ..))

theorem fileBase_sysThreadExit (apart : s.curproc thread ≠ pid) {exitval : Int}
    (exited : s.sysThreadExit thread exitval = some t) : t.fileBase pid = s.fileBase pid := by
  have left : ((s.exitPtcb (s.threads.ptcb thread) exitval).uncountThread
      (s.curproc thread)).fileBase pid = s.fileBase pid :=
    fileBase_exitPtcb ..
  unfold sysThreadExit at exited
  dsimp only at exited
  split at exited
  · obtain ⟨ended, terminated, rfl⟩ := Option.map_eq_some_iff.mp exited
    exact (fileBase_terminate apart terminated).trans left
  · obtain rfl := Option.some.inj exited
    exact left

theorem fileBase_reapExited (child : Pid) (status : Pointer) :
    (s.reapExited child status).fileBase pid = s.fileBase pid := by
  unfold reapExited
  split <;> rfl

theorem fileBase_specificLoop (child : Pid) (status : Pointer) :
    (s.specificLoop thread child status).fileBase pid = s.fileBase pid := by
  obtain ⟨-, same⟩ | ⟨-, same⟩ := specificLoop_cases (s := s) thread child status
  all_goals
    rw [same]
    rfl

theorem fileBase_anyLoop (status : Pointer) :
    (s.anyLoop thread status).fileBase pid = s.fileBase pid := by
  obtain ⟨-, same⟩ | ⟨child, rest, -, same⟩ := anyLoop_cases (s := s) thread status
  all_goals rw [same]
  · rfl
  · exact fileBase_reapExited child status

theorem Drains.fileBase (drains : Drains thread s t) : t.fileBase pid = s.fileBase pid := by
  induction drains with
  | done => rfl
  | @reap _ _ child _ _ _ ih => exact ih.trans (fileBase_reapExited child 0)

/-- The new process is not one that is alive. -/
theorem fileBase_exec (inv : CensusInv s.census) (alive : s.pt.pstate pid = .alive) (curproc : Pid)
    (call : Task) (argl : Int) (args : Pointer) (bytes : List (BitVec 8)) (ptcb : PtcbRef)
    (tcb : TcbRef) :
    (s.exec curproc call argl args bytes ptcb tcb).2.fileBase pid = s.fileBase pid := by
  cases first : s.pt.pcbFreelist with
  | none =>
    rw [exec_full first]
  | some newproc =>
    have apart : newproc ≠ pid := by
      rintro rfl
      have entries := inv.entries
      change FreeEntries s.pt.pstate s.pt.parent s.pt.pcbFreelist s.pt.processCount at entries
      rw [first] at entries
      cases alive.symm.trans (entries.pop none).1
    have inherited :
        ((s.takePcb newproc).inherit curproc newproc).fileBase pid = s.fileBase pid := by
      unfold inherit
      split
      · rfl
      · refine (foldl_same (State.fileBase pid) (fun s fid => ?_) _ _).trans rfl
        have copied := @fileBase_setFid s pid newproc apart fid (s.pt.fidt curproc fid) s.ft rfl rfl
        unfold inheritFid
        dsimp only
        split <;> exact copied
    refine Eq.trans ?_ inherited
    unfold exec acquirePcb
    simp only [first]
    split <;> rfl

/-- Only `Open` changes what streams there are, and only one that nobody used. -/
theorem fileBase_openStream (apart : s.curproc thread ≠ pid) (device : Device) :
    (s.openStream thread device).fileBase pid = s.fileBase pid ∨
    ∃ fcb ∈ s.ft.fcbFreelist, (s.openStream thread device).fileBase pid =
      (s.pt.fidt pid, update s.ft.stream fcb device,
        update s.ft.opened fcb (s.ft.opened fcb + 1), s.serialPorts) := by
  obtain same | ⟨fid, fcb, rest, -, -, first, same | same⟩ :=
    openStream_cases (s := s) thread device
  all_goals rw [same]
  · exact .inl rfl
  · refine .inr ⟨fcb, by simp [first], ?_⟩
    exact congrArg (·, _) (update_of_ne apart.symm ..)
  · exact .inl rfl

end State

open State in
/-- No step of another process touches the files of a live one. -/
theorem act_fileBase {s t : State} {label : Label} {pid : Pid} (inv : CensusInv s.census)
    (alive : s.pt.pstate pid = .alive)
    (apart : ∀ thread, label.thread = some thread → s.curproc thread ≠ pid)
    (moved : act s label = some t) :
    t.fileBase pid = s.fileBase pid ∨ ∃ device, ∃ fcb ∈ s.ft.fcbFreelist,
      t.fileBase pid = (s.pt.fidt pid, update s.ft.stream fcb device,
        update s.ft.opened fcb (s.ft.opened fcb + 1), s.serialPorts) := by
  cases exits : s.exits label
  case true =>
    left
    obtain ⟨s', thread, exitval, begins, exited⟩ |
      ⟨-, s', thread, exitval, -, drains, -, -, rfl⟩ := exitOutcome exits moved
    · obtain ⟨-, own, -, -, drains, -⟩ := exitCall_begins begins
      have owner : s'.curproc thread = s.curproc thread :=
        congrArg (fun r : Roster => r.owner thread) drains.roster
      exact (fileBase_sysThreadExit (owner ▸ apart thread own) exited).trans drains.fileBase
    · exact drains.fileBase
  case false =>
    cases acted_of_act moved with
    | threadExit | exit => cases exits
    | resumeExit _ _ _ back => simp [State.exits, back.waits] at exits
    | openNull caller =>
      exact (fileBase_openStream (apart caller rfl) .null).imp_right fun opened => ⟨_, opened⟩
    | openTerminal caller termno =>
      exact (fileBase_openStream (apart caller rfl) (.serial termno)).imp_right
        fun opened => ⟨_, opened⟩
    | exec caller call argl args bytes ptcb tcb =>
      exact .inl (fileBase_exec inv alive (s.curproc caller) call argl args bytes ptcb tcb)
    | threadJoin caller tid exitval =>
      exact .inl (fileBase_sysThreadJoin tid exitval)
    | threadDetach caller tid =>
      left
      unfold sysThreadDetach
      split
      · rfl
      · split <;> rfl
    | waitChild caller cpid status =>
      left
      obtain same | ⟨child, -, -, -, same⟩ | ⟨-, -, same⟩ :=
        sysWaitChild_cases (s := s) caller cpid status
      all_goals rw [same]
      · rfl
      · exact fileBase_specificLoop child status
      · exact fileBase_anyLoop status
    | close caller fd => exact .inl (fileBase_sysClose (apart caller rfl) fd)
    | dup2 caller oldfd newfd => exact .inl (fileBase_sysDup2 (apart caller rfl) oldfd newfd)
    | read caller fd size ready =>
      left
      obtain same | ⟨fid, fcb, -, -, same⟩ := sysRead_cases (s := s) caller fd size ready
      all_goals rw [same]
      · rfl
      · exact fileBase_deviceRead (s := { s with ft := fcbIncref s.ft fcb }) fcb size ready _
    | write caller fd size ready =>
      left
      obtain same | ⟨fid, fcb, -, -, same⟩ := sysWrite_cases (s := s) caller fd size ready
      all_goals rw [same]
      · rfl
      · exact fileBase_deviceWrite (s := { s with ft := fcbIncref s.ft fcb }) fcb size ready _
    | resumeSpecific caller _ child status => exact .inl (fileBase_specificLoop child status)
    | resumeAny caller _ status => exact .inl (fileBase_anyLoop status)
    | resumeJoin caller _ target exitval serial =>
      exact .inl (fileBase_joinLoop target exitval serial)
    | resumeRead caller ready fcb device size =>
      exact .inl (fileBase_deviceRead fcb size ready device)
    | poll caller ready fcb device size => exact .inl (fileBase_deviceWrite fcb size ready device)
    | createThread | store => exact .inl rfl
    | rxReady =>
      left
      unfold rxReady
      refine foldl_same (fileBase pid) (fun s devno => ?_) _ s
      rfl

/-! ### Whole runs -/

/-- A thread that resumes in `wait_for_specific_child` finds a child of its
process in use, and one that resumes in `sys_ThreadJoin` a target that is not
detached. -/
def State.undeceived (s : State) : Label → Bool
  | .resume thread _ =>
    match s.threads.status thread with
    | .waiting (.specificChild child _) =>
      s.pt.pstate child ≠ .free ∧ s.pt.parent child = some (s.curproc thread)
    | .waiting (.join target _ _) => !s.heap.detached target
    | _ => true
  | _ => true

def undeceivedMachine : Machine State Label := machine.restrict State.undeceived

/-- What its runs keep. -/
structure Undeceived (s : State) : Prop where
  sound : Sound s
  streams : Streams s

namespace Undeceived
variable {s t : State} {label : Label}

theorem childKept (offered : s.undeceived label = true) : s.childKept label = true := by
  rw [childKept_iff]
  rintro thread ready child status rfl waits
  simp only [State.undeceived, waits, decide_eq_true_eq] at offered
  exact offered.1

theorem targetKept (offered : s.undeceived label = true) : s.targetKept label = true := by
  rw [targetKept_iff]
  rintro thread ready target exitval serial rfl waits
  simpa [State.undeceived, waits] using offered

theorem boot (booted : machine.initial s) : Undeceived s := ⟨.boot booted, .boot booted⟩

theorem step (before : Undeceived s) (moved : undeceivedMachine.step s label = some t) :
    Undeceived t := by
  obtain ⟨offered, moved⟩ := Machine.restrict_step.mp moved
  exact ⟨before.sound.step (childKept offered) (targetKept offered) moved,
    before.streams.act before.sound.census (childKept offered) (act_of_step moved)⟩

theorem of_reachable (reached : undeceivedMachine.Reachable s) : Undeceived s :=
  reached.induction (fun _ => .boot) fun _ _ _ before moved => before.step moved

/-- No thread reaps a child of another process. -/
theorem moves (threads : Prop) (before : Undeceived s) (offered : s.undeceived label = true)
    (creates : label.isCreateThread = true → threads) (moved : act s label = some t) :
    match label.thread with
    | some thread => thread ∈ s.threads.live ∧ s.census.Moves threads False thread t.census
    | none => t.census = s.census := by
  refine act_moves threads False before.sound.census creates ?_ (targetKept offered) moved
  rintro thread ready child status rfl awaits
  have waits : s.threads.status thread = .waiting (.specificChild child status) := awaits.2
  simp only [State.undeceived, waits, decide_eq_true_eq] at offered
  exact ⟨before.sound.waited thread child status awaits, offered.1, .inr offered.2⟩

end Undeceived

/-- No thread of the process takes the step. -/
def State.Foreign (pid : Pid) (s : State) (label : Label) : Prop :=
  ∀ thread, label.thread = some thread → s.curproc thread ≠ pid

/-- What the others may do while no thread of the process takes a step. -/
abbrev Meanwhile (pid : Pid) : State → State → Prop :=
  Relation.ReflTransGen fun s t =>
    ∃ label, s.Foreign pid label ∧ undeceivedMachine.step s label = some t

/-- What a process finds as it left it: its threads and what they are doing, its
children that have not exited, its arguments and its open files, with what they
are open on. -/
structure Isolated (pid : Pid) (s t : State) : Prop where
  census : Census.Spares pid s.census t.census
  busy : ∀ thread ∈ s.threads.live, s.curproc thread = pid →
    t.threads.status thread = s.threads.status thread
  arguments : t.pt.mainTask pid = s.pt.mainTask pid ∧ t.pt.argl pid = s.pt.argl pid ∧
    t.pt.args pid = s.pt.args pid
  fidt : t.pt.fidt pid = s.pt.fidt pid
  streams : ∀ fid fcb, s.pt.fidt pid fid = some fcb →
    t.ft.stream fcb = s.ft.stream fcb ∧ t.ft.opened fcb = s.ft.opened fcb ∧
      t.ft.closed fcb = s.ft.closed fcb ∧ fcb ∉ t.ft.fcbFreelist
  ports : t.serialPorts = s.serialPorts

namespace Isolated
variable {s t u : State} {pid : Pid} {label : Label}

theorem refl (streams : Streams s) (alive : s.pt.pstate pid = .alive) : Isolated pid s s where
  census := .refl alive
  busy := fun _ _ _ => rfl
  arguments := ⟨rfl, rfl, rfl⟩
  fidt := rfl
  streams := fun _ fcb slot =>
    ⟨rfl, rfl, rfl, fun free => streams.held slot ((streams.counted.free fcb).mp free).2⟩
  ports := rfl

theorem trans (first : Isolated pid s t) (second : Isolated pid t u) : Isolated pid s u where
  census := first.census.trans second.census
  busy := by
    intro thread live mine
    obtain ⟨live', mine'⟩ := (first.census.members thread).mpr ⟨live, mine⟩
    exact (second.busy thread live' mine').trans (first.busy thread live mine)
  arguments := by
    obtain ⟨mainTask, argl, args⟩ := first.arguments
    obtain ⟨mainTask', argl', args'⟩ := second.arguments
    exact ⟨mainTask'.trans mainTask, argl'.trans argl, args'.trans args⟩
  fidt := second.fidt.trans first.fidt
  streams := by
    intro fid fcb slot
    have slot' : t.pt.fidt pid fid = some fcb := (congrFun first.fidt fid).trans slot
    obtain ⟨stream, opened, closed, -⟩ := first.streams fid fcb slot
    obtain ⟨stream', opened', closed', used⟩ := second.streams fid fcb slot'
    exact ⟨stream'.trans stream, opened'.trans opened, closed'.trans closed, used⟩
  ports := second.ports.trans first.ports

/-- A stream that is open in both states has been closed as often, if it has
been opened as often. -/
theorem closed_same (before : Streams s) (after : Streams t) {fcb : FcbRef}
    (held : s.refs fcb ≠ 0) (still : t.refs fcb ≠ 0) (opened : t.ft.opened fcb = s.ft.opened fcb) :
    t.ft.closed fcb = s.ft.closed fcb := by
  have balance := before.counted.closed fcb
  have balance' := after.counted.closed fcb
  rw [if_neg held] at balance
  rw [if_neg still, opened] at balance'
  omega

theorem of_step (before : Undeceived s) (alive : s.pt.pstate pid = .alive)
    (foreign : s.Foreign pid label) (moved : undeceivedMachine.step s label = some t) :
    Isolated pid s t := by
  have after := before.step moved
  obtain ⟨offered, moved⟩ := Machine.restrict_step.mp moved
  have acted := act_of_step moved
  have spares : Census.Spares pid s.census t.census := by
    have moves := before.moves True offered (fun _ => trivial) acted
    cases own : label.thread with
    | none =>
      rw [own] at moves
      rw [moves]
      exact .refl alive
    | some thread =>
      rw [own] at moves
      exact moves.2.spares before.sound.census alive (foreign thread own)
  have kept := (@act_keeps _ _ _ pid acted).kept spares.incarnation spares.alive
  have files := act_fileBase before.sound.census alive foreign acted
  have fidt : t.pt.fidt pid = s.pt.fidt pid := by
    obtain same | ⟨_, _, -, same⟩ := files
    · exact congrArg Prod.fst same
    · exact congrArg Prod.fst same
  constructor
  case census => exact spares
  case busy =>
    intro thread live mine
    have turn := act_turn acted
    cases own : label.thread with
    | none =>
      rw [own] at turn
      exact congrArg (fun r : Roster => r.status thread) turn
    | some actor =>
      rw [own] at turn
      refine turn.status live ?_
      rintro rfl
      exact foreign thread own mine
  case arguments => exact kept.2
  case fidt => exact fidt
  case streams =>
    intro fid fcb slot
    have held := before.streams.held slot
    have still := after.streams.held ((congrFun fidt fid).trans slot)
    have used : fcb ∉ t.ft.fcbFreelist := fun free =>
      still ((after.streams.counted.free fcb).mp free).2
    have opened : t.ft.stream fcb = s.ft.stream fcb ∧ t.ft.opened fcb = s.ft.opened fcb := by
      obtain same | ⟨device, unused, free, same⟩ := files
      · simp only [State.fileBase, Prod.mk.injEq] at same
        exact ⟨congrFun same.2.1 fcb, congrFun same.2.2.1 fcb⟩
      · have apart : fcb ≠ unused := by
          rintro rfl
          exact held ((before.streams.counted.free fcb).mp free).2
        simp only [State.fileBase, Prod.mk.injEq] at same
        exact ⟨(congrFun same.2.1 fcb).trans (update_of_ne apart ..),
          (congrFun same.2.2.1 fcb).trans (update_of_ne apart ..)⟩
    exact ⟨opened.1, opened.2, closed_same before.streams after.streams held still opened.2, used⟩
  case ports =>
    obtain same | ⟨_, _, -, same⟩ := files
    all_goals
      simp only [State.fileBase, Prod.mk.injEq] at same
      exact same.2.2.2

end Isolated

/-- **Processes are isolated**: whatever the threads of the other processes do,
interrupts and reads from terminals included, a process that is alive stays so,
with its threads, arguments and open files. -/
theorem isolation {s t : State} {pid : Pid} (reached : undeceivedMachine.Reachable s)
    (alive : s.pt.pstate pid = .alive) (meanwhile : Meanwhile pid s t) : Isolated pid s t := by
  have both : Undeceived t ∧ Isolated pid s t := by
    induction meanwhile with
    | refl =>
      have before := Undeceived.of_reachable reached
      exact ⟨before, .refl before.streams alive⟩
    | tail _ last ih =>
      obtain ⟨before, isolated⟩ := ih
      obtain ⟨label, foreign, moved⟩ := last
      exact ⟨before.step moved,
        isolated.trans (.of_step before isolated.census.alive foreign moved)⟩
  exact both.2

/-- The boot process opens a terminal and makes a child, which inherits it,
makes a child of its own and exits. -/
theorem isolation_child : ∃ s t, [.openTerminal 0 0, .exec 0 1 0 0 [] 2 1].foldlM
      undeceivedMachine.step booted = some s ∧
    [.exec 1 1 0 0 [] 3 2, .exit 1 7].foldlM undeceivedMachine.step s = some t ∧
    Isolated 1 s t ∧ t.ft.stream 0 = .serial 0 ∧ t.pt.exitedList 1 = [2] := by
  refine ⟨_, _, rfl, rfl, isolation ?_ rfl ?_, rfl, rfl⟩
  · have start : undeceivedMachine.Reachable booted := .start booted_initial
    exact start.replay [.openTerminal 0 0, .exec 0 1 0 0 [] 2 1] rfl
  · refine .head ⟨.exec 1 1 0 0 [] 3 2, ?_, rfl⟩ (.head ⟨.exit 1 7, ?_, rfl⟩ .refl)
    all_goals
      rintro _ ⟨⟩
      decide +kernel

/-! ### The end of the system -/

/-- Nobody acts for the null process, so it never opens a stream. -/
theorem null_process {s : State} (reached : undeceivedMachine.Reachable s) (fid : Nat) :
    s.pt.fidt 0 fid = none := by
  have both : Undeceived s ∧ ∀ fid, s.pt.fidt 0 fid = none := by
    refine reached.induction (P := fun s => Undeceived s ∧ ∀ fid, s.pt.fidt 0 fid = none) ?_ ?_
    · exact fun s booted => ⟨.boot booted, (files_boot booted).1 0⟩
    · rintro s label t ⟨before, empty⟩ moved
      have foreign : s.Foreign 0 label := by
        intro thread own
        obtain ⟨offered, stepped⟩ := Machine.restrict_step.mp moved
        have moves := before.moves True offered (fun _ => trivial) (act_of_step stepped)
        rw [own] at moves
        exact (before.sound.census.owners thread moves.1).2
      have alive : s.pt.pstate 0 = .alive := before.sound.census.tree.null.1
      have isolated := Isolated.of_step before alive foreign moved
      exact ⟨before.step moved, fun fid => (congrFun isolated.fidt fid).trans (empty fid)⟩
  exact both.2 fid

/-- Every stream that was ever opened has been closed. -/
structure AllClosed (s : State) : Prop where
  ended : ∀ pid, pid ≠ 0 → s.pt.pstate pid ≠ .alive
  fidt : ∀ pid fid, s.pt.fidt pid fid = none
  free : s.ft.fcbFreelist.Perm (List.range maxFiles)
  closed : ∀ fcb, s.ft.closed fcb = s.ft.opened fcb

/-- **No stream is left open** when the last thread has exited, unless a process
was made that never had one. -/
theorem shutdown {s : State} (reached : undeceivedMachine.Reachable s) (last : s.threads.live = [])
    (tasks : ∀ pid, pid ≠ 0 → s.pt.pstate pid = .alive → s.pt.mainTask pid ≠ 0) : AllClosed s := by
  have before := Undeceived.of_reachable reached
  have ended : ∀ pid, pid ≠ 0 → s.pt.pstate pid ≠ .alive := by
    intro pid positive alive
    refine before.sound.staffed pid alive positive (tasks pid positive alive) ?_
    change s.threads.live.countP _ = 0
    rw [last, List.countP_nil]
  have fidt : ∀ pid fid, s.pt.fidt pid fid = none := by
    intro pid fid
    cases slot : s.pt.fidt pid fid with
    | none => rfl
    | some fcb =>
      obtain ⟨-, -, alive⟩ := before.streams.open_slot pid fid fcb slot
      rcases eq_or_ne pid 0 with rfl | positive
      · cases (null_process reached fid).symm.trans slot
      · exact absurd alive (ended pid positive)
  have unused : ∀ fcb, s.refs fcb = 0 := by
    intro fcb
    refine Nat.add_eq_zero_iff.mpr ⟨?_, ?_⟩
    · exact List.countP_eq_zero.mpr fun slot _ => by simp [fidt]
    · change s.threads.live.countP _ = 0
      rw [last, List.countP_nil]
  refine ⟨ended, fidt, ?_, fun fcb => ?_⟩
  · rw [List.perm_ext_iff_of_nodup before.streams.counted.nodup List.nodup_range]
    intro fcb
    simp [before.streams.counted.free, unused]
  · have balance := before.streams.counted.closed fcb
    rwa [if_pos (unused fcb)] at balance

/-- The boot process opens a terminal, shares it with a child, and exits after it. -/
theorem shutdown_child : ∃ s, [.openTerminal 0 0, .exec 0 1 0 0 [] 2 1, .exit 1 7, .exit 0 0].foldlM
    undeceivedMachine.step booted = some s ∧ s.ft.opened 0 = 1 ∧ AllClosed s := by
  have start : undeceivedMachine.Reachable booted := .start booted_initial
  refine ⟨_, rfl, rfl, shutdown (start.replay [.openTerminal 0 0, .exec 0 1 0 0 [] 2 1, .exit 1 7,
    .exit 0 0] rfl) rfl fun pid positive alive => ?_⟩
  change update (update (update (update (update (update (fun _ => PidState.free) 0 .alive) 1 .alive)
    2 .alive) 2 .zombie) 2 .free) 1 .zombie pid = .alive at alive
  refine absurd alive ?_
  simp only [update_apply, positive, if_false]
  split_ifs <;> nofun

end TinyOs.Kernel
