import TinyOs.Termination

/-! What the threads asleep in `WaitChild` wait for, in every state in which the
kernel is at rest. -/
namespace TinyOs.Kernel
open Function Library

/-- A thread of the process `pid` may sleep so: the child it waits for is alive,
or it has children of which none has exited. -/
def Wait.Sensible (c : Census) (pid : Pid) : Wait → Prop
  | .specificChild child _ => c.parent child = some pid ∧ c.pstate child = .alive
  | .anyChild _ | .exitLoop _ => c.childrenList pid ≠ [] ∧ c.exitedList pid = []
  | .join .. | .read .. => True

namespace Census
variable {c d : Census} {threads strays : Prop} {thread : TcbRef} {pid : Pid} {wait : Wait}

/-- Only a live thread takes part in a move and is still there. -/
theorem Move.stayed (moved : c.Move threads strays thread d) (stays : thread ∈ d.live) :
    thread ∈ c.live := by
  cases moved with
  | idle live | exec live | leave live | last live => exact live
  | spawn _ live => exact live
  | reap => exact stays

/-- A new process is no exited child. -/
theorem sensible_fork (inv : CensusInv c) {made : Pid} (first : c.pcbFreelist = some made)
    (call : Task) (curproc : Pid) (sensible : wait.Sensible c pid) :
    wait.Sensible (c.fork curproc made call) pid := by
  have entries := inv.entries
  rw [first] at entries
  have unused := (entries.pop none).1
  cases wait with
  | specificChild child status =>
    obtain ⟨link, alive⟩ := sensible
    have different : child ≠ made := by
      rintro rfl
      cases unused.symm.trans alive
    simp only [Wait.Sensible, fork, update_of_ne different]
    exact ⟨link, alive⟩
  | anyChild | exitLoop =>
    obtain ⟨children, none⟩ := sensible
    refine ⟨?_, none⟩
    simp only [fork, update_apply]
    split
    · exact List.cons_ne_nil _ _
    · exact children
  | join | read => trivial

/-- A reaped process was an exited child. -/
theorem sensible_reap (inv : CensusInv c) {child : Pid} (large : 2 ≤ child)
    (zombie : c.pstate child = .zombie) (sensible : wait.Sensible c pid) :
    wait.Sensible (c.reap child) pid := by
  cases wait with
  | specificChild other status =>
    obtain ⟨link, alive⟩ := sensible
    have different : other ≠ child := by
      rintro rfl
      cases zombie.symm.trans alive
    simp only [Wait.Sensible, reap, update_of_ne different]
    exact ⟨link, alive⟩
  | anyChild | exitLoop =>
    obtain ⟨children, none⟩ := sensible
    have other : child ∉ c.childrenList pid := by
      intro member
      obtain ⟨-, -, link⟩ := (inv.tree.children child pid).mp member
      have exited := (inv.tree.exited child pid).mpr ⟨large, zombie, link⟩
      rw [none] at exited
      cases exited
    simp only [Wait.Sensible, reap, none, List.erase_of_not_mem other]
    exact ⟨children, rfl⟩
  | join | read => trivial

/-- What a thread does that goes on leaves the others their reasons to sleep. -/
theorem Move.sensible (inv : CensusInv c) (moved : c.Move threads strays thread d)
    (stays : thread ∈ d.live) (sensible : wait.Sensible c pid) : wait.Sensible d pid := by
  cases moved with
  | idle _ first => exact sensible_fork inv first 0 (c.owner thread) sensible
  | @exec _ call _ _ first => exact sensible_fork inv first call (c.owner thread) sensible
  | spawn => exact sensible
  | reap large zombie => exact sensible_reap inv large zombie sensible
  | leave | last => exact absurd stays inv.live_nodup.not_mem_erase

theorem Moves.sensible (inv : CensusInv c) (moved : c.Moves threads strays thread d)
    (stays : thread ∈ d.live) (sensible : wait.Sensible c pid) : wait.Sensible d pid := by
  induction moved with
  | refl => exact sensible
  | tail earlier last ih => exact last.sensible (inv.moves earlier) stays (ih (last.stayed stays))

/-- The end of another process leaves a thread its reason to sleep, unless it
tells the process of the thread. -/
theorem sensible_terminate (inv : CensusInv c) {ended : Pid} (apart : pid ≠ ended)
    (untold : c.parent ended ≠ some pid) (adopted : pid = 1 → c.exitedList ended = [])
    (exitval : Int) (sensible : wait.Sensible c pid) :
    wait.Sensible (c.terminate ended exitval) pid := by
  cases wait with
  | specificChild child status =>
    obtain ⟨link, alive⟩ := sensible
    have other : child ∉ c.childrenList ended := by
      intro member
      have same := ((inv.tree.children child ended).mp member).2.2
      exact apart (Option.some.inj (link.symm.trans same))
    have different : child ≠ ended := by
      rintro rfl
      exact untold link
    exact ⟨(if_neg other).trans link, (update_of_ne different ..).trans alive⟩
  | anyChild | exitLoop =>
    obtain ⟨children, none⟩ := sensible
    refine ⟨?_, ?_⟩
    · simp only [terminate, update_apply, if_neg apart]
      split
      next root =>
        subst root
        exact fun empty => children (List.append_eq_nil_iff.mp empty).2
      next => exact children
    · have kept : update (update c.exitedList ended []) 1 (c.exitedList 1 ++ c.exitedList ended)
          pid = [] := by
        simp only [update_apply, if_neg apart]
        split
        next root =>
          rw [adopted root, ← root, none]
          rfl
        next => exact none
      simp only [terminate]
      cases above : c.parent ended with
      | none => exact kept
      | some parent =>
        have other : pid ≠ parent := by
          rintro rfl
          exact untold above
        exact (update_of_ne other ..).trans kept
  | join | read => trivial

end Census

/-! ### Who is woken -/

namespace State
variable {s t : State} {thread other : TcbRef} {exitval : Int}

theorem woken_kernelBroadcast (cv : Cv) (woken : s.threads.woken other = true) :
    (s.kernelBroadcast cv).threads.woken other = true := by
  simp [kernelBroadcast, woken]

theorem woken_kernelWait (apart : other ≠ thread) (wait : Wait)
    (woken : s.threads.woken other = true) :
    (s.kernelWait thread wait).threads.woken other = true :=
  (update_of_ne apart ..).trans woken

theorem woken_recordJoin (serial : Nat) (exitval : Pointer) (result : Option Int) :
    (s.recordJoin serial exitval result).threads.woken = s.threads.woken := by
  unfold recordJoin
  split <;> rfl

theorem woken_reapExited (child : Pid) (status : Pointer) :
    (s.reapExited child status).threads.woken = s.threads.woken := by
  unfold reapExited
  split <;> rfl

theorem woken_inherit (curproc newproc : Pid) :
    (s.inherit curproc newproc).threads.woken = s.threads.woken := by
  unfold inherit
  split
  · rfl
  · refine foldl_same (fun s : State => s.threads.woken) (fun s fid => ?_) _ _
    unfold inheritFid
    dsimp only
    split <;> rfl

theorem woken_exec (curproc : Pid) (call : Task) (argl : Int) (args : Pointer)
    (bytes : List (BitVec 8)) (ptcb : PtcbRef) (tcb : TcbRef) :
    (s.exec curproc call argl args bytes ptcb tcb).2.threads.woken = s.threads.woken := by
  cases first : s.pt.pcbFreelist with
  | none => rw [exec_full first]
  | some pid =>
    unfold exec acquirePcb
    simp only [first]
    split <;> exact woken_inherit curproc pid

theorem woken_cleanUpFidt (pid : Pid) : (s.cleanUpFidt pid).threads.woken = s.threads.woken := by
  refine foldl_same (fun s : State => s.threads.woken) (fun s fid => ?_) _ s
  unfold closeFid
  split <;> rfl

theorem woken_reparent (pid : Pid) (children : List Pid) :
    (s.reparent pid children).threads.woken = s.threads.woken := by
  induction children generalizing s with
  | nil => rfl
  | cons child rest ih =>
    rw [reparent, ih]

theorem woken_adoptExited (pid : Pid) (woken : s.threads.woken other = true) :
    (s.adoptExited pid).threads.woken other = true := by
  unfold adoptExited
  split
  · exact woken
  · exact woken_kernelBroadcast _ woken

theorem woken_tellParent (pid : Pid) (woken : s.threads.woken other = true) :
    (s.tellParent pid).threads.woken other = true := by
  unfold tellParent
  split
  · exact woken
  · exact woken_kernelBroadcast _ woken

theorem woken_terminate {pid : Pid} (ended : s.terminate pid exitval = some t)
    (woken : s.threads.woken other = true) : t.threads.woken other = true := by
  unfold terminate at ended
  dsimp only at ended
  split at ended
  · cases ended
  · obtain rfl := Option.some.inj ended
    refine woken_tellParent pid (woken_adoptExited pid ?_)
    rw [woken_reparent, woken_cleanUpFidt]
    exact woken

theorem woken_exitPtcb (ptcb : PtcbRef) (woken : s.threads.woken other = true) :
    (s.exitPtcb ptcb exitval).threads.woken other = true := by
  obtain ⟨-, same⟩ | ⟨-, -, same⟩ := exitPtcb_cases (s := s) ptcb exitval
  all_goals
    rw [same]
    exact woken_kernelBroadcast _ woken

theorem woken_sysThreadExit (exited : s.sysThreadExit thread exitval = some t)
    (woken : s.threads.woken other = true) : t.threads.woken other = true := by
  have left : ((s.exitPtcb (s.threads.ptcb thread) exitval).uncountThread
      (s.curproc thread)).threads.woken other = true := woken_exitPtcb _ woken
  unfold sysThreadExit at exited
  dsimp only at exited
  split at exited
  · obtain ⟨ended, terminated, rfl⟩ := Option.map_eq_some_iff.mp exited
    have told := woken_terminate terminated left
    exact told
  · obtain rfl := Option.some.inj exited
    exact left

theorem Drains.woken (drains : Drains thread s t) : t.threads.woken = s.threads.woken := by
  induction drains with
  | done => rfl
  | @reap _ _ child _ _ _ ih => exact ih.trans (woken_reapExited child 0)

/-- A thread waits on the condition variable. -/
def WaitsOn (s : State) (thread : TcbRef) (cv : Cv) : Prop :=
  (s.roster.status thread).waitsOn (s.roster.owner thread) cv = true

theorem kernelBroadcast_wakes {cv : Cv} (waits : s.WaitsOn other cv) :
    (s.kernelBroadcast cv).threads.woken other = true := by
  have waits : (s.threads.status other).waitsOn (s.curproc other) cv = true := waits
  simp [kernelBroadcast, waits]

theorem reparent_parent {child : Pid} (pid : Pid) {children : List Pid} (other : child ∉ children) :
    (s.reparent pid children).pt.parent child = s.pt.parent child := by
  induction children generalizing s with
  | nil => rfl
  | cons first rest ih =>
    have ⟨different, others⟩ : child ≠ first ∧ child ∉ rest := by simpa using other
    rw [reparent, ih others]
    exact update_of_ne different ..

theorem reparent_exitedList (pid : Pid) (children : List Pid) :
    (s.reparent pid children).pt.exitedList = s.pt.exitedList := by
  induction children generalizing s with
  | nil => rfl
  | cons first rest ih =>
    rw [reparent, ih]

/-- The end of a process wakes who waits in its parent, and also who waits in the
initial process if that gets exited children. -/
theorem terminate_wakes {pid above : Pid} (ended : s.terminate pid exitval = some t)
    (not_own : pid ∉ s.pt.childrenList pid)
    (rings : s.pt.parent pid = some above ∨ above = 1 ∧ s.pt.exitedList pid ≠ [])
    (waits : s.WaitsOn other (.childExit above)) : t.threads.woken other = true := by
  have clean : ((s.setExitval pid exitval).cleanUpFidt pid).census =
      (s.setExitval pid exitval).census := census_cleanUpFidt pid
  have roster : ((s.setExitval pid exitval).cleanUpFidt pid).roster = s.roster :=
    roster_cleanUpFidt pid
  unfold terminate at ended
  dsimp only at ended
  generalize (s.setExitval pid exitval).cleanUpFidt pid = s' at clean roster ended
  split at ended
  · cases ended
  · obtain rfl := Option.some.inj ended
    have children : s'.pt.childrenList = s.pt.childrenList := congrArg Census.childrenList clean
    have links : s'.pt.parent = s.pt.parent := congrArg Census.parent clean
    have lists : s'.pt.exitedList = s.pt.exitedList := congrArg Census.exitedList clean
    have link : (s'.reparent pid (s'.pt.childrenList pid)).pt.parent pid = s.pt.parent pid := by
      rw [children, reparent_parent pid not_own, links]
    have list : (s'.reparent pid (s'.pt.childrenList pid)).pt.exitedList = s.pt.exitedList := by
      rw [reparent_exitedList, lists]
    have same : (s'.reparent pid (s'.pt.childrenList pid)).roster = s.roster :=
      (roster_reparent ..).trans roster
    generalize s'.reparent pid (s'.pt.childrenList pid) = r at link list same
    have waits : r.WaitsOn other (.childExit above) := by
      rw [WaitsOn, same]
      exact waits
    change ((r.adoptExited pid).tellParent pid).threads.woken other = true
    obtain mine | ⟨rfl, adopts⟩ := rings
    · have link : (r.adoptExited pid).pt.parent pid = some above := by
        rw [← mine, ← link]
        unfold adoptExited
        split <;> rfl
      have waits : (r.adoptExited pid).WaitsOn other (.childExit above) := by
        unfold adoptExited
        split <;> exact waits
      unfold tellParent
      rw [link]
      exact kernelBroadcast_wakes waits
    · apply woken_tellParent pid
      rw [← list] at adopts
      unfold adoptExited
      rw [if_neg adopts]
      exact kernelBroadcast_wakes waits

theorem sysThreadExit_wakes (inv : CensusInv s.census) {above : Pid}
    (exited : s.sysThreadExit thread exitval = some t)
    (last : (s.census.leave thread).threadCount (s.curproc thread) = 0)
    (rings : s.pt.parent (s.curproc thread) = some above ∨
      above = 1 ∧ s.pt.exitedList (s.curproc thread) ≠ [])
    (waits : s.WaitsOn other (.childExit above)) : t.threads.woken other = true := by
  have census := census_exitPtcb (s := s) (s.threads.ptcb thread) exitval
  have count : ((s.exitPtcb (s.threads.ptcb thread) exitval).uncountThread
      (s.curproc thread)).pt.threadCount = (s.census.leave thread).threadCount := by
    have counts := congrArg Census.threadCount census
    change update (s.exitPtcb (s.threads.ptcb thread) exitval).census.threadCount _
      ((s.exitPtcb (s.threads.ptcb thread) exitval).census.threadCount _ - 1) = _
    rw [counts]
    rfl
  have children : ((s.exitPtcb (s.threads.ptcb thread) exitval).uncountThread
      (s.curproc thread)).pt.childrenList = s.pt.childrenList := congrArg Census.childrenList census
  have links : ((s.exitPtcb (s.threads.ptcb thread) exitval).uncountThread
      (s.curproc thread)).pt.parent = s.pt.parent := congrArg Census.parent census
  have lists : ((s.exitPtcb (s.threads.ptcb thread) exitval).uncountThread
      (s.curproc thread)).pt.exitedList = s.pt.exitedList := congrArg Census.exitedList census
  have roster : ((s.exitPtcb (s.threads.ptcb thread) exitval).uncountThread
      (s.curproc thread)).roster = s.roster := roster_exitPtcb ..
  unfold sysThreadExit at exited
  dsimp only at exited
  generalize (s.exitPtcb (s.threads.ptcb thread) exitval).uncountThread (s.curproc thread) = s'
    at census count children links lists roster exited
  rw [if_pos (by rw [count]; exact last)] at exited
  obtain ⟨ended, terminated, rfl⟩ := Option.map_eq_some_iff.mp exited
  have not_own := inv.tree.not_own_child (s.curproc thread)
  have told := terminate_wakes terminated (by rw [children]; exact not_own)
    (by rw [links, lists]; exact rings) (by rw [WaitsOn, roster]; exact waits)
  exact told

end State

/-- A step that ends no thread, and takes the news of a broadcast from none but
the one that takes it. -/
structure GoesOn (actor : Option TcbRef) (before after : ThreadTable) : Prop where
  live : ∀ other ∈ before.live, other ∈ after.live
  woken : ∀ other, actor ≠ some other → before.woken other = true → after.woken other = true

namespace GoesOn
variable {s t : State} {actor : Option TcbRef} {thread : TcbRef}

theorem of_same {before after : ThreadTable} (live : after.live = before.live)
    (woken : after.woken = before.woken) : GoesOn actor before after :=
  ⟨fun _ member => live ▸ member, fun _ _ told => woken ▸ told⟩

theorem of_kernelWait {before : ThreadTable} (goes : GoesOn (some thread) before s.threads)
    (wait : Wait) : GoesOn (some thread) before (s.kernelWait thread wait).threads :=
  ⟨goes.live, fun other apart told =>
    State.woken_kernelWait (fun same => apart (congrArg some same.symm)) wait
      (goes.woken other apart told)⟩

theorem of_kernelBroadcast {before : ThreadTable} (goes : GoesOn actor before s.threads) (cv : Cv) :
    GoesOn actor before (s.kernelBroadcast cv).threads :=
  ⟨goes.live, fun other apart told => State.woken_kernelBroadcast cv (goes.woken other apart told)⟩

theorem specificLoop (thread : TcbRef) (child : Pid) (status : Pointer) :
    GoesOn (some thread) s.threads (s.specificLoop thread child status).threads := by
  obtain ⟨-, same⟩ | ⟨-, same⟩ := State.specificLoop_cases (s := s) thread child status
  · rw [same]
    exact .of_kernelWait (.of_same rfl rfl) _
  · rw [same]
    exact .of_same rfl rfl

theorem anyLoop (thread : TcbRef) (status : Pointer) :
    GoesOn (some thread) s.threads (s.anyLoop thread status).threads := by
  obtain ⟨-, same⟩ | ⟨child, rest, -, same⟩ := State.anyLoop_cases (s := s) thread status
  · rw [same]
    exact .of_kernelWait (.of_same rfl rfl) _
  · rw [same]
    exact .of_same (congrArg Roster.live (State.roster_reapExited child status))
      (State.woken_reapExited child status)

theorem joinLoop (thread : TcbRef) (target : PtcbRef) (exitval : Pointer) (serial : Nat) :
    GoesOn (some thread) s.threads (s.joinLoop thread target exitval serial).threads := by
  have noted : GoesOn (some thread) s.threads
      ((s.unrefPtcb target).recordJoin serial exitval (some 0)).threads := by
    have roster : ((s.unrefPtcb target).recordJoin serial exitval (some 0)).roster = s.roster :=
      (State.roster_recordJoin ..).trans (State.roster_unrefPtcb target)
    refine .of_same (congrArg Roster.live roster) ((State.woken_recordJoin ..).trans ?_)
    obtain ⟨refCount, same⟩ := State.unrefPtcb_eq (s := s) target
    rw [same]
  unfold State.joinLoop State.joinExited
  dsimp only
  split
  · exact .of_kernelWait (.of_same rfl rfl) _
  · split <;> exact ⟨noted.live, noted.woken⟩

theorem openStream (thread : TcbRef) (device : Device) :
    GoesOn actor s.threads (s.openStream thread device).threads := by
  obtain same | ⟨fid, fcb, rest, -, -, -, same | same⟩ :=
    State.openStream_cases (s := s) thread device
  all_goals
    rw [same]
    exact .of_same rfl rfl

theorem deviceRead (thread : TcbRef) (fcb : FcbRef) (size : BitVec 32) (ready : Nat)
    (device : Device) : GoesOn (some thread) s.threads (s.deviceRead thread fcb size ready device).threads := by
  obtain same | ⟨count, same⟩ := State.deviceRead_cases (s := s) thread fcb size ready device
  · rw [same]
    exact .of_kernelWait (.of_same rfl rfl) _
  · rw [same]
    exact .of_same rfl rfl

theorem deviceWrite (thread : TcbRef) (fcb : FcbRef) (size : BitVec 32) (ready : Nat)
    (device : Device) : GoesOn actor s.threads (s.deviceWrite thread fcb size ready device).threads := by
  obtain ⟨writer, same | ⟨count, same⟩⟩ :=
    State.deviceWrite_cases (s := s) thread fcb size ready device
  all_goals
    rw [same]
    exact .of_same rfl rfl

theorem rxReady : GoesOn actor s.threads s.rxReady.threads := by
  unfold State.rxReady
  generalize List.range s.serialPorts = ports
  have goes : GoesOn actor s.threads s.threads := .of_same rfl rfl
  suffices every : ∀ t : State, GoesOn actor s.threads t.threads → GoesOn actor s.threads
      (ports.foldl (fun s devno => s.kernelBroadcast (.rxReady (.serial devno))) t).threads
    from every s goes
  induction ports with
  | nil => exact fun t goes => goes
  | cons devno rest ih => exact fun t goes => ih _ (goes.of_kernelBroadcast _)

end GoesOn

open State in
theorem act_goesOn {s t : State} {label : Label} (moved : act s label = some t)
    (goes : s.exits label = false) : GoesOn label.thread s.threads t.threads := by
  cases acted_of_act moved with
  | threadExit | exit => cases goes
  | exec caller call argl args bytes ptcb tcb =>
    refine ⟨fun other member => ?_, fun other _ told => ?_⟩
    · change other ∈ (s.exec (s.curproc caller) call argl args bytes ptcb tcb).2.roster.live
      obtain same | ⟨pid, same⟩ :=
        roster_exec (s := s) (s.curproc caller) call argl args bytes ptcb tcb
      · rw [same]
        exact member
      · rw [same]
        exact List.mem_cons_of_mem _ member
    · exact (congrFun (woken_exec ..) other).trans told
  | createThread =>
    exact ⟨fun other member => List.mem_cons_of_mem _ member, fun other _ told => told⟩
  | threadJoin caller tid exitval =>
    obtain same | same | ⟨-, -, ⟨-, -, same⟩ | ⟨-, -, same⟩ | ⟨-, same⟩⟩ :=
      sysThreadJoin_cases (s := s) caller tid exitval
    all_goals rw [same]
    · exact .of_same rfl rfl
    · exact .of_same rfl rfl
    · exact .of_same (congrArg Roster.live (roster_recordJoin ..)) (woken_recordJoin ..)
    · exact .of_same (congrArg Roster.live (roster_recordJoin ..)) (woken_recordJoin ..)
    · exact .of_kernelWait (s := s.refPtcb tid) (.of_same rfl rfl) _
  | threadDetach caller tid =>
    unfold sysThreadDetach
    split
    · exact .of_same rfl rfl
    · split
      · have same : GoesOn (some caller) s.threads (s.markDetached tid).threads := .of_same rfl rfl
        have told := same.of_kernelBroadcast (.exitCv tid)
        exact ⟨told.live, told.woken⟩
      · exact .of_same rfl rfl
  | waitChild caller cpid status =>
    obtain same | ⟨child, -, -, -, same⟩ | ⟨-, -, same⟩ :=
      sysWaitChild_cases (s := s) caller cpid status
    all_goals rw [same]
    · exact .of_same rfl rfl
    · exact .specificLoop caller child status
    · exact .anyLoop caller status
  | openNull caller => exact .openStream caller .null
  | openTerminal => exact .openStream ..
  | close caller fd =>
    obtain ⟨value, same⟩ | ⟨fid, fcb, -, -, same⟩ := sysClose_cases (s := s) caller fd
    all_goals
      rw [same]
      exact .of_same rfl rfl
  | dup2 caller oldfd newfd =>
    obtain ⟨value, same⟩ | ⟨old, new, fcb, -, -, -, ⟨-, same⟩ | ⟨other, -, -, same⟩⟩ :=
      sysDup2_cases (s := s) caller oldfd newfd
    all_goals
      rw [same]
      exact .of_same rfl rfl
  | read caller fd size ready =>
    obtain same | ⟨fid, fcb, -, -, same⟩ := sysRead_cases (s := s) caller fd size ready
    · rw [same]
      exact .of_same rfl rfl
    · rw [same]
      exact .deviceRead (s := { s with ft := fcbIncref s.ft fcb }) ..
  | write caller fd size ready =>
    obtain same | ⟨fid, fcb, -, -, same⟩ := sysWrite_cases (s := s) caller fd size ready
    · rw [same]
      exact .of_same rfl rfl
    · rw [same]
      exact .deviceWrite (s := { s with ft := fcbIncref s.ft fcb }) ..
  | resumeSpecific caller _ child status => exact .specificLoop caller child status
  | resumeAny caller _ status => exact .anyLoop caller status
  | resumeExit _ _ _ back => simp [State.exits, back.waits] at goes
  | resumeJoin caller _ target exitval serial => exact .joinLoop caller target exitval serial
  | resumeRead => exact .deviceRead ..
  | poll => exact .deviceWrite ..
  | rxReady => exact .rxReady
  | store => exact .of_same rfl rfl

/-! ### Who may sleep -/

/-- A thread that resumes in a loop of `WaitChild` without anything to reap still
has children, or the child it waits for is still one of its process. -/
def State.waitKept (s : State) : Label → Bool
  | .resume thread _ =>
    match s.threads.status thread with
    | .waiting (.specificChild child _) =>
      s.pt.pstate child ≠ .alive ∨ s.pt.parent child = some (s.curproc thread)
    | .waiting (.anyChild _) | .waiting (.exitLoop _) =>
      s.pt.exitedList (s.curproc thread) ≠ [] ∨ s.pt.childrenList (s.curproc thread) ≠ []
    | _ => true
  | _ => true

namespace State
variable {s t : State} {label : Label} {thread : TcbRef} {wait : Wait}

theorem waitKept_specific {ready : Nat} {child : Pid} {status : Pointer}
    (kept : s.waitKept (.resume thread ready) = true)
    (waits : s.threads.status thread = .waiting (.specificChild child status))
    (alive : s.pt.pstate child = .alive) : s.pt.parent child = some (s.curproc thread) := by
  simpa [waitKept, waits, alive] using kept

theorem waitKept_any {ready : Nat} (kept : s.waitKept (.resume thread ready) = true)
    (waits : (∃ status, s.threads.status thread = .waiting (.anyChild status)) ∨
      ∃ exitval, s.threads.status thread = .waiting (.exitLoop exitval))
    (none : s.pt.exitedList (s.curproc thread) = []) :
    s.pt.childrenList (s.curproc thread) ≠ [] := by
  obtain ⟨status, waits⟩ | ⟨exitval, waits⟩ := waits <;> simpa [waitKept, waits, none] using kept

theorem not_awaits_user (user : s.threads.status thread = .user) : ¬ s.roster.Awaits thread wait :=
  fun awaits => nomatch user.symm.trans awaits.2

/-- A thread asleep in the kernel takes no step but to go on. -/
theorem resume_of_awaits (moved : act s label = some t) (own : label.thread = some thread)
    (waits : s.threads.status thread = .waiting wait) : ∃ ready, label = .resume thread ready := by
  cases acted_of_act moved with
  | resumeSpecific _ ready | resumeAny _ ready | resumeExit _ ready | resumeJoin _ ready
  | resumeRead _ ready =>
    obtain rfl := Option.some.inj own
    exact ⟨ready, rfl⟩
  | poll _ _ _ _ _ _ writes =>
    obtain rfl := Option.some.inj own
    cases writes.symm.trans waits
  | rxReady | store => cases own
  | exec _ _ _ _ _ _ _ calls | createThread _ _ _ _ _ _ calls | threadJoin _ _ _ calls
  | threadDetach _ _ calls | threadExit _ _ calls | exit _ _ calls | waitChild _ _ _ calls
  | openNull _ calls | openTerminal _ _ calls | close _ _ calls | dup2 _ _ _ calls
  | read _ _ _ _ calls | write _ _ _ _ calls =>
    obtain rfl := Option.some.inj own
    cases (calls_iff.mp calls).2.1.symm.trans waits

/-- A thread that sleeps after its own `Exit` has a child, and none that exited. -/
theorem exit_sensible (kept : s.waitKept label = true) (exits : s.exits label = true)
    (moved : act s label = some t) (nodup : s.threads.live.Nodup)
    (own : label.thread = some thread) (awaits : t.roster.Awaits thread wait) :
    wait.Sensible t.census (t.curproc thread) := by
  obtain ⟨s', caller, exitval, begins, exited⟩ |
    ⟨-, s', caller, exitval, same, drains, children, none, rfl⟩ := exitOutcome exits moved
  · obtain ⟨-, same, -, -, drains, -⟩ := exitCall_begins begins
    obtain rfl := Option.some.inj (own.symm.trans same)
    have gone := awaits.1
    rw [roster_sysThreadExit exited, drains.roster] at gone
    exact absurd gone nodup.not_mem_erase
  · obtain rfl := Option.some.inj (own.symm.trans same)
    have waits : wait = .exitLoop exitval := by
      have asleep := awaits.2
      simp only [roster_kernelWait, Roster.become, update_self] at asleep
      exact (Status.waiting.inj asleep).symm
    subst waits
    refine ⟨?_, none⟩
    obtain children | ⟨same, waits⟩ := children
    · exact children
    · subst s'
      obtain ⟨ready, rfl⟩ := resume_of_awaits moved own waits
      have children := waitKept_any kept (.inr ⟨exitval, waits⟩) none
      exact children

/-- A thread that sleeps after its own step has reason to. -/
theorem own_sensible (kept : s.waitKept label = true) (moved : act s label = some t)
    (nodup : s.threads.live.Nodup) (own : label.thread = some thread)
    (awaits : t.roster.Awaits thread wait) : wait.Sensible t.census (t.curproc thread) := by
  cases exits : s.exits label
  case true => exact exit_sensible kept exits moved nodup own awaits
  cases acted_of_act moved with
  | threadExit | exit => cases exits
  | waitChild caller cpid status =>
    obtain rfl := Option.some.inj own
    obtain same | ⟨child, -, -, link, same⟩ | ⟨-, children, same⟩ :=
      sysWaitChild_cases (s := s) caller cpid status
    all_goals rw [same] at awaits ⊢
    · exact absurd awaits (not_awaits_user (update_self ..))
    · obtain ⟨alive, same⟩ | ⟨-, same⟩ := specificLoop_cases (s := s) caller child status
      all_goals rw [same] at awaits ⊢
      · obtain rfl := Status.waiting.inj ((update_self ..).symm.trans awaits.2)
        exact ⟨link, alive⟩
      · exact absurd awaits (not_awaits_user (update_self ..))
    · obtain ⟨none, same⟩ | ⟨child, rest, -, same⟩ := anyLoop_cases (s := s) caller status
      all_goals rw [same] at awaits ⊢
      · obtain rfl := Status.waiting.inj ((update_self ..).symm.trans awaits.2)
        exact ⟨children, none⟩
      · exact absurd awaits (not_awaits_user (update_self ..))
  | resumeSpecific caller _ child status back =>
    obtain rfl := Option.some.inj own
    obtain ⟨alive, same⟩ | ⟨-, same⟩ := specificLoop_cases (s := s) caller child status
    all_goals rw [same] at awaits ⊢
    · obtain rfl := Status.waiting.inj ((update_self ..).symm.trans awaits.2)
      have link := waitKept_specific kept back.waits alive
      exact ⟨link, alive⟩
    · exact absurd awaits (not_awaits_user (update_self ..))
  | resumeAny caller _ status back =>
    obtain rfl := Option.some.inj own
    obtain ⟨none, same⟩ | ⟨child, rest, -, same⟩ := anyLoop_cases (s := s) caller status
    all_goals rw [same] at awaits ⊢
    · obtain rfl := Status.waiting.inj ((update_self ..).symm.trans awaits.2)
      have children := waitKept_any kept (.inl ⟨status, back.waits⟩) none
      exact ⟨children, none⟩
    · exact absurd awaits (not_awaits_user (update_self ..))
  | resumeExit _ _ _ back => simp [State.exits, back.waits] at exits
  | resumeJoin _ _ _ _ _ back | resumeRead _ _ _ _ _ back =>
    obtain rfl := Option.some.inj own
    obtain before | ⟨-, may⟩ := act_awaits moved awaits
    · cases back.waits.symm.trans before.2
      trivial
    · cases wait <;> simp [MayWait] at may ⊢
  | _ =>
    obtain before | ⟨-, may⟩ := act_awaits moved awaits
    · obtain ⟨ready, impossible⟩ := resume_of_awaits moved own before.2
      cases impossible
    · cases wait <;> simp [MayWait, Wait.Sensible] at may ⊢

end State

/-- Every thread asleep in the kernel that has not been woken has reason to. -/
def Sleepers (s : State) : Prop :=
  ∀ thread wait, s.roster.Awaits thread wait → s.threads.woken thread = false →
    wait.Sensible s.census (s.curproc thread)

namespace Sleepers
variable {s t : State} {label : Label} {thread caller : TcbRef} {wait : Wait} {exitval : Int}

/-- The end of a thread wakes those that lose their reason. -/
theorem exited (inv : CensusInv s.census) (live : caller ∈ s.threads.live)
    (ended : s.sysThreadExit caller exitval = some t) (awaits : s.roster.Awaits thread wait)
    (apart : thread ≠ caller) (unwoken : t.threads.woken thread = false)
    (sensible : wait.Sensible s.census (s.curproc thread)) :
    wait.Sensible t.census (s.curproc thread) := by
  obtain ⟨last, -, same⟩ | ⟨-, same⟩ := State.sysThreadExit_census inv ended
  · rw [same]
    have left := inv.leave live
    have there : thread ∈ (s.census.leave caller).live := (List.mem_erase_of_ne apart).mpr awaits.1
    have other : s.curproc thread ≠ s.curproc caller := by
      intro shared
      have some_thread := CensusInv.population_pos there
      rw [← left.counted] at some_thread
      change 0 < ((s.census.leave caller).threadCount (s.curproc thread)).toNat at some_thread
      rw [shared, last] at some_thread
      exact absurd some_thread (by decide)
    have untold : ∀ above, (s.pt.parent (s.curproc caller) = some above ∨
        above = 1 ∧ s.pt.exitedList (s.curproc caller) ≠ []) →
        wait.cv (s.curproc thread) ≠ .childExit above := by
      intro above rings there
      have waits : s.WaitsOn thread (.childExit above) := by
        rw [State.WaitsOn, awaits.2]
        exact decide_eq_true there
      cases unwoken.symm.trans (State.sysThreadExit_wakes inv ended last rings waits)
    cases wait with
    | join | read => trivial
    | specificChild | anyChild | exitLoop =>
      refine Census.sensible_terminate left other ?_ ?_ exitval sensible
      · exact fun link => untold (s.curproc thread) (.inl link) rfl
      · intro root
        by_contra adopts
        exact untold 1 (.inr ⟨rfl, adopts⟩) (congrArg Cv.childExit root)
  · rw [same]
    exact sensible

/-- What another thread does wakes those that lose their reason. -/
theorem others (sleepers : Sleepers s) (sound : Sound s) (child : s.childKept label = true)
    (target : s.targetKept label = true) (moved : act s label = some t)
    (apart : label.thread ≠ some thread) (awaits : s.roster.Awaits thread wait)
    (unwoken : t.threads.woken thread = false) :
    wait.Sensible t.census (t.curproc thread) := by
  have moves := sound.moves child target moved
  cases exits : s.exits label
  · have goes := act_goesOn moved exits
    have before : s.threads.woken thread = false := by
      by_contra woken
      cases unwoken.symm.trans (goes.woken thread apart (Bool.eq_true_of_not_eq_false woken))
    have sensible := sleepers thread wait awaits before
    cases actor : label.thread with
    | none =>
      rw [actor] at moves
      have owner : t.curproc thread = s.curproc thread := congrArg (fun c => c.owner thread) moves
      rw [moves, owner]
      exact sensible
    | some caller =>
      rw [actor] at moves apart
      have owner : t.curproc thread = s.curproc thread :=
        (moves.2.others awaits.1 fun same => apart (congrArg some same.symm)).2
      rw [owner]
      exact moves.2.sensible sound.census (goes.live caller moves.1) sensible
  · obtain ⟨s', caller, exitval, begins, ended⟩ |
      ⟨-, s', caller, exitval, own, drains, -, -, rfl⟩ := exitOutcome exits moved
    · obtain ⟨-, own, live, -, drains, -⟩ := exitCall_begins begins
      have different : thread ≠ caller := fun same => apart (own.trans (congrArg some same.symm))
      have inv := sound.census.moves (drains.moves sound.census True True)
      have live' : caller ∈ s'.roster.live := drains.roster ▸ live
      have awaits' : s'.roster.Awaits thread wait := drains.roster ▸ awaits
      have before : s.threads.woken thread = false := by
        by_contra woken
        rw [← drains.woken] at woken
        have told := State.woken_sysThreadExit ended (Bool.eq_true_of_not_eq_false woken)
        cases unwoken.symm.trans told
      have sensible := (drains.moves sound.census True True).sensible sound.census live'
        (sleepers thread wait awaits before)
      have owner : t.curproc thread = s.curproc thread :=
        congrArg (fun r : Roster => r.owner thread)
          ((State.roster_sysThreadExit ended).trans (congrArg (Roster.leave · caller) drains.roster))
      have owner' : s'.curproc thread = s.curproc thread :=
        congrArg (fun r : Roster => r.owner thread) drains.roster
      rw [owner, ← owner']
      apply exited inv live' ended awaits' different unwoken
      rw [owner']
      exact sensible
    · have different : thread ≠ caller := fun same => apart (own.trans (congrArg some same.symm))
      rw [own] at moves
      have before : s.threads.woken thread = false :=
        (congrFun drains.woken thread).symm.trans ((update_of_ne different ..).symm.trans unwoken)
      have live' : caller ∈ s'.roster.live := drains.roster ▸ moves.1
      have sensible := (drains.moves sound.census True True).sensible sound.census live'
        (sleepers thread wait awaits before)
      have owner : s'.curproc thread = s.curproc thread :=
        congrArg (fun r : Roster => r.owner thread) drains.roster
      rw [← owner] at sensible
      exact sensible

theorem step (sleepers : Sleepers s) (sound : Sound s) (child : s.childKept label = true)
    (target : s.targetKept label = true) (kept : s.waitKept label = true)
    (moved : act s label = some t) : Sleepers t := by
  intro thread wait awaits unwoken
  by_cases own : label.thread = some thread
  · exact State.own_sensible kept moved sound.census.live_nodup own awaits
  · obtain before | ⟨-, may⟩ := act_awaits moved awaits
    · exact sleepers.others sound child target moved own before unwoken
    · refine absurd ?_ own
      cases wait with
      | specificChild =>
        obtain ⟨⟨cpid, rfl, -⟩, -⟩ := may
        rfl
      | anyChild =>
        obtain ⟨cpid, rfl⟩ := may
        rfl
      | exitLoop =>
        obtain rfl := may
        rfl
      | join =>
        obtain ⟨rfl, -⟩ := may
        rfl
      | read =>
        obtain ⟨fd, ready, rfl⟩ := may
        rfl

end Sleepers

/-- No thread is inside the kernel, and none that has been woken is on its way
back in. -/
def State.Settled (s : State) : Prop :=
  s.writer = none ∧ ∀ thread wait, s.roster.Awaits thread wait → s.threads.woken thread = false

/-- No thread goes on with a child or a target that has been given up, and none
that is back in `WaitChild` sleeps again with no child of its own to wait for. -/
def State.WaitsKept (s : State) (label : Label) : Prop :=
  s.childKept label = true ∧ s.targetKept label = true ∧ s.waitKept label = true

/-- **`WaitChild` never sleeps on nothing** in a run in which no thread that is
back in one of its loops goes on without the child it waits for. -/
theorem waits_sensible {s : State} (reached : machine.ReachableBy State.WaitsKept s)
    (settled : s.Settled) (thread : TcbRef) (wait : Wait) (awaits : s.roster.Awaits thread wait) :
    wait.Sensible s.census (s.curproc thread) := by
  have both : Sound s ∧ Sleepers s := by
    refine reached.induction (P := fun s => Sound s ∧ Sleepers s) (fun s booted => ⟨.boot booted, ?_⟩) ?_
    · exact fun thread wait awaits => absurd awaits (not_awaits_boot booted thread wait)
    · rintro s label t ⟨sound, sleepers⟩ ⟨child, target, kept⟩ moved
      exact ⟨sound.step child target moved,
        sleepers.step sound child target kept (act_of_step moved)⟩
  exact both.2 thread wait awaits (settled.2 thread wait awaits)

/-- The boot process waits for its only child. -/
theorem waits_sensible_oneChild : ∃ s : State, s.pt.childrenList 1 = [2] ∧
    Wait.Sensible s.census (s.curproc 0) (.anyChild 0) := by
  have run := Machine.Run.start (M := machine) booted_initial
  have run := run.next (.exec 0 1 0 0 [] 2 1) rfl
  have run := run.next (.waitChild 0 noproc 0) rfl
  refine ⟨_, rfl, waits_sensible ⟨_, run, ?_⟩ ⟨rfl, ?_⟩ 0 _ ⟨by decide, rfl⟩⟩
  · simp [State.WaitsKept, State.childKept, State.targetKept, State.waitKept]
  · rintro thread wait ⟨live, waits⟩
    rcases List.mem_cons.mp live with rfl | live
    · cases (waits : Status.user = .waiting wait)
    · obtain rfl := List.mem_singleton.mp live
      rfl

/-- Two threads of the boot process wait for its only child. The first reaps it,
and the second, told of the same exit, sleeps again. -/
def secondWaiter : List Label :=
  [.exec 0 1 0 0 [] 2 1, .createThread 0 1 0 0 3 2, .waitChild 0 noproc 0, .waitChild 2 noproc 0,
    .exit 1 7, .resume 0 0, .resume 2 0]

theorem sleeps_on_nothing : ¬ ∀ s, machine.Reachable s → s.Settled → ∀ thread wait,
    s.roster.Awaits thread wait → wait.Sensible s.census (s.curproc thread) := by
  intro every
  have reached := (Machine.Reachable.start (M := machine) booted_initial).replay secondWaiter rfl
  have sensible := every _ reached ⟨rfl, ?_⟩ 2 (.anyChild 0) ⟨by decide, rfl⟩
  · exact sensible.1 rfl
  · rintro thread wait ⟨live, waits⟩
    rcases List.mem_cons.mp live with rfl | live
    · rfl
    · obtain rfl := List.mem_singleton.mp live
      cases (waits : Status.user = .waiting wait)

end TinyOs.Kernel
