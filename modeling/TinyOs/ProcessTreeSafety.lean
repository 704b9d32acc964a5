import TinyOs.ProcessSafety

/-! The tree of processes over whole runs in which every process has only its
main thread. -/
namespace TinyOs.Kernel
open Function Library

namespace Census
variable {c d : Census} {threads strays : Prop} {thread other : TcbRef}

/-- The owner of a live thread stays, and so does that of the thread that
moves. -/
theorem Move.owner (moved : c.Move threads strays thread d)
    (member : other ∈ c.live ∨ other = thread) : d.owner other = c.owner other := by
  cases moved with
  | exec live _ _ _ new | spawn _ live _ new =>
    refine update_of_ne ?_ ..
    rintro rfl
    rcases member with member | rfl
    · exact new member
    · exact new live
  | idle | reap | leave | last => rfl

/-- A process has a second thread only if it has called `CreateThread`. -/
theorem Move.alone (inv : CensusInv c) (moved : c.Move False strays thread d)
    (alone : ∀ pid, c.population pid ≤ 1) (pid : Pid) : d.population pid ≤ 1 := by
  cases moved with
  | idle => exact alone pid
  | @exec made call new live first task small fresh =>
    rw [CensusInv.population_spawn (c := c.fork (c.owner thread) made call) fresh]
    have entries := inv.entries
    rw [first] at entries
    have unused := (entries.pop none).1
    have nobody := inv.population_zero (fun alive => nomatch unused.symm.trans alive)
    have one := alone pid
    change c.population pid + _ ≤ 1
    split
    next same =>
      subst same
      omega
    next => omega
  | spawn impossible => exact impossible.elim
  | reap => exact alone pid
  | leave live more =>
    rw [CensusInv.population_leave live]
    exact (Nat.sub_le ..).trans (alone pid)
  | last live =>
    change (c.leave thread).population pid ≤ 1
    rw [CensusInv.population_leave live]
    exact (Nat.sub_le ..).trans (alone pid)

/-- What a thread does leaves the children of other processes where they are. -/
theorem Move.frame (inv : CensusInv c) (moved : c.Move threads False thread d) {child above : Pid}
    (apart : above ≠ c.owner thread) (used : c.pstate child ≠ .free)
    (link : c.parent child = some above) :
    d.pstate child ≠ .free ∧ d.parent child = some above := by
  cases moved with
  | @idle made _ first | @exec made _ _ _ first =>
    have entries := inv.entries
    rw [first] at entries
    have unused := (entries.pop none).1
    have different : child ≠ made := by
      rintro rfl
      exact used unused
    simp only [Census.fork, Census.spawn, update_of_ne different]
    exact ⟨used, link⟩
  | spawn => exact ⟨used, link⟩
  | @reap pid large zombie mine =>
    have different : child ≠ pid := by
      rintro rfl
      have same := link.symm.trans (mine.resolve_left id)
      exact apart (Option.some.inj same)
    simp only [Census.reap, update_of_ne different]
    exact ⟨used, link⟩
  | leave => exact ⟨used, link⟩
  | last =>
    have different : child ∉ c.childrenList (c.owner thread) := by
      intro member
      have same := ((inv.tree.children child _).mp member).2.2
      exact apart (Option.some.inj (link.symm.trans same))
    refine ⟨?_, ?_⟩
    · simp only [terminate, update_apply]
      split
      · decide
      · exact used
    · exact (if_neg different).trans link

theorem Move.live (moved : c.Move threads strays thread d) (member : other ∈ c.live)
    (apart : other ≠ thread) : other ∈ d.live := by
  cases moved with
  | exec | spawn => exact List.mem_cons_of_mem _ member
  | leave | last => exact (List.mem_erase_of_ne apart).mpr member
  | idle | reap => exact member

theorem Moves.own (moved : c.Moves threads strays thread d) : d.owner thread = c.owner thread := by
  induction moved with
  | refl => rfl
  | tail _ last ih => exact (last.owner (.inr rfl)).trans ih

theorem Moves.others (moved : c.Moves threads strays thread d) (member : other ∈ c.live)
    (apart : other ≠ thread) : other ∈ d.live ∧ d.owner other = c.owner other := by
  induction moved with
  | refl => exact ⟨member, rfl⟩
  | tail _ last ih => exact ⟨last.live ih.1 apart, (last.owner (.inl ih.1)).trans ih.2⟩

theorem Moves.alone (inv : CensusInv c) (moved : c.Moves False strays thread d)
    (alone : ∀ pid, c.population pid ≤ 1) : ∀ pid, d.population pid ≤ 1 := by
  induction moved with
  | refl => exact alone
  | tail earlier last ih => exact last.alone (inv.moves earlier) ih

theorem Moves.frame (inv : CensusInv c) (moved : c.Moves threads False thread d) {child above : Pid}
    (apart : above ≠ c.owner thread) (used : c.pstate child ≠ .free)
    (link : c.parent child = some above) :
    d.pstate child ≠ .free ∧ d.parent child = some above := by
  induction moved with
  | refl => exact ⟨used, link⟩
  | tail earlier last ih =>
    refine last.frame (inv.moves earlier) ?_ ih.1 ih.2
    rwa [Moves.own earlier]

/-- Two live threads of one process are the same thread. -/
theorem same_of_alone (alone : ∀ pid, c.population pid ≤ 1) (member : thread ∈ c.live)
    (there : other ∈ c.live) (same : c.owner thread = c.owner other) :
    thread = other := by
  by_contra apart
  have inside : [thread, other] ⊆ c.live.filter fun t => c.owner t = c.owner other := by
    intro t listed
    rcases List.mem_cons.mp listed with rfl | listed
    · simp [member, same]
    · obtain rfl := List.mem_singleton.mp listed
      simp [there]
  have two : [thread, other].Nodup := by simp [apart]
  have short := two.length_le_of_subset inside
  have one := alone (c.owner other)
  rw [population, List.countP_eq_length_filter] at one
  simp only [List.length_cons, List.length_nil] at short
  omega

end Census

/-- The calls that make, end and reap processes. -/
def Label.isProcessCall : Label → Bool
  | .exec .. | .exit .. | .waitChild .. | .resume .. | .store .. => true
  | _ => false

/-- The machine of those calls, in which every process has only its main
thread. -/
def processMachine : Machine State Label := machine.restrict fun _ label => label.isProcessCall

/-- What its runs keep. -/
structure Solo (s : State) : Prop where
  census : CensusInv s.census
  alone : ∀ pid, s.census.population pid ≤ 1
  waits : ∀ thread wait, s.roster.Awaits thread wait → match wait with
    | .specificChild child _ =>
      s.pt.pstate child ≠ .free ∧ s.pt.parent child = some (s.curproc thread)
    | .anyChild _ | .exitLoop _ => True
    | .join .. | .read .. => False
  crashed : s.crashed = none

namespace State
variable {s : State}

/-! ### No assertion fails -/

theorem crashed_reparent (pid : Pid) (children : List Pid) :
    (s.reparent pid children).crashed = s.crashed := by
  induction children generalizing s with
  | nil => rfl
  | cons child rest ih =>
    rw [reparent, ih]

theorem crashed_terminate {pid : Pid} {exitval : Int} {t : State}
    (ended : s.terminate pid exitval = some t) : t.crashed = s.crashed := by
  unfold terminate at ended
  dsimp only at ended
  split at ended
  · cases ended
  · obtain rfl := Option.some.inj ended
    have cleaned : ∀ s : State, (s.cleanUpFidt pid).crashed = s.crashed := by
      refine fun s => foldl_same State.crashed (fun s fid => ?_) _ s
      unfold closeFid
      split <;> rfl
    have adopted : ∀ s : State, (s.adoptExited pid).crashed = s.crashed := by
      intro s
      unfold adoptExited
      split <;> rfl
    have told : ∀ s : State, (s.tellParent pid).crashed = s.crashed := by
      intro s
      unfold tellParent
      split <;> rfl
    exact (told _).trans ((adopted _).trans ((crashed_reparent ..).trans (cleaned _)))

theorem crashed_sysThreadExit {thread : TcbRef} {exitval : Int} {t : State}
    (exited : s.sysThreadExit thread exitval = some t) : t.crashed = s.crashed := by
  unfold sysThreadExit at exited
  dsimp only at exited
  have left : ((s.exitPtcb (s.threads.ptcb thread) exitval).uncountThread
      (s.curproc thread)).crashed = s.crashed := by
    unfold exitPtcb
    dsimp only
    split <;> split <;> rfl
  split at exited
  · obtain ⟨ended, terminated, rfl⟩ := Option.map_eq_some_iff.mp exited
    exact (crashed_terminate terminated).trans left
  · obtain rfl := Option.some.inj exited
    exact left

theorem crashed_exec (curproc : Pid) (call : Task) (argl : Int) (args : Pointer)
    (bytes : List (BitVec 8)) (ptcb : PtcbRef) (tcb : TcbRef) :
    (s.exec curproc call argl args bytes ptcb tcb).2.crashed = s.crashed := by
  have inherited : ∀ (s : State) newproc, (s.inherit curproc newproc).crashed = s.crashed := by
    intro s newproc
    unfold inherit
    split
    · rfl
    · refine foldl_same State.crashed (fun s fid => ?_) _ _
      unfold inheritFid
      dsimp only
      split <;> rfl
  cases first : s.pt.pcbFreelist with
  | none => rw [exec_full first]
  | some pid =>
    unfold exec acquirePcb
    simp only [first]
    split <;> exact inherited _ pid

theorem crashed_specificLoop (thread : TcbRef) (child : Pid) (status : Pointer) :
    (s.specificLoop thread child status).crashed = s.crashed := by
  obtain ⟨-, same⟩ | ⟨-, same⟩ := specificLoop_cases (s := s) thread child status <;> rw [same] <;> rfl

/-- The assertion is about the first of the exited children. -/
theorem crashed_anyLoop (inv : CensusInv s.census) (thread : TcbRef) (status : Pointer) :
    (s.anyLoop thread status).crashed = s.crashed := by
  obtain ⟨-, same⟩ | ⟨child, rest, exited, same⟩ := anyLoop_cases (s := s) thread status
  · rw [same]
    rfl
  · obtain ⟨-, -, -, reaps⟩ := reapExited_first inv exited status
    rw [same, reaps]
    rfl

theorem crashed_sysWaitChild (inv : CensusInv s.census) (thread : TcbRef) (cpid : Int)
    (status : Pointer) : (s.sysWaitChild thread cpid status).crashed = s.crashed := by
  obtain same | ⟨child, -, -, -, same⟩ | ⟨-, -, same⟩ :=
    sysWaitChild_cases (s := s) thread cpid status
  · rw [same]
    rfl
  · rw [same, crashed_specificLoop]
  · rw [same, crashed_anyLoop inv]

theorem crashed_exitRounds (inv : CensusInv s.census) {thread : TcbRef} {fuel : Nat}
    {exitval : Int} {t : State} (exits : exitRounds fuel s thread exitval = some t) :
    t.crashed = s.crashed := by
  induction fuel generalizing s with
  | zero => cases exits
  | succ fuel ih =>
    unfold exitRounds at exits
    split at exits
    · exact crashed_sysThreadExit exits
    · split at exits
      · obtain rfl := Option.some.inj exits
        rfl
      next child _ exited =>
        obtain ⟨large, zombie, -, reaps⟩ := reapExited_first inv exited 0
        rw [reaps] at exits
        have cleaned : CensusInv (s.cleanupZombie child 0).census := inv.reap large zombie
        have kept := ih cleaned exits
        exact kept

theorem crashed_exitResume (inv : CensusInv s.census) {thread : TcbRef} {exitval : Int} {t : State}
    (exits : s.exitResume thread exitval = some t) : t.crashed = s.crashed := by
  unfold exitResume at exits
  split at exits
  · obtain rfl := Option.some.inj exits
    rfl
  next child _ exited =>
    obtain ⟨large, zombie, -, reaps⟩ := reapExited_first inv exited 0
    rw [reaps] at exits
    have cleaned : CensusInv (s.cleanupZombie child 0).census := inv.reap large zombie
    exact crashed_exitRounds cleaned exits

theorem crashed_sysExit (inv : CensusInv s.census) {thread : TcbRef} {exitval : Int} {t : State}
    (exits : s.sysExit thread exitval = some t) : t.crashed = s.crashed := by
  unfold sysExit at exits
  split at exits
  · exact crashed_exitRounds inv exits
  · exact crashed_sysThreadExit exits

/-! ### Who waits for a child -/

/-- A thread that goes on waiting for a child leaves the processes alone. -/
theorem specificLoop_awaits {thread : TcbRef} {child other : Pid} {status status' : Pointer}
    (awaits : (s.specificLoop thread child status).roster.Awaits thread
      (.specificChild other status')) :
    other = child ∧ (s.specificLoop thread child status).census = s.census := by
  obtain ⟨-, same⟩ | ⟨-, same⟩ := specificLoop_cases (s := s) thread child status
  · rw [same] at awaits ⊢
    simp only [roster_kernelWait, Roster.Awaits, Roster.become, update_self] at awaits
    have same_child : other = child ∧ status' = status := by simpa using awaits.2.symm
    exact ⟨same_child.1, rfl⟩
  · rw [same] at awaits
    simp [Roster.Awaits, Roster.become] at awaits

theorem sysWaitChild_awaits {thread : TcbRef} {cpid : Int} {child : Pid} {status status' : Pointer}
    (awaits : (s.sysWaitChild thread cpid status).roster.Awaits thread
      (.specificChild child status')) :
    (s.sysWaitChild thread cpid status).census = s.census := by
  obtain same | ⟨other, -, -, -, same⟩ | ⟨-, -, same⟩ :=
    sysWaitChild_cases (s := s) thread cpid status
  · rw [same, census_ret]
  · rw [same] at awaits ⊢
    exact (specificLoop_awaits awaits).2
  · rw [same] at awaits ⊢
    obtain ⟨become, becomes, rfl | rfl⟩ := roster_anyLoop (s := s) thread status
    all_goals
      rw [becomes] at awaits
      simp [Roster.Awaits, Roster.become] at awaits

end State

namespace Solo
variable {s t : State} {label : Label}

theorem boot (booted : machine.initial s) : Solo s where
  census := censusInv_boot booted
  alone := by
    obtain ⟨heap, threads, stream, memory, serialPorts, call, argl, args, bytes, ptcb, tcb, -, -,
      rfl⟩ := booted
    intro pid
    rw [census_boot]
    split
    · rw [CensusInv.population_spawn (by simp [Census.enroll, emptyCensus])]
      change 0 + _ ≤ 1
      split <;> decide
    · exact Nat.zero_le 1
  waits := fun thread wait awaits => absurd awaits (not_awaits_boot booted thread wait)
  crashed := by
    obtain ⟨heap, threads, stream, memory, serialPorts, call, argl, args, bytes, ptcb, tcb, -, -,
      rfl⟩ := booted
    exact (State.crashed_exec ..).trans (State.crashed_exec ..)

/-- No thread waits for a thread or for a terminal. -/
theorem targetKept (solo : Solo s) (moved : act s label = some t) : s.targetKept label = true := by
  rw [targetKept_iff]
  rintro thread ready target exitval serial rfl waits
  obtain ⟨back, -⟩ := resume_of_waits waits moved
  exact (solo.waits thread _ back.awaits).elim

theorem moves (solo : Solo s) (offered : label.isProcessCall = true)
    (moved : act s label = some t) :
    match label.thread with
    | some thread => thread ∈ s.threads.live ∧ s.census.Moves False False thread t.census
    | none => t.census = s.census := by
  refine act_moves False False solo.census ?_ ?_ (solo.targetKept moved) moved
  · intro creates
    cases label <;> simp [Label.isProcessCall, Label.isCreateThread] at offered creates
  · intro thread ready child status same awaits
    obtain ⟨used, link⟩ := solo.waits thread _ awaits
    exact ⟨solo.census.child_large link used, used, .inr link⟩

theorem step_crashed (solo : Solo s) (offered : label.isProcessCall = true)
    (moved : act s label = some t) : t.crashed = s.crashed := by
  have inv := solo.census
  cases acted_of_act moved with
  | exec => exact State.crashed_exec ..
  | exit _ _ _ exited => exact State.crashed_sysExit inv exited
  | waitChild caller cpid status => exact State.crashed_sysWaitChild inv caller cpid status
  | resumeSpecific caller _ child status => exact State.crashed_specificLoop caller child status
  | resumeAny caller _ status => exact State.crashed_anyLoop inv caller status
  | resumeExit _ _ _ _ resumes => exact State.crashed_exitResume inv resumes
  | resumeJoin _ _ _ _ _ back | resumeRead _ _ _ _ _ back =>
    exact (solo.waits _ _ back.awaits).elim
  | store => rfl
  | _ => cases offered

/-- A thread that waits for a child after its own step has touched no process. -/
theorem own_wait (solo : Solo s) (offered : label.isProcessCall = true)
    (moved : act s label = some t) {thread : TcbRef} (own : label.thread = some thread)
    {child : Pid} {status : Pointer} (awaits : t.roster.Awaits thread (.specificChild child status)) :
    t.census = s.census := by
  cases acted_of_act moved with
  | exec caller call argl args bytes ptcb tcb =>
    obtain rfl := Option.some.inj own
    have user : (s.sysExec caller call argl args bytes ptcb tcb).threads.status caller = .user :=
      update_self ..
    cases user.symm.trans awaits.2
  | exit _ _ calls exited =>
    obtain rfl := Option.some.inj own
    have user := (State.calls_iff.mp calls).2.1
    obtain left | becomes := State.roster_sysExit exited
    · rw [left] at awaits
      cases user.symm.trans awaits.of_leave.2
    · rw [becomes] at awaits
      simp [Roster.Awaits, Roster.become] at awaits
  | waitChild =>
    obtain rfl := Option.some.inj own
    exact State.sysWaitChild_awaits awaits
  | resumeSpecific =>
    obtain rfl := Option.some.inj own
    exact (State.specificLoop_awaits awaits).2
  | resumeAny caller _ status =>
    obtain rfl := Option.some.inj own
    obtain ⟨become, becomes, rfl | rfl⟩ := State.roster_anyLoop (s := s) caller status
    all_goals
      rw [becomes] at awaits
      simp [Roster.Awaits, Roster.become] at awaits
  | resumeExit _ _ _ back resumes =>
    obtain rfl := Option.some.inj own
    obtain left | becomes := State.roster_exitResume resumes
    · rw [left] at awaits
      cases back.waits.symm.trans awaits.of_leave.2
    · rw [becomes] at awaits
      simp [Roster.Awaits, Roster.become] at awaits
  | resumeJoin _ _ _ _ _ back | resumeRead _ _ _ _ _ back =>
    exact (solo.waits _ _ back.awaits).elim
  | store => cases own
  | _ => cases offered

/-- The child that a thread waits for stays a child of its process: only that
thread could reap it or leave it to the initial process. -/
theorem step_waits (solo : Solo s) (offered : label.isProcessCall = true)
    (moved : act s label = some t) {thread : TcbRef} {child : Pid} {status : Pointer}
    (awaits : t.roster.Awaits thread (.specificChild child status)) :
    t.pt.pstate child ≠ .free ∧ t.pt.parent child = some (t.curproc thread) := by
  have kept : t.census = s.census → s.pt.pstate child ≠ .free →
      s.pt.parent child = some (s.curproc thread) →
      t.pt.pstate child ≠ .free ∧ t.pt.parent child = some (t.curproc thread) := by
    intro same used link
    have states : t.pt.pstate = s.pt.pstate := congrArg Census.pstate same
    have parents : t.pt.parent = s.pt.parent := congrArg Census.parent same
    have owners : t.threads.owner = s.threads.owner := congrArg Census.owner same
    rw [states, parents, State.curproc, owners]
    exact ⟨used, link⟩
  obtain before | ⟨live, ⟨⟨cpid, rfl, -⟩, alive, link⟩⟩ := act_awaits moved awaits
  · obtain ⟨used, link⟩ := solo.waits thread _ before
    have moves := solo.moves offered moved
    cases actor : label.thread with
    | none =>
      rw [actor] at moves
      exact kept moves used link
    | some caller =>
      rw [actor] at moves
      by_cases own : thread = caller
      · subst own
        exact kept (solo.own_wait offered moved actor awaits) used link
      · have apart : s.census.owner thread ≠ s.census.owner caller := fun same =>
          own (Census.same_of_alone solo.alone before.1 moves.1 same)
        have framed := moves.2.frame solo.census apart used link
        have owner := (moves.2.others before.1 own).2
        exact ⟨framed.1, framed.2.trans (congrArg some owner.symm)⟩
  · refine kept (solo.own_wait offered moved rfl awaits) ?_ link
    exact fun free => nomatch alive.symm.trans free

theorem step (solo : Solo s) (moved : processMachine.step s label = some t) : Solo t := by
  obtain ⟨offered, moved⟩ := Machine.restrict_step.mp moved
  have moved := act_of_step moved
  have moves := solo.moves offered moved
  have both : CensusInv t.census ∧ ∀ pid, t.census.population pid ≤ 1 := by
    split at moves
    · exact ⟨solo.census.moves moves.2, moves.2.alone solo.census solo.alone⟩
    · rw [moves]
      exact ⟨solo.census, solo.alone⟩
  refine ⟨both.1, both.2, ?_, (solo.step_crashed offered moved).trans solo.crashed⟩
  intro thread wait awaits
  cases wait with
  | specificChild child status => exact solo.step_waits offered moved awaits
  | anyChild | exitLoop => trivial
  | join target exitval serial =>
    obtain before | ⟨-, rfl, -⟩ := act_awaits moved awaits
    · exact solo.waits thread _ before
    · cases offered
  | read fcb device size =>
    obtain before | ⟨-, fd, ready, rfl⟩ := act_awaits moved awaits
    · exact solo.waits thread _ before
    · cases offered

end Solo

/-- The processes form a tree of which the lists of children and of exited
children are a faithful record, and exit values are kept. -/
structure ProcessTree (s : State) : Prop where
  parented : ∀ pid, 2 ≤ pid → s.pt.pstate pid ≠ .free →
    ∃ above, s.pt.parent pid = some above ∧ s.pt.pstate above = .alive
  rooted : ∀ pid, 2 ≤ pid → s.pt.pstate pid ≠ .free → Descends s.pt.parent 1 pid
  child : ∀ pid above, 2 ≤ pid → s.pt.pstate pid ≠ .free → s.pt.parent pid = some above →
    (s.pt.childrenList above).count pid = 1 ∧ ∀ other ≠ above, pid ∉ s.pt.childrenList other
  exited : ∀ pid above, 2 ≤ pid → s.pt.pstate pid ≠ .free → s.pt.parent pid = some above →
    (s.pt.exitedList above).count pid = (if s.pt.pstate pid = .zombie then 1 else 0) ∧
      ∀ other ≠ above, pid ∉ s.pt.exitedList other
  kept : ∀ pid, s.pt.pstate pid = .zombie → s.pt.exitval pid = s.history.exitedWith pid
  reaped : ∀ reap ∈ s.history.reaped, reap.pstate = .zombie ∧ reap.exitval = reap.exitedWith
  reaped_once : (s.history.reaped.map fun reap => (reap.pid, reap.incarnation)).Nodup
  childless : ∀ pid, s.pt.pstate pid ≠ .alive →
    s.pt.childrenList pid = [] ∧ s.pt.exitedList pid = []
  asserts : s.crashed = none

/-- A process that is not alive has left its children to the initial one. -/
theorem CensusInv.childless {c : Census} (inv : CensusInv c) {pid : Pid}
    (ended : c.pstate pid ≠ .alive) : c.childrenList pid = [] ∧ c.exitedList pid = [] := by
  have nobody : ∀ child, 2 ≤ child → c.pstate child ≠ .free → c.parent child ≠ some pid := by
    intro child large used link
    obtain ⟨above, up, alive, -⟩ := inv.tree.parented child large used
    obtain rfl := Option.some.inj (up.symm.trans link)
    exact ended alive
  refine ⟨List.eq_nil_iff_forall_not_mem.mpr fun child member => ?_,
    List.eq_nil_iff_forall_not_mem.mpr fun child member => ?_⟩
  · obtain ⟨large, used, link⟩ := (inv.tree.children child pid).mp member
    exact nobody child large used link
  · obtain ⟨large, zombie, link⟩ := (inv.tree.exited child pid).mp member
    exact nobody child large (fun free => nomatch zombie.symm.trans free) link

theorem CensusInv.processTree {s : State} (inv : CensusInv s.census) (fine : s.crashed = none) :
    ProcessTree s := by
  have tree := inv.tree
  constructor
  case parented =>
    intro pid large used
    obtain ⟨above, link, alive, -⟩ := tree.parented pid large used
    exact ⟨above, link, alive⟩
  case rooted => exact fun pid large used => tree.descends large used
  case child =>
    intro pid above large used link
    have member := (tree.children pid above).mpr ⟨large, used, link⟩
    refine ⟨List.count_eq_one_of_mem (tree.children_nodup above) member, ?_⟩
    intro other apart there
    have same := ((tree.children pid other).mp there).2.2
    exact apart (Option.some.inj (same.symm.trans link))
  case exited =>
    intro pid above large used link
    refine ⟨?_, ?_⟩
    · split
      next zombie =>
        have member := (tree.exited pid above).mpr ⟨large, zombie, link⟩
        exact List.count_eq_one_of_mem (tree.exited_nodup above) member
      next running =>
        exact List.count_eq_zero.mpr fun member => running ((tree.exited pid above).mp member).2.1
    · intro other apart there
      have same := ((tree.exited pid other).mp there).2.2
      exact apart (Option.some.inj (same.symm.trans link))
  case kept => exact inv.zombies
  case reaped =>
    intro reap member
    obtain ⟨zombie, same, -⟩ := inv.reaps reap member
    exact ⟨zombie, same⟩
  case reaped_once => exact inv.reaped_once
  case childless => exact fun pid ended => inv.childless ended
  case asserts => exact fine

/-- **The processes form a tree.** So they do in every state of every run of
`Exec`, `Exit` and `WaitChild`, with zombies kept for the one call that reaps
them. -/
theorem process_tree {s : State} (reached : processMachine.Reachable s) : ProcessTree s := by
  have solo : Solo s := reached.induction (fun _ => .boot) fun _ _ _ solo moved => solo.step moved
  exact solo.census.processTree solo.crashed

/-- A child leaves a grandchild to the initial process, which reaps both. -/
def orphan : List Label :=
  [.exec 0 1 0 0 [] 2 1, .exec 1 1 0 0 [] 3 2, .waitChild 0 2 0, .exit 1 7, .resume 0 0,
    .waitChild 0 noproc 0, .exit 2 8]

theorem process_tree_orphan : ∃ s, orphan.foldlM processMachine.step booted = some s ∧
    s.pt.exitedList 1 = [3] ∧ s.history.reaped = [⟨2, 1, .zombie, 7, 7⟩] ∧
    Descends s.pt.parent 1 3 := by
  have reached : processMachine.Reachable booted := .start booted_initial
  refine ⟨_, rfl, rfl, rfl, ?_⟩
  exact (process_tree (reached.replay orphan rfl)).rooted 3 (by decide) (by decide)

end TinyOs.Kernel
