import TinyOs.ProgramFiles

/-! Programs of the shell that make processes and wait for them: how many
children they have at each point, and on which terminal these are. -/
namespace TinyOs.Kernel
open Function Library

/-- The kernel has just made the process for somebody, with its main thread. -/
def Begun (pid : Pid) (thread : TcbRef) (s : State) : Prop :=
  ∃ before caller call argl args bytes ptcb, undeceivedMachine.Reachable before ∧
    before.pt.pcbFreelist = some pid ∧ call ≠ 0 ∧
    undeceivedMachine.step before (.exec caller call argl args bytes ptcb thread) = some s

namespace Begun
variable {s : State} {pid : Pid} {thread : TcbRef}

/-- It is outside the kernel, alone in its process, and has no children. -/
theorem tended (begun : Begun pid thread s) : Tended pid thread s ∧ 2 ≤ pid ∧
    s.pt.childrenList pid = [] ∧ s.threads.status thread = .user := by
  obtain ⟨before, caller, call, argl, args, bytes, ptcb, reached, first, task, moved⟩ := begun
  have undeceived := Undeceived.of_reachable reached
  have inv := undeceived.sound.census
  have after := undeceived.step moved
  have acted := act_of_step (Machine.restrict_step.mp moved).2
  have large : 2 ≤ pid := inv.free_large first
  have unused : before.pt.pstate pid = .free := by
    have entries := inv.entries
    change FreeEntries before.pt.pstate before.pt.parent before.pt.pcbFreelist
      before.pt.processCount at entries
    rw [first] at entries
    exact (entries.pop none).1
  cases acted_of_act acted with
  | exec _ _ _ _ _ _ _ calls fresh =>
    obtain ⟨live, -, -⟩ := State.calls_iff.mp calls
    obtain ⟨-, -, -, new⟩ := State.fresh_iff.mp fresh
    have census := @State.census_exec before (before.curproc caller) _ first large call argl args
      bytes ptcb thread
    rw [if_pos task] at census
    have members : (before.sysExec caller call argl args bytes ptcb thread).threads.live =
        thread :: before.threads.live := congrArg Census.live census
    have owners : (before.sysExec caller call argl args bytes ptcb thread).threads.owner =
        update before.threads.owner thread pid := congrArg Census.owner census
    have children : (before.sysExec caller call argl args bytes ptcb thread).pt.childrenList =
        update before.pt.childrenList (before.curproc caller)
          (pid :: before.pt.childrenList (before.curproc caller)) :=
      congrArg Census.childrenList census
    have apart : before.curproc caller ≠ pid := by
      intro same
      have alive := (inv.owners caller live).1
      change before.pt.pstate (before.curproc caller) = .alive at alive
      rw [same] at alive
      cases alive.symm.trans unused
    refine ⟨⟨after, ?_, ?_, ?_⟩, large, ?_, ?_⟩
    · rw [members]
      exact List.mem_cons_self
    · exact (congrFun owners thread).trans (update_self ..)
    · intro other member mine
      rw [members] at member
      refine (List.mem_cons.mp member).resolve_right fun older => ?_
      have different : other ≠ thread := by
        rintro rfl
        exact new older
      have owner : before.threads.owner other = pid :=
        ((congrFun owners other).trans (update_of_ne different ..)).symm.trans mine
      have alive := (inv.owners other older).1
      change before.pt.pstate (before.threads.owner other) = .alive at alive
      rw [owner] at alive
      cases alive.symm.trans unused
    · rw [children, update_of_ne apart.symm]
      exact (@CensusInv.childless _ inv pid fun alive => nomatch alive.symm.trans unused).1
    · have different : thread ≠ caller := by
        rintro rfl
        exact new live
      refine (update_of_ne different ..).trans ?_
      change (before.exec (before.curproc caller) call argl args bytes ptcb thread).2.roster.status
        thread = .user
      obtain same | ⟨other, same⟩ := @State.roster_exec before (before.curproc caller) call argl
        args bytes ptcb thread
      · have listed : before.threads.live = thread :: before.threads.live :=
          (congrArg Roster.live same).symm.trans (congrArg Census.live census)
        exact absurd (listed ▸ List.mem_cons_self) new
      · rw [same]
        exact update_self ..

end Begun

/-- The main thread of a process other than the initial one does not come back
from `Exit`. -/
theorem Tended.exits_nowhere {Point : Type} {program : Program Point} {point arrived : Point}
    {pid : Pid} {thread : TcbRef} {s t : State} {exitval : Int} (tended : Tended pid thread s)
    (large : 2 ≤ pid) (moved : act s (.exit thread exitval) = some t) :
    program.arrive thread point t ≠ some arrived := by
  cases acted_of_act moved with
  | exit _ _ _ exited =>
    have other : s.curproc thread ≠ 1 := by
      rw [tended.mine]
      rintro rfl
      exact absurd large (by decide)
    rw [State.sysExit, if_neg other] at exited
    have left : t.threads.live = s.threads.live.erase thread :=
      congrArg Roster.live (State.roster_sysThreadExit exited)
    have nodup : s.threads.live.Nodup := tended.undeceived.sound.census.live_nodup
    rw [Program.arrive, left, if_neg nodup.not_mem_erase]
    exact (Option.some_ne_none arrived).symm

/-! ### Children -/

/-- `bound` is how many children the program may have at each point: `Exec` adds
one, and `WaitChild`, which is for any child, takes one away. -/
def Program.Reaps {Point : Type} (program : Program Point) (bound : Point → Nat) : Prop :=
  ∀ point result, match program.call point with
    | .exec .. => bound point + 1 ≤ bound (program.next point result)
    | .waitChild cpid _ => cpid = noproc ∧ bound point ≤ bound (program.next point result) + 1
    | _ => bound point ≤ bound (program.next point result)

/-- What such a program keeps. -/
structure Reaping {Point : Type} (program : Program Point) (bound : Point → Nat) (pid : Pid)
    (thread : TcbRef) (s : State) (point : Point) : Prop where
  few : (s.pt.childrenList pid).length ≤ bound point
  status : s.threads.status thread = .user ∨ ∃ cpid status,
    program.call point = .waitChild cpid status ∧
      s.threads.status thread = .waiting (.anyChild status)

namespace Reaping
variable {Point : Type} {program : Program Point} {bound : Point → Nat} {pid : Pid}
  {thread : TcbRef} {s t : State} {point arrived : Point}

/-- A child that has exited is one of the children. -/
theorem waited (reaps : program.Reaps bound) (tended : Tended pid thread s)
    (reaping : Reaping program bound pid thread s point) {cpid : Int} {status : Pointer}
    (waits : program.call point = .waitChild cpid status)
    (arrives : program.arrive thread point (s.anyLoop thread status) = some arrived) :
    Reaping program bound pid thread (s.anyLoop thread status) arrived := by
  have inv := tended.undeceived.sound.census
  obtain ⟨-, same⟩ | ⟨child, rest, exited, same⟩ := State.anyLoop_cases (s := s) thread status
  · rw [same] at arrives ⊢
    obtain rfl := Program.arrive_kernelWait arrives
    exact ⟨reaping.few, .inr ⟨cpid, status, waits, update_self ..⟩⟩
  · obtain ⟨large, zombie, link, cleans⟩ := State.reapExited_first inv exited status
    rw [same, cleans] at arrives ⊢
    obtain rfl := Program.arrive_ret arrives
    refine ⟨?_, .inl (update_self ..)⟩
    have one := reaps point child
    rw [waits] at one
    rw [tended.mine] at link
    have used : s.pt.pstate child ≠ .free := fun free => nomatch zombie.symm.trans free
    have member : child ∈ s.pt.childrenList pid :=
      (inv.tree.children child pid).mpr ⟨large, used, link⟩
    have less : ((s.pt.childrenList pid).erase child).length = (s.pt.childrenList pid).length - 1 :=
      List.length_erase_of_mem member
    have few := reaping.few
    change ((s.pt.childrenList pid).erase child).length ≤ _
    omega

theorem resumed (reaps : program.Reaps bound) {ready : Nat} (tended : Tended pid thread s)
    (reaping : Reaping program bound pid thread s point)
    (moved : act s (.resume thread ready) = some t)
    (arrives : program.arrive thread point t = some arrived) :
    Reaping program bound pid thread t arrived := by
  obtain user | ⟨cpid, status, calls, waits⟩ := reaping.status
  · simp [act, user] at moved
  · obtain ⟨-, resumes⟩ := resume_of_waits waits moved
    obtain rfl := Option.some.inj resumes
    exact waited reaps tended reaping calls arrives

/-- A call that neither makes nor reaps a process. -/
theorem passes (reaping : Reaping program bound pid thread s point) (census : t.census = s.census)
    (roster : t.roster = s.roster.become thread .user)
    (more : ∀ result, bound point ≤ bound (program.next point result))
    (arrives : program.arrive thread point t = some arrived) :
    Reaping program bound pid thread t arrived := by
  have user : t.threads.status thread = .user :=
    (congrArg (fun r : Roster => r.status thread) roster).trans (update_self ..)
  obtain rfl := Program.arrive_user user arrives
  refine ⟨?_, .inl user⟩
  have children : t.pt.childrenList = s.pt.childrenList := congrArg Census.childrenList census
  rw [children]
  exact reaping.few.trans (more _)

theorem called (reaps : program.Reaps bound) (large : 2 ≤ pid) {ptcb : PtcbRef} {tcb : TcbRef}
    (tended : Tended pid thread s) (reaping : Reaping program bound pid thread s point)
    (moved : act s ((program.call point).label thread ptcb tcb) = some t)
    (arrives : program.arrive thread point t = some arrived) :
    Reaping program bound pid thread t arrived := by
  have inv := tended.undeceived.sound.census
  have step := reaps point
  cases call : program.call point with
  | exec task argl args bytes =>
    simp only [call] at step moved
    cases acted_of_act (show act s (.exec thread task argl args bytes ptcb tcb) = some t from moved)
    obtain rfl := Program.arrive_ret arrives
    refine ⟨?_, .inl (update_self ..)⟩
    have few := reaping.few
    have one := step (s.exec (s.curproc thread) task argl args bytes ptcb tcb).1
    have children : ((s.exec (s.curproc thread) task argl args bytes ptcb tcb).2.pt.childrenList
        pid).length ≤ (s.pt.childrenList pid).length + 1 := by
      cases first : s.pt.pcbFreelist with
      | none =>
        rw [State.exec_full first]
        exact Nat.le_succ _
      | some made =>
        have census := @State.census_exec s (s.curproc thread) _ first (inv.free_large first) task
          argl args bytes ptcb tcb
        have lists := congrArg Census.childrenList census
        have added : (s.exec (s.curproc thread) task argl args bytes ptcb tcb).2.pt.childrenList =
            update s.pt.childrenList (s.curproc thread)
              (made :: s.pt.childrenList (s.curproc thread)) := by
          refine lists.trans ?_
          split <;> rfl
        rw [added, tended.mine, update_self, List.length_cons]
    exact children.trans ((Nat.succ_le_succ few).trans one)
  | waitChild cpid status =>
    simp only [call] at step moved
    obtain ⟨rfl, -⟩ := step 0
    cases acted_of_act (show act s (.waitChild thread noproc status) = some t from moved)
    by_cases childless : s.pt.childrenList pid = []
    · have fails : s.sysWaitChild thread noproc status = s.ret thread noproc := by
        simp [State.sysWaitChild, State.waitForAnyChild, tended.mine, childless]
      rw [fails] at arrives ⊢
      obtain rfl := Program.arrive_ret arrives
      refine ⟨?_, .inl (update_self ..)⟩
      change (s.pt.childrenList pid).length ≤ _
      rw [childless]
      exact Nat.zero_le _
    · have loops : s.sysWaitChild thread noproc status = s.anyLoop thread status := by
        simp [State.sysWaitChild, State.waitForAnyChild, tended.mine, childless]
      rw [loops] at arrives ⊢
      exact waited reaps tended reaping call arrives
  | exit exitval =>
    simp only [call] at moved
    exact absurd arrives (tended.exits_nowhere large moved)
  | openTerminal termno =>
    simp only [call] at step moved
    cases acted_of_act (show act s (.openTerminal thread termno) = some t from moved)
    exact reaping.passes (State.census_openStream ..) (State.roster_openStream ..) step arrives
  | close fd =>
    simp only [call] at step moved
    cases acted_of_act (show act s (.close thread fd) = some t from moved)
    exact reaping.passes (State.census_sysClose ..) (State.roster_sysClose ..) step arrives
  | dup2 oldfd newfd =>
    simp only [call] at step moved
    cases acted_of_act (show act s (.dup2 thread oldfd newfd) = some t from moved)
    exact reaping.passes (State.census_sysDup2 ..) (State.roster_sysDup2 ..) step arrives

/-- A process that has just been made never has more children than its program
says. -/
theorem of_reachable (reaps : program.Reaps bound) {start : Point} {r : Running Point}
    (reached : (program.machine thread (Begun pid thread) start).Reachable r)
    (here : r.point = some point) :
    Tended pid thread r.kernel ∧ Reaping program bound pid thread r.kernel point ∧ 2 ≤ pid := by
  have large : 2 ≤ pid := by
    refine reached.induction (P := fun _ => 2 ≤ pid) ?_ fun _ _ _ before _ => before
    rintro r ⟨begun, -⟩
    exact begun.tended.2.1
  have other : pid ≠ 1 := by
    rintro rfl
    exact absurd large (by decide)
  rw [← restrict_all (program.machine thread (Begun pid thread) start)] at reached
  have both := @Program.induction _ _ _ pid _ _ _ (Reaping program bound pid thread) ?_ ?_ ?_ ?_ _
    reached _ here
  · exact ⟨both.1, both.2, large⟩
  · intro s begun
    obtain ⟨tended, -, childless, user⟩ := begun.tended
    refine ⟨tended, ?_, .inl user⟩
    rw [childless]
    exact Nat.zero_le _
  · intro s t point label tended reaping _ _ isolated
    have children : t.pt.childrenList pid = s.pt.childrenList pid := isolated.census.children other
    have busy := isolated.busy thread tended.live tended.mine
    exact ⟨children ▸ reaping.few, busy ▸ reaping.status⟩
  · exact fun s t point ptcb tcb arrived tended reaping _ moved arrives =>
      reaping.called reaps large tended moved arrives
  · exact fun s t point ready arrived tended reaping moved arrives =>
      reaping.resumed reaps tended moved arrives

end Reaping

/-! ### `SymposiumOfProcesses` -/

inductive SymposiumPoint (N : Int) where
  | execute (i : Nat) (inside : (i : Int) < N)
  | wait (i : Nat) (inside : (i : Int) < N)
  /-- `SymposiumTable_destroy`, and the return. -/
  | destroy

namespace SymposiumPoint
variable {N : Int}

/-- The head of the loop that waits for the philosophers. -/
def waitFrom (i : Nat) : SymposiumPoint N :=
  if inside : (i : Int) < N then .wait i inside else .destroy

/-- The head of the loop that executes them. -/
def executeFrom (i : Nat) : SymposiumPoint N :=
  if inside : (i : Int) < N then .execute i inside else .waitFrom 0

/-- How many philosophers may be there. -/
def bound : SymposiumPoint N → Nat
  | .execute i _ => i
  | .wait i _ => (N - i).toNat
  | .destroy => 0

end SymposiumPoint

/-- `SymposiumOfProcesses` for `N` philosophers; `args i` is the
`philosopher_args` of the philosopher `i`, 16 bytes at `address`. -/
def symposiumOfProcesses (N : Int) (philosopherProcess : Task) (address : Pointer)
    (args : Nat → List (BitVec 8)) : Program (SymposiumPoint N) where
  call
    | .execute i _ => .exec philosopherProcess 16 address (args i)
    | .wait _ _ => .waitChild noproc 0
    | .destroy => .exit 0
  next
    | .execute i _, _ => .executeFrom (i + 1)
    | .wait i _, _ => .waitFrom (i + 1)
    | .destroy, _ => .destroy

namespace SymposiumPoint
variable {N : Int}

theorem bound_waitFrom (i : Nat) : (waitFrom i : SymposiumPoint N).bound = (N - i).toNat := by
  unfold waitFrom
  split
  · rfl
  next done =>
    change 0 = (N - i).toNat
    omega

theorem bound_executeFrom {i : Nat} (small : (i : Int) ≤ N) :
    (executeFrom i : SymposiumPoint N).bound = i := by
  unfold executeFrom
  split
  · rfl
  · rw [bound_waitFrom]
    omega

end SymposiumPoint

theorem symposiumOfProcesses_reaps (N : Int) (philosopherProcess : Task) (address : Pointer)
    (args : Nat → List (BitVec 8)) :
    (symposiumOfProcesses N philosopherProcess address args).Reaps SymposiumPoint.bound := by
  intro point result
  cases point with
  | execute i inside =>
    change i + 1 ≤ (SymposiumPoint.executeFrom (i + 1) : SymposiumPoint N).bound
    rw [SymposiumPoint.bound_executeFrom (by omega)]
  | wait i inside =>
    refine ⟨rfl, ?_⟩
    change (N - i).toNat ≤ (SymposiumPoint.waitFrom (i + 1) : SymposiumPoint N).bound + 1
    rw [SymposiumPoint.bound_waitFrom]
    omega
  | destroy => exact le_refl 0

/-- Nobody has the process as parent if it has no children. -/
theorem parent_of_childless {s : State} {pid : Pid} (inv : CensusInv s.census)
    (childless : s.pt.childrenList pid = []) (child : Pid) (used : s.pt.pstate child ≠ .free) :
    s.pt.parent child ≠ some pid := by
  intro link
  have member : child ∈ s.pt.childrenList pid :=
    (inv.tree.children child pid).mpr ⟨inv.child_large link used, used, link⟩
  rw [childless] at member
  cases member

/-- **The table is destroyed last**: when `SymposiumOfProcesses` destroys the
table that the philosophers share no process is left that it has made, whatever
the philosophers and all others do, and also if some could not be made. -/
theorem symposium_destroys_last {N : Int} {philosopherProcess : Task} {address : Pointer}
    {args : Nat → List (BitVec 8)} {pid : Pid} {thread : TcbRef} {r : Running (SymposiumPoint N)}
    (reached : ((symposiumOfProcesses N philosopherProcess address args).machine thread
      (Begun pid thread) (.executeFrom 0)).Reachable r)
    (here : r.point = some .destroy) (child : Pid) (used : r.kernel.pt.pstate child ≠ .free) :
    r.kernel.pt.parent child ≠ some pid := by
  obtain ⟨tended, reaping, -⟩ :=
    Reaping.of_reachable (symposiumOfProcesses_reaps N philosopherProcess address args) reached here
  have childless := List.eq_nil_of_length_eq_zero (Nat.le_zero.mp reaping.few)
  exact parent_of_childless tended.undeceived.sound.census childless child used

/-- The boot process has made a process without arguments. -/
def begunBooted : State := booted.sysExec 0 1 0 0 [] 2 1

theorem begun_booted : Begun 2 1 begunBooted :=
  ⟨booted, 0, 1, 0, 0, [], 2, .start booted_initial, rfl, by decide, rfl⟩

/-- A symposium of one, which exits before it is waited for. -/
theorem symposium_destroys_last_one : ∃ r, ((symposiumOfProcesses 1 1 1 fun _ => []).machine 1
      (Begun 2 1) (.executeFrom 0)).Reachable r ∧ r.point = some .destroy ∧
    r.kernel.history.reaped.length = 1 ∧ r.kernel.pt.parent 2 ≠ some 2 := by
  have start : ((symposiumOfProcesses 1 1 1 fun _ => []).machine 1 (Begun 2 1)
    (.executeFrom 0)).Reachable ⟨begunBooted, some (.executeFrom 0)⟩ := .start ⟨begun_booted, rfl⟩
  have ended := start.replay [.call 3 2, .other (.exit 2 0), .call 0 0] rfl
  exact ⟨_, ended, rfl, rfl, symposium_destroys_last ended rfl 2 nofun⟩

/-! ### `Repeat` -/

/-- `times` is the counter of the loop, which has been decremented. -/
inductive RepeatPoint where
  | execute (times : Int)
  | wait (times : Int)
  | returned

namespace RepeatPoint

/-- The head of the loop. -/
def round (times : Int) : RepeatPoint := if times ≠ 0 then .execute (times - 1) else .returned

def bound : RepeatPoint → Nat
  | .execute _ | .returned => 0
  | .wait _ => 1

end RepeatPoint

/-- `Repeat`, once it has found its program. -/
def repeatProgram (prog : ExecuteCall) : Program RepeatPoint where
  call
    | .execute _ => .exec prog.execWrapper prog.argl prog.args prog.bytes
    | .wait _ => .waitChild noproc 0
    | .returned => .exit 0
  next
    | .execute times, _ => .wait times
    | .wait times, _ => .round times
    | .returned, _ => .returned

theorem repeatProgram_reaps (prog : ExecuteCall) :
    (repeatProgram prog).Reaps RepeatPoint.bound := by
  intro point result
  cases point with
  | execute times => exact le_refl 1
  | wait times => exact ⟨rfl, Nat.le_add_left 1 _⟩
  | returned => exact le_refl 0

/-- **`Repeat` runs its program once at a time**: it never has two children, and
none when it executes the program again or returns. -/
theorem repeat_once_at_a_time {prog : ExecuteCall} {times : Int} {pid : Pid} {thread : TcbRef}
    {r : Running RepeatPoint}
    (reached : ((repeatProgram prog).machine thread (Begun pid thread) (.round times)).Reachable r)
    {point : RepeatPoint} (here : r.point = some point) :
    (r.kernel.pt.childrenList pid).length ≤ 1 ∧
      ((∀ left, point ≠ .wait left) → r.kernel.pt.childrenList pid = []) := by
  obtain ⟨-, reaping, -⟩ := Reaping.of_reachable (repeatProgram_reaps prog) reached here
  have few := reaping.few
  cases point with
  | wait left => exact ⟨few, fun other => absurd rfl (other left)⟩
  | execute | returned =>
    have childless := List.eq_nil_of_length_eq_zero (Nat.le_zero.mp few)
    rw [childless]
    exact ⟨Nat.zero_le 1, fun _ => rfl⟩

/-- The first of two rounds is over. -/
theorem repeat_once_at_a_time_two : ∃ r, ((repeatProgram ⟨1, 0, 0, []⟩).machine 1 (Begun 2 1)
      (.round 2)).Reachable r ∧ r.point = some (.execute 0) ∧ r.kernel.pt.childrenList 2 = [] := by
  have start : ((repeatProgram ⟨1, 0, 0, []⟩).machine 1 (Begun 2 1) (.round 2)).Reachable
    ⟨begunBooted, some (.round 2)⟩ := .start ⟨begun_booted, rfl⟩
  have again := start.replay [.call 3 2, .other (.exit 2 0), .call 0 0] rfl
  exact ⟨_, again, rfl, (repeat_once_at_a_time again rfl).2 nofun⟩

/-! ### `RunTerm` -/

inductive RunTermPoint where
  | openTerminal
  | dup (termfid : Int)
  | close (termfid : Int)
  | dupOut
  | execute
  | returned (value : Int)
  deriving DecidableEq

/-- `RunTerm`, once it has found its terminal and its program. -/
def runTerm (term : Nat) (prog : ExecuteCall) : Program RunTermPoint where
  call
    | .openTerminal => .openTerminal term
    | .dup termfid => .dup2 termfid 0
    | .close termfid => .close termfid
    | .dupOut => .dup2 0 1
    | .execute => .exec prog.execWrapper prog.argl prog.args prog.bytes
    | .returned value => .exit value
  next
    | .openTerminal, termfid => if termfid ≠ 0 then .dup termfid else .dupOut
    | .dup termfid, _ => .close termfid
    | .close _, _ => .dupOut
    | .dupOut, _ => .execute
    | .execute, pid => .returned pid
    | .returned value, _ => .returned value

/-- The file table is not full when `RunTerm` opens the terminal. -/
def runTermRoomy (r : Running RunTermPoint) : RunLabel → Bool
  | .call _ _ => match r.point with
    | some .openTerminal => !r.kernel.ft.fcbFreelist.isEmpty
    | _ => true
  | _ => true

/-- A process that has just been made, with a free fid, becomes `RunTerm`. -/
def runTermMachine (term : Nat) (prog : ExecuteCall) (pid : Pid) (thread : TcbRef)
    (fidt : Nat → Option FcbRef) : Machine (Running RunTermPoint) RunLabel :=
  ((runTerm term prog).machine thread (fun s => Begun pid thread s ∧ s.pt.fidt pid = fidt ∧
    term < s.serialPorts ∧ ∃ fid < maxFileid, fidt fid = none) .openTerminal).restrict runTermRoomy

/-- The fids of the process at each point, when it began with `fidt`. -/
def RunTermPoint.Files (term : Nat) (fidt : Nat → Option FcbRef) (pid : Pid) (s : State) :
    RunTermPoint → Prop
  | .openTerminal =>
    s.pt.fidt pid = fidt ∧ term < s.serialPorts ∧ ∃ fid < maxFileid, fidt fid = none
  | .dup termfid => ∃ fid, termfid = (fid : Nat) ∧ 0 < fid ∧ fid < maxFileid ∧ fidt fid = none ∧
      s.OnTerminal pid fid term ∧ ∀ f ≠ fid, s.pt.fidt pid f = fidt f
  | .close termfid => ∃ fid, termfid = (fid : Nat) ∧ 0 < fid ∧ fid < maxFileid ∧ fidt fid = none ∧
      s.OnTerminal pid 0 term ∧ ∀ f, f ≠ 0 → f ≠ fid → s.pt.fidt pid f = fidt f
  | .dupOut => s.OnTerminal pid 0 term ∧ ∀ f, f ≠ 0 → s.pt.fidt pid f = fidt f
  | .execute => s.OnTerminal pid 0 term ∧ s.pt.fidt pid 1 = s.pt.fidt pid 0 ∧
      ∀ f, 2 ≤ f → s.pt.fidt pid f = fidt f
  | .returned _ => True

namespace RunTermPoint
variable {s t : State} {term : Nat} {prog : ExecuteCall} {fidt : Nat → Option FcbRef} {pid : Pid}
  {thread : TcbRef} {point arrived : RunTermPoint}

theorem stable (files : point.Files term fidt pid s) (isolated : Isolated pid s t) :
    point.Files term fidt pid t := by
  have terminal : ∀ fid i, s.OnTerminal pid fid i → t.OnTerminal pid fid i := by
    rintro fid i ⟨fcb, slot, device⟩
    exact ⟨fcb, (congrFun isolated.fidt fid).trans slot,
      (isolated.streams fid fcb slot).1.trans device⟩
  cases point <;> simp only [Files, isolated.fidt, isolated.ports] at files ⊢
  case openTerminal => exact files
  case dup =>
    obtain ⟨fid, same, positive, small, unused, opened, others⟩ := files
    exact ⟨fid, same, positive, small, unused, terminal _ _ opened, others⟩
  case close =>
    obtain ⟨fid, same, positive, small, unused, opened, others⟩ := files
    exact ⟨fid, same, positive, small, unused, terminal _ _ opened, others⟩
  case dupOut => exact ⟨terminal _ _ files.1, files.2⟩
  case execute => exact ⟨terminal _ _ files.1, files.2⟩

theorem called (large : 2 ≤ pid) {ptcb : PtcbRef} {tcb : TcbRef} (tended : Tended pid thread s)
    (files : point.Files term fidt pid s)
    (room : runTermRoomy ⟨s, some point⟩ (.call ptcb tcb) = true)
    (moved : act s (((runTerm term prog).call point).label thread ptcb tcb) = some t)
    (arrives : (runTerm term prog).arrive thread point t = some arrived) :
    arrived.Files term fidt pid t ∧ t.threads.status thread = .user := by
  cases point with
  | openTerminal =>
    cases acted_of_act (show act s (.openTerminal thread term) = some t from moved)
    obtain ⟨same, there, free, small, unused⟩ := files
    have some_free : s.ft.fcbFreelist ≠ [] := by
      intro none
      simp [runTermRoomy, none] at room
    obtain ⟨fid, more, first, small, unused⟩ : ∃ fid more, s.freeFids pid = fid :: more ∧
        fid < maxFileid ∧ fidt fid = none := by
      have member := mem_freeFids.mpr ⟨small, (congrFun same free).trans unused⟩
      obtain ⟨fid, more, first⟩ := List.exists_cons_of_ne_nil (List.ne_nil_of_mem member)
      obtain ⟨small, unused⟩ := mem_freeFids.mp (first ▸ List.mem_cons_self : fid ∈ s.freeFids pid)
      exact ⟨fid, more, first, small, (congrFun same fid).symm.trans unused⟩
    obtain ⟨t, opens, -, terminal, others, -⟩ := opened tended first some_free there
    rw [same] at others
    rw [opens] at arrives ⊢
    obtain rfl := Program.arrive_ret arrives
    refine ⟨?_, update_self ..⟩
    rcases Nat.eq_zero_or_pos fid with rfl | positive
    · exact ⟨terminal, others⟩
    · have valid : (fid : Int) ≠ 0 := by omega
      have next : (runTerm term prog).next .openTerminal fid = .dup fid := by
        simp [runTerm, positive.ne']
      rw [next]
      exact ⟨fid, rfl, positive, small, unused, terminal, others⟩
  | dup termfid =>
    cases acted_of_act (show act s (.dup2 thread termfid 0) = some t from moved)
    obtain ⟨fid, rfl, positive, small, unused, ⟨fcb, slot, device⟩, others⟩ := files
    have copied : SlotSet pid thread 0 (some fcb) s (s.sysDup2 thread fid 0) :=
      dup_set tended small (by decide) slot
    obtain ⟨rfl, back⟩ := copied.back _ _ _ arrives
    refine ⟨⟨fid, rfl, positive, small, unused, copied.set term fcb rfl device, ?_⟩, back⟩
    exact fun f above apart => (copied.others f above).trans (others f apart)
  | close termfid =>
    cases acted_of_act (show act s (.close thread termfid) = some t from moved)
    obtain ⟨fid, rfl, positive, small, unused, terminal, others⟩ := files
    have closed : SlotSet pid thread fid none s (s.sysClose thread fid) := close_set tended small
    obtain ⟨rfl, back⟩ := closed.back _ _ _ arrives
    refine ⟨⟨closed.kept 0 term positive.ne terminal, fun f above => ?_⟩, back⟩
    rcases eq_or_ne f fid with rfl | apart
    · exact closed.here.trans unused.symm
    · exact (closed.others f apart).trans (others f above apart)
  | dupOut =>
    cases acted_of_act (show act s (.dup2 thread 0 1) = some t from moved)
    obtain ⟨⟨fcb, slot, device⟩, others⟩ := files
    have copied : SlotSet pid thread 1 (some fcb) s (s.sysDup2 thread 0 1) :=
      dup_set tended (by decide) (by decide) slot
    obtain ⟨rfl, back⟩ := copied.back _ _ _ arrives
    refine ⟨⟨copied.kept 0 term nofun ⟨fcb, slot, device⟩, ?_, fun f above => ?_⟩, back⟩
    · rw [copied.here, copied.others 0 nofun, slot]
    · exact (copied.others f (by omega)).trans (others f (by omega))
  | execute =>
    cases acted_of_act (show act s (.exec thread prog.execWrapper prog.argl prog.args prog.bytes
      ptcb tcb) = some t from moved)
    obtain rfl := Program.arrive_ret arrives
    exact ⟨trivial, update_self ..⟩
  | returned value => exact absurd arrives (tended.exits_nowhere large moved)

end RunTermPoint

/-- **`RunTerm` moves its program to the terminal**: the process that it makes
has its standard streams on the terminal, one stream for both, and the other
fids as `RunTerm` found them. -/
theorem runTerm_streams {term : Nat} {prog : ExecuteCall} {pid child : Pid} {thread : TcbRef}
    {fidt : Nat → Option FcbRef} {r r' : Running RunTermPoint} {ptcb : PtcbRef} {tcb : TcbRef}
    (reached : (runTermMachine term prog pid thread fidt).Reachable r)
    (here : r.point = some .execute)
    (moved : (runTermMachine term prog pid thread fidt).step r (.call ptcb tcb) = some r')
    (made : r.kernel.pt.pcbFreelist = some child) :
    r'.kernel.pt.parent child = some pid ∧ r'.kernel.OnTerminal child 0 term ∧
      r'.kernel.pt.fidt child 1 = r'.kernel.pt.fidt child 0 ∧
      ∀ fid, 2 ≤ fid → r'.kernel.pt.fidt child fid = fidt fid := by
  obtain ⟨tended, files, -⟩ : Tended pid thread r.kernel ∧
      RunTermPoint.execute.Files term fidt pid r.kernel ∧
        r.kernel.threads.status thread = .user ∧ 2 ≤ pid := by
    refine @Program.induction _ _ _ pid _ _ _ (fun s point =>
      point.Files term fidt pid s ∧ s.threads.status thread = .user ∧ 2 ≤ pid) ?_ ?_ ?_ ?_ _ reached
      _ here
    · rintro s ⟨begun, files⟩
      obtain ⟨tended, large, -, user⟩ := begun.tended
      exact ⟨tended, files, user, large⟩
    · rintro s t point label tended ⟨files, user, large⟩ _ _ isolated
      exact ⟨RunTermPoint.stable files isolated,
        (isolated.busy thread tended.live tended.mine).trans user, large⟩
    · rintro s t point ptcb tcb arrived tended ⟨files, -, large⟩ room moved arrives
      obtain ⟨files, user⟩ := RunTermPoint.called large tended files room moved arrives
      exact ⟨files, user, large⟩
    · rintro s t point ready arrived _ ⟨-, user, -⟩ moved
      simp [act, user] at moved
  obtain ⟨⟨fcb, slot, device⟩, both, others⟩ := files
  obtain ⟨-, moved⟩ := Machine.restrict_step.mp moved
  obtain ⟨moved, -⟩ := @Program.call_step _ (runTerm term prog) _ _ _ _ _ _ moved here
  obtain ⟨-, link, copied, stream⟩ := exec_child tended moved made
  refine ⟨link, ⟨fcb, (copied 0).trans slot, (congrFun stream fcb).trans device⟩, ?_, ?_⟩
  · rw [copied, copied, both]
  · exact fun fid above => (copied fid).trans (others fid above)

/-- `RunTerm` in a process without open files. -/
theorem runTerm_streams_closed : ∃ r r',
    (runTermMachine 0 ⟨1, 0, 0, []⟩ 2 1 (begunBooted.pt.fidt 2)).Reachable r ∧
    r.point = some .execute ∧
    (runTermMachine 0 ⟨1, 0, 0, []⟩ 2 1 (begunBooted.pt.fidt 2)).step r (.call 3 2) = some r' ∧
    r'.kernel.OnTerminal 3 0 0 ∧ r'.kernel.pt.fidt 3 1 = r'.kernel.pt.fidt 3 0 := by
  let M := runTermMachine 0 ⟨1, 0, 0, []⟩ 2 1 (begunBooted.pt.fidt 2)
  have start : M.Reachable ⟨begunBooted, some .openTerminal⟩ :=
    .start ⟨⟨begun_booted, rfl, by decide, 0, by decide, rfl⟩, rfl⟩
  have runs : ([.call 0 0, .call 0 0].foldlM M.step ⟨begunBooted, some .openTerminal⟩).map
      (fun r => (r.point, r.kernel.pt.pcbFreelist, (M.step r (.call 3 2)).isSome)) =
      some (some .execute, some 3, true) := by
    decide +kernel
  obtain ⟨r, ran, same⟩ := Option.map_eq_some_iff.mp runs
  simp only [Prod.mk.injEq] at same
  obtain ⟨here, made, moves⟩ := same
  obtain ⟨r', moved⟩ := Option.isSome_iff_exists.mp moves
  have reached := start.replay [.call 0 0, .call 0 0] ran
  obtain ⟨-, input, output, -⟩ := runTerm_streams reached here moved made
  exact ⟨r, r', reached, here, moved, input, output⟩

end TinyOs.Kernel
