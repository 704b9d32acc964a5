import TinyOs.Isolation

/-! A program that runs as the only thread of its process, over a kernel on
which all other threads do what they like. What it relies on between two of its
system calls is that processes are isolated. -/
namespace TinyOs.Kernel
open Function Library

/-- A system call as the program makes it. -/
inductive Syscall where
  | exec (call : Task) (argl : Int) (args : Pointer) (bytes : List (BitVec 8))
  | exit (exitval : Int)
  | waitChild (cpid : Int) (status : Pointer)
  | openTerminal (termno : Nat)
  | close (fd : Int)
  | dup2 (oldfd newfd : Int)

/-- The step of the kernel; `ptcb` and `tcb` are the memory it finds for a new
thread. -/
def Syscall.label (thread : TcbRef) (ptcb : PtcbRef) (tcb : TcbRef) : Syscall → Label
  | .exec call argl args bytes => .exec thread call argl args bytes ptcb tcb
  | .exit exitval => .exit thread exitval
  | .waitChild cpid status => .waitChild thread cpid status
  | .openTerminal termno => .openTerminal thread termno
  | .close fd => .close thread fd
  | .dup2 oldfd newfd => .dup2 thread oldfd newfd

/-- What `Execute` passes to `Exec` for a program and its arguments. -/
structure ExecuteCall where
  execWrapper : Task
  argl : Int
  args : Pointer
  bytes : List (BitVec 8)

/-- A program by its points in user code: at each it makes a system call, with
whose result it goes on at the next. -/
structure Program (Point : Type) where
  call : Point → Syscall
  next : Point → Int → Point

/-- A thread at a point of its program, over a kernel. It stays at the point
until the system call that it makes there returns, and is at none when it has
exited. -/
structure Running (Point : Type) where
  kernel : State
  point : Option Point

inductive RunLabel where
  /-- The thread makes its next system call. -/
  | call (ptcb : PtcbRef) (tcb : TcbRef)
  /-- It goes on after a `kernel_wait`. -/
  | resume (ready : Nat)
  /-- Another thread takes a step, or an interrupt comes. -/
  | other (label : Label)

namespace Program
variable {Point : Type} (program : Program Point) (thread : TcbRef)

/-- Where the thread is after a step of its own that it took at `point`. -/
def arrive (point : Point) (t : State) : Option Point :=
  if thread ∈ t.threads.live then
    some (if t.threads.status thread = .user then program.next point (t.threads.returned thread)
      else point)
  else none

def step (r : Running Point) : RunLabel → Option (Running Point)
  | .call ptcb tcb => do
    let point ← r.point
    let t ← undeceivedMachine.step r.kernel ((program.call point).label thread ptcb tcb)
    some { kernel := t, point := program.arrive thread point t }
  | .resume ready => do
    let point ← r.point
    let t ← undeceivedMachine.step r.kernel (.resume thread ready)
    some { kernel := t, point := program.arrive thread point t }
  | .other label =>
    if r.point.isSome ∧ label.thread = some thread then none
    else (undeceivedMachine.step r.kernel label).map fun t => { r with kernel := t }

/-- The program starts at a point in one of the states in which it begins. -/
def machine (begins : State → Prop) (start : Point) : Machine (Running Point) RunLabel where
  initial r := begins r.kernel ∧ r.point = some start
  step := program.step thread

variable {program thread}

/-- A step of the program is one of its own at a point, or one of another thread. -/
theorem step_cases {r r' : Running Point} {label : RunLabel}
    (moved : program.step thread r label = some r') :
    (∃ point own, r.point = some point ∧ own.thread = some thread ∧
      (∃ ptcb tcb, label = .call ptcb tcb ∧ own = (program.call point).label thread ptcb tcb ∨
        ∃ ready, label = .resume ready ∧ own = .resume thread ready) ∧
      undeceivedMachine.step r.kernel own = some r'.kernel ∧
      r'.point = program.arrive thread point r'.kernel) ∨
    ∃ other, label = .other other ∧ (r.point.isSome → other.thread ≠ some thread) ∧
      undeceivedMachine.step r.kernel other = some r'.kernel ∧ r'.point = r.point := by
  cases label with
  | call ptcb tcb =>
    obtain ⟨point, here, moved⟩ := Option.bind_eq_some_iff.mp moved
    obtain ⟨t, stepped, same⟩ := Option.bind_eq_some_iff.mp moved
    cases same
    have own : ((program.call point).label thread ptcb tcb).thread = some thread := by
      cases program.call point <;> rfl
    exact .inl ⟨point, _, here, own, ⟨ptcb, tcb, .inl ⟨rfl, rfl⟩⟩, stepped, rfl⟩
  | resume ready =>
    obtain ⟨point, here, moved⟩ := Option.bind_eq_some_iff.mp moved
    obtain ⟨t, stepped, same⟩ := Option.bind_eq_some_iff.mp moved
    cases same
    exact .inl
      ⟨point, .resume thread ready, here, rfl, ⟨0, 0, .inr ⟨ready, rfl, rfl⟩⟩, stepped, rfl⟩
  | other other =>
    simp only [step] at moved
    split at moved
    · cases moved
    next apart =>
      obtain ⟨t, stepped, rfl⟩ := Option.map_eq_some_iff.mp moved
      exact .inr ⟨other, rfl, fun some_point own => apart ⟨some_point, own⟩, stepped, rfl⟩

theorem call_step {r r' : Running Point} {ptcb : PtcbRef} {tcb : TcbRef} {point : Point}
    (moved : program.step thread r (.call ptcb tcb) = some r') (here : r.point = some point) :
    undeceivedMachine.step r.kernel ((program.call point).label thread ptcb tcb) = some r'.kernel ∧
      r'.point = program.arrive thread point r'.kernel := by
  obtain ⟨left, own, at_left, -, how, moved, arrives⟩ | ⟨other, impossible, -⟩ := step_cases moved
  · obtain rfl := Option.some.inj (here.symm.trans at_left)
    obtain ⟨_, _, ⟨same, rfl⟩ | ⟨_, impossible, -⟩⟩ := how
    · cases same
      exact ⟨moved, arrives⟩
    · cases impossible
  · cases impossible

theorem arrive_user {t : State} {point arrived : Point} (user : t.threads.status thread = .user)
    (arrives : program.arrive thread point t = some arrived) :
    arrived = program.next point (t.threads.returned thread) := by
  unfold arrive at arrives
  rw [if_pos user] at arrives
  split at arrives
  · exact (Option.some.inj arrives).symm
  · cases arrives

theorem arrive_ret {s : State} {point arrived : Point} {value : Int}
    (arrives : program.arrive thread point (s.ret thread value) = some arrived) :
    arrived = program.next point value := by
  have back := arrive_user (update_self ..) arrives
  rwa [show (s.ret thread value).threads.returned thread = value from update_self ..] at back

theorem arrive_kernelWait {s : State} {point arrived : Point} {wait : Wait}
    (arrives : program.arrive thread point (s.kernelWait thread wait) = some arrived) :
    arrived = point := by
  unfold arrive at arrives
  split at arrives
  · obtain rfl := Option.some.inj arrives
    simp [State.kernelWait, State.setStatus]
  · cases arrives

end Program

/-- What a program relies on as long as its thread has not exited. -/
structure Tended (pid : Pid) (thread : TcbRef) (s : State) : Prop where
  undeceived : Undeceived s
  live : thread ∈ s.threads.live
  mine : s.curproc thread = pid
  alone : ∀ other ∈ s.threads.live, s.curproc other = pid → other = thread

namespace Census
variable {c d : Census} {strays : Prop} {thread : TcbRef}

/-- A thread that does not call `CreateThread` stays the only one. -/
theorem Move.members (inv : CensusInv c) (moved : c.Move False strays thread d) :
    ∀ other ∈ d.live, d.owner other = c.owner thread →
      other ∈ c.live ∧ c.owner other = c.owner thread := by
  intro other member mine
  cases moved with
  | idle | reap => exact ⟨member, mine⟩
  | spawn impossible => exact impossible.elim
  | leave | last => exact ⟨List.mem_of_mem_erase member, mine⟩
  | @exec made call new live first =>
    have entries := inv.entries
    rw [first] at entries
    have apart : made ≠ c.owner thread := by
      intro same
      have alive := (inv.owners thread live).1
      rw [← same] at alive
      cases alive.symm.trans (entries.pop none).1
    have older : other ≠ new := by
      rintro rfl
      exact apart ((update_self ..).symm.trans mine)
    exact ⟨(List.mem_cons.mp member).resolve_left older, (update_of_ne older ..).symm.trans mine⟩

theorem Moves.members (inv : CensusInv c) (moved : c.Moves False strays thread d) :
    ∀ other ∈ d.live, d.owner other = c.owner thread →
      other ∈ c.live ∧ c.owner other = c.owner thread := by
  induction moved with
  | refl => exact fun other member mine => ⟨member, mine⟩
  | tail earlier last ih =>
    intro other member mine
    have own := Moves.own earlier
    obtain ⟨member, mine⟩ := last.members (inv.moves earlier) other member (by rw [own, mine])
    exact ih other member (by rw [mine, own])

end Census

namespace Tended
variable {s t : State} {pid : Pid} {thread : TcbRef} {label : Label}

theorem alive (tended : Tended pid thread s) : s.pt.pstate pid = .alive := by
  have owner := (tended.undeceived.sound.census.owners thread tended.live).1
  rwa [show s.census.owner thread = pid from tended.mine] at owner

/-- The boot task. -/
theorem boot (booted : machine.initial s) (live : thread ∈ s.threads.live) : Tended 1 thread s := by
  have only : ∀ other ∈ s.threads.live, s.curproc other = 1 ∧ other = thread := by
    have before := booted
    obtain ⟨heap, threads, stream, memory, serialPorts, call, argl, args, bytes, ptcb, tcb, -, -,
      rfl⟩ := before
    have census := census_boot heap threads stream memory serialPorts call argl args bytes ptcb tcb
    generalize boot (initialized heap threads stream memory serialPorts) call argl args bytes ptcb
      tcb = s at census live ⊢
    have listed : s.threads.live = s.census.live := rfl
    have owned : s.curproc = s.census.owner := rfl
    rw [census] at listed owned
    split at listed
    next some_task =>
      rw [if_pos some_task] at owned
      replace listed : s.threads.live = [tcb] := listed
      rw [listed, List.mem_singleton] at live
      intro other member
      rw [listed, List.mem_singleton] at member
      subst live member
      exact ⟨(congrFun owned _).trans (update_self ..), rfl⟩
    next => cases listed ▸ live
  exact ⟨.boot booted, live, (only thread live).1, fun other member _ => (only other member).2⟩

/-- The step of another thread is one of another process. -/
theorem foreign (tended : Tended pid thread s) (other : label.thread ≠ some thread)
    (moved : undeceivedMachine.step s label = some t) : s.Foreign pid label := by
  intro actor own mine
  obtain ⟨offered, stepped⟩ := Machine.restrict_step.mp moved
  have moves := tended.undeceived.moves True offered (fun _ => trivial) (act_of_step stepped)
  rw [own] at moves
  exact other (own.trans (congrArg some (tended.alone actor moves.1 mine)))

theorem others (tended : Tended pid thread s) (other : label.thread ≠ some thread)
    (moved : undeceivedMachine.step s label = some t) :
    Tended pid thread t ∧ Isolated pid s t := by
  have isolated :=
    Isolated.of_step tended.undeceived tended.alive (tended.foreign other moved) moved
  obtain ⟨live, mine⟩ := (isolated.census.members thread).mpr ⟨tended.live, tended.mine⟩
  refine ⟨⟨tended.undeceived.step moved, live, mine, ?_⟩, isolated⟩
  intro actor member theirs
  obtain ⟨before, owned⟩ := (isolated.census.members actor).mp ⟨member, theirs⟩
  exact tended.alone actor before owned

theorem own (tended : Tended pid thread s) (own : label.thread = some thread)
    (creates : label.isCreateThread = false) (moved : undeceivedMachine.step s label = some t)
    (live : thread ∈ t.threads.live) : Tended pid thread t := by
  obtain ⟨offered, stepped⟩ := Machine.restrict_step.mp moved
  have moves := tended.undeceived.moves False offered
    (fun makes => nomatch creates.symm.trans makes) (act_of_step stepped)
  rw [own] at moves
  have stays : t.curproc thread = s.curproc thread := Census.Moves.own moves.2
  refine ⟨tended.undeceived.step moved, live, stays.trans tended.mine, ?_⟩
  intro other member mine
  have members := moves.2.members tended.undeceived.sound.census other member
    (mine.trans tended.mine.symm)
  exact tended.alone other members.1 (members.2.trans tended.mine)

end Tended

/-- A machine on whose steps there is no condition. -/
theorem restrict_all {State Label : Type*} (M : Machine State Label) :
    M.restrict (fun _ _ => true) = M := rfl

/-- What an isolated process finds unchanged, and the system calls of a program
keep, holds at every point that the program reaches. -/
theorem Program.induction {Point : Type} {program : Program Point} {thread : TcbRef} {pid : Pid}
    {begins : State → Prop} {start : Point} {offered : Running Point → RunLabel → Bool}
    {Inv : State → Point → Prop}
    (initial : ∀ s, begins s → Tended pid thread s ∧ Inv s start)
    (stable : ∀ s t point label, Tended pid thread s → Inv s point →
      label.thread ≠ some thread → undeceivedMachine.step s label = some t → Isolated pid s t →
      Inv t point)
    (called : ∀ s t point ptcb tcb arrived, Tended pid thread s → Inv s point →
      offered ⟨s, some point⟩ (.call ptcb tcb) = true →
      act s ((program.call point).label thread ptcb tcb) = some t →
      program.arrive thread point t = some arrived → Inv t arrived)
    (resumed : ∀ s t point ready arrived, Tended pid thread s → Inv s point →
      act s (.resume thread ready) = some t →
      program.arrive thread point t = some arrived → Inv t arrived)
    {r : Running Point}
    (reached : ((program.machine thread begins start).restrict offered).Reachable r)
    {point : Point} (here : r.point = some point) :
    Tended pid thread r.kernel ∧ Inv r.kernel point := by
  suffices every : ∀ point, r.point = some point →
      Tended pid thread r.kernel ∧ Inv r.kernel point from every point here
  refine reached.induction (P := fun r => ∀ point, r.point = some point →
    Tended pid thread r.kernel ∧ Inv r.kernel point) ?_ ?_
  · rintro r ⟨begins, started⟩ point here
    obtain rfl := Option.some.inj (here.symm.trans started)
    exact initial r.kernel begins
  · intro r label r' before moved point arrived
    obtain ⟨allowed, moved⟩ := Machine.restrict_step.mp moved
    obtain ⟨left, own, here, mine, how, moved, arrives⟩ | ⟨other, -, apart, moved, stays⟩ :=
      Program.step_cases moved
    · obtain ⟨tended, inv⟩ := before left here
      have acted := act_of_step (Machine.restrict_step.mp moved).2
      rw [arrives] at arrived
      have live : thread ∈ r'.kernel.threads.live := by
        by_contra gone
        rw [arrive, if_neg gone] at arrived
        cases arrived
      obtain ⟨ptcb, tcb, ⟨rfl, rfl⟩ | ⟨ready, rfl, rfl⟩⟩ := how
      · have creates : ((program.call left).label thread ptcb tcb).isCreateThread = false := by
          cases program.call left <;> rfl
        have allowed : offered ⟨r.kernel, some left⟩ (.call ptcb tcb) = true := by
          rw [← here]
          exact allowed
        exact ⟨tended.own mine creates moved live,
          called _ _ left ptcb tcb point tended inv allowed acted arrived⟩
      · exact ⟨tended.own mine rfl moved live,
          resumed _ _ left ready point tended inv acted arrived⟩
    · rw [stays] at arrived
      obtain ⟨tended, inv⟩ := before point arrived
      have foreign := apart (arrived ▸ rfl)
      obtain ⟨still, isolated⟩ := tended.others foreign moved
      exact ⟨still, stable _ _ point other tended inv foreign moved isolated⟩

/-- The kernel under a program is in a state of one of its own runs. -/
theorem Program.kernel_reachable {Point : Type} {program : Program Point} {thread : TcbRef}
    {begins : State → Prop} {start : Point} {offered : Running Point → RunLabel → Bool}
    (initial : ∀ s, begins s → undeceivedMachine.Reachable s) {r : Running Point}
    (reached : ((program.machine thread begins start).restrict offered).Reachable r) :
    undeceivedMachine.Reachable r.kernel := by
  refine reached.induction (P := fun r => undeceivedMachine.Reachable r.kernel) ?_ ?_
  · rintro r ⟨begun, -⟩
    exact initial r.kernel begun
  intro r label r' before moved
  obtain ⟨-, moved⟩ := Machine.restrict_step.mp moved
  obtain ⟨_, _, _, _, _, moved, _⟩ | ⟨_, _, _, moved, _⟩ := Program.step_cases moved
  · exact before.step moved
  · exact before.step moved

end TinyOs.Kernel
