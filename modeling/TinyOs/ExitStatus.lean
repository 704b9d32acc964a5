import TinyOs.WaitSafety

/-! Which exit value a process has in the end: that of the last of its threads
to finish, whether by `Exit` or not. -/
namespace TinyOs.Kernel
open Function Library

/-- How a thread finishes: by `Exit` or the return of a main task, or else by
`ThreadExit` or the return of another one. -/
structure Finish where
  byExit : Bool
  exitval : Int
  deriving DecidableEq, Repr

/-- The step by which a thread of an incarnation of a process finishes. -/
def State.finish (s : State) (pid : Pid) (incarnation : Nat) : Label → Option Finish
  | .exit thread exitval =>
    if s.curproc thread = pid ∧ s.history.incarnation pid = incarnation then some ⟨true, exitval⟩
    else none
  | .threadExit thread exitval =>
    if s.curproc thread = pid ∧ s.history.incarnation pid = incarnation then some ⟨false, exitval⟩
    else none
  | _ => none

/-- The threads of an incarnation of a process that have finished, the last one
first. -/
def finishes (past : List (State × Label)) (pid : Pid) (incarnation : Nat) : List Finish :=
  past.filterMap fun left => left.1.finish pid incarnation left.2

/-- Where a `WaitChild` that reaps in this step stores the status. -/
def State.statusPointer (s : State) : Label → Option Pointer
  | .waitChild _ _ status => some status
  | .resume thread _ =>
    match s.threads.status thread with
    | .waiting (.specificChild _ status) | .waiting (.anyChild status) => some status
    | _ => none
  | _ => none

namespace Census
variable {c d : Census} {threads strays : Prop} {thread : TcbRef} {pid : Pid}

/-- What a thread does that goes on makes no zombie. -/
theorem Move.zombie (moved : c.Move threads strays thread d) (inv : CensusInv c)
    (stays : thread ∈ d.live) (zombie : d.pstate pid = .zombie) :
    c.pstate pid = .zombie ∧ d.exitval pid = c.exitval pid ∧
      d.incarnation pid = c.incarnation pid := by
  cases moved with
  | @idle made | @exec made =>
    have zombie : update c.pstate made .alive pid = .zombie := zombie
    have different : pid ≠ made := by
      rintro rfl
      cases (update_self ..).symm.trans zombie
    rw [update_of_ne different] at zombie
    exact ⟨zombie, rfl, update_of_ne different ..⟩
  | spawn => exact ⟨zombie, rfl, rfl⟩
  | @reap child =>
    have zombie : update c.pstate child .free pid = .zombie := zombie
    have different : pid ≠ child := by
      rintro rfl
      cases (update_self ..).symm.trans zombie
    rw [update_of_ne different] at zombie
    exact ⟨zombie, rfl, rfl⟩
  | leave | last => exact absurd stays inv.live_nodup.not_mem_erase

theorem Moves.zombie (moved : c.Moves threads strays thread d) (inv : CensusInv c)
    (stays : thread ∈ d.live) (zombie : d.pstate pid = .zombie) :
    c.pstate pid = .zombie ∧ d.exitval pid = c.exitval pid ∧
      d.incarnation pid = c.incarnation pid := by
  induction moved with
  | refl => exact ⟨zombie, rfl, rfl⟩
  | tail earlier last ih =>
    obtain ⟨before, exitval, incarnation⟩ := last.zombie (inv.moves earlier) stays zombie
    obtain ⟨first, exitval', incarnation'⟩ := ih (last.stayed stays) before
    exact ⟨first, exitval.trans exitval', incarnation.trans incarnation'⟩

theorem Moves.owner {other : TcbRef} (moved : c.Moves threads strays thread d)
    (member : other ∈ c.live) : d.owner other = c.owner other := by
  by_cases own : other = thread
  · subst other
    exact moved.own
  · exact (moved.others member own).2

end Census

section
variable {s s' t : State} {label : Label} {thread : TcbRef} {pid : Pid} {incarnation : Nat}
  {exitval : Int}

theorem finish_goesOn (goes : s.exits label = false) : s.finish pid incarnation label = none := by
  cases label
  case exit | threadExit => cases goes
  all_goals rfl

theorem finish_other (own : label.thread = some thread) (apart : s.curproc thread ≠ pid) :
    s.finish pid incarnation label = none := by
  cases label
  case exit | threadExit =>
    obtain rfl := Option.some.inj own
    exact if_neg fun same => apart same.1
  all_goals rfl

theorem finishes_none {past : List (State × Label)}
    (none : s.finish pid incarnation label = none) :
    finishes ((s, label) :: past) pid incarnation = finishes past pid incarnation :=
  List.filterMap_cons_none none

theorem finishes_some {past : List (State × Label)} {finish : Finish}
    (finished : s.finish pid incarnation label = some finish) :
    finishes ((s, label) :: past) pid incarnation = finish :: finishes past pid incarnation :=
  List.filterMap_cons_some finished

/-- Only the initial process waits before its `Exit` begins. -/
theorem exitCall_other (begins : s.exitCall label = some (s', thread, exitval))
    (loops : s.roster.Awaits thread (.exitLoop exitval) → s.curproc thread = 1)
    (other : s.curproc thread ≠ 1) :
    s' = s ∧ (label = .threadExit thread exitval ∨ label = .exit thread exitval) := by
  cases label
  case threadExit caller value =>
    simp only [State.exitCall, Option.ite_none_right_eq_some, Option.some.injEq,
      Prod.mk.injEq] at begins
    obtain ⟨-, rfl, rfl, rfl⟩ := begins
    exact ⟨rfl, .inl rfl⟩
  case exit caller value =>
    simp only [State.exitCall, Option.ite_none_right_eq_some] at begins
    obtain ⟨-, begins⟩ := begins
    split at begins
    next root =>
      obtain ⟨drained, -, same⟩ := Option.map_eq_some_iff.mp begins
      cases same
      exact absurd root other
    next =>
      cases begins
      exact ⟨rfl, .inr rfl⟩
  case resume caller ready =>
    obtain ⟨-, own, live, user | waits, -⟩ := exitCall_begins begins
    · obtain rfl := Option.some.inj own
      simp [State.exitCall, user] at begins
    · exact absurd (loops ⟨live, waits⟩) other
  all_goals cases begins

end

/-- The exit values of the processes that have ended are those of their last
threads, and only the initial process waits in `sys_Exit`. -/
structure Statuses (past : List (State × Label)) (s : State) : Prop where
  loops : ∀ thread exitval, s.roster.Awaits thread (.exitLoop exitval) → s.curproc thread = 1
  zombies : ∀ pid, 1 < pid → s.pt.pstate pid = .zombie →
    (finishes past pid (s.history.incarnation pid)).head?.map Finish.exitval =
      some (s.pt.exitval pid)

namespace Statuses
variable {past : List (State × Label)} {s t : State} {label : Label}

theorem boot (booted : machine.initial s) : Statuses [] s where
  loops := fun thread _ awaits => absurd awaits (not_awaits_boot booted thread _)
  zombies := by
    intro pid _ zombie
    rw [pstate_boot booted] at zombie
    split at zombie <;> cases zombie

theorem loops_step (statuses : Statuses past s) (sound : Sound s)
    (child : s.childKept label = true) (target : s.targetKept label = true)
    (moved : act s label = some t) (thread : TcbRef) (exitval : Int)
    (awaits : t.roster.Awaits thread (.exitLoop exitval)) : t.curproc thread = 1 := by
  have moves := sound.moves child target moved
  have owner : thread ∈ s.threads.live → t.curproc thread = s.curproc thread := by
    intro live
    split at moves
    · exact moves.2.owner live
    · exact congrArg (fun c => c.owner thread) moves
  obtain before | ⟨live, rfl⟩ := act_awaits moved awaits
  · rw [owner before.1]
    exact statuses.loops thread exitval before
  · rw [owner live]
    by_contra other
    cases acted_of_act moved with
    | exit _ _ _ exited =>
      rw [State.sysExit, if_neg other] at exited
      have gone := awaits.1
      rw [State.roster_sysThreadExit exited] at gone
      exact absurd gone sound.census.live_nodup.not_mem_erase

/-- A process that was a zombie before, in a step in which none of its threads
finishes. -/
theorem kept (statuses : Statuses past s) {pid : Pid} (large : 1 < pid)
    (none : s.finish pid (s.history.incarnation pid) label = none)
    (before : s.pt.pstate pid = .zombie ∧ t.pt.exitval pid = s.pt.exitval pid ∧
      t.history.incarnation pid = s.history.incarnation pid) :
    (finishes ((s, label) :: past) pid (t.history.incarnation pid)).head?.map Finish.exitval =
      some (t.pt.exitval pid) := by
  obtain ⟨zombie, exitval, incarnation⟩ := before
  rw [exitval, incarnation, finishes_none none]
  exact statuses.zombies pid large zombie

/-- A step in which a thread finishes. -/
theorem exited (statuses : Statuses past s) (sound : Sound s) {s' : State} {caller : TcbRef}
    {exitval : Int} (begins : s.exitCall label = some (s', caller, exitval))
    (ended : s'.sysThreadExit caller exitval = some t) {pid : Pid} (large : 1 < pid)
    (zombie : t.pt.pstate pid = .zombie) :
    (finishes ((s, label) :: past) pid (t.history.incarnation pid)).head?.map Finish.exitval =
      some (t.pt.exitval pid) := by
  obtain ⟨-, own, live, -, drains, -⟩ := exitCall_begins begins
  have moves := drains.moves sound.census True True
  have inv := sound.census.moves moves
  have live' : caller ∈ s'.roster.live := drains.roster ▸ live
  have owner : s'.curproc caller = s.curproc caller :=
    congrArg (fun r : Roster => r.owner caller) drains.roster
  by_cases mine : s.curproc caller = pid
  · subst pid
    obtain ⟨rfl, how⟩ := exitCall_other begins (statuses.loops caller exitval ⟨live, ·.2⟩)
      (Nat.ne_of_gt large)
    have finish : ∃ byExit, s'.finish (s'.curproc caller) (s'.history.incarnation (s'.curproc caller))
        label = some ⟨byExit, exitval⟩ := by
      obtain rfl | rfl := how
      · exact ⟨false, if_pos ⟨rfl, rfl⟩⟩
      · exact ⟨true, if_pos ⟨rfl, rfl⟩⟩
    obtain ⟨byExit, finish⟩ := finish
    obtain ⟨-, -, same⟩ | ⟨-, same⟩ := State.sysThreadExit_census inv ended
    · have exitvals : t.pt.exitval = update s'.pt.exitval (s'.curproc caller) exitval :=
        congrArg Census.exitval same
      have incarnations : t.history.incarnation = s'.history.incarnation :=
        congrArg Census.incarnation same
      rw [exitvals, incarnations, update_self, finishes_some finish]
      rfl
    · have states : t.pt.pstate = s'.pt.pstate := congrArg Census.pstate same
      rw [states] at zombie
      cases (inv.owners caller live).1.symm.trans zombie
  · apply statuses.kept large (finish_other own mine)
    have zombie' : s'.pt.pstate pid = .zombie ∧ t.pt.exitval pid = s'.pt.exitval pid ∧
        t.history.incarnation pid = s'.history.incarnation pid := by
      obtain ⟨-, -, same⟩ | ⟨-, same⟩ := State.sysThreadExit_census inv ended
      · have states : t.pt.pstate = update s'.pt.pstate (s'.curproc caller) .zombie :=
          congrArg Census.pstate same
        have exitvals : t.pt.exitval = update s'.pt.exitval (s'.curproc caller) exitval :=
          congrArg Census.exitval same
        have incarnations : t.history.incarnation = s'.history.incarnation :=
          congrArg Census.incarnation same
        have apart : pid ≠ s'.curproc caller := by
          rw [owner]
          exact fun same => mine same.symm
        rw [states, update_of_ne apart] at zombie
        exact ⟨zombie, by rw [exitvals, update_of_ne apart], congrFun incarnations pid⟩
      · have states : t.pt.pstate = s'.pt.pstate := congrArg Census.pstate same
        have exitvals : t.pt.exitval = s'.pt.exitval := congrArg Census.exitval same
        have incarnations : t.history.incarnation = s'.history.incarnation :=
          congrArg Census.incarnation same
        rw [states] at zombie
        exact ⟨zombie, congrFun exitvals pid, congrFun incarnations pid⟩
    obtain ⟨middle, exitvals, incarnations⟩ := zombie'
    obtain ⟨before, exitvals', incarnations'⟩ := moves.zombie sound.census live' middle
    exact ⟨before, exitvals.trans exitvals', incarnations.trans incarnations'⟩

theorem step (statuses : Statuses past s) (sound : Sound s) (child : s.childKept label = true)
    (target : s.targetKept label = true) (moved : act s label = some t) :
    Statuses ((s, label) :: past) t := by
  have loops := statuses.loops_step sound child target moved
  refine ⟨loops, fun pid large zombie => ?_⟩
  have moves := sound.moves child target moved
  cases exits : s.exits label
  · apply statuses.kept large (finish_goesOn exits)
    have goes := act_goesOn moved exits
    cases actor : label.thread with
    | none =>
      rw [actor] at moves
      have states : t.pt.pstate = s.pt.pstate := congrArg Census.pstate moves
      have exitvals : t.pt.exitval = s.pt.exitval := congrArg Census.exitval moves
      have incarnations : t.history.incarnation = s.history.incarnation :=
        congrArg Census.incarnation moves
      rw [states] at zombie
      exact ⟨zombie, congrFun exitvals pid, congrFun incarnations pid⟩
    | some caller =>
      rw [actor] at moves
      exact moves.2.zombie sound.census (goes.live caller moves.1) zombie
  · obtain ⟨s', caller, exitval, begins, ended⟩ |
      ⟨-, s', caller, exitval, own, drains, -, -, rfl⟩ := exitOutcome exits moved
    · exact statuses.exited sound begins ended large zombie
    · rw [own] at moves
      have live' : caller ∈ s'.roster.live := drains.roster ▸ moves.1
      have root : s'.curproc caller = 1 := loops caller exitval ⟨live', update_self ..⟩
      have owner : s'.curproc caller = s.curproc caller :=
        congrArg (fun r : Roster => r.owner caller) drains.roster
      have mine : s.curproc caller ≠ pid := by
        rw [← owner, root]
        exact Nat.ne_of_lt large
      exact statuses.kept large (finish_other own mine)
        ((drains.moves sound.census True True).zombie sound.census live' zombie)

theorem of_run (run : keptMachine.Run past s) : Sound s ∧ Statuses past s := by
  induction run with
  | start booted => exact ⟨.boot booted, .boot booted⟩
  | step _ moved ih =>
    obtain ⟨child, target, moved⟩ := keptMachine_step moved
    exact ⟨ih.1.step child target moved, ih.2.step ih.1 child target (act_of_step moved)⟩

end Statuses

/-! ### What is stored -/

namespace State
variable {s t : State} {thread : TcbRef} {child : Pid} {status : Pointer} {reap : Reap}

/-- The process was a zombie, and its exit value is stored. -/
def Stores (s : State) (status : Pointer) (reap : Reap) (t : State) : Prop :=
  s.pt.pstate reap.pid = .zombie ∧ reap.incarnation = s.history.incarnation reap.pid ∧
    t.memory status = s.pt.exitval reap.pid

theorem stores_cleanupZombie (zombie : s.pt.pstate child = .zombie) (given : status ≠ 0)
    (reaps : (s.cleanupZombie child status).history.reaped = reap :: s.history.reaped) :
    s.Stores status reap (s.cleanupZombie child status) := by
  obtain ⟨rfl, -⟩ := List.cons.inj reaps
  refine ⟨zombie, rfl, ?_⟩
  simp [cleanupZombie, releasePcb, given]

theorem stores_specificLoop (used : s.pt.pstate child ≠ .free) (given : status ≠ 0)
    (reaps : (s.specificLoop thread child status).history.reaped = reap :: s.history.reaped) :
    s.Stores status reap (s.specificLoop thread child status) := by
  obtain ⟨-, same⟩ | ⟨dead, same⟩ := specificLoop_cases (s := s) thread child status
  all_goals rw [same] at reaps ⊢
  · exact absurd reaps.symm (List.cons_ne_self _ _)
  · have zombie : s.pt.pstate child = .zombie := by
      cases state : s.pt.pstate child
      · exact absurd state used
      · exact absurd state dead
      · rfl
    exact stores_cleanupZombie zombie given reaps

theorem stores_anyLoop (inv : CensusInv s.census) (given : status ≠ 0)
    (reaps : (s.anyLoop thread status).history.reaped = reap :: s.history.reaped) :
    s.Stores status reap (s.anyLoop thread status) := by
  obtain ⟨-, same⟩ | ⟨child, rest, exited, same⟩ := anyLoop_cases (s := s) thread status
  all_goals rw [same] at reaps ⊢
  · exact absurd reaps.symm (List.cons_ne_self _ _)
  · obtain ⟨-, zombie, -, cleans⟩ := reapExited_first inv exited status
    rw [cleans] at reaps ⊢
    exact stores_cleanupZombie zombie given reaps

end State

/-- A `WaitChild` that reaps a process stores its exit value. -/
theorem act_stores {s t : State} {label : Label} (sound : Sound s)
    (kept : s.childKept label = true) (moved : act s label = some t) {status : Pointer}
    (waits : s.statusPointer label = some status) (given : status ≠ 0) {reap : Reap}
    (reaps : t.history.reaped = reap :: s.history.reaped) : s.Stores status reap t := by
  cases acted_of_act moved with
  | waitChild caller cpid pointer =>
    obtain rfl := Option.some.inj waits
    obtain same | ⟨child, -, used, -, same⟩ | ⟨-, -, same⟩ :=
      State.sysWaitChild_cases (s := s) caller cpid pointer
    all_goals rw [same] at reaps ⊢
    · exact absurd reaps.symm (List.cons_ne_self _ _)
    · exact State.stores_specificLoop used given reaps
    · exact State.stores_anyLoop sound.census given reaps
  | resumeSpecific caller ready child pointer back =>
    obtain rfl : pointer = status := by simpa [State.statusPointer, back.waits] using waits
    have used := childKept_iff.mp kept caller ready child pointer rfl back.waits
    exact State.stores_specificLoop used given reaps
  | resumeAny _ _ pointer back =>
    obtain rfl : pointer = status := by simpa [State.statusPointer, back.waits] using waits
    exact State.stores_anyLoop sound.census given reaps
  | resumeExit _ _ _ back | resumeJoin _ _ _ _ _ back | resumeRead _ _ _ _ _ back =>
    simp [State.statusPointer, back.waits] at waits
  | _ => cases waits

/-- The incarnation of a process finished by exactly one `Exit`, with this
value; its other threads finished by `ThreadExit` or by returning. -/
def ExitsOnce (past : List (State × Label)) (reap : Reap) (exitval : Int) : Prop :=
  ((finishes past reap.pid reap.incarnation).filter Finish.byExit).map Finish.exitval = [exitval]

/-- **The status of a process that was ended by one `Exit`** is the value of
that `Exit` exactly when the last of its threads to finish finished with it. -/
theorem exit_status_iff {past : List (State × Label)} {s t : State} {label : Label}
    (run : keptMachine.Run past s) (moved : keptMachine.step s label = some t) {status : Pointer}
    (waits : s.statusPointer label = some status) (given : status ≠ 0) {reap : Reap}
    (reaps : t.history.reaped = reap :: s.history.reaped) (large : 1 < reap.pid) :
    (∀ v, ExitsOnce past reap v → t.memory status = v) ↔
      ∀ v, ExitsOnce past reap v →
        (finishes past reap.pid reap.incarnation).head?.map Finish.exitval = some v := by
  obtain ⟨sound, statuses⟩ := Statuses.of_run run
  obtain ⟨child, -, moved⟩ := keptMachine_step moved
  obtain ⟨zombie, incarnation, stored⟩ :=
    act_stores sound child (act_of_step moved) waits given reaps
  have last := statuses.zombies reap.pid large zombie
  rw [incarnation, last, stored]
  simp only [Option.some.injEq]

/-- A process whose only thread is its main one. -/
theorem exit_status_iff_oneThread : ∃ past s t, keptMachine.Run past s ∧
    keptMachine.step s (.waitChild 0 2 5) = some t ∧ t.memory 5 = 7 := by
  have run := Machine.Run.start (M := keptMachine) booted_initial
  have run := run.next (.exec 0 1 0 0 [] 2 1) rfl
  have run := run.next (.exit 1 7) rfl
  refine ⟨_, _, _, run, rfl, ?_⟩
  have waits : ∀ s : State, s.statusPointer (.waitChild 0 2 5) = some 5 := fun _ => rfl
  refine (exit_status_iff run rfl (waits _) (by decide) rfl (by decide)).mpr ?_ 7 ?_
  · intro v once
    exact congrArg List.head? once
  · rfl

/-- The main task of process 2 returns 7 while its second thread runs, which
then calls `ThreadExit(3)`. -/
theorem exit_status_lost : ¬ ∀ past s label t status reap, keptMachine.Run past s →
    keptMachine.step s label = some t → s.statusPointer label = some status → status ≠ 0 →
    t.history.reaped = reap :: s.history.reaped → 1 < reap.pid →
    ∀ v, ExitsOnce past reap v → t.memory status = v := by
  intro every
  have run := Machine.Run.start (M := keptMachine) booted_initial
  have run := run.next (.exec 0 1 0 0 [] 2 1) rfl
  have run := run.next (.createThread 1 1 0 0 3 2) rfl
  have run := run.next (.exit 1 7) rfl
  have run := run.next (.threadExit 2 3) rfl
  have stored := every _ _ (.waitChild 0 2 5) _ 5 _ run rfl rfl (by decide) rfl (by decide) 7 rfl
  cases stored

end TinyOs.Kernel
