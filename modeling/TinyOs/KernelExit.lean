import TinyOs.ProcessSafety

/-! Which steps end a thread, and in which state `sys_ThreadExit` begins. -/
namespace TinyOs.Kernel
open Function Library

namespace State

/-- The loop of `sys_Exit` up to its end, if it does not wait before. -/
def drainRounds : Nat → State → TcbRef → Option State
  | 0, _, _ => none
  | fuel + 1, s, thread =>
    if s.pt.childrenList (s.curproc thread) = [] then some s
    else
      match s.pt.exitedList (s.curproc thread) with
      | [] => none
      | child :: _ => drainRounds fuel (s.reapExited child 0) thread

def drain (s : State) (thread : TcbRef) : Option State :=
  drainRounds ((s.pt.exitedList (s.curproc thread)).length + 1) s thread

/-- A step that calls `sys_ThreadExit`: the state at the call, the thread, and
the exit value. -/
def exitCall (s : State) : Label → Option (State × TcbRef × Int)
  | .threadExit thread exitval => if s.calls thread then some (s, thread, exitval) else none
  | .exit thread exitval =>
    if s.calls thread then
      if s.curproc thread = 1 then (s.drain thread).map fun s => (s, thread, exitval)
      else some (s, thread, exitval)
    else none
  | .resume thread _ =>
    match s.threads.status thread with
    | .waiting (.exitLoop exitval) =>
      if thread ∈ s.threads.live ∧ s.threads.woken thread ∧ s.writer = none then
        match s.pt.exitedList (s.curproc thread) with
        | [] => none
        | child :: _ => ((s.reapExited child 0).drain thread).map fun s => (s, thread, exitval)
      else none
    | _ => none
  | _ => none

/-- What the loop of `sys_Exit` does before `sys_ThreadExit` begins. -/
inductive Drains (thread : TcbRef) : State → State → Prop where
  | done {s : State} : Drains thread s s
  | reap {s t : State} {child : Pid} {rest : List Pid} :
      s.pt.exitedList (s.curproc thread) = child :: rest →
      Drains thread (s.reapExited child 0) t → Drains thread s t

variable {s t : State} {thread : TcbRef} {exitval : Int}

theorem drains_of_rounds {fuel : Nat} (drains : drainRounds fuel s thread = some t) :
    Drains thread s t ∧ t.pt.childrenList (t.curproc thread) = [] := by
  induction fuel generalizing s with
  | zero => cases drains
  | succ fuel ih =>
    unfold drainRounds at drains
    split at drains
    next childless =>
      obtain rfl := Option.some.inj drains
      exact ⟨.done, childless⟩
    · split at drains
      · cases drains
      next child rest exited =>
        obtain ⟨more, childless⟩ := ih drains
        exact ⟨.reap exited more, childless⟩

theorem exitRounds_drains {fuel : Nat} (exits : exitRounds fuel s thread exitval = some t) :
    (∃ s', drainRounds fuel s thread = some s' ∧ s'.sysThreadExit thread exitval = some t) ∨
    drainRounds fuel s thread = none ∧
      ∃ s', Drains thread s s' ∧ s'.pt.childrenList (s'.curproc thread) ≠ [] ∧
        s'.pt.exitedList (s'.curproc thread) = [] ∧ t = s'.kernelWait thread (.exitLoop exitval) := by
  induction fuel generalizing s with
  | zero => cases exits
  | succ fuel ih =>
    unfold exitRounds at exits
    unfold drainRounds
    split at exits
    next childless => exact .inl ⟨s, if_pos childless, exits⟩
    next children =>
      rw [if_neg children]
      cases exited : s.pt.exitedList (s.curproc thread) with
      | nil =>
        rw [exited] at exits
        obtain rfl := Option.some.inj exits
        exact .inr ⟨rfl, s, .done, children, exited, rfl⟩
      | cons child rest =>
        rw [exited] at exits
        obtain leaves | ⟨waits, s', more, same⟩ := ih exits
        · exact .inl leaves
        · exact .inr ⟨waits, s', .reap exited more, same⟩

theorem Drains.roster (drains : Drains thread s t) : t.roster = s.roster := by
  induction drains with
  | done => rfl
  | @reap _ _ child _ _ _ ih => exact ih.trans (roster_reapExited child 0)

theorem Drains.moves (drains : Drains thread s t) (inv : CensusInv s.census) (threads strays : Prop) :
    s.census.Moves threads strays thread t.census := by
  induction drains with
  | done => exact .refl
  | reap exited more ih =>
    obtain ⟨large, zombie, link, reaps⟩ := reapExited_first inv exited 0
    rw [reaps] at more ih
    exact .head (.reap large zombie (.inr link)) (ih (inv.reap large zombie))

end State

/-- The step is a `ThreadExit`, an `Exit`, or an `Exit` that goes on. -/
def State.exits (s : State) : Label → Bool
  | .threadExit .. | .exit .. => true
  | .resume thread _ =>
    match s.threads.status thread with
    | .waiting (.exitLoop _) => true
    | _ => false
  | _ => false

section
variable {s s' t : State} {label : Label} {thread : TcbRef} {exitval : Int}

theorem exitCall_begins (begins : s.exitCall label = some (s', thread, exitval)) :
    s.exits label = true ∧ label.thread = some thread ∧ thread ∈ s.threads.live ∧
      (s.threads.status thread = .user ∨
        s.threads.status thread = .waiting (.exitLoop exitval)) ∧
      State.Drains thread s s' ∧
      (s' = s ∧ (label = .threadExit thread exitval ∨ s.curproc thread ≠ 1) ∨
        label ≠ .threadExit thread exitval ∧ s'.pt.childrenList (s'.curproc thread) = []) := by
  cases label
  case threadExit caller value =>
    simp only [State.exitCall, Option.ite_none_right_eq_some, Option.some.injEq,
      Prod.mk.injEq] at begins
    obtain ⟨calls, rfl, rfl, rfl⟩ := begins
    obtain ⟨live, user, -⟩ := State.calls_iff.mp calls
    exact ⟨rfl, rfl, live, .inl user, .done, .inl ⟨rfl, .inl rfl⟩⟩
  case exit caller value =>
    simp only [State.exitCall, Option.ite_none_right_eq_some] at begins
    obtain ⟨calls, begins⟩ := begins
    obtain ⟨live, user, -⟩ := State.calls_iff.mp calls
    split at begins
    · obtain ⟨drained, drains, same⟩ := Option.map_eq_some_iff.mp begins
      cases same
      obtain ⟨drains, childless⟩ := State.drains_of_rounds drains
      exact ⟨rfl, rfl, live, .inl user, drains, .inr ⟨nofun, childless⟩⟩
    next other =>
      cases begins
      exact ⟨rfl, rfl, live, .inl user, .done, .inl ⟨rfl, .inr other⟩⟩
  case resume caller ready =>
    simp only [State.exitCall] at begins
    split at begins
    next value waits =>
      split at begins
      next enabled =>
        split at begins
        · cases begins
        next child rest exited =>
          obtain ⟨drained, drains, same⟩ := Option.map_eq_some_iff.mp begins
          cases same
          obtain ⟨drains, childless⟩ := State.drains_of_rounds drains
          refine ⟨by simp [State.exits, waits], rfl, enabled.1, .inr waits, .reap exited drains,
            .inr ⟨nofun, childless⟩⟩
      · cases begins
    · cases begins
  all_goals cases begins

/-- An `Exit` either begins `sys_ThreadExit`, or waits because no child has
exited. Only one that goes on may wait without children. -/
def ExitOutcome (s : State) (label : Label) (t : State) : Prop :=
  (∃ s' thread exitval, s.exitCall label = some (s', thread, exitval) ∧
    s'.sysThreadExit thread exitval = some t) ∨
  s.exitCall label = none ∧ ∃ s' thread exitval, label.thread = some thread ∧
    State.Drains thread s s' ∧ (s'.pt.childrenList (s'.curproc thread) ≠ [] ∨
      s' = s ∧ s.threads.status thread = .waiting (.exitLoop exitval)) ∧
    s'.pt.exitedList (s'.curproc thread) = [] ∧ t = s'.kernelWait thread (.exitLoop exitval)

theorem ExitOutcome.of_rounds (own : label.thread = some thread)
    (before : ∀ {s₂}, State.Drains thread s' s₂ → State.Drains thread s s₂)
    (call : s.exitCall label = (s'.drain thread).map fun s => (s, thread, exitval))
    (exits : s'.exitLoop thread exitval = some t) : ExitOutcome s label t := by
  obtain ⟨last, drained, ends⟩ | ⟨waits, last, drains, children, same⟩ :=
    State.exitRounds_drains exits
  · refine .inl ⟨last, thread, exitval, ?_, ends⟩
    rw [call, State.drain, drained, Option.map_some]
  · refine .inr ⟨?_, last, thread, exitval, own, before drains, .inl children, same⟩
    rw [call, State.drain, waits, Option.map_none]

theorem exitOutcome (exits : s.exits label = true) (moved : act s label = some t) :
    ExitOutcome s label t := by
  cases acted_of_act moved with
  | threadExit caller value calls ends => exact .inl ⟨s, caller, value, if_pos calls, ends⟩
  | exit caller value calls ends =>
    unfold State.sysExit at ends
    split at ends
    next root =>
      refine .of_rounds rfl id ?_ ends
      simp only [State.exitCall, calls, root, if_true]
    next other => exact .inl ⟨s, caller, value, by simp [State.exitCall, calls, other], ends⟩
  | resumeExit caller ready value back resumes =>
    unfold State.exitResume at resumes
    split at resumes
    next none =>
      refine .inr ⟨?_, s, caller, value, rfl, .done, .inr ⟨rfl, back.waits⟩, none,
        (Option.some.inj resumes).symm⟩
      simp [State.exitCall, back.waits, back.live, back.woken, back.free, none]
    next child rest exited =>
      refine .of_rounds rfl (.reap exited) ?_ resumes
      simp [State.exitCall, back.waits, back.live, back.woken, back.free, exited]
  | resumeSpecific _ _ _ _ back | resumeAny _ _ _ back | resumeJoin _ _ _ _ _ back
  | resumeRead _ _ _ _ _ back => simp [State.exits, back.waits] at exits
  | _ => cases exits

end

end TinyOs.Kernel
