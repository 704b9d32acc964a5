import TinyOs.KernelBoot

/-! Processes over whole runs: each is reaped once, and its thread counter is
right, as long as no thread leaves a `kernel_wait` with a pointer whose object
has been given up in the meantime. -/
namespace TinyOs.Kernel
open Function Library

/-- A thread that resumes in `wait_for_specific_child` finds an entry in use. -/
def State.childKept (s : State) : Label → Bool
  | .resume thread _ =>
    match s.threads.status thread with
    | .waiting (.specificChild child _) => s.pt.pstate child ≠ .free
    | _ => true
  | _ => true

/-- A thread that resumes in `sys_ThreadJoin` finds its target not detached. -/
def State.targetKept (s : State) : Label → Bool
  | .resume thread _ =>
    match s.threads.status thread with
    | .waiting (.join target _ _) => !s.heap.detached target
    | _ => true
  | _ => true

section
variable {s : State} {label : Label}

theorem childKept_iff : s.childKept label = true ↔
    ∀ thread ready child status, label = .resume thread ready →
      s.threads.status thread = .waiting (.specificChild child status) →
      s.pt.pstate child ≠ .free := by
  constructor
  · rintro kept thread ready child status rfl waits
    simpa [State.childKept, waits] using kept
  · intro kept
    unfold State.childKept
    split
    next thread ready =>
      split
      next child status waits => exact decide_eq_true (kept thread ready child status rfl waits)
      · rfl
    · rfl

theorem targetKept_iff : s.targetKept label = true ↔
    ∀ thread ready target exitval serial, label = .resume thread ready →
      s.threads.status thread = .waiting (.join target exitval serial) →
      s.heap.detached target = false := by
  constructor
  · rintro kept thread ready target exitval serial rfl waits
    simpa [State.targetKept, waits] using kept
  · intro kept
    unfold State.targetKept
    split
    next thread ready =>
      split
      next target exitval serial waits =>
        rw [kept thread ready target exitval serial rfl waits]
        rfl
      · rfl
    · rfl

end

/-- The thread that takes a step, which may be an interrupt or outside the
kernel. -/
def Label.thread : Label → Option TcbRef
  | .exec thread .. | .createThread thread .. | .threadJoin thread .. | .threadDetach thread ..
  | .threadExit thread .. | .exit thread .. | .waitChild thread .. | .openNull thread
  | .openTerminal thread .. | .close thread .. | .dup2 thread .. | .read thread ..
  | .write thread .. | .resume thread .. | .poll thread .. => some thread
  | .rxReady | .store .. => none

def Label.isCreateThread : Label → Bool
  | .createThread .. => true
  | _ => false

/-- **The kernel refines the census**: a step changes it only by moves of the
thread that takes it. -/
theorem act_moves {s t : State} {label : Label} (threads strays : Prop) (inv : CensusInv s.census)
    (creates : label.isCreateThread = true → threads)
    (child : ∀ thread ready child status, label = .resume thread ready →
      s.roster.Awaits thread (.specificChild child status) → 2 ≤ child ∧
      s.pt.pstate child ≠ .free ∧ (strays ∨ s.pt.parent child = some (s.curproc thread)))
    (target : s.targetKept label = true) (moved : act s label = some t) :
    match label.thread with
    | some thread => thread ∈ s.threads.live ∧ s.census.Moves threads strays thread t.census
    | none => t.census = s.census := by
  cases acted_of_act moved with
  | exec _ call argl args bytes ptcb _ calls fresh =>
    have live := (State.calls_iff.mp calls).1
    obtain ⟨-, -, small, new⟩ := State.fresh_iff.mp fresh
    exact ⟨live, State.sysExec_moves inv live call argl args bytes ptcb small new⟩
  | createThread _ _ _ _ _ _ calls fresh =>
    have live := (State.calls_iff.mp calls).1
    obtain ⟨-, -, small, new⟩ := State.fresh_iff.mp fresh
    exact ⟨live, .single (.spawn (creates rfl) live small new)⟩
  | threadExit _ _ calls exited =>
    have live := (State.calls_iff.mp calls).1
    exact ⟨live, .single (State.sysThreadExit_move inv live exited)⟩
  | exit _ _ calls exited =>
    have live := (State.calls_iff.mp calls).1
    exact ⟨live, State.sysExit_moves inv live exited⟩
  | waitChild caller cpid status calls =>
    exact ⟨(State.calls_iff.mp calls).1, State.sysWaitChild_moves inv caller cpid status⟩
  | resumeSpecific caller ready child' status back =>
    refine ⟨back.live, ?_⟩
    obtain ⟨large, used, mine⟩ := child caller ready child' status rfl back.awaits
    exact State.specificLoop_moves large used mine status
  | resumeAny caller _ status back =>
    exact ⟨back.live, State.anyLoop_moves inv caller status⟩
  | resumeExit _ _ _ back resumes =>
    exact ⟨back.live, State.exitResume_moves inv back.live resumes⟩
  | resumeJoin caller ready target' exitval serial back =>
    refine ⟨back.live, ?_⟩
    have undetached := targetKept_iff.mp target caller ready target' exitval serial rfl back.waits
    rw [State.census_joinLoop undetached]
  | resumeRead _ _ _ _ _ back =>
    refine ⟨back.live, ?_⟩
    rw [State.census_deviceRead]
  | poll _ _ _ _ _ live =>
    refine ⟨live, ?_⟩
    rw [State.census_deviceWrite]
  | rxReady => exact State.census_rxReady
  | store => rfl
  | threadJoin _ _ _ calls =>
    refine ⟨(State.calls_iff.mp calls).1, ?_⟩
    rw [State.census_sysThreadJoin]
  | threadDetach _ _ calls =>
    refine ⟨(State.calls_iff.mp calls).1, ?_⟩
    rw [State.census_sysThreadDetach]
  | openNull _ calls =>
    refine ⟨(State.calls_iff.mp calls).1, ?_⟩
    rw [State.sysOpenNull, State.census_openStream]
  | openTerminal _ _ calls =>
    refine ⟨(State.calls_iff.mp calls).1, ?_⟩
    rw [State.sysOpenTerminal, State.census_openStream]
  | close _ _ calls =>
    refine ⟨(State.calls_iff.mp calls).1, ?_⟩
    rw [State.census_sysClose]
  | dup2 _ _ _ calls =>
    refine ⟨(State.calls_iff.mp calls).1, ?_⟩
    rw [State.census_sysDup2]
  | read _ _ _ _ calls =>
    refine ⟨(State.calls_iff.mp calls).1, ?_⟩
    rw [State.census_sysRead]
  | write _ _ _ _ calls =>
    refine ⟨(State.calls_iff.mp calls).1, ?_⟩
    rw [State.census_sysWrite]

theorem act_of_step {s t : State} {label : Label} (moved : step s label = some t) :
    act s label = some t := by
  unfold step at moved
  split at moved
  · exact moved
  · cases moved

/-- What a run keeps as long as no thread is misled. -/
structure Sound (s : State) : Prop where
  census : CensusInv s.census
  staffed : Staffed s.census
  waited : ∀ thread child status, s.roster.Awaits thread (.specificChild child status) → 2 ≤ child

namespace Sound
variable {s t : State} {label : Label}

theorem moves (sound : Sound s) (child : s.childKept label = true)
    (target : s.targetKept label = true) (moved : act s label = some t) :
    match label.thread with
    | some thread => thread ∈ s.threads.live ∧ s.census.Moves True True thread t.census
    | none => t.census = s.census :=
  act_moves True True sound.census (fun _ => trivial)
    (fun thread ready child' status same awaits => ⟨sound.waited thread child' status awaits,
      childKept_iff.mp child thread ready child' status same awaits.2, .inl trivial⟩) target moved

theorem step (sound : Sound s) (child : s.childKept label = true)
    (target : s.targetKept label = true) (moved : step s label = some t) : Sound t := by
  have moved := act_of_step moved
  have moves := sound.moves child target moved
  have both : CensusInv t.census ∧ Staffed t.census := by
    split at moves
    · exact ⟨sound.census.moves moves.2, sound.staffed.moves sound.census moves.2⟩
    · rw [moves]
      exact ⟨sound.census, sound.staffed⟩
  refine ⟨both.1, both.2, ?_⟩
  intro thread child status awaits
  obtain before | ⟨-, -, alive, link⟩ := act_awaits moved awaits
  · exact sound.waited thread child status before
  · exact sound.census.child_large link fun free => nomatch alive.symm.trans free

theorem boot (booted : machine.initial s) : Sound s where
  census := censusInv_boot booted
  staffed := staffed_boot booted
  waited := fun thread _ _ awaits => absurd awaits (not_awaits_boot booted thread _)

end Sound

/-! ### Reaping -/

/-- Each incarnation of a process has been reaped at most once, as a zombie,
and the free list is in order. -/
structure ReapedOnce (s : State) : Prop where
  zombies : ∀ reap ∈ s.history.reaped, reap.pstate = .zombie
  once : (s.history.reaped.map fun reap => (reap.pid, reap.incarnation)).Nodup
  entries : FreeEntries s.pt.pstate s.pt.parent s.pt.pcbFreelist s.pt.processCount
  counted : s.pt.processCount.toNat =
    (List.range maxProc).countP fun pid => s.pt.pstate pid ≠ .free

def Label.isThreadJoin : Label → Bool
  | .threadJoin _ _ _ => true
  | _ => false

/-- **A terminated process is reaped once.** In a run of any system calls but
`ThreadJoin` this holds in all states exactly when no thread that leaves the
loop of `wait_for_specific_child` finds its entry free. -/
theorem reaped_once_iff {past : List (State × Label)} {last : State}
    (run : Machine.Run (machine.restrict fun _ label => !label.isThreadJoin) past last) :
    (∀ s, Machine.Visits past last s → ReapedOnce s) ↔
      ∀ left ∈ past, left.1.childKept left.2 = true := by
  refine Machine.good_iff_allowed (fun s label => s.childKept label = true)
    (fun s => Sound s ∧ ∀ thread target exitval serial,
      ¬ s.roster.Awaits thread (.join target exitval serial)) ?_ ?_ ?_ ?_ run
  · exact fun s booted => ⟨.boot booted, fun thread _ _ _ => not_awaits_boot booted thread _⟩
  · rintro s label t ⟨sound, none⟩ child moved
    obtain ⟨offered, moved⟩ := Machine.restrict_step.mp moved
    have target : s.targetKept label = true := by
      rw [targetKept_iff]
      rintro thread ready target exitval serial rfl waits
      obtain ⟨back, -⟩ := resume_of_waits waits (act_of_step moved)
      exact absurd back.awaits (none thread target exitval serial)
    refine ⟨sound.step child target moved, ?_⟩
    intro thread target exitval serial awaits
    obtain before | ⟨-, rfl, -⟩ := act_awaits (act_of_step moved) awaits
    · exact none thread target exitval serial before
    · cases offered
  · rintro s ⟨sound, -⟩
    exact ⟨fun reap member => (sound.census.reaps reap member).1, sound.census.reaped_once,
      sound.census.entries, sound.census.entries.count⟩
  · rintro s label t - misled moved after
    obtain ⟨-, moved⟩ := Machine.restrict_step.mp moved
    rw [childKept_iff] at misled
    push Not at misled
    obtain ⟨thread, ready, child, status, rfl, waits, free⟩ := misled
    obtain ⟨-, resumes⟩ := resume_of_waits waits (act_of_step moved)
    obtain rfl := Option.some.inj resumes
    -- The loop is left, and the entry is released again.
    have released : s.specificLoop thread child status =
        (s.cleanupZombie child status).ret thread child := if_neg (by simp [free])
    change ReapedOnce (s.specificLoop thread child status) at after
    rw [released] at after
    have zombie := after.zombies _ List.mem_cons_self
    cases free.symm.trans zombie

theorem reaped_once_iff_oneChild : ∃ past last,
    Machine.Run (machine.restrict fun _ label => !label.isThreadJoin) past last ∧
    last.history.reaped = [⟨2, 1, .zombie, 7, 7⟩] ∧
    ∀ s, Machine.Visits past last s → ReapedOnce s := by
  have run := Machine.Run.start (M := machine.restrict fun _ label => !label.isThreadJoin)
    booted_initial
  have run := ((run.next (.exec 0 1 0 0 [] 3 2) rfl).next (.exit 2 7) rfl).next
    (.waitChild 0 2 0) rfl
  refine ⟨_, _, run, rfl, (reaped_once_iff run).mpr ?_⟩
  simp only [List.forall_mem_cons]
  exact ⟨rfl, rfl, rfl, nofun⟩

/-- Main joined by a second thread: both wait for the same child, which exits. -/
def twoWaiters : List Label :=
  [.createThread 0 1 0 0 2 1, .exec 0 1 0 0 [] 3 2, .waitChild 0 2 0, .waitChild 1 2 0,
    .exit 2 7, .resume 0 0, .resume 1 0]

theorem reaped_twice : ¬ ∀ s,
    Machine.Reachable (machine.restrict fun _ label => !label.isThreadJoin) s → ReapedOnce s := by
  intro every
  have reached := Machine.Reachable.start (M := machine.restrict fun _ label =>
    !label.isThreadJoin) booted_initial
  have zombies := (every _ (reached.replay twoWaiters rfl)).zombies
  cases zombies ⟨2, 1, .free, 7, 7⟩ List.mem_cons_self

/-! ### Thread accounting -/

/-- `thread_count` is the number of threads of the process that have not
exited, and a process that was made with a thread lives as long as it has
one. -/
structure Accounted (s : State) : Prop where
  counted : ∀ pid, (s.pt.threadCount pid).toNat = s.census.population pid
  running : ∀ thread ∈ s.threads.live, s.pt.pstate (s.curproc thread) = .alive
  staffed : Staffed s.census

/-- **Thread counters are right.** In a run without a `WaitChild` that is
misled this holds in all states exactly when no thread that resumes in
`sys_ThreadJoin` finds its target detached. -/
theorem accounted_iff {past : List (State × Label)} {last : State}
    (run : Machine.Run (machine.restrict State.childKept) past last) :
    (∀ s, Machine.Visits past last s → Accounted s) ↔
      ∀ left ∈ past, left.1.targetKept left.2 = true := by
  refine Machine.good_iff_allowed (M := machine.restrict State.childKept)
    (fun s label => s.targetKept label = true) Sound (fun s booted => .boot booted) ?_ ?_ ?_ run
  · intro s label t sound target moved
    obtain ⟨child, moved⟩ := Machine.restrict_step.mp moved
    exact sound.step child target moved
  · intro s sound
    exact ⟨sound.census.counted, fun thread live => (sound.census.owners thread live).1,
      sound.staffed⟩
  · intro s label t sound misled moved after
    obtain ⟨-, moved⟩ := Machine.restrict_step.mp moved
    rw [targetKept_iff] at misled
    push Not at misled
    obtain ⟨thread, ready, target, exitval, serial, rfl, waits, detached⟩ := misled
    obtain ⟨back, resumes⟩ := resume_of_waits waits (act_of_step moved)
    obtain rfl := Option.some.inj resumes
    change Accounted (s.joinLoop thread target exitval serial) at after
    -- The joiner counts out a thread of its process, though none has exited.
    have positive := CensusInv.population_pos (c := s.census) back.live
    have before := sound.census.counted (s.curproc thread)
    have low : ((s.joinLoop thread target exitval serial).census.threadCount _).toNat = _ :=
      after.counted (s.curproc thread)
    rw [State.census_joinLoop_detached (by simpa using detached)] at low
    simp only [update_self] at low
    have one : (1 : BitVec 32) ≤ s.census.threadCount (s.curproc thread) := by
      rw [BitVec.le_def, before]
      exact positive
    rw [BitVec.toNat_sub_of_le one, before] at low
    change s.census.population _ - 1 = s.census.population _ at low
    change 0 < s.census.population (s.curproc thread) at positive
    omega

theorem accounted_iff_twoThreads : ∃ past last,
    Machine.Run (machine.restrict State.childKept) past last ∧
    last.census.population 1 = 1 ∧ ∀ s, Machine.Visits past last s → Accounted s := by
  have run := Machine.Run.start (M := machine.restrict State.childKept) booted_initial
  have run := (((run.next (.createThread 0 1 0 0 2 1) rfl).next (.threadJoin 0 2 0) rfl).next
    (.threadExit 1 7) rfl).next (.resume 0 0) rfl
  refine ⟨_, _, run, rfl, (accounted_iff run).mpr ?_⟩
  simp only [List.forall_mem_cons]
  exact ⟨rfl, rfl, rfl, rfl, nofun⟩

/-- A thread that main joins detaches itself. -/
def detachedTarget : List Label :=
  [.createThread 0 1 0 0 2 1, .threadJoin 0 2 0, .threadDetach 1 2, .resume 0 0]

theorem counter_low : ¬ ∀ s,
    Machine.Reachable (machine.restrict State.childKept) s → Accounted s := by
  intro every
  have reached := Machine.Reachable.start (M := machine.restrict State.childKept) booted_initial
  have counted := (every _ (reached.replay detachedTarget rfl)).counted 1
  cases counted

end TinyOs.Kernel
