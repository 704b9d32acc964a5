import TinyOs.ProgramFiles
import TinyOs.Termination

/-! `boot_shell`, the boot task of a system with terminals: each shell gets the
standard streams of its terminal, and the task ends after everybody else. -/
namespace TinyOs.Kernel
open Function Library

inductive BootPoint where
  | openIn (i : Nat)
  | dupIn (i : Nat) (fdin : Int)
  | closeIn (i : Nat) (fdin : Int)
  | openOut (i : Nat)
  | dupOut (i : Nat) (fdout : Int)
  | closeOut (i : Nat) (fdout : Int)
  | execute (i : Nat)
  | closeZero (i : Nat)
  | waiting
  /-- `start_main_thread`, to which the task returns. -/
  | returned
  deriving DecidableEq, Repr

/-- The head of the `for` loop. -/
def BootPoint.round (nshells i : Nat) : BootPoint := if i < nshells then .openIn i else .waiting

/-- `boot_shell` when there are terminals. -/
def bootShell (nshells : Nat) (sh : ExecuteCall) : Program BootPoint where
  call
    | .openIn i | .openOut i => .openTerminal i
    | .dupIn _ fdin => .dup2 fdin 0
    | .dupOut _ fdout => .dup2 fdout 1
    | .closeIn _ fd | .closeOut _ fd => .close fd
    | .execute _ => .exec sh.execWrapper sh.argl sh.args sh.bytes
    | .closeZero _ => .close 0
    | .waiting => .waitChild noproc 0
    | .returned => .exit 0
  next
    | .openIn i, fdin => if fdin ≠ 0 then .dupIn i fdin else .openOut i
    | .dupIn i fdin, _ => .closeIn i fdin
    | .closeIn i _, _ => .openOut i
    | .openOut i, fdout => if fdout ≠ 1 then .dupOut i fdout else .execute i
    | .dupOut i fdout, _ => .closeOut i fdout
    | .closeOut i _, _ => .execute i
    | .execute i, _ => .closeZero i
    | .closeZero i, _ => .round nshells (i + 1)
    | .waiting, cpid => if cpid ≠ noproc then .waiting else .returned
    | .returned, _ => .returned

/-- The file table is not full when the boot task opens a terminal. -/
def roomy (r : Running BootPoint) : RunLabel → Bool
  | .call _ _ => match r.point with
    | some (.openIn _) | some (.openOut _) => !r.kernel.ft.fcbFreelist.isEmpty
    | _ => true
  | _ => true

def bootShellMachine (nshells : Nat) (sh : ExecuteCall) (thread : TcbRef) :
    Machine (Running BootPoint) RunLabel :=
  ((bootShell nshells sh).machine thread
    (fun s => machine.initial s ∧ thread ∈ s.threads.live ∧ s.serialPorts = nshells ∧ 0 < nshells)
    (.round nshells 0)).restrict roomy

/-- The fids of the boot process at each point. -/
def BootPoint.Files (s : State) : BootPoint → Prop
  | .openIn _ | .waiting => s.pt.fidt 1 0 = none ∧ ∀ fid, 2 ≤ fid → s.pt.fidt 1 fid = none
  | .dupIn .. | .closeIn .. => False
  | .openOut i => s.OnTerminal 1 0 i ∧ ∀ fid, 2 ≤ fid → s.pt.fidt 1 fid = none
  | .dupOut i fdout => fdout = 2 ∧ s.OnTerminal 1 0 i ∧ s.OnTerminal 1 2 i ∧
      ∀ fid, 3 ≤ fid → s.pt.fidt 1 fid = none
  | .closeOut i fdout => fdout = 2 ∧ s.OnTerminal 1 0 i ∧ s.OnTerminal 1 1 i ∧
      ∀ fid, 3 ≤ fid → s.pt.fidt 1 fid = none
  | .execute i => s.OnTerminal 1 0 i ∧ s.OnTerminal 1 1 i ∧
      ∀ fid, 2 ≤ fid → s.pt.fidt 1 fid = none
  | .closeZero _ => ∀ fid, 2 ≤ fid → s.pt.fidt 1 fid = none
  | .returned => s.pt.childrenList 1 = []

/-- The rounds are for terminals that there are. -/
def BootPoint.Small (nshells : Nat) : BootPoint → Prop
  | .openIn i | .dupIn i _ | .closeIn i _ | .openOut i | .dupOut i _ | .closeOut i _ | .execute i
  | .closeZero i => i < nshells
  | .waiting | .returned => True

/-- What the boot task keeps. -/
structure BootPoint.Inv (nshells : Nat) (thread : TcbRef) (s : State) (point : BootPoint) :
    Prop where
  ports : s.serialPorts = nshells
  small : point.Small nshells
  files : point.Files s
  status : s.threads.status thread = .user ∨
    point = .waiting ∧ s.threads.status thread = .waiting (.anyChild 0)

namespace BootPoint
variable {s t : State} {nshells : Nat} {sh : ExecuteCall} {thread : TcbRef} {point : BootPoint}

theorem files_same (fidt : t.pt.fidt 1 = s.pt.fidt 1)
    (streams : ∀ fid fcb, s.pt.fidt 1 fid = some fcb → t.ft.stream fcb = s.ft.stream fcb)
    (children : s.pt.childrenList 1 = [] → t.pt.childrenList 1 = [])
    (files : point.Files s) : point.Files t := by
  have terminal : ∀ fid i, s.OnTerminal 1 fid i → t.OnTerminal 1 fid i := by
    rintro fid i ⟨fcb, slot, device⟩
    exact ⟨fcb, (congrFun fidt fid).trans slot, (streams fid fcb slot).trans device⟩
  cases point <;> simp only [Files, fidt] at files ⊢
  case openOut => exact ⟨terminal _ _ files.1, files.2⟩
  case dupOut => exact ⟨files.1, terminal _ _ files.2.1, terminal _ _ files.2.2.1, files.2.2.2⟩
  case closeOut => exact ⟨files.1, terminal _ _ files.2.1, terminal _ _ files.2.2.1, files.2.2.2⟩
  case execute => exact ⟨terminal _ _ files.1, terminal _ _ files.2.1, files.2.2⟩
  case returned => exact children files
  all_goals exact files

/-- Without children of the initial process there is nobody else. -/
theorem deserted (tended : Tended 1 thread s) (childless : s.pt.childrenList 1 = []) :
    (∀ pid, 2 ≤ pid → s.pt.pstate pid = .free) ∧ ∀ other ∈ s.threads.live, other = thread := by
  have free : ∀ pid, 2 ≤ pid → s.pt.pstate pid = .free := fun pid large =>
    Census.free_of_childless tended.undeceived.sound.census childless large
  refine ⟨free, fun other live => tended.alone other live ?_⟩
  obtain ⟨alive, positive⟩ := tended.undeceived.sound.census.owners other live
  by_contra apart
  have large : 2 ≤ s.curproc other := (Nat.two_le_iff _).mpr ⟨positive, apart⟩
  cases alive.symm.trans (free _ large)

/-- At each point the thread is outside the kernel or in `WaitChild`. -/
theorem stable {label : Label} (tended : Tended 1 thread s) (inv : point.Inv nshells thread s)
    (other : label.thread ≠ some thread) (moved : undeceivedMachine.step s label = some t)
    (isolated : Isolated 1 s t) : point.Inv nshells thread t := by
  have busy := isolated.busy thread tended.live tended.mine
  refine ⟨isolated.ports.trans inv.ports, inv.small, ?_, busy ▸ inv.status⟩
  refine files_same isolated.fidt (fun fid fcb slot => (isolated.streams fid fcb slot).1) ?_
    inv.files
  intro childless
  obtain ⟨offered, stepped⟩ := Machine.restrict_step.mp moved
  have moves := tended.undeceived.moves True offered (fun _ => trivial) (act_of_step stepped)
  cases own : label.thread with
  | none =>
    rw [own] at moves
    exact (congrFun (congrArg Census.childrenList moves) 1).trans childless
  | some actor =>
    rw [own] at moves other
    exact absurd (congrArg some ((deserted tended childless).2 actor moves.1)) other

/-- A step of the boot task that leaves its files alone. -/
theorem Inv.moves_on (inv : point.Inv nshells thread s) {arrived : BootPoint}
    (base : t.fileBase 1 = s.fileBase 1) (small : arrived.Small nshells)
    (files : (∀ fid i, s.OnTerminal 1 fid i → t.OnTerminal 1 fid i) → t.pt.fidt 1 = s.pt.fidt 1 →
      arrived.Files t)
    (status : t.threads.status thread = .user ∨
      arrived = .waiting ∧ t.threads.status thread = .waiting (.anyChild 0)) :
    arrived.Inv nshells thread t := by
  simp only [State.fileBase, Prod.mk.injEq] at base
  obtain ⟨fidt, stream, -, ports⟩ := base
  refine ⟨ports.trans inv.ports, small, files ?_ fidt, status⟩
  rintro fid i ⟨fcb, slot, device⟩
  exact ⟨fcb, (congrFun fidt fid).trans slot, (congrFun stream fcb).trans device⟩

/-- The loop of `wait_for_any_child` leads back to the loop of the boot task. -/
theorem waited {arrived : BootPoint} (inv : BootPoint.waiting.Inv nshells thread s)
    (loops : t = s.anyLoop thread 0)
    (arrives : (bootShell nshells sh).arrive thread .waiting t = some arrived) :
    arrived.Inv nshells thread t := by
  subst loops
  have base := @State.fileBase_anyLoop s 1 thread 0
  obtain ⟨-, same⟩ | ⟨child, rest, -, same⟩ := State.anyLoop_cases (s := s) thread 0
  · rw [same] at arrives base ⊢
    obtain rfl := Program.arrive_kernelWait arrives
    refine inv.moves_on base trivial (fun _ fidt => ?_) (.inr ⟨rfl, update_self ..⟩)
    simp only [Files, fidt]
    exact inv.files
  · rw [same] at arrives base ⊢
    obtain rfl := Program.arrive_ret arrives
    have valid : (child : Int) ≠ noproc := by
      simp only [noproc]
      exact fun same => absurd (Int.natCast_nonneg child) (by rw [same]; decide)
    have back : (bootShell nshells sh).next .waiting child = .waiting := by simp [bootShell, valid]
    rw [back]
    refine inv.moves_on base trivial (fun _ fidt => ?_) (.inl (update_self ..))
    simp only [Files, fidt]
    exact inv.files

theorem resumed {ready : Nat} {arrived : BootPoint} (inv : point.Inv nshells thread s)
    (moved : act s (.resume thread ready) = some t)
    (arrives : (bootShell nshells sh).arrive thread point t = some arrived) :
    arrived.Inv nshells thread t := by
  rcases inv.status with user | ⟨rfl, waits⟩
  · simp [act, user] at moved
  · obtain ⟨-, resumes⟩ := resume_of_waits waits moved
    exact waited inv (Option.some.inj resumes).symm arrives

/-- When the boot task returns without children, its `Exit` ends the process. -/
theorem exits_alone {exitval : Int} (tended : Tended 1 thread s)
    (childless : s.pt.childrenList 1 = [])
    (exited : s.sysExit thread exitval = some t) :
    thread ∉ t.threads.live ∧ t.threads.live = [] ∧ ∀ pid, pid ≠ 0 → t.pt.pstate pid ≠ .alive := by
  have inv := tended.undeceived.sound.census
  have nodup : s.threads.live.Nodup := inv.live_nodup
  have ends : s.sysThreadExit thread exitval = some t := by
    rw [State.sysExit, if_pos tended.mine, State.exitLoop, State.exitRounds, tended.mine,
      if_pos childless] at exited
    exact exited
  have roster := State.roster_sysThreadExit ends
  have left : t.threads.live = s.threads.live.erase thread := congrArg Roster.live roster
  obtain ⟨free, only⟩ := deserted tended childless
  have empty : t.threads.live = [] := by
    rw [left, List.eq_nil_iff_forall_not_mem]
    intro other member
    obtain rfl := only other (List.mem_of_mem_erase member)
    exact nodup.not_mem_erase member
  refine ⟨by rw [empty]; exact List.not_mem_nil, empty, fun pid positive alive => ?_⟩
  obtain ⟨-, -, same⟩ | ⟨more, same⟩ := State.sysThreadExit_census inv ends
  · have states : t.pt.pstate = update s.pt.pstate (s.curproc thread) .zombie :=
      congrArg Census.pstate same
    rw [states, tended.mine] at alive
    rcases eq_or_ne pid 1 with rfl | apart
    · cases (update_self ..).symm.trans alive
    · rw [update_of_ne apart] at alive
      cases alive.symm.trans (free pid ((Nat.two_le_iff pid).mpr ⟨positive, apart⟩))
  · refine more (BitVec.eq_of_toNat_eq ?_)
    rw [(inv.leave tended.live).counted, Census.population]
    change (s.threads.live.erase thread).countP _ = 0
    rw [← left, empty, List.countP_nil]

section Called
variable {ptcb : PtcbRef} {tcb : TcbRef} {arrived : BootPoint} {i : Nat} {fdout : Int}

/-- With fid 0 free the terminal is opened there. -/
theorem called_openIn (tended : Tended 1 thread s) (inv : (openIn i).Inv nshells thread s)
    (room : s.ft.fcbFreelist ≠ [])
    (arrives : (bootShell nshells sh).arrive thread (.openIn i) (s.sysOpenTerminal thread i) =
      some arrived) : arrived.Inv nshells thread (s.sysOpenTerminal thread i) := by
  obtain ⟨none, above⟩ := inv.files
  obtain ⟨more, first⟩ := State.freeFids_first (by decide) none nofun
  obtain ⟨t, opens, ports, terminal, others, -⟩ :=
    opened tended first room (Nat.lt_of_lt_of_eq inv.small inv.ports.symm)
  rw [opens] at arrives ⊢
  obtain rfl := Program.arrive_ret arrives
  refine ⟨ports.trans inv.ports, inv.small, ⟨terminal, fun fid large => ?_⟩, .inl (update_self ..)⟩
  exact (others fid (by omega)).trans (above fid large)

/-- With fid 0 in use the terminal is opened as fid 1, or else as fid 2. -/
theorem called_openOut (tended : Tended 1 thread s) (inv : (openOut i).Inv nshells thread s)
    (room : s.ft.fcbFreelist ≠ [])
    (arrives : (bootShell nshells sh).arrive thread (.openOut i) (s.sysOpenTerminal thread i) =
      some arrived) : arrived.Inv nshells thread (s.sysOpenTerminal thread i) := by
  have there : i < s.serialPorts := Nat.lt_of_lt_of_eq inv.small inv.ports.symm
  obtain ⟨terminal, above⟩ := inv.files
  have taken : s.pt.fidt 1 0 ≠ none := by
    obtain ⟨fcb, slot, -⟩ := terminal
    rw [slot]
    nofun
  cases one : s.pt.fidt 1 1 with
  | none =>
    have below : ∀ f < 1, s.pt.fidt 1 f ≠ none := by
      intro f below
      obtain rfl : f = 0 := by omega
      exact taken
    obtain ⟨more, first⟩ := State.freeFids_first (by decide) one below
    obtain ⟨t, opens, ports, opened, others, kept⟩ := opened tended first room there
    rw [opens] at arrives ⊢
    obtain rfl := Program.arrive_ret arrives
    refine ⟨ports.trans inv.ports, inv.small,
      ⟨kept 0 i nofun terminal, opened, fun fid large => ?_⟩, .inl (update_self ..)⟩
    exact (others fid (by omega)).trans (above fid large)
  | some old =>
    have below : ∀ f < 2, s.pt.fidt 1 f ≠ none := by
      intro f below
      obtain rfl | rfl : f = 0 ∨ f = 1 := by omega
      · exact taken
      · rw [one]
        nofun
    obtain ⟨more, first⟩ := State.freeFids_first (by decide) (above 2 (le_refl 2)) below
    obtain ⟨t, opens, ports, opened, others, kept⟩ := opened tended first room there
    rw [opens] at arrives ⊢
    obtain rfl := Program.arrive_ret arrives
    refine ⟨ports.trans inv.ports, inv.small,
      ⟨rfl, kept 0 i nofun terminal, opened, fun fid large => ?_⟩, .inl (update_self ..)⟩
    exact (others fid (by omega)).trans (above fid (by omega))

theorem called_dupOut (tended : Tended 1 thread s) (inv : (dupOut i fdout).Inv nshells thread s)
    (arrives : (bootShell nshells sh).arrive thread (.dupOut i fdout) (s.sysDup2 thread fdout 1) =
      some arrived) : arrived.Inv nshells thread (s.sysDup2 thread fdout 1) := by
  obtain ⟨rfl, input, ⟨output, slot, device⟩, above⟩ := inv.files
  have copied : SlotSet 1 thread 1 (some output) s (s.sysDup2 thread 2 1) :=
    dup_set tended (by decide) (by decide) slot
  obtain ⟨rfl, back⟩ := copied.back _ _ _ arrives
  refine ⟨copied.ports.trans inv.ports, inv.small,
    ⟨rfl, copied.kept 0 i nofun input, copied.set i output rfl device, fun fid large => ?_⟩,
    .inl back⟩
  exact (copied.others fid (by omega)).trans (above fid large)

theorem called_closeOut (tended : Tended 1 thread s)
    (inv : (closeOut i fdout).Inv nshells thread s)
    (arrives : (bootShell nshells sh).arrive thread (.closeOut i fdout) (s.sysClose thread fdout) =
      some arrived) : arrived.Inv nshells thread (s.sysClose thread fdout) := by
  obtain ⟨rfl, input, output, above⟩ := inv.files
  have closed : SlotSet 1 thread 2 none s (s.sysClose thread 2) := close_set tended (by decide)
  obtain ⟨rfl, back⟩ := closed.back _ _ _ arrives
  refine ⟨closed.ports.trans inv.ports, inv.small,
    ⟨closed.kept 0 i nofun input, closed.kept 1 i nofun output, fun fid large => ?_⟩, .inl back⟩
  rcases eq_or_ne fid 2 with rfl | apart
  · exact closed.here
  · exact (closed.others fid apart).trans (above fid (by omega))

theorem called_execute (tended : Tended 1 thread s) (inv : (execute i).Inv nshells thread s)
    (arrives : (bootShell nshells sh).arrive thread (.execute i)
      (s.sysExec thread sh.execWrapper sh.argl sh.args sh.bytes ptcb tcb) = some arrived) :
    arrived.Inv nshells thread
      (s.sysExec thread sh.execWrapper sh.argl sh.args sh.bytes ptcb tcb) := by
  have base := State.fileBase_exec tended.undeceived.sound.census tended.alive (s.curproc thread)
    sh.execWrapper sh.argl sh.args sh.bytes ptcb tcb
  obtain rfl := Program.arrive_ret arrives
  refine inv.moves_on base inv.small (fun _ fidt => ?_) (.inl (update_self ..))
  obtain ⟨-, -, above⟩ := inv.files
  exact fun fid large => (congrFun fidt fid).trans (above fid large)

theorem called_closeZero (tended : Tended 1 thread s) (inv : (closeZero i).Inv nshells thread s)
    (arrives : (bootShell nshells sh).arrive thread (.closeZero i) (s.sysClose thread 0) =
      some arrived) : arrived.Inv nshells thread (s.sysClose thread 0) := by
  have closed : SlotSet 1 thread 0 none s (s.sysClose thread 0) := close_set tended (by decide)
  obtain ⟨rfl, back⟩ := closed.back _ _ _ arrives
  have above : ∀ fid, 2 ≤ fid → (s.sysClose thread 0).pt.fidt 1 fid = none := fun fid large =>
    (closed.others fid (by omega)).trans (inv.files fid large)
  have ports := closed.ports.trans inv.ports
  change (round nshells (i + 1)).Inv nshells thread (s.sysClose thread 0)
  unfold round
  split
  next more => exact ⟨ports, more, ⟨closed.here, above⟩, .inl back⟩
  next => exact ⟨ports, trivial, ⟨closed.here, above⟩, .inl back⟩

theorem called_waiting (tended : Tended 1 thread s) (inv : waiting.Inv nshells thread s)
    (arrives : (bootShell nshells sh).arrive thread .waiting (s.sysWaitChild thread noproc 0) =
      some arrived) : arrived.Inv nshells thread (s.sysWaitChild thread noproc 0) := by
  have mine := tended.mine
  by_cases childless : s.pt.childrenList 1 = []
  · have fails : s.sysWaitChild thread noproc 0 = s.ret thread noproc := by
      simp [State.sysWaitChild, State.waitForAnyChild, mine, childless]
    obtain rfl := Program.arrive_ret (fails ▸ arrives)
    rw [fails]
    exact ⟨inv.ports, trivial, childless, .inl (update_self ..)⟩
  · refine waited inv ?_ arrives
    simp [State.sysWaitChild, State.waitForAnyChild, mine, childless]

theorem called (tended : Tended 1 thread s) (inv : point.Inv nshells thread s)
    (room : roomy ⟨s, some point⟩ (.call ptcb tcb) = true)
    (moved : act s (((bootShell nshells sh).call point).label thread ptcb tcb) = some t)
    (arrives : (bootShell nshells sh).arrive thread point t = some arrived) :
    arrived.Inv nshells thread t := by
  have some_free : (!s.ft.fcbFreelist.isEmpty) = true → s.ft.fcbFreelist ≠ [] := by
    rintro full none
    rw [none] at full
    cases full
  cases point with
  | openIn i =>
    cases acted_of_act (show act s (.openTerminal thread i) = some t from moved)
    exact called_openIn tended inv (some_free room) arrives
  | dupIn => exact inv.files.elim
  | closeIn => exact inv.files.elim
  | openOut i =>
    cases acted_of_act (show act s (.openTerminal thread i) = some t from moved)
    exact called_openOut tended inv (some_free room) arrives
  | dupOut i fdout =>
    cases acted_of_act (show act s (.dup2 thread fdout 1) = some t from moved)
    exact called_dupOut tended inv arrives
  | closeOut i fdout =>
    cases acted_of_act (show act s (.close thread fdout) = some t from moved)
    exact called_closeOut tended inv arrives
  | execute i =>
    cases acted_of_act (show
      act s (.exec thread sh.execWrapper sh.argl sh.args sh.bytes ptcb tcb) = some t from moved)
    exact called_execute tended inv arrives
  | closeZero i =>
    cases acted_of_act (show act s (.close thread 0) = some t from moved)
    exact called_closeZero tended inv arrives
  | waiting =>
    cases acted_of_act (show act s (.waitChild thread noproc 0) = some t from moved)
    exact called_waiting tended inv arrives
  | returned =>
    cases acted_of_act (show act s (.exit thread 0) = some t from moved) with
    | exit _ _ _ exited =>
      have gone := (exits_alone tended inv.files exited).1
      rw [Program.arrive, if_neg gone] at arrives
      cases arrives

end Called

/-- Whatever the other processes do, the boot task is where its program is, with
the files that it has there. -/
theorem of_reachable {r : Running BootPoint}
    (reached : (bootShellMachine nshells sh thread).Reachable r) {point : BootPoint}
    (here : r.point = some point) :
    Tended 1 thread r.kernel ∧ point.Inv nshells thread r.kernel := by
  refine @Program.induction _ _ _ _ _ _ _ (Inv nshells thread) ?_ ?_ ?_ ?_ _ reached _ here
  · rintro s ⟨booted, live, ports, -⟩
    obtain ⟨closed, -⟩ := files_boot booted
    refine ⟨.boot booted live, ports, ?_, ?_, .inl (user_boot booted thread live)⟩
    · unfold round
      split
      next some_shell => exact some_shell
      next => trivial
    · unfold round
      split <;> exact ⟨closed 1 0, fun fid _ => closed 1 fid⟩
  · exact fun s t point label tended inv other moved isolated =>
      stable tended inv other moved isolated
  · exact fun s t point ptcb tcb arrived tended inv room moved arrives =>
      called tended inv room moved arrives
  · exact fun s t point ready arrived _ inv moved arrives => resumed inv moved arrives

end BootPoint

/-- A process with the standard streams on a terminal, and no others. -/
structure OnlyTerminal (s : State) (pid i : Nat) : Prop where
  input : s.OnTerminal pid 0 i
  output : s.OnTerminal pid 1 i
  others : ∀ fid, 2 ≤ fid → s.pt.fidt pid fid = none

/-- **Each shell gets its own terminal**: the process that `boot_shell` makes in
round `i` begins with exactly its standard streams open, both on terminal `i`,
whatever the shells that are already running have done. -/
theorem boot_shell_streams {nshells : Nat} {sh : ExecuteCall} {thread : TcbRef}
    {r r' : Running BootPoint} {i : Nat} {ptcb : PtcbRef} {tcb : TcbRef} {child : Pid}
    (reached : (bootShellMachine nshells sh thread).Reachable r)
    (here : r.point = some (.execute i))
    (moved : (bootShellMachine nshells sh thread).step r (.call ptcb tcb) = some r')
    (made : r.kernel.pt.pcbFreelist = some child) :
    i < nshells ∧ r'.kernel.pt.pstate child = .alive ∧ r'.kernel.pt.parent child = some 1 ∧
      OnlyTerminal r'.kernel child i := by
  obtain ⟨tended, inv⟩ := BootPoint.of_reachable reached here
  obtain ⟨input, output, above⟩ := inv.files
  obtain ⟨-, moved⟩ := Machine.restrict_step.mp moved
  obtain ⟨moved, -⟩ := @Program.call_step _ (bootShell nshells sh) _ _ _ _ _ _ moved here
  obtain ⟨alive, link, fidt, stream⟩ := exec_child tended moved made
  have terminal : ∀ fid, r.kernel.OnTerminal 1 fid i → r'.kernel.OnTerminal child fid i := by
    rintro fid ⟨fcb, slot, device⟩
    exact ⟨fcb, (fidt fid).trans slot, (congrFun stream fcb).trans device⟩
  exact ⟨inv.small, alive, link, terminal 0 input, terminal 1 output,
    fun fid beyond => (fidt fid).trans (above fid beyond)⟩

/-- The only shell of a machine with one terminal. -/
def oneShell : ExecuteCall where
  execWrapper := 1
  argl := 0
  args := 0
  bytes := []

theorem boot_shell_streams_first : ∃ r r' : Running BootPoint,
    (bootShellMachine 1 oneShell 0).Reachable r ∧ r.point = some (.execute 0) ∧
    (bootShellMachine 1 oneShell 0).step r (.call 2 1) = some r' ∧ OnlyTerminal r'.kernel 2 0 := by
  have start : (bootShellMachine 1 oneShell 0).Reachable ⟨booted, some (.openIn 0)⟩ :=
    .start ⟨⟨booted_initial, by decide, rfl, by decide⟩, rfl⟩
  have opened := start.replay [.call 0 0, .call 0 0] rfl
  refine ⟨_, _, opened, rfl, rfl, ?_⟩
  exact (@boot_shell_streams 1 oneShell 0 _ _ 0 2 1 2 opened rfl rfl rfl).2.2.2

/-- **`boot_shell` ends last**: when its wait loop is over no other process and
no other thread is left, and when it has returned no stream is left open. -/
theorem boot_shell_ends {nshells : Nat} {sh : ExecuteCall} {thread : TcbRef} {r : Running BootPoint}
    (reached : (bootShellMachine nshells sh thread).Reachable r)
    (here : r.point = some .returned) :
    (∀ pid, 2 ≤ pid → r.kernel.pt.pstate pid = .free) ∧
      (∀ other ∈ r.kernel.threads.live, other = thread) ∧
      ∀ ptcb tcb r', (bootShellMachine nshells sh thread).step r (.call ptcb tcb) = some r' →
        r'.kernel.threads.live = [] ∧ AllClosed r'.kernel := by
  obtain ⟨tended, inv⟩ := BootPoint.of_reachable reached here
  obtain ⟨free, only⟩ := BootPoint.deserted tended inv.files
  refine ⟨free, only, fun ptcb tcb r' moved => ?_⟩
  have reached' := Program.kernel_reachable (fun s begun => .start begun.1) reached
  obtain ⟨-, moved⟩ := Machine.restrict_step.mp moved
  obtain ⟨moved, -⟩ := @Program.call_step _ (bootShell nshells sh) _ _ _ _ _ _ moved here
  have after := reached'.step moved
  have acted := act_of_step (Machine.restrict_step.mp moved).2
  cases acted_of_act (show act r.kernel (.exit thread 0) = some r'.kernel from acted) with
  | exit _ _ _ exited =>
    obtain ⟨-, empty, ended⟩ := BootPoint.exits_alone tended inv.files exited
    exact ⟨empty, shutdown after empty fun pid positive alive => absurd alive (ended pid positive)⟩

/-- The shell exits, the boot task reaps it and returns. -/
theorem boot_shell_ends_oneShell : ∃ r r' : Running BootPoint,
    (bootShellMachine 1 oneShell 0).Reachable r ∧ r.point = some .returned ∧
    (bootShellMachine 1 oneShell 0).step r (.call 0 0) = some r' ∧ r'.kernel.threads.live = [] ∧
    AllClosed r'.kernel := by
  have start : (bootShellMachine 1 oneShell 0).Reachable ⟨booted, some (.openIn 0)⟩ :=
    .start ⟨⟨booted_initial, by decide, rfl, by decide⟩, rfl⟩
  have ended := start.replay [.call 0 0, .call 0 0, .call 2 1, .call 0 0, .other (.exit 1 7),
    .call 0 0, .call 0 0] rfl
  obtain ⟨-, -, closes⟩ := boot_shell_ends ended rfl
  exact ⟨_, _, ended, rfl, rfl, closes 0 0 _ rfl⟩

end TinyOs.Kernel
