import TinyOs.VmBootSafety
import Mathlib.Algebra.Order.BigOperators.Group.Finset

/-! `vm_boot` cannot deadlock, and returns. -/
namespace TinyOs.VmBoot
open Function Library

variable {cores serialno : Nat} {s t : State} {c : Nat}

/-- A turn of the multiplexing loop. -/
def Idle (s : State) (label : Label) : Bool :=
  label = .pic && s.pic = .multiplex && s.picActive

def State.progress (cores serialno : Nat) (s : State) : Nat :=
  s.pic.progress cores serialno + ∑ c ∈ Finset.range cores, (s.core c).progress

/-- How many steps a run of `vm_boot` takes, turns of the multiplexing loop apart. -/
def length (cores serialno : Nat) : Nat := 11 * cores + 2 * serialno + 7

/-- Some thread can take a step that is not a turn of the multiplexing loop. -/
def State.Advances (s : State) : Prop :=
  ∃ label, (step s label).isSome = true ∧ Idle s label = false

theorem idle_step {label : Label} (moved : step s label = some t) (idle : Idle s label = true) :
    t = s := by
  simp only [Idle, Bool.and_eq_true, decide_eq_true_eq] at idle
  obtain ⟨⟨rfl, here⟩, active⟩ := idle
  simpa [step, stepPic, here, active] using moved.symm

theorem sum_progress {after : CorePoint} (small : c < cores)
    (core : t.core = update s.core c after) :
    ∑ d ∈ Finset.range cores, (t.core d).progress + (s.core c).progress =
      ∑ d ∈ Finset.range cores, (s.core d).progress + after.progress := by
  have member := Finset.mem_range.mpr small
  have others : ∑ d ∈ (Finset.range cores).erase c, (t.core d).progress =
      ∑ d ∈ (Finset.range cores).erase c, (s.core d).progress := by
    refine Finset.sum_congr rfl fun d other => ?_
    rw [core, update_of_ne (Finset.ne_of_mem_erase other)]
  have moved : (t.core c).progress = after.progress := by rw [core, update_self]
  rw [← Finset.add_sum_erase _ _ member, ← Finset.add_sum_erase _ _ member, others, moved]
  omega

namespace Inv

theorem progress_core {before after : CorePoint} (inv : Inv cores serialno s)
    (move : CoreMove s c before after t) :
    t.progress cores serialno = s.progress cores serialno + 1 := by
  have present : s.core c ≠ .absent := fun absent => move.present.1 (move.was.symm.trans absent)
  have sum := sum_progress (inv.core_lt present) move.core
  rw [move.progress, move.was] at sum
  have pic : t.pic = s.pic := move.same.2.2.2.2.1
  rw [State.progress, State.progress, pic]
  omega

/-- A step of the first thread that leaves the cores alone. -/
theorem progress_of_further (same : t.core = s.core)
    (further : t.pic.progress cores serialno = s.pic.progress cores serialno + 1) :
    t.progress cores serialno = s.progress cores serialno + 1 := by
  rw [State.progress, same, further, State.progress]
  omega

theorem progress_launch (inv : Inv cores serialno s) (here : s.pic = .launch c) (small : c < cores) :
    State.progress cores serialno { s.setCore c .prolog with pic := .launch (c + 1) } =
      s.progress cores serialno + 1 := by
  have absent : s.core c = .absent := by
    by_contra present
    have launched := ((inv.launched c).mp present).2
    simp [here, PicPoint.launched] at launched
  have sum := sum_progress (s := s) (t := s.setCore c .prolog) small rfl
  rw [absent] at sum
  have same : ∑ d ∈ Finset.range cores, ((s.setCore c .prolog).core d).progress =
      ∑ d ∈ Finset.range cores, (s.core d).progress := sum
  simp only [State.progress, here, PicPoint.progress, same]
  omega

/-- A loop ends within its bound. -/
theorem progress_ends {before after : PicPoint} (inv : Inv cores serialno s)
    (here : s.pic = before) (same : t.core = s.core ∧ t.pic = after)
    (further : before.Timely cores serialno →
      after.progress cores serialno = before.progress cores serialno + 1) :
    t.progress cores serialno = s.progress cores serialno + 1 := by
  have timely := inv.timelyPic
  refine progress_of_further same.1 ?_
  rw [same.2, here]
  exact further (here ▸ timely)

theorem progress_pic (inv : Inv cores serialno s) (moved : stepPic s = some t)
    (advance : Idle s .pic = false) :
    t.progress cores serialno = s.progress cores serialno + 1 := by
  obtain ⟨rfl, -⟩ := inv.parameters
  have nterm := inv.nterm
  cases picMoved_of_stepPic moved with
  | launch here small => exact inv.progress_launch here small
  | launchEnds here large =>
    refine inv.progress_ends here ⟨rfl, rfl⟩ fun timely => ?_
    obtain rfl := Nat.le_antisymm timely large
    rfl
  | opensEnd here large =>
    rw [nterm, here] at large
    refine inv.progress_ends here ⟨rfl, rfl⟩ fun timely => ?_
    obtain rfl := Nat.le_antisymm timely large
    simp only [PicPoint.progress]
    omega
  | turns here active => simp [Idle, here, active] at advance
  | closesEnd here large =>
    rw [nterm, here] at large
    refine inv.progress_ends here ⟨rfl, rfl⟩ fun timely => ?_
    obtain rfl := Nat.le_antisymm timely large
    simp only [PicPoint.progress]
    omega
  | joinsEnd here large =>
    refine inv.progress_ends here ⟨rfl, rfl⟩ fun timely => ?_
    obtain rfl := Nat.le_antisymm timely large
    simp only [PicPoint.progress]
    omega
  | opens here | leavesSync here | stops here | leavesEndSync here | closes here | joins here =>
    exact inv.progress_ends here ⟨rfl, rfl⟩ fun _ => rfl

theorem progress_step {label : Label} (inv : Inv cores serialno s) (moved : step s label = some t)
    (advance : Idle s label = false) :
    t.progress cores serialno = s.progress cores serialno + 1 := by
  cases label with
  | core c =>
    obtain ⟨before, after, move⟩ := inv.coreStep moved
    exact inv.progress_core move
  | pic => exact inv.progress_pic moved advance

theorem progress_le (inv : Inv cores serialno s) :
    s.progress cores serialno ≤ length cores serialno ∧
      (s.progress cores serialno = length cores serialno ↔ s.pic = .returned) := by
  have bounded : ∑ c ∈ Finset.range cores, (s.core c).progress ≤ 9 * cores := by
    calc
      _ ≤ ∑ c ∈ Finset.range cores, 9 :=
        Finset.sum_le_sum fun c _ => by cases s.core c <;> simp [CorePoint.progress]
      _ = 9 * cores := by rw [Finset.sum_const_nat fun _ _ => rfl, Finset.card_range, Nat.mul_comm]
  have timely := inv.timelyPic
  have joined := inv.joined
  simp only [State.progress, length]
  cases here : s.pic
  case returned =>
    have all : ∑ c ∈ Finset.range cores, (s.core c).progress = 9 * cores := by
      rw [Finset.sum_const_nat (m := 9), Finset.card_range, Nat.mul_comm]
      intro c member
      rw [joined c (Finset.mem_range.mp member) (by rw [here]; rfl)]
      rfl
    have total : 2 * cores + 2 * serialno + 7 + 9 * cores = 11 * cores + 2 * serialno + 7 := by
      omega
    simp only [PicPoint.progress, all, total, le_refl, and_self]
  all_goals
    simp only [here, PicPoint.Timely, PicPoint.progress, reduceCtorEq, iff_false] at timely ⊢
    omega

/-- A round of the system barrier is over, or somebody has not arrived in it. -/
theorem system_complete (inv : Inv cores serialno s) (round : Nat) :
    s.systemBarrier.complete round = true ∨
      ∃ party ∈ systemParties cores, s.systemArrivals party ≤ round := by
  by_contra neither
  simp only [not_or, not_exists, not_and, Nat.not_le] at neither
  exact neither.1 (inv.system.over_of_forall neither.2)

/-- A round of the core barrier is over, or some core has not arrived in it. -/
theorem core_complete (inv : Inv cores serialno s) (round : Nat) :
    s.coreBarrier.complete round = true ∨ ∃ c < cores, (s.core c).coreArrivals ≤ round := by
  by_contra neither
  simp only [not_or, not_exists, not_and, Nat.not_le] at neither
  exact neither.1 (inv.coreBarrier.over_of_forall fun c member =>
    neither.2 c (List.mem_range.mp member))

end Inv

/-! ### Who waits for whom -/

/-- Threads wait only for threads of a lower stage. At the system barrier a thread has
arrived `stage / 8` times. -/
def CorePoint.stage : CorePoint → Nat
  | .absent => 1
  | .prolog => 2
  | .systemSync _ => 8
  | .boot => 9
  | .coreSync _ => 10
  | .schedule => 11
  | .epilog => 12
  | .coreEndSync _ => 13
  | .stopPic => 14
  | .systemEndSync _ => 16
  | .finished => 17

@[inherit_doc CorePoint.stage]
def PicPoint.stage : PicPoint → Nat
  | .launch _ => 0
  | .openTerminal _ => 1
  | .systemSync _ => 8
  | .multiplex => 15
  | .systemEndSync _ => 16
  | .closeTerminal _ | .join _ => 17
  | .returned => 18

@[inherit_doc CorePoint.stage]
def State.stage (s : State) : Option Nat → Nat
  | none => s.pic.stage
  | some c => (s.core c).stage

theorem CorePoint.stage_lt_of_coreArrivals {p q : CorePoint}
    (less : p.coreArrivals < q.coreArrivals) : p.stage < q.stage := by
  cases p <;> cases q <;> simp [coreArrivals, stage] at less ⊢

theorem State.stage_lt_of_systemArrivals {p q : Option Nat}
    (less : s.systemArrivals p < s.systemArrivals q) : s.stage p < s.stage q := by
  have arrived : ∀ party, s.systemArrivals party = s.stage party / 8 := by
    intro party
    cases party with
    | none => cases here : s.pic <;> simp [State.systemArrivals, State.stage, here,
        PicPoint.systemArrivals, PicPoint.stage]
    | some c => cases here : s.core c <;> simp [State.systemArrivals, State.stage, here,
        CorePoint.systemArrivals, CorePoint.stage]
  have := arrived p
  have := arrived q
  omega

namespace Inv

/-- A thread that waits at the system barrier goes on, or waits for somebody. -/
theorem waits_system {p : Option Nat} {round : Nat} (inv : Inv cores serialno s)
    (arrived : s.systemArrivals p = round + 1) :
    s.systemBarrier.complete round = true ∨
      ∃ q ∈ systemParties cores, s.stage q < s.stage p :=
  (inv.system_complete round).imp_right fun ⟨q, theirs, before⟩ =>
    ⟨q, theirs, State.stage_lt_of_systemArrivals (arrived ▸ Nat.lt_succ_of_le before)⟩

/-- A core that waits at the core barrier goes on, or waits for another one. -/
theorem waits_core {round : Nat} (inv : Inv cores serialno s)
    (arrived : (s.core c).coreArrivals = round + 1) :
    s.coreBarrier.complete round = true ∨
      ∃ q ∈ systemParties cores, s.stage q < s.stage (some c) :=
  (inv.core_complete round).imp_right fun ⟨d, small, before⟩ =>
    ⟨some d, mem_systemParties.mpr small,
      CorePoint.stage_lt_of_coreArrivals (arrived ▸ Nat.lt_succ_of_le before)⟩

/-- The thread of a core can take a step, unless it has finished or waits for somebody. -/
theorem advances_core (inv : Inv cores serialno s) (small : c < cores)
    (running : s.core c ≠ .finished) :
    s.Advances ∨ ∃ q ∈ systemParties cores, s.stage q < s.stage (some c) := by
  have goes : (stepCore s c).isSome = true → s.Advances := fun moves => ⟨.core c, moves, rfl⟩
  have timely := inv.timelyCore c
  cases here : s.core c with
  | absent =>
    -- The loop that launches the cores has not come to it.
    have launched := (inv.launched c).not.mp (by rw [here]; simp)
    refine .inr ⟨none, none_mem_systemParties, ?_⟩
    cases there : s.pic <;> simp [there, small, PicPoint.launched] at launched
    rw [State.stage, State.stage, there, here]
    exact Nat.one_pos
  | prolog | boot | schedule | epilog | stopPic =>
    apply Or.inl
    apply goes
    simp [stepCore, here]
  | systemSync round | systemEndSync round =>
    rw [here] at timely
    have arrived : s.systemArrivals (some c) = round + 1 := by
      rw [State.systemArrivals, here, timely]
      rfl
    refine (inv.waits_system arrived).imp_left fun complete => ?_
    apply goes
    simpa [stepCore, here] using complete
  | coreSync round | coreEndSync round =>
    rw [here] at timely
    have arrived : (s.core c).coreArrivals = round + 1 := by
      rw [here, timely]
      rfl
    refine (inv.waits_core arrived).imp_left fun complete => ?_
    apply goes
    simpa [stepCore, here] using complete
  | finished => exact absurd here running

/-- The first thread can take a step, unless it has returned or waits for somebody. -/
theorem advances_pic (inv : Inv cores serialno s) (positive : 0 < cores)
    (running : s.pic ≠ .returned) :
    s.Advances ∨ ∃ q ∈ systemParties cores, s.stage q < s.stage none := by
  have goes : (stepPic s).isSome = true → Idle s .pic = false → s.Advances :=
    fun moves turns => ⟨.pic, moves, turns⟩
  have timely := inv.timelyPic
  cases here : s.pic with
  | launch c =>
    refine .inl (goes ?_ (by simp [Idle, here]))
    by_cases small : c < s.cores <;> simp [stepPic, here, small]
  | openTerminal i | closeTerminal i =>
    refine .inl (goes ?_ (by simp [Idle, here]))
    by_cases small : i < s.nterm <;> simp [stepPic, here, small]
  | systemSync round | systemEndSync round =>
    rw [here] at timely
    have arrived : s.systemArrivals none = round + 1 := by
      rw [State.systemArrivals, here, timely]
      rfl
    refine (inv.waits_system arrived).imp_left fun complete => ?_
    exact goes (by simpa [stepPic, here] using complete) (by simp [Idle, here])
  | multiplex =>
    by_cases active : s.picActive = true
    · -- Core 0 has not stopped the daemon.
      refine .inr ⟨some 0, mem_systemParties.mpr positive, ?_⟩
      rw [inv.picActive, decide_eq_true_eq] at active
      rw [State.stage, State.stage, here]
      cases there : s.core 0 <;> simp [there, CorePoint.systemArrivals] at active <;>
        simp [CorePoint.stage, PicPoint.stage]
    · exact .inl (goes (by simp [stepPic, here, active]) (by simp [Idle, active]))
  | join c =>
    have idle : Idle s .pic = false := by simp [Idle, here]
    by_cases small : c < s.cores
    · by_cases finished : s.core c = .finished
      · exact .inl (goes (by simp [stepPic, here, small, finished]) idle)
      · rw [inv.parameters.1] at small
        refine .inr ⟨some c, mem_systemParties.mpr small, ?_⟩
        rw [State.stage, State.stage, here]
        cases there : s.core c <;> simp [there] at finished <;>
          simp [CorePoint.stage, PicPoint.stage]
    · exact .inl (goes (by simp [stepPic, here, small]) idle)
  | returned => exact absurd here running

/-- A thread that is not at its end advances, or somebody of a lower stage does. -/
theorem advances_of_stage {p : Option Nat} (inv : Inv cores serialno s) (positive : 0 < cores)
    (mine : p ∈ systemParties cores) (early : s.stage p < 17) : s.Advances := by
  induction stage : s.stage p using Nat.strong_induction_on generalizing p with
  | _ n ih =>
    subst stage
    have waits : s.Advances ∨ ∃ q ∈ systemParties cores, s.stage q < s.stage p := by
      cases p with
      | none =>
        refine inv.advances_pic positive fun ended => ?_
        simp [State.stage, ended, PicPoint.stage] at early
      | some c =>
        refine inv.advances_core (mem_systemParties.mp mine) fun ended => ?_
        simp [State.stage, ended, CorePoint.stage] at early
    rcases waits with advances | ⟨q, theirs, less⟩
    · exact advances
    · exact ih _ less theirs (less.trans early) rfl

theorem advances (inv : Inv cores serialno s) (positive : 0 < cores) (running : s.pic ≠ .returned) :
    s.Advances := by
  rcases inv.advances_pic positive running with advances | ⟨q, theirs, less⟩
  · exact advances
  · refine inv.advances_of_stage positive theirs (Nat.lt_of_lt_of_le less ?_)
    rw [State.stage]
    cases here : s.pic <;> simp [here] at running <;> simp [PicPoint.stage]

end Inv

theorem positive_of_reachable {ncores : Nat}
    (reached : (machine ncores cores serialno).Reachable s) : 0 < cores := by
  refine reached.induction (P := fun _ => 0 < cores) (fun s booted => ?_)
    fun _ _ _ positive _ => positive
  change vmBoot ncores cores serialno = some s at booted
  unfold vmBoot at booted
  split at booted
  next conditions => exact conditions.1
  next => cases booted

/-- `vm_boot` returns once `length` steps have been taken, turns of the
multiplexing loop apart; until then some thread can take one. The `bootfunc` of each
core is taken to return. -/
theorem vm_boot_returns {ncores : Nat} {past : List (State × Label)}
    (run : (machine ncores cores serialno).Run past s) :
    past.countP (fun left => !Idle left.1 left.2) ≤ length cores serialno ∧
      (s.pic = .returned ↔
        past.countP (fun left => !Idle left.1 left.2) = length cores serialno) ∧
      (s.pic ≠ .returned → s.Advances) := by
  have counted : past.countP (fun left => !Idle left.1 left.2) = s.progress cores serialno := by
    induction run with
    | @start s booted =>
      change vmBoot ncores cores serialno = some s at booted
      unfold vmBoot at booted
      split at booted
      next =>
        cases booted
        simp [State.progress, PicPoint.progress, CorePoint.progress]
      next => cases booted
    | @step past s t label run moved ih =>
      have inv := Inv.of_reachable ⟨past, run⟩
      rw [List.countP_cons, ih]
      cases idle : Idle s label
      case true => rw [idle_step moved idle]; simp
      case false => rw [inv.progress_step moved idle]; simp
  have inv := Inv.of_reachable ⟨past, run⟩
  have le := inv.progress_le
  rw [counted]
  exact ⟨le.1, le.2.symm, inv.advances (positive_of_reachable ⟨past, run⟩)⟩

/-- The run of one core with a terminal, to the end. -/
theorem vm_boot_returns_one : ∃ past, ∃ s : State, (machine 0 1 1).Run past s ∧ s.pic = .returned ∧
    past.countP (fun left => !Idle left.1 left.2) = 20 := by
  obtain ⟨past, run⟩ := Machine.Reachable.replay (M := machine 0 1 1) (.start rfl)
    [.pic, .pic, .core 0, .pic, .pic, .core 0, .core 0, .pic, .pic, .core 0, .core 0, .core 0,
      .core 0, .core 0, .pic, .pic, .core 0, .pic, .pic, .pic, .pic] rfl
  exact ⟨past, _, run, rfl, (vm_boot_returns run).2.1.mp rfl⟩

end TinyOs.VmBoot
