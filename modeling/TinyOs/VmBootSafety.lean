import TinyOs.VmBoot
import Mathlib.Data.Option.Basic

/-! What the two barriers of `vm_boot` order, in every run. -/
namespace TinyOs.VmBoot
open Function Library

/-- What holds at every point of a run. -/
structure Inv (cores serialno : Nat) (s : State) : Prop where
  parameters : s.cores = cores ∧ s.serialno = serialno
  ncores : s.ncores = if s.pic = .returned then 0 else cores
  nterm : s.nterm = s.pic.nterm serialno
  system :
    Barrier.Lockstep (systemParties cores) s.systemBarrier s.systemArrivals s.systemDepartures
  coreBarrier : Barrier.Lockstep (List.range cores) s.coreBarrier s.coreArrivals s.coreDepartures
  timelyCore : ∀ c, (s.core c).Timely
  timelyPic : s.pic.Timely cores serialno
  launched : ∀ c, s.core c ≠ .absent ↔ c < cores ∧ s.pic.launched c = true
  joined : ∀ c < cores, s.pic.joined c = true → s.core c = .finished
  timer : ∀ c, s.timer c = (s.core c).timed
  terminal : ∀ i < serialno, s.terminal i = s.pic.opened i
  picActive : s.picActive = decide ((s.core 0).systemArrivals < 2)
  initialized : s.initialized = decide (0 < (s.core 0).coreArrivals)

variable {cores serialno : Nat} {s t : State} {c : Nat}

theorem mem_systemParties : some c ∈ systemParties cores ↔ c < cores := by
  simp [systemParties]

theorem none_mem_systemParties : none ∈ systemParties cores := List.mem_cons_self

/-- `CHECK_CONDITION(cores > 0)` is what the barriers need. -/
theorem Inv.vmBoot {ncores : Nat} (booted : vmBoot ncores cores serialno = some s) :
    Inv cores serialno s := by
  unfold VmBoot.vmBoot at booted
  split at booted
  case isFalse => cases booted
  case isTrue conditions =>
    cases booted
    have system := Barrier.Lockstep.init (systemParties cores)
      (List.nodup_cons.mpr
        ⟨by simp, List.nodup_range.map (Option.some_injective _)⟩) (List.cons_ne_nil _ _)
    have core := Barrier.Lockstep.init (List.range cores) List.nodup_range
      (by simpa using Nat.ne_of_gt conditions.1)
    constructor
    case system =>
      have counted : (systemParties cores).length = cores + 1 := by simp [systemParties]
      rw [counted] at system
      convert system using 1 <;> funext party <;> cases party <;> rfl
    case coreBarrier =>
      rw [List.length_range] at core
      exact core
    case timelyCore => exact fun _ => trivial
    case timelyPic => exact Nat.zero_le _
    case launched => simp [PicPoint.launched]
    case joined => simp [PicPoint.joined]
    case parameters => exact ⟨rfl, rfl⟩
    all_goals intros; rfl

/-- A step of the thread of a core, as the rest of the system sees it. -/
structure CoreMove (s : State) (c : Nat) (before after : CorePoint) (t : State) : Prop where
  was : s.core c = before
  core : t.core = update s.core c after
  present : before ≠ .absent ∧ after ≠ .absent ∧ before ≠ .finished
  progress : after.progress = before.progress + 1
  timely : after.Timely
  system : Barrier.Turn s.systemBarrier before.systemArrivals before.systemDepartures
    t.systemBarrier after.systemArrivals after.systemDepartures
  coreBarrier : Barrier.Turn s.coreBarrier before.coreArrivals before.coreDepartures
    t.coreBarrier after.coreArrivals after.coreDepartures
  timer : t.timer = update s.timer c after.timed
  picActive : t.picActive = (s.picActive && !(c == 0 && decide (2 ≤ after.systemArrivals)))
  initialized : t.initialized = (s.initialized || c == 0 && decide (0 < after.coreArrivals))
  same : t.cores = s.cores ∧ t.serialno = s.serialno ∧ t.ncores = s.ncores ∧ t.nterm = s.nterm ∧
    t.pic = s.pic ∧ t.terminal = s.terminal

/-- The steps of the first thread, each with what it requires. -/
inductive PicMoved (s : State) : State → Prop where
  | launch {c : Nat} (here : s.pic = .launch c) (small : c < s.cores) :
      PicMoved s { s.setCore c .prolog with pic := .launch (c + 1) }
  | launchEnds {c : Nat} (here : s.pic = .launch c) (large : s.cores ≤ c) :
      PicMoved s { s with nterm := s.serialno, pic := .openTerminal 0 }
  | opens {i : Nat} (here : s.pic = .openTerminal i) (small : i < s.nterm) :
      PicMoved s { s with terminal := update s.terminal i true, pic := .openTerminal (i + 1) }
  | opensEnd {i : Nat} (here : s.pic = .openTerminal i) (large : s.nterm ≤ i) :
      PicMoved s { s with
        systemBarrier := s.systemBarrier.arrive
        pic := .systemSync s.systemBarrier.round }
  | leavesSync {round : Nat} (here : s.pic = .systemSync round)
      (complete : s.systemBarrier.complete round = true) : PicMoved s { s with pic := .multiplex }
  | turns (here : s.pic = .multiplex) (active : s.picActive = true) : PicMoved s s
  | stops (here : s.pic = .multiplex) (stopped : s.picActive = false) :
      PicMoved s { s with
        systemBarrier := s.systemBarrier.arrive
        pic := .systemEndSync s.systemBarrier.round }
  | leavesEndSync {round : Nat} (here : s.pic = .systemEndSync round)
      (complete : s.systemBarrier.complete round = true) :
      PicMoved s { s with pic := .closeTerminal 0 }
  | closes {i : Nat} (here : s.pic = .closeTerminal i) (small : i < s.nterm) :
      PicMoved s { s with terminal := update s.terminal i false, pic := .closeTerminal (i + 1) }
  | closesEnd {i : Nat} (here : s.pic = .closeTerminal i) (large : s.nterm ≤ i) :
      PicMoved s { s with nterm := 0, pic := .join 0 }
  | joins {c : Nat} (here : s.pic = .join c) (small : c < s.cores) (finished : s.core c = .finished) :
      PicMoved s { s with pic := .join (c + 1) }
  | joinsEnd {c : Nat} (here : s.pic = .join c) (large : s.cores ≤ c) :
      PicMoved s { s with ncores := 0, pic := .returned }

theorem picMoved_of_stepPic (moved : stepPic s = some t) : PicMoved s t := by
  unfold stepPic at moved
  cases here : s.pic with
  | launch c =>
    simp only [here] at moved
    split at moved <;> cases moved
    next small => exact .launch here small
    next large => exact .launchEnds here (Nat.le_of_not_lt large)
  | openTerminal i =>
    simp only [here] at moved
    split at moved <;> cases moved
    next small => exact .opens here small
    next large => exact .opensEnd here (Nat.le_of_not_lt large)
  | systemSync round =>
    obtain ⟨complete, rfl⟩ := by simpa [here] using moved
    exact .leavesSync here (Barrier.complete_iff.mpr complete)
  | multiplex =>
    simp only [here] at moved
    split at moved <;> cases moved
    next active => exact .turns here active
    next stopped => exact .stops here (Bool.not_eq_true _ ▸ stopped)
  | systemEndSync round =>
    obtain ⟨complete, rfl⟩ := by simpa [here] using moved
    exact .leavesEndSync here (Barrier.complete_iff.mpr complete)
  | closeTerminal i =>
    simp only [here] at moved
    split at moved <;> cases moved
    next small => exact .closes here small
    next large => exact .closesEnd here (Nat.le_of_not_lt large)
  | join c =>
    simp only [here] at moved
    split at moved
    next small =>
      obtain ⟨finished, rfl⟩ := by simpa using moved
      exact .joins here small finished
    next large =>
      cases moved
      exact .joinsEnd here (Nat.le_of_not_lt large)
  | returned => simp [here] at moved

namespace Inv
variable {before after : CorePoint}

theorem core_lt (inv : Inv cores serialno s) (present : s.core c ≠ .absent) : c < cores :=
  ((inv.launched c).mp present).1

theorem timer_same (inv : Inv cores serialno s) (was : s.core c = before)
    (same : after.timed = before.timed) : s.timer = update s.timer c after.timed := by
  rw [same, ← was, ← inv.timer c, update_eq_self]

theorem picActive_same (inv : Inv cores serialno s) (was : s.core c = before)
    (same : after.systemArrivals = before.systemArrivals) :
    s.picActive = (s.picActive && !(c == 0 && decide (2 ≤ after.systemArrivals))) := by
  by_cases first : c = 0
  · subst first
    rw [inv.picActive, was, same]
    simp
  · simp [first]

theorem initialized_same (inv : Inv cores serialno s) (was : s.core c = before)
    (same : after.coreArrivals = before.coreArrivals) :
    s.initialized = (s.initialized || c == 0 && decide (0 < after.coreArrivals)) := by
  by_cases first : c = 0
  · subst first
    rw [inv.initialized, was, same]
    simp
  · simp [first]

/-- A step that only moves the core on. -/
theorem coreMove (inv : Inv cores serialno s) (was : s.core c = before)
    (present : before ≠ .absent ∧ after ≠ .absent ∧ before ≠ .finished)
    (progress : after.progress = before.progress + 1) (timely : after.Timely)
    (system : Barrier.Turn s.systemBarrier before.systemArrivals before.systemDepartures
      s.systemBarrier after.systemArrivals after.systemDepartures)
    (coreBarrier : Barrier.Turn s.coreBarrier before.coreArrivals before.coreDepartures
      s.coreBarrier after.coreArrivals after.coreDepartures)
    (same : after.timed = before.timed ∧ after.systemArrivals = before.systemArrivals ∧
      after.coreArrivals = before.coreArrivals) :
    CoreMove s c before after (s.setCore c after) where
  was := was
  core := rfl
  present := present
  progress := progress
  timely := timely
  system := system
  coreBarrier := coreBarrier
  timer := inv.timer_same was same.1
  picActive := inv.picActive_same was same.2.1
  initialized := inv.initialized_same was same.2.2
  same := ⟨rfl, rfl, rfl, rfl, rfl, rfl⟩

/-- What a step of the thread of a core can be. -/
theorem coreStep (inv : Inv cores serialno s) (moved : stepCore s c = some t) :
    ∃ before after, CoreMove s c before after t := by
  have timely := inv.timelyCore c
  have systemRound : s.core c ≠ .absent →
      (s.core c).systemArrivals = (s.core c).systemDepartures →
        s.systemBarrier.round = (s.core c).systemDepartures := fun present outside =>
    inv.system.round_eq (mem_systemParties.mpr (inv.core_lt present)) outside
  have coreRound : s.core c ≠ .absent → (s.core c).coreArrivals = (s.core c).coreDepartures →
      s.coreBarrier.round = (s.core c).coreDepartures := fun present outside =>
    inv.coreBarrier.round_eq (List.mem_range.mpr (inv.core_lt present)) outside
  unfold stepCore at moved
  cases here : s.core c <;> rw [here] at systemRound coreRound timely <;>
    simp only [here, Option.ite_none_right_eq_some] at moved
  case absent => cases moved
  case prolog =>
    cases moved
    exact ⟨_, _, here, rfl, ⟨nofun, nofun, nofun⟩, rfl, systemRound nofun rfl, .arrive rfl, .stay,
      rfl, by simp [State.setCore, CorePoint.systemArrivals],
      by simp [State.setCore, CorePoint.coreArrivals], rfl, rfl, rfl, rfl, rfl, rfl⟩
  case systemSync round =>
    obtain ⟨complete, moved⟩ := moved
    cases moved
    cases timely
    exact ⟨_, _, inv.coreMove here ⟨nofun, nofun, nofun⟩ rfl trivial (.depart rfl complete) .stay
      ⟨rfl, rfl, rfl⟩⟩
  case boot =>
    cases moved
    exact ⟨_, _, here, rfl, ⟨nofun, nofun, nofun⟩, rfl, coreRound nofun rfl, .stay, .arrive rfl,
      inv.timer_same here rfl, inv.picActive_same here rfl,
      by simp [State.setCore, CorePoint.coreArrivals], rfl, rfl, rfl, rfl, rfl, rfl⟩
  case coreSync round =>
    obtain ⟨complete, moved⟩ := moved
    cases moved
    cases timely
    exact ⟨_, _, inv.coreMove here ⟨nofun, nofun, nofun⟩ rfl trivial .stay (.depart rfl complete)
      ⟨rfl, rfl, rfl⟩⟩
  case schedule =>
    cases moved
    exact ⟨_, _, inv.coreMove here ⟨nofun, nofun, nofun⟩ rfl trivial .stay .stay ⟨rfl, rfl, rfl⟩⟩
  case epilog =>
    cases moved
    have still := @initialized_same _ _ _ _ _ .epilog inv here rfl
    exact ⟨_, _, here, rfl, ⟨nofun, nofun, nofun⟩, rfl, coreRound nofun rfl, .stay, .arrive rfl,
      rfl, inv.picActive_same here rfl, still, rfl, rfl, rfl, rfl, rfl, rfl⟩
  case coreEndSync round =>
    obtain ⟨complete, moved⟩ := moved
    cases moved
    cases timely
    exact ⟨_, _, inv.coreMove here ⟨nofun, nofun, nofun⟩ rfl trivial .stay (.depart rfl complete)
      ⟨rfl, rfl, rfl⟩⟩
  case stopPic =>
    cases moved
    exact ⟨_, _, here, rfl, ⟨nofun, nofun, nofun⟩, rfl, systemRound nofun rfl, .arrive rfl, .stay,
      inv.timer_same here rfl, by simp [State.setCore, CorePoint.systemArrivals, bne],
      inv.initialized_same here rfl, rfl, rfl, rfl, rfl, rfl, rfl⟩
  case systemEndSync round =>
    obtain ⟨complete, moved⟩ := moved
    cases moved
    cases timely
    exact ⟨_, _, inv.coreMove here ⟨nofun, nofun, nofun⟩ rfl trivial (.depart rfl complete) .stay
      ⟨rfl, rfl, rfl⟩⟩
  case finished => cases moved

/-- The barriers after a step that moves a core. -/
theorem barriers (inv : Inv cores serialno s) (small : c < cores)
    (core : t.core = update s.core c after)
    (arrivals : t.pic.systemArrivals = s.pic.systemArrivals)
    (departures : t.pic.systemDepartures = s.pic.systemDepartures)
    (system : Barrier.Turn s.systemBarrier (s.core c).systemArrivals (s.core c).systemDepartures
      t.systemBarrier after.systemArrivals after.systemDepartures)
    (coreBarrier : Barrier.Turn s.coreBarrier (s.core c).coreArrivals (s.core c).coreDepartures
      t.coreBarrier after.coreArrivals after.coreDepartures) :
    Barrier.Lockstep (systemParties cores) t.systemBarrier t.systemArrivals t.systemDepartures ∧
      Barrier.Lockstep (List.range cores) t.coreBarrier t.coreArrivals t.coreDepartures := by
  have point : ∀ d, t.core d = if d = c then after else s.core d := by
    intro d
    rw [core, update_apply]
  have system_arrivals :
      t.systemArrivals = update s.systemArrivals (some c) after.systemArrivals := by
    funext party
    cases party with
    | none => simp [State.systemArrivals, arrivals]
    | some d => by_cases same : d = c <;> simp [State.systemArrivals, point, same]
  have system_departures :
      t.systemDepartures = update s.systemDepartures (some c) after.systemDepartures := by
    funext party
    cases party with
    | none => simp [State.systemDepartures, departures]
    | some d => by_cases same : d = c <;> simp [State.systemDepartures, point, same]
  have core_arrivals : t.coreArrivals = update s.coreArrivals c after.coreArrivals := by
    funext d
    by_cases same : d = c <;> simp [State.coreArrivals, point, same]
  have core_departures : t.coreDepartures = update s.coreDepartures c after.coreDepartures := by
    funext d
    by_cases same : d = c <;> simp [State.coreDepartures, point, same]
  rw [system_arrivals, system_departures, core_arrivals, core_departures]
  exact ⟨inv.system.turn (mem_systemParties.mpr small) system,
    inv.coreBarrier.turn (List.mem_range.mpr small) coreBarrier⟩

/-- The invariant after a step of a core. -/
theorem core (inv : Inv cores serialno s) (move : CoreMove s c before after t) :
    Inv cores serialno t := by
  obtain ⟨cores_eq, serialno_eq, ncores_eq, nterm_eq, pic_eq, terminal_eq⟩ := move.same
  have present : s.core c ≠ .absent := fun absent => move.present.1 (move.was.symm.trans absent)
  have small := inv.core_lt present
  have point : ∀ d, t.core d = if d = c then after else s.core d := by
    intro d
    rw [move.core, update_apply]
  have system := move.system
  have coreBarrier := move.coreBarrier
  rw [← move.was] at system coreBarrier
  obtain ⟨system_lockstep, core_lockstep⟩ :=
    inv.barriers small move.core (by rw [pic_eq]) (by rw [pic_eq]) system coreBarrier
  constructor
  case parameters => rw [cores_eq, serialno_eq]; exact inv.parameters
  case ncores => rw [ncores_eq, pic_eq]; exact inv.ncores
  case nterm => rw [nterm_eq, pic_eq]; exact inv.nterm
  case system => exact system_lockstep
  case coreBarrier => exact core_lockstep
  case timelyCore =>
    intro d
    rw [point]
    split
    next => exact move.timely
    next => exact inv.timelyCore d
  case timelyPic => rw [pic_eq]; exact inv.timelyPic
  case launched =>
    intro d
    rw [point, pic_eq, ← inv.launched d]
    split
    next same => exact ⟨fun _ => same ▸ present, fun _ => move.present.2.1⟩
    next => rfl
  case joined =>
    intro d bound joined
    rw [pic_eq] at joined
    have finished := inv.joined d bound joined
    rw [point, if_neg]
    · exact finished
    · rintro rfl
      exact move.present.2.2 (move.was.symm.trans finished)
  case timer =>
    intro d
    rw [move.timer, update_apply, point]
    split
    next => rfl
    next => exact inv.timer d
  case terminal =>
    rw [terminal_eq, pic_eq]
    exact inv.terminal
  case picActive =>
    have grown := system.arrivals_le
    rw [move.picActive, inv.picActive, point]
    by_cases first : c = 0
    · subst first
      simp only [beq_self_eq_true, Bool.true_and, if_true]
      rw [← decide_not, ← Bool.decide_and, decide_eq_decide]
      omega
    · simp [first, Ne.symm first]
  case initialized =>
    have grown := coreBarrier.arrivals_le
    rw [move.initialized, inv.initialized, point]
    by_cases first : c = 0
    · subst first
      simp only [beq_self_eq_true, Bool.true_and, if_true]
      rw [← Bool.decide_or, decide_eq_decide]
      omega
    · simp [first, Ne.symm first]

/-- The invariant after a step of the first thread that leaves the cores alone. -/
theorem picMove {before after : PicPoint} (inv : Inv cores serialno s) (was : s.pic = before)
    (is : t.pic = after)
    (turn : Barrier.Turn s.systemBarrier before.systemArrivals before.systemDepartures
      t.systemBarrier after.systemArrivals after.systemDepartures)
    (same : t.cores = s.cores ∧ t.serialno = s.serialno ∧ t.core = s.core ∧
      t.coreBarrier = s.coreBarrier ∧ t.timer = s.timer ∧ t.picActive = s.picActive ∧
      t.initialized = s.initialized)
    (timely : after.Timely cores serialno)
    (ncores : t.ncores = if after = .returned then 0 else cores)
    (nterm : t.nterm = after.nterm serialno)
    (launched : ∀ c < cores, after.launched c = before.launched c)
    (joined : ∀ c < cores, after.joined c = true → s.core c = .finished)
    (terminal : ∀ i < serialno, t.terminal i = after.opened i) : Inv cores serialno t := by
  obtain ⟨cores_eq, serialno_eq, core_eq, coreBarrier_eq, timer_eq, picActive_eq, initialized_eq⟩ :=
    same
  have arrivals : t.systemArrivals = update s.systemArrivals none after.systemArrivals := by
    funext party
    cases party <;> simp [State.systemArrivals, core_eq, is]
  have departures : t.systemDepartures = update s.systemDepartures none after.systemDepartures := by
    funext party
    cases party <;> simp [State.systemDepartures, core_eq, is]
  rw [← was] at turn
  constructor
  case parameters => rw [cores_eq, serialno_eq]; exact inv.parameters
  case ncores => rw [ncores, is]
  case nterm => rw [nterm, is]
  case system =>
    rw [arrivals, departures]
    exact inv.system.turn none_mem_systemParties turn
  case coreBarrier =>
    have arrivals : t.coreArrivals = s.coreArrivals := by
      funext c
      rw [State.coreArrivals, core_eq, State.coreArrivals]
    have departures : t.coreDepartures = s.coreDepartures := by
      funext c
      rw [State.coreDepartures, core_eq, State.coreDepartures]
    rw [coreBarrier_eq, arrivals, departures]
    exact inv.coreBarrier
  case timelyCore => rw [core_eq]; exact inv.timelyCore
  case timelyPic => rw [is]; exact timely
  case launched =>
    intro c
    rw [core_eq, inv.launched c, is, was]
    constructor <;> rintro ⟨small, yes⟩
    · exact ⟨small, (launched c small).trans yes⟩
    · exact ⟨small, (launched c small).symm.trans yes⟩
  case joined => rw [core_eq, is]; exact joined
  case timer => rw [core_eq, timer_eq]; exact inv.timer
  case terminal => rw [is]; exact terminal
  case picActive => rw [core_eq, picActive_eq]; exact inv.picActive
  case initialized => rw [core_eq, initialized_eq]; exact inv.initialized

/-- `pthread_create` of a core. -/
theorem launch (inv : Inv cores serialno s) (was : s.pic = .launch c) (small : c < cores) :
    Inv cores serialno { s.setCore c .prolog with pic := .launch (c + 1) } := by
  have absent : s.core c = .absent := by
    by_contra present
    have launched := ((inv.launched c).mp present).2
    simp [was, PicPoint.launched] at launched
  have turns := @barriers _ _ s { s.setCore c .prolog with pic := .launch (c + 1) } c .prolog inv
    small rfl
    (by rw [was]; rfl) (by rw [was]; rfl) (by rw [absent]; exact .stay)
    (by rw [absent]; exact .stay)
  have point : ∀ d, (s.setCore c .prolog).core d = if d = c then .prolog else s.core d :=
    fun d => update_apply ..
  have timer := inv.timer
  have active := inv.picActive
  have initialized := inv.initialized
  constructor
  case parameters => exact inv.parameters
  case ncores =>
    have ncores := inv.ncores
    rw [was] at ncores
    exact ncores
  case nterm =>
    have nterm := inv.nterm
    rw [was] at nterm
    exact nterm
  case system => exact turns.1
  case coreBarrier => exact turns.2
  case timelyCore =>
    intro d
    change ((s.setCore c .prolog).core d).Timely
    rw [point]
    split
    next => trivial
    next => exact inv.timelyCore d
  case timelyPic => exact small
  case launched =>
    intro d
    have launched := inv.launched d
    change (s.setCore c .prolog).core d ≠ .absent ↔ d < cores ∧ decide (d < c + 1) = true
    rw [point]
    rw [was] at launched
    split
    next same =>
      subst same
      simpa using small
    next other =>
      rw [launched]
      simp only [PicPoint.launched, decide_eq_true_eq]
      omega
  case joined => exact fun _ _ joined => nomatch joined
  case timer =>
    intro d
    change s.timer d = ((s.setCore c .prolog).core d).timed
    rw [point, timer d]
    split
    next same => rw [same, absent]; rfl
    next => rfl
  case terminal =>
    have terminal := inv.terminal
    rw [was] at terminal
    exact terminal
  case picActive =>
    change s.picActive = decide (((s.setCore c .prolog).core 0).systemArrivals < 2)
    rw [point, active]
    split
    next same => rw [same, absent]; rfl
    next => rfl
  case initialized =>
    change s.initialized = decide (0 < ((s.setCore c .prolog).core 0).coreArrivals)
    rw [point, initialized]
    split
    next same => rw [same, absent]; rfl
    next => rfl

section
variable {i : Nat}

/-- All cores have been launched. -/
theorem launchEnds (inv : Inv cores serialno s) (was : s.pic = .launch c) (large : cores ≤ c) :
    Inv cores serialno { s with nterm := s.serialno, pic := .openTerminal 0 } := by
  have ncores := inv.ncores
  have terminal := inv.terminal
  rw [was] at ncores terminal
  refine inv.picMove was rfl .stay ⟨rfl, rfl, rfl, rfl, rfl, rfl, rfl⟩ (Nat.zero_le _) ncores
    inv.parameters.2 ?_ nofun ?_
  · exact fun d small => (decide_eq_true (Nat.lt_of_lt_of_le small large)).symm
  · exact fun i small => (terminal i small).trans (decide_eq_false (Nat.not_lt_zero i)).symm

/-- `open_terminal`. -/
theorem opens (inv : Inv cores serialno s) (was : s.pic = .openTerminal i) (small : i < serialno) :
    Inv cores serialno
      { s with terminal := update s.terminal i true, pic := .openTerminal (i + 1) } := by
  have ncores := inv.ncores
  have nterm := inv.nterm
  have terminal := inv.terminal
  rw [was] at ncores nterm terminal
  refine inv.picMove was rfl .stay ⟨rfl, rfl, rfl, rfl, rfl, rfl, rfl⟩ small ncores nterm
    (fun _ _ => rfl) nofun ?_
  intro j bound
  change update s.terminal i true j = decide (j < i + 1)
  rw [update_apply, terminal j bound]
  simp only [PicPoint.opened]
  split
  next same => simp [same]
  next other => exact decide_eq_decide.mpr (by omega)

/-- The first thread arrives at the system barrier with all terminals open. -/
theorem opensEnd (inv : Inv cores serialno s) (was : s.pic = .openTerminal i)
    (large : serialno ≤ i) :
    Inv cores serialno { s with
      systemBarrier := s.systemBarrier.arrive
      pic := .systemSync s.systemBarrier.round } := by
  have ncores := inv.ncores
  have nterm := inv.nterm
  have terminal := inv.terminal
  have round := inv.system.round_eq (p := none) none_mem_systemParties
  simp only [State.systemArrivals, State.systemDepartures, was] at round
  rw [was] at ncores nterm terminal
  refine inv.picMove was rfl (.arrive rfl) ⟨rfl, rfl, rfl, rfl, rfl, rfl, rfl⟩ (round rfl) ncores
    nterm (fun _ _ => rfl) nofun ?_
  exact fun j bound => (terminal j bound).trans (decide_eq_true (Nat.lt_of_lt_of_le bound large))

theorem leavesSync {round : Nat} (inv : Inv cores serialno s) (was : s.pic = .systemSync round)
    (complete : s.systemBarrier.complete round = true) :
    Inv cores serialno { s with pic := .multiplex } := by
  have ncores := inv.ncores
  have nterm := inv.nterm
  have terminal := inv.terminal
  have timely := inv.timelyPic
  rw [was] at ncores nterm terminal timely
  cases timely
  exact inv.picMove was rfl (.depart rfl complete) ⟨rfl, rfl, rfl, rfl, rfl, rfl, rfl⟩ trivial
    ncores nterm (fun _ _ => rfl) nofun terminal

/-- The multiplexing loop ends, and the first thread arrives at the system barrier again. -/
theorem stops (inv : Inv cores serialno s) (was : s.pic = .multiplex) :
    Inv cores serialno { s with
      systemBarrier := s.systemBarrier.arrive
      pic := .systemEndSync s.systemBarrier.round } := by
  have ncores := inv.ncores
  have nterm := inv.nterm
  have terminal := inv.terminal
  have round := inv.system.round_eq (p := none) none_mem_systemParties
  simp only [State.systemArrivals, State.systemDepartures, was] at round
  rw [was] at ncores nterm terminal
  exact inv.picMove was rfl (.arrive rfl) ⟨rfl, rfl, rfl, rfl, rfl, rfl, rfl⟩ (round rfl) ncores
    nterm (fun _ _ => rfl) nofun terminal

theorem leavesEndSync {round : Nat} (inv : Inv cores serialno s)
    (was : s.pic = .systemEndSync round) (complete : s.systemBarrier.complete round = true) :
    Inv cores serialno { s with pic := .closeTerminal 0 } := by
  have ncores := inv.ncores
  have nterm := inv.nterm
  have terminal := inv.terminal
  have timely := inv.timelyPic
  rw [was] at ncores nterm terminal timely
  cases timely
  refine inv.picMove was rfl (.depart rfl complete) ⟨rfl, rfl, rfl, rfl, rfl, rfl, rfl⟩
    (Nat.zero_le _) ncores nterm (fun _ _ => rfl) nofun ?_
  exact fun j bound => (terminal j bound).trans (decide_eq_true (Nat.zero_le j)).symm

/-- `close_terminal`. -/
theorem closes (inv : Inv cores serialno s) (was : s.pic = .closeTerminal i)
    (small : i < serialno) :
    Inv cores serialno
      { s with terminal := update s.terminal i false, pic := .closeTerminal (i + 1) } := by
  have ncores := inv.ncores
  have nterm := inv.nterm
  have terminal := inv.terminal
  rw [was] at ncores nterm terminal
  refine inv.picMove was rfl .stay ⟨rfl, rfl, rfl, rfl, rfl, rfl, rfl⟩ small ncores nterm
    (fun _ _ => rfl) nofun ?_
  intro j bound
  change update s.terminal i false j = decide (i + 1 ≤ j)
  rw [update_apply, terminal j bound]
  simp only [PicPoint.opened]
  split
  next same => simp [same]
  next other => exact decide_eq_decide.mpr (by omega)

/-- All terminals have been closed. -/
theorem closesEnd (inv : Inv cores serialno s) (was : s.pic = .closeTerminal i)
    (large : serialno ≤ i) : Inv cores serialno { s with nterm := 0, pic := .join 0 } := by
  have ncores := inv.ncores
  have terminal := inv.terminal
  rw [was] at ncores terminal
  refine inv.picMove was rfl .stay ⟨rfl, rfl, rfl, rfl, rfl, rfl, rfl⟩ (Nat.zero_le _) ncores rfl
    (fun _ _ => rfl) ?_ ?_
  · exact fun c _ yes => absurd (of_decide_eq_true (p := c < 0) yes) (Nat.not_lt_zero c)
  · exact fun j bound => (terminal j bound).trans
      (decide_eq_false (Nat.not_le.mpr (Nat.lt_of_lt_of_le bound large)))

/-- `pthread_join` of a core. -/
theorem joins (inv : Inv cores serialno s) (was : s.pic = .join c) (small : c < cores)
    (finished : s.core c = .finished) : Inv cores serialno { s with pic := .join (c + 1) } := by
  have ncores := inv.ncores
  have nterm := inv.nterm
  have terminal := inv.terminal
  have joined := inv.joined
  rw [was] at ncores nterm terminal joined
  refine inv.picMove was rfl .stay ⟨rfl, rfl, rfl, rfl, rfl, rfl, rfl⟩ small ncores nterm
    (fun _ _ => rfl) ?_ terminal
  intro d bound yes
  rcases Nat.lt_succ_iff_lt_or_eq.mp (of_decide_eq_true yes) with earlier | rfl
  · exact joined d bound (decide_eq_true earlier)
  · exact finished

/-- All cores have been joined. -/
theorem joinsEnd (inv : Inv cores serialno s) (was : s.pic = .join c) (large : cores ≤ c) :
    Inv cores serialno { s with ncores := 0, pic := .returned } := by
  have nterm := inv.nterm
  have terminal := inv.terminal
  have joined := inv.joined
  rw [was] at nterm terminal joined
  exact inv.picMove was rfl .stay ⟨rfl, rfl, rfl, rfl, rfl, rfl, rfl⟩ trivial rfl nterm
    (fun _ _ => rfl)
    (fun d bound _ => joined d bound (decide_eq_true (Nat.lt_of_lt_of_le bound large))) terminal

end

theorem picStep (inv : Inv cores serialno s) (moved : stepPic s = some t) :
    Inv cores serialno t := by
  obtain ⟨rfl, -⟩ := inv.parameters
  cases picMoved_of_stepPic moved with
  | launch here small => exact inv.launch here small
  | launchEnds here large => exact inv.launchEnds here large
  | opens here small =>
    rw [inv.nterm, here] at small
    exact inv.opens here small
  | opensEnd here large =>
    rw [inv.nterm, here] at large
    exact inv.opensEnd here large
  | leavesSync here complete => exact inv.leavesSync here complete
  | turns => exact inv
  | stops here => exact inv.stops here
  | leavesEndSync here complete => exact inv.leavesEndSync here complete
  | closes here small =>
    rw [inv.nterm, here] at small
    exact inv.closes here small
  | closesEnd here large =>
    rw [inv.nterm, here] at large
    exact inv.closesEnd here large
  | joins here small finished => exact inv.joins here small finished
  | joinsEnd here large => exact inv.joinsEnd here large

theorem of_reachable {ncores : Nat} (reached : (machine ncores cores serialno).Reachable s) :
    Inv cores serialno s := by
  refine reached.induction (P := Inv cores serialno) (fun _ booted => Inv.vmBoot booted)
    fun s label t inv moved => ?_
  cases label with
  | core c =>
    obtain ⟨before, after, move⟩ := inv.coreStep moved
    exact inv.core move
  | pic => exact inv.picStep moved

end Inv

/-- What the barriers order. -/
structure Orderly (cores serialno : Nat) (s : State) : Prop where
  /-- A core schedules after the initialization by core 0, with its timer, when no
  other core is before the scheduler. -/
  scheduling : ∀ c, s.core c = .schedule → s.initialized = true ∧ s.timer c = true ∧
    ∀ d < cores, 3 ≤ (s.core d).progress
  /-- The devices are there for the kernel. -/
  devices : ∀ c, s.core c = .boot ∨ s.core c = .schedule →
    s.nterm = serialno ∧ ∀ i < serialno, s.terminal i = true
  /-- The PIC daemon raises interrupts at threads that exist, past the prolog that
  clears what is pending. -/
  interrupts : s.pic = .multiplex → (s.nterm = serialno ∧ ∀ i < serialno, s.terminal i = true) ∧
    ∀ c < cores, s.core c ≠ .absent ∧ s.core c ≠ .prolog ∧ s.core c ≠ .finished
  /-- The PIC daemon is stopped when all cores are out of the scheduler. -/
  stopped : s.picActive = false → ∀ c < cores, 6 ≤ (s.core c).progress ∧ s.timer c = false
  /-- Nothing is left behind. -/
  returned : s.pic = .returned → s.ncores = 0 ∧ s.nterm = 0 ∧
    (∀ i < serialno, s.terminal i = false) ∧ ∀ c < cores, s.core c = .finished ∧ s.timer c = false

namespace Inv

/-- While a thread is between the system barriers, no other is before the first
or past the second. -/
theorem system_order {p q : Option Nat} (inv : Inv cores serialno s)
    (mine : p ∈ systemParties cores) (theirs : q ∈ systemParties cores)
    (arrived : s.systemArrivals p = 1) (left : s.systemDepartures p = 1) :
    0 < s.systemArrivals q ∧ s.systemDepartures q ≤ 1 := by
  constructor
  · exact Nat.lt_of_lt_of_le (by omega) (inv.system.departures_le mine theirs)
  · exact Nat.le_trans (inv.system.departures_le theirs mine) (by omega)

theorem devices (inv : Inv cores serialno s) (arrived : 0 < s.pic.systemArrivals)
    (open_ : s.pic.systemDepartures ≤ 1) :
    s.nterm = serialno ∧ ∀ i < serialno, s.terminal i = true := by
  have nterm := inv.nterm
  have terminal := inv.terminal
  cases here : s.pic <;>
    simp only [here, PicPoint.systemArrivals, PicPoint.systemDepartures, Nat.not_lt_zero,
      Nat.reduceLeDiff] at arrived open_ nterm terminal
  all_goals exact ⟨nterm, terminal⟩

theorem orderly (inv : Inv cores serialno s) : Orderly cores serialno s := by
  constructor
  case scheduling =>
    intro c here
    have small := inv.core_lt (c := c) (by rw [here]; nofun)
    have started : ∀ d < cores, 0 < (s.core d).coreArrivals := by
      intro d bound
      have order := inv.coreBarrier.departures_le (List.mem_range.mpr small)
        (List.mem_range.mpr bound)
      rw [State.coreDepartures, here] at order
      exact order
    refine ⟨?_, ?_, fun d bound => ?_⟩
    · rw [inv.initialized]
      exact decide_eq_true (started 0 (Nat.lt_of_le_of_lt (Nat.zero_le c) small))
    · rw [inv.timer, here]
      rfl
    · have started := started d bound
      cases at_d : s.core d <;> simp [at_d, CorePoint.coreArrivals] at started <;>
        simp [CorePoint.progress]
  case devices =>
    intro c here
    have small := inv.core_lt (c := c) (by rcases here with here | here <;> rw [here] <;> nofun)
    have order := inv.system_order (mem_systemParties.mpr small) none_mem_systemParties
      (by rcases here with here | here <;> rw [State.systemArrivals, here] <;> rfl)
      (by rcases here with here | here <;> rw [State.systemDepartures, here] <;> rfl)
    exact inv.devices order.1 order.2
  case interrupts =>
    intro here
    refine ⟨inv.devices (by rw [here]; exact Nat.one_pos) (by rw [here]; exact Nat.le_refl 1),
      fun c small => ?_⟩
    have order := inv.system_order none_mem_systemParties (mem_systemParties.mpr small)
      (by rw [State.systemArrivals, here]; rfl) (by rw [State.systemDepartures, here]; rfl)
    refine ⟨?_, ?_, ?_⟩ <;> intro there <;>
      simp [State.systemArrivals, State.systemDepartures, there, CorePoint.systemArrivals,
        CorePoint.systemDepartures] at order
  case stopped =>
    intro stopped c small
    rw [inv.picActive, decide_eq_false_iff_not] at stopped
    have first : 0 < cores := Nat.lt_of_le_of_lt (Nat.zero_le c) small
    have order := inv.coreBarrier.departures_le (List.mem_range.mpr first)
      (List.mem_range.mpr small)
    have ended : 2 ≤ (s.core 0).coreDepartures := by
      cases at_0 : s.core 0 <;> simp [at_0, CorePoint.systemArrivals] at stopped <;>
        simp [CorePoint.coreDepartures]
    have arrived : 2 ≤ (s.core c).coreArrivals := Nat.le_trans ended order
    rw [inv.timer]
    cases at_c : s.core c <;> simp [at_c, CorePoint.coreArrivals] at arrived <;>
      simp [CorePoint.progress, CorePoint.timed]
  case returned =>
    intro here
    have terminal := inv.terminal
    have joined := inv.joined
    have ncores := inv.ncores
    have nterm := inv.nterm
    rw [here] at terminal joined ncores nterm
    refine ⟨ncores, nterm, terminal, fun c small => ⟨joined c small rfl, ?_⟩⟩
    rw [inv.timer, joined c small rfl]
    rfl

end Inv

/-- In every state of every run of `vm_boot`, what the threads of the cores and
the PIC daemon do is in order. -/
theorem vm_boot_orderly {ncores : Nat} (reached : (machine ncores cores serialno).Reachable s) :
    Orderly cores serialno s :=
  (Inv.of_reachable reached).orderly

/-- Two cores are launched, and both schedule while the PIC daemon multiplexes. -/
theorem vm_boot_orderly_two : ∃ s : State, (machine 0 2 1).Reachable s ∧ s.core 0 = .schedule ∧
    s.core 1 = .schedule ∧ s.pic = .multiplex ∧ Orderly 2 1 s := by
  have reached := Machine.Reachable.replay (M := machine 0 2 1) (.start rfl)
    [.pic, .core 0, .pic, .pic, .core 1, .pic, .pic, .core 1, .core 0, .core 1, .core 0, .pic,
      .core 0, .core 1] rfl
  exact ⟨_, reached, rfl, rfl, rfl, vm_boot_orderly reached⟩

end TinyOs.VmBoot
