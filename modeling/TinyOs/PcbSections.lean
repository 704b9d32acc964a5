import TinyOs.MonitorAtomicity
import TinyOs.KernelBoot

/-! `acquire_PCB` and `release_PCB`, one access to memory at a time, by any
threads in the monitor of `kernel_cc.c`. Their sections come to the functions of
`KernelProc`, and no entry is given out twice. -/
namespace TinyOs.Kernel
open Library Function Relation
open Monitor (Shared sharedMachine)

/-- Where a thread is in the two functions; `outside` is before the call of
`kernel_lock` and after that of `kernel_unlock`. -/
inductive PcbPoint where
  | outside
  | testing
  | taking
  | marking (pcb : Pid)
  | clearing (pcb : Pid)
  | readingHead (pcb : Pid)
  | readingLink (pcb head : Pid)
  | writingHead (pcb : Pid) (link : Option Pid)
  | readingCount (pcb : Pid)
  | writingCount (pcb : Pid) (count : BitVec 32)
  | acquired (pcb : Option Pid)
  | freeing (pcb : Pid)
  | readingFree (pcb : Pid)
  | linking (pcb : Pid) (head : Option Pid)
  | heading (pcb : Pid)
  | readingUsed (pcb : Pid)
  | writingUsed (pcb : Pid) (count : BitVec 32)
  | released (pcb : Pid)
  deriving DecidableEq, Repr

/-- A thread, with the entries that it has acquired and not released. -/
structure PcbCaller where
  point : PcbPoint
  held : List Pid
  deriving DecidableEq, Repr

inductive PcbCall where
  | acquire
  | release (pcb : Pid)
  deriving DecidableEq, Repr

namespace State

def setPstate (s : State) (pcb : Pid) (pstate : PidState) : State :=
  { s with pt.pstate := update s.pt.pstate pcb pstate }

/-- `pcb->pstate = ALIVE`, from where on it is another process. -/
def markAlive (s : State) (pcb : Pid) : State :=
  { s.setPstate pcb .alive with
    history.incarnation := update s.history.incarnation pcb (s.history.incarnation pcb + 1) }

def clearThreads (s : State) (pcb : Pid) : State :=
  { s with pt.threadCount := update s.pt.threadCount pcb 0 }

def setParent (s : State) (pcb : Pid) (parent : Option Pid) : State :=
  { s with pt.parent := update s.pt.parent pcb parent }

def setFreelist (s : State) (head : Option Pid) : State := { s with pt.pcbFreelist := head }

def setProcessCount (s : State) (count : BitVec 32) : State := { s with pt.processCount := count }

end State

/-- The next access, and what it leads to. -/
def PcbPoint.access (s : State) : PcbPoint → PcbPoint × State
  | .testing => if s.pt.pcbFreelist = none then (.acquired none, s) else (.taking, s)
  | .taking =>
    match s.pt.pcbFreelist with
    | none => (.acquired none, s)
    | some pcb => (.marking pcb, s)
  | .marking pcb => (.clearing pcb, s.markAlive pcb)
  | .clearing pcb => (.readingHead pcb, s.clearThreads pcb)
  | .readingHead pcb =>
    match s.pt.pcbFreelist with
    | none => (.readingHead pcb, s)
    | some head => (.readingLink pcb head, s)
  | .readingLink pcb head => (.writingHead pcb (s.pt.parent head), s)
  | .writingHead pcb link => (.readingCount pcb, s.setFreelist link)
  | .readingCount pcb => (.writingCount pcb s.pt.processCount, s)
  | .writingCount pcb count => (.acquired (some pcb), s.setProcessCount (count + 1))
  | .freeing pcb => (.readingFree pcb, s.setPstate pcb .free)
  | .readingFree pcb => (.linking pcb s.pt.pcbFreelist, s)
  | .linking pcb head => (.heading pcb, s.setParent pcb head)
  | .heading pcb => (.readingUsed pcb, s.setFreelist (some pcb))
  | .readingUsed pcb => (.writingUsed pcb s.pt.processCount, s)
  | .writingUsed pcb count => (.released pcb, s.setProcessCount (count - 1))
  | .outside | .acquired _ | .released _ => (.outside, s)

/-- A thread that acquires and releases entries as it likes, but releases only
what it holds. -/
def pcbCode (Mutex Cond : Type*) (l : PcbCaller) (call : PcbCall) :
    Monitor.Instr State PcbCaller Mutex Cond :=
  match l.point with
  | .outside =>
    match call with
    | .acquire => .enter { l with point := .testing }
    | .release pcb =>
      if pcb ∈ l.held then .enter { point := .freeing pcb, held := l.held.erase pcb }
      else .own none l
  | .acquired pcb => .leave none { point := .outside, held := pcb.toList ++ l.held }
  | .released _ => .leave none { l with point := .outside }
  | point => .access fun s => ({ l with point := (point.access s).1 }, (point.access s).2)

/-- No access has been made. -/
def PcbPoint.quiet : PcbPoint → Bool
  | .outside | .testing | .freeing _ => true
  | _ => false

/-- The entries of a thread, with the one that it is about to release. -/
def PcbCaller.owned (l : PcbCaller) : List Pid :=
  match l.point with
  | .freeing pcb => pcb :: l.held
  | _ => l.held

/-- What a section has made of the state `s` in which it began. -/
def PcbPoint.Reached (s : State) : PcbPoint → State → Prop
  | .testing, t => t = s
  | .taking, t => t = s ∧ s.pt.pcbFreelist ≠ none
  | .marking pcb, t => t = s ∧ s.pt.pcbFreelist = some pcb
  | .clearing pcb, t => t = s.markAlive pcb ∧ s.pt.pcbFreelist = some pcb
  | .readingHead pcb, t =>
    t = (s.markAlive pcb).clearThreads pcb ∧ s.pt.pcbFreelist = some pcb
  | .readingLink pcb head, t =>
    t = (s.markAlive pcb).clearThreads pcb ∧ s.pt.pcbFreelist = some pcb ∧ head = pcb
  | .writingHead pcb link, t =>
    t = (s.markAlive pcb).clearThreads pcb ∧ s.pt.pcbFreelist = some pcb ∧ link = s.pt.parent pcb
  | .readingCount pcb, t =>
    t = ((s.markAlive pcb).clearThreads pcb).setFreelist (s.pt.parent pcb) ∧
      s.pt.pcbFreelist = some pcb
  | .writingCount pcb count, t =>
    t = ((s.markAlive pcb).clearThreads pcb).setFreelist (s.pt.parent pcb) ∧
      s.pt.pcbFreelist = some pcb ∧ count = s.pt.processCount
  | .acquired none, t => t = s
  | .acquired (some pcb), t => s.acquirePcb = some (pcb, t)
  | .freeing _, t => t = s
  | .readingFree pcb, t => t = s.setPstate pcb .free
  | .linking pcb head, t => t = s.setPstate pcb .free ∧ head = s.pt.pcbFreelist
  | .heading pcb, t => t = (s.setPstate pcb .free).setParent pcb s.pt.pcbFreelist
  | .readingUsed pcb, t =>
    t = ((s.setPstate pcb .free).setParent pcb s.pt.pcbFreelist).setFreelist (some pcb)
  | .writingUsed pcb count, t =>
    t = ((s.setPstate pcb .free).setParent pcb s.pt.pcbFreelist).setFreelist (some pcb) ∧
      count = s.pt.processCount
  | .released pcb, t => t = s.releasePcb pcb
  | .outside, _ => False

/-- The section is at its end. -/
def PcbPoint.atEnd : PcbPoint → Bool
  | .acquired _ | .released _ => true
  | _ => false

/-- An access leads from one point of a section to the next. -/
theorem PcbPoint.Reached.access {s t : State} {point : PcbPoint} (reached : point.Reached s t)
    (goes : point.atEnd = false) : (point.access t).1.Reached s (point.access t).2 := by
  cases point with
  | outside => exact reached.elim
  | acquired | released => cases goes
  | testing =>
    cases reached
    rw [PcbPoint.access]
    split
    · exact rfl
    next some_free => exact ⟨rfl, some_free⟩
  | taking =>
    obtain ⟨rfl, some_free⟩ := reached
    rw [PcbPoint.access]
    split
    next no_free => exact absurd no_free some_free
    next pcb head => exact ⟨rfl, head⟩
  | marking pcb =>
    obtain ⟨rfl, head⟩ := reached
    exact ⟨rfl, head⟩
  | clearing pcb =>
    obtain ⟨rfl, head⟩ := reached
    exact ⟨rfl, head⟩
  | readingHead pcb =>
    obtain ⟨rfl, head⟩ := reached
    rw [PcbPoint.access, show ((s.markAlive pcb).clearThreads pcb).pt.pcbFreelist = _ from head]
    exact ⟨rfl, head, rfl⟩
  | readingLink pcb link =>
    obtain ⟨rfl, head, rfl⟩ := reached
    exact ⟨rfl, head, rfl⟩
  | writingHead pcb link =>
    obtain ⟨rfl, head, rfl⟩ := reached
    exact ⟨rfl, head⟩
  | readingCount pcb =>
    obtain ⟨rfl, head⟩ := reached
    exact ⟨rfl, head, rfl⟩
  | writingCount pcb count =>
    obtain ⟨rfl, head, rfl⟩ := reached
    change s.acquirePcb = _
    rw [State.acquirePcb, head]
    rfl
  | freeing pcb =>
    cases reached
    exact rfl
  | readingFree pcb =>
    cases reached
    exact ⟨rfl, rfl⟩
  | linking pcb head =>
    obtain ⟨rfl, rfl⟩ := reached
    exact rfl
  | heading pcb =>
    cases reached
    exact rfl
  | readingUsed pcb =>
    cases reached
    exact ⟨rfl, rfl⟩
  | writingUsed pcb count =>
    obtain ⟨rfl, rfl⟩ := reached
    exact rfl

/-- The first point of the section of a point. -/
def PcbPoint.first : PcbPoint → PcbPoint
  | .freeing pcb | .readingFree pcb | .linking pcb _ | .heading pcb | .readingUsed pcb
  | .writingUsed pcb _ | .released pcb => .freeing pcb
  | .outside => .outside
  | _ => .testing

theorem PcbPoint.first_access {s t : State} {point : PcbPoint} (reached : point.Reached s t)
    (goes : point.atEnd = false) : (point.access t).1.first = point.first := by
  cases point with
  | outside => exact reached.elim
  | acquired | released => cases goes
  | testing =>
    rw [PcbPoint.access]
    split <;> rfl
  | taking =>
    rw [PcbPoint.access]
    split <;> rfl
  | readingHead pcb =>
    rw [PcbPoint.access]
    split <;> rfl
  | _ => rfl

/-- What the two functions do to the process table. -/
def PcbStep (s t : State) : Prop :=
  (∃ pcb, s.acquirePcb = some (pcb, t)) ∨ ∃ pcb, s.pt.pstate pcb ≠ .free ∧ t = s.releasePcb pcb

section Sections
variable {Thread Mutex Cond : Type*} {l : PcbCaller}

theorem pcbCode_acquire (outside : l.point = .outside) :
    pcbCode Mutex Cond l .acquire = .enter ⟨.testing, l.held⟩ := by
  obtain ⟨point, held⟩ := l
  cases outside
  rfl

theorem pcbCode_release (outside : l.point = .outside) (pcb : Pid) :
    pcbCode Mutex Cond l (.release pcb) =
      if pcb ∈ l.held then .enter ⟨.freeing pcb, l.held.erase pcb⟩ else .own none l := by
  obtain ⟨point, held⟩ := l
  cases outside
  rfl

/-- Inside, the code goes on by its accesses, -/
theorem pcbCode_inside (call : PcbCall) (inside : l.point ≠ .outside)
    (goes : l.point.atEnd = false) : pcbCode Mutex Cond l call =
      .access fun s => ({ l with point := (l.point.access s).1 }, (l.point.access s).2) := by
  obtain ⟨point, held⟩ := l
  cases point with
  | outside => exact absurd rfl inside
  | acquired | released => cases goes
  | _ => rfl

/-- and at the end it leaves. -/
theorem pcbCode_atEnd (call : PcbCall) (ends : l.point.atEnd = true) :
    ∃ next, pcbCode Mutex Cond l call = .leave none next ∧ next.point = .outside ∧
      ((∃ pcb, l.point = .acquired pcb ∧ next.held = pcb.toList ++ l.held) ∨
        ∃ pcb, l.point = .released pcb ∧ next.held = l.held) := by
  obtain ⟨point, held⟩ := l
  cases point with
  | acquired pcb => exact ⟨_, rfl, rfl, .inl ⟨pcb, rfl, rfl⟩⟩
  | released pcb => exact ⟨_, rfl, rfl, .inr ⟨pcb, rfl, rfl⟩⟩
  | _ => cases ends

variable {before now t : Sections.State Thread State PcbCaller Cond} {thread : Thread}

/-- The section of a thread that began in `before`. -/
structure Within (thread : Thread) (before now : Sections.State Thread State PcbCaller Cond) :
    Prop where
  inside : now.place thread = .inside
  reached : (now.locals thread).point.Reached before.data now.data
  first : (now.locals thread).point.first = (before.locals thread).point
  held : (now.locals thread).held = (before.locals thread).held
  others : ∀ other ≠ thread, now.locals other = before.locals other
  places : ∀ other ≠ thread, now.place other = before.place other

theorem Within.apart (within : Within thread before now) :
    (now.locals thread).point ≠ .outside := by
  intro outside
  have reached := within.reached
  rw [outside] at reached
  exact reached

variable [DecidableEq Thread] [DecidableEq Mutex] [DecidableEq Cond]

omit [DecidableEq Mutex] in
theorem Within.step (within : Within thread before now)
    (step : Sections.InnerStep (pcbCode Mutex Cond) thread now t) : Within thread before t := by
  obtain ⟨inside, inner⟩ := step
  have reached := within.reached
  cases ends : (now.locals thread).point.atEnd with
  | false =>
    cases inner with
    | access named =>
      rw [pcbCode_inside _ within.apart ends] at named
      cases named
      constructor
      case inside => simp [Sections.State.move]
      case reached => simpa [Sections.State.move] using reached.access ends
      case first =>
        simpa [Sections.State.move, PcbPoint.first_access reached ends] using within.first
      case held => simpa [Sections.State.move] using within.held
      case others =>
        intro other different
        simpa [Sections.State.move, different] using within.others other different
      case places =>
        intro other different
        simpa [Sections.State.move, different] using within.places other different
    | own named | broadcast named | wait named =>
      rw [pcbCode_inside _ within.apart ends] at named
      cases named
  | true =>
    cases inner with
    | own named | access named | broadcast named | wait named =>
      obtain ⟨next, same, -⟩ := pcbCode_atEnd _ ends
      rw [same] at named
      cases named

/-- Nothing is given out twice, and the free list holds what is not in use. -/
structure Shares (s : Sections.State Thread State PcbCaller Cond) : Prop where
  entries : FreeEntries s.data.pt.pstate s.data.pt.parent s.data.pt.pcbFreelist
    s.data.pt.processCount
  used : ∀ thread, ∀ pcb ∈ (s.locals thread).owned, s.data.pt.pstate pcb ≠ .free
  once : ∀ thread, (s.locals thread).owned.Nodup
  apart : ∀ thread other pcb, pcb ∈ (s.locals thread).owned → pcb ∈ (s.locals other).owned →
    thread = other
  outside : ∀ thread, s.place thread = .outside → (s.locals thread).point = .outside
  entering : ∀ thread, s.place thread = .entering → (s.locals thread).point = .testing ∨
    ∃ pcb, (s.locals thread).point = .freeing pcb
  idle : ∀ thread, s.place thread = .outside ∨ s.place thread = .entering

theorem Within.start (shares : Shares before) (entering : before.place thread = .entering) :
    Within thread before (before.letIn thread) := by
  constructor
  case inside => simp [Sections.State.letIn, Sections.State.move]
  case reached =>
    simp only [Sections.State.letIn, Sections.State.move, update_self]
    rcases shares.entering thread entering with point | ⟨pcb, point⟩ <;> rw [point] <;> exact rfl
  case first =>
    simp only [Sections.State.letIn, Sections.State.move, update_self]
    rcases shares.entering thread entering with point | ⟨pcb, point⟩ <;> rw [point] <;> exact rfl
  case held => simp [Sections.State.letIn, Sections.State.move]
  case others =>
    intro other different
    simp [Sections.State.letIn, Sections.State.move]
  case places =>
    intro other different
    simp [Sections.State.letIn, Sections.State.move, different]

omit [DecidableEq Mutex] in
theorem Within.of_ongoing (shares : Shares before)
    (ongoing : Sections.Ongoing (pcbCode Mutex Cond) thread before now) :
    Within thread before now := by
  obtain ⟨admitted, run⟩ := ongoing
  have entering : before.place thread = .entering := by
    rcases shares.idle thread with outside | entering
    · rw [outside] at admitted
      cases admitted
    · exact entering
  induction run with
  | refl => exact .start shares entering
  | tail _ step ih => exact ih.step step

omit [DecidableEq Cond] in
/-- A change of the entries of one thread alone. -/
theorem Shares.change (shares : Shares before) (l : PcbCaller) (place : Sections.Place Cond)
    (data : State) (locals : t.locals = update before.locals thread l)
    (places : t.place = update before.place thread place) (same : t.data = data)
    (entries : FreeEntries data.pt.pstate data.pt.parent data.pt.pcbFreelist data.pt.processCount)
    (others : ∀ other ≠ thread, ∀ pcb ∈ (before.locals other).owned,
      data.pt.pstate pcb ≠ .free ∧ pcb ∉ l.owned)
    (used : ∀ pcb ∈ l.owned, data.pt.pstate pcb ≠ .free) (once : l.owned.Nodup)
    (outside : place = .outside → l.point = .outside)
    (entering : place = .entering → l.point = .testing ∨ ∃ pcb, l.point = .freeing pcb)
    (idle : place = .outside ∨ place = .entering) : Shares t := by
  subst same
  have at_thread : t.locals thread = l := by rw [locals, update_self]
  have elsewhere {other : Thread} (different : other ≠ thread) :
      t.locals other = before.locals other := by rw [locals, update_of_ne different]
  constructor
  case entries => exact entries
  case used =>
    intro other pcb member
    rcases eq_or_ne other thread with rfl | different
    · exact used pcb (at_thread ▸ member)
    · exact (others other different pcb (elsewhere different ▸ member)).1
  case once =>
    intro other
    rcases eq_or_ne other thread with rfl | different
    · exact at_thread ▸ once
    · exact elsewhere different ▸ shares.once other
  case apart =>
    intro one two pcb first second
    rcases eq_or_ne one thread with rfl | different
    · rcases eq_or_ne two one with rfl | different
      · rfl
      · exact absurd (at_thread ▸ first)
          (others two different pcb (elsewhere different ▸ second)).2
    · rcases eq_or_ne two thread with rfl | different'
      · exact absurd (at_thread ▸ second)
          (others one different pcb (elsewhere different ▸ first)).2
      · exact shares.apart one two pcb (elsewhere different ▸ first) (elsewhere different' ▸ second)
  case outside =>
    intro other
    rcases eq_or_ne other thread with rfl | different
    · rw [places, update_self, at_thread]
      exact outside
    · rw [places, update_of_ne different, elsewhere different]
      exact shares.outside other
  case entering =>
    intro other
    rcases eq_or_ne other thread with rfl | different
    · rw [places, update_self, at_thread]
      exact entering
    · rw [places, update_of_ne different, elsewhere different]
      exact shares.entering other
  case idle =>
    intro other
    rcases eq_or_ne other thread with rfl | different
    · rw [places, update_self]
      exact idle
    · rw [places, update_of_ne different]
      exact shares.idle other

theorem owned_of_ne (elsewhere : ∀ pcb, l.point ≠ .freeing pcb) : l.owned = l.held := by
  obtain ⟨point, held⟩ := l
  cases point with
  | freeing pcb => exact absurd rfl (elsewhere pcb)
  | _ => rfl

omit [DecidableEq Mutex] in
/-- A call begins. -/
theorem Shares.outer (shares : Shares before)
    (outer : Sections.OuterStep (pcbCode Mutex Cond) thread before t) :
    Shares t ∧ t.data = before.data := by
  obtain ⟨outside, outer⟩ := outer
  have point := shares.outside thread outside
  have owned : (before.locals thread).owned = (before.locals thread).held :=
    owned_of_ne (by simp [point])
  have others {held : List Pid} (same : ∀ pcb, pcb ∈ held → pcb ∈ (before.locals thread).held) :
      ∀ other ≠ thread, ∀ pcb ∈ (before.locals other).owned,
        before.data.pt.pstate pcb ≠ .free ∧ pcb ∉ held := by
    intro other different pcb member
    refine ⟨shares.used other pcb member, fun mine => different ?_⟩
    exact shares.apart other thread pcb member (owned ▸ same pcb mine)
  have used {held : List Pid} (same : ∀ pcb, pcb ∈ held → pcb ∈ (before.locals thread).held) :
      ∀ pcb ∈ held, before.data.pt.pstate pcb ≠ .free :=
    fun pcb member => shares.used thread pcb (owned ▸ same pcb member)
  have once := owned ▸ shares.once thread
  have asleep : (fun other => (before.place other).wake none) = before.place := by
    funext other
    exact Sections.Place.wake_none _
  refine ⟨?_, rfl⟩
  cases outer with
  | @own call what next named =>
    cases call with
    | acquire =>
      rw [pcbCode_acquire point] at named
      cases named
    | release pcb =>
      rw [pcbCode_release point] at named
      split at named <;> cases named
      exact shares.change (before.locals thread) .outside _ rfl
        (by rw [Sections.State.move, asleep]) rfl shares.entries (others (by simp [owned]))
        (used (by simp [owned])) (owned ▸ once) (fun _ => point) (by simp) (.inl rfl)
  | @enter call next named =>
    cases call with
    | acquire =>
      rw [pcbCode_acquire point] at named
      cases named
      exact shares.change _ .entering _ rfl (by rw [Sections.State.move, asleep]) rfl shares.entries
        (others fun _ member => member) (used fun _ member => member) once (by simp)
        (fun _ => .inl rfl) (.inr rfl)
    | release pcb =>
      rw [pcbCode_release point] at named
      split at named <;> cases named
      next mine =>
        have perm := List.perm_cons_erase mine
        have same : ∀ other, other ∈ pcb :: (before.locals thread).held.erase pcb →
            other ∈ (before.locals thread).held := fun other => perm.mem_iff.mpr
        exact shares.change _ .entering _ rfl (by rw [Sections.State.move, asleep]) rfl
          shares.entries (others same) (used same) (perm.nodup_iff.mp once) (by simp)
          (fun _ => .inr ⟨pcb, rfl⟩) (.inr rfl)
  | @broadcast call cv next named =>
    cases call with
    | acquire =>
      rw [pcbCode_acquire point] at named
      cases named
    | release pcb =>
      rw [pcbCode_release point] at named
      split at named <;> cases named

omit [DecidableEq Cond] in
/-- `acquire_PCB` gives out an entry that nobody has. -/
theorem Shares.acquired (shares : Shares before) {pcb : Pid} {data : State} {next : PcbCaller}
    (acquires : before.data.acquirePcb = some (pcb, data))
    (mine : (before.locals thread).owned = (before.locals thread).held)
    (owned : next.owned = pcb :: (before.locals thread).held) (outside : next.point = .outside)
    (locals : t.locals = update before.locals thread next)
    (places : t.place = update before.place thread .outside) (same : t.data = data) : Shares t := by
  obtain ⟨head, rfl⟩ : before.data.pt.pcbFreelist = some pcb ∧ before.data.takePcb pcb = data := by
    rw [State.acquirePcb] at acquires
    split at acquires
    · cases acquires
    next head =>
      cases acquires
      exact ⟨head, rfl⟩
  have entries := shares.entries
  rw [head] at entries
  obtain ⟨free, entries⟩ := entries.pop (before.data.pt.parent pcb)
  rw [update_eq_self] at entries
  have unowned : ∀ other, pcb ∉ (before.locals other).owned :=
    fun other member => shares.used other pcb member free
  have still {other : Pid} (used : before.data.pt.pstate other ≠ .free) :
      (before.data.takePcb pcb).pt.pstate other ≠ .free := by
    have apart : other ≠ pcb := by
      rintro rfl
      exact used free
    exact (update_of_ne apart ..).trans_ne used
  refine shares.change next .outside _ locals places same entries ?_ ?_ ?_ (fun _ => outside) nofun
    (.inl rfl)
  · intro other different theirs member
    refine ⟨still (shares.used other theirs member), fun also => ?_⟩
    rcases List.mem_cons.mp (owned ▸ also) with rfl | held
    · exact unowned other member
    · exact different (shares.apart other thread theirs member (mine ▸ held))
  · intro theirs member
    rcases List.mem_cons.mp (owned ▸ member) with rfl | held
    · rw [show (before.data.takePcb theirs).pt.pstate theirs = .alive from update_self ..]
      nofun
    · exact still (shares.used thread theirs (mine ▸ held))
  · rw [owned]
    exact List.nodup_cons.mpr ⟨fun held => unowned thread (mine ▸ held), mine ▸ shares.once thread⟩

omit [DecidableEq Cond] in
/-- `release_PCB` takes back what its caller has. -/
theorem Shares.released (shares : Shares before) {pcb : Pid} {next : PcbCaller}
    (mine : (before.locals thread).owned = pcb :: (before.locals thread).held)
    (owned : next.owned = (before.locals thread).held) (outside : next.point = .outside)
    (locals : t.locals = update before.locals thread next)
    (places : t.place = update before.place thread .outside)
    (same : t.data = before.data.releasePcb pcb) : Shares t := by
  have used := shares.used thread pcb (mine ▸ List.mem_cons_self)
  obtain ⟨absent, nodup⟩ := List.nodup_cons.mp (mine ▸ shares.once thread)
  have still {other : Pid} (apart : other ≠ pcb) (used : before.data.pt.pstate other ≠ .free) :
      (before.data.releasePcb pcb).pt.pstate other ≠ .free :=
    (update_of_ne apart ..).trans_ne used
  refine shares.change next .outside _ locals places same (shares.entries.push used) ?_ ?_
    (owned ▸ nodup) (fun _ => outside) nofun (.inl rfl)
  · intro other different theirs member
    have apart : theirs ≠ pcb := by
      rintro rfl
      exact different (shares.apart other thread theirs member (mine ▸ List.mem_cons_self))
    refine ⟨still apart (shares.used other theirs member), fun also => different ?_⟩
    exact shares.apart other thread theirs member (mine ▸ List.mem_cons_of_mem _ (owned ▸ also))
  · intro theirs member
    have held := owned ▸ member
    have apart : theirs ≠ pcb := by
      rintro rfl
      exact absent held
    exact still apart (shares.used thread theirs (mine ▸ List.mem_cons_of_mem _ held))

omit [DecidableEq Mutex] in
/-- A section comes to its function. -/
theorem Shares.atomic (shares : Shares before)
    (ongoing : Sections.Ongoing (pcbCode Mutex Cond) thread before now) {next : PcbCaller}
    {place : Sections.Place Cond}
    (leaves : Sections.Leaves (pcbCode Mutex Cond) (now.locals thread) (now.place thread) next
      place) :
    Shares (now.move thread next place now.data none) ∧
      (now.data = before.data ∨ PcbStep before.data now.data) := by
  have within := Within.of_ongoing shares ongoing
  have reached := within.reached
  have first := within.first
  rw [within.inside] at leaves
  obtain @⟨call, how, _, named⟩ := leaves
  cases ends : (now.locals thread).point.atEnd with
  | false =>
    rw [pcbCode_inside _ within.apart ends] at named
    cases named
  | true =>
    obtain ⟨_, same, outside, points⟩ := @pcbCode_atEnd Mutex Cond _ call ends
    rw [same] at named
    cases named
    have locals : update now.locals thread next = update before.locals thread next := by
      funext other
      rcases eq_or_ne other thread with rfl | different
      · simp
      · simp [different, within.others other different]
    have places : update (fun other => (now.place other).wake none) thread .outside =
        update before.place thread .outside := by
      funext other
      rcases eq_or_ne other thread with rfl | different
      · simp
      · simp [different, within.places other different]
    have owned : next.owned = next.held :=
      owned_of_ne fun _ freeing => nomatch outside.symm.trans freeing
    rcases points with ⟨pcb, point, held⟩ | ⟨pcb, point, held⟩
    · rw [point] at reached first
      have mine : (before.locals thread).owned = (before.locals thread).held :=
        owned_of_ne fun _ freeing => nomatch first.trans freeing
      rw [within.held] at held
      cases pcb with
      | none =>
        have data : now.data = before.data := reached
        refine ⟨?_, .inl data⟩
        have kept : next.owned = (before.locals thread).owned := by rw [owned, held, mine]; rfl
        exact shares.change next .outside before.data locals places data shares.entries
          (fun other different pcb member => ⟨shares.used other pcb member,
            fun also => different (shares.apart other thread pcb member (kept ▸ also))⟩)
          (kept ▸ shares.used thread) (kept ▸ shares.once thread) (fun _ => outside) nofun
          (.inl rfl)
      | some pcb =>
        exact ⟨shares.acquired reached mine (owned.trans held) outside locals places rfl,
          .inr (.inl ⟨pcb, reached⟩)⟩
    · rw [point] at reached first
      have mine : (before.locals thread).owned = pcb :: (before.locals thread).held := by
        rw [PcbCaller.owned, ← first]
        rfl
      rw [within.held] at held
      exact ⟨shares.released mine (owned.trans held) outside locals places reached,
        .inr (.inr ⟨pcb, shares.used thread pcb (mine ▸ List.mem_cons_self), reached⟩)⟩

/-- What any run of the two functions comes to. -/
structure PcbSound (s : State) (t : Shared Thread Mutex Cond State PcbCaller) : Prop where
  once : ∀ thread, (t.locals thread).held.Nodup
  apart : ∀ thread other pcb, pcb ∈ (t.locals thread).held → pcb ∈ (t.locals other).held →
    thread = other
  /-- While no call has made an access, the table is what whole calls have made of it. -/
  settled : (∀ thread, (t.locals thread).point.quiet = true) → ReflTransGen PcbStep s t.data ∧
    FreeEntries t.data.pt.pstate t.data.pt.parent t.data.pt.pcbFreelist t.data.pt.processCount

omit [DecidableEq Mutex] in
theorem Shares.of_sections {start : Sections.State Thread State PcbCaller Cond}
    (shares : Shares start)
    (sections : ReflTransGen (Sections.Step (pcbCode Mutex Cond)) start before) :
    Shares before ∧ ReflTransGen PcbStep start.data before.data := by
  induction sections with
  | refl => exact ⟨shares, .refl⟩
  | tail _ step ih =>
    obtain ⟨shares, steps⟩ := ih
    cases step with
    | outer outer =>
      obtain ⟨shares, same⟩ := shares.outer outer
      exact ⟨shares, same ▸ steps⟩
    | atomic ongoing leaves =>
      obtain ⟨shares, same | called⟩ := shares.atomic ongoing leaves
      · exact ⟨shares, same.symm ▸ steps⟩
      · exact ⟨shares, steps.tail called⟩

omit [DecidableEq Mutex] in
theorem Shares.sound (shares : Shares before) {s : State}
    (steps : ReflTransGen PcbStep s before.data)
    (held : Sections.Held (pcbCode Mutex Cond) before now)
    {t : Shared Thread Mutex Cond State PcbCaller} (data : now.data = t.data)
    (locals : now.locals = t.locals) : PcbSound s t := by
  have kept : ∀ thread, (t.locals thread).held = (before.locals thread).held := by
    intro thread
    rw [← locals]
    cases held with
    | free settled => rw [settled]
    | @busy holder ongoing =>
      have within := Within.of_ongoing shares ongoing
      rcases eq_or_ne thread holder with rfl | different
      · exact within.held
      · rw [within.others thread different]
  have inside : ∀ thread, (before.locals thread).held ⊆ (before.locals thread).owned := by
    intro thread pcb member
    unfold PcbCaller.owned
    split
    · exact List.mem_cons_of_mem _ member
    · exact member
  constructor
  case once =>
    intro thread
    rw [kept]
    have once := shares.once thread
    unfold PcbCaller.owned at once
    split at once
    · exact (List.nodup_cons.mp once).2
    · exact once
  case apart =>
    intro thread other pcb mine theirs
    exact shares.apart thread other pcb (inside thread (kept thread ▸ mine))
      (inside other (kept other ▸ theirs))
  case settled =>
    intro quiet
    have same : t.data = before.data := by
      rw [← data]
      cases held with
      | free settled => rw [settled]
      | @busy holder ongoing =>
        have within := Within.of_ongoing shares ongoing
        have reached := within.reached
        have still := locals ▸ quiet holder
        cases point : (now.locals holder).point with
        | testing | freeing =>
          rw [point] at reached
          exact reached
        | outside => exact absurd point within.apart
        | _ =>
          rw [point] at still
          cases still
    rw [same]
    exact ⟨steps, shares.entries⟩

variable {kernelMutex : Mutex} {kernelSemCv : Cond} {kernelCv : Cond → Bool}

/-- **No entry of the process table is given out twice**, although `acquire_PCB`
and `release_PCB` read and write the free list and the count piece by piece: in
the monitor, their accesses come to whole calls. -/
theorem pcb_sections (own : kernelCv kernelSemCv = false) {s : State}
    (entries : FreeEntries s.pt.pstate s.pt.parent s.pt.pcbFreelist s.pt.processCount)
    {t : Shared Thread Mutex Cond State PcbCaller}
    (reached : (sharedMachine kernelMutex kernelSemCv kernelCv (pcbCode Mutex Cond) s
      fun _ => ⟨.outside, []⟩).Reachable t) : PcbSound s t := by
  obtain ⟨before, now, atomic⟩ := Monitor.sections_atomic own reached
  have start : Shares (⟨s, fun _ => ⟨.outside, []⟩, fun _ => .outside⟩ :
      Sections.State Thread State PcbCaller Cond) := by
    constructor
    case entries => exact entries
    case used => exact fun _ _ member => (List.not_mem_nil member).elim
    case once => exact fun _ => List.nodup_nil
    case apart => exact fun _ _ _ member => (List.not_mem_nil member).elim
    case outside => exact fun _ _ => rfl
    case entering => exact fun _ entering => nomatch entering
    case idle => exact fun _ => .inl rfl
  obtain ⟨shares, steps⟩ := start.of_sections atomic.sections
  exact shares.sound steps atomic.held atomic.data atomic.locals

end Sections

/-- The tables after the loops of `initialize_processes`. -/
def linked : State := initialized blankHeap blankThreads (fun _ => .null) (fun _ => 0) 1

/-- The second thread calls while the first is in the middle of its call. -/
def twoCallers (first second : Fin 2) : List (Monitor.SharedLabel (Fin 2) Unit Bool PcbCall) :=
  List.flatten [
    [.code first .acquire, .monitor (.run first (.mutexLock ())), .monitor (.semDown first),
      .monitor (.run first (.mutexUnlock ()))],
    List.replicate 4 (.code first .acquire),
    [.code second .acquire, .monitor (.run second (.mutexLock ())),
      .monitor (.run second (.condWait () false false)), .monitor (.run second .advance),
      .monitor (.run second .advance)],
    List.replicate 6 (.code first .acquire),
    [.monitor (.run first (.mutexLock ())), .monitor (.semUp first),
      .monitor (.run first (.condSignal false false))],
    List.replicate 4 (.monitor (.run first .advance)),
    [.monitor (.run first (.mutexUnlock ())), .monitor (.dispatch second)],
    List.replicate 3 (.monitor (.run second .advance)),
    [.monitor (.semDown second), .monitor (.run second (.mutexUnlock ()))],
    List.replicate 10 (.code second .acquire)]

theorem pcb_sections_two : ∃ t : Shared (Fin 2) Unit Bool State PcbCaller,
    (t.locals 0).held = [0] ∧ (t.locals 1).held = [1] ∧ PcbSound linked t := by
  let machine := sharedMachine () false id (pcbCode Unit Bool) linked
    fun _ : Fin 2 => ⟨.outside, []⟩
  let start : Shared (Fin 2) Unit Bool State PcbCaller :=
    ⟨Monitor.boot (fun _ => .running) fun _ => ⟨false, false⟩, linked, fun _ => ⟨.outside, []⟩⟩
  have begun : machine.Reachable start := .start ⟨fun _ => .running, fun _ => ⟨false, false⟩, rfl⟩
  have held : ((twoCallers 0 1).foldlM machine.step start).map
      (fun t => ((t.locals 0).held, (t.locals 1).held)) = some ([0], [1]) := by decide +kernel
  obtain ⟨t, ran, same⟩ := Option.map_eq_some_iff.mp held
  obtain ⟨first, second⟩ := Prod.mk.inj same
  exact ⟨t, first, second, pcb_sections rfl freeEntries_linked (begun.replay (twoCallers 0 1) ran)⟩

end TinyOs.Kernel
