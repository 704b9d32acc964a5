import TinyOs.Library.Machine
import Mathlib.Data.List.Basic

/-! Halting a core and raising interrupts, as `bios.c` does both. One step is
one atomic part of `cpu_core_halt` or of `raise_interrupt`, or one call of
another function that the two can meet; any number of cores and of threads that
raise interrupts interleave freely. -/
namespace TinyOs.CoreHalt
open Library Function

inductive Interrupt where
  | ici | alarm | serialRxReady | serialTxReady
  deriving DecidableEq, Repr

/-- Where a core is in `cpu_core_halt`. -/
inductive Point where
  | executing
  /-- `SIGUSR1` is blocked, `core_halt_mutex` not yet locked. -/
  | masked
  /-- In `pthread_cond_wait`. -/
  | waiting
  /-- Past the loop, `SIGUSR1` still blocked. -/
  | woken
  /-- About to dispatch. -/
  | unmasked
  deriving DecidableEq, Repr

/-- A `Core` and the thread that runs it. -/
structure CoreState where
  point : Point
  intDisabled : Bool
  halted : Bool
  intpending : Interrupt → Bool
  /-- The thread blocks `SIGUSR1`. -/
  sigMasked : Bool
  /-- A blocked `SIGUSR1` is pending for the thread. -/
  sigPending : Bool

/-- Who raises interrupts: the PIC daemon, and threads that call `cpu_ici`. -/
inductive Raiser (Thread : Type*) where
  | pic
  | thread (t : Thread)
  deriving DecidableEq, Repr

/-- A call of `raise_interrupt` under way. `live` is history: the flag has not
been cleared since the call set it. -/
structure Raise (Core : Type*) where
  core : Core
  intno : Interrupt
  queued : Bool
  live : Bool
  deriving DecidableEq, Repr

structure State (Core Thread : Type*) where
  core : Core → CoreState
  haltedList : List Core
  raise : Raiser Thread → Option (Raise Core)
  /-- History: a call that set the flag has returned, and the flag has not been
  cleared since. -/
  completed : Core → Interrupt → Bool

variable {Core Thread : Type*} [DecidableEq Core] [DecidableEq Thread]

def setCore (s : State Core Thread) (core : Core) (next : CoreState) : State Core Thread :=
  { s with core := update s.core core next }

/-- Flags of a core are cleared, and the history of the calls that set them. -/
def clearPending (s : State Core Thread) (core : Core) (which : Interrupt → Bool) :
    State Core Thread :=
  { s with
    core := update s.core core
      { s.core core with intpending := fun intno => (s.core core).intpending intno && !which intno }
    raise := fun raiser => (s.raise raiser).map fun raise =>
      { raise with live := raise.live && !(decide (raise.core = core) && which raise.intno) }
    completed := fun other intno =>
      s.completed other intno && !(decide (other = core) && which intno) }

/-- `dispatch_interrupts`. What the handlers do is the business of other steps. -/
def dispatchInterrupts (s : State Core Thread) (core : Core) : State Core Thread :=
  if (s.core core).intDisabled then s else clearPending s core fun _ => true

def sigusr1Handler (s : State Core Thread) (core : Core) : State Core Thread :=
  if (s.core core).intDisabled then s else dispatchInterrupts s core

/-- `SIGUSR1` is unblocked; the handler runs if the signal is pending. -/
def unblockSigusr1 (s : State Core Thread) (core : Core) : State Core Thread :=
  let pending := (s.core core).sigPending
  let s := setCore s core { s.core core with sigMasked := false, sigPending := false }
  if pending then sigusr1Handler s core else s

/-- `core_restart`, under `core_halt_mutex`. -/
def coreRestart (s : State Core Thread) (core : Core) : State Core Thread :=
  if (s.core core).halted then
    { s with
      core := update s.core core { s.core core with halted := false }
      haltedList := s.haltedList.erase core }
  else s

def cpuCoreRestartOne (s : State Core Thread) : State Core Thread :=
  match s.haltedList with
  | [] => s
  | core :: rest => coreRestart { s with haltedList := rest } core

def cpuCoreRestartAll (s : State Core Thread) : State Core Thread :=
  { s with
    core := fun core => { s.core core with halted := false }
    haltedList := s.haltedList.filter fun core => !(s.core core).halted }

/-- The section of `cpu_core_halt` up to the wait. -/
def enterHalt (s : State Core Thread) (core : Core) : State Core Thread :=
  { s with
    core := update s.core core { s.core core with halted := true, point := .waiting }
    haltedList := core :: s.haltedList }

/-- `cpu_disable_interrupts`. -/
def disableInterrupts (s : State Core Thread) (core : Core) : State Core Thread :=
  if (s.core core).intDisabled then s
  else setCore s core { s.core core with sigMasked := true, intDisabled := true }

/-- `cpu_enable_interrupts`. -/
def enableInterrupts (s : State Core Thread) (core : Core) : State Core Thread :=
  if (s.core core).intDisabled then
    let s := setCore s core { s.core core with intDisabled := false }
    dispatchInterrupts (unblockSigusr1 s core) core
  else s

/-- `core->intpending[intno] = 1` of `raise_interrupt`. -/
def setPending (s : State Core Thread) (raiser : Raiser Thread) (core : Core) (intno : Interrupt) :
    State Core Thread :=
  { s with
    core := update s.core core
      { s.core core with intpending := update (s.core core).intpending intno true }
    raise := update s.raise raiser (some ⟨core, intno, false, true⟩) }

/-- `pthread_sigqueue` of `raise_interrupt`: the handler runs at once unless the
target blocks the signal. -/
def queueSignal (s : State Core Thread) (raiser : Raiser Thread) (raise : Raise Core) :
    State Core Thread :=
  let s := { s with raise := update s.raise raiser (some { raise with queued := true }) }
  if (s.core raise.core).sigMasked then
    setCore s raise.core { s.core raise.core with sigPending := true }
  else sigusr1Handler s raise.core

/-- History of a call that returns. -/
def noteReturn (s : State Core Thread) (raiser : Raiser Thread) (raise : Raise Core) :
    State Core Thread :=
  { s with
    raise := update s.raise raiser none
    completed := update s.completed raise.core (update (s.completed raise.core) raise.intno
      (s.completed raise.core raise.intno || raise.live)) }

/-- `cpu_core_restart` at the end of `raise_interrupt`. -/
def finishRaise (s : State Core Thread) (raiser : Raiser Thread) (raise : Raise Core) :
    State Core Thread :=
  coreRestart (noteReturn s raiser raise) raise.core

/-- `cpu_ici` raises `ICI` and the PIC daemon the others. -/
def Raiser.raises : Raiser Thread → Interrupt → Bool
  | .pic, intno => decide (intno ≠ .ici)
  | .thread _, intno => decide (intno = .ici)

inductive Label (Core Thread : Type*) where
  /-- The parts of `cpu_core_halt`, in their order. -/
  | maskSignal (core : Core)
  | enterHalt (core : Core)
  | wake (core : Core)
  | unmaskSignal (core : Core)
  | dispatch (core : Core)
  | disableInterrupts (core : Core)
  | enableInterrupts (core : Core)
  | setTimer (core : Core)
  /-- The parts of `raise_interrupt`, in their order. -/
  | setPending (raiser : Raiser Thread) (core : Core) (intno : Interrupt)
  | queueSignal (raiser : Raiser Thread)
  | finishRaise (raiser : Raiser Thread)
  /-- Calls of the kernel. -/
  | restart (core : Core)
  | restartOne
  | restartAll
  deriving DecidableEq, Repr

/-- A core moves from one point to another. -/
def moveTo (s : State Core Thread) (core : Core) (next : Point) : State Core Thread :=
  setCore s core { s.core core with point := next }

def step (s : State Core Thread) : Label Core Thread → Option (State Core Thread)
  | .maskSignal core =>
    if (s.core core).point = .executing ∧ (s.core core).intDisabled = false then
      some (setCore s core { s.core core with point := .masked, sigMasked := true })
    else none
  | .enterHalt core => if (s.core core).point = .masked then some (enterHalt s core) else none
  | .wake core =>
    if (s.core core).point = .waiting ∧ (s.core core).halted = false then
      some (moveTo s core .woken)
    else none
  | .unmaskSignal core =>
    if (s.core core).point = .woken then some (unblockSigusr1 (moveTo s core .unmasked) core)
    else none
  | .dispatch core =>
    if (s.core core).point = .unmasked then
      some (dispatchInterrupts (moveTo s core .executing) core)
    else none
  | .disableInterrupts core =>
    if (s.core core).point = .executing then some (disableInterrupts s core) else none
  | .enableInterrupts core =>
    if (s.core core).point = .executing then some (enableInterrupts s core) else none
  | .setTimer core =>
    if (s.core core).point = .executing then some (clearPending s core (· = .alarm)) else none
  | .setPending raiser core intno =>
    if s.raise raiser = none ∧ raiser.raises intno = true then
      some (setPending s raiser core intno)
    else none
  | .queueSignal raiser =>
    match s.raise raiser with
    | some raise => if raise.queued then none else some (queueSignal s raiser raise)
    | none => none
  | .finishRaise raiser =>
    match s.raise raiser with
    | some raise => if raise.queued then some (finishRaise s raiser raise) else none
    | none => none
  | .restart core => some (coreRestart s core)
  | .restartOne => some (cpuCoreRestartOne s)
  | .restartAll => some (cpuCoreRestartAll s)

/-- The cores as `vm_boot` and `bootfunc_wrapper` leave them. -/
def boot : State Core Thread where
  core := fun _ => ⟨.executing, false, false, fun _ => false, false, false⟩
  haltedList := []
  raise := fun _ => none
  completed := fun _ _ => false

def machine (Core Thread : Type*) [DecidableEq Core] [DecidableEq Thread] :
    Machine (State Core Thread) (Label Core Thread) where
  initial s := s = boot
  step := step

/-- The core sleeps in `cpu_core_halt` through an interrupt whose
`raise_interrupt` has returned. -/
def SleepsThrough (s : State Core Thread) (core : Core) : Prop :=
  (s.core core).point = .waiting ∧ (s.core core).halted = true ∧
    ∃ intno, (s.core core).intpending intno = true ∧ s.completed core intno = true

end TinyOs.CoreHalt
