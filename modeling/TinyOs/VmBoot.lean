import TinyOs.Library.Barrier
import TinyOs.Library.Machine

/-! `vm_boot`: the threads of the cores and the PIC daemon, from the launch of the
first core to the destruction of the barriers. One step of a thread is what it
does up to the next barrier, one iteration of a loop, or the end of a wait; the
scheduler of a core is left at any time. -/
namespace TinyOs.VmBoot
open Function Library

/-- Where a core is in `bootfunc_wrapper` and in `boot_tinyos_kernel`. A wait
holds the round of its barrier. -/
inductive CorePoint where
  /-- The thread is not created. -/
  | absent
  | prolog
  | systemSync (round : Nat)
  /-- `boot_tinyos_kernel` up to `cpu_core_barrier_sync`. -/
  | boot
  | coreSync (round : Nat)
  /-- `run_scheduler`. -/
  | schedule
  | epilog
  | coreEndSync (round : Nat)
  | stopPic
  | systemEndSync (round : Nat)
  | finished
  deriving DecidableEq, Repr

/-- Where the first thread is in `vm_boot` and in `PIC_daemon`. -/
inductive PicPoint where
  | launch (c : Nat)
  | openTerminal (i : Nat)
  | systemSync (round : Nat)
  /-- The head of the multiplexing loop. -/
  | multiplex
  | systemEndSync (round : Nat)
  | closeTerminal (i : Nat)
  | join (c : Nat)
  | returned
  deriving DecidableEq, Repr

/-- The parameters of `vm_boot`, and the static variables. -/
structure State where
  cores : Nat
  serialno : Nat
  ncores : Nat
  nterm : Nat
  core : Nat → CorePoint
  pic : PicPoint
  systemBarrier : Barrier
  coreBarrier : Barrier
  picActive : Bool
  /-- The timer of a core exists. -/
  timer : Nat → Bool
  /-- The FIFOs of a terminal are open. -/
  terminal : Nat → Bool
  /-- Core 0 has initialized the kernel data and has made the first `Exec`. -/
  initialized : Bool

/-- A step of the thread of a core, and one of the first thread. -/
inductive Label where
  | core (c : Nat)
  | pic
  deriving DecidableEq, Repr

def maxCores : Nat := 32

def maxTerminals : Nat := 4

/-- `vm_boot` up to the loop that launches the cores. A failed `CHECK_CONDITION`
aborts. -/
def vmBoot (ncores cores serialno : Nat) : Option State :=
  if 0 < cores ∧ cores ≤ maxCores ∧ ncores = 0 ∧ serialno ≤ maxTerminals then some
    { cores := cores
      serialno := serialno
      ncores := cores
      nterm := 0
      core := fun _ => .absent
      pic := .launch 0
      systemBarrier := .init (cores + 1)
      coreBarrier := .init cores
      picActive := true
      timer := fun _ => false
      terminal := fun _ => false
      initialized := false }
  else none

def State.setCore (s : State) (c : Nat) (point : CorePoint) : State :=
  { s with core := update s.core c point }

/-- `bootfunc_wrapper`, and `boot_tinyos_kernel` in it. -/
def stepCore (s : State) (c : Nat) : Option State :=
  match s.core c with
  | .absent => none
  | .prolog => some
      ({ s with
        timer := update s.timer c true
        systemBarrier := s.systemBarrier.arrive }.setCore c (.systemSync s.systemBarrier.round))
  | .systemSync round => if s.systemBarrier.complete round then some (s.setCore c .boot) else none
  | .boot => some
      ({ s with
        initialized := s.initialized || c == 0
        coreBarrier := s.coreBarrier.arrive }.setCore c (.coreSync s.coreBarrier.round))
  | .coreSync round => if s.coreBarrier.complete round then some (s.setCore c .schedule) else none
  | .schedule => some (s.setCore c .epilog)
  | .epilog => some
      ({ s with
        timer := update s.timer c false
        coreBarrier := s.coreBarrier.arrive }.setCore c (.coreEndSync s.coreBarrier.round))
  | .coreEndSync round => if s.coreBarrier.complete round then some (s.setCore c .stopPic) else none
  | .stopPic => some
      ({ s with
        picActive := s.picActive && c != 0
        systemBarrier := s.systemBarrier.arrive }.setCore c (.systemEndSync s.systemBarrier.round))
  | .systemEndSync round =>
      if s.systemBarrier.complete round then some (s.setCore c .finished) else none
  | .finished => none

/-- `vm_boot`, and `PIC_daemon` in it. -/
def stepPic (s : State) : Option State :=
  match s.pic with
  | .launch c =>
      if c < s.cores then some { s.setCore c .prolog with pic := .launch (c + 1) }
      else some { s with nterm := s.serialno, pic := .openTerminal 0 }
  | .openTerminal i =>
      if i < s.nterm then
        some { s with terminal := update s.terminal i true, pic := .openTerminal (i + 1) }
      else some
        { s with
          systemBarrier := s.systemBarrier.arrive
          pic := .systemSync s.systemBarrier.round }
  | .systemSync round =>
      if s.systemBarrier.complete round then some { s with pic := .multiplex } else none
  | .multiplex =>
      if s.picActive then some s
      else some
        { s with
          systemBarrier := s.systemBarrier.arrive
          pic := .systemEndSync s.systemBarrier.round }
  | .systemEndSync round =>
      if s.systemBarrier.complete round then some { s with pic := .closeTerminal 0 } else none
  | .closeTerminal i =>
      if i < s.nterm then
        some { s with terminal := update s.terminal i false, pic := .closeTerminal (i + 1) }
      else some { s with nterm := 0, pic := .join 0 }
  | .join c =>
      if c < s.cores then
        if s.core c = .finished then some { s with pic := .join (c + 1) } else none
      else some { s with ncores := 0, pic := .returned }
  | .returned => none

def step (s : State) : Label → Option State
  | .core c => stepCore s c
  | .pic => stepPic s

def machine (ncores cores serialno : Nat) : Machine State Label where
  initial s := vmBoot ncores cores serialno = some s
  step := step

/-! How often each thread has arrived at a barrier and left it. -/

namespace CorePoint

def systemArrivals : CorePoint → Nat
  | .absent | .prolog => 0
  | .systemSync _ | .boot | .coreSync _ | .schedule | .epilog | .coreEndSync _ | .stopPic => 1
  | .systemEndSync _ | .finished => 2

def systemDepartures : CorePoint → Nat
  | .absent | .prolog | .systemSync _ => 0
  | .boot | .coreSync _ | .schedule | .epilog | .coreEndSync _ | .stopPic | .systemEndSync _ => 1
  | .finished => 2

def coreArrivals : CorePoint → Nat
  | .absent | .prolog | .systemSync _ | .boot => 0
  | .coreSync _ | .schedule | .epilog => 1
  | .coreEndSync _ | .stopPic | .systemEndSync _ | .finished => 2

def coreDepartures : CorePoint → Nat
  | .absent | .prolog | .systemSync _ | .boot | .coreSync _ => 0
  | .schedule | .epilog | .coreEndSync _ => 1
  | .stopPic | .systemEndSync _ | .finished => 2

/-- The timer of the core exists. -/
def timed : CorePoint → Bool
  | .systemSync _ | .boot | .coreSync _ | .schedule | .epilog => true
  | _ => false

/-- How many steps the thread has taken. -/
def progress : CorePoint → Nat
  | .absent | .prolog => 0
  | .systemSync _ => 1
  | .boot => 2
  | .coreSync _ => 3
  | .schedule => 4
  | .epilog => 5
  | .coreEndSync _ => 6
  | .stopPic => 7
  | .systemEndSync _ => 8
  | .finished => 9

/-- A wait is for the first round of a barrier, or for the second. -/
def Timely : CorePoint → Prop
  | .systemSync round | .coreSync round => round = 0
  | .coreEndSync round | .systemEndSync round => round = 1
  | _ => True

end CorePoint

namespace PicPoint

def systemArrivals : PicPoint → Nat
  | .launch _ | .openTerminal _ => 0
  | .systemSync _ | .multiplex => 1
  | .systemEndSync _ | .closeTerminal _ | .join _ | .returned => 2

def systemDepartures : PicPoint → Nat
  | .launch _ | .openTerminal _ | .systemSync _ => 0
  | .multiplex | .systemEndSync _ => 1
  | .closeTerminal _ | .join _ | .returned => 2

/-- The core has been launched. -/
def launched : PicPoint → Nat → Bool
  | .launch next, c => c < next
  | _, _ => true

/-- A terminal is open, among `nterm`. -/
def opened : PicPoint → Nat → Bool
  | .launch _, _ | .join _, _ | .returned, _ => false
  | .openTerminal next, i => i < next
  | .systemSync _, _ | .multiplex, _ | .systemEndSync _, _ => true
  | .closeTerminal next, i => next ≤ i

/-- The value of `nterm`. -/
def nterm (serialno : Nat) : PicPoint → Nat
  | .launch _ | .join _ | .returned => 0
  | _ => serialno

/-- The core has been joined. -/
def joined : PicPoint → Nat → Bool
  | .join next, c => c < next
  | .returned, _ => true
  | _, _ => false

/-- A loop is within its bounds, and a wait is for the right round. -/
def Timely (cores serialno : Nat) : PicPoint → Prop
  | .launch c | .join c => c ≤ cores
  | .openTerminal i | .closeTerminal i => i ≤ serialno
  | .systemSync round => round = 0
  | .systemEndSync round => round = 1
  | .multiplex | .returned => True

/-- How many steps the thread has taken, turns of the multiplexing loop apart. -/
def progress (cores serialno : Nat) : PicPoint → Nat
  | .launch c => c
  | .openTerminal i => cores + 1 + i
  | .systemSync _ => cores + serialno + 2
  | .multiplex => cores + serialno + 3
  | .systemEndSync _ => cores + serialno + 4
  | .closeTerminal i => cores + serialno + 5 + i
  | .join c => cores + 2 * serialno + 6 + c
  | .returned => 2 * cores + 2 * serialno + 7

end PicPoint

/-- A party of the system barrier: a core, or the first thread. -/
def State.systemArrivals (s : State) : Option Nat → Nat
  | none => s.pic.systemArrivals
  | some c => (s.core c).systemArrivals

def State.systemDepartures (s : State) : Option Nat → Nat
  | none => s.pic.systemDepartures
  | some c => (s.core c).systemDepartures

def State.coreArrivals (s : State) (c : Nat) : Nat := (s.core c).coreArrivals

def State.coreDepartures (s : State) (c : Nat) : Nat := (s.core c).coreDepartures

def systemParties (cores : Nat) : List (Option Nat) := none :: (List.range cores).map some

end TinyOs.VmBoot
