import TinyOs.KernelProc
import TinyOs.Library.Machine

/-! The kernel as a machine: a step is what one thread does between two points
where it gives up the kernel, that is, from `kernel_lock` or the end of a
`kernel_wait` to the next `kernel_wait` or `kernel_unlock`. -/
namespace TinyOs.Kernel
open Function Library

inductive Label where
  | exec (thread : TcbRef) (call : Task) (argl : Int) (args : Pointer) (bytes : List (BitVec 8))
      (ptcb : PtcbRef) (tcb : TcbRef)
  | createThread (thread : TcbRef) (task : Task) (argl : Int) (args : Pointer) (ptcb : PtcbRef)
      (tcb : TcbRef)
  | threadJoin (thread : TcbRef) (tid : PtcbRef) (exitval : Pointer)
  | threadDetach (thread : TcbRef) (tid : PtcbRef)
  | threadExit (thread : TcbRef) (exitval : Int)
  | exit (thread : TcbRef) (exitval : Int)
  | waitChild (thread : TcbRef) (cpid : Int) (status : Pointer)
  | openNull (thread : TcbRef)
  | openTerminal (thread : TcbRef) (termno : Nat)
  | close (thread : TcbRef) (fd : Int)
  | dup2 (thread : TcbRef) (oldfd newfd : Int)
  | read (thread : TcbRef) (fd : Int) (size : BitVec 32) (ready : Nat)
  | write (thread : TcbRef) (fd : Int) (size : BitVec 32) (ready : Nat)
  /-- A woken thread is back in the loop it waited in. -/
  | resume (thread : TcbRef) (ready : Nat)
  /-- The thread in `serial_write` tries again. -/
  | poll (thread : TcbRef) (ready : Nat)
  /-- `serial_rx_handler`. -/
  | rxReady
  /-- User code writes to its memory. -/
  | store (pointer : Pointer) (value : Int)
  deriving DecidableEq, Repr

namespace State

/-- The thread is at work outside the kernel, and the kernel is free. -/
def calls (s : State) (thread : TcbRef) : Bool :=
  thread ∈ s.threads.live ∧ s.threads.status thread = .user ∧ s.writer = none

/-- `xmalloc` and `spawn_thread` return unused memory. -/
def fresh (s : State) (ptcb : PtcbRef) (tcb : TcbRef) : Bool :=
  ptcb ≠ 0 ∧ s.heap.allocated ptcb = false ∧ tcb < maxThreads ∧ tcb ∉ s.threads.live

/-- A woken thread re-tests the condition of its loop. -/
def resume (s : State) (thread : TcbRef) (ready : Nat) : Wait → Option State
  | .specificChild child status => some (s.specificLoop thread child status)
  | .anyChild status => some (s.anyLoop thread status)
  | .exitLoop exitval => s.exitResume thread exitval
  | .join target exitval serial => some (s.joinLoop thread target exitval serial)
  | .read fcb device size => some (s.deviceRead thread fcb size ready device)

/-- `serial_rx_handler` does not know which terminal is ready. -/
def rxReady (s : State) : State :=
  (List.range s.serialPorts).foldl
    (fun s devno => s.kernelBroadcast (.rxReady (.serial devno))) s

end State

/-- One step of a machine that has not crashed. -/
def act (s : State) : Label → Option State
  | .exec thread call argl args bytes ptcb tcb =>
    if s.calls thread ∧ s.fresh ptcb tcb then
      some (s.sysExec thread call argl args bytes ptcb tcb)
    else none
  | .createThread thread task argl args ptcb tcb =>
    if s.calls thread ∧ s.fresh ptcb tcb then
      some (s.sysCreateThread thread task argl args ptcb tcb)
    else none
  | .threadJoin thread tid exitval =>
    if s.calls thread then some (s.sysThreadJoin thread tid exitval) else none
  | .threadDetach thread tid =>
    if s.calls thread then some (s.sysThreadDetach thread tid) else none
  | .threadExit thread exitval =>
    if s.calls thread then s.sysThreadExit thread exitval else none
  | .exit thread exitval => if s.calls thread then s.sysExit thread exitval else none
  | .waitChild thread cpid status =>
    if s.calls thread then some (s.sysWaitChild thread cpid status) else none
  | .openNull thread => if s.calls thread then some (s.sysOpenNull thread) else none
  | .openTerminal thread termno =>
    if s.calls thread then some (s.sysOpenTerminal thread termno) else none
  | .close thread fd => if s.calls thread then some (s.sysClose thread fd) else none
  | .dup2 thread oldfd newfd =>
    if s.calls thread then some (s.sysDup2 thread oldfd newfd) else none
  | .read thread fd size ready =>
    if s.calls thread then some (s.sysRead thread fd size ready) else none
  | .write thread fd size ready =>
    if s.calls thread then some (s.sysWrite thread fd size ready) else none
  | .resume thread ready =>
    match s.threads.status thread with
    | .waiting wait =>
      if thread ∈ s.threads.live ∧ s.threads.woken thread ∧ s.writer = none then
        s.resume thread ready wait
      else none
    | _ => none
  | .poll thread ready =>
    match s.threads.status thread with
    | .writing fcb device size =>
      if thread ∈ s.threads.live ∧ s.writer = some thread then
        some (s.deviceWrite thread fcb size ready device)
      else none
    | _ => none
  | .rxReady => some s.rxReady
  | .store pointer value => some { s with memory := update s.memory pointer value }

def step (s : State) (label : Label) : Option State :=
  if s.crashed = none then act s label else none

/-- The tables before the first `Exec`; the memory that no code has written is
arbitrary. -/
def initialized (heap : PtcbHeap) (threads : ThreadTable) (stream : FcbRef → Device)
    (memory : Pointer → Int) (serialPorts : Nat) : State where
  pt := initializeProcesses
  ft := initializeFiles stream
  heap := { heap with allocated := fun _ => false, created := 0, exitOf := fun _ => none
                      detachedOf := fun _ => false }
  threads := { threads with live := [] }
  memory := memory
  writer := none
  serialPorts := serialPorts
  crashed := none
  history :=
    { incarnation := fun _ => 0, exitedWith := fun _ => 0, reaped := [], joined := [] }

/-- `boot_tinyos_kernel`: the null process, then the boot task with its
arguments. -/
def boot (s : State) (call : Task) (argl : Int) (args : Pointer) (bytes : List (BitVec 8))
    (ptcb : PtcbRef) (tcb : TcbRef) : State :=
  ((s.exec 0 0 0 0 [] 0 0).2.exec 0 call argl args bytes ptcb tcb).2

def machine : Machine State Label where
  initial s := ∃ heap threads stream memory serialPorts call argl args bytes ptcb tcb,
    ptcb ≠ 0 ∧ tcb < maxThreads ∧
    s = boot (initialized heap threads stream memory serialPorts) call argl args bytes ptcb tcb
  step := step

end TinyOs.Kernel
