import Mathlib.Data.BitVec
import Mathlib.Logic.Function.Basic

/-! The data of the kernel between two system calls: the process table, the
file table, the PTCBs and the threads. Tables are kept by field, so
`pt.pstate p` is `PT[p].pstate`. Pointers into a table are its indices, and an
`rlnode` list is the sequence of its nodes, a node being known by its owner. -/
namespace TinyOs.Kernel
open Function

def maxProc : Nat := 65536

def maxFileid : Nat := 16

def maxFiles : Nat := maxProc

/-- How many blocks of `THREAD_SIZE` bytes, at least 2^17, fit into an address
space of 2^47 bytes. -/
def maxThreads : Nat := 2 ^ 30

/-- `PCB*`, the index of an entry of `PT`. -/
abbrev Pid := Nat

/-- `FCB*`, the index of an entry of `FT`. -/
abbrev FcbRef := Nat

/-- `TCB*`. -/
abbrev TcbRef := Nat

/-- `PTCB*`, which is also the `Tid_t` that `CreateThread` returns. -/
abbrev PtcbRef := Nat

/-- A pointer that the kernel only passes on, or through which it reads or
writes an `int`; zero is `NULL`. -/
abbrev Pointer := Nat

/-- A function pointer; zero is `NULL`. -/
abbrev Task := Nat

def noproc : Int := -1

def nofile : Int := -1

inductive PidState where
  | free | alive | zombie
  deriving DecidableEq, Repr

/-- `PT` by field, with `pcb_freelist` and `process_count`. A free entry uses
its `parent` as the link of the free list. -/
structure ProcessTable where
  pstate : Pid → PidState
  parent : Pid → Option Pid
  exitval : Pid → Int
  threadList : Pid → List PtcbRef
  threadCount : Pid → BitVec 32
  mainTask : Pid → Task
  argl : Pid → Int
  /-- The copy of the arguments that the process owns. -/
  args : Pid → Option (List (BitVec 8))
  childrenList : Pid → List Pid
  exitedList : Pid → List Pid
  fidt : Pid → Nat → Option FcbRef
  pcbFreelist : Option Pid
  processCount : BitVec 32

/-- A `streamobj` with its `streamfunc`. -/
inductive Device where
  | null
  | serial (devno : Nat)
  deriving DecidableEq, Repr

/-- `FT` by field, with `FCB_freelist`. The code has no `opened` and `closed`:
they count the successful opens and the `Close` calls of each entry. -/
structure FileTable where
  refcount : FcbRef → BitVec 32
  stream : FcbRef → Device
  fcbFreelist : List FcbRef
  opened : FcbRef → Nat
  closed : FcbRef → Nat

/-- The PTCBs by field. A freed one keeps its contents until its memory is
allocated to the next. The code has no `serial`, `exitOf` and `detachedOf`:
each creation gets a number, and by that number the value the thread exited
with and whether it has been detached are on record. -/
structure PtcbHeap where
  allocated : PtcbRef → Bool
  tcb : PtcbRef → TcbRef
  detached : PtcbRef → Bool
  exited : PtcbRef → Bool
  refCount : PtcbRef → BitVec 32
  exitval : PtcbRef → Int
  task : PtcbRef → Task
  argl : PtcbRef → Int
  args : PtcbRef → Pointer
  serial : PtcbRef → Nat
  created : Nat
  exitOf : Nat → Option Int
  detachedOf : Nat → Bool

/-- The loop in which a thread has called `kernel_wait`, with the variables it
keeps. -/
inductive Wait where
  | specificChild (child : Pid) (status : Pointer)
  | anyChild (status : Pointer)
  /-- `wait_for_any_child` called from the loop of `sys_Exit`. -/
  | exitLoop (exitval : Int)
  /-- The `serial` of the target is not in the code. -/
  | join (target : PtcbRef) (exitval : Pointer) (serial : Nat)
  | read (fcb : FcbRef) (device : Device) (size : BitVec 32)
  deriving DecidableEq, Repr

inductive Status where
  /-- Outside the kernel. -/
  | user
  /-- In `kernel_wait`. -/
  | waiting (wait : Wait)
  /-- Polling in `serial_write`, with the kernel locked. -/
  | writing (fcb : FcbRef) (device : Device) (size : BitVec 32)
  deriving DecidableEq, Repr

/-- The TCBs by field. `live` are those that have not executed `kernel_sleep`
with `EXITED`. -/
structure ThreadTable where
  live : List TcbRef
  owner : TcbRef → Pid
  ptcb : TcbRef → PtcbRef
  status : TcbRef → Status
  /-- Whether a broadcast has come since the last `kernel_wait` of the thread. -/
  woken : TcbRef → Bool
  /-- What the last system call of the thread returned. -/
  returned : TcbRef → Int

/-- One call of `cleanup_zombie`: which incarnation of which process it was
called on, in which state, the exit value it found, and the value with which
the last thread of the process exited. -/
structure Reap where
  pid : Pid
  incarnation : Nat
  pstate : PidState
  exitval : Int
  exitedWith : Int
  deriving DecidableEq, Repr

/-- One return of `ThreadJoin` that passed the checks and whose target is not
detached: the value the target exited with, the pointer passed, what it points
to on return, and the result, if the call did not crash. -/
structure JoinReturn where
  serial : Nat
  exitedWith : Option Int
  exitval : Pointer
  stored : Int
  result : Option Int
  deriving DecidableEq, Repr

/-- What has happened so far; no code reads it. -/
structure History where
  /-- How often `acquire_PCB` has returned an entry. -/
  incarnation : Pid → Nat
  /-- The value with which the last thread of a process exited. -/
  exitedWith : Pid → Int
  reaped : List Reap
  joined : List JoinReturn

inductive Crash where
  | assertion | nullDereference
  deriving DecidableEq, Repr

structure State where
  pt : ProcessTable
  ft : FileTable
  heap : PtcbHeap
  threads : ThreadTable
  /-- The `int`s that user code passes pointers to. -/
  memory : Pointer → Int
  /-- The thread that polls in `serial_write`. -/
  writer : Option TcbRef
  /-- `bios_serial_ports()`. -/
  serialPorts : Nat
  crashed : Option Crash
  history : History

/-- The condition variables that kernel code waits on. -/
inductive Cv where
  | childExit (pid : Pid)
  | exitCv (ptcb : PtcbRef)
  | rxReady (device : Device)
  deriving DecidableEq, Repr

/-- The condition variable of a `kernel_wait` of a thread of a process. -/
def Wait.cv (curproc : Pid) : Wait → Cv
  | .specificChild _ _ | .anyChild _ | .exitLoop _ => .childExit curproc
  | .join target _ _ => .exitCv target
  | .read _ device _ => .rxReady device

def Status.waitsOn (curproc : Pid) (cv : Cv) : Status → Bool
  | .waiting wait => wait.cv curproc = cv
  | _ => false

namespace State

/-- `CURPROC` of a thread. -/
def curproc (s : State) (thread : TcbRef) : Pid := s.threads.owner thread

def setStatus (s : State) (thread : TcbRef) (status : Status) : State :=
  { s with threads.status := update s.threads.status thread status }

/-- The system call of a thread returns to user code. -/
def ret (s : State) (thread : TcbRef) (value : Int) : State :=
  { s with
    threads.status := update s.threads.status thread .user
    threads.returned := update s.threads.returned thread value }

/-- `kernel_wait` in a loop. -/
def kernelWait (s : State) (thread : TcbRef) (wait : Wait) : State :=
  { s.setStatus thread (.waiting wait) with
    threads.woken := update s.threads.woken thread false }

def kernelBroadcast (s : State) (cv : Cv) : State :=
  { s with
    threads.woken := fun thread =>
      s.threads.woken thread || (s.threads.status thread).waitsOn (s.curproc thread) cv }

def crash (s : State) (crash : Crash) : State := { s with crashed := some crash }

end State
end TinyOs.Kernel
