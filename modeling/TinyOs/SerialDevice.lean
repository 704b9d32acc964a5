import TinyOs.KernelSys
import Mathlib.Data.List.TakeWhile

/-! The bytes of `serial_read` and `serial_write`, over the kernel that only
counts them. The devices fail as they please; every step of a thread is still
what it does between two points where it gives up the kernel. -/
namespace TinyOs.SerialDevice
open Library Function
open Kernel (TcbRef FcbRef Device Pointer)

abbrev Byte := BitVec 8

/-! ### The drivers -/

section Loops
variable {Vars : Type*}

/-- The loop that `serial_read` and `serial_write` share, as far as the next
point where they wait (`none`) or return. The list says of each call of the
device whether it succeeds; past its end all fail. -/
def transferLoop (count : Vars → BitVec 32) (transfer : Vars → Vars) (size : BitVec 32) :
    List Bool → Vars → Option Vars
  | valid :: rest, v =>
    if count v < size then
      if valid then transferLoop count transfer size rest (transfer v)
      else if count v = 0 then none
      else some v
    else some v
  | [], v =>
    if count v < size then
      if count v = 0 then none else some v
    else some v

end Loops

/-- The variables of `serial_read` with the memory it fills and the input of
the terminal read so far. The code has no `stored`: it lists what has been
stored where. -/
structure ReadVars where
  count : BitVec 32
  bytes : Pointer → Byte
  consumed : Nat
  stored : List (Pointer × Byte)

/-- `bios_read_serial(dcb->devno, &buf[count]); count++`. -/
def ReadVars.transfer (input : Nat → Byte) (buf : Pointer) (v : ReadVars) : ReadVars where
  count := v.count + 1
  bytes := update v.bytes (buf + v.count.toNat) (input v.consumed)
  consumed := v.consumed + 1
  stored := v.stored ++ [(buf + v.count.toNat, input v.consumed)]

def serialRead (input : Nat → Byte) (buf : Pointer) (size : BitVec 32) (valid : List Bool)
    (v : ReadVars) : Option ReadVars :=
  transferLoop ReadVars.count (ReadVars.transfer input buf) size valid v

/-- The variables of `serial_write` with the output of the terminal. The code
has no `sent`. -/
structure WriteVars where
  count : BitVec 32
  output : List Byte
  sent : List Byte

/-- `bios_write_serial(dcb->devno, buf[count]); count++`. -/
def WriteVars.transfer (bytes : Pointer → Byte) (buf : Pointer) (v : WriteVars) : WriteVars where
  count := v.count + 1
  output := v.output ++ [bytes (buf + v.count.toNat)]
  sent := v.sent ++ [bytes (buf + v.count.toNat)]

def serialWrite (bytes : Pointer → Byte) (buf : Pointer) (size : BitVec 32) (valid : List Bool)
    (v : WriteVars) : Option WriteVars :=
  transferLoop WriteVars.count (WriteVars.transfer bytes buf) size valid v

/-! ### The machine -/

/-- A `Read` of a terminal that has returned: what it was asked, what it
returned, all it has stored, and what the filled part of the buffer holds. -/
structure ReadReturn where
  buf : Pointer
  size : BitVec 32
  returned : Int
  stored : List (Pointer × Byte)
  contents : List Byte

/-- A `Write` to a terminal that has returned. -/
structure WriteReturn where
  buf : Pointer
  size : BitVec 32
  returned : Int
  sent : List Byte
  contents : List Byte

structure State where
  kernel : Kernel.State
  /-- All that each terminal will ever deliver. -/
  input : Nat → Nat → Byte
  consumed : Nat → Nat
  output : Nat → List Byte
  /-- The memory of the processes. -/
  bytes : Pointer → Byte
  /-- The buffer of the `Read` or `Write` a thread is in. -/
  buf : TcbRef → Pointer
  /-- History: what that call has stored and sent. -/
  stored : TcbRef → List (Pointer × Byte)
  sent : TcbRef → List Byte
  /-- History: the calls that have returned, in that order. -/
  reads : Nat → List ReadReturn
  writes : Nat → List WriteReturn

/-- How many calls of a device succeed before the first failure. -/
def ready (valid : List Bool) : Nat := (valid.takeWhile id).length

def contents (bytes : Pointer → Byte) (buf : Pointer) (count : BitVec 32) : List Byte :=
  (List.range count.toNat).map fun i => bytes (buf + i)

namespace State

/-- `memset(buf, 0, size)` of `nulldev_read`. -/
def nulldevRead (s : State) (buf : Pointer) (size : BitVec 32) : State :=
  { s with bytes := fun p => if buf ≤ p ∧ p < buf + size.toNat then 0 else s.bytes p }

/-- The variables of a `serial_read` whose `count` is zero. -/
def readVars (s : State) (thread : TcbRef) (devno : Nat) : ReadVars where
  count := 0
  bytes := s.bytes
  consumed := s.consumed devno
  stored := s.stored thread

def writeVars (s : State) (thread : TcbRef) (devno : Nat) : WriteVars where
  count := 0
  output := s.output devno
  sent := s.sent thread

/-- A `serial_read` returns. -/
def endRead (s : State) (thread : TcbRef) (devno : Nat) (size : BitVec 32) (v : ReadVars) : State :=
  { s with
    bytes := v.bytes
    consumed := update s.consumed devno v.consumed
    stored := update s.stored thread []
    reads := update s.reads devno (s.reads devno ++
      [{ buf := s.buf thread, size := size, returned := s.kernel.threads.returned thread
         stored := v.stored, contents := contents v.bytes (s.buf thread) v.count }]) }

/-- A `serial_write` returns. -/
def endWrite (s : State) (thread : TcbRef) (devno : Nat) (size : BitVec 32) (v : WriteVars) :
    State :=
  { s with
    output := update s.output devno v.output
    sent := update s.sent thread []
    writes := update s.writes devno (s.writes devno ++
      [{ buf := s.buf thread, size := size, returned := s.kernel.threads.returned thread
         sent := v.sent, contents := contents s.bytes (s.buf thread) v.count }]) }

/-- The read of a device, up to where it waits or returns. -/
def deviceRead (s : State) (thread : TcbRef) (fcb : FcbRef) (size : BitVec 32)
    (valid : List Bool) (device : Device) : State :=
  let s := { s with kernel := s.kernel.deviceRead thread fcb size (ready valid) device }
  match device with
  | .null => s.nulldevRead (s.buf thread) size
  | .serial devno =>
    match serialRead (s.input devno) (s.buf thread) size valid (s.readVars thread devno) with
    | none => s
    | some v => s.endRead thread devno size v

/-- The write to a device, up to where it yields or returns. -/
def deviceWrite (s : State) (thread : TcbRef) (fcb : FcbRef) (size : BitVec 32)
    (valid : List Bool) (device : Device) : State :=
  let s := { s with kernel := s.kernel.deviceWrite thread fcb size (ready valid) device }
  match device with
  | .null => s
  | .serial devno =>
    match serialWrite s.bytes (s.buf thread) size valid (s.writeVars thread devno) with
    | none => s
    | some v => s.endWrite thread devno size v

/-- A call of `Read` or `Write` with its buffer. -/
def enter (s : State) (thread : TcbRef) (buf : Pointer) : State :=
  { s with
    buf := update s.buf thread buf
    stored := update s.stored thread []
    sent := update s.sent thread [] }

def incref (s : State) (fcb : FcbRef) : State :=
  { s with kernel := { s.kernel with ft := Kernel.fcbIncref s.kernel.ft fcb } }

def sysRead (s : State) (thread : TcbRef) (fd : Int) (buf : Pointer) (size : BitVec 32)
    (valid : List Bool) : State :=
  let s := s.enter thread buf
  match s.kernel.getFcb (s.kernel.curproc thread) fd with
  | none => { s with kernel := s.kernel.ret thread (-1) }
  | some fcb => (s.incref fcb).deviceRead thread fcb size valid (s.kernel.ft.stream fcb)

def sysWrite (s : State) (thread : TcbRef) (fd : Int) (buf : Pointer) (size : BitVec 32)
    (valid : List Bool) : State :=
  let s := s.enter thread buf
  match s.kernel.getFcb (s.kernel.curproc thread) fd with
  | none => { s with kernel := s.kernel.ret thread (-1) }
  | some fcb => (s.incref fcb).deviceWrite thread fcb size valid (s.kernel.ft.stream fcb)

end State

inductive Label where
  | read (thread : TcbRef) (fd : Int) (buf : Pointer) (size : BitVec 32) (valid : List Bool)
  | write (thread : TcbRef) (fd : Int) (buf : Pointer) (size : BitVec 32) (valid : List Bool)
  /-- A thread is back in the loop of `serial_read`. -/
  | resume (thread : TcbRef) (valid : List Bool)
  /-- A thread is back in the loop of `serial_write`. -/
  | poll (thread : TcbRef) (valid : List Bool)
  /-- Any other step of the kernel. -/
  | kernel (label : Kernel.Label)
  /-- User code writes to its memory. -/
  | store (pointer : Pointer) (value : Byte)
  deriving DecidableEq, Repr

/-- The step is not one of a `Read` or `Write`. -/
def elsewhere (s : Kernel.State) : Kernel.Label → Bool
  | .read .. | .write .. | .poll .. => false
  | .resume thread _ =>
    match s.threads.status thread with
    | .waiting (.read ..) => false
    | _ => true
  | _ => true

def act (s : State) : Label → Option State
  | .read thread fd buf size valid =>
    if s.kernel.calls thread then some (s.sysRead thread fd buf size valid) else none
  | .write thread fd buf size valid =>
    if s.kernel.calls thread then some (s.sysWrite thread fd buf size valid) else none
  | .resume thread valid =>
    match s.kernel.threads.status thread with
    | .waiting (.read fcb device size) =>
      if thread ∈ s.kernel.threads.live ∧ s.kernel.threads.woken thread ∧ s.kernel.writer = none then
        some (s.deviceRead thread fcb size valid device)
      else none
    | _ => none
  | .poll thread valid =>
    match s.kernel.threads.status thread with
    | .writing fcb device size =>
      if thread ∈ s.kernel.threads.live ∧ s.kernel.writer = some thread then
        some (s.deviceWrite thread fcb size valid device)
      else none
    | _ => none
  | .kernel label =>
    if elsewhere s.kernel label then
      (Kernel.act s.kernel label).map fun kernel => { s with kernel := kernel }
    else none
  | .store pointer value => some { s with bytes := update s.bytes pointer value }

def step (s : State) (label : Label) : Option State :=
  if s.kernel.crashed = none then act s label else none

/-- Terminals that nobody has used. -/
def fresh (kernel : Kernel.State) (input : Nat → Nat → Byte) (bytes : Pointer → Byte) : State where
  kernel := kernel
  input := input
  consumed := fun _ => 0
  output := fun _ => []
  bytes := bytes
  buf := fun _ => 0
  stored := fun _ => []
  sent := fun _ => []
  reads := fun _ => []
  writes := fun _ => []

def machine : Machine State Label where
  initial s := ∃ kernel input bytes, Kernel.machine.initial kernel ∧ s = fresh kernel input bytes
  step := step

/-! ### Faithful terminals -/

def ReadReturn.segment (r : ReadReturn) : List Byte := r.stored.map Prod.snd

/-- The call returned a positive number of bytes, stored them at the start of
the buffer and nothing elsewhere, and they are there when it returns. -/
def ReadReturn.Faithful (r : ReadReturn) : Prop :=
  1 ≤ r.returned ∧ r.returned ≤ r.size.toNat ∧
    r.stored.map Prod.fst = (List.range r.returned.toNat).map (r.buf + ·) ∧
    r.contents = r.segment

/-- The call returned a positive number of bytes, and sent just those at the
start of the buffer. -/
def WriteReturn.Faithful (w : WriteReturn) : Prop :=
  1 ≤ w.returned ∧ w.returned ≤ w.size.toNat ∧ w.sent.length = w.returned.toNat ∧
    w.sent = w.contents

/-- **Terminal bytes are neither lost, duplicated nor mixed.** -/
structure Faithful (s : State) (devno : Nat) : Prop where
  consumed : (s.reads devno).flatMap ReadReturn.segment =
    (List.range (s.consumed devno)).map (s.input devno)
  output : (s.writes devno).flatMap WriteReturn.sent = s.output devno
  reads : ∀ r ∈ s.reads devno, r.size ≠ 0 → r.Faithful
  writes : ∀ w ∈ s.writes devno, w.size ≠ 0 → w.Faithful

end TinyOs.SerialDevice
