import TinyOs.Kernel

/-! `kernel_streams.c` over the devices of `kernel_dev.c`. What a terminal
delivers or accepts is up to the caller of a step. -/
namespace TinyOs.Kernel
open Function

/-- `acquire_FCB`. -/
def acquireFcb (ft : FileTable) : Option (FcbRef × FileTable) :=
  match ft.fcbFreelist with
  | [] => none
  | fcb :: rest =>
    some (fcb, { ft with fcbFreelist := rest, refcount := update ft.refcount fcb 0 })

def releaseFcb (ft : FileTable) (fcb : FcbRef) : FileTable :=
  { ft with fcbFreelist := ft.fcbFreelist ++ [fcb] }

def fcbIncref (ft : FileTable) (fcb : FcbRef) : FileTable :=
  { ft with refcount := update ft.refcount fcb (ft.refcount fcb + 1) }

/-- The `Close` of both devices, which does nothing and returns 0. -/
def deviceClose (ft : FileTable) (fcb : FcbRef) : FileTable :=
  { ft with closed := update ft.closed fcb (ft.closed fcb + 1) }

/-- `FCB_decref`; it returns 0 whether or not it closes the stream. -/
def fcbDecref (ft : FileTable) (fcb : FcbRef) : FileTable :=
  let ft := { ft with refcount := update ft.refcount fcb (ft.refcount fcb - 1) }
  if ft.refcount fcb = 0 then releaseFcb (deviceClose ft fcb) fcb else ft

/-- The fids that the first loop of `FCB_reserve` finds from `f` on. -/
def findFids (fidt : Nat → Option FcbRef) : Nat → Nat → List Nat
  | 0, _ => []
  | num + 1, f =>
    match (List.range' f (maxFileid - f)).find? fun g => (fidt g).isNone with
    | none => []
    | some g => g :: findFids fidt num (g + 1)

/-- The FCBs that the second loop of `FCB_reserve` acquires. -/
def acquireFcbs : Nat → FileTable → List FcbRef × FileTable
  | 0, ft => ([], ft)
  | num + 1, ft =>
    match acquireFcb ft with
    | none => ([], ft)
    | some (fcb, ft) =>
      let (fcbs, ft) := acquireFcbs num ft
      (fcb :: fcbs, ft)

namespace State

def setFid (s : State) (pid : Pid) (fid : Nat) (fcb : Option FcbRef) : State :=
  { s with pt.fidt := update s.pt.fidt pid (update (s.pt.fidt pid) fid fcb) }

/-- The outcome of `FCB_reserve`: the fids and the FCBs, or the state after
the roll-back. -/
def fcbReserve (s : State) (pid : Pid) (num : Nat) :
    Option (List Nat × List FcbRef) × State :=
  let fids := findFids (s.pt.fidt pid) num 0
  if fids.length < num then (none, s)
  else
    let (fcbs, ft) := acquireFcbs num s.ft
    if fcbs.length < num then (none, { s with ft := fcbs.reverse.foldl releaseFcb ft })
    else
      (some (fids, fcbs), (fids.zip fcbs).foldl
        (fun s (fid, fcb) => { s.setFid pid fid (some fcb) with ft := fcbIncref s.ft fcb })
        { s with ft := ft })

def fcbUnreserve (s : State) (pid : Pid) (fids : List Nat) (fcbs : List FcbRef) : State :=
  (fids.zip fcbs).foldl
    (fun s (fid, fcb) =>
      if s.pt.fidt pid fid = some fcb then
        { s.setFid pid fid none with ft := releaseFcb s.ft fcb }
      else s.crash .assertion)
    s

def getFcb (s : State) (pid : Pid) (fid : Int) : Option FcbRef :=
  if fid < 0 ∨ (maxFileid : Int) ≤ fid then none else s.pt.fidt pid fid.toNat

/-- `device_open`: the minor numbers of `DEV_NULL` and `DEV_SERIAL`. -/
def deviceOpen (s : State) : Device → Bool
  | .null => true
  | .serial devno => devno < s.serialPorts

/-- `open_stream`. -/
def openStream (s : State) (thread : TcbRef) (device : Device) : State :=
  let curproc := s.curproc thread
  match s.fcbReserve curproc 1 with
  | (some ([fid], [fcb]), s) =>
    if s.deviceOpen device then
      { s with
        ft.stream := update s.ft.stream fcb device
        ft.opened := update s.ft.opened fcb (s.ft.opened fcb + 1) }.ret thread fid
    else (s.fcbUnreserve curproc [fid] [fcb]).ret thread nofile
  | (_, s) => s.ret thread nofile

def sysOpenNull (s : State) (thread : TcbRef) : State := s.openStream thread .null

def sysOpenTerminal (s : State) (thread : TcbRef) (termno : Nat) : State :=
  s.openStream thread (.serial termno)

/-- `FCB_decref` at the end of `sys_Read` and `sys_Write`. -/
def finishCall (s : State) (thread : TcbRef) (fcb : FcbRef) (count : BitVec 32) : State :=
  { s with ft := fcbDecref s.ft fcb }.ret thread count.toInt

/-- How many of `size` bytes a device transfers that has `ready` of them. -/
def transferred (size : BitVec 32) (ready : Nat) : BitVec 32 :=
  BitVec.ofNat 32 (min size.toNat ready)

/-- The read of a device that has `ready` bytes. `serial_read` waits when it
has none. -/
def deviceRead (s : State) (thread : TcbRef) (fcb : FcbRef) (size : BitVec 32) (ready : Nat) :
    Device → State
  | .null => s.finishCall thread fcb size
  | .serial devno =>
    if size ≠ 0 ∧ ready = 0 then s.kernelWait thread (.read fcb (.serial devno) size)
    else s.finishCall thread fcb (transferred size ready)

def sysRead (s : State) (thread : TcbRef) (fd : Int) (size : BitVec 32) (ready : Nat) : State :=
  match s.getFcb (s.curproc thread) fd with
  | none => s.ret thread (-1)
  | some fcb =>
    { s with ft := fcbIncref s.ft fcb }.deviceRead thread fcb size ready (s.ft.stream fcb)

/-- The write to a device that accepts `ready` bytes. `serial_write` yields
when it accepts none, and keeps the kernel locked. -/
def deviceWrite (s : State) (thread : TcbRef) (fcb : FcbRef) (size : BitVec 32) (ready : Nat) :
    Device → State
  | .null => s.finishCall thread fcb size
  | .serial devno =>
    if size ≠ 0 ∧ ready = 0 then
      { s.setStatus thread (.writing fcb (.serial devno) size) with writer := some thread }
    else { s.finishCall thread fcb (transferred size ready) with writer := none }

def sysWrite (s : State) (thread : TcbRef) (fd : Int) (size : BitVec 32) (ready : Nat) : State :=
  match s.getFcb (s.curproc thread) fd with
  | none => s.ret thread (-1)
  | some fcb =>
    { s with ft := fcbIncref s.ft fcb }.deviceWrite thread fcb size ready (s.ft.stream fcb)

def sysClose (s : State) (thread : TcbRef) (fd : Int) : State :=
  match s.getFcb (s.curproc thread) fd with
  | none => s.ret thread (if 0 ≤ fd ∧ fd < maxFileid then 0 else -1)
  | some fcb =>
    { s.setFid (s.curproc thread) fd.toNat none with ft := fcbDecref s.ft fcb }.ret thread 0

def sysDup2 (s : State) (thread : TcbRef) (oldfd newfd : Int) : State :=
  if oldfd < 0 ∨ newfd < 0 ∨ (maxFileid : Int) ≤ oldfd ∨ (maxFileid : Int) ≤ newfd then
    s.ret thread (-1)
  else
    let curproc := s.curproc thread
    match s.getFcb curproc oldfd with
    | none => s.ret thread (-1)
    | some old =>
      let new := s.getFcb curproc newfd
      if new = some old then s.ret thread 0
      else
        let ft := match new with
          | none => s.ft
          | some new => fcbDecref s.ft new
        { s.setFid curproc newfd.toNat (some old) with ft := fcbIncref ft old }.ret thread 0

end State
end TinyOs.Kernel
