import TinyOs.KernelThreads

/-! `kernel_proc.c`: the process table, `Exec`, `Exit` and `WaitChild`. -/
namespace TinyOs.Kernel
open Function

/-- `initialize_processes`, up to the null process: the loops leave every entry
free and link it to the next. -/
def initializeProcesses : ProcessTable where
  pstate := fun _ => .free
  parent := fun pid => if pid + 1 < maxProc then some (pid + 1) else none
  exitval := fun _ => 0
  threadList := fun _ => []
  threadCount := fun _ => 0
  mainTask := fun _ => 0
  argl := fun _ => 0
  args := fun _ => none
  childrenList := fun _ => []
  exitedList := fun _ => []
  fidt := fun _ _ => none
  pcbFreelist := some 0
  processCount := 0

/-- `initialize_files`. -/
def initializeFiles (stream : FcbRef → Device) : FileTable where
  refcount := fun _ => 0
  stream := stream
  fcbFreelist := List.range' 0 maxFiles
  opened := fun _ => 0
  closed := fun _ => 0

/-- `get_pid`. -/
def getPid : Option Pid → Int
  | none => noproc
  | some pid => pid

namespace State

/-- `get_pcb` of a legal pid. -/
def getPcb (s : State) (pid : Pid) : Option Pid :=
  if s.pt.pstate pid = .free then none else some pid

/-- The entry `pid`, first of the free list, is in use. -/
def takePcb (s : State) (pid : Pid) : State :=
  { s with
    pt.pstate := update s.pt.pstate pid .alive
    pt.threadCount := update s.pt.threadCount pid 0
    pt.pcbFreelist := s.pt.parent pid
    pt.processCount := s.pt.processCount + 1
    history.incarnation := update s.history.incarnation pid (s.history.incarnation pid + 1) }

def acquirePcb (s : State) : Option (Pid × State) :=
  match s.pt.pcbFreelist with
  | none => none
  | some pid => some (pid, s.takePcb pid)

def releasePcb (s : State) (pid : Pid) : State :=
  { s with
    pt.pstate := update s.pt.pstate pid .free
    pt.parent := update s.pt.parent pid s.pt.pcbFreelist
    pt.pcbFreelist := some pid
    pt.processCount := s.pt.processCount - 1 }

/-- One round of the loop of `sys_Exec` that copies the FIDT. -/
def inheritFid (curproc newproc : Pid) (s : State) (fid : Nat) : State :=
  let s := s.setFid newproc fid (s.pt.fidt curproc fid)
  match s.pt.fidt newproc fid with
  | none => s
  | some fcb => { s with ft := fcbIncref s.ft fcb }

def inheritFidt (s : State) (curproc newproc : Pid) : State :=
  (List.range maxFileid).foldl (inheritFid curproc newproc) s

def addChild (s : State) (curproc newproc : Pid) : State :=
  { s with
    pt.parent := update s.pt.parent newproc (some curproc)
    pt.childrenList := update s.pt.childrenList curproc (newproc :: s.pt.childrenList curproc) }

/-- The part of `sys_Exec` that gives the new process a parent. Processes 0
and 1 have none. -/
def inherit (s : State) (curproc newproc : Pid) : State :=
  if newproc ≤ 1 then { s with pt.parent := update s.pt.parent newproc none }
  else (s.addChild curproc newproc).inheritFidt curproc newproc

/-- The main task of a new process and its copy of the arguments. -/
def setTask (s : State) (newproc : Pid) (call : Task) (argl : Int) (args : Pointer)
    (bytes : List (BitVec 8)) : State :=
  { s with
    pt.mainTask := update s.pt.mainTask newproc call
    pt.argl := update s.pt.argl newproc argl
    pt.args := update s.pt.args newproc (if args ≠ 0 then some bytes else none) }

/-- `sys_Exec` with its result; `bytes` are the `argl` bytes at `args`. -/
def exec (s : State) (curproc : Pid) (call : Task) (argl : Int) (args : Pointer)
    (bytes : List (BitVec 8)) (ptcb : PtcbRef) (tcb : TcbRef) : Int × State :=
  match s.acquirePcb with
  | none => (getPid none, s)
  | some (newproc, s) =>
    let s := (s.inherit curproc newproc).setTask newproc call argl args bytes
    let s := if call ≠ 0 then s.createPtcb newproc call argl args ptcb tcb else s
    (getPid (some newproc), s)

def sysExec (s : State) (thread : TcbRef) (call : Task) (argl : Int) (args : Pointer)
    (bytes : List (BitVec 8)) (ptcb : PtcbRef) (tcb : TcbRef) : State :=
  let (pid, s) := s.exec (s.curproc thread) call argl args bytes ptcb tcb
  s.ret thread pid

def cleanupZombie (s : State) (pid : Pid) (status : Pointer) : State :=
  let reap : Reap :=
    { pid := pid, incarnation := s.history.incarnation pid, pstate := s.pt.pstate pid
      exitval := s.pt.exitval pid, exitedWith := s.history.exitedWith pid }
  { s with
    memory := if status ≠ 0 then update s.memory status (s.pt.exitval pid) else s.memory
    pt.childrenList := fun other => (s.pt.childrenList other).erase pid
    pt.exitedList := fun other => (s.pt.exitedList other).erase pid
    history.reaped := reap :: s.history.reaped }.releasePcb pid

/-- The loop of `wait_for_specific_child`. -/
def specificLoop (s : State) (thread : TcbRef) (child : Pid) (status : Pointer) : State :=
  if s.pt.pstate child = .alive then s.kernelWait thread (.specificChild child status)
  else (s.cleanupZombie child status).ret thread child

def waitForSpecificChild (s : State) (thread : TcbRef) (cpid : Int) (status : Pointer) : State :=
  if cpid < 0 ∨ (maxProc : Int) ≤ cpid then s.ret thread noproc
  else
    match s.getPcb cpid.toNat with
    | none => s.ret thread noproc
    | some child =>
      if s.pt.parent child ≠ some (s.curproc thread) then s.ret thread noproc
      else s.specificLoop thread child status

/-- Past the loop of `wait_for_any_child`, when `child` is the first of the
exited children. -/
def reapExited (s : State) (child : Pid) (status : Pointer) : State :=
  if s.pt.pstate child = .zombie then s.cleanupZombie child status else s.crash .assertion

/-- The loop of `wait_for_any_child`. -/
def anyLoop (s : State) (thread : TcbRef) (status : Pointer) : State :=
  match s.pt.exitedList (s.curproc thread) with
  | [] => s.kernelWait thread (.anyChild status)
  | child :: _ => (s.reapExited child status).ret thread child

def waitForAnyChild (s : State) (thread : TcbRef) (status : Pointer) : State :=
  if s.pt.childrenList (s.curproc thread) = [] then s.ret thread noproc
  else s.anyLoop thread status

def sysWaitChild (s : State) (thread : TcbRef) (cpid : Int) (status : Pointer) : State :=
  if cpid ≠ noproc then s.waitForSpecificChild thread cpid status
  else s.waitForAnyChild thread status

/-- The loop of `sys_Exit` in the initial process, and what follows it. Each
round but the last reaps an exited child, so `fuel` beyond their number is
enough. -/
def exitRounds : Nat → State → TcbRef → Int → Option State
  | 0, _, _, _ => none
  | fuel + 1, s, thread, exitval =>
    if s.pt.childrenList (s.curproc thread) = [] then s.sysThreadExit thread exitval
    else
      match s.pt.exitedList (s.curproc thread) with
      | [] => some (s.kernelWait thread (.exitLoop exitval))
      | child :: _ => exitRounds fuel (s.reapExited child 0) thread exitval

def exitLoop (s : State) (thread : TcbRef) (exitval : Int) : Option State :=
  exitRounds ((s.pt.exitedList (s.curproc thread)).length + 1) s thread exitval

/-- A thread in the loop of `sys_Exit` continues inside `wait_for_any_child`. -/
def exitResume (s : State) (thread : TcbRef) (exitval : Int) : Option State :=
  match s.pt.exitedList (s.curproc thread) with
  | [] => some (s.kernelWait thread (.exitLoop exitval))
  | child :: _ => (s.reapExited child 0).exitLoop thread exitval

/-- `sys_Exit`. Its last statement comes after `kernel_sleep` and never runs. -/
def sysExit (s : State) (thread : TcbRef) (exitval : Int) : Option State :=
  if s.curproc thread = 1 then s.exitLoop thread exitval else s.sysThreadExit thread exitval

end State
end TinyOs.Kernel
