import TinyOs.KernelStreams

/-! `kernel_threads.c`: threads, their PTCBs, and the end of a process. -/
namespace TinyOs.Kernel
open Function

/-- The key an `rlnode` is searched by: a PTCB, or the address of its node. -/
inductive Key where
  | ptcb (ptcb : PtcbRef)
  | threadListNode (ptcb : PtcbRef)
  deriving DecidableEq, Repr

/-- `rlist_find` in a list of threads, whose nodes have their PTCBs as keys. -/
def rlistFind (threadList : List PtcbRef) (key : Key) : Option PtcbRef :=
  threadList.find? fun ptcb => Key.ptcb ptcb = key

namespace State

/-- A new PTCB with its thread, as `sys_CreateThread` and `sys_Exec` make them:
`xmalloc` returned `ptcb` and `spawn_thread` returned `tcb`. -/
def createPtcb (s : State) (curproc : Pid) (task : Task) (argl : Int) (args : Pointer)
    (ptcb : PtcbRef) (tcb : TcbRef) : State :=
  { s with
    heap :=
      { s.heap with
        allocated := update s.heap.allocated ptcb true
        tcb := update s.heap.tcb ptcb tcb
        exited := update s.heap.exited ptcb false
        detached := update s.heap.detached ptcb false
        refCount := update s.heap.refCount ptcb 0
        task := update s.heap.task ptcb task
        argl := update s.heap.argl ptcb argl
        args := update s.heap.args ptcb args
        serial := update s.heap.serial ptcb s.heap.created
        created := s.heap.created + 1 }
    pt.threadList := update s.pt.threadList curproc (s.pt.threadList curproc ++ [ptcb])
    pt.threadCount := update s.pt.threadCount curproc (s.pt.threadCount curproc + 1)
    threads :=
      { s.threads with
        live := tcb :: s.threads.live
        owner := update s.threads.owner tcb curproc
        ptcb := update s.threads.ptcb tcb ptcb
        status := update s.threads.status tcb .user } }

def sysCreateThread (s : State) (thread : TcbRef) (task : Task) (argl : Int) (args : Pointer)
    (ptcb : PtcbRef) (tcb : TcbRef) : State :=
  (s.createPtcb (s.curproc thread) task argl args ptcb tcb).ret thread ptcb

/-- `rlist_remove(&ptcb->thread_list_node); free(ptcb)`. -/
def freePtcb (s : State) (ptcb : PtcbRef) : State :=
  { s with
    pt.threadList := fun pid => (s.pt.threadList pid).erase ptcb
    heap.allocated := update s.heap.allocated ptcb false }

/-- The record of a `ThreadJoin` that passed the checks, kept when its target
has not been detached. -/
def recordJoin (s : State) (serial : Nat) (exitval : Pointer) (result : Option Int) : State :=
  if s.heap.detachedOf serial then s
  else
    { s with
      history.joined :=
        { serial := serial, exitedWith := s.heap.exitOf serial, exitval := exitval
          stored := s.memory exitval, result := result } :: s.history.joined }

def refPtcb (s : State) (ptcb : PtcbRef) : State :=
  { s with heap.refCount := update s.heap.refCount ptcb (s.heap.refCount ptcb + 1) }

def unrefPtcb (s : State) (ptcb : PtcbRef) : State :=
  if s.heap.refCount ptcb ≠ 0 then
    { s with heap.refCount := update s.heap.refCount ptcb (s.heap.refCount ptcb - 1) }
  else s

/-- One thread of a process less. -/
def uncountThread (s : State) (pid : Pid) : State :=
  { s with pt.threadCount := update s.pt.threadCount pid (s.pt.threadCount pid - 1) }

/-- The end of `sys_ThreadJoin`, past the loop. -/
def joinExited (s : State) (thread : TcbRef) (ptcb : PtcbRef) (exitval : Pointer) (serial : Nat) :
    State :=
  let curproc := s.curproc thread
  let s := (s.unrefPtcb ptcb).recordJoin serial exitval (some 0)
  -- The key of the search is the address of the node, which no node has as its key.
  if (s.heap.refCount ptcb = 0 ∧
      rlistFind (s.pt.threadList curproc) (.threadListNode ptcb) = some ptcb ∧
      s.heap.detached ptcb = false) ∨ s.heap.detached ptcb = true then
    ((s.freePtcb ptcb).uncountThread curproc).ret thread 0
  else s.ret thread 0

/-- The loop of `sys_ThreadJoin`. -/
def joinLoop (s : State) (thread : TcbRef) (ptcb : PtcbRef) (exitval : Pointer) (serial : Nat) :
    State :=
  if s.heap.exited ptcb = false ∧ s.heap.detached ptcb = false then
    s.kernelWait thread (.join ptcb exitval serial)
  else s.joinExited thread ptcb exitval serial

def sysThreadJoin (s : State) (thread : TcbRef) (tid : PtcbRef) (exitval : Pointer) : State :=
  if tid = 0 then s.crash .assertion
  else if s.heap.detached tid = true ∨ s.heap.tcb tid = thread ∨
      rlistFind (s.pt.threadList (s.curproc thread)) (.ptcb tid) ≠ some tid then
    s.ret thread (-1)
  else
    let serial := s.heap.serial tid
    if s.heap.exited tid = true then
      -- `return *exitval`
      if exitval = 0 then (s.recordJoin serial exitval none).crash .nullDereference
      else (s.recordJoin serial exitval (some (s.memory exitval))).ret thread (s.memory exitval)
    else
      (s.refPtcb tid).joinLoop thread tid exitval serial

def markDetached (s : State) (ptcb : PtcbRef) : State :=
  { s with
    heap.detached := update s.heap.detached ptcb true
    heap.detachedOf :=
      if s.heap.allocated ptcb then update s.heap.detachedOf (s.heap.serial ptcb) true
      else s.heap.detachedOf }

def sysThreadDetach (s : State) (thread : TcbRef) (tid : PtcbRef) : State :=
  if tid = 0 then s.crash .nullDereference
  else if s.heap.detached tid = false then
    ((s.markDetached tid).kernelBroadcast (.exitCv tid)).ret thread 0
  else s.ret thread (-1)

/-- One round of the loop that cleans up the FIDT of a process. -/
def closeFid (pid : Pid) (s : State) (fid : Nat) : State :=
  match s.pt.fidt pid fid with
  | none => s
  | some fcb => { s with ft := fcbDecref s.ft fcb }.setFid pid fid none

def cleanUpFidt (s : State) (pid : Pid) : State :=
  (List.range maxFileid).foldl (closeFid pid) s

/-- The re-parenting loop: each round pops the first of the remaining
`children` of `pid` and pushes it in front of those of the initial process. -/
def reparent (s : State) (pid : Pid) : List Pid → State
  | [] => s
  | child :: rest =>
    let s := { s with
      pt.childrenList := update s.pt.childrenList pid rest
      pt.parent := update s.pt.parent child (some 1) }
    { s with
      pt.childrenList := update s.pt.childrenList 1 (child :: s.pt.childrenList 1) }.reparent
        pid rest

/-- Exited children go to the initial process, which is told. -/
def adoptExited (s : State) (pid : Pid) : State :=
  if s.pt.exitedList pid = [] then s
  else
    let exited := s.pt.exitedList pid
    { s with
      pt.exitedList := update (update s.pt.exitedList pid []) 1 (s.pt.exitedList 1 ++ exited)
      }.kernelBroadcast (.childExit 1)

/-- The parent finds the process in its exited list, and is told. -/
def tellParent (s : State) (pid : Pid) : State :=
  match s.pt.parent pid with
  | none => s
  | some parent =>
    { s with
      pt.exitedList := update s.pt.exitedList parent (pid :: s.pt.exitedList parent)
      }.kernelBroadcast (.childExit parent)

/-- The exit value of a process, whose arguments are freed. -/
def setExitval (s : State) (pid : Pid) (exitval : Int) : State :=
  { s with
    pt.exitval := update s.pt.exitval pid exitval
    pt.args := update s.pt.args pid none
    history.exitedWith := update s.history.exitedWith pid exitval }

/-- The end of a process whose last thread exits. When the initial process has
children left, the re-parenting loop gives them to itself for ever. -/
def terminate (s : State) (pid : Pid) (exitval : Int) : Option State :=
  let s := (s.setExitval pid exitval).cleanUpFidt pid
  if pid = 1 ∧ s.pt.childrenList pid ≠ [] then none
  else
    let s := ((s.reparent pid (s.pt.childrenList pid)).adoptExited pid).tellParent pid
    some { s with pt.pstate := update s.pt.pstate pid .zombie }

/-- `kernel_sleep(EXITED, ..)`. -/
def kernelSleepExited (s : State) (thread : TcbRef) : State :=
  { s with threads.live := s.threads.live.erase thread }

def markExited (s : State) (ptcb : PtcbRef) (exitval : Int) : State :=
  { s with
    heap.exitval := update s.heap.exitval ptcb exitval
    heap.exited := update s.heap.exited ptcb true
    heap.args := update s.heap.args ptcb 0
    heap.exitOf := update s.heap.exitOf (s.heap.serial ptcb) (some exitval) }

/-- What `sys_ThreadExit` does to the PTCB of the thread. -/
def exitPtcb (s : State) (ptcb : PtcbRef) (exitval : Int) : State :=
  let s := (s.markExited ptcb exitval).kernelBroadcast (.exitCv ptcb)
  let s := if s.heap.detached ptcb = true then s.freePtcb ptcb else s
  if s.heap.refCount ptcb = 0 ∧ s.heap.detached ptcb = false then s.freePtcb ptcb else s

/-- `sys_ThreadExit`, unless it loops for ever. -/
def sysThreadExit (s : State) (thread : TcbRef) (exitval : Int) : Option State :=
  let curproc := s.curproc thread
  let s := (s.exitPtcb (s.threads.ptcb thread) exitval).uncountThread curproc
  if s.pt.threadCount curproc = 0 then
    (s.terminate curproc exitval).map fun s => s.kernelSleepExited thread
  else some (s.kernelSleepExited thread)

end State
end TinyOs.Kernel
