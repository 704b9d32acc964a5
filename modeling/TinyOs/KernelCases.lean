import TinyOs.KernelSys

/-! What each system call can do, case by case. -/
namespace TinyOs.Kernel
open Function

namespace State
variable {s : State}

/-- What no round of a loop changes, the loop does not. -/
theorem foldl_same {α β : Type*} (view : State → β) {round : State → α → State}
    (same : ∀ s x, view (round s x) = view s) (l : List α) (s : State) :
    view (l.foldl round s) = view s := by
  induction l generalizing s with
  | nil => rfl
  | cons x rest ih => rw [List.foldl_cons, ih, same]

theorem calls_iff {thread : TcbRef} : s.calls thread = true ↔
    thread ∈ s.threads.live ∧ s.threads.status thread = .user ∧ s.writer = none := by
  simp [calls]

theorem fresh_iff {ptcb : PtcbRef} {tcb : TcbRef} : s.fresh ptcb tcb = true ↔
    ptcb ≠ 0 ∧ s.heap.allocated ptcb = false ∧ tcb < maxThreads ∧ tcb ∉ s.threads.live := by
  simp [fresh]

/-- The FCB `fcb`, first of the free list, with the given count. -/
def takeFcb (ft : FileTable) (fcb : FcbRef) (rest : List FcbRef) : FileTable :=
  { ft with fcbFreelist := rest, refcount := update ft.refcount fcb 1 }

theorem findFids_one (fidt : Nat → Option FcbRef) :
    findFids fidt 1 0 = [] ∨ ∃ fid, findFids fidt 1 0 = [fid] ∧ fid < maxFileid ∧ fidt fid = none := by
  unfold findFids
  split
  · exact .inl rfl
  next fid found =>
    have member := List.mem_of_find?_eq_some found
    have unused := List.find?_some found
    refine .inr ⟨fid, rfl, ?_, by simpa using unused⟩
    simp only [List.mem_range'_1] at member
    omega

/-- `FCB_reserve` of one stream takes a free fid and the first free FCB. -/
theorem fcbReserve_cases (pid : Pid) :
    s.fcbReserve pid 1 = (none, s) ∨
    ∃ fid fcb rest, fid < maxFileid ∧ s.pt.fidt pid fid = none ∧ s.ft.fcbFreelist = fcb :: rest ∧
      s.fcbReserve pid 1 = (some ([fid], [fcb]),
        { s.setFid pid fid (some fcb) with ft := takeFcb s.ft fcb rest }) := by
  unfold fcbReserve
  dsimp only
  rcases findFids_one (s.pt.fidt pid) with none | ⟨fid, found, small, unused⟩
  · simp [none]
  · simp only [found, acquireFcbs, acquireFcb]
    cases free : s.ft.fcbFreelist with
    | nil => simp
    | cons fcb rest =>
      refine .inr ⟨fid, fcb, rest, small, unused, rfl, ?_⟩
      simp [takeFcb, fcbIncref, setFid]

/-- A stream is opened, or there is no room for it, or the device refuses and
the FCB goes to the end of the free list. -/
theorem openStream_cases (thread : TcbRef) (device : Device) :
    s.openStream thread device = s.ret thread nofile ∨
    ∃ fid fcb rest, fid < maxFileid ∧ s.pt.fidt (s.curproc thread) fid = none ∧
      s.ft.fcbFreelist = fcb :: rest ∧
      (s.openStream thread device = ({ s.setFid (s.curproc thread) fid (some fcb) with
          ft := { takeFcb s.ft fcb rest with
            stream := update s.ft.stream fcb device
            opened := update s.ft.opened fcb (s.ft.opened fcb + 1) } }).ret thread fid ∨
       s.openStream thread device = ({ s with
          ft := { takeFcb s.ft fcb rest with fcbFreelist := rest ++ [fcb] } }).ret thread nofile) := by
  unfold openStream
  dsimp only
  rcases fcbReserve_cases (s := s) (s.curproc thread) with none | ⟨fid, fcb, rest, small, unused, free, found⟩
  · rw [none]
    exact .inl rfl
  · rw [found]
    refine .inr ⟨fid, fcb, rest, small, unused, free, ?_⟩
    dsimp only
    split
    · exact .inl rfl
    · right
      have restored : update (s.pt.fidt (s.curproc thread)) fid none = s.pt.fidt (s.curproc thread) := by
        rw [← unused, update_eq_self]
      simp [fcbUnreserve, setFid, releaseFcb, takeFcb, restored]

theorem getFcb_some {pid : Pid} {fd : Int} {fcb : FcbRef} (found : s.getFcb pid fd = some fcb) :
    fd.toNat < maxFileid ∧ s.pt.fidt pid fd.toNat = some fcb := by
  unfold getFcb at found
  split at found
  · cases found
  next legal =>
    refine ⟨?_, found⟩
    simp only [maxFileid] at legal ⊢
    omega

theorem deviceRead_cases (thread : TcbRef) (fcb : FcbRef) (size : BitVec 32) (ready : Nat) (device : Device) :
    s.deviceRead thread fcb size ready device = s.kernelWait thread (.read fcb device size) ∨
    ∃ count, s.deviceRead thread fcb size ready device = s.finishCall thread fcb count := by
  cases device with
  | null => exact .inr ⟨_, rfl⟩
  | serial devno =>
    simp only [deviceRead]
    split
    · exact .inl rfl
    · exact .inr ⟨_, rfl⟩

/-- The thread polls, or the call ends; either may change the `writer`. -/
theorem deviceWrite_cases (thread : TcbRef) (fcb : FcbRef) (size : BitVec 32) (ready : Nat) (device : Device) :
    ∃ writer, s.deviceWrite thread fcb size ready device =
        { s.setStatus thread (.writing fcb device size) with writer := writer } ∨
      ∃ count, s.deviceWrite thread fcb size ready device =
        { s.finishCall thread fcb count with writer := writer } := by
  cases device with
  | null => exact ⟨s.writer, .inr ⟨_, rfl⟩⟩
  | serial devno =>
    simp only [deviceWrite]
    split
    · exact ⟨_, .inl rfl⟩
    · exact ⟨_, .inr ⟨_, rfl⟩⟩

/-- A stream that is not open cannot be read, else the call holds a reference
while it lasts. -/
theorem sysRead_cases (thread : TcbRef) (fd : Int) (size : BitVec 32) (ready : Nat) :
    s.sysRead thread fd size ready = s.ret thread (-1) ∨
    ∃ fid fcb, fid < maxFileid ∧ s.pt.fidt (s.curproc thread) fid = some fcb ∧
      s.sysRead thread fd size ready =
        { s with ft := fcbIncref s.ft fcb }.deviceRead thread fcb size ready (s.ft.stream fcb) := by
  unfold sysRead
  split
  · exact .inl rfl
  next fcb found =>
    obtain ⟨small, slot⟩ := getFcb_some found
    exact .inr ⟨_, fcb, small, slot, rfl⟩

theorem sysWrite_cases (thread : TcbRef) (fd : Int) (size : BitVec 32) (ready : Nat) :
    s.sysWrite thread fd size ready = s.ret thread (-1) ∨
    ∃ fid fcb, fid < maxFileid ∧ s.pt.fidt (s.curproc thread) fid = some fcb ∧
      s.sysWrite thread fd size ready =
        { s with ft := fcbIncref s.ft fcb }.deviceWrite thread fcb size ready
          (s.ft.stream fcb) := by
  unfold sysWrite
  split
  · exact .inl rfl
  next fcb found =>
    obtain ⟨small, slot⟩ := getFcb_some found
    exact .inr ⟨_, fcb, small, slot, rfl⟩

theorem sysClose_cases (thread : TcbRef) (fd : Int) :
    (∃ value, s.sysClose thread fd = s.ret thread value) ∨
    ∃ fid fcb, fid < maxFileid ∧ s.pt.fidt (s.curproc thread) fid = some fcb ∧
      s.sysClose thread fd =
        { s.setFid (s.curproc thread) fid none with ft := fcbDecref s.ft fcb }.ret thread 0 := by
  unfold sysClose
  split
  · exact .inl ⟨_, rfl⟩
  next fcb found =>
    obtain ⟨small, slot⟩ := getFcb_some found
    exact .inr ⟨_, fcb, small, slot, rfl⟩

/-- `Dup2` gives a slot another stream; the one it had loses a reference. -/
theorem sysDup2_cases (thread : TcbRef) (oldfd newfd : Int) :
    (∃ value, s.sysDup2 thread oldfd newfd = s.ret thread value) ∨
    ∃ old new fcb, old < maxFileid ∧ new < maxFileid ∧
      s.pt.fidt (s.curproc thread) old = some fcb ∧
      (s.pt.fidt (s.curproc thread) new = none ∧
        s.sysDup2 thread oldfd newfd =
          { s.setFid (s.curproc thread) new (some fcb) with ft := fcbIncref s.ft fcb }.ret
            thread 0 ∨
      ∃ other, other ≠ fcb ∧ s.pt.fidt (s.curproc thread) new = some other ∧
        s.sysDup2 thread oldfd newfd =
          { s.setFid (s.curproc thread) new (some fcb) with
            ft := fcbIncref (fcbDecref s.ft other) fcb }.ret thread 0) := by
  unfold sysDup2
  split
  · exact .inl ⟨_, rfl⟩
  next legal =>
    dsimp only
    split
    · exact .inl ⟨_, rfl⟩
    next fcb found =>
      obtain ⟨small, slot⟩ := getFcb_some found
      have new_small : newfd.toNat < maxFileid := by
        simp only [maxFileid] at legal ⊢
        omega
      have new_slot : s.getFcb (s.curproc thread) newfd = s.pt.fidt (s.curproc thread) newfd.toNat := by
        unfold getFcb
        rw [if_neg]
        omega
      rw [new_slot]
      split
      · exact .inl ⟨_, rfl⟩
      next differs =>
        refine .inr ⟨_, newfd.toNat, fcb, small, new_small, slot, ?_⟩
        cases new : s.pt.fidt (s.curproc thread) newfd.toNat with
        | none => exact .inl ⟨rfl, rfl⟩
        | some other =>
          refine .inr ⟨other, ?_, rfl, rfl⟩
          rintro rfl
          exact differs new

theorem rlistFind_ptcb {threadList : List PtcbRef} {ptcb : PtcbRef} :
    rlistFind threadList (.ptcb ptcb) = some ptcb ↔ ptcb ∈ threadList := by
  constructor
  · exact List.mem_of_find?_eq_some
  · intro member
    have found : (rlistFind threadList (.ptcb ptcb)).isSome :=
      List.find?_isSome.mpr ⟨ptcb, member, by simp⟩
    obtain ⟨other, same⟩ := Option.isSome_iff_exists.mp found
    have key := List.find?_some same
    simp only [Key.ptcb.injEq, decide_eq_true_eq] at key
    rw [same, key]

/-- No node of a list of threads is found by the address of a node. -/
theorem rlistFind_threadListNode (threadList : List PtcbRef) (ptcb : PtcbRef) :
    rlistFind threadList (.threadListNode ptcb) = none := by
  rw [rlistFind, List.find?_eq_none]
  intro other _
  simp

/-- The thread `tid` passes the checks of `sys_ThreadJoin`. -/
def joinable (s : State) (thread : TcbRef) (tid : PtcbRef) : Bool :=
  tid ≠ 0 ∧ s.heap.detached tid = false ∧ s.heap.tcb tid ≠ thread ∧
    tid ∈ s.pt.threadList (s.curproc thread)

theorem sysThreadJoin_unjoinable {thread : TcbRef} {tid : PtcbRef}
    (unjoinable : s.joinable thread tid = false) (exitval : Pointer) :
    tid = 0 ∧ s.sysThreadJoin thread tid exitval = s.crash .assertion ∨
    s.sysThreadJoin thread tid exitval = s.ret thread (-1) := by
  unfold sysThreadJoin
  split
  next null => exact .inl ⟨null, rfl⟩
  next valid =>
    refine .inr (if_pos ?_)
    by_contra passes
    simp only [not_or, not_not, Bool.not_eq_true] at passes
    obtain ⟨undetached, other, found⟩ := passes
    have joinable : s.joinable thread tid = true :=
      decide_eq_true ⟨valid, undetached, other, rlistFind_ptcb.mp found⟩
    cases unjoinable.symm.trans joinable

/-- The call finds the target exited, or waits for it. -/
theorem sysThreadJoin_joinable {thread : TcbRef} {tid : PtcbRef}
    (joinable : s.joinable thread tid = true) (exitval : Pointer) :
    s.heap.exited tid = true ∧ exitval = 0 ∧ s.sysThreadJoin thread tid exitval =
      (s.recordJoin (s.heap.serial tid) exitval none).crash .nullDereference ∨
    s.heap.exited tid = true ∧ exitval ≠ 0 ∧ s.sysThreadJoin thread tid exitval =
      (s.recordJoin (s.heap.serial tid) exitval (some (s.memory exitval))).ret thread
        (s.memory exitval) ∨
    s.heap.exited tid = false ∧ s.sysThreadJoin thread tid exitval =
      (s.refPtcb tid).kernelWait thread (.join tid exitval (s.heap.serial tid)) := by
  obtain ⟨valid, undetached, other, member⟩ := of_decide_eq_true joinable
  have passes : ¬ (s.heap.detached tid = true ∨ s.heap.tcb tid = thread ∨
      rlistFind (s.pt.threadList (s.curproc thread)) (.ptcb tid) ≠ some tid) := by
    simp [undetached, other, rlistFind_ptcb.mpr member]
  unfold sysThreadJoin
  rw [if_neg valid, if_neg passes]
  dsimp only
  split
  next exited =>
    split
    next null => exact .inl ⟨exited, null, rfl⟩
    next valid => exact .inr (.inl ⟨exited, valid, rfl⟩)
  next running =>
    rw [Bool.not_eq_true] at running
    exact .inr (.inr ⟨running, if_pos ⟨running, undetached⟩⟩)

/-- The call fails, or finds the target exited, or waits for it. -/
theorem sysThreadJoin_cases (thread : TcbRef) (tid : PtcbRef) (exitval : Pointer) :
    s.sysThreadJoin thread tid exitval = s.crash .assertion ∨
    s.sysThreadJoin thread tid exitval = s.ret thread (-1) ∨
    tid ∈ s.pt.threadList (s.curproc thread) ∧ s.heap.detached tid = false ∧
      (s.heap.exited tid = true ∧ exitval = 0 ∧
        s.sysThreadJoin thread tid exitval =
          (s.recordJoin (s.heap.serial tid) exitval none).crash .nullDereference ∨
       s.heap.exited tid = true ∧ exitval ≠ 0 ∧
        s.sysThreadJoin thread tid exitval =
          (s.recordJoin (s.heap.serial tid) exitval (some (s.memory exitval))).ret thread
            (s.memory exitval) ∨
       s.heap.exited tid = false ∧
        s.sysThreadJoin thread tid exitval =
          (s.refPtcb tid).kernelWait thread (.join tid exitval (s.heap.serial tid))) := by
  cases joinable : s.joinable thread tid
  · obtain ⟨-, crashed⟩ | failed := sysThreadJoin_unjoinable joinable exitval
    · exact .inl crashed
    · exact .inr (.inl failed)
  · obtain ⟨-, undetached, -, member⟩ := of_decide_eq_true joinable
    exact .inr (.inr ⟨member, undetached, sysThreadJoin_joinable joinable exitval⟩)

theorem recordJoin_heap (serial : Nat) (exitval : Pointer) (result : Option Int) :
    (s.recordJoin serial exitval result).heap = s.heap := by
  unfold recordJoin
  split <;> rfl

theorem unrefPtcb_eq (ptcb : PtcbRef) :
    ∃ refCount, s.unrefPtcb ptcb = { s with heap.refCount := refCount } := by
  unfold unrefPtcb
  split
  · exact ⟨_, rfl⟩
  · exact ⟨s.heap.refCount, rfl⟩

theorem unrefPtcb_detached (ptcb : PtcbRef) :
    (s.unrefPtcb ptcb).heap.detached = s.heap.detached := by
  unfold unrefPtcb
  split <;> rfl

/-- Past its loop `sys_ThreadJoin` only drops a reference, unless it finds the
target detached. -/
theorem joinLoop_undetached {ptcb : PtcbRef} (undetached : s.heap.detached ptcb = false)
    (thread : TcbRef) (exitval : Pointer) (serial : Nat) :
    s.heap.exited ptcb = false ∧
      s.joinLoop thread ptcb exitval serial = s.kernelWait thread (.join ptcb exitval serial) ∨
    s.heap.exited ptcb = true ∧
      s.joinLoop thread ptcb exitval serial =
        ((s.unrefPtcb ptcb).recordJoin serial exitval (some 0)).ret thread 0 := by
  unfold joinLoop
  cases exited : s.heap.exited ptcb
  · exact .inl ⟨rfl, if_pos ⟨rfl, undetached⟩⟩
  · refine .inr ⟨rfl, (if_neg (by simp)).trans ?_⟩
    simp [joinExited, rlistFind_threadListNode, recordJoin_heap, unrefPtcb_detached, undetached]

/-- On a detached target it also counts out a thread of the joiner's process. -/
theorem joinLoop_detached {ptcb : PtcbRef} (detached : s.heap.detached ptcb = true)
    (thread : TcbRef) (exitval : Pointer) (serial : Nat) :
    s.joinLoop thread ptcb exitval serial =
      ((((s.unrefPtcb ptcb).recordJoin serial exitval (some 0)).freePtcb ptcb).uncountThread
        (s.curproc thread)).ret thread 0 := by
  apply (if_neg (by simp [detached])).trans
  simp [joinExited, recordJoin_heap, unrefPtcb_detached, detached]

/-- A thread that exits frees its PTCB when it is detached, or when no joiner
refers to it. -/
theorem exitPtcb_cases (ptcb : PtcbRef) (exitval : Int) :
    (s.heap.detached ptcb = true ∨ s.heap.refCount ptcb = 0) ∧
      s.exitPtcb ptcb exitval =
        ((s.markExited ptcb exitval).kernelBroadcast (.exitCv ptcb)).freePtcb ptcb ∨
    s.heap.detached ptcb = false ∧ s.heap.refCount ptcb ≠ 0 ∧
      s.exitPtcb ptcb exitval = (s.markExited ptcb exitval).kernelBroadcast (.exitCv ptcb) := by
  have unfolded : s.exitPtcb ptcb exitval =
      if s.heap.detached ptcb = true then
        ((s.markExited ptcb exitval).kernelBroadcast (.exitCv ptcb)).freePtcb ptcb
      else if s.heap.refCount ptcb = 0 then
        ((s.markExited ptcb exitval).kernelBroadcast (.exitCv ptcb)).freePtcb ptcb
      else (s.markExited ptcb exitval).kernelBroadcast (.exitCv ptcb) := by
    unfold exitPtcb
    cases detached : s.heap.detached ptcb <;>
      simp [markExited, kernelBroadcast, freePtcb, detached]
  rw [unfolded]
  split
  next detached => exact .inl ⟨.inl detached, rfl⟩
  next undetached =>
    split
    next unreferenced => exact .inl ⟨.inr unreferenced, rfl⟩
    next referenced => exact .inr ⟨Bool.eq_false_of_not_eq_true undetached, referenced, rfl⟩

/-! ### Waiting for children -/

theorem specificLoop_cases (thread : TcbRef) (child : Pid) (status : Pointer) :
    s.pt.pstate child = .alive ∧
      s.specificLoop thread child status = s.kernelWait thread (.specificChild child status) ∨
    s.pt.pstate child ≠ .alive ∧
      s.specificLoop thread child status = (s.cleanupZombie child status).ret thread child := by
  by_cases alive : s.pt.pstate child = .alive
  · exact .inl ⟨alive, if_pos alive⟩
  · exact .inr ⟨alive, if_neg alive⟩

theorem anyLoop_cases (thread : TcbRef) (status : Pointer) :
    s.pt.exitedList (s.curproc thread) = [] ∧
      s.anyLoop thread status = s.kernelWait thread (.anyChild status) ∨
    ∃ child rest, s.pt.exitedList (s.curproc thread) = child :: rest ∧
      s.anyLoop thread status = (s.reapExited child status).ret thread child := by
  unfold anyLoop
  split
  next none => exact .inl ⟨none, rfl⟩
  next child rest exited => exact .inr ⟨child, rest, exited, rfl⟩

/-- The call fails, or waits for a child of the process, or for any. -/
theorem sysWaitChild_cases (thread : TcbRef) (cpid : Int) (status : Pointer) :
    s.sysWaitChild thread cpid status = s.ret thread noproc ∨
    (∃ child, cpid ≠ noproc ∧ s.pt.pstate child ≠ .free ∧
      s.pt.parent child = some (s.curproc thread) ∧
      s.sysWaitChild thread cpid status = s.specificLoop thread child status) ∨
    cpid = noproc ∧ s.pt.childrenList (s.curproc thread) ≠ [] ∧
      s.sysWaitChild thread cpid status = s.anyLoop thread status := by
  unfold sysWaitChild
  split
  next specific =>
    unfold waitForSpecificChild
    split
    · exact .inl rfl
    · split
      · exact .inl rfl
      next child found =>
        unfold getPcb at found
        split at found
        · cases found
        next used =>
          obtain rfl := Option.some.inj found
          split
          · exact .inl rfl
          next link => exact .inr (.inl ⟨_, specific, used, not_not.mp link, rfl⟩)
  next any =>
    unfold waitForAnyChild
    split
    · exact .inl rfl
    next children => exact .inr (.inr ⟨not_not.mp any, children, rfl⟩)

end State

/-- A woken thread is back in the loop it waits in, and the kernel is free. -/
structure State.Resumes (s : State) (thread : TcbRef) (wait : Wait) : Prop where
  live : thread ∈ s.threads.live
  waits : s.threads.status thread = .waiting wait
  woken : s.threads.woken thread = true
  free : s.writer = none

theorem resume_of_waits {s t : State} {thread : TcbRef} {ready : Nat} {wait : Wait}
    (waits : s.threads.status thread = .waiting wait)
    (moved : act s (.resume thread ready) = some t) :
    s.Resumes thread wait ∧ s.resume thread ready wait = some t := by
  simp only [act, waits, Option.ite_none_right_eq_some] at moved
  obtain ⟨⟨live, woken, free⟩, resumes⟩ := moved
  exact ⟨⟨live, waits, woken, free⟩, resumes⟩

/-- The steps there are, each with what it asks of its thread. -/
inductive Acted (s : State) : Label → State → Prop where
  | exec (thread : TcbRef) (call : Task) (argl : Int) (args : Pointer) (bytes : List (BitVec 8))
      (ptcb : PtcbRef) (tcb : TcbRef) (calls : s.calls thread = true)
      (fresh : s.fresh ptcb tcb = true) :
      Acted s (.exec thread call argl args bytes ptcb tcb)
        (s.sysExec thread call argl args bytes ptcb tcb)
  | createThread (thread : TcbRef) (task : Task) (argl : Int) (args : Pointer) (ptcb : PtcbRef)
      (tcb : TcbRef) (calls : s.calls thread = true) (fresh : s.fresh ptcb tcb = true) :
      Acted s (.createThread thread task argl args ptcb tcb)
        (s.sysCreateThread thread task argl args ptcb tcb)
  | threadJoin (thread : TcbRef) (tid : PtcbRef) (exitval : Pointer)
      (calls : s.calls thread = true) :
      Acted s (.threadJoin thread tid exitval) (s.sysThreadJoin thread tid exitval)
  | threadDetach (thread : TcbRef) (tid : PtcbRef) (calls : s.calls thread = true) :
      Acted s (.threadDetach thread tid) (s.sysThreadDetach thread tid)
  | threadExit {t : State} (thread : TcbRef) (exitval : Int) (calls : s.calls thread = true)
      (exited : s.sysThreadExit thread exitval = some t) : Acted s (.threadExit thread exitval) t
  | exit {t : State} (thread : TcbRef) (exitval : Int) (calls : s.calls thread = true)
      (exited : s.sysExit thread exitval = some t) : Acted s (.exit thread exitval) t
  | waitChild (thread : TcbRef) (cpid : Int) (status : Pointer) (calls : s.calls thread = true) :
      Acted s (.waitChild thread cpid status) (s.sysWaitChild thread cpid status)
  | openNull (thread : TcbRef) (calls : s.calls thread = true) :
      Acted s (.openNull thread) (s.sysOpenNull thread)
  | openTerminal (thread : TcbRef) (termno : Nat) (calls : s.calls thread = true) :
      Acted s (.openTerminal thread termno) (s.sysOpenTerminal thread termno)
  | close (thread : TcbRef) (fd : Int) (calls : s.calls thread = true) :
      Acted s (.close thread fd) (s.sysClose thread fd)
  | dup2 (thread : TcbRef) (oldfd newfd : Int) (calls : s.calls thread = true) :
      Acted s (.dup2 thread oldfd newfd) (s.sysDup2 thread oldfd newfd)
  | read (thread : TcbRef) (fd : Int) (size : BitVec 32) (ready : Nat)
      (calls : s.calls thread = true) :
      Acted s (.read thread fd size ready) (s.sysRead thread fd size ready)
  | write (thread : TcbRef) (fd : Int) (size : BitVec 32) (ready : Nat)
      (calls : s.calls thread = true) :
      Acted s (.write thread fd size ready) (s.sysWrite thread fd size ready)
  | resumeSpecific (thread : TcbRef) (ready : Nat) (child : Pid) (status : Pointer)
      (back : s.Resumes thread (.specificChild child status)) :
      Acted s (.resume thread ready) (s.specificLoop thread child status)
  | resumeAny (thread : TcbRef) (ready : Nat) (status : Pointer)
      (back : s.Resumes thread (.anyChild status)) :
      Acted s (.resume thread ready) (s.anyLoop thread status)
  | resumeExit {t : State} (thread : TcbRef) (ready : Nat) (exitval : Int)
      (back : s.Resumes thread (.exitLoop exitval))
      (resumes : s.exitResume thread exitval = some t) : Acted s (.resume thread ready) t
  | resumeJoin (thread : TcbRef) (ready : Nat) (target : PtcbRef) (exitval : Pointer)
      (serial : Nat) (back : s.Resumes thread (.join target exitval serial)) :
      Acted s (.resume thread ready) (s.joinLoop thread target exitval serial)
  | resumeRead (thread : TcbRef) (ready : Nat) (fcb : FcbRef) (device : Device)
      (size : BitVec 32) (back : s.Resumes thread (.read fcb device size)) :
      Acted s (.resume thread ready) (s.deviceRead thread fcb size ready device)
  | poll (thread : TcbRef) (ready : Nat) (fcb : FcbRef) (device : Device) (size : BitVec 32)
      (live : thread ∈ s.threads.live) (writes : s.threads.status thread = .writing fcb device size)
      (writer : s.writer = some thread) :
      Acted s (.poll thread ready) (s.deviceWrite thread fcb size ready device)
  | rxReady : Acted s .rxReady s.rxReady
  | store (pointer : Pointer) (value : Int) :
      Acted s (.store pointer value) { s with memory := update s.memory pointer value }

theorem acted_of_act {s t : State} {label : Label} (moved : act s label = some t) :
    Acted s label t := by
  cases label <;> simp only [act, Option.ite_none_right_eq_some, Option.some.injEq] at moved
  case exec thread call argl args bytes ptcb tcb =>
    obtain ⟨⟨calls, fresh⟩, rfl⟩ := moved
    exact .exec thread call argl args bytes ptcb tcb calls fresh
  case createThread thread task argl args ptcb tcb =>
    obtain ⟨⟨calls, fresh⟩, rfl⟩ := moved
    exact .createThread thread task argl args ptcb tcb calls fresh
  case threadJoin thread tid exitval =>
    obtain ⟨calls, rfl⟩ := moved
    exact .threadJoin thread tid exitval calls
  case threadDetach thread tid =>
    obtain ⟨calls, rfl⟩ := moved
    exact .threadDetach thread tid calls
  case threadExit thread exitval => exact .threadExit thread exitval moved.1 moved.2
  case exit thread exitval => exact .exit thread exitval moved.1 moved.2
  case waitChild thread cpid status =>
    obtain ⟨calls, rfl⟩ := moved
    exact .waitChild thread cpid status calls
  case openNull thread =>
    obtain ⟨calls, rfl⟩ := moved
    exact .openNull thread calls
  case openTerminal thread termno =>
    obtain ⟨calls, rfl⟩ := moved
    exact .openTerminal thread termno calls
  case close thread fd =>
    obtain ⟨calls, rfl⟩ := moved
    exact .close thread fd calls
  case dup2 thread oldfd newfd =>
    obtain ⟨calls, rfl⟩ := moved
    exact .dup2 thread oldfd newfd calls
  case read thread fd size ready =>
    obtain ⟨calls, rfl⟩ := moved
    exact .read thread fd size ready calls
  case write thread fd size ready =>
    obtain ⟨calls, rfl⟩ := moved
    exact .write thread fd size ready calls
  case resume thread ready =>
    split at moved
    next wait waits =>
      obtain ⟨⟨live, woken, free⟩, resumes⟩ := Option.ite_none_right_eq_some.mp moved
      have back : s.Resumes thread wait := ⟨live, waits, woken, free⟩
      cases wait with
      | specificChild child status =>
        obtain rfl := Option.some.inj resumes
        exact .resumeSpecific thread ready child status back
      | anyChild status =>
        obtain rfl := Option.some.inj resumes
        exact .resumeAny thread ready status back
      | exitLoop exitval => exact .resumeExit thread ready exitval back resumes
      | join target exitval serial =>
        obtain rfl := Option.some.inj resumes
        exact .resumeJoin thread ready target exitval serial back
      | read fcb device size =>
        obtain rfl := Option.some.inj resumes
        exact .resumeRead thread ready fcb device size back
    · cases moved
  case poll thread ready =>
    split at moved
    next fcb device size writes =>
      obtain ⟨⟨live, writer⟩, polled⟩ := Option.ite_none_right_eq_some.mp moved
      obtain rfl := Option.some.inj polled
      exact .poll thread ready fcb device size live writes writer
    · cases moved
  case rxReady =>
    obtain rfl := moved
    exact .rxReady
  case store pointer value =>
    obtain rfl := moved
    exact .store pointer value

end TinyOs.Kernel
