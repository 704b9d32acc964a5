import Mathlib.Data.List.ProdSigma
import TinyOs.FileTable
import TinyOs.Library.Counting
import TinyOs.ProcessSafety

/-! Reference counts over whole runs: every FCB has as many references as there
are slots and calls that use it. -/
namespace TinyOs.Kernel
open Function Library

/-- How many slots of all FIDTs point to an FCB. -/
def slots (fidt : Pid → Nat → Option FcbRef) (fcb : FcbRef) : Nat :=
  (List.range maxProc ×ˢ List.range maxFileid).countP fun slot => fidt slot.1 slot.2 = some fcb

/-- The thread is in a `Read` or `Write` of a stream. -/
def Status.uses (fcb : FcbRef) : Status → Bool
  | .waiting (.read used _ _) | .writing used _ _ => used = fcb
  | _ => false

/-- The wait is for a thread or a process that the caller has named. -/
def Wait.named : Wait → Bool
  | .specificChild .. | .join .. => true
  | .anyChild _ | .exitLoop _ | .read .. => false

/-- How many calls on an FCB are in flight. -/
def inFlight (r : Roster) (fcb : FcbRef) : Nat :=
  r.live.countP fun thread => (r.status thread).uses fcb

def State.refs (s : State) (fcb : FcbRef) : Nat := slots s.pt.fidt fcb + inFlight s.roster fcb

theorem slots_setFid (fidt : Pid → Nat → Option FcbRef) {pid : Pid} {fid : Nat}
    (process : pid < maxProc) (file : fid < maxFileid) (value : Option FcbRef) (fcb : FcbRef) :
    slots (update fidt pid (update (fidt pid) fid value)) fcb +
        (if fidt pid fid = some fcb then 1 else 0) =
      slots fidt fcb + if value = some fcb then 1 else 0 := by
  have nodup : (List.range maxProc ×ˢ List.range maxFileid).Nodup :=
    List.nodup_range.product List.nodup_range
  have member : (pid, fid) ∈ List.range maxProc ×ˢ List.range maxFileid :=
    List.pair_mem_product.mpr ⟨List.mem_range.mpr process, List.mem_range.mpr file⟩
  have counts := countP_update nodup member (fun slot => fidt slot.1 slot.2) value
    fun held => decide (held = some fcb)
  have same : ∀ slot : Pid × Nat, update fidt pid (update (fidt pid) fid value) slot.1 slot.2 =
      update (fun slot : Pid × Nat => fidt slot.1 slot.2) (pid, fid) value slot := by
    rintro ⟨p, f⟩
    simp only [update_apply, Prod.mk.injEq]
    grind
  simp only [slots, same]
  simpa only [decide_eq_true_eq] using counts

theorem slots_pos {fidt : Pid → Nat → Option FcbRef} {pid : Pid} {fid : Nat} {fcb : FcbRef}
    (process : pid < maxProc) (file : fid < maxFileid) (slot : fidt pid fid = some fcb) :
    slots fidt fcb ≠ 0 := by
  refine Nat.pos_iff_ne_zero.mp (List.countP_pos_iff.mpr ⟨(pid, fid), ?_, ?_⟩)
  · exact List.pair_mem_product.mpr ⟨List.mem_range.mpr process, List.mem_range.mpr file⟩
  · simp [slot]

theorem slots_le (fidt : Pid → Nat → Option FcbRef) (fcb : FcbRef) :
    slots fidt fcb ≤ maxProc * maxFileid := by
  refine List.countP_le_length.trans (le_of_eq ?_)
  rw [List.length_product, List.length_range, List.length_range]

section
variable {r : Roster} {thread : TcbRef} {fcb : FcbRef}

theorem inFlight_become (nodup : r.live.Nodup) (member : thread ∈ r.live) (status : Status)
    (fcb : FcbRef) :
    inFlight (r.become thread status) fcb + (if (r.status thread).uses fcb then 1 else 0) =
      inFlight r fcb + if status.uses fcb then 1 else 0 :=
  Roster.count_become (fun status => status.uses fcb) nodup member status

/-- A thread that uses no stream before or after. -/
theorem inFlight_idle (before : (r.status thread).uses fcb = false) {status : Status}
    (after : status.uses fcb = false) : inFlight (r.become thread status) fcb = inFlight r fcb :=
  Roster.count_idle (fun status => status.uses fcb) before after

theorem inFlight_spawn (fresh : thread ∉ r.live) (pid : Pid) (ptcb : PtcbRef) (fcb : FcbRef) :
    inFlight (r.spawn pid ptcb thread) fcb = inFlight r fcb :=
  Roster.count_spawn (fun status => status.uses fcb) rfl fresh pid ptcb

theorem inFlight_leave (idle : (r.status thread).uses fcb = false) :
    inFlight (r.leave thread) fcb = inFlight r fcb :=
  Roster.count_leave (fun status => status.uses fcb) idle

theorem inFlight_pos (member : thread ∈ r.live) (uses : (r.status thread).uses fcb = true) :
    inFlight r fcb ≠ 0 :=
  Roster.count_pos (fun status => status.uses fcb) member uses

end

/-- The file table counts the slots and the calls in flight, and only live
processes have open files. -/
structure Streams (s : State) : Prop where
  counted : Counted s.ft s.refs
  open_slot : ∀ pid fid fcb, s.pt.fidt pid fid = some fcb →
    pid < maxProc ∧ fid < maxFileid ∧ s.pt.pstate pid = .alive

namespace Streams
variable {s t : State} {thread : TcbRef}

theorem held (streams : Streams s) {pid : Pid} {fid : Nat} {fcb : FcbRef}
    (slot : s.pt.fidt pid fid = some fcb) : s.refs fcb ≠ 0 := by
  obtain ⟨process, file, -⟩ := streams.open_slot pid fid fcb slot
  have positive := slots_pos process file slot
  unfold State.refs
  omega

/-- The counters do not overflow. -/
theorem refs_small (nodup : s.threads.live.Nodup)
    (bounded : ∀ thread ∈ s.threads.live, thread < maxThreads) (fcb : FcbRef) :
    s.refs fcb + 1 < 2 ^ 32 := by
  have few : inFlight s.roster fcb ≤ maxThreads :=
    Roster.count_le (r := s.roster) (fun status => status.uses fcb) nodup bounded
  have slots := slots_le s.pt.fidt fcb
  simp only [maxProc, maxFileid, maxThreads] at slots few
  unfold State.refs
  omega

theorem small (inv : CensusInv s.census) (fcb : FcbRef) : s.refs fcb + 1 < 2 ^ 32 :=
  refs_small inv.live_nodup inv.live_small fcb

theorem frame (streams : Streams s) (ft : t.ft = s.ft) (fidt : t.pt.fidt = s.pt.fidt)
    (alive : ∀ pid, s.pt.pstate pid = .alive → t.pt.pstate pid = .alive)
    (flight : ∀ fcb, inFlight t.roster fcb = inFlight s.roster fcb) : Streams t := by
  have refs : t.refs = s.refs := by
    funext fcb
    rw [State.refs, State.refs, fidt, flight]
  refine ⟨?_, ?_⟩
  · rw [ft, refs]
    exact streams.counted
  · intro pid fid fcb slot
    rw [fidt] at slot
    obtain ⟨process, file, state⟩ := streams.open_slot pid fid fcb slot
    exact ⟨process, file, alive pid state⟩

/-- `setFid` with a file table that counts the change. -/
theorem setFid (streams : Streams s) {pid : Pid} {fid : Nat} (value : Option FcbRef)
    (file : fid < maxFileid) (process : pid < maxProc) (alive : s.pt.pstate pid = .alive)
    {ft : FileTable} {refs : FcbRef → Nat} (counted : Counted ft refs)
    (same : ∀ fcb, refs fcb + (if s.pt.fidt pid fid = some fcb then 1 else 0) =
      s.refs fcb + if value = some fcb then 1 else 0) :
    Streams { s.setFid pid fid value with ft := ft } := by
  refine ⟨?_, ?_⟩
  · have refs_eq : State.refs { s.setFid pid fid value with ft := ft } = refs := by
      funext fcb
      have change := slots_setFid s.pt.fidt process file value fcb
      have given := same fcb
      unfold State.refs at given ⊢
      change slots (update s.pt.fidt pid (update (s.pt.fidt pid) fid value)) fcb +
        inFlight s.roster fcb = refs fcb
      omega
    rw [refs_eq]
    exact counted
  · intro other f fcb slot
    change update s.pt.fidt pid (update (s.pt.fidt pid) fid value) other f = some fcb at slot
    by_cases here : other = pid ∧ f = fid
    · obtain ⟨rfl, rfl⟩ := here
      exact ⟨process, file, alive⟩
    · apply streams.open_slot other f fcb
      rw [← slot]
      simp only [update_apply]
      grind

/-- The return to user code of a thread that uses no stream. -/
theorem ret (streams : Streams s) (user : s.threads.status thread = .user) (value : Int) :
    Streams (s.ret thread value) := by
  refine streams.frame rfl rfl (fun _ => id) fun fcb => ?_
  rw [State.roster_ret]
  refine inFlight_idle ?_ rfl
  change (s.threads.status thread).uses fcb = false
  rw [user]
  rfl

theorem openStream (streams : Streams s) (inv : CensusInv s.census)
    (calls : s.calls thread = true) (device : Device) : Streams (s.openStream thread device) := by
  obtain ⟨live, user, -⟩ := State.calls_iff.mp calls
  have alive := (inv.owners thread live).1
  have process := inv.pid_small (fun free => nomatch alive.symm.trans free)
  obtain same | ⟨fid, fcb, rest, file, unused, first, same | same⟩ :=
    State.openStream_cases (s := s) thread device
  · rw [same]
    exact streams.ret user nofile
  · rw [same]
    have none := ((streams.counted.free fcb).mp (by simp [first])).2
    have opened := streams.setFid (some fcb) file process alive
      (streams.counted.openFcb first device) (by
        intro other
        rw [update_apply]
        have empty : s.pt.fidt (s.census.owner thread) fid = Option.none := unused
        rw [empty]
        grind)
    exact opened.ret user _
  · rw [same]
    have refused : Streams { s with
        ft := { State.takeFcb s.ft fcb rest with fcbFreelist := rest ++ [fcb] } } :=
      ⟨streams.counted.refuse first, streams.open_slot⟩
    exact refused.ret user _

theorem sysClose (streams : Streams s) (inv : CensusInv s.census)
    (calls : s.calls thread = true) (fd : Int) : Streams (s.sysClose thread fd) := by
  obtain ⟨live, user, -⟩ := State.calls_iff.mp calls
  have alive := (inv.owners thread live).1
  have process := inv.pid_small (fun free => nomatch alive.symm.trans free)
  obtain ⟨value, same⟩ | ⟨fid, fcb, file, slot, same⟩ := State.sysClose_cases (s := s) thread fd
  · rw [same]
    exact streams.ret user value
  · rw [same]
    have held := streams.held slot
    have closed := streams.setFid none file process alive
      (streams.counted.decref _ held) (by
        intro other
        rw [update_apply]
        have used : s.pt.fidt (s.census.owner thread) fid = some fcb := slot
        rw [used]
        grind)
    exact closed.ret user 0

theorem sysDup2 (streams : Streams s) (inv : CensusInv s.census) (calls : s.calls thread = true)
    (oldfd newfd : Int) : Streams (s.sysDup2 thread oldfd newfd) := by
  obtain ⟨live, user, -⟩ := State.calls_iff.mp calls
  have alive := (inv.owners thread live).1
  have process := inv.pid_small (fun free => nomatch alive.symm.trans free)
  obtain ⟨value, same⟩ | ⟨old, new, fcb, -, file, slot, ⟨unused, same⟩ |
      ⟨other, apart, used, same⟩⟩ := State.sysDup2_cases (s := s) thread oldfd newfd
  · rw [same]
    exact streams.ret user value
  · rw [same]
    have copied := streams.setFid (some fcb) file process alive
      (streams.counted.incref _ (streams.held slot) (small inv fcb)) (by
        intro f
        rw [update_apply]
        have empty : s.pt.fidt (s.census.owner thread) new = none := unused
        rw [empty]
        grind)
    exact copied.ret user 0
  · rw [same]
    -- The stream in the slot may be closed before the other gets its reference.
    have dropped := streams.counted.decref _ (streams.held used)
    have kept : update s.refs other (s.refs other - 1) fcb = s.refs fcb := update_of_ne apart.symm ..
    have held := streams.held used
    have counted := dropped.incref fcb (by rw [kept]; exact streams.held slot)
      (by rw [kept]; exact small inv fcb)
    have replaced := streams.setFid (some fcb) file process alive counted (by
        intro f
        rw [kept, update_apply, update_apply]
        have full : s.pt.fidt (s.census.owner thread) new = some other := used
        rw [full]
        grind)
    exact replaced.ret user 0

/-! ### Calls in flight -/

theorem uses_iff {status : Status} {fcb other : FcbRef} (uses : status.uses fcb = true) :
    status.uses other = true ↔ other = fcb := by
  unfold Status.uses at uses ⊢
  split at uses
  all_goals simp_all [eq_comm]

/-- A call takes a reference for as long as it lasts. -/
theorem begin_call (streams : Streams s) (inv : CensusInv s.census) {pid : Pid} {fid : Nat}
    {fcb : FcbRef} (slot : s.pt.fidt pid fid = some fcb) (live : thread ∈ s.threads.live)
    (user : s.threads.status thread = .user) {status : Status} (uses : status.uses fcb = true)
    (ft : t.ft = fcbIncref s.ft fcb) (pt : t.pt = s.pt)
    (becomes : t.roster = s.roster.become thread status) : Streams t := by
  have refs : t.refs = update s.refs fcb (s.refs fcb + 1) := by
    funext other
    have change := inFlight_become inv.live_nodup live status other (r := s.roster)
    have idle : (s.roster.status thread).uses other = false := by
      change (s.threads.status thread).uses other = false
      rw [user]
      rfl
    simp only [uses_iff uses, idle] at change
    rw [State.refs, pt, becomes, update_apply]
    unfold State.refs
    grind
  refine ⟨?_, ?_⟩
  · rw [ft, refs]
    exact streams.counted.incref _ (streams.held slot) (small inv fcb)
  · rw [pt]
    exact streams.open_slot

theorem end_call (streams : Streams s) (inv : CensusInv s.census) {fcb : FcbRef}
    (live : thread ∈ s.threads.live) (uses : (s.threads.status thread).uses fcb = true)
    (ft : t.ft = fcbDecref s.ft fcb) (pt : t.pt = s.pt)
    (becomes : t.roster = s.roster.become thread .user) : Streams t := by
  have positive : inFlight s.roster fcb ≠ 0 := inFlight_pos live uses
  have refs : t.refs = update s.refs fcb (s.refs fcb - 1) := by
    funext other
    have change := inFlight_become inv.live_nodup live .user other (r := s.roster)
    have idle : Status.user.uses other = false := rfl
    have ours : (s.roster.status thread).uses other = true ↔ other = fcb := uses_iff uses
    simp only [ours, idle] at change
    rw [State.refs, pt, becomes, update_apply]
    unfold State.refs
    grind
  refine ⟨?_, ?_⟩
  · rw [ft, refs]
    apply streams.counted.decref _
    unfold State.refs
    omega
  · rw [pt]
    exact streams.open_slot

/-- A call that ends at once leaves the counts as they were. -/
theorem instant_call (streams : Streams s) (inv : CensusInv s.census) {pid : Pid} {fid : Nat}
    {fcb : FcbRef} (slot : s.pt.fidt pid fid = some fcb)
    (user : s.threads.status thread = .user) (ft : t.ft = fcbDecref (fcbIncref s.ft fcb) fcb)
    (pt : t.pt = s.pt) (becomes : t.roster = s.roster.become thread .user) : Streams t := by
  have taken := streams.counted.incref _ (streams.held slot) (small inv fcb)
  have dropped := taken.decref fcb (by simp)
  rw [update_self, update_idem, Nat.add_sub_cancel, update_eq_self] at dropped
  have refs : t.refs = s.refs := by
    funext other
    rw [State.refs, State.refs, pt, becomes, inFlight_idle]
    · change (s.threads.status thread).uses other = false
      rw [user]
      rfl
    · rfl
  refine ⟨?_, ?_⟩
  · rw [ft, refs]
    exact dropped
  · rw [pt]
    exact streams.open_slot

theorem sysRead (streams : Streams s) (inv : CensusInv s.census) (calls : s.calls thread = true)
    (fd : Int) (size : BitVec 32) (ready : Nat) : Streams (s.sysRead thread fd size ready) := by
  obtain ⟨live, user, -⟩ := State.calls_iff.mp calls
  obtain same | ⟨fid, fcb, -, slot, same⟩ := State.sysRead_cases (s := s) thread fd size ready
  · rw [same]
    exact streams.ret user (-1)
  · rw [same]
    obtain goes | ⟨count, goes⟩ := State.deviceRead_cases
      (s := { s with ft := fcbIncref s.ft fcb }) thread fcb size ready (s.ft.stream fcb)
    · rw [goes]
      exact streams.begin_call inv slot live user (by simp [Status.uses]) rfl rfl rfl
    · rw [goes]
      exact streams.instant_call inv slot user rfl rfl rfl

theorem sysWrite (streams : Streams s) (inv : CensusInv s.census) (calls : s.calls thread = true)
    (fd : Int) (size : BitVec 32) (ready : Nat) : Streams (s.sysWrite thread fd size ready) := by
  obtain ⟨live, user, -⟩ := State.calls_iff.mp calls
  obtain same | ⟨fid, fcb, -, slot, same⟩ := State.sysWrite_cases (s := s) thread fd size ready
  · rw [same]
    exact streams.ret user (-1)
  · rw [same]
    obtain ⟨writer, goes | ⟨count, goes⟩⟩ := State.deviceWrite_cases
      (s := { s with ft := fcbIncref s.ft fcb }) thread fcb size ready (s.ft.stream fcb)
    · rw [goes]
      exact streams.begin_call inv slot live user (by simp [Status.uses]) rfl rfl rfl
    · rw [goes]
      exact streams.instant_call inv slot user rfl rfl rfl

/-- A blocked `Read` goes on waiting or ends. -/
theorem resumeRead (streams : Streams s) (inv : CensusInv s.census) (live : thread ∈ s.threads.live)
    {fcb : FcbRef} {device : Device} {size : BitVec 32}
    (waits : s.threads.status thread = .waiting (.read fcb device size)) (ready : Nat) :
    Streams (s.deviceRead thread fcb size ready device) := by
  obtain goes | ⟨count, goes⟩ := State.deviceRead_cases (s := s) thread fcb size ready device
  · rw [goes]
    refine streams.frame rfl rfl (fun _ => id) fun other => ?_
    rw [State.roster_kernelWait, Roster.become_same waits]
  · rw [goes]
    exact streams.end_call inv live (by simp [waits, Status.uses]) rfl rfl rfl

theorem pollWrite (streams : Streams s) (inv : CensusInv s.census) (live : thread ∈ s.threads.live)
    {fcb : FcbRef} {device : Device} {size : BitVec 32}
    (writes : s.threads.status thread = .writing fcb device size) (ready : Nat) :
    Streams (s.deviceWrite thread fcb size ready device) := by
  obtain ⟨writer, goes | ⟨count, goes⟩⟩ :=
    State.deviceWrite_cases (s := s) thread fcb size ready device
  · rw [goes]
    refine streams.frame rfl rfl (fun _ => id) fun other => ?_
    change inFlight (s.roster.become thread (.writing fcb device size)) other = _
    rw [Roster.become_same writes]
  · rw [goes]
    exact streams.end_call inv live (by simp [writes, Status.uses]) rfl rfl rfl

/-! ### Processes that come and go -/

theorem inheritFid (streams : Streams s) (nodup : s.threads.live.Nodup)
    (bounded : ∀ thread ∈ s.threads.live, thread < maxThreads) {newproc : Pid} {fid : Nat}
    (file : fid < maxFileid) (process : newproc < maxProc)
    (alive : s.pt.pstate newproc = .alive) (unused : s.pt.fidt newproc fid = none)
    (curproc : Pid) : Streams (State.inheritFid curproc newproc s fid) := by
  unfold State.inheritFid
  have copied : (s.setFid newproc fid (s.pt.fidt curproc fid)).pt.fidt newproc fid =
      s.pt.fidt curproc fid := by simp [State.setFid]
  dsimp only
  rw [copied]
  cases slot : s.pt.fidt curproc fid with
  | none =>
    apply streams.setFid _ file process alive streams.counted
    intro other
    rw [unused]
  | some fcb =>
    refine streams.setFid _ file process alive
      (streams.counted.incref _ (streams.held slot) (refs_small nodup bounded fcb)) fun other => ?_
    rw [unused, update_apply]
    grind

/-- A new process, whose FIDT is empty, gets the streams of another. -/
theorem inheritFidt (streams : Streams s) (nodup : s.threads.live.Nodup)
    (bounded : ∀ thread ∈ s.threads.live, thread < maxThreads) {newproc : Pid}
    (process : newproc < maxProc) (alive : s.pt.pstate newproc = .alive)
    (empty : ∀ fid, s.pt.fidt newproc fid = none) (curproc : Pid) :
    Streams (s.inheritFidt curproc newproc) := by
  have loop : ∀ (fids : List Nat) (s : State), Streams s → s.threads.live.Nodup →
      (∀ thread ∈ s.threads.live, thread < maxThreads) → s.pt.pstate newproc = .alive →
      fids.Nodup → (∀ fid ∈ fids, fid < maxFileid ∧ s.pt.fidt newproc fid = none) →
      Streams (fids.foldl (State.inheritFid curproc newproc) s) := by
    intro fids
    induction fids with
    | nil => exact fun _ streams _ _ _ _ _ => streams
    | cons fid rest ih =>
      intro s streams nodup bounded alive distinct unused
      obtain ⟨absent, distinct⟩ := List.nodup_cons.mp distinct
      obtain ⟨file, none⟩ := unused fid List.mem_cons_self
      have next := streams.inheritFid nodup bounded file process alive none curproc
      have same : (State.inheritFid curproc newproc s fid).threads = s.threads ∧
          (State.inheritFid curproc newproc s fid).pt.pstate = s.pt.pstate ∧
          ∀ other ≠ fid, (State.inheritFid curproc newproc s fid).pt.fidt newproc other =
            s.pt.fidt newproc other := by
        unfold State.inheritFid
        dsimp only
        split <;> refine ⟨rfl, rfl, fun other apart => ?_⟩ <;> simp [State.setFid, apart]
      refine ih _ next ?_ ?_ ?_ distinct ?_
      · rw [same.1]
        exact nodup
      · rw [same.1]
        exact bounded
      · rw [same.2.1]
        exact alive
      · intro other member
        have apart : other ≠ fid := by
          rintro rfl
          exact absent member
        rw [same.2.2 other apart]
        exact unused other (List.mem_cons_of_mem _ member)
  apply loop _ s streams nodup bounded alive List.nodup_range
  intro fid member
  exact ⟨List.mem_range.mp member, empty fid⟩

theorem closeFid (streams : Streams s) (pid : Pid) (fid : Nat) :
    Streams (State.closeFid pid s fid) := by
  unfold State.closeFid
  split
  · exact streams
  next fcb slot =>
    obtain ⟨process, file, alive⟩ := streams.open_slot pid fid fcb slot
    apply streams.setFid _ file process alive (streams.counted.decref _ (streams.held slot))
    intro other
    have held := streams.held slot
    rw [update_apply, slot]
    grind

/-- The clean-up closes what the process had open. -/
theorem cleanUpFidt (streams : Streams s) (pid : Pid) :
    Streams (s.cleanUpFidt pid) ∧ ∀ fid, (s.cleanUpFidt pid).pt.fidt pid fid = none := by
  have loop : ∀ (fids : List Nat) (s : State), Streams s →
      Streams (fids.foldl (State.closeFid pid) s) ∧
      (∀ fid, s.pt.fidt pid fid = none → (fids.foldl (State.closeFid pid) s).pt.fidt pid fid = none) ∧
      ∀ fid ∈ fids, (fids.foldl (State.closeFid pid) s).pt.fidt pid fid = none := by
    intro fids
    induction fids with
    | nil => exact fun _ streams => ⟨streams, fun _ => id, by simp⟩
    | cons fid rest ih =>
      intro s streams
      obtain ⟨cleaned, stays, closed⟩ := ih _ (streams.closeFid pid fid)
      have empties : (State.closeFid pid s fid).pt.fidt pid fid = none := by
        unfold State.closeFid
        split
        next none => exact none
        next => simp [State.setFid]
      have leaves : ∀ other, s.pt.fidt pid other = none →
          (State.closeFid pid s fid).pt.fidt pid other = none := by
        intro other none
        unfold State.closeFid
        split
        · exact none
        · simp only [State.setFid, update_self, update_apply]
          split
          · rfl
          · exact none
      refine ⟨cleaned, fun other none => stays other (leaves other none), ?_⟩
      intro other member
      rcases List.mem_cons.mp member with rfl | member
      · exact stays other empties
      · exact closed other member
  obtain ⟨cleaned, -, closed⟩ := loop (List.range maxFileid) s streams
  refine ⟨cleaned, fun fid => ?_⟩
  cases slot : (s.cleanUpFidt pid).pt.fidt pid fid with
  | none => rfl
  | some fcb =>
    obtain ⟨-, file, -⟩ := cleaned.open_slot pid fid fcb slot
    exact slot.symm.trans (closed fid (List.mem_range.mpr file))

/-- The open files and the processes that may have some. -/
def files (s : State) : (Pid → Nat → Option FcbRef) × FileTable × (Pid → PidState) :=
  (s.pt.fidt, s.ft, s.pt.pstate)

theorem of_files (streams : Streams s) (same : files t = files s)
    (flight : ∀ fcb, inFlight t.roster fcb = inFlight s.roster fcb) : Streams t := by
  have fidt : t.pt.fidt = s.pt.fidt := congrArg Prod.fst same
  have ft : t.ft = s.ft := congrArg (fun files => files.2.1) same
  have states : t.pt.pstate = s.pt.pstate := congrArg (fun files => files.2.2) same
  exact streams.frame ft fidt (fun pid alive => by rw [states, alive]) flight

theorem files_reparent (pid : Pid) (children : List Pid) :
    files (s.reparent pid children) = files s := by
  induction children generalizing s with
  | nil => rfl
  | cons child rest ih =>
    rw [State.reparent, ih]
    rfl

theorem terminate (streams : Streams s) {pid : Pid} {exitval : Int}
    (ended : s.terminate pid exitval = some t) : Streams t := by
  have roster := State.roster_terminate ended
  have started : Streams (s.setExitval pid exitval) :=
    streams.of_files rfl fun _ => rfl
  obtain ⟨cleaned, closed⟩ := started.cleanUpFidt pid
  have clean_roster := State.roster_cleanUpFidt (s := s.setExitval pid exitval) pid
  unfold State.terminate at ended
  dsimp only at ended
  generalize (s.setExitval pid exitval).cleanUpFidt pid = s' at ended cleaned closed clean_roster
  split at ended
  · cases ended
  · obtain rfl := Option.some.inj ended
    have same : files (((s'.reparent pid (s'.pt.childrenList pid)).adoptExited pid).tellParent pid) =
        files s' := by
      have adopted : ∀ s : State, files (s.adoptExited pid) = files s := by
        intro s
        unfold State.adoptExited
        split <;> rfl
      have told : ∀ s : State, files (s.tellParent pid) = files s := by
        intro s
        unfold State.tellParent
        split <;> rfl
      exact (told _).trans ((adopted _).trans (files_reparent ..))
    have told : Streams (((s'.reparent pid (s'.pt.childrenList pid)).adoptExited pid).tellParent pid) := by
      apply cleaned.of_files same
      intro fcb
      have rosters := roster.trans clean_roster.symm
      exact congrArg (fun r => inFlight r fcb) rosters
    refine ⟨told.counted, ?_⟩
    intro other fid fcb slot
    have before := told.open_slot other fid fcb slot
    refine ⟨before.1, before.2.1, ?_⟩
    have apart : other ≠ pid := by
      rintro rfl
      have fidt := congrArg Prod.fst same
      have empty : (((s'.reparent other (s'.pt.childrenList other)).adoptExited other).tellParent
          other).pt.fidt other fid = none := by
        change (files _).1 other fid = none
        rw [fidt]
        exact closed fid
      cases empty.symm.trans slot
    exact (update_of_ne apart ..).trans before.2.2

theorem files_exitPtcb (ptcb : PtcbRef) (exitval : Int) : files (s.exitPtcb ptcb exitval) = files s := by
  unfold State.exitPtcb
  dsimp only
  split <;> split <;> rfl

/-- A thread that exits is in no call on a stream. -/
theorem sysThreadExit (streams : Streams s)
    (idle : ∀ fcb, (s.threads.status thread).uses fcb = false) {exitval : Int}
    (exited : s.sysThreadExit thread exitval = some t) : Streams t := by
  have asleep : ∀ {s' : State}, Streams s' → s'.roster = s.roster →
      Streams (s'.kernelSleepExited thread) := by
    intro s' streams' same
    refine streams'.frame rfl rfl (fun _ => id) fun fcb => ?_
    change inFlight (s'.roster.leave thread) fcb = _
    apply inFlight_leave
    rw [same]
    exact idle fcb
  have left : Streams ((s.exitPtcb (s.threads.ptcb thread) exitval).uncountThread
      (s.curproc thread)) := by
    refine streams.of_files (files_exitPtcb ..) fun fcb => ?_
    rw [State.roster_uncountThread, State.roster_exitPtcb]
  have roster : ((s.exitPtcb (s.threads.ptcb thread) exitval).uncountThread
      (s.curproc thread)).roster = s.roster := State.roster_exitPtcb ..
  unfold State.sysThreadExit at exited
  dsimp only at exited
  split at exited
  · obtain ⟨ended, terminated, rfl⟩ := Option.map_eq_some_iff.mp exited
    exact asleep (left.terminate terminated) ((State.roster_terminate terminated).trans roster)
  · obtain rfl := Option.some.inj exited
    exact asleep left roster

/-- A zombie has no open file. -/
theorem cleanupZombie (streams : Streams s) {child : Pid} (zombie : s.pt.pstate child = .zombie)
    (status : Pointer) : Streams (s.cleanupZombie child status) := by
  refine streams.frame rfl rfl ?_ fun _ => rfl
  intro pid alive
  have apart : pid ≠ child := by
    rintro rfl
    cases zombie.symm.trans alive
  exact (update_of_ne apart ..).trans alive

theorem become (streams : Streams s) (idle : ∀ fcb, (s.threads.status thread).uses fcb = false)
    {status : Status} (still : ∀ fcb, status.uses fcb = false) (same : files t = files s)
    (becomes : t.roster = s.roster.become thread status) : Streams t := by
  apply streams.of_files same
  intro fcb
  rw [becomes]
  exact inFlight_idle (idle fcb) (still fcb)

theorem anyLoop (streams : Streams s) (inv : CensusInv s.census)
    (idle : ∀ fcb, (s.threads.status thread).uses fcb = false) (status : Pointer) :
    Streams (s.anyLoop thread status) := by
  obtain ⟨-, same⟩ | ⟨child, rest, exited, same⟩ := State.anyLoop_cases (s := s) thread status
  · rw [same]
    exact streams.become idle (fun _ => rfl) rfl (State.roster_kernelWait ..)
  · obtain ⟨-, zombie, -, reaps⟩ := State.reapExited_first inv exited status
    rw [same, reaps]
    exact (streams.cleanupZombie zombie status).become idle (fun _ => rfl) rfl
      (State.roster_ret ..)

theorem exitRounds (streams : Streams s) (inv : CensusInv s.census)
    (idle : ∀ fcb, (s.threads.status thread).uses fcb = false) {fuel : Nat} {exitval : Int}
    (exits : State.exitRounds fuel s thread exitval = some t) : Streams t := by
  induction fuel generalizing s with
  | zero => cases exits
  | succ fuel ih =>
    unfold State.exitRounds at exits
    split at exits
    · exact streams.sysThreadExit idle exits
    · split at exits
      · obtain rfl := Option.some.inj exits
        exact streams.become idle (fun _ => rfl) rfl (State.roster_kernelWait ..)
      next child _ exited =>
        obtain ⟨large, zombie, -, reaps⟩ := State.reapExited_first inv exited 0
        rw [reaps] at exits
        have cleaned : CensusInv (s.cleanupZombie child 0).census := inv.reap large zombie
        exact ih (streams.cleanupZombie zombie 0) cleaned idle exits

theorem exec (streams : Streams s) (inv : CensusInv s.census) {curproc : Pid} (call : Task)
    (argl : Int) (args : Pointer) (bytes : List (BitVec 8)) (ptcb : PtcbRef) {tcb : TcbRef}
    (fresh : tcb ∉ s.threads.live) :
    Streams (s.exec curproc call argl args bytes ptcb tcb).2 := by
  cases first : s.pt.pcbFreelist with
  | none =>
    rw [State.exec_full first]
    exact streams
  | some pid =>
    have large := inv.free_large first
    have larger : ¬ pid ≤ 1 := by
      intro small
      exact absurd (large.trans small) (by decide)
    have entries := inv.entries
    change FreeEntries s.pt.pstate s.pt.parent s.pt.pcbFreelist s.pt.processCount at entries
    rw [first] at entries
    obtain ⟨unused, made⟩ := entries.pop (some curproc)
    have process : pid < maxProc := by
      obtain ⟨_, -, -, -, bounded, -⟩ := made
      exact bounded pid (by simp)
    have empty : ∀ fid, s.pt.fidt pid fid = none := by
      intro fid
      cases slot : s.pt.fidt pid fid with
      | none => rfl
      | some fcb => cases unused.symm.trans (streams.open_slot pid fid fcb slot).2.2
    unfold State.exec State.acquirePcb
    simp only [first, State.inherit, larger, if_false]
    have adopted : Streams ((s.takePcb pid).addChild curproc pid) := by
      refine streams.frame rfl rfl ?_ fun _ => rfl
      intro other alive
      simp only [State.addChild, State.takePcb, update_apply]
      split
      · rfl
      · exact alive
    have inherited := adopted.inheritFidt inv.live_nodup inv.live_small process (update_self ..)
      empty curproc
    have roster := State.roster_inheritFidt (s := (s.takePcb pid).addChild curproc pid) curproc pid
    generalize ((s.takePcb pid).addChild curproc pid).inheritFidt curproc pid = s' at inherited roster
    split
    · refine inherited.frame rfl rfl (fun _ => id) fun fcb => ?_
      rw [State.roster_createPtcb]
      refine inFlight_spawn (r := s'.roster) ?_ ..
      rw [roster]
      exact fresh
    · exact inherited.frame rfl rfl (fun _ => id) fun _ => rfl

theorem boot (booted : machine.initial s) : Streams s := by
  obtain ⟨closed, stream, same⟩ := files_boot booted
  have none : s.refs = fun _ => 0 := by
    funext fcb
    refine Nat.add_eq_zero_iff.mpr ⟨?_, ?_⟩
    · exact List.countP_eq_zero.mpr fun slot _ => by simp [closed]
    · apply List.countP_eq_zero.mpr
      intro thread live
      have user : s.roster.status thread = .user := user_boot booted thread live
      simp [user, Status.uses]
  refine ⟨?_, fun pid fid fcb slot => ?_⟩
  · rw [same, none]
    constructor
    case nodup => exact List.nodup_range'
    case free =>
      intro fcb
      simp [initializeFiles]
    all_goals simp [initializeFiles]
  · cases (closed pid fid).symm.trans slot

/-- A thread outside the kernel, or in a wait for a process, uses no stream. -/
theorem idle_user (user : s.threads.status thread = .user) (fcb : FcbRef) :
    (s.threads.status thread).uses fcb = false := by
  rw [user]
  rfl

theorem rxReady (streams : Streams s) : Streams s.rxReady := by
  refine streams.of_files ?_ fun fcb => by rw [State.roster_rxReady]
  unfold State.rxReady
  exact State.foldl_same files (fun s devno => by rfl) _ s

theorem files_recordJoin (serial : Nat) (exitval : Pointer) (result : Option Int) :
    files (s.recordJoin serial exitval result) = files s := by
  unfold State.recordJoin
  split <;> rfl

theorem files_joinLoop (ptcb : PtcbRef) (exitval : Pointer) (serial : Nat) :
    files (s.joinLoop thread ptcb exitval serial) = files s := by
  obtain ⟨refCount, unref⟩ := State.unrefPtcb_eq (s := s) ptcb
  cases detached : s.heap.detached ptcb
  · obtain ⟨-, same⟩ | ⟨-, same⟩ := State.joinLoop_undetached detached thread exitval serial
    · rw [same]
      rfl
    · rw [same, unref]
      exact files_recordJoin ..
  · rw [State.joinLoop_detached detached, unref]
    exact files_recordJoin ..

theorem files_sysThreadJoin (tid : PtcbRef) (exitval : Pointer) :
    files (s.sysThreadJoin thread tid exitval) = files s := by
  obtain same | same | ⟨-, -, ⟨-, -, same⟩ | ⟨-, -, same⟩ | ⟨-, same⟩⟩ :=
    State.sysThreadJoin_cases (s := s) thread tid exitval
  all_goals rw [same]
  · rfl
  · rfl
  · exact files_recordJoin ..
  · exact files_recordJoin ..
  · rfl

theorem specificLoop (streams : Streams s) (idle : ∀ fcb, (s.threads.status thread).uses fcb = false)
    {child : Pid} (used : s.pt.pstate child ≠ .free) (status : Pointer) :
    Streams (s.specificLoop thread child status) := by
  obtain ⟨-, same⟩ | ⟨ended, same⟩ := State.specificLoop_cases (s := s) thread child status
  · rw [same]
    exact streams.become idle (fun _ => rfl) rfl (State.roster_kernelWait ..)
  · have zombie : s.pt.pstate child = .zombie := by
      cases state : s.pt.pstate child with
      | free => exact absurd state used
      | alive => exact absurd state ended
      | zombie => rfl
    rw [same]
    exact (streams.cleanupZombie zombie status).become idle (fun _ => rfl) rfl
      (State.roster_ret ..)

/-- A child that is still waited for when the thread resumes has not been
reaped by another one. -/
theorem resume {ready : Nat} (streams : Streams s) (inv : CensusInv s.census)
    (child : s.childKept (.resume thread ready) = true)
    (moved : Kernel.act s (.resume thread ready) = some t) : Streams t := by
  cases acted_of_act moved with
  | resumeSpecific _ _ waited status back =>
    have used := childKept_iff.mp child thread ready waited status rfl back.waits
    exact streams.specificLoop (fun fcb => by rw [back.waits]; rfl) used status
  | resumeJoin _ _ target exitval serial back =>
    obtain ⟨status, becomes, rfl | rfl⟩ :=
      State.roster_joinLoop (s := s) thread target exitval serial
    all_goals
      exact streams.become (fun fcb => by rw [back.waits]; rfl) (fun _ => rfl)
        (files_joinLoop ..) becomes
  | resumeAny _ _ status back =>
    exact streams.anyLoop inv (fun fcb => by rw [back.waits]; rfl) status
  | resumeExit _ _ exitval back resumes =>
    have idle : ∀ fcb, (s.threads.status thread).uses fcb = false :=
      fun fcb => by rw [back.waits]; rfl
    unfold State.exitResume at resumes
    split at resumes
    · obtain rfl := Option.some.inj resumes
      exact streams.become idle (fun _ => rfl) rfl (State.roster_kernelWait ..)
    next child _ exited =>
      obtain ⟨large, zombie, -, reaps⟩ := State.reapExited_first inv exited 0
      rw [reaps] at resumes
      have cleaned : CensusInv (s.cleanupZombie child 0).census := inv.reap large zombie
      exact (streams.cleanupZombie zombie 0).exitRounds cleaned idle resumes
  | resumeRead _ _ _ _ _ back => exact streams.resumeRead inv back.live back.waits ready

/-- Every step keeps the counts, unless a thread goes on with a child that has
been reaped. -/
theorem act {label : Label} (streams : Streams s) (inv : CensusInv s.census)
    (child : s.childKept label = true) (moved : act s label = some t) : Streams t := by
  have idle : ∀ {thread}, s.calls thread = true → ∀ fcb, (s.threads.status thread).uses fcb = false :=
    fun calls => idle_user (State.calls_iff.mp calls).2.1
  cases acted_of_act moved with
  | exec caller call argl args bytes ptcb tcb calls fresh =>
    obtain ⟨-, -, -, new⟩ := State.fresh_iff.mp fresh
    have made : Streams (s.exec (s.curproc caller) call argl args bytes ptcb tcb).2 :=
      streams.exec inv call argl args bytes ptcb new
    refine made.become ?_ (fun _ => rfl) rfl rfl
    intro fcb
    change ((s.exec (s.curproc caller) call argl args bytes ptcb tcb).2.roster.status caller).uses
      fcb = false
    obtain same | ⟨pid, same⟩ :=
      State.roster_exec (s := s) (s.curproc caller) call argl args bytes ptcb tcb
    · rw [same]
      exact idle calls fcb
    · rw [same]
      simp only [Roster.spawn, update_apply]
      split
      · rfl
      · exact idle calls fcb
  | createThread caller task argl args ptcb tcb calls fresh =>
    obtain ⟨-, -, -, new⟩ := State.fresh_iff.mp fresh
    have user := (State.calls_iff.mp calls).2.1
    have made : Streams (s.createPtcb (s.curproc caller) task argl args ptcb tcb) :=
      streams.frame rfl rfl (fun _ => id) fun fcb => inFlight_spawn (r := s.roster) new ..
    refine made.ret ?_ ptcb
    change update s.threads.status tcb .user caller = .user
    rw [update_apply, user, ite_self]
  | threadJoin caller tid exitval calls =>
    obtain stays | ⟨status, becomes, rfl | rfl⟩ :=
      State.roster_sysThreadJoin (s := s) caller tid exitval
    · exact streams.of_files (files_sysThreadJoin ..) fun fcb => by rw [stays]
    all_goals
      exact streams.become (idle calls) (fun _ => rfl) (files_sysThreadJoin ..) becomes
  | threadDetach caller tid calls =>
    have same : files (s.sysThreadDetach caller tid) = files s := by
      unfold State.sysThreadDetach
      split
      · rfl
      · split <;> rfl
    obtain stays | becomes := State.roster_sysThreadDetach (s := s) caller tid
    · exact streams.of_files same fun fcb => by rw [stays]
    · exact streams.become (idle calls) (fun _ => rfl) same becomes
  | threadExit _ _ calls exited => exact streams.sysThreadExit (idle calls) exited
  | exit _ _ calls exited =>
    have exits := exited
    unfold State.sysExit at exits
    split at exits
    · exact streams.exitRounds inv (idle calls) exits
    · exact streams.sysThreadExit (idle calls) exits
  | waitChild caller cpid status calls =>
    obtain same | ⟨waited, -, used, -, same⟩ | ⟨-, -, same⟩ :=
      State.sysWaitChild_cases (s := s) caller cpid status
    · rw [same]
      exact streams.ret (State.calls_iff.mp calls).2.1 noproc
    · rw [same]
      exact streams.specificLoop (idle calls) used status
    · rw [same]
      exact streams.anyLoop inv (idle calls) status
  | openNull _ calls => exact streams.openStream inv calls .null
  | openTerminal _ termno calls => exact streams.openStream inv calls (.serial termno)
  | close _ fd calls => exact streams.sysClose inv calls fd
  | dup2 _ oldfd newfd calls => exact streams.sysDup2 inv calls oldfd newfd
  | read _ fd size ready calls => exact streams.sysRead inv calls fd size ready
  | write _ fd size ready calls => exact streams.sysWrite inv calls fd size ready
  | resumeSpecific | resumeAny | resumeExit | resumeJoin | resumeRead =>
    exact streams.resume inv child moved
  | poll _ ready _ _ _ live writes => exact streams.pollWrite inv live writes ready
  | rxReady => exact streams.rxReady
  | store => exact streams.of_files rfl fun _ => rfl
end Streams

/-- Every call but `ThreadJoin` and a `WaitChild` for a given child. -/
def Label.waitsForNobody : Label → Bool
  | .threadJoin .. => false
  | .waitChild _ cpid _ => cpid = noproc
  | _ => true

def streamMachine : Machine State Label := machine.restrict fun _ label => label.waitsForNobody

/-- What its runs keep. -/
structure StreamsSound (s : State) : Prop where
  sound : Sound s
  streams : Streams s
  nobody : ∀ thread wait, s.roster.Awaits thread wait → wait.named = false

namespace StreamsSound
variable {s t : State} {label : Label}

theorem boot (booted : machine.initial s) : StreamsSound s where
  sound := .boot booted
  streams := .boot booted
  nobody := fun thread wait awaits => absurd awaits (not_awaits_boot booted thread wait)

theorem step (before : StreamsSound s) (moved : streamMachine.step s label = some t) :
    StreamsSound t := by
  obtain ⟨offered, moved⟩ := Machine.restrict_step.mp moved
  have acted := act_of_step moved
  have child : s.childKept label = true := by
    rw [childKept_iff]
    rintro thread ready child status rfl waits
    obtain ⟨back, -⟩ := resume_of_waits waits acted
    cases before.nobody thread _ back.awaits
  have target : s.targetKept label = true := by
    rw [targetKept_iff]
    rintro thread ready target exitval serial rfl waits
    obtain ⟨back, -⟩ := resume_of_waits waits acted
    cases before.nobody thread _ back.awaits
  refine ⟨before.sound.step child target moved,
    before.streams.act before.sound.census child acted, ?_⟩
  intro thread wait awaits
  obtain waited | ⟨-, may⟩ := act_awaits acted awaits
  · exact before.nobody thread wait waited
  · cases wait with
    | specificChild child status =>
      obtain ⟨⟨cpid, rfl, named⟩, -⟩ := may
      exact absurd (by simpa [Label.waitsForNobody] using offered) named
    | join target exitval serial =>
      obtain ⟨rfl, -⟩ := may
      cases offered
    | anyChild | exitLoop | read => rfl

end StreamsSound

/-- Every FCB is free, without slots or calls that use it, or its counter is
the number of both, and a stream that was opened has been closed exactly when
there are none. -/
structure ReferenceCounts (s : State) : Prop where
  free_nodup : s.ft.fcbFreelist.Nodup
  free : ∀ fcb ∈ s.ft.fcbFreelist, slots s.pt.fidt fcb = 0 ∧ inFlight s.roster fcb = 0
  counted : ∀ fcb < maxFiles, fcb ∉ s.ft.fcbFreelist →
    (s.ft.refcount fcb).toNat = slots s.pt.fidt fcb + inFlight s.roster fcb
  whole : ∀ fcb, fcb < maxFiles ↔
    fcb ∈ s.ft.fcbFreelist ∨ 0 < slots s.pt.fidt fcb + inFlight s.roster fcb
  inside : ∀ pid fid fcb, s.pt.fidt pid fid = some fcb → pid < maxProc ∧ fid < maxFileid
  closed : ∀ fcb, s.ft.closed fcb +
    (if slots s.pt.fidt fcb + inFlight s.roster fcb = 0 then 0 else 1) = s.ft.opened fcb

theorem Streams.referenceCounts {s : State} (streams : Streams s) : ReferenceCounts s := by
  obtain ⟨nodup, free, inside, count, closed⟩ := streams.counted
  constructor
  case free_nodup => exact nodup
  case free =>
    intro fcb member
    exact Nat.add_eq_zero_iff.mp ((free fcb).mp member).2
  case counted =>
    intro fcb small used
    refine count fcb fun none => used ((free fcb).mpr ⟨small, none⟩)
  case whole =>
    intro fcb
    have held := inside fcb
    have member := free fcb
    change fcb < maxFiles ↔ fcb ∈ s.ft.fcbFreelist ∨ 0 < s.refs fcb
    rw [member]
    constructor
    · intro small
      by_cases none : s.refs fcb = 0
      · exact .inl ⟨small, none⟩
      · exact .inr (Nat.pos_of_ne_zero none)
    · rintro (⟨small, -⟩ | positive)
      · exact small
      · exact held (Nat.pos_iff_ne_zero.mp positive)
  case inside =>
    intro pid fid fcb slot
    obtain ⟨process, file, -⟩ := streams.open_slot pid fid fcb slot
    exact ⟨process, file⟩
  case closed => exact closed

/-- **Reference counts are right** in every state of every run of the calls
that open, copy, use and close streams and make and end threads and
processes. -/
theorem reference_counts {s : State} (reached : streamMachine.Reachable s) : ReferenceCounts s := by
  have kept : StreamsSound s :=
    reached.induction (fun _ => .boot) fun _ _ _ before moved => before.step moved
  exact kept.streams.referenceCounts

/-- A terminal is inherited by a child, whose read of it is still in flight
when both slots have been closed. -/
def overtaken : List Label :=
  [.openTerminal 0 0, .exec 0 1 0 0 [] 2 1, .createThread 1 1 0 0 3 2, .read 1 0 8 0, .close 0 0,
    .close 2 0]

theorem reference_counts_overtaken : ∃ s, overtaken.foldlM streamMachine.step booted = some s ∧
    s.ft.refcount 0 = 1 ∧ s.ft.opened 0 = 1 ∧ s.ft.closed 0 = 0 ∧ ReferenceCounts s := by
  have reached : streamMachine.Reachable booted := .start booted_initial
  exact ⟨_, rfl, rfl, rfl, rfl, reference_counts (reached.replay overtaken rfl)⟩

end TinyOs.Kernel
