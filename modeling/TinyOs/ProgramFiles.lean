import TinyOs.FcbReserve
import TinyOs.UserProgram

/-! The open files of a process, as the system calls of its program change them. -/
namespace TinyOs.Kernel
open Function Library

namespace State
variable {s : State} {thread : TcbRef} {pid : Pid} {fcb : FcbRef}

/-- `OpenTerminal` takes the smallest free fid. -/
theorem openStream_first {fid : Nat} {more : List Nat} {rest : List FcbRef} {device : Device}
    (first : s.freeFids (s.curproc thread) = fid :: more) (free : s.ft.fcbFreelist = fcb :: rest)
    (there : s.deviceOpen device = true) :
    s.openStream thread device = ({ s.setFid (s.curproc thread) fid (some fcb) with
      ft := { takeFcb s.ft fcb rest with
        stream := update s.ft.stream fcb device
        opened := update s.ft.opened fcb (s.ft.opened fcb + 1) } }).ret thread fid := by
  have reserves := fcbReserve_eq s (s.curproc thread) 1
  simp only [first, free, List.length_cons, Nat.not_lt.mpr (Nat.le_add_left 1 _), if_false,
    List.take_succ_cons, List.take_zero, List.drop_succ_cons, List.drop_zero, List.zip_cons_cons,
    List.zip_nil_right, List.map_cons, List.map_nil, updateAll_cons, updateAll_nil,
    List.foldl_cons, List.foldl_nil, update_self, update_idem] at reserves
  unfold openStream
  simp only [reserves]
  exact if_pos there

theorem freeFids_first {fid : Nat} (small : fid < maxFileid) (unused : s.pt.fidt pid fid = none)
    (used : ∀ f < fid, s.pt.fidt pid f ≠ none) : ∃ more, s.freeFids pid = fid :: more := by
  have split : List.range maxFileid =
      List.range fid ++ fid :: List.range' (fid + 1) (maxFileid - (fid + 1)) := by
    have joined := List.range'_append_1 (s := 0) (m := fid) (n := maxFileid - (fid + 1) + 1)
    rw [Nat.zero_add, List.range'_succ] at joined
    rw [List.range_eq_range', List.range_eq_range', joined]
    congr 1
    omega
  have before : (List.range fid).filter (fun f => (s.pt.fidt pid f).isNone) = [] := by
    rw [List.filter_eq_nil_iff]
    intro f member
    simpa using used f (List.mem_range.mp member)
  refine ⟨(List.range' (fid + 1) (maxFileid - (fid + 1))).filter
    fun f => (s.pt.fidt pid f).isNone, ?_⟩
  rw [freeFids, split, List.filter_append, before, List.nil_append, List.filter_cons, unused]
  rfl

/-- `Dup2` makes a fid another name of an open stream. -/
theorem sysDup2_open {oldfd newfd : Nat} (small : oldfd < maxFileid) (small' : newfd < maxFileid)
    (slot : s.pt.fidt (s.curproc thread) oldfd = some fcb) :
    ∃ ft : FileTable, ft.stream = s.ft.stream ∧ s.sysDup2 thread oldfd newfd =
      { s.setFid (s.curproc thread) newfd (some fcb) with ft := ft }.ret thread 0 := by
  have legal : ∀ fd : Nat, fd < maxFileid →
      s.getFcb (s.curproc thread) fd = s.pt.fidt (s.curproc thread) fd := by
    intro fd small
    refine (if_neg ?_).trans (congrArg _ (Int.toNat_natCast fd))
    omega
  unfold sysDup2
  rw [if_neg (by omega)]
  dsimp only
  rw [legal oldfd small, slot, legal newfd small']
  dsimp only
  split
  next same =>
    refine ⟨s.ft, rfl, ?_⟩
    have kept : update (s.pt.fidt (s.curproc thread)) newfd (some fcb) =
        s.pt.fidt (s.curproc thread) := by
      rw [← same, update_eq_self]
    simp [setFid, kept]
  next =>
    refine ⟨_, ?_, rfl⟩
    cases s.pt.fidt (s.curproc thread) newfd with
    | none => rfl
    | some other => exact (fileBase_fcbDecref s.ft other).1

theorem sysClose_open {fd : Nat} (small : fd < maxFileid) :
    ∃ ft : FileTable, ft.stream = s.ft.stream ∧ s.sysClose thread fd =
      { s.setFid (s.curproc thread) fd none with ft := ft }.ret thread 0 := by
  have legal : s.getFcb (s.curproc thread) fd = s.pt.fidt (s.curproc thread) fd := by
    refine (if_neg ?_).trans (congrArg _ (Int.toNat_natCast fd))
    omega
  unfold sysClose
  rw [legal]
  cases slot : s.pt.fidt (s.curproc thread) fd with
  | none =>
    refine ⟨s.ft, rfl, ?_⟩
    have kept : update (s.pt.fidt (s.curproc thread)) fd none = s.pt.fidt (s.curproc thread) := by
      rw [← slot, update_eq_self]
    have inside : (0 : Int) ≤ fd ∧ (fd : Int) < maxFileid := by omega
    simp [setFid, kept, inside]
  | some other => exact ⟨_, (fileBase_fcbDecref s.ft other).1, rfl⟩

/-- The loop of `sys_Exec` copies the FIDT. -/
theorem inheritFidt_fidt {curproc newproc : Pid} (apart : curproc ≠ newproc) :
    (s.inheritFidt curproc newproc).pt.fidt = update s.pt.fidt newproc fun fid =>
      if fid < maxFileid then s.pt.fidt curproc fid else s.pt.fidt newproc fid := by
  have loop : ∀ (fids : List Nat) (s : State),
      (fids.foldl (inheritFid curproc newproc) s).pt.fidt = update s.pt.fidt newproc fun fid =>
        if fid ∈ fids then s.pt.fidt curproc fid else s.pt.fidt newproc fid := by
    intro fids
    induction fids with
    | nil =>
      intro s
      simp
    | cons first rest ih =>
      intro s
      have copied : (inheritFid curproc newproc s first).pt.fidt = update s.pt.fidt newproc
          (update (s.pt.fidt newproc) first (s.pt.fidt curproc first)) := by
        unfold inheritFid
        dsimp only
        split <;> rfl
      rw [List.foldl_cons, ih, copied, update_idem, update_self, update_of_ne apart]
      congr 1
      funext fid
      rw [update_apply]
      grind
  have copied := loop (List.range maxFileid) s
  simp only [List.mem_range] at copied
  exact copied

/-- A new process has the streams of its parent. -/
theorem exec_fidt {curproc newproc : Pid} (first : s.pt.pcbFreelist = some newproc)
    (large : 2 ≤ newproc) (apart : curproc ≠ newproc) (call : Task) (argl : Int) (args : Pointer)
    (bytes : List (BitVec 8)) (ptcb : PtcbRef) (tcb : TcbRef) {fid : Nat}
    (small : fid < maxFileid) :
    (s.exec curproc call argl args bytes ptcb tcb).2.pt.fidt newproc fid =
      s.pt.fidt curproc fid := by
  have inherited : ((s.takePcb newproc).inherit curproc newproc).pt.fidt newproc fid =
      s.pt.fidt curproc fid := by
    rw [inherit, if_neg (Nat.not_le.mpr large), inheritFidt_fidt apart, update_self, if_pos small]
    rfl
  refine Eq.trans ?_ inherited
  unfold exec acquirePcb
  simp only [first]
  split <;> rfl

end State

/-- A fid of a process is open on a terminal. -/
def State.OnTerminal (s : State) (pid : Pid) (fid i : Nat) : Prop :=
  ∃ fcb, s.pt.fidt pid fid = some fcb ∧ s.ft.stream fcb = .serial i

section
variable {s t : State} {thread : TcbRef} {pid : Pid}

/-- `OpenTerminal` opens the first free fid, on an FCB that no other fid has. -/
theorem opened (tended : Tended pid thread s) {i fid : Nat} {more : List Nat}
    (first : s.freeFids pid = fid :: more) (room : s.ft.fcbFreelist ≠ [])
    (there : i < s.serialPorts) :
    ∃ t : State, s.sysOpenTerminal thread i = t.ret thread fid ∧ t.serialPorts = s.serialPorts ∧
      t.OnTerminal pid fid i ∧ (∀ f ≠ fid, t.pt.fidt pid f = s.pt.fidt pid f) ∧
      ∀ f j, f ≠ fid → s.OnTerminal pid f j → t.OnTerminal pid f j := by
  obtain ⟨fcb, rest, free⟩ := List.exists_cons_of_ne_nil room
  have listed := (tended.undeceived.streams.counted.free fcb).mp (by simp [free])
  rw [← tended.mine] at first
  have opens := @State.openStream_first _ _ _ _ _ _ (.serial i) first free (decide_eq_true there)
  rw [tended.mine] at opens
  refine ⟨_, opens, rfl, ⟨fcb, ?_, update_self ..⟩, fun f apart => ?_, ?_⟩
  · simp [State.setFid]
  · simp [State.setFid, apart]
  · rintro f j apart ⟨other, slot, device⟩
    have held := tended.undeceived.streams.held slot
    have different : other ≠ fcb := by
      rintro rfl
      exact held listed.2
    refine ⟨other, ?_, (update_of_ne different ..).trans device⟩
    simpa [State.setFid, apart] using slot

/-- `Dup2` and `Close` change one slot and no stream. -/
structure SlotSet (pid : Pid) (thread : TcbRef) (fid : Nat) (value : Option FcbRef) (s t : State) :
    Prop where
  others : ∀ f ≠ fid, t.pt.fidt pid f = s.pt.fidt pid f
  here : t.pt.fidt pid fid = value
  kept : ∀ f j, f ≠ fid → s.OnTerminal pid f j → t.OnTerminal pid f j
  set : ∀ j fcb, value = some fcb → s.ft.stream fcb = .serial j → t.OnTerminal pid fid j
  ports : t.serialPorts = s.serialPorts
  back : ∀ {Point : Type} (program : Program Point) (point arrived : Point),
    program.arrive thread point t = some arrived →
      arrived = program.next point 0 ∧ t.threads.status thread = .user

theorem slot_set {fid : Nat} {value : Option FcbRef} {ft : FileTable}
    (stream : ft.stream = s.ft.stream)
    (same : t = { s.setFid pid fid value with ft := ft }.ret thread 0) :
    SlotSet pid thread fid value s t := by
  subst same
  have others : ∀ f ≠ fid, ({ s.setFid pid fid value with ft := ft }.ret thread 0).pt.fidt pid f =
      s.pt.fidt pid f := fun f apart => by simp [State.ret, State.setFid, apart]
  have here : ({ s.setFid pid fid value with ft := ft }.ret thread 0).pt.fidt pid fid = value := by
    simp [State.ret, State.setFid]
  constructor
  case others => exact others
  case here => exact here
  case kept =>
    rintro f j apart ⟨fcb, slot, device⟩
    exact ⟨fcb, (others f apart).trans slot, (congrFun stream fcb).trans device⟩
  case set =>
    exact fun j fcb same device => ⟨fcb, here.trans same, (congrFun stream fcb).trans device⟩
  case ports => rfl
  case back =>
    exact fun program point arrived arrives => ⟨Program.arrive_ret arrives, update_self ..⟩

theorem dup_set (tended : Tended pid thread s) {oldfd newfd : Nat} (small : oldfd < maxFileid)
    (small' : newfd < maxFileid) {fcb : FcbRef} (slot : s.pt.fidt pid oldfd = some fcb) :
    SlotSet pid thread newfd (some fcb) s (s.sysDup2 thread oldfd newfd) := by
  obtain ⟨ft, stream, copies⟩ :=
    @State.sysDup2_open s thread _ _ _ small small' (tended.mine ▸ slot)
  rw [tended.mine] at copies
  exact slot_set stream copies

theorem close_set (tended : Tended pid thread s) {fd : Nat} (small : fd < maxFileid) :
    SlotSet pid thread fd none s (s.sysClose thread fd) := by
  obtain ⟨ft, stream, closes⟩ := @State.sysClose_open s thread _ small
  rw [tended.mine] at closes
  exact slot_set stream closes

/-- `Exec` makes a child with the streams of its parent. -/
theorem exec_child (tended : Tended pid thread s) {call : Task} {argl : Int} {args : Pointer}
    {bytes : List (BitVec 8)} {ptcb : PtcbRef} {tcb : TcbRef} {child : Pid}
    (moved : undeceivedMachine.step s (.exec thread call argl args bytes ptcb tcb) = some t)
    (made : s.pt.pcbFreelist = some child) :
    t.pt.pstate child = .alive ∧ t.pt.parent child = some pid ∧
      (∀ fid, t.pt.fidt child fid = s.pt.fidt pid fid) ∧ t.ft.stream = s.ft.stream := by
  have after := tended.undeceived.step moved
  have acted := act_of_step (Machine.restrict_step.mp moved).2
  have inv := tended.undeceived.sound.census
  have large : 2 ≤ child := inv.free_large made
  have apart : s.curproc thread ≠ child := by
    rintro rfl
    have entries := inv.entries
    change FreeEntries s.pt.pstate s.pt.parent s.pt.pcbFreelist s.pt.processCount at entries
    rw [made] at entries
    have alive := tended.alive
    rw [← tended.mine] at alive
    cases alive.symm.trans (entries.pop none).1
  have mine := tended.mine
  cases acted_of_act acted
  have forked := @State.census_exec s (s.curproc thread) _ made large call argl args bytes ptcb tcb
  have base := State.fileBase_exec inv tended.alive (s.curproc thread) call argl args bytes ptcb tcb
  simp only [State.fileBase, Prod.mk.injEq] at base
  refine ⟨(congrFun (congrArg Census.pstate forked) child).trans ?_,
    (congrFun (congrArg Census.parent forked) child).trans ?_, fun fid => ?_, base.2.1⟩
  · split <;> exact update_self ..
  · rw [mine]
    split <;> exact update_self ..
  · by_cases small : fid < maxFileid
    · rw [← mine]
      exact State.exec_fidt (s := s) made large apart call argl args bytes ptcb tcb small
    · have beyond : ∀ {s : State}, Streams s → ∀ pid, s.pt.fidt pid fid = none := by
        intro s streams pid
        cases slot : s.pt.fidt pid fid with
        | none => rfl
        | some fcb => exact absurd (streams.open_slot pid fid fcb slot).2.1 small
      rw [beyond after.streams, beyond tended.undeceived.streams]

end

end TinyOs.Kernel
