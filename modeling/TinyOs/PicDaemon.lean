import TinyOs.Library.Machine

/-! The serial devices between the threads and the PIC daemon: the `ready` flags
of `bios.c`, its interrupts, and the readers that `serial_rx_handler` wakes. One
step is one access to what the others see; the other ends of the FIFOs, the
clock and the failures of `select` are free. -/
namespace TinyOs.PicDaemon
open Function Library

/-- An `io_device`: the console or the keyboard of a terminal. -/
inductive Device where
  | con (term : Nat)
  | kbd (term : Nat)
  deriving DecidableEq, Repr

structure IoDevice where
  ready : Bool
  /-- `last_int`, in milliseconds. -/
  lastInt : BitVec 64
  deriving DecidableEq, Repr

/-- Where the PIC daemon is in its loop. -/
inductive PicPoint where
  | head
  /-- Before `check_terminal`, in the loop that fills the sets. -/
  | prepare (i : Nat)
  | select
  /-- In the loop over the devices. -/
  | check (d : Device)
  /-- Before `raise_interrupt`. -/
  | raise (d : Device)
  /-- Behind the loop. -/
  | passed
  deriving DecidableEq, Repr

/-- What a thread does with a device, in `serial_read` or `serial_write`. -/
inductive ThreadPoint where
  | outside
  /-- Before the system call of `io_device_read` or `io_device_write`. -/
  | transfer (d : Device)
  /-- Behind it, with `rc!=1`. -/
  | failed (d : Device)
  /-- The call of the BIOS has returned 0. -/
  | refused (d : Device)
  /-- In `kernel_wait(&dcb->rx_ready, SCHED_IO)`. Of the history it keeps the last
  interrupt of the keyboard before the wait. -/
  | waiting (i : Nat) (lastInt : BitVec 64)
  deriving DecidableEq, Repr

structure State (Thread : Type*) where
  nterm : Nat
  device : Device → IoDevice
  /-- How many bytes a FIFO has, or has room for. -/
  available : Device → Nat
  /-- The other end of the keyboard FIFO is there. -/
  connected : Nat → Bool
  /-- `readfds` and `writefds`. -/
  fdset : Device → Bool
  systemClock : BitVec 64
  pic : PicPoint
  /-- `intpending[SERIAL_RX_READY]` of core 0, which handles all of them. -/
  rxPending : Bool
  thread : Thread → ThreadPoint
  /-- History: a transfer has failed since the last interrupt. -/
  refused : Device → Bool
  /-- History: what this turn of the loop must interrupt. -/
  owed : Device → Bool

/-- Every step there is. -/
inductive Label (Thread : Type*) where
  /-- `bios_read_serial` or `bios_write_serial` is called. -/
  | call (thread : Thread) (d : Device)
  | transfer (thread : Thread)
  /-- The test of `ready` after a failure. -/
  | refuse (thread : Thread)
  /-- `serial_read` breaks off, or `serial_write` yields. -/
  | giveUp (thread : Thread)
  | wait (thread : Thread)
  /-- `serial_rx_handler` runs. -/
  | handle
  /-- `select` returns, with the clock that is read next. -/
  | select (clock : BitVec 64)
  | selectFails (clock : BitVec 64)
  /-- Any other step of the PIC daemon. -/
  | pic
  /-- Bytes arrive from the terminal, or are taken by it. -/
  | supply (d : Device) (count : Nat)
  | connect (i : Nat) (there : Bool)

def serialTimeout : BitVec 64 := 300

namespace Device

def term : Device → Nat
  | .con i | .kbd i => i

/-- The place in the loop over the devices. -/
def place : Device → Nat
  | .con i => 2 * i
  | .kbd i => 2 * i + 1

/-- The device that the loop looks at next. -/
def next : Device → Device
  | .con i => .kbd i
  | .kbd i => .con (i + 1)

end Device

section Machine
variable {Thread : Type*} [DecidableEq Thread]

def State.setThread (s : State Thread) (thread : Thread) (point : ThreadPoint) : State Thread :=
  { s with thread := update s.thread thread point }

/-- `Cond_Broadcast(&dcb->rx_ready)` for all terminals. A reader that wakes up
calls `bios_read_serial` again. -/
def serialRxHandler (s : State Thread) : State Thread :=
  { s with
    rxPending := false
    thread := fun thread => match s.thread thread with
      | .waiting i _ => .transfer (.kbd i)
      | point => point }

/-- The timeout of a device has expired. -/
def State.expired (s : State Thread) (d : Device) : Bool :=
  serialTimeout < s.systemClock - (s.device d).lastInt

/-- The steps of `PIC_daemon`, apart from `select`. -/
def stepPic (s : State Thread) : Option (State Thread) :=
  match s.pic with
  | .head => some
      { s with
        fdset := fun _ => false
        owed := fun d => s.refused d && d.term < s.nterm
        pic := .prepare 0 }
  | .prepare i =>
      if i < s.nterm then
        if s.connected i then some
          { s with
            fdset := fun d => if d.term = i then !(s.device d).ready else s.fdset d
            pic := .prepare (i + 1) }
        else some
          { s with
            owed := fun d => s.owed d && d.term != i
            pic := .prepare (i + 1) }
      else some { s with pic := .select }
  | .select => none
  | .check d =>
      if d.term < s.nterm then
        if s.fdset d || s.expired d then some
          { s with
            device := update s.device d ⟨true, s.systemClock⟩
            pic := .raise d }
        else some { s with pic := .check d.next }
      else some { s with pic := .passed }
  | .raise d => some
      { s with
        rxPending := s.rxPending || d == .kbd d.term
        refused := update s.refused d false
        owed := update s.owed d false
        pic := .check d.next }
  | .passed => some { s with pic := .head }

def step (s : State Thread) : Label Thread → Option (State Thread)
  | .call thread d =>
      if s.thread thread = .outside ∧ d.term < s.nterm then
        some (s.setThread thread (.transfer d))
      else none
  | .transfer thread =>
      match s.thread thread with
      | .transfer d =>
        if 0 < s.available d then some
          ({ s with
            available := update s.available d (s.available d - 1) }.setThread thread .outside)
        else some (s.setThread thread (.failed d))
      | _ => none
  | .refuse thread =>
      match s.thread thread with
      | .failed d => some
          ({ s with
            device := update s.device d { s.device d with ready := false }
            refused := update s.refused d true }.setThread thread (.refused d))
      | _ => none
  | .giveUp thread =>
      match s.thread thread with
      | .refused _ => some (s.setThread thread .outside)
      | _ => none
  | .wait thread =>
      match s.thread thread with
      | .refused (.kbd i) => some (s.setThread thread (.waiting i (s.device (.kbd i)).lastInt))
      | _ => none
  | .handle => if s.rxPending then some (serialRxHandler s) else none
  | .select clock =>
      if s.pic = .select then some
        { s with
          -- A FIFO without its other end counts as ready, too.
          fdset := fun d => s.fdset d && (decide (0 < s.available d) || !s.connected d.term)
          owed := fun d => s.owed d && decide (0 < s.available d)
          systemClock := clock
          pic := .check (.con 0) }
      else none
  | .selectFails clock =>
      if s.pic = .select then some { s with systemClock := clock, pic := .head } else none
  | .pic => stepPic s
  | .supply d count => some { s with available := update s.available d (s.available d + count) }
  | .connect i there => some { s with connected := update s.connected i there }

/-- The terminals are open, and the PIC daemon enters its loop. -/
def boot (nterm : Nat) (ready : Device → Bool) (available : Device → Nat) (connected : Nat → Bool)
    (clock : BitVec 64) : State Thread where
  nterm := nterm
  device := fun d => ⟨ready d, clock⟩
  available := available
  connected := connected
  fdset := fun _ => false
  systemClock := clock
  pic := .head
  rxPending := false
  thread := fun _ => .outside
  refused := fun _ => false
  owed := fun _ => false

def machine (Thread : Type*) [DecidableEq Thread] : Machine (State Thread) (Label Thread) where
  initial s := ∃ nterm ready available connected clock,
    s = boot nterm ready available connected clock
  step := step

/-! ### The invariant -/

/-- The device of a thread is one of a terminal. -/
def ThreadPoint.Within (nterm : Nat) : ThreadPoint → Prop
  | .outside => True
  | .transfer d | .failed d | .refused d => d.term < nterm
  | .waiting i _ => i < nterm

/-- How far the loop is with a device that it owes an interrupt. -/
def State.Owes (s : State Thread) (d : Device) : Prop :=
  match s.pic with
  | .head => True
  | .prepare i => if d.term < i then s.fdset d = true else s.refused d = true
  | .select => s.fdset d = true
  | .check e | .raise e => s.fdset d = true ∧ e.place ≤ d.place
  | .passed => False

/-- The loop has looked at a device. -/
def State.Handled (s : State Thread) (d : Device) : Prop :=
  match s.pic with
  | .check e => d.place < e.place
  | .raise e => d.place ≤ e.place
  | .passed => d.term < s.nterm
  | _ => False

structure Inv (s : State Thread) : Prop where
  within : ∀ thread, (s.thread thread).Within s.nterm
  notReady : ∀ d, s.refused d = true → (s.device d).ready = false ∨ s.pic = .raise d
  owes : ∀ d, s.pic ≠ .head → s.owed d = true → d.term < s.nterm ∧ s.Owes d
  handled : ∀ d, s.Handled d → s.systemClock - (s.device d).lastInt ≤ serialTimeout
  waiting : ∀ thread i last, s.thread thread = .waiting i last →
    (s.device (.kbd i)).lastInt = last ∨ s.rxPending = true ∨ s.pic = .raise (.kbd i)

variable {s t : State Thread} {thread : Thread} {d e : Device}

theorem Device.place_next : d.next.place = d.place + 1 := by
  cases d with
  | con i => simp [next, place]
  | kbd i =>
    simp only [next, place]
    omega

theorem Device.place_injective (same : d.place = e.place) : d = e := by
  cases d <;> cases e <;> simp [place] at same ⊢ <;> omega

theorem Device.place_lt (less : d.term < e.term) : d.place < e.place := by
  cases d <;> cases e <;> simp only [place, term] at less ⊢ <;> omega

omit [DecidableEq Thread] in
theorem boot_inv (nterm : Nat) (ready : Device → Bool) (available : Device → Nat)
    (connected : Nat → Bool) (clock : BitVec 64) :
    Inv (boot nterm ready available connected clock : State Thread) where
  within _ := trivial
  notReady _ refused := nomatch refused
  owes _ away := absurd rfl away
  handled _ handled := handled.elim
  waiting _ _ _ waits := nomatch waits

namespace Inv

/-- A step of a thread that only moves it on. -/
theorem setThread (inv : Inv s) {point : ThreadPoint} (within : point.Within s.nterm)
    (fresh : ∀ i last, point = .waiting i last → (s.device (.kbd i)).lastInt = last) :
    Inv (s.setThread thread point) where
  within other := by
    simp only [State.setThread, update_apply]
    split
    next => exact within
    next => exact inv.within other
  notReady := inv.notReady
  owes := inv.owes
  handled := inv.handled
  waiting other i last waits := by
    simp only [State.setThread, update_apply] at waits
    split at waits
    next => exact .inl (fresh i last waits)
    next => exact inv.waiting other i last waits

omit [DecidableEq Thread] in
theorem refuse (inv : Inv s) :
    Inv { s with
      device := update s.device d { s.device d with ready := false }
      refused := update s.refused d true } where
  within := inv.within
  notReady e refused := by
    by_cases same : e = d
    · subst same
      simp
    · simp only [update_of_ne same] at refused ⊢
      exact inv.notReady e refused
  owes e away owed := by
    obtain ⟨small, owes⟩ := inv.owes e away owed
    refine ⟨small, ?_⟩
    unfold State.Owes at owes ⊢
    cases here : s.pic <;> simp only [here] at owes ⊢
    case prepare i =>
      by_cases same : e = d
      · subst same
        split at owes
        next before => rwa [if_pos before]
        next behind => rw [if_neg behind, update_self]
      · rwa [update_of_ne same]
    all_goals exact owes
  handled e handled := by
    have bound := inv.handled e handled
    by_cases same : e = d
    · subst same
      simpa using bound
    · simpa only [update_of_ne same] using bound
  waiting other i last waits := by
    have kept : (update s.device d { s.device d with ready := false } (.kbd i)).lastInt =
        (s.device (.kbd i)).lastInt := by
      by_cases same : .kbd i = d
      · subst same
        simp
      · rw [update_of_ne same]
    simpa only [kept] using inv.waiting other i last waits

omit [DecidableEq Thread] in
theorem handle (inv : Inv s) : Inv (serialRxHandler s) where
  within thread := by
    have within := inv.within thread
    cases here : s.thread thread <;> simp [serialRxHandler, here, ThreadPoint.Within] at within ⊢
    all_goals exact within
  notReady := inv.notReady
  owes := inv.owes
  handled := inv.handled
  waiting thread i last waits := by
    cases here : s.thread thread <;> simp [serialRxHandler, here] at waits

omit [DecidableEq Thread] in
theorem select (inv : Inv s) (here : s.pic = .select) (clock : BitVec 64) :
    Inv { s with
      fdset := fun d => s.fdset d && (decide (0 < s.available d) || !s.connected d.term)
      owed := fun d => s.owed d && decide (0 < s.available d)
      systemClock := clock
      pic := .check (.con 0) } where
  within := inv.within
  notReady d refused := by
    rcases inv.notReady d refused with notReady | raising
    · exact .inl notReady
    · cases here.symm.trans raising
  owes d _ owed := by
    rw [Bool.and_eq_true, decide_eq_true_eq] at owed
    obtain ⟨small, owes⟩ := inv.owes d (by rw [here]; nofun) owed.1
    unfold State.Owes at owes
    rw [here] at owes
    exact ⟨small, by simp [owes, owed.2], Nat.zero_le _⟩
  handled d handled := absurd handled (Nat.not_lt_zero _)
  waiting thread i last waits := by
    rcases inv.waiting thread i last waits with same | pending | raising
    · exact .inl same
    · exact .inr (.inl pending)
    · cases here.symm.trans raising

omit [DecidableEq Thread] in
/-- A step of the PIC daemon that touches no device. -/
theorem move (inv : Inv s) {point : PicPoint} {owed fdset : Device → Bool}
    (away : ∀ d, s.pic ≠ .raise d)
    (owes : ∀ d, owed d = true → d.term < s.nterm ∧
      State.Owes { s with owed := owed, fdset := fdset, pic := point } d)
    (handled : ∀ d, State.Handled { s with pic := point } d →
      s.systemClock - (s.device d).lastInt ≤ serialTimeout) :
    Inv { s with owed := owed, fdset := fdset, pic := point } where
  within := inv.within
  notReady d refused := .inl ((inv.notReady d refused).resolve_right (away d))
  owes d _ := owes d
  handled := handled
  waiting thread i last waits := by
    rcases inv.waiting thread i last waits with same | pending | raising
    · exact .inl same
    · exact .inr (.inl pending)
    · exact absurd raising (away _)

section
omit [DecidableEq Thread]
variable {i : Nat}

theorem owed_prepare (inv : Inv s) (here : s.pic = .prepare i) (owed : s.owed d = true) :
    d.term < s.nterm ∧ if d.term < i then s.fdset d = true else s.refused d = true := by
  have owes := inv.owes d (by rw [here]; nofun) owed
  unfold State.Owes at owes
  rwa [here] at owes

theorem owed_behind (inv : Inv s) (here : s.pic = .check e ∨ s.pic = .raise e)
    (owed : s.owed d = true) : d.term < s.nterm ∧ s.fdset d = true ∧ e.place ≤ d.place := by
  have owes := inv.owes d (by rcases here with here | here <;> rw [here] <;> nofun) owed
  unfold State.Owes at owes
  rcases here with here | here
  · rwa [here] at owes
  · rwa [here] at owes

theorem head (inv : Inv s) (here : s.pic = .head) :
    Inv { s with
      fdset := fun _ => false
      owed := fun d => s.refused d && d.term < s.nterm
      pic := .prepare 0 } := by
  refine inv.move (by simp [here]) (fun d owed => ?_) fun _ handled => handled.elim
  rw [Bool.and_eq_true, decide_eq_true_eq] at owed
  exact ⟨owed.2, owed.1⟩

/-- A terminal that is there: its devices that are not ready go into the set. -/
theorem prepare_there (inv : Inv s) (here : s.pic = .prepare i) :
    Inv { s with
      fdset := fun d => if d.term = i then !(s.device d).ready else s.fdset d
      pic := .prepare (i + 1) } := by
  have quiet : ∀ d, s.pic ≠ .raise d := by simp [here]
  refine inv.move quiet (fun d owed => ?_) fun _ handled => handled.elim
  obtain ⟨bound, owes⟩ := inv.owed_prepare here owed
  refine ⟨bound, ?_⟩
  change if d.term < i + 1 then
    (if d.term = i then !(s.device d).ready else s.fdset d) = true else s.refused d = true
  rcases Nat.lt_trichotomy d.term i with before | same | behind
  · rw [if_pos before] at owes
    rwa [if_pos (Nat.lt_succ_of_lt before), if_neg (Nat.ne_of_lt before)]
  · rw [if_neg (Nat.not_lt.mpr (Nat.le_of_eq same.symm))] at owes
    have notReady := (inv.notReady d owes).resolve_right (quiet d)
    rw [if_pos (same ▸ Nat.lt_succ_self _), if_pos same, notReady]
    rfl
  · rw [if_neg (Nat.not_lt.mpr (Nat.le_of_lt behind))] at owes
    rwa [if_neg (Nat.not_lt.mpr behind)]

/-- A terminal that has hung up: its devices are left out. -/
theorem prepare_gone (inv : Inv s) (here : s.pic = .prepare i) :
    Inv { s with owed := fun d => s.owed d && d.term != i, pic := .prepare (i + 1) } := by
  refine inv.move (by simp [here]) (fun d owed => ?_) fun _ handled => handled.elim
  rw [Bool.and_eq_true, bne_iff_ne] at owed
  obtain ⟨bound, owes⟩ := inv.owed_prepare here owed.1
  refine ⟨bound, ?_⟩
  change if d.term < i + 1 then s.fdset d = true else s.refused d = true
  rcases Nat.lt_trichotomy d.term i with before | same | behind
  · rw [if_pos before] at owes
    rwa [if_pos (Nat.lt_succ_of_lt before)]
  · exact absurd same owed.2
  · rw [if_neg (Nat.not_lt.mpr (Nat.le_of_lt behind))] at owes
    rwa [if_neg (Nat.not_lt.mpr behind)]

theorem prepare_ends (inv : Inv s) (here : s.pic = .prepare i) (large : s.nterm ≤ i) :
    Inv { s with pic := .select } := by
  refine inv.move (by simp [here]) (fun d owed => ?_) fun _ handled => handled.elim
  obtain ⟨bound, owes⟩ := inv.owed_prepare here owed
  rw [if_pos (Nat.lt_of_lt_of_le bound large)] at owes
  exact ⟨bound, owes⟩

/-- A device that is in the set, or whose timeout has expired. -/
theorem check_due (inv : Inv s) (here : s.pic = .check e) :
    Inv { s with device := update s.device e ⟨true, s.systemClock⟩, pic := .raise e } where
  within := inv.within
  notReady d refused := by
    by_cases same : d = e
    · exact .inr (by rw [same])
    · simp only [update_of_ne same]
      exact .inl ((inv.notReady d refused).resolve_right (by simp [here]))
  owes d _ owed := inv.owed_behind (.inl here) owed
  handled d before := by
    by_cases same : d = e
    · simp [same, serialTimeout]
    · simp only [update_of_ne same]
      have handled := inv.handled d
      unfold State.Handled at handled
      rw [here] at handled
      exact handled (Nat.lt_of_le_of_ne before fun place => same (Device.place_injective place))
  waiting thread i last waits := by
    by_cases same : .kbd i = e
    · exact .inr (.inr (by rw [same]))
    · simp only [update_of_ne same]
      rcases inv.waiting thread i last waits with kept | pending | raising
      · exact .inl kept
      · exact .inr (.inl pending)
      · cases here.symm.trans raising

theorem check_early (inv : Inv s) (here : s.pic = .check e) (unset : s.fdset e = false)
    (early : s.expired e = false) : Inv { s with pic := .check e.next } := by
  refine inv.move (by simp [here]) (fun d owed => ?_) fun d before => ?_
  · obtain ⟨bound, isset, place⟩ := inv.owed_behind (.inl here) owed
    refine ⟨bound, isset, ?_⟩
    rw [Device.place_next]
    refine Nat.lt_of_le_of_ne place fun same => ?_
    rw [Device.place_injective same, isset] at unset
    cases unset
  · have handled := inv.handled d
    unfold State.Handled at handled
    rw [here] at handled
    change d.place < e.next.place at before
    rw [Device.place_next] at before
    rcases Nat.lt_succ_iff_lt_or_eq.mp before with earlier | same
    · exact handled earlier
    · rw [Device.place_injective same]
      unfold State.expired at early
      exact BitVec.not_lt.mp (of_decide_eq_false early)

theorem check_ends (inv : Inv s) (here : s.pic = .check e) (large : s.nterm ≤ e.term) :
    Inv { s with pic := .passed } := by
  refine inv.move (by simp [here]) (fun d owed => ?_) fun d bound => ?_
  · obtain ⟨bound, -, place⟩ := inv.owed_behind (.inl here) owed
    exact absurd (Device.place_lt (Nat.lt_of_lt_of_le bound large)) (Nat.not_lt.mpr place)
  · have handled := inv.handled d
    unfold State.Handled at handled
    rw [here] at handled
    exact handled (Device.place_lt (Nat.lt_of_lt_of_le bound large))

theorem raise (inv : Inv s) (here : s.pic = .raise e) :
    Inv { s with
      rxPending := s.rxPending || e == .kbd e.term
      refused := update s.refused e false
      owed := update s.owed e false
      pic := .check e.next } where
  within := inv.within
  notReady d refused := by
    by_cases same : d = e
    · simp [same] at refused
    · simp only [update_of_ne same] at refused
      rcases inv.notReady d refused with notReady | raising
      · exact .inl notReady
      · cases here.symm.trans raising
        exact absurd rfl same
  owes d _ owed := by
    by_cases same : d = e
    · simp [same] at owed
    · simp only [update_of_ne same] at owed
      obtain ⟨bound, isset, place⟩ := inv.owed_behind (.inr here) owed
      refine ⟨bound, isset, ?_⟩
      rw [Device.place_next]
      exact Nat.lt_of_le_of_ne place fun same' => same (Device.place_injective same'.symm)
  handled d before := by
    have handled := inv.handled d
    unfold State.Handled at handled
    rw [here] at handled
    change d.place < e.next.place at before
    rw [Device.place_next] at before
    exact handled (Nat.lt_succ_iff.mp before)
  waiting thread i last waits := by
    rcases inv.waiting thread i last waits with kept | pending | raising
    · exact .inl kept
    · exact .inr (.inl (by simp [pending]))
    · cases here.symm.trans raising
      exact .inr (.inl (by simp [Device.term]))

theorem passed (inv : Inv s) (here : s.pic = .passed) : Inv { s with pic := .head } := by
  refine inv.move (by simp [here]) (fun d owed => ?_) fun _ handled => handled.elim
  have owes := (inv.owes d (by simp [here]) owed).2
  simp [State.Owes, here] at owes

theorem stepPic (inv : Inv s) (moved : stepPic s = some t) : Inv t := by
  unfold PicDaemon.stepPic at moved
  cases here : s.pic with
  | head =>
    simp only [here] at moved
    cases moved
    exact inv.head here
  | prepare i =>
    simp only [here] at moved
    split at moved
    next small =>
      split at moved <;> cases moved
      next there => exact inv.prepare_there here
      next gone => exact inv.prepare_gone here
    next large =>
      cases moved
      exact inv.prepare_ends here (Nat.le_of_not_lt large)
  | select => simp [here] at moved
  | check e =>
    simp only [here] at moved
    split at moved
    next small =>
      split at moved <;> cases moved
      next due => exact inv.check_due here
      next early =>
        rw [Bool.or_eq_true, not_or, Bool.not_eq_true, Bool.not_eq_true] at early
        exact inv.check_early here early.1 early.2
    next large =>
      cases moved
      exact inv.check_ends here (Nat.le_of_not_lt large)
  | raise e =>
    simp only [here] at moved
    cases moved
    exact inv.raise here
  | passed =>
    simp only [here] at moved
    cases moved
    exact inv.passed here

end

omit [DecidableEq Thread] in
/-- The other ends of the FIFOs are free. -/
theorem environment (inv : Inv s) (available : Device → Nat) (connected : Nat → Bool) :
    Inv { s with available := available, connected := connected } :=
  ⟨inv.within, inv.notReady, inv.owes, inv.handled, inv.waiting⟩

theorem step {label : Label Thread} (inv : Inv s) (moved : step s label = some t) : Inv t := by
  unfold PicDaemon.step at moved
  cases label <;> simp only at moved
  case call thread d =>
    split at moved
    next enters =>
      cases moved
      exact inv.setThread enters.2 nofun
    next => cases moved
  case transfer thread =>
    have within := inv.within thread
    cases here : s.thread thread <;> simp only [here] at moved within <;> try cases moved
    split at moved
    next =>
      cases moved
      exact (inv.environment _ s.connected).setThread trivial nofun
    next =>
      cases moved
      exact inv.setThread within nofun
  case refuse thread =>
    have within := inv.within thread
    cases here : s.thread thread <;> simp only [here] at moved within <;> try cases moved
    exact inv.refuse.setThread within nofun
  case giveUp thread =>
    cases here : s.thread thread <;> simp only [here] at moved <;> try cases moved
    exact inv.setThread trivial nofun
  case wait thread =>
    have within := inv.within thread
    cases here : s.thread thread <;> simp only [here] at moved within <;> try cases moved
    case refused d =>
      cases d <;> simp only at moved
      case con => cases moved
      case kbd i =>
        cases moved
        refine inv.setThread within fun j last same => ?_
        cases same
        rfl
  case handle =>
    split at moved
    next =>
      cases moved
      exact inv.handle
    next => cases moved
  case select clock =>
    split at moved
    next here =>
      cases moved
      exact inv.select here clock
    next => cases moved
  case selectFails clock =>
    split at moved
    next here =>
      cases moved
      constructor
      case within => exact inv.within
      case notReady =>
        exact fun d refused => .inl ((inv.notReady d refused).resolve_right (by simp [here]))
      case owes => exact fun d away => absurd rfl away
      case handled => exact fun _ handled => handled.elim
      case waiting =>
        intro thread i last waits
        rcases inv.waiting thread i last waits with kept | pending | raising
        · exact .inl kept
        · exact .inr (.inl pending)
        · cases here.symm.trans raising
    next => cases moved
  case pic => exact inv.stepPic moved
  case supply d count =>
    cases moved
    exact inv.environment _ s.connected
  case connect i there =>
    cases moved
    exact inv.environment s.available _

theorem of_reachable (reached : (machine Thread).Reachable s) : Inv s := by
  refine reached.induction (P := Inv) (fun s booted => ?_) fun _ _ _ inv moved => inv.step moved
  obtain ⟨nterm, ready, available, connected, clock, rfl⟩ := booted
  exact boot_inv nterm ready available connected clock

end Inv

/-- The devices behind a turn of the loop. -/
structure Served (s : State Thread) : Prop where
  /-- A device whose transfer has failed since its last interrupt is not ready, so
  the next turn looks at it. -/
  notReady : ∀ d, s.refused d = true → (s.device d).ready = false
  /-- A device on which a transfer had failed before the turn has been interrupted
  if the other end of its keyboard was connected when the loop looked at it, and a
  transfer could succeed again when `select` returned. -/
  prompt : ∀ d, s.owed d = false
  /-- A reader that still sleeps is about to be woken, or the last interrupt of its
  keyboard was before it fell asleep and is not `SERIAL_TIMEOUT` old. -/
  awake : ∀ thread i last, s.thread thread = .waiting i last → s.rxPending = true ∨
    (s.device (.kbd i)).lastInt = last ∧ s.systemClock - last ≤ serialTimeout

/-- No reader misses its interrupt for longer than `SERIAL_TIMEOUT`, whatever it
races with, as long as turns of the loop pass whose `select` succeeds. -/
theorem serial_interrupts (reached : (machine Thread).Reachable s) (behind : s.pic = .passed) :
    Served s := by
  have inv := Inv.of_reachable reached
  have raised : ∀ d, s.pic ≠ .raise d := by simp [behind]
  constructor
  case notReady => exact fun d refused => (inv.notReady d refused).resolve_right (raised d)
  case prompt =>
    intro d
    by_contra owed
    have owes := (inv.owes d (by simp [behind]) (Bool.not_eq_false _ ▸ owed)).2
    simp [State.Owes, behind] at owes
  case awake =>
    intro thread i last waits
    rcases inv.waiting thread i last waits with same | pending | raising
    · have within := inv.within thread
      rw [waits] at within
      have handled : s.Handled (.kbd i) := by
        unfold State.Handled
        rw [behind]
        exact within
      have bound := inv.handled (.kbd i) handled
      exact .inr ⟨same, same ▸ bound⟩
    · exact .inl pending
    · exact absurd raising (raised _)

/-- A reader falls asleep while its interrupt is raised and handled, and the next
turn raises another one. -/
theorem serial_interrupts_race : ∃ s : State Unit, (machine Unit).Reachable s ∧ s.pic = .passed ∧
    s.thread () = .waiting 0 7 ∧ s.rxPending = true ∧ Served s := by
  have reached := Machine.Reachable.replay (M := machine Unit)
    (.start ⟨1, fun _ => false, fun _ => 0, fun _ => true, 0, rfl⟩)
    [.call () (.kbd 0), .transfer (), .supply (.kbd 0) 1, .pic, .pic, .pic, .select 7, .pic, .pic,
      .pic, .pic, .pic, .handle, .refuse (), .wait (), .pic, .pic, .pic, .select 8, .pic, .pic,
      .pic, .pic] rfl
  exact ⟨_, reached, rfl, rfl, rfl, serial_interrupts reached rfl⟩

end Machine
end TinyOs.PicDaemon
