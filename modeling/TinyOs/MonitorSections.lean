import TinyOs.MonitorSafety
import TinyOs.Library.Sections

/-! Code that runs in the monitor of `kernel_cc.c`. A thread inside makes one
access to the data of the kernel at a time; between two accesses any other
thread may run, on this core or on another. -/
namespace TinyOs.Monitor
open Library Function
open Scheduler (ThreadState)
open CondVar (Action)

/-- What the code of a thread does next. Its own business are also the mutexes
and condition variables of user code; it leaves the monitor by `kernel_unlock`,
or by `kernel_sleep` with a state. -/
abbrev Instr (Data Local Mutex Cond : Type*) :=
  Sections.Instr Data Local Cond (Option (Action Mutex Cond)) (Option ThreadState)

def leaveBy {Cond : Type*} : Option ThreadState → Exit Cond
  | none => .unlock
  | some newstate => .sleep newstate

/-- The monitor with what it protects, and what is private to each thread. -/
structure Shared (Thread Mutex Cond Data Local : Type*) where
  monitor : State Thread Mutex Cond
  data : Data
  locals : Thread → Local

inductive SharedLabel (Thread Mutex Cond Input : Type*) where
  /-- The code of the thread goes on. -/
  | code (thread : Thread) (input : Input)
  /-- The code of the monitor or the scheduler does. -/
  | monitor (label : Label Thread Mutex Cond)

variable {Thread Mutex Cond Data Local Input : Type*} [DecidableEq Thread] [DecidableEq Mutex]
  [DecidableEq Cond]

/-- The thread is not in the code of the monitor. -/
def State.ownCode (s : State Thread Mutex Cond) (thread : Thread) : Bool :=
  s.point thread = .user ∨ s.point thread = .inside

/-- The label stands for a section of the monitor or of the condition variables,
or for the scheduler. -/
def State.ofMonitor (s : State Thread Mutex Cond) : Label Thread Mutex Cond → Bool
  | .run thread action => action = .advance ∨ s.ownCode thread = false
  | .kernelLock _ | .kernelExit _ _ => false
  | _ => true

/-- A thread goes on where its call of the monitor has begun. -/
def Shared.enters (s : Shared Thread Mutex Cond Data Local) (thread : Thread) (next : Local)
    (monitor : Option (State Thread Mutex Cond)) : Option (Shared Thread Mutex Cond Data Local) :=
  monitor.map fun monitor => { s with monitor := monitor, locals := update s.locals thread next }

section
variable (kernelMutex : Mutex) (kernelSemCv : Cond) (kernelCv : Cond → Bool)
  (code : Local → Input → Instr Data Local Mutex Cond)

/-- The condition variables that kernel code waits on are in its own records;
user code cannot name them. -/
def userAction : Action Mutex Cond → Bool
  | .condWait _ cv _ | .condSignal cv _ => !kernelCv cv
  | _ => true

def sharedStep (s : Shared Thread Mutex Cond Data Local) :
    SharedLabel Thread Mutex Cond Input → Option (Shared Thread Mutex Cond Data Local)
  | .code thread input =>
    match code (s.locals thread) input with
    | .own none next =>
      if executes s.monitor thread ∧ s.monitor.ownCode thread then
        s.enters thread next (some s.monitor)
      else none
    | .own (some action) next =>
      if s.monitor.ownCode thread ∧ userAction kernelCv action then
        s.enters thread next (step kernelMutex kernelSemCv s.monitor (.run thread action))
      else none
    | .enter next =>
      s.enters thread next (step kernelMutex kernelSemCv s.monitor (.kernelLock thread))
    | .access run =>
      if executes s.monitor thread ∧ s.monitor.point thread = .inside then
        (s.enters thread (run s.data).1 (some s.monitor)).map fun t =>
          { t with data := (run s.data).2 }
      else none
    | .broadcast cv next =>
      if s.monitor.ownCode thread then
        s.enters thread next
          (step kernelMutex kernelSemCv s.monitor (.run thread (.condSignal cv true)))
      else none
    | .leave how next =>
      s.enters thread next
        (step kernelMutex kernelSemCv s.monitor (.kernelExit thread (leaveBy how)))
    | .wait cv timed next =>
      if kernelCv cv then
        s.enters thread next
          (step kernelMutex kernelSemCv s.monitor (.kernelExit thread (.wait cv timed)))
      else none
  | .monitor label =>
    if s.monitor.ofMonitor label then
      (step kernelMutex kernelSemCv s.monitor label).map fun monitor =>
        { s with monitor := monitor }
    else none

def sharedMachine (data : Data) (locals : Thread → Local) :
    Machine (Shared Thread Mutex Cond Data Local) (SharedLabel Thread Mutex Cond Input) where
  initial s := ∃ threadState stack,
    s = { monitor := boot threadState stack, data := data, locals := locals }
  step := sharedStep kernelMutex kernelSemCv kernelCv code

end

/-! ### The waits of kernel code -/

/-- A wait of kernel code: whether it has a timeout, and whether there has been
a broadcast since. -/
structure Wait (Cond : Type*) where
  cv : Cond
  timed : Bool
  woken : Bool
  deriving DecidableEq, Repr

def Wait.wake (cv : Option Cond) (wait : Wait Cond) : Wait Cond :=
  { wait with woken := wait.woken || some wait.cv = cv }

/-- The condition variable of a signal or broadcast under way, whether it is a
broadcast, and the ring it has found. -/
def sought (point : CondVar.Point Thread Mutex Cond) : Option (Cond × Bool × List Thread) :=
  point.call.map fun call => (call.cv, call.broadcast, call.found)

/-- What the condition variables do to those waits: nobody is readied but by a
broadcast or a timeout, and no broadcast misses anybody. -/
structure Wakes (kernelCv : Cond → Bool) (s : CondVar.State Thread Mutex Cond)
    (wait : Thread → Option (Wait Cond)) : Prop where
  signalled : ∀ thread w, wait thread = some w → s.readiedBy thread = some .signal →
    w.woken = true
  timeout : ∀ thread w, wait thread = some w → s.readiedBy thread = some .timeout →
    w.timed = true
  timer : ∀ thread w, wait thread = some w → s.timed thread = true → w.timed = true
  armed : ∀ thread w mutex cv timed, wait thread = some w →
    s.point thread = .enqueued mutex cv timed ∨ s.point thread = .released mutex cv timed →
      timed = w.timed
  found : ∀ caller cv broadcast ring, sought (s.point caller) = some (cv, broadcast, ring) →
    kernelCv cv = true → broadcast = true ∧
      ∀ thread ∈ ring, ∀ w, wait thread = some w → w.woken = true
  missed : ∀ thread w, wait thread = some w → w.woken = true → s.readiedBy thread ≠ none ∨
    ∃ caller ring, sought (s.point caller) = some (w.cv, true, ring) ∧ thread ∈ ring

/-- The waiting threads are in `cv_wait`, on condition variables of the kernel. -/
def InWait (kernelMutex : Mutex) (kernelCv : Cond → Bool) (s : CondVar.State Thread Mutex Cond)
    (wait : Thread → Option (Wait Cond)) : Prop :=
  ∀ thread w, wait thread = some w →
    WaitsAt kernelMutex w.cv (s.point thread) ∧ kernelCv w.cv = true

section Wakes
variable {kernelMutex : Mutex} {kernelCv : Cond → Bool} {s t : CondVar.State Thread Mutex Cond}
  {wait : Thread → Option (Wait Cond)} {thread : Thread} {mutex : Mutex} {cv : Cond} {timed : Bool}

omit [DecidableEq Mutex] [DecidableEq Cond] in
/-- A thread that waits no more is left out. -/
theorem Wakes.forget (wakes : Wakes kernelCv s wait) (thread : Thread) :
    Wakes kernelCv s (update wait thread none) := by
  have kept : ∀ other w, update wait thread none other = some w → wait other = some w := by
    intro other w waits
    rcases eq_or_ne other thread with rfl | different
    · rw [update_self] at waits
      cases waits
    · rwa [update_of_ne different] at waits
  constructor
  case signalled => exact fun other w waits => wakes.signalled other w (kept _ _ waits)
  case timeout => exact fun other w waits => wakes.timeout other w (kept _ _ waits)
  case timer => exact fun other w waits => wakes.timer other w (kept _ _ waits)
  case armed => exact fun other w m c b waits => wakes.armed other w m c b (kept _ _ waits)
  case found =>
    intro caller c broadcast ring seeks kernel
    obtain ⟨all, woken⟩ := wakes.found caller c broadcast ring seeks kernel
    exact ⟨all, fun other member w waits => woken other member w (kept _ _ waits)⟩
  case missed => exact fun other w waits => wakes.missed other w (kept _ _ waits)

omit [DecidableEq Thread] [DecidableEq Mutex] [DecidableEq Cond] in
/-- A step that leaves the signals under way alone. -/
theorem Wakes.frame (wakes : Wakes kernelCv s wait)
    (sought : ∀ caller, sought (t.point caller) = sought (s.point caller))
    (readied : ∀ other w, wait other = some w → t.readiedBy other = s.readiedBy other ∨
      (t.readiedBy other = some .signal ∧ w.woken = true) ∨
      (t.readiedBy other = some .timeout ∧ w.timed = true))
    (timer : ∀ other w, wait other = some w → t.timed other = true →
      s.timed other = true ∨ w.timed = true)
    (armed : ∀ other mutex cv timed,
      t.point other = .enqueued mutex cv timed ∨ t.point other = .released mutex cv timed →
        s.point other = .enqueued mutex cv timed ∨ s.point other = .released mutex cv timed) :
    Wakes kernelCv t wait := by
  constructor
  case signalled =>
    intro other w waits signalled
    rcases readied other w waits with same | ⟨-, woken⟩ | ⟨timeout, -⟩
    · exact wakes.signalled other w waits (same ▸ signalled)
    · exact woken
    · cases timeout.symm.trans signalled
  case timeout =>
    intro other w waits timeout
    rcases readied other w waits with same | ⟨signalled, -⟩ | ⟨-, timed⟩
    · exact wakes.timeout other w waits (same ▸ timeout)
    · cases signalled.symm.trans timeout
    · exact timed
  case timer =>
    intro other w waits timed
    exact (timer other w waits timed).elim (wakes.timer other w waits) id
  case armed =>
    exact fun other w m c b waits here => wakes.armed other w m c b waits (armed other m c b here)
  case found =>
    intro caller c broadcast ring seeks
    exact wakes.found caller c broadcast ring (sought caller ▸ seeks)
  case missed =>
    intro other w waits woken
    rcases wakes.missed other w waits woken with awake | ⟨caller, ring, seeks, member⟩
    · left
      rcases readied other w waits with same | ⟨signalled, -⟩ | ⟨timeout, -⟩
      · exact same ▸ awake
      · simp [signalled]
      · simp [timeout]
    · exact .inr ⟨caller, ring, (sought caller).trans seeks, member⟩

omit [DecidableEq Thread] [DecidableEq Mutex] [DecidableEq Cond] in
theorem sought_of_call {point : CondVar.Point Thread Mutex Cond} {broadcast : Bool}
    {ring : List Thread} (seeks : sought point = some (cv, broadcast, ring)) :
    ∃ call, point.call = some call ∧ call.cv = cv ∧ call.broadcast = broadcast ∧
      call.found = ring := by
  obtain ⟨call, at_call, same⟩ := Option.map_eq_some_iff.mp seeks
  cases same
  exact ⟨call, at_call, rfl, rfl, rfl⟩

omit [DecidableEq Mutex] [DecidableEq Cond] in
/-- A section of a waiter, up to its return. -/
theorem Wakes.waiter (wakes : Wakes kernelCv s wait) {next : CondVar.Point Thread Mutex Cond}
    (calls : sought (s.point thread) = none) (after : sought next = none)
    (point : t.point = update s.point thread next)
    (readied : t.readiedBy = s.readiedBy)
    (timer : ∀ other w, wait other = some w → t.timed other = true →
      s.timed other = true ∨ w.timed = true)
    (armed : ∀ mutex cv timed, next = .enqueued mutex cv timed ∨ next = .released mutex cv timed →
      s.point thread = .enqueued mutex cv timed ∨ s.point thread = .released mutex cv timed) :
    Wakes kernelCv t wait := by
  refine wakes.frame (fun caller => ?_) (fun other w _ => .inl (by rw [readied])) timer ?_
  · rw [point]
    rcases eq_or_ne caller thread with rfl | different
    · rw [update_self, after, calls]
    · rw [update_of_ne different]
  · intro other m c b here
    rw [point] at here
    rcases eq_or_ne other thread with rfl | different
    · rw [update_self] at here
      exact armed m c b here
    · rwa [update_of_ne different] at here

omit [DecidableEq Mutex] [DecidableEq Cond] in
/-- A section of a signaller between its first and its last. -/
theorem Wakes.signaller (wakes : Wakes kernelCv s wait) {next : CondVar.Point Thread Mutex Cond}
    (calls : sought next = sought (s.point thread)) (busy : (sought next).isSome)
    (point : t.point = update s.point thread next)
    (readied : ∀ other w, wait other = some w → t.readiedBy other = s.readiedBy other ∨
      (t.readiedBy other = some .signal ∧ w.woken = true))
    (timed : ∀ other, t.timed other = true → s.timed other = true) :
    Wakes kernelCv t wait := by
  refine wakes.frame (fun caller => ?_)
    (fun other w waits => (readied other w waits).imp_right .inl)
    (fun other w _ still => .inl (timed other still)) ?_
  · rw [point]
    rcases eq_or_ne caller thread with rfl | different
    · rw [update_self, calls]
    · rw [update_of_ne different]
  · intro other m c b here
    rw [point] at here
    rcases eq_or_ne other thread with rfl | different
    · rw [update_self] at here
      rcases here with here | here <;> rw [here] at busy <;> cases busy
    · rwa [update_of_ne different] at here

omit [DecidableEq Mutex] [DecidableEq Cond] in
/-- A signal readies nobody but those whom a broadcast has found. -/
theorem Wakes.wakeup (wakes : Wakes kernelCv s wait) (inv : CondVar.Inv s)
    (inWait : InWait kernelMutex kernelCv s wait) {call : CondVar.Signal Thread Cond}
    {waiter : Thread} (here : s.point thread = .taken call waiter) :
    Wakes kernelCv (CondVar.wakeup s thread call waiter) wait := by
  unfold CondVar.wakeup
  split
  · refine wakes.signaller (by rw [here]; rfl) rfl rfl ?_ ?_
    · intro other w waits
      rcases eq_or_ne other waiter with rfl | different
      · refine .inr ⟨update_self .., ?_⟩
        have at_call := inv.calls thread call (by rw [here, CondVar.Point.call])
        have member := (at_call.taken other here).1
        obtain ⟨m, asleep⟩ := at_call.found other member
        obtain ⟨inside, kernel⟩ := inWait other w waits
        rw [asleep] at inside
        obtain ⟨-, same⟩ := inside
        exact (wakes.found thread call.cv call.broadcast call.found (by rw [here]; rfl)
          (same ▸ kernel)).2 other member w waits
      · exact .inl (update_of_ne different ..)
    · intro other still
      rcases eq_or_ne other waiter with rfl | different
      · simp [CondVar.schedMakeReady] at still
      · simpa [CondVar.schedMakeReady, different] using still
  · exact wakes.signaller (by rw [here]; rfl) rfl rfl (fun _ _ _ => .inl rfl) fun _ still => still

omit [DecidableEq Mutex] in
/-- A broadcast that is over has missed nobody. -/
theorem Wakes.unlockRing (wakes : Wakes kernelCv s wait) (inv : CondVar.Inv s)
    {call : CondVar.Signal Thread Cond} (here : s.point thread = .finishing call) :
    Wakes kernelCv (CondVar.unlockRing s thread call) wait := by
  have others : ∀ caller, sought ((CondVar.unlockRing s thread call).point caller) =
      if caller = thread then none else sought (s.point caller) := by
    intro caller
    rcases eq_or_ne caller thread with rfl | different
    · simp [CondVar.unlockRing, sought, CondVar.Point.call]
    · simp [CondVar.unlockRing, different]
  constructor
  case signalled => exact wakes.signalled
  case timeout => exact wakes.timeout
  case timer => exact wakes.timer
  case armed =>
    intro other w m c b waits armed
    rcases eq_or_ne other thread with rfl | different
    · simp [CondVar.unlockRing] at armed
    · simp only [CondVar.unlockRing, update_of_ne different] at armed
      exact wakes.armed other w m c b waits armed
  case found =>
    intro caller c broadcast ring seeks
    rw [others] at seeks
    split at seeks
    · cases seeks
    · exact wakes.found caller c broadcast ring seeks
  case missed =>
    intro other w waits woken
    rcases wakes.missed other w waits woken with awake | ⟨caller, ring, seeks, member⟩
    · exact .inl awake
    · rcases eq_or_ne caller thread with rfl | different
      · rw [here] at seeks
        obtain ⟨_, same, -, broadcast, rfl⟩ := sought_of_call seeks
        cases same
        refine .inl ?_
        rcases ((inv.broadcastDelivered here broadcast).2.2 other member).2 with ⟨by_signal, -⟩ |
          ⟨by_timeout, -⟩
        · change s.readiedBy other ≠ none
          simp [by_signal]
        · change s.readiedBy other ≠ none
          simp [by_timeout]
      · exact .inr ⟨caller, ring, by rw [others, if_neg different, seeks], member⟩

omit [DecidableEq Cond] in
theorem ne_of_waits {other : Thread} {w : Wait Cond}
    (waits : update wait thread none other = some w) : other ≠ thread := by
  rintro rfl
  rw [update_self] at waits
  cases waits

/-- The next section of a call keeps the waits, but for the one it ends. -/
theorem Wakes.advance (wakes : Wakes kernelCv s wait) (inv : CondVar.Inv s)
    (inWait : InWait kernelMutex kernelCv s wait)
    (moved : CondVar.advance s thread (s.point thread) = some t) :
    Wakes kernelCv t (update wait thread none) ∧
      (t.point thread ≠ .outside → Wakes kernelCv t wait) := by
  have settle (kept : Wakes kernelCv t wait) : Wakes kernelCv t (update wait thread none) ∧
      (t.point thread ≠ .outside → Wakes kernelCv t wait) := ⟨kept.forget thread, fun _ => kept⟩
  cases here : s.point thread with
  | outside =>
    rw [here] at moved
    cases moved
  | enqueued m c b =>
    rw [here] at moved
    cases moved
    refine settle (wakes.waiter (by rw [here]; rfl) rfl rfl rfl (fun _ _ _ still => .inl still) ?_)
    rintro _ _ _ (same | same) <;> cases same
    exact .inl here
  | released m c b =>
    rw [here] at moved
    cases moved
    refine settle (wakes.waiter (by rw [here]; rfl) rfl rfl rfl ?_ ?_)
    · intro other w waits armed
      rcases eq_or_ne other thread with rfl | different
      · refine .inr ?_
        rw [← wakes.armed other w m c b waits (.inr here)]
        simpa [CondVar.sleepReleasing] using armed
      · exact .inl (by simpa [CondVar.sleepReleasing, different] using armed)
    · rintro _ _ _ (same | same) <;> cases same
  | asleep m c =>
    rw [here, CondVar.advance, Option.ite_none_right_eq_some] at moved
    cases moved.2
    refine settle (wakes.waiter (by rw [here]; rfl) rfl rfl rfl (fun _ _ _ still => .inl still) ?_)
    rintro _ _ _ (same | same) <;> cases same
  | rechecked m c =>
    rw [here] at moved
    cases moved
    refine settle (wakes.waiter (by rw [here]; rfl) rfl rfl rfl (fun _ _ _ still => .inl still) ?_)
    rintro _ _ _ (same | same) <;> cases same
  | relocking m =>
    rw [here, CondVar.advance, Option.ite_none_right_eq_some] at moved
    cases moved.2
    refine ⟨?_, fun inside => absurd (update_self ..) inside⟩
    refine (wakes.forget thread).frame (fun caller => ?_) (fun other w waits => .inl ?_)
      (fun _ _ _ still => .inl still) ?_
    · rcases eq_or_ne caller thread with rfl | different
      · simp [CondVar.returnSignalled, here, sought, CondVar.Point.call]
      · simp [CondVar.returnSignalled, different]
    · exact update_of_ne (ne_of_waits waits) ..
    · intro other m' c b armed
      rcases eq_or_ne other thread with rfl | different
      · simp [CondVar.returnSignalled] at armed
      · simpa [CondVar.returnSignalled, different] using armed
  | scanning call =>
    rw [here] at moved
    cases moved
    refine settle ?_
    unfold CondVar.scan
    split
    · exact wakes.signaller (by rw [here]; rfl) rfl rfl (fun _ _ _ => .inl rfl) fun _ still => still
    · exact wakes.signaller (by rw [here]; rfl) rfl rfl (fun _ _ _ => .inl rfl) fun _ still => still
  | taken call waiter =>
    rw [here] at moved
    cases moved
    exact settle (wakes.wakeup inv inWait here)
  | woken call waiter =>
    rw [here] at moved
    cases moved
    refine settle (wakes.signaller ?_ ?_ rfl (fun _ _ _ => .inl rfl) fun _ still => still)
    · rw [here]
      split <;> rfl
    · split <;> rfl
  | finishing call =>
    rw [here] at moved
    cases moved
    exact settle (wakes.unlockRing inv here)

omit [DecidableEq Mutex] in
/-- A thread enters `cv_wait`, on whatever condition variable. -/
theorem Wakes.enqueue (wakes : Wakes kernelCv s wait) (here : s.point thread = .outside)
    (idle : wait thread = none) (mutex : Mutex) (cv : Cond) (timed : Bool) :
    Wakes kernelCv (CondVar.enqueue s thread mutex cv timed) wait := by
  have apart : ∀ other w, wait other = some w → other ≠ thread := by
    rintro other w waits rfl
    cases waits.symm.trans idle
  constructor
  case signalled =>
    intro other w waits
    simp only [CondVar.enqueue, update_of_ne (apart other w waits)]
    exact wakes.signalled other w waits
  case timeout =>
    intro other w waits
    simp only [CondVar.enqueue, update_of_ne (apart other w waits)]
    exact wakes.timeout other w waits
  case timer => exact wakes.timer
  case armed =>
    intro other w m c b waits
    simp only [CondVar.enqueue, update_of_ne (apart other w waits)]
    exact wakes.armed other w m c b waits
  case found =>
    intro caller c broadcast ring seeks
    rcases eq_or_ne caller thread with rfl | different
    · simp [CondVar.enqueue, sought, CondVar.Point.call] at seeks
    · simp only [CondVar.enqueue, update_of_ne different] at seeks
      exact wakes.found caller c broadcast ring seeks
  case missed =>
    intro other w waits woken
    simp only [CondVar.enqueue, update_of_ne (apart other w waits)]
    refine (wakes.missed other w waits woken).imp_right ?_
    rintro ⟨caller, ring, seeks, member⟩
    have different : caller ≠ thread := by
      rintro rfl
      rw [here] at seeks
      cases seeks
    exact ⟨caller, ring, by rw [update_of_ne different, seeks], member⟩

omit [DecidableEq Mutex] [DecidableEq Cond] in
/-- From then on it waits, and nobody has woken it. -/
theorem Wakes.begin (wakes : Wakes kernelCv s wait) (inv : CondVar.Inv s)
    (here : s.point thread = .enqueued mutex cv timed) :
    Wakes kernelCv s (update wait thread (some ⟨cv, timed, false⟩)) := by
  have own := inv.waiters thread
  have unreadied : s.readiedBy thread = none := own.unreadied (by rw [here]; rfl)
  have earlier {other : Thread} {w : Wait Cond} (different : other ≠ thread)
      (waits : update wait thread (some ⟨cv, timed, false⟩) other = some w) :
      wait other = some w := by
    rwa [update_of_ne different] at waits
  constructor
  case signalled =>
    intro other w waits signalled
    rcases eq_or_ne other thread with rfl | different
    · cases unreadied.symm.trans signalled
    · exact wakes.signalled other w (earlier different waits) signalled
  case timeout =>
    intro other w waits timeout
    rcases eq_or_ne other thread with rfl | different
    · cases unreadied.symm.trans timeout
    · exact wakes.timeout other w (earlier different waits) timeout
  case timer =>
    intro other w waits armed
    rcases eq_or_ne other thread with rfl | different
    · obtain ⟨-, m, c, asleep⟩ := own.timed armed
      cases here.symm.trans asleep
    · exact wakes.timer other w (earlier different waits) armed
  case armed =>
    intro other w m c b waits armed
    rcases eq_or_ne other thread with rfl | different
    · rw [update_self] at waits
      cases waits
      rcases armed with same | same <;> cases here.symm.trans same
      rfl
    · exact wakes.armed other w m c b (earlier different waits) armed
  case found =>
    intro caller c broadcast ring seeks kernel
    obtain ⟨all, woken⟩ := wakes.found caller c broadcast ring seeks kernel
    refine ⟨all, fun other member w waits => ?_⟩
    have different : other ≠ thread := by
      rintro rfl
      obtain ⟨call, at_call, -, -, rfl⟩ := sought_of_call seeks
      obtain ⟨m, asleep⟩ := (inv.calls caller call at_call).found other member
      cases here.symm.trans asleep
    exact woken other member w (earlier different waits)
  case missed =>
    intro other w waits woken
    rcases eq_or_ne other thread with rfl | different
    · rw [update_self] at waits
      cases waits
      cases woken
    · exact wakes.missed other w (earlier different waits) woken

omit [DecidableEq Thread] [DecidableEq Mutex] [DecidableEq Cond] in
/-- Whoever waits for a condition variable whose ring is not locked is in that
ring, or awake. -/
theorem InWait.queued (inWait : InWait kernelMutex kernelCv s wait) (inv : CondVar.Inv s)
    {w : Wait Cond} (waits : wait thread = some w) (free : s.waitsetLock w.cv = none) :
    s.readiedBy thread ≠ none ∨ thread ∈ s.waitset w.cv := by
  have unlocked : (s.point thread).locks ≠ some w.cv := by
    intro locks
    cases free.symm.trans (inv.locked locks)
  have inside := (inWait thread w waits).1
  cases here : s.point thread <;> rw [here] at inside unlocked
  case enqueued => exact absurd (congrArg some inside.2) unlocked
  case released => exact absurd (congrArg some inside.2) unlocked
  case rechecked => exact absurd (congrArg some inside.2) unlocked
  case relocking =>
    exact .inl ((inv.waiters thread).awake (by rw [here]; rfl) (by rw [here]; rfl))
  case asleep m c =>
    rw [or_iff_not_imp_left]
    intro unreadied
    have idle : CondVar.WaitsIdle s thread w.cv :=
      ⟨not_not.mp unreadied, m, .inr (inside.2 ▸ here)⟩
    have unheld : ∀ holder, s.waitsetLock w.cv ≠ some holder := by simp [free]
    exact (inv.idle_inspected (fun holder held => absurd held (unheld holder)) idle).1
  all_goals exact absurd inside id

omit [DecidableEq Mutex] in
/-- A signal on a condition variable of the kernel is a broadcast, and wakes all
that wait. -/
theorem Wakes.lockRing (wakes : Wakes kernelCv s wait) (inv : CondVar.Inv s)
    (inWait : InWait kernelMutex kernelCv s wait) (here : s.point thread = .outside)
    (free : s.waitsetLock cv = none) {broadcast : Bool}
    (all : kernelCv cv = true → broadcast = true) :
    Wakes kernelCv (CondVar.lockRing s thread cv broadcast)
      fun other => (wait other).map (Wait.wake (some cv)) := by
  have at_call : ∀ caller, sought ((CondVar.lockRing s thread cv broadcast).point caller) =
      if caller = thread then some (cv, broadcast, s.waitset cv) else sought (s.point caller) := by
    intro caller
    rcases eq_or_ne caller thread with rfl | different
    · simp [CondVar.lockRing, sought, CondVar.Point.call]
    · simp [CondVar.lockRing, different]
  constructor
  case signalled =>
    intro other w waits signalled
    obtain ⟨v, before, rfl⟩ := Option.map_eq_some_iff.mp waits
    simp [Wait.wake, wakes.signalled other v before signalled]
  case timeout =>
    intro other w waits timeout
    obtain ⟨v, before, rfl⟩ := Option.map_eq_some_iff.mp waits
    exact wakes.timeout other v before timeout
  case timer =>
    intro other w waits timed
    obtain ⟨v, before, rfl⟩ := Option.map_eq_some_iff.mp waits
    exact wakes.timer other v before timed
  case armed =>
    intro other w m c b waits armed
    obtain ⟨v, before, rfl⟩ := Option.map_eq_some_iff.mp waits
    rcases eq_or_ne other thread with rfl | different
    · simp [CondVar.lockRing] at armed
    · simp only [CondVar.lockRing, update_of_ne different] at armed
      exact wakes.armed other v m c b before armed
  case found =>
    intro caller c b ring seeks kernel
    rw [at_call] at seeks
    split at seeks
    · cases seeks
      refine ⟨all kernel, fun other member w waits => ?_⟩
      obtain ⟨v, before, rfl⟩ := Option.map_eq_some_iff.mp waits
      have waitsOn := ((inv.ring_member cv other).mp member).1
      have inside := (inWait other v before).1
      have same : v.cv = cv := by
        cases point : s.point other <;> rw [point] at waitsOn inside <;> cases waitsOn
        · exact inside.2.symm
        · exact inside.2.symm
        · exact inside.2.symm
      simp [Wait.wake, same]
    · obtain ⟨broadcasts, woken⟩ := wakes.found caller c b ring seeks kernel
      refine ⟨broadcasts, fun other member w waits => ?_⟩
      obtain ⟨v, before, rfl⟩ := Option.map_eq_some_iff.mp waits
      simp [Wait.wake, woken other member v before]
  case missed =>
    intro other w waits woken
    obtain ⟨v, before, rfl⟩ := Option.map_eq_some_iff.mp waits
    have cases_of : v.woken = true ∨ v.cv = cv := by simpa [Wait.wake] using woken
    rcases cases_of with woken | rfl
    · refine (wakes.missed other v before woken).imp_right ?_
      rintro ⟨caller, ring, seeks, member⟩
      have different : caller ≠ thread := by
        rintro rfl
        rw [here] at seeks
        cases seeks
      exact ⟨caller, ring, by rw [at_call, if_neg different]; exact seeks, member⟩
    · refine (inWait.queued inv before free).imp_right fun member => ?_
      have broadcasts := all (inWait other v before).2
      exact ⟨thread, s.waitset v.cv, by rw [at_call, if_pos rfl, broadcasts]; rfl, member⟩

omit [DecidableEq Thread] [DecidableEq Mutex] in
/-- A broadcast on a condition variable of user code wakes nobody in the kernel. -/
theorem InWait.apart (inWait : InWait kernelMutex kernelCv s wait) (user : kernelCv cv = false) :
    (fun other => (wait other).map (Wait.wake (some cv))) = wait := by
  funext other
  cases waits : wait other with
  | none => rfl
  | some w =>
    have different : w.cv ≠ cv := by
      rintro rfl
      cases user.symm.trans (inWait other w waits).2
    simp [Wait.wake, different]

end Wakes
end TinyOs.Monitor
