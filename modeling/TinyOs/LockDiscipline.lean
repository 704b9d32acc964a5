import TinyOs.Population
import TinyOs.Preemption

/-! Which mutexes a thread holds can be read off what it is still to do, and so
can whether preemption is on. -/
namespace TinyOs.Preemption
open Library Function
open Scheduler (TcbRef ThreadState SchedCause TimerDuration)

variable {Core Name : Type*}

/-- The mutexes that are also locked with preemption off. -/
def Mutex.spins : Mutex Name → Bool
  | .kernelMutex | .schedSpinlock | .activeThreadsSpinlock => true
  | .waitsetLock .kernelSem | .waitsetLock (.rxReady _) => true
  | .waitsetLock (.other _) | .user _ => false

/-- The mutexes that are locked only with preemption off. -/
def Mutex.masked : Mutex Name → Bool
  | .schedSpinlock | .waitsetLock (.rxReady _) => true
  | _ => false

/-- Which of the mutexes that spin are held. -/
abbrev Held (Name : Type*) := Mutex Name → Bool

def noMutex : Held Name := fun _ => false

def Unmasked (held : Held Name) : Prop :=
  ∀ mutex, mutex.masked = true → held mutex = false

theorem unmasked_noMutex : Unmasked (noMutex : Held Name) := fun _ _ => rfl

/-- The causes of `yield` in the ALARM handler and in `Mutex_Lock`, where the
thread may hold a mutex. -/
def forced (cause : SchedCause) : Bool := cause = .quantum ∨ cause = .mutex

variable [DecidableEq Name]

/-- The thread has just been switched to, and is at the head of `gain`. -/
def Boards (code : List (Instr Core Name)) : Prop :=
  ∃ more, code = .mutexLock .schedSpinlock :: .takeOver :: more

/-- The code can be run with preemption on or off by a thread that holds the
given mutexes: it unlocks what it holds, no mutex but one that spins is locked
with preemption off, preemption comes on only when the masked ones are free,
and user code is reached with preemption on and without a mutex. -/
def Fits : List (Instr Core Name) → Bool → Held Name → Prop
  | [], preempt, held => preempt = true ∧ held = noMutex
  | .mutexLock mutex :: rest, preempt, held | .mutexSpin mutex _ :: rest, preempt, held =>
    held mutex = false ∧ (preempt = false → mutex.spins = true) ∧
      (mutex.masked = true → preempt = false) ∧
      Fits rest preempt (update held mutex mutex.spins)
  | .mutexUnlock mutex :: rest, preempt, held =>
    (mutex.spins = true → held mutex = true) ∧ Fits rest preempt (update held mutex false)
  | .preemptOff :: rest, _, held => Fits rest false held
  | .restore saved :: rest, preempt, held =>
    (saved = true → Unmasked held) ∧ Fits rest (preempt || saved) held
  | .yield cause :: rest, preempt, held =>
    Unmasked held ∧ (forced cause = true ∨ held = noMutex) ∧ Fits rest preempt held
  | .select _ :: rest, preempt, held => preempt = false ∧ Fits rest false held
  | .swapContext cause :: rest, preempt, held =>
    preempt = false ∧ Unmasked held ∧ (forced cause = true ∨ held = noMutex) ∧ Boards rest ∧
      Fits rest false held
  | .takeOver :: rest, preempt, held => preempt = false ∧ Fits rest false held
  | .wakeup .. :: rest, preempt, held | .cvSignal .. :: rest, preempt, held
  | .markSignalled .. :: rest, preempt, held =>
    held .schedSpinlock = false ∧ Fits rest preempt held
  | .makeReady _ _ saved :: rest, preempt, held =>
    preempt = false ∧ held .schedSpinlock = true ∧
      (saved = true → Unmasked (update held .schedSpinlock false)) ∧
      Fits rest saved (update held .schedSpinlock false)
  | .sleepReleasing _ mutex _ _ :: rest, preempt, held =>
    held .schedSpinlock = false ∧ (mutex.spins = true → held mutex = true) ∧
      update held mutex false = noMutex ∧ Fits rest preempt noMutex
  | .fallAsleep .. :: rest, preempt, held => preempt = false ∧ Fits rest false held
  | .countThread :: rest, preempt, held | .uncountThread :: rest, preempt, held
  | .enqueue _ :: rest, preempt, held | .recheck _ :: rest, preempt, held
  | .semUp :: rest, preempt, held => Fits rest preempt held
  | .semDown :: rest, preempt, held =>
    held = update noMutex .kernelMutex true ∧ Fits rest preempt held
  | .readSerial .. :: rest, preempt, held =>
    preempt = false ∧ held = noMutex ∧ Fits rest false noMutex
  | .serialRxHandler :: rest, preempt, held => Unmasked held ∧ Fits rest preempt held
  | .inKernel :: rest, preempt, held | .idle :: rest, preempt, held =>
    preempt = true ∧ held = noMutex ∧ rest = []

/-! ### The code of the functions -/

section
variable {rest : List (Instr Core Name)} {preempt : Bool} {held : Held Name}

/-- A mutex is locked and unlocked again. -/
theorem held_again {mutex : Mutex Name} (free : held mutex = false) (value : Bool) :
    update (update held mutex value) mutex false = held := by
  rw [update_idem, ← free, update_eq_self]

theorem noMutex_again (mutex : Mutex Name) (value : Bool) :
    update (update noMutex mutex value) mutex false = noMutex := held_again rfl value

theorem update_noMutex (mutex : Mutex Name) : update noMutex mutex false = noMutex :=
  update_eq_self (f := noMutex) mutex

theorem fits_gain (free : held .schedSpinlock = false) (unmasked : preempt = true → Unmasked held)
    (fits : Fits rest preempt held) : Fits (gain preempt ++ rest) false held := by
  simp [gain, Fits, free, Mutex.spins, held_again free]
  exact ⟨unmasked, fits⟩

theorem fits_yieldBody {cause : SchedCause} (unmasked : Unmasked held)
    (may : forced cause = true ∨ held = noMutex) (fits : Fits rest preempt held) :
    Fits (yieldBody cause preempt ++ rest) false held := by
  have free : held .schedSpinlock = false := unmasked _ rfl
  have boards : Boards (gain preempt ++ rest) := ⟨_, rfl⟩
  have gains := fits_gain free (fun _ => unmasked) fits
  simp [yieldBody, Fits, free, Mutex.spins, held_again free, may]
  exact ⟨unmasked, boards, gains⟩

theorem fits_wakeupBody {thread : TcbRef Core} {signal : Option (Cv Name × Bool)}
    (free : held .schedSpinlock = false) (unmasked : preempt = true → Unmasked held)
    (fits : Fits rest preempt held) :
    Fits (wakeupBody thread signal preempt ++ rest) false held := by
  simp [wakeupBody, Fits, free, Mutex.spins, held_again free]
  exact ⟨unmasked, fits⟩

/-- Past its section, `wakeup` returns, and `cv_signal` goes on. -/
theorem fits_afterWakeup {thread : TcbRef Core} {signal : Option (Cv Name × Bool)} {woke : Bool}
    (locked : held .schedSpinlock = true)
    (unmasked : preempt = true → Unmasked (update held .schedSpinlock false))
    (fits : Fits rest preempt (update held .schedSpinlock false)) :
    Fits (afterWakeup thread signal preempt woke ++ rest) false held := by
  have unlocked : update held .schedSpinlock false .schedSpinlock = false := update_self ..
  simp only [afterWakeup, List.cons_append, List.nil_append, Fits, locked, implies_true, true_and,
    Bool.false_or]
  refine ⟨unmasked, ?_⟩
  cases signal with
  | none => exact fits
  | some call =>
    cases woke
    · exact ⟨unlocked, fits⟩
    · exact ⟨unlocked, fits⟩

theorem fits_sleepBody {newstate : ThreadState} {mutex : Mutex Name} {cause : SchedCause}
    {timeout : Option (BitVec 64)} (free : held .schedSpinlock = false)
    (locked : mutex.spins = true → held mutex = true) (last : update held mutex false = noMutex)
    (fits : Fits rest preempt noMutex) :
    Fits (sleepBody newstate mutex cause timeout preempt ++ rest) false held := by
  have apart : mutex ≠ .schedSpinlock := by
    rintro rfl
    cases free.symm.trans (locked rfl)
  have lock : update (update (update held .schedSpinlock true) mutex false) .schedSpinlock false =
      noMutex := by
    rw [update_comm apart.symm, last, noMutex_again]
  have stays : update (update held .schedSpinlock true) mutex false .schedSpinlock = true := by
    rw [update_of_ne apart.symm, update_self]
  simp [sleepBody, Fits, free, Mutex.spins, apart, lock, unmasked_noMutex]
  exact ⟨locked, stays, fits⟩

theorem fits_condSignal {cv : Cv Name} {broadcast : Bool} (free : held (.waitsetLock cv) = false)
    (apart : held .schedSpinlock = false)
    (spins : preempt = false → (Mutex.waitsetLock cv).spins = true)
    (masked : (Mutex.waitsetLock cv).masked = true → preempt = false)
    (fits : Fits rest preempt held) : Fits (condSignal cv broadcast ++ rest) preempt held := by
  simp [condSignal, Fits, free, apart, held_again free]
  exact ⟨spins, masked, fits⟩

/-- Waiting gives up the mutex and all that is held. -/
theorem fits_cvWait {mutex : Mutex Name} {cv : Cv Name} {cause : SchedCause}
    {timeout : Option (BitVec 64)} (apart : mutex ≠ .waitsetLock cv)
    (sched : mutex ≠ .schedSpinlock)
    (spins : preempt = false → mutex.spins = true ∧ (Mutex.waitsetLock cv).spins = true)
    (masked : mutex.masked = true ∨ (Mutex.waitsetLock cv).masked = true → preempt = false)
    (fits : Fits rest preempt (update noMutex mutex mutex.spins)) :
    Fits (cvWait mutex cv cause timeout ++ rest) preempt (update noMutex mutex mutex.spins) := by
  have alone : update (update (update noMutex mutex mutex.spins) (.waitsetLock cv)
      (Mutex.waitsetLock cv).spins) mutex false =
      update noMutex (.waitsetLock cv) (Mutex.waitsetLock cv).spins := by
    rw [update_comm apart, update_idem, update_comm apart.symm]
    rw [update_noMutex]
  have none : ∀ mutex : Mutex Name, (noMutex : Held Name) mutex = false := fun _ => rfl
  simp [cvWait, Fits, apart, apart.symm, sched.symm, alone, none, update_noMutex]
  exact ⟨fun off => (spins off).2, fun hidden => masked (.inr hidden), fun off => (spins off).2,
    fun hidden => masked (.inr hidden), fun off => (spins off).1, fun hidden => masked (.inl hidden),
    fits⟩

/-- `kernel_sem--`, with its wait, and the end of the section under `kernel_mutex`. -/
theorem fits_semDown (fits : Fits rest preempt noMutex) :
    Fits (.semDown :: .mutexUnlock .kernelMutex :: rest) preempt
      (update noMutex .kernelMutex true) := by
  simp [Fits, update_noMutex]
  exact fits

theorem fits_kernelLock (fits : Fits rest preempt noMutex) :
    Fits (kernelLock ++ rest) preempt noMutex :=
  ⟨rfl, fun _ => rfl, by rintro ⟨⟩, fits_semDown fits⟩

/-- What `kernel_unlock`, `kernel_wait` and `kernel_sleep` begin with. -/
theorem fits_semUp (fits : Fits rest preempt (update noMutex .kernelMutex true)) :
    Fits ([.mutexLock .kernelMutex, .semUp] ++ condSignal .kernelSem false ++ rest) preempt
      noMutex := by
  refine ⟨rfl, fun _ => rfl, by rintro ⟨⟩, ?_⟩
  exact fits_condSignal rfl rfl (fun _ => rfl) (by rintro ⟨⟩) fits

theorem fits_kernelUnlock (fits : Fits rest preempt noMutex) :
    Fits (kernelUnlock ++ rest) preempt noMutex := by
  rw [kernelUnlock, List.append_assoc]
  apply fits_semUp
  simp [Fits, update_noMutex]
  exact fits

theorem fits_kernelWait {cv : Cv Name} {cause : SchedCause} {timeout : Option (BitVec 64)}
    (spins : preempt = false → (Mutex.waitsetLock cv).spins = true)
    (masked : (Mutex.waitsetLock cv).masked = true → preempt = false)
    (fits : Fits rest preempt noMutex) :
    Fits (kernelWait cv cause timeout ++ rest) preempt noMutex := by
  rw [kernelWait, List.append_assoc, List.append_assoc]
  apply fits_semUp
  refine fits_cvWait (by simp) (by simp) (fun off => ⟨rfl, spins off⟩) ?_ (fits_semDown fits)
  rintro (⟨⟨⟩⟩ | hidden)
  exact masked hidden

theorem fits_kernelSleep {newstate : ThreadState} {cause : SchedCause}
    (fits : Fits rest preempt noMutex) :
    Fits (kernelSleep newstate cause ++ rest) preempt noMutex := by
  rw [kernelSleep, List.append_assoc]
  apply fits_semUp
  simp [Fits, Mutex.spins, update_noMutex]
  exact ⟨rfl, fits⟩

theorem fits_serialRxBody (serialPorts : Nat) (unmasked : Unmasked held)
    (fits : Fits rest preempt held) :
    Fits (serialRxBody serialPorts preempt ++ rest) false held := by
  rw [serialRxBody, List.append_assoc]
  generalize List.range serialPorts = ports
  induction ports with
  | nil => exact ⟨fun _ => unmasked, by simpa using fits⟩
  | cons devno ports ih =>
    rw [List.flatMap_cons, List.append_assoc]
    exact fits_condSignal (unmasked _ rfl) (unmasked _ rfl) (fun _ => rfl) (fun _ => rfl) ih

/-- `active_threads` changes under its own lock. -/
theorem fits_counting {instr : Instr Core Name}
    (counts : instr = .countThread ∨ instr = .uncountThread)
    (free : held .activeThreadsSpinlock = false) (fits : Fits rest preempt held) :
    Fits (.mutexLock .activeThreadsSpinlock :: instr :: .mutexUnlock .activeThreadsSpinlock :: rest)
      preempt held := by
  rcases counts with rfl | rfl
  all_goals
    simp [Fits, free, Mutex.spins, Mutex.masked, held_again free]
    exact fits

end

theorem fits_inKernel : Fits [(.inKernel : Instr Core Name)] true noMutex := ⟨rfl, rfl, rfl⟩

theorem fits_threadStart : Fits (threadStart : List (Instr Core Name)) false noMutex := by
  have fits : Fits (gain true ++ ([] : List (Instr Core Name))) false noMutex :=
    fits_gain rfl (fun _ => unmasked_noMutex) ⟨rfl, rfl⟩
  simpa [threadStart] using fits

theorem fits_idleThread : Fits (idleThread : List (Instr Core Name)) true noMutex :=
  ⟨unmasked_noMutex, .inr rfl, rfl, rfl, rfl⟩

theorem fits_call (call : Call Name) : Fits (call.code : List (Instr Core Name)) true noMutex := by
  cases call with
  | mutexLock mutex => simp [Call.code, Fits, Mutex.spins, Mutex.masked, update_noMutex]; rfl
  | mutexUnlock mutex => simp [Call.code, Fits, Mutex.spins, update_noMutex]
  | condWait mutex cv timeout =>
    have fits : Fits (cvWait (.user mutex) (.other cv) .user timeout ++
        ([] : List (Instr Core Name))) true (update noMutex (.user mutex) false) :=
      fits_cvWait (by simp) (by simp) (by simp) (by simp [Mutex.masked]) ⟨rfl, update_noMutex _⟩
    simpa [Call.code, Mutex.spins, update_noMutex] using fits
  | condSignal cv broadcast =>
    have fits : Fits (condSignal (.other cv) broadcast ++ ([] : List (Instr Core Name))) true
        noMutex :=
      fits_condSignal rfl rfl (by simp) (by simp [Mutex.masked]) ⟨rfl, rfl⟩
    simpa [Call.code] using fits
  | systemCall => exact fits_kernelLock fits_inKernel

theorem fits_kernelCall (call : KernelCall Core Name) : Fits call.code true noMutex := by
  cases call with
  | wakeup thread => exact ⟨rfl, fits_inKernel⟩
  | signal cv broadcast =>
    exact fits_condSignal rfl rfl (by simp) (by simp [Mutex.masked]) fits_inKernel
  | wait cv cause timeout => exact fits_kernelWait (by simp) (by simp [Mutex.masked]) fits_inKernel
  | serialRead devno size => exact ⟨rfl, rfl, fun _ => unmasked_noMutex, fits_inKernel⟩
  | serialWrite => exact ⟨unmasked_noMutex, .inr rfl, fits_inKernel⟩
  | exit => exact fits_kernelSleep fits_inKernel
  | unlock =>
    have fits : Fits (kernelUnlock ++ ([] : List (Instr Core Name))) true noMutex :=
      fits_kernelUnlock ⟨rfl, rfl⟩
    simpa [KernelCall.code] using fits

end TinyOs.Preemption
