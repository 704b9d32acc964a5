import TinyOs.CoreHalt

/-! Which interleavings let a halted core sleep through an interrupt: those
where `raise_interrupt` finds its target with `SIGUSR1` blocked and not yet
marked as halted. -/
namespace TinyOs.CoreHalt
open Library Function

variable {Core Thread : Type*} [DecidableEq Core]
variable {s t : State Core Thread} {core : Core} {raiser : Raiser Thread} {intno : Interrupt}

/-! ### Masks and flags -/

/-- `cpu_core_halt` has blocked `SIGUSR1` and not yet unblocked it. -/
def Point.blocks : Point → Bool
  | .masked | .waiting | .woken => true
  | .executing | .unmasked => false

/-- `SIGUSR1` is blocked in `cpu_core_halt` and while interrupts are disabled,
and these two do not meet. -/
def CoreState.Masks (c : CoreState) : Prop :=
  c.sigMasked = (c.point.blocks || c.intDisabled) ∧ (c.point ≠ .executing → c.intDisabled = false)

/-- A call that set the flag has queued its signal, or returned, and the flag
has not been cleared since. -/
def Settled (s : State Core Thread) (core : Core) (intno : Interrupt) : Prop :=
  s.completed core intno = true ∨ ∃ raiser, s.raise raiser = some ⟨core, intno, true, true⟩

/-- The part of the invariant that holds also while a signal is delivered. -/
structure Sound (s : State Core Thread) : Prop where
  masks : ∀ core, (s.core core).Masks
  live : ∀ raiser core intno queued, s.raise raiser = some ⟨core, intno, queued, true⟩ →
    (s.core core).intpending intno = true

/-- A flag that is settled has its signal pending. -/
structure Inv (s : State Core Thread) : Prop extends Sound s where
  settled : ∀ core intno, Settled s core intno →
    (s.core core).sigMasked = true ∧ (s.core core).sigPending = true

omit [DecidableEq Core] in
theorem boot_inv : Inv (boot : State Core Thread) where
  masks core := by simp [boot, CoreState.Masks, Point.blocks]
  live raiser core intno queued raised := by simp [boot] at raised
  settled core intno := by simp [Settled, boot]

/-- Steps of a core that leave flags and calls alone. -/
theorem Sound.move (sound : Sound s) {next : CoreState}
    (pending : next.intpending = (s.core core).intpending) (masks : next.Masks) :
    Sound (setCore s core next) where
  masks other := by
    rcases eq_or_ne other core with rfl | elsewhere
    · simpa [setCore] using masks
    · simpa [setCore, elsewhere] using sound.masks other
  live raiser other intno queued raised := by
    have before := sound.live raiser other intno queued raised
    rcases eq_or_ne other core with rfl | elsewhere
    · simpa [setCore, pending] using before
    · simpa [setCore, elsewhere] using before

/-- A core changes its registers and no pending interrupt. -/
theorem Inv.move (inv : Inv s) {next : CoreState}
    (pending : next.intpending = (s.core core).intpending) (masks : next.Masks)
    (settled : ∀ intno, Settled s core intno → next.sigMasked = true ∧ next.sigPending = true) :
    Inv (setCore s core next) where
  toSound := inv.toSound.move pending masks
  settled other intno here := by
    rcases eq_or_ne other core with rfl | elsewhere
    · simpa [setCore] using settled intno here
    · simpa [setCore, elsewhere] using inv.settled other intno here

omit [DecidableEq Core] in
theorem Inv.list (inv : Inv s) (list : List Core) : Inv { s with haltedList := list } :=
  ⟨⟨inv.masks, inv.live⟩, inv.settled⟩

omit [DecidableEq Core] in
/-- A core that does not block `SIGUSR1` has no settled flag. -/
theorem Inv.unsettled (inv : Inv s) (unmasked : (s.core core).sigMasked = false)
    (settled : Settled s core intno) : False := by
  have blocked := (inv.settled core intno settled).1
  rw [unmasked] at blocked
  cases blocked

/-! ### Clearing flags -/

/-- Clearing flags settles nothing. -/
theorem settled_of_clear {which : Interrupt → Bool} {other : Core}
    (settled : Settled (clearPending s core which) other intno) :
    Settled s other intno ∧ (other = core → which intno = false) := by
  rcases settled with completed | ⟨raiser, raised⟩
  · simp only [clearPending, Bool.and_eq_true, Bool.not_eq_true', Bool.and_eq_false_iff,
      decide_eq_false_iff_not] at completed
    exact ⟨.inl completed.1, fun same => completed.2.resolve_left (not_not_intro same)⟩
  · simp only [clearPending, Option.map_eq_some_iff, Raise.mk.injEq, Bool.and_eq_true,
      Bool.not_eq_true', Bool.and_eq_false_iff, decide_eq_false_iff_not] at raised
    obtain ⟨⟨c, i, q, l⟩, before, rfl, rfl, rfl, rfl, kept⟩ := raised
    exact ⟨.inr ⟨raiser, before⟩, fun same => kept.resolve_left (not_not_intro same)⟩

/-- Clearing flags only asks for the settled flags that it leaves. -/
theorem Sound.clear {which : Interrupt → Bool} (sound : Sound s)
    (settled : ∀ other intno, Settled s other intno → (other = core → which intno = false) →
      (s.core other).sigMasked = true ∧ (s.core other).sigPending = true) :
    Inv (clearPending s core which) where
  masks other := by
    have before := sound.masks other
    rcases eq_or_ne other core with rfl | elsewhere
    · simpa [clearPending, CoreState.Masks] using before
    · simpa [clearPending, elsewhere] using before
  live raiser other intno queued raised := by
    simp only [clearPending, Option.map_eq_some_iff, Raise.mk.injEq, Bool.and_eq_true,
      Bool.not_eq_true', Bool.and_eq_false_iff, decide_eq_false_iff_not] at raised
    obtain ⟨⟨c, i, q, l⟩, before, rfl, rfl, rfl, rfl, kept⟩ := raised
    have pending := sound.live raiser c i q before
    rcases eq_or_ne c core with rfl | elsewhere
    · simp [clearPending, pending, kept.resolve_left (not_not_intro rfl)]
    · simpa [clearPending, elsewhere] using pending
  settled other intno here := by
    obtain ⟨before, left⟩ := settled_of_clear here
    have blocked := settled other intno before left
    rcases eq_or_ne other core with rfl | elsewhere
    · simpa [clearPending] using blocked
    · simpa [clearPending, elsewhere] using blocked

theorem clearPending_inv (inv : Inv s) (core : Core) (which : Interrupt → Bool) :
    Inv (clearPending s core which) :=
  inv.toSound.clear fun other intno settled _ => inv.settled other intno settled

/-- The interrupts are handled, or left for later. -/
theorem dispatchInterrupts_inv (inv : Inv s) (core : Core) : Inv (dispatchInterrupts s core) := by
  unfold dispatchInterrupts
  split
  · exact inv
  · exact clearPending_inv inv core _

/-- A run of the handler with interrupts enabled forgives what is settled for
the core. -/
theorem Sound.handle (sound : Sound s) (enabled : (s.core core).intDisabled = false)
    (settled : ∀ other intno, other ≠ core → Settled s other intno →
      (s.core other).sigMasked = true ∧ (s.core other).sigPending = true) :
    Inv (sigusr1Handler s core) := by
  have cleared : sigusr1Handler s core = clearPending s core fun _ => true := by
    simp [sigusr1Handler, dispatchInterrupts, enabled]
  rw [cleared]
  refine sound.clear fun other intno here left => settled other intno (fun same => ?_) here
  exact absurd (left same) (by simp)

/-- Once the handler has run for a pending signal, and with no signal nothing is
settled, so `SIGUSR1` can be unblocked. -/
theorem unblockSigusr1_inv (inv : Inv s) {mid : CoreState}
    (pending : mid.intpending = (s.core core).intpending)
    (signal : mid.sigPending = (s.core core).sigPending) (enabled : mid.intDisabled = false)
    (point : mid.point.blocks = false) : Inv (unblockSigusr1 (setCore s core mid) core) := by
  have unblocked : unblockSigusr1 (setCore s core mid) core =
      if (s.core core).sigPending then
        sigusr1Handler (setCore s core { mid with sigMasked := false, sigPending := false }) core
      else setCore s core { mid with sigMasked := false, sigPending := false } := by
    simp [unblockSigusr1, setCore, signal]
  have masks : CoreState.Masks { mid with sigMasked := false, sigPending := false } :=
    ⟨by simp [point, enabled], fun _ => enabled⟩
  have moved : Sound (setCore s core { mid with sigMasked := false, sigPending := false }) :=
    inv.toSound.move pending masks
  rw [unblocked]
  split
  · apply moved.handle (by simpa [setCore] using enabled)
    intro other intno elsewhere settled
    simpa [setCore, elsewhere] using inv.settled other intno settled
  · next silent =>
    refine inv.move pending masks fun intno settled => ?_
    exact absurd (inv.settled core intno settled).2 silent

/-! ### The steps -/

/-- A restart touches `halted` alone. -/
theorem coreRestart_inv (inv : Inv s) (core : Core) : Inv (coreRestart s core) := by
  unfold coreRestart
  split
  · have moved : Inv (setCore s core { s.core core with halted := false }) :=
      inv.move rfl (inv.masks core) fun intno => inv.settled core intno
    exact moved.list _
  · exact inv

theorem cpuCoreRestartOne_inv (inv : Inv s) : Inv (cpuCoreRestartOne s) := by
  unfold cpuCoreRestartOne
  split
  · exact inv
  · exact coreRestart_inv (inv.list _) _

omit [DecidableEq Core] in
theorem cpuCoreRestartAll_inv (inv : Inv s) : Inv (cpuCoreRestartAll s) :=
  ⟨⟨inv.masks, inv.live⟩, inv.settled⟩

theorem disableInterrupts_inv (inv : Inv s) (here : (s.core core).point = .executing) :
    Inv (disableInterrupts s core) := by
  unfold disableInterrupts
  split
  · exact inv
  · refine inv.move rfl ⟨by simp, fun elsewhere => absurd here elsewhere⟩ fun intno settled => ?_
    exact ⟨rfl, (inv.settled core intno settled).2⟩

theorem enableInterrupts_inv (inv : Inv s) (here : (s.core core).point = .executing) :
    Inv (enableInterrupts s core) := by
  unfold enableInterrupts
  split
  · have unblocked : Inv
        (unblockSigusr1 (setCore s core { s.core core with intDisabled := false }) core) :=
      unblockSigusr1_inv inv rfl rfl rfl (by simp [here, Point.blocks])
    exact dispatchInterrupts_inv unblocked core
  · exact inv

section Raises
variable [DecidableEq Thread]

theorem setPending_inv (inv : Inv s) (idle : s.raise raiser = none) :
    Inv (setPending s raiser core intno) where
  masks other := by
    have before := inv.masks other
    rcases eq_or_ne other core with rfl | elsewhere
    · simpa [setPending, CoreState.Masks] using before
    · simpa [setPending, elsewhere] using before
  live other c i queued raised := by
    rcases eq_or_ne other raiser with rfl | elsewhere
    · obtain ⟨rfl, rfl, -⟩ : core = c ∧ intno = i ∧ false = queued := by
        simpa [setPending] using raised
      simp [setPending]
    · have before := inv.live other c i queued (by simpa [setPending, elsewhere] using raised)
      rcases eq_or_ne c core with rfl | apart
      · simp [setPending, update_apply, before]
      · simpa [setPending, apart] using before
  settled c i settled := by
    have before : Settled s c i := by
      rcases settled with completed | ⟨other, raised⟩
      · exact .inl completed
      · have elsewhere : other ≠ raiser := by
          rintro rfl
          simp [setPending] at raised
        exact .inr ⟨other, by simpa [setPending, elsewhere] using raised⟩
    have blocked := inv.settled c i before
    rcases eq_or_ne c core with rfl | apart
    · simpa [setPending] using blocked
    · simpa [setPending, apart] using blocked

/-- From the signal on, the interrupt is either handled or held back with `SIGUSR1`. -/
theorem queueSignal_inv (inv : Inv s) {raise : Raise Core} (raised : s.raise raiser = some raise) :
    Inv (queueSignal s raiser raise) := by
  obtain ⟨c, i, q, l⟩ := raise
  have sound : Sound { s with raise := update s.raise raiser (some ⟨c, i, true, l⟩) } := by
    refine ⟨inv.masks, fun other c' i' queued pending => ?_⟩
    rcases eq_or_ne other raiser with rfl | elsewhere
    · obtain ⟨rfl, rfl, -, rfl⟩ : c = c' ∧ i = i' ∧ true = queued ∧ l = true := by
        simpa using pending
      exact inv.live other c i q raised
    · exact inv.live other c' i' queued (by simpa [elsewhere] using pending)
  have others : ∀ c' i', c' ≠ c →
      Settled { s with raise := update s.raise raiser (some ⟨c, i, true, l⟩) } c' i' →
      (s.core c').sigMasked = true ∧ (s.core c').sigPending = true := by
    intro c' i' apart settled
    apply inv.settled c' i'
    rcases settled with completed | ⟨other, pending⟩
    · exact .inl completed
    · have elsewhere : other ≠ raiser := by
        rintro rfl
        simp only [update_self, Option.some.injEq, Raise.mk.injEq] at pending
        exact apart pending.1.symm
      exact .inr ⟨other, by simpa [elsewhere] using pending⟩
  cases masked : (s.core c).sigMasked with
  | true =>
    have same : queueSignal s raiser ⟨c, i, q, l⟩ =
        setCore { s with raise := update s.raise raiser (some ⟨c, i, true, l⟩) } c
          { s.core c with sigPending := true } := by simp [queueSignal, masked]
    rw [same]
    refine ⟨sound.move rfl (inv.masks c), fun c' i' settled => ?_⟩
    rcases eq_or_ne c' c with rfl | apart
    · simp [setCore, masked]
    · simpa [setCore, apart] using others c' i' apart settled
  | false =>
    have same : queueSignal s raiser ⟨c, i, q, l⟩ =
        sigusr1Handler { s with raise := update s.raise raiser (some ⟨c, i, true, l⟩) } c := by
      simp [queueSignal, masked]
    rw [same]
    refine sound.handle ?_ others
    have masks := (inv.masks c).1
    rw [masked] at masks
    exact (Bool.or_eq_false_iff.mp masks.symm).2

/-- A call is recorded when it returns while its interrupt is still pending. -/
theorem noteReturn_completed {raise : Raise Core} {c : Core}
    (completed : (noteReturn s raiser raise).completed c intno = true) :
    s.completed c intno = true ∨ c = raise.core ∧ intno = raise.intno ∧ raise.live = true := by
  simp only [noteReturn, update_apply] at completed
  grind

/-- A call may return: what it has raised is handled, or held back with the signal. -/
theorem finishRaise_inv (inv : Inv s) {raise : Raise Core} (raised : s.raise raiser = some raise)
    (queued : raise.queued = true) : Inv (finishRaise s raiser raise) := by
  have recorded : Inv (noteReturn s raiser raise) := by
    refine ⟨⟨inv.masks, fun other c i queued pending => ?_⟩, fun c i settled => ?_⟩
    · have elsewhere : other ≠ raiser := by
        rintro rfl
        simp [noteReturn] at pending
      exact inv.live other c i queued (by simpa [noteReturn, elsewhere] using pending)
    · apply inv.settled c i
      rcases settled with completed | ⟨other, pending⟩
      · rcases noteReturn_completed completed with before | ⟨rfl, rfl, live⟩
        · exact .inl before
        · refine .inr ⟨raiser, raised.trans (congrArg some ?_)⟩
          cases raise with
          | mk core intno queued' live' =>
            simp only at queued live
            rw [queued, live]
      · have elsewhere : other ≠ raiser := by
          rintro rfl
          simp [noteReturn] at pending
        exact .inr ⟨other, by simpa [noteReturn, elsewhere] using pending⟩
  exact coreRestart_inv recorded raise.core

theorem step_inv (inv : Inv s) (label : Label Core Thread) (moved : step s label = some t) :
    Inv t := by
  cases label with
  | maskSignal core =>
    simp only [step, Option.ite_none_right_eq_some, Option.some.injEq] at moved
    obtain ⟨⟨here, enabled⟩, rfl⟩ := moved
    have unmasked : (s.core core).sigMasked = false := by
      rw [(inv.masks core).1, here, enabled]
      rfl
    exact inv.move rfl ⟨rfl, fun _ => enabled⟩ fun intno settled =>
      (inv.unsettled unmasked settled).elim
  | enterHalt core =>
    simp only [step, Option.ite_none_right_eq_some, Option.some.injEq] at moved
    obtain ⟨here, rfl⟩ := moved
    have masks := inv.masks core
    have entered : Inv (setCore s core { s.core core with halted := true, point := .waiting }) := by
      refine inv.move rfl ⟨?_, fun _ => masks.2 (by simp [here])⟩ (inv.settled core)
      simpa [here, Point.blocks] using masks.1
    exact entered.list _
  | wake core =>
    simp only [step, Option.ite_none_right_eq_some, Option.some.injEq] at moved
    obtain ⟨⟨here, -⟩, rfl⟩ := moved
    have masks := inv.masks core
    refine inv.move rfl ⟨?_, fun _ => masks.2 (by simp [here])⟩ (inv.settled core)
    simpa [here, Point.blocks] using masks.1
  | unmaskSignal core =>
    simp only [step, Option.ite_none_right_eq_some, Option.some.injEq] at moved
    obtain ⟨here, rfl⟩ := moved
    exact unblockSigusr1_inv inv rfl rfl ((inv.masks core).2 (by simp [here])) rfl
  | dispatch core =>
    simp only [step, Option.ite_none_right_eq_some, Option.some.injEq] at moved
    obtain ⟨here, rfl⟩ := moved
    have masks := inv.masks core
    have returned : Inv (moveTo s core .executing) := by
      refine inv.move rfl ⟨?_, fun elsewhere => (elsewhere rfl).elim⟩ (inv.settled core)
      simpa [here, Point.blocks] using masks.1
    exact dispatchInterrupts_inv returned core
  | disableInterrupts core =>
    simp only [step, Option.ite_none_right_eq_some, Option.some.injEq] at moved
    obtain ⟨here, rfl⟩ := moved
    exact disableInterrupts_inv inv here
  | enableInterrupts core =>
    simp only [step, Option.ite_none_right_eq_some, Option.some.injEq] at moved
    obtain ⟨here, rfl⟩ := moved
    exact enableInterrupts_inv inv here
  | setTimer core =>
    simp only [step, Option.ite_none_right_eq_some, Option.some.injEq] at moved
    obtain ⟨-, rfl⟩ := moved
    exact clearPending_inv inv core _
  | setPending raiser core intno =>
    simp only [step, Option.ite_none_right_eq_some, Option.some.injEq] at moved
    obtain ⟨⟨idle, -⟩, rfl⟩ := moved
    exact setPending_inv inv idle
  | queueSignal raiser =>
    cases raised : s.raise raiser with
    | none => simp [step, raised] at moved
    | some raise =>
      obtain ⟨-, rfl⟩ : raise.queued = false ∧ queueSignal s raiser raise = t := by
        simpa [step, raised] using moved
      exact queueSignal_inv inv raised
  | finishRaise raiser =>
    cases raised : s.raise raiser with
    | none => simp [step, raised] at moved
    | some raise =>
      obtain ⟨queued, rfl⟩ : raise.queued = true ∧ finishRaise s raiser raise = t := by
        simpa [step, raised] using moved
      exact finishRaise_inv inv raised queued
  | restart core =>
    obtain rfl := Option.some.inj moved
    exact coreRestart_inv inv core
  | restartOne =>
    obtain rfl := Option.some.inj moved
    exact cpuCoreRestartOne_inv inv
  | restartAll =>
    obtain rfl := Option.some.inj moved
    exact cpuCoreRestartAll_inv inv

end Raises

/-! ### Going to sleep -/

/-- The core is on its way to sleep in `cpu_core_halt`, or asleep. -/
def CoreState.Sleepy (c : CoreState) : Prop :=
  c.point = .masked ∨ c.point = .waiting ∧ c.halted = true

/-- No raised interrupt is forgotten by a core that goes to sleep. -/
def Attentive (s : State Core Thread) : Prop :=
  ∀ core, (s.core core).Sleepy → ∀ intno, s.completed core intno = false

/-- A step that puts no core to sleep and after which no call has returned. -/
structure Calm (s t : State Core Thread) : Prop where
  sleepy : ∀ core, (t.core core).Sleepy → (s.core core).Sleepy
  completed : ∀ core intno, t.completed core intno = true → s.completed core intno = true

omit [DecidableEq Core] in
theorem Calm.refl (s : State Core Thread) : Calm s s :=
  ⟨fun _ => id, fun _ _ => id⟩

omit [DecidableEq Core] in
theorem Calm.trans {u : State Core Thread} (first : Calm s t) (second : Calm t u) : Calm s u :=
  ⟨fun core => first.sleepy core ∘ second.sleepy core,
    fun core intno => first.completed core intno ∘ second.completed core intno⟩

omit [DecidableEq Core] in
/-- A calm step forgets no interrupt. -/
theorem Calm.attentive (calm : Calm s t) (attentive : Attentive s) : Attentive t := by
  intro core sleepy intno
  have before := attentive core (calm.sleepy core sleepy) intno
  apply Bool.eq_false_iff.mpr
  intro completed
  rw [calm.completed core intno completed] at before
  cases before

/-- A core that was not on its way to sleep is not put on it. -/
theorem setCore_calm {next : CoreState} (sleepy : next.Sleepy → (s.core core).Sleepy) :
    Calm s (setCore s core next) where
  sleepy other := by
    rcases eq_or_ne other core with rfl | elsewhere
    · simpa [setCore] using sleepy
    · simp [setCore, elsewhere]
  completed _ _ := id

theorem clearPending_calm (s : State Core Thread) (core : Core) (which : Interrupt → Bool) :
    Calm s (clearPending s core which) where
  sleepy other := by
    rcases eq_or_ne other core with rfl | elsewhere
    · simp [clearPending, CoreState.Sleepy]
    · simp [clearPending, elsewhere]
  completed other intno completed := by
    simp only [clearPending, Bool.and_eq_true] at completed
    exact completed.1

theorem dispatchInterrupts_calm (s : State Core Thread) (core : Core) :
    Calm s (dispatchInterrupts s core) := by
  unfold dispatchInterrupts
  split
  · exact .refl s
  · exact clearPending_calm s core _

theorem sigusr1Handler_calm (s : State Core Thread) (core : Core) :
    Calm s (sigusr1Handler s core) := by
  unfold sigusr1Handler
  split
  · exact .refl s
  · exact dispatchInterrupts_calm s core

theorem unblockSigusr1_calm (s : State Core Thread) (core : Core) :
    Calm s (unblockSigusr1 s core) := by
  have unblocked : Calm s
      (setCore s core { s.core core with sigMasked := false, sigPending := false }) :=
    setCore_calm id
  unfold unblockSigusr1
  cases (s.core core).sigPending with
  | false => exact unblocked
  | true => exact unblocked.trans (sigusr1Handler_calm _ core)

/-- A restart can only wake a core up. -/
theorem coreRestart_calm (s : State Core Thread) (core : Core) : Calm s (coreRestart s core) := by
  unfold coreRestart
  split
  · have restarted : Calm s (setCore s core { s.core core with halted := false }) :=
      setCore_calm fun sleepy => sleepy.imp_right fun asleep => absurd asleep.2 (by simp)
    exact ⟨restarted.sleepy, restarted.completed⟩
  · exact .refl s

theorem moveTo_calm (s : State Core Thread) (core : Core) {next : Point} (leaves : next ≠ .masked)
    (wakes : next ≠ .waiting) : Calm s (moveTo s core next) := by
  apply setCore_calm
  rintro (masked | asleep)
  · exact absurd masked leaves
  · exact absurd asleep.1 wakes

theorem disableInterrupts_calm (s : State Core Thread) (core : Core) :
    Calm s (disableInterrupts s core) := by
  unfold disableInterrupts
  split
  · exact .refl s
  · exact setCore_calm id

theorem enableInterrupts_calm (s : State Core Thread) (core : Core) :
    Calm s (enableInterrupts s core) := by
  unfold enableInterrupts
  split
  · have enabled : Calm s (setCore s core { s.core core with intDisabled := false }) :=
      setCore_calm id
    exact (enabled.trans (unblockSigusr1_calm _ core)).trans (dispatchInterrupts_calm _ core)
  · exact .refl s

theorem cpuCoreRestartOne_calm (s : State Core Thread) : Calm s (cpuCoreRestartOne s) := by
  unfold cpuCoreRestartOne
  split
  · exact .refl s
  · next core rest _ =>
    have popped : Calm s { s with haltedList := rest } := ⟨fun _ => id, fun _ _ => id⟩
    exact popped.trans (coreRestart_calm _ core)

omit [DecidableEq Core] in
theorem cpuCoreRestartAll_calm (s : State Core Thread) : Calm s (cpuCoreRestartAll s) :=
  ⟨fun core sleepy => sleepy.imp_right fun asleep => absurd asleep.2 (by simp [cpuCoreRestartAll]),
    fun _ _ => id⟩

/-- A core that halts was on its way to sleep already. -/
theorem enterHalt_calm (here : (s.core core).point = .masked) : Calm s (enterHalt s core) := by
  have entered : Calm s (setCore s core { s.core core with halted := true, point := .waiting }) :=
    setCore_calm fun _ => .inl here
  exact ⟨entered.sleepy, entered.completed⟩

/-- Who is restarted and goes to sleep all the same has not marked itself as halted yet. -/
theorem coreRestart_sleepy (s : State Core Thread) (core : Core)
    (sleepy : ((coreRestart s core).core core).Sleepy) : (s.core core).point = .masked := by
  unfold coreRestart at sleepy
  split at sleepy
  · simpa [CoreState.Sleepy] using sleepy
  · next awake => exact sleepy.resolve_right fun asleep => awake asleep.2

/-- A core begins to halt only with no call of `raise_interrupt` behind it: the
interrupts are enabled, so what was raised for it has been handled. -/
theorem maskSignal_attentive (inv : Inv s) (attentive : Attentive s)
    (here : (s.core core).point = .executing) (enabled : (s.core core).intDisabled = false) :
    Attentive (setCore s core { s.core core with point := .masked, sigMasked := true }) := by
  have unmasked : (s.core core).sigMasked = false := by
    rw [(inv.masks core).1, here, enabled]
    rfl
  intro other sleepy intno
  rcases eq_or_ne other core with rfl | elsewhere
  · apply Bool.eq_false_iff.mpr
    intro completed
    exact inv.unsettled unmasked (.inl completed)
  · apply attentive other
    simpa [setCore, elsewhere] using sleepy

variable [DecidableEq Thread]

theorem setPending_calm (s : State Core Thread) (raiser : Raiser Thread) (core : Core)
    (intno : Interrupt) : Calm s (setPending s raiser core intno) := by
  have set : Calm s (setCore s core
      { s.core core with intpending := update (s.core core).intpending intno true }) :=
    setCore_calm id
  exact ⟨set.sleepy, set.completed⟩

/-- The handler may run in the target, and puts it nowhere near sleep. -/
theorem queueSignal_calm (s : State Core Thread) (raiser : Raiser Thread) (raise : Raise Core) :
    Calm s (queueSignal s raiser raise) := by
  have queued : Calm s
      { s with raise := update s.raise raiser (some { raise with queued := true }) } :=
    ⟨fun _ => id, fun _ _ => id⟩
  unfold queueSignal
  simp only
  split
  · exact queued.trans (setCore_calm id)
  · exact queued.trans (sigusr1Handler_calm _ raise.core)

/-- The call of `raise_interrupt` does not find its target with `SIGUSR1`
blocked, not yet marked as halted, and its interrupt still pending. -/
def Allowed (s : State Core Thread) : Label Core Thread → Prop
  | .finishRaise raiser => ∀ raise, s.raise raiser = some raise →
      ¬ ((s.core raise.core).point = .masked ∧ raise.live = true)
  | _ => True

/-- The call wakes its target up, unless it comes too early. -/
theorem finishRaise_attentive (attentive : Attentive s) {raise : Raise Core}
    (allowed : ¬ ((s.core raise.core).point = .masked ∧ raise.live = true)) :
    Attentive (finishRaise s raiser raise) := by
  intro other sleepy intno
  apply Bool.eq_false_iff.mpr
  intro completed
  have recorded := (coreRestart_calm _ raise.core).completed other intno completed
  rcases noteReturn_completed recorded with before | ⟨rfl, rfl, live⟩
  · have sleepyBefore : (s.core other).Sleepy :=
      (coreRestart_calm (noteReturn s raiser raise) raise.core).sleepy other sleepy
    rw [attentive other sleepyBefore intno] at before
    cases before
  · have masked := coreRestart_sleepy (noteReturn s raiser raise) raise.core sleepy
    exact allowed ⟨masked, live⟩

/-- Only a call that comes too early can be forgotten. -/
theorem step_attentive (inv : Inv s) (attentive : Attentive s) (label : Label Core Thread)
    (allowed : Allowed s label) (moved : step s label = some t) : Attentive t := by
  cases label with
  | maskSignal core =>
    simp only [step, Option.ite_none_right_eq_some, Option.some.injEq] at moved
    obtain ⟨⟨here, enabled⟩, rfl⟩ := moved
    exact maskSignal_attentive inv attentive here enabled
  | enterHalt core =>
    simp only [step, Option.ite_none_right_eq_some, Option.some.injEq] at moved
    obtain ⟨here, rfl⟩ := moved
    exact (enterHalt_calm here).attentive attentive
  | wake core =>
    simp only [step, Option.ite_none_right_eq_some, Option.some.injEq] at moved
    obtain ⟨-, rfl⟩ := moved
    have left : Calm s (moveTo s core .woken) := moveTo_calm s core nofun nofun
    exact left.attentive attentive
  | unmaskSignal core =>
    simp only [step, Option.ite_none_right_eq_some, Option.some.injEq] at moved
    obtain ⟨-, rfl⟩ := moved
    have left : Calm s (moveTo s core .unmasked) := moveTo_calm s core nofun nofun
    exact (left.trans (unblockSigusr1_calm _ core)).attentive attentive
  | dispatch core =>
    simp only [step, Option.ite_none_right_eq_some, Option.some.injEq] at moved
    obtain ⟨-, rfl⟩ := moved
    have left : Calm s (moveTo s core .executing) := moveTo_calm s core nofun nofun
    exact (left.trans (dispatchInterrupts_calm _ core)).attentive attentive
  | disableInterrupts core =>
    simp only [step, Option.ite_none_right_eq_some, Option.some.injEq] at moved
    obtain ⟨-, rfl⟩ := moved
    exact (disableInterrupts_calm s core).attentive attentive
  | enableInterrupts core =>
    simp only [step, Option.ite_none_right_eq_some, Option.some.injEq] at moved
    obtain ⟨-, rfl⟩ := moved
    exact (enableInterrupts_calm s core).attentive attentive
  | setTimer core =>
    simp only [step, Option.ite_none_right_eq_some, Option.some.injEq] at moved
    obtain ⟨-, rfl⟩ := moved
    exact (clearPending_calm s core _).attentive attentive
  | setPending raiser core intno =>
    simp only [step, Option.ite_none_right_eq_some, Option.some.injEq] at moved
    obtain ⟨-, rfl⟩ := moved
    exact (setPending_calm s raiser core intno).attentive attentive
  | queueSignal raiser =>
    cases raised : s.raise raiser with
    | none => simp [step, raised] at moved
    | some raise =>
      obtain ⟨-, rfl⟩ : raise.queued = false ∧ queueSignal s raiser raise = t := by
        simpa [step, raised] using moved
      exact (queueSignal_calm s raiser raise).attentive attentive
  | finishRaise raiser =>
    cases raised : s.raise raiser with
    | none => simp [step, raised] at moved
    | some raise =>
      obtain ⟨-, rfl⟩ : raise.queued = true ∧ finishRaise s raiser raise = t := by
        simpa [step, raised] using moved
      exact finishRaise_attentive attentive (allowed raise raised)
  | restart core =>
    obtain rfl := Option.some.inj moved
    exact (coreRestart_calm s core).attentive attentive
  | restartOne =>
    obtain rfl := Option.some.inj moved
    exact (cpuCoreRestartOne_calm s).attentive attentive
  | restartAll =>
    obtain rfl := Option.some.inj moved
    exact (cpuCoreRestartAll_calm s).attentive attentive

/-! ### Lost wake-ups -/

theorem reachable_inv (reached : (machine Core Thread).Reachable s) : Inv s := by
  have booted : ∀ s, (machine Core Thread).initial s → Inv s := by
    rintro s rfl
    exact boot_inv
  have kept : ∀ s label t, Inv s → (machine Core Thread).step s label = some t → Inv t :=
    fun s label t inv moved => step_inv inv label moved
  exact reached.induction booted kept

theorem allowed_attentive (reached : (machine Core Thread).ReachableBy Allowed s) :
    Attentive s := by
  have booted : ∀ s, (machine Core Thread).initial s → Inv s ∧ Attentive s := by
    rintro s rfl
    exact ⟨boot_inv, fun _ _ _ => rfl⟩
  have kept : ∀ s label t, Inv s ∧ Attentive s → Allowed s label →
      (machine Core Thread).step s label = some t → Inv t ∧ Attentive t :=
    fun s label t both allowed moved =>
      ⟨step_inv both.1 label moved, step_attentive both.1 both.2 label allowed moved⟩
  exact (reached.induction booted kept).2

/-- A restart that comes too early is lost: the core sleeps by its next step. -/
theorem finishRaise_lost (inv : Inv s) {raise : Raise Core} (raised : s.raise raiser = some raise)
    (masked : (s.core raise.core).point = .masked) (live : raise.live = true) :
    ∃ u, step (finishRaise s raiser raise) (.enterHalt raise.core) = some u ∧
      SleepsThrough u raise.core := by
  have pending : (s.core raise.core).intpending raise.intno = true :=
    inv.live raiser raise.core raise.intno raise.queued (by rw [raised, ← live])
  have kept : ∀ s : State Core Thread,
      ((coreRestart s raise.core).core raise.core).point = (s.core raise.core).point ∧
      ((coreRestart s raise.core).core raise.core).intpending = (s.core raise.core).intpending ∧
      (coreRestart s raise.core).completed = s.completed := by
    intro s
    unfold coreRestart
    split
    · simp
    · exact ⟨rfl, rfl, rfl⟩
  obtain ⟨point, flags, completed⟩ := kept (noteReturn s raiser raise)
  refine ⟨enterHalt (finishRaise s raiser raise) raise.core, if_pos (point.trans masked), ?_⟩
  refine ⟨by simp [enterHalt], by simp [enterHalt], raise.intno, ?_, ?_⟩
  · simp only [enterHalt, finishRaise, update_self, flags]
    exact pending
  · simp only [enterHalt, finishRaise, completed]
    simp [noteReturn, live]

/-- **When a halted core sleeps through an interrupt.** In a run where no
`raise_interrupt` finds its target between blocking `SIGUSR1` and halting, with
the interrupt still pending, no core ever does. One that finds it so is lost:
the next step of the target puts it to sleep with the interrupt pending. -/
theorem sleeps_through_only_lost (Core Thread : Type*) [DecidableEq Core] [DecidableEq Thread] :
    (∀ s, (machine Core Thread).ReachableBy Allowed s → ∀ core, ¬ SleepsThrough s core) ∧
    ∀ s label t, (machine Core Thread).Reachable s → ¬ Allowed s label → step s label = some t →
      ∃ core u, step t (.enterHalt core) = some u ∧ SleepsThrough u core := by
  refine ⟨fun s reached core asleep => ?_, fun s label t reached refused moved => ?_⟩
  · obtain ⟨waiting, halted, intno, -, completed⟩ := asleep
    rw [allowed_attentive reached core (.inr ⟨waiting, halted⟩) intno] at completed
    cases completed
  · cases label with
    | finishRaise raiser =>
      simp only [Allowed, not_forall, not_not] at refused
      obtain ⟨raise, raised, masked, live⟩ := refused
      obtain ⟨-, rfl⟩ : raise.queued = true ∧ finishRaise s raiser raise = t := by
        simpa [step, raised] using moved
      exact ⟨raise.core, finishRaise_lost (reachable_inv reached) raised masked live⟩
    | _ => exact absurd trivial refused

/-- The alarm of one core: its signal is queued before the core halts, and its
restart comes after. -/
def alarmInTime : List (Label Unit Unit) :=
  [.maskSignal (), .setPending .pic () .alarm, .queueSignal .pic, .enterHalt (), .finishRaise .pic]

theorem sleeps_through_only_lost_alarm : ∃ s, alarmInTime.foldlM step boot = some s ∧
    (s.core ()).point = .waiting ∧ ¬ SleepsThrough s () := by
  have booted : (machine Unit Unit).ReachableBy Allowed boot := .start rfl
  have masked := booted.step (show Allowed boot (.maskSignal ()) from trivial) rfl
  have set := masked.step (show Allowed _ (.setPending .pic () .alarm) from trivial) rfl
  have queued := set.step (show Allowed _ (.queueSignal .pic) from trivial) rfl
  have halted := queued.step (show Allowed _ (.enterHalt ()) from trivial) rfl
  have finished := halted.step (show Allowed _ (.finishRaise .pic) from fun raise _ both =>
    absurd both.1 (by simp [enterHalt])) rfl
  exact ⟨_, rfl, rfl, (sleeps_through_only_lost Unit Unit).1 _ finished ()⟩

/-- The alarm of one core: its restart comes before the core has halted. -/
def alarmTooEarly : List (Label Unit Unit) :=
  [.maskSignal (), .setPending .pic () .alarm, .queueSignal .pic, .finishRaise .pic, .enterHalt ()]

/-- A one-core machine sleeps through its timer. -/
theorem lost_alarm : ∃ s, (machine Unit Unit).Reachable s ∧ SleepsThrough s () := by
  have booted : (machine Unit Unit).Reachable boot := .start rfl
  exact ⟨_, booted.replay alarmTooEarly rfl, rfl, rfl, .alarm, rfl, rfl⟩

end TinyOs.CoreHalt
