import TinyOs.Symposium

/-! The monitor of the philosophers over whole runs: forks are not shared,
nobody waits for free forks, and the table does not come to a stop. -/
namespace TinyOs.Symposium
open Function Library

/-- What a philosopher may be in the table when she is at a point. -/
def Point.Fits (signalled : Bool) (phil : Phil) : Point → Prop
  | .arriving | .setThinking | .unlockLeft | .gone => phil = .nothere
  | .unlockArrived | .nextBite _ | .setHungry _ | .tryLeft _ | .tryRight _ | .unlockFinished _
  | .leaving | .setNothere => phil = .thinking
  | .tryMyself _ => phil = .hungry
  | .testHungry _ | .relocking _ => phil = .hungry ∨ phil = .eating
  | .asleep _ => phil = .hungry ∨ phil = .eating ∧ signalled = true
  | .assertEating _ | .unlockEating _ | .eating _ | .setThinkingAgain _ => phil = .eating

/-- The philosopher `i` is going to call `trytoeat` for `k`. -/
def Point.tries (n i k : Nat) : Point → Prop
  | .tryMyself _ => k = i
  | .tryLeft _ => k = left n i ∨ k = right n i
  | .tryRight _ => k = right n i
  | _ => False

/-- The philosopher inside is the one who locked the mutex. -/
structure Held (n : Nat) (s : State) : Prop where
  holder : ∀ i < n, s.mx = some i ↔ (s.point i).inside = true
  seated : ∀ i, s.mx = some i → i < n

/-- What every statement keeps. A hungry philosopher without an eating
neighbour is one whom the philosopher inside has yet to try. -/
structure Table (n : Nat) (s : State) : Prop extends Held n s where
  fits : ∀ i < n, (s.point i).Fits (s.signalled i) (s.state i)
  exclusive : ∀ i < n, left n i ≠ i → s.state i = .eating → s.state (left n i) ≠ .eating
  fed : ∀ k < n, s.state k = .hungry → s.state (left n k) = .eating ∨
    s.state (right n k) = .eating ∨ ∃ i < n, (s.point i).tries n i k
  asserts : s.assertFailed = false

section
variable {n i : Nat} {s t : State} {point : Point}

namespace Held

/-- Nobody but the philosopher inside is inside. -/
theorem outside (held : Held n s) (seated : i < n) (inside : (s.point i).inside = true) {k : Nat}
    (other : k < n) (apart : k ≠ i) : (s.point k).inside = false := by
  cases also : (s.point k).inside
  · rfl
  · have one := ((held.holder i seated).mpr inside).symm.trans ((held.holder k other).mpr also)
    exact absurd (Option.some.inj one).symm apart

theorem goto (held : Held n s) (same : point.inside = (s.point i).inside) :
    Held n (s.goto i point) := by
  refine ⟨fun k other => ?_, held.seated⟩
  change s.mx = some k ↔ (update s.point i point k).inside = true
  rw [held.holder k other, update_apply]
  split
  next here => rw [here, same]
  · rfl

theorem lock (held : Held n s) (free : s.mx = none) (seated : i < n)
    (inside : point.inside = true) : Held n { s.goto i point with mx := some i } := by
  refine ⟨fun k other => ?_, ?_⟩
  · change some i = some k ↔ (update s.point i point k).inside = true
    have before := held.holder k other
    rw [update_apply]
    split
    next here => simp [here, inside]
    next apart =>
      rw [← before, free]
      simp [Ne.symm apart]
  · rintro k same
    obtain rfl := Option.some.inj same
    exact seated

theorem unlock (held : Held n s) (seated : i < n) (inside : (s.point i).inside = true)
    (leaves : point.inside = false) : Held n (s.unlock i point) := by
  refine ⟨fun k other => ?_, nofun⟩
  change none = some k ↔ (update s.point i point k).inside = true
  rw [update_apply]
  split
  · simp [leaves]
  next apart => simp [held.outside seated inside other apart]

end Held

namespace Table

theorem hungry_outside (table : Table n s) {k : Nat} (other : k < n) (hungry : s.state k = .hungry)
    (outside : (s.point k).inside = false) :
    ∃ bite, s.point k = .asleep bite ∨ s.point k = .relocking bite := by
  have fits := table.fits k other
  rw [hungry] at fits
  cases here : s.point k with
  | asleep bite => exact ⟨bite, .inl rfl⟩
  | relocking bite => exact ⟨bite, .inr rfl⟩
  | arriving | nextBite | eating | leaving | gone =>
    rw [here] at fits
    cases fits
  | _ =>
    rw [here] at outside
    cases outside

/-- A statement that leaves the table as it is. -/
theorem move (table : Table n s) (held : Held n t) (state : t.state = s.state)
    (moves : t.point = update s.point i point) (asserts : t.assertFailed = false)
    (signalled : ∀ k, k ≠ i → t.signalled k = s.signalled k)
    (fits : point.Fits (t.signalled i) (s.state i))
    (tried : ∀ k, ¬ (s.point i).tries n i k) : Table n t := by
  refine { held with fits := ?_, exclusive := ?_, fed := ?_, asserts := asserts }
  · intro k other
    rw [moves, state, update_apply]
    split
    next here =>
      rw [here]
      exact fits
    next apart =>
      rw [signalled k apart]
      exact table.fits k other
  · rw [state]
    exact table.exclusive
  · intro k other hungry
    rw [state] at hungry ⊢
    obtain left | right | ⟨j, seated, tries⟩ := table.fed k other hungry
    · exact .inl left
    · exact .inr (.inl right)
    · refine .inr (.inr ⟨j, seated, ?_⟩)
      have apart : j ≠ i := by
        rintro rfl
        exact tried k tries
      rwa [moves, update_of_ne apart]

theorem goto (table : Table n s) (same : point.inside = (s.point i).inside)
    (fits : point.Fits (s.signalled i) (s.state i)) (tried : ∀ k, ¬ (s.point i).tries n i k) :
    Table n (s.goto i point) :=
  table.move (table.toHeld.goto same) rfl rfl table.asserts (fun _ _ => rfl) fits tried

theorem lock (table : Table n s) (locks : s.lock i point = some t) (seated : i < n)
    (inside : point.inside = true) (fits : point.Fits (s.signalled i) (s.state i))
    (tried : ∀ k, ¬ (s.point i).tries n i k) : Table n t := by
  unfold State.lock at locks
  split at locks
  next free =>
    obtain rfl := Option.some.inj locks
    exact table.move (table.toHeld.lock free seated inside) rfl rfl table.asserts
      (fun _ _ => rfl) fits tried
  · cases locks

theorem unlock (table : Table n s) (seated : i < n) (inside : (s.point i).inside = true)
    (leaves : point.inside = false) (fits : point.Fits (s.signalled i) (s.state i))
    (tried : ∀ k, ¬ (s.point i).tries n i k) : Table n (s.unlock i point) :=
  table.move (table.toHeld.unlock seated inside leaves) rfl rfl table.asserts (fun _ _ => rfl)
    fits tried

/-- A philosopher stops eating, or does not begin to. -/
theorem setState (table : Table n s) (seated : i < n) {phil : Phil} (idle : phil ≠ .eating)
    (same : point.inside = (s.point i).inside) (fits : point.Fits (s.signalled i) phil)
    (tried : ∀ k, ¬ (s.point i).tries n i k) (self : phil = .hungry → point.tries n i i)
    (others : s.state i = .eating → ∀ k, k = left n i ∨ k = right n i → point.tries n i k) :
    Table n ((s.setState i phil).goto i point) := by
  have state : ∀ k, k ≠ i → ((s.setState i phil).goto i point).state k = s.state k :=
    fun k apart => update_of_ne apart ..
  have held : Held n ((s.setState i phil).goto i point) :=
    Held.goto (s := s.setState i phil) ⟨table.holder, table.seated⟩ same
  have points : ∀ k, k ≠ i → ((s.setState i phil).goto i point).point k = s.point k :=
    fun k apart => update_of_ne apart ..
  have here : ((s.setState i phil).goto i point).point i = point := update_self ..
  have new : ((s.setState i phil).goto i point).state i = phil := update_self ..
  refine { held with fits := ?_, exclusive := ?_, fed := ?_, asserts := table.asserts }
  · intro k other
    by_cases same : k = i
    · subst k
      rw [here, new]
      exact fits
    · rw [points k same, state k same]
      exact table.fits k other
  · intro k other apart eats
    have not_here : k ≠ i := by
      rintro rfl
      exact idle (new.symm.trans eats)
    rw [state k not_here] at eats
    intro also
    by_cases same : left n k = i
    · rw [same, new] at also
      exact idle also
    · rw [state _ same] at also
      exact table.exclusive k other apart eats also
  · intro k other hungry
    by_cases same : k = i
    · subst k
      rw [new] at hungry
      exact .inr (.inr ⟨i, seated, by rw [here]; exact self hungry⟩)
    · rw [state k same] at hungry
      -- The neighbour that eats may be the one that stops.
      have stops : ∀ j, s.state j = .eating → j = i → k = left n i ∨ k = right n i →
          ∃ i' < n, (((s.setState i phil).goto i point).point i').tries n i' k := by
        rintro j eats rfl beside
        exact ⟨j, seated, by rw [here]; exact others eats k beside⟩
      obtain eats | eats | ⟨j, seated_j, tries⟩ := table.fed k other hungry
      · by_cases neighbour : left n k = i
        · exact .inr (.inr (stops _ eats neighbour (.inr ((left_eq_iff seated other).mp neighbour))))
        · exact .inl ((state _ neighbour).trans eats)
      · by_cases neighbour : right n k = i
        · exact .inr (.inr (stops _ eats neighbour (.inl ((right_eq_iff seated other).mp neighbour))))
        · exact .inr (.inl ((state _ neighbour).trans eats))
      · have apart : j ≠ i := by
          rintro rfl
          exact tried k tries
        exact .inr (.inr ⟨j, seated_j, by rw [points j apart]; exact tries⟩)

/-- A hungry philosopher begins to eat. If she was asleep she is signalled. -/
theorem eat (table : Table n s) (seated : i < n) (inside : (s.point i).inside = true)
    (stays : point.inside = true) {k : Nat} (other : k < n) (hungry : s.state k = .hungry)
    (left_free : s.state (left n k) ≠ .eating) (right_free : s.state (right n k) ≠ .eating)
    (fits : ∀ signalled, point.Fits signalled (if k = i then .eating else s.state i))
    (tried : ∀ j, (s.point i).tries n i j → j = k ∨ point.tries n i j) :
    Table n (((s.setState k .eating).condSignal k).goto i point) := by
  obtain ⟨signalled, same, woken, others⟩ : ∃ signalled,
      (s.setState k .eating).condSignal k =
        { s.setState k .eating with signalled := signalled } ∧
      ((s.point k).sleeps = true → signalled k = true) ∧
      ∀ j, j ≠ k → signalled j = s.signalled j := by
    unfold State.condSignal
    split
    next sleeps => exact ⟨_, rfl, fun _ => update_self .., fun j apart => update_of_ne apart ..⟩
    next awake => exact ⟨s.signalled, rfl, fun sleeps => absurd sleeps awake, fun _ _ => rfl⟩
  rw [same]
  have held : Held n (State.goto { s.setState k .eating with signalled := signalled } i point) :=
    Held.goto (s := { s.setState k .eating with signalled := signalled })
      ⟨table.holder, table.seated⟩ (stays.trans inside.symm)
  refine { held with fits := ?_, exclusive := ?_, fed := ?_, asserts := table.asserts }
  · intro j seated_j
    change (update s.point i point j).Fits (signalled j) (update s.state k .eating j)
    by_cases mine : j = i
    · subst j
      rw [update_self, update_apply]
      simpa [eq_comm] using fits (signalled i)
    · rw [update_of_ne mine]
      by_cases eats : j = k
      · subst j
        rw [update_self]
        obtain ⟨bite, asleep | relocking⟩ :=
          table.hungry_outside other hungry (table.outside seated inside other mine)
        · rw [asleep] at woken ⊢
          exact .inr ⟨rfl, woken rfl⟩
        · rw [relocking]
          exact .inr rfl
      · rw [others j eats, update_of_ne eats]
        exact table.fits j seated_j
  · intro j seated_j apart eats also
    change update s.state k .eating j = .eating at eats
    change update s.state k .eating (left n j) = .eating at also
    by_cases same : j = k
    · subst j
      rw [update_of_ne apart] at also
      exact left_free also
    · rw [update_of_ne same] at eats
      by_cases beside : left n j = k
      · rw [(left_eq_iff other seated_j).mp beside] at eats
        exact right_free eats
      · rw [update_of_ne beside] at also
        exact table.exclusive j seated_j apart eats also
  · intro j seated_j still
    change update s.state k .eating j = .hungry at still
    change update s.state k .eating (left n j) = .eating ∨
      update s.state k .eating (right n j) = .eating ∨
      ∃ m < n, (update s.point i point m).tries n m j
    have grows : ∀ m, s.state m = .eating → update s.state k .eating m = .eating := by
      intro m eats
      rw [update_apply, eats, ite_self]
    have apart : j ≠ k := by
      rintro rfl
      rw [update_self] at still
      cases still
    rw [update_of_ne apart] at still
    obtain eats | eats | ⟨m, seated_m, tries⟩ := table.fed j seated_j still
    · exact .inl (grows _ eats)
    · exact .inr (.inl (grows _ eats))
    · refine .inr (.inr ⟨m, seated_m, ?_⟩)
      by_cases mine : m = i
      · subst m
        rw [update_self]
        exact (tried j tries).resolve_left apart
      · rwa [update_of_ne mine]

/-- A philosopher need not be tried who is not hungry, or beside one that
eats. -/
theorem pass (table : Table n s) (inside : (s.point i).inside = true)
    (stays : point.inside = true) {k : Nat} (need : ¬ (s.state k = .hungry ∧
      s.state (left n k) ≠ .eating ∧ s.state (right n k) ≠ .eating))
    (fits : point.Fits (s.signalled i) (s.state i))
    (tried : ∀ j, (s.point i).tries n i j → j = k ∨ point.tries n i j) :
    Table n (s.goto i point) := by
  have held := table.toHeld.goto (stays.trans inside.symm)
  refine { held with fits := ?_, exclusive := table.exclusive, fed := ?_, asserts := table.asserts }
  · intro j seated_j
    change (update s.point i point j).Fits (s.signalled j) (s.state j)
    by_cases mine : j = i
    · subst j
      rw [update_self]
      exact fits
    · rw [update_of_ne mine]
      exact table.fits j seated_j
  · intro j seated_j hungry
    change s.state j = .hungry at hungry
    change s.state (left n j) = .eating ∨ s.state (right n j) = .eating ∨
      ∃ m < n, (update s.point i point m).tries n m j
    obtain eats | eats | ⟨m, seated_m, tries⟩ := table.fed j seated_j hungry
    · exact .inl eats
    · exact .inr (.inl eats)
    · by_cases mine : m = i
      · subst m
        obtain rfl | later := tried j tries
        · have beside : s.state (left n j) = .eating ∨ s.state (right n j) = .eating := by
            by_contra free
            rw [not_or] at free
            exact need ⟨hungry, free⟩
          exact beside.imp_right .inl
        · exact .inr (.inr ⟨i, seated_m, by rw [update_self]; exact later⟩)
      · exact .inr (.inr ⟨m, seated_m, by rw [update_of_ne mine]; exact tries⟩)

theorem trytoeat (table : Table n s) (seated : i < n) (inside : (s.point i).inside = true)
    (stays : point.inside = true) {k : Nat} (other : k < n)
    (fits : ∀ signalled, point.Fits signalled (s.state i))
    (self : s.state i = .hungry → ∀ signalled, point.Fits signalled .eating)
    (tried : ∀ j, (s.point i).tries n i j → j = k ∨ point.tries n i j) :
    Table n ((s.trytoeat n k).goto i point) := by
  unfold State.trytoeat
  split
  next free =>
    obtain ⟨hungry, left_free, right_free⟩ := free
    refine table.eat seated inside stays other hungry left_free right_free (fun signalled => ?_) tried
    split
    next same => exact self (same ▸ hungry) signalled
    · exact fits signalled
  next need => exact table.pass inside stays need (fits _) tried

/-- The next statement of a philosopher. -/
theorem run {bites : Int} (table : Table n s) (seated : i < n)
    (runs : s.run n bites i = some t) : Table n t := by
  have fits := table.fits i seated
  cases here : s.point i <;> rw [here] at fits <;>
    simp only [State.run, here, Option.some.injEq, reduceCtorEq] at runs
  case arriving => exact table.lock runs seated rfl fits (by simp [here, Point.tries])
  case setThinking =>
    subst runs
    exact table.setState seated (by decide) (by rw [here]; rfl) rfl (by simp [here, Point.tries])
      nofun (by rw [fits]; nofun)
  case unlockArrived =>
    subst runs
    exact table.unlock seated (by rw [here]; rfl) rfl fits (by simp [here, Point.tries])
  case nextBite bite =>
    split at runs
    · exact table.lock runs seated rfl fits (by simp [here, Point.tries])
    · obtain rfl := Option.some.inj runs
      exact table.goto (by rw [here]; rfl) fits (by simp [here, Point.tries])
  case setHungry bite =>
    subst runs
    exact table.setState seated (by decide) (by rw [here]; rfl) rfl (by simp [here, Point.tries])
      (fun _ => rfl) (by rw [fits]; nofun)
  case tryMyself bite =>
    subst runs
    refine table.trytoeat seated (by rw [here]; rfl) rfl seated (fun _ => .inl fits)
      (fun _ _ => .inr rfl) fun j tries => ?_
    rw [here] at tries
    exact .inl tries
  case testHungry bite =>
    split at runs
    next hungry =>
      obtain rfl := Option.some.inj runs
      have held : Held n (s.unlock i (.asleep bite)) :=
        table.toHeld.unlock seated (by rw [here]; rfl) rfl
      exact table.move ⟨held.holder, held.seated⟩ rfl rfl table.asserts
        (fun k apart => update_of_ne apart ..) (.inl hungry) (by simp [here, Point.tries])
    next fed =>
      obtain rfl := Option.some.inj runs
      exact table.goto (by rw [here]; rfl) (fits.resolve_left fed) (by simp [here, Point.tries])
  case asleep bite =>
    split at runs
    · obtain rfl := Option.some.inj runs
      exact table.goto (by rw [here]; rfl) (fits.imp_right And.left) (by simp [here, Point.tries])
    · cases runs
  case relocking bite => exact table.lock runs seated rfl fits (by simp [here, Point.tries])
  case assertEating bite =>
    subst runs
    have eats : s.state i = .eating := fits
    have held : Held n (s.goto i (.unlockEating bite)) := table.toHeld.goto (by rw [here]; rfl)
    exact table.move ⟨held.holder, held.seated⟩ rfl rfl (by simp [eats, table.asserts])
      (fun _ _ => rfl) fits (by simp [here, Point.tries])
  case unlockEating bite =>
    subst runs
    exact table.unlock seated (by rw [here]; rfl) rfl fits (by simp [here, Point.tries])
  case eating bite => exact table.lock runs seated rfl fits (by simp [here, Point.tries])
  case setThinkingAgain bite =>
    subst runs
    exact table.setState seated (by decide) (by rw [here]; rfl) rfl (by simp [here, Point.tries])
      nofun (fun _ _ beside => beside)
  case tryLeft bite =>
    subst runs
    refine table.trytoeat seated (by rw [here]; rfl) rfl (left_lt seated) (fun _ => fits)
      (by rw [fits]; nofun) fun j tries => ?_
    rw [here] at tries
    exact tries
  case tryRight bite =>
    subst runs
    refine table.trytoeat seated (by rw [here]; rfl) rfl (right_lt seated) (fun _ => fits)
      (by rw [fits]; nofun) fun j tries => ?_
    rw [here] at tries
    exact .inl tries
  case unlockFinished bite =>
    subst runs
    exact table.unlock seated (by rw [here]; rfl) rfl fits (by simp [here, Point.tries])
  case leaving => exact table.lock runs seated rfl fits (by simp [here, Point.tries])
  case setNothere =>
    subst runs
    exact table.setState seated (by decide) (by rw [here]; rfl) rfl (by simp [here, Point.tries])
      nofun (by rw [fits]; nofun)
  case unlockLeft =>
    subst runs
    exact table.unlock seated (by rw [here]; rfl) rfl fits (by simp [here, Point.tries])

theorem step {bites : Int} {label : Label} (table : Table n s)
    (moved : step n bites s label = some t) : Table n t := by
  cases label with
  | run i =>
    simp only [Symposium.step, Option.ite_none_right_eq_some] at moved
    exact table.run moved.1 moved.2
  | wake i =>
    simp only [Symposium.step, Option.ite_none_right_eq_some] at moved
    obtain ⟨seated, wakes⟩ := moved
    unfold State.wake at wakes
    split at wakes
    next bite here =>
      obtain rfl := Option.some.inj wakes
      have fits := table.fits i seated
      rw [here] at fits
      exact table.goto (by rw [here]; rfl) (fits.imp_right And.left) (by simp [here, Point.tries])
    · cases wakes

theorem init (n : Nat) : Table n symposiumTableInit where
  holder := fun _ _ => by simp [symposiumTableInit, Point.inside]
  seated := nofun
  fits := fun _ _ => rfl
  exclusive := nofun
  fed := nofun
  asserts := rfl

/-- Who tries to let others eat is inside. -/
theorem tries_inside {k : Nat} (tries : point.tries n i k) : point.inside = true := by
  cases point <;> first | rfl | cases tries

/-- Nobody is hungry beside free forks while nobody is inside. -/
theorem fed_of_free (table : Table n s) (free : s.mx = none) (seated : i < n)
    (hungry : s.state i = .hungry) :
    s.state (left n i) = .eating ∨ s.state (right n i) = .eating := by
  obtain eats | eats | ⟨k, other, tries⟩ := table.fed i seated hungry
  · exact .inl eats
  · exact .inr eats
  · cases free.symm.trans ((table.holder k other).mpr (tries_inside tries))

/-- A philosopher who eats, or could, is not stuck. -/
theorem runs_of_eating (table : Table n s) (free : s.mx = none) (bites : Int) (seated : i < n)
    (eats : s.state i = .eating) : (s.run n bites i).isSome = true := by
  have fits := table.fits i seated
  rw [eats] at fits
  unfold State.run
  cases here : s.point i with
  | asleep bite =>
    rw [here] at fits
    obtain hungry | ⟨-, signalled⟩ := fits
    · cases hungry
    · simp [signalled]
  | relocking bite | eating bite => simp [State.lock, free]
  | assertEating bite | unlockEating bite | setThinkingAgain bite => rfl
  | testHungry bite => simp [eats]
  | _ =>
    rw [here] at fits
    cases fits

/-- Somebody can go on without a spurious wakeup, as long as somebody is
there. -/
theorem progress (table : Table n s) (bites : Int) (seated : i < n) (there : s.point i ≠ .gone) :
    ∃ k < n, (s.run n bites k).isSome = true := by
  cases mx : s.mx with
  | some k =>
    have other := table.seated k mx
    have inside := (table.holder k other).mp mx
    refine ⟨k, other, ?_⟩
    unfold State.run
    cases here : s.point k with
    | testHungry bite =>
      dsimp only
      split <;> rfl
    | arriving | nextBite | asleep | relocking | eating | leaving | gone =>
      rw [here] at inside
      cases inside
    | _ => rfl
  | none =>
    have outside : (s.point i).inside = false := by
      cases inside : (s.point i).inside
      · rfl
      · cases mx.symm.trans ((table.holder i seated).mpr inside)
    by_cases hungry : s.state i = .hungry
    · -- Her neighbour is not.
      obtain eats | eats := table.fed_of_free mx seated hungry
      · exact ⟨_, left_lt seated, table.runs_of_eating mx bites (left_lt seated) eats⟩
      · exact ⟨_, right_lt seated, table.runs_of_eating mx bites (right_lt seated) eats⟩
    · have fits := table.fits i seated
      refine ⟨i, seated, ?_⟩
      unfold State.run
      cases here : s.point i with
      | asleep bite =>
        rw [here] at fits
        simp [(fits.resolve_left hungry).2]
      | nextBite bite =>
        dsimp only
        split
        · simp [State.lock, mx]
        · rfl
      | gone => exact absurd here there
      | arriving | relocking | eating | leaving => simp [State.lock, mx]
      | _ =>
        rw [here] at outside
        cases outside

end Table
end

/-- The table while nobody is inside the monitor. -/
structure Orderly (n : Nat) (s : State) : Prop where
  exclusive : ∀ i < n, ∀ j < n, i ≠ j → j = left n i ∨ j = right n i →
    ¬ (s.state i = .eating ∧ s.state j = .eating)
  fed : ∀ i < n, s.state i = .hungry →
    s.state (left n i) = .eating ∨ s.state (right n i) = .eating
  asleep : ∀ i < n, (s.point i).sleeps = true → s.signalled i = false → s.state i = .hungry

theorem Table.orderly {n : Nat} {s : State} (table : Table n s) (free : s.mx = none) :
    Orderly n s := by
  refine ⟨?_, fun i seated hungry => table.fed_of_free free seated hungry, ?_⟩
  · rintro i seated j other apart (rfl | rfl) ⟨eats, also⟩
    · exact table.exclusive i seated (Ne.symm apart) eats also
    · rw [← left_right seated] at eats
      refine table.exclusive _ other ?_ also eats
      rw [left_right seated]
      exact apart
  · intro i seated sleeps unsignalled
    have fits := table.fits i seated
    unfold Point.sleeps at sleeps
    split at sleeps
    next bite here =>
      rw [here, unsignalled] at fits
      exact fits.resolve_right fun signalled => nomatch signalled.2
    · cases sleeps

/-- **The philosophers' monitor is correct** for every number of philosophers
and of bites: when it is free nobody shares a fork or is hungry beside free
forks, who sleeps unsignalled is hungry, the assertion has not failed, and as
long as a philosopher is there somebody can take a step. -/
theorem philosophers {n : Nat} {bites : Int} {s : State}
    (reached : (machine n bites).Reachable s) :
    (s.mx = none → Orderly n s) ∧ s.assertFailed = false ∧
      ∀ i < n, s.point i ≠ .gone → ∃ k < n, (step n bites s (.run k)).isSome = true := by
  have table : Table n s :=
    reached.induction (fun s initial => initial ▸ Table.init n)
      fun _ _ _ table moved => table.step moved
  refine ⟨table.orderly, table.asserts, fun i seated there => ?_⟩
  obtain ⟨k, other, runs⟩ := table.progress bites seated there
  refine ⟨k, other, ?_⟩
  change (if k < n then s.run n bites k else none).isSome = true
  rw [if_pos other]
  exact runs

/-- Of two philosophers one waits until the other has eaten. -/
def oneWaits : List Label :=
  List.replicate 9 (.run 0) ++ List.replicate 7 (.run 1) ++ List.replicate 5 (.run 0)

theorem philosophers_oneWaits : ∃ s, oneWaits.foldlM (step 2 1) symposiumTableInit = some s ∧
    s.state 1 = .eating ∧ s.signalled 1 = true ∧ Orderly 2 s := by
  have reached : (machine 2 1).Reachable symposiumTableInit := .start rfl
  exact ⟨_, rfl, rfl, rfl, (philosophers (reached.replay oneWaits rfl)).1 rfl⟩

end TinyOs.Symposium
