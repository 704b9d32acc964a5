import Mathlib.Logic.Function.Basic

/-! Guarded transition systems and their finite runs. A run keeps its history,
so a statement about every state of a run and a statement about every step it
took can be compared; `Machine.good_iff_allowed` is that comparison. -/
namespace TinyOs.Library

/-- A transition system whose step is executable: `none` means that the label
is not enabled in the state. -/
structure Machine (State Label : Type*) where
  initial : State → Prop
  step : State → Label → Option State

namespace Machine
variable {State Label : Type*} {M : Machine State Label}

/-- A finite run, with every state it left and the label it left it by, the
newest first. -/
inductive Run (M : Machine State Label) : List (State × Label) → State → Prop where
  | start {s : State} : M.initial s → Run M [] s
  | step {past : List (State × Label)} {s t : State} {label : Label} :
      Run M past s → M.step s label = some t → Run M ((s, label) :: past) t

/-- The states a run with this history went through, its last one included. -/
def Visits (past : List (State × Label)) (last s : State) : Prop :=
  s = last ∨ ∃ label, (s, label) ∈ past

/-- States at the end of some run. -/
def Reachable (M : Machine State Label) (s : State) : Prop := ∃ past, Run M past s

/-- States at the end of some run all of whose steps are allowed. -/
def ReachableBy (M : Machine State Label) (Allowed : State → Label → Prop) (s : State) : Prop :=
  ∃ past, Run M past s ∧ ∀ left ∈ past, Allowed left.1 left.2

/-- A run goes on by a given label. -/
theorem Run.next {past : List (State × Label)} {s t : State} (run : Run M past s) (label : Label)
    (moved : M.step s label = some t) : Run M ((s, label) :: past) t :=
  run.step moved

/-- Each step of a run was taken at the end of the run so far. -/
theorem Run.before {past earlier : List (State × Label)} {last s : State} {label : Label}
    (run : Run M past last) (suffix : ((s, label) :: earlier) <:+ past) :
    Run M earlier s ∧ ∃ t, M.step s label = some t := by
  induction run with
  | start begins => cases List.suffix_nil.mp suffix
  | @step past s' t label' run moved ih =>
    rcases List.suffix_cons_iff.mp suffix with same | shorter
    · obtain ⟨⟨rfl, rfl⟩, rfl⟩ := by simpa using same
      exact ⟨run, t, moved⟩
    · exact ih shorter

/-- A run went through the states at the end of its earlier parts. -/
theorem Run.visited {past : List (State × Label)} {last s : State} (run : Run M past last)
    (visited : Visits past last s) : ∃ earlier, Run M earlier s ∧ earlier <:+ past := by
  rcases visited with rfl | ⟨label, member⟩
  · exact ⟨past, run, List.suffix_rfl⟩
  · obtain ⟨later, earlier, split⟩ := List.append_of_mem member
    have suffix : ((s, label) :: earlier) <:+ past := split ▸ List.suffix_append later _
    exact ⟨earlier, (run.before suffix).1, (List.suffix_cons _ _).trans suffix⟩

theorem Reachable.start {s : State} (initial : M.initial s) : Reachable M s :=
  ⟨[], .start initial⟩

theorem Reachable.step {s t : State} {label : Label} (reached : Reachable M s)
    (moved : M.step s label = some t) : Reachable M t :=
  let ⟨_, run⟩ := reached
  ⟨_, run.step moved⟩

theorem ReachableBy.start {Allowed : State → Label → Prop} {s : State} (initial : M.initial s) :
    ReachableBy M Allowed s :=
  ⟨[], .start initial, by simp⟩

theorem ReachableBy.step {Allowed : State → Label → Prop} {s t : State} {label : Label}
    (reached : ReachableBy M Allowed s) (allowed : Allowed s label)
    (moved : M.step s label = some t) : ReachableBy M Allowed t := by
  obtain ⟨past, run, before⟩ := reached
  refine ⟨_, run.step moved, fun left member => ?_⟩
  rcases List.mem_cons.mp member with rfl | member
  · exact allowed
  · exact before left member

/-- An allowed run goes on by a given label. -/
theorem ReachableBy.next {Allowed : State → Label → Prop} {s t : State}
    (reached : ReachableBy M Allowed s) (label : Label) (allowed : Allowed s label)
    (moved : M.step s label = some t) : ReachableBy M Allowed t :=
  reached.step allowed moved

/-- Replaying labels from a reachable state stays among reachable states. -/
theorem Reachable.replay {s t : State} (reached : Reachable M s) (labels : List Label)
    (ran : labels.foldlM M.step s = some t) : Reachable M t := by
  induction labels generalizing s with
  | nil =>
    cases ran
    exact reached
  | cons label rest ih =>
    rw [List.foldlM_cons] at ran
    obtain ⟨middle, moved, rest⟩ := Option.bind_eq_some_iff.mp ran
    exact ih (reached.step moved) rest

/-- The machine that takes only the steps on offer. -/
def restrict (M : Machine State Label) (offered : State → Label → Bool) :
    Machine State Label where
  initial := M.initial
  step s label := if offered s label then M.step s label else none

theorem restrict_step {offered : State → Label → Bool} {s t : State} {label : Label} :
    (M.restrict offered).step s label = some t ↔
      offered s label = true ∧ M.step s label = some t := by
  unfold restrict
  dsimp only
  split
  next yes => simp [yes]
  next no => simp [no]

/-- What holds initially and is kept by every allowed step holds at the end of
every run of allowed steps. -/
theorem ReachableBy.induction {Allowed : State → Label → Prop} {P : State → Prop}
    (initial : ∀ s, M.initial s → P s)
    (kept : ∀ s label t, P s → Allowed s label → M.step s label = some t → P t)
    {s : State} (reached : ReachableBy M Allowed s) : P s := by
  obtain ⟨past, run, allowed⟩ := reached
  induction run with
  | start begins => exact initial _ begins
  | step run moved ih =>
    have before := ih fun left member => allowed left (List.mem_cons_of_mem _ member)
    exact kept _ _ _ before (allowed _ List.mem_cons_self) moved

/-- What holds initially and is kept by every step holds in every reachable
state. -/
theorem Reachable.induction {P : State → Prop} (initial : ∀ s, M.initial s → P s)
    (kept : ∀ s label t, P s → M.step s label = some t → P t)
    {s : State} (reached : Reachable M s) : P s := by
  obtain ⟨past, run⟩ := reached
  have by_any : ReachableBy M (fun _ _ => True) s := ⟨past, run, fun _ _ => trivial⟩
  exact by_any.induction initial fun s label t before _ moved => kept s label t before moved

/-- A run is good in all its states and lawful in all its steps exactly when all
its steps are allowed, provided that `Inv` is kept by allowed steps and implies
`Good`, that from `Inv` allowed steps are lawful, and that a step that is not
allowed leads from `Inv` to a state that is not good, unless it is not lawful. -/
theorem lawful_iff_allowed (Allowed Lawful : State → Label → Prop) (Inv : State → Prop)
    {Good : State → Prop} (initial : ∀ s, M.initial s → Inv s)
    (kept : ∀ s label t, Inv s → Allowed s label → M.step s label = some t → Inv t)
    (good : ∀ s, Inv s → Good s)
    (lawful : ∀ s label t, Inv s → Allowed s label → M.step s label = some t → Lawful s label)
    (broken : ∀ s label t, Inv s → ¬ Allowed s label → M.step s label = some t →
      Lawful s label → ¬ Good t)
    {past : List (State × Label)} {last : State} (run : Run M past last) :
    ((∀ s, Visits past last s → Good s) ∧ ∀ left ∈ past, Lawful left.1 left.2) ↔
      ∀ left ∈ past, Allowed left.1 left.2 := by
  constructor
  · rintro ⟨every, laws⟩
    -- The invariant is carried along with the allowed prefix of the run.
    suffices both : Inv last ∧ ∀ left ∈ past, Allowed left.1 left.2 from both.2
    induction run with
    | start begins => exact ⟨initial _ begins, fun _ member => nomatch member⟩
    | @step past s t label run moved ih =>
      have earlier : ∀ x, Visits past s x → Good x := by
        rintro x (rfl | ⟨taken, member⟩)
        · exact every x (.inr ⟨label, List.mem_cons_self⟩)
        · exact every x (.inr ⟨taken, List.mem_cons_of_mem _ member⟩)
      obtain ⟨inv, allowed⟩ := ih earlier fun left member => laws left (List.mem_cons_of_mem _ member)
      have now : Allowed s label := by
        by_contra refused
        exact broken s label t inv refused moved (laws _ List.mem_cons_self) (every t (.inl rfl))
      refine ⟨kept s label t inv now moved, ?_⟩
      intro left member
      rcases List.mem_cons.mp member with rfl | member
      · exact now
      · exact allowed left member
  · intro allowed
    suffices both : (∀ s, Visits past last s → Inv s) ∧ ∀ left ∈ past, Lawful left.1 left.2 from
      ⟨fun s visited => good s (both.1 s visited), both.2⟩
    induction run with
    | start begins =>
      refine ⟨?_, fun _ member => nomatch member⟩
      rintro s (rfl | ⟨_, member⟩)
      · exact initial _ begins
      · cases member
    | @step past s t label run moved ih =>
      obtain ⟨earlier, laws⟩ := ih fun left member => allowed left (List.mem_cons_of_mem _ member)
      have inv := earlier s (.inl rfl)
      have now : Allowed s label := allowed (s, label) List.mem_cons_self
      refine ⟨?_, List.forall_mem_cons.mpr ⟨lawful s label t inv now moved, laws⟩⟩
      rintro x (rfl | ⟨taken, member⟩)
      · exact kept s label x inv now moved
      · rcases List.mem_cons.mp member with same | member
        · cases same
          exact inv
        · exact earlier x (.inr ⟨taken, member⟩)

/-- The same without a law. -/
theorem good_iff_allowed (Allowed : State → Label → Prop) (Inv : State → Prop)
    {Good : State → Prop} (initial : ∀ s, M.initial s → Inv s)
    (kept : ∀ s label t, Inv s → Allowed s label → M.step s label = some t → Inv t)
    (good : ∀ s, Inv s → Good s)
    (broken : ∀ s label t, Inv s → ¬ Allowed s label → M.step s label = some t → ¬ Good t)
    {past : List (State × Label)} {last : State} (run : Run M past last) :
    (∀ s, Visits past last s → Good s) ↔ ∀ left ∈ past, Allowed left.1 left.2 := by
  have both := lawful_iff_allowed Allowed (fun _ _ => True) Inv initial kept good
    (fun _ _ _ _ _ _ => trivial) (fun s label t inv refused moved _ => broken s label t inv refused moved)
    run
  simpa using both

end Machine
end TinyOs.Library
