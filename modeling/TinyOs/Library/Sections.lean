import Mathlib.Logic.Function.Basic
import Mathlib.Logic.Relation

/-! Code in a monitor with condition variables, its sections atomic. A section
goes from where a thread is admitted to where it gives the monitor up; nobody
else touches the data meanwhile. A thread that waits is admitted again once it
has been woken, or at any time where its wait has a timeout. -/
namespace TinyOs.Library.Sections
open Function Relation

/-- What the code of a thread does next. `Own` is what it may do without the
monitor, and `How` in which ways it may leave. -/
inductive Instr (Data Local Cond Own How : Type*) where
  | own (what : Own) (next : Local)
  | enter (next : Local)
  | access (run : Data → Local × Data)
  | broadcast (cv : Cond) (next : Local)
  | leave (how : How) (next : Local)
  | wait (cv : Cond) (timed : Bool) (next : Local)

/-- Where a thread is. -/
inductive Place (Cond : Type*) where
  | outside
  | entering
  | inside
  /-- Past its last access, about to wait. -/
  | giving (cv : Cond) (timed : Bool)
  | waiting (cv : Cond) (timed woken : Bool)
  deriving DecidableEq, Repr

structure State (Thread Data Local Cond : Type*) where
  data : Data
  locals : Thread → Local
  place : Thread → Place Cond

variable {Thread Input Data Local Cond Own How : Type*} [DecidableEq Thread] [DecidableEq Cond]

namespace Place

/-- What a broadcast on a condition variable, if there is one, does. -/
def wake (cv : Option Cond) : Place Cond → Place Cond
  | .waiting own timed woken => .waiting own timed (woken || some own = cv)
  | place => place

/-- The thread has the monitor. -/
def within : Place Cond → Bool
  | .inside | .giving _ _ => true
  | _ => false

@[simp] theorem within_wake (cv : Option Cond) (place : Place Cond) :
    (place.wake cv).within = place.within := by
  cases place <;> rfl

@[simp] theorem wake_none (place : Place Cond) : place.wake none = place := by
  cases place <;> simp [wake]

@[simp] theorem wake_outside (cv : Option Cond) : (outside : Place Cond).wake cv = outside := rfl

@[simp] theorem wake_entering (cv : Option Cond) : (entering : Place Cond).wake cv = entering := rfl

@[simp] theorem wake_inside (cv : Option Cond) : (inside : Place Cond).wake cv = inside := rfl

@[simp] theorem wake_giving (cv : Option Cond) (own : Cond) (timed : Bool) :
    (giving own timed).wake cv = giving own timed := rfl

theorem wake_comm (one two : Option Cond) (place : Place Cond) :
    (place.wake one).wake two = (place.wake two).wake one := by
  cases place <;> simp [wake, Bool.or_right_comm]

@[simp] theorem wake_eq_outside {cv : Option Cond} {place : Place Cond} :
    place.wake cv = outside ↔ place = outside := by
  cases place <;> simp [wake]

end Place

/-- A thread moves, with all that the others notice. -/
def State.move (s : State Thread Data Local Cond) (thread : Thread) (next : Local)
    (place : Place Cond) (data : Data) (cv : Option Cond) : State Thread Data Local Cond where
  data := data
  locals := update s.locals thread next
  place := update (fun other => (s.place other).wake cv) thread place

@[simp] theorem State.move_data (s : State Thread Data Local Cond) (thread : Thread) (next : Local)
    (place : Place Cond) (data : Data) (cv : Option Cond) :
    (s.move thread next place data cv).data = data := rfl

@[simp] theorem State.move_self (s : State Thread Data Local Cond) (thread : Thread) :
    s.move thread (s.locals thread) (s.place thread) s.data none = s := by
  simp [State.move]

section Moves
variable (code : Local → Input → Instr Data Local Cond Own How)

/-- A move of a thread that is not in the monitor. -/
inductive Outer (now : Local) : Local → Place Cond → Option Cond → Prop where
  | own {input : Input} {what : Own} {next : Local} : code now input = .own what next →
      Outer now next .outside none
  | enter {input : Input} {next : Local} : code now input = .enter next →
      Outer now next .entering none
  | broadcast {input : Input} {cv : Cond} {next : Local} :
      code now input = .broadcast cv next → Outer now next .outside (some cv)

/-- A move of the thread in the monitor. -/
inductive Inner (now : Local) (data : Data) : Local → Place Cond → Data → Option Cond → Prop where
  | own {input : Input} {what : Own} {next : Local} : code now input = .own what next →
      Inner now data next .inside data none
  | access {input : Input} {run : Data → Local × Data} : code now input = .access run →
      Inner now data (run data).1 .inside (run data).2 none
  | broadcast {input : Input} {cv : Cond} {next : Local} :
      code now input = .broadcast cv next → Inner now data next .inside data (some cv)
  | wait {input : Input} {cv : Cond} {timed : Bool} {next : Local} :
      code now input = .wait cv timed next → Inner now data next (.giving cv timed) data none

/-- A thread may be admitted. -/
inductive Admitted : Place Cond → Prop where
  | first : Admitted .entering
  | again {cv : Cond} {timed woken : Bool} : (woken = true ∨ timed = true) →
      Admitted (.waiting cv timed woken)

/-- The end of a section. -/
inductive Leaves (now : Local) : Place Cond → Local → Place Cond → Prop where
  | leave {input : Input} {how : How} {next : Local} : code now input = .leave how next →
      Leaves now .inside next .outside
  | wait {cv : Cond} {timed : Bool} : Leaves now (.giving cv timed) now (.waiting cv timed false)

inductive OuterStep (thread : Thread) (s : State Thread Data Local Cond) :
    State Thread Data Local Cond → Prop where
  | mk {next : Local} {place : Place Cond} {cv : Option Cond} : s.place thread = .outside →
      Outer code (s.locals thread) next place cv →
      OuterStep thread s (s.move thread next place s.data cv)

inductive InnerStep (thread : Thread) (s : State Thread Data Local Cond) :
    State Thread Data Local Cond → Prop where
  | mk {next : Local} {place : Place Cond} {data : Data} {cv : Option Cond} :
      s.place thread = .inside → Inner code (s.locals thread) s.data next place data cv →
      InnerStep thread s (s.move thread next place data cv)

def State.letIn (s : State Thread Data Local Cond) (thread : Thread) :
    State Thread Data Local Cond :=
  s.move thread (s.locals thread) .inside s.data none

/-- A thread has been admitted to the monitor in `before`, and what it has done
since has led to `now`. -/
structure Ongoing (thread : Thread) (before now : State Thread Data Local Cond) : Prop where
  admitted : Admitted (before.place thread)
  run : ReflTransGen (InnerStep code thread) (before.letIn thread) now

/-- One section at once, or a move outside. -/
inductive Step : State Thread Data Local Cond → State Thread Data Local Cond → Prop where
  | outer {thread : Thread} {s t : State Thread Data Local Cond} : OuterStep code thread s t →
      Step s t
  | atomic {thread : Thread} {before now : State Thread Data Local Cond} {next : Local}
      {place : Place Cond} : Ongoing code thread before now →
      Leaves code (now.locals thread) (now.place thread) next place →
      Step before (now.move thread next place now.data none)

/-- One move, of which only the admission looks at the others. -/
inductive Move : State Thread Data Local Cond → State Thread Data Local Cond → Prop where
  | outer {thread : Thread} {s t : State Thread Data Local Cond} : OuterStep code thread s t →
      Move s t
  | inner {thread : Thread} {s t : State Thread Data Local Cond} : InnerStep code thread s t →
      Move s t
  | letIn {thread : Thread} {s : State Thread Data Local Cond} : Admitted (s.place thread) →
      (∀ other, (s.place other).within = false) → Move s (s.letIn thread)
  | leave {thread : Thread} {s : State Thread Data Local Cond} {next : Local}
      {place : Place Cond} : Leaves code (s.locals thread) (s.place thread) next place →
      Move s (s.move thread next place s.data none)

/-- What has come of the sections that are over, and of the one under way if
there is one. -/
inductive Held (before now : State Thread Data Local Cond) : Prop where
  | free : before = now → (∀ thread, (now.place thread).within = false) → Held before now
  | busy {thread : Thread} : Ongoing code thread before now →
      (∀ other, (now.place other).within = true ↔ other = thread) → Held before now

end Moves

section Commute
variable {code : Local → Input → Instr Data Local Cond Own How} {thread other : Thread}
  {s t before now : State Thread Data Local Cond}

/-- Nobody who makes such a move waits. -/
theorem Outer.still {l next : Local} {place : Place Cond} {cv : Option Cond}
    (outer : Outer code l next place cv) (woken : Option Cond) : place.wake woken = place := by
  cases outer <;> rfl

theorem Inner.still {l next : Local} {data changed : Data} {place : Place Cond} {cv : Option Cond}
    (inner : Inner code l data next place changed cv) (woken : Option Cond) :
    place.wake woken = place := by
  cases inner <;> rfl

/-- Moves of two threads commute, if one of them leaves the data alone. -/
theorem State.move_comm {next theirs : Local} {place place' : Place Cond} {data : Data}
    {cv cv' : Option Cond} (apart : other ≠ thread) (still : ∀ woken, place.wake woken = place)
    (still' : ∀ woken, place'.wake woken = place') :
    (s.move thread next place data cv).move other theirs place' data cv' =
      (s.move other theirs place' s.data cv').move thread next place data cv := by
  have places : (fun u => update (fun w => (s.place w).wake cv) thread place u |>.wake cv') =
      update (fun u => ((s.place u).wake cv).wake cv') thread place := by
    funext u
    rcases eq_or_ne u thread with rfl | different
    · simp [still]
    · simp [different]
  have places' : (fun u => update (fun w => (s.place w).wake cv') other place' u |>.wake cv) =
      update (fun u => ((s.place u).wake cv).wake cv') other place' := by
    funext u
    rcases eq_or_ne u other with rfl | different
    · simp [still']
    · simp [different, Place.wake_comm]
  simp only [State.move, places, places', State.mk.injEq, true_and]
  exact ⟨update_comm apart.symm .., update_comm apart.symm ..⟩

/-- Whoever moves outside might as well have moved before the thread inside. -/
theorem InnerStep.outer (inner : InnerStep code thread s t)
    {after : State Thread Data Local Cond} (outer : OuterStep code other t after)
    (apart : other ≠ thread) :
    ∃ first, OuterStep code other s first ∧ InnerStep code thread first after := by
  obtain ⟨inside, inner⟩ := inner
  obtain ⟨outside, outer⟩ := outer
  simp only [State.move, update_of_ne apart, Place.wake_eq_outside] at outside outer
  refine ⟨_, .mk outside outer, ?_⟩
  rw [State.move_data, State.move_comm apart inner.still outer.still]
  refine .mk ?_ ?_
  · simp [State.move, update_of_ne apart.symm, inside]
  · simpa [State.move, update_of_ne apart.symm] using inner

theorem Ongoing.start (admitted : Admitted (s.place thread)) :
    Ongoing code thread s (s.letIn thread) :=
  ⟨admitted, .refl⟩

theorem Ongoing.inner (ongoing : Ongoing code thread before now)
    (inner : InnerStep code thread now t) : Ongoing code thread before t :=
  ⟨ongoing.admitted, ongoing.run.tail inner⟩

theorem admitted_wake {place : Place Cond} (admitted : Admitted place) (cv : Option Cond) :
    Admitted (place.wake cv) := by
  cases admitted with
  | first => exact .first
  | again woken =>
    refine .again (woken.imp_left fun woken => ?_)
    rw [woken, Bool.true_or]

/-- **What happens outside does not show inside**: it might as well have
happened before the section. -/
theorem Ongoing.outer (ongoing : Ongoing code thread before now)
    (outer : OuterStep code other now t) (apart : other ≠ thread) :
    ∃ first, OuterStep code other before first ∧ Ongoing code thread first t := by
  obtain ⟨admitted, run⟩ := ongoing
  induction run generalizing t with
  | refl =>
    obtain ⟨outside, outer⟩ := outer
    simp only [State.letIn, State.move, update_of_ne apart, Place.wake_eq_outside] at outside outer
    refine ⟨_, .mk outside outer, ?_, ?_⟩
    · simpa [State.move, update_of_ne apart.symm] using admitted_wake admitted _
    · simp only [State.letIn, State.move_data]
      rw [State.move_comm apart Place.wake_inside outer.still]
      simp only [State.move, update_of_ne apart.symm]
      exact .refl
  | tail _ inner ih =>
    obtain ⟨middle, first, last⟩ := inner.outer outer apart
    obtain ⟨first, outside, ongoing⟩ := ih first
    exact ⟨first, outside, ongoing.inner last⟩

end Commute

section Atomic
variable {code : Local → Input → Instr Data Local Cond Own How} {thread : Thread}
  {s t before now : State Thread Data Local Cond}

@[simp] theorem within_move (other : Thread) (next : Local) (place : Place Cond) (data : Data)
    (cv : Option Cond) : ((s.move thread next place data cv).place other).within =
      if other = thread then place.within else (s.place other).within := by
  rcases eq_or_ne other thread with rfl | different
  · simp [State.move]
  · simp [State.move, different]

omit [DecidableEq Cond] in
theorem Admitted.within {place : Place Cond} (admitted : Admitted place) :
    place.within = false := by
  cases admitted <;> rfl

omit [DecidableEq Cond] in
theorem Outer.within {l next : Local} {place : Place Cond} {cv : Option Cond}
    (outer : Outer code l next place cv) : place.within = false := by
  cases outer <;> rfl

omit [DecidableEq Cond] in
theorem Inner.within {l next : Local} {data changed : Data} {place : Place Cond} {cv : Option Cond}
    (inner : Inner code l data next place changed cv) : place.within = true := by
  cases inner <;> rfl

omit [DecidableEq Cond] in
theorem Leaves.within {l next : Local} {place after : Place Cond}
    (leaves : Leaves code l place next after) : place.within = true ∧ after.within = false := by
  cases leaves <;> exact ⟨rfl, rfl⟩

theorem Held.outer (held : Held code before now) (outer : OuterStep code thread now t) :
    ∃ first, ReflTransGen (Step code) before first ∧ Held code first t := by
  have apart : (now.place thread).within = false := by
    obtain ⟨outside, -⟩ := outer
    rw [outside]
    rfl
  have same : ∀ other, (t.place other).within = (now.place other).within := by
    obtain ⟨outside, outer⟩ := outer
    intro other
    rw [within_move]
    split
    next at_thread => rw [at_thread, apart, outer.within]
    · rfl
  cases held with
  | free settled nobody =>
    subst settled
    exact ⟨t, .single (.outer outer), .free rfl fun other => (same other).trans (nobody other)⟩
  | @busy holder ongoing only =>
    have different : thread ≠ holder := by
      rintro rfl
      cases apart.symm.trans ((only thread).mpr rfl)
    obtain ⟨first, outside, ongoing⟩ := ongoing.outer outer different
    exact ⟨first, .single (.outer outside), .busy ongoing fun other => by rw [same, only]⟩

theorem Held.holder (held : Held code before now) (within : (now.place thread).within = true) :
    Ongoing code thread before now ∧ ∀ other, (now.place other).within = true ↔ other = thread := by
  cases held with
  | free _ nobody => cases within.symm.trans (nobody thread)
  | busy ongoing only =>
    obtain rfl := (only thread).mp within
    exact ⟨ongoing, only⟩

theorem Held.inner (held : Held code before now) (inner : InnerStep code thread now t) :
    Held code before t := by
  have within : (now.place thread).within = true := by
    obtain ⟨inside, -⟩ := inner
    rw [inside]
    rfl
  obtain ⟨ongoing, only⟩ := held.holder within
  refine .busy (ongoing.inner inner) fun other => ?_
  obtain ⟨inside, inner⟩ := inner
  rw [within_move]
  split
  next at_thread => exact ⟨fun _ => at_thread, fun _ => inner.within⟩
  · exact only other

theorem Held.letIn (held : Held code before now) (admitted : Admitted (now.place thread))
    (nobody : ∀ other, (now.place other).within = false) : Held code before (now.letIn thread) := by
  cases held with
  | free settled _ =>
    subst settled
    refine .busy (.start admitted) fun other => ?_
    rw [State.letIn, within_move]
    split
    next at_thread => exact ⟨fun _ => at_thread, fun _ => rfl⟩
    next elsewhere => simp [nobody other, elsewhere]
  | @busy holder _ only => cases (nobody holder).symm.trans ((only holder).mpr rfl)

theorem Held.leave (held : Held code before now) {next : Local} {place : Place Cond}
    (leaves : Leaves code (now.locals thread) (now.place thread) next place) :
    Step code before (now.move thread next place now.data none) ∧
      Held code (now.move thread next place now.data none)
        (now.move thread next place now.data none) := by
  obtain ⟨ongoing, only⟩ := held.holder leaves.within.1
  refine ⟨.atomic ongoing leaves, .free rfl fun other => ?_⟩
  rw [within_move]
  split
  · exact leaves.within.2
  next elsewhere => exact Bool.eq_false_iff.mpr fun within => elsewhere ((only other).mp within)

/-- **Sections are atomic**: moves of any threads in any order come to whole
sections, one after the other, and to the moves so far of the one thread that
has the monitor. -/
theorem held_of_moves {start : State Thread Data Local Cond}
    (nobody : ∀ thread, (start.place thread).within = false)
    (moves : ReflTransGen (Move code) start now) :
    ∃ before, ReflTransGen (Step code) start before ∧ Held code before now := by
  induction moves with
  | refl => exact ⟨start, .refl, .free rfl nobody⟩
  | tail _ move ih =>
    obtain ⟨before, steps, held⟩ := ih
    cases move with
    | outer outer =>
      obtain ⟨first, more, held⟩ := held.outer outer
      exact ⟨first, steps.trans more, held⟩
    | inner inner => exact ⟨before, steps, held.inner inner⟩
    | letIn admitted nobody => exact ⟨before, steps, held.letIn admitted nobody⟩
    | leave leaves =>
      obtain ⟨step, held⟩ := held.leave leaves
      exact ⟨_, steps.tail step, held⟩

end Atomic
end TinyOs.Library.Sections
