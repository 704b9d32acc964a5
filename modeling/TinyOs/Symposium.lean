import Mathlib.Data.Nat.ModEq
import TinyOs.Library.Machine

/-! The dining philosophers of `symposium.c`: one monitor, with a condition
variable for each philosopher. A step is one statement of one philosopher.
The time that thinking and eating take is left out. -/
namespace TinyOs.Symposium
open Function Library

inductive Phil where
  | nothere | thinking | hungry | eating
  deriving DecidableEq, Repr

/-- `LEFT`. -/
def left (n i : Nat) : Nat := (i + 1) % n

/-- `RIGHT`. The sum stays an `int`, as there are at most 2^30 threads. -/
def right (n i : Nat) : Nat := (i + n - 1) % n

/-- The next statement of `SymposiumTable_philosopher`; `bite` is its `j`. -/
inductive Point where
  /-- `Mutex_Lock`. -/
  | arriving
  | setThinking
  | unlockArrived
  /-- The condition of the `for` loop, then `think` and `Mutex_Lock`. -/
  | nextBite (bite : Nat)
  | setHungry (bite : Nat)
  | tryMyself (bite : Nat)
  /-- The condition of the `while` loop, then `Cond_Wait`. -/
  | testHungry (bite : Nat)
  | asleep (bite : Nat)
  /-- At the `Mutex_Lock` that ends `Cond_Wait`. -/
  | relocking (bite : Nat)
  | assertEating (bite : Nat)
  | unlockEating (bite : Nat)
  /-- `eat`, then `Mutex_Lock`. -/
  | eating (bite : Nat)
  | setThinkingAgain (bite : Nat)
  | tryLeft (bite : Nat)
  | tryRight (bite : Nat)
  | unlockFinished (bite : Nat)
  /-- `Mutex_Lock`, past the loop. -/
  | leaving
  | setNothere
  | unlockLeft
  | gone
  deriving DecidableEq, Repr

/-- The philosopher has the monitor. -/
def Point.inside : Point → Bool
  | .setThinking | .unlockArrived | .setHungry _ | .tryMyself _ | .testHungry _ | .assertEating _
  | .unlockEating _ | .setThinkingAgain _ | .tryLeft _ | .tryRight _ | .unlockFinished _
  | .setNothere | .unlockLeft => true
  | .arriving | .nextBite _ | .asleep _ | .relocking _ | .eating _ | .leaving | .gone => false

def Point.sleeps : Point → Bool
  | .asleep _ => true
  | _ => false

/-- A `SymposiumTable`, with where each philosopher is. -/
structure State where
  /-- Who locked `mx`. -/
  mx : Option Nat
  state : Nat → Phil
  point : Nat → Point
  /-- A sleeper of `hungry[i]` has been signalled. -/
  signalled : Nat → Bool
  assertFailed : Bool

inductive Label where
  /-- The philosopher executes its next statement. -/
  | run (i : Nat)
  /-- `Cond_Wait` ends without a signal. -/
  | wake (i : Nat)
  deriving DecidableEq, Repr

namespace State

def goto (s : State) (i : Nat) (point : Point) : State :=
  { s with point := update s.point i point }

/-- `Mutex_Lock`, once the mutex is free. -/
def lock (s : State) (i : Nat) (point : Point) : Option State :=
  if s.mx = none then some { s.goto i point with mx := some i } else none

def unlock (s : State) (i : Nat) (point : Point) : State := { s.goto i point with mx := none }

def setState (s : State) (i : Nat) (phil : Phil) : State :=
  { s with state := update s.state i phil }

/-- `Cond_Signal(&hungry[i])`. Only philosopher `i` sleeps there. -/
def condSignal (s : State) (i : Nat) : State :=
  if (s.point i).sleeps then { s with signalled := update s.signalled i true } else s

/-- `Cond_Wait(&mx, &hungry[i])`, up to the sleep. -/
def condWait (s : State) (i : Nat) (bite : Nat) : State :=
  { s.unlock i (.asleep bite) with signalled := update s.signalled i false }

/-- `trytoeat`. -/
def trytoeat (s : State) (n i : Nat) : State :=
  if s.state i = .hungry ∧ s.state (left n i) ≠ .eating ∧ s.state (right n i) ≠ .eating then
    (s.setState i .eating).condSignal i
  else s

/-- The next statement of a philosopher that is not asleep, or whose sleep was
ended by a signal. -/
def run (s : State) (n : Nat) (bites : Int) (i : Nat) : Option State :=
  match s.point i with
  | .arriving => s.lock i .setThinking
  | .setThinking => some ((s.setState i .thinking).goto i .unlockArrived)
  | .unlockArrived => some (s.unlock i (.nextBite 0))
  | .nextBite bite =>
    if (bite : Int) < bites then s.lock i (.setHungry bite) else some (s.goto i .leaving)
  | .setHungry bite => some ((s.setState i .hungry).goto i (.tryMyself bite))
  | .tryMyself bite => some ((s.trytoeat n i).goto i (.testHungry bite))
  | .testHungry bite =>
    if s.state i = .hungry then some (s.condWait i bite) else some (s.goto i (.assertEating bite))
  | .asleep bite => if s.signalled i then some (s.goto i (.relocking bite)) else none
  | .relocking bite => s.lock i (.testHungry bite)
  | .assertEating bite =>
    some { s.goto i (.unlockEating bite) with
      assertFailed := s.assertFailed || !(s.state i = .eating) }
  | .unlockEating bite => some (s.unlock i (.eating bite))
  | .eating bite => s.lock i (.setThinkingAgain bite)
  | .setThinkingAgain bite => some ((s.setState i .thinking).goto i (.tryLeft bite))
  | .tryLeft bite => some ((s.trytoeat n (left n i)).goto i (.tryRight bite))
  | .tryRight bite => some ((s.trytoeat n (right n i)).goto i (.unlockFinished bite))
  | .unlockFinished bite => some (s.unlock i (.nextBite (bite + 1)))
  | .leaving => s.lock i .setNothere
  | .setNothere => some ((s.setState i .nothere).goto i .unlockLeft)
  | .unlockLeft => some (s.unlock i .gone)
  | .gone => none

/-- A spurious end of `Cond_Wait`. -/
def wake (s : State) (i : Nat) : Option State :=
  match s.point i with
  | .asleep bite => some (s.goto i (.relocking bite))
  | _ => none

end State

def step (n : Nat) (bites : Int) (s : State) : Label → Option State
  | .run i => if i < n then s.run n bites i else none
  | .wake i => if i < n then s.wake i else none

/-- `SymposiumTable_init`, before the philosophers arrive. -/
def symposiumTableInit : State where
  mx := none
  state := fun _ => .nothere
  point := fun _ => .arriving
  signalled := fun _ => false
  assertFailed := false

/-- `n` threads that run `SymposiumTable_philosopher` over one table. -/
def machine (n : Nat) (bites : Int) : Machine State Label where
  initial s := s = symposiumTableInit
  step := step n bites

/-! ### The ring -/

section
variable {n i j : Nat}

theorem left_lt (seated : i < n) : left n i < n := Nat.mod_lt _ (Nat.zero_lt_of_lt seated)

theorem right_lt (seated : i < n) : right n i < n := Nat.mod_lt _ (Nat.zero_lt_of_lt seated)

theorem left_right (seated : i < n) : left n (right n i) = i := by
  unfold left right
  rw [Nat.mod_add_mod]
  have sum : i + n - 1 + 1 = i + n := by omega
  rw [sum, Nat.add_mod_right, Nat.mod_eq_of_lt seated]

theorem right_left (seated : i < n) : right n (left n i) = i := by
  unfold left right
  rw [Nat.add_sub_assoc (Nat.one_le_of_lt seated), Nat.mod_add_mod]
  have sum : i + 1 + (n - 1) = i + n := by omega
  rw [sum, Nat.add_mod_right, Nat.mod_eq_of_lt seated]

/-- Whose left neighbour is `i`, has `i` to its right. -/
theorem left_eq_iff (seated_i : i < n) (seated_j : j < n) : left n j = i ↔ j = right n i := by
  constructor
  · rintro rfl
    exact (right_left seated_j).symm
  · rintro rfl
    exact left_right seated_i

theorem right_eq_iff (seated_i : i < n) (seated_j : j < n) : right n j = i ↔ j = left n i := by
  constructor
  · rintro rfl
    exact (left_right seated_j).symm
  · rintro rfl
    exact right_left seated_i

end

end TinyOs.Symposium
