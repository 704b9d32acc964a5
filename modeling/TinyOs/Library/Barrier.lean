import Mathlib.Data.List.Count
import Mathlib.Data.List.Nodup
import Mathlib.Logic.Function.Basic
import TinyOs.Library.Counting

/-! Cyclic barriers. A barrier of `count` parties ends a round when all of them
have arrived; a party that waits remembers the round in which it arrived, and
leaves when that round is over. -/
namespace TinyOs.Library
open Function

structure Barrier where
  count : Nat
  /-- How many have arrived in this round. -/
  arrived : Nat
  /-- How many rounds are over. -/
  round : Nat
  deriving DecidableEq, Repr

namespace Barrier

def init (count : Nat) : Barrier where
  count := count
  arrived := 0
  round := 0

/-- One more party arrives; the last one ends the round. -/
def arrive (b : Barrier) : Barrier :=
  if b.arrived + 1 = b.count then { b with arrived := 0, round := b.round + 1 }
  else { b with arrived := b.arrived + 1 }

/-- A round is over. -/
def complete (b : Barrier) (round : Nat) : Bool := round < b.round

@[simp] theorem complete_iff {b : Barrier} {round : Nat} :
    b.complete round = true ↔ round < b.round := by
  simp [complete]

/-- What a party that has arrived and left so often may do with a barrier. -/
inductive Turn (b : Barrier) (arrivals departures : Nat) : Barrier → Nat → Nat → Prop where
  | stay : Turn b arrivals departures b arrivals departures
  | arrive : arrivals = departures → Turn b arrivals departures b.arrive (arrivals + 1) departures
  | depart : arrivals = departures + 1 → b.complete departures = true →
      Turn b arrivals departures b arrivals (departures + 1)

theorem Turn.arrivals_le {b next : Barrier} {arrivals departures arrivals' departures' : Nat}
    (turn : Turn b arrivals departures next arrivals' departures') : arrivals ≤ arrivals' := by
  cases turn with
  | stay => exact Nat.le_refl _
  | arrive => exact Nat.le_succ _
  | depart => exact Nat.le_refl _

/-- How often each party has arrived and left, when it is one of `parties`: nobody
is more than one round ahead, and those that are have arrived in this round. -/
structure Lockstep {Party : Type*} (parties : List Party) (b : Barrier)
    (arrivals departures : Party → Nat) : Prop where
  nodup : parties.Nodup
  count : b.count = parties.length
  room : b.arrived < b.count
  arrived : b.arrived = parties.countP fun p => arrivals p = b.round + 1
  behind : ∀ p ∈ parties, b.round ≤ arrivals p ∧ arrivals p ≤ b.round + 1
  left : ∀ p ∈ parties, departures p ≤ b.round ∧ departures p ≤ arrivals p

namespace Lockstep
variable {Party : Type*} {parties : List Party} {b : Barrier} {arrivals departures : Party → Nat}
  {p q : Party}

theorem init (parties : List Party) (nodup : parties.Nodup) (some_party : parties ≠ []) :
    Lockstep parties (init parties.length) (fun _ => 0) fun _ => 0 where
  nodup := nodup
  count := rfl
  room := List.length_pos_of_ne_nil some_party
  arrived := by simp [Barrier.init]
  behind := by simp [Barrier.init]
  left := by simp [Barrier.init]

/-- Nobody has left more often than anybody has arrived. -/
theorem departures_le (lockstep : Lockstep parties b arrivals departures) (mine : p ∈ parties)
    (theirs : q ∈ parties) : departures p ≤ arrivals q :=
  Nat.le_trans (lockstep.left p mine).1 (lockstep.behind q theirs).1

/-- A party that is not waiting would arrive in the round of its next departure. -/
theorem round_eq (lockstep : Lockstep parties b arrivals departures) (mine : p ∈ parties)
    (outside : arrivals p = departures p) : b.round = departures p := by
  have := lockstep.left p mine
  have := lockstep.behind p mine
  omega

/-- A round is over once all parties have arrived in it. -/
theorem over_of_forall {round : Nat} (lockstep : Lockstep parties b arrivals departures)
    (here : ∀ p ∈ parties, round < arrivals p) : b.complete round = true := by
  rw [complete_iff]
  by_contra early
  have all : ∀ p ∈ parties, decide (arrivals p = b.round + 1) = true := by
    intro p mine
    have := here p mine
    have := (lockstep.behind p mine).2
    exact decide_eq_true (by omega)
  have full := List.countP_eq_length.mpr all
  have room := lockstep.room
  rw [lockstep.arrived, lockstep.count, full] at room
  exact absurd room (Nat.lt_irrefl _)

variable [DecidableEq Party]

/-- A party that is not waiting arrives. -/
theorem arrive (lockstep : Lockstep parties b arrivals departures) (mine : p ∈ parties)
    (outside : arrivals p = departures p) :
    Lockstep parties b.arrive (update arrivals p (arrivals p + 1)) departures := by
  have same := lockstep.round_eq mine outside
  have counted := countP_update lockstep.nodup mine arrivals (arrivals p + 1)
    fun times => decide (times = b.round + 1)
  have first : arrivals p ≠ b.round + 1 := by omega
  simp only [outside, same] at counted first
  simp only [← same] at counted
  rw [if_neg (by simp), if_pos (by simp), ← lockstep.arrived] at counted
  have grown : ∀ q, arrivals q ≤ update arrivals p (arrivals p + 1) q := by
    intro q
    rw [update_apply]
    split
    next here => exact here ▸ Nat.le_succ _
    next => exact Nat.le_refl _
  have bounded : ∀ q ∈ parties, update arrivals p (arrivals p + 1) q ≤ b.round + 1 := by
    intro q theirs
    rw [update_apply]
    split
    next => omega
    next => exact (lockstep.behind q theirs).2
  have left : ∀ q ∈ parties, departures q ≤ update arrivals p (arrivals p + 1) q :=
    fun q theirs => Nat.le_trans (lockstep.left q theirs).2 (grown q)
  unfold Barrier.arrive
  split
  next last =>
    -- everybody has arrived: the round ends and nobody is ahead any more
    have all : ∀ q ∈ parties, update arrivals p (arrivals p + 1) q = b.round + 1 := by
      have full : parties.countP
          (fun q => decide (update arrivals p (arrivals p + 1) q = b.round + 1)) =
            parties.length := by
        rw [← lockstep.count, ← last, outside, ← same]
        simpa using counted
      intro q theirs
      exact of_decide_eq_true (List.countP_eq_length.mp full q theirs)
    refine ⟨lockstep.nodup, lockstep.count, ?_, ?_, ?_, ?_⟩
    · exact Nat.lt_of_le_of_lt (Nat.zero_le _) lockstep.room
    · symm
      rw [List.countP_eq_zero]
      intro q theirs
      rw [all q theirs]
      simp
    · intro q theirs
      rw [all q theirs]
      exact ⟨Nat.le_refl _, Nat.le_succ _⟩
    · intro q theirs
      exact ⟨Nat.le_succ_of_le (lockstep.left q theirs).1, left q theirs⟩
  next more =>
    refine ⟨lockstep.nodup, lockstep.count, ?_, ?_, ?_, ?_⟩
    · have := lockstep.room
      change b.arrived + 1 < b.count
      omega
    · change b.arrived + 1 = _
      rw [outside, ← same]
      simpa using counted.symm
    · exact fun q theirs =>
        ⟨Nat.le_trans (lockstep.behind q theirs).1 (grown q), bounded q theirs⟩
    · exact fun q theirs => ⟨(lockstep.left q theirs).1, left q theirs⟩

/-- A party leaves when its round is over. -/
theorem depart (lockstep : Lockstep parties b arrivals departures)
    (waiting : arrivals p = departures p + 1) (complete : b.complete (departures p) = true) :
    Lockstep parties b arrivals (update departures p (departures p + 1)) := by
  refine ⟨lockstep.nodup, lockstep.count, lockstep.room, lockstep.arrived, lockstep.behind, ?_⟩
  intro q theirs
  rw [update_apply]
  split
  next here =>
    subst here
    exact ⟨complete_iff.mp complete, by omega⟩
  next => exact lockstep.left q theirs

/-- The turn of a party. -/
theorem turn {next : Barrier} {arrivals' departures' : Nat}
    (lockstep : Lockstep parties b arrivals departures) (mine : p ∈ parties)
    (turn : Turn b (arrivals p) (departures p) next arrivals' departures') :
    Lockstep parties next (update arrivals p arrivals') (update departures p departures') := by
  generalize had : arrivals p = before, was : departures p = since at turn
  cases turn with
  | stay =>
    subst had was
    rwa [update_eq_self, update_eq_self]
  | arrive outside =>
    subst had was
    rw [update_eq_self]
    exact lockstep.arrive mine outside
  | depart waiting complete =>
    subst had was
    rw [update_eq_self]
    exact lockstep.depart waiting complete

end Lockstep
end Barrier
end TinyOs.Library
