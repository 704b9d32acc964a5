import Mathlib.Data.List.Basic

/-! Sequences that arrive in pieces. How long a piece is, is left to a function of
the number of calls, so that what holds for every such function holds for every
way to cut a sequence into pieces that are not empty. -/
namespace TinyOs.Library

/-- What is still to be read, where the call `i` transfers at most `cut i + 1` elements. -/
structure Source (α : Type*) where
  left : List α
  cut : Nat → Nat
  calls : Nat

/-- What has been written. -/
structure Sink (α : Type*) where
  sent : List α
  cut : Nat → Nat
  calls : Nat

variable {α : Type*}

/-- The next piece, of at most this size. It is empty only at the end. -/
def Source.read (s : Source α) (size : Nat) : List α × Source α :=
  let n := min size (s.cut s.calls + 1)
  (s.left.take n, { s with left := s.left.drop n, calls := s.calls + 1 })

/-- Part of the data is written, and its length returned. -/
def Sink.write (s : Sink α) (data : List α) : Nat × Sink α :=
  let n := min data.length (s.cut s.calls + 1)
  (n, { s with sent := s.sent ++ data.take n, calls := s.calls + 1 })

section
variable {s : Source α} {size : Nat}

theorem Source.read_append (s : Source α) (size : Nat) :
    (s.read size).1 ++ (s.read size).2.left = s.left := List.take_append_drop ..

theorem Source.length_read (s : Source α) (size : Nat) : (s.read size).1.length ≤ size := by
  simp only [Source.read, List.length_take]
  omega

theorem Source.read_nil (positive : 0 < size) : (s.read size).1 = [] ↔ s.left = [] := by
  simp only [Source.read, List.take_eq_nil_iff]
  refine ⟨fun empty => empty.resolve_left (by omega), .inr⟩

theorem Sink.write_pos {s : Sink α} {data : List α} (nonempty : data ≠ []) :
    0 < (s.write data).1 := by
  have length := List.length_pos_iff.mpr nonempty
  simp only [Sink.write]
  omega

theorem Sink.write_sent (s : Sink α) (data : List α) :
    (s.write data).2.sent ++ data.drop (s.write data).1 = s.sent ++ data := by
  simp only [Sink.write, List.append_assoc, List.take_append_drop]

end
end TinyOs.Library
