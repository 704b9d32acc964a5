import Mathlib.Data.List.Basic

/-! Sequences that end at the first occurrence of a terminator, one after
another in memory. -/
namespace TinyOs.Library
variable {α : Type*}

/-- The part of a sequence before the first terminator, if there is one. -/
def upTo [DecidableEq α] (z : α) : List α → Option (List α)
  | [] => none
  | x :: rest => if x = z then some [] else (upTo z rest).map (x :: ·)

/-- The part after the first terminator. -/
def pastFirst [DecidableEq α] (z : α) : List α → Option (List α)
  | [] => none
  | x :: rest => if x = z then some rest else pastFirst z rest

/-- The sequences one after another, each with its terminator. -/
def terminated (z : α) (strings : List (List α)) : List α :=
  strings.flatMap (· ++ [z])

/-- What `n` sequences and their terminators hold, from the front. -/
def splitAtEach [DecidableEq α] (z : α) : Nat → List α → Option (List (List α))
  | 0, _ => some []
  | n + 1, l => (upTo z l).bind fun first =>
    (pastFirst z l).bind fun rest => (splitAtEach z n rest).map (first :: ·)

section
variable {z : α} {s l rest : List α} {strings : List (List α)}

@[simp] theorem terminated_nil : terminated z [] = [] := rfl

@[simp] theorem terminated_cons : terminated z (s :: strings) = s ++ z :: terminated z strings := by
  simp [terminated]

theorem length_terminated :
    (terminated z strings).length = strings.flatten.length + strings.length := by
  induction strings with
  | nil => rfl
  | cons s strings ih =>
    simp only [terminated_cons, ih, List.length_append, List.length_cons, List.flatten_cons]
    omega

theorem getLast?_terminated (some_string : strings ≠ []) :
    (terminated z strings).getLast? = some z := by
  obtain none | ⟨init, last, rfl⟩ := List.eq_nil_or_concat strings
  · exact absurd none some_string
  · simp [terminated]

variable [DecidableEq α]

theorem upTo_append (free : z ∉ s) (rest : List α) : upTo z (s ++ z :: rest) = some s := by
  induction s with
  | nil => simp [upTo]
  | cons x s ih =>
    rw [List.mem_cons, not_or] at free
    obtain ⟨different, free⟩ := free
    simp [upTo, Ne.symm different, ih free]

theorem pastFirst_append (free : z ∉ s) (rest : List α) :
    pastFirst z (s ++ z :: rest) = some rest := by
  induction s with
  | nil => simp [pastFirst]
  | cons x s ih =>
    rw [List.mem_cons, not_or] at free
    obtain ⟨different, free⟩ := free
    simp [pastFirst, Ne.symm different, ih free]

/-- What is read up to a terminator is free of it, and stands before it. -/
theorem upTo_eq_some : upTo z l = some s ↔ z ∉ s ∧ ∃ rest, l = s ++ z :: rest := by
  constructor
  · intro read
    induction l generalizing s with
    | nil => cases read
    | cons x l ih =>
      unfold upTo at read
      split at read
      next here =>
        cases read
        exact ⟨List.not_mem_nil, l, by rw [here, List.nil_append]⟩
      next different =>
        obtain ⟨tail, before, rfl⟩ := Option.map_eq_some_iff.mp read
        obtain ⟨free, rest, rfl⟩ := ih before
        exact ⟨List.not_mem_cons_of_ne_of_not_mem (Ne.symm different) free, rest, rfl⟩
  · rintro ⟨free, rest, rfl⟩
    exact upTo_append free rest

theorem pastFirst_eq_some : pastFirst z l = some rest ↔ ∃ s, z ∉ s ∧ l = s ++ z :: rest := by
  constructor
  · intro read
    induction l with
    | nil => cases read
    | cons x l ih =>
      unfold pastFirst at read
      split at read
      next here =>
        cases read
        exact ⟨[], List.not_mem_nil, by rw [here, List.nil_append]⟩
      next different =>
        obtain ⟨s, free, rfl⟩ := ih read
        exact ⟨x :: s, List.not_mem_cons_of_ne_of_not_mem (Ne.symm different) free, rfl⟩
  · rintro ⟨s, free, rfl⟩
    exact pastFirst_append free rest

/-- Each terminator that is passed is one less to come. -/
theorem exists_pastFirst (some_left : 0 < l.count z) :
    ∃ rest, pastFirst z l = some rest ∧ rest.count z + 1 = l.count z := by
  obtain ⟨s, rest, rfl, free⟩ := List.eq_append_cons_of_mem (List.count_pos_iff.mp some_left)
  exact ⟨rest, pastFirst_append free rest, by simp [List.count_eq_zero.mpr free]⟩

theorem count_terminated (free : ∀ s ∈ strings, z ∉ s) :
    (terminated z strings).count z = strings.length := by
  induction strings with
  | nil => rfl
  | cons s strings ih =>
    obtain ⟨first, others⟩ := List.forall_mem_cons.mp free
    simp [ih others, List.count_eq_zero.mpr first]

/-- Sequences are read back from memory as they were put there. -/
theorem splitAtEach_terminated (free : ∀ s ∈ strings, z ∉ s) (rest : List α) :
    splitAtEach z strings.length (terminated z strings ++ rest) = some strings := by
  induction strings with
  | nil => rfl
  | cons s strings ih =>
    obtain ⟨first, others⟩ := List.forall_mem_cons.mp free
    simp [splitAtEach, upTo_append first, pastFirst_append first, ih others]

end
end TinyOs.Library
