import Mathlib.Data.List.Infix
import Mathlib.Order.Lattice

/-! Queues of several levels. Entries join at the end of a queue, and the first
entry of the first level that has one is taken; so nobody is overtaken by an
entry of the same level or of a later one. -/
namespace TinyOs.Library
variable {Level Entry : Type*} [LinearOrder Level]

/-- What can happen to the queues, with what is taken. -/
inductive Dispatch (queues : Level → List Entry) :
    Option (Level × Entry) → (Level → List Entry) → Prop where
  | join {next : Level → List Entry} : (∀ level, queues level <+: next level) →
      Dispatch queues none next
  | take {level : Level} {entry : Entry} {next : Level → List Entry} :
      queues level = entry :: next level → (∀ earlier, earlier < level → queues earlier = []) →
      (∀ other, other ≠ level → next other = queues other) →
      Dispatch queues (some (level, entry)) next

/-- A run, with all that is taken, the oldest first. -/
inductive Dispatches :
    (Level → List Entry) → List (Level × Entry) → (Level → List Entry) → Prop where
  | nil {queues : Level → List Entry} : Dispatches queues [] queues
  | cons {queues middle last : Level → List Entry} {taken : Option (Level × Entry)}
      {rest : List (Level × Entry)} : Dispatch queues taken middle → Dispatches middle rest last →
      Dispatches queues (taken.toList ++ rest) last

namespace Dispatches
variable {queues middle last : Level → List Entry} {taken : List (Level × Entry)} {level : Level}
  {entry : Entry} {ahead behind : List Entry}

theorem single {one : Option (Level × Entry)} (dispatch : Dispatch queues one last) :
    Dispatches queues one.toList last := by
  have run := cons dispatch nil
  rwa [List.append_nil] at run

theorem append {more : List (Level × Entry)} (first : Dispatches queues taken middle)
    (second : Dispatches middle more last) : Dispatches queues (taken ++ more) last := by
  induction first with
  | nil => exact second
  | cons dispatch _ ih =>
    rw [List.append_assoc]
    exact cons dispatch (ih second)

/-- What has become of the queue of an entry that is not taken. -/
structure Waits (level : Level) (entry : Entry) (ahead behind : List Entry)
    (taken : List (Level × Entry)) (last : Level → List Entry) : Prop where
  /-- Those taken from its level are the first of those ahead, in their order. -/
  split : ∃ waiting new, ahead = (taken.filter (·.1 = level)).map (·.2) ++ waiting ∧
    last level = waiting ++ entry :: (behind ++ new)
  /-- All others are of earlier levels. -/
  earlier : ∀ d ∈ taken, d.1 ≤ level

/-- Nobody overtakes an entry within its level, or from a later level. -/
theorem waits (run : Dispatches queues taken last)
    (queued : queues level = ahead ++ entry :: behind) (still : (level, entry) ∉ taken) :
    Waits level entry ahead behind taken last := by
  induction run generalizing ahead behind with
  | nil => exact ⟨⟨ahead, [], by simp, by simpa using queued⟩, by simp⟩
  | @cons queues middle last one rest dispatch run ih =>
    simp only [List.mem_append, not_or] at still
    cases dispatch with
    | join grown =>
      obtain ⟨more, same⟩ := grown level
      have queued' : middle level = ahead ++ entry :: (behind ++ more) := by
        rw [← same, queued]
        simp
      obtain ⟨⟨waiting, new, served, tail⟩, earlier⟩ := ih queued' still.2
      exact ⟨⟨waiting, more ++ new, served, by simp [tail]⟩, earlier⟩
    | @take from_ head _ first above others =>
      rcases lt_trichotomy from_ level with less | rfl | more
      · have queued' : middle level = ahead ++ entry :: behind :=
          (others level less.ne').trans queued
        obtain ⟨⟨waiting, new, served, tail⟩, earlier⟩ := ih queued' still.2
        refine ⟨⟨waiting, new, ?_, tail⟩, ?_⟩
        · simpa [less.ne] using served
        · simpa using ⟨less.le, fun l e => earlier (l, e)⟩
      · rw [queued] at first
        cases ahead with
        | nil =>
          cases first
          simp at still
        | cons a ahead =>
          obtain ⟨rfl, queued'⟩ := List.cons.inj first
          obtain ⟨⟨waiting, new, served, tail⟩, earlier⟩ := ih queued'.symm still.2
          refine ⟨⟨waiting, new, ?_, tail⟩, ?_⟩
          · simpa using served
          · simpa using fun l e => earlier (l, e)
      · rw [above level more] at queued
        simp at queued

end Dispatches

namespace Dispatches.Waits
variable {last : Level → List Entry} {taken : List (Level × Entry)} {level : Level}
  {entry : Entry} {ahead behind : List Entry}

/-- Only as many as there were ahead are taken first, those of earlier levels apart. -/
theorem length_le (waits : Waits level entry ahead behind taken last) :
    taken.length ≤ ahead.length + taken.countP (·.1 < level) := by
  obtain ⟨waiting, new, served, -⟩ := waits.split
  have length : ahead.length = taken.countP (·.1 = level) + waiting.length := by
    rw [served, List.length_append, List.length_map, List.countP_eq_length_filter]
  have split : taken.length = taken.countP (·.1 < level) + taken.countP (·.1 = level) := by
    rw [List.length_eq_countP_add_countP (p := fun d : Level × Entry => d.1 < level)]
    congr 1
    apply List.countP_congr
    intro d member
    have le := waits.earlier d member
    simp only [decide_eq_true_eq, not_lt]
    exact ⟨fun ge => le_antisymm le ge, fun same => same.ge⟩
  omega

end Dispatches.Waits
end TinyOs.Library
