import Mathlib.Algebra.GroupWithZero.Nat
import Mathlib.Data.List.Count
import Mathlib.Data.List.Nodup
import Mathlib.Logic.Function.Basic

/-! How many entries of a list a function sends to values of a kind, when the
function changes at one entry; and what a list adds up to, when one of its elements
changes. -/
namespace TinyOs.Library
open Function

variable {Index Value : Type*} [DecidableEq Index] {entries : List Index} {entry : Index}

theorem countP_update_of_notMem (absent : entry ∉ entries) (f : Index → Value) (value : Value)
    (kind : Value → Bool) :
    entries.countP (fun i => kind (update f entry value i)) =
      entries.countP fun i => kind (f i) := by
  apply List.countP_congr
  intro i member
  have apart : i ≠ entry := by
    rintro rfl
    exact absent member
  rw [update_of_ne apart]

/-- The count changes by what the old and the new value contribute. -/
theorem countP_update (nodup : entries.Nodup) (member : entry ∈ entries) (f : Index → Value)
    (value : Value) (kind : Value → Bool) :
    entries.countP (fun i => kind (update f entry value i)) + (if kind (f entry) then 1 else 0) =
      entries.countP (fun i => kind (f i)) + if kind value then 1 else 0 := by
  have absent : entry ∉ entries.erase entry := nodup.not_mem_erase
  have split := List.perm_cons_erase member
  rw [split.countP_eq, split.countP_eq, List.countP_cons, List.countP_cons, update_self,
    countP_update_of_notMem absent]
  omega

/-- The sum changes by what the old and the new element contribute. -/
theorem sum_map_set {α : Type*} {l : List α} {i : Nat} {a : α} (here : l[i]? = some a) (b : α)
    (f : α → Nat) : ((l.set i b).map f).sum + f a = (l.map f).sum + f b := by
  induction l generalizing i with
  | nil => simp at here
  | cons first rest ih =>
    cases i with
    | zero =>
      obtain rfl := Option.some.inj here
      simp only [List.set_cons_zero, List.map_cons, List.sum_cons]
      omega
    | succ i =>
      have later := ih here
      simp only [List.set_cons_succ, List.map_cons, List.sum_cons]
      omega

end TinyOs.Library
