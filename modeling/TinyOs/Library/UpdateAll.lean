import Mathlib.Data.List.Nodup
import Mathlib.Logic.Function.Basic

/-! A function changed at the keys of a list of pairs, from the first pair to
the last. -/
namespace TinyOs.Library
open Function

variable {Key Value : Type*} [DecidableEq Key]

def updateAll (f : Key → Value) (pairs : List (Key × Value)) : Key → Value :=
  pairs.foldl (fun f pair => update f pair.1 pair.2) f

variable {f : Key → Value} {pairs : List (Key × Value)} {key : Key}

@[simp] theorem updateAll_nil (f : Key → Value) : updateAll f [] = f := rfl

@[simp] theorem updateAll_cons (f : Key → Value) (pair : Key × Value) (pairs : List (Key × Value)) :
    updateAll f (pair :: pairs) = updateAll (update f pair.1 pair.2) pairs := rfl

/-- Other keys keep their values. -/
theorem updateAll_of_notMem (absent : key ∉ pairs.map Prod.fst) : updateAll f pairs key = f key := by
  induction pairs generalizing f with
  | nil => rfl
  | cons pair pairs ih =>
    rw [List.map_cons, List.mem_cons, not_or] at absent
    obtain ⟨apart, absent⟩ := absent
    rw [updateAll_cons, ih absent, update_of_ne apart]

/-- When no key occurs twice, each gets the value it is paired with. -/
theorem updateAll_of_mem (nodup : (pairs.map Prod.fst).Nodup) {value : Value}
    (member : (key, value) ∈ pairs) : updateAll f pairs key = value := by
  induction pairs generalizing f with
  | nil => cases member
  | cons pair pairs ih =>
    obtain ⟨absent, nodup⟩ := List.nodup_cons.mp nodup
    rw [updateAll_cons]
    rcases List.mem_cons.mp member with rfl | member
    · rw [updateAll_of_notMem absent, update_self]
    · exact ih nodup member

/-- Each key gets a value that depends on nothing else. -/
theorem updateAll_const {keys : List Key} (value : Value) (key : Key) :
    updateAll f (keys.map fun key => (key, value)) key = if key ∈ keys then value else f key := by
  induction keys generalizing f with
  | nil => rfl
  | cons first keys ih =>
    rw [List.map_cons, updateAll_cons, ih, update_apply]
    grind

end TinyOs.Library
