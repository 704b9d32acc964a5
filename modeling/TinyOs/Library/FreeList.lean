import Mathlib.Data.List.Nodup
import Mathlib.Logic.Function.Basic

/-! Free lists threaded through a link field of the free entries. -/
namespace TinyOs.Library
open Function

variable {Entry : Type*}

/-- Following `link` from `head` visits exactly the entries of the list, in its
order, and ends. -/
def Chain (link : Entry → Option Entry) : Option Entry → List Entry → Prop
  | head, [] => head = none
  | head, entry :: rest => head = some entry ∧ Chain link (link entry) rest

variable {link : Entry → Option Entry} {head : Option Entry} {entries : List Entry}

/-- A chain does not read the links of entries that are not on it. -/
theorem Chain.frame {other : Entry → Option Entry} (chain : Chain link head entries)
    (same : ∀ entry ∈ entries, other entry = link entry) : Chain other head entries := by
  induction entries generalizing head with
  | nil => exact chain
  | cons entry rest ih =>
    obtain ⟨first, tail⟩ := chain
    refine ⟨first, ?_⟩
    rw [same entry List.mem_cons_self]
    exact ih tail fun other member => same other (List.mem_cons_of_mem _ member)

theorem Chain.update [DecidableEq Entry] (chain : Chain link head entries) {entry : Entry}
    (absent : entry ∉ entries) (value : Option Entry) :
    Chain (update link entry value) head entries := by
  refine chain.frame fun other member => update_of_ne ?_ ..
  rintro rfl
  exact absent member

theorem Chain.push [DecidableEq Entry] (chain : Chain link head entries) {entry : Entry}
    (absent : entry ∉ entries) :
    Chain (Function.update link entry head) (some entry) (entry :: entries) := by
  refine ⟨rfl, ?_⟩
  rw [update_self]
  exact chain.update absent head

theorem Chain.pop {entry : Entry} (chain : Chain link (some entry) entries) :
    ∃ rest, entries = entry :: rest ∧ Chain link (link entry) rest := by
  cases entries with
  | nil => cases chain
  | cons first rest =>
    obtain ⟨same, tail⟩ := chain
    obtain rfl := Option.some.inj same
    exact ⟨rest, rfl, tail⟩

/-- Consecutive numbers linked in their order. -/
theorem chain_range' {limit : Nat} (start count : Nat) (fits : start + count = limit)
    (positive : 0 < count) :
    Chain (fun n => if n + 1 < limit then some (n + 1) else none) (some start)
      (List.range' start count) := by
  induction count generalizing start with
  | zero => exact absurd positive (Nat.lt_irrefl 0)
  | succ count ih =>
    rw [List.range'_succ]
    refine ⟨rfl, ?_⟩
    cases count with
    | zero => simp [Chain, ← fits]
    | succ count =>
      have inside : start + 1 < limit := by omega
      simp only [inside, if_true]
      exact ih (start + 1) (by omega) (by omega)

end TinyOs.Library
