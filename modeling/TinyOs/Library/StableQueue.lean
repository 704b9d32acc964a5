import Mathlib.Data.List.Sort
import Mathlib.Order.Defs.LinearOrder

/-! Lists kept in the order of a key, entries of one key in the order of their
ranks, by inserting each new entry in front of the first one with a greater
key. -/
namespace TinyOs.Library
variable {Entry Key Rank : Type*} [LinearOrder Key] [Preorder Rank]
  {key : Entry → Key} {rank : Entry → Rank} {entry : Entry} {entries : List Entry}

/-- Earlier keys come first, and earlier ranks among equal keys. -/
def Queued (key : Entry → Key) (rank : Entry → Rank) (entries : List Entry) : Prop :=
  entries.Pairwise fun first second => key first < key second ∨
    key first = key second ∧ rank first < rank second

theorem Queued.congr {key' : Entry → Key} {rank' : Entry → Rank} (queued : Queued key rank entries)
    (same : ∀ entry ∈ entries, key' entry = key entry ∧ rank' entry = rank entry) :
    Queued key' rank' entries := by
  refine List.Pairwise.imp_of_mem ?_ queued
  intro first second member there
  rw [(same first member).1, (same second there).1, (same first member).2, (same second there).2]
  exact id

/-- The first entry has the least key. -/
theorem Queued.le_head (queued : Queued key rank (entry :: entries)) {other : Entry}
    (member : other ∈ entries) : key entry ≤ key other := by
  rcases (List.pairwise_cons.mp queued).1 other member with earlier | ⟨same, -⟩
  · exact earlier.le
  · exact same.le

/-- A new entry is put behind those whose keys are not greater. -/
theorem Queued.insert {earlier : Entry → Entry → Prop} [DecidableRel earlier]
    (queued : Queued key rank entries)
    (compares : ∀ other ∈ entries, earlier entry other ↔ key entry < key other)
    (newest : ∀ other ∈ entries, rank other < rank entry) :
    Queued key rank (entries.orderedInsert earlier entry) := by
  induction entries with
  | nil => exact List.pairwise_singleton ..
  | cons first rest ih =>
    have ahead := (List.pairwise_cons.mp queued).1
    rw [List.orderedInsert_cons]
    split
    next before =>
      have least := (compares first List.mem_cons_self).mp before
      refine List.pairwise_cons.mpr ⟨fun other member => ?_, queued⟩
      rcases List.mem_cons.mp member with rfl | member
      · exact .inl least
      · exact .inl (least.trans_le (queued.le_head member))
    next behind =>
      have inserted := ih (List.pairwise_cons.mp queued).2
        (fun other member => compares other (List.mem_cons_of_mem _ member))
        (fun other member => newest other (List.mem_cons_of_mem _ member))
      refine List.pairwise_cons.mpr ⟨fun other member => ?_, inserted⟩
      rcases (List.mem_orderedInsert earlier).mp member with rfl | member
      · have reached := le_of_not_gt fun less => behind ((compares first List.mem_cons_self).mpr less)
        rcases reached.lt_or_eq with less | same
        · exact .inl less
        · exact .inr ⟨same, newest first List.mem_cons_self⟩
      · exact ahead other member

end TinyOs.Library
