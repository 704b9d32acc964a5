import TinyOs.KernelCases

/-! The file table as a table of reference counts: what it owes to the number
of references to each FCB, whoever holds them. -/
namespace TinyOs.Kernel
open Function

/-- The free FCBs have no references, the others have as many as their counter
says, and a stream that was opened is closed when its last reference goes. -/
structure Counted (ft : FileTable) (refs : FcbRef → Nat) : Prop where
  nodup : ft.fcbFreelist.Nodup
  free : ∀ fcb, fcb ∈ ft.fcbFreelist ↔ fcb < maxFiles ∧ refs fcb = 0
  inside : ∀ fcb, refs fcb ≠ 0 → fcb < maxFiles
  count : ∀ fcb, refs fcb ≠ 0 → (ft.refcount fcb).toNat = refs fcb
  closed : ∀ fcb, ft.closed fcb + (if refs fcb = 0 then 0 else 1) = ft.opened fcb

namespace Counted
variable {ft : FileTable} {refs : FcbRef → Nat} {fcb : FcbRef}

theorem incref (fcb : FcbRef) (counted : Counted ft refs) (held : refs fcb ≠ 0) (small : refs fcb + 1 < 2 ^ 32) :
    Counted (fcbIncref ft fcb) (update refs fcb (refs fcb + 1)) := by
  obtain ⟨nodup, free, inside, count, closed⟩ := counted
  constructor
  case nodup => exact nodup
  case free =>
    intro other
    simp only [fcbIncref, free, update_apply]
    grind
  case inside =>
    intro other
    rw [update_apply]
    grind
  case count =>
    intro other held'
    simp only [fcbIncref, update_apply] at held' ⊢
    split
    next same =>
      have before := count fcb held
      rw [BitVec.toNat_add, before, Nat.mod_eq_of_lt]
      · rfl
      · exact small
    next different =>
      rw [if_neg different] at held'
      exact count other held'
  case closed =>
    intro other
    simp only [fcbIncref, update_apply]
    grind

/-- `FCB_decref` closes the stream with its last reference. -/
theorem decref (fcb : FcbRef) (counted : Counted ft refs) (held : refs fcb ≠ 0) :
    Counted (fcbDecref ft fcb) (update refs fcb (refs fcb - 1)) := by
  have before := counted.count fcb held
  have shrinks : (ft.refcount fcb - 1).toNat = refs fcb - 1 := by
    rw [BitVec.toNat_sub_of_le, before]
    · rfl
    · rw [BitVec.le_def, before]
      exact Nat.one_le_iff_ne_zero.mpr held
  have listed : fcb ∉ ft.fcbFreelist := fun member => held ((counted.free fcb).mp member).2
  obtain ⟨nodup, free, inside, count, closed⟩ := counted
  unfold fcbDecref
  simp only [update_self]
  split
  next zero =>
    rw [zero] at shrinks
    have last : refs fcb - 1 = 0 := shrinks.symm
    constructor
    case nodup =>
      simp only [releaseFcb, deviceClose]
      rw [List.nodup_append]
      refine ⟨nodup, List.nodup_singleton fcb, ?_⟩
      rintro other member _ single rfl
      rw [List.mem_singleton] at single
      exact listed (single ▸ member)
    case free =>
      intro other
      have small := inside fcb held
      simp only [releaseFcb, deviceClose, List.mem_append, List.mem_singleton, free, update_apply]
      grind
    case inside =>
      intro other
      rw [update_apply]
      grind
    case count =>
      intro other held'
      simp only [releaseFcb, deviceClose, update_apply] at held' ⊢
      grind
    case closed =>
      intro other
      have ours := closed fcb
      have theirs := closed other
      simp only [releaseFcb, deviceClose, update_apply]
      grind
  next more =>
    have some_left : refs fcb - 1 ≠ 0 := by
      rw [← shrinks]
      exact fun zero => more (BitVec.eq_of_toNat_eq zero)
    constructor
    case nodup => exact nodup
    case free =>
      intro other
      simp only [free, update_apply]
      grind
    case inside =>
      intro other
      rw [update_apply]
      grind
    case count =>
      intro other held'
      simp only [update_apply] at held' ⊢
      grind
    case closed =>
      intro other
      have theirs := closed other
      simp only [update_apply]
      grind

/-- The first reference to a new stream. -/
theorem openFcb (counted : Counted ft refs) {rest : List FcbRef}
    (first : ft.fcbFreelist = fcb :: rest) (device : Device) :
    Counted { State.takeFcb ft fcb rest with
      stream := update ft.stream fcb device
      opened := update ft.opened fcb (ft.opened fcb + 1) } (update refs fcb 1) := by
  have listed := (counted.free fcb).mp (by simp [first])
  obtain ⟨nodup, free, inside, count, closed⟩ := counted
  simp only [first] at nodup free
  obtain ⟨absent, nodup⟩ := List.nodup_cons.mp nodup
  constructor
  case nodup => exact nodup
  case free =>
    intro other
    have member := free other
    simp only [State.takeFcb, update_apply]
    grind
  case inside =>
    intro other
    rw [update_apply]
    grind
  case count =>
    intro other held
    simp only [State.takeFcb, update_apply] at held ⊢
    split
    · rfl
    next different =>
      rw [if_neg different] at held
      exact count other held
  case closed =>
    intro other
    have ours := closed fcb
    have theirs := closed other
    simp only [State.takeFcb, update_apply]
    grind

/-- An FCB goes to the end of the free list unused. -/
theorem refuse (counted : Counted ft refs) {rest : List FcbRef}
    (first : ft.fcbFreelist = fcb :: rest) :
    Counted { State.takeFcb ft fcb rest with fcbFreelist := rest ++ [fcb] } refs := by
  have listed := (counted.free fcb).mp (by simp [first])
  obtain ⟨nodup, free, inside, count, closed⟩ := counted
  simp only [first] at nodup free
  obtain ⟨absent, nodup⟩ := List.nodup_cons.mp nodup
  constructor
  case nodup =>
    refine List.nodup_append.mpr ⟨nodup, List.nodup_singleton fcb, ?_⟩
    rintro other member _ single rfl
    rw [List.mem_singleton] at single
    exact absent (single ▸ member)
  case free =>
    intro other
    rw [← free other]
    simp [or_comm]
  case inside => exact inside
  case count =>
    intro other held
    have different : other ≠ fcb := by
      rintro rfl
      exact held listed.2
    simp only [State.takeFcb, update_of_ne different]
    exact count other held
  case closed => exact closed

end Counted
end TinyOs.Kernel
