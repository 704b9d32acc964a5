import TinyOs.KernelBoot
import TinyOs.Library.UpdateAll

/-! `FCB_reserve` takes all it is asked for or nothing, and `FCB_unreserve`
gives it back. -/
namespace TinyOs.Kernel
open Function Library

/-- The fids of a process that are free, the smallest first. -/
def State.freeFids (s : State) (pid : Pid) : List Nat :=
  (List.range maxFileid).filter fun fid => (s.pt.fidt pid fid).isNone

/-- What `FCB_reserve` has done when it succeeds. -/
structure Reserved (s : State) (pid : Pid) (num : Nat) (fids : List Nat) (fcbs : List FcbRef)
    (t : State) : Prop where
  count : fids.length = num ∧ fcbs.length = num
  increasing : fids.Pairwise (· < ·)
  free_fids : ∀ fid ∈ fids, fid < maxFileid ∧ s.pt.fidt pid fid = none
  smallest : ∀ other, other < maxFileid → s.pt.fidt pid other = none → other ∉ fids →
    ∀ fid ∈ fids, fid < other
  distinct : fcbs.Nodup
  free_fcbs : ∀ fcb ∈ fcbs, fcb ∈ s.ft.fcbFreelist
  installed : ∀ fid fcb, (fid, fcb) ∈ fids.zip fcbs →
    t.pt.fidt pid fid = some fcb ∧ t.ft.refcount fcb = 1
  left_free : ∀ fcb, fcb ∈ t.ft.fcbFreelist ↔ fcb ∈ s.ft.fcbFreelist ∧ fcb ∉ fcbs
  other_fids : ∀ fid, fid ∉ fids → t.pt.fidt pid fid = s.pt.fidt pid fid
  other_fcbs : ∀ fcb, fcb ∉ fcbs → t.ft.refcount fcb = s.ft.refcount fcb
  rest : t = { s with
    pt.fidt := update s.pt.fidt pid (t.pt.fidt pid)
    ft.refcount := t.ft.refcount
    ft.fcbFreelist := t.ft.fcbFreelist }

/-- The FIDTs and the set of free FCBs are the same, and so is all else, but for
the counters of the free FCBs. -/
structure Restored (s t : State) : Prop where
  fidt : t.pt.fidt = s.pt.fidt
  free : t.ft.fcbFreelist.Perm s.ft.fcbFreelist
  in_use : ∀ fcb, fcb ∉ s.ft.fcbFreelist → t.ft.refcount fcb = s.ft.refcount fcb
  rest : t = { s with ft.refcount := t.ft.refcount, ft.fcbFreelist := t.ft.fcbFreelist }

/-! ### The loops -/

/-- The scan for the next free fid. -/
theorem find_range' {p : Nat → Bool} (f n : Nat) :
    (List.range' f n).filter p =
      match (List.range' f n).find? p with
      | none => []
      | some g => g :: (List.range' (g + 1) (f + n - (g + 1))).filter p := by
  induction n generalizing f with
  | zero => rfl
  | succ n ih =>
    rw [List.range'_succ, List.filter_cons, List.find?_cons]
    cases p f with
    | true =>
      have length : f + (n + 1) - (f + 1) = n := by omega
      simp [length]
    | false =>
      have ends : f + 1 + n = f + (n + 1) := by omega
      simpa [ends] using ih (f + 1)

theorem findFids_eq (fidt : Nat → Option FcbRef) (num f : Nat) (inside : f ≤ maxFileid) :
    findFids fidt num f =
      ((List.range' f (maxFileid - f)).filter fun g => (fidt g).isNone).take num := by
  induction num generalizing f with
  | zero => simp [findFids]
  | succ num ih =>
    have scan := find_range' (p := fun g => (fidt g).isNone) f (maxFileid - f)
    rw [findFids, scan]
    cases found : (List.range' f (maxFileid - f)).find? fun g => (fidt g).isNone with
    | none => rfl
    | some g =>
      have member := List.mem_of_find?_eq_some found
      rw [List.mem_range'_1] at member
      have ends : f + (maxFileid - f) - (g + 1) = maxFileid - (g + 1) := by omega
      rw [List.take_succ_cons, ends]
      exact congrArg (g :: ·) (ih (g + 1) (by omega))

theorem acquireFcbs_eq (num : Nat) (ft : FileTable) :
    acquireFcbs num ft = (ft.fcbFreelist.take num, { ft with
      fcbFreelist := ft.fcbFreelist.drop num
      refcount := updateAll ft.refcount ((ft.fcbFreelist.take num).map fun fcb => (fcb, 0)) }) := by
  induction num generalizing ft with
  | zero => rfl
  | succ num ih =>
    unfold acquireFcbs acquireFcb
    cases list : ft.fcbFreelist with
    | nil =>
      cases ft
      simp_all
    | cons fcb rest => simp [ih]

/-- The roll-back releases what has been acquired. -/
theorem releaseFcbs_eq (fcbs : List FcbRef) (ft : FileTable) :
    fcbs.foldl releaseFcb ft = { ft with fcbFreelist := ft.fcbFreelist ++ fcbs } := by
  induction fcbs generalizing ft with
  | nil => simp
  | cons fcb fcbs ih => simp [ih, releaseFcb]

/-- The last loop of `FCB_reserve`. -/
theorem install_eq (s : State) (pid : Pid) (pairs : List (Nat × FcbRef)) :
    pairs.foldl (fun s (fid, fcb) =>
        { s.setFid pid fid (some fcb) with ft := fcbIncref s.ft fcb }) s =
      { s with
        pt.fidt := update s.pt.fidt pid
          (updateAll (s.pt.fidt pid) (pairs.map fun pair => (pair.1, some pair.2)))
        ft.refcount := (pairs.map Prod.snd).foldl
          (fun refcount fcb => update refcount fcb (refcount fcb + 1)) s.ft.refcount } := by
  induction pairs generalizing s with
  | nil => simp
  | cons pair pairs ih =>
    rw [List.foldl_cons, ih]
    simp [State.setFid, fcbIncref]

theorem increfs_of_notMem {fcbs : List FcbRef} {refcount : FcbRef → BitVec 32} {fcb : FcbRef}
    (absent : fcb ∉ fcbs) :
    fcbs.foldl (fun refcount fcb => update refcount fcb (refcount fcb + 1)) refcount fcb =
      refcount fcb := by
  induction fcbs generalizing refcount with
  | nil => rfl
  | cons first fcbs ih =>
    rw [List.mem_cons, not_or] at absent
    rw [List.foldl_cons, ih absent.2, update_of_ne absent.1]

theorem increfs_of_mem {fcbs : List FcbRef} (nodup : fcbs.Nodup) {refcount : FcbRef → BitVec 32}
    {fcb : FcbRef} (member : fcb ∈ fcbs) :
    fcbs.foldl (fun refcount fcb => update refcount fcb (refcount fcb + 1)) refcount fcb =
      refcount fcb + 1 := by
  induction fcbs generalizing refcount with
  | nil => cases member
  | cons first fcbs ih =>
    obtain ⟨absent, nodup⟩ := List.nodup_cons.mp nodup
    rw [List.foldl_cons]
    rcases List.mem_cons.mp member with rfl | later
    · rw [increfs_of_notMem absent, update_self]
    · have apart : fcb ≠ first := by
        rintro rfl
        exact absent later
      rw [ih nodup later, update_of_ne apart]

/-- `FCB_unreserve` of FCBs that are where they were installed. -/
theorem fcbUnreserve_eq {s : State} {pid : Pid} {fids : List Nat} {fcbs : List FcbRef}
    (lengths : fids.length = fcbs.length) (nodup : fids.Nodup)
    (installed : ∀ pair ∈ fids.zip fcbs, s.pt.fidt pid pair.1 = some pair.2) :
    s.fcbUnreserve pid fids fcbs = { s with
      pt.fidt := update s.pt.fidt pid
        (updateAll (s.pt.fidt pid) (fids.map fun fid => (fid, none)))
      ft.fcbFreelist := s.ft.fcbFreelist ++ fcbs } := by
  induction fids generalizing s fcbs with
  | nil =>
    obtain rfl := List.eq_nil_of_length_eq_zero lengths.symm
    simp [State.fcbUnreserve]
  | cons fid fids ih =>
    cases fcbs with
    | nil => cases lengths
    | cons fcb fcbs =>
      obtain ⟨absent, nodup⟩ := List.nodup_cons.mp nodup
      have first := installed (fid, fcb) List.mem_cons_self
      have rest : ∀ pair ∈ fids.zip fcbs,
          ({ s.setFid pid fid none with ft := releaseFcb s.ft fcb } : State).pt.fidt pid pair.1 =
            some pair.2 := by
        intro pair member
        have apart : pair.1 ≠ fid := by
          rintro same
          exact absent (same ▸ (List.of_mem_zip member).1)
        simp only [State.setFid, update_self, update_of_ne apart]
        exact installed pair (List.mem_cons_of_mem _ member)
      have tail := ih (Nat.succ.inj lengths) nodup rest
      simp only [State.fcbUnreserve, List.zip_cons_cons, List.foldl_cons, if_pos first] at tail ⊢
      rw [tail]
      simp [State.setFid, releaseFcb]

/-! ### The call -/

section
variable {s t : State} {pid : Pid} {num : Nat} {fids : List Nat} {fcbs : List FcbRef}

theorem fids_eq (s : State) (pid : Pid) (num : Nat) :
    findFids (s.pt.fidt pid) num 0 = (s.freeFids pid).take num := by
  rw [findFids_eq _ _ _ (Nat.zero_le _), State.freeFids, List.range_eq_range', Nat.sub_zero]

/-- `FCB_reserve` fails for want of fids, for want of FCBs, or not at all. -/
theorem fcbReserve_eq (s : State) (pid : Pid) (num : Nat) : s.fcbReserve pid num =
    if (s.freeFids pid).length < num then (none, s)
    else if s.ft.fcbFreelist.length < num then
      (none, { s with
        ft.fcbFreelist := s.ft.fcbFreelist.drop num ++ (s.ft.fcbFreelist.take num).reverse
        ft.refcount := updateAll s.ft.refcount
          ((s.ft.fcbFreelist.take num).map fun fcb => (fcb, 0)) })
    else
      (some ((s.freeFids pid).take num, s.ft.fcbFreelist.take num), { s with
        pt.fidt := update s.pt.fidt pid (updateAll (s.pt.fidt pid)
          ((((s.freeFids pid).take num).zip (s.ft.fcbFreelist.take num)).map
            fun pair => (pair.1, some pair.2)))
        ft.fcbFreelist := s.ft.fcbFreelist.drop num
        ft.refcount := (s.ft.fcbFreelist.take num).foldl
          (fun refcount fcb => update refcount fcb (refcount fcb + 1))
          (updateAll s.ft.refcount ((s.ft.fcbFreelist.take num).map fun fcb => (fcb, 0))) }) := by
  have few : ∀ {n : Nat}, min num n < num ↔ n < num := by omega
  unfold State.fcbReserve
  simp only [fids_eq, acquireFcbs_eq, List.length_take, few, releaseFcbs_eq, install_eq]
  split
  · rfl
  · split
    · rfl
    next enough_fids enough =>
      have same : (((s.freeFids pid).take num).zip (s.ft.fcbFreelist.take num)).map Prod.snd =
          s.ft.fcbFreelist.take num := by
        apply List.map_snd_zip
        simp
        omega
      rw [same]

theorem freeFids_sorted (s : State) (pid : Pid) : (s.freeFids pid).Pairwise (· < ·) :=
  List.pairwise_lt_range.filter _

theorem mem_freeFids {fid : Nat} :
    fid ∈ s.freeFids pid ↔ fid < maxFileid ∧ s.pt.fidt pid fid = none := by
  simp [State.freeFids]

/-- What is left of a sorted list behind its first entries is greater than they. -/
theorem lt_of_take {list : List Nat} (sorted : list.Pairwise (· < ·)) {n a b : Nat}
    (taken : a ∈ list.take n) (member : b ∈ list) (left : b ∉ list.take n) : a < b := by
  rw [← List.take_append_drop n list] at sorted member
  have behind := (List.mem_append.mp member).resolve_left left
  exact (List.pairwise_append.mp sorted).2.2 a taken b behind

theorem reserved_of_enough (distinct : s.ft.fcbFreelist.Nodup)
    (enough_fids : num ≤ (s.freeFids pid).length) (enough : num ≤ s.ft.fcbFreelist.length)
    (reserves : s.fcbReserve pid num = (some (fids, fcbs), t)) :
    Reserved s pid num fids fcbs t := by
  rw [fcbReserve_eq, if_neg (not_lt.mpr enough_fids), if_neg (not_lt.mpr enough)] at reserves
  simp only [Prod.mk.injEq, Option.some.injEq] at reserves
  obtain ⟨⟨rfl, rfl⟩, rfl⟩ := reserves
  have sorted := freeFids_sorted s pid
  have nodup : (s.ft.fcbFreelist.take num).Nodup := distinct.sublist (List.take_sublist ..)
  have lengths : ((s.freeFids pid).take num).length = num ∧
      (s.ft.fcbFreelist.take num).length = num := by
    simp [enough_fids, enough]
  have keys : ((((s.freeFids pid).take num).zip (s.ft.fcbFreelist.take num)).map
      fun pair => (pair.1, some pair.2)).map Prod.fst = (s.freeFids pid).take num := by
    rw [List.map_map]
    exact List.map_fst_zip (lengths.1.trans lengths.2.symm).le
  refine ⟨lengths, sorted.sublist (List.take_sublist ..), ?_, ?_, nodup, ?_, ?_, ?_, ?_, ?_, ?_⟩
  case refine_1 => exact fun fid member => mem_freeFids.mp (List.mem_of_mem_take member)
  case refine_2 =>
    intro other inside free left fid member
    exact lt_of_take sorted member (mem_freeFids.mpr ⟨inside, free⟩) left
  case refine_3 => exact fun fcb member => List.mem_of_mem_take member
  case refine_4 =>
    intro fid fcb member
    have taken := (List.of_mem_zip member).2
    constructor
    · simp only [update_self]
      refine updateAll_of_mem ?_ (List.mem_map_of_mem member)
      rw [keys]
      exact (sorted.imp Nat.ne_of_lt).sublist (List.take_sublist ..)
    · simp only
      rw [increfs_of_mem nodup taken, updateAll_const, if_pos taken]
      rfl
  case refine_5 =>
    intro fcb
    have both := List.take_append_drop num s.ft.fcbFreelist
    have apart := List.disjoint_take_drop distinct (le_refl num)
    constructor
    · exact fun left => ⟨List.mem_of_mem_drop left, fun taken => apart taken left⟩
    · rintro ⟨member, absent⟩
      rw [← both] at member
      exact (List.mem_append.mp member).resolve_left absent
  case refine_6 =>
    intro fid absent
    simp only [update_self]
    exact updateAll_of_notMem (by rwa [keys])
  case refine_7 =>
    intro fcb absent
    simp only
    rw [increfs_of_notMem absent, updateAll_const, if_neg absent]
  case refine_8 => simp

/-- A successful call finds enough, and takes from the front of the free list. -/
theorem enough_of_reserves (reserves : s.fcbReserve pid num = (some (fids, fcbs), t)) :
    num ≤ (s.freeFids pid).length ∧ num ≤ s.ft.fcbFreelist.length ∧
      (t.ft.fcbFreelist ++ fcbs).Perm s.ft.fcbFreelist := by
  rw [fcbReserve_eq] at reserves
  split at reserves
  · simp at reserves
  next enough_fids =>
    split at reserves
    · simp at reserves
    next enough =>
      simp only [Prod.mk.injEq, Option.some.injEq] at reserves
      obtain ⟨⟨-, rfl⟩, rfl⟩ := reserves
      refine ⟨not_lt.mp enough_fids, not_lt.mp enough, ?_⟩
      exact (List.perm_append_comm).trans (.of_eq (List.take_append_drop num s.ft.fcbFreelist))

/-- `FCB_unreserve` undoes a successful `FCB_reserve`. -/
theorem Reserved.undone (reserved : Reserved s pid num fids fcbs t)
    (all : (t.ft.fcbFreelist ++ fcbs).Perm s.ft.fcbFreelist) :
    Restored s (t.fcbUnreserve pid fids fcbs) := by
  have lengths := reserved.count.1.trans reserved.count.2.symm
  have rest := reserved.rest
  have fidt : t.pt.fidt = update s.pt.fidt pid (t.pt.fidt pid) := by
    conv_lhs => rw [rest]
  have emptied : update t.pt.fidt pid
      (updateAll (t.pt.fidt pid) (fids.map fun fid => (fid, none))) = s.pt.fidt := by
    rw [fidt, update_idem, update_self]
    refine update_eq_iff.mpr ⟨funext fun fid => ?_, fun _ _ => rfl⟩
    rw [updateAll_const]
    split
    next mine => exact (reserved.free_fids fid mine).2.symm
    next other => exact reserved.other_fids fid other
  rw [fcbUnreserve_eq lengths (reserved.increasing.imp Nat.ne_of_lt)
    fun pair member => (reserved.installed pair.1 pair.2 member).1, emptied]
  refine ⟨rfl, all, fun fcb used => ?_, ?_⟩
  · refine reserved.other_fcbs fcb fun mine => used (reserved.free_fcbs fcb mine)
  · conv_lhs => rw [rest]

/-- A failed call changes nothing, or gives back what it took. -/
theorem restored_of_refuses (refuses : s.fcbReserve pid num = (none, t)) : Restored s t := by
  rw [fcbReserve_eq] at refuses
  split at refuses
  · obtain rfl := (Prod.mk.inj refuses).2
    exact ⟨rfl, .refl _, fun _ _ => rfl, rfl⟩
  · split at refuses
    · obtain rfl := (Prod.mk.inj refuses).2
      refine ⟨rfl, ?_, fun fcb used => ?_, rfl⟩
      · apply (List.perm_append_comm.trans (List.Perm.append_right _ (List.reverse_perm _))).trans
        exact .of_eq (List.take_append_drop num s.ft.fcbFreelist)
      · exact (updateAll_const 0 fcb).trans (if_neg fun taken => used (List.mem_of_mem_take taken))
    · simp at refuses

theorem fcbReserve_succeeds_iff (s : State) (pid : Pid) (num : Nat) :
    (s.fcbReserve pid num).1.isSome ↔
      num ≤ (s.freeFids pid).length ∧ num ≤ s.ft.fcbFreelist.length := by
  rw [fcbReserve_eq]
  split
  · simpa using fun enough => absurd enough (by omega)
  · split
    · simpa using fun _ => by omega
    · simp
      omega

end

/-- What `FCB_reserve` and `FCB_unreserve` do for a number of FCBs. -/
structure AllOrNothing (s : State) (pid : Pid) (num : Nat) : Prop where
  succeeds_iff : (s.fcbReserve pid num).1.isSome ↔
    num ≤ (s.freeFids pid).length ∧ num ≤ s.ft.fcbFreelist.length
  reserved : ∀ fids fcbs t, s.fcbReserve pid num = (some (fids, fcbs), t) →
    Reserved s pid num fids fcbs t
  refused : ∀ t, s.fcbReserve pid num = (none, t) → Restored s t
  undone : ∀ fids fcbs t, s.fcbReserve pid num = (some (fids, fcbs), t) →
    Restored s (t.fcbUnreserve pid fids fcbs)

/-- **`FCB_reserve` is all-or-nothing**, and `FCB_unreserve` is its inverse, for
every process, every number and every free list of distinct FCBs. -/
theorem all_or_nothing (s : State) (pid : Pid) (num : Nat) (distinct : s.ft.fcbFreelist.Nodup) :
    AllOrNothing s pid num := by
  have reserved : ∀ fids fcbs t, s.fcbReserve pid num = (some (fids, fcbs), t) →
      Reserved s pid num fids fcbs t ∧ (t.ft.fcbFreelist ++ fcbs).Perm s.ft.fcbFreelist := by
    intro fids fcbs t reserves
    obtain ⟨enough_fids, enough, all⟩ := enough_of_reserves reserves
    exact ⟨reserved_of_enough distinct enough_fids enough reserves, all⟩
  refine ⟨fcbReserve_succeeds_iff s pid num, fun fids fcbs t reserves => ?_,
    fun t refuses => restored_of_refuses refuses, fun fids fcbs t reserves => ?_⟩
  · exact (reserved fids fcbs t reserves).1
  · obtain ⟨reserved, all⟩ := reserved fids fcbs t reserves
    exact reserved.undone all

/-- The boot task takes two. -/
theorem all_or_nothing_booted : AllOrNothing booted 1 2 ∧
    (booted.fcbReserve 1 2).1 = some ([0, 1], [0, 1]) :=
  ⟨all_or_nothing booted 1 2 List.nodup_range', by rfl⟩

end TinyOs.Kernel
