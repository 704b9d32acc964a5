import TinyOs.SerialDevice
import TinyOs.KernelBoot

/-! A `serial_read` or `serial_write` gives up the kernel only while it has
moved nothing, so the bytes of one call stay together. -/
namespace TinyOs.SerialDevice
open Library Function
open Kernel (TcbRef FcbRef Device Pointer)

/-! ### The loop -/

theorem toNat_succ {count : BitVec 32} (fits : count.toNat + 1 < 2 ^ 32) :
    (count + 1).toNat = count.toNat + 1 := by
  rw [BitVec.toNat_add]
  exact Nat.mod_eq_of_lt fits

theorem ready_true (rest : List Bool) : ready (true :: rest) = ready rest + 1 := by
  simp [ready]

theorem ready_false (rest : List Bool) : ready (false :: rest) = 0 := by
  simp [ready]

section Loops
variable {Vars : Type*} {count : Vars → BitVec 32} {transfer : Vars → Vars} {size : BitVec 32}

/-- Where the loop stops at once. -/
theorem transferLoop_stop (v : Vars) (fits : (count v).toNat ≤ size.toNat) :
    (if count v < size then if count v = 0 then none else some v else some v) =
      if count v = 0 ∧ size ≠ 0 then none else some v := by
  by_cases more : count v < size
  · have positive : size ≠ 0 := by
      rintro rfl
      simp [BitVec.lt_def] at more
    simp only [more, positive, if_true, ne_eq, not_false_iff, and_true]
  · have same : count v = size := by
      apply BitVec.eq_of_toNat_eq
      rw [BitVec.lt_def] at more
      omega
    simp [same]

/-- **The loop waits only while it has transferred nothing.** It transfers as
many bytes as the device takes in a row, or `size` in all. -/
theorem transferLoop_eq (counts : ∀ v, count (transfer v) = count v + 1) (valid : List Bool)
    (v : Vars) (fits : (count v).toNat ≤ size.toNat) :
    transferLoop count transfer size valid v =
      if count v = 0 ∧ size ≠ 0 ∧ ready valid = 0 then none
      else some (transfer^[min (size.toNat - (count v).toNat) (ready valid)] v) := by
  induction valid generalizing v with
  | nil =>
    rw [transferLoop, transferLoop_stop v fits]
    simp [ready]
  | cons success rest ih =>
    cases success with
    | false =>
      simp only [transferLoop, ready_false, Bool.false_eq_true, if_false]
      rw [transferLoop_stop v fits]
      simp
    | true =>
      simp only [transferLoop, ready_true, if_true]
      by_cases more : count v < size
      · rw [BitVec.lt_def] at more
        have wide := size.isLt
        have next : (count (transfer v)).toNat = (count v).toNat + 1 := by
          rw [counts, toNat_succ (by omega)]
        have nonzero : count (transfer v) ≠ 0 := by
          intro zero
          rw [zero] at next
          simp at next
        have rounds : min (size.toNat - (count v).toNat) (ready rest + 1) =
            min (size.toNat - (count (transfer v)).toNat) (ready rest) + 1 := by omega
        rw [if_pos (BitVec.lt_def.mpr more), ih (transfer v) (by omega), rounds,
          if_neg fun waits => nonzero waits.1, if_neg fun waits => Nat.succ_ne_zero _ waits.2.2,
          iterate_succ_apply]
      · have whole : size.toNat - (count v).toNat = 0 := by
          rw [BitVec.lt_def] at more
          omega
        simp [more, whole]

end Loops

/-- What `n` transfers of a `serial_read` do that has transferred nothing. -/
theorem ReadVars.transfers {input : Nat → Byte} {buf : Pointer} {v : ReadVars} (zero : v.count = 0)
    (n : Nat) (fits : n < 2 ^ 32) :
    ((ReadVars.transfer input buf)^[n] v).count.toNat = n ∧
    ((ReadVars.transfer input buf)^[n] v).consumed = v.consumed + n ∧
    ((ReadVars.transfer input buf)^[n] v).stored =
      v.stored ++ (List.range n).map (fun i => (buf + i, input (v.consumed + i))) ∧
    ∀ i < n, ((ReadVars.transfer input buf)^[n] v).bytes (buf + i) = input (v.consumed + i) := by
  induction n with
  | zero => simp [zero]
  | succ n ih =>
    obtain ⟨count, consumed, stored, bytes⟩ := ih (by omega)
    rw [iterate_succ_apply']
    refine ⟨?_, ?_, ?_, fun i inside => ?_⟩
    · simp only [ReadVars.transfer]
      rw [toNat_succ (by omega), count]
    · simp only [ReadVars.transfer, consumed]
      omega
    · simp [ReadVars.transfer, stored, count, consumed, List.range_succ]
    · simp only [ReadVars.transfer, count, consumed]
      rcases Nat.lt_succ_iff_lt_or_eq.mp inside with earlier | rfl
      · have apart : buf + i ≠ buf + n := fun same => earlier.ne (Nat.add_left_cancel same)
        rw [update_of_ne apart]
        exact bytes i earlier
      · exact update_self ..

theorem WriteVars.transfers {bytes : Pointer → Byte} {buf : Pointer} {v : WriteVars}
    (zero : v.count = 0) (n : Nat) (fits : n < 2 ^ 32) :
    ((WriteVars.transfer bytes buf)^[n] v).count.toNat = n ∧
    ((WriteVars.transfer bytes buf)^[n] v).output =
      v.output ++ (List.range n).map (fun i => bytes (buf + i)) ∧
    ((WriteVars.transfer bytes buf)^[n] v).sent =
      v.sent ++ (List.range n).map (fun i => bytes (buf + i)) := by
  induction n with
  | zero => simp [zero]
  | succ n ih =>
    obtain ⟨count, output, sent⟩ := ih (by omega)
    rw [iterate_succ_apply']
    refine ⟨?_, ?_, ?_⟩
    · simp only [WriteVars.transfer]
      rw [toNat_succ (by omega), count]
    · simp [WriteVars.transfer, output, count, List.range_succ]
    · simp [WriteVars.transfer, sent, count, List.range_succ]

/-! ### Sections of the calls -/

/-- How many bytes a device moves that succeeds as the list says. -/
def moves (size : BitVec 32) (valid : List Bool) : Device → Nat
  | .null => 0
  | .serial _ => min size.toNat (ready valid)

/-- No call has moved anything that it has not returned, and those that have
returned are faithful. -/
structure Inv (s : State) : Prop where
  stored : ∀ thread, s.stored thread = []
  sent : ∀ thread, s.sent thread = []
  faithful : ∀ devno, Faithful s devno

variable {s t : State} {thread : TcbRef} {fcb : FcbRef} {size : BitVec 32} {valid : List Bool}
variable {device : Device}

/-- What the kernel of a step does not matter to the terminals. -/
theorem Inv.kernel (inv : Inv s) (kernel : Kernel.State) : Inv { s with kernel := kernel } :=
  ⟨inv.stored, inv.sent, fun devno =>
    ⟨(inv.faithful devno).consumed, (inv.faithful devno).output, (inv.faithful devno).reads,
      (inv.faithful devno).writes⟩⟩

theorem Inv.memory (inv : Inv s) (bytes : Pointer → Byte) : Inv { s with bytes := bytes } :=
  ⟨inv.stored, inv.sent, fun devno =>
    ⟨(inv.faithful devno).consumed, (inv.faithful devno).output, (inv.faithful devno).reads,
      (inv.faithful devno).writes⟩⟩

theorem Inv.enter (inv : Inv s) (thread : TcbRef) (buf : Pointer) : Inv (s.enter thread buf) := by
  refine ⟨fun other => ?_, fun other => ?_, fun devno =>
    ⟨(inv.faithful devno).consumed, (inv.faithful devno).output, (inv.faithful devno).reads,
      (inv.faithful devno).writes⟩⟩
  · simp only [State.enter, update_apply, inv.stored, ite_self]
  · simp only [State.enter, update_apply, inv.sent, ite_self]

/-- The `int` made of a number of bytes. -/
def returnValue (n : Nat) : Int := if n < 2 ^ 31 then n else (n : Int) - 2 ^ 32

theorem returnValue_neg {n : Nat} (large : ¬ n < 2 ^ 31) (fits : n < 2 ^ 32) : returnValue n < 1 := by
  rw [returnValue, if_neg large]
  omega

/-- The bytes that a call which returns has moved. -/
theorem transferred_toNat : (Kernel.State.transferred size (ready valid)).toNat =
    min size.toNat (ready valid) := by
  have wide := size.isLt
  rw [Kernel.State.transferred, BitVec.toNat_ofNat]
  exact Nat.mod_eq_of_lt (by omega)

/-- The `int` that a call returns is the number of bytes if and only if this
is less than 2^31. -/
theorem transferred_toInt : (Kernel.State.transferred size (ready valid)).toInt =
    returnValue (min size.toNat (ready valid)) := by
  rw [BitVec.toInt_eq_toNat_cond, transferred_toNat, returnValue]
  split <;> split <;> omega

/-- A read of a terminal waits, or returns the bytes moved. -/
theorem kernel_read (kernel : Kernel.State) (devno : Nat)
    (moved : ¬ (size ≠ 0 ∧ ready valid = 0)) :
    (kernel.deviceRead thread fcb size (ready valid) (.serial devno)).threads.returned thread =
      (Kernel.State.transferred size (ready valid)).toInt := by
  simp only [Kernel.State.deviceRead, if_neg moved]
  exact update_self ..

theorem kernel_write (kernel : Kernel.State) (devno : Nat)
    (moved : ¬ (size ≠ 0 ∧ ready valid = 0)) :
    (kernel.deviceWrite thread fcb size (ready valid) (.serial devno)).threads.returned thread =
      (Kernel.State.transferred size (ready valid)).toInt := by
  simp only [Kernel.State.deviceWrite, if_neg moved]
  exact update_self ..

section Records
variable {input : Nat → Byte} {buf : Pointer} {n : Nat}

/-- A `Read` that has moved `n` bytes is on record with these bytes, and it is
faithful when they fit into an `int`. -/
theorem readReturn_faithful {v : ReadVars} (zero : v.count = 0) (nothing : v.stored = [])
    (fits : n ≤ size.toNat) {w : ReadVars}
    (moved : w = (ReadVars.transfer input buf)^[n] v) {r : ReadReturn}
    (record : r = ⟨buf, size, returnValue n, w.stored, contents w.bytes buf w.count⟩) :
    w.consumed = v.consumed + n ∧
      r.segment = (List.range n).map (fun i => input (v.consumed + i)) ∧
      (0 < n → (r.Faithful ↔ n < 2 ^ 31)) := by
  have wide : n < 2 ^ 32 := Nat.lt_of_le_of_lt fits size.isLt
  obtain ⟨count, consumed, stored, bytes⟩ := ReadVars.transfers zero n wide
  rw [← moved] at count consumed stored bytes
  rw [nothing, List.nil_append] at stored
  subst record
  have segment : (List.map Prod.snd w.stored) =
      (List.range n).map (fun i => input (v.consumed + i)) := by
    simp [stored]
  refine ⟨consumed, segment, fun positive => ⟨fun faithful => ?_, fun small => ?_⟩⟩
  · by_contra large
    have least : 1 ≤ returnValue n := faithful.1
    have negative := returnValue_neg large wide
    omega
  · have value : returnValue n = n := if_pos small
    refine ⟨?_, ?_, ?_, ?_⟩
    · simp only [value]
      omega
    · simp only [value]
      omega
    · simp [value, stored]
    · rw [ReadReturn.segment, segment, contents, count]
      exact List.map_congr_left fun i member => bytes i (List.mem_range.mp member)

theorem writeReturn_faithful {bytes : Pointer → Byte} {v : WriteVars} (zero : v.count = 0)
    (nothing : v.sent = []) (fits : n ≤ size.toNat) {w : WriteVars}
    (moved : w = (WriteVars.transfer bytes buf)^[n] v) {r : WriteReturn}
    (record : r = ⟨buf, size, returnValue n, w.sent, contents bytes buf w.count⟩) :
    w.output = v.output ++ r.sent ∧ (0 < n → (r.Faithful ↔ n < 2 ^ 31)) := by
  have wide : n < 2 ^ 32 := Nat.lt_of_le_of_lt fits size.isLt
  obtain ⟨count, output, sent⟩ := WriteVars.transfers zero n wide
  rw [← moved] at count output sent
  rw [nothing, List.nil_append] at sent
  subst record
  refine ⟨by rw [output, sent], fun positive => ⟨fun faithful => ?_, fun small => ?_⟩⟩
  · by_contra large
    have least : 1 ≤ returnValue n := faithful.1
    have negative := returnValue_neg large wide
    omega
  · have value : returnValue n = n := if_pos small
    refine ⟨?_, ?_, ?_, ?_⟩
    · simp only [value]
      omega
    · simp only [value]
      omega
    · simp [value, sent]
    · rw [sent, contents, count]

end Records

/-! ### The invariant -/

theorem serialRead_eq {input : Nat → Byte} {buf : Pointer} {v : ReadVars} (zero : v.count = 0) :
    serialRead input buf size valid v =
      if size ≠ 0 ∧ ready valid = 0 then none
      else some ((ReadVars.transfer input buf)^[min size.toNat (ready valid)] v) := by
  have counts : ∀ v : ReadVars, (v.transfer input buf).count = v.count + 1 := fun _ => rfl
  have start : v.count.toNat ≤ size.toNat := by simp [zero]
  have looped := transferLoop_eq counts valid v start
  simpa [serialRead, zero] using looped

theorem serialWrite_eq {bytes : Pointer → Byte} {buf : Pointer} {v : WriteVars}
    (zero : v.count = 0) :
    serialWrite bytes buf size valid v =
      if size ≠ 0 ∧ ready valid = 0 then none
      else some ((WriteVars.transfer bytes buf)^[min size.toNat (ready valid)] v) := by
  have counts : ∀ v : WriteVars, (v.transfer bytes buf).count = v.count + 1 := fun _ => rfl
  have start : v.count.toNat ≤ size.toNat := by simp [zero]
  have looped := transferLoop_eq counts valid v start
  simpa [serialWrite, zero] using looped

variable {devno : Nat}

/-- A section of a `serial_read`: it moves nothing and waits, or it returns. -/
theorem deviceRead_serial :
    s.deviceRead thread fcb size valid (.serial devno) =
      if size ≠ 0 ∧ ready valid = 0 then
        { s with kernel := s.kernel.deviceRead thread fcb size (ready valid) (.serial devno) }
      else
        { s with
          kernel := s.kernel.deviceRead thread fcb size (ready valid) (.serial devno) }.endRead
            thread devno size ((ReadVars.transfer (s.input devno) (s.buf thread))^[
              min size.toNat (ready valid)] (s.readVars thread devno)) := by
  by_cases waits : size ≠ 0 ∧ ready valid = 0
  · rw [if_pos waits]
    simp only [State.deviceRead]
    rw [serialRead_eq rfl, if_pos waits]
  · rw [if_neg waits]
    simp only [State.deviceRead]
    rw [serialRead_eq rfl, if_neg waits]
    rfl

/-- A section of a `serial_write`: it moves nothing and yields, or it returns. -/
theorem deviceWrite_serial :
    s.deviceWrite thread fcb size valid (.serial devno) =
      if size ≠ 0 ∧ ready valid = 0 then
        { s with kernel := s.kernel.deviceWrite thread fcb size (ready valid) (.serial devno) }
      else
        { s with
          kernel := s.kernel.deviceWrite thread fcb size (ready valid) (.serial devno) }.endWrite
            thread devno size ((WriteVars.transfer s.bytes (s.buf thread))^[
              min size.toNat (ready valid)] (s.writeVars thread devno)) := by
  by_cases waits : size ≠ 0 ∧ ready valid = 0
  · rw [if_pos waits]
    simp only [State.deviceWrite]
    rw [serialWrite_eq rfl, if_pos waits]
  · rw [if_neg waits]
    simp only [State.deviceWrite]
    rw [serialWrite_eq rfl, if_neg waits]
    rfl

/-- What the call that has returned adds to the record. -/
theorem endRead_inv (inv : Inv s) {w : ReadVars} {n : Nat} {r : ReadReturn}
    (consumed : w.consumed = s.consumed devno + n)
    (segment : r.segment = (List.range n).map (fun i => s.input devno (s.consumed devno + i)))
    (record : r = ⟨s.buf thread, size, s.kernel.threads.returned thread, w.stored,
      contents w.bytes (s.buf thread) w.count⟩)
    (faithful : size ≠ 0 → r.Faithful) : Inv (s.endRead thread devno size w) := by
  subst record
  refine ⟨fun other => ?_, inv.sent, fun other => ?_⟩
  · simp only [State.endRead, update_apply, inv.stored, ite_self]
  · have before := inv.faithful other
    rcases eq_or_ne other devno with rfl | elsewhere
    · refine ⟨?_, before.output, ?_, before.writes⟩
      · simp only [State.endRead, update_self, List.flatMap_append, before.consumed, consumed,
          List.range_add, List.map_append]
        simp [segment]
      · simp only [State.endRead, update_self, List.mem_append, List.mem_singleton]
        rintro r (old | rfl) some
        · exact before.reads r old some
        · exact faithful some
    · refine ⟨?_, before.output, ?_, before.writes⟩
      · simpa [State.endRead, elsewhere] using before.consumed
      · simpa [State.endRead, elsewhere] using before.reads

theorem endWrite_inv (inv : Inv s) {w : WriteVars} {r : WriteReturn}
    (output : w.output = s.output devno ++ r.sent)
    (record : r = ⟨s.buf thread, size, s.kernel.threads.returned thread, w.sent,
      contents s.bytes (s.buf thread) w.count⟩)
    (faithful : size ≠ 0 → r.Faithful) : Inv (s.endWrite thread devno size w) := by
  subst record
  refine ⟨inv.stored, fun other => ?_, fun other => ?_⟩
  · simp only [State.endWrite, update_apply, inv.sent, ite_self]
  · have before := inv.faithful other
    rcases eq_or_ne other devno with rfl | elsewhere
    · refine ⟨before.consumed, ?_, before.reads, ?_⟩
      · simp [State.endWrite, before.output, output]
      · simp only [State.endWrite, update_self, List.mem_append, List.mem_singleton]
        rintro r (old | rfl) some
        · exact before.writes r old some
        · exact faithful some
    · refine ⟨before.consumed, ?_, before.reads, ?_⟩
      · simpa [State.endWrite, elsewhere] using before.output
      · simpa [State.endWrite, elsewhere] using before.writes

/-- Without a wait there is something to move. -/
theorem moved_positive (moved : ¬ (size ≠ 0 ∧ ready valid = 0)) (some : size ≠ 0) :
    0 < min size.toNat (ready valid) := by
  have wanted : size.toNat ≠ 0 := fun none => some (BitVec.eq_of_toNat_eq none)
  have ready : ready valid ≠ 0 := fun none => moved ⟨some, none⟩
  omega

theorem size_ne_zero (large : ¬ min size.toNat (ready valid) < 2 ^ 31) : size ≠ 0 := by
  rintro rfl
  exact large (by simp)

/-- A section of a read keeps the terminals faithful exactly when what it
returns fits into an `int`. -/
theorem deviceRead_inv (inv : Inv s) :
    (moves size valid device < 2 ^ 31 → Inv (s.deviceRead thread fcb size valid device)) ∧
      (¬ moves size valid device < 2 ^ 31 →
        ∃ devno, ¬ Faithful (s.deviceRead thread fcb size valid device) devno) := by
  cases device with
  | null =>
    refine ⟨fun _ => ?_, fun large => absurd (Nat.two_pow_pos 31) large⟩
    exact (inv.kernel _).memory _
  | serial devno =>
    rw [deviceRead_serial, moves]
    by_cases waits : size ≠ 0 ∧ ready valid = 0
    · rw [if_pos waits]
      refine ⟨fun _ => inv.kernel _, fun large => absurd ?_ large⟩
      simp [waits.2]
    · rw [if_neg waits]
      have returned : (s.kernel.deviceRead thread fcb size (ready valid)
          (.serial devno)).threads.returned thread = _ := kernel_read s.kernel devno waits
      rw [transferred_toInt] at returned
      have zero : (s.readVars thread devno).count = 0 := rfl
      have loop : _ = (ReadVars.transfer (s.input devno) (s.buf thread))^[
        min size.toNat (ready valid)] (s.readVars thread devno) := rfl
      obtain ⟨consumed, segment, faithful⟩ :=
        readReturn_faithful zero (inv.stored thread) (Nat.min_le_left _ _) loop rfl
      refine ⟨fun small => ?_, fun large => ⟨devno, fun whole => large ?_⟩⟩
      · refine endRead_inv (inv.kernel _) consumed segment ?_ fun some =>
          (faithful (moved_positive waits some)).mpr small
        simp only [returned]
      · have some := size_ne_zero large
        refine (faithful (moved_positive waits some)).mp (whole.reads _ ?_ some)
        simp [State.endRead, returned]

theorem deviceWrite_inv (inv : Inv s) :
    (moves size valid device < 2 ^ 31 → Inv (s.deviceWrite thread fcb size valid device)) ∧
      (¬ moves size valid device < 2 ^ 31 →
        ∃ devno, ¬ Faithful (s.deviceWrite thread fcb size valid device) devno) := by
  cases device with
  | null => exact ⟨fun _ => inv.kernel _, fun large => absurd (Nat.two_pow_pos 31) large⟩
  | serial devno =>
    rw [deviceWrite_serial, moves]
    by_cases waits : size ≠ 0 ∧ ready valid = 0
    · rw [if_pos waits]
      refine ⟨fun _ => inv.kernel _, fun large => absurd ?_ large⟩
      simp [waits.2]
    · rw [if_neg waits]
      have returned : (s.kernel.deviceWrite thread fcb size (ready valid)
          (.serial devno)).threads.returned thread = _ := kernel_write s.kernel devno waits
      rw [transferred_toInt] at returned
      have zero : (s.writeVars thread devno).count = 0 := rfl
      have loop : _ = (WriteVars.transfer s.bytes (s.buf thread))^[
        min size.toNat (ready valid)] (s.writeVars thread devno) := rfl
      obtain ⟨output, faithful⟩ :=
        writeReturn_faithful zero (inv.sent thread) (Nat.min_le_left _ _) loop rfl
      refine ⟨fun small => ?_, fun large => ⟨devno, fun whole => large ?_⟩⟩
      · refine endWrite_inv (inv.kernel _) output ?_ fun some =>
          (faithful (moved_positive waits some)).mpr small
        simp only [returned]
      · have some := size_ne_zero large
        refine (faithful (moved_positive waits some)).mp (whole.writes _ ?_ some)
        simp [State.endWrite, returned]

/-- The same for a call on a file id. -/
def fileMoves (s : State) (thread : TcbRef) (fd : Int) (size : BitVec 32) (valid : List Bool) : Nat :=
  match s.kernel.getFcb (s.kernel.curproc thread) fd with
  | some fcb => moves size valid (s.kernel.ft.stream fcb)
  | none => 0

theorem sysRead_inv (inv : Inv s) (fd : Int) (buf : Pointer) :
    (fileMoves s thread fd size valid < 2 ^ 31 → Inv (s.sysRead thread fd buf size valid)) ∧
      (¬ fileMoves s thread fd size valid < 2 ^ 31 →
        ∃ devno, ¬ Faithful (s.sysRead thread fd buf size valid) devno) := by
  have entered := inv.enter thread buf
  have file : (s.enter thread buf).kernel = s.kernel := rfl
  simp only [State.sysRead, file, fileMoves]
  cases s.kernel.getFcb (s.kernel.curproc thread) fd with
  | none => exact ⟨fun _ => entered.kernel _, fun large => absurd (Nat.two_pow_pos 31) large⟩
  | some fcb => exact deviceRead_inv (entered.kernel _)

theorem sysWrite_inv (inv : Inv s) (fd : Int) (buf : Pointer) :
    (fileMoves s thread fd size valid < 2 ^ 31 → Inv (s.sysWrite thread fd buf size valid)) ∧
      (¬ fileMoves s thread fd size valid < 2 ^ 31 →
        ∃ devno, ¬ Faithful (s.sysWrite thread fd buf size valid) devno) := by
  have entered := inv.enter thread buf
  have file : (s.enter thread buf).kernel = s.kernel := rfl
  simp only [State.sysWrite, file, fileMoves]
  cases s.kernel.getFcb (s.kernel.curproc thread) fd with
  | none => exact ⟨fun _ => entered.kernel _, fun large => absurd (Nat.two_pow_pos 31) large⟩
  | some fcb => exact deviceWrite_inv (entered.kernel _)

/-- How many bytes of a terminal a step moves, by what it is asked for and what
the device does. -/
def terminalBytes (s : State) : Label → Nat
  | .read thread fd _ size valid => fileMoves s thread fd size valid
  | .write thread fd _ size valid => fileMoves s thread fd size valid
  | .resume thread valid =>
    match s.kernel.threads.status thread with
    | .waiting (.read _ device size) => moves size valid device
    | _ => 0
  | .poll thread valid =>
    match s.kernel.threads.status thread with
    | .writing _ device size => moves size valid device
    | _ => 0
  | .kernel _ | .store _ _ => 0

/-- No call moves 2^31 bytes of a terminal. -/
def Allowed (s : State) (label : Label) : Prop := terminalBytes s label < 2 ^ 31

instance (s : State) (label : Label) : Decidable (Allowed s label) :=
  inferInstanceAs (Decidable (terminalBytes s label < 2 ^ 31))

theorem step_inv (inv : Inv s) {label : Label} (stepped : machine.step s label = some t) :
    (Allowed s label → Inv t) ∧ (¬ Allowed s label → ∃ devno, ¬ Faithful t devno) := by
  simp only [machine, step, Option.ite_none_right_eq_some] at stepped
  obtain ⟨-, acted⟩ := stepped
  cases label with
  | read thread fd buf size valid =>
    simp only [act, Option.ite_none_right_eq_some, Option.some.injEq] at acted
    obtain ⟨-, rfl⟩ := acted
    exact sysRead_inv inv fd buf
  | write thread fd buf size valid =>
    simp only [act, Option.ite_none_right_eq_some, Option.some.injEq] at acted
    obtain ⟨-, rfl⟩ := acted
    exact sysWrite_inv inv fd buf
  | resume thread valid =>
    simp only [act] at acted
    split at acted
    · next fcb device size here =>
      simp only [Option.ite_none_right_eq_some, Option.some.injEq] at acted
      obtain ⟨-, rfl⟩ := acted
      simp only [Allowed, terminalBytes, here]
      exact deviceRead_inv inv
    · cases acted
  | poll thread valid =>
    simp only [act] at acted
    split at acted
    · next fcb device size here =>
      simp only [Option.ite_none_right_eq_some, Option.some.injEq] at acted
      obtain ⟨-, rfl⟩ := acted
      simp only [Allowed, terminalBytes, here]
      exact deviceWrite_inv inv
    · cases acted
  | kernel label =>
    simp only [act, Option.ite_none_right_eq_some, Option.map_eq_some_iff] at acted
    obtain ⟨-, kernel, -, rfl⟩ := acted
    exact ⟨fun _ => inv.kernel kernel, fun large => absurd (Nat.two_pow_pos 31) large⟩
  | store pointer value =>
    obtain rfl := Option.some.inj acted
    exact ⟨fun _ => inv.memory _, fun large => absurd (Nat.two_pow_pos 31) large⟩

theorem fresh_inv (kernel : Kernel.State) (input : Nat → Nat → Byte) (bytes : Pointer → Byte) :
    Inv (fresh kernel input bytes) where
  stored _ := rfl
  sent _ := rfl
  faithful devno := by constructor <;> simp [fresh]

/-- **Terminal bytes are neither lost, duplicated nor mixed** in any state of a
run of any system calls, whatever the devices do, if and only if no call of the
run moves 2^31 bytes or more. -/
theorem faithful_iff {past : List (State × Label)} {last : State} (run : machine.Run past last) :
    (∀ s, Machine.Visits past last s → ∀ devno, Faithful s devno) ↔
      ∀ left ∈ past, Allowed left.1 left.2 := by
  have booted : ∀ s, machine.initial s → Inv s := by
    rintro s ⟨kernel, input, bytes, -, rfl⟩
    exact fresh_inv kernel input bytes
  refine Machine.good_iff_allowed Allowed Inv booted ?_ (fun s inv => inv.faithful) ?_ run
  · exact fun s label t inv allowed moved => (step_inv inv moved).1 allowed
  · intro s label t inv refused moved whole
    obtain ⟨devno, broken⟩ := (step_inv inv moved).2 refused
    exact broken (whole devno)

/-! ### The kernel underneath -/

theorem deviceRead_kernel : (s.deviceRead thread fcb size valid device).kernel =
    s.kernel.deviceRead thread fcb size (ready valid) device := by
  cases device with
  | null => rfl
  | serial devno =>
    rw [deviceRead_serial]
    split <;> rfl

theorem deviceWrite_kernel : (s.deviceWrite thread fcb size valid device).kernel =
    s.kernel.deviceWrite thread fcb size (ready valid) device := by
  cases device with
  | null => rfl
  | serial devno =>
    rw [deviceWrite_serial]
    split <;> rfl

theorem sysRead_kernel (fd : Int) (buf : Pointer) : (s.sysRead thread fd buf size valid).kernel =
    s.kernel.sysRead thread fd size (ready valid) := by
  have file : (s.enter thread buf).kernel = s.kernel := rfl
  simp only [State.sysRead, Kernel.State.sysRead, file]
  cases s.kernel.getFcb (s.kernel.curproc thread) fd with
  | none => rfl
  | some fcb => exact deviceRead_kernel

theorem sysWrite_kernel (fd : Int) (buf : Pointer) :
    (s.sysWrite thread fd buf size valid).kernel =
      s.kernel.sysWrite thread fd size (ready valid) := by
  have file : (s.enter thread buf).kernel = s.kernel := rfl
  simp only [State.sysWrite, Kernel.State.sysWrite, file]
  cases s.kernel.getFcb (s.kernel.curproc thread) fd with
  | none => rfl
  | some fcb => exact deviceWrite_kernel

/-- The kernel moves by its own steps, told how many bytes a device moves. -/
theorem step_kernel {label : Label} (stepped : step s label = some t) :
    t.kernel = s.kernel ∨ ∃ label, Kernel.step s.kernel label = some t.kernel := by
  simp only [step, Option.ite_none_right_eq_some] at stepped
  obtain ⟨running, acted⟩ := stepped
  have by_act : ∀ label, Kernel.act s.kernel label = some t.kernel →
      ∃ label, Kernel.step s.kernel label = some t.kernel := fun label acted =>
    ⟨label, by rw [Kernel.step, if_pos running, acted]⟩
  cases label with
  | read thread fd buf size valid =>
    simp only [act, Option.ite_none_right_eq_some, Option.some.injEq] at acted
    obtain ⟨calls, rfl⟩ := acted
    refine .inr (by_act (.read thread fd size (ready valid)) ?_)
    rw [sysRead_kernel, Kernel.act, if_pos calls]
  | write thread fd buf size valid =>
    simp only [act, Option.ite_none_right_eq_some, Option.some.injEq] at acted
    obtain ⟨calls, rfl⟩ := acted
    refine .inr (by_act (.write thread fd size (ready valid)) ?_)
    rw [sysWrite_kernel, Kernel.act, if_pos calls]
  | resume thread valid =>
    simp only [act] at acted
    split at acted
    · next fcb device size here =>
      simp only [Option.ite_none_right_eq_some, Option.some.injEq] at acted
      obtain ⟨guard, rfl⟩ := acted
      refine .inr (by_act (.resume thread (ready valid)) ?_)
      simp only [Kernel.act, here, if_pos guard]
      rw [deviceRead_kernel]
      rfl
    · cases acted
  | poll thread valid =>
    simp only [act] at acted
    split at acted
    · next fcb device size here =>
      simp only [Option.ite_none_right_eq_some, Option.some.injEq] at acted
      obtain ⟨guard, rfl⟩ := acted
      refine .inr (by_act (.poll thread (ready valid)) ?_)
      simp only [Kernel.act, here, if_pos guard]
      rw [deviceWrite_kernel]
    · cases acted
  | kernel label =>
    simp only [act, Option.ite_none_right_eq_some, Option.map_eq_some_iff] at acted
    obtain ⟨-, kernel, acted, rfl⟩ := acted
    exact .inr (by_act label acted)
  | store pointer value =>
    obtain rfl := Option.some.inj acted
    exact .inl rfl

/-- What holds of the kernel in all its runs holds of it here. -/
theorem reachable_kernel (reached : machine.Reachable s) : Kernel.machine.Reachable s.kernel := by
  have booted : ∀ s, machine.initial s → Kernel.machine.Reachable s.kernel := by
    rintro s ⟨kernel, input, bytes, initial, rfl⟩
    exact .start initial
  have kept : ∀ s label t, Kernel.machine.Reachable s.kernel → machine.step s label = some t →
      Kernel.machine.Reachable t.kernel := by
    intro s label t before moved
    rcases step_kernel moved with same | ⟨label, moved⟩
    · rwa [same]
    · exact before.step moved
  exact reached.induction booted kept

/-! ### Runs -/

/-- The booted machine with a terminal whose input counts up from zero. -/
def bootedTerminal : State :=
  fresh Kernel.booted (fun _ i => BitVec.ofNat 8 i) fun _ => 255

theorem bootedTerminal_initial : machine.initial bootedTerminal :=
  ⟨_, _, _, Kernel.booted_initial, rfl⟩

/-- A thread waits for input and then reads two bytes of it. -/
theorem faithful_iff_two_bytes : ∃ past last, machine.Run past last ∧
    (last.reads 0).map ReadReturn.contents = [[0, 1]] ∧
    ∀ s, Machine.Visits past last s → ∀ devno, Faithful s devno := by
  have booted := Machine.Run.start bootedTerminal_initial
  have opened := booted.next (.kernel (.openTerminal 0 0)) rfl
  have waiting := opened.next (.read 0 0 64 4 []) rfl
  have interrupted := waiting.next (.kernel .rxReady) rfl
  have finished := interrupted.next (.resume 0 [true, true, false]) rfl
  refine ⟨_, _, finished, by decide, (faithful_iff finished).mpr ?_⟩
  simp only [List.forall_mem_cons]
  refine ⟨by decide, by decide, by decide, by decide, by simp⟩

theorem ready_replicate (n : Nat) : ready (List.replicate n true) = n := by
  simp [ready]

def openedTerminal : State :=
  { bootedTerminal with kernel := bootedTerminal.kernel.sysOpenTerminal 0 0 }

/-- A read of 2^31 bytes that the terminal delivers in a row returns a negative
number. -/
theorem huge_read : ∃ s, machine.Reachable s ∧ ∃ devno, ¬ Faithful s devno := by
  have booted : machine.Reachable bootedTerminal := .start bootedTerminal_initial
  have opens : machine.step bootedTerminal (.kernel (.openTerminal 0 0)) = some openedTerminal := rfl
  have fresh : Inv bootedTerminal := fresh_inv ..
  have inv : Inv openedTerminal := (step_inv fresh opens).1 (by decide)
  have reads : ∀ valid, machine.step openedTerminal (.read 0 0 64 2147483648 valid) =
      some (openedTerminal.sysRead 0 0 64 2147483648 valid) := fun _ => rfl
  have bytes : ∀ valid, fileMoves openedTerminal 0 0 2147483648 valid =
      min 2147483648 (ready valid) := fun _ => rfl
  have refused : ¬ Allowed openedTerminal
      (.read 0 0 64 2147483648 (List.replicate 2147483648 true)) := by
    rw [Allowed, terminalBytes, bytes, ready_replicate]
    decide
  exact ⟨_, (booted.step opens).step (reads _), (step_inv inv (reads _)).2 refused⟩

end TinyOs.SerialDevice
