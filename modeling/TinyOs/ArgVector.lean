import Mathlib.Data.BitVec
import TinyOs.Library.Terminated

/-! `util.h`: argument vectors in an argument buffer. A result of `none` means
that the code has read or written outside the memory it was given, or that an
`int` has overflowed. -/
namespace TinyOs.ArgVector
open Library

abbrev Byte := BitVec 8

/-- A `char*`: the bytes from where it points to the end of the object. -/
abbrev Chars := List Byte

def strlen : Chars → Option Nat
  | [] => none
  | byte :: rest => if byte = 0 then some 0 else (strlen rest).map (· + 1)

/-- The loop of `argvlen`, at the length so far and for the strings that are
left. -/
def argvlenLoop : Nat → Nat → List Chars → Option Nat
  | l, 0, _ => some l
  | _, _ + 1, [] => none
  | l, argc + 1, s :: argv =>
    (strlen s).bind fun length => argvlenLoop ((l + (length + 1)) % 2 ^ 64) argc argv

def argvlen (argc : Nat) (argv : List Chars) : Option Nat := argvlenLoop 0 argc argv

/-- The variables of `argvpack`, with the memory at `args`. -/
structure Packing where
  args : List Byte
  pos : Nat
  argl : Nat
  deriving DecidableEq, Repr

/-- `while(( *pos++ = *s++ )) argl++;` -/
def copyString : Packing → Chars → Option Packing
  | _, [] => none
  | p, byte :: rest =>
    if p.pos < p.args.length then
      let p := { p with args := p.args.set p.pos byte, pos := p.pos + 1 }
      if byte = 0 then some p
      else if p.argl + 1 < 2 ^ 31 then copyString { p with argl := p.argl + 1 } rest
      else none
    else none

def packLoop : Packing → Nat → List Chars → Option Packing
  | p, 0, _ => some p
  | _, _ + 1, [] => none
  | p, argc + 1, s :: argv => (copyString p s).bind fun p => packLoop p argc argv

/-- The memory at `args` after `argvpack`, with its result. -/
def argvpack (args : List Byte) (argc : Nat) (argv : List Chars) : Option (List Byte × Nat) :=
  (packLoop { args := args, pos := 0, argl := 0 } argc argv).map fun p =>
    (p.args, (p.argl + argc) % 2 ^ 64)

/-- The loop of `argscount`, for the bytes that are left. -/
def countLoop : Nat → Nat → Chars → Option Nat
  | 0, n, _ => some n
  | _ + 1, _, [] => none
  | left + 1, n, byte :: rest => countLoop left (if byte = 0 then n + 1 else n) rest

def argscount (argl : Int) (args : Chars) : Option Nat := countLoop argl.toNat 0 args

/-- `while(*a++);` -/
def skip : Chars → Option Chars
  | [] => none
  | byte :: rest => if byte = 0 then some rest else skip rest

def unpackLoop : Nat → Chars → Option (List Chars × Chars)
  | 0, a => some ([], a)
  | argc + 1, a => (skip a).bind fun next =>
    (unpackLoop argc next).map fun (argv, last) => (a :: argv, last)

/-- The output array of `argvunpack`, with its result. The counter is an `int`;
`argl` is not used. -/
def argvunpack (argc : Nat) (_argl : Int) (args : Chars) : Option (List Chars × Chars) :=
  if argc < 2 ^ 31 then unpackLoop argc args else none

/-- The strings that `argc` and `argv` stand for: what the pointers point to, up
to the terminating zeros. -/
def strings : Nat → List Chars → Option (List (List Byte))
  | 0, _ => some []
  | _ + 1, [] => none
  | argc + 1, s :: argv => (upTo 0 s).bind fun first => (strings argc argv).map (first :: ·)

section
variable {s : Chars} {string : List Byte} {argc : Nat} {argv : List Chars}
  {vector : List (List Byte)} {before after : List Byte} {argl : Nat}

theorem strings_cons : strings (argc + 1) (s :: argv) = some vector ↔
    ∃ first, upTo 0 s = some first ∧ ∃ others, strings argc argv = some others ∧
      first :: others = vector := by
  simp only [strings, Option.bind_eq_some_iff, Option.map_eq_some_iff]

/-- The strings of a vector are free of zeros, and as many as it has. -/
theorem strings_sound (holds : strings argc argv = some vector) :
    vector.length = argc ∧ ∀ string ∈ vector, (0 : Byte) ∉ string := by
  induction argc generalizing argv vector with
  | zero =>
    cases holds
    exact ⟨rfl, by simp⟩
  | succ argc ih =>
    cases argv with
    | nil => cases holds
    | cons s argv =>
      obtain ⟨first, read, others, rest, rfl⟩ := strings_cons.mp holds
      obtain ⟨count, free⟩ := ih rest
      exact ⟨congrArg (· + 1) count,
        List.forall_mem_cons.mpr ⟨(upTo_eq_some.mp read).1, free⟩⟩

theorem strlen_eq : strlen s = (upTo 0 s).map List.length := by
  induction s with
  | nil => rfl
  | cons byte rest ih =>
    simp only [strlen, upTo]
    split
    · rfl
    · rw [ih]
      cases upTo 0 rest <;> rfl

theorem skip_eq (a : Chars) : skip a = pastFirst 0 a := by
  induction a with
  | nil => rfl
  | cons byte rest ih => simp only [skip, pastFirst, ih]

/-! ### Packing -/

/-- The size of the strings with their zeros. -/
def packedSize (vector : List (List Byte)) : Nat := (vector.map fun s => s.length + 1).sum

theorem packedSize_cons : packedSize (string :: vector) = string.length + 1 + packedSize vector :=
  rfl

/-- It is also the number of their bytes and that of the strings. -/
theorem packedSize_eq (vector : List (List Byte)) :
    packedSize vector = vector.flatten.length + vector.length := by
  induction vector with
  | nil => rfl
  | cons string vector ih =>
    simp only [packedSize_cons, ih, List.flatten_cons, List.length_append, List.length_cons]
    omega

theorem length_packed : (terminated (0 : Byte) vector).length = packedSize vector :=
  length_terminated.trans (packedSize_eq vector).symm

theorem argvlenLoop_eq (holds : strings argc argv = some vector) {l : Nat}
    (fits : l + packedSize vector < 2 ^ 64) :
    argvlenLoop l argc argv = some (l + packedSize vector) := by
  induction argc generalizing argv vector l with
  | zero =>
    cases holds
    rfl
  | succ argc ih =>
    cases argv with
    | nil => cases holds
    | cons s argv =>
      obtain ⟨first, read, others, rest, rfl⟩ := strings_cons.mp holds
      rw [packedSize_cons] at fits ⊢
      have small : l + (first.length + 1) < 2 ^ 64 := by omega
      rw [argvlenLoop, strlen_eq, read, Option.map_some, Option.bind_some, Nat.mod_eq_of_lt small,
        ih rest (by omega), Nat.add_assoc]

/-- One string is copied with its zero, if there is room. -/
theorem copyString_eq (read : upTo 0 s = some string) (room : string.length < after.length)
    (fits : argl + string.length < 2 ^ 31) :
    copyString { args := before ++ after, pos := before.length, argl := argl } s =
      some { args := (before ++ (string ++ [0])) ++ after.drop (string.length + 1)
             pos := (before ++ (string ++ [0])).length, argl := argl + string.length } := by
  induction s generalizing string before after argl with
  | nil => cases read
  | cons byte rest ih =>
    cases after with
    | nil => simp at room
    | cons old after =>
      have inside : before.length < (before ++ old :: after).length := by simp
      have write : (before ++ old :: after).set before.length byte = before ++ byte :: after := by
        simp
      unfold upTo at read
      rw [copyString]
      dsimp only
      rw [if_pos inside, write]
      by_cases zero : byte = 0
      · rw [if_pos zero] at read ⊢
        cases read
        simp [zero]
      · rw [if_neg zero] at read ⊢
        obtain ⟨tail, rest_read, rfl⟩ := Option.map_eq_some_iff.mp read
        rw [List.length_cons, List.length_cons] at room
        rw [List.length_cons] at fits
        have next := @ih tail (before ++ [byte]) after (argl + 1) rest_read (by omega) (by omega)
        rw [if_pos (by omega)]
        simp only [List.append_assoc, List.singleton_append, List.length_append,
          List.length_singleton] at next
        rw [next]
        simp [Nat.add_assoc, Nat.add_comm 1]

/-- Without room for it the copy of a string leaves the buffer. -/
theorem copyString_full (read : upTo 0 s = some string) (full : after.length ≤ string.length) :
    copyString { args := before ++ after, pos := before.length, argl := argl } s = none := by
  induction s generalizing string before after argl with
  | nil => rfl
  | cons byte rest ih =>
    rw [copyString]
    cases after with
    | nil => exact if_neg (by simp)
    | cons old after =>
      have inside : before.length < (before ++ old :: after).length := by simp
      have write : (before ++ old :: after).set before.length byte = before ++ byte :: after := by
        simp
      unfold upTo at read
      rw [List.length_cons] at full
      dsimp only
      rw [if_pos inside, write]
      split at read
      · cases read
        cases full
      next different =>
        obtain ⟨tail, rest_read, rfl⟩ := Option.map_eq_some_iff.mp read
        rw [List.length_cons] at full
        have next := @ih tail (before ++ [byte]) after (argl + 1) rest_read (by omega)
        simp only [List.append_assoc, List.singleton_append, List.length_append,
          List.length_singleton] at next
        rw [if_neg different, next, ite_self]

theorem packLoop_eq (holds : strings argc argv = some vector)
    (room : packedSize vector ≤ after.length) (fits : argl + vector.flatten.length < 2 ^ 31) :
    packLoop { args := before ++ after, pos := before.length, argl := argl } argc argv =
      some { args := (before ++ terminated 0 vector) ++ after.drop (packedSize vector)
             pos := (before ++ terminated 0 vector).length
             argl := argl + vector.flatten.length } := by
  induction argc generalizing argv vector before after argl with
  | zero =>
    cases holds
    simp [packLoop, packedSize]
  | succ argc ih =>
    cases argv with
    | nil => cases holds
    | cons s argv =>
      obtain ⟨first, read, others, rest, rfl⟩ := strings_cons.mp holds
      rw [packedSize_cons] at room ⊢
      rw [List.flatten_cons, List.length_append] at fits ⊢
      have left : packedSize others ≤ (after.drop (first.length + 1)).length := by
        rw [List.length_drop]
        omega
      have next := @ih argv others (before ++ (first ++ [0])) (after.drop (first.length + 1))
        (argl + first.length) rest left (by omega)
      rw [packLoop, copyString_eq read (by omega) (by omega), Option.bind_some, next]
      simp [Nat.add_assoc]

theorem packLoop_full (holds : strings argc argv = some vector)
    (full : after.length < packedSize vector) (fits : argl + vector.flatten.length < 2 ^ 31) :
    packLoop { args := before ++ after, pos := before.length, argl := argl } argc argv = none := by
  induction argc generalizing argv vector before after argl with
  | zero =>
    cases holds
    cases full
  | succ argc ih =>
    cases argv with
    | nil => rfl
    | cons s argv =>
      obtain ⟨first, read, others, rest, rfl⟩ := strings_cons.mp holds
      rw [packedSize_cons] at full
      rw [List.flatten_cons, List.length_append] at fits
      rw [packLoop]
      by_cases room : first.length < after.length
      · have left : (after.drop (first.length + 1)).length < packedSize others := by
          rw [List.length_drop]
          omega
        rw [copyString_eq read room (by omega), Option.bind_some]
        exact ih rest left (by omega)
      · rw [copyString_full read (by omega), Option.bind_none]

theorem argvlen_eq (holds : strings argc argv = some vector) (fits : packedSize vector < 2 ^ 64) :
    argvlen argc argv = some (packedSize vector) := by
  have all := argvlenLoop_eq holds (l := 0) (by omega)
  rwa [Nat.zero_add] at all

/-- `argvpack` needs as many bytes as the strings with their zeros have, fills
them with those and leaves the rest alone. -/
theorem argvpack_eq (holds : strings argc argv = some vector) (fits : packedSize vector < 2 ^ 31)
    (args : List Byte) :
    argvpack args argc argv =
      if packedSize vector ≤ args.length then
        some (terminated 0 vector ++ args.drop (packedSize vector), packedSize vector)
      else none := by
  have sizes := packedSize_eq vector
  obtain ⟨count, -⟩ := strings_sound holds
  rw [argvpack]
  split
  next room =>
    have packs := @packLoop_eq argc argv vector [] args 0 holds room (by omega)
    rw [List.nil_append, List.nil_append, Nat.zero_add] at packs
    rw [List.length_nil] at packs
    rw [packs, Option.map_some, ← count, ← sizes, Nat.mod_eq_of_lt (by omega)]
  next full =>
    have fails := @packLoop_full argc argv vector [] args 0 holds (by omega) (by omega)
    rw [List.nil_append, List.length_nil] at fails
    rw [fails, Option.map_none]

/-! ### Unpacking -/

theorem countLoop_eq {left n : Nat} {args : Chars} (given : left ≤ args.length) :
    countLoop left n args = some (n + (args.take left).count 0) := by
  induction left generalizing n args with
  | zero => simp [countLoop]
  | succ left ih =>
    cases args with
    | nil => cases given
    | cons byte rest =>
      rw [countLoop, ih (Nat.le_of_succ_le_succ given), List.take_succ_cons]
      split
      next zero => rw [zero, List.count_cons_self, Nat.add_assoc, Nat.add_comm 1]
      next different => rw [List.count_cons_of_ne different]

/-- `argscount` of all the bytes at `args`. -/
theorem argscount_all (args : Chars) : argscount args.length args = some (args.count 0) := by
  have all := @countLoop_eq args.length 0 args (le_refl _)
  rwa [Nat.zero_add, List.take_length] at all

/-- With a zero for each string the loop stays inside the buffer. -/
theorem unpackLoop_inside {a : Chars} (enough : argc ≤ a.count 0) :
    ∃ argv last, unpackLoop argc a = some (argv, last) ∧ argv.length = argc := by
  induction argc generalizing a with
  | zero => exact ⟨[], a, rfl, rfl⟩
  | succ argc ih =>
    obtain ⟨next, past, count⟩ := exists_pastFirst (Nat.lt_of_lt_of_le (Nat.succ_pos argc) enough)
    obtain ⟨argv, last, unpacks, length⟩ := @ih next (by omega)
    refine ⟨a :: argv, last, ?_, congrArg (· + 1) length⟩
    rw [unpackLoop, skip_eq, past, Option.bind_some, unpacks]
    rfl

/-- The pointers found point to the strings in the buffer. -/
theorem unpackLoop_strings {a last : Chars} (unpacks : unpackLoop argc a = some (argv, last)) :
    strings argc argv = splitAtEach 0 argc a := by
  induction argc generalizing a argv with
  | zero => rfl
  | succ argc ih =>
    obtain ⟨next, past, rest⟩ := Option.bind_eq_some_iff.mp unpacks
    obtain ⟨⟨others, stop⟩, inner, same⟩ := Option.map_eq_some_iff.mp rest
    cases same
    rw [skip_eq] at past
    simp only [strings, splitAtEach, past, Option.bind_some, ih inner]

/-- What is unpacked are consecutive strings, each pointer at the start of its
own, and the last position is past the zero of the last. -/
theorem unpackLoop_split {a last : Chars} (unpacks : unpackLoop argc a = some (argv, last)) :
    ∃ vector, strings argc argv = some vector ∧ a = terminated 0 vector ++ last ∧
      argv = (List.range argc).map fun i => a.drop (packedSize (vector.take i)) := by
  induction argc generalizing a argv with
  | zero =>
    cases unpacks
    exact ⟨[], rfl, rfl, rfl⟩
  | succ argc ih =>
    obtain ⟨next, past, rest⟩ := Option.bind_eq_some_iff.mp unpacks
    obtain ⟨⟨others, stop⟩, inner, same⟩ := Option.map_eq_some_iff.mp rest
    cases same
    obtain ⟨vector, read, split, pointers⟩ := ih inner
    rw [skip_eq] at past
    obtain ⟨first, free, whole⟩ := pastFirst_eq_some.mp past
    refine ⟨first :: vector, ?_, ?_, ?_⟩
    · exact strings_cons.mpr ⟨first, whole ▸ upTo_append free next, vector, read, rfl⟩
    · rw [whole, split, terminated_cons, List.append_assoc, List.cons_append]
    · rw [List.range_succ_eq_map, List.map_cons, List.map_map, pointers]
      congr 1
      apply List.map_congr_left
      intro i _
      have start : a.drop (first.length + 1) = next := by
        rw [whole, List.append_cons, ← List.length_singleton (a := (0 : Byte)),
          ← List.length_append, List.drop_left]
      simp only [Function.comp_apply, List.take_succ_cons, packedSize_cons]
      rw [← List.drop_drop, start]

/-- **Unpacking is safe and faithful on arbitrary buffers.** As many strings as a
buffer has zeros, or fewer, are unpacked without a read outside. They stand one
after another at the front of the buffer, and packed again they are that part of
it. -/
theorem unpacks_any {args : Chars} (int : args.length < 2 ^ 31) :
    ∃ count, argscount args.length args = some count ∧ ∀ argc ≤ count, ∃ argv last vector,
      argvunpack argc args.length args = some (argv, last) ∧
      strings argc argv = some vector ∧
      argv = (List.range argc).map (fun i => args.drop (packedSize (vector.take i))) ∧
      last = args.drop (packedSize vector) ∧
      (args.take (packedSize vector)).count 0 = argc ∧
      (0 < argc → (args.take (packedSize vector)).getLast? = some 0) ∧
      ∀ buffer : List Byte, packedSize vector ≤ buffer.length →
        argvpack buffer argc argv =
          some (args.take (packedSize vector) ++ buffer.drop (packedSize vector),
            packedSize vector) := by
  refine ⟨args.count 0, argscount_all args, fun argc enough => ?_⟩
  have fewer : args.count 0 ≤ args.length := List.count_le_length
  obtain ⟨argv, last, unpacks, -⟩ := unpackLoop_inside enough
  obtain ⟨vector, read, split, pointers⟩ := unpackLoop_split unpacks
  obtain ⟨count, free⟩ := strings_sound read
  have front : args.take (packedSize vector) = terminated 0 vector := by
    rw [split, ← length_packed, List.take_left]
  have inside : packedSize vector ≤ args.length := by
    rw [← length_packed, split, List.length_append]
    omega
  refine ⟨argv, last, vector, (if_pos (by omega)).trans unpacks, read, pointers, ?_, ?_, ?_, ?_⟩
  · rw [split, ← length_packed, List.drop_left]
  · rw [front, count_terminated free, count]
  · intro some_left
    rw [front]
    exact getLast?_terminated (List.ne_nil_of_length_pos (count ▸ some_left))
  · intro buffer room
    rw [argvpack_eq read (by omega), if_pos room, front]

/-- Two strings from a buffer with two zeros in a row and an unterminated tail. -/
theorem unpacks_any_tail : ∃ argv last,
    argvunpack 2 5 [97, 0, 0, 98, 99] = some (argv, last) ∧ strings 2 argv = some [[97], []] ∧
      last = [98, 99] := by
  obtain ⟨count, counted, unpacks⟩ := @unpacks_any [97, 0, 0, 98, 99] (by decide)
  obtain rfl : 2 = count := Option.some.inj counted
  obtain ⟨argv, last, vector, done, read, pointers, rest, -⟩ := unpacks 2 (le_refl 2)
  cases done
  exact ⟨_, _, rfl, rfl, rfl⟩

end
end TinyOs.ArgVector
