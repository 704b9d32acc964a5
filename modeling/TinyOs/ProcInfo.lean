import TinyOs.Execute

/-! `ParseProcInfo` of `tinyoslib.c`, which decodes the arguments of a process
that was started by `Execute`. -/
namespace TinyOs.Execute
open Library ArgVector

/-- `PROCINFO_MAX_ARGS_SIZE`. -/
def maxArgsSize : Nat := 128

/-- The fields of a `procinfo` that are used here. -/
structure ProcInfo where
  mainTask : Kernel.Task
  argl : Int
  /-- The first bytes of the arguments. -/
  args : Chars
  deriving DecidableEq, Repr

/-- The result of `ParseProcInfo`, with what `prog` and `argv` point to. -/
structure Parsed where
  result : Int
  prog : Option (BitVec 64)
  argv : Option (List Chars)
  deriving DecidableEq, Repr

/-- `ParseProcInfo`, where `none` for `prog` or `argv` is `NULL`, and otherwise
there is what they point to. -/
def parseProcInfo (wrapper : Kernel.Task) (pinfo : ProcInfo) (prog : Option (BitVec 64))
    (argc : Int) (argv : Option (List Chars)) : Option Parsed :=
  if pinfo.mainTask ≠ wrapper then some { result := -1, prog := prog, argv := argv }
  else if (maxArgsSize : Int) < pinfo.argl then some { result := -1, prog := prog, argv := argv }
  else
    -- `memcpy(&prog, args, ..)` overwrites the parameter `prog`, not what it points to.
    (if prog.isSome then readProgram pinfo.args else some 0).bind fun _prog =>
      let argl := pinfo.argl - sizeofProgram
      let args := pinfo.args.drop sizeofProgram
      (argscount argl args).bind fun n =>
        match argv with
        | none => some { result := n, prog := prog, argv := none }
        | some old =>
          -- The comparison is one of `size_t`.
          let argc := if (n : Int) < argc % 2 ^ 64 then n else argc.toNat
          (argvunpack argc argl args).bind fun (new, _) =>
            if old.length < argc then none
            else some { result := n, prog := prog, argv := some (new ++ old.drop argc) }

/-- What is to be found out of a process that `Execute` started. -/
structure Recovers (program : BitVec 64) (vector : List (List Byte)) (prog : Option (BitVec 64))
    (argc : Int) (argv : Option (List Chars)) (parsed : Parsed) : Prop where
  result : parsed.result = vector.length
  prog : parsed.prog = prog.map fun _ => program
  null : argv = none → parsed.argv = none
  argv : ∀ old, argv = some old → ∃ new, parsed.argv = some new ∧ new.length = old.length ∧
    strings (min argc.toNat vector.length) new = some (vector.take argc.toNat) ∧
    new.drop (min argc.toNat vector.length) = old.drop (min argc.toNat vector.length)

section
variable {vector : List (List Byte)} {argv : List Chars} {argc : Nat}

/-- Of a vector only the first strings are looked at. -/
theorem strings_append (read : strings argc argv = some vector) (more : List Chars) :
    strings argc (argv ++ more) = some vector := by
  induction argc generalizing argv vector with
  | zero => exact read
  | succ argc ih =>
    cases argv with
    | nil => cases read
    | cons s argv =>
      obtain ⟨first, here, others, rest, rfl⟩ := strings_cons.mp read
      exact strings_cons.mpr ⟨first, here, others, ih rest, rfl⟩

/-- The first strings of a packed vector are unpacked from a longer buffer. -/
theorem unpackLoop_packed (free : ∀ s ∈ vector, (0 : Byte) ∉ s) (tail : List Byte)
    (fewer : argc ≤ vector.length) :
    ∃ argv last, unpackLoop argc (terminated 0 vector ++ tail) = some (argv, last) ∧
      argv.length = argc ∧ strings argc argv = some (vector.take argc) := by
  have enough : argc ≤ (terminated 0 vector ++ tail).count 0 := by
    rw [List.count_append, count_terminated free]
    omega
  obtain ⟨argv, last, unpacks, length⟩ := unpackLoop_inside enough
  refine ⟨argv, last, unpacks, length, (unpackLoop_strings unpacks).trans ?_⟩
  have split : terminated 0 vector ++ tail =
      terminated 0 (vector.take argc) ++ (terminated 0 (vector.drop argc) ++ tail) := by
    rw [← List.append_assoc]
    simp only [terminated, ← List.flatMap_append, List.take_append_drop]
  have free_taken : ∀ s ∈ vector.take argc, (0 : Byte) ∉ s := fun s member =>
    free s (List.mem_of_mem_take member)
  have read := splitAtEach_terminated free_taken (terminated 0 (vector.drop argc) ++ tail)
  rwa [List.length_take_of_le fewer, ← split] at read

end

/-- The arguments as a `procinfo` shows them: as long as they fit, they are
followed by whatever is in the rest of the array. -/
def procInfoOf (wrapper : Kernel.Task) (argl : Int) (bytes rest : List Byte) : ProcInfo :=
  { mainTask := wrapper, argl := argl, args := bytes ++ rest }

/-- `ParseProcInfo` gets all but the program pointer. -/
theorem parseProcInfo_eq {program : BitVec 64} {vector : List (List Byte)}
    (free : ∀ s ∈ vector, (0 : Byte) ∉ s) (small : packedSize vector + sizeofProgram ≤ maxArgsSize)
    (wrapper : Kernel.Task) (rest : List Byte) (prog : Option (BitVec 64)) {argc : Int}
    (given : 0 ≤ argc) (int : argc < 2 ^ 31) (argv : Option (List Chars))
    (room : ∀ old, argv = some old → argc.toNat ≤ old.length) :
    ∃ new, parseProcInfo wrapper (procInfoOf wrapper ((packedSize vector + sizeofProgram : Nat) : Int)
        (programBytes program ++ terminated 0 vector) rest) prog argc argv =
          some { result := vector.length, prog := prog, argv := new } ∧
      (argv = none → new = none) ∧
      ∀ old, argv = some old → ∃ first, new = some (first ++ old.drop (min argc.toNat vector.length)) ∧
        first.length = min argc.toNat vector.length ∧
        strings (min argc.toNat vector.length) first = some (vector.take argc.toNat) := by
  have count := count_terminated free
  have past : (programBytes program ++ terminated 0 vector ++ rest).drop sizeofProgram =
      terminated 0 vector ++ rest := by
    rw [List.append_assoc, ← @length_programBytes program, List.drop_left]
  have counted : argscount (((packedSize vector + sizeofProgram : Nat) : Int) - sizeofProgram)
      (terminated 0 vector ++ rest) = some vector.length := by
    have argl : (((packedSize vector + sizeofProgram : Nat) : Int) - sizeofProgram).toNat =
        (terminated (0 : Byte) vector).length := by
      rw [length_packed]
      omega
    rw [argscount, argl, countLoop_eq (by simp), List.take_left, count, Nat.zero_add]
  have read : (if prog.isSome then readProgram (programBytes program ++ terminated 0 vector ++ rest)
      else some 0) ≠ none := by
    rw [List.append_assoc, readProgram_programBytes]
    split <;> simp
  obtain ⟨parameter, read⟩ := Option.ne_none_iff_exists'.mp read
  have length : ¬ (maxArgsSize : Int) < ((packedSize vector + sizeofProgram : Nat) : Int) := by
    omega
  unfold parseProcInfo procInfoOf
  rw [if_neg (not_not.mpr rfl), if_neg length, read, Option.bind_some]
  dsimp only
  rw [past, counted, Option.bind_some]
  cases argv with
  | none => exact ⟨none, rfl, fun _ => rfl, by simp⟩
  | some old =>
    have enough := room old rfl
    have limit : (if (vector.length : Int) < argc % 2 ^ 64 then vector.length else argc.toNat) =
        min argc.toNat vector.length := by
      split <;> omega
    have unsigned : min argc.toNat vector.length < 2 ^ 31 := by omega
    obtain ⟨first, last, unpacks, width, strings⟩ :=
      @unpackLoop_packed vector (min argc.toNat vector.length) free rest (Nat.min_le_right ..)
    dsimp only
    rw [limit, argvunpack, if_pos unsigned, unpacks, Option.bind_some]
    dsimp only
    rw [if_neg (by omega)]
    refine ⟨_, rfl, by simp, fun array same => ?_⟩
    cases same
    refine ⟨first, rfl, width, strings.trans ?_⟩
    rw [← List.take_eq_take_min]

/-- **`ParseProcInfo` recovers what `Execute` packed** if and only if it is not
asked for the program, or `prog` points to that program already: `memcpy(&prog,
..)` overwrites the parameter. The number of the arguments, and as many of them
as there is room for, are always recovered. -/
theorem recovers_iff {n : Nat} {strs : List Chars} {vector : List (List Byte)}
    (holds : strings n strs = some vector)
    (small : packedSize vector + sizeofProgram ≤ maxArgsSize) (program : BitVec 64)
    (stack : Nat → Byte) (wrapper : Kernel.Task) :
    ∃ argl bytes, execute stack program n strs = some (argl, bytes) ∧
      ∀ (rest : List Byte) (prog : Option (BitVec 64)) (argc : Int) (argv : Option (List Chars)),
        0 ≤ argc → argc < 2 ^ 31 → (∀ old, argv = some old → argc.toNat ≤ old.length) →
        ((∃ parsed, parseProcInfo wrapper (procInfoOf wrapper argl bytes rest) prog argc argv =
            some parsed ∧ Recovers program vector prog argc argv parsed) ↔
          prog = none ∨ prog = some program) := by
  obtain ⟨-, free⟩ := strings_sound holds
  have fits : packedSize vector + sizeofProgram < 2 ^ 31 := by
    unfold maxArgsSize at small
    omega
  refine ⟨_, _, execute_eq holds fits stack, fun rest prog argc argv given int room => ?_⟩
  obtain ⟨new, parses, null, filled⟩ :=
    @parseProcInfo_eq program vector free small wrapper rest prog argc given int argv room
  rw [parses]
  constructor
  · rintro ⟨parsed, same, recovers⟩
    cases same
    have stored : prog = prog.map fun _ => program := recovers.prog
    cases prog with
    | none => exact Or.inl rfl
    | some old => exact Or.inr stored
  · intro already
    refine ⟨_, rfl, rfl, ?_, null, fun old same => ?_⟩
    · rcases already with rfl | rfl <;> rfl
    · obtain ⟨first, rfl, width, read⟩ := filled old same
      have enough := room old same
      refine ⟨_, rfl, ?_, strings_append read _, ?_⟩
      · rw [List.length_append, List.length_drop]
        omega
      · rw [← width, List.drop_left]

/-- `ParseProcInfo(pinfo, NULL, 1, argv)` for a program with two arguments. -/
theorem recovers_iff_null : ∃ argl bytes,
    execute (fun _ => 0xaa) 4096 2 [[97, 98, 0], [99, 0]] = some (argl, bytes) ∧
    ∃ parsed, parseProcInfo 7 (procInfoOf 7 argl bytes [0xff]) none 1 (some [[1], [2]]) =
      some parsed ∧ Recovers 4096 [[97, 98], [99]] none 1 (some [[1], [2]]) parsed := by
  have holds : strings 2 [[97, 98, 0], [99, 0]] = some [[97, 98], [99]] := rfl
  obtain ⟨argl, bytes, made, recovers⟩ := recovers_iff holds (by decide) 4096 (fun _ => 0xaa) 7
  refine ⟨argl, bytes, made, (recovers [0xff] none 1 (some [[1], [2]]) (by decide) (by decide)
    ?_).mpr (Or.inl rfl)⟩
  rintro old same
  cases same
  decide

/-- A program that was started without arguments: `*prog` is left as it was. -/
theorem program_not_stored :
    execute (fun _ => 0xaa) 4096 0 [] = some (8, programBytes 4096) ∧
    parseProcInfo 7 (procInfoOf 7 8 (programBytes 4096) []) (some 0) 0 none =
      some { result := 0, prog := some 0, argv := none } ∧
    ¬ Recovers 4096 [] (some 0) 0 none { result := 0, prog := some 0, argv := none } := by
  refine ⟨rfl, rfl, fun recovers => ?_⟩
  have stored : some (0 : BitVec 64) = some 4096 := recovers.prog
  exact absurd stored (by decide)

end TinyOs.Execute
