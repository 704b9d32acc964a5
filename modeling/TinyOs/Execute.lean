import TinyOs.ArgVector
import TinyOs.KernelBoot
import TinyOs.ProcessArguments

/-! `Execute` of `tinyoslib.c`: a program with its argument vector is packed,
copied by `Exec`, and unpacked by `exec_wrapper` in the new process. The automatic
arrays `args[argl]` of `Execute` and `argv[argc]` of `exec_wrapper` are taken to fit
the stack of a thread, which has 128 KiB. -/
namespace TinyOs.Execute
open Function Library ArgVector

/-- `sizeof(prog)`. -/
def sizeofProgram : Nat := 8

/-- A `Program`, a pointer to a function, as it is in memory. -/
def programBytes (prog : BitVec 64) : List Byte :=
  (List.range sizeofProgram).map fun i => prog.extractLsb' (8 * i) 8

/-- `memcpy(&prog, args, sizeof(prog))`. -/
def readProgram : Chars → Option (BitVec 64)
  | b₀ :: b₁ :: b₂ :: b₃ :: b₄ :: b₅ :: b₆ :: b₇ :: _ =>
    some (b₇ ++ b₆ ++ b₅ ++ b₄ ++ b₃ ++ b₂ ++ b₁ ++ b₀)
  | _ => none

/-- The arguments `argl` and `args` of `Exec` that `Execute` passes, `args` with
what it points to. Before it is written, the buffer holds what is on the
`stack`. -/
def execute (stack : Nat → Byte) (prog : BitVec 64) (argc : Nat) (argv : List Chars) :
    Option (Int × List Byte) :=
  (argvlen argc argv).bind fun length =>
    let argl := (length + sizeofProgram) % 2 ^ 64
    let args := (List.range argl).map stack
    if args.length < sizeofProgram then none
    else
      (argvpack (args.drop sizeofProgram) argc argv).map fun (packed, _) =>
        -- `argl` becomes an `int`.
        ((BitVec.ofNat 32 argl).toInt, programBytes prog ++ packed)

/-- A call of a program with an argument vector. -/
structure ProgramCall where
  prog : BitVec 64
  argc : Nat
  argv : List Chars
  deriving DecidableEq, Repr

/-- `exec_wrapper`, up to the call it makes. -/
def execWrapper (argl : Int) (args : Chars) : Option ProgramCall :=
  (readProgram args).bind fun prog =>
    let argl := argl - sizeofProgram
    let args := args.drop sizeofProgram
    (argscount argl args).bind fun argc =>
      (argvunpack argc argl args).map fun (argv, _) => { prog := prog, argc := argc, argv := argv }

/-- What `start_main_thread` calls in a process. -/
def startMainThread (s : Kernel.State) (curproc : Kernel.Pid) :
    Kernel.Task × Int × Option (List Byte) :=
  (s.pt.mainTask curproc, s.pt.argl curproc, s.pt.args curproc)

/-- The call of a program it comes to, if its task is `exec_wrapper`, at this
address. -/
def programCall (wrapper : Kernel.Task) (s : Kernel.State) (curproc : Kernel.Pid) :
    Option ProgramCall :=
  let (call, argl, args) := startMainThread s curproc
  if call = wrapper then args.bind fun args => execWrapper argl args else none

section
variable {prog : BitVec 64} {argc : Nat} {argv : List Chars} {vector : List (List Byte)}

theorem length_programBytes : (programBytes prog).length = sizeofProgram := by
  simp [programBytes]

theorem readProgram_programBytes (rest : List Byte) :
    readProgram (programBytes prog ++ rest) = some prog := by
  change some _ = some prog
  refine congrArg some (BitVec.eq_of_getLsbD_eq fun i small => ?_)
  simp only [BitVec.getLsbD_append, BitVec.getLsbD_extractLsb']
  grind

/-- The buffer has the program pointer, then the strings, and no more. -/
theorem execute_eq (holds : strings argc argv = some vector)
    (fits : packedSize vector + sizeofProgram < 2 ^ 31) (stack : Nat → Byte) :
    execute stack prog argc argv =
      some (((packedSize vector + sizeofProgram : Nat) : Int),
        programBytes prog ++ terminated 0 vector) := by
  have whole : ((List.range (packedSize vector + sizeofProgram)).map stack).length =
      packedSize vector + sizeofProgram := by simp
  have room : (((List.range (packedSize vector + sizeofProgram)).map stack).drop
      sizeofProgram).length = packedSize vector := by
    rw [List.length_drop, whole, Nat.add_sub_cancel]
  have int : (BitVec.ofNat 32 (packedSize vector + sizeofProgram)).toInt =
      (packedSize vector + sizeofProgram : Nat) := by
    rw [BitVec.toInt_eq_toNat_of_lt (by rw [BitVec.toNat_ofNat]; omega), BitVec.toNat_ofNat,
      Nat.mod_eq_of_lt (by omega)]
  unfold execute
  rw [argvlen_eq holds (by omega), Option.bind_some]
  dsimp only
  rw [Nat.mod_eq_of_lt (by omega), if_neg (by omega), argvpack_eq holds (by omega), room,
    if_pos (le_refl _), Option.map_some, List.drop_of_length_le room.le, List.append_nil, int]

/-- What `exec_wrapper` finds in the buffer is what was packed. -/
theorem execWrapper_eq (free : ∀ s ∈ vector, (0 : Byte) ∉ s) (fits : packedSize vector < 2 ^ 31) :
    ∃ argv, execWrapper (packedSize vector + sizeofProgram : Nat)
        (programBytes prog ++ terminated 0 vector) =
          some { prog := prog, argc := vector.length, argv := argv } ∧
      strings vector.length argv = some vector := by
  have count := count_terminated free
  have fewer : vector.length ≤ packedSize vector := by
    have sizes := packedSize_eq vector
    omega
  obtain ⟨argv, last, unpacks, -⟩ := unpackLoop_inside count.ge
  have back := unpackLoop_strings unpacks
  have read := splitAtEach_terminated free []
  rw [List.append_nil] at read
  refine ⟨argv, ?_, back.trans read⟩
  have argl : ((packedSize vector + sizeofProgram : Nat) : Int) - sizeofProgram =
      (terminated (0 : Byte) vector).length := by
    rw [length_packed]
    omega
  have past : (programBytes prog ++ terminated 0 vector).drop sizeofProgram =
      terminated 0 vector := by
    rw [← @length_programBytes prog, List.drop_left]
  rw [execWrapper, readProgram_programBytes, Option.bind_some]
  dsimp only
  rw [past, argl, argscount_all, count, Option.bind_some, argvunpack, if_pos (by omega), unpacks]
  rfl

end

/-! ### The new process -/

section
variable {s t u : Kernel.State} {thread tcb : Kernel.TcbRef} {call : Kernel.Task} {argl : Int}
  {args : Kernel.Pointer} {bytes : List Byte} {ptcb : Kernel.PtcbRef} {newproc : Kernel.Pid}

/-- The process whose number `Exec` returns has a main thread, and for that the
task and the copied arguments. -/
theorem exec_started (moved : Kernel.step s (.exec thread call argl args bytes ptcb tcb) = some t)
    (task : call ≠ 0) (given : args ≠ 0)
    (returned : t.threads.returned thread = (newproc : Int)) :
    tcb ∈ t.threads.live ∧ t.curproc tcb = newproc ∧
      startMainThread t newproc = (call, argl, some bytes) := by
  have moved := Kernel.act_of_step moved
  simp only [Kernel.act, Option.ite_none_right_eq_some, Option.some.injEq] at moved
  obtain ⟨-, rfl⟩ := moved
  have result : (s.exec (s.curproc thread) call argl args bytes ptcb tcb).1 = newproc :=
    (update_self ..).symm.trans returned
  cases first : s.pt.pcbFreelist with
  | none =>
    rw [Kernel.State.exec_full first] at result
    cases result
  | some pid =>
    have same : newproc = pid := by
      rw [Kernel.State.exec, Kernel.State.acquirePcb, first] at result
      exact (Int.ofNat.inj result).symm
    subst same
    have base := Kernel.State.argumentBase_exec first (s.curproc thread) call argl args bytes ptcb tcb
    simp only [Kernel.State.argumentBase, Prod.mk.injEq] at base
    obtain ⟨mainTask, length, copy, -⟩ := base
    refine ⟨?_, ?_, ?_⟩
    · change tcb ∈ (s.exec (s.curproc thread) call argl args bytes ptcb tcb).2.threads.live
      unfold Kernel.State.exec Kernel.State.acquirePcb
      simp only [first]
      rw [if_pos task]
      exact List.mem_cons_self
    · change (s.exec (s.curproc thread) call argl args bytes ptcb tcb).2.threads.owner tcb = newproc
      unfold Kernel.State.exec Kernel.State.acquirePcb
      simp only [first]
      rw [if_pos task]
      exact update_self ..
    · change ((s.exec (s.curproc thread) call argl args bytes ptcb tcb).2.pt.mainTask newproc,
        (s.exec (s.curproc thread) call argl args bytes ptcb tcb).2.pt.argl newproc,
        (s.exec (s.curproc thread) call argl args bytes ptcb tcb).2.pt.args newproc) = _
      rw [congrFun mainTask newproc, congrFun length newproc, congrFun copy newproc, update_self,
        update_self, update_self, if_pos given]

/-- As long as the process lives, its main thread finds the task and the
arguments that it was started with. -/
theorem startMainThread_kept {labels : List Kernel.Label}
    (ran : labels.foldlM Kernel.step t = some u)
    (same : u.history.incarnation newproc = t.history.incarnation newproc)
    (alive : u.pt.pstate newproc = .alive) : startMainThread u newproc = startMainThread t newproc := by
  have keeps : Kernel.State.Keeps newproc t u := Kernel.run_keeps ran
  obtain ⟨-, mainTask, argl, args⟩ := keeps.kept same alive
  rw [startMainThread, mainTask, argl, args, startMainThread]

end

/-- **`Execute` passes argument vectors faithfully.** For strings whose size with
their zeros is an `int`, `argvpack` writes what `argvlen` says. If it still is
one with the program pointer, the process that `Execute` starts calls, whenever
its main thread runs, the same program with the same strings. And no buffer is
read outside when it is counted, or unpacked into as many strings as that. -/
theorem execute_faithful {argc : Nat} {argv : List Chars} {vector : List (List Byte)}
    (holds : strings argc argv = some vector) (fits : packedSize vector < 2 ^ 31) :
    argvlen argc argv = some (packedSize vector) ∧
    (∀ args, argvpack args argc argv =
      if packedSize vector ≤ args.length then
        some (terminated 0 vector ++ args.drop (packedSize vector), packedSize vector)
      else none) ∧
    (packedSize vector + sizeofProgram < 2 ^ 31 → ∀ (prog : BitVec 64) (stack : Nat → Byte),
      ∃ argl bytes, execute stack prog argc argv = some (argl, bytes) ∧ (bytes.length : Int) = argl ∧
        ∀ (s t : Kernel.State) (thread tcb : Kernel.TcbRef) (wrapper : Kernel.Task)
          (args : Kernel.Pointer) (ptcb : Kernel.PtcbRef) (newproc : Kernel.Pid),
          wrapper ≠ 0 → args ≠ 0 →
          Kernel.step s (.exec thread wrapper argl args bytes ptcb tcb) = some t →
          t.threads.returned thread = (newproc : Int) →
          tcb ∈ t.threads.live ∧ t.curproc tcb = newproc ∧
          ∀ (labels : List Kernel.Label) (u : Kernel.State),
            labels.foldlM Kernel.step t = some u →
            u.history.incarnation newproc = t.history.incarnation newproc →
            u.pt.pstate newproc = .alive →
            ∃ call, programCall wrapper u newproc = some call ∧ call.prog = prog ∧
              call.argc = argc ∧ strings argc call.argv = some vector) ∧
    ∀ args : Chars, args.length < 2 ^ 31 → ∃ count, argscount args.length args = some count ∧
      ∀ n ≤ count, ∃ unpacked, argvunpack n args.length args = some unpacked := by
  obtain ⟨count, free⟩ := strings_sound holds
  refine ⟨argvlen_eq holds (by omega), argvpack_eq holds fits, fun larger prog stack => ?_,
    fun args small => ?_⟩
  · refine ⟨_, _, execute_eq holds larger stack, ?_, ?_⟩
    · rw [List.length_append, length_programBytes, length_packed, Nat.add_comm]
    · intro s t thread tcb wrapper args ptcb newproc task given moved returned
      obtain ⟨live, owner, started⟩ := exec_started moved task given returned
      refine ⟨live, owner, fun labels u ran same alive => ?_⟩
      obtain ⟨unpacked, calls, read⟩ := @execWrapper_eq prog vector free fits
      refine ⟨{ prog := prog, argc := vector.length, argv := unpacked }, ?_, rfl, count,
        count ▸ read⟩
      rw [programCall, startMainThread_kept ran same alive, started]
      exact (if_pos rfl).trans calls
  · refine ⟨args.count 0, argscount_all args, fun n enough => ?_⟩
    obtain ⟨argv, last, unpacks, -⟩ := unpackLoop_inside enough
    have fewer : args.count 0 ≤ args.length := List.count_le_length
    exact ⟨_, (if_pos (by omega)).trans unpacks⟩

/-- `Execute(4096, 2, ["ab", ""])` in the boot task; the new process runs after
the boot task has opened a stream. -/
theorem execute_faithful_two : ∃ argl bytes t u call,
    execute (fun _ => 0xaa) 4096 2 [[97, 98, 0, 99], [0]] = some (argl, bytes) ∧
    Kernel.step Kernel.booted (.exec 0 7 argl 9 bytes 2 1) = some t ∧
    [Kernel.Label.openNull 0].foldlM Kernel.step t = some u ∧
    programCall 7 u 2 = some call ∧ call.prog = 4096 ∧ call.argc = 2 ∧
    strings 2 call.argv = some [[97, 98], []] := by
  have holds : strings 2 [[97, 98, 0, 99], [0]] = some [[97, 98], []] := rfl
  obtain ⟨-, -, started, -⟩ := execute_faithful holds (by decide)
  obtain ⟨argl, bytes, made, -, runs⟩ := started (by decide) 4096 fun _ => 0xaa
  obtain ⟨-, -, runs⟩ := runs Kernel.booted _ 0 1 7 9 2 2 (by decide) (by decide) rfl rfl
  obtain ⟨call, calls, prog, argc, read⟩ := runs [.openNull 0] _ rfl rfl rfl
  exact ⟨argl, bytes, _, _, call, made, rfl, rfl, calls, prog, argc, read⟩

end TinyOs.Execute
