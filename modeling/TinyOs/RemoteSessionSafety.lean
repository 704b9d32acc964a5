import TinyOs.RemoteSession

/-! Sessions of the remote shell: which requests reach `Execute` as they were sent.
The server only serves requests of at most 2048 bytes and stops at longer ones. -/
namespace TinyOs.RemoteSession
open Function Library ArgVector
open Kernel (maxFileid noproc)

/-! ### Messages -/

section
variable (sock : Source Byte) (len : Nat) (buf : List Byte)

/-- However the stream is cut, the loop ends with all it has, up to `len` bytes. -/
theorem recvLoop_eq (room : buf.length ≤ len) :
    (recvLoop sock len buf).1 = buf ++ sock.left.take (len - buf.length) ∧
      (recvLoop sock len buf).2.left = sock.left.drop (len - buf.length) := by
  induction sock, buf using recvLoop.induct len with
  | case1 sock buf short piece ended =>
    have parts : piece.1 ++ piece.2.left = sock.left := sock.read_append _
    have nothing : sock.left = [] := (Source.read_nil (by omega)).mp ended
    rw [ended, List.nil_append, nothing] at parts
    rw [recvLoop, if_pos short]
    simp only [piece] at ended parts
    simp [ended, parts, nothing]
  | case2 sock buf short piece more ih =>
    have parts : piece.1 ++ piece.2.left = sock.left := sock.read_append _
    have length : piece.1.length ≤ len - buf.length := sock.length_read _
    have sizes : (buf ++ piece.1).length = buf.length + piece.1.length := List.length_append
    obtain ⟨got, rest⟩ := ih (by omega)
    have size : len - (buf ++ piece.1).length = len - buf.length - piece.1.length := by omega
    have step : recvLoop sock len buf = recvLoop piece.2 len (buf ++ piece.1) := by
      rw [recvLoop, if_pos short]
      exact dif_neg more
    rw [step, got, rest, ← parts, List.take_append, List.drop_append,
      List.take_of_length_le length, List.drop_of_length_le length, size]
    exact ⟨List.append_assoc .., rfl⟩
  | case3 sock buf full =>
    have none_left : len - buf.length = 0 := by omega
    rw [recvLoop, if_neg full, none_left]
    simp

theorem recvMessage_eq :
    (recvMessage sock len).1 = (if len ≤ sock.left.length then some (sock.left.take len) else none) ∧
      (recvMessage sock len).2.left = sock.left.drop len := by
  obtain ⟨got, rest⟩ := recvLoop_eq sock len [] (Nat.zero_le _)
  rw [List.length_nil, Nat.sub_zero] at got rest
  rw [List.nil_append] at got
  refine ⟨?_, rest⟩
  unfold recvMessage
  dsimp only
  rw [got, List.length_take]
  split
  next whole => rw [if_pos (by omega)]
  next short => rw [if_neg (by omega)]

theorem recvMessage_whole {sock : Source Byte} {len : Nat} (whole : len ≤ sock.left.length) :
    ∃ rest : Source Byte, recvMessage sock len = (some (sock.left.take len), rest) ∧
      rest.left = sock.left.drop len := by
  obtain ⟨got, rest⟩ := recvMessage_eq sock len
  rw [if_pos whole] at got
  exact ⟨_, Prod.ext got rfl, rest⟩

theorem recvMessage_short {sock : Source Byte} {len : Nat} (short : sock.left.length < len) :
    ∃ rest, recvMessage sock len = (none, rest) := by
  obtain ⟨got, -⟩ := recvMessage_eq sock len
  rw [if_neg (by omega)] at got
  exact ⟨_, Prod.ext got rfl⟩

end

/-- However the message is cut, all of it is sent. -/
theorem sendMessage_sent (sock : Sink Byte) (buf : List Byte) :
    (sendMessage sock buf).sent = sock.sent ++ buf := by
  induction sock, buf using sendMessage.induct with
  | case1 sock => simp [sendMessage]
  | case2 sock buf left ih => rw [sendMessage, dif_neg left, ih, Sink.write_sent]

theorem length_intBytes (value : Int) : (intBytes value).length = sizeofInt := by
  simp [intBytes]

theorem readInt_intBytes {value : Int} (low : -0x80000000 ≤ value) (high : value ≤ 0x7fffffff)
    (rest : List Byte) : readInt (intBytes value ++ rest) = some value := by
  have whole : readInt (intBytes value ++ rest) = some (BitVec.ofInt 32 value).toInt := by
    change some _ = some _
    refine congrArg (fun b : BitVec 32 => some b.toInt) (BitVec.eq_of_getLsbD_eq fun i small => ?_)
    simp only [BitVec.getLsbD_append, BitVec.getLsbD_extractLsb']
    grind
  rw [whole, BitVec.toInt_ofInt]
  exact congrArg some (Int.bmod_eq_of_le (by omega) (by omega))

theorem readInt_some {data : List Byte} (enough : sizeofInt ≤ data.length) :
    ∃ value, readInt data = some value ∧ readInt (data.take sizeofInt) = some value := by
  unfold sizeofInt at *
  match data, enough with
  | b₀ :: b₁ :: b₂ :: b₃ :: rest, _ => exact ⟨_, rfl, rfl⟩

theorem nat_bytes_free (n : Nat) : (0 : Byte) ∉ bytes (toString n) := by
  rw [bytes, Nat.toString_eq_ofList_toDigits, String.toList_ofList]
  intro zero
  obtain ⟨c, member, same⟩ := List.mem_map.mp zero
  have digit := Nat.isDigit_of_mem_toDigits (by decide) (by decide) member
  obtain ⟨low, high⟩ : 48 ≤ c.val ∧ c.val ≤ 57 := by simpa [Char.isDigit] using digit
  have value : c.toNat % 256 = 0 := by simpa using congrArg BitVec.toNat same
  have low' : 48 ≤ c.toNat := UInt32.le_iff_toNat_le.mp low
  have high' : c.toNat ≤ 57 := UInt32.le_iff_toNat_le.mp high
  omega

theorem sockValue_eq {sock : Nat} (legal : sock < maxFileid) :
    sockValue sock = some (literal (toString sock)) := by
  have short : (Nat.toDigits 10 sock).length ≤ 2 := by
    rw [Nat.length_toDigits_le_iff (by decide) (by decide)]
    unfold maxFileid at legal
    omega
  unfold sockValue
  dsimp only
  rw [if_pos]
  rw [literal, List.length_append, bytes, List.length_map, Nat.toString_eq_ofList_toDigits,
    String.toList_ofList, List.length_singleton]
  omega

/-! ### The paths of `rsrv_client` -/

/-- The stream ends within the request. -/
def failed : List Action :=
  [.takeId, .logMessage "Client[%6zu]: started",
    .logMessage "Cliend[%6zu]: error in receiving request, aborting"] ++ finish

/-- The length is not one that the server expects. -/
def stopped : List Action := [.takeId, .logMessage "Client[%6zu]: started", .abort]

/-- These strings are executed. -/
def executed (sock : Nat) (pid : Int) (argc : Nat) (argv : List Chars) : List Action :=
  [.takeId, .logMessage "Client[%6zu]: started",
    .execute "rsrv_process" (argc + 2) (literal "rsrv_process" :: literal (toString sock) :: argv),
    .close sock, .waitChild pid, .logMessage "Client[%6zu]: finished with status %d"] ++ finish

/-- The bytes begin with a length from 1 to 2048 and as many bytes as it says. -/
def Complete (data : List Byte) : Prop :=
  ∃ argl, readInt data = some argl ∧ 0 < argl ∧ argl ≤ 2048 ∧ sizeofInt + argl ≤ data.length

section
variable (sock : Nat) (pid : Int) {argl : Int} (stream : Source Byte)

theorem rsrvClient_no_length (short : stream.left.length < sizeofInt) :
    ∃ rest, rsrvClient sock pid stream = some (failed, rest) := by
  obtain ⟨rest, header⟩ := recvMessage_short short
  refine ⟨rest, ?_⟩
  unfold rsrvClient
  rw [header]
  rfl

/-- The server with a length that is read. -/
theorem rsrvClient_length (read : readInt stream.left = some argl)
    (enough : sizeofInt ≤ stream.left.length) :
    ∃ rest : Source Byte, rest.left = stream.left.drop sizeofInt ∧
      recvMessage stream sizeofInt = (some (stream.left.take sizeofInt), rest) ∧
      readInt (stream.left.take sizeofInt) = some argl := by
  obtain ⟨rest, header, left⟩ := recvMessage_whole enough
  obtain ⟨value, whole, first⟩ := readInt_some enough
  cases read.symm.trans whole
  exact ⟨rest, left, header, first⟩

theorem rsrvClient_bad_length (read : readInt stream.left = some argl)
    (enough : sizeofInt ≤ stream.left.length) (bad : ¬ (0 < argl ∧ argl ≤ 2048)) :
    ∃ rest, rsrvClient sock pid stream = some (stopped, rest) := by
  obtain ⟨rest, -, header, length⟩ := rsrvClient_length stream read enough
  refine ⟨rest, ?_⟩
  unfold rsrvClient
  rw [header]
  dsimp only
  rw [length, Option.bind_some, if_neg bad]
  rfl

theorem rsrvClient_no_args (read : readInt stream.left = some argl)
    (enough : sizeofInt ≤ stream.left.length) (good : 0 < argl ∧ argl ≤ 2048)
    (short : stream.left.length < sizeofInt + argl) :
    ∃ rest, rsrvClient sock pid stream = some (failed, rest) := by
  obtain ⟨middle, left, header, length⟩ := rsrvClient_length stream read enough
  have less : middle.left.length < argl.toNat := by
    rw [left, List.length_drop]
    omega
  obtain ⟨rest, args⟩ := recvMessage_short less
  refine ⟨rest, ?_⟩
  unfold rsrvClient
  rw [header]
  dsimp only
  rw [length, Option.bind_some, if_pos good, args]
  rfl

theorem rsrvClient_complete (legal : sock < maxFileid) (read : readInt stream.left = some argl)
    (enough : sizeofInt ≤ stream.left.length) (good : 0 < argl ∧ argl ≤ 2048)
    {args : List Byte} {after : List Byte} (parts : stream.left.drop sizeofInt = args ++ after)
    (size : (args.length : Int) = argl) :
    ∃ argv last rest, argvunpack (args.count 0) argl args = some (argv, last) ∧
      rsrvClient sock pid stream = some (executed sock pid (args.count 0) argv, rest) ∧
      rest.left = after := by
  obtain ⟨middle, left, header, length⟩ := rsrvClient_length stream read enough
  subst size
  have whole : args.length ≤ middle.left.length := by
    rw [left, parts, List.length_append]
    omega
  obtain ⟨rest, message, remains⟩ := recvMessage_whole whole
  rw [left, parts, List.take_left] at message
  rw [left, parts, List.drop_left] at remains
  have fewer : args.count 0 ≤ args.length := List.count_le_length
  obtain ⟨argv, last, unpacks, -⟩ := unpackLoop_inside (le_refl (args.count 0))
  have unpacked : argvunpack (args.count 0) args.length args = some (argv, last) := by
    rw [argvunpack, if_pos (by omega), unpacks]
  refine ⟨argv, last, rest, unpacked, ?_, remains⟩
  unfold rsrvClient
  rw [header]
  dsimp only
  rw [length, Option.bind_some, if_pos good, Int.toNat_natCast, message]
  dsimp only
  rw [argscount_all, Option.bind_some, sockValue_eq legal, Option.bind_some, unpacked]
  rfl

/-- The session is one of these, whatever `Execute` gives: it gets there, or it ends or
stops before. -/
theorem rsrvClient_paths (legal : sock < maxFileid) :
    (¬ Complete stream.left ∧
      ((∀ pid, ∃ rest, rsrvClient sock pid stream = some (failed, rest)) ∨
        ∀ pid, ∃ rest, rsrvClient sock pid stream = some (stopped, rest))) ∨
    (Complete stream.left ∧ ∃ argc argv, ∀ pid, ∃ rest,
      rsrvClient sock pid stream = some (executed sock pid argc argv, rest)) := by
  by_cases enough : sizeofInt ≤ stream.left.length
  · obtain ⟨argl, read, -⟩ := readInt_some enough
    by_cases good : 0 < argl ∧ argl ≤ 2048
    · by_cases whole : sizeofInt + argl ≤ stream.left.length
      · have parts := (List.take_append_drop argl.toNat (stream.left.drop sizeofInt)).symm
        have size : (((stream.left.drop sizeofInt).take argl.toNat).length : Int) = argl := by
          rw [List.length_take, List.length_drop]
          omega
        refine .inr ⟨⟨argl, read, good.1, good.2, whole⟩, ?_⟩
        have runs := fun pid => rsrvClient_complete sock pid stream legal read enough good parts size
        obtain ⟨argv, last, -, unpacks, -, -⟩ := runs noproc
        refine ⟨((stream.left.drop sizeofInt).take argl.toNat).count 0, argv, fun pid => ?_⟩
        obtain ⟨argv', last', rest, unpacks', runs, -⟩ := runs pid
        cases unpacks.symm.trans unpacks'
        exact ⟨rest, runs⟩
      · refine .inl ⟨?_, .inl fun pid =>
          rsrvClient_no_args sock pid stream read enough good (by omega)⟩
        rintro ⟨argl', read', -, -, whole'⟩
        cases read.symm.trans read'
        exact whole whole'
    · refine .inl ⟨?_, .inr fun pid => rsrvClient_bad_length sock pid stream read enough good⟩
      rintro ⟨argl', read', positive, small, -⟩
      cases read.symm.trans read'
      exact good ⟨positive, small⟩
  · refine .inl ⟨?_, .inl fun pid => rsrvClient_no_length sock pid stream (by omega)⟩
    rintro ⟨argl, -, positive, -, whole⟩
    omega

end

/-! ### Requests -/

section
variable {argc : Nat} {argv : List Chars} {vector : List (List Byte)}

/-- The client sends the size of its packed arguments and the arguments. -/
theorem client_sends (stack : Nat → Byte) (some_arg : 2 ≤ argc) (holds : strings (argc - 1) argv.tail = some vector)
    (int : packedSize vector ≤ 0x7fffffff) (cut : Nat → Nat) :
    ∃ sent, remoteClient stack argc argv ⟨[], cut, 0⟩ = some (.ok sent) ∧
      sent.sent = intBytes (packedSize vector) ++ terminated 0 vector := by
  obtain ⟨count, -⟩ := strings_sound holds
  have sizes := packedSize_eq vector
  have argl : (BitVec.ofNat 32 (packedSize vector)).toInt = packedSize vector := by
    rw [BitVec.toInt_eq_toNat_of_lt (by rw [BitVec.toNat_ofNat]; omega), BitVec.toNat_ofNat,
      Nat.mod_eq_of_lt (by omega)]
  have room : ((List.range (packedSize vector)).map stack).length = packedSize vector := by simp
  refine ⟨sendMessage (sendMessage ⟨[], cut, 0⟩ (intBytes (packedSize vector))) (terminated 0 vector),
    ?_, ?_⟩
  · unfold remoteClient
    rw [if_neg (by omega), argvlen_eq holds (by omega), Option.bind_some, argl]
    dsimp only
    rw [if_pos (by omega), Int.toNat_natCast, argvpack_eq holds (by omega), room,
      if_pos (le_refl _), Option.map_some, List.drop_of_length_le room.le, List.append_nil]
  · rw [sendMessage_sent, sendMessage_sent, List.nil_append]

theorem strings_literal {text : String} (free : (0 : Byte) ∉ bytes text)
    (others : strings argc argv = some vector) :
    strings (argc + 1) (literal text :: argv) = some (bytes text :: vector) :=
  strings_cons.mpr ⟨bytes text, upTo_append free [], vector, others, rfl⟩

/-- What the server unpacks is what the client packed. -/
theorem unpacked_strings (free : ∀ s ∈ vector, (0 : Byte) ∉ s) {argl : Int} {last : Chars}
    (unpacks : argvunpack ((terminated 0 vector).count 0) argl (terminated 0 vector) =
      some (argv, last)) : strings vector.length argv = some vector := by
  rw [count_terminated free, argvunpack] at unpacks
  obtain ⟨-, loop⟩ := Option.ite_none_right_eq_some.mp unpacks
  have read := splitAtEach_terminated free []
  rw [List.append_nil] at read
  exact (unpackLoop_strings loop).trans read

/-- The calls of `Execute` among these actions. -/
def executions (actions : List Action) : List Action :=
  actions.filter fun
    | .execute .. => true
    | _ => false

/-- The server goes on, the strings have reached `Execute`, and the stream is used up. -/
structure Served (sock : Nat) (vector : List (List Byte)) (actions : List Action)
    (rest : Source Byte) : Prop where
  alive : .abort ∉ actions
  execution : ∃ argv,
    executions actions = [.execute "rsrv_process" (vector.length + 2) argv] ∧
    strings (vector.length + 2) argv =
      some (bytes "rsrv_process" :: bytes (toString sock) :: vector)
  consumed : rest.left = []

/-- **Requests are executed as they were sent, exactly up to 2048 bytes.** -/
theorem requests_served_iff (stack : Nat → Byte) (argc : Nat) (argv : List Chars)
    (vector : List (List Byte)) (some_arg : 2 ≤ argc)
    (holds : strings (argc - 1) argv.tail = some vector) (int : packedSize vector ≤ 0x7fffffff)
    (writes reads : Nat → Nat) (sock : Nat) (legal : sock < maxFileid) (pid : Int) :
    ∃ sent actions rest, remoteClient stack argc argv ⟨[], writes, 0⟩ = some (.ok sent) ∧
      rsrvClient sock pid ⟨sent.sent, reads, 0⟩ = some (actions, rest) ∧
      (Served sock vector actions rest ↔ packedSize vector ≤ 2048) := by
  obtain ⟨sent, sends, request⟩ := client_sends stack some_arg holds int writes
  obtain ⟨count, free⟩ := strings_sound holds
  have sizes := packedSize_eq vector
  have length := @length_packed vector
  have read : readInt sent.sent = some (packedSize vector : Int) := by
    rw [request]
    exact readInt_intBytes (by omega) (by omega) _
  have enough : sizeofInt ≤ sent.sent.length := by
    rw [request, List.length_append, length_intBytes]
    omega
  by_cases small : packedSize vector ≤ 2048
  · have parts : sent.sent.drop sizeofInt = terminated 0 vector ++ [] := by
      rw [request, ← length_intBytes (packedSize vector), List.drop_left, List.append_nil]
    obtain ⟨unpacked, last, rest, unpacks, runs, used⟩ :=
      rsrvClient_complete sock pid ⟨sent.sent, reads, 0⟩ legal read enough
        ⟨by omega, by omega⟩ parts (congrArg Int.ofNat length)
    refine ⟨sent, _, rest, sends, runs, fun _ => small, fun _ => ⟨?_, ?_, used⟩⟩
    · simp [executed, finish]
    · refine ⟨literal "rsrv_process" :: literal (toString sock) :: unpacked, ?_, ?_⟩
      · rw [count_terminated free]
        rfl
      · exact strings_literal (by decide)
          (strings_literal (nat_bytes_free sock) (unpacked_strings free unpacks))
  · obtain ⟨rest, runs⟩ :=
      rsrvClient_bad_length sock pid ⟨sent.sent, reads, 0⟩ read enough (by omega)
    refine ⟨sent, stopped, rest, sends, runs, fun served => ?_, fun fits => absurd fits small⟩
    exact absurd (by decide) served.alive

/-- The request `ls`. -/
theorem requests_served_iff_ls : ∃ sent actions rest,
    remoteClient (fun _ => 0) 2 [literal "rcli", literal "ls"] ⟨[], fun _ => 0, 0⟩ =
      some (.ok sent) ∧
    rsrvClient 3 5 ⟨sent.sent, fun _ => 1, 0⟩ = some (actions, rest) ∧
    Served 3 [bytes "ls"] actions rest := by
  obtain ⟨sent, actions, rest, sends, runs, served⟩ :=
    requests_served_iff (fun _ => 0) 2 [literal "rcli", literal "ls"] [bytes "ls"] (by decide)
      (by decide) (by decide) (fun _ => 0) (fun _ => 1) 3 (by decide) 5
  exact ⟨sent, actions, rest, sends, runs, served.mpr (by decide)⟩

/-- An argument of 2048 characters stops the server. -/
theorem long_request_stops : ∃ sent rest,
    remoteClient (fun _ => 0) 2 [literal "rcli", List.replicate 2048 97 ++ [0]]
      ⟨[], fun _ => 0, 0⟩ = some (.ok sent) ∧
    rsrvClient 3 5 ⟨sent.sent, fun _ => 0, 0⟩ = some (stopped, rest) ∧
    ¬ Served 3 [List.replicate 2048 97] stopped rest := by
  have free : (0 : Byte) ∉ List.replicate 2048 97 := fun zero =>
    absurd (List.eq_of_mem_replicate zero) (by decide)
  have holds : strings 1 [List.replicate 2048 (97 : Byte) ++ [0]] =
      some [List.replicate 2048 97] :=
    strings_cons.mpr ⟨_, upTo_append free [], [], rfl, rfl⟩
  have size : packedSize [List.replicate 2048 (97 : Byte)] = 2049 := by
    rw [packedSize_cons, List.length_replicate]
    rfl
  obtain ⟨sent, sends, request⟩ := @client_sends 2
    [literal "rcli", List.replicate 2048 97 ++ [0]] _ (fun _ => 0) (le_refl _) holds (by omega) fun _ => 0
  rw [size] at request
  have read : readInt sent.sent = some 2049 := by
    rw [request]
    exact readInt_intBytes (by omega) (by omega) _
  have enough : sizeofInt ≤ sent.sent.length := by
    rw [request, List.length_append, length_intBytes]
    omega
  obtain ⟨rest, runs⟩ :=
    rsrvClient_bad_length 3 5 ⟨sent.sent, fun _ => 0, 0⟩ read enough (by omega)
  exact ⟨sent, rest, sends, runs, fun served => absurd (by decide) served.alive⟩

end

end TinyOs.RemoteSession
