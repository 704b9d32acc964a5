import TinyOs.ArgVector
import TinyOs.KernelStreams
import TinyOs.Library.Fragmented

/-! The remote shell of `tinyos_shell.c`: the request that `RemoteClient` sends and
the thread `rsrv_client` that serves it. The bytes of a connection arrive in order,
in pieces of any length. A result of `none` means that the code uses memory outside
of an object, or that an `int` overflows. -/
namespace TinyOs.RemoteSession
open Function Library ArgVector
open Kernel (maxFileid)

/-! ### Messages -/

/-- The loop of `recv_message`, with what is in the buffer. -/
def recvLoop (sock : Source Byte) (len : Nat) (buf : List Byte) : List Byte × Source Byte :=
  if buf.length < len then
    let piece := sock.read (len - buf.length)
    if _ended : piece.1 = [] then (buf, piece.2)
    else recvLoop piece.2 len (buf ++ piece.1)
  else (buf, sock)
termination_by len - buf.length
decreasing_by
  have some_byte := List.length_pos_iff.mpr _ended
  simp only [piece] at some_byte
  rw [List.length_append]
  omega

/-- `recv_message`: the message, unless the stream ends before. -/
def recvMessage (sock : Source Byte) (len : Nat) : Option (List Byte) × Source Byte :=
  let (buf, sock) := recvLoop sock len []
  (if buf.length = len then some buf else none, sock)

/-- `send_message`, from what is left of the message. Every `Write` takes some
bytes, so that the loop does not end early. -/
def sendMessage (sock : Sink Byte) (buf : List Byte) : Sink Byte :=
  if _left : buf = [] then sock
  else sendMessage (sock.write buf).2 (buf.drop (sock.write buf).1)
termination_by buf.length
decreasing_by
  have written := Sink.write_pos (s := sock) _left
  have some_byte := List.length_pos_iff.mpr _left
  rw [List.length_drop]
  omega

/-- `sizeof(int)`. -/
def sizeofInt : Nat := 4

/-- An `int` as it is in memory. -/
def intBytes (value : Int) : List Byte :=
  (List.range sizeofInt).map fun i => (BitVec.ofInt 32 value).extractLsb' (8 * i) 8

def readInt : Chars → Option Int
  | b₀ :: b₁ :: b₂ :: b₃ :: _ => some (b₃ ++ b₂ ++ b₁ ++ b₀).toInt
  | _ => none

/-- The characters of a string. -/
def bytes (text : String) : List Byte := text.toList.map fun c => BitVec.ofNat 8 c.toNat

/-- A string in memory. -/
def literal (text : String) : Chars := bytes text ++ [0]

/-! ### The client -/

/-- `RemoteClient`, up to the end of its request, with its result when it returns
here. Before it is written, the buffer holds what is on the `stack`. -/
def remoteClient (stack : Nat → Byte) (argc : Nat) (argv : List Chars) (sock : Sink Byte) :
    Option (Except Int (Sink Byte)) :=
  if argc ≤ 1 then some (.error (-1))
  else
    (argvlen (argc - 1) argv.tail).bind fun length =>
      let argl := (BitVec.ofNat 32 length).toInt
      if 0 < argl then
        (argvpack ((List.range argl.toNat).map stack) (argc - 1) argv.tail).map fun (args, _) =>
          .ok (sendMessage (sendMessage sock (intBytes argl)) args)
      else none

/-! ### The server -/

/-- What a thread of the server does that others can see, one access to `active_conn`
after the other. The arguments of the log messages are left out. -/
inductive Action where
  | takeId
  | logMessage (msg : String)
  | execute (prog : String) (argc : Nat) (argv : List Chars)
  | close (fd : Nat)
  | waitChild (cpid : Int)
  | mutexLock
  | loadActive
  /-- What has been loaded, less one. -/
  | storeActive
  | condBroadcast
  | mutexUnlock
  /-- The assertion fails. -/
  | abort
  deriving DecidableEq, Repr

/-- From the label `finish` on. -/
def finish : List Action := [.mutexLock, .loadActive, .storeActive, .condBroadcast, .mutexUnlock]

/-- `sprintf(sock_value, "%d", sock)`, for an array of 32 characters. -/
def sockValue (sock : Nat) : Option Chars :=
  let text := literal (toString sock)
  if text.length ≤ 32 then some text else none

/-- What `rsrv_client` does, one action after the other, and what is left of the
stream. `Execute` gives this `pid`, or -1. Whether an action has to wait, and for how
long, is up to the server process (`Thread.act`). -/
def rsrvClient (sock : Nat) (pid : Int) (stream : Source Byte) :
    Option (List Action × Source Byte) :=
  let started := [.takeId, .logMessage "Client[%6zu]: started"]
  let failed := .logMessage "Cliend[%6zu]: error in receiving request, aborting" :: finish
  let (request, stream) := recvMessage stream sizeofInt
  match request with
  | none => some (started ++ failed, stream)
  | some request =>
    (readInt request).bind fun argl =>
      if 0 < argl ∧ argl ≤ 2048 then
        let (request, stream) := recvMessage stream argl.toNat
        match request with
        | none => some (started ++ failed, stream)
        | some args =>
          (argscount argl args).bind fun argc =>
          (sockValue sock).bind fun sockValue =>
          (argvunpack argc argl args).map fun (argv, _) =>
            let argv := literal "rsrv_process" :: sockValue :: argv
            (started ++ [.execute "rsrv_process" (argc + 2) argv, .close sock, .waitChild pid,
              .logMessage "Client[%6zu]: finished with status %d"] ++ finish, stream)
      else some (started ++ [.abort], stream)

end TinyOs.RemoteSession
