import TinyOs.KernelStreams

/-! `process_line` of `tinyos_shell.c`, which runs a command line of the shell.
A result of `none` means that an array is used outside its size, that an entry
is read which has not been set, or that an assertion fails. -/
namespace TinyOs.ShellLine
open Function
open Kernel (maxFileid)

/-- A local array; `none` is an entry that has not been set. -/
abbrev Table (α : Type) := List (Option α)

/-- An array of this size, when it is declared. -/
def declare (α : Type) (size : Nat) : Table α := List.replicate size none

def Table.load {α : Type} (table : Table α) (i : Nat) : Option α := (table[i]?).join

def Table.store {α : Type} (table : Table α) (i : Nat) (value : α) : Option (Table α) :=
  if i < table.length then some (table.set i (some value)) else none

/-! ### The fragments -/

/-- The arrays with the fragments, where `Vargv` has indices into `argv`. -/
structure Fragments where
  Vargc : Table Nat
  Vargv : Table Nat
  frag : Nat
  deriving DecidableEq, Repr

/-- One round of the splitting loop. -/
def splitWord (f : Fragments) (i : Nat) (word : String) : Option Fragments :=
  if word ≠ "|" then
    (f.Vargc.load f.frag).bind fun n =>
    (f.Vargc.store f.frag (n + 1)).bind fun Vargc =>
      if n + 1 = 1 then
        (f.Vargv.store f.frag i).map fun Vargv => { f with Vargc := Vargc, Vargv := Vargv }
      else some { f with Vargc := Vargc }
  else
    (f.Vargc.store (f.frag + 1) 0).map fun Vargc => { f with Vargc := Vargc, frag := f.frag + 1 }

def splitLoop : Nat → Fragments → List String → Option Fragments
  | _, f, [] => some f
  | i, f, word :: rest => (splitWord f i word).bind fun f => splitLoop (i + 1) f rest

/-- The fragments of a line of `argc` words. -/
def split (argv : List String) : Option Fragments :=
  ((declare Nat argv.length).store 0 0).bind fun Vargc =>
    (splitLoop 0 { Vargc := Vargc, Vargv := declare Nat argv.length, frag := 0 } argv).map
      fun f => { f with frag := f.frag + 1 }

structure Command where
  cmdname : String
  prog : String
  deriving DecidableEq, Repr

/-- `COMMANDS`, up to the `NULL`. -/
def commands : List Command :=
  [⟨"help", "HelpMessage"⟩, ⟨"ls", "ListPrograms"⟩, ⟨"sysinfo", "SystemInfo"⟩,
   ⟨"runterm", "RunTerm"⟩, ⟨"sh", "Shell"⟩, ⟨"repeat", "Repeat"⟩, ⟨"fibo", "Fibonacci"⟩,
   ⟨"cap", "Capitalize"⟩, ⟨"lcase", "LowerCase"⟩, ⟨"wc", "WordCount"⟩, ⟨"lenum", "LineEnum"⟩,
   ⟨"more", "More"⟩, ⟨"symposium", "Symposium_proc"⟩, ⟨"symp_thr", "Symposium_thr"⟩,
   ⟨"hanoi", "Hanoi"⟩, ⟨"rserver", "RemoteServer"⟩, ⟨"rcli", "RemoteClient"⟩, ⟨"echo", "Echo"⟩]

/-- The check of the fragment `i`, with the number of its command, or what is
printed. -/
def checkFragment (argv : List String) (f : Fragments) (i : Nat) : Option (Except String Nat) :=
  (f.Vargc.load i).bind fun n =>
    if n = 0 then some (.error "Error: a pipeline fragment was empty.\n")
    else
      (f.Vargv.load i).bind fun first =>
      (argv[first]?).map fun word =>
        match commands.findIdx? fun command => command.cmdname = word with
        | none => .error ("Command not found: '" ++ word ++ "'\n")
        | some c => .ok c

/-- The checks of the last `left` fragments, which set `comd`. -/
def checkLoop (argv : List String) (f : Fragments) (comd : Table Nat) :
    Nat → Option (Except String (Table Nat))
  | 0 => some (.ok comd)
  | left + 1 =>
    let i := f.frag - (left + 1)
    (checkFragment argv f i).bind fun checked =>
      match checked with
      | .error printed => some (.error printed)
      | .ok c => (comd.store i c).bind fun comd => checkLoop argv f comd left

def check (argv : List String) (f : Fragments) : Option (Except String (Table Nat)) :=
  checkLoop argv f (declare Nat f.frag) f.frag

/-! ### The file ids of the shell -/

/-- A stream, as an entry of a `FIDT` refers to it. -/
abbrev Stream := Kernel.FcbRef

/-- The system calls that `process_line` makes before it waits. -/
inductive Call where
  | openNull
  | dup2 (oldfd newfd : Int)
  | close (fd : Int)
  | pipe
  | execute (prog : String) (words : List String)
  deriving DecidableEq, Repr

/-- The shell's process, with the calls it has made. -/
structure Shell where
  FIDT : Nat → Option Stream
  calls : List Call

namespace Shell

def call (sh : Shell) (c : Call) : Shell := { sh with calls := sh.calls ++ [c] }

def getFcb (sh : Shell) (fid : Int) : Option Stream :=
  if fid < 0 ∨ (maxFileid : Int) ≤ fid then none else sh.FIDT fid.toNat

def setFid (sh : Shell) (fid : Int) (stream : Option Stream) : Shell :=
  { sh with FIDT := update sh.FIDT fid.toNat stream }

/-- `Close`. -/
def close (sh : Shell) (fd : Int) : Shell :=
  let sh := sh.call (.close fd)
  match sh.getFcb fd with
  | none => sh
  | some _ => sh.setFid fd none

/-- `Dup2`. -/
def dup2 (sh : Shell) (oldfd newfd : Int) : Shell :=
  let sh := sh.call (.dup2 oldfd newfd)
  if oldfd < 0 ∨ newfd < 0 ∨ (maxFileid : Int) ≤ oldfd ∨ (maxFileid : Int) ≤ newfd then sh
  else
    match sh.getFcb oldfd with
    | none => sh
    | some old => if sh.getFcb newfd = some old then sh else sh.setFid newfd (some old)

/-- The first free file id, as `FCB_reserve` finds it. -/
def freeFid (sh : Shell) : Option Nat := (List.range maxFileid).find? fun fid => sh.FIDT fid = none

/-- `OpenNull`, which opens this stream. -/
def openNull (sh : Shell) (stream : Stream) : Option (Int × Shell) :=
  sh.freeFid.map fun fid => (fid, (sh.call .openNull).setFid fid (some stream))

/-- `savefid`, whose assertion needs a free file id. -/
def savefid (sh : Shell) (fsaved : Int) (stream : Stream) : Option (Int × Shell) :=
  (sh.openNull stream).map fun (savior, sh) => (savior, sh.dup2 fsaved savior)

end Shell

/-- A `pipe_t`. -/
structure Pipe where
  read : Int
  write : Int
  deriving DecidableEq, Repr

/-- What a successful `Pipe` has made: two file ids with their streams. -/
structure NewPipe where
  read : Nat
  write : Nat
  reader : Stream
  writer : Stream
  deriving DecidableEq, Repr

/-- `Pipe`, which stores two fresh file ids or fails and leaves the `pipe_t` alone.
There is no such success if the file ids are not free. -/
def Shell.pipe (sh : Shell) (pipe : Pipe) : Option NewPipe → Option (Pipe × Shell)
  | none => some (pipe, sh.call .pipe)
  | some new =>
    if new.read < maxFileid ∧ new.write < maxFileid ∧ new.read ≠ new.write ∧
        sh.FIDT new.read = none ∧ sh.FIDT new.write = none then
      some (⟨new.read, new.write⟩,
        ((sh.call .pipe).setFid new.read (some new.reader)).setFid new.write (some new.writer))
    else none

/-- A round of the loop of `process_line` for a fragment that is not the last. -/
def pipeRound (sh : Shell) (pipe : Pipe) (outcome : Option NewPipe) (prog : String)
    (words : List String) : Option (Pipe × Shell) :=
  (sh.pipe pipe outcome).map fun (pipe, sh) =>
    let sh := (sh.dup2 pipe.write 1).close pipe.write
    let sh := sh.call (.execute prog words)
    (pipe, (sh.dup2 pipe.read 0).close pipe.read)

/-- The round for the last fragment. -/
def lastRound (sh : Shell) (savein saveout : Int) (prog : String) (words : List String) : Shell :=
  let sh := (sh.dup2 saveout 1).close saveout
  let sh := sh.call (.execute prog words)
  (sh.dup2 savein 0).close savein

/-- The rounds for the rest of the fragments, with the outcomes of `Pipe`. -/
def pipelineLoop (savein saveout : Int) :
    Shell → Pipe → List (Option NewPipe) → List (String × List String) → Option Shell
  | sh, _, _, [] => some sh
  | sh, _, _, [(prog, words)] => some (lastRound sh savein saveout prog words)
  | _, _, [], _ :: _ :: _ => none
  | sh, pipe, outcome :: outcomes, (prog, words) :: next :: rest =>
    (pipeRound sh pipe outcome prog words).bind fun (pipe, sh) =>
      pipelineLoop savein saveout sh pipe outcomes (next :: rest)

/-- The pipeline: the standard streams are saved, and the fragments executed. -/
def construct (sh : Shell) (garbage : Pipe) (nulls : Stream × Stream) (outcomes : List (Option NewPipe))
    (fragments : List (String × List String)) : Option Shell :=
  (sh.savefid 0 nulls.1).bind fun (savein, sh) =>
  (sh.savefid 1 nulls.2).bind fun (saveout, sh) =>
    pipelineLoop savein saveout sh garbage outcomes fragments

/-- The words of a fragment: `Vargc` of them, from where `Vargv` points to. -/
def words (argv : List String) (f : Fragments) (i : Nat) : Option (List String) :=
  (f.Vargc.load i).bind fun n =>
    if n = 0 then some []
    else (f.Vargv.load i).map fun first => (argv.drop first).take n

/-- What is executed for the fragment `i`: a program and its arguments. -/
def execution (argv : List String) (f : Fragments) (comd : Table Nat) (i : Nat) :
    Option (String × List String) :=
  (comd.load i).bind fun c => (commands[c]?).bind fun command =>
    (words argv f i).map fun words => (command.prog, words)

/-- What is executed for the last `left` fragments. -/
def executions (argv : List String) (f : Fragments) (comd : Table Nat) :
    Nat → Option (List (String × List String))
  | 0 => some []
  | left + 1 => (execution argv f comd (f.frag - (left + 1))).bind fun first =>
    (executions argv f comd left).map (first :: ·)

/-- `process_line`, up to the waiting for the children. It returns 0, with what it
has printed, if there is an error. -/
def processLine (sh : Shell) (argv : List String) (garbage : Pipe) (nulls : Stream × Stream)
    (outcomes : List (Option NewPipe)) : Option (Shell × Except String Unit) :=
  (split argv).bind fun f =>
  (check argv f).bind fun checked =>
    match checked with
    | .error printed => some (sh, .error printed)
    | .ok comd =>
      (executions argv f comd f.frag).bind fun fragments =>
        (construct sh garbage nulls outcomes fragments).map fun sh => (sh, .ok ())

end TinyOs.ShellLine
