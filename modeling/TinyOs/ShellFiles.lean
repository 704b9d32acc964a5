import Mathlib.Logic.Function.Iterate
import TinyOs.ShellLineSafety

/-! What `process_line` leaves of the shell's file ids when it has run a pipeline. -/
namespace TinyOs.ShellLine
open Function
open Kernel (maxFileid)

/-! ### The calls, as the file ids see them -/

/-- `Dup2` on a table of file ids. -/
def dupIn (T : Int → Option Stream) (oldfd newfd : Int) : Int → Option Stream :=
  match T oldfd with
  | none => T
  | some stream => update T newfd (some stream)

theorem dupIn_closed {T : Int → Option Stream} {oldfd newfd : Int} (closed : T oldfd = none) :
    dupIn T oldfd newfd = T := by
  rw [dupIn, closed]

theorem dupIn_open {T : Int → Option Stream} {oldfd newfd : Int} {stream : Stream}
    (is_open : T oldfd = some stream) : dupIn T oldfd newfd = update T newfd (some stream) := by
  rw [dupIn, is_open]

namespace Shell
variable {sh : Shell} {fid : Int} {stream : Option Stream}

theorem getFcb_fid (sh : Shell) {fid : Nat} (small : fid < maxFileid) :
    sh.getFcb fid = sh.FIDT fid := by
  rw [getFcb, if_neg (by omega), Int.toNat_natCast]

theorem getFcb_outside (outside : fid < 0 ∨ (maxFileid : Int) ≤ fid) : sh.getFcb fid = none :=
  if_pos outside

@[simp] theorem getFcb_call (sh : Shell) (c : Call) : (sh.call c).getFcb = sh.getFcb := rfl

theorem getFcb_setFid (first : 0 ≤ fid) (last : fid < (maxFileid : Int)) :
    (sh.setFid fid stream).getFcb = update sh.getFcb fid stream := by
  funext other
  by_cases outside : other < 0 ∨ (maxFileid : Int) ≤ other
  · have different : other ≠ fid := by omega
    rw [getFcb, if_pos outside, update_of_ne different, getFcb, if_pos outside]
  · rw [getFcb, if_neg outside]
    by_cases same : other = fid
    · rw [same, update_self]
      exact update_self ..
    · rw [update_of_ne same, getFcb, if_neg outside]
      exact update_of_ne (by omega) ..

@[simp] theorem getFcb_close (sh : Shell) (fd : Int) :
    (sh.close fd).getFcb = update sh.getFcb fd none := by
  unfold close
  dsimp only
  cases here : (sh.call (.close fd)).getFcb fd with
  | none =>
    have same : update sh.getFcb fd none = sh.getFcb := update_eq_self_iff.mpr here.symm
    exact same.symm
  | some stream =>
    have inside : ¬ (fd < 0 ∨ (maxFileid : Int) ≤ fd) := fun outside => by
      cases (getFcb_outside outside).symm.trans here
    exact getFcb_setFid (by omega) (by omega)

theorem getFcb_dup2 (sh : Shell) (oldfd : Int) {newfd : Int} (first : 0 ≤ newfd)
    (last : newfd < (maxFileid : Int)) :
    (sh.dup2 oldfd newfd).getFcb = dupIn sh.getFcb oldfd newfd := by
  unfold dup2 dupIn
  dsimp only
  by_cases outside : oldfd < 0 ∨ (maxFileid : Int) ≤ oldfd
  · rw [if_pos (by omega), getFcb_outside outside]
    rfl
  · rw [if_neg (by omega), getFcb_call]
    cases sh.getFcb oldfd with
    | none => rfl
    | some old =>
      dsimp only
      split
      next same => exact (update_eq_self_iff.mpr (Eq.symm same)).symm
      next => exact getFcb_setFid first last

end Shell

/-! ### The calls in the kernel -/

/-- A process of the kernel, as the shell uses it. -/
def Shell.ofKernel (s : Kernel.State) (thread : Kernel.TcbRef) : Shell where
  FIDT := s.pt.fidt (s.curproc thread)
  calls := []

section
variable {s : Kernel.State} {thread : Kernel.TcbRef}

/-- `Close` and `Dup2` are those of the kernel. -/
theorem Shell.ofKernel_close (fd : Int) :
    (Shell.ofKernel (s.sysClose thread fd) thread).FIDT =
      ((Shell.ofKernel s thread).close fd).FIDT := by
  have same : ((Shell.ofKernel s thread).call (.close fd)).getFcb fd =
      s.getFcb (s.curproc thread) fd := rfl
  unfold Kernel.State.sysClose Shell.close
  dsimp only
  rw [same]
  cases s.getFcb (s.curproc thread) fd with
  | none => rfl
  | some fcb => exact update_self ..

theorem Shell.ofKernel_dup2 (oldfd newfd : Int) :
    (Shell.ofKernel (s.sysDup2 thread oldfd newfd) thread).FIDT =
      ((Shell.ofKernel s thread).dup2 oldfd newfd).FIDT := by
  have same : ∀ fd, ((Shell.ofKernel s thread).call (.dup2 oldfd newfd)).getFcb fd =
      s.getFcb (s.curproc thread) fd := fun fd => rfl
  unfold Kernel.State.sysDup2 Shell.dup2
  dsimp only
  split
  next => rfl
  next =>
    rw [same oldfd]
    cases s.getFcb (s.curproc thread) oldfd with
    | none => rfl
    | some old =>
      dsimp only
      rw [same newfd]
      split
      next => rfl
      next => exact update_self ..

end

/-! ### The rounds -/

/-- A round of the loop whose `Pipe` leaves these values in the `pipe_t`. -/
def roundIn (T : Int → Option Stream) (pipe : Pipe) : Int → Option Stream :=
  update (dupIn (update (dupIn T pipe.write 1) pipe.write none) pipe.read 0) pipe.read none

/-- The round for the last fragment. -/
def restoreIn (T : Int → Option Stream) (savein saveout : Int) : Int → Option Stream :=
  update (dupIn (update (dupIn T saveout 1) saveout none) savein 0) savein none

section
variable {sh sh' : Shell} {pipe pipe' : Pipe} {new : NewPipe} {T : Int → Option Stream}
  {fid oldfd newfd savein saveout : Int} {prog : String} {words : List String}

theorem dupIn_other (other : fid ≠ newfd) : dupIn T oldfd newfd fid = T fid := by
  unfold dupIn
  cases T oldfd with
  | none => rfl
  | some stream => exact update_of_ne other ..

theorem pipeRound_fails (ran : pipeRound sh pipe none prog words = some (pipe', sh')) :
    pipe' = pipe ∧ sh'.getFcb = roundIn sh.getFcb pipe := by
  cases ran
  refine ⟨rfl, ?_⟩
  rw [roundIn, Shell.getFcb_close, Shell.getFcb_dup2 _ _ (by decide) (by decide), Shell.getFcb_call,
    Shell.getFcb_close, Shell.getFcb_dup2 _ _ (by decide) (by decide), Shell.getFcb_call]

/-- The table with the file ids of a new pipe. -/
def withPipe (T : Int → Option Stream) (new : NewPipe) : Int → Option Stream :=
  update (update T new.read (some new.reader)) new.write (some new.writer)

theorem pipeRound_succeeds (ran : pipeRound sh pipe (some new) prog words = some (pipe', sh')) :
    pipe' = ⟨new.read, new.write⟩ ∧ new.read ≠ new.write ∧ sh.getFcb new.read = none ∧
      sh.getFcb new.write = none ∧ sh'.getFcb = roundIn (withPipe sh.getFcb new) pipe' := by
  unfold pipeRound Shell.pipe at ran
  dsimp only at ran
  split at ran
  next fresh =>
    obtain ⟨read_small, write_small, different, read_free, write_free⟩ := fresh
    cases ran
    refine ⟨rfl, different, ?_, ?_, ?_⟩
    · rw [Shell.getFcb_fid sh read_small, read_free]
    · rw [Shell.getFcb_fid sh write_small, write_free]
    · rw [roundIn, withPipe, Shell.getFcb_close, Shell.getFcb_dup2 _ _ (by decide) (by decide),
        Shell.getFcb_call, Shell.getFcb_close, Shell.getFcb_dup2 _ _ (by decide) (by decide),
        Shell.getFcb_setFid (by omega) (by omega), Shell.getFcb_setFid (by omega) (by omega),
        Shell.getFcb_call]
  next => cases ran

theorem lastRound_eq (sh : Shell) (savein saveout : Int) (prog : String) (words : List String) :
    (lastRound sh savein saveout prog words).getFcb = restoreIn sh.getFcb savein saveout := by
  rw [lastRound, restoreIn, Shell.getFcb_close, Shell.getFcb_dup2 _ _ (by decide) (by decide),
    Shell.getFcb_call, Shell.getFcb_close, Shell.getFcb_dup2 _ _ (by decide) (by decide)]

/-- A round leaves the file ids alone that it does not name, but for the standard
streams. -/
theorem roundIn_other (not_in : fid ≠ 0) (not_out : fid ≠ 1) (not_read : fid ≠ pipe.read)
    (not_write : fid ≠ pipe.write) : roundIn T pipe fid = T fid := by
  rw [roundIn, update_of_ne not_read, dupIn_other not_in, update_of_ne not_write, dupIn_other not_out]

/-- It closes those that it names. -/
theorem roundIn_named (not_in : fid ≠ 0) (named : fid = pipe.read ∨ fid = pipe.write) :
    roundIn T pipe fid = none := by
  rw [roundIn]
  by_cases read : fid = pipe.read
  · rw [read, update_self]
  · obtain write := named.resolve_left read
    rw [update_of_ne read, dupIn_other not_in, write, update_self]

end

/-- The rounds for all fragments but the last one, with these outcomes of `Pipe`. -/
inductive Rounds : (Int → Option Stream) → Pipe → List (Option NewPipe) →
    (Int → Option Stream) → Prop where
  | done {T pipe} : Rounds T pipe [] T
  | fails {T T' pipe rest} : Rounds (roundIn T pipe) pipe rest T' → Rounds T pipe (none :: rest) T'
  | succeeds {T T' pipe new rest} : new.read ≠ new.write → T new.read = none →
      T new.write = none →
      Rounds (roundIn (withPipe T new) ⟨new.read, new.write⟩) ⟨new.read, new.write⟩ rest T' →
      Rounds T pipe (some new :: rest) T'

theorem pipelineLoop_rounds {savein saveout : Int} {sh sh' : Shell} {pipe : Pipe}
    {outcomes : List (Option NewPipe)} {last : String × List String}
    {fragments : List (String × List String)}
    (ran : pipelineLoop savein saveout sh pipe outcomes (last :: fragments) = some sh') :
    fragments.length ≤ outcomes.length ∧
    ∃ T, Rounds sh.getFcb pipe (outcomes.take fragments.length) T ∧
      sh'.getFcb = restoreIn T savein saveout := by
  induction fragments generalizing sh pipe outcomes last with
  | nil =>
    obtain ⟨prog, words⟩ := last
    rw [pipelineLoop] at ran
    cases ran
    exact ⟨Nat.zero_le _, _, .done, lastRound_eq ..⟩
  | cons next rest ih =>
    cases outcomes with
    | nil => cases ran
    | cons outcome outcomes =>
      obtain ⟨⟨pipe', middle⟩, round, ran⟩ := Option.bind_eq_some_iff.mp ran
      obtain ⟨enough, T, rounds, restored⟩ := ih ran
      refine ⟨Nat.succ_le_succ enough, T, ?_, restored⟩
      rw [List.length_cons, List.take_succ_cons]
      cases outcome with
      | none =>
        obtain ⟨rfl, table⟩ := pipeRound_fails round
        exact .fails (table ▸ rounds)
      | some new =>
        obtain ⟨rfl, different, read_free, write_free, table⟩ := pipeRound_succeeds round
        exact .succeeds different read_free write_free (table ▸ rounds)

/-- The values in a `pipe_t` that are a file id. -/
def Pipe.Names (pipe : Pipe) (fid : Int) : Prop := fid = pipe.read ∨ fid = pipe.write

/-- The `pipe_t` names no open file id but for the standard ones. -/
def Pipe.Stale (pipe : Pipe) (T : Int → Option Stream) : Prop :=
  ∀ fid, pipe.Names fid → fid ≠ 0 → fid ≠ 1 → T fid = none

section
variable {T T' : Int → Option Stream} {pipe : Pipe} {outcomes : List (Option NewPipe)}
  {new : NewPipe} {fid savein saveout : Int}

theorem withPipe_other (other : ¬ Pipe.Names ⟨new.read, new.write⟩ fid) :
    withPipe T new fid = T fid := by
  obtain ⟨not_read, not_write⟩ := not_or.mp other
  rw [withPipe, update_of_ne not_write, update_of_ne not_read]

theorem roundIn_kept (not_in : fid ≠ 0) (not_out : fid ≠ 1) (other : ¬ pipe.Names fid) :
    roundIn T pipe fid = T fid := by
  obtain ⟨not_read, not_write⟩ := not_or.mp other
  exact roundIn_other not_in not_out not_read not_write

/-- A file id that is closed stays so. -/
theorem Rounds.closed (rounds : Rounds T pipe outcomes T') (not_in : fid ≠ 0) (not_out : fid ≠ 1)
    (closed : T fid = none) : T' fid = none := by
  induction rounds with
  | done => exact closed
  | @fails T T' pipe rest later ih =>
    apply ih
    by_cases named : pipe.Names fid
    · exact roundIn_named not_in named
    · rw [roundIn_kept not_in not_out named, closed]
  | @succeeds T T' pipe new rest different read_free write_free later ih =>
    apply ih
    by_cases named : Pipe.Names ⟨new.read, new.write⟩ fid
    · exact roundIn_named not_in named
    · rw [roundIn_kept not_in not_out named, withPipe_other named, closed]

/-- The `pipe_t` names closed file ids after a round. -/
theorem stale_roundIn : pipe.Stale (roundIn T pipe) := fun _ named not_in _ =>
  roundIn_named not_in named

/-- **Pipes come and go.** Unless the first `Pipe` fails and leaves an open file id
in the `pipe_t`, the rounds keep all file ids but the standard ones. -/
theorem Rounds.kept (rounds : Rounds T pipe outcomes T')
    (stale : ∀ rest, outcomes = none :: rest → pipe.Stale T) (not_in : fid ≠ 0)
    (not_out : fid ≠ 1) : T' fid = T fid := by
  induction rounds with
  | done => rfl
  | @fails T T' pipe rest later ih =>
    rw [ih fun _ _ => stale_roundIn]
    by_cases named : pipe.Names fid
    · rw [roundIn_named not_in named, stale rest rfl fid named not_in not_out]
    · exact roundIn_kept not_in not_out named
  | @succeeds T T' pipe new rest different read_free write_free later ih =>
    rw [ih fun _ _ => stale_roundIn]
    by_cases named : Pipe.Names ⟨new.read, new.write⟩ fid
    · rw [roundIn_named not_in named]
      rcases named with rfl | rfl
      · exact read_free.symm
      · exact write_free.symm
    · rw [roundIn_kept not_in not_out named, withPipe_other named]

/-! ### Pipes after a failure -/

/-- The standard streams are not among the old ones. -/
def NewStreams (T : Int → Option Stream) (old : Stream → Prop) : Prop :=
  ∀ fid stream, fid = 0 ∨ fid = 1 → T fid = some stream → ¬ old stream

variable {old : Stream → Prop}

theorem NewStreams.dupIn {oldfd newfd : Int} (news : NewStreams T old)
    (source : ∀ stream, T oldfd = some stream → ¬ old stream) :
    NewStreams (dupIn T oldfd newfd) old := by
  intro fid stream standard found
  unfold ShellLine.dupIn at found
  cases here : T oldfd with
  | none =>
    rw [here] at found
    exact news fid stream standard found
  | some other =>
    rw [here] at found
    change update T newfd (some other) fid = some stream at found
    by_cases same : fid = newfd
    · rw [same] at found
      rw [update_self] at found
      exact source stream (here.trans found)
    · rw [update_of_ne same] at found
      exact news fid stream standard found

theorem NewStreams.close (news : NewStreams T old) (fd : Int) :
    NewStreams (update T fd none) old := by
  intro other stream standard found
  by_cases same : other = fd
  · rw [same, update_self] at found
    cases found
  · rw [update_of_ne same] at found
    exact news other stream standard found

/-- A round whose `pipe_t` names no other open file ids keeps the streams new. -/
theorem NewStreams.roundIn (news : NewStreams T old) (stale : pipe.Stale T) :
    NewStreams (roundIn T pipe) old := by
  have source : ∀ (T : Int → Option Stream) fid, NewStreams T old →
      (fid ≠ 0 → fid ≠ 1 → T fid = none) → ∀ stream, T fid = some stream → ¬ old stream := by
    intro T fid news closed stream found
    by_cases standard : fid = 0 ∨ fid = 1
    · exact news fid stream standard found
    · obtain ⟨not_in, not_out⟩ := not_or.mp standard
      cases (closed not_in not_out).symm.trans found
  have out : NewStreams (ShellLine.dupIn T pipe.write 1) old :=
    news.dupIn (source T pipe.write news (stale _ (.inr rfl)))
  have written := out.close pipe.write
  refine (written.dupIn (source _ pipe.read written fun not_in not_out => ?_)).close _
  by_cases same : pipe.read = pipe.write
  · rw [same, update_self]
  · rw [update_of_ne same, dupIn_other not_out]
    exact stale _ (.inl rfl) not_in not_out

/-- After a round with a new pipe, the standard streams are the pipe's. -/
theorem newStreams_succeeds (different : new.read ≠ new.write) (reader : ¬ old new.reader)
    (writer : ¬ old new.writer) :
    NewStreams (roundIn (withPipe T new) ⟨new.read, new.write⟩) old := by
  have apart : (new.read : Int) ≠ new.write := fun same => different (Int.ofNat_inj.mp same)
  have write : withPipe T new new.write = some new.writer := update_self ..
  have read : withPipe T new new.read = some new.reader := by
    rw [withPipe, update_of_ne apart, update_self]
  -- `Dup2(pipe.write, 1)` and `Close(pipe.write)`
  have written : dupIn (withPipe T new) new.write 1 =
      update (withPipe T new) 1 (some new.writer) := dupIn_open write
  have source : ∃ stream, update (update (withPipe T new) 1 (some new.writer)) new.write none
      new.read = some stream ∧ ¬ old stream := by
    rw [update_of_ne apart]
    by_cases standard : (new.read : Int) = 1
    · exact ⟨new.writer, by rw [standard, update_self], writer⟩
    · exact ⟨new.reader, by rw [update_of_ne standard, read], reader⟩
  obtain ⟨source, found, is_new⟩ := source
  -- `Dup2(pipe.read, 0)`
  have table : roundIn (withPipe T new) ⟨new.read, new.write⟩ =
      update (update (update (update (withPipe T new) 1 (some new.writer)) new.write none) 0
        (some source)) new.read none := by
    rw [roundIn, written, dupIn_open found]
  rw [table]
  refine NewStreams.close (fun fid stream standard has => ?_) _
  rcases standard with rfl | rfl
  · rw [update_self] at has
    obtain rfl := Option.some.inj has
    exact is_new
  · rw [update_of_ne (by decide)] at has
    by_cases closed : (1 : Int) = new.write
    · rw [closed, update_self] at has
      cases has
    · rw [update_of_ne closed, update_self] at has
      obtain rfl := Option.some.inj has
      exact writer

/-- Once there has been a pipe, the old standard streams do not come back. -/
theorem Rounds.newStreams_of_stale (rounds : Rounds T pipe outcomes T')
    (fresh : ∀ new, some new ∈ outcomes → ¬ old new.reader ∧ ¬ old new.writer)
    (stale : pipe.Stale T) (news : NewStreams T old) : NewStreams T' old := by
  induction rounds with
  | done => exact news
  | @fails T T' pipe rest later ih =>
    exact ih (fun new member => fresh new (List.mem_cons_of_mem _ member)) stale_roundIn
      (news.roundIn stale)
  | @succeeds T T' pipe new rest different read_free write_free later ih =>
    obtain ⟨reader, writer⟩ := fresh new List.mem_cons_self
    exact ih (fun new member => fresh new (List.mem_cons_of_mem _ member)) stale_roundIn
      (newStreams_succeeds different reader writer)

theorem Rounds.newStreams (rounds : Rounds T pipe outcomes T')
    (fresh : ∀ new, some new ∈ outcomes → ¬ old new.reader ∧ ¬ old new.writer)
    (some_pipe : ∃ new, some new ∈ outcomes) : NewStreams T' old := by
  induction rounds with
  | done =>
    obtain ⟨new, member⟩ := some_pipe
    cases member
  | @fails T T' pipe rest later ih =>
    obtain ⟨new, member⟩ := some_pipe
    have member : some new ∈ rest := by simpa using member
    exact ih (fun new member => fresh new (List.mem_cons_of_mem _ member)) ⟨new, member⟩
  | @succeeds T T' pipe new rest different read_free write_free later ih =>
    obtain ⟨reader, writer⟩ := fresh new List.mem_cons_self
    exact later.newStreams_of_stale (fun new member => fresh new (List.mem_cons_of_mem _ member))
      stale_roundIn (newStreams_succeeds different reader writer)

end

/-! ### When every `Pipe` fails

The same values are in the `pipe_t` in every round, and what matters of them is
whether they are the standard file ids or the saved copies. -/

inductive Slot where
  | stdin
  | stdout
  | savein
  | saveout
  | closed
  deriving DecidableEq, Repr

/-- The streams of four file ids. -/
structure Four where
  stdin : Option Stream
  stdout : Option Stream
  savein : Option Stream
  saveout : Option Stream
  deriving DecidableEq, Repr

namespace Four

def get (q : Four) : Slot → Option Stream
  | .stdin => q.stdin
  | .stdout => q.stdout
  | .savein => q.savein
  | .saveout => q.saveout
  | .closed => none

def set (q : Four) (slot : Slot) (stream : Option Stream) : Four :=
  match slot with
  | .stdin => { q with stdin := stream }
  | .stdout => { q with stdout := stream }
  | .savein => { q with savein := stream }
  | .saveout => { q with saveout := stream }
  | .closed => q

def dup (q : Four) (source target : Slot) : Four :=
  match q.get source with
  | none => q
  | some stream => q.set target (some stream)

def round (write read : Slot) (q : Four) : Four :=
  (((q.dup write .stdout).set write none).dup read .stdin).set read none

def restore (q : Four) : Four :=
  (((q.dup .saveout .stdout).set .saveout none).dup .savein .stdin).set .savein none

/-- Before the first round. -/
def saved (stdin stdout : Stream) : Four := ⟨some stdin, some stdout, some stdin, some stdout⟩

/-- From the second round on nothing changes. -/
theorem round_twice (write read : Slot) (a b : Stream) :
    round write read (round write read (round write read (saved a b))) =
      round write read (round write read (saved a b)) := by
  cases write <;> cases read <;> rfl

theorem iterate_round (write read : Slot) (a b : Stream) (n : Nat) :
    (round write read)^[n + 2] (saved a b) = round write read (round write read (saved a b)) := by
  induction n with
  | zero => rfl
  | succ n ih => rw [iterate_succ_apply', ih, round_twice]

/-- The values for which the standard streams are not restored after `n` rounds. -/
def Spoils (write read : Slot) (same : Prop) (n : Nat) : Prop :=
  write = .saveout ∧ read = .stdout ∨ write = .savein ∧ read = .stdin ∨
    write = .stdout ∧ read = .saveout ∨ write = .savein ∧ read = .saveout ∧ ¬ same ∨
    write = .stdin ∧ read = .saveout ∧ ¬ same ∧ n = 1 ∨ write = .stdin ∧ read = .savein ∧ 2 ≤ n

theorem restore_iff (write read : Slot) (a b : Stream) {n : Nat} (some_round : n ≠ 0) :
    ((restore ((round write read)^[n] (saved a b))).stdin = some a ∧
      (restore ((round write read)^[n] (saved a b))).stdout = some b) ↔
      ¬ Spoils write read (a = b) n := by
  obtain ⟨n, rfl⟩ := Nat.exists_eq_succ_of_ne_zero some_round
  cases n with
  | zero =>
    rw [iterate_succ_apply, iterate_zero_apply]
    cases write <;> cases read <;> simp [round, restore, saved, dup, set, get, Spoils, eq_comm]
  | succ n =>
    rw [iterate_round]
    cases write <;> cases read <;> simp [round, restore, saved, dup, set, get, Spoils, eq_comm]

end Four

/-- The saved copies are file ids of their own. -/
structure Apart (savein saveout : Int) : Prop where
  in_not_in : savein ≠ 0
  in_not_out : savein ≠ 1
  out_not_in : saveout ≠ 0
  out_not_out : saveout ≠ 1
  different : savein ≠ saveout

def slotOf (savein saveout fid : Int) : Slot :=
  if fid = 0 then .stdin else if fid = 1 then .stdout
  else if fid = savein then .savein else if fid = saveout then .saveout else .closed

/-- The four file ids of a table. -/
structure Sees (T : Int → Option Stream) (savein saveout : Int) (q : Four) : Prop where
  stdin : T 0 = q.stdin
  stdout : T 1 = q.stdout
  savein : T savein = q.savein
  saveout : T saveout = q.saveout

section
variable {T T' : Int → Option Stream} {savein saveout fid : Int} {q : Four} {pipe : Pipe}

theorem slotOf_stdout : slotOf savein saveout 1 = .stdout := rfl

theorem slotOf_savein (apart : Apart savein saveout) : slotOf savein saveout savein = .savein := by
  simp [slotOf, apart.in_not_in, apart.in_not_out]

theorem slotOf_saveout (apart : Apart savein saveout) :
    slotOf savein saveout saveout = .saveout := by
  simp [slotOf, apart.out_not_in, apart.out_not_out, apart.different.symm]

theorem slotOf_closed : slotOf savein saveout fid = .closed ↔
    fid ≠ 0 ∧ fid ≠ 1 ∧ fid ≠ savein ∧ fid ≠ saveout := by
  unfold slotOf
  by_cases zero : fid = 0
  · simp [zero]
  by_cases one : fid = 1
  · simp [one]
  by_cases is_in : fid = savein
  · subst is_in
    simp [zero, one]
  by_cases is_out : fid = saveout
  · subst is_out
    simp [zero, one, is_in]
  · simp [zero, one, is_in, is_out]

theorem Sees.get (sees : Sees T savein saveout q)
    (closed : slotOf savein saveout fid = .closed → T fid = none) :
    T fid = q.get (slotOf savein saveout fid) := by
  unfold slotOf at closed ⊢
  split
  next same => exact same ▸ sees.stdin
  next not_in =>
    split
    next same => exact same ▸ sees.stdout
    next not_out =>
      split
      next same => exact same ▸ sees.savein
      next not_savein =>
        split
        next same => exact same ▸ sees.saveout
        next not_saveout =>
          exact closed (by rw [if_neg not_in, if_neg not_out, if_neg not_savein, if_neg not_saveout])

theorem Sees.set (sees : Sees T savein saveout q) (apart : Apart savein saveout)
    (stream : Option Stream) :
    Sees (update T fid stream) savein saveout (q.set (slotOf savein saveout fid) stream) := by
  obtain ⟨stdin, stdout, saved_in, saved_out⟩ := sees
  obtain ⟨in_not_in, in_not_out, out_not_in, out_not_out, different⟩ := apart
  unfold slotOf
  split
  next same =>
    subst same
    exact ⟨update_self .., stdout, (update_of_ne in_not_in ..).trans saved_in,
      (update_of_ne out_not_in ..).trans saved_out⟩
  next not_in =>
    split
    next same =>
      subst same
      exact ⟨stdin, update_self .., (update_of_ne in_not_out ..).trans saved_in,
        (update_of_ne out_not_out ..).trans saved_out⟩
    next not_out =>
      split
      next same =>
        subst same
        exact ⟨(update_of_ne in_not_in.symm ..).trans stdin,
          (update_of_ne in_not_out.symm ..).trans stdout, update_self ..,
          (update_of_ne different.symm ..).trans saved_out⟩
      next not_savein =>
        split
        next same =>
          subst same
          exact ⟨(update_of_ne out_not_in.symm ..).trans stdin,
            (update_of_ne out_not_out.symm ..).trans stdout,
            (update_of_ne different ..).trans saved_in, update_self ..⟩
        next not_saveout =>
          exact ⟨(update_of_ne (Ne.symm not_in) ..).trans stdin,
            (update_of_ne (Ne.symm not_out) ..).trans stdout,
            (update_of_ne (Ne.symm not_savein) ..).trans saved_in,
            (update_of_ne (Ne.symm not_saveout) ..).trans saved_out⟩

theorem Sees.dup {oldfd newfd : Int} (sees : Sees T savein saveout q)
    (apart : Apart savein saveout)
    (closed : slotOf savein saveout oldfd = .closed → T oldfd = none) :
    Sees (dupIn T oldfd newfd) savein saveout
      (q.dup (slotOf savein saveout oldfd) (slotOf savein saveout newfd)) := by
  have source := sees.get closed
  unfold dupIn Four.dup
  rw [source]
  cases q.get (slotOf savein saveout oldfd) with
  | none => exact sees
  | some stream => exact sees.set apart (some stream)

/-- The `pipe_t` names no other open file ids than the four. -/
def Pipe.OnlyFour (pipe : Pipe) (T : Int → Option Stream) (savein saveout : Int) : Prop :=
  ∀ fid, pipe.Names fid → slotOf savein saveout fid = .closed → T fid = none

theorem Sees.round (sees : Sees T savein saveout q) (apart : Apart savein saveout)
    (only : pipe.OnlyFour T savein saveout) :
    Sees (roundIn T pipe) savein saveout
      (q.round (slotOf savein saveout pipe.write) (slotOf savein saveout pipe.read)) := by
  have out : Sees (dupIn T pipe.write 1) savein saveout _ := sees.dup apart (only _ (.inr rfl))
  have written : Sees (update (dupIn T pipe.write 1) pipe.write none) savein saveout _ :=
    out.set apart none
  have inn : Sees (dupIn _ pipe.read 0) savein saveout _ := written.dup apart fun closed => ?_
  · exact inn.set apart none
  have not_out : pipe.read ≠ 1 := by
    rintro same
    rw [same, slotOf_stdout] at closed
    cases closed
  by_cases same : pipe.read = pipe.write
  · rw [same, update_self]
  · rw [update_of_ne same, dupIn_other not_out]
    exact only _ (.inl rfl) closed

theorem onlyFour_roundIn : pipe.OnlyFour (roundIn T pipe) savein saveout := by
  intro fid named closed
  refine roundIn_named ?_ named
  rintro rfl
  cases closed

theorem Rounds.all_fail {n : Nat} (rounds : Rounds T pipe (List.replicate n none) T')
    (sees : Sees T savein saveout q) (apart : Apart savein saveout)
    (only : pipe.OnlyFour T savein saveout) :
    Sees T' savein saveout ((Four.round (slotOf savein saveout pipe.write)
      (slotOf savein saveout pipe.read))^[n] q) := by
  induction n generalizing T q with
  | zero =>
    cases rounds
    exact sees
  | succ n ih =>
    rw [List.replicate_succ] at rounds
    cases rounds with
    | fails later => exact ih later (sees.round apart only) onlyFour_roundIn

/-- File ids that are not named are kept. -/
theorem Rounds.all_fail_kept {n : Nat} (rounds : Rounds T pipe (List.replicate n none) T')
    (not_in : fid ≠ 0) (not_out : fid ≠ 1) (other : ¬ pipe.Names fid) : T' fid = T fid := by
  induction n generalizing T with
  | zero =>
    cases rounds
    rfl
  | succ n ih =>
    rw [List.replicate_succ] at rounds
    cases rounds with
    | fails later => rw [ih later, roundIn_kept not_in not_out other]

theorem Sees.restore (sees : Sees T savein saveout q) (apart : Apart savein saveout) :
    Sees (restoreIn T savein saveout) savein saveout q.restore := by
  have out := slotOf_saveout apart
  have inn := slotOf_savein apart
  have stdout : Sees (dupIn T saveout 1) savein saveout _ := sees.dup apart (by simp [out])
  have first : Sees (update (dupIn T saveout 1) saveout none) savein saveout _ :=
    stdout.set apart none
  have stdin : Sees (dupIn _ savein 0) savein saveout _ := first.dup apart (by simp [inn])
  have second : Sees (restoreIn T savein saveout) savein saveout _ := stdin.set apart none
  rw [out, inn] at second
  exact second

end

/-! ### The file ids after the line -/

/-- The values in the `pipe_t` when the first `Pipe` of these fails do no harm: they
name no open file id but the standard ones, or the saved copies as long as there is
no pipe at all and the standard streams are still restored. -/
def Pipe.Harmless (pipe : Pipe) (T : Int → Option Stream) (savein saveout : Int)
    (outcomes : List (Option NewPipe)) : Prop :=
  pipe.Stale T ∧
    (¬ pipe.Names savein ∧ ¬ pipe.Names saveout ∨
      (∀ outcome ∈ outcomes, outcome = none) ∧
        ¬ Four.Spoils (slotOf savein saveout pipe.write) (slotOf savein saveout pipe.read)
          (T 0 = T 1) outcomes.length)

/-- The table with the saved copies. -/
def savedIn (T : Int → Option Stream) (savein saveout : Int) : Int → Option Stream :=
  update (update T savein (T 0)) saveout (T 1)

section
variable {T T' : Int → Option Stream} {savein saveout fid : Int} {pipe : Pipe}
  {outcomes rest : List (Option NewPipe)} {stdin stdout : Stream}

theorem savedIn_other (not_in : fid ≠ savein) (not_out : fid ≠ saveout) :
    savedIn T savein saveout fid = T fid := by
  rw [savedIn, update_of_ne not_out, update_of_ne not_in]

theorem savedIn_sees (apart : Apart savein saveout) (input : T 0 = some stdin)
    (output : T 1 = some stdout) :
    Sees (savedIn T savein saveout) savein saveout (.saved stdin stdout) := by
  refine ⟨?_, ?_, ?_, ?_⟩
  · rw [savedIn_other apart.in_not_in.symm apart.out_not_in.symm, input]
    rfl
  · rw [savedIn_other apart.in_not_out.symm apart.out_not_out.symm, output]
    rfl
  · rw [savedIn, update_of_ne apart.different, update_self, input]
    rfl
  · rw [savedIn, update_self, output]
    rfl

/-- At the end only the four file ids matter. -/
theorem restoreIn_other (not_in : fid ≠ 0) (not_out : fid ≠ 1) (not_savein : fid ≠ savein)
    (not_saveout : fid ≠ saveout) : restoreIn T savein saveout fid = T fid := by
  rw [restoreIn, update_of_ne not_savein, dupIn_other not_in, update_of_ne not_saveout,
    dupIn_other not_out]

theorem restoreIn_closed (apart : Apart savein saveout) (saved : fid = savein ∨ fid = saveout) :
    restoreIn T savein saveout fid = none := by
  rw [restoreIn]
  rcases saved with rfl | rfl
  · rw [update_self]
  · rw [update_of_ne apart.different.symm, dupIn_other apart.out_not_in, update_self]

/-- If the saved copies are kept, so is everything. -/
theorem restored_of_kept (apart : Apart savein saveout) (free_in : T savein = none)
    (free_out : T saveout = none) (input : T 0 = some stdin) (output : T 1 = some stdout)
    (kept : ∀ fid, fid ≠ 0 → fid ≠ 1 → T' fid = savedIn T savein saveout fid) :
    ∀ fid, restoreIn T' savein saveout fid = T fid := by
  intro fid
  have out : T' saveout = some stdout := by
    rw [kept _ apart.out_not_in apart.out_not_out, savedIn, update_self, output]
  have inn : T' savein = some stdin := by
    rw [kept _ apart.in_not_in apart.in_not_out, savedIn, update_of_ne apart.different, update_self,
      input]
  have first : dupIn T' saveout 1 = update T' 1 (some stdout) := dupIn_open out
  have second : dupIn (update (update T' 1 (some stdout)) saveout none) savein 0 =
      update (update (update T' 1 (some stdout)) saveout none) 0 (some stdin) := by
    apply dupIn_open
    rw [update_of_ne apart.different, update_of_ne apart.in_not_out, inn]
  by_cases saved : fid = savein ∨ fid = saveout
  · rw [restoreIn_closed apart saved]
    rcases saved with rfl | rfl
    · exact free_in.symm
    · exact free_out.symm
  · obtain ⟨not_savein, not_saveout⟩ := not_or.mp saved
    rw [restoreIn, first, second, update_of_ne not_savein]
    by_cases is_in : fid = 0
    · rw [is_in, update_self, input]
    · rw [update_of_ne is_in, update_of_ne not_saveout]
      by_cases is_out : fid = 1
      · rw [is_out, update_self, output]
      · rw [update_of_ne is_out, kept fid is_in is_out, savedIn_other not_savein not_saveout]

/-- If a saved copy is closed, its stream is not restored. -/
theorem not_restored_of_new (apart : Apart savein saveout) (input : T 0 = some stdin)
    (output : T 1 = some stdout)
    (news : NewStreams T' fun stream => stream = stdin ∨ stream = stdout)
    (closed : T' savein = none ∨ T' saveout = none) :
    ¬ ∀ fid, restoreIn T' savein saveout fid = T fid := by
  intro restored
  rcases closed with closed | closed
  · -- The standard input is the one that the last round has found.
    have source : update (dupIn T' saveout 1) saveout none savein = none := by
      rw [update_of_ne apart.different, dupIn_other apart.in_not_out, closed]
    have here := restored 0
    rw [restoreIn, dupIn_closed source, update_of_ne apart.in_not_in.symm,
      update_of_ne apart.out_not_in.symm, dupIn_other (by decide), input] at here
    exact news 0 stdin (.inl rfl) here (.inl rfl)
  · have source : dupIn T' saveout 1 = T' := dupIn_closed closed
    have here := restored 1
    rw [restoreIn, update_of_ne apart.in_not_out.symm, dupIn_other (by decide),
      update_of_ne apart.out_not_out.symm, source, output] at here
    exact news 1 stdout (.inr rfl) here (.inr rfl)

/-- The first round that fails closes what is named. -/
theorem Rounds.closes (rounds : Rounds T pipe (none :: rest) T') (named : pipe.Names fid)
    (not_in : fid ≠ 0) (not_out : fid ≠ 1) : T' fid = none := by
  cases rounds with
  | fails later => exact later.closed not_in not_out (roundIn_named not_in named)

/-- Without any pipe, what happens to the four file ids decides. -/
theorem restored_iff_four {n : Nat} {q : Four} (apart : Apart savein saveout)
    (free_in : T savein = none) (free_out : T saveout = none) (input : T 0 = some stdin)
    (output : T 1 = some stdout) (stale : pipe.Stale T) (some_round : n ≠ 0)
    (rounds : Rounds (savedIn T savein saveout) pipe (List.replicate n none) T')
    (sees : Sees (restoreIn T' savein saveout) savein saveout q) :
    (∀ fid, restoreIn T' savein saveout fid = T fid) ↔
      q.stdin = some stdin ∧ q.stdout = some stdout := by
  constructor
  · intro restored
    exact ⟨by rw [← sees.stdin, restored, input], by rw [← sees.stdout, restored, output]⟩
  · rintro ⟨is_in, is_out⟩ fid
    by_cases zero : fid = 0
    · rw [zero, sees.stdin, is_in, input]
    by_cases one : fid = 1
    · rw [one, sees.stdout, is_out, output]
    by_cases saved : fid = savein ∨ fid = saveout
    · rw [restoreIn_closed apart saved]
      rcases saved with rfl | rfl
      · exact free_in.symm
      · exact free_out.symm
    obtain ⟨not_savein, not_saveout⟩ := not_or.mp saved
    rw [restoreIn_other zero one not_savein not_saveout]
    by_cases named : pipe.Names fid
    · obtain ⟨n, rfl⟩ := Nat.exists_eq_succ_of_ne_zero some_round
      rw [List.replicate_succ] at rounds
      rw [rounds.closes named zero one, stale fid named zero one]
    · rw [rounds.all_fail_kept zero one named, savedIn_other not_savein not_saveout]

/-- **The rounds and the last one restore the file ids** if and only if the first
`Pipe` does not fail, or the values in the `pipe_t` do no harm. -/
theorem restored_iff (apart : Apart savein saveout) (free_in : T savein = none)
    (free_out : T saveout = none) (input : T 0 = some stdin) (output : T 1 = some stdout)
    (fresh : ∀ new, some new ∈ outcomes →
      ¬ (new.reader = stdin ∨ new.reader = stdout) ∧ ¬ (new.writer = stdin ∨ new.writer = stdout))
    (rounds : Rounds (savedIn T savein saveout) pipe outcomes T') :
    (∀ fid, restoreIn T' savein saveout fid = T fid) ↔
      ∀ failed, outcomes = none :: failed → pipe.Harmless T savein saveout outcomes := by
  by_cases fails : ∃ failed, outcomes = none :: failed
  · obtain ⟨failed, rfl⟩ := fails
    have only_case : (∀ others : List (Option NewPipe), none :: failed = none :: others →
        pipe.Harmless T savein saveout (none :: failed)) ↔
          pipe.Harmless T savein saveout (none :: failed) :=
      ⟨fun all => all failed rfl, fun harmless _ _ => harmless⟩
    rw [only_case]
    by_cases stale : pipe.Stale T
    · by_cases saved : pipe.Names savein ∨ pipe.Names saveout
      · -- A saved copy is closed in the first round.
        have closed : T' savein = none ∨ T' saveout = none := by
          rcases saved with named | named
          · exact .inl (rounds.closes named apart.in_not_in apart.in_not_out)
          · exact .inr (rounds.closes named apart.out_not_in apart.out_not_out)
        by_cases pipes : ∃ new, some new ∈ none :: failed
        · refine iff_of_false (not_restored_of_new apart input output
            (rounds.newStreams fresh pipes) closed) fun harmless => ?_
          obtain ⟨new, member⟩ := pipes
          rcases harmless.2 with ⟨not_in, not_out⟩ | ⟨all, -⟩
          · exact saved.elim not_in not_out
          · cases all _ member
        · have all : ∀ outcome ∈ none :: failed, outcome = none := by
            rintro (none | new) member
            · rfl
            · exact absurd ⟨new, member⟩ pipes
          have only : pipe.OnlyFour (savedIn T savein saveout) savein saveout := by
            intro fid named closed
            obtain ⟨not_in, not_out, not_savein, not_saveout⟩ := slotOf_closed.mp closed
            rw [savedIn_other not_savein not_saveout, stale fid named not_in not_out]
          have same := List.eq_replicate_of_mem all
          rw [same] at rounds
          have sees := (rounds.all_fail (savedIn_sees apart input output) apart only).restore apart
          have some_round : (none :: failed).length ≠ 0 := by simp
          rw [restored_iff_four apart free_in free_out input output stale some_round rounds sees,
            Four.restore_iff _ _ _ _ some_round]
          have streams : T 0 = T 1 ↔ stdin = stdout := by rw [input, output, Option.some.injEq]
          rw [Pipe.Harmless, streams]
          constructor
          · exact fun sound => ⟨stale, .inr ⟨all, sound⟩⟩
          · rintro ⟨-, ⟨not_in, not_out⟩ | ⟨-, sound⟩⟩
            · exact absurd saved (not_or.mpr ⟨not_in, not_out⟩)
            · exact sound
      · have harmless : pipe.Harmless T savein saveout (none :: failed) :=
          ⟨stale, .inl (not_or.mp saved)⟩
        refine ⟨fun _ => harmless, fun _ => restored_of_kept apart free_in free_out input output
          fun fid not_in not_out => rounds.kept (fun _ _ => ?_) not_in not_out⟩
        intro fid named not_in not_out
        rw [savedIn_other]
        · exact stale fid named not_in not_out
        · rintro rfl
          exact saved (.inl named)
        · rintro rfl
          exact saved (.inr named)
    · -- An open file id is closed, and it is not one that is restored.
      refine iff_of_false (fun restored => stale fun fid named not_in not_out => ?_) fun harmless =>
        stale harmless.1
      by_cases saved : fid = savein ∨ fid = saveout
      · rcases saved with rfl | rfl
        · exact free_in
        · exact free_out
      · obtain ⟨not_savein, not_saveout⟩ := not_or.mp saved
        rw [← restored, restoreIn_other not_in not_out not_savein not_saveout,
          rounds.closes named not_in not_out]
  · have succeeds : ∀ failed, outcomes ≠ none :: failed := fun failed same => fails ⟨failed, same⟩
    refine ⟨fun _ failed same => absurd same (succeeds failed), fun _ => ?_⟩
    exact restored_of_kept apart free_in free_out input output fun fid not_in not_out =>
      rounds.kept (fun failed same => absurd same (succeeds failed)) not_in not_out

end

/-- The free file ids, the first ones first. -/
def Shell.freeFids (sh : Shell) : List Nat :=
  (List.range maxFileid).filter fun fid => sh.FIDT fid = none

section
variable {sh sh' : Shell} {argv : List String} {garbage : Pipe} {nulls : Stream × Stream}
  {outcomes : List (Option NewPipe)} {savein saveout : Nat} {rest : List Nat}
  {stdin stdout : Stream}

theorem Shell.freeFid_eq (free : sh.freeFids = savein :: rest) : sh.freeFid = some savein := by
  rw [Shell.freeFid, ← List.head?_filter]
  exact congrArg List.head? free

/-- Tables are the same if they are so on the file ids there are. -/
theorem Shell.same_fids : (∀ fid < maxFileid, sh'.FIDT fid = sh.FIDT fid) ↔
    ∀ fid, sh'.getFcb fid = sh.getFcb fid := by
  constructor
  · intro same fid
    by_cases outside : fid < 0 ∨ (maxFileid : Int) ≤ fid
    · rw [Shell.getFcb_outside outside, Shell.getFcb_outside outside]
    · obtain ⟨n, rfl⟩ := Int.eq_ofNat_of_zero_le (by omega : 0 ≤ fid)
      have small : n < maxFileid := by omega
      rw [Shell.getFcb_fid _ small, Shell.getFcb_fid _ small, same n small]
  · intro same fid small
    rw [← Shell.getFcb_fid _ small, ← Shell.getFcb_fid _ small, same]

theorem Shell.mem_freeFids {fid : Nat} : fid ∈ sh.freeFids ↔ fid < maxFileid ∧ sh.FIDT fid = none := by
  simp [Shell.freeFids]

theorem Shell.getFcb_dup2_null {sh₁ : Shell} {fid : Nat} {null stream : Stream}
    (opened : sh₁.getFcb = update sh.getFcb savein (some null)) (free : savein < maxFileid)
    (small : fid < maxFileid) (used : sh.FIDT fid = some stream) (other : fid ≠ savein) :
    (sh₁.dup2 fid savein).getFcb = update sh.getFcb savein (some stream) := by
  have apart : (fid : Int) ≠ savein := fun same => other (Int.ofNat_inj.mp same)
  have source : sh₁.getFcb fid = some stream := by
    rw [opened, update_of_ne apart, Shell.getFcb_fid sh small, used]
  rw [Shell.getFcb_dup2 _ _ (by omega) (by omega), dupIn_open source, opened, update_idem]

/-- `savefid` takes the first free file id. -/
theorem savefid_eq {fid : Nat} {stream : Stream} (null : Stream) (free : sh.freeFids = savein :: rest)
    (small : fid < maxFileid) (used : sh.FIDT fid = some stream) :
    ∃ sh' : Shell, sh.savefid fid null = some ((savein : Int), sh') ∧
      sh'.getFcb = update sh.getFcb savein (some stream) ∧ sh'.freeFids = rest := by
  obtain ⟨inside, closed⟩ := Shell.mem_freeFids.mp (free ▸ List.mem_cons_self)
  have other : fid ≠ savein := by
    rintro rfl
    cases used.symm.trans closed
  have opened : ((sh.call .openNull).setFid (savein : Int) (some null)).getFcb =
      update sh.getFcb savein (some null) := by
    rw [Shell.getFcb_setFid (by omega) (by omega), Shell.getFcb_call]
  have table := Shell.getFcb_dup2_null opened inside small used other
  refine ⟨_, ?_, table, ?_⟩
  · rw [Shell.savefid, Shell.openNull, Shell.freeFid_eq free]
    rfl
  · have once : (savein :: rest).Nodup := free ▸ List.nodup_range.filter _
    have others : rest.filter (fun x => x ≠ savein) = rest := by
      refine List.filter_eq_self.mpr fun x member => decide_eq_true ?_
      rintro rfl
      exact (List.nodup_cons.mp once).1 member
    rw [← others, ← List.filter_cons_of_neg (a := savein) (by simp), ← free, Shell.freeFids,
      Shell.freeFids, List.filter_filter]
    apply List.filter_congr
    intro x member
    have x_small : x < maxFileid := List.mem_range.mp member
    rw [← Shell.getFcb_fid _ x_small, table, ← Shell.getFcb_fid sh x_small]
    by_cases same : x = savein
    · simp [same]
    · have apart : (x : Int) ≠ savein := fun eq => same (Int.ofNat_inj.mp eq)
      simp [same]

theorem apart_of_free (free : sh.freeFids = savein :: saveout :: rest)
    (input : sh.FIDT 0 = some stdin) (output : sh.FIDT 1 = some stdout) :
    Apart savein saveout := by
  have first := (Shell.mem_freeFids.mp (free ▸ List.mem_cons_self)).2
  have second := (Shell.mem_freeFids.mp (free ▸ List.mem_cons_of_mem _ List.mem_cons_self)).2
  have once : (savein :: saveout :: rest).Nodup := free ▸ List.nodup_range.filter _
  refine ⟨?_, ?_, ?_, ?_, fun same => ?_⟩
  · rintro same
    obtain rfl : savein = 0 := Int.ofNat_inj.mp same
    cases input.symm.trans first
  · rintro same
    obtain rfl : savein = 1 := Int.ofNat_inj.mp same
    cases output.symm.trans first
  · rintro same
    obtain rfl : saveout = 0 := Int.ofNat_inj.mp same
    cases input.symm.trans second
  · rintro same
    obtain rfl : saveout = 1 := Int.ofNat_inj.mp same
    cases output.symm.trans second
  · obtain rfl : savein = saveout := Int.ofNat_inj.mp same
    simp at once

/-- The two saved copies are in the table when the rounds begin. -/
theorem construct_rounds {first : String × List String} {fragments : List (String × List String)}
    (ran : construct sh garbage nulls outcomes (first :: fragments) = some sh')
    (free : sh.freeFids = savein :: saveout :: rest) (input : sh.FIDT 0 = some stdin)
    (output : sh.FIDT 1 = some stdout) :
    ∃ T, Rounds (savedIn sh.getFcb savein saveout) garbage (outcomes.take fragments.length) T ∧
      sh'.getFcb = restoreIn T savein saveout := by
  have apart := apart_of_free free input output
  have input' : sh.getFcb 0 = some stdin := input
  have output' : sh.getFcb 1 = some stdout := output
  obtain ⟨sh₁, saved_in, table₁, free₁⟩ :=
    savefid_eq nulls.1 free (by decide : 0 < maxFileid) input
  have output₁ : sh₁.FIDT 1 = some stdout := by
    change sh₁.getFcb 1 = some stdout
    rw [table₁, update_of_ne apart.in_not_out.symm, output']
  obtain ⟨sh₂, saved_out, table₂, -⟩ :=
    savefid_eq nulls.2 free₁ (by decide : 1 < maxFileid) output₁
  have saved_in : sh.savefid 0 nulls.1 = some (↑savein, sh₁) := saved_in
  have saved_out : sh₁.savefid 1 nulls.2 = some (↑saveout, sh₂) := saved_out
  rw [construct, saved_in, Option.bind_some] at ran
  dsimp only at ran
  rw [saved_out, Option.bind_some] at ran
  obtain ⟨-, T, rounds, restored⟩ := pipelineLoop_rounds ran
  refine ⟨T, ?_, restored⟩
  rw [savedIn, input', output', ← table₁, ← table₂]
  exact rounds

/-- Each bar ends a fragment. -/
theorem splitLoop_frag {i : Nat} {f f' : Fragments} (ran : splitLoop i f argv = some f') :
    f'.frag = f.frag + argv.count "|" := by
  induction argv generalizing i f with
  | nil =>
    cases ran
    rfl
  | cons word argv ih =>
    obtain ⟨middle, round, ran⟩ := Option.bind_eq_some_iff.mp ran
    rw [ih ran, List.count_cons]
    unfold splitWord at round
    by_cases bar : word = "|"
    · rw [if_neg (not_not.mpr bar), Option.map_eq_some_iff] at round
      obtain ⟨Vargc, -, rfl⟩ := round
      simp only [bar, beq_self_eq_true, if_true]
      omega
    · rw [if_pos bar] at round
      obtain ⟨n, -, Vargc, -, round⟩ := by
        simpa only [Option.bind_eq_some_iff] using round
      have same : middle.frag = f.frag := by
        split at round
        · obtain ⟨Vargv, -, rfl⟩ := Option.map_eq_some_iff.mp round
          rfl
        · cases round
          rfl
      simp [same, bar]

theorem executions_length {f : Fragments} {comd : Table Nat} {left : Nat}
    {fragments : List (String × List String)}
    (ran : executions argv f comd left = some fragments) : fragments.length = left := by
  induction left generalizing fragments with
  | zero =>
    cases ran
    rfl
  | succ left ih =>
    obtain ⟨first, -, ran⟩ := Option.bind_eq_some_iff.mp ran
    obtain ⟨others, later, rfl⟩ := Option.map_eq_some_iff.mp ran
    rw [List.length_cons, ih later]

end

/-- **A command line leaves the file ids as they were**, if two are free for the
saved copies, if and only if the first `Pipe` of the line does not fail or the
values do no harm that it leaves in the uninitialised `pipe_t`. -/
theorem files_kept_iff {sh sh' : Shell} {argv : List String} {garbage : Pipe}
    {nulls : Stream × Stream} {outcomes : List (Option NewPipe)} {savein saveout : Nat}
    {rest : List Nat} {stdin stdout : Stream}
    (accepted : processLine sh argv garbage nulls outcomes = some (sh', .ok ()))
    (input : sh.FIDT 0 = some stdin) (output : sh.FIDT 1 = some stdout)
    (free : sh.freeFids = savein :: saveout :: rest)
    (fresh : ∀ new, some new ∈ outcomes → ∀ fid, sh.FIDT fid ≠ some new.reader ∧
      sh.FIDT fid ≠ some new.writer) :
    (∀ fid < maxFileid, sh'.FIDT fid = sh.FIDT fid) ↔
      ∀ failed, outcomes.take (argv.count "|") = none :: failed →
        garbage.Harmless sh.getFcb savein saveout (outcomes.take (argv.count "|")) := by
  obtain ⟨f, splits, accepted⟩ := Option.bind_eq_some_iff.mp accepted
  obtain ⟨checked, checks, accepted⟩ := Option.bind_eq_some_iff.mp accepted
  cases checked with
  | error printed => cases accepted
  | ok comd =>
    obtain ⟨fragments, executes, accepted⟩ := Option.bind_eq_some_iff.mp accepted
    obtain ⟨sh'', constructs, same⟩ := Option.map_eq_some_iff.mp accepted
    cases same
    have count := executions_length executes
    obtain ⟨Vargc, -, splits⟩ := Option.bind_eq_some_iff.mp splits
    obtain ⟨f', ran, rfl⟩ := Option.map_eq_some_iff.mp splits
    have bars := splitLoop_frag ran
    cases fragments with
    | nil => cases count
    | cons first fragments =>
      have length : fragments.length = argv.count "|" := by
        dsimp only at bars count
        rw [List.length_cons] at count
        omega
      obtain ⟨T, rounds, restored⟩ := construct_rounds constructs free input output
      rw [length] at rounds
      have view : (∀ fid < maxFileid, sh'.FIDT fid = sh.FIDT fid) ↔
          ∀ fid, restoreIn T savein saveout fid = sh.getFcb fid := by
        rw [← restored]
        exact Shell.same_fids
      rw [view]
      refine restored_iff (apart_of_free free input output) ?_ ?_ input output ?_ rounds
      · obtain ⟨small, unused⟩ := Shell.mem_freeFids.mp (free ▸ List.mem_cons_self)
        rw [Shell.getFcb_fid sh small, unused]
      · obtain ⟨small, unused⟩ :=
          Shell.mem_freeFids.mp (free ▸ List.mem_cons_of_mem _ List.mem_cons_self)
        rw [Shell.getFcb_fid sh small, unused]
      · intro new member
        have here := fresh new (List.mem_of_mem_take member)
        refine ⟨?_, ?_⟩
        · rintro (same | same)
          · exact (here 0).1 (by rw [input, same])
          · exact (here 1).1 (by rw [output, same])
        · rintro (same | same)
          · exact (here 0).2 (by rw [input, same])
          · exact (here 1).2 (by rw [output, same])

/-- A shell with three open file ids. -/
def threeOpen : Shell where
  FIDT fid := if fid = 0 then some 5 else if fid = 1 then some 6 else if fid = 2 then some 7 else none
  calls := []

/-- `ls | wc | cap` with a `Pipe` that works and one that does not. -/
theorem files_kept_iff_two : ∃ sh', processLine threeOpen ["ls", "|", "wc", "|", "cap"] ⟨2, 9⟩ (8, 9)
      [some ⟨5, 6, 20, 21⟩, none] = some (sh', .ok ()) ∧
    ∀ fid < maxFileid, sh'.FIDT fid = threeOpen.FIDT fid := by
  obtain ⟨sh', accepted⟩ : ∃ sh', processLine threeOpen ["ls", "|", "wc", "|", "cap"] ⟨2, 9⟩ (8, 9)
      [some ⟨5, 6, 20, 21⟩, none] = some (sh', .ok ()) := ⟨_, rfl⟩
  have free : threeOpen.freeFids = [3, 4, 5, 6, 7, 8, 9, 10, 11, 12, 13, 14, 15] := rfl
  refine ⟨sh', accepted, (files_kept_iff accepted rfl rfl free fun new member fid => ?_).mpr
    fun failed same => ?_⟩
  · obtain rfl : new = ⟨5, 6, 20, 21⟩ := by simpa using member
    simp only [threeOpen]
    grind
  · cases same

/-- `ls | wc` when `Pipe` fails and the `pipe_t` happens to have the number of an
open file id: it is closed. -/
theorem file_closed : ∃ sh', processLine threeOpen ["ls", "|", "wc"] ⟨9, 2⟩ (8, 9) [none] =
      some (sh', .ok ()) ∧ threeOpen.FIDT 2 = some 7 ∧ sh'.FIDT 2 = none :=
  ⟨_, rfl, rfl, rfl⟩

end TinyOs.ShellLine
