import TinyOs.Library.Machine
import Mathlib.Data.List.Infix

/-! The terminal proxies of `unit_testing.c`. A test hands patterns to two
daemons: one compares what the terminal shows with the `expect`ed patterns, the
other types those of `sendme`. One step is one access to the FIFO or one section
under the mutex of the daemon. -/
namespace TinyOs.TermProxy
open Library

abbrev Byte := BitVec 8

/-- A string without its NUL. -/
abbrev Pattern := List Byte

/-! ### The daemons -/

/-- The monitor of a `proxy_daemon`, with all patterns added so far. -/
structure Daemon where
  pattern : List Pattern
  complete : Bool
  added : List Pattern

/-- `term_proxy_daemon_add`, with its assertion. -/
def Daemon.add (this : Daemon) (pattern : Pattern) : Option Daemon :=
  if this.complete then none
  else some { this with pattern := this.pattern ++ [pattern], added := this.added ++ [pattern] }

/-- `term_proxy_daemon_close`, up to the join. -/
def Daemon.close (this : Daemon) : Daemon := { this with complete := true }

/-- `term_proxy_daemon_get`: the next pattern, or `none` twice if there will be no
more. Otherwise the daemon waits. -/
def Daemon.get (this : Daemon) : Option (Option Pattern × Daemon) :=
  match this.pattern with
  | pattern :: rest => some (some pattern, { this with pattern := rest })
  | [] => if this.complete then some (none, this) else none

/-- All that has been asked for. -/
def Daemon.wanted (this : Daemon) : List Byte := this.added.flatten

theorem Daemon.add_cases {this next : Daemon} {pattern : Pattern}
    (added : this.add pattern = some next) :
    this.complete = false ∧ next.complete = false ∧ next.pattern = this.pattern ++ [pattern] ∧
      next.wanted = this.wanted ++ pattern := by
  unfold add at added
  split at added
  next => cases added
  next going =>
    cases added
    exact ⟨Bool.not_eq_true _ ▸ going, Bool.not_eq_true _ ▸ going, rfl, by simp [wanted]⟩

theorem Daemon.get_cases {this next : Daemon} {pattern : Option Pattern}
    (got : this.get = some (pattern, next)) :
    (∃ first rest, this.pattern = first :: rest ∧ pattern = some first ∧
      next = { this with pattern := rest }) ∨
    this.pattern = [] ∧ this.complete = true ∧ pattern = none ∧ next = this := by
  unfold get at got
  split at got
  next first rest queue =>
    cases got
    exact .inl ⟨first, rest, queue, rfl, rfl⟩
  next queue =>
    split at got
    next complete =>
      cases got
      exact .inr ⟨queue, complete, rfl, rfl⟩
    next => cases got

/-! ### The console -/

/-- The variables of `con_proc`. -/
structure ConVars where
  /-- What is left of the pattern. -/
  pat : Pattern
  complete : Bool
  deriving DecidableEq, Repr

inductive ConPoint where
  /-- In `term_proxy_daemon_get`. -/
  | get
  /-- `while(plen > 0)`, and the test for the timeout. -/
  | loop (v : ConVars)
  | poll (v : ConVars)
  /-- Behind `poll`. -/
  | polled (v : ConVars) (haveData : Bool)
  | read (v : ConVars)
  /-- The daemon has returned. -/
  | closed
  deriving DecidableEq, Repr

structure Con where
  daemon : Daemon
  point : ConPoint
  fifo : List Byte
  /-- `FLAG_FAILURE`. -/
  failure : Bool
  /-- History: what the terminal has shown, and what the daemon has read of it. -/
  output : List Byte
  consumed : List Byte
  /-- History: a pattern was given up while there was something to read. -/
  hasty : Bool

inductive ConLabel where
  | expect (pattern : Pattern)
  | close
  /-- The VM writes to the terminal. -/
  | show (bytes : List Byte)
  /-- The daemon reads up to so many bytes. -/
  | read (count : Nat)
  /-- Any other step of the daemon. -/
  | daemon

/-- `ASSERT_MSG(plen==0, ..)` at the end of `con_proc`. -/
def Con.verdict (s : Con) (plen : Nat) (hasty : Bool) : Con :=
  { s with failure := s.failure || plen != 0, hasty := s.hasty || hasty, point := .get }

def conDaemon (s : Con) : Option Con :=
  match s.point with
  | .get => do
      let (pattern, daemon) ← s.daemon.get
      match pattern with
      | some pattern => some { s with daemon := daemon, point := .loop ⟨pattern, false⟩ }
      | none => some { s with daemon := daemon, point := .closed }
  | .loop v =>
      if v.pat = [] then some (s.verdict 0 false)
      else some { s with point := .poll { v with complete := v.complete || s.daemon.complete } }
  | .poll v => some { s with point := .polled v (s.fifo != []) }
  | .polled v haveData =>
      if haveData then some { s with point := .read v }
      else if v.complete || s.daemon.complete then some (s.verdict v.pat.length (s.fifo != []))
      else some { s with point := .loop v }
  | .read _ | .closed => none

def conStep (s : Con) : ConLabel → Option Con
  | .expect pattern => (s.daemon.add pattern).map fun daemon => { s with daemon := daemon }
  | .close => some { s with daemon := s.daemon.close }
  | .show bytes =>
      if s.daemon.complete then none
      else some { s with fifo := s.fifo ++ bytes, output := s.output ++ bytes }
  | .read count =>
      match s.point with
      | .read v =>
        if s.fifo = [] then some { s with point := .loop v }
        else if 0 < count ∧ count ≤ v.pat.length ∧ count ≤ 1024 ∧ count ≤ s.fifo.length then
          let coninput := s.fifo.take count
          let s := { s with fifo := s.fifo.drop count, consumed := s.consumed ++ coninput }
          if coninput = v.pat.take count then
            some { s with point := .loop { v with pat := v.pat.drop count } }
          else some (s.verdict v.pat.length false)
        else none
      | _ => none
  | .daemon => conDaemon s

def conMachine : Machine Con ConLabel where
  initial s := s = ⟨⟨[], false, []⟩, .get, [], false, [], [], false⟩
  step := conStep

/-! ### The keyboard -/

inductive KbdPoint where
  | get
  /-- `while(*pat != '\0')`, with what is left of the pattern. -/
  | loop (pat : Pattern)
  /-- The loop that polls. -/
  | poll (pat : Pattern)
  /-- `int oldcomplete = ..`. -/
  | save (pat : Pattern)
  | write (pat : Pattern) (oldcomplete : Bool)
  | closed
  deriving DecidableEq, Repr

structure Kbd where
  daemon : Daemon
  point : KbdPoint
  /-- What has been typed and not read, and how much fits. -/
  fifo : List Byte
  room : Nat
  failure : Bool
  /-- History: what the VM has read. -/
  received : List Byte

inductive KbdLabel where
  | sendme (pattern : Pattern)
  | close
  /-- The VM reads from the terminal. -/
  | read (count : Nat)
  /-- `poll` returns, with `POLLOUT` or after its timeout. -/
  | poll (ready : Bool)
  /-- `write` takes so many bytes. -/
  | write (count : Nat)
  /-- `write` fails with `EAGAIN`. -/
  | again
  | daemon

/-- `ASSERT_MSG(*pat=='\0', ..)` at the end of `kbd_proc`. -/
def Kbd.verdict (s : Kbd) (pat : Pattern) : Kbd :=
  { s with failure := s.failure || pat != [], point := .get }

def kbdDaemon (s : Kbd) : Option Kbd :=
  match s.point with
  | .get => do
      let (pattern, daemon) ← s.daemon.get
      match pattern with
      | some pattern => some { s with daemon := daemon, point := .loop pattern }
      | none => some { s with daemon := daemon, point := .closed }
  | .loop pat => if pat = [] then some (s.verdict pat) else some { s with point := .poll pat }
  | .poll pat => if s.daemon.complete then some { s with point := .save pat } else none
  | .save pat => some { s with point := .write pat s.daemon.complete }
  | .write pat _ => if pat = [] then some { s with point := .loop pat } else none
  | .closed => none

def kbdStep (s : Kbd) : KbdLabel → Option Kbd
  | .sendme pattern => (s.daemon.add pattern).map fun daemon => { s with daemon := daemon }
  | .close => some { s with daemon := s.daemon.close }
  | .read count =>
      if s.daemon.complete then none
      else some
        { s with
          fifo := s.fifo.drop count
          room := s.room + min count s.fifo.length
          received := s.received ++ s.fifo.take count }
  | .poll ready =>
      match s.point with
      | .poll pat =>
        if s.daemon.complete then none
        else some { s with point := if ready then .save pat else .poll pat }
      | _ => none
  | .write count =>
      match s.point with
      | .write pat oldcomplete =>
        if 0 < count ∧ count ≤ pat.length ∧ count ≤ s.room then some
          { s with
            fifo := s.fifo ++ pat.take count
            room := s.room - count
            point := .write (pat.drop count) oldcomplete }
        else none
      | _ => none
  | .again =>
      match s.point with
      | .write pat oldcomplete =>
        if s.room < pat.length then
          if oldcomplete then some (s.verdict pat) else some { s with point := .loop pat }
        else none
      | _ => none
  | .daemon => kbdDaemon s

def kbdMachine (room : Nat) : Machine Kbd KbdLabel where
  initial s := s = ⟨⟨[], false, []⟩, .get, [], room, false, []⟩
  step := kbdStep

/-! ### What `expect` decides -/

/-- Neither stream continues the other. -/
def Apart (shown wanted : List Byte) : Prop := ¬ shown <+: wanted ∧ ¬ wanted <+: shown

theorem Apart.append {shown wanted : List Byte} (apart : Apart shown wanted) (a b : List Byte) :
    Apart (shown ++ a) (wanted ++ b) := by
  constructor
  · intro continues
    have shown_le := (List.prefix_append shown a).trans continues
    rcases List.prefix_or_prefix_of_prefix shown_le (List.prefix_append wanted b) with le | le
    · exact apart.1 le
    · exact apart.2 le
  · intro continues
    have wanted_le := (List.prefix_append wanted b).trans continues
    rcases List.prefix_or_prefix_of_prefix wanted_le (List.prefix_append shown a) with le | le
    · exact apart.2 le
    · exact apart.1 le

/-- Streams that differ in some part are apart. -/
theorem apart_of_ne {common a b c d : List Byte} (length : a.length = b.length) (differ : a ≠ b) :
    Apart (common ++ a ++ c) (common ++ b ++ d) := by
  constructor
  · intro continues
    have first := (List.prefix_append (common ++ a) c).trans continues
    rw [List.append_assoc, List.prefix_append_right_inj] at first
    exact differ (List.prefix_of_prefix_length_le first (List.prefix_append b d)
      length.le |>.eq_of_length length)
  · intro continues
    have first := (List.prefix_append (common ++ b) d).trans continues
    rw [List.append_assoc, List.prefix_append_right_inj] at first
    exact differ (List.prefix_of_prefix_length_le first (List.prefix_append a c)
      length.ge |>.eq_of_length length.symm).symm

namespace Con

/-- What is left of the pattern at hand. -/
def pending (s : Con) : Pattern :=
  match s.point with
  | .get | .closed => []
  | .loop v | .poll v | .polled v _ | .read v => v.pat

/-- The daemon knows of the completion. -/
def knows (s : Con) : Bool :=
  match s.point with
  | .get | .closed => false
  | .loop v | .poll v | .polled v _ | .read v => v.complete

/-- The output is not what was expected, and will not become it. -/
def Wrong (s : Con) : Prop :=
  Apart s.output s.daemon.wanted ∨
    s.daemon.complete = true ∧ s.output.length < s.daemon.wanted.length

structure Inv (s : Con) : Prop where
  stream : s.output = s.consumed ++ s.fifo
  matched : s.failure = false →
    s.consumed ++ s.pending ++ s.daemon.pattern.flatten = s.daemon.wanted
  wrong : s.failure = true → s.hasty = false → s.Wrong
  knows : s.knows = true → s.daemon.complete = true
  busy : ∀ v, s.point = .poll v ∨ (∃ haveData, s.point = .polled v haveData) ∨ s.point = .read v →
    v.pat ≠ []
  closed : s.point = .closed → s.daemon.complete = true ∧ s.daemon.pattern = []

variable {s t : Con}

/-- A pattern is given up, or all of it has been seen. -/
theorem Inv.verdict (inv : Inv s) {plen : Nat} {hasty : Bool} (length : s.pending.length = plen)
    (wrong : plen ≠ 0 → s.failure = false → hasty = false → s.Wrong) :
    Inv (s.verdict plen hasty) := by
  constructor
  case stream => exact inv.stream
  case matched =>
    intro fine
    simp only [Con.verdict, Bool.or_eq_false_iff, bne_eq_false_iff_eq] at fine
    have matched := inv.matched fine.1
    rw [List.eq_nil_of_length_eq_zero (length.trans fine.2)] at matched
    exact matched
  case wrong =>
    intro failed careful
    simp only [Con.verdict, Bool.or_eq_true, bne_iff_ne, Bool.or_eq_false_iff] at failed careful
    cases before : s.failure
    case true => exact inv.wrong before careful.1
    case false =>
      rw [before] at failed
      exact wrong (failed.resolve_left nofun) before careful.2
  case knows => exact nofun
  case busy =>
    rintro v (same | ⟨_, same⟩ | same) <;> cases same
  case closed => exact nofun

/-- The daemon goes on with its pattern. -/
theorem Inv.move (inv : Inv s) {point : ConPoint}
    (pending : pending { s with point := point } = s.pending)
    (knows : Con.knows { s with point := point } = true → s.daemon.complete = true)
    (busy : ∀ v, point = .poll v ∨ (∃ haveData, point = .polled v haveData) ∨ point = .read v →
      v.pat ≠ [])
    (running : point ≠ .closed) : Inv { s with point := point } where
  stream := inv.stream
  matched fine := pending ▸ inv.matched fine
  wrong := inv.wrong
  knows := knows
  busy := busy
  closed same := absurd same running

theorem Inv.daemon (inv : Inv s) (moved : conDaemon s = some t) : Inv t := by
  have stream := inv.stream
  have matched := inv.matched
  have knows := inv.knows
  unfold conDaemon at moved
  unfold Con.pending at matched
  unfold Con.knows at knows
  cases here : s.point <;> simp only [here] at moved matched knows
  case get =>
    obtain ⟨⟨pattern, daemon⟩, got, moved⟩ := Option.bind_eq_some_iff.mp moved
    rcases Daemon.get_cases got with ⟨first, rest, queue, rfl, rfl⟩ | ⟨queue, complete, rfl, rfl⟩
    · cases moved
      constructor
      case stream => exact stream
      case matched =>
        intro fine
        have matched := matched fine
        rw [queue, List.flatten_cons, List.append_nil, ← List.append_assoc] at matched
        exact matched
      case wrong => exact inv.wrong
      case knows => exact nofun
      case busy => rintro v (same | ⟨_, same⟩ | same) <;> cases same
      case closed => exact nofun
    · cases moved
      constructor
      case stream => exact stream
      case matched => exact matched
      case wrong => exact inv.wrong
      case knows => exact nofun
      case busy => rintro v (same | ⟨_, same⟩ | same) <;> cases same
      case closed => exact fun _ => ⟨complete, queue⟩
  case loop v =>
    split at moved
    next done =>
      cases moved
      exact inv.verdict (by simp [Con.pending, here, done]) fun wrong => absurd rfl wrong
    next more =>
      cases moved
      refine inv.move (by simp [Con.pending, here]) ?_ ?_ nofun
      · intro known
        rcases Bool.or_eq_true _ _ ▸ known with before | now
        · exact knows before
        · exact now
      · rintro w (same | ⟨_, same⟩ | same) <;> cases same
        exact more
  case poll v =>
    have more := inv.busy v (.inl here)
    cases moved
    refine inv.move (by simp [Con.pending, here]) knows ?_ nofun
    rintro w (same | ⟨_, same⟩ | same) <;> cases same
    exact more
  case polled v haveData =>
    have more := inv.busy v (.inr (.inl ⟨haveData, here⟩))
    split at moved
    next =>
      cases moved
      refine inv.move (by simp [Con.pending, here]) knows ?_ nofun
      rintro w (same | ⟨_, same⟩ | same) <;> cases same
      exact more
    next =>
      split at moved
      next finished =>
        have complete : s.daemon.complete = true := by
          rcases Bool.or_eq_true _ _ ▸ finished with before | now
          · exact knows before
          · exact now
        cases moved
        refine inv.verdict (by simp [Con.pending, here]) fun _ fine careful => ?_
        -- The output has been read to its end, and some of the pattern is left.
        rw [bne_eq_false_iff_eq] at careful
        refine .inr ⟨complete, ?_⟩
        rw [stream, careful, ← matched fine]
        have positive := List.length_pos_of_ne_nil more
        simp only [List.length_append, List.length_nil]
        omega
      next =>
        cases moved
        refine inv.move (by simp [Con.pending, here]) knows ?_ nofun
        rintro w (same | ⟨_, same⟩ | same) <;> cases same
  case read => cases moved
  case closed => cases moved

theorem Inv.read (inv : Inv s) {count : Nat} (moved : conStep s (.read count) = some t) :
    Inv t := by
  have stream := inv.stream
  have matched := inv.matched
  unfold conStep at moved
  cases here : s.point <;> simp only [here] at moved <;> try cases moved
  case read v =>
    have more := inv.busy v (.inr (.inr here))
    have knows := inv.knows
    unfold Con.pending at matched
    unfold Con.knows at knows
    simp only [here] at matched knows
    split at moved
    next =>
      cases moved
      refine inv.move (by simp [Con.pending, here]) knows ?_ nofun
      rintro w (same | ⟨_, same⟩ | same) <;> cases same
    next =>
      split at moved
      next bounds =>
        obtain ⟨positive, within, -, there⟩ := bounds
        have parts : s.output = s.consumed ++ s.fifo.take count ++ s.fifo.drop count := by
          rw [stream, List.append_assoc, List.take_append_drop]
        split at moved
        next same =>
          cases moved
          constructor
          case stream => exact parts
          case matched =>
            intro fine
            change s.consumed ++ s.fifo.take count ++ v.pat.drop count ++ _ = _
            rw [same, List.append_assoc s.consumed, List.take_append_drop]
            exact matched fine
          case wrong => exact inv.wrong
          case knows => exact knows
          case busy => rintro w (same | ⟨_, same⟩ | same) <;> cases same
          case closed => exact nofun
        next differ =>
          cases moved
          constructor
          case stream => exact parts
          case matched =>
            intro fine
            simp [Con.verdict, more] at fine
          case wrong =>
            intro _ careful
            rw [Con.verdict, Bool.or_false] at careful
            cases before : s.failure
            case true => exact inv.wrong before careful
            case false =>
              have wanted : s.daemon.wanted = s.consumed ++ v.pat.take count ++
                  (v.pat.drop count ++ s.daemon.pattern.flatten) := by
                rw [← matched before]
                simp only [List.append_assoc]
                rw [← List.append_assoc (v.pat.take count), List.take_append_drop]
              have length : (s.fifo.take count).length = (v.pat.take count).length := by
                rw [List.length_take, List.length_take]
                omega
              refine .inl ?_
              change Apart s.output s.daemon.wanted
              rw [parts, wanted]
              exact apart_of_ne length differ
          case knows => exact nofun
          case busy => rintro w (same | ⟨_, same⟩ | same) <;> cases same
          case closed => exact nofun
      next => cases moved

theorem Inv.step {label : ConLabel} (inv : Inv s) (moved : conStep s label = some t) : Inv t := by
  cases label with
  | expect pattern =>
    obtain ⟨daemon, added, rfl⟩ := Option.map_eq_some_iff.mp moved
    obtain ⟨going, goes, queue, wanted⟩ := Daemon.add_cases added
    constructor
    case stream => exact inv.stream
    case matched =>
      intro fine
      rw [wanted, queue, ← inv.matched fine]
      simp [Con.pending]
    case wrong =>
      intro failed careful
      rcases inv.wrong failed careful with apart | ⟨complete, -⟩
      · refine .inl ?_
        change Apart s.output daemon.wanted
        rw [wanted]
        exact List.append_nil s.output ▸ apart.append [] pattern
      · cases complete.symm.trans going
    case knows => exact fun known => nomatch (inv.knows known).symm.trans going
    case busy => exact inv.busy
    case closed => exact fun same => nomatch (inv.closed same).1.symm.trans going
  | close =>
    cases moved
    constructor
    case stream => exact inv.stream
    case matched => exact inv.matched
    case wrong =>
      intro failed careful
      exact (inv.wrong failed careful).imp id fun short => ⟨rfl, short.2⟩
    case knows => exact fun _ => rfl
    case busy => exact inv.busy
    case closed => exact fun same => ⟨rfl, (inv.closed same).2⟩
  | «show» bytes =>
    simp only [conStep] at moved
    split at moved
    next => cases moved
    next open_ =>
      cases moved
      constructor
      case stream =>
        change s.output ++ bytes = s.consumed ++ (s.fifo ++ bytes)
        rw [inv.stream, List.append_assoc]
      case matched => exact inv.matched
      case wrong =>
        intro failed careful
        rcases inv.wrong failed careful with apart | ⟨complete, -⟩
        · exact .inl (List.append_nil s.daemon.wanted ▸ apart.append bytes [])
        · exact absurd complete open_
      case knows => exact inv.knows
      case busy => exact inv.busy
      case closed => exact fun same => absurd (inv.closed same).1 open_
  | read count => exact inv.read moved
  | daemon => exact inv.daemon moved

theorem Inv.of_reachable (reached : conMachine.Reachable s) : Inv s := by
  refine reached.induction (P := Inv) (fun s started => ?_) fun _ _ _ inv moved => inv.step moved
  cases started
  constructor
  case stream => rfl
  case matched => exact fun _ => rfl
  case wrong => exact nofun
  case knows => exact nofun
  case busy => rintro v (same | ⟨_, same⟩ | same) <;> cases same
  case closed => exact nofun

end Con

/-- **The verdict of `expect`**: however the output arrives and whatever the
daemon is doing meanwhile, a test whose expectations are met has shown them, one
after the other; and it fails otherwise, or because the daemon has given up after
a `poll` that was too early. -/
theorem expect_verdict {s : Con} (reached : conMachine.Reachable s) (closed : s.point = .closed) :
    (s.failure = false → s.daemon.wanted <+: s.output) ∧
      (s.hasty = false → (s.failure = false ↔ s.daemon.wanted <+: s.output)) := by
  have inv := Con.Inv.of_reachable reached
  have passed : s.failure = false → s.daemon.wanted <+: s.output := by
    intro fine
    have matched := inv.matched fine
    rw [(inv.closed closed).2, Con.pending, closed] at matched
    rw [← matched, inv.stream]
    simp
  refine ⟨passed, fun careful => ⟨passed, fun shown => ?_⟩⟩
  by_contra failed
  rcases inv.wrong (Bool.not_eq_false _ ▸ failed) careful with apart | ⟨-, short⟩
  · exact apart.2 shown
  · exact absurd shown.length_le (Nat.not_le.mpr short)

/-- The output comes in two parts, the second after the completion is known. -/
theorem expect_verdict_parts : ∃ s, conMachine.Reachable s ∧ s.point = .closed ∧
    s.failure = false ∧ s.daemon.wanted <+: s.output := by
  have reached := Machine.Reachable.replay (M := conMachine) (.start rfl)
    [.expect [104, 105], .daemon, .show [104], .daemon, .daemon, .daemon, .read 1, .show [105, 33],
      .close, .daemon, .daemon, .daemon, .read 1, .daemon, .daemon] rfl
  exact ⟨_, reached, rfl, rfl, (expect_verdict reached rfl).1 rfl⟩

/-- A `poll` times out, and all output comes before the completion is looked at:
the test fails though it has shown what was expected. -/
example : ([.expect [104], .daemon, .daemon, .daemon, .show [104], .close, .daemon,
      .daemon].foldlM conStep ⟨⟨[], false, []⟩, .get, [], false, [], [], false⟩).map
    (fun s => (s.point, s.failure, s.daemon.wanted, s.output)) =
      some (.closed, true, [104], [104]) := rfl

/-! ### What `sendme` types -/

namespace Kbd

/-- What is left of the pattern at hand. -/
def pending (s : Kbd) : Pattern :=
  match s.point with
  | .get | .closed => []
  | .loop pat | .poll pat | .save pat | .write pat _ => pat

/-- The test of completion that the daemon goes by. -/
def knows (s : Kbd) : Bool :=
  match s.point with
  | .write _ oldcomplete => oldcomplete
  | _ => false

structure Inv (s : Kbd) : Prop where
  matched : s.failure = false →
    s.received ++ s.fifo ++ s.pending ++ s.daemon.pattern.flatten = s.daemon.wanted
  received : s.received <+: s.daemon.wanted
  failed : s.failure = true → s.daemon.complete = true
  knows : s.knows = true → s.daemon.complete = true
  closed : s.point = .closed → s.daemon.complete = true ∧ s.daemon.pattern = []

variable {s t : Kbd}

theorem Inv.verdict (inv : Inv s) (complete : s.pending ≠ [] → s.daemon.complete = true) :
    Inv (s.verdict s.pending) where
  matched fine := by
    rw [Kbd.verdict, Bool.or_eq_false_iff, bne_eq_false_iff_eq] at fine
    have matched := inv.matched fine.1
    rw [fine.2] at matched
    exact matched
  received := inv.received
  failed failed := by
    rw [Kbd.verdict, Bool.or_eq_true, bne_iff_ne] at failed
    exact failed.elim inv.failed complete
  knows := nofun
  closed := nofun

/-- The daemon goes on with its pattern. -/
theorem Inv.move (inv : Inv s) {point : KbdPoint}
    (pending : pending { s with point := point } = s.pending)
    (knows : Kbd.knows { s with point := point } = true → s.daemon.complete = true)
    (running : point ≠ .closed) : Inv { s with point := point } where
  matched fine := pending ▸ inv.matched fine
  received := inv.received
  failed := inv.failed
  knows := knows
  closed same := absurd same running

theorem Inv.daemon (inv : Inv s) (moved : kbdDaemon s = some t) : Inv t := by
  have matched := inv.matched
  unfold kbdDaemon at moved
  unfold Kbd.pending at matched
  cases here : s.point <;> simp only [here] at moved matched
  case get =>
    obtain ⟨⟨pattern, daemon⟩, got, moved⟩ := Option.bind_eq_some_iff.mp moved
    rcases Daemon.get_cases got with ⟨first, rest, queue, rfl, rfl⟩ | ⟨queue, complete, rfl, rfl⟩
    · cases moved
      refine ⟨fun fine => ?_, inv.received, inv.failed, nofun, nofun⟩
      have matched := matched fine
      rw [queue, List.flatten_cons, List.append_nil, ← List.append_assoc] at matched
      exact matched
    · cases moved
      exact ⟨matched, inv.received, inv.failed, nofun, fun _ => ⟨complete, queue⟩⟩
  case loop pat =>
    have same : s.pending = pat := by simp [Kbd.pending, here]
    split at moved
    next done =>
      cases moved
      rw [← same] at done ⊢
      exact inv.verdict fun left => absurd done left
    next =>
      cases moved
      exact inv.move (by simp [Kbd.pending, here]) nofun nofun
  case poll pat =>
    split at moved
    next =>
      cases moved
      exact inv.move (by simp [Kbd.pending, here]) nofun nofun
    next => cases moved
  case save pat =>
    cases moved
    exact inv.move (by simp [Kbd.pending, here]) id nofun
  case write pat oldcomplete =>
    split at moved
    next =>
      cases moved
      exact inv.move (by simp [Kbd.pending, here]) nofun nofun
    next => cases moved
  case closed => cases moved

theorem Inv.step {label : KbdLabel} (inv : Inv s) (moved : kbdStep s label = some t) : Inv t := by
  cases label with
  | sendme pattern =>
    obtain ⟨daemon, added, rfl⟩ := Option.map_eq_some_iff.mp moved
    obtain ⟨going, goes, queue, wanted⟩ := Daemon.add_cases added
    refine ⟨fun fine => ?_, ?_, fun failed => ?_, fun known => ?_, fun same => ?_⟩
    · rw [wanted, queue, ← inv.matched fine]
      simp [Kbd.pending]
    · exact wanted ▸ inv.received.trans (List.prefix_append _ _)
    · cases (inv.failed failed).symm.trans going
    · cases (inv.knows known).symm.trans going
    · cases (inv.closed same).1.symm.trans going
  | close =>
    cases moved
    exact ⟨inv.matched, inv.received, fun _ => rfl, fun _ => rfl,
      fun same => ⟨rfl, (inv.closed same).2⟩⟩
  | read count =>
    simp only [kbdStep] at moved
    split at moved
    next => cases moved
    next going =>
      have fine : s.failure = false := by
        by_contra failed
        exact going (inv.failed (Bool.not_eq_false _ ▸ failed))
      have parts : s.received ++ s.fifo.take count ++ s.fifo.drop count = s.received ++ s.fifo := by
        rw [List.append_assoc, List.take_append_drop]
      cases moved
      refine ⟨fun _ => ?_, ?_, inv.failed, inv.knows, inv.closed⟩
      · change s.received ++ s.fifo.take count ++ s.fifo.drop count ++ s.pending ++ _ = _
        rw [parts]
        exact inv.matched fine
      · have all := inv.matched fine
        rw [← parts] at all
        refine ⟨s.fifo.drop count ++ s.pending ++ s.daemon.pattern.flatten, ?_⟩
        rw [← List.append_assoc, ← List.append_assoc]
        exact all
  | poll ready =>
    simp only [kbdStep] at moved
    cases here : s.point <;> simp only [here] at moved <;> try cases moved
    case poll pat =>
      split at moved
      next => cases moved
      next =>
        cases moved
        cases ready
        · exact inv.move (by simp [Kbd.pending, here]) nofun nofun
        · exact inv.move (by simp [Kbd.pending, here]) nofun nofun
  | write count =>
    simp only [kbdStep] at moved
    cases here : s.point <;> simp only [here] at moved <;> try cases moved
    case write pat oldcomplete =>
      split at moved
      next =>
        have matched := inv.matched
        have knows := inv.knows
        unfold Kbd.pending at matched
        unfold Kbd.knows at knows
        rw [here] at matched knows
        cases moved
        refine ⟨fun fine => ?_, inv.received, inv.failed, knows, nofun⟩
        change s.received ++ (s.fifo ++ pat.take count) ++ pat.drop count ++ _ = _
        rw [← List.append_assoc, List.append_assoc (s.received ++ s.fifo), List.take_append_drop]
        exact matched fine
      next => cases moved
  | again =>
    simp only [kbdStep] at moved
    cases here : s.point <;> simp only [here] at moved <;> try cases moved
    case write pat oldcomplete =>
      have same : s.pending = pat := by simp [Kbd.pending, here]
      split at moved
      next =>
        split at moved
        next old =>
          cases moved
          rw [← same]
          exact inv.verdict fun _ => inv.knows (by simp [Kbd.knows, here, old])
        next =>
          cases moved
          exact inv.move (by simp [Kbd.pending, here]) nofun nofun
      next => cases moved
  | daemon => exact inv.daemon moved

theorem Inv.of_reachable {room : Nat} (reached : (kbdMachine room).Reachable s) : Inv s := by
  refine reached.induction (P := Inv) (fun s started => ?_) fun _ _ _ inv moved => inv.step moved
  cases started
  exact ⟨fun _ => rfl, List.prefix_refl _, nofun, nofun, nofun⟩

end Kbd

/-- **What `sendme` types**: the VM reads the patterns in their order, without a
loss or an addition; a pattern is given up only when the VM reads no more; and
otherwise all have been typed when the proxy is closed. -/
theorem sendme_types {s : Kbd} {room : Nat} (reached : (kbdMachine room).Reachable s) :
    s.received <+: s.daemon.wanted ∧ (s.failure = true → s.daemon.complete = true) ∧
      (s.point = .closed → s.failure = false → s.received ++ s.fifo = s.daemon.wanted) := by
  have inv := Kbd.Inv.of_reachable reached
  refine ⟨inv.received, inv.failed, fun closed fine => ?_⟩
  have matched := inv.matched fine
  rw [(inv.closed closed).2, Kbd.pending, closed] at matched
  simpa using matched

/-- A pattern that does not fit is typed in two parts. -/
theorem sendme_types_parts : ∃ s, (kbdMachine 2).Reachable s ∧ s.point = .closed ∧
    s.failure = false ∧ s.received = [108, 115] ∧ s.received ++ s.fifo = s.daemon.wanted := by
  have reached := Machine.Reachable.replay (M := kbdMachine 2) (.start rfl)
    [.sendme [108, 115, 10], .daemon, .daemon, .poll true, .daemon, .write 2, .again, .daemon,
      .read 2, .poll true, .daemon, .write 1, .close, .daemon, .daemon, .daemon] rfl
  exact ⟨_, reached, rfl, rfl, rfl, (sendme_types reached).2.2 rfl rfl⟩

end TinyOs.TermProxy
