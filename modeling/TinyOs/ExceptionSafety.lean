import Mathlib.Algebra.Order.Group.Nat
import Mathlib.Data.List.Nodup
import TinyOs.Exceptions

/-! What happens to the handlers of every `TRY_WITH` block of a program, and to
the exceptions that reach it. -/
namespace TinyOs.Exceptions
open Function

/-- The events of one block. -/
def about (frame : FrameRef) (log : List Event) : List Event :=
  log.filter fun event => event.frame = frame

/-- One call of a handler. -/
structure HandlerRun where
  kind : Kind
  ref : Nat
  /-- It was left by an exception. -/
  raised : Bool
  deriving DecidableEq, Repr

def HandlerRun.events (frame : FrameRef) (h : HandlerRun) : List Event :=
  .called frame h.kind h.ref :: if h.raised then [.jumped frame] else []

/-- The variables `errcode` and `captured` of `exception_unwind` after the call. -/
def HandlerRun.after (vars : Int × Bool) (h : HandlerRun) : Int × Bool :=
  if h.raised then (1, false) else (vars.1, vars.2 || h.kind = .catcher)

theorem HandlerRun.after_finalizer (vars : Int × Bool) (ref : Nat) :
    HandlerRun.after vars ⟨.finalizer, ref, false⟩ = vars := by
  simp [HandlerRun.after]

theorem HandlerRun.after_catcher (errcode : Int) (captured : Bool) (ref : Nat) :
    HandlerRun.after (errcode, captured) ⟨.catcher, ref, false⟩ = (errcode, true) := by
  simp [HandlerRun.after]

/-- One execution of a block, from `TRY_WITH` until it is left. -/
structure BlockRun where
  /-- The context before it. -/
  next : Option FrameRef
  /-- The handlers that were registered, in this order. -/
  registered : List (Kind × Nat)
  /-- An exception has left the body; otherwise it was completed. -/
  reached : Bool
  runs : List HandlerRun
  /-- The execution went on after the block. -/
  passed : Bool

namespace BlockRun
variable (b : BlockRun)

def events (frame : FrameRef) : List Event :=
  .pushed frame b.next :: b.registered.map (fun (kind, ref) => .registered frame kind ref) ++
    (if b.reached then .jumped frame else .exiting frame) ::
    b.runs.flatMap (·.events frame) ++
    .popped frame b.next :: if b.passed then [.passed frame] else []

/-- The handlers that have to be called, in this order. -/
def due : List (Kind × Nat) :=
  (if b.reached then (b.registered.filter (·.1 = .catcher)).reverse else []) ++
    (b.registered.filter (·.1 = .finalizer)).reverse

/-- The variables `errcode` and `captured` after all of them. -/
def unwound : Int × Bool :=
  b.runs.foldl HandlerRun.after (if b.reached then 1 else 0, false)

/-- The exception is raised again at the end of `exception_unwind`. -/
def propagates : Bool := b.unwound.1 ≠ 0 ∧ b.unwound.2 = false

end BlockRun

/-- A log shows one complete execution of a block. -/
structure Shows (log : List Event) (frame : FrameRef) (b : BlockRun) : Prop where
  events : about frame log = b.events frame
  handlers : b.runs.map (fun h => (h.kind, h.ref)) = b.due
  distinct : (b.registered.map Prod.snd).Nodup
  passed : b.passed = false ↔ b.propagates = true ∧ b.next ≠ none
  again : b.passed = false → ∀ outer, b.next = some outer →
    [.popped frame b.next, .jumped outer] <:+: log

section
variable {frame : FrameRef} {log more : List Event}

@[simp] theorem about_nil : about frame [] = [] := rfl

@[simp] theorem about_append : about frame (log ++ more) = about frame log ++ about frame more :=
  List.filter_append ..

theorem about_own (own : ∀ event ∈ log, event.frame = frame) : about frame log = log :=
  List.filter_eq_self.mpr fun event member => decide_eq_true (own event member)

theorem about_other (other : ∀ event ∈ log, event.frame ≠ frame) : about frame log = [] :=
  List.filter_eq_nil_iff.mpr fun event member same => other event member (of_decide_eq_true same)

/-- What is shown in a log is shown in a longer one, if the rest is about other blocks. -/
theorem Shows.extend {before after : List Event} {b : BlockRun} (shown : Shows log frame b)
    (first : about frame before = []) (last : about frame after = []) :
    Shows (before ++ log ++ after) frame b where
  events := by simp [first, last, shown.events]
  handlers := shown.handlers
  distinct := shown.distinct
  passed := shown.passed
  again left outer same := by
    obtain ⟨front, back, rfl⟩ := shown.again left outer same
    exact ⟨before ++ front, back ++ after, by simp⟩

end

/-- The `longjmp` at the end of a part of a run, if there is one. -/
def jumpTo : Option FrameRef → List Event
  | none => []
  | some frame => [.jumped frame]

variable {σ : Type}

/-- A part of a run that is up to code with `__frame` in its scope, if it is in a
block (`own`): it keeps the context and the other frames, and the blocks that
were begun in it have been left. -/
structure Segment (t t' : Thread σ) (own jump : Option FrameRef) (log : List Event) : Prop where
  extended : t'.log = t.log ++ (log ++ jumpTo jump)
  context : t'.context = t.context
  framesUsed : t.framesUsed ≤ t'.framesUsed
  handlersUsed : t.handlersUsed ≤ t'.handlersUsed
  own_old : ∀ f : Nat, own = some f → f < t.framesUsed
  jump_old : ∀ f : Nat, jump = some f → f < t.framesUsed
  frames : ∀ f : Nat, f < t.framesUsed → own ≠ some f → t'.frames f = t.frames f
  old : ∀ f : Nat, f < t.framesUsed → own ≠ some f → about f log = []
  unused : ∀ f : Nat, t'.framesUsed ≤ f → about f log = []
  blocks : ∀ f : Nat, t.framesUsed ≤ f → f < t'.framesUsed → ∃ b, Shows (log ++ jumpTo jump) f b

namespace Segment
variable {t t' t'' : Thread σ} {own jump : Option FrameRef} {log more : List Event}
  {frame : FrameRef}

theorem about_jump {f : FrameRef} (other : jump ≠ some f) : about f (jumpTo jump) = [] := by
  cases jump with
  | none => rfl
  | some g =>
    apply about_other
    intro event member
    obtain rfl := List.mem_singleton.mp member
    exact fun same => other (congrArg some same)

/-- A part without new blocks. -/
theorem of_own (extended : t'.log = t.log ++ log) (context : t'.context = t.context)
    (framesUsed : t'.framesUsed = t.framesUsed) (handlersUsed : t.handlersUsed ≤ t'.handlersUsed)
    (old : ∀ f : Nat, own = some f → f < t.framesUsed)
    (frames : ∀ f, own ≠ some f → t'.frames f = t.frames f)
    (mine : ∀ event ∈ log, own = some event.frame) : Segment t t' own none log where
  extended := by rw [extended, jumpTo, List.append_nil]
  context := context
  framesUsed := framesUsed.ge
  handlersUsed := handlersUsed
  own_old := old
  jump_old f none := by cases none
  frames f _ := frames f
  old f _ other := about_other fun event member same => other (same ▸ mine event member)
  unused f unused := about_other fun event member same => by
    have used := old f (same ▸ mine event member)
    omega
  blocks f used used' := absurd used' (by omega)

theorem trans (first : Segment t t' own none log) (second : Segment t' t'' own jump more)
    (jumps : ∀ f : Nat, jump = some f → f < t.framesUsed) :
    Segment t t'' own jump (log ++ more) where
  extended := by simp [second.extended, first.extended, jumpTo]
  context := second.context.trans first.context
  framesUsed := first.framesUsed.trans second.framesUsed
  handlersUsed := first.handlersUsed.trans second.handlersUsed
  own_old := first.own_old
  jump_old := jumps
  frames f used other := by
    rw [second.frames f (used.trans_le first.framesUsed) other, first.frames f used other]
  old f used other := by
    rw [about_append, first.old f used other, second.old f (used.trans_le first.framesUsed) other,
      List.append_nil]
  unused f unused := by
    rw [about_append, first.unused f (second.framesUsed.trans unused), second.unused f unused,
      List.append_nil]
  blocks f used used' := by
    have young : own ≠ some f := fun same => absurd (first.own_old f same) (by omega)
    have landed : jump ≠ some f := fun same => absurd (jumps f same) (by omega)
    by_cases early : f < t'.framesUsed
    · obtain ⟨b, shown⟩ := first.blocks f used early
      refine ⟨b, ?_⟩
      have others : about f (more ++ jumpTo jump) = [] := by
        rw [about_append, second.old f early young, about_jump landed, List.append_nil]
      have silent : about f [] = [] := about_nil
      have longer := shown.extend silent others
      simpa [jumpTo] using longer
    · obtain ⟨b, shown⟩ := second.blocks f (by omega) used'
      refine ⟨b, ?_⟩
      have silent : about f [] = [] := about_nil
      have longer := shown.extend (first.unused f (by omega)) silent
      simpa using longer

/-- What is kept outside all blocks is kept in a block. -/
theorem inside (part : Segment t t' none jump log)
    (old : ∀ f : Nat, own = some f → f < t.framesUsed) : Segment t t' own jump log where
  extended := part.extended
  context := part.context
  framesUsed := part.framesUsed
  handlersUsed := part.handlersUsed
  own_old := old
  jump_old := part.jump_old
  frames f used _ := part.frames f used (by simp)
  old f used _ := part.old f used (by simp)
  unused := part.unused
  blocks := part.blocks

/-- A jump to its own block belongs to it. -/
theorem landed (part : Segment t t' (some frame) (some frame) log) :
    Segment t t' (some frame) none (log ++ [.jumped frame]) where
  extended := by simp [part.extended, jumpTo]
  context := part.context
  framesUsed := part.framesUsed
  handlersUsed := part.handlersUsed
  own_old := part.own_old
  jump_old f none := by cases none
  frames := part.frames
  old f used other := by
    have silent : about f (jumpTo (some frame)) = [] := about_jump other
    rw [about_append, part.old f used other]
    exact silent
  unused f unused := by
    have mine := part.own_old frame rfl
    have used := part.framesUsed
    have other : some frame ≠ some f := by
      rintro ⟨⟩
      omega
    have silent : about f (jumpTo (some frame)) = [] := about_jump other
    rw [about_append, part.unused f unused]
    exact silent
  blocks f used used' := by
    obtain ⟨b, shown⟩ := part.blocks f used used'
    exact ⟨b, by simpa [jumpTo] using shown⟩

end Segment

def Frame.handlers (frame : Frame σ) : Kind → List (Handler σ)
  | .catcher => frame.catchers
  | .finalizer => frame.finalizers

/-- The handlers that a part of a run has put into the lists of its frame. -/
structure Registers (Safe : Code σ false → Prop) (t t' : Thread σ) (frame : FrameRef)
    (log : List Event) (registered : List (Kind × Nat)) : Prop where
  events : about frame log = registered.map fun (kind, ref) => .registered frame kind ref
  next : (t'.frames frame).next = (t.frames frame).next
  lists : ∀ kind, ∃ new, (t'.frames frame).handlers kind = new ++ (t.frames frame).handlers kind ∧
    new.map (fun h => (kind, h.ref)) = (registered.filter (·.1 = kind)).reverse ∧
    ∀ h ∈ new, ∀ errcode, Safe (h.handler errcode)
  refs : ∀ ref ∈ registered.map Prod.snd, t.handlersUsed ≤ ref ∧ ref < t'.handlersUsed
  distinct : (registered.map Prod.snd).Nodup

namespace Registers
variable {Safe : Code σ false → Prop} {t t' t'' : Thread σ} {frame : FrameRef}
  {log more : List Event} {registered others : List (Kind × Nat)}

theorem nothing (none : about frame log = []) (same : t'.frames frame = t.frames frame) :
    Registers Safe t t' frame log [] where
  events := none
  next := by rw [same]
  lists kind := ⟨[], by rw [same]; rfl, rfl, by simp⟩
  refs := by simp
  distinct := List.nodup_nil

theorem trans (first : Registers Safe t t' frame log registered)
    (second : Registers Safe t' t'' frame more others) (grows : t.handlersUsed ≤ t'.handlersUsed)
    (grows' : t'.handlersUsed ≤ t''.handlersUsed) :
    Registers Safe t t'' frame (log ++ more) (registered ++ others) where
  events := by rw [about_append, first.events, second.events, List.map_append]
  next := second.next.trans first.next
  lists kind := by
    obtain ⟨new, list, refs, safe⟩ := first.lists kind
    obtain ⟨new', list', refs', safe'⟩ := second.lists kind
    refine ⟨new' ++ new, by rw [list', list, List.append_assoc], ?_, ?_⟩
    · rw [List.map_append, refs, refs', List.filter_append, List.reverse_append]
    · intro h member
      rcases List.mem_append.mp member with late | early
      · exact safe' h late
      · exact safe h early
  refs ref member := by
    rw [List.map_append, List.mem_append] at member
    rcases member with early | late
    · have bounds := first.refs ref early
      omega
    · have bounds := second.refs ref late
      omega
  distinct := by
    rw [List.map_append]
    apply List.Nodup.append first.distinct second.distinct
    intro ref early late
    have before := (first.refs ref early).2
    have after := (second.refs ref late).1
    omega

/-- One handler. -/
theorem register (t : Thread σ) (frame : FrameRef) (kind : Kind)
    {handler : Int → Code σ false} (safe : ∀ errcode, Safe (handler errcode)) :
    Registers Safe t (t.register frame kind handler) frame
      [.registered frame kind t.handlersUsed] [(kind, t.handlersUsed)] where
  events := about_own (by simp [Event.frame])
  next := by cases kind <;> simp [Thread.register]
  lists other := by
    have single : ∀ h ∈ [(⟨t.handlersUsed, handler⟩ : Handler σ)], ∀ errcode,
        Safe (h.handler errcode) := by simpa using safe
    cases kind <;> cases other
    · exact ⟨[⟨t.handlersUsed, handler⟩], by simp [Thread.register, Frame.handlers], rfl, single⟩
    · exact ⟨[], by simp [Thread.register, Frame.handlers], rfl, by simp⟩
    · exact ⟨[], by simp [Thread.register, Frame.handlers], rfl, by simp⟩
    · exact ⟨[⟨t.handlersUsed, handler⟩], by simp [Thread.register, Frame.handlers], rfl, single⟩
  refs := by simp [Thread.register]
  distinct := List.nodup_singleton _

end Registers

/-- The block whose frame is in scope. -/
def owner : {inBlock : Bool} → Scope inBlock → Option FrameRef
  | true, frame => some frame
  | false, () => none

/-- In the body of a block its frame is the top one. -/
structure Live (t : Thread σ) (own : Option FrameRef) : Prop where
  used : ∀ f : Nat, t.context = some f → f < t.framesUsed
  top : ∀ f : Nat, own = some f → t.context = some f

/-- Where a part of a run ends: before the rest of the stack, or by an exception
that has just reached the top frame. -/
def Lands (t t' : Thread σ) (rest : List (Item σ)) : Option FrameRef → Prop
  | none => t'.stack = rest
  | some frame => t.context = some frame ∧
    t'.stack = .catchers frame 1 false :: .leaving frame :: below frame rest

/-- What is known of a part of a run. -/
def Ran (Safe : Code σ false → Prop) (t t' : Thread σ) (own : Option FrameRef)
    (rest : List (Item σ)) : Prop :=
  ∃ jump log registered, Segment t t' own jump log ∧ Lands t t' rest jump ∧
    ∀ f, own = some f → Registers Safe t t' f log registered

/-- Some code comes to its end, or raises an exception. -/
def Runs (Safe : Code σ false → Prop) {inBlock : Bool} (code : Code σ inBlock) : Prop :=
  ∀ (t : Thread σ) (scope : Scope inBlock) (rest : List (Item σ)),
    t.stack = .code scope code :: rest → Live t (owner scope) →
    ∃ t', t.Reaches t' ∧ Ran Safe t t' (owner scope) rest

section
variable {Safe : Code σ false → Prop} {t t' t'' : Thread σ} {own jump : Option FrameRef}
  {rest : List (Item σ)} {log : List Event} {registered : List (Kind × Nat)}

theorem Live.later (live : Live t own) (part : Segment t t' own jump log) : Live t' own where
  used f top := by
    have used := live.used f (part.context ▸ top)
    have grows := part.framesUsed
    omega
  top f mine := part.context.trans (live.top f mine)

/-- A part of a run, and what follows it. -/
theorem Ran.after (live : Live t own) (first : Segment t t' own none log)
    (registers : ∀ f, own = some f → Registers Safe t t' f log registered)
    (later : Ran Safe t' t'' own rest) : Ran Safe t t'' own rest := by
  obtain ⟨jump, more, others, second, lands, registers'⟩ := later
  have top : ∀ f : Nat, jump = some f → t.context = some f := by
    rintro f rfl
    exact first.context ▸ lands.1
  refine ⟨jump, log ++ more, registered ++ others, ?_, ?_, fun f mine => ?_⟩
  · exact first.trans second fun f jumps => live.used f (top f jumps)
  · cases jump with
    | none => exact lands
    | some frame => exact ⟨top frame rfl, lands.2⟩
  · exact (registers f mine).trans (registers' f mine) first.handlersUsed second.handlersUsed

/-- A step that is not seen outside the code. -/
theorem Segment.quiet (live : Live t own) (logged : t'.log = t.log) (context : t'.context = t.context)
    (frames : t'.frames = t.frames) (framesUsed : t'.framesUsed = t.framesUsed)
    (handlersUsed : t'.handlersUsed = t.handlersUsed) : Segment t t' own none [] :=
  Segment.of_own (by rw [logged, List.append_nil]) context framesUsed handlersUsed.ge
    (fun f mine => live.used f (live.top f mine)) (fun f _ => by rw [frames]) (by simp)

/-- `raise_exception` in a block. -/
theorem raise_segment {frame : FrameRef} (live : Live t own) (top : t.context = some frame) :
    Segment t t.raiseException own (some frame) [] ∧
      Lands t t.raiseException t.stack (some frame) := by
  have raised : t.raiseException = { t.record (.jumped frame) with
      stack := .catchers frame 1 false :: .leaving frame :: below frame t.stack } := by
    rw [Thread.raiseException, top]
  rw [raised]
  refine ⟨?_, top, rfl⟩
  exact {
    extended := rfl
    context := rfl
    framesUsed := le_refl _
    handlersUsed := le_refl _
    own_old := fun f mine => live.used f (live.top f mine)
    jump_old := fun f same => live.used f (by rw [top, same])
    frames := fun _ _ _ => rfl
    old := fun _ _ _ => rfl
    unused := fun _ _ => rfl
    blocks := fun f used used' => absurd used' (Nat.not_lt.mpr used) }

end

/-! ### The loops of `exception_unwind` -/

/-- A handler that comes to its end, or raises an exception. -/
def Safe (code : Code σ false) : Prop := Runs (fun _ => True) code

def Handler.Safe (h : Handler σ) : Prop := ∀ errcode, Exceptions.Safe (h.handler errcode)

/-- The loops have called these handlers, and are at their end. -/
def Unwinds (t t' : Thread σ) (frame : FrameRef) (rest : List (Item σ)) (vars : Int × Bool)
    (due : List (Kind × Nat)) : Prop :=
  ∃ (log : List Event) (runs : List HandlerRun), Segment t t' (some frame) none log ∧
    about frame log = runs.flatMap (HandlerRun.events frame) ∧
    runs.map (fun h => (h.kind, h.ref)) = due ∧
    t'.stack = .finalizers frame (runs.foldl HandlerRun.after vars).1
      (runs.foldl HandlerRun.after vars).2 :: .leaving frame :: rest ∧
    (t'.frames frame).finalizers = [] ∧ (t'.frames frame).next = (t.frames frame).next

section
variable {t t' t'' : Thread σ} {frame : Nat} {rest : List (Item σ)} {errcode : Int}
  {captured : Bool} {log : List Event} {due : List (Kind × Nat)} {vars : Int × Bool}

theorem Unwinds.first {h : HandlerRun} (part : Segment t t' (some frame) none log)
    (events : about frame log = h.events frame)
    (next : (t'.frames frame).next = (t.frames frame).next)
    (later : Unwinds t' t'' frame rest (h.after vars) due) :
    Unwinds t t'' frame rest vars ((h.kind, h.ref) :: due) := by
  obtain ⟨more, runs, part', events', refs, stack, none, next'⟩ := later
  refine ⟨log ++ more, h :: runs, part.trans part' (by simp), ?_, ?_, stack, none,
    next'.trans next⟩
  · rw [about_append, events, events', List.flatMap_cons]
  · rw [List.map_cons, refs]

/-- A handler is called, and left in one way or the other; then the loops go on. -/
theorem handler_runs {code : Code σ false} {again : Item σ} (safe : Safe code)
    (top : t.context = some frame) (used : frame < t.framesUsed)
    (stack : t.stack = @Item.code σ false () code :: again :: .leaving frame :: rest)
    (loop : below frame (again :: .leaving frame :: rest) = rest) :
    ∃ t' log, ∃ raised : Bool, t.Reaches t' ∧ Segment t t' (some frame) none log ∧
      about frame log = (if raised then [.jumped frame] else []) ∧
      t'.frames frame = t.frames frame ∧
      t'.stack = (if raised then .catchers frame 1 false else again) :: .leaving frame :: rest := by
  have live : Live t none := by
    refine ⟨fun f same => ?_, by simp⟩
    cases top.symm.trans same
    exact used
  obtain ⟨t', reached, jump, log, registered, part, lands, -⟩ := safe t () _ stack live
  change Segment t t' none jump log at part
  have quiet := part.old frame used (by simp)
  have kept := part.frames frame used (by simp)
  have mine : Segment t t' (some frame) jump log := part.inside (by simpa using used)
  cases jump with
  | none => exact ⟨t', log, false, reached, mine, quiet, kept, lands⟩
  | some outer =>
    obtain ⟨context, stack'⟩ := lands
    obtain rfl := Option.some.inj (top.symm.trans context)
    rw [loop] at stack'
    refine ⟨t', _, true, reached, mine.landed, ?_, kept, stack'⟩
    rw [about_append, quiet]
    exact about_own (by simp [Event.frame])

theorem Segment.restack {own jump : Option FrameRef} {stack : List (Item σ)}
    (part : Segment { t with stack := stack } t' own jump log) : Segment t t' own jump log :=
  ⟨part.extended, part.context, part.framesUsed, part.handlersUsed, part.own_old, part.jump_old,
    part.frames, part.old, part.unused, part.blocks⟩

theorem Unwinds.restack {stack : List (Item σ)}
    (later : Unwinds { t with stack := stack } t' frame rest vars due) :
    Unwinds t t' frame rest vars due := by
  obtain ⟨log, runs, part, others⟩ := later
  exact ⟨log, runs, part.restack, others⟩

/-- A step that has changed no frame but this one. -/
theorem Segment.of_step (used : frame < t.framesUsed) (extended : t'.log = t.log ++ log)
    (context : t'.context = t.context) (framesUsed : t'.framesUsed = t.framesUsed)
    (handlersUsed : t.handlersUsed ≤ t'.handlersUsed)
    (frames : ∀ f ≠ frame, t'.frames f = t.frames f) (mine : ∀ event ∈ log, event.frame = frame) :
    Segment t t' (some frame) none log := by
  refine Segment.of_own extended context framesUsed handlersUsed ?_ ?_ ?_
  · rintro f same
    cases same
    exact used
  · exact fun f other => frames f fun same => other (congrArg some same.symm)
  · exact fun event member => congrArg some (mine event member).symm

/-- What one round with a handler does, whichever list it is from. -/
theorem round_runs {kind : Kind} {h : Handler σ} {again : Item σ} (safe : h.Safe)
    (top : t.context = some frame) (used : frame < t.framesUsed)
    (loop : below frame (again :: .leaving frame :: rest) = rest) (moved : t.step = some t')
    (logged : t'.log = t.log ++ [.called frame kind h.ref]) (context : t'.context = t.context)
    (framesUsed : t'.framesUsed = t.framesUsed) (handlersUsed : t'.handlersUsed = t.handlersUsed)
    (frames : ∀ f ≠ frame, t'.frames f = t.frames f)
    (stack : t'.stack = @Item.code σ false () (h.handler errcode) :: again :: .leaving frame :: rest) :
    ∃ t'' log, ∃ raised : Bool, t.Reaches t'' ∧ Segment t t'' (some frame) none log ∧
      about frame log = HandlerRun.events frame ⟨kind, h.ref, raised⟩ ∧
      t''.frames frame = t'.frames frame ∧
      t''.stack = (if raised then .catchers frame 1 false else again) :: .leaving frame :: rest := by
  have call : Segment t t' (some frame) none [.called frame kind h.ref] :=
    Segment.of_step used logged context framesUsed handlersUsed.ge frames (by simp [Event.frame])
  obtain ⟨t'', log, raised, reached, part, events, kept, stack⟩ :=
    handler_runs (safe errcode) (context.trans top) (framesUsed ▸ used) stack loop
  refine ⟨t'', _, raised, reached.head moved, call.trans part (by simp), ?_, kept, stack⟩
  rw [about_append, events, about_own (by simp [Event.frame])]
  cases raised <;> rfl

theorem finalizers_run {handlers : List (Handler σ)} (safe : ∀ h ∈ handlers, h.Safe)
    (top : t.context = some frame) (used : frame < t.framesUsed)
    (stack : t.stack = .finalizers frame errcode captured :: .leaving frame :: rest)
    (catchers : (t.frames frame).catchers = [])
    (finalizers : (t.frames frame).finalizers = handlers) :
    ∃ t', t.Reaches t' ∧ Unwinds t t' frame rest (errcode, captured)
      (handlers.map fun h => (.finalizer, h.ref)) := by
  induction handlers generalizing t errcode captured with
  | nil =>
    refine ⟨t, .refl t, [], [], ?_, rfl, rfl, stack, finalizers, rfl⟩
    exact Segment.of_step used (by simp) rfl rfl (le_refl _) (fun _ _ => rfl) (by simp)
  | cons h handlers ih =>
    obtain ⟨this, others⟩ := List.forall_mem_cons.mp safe
    have moved : t.step = some ({ t with stack := .leaving frame :: rest }.runFinalizer frame
        errcode captured) := by rw [Thread.step, stack]
    have round : { t with stack := .leaving frame :: rest }.runFinalizer frame errcode captured =
        { t.record (.called frame .finalizer h.ref) with
          frames := update t.frames frame { t.frames frame with finalizers := handlers }
          stack := @Item.code σ false () (h.handler errcode) ::
            .finalizers frame errcode captured :: .leaving frame :: rest } := by
      simp only [Thread.runFinalizer, finalizers, Thread.record]
    rw [round] at moved
    obtain ⟨t', log, raised, reached, part, events, kept, stack'⟩ :=
      round_runs this top used (by simp [below]) moved rfl rfl rfl rfl
        (fun f other => update_of_ne other ..) rfl
    have top' := part.context.trans top
    have used' := used.trans_le part.framesUsed
    have same : t'.frames frame = { t.frames frame with finalizers := handlers } :=
      kept.trans (update_self ..)
    cases raised with
    | false =>
      obtain ⟨t'', reached', later⟩ := ih others top' used' stack' (by rw [same, catchers])
        (by rw [same])
      rw [← HandlerRun.after_finalizer (errcode, captured) h.ref] at later
      exact ⟨t'', reached.trans reached', later.first part events (by rw [same])⟩
    | true =>
      have next : t'.step = some { t' with
          stack := .finalizers frame 1 false :: .leaving frame :: rest } := by
        rw [Thread.step, stack']
        simp only [Thread.runCatcher, same, catchers, if_true]
      obtain ⟨t'', reached', later⟩ := @ih { t' with
          stack := .finalizers frame 1 false :: .leaving frame :: rest } 1 false others top' used' rfl
        (by rw [same, catchers]) (by rw [same])
      exact ⟨t'', reached.trans (reached'.head next), later.restack.first part events (by rw [same])⟩

theorem catchers_run {handlers : List (Handler σ)} (safe : ∀ h ∈ handlers, h.Safe)
    (safe' : ∀ h ∈ (t.frames frame).finalizers, h.Safe)
    (top : t.context = some frame) (used : frame < t.framesUsed)
    (stack : t.stack = .catchers frame errcode captured :: .leaving frame :: rest)
    (catchers : (t.frames frame).catchers = handlers) :
    ∃ t', t.Reaches t' ∧ Unwinds t t' frame rest (errcode, captured)
      (handlers.map (fun h => (.catcher, h.ref)) ++
        (t.frames frame).finalizers.map fun h => (.finalizer, h.ref)) := by
  induction handlers generalizing t errcode captured with
  | nil =>
    have moved : t.step = some { t with
        stack := .finalizers frame errcode captured :: .leaving frame :: rest } := by
      rw [Thread.step, stack]
      simp only [Thread.runCatcher, catchers]
    obtain ⟨t', reached, later⟩ := @finalizers_run σ { t with
        stack := .finalizers frame errcode captured :: .leaving frame :: rest } frame rest errcode
      captured _ safe' top used rfl catchers rfl
    exact ⟨t', reached.head moved, later.restack⟩
  | cons h handlers ih =>
    obtain ⟨this, others⟩ := List.forall_mem_cons.mp safe
    have moved : t.step = some ({ t with stack := .leaving frame :: rest }.runCatcher frame
        errcode captured) := by rw [Thread.step, stack]
    have round : { t with stack := .leaving frame :: rest }.runCatcher frame errcode captured =
        { t.record (.called frame .catcher h.ref) with
          frames := update t.frames frame { t.frames frame with catchers := handlers }
          stack := @Item.code σ false () (h.handler errcode) ::
            .catchers frame errcode true :: .leaving frame :: rest } := by
      simp only [Thread.runCatcher, catchers, Thread.record]
    rw [round] at moved
    obtain ⟨t', log, raised, reached, part, events, kept, stack'⟩ :=
      round_runs this top used (by simp [below]) moved rfl rfl rfl rfl
        (fun f other => update_of_ne other ..) rfl
    have top' := part.context.trans top
    have used' := used.trans_le part.framesUsed
    have same : t'.frames frame = { t.frames frame with catchers := handlers } :=
      kept.trans (update_self ..)
    have finalizers : (t'.frames frame).finalizers = (t.frames frame).finalizers := by rw [same]
    have next : (t'.frames frame).next = (t.frames frame).next := by rw [same]
    cases raised with
    | false =>
      obtain ⟨t'', reached', later⟩ := ih others (finalizers ▸ safe') top' used' stack' (by rw [same])
      rw [finalizers, ← HandlerRun.after_catcher errcode captured h.ref] at later
      exact ⟨t'', reached.trans reached', later.first part events next⟩
    | true =>
      obtain ⟨t'', reached', later⟩ := ih others (finalizers ▸ safe') top' used' stack' (by rw [same])
      rw [finalizers] at later
      exact ⟨t'', reached.trans reached', later.first part events next⟩

end

/-! ### A block -/

section
variable {t t' t'' : Thread σ} {rest : List (Item σ)} {log tail : List Event}
  {jump : Option FrameRef} {body : Code σ true} {registered : List (Kind × Nat)}

/-- A block that has been left is a part without traces in other blocks. -/
theorem Segment.close (part : Segment (t.tryWith body) t' (some t.framesUsed) none log)
    (extended : t''.log = t'.log ++ (tail ++ jumpTo jump))
    (mine : ∀ event ∈ tail, event.frame = t.framesUsed) (context : t''.context = t.context)
    (framesUsed : t''.framesUsed = t'.framesUsed) (handlersUsed : t''.handlersUsed = t'.handlersUsed)
    (frames : t''.frames = t'.frames) (jumps : ∀ f : Nat, jump = some f → f < t.framesUsed)
    (shown : ∃ b, Shows (.pushed t.framesUsed t.context :: log ++ tail ++ jumpTo jump)
      t.framesUsed b) :
    Segment t t'' none jump (.pushed t.framesUsed t.context :: log ++ tail) := by
  have pushed : ∀ f ≠ t.framesUsed, about f [.pushed t.framesUsed t.context] = [] := fun f other =>
    about_other (by simpa [Event.frame] using other.symm)
  have tails : ∀ f ≠ t.framesUsed, about f tail = [] := fun f other =>
    about_other fun event member same => other ((mine event member).symm.trans same).symm
  have grows : t.framesUsed + 1 ≤ t'.framesUsed := part.framesUsed
  have young : ∀ f : Nat, f ≠ t.framesUsed → some t.framesUsed ≠ some f := fun f other same =>
    other (Option.some.inj same).symm
  refine {
    extended := ?_, context := context, framesUsed := by omega, handlersUsed := ?_, own_old := by simp,
    jump_old := jumps, frames := ?_, old := ?_, unused := ?_, blocks := ?_ }
  · rw [extended, part.extended]
    simp [Thread.tryWith, Thread.record, jumpTo]
  · rw [handlersUsed]
    exact part.handlersUsed
  · intro f used _
    rw [frames, part.frames f (Nat.lt_succ_of_lt used) (young f (by omega))]
    exact update_of_ne (Nat.ne_of_lt used) ..
  · intro f used _
    have other : f ≠ t.framesUsed := Nat.ne_of_lt used
    rw [← List.singleton_append, about_append, about_append, pushed f other, tails f other,
      part.old f (Nat.lt_succ_of_lt used) (young f other)]
    rfl
  · intro f unused
    have other : f ≠ t.framesUsed := by omega
    rw [← List.singleton_append, about_append, about_append, pushed f other, tails f other,
      part.unused f (by omega)]
    rfl
  · intro f used used'
    by_cases this : f = t.framesUsed
    · rw [this]
      exact shown
    · obtain ⟨b, inner⟩ := part.blocks f (by change t.framesUsed + 1 ≤ f; omega) (by omega)
      refine ⟨b, ?_⟩
      have landed : jump ≠ some f := fun same => absurd (jumps f same) (by omega)
      have last : about f (tail ++ jumpTo jump) = [] := by
        rw [about_append, tails f this, about_jump landed]
        rfl
      have longer := inner.extend (pushed f this) last
      simpa [jumpTo] using longer

/-- The body is left at its end, or by an exception. -/
theorem body_left {frame : Nat} (part : Segment t t' (some frame) jump log)
    (top : t.context = some frame) (lands : Lands t t' (.body frame :: rest) jump) :
    ∃ t'', ∃ reached : Bool, t'.Reaches t'' ∧
      Segment t t'' (some frame) none
        (log ++ [if reached then .jumped frame else .exiting frame]) ∧
      t''.stack = .catchers frame (if reached then 1 else 0) false :: .leaving frame :: rest ∧
      t''.frames frame = { t'.frames frame with
        catchers := if reached then (t'.frames frame).catchers else [] } := by
  have used := part.own_old frame rfl
  have top' := part.context.trans top
  cases jump with
  | none =>
    have stack : t'.stack = .body frame :: rest := lands
    let t'' : Thread σ := { t'.record (.exiting frame) with
      frames := update t'.frames frame { t'.frames frame with catchers := [] }
      stack := .catchers frame 0 false :: .leaving frame :: rest }
    have moved : t'.step = some t'' := by
      rw [Thread.step, stack]
      simp only [Thread.exitTry, top', Option.map_some, Thread.record, t'']
    have exits : Segment t' t'' (some frame) none [.exiting frame] :=
      Segment.of_step (used.trans_le part.framesUsed) rfl rfl rfl (le_refl _)
        (fun f other => update_of_ne other ..) (by simp [Event.frame])
    exact ⟨t'', false, .head moved (.refl _), part.trans exits (by simp), rfl, update_self ..⟩
  | some outer =>
    obtain ⟨context, stack⟩ := lands
    obtain rfl := Option.some.inj (top.symm.trans context)
    have cut : below frame (.body frame :: rest) = rest := by simp [below]
    rw [cut] at stack
    exact ⟨t', true, .refl _, part.landed, stack, by simp⟩

/-- The end of `exception_unwind`: the frame is popped, and either the exception
is raised again, or the execution goes on after the block. -/
theorem pops {frame : Nat} {errcode : Int} {captured : Bool} {next : Option FrameRef}
    (stack : t.stack = .finalizers frame errcode captured :: .leaving frame :: rest)
    (none_left : (t.frames frame).finalizers = []) (below_it : (t.frames frame).next = next)
    (older : ∀ f : Nat, next = some f → f < frame) :
    ∃ t', ∃ passed : Bool, ∃ jump, t.Reaches t' ∧ t'.context = next ∧
      t'.framesUsed = t.framesUsed ∧ t'.handlersUsed = t.handlersUsed ∧ t'.frames = t.frames ∧
      t'.log = t.log ++ ((.popped frame next :: if passed then [.passed frame] else []) ++
        jumpTo jump) ∧
      (passed = false ↔ (errcode ≠ 0 ∧ captured = false) ∧ next ≠ none) ∧
      (jump = if passed then none else next) ∧
      match jump with
      | none => t'.stack = rest
      | some outer => t'.stack = .catchers outer 1 false :: .leaving outer :: below outer rest := by
  let popped : Thread σ := { t.record (.popped frame next) with
    context := next, stack := .leaving frame :: rest }
  have moved : t.step = some (if errcode ≠ 0 ∧ captured = false then popped.raiseException
      else popped) := by
    rw [Thread.step, stack]
    simp only [Thread.runFinalizer, none_left, below_it, Thread.record, popped]
  have passes : popped.step = some ({ popped with stack := rest }.record (.passed frame)) := rfl
  by_cases raises : errcode ≠ 0 ∧ captured = false
  · rw [if_pos raises] at moved
    cases next with
    | none =>
      refine ⟨_, true, none, .head moved (.head passes (.refl _)), rfl, rfl, rfl, rfl, ?_, ?_, rfl, rfl⟩
      · simp [Thread.record, popped, jumpTo]
      · simp
    | some outer =>
      have other : frame ≠ outer := Nat.ne_of_gt (older outer rfl)
      refine ⟨_, false, some outer, .head moved (.refl _), rfl, rfl, rfl, rfl, ?_, ?_, rfl, ?_⟩
      · simp [Thread.raiseException, Thread.record, popped, jumpTo]
      · simp [raises]
      · simp [Thread.raiseException, popped, below, other]
  · rw [if_neg raises] at moved
    refine ⟨_, true, none, .head moved (.head passes (.refl _)), rfl, rfl, rfl, rfl, ?_, ?_, rfl, rfl⟩
    · simp [Thread.record, popped, jumpTo]
    · simp [raises]

/-- **A block.** If its body and its handlers behave, it is left either at its end
or by an exception, and the log shows all that belongs to it. -/
theorem block_runs (safe : Runs Safe body) (live : ∀ f : Nat, t.context = some f → f < t.framesUsed) :
    ∃ t' jump log, (t.tryWith body).Reaches t' ∧ Segment t t' none jump log ∧
      Lands t t' t.stack jump := by
  have top : (t.tryWith body).context = some t.framesUsed := rfl
  have inner : Live (t.tryWith body) (some t.framesUsed) := by
    constructor
    · rintro f same
      cases same
      exact Nat.lt_succ_self _
    · rintro f same
      exact same
  obtain ⟨t₁, first, jump₁, log₁, registered, part₁, lands, registers⟩ :=
    safe (t.tryWith body) t.framesUsed (.body t.framesUsed :: t.stack) rfl inner
  have registers := registers _ rfl
  obtain ⟨t₂, reached, second, part₂, stack₂, frame₂⟩ := body_left part₁ top lands
  have used₂ := part₂.own_old _ rfl
  -- The handlers that were registered are in the lists.
  obtain ⟨cs, catchers, catcher_refs, catchers_safe⟩ := registers.lists .catcher
  obtain ⟨fs, finalizers, finalizer_refs, finalizers_safe⟩ := registers.lists .finalizer
  have empty : (t.tryWith body).frames t.framesUsed = ⟨t.context, [], []⟩ := update_self ..
  rw [empty] at catchers finalizers
  change (t₁.frames t.framesUsed).catchers = cs ++ [] at catchers
  change (t₁.frames t.framesUsed).finalizers = fs ++ [] at finalizers
  rw [List.append_nil] at catchers finalizers
  have catchers₂ : (t₂.frames t.framesUsed).catchers = if reached then cs else [] := by
    rw [frame₂, catchers]
  have finalizers₂ : (t₂.frames t.framesUsed).finalizers = fs := by rw [frame₂, finalizers]
  have next₂ : (t₂.frames t.framesUsed).next = t.context := by
    rw [frame₂]
    exact registers.next.trans (by rw [empty])
  have safe_catchers : ∀ h ∈ if reached then cs else [], h.Safe := by
    cases reached with
    | false => simp
    | true => exact catchers_safe
  -- The loops call them.
  obtain ⟨t₃, third, log₃, runs, part₃, events, refs, stack₃, none_left, next₃⟩ :=
    catchers_run safe_catchers (finalizers₂ ▸ finalizers_safe) (part₂.context.trans top)
      (used₂.trans_le part₂.framesUsed) stack₂ catchers₂
  have part := part₂.trans part₃ (by simp)
  -- The frame is popped.
  obtain ⟨t₄, passed, jump, fourth, context, framesUsed, handlersUsed, frames, extended, passes,
    jumps, stack₄⟩ := pops stack₃ none_left (next₃.trans next₂) live
  have old : ∀ f : Nat, jump = some f → t.context = some f := by
    rintro f rfl
    cases passed with
    | false => exact jumps.symm
    | true => cases jumps
  have mine : ∀ event ∈ Event.popped t.framesUsed t.context ::
      if passed then [.passed t.framesUsed] else [], event.frame = t.framesUsed := by
    cases passed <;> simp [Event.frame]
  refine ⟨t₄, jump, _, first.trans (second.trans (third.trans fourth)), part.close extended mine
    context framesUsed handlersUsed frames (fun f same => live f (old f same)) ?_, ?_⟩
  · have landed : about t.framesUsed (jumpTo jump) = [] :=
      Segment.about_jump fun same => absurd (live _ (old _ same)) (Nat.lt_irrefl _)
    refine ⟨⟨t.context, registered, reached, runs, passed⟩, ?_, ?_, registers.distinct, ?_, ?_⟩
    · have end_of_body : about t.framesUsed
          [if reached then .jumped t.framesUsed else .exiting t.framesUsed] =
            [if reached then .jumped t.framesUsed else .exiting t.framesUsed] :=
        about_own (by cases reached <;> simp [Event.frame])
      rw [← List.singleton_append, about_append, about_append, about_append, about_append,
        about_append, registers.events, events, landed, end_of_body, about_own mine,
        about_own (by simp [Event.frame])]
      simp [BlockRun.events]
    · rw [refs, finalizers₂, finalizer_refs, BlockRun.due]
      dsimp only
      congr 1
      cases reached with
      | false => rfl
      | true => exact catcher_refs
    · rw [BlockRun.propagates, decide_eq_true_iff]
      exact passes
    · rintro left outer same
      change passed = false at left
      change t.context = some outer at same
      rw [jumps, left, same]
      refine ⟨.pushed t.framesUsed (some outer) :: (log₁ ++
        [if reached then .jumped t.framesUsed else .exiting t.framesUsed] ++ log₃), [], ?_⟩
      simp [jumpTo]
  · cases jump with
    | none => exact stack₄
    | some outer => exact ⟨old outer rfl, stack₄⟩

end

/-! ### Programs -/

/-- A handler need not be known to register anything safe. -/
theorem Runs.forget {P : Code σ false → Prop} {code : Code σ false} (runs : Runs P code) :
    Safe code := by
  intro t scope rest stack live
  obtain ⟨t', reached, jump, log, registered, part, lands, -⟩ := runs t scope rest stack live
  exact ⟨t', reached, jump, log, registered, part, lands, by simp [owner]⟩

/-- A statement that registers a handler. -/
theorem register_runs {t : Thread σ} {frame : FrameRef} {kind : Kind}
    {handler : Int → Code σ false} {code : Code σ true} {rest : List (Item σ)}
    (safe : ∀ errcode, Safe (handler errcode)) (runs : Runs Safe code)
    (live : Live t (some frame)) (stack : t.stack = @Item.code σ true frame code :: rest) :
    ∃ t', (t.register frame kind handler).Reaches t' ∧ Ran Safe t t' (some frame) rest := by
  have part : Segment t (t.register frame kind handler) (some frame) none
      [.registered frame kind t.handlersUsed] :=
    Segment.of_step (live.used frame (live.top frame rfl)) rfl rfl rfl (Nat.le_succ _)
      (fun f other => update_of_ne other ..) (by simp [Event.frame])
  have registers : ∀ f, some frame = some f → Registers Safe t (t.register frame kind handler) f
      [.registered frame kind t.handlersUsed] [(kind, t.handlersUsed)] := by
    rintro f same
    cases same
    exact Registers.register t frame kind safe
  obtain ⟨t', reached, ran⟩ := runs (t.register frame kind handler) frame rest stack
    (live.later part)
  exact ⟨t', reached, ran.after live part registers⟩

theorem Ran.restack {t t' : Thread σ} {own : Option FrameRef} {rest stack : List (Item σ)}
    (ran : Ran Safe { t with stack := stack } t' own rest) : Ran Safe t t' own rest := by
  obtain ⟨jump, log, registered, part, lands, registers⟩ := ran
  refine ⟨jump, log, registered, part.restack, ?_, fun f mine => ?_⟩
  · cases jump <;> exact lands
  · have own := registers f mine
    exact ⟨own.events, own.next, own.lists, own.refs, own.distinct⟩

/-- Some code after a step that no frame and no log shows. -/
theorem Runs.quiet {t t' : Thread σ} {inBlock : Bool} {code : Code σ inBlock}
    {scope : Scope inBlock} {rest : List (Item σ)} (runs : Runs Safe code)
    (live : Live t (owner scope)) (moved : t.step = some t')
    (stack : t'.stack = .code scope code :: rest) (logged : t'.log = t.log)
    (context : t'.context = t.context) (frames : t'.frames = t.frames)
    (framesUsed : t'.framesUsed = t.framesUsed) (handlersUsed : t'.handlersUsed = t.handlersUsed) :
    ∃ t', t.Reaches t' ∧ Ran Safe t t' (owner scope) rest := by
  have part : Segment t t' (owner scope) none [] :=
    Segment.quiet live logged context frames framesUsed handlersUsed
  obtain ⟨t'', reached, ran⟩ := runs t' scope rest stack (live.later part)
  refine ⟨t'', reached.head moved, ran.after live part fun f _ => .nothing rfl ?_⟩
  rw [frames]

/-- Every piece of code comes to its end or raises an exception, whatever the
handlers do that it registers. -/
theorem code_runs {inBlock : Bool} (code : Code σ inBlock) : Runs Safe code := by
  induction code with
  | done =>
    intro t scope rest stack live
    have moved : t.step = some { t with stack := rest } := by rw [Thread.step, stack]; rfl
    have part : Segment t { t with stack := rest } (owner scope) none [] :=
      Segment.quiet live rfl rfl rfl rfl rfl
    exact ⟨_, .head moved (.refl _), none, [], [], part, rfl, fun f _ => .nothing rfl rfl⟩
  | act change code ih =>
    intro t scope rest stack live
    have moved : t.step = some { t with
        state := change t.state, stack := .code scope code :: rest } := by
      rw [Thread.step, stack]; rfl
    exact ih.quiet live moved rfl rfl rfl rfl rfl rfl
  | branch choose ih =>
    intro t scope rest stack live
    have moved : t.step = some { t with stack := .code scope (choose t.state) :: rest } := by
      rw [Thread.step, stack]; rfl
    exact (ih t.state).quiet live moved rfl rfl rfl rfl rfl rfl
  | raise code ih =>
    intro t scope rest stack live
    have moved : t.step = some { t with stack := .code scope code :: rest }.raiseException := by
      rw [Thread.step, stack]; rfl
    cases top : t.context with
    | none =>
      have ignored : { t with stack := .code scope code :: rest }.raiseException =
          { t with stack := .code scope code :: rest } := by rw [Thread.raiseException]; simp only [top]
      rw [ignored] at moved
      exact ih.quiet live moved rfl rfl rfl rfl rfl rfl
    | some frame =>
      have live' : Live { t with stack := .code scope code :: rest } (owner scope) :=
        ⟨live.used, live.top⟩
      obtain ⟨part, lands⟩ := raise_segment live' top
      refine ⟨_, .head moved (.refl _), some frame, [], [], part.restack, ⟨top, lands.2⟩, ?_⟩
      exact fun f _ => .nothing rfl (by simp [Thread.raiseException, top, Thread.record])
  | tryWith body code ih ih' =>
    intro t scope rest stack live
    have moved : t.step = some ({ t with stack := .code scope code :: rest }.tryWith body) := by
      rw [Thread.step, stack]; rfl
    obtain ⟨t', jump, log, reached, part, lands⟩ := @block_runs σ { t with
      stack := .code scope code :: rest } body ih live.used
    have old : ∀ f : Nat, owner scope = some f → f < t.framesUsed := fun f mine =>
      live.used f (live.top f mine)
    have outside := part.restack
    have part := outside.inside old
    have quiet : ∀ f, owner scope = some f → Registers Safe t t' f log [] := fun f mine =>
      .nothing (outside.old f (old f mine) (by simp)) (outside.frames f (old f mine) (by simp))
    cases jump with
    | none =>
      obtain ⟨t'', reached', ran⟩ := ih' t' scope rest lands (live.later part)
      exact ⟨t'', .head moved (reached.trans reached'), ran.after live part quiet⟩
    | some frame =>
      exact ⟨t', .head moved reached, some frame, log, [], part, lands, quiet⟩
  | onError handler code ih ih' =>
    intro t scope rest stack live
    have moved : t.step = some ({ t with stack := .code scope code :: rest }.register scope .catcher
        fun _ => handler) := by
      rw [Thread.step, stack]; rfl
    obtain ⟨t', reached, ran⟩ := @register_runs σ { t with stack := .code scope code :: rest } scope
      .catcher (fun _ => handler) code rest (fun _ => ih.forget) ih' ⟨live.used, live.top⟩ rfl
    exact ⟨t', .head moved reached, ran.restack⟩
  | onFinally handler code ih ih' =>
    intro t scope rest stack live
    have moved : t.step = some ({ t with stack := .code scope code :: rest }.register scope
        .finalizer handler) := by
      rw [Thread.step, stack]; rfl
    obtain ⟨t', reached, ran⟩ := @register_runs σ { t with stack := .code scope code :: rest } scope
      .finalizer handler code rest (fun errcode => (ih errcode).forget) ih' ⟨live.used, live.top⟩ rfl
    exact ⟨t', .head moved reached, ran.restack⟩


/-- A program ends, with its context empty, and its log is made of complete blocks. -/
theorem program_runs (program : Code σ false) (state : σ) :
    ∃ t, (Thread.start program state).Reaches t ∧ t.stack = [] ∧ t.context = none ∧
      (∀ frame : Nat, t.framesUsed ≤ frame → about frame t.log = []) ∧
      ∀ frame : Nat, frame < t.framesUsed → ∃ b, Shows t.log frame b := by
  have live : Live (Thread.start program state) none := ⟨by simp [Thread.start], by simp⟩
  obtain ⟨t, reached, jump, log, registered, part, lands, -⟩ :=
    code_runs program (Thread.start program state) () [] rfl live
  change Segment (Thread.start program state) t none jump log at part
  cases jump with
  | some frame => cases lands.1
  | none =>
    have whole : t.log = log := by simp [part.extended, Thread.start, jumpTo]
    have blocks := part.blocks
    rw [jumpTo, List.append_nil] at blocks
    subst whole
    exact ⟨t, reached, lands, part.context, part.unused, fun frame => blocks frame (Nat.zero_le _)⟩

/-! ### The handlers -/

section
variable {b : BlockRun} {frame : FrameRef} {log : List Event} {kind : Kind} {ref : Nat}

theorem mem_due : (kind, ref) ∈ b.due ↔
    (kind, ref) ∈ b.registered ∧ (kind = .finalizer ∨ b.reached = true) := by
  unfold BlockRun.due
  cases kind <;> cases b.reached <;> simp

theorem nodup_due (distinct : (b.registered.map Prod.snd).Nodup) : b.due.Nodup := by
  have pairs := distinct.of_map _
  have finalizers := List.nodup_reverse.mpr (pairs.filter fun h => h.1 = .finalizer)
  unfold BlockRun.due
  split
  · apply (List.nodup_reverse.mpr (pairs.filter _)).append finalizers
    intro h catcher finalizer
    simp only [List.mem_reverse, List.mem_filter, decide_eq_true_eq] at catcher finalizer
    exact absurd (catcher.2.symm.trans finalizer.2) (by simp)
  · simpa using finalizers

theorem count_about (event : Event) : (about event.frame log).count event = log.count event :=
  List.count_filter (by simp)

theorem count_runs (runs : List HandlerRun) :
    (runs.flatMap (HandlerRun.events frame)).count (.called frame kind ref) =
      (runs.map fun h => (h.kind, h.ref)).count (kind, ref) := by
  induction runs with
  | nil => rfl
  | cons h runs ih =>
    have jumps : (if h.raised then [Event.jumped frame] else []).count (.called frame kind ref) =
        0 := by
      cases h.raised <;> simp
    rw [List.flatMap_cons, List.count_append, ih, List.map_cons, List.count_cons, HandlerRun.events,
      List.count_cons, jumps, Nat.zero_add, Nat.add_comm]
    simp

/-- The calls of a handler in the log are its runs. -/
theorem count_called : (b.events frame).count (.called frame kind ref) =
    (b.runs.map fun h => (h.kind, h.ref)).count (kind, ref) := by
  have registers : (b.registered.map fun (kind, ref) => Event.registered frame kind ref).count
      (.called frame kind ref) = 0 := by
    simp [List.count_eq_zero]
  have left : (if b.passed then [Event.passed frame] else []).count (.called frame kind ref) = 0 := by
    cases b.passed <;> simp
  unfold BlockRun.events
  simp only [List.count_append, List.count_cons, registers, left, count_runs]
  cases b.reached <;> simp

end

/-- **Every handler runs exactly once, in order.** Every program ends, and its
context is then empty again. The events of each of its blocks are: the context is
set, handlers are registered, the body is left, handlers are called, and the
context is set to what it was before. A handler is called once if it is a
finalizer, or if the body was left by an exception, and not at all otherwise. The
catchers are called before the finalizers, in both groups the last one that was
registered first, whether or not other handlers raise exceptions. A handler is one
registration: its statement is executed at most once in an activation of its block,
in the scope of the block itself. -/
theorem handlers_once (program : Code σ false) (state : σ) :
    ∃ t, (Thread.start program state).Reaches t ∧ t.stack = [] ∧ t.context = none ∧
      (∀ event ∈ t.log, event.frame < t.framesUsed) ∧
      ∀ frame < t.framesUsed, ∃ b : BlockRun, about frame t.log = b.events frame ∧
        (b.registered.map Prod.snd).Nodup ∧ b.runs.map (fun h => (h.kind, h.ref)) = b.due ∧
        ∀ h ∈ b.registered, t.log.count (.called frame h.1 h.2) =
          if h.1 = .finalizer ∨ b.reached then 1 else 0 := by
  obtain ⟨t, reached, ended, context, others, blocks⟩ := program_runs program state
  refine ⟨t, reached, ended, context, fun event member => ?_, fun frame used => ?_⟩
  · by_contra unused
    have nothing := others event.frame (Nat.le_of_not_lt unused)
    exact List.filter_eq_nil_iff.mp nothing event member (by simp)
  · obtain ⟨b, shown⟩ := blocks frame used
    refine ⟨b, shown.events, shown.distinct, shown.handlers, ?_⟩
    rintro ⟨kind, ref⟩ member
    have calls : t.log.count (.called frame kind ref) = b.due.count (kind, ref) := by
      rw [← count_about, Event.frame, shown.events, count_called, shown.handlers]
    rw [calls]
    split
    next due => exact List.count_eq_one_of_mem (nodup_due shown.distinct) (mem_due.mpr ⟨member, due⟩)
    next not_due => exact List.count_eq_zero.mpr fun due => not_due (mem_due.mp due).2

end TinyOs.Exceptions
