import Mathlib.Logic.Function.Basic

/-! The exceptions of `util.h` and `util.c`: `TRY_WITH` blocks with their
`ON_ERROR` and `FINALLY` handlers, for one exception context. The frame of a
block and its handlers are taken to be in memory until the block is left: a
statement that registers a handler stands in the scope of its block itself, not in
one inside it, and is executed at most once while the block is active. -/
namespace TinyOs.Exceptions
open Function

/-- C code that works on a state, as it uses exceptions. Handlers are registered
by the statements of a `TRY_WITH` block itself (`inBlock`). -/
inductive Code (σ : Type) : Bool → Type where
  | done {inBlock : Bool} : Code σ inBlock
  | act {inBlock : Bool} (change : σ → σ) (rest : Code σ inBlock) : Code σ inBlock
  | branch {inBlock : Bool} (choose : σ → Code σ inBlock) : Code σ inBlock
  | raise {inBlock : Bool} (rest : Code σ inBlock) : Code σ inBlock
  | tryWith {inBlock : Bool} (body : Code σ true) (rest : Code σ inBlock) : Code σ inBlock
  | onError (handler : Code σ false) (rest : Code σ true) : Code σ true
  | onFinally (handler : Int → Code σ false) (rest : Code σ true) : Code σ true

/-- A `struct exception_stack_frame*`: the frames are numbered as they are pushed. -/
abbrev FrameRef := Nat

/-- The variable `__frame`, which is in scope in a block. -/
@[reducible] def Scope : Bool → Type
  | true => FrameRef
  | false => Unit

/-- A `struct exception_handler_frame`; these too are numbered. -/
structure Handler (σ : Type) where
  ref : Nat
  handler : Int → Code σ false

/-- A `struct exception_stack_frame`. -/
structure Frame (σ : Type) where
  next : Option FrameRef
  catchers : List (Handler σ)
  finalizers : List (Handler σ)

inductive Kind where
  | catcher
  | finalizer
  deriving DecidableEq, Repr

/-- What is seen of a run. -/
inductive Event where
  /-- `__exc_push_frame`, with what the context was. -/
  | pushed (frame : FrameRef) (next : Option FrameRef)
  | registered (frame : FrameRef) (kind : Kind) (handler : Nat)
  /-- A `longjmp` to the block of the frame. -/
  | jumped (frame : FrameRef)
  /-- `__exc_exit_try`. -/
  | exiting (frame : FrameRef)
  | called (frame : FrameRef) (kind : Kind) (handler : Nat)
  /-- `*context = frame->next`, with what the context becomes. -/
  | popped (frame : FrameRef) (next : Option FrameRef)
  /-- The execution goes on after the block. -/
  | passed (frame : FrameRef)
  deriving DecidableEq, Repr

def Event.frame : Event → FrameRef
  | pushed frame _ | registered frame .. | jumped frame | exiting frame | called frame ..
  | popped frame _ | passed frame => frame

/-- What is on the stack of the thread. -/
inductive Item (σ : Type) where
  | code {inBlock : Bool} (scope : Scope inBlock) (code : Code σ inBlock)
  /-- The `for` of a `TRY_WITH` that executes its body. -/
  | body (frame : FrameRef)
  /-- The same `for`, in its `__exc_try` or `__exc_exit_try`. -/
  | leaving (frame : FrameRef)
  /-- `exception_unwind` in its first loop, with its local variables. -/
  | catchers (frame : FrameRef) (errcode : Int) (captured : Bool)
  /-- `exception_unwind` in its second loop. -/
  | finalizers (frame : FrameRef) (errcode : Int) (captured : Bool)

/-- A thread with its exception context. -/
structure Thread (σ : Type) where
  state : σ
  context : Option FrameRef
  frames : FrameRef → Frame σ
  /-- How many frames have been pushed. -/
  framesUsed : Nat
  handlersUsed : Nat
  stack : List (Item σ)
  log : List Event

variable {σ : Type}

/-- The rest of the stack below the block of a frame. -/
def below (frame : FrameRef) : List (Item σ) → List (Item σ)
  | [] => []
  | .body f :: rest | .leaving f :: rest => if f = frame then rest else below frame rest
  | _ :: rest => below frame rest

namespace Thread

def record (t : Thread σ) (event : Event) : Thread σ := { t with log := t.log ++ [event] }

/-- `raise_exception`, which is back in the block of the frame by `longjmp`. There,
`__exc_try` calls `exception_unwind`. -/
def raiseException (t : Thread σ) : Thread σ :=
  match t.context with
  | none => t
  | some frame =>
    { t.record (.jumped frame) with
      stack := .catchers frame 1 false :: .leaving frame :: below frame t.stack }

/-- `TRY_WITH`, up to the body. -/
def tryWith (t : Thread σ) (body : Code σ true) : Thread σ :=
  let frame := t.framesUsed
  { t.record (.pushed frame t.context) with
    frames := update t.frames frame { next := t.context, catchers := [], finalizers := [] }
    framesUsed := frame + 1
    context := some frame
    stack := @Item.code σ true frame body :: .body frame :: t.stack }

/-- `ON_ERROR` and `FINALLY`, which put a handler into a list of `__frame`. -/
def register (t : Thread σ) (frame : FrameRef) (kind : Kind) (handler : Int → Code σ false) :
    Thread σ :=
  let xframe : Handler σ := { ref := t.handlersUsed, handler := handler }
  let old := t.frames frame
  { t.record (.registered frame kind xframe.ref) with
    frames := update t.frames frame (match kind with
      | .catcher => { old with catchers := xframe :: old.catchers }
      | .finalizer => { old with finalizers := xframe :: old.finalizers })
    handlersUsed := t.handlersUsed + 1 }

/-- The next statement of some code. -/
def execute (t : Thread σ) {inBlock : Bool} (scope : Scope inBlock) :
    Code σ inBlock → Thread σ
  | .done => t
  | .act change rest => { t with state := change t.state, stack := .code scope rest :: t.stack }
  | .branch choose => { t with stack := .code scope (choose t.state) :: t.stack }
  | .raise rest => { t with stack := .code scope rest :: t.stack }.raiseException
  | .tryWith body rest => { t with stack := .code scope rest :: t.stack }.tryWith body
  | .onError handler rest =>
    { t with stack := .code scope rest :: t.stack }.register scope .catcher fun _ => handler
  | .onFinally handler rest =>
    { t with stack := .code scope rest :: t.stack }.register scope .finalizer handler

/-- The body of a block is left at its end: `__exc_exit_try`, up to the loops of
`exception_unwind`. There has to be a frame. -/
def exitTry (t : Thread σ) : Option (Thread σ) :=
  t.context.map fun frame =>
    { t.record (.exiting frame) with
      frames := update t.frames frame { t.frames frame with catchers := [] }
      stack := .catchers frame 0 false :: t.stack }

/-- One round of the first loop of `exception_unwind`. -/
def runCatcher (t : Thread σ) (frame : FrameRef) (errcode : Int) (captured : Bool) : Thread σ :=
  let top := t.frames frame
  match top.catchers with
  | [] => { t with stack := .finalizers frame errcode captured :: t.stack }
  | c :: next =>
    { t.record (.called frame .catcher c.ref) with
      frames := update t.frames frame { top with catchers := next }
      stack := @Item.code σ false () (c.handler errcode) ::
        .catchers frame errcode true :: t.stack }

/-- One round of the second loop, or what follows it. -/
def runFinalizer (t : Thread σ) (frame : FrameRef) (errcode : Int) (captured : Bool) : Thread σ :=
  let top := t.frames frame
  match top.finalizers with
  | [] =>
    let t := { t.record (.popped frame top.next) with context := top.next }
    if errcode ≠ 0 ∧ captured = false then t.raiseException else t
  | fin :: next =>
    { t.record (.called frame .finalizer fin.ref) with
      frames := update t.frames frame { top with finalizers := next }
      stack := @Item.code σ false () (fin.handler errcode) ::
        .finalizers frame errcode captured :: t.stack }

/-- One step; `none` is a thread that has ended, or that uses a `NULL` context. -/
def step (t : Thread σ) : Option (Thread σ) :=
  match t.stack with
  | [] => none
  | .code scope code :: rest => some ({ t with stack := rest }.execute scope code)
  | .body frame :: rest => { t with stack := .leaving frame :: rest }.exitTry
  | .leaving frame :: rest => some ({ t with stack := rest }.record (.passed frame))
  | .catchers frame errcode captured :: rest =>
    some ({ t with stack := rest }.runCatcher frame errcode captured)
  | .finalizers frame errcode captured :: rest =>
    some ({ t with stack := rest }.runFinalizer frame errcode captured)

/-- Some steps, or as many as there are. -/
def run : Nat → Thread σ → Thread σ
  | 0, t => t
  | n + 1, t => match t.step with
    | none => t
    | some t => run n t

/-- The thread before a program, with an empty exception stack. -/
def start (program : Code σ false) (state : σ) : Thread σ where
  state := state
  context := none
  frames _ := { next := none, catchers := [], finalizers := [] }
  framesUsed := 0
  handlersUsed := 0
  stack := [@Item.code σ false () program]
  log := []

/-- Steps of the thread lead from one state to another. -/
def Reaches (t t' : Thread σ) : Prop := ∃ n, run n t = t'

section
variable {t t' t'' : Thread σ}

theorem run_add (n k : Nat) (t : Thread σ) : run (n + k) t = run k (run n t) := by
  induction n generalizing t with
  | zero => rw [Nat.zero_add, run]
  | succ n ih =>
    rw [Nat.succ_add, run, run]
    cases ended : t.step with
    | none => cases k <;> simp [run, ended]
    | some t => exact ih t

theorem Reaches.refl (t : Thread σ) : t.Reaches t := ⟨0, rfl⟩

theorem Reaches.trans (first : t.Reaches t') (second : t'.Reaches t'') : t.Reaches t'' := by
  obtain ⟨n, rfl⟩ := first
  obtain ⟨k, rfl⟩ := second
  exact ⟨n + k, run_add n k t⟩

theorem Reaches.head (moved : t.step = some t') (later : t'.Reaches t'') : t.Reaches t'' := by
  obtain ⟨n, rfl⟩ := later
  exact ⟨n + 1, by rw [run, moved]⟩

end
end Thread
end TinyOs.Exceptions
