import Mathlib.Data.List.Induction
import TinyOs.ExceptionSafety

/-! Which exceptions are propagated from a `TRY_WITH` block. -/
namespace TinyOs.Exceptions

/-- A handler that catches, after which no handler has raised an exception. -/
def CatchesLast (runs : List HandlerRun) : Prop :=
  ∃ before last after, runs = before ++ last :: after ∧ last.kind = .catcher ∧
    ∀ h ∈ last :: after, h.raised = false

theorem catchesLast_concat {runs : List HandlerRun} {h : HandlerRun} :
    CatchesLast (runs ++ [h]) ↔ h.raised = false ∧ (h.kind = .catcher ∨ CatchesLast runs) := by
  constructor
  · rintro ⟨before, last, after, same, catcher, quiet⟩
    obtain rfl | ⟨after, final, rfl⟩ := List.eq_nil_or_concat' after
    · obtain ⟨-, one⟩ := List.append_inj' same rfl
      obtain rfl := List.singleton_inj.mp one
      exact ⟨quiet h List.mem_cons_self, .inl catcher⟩
    · rw [← List.cons_append, ← List.append_assoc] at same
      obtain ⟨rfl, one⟩ := List.append_inj' same rfl
      obtain rfl := List.singleton_inj.mp one
      refine ⟨quiet h (by simp), .inr ⟨before, last, after, rfl, catcher, fun g member => ?_⟩⟩
      apply quiet g
      simp only [List.mem_cons, List.mem_append] at member ⊢
      tauto
  · rintro ⟨quiet, catcher | ⟨before, last, after, rfl, catcher, others⟩⟩
    · exact ⟨runs, h, [], rfl, catcher, by simpa using quiet⟩
    · refine ⟨before, last, after ++ [h], by simp, catcher, fun g member => ?_⟩
      rw [← List.cons_append, List.mem_append, List.mem_singleton] at member
      rcases member with early | rfl
      · exact others g early
      · exact quiet

/-- The variables of `exception_unwind`, after all handlers: whether there is an
exception, and whether it counts as captured. -/
theorem after_runs (errcode : Int) (runs : List HandlerRun) :
    ((runs.foldl HandlerRun.after (errcode, false)).1 ≠ 0 ↔
      errcode ≠ 0 ∨ ∃ h ∈ runs, h.raised = true) ∧
    ((runs.foldl HandlerRun.after (errcode, false)).2 = true ↔ CatchesLast runs) := by
  induction runs using List.reverseRecOn with
  | nil => simp [CatchesLast]
  | append_singleton runs h ih =>
    obtain ⟨error, captured⟩ := ih
    rw [List.foldl_append, List.foldl_cons, List.foldl_nil, catchesLast_concat]
    cases raised : h.raised with
    | true =>
      have last : ∃ g ∈ runs ++ [h], g.raised = true := ⟨h, by simp, raised⟩
      simp [HandlerRun.after, raised]
    | false =>
      have others : (∃ g ∈ runs ++ [h], g.raised = true) ↔ ∃ g ∈ runs, g.raised = true := by
        simp [or_and_right, exists_or, raised]
      rw [others, ← error, ← captured]
      simp [HandlerRun.after, raised, or_comm]

namespace BlockRun
variable {b : BlockRun} {frame : FrameRef} {log : List Event}

/-- An exception has come to the block, out of its body or a handler of it. -/
def Excepted (b : BlockRun) : Prop := b.reached = true ∨ ∃ h ∈ b.runs, h.raised = true

/-- A handler of `ON_ERROR` was executed. -/
def Caught (b : BlockRun) : Prop := ∃ h ∈ b.runs, h.kind = .catcher

/-- A caught exception is not propagated: after the handlers, the execution goes
on after the block. Another exception is raised again in the enclosing block. -/
structure Captures (b : BlockRun) (log : List Event) (frame : FrameRef) : Prop where
  caught : b.Excepted → b.Caught → b.passed = true
  uncaught : b.Excepted → ¬ b.Caught → ∀ outer, b.next = some outer →
    b.passed = false ∧ [.popped frame (some outer), .jumped outer] <:+: log

theorem propagates_iff : b.propagates = true ↔ b.Excepted ∧ ¬ CatchesLast b.runs := by
  obtain ⟨error, captured⟩ := after_runs (if b.reached then 1 else 0) b.runs
  have reached : (if b.reached then (1 : Int) else 0) ≠ 0 ↔ b.reached = true := by
    cases b.reached <;> simp
  rw [propagates, decide_eq_true_iff, unwound, error, reached, ← captured, Bool.not_eq_true]
  rfl

theorem caught_of_catchesLast (last : CatchesLast b.runs) : b.Caught := by
  obtain ⟨before, h, after, same, catcher, -⟩ := last
  exact ⟨h, by simp [same], catcher⟩

/-- Catchers are called for exceptions only. -/
theorem excepted_of_caught (shown : Shows log frame b) (caught : b.Caught) : b.Excepted := by
  obtain ⟨h, member, catcher⟩ := caught
  have due : (h.kind, h.ref) ∈ b.due := by
    rw [← shown.handlers]
    exact List.mem_map.mpr ⟨h, member, rfl⟩
  rcases (mem_due.mp due).2 with finalizer | reached
  · exact absurd (catcher.symm.trans finalizer) (by simp)
  · exact .inl reached

theorem captures_iff (shown : Shows log frame b) :
    b.Captures log frame ↔ b.next = none ∨ ¬ b.Caught ∨ CatchesLast b.runs := by
  have passed := shown.passed
  rw [propagates_iff] at passed
  constructor
  · intro captures
    by_contra defect
    simp only [not_or, not_not] at defect
    obtain ⟨enclosed, caught, last⟩ := defect
    have excepted := excepted_of_caught shown caught
    have left := passed.mpr ⟨⟨excepted, last⟩, enclosed⟩
    exact absurd (captures.caught excepted caught) (by simp [left])
  · intro condition
    constructor
    · intro excepted caught
      by_contra left
      obtain ⟨⟨-, last⟩, enclosed⟩ := passed.mp (Bool.eq_false_iff.mpr left)
      rcases condition with outermost | uncaught | catches
      · exact enclosed outermost
      · exact uncaught caught
      · exact last catches
    · intro excepted uncaught outer same
      have last : ¬ CatchesLast b.runs := fun catches => uncaught (caught_of_catchesLast catches)
      have left := passed.mpr ⟨⟨excepted, last⟩, by simp [same]⟩
      exact ⟨left, same ▸ shown.again left outer same⟩

end BlockRun

/-- **A caught exception is not propagated** if and only if there is no enclosing
block, or no catcher of the block was executed, or one was after which no handler
of the block has raised an exception: `captured` is a local variable of
`exception_unwind`, which is called anew when a handler raises. -/
theorem caught_iff (program : Code σ false) (state : σ) :
    ∃ t, (Thread.start program state).Reaches t ∧ t.stack = [] ∧
      ∀ frame < t.framesUsed, ∃ b : BlockRun, Shows t.log frame b ∧
        (b.Captures t.log frame ↔ b.next = none ∨ ¬ b.Caught ∨ CatchesLast b.runs) := by
  obtain ⟨t, reached, ended, -, -, blocks⟩ := program_runs program state
  refine ⟨t, reached, ended, fun frame used => ?_⟩
  obtain ⟨b, shown⟩ := blocks frame used
  exact ⟨b, shown, BlockRun.captures_iff shown⟩

/-- A block whose only catcher raises an exception, in a block without handlers. -/
def catcherRaises : Code Unit false :=
  .tryWith (.tryWith (.onError (.raise .done) (.raise .done)) .done) .done

/-- The exception is caught in the inner block, and the outer one is unwound. -/
theorem caught_and_propagated : ∃ (t : Thread Unit) (b : BlockRun), (Thread.start catcherRaises ()).Reaches t ∧ t.stack = [] ∧
    about 1 t.log = b.events 1 ∧ b.Excepted ∧ b.Caught ∧ ¬ b.Captures t.log 1 ∧
    [.popped 1 (some 0), .jumped 0] <:+: t.log := by
  refine ⟨Thread.run 16 (Thread.start catcherRaises ()),
    ⟨some 0, [(.catcher, 0)], true, [⟨.catcher, 0, true⟩], false⟩, ⟨16, rfl⟩, rfl, rfl, .inl rfl,
    ⟨_, List.mem_cons_self, rfl⟩, fun captures => ?_, ?_⟩
  · have passed := captures.caught (.inl rfl) ⟨_, List.mem_cons_self, rfl⟩
    cases passed
  · exact ⟨[.pushed 0 none, .pushed 1 (some 0), .registered 1 .catcher 0, .jumped 1,
      .called 1 .catcher 0, .jumped 1], [.popped 0 none, .passed 0], rfl⟩

end TinyOs.Exceptions
