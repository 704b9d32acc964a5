import TinyOs.Library.Counting
import TinyOs.RemoteServer
import TinyOs.RemoteSessionSafety

/-! Which sessions of the remote server are cleaned up. A session gives back the file id
of its connection when its request is complete. Its thread returns, unless it waits for
any child of the server because `Execute` has failed. And it is no longer counted,
unless the listener increments `active_conn` at the same time. -/
namespace TinyOs.RemoteSession
open Function Library ArgVector
open Kernel (maxFileid maxProc noproc Pid FcbRef)

/-! ### The actions of a thread -/

/-- What the threads of sessions do: fail, stop the server, or execute the request. -/
inductive Plan (session : Session) : (Int → List Action) → Prop where
  | fails (incomplete : ¬ Complete session.sent) : Plan session fun _ => failed
  | stops (incomplete : ¬ Complete session.sent) : Plan session fun _ => stopped
  | executes {argc argv} (complete : Complete session.sent) :
      Plan session fun pid => executed session.sock pid argc argv

theorem Session.plan {session : Session} (legal : session.sock < maxFileid) :
    Plan session session.actions := by
  have actions : ∀ {pid actions rest},
      rsrvClient session.sock pid ⟨session.sent, session.cut, 0⟩ = some (actions, rest) →
        session.actions pid = actions := fun runs => by rw [Session.actions, runs]
  rcases rsrvClient_paths session.sock ⟨session.sent, session.cut, 0⟩ legal with
    ⟨incomplete, fails | stops⟩ | ⟨complete, argc, argv, runs⟩
  · rw [show session.actions = fun _ => failed from funext fun pid => actions (fails pid).choose_spec]
    exact .fails incomplete
  · rw [show session.actions = fun _ => stopped from
      funext fun pid => actions (stops pid).choose_spec]
    exact .stops incomplete
  · rw [show session.actions = fun pid => executed session.sock pid argc argv from
      funext fun pid => actions (runs pid).choose_spec]
    exact .executes complete

namespace Plan
variable {session : Session} {program : Int → List Action} {pid : Int} {done : Nat}

/-- A connection is closed and the count decremented at most once, and `WaitChild`
called at most once. -/
theorem counts (plan : Plan session program) (pid : Int) :
    (program pid).count (.close session.sock) ≤ 1 ∧ (program pid).count .storeActive ≤ 1 ∧
      (program pid).count (.waitChild pid) ≤ 1 := by
  cases plan with
  | fails | stops | executes => simp [failed, stopped, executed, finish]

/-- A thread that does not stop the server decrements the count, and closes its connection
if and only if the request is complete. -/
theorem releases (plan : Plan session program) (alive : .abort ∉ program pid) :
    (program pid).count .storeActive = 1 ∧
      ((program pid).count (.close session.sock) = 1 ↔ Complete session.sent) := by
  cases plan with
  | stops => exact absurd (by simp [stopped]) alive
  | fails incomplete => simp [failed, finish, incomplete]
  | executes complete => simp [executed, finish, complete]

theorem own_close {fd : Nat} (plan : Plan session program) (closes : .close fd ∈ program pid) :
    fd = session.sock := by
  cases plan with
  | fails | stops => simp [failed, stopped, finish] at closes
  | executes => simpa [executed, finish] using closes

theorem own_child {cpid : Int} (plan : Plan session program)
    (waits : .waitChild cpid ∈ program pid) : cpid = pid := by
  cases plan with
  | fails | stops => simp [failed, stopped, finish] at waits
  | executes => simpa [executed, finish] using waits

theorem complete_of_alive (plan : Plan session program) (complete : Complete session.sent)
    (pid : Int) : .abort ∉ program pid := by
  cases plan with
  | fails incomplete | stops incomplete => exact absurd complete incomplete
  | executes => simp [executed, finish]

/-- No thread takes more steps than this. -/
theorem length_le (plan : Plan session program) (pid : Int) : (program pid).length ≤ 11 := by
  cases plan with
  | fails | stops | executes => simp [failed, stopped, executed, finish]

/-- Up to `Execute`, a thread does not know what it gives. -/
theorem take_execute {prog : String} {argc : Nat} {argv : List Chars} (plan : Plan session program)
    (next : (program pid)[done]? = some (.execute prog argc argv)) (pid' : Int) :
    (program pid').take (done + 1) = (program pid).take done ++ [.execute prog argc argv] ∧
      .waitChild pid' ∉ (program pid').take (done + 1) := by
  cases plan with
  | fails | stops => exact absurd (List.mem_of_getElem? next) (by simp [failed, stopped, finish])
  | executes complete =>
    rcases done with _ | _ | _ | later
    · cases next
    · cases next
    · rw [← Option.some.inj next]
      simp [executed]
    · exact absurd (List.mem_of_getElem? (i := later) next) (by simp [finish])

end Plan

/-- After the first four actions from the label `finish` on comes another one of them. -/
theorem finish_next {before : List Action} {action : Action} {done : Nat}
    (apart : ∀ action ∈ finish, action ∉ before)
    (next : (before ++ finish)[done]? = some action) (early : action ∈ finish.dropLast) :
    ∃ later ∈ finish.tail, (before ++ finish)[done + 1]? = some later := by
  by_cases outside : done < before.length
  · rw [List.getElem?_append_left outside] at next
    exact absurd (List.mem_of_getElem? next) (apart action (List.dropLast_subset _ early))
  · obtain ⟨i, rfl⟩ := Nat.exists_eq_add_of_le (not_lt.mp outside)
    rw [List.getElem?_append_right (Nat.le_add_right ..), Nat.add_sub_cancel_left] at next
    rw [Nat.add_assoc, List.getElem?_append_right (Nat.le_add_right ..), Nat.add_sub_cancel_left]
    match i, next with
    | 0, _ | 1, _ | 2, _ | 3, _ => exact ⟨_, by simp [finish], rfl⟩
    | 4, next =>
      obtain rfl := Option.some.inj next
      simp [finish] at early

theorem Plan.section_next {session : Session} {program : Int → List Action} {pid : Int}
    {done : Nat} {action : Action} (plan : Plan session program)
    (next : (program pid)[done]? = some action) (early : action ∈ finish.dropLast) :
    ∃ later ∈ finish.tail, (program pid)[done + 1]? = some later := by
  cases plan with
  | fails | executes => exact finish_next (by simp [finish]) next early
  | stops =>
    have member := List.mem_of_getElem? next
    simp only [stopped, List.mem_cons, List.not_mem_nil, or_false] at member
    rcases member with rfl | rfl | rfl
    all_goals simp [finish] at early

/-! ### One action -/

/-- The actions a thread has done. -/
def Thread.past (t : Thread) : List Action := t.actions.take t.done

/-- The thread has gone through `rsrv_client`. -/
def Thread.Returned (t : Thread) : Prop := t.done = t.actions.length

/-- Its next action is one of those between `Mutex_Lock` and `Mutex_Unlock` at the label
`finish`. -/
def Thread.Inside (t : Thread) : Prop := ∃ action ∈ finish.tail, t.actions[t.done]? = some action

/-- The thread runs `rsrv_client` for its connection. -/
structure Thread.Runs (t : Thread) : Prop where
  legal : t.session.sock < maxFileid
  plan : Plan t.session t.program
  within : t.done ≤ t.actions.length
  alive : .abort ∉ t.past
  waits : t.waiting = true → t.actions[t.done]? = some (.waitChild t.pid)

section
variable {s s' : Server} {t t' : Thread} {did : Option Action}

theorem Thread.start_runs {session : Session} (legal : session.sock < maxFileid) :
    (Thread.start session).Runs where
  legal := legal
  plan := session.plan legal
  within := Nat.zero_le _
  alive := by simp [Thread.past, Thread.start]
  waits := nofun

theorem Thread.past_next {action : Action} (next : t.actions[t.done]? = some action) :
    t.next.past = t.past ++ [action] := by
  change t.actions.take (t.done + 1) = _
  rw [List.take_add_one, next]
  rfl

theorem Thread.Runs.next {action : Action} (runs : t.Runs) (next : t.actions[t.done]? = some action)
    (alive : action ≠ .abort) : t.next.Runs where
  legal := runs.legal
  plan := runs.plan
  within := (List.getElem?_eq_some_iff.mp next).1
  alive := by
    rw [Thread.past_next next]
    simpa using ⟨runs.alive, alive.symm⟩
  waits := nofun

/-- What every action does with its thread. -/
theorem Acted.runs (acted : Acted s t did s' t') (runs : t.Runs) :
    t'.Runs ∧ t'.session = t.session ∧ t'.past = t.past ++ did.toList := by
  cases acted with
  | takeId next | logMessage next | close next | refused next | reaped next | mutexLock next
  | storeActive next | condBroadcast next | mutexUnlock next =>
    exact ⟨runs.next next (by simp), rfl, Thread.past_next next⟩
  | loadActive next =>
    obtain ⟨legal, plan, within, alive, waits⟩ := runs.next next (by simp)
    exact ⟨⟨legal, plan, within, alive, waits⟩, rfl, Thread.past_next next⟩
  | @execute prog argc argv pid next gives =>
    obtain ⟨past, -⟩ := runs.plan.take_execute next pid
    have past : (t.program pid).take (t.done + 1) = t.past ++ [.execute prog argc argv] := past
    have length := congrArg List.length past
    rw [List.length_take, List.length_append, Thread.past, List.length_take,
      min_eq_left runs.within, List.length_singleton] at length
    refine ⟨⟨runs.legal, runs.plan, min_eq_left_iff.mp length, ?_, nofun⟩, rfl, past⟩
    change .abort ∉ (t.program pid).take (t.done + 1)
    rw [past]
    simpa using runs.alive
  | waits next =>
    obtain rfl := runs.plan.own_child (List.mem_of_getElem? next)
    exact ⟨⟨runs.legal, runs.plan, runs.within, runs.alive, fun _ => next⟩, rfl,
      (List.append_nil _).symm⟩
  | abort => exact ⟨runs, rfl, (List.append_nil _).symm⟩

/-! ### What an action changes -/

/-- Whether the thread's connection has not been closed. -/
def Thread.holding (t : Thread) : Nat := 1 - t.past.count (.close t.session.sock)

/-- Whether the thread is still counted in `active_conn`. -/
def Thread.working (t : Thread) : Nat := 1 - t.past.count .storeActive

/-- An action done for the first time has not been done before. -/
theorem count_once {action : Action} {past all : List Action} (part : (past ++ [action]).Sublist all)
    (once : all.count action ≤ 1) : past.count action = 0 ∧ (past ++ [action]).count action = 1 := by
  have less := (part.count_le action).trans once
  rw [List.count_append, List.count_singleton_self] at less ⊢
  omega

theorem count_other {action other : Action} (past : List Action) (apart : other ≠ action) :
    (past ++ [other]).count action = past.count action := by
  rw [List.count_append, List.count_singleton, if_neg (by simpa using apart), Nat.add_zero]

/-- The file table only changes when a thread closes its connection, which was open until
then. -/
theorem Acted.table (acted : Acted s t did s' t') (runs : t.Runs) :
    s'.FIDT = s.FIDT ∧ t'.holding = t.holding ∨
      s'.FIDT = update s.FIDT t.session.sock none ∧ t.holding = 1 ∧ t'.holding = 0 := by
  obtain ⟨runs', same, past⟩ := acted.runs runs
  have part : t'.past.Sublist t'.actions := List.take_sublist ..
  have once := (runs'.plan.counts t'.pid).1
  rw [same] at once
  simp only [Thread.holding, same]
  cases acted with
  | @close fd next =>
    obtain rfl := runs.plan.own_close (List.mem_of_getElem? next)
    rw [past] at part ⊢
    obtain ⟨before, after⟩ := count_once part once
    refine .inr ⟨?_, ?_, ?_⟩
    · rw [Server.close, if_pos runs.legal]
    · rw [before]
    · rw [Option.toList_some, after]
  | waits | abort => exact .inl ⟨rfl, by rw [past, Option.toList_none, List.append_nil]⟩
  | reaped next waiting reaps =>
    obtain ⟨child, rfl, -⟩ := Server.reap_cases reaps
    refine .inl ⟨Server.cleanupZombie_FIDT .., ?_⟩
    rw [past, Option.toList_some, count_other _ (by simp)]
  | takeId | logMessage | execute | refused | mutexLock | loadActive | storeActive | condBroadcast
  | mutexUnlock =>
    exact .inl ⟨rfl, by rw [past, Option.toList_some, count_other _ (by simp)]⟩

/-- The count only changes when a thread stores it, which then is no longer counted. -/
theorem Acted.active (acted : Acted s t did s' t') (runs : t.Runs) :
    t.actions[t.done]? ≠ some .storeActive ∧ s'.active_conn = s.active_conn ∧
        t'.working = t.working ∨
      t.actions[t.done]? = some .storeActive ∧ s'.active_conn = t.loaded - 1 ∧
        t.working = 1 ∧ t'.working = 0 := by
  obtain ⟨runs', same, past⟩ := acted.runs runs
  have part : t'.past.Sublist t'.actions := List.take_sublist ..
  have once := (runs'.plan.counts t'.pid).2.1
  simp only [Thread.working]
  cases acted with
  | storeActive next =>
    rw [past] at part ⊢
    obtain ⟨before, after⟩ := count_once part once
    exact .inr ⟨next, rfl, by rw [before], by rw [Option.toList_some, after]⟩
  | waits next | abort next =>
    exact .inl ⟨by simp [next], rfl, by rw [past, Option.toList_none, List.append_nil]⟩
  | reaped next waiting reaps =>
    obtain ⟨child, rfl, -⟩ := Server.reap_cases reaps
    refine .inl ⟨by simp [next], Server.cleanupZombie_active_conn .., ?_⟩
    rw [past, Option.toList_some, count_other _ (by simp)]
  | @close fd next =>
    refine .inl ⟨by simp [next], ?_, by rw [past, Option.toList_some, count_other _ (by simp)]⟩
    unfold Server.close
    split <;> rfl
  | takeId next | logMessage next | execute next | refused next | mutexLock next | loadActive next
  | condBroadcast next | mutexUnlock next =>
    exact .inl ⟨by simp [next], rfl, by rw [past, Option.toList_some, count_other _ (by simp)]⟩

/-- Who holds the mutex afterwards is inside the section of the label `finish`. -/
theorem Acted.mutex (acted : Acted s t did s' t') (runs : t.Runs) (locked : s'.mx = true) :
    t'.Inside ∨ s.mx = true ∧ ¬ t.Inside := by
  have inside_next : ∀ {action}, t.actions[t.done]? = some action → action ∈ finish.dropLast →
      t.next.Inside := fun next early => runs.plan.section_next next early
  have outside : ∀ {action}, t.actions[t.done]? = some action → action ∉ finish.tail →
      ¬ t.Inside := by
    rintro action next absent ⟨other, member, same⟩
    cases next.symm.trans same
    exact absent member
  cases acted with
  | mutexLock next | loadActive next | storeActive next | condBroadcast next =>
    exact .inl (inside_next next (by simp [finish]))
  | mutexUnlock => cases locked
  | waits next first => exact .inr ⟨locked, outside next (by simp [finish])⟩
  | reaped next waiting reaps =>
    obtain ⟨child, rfl, -⟩ := Server.reap_cases reaps
    rw [Server.cleanupZombie_mx] at locked
    exact .inr ⟨locked, outside next (by simp [finish])⟩
  | @close fd next =>
    refine .inr ⟨?_, outside next (by simp [finish])⟩
    unfold Server.close at locked
    split at locked <;> exact locked
  | takeId next | logMessage next | execute next | refused next | abort next =>
    exact .inr ⟨locked, outside next (by simp [finish])⟩

end

/-! ### The server over a run -/

/-- The connection that the listener has accepted and not given to a thread. -/
def Listener.session : Listener → Option Session
  | .accept => none
  | .loadActive session | .storeActive session _ | .countTotal session
  | .createThread session => some session

/-- Whether the listener has counted a connection that it has not given to a thread. -/
def Listener.counted : Listener → Nat
  | .accept | .loadActive _ | .storeActive .. => 0
  | .countTotal _ | .createThread _ => 1

def Listener.holding (l : Listener) (fid : Nat) : Nat :=
  match l.session with
  | none => 0
  | some session => if session.sock = fid then 1 else 0

/-- How many connections are open with this file id. -/
def System.holders (s : System) (fid : Nat) : Nat :=
  s.listener.holding fid +
    (s.threads.map fun t => if t.session.sock = fid then t.holding else 0).sum

/-- How many connections have been counted and not been left. -/
def System.counted (s : System) : Nat :=
  s.listener.counted + (s.threads.map Thread.working).sum

/-- The file ids in use are those of the server before and of the open connections, and
the mutex is held by a thread that can go on. -/
structure Keeps (FIDT : Nat → Option FcbRef) (s : System) : Prop where
  listener : ∀ session, s.listener.session = some session → session.sock < maxFileid
  threads : ∀ t ∈ s.threads, t.Runs
  table : ∀ fid, s.holders fid = 0 ∧ s.server.FIDT fid = FIDT fid ∨
    s.holders fid = 1 ∧ s.server.FIDT fid ≠ none ∧ FIDT fid = none
  mutex : s.server.mx = true → ∃ t ∈ s.threads, t.Inside

section
variable {FIDT : Nat → Option FcbRef} {s s' : System} {label : Label} {i : Nat}
  {server : Server} {t t' : Thread} {did : Option Action}

theorem holders_set (server : Server) (thread : s.threads[i]? = some t)
    (same : t'.session = t.session) (fid : Nat) :
    System.holders { s with server := server, threads := s.threads.set i t' } fid +
        (if t.session.sock = fid then t.holding else 0) =
      s.holders fid + if t.session.sock = fid then t'.holding else 0 := by
  have sums := sum_map_set thread t' fun t => if t.session.sock = fid then t.holding else 0
  simp only [same] at sums
  simp only [System.holders]
  omega

theorem counted_set (server : Server) (t' : Thread) (thread : s.threads[i]? = some t) :
    System.counted { s with server := server, threads := s.threads.set i t' } + t.working =
      s.counted + t'.working := by
  have sums := sum_map_set thread t' Thread.working
  simp only [System.counted]
  omega

theorem start_holding {session : Session} : (Thread.start session).holding = 1 := rfl

theorem start_working {session : Session} : (Thread.start session).working = 1 := rfl

theorem keeps_start : Keeps FIDT ⟨remoteServer FIDT, .accept, []⟩ where
  listener := nofun
  threads := nofun
  table _ := .inl ⟨rfl, rfl⟩
  mutex := nofun

theorem Keeps.accept (keeps : Keeps FIDT s) {session : Session} (stream : FcbRef)
    (here : s.listener = .accept) (legal : session.sock < maxFileid)
    (free : s.server.FIDT session.sock = none) :
    Keeps FIDT { s with
      server.FIDT := update s.server.FIDT session.sock (some stream)
      listener := .loadActive session } where
  listener session' same := by
    obtain rfl := Option.some.inj same
    exact legal
  threads := keeps.threads
  mutex := keeps.mutex
  table fid := by
    have before := keeps.table fid
    simp only [System.holders, here, Listener.holding, Listener.session] at before ⊢
    by_cases same : session.sock = fid
    · subst same
      rcases before with ⟨nobody, kept⟩ | ⟨-, taken, -⟩
      · refine .inr ⟨?_, ?_, kept ▸ free⟩
        · rw [if_pos rfl]
          omega
        · rw [update_self]
          exact Option.some_ne_none stream
      · exact absurd free taken
    · rw [if_neg same, update_of_ne (Ne.symm same)]
      exact before

theorem Keeps.createThread (keeps : Keeps FIDT s) {session : Session}
    (here : s.listener = .createThread session) :
    Keeps FIDT { s with listener := .accept, threads := s.threads ++ [.start session] } where
  listener := nofun
  threads := by
    have legal := keeps.listener session (by rw [here]; rfl)
    rintro t member
    rcases List.mem_append.mp member with old | new
    · exact keeps.threads t old
    · obtain rfl := List.mem_singleton.mp new
      exact Thread.start_runs legal
  table fid := by
    have before := keeps.table fid
    simp only [System.holders, here, Listener.holding, Listener.session, List.map_append,
      List.sum_append, List.map_singleton, List.sum_singleton, start_holding] at before ⊢
    rwa [Nat.zero_add, Nat.add_comm]
  mutex locked := by
    obtain ⟨t, member, inside⟩ := keeps.mutex locked
    exact ⟨t, List.mem_append_left _ member, inside⟩

theorem Keeps.act (keeps : Keeps FIDT s) (thread : s.threads[i]? = some t)
    (acted : Acted s.server t did server t') :
    Keeps FIDT { s with server := server, threads := s.threads.set i t' } := by
  have member := List.mem_of_getElem? thread
  have runs := keeps.threads t member
  obtain ⟨runs', same, -⟩ := acted.runs runs
  have here : t' ∈ s.threads.set i t' :=
    List.mem_iff_getElem?.mpr ⟨i, by rw [List.getElem?_set_self' , thread]; rfl⟩
  refine ⟨keeps.listener, fun u later => ?_, fun fid => ?_, fun locked => ?_⟩
  · rcases List.mem_or_eq_of_mem_set later with old | rfl
    · exact keeps.threads u old
    · exact runs'
  · have sums := holders_set server thread same fid
    have before := keeps.table fid
    rcases acted.table runs with ⟨table, held⟩ | ⟨table, held, closed⟩
    · rw [held, Nat.add_right_cancel_iff] at sums
      rw [sums, table]
      exact before
    · rw [held, closed] at sums
      rw [table]
      by_cases mine : t.session.sock = fid
      · subst mine
        rw [if_pos rfl, if_pos rfl] at sums
        rw [update_self]
        rcases before with ⟨nobody, -⟩ | ⟨one, -, free⟩
        · omega
        · exact .inl ⟨by omega, free.symm⟩
      · rw [if_neg mine, if_neg mine, Nat.add_right_cancel_iff] at sums
        rw [sums, update_of_ne (Ne.symm mine)]
        exact before
  · rcases acted.mutex runs locked with inside | ⟨before, outside⟩
    · exact ⟨t', here, inside⟩
    · obtain ⟨u, other, inside⟩ := keeps.mutex before
      obtain ⟨j, found⟩ := List.mem_iff_getElem?.mp other
      have apart : i ≠ j := by
        rintro rfl
        cases thread.symm.trans found
        exact outside inside
      exact ⟨u, List.mem_iff_getElem?.mpr ⟨j, by rw [List.getElem?_set_ne apart, found]⟩, inside⟩

theorem Keeps.step (keeps : Keeps FIDT s) (stepped : Stepped s label s') : Keeps FIDT s' := by
  cases stepped with
  | accept here legal free => exact keeps.accept _ here legal free
  | refuse | exit => exact ⟨keeps.listener, keeps.threads, keeps.table, keeps.mutex⟩
  | loadActive here | storeActive here | countTotal here =>
    obtain ⟨listener, threads, table, mutex⟩ := keeps
    simp only [System.holders, here, Listener.holding, Listener.session] at listener table
    exact ⟨listener, threads, table, mutex⟩
  | createThread here => exact keeps.createThread here
  | act thread acted => exact keeps.act thread acted

theorem keeps_of_run {past : List (System × Label)} (run : (machine FIDT).Run past s) :
    Keeps FIDT s := by
  induction run with
  | start begins => exact begins ▸ keeps_start
  | step _ moved ih => exact ih.step (stepped_of_step moved).2

end

/-! ### The count -/

/-- `active_conn` is the number of connections counted and not left. -/
def System.Right (s : System) : Prop := s.server.active_conn = BitVec.ofNat 64 s.counted

/-- A store of `active_conn` finds it as it has been loaded. -/
def Undisturbed (s : System) : Label → Prop
  | .listen => ∀ session loaded, s.listener = .storeActive session loaded →
      loaded = s.server.active_conn
  | .act i _ => ∀ t, s.threads[i]? = some t → t.actions[t.done]? = some .storeActive →
      t.loaded = s.server.active_conn
  | _ => True

section
variable {FIDT : Nat → Option FcbRef} {s s' : System} {label : Label} {i : Nat} {t : Thread}

/-- A store is right exactly when nobody has come between it and its load. -/
theorem right_iff (keeps : Keeps FIDT s) (right : s.Right) (stepped : Stepped s label s') :
    s'.Right ↔ Undisturbed s label := by
  unfold System.Right at *
  cases stepped with
  | accept here | loadActive here | countTotal here =>
    refine iff_of_true ?_ (by simp [Undisturbed, here])
    simpa [System.counted, here, Listener.counted] using right
  | refuse | exit => exact iff_of_true right trivial
  | @storeActive session loaded here =>
    have undisturbed : Undisturbed s .listen ↔ loaded = s.server.active_conn := by
      simp [Undisturbed, here]
    rw [undisturbed, right]
    simp only [System.counted, here, Listener.counted, Nat.zero_add]
    rw [Nat.add_comm, BitVec.ofNat_add]
    exact BitVec.add_left_inj ..
  | @createThread session here =>
    refine iff_of_true ?_ (by simp [Undisturbed, here])
    rw [show _ = _ from right]
    congr 1
    simp only [System.counted, here, Listener.counted, List.map_append, List.sum_append,
      List.map_singleton, List.sum_singleton, start_working]
    omega
  | @act i _ t did server t' thread acted =>
    have undisturbed : ∀ pid, Undisturbed s (.act i pid) ↔
        (t.actions[t.done]? = some .storeActive → t.loaded = s.server.active_conn) := by
      simp [Undisturbed, thread]
    have sums := counted_set server t' thread
    rw [undisturbed]
    rcases acted.active (keeps.threads t (List.mem_of_getElem? thread)) with
      ⟨other, kept, same⟩ | ⟨stores, stored, before, after⟩
    · rw [same, Nat.add_right_cancel_iff] at sums
      refine iff_of_true ?_ fun stores => absurd stores other
      rw [sums]
      exact kept.trans right
    · rw [before, after, Nat.add_zero s.counted] at sums
      dsimp only
      rw [stored, right, ← sums, BitVec.ofNat_add]
      exact ⟨fun same _ => by rw [← same]; exact (BitVec.sub_add_cancel ..).symm,
        fun same => by rw [same stores]; exact BitVec.add_sub_cancel ..⟩

theorem right_start : System.Right ⟨remoteServer FIDT, .accept, []⟩ := rfl

/-- The count is right all the time exactly when nobody ever comes between a load of it
and the store. -/
theorem right_iff_undisturbed {past : List (System × Label)} (run : (machine FIDT).Run past s) :
    (∀ r, Machine.Visits past s r → r.Right) ↔ ∀ left ∈ past, Undisturbed left.1 left.2 :=
  Machine.good_iff_allowed Undisturbed (fun s => Keeps FIDT s ∧ s.Right)
    (fun s begins => by rw [begins]; exact ⟨keeps_start, right_start⟩)
    (fun s label t inv allowed moved =>
      have stepped := (stepped_of_step moved).2
      ⟨inv.1.step stepped, (right_iff inv.1 inv.2 stepped).mpr allowed⟩)
    (fun s inv => inv.2)
    (fun s label t inv refused moved right =>
      refused ((right_iff inv.1 inv.2 (stepped_of_step moved).2).mp right))
    run

end

/-! ### Children -/

/-- The request of an accepted connection is complete. -/
def Serviceable (_ : System) : Label → Prop
  | .accept session _ => Complete session.sent
  | _ => True

/-- A thread that waits for any child finds that the server has none. -/
def Childless (s : System) : Label → Prop
  | .act i _ => ∀ t, s.threads[i]? = some t → t.actions[t.done]? = some (.waitChild noproc) →
      s.server.children = []
  | _ => True

/-- The steps by which no session is lost. -/
structure Lawful (s : System) (label : Label) : Prop where
  serviceable : Serviceable s label
  undisturbed : Undisturbed s label
  childless : Childless s label

/-- The thread has a child that it has not reaped. -/
def Thread.Expects (t : Thread) : Prop := t.pid ≠ noproc ∧ .waitChild t.pid ∉ t.past

/-- All requests are complete, and each thread waits for a child of its own. -/
structure Sound (s : System) : Prop where
  running : s.server.fate = .running
  listener : ∀ session, s.listener.session = some session → Complete session.sent
  threads : ∀ t ∈ s.threads, Complete t.session.sent
  patient : ∀ t ∈ s.threads, t.waiting = true → t.pid ≠ noproc
  expected : ∀ t ∈ s.threads, t.Expects → t.pid.toNat ∈ s.server.children
  distinct : ∀ (i j : Nat) (t u : Thread), s.threads[i]? = some t → s.threads[j]? = some u →
    t.Expects → u.Expects → t.pid.toNat = u.pid.toNat → i = j

section
variable {FIDT : Nat → Option FcbRef} {s s' : System} {label : Label} {i : Nat} {t t' : Thread}
  {server : Server} {did : Option Action}

theorem sound_start : Sound ⟨remoteServer FIDT, .accept, []⟩ where
  running := rfl
  listener := nofun
  threads := nofun
  patient := nofun
  expected := nofun
  distinct := nofun

/-- A thread acts, and leaves the others their children. -/
theorem Sound.set (sound : Sound s) (thread : s.threads[i]? = some t)
    (same : t'.session = t.session) (running : server.fate = .running)
    (patient : t'.waiting = true → t'.pid ≠ noproc)
    (expected : t'.Expects → t'.pid.toNat ∈ server.children)
    (others : ∀ (j : Nat) (u : Thread), j ≠ i → s.threads[j]? = some u → u.Expects →
      u.pid.toNat ∈ server.children ∧ (t'.Expects → t'.pid.toNat ≠ u.pid.toNat)) :
    Sound { s with server := server, threads := s.threads.set i t' } := by
  have at_set : ∀ {j : Nat} {u : Thread}, (s.threads.set i t')[j]? = some u →
      j = i ∧ u = t' ∨ j ≠ i ∧ s.threads[j]? = some u := by
    intro j u found
    by_cases here : j = i
    · subst here
      rw [List.getElem?_set_self', thread] at found
      exact .inl ⟨rfl, (Option.some.inj found).symm⟩
    · rw [List.getElem?_set_ne (Ne.symm here)] at found
      exact .inr ⟨here, found⟩
  refine ⟨running, sound.listener, fun u member => ?_, fun u member => ?_, fun u member => ?_, ?_⟩
  · rcases List.mem_or_eq_of_mem_set member with old | rfl
    · exact sound.threads u old
    · rw [same]
      exact sound.threads t (List.mem_of_getElem? thread)
  · rcases List.mem_or_eq_of_mem_set member with old | rfl
    · exact sound.patient u old
    · exact patient
  · obtain ⟨j, found⟩ := List.mem_iff_getElem?.mp member
    rcases at_set found with ⟨-, rfl⟩ | ⟨apart, found⟩
    · exact expected
    · exact fun expects => (others j u apart found expects).1
  · intro j k u v foundU foundV expectsU expectsV one
    rcases at_set foundU with ⟨rfl, rfl⟩ | ⟨apartU, beforeU⟩
    · rcases at_set foundV with ⟨rfl, -⟩ | ⟨apartV, beforeV⟩
      · rfl
      · exact absurd one ((others k v apartV beforeV expectsV).2 expectsU)
    · rcases at_set foundV with ⟨rfl, rfl⟩ | ⟨apartV, beforeV⟩
      · exact absurd one.symm ((others j u apartU beforeU expectsU).2 expectsV)
      · exact sound.distinct j k u v beforeU beforeV expectsU expectsV one

/-- An action that has nothing to do with children. -/
theorem Sound.set_same (sound : Sound s) (thread : s.threads[i]? = some t)
    (same : t'.session = t.session) (pid : t'.pid = t.pid) (past : t'.past = t.past ++ did.toList)
    (running : server.fate = .running) (children : server.children = s.server.children)
    (patient : t'.waiting = true → t'.pid ≠ noproc) :
    Sound { s with server := server, threads := s.threads.set i t' } := by
  have before : t'.Expects → t.Expects := by
    rintro ⟨some_pid, ahead⟩
    rw [pid] at some_pid ahead
    rw [past] at ahead
    exact ⟨some_pid, fun member => ahead (List.mem_append_left _ member)⟩
  refine sound.set thread same running patient (fun expects => ?_) fun j u apart found expects => ?_
  · rw [children, pid]
    exact sound.expected t (List.mem_of_getElem? thread) (before expects)
  · rw [children, pid]
    refine ⟨sound.expected u (List.mem_of_getElem? found) expects, fun mine one => apart ?_⟩
    exact (sound.distinct i j t u thread found (before mine) expects one).symm

/-- The thread is done with `WaitChild`. -/
theorem Sound.set_reaped (sound : Sound s) (thread : s.threads[i]? = some t)
    (next : t.actions[t.done]? = some (.waitChild t.pid)) (running : server.fate = .running)
    (others : ∀ (j : Nat) (u : Thread), j ≠ i → s.threads[j]? = some u → u.Expects →
      u.pid.toNat ∈ server.children) :
    Sound { s with server := server, threads := s.threads.set i t.next } := by
  have done : ¬ t.next.Expects := by
    rintro ⟨-, ahead⟩
    rw [Thread.past_next next] at ahead
    exact ahead (List.mem_append_right _ (List.mem_singleton_self _))
  exact sound.set thread rfl running nofun (fun expects => absurd expects done)
    fun j u apart found expects => ⟨others j u apart found expects, fun mine => absurd mine done⟩

/-- A child whose thread is next to wait for it has not been reaped. -/
theorem expects_of_next (runs : t.Runs) (some_pid : t.pid ≠ noproc)
    (next : t.actions[t.done]? = some (.waitChild t.pid)) : t.Expects := by
  have part : t.next.past.Sublist t.actions := List.take_sublist ..
  rw [Thread.past_next next] at part
  have never := (count_once part (runs.plan.counts t.pid).2.2).1
  exact ⟨some_pid, List.count_eq_zero.mp never⟩

theorem Sound.act (sound : Sound s) (keeps : Keeps FIDT s) (thread : s.threads[i]? = some t)
    (acted : Acted s.server t did server t')
    (childless : t.actions[t.done]? = some (.waitChild noproc) → s.server.children = []) :
    Sound { s with server := server, threads := s.threads.set i t' } := by
  have member := List.mem_of_getElem? thread
  have runs := keeps.threads t member
  obtain ⟨-, same, past⟩ := acted.runs runs
  have own : ∀ {cpid}, t.actions[t.done]? = some (.waitChild cpid) → cpid = t.pid :=
    fun next => runs.plan.own_child (List.mem_of_getElem? next)
  have running := sound.running
  cases acted with
  | takeId | logMessage | mutexLock | loadActive | storeActive | condBroadcast | mutexUnlock =>
    exact sound.set_same thread same rfl past running rfl nofun
  | close =>
    refine sound.set_same thread same rfl past ?_ ?_ nofun
    all_goals
      unfold Server.close
      split
      · first | exact running | rfl
      · first | exact running | rfl
  | refused next =>
    obtain rfl := own next
    exact sound.set_reaped thread next running fun j u _ found =>
      sound.expected u (List.mem_of_getElem? found)
  | waits next first accepts =>
    refine sound.set_same thread same rfl past running rfl fun _ nobody => ?_
    obtain rfl := own next
    rw [show t.pid = noproc from nobody] at next accepts
    simp [Server.refuses, childless next] at accepts
  | reaped next waiting reaps =>
    obtain rfl := own next
    have some_pid := sound.patient t member waiting
    have expects := expects_of_next runs some_pid next
    obtain ⟨child, rfl, mine⟩ := Server.reap_cases reaps
    obtain rfl := mine some_pid
    rw [Server.cleanupZombie, if_pos (sound.expected t member expects)]
    refine sound.set_reaped thread next running fun j u apart found theirs => ?_
    refine (List.mem_erase_of_ne ?_).mpr (sound.expected u (List.mem_of_getElem? found) theirs)
    exact fun one => apart (sound.distinct j i u t found thread theirs expects one)
  | @execute prog argc argv pid next gives =>
    refine sound.set thread same running nofun (fun expects => ?_) fun j u apart found expects => ?_
    · rw [Server.execute, if_neg expects.1]
      exact List.mem_cons_self
    · have theirs := sound.expected u (List.mem_of_getElem? found) expects
      refine ⟨?_, fun mine one => ?_⟩
      · unfold Server.execute
        dsimp only
        split
        · exact theirs
        · exact List.mem_cons_of_mem _ theirs
      · obtain ⟨-, -, fresh⟩ := gives.resolve_left mine.1
        exact fresh (one ▸ theirs)
  | abort next =>
    have alive := runs.plan.complete_of_alive (sound.threads t member) t.pid
    exact absurd (List.mem_of_getElem? next) alive

theorem Sound.step (sound : Sound s) (keeps : Keeps FIDT s) (stepped : Stepped s label s')
    (serviceable : Serviceable s label) (childless : Childless s label) : Sound s' := by
  cases stepped with
  | accept here legal free =>
    obtain ⟨running, -, threads, patient, expected, distinct⟩ := sound
    refine ⟨running, fun session same => ?_, threads, patient, expected, distinct⟩
    obtain rfl := Option.some.inj same
    exact serviceable
  | refuse | exit =>
    obtain ⟨running, listener, threads, patient, expected, distinct⟩ := sound
    exact ⟨running, listener, threads, patient, expected, distinct⟩
  | loadActive here | storeActive here | countTotal here =>
    obtain ⟨running, listener, threads, patient, expected, distinct⟩ := sound
    rw [here] at listener
    exact ⟨running, listener, threads, patient, expected, distinct⟩
  | @createThread session here =>
    obtain ⟨running, listener, threads, patient, expected, distinct⟩ := sound
    have fresh : ¬ (Thread.start session).Expects := fun expects => expects.1 rfl
    have old : ∀ {j : Nat} {u : Thread}, (s.threads ++ [Thread.start session])[j]? = some u →
        u.Expects → s.threads[j]? = some u := by
      intro j u found expects
      rw [List.getElem?_append] at found
      split at found
      · exact found
      · obtain rfl := List.mem_singleton.mp (List.mem_of_getElem? found)
        exact absurd expects fresh
    refine ⟨running, nofun, ?_, ?_, ?_, ?_⟩
    · rw [List.forall_mem_append, List.forall_mem_singleton]
      exact ⟨threads, listener session (by rw [here]; rfl)⟩
    · rw [List.forall_mem_append, List.forall_mem_singleton]
      exact ⟨patient, nofun⟩
    · rw [List.forall_mem_append, List.forall_mem_singleton]
      exact ⟨expected, fun expects => absurd expects fresh⟩
    · intro j k u v foundU foundV expectsU expectsV
      exact distinct j k u v (old foundU expectsU) (old foundV expectsV) expectsU expectsV
  | act thread acted => exact sound.act keeps thread acted (childless _ thread)

end

/-! ### The end of the sessions -/

/-- No thread can go on, and every child of the server has exited. -/
def System.Resting (s : System) : Prop :=
  (∀ i pid, s.step (.act i pid) = none) ∧ ∀ child ∈ s.server.children, child ∈ s.server.exited

/-- The step is one of thread `i`. -/
def Label.by (i : Nat) : Label → Bool
  | .act j _ => j = i
  | _ => false

/-- How many steps thread `i` has taken. -/
def steps (i : Nat) (past : List (System × Label)) : Nat := past.countP fun left => left.2.by i

/-- How many steps a thread needs to get where it is. -/
def Thread.spent (t : Thread) : Nat :=
  t.done + t.past.count (.waitChild t.pid) + t.waiting.toNat

section
variable {FIDT : Nat → Option FcbRef} {s s' : System} {label : Label} {i : Nat} {t t' : Thread}
  {server : Server} {did : Option Action} {past : List (System × Label)}

/-- Who is inside the section of the label `finish` goes on. -/
theorem Thread.Inside.goes_on (inside : t.Inside) (server : Server) (pid : Int) :
    t.act server pid ≠ none := by
  obtain ⟨action, member, next⟩ := inside
  simp only [finish, List.tail_cons, List.mem_cons, List.not_mem_nil, or_false] at member
  rcases member with rfl | rfl | rfl | rfl
  all_goals simp [Thread.act, next]

/-- A thread only waits for the mutex or for its own child. -/
theorem returned_of_resting (keeps : Keeps FIDT s) (sound : Sound s) (resting : s.Resting) :
    ∀ t ∈ s.threads, t.Returned := by
  obtain ⟨stuck, exited⟩ := resting
  have blocked : ∀ t ∈ s.threads, ∀ pid, t.act s.server pid = none := by
    intro t member pid
    obtain ⟨i, thread⟩ := List.mem_iff_getElem?.mp member
    have moves := stuck i pid
    rw [System.step, if_pos sound.running] at moves
    cases acts : t.act s.server pid with
    | none => rfl
    | some result => simp [System.act, thread, acts] at moves
  have free : s.server.mx = false := by
    by_contra locked
    obtain ⟨u, member, inside⟩ := keeps.mutex (by simpa using locked)
    exact inside.goes_on s.server noproc (blocked u member noproc)
  intro t member
  have runs := keeps.threads t member
  have still := blocked t member noproc
  by_contra unfinished
  have before : t.done < t.actions.length := lt_of_le_of_ne runs.within unfinished
  have next := List.getElem?_eq_getElem before
  cases action : t.actions[t.done] with
  | waitChild cpid =>
    rw [action] at next
    obtain rfl := runs.plan.own_child (List.mem_of_getElem? next)
    cases waiting : t.waiting with
    | false =>
      cases refuses : s.server.refuses t.pid with
      | true => simp [Thread.act, next, waiting, refuses] at still
      | false => simp [Thread.act, next, waiting, refuses] at still
    | true =>
      -- Its child has exited, like all others.
      have some_pid := sound.patient t member waiting
      have listed := exited _ (sound.expected t member (expects_of_next runs some_pid next))
      simp [Thread.act, next, waiting, Server.reap, some_pid, listed] at still
  | execute prog argc argv =>
    rw [action] at next
    simp [Thread.act, next, Server.Gives] at still
  | takeId | logMessage | close | mutexLock | loadActive | storeActive | condBroadcast
  | mutexUnlock | abort =>
    rw [action] at next
    simp [Thread.act, next, free] at still

/-- Each action takes one step, and `WaitChild` two if it has to wait. -/
theorem Acted.spent (acted : Acted s.server t did server t') (runs : t.Runs)
    (running : server.fate ≠ .aborted) : t.spent + 1 ≤ t'.spent := by
  have idle : ∀ {action}, t.actions[t.done]? = some action → action ≠ .waitChild t.pid →
      t.waiting = false := by
    intro action next other
    by_contra waiting
    cases next.symm.trans (runs.waits (by simpa using waiting))
    exact other rfl
  have more : ∀ {action}, t.actions[t.done]? = some action → t.waiting = false →
      t.spent + 1 ≤ t.next.spent := by
    intro action next waiting
    have counts : (t.past ++ [action]).count (.waitChild t.pid) = _ := List.count_append ..
    simp only [Thread.spent, Thread.past_next next, waiting]
    simp only [Thread.next, Bool.toNat_false] at *
    omega
  cases acted with
  | takeId next | logMessage next | close next | mutexLock next | loadActive next
  | storeActive next | condBroadcast next | mutexUnlock next =>
    exact more next (idle next (by simp))
  | refused next first => exact more next first
  | @execute prog argc argv pid next gives =>
    have ahead : .waitChild t.pid ∉ t.past := by
      obtain ⟨past, ahead⟩ := runs.plan.take_execute next t.pid
      rw [past] at ahead
      exact fun member => ahead (List.mem_append_left _ member)
    simp only [Thread.spent, List.count_eq_zero.mpr ahead, idle next (by simp)]
    simp only [Thread.next, Bool.toNat_false]
    omega
  | waits next first =>
    simp only [Thread.spent, first, Bool.toNat_false, Bool.toNat_true]
    exact le_refl _
  | reaped next waiting reaps =>
    obtain rfl := runs.plan.own_child (List.mem_of_getElem? next)
    have counts : (t.past ++ [Action.waitChild t.pid]).count (.waitChild t.pid) = _ :=
      List.count_append ..
    rw [List.count_singleton_self] at counts
    simp only [Thread.spent, Thread.past_next next, waiting]
    simp only [Thread.next, Bool.toNat_false, Bool.toNat_true] at *
    omega
  | abort => exact absurd rfl running

theorem Thread.Runs.spent_le (runs : t.Runs) : t.spent ≤ 12 := by
  have length := runs.plan.length_le t.pid
  have within : t.done ≤ (t.program t.pid).length := runs.within
  unfold Thread.spent
  cases waiting : t.waiting with
  | false =>
    have once := (List.take_sublist t.done t.actions).count_le (.waitChild t.pid)
    have counts := (runs.plan.counts t.pid).2.2
    have once : t.past.count (.waitChild t.pid) ≤ (t.program t.pid).count (.waitChild t.pid) := once
    simp only [Bool.toNat_false]
    omega
  | true =>
    have next := runs.waits waiting
    have part : t.next.past.Sublist t.actions := List.take_sublist ..
    rw [Thread.past_next next] at part
    have never := (count_once part (runs.plan.counts t.pid).2.2).1
    simp only [never, Bool.toNat_true]
    omega

/-- A thread has taken no more steps than it needed. -/
theorem steps_le_spent (run : (machine FIDT).Run past s) (running : s.server.fate ≠ .aborted)
    (i : Nat) : steps i past ≤ (s.threads[i]?.map Thread.spent).getD 0 := by
  induction run with
  | start => exact Nat.zero_le _
  | @step past s s' label run moved ih =>
    obtain ⟨before, stepped⟩ := stepped_of_step moved
    have bound := ih (by rw [before]; simp)
    have count : steps i ((s, label) :: past) = steps i past + if label.by i then 1 else 0 :=
      List.countP_cons ..
    rw [count]
    cases stepped with
    | accept | refuse | loadActive | storeActive | countTotal | exit => exact bound
    | @createThread session here =>
      refine bound.trans ?_
      change _ ≤ ((s.threads ++ [Thread.start session])[i]?.map _).getD 0
      rw [List.getElem?_append]
      split
      next => exact le_refl _
      next outside =>
        rw [List.getElem?_eq_none (not_lt.mp outside)]
        exact Nat.zero_le _
    | @act j _ t did server t' thread acted =>
      change _ ≤ ((s.threads.set j t')[i]?.map _).getD 0
      by_cases same : j = i
      · subst same
        have more := acted.spent ((keeps_of_run run).threads t (List.mem_of_getElem? thread)) running
        rw [thread] at bound
        rw [List.getElem?_set_self', thread]
        simp only [Label.by, decide_true, if_true]
        exact (Nat.add_le_add_right bound 1).trans more
      · rw [List.getElem?_set_ne same]
        simpa [Label.by, same] using bound

/-- The steps of a thread are bounded, however long the run is. -/
theorem steps_le (run : (machine FIDT).Run past s) (running : s.server.fate ≠ .aborted) (i : Nat) :
    steps i past ≤ 12 := by
  refine (steps_le_spent run running i).trans ?_
  cases thread : s.threads[i]? with
  | none => exact Nat.zero_le _
  | some t => exact ((keeps_of_run run).threads t (List.mem_of_getElem? thread)).spent_le

end

/-! ### Sessions -/

/-- What the server is after its sessions and what each of them has done. -/
structure Cleaned (FIDT : Nat → Option FcbRef) (s : System) : Prop where
  /-- No assertion has failed, and no entry of the process table has been released twice. -/
  running : s.server.fate = .running
  /-- When nothing is left to do, every session has returned. -/
  returns : s.Resting → ∀ t ∈ s.threads, t.Returned
  once : ∀ t ∈ s.threads, t.Returned →
    t.past.count (.close t.session.sock) = 1 ∧ t.past.count .storeActive = 1
  /-- Every increment and decrement of `active_conn` has had its effect. -/
  right : s.Right
  restored : s.listener = .accept → (∀ t ∈ s.threads, t.Returned) →
    s.server.FIDT = FIDT ∧ s.server.active_conn = 0

section
variable {FIDT : Nat → Option FcbRef} {s : System} {t : Thread} {past : List (System × Label)}

/-- A session that has returned has closed its connection if and only if its request was
complete. -/
theorem Thread.Runs.once_iff (runs : t.Runs) (returned : t.Returned) :
    t.past.count .storeActive = 1 ∧
      (t.past.count (.close t.session.sock) = 1 ↔ Complete t.session.sent) := by
  have whole : t.past = t.program t.pid := by
    rw [Thread.past, show t.done = _ from returned, List.take_length]
    rfl
  have alive := runs.alive
  rw [whole] at alive ⊢
  exact runs.plan.releases alive

theorem Thread.Runs.working_returned (runs : t.Runs) (returned : t.Returned) : t.working = 0 := by
  rw [Thread.working, (runs.once_iff returned).1]

theorem Thread.Runs.holding_returned (runs : t.Runs) (returned : t.Returned) :
    t.holding = 0 ↔ Complete t.session.sent := by
  have once := (runs.plan.counts t.pid).1
  have part := (List.take_sublist t.done t.actions).count_le (.close t.session.sock)
  have part : t.past.count (.close t.session.sock) ≤
    (t.program t.pid).count (.close t.session.sock) := part
  rw [← (runs.once_iff returned).2, Thread.holding]
  omega

/-- When all sessions have returned, the files are as before if and only if all requests
were complete. -/
theorem Keeps.restored_iff (keeps : Keeps FIDT s) (here : s.listener = .accept)
    (returned : ∀ t ∈ s.threads, t.Returned) :
    s.server.FIDT = FIDT ↔ ∀ t ∈ s.threads, Complete t.session.sent := by
  have holders : ∀ fid, s.holders fid =
      (s.threads.map fun t => if t.session.sock = fid then t.holding else 0).sum := by
    intro fid
    simp [System.holders, here, Listener.holding, Listener.session]
  constructor
  · intro same t member
    rw [← (keeps.threads t member).holding_returned (returned t member)]
    rcases keeps.table t.session.sock with ⟨nobody, -⟩ | ⟨-, taken, free⟩
    · rw [holders] at nobody
      have each := List.sum_eq_zero_iff_forall_eq_nat.mp nobody
      simpa using each _ (List.mem_map_of_mem member)
    · exact absurd free (same ▸ taken)
  · intro complete
    funext fid
    have nobody : s.holders fid = 0 := by
      rw [holders, List.sum_eq_zero_iff_forall_eq_nat]
      intro n term
      obtain ⟨t, member, rfl⟩ := List.mem_map.mp term
      rw [((keeps.threads t member).holding_returned (returned t member)).mpr (complete t member),
        ite_self]
    rcases keeps.table fid with ⟨-, same⟩ | ⟨one, -⟩
    · exact same
    · omega

theorem cleaned_of_sound (keeps : Keeps FIDT s) (sound : Sound s) (right : s.Right) :
    Cleaned FIDT s where
  running := sound.running
  returns := returned_of_resting keeps sound
  once t member returned := by
    obtain ⟨stored, closed⟩ := (keeps.threads t member).once_iff returned
    exact ⟨closed.mpr (sound.threads t member), stored⟩
  right := right
  restored here returned := by
    refine ⟨(keeps.restored_iff here returned).mpr sound.threads, ?_⟩
    have nobody : s.counted = 0 := by
      rw [System.counted, here]
      refine (Nat.zero_add _).trans (List.sum_eq_zero_iff_forall_eq_nat.mpr fun n term => ?_)
      obtain ⟨t, member, rfl⟩ := List.mem_map.mp term
      exact (keeps.threads t member).working_returned (returned t member)
    rw [right, nobody]
    rfl

theorem sound_of_run (run : (machine FIDT).Run past s)
    (lawful : ∀ left ∈ past, Lawful left.1 left.2) : Sound s ∧ s.Right := by
  induction run with
  | start begins => exact begins ▸ ⟨sound_start, right_start⟩
  | @step past s s' label run moved ih =>
    obtain ⟨sound, right⟩ := ih fun left member => lawful left (List.mem_cons_of_mem _ member)
    obtain ⟨serviceable, undisturbed, childless⟩ := lawful (s, label) List.mem_cons_self
    have keeps := keeps_of_run run
    have stepped := (stepped_of_step moved).2
    exact ⟨sound.step keeps stepped serviceable childless,
      (right_iff keeps right stepped).mpr undisturbed⟩

/-- A connection that has been accepted is one of the listener or of a thread. -/
theorem accepted_listed (run : (machine FIDT).Run past s) {r : System} {session : Session}
    {stream : FcbRef} (accepted : (r, .accept session stream) ∈ past) :
    s.listener.session = some session ∨ ∃ t ∈ s.threads, t.session = session := by
  induction run with
  | start => cases accepted
  | @step past s s' label run moved ih =>
    have stepped := (stepped_of_step moved).2
    have before : (r, .accept session stream) ∈ past → s.listener.session = some session ∨
      ∃ t ∈ s.threads, t.session = session := ih
    rcases List.mem_cons.mp accepted with now | earlier
    · cases now
      cases stepped
      exact .inl rfl
    have before := before earlier
    cases stepped with
    | refuse | exit => exact before
    | accept here => exact .inr (before.resolve_left (by simp [here, Listener.session]))
    | loadActive here | storeActive here | countTotal here =>
      rw [here] at before
      exact before
    | @createThread started here =>
      refine .inr ?_
      rcases before with own | ⟨t, member, same⟩
      · rw [here] at own
        obtain rfl := Option.some.inj own
        exact ⟨.start started, List.mem_append_right _ (List.mem_singleton_self _), rfl⟩
      · exact ⟨t, List.mem_append_left _ member, same⟩
    | @act i _ t did server t' thread acted =>
      refine before.imp_right ?_
      rintro ⟨u, member, same⟩
      obtain ⟨j, found⟩ := List.mem_iff_getElem?.mp member
      by_cases here : i = j
      · subst here
        cases thread.symm.trans found
        have runs := (keeps_of_run run).threads t member
        refine ⟨t', List.mem_iff_getElem?.mpr ⟨i, ?_⟩, (acted.runs runs).2.1.trans same⟩
        rw [List.getElem?_set_self', thread]
        rfl
      · exact ⟨u, List.mem_iff_getElem?.mpr ⟨j, by rw [List.getElem?_set_ne here, found]⟩, same⟩

/-- **Every remote session is cleaned up, as long as** all requests are complete, nobody
comes between a load of `active_conn` and its store, and who waits for any child finds
that the server has none. Of the runs that meet the last condition and have come to
their end, exactly those that meet the others are cleaned up all the time. And whatever
happens, a session that has returned has closed its connection if and only if its
request was complete. -/
theorem sessions_cleaned_iff (FIDT : Nat → Option FcbRef) (past : List (System × Label))
    (s : System) (run : (machine FIDT).Run past s) :
    ((∀ left ∈ past, Lawful left.1 left.2) →
      (∀ r, Machine.Visits past s r → Cleaned FIDT r) ∧ ∀ i, steps i past ≤ 12) ∧
    ((∀ left ∈ past, Childless left.1 left.2) → s.listener = .accept → s.Resting →
      ((∀ r, Machine.Visits past s r → Cleaned FIDT r) ↔
        ∀ left ∈ past, Lawful left.1 left.2)) ∧
    ∀ t ∈ s.threads, t.Returned → t.past.count .storeActive = 1 ∧
      (t.past.count (.close t.session.sock) = 1 ↔ Complete t.session.sent) := by
  have always : (∀ left ∈ past, Lawful left.1 left.2) →
      ∀ r, Machine.Visits past s r → Cleaned FIDT r := by
    intro lawful r visited
    obtain ⟨earlier, run, part⟩ := run.visited visited
    obtain ⟨sound, right⟩ := sound_of_run run fun left member => lawful left (part.subset member)
    exact cleaned_of_sound (keeps_of_run run) sound right
  have keeps := keeps_of_run run
  refine ⟨fun lawful => ⟨always lawful, ?_⟩, fun childless here resting => ⟨?_, always⟩,
    fun t member returned => (keeps.threads t member).once_iff returned⟩
  · have running := (always lawful s (.inl rfl)).running
    exact steps_le run (by rw [running]; simp)
  · intro cleaned left member
    have last := cleaned s (.inl rfl)
    have undisturbed := (right_iff_undisturbed run).mp fun r visited => (cleaned r visited).right
    refine ⟨?_, undisturbed left member, childless left member⟩
    obtain ⟨r, label⟩ := left
    cases label with
    | accept session stream =>
      -- Its thread has returned, and closed the connection.
      obtain own | ⟨t, listed, rfl⟩ := accepted_listed run member
      · rw [here] at own
        cases own
      · have returned := last.returns resting t listed
        exact ((keeps.threads t listed).once_iff returned).2.mp (last.once t listed returned).1
    | refuse | listen | act | exit => trivial

end

/-! ### Threads that nobody disturbs -/

/-- The next action of a thread is lawful. -/
def Thread.Careful (s : Server) (t : Thread) : Prop :=
  (t.actions[t.done]? = some .storeActive → t.loaded = s.active_conn) ∧
    (t.actions[t.done]? = some (.waitChild noproc) → s.children = [])

instance (s : Server) (t : Thread) : Decidable (t.Careful s) :=
  inferInstanceAs (Decidable ((_ → _) ∧ (_ → _)))

/-- Some actions of a thread, one after the other. -/
def Thread.acts (pid : Int) : Nat → Server → Thread → Option (Server × Thread)
  | 0, s, t => some (s, t)
  | n + 1, s, t =>
    if s.fate = .running ∧ t.Careful s then do
      let (s, t) ← t.act s pid
      acts pid n s t
    else none

section
variable {FIDT files : Nat → Option FcbRef} {Allowed : System → Label → Prop} {s : System}
  {server : Server} {i n : Nat} {t t' : Thread} {pid : Int}

theorem acts_reach (lawful : ∀ s label, Lawful s label → Allowed s label)
    (reached : (machine FIDT).ReachableBy Allowed s) (thread : s.threads[i]? = some t)
    (acts : Thread.acts pid n s.server t = some (server, t')) :
    (machine FIDT).ReachableBy Allowed
      { s with server := server, threads := s.threads.set i t' } := by
  induction n generalizing s t with
  | zero =>
    cases acts
    obtain ⟨inside, here⟩ := List.getElem?_eq_some_iff.mp thread
    rw [← here, List.set_getElem_self]
    exact reached
  | succ n ih =>
    unfold Thread.acts at acts
    obtain ⟨⟨running, stores, waits⟩, acts⟩ := Option.ite_none_right_eq_some.mp acts
    obtain ⟨⟨middle, u⟩, first, acts⟩ := Option.bind_eq_some_iff.mp acts
    have moved : s.step (.act i pid) =
        some { s with server := middle, threads := s.threads.set i u } := by
      simp [System.step, running, System.act, thread, first]
    have allowed := lawful s (.act i pid) ⟨trivial, by simpa [Undisturbed, thread] using stores,
      by simpa [Childless, thread] using waits⟩
    have found : (s.threads.set i u)[i]? = some u := by
      rw [List.getElem?_set_self', thread]
      rfl
    have later := ih (reached.step allowed moved) found acts
    rwa [show ({ s with server := middle, threads := s.threads.set i u } : System).threads =
      s.threads.set i u from rfl, List.set_set] at later

variable {children exited : List Pid} {active total id : BitVec 64} {log : List String}
  {threads : List Thread} {session : Session} {argc : Nat} {argv : List Chars}

theorem lawful_listen {s : System} (same : ∀ session loaded,
    s.listener = .storeActive session loaded → loaded = s.server.active_conn) :
    Lawful s .listen :=
  ⟨trivial, same, trivial⟩

/-- A connection is accepted, counted, and given to a thread. -/
theorem accept_reach (lawful : ∀ s label, Lawful s label → Allowed s label)
    (reached : (machine FIDT).ReachableBy Allowed
      ⟨⟨files, children, exited, active, total, id, log, false, .running⟩, .accept, threads⟩)
    (legal : session.sock < maxFileid) (free : files session.sock = none)
    (complete : Complete session.sent) :
    (machine FIDT).ReachableBy Allowed
      ⟨⟨update files session.sock (some 0), children, exited, active + 1, total + 1, id, log, false,
        .running⟩, .accept, threads ++ [.start session]⟩ := by
  have go : ∀ {s s'} label, (machine FIDT).ReachableBy Allowed s → Lawful s label →
      s.step label = some s' → (machine FIDT).ReachableBy Allowed s' :=
    fun label reached law moved => reached.step (lawful _ label law) moved
  have accepts : System.step ⟨⟨files, children, exited, active, total, id, log, false, .running⟩,
      .accept, threads⟩ (.accept session 0) =
        some ⟨⟨update files session.sock (some 0), children, exited, active, total, id, log, false,
          .running⟩, .loadActive session, threads⟩ := by
    simp [System.step, System.accept, legal, free]
  have first := go (.accept session 0) reached ⟨complete, trivial, trivial⟩ accepts
  have second := go .listen first (lawful_listen (by simp)) rfl
  have third := go .listen second (lawful_listen (by simp)) rfl
  have fourth := go .listen third (lawful_listen (by simp)) rfl
  exact go .listen fourth (lawful_listen (by simp)) rfl

/-- A thread goes up to the loop of `WaitChild`. -/
theorem begins (legal : session.sock < maxFileid)
    (gives : 0 ≤ pid ∧ pid < maxProc ∧ pid.toNat ∉ children) :
    Thread.acts pid 5 ⟨files, children, exited, active, total, id, log, false, .running⟩
      ⟨session, fun pid => executed session.sock pid argc argv, noproc, 0, false, 0⟩ =
    some (⟨update files session.sock none, pid.toNat :: children, exited, active, total, id + 1,
        log ++ ["Client[%6zu]: started"], false, .running⟩,
      ⟨session, fun pid => executed session.sock pid argc argv, pid, 4, true, 0⟩) := by
  have given : ∀ s : Server, s.children = children → s.Gives pid := by
    rintro s rfl
    exact .inr gives
  have apart : pid ≠ noproc := by
    rintro rfl
    exact absurd gives.1 (by decide)
  simp [Thread.acts, Thread.Careful, Thread.act, Thread.actions, Thread.next, executed,
    Server.logMessage, given, Server.execute, apart, Server.close, legal, Server.refuses, gives]

/-- `Execute` fails, and a thread goes up to `WaitChild`. -/
theorem begins_alone (legal : session.sock < maxFileid) :
    Thread.acts noproc 4 ⟨files, children, exited, active, total, id, log, false, .running⟩
      ⟨session, fun pid => executed session.sock pid argc argv, noproc, 0, false, 0⟩ =
    some (⟨update files session.sock none, children, exited, active, total, id + 1,
        log ++ ["Client[%6zu]: started"], false, .running⟩,
      ⟨session, fun pid => executed session.sock pid argc argv, noproc, 4, false, 0⟩) := by
  simp [Thread.acts, Thread.Careful, Thread.act, Thread.actions, Thread.next, executed,
    Server.logMessage, Server.Gives, Server.execute, Server.close, legal]

/-- The child of a thread has exited, and it goes on to its end. -/
theorem ends (listed : pid.toNat ∈ children ∧ pid.toNat ∈ exited) (apart : pid ≠ noproc) :
    Thread.acts pid 7 ⟨files, children, exited, active, total, id, log, false, .running⟩
      ⟨session, fun pid => executed session.sock pid argc argv, pid, 4, true, 0⟩ =
    some (⟨files, children.erase pid.toNat, exited.erase pid.toNat, active - 1, total, id,
        log ++ ["Client[%6zu]: finished with status %d"], false, .running⟩,
      ⟨session, fun pid => executed session.sock pid argc argv, pid, 11, false, active⟩) := by
  simp [Thread.acts, Thread.Careful, Thread.act, Thread.actions, Thread.next, executed, finish,
    Server.logMessage, Server.reap, Server.cleanupZombie, listed, apart]

end

/-! ### Some clients -/

/-- The string `a`, packed. -/
def request : List Byte := [2, 0, 0, 0, 97, 0]

theorem request_complete : Complete request := ⟨2, rfl, by decide, by decide, by decide⟩

/-- A client that sends this. -/
def client (sock : Nat) (sent : List Byte) : Session := ⟨sock, sent, fun _ => 0⟩

theorem start_executes {sock : Nat} (legal : sock < maxFileid) :
    ∃ argc argv, Thread.start (client sock request) =
      ⟨client sock request, fun pid => executed sock pid argc argv, noproc, 0, false, 0⟩ := by
  have plan := (client sock request).plan legal
  rw [Thread.start]
  generalize (client sock request).actions = program at plan
  cases plan with
  | fails incomplete | stops incomplete => exact absurd request_complete incomplete
  | @executes argc argv => exact ⟨argc, argv, rfl⟩

theorem set_last (threads : List Thread) (t t' : Thread) :
    (threads ++ [t]).set threads.length t' = threads ++ [t'] := by
  rw [List.set_append_right _ _ (le_refl _), Nat.sub_self, List.set_cons_zero]

/-- Any number of clients are served, one after the other. -/
theorem one_after_another (n : Nat) : ∃ total id log threads,
    (machine fun _ => none).ReachableBy Lawful
      ⟨⟨fun _ => none, [], [], 0, total, id, log, false, .running⟩, .accept, threads⟩ ∧
    threads.length = n ∧ ∀ t ∈ threads, t.Returned := by
  induction n with
  | zero => exact ⟨_, _, _, [], .start rfl, rfl, nofun⟩
  | succ n ih =>
    obtain ⟨total, id, log, threads, reached, length, returned⟩ := ih
    obtain ⟨argc, argv, start⟩ := @start_executes 3 (by decide)
    have created := accept_reach (fun _ _ lawful => lawful) reached
      (show (client 3 request).sock < maxFileid by decide) rfl request_complete
    rw [start] at created
    have begun := acts_reach (fun _ _ lawful => lawful) created List.getElem?_concat_length
      (begins (by decide) (by decide) : Thread.acts 5 5 _ _ = _)
    rw [set_last] at begun
    have exits : (machine fun _ => none).ReachableBy Lawful _ :=
      begun.step (show Lawful _ (.exit 5) from ⟨trivial, trivial, trivial⟩) rfl
    have ended := acts_reach (fun _ _ lawful => lawful) exits List.getElem?_concat_length
      (ends ⟨List.mem_cons_self, List.mem_cons_self⟩ (by decide) : Thread.acts 5 7 _ _ = _)
    rw [set_last] at ended
    have files : update (update (fun _ => none) 3 (some 0)) 3 none =
        (fun _ => none : Nat → Option FcbRef) := by
      rw [update_idem, update_eq_self_iff]
    simp only [client] at ended
    rw [files] at ended
    refine ⟨_, _, _, _, ended, by rw [List.length_append, length]; rfl, ?_⟩
    rw [List.forall_mem_append, List.forall_mem_singleton]
    exact ⟨returned, rfl⟩

/-- Two clients, one after the other. -/
theorem sessions_cleaned_iff_two : ∃ past s, (machine fun _ => none).Run past s ∧
    s.threads.length = 2 ∧ (∀ t ∈ s.threads, t.Returned) ∧
    ∀ r, Machine.Visits past s r → Cleaned (fun _ => none) r := by
  obtain ⟨total, id, log, threads, ⟨past, run, lawful⟩, length, returned⟩ := one_after_another 2
  exact ⟨past, _, run, length, returned, ((sessions_cleaned_iff _ past _ run).1 lawful).1⟩

/-! ### Sessions that are lost -/

section
variable {FIDT : Nat → Option FcbRef} {s : System}

theorem resting_of_blocked (blocked : ∀ t ∈ s.threads, ∀ pid, t.act s.server pid = none)
    (exited : ∀ child ∈ s.server.children, child ∈ s.server.exited) : s.Resting := by
  refine ⟨fun i pid => ?_, exited⟩
  cases thread : s.threads[i]? with
  | none => simp [System.step, System.act, thread]
  | some t => simp [System.step, System.act, thread, blocked t (List.mem_of_getElem? thread)]

end

/-- A client that closes its connection at once keeps its file id in use. -/
theorem early_end : ∃ s, (machine fun _ => none).Reachable s ∧ s.listener = .accept ∧
    (∀ t ∈ s.threads, t.Returned) ∧ s.server.FIDT 3 = some 0 := by
  have fails : (client 3 []).actions = fun _ => failed := by
    funext pid
    obtain ⟨rest, runs⟩ := rsrvClient_no_length 3 pid ⟨[], fun _ => 0, 0⟩ (by decide)
    rw [Session.actions, client, runs]
  have ran : [Label.accept (client 3 []) 0, .listen, .listen, .listen, .listen].foldlM
      System.step ⟨remoteServer fun _ => none, .accept, []⟩ = some
        ⟨⟨update (fun _ => none) 3 (some 0), [], [], 1, 1, 0, [], false, .running⟩, .accept,
          [⟨client 3 [], (client 3 []).actions, noproc, 0, false, 0⟩]⟩ := rfl
  rw [fails] at ran
  have returns : ∃ s, (List.replicate 8 (Label.act 0 0)).foldlM System.step
      ⟨⟨update (fun _ => none) 3 (some 0), [], [], 1, 1, 0, [], false, .running⟩, .accept,
        [⟨client 3 [], fun _ => failed, noproc, 0, false, 0⟩]⟩ = some s ∧ s.listener = .accept ∧
      (∃ t, s.threads = [t] ∧ t.Returned) ∧ s.server.FIDT 3 = some 0 :=
    ⟨_, rfl, rfl, ⟨_, rfl, rfl⟩, rfl⟩
  obtain ⟨s, returns, here, ⟨t, threads, returned⟩, kept⟩ := returns
  have connected : (machine fun _ => none).Reachable _ := .replay (.start rfl) _ ran
  refine ⟨s, connected.replay _ returns, here, ?_, kept⟩
  rw [threads]
  exact List.forall_mem_singleton.mpr returned

/-- A client that sends the length 0 stops the server. -/
theorem zero_length : ∃ s, (machine fun _ => none).Reachable s ∧ s.server.fate = .aborted := by
  have stops : (client 3 [0, 0, 0, 0]).actions = fun _ => stopped := by
    funext pid
    obtain ⟨rest, runs⟩ :=
      @rsrvClient_bad_length 3 pid 0 ⟨[0, 0, 0, 0], fun _ => 0, 0⟩ rfl (by decide) (by decide)
    rw [Session.actions, client, runs]
  have ran : [Label.accept (client 3 [0, 0, 0, 0]) 0, .listen, .listen, .listen, .listen].foldlM
      System.step ⟨remoteServer fun _ => none, .accept, []⟩ = some
        ⟨⟨update (fun _ => none) 3 (some 0), [], [], 1, 1, 0, [], false, .running⟩, .accept,
          [⟨client 3 [0, 0, 0, 0], (client 3 [0, 0, 0, 0]).actions, noproc, 0, false, 0⟩]⟩ := rfl
  rw [stops] at ran
  have aborts : ∃ s, (List.replicate 3 (Label.act 0 0)).foldlM System.step
      ⟨⟨update (fun _ => none) 3 (some 0), [], [], 1, 1, 0, [], false, .running⟩, .accept,
        [⟨client 3 [0, 0, 0, 0], fun _ => stopped, noproc, 0, false, 0⟩]⟩ = some s ∧
      s.server.fate = .aborted := ⟨_, rfl, rfl⟩
  obtain ⟨s, aborts, fate⟩ := aborts
  have connected : (machine fun _ => none).Reachable _ := .replay (.start rfl) _ ran
  exact ⟨s, connected.replay _ aborts, fate⟩

/-- `Execute` fails for the second of two clients. Its thread waits for the child of the
first, which the thread of the first reaps. -/
theorem waits_for_ever : ∃ s, (machine fun _ => none).Reachable s ∧ s.server.fate = .running ∧
    s.Resting ∧ (∀ t ∈ s.threads, Complete t.session.sent) ∧ ∃ t ∈ s.threads, ¬ t.Returned := by
  obtain ⟨argc, argv, first⟩ := @start_executes 3 (by decide)
  obtain ⟨argc', argv', second⟩ := @start_executes 4 (by decide)
  have all : ∀ s label, Lawful s label → True := fun _ _ _ => trivial
  have start : (machine fun _ => none).ReachableBy (fun _ _ => True)
    ⟨remoteServer fun _ => none, .accept, []⟩ := .start rfl
  have one := accept_reach all start (show (client 3 request).sock < maxFileid by decide) rfl
    request_complete
  have two := accept_reach all one (show (client 4 request).sock < maxFileid by decide) rfl
    request_complete
  rw [first, second] at two
  have executes := acts_reach (i := 0) all two rfl
    (begins (by decide) (by decide) : Thread.acts 5 5 _ ⟨client 3 request, _, _, _, _, _⟩ = _)
  have fails := acts_reach (i := 1) all executes rfl
    (begins_alone (by decide) : Thread.acts noproc 4 _ ⟨client 4 request, _, _, _, _, _⟩ = _)
  have sleeps := fails.next (.act 1 0) trivial rfl
  have exits := sleeps.next (.exit 5) trivial rfl
  have ended := acts_reach (i := 0) all exits rfl
    (ends ⟨List.mem_cons_self, List.mem_cons_self⟩ (by decide) :
      Thread.acts 5 7 _ ⟨client 3 request, _, _, _, _, _⟩ = _)
  have ended : (machine fun _ => none).ReachableBy (fun _ _ => True)
      ⟨⟨_, [], [], _, _, _, _, false, .running⟩, .accept,
        [⟨client 3 request, fun pid => executed 3 pid argc argv, 5, 11, false, _⟩,
          ⟨client 4 request, fun pid => executed 4 pid argc' argv', noproc, 4, true, 0⟩]⟩ := ended
  obtain ⟨past, run, -⟩ := ended
  refine ⟨_, ⟨past, run⟩, rfl, resting_of_blocked ?_ nofun, ?_, _,
    List.mem_cons_of_mem _ List.mem_cons_self, show 4 ≠ 11 by decide⟩
  · intro t member pid
    rcases List.mem_pair.mp member with rfl | rfl
    · rfl
    · rfl
  · intro t member
    rcases List.mem_pair.mp member with rfl | rfl
    · exact request_complete
    · exact request_complete

/-- The listener has loaded the count when the thread of the first client stores it. -/
theorem miscounted : ∃ s, (machine fun _ => none).Reachable s ∧ s.listener = .accept ∧
    (∀ t ∈ s.threads, t.Returned ∧ Complete t.session.sent) ∧ s.server.active_conn = 1 := by
  obtain ⟨argc, argv, first⟩ := @start_executes 3 (by decide)
  obtain ⟨argc', argv', second⟩ := @start_executes 4 (by decide)
  have all : ∀ s label, Lawful s label → True := fun _ _ _ => trivial
  have start : (machine fun _ => none).ReachableBy (fun _ _ => True)
    ⟨remoteServer fun _ => none, .accept, []⟩ := .start rfl
  have one := accept_reach all start (show (client 3 request).sock < maxFileid by decide) rfl
    request_complete
  rw [first] at one
  have accepts := one.next (.accept (client 4 request) 0) trivial rfl
  have loads := accepts.next .listen trivial rfl
  have executes := acts_reach (i := 0) all loads rfl
    (begins (by decide) ⟨by decide, by decide, List.not_mem_nil⟩ :
      Thread.acts 5 5 _ ⟨client 3 request, _, _, _, _, _⟩ = _)
  have exits := executes.next (.exit 5) trivial rfl
  have ended := acts_reach (i := 0) all exits rfl
    (ends ⟨List.mem_cons_self, List.mem_cons_self⟩ (by decide) :
      Thread.acts 5 7 _ ⟨client 3 request, _, _, _, _, _⟩ = _)
  have stores := ended.next .listen trivial rfl
  have counts := stores.next .listen trivial rfl
  have creates : (machine fun _ => none).ReachableBy (fun _ _ => True)
      ⟨⟨_, [], [], _, _, _, _, false, .running⟩, .accept,
        [⟨client 3 request, fun pid => executed 3 pid argc argv, 5, 11, false, _⟩,
          .start (client 4 request)]⟩ := counts.next .listen trivial rfl
  rw [second] at creates
  have executes' := acts_reach (i := 1) all creates rfl
    (begins (by decide) ⟨by decide, by decide, List.not_mem_nil⟩ :
      Thread.acts 5 5 _ ⟨client 4 request, _, _, _, _, _⟩ = _)
  have exits' := executes'.next (.exit 5) trivial rfl
  have ended' := acts_reach (i := 1) all exits' rfl
    (ends ⟨List.mem_cons_self, List.mem_cons_self⟩ (by decide) :
      Thread.acts 5 7 _ ⟨client 4 request, _, _, _, _, _⟩ = _)
  have returned : (machine fun _ => none).ReachableBy (fun _ _ => True)
      ⟨⟨_, [], [], 0 + 1 + 1 - 1, _, _, _, false, .running⟩, .accept,
        [⟨client 3 request, fun pid => executed 3 pid argc argv, 5, 11, false, _⟩,
          ⟨client 4 request, fun pid => executed 4 pid argc' argv', 5, 11, false, _⟩]⟩ := ended'
  obtain ⟨past, run, -⟩ := returned
  refine ⟨_, ⟨past, run⟩, rfl, fun t member => ?_, rfl⟩
  rcases List.mem_pair.mp member with rfl | rfl
  · exact ⟨rfl, request_complete⟩
  · exact ⟨rfl, request_complete⟩

/-- Four states of servers whose sessions are not cleaned up: a file id that stays in use,
an assertion that fails, a thread that waits for ever, and a connection that is counted
for ever. -/
theorem connection_kept : ∃ early zero waits lost : System,
    (∀ s ∈ [early, zero, waits, lost],
      (machine fun _ => none).Reachable s ∧ ¬ Cleaned (fun _ => none) s) ∧
    ((∀ t ∈ early.threads, t.Returned) ∧ early.server.FIDT 3 = some 0) ∧
    zero.server.fate = .aborted ∧
    (waits.Resting ∧ (∀ t ∈ waits.threads, Complete t.session.sent) ∧
      ∃ t ∈ waits.threads, ¬ t.Returned) ∧
    (∀ t ∈ lost.threads, t.Returned ∧ Complete t.session.sent) ∧
      lost.server.active_conn = 1 := by
  obtain ⟨early, early_reached, early_here, early_returned, kept⟩ := early_end
  obtain ⟨zero, zero_reached, aborted⟩ := zero_length
  obtain ⟨waits, waits_reached, -, resting, complete, t, member, unreturned⟩ := waits_for_ever
  obtain ⟨lost, lost_reached, lost_here, lost_returned, counted⟩ := miscounted
  refine ⟨early, zero, waits, lost, ?_, ⟨early_returned, kept⟩, aborted,
    ⟨resting, complete, t, member, unreturned⟩, lost_returned, counted⟩
  simp only [List.forall_mem_cons]
  refine ⟨⟨early_reached, fun cleaned => ?_⟩, ⟨zero_reached, fun cleaned => ?_⟩,
    ⟨waits_reached, fun cleaned => ?_⟩, ⟨lost_reached, fun cleaned => ?_⟩, nofun⟩
  · rw [(cleaned.restored early_here early_returned).1] at kept
    cases kept
  · rw [cleaned.running] at aborted
    cases aborted
  · exact unreturned (cleaned.returns resting t member)
  · have none_left := (cleaned.restored lost_here fun t member => (lost_returned t member).1).2
    exact absurd (none_left.symm.trans counted) (by decide)

end TinyOs.RemoteSession
