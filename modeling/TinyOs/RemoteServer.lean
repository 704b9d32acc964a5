import TinyOs.Library.Machine
import TinyOs.RemoteSession

/-! The server process of `tinyos_shell.c`: the listener and the threads it creates,
in any interleaving. They share a file table, the children of the process and
`__rs_globals`. A section under `GS(mx)` whose data nobody uses outside of it is one
step. `GS(active_conn)` is not such data: the listener increments it without the
mutex, so each load and each store of it is a step of its own. -/
namespace TinyOs.RemoteSession
open Function Library ArgVector
open Kernel (maxFileid maxProc noproc Pid FcbRef)

/-- How it goes with the server process. -/
inductive Fate where
  | running
  /-- The assertion of `rsrv_client` has failed. -/
  | aborted
  /-- An entry of the process table has been released a second time. Its free list is
  damaged, and what happens then is not followed. -/
  | damaged
  deriving DecidableEq, Repr

/-- What the threads of the server share. -/
structure Server where
  FIDT : Nat → Option FcbRef
  /-- The `children_list` and the `exited_list` of the process. -/
  children : List Pid
  exited : List Pid
  active_conn : BitVec 64
  total_conn : BitVec 64
  conn_id_counter : BitVec 64
  log : List String
  /-- `GS(mx)` is locked. -/
  mx : Bool
  fate : Fate

/-- The server process when `RemoteServer` creates the listener. -/
def remoteServer (FIDT : Nat → Option FcbRef) : Server where
  FIDT := FIDT
  children := []
  exited := []
  active_conn := 0
  total_conn := 0
  conn_id_counter := 0
  log := []
  mx := false
  fate := .running

namespace Server

def logMessage (s : Server) (msg : String) : Server := { s with log := s.log ++ [msg] }

def close (s : Server) (fd : Nat) : Server :=
  if fd < maxFileid then { s with FIDT := update s.FIDT fd none } else s

/-- `Execute` can give this pid: there is a free entry of the process table, or none.
The program that is executed gets a file table of its own. -/
def Gives (s : Server) (pid : Int) : Prop :=
  pid = noproc ∨ 0 ≤ pid ∧ pid < maxProc ∧ pid.toNat ∉ s.children

instance (s : Server) (pid : Int) : Decidable (s.Gives pid) :=
  inferInstanceAs (Decidable (_ ∨ _))

def execute (s : Server) (pid : Int) : Server :=
  { s with children := if pid = noproc then s.children else pid.toNat :: s.children }

/-- `cleanup_zombie`. An entry that is no child any more has been reaped by another
thread. -/
def cleanupZombie (s : Server) (child : Pid) : Server :=
  if child ∈ s.children then
    { s with children := s.children.erase child, exited := s.exited.erase child }
  else { s with fate := .damaged }

section
variable (s : Server) (child : Pid)

@[simp] theorem cleanupZombie_FIDT : (s.cleanupZombie child).FIDT = s.FIDT := by
  unfold cleanupZombie
  split <;> rfl

@[simp] theorem cleanupZombie_active_conn :
    (s.cleanupZombie child).active_conn = s.active_conn := by
  unfold cleanupZombie
  split <;> rfl

@[simp] theorem cleanupZombie_mx : (s.cleanupZombie child).mx = s.mx := by
  unfold cleanupZombie
  split <;> rfl

end

/-- The tests of `WaitChild` before its loops: whether it returns at once. -/
def refuses (s : Server) (cpid : Int) : Bool :=
  if cpid ≠ noproc then cpid < 0 ∨ (maxProc : Int) ≤ cpid ∨ cpid.toNat ∉ s.children
  else s.children = []

/-- A round of the loops of `wait_for_specific_child` and `wait_for_any_child`, unless
they go on waiting. -/
def reap (s : Server) (cpid : Int) : Option Server :=
  if cpid ≠ noproc then
    if cpid.toNat ∈ s.children ∧ cpid.toNat ∉ s.exited then none
    else some (s.cleanupZombie cpid.toNat)
  else
    match s.exited with
    | [] => none
    | child :: _ => some (s.cleanupZombie child)

/-- A round that does not wait reaps an entry. -/
theorem reap_cases {s s' : Server} {cpid : Int} (reaps : s.reap cpid = some s') :
    ∃ child, s' = s.cleanupZombie child ∧ (cpid ≠ noproc → child = cpid.toNat) := by
  unfold reap at reaps
  split at reaps
  next own =>
    obtain ⟨-, same⟩ := Option.ite_none_left_eq_some.mp reaps
    exact ⟨_, (Option.some.inj same).symm, fun _ => rfl⟩
  next any =>
    split at reaps
    · cases reaps
    · exact ⟨_, (Option.some.inj reaps).symm, fun own => absurd own any⟩

end Server

/-- A connection: its file id in the server, what the client sends, and how the
`Read`s cut it. -/
structure Session where
  sock : Nat
  sent : List Byte
  cut : Nat → Nat

/-- What the thread of a session does when `Execute` gives this `pid`. -/
def Session.actions (session : Session) (pid : Int) : List Action :=
  match rsrvClient session.sock pid ⟨session.sent, session.cut, 0⟩ with
  | some (actions, _) => actions
  | none => []

/-- A thread that runs `rsrv_client`. -/
structure Thread where
  session : Session
  program : Int → List Action
  /-- What `Execute` has given, if it has been called. -/
  pid : Int
  /-- The number of actions it has done. -/
  done : Nat
  /-- It is in a loop of `WaitChild`. -/
  waiting : Bool
  /-- What it has loaded from `active_conn`. -/
  loaded : BitVec 64

namespace Thread

def start (session : Session) : Thread := ⟨session, session.actions, noproc, 0, false, 0⟩

def actions (t : Thread) : List Action := t.program t.pid

def next (t : Thread) : Thread := { t with done := t.done + 1, waiting := false }

/-- The next action of a thread, which it may have to wait for. `pid` is what `Execute`
gives. -/
def act (s : Server) (t : Thread) (pid : Int) : Option (Server × Thread) :=
  match t.actions[t.done]? with
  | none => none
  | some .takeId =>
    if s.mx then none else some ({ s with conn_id_counter := s.conn_id_counter + 1 }, t.next)
  | some (.logMessage msg) => if s.mx then none else some (s.logMessage msg, t.next)
  | some (.execute ..) =>
    if s.Gives pid then some (s.execute pid, { t.next with pid := pid }) else none
  | some (.close fd) => some (s.close fd, t.next)
  | some (.waitChild cpid) =>
    if t.waiting then (s.reap cpid).map fun s => (s, t.next)
    else if s.refuses cpid then some (s, t.next)
    else some (s, { t with waiting := true })
  | some .mutexLock => if s.mx then none else some ({ s with mx := true }, t.next)
  | some .loadActive => some (s, { t.next with loaded := s.active_conn })
  | some .storeActive => some ({ s with active_conn := t.loaded - 1 }, t.next)
  | some .condBroadcast => some (s, t.next)
  | some .mutexUnlock => some ({ s with mx := false }, t.next)
  | some .abort => some ({ s with fate := .aborted }, t)

end Thread

/-- The actions there are, each with what it requires, and whether it is done then. -/
inductive Acted (s : Server) (t : Thread) : Option Action → Server → Thread → Prop where
  | takeId (next : t.actions[t.done]? = some .takeId) :
      Acted s t (some .takeId) { s with conn_id_counter := s.conn_id_counter + 1 } t.next
  | logMessage {msg} (next : t.actions[t.done]? = some (.logMessage msg)) :
      Acted s t (some (.logMessage msg)) (s.logMessage msg) t.next
  | execute {prog argc argv pid} (next : t.actions[t.done]? = some (.execute prog argc argv))
      (gives : s.Gives pid) :
      Acted s t (some (.execute prog argc argv)) (s.execute pid) { t.next with pid := pid }
  | close {fd} (next : t.actions[t.done]? = some (.close fd)) :
      Acted s t (some (.close fd)) (s.close fd) t.next
  | refused {cpid} (next : t.actions[t.done]? = some (.waitChild cpid))
      (first : t.waiting = false) (refuses : s.refuses cpid = true) :
      Acted s t (some (.waitChild cpid)) s t.next
  | waits {cpid} (next : t.actions[t.done]? = some (.waitChild cpid)) (first : t.waiting = false)
      (accepts : s.refuses cpid = false) : Acted s t none s { t with waiting := true }
  | reaped {cpid s'} (next : t.actions[t.done]? = some (.waitChild cpid))
      (waiting : t.waiting = true) (reaps : s.reap cpid = some s') :
      Acted s t (some (.waitChild cpid)) s' t.next
  | mutexLock (next : t.actions[t.done]? = some .mutexLock) (free : s.mx = false) :
      Acted s t (some .mutexLock) { s with mx := true } t.next
  | loadActive (next : t.actions[t.done]? = some .loadActive) :
      Acted s t (some .loadActive) s { t.next with loaded := s.active_conn }
  | storeActive (next : t.actions[t.done]? = some .storeActive) :
      Acted s t (some .storeActive) { s with active_conn := t.loaded - 1 } t.next
  | condBroadcast (next : t.actions[t.done]? = some .condBroadcast) :
      Acted s t (some .condBroadcast) s t.next
  | mutexUnlock (next : t.actions[t.done]? = some .mutexUnlock) :
      Acted s t (some .mutexUnlock) { s with mx := false } t.next
  | abort (next : t.actions[t.done]? = some .abort) :
      Acted s t none { s with fate := .aborted } t

theorem acted_of_act {s s' : Server} {t t' : Thread} {pid : Int}
    (acts : t.act s pid = some (s', t')) : ∃ did, Acted s t did s' t' := by
  unfold Thread.act at acts
  cases next : t.actions[t.done]? with
  | none => simp [next] at acts
  | some action =>
    rw [next] at acts
    cases action with
    | takeId =>
      obtain ⟨-, rfl, rfl⟩ := by simpa using acts
      exact ⟨_, .takeId next⟩
    | logMessage msg =>
      obtain ⟨-, rfl, rfl⟩ := by simpa using acts
      exact ⟨_, .logMessage next⟩
    | execute prog argc argv =>
      obtain ⟨gives, rfl, rfl⟩ := by simpa using acts
      exact ⟨_, .execute next gives⟩
    | close fd =>
      obtain ⟨rfl, rfl⟩ := by simpa using acts
      exact ⟨_, .close next⟩
    | waitChild cpid =>
      cases waiting : t.waiting with
      | true =>
        obtain ⟨reaps, rfl⟩ := by simpa [waiting] using acts
        exact ⟨_, .reaped next waiting reaps⟩
      | false =>
        cases refuses : s.refuses cpid with
        | true =>
          obtain ⟨rfl, rfl⟩ := by simpa [waiting, refuses] using acts
          exact ⟨_, .refused next waiting refuses⟩
        | false =>
          obtain ⟨rfl, rfl⟩ := by simpa [waiting, refuses] using acts
          exact ⟨_, .waits next waiting refuses⟩
    | mutexLock =>
      obtain ⟨free, rfl, rfl⟩ := by simpa using acts
      exact ⟨_, .mutexLock next free⟩
    | loadActive =>
      obtain ⟨rfl, rfl⟩ := by simpa using acts
      exact ⟨_, .loadActive next⟩
    | storeActive =>
      obtain ⟨rfl, rfl⟩ := by simpa using acts
      exact ⟨_, .storeActive next⟩
    | condBroadcast =>
      obtain ⟨rfl, rfl⟩ := by simpa using acts
      exact ⟨_, .condBroadcast next⟩
    | mutexUnlock =>
      obtain ⟨rfl, rfl⟩ := by simpa using acts
      exact ⟨_, .mutexUnlock next⟩
    | abort =>
      obtain ⟨rfl, rfl⟩ := by simpa using acts
      exact ⟨_, .abort next⟩

/-- Where `rsrv_listener_thread` is in its loop. -/
inductive Listener where
  | accept
  | loadActive (session : Session)
  /-- It has loaded `active_conn`. -/
  | storeActive (session : Session) (loaded : BitVec 64)
  | countTotal (session : Session)
  | createThread (session : Session)

/-- The listener and the threads it has created, with what they share. -/
structure System where
  server : Server
  listener : Listener
  threads : List Thread

/-- What can happen next. The labels carry what the server does not decide. -/
inductive Label where
  /-- `Accept` returns a connection. -/
  | accept (session : Session) (stream : FcbRef)
  /-- `Accept` fails. -/
  | refuse
  /-- The listener goes on with its loop. -/
  | listen
  /-- A thread takes its next action. -/
  | act (thread : Nat) (pid : Int)
  /-- A child of the server process exits. -/
  | exit (child : Pid)

namespace System

/-- The listener between two calls of `Accept`. That the thread is detached makes no
difference here. -/
def listen (s : System) : Option System :=
  match s.listener with
  | .accept => none
  | .loadActive session =>
    some { s with listener := .storeActive session s.server.active_conn }
  | .storeActive session loaded =>
    some { s with server.active_conn := loaded + 1, listener := .countTotal session }
  | .countTotal session =>
    some { s with
      server.total_conn := s.server.total_conn + 1
      listener := .createThread session }
  | .createThread session =>
    some { s with listener := .accept, threads := s.threads ++ [.start session] }

/-- The connection gets a free file id. -/
def accept (s : System) (session : Session) (stream : FcbRef) : Option System :=
  match s.listener with
  | .accept =>
    if session.sock < maxFileid ∧ s.server.FIDT session.sock = none then
      some { s with
        server.FIDT := update s.server.FIDT session.sock (some stream)
        listener := .loadActive session }
    else none
  | _ => none

def refuse (s : System) : Option System :=
  match s.listener with
  | .accept =>
    if s.server.mx then none
    else some { s with
      server := s.server.logMessage "listener(port=%d): failed to accept!\n" }
  | _ => none

def act (s : System) (thread : Nat) (pid : Int) : Option System := do
  let t ← s.threads[thread]?
  let (server, t) ← t.act s.server pid
  some { s with server := server, threads := s.threads.set thread t }

/-- A child of the server is a zombie from now on. -/
def exit (s : System) (child : Pid) : Option System :=
  if child ∈ s.server.children ∧ child ∉ s.server.exited then
    some { s with server.exited := child :: s.server.exited }
  else none

def step (s : System) (label : Label) : Option System :=
  if s.server.fate = .running then
    match label with
    | .accept session stream => s.accept session stream
    | .refuse => s.refuse
    | .listen => s.listen
    | .act thread pid => s.act thread pid
    | .exit child => s.exit child
  else none

end System

/-- The steps there are, each with what it requires. -/
inductive Stepped (s : System) : Label → System → Prop where
  | accept {session stream} (here : s.listener = .accept) (legal : session.sock < maxFileid)
      (free : s.server.FIDT session.sock = none) :
      Stepped s (.accept session stream) { s with
        server.FIDT := update s.server.FIDT session.sock (some stream)
        listener := .loadActive session }
  | refuse {msg} (here : s.listener = .accept) :
      Stepped s .refuse { s with server := s.server.logMessage msg }
  | loadActive {session} (here : s.listener = .loadActive session) :
      Stepped s .listen { s with listener := .storeActive session s.server.active_conn }
  | storeActive {session loaded} (here : s.listener = .storeActive session loaded) :
      Stepped s .listen { s with
        server.active_conn := loaded + 1
        listener := .countTotal session }
  | countTotal {session} (here : s.listener = .countTotal session) :
      Stepped s .listen { s with
        server.total_conn := s.server.total_conn + 1
        listener := .createThread session }
  | createThread {session} (here : s.listener = .createThread session) :
      Stepped s .listen { s with listener := .accept, threads := s.threads ++ [.start session] }
  | act {i pid t did server t'} (thread : s.threads[i]? = some t)
      (acted : Acted s.server t did server t') :
      Stepped s (.act i pid) { s with server := server, threads := s.threads.set i t' }
  | exit {child} (alive : child ∈ s.server.children ∧ child ∉ s.server.exited) :
      Stepped s (.exit child) { s with server.exited := child :: s.server.exited }

theorem stepped_of_step {s s' : System} {label : Label} (moved : s.step label = some s') :
    s.server.fate = .running ∧ Stepped s label s' := by
  obtain ⟨running, moved⟩ := Option.ite_none_right_eq_some.mp moved
  refine ⟨running, ?_⟩
  cases label with
  | accept session stream =>
    cases here : s.listener with
    | accept =>
      obtain ⟨⟨legal, free⟩, rfl⟩ := by simpa [System.accept, here] using moved
      exact .accept here legal free
    | loadActive | storeActive | countTotal | createThread =>
      simp [System.accept, here] at moved
  | refuse =>
    cases here : s.listener with
    | accept =>
      obtain ⟨-, rfl⟩ := by simpa [System.refuse, here] using moved
      exact here ▸ .refuse here
    | loadActive | storeActive | countTotal | createThread =>
      simp [System.refuse, here] at moved
  | listen =>
    cases here : s.listener with
    | accept => simp [System.listen, here] at moved
    | loadActive session =>
      obtain rfl := by simpa [System.listen, here] using moved
      exact .loadActive here
    | storeActive session loaded =>
      obtain rfl := by simpa [System.listen, here] using moved
      exact .storeActive here
    | countTotal session =>
      obtain rfl := by simpa [System.listen, here] using moved
      exact .countTotal here
    | createThread session =>
      obtain rfl := by simpa [System.listen, here] using moved
      exact .createThread here
  | act i pid =>
    obtain ⟨t, thread, moved⟩ := Option.bind_eq_some_iff.mp moved
    obtain ⟨⟨server, t'⟩, acts, same⟩ := Option.bind_eq_some_iff.mp moved
    obtain ⟨did, acted⟩ := acted_of_act acts
    cases same
    exact .act thread acted
  | exit child =>
    obtain ⟨alive, rfl⟩ := by simpa [System.exit] using moved
    exact .exit alive

/-- The server process from its first `Accept` on, with the files it has then. -/
def machine (FIDT : Nat → Option FcbRef) : Machine System Label where
  initial s := s = ⟨remoteServer FIDT, .accept, []⟩
  step := System.step

end TinyOs.RemoteSession
