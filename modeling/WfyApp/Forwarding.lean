import WfyApp.StepSystem

/-! The threads of the tool server that share a client's socket (tcp_server.cpp,
rkaiq_protocol.cpp): the accept thread, a receive thread for each client, and the threads
of `doMessageForward`. A step makes one access to what they share; a critical section of
`mutex_` makes only one. -/

namespace WfyApp.Forwarding
open StepSystem

inductive OpKind where
  | send
  | recv
  | close
deriving DecidableEq, Repr

structure SocketOp where
  kind : OpKind
  client : Nat
  number : Nat
deriving DecidableEq, Repr

/-- Where a receive thread is: in `Recvieve`, in the callback, in `MessageForward` after
`Send` or after a failed reconnection, before the last `close`, or gone. -/
inductive ClientPhase where
  | receiving
  | called
  | forwarded
  | failing
  | closing
  | done
deriving DecidableEq, Repr

structure Client where
  number : Nat
  phase : ClientPhase
deriving DecidableEq, Repr

inductive ForwarderPhase where
  | created
  | checking
  | receiving
  | sending
  | closing
  | ending
deriving DecidableEq, Repr

structure Forwarder where
  client : Nat
  number : Nat
  phase : ForwarderPhase
deriving DecidableEq, Repr

/-- Clients are numbered in the order of `accept`; `opened` are the descriptor numbers in
use. The last three fields are a record of what happened: whose message was forwarded
last, where bytes from AIQ went and whose turn it was, and the calls on client sockets. -/
structure Server where
  clients : List Client
  opened : List Nat
  isRecvRunning : Bool
  forwarders : List Forwarder
  recent : Option Nat
  delivered : List (Nat × Option Nat)
  log : List SocketOp
deriving DecidableEq, Repr

def initial : Server := ⟨[], [], false, [], none, [], []⟩

inductive RecvOutcome where
  | data
  | again
  | ended
deriving DecidableEq, Repr

inductive ForwardOutcome where
  | sent
  | again
  | reconnected
  | failed
deriving DecidableEq, Repr

inductive AiqOutcome where
  | data
  | nothing
  | failed
deriving DecidableEq, Repr

inductive Label where
  | accept (number : Nat)
  | recv (client : Nat) (outcome : RecvOutcome)
  | quit (client : Nat)
  | answer (client : Nat)
  | fetch (client : Nat)
  | handled (client : Nat)
  | forward (client : Nat) (outcome : ForwardOutcome)
  | clear (client : Nat)
  | test (client : Nat)
  | finish (client : Nat)
  | exit
  | start (forwarder : Nat)
  | check (forwarder : Nat)
  | receive (forwarder : Nat) (outcome : AiqOutcome)
  | deliver (forwarder : Nat) (success : Bool)
  | closeSocket (forwarder : Nat)
  | stop (forwarder : Nat)
deriving DecidableEq, Repr

namespace Server
variable (s : Server)

def clientAt (client : Nat) (phase : ClientPhase) : Option Nat :=
  s.clients[client]?.bind fun c => if c.phase = phase then some c.number else none

def moveClient (client number : Nat) (phase : ClientPhase) : Server :=
  { s with clients := s.clients.set client ⟨number, phase⟩ }

def forwarderAt (forwarder : Nat) (phase : ForwarderPhase) : Option Forwarder :=
  s.forwarders[forwarder]?.bind fun f => if f.phase = phase then some f else none

def moveForwarder (forwarder : Nat) (f : Forwarder) (phase : ForwarderPhase) : Server :=
  { s with forwarders := s.forwarders.set forwarder { f with phase := phase } }

def use (kind : OpKind) (client number : Nat) : Server :=
  { s with
    log := s.log ++ [⟨kind, client, number⟩]
    opened := if kind = .close then s.opened.erase number else s.opened }

end Server

def afterRecv : RecvOutcome → ClientPhase
  | .data => .called
  | .again => .receiving
  | .ended => .closing

def afterReceive : AiqOutcome → ForwarderPhase
  | .data => .sending
  | .nothing => .checking
  | .failed => .closing

def step (s : Server) : Label → Option Server
  | .accept number =>
      if number ∈ s.opened then none
      else some { s with
        clients := s.clients ++ [⟨number, .receiving⟩]
        opened := number :: s.opened }
  | .recv client outcome => (s.clientAt client .receiving).map fun number =>
      (s.use .recv client number).moveClient client number (afterRecv outcome)
  | .quit client => (s.clientAt client .receiving).map fun number =>
      s.moveClient client number .closing
  -- a handler of the callback may send to its client and receive from it
  | .answer client => (s.clientAt client .called).map fun number => s.use .send client number
  | .fetch client => (s.clientAt client .called).map fun number => s.use .recv client number
  | .handled client => (s.clientAt client .called).map fun number =>
      s.moveClient client number .receiving
  | .forward client outcome => (s.clientAt client .called).map fun number =>
      match outcome with
      | .sent => { s with recent := some client }.moveClient client number .forwarded
      | .again => s.moveClient client number .forwarded
      | .reconnected => s.moveClient client number .forwarded
      | .failed => (s.use .close client number).moveClient client number .failing
  | .clear client => (s.clientAt client .failing).map fun number =>
      { s with isRecvRunning := false }.moveClient client number .receiving
  | .test client => (s.clientAt client .forwarded).map fun number =>
      { s with
        forwarders :=
          if s.isRecvRunning then s.forwarders
          else s.forwarders ++ [Forwarder.mk client number .created] }.moveClient client number .receiving
  | .finish client => (s.clientAt client .closing).map fun number =>
      (s.use .close client number).moveClient client number .done
  | .exit => some { s with isRecvRunning := false }
  | .start forwarder => (s.forwarderAt forwarder .created).map fun f =>
      { s with isRecvRunning := true }.moveForwarder forwarder f .checking
  | .check forwarder => (s.forwarderAt forwarder .checking).map fun f =>
      s.moveForwarder forwarder f (if s.isRecvRunning then .receiving else .ending)
  | .receive forwarder outcome => (s.forwarderAt forwarder .receiving).map fun f =>
      s.moveForwarder forwarder f (afterReceive outcome)
  | .deliver forwarder success => (s.forwarderAt forwarder .sending).map fun f =>
      { s.use .send f.client f.number with
        delivered := s.delivered ++ [(f.client, s.recent)] }.moveForwarder forwarder f
          (if success then .checking else .closing)
  | .closeSocket forwarder => (s.forwarderAt forwarder .closing).map fun f =>
      (s.use .close f.client f.number).moveForwarder forwarder f .ending
  | .stop forwarder => (s.forwarderAt forwarder .ending).map fun _ =>
      { s with isRecvRunning := false, forwarders := s.forwarders.eraseIdx forwarder }

theorem clientAt_eq_some (s : Server) (client : Nat) (phase : ClientPhase) (number : Nat) :
    s.clientAt client phase = some number ↔ s.clients[client]? = some ⟨number, phase⟩ := by
  rw [Server.clientAt, Option.bind_eq_some_iff]
  constructor
  · rintro ⟨⟨_, _⟩, found, same⟩
    split_ifs at same with at_phase
    cases same
    cases at_phase
    exact found
  · intro found
    exact ⟨_, found, if_pos rfl⟩

theorem forwarderAt_eq_some (s : Server) (forwarder : Nat) (phase : ForwarderPhase)
    (f : Forwarder) :
    s.forwarderAt forwarder phase = some f ↔ s.forwarders[forwarder]? = some f ∧ f.phase = phase := by
  rw [Server.forwarderAt, Option.bind_eq_some_iff]
  constructor
  · rintro ⟨g, found, same⟩
    split_ifs at same with at_phase
    cases same
    exact ⟨found, at_phase⟩
  · rintro ⟨found, at_phase⟩
    exact ⟨f, found, if_pos at_phase⟩

theorem client_of_map {s t : Server} {client : Nat} {phase : ClientPhase} {next : Nat → Server}
    (taken : (s.clientAt client phase).map next = some t) :
    ∃ number, s.clients[client]? = some ⟨number, phase⟩ ∧ next number = t := by
  simpa only [Option.map_eq_some_iff, clientAt_eq_some] using taken

theorem forwarder_of_map {s t : Server} {forwarder : Nat} {phase : ForwarderPhase}
    {next : Forwarder → Server} (taken : (s.forwarderAt forwarder phase).map next = some t) :
    ∃ f, s.forwarders[forwarder]? = some f ∧ next f = t := by
  obtain ⟨f, at_phase, after⟩ := Option.map_eq_some_iff.mp taken
  exact ⟨f, ((forwarderAt_eq_some s forwarder phase f).mp at_phase).1, after⟩

section Replies

def deliveries (s : Server) : Label → List (Nat × Option Nat)
  | .deliver forwarder _ => (s.forwarders[forwarder]?.map fun f => (f.client, s.recent)).toList
  | _ => []

theorem step_delivered (s t : Server) (label : Label) (taken : step s label = some t) :
    t.delivered = s.delivered ++ deliveries s label := by
  cases label with
  | accept number =>
      simp only [step] at taken
      split_ifs at taken
      cases taken
      simp [deliveries]
  | exit =>
      cases taken
      simp [deliveries]
  | forward client outcome =>
      obtain ⟨number, -, rfl⟩ := client_of_map taken
      cases outcome <;> simp [deliveries, Server.moveClient, Server.use]
  | deliver forwarder success =>
      obtain ⟨f, found, rfl⟩ := forwarder_of_map taken
      rw [deliveries, found]
      rfl
  | recv client outcome | quit client | answer client | fetch client | handled client
  | clear client | test client | finish client =>
      obtain ⟨number, -, rfl⟩ := client_of_map taken
      simp [deliveries, Server.moveClient, Server.use]
  | start forwarder | check forwarder | receive forwarder outcome | closeSocket forwarder
  | stop forwarder =>
      obtain ⟨f, -, rfl⟩ := forwarder_of_map taken
      simp [deliveries, Server.moveForwarder, Server.use]

theorem step_forwarders_length (s t : Server) (label : Label) (taken : step s label = some t) :
    match label with
    | .test _ => t.forwarders.length = s.forwarders.length + if s.isRecvRunning then 0 else 1
    | _ => t.forwarders.length ≤ s.forwarders.length := by
  cases label with
  | accept number =>
      simp only [step] at taken
      split_ifs at taken
      cases taken
      exact le_rfl
  | exit =>
      cases taken
      exact le_rfl
  | forward client outcome =>
      obtain ⟨number, -, rfl⟩ := client_of_map taken
      cases outcome <;> exact le_rfl
  | test client =>
      obtain ⟨number, -, rfl⟩ := client_of_map taken
      simp only [Server.moveClient]
      split_ifs
      · rfl
      · exact List.length_append
  | recv client outcome | quit client | answer client | fetch client | handled client
  | clear client | finish client =>
      obtain ⟨number, -, rfl⟩ := client_of_map taken
      exact le_rfl
  | start forwarder | check forwarder | receive forwarder outcome | closeSocket forwarder
  | deliver forwarder success =>
      obtain ⟨f, -, rfl⟩ := forwarder_of_map taken
      simp [Server.moveForwarder, Server.use]
  | stop forwarder =>
      obtain ⟨f, -, rfl⟩ := forwarder_of_map taken
      exact List.length_eraseIdx_le _ _

/-- At most one forwarding thread, and every reply went to the client whose message was
forwarded last. -/
def Orderly (s : Server) : Prop :=
  s.forwarders.length ≤ 1 ∧ ∀ d ∈ s.delivered, d.2 = some d.1

/-- A test made while a forwarding thread is alive finds the flag set, and bytes from AIQ
come while the client of the thread was the last to forward. -/
def Timely (s : Server) : Label → Prop
  | .test _ => s.isRecvRunning = false → s.forwarders = []
  | .deliver forwarder _ => ∀ f, s.forwarders[forwarder]? = some f → s.recent = some f.client
  | _ => True

theorem orderly_step_iff (s t : Server) (label : Label) (orderly : Orderly s)
    (taken : step s label = some t) : Orderly t ↔ Timely s label := by
  have delivered := step_delivered s t label taken
  have length := step_forwarders_length s t label taken
  rw [Orderly, delivered, List.forall_mem_append, and_iff_right orderly.2]
  cases label with
  | test client =>
      simp only [deliveries, List.not_mem_nil, false_imp_iff, implies_true, and_true, Timely]
      simp only at length
      rw [length, ← List.length_eq_zero_iff]
      have one := orderly.1
      cases s.isRecvRunning with
      | false =>
          simp only [Bool.false_eq_true, if_false, true_imp_iff]
          omega
      | true => simpa using one
  | deliver forwarder success =>
      rw [and_iff_right (le_trans length orderly.1)]
      cases found : s.forwarders[forwarder]? with
      | none => simp [deliveries, Timely, found]
      | some f => simp [deliveries, Timely, found]
  | _ =>
      rw [and_iff_right (le_trans length orderly.1)]
      simp [deliveries, Timely]

/-- What the order of the steps says: whose test was the first since a forwarding thread last
stopped, whether the last access to the flag set it, and who was the last to forward. -/
structure Turns where
  starter : Option Nat
  flag : Bool
  last : Option Nat

def Turns.initial : Turns := ⟨none, false, none⟩

def Turns.next (t : Turns) : Label → Turns
  | .test client => { t with starter := t.starter.or (some client) }
  | .start _ => { t with flag := true }
  | .clear _ | .exit => { t with flag := false }
  | .stop _ => { t with starter := none, flag := false }
  | .forward client .sent => { t with last := some client }
  | _ => t

/-- The flag is tested only before a forwarding thread is started, or after its first statement
and not after a failed reconnection or `Exit`; bytes from AIQ come when no other client has
forwarded a message since the one that started the thread. -/
def InTurn (t : Turns) : Label → Prop
  | .test _ => t.starter = none ∨ t.flag = true
  | .deliver _ _ => t.last = t.starter
  | _ => True

/-- No other client forwards a message while a forwarding thread is alive; the thread is started
by the client that forwarded last. -/
def Alone (t : Turns) : Label → Prop
  | .forward client .sent => t.starter = none ∨ t.starter = some client
  | .test client => if t.starter = none then t.last = some client else t.flag = true
  | _ => True

structure Follows (s : Server) (t : Turns) : Prop where
  threads : s.forwarders.map Forwarder.client = t.starter.toList
  flag : s.isRecvRunning = t.flag
  last : s.recent = t.last
  started : t.flag = true → t.starter ≠ none

theorem follows_initial : Follows initial .initial := ⟨rfl, rfl, rfl, nofun⟩

theorem forwarders_eq_nil_iff {s : Server} {t : Turns} (follows : Follows s t) :
    s.forwarders = [] ↔ t.starter = none := by
  rw [← List.map_eq_nil_iff (f := Forwarder.client), follows.threads, Option.toList_eq_nil_iff]

theorem thread_of_found {s : Server} {t : Turns} {forwarder : Nat} {f : Forwarder}
    (follows : Follows s t) (found : s.forwarders[forwarder]? = some f) :
    s.forwarders = [f] ∧ forwarder = 0 ∧ t.starter = some f.client := by
  have threads := follows.threads
  cases same : t.starter with
  | none =>
      rw [(forwarders_eq_nil_iff follows).mpr same] at found
      cases found
  | some first =>
      rw [same, Option.toList_some, List.map_eq_singleton_iff] at threads
      obtain ⟨only, alone, rfl⟩ := threads
      rw [alone, List.getElem?_singleton] at found
      split_ifs at found with zero
      cases found
      exact ⟨alone, zero, rfl⟩

theorem timely_iff_inTurn {s t : Server} {turns : Turns} {label : Label}
    (follows : Follows s turns) (taken : step s label = some t) :
    Timely s label ↔ InTurn turns label := by
  cases label with
  | test client =>
      rw [Timely, InTurn, forwarders_eq_nil_iff follows, follows.flag]
      cases turns.flag <;> simp
  | deliver forwarder success =>
      obtain ⟨f, found, -⟩ := forwarder_of_map taken
      rw [Timely, InTurn, follows.last, (thread_of_found follows found).2.2]
      simp [found]
  | _ => exact Iff.rfl

theorem follows_step {s t : Server} {turns : Turns} {label : Label} (follows : Follows s turns)
    (taken : step s label = some t) (timely : Timely s label) : Follows t (turns.next label) := by
  have same := follows
  obtain ⟨threads, flag, last, started⟩ := follows
  cases label with
  | accept number =>
      simp only [step] at taken
      split_ifs at taken
      cases taken
      exact ⟨threads, flag, last, started⟩
  | exit =>
      cases taken
      exact ⟨threads, rfl, last, nofun⟩
  | recv client outcome | quit client | answer client | fetch client | handled client
  | finish client =>
      obtain ⟨number, -, rfl⟩ := client_of_map taken
      exact ⟨threads, flag, last, started⟩
  | clear client =>
      obtain ⟨number, -, rfl⟩ := client_of_map taken
      exact ⟨threads, rfl, last, nofun⟩
  | forward client outcome =>
      obtain ⟨number, -, rfl⟩ := client_of_map taken
      cases outcome with
      | sent => exact ⟨threads, flag, rfl, started⟩
      | again | reconnected | failed => exact ⟨threads, flag, last, started⟩
  | test client =>
      obtain ⟨number, -, rfl⟩ := client_of_map taken
      rw [Timely, ← List.map_eq_nil_iff (f := Forwarder.client), threads, flag,
        Option.toList_eq_nil_iff] at timely
      cases running : turns.flag with
      | true =>
          obtain ⟨first, same⟩ := Option.ne_none_iff_exists'.mp (started running)
          refine ⟨?_, flag, last, fun _ => ?_⟩
          · simpa [Server.moveClient, flag, running, Turns.next, same] using threads
          · simp [Turns.next, same]
      | false =>
          have absent := timely running
          refine ⟨?_, flag, last, fun set => ?_⟩
          · simp [Server.moveClient, flag, running, Turns.next, absent, threads]
          · exact absurd (running.symm.trans set) nofun
  | start forwarder =>
      obtain ⟨f, found, rfl⟩ := forwarder_of_map taken
      obtain ⟨alone, rfl, starter⟩ := thread_of_found same found
      refine ⟨?_, rfl, last, fun _ => ?_⟩
      · simp [Server.moveForwarder, Turns.next, alone, starter]
      · simp [Turns.next, starter]
  | check forwarder | receive forwarder outcome | deliver forwarder success
  | closeSocket forwarder =>
      obtain ⟨f, found, rfl⟩ := forwarder_of_map taken
      obtain ⟨alone, rfl, starter⟩ := thread_of_found same found
      refine ⟨?_, flag, last, started⟩
      simp [Server.moveForwarder, Server.use, Turns.next, alone, starter]
  | stop forwarder =>
      obtain ⟨f, found, rfl⟩ := forwarder_of_map taken
      obtain ⟨alone, rfl, -⟩ := thread_of_found same found
      exact ⟨by simp [Turns.next, alone], rfl, last, nofun⟩

def Turns.Own (t : Turns) : Prop := t.starter ≠ none → t.last = t.starter

theorem inTurn_of_alone {s s' : Server} {t : Turns} {label : Label} (follows : Follows s t)
    (own : t.Own) (taken : step s label = some s') (alone : Alone t label) : InTurn t label := by
  cases label with
  | test client =>
      rw [Alone] at alone
      split_ifs at alone with free
      · exact .inl free
      · exact .inr alone
  | deliver forwarder success =>
      obtain ⟨f, found, -⟩ := forwarder_of_map taken
      exact own (by rw [(thread_of_found follows found).2.2]; simp)
  | _ => trivial

theorem own_next {t : Turns} {label : Label} (own : t.Own) (alone : Alone t label) :
    (t.next label).Own := by
  cases label with
  | test client =>
      rw [Alone] at alone
      split_ifs at alone with free
      · simp [Turns.Own, Turns.next, free, alone]
      · obtain ⟨first, starter⟩ := Option.ne_none_iff_exists'.mp free
        simpa [Turns.Own, Turns.next, starter] using own free
  | forward client outcome =>
      cases outcome with
      | sent =>
          rcases alone with free | starter
          · exact fun busy => absurd free busy
          · exact fun _ => starter.symm
      | again | reconnected | failed => exact own
  | stop forwarder => exact fun busy => absurd rfl busy
  | _ => exact own

/-- Every state that a run passes through is orderly exactly if the order of its steps is such
that all are made in turn, as they are if no other client forwards while a thread is alive. -/
theorem forwarding_orderly_iff (labels : List Label) (s : Server)
    (run : exec step initial labels = some s) :
    ((∀ first, first <+: labels → ∀ t, exec step initial first = some t → Orderly t) ↔
        LabelsMeet Turns.next InTurn .initial labels) ∧
      (LabelsMeet Turns.next Alone .initial labels →
        ∀ first, first <+: labels → ∀ t, exec step initial first = some t → Orderly t) := by
  have timely := always_iff_stepsMeet step Orderly Timely
    (fun s label t orderly taken => orderly_step_iff s t label orderly taken)
    labels initial s ⟨by decide, by simp [initial]⟩ run
  rw [timely]
  constructor
  · refine stepsMeet_iff_labelsMeet step Turns.next Follows Timely InTurn ?_ labels initial s
      .initial follows_initial run
    exact fun s t label s' follows taken =>
      ⟨timely_iff_inTurn follows taken, follows_step follows taken⟩
  · intro alone
    refine stepsMeet_of_labelsMeet step Turns.next (fun s t => Follows s t ∧ t.Own) Timely Alone ?_
      labels initial s .initial ⟨follows_initial, nofun⟩ run alone
    rintro s t label s' ⟨follows, own⟩ taken alone
    have met := (timely_iff_inTurn follows taken).mpr (inTurn_of_alone follows own taken alone)
    exact ⟨met, follows_step follows taken met, own_next own alone⟩

def inTurnRun : List Label :=
  [.accept 5, .accept 6, .recv 0 .data, .forward 0 .sent, .test 0, .start 0, .check 0,
    .receive 0 .data, .deliver 0 true, .recv 0 .data, .forward 0 .sent, .test 0, .check 0,
    .receive 0 .data, .deliver 0 true, .exit, .check 0, .stop 0, .recv 1 .data, .forward 1 .sent,
    .test 1, .start 0, .check 0, .receive 0 .data, .deliver 0 true]

theorem forwarding_orderly_iff_inTurnRun :
    (∃ s, exec step initial inTurnRun = some s ∧
      s.delivered = [(0, some 0), (0, some 0), (1, some 1)]) ∧
    ∀ first, first <+: inTurnRun → ∀ t, exec step initial first = some t → Orderly t := by
  refine ⟨⟨_, rfl, rfl⟩, (forwarding_orderly_iff inTurnRun _ rfl).1.mpr ?_⟩
  simp [inTurnRun, LabelsMeet, InTurn, Turns.next, Turns.initial]

/-- Two clients that test the flag before the thread of either has set it, and bytes from
AIQ that go to the first client although the second has forwarded a message since. -/
theorem forwarding_disorderly :
    (∃ s, exec step initial [.accept 5, .accept 6, .recv 0 .data, .recv 1 .data,
        .forward 0 .sent, .forward 1 .sent, .test 0, .test 1] = some s ∧
      s.forwarders = [⟨0, 5, .created⟩, ⟨1, 6, .created⟩]) ∧
    ∃ s, exec step initial [.accept 5, .accept 6, .recv 0 .data, .forward 0 .sent, .test 0,
        .start 0, .recv 1 .data, .forward 1 .sent, .test 1, .check 0, .receive 0 .data,
        .deliver 0 true] = some s ∧
      s.delivered = [(0, some 1)] :=
  ⟨⟨_, rfl, rfl⟩, _, rfl, rfl⟩

end Replies

section Sockets

/-- After the close of a client's descriptor nothing is done with it on behalf of that
client. -/
def NoUseAfterClose (log : List SocketOp) : Prop :=
  log.Pairwise fun earlier later => earlier.kind = .close → later.client ≠ earlier.client

instance (log : List SocketOp) : Decidable (NoUseAfterClose log) :=
  inferInstanceAs (Decidable (log.Pairwise _))

def closes (log : List SocketOp) (client : Nat) : Nat :=
  log.countP fun op => op.kind = .close ∧ op.client = client

def Server.Done (s : Server) (client : Nat) : Prop :=
  s.clients[client]?.map Client.phase = some .done

instance (s : Server) (client : Nat) : Decidable (s.Done client) :=
  inferInstanceAs (Decidable (_ = _))

/-- The descriptor of every client is closed once, at the end of its receive thread, and
not used again on its behalf. -/
def ClosedOnce (s : Server) : Prop :=
  NoUseAfterClose s.log ∧ ∀ client, closes s.log client = if s.Done client then 1 else 0

/-- No forwarding ends with a close of the socket, and a forwarding thread sends only while
its client is not done. -/
def Careful (s : Server) : Label → Prop
  | .forward _ outcome => outcome ≠ .failed
  | .deliver forwarder _ => ∀ f, s.forwarders[forwarder]? = some f → ¬s.Done f.client
  | .closeSocket _ => False
  | _ => True

theorem closes_concat (log : List SocketOp) (op : SocketOp) (client : Nat) :
    closes (log ++ [op]) client =
      closes log client + if op.kind = .close ∧ op.client = client then 1 else 0 := by
  simp [closes, List.countP_append, List.countP_singleton]

theorem noUseAfterClose_concat (log : List SocketOp) (op : SocketOp) :
    NoUseAfterClose (log ++ [op]) ↔ NoUseAfterClose log ∧ closes log op.client = 0 := by
  have fresh : closes log op.client = 0 ↔
      ∀ earlier ∈ log, earlier.kind = .close → op.client ≠ earlier.client := by
    simp only [closes, List.countP_eq_zero, decide_eq_true_eq, not_and, ne_comm]
  rw [fresh, NoUseAfterClose, List.pairwise_append]
  simp [NoUseAfterClose]

theorem closedOnce_quiet (s t : Server) (once : ClosedOnce s) (log : t.log = s.log)
    (done : ∀ client, t.Done client ↔ s.Done client) : ClosedOnce t := by
  refine ⟨log ▸ once.1, fun client => ?_⟩
  rw [log, once.2]
  simp only [done]

theorem closedOnce_call_iff (s t : Server) (op : SocketOp) (ended : Prop) (once : ClosedOnce s)
    (log : t.log = s.log ++ [op])
    (done : ∀ client, t.Done client ↔ s.Done client ∨ ended ∧ client = op.client) :
    ClosedOnce t ↔ ¬s.Done op.client ∧ (op.kind = .close ↔ ended) := by
  have fresh : closes s.log op.client = 0 ↔ ¬s.Done op.client := by
    rw [once.2]
    split_ifs with finished <;> simp [finished]
  rw [ClosedOnce, log, noUseAfterClose_concat, and_iff_right once.1, fresh]
  refine and_congr_right fun going => ?_
  have now : ended ↔ t.Done op.client := by simp [done, going]
  rw [now]
  refine ⟨fun counts => ?_, fun closing client => ?_⟩
  · have count := counts op.client
    rw [closes_concat, fresh.mpr going] at count
    by_cases finished : t.Done op.client
    · rw [if_pos finished] at count
      exact iff_of_true (by_contra fun other => by simp [other] at count) finished
    · rw [if_neg finished] at count
      exact iff_of_false (fun closing => by simp [closing] at count) finished
  · rw [closes_concat, once.2]
    by_cases same : op.client = client
    · subst same
      simp [going, closing]
    · simp [done, same, Ne.symm same]

theorem done_of_set (s t : Server) (client number : Nat) (old phase : ClientPhase)
    (found : s.clients[client]? = some ⟨number, old⟩) (was : old ≠ .done)
    (moved : t.clients = s.clients.set client ⟨number, phase⟩) (other : Nat) :
    t.Done other ↔ s.Done other ∨ phase = .done ∧ other = client := by
  have inside := (List.getElem?_eq_some_iff.mp found).1
  rw [Server.Done, Server.Done, moved, List.getElem?_set]
  by_cases same : client = other
  · subst same
    rw [found]
    simp [inside, was]
  · simp [same, Ne.symm same]

theorem done_accept (s : Server) (number client : Nat) :
    Server.Done { s with
      clients := s.clients ++ [⟨number, .receiving⟩], opened := number :: s.opened } client ↔
      s.Done client := by
  simp only [Server.Done, List.getElem?_append]
  split_ifs with known
  · rfl
  · rw [List.getElem?_eq_none (not_lt.mp known)]
    rcases client - s.clients.length with _ | later <;> simp

theorem step_done (s t : Server) (label : Label) (taken : step s label = some t) (client : Nat) :
    t.Done client ↔ s.Done client ∨ label = .finish client := by
  cases label with
  | accept number =>
      simp only [step] at taken
      split_ifs at taken
      cases taken
      rw [done_accept]
      simp
  | exit =>
      cases taken
      simp [Server.Done]
  | forward other outcome =>
      obtain ⟨number, found, rfl⟩ := client_of_map taken
      cases outcome <;>
      · rw [done_of_set s _ other number _ _ found nofun rfl]
        simp
  | recv other outcome =>
      obtain ⟨number, found, rfl⟩ := client_of_map taken
      rw [done_of_set s _ other number _ _ found nofun rfl]
      cases outcome <;> simp [afterRecv]
  | quit other | handled other | clear other | test other =>
      obtain ⟨number, found, rfl⟩ := client_of_map taken
      rw [done_of_set s _ other number _ _ found nofun rfl]
      simp
  | finish other =>
      obtain ⟨number, found, rfl⟩ := client_of_map taken
      rw [done_of_set s _ other number _ _ found nofun rfl]
      simp [eq_comm]
  | answer other | fetch other =>
      obtain ⟨number, -, rfl⟩ := client_of_map taken
      simp [Server.Done, Server.use]
  | start forwarder | check forwarder | receive forwarder outcome | deliver forwarder success
  | closeSocket forwarder | stop forwarder =>
      obtain ⟨f, -, rfl⟩ := forwarder_of_map taken
      simp [Server.Done, Server.moveForwarder, Server.use]

def clientCall (s : Server) (kind : OpKind) (client : Nat) : List SocketOp :=
  (s.clients[client]?.map fun c => ⟨kind, client, c.number⟩).toList

def forwarderCall (s : Server) (kind : OpKind) (forwarder : Nat) : List SocketOp :=
  (s.forwarders[forwarder]?.map fun f => ⟨kind, f.client, f.number⟩).toList

def calls (s : Server) : Label → List SocketOp
  | .recv client _ => clientCall s .recv client
  | .answer client => clientCall s .send client
  | .fetch client => clientCall s .recv client
  | .forward client .failed => clientCall s .close client
  | .finish client => clientCall s .close client
  | .deliver forwarder _ => forwarderCall s .send forwarder
  | .closeSocket forwarder => forwarderCall s .close forwarder
  | _ => []

theorem step_log (s t : Server) (label : Label) (taken : step s label = some t) :
    t.log = s.log ++ calls s label := by
  cases label with
  | accept number =>
      simp only [step] at taken
      split_ifs at taken
      cases taken
      simp [calls]
  | exit =>
      cases taken
      simp [calls]
  | forward client outcome =>
      obtain ⟨number, found, rfl⟩ := client_of_map taken
      cases outcome <;> simp [calls, clientCall, found, Server.moveClient, Server.use]
  | recv client outcome | quit client | answer client | fetch client | handled client
  | clear client | test client | finish client =>
      obtain ⟨number, found, rfl⟩ := client_of_map taken
      simp [calls, clientCall, found, Server.moveClient, Server.use]
  | start forwarder | check forwarder | receive forwarder outcome | deliver forwarder success
  | closeSocket forwarder | stop forwarder =>
      obtain ⟨f, found, rfl⟩ := forwarder_of_map taken
      simp [calls, forwarderCall, found, Server.moveForwarder, Server.use]

theorem not_done_of_found (s : Server) (client number : Nat) (phase : ClientPhase)
    (found : s.clients[client]? = some ⟨number, phase⟩) (going : phase ≠ .done) :
    ¬s.Done client := by
  simp [Server.Done, found, going]

theorem closedOnce_step_iff (s t : Server) (label : Label) (once : ClosedOnce s)
    (taken : step s label = some t) : ClosedOnce t ↔ Careful s label := by
  have log := step_log s t label taken
  have done := step_done s t label taken
  cases label with
  | recv client outcome | answer client | fetch client =>
      obtain ⟨number, found, -⟩ := client_of_map taken
      simp only [calls, clientCall, found] at log
      rw [closedOnce_call_iff s t _ False once log (by simpa using done)]
      simpa [Careful] using not_done_of_found s client number _ found nofun
  | finish client =>
      obtain ⟨number, found, -⟩ := client_of_map taken
      simp only [calls, clientCall, found] at log
      rw [closedOnce_call_iff s t _ True once log (by simpa [eq_comm] using done)]
      simpa [Careful] using not_done_of_found s client number _ found nofun
  | forward client outcome =>
      obtain ⟨number, found, -⟩ := client_of_map taken
      cases outcome with
      | failed =>
          simp only [calls, clientCall, found] at log
          rw [closedOnce_call_iff s t _ False once log (by simpa using done)]
          simp [Careful]
      | sent | again | reconnected =>
          exact iff_of_true (closedOnce_quiet s t once (by simpa [calls] using log)
            (by simpa using done)) nofun
  | deliver forwarder success =>
      obtain ⟨f, found, -⟩ := forwarder_of_map taken
      simp only [calls, forwarderCall, found] at log
      rw [closedOnce_call_iff s t _ False once log (by simpa using done)]
      simp [Careful, found]
  | closeSocket forwarder =>
      obtain ⟨f, found, -⟩ := forwarder_of_map taken
      simp only [calls, forwarderCall, found] at log
      rw [closedOnce_call_iff s t _ False once log (by simpa using done)]
      simp [Careful]
  | _ =>
      exact iff_of_true (closedOnce_quiet s t once (by simpa [calls] using log)
        (by simpa using done)) trivial

/-- In every state that a run passes through the descriptors of all clients are closed
once, at the end of their receive threads, and not used on their behalf afterwards, exactly
if all steps of the run are careful. -/
theorem sockets_closed_once_iff (labels : List Label) (s : Server)
    (run : exec step initial labels = some s) :
    (∀ first, first <+: labels → ∀ t, exec step initial first = some t → ClosedOnce t) ↔
      StepsMeet step Careful initial labels :=
  always_iff_stepsMeet step ClosedOnce Careful
    (fun s label t once taken => closedOnce_step_iff s t label once taken) labels initial s
    ⟨List.Pairwise.nil, fun client => by simp [closes, initial, Server.Done]⟩ run

theorem sockets_closed_once_iff_plain :
    (∃ s, exec step initial [.accept 5, .recv 0 .data, .forward 0 .sent, .test 0, .start 0,
        .check 0, .receive 0 .data, .deliver 0 true, .recv 0 .ended, .finish 0] = some s ∧
      closes s.log 0 = 1) ∧
    ∀ first, first <+: [.accept 5, .recv 0 .data, .forward 0 .sent, .test 0, .start 0, .check 0,
        .receive 0 .data, .deliver 0 true, .recv 0 .ended, .finish 0] →
      ∀ t, exec step initial first = some t → ClosedOnce t := by
  refine ⟨⟨_, rfl, rfl⟩, (sockets_closed_once_iff _ _ rfl).mpr ?_⟩
  simp [StepsMeet, Careful, step, initial, Server.clientAt, Server.moveClient, Server.use,
    Server.forwarderAt, Server.moveForwarder, Server.Done, afterRecv, afterReceive]

/-- The first client goes while a thread still forwards to it; the number 5 is given to the
second client, and bytes for the first one are sent there. A forwarding that fails closes
the descriptor, and the receive thread goes on to receive from it and closes it again. -/
theorem sockets_reused :
    (∃ s, exec step initial [.accept 5, .recv 0 .data, .forward 0 .sent, .test 0, .start 0,
        .check 0, .recv 0 .ended, .finish 0, .accept 5, .receive 0 .data, .deliver 0 true] =
          some s ∧
      s.log = [⟨.recv, 0, 5⟩, ⟨.recv, 0, 5⟩, ⟨.close, 0, 5⟩, ⟨.send, 0, 5⟩] ∧
      s.clients[1]? = some ⟨5, .receiving⟩ ∧ ¬NoUseAfterClose s.log) ∧
    ∃ s, exec step initial [.accept 5, .recv 0 .data, .forward 0 .failed, .clear 0, .accept 5,
        .recv 0 .ended, .finish 0] = some s ∧
      s.log = [⟨.recv, 0, 5⟩, ⟨.close, 0, 5⟩, ⟨.recv, 0, 5⟩, ⟨.close, 0, 5⟩] ∧
      s.clients[1]? = some ⟨5, .receiving⟩ ∧ ¬NoUseAfterClose s.log :=
  ⟨⟨_, rfl, rfl, rfl, by decide⟩, _, rfl, rfl, rfl, by decide⟩

end Sockets

end WfyApp.Forwarding
