import WfyApp.StagedNetwork

/-! The client objects of the Unix socket (unix_ipc.c) together with the dispatchers and
workers that use them (proto_dispatch.c). Every operation that a client's lock protects
is one step. Sink 0 is the BLE sink, whose retain and release do nothing; sink `k + 1`
is the client with number `k`. -/

namespace WfyApp.UnixClients
open ByteText ProtoCodec ProtoDispatch RequestTask StepSystem DispatchThreads

inductive Event where
  | retain
  | write
  | drop
  | release
  | close
  | free
deriving DecidableEq

/-- Where a client's reader thread is: in its loop, past marking the descriptor dead, or
past its own release. -/
inductive Reader where
  | reading
  | closed
  | gone
deriving DecidableEq

structure Client where
  fdOpen : Bool
  refcount : Int
  reader : Reader
  events : List Event
deriving DecidableEq

def Client.accepted : Client := ⟨true, 1, .reading, []⟩

/-- The reader thread could not be created: the accept loop closes and frees. -/
def Client.refused : Client := ⟨false, 1, .gone, [.close, .free]⟩

def Client.unixSinkSend (c : Client) : Client :=
  { c with events := c.events ++ [if c.fdOpen then .write else .drop] }

def Client.unixSinkRetain (c : Client) : Client :=
  { c with refcount := c.refcount + 1, events := c.events ++ [.retain] }

def Client.unixSinkRelease (c : Client) : Client :=
  if c.refcount - 1 = 0 then
    { c with
        refcount := c.refcount - 1
        fdOpen := false
        events := c.events ++ [.release] ++ (if c.fdOpen then [.close] else []) ++ [.free] }
  else { c with refcount := c.refcount - 1, events := c.events ++ [.release] }

def Client.markDead (c : Client) : Client :=
  { c with
      fdOpen := false
      reader := .closed
      events := c.events ++ if c.fdOpen then [.close] else [] }

def Client.apply (c : Client) : Effect → Client
  | .send _ => c.unixSinkSend
  | .retain => c.unixSinkRetain
  | .release => c.unixSinkRelease
  | _ => c

structure Daemon where
  threads : Threads
  clients : List Client

def Daemon.initial : Daemon := ⟨.initial, []⟩

inductive Label where
  | accept (created : Bool)
  | receive (sink : Nat) (frame : ProtoFrame) (outcomes : Outcomes)
  | act (request : Nat) (action : Action)
  | readerCloses (client : Nat)
  | readerReleases (client : Nat)

def Daemon.reads (s : Daemon) : Nat → Bool
  | 0 => true
  | k + 1 => (s.clients[k]?).any fun c => c.reader = .reading

def applyRecord (clients : List Client) (record : Record) : List Client :=
  match record.sink with
  | 0 => clients
  | k + 1 => clients.modify k fun c => c.apply record.effect

def step (s : Daemon) : Label → Option Daemon
  | .accept created =>
      some { s with clients := s.clients ++ [if created then .accepted else .refused] }
  | .receive sink frame o =>
      if s.reads sink then
        (DispatchThreads.step s.threads (.receive sink frame o)).map fun threads =>
          { s with threads := threads }
      else none
  | .act request action =>
      (s.threads.tasks[request]?).bind fun t =>
        (t.act action).map fun acted =>
          ⟨s.threads.update request acted.1 acted.2, acted.2.foldl applyRecord s.clients⟩
  | .readerCloses k =>
      (s.clients[k]?).bind fun c =>
        if c.reader = .reading ∧ s.threads.idle (k + 1) then
          some { s with clients := s.clients.set k c.markDead }
        else none
  | .readerReleases k =>
      (s.clients[k]?).bind fun c =>
        if c.reader = .closed then
          some { s with clients := s.clients.set k { c.unixSinkRelease with reader := .gone } }
        else none

/-- The reference taken for a request's worker exists: it is taken and the thread is not
yet created, or its creation failed and it is not yet given back, or the worker has it. -/
def holds (t : Task) : Bool :=
  (match t.todo with
    | .spawn _ :: _ => true
    | .release :: _ => true
    | _ => false) ||
  match t.worker with
  | some ⟨_, _, .waiting⟩ => true
  | some ⟨_, _, .running left⟩ => left.contains .release
  | none => false

def workersHolding (s : Threads) (sink : Nat) : Nat :=
  s.tasks.countP fun t => t.sink = sink && holds t

def Client.readerHolds (c : Client) : Nat := if c.reader = .gone then 0 else 1

/-- The account of one client, given how many workers hold it. -/
structure Accounted (c : Client) (workers : Nat) : Prop where
  refcount : .free ∉ c.events → c.refcount = c.readerHolds + workers
  freed : .free ∈ c.events ↔ c.reader = .gone ∧ workers = 0
  descriptor : c.fdOpen = true ↔ c.reader = .reading
  closes : c.events.count .close = if c.fdOpen then 0 else 1
  order : c.events.Pairwise fun a b => (a = .close → b ≠ .write) ∧ a ≠ .free

theorem accounted_accepted : Accounted .accepted 0 := by
  constructor <;> simp [Client.accepted, Client.readerHolds]

theorem accounted_refused : Accounted .refused 0 := by
  constructor <;> simp [Client.refused]

section Operations
variable {c : Client} {n : Nat}

theorem Accounted.not_freed (own : Accounted c n) (used : c.reader ≠ .gone ∨ n ≠ 0) :
    .free ∉ c.events := by
  rw [own.freed]
  tauto

theorem order_concat {events : List Event} {e : Event}
    (order : events.Pairwise fun a b => (a = .close → b ≠ .write) ∧ a ≠ .free)
    (live : .free ∉ events) (late : .close ∈ events → e ≠ .write) :
    (events ++ [e]).Pairwise fun a b => (a = .close → b ≠ .write) ∧ a ≠ .free := by
  refine List.pairwise_append.mpr ⟨order, List.pairwise_singleton _ _, ?_⟩
  intro a member b last
  rw [List.mem_singleton.mp last]
  exact ⟨fun closed => late (closed ▸ member), fun freed => live (freed ▸ member)⟩

theorem Accounted.mem_close (own : Accounted c n) (closed : .close ∈ c.events) :
    c.fdOpen = false := by
  have counted := own.closes
  have pos := List.count_pos_iff.mpr closed
  cases open_ : c.fdOpen with
  | false => rfl
  | true =>
      rw [open_, if_pos rfl] at counted
      omega

theorem Accounted.send (own : Accounted c n) (used : c.reader ≠ .gone ∨ n ≠ 0) :
    Accounted c.unixSinkSend n := by
  have live := own.not_freed used
  have event : (if c.fdOpen then Event.write else .drop) ≠ .free ∧
      (if c.fdOpen then Event.write else .drop) ≠ .close := by
    cases c.fdOpen <;> simp
  refine ⟨fun _ => own.refcount live, ?_, own.descriptor, ?_, order_concat own.order live ?_⟩
  · have same : .free ∈ c.unixSinkSend.events ↔ .free ∈ c.events := by
      simp [Client.unixSinkSend, event.1.symm]
    rw [same, own.freed]
    rfl
  · rw [Client.unixSinkSend, List.count_append, List.count_singleton, own.closes]
    simp [event.2]
  · intro closed
    rw [own.mem_close closed]
    simp

theorem Accounted.retain (own : Accounted c n) (used : c.reader ≠ .gone ∨ n ≠ 0) :
    Accounted c.unixSinkRetain (n + 1) := by
  have live := own.not_freed used
  have kept : .free ∉ c.unixSinkRetain.events := by simpa [Client.unixSinkRetain] using live
  refine ⟨fun _ => ?_, ?_, own.descriptor, ?_, order_concat own.order live fun _ => by simp⟩
  · change c.refcount + 1 = (c.readerHolds : Int) + ((n + 1 : Nat) : Int)
    rw [own.refcount live]
    push_cast
    ring
  · exact iff_of_false kept (by simp)
  · rw [Client.unixSinkRetain, List.count_append, own.closes]
    simp

theorem unixSinkRelease_last (c : Client) (last : c.refcount = 1) (closed : c.fdOpen = false) :
    c.unixSinkRelease =
      { c with refcount := 0, events := c.events ++ [.release, .free] } := by
  rw [Client.unixSinkRelease, if_pos (by omega), closed, last]
  simp only [Bool.false_eq_true, if_false, List.append_nil, List.append_assoc]
  cases c
  cases closed
  rfl

theorem unixSinkRelease_more (c : Client) (more : c.refcount ≠ 1) :
    c.unixSinkRelease =
      { c with refcount := c.refcount - 1, events := c.events ++ [.release] } := by
  rw [Client.unixSinkRelease, if_neg (by omega)]

theorem Accounted.release (own : Accounted c n) (reader : Reader) (m : Nat)
    (used : c.reader ≠ .gone ∨ n ≠ 0)
    (fewer : c.readerHolds + n = (if reader = .gone then 0 else 1) + m + 1)
    (descriptor : c.fdOpen = true ↔ reader = .reading) :
    Accounted { c.unixSinkRelease with reader := reader } m := by
  have live := own.not_freed used
  have count := own.refcount live
  have released : Event.free ∉ c.events ++ [Event.release] := by simpa using live
  have order := order_concat own.order live (e := .release) fun _ => by simp
  by_cases last : c.refcount = 1
  · have final : reader = .gone ∧ m = 0 := by
      split_ifs at fewer with gone
      · exact ⟨gone, by omega⟩
      · omega
    have closed : c.fdOpen = false := by
      rw [final.1] at descriptor
      simpa using descriptor
    rw [unixSinkRelease_last c last closed]
    have split : c.events ++ [Event.release, Event.free] =
        (c.events ++ [Event.release]) ++ [Event.free] :=
      (List.append_assoc c.events [Event.release] [Event.free]).symm
    have freed : Event.free ∈ c.events ++ [Event.release, Event.free] :=
      split ▸ List.mem_concat_self
    refine ⟨fun live => absurd freed live, iff_of_true freed final, descriptor, ?_, ?_⟩
    · simp [own.closes]
    · rw [split]
      exact order_concat order released fun _ => by simp
  · rw [unixSinkRelease_more c last]
    refine ⟨fun _ => ?_, iff_of_false released ?_, descriptor, ?_, order⟩
    · simp only [Client.readerHolds] at count fewer ⊢
      omega
    · rintro ⟨gone, none⟩
      rw [if_pos gone, none] at fewer
      omega
    · simp [own.closes]

theorem unixSinkRelease_reader (c : Client) : c.unixSinkRelease.reader = c.reader := by
  rw [Client.unixSinkRelease]
  split_ifs <;> rfl

theorem Accounted.worker_release (own : Accounted c (n + 1)) : Accounted c.unixSinkRelease n := by
  have one := own.release c.reader n (.inr (Nat.succ_ne_zero n)) rfl own.descriptor
  have same : { c.unixSinkRelease with reader := c.reader } = c.unixSinkRelease := by
    rw [← unixSinkRelease_reader c]
  rwa [same] at one

theorem Accounted.reader_release (own : Accounted c n) (closed : c.reader = .closed) :
    Accounted { c.unixSinkRelease with reader := .gone } n := by
  refine own.release .gone n (.inl (by rw [closed]; decide)) ?_ ?_
  · rw [Client.readerHolds, closed]
    simp
    omega
  · rw [own.descriptor, closed]
    simp

theorem Accounted.close (own : Accounted c n) (reading : c.reader = .reading) :
    Accounted c.markDead n := by
  have live := own.not_freed (.inl (by rw [reading]; decide))
  have open_ := own.descriptor.mpr reading
  have closes := own.closes
  rw [open_, if_pos rfl] at closes
  have event : c.markDead =
      { c with fdOpen := false, reader := .closed, events := c.events ++ [.close] } := by
    rw [Client.markDead, open_, if_pos rfl]
  rw [event]
  refine ⟨fun _ => ?_, iff_of_false (by simpa using live) (by simp), by simp, ?_, ?_⟩
  · rw [own.refcount live]
    simp [Client.readerHolds, reading]
  · simp [closes]
  · exact order_concat own.order live fun _ => by simp

end Operations

def Late : Effect → Prop
  | .send _ | .readJob | .freeJob => True
  | _ => False

/-- What follows a retain: the reference is handed to a worker, or given back. -/
def Handover : Effect → Prop
  | .spawn _ | .release => True
  | _ => False

def WorkersOwn : Effect → Prop
  | .send _ | .join _ _ | .persist _ _ => True
  | _ => False

/-- How far the two threads of a request are with its one reference, and whether it
exists. -/
inductive Refs : List Effect → Option Worker → Bool → Prop where
  | plain (todo : List Effect) (late : ∀ e ∈ todo, Late e) : Refs todo none false
  | retains (next : Effect) (rest : List Effect) (handover : Handover next)
      (late : ∀ e ∈ rest, Late e) : Refs (.retain :: next :: rest) none false
  | retained (next : Effect) (rest : List Effect) (handover : Handover next)
      (late : ∀ e ∈ rest, Late e) : Refs (next :: rest) none true
  | waiting (todo : List Effect) (late : ∀ e ∈ todo, Late e) (sink : Nat) (job : Job) :
      Refs todo (some ⟨sink, job, .waiting⟩) true
  | working (todo : List Effect) (late : ∀ e ∈ todo, Late e) (sink : Nat) (job : Job)
      (before : List Effect) (own : ∀ e ∈ before, WorkersOwn e) :
      Refs todo (some ⟨sink, job, .running (before ++ [.release, .freeJob])⟩) true
  | released (todo : List Effect) (late : ∀ e ∈ todo, Late e) (sink : Nat) (job : Job)
      (left : List Effect) (own : ∀ e ∈ left, e = .freeJob) :
      Refs todo (some ⟨sink, job, .running left⟩) false

theorem holds_late {t : Task} (late : ∀ e ∈ t.todo, Late e) :
    (match t.todo with
      | .spawn _ :: _ => true
      | .release :: _ => true
      | _ => false) = false := by
  split
  · rename_i job rest todo
    have first : Late (.spawn job) := late _ (todo ▸ List.mem_cons_self ..)
    exact first.elim
  · rename_i rest todo
    have first : Late .release := late _ (todo ▸ List.mem_cons_self ..)
    exact first.elim
  · rfl

theorem Refs.holds_eq {t : Task} {held : Bool} (refs : Refs t.todo t.worker held) :
    holds t = held := by
  generalize todo_eq : t.todo = todo at refs
  generalize worker_eq : t.worker = worker at refs
  cases refs with
  | plain todo late =>
      rw [holds, holds_late (by rwa [todo_eq]), worker_eq]
      rfl
  | retains next rest handover late =>
      rw [holds, todo_eq, worker_eq]
      rfl
  | retained next rest handover late =>
      rw [holds, todo_eq, worker_eq]
      cases next with
      | spawn | release => rfl
      | send | retain | readJob | freeJob | join | persist => exact handover.elim
  | waiting todo late sink job =>
      rw [holds, holds_late (by rwa [todo_eq]), worker_eq]
      rfl
  | working todo late sink job before own =>
      rw [holds, holds_late (by rwa [todo_eq]), worker_eq]
      simp
  | released todo late sink job left own =>
      rw [holds, holds_late (by rwa [todo_eq]), worker_eq]
      simp only [Bool.false_or]
      by_contra still
      have member : Effect.release ∈ left := by simpa using still
      cases own _ member

theorem late_sendProtoFrame (type seq commandSet commandId : UInt8) (payload : Bytes) :
    ∀ e ∈ sendProtoFrame type seq commandSet commandId payload, Late e := by
  intro e member
  rw [sendProtoFrame] at member
  split at member
  · cases member
  · rw [List.mem_singleton.mp member]
    trivial

theorem late_sendProtoResponse (f : ProtoFrame) (errcode : ErrCode) :
    ∀ e ∈ sendProtoResponse f.seq f.commandSet f.commandId errcode, Late e :=
  late_sendProtoFrame _ _ _ _ _

theorem late_sendProtoResponseData (f : ProtoFrame) (errcode : ErrCode) (data : Bytes) :
    ∀ e ∈ sendProtoResponseData f.seq f.commandSet f.commandId errcode data, Late e := by
  rw [sendProtoResponseData]
  split_ifs
  · simp
  · exact late_sendProtoFrame _ _ _ _ _

theorem refs_response (f : ProtoFrame) (errcode : ErrCode) :
    Refs (sendProtoResponse f.seq f.commandSet f.commandId errcode) none false :=
  .plain _ (late_sendProtoResponse f errcode)

theorem refs_failed (f : ProtoFrame) (errcode : ErrCode) :
    Refs ([.retain, .release, .freeJob] ++
      sendProtoResponse f.seq f.commandSet f.commandId errcode) none false := by
  refine .retains .release _ trivial ?_
  intro e member
  rcases List.mem_cons.mp member with rfl | later
  · trivial
  · exact late_sendProtoResponse f errcode e later

theorem refs_triggerWifiConnect (o : Outcomes) (f : ProtoFrame) (p : Pending) :
    Refs ((triggerWifiConnect o f.seq p).1 ++ sendProtoResponse f.seq f.commandSet f.commandId
      (triggerWifiConnect o f.seq p).2) none false := by
  rw [triggerWifiConnect]
  split_ifs
  · exact refs_response f _
  · exact refs_response f _
  · exact refs_failed f _
  · refine .retains (.spawn _) _ trivial ?_
    intro e member
    rcases List.mem_cons.mp member with rfl | later
    · trivial
    · exact late_sendProtoResponse f _ e later

theorem refs_triggerWifiScan (o : Outcomes) (f : ProtoFrame) :
    Refs ((triggerWifiScan o f.seq).1 ++ sendProtoResponse f.seq f.commandSet f.commandId
      (triggerWifiScan o f.seq).2) none false := by
  rw [triggerWifiScan]
  split_ifs
  · exact refs_response f _
  · exact refs_failed f _
  · exact .retains (.spawn _) _ trivial (late_sendProtoResponse f _)

/-- Handling a frame takes at most one reference and disposes of it at once. -/
theorem handleProtoFrame_refs (o : Outcomes) (f : ProtoFrame) (p : Pending) :
    Refs (handleProtoFrame o f p).2 none false := by
  by_cases req : f.type = protoTypeReq
  · rw [handleProtoFrame, if_neg (not_not.mpr req)]
    by_cases network : f.commandSet = protoCmdsetNetwork
    · rw [if_neg (not_not.mpr network)]
      split
      · exact .plain _ (late_sendProtoFrame _ _ _ _ [_])
      · exact refs_response f _
      · split_ifs <;> exact refs_response f _
      · split_ifs <;> exact refs_response f _
      · exact refs_triggerWifiConnect o f p
      · split
        · split_ifs
          · exact .plain _ (late_sendProtoResponseData f _ _)
          · exact refs_response f _
        · exact refs_response f _
      · exact refs_triggerWifiScan o f
      · split
        · exact .plain _ (late_sendProtoResponseData f _ _)
        · exact refs_response f _
      · exact refs_response f _
      · exact refs_response f _
      · exact refs_response f _
      · exact refs_response f _
    · rw [if_pos network]
      exact refs_response f _
  · rw [handleProtoFrame_not_req o f p req]
    exact .plain [] (by simp)

theorem workersOwn_push (seq : UInt8) (command : UInt8) (payload : Bytes) :
    ∀ e ∈ sendProtoPush seq protoCmdsetNetwork command payload, WorkersOwn e := by
  intro e member
  rw [sendProtoPush, sendProtoFrame] at member
  split at member
  · cases member
  · rw [List.mem_singleton.mp member]
    trivial

/-- A worker gives its reference back once, just before its last step. -/
theorem workerEffects_release (call : CallResult) (job : Job) :
    ∃ before, workerEffects call job = before ++ [.release, .freeJob] ∧
      ∀ e ∈ before, WorkersOwn e := by
  cases job with
  | connect seq ssid passwd =>
      refine ⟨_, rfl, ?_⟩
      intro e member
      rcases List.mem_append.mp member with early | push
      · rcases List.mem_append.mp early with joins | persists
        · obtain ⟨credentials, _, rfl⟩ := List.mem_map.mp joins
          trivial
        · split_ifs at persists
          · rw [List.mem_singleton.mp persists]
            trivial
          · cases persists
      · exact workersOwn_push _ _ _ e push
  | scan seq =>
      refine ⟨_, rfl, ?_⟩
      intro e member
      obtain ⟨payload, _, push⟩ := List.mem_flatMap.mp member
      exact workersOwn_push _ _ _ e push

/-- What one action of a request does to its reference and to its sink. The sink is used
only while the dispatcher is at work or the reference exists. -/
inductive RefStep (t t' : Task) : List Record → Prop where
  | silent (same : holds t' = holds t) : RefStep t t' []
  | retain (busy : t.todo ≠ []) (before : holds t = false) (after : holds t' = true) :
      RefStep t t' [⟨t.sink, .dispatcher, .retain⟩]
  | release (origin : Origin) (before : holds t = true) (after : holds t' = false) :
      RefStep t t' [⟨t.sink, origin, .release⟩]
  | send (origin : Origin) (wire : Bytes) (used : t.todo ≠ [] ∨ holds t = true)
      (same : holds t' = holds t) : RefStep t t' [⟨t.sink, origin, .send wire⟩]
  | other (origin : Origin) (e : Effect) (unused : ∀ c : Client, c.apply e = c)
      (same : holds t' = holds t) : RefStep t t' [⟨t.sink, origin, e⟩]

theorem refStep_late {t : Task} {e : Effect} {rest : List Effect} {held : Bool}
    (todo : t.todo = e :: rest) (late : Late e) (before : holds t = held)
    (after : Refs rest t.worker held) :
    (∃ held', Refs rest (startWorker t e) held') ∧
      RefStep t { t with todo := rest, worker := startWorker t e } [⟨t.sink, .dispatcher, e⟩] := by
  have worker : startWorker t e = t.worker := by
    cases e with
    | spawn => exact late.elim
    | send | retain | release | readJob | freeJob | join | persist => rfl
  rw [worker]
  have same : holds { t with todo := rest } = holds t := by
    rw [before]
    exact Refs.holds_eq (t := { t with todo := rest }) after
  refine ⟨⟨held, after⟩, ?_⟩
  cases e with
  | send wire => exact .send _ wire (.inl (by rw [todo]; exact List.cons_ne_nil _ _)) same
  | readJob => exact .other _ _ (fun c => rfl) same
  | freeJob => exact .other _ _ (fun c => rfl) same
  | retain | release | spawn | join | persist => exact late.elim

/-- The dispatcher's next effect leaves the reference alone, takes it, or hands it on. -/
theorem Refs.next {e : Effect} {rest : List Effect} {worker : Option Worker} {held : Bool}
    (refs : Refs (e :: rest) worker held) :
    (Late e ∧ Refs rest worker held) ∨
      (e = .retain ∧ worker = none ∧ held = false ∧ Refs rest none true) ∨
      (Handover e ∧ worker = none ∧ held = true ∧ ∀ e' ∈ rest, Late e') := by
  cases refs with
  | plain todo late =>
      obtain ⟨first, others⟩ := List.forall_mem_cons.mp late
      exact .inl ⟨first, .plain rest others⟩
  | retains next rest' handover late =>
      exact .inr (.inl ⟨rfl, rfl, rfl, .retained next rest' handover late⟩)
  | retained next rest' handover late => exact .inr (.inr ⟨handover, rfl, rfl, late⟩)
  | waiting todo late sink job =>
      obtain ⟨first, others⟩ := List.forall_mem_cons.mp late
      exact .inl ⟨first, .waiting rest others sink job⟩
  | working todo late sink job before own =>
      obtain ⟨first, others⟩ := List.forall_mem_cons.mp late
      exact .inl ⟨first, .working rest others sink job before own⟩
  | released todo late sink job left own =>
      obtain ⟨first, others⟩ := List.forall_mem_cons.mp late
      exact .inl ⟨first, .released rest others sink job left own⟩

theorem refs_dispatch {t : Task} {e : Effect} {rest : List Effect} {held : Bool}
    (refs : Refs t.todo t.worker held) (todo : t.todo = e :: rest) :
    (∃ held', Refs rest (startWorker t e) held') ∧
      RefStep t { t with todo := rest, worker := startWorker t e } [⟨t.sink, .dispatcher, e⟩] := by
  have before := refs.holds_eq
  have busy : t.todo ≠ [] := by rw [todo]; exact List.cons_ne_nil _ _
  have holding {held' : Bool} (now : Refs rest (startWorker t e) held') :
      holds { t with todo := rest, worker := startWorker t e } = held' :=
    Refs.holds_eq (t := { t with todo := rest, worker := startWorker t e }) now
  rw [todo] at refs
  rcases refs.next with ⟨late, after⟩ | ⟨rfl, unstarted, rfl, after⟩ |
    ⟨handover, unstarted, rfl, late⟩
  · exact refStep_late todo late before after
  · have now : Refs rest (startWorker t .retain) true := by
      rw [show startWorker t .retain = none from unstarted]
      exact after
    exact ⟨⟨true, now⟩, .retain busy before (holding now)⟩
  · cases e with
    | spawn job =>
        have now : Refs rest (startWorker t (.spawn job)) true := .waiting rest late t.sink job
        exact ⟨⟨true, now⟩, .other _ _ (fun c => rfl) ((holding now).trans before.symm)⟩
    | release =>
        have now : Refs rest (startWorker t .release) false := by
          rw [show startWorker t .release = none from unstarted]
          exact .plain rest late
        exact ⟨⟨false, now⟩, .release _ before (holding now)⟩
    | send | retain | readJob | freeJob | join | persist => exact handover.elim

theorem Refs.callReturns {todo : List Effect} {sink : Nat} {job : Job} {held : Bool}
    (call : CallResult) (refs : Refs todo (some ⟨sink, job, .waiting⟩) held) :
    Refs todo (some ⟨sink, job, .running (workerEffects call job)⟩) held := by
  cases refs with
  | waiting todo late sink job =>
      obtain ⟨before, effects, own⟩ := workerEffects_release call job
      rw [effects]
      exact .working todo late sink job before own

theorem Refs.work {todo rest : List Effect} {sink : Nat} {job : Job} {e : Effect} {held : Bool}
    (refs : Refs todo (some ⟨sink, job, .running (e :: rest)⟩) held) :
    (WorkersOwn e ∧ held = true ∧ Refs todo (some ⟨sink, job, .running rest⟩) true) ∨
    (e = .release ∧ held = true ∧ Refs todo (some ⟨sink, job, .running rest⟩) false) ∨
    (e = .freeJob ∧ held = false ∧ Refs todo (some ⟨sink, job, .running rest⟩) false) := by
  generalize left_eq : e :: rest = left at refs
  cases refs with
  | working todo late sink job before own =>
      cases before with
      | nil =>
          cases left_eq
          exact .inr (.inl ⟨rfl, rfl, .released todo late sink job _ (by simp)⟩)
      | cons first before =>
          cases left_eq
          refine .inl ⟨own e (List.mem_cons_self ..), rfl, ?_⟩
          exact .working todo late sink job before fun e' member =>
            own e' (List.mem_cons_of_mem _ member)
  | released todo late sink job left own =>
      subst left_eq
      refine .inr (.inr ⟨own e (List.mem_cons_self ..), rfl, ?_⟩)
      exact .released todo late sink job rest fun e' member => own e' (List.mem_cons_of_mem _ member)

theorem refs_work {t : Task} {job : Job} {e : Effect} {rest : List Effect} {held : Bool}
    (refs : Refs t.todo t.worker held)
    (worker : t.worker = some ⟨t.sink, job, .running (e :: rest)⟩) :
    (∃ held', Refs t.todo (some ⟨t.sink, job, .running rest⟩) held') ∧
      RefStep t { t with worker := some ⟨t.sink, job, .running rest⟩ } [⟨t.sink, .worker, e⟩] := by
  have before := refs.holds_eq
  rw [worker] at refs
  have after : ∀ held', Refs t.todo (some ⟨t.sink, job, .running rest⟩) held' →
      holds { t with worker := some ⟨t.sink, job, .running rest⟩ } = held' := fun held' now =>
    Refs.holds_eq (t := { t with worker := some ⟨t.sink, job, .running rest⟩ }) now
  rcases refs.work with ⟨own, rfl, now⟩ | ⟨rfl, rfl, now⟩ | ⟨rfl, rfl, now⟩
  · have same := (after true now).trans before.symm
    refine ⟨⟨true, now⟩, ?_⟩
    cases e with
    | send wire => exact .send _ wire (.inr before) same
    | join => exact .other _ _ (fun c => rfl) same
    | persist => exact .other _ _ (fun c => rfl) same
    | retain | release | spawn | readJob | freeJob => exact own.elim
  · exact ⟨⟨false, now⟩, .release _ before (after false now)⟩
  · exact ⟨⟨false, now⟩, .other _ _ (fun c => rfl) ((after false now).trans before.symm)⟩

/-- Every action of either thread keeps the shape and treats the sink as it should. -/
theorem refs_act {t t' : Task} {a : Action} {records log : List Record} {held : Bool}
    (inv : TaskInv t log) (refs : Refs t.todo t.worker held)
    (acted : t.act a = some (t', records)) :
    (∃ held', Refs t'.todo t'.worker held') ∧ RefStep t t' records ∧ t'.sink = t.sink := by
  rcases t.act_cases t' a records acted with ⟨e, rest, _, todo, rfl, rfl⟩ |
    ⟨call, sink, job, _, worker, rfl, rfl⟩ | ⟨sink, job, e, rest, _, worker, rfl, rfl⟩
  · obtain ⟨shape, did⟩ := refs_dispatch refs todo
    exact ⟨shape, did, rfl⟩
  · have before := refs.holds_eq
    rw [worker] at refs
    have after := refs.callReturns call
    refine ⟨⟨held, after⟩, .silent ?_, rfl⟩
    rw [before]
    exact Refs.holds_eq (t := { t with
      worker := some ⟨sink, job, .running (workerEffects call job)⟩ }) after
  · have own := inv.worker
    rw [worker] at own
    obtain rfl := own.work.1
    obtain ⟨shape, did⟩ := refs_work refs worker
    exact ⟨shape, did, rfl⟩

theorem idle_iff (s : Threads) (sink : Nat) :
    s.idle sink = true ↔ ∀ t ∈ s.tasks, t.sink = sink → t.todo = [] := by
  simp only [Threads.idle, List.all_eq_true, Bool.or_eq_true, decide_eq_true_eq, ne_eq]
  exact forall₂_congr fun t _ => (imp_iff_not_or).symm

section Holding
variable {s : Threads} {r : Nat} {t t' : Task} {records : List Record}

theorem workersHolding_update (t' : Task) (records : List Record) (sink : Nat)
    (found : s.tasks[r]? = some t) :
    workersHolding (s.update r t' records) sink + (if t.sink = sink && holds t then 1 else 0) =
      workersHolding s sink + if t'.sink = sink && holds t' then 1 else 0 := by
  obtain ⟨bound, here⟩ := List.getElem?_eq_some_iff.mp found
  have counted := List.countP_set (p := fun t => t.sink = sink && holds t) (a := t') bound
  rw [here] at counted
  have atLeast : (if t.sink = sink && holds t then 1 else 0) ≤ workersHolding s sink := by
    split_ifs with own
    · exact List.countP_pos_iff.mpr ⟨t, List.mem_of_getElem? found, own⟩
    · exact Nat.zero_le _
  simp only [workersHolding, Threads.update] at atLeast ⊢
  omega

theorem workersHolding_same (sink : Nat) (found : s.tasks[r]? = some t) (own : t'.sink = t.sink)
    (same : holds t' = holds t) :
    workersHolding (s.update r t' records) sink = workersHolding s sink := by
  have counted := workersHolding_update t' records sink found
  rw [own, same] at counted
  exact Nat.add_right_cancel counted

theorem workersHolding_other (sink : Nat) (found : s.tasks[r]? = some t) (own : t'.sink = t.sink)
    (other : t.sink ≠ sink) :
    workersHolding (s.update r t' records) sink = workersHolding s sink := by
  have counted := workersHolding_update t' records sink found
  simpa [own, other] using counted

theorem workersHolding_retain (found : s.tasks[r]? = some t) (own : t'.sink = t.sink)
    (before : holds t = false) (after : holds t' = true) :
    workersHolding (s.update r t' records) t.sink = workersHolding s t.sink + 1 := by
  have counted := workersHolding_update t' records t.sink found
  simpa [own, before, after] using counted

theorem workersHolding_release (found : s.tasks[r]? = some t) (own : t'.sink = t.sink)
    (before : holds t = true) (after : holds t' = false) :
    workersHolding s t.sink = workersHolding (s.update r t' records) t.sink + 1 := by
  have counted := workersHolding_update t' records t.sink found
  simpa [own, before, after] using counted.symm

theorem workersHolding_pos (found : s.tasks[r]? = some t) (held : holds t = true) :
    workersHolding s t.sink ≠ 0 := by
  have pos : 0 < workersHolding s t.sink :=
    List.countP_pos_iff.mpr ⟨t, List.mem_of_getElem? found, by simp [held]⟩
  omega

end Holding

structure Inv (s : Daemon) : Prop where
  threads : DispatchThreads.Inv s.threads
  refs : ∀ t ∈ s.threads.tasks, ∃ held, Refs t.todo t.worker held
  known : ∀ t ∈ s.threads.tasks, ∀ k, t.sink = k + 1 → k < s.clients.length
  quiet : ∀ k c, s.clients[k]? = some c → c.reader ≠ .reading →
    ∀ t ∈ s.threads.tasks, t.sink = k + 1 → t.todo = []
  clients : ∀ k c, s.clients[k]? = some c → Accounted c (workersHolding s.threads (k + 1))

theorem inv_initial : Inv .initial := by
  refine ⟨DispatchThreads.inv_initial, ?_, ?_, ?_, ?_⟩
  · intro t member
    cases member
  · intro t member
    cases member
  · intro k c found
    simp [Daemon.initial] at found
  · intro k c found
    simp [Daemon.initial] at found

theorem getElem?_concat_cases {clients : List Client} {new c : Client} {k : Nat}
    (found : (clients ++ [new])[k]? = some c) :
    clients[k]? = some c ∨ k = clients.length ∧ c = new := by
  rw [List.getElem?_append] at found
  split_ifs at found with old
  · exact .inl found
  · have bound := (List.getElem?_eq_some_iff.mp found).1
    rw [List.length_singleton] at bound
    exact .inr ⟨by omega, List.mem_singleton.mp (List.mem_of_getElem? found)⟩

theorem inv_accept {s : Daemon} (new : Client) (inv : Inv s) (account : Accounted new 0) :
    Inv { s with clients := s.clients ++ [new] } := by
  have unused : ∀ t ∈ s.threads.tasks, t.sink ≠ s.clients.length + 1 := fun t member same =>
    absurd (inv.known t member s.clients.length same) (Nat.lt_irrefl _)
  have none : workersHolding s.threads (s.clients.length + 1) = 0 := by
    refine List.countP_eq_zero.mpr fun t member => ?_
    simp [unused t member]
  refine ⟨inv.threads, inv.refs, ?_, ?_, ?_⟩
  · intro t member k same
    rw [List.length_append]
    exact Nat.lt_add_right _ (inv.known t member k same)
  · intro k c found finished
    rcases getElem?_concat_cases found with old | ⟨rfl, rfl⟩
    · exact inv.quiet k c old finished
    · exact fun t member same => absurd same (unused t member)
  · intro k c found
    rcases getElem?_concat_cases found with old | ⟨rfl, rfl⟩
    · exact inv.clients k c old
    · rw [none]
      exact account

theorem reads_succ {s : Daemon} {k : Nat} (reads : s.reads (k + 1) = true) :
    ∃ c, s.clients[k]? = some c ∧ c.reader = .reading := by
  rw [Daemon.reads] at reads
  cases found : s.clients[k]? with
  | none => simp [found] at reads
  | some c =>
      rw [found] at reads
      exact ⟨c, rfl, by simpa using reads⟩

theorem inv_receive {s : Daemon} {threads : Threads} {sink : Nat} {frame : ProtoFrame}
    {o : Outcomes} (inv : Inv s) (reads : s.reads sink = true)
    (received : DispatchThreads.step s.threads (.receive sink frame o) = some threads) :
    Inv { s with threads := threads } := by
  have next := inv.threads.step received
  rw [DispatchThreads.step] at received
  split_ifs at received with idle
  cases received
  have fresh : Refs (newTask s.threads sink frame o).todo none false := handleProtoFrame_refs _ _ _
  have holding : ∀ k, workersHolding (s.threads.receive sink frame o) k =
      workersHolding s.threads k := by
    intro k
    have none : holds (newTask s.threads sink frame o) = false := fresh.holds_eq
    simp [workersHolding, Threads.receive, none]
  refine ⟨next, ?_, ?_, ?_, ?_⟩
  · intro t member
    rcases List.mem_append.mp member with old | new
    · exact inv.refs t old
    · rw [List.mem_singleton.mp new]
      exact ⟨false, fresh⟩
  · intro t member k same
    rcases List.mem_append.mp member with old | new
    · exact inv.known t old k same
    · rw [List.mem_singleton.mp new] at same
      obtain rfl : sink = k + 1 := same
      obtain ⟨c, found, _⟩ := reads_succ reads
      exact (List.getElem?_eq_some_iff.mp found).1
  · intro k c found finished t member same
    rcases List.mem_append.mp member with old | new
    · exact inv.quiet k c found finished t old same
    · rw [List.mem_singleton.mp new] at same
      obtain rfl : sink = k + 1 := same
      obtain ⟨c', found', reading⟩ := reads_succ reads
      obtain rfl : c = c' := Option.some.inj (found.symm.trans found')
      exact absurd reading finished
  · intro k c found
    change Accounted c (workersHolding (s.threads.receive sink frame o) (k + 1))
    rw [holding]
    exact inv.clients k c found

theorem inv_set {s : Daemon} {k : Nat} {c c' : Client} (inv : Inv s)
    (found : s.clients[k]? = some c)
    (account : Accounted c' (workersHolding s.threads (k + 1)))
    (quiet : ∀ t ∈ s.threads.tasks, t.sink = k + 1 → t.todo = []) :
    Inv { s with clients := s.clients.set k c' } := by
  have bound := (List.getElem?_eq_some_iff.mp found).1
  refine ⟨inv.threads, inv.refs, ?_, ?_, ?_⟩
  · intro t member j same
    rw [List.length_set]
    exact inv.known t member j same
  · intro j d present finished
    by_cases own : k = j
    · subst own
      exact quiet
    · rw [List.getElem?_set_ne own] at present
      exact inv.quiet j d present finished
  · intro j d present
    by_cases own : k = j
    · subst own
      rw [List.getElem?_set_self bound] at present
      cases present
      exact account
    · rw [List.getElem?_set_ne own] at present
      exact inv.clients j d present

/-- The state of a sink's client while a task acts on it. -/
theorem Inv.client_used {s : Daemon} {k r : Nat} {c : Client} {t : Task} (inv : Inv s)
    (found : s.clients[k]? = some c) (task : s.threads.tasks[r]? = some t) (sink : t.sink = k + 1)
    (used : t.todo ≠ [] ∨ holds t = true) :
    c.reader ≠ .gone ∨ workersHolding s.threads (k + 1) ≠ 0 := by
  rcases used with busy | held
  · refine .inl fun gone => busy ?_
    exact inv.quiet k c found (by rw [gone]; decide) t (List.mem_of_getElem? task) sink
  · refine .inr ?_
    rw [← sink]
    exact workersHolding_pos task held

theorem getElem?_applyRecord (clients : List Client) (record : Record) (k : Nat) :
    (applyRecord clients record)[k]? =
      (clients[k]?).map fun c => if record.sink = k + 1 then c.apply record.effect else c := by
  rw [applyRecord]
  cases sink : record.sink with
  | zero => simp
  | succ j =>
      simp only [List.getElem?_modify, Nat.add_right_cancel_iff]
      split_ifs <;> simp

/-- An action changes the account of the client it goes to, and of no other. -/
theorem accounted_record {s : Daemon} {r k : Nat} {t t' : Task} {record : Record} {c : Client}
    (inv : Inv s) (task : s.threads.tasks[r]? = some t) (own : t'.sink = t.sink)
    (sink : record.sink = t.sink)
    (mine : ∀ c, t.sink = k + 1 → s.clients[k]? = some c →
      Accounted (c.apply record.effect) (workersHolding (s.threads.update r t' [record]) (k + 1)))
    (present : (applyRecord s.clients record)[k]? = some c) :
    Accounted c (workersHolding (s.threads.update r t' [record]) (k + 1)) := by
  rw [getElem?_applyRecord, sink] at present
  obtain ⟨before, found, rfl⟩ := Option.map_eq_some_iff.mp present
  by_cases same : t.sink = k + 1
  · rw [if_pos same]
    exact mine before same found
  · rw [if_neg same, workersHolding_other (k + 1) task own same]
    exact inv.clients k before found

theorem accounted_act {s : Daemon} {r k : Nat} {t t' : Task} {records : List Record} {c : Client}
    (inv : Inv s) (task : s.threads.tasks[r]? = some t) (own : t'.sink = t.sink)
    (did : RefStep t t' records) (present : (records.foldl applyRecord s.clients)[k]? = some c) :
    Accounted c (workersHolding (s.threads.update r t' records) (k + 1)) := by
  cases did with
  | silent same =>
      rw [workersHolding_same (k + 1) task own same]
      exact inv.clients k c present
  | retain busy before after =>
      refine accounted_record inv task own rfl (fun c sink found => ?_) present
      have used := inv.client_used found task sink (.inl busy)
      rw [← sink, workersHolding_retain task own before after, sink]
      exact (inv.clients k c found).retain used
  | release origin before after =>
      refine accounted_record inv task own rfl (fun c sink found => ?_) present
      have account := inv.clients k c found
      rw [← sink, workersHolding_release task own before after, sink] at account
      exact account.worker_release
  | send origin wire used same =>
      refine accounted_record inv task own rfl (fun c sink found => ?_) present
      rw [workersHolding_same (k + 1) task own same]
      exact (inv.clients k c found).send (inv.client_used found task sink used)
  | other origin e unused same =>
      refine accounted_record inv task own rfl (fun c sink found => ?_) present
      rw [workersHolding_same (k + 1) task own same, unused]
      exact inv.clients k c found

theorem apply_reader (c : Client) (e : Effect) : (c.apply e).reader = c.reader := by
  cases e with
  | release => exact unixSinkRelease_reader c
  | send | retain | spawn | readJob | freeJob | join | persist => rfl

theorem foldl_applyRecord_reader (records : List Record) (clients : List Client) (k : Nat) :
    ((records.foldl applyRecord clients)[k]?).map Client.reader =
      (clients[k]?).map Client.reader := by
  induction records generalizing clients with
  | nil => rfl
  | cons record records ih =>
      rw [List.foldl_cons, ih, getElem?_applyRecord, Option.map_map]
      congr 1
      funext c
      simp only [Function.comp_apply]
      split_ifs
      · exact apply_reader c record.effect
      · rfl

theorem foldl_applyRecord_length (records : List Record) (clients : List Client) :
    (records.foldl applyRecord clients).length = clients.length := by
  induction records generalizing clients with
  | nil => rfl
  | cons record records ih =>
      rw [List.foldl_cons, ih, applyRecord]
      split
      · rfl
      · exact List.length_modify ..

theorem act_todo_nil {t t' : Task} {a : Action} {records : List Record}
    (acted : t.act a = some (t', records)) (finished : t.todo = []) : t'.todo = [] := by
  rcases t.act_cases t' a records acted with ⟨e, rest, _, todo, rfl, rfl⟩ |
    ⟨call, sink, job, _, worker, rfl, rfl⟩ | ⟨sink, job, e, rest, _, worker, rfl, rfl⟩
  · rw [finished] at todo
    cases todo
  · exact finished
  · exact finished

theorem inv_act {s : Daemon} {r : Nat} {t t' : Task} {a : Action} {records : List Record}
    (inv : Inv s) (task : s.threads.tasks[r]? = some t) (acted : t.act a = some (t', records)) :
    Inv ⟨s.threads.update r t' records, records.foldl applyRecord s.clients⟩ := by
  have stepped : DispatchThreads.step s.threads (.act r a) =
      some (s.threads.update r t' records) := by
    rw [DispatchThreads.step, task, Option.bind_some, acted, Option.map_some]
  have old := List.mem_of_getElem? task
  obtain ⟨held, shape⟩ := inv.refs t old
  obtain ⟨shape', did, own⟩ := refs_act (inv.threads.tasks r t task) shape acted
  refine ⟨inv.threads.step stepped, ?_, ?_, ?_, ?_⟩
  · intro u member
    rcases List.mem_or_eq_of_mem_set member with same | rfl
    · exact inv.refs u same
    · exact shape'
  · intro u member k sink
    rw [foldl_applyRecord_length]
    rcases List.mem_or_eq_of_mem_set member with same | rfl
    · exact inv.known u same k sink
    · exact inv.known t old k (own ▸ sink)
  · intro k c found finished u member sink
    have readers := foldl_applyRecord_reader records s.clients k
    rw [found, Option.map_some] at readers
    obtain ⟨before, present, reader⟩ := Option.map_eq_some_iff.mp readers.symm
    have quiet := inv.quiet k before present (by rw [reader]; exact finished)
    rcases List.mem_or_eq_of_mem_set member with same | rfl
    · exact quiet u same sink
    · exact act_todo_nil acted (quiet t old (own ▸ sink))
  · intro k c present
    exact accounted_act inv task own did present

theorem inv_step (s : Daemon) (l : Label) (s' : Daemon) (inv : Inv s)
    (stepped : step s l = some s') : Inv s' := by
  cases l with
  | accept created =>
      cases stepped
      cases created with
      | true => exact inv_accept .accepted inv accounted_accepted
      | false => exact inv_accept .refused inv accounted_refused
  | receive sink frame o =>
      rw [step] at stepped
      split_ifs at stepped with reads
      obtain ⟨threads, received, rfl⟩ := Option.map_eq_some_iff.mp stepped
      exact inv_receive inv reads received
  | act r a =>
      obtain ⟨t, task, rest⟩ := Option.bind_eq_some_iff.mp stepped
      obtain ⟨⟨t', records⟩, acted, rfl⟩ := Option.map_eq_some_iff.mp rest
      exact inv_act inv task acted
  | readerCloses k =>
      obtain ⟨c, found, rest⟩ := Option.bind_eq_some_iff.mp stepped
      split_ifs at rest with ready
      cases rest
      refine inv_set inv found ((inv.clients k c found).close ready.1) ?_
      exact (idle_iff s.threads (k + 1)).mp ready.2
  | readerReleases k =>
      obtain ⟨c, found, rest⟩ := Option.bind_eq_some_iff.mp stepped
      split_ifs at rest with closed
      cases rest
      refine inv_set inv found ((inv.clients k c found).reader_release closed) ?_
      exact inv.quiet k c found (by rw [closed]; decide)

theorem order_count_free {events : List Event}
    (order : events.Pairwise fun a b => (a = .close → b ≠ .write) ∧ a ≠ .free) :
    events.count .free ≤ 1 := by
  induction order with
  | nil => exact Nat.zero_le 1
  | @cons e events later _ ih =>
      cases events with
      | nil => exact List.count_le_length
      | cons next events =>
          have live : e ≠ .free := (later next (List.mem_cons_self ..)).2
          rw [List.count_cons_of_ne live]
          exact ih

/-- In every run and for every client that was accepted: the count of references is one
for its reader, until that has released it, and one for each worker that holds the sink;
the object is freed exactly when none of them is left, and at most once; the descriptor
is closed once, when the reader ends; nothing is written after that, and no operation
follows the free. -/
theorem clients_accounted (labels : List Label) (s : Daemon)
    (reached : exec step .initial labels = some s) (k : Nat) (c : Client)
    (found : s.clients[k]? = some c) :
    Accounted c (workersHolding s.threads (k + 1)) ∧ c.events.count .free ≤ 1 := by
  have inv := exec_induction step .initial Inv inv_initial inv_step labels s reached
  have account := inv.clients k c found
  exact ⟨account, order_count_free account.order⟩

/-- A client asks for a scan and goes away; its worker finishes afterwards. -/
def lateWorker : List Label :=
  [.accept true, .receive 1 (bareRequest 3 .scanWifi) callsSucceed, .act 0 .dispatch,
    .act 0 .dispatch, .act 0 .dispatch, .readerCloses 0, .readerReleases 0,
    .act 0 (.callReturns .busy), .act 0 .work, .act 0 .work]

theorem clients_accounted_lateWorker :
    ∃ s c, exec step .initial lateWorker = some s ∧ s.clients[0]? = some c ∧
      c.events = [.retain, .write, .close, .release, .drop, .release, .free] ∧
      Accounted c (workersHolding s.threads 1) ∧ c.events.count .free ≤ 1 := by
  have ends : ∃ s c, exec step .initial lateWorker = some s ∧ s.clients[0]? = some c ∧
      c.events = [.retain, .write, .close, .release, .drop, .release, .free] :=
    ⟨_, _, rfl, rfl, by decide⟩
  obtain ⟨s, c, reached, found, events⟩ := ends
  exact ⟨s, c, reached, found, events, clients_accounted lateWorker s reached 0 c found⟩

end WfyApp.UnixClients
