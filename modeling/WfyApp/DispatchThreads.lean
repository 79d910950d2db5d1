import WfyApp.RequestTask
import WfyApp.StepSystem

/-! The dispatcher threads of all clients and the workers they start, interleaved in
any order (proto_dispatch.c). Each sink has one dispatcher thread, which takes up its
next frame when it is done with the last one. What a frame does to the pending store
happens under `s_pending_lock` and is one step; everything after that is one step for
each call. A request is named by its position among the frames received. -/

namespace WfyApp.DispatchThreads
open ByteText ProtoCodec ProtoDispatch WifiSwitch RequestTask StepSystem

structure Threads where
  pending : Pending
  tasks : List Task
  trace : List (Nat × Record)

def Threads.initial : Threads := ⟨.initial, [], []⟩

inductive Label where
  | receive (sink : Nat) (frame : ProtoFrame) (outcomes : Outcomes)
  | act (request : Nat) (action : Action)

def Threads.idle (s : Threads) (sink : Nat) : Bool :=
  s.tasks.all fun t => t.sink ≠ sink || t.todo = []

def newTask (s : Threads) (sink : Nat) (frame : ProtoFrame) (o : Outcomes) : Task :=
  ⟨sink, frame, s.pending, (handleProtoFrame o frame s.pending).2, none⟩

def Threads.receive (s : Threads) (sink : Nat) (frame : ProtoFrame) (o : Outcomes) : Threads :=
  ⟨(handleProtoFrame o frame s.pending).1, s.tasks ++ [newTask s sink frame o], s.trace⟩

def Threads.update (s : Threads) (request : Nat) (t : Task) (records : List Record) : Threads :=
  ⟨s.pending, s.tasks.set request t, s.trace ++ records.map (request, ·)⟩

def step (s : Threads) : Label → Option Threads
  | .receive sink frame o => if s.idle sink then some (s.receive sink frame o) else none
  | .act request action =>
      (s.tasks[request]?).bind fun t =>
        (t.act action).map fun acted => s.update request acted.1 acted.2

def logOf (trace : List (Nat × Record)) (request : Nat) : List Record :=
  (trace.filter fun entry => entry.1 = request).map Prod.snd

def Threads.log (s : Threads) (request : Nat) : List Record := logOf s.trace request

theorem logOf_append (a b : List (Nat × Record)) (request : Nat) :
    logOf (a ++ b) request = logOf a request ++ logOf b request := by
  rw [logOf, List.filter_append, List.map_append, logOf, logOf]

theorem logOf_own (request : Nat) (records : List Record) :
    logOf (records.map (request, ·)) request = records := by
  induction records with
  | nil => rfl
  | cons record records ih =>
      rw [List.map_cons, logOf, List.filter_cons_of_pos (by simp), List.map_cons]
      exact congrArg (record :: ·) ih

theorem logOf_other (request other : Nat) (records : List Record) (ne : other ≠ request) :
    logOf (records.map (request, ·)) other = [] := by
  have none : (records.map (request, ·)).filter (fun entry => entry.1 = other) = [] := by
    apply List.filter_eq_nil_iff.mpr
    intro entry member
    obtain ⟨record, _, rfl⟩ := List.mem_map.mp member
    simpa using Ne.symm ne
  rw [logOf, none, List.map_nil]

theorem log_update_own (s : Threads) (request : Nat) (t : Task) (records : List Record) :
    (s.update request t records).log request = s.log request ++ records := by
  rw [Threads.log, Threads.update, logOf_append, logOf_own, Threads.log]

theorem log_update_other (s : Threads) (request other : Nat) (t : Task) (records : List Record)
    (ne : other ≠ request) : (s.update request t records).log other = s.log other := by
  rw [Threads.log, Threads.update, logOf_append, logOf_other request other records ne,
    List.append_nil, Threads.log]

/-- What a step means for one request: nothing, that it is received, or that one of its
threads acts. -/
inductive RequestStep (s s' : Threads) (l : Label) (r : Nat) : Prop where
  | same (task : s'.tasks[r]? = s.tasks[r]?) (log : s'.log r = s.log r) (other : ∀ a, l ≠ .act r a)
  | received (sink : Nat) (frame : ProtoFrame) (o : Outcomes) (label : l = .receive sink frame o)
      (absent : s.tasks[r]? = none) (task : s'.tasks[r]? = some (newTask s sink frame o))
      (log : s'.log r = s.log r)
  | acted (action : Action) (t t' : Task) (records : List Record) (label : l = .act r action)
      (found : s.tasks[r]? = some t) (act : t.act action = some (t', records))
      (task : s'.tasks[r]? = some t') (log : s'.log r = s.log r ++ records)

theorem step_request (s s' : Threads) (l : Label) (h : step s l = some s') (r : Nat) :
    RequestStep s s' l r := by
  cases l with
  | receive sink frame o =>
      rw [step] at h
      split_ifs at h with idle
      cases h
      rcases Nat.lt_trichotomy r s.tasks.length with old | new | beyond
      · exact .same (List.getElem?_append_left old) rfl (by simp)
      · refine .received sink frame o rfl (List.getElem?_eq_none (by omega)) ?_ rfl
        rw [Threads.receive, new, List.getElem?_concat_length]
      · have length : (s.receive sink frame o).tasks.length = s.tasks.length + 1 :=
          List.length_append
        refine .same ?_ rfl (by simp)
        rw [List.getElem?_eq_none (by omega), List.getElem?_eq_none (by omega)]
  | act request action =>
      obtain ⟨t, found, rest⟩ := Option.bind_eq_some_iff.mp h
      obtain ⟨⟨t', records⟩, acted, rfl⟩ := Option.map_eq_some_iff.mp rest
      by_cases own : r = request
      · rw [own]
        have bound : request < s.tasks.length := (List.getElem?_eq_some_iff.mp found).1
        exact .acted action t t' records rfl found acted (List.getElem?_set_self bound)
          (log_update_own s request t' records)
      · refine .same (List.getElem?_set_ne (Ne.symm own))
          (log_update_other s request r t' records own) ?_
        intro a same
        cases same
        exact own rfl

/-- The invariant of every request received so far; nothing is logged for the others. -/
structure Inv (s : Threads) : Prop where
  tasks : ∀ r t, s.tasks[r]? = some t → TaskInv t (s.log r)
  fresh : ∀ r, s.tasks[r]? = none → s.log r = []

theorem inv_initial : Inv .initial :=
  ⟨fun r t found => by simp [Threads.initial] at found, fun _ _ => rfl⟩

theorem Inv.step {s s' : Threads} {l : Label} (inv : Inv s) (h : step s l = some s') : Inv s' := by
  refine ⟨fun r t present => ?_, fun r absent => ?_⟩
  · cases step_request s s' l h r with
    | same task log other =>
        rw [log]
        exact inv.tasks r t (task ▸ present)
    | received sink frame o label empty task log =>
        obtain rfl : newTask s sink frame o = t := Option.some.inj (task.symm.trans present)
        rw [log, inv.fresh r empty]
        exact taskInv_new sink o frame s.pending
    | acted action t' t'' records label found act task log =>
        obtain rfl : t'' = t := Option.some.inj (task.symm.trans present)
        rw [log]
        exact (inv.tasks r t' found).act act
  · cases step_request s s' l h r with
    | same task log other =>
        rw [log]
        exact inv.fresh r (task ▸ absent)
    | received sink frame o label empty task log => cases task.symm.trans absent
    | acted action t' t'' records label found act task log => cases task.symm.trans absent

theorem inv_reached (labels : List Label) (s : Threads)
    (reached : exec step .initial labels = some s) : Inv s :=
  exec_induction step .initial Inv inv_initial (fun _ _ _ inv h => inv.step h) labels s reached

def isPush (record : Record) : Prop :=
  record.origin = .worker ∧ ∃ wire, record.effect = .send wire

def isReply (f : ProtoFrame) (record : Record) : Prop :=
  record.origin = .dispatcher ∧ record.effect = inProgressReply f

/-- Every push of a worker comes after the IN_PROGRESS answer to its request. -/
def Threads.OrderedAt (s : Threads) (r : Nat) : Prop :=
  ∀ t, s.tasks[r]? = some t → Preceded isPush (isReply t.frame) (s.log r)

def Threads.Ordered (s : Threads) : Prop := ∀ r, s.OrderedAt r

def pushesNext (t : Task) : Prop :=
  ∃ sink job wire rest, t.worker = some ⟨sink, job, .running (.send wire :: rest)⟩

/-- A worker does not send while the dispatcher still has work on the same request. -/
def Patient (s : Threads) : Label → Prop
  | .act r .work => ∀ t, s.tasks[r]? = some t → pushesNext t → t.todo = []
  | _ => True

theorem exists_isReply (f : ProtoFrame) (log : List Record) :
    (∃ record ∈ log, isReply f record) ↔ inProgressReply f ∈ doneBy .dispatcher log := by
  rw [doneBy, List.mem_map]
  refine ⟨fun found => ?_, fun found => ?_⟩
  · obtain ⟨record, member, origin, effect⟩ := found
    exact ⟨record, List.mem_filter.mpr ⟨member, by simpa using origin⟩, effect⟩
  · obtain ⟨record, member, effect⟩ := found
    obtain ⟨inside, origin⟩ := List.mem_filter.mp member
    exact ⟨record, inside, by simpa using origin, effect⟩

theorem orderedAt_iff {s : Threads} {r : Nat} {t : Task} (found : s.tasks[r]? = some t) :
    s.OrderedAt r ↔ Preceded isPush (isReply t.frame) (s.log r) := by
  refine ⟨fun ordered => ordered t found, fun preceded t' found' => ?_⟩
  obtain rfl : t = t' := Option.some.inj (found.symm.trans found')
  exact preceded

theorem patient_work_iff {s : Threads} {r : Nat} {t : Task} (found : s.tasks[r]? = some t) :
    Patient s (.act r .work) ↔ (pushesNext t → t.todo = []) := by
  refine ⟨fun patient => patient t found, fun waits t' found' => ?_⟩
  obtain rfl : t = t' := Option.some.inj (found.symm.trans found')
  exact waits

theorem isPush_iff_pushesNext {t : Task} {sink : Nat} {job : Job} {e : Effect}
    {rest : List Effect} (found : t.worker = some ⟨sink, job, .running (e :: rest)⟩) :
    isPush ⟨sink, .worker, e⟩ ↔ pushesNext t := by
  refine ⟨fun push => ?_, fun next => ?_⟩
  · obtain ⟨_, wire, rfl⟩ := push
    exact ⟨sink, job, wire, rest, found⟩
  · obtain ⟨sink', job', wire, rest', found'⟩ := next
    rw [found] at found'
    cases found'
    exact ⟨rfl, wire, rfl⟩

theorem orderedAt_acted {s s' : Threads} {r : Nat} {action : Action} {t t' : Task}
    {records : List Record} (inv : Inv s) (found : s.tasks[r]? = some t)
    (act : t.act action = some (t', records)) (task : s'.tasks[r]? = some t')
    (log : s'.log r = s.log r ++ records) :
    s'.OrderedAt r ↔ s.OrderedAt r ∧ Patient s (.act r action) := by
  rw [orderedAt_iff found, orderedAt_iff task, log]
  rcases t.act_cases t' action records act with ⟨e, rest, rfl, todo, rfl, rfl⟩ |
    ⟨call, sink, job, rfl, worker, rfl, rfl⟩ | ⟨sink, job, e, rest, rfl, worker, rfl, rfl⟩
  · have reply : ¬ isPush ⟨t.sink, .dispatcher, e⟩ := fun push => Origin.noConfusion push.1
    rw [preceded_concat]
    simp [reply, Patient]
  · simp [Patient]
  · have own := inv.tasks r t found
    rw [preceded_concat, patient_work_iff found, isPush_iff_pushesNext worker, exists_isReply,
      own.replied_iff (own.busy worker)]

theorem orderedAt_received {s s' : Threads} {r : Nat} (inv : Inv s) (absent : s.tasks[r]? = none)
    (log : s'.log r = s.log r) : s'.OrderedAt r ∧ s.OrderedAt r := by
  refine ⟨fun t _ => ?_, fun t found => ?_⟩
  · rw [log, inv.fresh r absent]
    exact preceded_nil _ _
  · cases absent.symm.trans found

/-- A property of single requests that depends on their task and log only: if an action
of a request keeps it for that request exactly under some condition, then a step keeps it
for all requests exactly under that condition. -/
theorem forall_request_step {At : Threads → Nat → Prop} {condition : Threads → Label → Prop}
    {s s' : Threads} {l : Label} (h : step s l = some s')
    (same : ∀ r, s'.tasks[r]? = s.tasks[r]? → s'.log r = s.log r → (At s' r ↔ At s r))
    (received : ∀ r, s.tasks[r]? = none → s'.log r = s.log r → At s' r ∧ At s r)
    (acted : ∀ r action t t' records, s.tasks[r]? = some t → t.act action = some (t', records) →
      s'.tasks[r]? = some t' → s'.log r = s.log r ++ records →
      (At s' r ↔ At s r ∧ condition s (.act r action)))
    (free : ∀ sink frame o, condition s (.receive sink frame o)) :
    (∀ r, At s' r) ↔ (∀ r, At s r) ∧ condition s l := by
  have other : ∀ r, (∀ a, l ≠ .act r a) → (At s' r ↔ At s r) := by
    intro r elsewhere
    cases step_request s s' l h r with
    | same task log _ => exact same r task log
    | received sink frame o label absent task log =>
        have both := received r absent log
        exact iff_of_true both.1 both.2
    | acted action t t' records label found act task log => exact absurd label (elsewhere action)
  cases l with
  | receive sink frame o =>
      have all := fun r => other r (by simp)
      simp only [all, free, and_true]
  | act request action =>
      have own : At s' request ↔ At s request ∧ condition s (.act request action) := by
        cases step_request s s' _ h request with
        | same task log elsewhere => exact absurd rfl (elsewhere action)
        | received sink frame o label absent task log => cases label
        | acted action' t t' records label found act task log =>
            cases label
            exact acted request action t t' records found act task log
      refine ⟨fun all => ⟨fun r => ?_, (own.mp (all request)).2⟩, fun both r => ?_⟩
      · by_cases mine : r = request
        · exact mine ▸ (own.mp (all request)).1
        · exact (other r (by simp [Ne.symm mine])).mp (all r)
      · by_cases mine : r = request
        · exact mine ▸ own.mpr ⟨both.1 request, both.2⟩
        · exact (other r (by simp [Ne.symm mine])).mpr (both.1 r)

/-- One step keeps the order exactly when it is patient. -/
theorem ordered_step {s s' : Threads} {l : Label} (inv : Inv s) (h : step s l = some s') :
    s'.Ordered ↔ s.Ordered ∧ Patient s l := by
  refine forall_request_step h ?_ ?_ ?_ ?_
  · intro r task log
    rw [Threads.OrderedAt, Threads.OrderedAt, task, log]
  · intro r absent log
    exact orderedAt_received inv absent log
  · intro r action t t' records found act task log
    exact orderedAt_acted inv found act task log
  · intro sink frame o
    trivial

/-- In every run, pushes follow their IN_PROGRESS answers exactly when no worker sends
before the dispatcher is done with its request. -/
theorem ordered_iff_patient (labels : List Label) (s : Threads)
    (reached : exec step .initial labels = some s) :
    s.Ordered ↔ StepsMeet step Patient .initial labels := by
  have start : Threads.initial.Ordered := by
    intro r t found
    simp [Threads.initial] at found
  rw [exec_iff_stepsMeet step Inv Threads.Ordered Patient (fun _ _ _ inv h => inv.step h)
    (fun _ _ _ inv h => ordered_step inv h) labels .initial s inv_initial reached]
  exact and_iff_right start

def ssidRequest (payload : Bytes) (short : payload.length ≤ wifiSsidMax) : ProtoFrame :=
  .ofPayload 0 protoTypeReq 1 protoCmdsetNetwork NetCommand.ssid.byte
    (UInt16.ofNat payload.length) payload
    (ofNat_length_toNat payload (short.trans (by decide))).symm
    (by rw [ofNat_length_toNat payload (short.trans (by decide))]; exact short.trans (by decide))

def connectRequest : ProtoFrame := bareRequest 2 .connect

def callsSucceed : Outcomes := ⟨true, none, .ok, true, true⟩

def connectStarted : List Label :=
  [.receive 0 (ssidRequest (ascii "cafe") (by decide)) callsSucceed, .act 0 .dispatch,
    .receive 0 connectRequest callsSucceed, .act 1 .dispatch, .act 1 .dispatch]

def dispatcherFirst : List Label :=
  connectStarted ++ [.act 1 .dispatch, .act 1 .dispatch, .act 1 (.callReturns .busy), .act 1 .work]

def workerFirst : List Label :=
  connectStarted ++ [.act 1 (.callReturns .busy), .act 1 .work, .act 1 .dispatch, .act 1 .dispatch]

theorem ordered_iff_patient_dispatcherFirst :
    ∃ s, exec step .initial dispatcherFirst = some s ∧
      (s.Ordered ↔ StepsMeet step Patient .initial dispatcherFirst) :=
  ⟨_, rfl, ordered_iff_patient dispatcherFirst _ rfl⟩

/-- If the switch is busy the worker can push its result before the dispatcher answers. -/
theorem push_before_reply :
    ∃ s, exec step .initial workerFirst = some s ∧
      s.log 1 = [⟨0, .dispatcher, .retain⟩,
        ⟨0, .dispatcher, .spawn (.connect 2 (ascii "cafe") [])⟩,
        ⟨0, .worker, .send (pushWire 2 .pushResult [ErrCode.unknown.byte])⟩,
        ⟨0, .dispatcher, .readJob⟩, ⟨0, .dispatcher, inProgressReply connectRequest⟩] ∧
      ¬ s.Ordered := by
  refine ⟨_, rfl, by decide, fun ordered => ?_⟩
  have preceded := ordered 1 _ rfl
    [⟨0, .dispatcher, .retain⟩, ⟨0, .dispatcher, .spawn (.connect 2 (ascii "cafe") [])⟩]
    ⟨0, .worker, .send (pushWire 2 .pushResult [ErrCode.unknown.byte])⟩
    [⟨0, .dispatcher, .readJob⟩, ⟨0, .dispatcher, inProgressReply connectRequest⟩]
    (by decide) ⟨rfl, _, rfl⟩
  obtain ⟨record, member, _, effect⟩ := preceded
  simp only [List.mem_cons, List.not_mem_nil, or_false] at member
  rcases member with rfl | rfl <;> cases effect

def Threads.pushes (s : Threads) (r : Nat) : List (Nat × Bytes) := sentBy .worker (s.log r)

def Threads.replies (s : Threads) (r : Nat) : List (Nat × Bytes) := sentBy .dispatcher (s.log r)

def ofWorker (r : Nat) (l : Label) : Prop :=
  l = .act r .work ∨ ∃ call, l = .act r (.callReturns call)

theorem step_work (s : Threads) (r : Nat) (t : Task) (sink : Nat) (job : Job) (e : Effect)
    (left : List Effect) (found : s.tasks[r]? = some t)
    (worker : t.worker = some ⟨sink, job, .running (e :: left)⟩) :
    step s (.act r .work) = some (s.update r { t with worker := some ⟨sink, job, .running left⟩ }
      [⟨sink, .worker, e⟩]) := by
  rw [step, found, Option.bind_some, Task.act, worker]
  rfl

theorem step_callReturns (s : Threads) (r : Nat) (t : Task) (sink : Nat) (job : Job)
    (call : CallResult) (found : s.tasks[r]? = some t)
    (worker : t.worker = some ⟨sink, job, .waiting⟩) :
    step s (.act r (.callReturns call)) = some (s.update r
      { t with worker := some ⟨sink, job, .running (workerEffects call job)⟩ } []) := by
  rw [step, found, Option.bind_some, Task.act, worker]
  rfl

theorem tasks_update (s : Threads) (r : Nat) (t t' : Task) (records : List Record)
    (found : s.tasks[r]? = some t) : (s.update r t' records).tasks[r]? = some t' :=
  List.getElem?_set_self (List.getElem?_eq_some_iff.mp found).1

theorem running_finishes (left : List Effect) (s : Threads) (r : Nat) (t : Task) (sink : Nat)
    (job : Job) (found : s.tasks[r]? = some t)
    (worker : t.worker = some ⟨sink, job, .running left⟩) :
    ∃ s' t', exec step s (List.replicate left.length (.act r .work)) = some s' ∧
      s'.tasks[r]? = some t' ∧ t'.finished ∧ t'.frame = t.frame ∧ t'.sink = t.sink := by
  induction left generalizing s t with
  | nil => exact ⟨s, t, rfl, found, ⟨_, worker, rfl⟩, rfl, rfl⟩
  | cons e left ih =>
      obtain ⟨s', t', run, present, finished, frame, own⟩ := ih _ _
        (tasks_update s r t { t with worker := some ⟨sink, job, .running left⟩ }
          [⟨sink, .worker, e⟩] found) rfl
      refine ⟨s', t', ?_, present, finished, frame, own⟩
      rw [List.length_cons, List.replicate_succ, exec,
        step_work s r t sink job e left found worker]
      exact run

theorem worker_finishes (s : Threads) (r : Nat) (t : Task) (w : Worker)
    (found : s.tasks[r]? = some t) (worker : t.worker = some w) :
    ∃ labels s' t', (∀ l ∈ labels, ofWorker r l) ∧ exec step s labels = some s' ∧
      s'.tasks[r]? = some t' ∧ t'.finished ∧ t'.frame = t.frame ∧ t'.sink = t.sink := by
  have works : ∀ n, ∀ l ∈ List.replicate n (Label.act r .work), ofWorker r l :=
    fun n l member => .inl (List.eq_of_mem_replicate member)
  obtain ⟨sink, job, phase⟩ := w
  cases phase with
  | running left =>
      obtain ⟨s', t', run, rest⟩ := running_finishes left s r t sink job found worker
      exact ⟨_, s', t', works _, run, rest⟩
  | waiting =>
      obtain ⟨s', t', run, rest⟩ := running_finishes (workerEffects .busy job) _ r _ sink job
        (tasks_update s r t
          { t with worker := some ⟨sink, job, .running (workerEffects .busy job)⟩ } [] found) rfl
      refine ⟨.act r (.callReturns .busy) ::
        List.replicate (workerEffects .busy job).length (.act r .work), s', t', ?_, ?_, rest⟩
      · intro l member
        rcases List.mem_cons.mp member with rfl | later
        · exact .inr ⟨_, rfl⟩
        · exact works _ l later
      · rw [exec, step_callReturns s r t sink job .busy found worker]
        exact run

/-- The account of one request. After IN_PROGRESS its worker has sent the start of one
complete set of pushes, to the sink of the request, and can always send the rest by
itself; a worker that is done has sent them all. After any other answer nothing is
pushed. -/
structure Accounted (s : Threads) (r : Nat) (t : Task) : Prop where
  under_way : (t.sink, replyWire t.frame [ErrCode.inProgress.byte]) ∈ s.replies r →
    ∃ whole, CompletePushes t.frame whole ∧ s.pushes r <+: whole.map (t.sink, ·)
  finishes : (t.sink, replyWire t.frame [ErrCode.inProgress.byte]) ∈ s.replies r →
    ∃ labels s' t' whole, (∀ l ∈ labels, ofWorker r l) ∧ exec step s labels = some s' ∧
      s'.tasks[r]? = some t' ∧ t'.finished ∧ CompletePushes t.frame whole ∧
      s'.pushes r = whole.map (t.sink, ·)
  complete : t.finished →
    ∃ whole, CompletePushes t.frame whole ∧ s.pushes r = whole.map (t.sink, ·)
  others : ∀ payload, payload ≠ [ErrCode.inProgress.byte] →
    (t.sink, replyWire t.frame payload) ∈ s.replies r → s.pushes r = []

theorem finished_complete (labels : List Label) (s : Threads)
    (reached : exec step .initial labels = some s) (r : Nat) (t : Task)
    (found : s.tasks[r]? = some t) (finished : t.finished) :
    ∃ whole, CompletePushes t.frame whole ∧ s.pushes r = whole.map (t.sink, ·) := by
  have inv := (inv_reached labels s reached).tasks r t found
  obtain ⟨w, worker, ended⟩ := finished
  obtain ⟨rest, complete, last⟩ := inv.pushes (inv.busy worker)
  rw [last ⟨w, worker, ended⟩, List.append_nil] at complete
  exact ⟨_, complete, sentBy_eq inv .worker⟩

/-- Every request of every run is accounted for. -/
theorem requests_accounted (labels : List Label) (s : Threads)
    (reached : exec step .initial labels = some s) (r : Nat) (t : Task)
    (found : s.tasks[r]? = some t) : Accounted s r t := by
  have inv := (inv_reached labels s reached).tasks r t found
  have pushes : s.pushes r = (sends (doneBy .worker (s.log r))).map (t.sink, ·) :=
    sentBy_eq inv .worker
  have replies : ∀ wire, (t.sink, wire) ∈ s.replies r ↔
      Effect.send wire ∈ doneBy .dispatcher (s.log r) := mem_sentBy inv .dispatcher
  refine ⟨fun answered => ?_, fun answered => ?_, finished_complete labels s reached r t found,
    fun payload other answered => ?_⟩
  · obtain ⟨rest, complete, _⟩ := inv.pushes (inv.in_progress ((replies _).mp answered))
    refine ⟨_, complete, ?_⟩
    rw [pushes]
    exact (List.prefix_append _ rest).map _
  · obtain ⟨job, started, _⟩ := inv.job (inv.in_progress ((replies _).mp answered))
    obtain ⟨phase, worker⟩ := inv.worker.job job started
    obtain ⟨more, s', t', own, run, present, finished, frame, sink⟩ :=
      worker_finishes s r t _ found worker
    have reached' : exec step .initial (labels ++ more) = some s' := by
      rw [exec_append, reached]
      exact run
    obtain ⟨whole, complete, sent⟩ :=
      finished_complete (labels ++ more) s' reached' r t' present finished
    rw [frame] at complete
    rw [sink] at sent
    exact ⟨more, s', t', whole, own, run, present, finished, complete, sent⟩
  · rw [pushes, inv.no_worker (inv.other_reply payload other ((replies _).mp answered))]
    rfl

theorem requests_accounted_dispatcherFirst :
    ∃ s t, exec step .initial dispatcherFirst = some s ∧ s.tasks[1]? = some t ∧
      (t.sink, replyWire t.frame [ErrCode.inProgress.byte]) ∈ s.replies 1 ∧ s.pushes 1 ≠ [] ∧
      Accounted s 1 t :=
  ⟨_, _, rfl, rfl, by decide, by decide, requests_accounted dispatcherFirst _ rfl 1 _ rfl⟩

end WfyApp.DispatchThreads
