import WfyApp.ScanPush
import WfyApp.WifiSwitch

/-! One request inside system_service: what the dispatcher thread still has to do for
it, and the worker thread it may have started (`wifi_connect_worker`,
`wifi_scan_worker`). The log of a request lists what the two threads did, in the order
in which they did it. -/

namespace WfyApp.RequestTask
open ByteText ProtoCodec ProtoDispatch ScanPush WifiSwitch

/-- What a worker's blocking call finds: the switch for a join, the scan otherwise. -/
structure CallResult where
  world : World
  scan : Option ScanList

def wifiConnectWorker (world : World) (seq : UInt8) (ssid passwd : Bytes) : List Effect :=
  let result := runNow world (cstr ssid) (cstr passwd)
  (result.join.toList.map fun credentials => .join credentials.1 credentials.2) ++
    (if result.status = .ok then [.persist (cstr ssid) (cstr passwd)] else []) ++
    sendProtoPush seq protoCmdsetNetwork NetCommand.pushResult.byte
      [(wifiStatusToErrcode result.status).byte] ++
    [.release, .freeJob]

def scanEntries (scan : Option ScanList) : List WifiScanEntry :=
  match scan with
  | none => []
  | some list => list.entries

def wifiScanWorker (scan : Option ScanList) (seq : UInt8) : List Effect :=
  let entries := scanEntries scan
  ((sendScanResults (entries.length + 1) 0 entries).getD []).flatMap
      (sendProtoPush seq protoCmdsetNetwork NetCommand.pushScanResult.byte) ++
    [.release, .freeJob]

def workerEffects (call : CallResult) : Job → List Effect
  | .connect seq ssid passwd => wifiConnectWorker call.world seq ssid passwd
  | .scan seq => wifiScanWorker call.scan seq

inductive Phase where
  | waiting
  | running (left : List Effect)

structure Worker where
  sink : Nat
  job : Job
  phase : Phase

structure Task where
  sink : Nat
  frame : ProtoFrame
  staged : Pending
  todo : List Effect
  worker : Option Worker

inductive Origin where
  | dispatcher
  | worker
deriving DecidableEq

structure Record where
  sink : Nat
  origin : Origin
  effect : Effect
deriving DecidableEq

inductive Action where
  | dispatch
  | callReturns (call : CallResult)
  | work

def startWorker (t : Task) : Effect → Option Worker
  | .spawn job => some ⟨t.sink, job, .waiting⟩
  | _ => t.worker

def Task.act (t : Task) : Action → Option (Task × List Record)
  | .dispatch =>
      match t.todo with
      | [] => none
      | e :: rest =>
          some ({ t with todo := rest, worker := startWorker t e }, [⟨t.sink, .dispatcher, e⟩])
  | .callReturns call =>
      match t.worker with
      | some ⟨sink, job, .waiting⟩ =>
          some ({ t with worker := some ⟨sink, job, .running (workerEffects call job)⟩ }, [])
      | _ => none
  | .work =>
      match t.worker with
      | some ⟨sink, job, .running (e :: rest)⟩ =>
          some ({ t with worker := some ⟨sink, job, .running rest⟩ }, [⟨sink, .worker, e⟩])
      | _ => none

def doneBy (origin : Origin) (log : List Record) : List Effect :=
  (log.filter fun r => r.origin = origin).map Record.effect

def pushWire (seq : UInt8) (command : NetCommand) (payload : Bytes) : Bytes :=
  frameWire protoTypeReq seq protoCmdsetNetwork command.byte payload

def endsList (payload : Bytes) : Bool := (parseScanPush payload).any ScanChunk.endOfList

/-- All that a request answered IN_PROGRESS has to be followed by: one result push, or
one sequence of scan pushes with one end mark. -/
inductive CompletePushes (f : ProtoFrame) : List Bytes → Prop where
  | connect (command : NetCommand.ofByte f.commandId = some .connect) (errcode : ErrCode) :
      CompletePushes f [pushWire f.seq .pushResult [errcode.byte]]
  | scan (command : NetCommand.ofByte f.commandId = some .scanWifi) (entries : List WifiScanEntry)
      (payloads : List Bytes) (chunks : List ScanChunk) (list : Delivers 0 entries payloads chunks)
      (one_end : payloads.countP endsList = 1) :
      CompletePushes f (payloads.map (pushWire f.seq .pushScanResult))

theorem sends_wifiConnectWorker (world : World) (seq : UInt8) (ssid passwd : Bytes) :
    sends (wifiConnectWorker world seq ssid passwd) = [pushWire seq .pushResult
      [(wifiStatusToErrcode (runNow world (cstr ssid) (cstr passwd)).status).byte]] := by
  have joins : ∀ join : Option (Bytes × Bytes),
      sends (join.toList.map fun credentials => .join credentials.1 credentials.2) = [] := by
    intro join
    cases join <;> rfl
  have persists : ∀ status : WifiSwitchStatus, sends (if status = .ok then
      [Effect.persist (cstr ssid) (cstr passwd)] else []) = [] := by
    intro status
    split_ifs <;> rfl
  rw [wifiConnectWorker, sends_append, sends_append, sends_append, joins, persists, sendProtoPush,
    sendProtoFrame_eq _ _ _ _ _ (by simp [protoPayloadMax])]
  rfl

theorem scanEntries_wellFormed (scan : Option ScanList) :
    ∀ e ∈ scanEntries scan, e.WellFormed := by
  cases scan with
  | none => simp [scanEntries]
  | some list => exact list.wellFormed

theorem scanEntries_length (scan : Option ScanList) :
    (scanEntries scan).length ≤ maxScanEntries := by
  cases scan with
  | none => exact Nat.zero_le _
  | some list => exact list.length_le

theorem sends_scanPushes (seq : UInt8) (payloads : List Bytes)
    (small : ∀ p ∈ payloads, p.length ≤ scanPushPayloadCap) :
    sends (payloads.flatMap
        (sendProtoPush seq protoCmdsetNetwork NetCommand.pushScanResult.byte)) =
      payloads.map (pushWire seq .pushScanResult) := by
  induction payloads with
  | nil => rfl
  | cons payload payloads ih =>
      have fits := small payload List.mem_cons_self
      have rest := ih fun p member => small p (List.mem_cons_of_mem payload member)
      rw [List.flatMap_cons, sends_append, rest, sendProtoPush,
        sendProtoFrame_eq _ _ _ _ _ (by simp only [scanPushPayloadCap] at fits
                                        simp only [protoPayloadMax]; omega)]
      rfl

theorem delivers_countP_endsList {start : Nat} {entries : List WifiScanEntry}
    {payloads : List Bytes} {chunks : List ScanChunk}
    (list : Delivers start entries payloads chunks) : payloads.countP endsList = 1 := by
  obtain ⟨n, ends⟩ := list.last_ends
  have marks : payloads.map endsList = chunks.map ScanChunk.endOfList := by
    have mapped := congrArg (List.map fun chunk => Option.any ScanChunk.endOfList chunk)
      list.parsed
    rw [List.map_map, List.map_map] at mapped
    exact mapped
  have count : payloads.countP endsList = (payloads.map endsList).countP id := by
    rw [List.countP_map]
    rfl
  rw [count, marks, ends]
  simp [List.countP_append, List.countP_replicate]

theorem sends_wifiScanWorker (scan : Option ScanList) (seq : UInt8) :
    ∃ payloads chunks, Delivers 0 (scanEntries scan) payloads chunks ∧
      sends (wifiScanWorker scan seq) = payloads.map (pushWire seq .pushScanResult) := by
  have short := scanEntries_length scan
  obtain ⟨payloads, chunks, sent, list⟩ := sendScanResults_delivers (scanEntries scan)
    (scanEntries_wellFormed scan) 0 (by simp only [maxScanEntries] at short; simp; omega)
  refine ⟨payloads, chunks, list, ?_⟩
  simp only [wifiScanWorker]
  rw [sent _ (Nat.lt_succ_self _), Option.getD_some, sends_append,
    sends_scanPushes seq payloads list.size_le]
  simp [sends, Effect.wire?]

def Effect.job? : Effect → Option Job
  | .spawn job => some job
  | _ => none

def spawned (effects : List Effect) : List Job := effects.filterMap Effect.job?

theorem spawned_append (a b : List Effect) : spawned (a ++ b) = spawned a ++ spawned b :=
  List.filterMap_append

inductive JobFor (f : ProtoFrame) (p : Pending) : Job → Prop where
  | connect (command : NetCommand.ofByte f.commandId = some .connect) (staged : p.ssid ≠ []) :
      JobFor f p (.connect f.seq p.ssid p.passwd)
  | scan (command : NetCommand.ofByte f.commandId = some .scanWifi) : JobFor f p (.scan f.seq)

def inProgressReply (f : ProtoFrame) : Effect := .send (replyWire f [ErrCode.inProgress.byte])

/-- Handling a frame either starts no worker and never answers IN_PROGRESS, or starts
one worker and ends with that answer. -/
inductive Plan (f : ProtoFrame) (p : Pending) : List Effect → Prop where
  | final (effects : List Effect) (alone : spawned effects = [])
      (other : inProgressReply f ∉ effects) : Plan f p effects
  | start (before : List Effect) (job : Job) (belongs : JobFor f p job)
      (one : spawned before = [job]) (quiet : sends before = []) :
      Plan f p (before ++ [inProgressReply f])

theorem spawned_quiet (effects : List Effect) (quiet : ∀ e ∈ effects, e.Quiet) :
    spawned effects = [] := by
  apply List.filterMap_eq_nil_iff.mpr
  intro e member
  have still := quiet e member
  cases e with
  | retain | release | freeJob => rfl
  | send | spawn | readJob | join | persist => exact still.elim

theorem handled_plan {f : ProtoFrame} {p : Pending} {effects : List Effect}
    (h : Handled f p effects) : Plan f p effects := by
  cases h with
  | answer before payload quiet pos small other =>
      refine .final _ ?_ ?_
      · rw [spawned_append, spawned_quiet before quiet]
        rfl
      · intro member
        rcases List.mem_append.mp member with early | last
        · exact quiet _ early
        · have same := List.mem_singleton.mp last
          exact other (replyWire_injective f (Effect.send.inj same)).symm
  | connect network command staged =>
      exact .start [.retain, .spawn (.connect f.seq p.ssid p.passwd), .readJob] _
        (.connect command staged) rfl rfl
  | scan network command =>
      exact .start [.retain, .spawn (.scan f.seq)] _ (.scan command) rfl rfl

theorem handleProtoFrame_plan (o : Outcomes) (f : ProtoFrame) (p : Pending) :
    Plan f p (handleProtoFrame o f p).2 := by
  by_cases req : f.type = protoTypeReq
  · exact handled_plan (handleProtoFrame_handled o f p req)
  · rw [handleProtoFrame_not_req o f p req]
    exact .final [] rfl List.not_mem_nil

theorem Plan.one_job {f : ProtoFrame} {p : Pending} {effects : List Effect}
    (plan : Plan f p effects) : (spawned effects).length ≤ 1 := by
  cases plan with
  | final effects alone other => rw [alone]; exact Nat.zero_le 1
  | start before job belongs one quiet =>
      rw [spawned_append, one]
      exact Nat.le_refl 1

/-- The worker of a task, the jobs its dispatcher has started, and what the worker did. -/
inductive WorkerInv (sink : Nat) : Option Worker → List Job → List Effect → Prop where
  | idle : WorkerInv sink none [] []
  | waiting (job : Job) : WorkerInv sink (some ⟨sink, job, .waiting⟩) [job] []
  | running (job : Job) (call : CallResult) (finished left : List Effect)
      (whole : finished ++ left = workerEffects call job) :
      WorkerInv sink (some ⟨sink, job, .running left⟩) [job] finished

section
variable {sink : Nat} {worker : Option Worker} {jobs : List Job} {finished : List Effect}

theorem WorkerInv.spawn (inv : WorkerInv sink worker [] finished) (job : Job) :
    WorkerInv sink (some ⟨sink, job, .waiting⟩) [job] finished := by
  cases inv
  exact .waiting job

theorem WorkerInv.callReturns {own : Nat} {job : Job} (call : CallResult)
    (inv : WorkerInv sink (some ⟨own, job, .waiting⟩) jobs finished) :
    WorkerInv sink (some ⟨own, job, .running (workerEffects call job)⟩) jobs finished := by
  cases inv
  exact .running job call [] _ rfl

theorem WorkerInv.work {own : Nat} {job : Job} {e : Effect} {rest : List Effect}
    (inv : WorkerInv sink (some ⟨own, job, .running (e :: rest)⟩) jobs finished) :
    own = sink ∧ WorkerInv sink (some ⟨own, job, .running rest⟩) jobs (finished ++ [e]) := by
  cases inv with
  | running job call finished left whole =>
      refine ⟨rfl, .running job call _ rest ?_⟩
      rw [List.append_assoc]
      exact whole

theorem WorkerInv.no_jobs (inv : WorkerInv sink worker [] finished) : finished = [] := by
  cases inv
  rfl

theorem WorkerInv.jobs_eq {w : Worker} (inv : WorkerInv sink (some w) jobs finished) :
    jobs = [w.job] := by
  cases inv <;> rfl

theorem WorkerInv.job (inv : WorkerInv sink worker jobs finished) (job : Job)
    (started : jobs = [job]) : ∃ phase, worker = some ⟨sink, job, phase⟩ := by
  cases inv with
  | idle => cases started
  | waiting job => exact ⟨_, by rw [List.singleton_inj.mp started]⟩
  | running job call finished left whole => exact ⟨_, by rw [List.singleton_inj.mp started]⟩

end

structure TaskInv (t : Task) (log : List Record) : Prop where
  plan : Plan t.frame t.staged (doneBy .dispatcher log ++ t.todo)
  sinks : ∀ r ∈ log, r.sink = t.sink
  worker : WorkerInv t.sink t.worker (spawned (doneBy .dispatcher log)) (doneBy .worker log)

theorem doneBy_concat_own (log : List Record) (record : Record) :
    doneBy record.origin (log ++ [record]) = doneBy record.origin log ++ [record.effect] := by
  simp [doneBy]

theorem doneBy_concat_other (log : List Record) (record : Record) (origin : Origin)
    (other : record.origin ≠ origin) : doneBy origin (log ++ [record]) = doneBy origin log := by
  simp [doneBy, other]

theorem sinks_concat {sink : Nat} {log : List Record} (old : ∀ r ∈ log, r.sink = sink)
    (record : Record) (own : record.sink = sink) : ∀ r ∈ log ++ [record], r.sink = sink := by
  intro r member
  rcases List.mem_append.mp member with earlier | last
  · exact old r earlier
  · rw [List.mem_singleton.mp last, own]

theorem TaskInv.no_worker {t : Task} {log : List Record} (inv : TaskInv t log)
    (none : spawned (doneBy .dispatcher log) = []) : doneBy .worker log = [] := by
  have worker := inv.worker
  rw [none] at worker
  exact worker.no_jobs

theorem TaskInv.busy {t : Task} {log : List Record} {w : Worker} (inv : TaskInv t log)
    (found : t.worker = some w) : spawned (doneBy .dispatcher log) ≠ [] := by
  have worker := inv.worker
  rw [found] at worker
  rw [worker.jobs_eq]
  exact List.cons_ne_nil _ _

theorem taskInv_new (sink : Nat) (o : Outcomes) (f : ProtoFrame) (p : Pending) :
    TaskInv ⟨sink, f, p, (handleProtoFrame o f p).2, none⟩ [] :=
  ⟨handleProtoFrame_plan o f p, fun _ member => absurd member List.not_mem_nil, .idle⟩

/-- Everything an action can do to a task. -/
theorem Task.act_cases (t t' : Task) (a : Action) (records : List Record)
    (h : t.act a = some (t', records)) :
    (∃ e rest, a = .dispatch ∧ t.todo = e :: rest ∧
      t' = { t with todo := rest, worker := startWorker t e } ∧
      records = [⟨t.sink, .dispatcher, e⟩]) ∨
    (∃ call sink job, a = .callReturns call ∧ t.worker = some ⟨sink, job, .waiting⟩ ∧
      t' = { t with worker := some ⟨sink, job, .running (workerEffects call job)⟩ } ∧
      records = []) ∨
    (∃ sink job e rest, a = .work ∧ t.worker = some ⟨sink, job, .running (e :: rest)⟩ ∧
      t' = { t with worker := some ⟨sink, job, .running rest⟩ } ∧
      records = [⟨sink, .worker, e⟩]) := by
  cases a with
  | dispatch =>
      cases todo : t.todo with
      | nil => simp [act, todo] at h
      | cons e rest =>
          simp only [act, todo, Option.some.injEq, Prod.mk.injEq] at h
          exact .inl ⟨e, rest, rfl, rfl, h.1.symm, h.2.symm⟩
  | callReturns call =>
      simp only [act] at h
      split at h
      · rename_i sink job found
        cases h
        exact .inr (.inl ⟨call, sink, job, rfl, found, rfl, rfl⟩)
      · cases h
  | work =>
      simp only [act] at h
      split at h
      · rename_i sink job e rest found
        cases h
        exact .inr (.inr ⟨sink, job, e, rest, rfl, found, rfl, rfl⟩)
      · cases h

theorem startWorker_inv {t : Task} {log : List Record} {e : Effect} {rest : List Effect}
    (inv : TaskInv t log) (todo : t.todo = e :: rest) :
    WorkerInv t.sink (startWorker t e) (spawned (doneBy .dispatcher log ++ [e]))
      (doneBy .worker log) := by
  have before := inv.worker
  have one := inv.plan.one_job
  rw [todo, spawned_append] at one
  rw [spawned_append]
  cases e with
  | spawn job =>
      have first : spawned (doneBy .dispatcher log) = [] := by
        have total : (spawned (doneBy .dispatcher log)).length +
            (1 + (spawned rest).length) ≤ 1 := by
          simpa [spawned, Effect.job?, Nat.add_comm] using one
        exact List.length_eq_zero_iff.mp (by omega)
      rw [first] at before ⊢
      exact before.spawn job
  | send | retain | release | readJob | freeJob | join | persist =>
      have same : ∀ jobs : List Job, jobs ++ [] = jobs := List.append_nil
      exact (same (spawned (doneBy .dispatcher log))).symm ▸ before

/-- Every action of either thread keeps the invariant of the request. -/
theorem TaskInv.act {t t' : Task} {log records : List Record} {a : Action}
    (inv : TaskInv t log) (h : t.act a = some (t', records)) : TaskInv t' (log ++ records) := by
  rcases t.act_cases t' a records h with ⟨e, rest, _, todo, rfl, rfl⟩ |
    ⟨call, sink, job, _, found, rfl, rfl⟩ | ⟨sink, job, e, rest, _, found, rfl, rfl⟩
  · have done := doneBy_concat_own log ⟨t.sink, .dispatcher, e⟩
    have other := doneBy_concat_other log ⟨t.sink, .dispatcher, e⟩ .worker Origin.noConfusion
    have plan := inv.plan
    rw [todo] at plan
    refine ⟨by rw [done, List.append_assoc]; exact plan, sinks_concat inv.sinks _ rfl, ?_⟩
    rw [done, other]
    exact startWorker_inv inv todo
  · have worker := inv.worker
    rw [found] at worker
    rw [List.append_nil]
    exact ⟨inv.plan, inv.sinks, worker.callReturns call⟩
  · have worker := inv.worker
    rw [found] at worker
    have done := doneBy_concat_own log ⟨sink, .worker, e⟩
    have other := doneBy_concat_other log ⟨sink, .worker, e⟩ .dispatcher Origin.noConfusion
    refine ⟨by rw [other]; exact inv.plan, sinks_concat inv.sinks _ worker.work.1, ?_⟩
    rw [done, other]
    exact worker.work.2

/-- The frames one thread handed to a sink for this request, with that sink. -/
def sentBy (origin : Origin) (log : List Record) : List (Nat × Bytes) :=
  (log.filter fun r => r.origin = origin).filterMap fun r => r.effect.wire?.map (r.sink, ·)

theorem sentBy_eq {t : Task} {log : List Record} (inv : TaskInv t log) (origin : Origin) :
    sentBy origin log = (sends (doneBy origin log)).map (t.sink, ·) := by
  have own : ∀ r ∈ log.filter fun r => r.origin = origin,
      r.effect.wire?.map (r.sink, ·) = r.effect.wire?.map (t.sink, ·) := by
    intro r member
    rw [inv.sinks r (List.mem_of_mem_filter member)]
  rw [sentBy, List.filterMap_congr own, sends, doneBy, List.filterMap_map, List.map_filterMap]
  rfl

theorem mem_sentBy {t : Task} {log : List Record} (inv : TaskInv t log) (origin : Origin)
    (wire : Bytes) :
    (t.sink, wire) ∈ sentBy origin log ↔ Effect.send wire ∈ doneBy origin log := by
  have wires : wire ∈ sends (doneBy origin log) ↔ Effect.send wire ∈ doneBy origin log := by
    rw [sends, List.mem_filterMap]
    refine ⟨fun found => ?_, fun member => ⟨_, member, rfl⟩⟩
    obtain ⟨e, member, is_wire⟩ := found
    cases e with
    | send other => exact Option.some.inj is_wire ▸ member
    | spawn | retain | release | readJob | freeJob | join | persist => cases is_wire
  rw [sentBy_eq inv, ← wires]
  simp

/-- A worker that was started belongs to a plan that answers IN_PROGRESS last. -/
theorem TaskInv.started {t : Task} {log : List Record} (inv : TaskInv t log)
    (busy : spawned (doneBy .dispatcher log) ≠ []) :
    ∃ before job, doneBy .dispatcher log ++ t.todo = before ++ [inProgressReply t.frame] ∧
      JobFor t.frame t.staged job ∧ spawned before = [job] ∧ sends before = [] := by
  have plan := inv.plan
  generalize effects_eq : doneBy .dispatcher log ++ t.todo = effects at plan
  cases plan with
  | final effects alone other =>
      rw [← effects_eq, spawned_append] at alone
      exact absurd (List.append_eq_nil_iff.mp alone).1 busy
  | start before job belongs one quiet => exact ⟨before, job, rfl, belongs, one, quiet⟩

theorem inProgressReply_not_mem (f : ProtoFrame) (effects : List Effect)
    (quiet : sends effects = []) : inProgressReply f ∉ effects := by
  intro member
  have none := List.filterMap_eq_nil_iff.mp quiet _ member
  cases none

theorem replied_last {f : ProtoFrame} {finished todo before : List Effect}
    (effects_eq : finished ++ todo = before ++ [inProgressReply f]) (quiet : sends before = [])
    (sent : inProgressReply f ∈ finished) : todo = [] := by
  by_contra more
  obtain ⟨rest, last, split⟩ := (List.eq_nil_or_concat todo).resolve_left more
  rw [split, List.concat_eq_append, ← List.append_assoc] at effects_eq
  have early := (List.append_inj' effects_eq rfl).1
  exact inProgressReply_not_mem f before quiet (early ▸ List.mem_append_left rest sent)

/-- With a worker under way, the answer was sent exactly when the dispatcher is done. -/
theorem TaskInv.replied_iff {t : Task} {log : List Record} (inv : TaskInv t log)
    (busy : spawned (doneBy .dispatcher log) ≠ []) :
    inProgressReply t.frame ∈ doneBy .dispatcher log ↔ t.todo = [] := by
  obtain ⟨before, job, effects_eq, _, _, quiet⟩ := inv.started busy
  refine ⟨replied_last effects_eq quiet, fun finished => ?_⟩
  rw [finished, List.append_nil] at effects_eq
  rw [effects_eq]
  exact List.mem_append_right before List.mem_cons_self

def Phase.finished : Phase → Prop
  | .waiting => False
  | .running left => left = []

def Task.finished (t : Task) : Prop := ∃ w, t.worker = some w ∧ w.phase.finished

theorem JobFor.complete {f : ProtoFrame} {p : Pending} {job : Job} (belongs : JobFor f p job)
    (call : CallResult) : CompletePushes f (sends (workerEffects call job)) := by
  cases belongs with
  | connect command staged =>
      rw [workerEffects, sends_wifiConnectWorker]
      exact .connect command _
  | scan command =>
      obtain ⟨payloads, chunks, list, sent⟩ := sends_wifiScanWorker call.scan f.seq
      rw [workerEffects, sent]
      exact .scan command _ payloads chunks list (delivers_countP_endsList list)

theorem TaskInv.job {t : Task} {log : List Record} (inv : TaskInv t log)
    (busy : spawned (doneBy .dispatcher log) ≠ []) :
    ∃ job, spawned (doneBy .dispatcher log) = [job] ∧ JobFor t.frame t.staged job := by
  obtain ⟨before, job, effects_eq, belongs, one, _⟩ := inv.started busy
  have total : spawned (doneBy .dispatcher log) ++ spawned t.todo = [job] := by
    rw [← spawned_append, effects_eq, spawned_append, one]
    rfl
  rcases List.append_eq_singleton_iff.mp total with later | now
  · exact absurd later.1 busy
  · exact ⟨job, now.1, belongs⟩

/-- An answer of IN_PROGRESS means that the worker of the request was started. -/
theorem TaskInv.in_progress {t : Task} {log : List Record} (inv : TaskInv t log)
    (answered : inProgressReply t.frame ∈ doneBy .dispatcher log) :
    spawned (doneBy .dispatcher log) ≠ [] := by
  have plan := inv.plan
  generalize effects_eq : doneBy .dispatcher log ++ t.todo = effects at plan
  cases plan with
  | final effects alone other =>
      exact absurd (effects_eq ▸ List.mem_append_left t.todo answered) other
  | start before job belongs one quiet =>
      have finished := replied_last effects_eq quiet answered
      rw [finished, List.append_nil] at effects_eq
      rw [effects_eq, spawned_append, one]
      exact List.cons_ne_nil _ _

/-- An answer with another payload means that the request has no worker. -/
theorem TaskInv.other_reply {t : Task} {log : List Record} (inv : TaskInv t log) (payload : Bytes)
    (other : payload ≠ [ErrCode.inProgress.byte])
    (answered : Effect.send (replyWire t.frame payload) ∈ doneBy .dispatcher log) :
    spawned (doneBy .dispatcher log) = [] := by
  by_contra busy
  obtain ⟨before, job, effects_eq, _, _, quiet⟩ := inv.started busy
  have member : Effect.send (replyWire t.frame payload) ∈
      before ++ [inProgressReply t.frame] := effects_eq ▸ List.mem_append_left t.todo answered
  rcases List.mem_append.mp member with early | last
  · cases List.filterMap_eq_nil_iff.mp quiet _ early
  · exact other (replyWire_injective t.frame (Effect.send.inj (List.mem_singleton.mp last)))

def CallResult.busy : CallResult := ⟨.rk3566 ⟨false, none, false, .errUnknown⟩, none⟩

theorem WorkerInv.remaining {sink : Nat} {worker : Option Worker} {job : Job}
    {finished : List Effect} (inv : WorkerInv sink worker [job] finished) :
    ∃ call left, finished ++ left = workerEffects call job ∧
      ∀ w, worker = some w → w.phase.finished → left = [] := by
  cases inv with
  | waiting job =>
      refine ⟨.busy, _, List.nil_append _, fun w found ended => ?_⟩
      cases found
      exact ended.elim
  | running job call finished left whole =>
      refine ⟨call, left, whole, fun w found ended => ?_⟩
      cases found
      exact ended

theorem WorkerInv.did {sink : Nat} {worker : Option Worker} {job : Job} {finished : List Effect}
    {e : Effect} (inv : WorkerInv sink worker [job] finished) (member : e ∈ finished) :
    ∃ call, e ∈ workerEffects call job := by
  obtain ⟨call, left, whole, _⟩ := inv.remaining
  exact ⟨call, whole ▸ List.mem_append_left left member⟩

/-- What the worker of a request has sent so far is the start of a complete set. -/
theorem TaskInv.pushes {t : Task} {log : List Record} (inv : TaskInv t log)
    (busy : spawned (doneBy .dispatcher log) ≠ []) :
    ∃ rest, CompletePushes t.frame (sends (doneBy .worker log) ++ rest) ∧
      (t.finished → rest = []) := by
  obtain ⟨job, started, belongs⟩ := inv.job busy
  have worker := inv.worker
  rw [started] at worker
  obtain ⟨call, left, whole, ended⟩ := worker.remaining
  have complete := belongs.complete call
  rw [← whole, sends_append] at complete
  refine ⟨sends left, complete, fun finished => ?_⟩
  obtain ⟨w, found, last⟩ := finished
  rw [ended w found last]
  rfl

end WfyApp.RequestTask
