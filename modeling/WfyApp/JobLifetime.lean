import WfyApp.StagedNetwork

/-! The job object that a dispatcher hands to its worker: the worker frees it as its last
step, and the dispatcher must not use it afterwards (proto_dispatch.c). Its allocation
and the writes to its fields come before the thread is created, so they precede all
steps of the worker. -/

namespace WfyApp.JobLifetime
open ProtoCodec ProtoDispatch RequestTask StepSystem DispatchThreads

def touchesJob (record : Record) : Prop :=
  record.origin = .dispatcher ∧ (record.effect = .readJob ∨ record.effect = .freeJob)

def freesJob (record : Record) : Prop := record.origin = .worker ∧ record.effect = .freeJob

/-- The dispatcher has not used the request's job after the worker freed it. -/
def JobSafeAt (s : Threads) (r : Nat) : Prop :=
  (s.log r).Pairwise fun earlier later => freesJob earlier → ¬ touchesJob later

def JobsSafe (s : Threads) : Prop := ∀ r, JobSafeAt s r

def touchesNext (t : Task) : Prop :=
  t.todo.head? = some .readJob ∨ t.todo.head? = some .freeJob

def JobPresent (s : Threads) : Label → Prop
  | .act r .dispatch =>
      ∀ t, s.tasks[r]? = some t → touchesNext t → ∀ record ∈ s.log r, ¬ freesJob record
  | _ => True

theorem jobSafe_concat (log : List Record) (last : Record) :
    (log ++ [last]).Pairwise (fun earlier later => freesJob earlier → ¬ touchesJob later) ↔
      log.Pairwise (fun earlier later => freesJob earlier → ¬ touchesJob later) ∧
        (touchesJob last → ∀ record ∈ log, ¬ freesJob record) := by
  rw [List.pairwise_append]
  simp only [List.pairwise_singleton, List.mem_singleton, forall_eq, true_and]
  exact and_congr_right fun _ => ⟨fun all touches record member frees =>
    all record member frees touches, fun all record member frees touches =>
    all touches record member frees⟩

theorem jobSafeAt_acted {s s' : Threads} {r : Nat} {action : Action} {t t' : Task}
    {records : List Record} (found : s.tasks[r]? = some t)
    (act : t.act action = some (t', records)) (log : s'.log r = s.log r ++ records) :
    JobSafeAt s' r ↔ JobSafeAt s r ∧ JobPresent s (.act r action) := by
  rw [JobSafeAt, JobSafeAt, log]
  rcases t.act_cases t' action records act with ⟨e, rest, rfl, todo, rfl, rfl⟩ |
    ⟨call, sink, job, rfl, worker, rfl, rfl⟩ | ⟨sink, job, e, rest, rfl, worker, rfl, rfl⟩
  · have touches : touchesJob ⟨t.sink, .dispatcher, e⟩ ↔ touchesNext t := by
      simp [touchesJob, touchesNext, todo]
    rw [jobSafe_concat, touches, JobPresent]
    simp only [found, Option.some.injEq, forall_eq']
  · simp [JobPresent]
  · have other : ¬ touchesJob ⟨sink, .worker, e⟩ := fun touches => Origin.noConfusion touches.1
    rw [jobSafe_concat]
    simp [other, JobPresent]

theorem jobsSafe_step {s s' : Threads} {l : Label} (inv : Inv s) (h : step s l = some s') :
    JobsSafe s' ↔ JobsSafe s ∧ JobPresent s l := by
  refine forall_request_step h ?_ ?_ ?_ ?_
  · intro r _ log
    rw [JobSafeAt, JobSafeAt, log]
  · intro r absent log
    rw [JobSafeAt, JobSafeAt, log, inv.fresh r absent]
    exact ⟨.nil, .nil⟩
  · intro r action t t' records found act _ log
    exact jobSafeAt_acted found act log
  · intro sink frame o
    trivial

/-- What the dispatcher has done for a request and still has to do is what handling its
frame comes to. -/
def Planned (s : Threads) : Prop :=
  ∀ r t, s.tasks[r]? = some t →
    ∃ o, doneBy .dispatcher (s.log r) ++ t.todo = (handleProtoFrame o t.frame t.staged).2

theorem planned_step {s s' : Threads} {l : Label} (inv : Inv s) (planned : Planned s)
    (h : step s l = some s') : Planned s' := by
  intro r t present
  cases step_request s s' l h r with
  | same task log other =>
      rw [log]
      exact planned r t (task ▸ present)
  | received sink frame o label empty task log =>
      obtain rfl : newTask s sink frame o = t := Option.some.inj (task.symm.trans present)
      rw [log, inv.fresh r empty]
      exact ⟨o, rfl⟩
  | acted action before after records label found act task log =>
      obtain rfl : after = t := Option.some.inj (task.symm.trans present)
      obtain ⟨o, whole⟩ := planned r before found
      refine ⟨o, ?_⟩
      rw [log]
      rcases before.act_cases after action records act with ⟨e, rest, rfl, todo, rfl, rfl⟩ |
        ⟨call, sink, job, rfl, worker, rfl, rfl⟩ | ⟨sink, job, e, rest, rfl, worker, rfl, rfl⟩
      · rw [doneBy_concat_own (s.log r) ⟨before.sink, .dispatcher, e⟩, List.append_assoc]
        rw [todo] at whole
        exact whole
      · rw [List.append_nil]
        exact whole
      · rw [doneBy_concat_other (s.log r) ⟨sink, .worker, e⟩ .dispatcher Origin.noConfusion]
        exact whole

theorem planned_initial : Planned .initial := by
  intro r t found
  simp [Threads.initial] at found

theorem planned_reached (labels : List Label) (s : Threads)
    (reached : exec step .initial labels = some s) : Planned s := by
  have both : Inv s ∧ Planned s := by
    refine exec_induction step .initial (fun s => Inv s ∧ Planned s)
      ⟨inv_initial, planned_initial⟩ ?_ labels s reached
    intro s l s' both h
    exact ⟨both.1.step h, planned_step both.1 both.2 h⟩
  exact both.2

/-- The two uses of the job in a plan: it is read only for a CONNECT, and freed by the
dispatcher only if no worker is started. -/
structure JobUses (f : ProtoFrame) (effects : List Effect) : Prop where
  read : .readJob ∈ effects → NetCommand.ofByte f.commandId = some .connect
  freed : .freeJob ∈ effects → spawned effects = []

theorem jobUses_handled {f : ProtoFrame} {p : Pending} {effects : List Effect}
    (handled : Handled f p effects) : JobUses f effects := by
  cases handled with
  | answer before payload quiet pos small final =>
      have alone : spawned (before ++ [.send (replyWire f payload)]) = [] := by
        rw [spawned_append, spawned_quiet before quiet]
        rfl
      refine ⟨fun member => ?_, fun _ => alone⟩
      rcases List.mem_append.mp member with early | last
      · exact (quiet _ early).elim
      · cases List.mem_singleton.mp last
  | connect network command staged => exact ⟨fun _ => command, fun member => by simp at member⟩
  | scan network command => exact ⟨fun member => by simp at member, fun member => by simp at member⟩

theorem handleProtoFrame_jobUses (o : Outcomes) (f : ProtoFrame) (p : Pending) :
    JobUses f (handleProtoFrame o f p).2 := by
  by_cases req : f.type = protoTypeReq
  · exact jobUses_handled (handleProtoFrame_handled o f p req)
  · rw [handleProtoFrame_not_req o f p req]
    exact ⟨fun member => (List.not_mem_nil member).elim, fun _ => rfl⟩

theorem mem_doneBy {origin : Origin} {effect : Effect} {log : List Record} {record : Record}
    (member : record ∈ log) (own : record.origin = origin) (did : record.effect = effect) :
    effect ∈ doneBy origin log :=
  List.mem_map.mpr ⟨record, List.mem_filter.mpr ⟨member, by simpa using own⟩, did⟩

theorem jobSafeAt_of_not_connect {s : Threads} {r : Nat} {t : Task} (inv : Inv s)
    (planned : Planned s) (found : s.tasks[r]? = some t)
    (other : NetCommand.ofByte t.frame.commandId ≠ some .connect) : JobSafeAt s r := by
  obtain ⟨o, whole⟩ := planned r t found
  have uses := handleProtoFrame_jobUses o t.frame t.staged
  rw [← whole] at uses
  refine List.pairwise_of_forall_mem_list fun earlier before later after frees touches => ?_
  have did : Effect.freeJob ∈ doneBy .dispatcher (s.log r) := by
    rcases touches.2 with reads | freed
    · exact absurd (uses.read (List.mem_append_left _ (mem_doneBy after touches.1 reads))) other
    · exact mem_doneBy after touches.1 freed
  have alone := uses.freed (List.mem_append_left _ did)
  rw [spawned_append] at alone
  have idle := (inv.tasks r t found).no_worker (List.append_eq_nil_iff.mp alone).1
  have worked := mem_doneBy before frees.1 frees.2
  rw [idle] at worked
  cases worked

section Schedule

def ConnectEnds (t : Task) : Prop :=
  ∃ sink seq ssid passwd e, t.worker = some ⟨sink, .connect seq ssid passwd, .running [e]⟩

def ConnectEnded (t : Task) : Prop :=
  ∃ sink seq ssid passwd, t.worker = some ⟨sink, .connect seq ssid passwd, .running []⟩

/-- `trigger_wifi_connect` has returned: at most the reply is left to the dispatcher. -/
def TriggerReturned (t : Task) : Prop := t.todo.length ≤ 1

/-- A CONNECT worker takes its last step only after the call that started it has returned. -/
def EndsLast (s : Threads) : Label → Prop
  | .act r .work => ∀ t, s.tasks[r]? = some t → ConnectEnds t → TriggerReturned t
  | _ => True

def AllHandled (s : Threads) : Prop :=
  ∀ (r : Nat) (t : Task), s.tasks[r]? = some t → t.todo = []

theorem freeJob_notMem_sendProtoPush (seq cmdset command : UInt8) (payload : ByteText.Bytes) :
    Effect.freeJob ∉ sendProtoPush seq cmdset command payload := by
  rw [sendProtoPush, sendProtoFrame]
  split <;> simp

theorem workerEffects_freeJob (call : CallResult) (job : Job) :
    ∃ body, workerEffects call job = body ++ [.freeJob] ∧ .freeJob ∉ body := by
  cases job with
  | connect seq ssid passwd =>
      refine ⟨_, List.append_cons _ _ _, ?_⟩
      simp only [List.mem_append, List.mem_map, List.mem_singleton, not_or]
      refine ⟨⟨⟨?_, ?_⟩, freeJob_notMem_sendProtoPush _ _ _ _⟩, by simp⟩
      · simp
      · split_ifs <;> simp
  | scan seq =>
      refine ⟨_, List.append_cons _ _ _, ?_⟩
      simp only [List.mem_append, List.mem_flatMap, List.mem_singleton, not_or, not_exists, not_and]
      exact ⟨fun payload _ => freeJob_notMem_sendProtoPush _ _ _ payload, by simp⟩

theorem freeJob_mem_iff {sink : Nat} {worker : Option Worker} {jobs : List Job}
    {finished : List Effect} (inv : WorkerInv sink worker jobs finished) :
    .freeJob ∈ finished ↔ ∃ sink job, worker = some ⟨sink, job, .running []⟩ := by
  cases inv with
  | idle => simp
  | waiting job => simp
  | running job call finished left whole =>
      obtain ⟨body, effects, absent⟩ := workerEffects_freeJob call job
      rw [effects] at whole
      cases left using List.reverseRecOn with
      | nil =>
          rw [List.append_nil] at whole
          exact iff_of_true (by simp [whole]) ⟨sink, job, rfl⟩
      | append_singleton left last =>
          rw [← List.append_assoc] at whole
          have before := (List.append_inj' whole rfl).1
          refine iff_of_false (fun member => absent ?_) (by simp)
          rw [← before]
          exact List.mem_append_left _ member

theorem freed_iff_ended {t : Task} {log : List Record} (inv : TaskInv t log) :
    (∃ record ∈ log, freesJob record) ↔ ∃ sink job, t.worker = some ⟨sink, job, .running []⟩ := by
  rw [← freeJob_mem_iff inv.worker]
  constructor
  · rintro ⟨record, member, own, did⟩
    exact mem_doneBy member own did
  · intro member
    obtain ⟨record, kept, did⟩ := List.mem_map.mp member
    obtain ⟨inside, own⟩ := List.mem_filter.mp kept
    exact ⟨record, inside, by simpa using own, did⟩

theorem todo_of_handled {f : ProtoFrame} {p : Pending} {did todo effects : List Effect}
    {job : Job} (handled : Handled f p effects) (whole : did ++ todo = effects)
    (jobs : spawned did = [job]) :
    ∃ wire, (todo = [.readJob, .send wire] ∧ ∃ seq ssid passwd, job = .connect seq ssid passwd) ∨
      todo = [.send wire] ∨ todo = [] := by
  have more := congrArg spawned whole
  rw [spawned_append, jobs] at more
  cases handled with
  | answer before payload quiet pos small final =>
      rw [spawned_append, spawned_quiet before quiet] at more
      cases more
  | scan network command =>
      refine ⟨replyWire f [ErrCode.inProgress.byte], .inr ?_⟩
      rcases did with _ | ⟨first, _ | ⟨second, _ | ⟨third, rest⟩⟩⟩
      · cases jobs
      · cases whole
        cases jobs
      · cases whole
        exact .inl rfl
      · have tails : rest = [] ∧ todo = [] := by simpa using congrArg (List.drop 3) whole
        exact .inr tails.2
  | connect network command staged =>
      obtain rfl : job = .connect f.seq p.ssid p.passwd := (List.cons.inj more).1
      refine ⟨replyWire f [ErrCode.inProgress.byte], ?_⟩
      rcases did with _ | ⟨first, _ | ⟨second, _ | ⟨third, _ | ⟨fourth, rest⟩⟩⟩⟩
      · cases jobs
      · cases whole
        cases jobs
      · cases whole
        exact .inl ⟨rfl, _, _, _, rfl⟩
      · cases whole
        exact .inr (.inl rfl)
      · have tails : rest = [] ∧ todo = [] := by simpa using congrArg (List.drop 4) whole
        exact .inr (.inr tails.2)

theorem todo_of_worker {s : Threads} {r : Nat} {t : Task} {w : Worker} (inv : Inv s)
    (planned : Planned s) (found : s.tasks[r]? = some t) (worker : t.worker = some w) :
    ∃ wire,
      (t.todo = [.readJob, .send wire] ∧ ∃ seq ssid passwd, w.job = .connect seq ssid passwd) ∨
        t.todo = [.send wire] ∨ t.todo = [] := by
  have started := (inv.tasks r t found).worker
  obtain ⟨o, whole⟩ := planned r t found
  rw [worker] at started
  by_cases req : t.frame.type = protoTypeReq
  · exact todo_of_handled (handleProtoFrame_handled o t.frame t.staged req) whole started.jobs_eq
  · rw [handleProtoFrame_not_req o t.frame t.staged req] at whole
    have jobs := started.jobs_eq
    rw [(List.append_eq_nil_iff.mp whole).1] at jobs
    cases jobs

def EndedLast (s : Threads) : Prop :=
  ∀ (r : Nat) (t : Task), s.tasks[r]? = some t → ConnectEnded t → TriggerReturned t

theorem endedLast_initial : EndedLast .initial := by
  intro r t found
  simp [Threads.initial] at found

theorem endedLast_step {s s' : Threads} {l : Label} (h : step s l = some s') (met : EndsLast s l)
    (kept : EndedLast s) : EndedLast s' := by
  intro r t present ended
  obtain ⟨sink, seq, ssid, passwd, worker⟩ := ended
  cases step_request s s' l h r with
  | same task log other => exact kept r t (task ▸ present) ⟨sink, seq, ssid, passwd, worker⟩
  | received sink frame o label empty task log =>
      obtain rfl : newTask s sink frame o = t := Option.some.inj (task.symm.trans present)
      cases worker
  | acted action before after records label found act task log =>
      obtain rfl : after = t := Option.some.inj (task.symm.trans present)
      subst label
      rcases before.act_cases after action records act with ⟨e, rest, rfl, todo, rfl, rfl⟩ |
        ⟨call, sink, job, rfl, waiting, rfl, rfl⟩ | ⟨sink, job, e, rest, rfl, running, rfl, rfl⟩
      · have earlier : before.worker = some ⟨sink, .connect seq ssid passwd, .running []⟩ := by
          cases e with
          | spawn job => cases worker
          | send | retain | release | readJob | freeJob | join | persist => exact worker
        have short : before.todo.length ≤ 1 := kept r before found ⟨_, _, _, _, earlier⟩
        rw [todo, List.length_cons] at short
        exact Nat.le_of_lt short
      · obtain ⟨body, effects, -⟩ := workerEffects_freeJob call job
        rw [effects] at worker
        simp at worker
      · cases worker
        exact met before found ⟨_, _, _, _, _, running⟩

theorem jobPresent_of_endedLast {s : Threads} (inv : Inv s) (planned : Planned s)
    (kept : EndedLast s) (l : Label) : JobPresent s l := by
  cases l with
  | receive sink frame o => trivial
  | act r action =>
      cases action with
      | callReturns call => trivial
      | work => trivial
      | dispatch =>
          intro t found touches record member frees
          obtain ⟨sink, job, worker⟩ :=
            (freed_iff_ended (inv.tasks r t found)).mp ⟨record, member, frees⟩
          obtain ⟨wire, ⟨todo, seq, ssid, passwd, rfl⟩ | todo | todo⟩ :=
            todo_of_worker inv planned found worker
          · have short : t.todo.length ≤ 1 := kept r t found ⟨_, _, _, _, worker⟩
            rw [todo] at short
            cases short with | step impossible => cases impossible
          · simp [touchesNext, todo] at touches
          · simp [touchesNext, todo] at touches

/-- The dispatcher reads the job of the request, or will, after the worker freed it. -/
def ReadsLate (s : Threads) (r : Nat) : Prop :=
  ¬JobSafeAt s r ∨
    (∃ record ∈ s.log r, freesJob record) ∧ ∃ t : Task, s.tasks[r]? = some t ∧ .readJob ∈ t.todo

theorem readsLate_step {s s' : Threads} {l : Label} {r : Nat} (h : step s l = some s')
    (late : ReadsLate s r) : ReadsLate s' r := by
  cases step_request s s' l h r with
  | same task log other =>
      rw [ReadsLate, JobSafeAt, log, task]
      exact late
  | received sink frame o label empty task log =>
      rcases late with unsafeAt | ⟨-, t, found, -⟩
      · refine .inl ?_
        rw [JobSafeAt, log]
        exact unsafeAt
      · cases empty.symm.trans found
  | acted action before after records label found act task log =>
      rcases late with unsafeAt | ⟨⟨record, member, frees⟩, t, present, reads⟩
      · exact .inl fun safe => unsafeAt ((jobSafeAt_acted found act log).mp safe).1
      · obtain rfl : before = t := Option.some.inj (found.symm.trans present)
        have freed : ∃ record ∈ s'.log r, freesJob record :=
          ⟨record, log ▸ List.mem_append_left records member, frees⟩
        rcases before.act_cases after action records act with ⟨e, rest, rfl, todo, rfl, rfl⟩ |
          ⟨call, sink, job, rfl, waiting, rfl, rfl⟩ | ⟨sink, job, e, rest, rfl, running, rfl, rfl⟩
        · rw [todo] at reads
          rcases List.mem_cons.mp reads with rfl | later
          · refine .inl fun safe => ?_
            have touches : touchesNext before := .inl (by rw [todo]; rfl)
            exact ((jobSafeAt_acted found act log).mp safe).2 before found touches record member frees
          · exact .inr ⟨freed, _, task, later⟩
        · exact .inr ⟨freed, _, task, reads⟩
        · exact .inr ⟨freed, _, task, reads⟩

theorem readsLate_of_not_endsLast {s s' : Threads} {l : Label} (inv : Inv s) (planned : Planned s)
    (h : step s l = some s') (early : ¬EndsLast s l) : ∃ r, ReadsLate s' r := by
  cases l with
  | receive sink frame o => exact absurd trivial early
  | act r action =>
      cases action with
      | dispatch => exact absurd trivial early
      | callReturns call => exact absurd trivial early
      | work =>
          simp only [EndsLast, not_forall] at early
          obtain ⟨t, found, ⟨sink, seq, ssid, passwd, e, worker⟩, inside⟩ := early
          refine ⟨r, .inr ?_⟩
          cases step_request s s' _ h r with
          | same task log other => exact absurd rfl (other .work)
          | received sink frame o label empty task log => cases label
          | acted action before after records label found' act task log =>
              cases label
              obtain rfl : before = t := Option.some.inj (found'.symm.trans found)
              have acted : before.act .work =
                  some ({ before with worker := some ⟨sink, .connect seq ssid passwd, .running []⟩ },
                    [⟨sink, .worker, e⟩]) := by
                simp only [Task.act, worker]
              cases acted.symm.trans act
              have ended := freed_iff_ended ((inv.step h).tasks r _ task)
              refine ⟨ended.mpr ⟨sink, _, rfl⟩, _, task, ?_⟩
              obtain ⟨wire, ⟨todo, -⟩ | todo | todo⟩ := todo_of_worker inv planned found worker
              · simp [todo]
              · exact absurd (by rw [TriggerReturned, todo]; rfl) inside
              · exact absurd (by rw [TriggerReturned, todo]; exact Nat.zero_le 1) inside

/-- No dispatcher uses a job after its worker freed it if in the run every CONNECT worker takes
its last step after `trigger_wifi_connect` has returned; and only then, once all dispatchers are
done. Requests other than CONNECT are safe in every run. -/
theorem jobsSafe_iff (labels : List Label) (s : Threads)
    (reached : exec step .initial labels = some s) :
    (StepsMeet step EndsLast .initial labels → JobsSafe s) ∧
      (AllHandled s → JobsSafe s → StepsMeet step EndsLast .initial labels) ∧
      ∀ r t, s.tasks[r]? = some t → NetCommand.ofByte t.frame.commandId ≠ some .connect →
        JobSafeAt s r := by
  refine ⟨fun meets => ?_, fun handled safe => ?_, fun r t found other => ?_⟩
  · have kept := exec_of_stepsMeet step
      (fun s => (Inv s ∧ Planned s) ∧ EndedLast s ∧ JobsSafe s) EndsLast ?_ labels .initial s
      ⟨⟨inv_initial, planned_initial⟩, endedLast_initial, fun r => List.Pairwise.nil⟩ meets reached
    · exact kept.2.2
    · rintro s l t met ⟨⟨inv, planned⟩, ended, safe⟩ h
      have present := jobPresent_of_endedLast inv planned ended l
      exact ⟨⟨inv.step h, planned_step inv planned h⟩, endedLast_step h met ended,
        (jobsSafe_step inv h).mpr ⟨safe, present⟩⟩
  · refine stepsMeet_of_not_lost step (fun s => Inv s ∧ Planned s) (fun s => ∃ r, ReadsLate s r)
      EndsLast (fun s l t both h => ⟨both.1.step h, planned_step both.1 both.2 h⟩) ?_ ?_ labels
      .initial s ⟨inv_initial, planned_initial⟩ reached ?_
    · rintro s l t - ⟨r, late⟩ h
      exact ⟨r, readsLate_step h late⟩
    · exact fun s l t both h early => readsLate_of_not_endsLast both.1 both.2 h early
    · rintro ⟨r, unsafeAt | ⟨-, t, found, reads⟩⟩
      · exact unsafeAt (safe r)
      · rw [handled r t found] at reads
        cases reads
  · exact jobSafeAt_of_not_connect (inv_reached labels s reached) (planned_reached labels s reached)
      found other

end Schedule

def fastWorker : List Label :=
  connectStarted ++ [.act 1 (.callReturns .busy), .act 1 .work, .act 1 .work, .act 1 .work,
    .act 1 .dispatch]

def triggerFirst : List Label :=
  connectStarted ++ [.act 1 .dispatch, .act 1 (.callReturns .busy), .act 1 .work, .act 1 .work,
    .act 1 .work, .act 1 .dispatch]

theorem jobsSafe_iff_triggerFirst :
    ∃ s, exec step .initial triggerFirst = some s ∧
      s.log 1 = [⟨0, .dispatcher, .retain⟩,
        ⟨0, .dispatcher, .spawn (.connect 2 (ByteText.ascii "cafe") [])⟩,
        ⟨0, .dispatcher, .readJob⟩,
        ⟨0, .worker, .send (pushWire 2 .pushResult [ErrCode.unknown.byte])⟩,
        ⟨0, .worker, .release⟩, ⟨0, .worker, .freeJob⟩,
        ⟨0, .dispatcher, inProgressReply connectRequest⟩] ∧
      JobsSafe s ∧ StepsMeet step EndsLast .initial triggerFirst := by
  have ends : ∃ s, exec step .initial triggerFirst = some s ∧
      s.log 1 = [⟨0, .dispatcher, .retain⟩,
        ⟨0, .dispatcher, .spawn (.connect 2 (ByteText.ascii "cafe") [])⟩,
        ⟨0, .dispatcher, .readJob⟩,
        ⟨0, .worker, .send (pushWire 2 .pushResult [ErrCode.unknown.byte])⟩,
        ⟨0, .worker, .release⟩, ⟨0, .worker, .freeJob⟩,
        ⟨0, .dispatcher, inProgressReply connectRequest⟩] ∧
      ∃ first second : Task, s.tasks = [first, second] ∧ first.todo = [] ∧ second.todo = [] ∧
        first.frame.commandId = NetCommand.ssid.byte :=
    ⟨_, rfl, by decide, _, _, rfl, rfl, rfl, rfl⟩
  obtain ⟨s, reached, log, first, second, tasks, done, done', command⟩ := ends
  have handled : AllHandled s := by
    intro r t found
    have member := List.mem_of_getElem? found
    rw [tasks] at member
    rcases List.mem_cons.mp member with rfl | last
    · exact done
    · rw [List.mem_singleton.mp last]
      exact done'
  obtain ⟨-, needed, others⟩ := jobsSafe_iff triggerFirst s reached
  have safe : JobsSafe s := by
    intro r
    match r with
    | 0 => exact others 0 first (by rw [tasks]; rfl) (by rw [command]; decide)
    | 1 =>
        rw [JobSafeAt, log]
        simp [freesJob, touchesJob, inProgressReply]
    | r + 2 =>
        have absent : s.tasks[r + 2]? = none := by simp [tasks]
        rw [JobSafeAt, (inv_reached triggerFirst s reached).fresh _ absent]
        exact .nil
  exact ⟨s, reached, log, safe, needed handled safe⟩

/-- The dispatcher reads the name from a job that its worker has freed. -/
theorem job_read_after_free :
    ∃ s, exec step .initial fastWorker = some s ∧
      s.log 1 = [⟨0, .dispatcher, .retain⟩,
        ⟨0, .dispatcher, .spawn (.connect 2 (ByteText.ascii "cafe") [])⟩,
        ⟨0, .worker, .send (pushWire 2 .pushResult [ErrCode.unknown.byte])⟩,
        ⟨0, .worker, .release⟩, ⟨0, .worker, .freeJob⟩, ⟨0, .dispatcher, .readJob⟩] ∧
      ¬ JobsSafe s := by
  have ends : ∃ s, exec step .initial fastWorker = some s ∧
      s.log 1 = [⟨0, .dispatcher, .retain⟩,
        ⟨0, .dispatcher, .spawn (.connect 2 (ByteText.ascii "cafe") [])⟩,
        ⟨0, .worker, .send (pushWire 2 .pushResult [ErrCode.unknown.byte])⟩,
        ⟨0, .worker, .release⟩, ⟨0, .worker, .freeJob⟩, ⟨0, .dispatcher, .readJob⟩] :=
    ⟨_, rfl, by decide⟩
  obtain ⟨s, reached, log⟩ := ends
  refine ⟨s, reached, log, fun safe => ?_⟩
  have pairs := safe 1
  rw [JobSafeAt, log] at pairs
  have late := List.pairwise_iff_getElem.mp pairs 4 5 (by decide) (by decide) (by decide)
  exact late ⟨rfl, rfl⟩ ⟨rfl, .inl rfl⟩

end WfyApp.JobLifetime
