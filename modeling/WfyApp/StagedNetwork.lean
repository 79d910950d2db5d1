import WfyApp.DispatchThreads

/-! The network that a CONNECT joins, against the SSID and PASSWD frames received before
it from all clients. The store keeps a payload with its length; the job hands it on as
a C string. -/

namespace WfyApp.StagedNetwork
open ByteText ProtoCodec ProtoDispatch WifiSwitch RequestTask StepSystem DispatchThreads

/-- The payload a frame puts into the store, if it is a request for the given command
and of an accepted length. -/
def accepted (command : NetCommand) (longest : Nat) (f : ProtoFrame) : Option Bytes :=
  if f.type = protoTypeReq ∧ f.commandSet = protoCmdsetNetwork ∧
      NetCommand.ofByte f.commandId = some command ∧
      f.payload ≠ [] ∧ f.payload.length ≤ longest then some f.payload
  else none

def acceptedSsid : ProtoFrame → Option Bytes := accepted .ssid wifiSsidMax

def acceptedPasswd : ProtoFrame → Option Bytes := accepted .passwd wifiPasswdMax

/-- The most recently accepted payloads. -/
def staged (frames : List ProtoFrame) : Bytes × Bytes :=
  (latest acceptedSsid [] frames, latest acceptedPasswd [] frames)

def IsStaging (f : ProtoFrame) : Prop :=
  NetCommand.ofByte f.commandId = some .ssid ∨ NetCommand.ofByte f.commandId = some .passwd

def noneReply (f : ProtoFrame) : List Effect := [.send (replyWire f [ErrCode.none.byte])]

/-- Everything that handling a frame can do to the store, with its answer. -/
inductive Stores (f : ProtoFrame) (p : Pending) : Pending × List Effect → Prop where
  | keeps (effects : List Effect) (no_ssid : acceptedSsid f = none)
      (no_passwd : acceptedPasswd f = none) (rejected : IsStaging f → effects ≠ noneReply f) :
      Stores f p (p, effects)
  | ssid (p' : Pending) (new : acceptedSsid f = some p'.ssid) (no_passwd : acceptedPasswd f = none)
      (kept : p'.passwd = p.passwd) : Stores f p (p', noneReply f)
  | passwd (p' : Pending) (no_ssid : acceptedSsid f = none)
      (new : acceptedPasswd f = some p'.passwd) (kept : p'.ssid = p.ssid) :
      Stores f p (p', noneReply f)

theorem accepted_other {command : NetCommand} (longest : Nat) {f : ProtoFrame}
    (other : NetCommand.ofByte f.commandId ≠ some command) : accepted command longest f = none :=
  if_neg fun all => other all.2.2.1

theorem accepted_range (command : NetCommand) (longest : Nat) (f : ProtoFrame)
    (req : f.type = protoTypeReq) (network : f.commandSet = protoCmdsetNetwork)
    (found : NetCommand.ofByte f.commandId = some command) :
    accepted command longest f =
      if f.msgLen.toNat = 0 ∨ f.msgLen.toNat > longest then none else some f.payload := by
  have length := f.payload_length
  have empty : f.payload = [] ↔ f.msgLen.toNat = 0 := by
    rw [← length]
    exact List.length_eq_zero_iff.symm
  by_cases range : f.msgLen.toNat = 0 ∨ f.msgLen.toNat > longest
  · rw [if_pos range, accepted, if_neg]
    intro all
    rcases range with zero | long
    · exact all.2.2.2.1 (empty.mpr zero)
    · exact absurd all.2.2.2.2 (by omega)
  · rw [if_neg range, accepted, if_pos]
    refine ⟨req, network, found, fun none => range (.inl (empty.mp none)), by omega⟩

theorem sendProtoResponse_none {f : ProtoFrame} (network : f.commandSet = protoCmdsetNetwork) :
    sendProtoResponse f.seq protoCmdsetNetwork f.commandId .none = noneReply f := by
  rw [← network]
  exact sendProtoResponse_eq f .none

theorem errcode_reply_ne {f : ProtoFrame} {errcode : ErrCode} (other : errcode ≠ .none) :
    sendProtoResponse f.seq f.commandSet f.commandId errcode ≠ noneReply f := by
  rw [sendProtoResponse_eq]
  intro same
  have payloads := replyWire_injective f (Effect.send.inj (List.singleton_inj.mp same))
  revert payloads
  cases errcode <;> first | exact absurd rfl other | decide

/-- Only the two staging commands write to the store. -/
theorem handleProtoFrame_keeps (o : Outcomes) (f : ProtoFrame) (p : Pending)
    (other : ¬ IsStaging f) : (handleProtoFrame o f p).1 = p := by
  by_cases req : f.type = protoTypeReq
  · rw [handleProtoFrame, if_neg (not_not.mpr req)]
    by_cases network : f.commandSet = protoCmdsetNetwork
    · rw [if_neg (not_not.mpr network)]
      split
      · rfl
      · rfl
      · rename_i command
        exact absurd (.inl command) other
      · rename_i command
        exact absurd (.inr command) other
      · rfl
      · split
        · split_ifs <;> rfl
        · rfl
      · rfl
      · split <;> rfl
      · rfl
      · rfl
      · rfl
      · rfl
    · rw [if_pos network]
  · rw [handleProtoFrame_not_req o f p req]

theorem handleProtoFrame_ssid (o : Outcomes) (f : ProtoFrame) (p : Pending)
    (req : f.type = protoTypeReq) (network : f.commandSet = protoCmdsetNetwork)
    (command : NetCommand.ofByte f.commandId = some .ssid) :
    Stores f p (handleProtoFrame o f p) := by
  have no_passwd : acceptedPasswd f = none := accepted_other _ (by rw [command]; decide)
  have range_eq := accepted_range .ssid wifiSsidMax f req network command
  simp only [handleProtoFrame, req, network, command, ne_eq, not_true_eq_false, if_false]
  split_ifs with range
  · rw [if_pos range] at range_eq
    refine .keeps _ range_eq no_passwd fun _ => ?_
    exact network ▸ errcode_reply_ne (by decide)
  · rw [if_neg range] at range_eq
    rw [sendProtoResponse_none network]
    exact .ssid _ range_eq no_passwd rfl

theorem handleProtoFrame_passwd (o : Outcomes) (f : ProtoFrame) (p : Pending)
    (req : f.type = protoTypeReq) (network : f.commandSet = protoCmdsetNetwork)
    (command : NetCommand.ofByte f.commandId = some .passwd) :
    Stores f p (handleProtoFrame o f p) := by
  have no_ssid : acceptedSsid f = none := accepted_other _ (by rw [command]; decide)
  have range_eq := accepted_range .passwd wifiPasswdMax f req network command
  simp only [handleProtoFrame, req, network, command, ne_eq, not_true_eq_false, if_false]
  split_ifs with range
  · rw [if_pos range] at range_eq
    refine .keeps _ no_ssid range_eq fun _ => ?_
    exact network ▸ errcode_reply_ne (by decide)
  · rw [if_neg range] at range_eq
    rw [sendProtoResponse_none network]
    exact .passwd _ no_ssid range_eq rfl

theorem handleProtoFrame_stores (o : Outcomes) (f : ProtoFrame) (p : Pending) :
    Stores f p (handleProtoFrame o f p) := by
  by_cases addressed : f.type = protoTypeReq ∧ f.commandSet = protoCmdsetNetwork
  · by_cases ssid : NetCommand.ofByte f.commandId = some .ssid
    · exact handleProtoFrame_ssid o f p addressed.1 addressed.2 ssid
    by_cases passwd : NetCommand.ofByte f.commandId = some .passwd
    · exact handleProtoFrame_passwd o f p addressed.1 addressed.2 passwd
    have other : ¬ IsStaging f := fun staging => staging.elim ssid passwd
    rw [← Prod.eta (handleProtoFrame o f p), handleProtoFrame_keeps o f p other]
    exact .keeps _ (accepted_other _ ssid) (accepted_other _ passwd)
      fun staging => absurd staging other
  · have none : ∀ command longest, accepted command longest f = none :=
      fun command longest => if_neg fun all => addressed ⟨all.1, all.2.1⟩
    by_cases req : f.type = protoTypeReq
    · have elsewhere : f.commandSet ≠ protoCmdsetNetwork := fun network => addressed ⟨req, network⟩
      rw [handleProtoFrame, if_neg (not_not.mpr req), if_pos elsewhere]
      exact .keeps _ (none _ _) (none _ _) fun _ => errcode_reply_ne (by decide)
    · rw [handleProtoFrame_not_req o f p req]
      exact .keeps _ (none _ _) (none _ _) fun _ => (List.cons_ne_nil _ _).symm

theorem Stores.pair {f : ProtoFrame} {p : Pending} {result : Pending × List Effect}
    (stores : Stores f p result) :
    (result.1.ssid, result.1.passwd) =
      ((acceptedSsid f).getD p.ssid, (acceptedPasswd f).getD p.passwd) := by
  cases stores with
  | keeps effects no_ssid no_passwd rejected => rw [no_ssid, no_passwd]; rfl
  | ssid p' new no_passwd kept => rw [new, no_passwd]; exact congrArg _ kept
  | passwd p' no_ssid new kept => rw [no_ssid, new]; exact congrArg (·, p'.passwd) kept

theorem Stores.rejected_keeps {f : ProtoFrame} {p : Pending} {result : Pending × List Effect}
    (stores : Stores f p result) (rejected : result.2 ≠ noneReply f) : result.1 = p := by
  cases stores with
  | keeps effects no_ssid no_passwd _ => rfl
  | ssid p' new no_passwd kept => exact absurd rfl rejected
  | passwd p' no_ssid new kept => exact absurd rfl rejected

theorem Stores.answered_iff {f : ProtoFrame} {p : Pending} {result : Pending × List Effect}
    (stores : Stores f p result) (staging : IsStaging f) :
    result.2 = noneReply f ↔ acceptedSsid f ≠ none ∨ acceptedPasswd f ≠ none := by
  cases stores with
  | keeps effects no_ssid no_passwd rejected =>
      simp [no_ssid, no_passwd, rejected staging]
  | ssid p' new no_passwd kept => simp [new]
  | passwd p' no_ssid new kept => simp [new]

def frames (s : Threads) : List ProtoFrame := s.tasks.map Task.frame

def stagedBefore (s : Threads) (r : Nat) : Bytes × Bytes := staged ((frames s).take r)

theorem staged_concat (fs : List ProtoFrame) (f : ProtoFrame) :
    staged (fs ++ [f]) =
      ((acceptedSsid f).getD (staged fs).1, (acceptedPasswd f).getD (staged fs).2) := by
  rw [staged, latest_concat, latest_concat, staged]

/-- The store holds the latest accepted payloads, and so does each request as of the
time it was received. -/
structure StoreInv (s : Threads) : Prop where
  pending : (s.pending.ssid, s.pending.passwd) = staged (frames s)
  tasks : ∀ r t, s.tasks[r]? = some t → (t.staged.ssid, t.staged.passwd) = stagedBefore s r

theorem storeInv_initial : StoreInv .initial :=
  ⟨rfl, fun r t found => by simp [Threads.initial] at found⟩

theorem act_kept {t t' : Task} {a : Action} {records : List Record}
    (acted : t.act a = some (t', records)) : t'.frame = t.frame ∧ t'.staged = t.staged := by
  rcases t.act_cases t' a records acted with ⟨e, rest, _, _, rfl, _⟩ |
    ⟨call, sink, job, _, _, rfl, _⟩ | ⟨sink, job, e, rest, _, _, rfl, _⟩
  · exact ⟨rfl, rfl⟩
  · exact ⟨rfl, rfl⟩
  · exact ⟨rfl, rfl⟩

theorem frames_update {s : Threads} {r : Nat} {t t' : Task} (records : List Record)
    (found : s.tasks[r]? = some t) (frame : t'.frame = t.frame) :
    frames (s.update r t' records) = frames s := by
  obtain ⟨bound, rfl⟩ := List.getElem?_eq_some_iff.mp found
  rw [frames, Threads.update, List.map_set, frame, ← List.getElem_map Task.frame]
  · exact List.set_getElem_self _
  · rwa [List.length_map]

theorem StoreInv.received {s : Threads} (inv : StoreInv s) (sink : Nat) (f : ProtoFrame)
    (o : Outcomes) : StoreInv (s.receive sink f o) := by
  have grown : frames (s.receive sink f o) = frames s ++ [f] := List.map_append
  have length : (frames s).length = s.tasks.length := List.length_map _
  refine ⟨?_, fun r t found => ?_⟩
  · rw [grown, staged_concat, ← inv.pending]
    exact (handleProtoFrame_stores o f s.pending).pair
  · rw [stagedBefore, grown]
    rcases Nat.lt_trichotomy r s.tasks.length with old | new | beyond
    · rw [List.take_append_of_le_length (by omega)]
      rw [Threads.receive, List.getElem?_append_left old] at found
      exact inv.tasks r t found
    · rw [List.take_left' (by omega)]
      rw [Threads.receive, new, List.getElem?_concat_length] at found
      rw [← Option.some.inj found]
      exact inv.pending
    · rw [Threads.receive, List.getElem?_eq_none (by simp; omega)] at found
      cases found

theorem StoreInv.acted {s : Threads} (inv : StoreInv s) {r : Nat} {t t' : Task}
    {records : List Record} (found : s.tasks[r]? = some t) (frame : t'.frame = t.frame)
    (store : t'.staged = t.staged) : StoreInv (s.update r t' records) := by
  have same := frames_update records found frame
  refine ⟨by rw [same]; exact inv.pending, fun other t'' present => ?_⟩
  rw [stagedBefore, same]
  by_cases own : other = r
  · rw [own, tasks_update s r t t' records found] at present
    rw [← Option.some.inj present, store, own]
    exact inv.tasks r t found
  · rw [Threads.update, List.getElem?_set_ne (Ne.symm own)] at present
    exact inv.tasks other t'' present

theorem StoreInv.step {s s' : Threads} {l : Label} (inv : StoreInv s) (h : step s l = some s') :
    StoreInv s' := by
  cases l with
  | receive sink f o =>
      rw [DispatchThreads.step] at h
      split_ifs at h
      rw [← Option.some.inj h]
      exact inv.received sink f o
  | act r action =>
      obtain ⟨t, found, rest⟩ := Option.bind_eq_some_iff.mp h
      obtain ⟨⟨t', records⟩, acted, rfl⟩ := Option.map_eq_some_iff.mp rest
      exact inv.acted found (act_kept acted).1 (act_kept acted).2

theorem storeInv_reached (labels : List Label) (s : Threads)
    (reached : exec step .initial labels = some s) : StoreInv s :=
  exec_induction step .initial StoreInv storeInv_initial (fun _ _ _ inv h => inv.step h) labels s
    reached

theorem mem_sendProtoFrame {type seq commandSet commandId : UInt8} {payload : Bytes} {e : Effect}
    (member : e ∈ sendProtoFrame type seq commandSet commandId payload) :
    ∃ wire, e = .send wire := by
  rw [sendProtoFrame] at member
  split at member
  · exact absurd member List.not_mem_nil
  · exact ⟨_, List.mem_singleton.mp member⟩

theorem join_of_wifiConnectWorker {world : World} {seq : UInt8} {ssid passwd : Bytes}
    {credentials : Bytes × Bytes}
    (member : Effect.join credentials.1 credentials.2 ∈ wifiConnectWorker world seq ssid passwd) :
    (runNow world (cstr ssid) (cstr passwd)).join = some credentials := by
  simp only [wifiConnectWorker, List.mem_append, List.mem_map, Option.mem_toList] at member
  rcases member with ((joined | persisted) | pushed) | freed
  · obtain ⟨found, is_join, same⟩ := joined
    have parts := Effect.join.inj same
    rw [is_join, Prod.ext parts.1 parts.2]
  · split_ifs at persisted
    · cases List.mem_singleton.mp persisted
    · cases persisted
  · obtain ⟨wire, sent⟩ := mem_sendProtoFrame pushed
    cases sent
  · simp at freed

theorem join_not_mem_wifiScanWorker (scan : Option ScanPush.ScanList) (seq : UInt8)
    (ssid passwd : Bytes) : Effect.join ssid passwd ∉ wifiScanWorker scan seq := by
  intro member
  simp only [wifiScanWorker, List.mem_append, List.mem_flatMap] at member
  rcases member with pushed | freed
  · obtain ⟨payload, _, inside⟩ := pushed
    obtain ⟨wire, sent⟩ := mem_sendProtoFrame inside
    cases sent
  · simp at freed

theorem join_staged_iff {t : Task} {log : List Record} (inv : TaskInv t log)
    {credentials : Bytes × Bytes}
    (joined : Effect.join credentials.1 credentials.2 ∈ doneBy .worker log) :
    credentials = (t.staged.ssid, t.staged.passwd) ↔ 0 ∉ t.staged.ssid ∧ 0 ∉ t.staged.passwd := by
  have busy : spawned (doneBy .dispatcher log) ≠ [] := by
    intro none
    rw [inv.no_worker none] at joined
    cases joined
  obtain ⟨job, started, belongs⟩ := inv.job busy
  obtain ⟨call, member⟩ := (started ▸ inv.worker : WorkerInv _ _ [job] _).did joined
  cases belongs with
  | connect command ssid_ne =>
      exact runNow_join_staged_iff call.world _ _ ssid_ne credentials
        (join_of_wifiConnectWorker member)
  | scan command => exact absurd member (join_not_mem_wifiScanWorker _ _ _ _)

def Attempts (s : Threads) (r : Nat) (credentials : Bytes × Bytes) : Prop :=
  Effect.join credentials.1 credentials.2 ∈ doneBy .worker (s.log r)

/-- How a run treats the staged pair: each join a worker attempts uses it exactly when it
has no NUL byte; an SSID or PASSWD frame is answered NONE exactly when it is accepted,
and leaves the store alone otherwise. -/
structure Honoured (s : Threads) : Prop where
  joins : ∀ r credentials, Attempts s r credentials →
    (credentials = stagedBefore s r ↔ 0 ∉ (stagedBefore s r).1 ∧ 0 ∉ (stagedBefore s r).2)
  answered : ∀ f o, IsStaging f → ((handleProtoFrame o f s.pending).2 = noneReply f ↔
    acceptedSsid f ≠ none ∨ acceptedPasswd f ≠ none)
  rejected : ∀ sink f o s', step s (.receive sink f o) = some s' → IsStaging f →
    (handleProtoFrame o f s.pending).2 ≠ noneReply f → s'.pending = s.pending

theorem staged_pair_honoured (labels : List Label) (s : Threads)
    (reached : exec step .initial labels = some s) : Honoured s := by
  have inv := inv_reached labels s reached
  have store := storeInv_reached labels s reached
  refine ⟨fun r credentials joined => ?_, fun f o staging => ?_,
    fun sink f o s' received _ rejected => ?_⟩
  · cases found : s.tasks[r]? with
    | none =>
        rw [Attempts, inv.fresh r found] at joined
        cases joined
    | some t =>
        rw [← store.tasks r t found]
        exact join_staged_iff (inv.tasks r t found) joined
  · exact (handleProtoFrame_stores o f s.pending).answered_iff staging
  · rw [step] at received
    split_ifs at received
    rw [← Option.some.inj received]
    exact (handleProtoFrame_stores o f s.pending).rejected_keeps rejected

def inReach : CallResult := ⟨.rk3566 ⟨true, none, true, .ok⟩, none⟩

def connectRun (payload : Bytes) (short : payload.length ≤ wifiSsidMax) : List Label :=
  [.receive 0 (ssidRequest payload short) callsSucceed, .act 0 .dispatch,
    .receive 0 connectRequest callsSucceed, .act 1 .dispatch, .act 1 .dispatch, .act 1 .dispatch,
    .act 1 .dispatch, .act 1 (.callReturns inReach), .act 1 .work, .act 1 .work, .act 1 .work]

theorem staged_pair_honoured_cafe :
    ∃ s, exec step .initial (connectRun (ascii "cafe") (by decide)) = some s ∧
      Attempts s 1 (ascii "cafe", []) ∧ Honoured s := by
  have ends : ∃ s, exec step .initial (connectRun (ascii "cafe") (by decide)) = some s ∧
      Attempts s 1 (ascii "cafe", []) := ⟨_, rfl, by unfold Attempts; decide⟩
  obtain ⟨s, reached, joined⟩ := ends
  exact ⟨s, reached, joined, staged_pair_honoured _ s reached⟩

/-- The accepted name `a`, NUL, `b` is joined as `a`, and success is reported. -/
theorem join_cut_at_nul :
    ∃ s, exec step .initial (connectRun [0x61, 0x00, 0x62] (by decide)) = some s ∧
      stagedBefore s 1 = ([0x61, 0x00, 0x62], []) ∧ Attempts s 1 ([0x61], []) ∧
      ([0x61], []) ≠ stagedBefore s 1 ∧
      (0, pushWire 2 .pushResult [ErrCode.none.byte]) ∈ s.pushes 1 :=
  ⟨_, rfl, by decide, by unfold Attempts; decide, by decide, by decide⟩

end WfyApp.StagedNetwork
