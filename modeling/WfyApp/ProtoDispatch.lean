import WfyApp.ProtoCodec

/-! The frame dispatcher of system_service (proto_dispatch.c), one frame at a time.
A handler is modelled by the new pending store and by what it does in program order:
calls on the sink, the worker it starts, and its accesses to the worker's job. The
results of the calls it makes are an input. -/

namespace WfyApp.ProtoDispatch
open ProtoCodec ByteText PacketStream

def wifiSsidMax : Nat := 32
def wifiPasswdMax : Nat := 63
def protoCmdsetNetwork : UInt8 := 0x01

inductive NetCommand where
  | getWifiState
  | status
  | ssid
  | passwd
  | connect
  | pushResult
  | getApSsid
  | getApPasswd
  | scanWifi
  | pushScanResult
  | switchToAp
deriving DecidableEq, Repr

def NetCommand.byte : NetCommand → UInt8
  | getWifiState => 0x00
  | status => 0x01
  | ssid => 0x02
  | passwd => 0x03
  | connect => 0x04
  | pushResult => 0x05
  | getApSsid => 0x06
  | getApPasswd => 0x07
  | scanWifi => 0x08
  | pushScanResult => 0x09
  | switchToAp => 0x0A

def NetCommand.all : List NetCommand :=
  [getWifiState, status, ssid, passwd, connect, pushResult, getApSsid, getApPasswd, scanWifi,
    pushScanResult, switchToAp]

def NetCommand.ofByte (b : UInt8) : Option NetCommand := all.find? fun c => c.byte = b

inductive ErrCode where
  | none
  | badCmd
  | noSsid
  | badPassword
  | connectFail
  | inProgress
  | unknown
deriving DecidableEq, Repr

def ErrCode.byte : ErrCode → UInt8
  | none => 0x00
  | badCmd => 0x01
  | noSsid => 0x02
  | badPassword => 0x03
  | connectFail => 0x04
  | inProgress => 0x05
  | unknown => 0xFF

inductive WifiSwitchStatus where
  | ok
  | errNoSsid
  | errBadPassword
  | errConnectFail
  | errBusy
  | errUnknown
deriving DecidableEq, Repr

def wifiStatusToErrcode : WifiSwitchStatus → ErrCode
  | .ok => .none
  | .errNoSsid => .noSsid
  | .errBadPassword => .badPassword
  | .errConnectFail => .connectFail
  | .errBusy => .unknown
  | .errUnknown => .unknown

/-- The staged credentials: the first `s_pending_*_len` bytes of the two buffers. -/
@[ext] structure Pending where
  ssid : Bytes
  passwd : Bytes
  ssid_length_le : ssid.length ≤ wifiSsidMax
  passwd_length_le : passwd.length ≤ wifiPasswdMax
deriving DecidableEq

def Pending.initial : Pending := ⟨[], [], by decide, by decide⟩

/-- Results of the calls made while one frame is handled. -/
structure Outcomes where
  isConnected : Bool
  apCredentials : Option (CString 64 × CString 128)
  ensureApMode : WifiSwitchStatus
  calloc : Bool
  pthreadCreate : Bool

inductive Job where
  | connect (seq : UInt8) (ssid passwd : Bytes)
  | scan (seq : UInt8)
deriving DecidableEq

def Job.seq : Job → UInt8
  | connect seq _ _ => seq
  | scan seq => seq

inductive Effect where
  | send (wire : Bytes)
  | retain
  | release
  | spawn (job : Job)
  | readJob
  | freeJob
  | join (ssid passwd : Bytes)
  | persist (ssid passwd : Bytes)
deriving DecidableEq

def sendProtoFrame (type seq commandSet commandId : UInt8) (payload : Bytes) : List Effect :=
  match protoEncode (some (protoHdrLen + protoPayloadMax)) type seq commandSet commandId
      (some payload) (UInt16.ofNat payload.length) with
  | .error _ => []
  | .ok wire => [.send wire]

def sendProtoResponse (seq commandSet commandId : UInt8) (errcode : ErrCode) : List Effect :=
  sendProtoFrame protoTypeResp seq commandSet commandId [errcode.byte]

def sendProtoResponseData (seq commandSet commandId : UInt8) (errcode : ErrCode) (data : Bytes) :
    List Effect :=
  if data.length + 1 > protoPayloadMax then []
  else sendProtoFrame protoTypeResp seq commandSet commandId (errcode.byte :: data)

def sendProtoPush (seq commandSet commandId : UInt8) (data : Bytes) : List Effect :=
  sendProtoFrame protoTypeReq seq commandSet commandId data

/-- What the trigger functions do before the reply, and the code they report. -/
def triggerWifiConnect (o : Outcomes) (seq : UInt8) (p : Pending) : List Effect × ErrCode :=
  if p.ssid.length = 0 then ([], .noSsid)
  else if !o.calloc then ([], .unknown)
  else if !o.pthreadCreate then ([.retain, .release, .freeJob], .unknown)
  else ([.retain, .spawn (.connect seq p.ssid p.passwd), .readJob], .inProgress)

def triggerWifiScan (o : Outcomes) (seq : UInt8) : List Effect × ErrCode :=
  if !o.calloc then ([], .unknown)
  else if !o.pthreadCreate then ([.retain, .release, .freeJob], .unknown)
  else ([.retain, .spawn (.scan seq)], .inProgress)

def protoWifiConnected : UInt8 := 0x00
def protoWifiDisconnected : UInt8 := 0x01

def handleProtoFrame (o : Outcomes) (f : ProtoFrame) (p : Pending) : Pending × List Effect :=
  if f.type ≠ protoTypeReq then (p, [])
  else if f.commandSet ≠ protoCmdsetNetwork then
    (p, sendProtoResponse f.seq f.commandSet f.commandId .badCmd)
  else
    match NetCommand.ofByte f.commandId with
    | some .getWifiState =>
        (p, sendProtoFrame protoTypeResp f.seq f.commandSet f.commandId
          [if o.isConnected then protoWifiConnected else protoWifiDisconnected])
    | some .status => (p, sendProtoResponse f.seq f.commandSet f.commandId .none)
    | some .ssid =>
        if range : f.msgLen.toNat = 0 ∨ f.msgLen.toNat > wifiSsidMax then
          (p, sendProtoResponse f.seq f.commandSet f.commandId .unknown)
        else
          ({ p with
              ssid := f.payload
              ssid_length_le := by rw [f.payload_length]; omega },
            sendProtoResponse f.seq f.commandSet f.commandId .none)
    | some .passwd =>
        if range : f.msgLen.toNat = 0 ∨ f.msgLen.toNat > wifiPasswdMax then
          (p, sendProtoResponse f.seq f.commandSet f.commandId .unknown)
        else
          ({ p with
              passwd := f.payload
              passwd_length_le := by rw [f.payload_length]; omega },
            sendProtoResponse f.seq f.commandSet f.commandId .none)
    | some .connect =>
        let (effects, errcode) := triggerWifiConnect o f.seq p
        (p, effects ++ sendProtoResponse f.seq f.commandSet f.commandId errcode)
    | some .getApSsid =>
        match o.apCredentials with
        | some (apSsid, _) =>
            if apSsid.bytes ≠ [] then
              (p, sendProtoResponseData f.seq f.commandSet f.commandId .none
                (apSsid.bytes.take (min apSsid.bytes.length (protoPayloadMax - 1))))
            else (p, sendProtoResponse f.seq f.commandSet f.commandId .unknown)
        | none => (p, sendProtoResponse f.seq f.commandSet f.commandId .unknown)
    | some .scanWifi =>
        let (effects, errcode) := triggerWifiScan o f.seq
        (p, effects ++ sendProtoResponse f.seq f.commandSet f.commandId errcode)
    | some .getApPasswd =>
        match o.apCredentials with
        | some (_, apPwd) =>
            (p, sendProtoResponseData f.seq f.commandSet f.commandId .none
              (apPwd.bytes.take (min apPwd.bytes.length (protoPayloadMax - 1))))
        | none => (p, sendProtoResponse f.seq f.commandSet f.commandId .unknown)
    | some .switchToAp =>
        (p, sendProtoResponse f.seq f.commandSet f.commandId (wifiStatusToErrcode o.ensureApMode))
    | some .pushResult | some .pushScanResult | none =>
        (p, sendProtoResponse f.seq f.commandSet f.commandId .badCmd)

/-- The walk of `proto_dispatch_buffer`, for any handler. It needs no more rounds than
bytes, since each frame it hands over is at least a header long. -/
def dispatchLoop {σ : Type} (handle : ProtoFrame → σ → σ) : Nat → Bytes → σ → σ
  | 0, _, s => s
  | _ + 1, [], s => s
  | rounds + 1, x :: xs, s =>
      match protoDecode (some (x :: xs)) with
      | .error _ => s
      | .ok f => dispatchLoop handle rounds ((x :: xs).drop f.frameSize) (handle f s)

def protoDispatchBuffer {σ : Type} (handle : ProtoFrame → σ → σ) (data : Bytes) (s : σ) : σ :=
  dispatchLoop handle data.length data s

theorem dispatchLoop_eq_foldl {σ : Type} (handle : ProtoFrame → σ → σ) (rounds : Nat)
    (data : Bytes) (s : σ) :
    dispatchLoop handle rounds data s =
      (walk protoFraming rounds data).foldl (fun s f => handle f s) s := by
  induction rounds generalizing data s with
  | zero => rfl
  | succ rounds ih =>
      cases data with
      | nil => rfl
      | cons x xs =>
          cases decoded : protoDecode (some (x :: xs)) with
          | error e => simp [dispatchLoop, walk, protoFraming, protoRead, decoded]
          | ok f =>
              rw [dispatchLoop, decoded]
              simp only [ih]
              simp [walk, protoFraming, protoRead, decoded]

theorem protoDispatchBuffer_eq_foldl {σ : Type} (handle : ProtoFrame → σ → σ) (data : Bytes)
    (s : σ) : protoDispatchBuffer handle data s =
      (frames protoFraming data).foldl (fun s f => handle f s) s :=
  dispatchLoop_eq_foldl handle data.length data s

def bareRequest (seq : UInt8) (command : NetCommand) : ProtoFrame :=
  .ofPayload 0 protoTypeReq seq protoCmdsetNetwork command.byte 0 [] rfl (by decide)

/-- The bytes of an outgoing frame; the service leaves the CRC field zero. -/
def frameWire (type seq commandSet commandId : UInt8) (payload : Bytes) : Bytes :=
  header 0 0 type seq commandSet commandId (UInt16.ofNat payload.length) ++ payload

theorem ofNat_length_toNat (payload : Bytes) (small : payload.length ≤ protoPayloadMax) :
    (UInt16.ofNat payload.length).toNat = payload.length :=
  UInt16.toNat_ofNat_of_lt' (by simp only [protoPayloadMax] at small; simp only [UInt16.size]; omega)

theorem protoDecode_frameWire (type seq commandSet commandId : UInt8) (payload : Bytes)
    (small : payload.length ≤ protoPayloadMax) :
    protoDecode (some (frameWire type seq commandSet commandId payload)) =
      .ok (.ofPayload 0 type seq commandSet commandId (UInt16.ofNat payload.length) payload
        (ofNat_length_toNat payload small).symm
        (by rw [ofNat_length_toNat payload small]; exact small)) := by
  have whole := protoDecode_header 0 0 type seq commandSet commandId
    (UInt16.ofNat payload.length) payload [] (ofNat_length_toNat payload small).symm
    (by rw [ofNat_length_toNat payload small]; exact small)
  rw [List.append_nil] at whole
  exact whole

theorem protoEncode_frameWire (type seq commandSet commandId : UInt8) (payload : Bytes)
    (small : payload.length ≤ protoPayloadMax) :
    protoEncode (some (protoHdrLen + protoPayloadMax)) type seq commandSet commandId (some payload)
      (UInt16.ofNat payload.length) = .ok (frameWire type seq commandSet commandId payload) := by
  refine (protoEncode_ok_iff _ _ _ _ _ _ _ _).mpr ?_
  rw [ofNat_length_toNat payload small]
  refine ⟨by simp, by omega, ?_⟩
  rw [Option.getD_some, List.take_length, frameWire]

theorem sendProtoFrame_eq (type seq commandSet commandId : UInt8) (payload : Bytes)
    (small : payload.length ≤ protoPayloadMax) :
    sendProtoFrame type seq commandSet commandId payload =
      [.send (frameWire type seq commandSet commandId payload)] := by
  rw [sendProtoFrame, protoEncode_frameWire _ _ _ _ _ small]

def replyWire (f : ProtoFrame) (payload : Bytes) : Bytes :=
  frameWire protoTypeResp f.seq f.commandSet f.commandId payload

theorem replyWire_injective (f : ProtoFrame) {a b : Bytes} (same : replyWire f a = replyWire f b) :
    a = b :=
  (List.append_inj same rfl).2

/-- A sent frame answers a request: it is one whole RESP frame with the request's
sequence number and command and a payload of 1 to 256 bytes. -/
def Replies (f : ProtoFrame) (wire : Bytes) : Prop :=
  ∃ g, protoDecode (some wire) = .ok g ∧ g.frameSize = wire.length ∧ g.type = protoTypeResp ∧
    g.seq = f.seq ∧ g.commandSet = f.commandSet ∧ g.commandId = f.commandId ∧
    1 ≤ g.payload.length ∧ g.payload.length ≤ protoPayloadMax

theorem replies_replyWire (f : ProtoFrame) (payload : Bytes) (pos : 1 ≤ payload.length)
    (small : payload.length ≤ protoPayloadMax) : Replies f (replyWire f payload) := by
  refine ⟨_, protoDecode_frameWire _ _ _ _ payload small, ?_, rfl, rfl, rfl, rfl, pos, small⟩
  rw [replyWire, frameWire, List.length_append, header_length]
  exact congrArg (protoHdrLen + ·) (ofNat_length_toNat payload small)

def Effect.Quiet : Effect → Prop
  | retain | release | freeJob => True
  | _ => False

/-- Everything that handling one request can do. Either it only answers, and then not
with IN_PROGRESS, or it starts a worker before it answers IN_PROGRESS. -/
inductive Handled (f : ProtoFrame) (p : Pending) : List Effect → Prop where
  | answer (before : List Effect) (payload : Bytes) (quiet : ∀ e ∈ before, e.Quiet)
      (pos : 1 ≤ payload.length) (small : payload.length ≤ protoPayloadMax)
      (final : payload ≠ [ErrCode.inProgress.byte]) :
      Handled f p (before ++ [.send (replyWire f payload)])
  | connect (network : f.commandSet = protoCmdsetNetwork)
      (command : NetCommand.ofByte f.commandId = some .connect) (staged : p.ssid ≠ []) :
      Handled f p [.retain, .spawn (.connect f.seq p.ssid p.passwd), .readJob,
        .send (replyWire f [ErrCode.inProgress.byte])]
  | scan (network : f.commandSet = protoCmdsetNetwork)
      (command : NetCommand.ofByte f.commandId = some .scanWifi) :
      Handled f p [.retain, .spawn (.scan f.seq),
        .send (replyWire f [ErrCode.inProgress.byte])]

theorem sendProtoResponse_eq (f : ProtoFrame) (errcode : ErrCode) :
    sendProtoResponse f.seq f.commandSet f.commandId errcode =
      [.send (replyWire f [errcode.byte])] :=
  sendProtoFrame_eq _ _ _ _ _ (by simp [protoPayloadMax])

theorem handled_byte (f : ProtoFrame) (p : Pending) (byte : UInt8)
    (final : byte ≠ ErrCode.inProgress.byte) :
    Handled f p [.send (replyWire f [byte])] :=
  .answer [] [byte] (by simp) (by simp) (by simp [protoPayloadMax]) (by simpa using final)

theorem handled_response (f : ProtoFrame) (p : Pending) (errcode : ErrCode)
    (final : errcode.byte ≠ ErrCode.inProgress.byte) :
    Handled f p (sendProtoResponse f.seq f.commandSet f.commandId errcode) := by
  rw [sendProtoResponse_eq]
  exact handled_byte f p _ final

/-- A trigger that fails has touched only the sink count and its own job. -/
theorem handled_trigger_failed (f : ProtoFrame) (p : Pending) (before : List Effect)
    (quiet : ∀ e ∈ before, e.Quiet) (errcode : ErrCode)
    (final : errcode.byte ≠ ErrCode.inProgress.byte) :
    Handled f p (before ++ sendProtoResponse f.seq f.commandSet f.commandId errcode) := by
  rw [sendProtoResponse_eq]
  exact .answer before _ quiet (by simp) (by simp [protoPayloadMax]) (by simpa using final)

theorem handled_response_data (f : ProtoFrame) (p : Pending) (data : Bytes) :
    Handled f p (sendProtoResponseData f.seq f.commandSet f.commandId .none
      (data.take (min data.length (protoPayloadMax - 1)))) := by
  have cut : (data.take (min data.length (protoPayloadMax - 1))).length + 1 ≤
      protoPayloadMax := by
    simp only [List.length_take, protoPayloadMax]
    omega
  have small : (ErrCode.none.byte ::
      data.take (min data.length (protoPayloadMax - 1))).length ≤ protoPayloadMax := by
    simpa using cut
  rw [sendProtoResponseData, if_neg (by omega), sendProtoFrame_eq _ _ _ _ _ small]
  refine .answer [] _ (by simp) (by simp) small ?_
  intro same
  exact absurd (List.cons.inj same).1 (by decide)

theorem triggerWifiConnect_handled (o : Outcomes) (f : ProtoFrame) (p : Pending)
    (network : f.commandSet = protoCmdsetNetwork)
    (command : NetCommand.ofByte f.commandId = some .connect) :
    Handled f p ((triggerWifiConnect o f.seq p).1 ++
      sendProtoResponse f.seq f.commandSet f.commandId (triggerWifiConnect o f.seq p).2) := by
  unfold triggerWifiConnect
  split_ifs with empty
  · exact handled_trigger_failed f p [] (by simp) .noSsid (by decide)
  · exact handled_trigger_failed f p [] (by simp) .unknown (by decide)
  · exact handled_trigger_failed f p _ (by simp [Effect.Quiet]) .unknown (by decide)
  · rw [sendProtoResponse_eq]
    exact .connect network command (fun none => empty (by rw [none]; rfl))

theorem triggerWifiScan_handled (o : Outcomes) (f : ProtoFrame) (p : Pending)
    (network : f.commandSet = protoCmdsetNetwork)
    (command : NetCommand.ofByte f.commandId = some .scanWifi) :
    Handled f p ((triggerWifiScan o f.seq).1 ++
      sendProtoResponse f.seq f.commandSet f.commandId (triggerWifiScan o f.seq).2) := by
  unfold triggerWifiScan
  split_ifs
  · exact handled_trigger_failed f p [] (by simp) .unknown (by decide)
  · exact handled_trigger_failed f p _ (by simp [Effect.Quiet]) .unknown (by decide)
  · rw [sendProtoResponse_eq]
    exact .scan network command

theorem wifiStatusToErrcode_final (st : WifiSwitchStatus) :
    (wifiStatusToErrcode st).byte ≠ ErrCode.inProgress.byte := by
  cases st <;> decide

theorem handleProtoFrame_not_req (o : Outcomes) (f : ProtoFrame) (p : Pending)
    (other : f.type ≠ protoTypeReq) : handleProtoFrame o f p = (p, []) := by
  rw [handleProtoFrame, if_pos other]

theorem handleProtoFrame_handled (o : Outcomes) (f : ProtoFrame) (p : Pending)
    (req : f.type = protoTypeReq) : Handled f p (handleProtoFrame o f p).2 := by
  rw [handleProtoFrame, if_neg (not_not.mpr req)]
  by_cases network : f.commandSet = protoCmdsetNetwork
  · rw [if_neg (not_not.mpr network)]
    split
    · have small : ([if o.isConnected then protoWifiConnected else protoWifiDisconnected] :
          Bytes).length ≤ protoPayloadMax := by simp [protoPayloadMax]
      simp only [sendProtoFrame_eq _ _ _ _ _ small]
      exact handled_byte f p _ (by cases o.isConnected <;> decide)
    · exact handled_response f p .none (by decide)
    · split_ifs <;> exact handled_response f p _ (by decide)
    · split_ifs <;> exact handled_response f p _ (by decide)
    · rename_i command
      exact triggerWifiConnect_handled o f p network command
    · split
      · split_ifs
        · exact handled_response_data f p _
        · exact handled_response f p .unknown (by decide)
      · exact handled_response f p .unknown (by decide)
    · rename_i command
      exact triggerWifiScan_handled o f p network command
    · split
      · exact handled_response_data f p _
      · exact handled_response f p .unknown (by decide)
    · exact handled_response f p _ (wifiStatusToErrcode_final _)
    · exact handled_response f p .badCmd (by decide)
    · exact handled_response f p .badCmd (by decide)
    · exact handled_response f p .badCmd (by decide)
  · rw [if_pos network]
    exact handled_response f p .badCmd (by decide)

def Effect.wire? : Effect → Option Bytes
  | send wire => some wire
  | _ => none

def sends (effects : List Effect) : List Bytes := effects.filterMap Effect.wire?

@[simp] theorem sends_append (a b : List Effect) : sends (a ++ b) = sends a ++ sends b :=
  List.filterMap_append

theorem sends_quiet (effects : List Effect) (quiet : ∀ e ∈ effects, e.Quiet) :
    sends effects = [] := by
  apply List.filterMap_eq_nil_iff.mpr
  intro e member
  have still := quiet e member
  cases e with
  | retain | release | freeJob => rfl
  | send | spawn | readJob | join | persist => exact still.elim

theorem Handled.one_reply {f : ProtoFrame} {p : Pending} {effects : List Effect}
    (h : Handled f p effects) : ∃ wire, sends effects = [wire] ∧ Replies f wire := by
  cases h with
  | answer before payload quiet pos small _ =>
      refine ⟨replyWire f payload, ?_, replies_replyWire f payload pos small⟩
      rw [sends_append, sends_quiet before quiet]
      rfl
  | connect => exact ⟨_, rfl, replies_replyWire f _ (by simp) (by simp [protoPayloadMax])⟩
  | scan => exact ⟨_, rfl, replies_replyWire f _ (by simp) (by simp [protoPayloadMax])⟩

/-- Dispatch of one buffer: the store, how many frames were handled, and the effects. -/
structure DispatchState where
  pending : Pending
  handled : Nat
  effects : List Effect

def handleStep (outs : Nat → Outcomes) (f : ProtoFrame) (s : DispatchState) : DispatchState :=
  let r := handleProtoFrame (outs s.handled) f s.pending
  ⟨r.1, s.handled + 1, s.effects ++ r.2⟩

theorem sends_handleStep (outs : Nat → Outcomes) (f : ProtoFrame) (s : DispatchState) :
    sends (handleStep outs f s).effects =
      sends s.effects ++ sends (handleProtoFrame (outs s.handled) f s.pending).2 :=
  sends_append _ _

theorem foldl_handleStep_replies (outs : Nat → Outcomes) (fs : List ProtoFrame)
    (s : DispatchState) :
    ∃ wires, sends (fs.foldl (fun s f => handleStep outs f s) s).effects =
        sends s.effects ++ wires ∧
      List.Forall₂ Replies (fs.filter fun f => f.type = protoTypeReq) wires := by
  induction fs generalizing s with
  | nil => exact ⟨[], by simp, .nil⟩
  | cons f fs ih =>
      obtain ⟨wires, sent, matched⟩ := ih (handleStep outs f s)
      rw [sends_handleStep, List.append_assoc] at sent
      by_cases req : f.type = protoTypeReq
      · obtain ⟨wire, one, reply⟩ :=
          (handleProtoFrame_handled (outs s.handled) f s.pending req).one_reply
        refine ⟨wire :: wires, ?_, ?_⟩
        · rw [List.foldl_cons, sent, one, List.singleton_append]
        · simpa [req] using List.Forall₂.cons reply matched
      · refine ⟨wires, ?_, by simpa [req] using matched⟩
        rw [List.foldl_cons, sent, handleProtoFrame_not_req _ f _ req]
        rfl

/-- Every request among the frames that a buffer begins with is answered exactly once and in order,
whatever the calls return; every other frame is answered by nothing and leaves the store alone. -/
theorem protoDispatchBuffer_replies (outs : Nat → Outcomes) (p : Pending) (data : Bytes) :
    List.Forall₂ Replies ((frames protoFraming data).filter fun f => f.type = protoTypeReq)
      (sends (protoDispatchBuffer (handleStep outs) data ⟨p, 0, []⟩).effects) ∧
    ∀ o f q, f.type ≠ protoTypeReq → handleProtoFrame o f q = (q, []) := by
  refine ⟨?_, handleProtoFrame_not_req⟩
  obtain ⟨wires, sent, matched⟩ :=
    foldl_handleStep_replies outs (frames protoFraming data) ⟨p, 0, []⟩
  rw [protoDispatchBuffer_eq_foldl, sent]
  exact matched

end WfyApp.ProtoDispatch
