import WfyApp.LogText
import WfyApp.StagedNetwork

/-! The log lines of a frame's way through system_service: what the BLE characteristic
logs when it receives bytes (ble_gatt.c), what the dispatcher logs for a frame and for
its answer (proto_dispatch.c), and what the two sinks log when they send (ble_gatt.c,
unix_ipc.c). A line is what `log_print` writes after its timestamp. The lines that the
backend functions log themselves come with their results, as inputs. A slot file takes lines
until it is full. -/

namespace WfyApp.ServiceLog
open ByteText LogText NumberText PacketStream ProtoCodec ProtoDispatch

inductive LogLevel where
  | e
  | w
  | i
  | d
deriving DecidableEq

structure LogLine where
  level : LogLevel
  tag : Bytes
  text : Bytes
deriving DecidableEq

/-- `log_print` has room for 1278 characters before the line feed, of which the
timestamp, the level and the module name take 22 and the length of the name. -/
def logPrint (level : LogLevel) (tag text : Bytes) : LogLine :=
  ⟨level, tag, text.take (1278 - (22 + tag.length))⟩

def LogLine.size (l : LogLine) : Nat := 22 + l.tag.length + l.text.length + 1

section Slot

@[irreducible] def perSlotCap : Nat := 10 * 1024 * 1024

theorem perSlotCap_pos : 0 < perSlotCap := by
  rw [perSlotCap]
  decide

@[irreducible] def fullMarker : Bytes :=
  ascii "==== log slot full " ++ [0xE2, 0x80, 0x94] ++
    ascii " further messages dropped until next boot ====" ++ [newline]

/-- `g_to_file`, `g_written` and `g_full`. -/
structure Slot where
  toFile : Bool
  written : Nat
  full : Bool

inductive Record where
  | line (l : LogLine)
  | marker
deriving DecidableEq

def Slot.silent (s : Slot) : Bool := s.toFile && s.full

/-- `log_print` with a line that it has composed: the new state and what it puts. -/
def Slot.print (s : Slot) (l : LogLine) : Slot × List Record :=
  if s.silent then (s, [])
  else if s.toFile then
    let written := s.written + l.size
    if !s.full && perSlotCap ≤ written then (⟨true, written, true⟩, [.line l, .marker])
    else (⟨true, written, s.full⟩, [.line l])
  else (s, [.line l])

def Slot.records : Slot → List LogLine → List Record
  | _, [] => []
  | s, l :: ls => (s.print l).2 ++ (s.print l).1.records ls

def Slot.after : Slot → List LogLine → Slot
  | s, [] => s
  | s, l :: ls => (s.print l).1.after ls

def common : List LogLine → List LogLine → List LogLine
  | l :: ls, l' :: ls' => if l = l' then l :: common ls ls' else []
  | _, _ => []

namespace Slot
variable (s : Slot) (l : LogLine) (ls : List LogLine)

theorem print_of_silent (silent : s.silent = true) : s.print l = (s, []) := if_pos silent

theorem records_of_silent (silent : s.silent = true) : s.records ls = [] := by
  induction ls with
  | nil => rfl
  | cons l ls ih => rw [records, print_of_silent s l silent, List.nil_append, ih]

theorem print_head (heard : ¬s.silent = true) : ∃ more, (s.print l).2 = .line l :: more := by
  rw [print, if_neg heard]
  split_ifs
  · dsimp only
    split_ifs
    · exact ⟨_, rfl⟩
    · exact ⟨_, rfl⟩
  · exact ⟨_, rfl⟩

theorem records_cons_eq_nil_iff : s.records (l :: ls) = [] ↔ s.silent = true := by
  refine ⟨fun empty => ?_, fun silent => records_of_silent s _ silent⟩
  by_contra heard
  obtain ⟨more, head⟩ := print_head s l heard
  rw [records, head] at empty
  cases empty

/-- Two logs leave the same records exactly if they are the same, or the slot is full before
they differ. -/
theorem records_eq_iff (ls' : List LogLine) :
    s.records ls = s.records ls' ↔ ls = ls' ∨ (s.after (common ls ls')).silent = true := by
  induction ls generalizing s ls' with
  | nil =>
      cases ls' with
      | nil => exact iff_of_true rfl (.inl rfl)
      | cons l' ls' =>
          rw [records, eq_comm, records_cons_eq_nil_iff]
          exact ⟨.inr, fun either => either.resolve_left nofun⟩
  | cons l ls ih =>
      cases ls' with
      | nil =>
          show s.records (l :: ls) = [] ↔ _
          rw [records_cons_eq_nil_iff]
          exact ⟨.inr, fun either => either.resolve_left nofun⟩
      | cons l' ls' =>
          rw [common]
          by_cases same : l = l'
          · rw [if_pos same, same, records, records, List.append_cancel_left_eq, ih,
              List.cons.injEq, and_iff_right rfl, after]
          · rw [if_neg same]
            constructor
            · intro records
              refine .inr (not_not.mp fun heard => same ?_)
              obtain ⟨more, head⟩ := print_head s l heard
              obtain ⟨more', head'⟩ := print_head s l' heard
              rw [Slot.records, Slot.records, head, head'] at records
              exact Record.line.inj (List.cons.inj records).1
            · intro either
              have silent := either.resolve_left fun equal => same (List.cons.inj equal).1
              rw [records_of_silent s _ silent, records_of_silent s _ silent]

end Slot

end Slot

def protoTag : Bytes := ascii "proto"
def bleTag : Bytes := ascii "ble"
def unixTag : Bytes := ascii "unix_ipc"

def logi (pieces : List Bytes) : LogLine := logPrint .i protoTag pieces.flatten

def loge (pieces : List Bytes) : LogLine := logPrint .e protoTag pieces.flatten

def protoTypeName (type : UInt8) : Bytes :=
  if type = protoTypeReq then ascii "REQ"
  else if type = protoTypeResp then ascii "RESP" else ascii "?"

def protoCommandSetName (cs : UInt8) : Bytes :=
  if cs = protoCmdsetNetwork then ascii "NETWORK" else ascii "?"

def protoCommandIdName (id : UInt8) : Bytes :=
  match NetCommand.ofByte id with
  | some .getWifiState => ascii "GET_WIFI_STATE"
  | some .status => ascii "STATUS"
  | some .ssid => ascii "SSID"
  | some .passwd => ascii "PASSWD"
  | some .connect => ascii "CONNECT"
  | some .pushResult => ascii "PUSH_RESULT"
  | some .getApSsid => ascii "GET_AP_SSID"
  | some .getApPasswd => ascii "GET_AP_PASSWD"
  | some .scanWifi => ascii "SCAN_WIFI"
  | some .pushScanResult => ascii "PUSH_SCAN_RESULT"
  | some .switchToAp => ascii "SWITCH_TO_AP"
  | none => ascii "UNKNOWN"

def protoErrcodeName : ErrCode → Bytes
  | .none => ascii "NONE"
  | .badCmd => ascii "BAD_CMD"
  | .noSsid => ascii "NO_SSID"
  | .badPassword => ascii "BAD_PASSWORD"
  | .connectFail => ascii "CONNECT_FAIL"
  | .inProgress => ascii "IN_PROGRESS"
  | .unknown => ascii "UNKNOWN"

def protoStatusName : ProtoStatus → Bytes
  | .short => ascii "SHORT (buffer < header)"
  | .magic => ascii "MAGIC mismatch"
  | .trunc => ascii "TRUNC (msg_len > remaining or > PAYLOAD_MAX)"
  | .noSpace => ascii "NOSPACE (output too small)"
  | .arg => ascii "ARG (bad argument)"

/-- The value `%d` shows for a `wifi_switch_status_t`. -/
def statusNumber : WifiSwitchStatus → Bytes
  | .ok => ascii "0"
  | .errNoSsid => ascii "1"
  | .errBadPassword => ascii "2"
  | .errConnectFail => ascii "3"
  | .errBusy => ascii "4"
  | .errUnknown => ascii "5"

def logHex (tag label data : Bytes) : List LogLine := (hexDump label data).map (logPrint .i tag)

def payloadToAscii (data : Bytes) : Bytes :=
  data.map fun c => if 0x20 ≤ c ∧ c < 0x7F then c else 0x2E

def frameDump (f : ProtoFrame) : List LogLine :=
  [logi [ascii "---- parsed frame (", decimal f.frameSize, ascii " bytes) ----"],
    logi [ascii "  crc         : 0x", hexByte (f.crc >>> 8).toUInt8, hexByte f.crc.toUInt8,
      ascii "  (not validated)"],
    logi [ascii "  type        : 0x", hexByte f.type, ascii "  (", protoTypeName f.type, ascii ")"],
    logi [ascii "  seq         : 0x", hexByte f.seq],
    logi [ascii "  command_set : 0x", hexByte f.commandSet, ascii "  (",
      protoCommandSetName f.commandSet, ascii ")"],
    logi [ascii "  command_id  : 0x", hexByte f.commandId, ascii "  (",
      protoCommandIdName f.commandId, ascii ")"],
    logi [ascii "  msg_len     : ", decimal f.msgLen.toNat, ascii "  (payload bytes)"]] ++
  if f.msgLen.toNat = 0 then [logi [ascii "  payload     : (empty)"]]
  else
    logi [ascii "  payload     : '", payloadToAscii f.payload, ascii "'  (",
        decimal f.msgLen.toNat, ascii " bytes)"] ::
      logHex protoTag (ascii "    hex ") f.payload

/-- How a send on either transport ends, as far as it is logged. -/
inductive Delivery where
  | unixClosed
  | unixFailed (fd : Nat) (error : Bytes)
  | unixWritten
  | bleNotReady
  | bleNoSubscriber
  | bleFailed (message : Bytes)
  | bleNotified

/-- The lines of `unix_sink_send` and `ble_gatt_send`; the debug level is off by default. -/
def sinkLog (debug : Bool) (wire : Bytes) : Delivery → List LogLine
  | .unixClosed =>
      if debug then [logPrint .d unixTag (ascii "send to closed client, dropping " ++
        decimal wire.length ++ ascii " bytes")] else []
  | .unixFailed fd error =>
      [logPrint .w unixTag (ascii "write to client fd=" ++ decimal fd ++ ascii " failed: " ++
        error)]
  | .unixWritten => []
  | .bleNotReady =>
      [logPrint .i bleTag (ascii "ble_gatt_send: dropped " ++ decimal wire.length ++
        ascii " bytes (D-Bus not ready)")]
  | .bleNoSubscriber =>
      [logPrint .i bleTag (ascii "ble_gatt_send: dropped " ++ decimal wire.length ++
        ascii " bytes (no subscriber on TX)")]
  | .bleFailed message => [logPrint .e bleTag (ascii "emit PropertiesChanged: " ++ message)]
  | .bleNotified =>
      logPrint .i bleTag (ascii "TX notify: " ++ decimal wire.length ++
        ascii " bytes pushed to subscriber") :: logHex bleTag (ascii "  hex ") wire

/-- The results of all calls made while one frame is handled, with the lines that the
backend logged meanwhile. -/
structure FrameCalls where
  outcomes : Outcomes
  delivery : Delivery
  threadError : Bytes
  backendLog : List LogLine

def sendFrameLog (debug : Bool) (delivery : Delivery)
    (type seq commandSet commandId : UInt8) (payload : Bytes) : List LogLine :=
  match protoEncode (some (protoHdrLen + protoPayloadMax)) type seq commandSet commandId
      (some payload) (UInt16.ofNat payload.length) with
  | .error st => [loge [ascii "proto_encode failed: ", protoStatusName st]]
  | .ok wire =>
      logi [ascii "-> ", protoTypeName type, ascii " seq=0x", hexByte seq, ascii " cs=0x",
          hexByte commandSet, ascii "(", protoCommandSetName commandSet, ascii ") cid=0x",
          hexByte commandId, ascii "(", protoCommandIdName commandId, ascii ") plen=",
          decimal payload.length, ascii " total=", decimal wire.length, ascii " bytes"] ::
        (logHex protoTag (ascii "   tx ") wire ++ sinkLog debug wire delivery)

section Handler
variable (debug : Bool)

def responseLog (calls : FrameCalls) (f : ProtoFrame) (errcode : ErrCode) : List LogLine :=
  sendFrameLog debug calls.delivery protoTypeResp f.seq f.commandSet f.commandId [errcode.byte]

def responseDataLog (calls : FrameCalls) (f : ProtoFrame) (errcode : ErrCode) (data : Bytes) :
    List LogLine :=
  if data.length + 1 > protoPayloadMax then
    [loge [ascii "send_proto_response_data: data too long (", decimal data.length, ascii ")"]]
  else
    sendFrameLog debug calls.delivery protoTypeResp f.seq f.commandSet f.commandId
      (errcode.byte :: data)

def triggerConnectLog (calls : FrameCalls) (seq : UInt8) (p : Pending) : List LogLine :=
  if p.ssid.length = 0 then
    [loge [utf8 "  trigger_wifi_connect: no SSID stored — refusing"]]
  else if !calls.outcomes.calloc then [loge [ascii "  trigger_wifi_connect: OOM allocating job"]]
  else if !calls.outcomes.pthreadCreate then
    [loge [ascii "  trigger_wifi_connect: pthread_create failed: ", calls.threadError]]
  else
    [logi [ascii "  trigger_wifi_connect: worker spawned (seq=0x", hexByte seq, ascii ", ssid='",
      cstr p.ssid, utf8 "') — PUSH_RESULT will follow when switch completes"]]

def triggerScanLog (calls : FrameCalls) (seq : UInt8) : List LogLine :=
  if !calls.outcomes.calloc then [loge [ascii "  trigger_wifi_scan: OOM allocating job"]]
  else if !calls.outcomes.pthreadCreate then
    [loge [ascii "  trigger_wifi_scan: pthread_create failed: ", calls.threadError]]
  else
    [logi [ascii "  trigger_wifi_scan: worker spawned (seq=0x", hexByte seq,
      utf8 ") — PUSH_SCAN_RESULT frames will follow"]]

def lengthLine (what : Bytes) (f : ProtoFrame) (longest : Nat) : LogLine :=
  loge [ascii "  ", what, ascii " length ", decimal f.msgLen.toNat, ascii " out of range (1..",
    decimal longest, ascii ")"]

def commandLog (calls : FrameCalls) (f : ProtoFrame) (p : Pending) : List LogLine :=
  match NetCommand.ofByte f.commandId with
  | some .getWifiState =>
      let connected := calls.outcomes.isConnected
      let state := if connected then protoWifiConnected else protoWifiDisconnected
      calls.backendLog ++
        logi [ascii "  >> handler: GET_WIFI_STATE -> 0x", hexByte state, ascii " (",
          ascii (if connected then "connected" else "disconnected"), ascii ")"] ::
        sendFrameLog debug calls.delivery protoTypeResp f.seq f.commandSet f.commandId [state]
  | some .status =>
      logi [utf8 "  >> handler: device STATUS query → reply NONE"] ::
        responseLog debug calls f .none
  | some .ssid =>
      if f.msgLen.toNat = 0 ∨ f.msgLen.toNat > wifiSsidMax then
        lengthLine (ascii "SSID") f wifiSsidMax :: responseLog debug calls f .unknown
      else
        logi [ascii "  >> handler: SSID stored: '", cstr f.payload, ascii "'"] ::
          responseLog debug calls f .none
  | some .passwd =>
      if f.msgLen.toNat = 0 ∨ f.msgLen.toNat > wifiPasswdMax then
        lengthLine (ascii "PASSWD") f wifiPasswdMax :: responseLog debug calls f .unknown
      else
        logi [ascii "  >> handler: password stored, len=", decimal f.msgLen.toNat,
            ascii " (value not logged)"] :: responseLog debug calls f .none
  | some .connect =>
      logi [utf8 "  >> handler: CONNECT requested — replying IN_PROGRESS now, PUSH_RESULT (cid=0x",
          hexByte NetCommand.pushResult.byte, ascii ") will follow when the switch finishes"] ::
        (triggerConnectLog calls f.seq p ++
          responseLog debug calls f (triggerWifiConnect calls.outcomes f.seq p).2)
  | some .getApSsid =>
      logi [ascii "  >> handler: GET_AP_SSID"] ::
        (calls.backendLog ++
          match calls.outcomes.apCredentials with
          | some (apSsid, _) =>
              if apSsid.bytes ≠ [] then
                let n := min apSsid.bytes.length (protoPayloadMax - 1)
                logi [ascii "    AP SSID = '", apSsid.bytes, ascii "' (", decimal n,
                    ascii " bytes)"] ::
                  responseDataLog debug calls f .none (apSsid.bytes.take n)
              else
                loge [ascii "    failed to read AP SSID from hostapd.conf"] ::
                  responseLog debug calls f .unknown
          | none =>
              loge [ascii "    failed to read AP SSID from hostapd.conf"] ::
                responseLog debug calls f .unknown)
  | some .scanWifi =>
      logi [utf8
            "  >> handler: SCAN_WIFI requested — replying IN_PROGRESS now, PUSH_SCAN_RESULT (cid=0x",
          hexByte NetCommand.pushScanResult.byte, ascii ") frames will follow"] ::
        (triggerScanLog calls f.seq ++
          responseLog debug calls f (triggerWifiScan calls.outcomes f.seq).2)
  | some .getApPasswd =>
      logi [ascii "  >> handler: GET_AP_PASSWD"] ::
        (calls.backendLog ++
          match calls.outcomes.apCredentials with
          | some (_, apPwd) =>
              let n := min apPwd.bytes.length (protoPayloadMax - 1)
              logi [ascii "    AP PSK = (", decimal n, ascii " bytes, value not logged)"] ::
                responseDataLog debug calls f .none (apPwd.bytes.take n)
          | none =>
              loge [ascii "    failed to read AP PSK from hostapd.conf"] ::
                responseLog debug calls f .unknown)
  | some .switchToAp =>
      let errcode := wifiStatusToErrcode calls.outcomes.ensureApMode
      logi [ascii "  >> handler: SWITCH_TO_AP requested"] ::
        (calls.backendLog ++
          logi [ascii "  >> SWITCH_TO_AP done status=", statusNumber calls.outcomes.ensureApMode,
              ascii " errcode=0x", hexByte errcode.byte, ascii "(", protoErrcodeName errcode,
              ascii ")"] :: responseLog debug calls f errcode)
  | some .pushResult | some .pushScanResult | none =>
      loge [ascii "  unknown command_id 0x", hexByte f.commandId, utf8 " → reply BAD_CMD"] ::
        responseLog debug calls f .badCmd

def frameLog (calls : FrameCalls) (f : ProtoFrame) (p : Pending) : List LogLine :=
  frameDump f ++
    if f.type ≠ protoTypeReq then [logi [ascii "  not a REQ, no reply emitted"]]
    else if f.commandSet ≠ protoCmdsetNetwork then
      loge [ascii "  unsupported command_set 0x", hexByte f.commandSet,
          utf8 " → reply BAD_CMD"] :: responseLog debug calls f .badCmd
    else commandLog debug calls f p

end Handler

/-- Where bytes come from: a write to the BLE characteristic, with the object path and
the D-Bus name it logs, or a `read()` on a Unix client. -/
inductive Source where
  | ble (path sender : Bytes)
  | unix
deriving DecidableEq

/-- Bytes as one call hands them over, with a length that a `size_t` holds. -/
@[ext] structure Reception where
  source : Source
  data : Bytes
  small : data.length < 2 ^ 64
deriving DecidableEq

def logAscii (label data : Bytes) : List LogLine :=
  if (∀ c ∈ data, (0x20 ≤ c ∧ c ≤ 0x7E) ∨ c = 0x0D ∨ c = 0x0A ∨ c = 0x09) ∧ 0 < data.length then
    [logPrint .i bleTag (label ++ [0x22] ++ data ++ [0x22])]
  else []

/-- The lines of `char_method` for a write; `client_thread` logs nothing for a read. -/
def receiveLog (r : Reception) : List LogLine :=
  match r.source with
  | .ble path sender =>
      [logPrint .i bleTag (ascii "RX::WriteValue  path=" ++ path ++ ascii "  sender=" ++ sender),
        logPrint .i bleTag (ascii "  WriteValue: " ++ decimal r.data.length ++
          ascii " bytes received")] ++
      logHex bleTag (ascii "    hex ") r.data ++ logAscii (ascii "    txt ") r.data
  | .unix => []

/-- The dispatcher between two frames: its store, how many frames it has handled, and the
log so far. -/
structure Service where
  pending : Pending
  handled : Nat
  log : List LogLine

def Service.initial : Service := ⟨.initial, 0, []⟩

section Run
variable (debug : Bool) (calls : Nat → FrameCalls)

def handleLogged (f : ProtoFrame) (s : Service) : Service where
  pending := (handleProtoFrame (calls s.handled).outcomes f s.pending).1
  handled := s.handled + 1
  log := s.log ++ frameLog debug (calls s.handled) f s.pending

def decodeLine (off remaining : Nat) (st : ProtoStatus) : LogLine :=
  loge [ascii "proto_decode at offset ", decimal off, ascii " (", decimal remaining,
    ascii " bytes remaining): ", protoStatusName st]

def dispatchLogged : Nat → Nat → Bytes → Service → Service
  | 0, _, _, s => s
  | _ + 1, _, [], s => s
  | rounds + 1, off, x :: xs, s =>
      match protoDecode (some (x :: xs)) with
      | .error st => { s with log := s.log ++ [decodeLine off (x :: xs).length st] }
      | .ok f =>
          dispatchLogged rounds (off + f.frameSize) ((x :: xs).drop f.frameSize)
            (handleLogged debug calls f s)

def receive (s : Service) (r : Reception) : Service :=
  dispatchLogged debug calls r.data.length 0 r.data { s with log := s.log ++ receiveLog r }

def printed (receptions : List Reception) : List LogLine :=
  (receptions.foldl (receive debug calls) .initial).log

def serviceLog (slot : Slot) (receptions : List Reception) : List Record :=
  slot.records (printed debug calls receptions)

end Run

def IsRequest (command : NetCommand) (f : ProtoFrame) : Prop :=
  f.type = protoTypeReq ∧ f.commandSet = protoCmdsetNetwork ∧
    NetCommand.ofByte f.commandId = some command

/-- The same frame, up to the payload bytes of a PASSWD request. -/
structure SameButPasswd (f g : ProtoFrame) : Prop where
  crc : f.crc = g.crc
  type : f.type = g.type
  seq : f.seq = g.seq
  commandSet : f.commandSet = g.commandSet
  commandId : f.commandId = g.commandId
  msgLen : f.msgLen = g.msgLen
  payload : f.payload = g.payload ∨ IsRequest .passwd f

/-- The same bytes, up to the payload bytes of the PASSWD requests among their frames. -/
inductive SameBytes : Bytes → Bytes → Prop where
  | same (data : Bytes) : SameBytes data data
  | frame (f g : ProtoFrame) (rest rest' : Bytes) (frames : SameButPasswd f g)
      (more : SameBytes rest rest') : SameBytes (f.wire ++ rest) (g.wire ++ rest')

structure SameReception (r r' : Reception) : Prop where
  source : r.source = r'.source
  data : SameBytes r.data r'.data

/-- The same results of all calls, up to the bytes of the AP passphrase. -/
structure SameButPassphrase (c c' : FrameCalls) : Prop where
  delivery : c.delivery = c'.delivery
  threadError : c.threadError = c'.threadError
  backendLog : c.backendLog = c'.backendLog
  isConnected : c.outcomes.isConnected = c'.outcomes.isConnected
  ensureApMode : c.outcomes.ensureApMode = c'.outcomes.ensureApMode
  calloc : c.outcomes.calloc = c'.outcomes.calloc
  pthreadCreate : c.outcomes.pthreadCreate = c'.outcomes.pthreadCreate
  apSsid : c.outcomes.apCredentials.map Prod.fst = c'.outcomes.apCredentials.map Prod.fst
  apPwd_length : c.outcomes.apCredentials.map (fun ap => ap.2.bytes.length) =
    c'.outcomes.apCredentials.map fun ap => ap.2.bytes.length

theorem logPrint_short (level : LogLevel) (tag text : Bytes)
    (short : text.length + tag.length ≤ 1256) : logPrint level tag text = ⟨level, tag, text⟩ := by
  rw [logPrint, List.take_of_length_le (by omega)]

theorem logHex_eq (tag label data : Bytes) (narrow : label.length + tag.length ≤ 1185)
    (small : data.length < 2 ^ 64) :
    logHex tag label data = (hexDump label data).map fun text => ⟨.i, tag, text⟩ := by
  refine List.map_congr_left fun text member => logPrint_short .i tag text ?_
  have width := hexDump_line_length_le label data small text member
  omega

theorem logHex_inj (tag label a b : Bytes) (narrow : label.length + tag.length ≤ 1185)
    (small : a.length < 2 ^ 64) (length : a.length = b.length) :
    logHex tag label a = logHex tag label b ↔ a = b := by
  refine ⟨fun same => ?_, fun same => by rw [same]⟩
  rw [logHex_eq tag label a narrow small, logHex_eq tag label b narrow (length ▸ small)] at same
  refine hexDump_injective label a b length (List.map_injective_iff.mpr ?_ same)
  intro text text' lines
  exact (LogLine.mk.inj lines).2.2

theorem logHex_pins (tag label a b : Bytes) (narrow : label.length + tag.length ≤ 1185)
    (small : a.length < 2 ^ 64) (length : a.length = b.length) :
    Pins (logHex tag label a) (logHex tag label b) (a = b) := by
  refine (pins_of_length ?_).congr (logHex_inj tag label a b narrow small length)
  rw [logHex, logHex, List.length_map, List.length_map, hexDump_length_eq label a b length]

theorem SameButPasswd.eq_iff {f g : ProtoFrame} (same : SameButPasswd f g) :
    f = g ↔ f.payload = g.payload := by
  refine ⟨fun eq => by rw [eq], fun payloads => ?_⟩
  obtain ⟨crc, type, seq, commandSet, commandId, msgLen, payload, frameSize, len, le, size⟩ := f
  obtain ⟨crc', type', seq', commandSet', commandId', msgLen', payload', frameSize', len', le',
    size'⟩ := g
  obtain ⟨rfl, rfl, rfl, rfl, rfl, rfl, _⟩ := same
  subst payloads size size'
  rfl

theorem SameButPasswd.frameSize {f g : ProtoFrame} (same : SameButPasswd f g) :
    f.frameSize = g.frameSize := by
  rw [f.frameSize_eq, g.frameSize_eq, same.msgLen]

theorem frameDump_pins (f g : ProtoFrame) (same : SameButPasswd f g) :
    Pins (frameDump f) (frameDump g) (f = g) := by
  have length : f.payload.length = g.payload.length := by
    rw [f.payload_length, g.payload_length, same.msgLen]
  have small : f.payload.length < 2 ^ 64 := by
    have := f.msgLen_le
    rw [f.payload_length]
    simp only [protoPayloadMax] at this
    omega
  have dump := logHex_pins protoTag (ascii "    hex ") f.payload g.payload (by decide) small length
  rw [frameDump, frameDump, same.frameSize, same.crc, same.type, same.seq, same.commandSet,
    same.commandId, same.msgLen]
  refine ((pins_self _).append fun _ => ?_ : Pins _ _ (True ∧ f = g)).congr (by rw [true_and])
  by_cases empty : g.msgLen.toNat = 0
  · rw [if_pos empty, if_pos empty]
    refine (pins_self _).congr (iff_of_true trivial (same.eq_iff.mpr ?_))
    rw [List.length_eq_zero_iff.mp (length.trans (g.payload_length.trans empty)),
      List.length_eq_zero_iff.mp (g.payload_length.trans empty)]
  · rw [if_neg empty, if_neg empty]
    exact (dump.cons fun payloads => by rw [payloads]).congr same.eq_iff.symm

theorem sendFrameLog_eq (debug : Bool) (delivery : Delivery)
    (type seq commandSet commandId : UInt8) (payload : Bytes)
    (small : payload.length ≤ protoPayloadMax) :
    sendFrameLog debug delivery type seq commandSet commandId payload =
      logi [ascii "-> ", protoTypeName type, ascii " seq=0x", hexByte seq, ascii " cs=0x",
          hexByte commandSet, ascii "(", protoCommandSetName commandSet, ascii ") cid=0x",
          hexByte commandId, ascii "(", protoCommandIdName commandId, ascii ") plen=",
          decimal payload.length, ascii " total=", decimal (protoHdrLen + payload.length),
          ascii " bytes"] ::
        (logHex protoTag (ascii "   tx ") (frameWire type seq commandSet commandId payload) ++
          sinkLog debug (frameWire type seq commandSet commandId payload) delivery) := by
  have length : (frameWire type seq commandSet commandId payload).length =
      protoHdrLen + payload.length := by
    rw [frameWire, List.length_append, header_length]
  rw [sendFrameLog, protoEncode_frameWire _ _ _ _ _ small, ← length]

theorem sendFrameLog_pins (debug : Bool) (delivery : Delivery)
    (type seq commandSet commandId : UInt8) (payload payload' : Bytes)
    (small : payload.length ≤ protoPayloadMax) (length : payload.length = payload'.length) :
    Pins (sendFrameLog debug delivery type seq commandSet commandId payload)
      (sendFrameLog debug delivery type seq commandSet commandId payload')
      (payload = payload') := by
  have wire_small : (frameWire type seq commandSet commandId payload).length < 2 ^ 64 := by
    rw [frameWire, List.length_append, header_length]
    simp only [protoPayloadMax] at small
    simp only [protoHdrLen]
    omega
  have wires : frameWire type seq commandSet commandId payload =
      frameWire type seq commandSet commandId payload' ↔ payload = payload' := by
    rw [frameWire, frameWire, length, List.append_cancel_left_eq]
  have wire_length : (frameWire type seq commandSet commandId payload).length =
      (frameWire type seq commandSet commandId payload').length := by
    rw [frameWire, frameWire, List.length_append, List.length_append, length]
  have dump := logHex_pins protoTag (ascii "   tx ") _ _ (by decide) wire_small wire_length
  rw [sendFrameLog_eq _ _ _ _ _ _ payload small,
    sendFrameLog_eq _ _ _ _ _ _ payload' (length ▸ small), length]
  refine (Pins.cons (dump.append fun same => ?_) fun _ => rfl : Pins _ _ (_ ∧ True)).congr ?_
  · rw [same]
    exact pins_self _
  · rw [and_true, wires]

/-- Every handler except GET_AP_PASSWD logs without regard to the passphrase. -/
theorem commandLog_eq (debug : Bool) (c c' : FrameCalls) (f : ProtoFrame) (p : Pending)
    (same : SameButPassphrase c c') (other : NetCommand.ofByte f.commandId ≠ some .getApPasswd) :
    commandLog debug c f p = commandLog debug c' f p := by
  obtain ⟨⟨connected, credentials, ap, calloc, create⟩, delivery, error, lines⟩ := c
  obtain ⟨⟨connected', credentials', ap', calloc', create'⟩, delivery', error', lines'⟩ := c'
  obtain ⟨rfl, rfl, rfl, rfl, rfl, rfl, rfl, names, lengths⟩ := same
  rw [commandLog, commandLog]
  split
  · rfl
  · rfl
  · rfl
  · rfl
  · rfl
  · cases credentials with
    | none =>
        cases credentials' with
        | none => rfl
        | some ap' => cases names
    | some ap =>
        cases credentials' with
        | none => cases names
        | some ap' =>
            have name : ap.1 = ap'.1 := Option.some.inj names
            simp only [name]
            rfl
  · rfl
  · exact absurd ‹_› other
  · rfl
  · rfl
  · rfl
  · rfl

theorem apPasswd_data (apPwd : CString 128) :
    apPwd.bytes.take (min apPwd.bytes.length (protoPayloadMax - 1)) = apPwd.bytes := by
  have short := apPwd.length_lt
  simp only [protoPayloadMax]
  rw [min_eq_left (by omega), List.take_length]

theorem commandLog_getApPasswd_pins (debug : Bool) (c c' : FrameCalls) (f : ProtoFrame)
    (p : Pending) (same : SameButPassphrase c c')
    (command : NetCommand.ofByte f.commandId = some .getApPasswd) :
    Pins (commandLog debug c f p) (commandLog debug c' f p)
      (c.outcomes.apCredentials = c'.outcomes.apCredentials) := by
  obtain ⟨⟨connected, credentials, ap, calloc, create⟩, delivery, error, lines⟩ := c
  obtain ⟨⟨connected', credentials', ap', calloc', create'⟩, delivery', error', lines'⟩ := c'
  obtain ⟨rfl, rfl, rfl, rfl, rfl, rfl, rfl, names, lengths⟩ := same
  simp only [commandLog, command]
  cases credentials with
  | none =>
      cases credentials' with
      | none => exact (pins_self _).congr (iff_of_true trivial rfl)
      | some ap' => cases names
  | some ap =>
      cases credentials' with
      | none => cases names
      | some ap' =>
          have name : ap.1 = ap'.1 := Option.some.inj names
          have length : ap.2.bytes.length = ap'.2.bytes.length := Option.some.inj lengths
          have small : ap.2.bytes.length + 1 ≤ protoPayloadMax := by
            have short := ap.2.length_lt
            simp only [protoPayloadMax]
            omega
          have answer := sendFrameLog_pins debug delivery protoTypeResp f.seq f.commandSet
            f.commandId (ErrCode.none.byte :: ap.2.bytes) (ErrCode.none.byte :: ap'.2.bytes) small
            (congrArg (· + 1) length)
          simp only [apPasswd_data, responseDataLog]
          rw [if_neg (by omega), if_neg (by omega), length]
          refine (((pins_self lines).append fun _ => answer.cons fun _ => rfl).cons
            fun _ => rfl : Pins _ _ (True ∧ _)).congr ?_
          rw [true_and, List.cons.injEq, eq_self, true_and, Option.some.injEq, Prod.ext_iff,
            CString.ext_iff (x := ap.2), name, eq_self, true_and]

def PassphraseAgrees (c c' : FrameCalls) (f : ProtoFrame) : Prop :=
  IsRequest .getApPasswd f → c.outcomes.apCredentials = c'.outcomes.apCredentials

theorem frameLog_tail_pins (debug : Bool) (c c' : FrameCalls) (f : ProtoFrame) (p : Pending)
    (same : SameButPassphrase c c') :
    ∃ tail tail', frameLog debug c f p = frameDump f ++ tail ∧
      frameLog debug c' f p = frameDump f ++ tail' ∧ Pins tail tail' (PassphraseAgrees c c' f) := by
  refine ⟨_, _, rfl, rfl, ?_⟩
  by_cases asks : IsRequest .getApPasswd f
  · obtain ⟨req, network, command⟩ := asks
    rw [if_neg (not_not.mpr req), if_neg (not_not.mpr network), if_neg (not_not.mpr req),
      if_neg (not_not.mpr network)]
    exact (commandLog_getApPasswd_pins debug c c' f p same command).congr
      ⟨fun agree _ => agree, fun agree => agree ⟨req, network, command⟩⟩
  · have agrees : True ↔ PassphraseAgrees c c' f := iff_of_true trivial fun asked => absurd asked asks
    refine Pins.congr ?_ agrees
    by_cases req : f.type = protoTypeReq
    · rw [if_neg (not_not.mpr req), if_neg (not_not.mpr req)]
      by_cases network : f.commandSet = protoCmdsetNetwork
      · rw [if_neg (not_not.mpr network), if_neg (not_not.mpr network),
          commandLog_eq debug c c' f p same fun command => asks ⟨req, network, command⟩]
        exact pins_self _
      · rw [if_pos network, if_pos network, responseLog, responseLog, same.delivery]
        exact pins_self _
    · rw [if_pos req, if_pos req]
      exact pins_self _

theorem frameLog_pins (debug : Bool) (c c' : FrameCalls) (f g : ProtoFrame) (p : Pending)
    (calls : SameButPassphrase c c') (frames : SameButPasswd f g) :
    Pins (frameLog debug c f p) (frameLog debug c' g p) (f = g ∧ PassphraseAgrees c c' f) := by
  refine (frameDump_pins f g frames).append fun eq => ?_
  subst eq
  obtain ⟨tail, tail', left, right, pins⟩ := frameLog_tail_pins debug c c' f p calls
  rw [List.append_cancel_left left, List.append_cancel_left right]
  exact pins

theorem handleProtoFrame_store (o o' : Outcomes) (f : ProtoFrame) (p : Pending) :
    (handleProtoFrame o f p).1 = (handleProtoFrame o' f p).1 := by
  have pairs := (StagedNetwork.handleProtoFrame_stores o f p).pair.trans
    (StagedNetwork.handleProtoFrame_stores o' f p).pair.symm
  exact Pending.ext (Prod.ext_iff.mp pairs).1 (Prod.ext_iff.mp pairs).2

/-- Two runs side by side: their logs so far agree exactly if the condition holds, and
then they are in the same state. -/
structure Aligned (s s' : Service) (C : Prop) : Prop where
  log : Pins s.log s'.log C
  handled : s.handled = s'.handled
  pending : C → s.pending = s'.pending

theorem Aligned.congr {s s' : Service} {C D : Prop} (aligned : Aligned s s' C) (same : C ↔ D) :
    Aligned s s' D :=
  ⟨aligned.log.congr same, aligned.handled, fun holds => aligned.pending (same.mpr holds)⟩

def handledFrames (receptions : List Reception) : List ProtoFrame :=
  receptions.flatMap fun r => frames protoFraming r.data

theorem handledFrames_cons (r : Reception) (rs : List Reception) :
    handledFrames (r :: rs) = frames protoFraming r.data ++ handledFrames rs := List.flatMap_cons

section TwoRuns
variable (debug : Bool) (calls calls' : Nat → FrameCalls)

/-- The passphrases agree at every GET_AP_PASSWD among these frames, the first of which
is the given one of the run. -/
def PassphrasesAgree (first : Nat) (fs : List ProtoFrame) : Prop :=
  ∀ i f, fs[i]? = some f → PassphraseAgrees (calls (first + i)) (calls' (first + i)) f

theorem passphrasesAgree_nil (first : Nat) : PassphrasesAgree calls calls' first [] := by
  intro i f found
  simp at found

theorem passphrasesAgree_cons (first : Nat) (f : ProtoFrame) (fs : List ProtoFrame) :
    PassphrasesAgree calls calls' first (f :: fs) ↔
      PassphraseAgrees (calls first) (calls' first) f ∧
        PassphrasesAgree calls calls' (first + 1) fs := by
  refine ⟨fun all => ⟨all 0 f rfl, fun i g found => ?_⟩, fun parts i g found => ?_⟩
  · rw [Nat.add_right_comm]
    exact all (i + 1) g found
  · cases i with
    | zero =>
        cases found
        exact parts.1
    | succ i =>
        have later := parts.2 i g found
        rwa [Nat.add_right_comm] at later

theorem passphrasesAgree_append (first : Nat) (fs gs : List ProtoFrame) :
    PassphrasesAgree calls calls' first (fs ++ gs) ↔
      PassphrasesAgree calls calls' first fs ∧
        PassphrasesAgree calls calls' (first + fs.length) gs := by
  induction fs generalizing first with
  | nil => simp [passphrasesAgree_nil]
  | cons f fs ih =>
      rw [List.cons_append, passphrasesAgree_cons, passphrasesAgree_cons, ih, and_assoc,
        List.length_cons, Nat.add_right_comm, Nat.add_assoc]

theorem SameBytes.length {data data' : Bytes} (same : SameBytes data data') :
    data.length = data'.length := by
  induction same with
  | same data => rfl
  | frame f g rest rest' frames more ih =>
      rw [List.length_append, List.length_append, f.wire_length, g.wire_length, frames.frameSize, ih]

theorem wire_append_eq_iff (f g : ProtoFrame) (rest rest' : Bytes) :
    f.wire ++ rest = g.wire ++ rest' ↔ f = g ∧ rest = rest' := by
  refine ⟨fun bytes => ?_, fun parts => by rw [parts.1, parts.2]⟩
  have decoded := congrArg (fun data => protoDecode (some data)) bytes
  simp only [protoDecode_wire_append, Except.ok.injEq] at decoded
  subst decoded
  exact ⟨rfl, List.append_cancel_left bytes⟩

theorem frames_frame_append (f : ProtoFrame) (rest : Bytes) :
    frames protoFraming (f.wire ++ rest) = f :: frames protoFraming rest :=
  frames_wire_append protoFraming f rest

theorem frames_of_error {data : Bytes} {st : ProtoStatus}
    (stopped : protoDecode (some data) = .error st) : frames protoFraming data = [] := by
  refine frames_of_read_none protoFraming data ?_
  simp only [protoFraming, protoRead, stopped]

@[simp] theorem handleLogged_handled (f : ProtoFrame) (s : Service) :
    (handleLogged debug calls f s).handled = s.handled + 1 := rfl

theorem dispatchLogged_wire_append (rounds off : Nat) (f : ProtoFrame) (rest : Bytes)
    (s : Service) :
    dispatchLogged debug calls (rounds + 1) off (f.wire ++ rest) s =
      dispatchLogged debug calls rounds (off + f.frameSize) rest (handleLogged debug calls f s) := by
  have decoded := protoDecode_wire_append f rest
  cases whole : f.wire ++ rest with
  | nil => exact absurd (List.append_eq_nil_iff.mp whole).1 (protoFraming.wire_ne_nil f)
  | cons x xs =>
      rw [whole] at decoded
      simp only [dispatchLogged, decoded]
      rw [← whole, ← f.wire_length, List.drop_left]

theorem dispatchLogged_of_error (rounds off : Nat) {data : Bytes} {st : ProtoStatus} (s : Service)
    (stopped : protoDecode (some data) = .error st) (enough : data.length ≤ rounds) :
    dispatchLogged debug calls rounds off data s =
      { s with log := s.log ++ if data = [] then [] else [decodeLine off data.length st] } := by
  cases data with
  | nil => cases rounds <;> simp [dispatchLogged]
  | cons x xs =>
      cases rounds with
      | zero => simp at enough
      | succ rounds => simp only [dispatchLogged, stopped, reduceCtorEq, if_false]

theorem dispatchLogged_handled (rounds off : Nat) (data : Bytes) (s : Service)
    (enough : data.length ≤ rounds) :
    (dispatchLogged debug calls rounds off data s).handled =
      s.handled + (frames protoFraming data).length := by
  induction rounds generalizing off data s with
  | zero =>
      rw [List.length_eq_zero_iff.mp (Nat.le_zero.mp enough)]
      rfl
  | succ rounds ih =>
      cases decoded : protoDecode (some data) with
      | error st => 
          rw [dispatchLogged_of_error debug calls _ off s decoded enough,
            frames_of_error decoded]
          rfl
      | ok f =>
          obtain ⟨rest, rfl⟩ := wire_prefix_of_protoDecode data f decoded
          have shorter : rest.length ≤ rounds := by
            have size := f.frameSize_pos
            rw [List.length_append, f.wire_length] at enough
            omega
          rw [dispatchLogged_wire_append, ih _ _ _ shorter, frames_frame_append,
            List.length_cons, handleLogged_handled]
          omega

theorem SameBytes.cases_next {data data' : Bytes} (same : SameBytes data data') :
    (data = data' ∧ ∃ st, protoDecode (some data) = .error st) ∨
    ∃ f g rest rest', data = f.wire ++ rest ∧ data' = g.wire ++ rest' ∧ SameButPasswd f g ∧
      SameBytes rest rest' := by
  cases same with
  | same data =>
      cases decoded : protoDecode (some data) with
      | error st => exact .inl ⟨rfl, st, rfl⟩
      | ok f =>
          obtain ⟨rest, rfl⟩ := wire_prefix_of_protoDecode data f decoded
          exact .inr ⟨f, f, rest, rest, rfl, rfl, ⟨rfl, rfl, rfl, rfl, rfl, rfl, .inl rfl⟩, .same rest⟩
  | frame f g rest rest' frames more => exact .inr ⟨f, g, rest, rest', rfl, rfl, frames, more⟩

variable {calls calls'} (same : ∀ i, SameButPassphrase (calls i) (calls' i))
include same

theorem aligned_handleLogged {s s' : Service} {C : Prop} {f g : ProtoFrame}
    (aligned : Aligned s s' C) (frames : SameButPasswd f g) :
    Aligned (handleLogged debug calls f s) (handleLogged debug calls' g s')
      (C ∧ f = g ∧ PassphraseAgrees (calls s.handled) (calls' s.handled) f) where
  log := by
    refine aligned.log.append fun holds => ?_
    rw [aligned.pending holds, aligned.handled]
    exact frameLog_pins debug _ _ f g _ (same _) frames
  handled := congrArg (· + 1) aligned.handled
  pending := by
    rintro ⟨holds, eq, _⟩
    simp only [handleLogged, aligned.pending holds, eq]
    exact handleProtoFrame_store _ _ g s'.pending

theorem aligned_dispatchLogged (rounds off : Nat) {s s' : Service} {C : Prop} {data data' : Bytes}
    (aligned : Aligned s s' C) (bytes : SameBytes data data') (enough : data.length ≤ rounds) :
    Aligned (dispatchLogged debug calls rounds off data s)
      (dispatchLogged debug calls' rounds off data' s')
      (C ∧ data = data' ∧ PassphrasesAgree calls calls' s.handled (frames protoFraming data)) := by
  induction rounds generalizing off s s' C data data' with
  | zero =>
      have empty := List.length_eq_zero_iff.mp (Nat.le_zero.mp enough)
      have empty' := List.length_eq_zero_iff.mp (bytes.length ▸ Nat.le_zero.mp enough)
      subst empty empty'
      refine aligned.congr (iff_self_and.mpr fun _ => ⟨rfl, ?_⟩)
      exact passphrasesAgree_nil calls calls' s.handled
  | succ rounds ih =>
      rcases bytes.cases_next with ⟨rfl, st, stopped⟩ | ⟨f, g, rest, rest', rfl, rfl, frames, more⟩
      · rw [dispatchLogged_of_error debug calls _ off s stopped enough,
          dispatchLogged_of_error debug calls' _ off s' stopped enough,
          frames_of_error stopped]
        refine Aligned.congr ⟨aligned.log.append fun _ => pins_self _, aligned.handled,
          fun holds => aligned.pending holds.1⟩ ?_
        exact and_congr_right fun _ =>
          iff_of_true trivial ⟨rfl, passphrasesAgree_nil calls calls' s.handled⟩
      · have shorter : rest.length ≤ rounds := by
          have size := f.frameSize_pos
          rw [List.length_append, f.wire_length] at enough
          omega
        rw [dispatchLogged_wire_append, dispatchLogged_wire_append, frames.frameSize]
        have next := aligned_handleLogged debug same aligned frames
        refine (ih (off + g.frameSize) next more shorter).congr ?_
        rw [wire_append_eq_iff, frames_frame_append, passphrasesAgree_cons, handleLogged_handled]
        tauto

omit same in
theorem receiveLog_pins (r r' : Reception) (receptions : SameReception r r') :
    ∃ C, Pins (receiveLog r) (receiveLog r') C ∧ (r.data = r'.data → C) := by
  have length := receptions.data.length
  rw [receiveLog, receiveLog, ← receptions.source]
  cases r.source with
  | unix => exact ⟨True, pins_self [], fun _ => trivial⟩
  | ble path sender =>
      have dump := logHex_pins bleTag (ascii "    hex ") r.data r'.data (by decide) r.small length
      refine ⟨(True ∧ r.data = r'.data) ∧ True, ?_, fun eq => ⟨⟨trivial, eq⟩, trivial⟩⟩
      simp only [length]
      refine ((pins_self _).append fun _ => dump).append fun both => ?_
      rw [both.2]
      exact pins_self _

theorem aligned_receive {s s' : Service} {C : Prop} {r r' : Reception} (aligned : Aligned s s' C)
    (receptions : SameReception r r') :
    Aligned (receive debug calls s r) (receive debug calls' s' r')
      (C ∧ r.data = r'.data ∧ PassphrasesAgree calls calls' s.handled (frames protoFraming r.data)) := by
  obtain ⟨D, pins, implied⟩ := receiveLog_pins r r' receptions
  have received : Aligned { s with log := s.log ++ receiveLog r }
      { s' with log := s'.log ++ receiveLog r' } (C ∧ D) :=
    ⟨aligned.log.append fun _ => pins, aligned.handled, fun holds => aligned.pending holds.1⟩
  rw [receive, receive, ← receptions.data.length]
  refine (aligned_dispatchLogged debug same r.data.length 0 received receptions.data le_rfl).congr ?_
  tauto

theorem aligned_foldl {s s' : Service} {C : Prop} {rs rs' : List Reception}
    (aligned : Aligned s s' C) (receptions : List.Forall₂ SameReception rs rs') :
    Aligned (rs.foldl (receive debug calls) s) (rs'.foldl (receive debug calls') s')
      (C ∧ rs = rs' ∧ PassphrasesAgree calls calls' s.handled (handledFrames rs)) := by
  induction receptions generalizing s s' C with
  | nil =>
      refine aligned.congr (iff_self_and.mpr fun _ => ⟨rfl, ?_⟩)
      exact passphrasesAgree_nil calls calls' s.handled
  | @cons r r' rs rs' first rest ih =>
      refine (ih (aligned_receive debug same aligned first)).congr ?_
      have equal : r.data = r'.data ↔ r = r' := by
        rw [Reception.ext_iff, and_iff_right first.source]
      rw [receive, dispatchLogged_handled debug calls _ _ _ _ le_rfl, List.cons.injEq, equal,
        handledFrames_cons, passphrasesAgree_append]
      tauto

theorem printed_agrees_iff (rs rs' : List Reception)
    (receptions : List.Forall₂ SameReception rs rs') :
    printed debug calls rs = printed debug calls' rs' ↔
      rs = rs' ∧ PassphrasesAgree calls calls' 0 (handledFrames rs) := by
  have start : Aligned .initial .initial True := ⟨pins_self [], rfl, fun _ => rfl⟩
  have final := (aligned_foldl debug same start receptions).log.eq_iff
  rw [printed, printed, final, true_and]
  rfl

end TwoRuns

/-- Two runs that differ only in secrets log the same lines exactly if the secrets do not
differ (no PASSWD payload differs, and no GET_AP_PASSWD is answered with a different
passphrase), or the slot is full before the first line that shows it. -/
theorem serviceLog_eq_iff (debug : Bool) (slot : Slot) (calls calls' : Nat → FrameCalls)
    (rs rs' : List Reception) (receptions : List.Forall₂ SameReception rs rs')
    (same : ∀ i, SameButPassphrase (calls i) (calls' i)) :
    serviceLog debug calls slot rs = serviceLog debug calls' slot rs' ↔
      (rs = rs' ∧ ∀ i f, (handledFrames rs)[i]? = some f → IsRequest .getApPasswd f →
        (calls i).outcomes.apCredentials = (calls' i).outcomes.apCredentials) ∨
      (slot.after (common (printed debug calls rs) (printed debug calls' rs'))).silent = true := by
  rw [serviceLog, serviceLog, Slot.records_eq_iff, printed_agrees_iff debug same rs rs' receptions]
  simp only [PassphrasesAgree, PassphraseAgrees, Nat.zero_add]

def eightTimes (c : UInt8) : Bytes := List.replicate 8 c

def passwdRequest (c : UInt8) : ProtoFrame :=
  .ofPayload 0 protoTypeReq 1 protoCmdsetNetwork NetCommand.passwd.byte 8 (eightTimes c) rfl
    (by decide)

def passphraseA : CString 128 := ⟨eightTimes 0x61, by decide, by decide⟩

def passphraseB : CString 128 := ⟨eightTimes 0x62, by decide, by decide⟩

def callsWith (passphrase : CString 128) (_ : Nat) : FrameCalls where
  outcomes := ⟨false, some (⟨[0x74], by decide, by decide⟩, passphrase), .ok, true, true⟩
  delivery := .unixWritten
  threadError := []
  backendLog := []

theorem wire_small (f : ProtoFrame) : f.wire.length < 2 ^ 64 := by
  have bound := f.msgLen_le
  rw [f.wire_length, f.frameSize_eq]
  simp only [protoHdrLen, protoPayloadMax] at *
  omega

def readOf (f : ProtoFrame) : Reception := ⟨.unix, f.wire, wire_small f⟩

theorem sameReception_readOf (f g : ProtoFrame) (frames : SameButPasswd f g) :
    SameReception (readOf f) (readOf g) := by
  refine ⟨rfl, ?_⟩
  have bytes := SameBytes.frame f g [] [] frames (.same [])
  rwa [List.append_nil, List.append_nil] at bytes

theorem sameButPasswd_passwdRequest (a b : UInt8) :
    SameButPasswd (passwdRequest a) (passwdRequest b) :=
  ⟨rfl, rfl, rfl, rfl, rfl, rfl, .inr ⟨rfl, rfl, rfl⟩⟩

theorem sameReceptions_passwdRequest (a b : UInt8) :
    List.Forall₂ SameReception [readOf (passwdRequest a)] [readOf (passwdRequest b)] :=
  .cons (sameReception_readOf _ _ (sameButPasswd_passwdRequest a b)) .nil

theorem sameReceptions_self (f : ProtoFrame) :
    List.Forall₂ SameReception [readOf f] [readOf f] := .cons ⟨rfl, .same _⟩ .nil

theorem callsWith_same (i : Nat) :
    SameButPassphrase (callsWith passphraseA i) (callsWith passphraseB i) := by
  constructor <;> rfl

def newSlot : Slot := ⟨true, 0, false⟩
def nearlyFull : Slot := ⟨true, 10 * 1024 * 1024 - 10, false⟩

/-- The passwords differ, but after the first line of the dump the slot is full. -/
theorem serviceLog_eq_iff_full :
    serviceLog false (callsWith passphraseA) nearlyFull [readOf (passwdRequest 0x61)] =
      serviceLog false (callsWith passphraseB) nearlyFull [readOf (passwdRequest 0x62)] :=
  (serviceLog_eq_iff false nearlyFull _ _ _ _ (sameReceptions_passwdRequest _ _) callsWith_same).mpr
    (.inr (by decide +kernel))

/-- Two passwords of the same length, and two AP passphrases of the same length, leave
different logs in a new slot. -/
theorem serviceLog_shows_secrets :
    serviceLog false (callsWith passphraseA) newSlot [readOf (passwdRequest 0x61)] ≠
        serviceLog false (callsWith passphraseA) newSlot [readOf (passwdRequest 0x62)] ∧
      serviceLog false (callsWith passphraseA) newSlot [readOf (bareRequest 1 .getApPasswd)] ≠
        serviceLog false (callsWith passphraseB) newSlot [readOf (bareRequest 1 .getApPasswd)] := by
  constructor
  · intro logs
    rcases (Slot.records_eq_iff newSlot _ _).mp logs with printed | silent
    · have calls (i : Nat) : SameButPassphrase (callsWith passphraseA i) (callsWith passphraseA i) := by
        constructor <;> rfl
      have equal := ((printed_agrees_iff false calls _ _
        (sameReceptions_passwdRequest 0x61 0x62)).mp printed).1
      have wires := congrArg Reception.data (List.singleton_inj.mp equal)
      exact absurd wires (by decide)
    · exact absurd silent (by decide +kernel)
  · intro logs
    rcases (Slot.records_eq_iff newSlot _ _).mp logs with printed | silent
    · have agree := ((printed_agrees_iff false callsWith_same _ _
        (sameReceptions_self _)).mp printed).2
      have same := agree 0 (bareRequest 1 .getApPasswd) (by decide) ⟨rfl, rfl, by decide⟩
      have phrases := congrArg (fun ap => ap.map fun ap => ap.2.bytes) same
      exact absurd phrases (by decide)
    · exact absurd silent (by decide +kernel)

end WfyApp.ServiceLog
