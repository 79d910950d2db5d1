import WfyApp.A733Switch
import WfyApp.StepSystem

/-! The credentials of the access point on the A733 backend (wifi_switch_a733.c): the
reader of hostapd.conf, what `ensure_ap_mode_locked` passes to nmcli, and what the
handlers of GET_AP_SSID and GET_AP_PASSWD tell the phone. Buffers are not empty, and
pointers are not null. -/

namespace WfyApp.ApCredentials
open ByteText ProtoCodec ProtoDispatch HomeWifi ShellWords A733Switch StepSystem

def apSsid : Bytes := ascii "WFY_TEST"
def apPasswd : Bytes := ascii "12345678"
def apCidr : Bytes := ascii "192.168.50.1/24"

/-- The output buffers of `parse_hostapd_credentials`, and `have_ssid`. -/
structure HostapdFields (ssidSz pwdSz : Nat) where
  ssid : CString ssidSz
  passwd : CString pwdSz
  haveSsid : Bool

def ssidKey : Bytes := ascii "ssid="
def passphraseKey : Bytes := ascii "wpa_passphrase="

def valueOf (key line : Bytes) : Option Bytes :=
  let t := stripRight isspace (stripLeft isspace line)
  if key.isPrefixOf t then some (t.drop key.length) else none

section Parse
variable (ssidSz pwdSz : Nat) [NeZero ssidSz] [NeZero pwdSz]

def storeHostapdLine (out : HostapdFields ssidSz pwdSz) (line : Bytes) :
    HostapdFields ssidSz pwdSz :=
  match valueOf ssidKey line with
  | some value =>
      { out with
        ssid := .printed ssidSz value
        haveSsid := (CString.printed ssidSz value).bytes ≠ [] }
  | none =>
      match valueOf passphraseKey line with
      | some value => { out with passwd := .printed pwdSz value }
      | none => out

def parseHostapdCredentials (file : Option Bytes) : Option (CString ssidSz × CString pwdSz) :=
  (readFileAll 2048 file).bind fun buf =>
    let out := (textLines buf).foldl (storeHostapdLine ssidSz pwdSz)
      ⟨.printed ssidSz [], .printed pwdSz [], false⟩
    if out.haveSsid then some (out.ssid, out.passwd) else none

def getApCredentials (file : Option Bytes) : Option (CString ssidSz × CString pwdSz) :=
  match parseHostapdCredentials ssidSz pwdSz file with
  | some credentials => some credentials
  | none =>
      if (CString.printed ssidSz apSsid).bytes ≠ [] then
        some (.printed ssidSz apSsid, .printed pwdSz apPasswd)
      else none

end Parse

/-- The name and the password that `ensure_ap_mode_locked` uses. -/
def hotspotCredentials (file : Option Bytes) : CString 128 × CString 128 :=
  let (ssid, pwd) := (getApCredentials 128 128 file).getD
    (.printed 128 apSsid, .printed 128 apPasswd)
  (ssid, if pwd.bytes.length < 8 then .printed 128 apPasswd else pwd)

inductive ApAction where
  | downSta
  | downAp
  | deleteAp
  | radioOn
  | setManaged
  | hotspot
  | modifyAp
  | upAp
deriving DecidableEq, Repr

structure ApQuoted where
  ssidq : Bytes
  pwdq : Bytes
  ifq : Bytes
  apq : Bytes
  staq : Bytes

def quoteApArgs (ssid pwd : Bytes) : Option ApQuoted := do
  let ssidq ← (shellQuote ssid 256).text?
  let pwdq ← (shellQuote pwd 256).text?
  let ifq ← (shellQuote staIface 128).text?
  let apq ← (shellQuote nmApConn 256).text?
  let staq ← (shellQuote nmStaConn 256).text?
  return ⟨ssidq, pwdq, ifq, apq, staq⟩

def literalLine (text : Bytes) : CommandLine := ⟨text.length + 1, ⟨text, text.length⟩⟩

def ApAction.line (q : ApQuoted) : ApAction → CommandLine
  | downSta => commandLine 1400 (ascii "nmcli -w 10 connection down %s >/dev/null 2>&1") [q.staq]
  | downAp => commandLine 1400 (ascii "nmcli -w 10 connection down %s >/dev/null 2>&1") [q.apq]
  | deleteAp => commandLine 1400 (ascii "nmcli connection delete %s >/dev/null 2>&1") [q.apq]
  | radioOn => literalLine (ascii "nmcli radio wifi on >/dev/null 2>&1")
  | setManaged => commandLine 1400 (ascii "nmcli device set %s managed yes >/dev/null 2>&1") [q.ifq]
  | hotspot => commandLine 1400
      (ascii "nmcli -w 40 device wifi hotspot ifname %s con-name %s ssid %s password %s 2>&1")
      [q.ifq, q.apq, q.ssidq, q.pwdq]
  | modifyAp => commandLine 1400
      (ascii "nmcli connection modify %s ipv4.method shared ipv4.addresses %s >/dev/null 2>&1")
      [q.apq, apCidr]
  | upAp => commandLine 1400 (ascii "nmcli -w 40 connection up %s 2>&1") [q.apq]

/-- The commands executed, given whether the system is ready and the exit codes. -/
def ensureApModeLocked (ready : Bool) (rc : ApAction → Int) (file : Option Bytes) :
    List (ApAction × CommandLine) × WifiSwitchStatus :=
  let (ssid, pwd) := hotspotCredentials file
  if !ready then ([], .errUnknown)
  else
    match quoteApArgs ssid.bytes pwd.bytes with
    | none => ([], .errUnknown)
    | some q =>
        let start := [.downSta, .downAp, .deleteAp, .radioOn, .setManaged, .hotspot]
        let force := [.modifyAp, .downAp, .upAp]
        let executed (actions : List ApAction) := actions.map fun a => (a, a.line q)
        if rc .hotspot ≠ 0 then (executed start, .errConnectFail)
        else (executed (start ++ force), if rc .upAp ≠ 0 then .errConnectFail else .ok)

def hotspotCommand (ssid pwd : Bytes) : SimpleCommand :=
  ⟨["nmcli", "-w", "40", "device", "wifi", "hotspot", "ifname"].map ascii ++
    [staIface, ascii "con-name", nmApConn, ascii "ssid", ssid, ascii "password", pwd], intoOutput⟩

/-- While the file is unchanged, every request of this kind is answered with the value. -/
def Reports (file : Option Bytes) (command : NetCommand) (value : Bytes) : Prop :=
  ∀ o f p, o.apCredentials = getApCredentials 64 128 file → f.type = protoTypeReq →
    f.commandSet = protoCmdsetNetwork → NetCommand.ofByte f.commandId = some command →
    (handleProtoFrame o f p).2 = [.send (replyWire f (ErrCode.none.byte :: value))]

def fileValue (key : Bytes) (file : Option Bytes) : Bytes :=
  latest (valueOf key) [] (textLines ((readFileAll 2048 file).getD []))

/-- Either the file names no network, or its name fits the smaller buffer and its
passphrase is long enough to be used. -/
def Matching (file : Option Bytes) : Prop :=
  fileValue ssidKey file = [] ∨
    (fileValue ssidKey file).length < 64 ∧ 8 ≤ (fileValue passphraseKey file).length

theorem valueOf_nulFree {key line value : Bytes} (free : 0 ∉ line)
    (found : valueOf key line = some value) : 0 ∉ value := by
  simp only [valueOf] at found
  split_ifs at found
  cases found
  intro member
  exact free (stripLeft_subset _ _ (stripRight_subset _ _ (List.mem_of_mem_drop member)))

theorem latest_nulFree (key : Bytes) (lines : List Bytes) (free : ∀ line ∈ lines, 0 ∉ line) :
    0 ∉ latest (valueOf key) [] lines := by
  induction lines using List.reverseRecOn with
  | nil => simp [latest]
  | append_singleton lines line ih =>
      rw [latest_concat]
      cases found : valueOf key line with
      | none => exact ih fun l member => free l (List.mem_append_left _ member)
      | some value => exact valueOf_nulFree (free line (by simp)) found

theorem fileValue_nulFree (key : Bytes) (file : Option Bytes) : 0 ∉ fileValue key file := by
  have buf : 0 ∉ (readFileAll 2048 file).getD [] := by
    cases file with
    | none => simp [readFileAll]
    | some content => exact zero_not_mem_cstr _
  exact latest_nulFree key _ fun line member => not_mem_textLines 0 _ line (.inr buf) member

theorem head_of_isPrefixOf {key text : Bytes} (ne : key ≠ []) (starts : key.isPrefixOf text = true) :
    text.head? = key.head? := by
  obtain ⟨rest, rfl⟩ := List.isPrefixOf_iff_prefix.mp starts
  exact List.head?_append_of_ne_nil key ne

theorem valueOf_passphrase_of_ssid {line value : Bytes} (found : valueOf ssidKey line = some value) :
    valueOf passphraseKey line = none := by
  simp only [valueOf] at found ⊢
  split_ifs at found with starts
  refine if_neg fun other => ?_
  have same := (head_of_isPrefixOf (by decide) starts).symm.trans
    (head_of_isPrefixOf (by decide) other)
  exact absurd same (by decide)

section Parsed
variable (ssidSz pwdSz : Nat) [NeZero ssidSz] [NeZero pwdSz]

theorem foldl_storeHostapdLine (lines : List Bytes) :
    lines.foldl (storeHostapdLine ssidSz pwdSz) ⟨.printed ssidSz [], .printed pwdSz [], false⟩ =
      ⟨.printed ssidSz (latest (valueOf ssidKey) [] lines),
        .printed pwdSz (latest (valueOf passphraseKey) [] lines),
        (CString.printed ssidSz (latest (valueOf ssidKey) [] lines)).bytes ≠ []⟩ := by
  induction lines using List.reverseRecOn with
  | nil => simp [latest, CString.printed, cstr]
  | append_singleton lines line ih =>
      rw [List.foldl_append, ih, List.foldl_cons, List.foldl_nil, storeHostapdLine, latest_concat,
        latest_concat]
      cases name : valueOf ssidKey line with
      | some value => simp [valueOf_passphrase_of_ssid name]
      | none => cases valueOf passphraseKey line <;> simp

theorem printed_bytes_eq_nil_iff (value : Bytes) (free : 0 ∉ value) (room : 2 ≤ ssidSz) :
    (CString.printed ssidSz value).bytes = [] ↔ value = [] := by
  rw [CString.printed_bytes _ _ free, List.take_eq_nil_iff]
  exact or_iff_right (by omega)

theorem parseHostapdCredentials_eq (file : Option Bytes) (room : 2 ≤ ssidSz) :
    parseHostapdCredentials ssidSz pwdSz file =
      if fileValue ssidKey file = [] then none
      else some (.printed ssidSz (fileValue ssidKey file),
        .printed pwdSz (fileValue passphraseKey file)) := by
  have empty := printed_bytes_eq_nil_iff ssidSz _ (fileValue_nulFree ssidKey file) room
  cases read : readFileAll 2048 file with
  | none => simp [parseHostapdCredentials, fileValue, latest, read]
  | some buf =>
      have values : ∀ key, fileValue key file = latest (valueOf key) [] (textLines buf) := by
        simp [fileValue, read]
      rw [values] at empty
      simp only [parseHostapdCredentials, read, Option.bind_some, foldl_storeHostapdLine, values]
      by_cases unnamed : latest (valueOf ssidKey) [] (textLines buf) = []
      · rw [if_pos unnamed, if_neg (by simpa using empty.mpr unnamed)]
      · rw [if_neg unnamed, if_pos (by simpa using mt empty.mp unnamed)]

/-- Both callers get what fits of the file's values, or of the built-in ones. -/
theorem getApCredentials_eq (file : Option Bytes) (room : 2 ≤ ssidSz) :
    getApCredentials ssidSz pwdSz file =
      some (if fileValue ssidKey file = [] then (.printed ssidSz apSsid, .printed pwdSz apPasswd)
        else (.printed ssidSz (fileValue ssidKey file),
          .printed pwdSz (fileValue passphraseKey file))) := by
  have builtIn : (CString.printed ssidSz apSsid).bytes ≠ [] := by
    rw [Ne, printed_bytes_eq_nil_iff ssidSz apSsid (by decide) room]
    decide
  rw [getApCredentials, parseHostapdCredentials_eq ssidSz pwdSz file room]
  by_cases unnamed : fileValue ssidKey file = []
  · simp [unnamed, builtIn]
  · simp [unnamed]

end Parsed

theorem sendProtoResponseData_eq (f : ProtoFrame) (errcode : ErrCode) (data : Bytes)
    (small : data.length + 1 ≤ protoPayloadMax) :
    sendProtoResponseData f.seq f.commandSet f.commandId errcode data =
      [.send (replyWire f (errcode.byte :: data))] := by
  rw [sendProtoResponseData, if_neg (by omega), sendProtoFrame_eq _ _ _ _ _ (by simpa using small)]
  rfl

theorem reports_unique {file : Option Bytes} {command : NetCommand} {a b : Bytes}
    (named : NetCommand.ofByte command.byte = some command) (first : Reports file command a)
    (second : Reports file command b) : a = b := by
  let o : Outcomes := ⟨false, getApCredentials 64 128 file, .ok, true, true⟩
  have same := (first o (bareRequest 0 command) .initial rfl rfl rfl named).symm.trans
    (second o (bareRequest 0 command) .initial rfl rfl rfl named)
  simp only [List.cons.injEq, Effect.send.injEq, and_true] at same
  exact (List.cons.inj (replyWire_injective _ same)).2

section Reported
variable {file : Option Bytes} {ssid : CString 64} {pwd : CString 128}
  (credentials : getApCredentials 64 128 file = some (ssid, pwd))
include credentials

theorem reports_ssid (named : ssid.bytes ≠ []) : Reports file .getApSsid ssid.bytes := by
  have short := ssid.length_lt
  intro o f p outcome type network command
  rw [handleProtoFrame, if_neg (by simpa using type), if_neg (by simpa using network), command]
  simp only [outcome, credentials, named, ne_eq, not_false_eq_true, ↓reduceIte]
  rw [List.take_of_length_le (by simp only [protoPayloadMax]; omega)]
  exact sendProtoResponseData_eq f .none _ (by simp only [protoPayloadMax]; omega)

theorem reports_passwd : Reports file .getApPasswd pwd.bytes := by
  have short := pwd.length_lt
  intro o f p outcome type network command
  rw [handleProtoFrame, if_neg (by simpa using type), if_neg (by simpa using network), command]
  simp only [outcome, credentials]
  rw [List.take_of_length_le (by simp only [protoPayloadMax]; omega)]
  exact sendProtoResponseData_eq f .none _ (by simp only [protoPayloadMax]; omega)

end Reported

def hotspotTexts : List Bytes :=
  [ascii "nmcli -w 40 device wifi hotspot ifname ", ascii " con-name ", ascii " ssid ",
    ascii " password "]

def hotspotTail : Bytes := ascii " 2>&1"

theorem hotspot_line_eq (q : ApQuoted) :
    ApAction.hotspot.line q = commandLine 1400 (template hotspotTexts hotspotTail)
      [q.ifq, q.apq, q.ssidq, q.pwdq] := by
  simp only [ApAction.line, hotspotTexts, hotspotTail]
  repeat rw [ascii_ofList]
  rfl

theorem hotspot_format (args : List Bytes) (lengths : args.length = 4) :
    format (template hotspotTexts hotspotTail) args = filled hotspotTexts args hotspotTail := by
  refine format_template _ _ _ lengths.symm ?_ ?_
  · simp only [hotspotTexts]
    repeat rw [ascii_ofList]
    decide
  · simp only [hotspotTail]
    rw [ascii_ofList]
    decide

theorem tokens_hotspot (values : List Bytes) (lengths : values.length = 4) :
    tokens (filled hotspotTexts (values.map quoteWord) hotspotTail) =
      some (templateTokens hotspotTexts values ((tokens hotspotTail).getD [])) := by
  refine tokens_filled _ _ _ _ lengths.symm ?_ ?_ ?_ ?_ <;>
  · simp only [hotspotTexts, hotspotTail]
    repeat rw [ascii_ofList]
    decide

theorem shellParse_hotspot (ssid pwd : Bytes) :
    shellParse (filled hotspotTexts ([staIface, nmApConn, ssid, pwd].map quoteWord) hotspotTail) =
      some (hotspotCommand ssid pwd) := by
  rw [shellParse, tokens_hotspot _ rfl]
  simp only [hotspotTexts, hotspotTail, hotspotCommand, intoOutput, List.map_cons, List.map_nil]
  repeat rw [ascii_ofList]
  rfl

theorem quoted_eq_some {input text : Bytes} {cap : Nat} (free : 0 ∉ input)
    (quoted : (shellQuote input cap).text? = some text) :
    text = quoteWord input ∧ (quoteWord input).length < cap := by
  have ok : (shellQuote input cap).ok = true := by
    by_contra failed
    rw [ShellQuoted.text?, if_neg failed] at quoted
    cases quoted
  have fits := (shellQuote_ok_iff input cap).mp ok
  rw [shellQuote_text input cap free fits] at quoted
  exact ⟨(Option.some.inj quoted).symm, fits⟩

theorem quoteApArgs_eq_some {ssid pwd : CString 128} {q : ApQuoted}
    (quoted : quoteApArgs ssid.bytes pwd.bytes = some q) :
    q = ⟨quoteWord ssid.bytes, quoteWord pwd.bytes, quoteWord staIface, quoteWord nmApConn,
        quoteWord nmStaConn⟩ ∧
      (quoteWord ssid.bytes).length < 256 ∧ (quoteWord pwd.bytes).length < 256 := by
  simp only [quoteApArgs, Option.bind_eq_bind, Option.bind_eq_some_iff] at quoted
  obtain ⟨ssidq, first, pwdq, second, ifq, third, apq, fourth, staq, fifth, made⟩ := quoted
  obtain ⟨rfl, ssid_fits⟩ := quoted_eq_some ssid.nulFree first
  obtain ⟨rfl, pwd_fits⟩ := quoted_eq_some pwd.nulFree second
  obtain ⟨rfl, -⟩ := quoted_eq_some (by decide) third
  obtain ⟨rfl, -⟩ := quoted_eq_some (by decide) fourth
  obtain ⟨rfl, -⟩ := quoted_eq_some (by decide) fifth
  exact ⟨(Option.some.inj made).symm, ssid_fits, pwd_fits⟩

theorem hotspot_fits {ssid pwd : Bytes} (ssid_fits : (quoteWord ssid).length < 256)
    (pwd_fits : (quoteWord pwd).length < 256) :
    (filled hotspotTexts ([staIface, nmApConn, ssid, pwd].map quoteWord) hotspotTail).length <
      1400 := by
  have texts : (hotspotTexts.map List.length).sum + hotspotTail.length ≤ 100 := by
    simp only [hotspotTexts, hotspotTail]
    repeat rw [ascii_ofList]
    decide
  have iface : (quoteWord staIface).length = 7 := by decide
  have ap : (quoteWord nmApConn).length = 19 := by decide
  rw [filled_length hotspotTexts _ _ (by rfl)]
  simp only [List.map_cons, List.map_nil, List.sum_cons, List.sum_nil] at texts ⊢
  omega

theorem hotspot_started {ready : Bool} {rc : ApAction → Int} {file : Option Bytes}
    {line : CommandLine} (started : (.hotspot, line) ∈ (ensureApModeLocked ready rc file).1) :
    ∃ q, quoteApArgs (hotspotCredentials file).1.bytes (hotspotCredentials file).2.bytes =
      some q ∧ line = ApAction.hotspot.line q := by
  cases ready with
  | false => cases started
  | true =>
      cases quoted : quoteApArgs (hotspotCredentials file).1.bytes
          (hotspotCredentials file).2.bytes with
      | none => simp [ensureApModeLocked, quoted] at started
      | some q =>
          refine ⟨q, rfl, ?_⟩
          by_cases failed : rc .hotspot = 0
          · simpa [ensureApModeLocked, quoted, failed] using started
          · simpa [ensureApModeLocked, quoted, failed] using started

/-- A hotspot command that is executed has the credentials as two of its arguments. -/
theorem hotspot_executed {ready : Bool} {rc : ApAction → Int} {file : Option Bytes}
    {line : CommandLine} (started : (.hotspot, line) ∈ (ensureApModeLocked ready rc file).1) :
    shellParse line.line.text = some (hotspotCommand (hotspotCredentials file).1.bytes
      (hotspotCredentials file).2.bytes) := by
  obtain ⟨q, quoted, rfl⟩ := hotspot_started started
  obtain ⟨rfl, ssid_fits, pwd_fits⟩ := quoteApArgs_eq_some quoted
  rw [hotspot_line_eq, commandLine, hotspot_format _ rfl]
  have whole := snprintf_text 1400 (filled hotspotTexts ([staIface, nmApConn,
    (hotspotCredentials file).1.bytes, (hotspotCredentials file).2.bytes].map quoteWord)
    hotspotTail) (hotspot_fits ssid_fits pwd_fits)
  exact (congrArg shellParse whole).trans (shellParse_hotspot _ _)

theorem hotspotCredentials_eq (file : Option Bytes) :
    hotspotCredentials file =
      if fileValue ssidKey file = [] then (.printed 128 apSsid, .printed 128 apPasswd)
      else (.printed 128 (fileValue ssidKey file),
        if (fileValue passphraseKey file).length < 8 then .printed 128 apPasswd
        else .printed 128 (fileValue passphraseKey file)) := by
  have kept : (CString.printed 128 (fileValue passphraseKey file)).bytes.length < 8 ↔
      (fileValue passphraseKey file).length < 8 := by
    rw [CString.printed_bytes _ _ (fileValue_nulFree _ _), List.length_take]
    omega
  have builtIn : ¬(CString.printed 128 apPasswd).bytes.length < 8 := by decide
  rw [hotspotCredentials, getApCredentials_eq 128 128 file (by decide)]
  by_cases unnamed : fileValue ssidKey file = []
  · simp [unnamed, builtIn]
  · simp [unnamed, kept]

def reported (file : Option Bytes) : CString 64 × CString 128 :=
  if fileValue ssidKey file = [] then (.printed 64 apSsid, .printed 128 apPasswd)
  else (.printed 64 (fileValue ssidKey file), .printed 128 (fileValue passphraseKey file))

theorem reported_ssid_ne_nil (file : Option Bytes) : (reported file).1.bytes ≠ [] := by
  unfold reported
  split_ifs with unnamed
  · decide
  · exact mt (printed_bytes_eq_nil_iff 64 _ (fileValue_nulFree _ _) (by decide)).mp unnamed

/-- The values agree exactly if nothing is cut off the name and the passphrase is used. -/
theorem credentials_agree_iff (file : Option Bytes) :
    ((hotspotCredentials file).1.bytes = (reported file).1.bytes ∧
      (hotspotCredentials file).2.bytes = (reported file).2.bytes) ↔ Matching file := by
  have ssid_free := fileValue_nulFree ssidKey file
  have pwd_free := fileValue_nulFree passphraseKey file
  rw [hotspotCredentials_eq, reported, Matching]
  by_cases unnamed : fileValue ssidKey file = []
  · rw [if_pos unnamed, if_pos unnamed]
    exact iff_of_true ⟨by decide, rfl⟩ (.inl unnamed)
  · rw [if_neg unnamed, if_neg unnamed, or_iff_right unnamed]
    refine and_congr ?_ ?_
    · simp only [CString.printed_bytes _ _ ssid_free, Nat.reduceSub]
      constructor
      · intro same
        have lengths := congrArg List.length same
        simp only [List.length_take] at lengths
        omega
      · intro short
        rw [List.take_of_length_le (by omega), List.take_of_length_le (by omega)]
    · split_ifs with short
      · refine iff_of_false (fun same => ?_) (by omega)
        have builtIn : (CString.printed 128 apPasswd).bytes = apPasswd := by decide
        dsimp only at same
        rw [builtIn, CString.printed_bytes _ _ pwd_free, List.take_of_length_le (by omega)] at same
        rw [← same] at short
        exact absurd short (by decide)
      · exact iff_of_true rfl (by omega)

theorem hotspot_starts (rc : ApAction → Int) {file : Option Bytes} {q : ApQuoted}
    (quoted : quoteApArgs (hotspotCredentials file).1.bytes (hotspotCredentials file).2.bytes =
      some q) :
    (.hotspot, ApAction.hotspot.line q) ∈ (ensureApModeLocked true rc file).1 := by
  by_cases failed : rc .hotspot = 0
  · simp [ensureApModeLocked, quoted, failed]
  · simp [ensureApModeLocked, quoted, failed]

/-- If the hotspot is started, the phone is told the name and the password that nmcli got
exactly if the file matches. -/
theorem hotspot_advertised_iff (ready : Bool) (rc : ApAction → Int) (file : Option Bytes)
    (line : CommandLine) (started : (.hotspot, line) ∈ (ensureApModeLocked ready rc file).1) :
    (∃ ssid pwd, shellParse line.line.text = some (hotspotCommand ssid pwd) ∧
      Reports file .getApSsid ssid ∧ Reports file .getApPasswd pwd) ↔ Matching file := by
  have credentials : getApCredentials 64 128 file = some ((reported file).1, (reported file).2) :=
    getApCredentials_eq 64 128 file (by decide)
  have toldSsid := reports_ssid credentials (reported_ssid_ne_nil file)
  have toldPasswd := reports_passwd credentials
  rw [← credentials_agree_iff, hotspot_executed started]
  constructor
  · rintro ⟨ssid, pwd, same, ssidReport, pwdReport⟩
    have passed : (hotspotCredentials file).1.bytes = ssid ∧
        (hotspotCredentials file).2.bytes = pwd := by
      simpa [hotspotCommand] using same
    rw [passed.1, passed.2]
    exact ⟨reports_unique rfl ssidReport toldSsid, reports_unique rfl pwdReport toldPasswd⟩
  · rintro ⟨sameSsid, samePasswd⟩
    rw [sameSsid, samePasswd]
    exact ⟨_, _, rfl, toldSsid, toldPasswd⟩

def plainConf : Bytes := ascii "ssid=ap\nwpa_passphrase=longpass\n"

theorem hotspot_advertised_iff_plain :
    ∃ line, (.hotspot, line) ∈ (ensureApModeLocked true (fun _ => 0) (some plainConf)).1 ∧
      ∃ ssid pwd, shellParse line.line.text = some (hotspotCommand ssid pwd) ∧
        Reports (some plainConf) .getApSsid ssid ∧ Reports (some plainConf) .getApPasswd pwd := by
  obtain ⟨q, quoted⟩ := Option.isSome_iff_exists.mp (by decide +kernel :
    (quoteApArgs (hotspotCredentials (some plainConf)).1.bytes
      (hotspotCredentials (some plainConf)).2.bytes).isSome = true)
  have started := hotspot_starts (fun _ => 0) quoted
  have matching : Matching (some plainConf) := .inr (by decide +kernel)
  exact ⟨_, started, (hotspot_advertised_iff true _ _ _ started).mpr matching⟩

def shortConf : Bytes := ascii "ssid=ap\nwpa_passphrase=short\n"

/-- A passphrase of five bytes: nmcli gets the built-in one, the phone the one in the file. -/
theorem hotspot_short_passphrase :
    ∃ line, (.hotspot, line) ∈ (ensureApModeLocked true (fun _ => 0) (some shortConf)).1 ∧
      shellParse line.line.text = some (hotspotCommand (ascii "ap") (ascii "12345678")) ∧
      Reports (some shortConf) .getApPasswd (ascii "short") := by
  obtain ⟨q, quoted⟩ := Option.isSome_iff_exists.mp (by decide +kernel :
    (quoteApArgs (hotspotCredentials (some shortConf)).1.bytes
      (hotspotCredentials (some shortConf)).2.bytes).isSome = true)
  have started := hotspot_starts (fun _ => 0) quoted
  have used : (hotspotCredentials (some shortConf)).1.bytes = ascii "ap" ∧
      (hotspotCredentials (some shortConf)).2.bytes = ascii "12345678" := by decide +kernel
  have told : (reported (some shortConf)).2.bytes = ascii "short" := by decide +kernel
  refine ⟨_, started, ?_, ?_⟩
  · rw [hotspot_executed started, used.1, used.2]
  · rw [← told]
    exact reports_passwd (getApCredentials_eq 64 128 (some shortConf) (by decide))

end WfyApp.ApCredentials
