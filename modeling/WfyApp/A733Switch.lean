import WfyApp.ProtoDispatch
import WfyApp.HomeWifi
import WfyApp.ShellWords

/-! Joining a network on the A733 backend (wifi_switch_a733.c): `shell_quote`, the
nmcli command lines, and `wifi_switch_run_now`. Results of commands and of the other
calls are inputs. The commands of `ensure_ap_mode_locked` and of the pre-scan, which
only feeds the log, are left out: they do not change what is joined. -/

namespace WfyApp.A733Switch
open ByteText ProtoDispatch HomeWifi ShellWords

def staIface : Bytes := ascii "wlan0"
def nmStaConn : Bytes := ascii "system_service_sta"
def nmApConn : Bytes := ascii "system_service_ap"

/-- What `shell_quote` returned and the bytes it stored, terminator included. -/
structure ShellQuoted where
  ok : Bool
  written : Bytes
deriving DecidableEq

def shellQuoteLoop (cap : Nat) : Bytes → Bytes → ShellQuoted
  | [], out => if out.length + 2 > cap then ⟨false, out⟩ else ⟨true, out ++ [singleQuote, 0]⟩
  | c :: input, out =>
      if c = singleQuote then
        if out.length + 4 ≥ cap then ⟨false, out⟩
        else shellQuoteLoop cap input (out ++ [singleQuote, backslash, singleQuote, singleQuote])
      else if out.length + 1 ≥ cap then ⟨false, out⟩
      else shellQuoteLoop cap input (out ++ [c])

def shellQuote (input : Bytes) (cap : Nat) : ShellQuoted :=
  if cap < 3 then ⟨false, []⟩ else shellQuoteLoop cap input [singleQuote]

def ShellQuoted.text? (q : ShellQuoted) : Option Bytes := if q.ok then some (cstr q.written) else none

theorem shellQuoteLoop_written_le (cap : Nat) (input out : Bytes) (room : out.length ≤ cap) :
    (shellQuoteLoop cap input out).written.length ≤ cap := by
  induction input generalizing out with
  | nil =>
      rw [shellQuoteLoop]
      split_ifs with full
      · exact room
      · simp only [List.length_append, List.length_cons, List.length_nil]
        omega
  | cons c input ih =>
      rw [shellQuoteLoop]
      split_ifs with quote full full
      · exact room
      · refine ih _ ?_
        simp only [List.length_append, List.length_cons, List.length_nil]
        omega
      · exact room
      · refine ih _ ?_
        simp only [List.length_append, List.length_cons, List.length_nil]
        omega

theorem shellQuote_written_le (input : Bytes) (cap : Nat) :
    (shellQuote input cap).written.length ≤ cap := by
  rw [shellQuote]
  split_ifs with small
  · exact Nat.zero_le cap
  · refine shellQuoteLoop_written_le cap input _ ?_
    rw [List.length_singleton]
    omega

theorem shellQuoteLoop_step (cap : Nat) (c : UInt8) (input out : Bytes)
    (room : (out ++ quoteByte c).length < cap) :
    shellQuoteLoop cap (c :: input) out = shellQuoteLoop cap input (out ++ quoteByte c) := by
  rw [shellQuoteLoop]
  unfold quoteByte at room ⊢
  split_ifs at room ⊢ with quote full full
  · simp only [List.length_append, List.length_cons, List.length_nil] at room
    omega
  · rfl
  · simp only [List.length_append, List.length_cons, List.length_nil] at room
    omega
  · rfl

theorem shellQuoteLoop_full (cap : Nat) (c : UInt8) (input out : Bytes)
    (full : cap ≤ (out ++ quoteByte c).length) :
    (shellQuoteLoop cap (c :: input) out).ok = false := by
  rw [shellQuoteLoop]
  unfold quoteByte at full
  split_ifs at full ⊢ with quote room room
  · rfl
  · simp only [List.length_append, List.length_cons, List.length_nil] at full
    omega
  · rfl
  · simp only [List.length_append, List.length_cons, List.length_nil] at full
    omega

theorem shellQuoteLoop_fits (cap : Nat) (input out : Bytes)
    (room : out.length + (input.flatMap quoteByte).length + 2 ≤ cap) :
    shellQuoteLoop cap input out =
      ⟨true, out ++ (input.flatMap quoteByte ++ [singleQuote, 0])⟩ := by
  induction input generalizing out with
  | nil =>
      rw [List.flatMap_nil, List.length_nil] at room
      rw [shellQuoteLoop, if_neg (by omega), List.flatMap_nil, List.nil_append]
  | cons c input ih =>
      rw [List.flatMap_cons, List.length_append] at room
      rw [shellQuoteLoop_step _ _ _ _ (by rw [List.length_append]; omega),
        ih _ (by rw [List.length_append]; omega), List.flatMap_cons, List.append_assoc,
        List.append_assoc]

theorem shellQuoteLoop_overflows (cap : Nat) (input out : Bytes)
    (full : cap < out.length + (input.flatMap quoteByte).length + 2) :
    (shellQuoteLoop cap input out).ok = false := by
  induction input generalizing out with
  | nil =>
      rw [List.flatMap_nil, List.length_nil] at full
      rw [shellQuoteLoop, if_pos (by omega)]
  | cons c input ih =>
      rw [List.flatMap_cons, List.length_append] at full
      by_cases room : (out ++ quoteByte c).length < cap
      · rw [shellQuoteLoop_step _ _ _ _ room]
        exact ih _ (by rw [List.length_append]; omega)
      · exact shellQuoteLoop_full cap c input out (Nat.not_lt.mp room)

/-- Success is exactly the case in which the quoted text and its terminator fit. -/
theorem shellQuote_ok_iff (input : Bytes) (cap : Nat) :
    (shellQuote input cap).ok = true ↔ (quoteWord input).length + 1 ≤ cap := by
  rw [quoteWord_length, shellQuote]
  split_ifs with small
  · simp only [false_iff]
    omega
  · by_cases fits : (input.flatMap quoteByte).length + 2 + 1 ≤ cap
    · rw [shellQuoteLoop_fits cap input _ (by rw [List.length_singleton]; omega)]
      simp only [true_iff]
      exact fits
    · rw [shellQuoteLoop_overflows cap input _ (by rw [List.length_singleton]; omega)]
      simp only [Bool.false_eq_true, false_iff]
      exact fits

theorem shellQuote_written (input : Bytes) (cap : Nat)
    (fits : (quoteWord input).length + 1 ≤ cap) :
    (shellQuote input cap).written = quoteWord input ++ [0] := by
  rw [quoteWord_length] at fits
  rw [shellQuote, if_neg (by omega),
    shellQuoteLoop_fits cap input _ (by rw [List.length_singleton]; omega)]
  simp [quoteWord]

theorem shellQuote_text (input : Bytes) (cap : Nat) (free : 0 ∉ input)
    (fits : (quoteWord input).length + 1 ≤ cap) :
    (shellQuote input cap).text? = some (quoteWord input) := by
  rw [ShellQuoted.text?, if_pos ((shellQuote_ok_iff input cap).mpr fits),
    shellQuote_written input cap fits,
    cstr_concat_zero _ (zero_not_mem_quoteWord input free)]

/-- The commands of `wifi_switch_run_now`, one for each place that builds a line. -/
inductive NmcliAction where
  | downAp
  | deleteSta
  | rescan
  | connectSecured
  | connectOpen
  | addProfile
  | setSecret
  | upProfile
  | autoconnect
deriving DecidableEq, Repr

structure QuotedArgs where
  ssidq : Bytes
  pwdq : Bytes
  ifq : Bytes
  connq : Bytes

def quoteArgs (ssid pwd : Bytes) : Option QuotedArgs :=
  match (shellQuote ssid 256).text?, (shellQuote pwd 512).text?, (shellQuote staIface 128).text?,
    (shellQuote nmStaConn 256).text? with
  | some ssidq, some pwdq, some ifq, some connq => some ⟨ssidq, pwdq, ifq, connq⟩
  | _, _, _, _ => none

structure CommandLine where
  size : Nat
  line : Printed
deriving DecidableEq

def commandLine (size : Nat) (text : Bytes) (args : List Bytes) : CommandLine :=
  ⟨size, snprintf size (format text args)⟩

def nmDownConnection (name : Bytes) : Option CommandLine :=
  (shellQuote name 256).text?.map fun nq =>
    commandLine 512 (ascii "nmcli -w 10 connection down %s >/dev/null 2>&1") [nq]

def nmDeleteConnection (name : Bytes) : Option CommandLine :=
  (shellQuote name 256).text?.map fun nq =>
    commandLine 512 (ascii "nmcli connection delete %s >/dev/null 2>&1") [nq]

def NmcliAction.line? (q : QuotedArgs) : NmcliAction → Option CommandLine
  | downAp => nmDownConnection nmApConn
  | deleteSta => nmDeleteConnection nmStaConn
  | rescan => some (commandLine 1400
      (ascii "nmcli -w 10 device wifi rescan ifname %s >/dev/null 2>&1") [q.ifq])
  | connectSecured => some (commandLine 1400
      (ascii "nmcli -w 70 device wifi connect %s password %s ifname %s name %s 2>&1")
      [q.ssidq, q.pwdq, q.ifq, q.connq])
  | connectOpen => some (commandLine 1400
      (ascii "nmcli -w 70 device wifi connect %s ifname %s name %s 2>&1")
      [q.ssidq, q.ifq, q.connq])
  | addProfile => some (commandLine 1400
      (ascii "nmcli connection add type wifi ifname %s con-name %s ssid %s 2>&1")
      [q.ifq, q.connq, q.ssidq])
  | setSecret => some (commandLine 1400
      (ascii "nmcli connection modify %s wifi-sec.key-mgmt wpa-psk wifi-sec.psk %s 2>&1")
      [q.connq, q.pwdq])
  | upProfile => some (commandLine 1400 (ascii "nmcli -w 70 connection up %s 2>&1") [q.connq])
  | autoconnect => some (commandLine 1400
      (ascii "nmcli connection modify %s connection.autoconnect yes >/dev/null 2>&1") [q.connq])

structure Captured where
  rc : Int
  out : Bytes

inductive Match where
  | found
  | differs
  | exhausted

def tolower (c : UInt8) : UInt8 := if 0x41 ≤ c && c ≤ 0x5A then c + 0x20 else c

def matchCi : Bytes → Bytes → Match
  | [], _ => .found
  | _ :: _, [] => .exhausted
  | b :: needle, a :: haystack =>
      if tolower a = tolower b then matchCi needle haystack else .differs

def searchCi (needle : Bytes) : Bytes → Bool
  | [] => false
  | a :: haystack =>
      match matchCi needle (a :: haystack) with
      | .found => true
      | .exhausted => false
      | .differs => searchCi needle haystack

def containsCi (haystack needle : Bytes) : Bool :=
  if needle = [] then true else searchCi needle haystack

def networkMissing (out : Bytes) : Bool :=
  containsCi out (ascii "No network with SSID") || containsCi out (ascii "not found")

def secretRefused (out : Bytes) : Bool :=
  containsCi out (ascii "password") || containsCi out (ascii "secret") ||
    containsCi out (ascii "secrets")

/-- What `wifi_switch_run_now` finds out while it runs. -/
structure A733World where
  root : Bool
  switchFree : Bool
  homeFile : Option Bytes
  systemReady : Bool
  capture : NmcliAction → Captured
  online : Nat → Bool

def profileActions (world : A733World) (secured : Bool) : List NmcliAction × Captured :=
  let added := world.capture .addProfile
  let (secret, afterSecret) :=
    if added.rc = 0 && secured then ([NmcliAction.setSecret], world.capture .setSecret)
    else ([], added)
  let (up, afterUp) :=
    if afterSecret.rc = 0 then ([NmcliAction.upProfile], world.capture .upProfile)
    else ([], afterSecret)
  ([.deleteSta, .addProfile] ++ secret ++ up, afterUp)

def connectActions (world : A733World) (secured : Bool) : List NmcliAction × WifiSwitchStatus :=
  let connect := if secured then NmcliAction.connectSecured else .connectOpen
  let first := world.capture connect
  let (retry, last) :=
    if first.rc ≠ 0 ∧ networkMissing first.out then profileActions world secured
    else ([], first)
  let actions := [.downAp, .deleteSta, .rescan, connect] ++ retry
  if last.rc ≠ 0 then
    (actions, if secretRefused last.out then .errBadPassword
      else if networkMissing last.out then .errNoSsid
      else .errConnectFail)
  else
    (actions ++ [.autoconnect],
      if (List.range 30).any world.online then .ok else .errConnectFail)

/-- A run: the credentials it joined with, the command lines it executed, its result. -/
structure A733Run where
  join : Option (Bytes × Bytes)
  lines : List (NmcliAction × CommandLine)
  status : WifiSwitchStatus

def runNow (world : A733World) (ssid password : Bytes) : A733Run :=
  if !world.root then ⟨none, [], .errUnknown⟩
  else if !world.switchFree then ⟨none, [], .errBusy⟩
  else
    match useCredentials .a733 33 64 world.homeFile ssid password with
    | none => ⟨none, [], .errNoSsid⟩
    | some (useSsid, usePwd) =>
        if !world.systemReady then ⟨none, [], .errUnknown⟩
        else
          match quoteArgs useSsid usePwd with
          | none => ⟨none, [], .errUnknown⟩
          | some q =>
              let (actions, status) := connectActions world (usePwd ≠ [])
              ⟨some (useSsid, usePwd),
                actions.filterMap fun a => (a.line? q).map fun line => (a, line), status⟩

def intoNull : List Redirect :=
  [⟨ascii "1", false, ascii "/dev/null"⟩, ⟨ascii "2", true, ascii "1"⟩]

def intoOutput : List Redirect := [⟨ascii "2", true, ascii "1"⟩]

/-- The command each action is meant to run, as the program sees its arguments. -/
def NmcliAction.intended (ssid pwd : Bytes) : NmcliAction → SimpleCommand
  | downAp => ⟨["nmcli", "-w", "10", "connection", "down"].map ascii ++ [nmApConn], intoNull⟩
  | deleteSta => ⟨["nmcli", "connection", "delete"].map ascii ++ [nmStaConn], intoNull⟩
  | rescan =>
      ⟨["nmcli", "-w", "10", "device", "wifi", "rescan", "ifname"].map ascii ++ [staIface],
        intoNull⟩
  | connectSecured =>
      ⟨["nmcli", "-w", "70", "device", "wifi", "connect"].map ascii ++
        [ssid, ascii "password", pwd, ascii "ifname", staIface, ascii "name", nmStaConn],
        intoOutput⟩
  | connectOpen =>
      ⟨["nmcli", "-w", "70", "device", "wifi", "connect"].map ascii ++
        [ssid, ascii "ifname", staIface, ascii "name", nmStaConn], intoOutput⟩
  | addProfile =>
      ⟨["nmcli", "connection", "add", "type", "wifi", "ifname"].map ascii ++
        [staIface, ascii "con-name", nmStaConn, ascii "ssid", ssid], intoOutput⟩
  | setSecret =>
      ⟨["nmcli", "connection", "modify"].map ascii ++ [nmStaConn, ascii "wifi-sec.key-mgmt",
        ascii "wpa-psk", ascii "wifi-sec.psk", pwd], intoOutput⟩
  | upProfile => ⟨["nmcli", "-w", "70", "connection", "up"].map ascii ++ [nmStaConn], intoOutput⟩
  | autoconnect =>
      ⟨["nmcli", "connection", "modify"].map ascii ++
        [nmStaConn, ascii "connection.autoconnect", ascii "yes"], intoNull⟩

def NmcliAction.size : NmcliAction → Nat
  | downAp | deleteSta => 512
  | _ => 1400

def NmcliAction.texts : NmcliAction → List Bytes
  | downAp => [ascii "nmcli -w 10 connection down "]
  | deleteSta => [ascii "nmcli connection delete "]
  | rescan => [ascii "nmcli -w 10 device wifi rescan ifname "]
  | connectSecured =>
      [ascii "nmcli -w 70 device wifi connect ", ascii " password ", ascii " ifname ",
        ascii " name "]
  | connectOpen => [ascii "nmcli -w 70 device wifi connect ", ascii " ifname ", ascii " name "]
  | addProfile =>
      [ascii "nmcli connection add type wifi ifname ", ascii " con-name ", ascii " ssid "]
  | setSecret =>
      [ascii "nmcli connection modify ", ascii " wifi-sec.key-mgmt wpa-psk wifi-sec.psk "]
  | upProfile => [ascii "nmcli -w 70 connection up "]
  | autoconnect => [ascii "nmcli connection modify "]

def NmcliAction.tail : NmcliAction → Bytes
  | downAp | deleteSta | rescan => ascii " >/dev/null 2>&1"
  | autoconnect => ascii " connection.autoconnect yes >/dev/null 2>&1"
  | _ => ascii " 2>&1"

def NmcliAction.values (ssid pwd : Bytes) : NmcliAction → List Bytes
  | downAp => [nmApConn]
  | deleteSta | upProfile | autoconnect => [nmStaConn]
  | rescan => [staIface]
  | connectSecured => [ssid, pwd, staIface, nmStaConn]
  | connectOpen => [ssid, staIface, nmStaConn]
  | addProfile => [staIface, nmStaConn, ssid]
  | setSecret => [nmStaConn, pwd]

def quotedArgs (ssid pwd : Bytes) : QuotedArgs :=
  ⟨quoteWord ssid, quoteWord pwd, quoteWord staIface, quoteWord nmStaConn⟩

theorem quoteArgs_eq (ssid : CString 33) (pwd : CString 64) :
    quoteArgs ssid.bytes pwd.bytes = some (quotedArgs ssid.bytes pwd.bytes) := by
  have ssid_lt := ssid.length_lt
  have pwd_lt := pwd.length_lt
  have ssid_le := quoteWord_length_le ssid.bytes
  have pwd_le := quoteWord_length_le pwd.bytes
  rw [quoteArgs, shellQuote_text ssid.bytes 256 ssid.nulFree (by omega),
    shellQuote_text pwd.bytes 512 pwd.nulFree (by omega),
    shellQuote_text staIface 128 (by decide) (by decide),
    shellQuote_text nmStaConn 256 (by decide) (by decide)]
  rfl

theorem NmcliAction.line?_eq (ssid pwd : Bytes) (a : NmcliAction) :
    a.line? (quotedArgs ssid pwd) =
      some (commandLine a.size (template a.texts a.tail) ((a.values ssid pwd).map quoteWord)) := by
  have ap := shellQuote_text nmApConn 256 (by decide) (by decide)
  have sta := shellQuote_text nmStaConn 256 (by decide) (by decide)
  cases a <;>
  · simp only [line?, nmDownConnection, nmDeleteConnection, ap, sta, Option.map_some, size, texts,
      tail, template]
    repeat rw [ascii_ofList]
    rfl

/-- What the fixed texts of a line need so that its values stay separate words. -/
structure NmcliAction.Shape (a : NmcliAction) : Prop where
  plain : ∀ text ∈ a.texts, 0x25 ∉ text
  tail_plain : 0x25 ∉ a.tail
  separated : ∀ text ∈ a.texts, Separated text
  blanks : ∀ text ∈ a.texts.tail, text.head? = some 0x20
  tail_blank : a.tail.head? = some 0x20
  tail_tokens : tokens a.tail = some ((tokens a.tail).getD [])
  short : (a.texts.map List.length).sum + a.tail.length ≤ 100

theorem NmcliAction.shape (a : NmcliAction) : a.Shape := by
  cases a <;>
  · constructor <;>
    · simp only [texts, tail]
      repeat rw [ascii_ofList]
      decide

theorem NmcliAction.values_length (ssid pwd : Bytes) (a : NmcliAction) :
    a.texts.length = ((a.values ssid pwd).map quoteWord).length := by
  cases a <;> rfl

theorem NmcliAction.format_eq (ssid pwd : Bytes) (a : NmcliAction) :
    format (template a.texts a.tail) ((a.values ssid pwd).map quoteWord) =
      filled a.texts ((a.values ssid pwd).map quoteWord) a.tail :=
  format_template _ _ _ (a.values_length ssid pwd) a.shape.plain a.shape.tail_plain

theorem NmcliAction.line_fits (ssid : CString 33) (pwd : CString 64) (a : NmcliAction) :
    (filled a.texts ((a.values ssid.bytes pwd.bytes).map quoteWord) a.tail).length < a.size := by
  have ssid_lt := ssid.length_lt
  have pwd_lt := pwd.length_lt
  have ssid_le := quoteWord_length_le ssid.bytes
  have pwd_le := quoteWord_length_le pwd.bytes
  have iface : (quoteWord staIface).length = 7 := by decide
  have sta : (quoteWord nmStaConn).length = 20 := by decide
  have ap : (quoteWord nmApConn).length = 19 := by decide
  have texts := a.shape.short
  have values : (((a.values ssid.bytes pwd.bytes).map quoteWord).map List.length).sum ≤ 411 := by
    cases a <;>
    · simp only [NmcliAction.values, List.map_cons, List.map_nil, List.sum_cons, List.sum_nil]
      omega
  have room : 512 ≤ a.size := by cases a <;> decide
  rw [filled_length _ _ _ (a.values_length ssid.bytes pwd.bytes)]
  omega

theorem NmcliAction.tokens_line (ssid pwd : Bytes) (a : NmcliAction) :
    tokens (filled a.texts ((a.values ssid pwd).map quoteWord) a.tail) =
      some (templateTokens a.texts (a.values ssid pwd) ((tokens a.tail).getD [])) := by
  have lengths := a.values_length ssid pwd
  rw [List.length_map] at lengths
  exact tokens_filled _ _ _ _ lengths a.shape.separated a.shape.blanks a.shape.tail_blank
    a.shape.tail_tokens

/-- The shell reads each line as the command it is meant to be. -/
theorem NmcliAction.shellParse_line (ssid pwd : Bytes) (a : NmcliAction) :
    shellParse (filled a.texts ((a.values ssid pwd).map quoteWord) a.tail) =
      some (a.intended ssid pwd) := by
  rw [shellParse, a.tokens_line ssid pwd]
  cases a <;>
  · simp only [texts, tail, values, intended, intoNull, intoOutput, List.map_cons, List.map_nil]
    repeat rw [ascii_ofList]
    rfl

def NmcliAction.executed (ssid pwd : Bytes) (a : NmcliAction) : CommandLine :=
  commandLine a.size (template a.texts a.tail) ((a.values ssid pwd).map quoteWord)

theorem runNow_eq (world : A733World) (ssid : CString 33) (password : CString 64)
    (ssid_ne : ssid.bytes ≠ []) (root : world.root = true) (free : world.switchFree = true)
    (ready : world.systemReady = true) :
    runNow world ssid.bytes password.bytes =
      ⟨some (ssid.bytes, password.bytes),
        (connectActions world (password.bytes ≠ [])).1.map fun a =>
          (a, a.executed ssid.bytes password.bytes),
        (connectActions world (password.bytes ≠ [])).2⟩ := by
  have lines : ∀ actions : List NmcliAction, (actions.filterMap fun a =>
      (a.line? (quotedArgs ssid.bytes password.bytes)).map fun line => (a, line)) =
      actions.map fun a => (a, a.executed ssid.bytes password.bytes) := by
    intro actions
    simp only [NmcliAction.line?_eq, Option.map_some, List.filterMap_eq_map']
    rfl
  simp only [runNow, root, free, ready, useCredentials, if_neg ssid_ne, quoteArgs_eq, lines]
  simp

theorem runNow_stopped (world : A733World) (ssid : CString 33) (password : CString 64)
    (ssid_ne : ssid.bytes ≠ [])
    (stopped : ¬ (world.root = true ∧ world.switchFree = true ∧ world.systemReady = true)) :
    (runNow world ssid.bytes password.bytes).lines = [] ∧
      (runNow world ssid.bytes password.bytes).join = none := by
  simp only [runNow, useCredentials, if_neg ssid_ne]
  cases root : world.root with
  | false => simp
  | true =>
      cases free : world.switchFree with
      | false => simp
      | true =>
          cases ready : world.systemReady with
          | false => simp
          | true => exact absurd ⟨root, free, ready⟩ stopped

theorem NmcliAction.executed_intended (ssid : CString 33) (password : CString 64)
    (a : NmcliAction) :
    (a.executed ssid.bytes password.bytes).line.length <
        (a.executed ssid.bytes password.bytes).size ∧
      shellParse (a.executed ssid.bytes password.bytes).line.text =
        some (a.intended ssid.bytes password.bytes) := by
  have fits := a.line_fits ssid password
  rw [executed, commandLine, a.format_eq]
  refine ⟨fits, ?_⟩
  rw [snprintf_text a.size _ fits, a.shellParse_line]

/-- Every command line of a join fits its buffer and reaches nmcli as the intended
arguments; `shell_quote` succeeds exactly when its result fits, stays in its buffer,
and yields one word. -/
theorem runNow_lines_intended (world : A733World) (ssid : CString 33) (password : CString 64)
    (ssid_ne : ssid.bytes ≠ []) :
    (∀ entry ∈ (runNow world ssid.bytes password.bytes).lines,
      entry.2.line.length < entry.2.size ∧
        shellParse entry.2.line.text = some (entry.1.intended ssid.bytes password.bytes)) ∧
    ∀ input cap, 0 ∉ input →
      (shellQuote input cap).written.length ≤ cap ∧
      ((shellQuote input cap).ok = true ↔ (quoteWord input).length + 1 ≤ cap) ∧
      ((shellQuote input cap).ok = true →
        (shellQuote input cap).text?.bind tokens = some [.word input]) := by
  refine ⟨?_, fun input cap nulFree =>
    ⟨shellQuote_written_le input cap, shellQuote_ok_iff input cap, fun ok => ?_⟩⟩
  · intro entry member
    by_cases going : world.root = true ∧ world.switchFree = true ∧ world.systemReady = true
    · rw [runNow_eq world ssid password ssid_ne going.1 going.2.1 going.2.2] at member
      obtain ⟨a, _, rfl⟩ := List.mem_map.mp member
      exact a.executed_intended ssid password
    · rw [(runNow_stopped world ssid password ssid_ne going).1] at member
      cases member
  · rw [shellQuote_text input cap nulFree ((shellQuote_ok_iff input cap).mp ok), Option.bind_some,
      tokens_quoteWord]

def allSucceeds : A733World := ⟨true, true, none, true, fun _ => ⟨0, []⟩, fun _ => true⟩

theorem runNow_lines_intended_hostile :
    ascii "it's; reboot" ≠ [] ∧
    (runNow allSucceeds (ascii "it's; reboot") (ascii "$(id)'\\")).lines ≠ [] ∧
    ∀ entry ∈ (runNow allSucceeds (ascii "it's; reboot") (ascii "$(id)'\\")).lines,
      entry.2.line.length < entry.2.size ∧ shellParse entry.2.line.text =
        some (entry.1.intended (ascii "it's; reboot") (ascii "$(id)'\\")) :=
  ⟨by decide, by decide +kernel, (runNow_lines_intended allSucceeds
    ⟨ascii "it's; reboot", by decide, by decide⟩ ⟨ascii "$(id)'\\", by decide, by decide⟩
    (by decide)).1⟩

end WfyApp.A733Switch
