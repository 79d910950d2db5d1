import WfyApp.LockPrograms
import WfyApp.ProtoDispatch
import WfyApp.HomeWifi

/-! The switching code of both backends as programs over one mutex (`s_switch_mutex`):
the boot thread, a round of the reconnect monitor, `wifi_switch_run_now`,
`wifi_switch_ensure_ap_mode` and `wifi_switch_scan`. A call is a shell command, a file
access or a test of what a command printed; its answer is the outcome the code looks at.
Sleeps are left out: other threads may move between any two calls. -/

namespace WfyApp.SwitchPrograms
open ProtoDispatch HomeWifi LockPrograms LockPrograms.Script LockPrograms.Prog

inductive Command where
  | malloc
  | accessIface
  | geteuid
  | which
  | readHomeWifi
  | readBandConf
  | readResolvConf
  | readApCredentials
  | writeBandConf
  | writeWpaConf
  | writeHostapdConf
  | writeDisableIpv6
  | writeWifiReady
  | wpaConfigFits
  | quoteArguments
  | passwordGiven
  | ssidFits
  | parseIwScan
  | channelSupported
  | saysNotFound
  | saysPassword
  | pidofHostapd
  | pidofWpaSupplicant
  | hostapdUptime
  | ipBrAddr
  | ipRoute
  | ipAddrShow
  | ipAddrFlush
  | ipAddrAdd
  | ipLinkUp
  | ipLinkDown
  | iwDev
  | iwLink
  | iwRegSet
  | iwRegGet
  | iwSetManaged
  | iwSetPowerSave
  | iwScanTrigger
  | iwScan
  | rfkillToggle
  | killallWpaSupplicant
  | killallHostapd
  | killallDnsmasq
  | startWpaSupplicant
  | startHostapd
  | startDnsmasq
  | wpaCliStatus
  | wpaCliListNetworks
  | wpaCliScanResults
  | udhcpc
  | ping
  | nmcliRadioOn
  | nmcliSetManaged
  | nmcliShowActive
  | nmcliRescan
  | nmcliConnect
  | nmcliAddSta
  | nmcliModifySta
  | nmcliAutoconnectSta
  | nmcliUpSta
  | nmcliDownSta
  | nmcliDeleteSta
  | nmcliHotspot
  | nmcliModifyAp
  | nmcliUpAp
  | nmcliDownAp
  | nmcliDeleteAp
deriving DecidableEq, Repr

def Command.writesConfig : Command → Bool
  | .writeBandConf | .writeWpaConf | .writeHostapdConf => true
  | _ => false

/-- What a call is made for: the four steps that use the radio, or work around them. The
boot thread's first scan is one of the `iw scan`s, but it has no mutex yet. -/
inductive Part where
  | staJoin
  | apBringUp
  | radioRecovery
  | iwScan
  | bootProbe
  | setup
  | state
  | storage
deriving DecidableEq, Repr

def Part.exclusive : Part → Bool
  | .staJoin | .apBringUp | .radioRecovery | .iwScan => true
  | .bootProbe | .setup | .state | .storage => false

abbrev Calls := Script Command
abbrev Program := Prog Part Command

inductive Outcome where
  | status (st : WifiSwitchStatus)
  | scan (ok : Bool)
  | misses (count : Nat)
  | monitoring
  | exited
deriving DecidableEq, Repr

def unlockWith {R : Type} (r : R) : Program R := .unlock (.ret r)

def readHomeWifi : Calls Bool := run .readHomeWifi

/-- The stored network is read only if the caller names none. -/
def chooseNetwork (given : Bool) : Program Bool :=
  if given then pure true else within .storage readHomeWifi

namespace Rk3566

def waitForSystemReady (probe : Part) : Program Bool := do
  let present ← within .setup (poll .accessIface 30)
  if !present then pure false
  else do
    let _ ← within probe (poll .iwScanTrigger 20)
    let _ ← within .setup (run .hostapdUptime)
    pure true

def disableIpv6 : Calls Unit :=
  each [.writeDisableIpv6, .writeDisableIpv6, .writeDisableIpv6]

def printEnvironment : Calls Unit :=
  each [.ipBrAddr, .iwDev, .which, .which, .which, .which, .which]

def connectivityCheck : Calls Unit :=
  each [.ipRoute, .readResolvConf, .ping, .ping, .ping]

def isApRunning : Calls Bool := run .pidofHostapd

def isConnected : Calls Bool := do
  if !(← run .ipAddrShow) then return false
  run .iwLink

/-- `iw scan` succeeds here if its output lists the target; on a channel that is not
supported it is given up at once. -/
def scanAttempts : Nat → Calls Bool
  | 0 => pure false
  | n + 1 => do
      if ← run .iwScan then run .channelSupported
      else scanAttempts n

def scanTargetBand : Calls Bool := do
  if !(← run .malloc) then return false
  let _ ← run .iwSetManaged
  let _ ← poll .iwScanTrigger 5
  scanAttempts 6

def writeWpaConfig : Calls Bool := do
  let _ ← run .readBandConf
  if !(← run .wpaConfigFits) then return false
  run .writeWpaConf

/-- Whether `wpa_cli` shows a rejected key. -/
def explainStaAssocFailure : Calls Bool := do
  let handshake ← run .wpaCliStatus
  let disabled ← run .wpaCliListNetworks
  let _ ← run .wpaCliScanResults
  return handshake || disabled

def tryStaOnly : Calls WifiSwitchStatus := do
  each [.killallWpaSupplicant, .killallDnsmasq, .killallHostapd, .ipAddrFlush]
  if !(← run .ipLinkUp) then return .errConnectFail
  each [.iwRegSet, .iwRegGet]
  if !(← scanTargetBand) then return .errNoSsid
  let _ ← run .writeBandConf
  if !(← writeWpaConfig) then return .errUnknown
  let _ ← run .startWpaSupplicant
  if !(← run .pidofWpaSupplicant) then return .errConnectFail
  if !(← poll .iwLink 60) then
    let badPsk ← explainStaAssocFailure
    return if badPsk then .errBadPassword else .errConnectFail
  let _ ← run .iwLink
  if !(← run .udhcpc) then return .errConnectFail
  if !(← run .ipAddrShow) then return .errConnectFail
  return .ok

def enterApMode : Calls Bool := do
  let _ ← run .readBandConf
  each [.killallWpaSupplicant, .killallHostapd, .killallDnsmasq, .ipAddrFlush, .ipLinkUp,
    .ipAddrFlush, .ipAddrAdd]
  if !(← run .writeHostapdConf) then return false
  each [.killallHostapd, .killallDnsmasq]
  if !(← run .startHostapd) then return false
  if !(← run .pidofHostapd) then return false
  let _ ← run .startDnsmasq
  return true

def markNetworkReady : Calls Bool := do
  if !(← run .writeWifiReady) then return false
  run .iwSetPowerSave

def warmRegdomViaHostapd : Calls Bool := enterApMode

def recoverWifiRadio : Calls Unit :=
  each [.killallWpaSupplicant, .killallHostapd, .killallDnsmasq, .ipAddrFlush, .ipLinkDown,
    .rfkillToggle, .ipLinkUp]

/-- The join of `wifi_switch_run_now`, primed by an AP if none was up. -/
def joinNow (apWasUp : Bool) : Program WifiSwitchStatus :=
  if apWasUp then within .staJoin tryStaOnly
  else do
    let _ ← within .apBringUp warmRegdomViaHostapd
    within .staJoin tryStaOnly

def settle (apWasUp : Bool) (st : WifiSwitchStatus) : Program Bool :=
  if st = .ok then within .setup markNetworkReady
  else if apWasUp then within .apBringUp enterApMode
  else pure false

/-- `wifi_switch_run_now` once it has the mutex; so the other `Held` programs. -/
def runNowHeld (given : Bool) : Program WifiSwitchStatus := do
  let found ← chooseNetwork given
  if !found then unlockWith .errUnknown
  else do
    let ready ← waitForSystemReady .iwScan
    if !ready then unlockWith .errConnectFail
    else do
      within .setup disableIpv6
      let apWasUp ← within .state isApRunning
      let st ← joinNow apWasUp
      let _ ← settle apWasUp st
      unlockWith st

def runNow (given : Bool) : Program WifiSwitchStatus :=
  .tryLock (runNowHeld given) (pure .errBusy)

def ensureApModeHeld : Program WifiSwitchStatus := do
  let up ← within .state isApRunning
  if up then unlockWith .ok
  else do
    let ready ← waitForSystemReady .iwScan
    if !ready then unlockWith .errConnectFail
    else do
      within .setup disableIpv6
      let started ← within .apBringUp enterApMode
      if !started then unlockWith .errConnectFail
      else do
        let _ ← within .setup markNetworkReady
        unlockWith .ok

def ensureApMode : Program WifiSwitchStatus := .tryLock ensureApModeHeld (pure .errBusy)

def scanHeld : Program Bool := do
  let entries ← within .setup (run .malloc)
  let buffer ← within .setup (run .malloc)
  if !(entries && buffer) then unlockWith false
  else do
    let usable ← within .iwScan (poll .iwScan 3)
    if !usable then unlockWith false
    else do
      let parsed ← within .setup (run .parseIwScan)
      unlockWith parsed

def scan : Program Bool := .tryLock scanHeld (pure false)

def restoreAp : Program Bool := do
  let up ← within .state isApRunning
  if up then pure false else within .apBringUp enterApMode

def reconnectHeld : Program Nat := do
  let found ← within .storage readHomeWifi
  if !found then do
    let _ ← restoreAp
    unlockWith 0
  else do
    within .radioRecovery recoverWifiRadio
    let st ← within .staJoin tryStaOnly
    if st = .ok then unlockWith 0
    else do
      let _ ← within .apBringUp enterApMode
      unlockWith 0

/-- One turn of the loop of `wifi_reconnect_monitor`, from a count of misses to the next. -/
def reconnectRound (missCount : Nat) : Program Nat := do
  let up ← within .state isApRunning
  if up then pure 0
  else do
    let connected ← within .state isConnected
    if connected then pure 0
    else if missCount + 1 < 2 then pure (missCount + 1)
    else .tryLock reconnectHeld (pure 0)

def phaseB : Program Bool := do
  let up ← within .apBringUp enterApMode
  if !up then unlockWith true
  else do
    let _ ← within .setup markNetworkReady
    unlockWith true

def phaseA : Program Bool := do
  let st ← within .staJoin tryStaOnly
  if st = .ok then do
    release
    let _ ← within .setup markNetworkReady
    within .setup connectivityCheck
    pure true
  else do
    let _ ← within .staJoin (run .killallWpaSupplicant)
    phaseB

def bootHeld (haveCreds : Bool) : Program Bool :=
  if haveCreds then do
    let band5 ← within .storage (run .readBandConf)
    if band5 then do
      let _ ← within .apBringUp warmRegdomViaHostapd
      phaseA
    else phaseA
  else phaseB

/-- The boot thread up to its monitor; it ends without one if the system is not ready. -/
def switchThread : Program Bool := do
  let haveCreds ← within .storage readHomeWifi
  let ready ← waitForSystemReady .bootProbe
  if !ready then pure false
  else do
    within .setup disableIpv6
    within .setup printEnvironment
    .lock (bootHeld haveCreds)

end Rk3566

namespace A733

def requireRootForControl : Calls Bool := run .geteuid

def waitForSystemReady : Calls Bool := do
  if !(← run .which) then return false
  if !(← run .which) then return false
  if !(← poll .accessIface 60) then return false
  each [.nmcliRadioOn, .nmcliSetManaged]
  return true

def markNetworkReady : Calls Bool := run .writeWifiReady

def nmConnectionActive : Calls Bool := run .nmcliShowActive

def getIfaceIpv4 : Calls Bool := run .ipAddrShow

def isConnected : Calls Bool := do
  if ← nmConnectionActive then return false
  getIfaceIpv4

/-- The second form of the command is tried if the first is of no use. -/
def targetVisibleInScan : Calls Bool := do
  if !(← run .ssidFits) then return false
  if !(← run .malloc) then return false
  if ← run .iwScan then return true
  run .iwScan

def secureProfile : Calls Bool := do
  if ← run .passwordGiven then run .nmcliModifySta else return true

/-- The explicit profile, tried if the direct connect does not find the network. -/
def connectProfile : Calls Bool := do
  let _ ← run .nmcliDeleteSta
  if !(← run .nmcliAddSta) then return false
  if !(← secureProfile) then return false
  run .nmcliUpSta

def nmcliJoin : Calls Bool := do
  if ← run .nmcliConnect then return true
  if !(← run .saysNotFound) then return false
  connectProfile

def joinFailure : Calls WifiSwitchStatus := do
  if ← run .saysPassword then return .errBadPassword
  if ← run .saysNotFound then return .errNoSsid
  return .errConnectFail

def connectedWithIpv4 : Calls Bool := do
  if !(← isConnected) then return false
  getIfaceIpv4

def waitConnected : Nat → Calls Bool
  | 0 => pure false
  | n + 1 => do
      if ← connectedWithIpv4 then return true
      waitConnected n

/-- `wifi_switch_run_now` from taking the AP down to the outcome of the join. -/
def joinNow : Calls WifiSwitchStatus := do
  each [.nmcliDownAp, .nmcliDeleteSta, .nmcliRescan]
  let _ ← targetVisibleInScan
  if !(← nmcliJoin) then joinFailure
  else do
    let _ ← run .nmcliAutoconnectSta
    if ← waitConnected 30 then return .ok
    return .errConnectFail

def ensureApModeLocked : Calls WifiSwitchStatus := do
  if !(← waitForSystemReady) then return .errUnknown
  let _ ← run .readApCredentials
  if !(← run .quoteArguments) then return .errUnknown
  each [.nmcliDownSta, .nmcliDownAp, .nmcliDeleteAp, .nmcliRadioOn, .nmcliSetManaged]
  if !(← run .nmcliHotspot) then return .errConnectFail
  each [.nmcliModifyAp, .nmcliDownAp]
  if !(← run .nmcliUpAp) then return .errConnectFail
  let _ ← markNetworkReady
  return .ok

def settle (st : WifiSwitchStatus) : Program Unit :=
  if st = .ok then do
    let _ ← within .setup markNetworkReady
    pure ()
  else do
    let _ ← within .apBringUp ensureApModeLocked
    pure ()

def runNowHeld (given : Bool) : Program WifiSwitchStatus := do
  let found ← chooseNetwork given
  if !found then unlockWith .errNoSsid
  else do
    let ready ← within .setup waitForSystemReady
    if !ready then unlockWith .errUnknown
    else do
      let quoted ← within .setup (run .quoteArguments)
      if !quoted then unlockWith .errUnknown
      else do
        let st ← within .staJoin joinNow
        let _ ← settle st
        unlockWith st

def runNow (given : Bool) : Program WifiSwitchStatus := do
  let root ← within .setup requireRootForControl
  if !root then pure .errUnknown
  else .tryLock (runNowHeld given) (pure .errBusy)

def ensureApModeHeld : Program WifiSwitchStatus := do
  let active ← within .state nmConnectionActive
  if active then unlockWith .ok
  else do
    let st ← within .apBringUp ensureApModeLocked
    unlockWith st

def ensureApMode : Program WifiSwitchStatus := do
  let root ← within .setup requireRootForControl
  if !root then pure .errUnknown
  else .tryLock ensureApModeHeld (pure .errBusy)

def rescanAndScan : Calls Bool := do
  let _ ← run .nmcliRescan
  poll .iwScan 3

def scanHeld : Program Bool := do
  let ready ← within .setup waitForSystemReady
  if !ready then unlockWith false
  else do
    let entries ← within .setup (run .malloc)
    let buffer ← within .setup (run .malloc)
    if !(entries && buffer) then unlockWith false
    else do
      let usable ← within .iwScan rescanAndScan
      if !usable then unlockWith false
      else do
        let parsed ← within .setup (run .parseIwScan)
        unlockWith parsed

def scan : Program Bool := .tryLock scanHeld (pure false)

def reconnectRound (miss : Nat) : Program Nat := do
  let connected ← within .state isConnected
  if connected then pure 0
  else if miss + 1 < 2 then pure (miss + 1)
  else do
    let found ← within .storage readHomeWifi
    if found then do
      let _ ← runNow true
      pure 0
    else do
      let active ← within .state nmConnectionActive
      if active then pure 0
      else do
        let _ ← ensureApMode
        pure 0

def switchThread : Program Bool := do
  let root ← within .setup requireRootForControl
  if !root then pure false
  else do
    let found ← within .storage readHomeWifi
    if found then do
      let _ ← runNow true
      pure true
    else do
      let _ ← ensureApMode
      pure true

end A733

/-- What a thread of the service can start. The boot thread starts rounds of the monitor
one after the other once it has set up the radio; here any thread may start any of them
at any time, and a round any count of misses. -/
inductive Entry where
  | switchThread
  | reconnectRound (misses : Nat)
  | runNow (given : Bool)
  | ensureApMode
  | scan
deriving DecidableEq, Repr

def booted (monitors : Bool) : Outcome := if monitors then .monitoring else .exited

def program : Backend → Entry → Program Outcome
  | .rk3566, .switchThread => return booted (← Rk3566.switchThread)
  | .rk3566, .reconnectRound misses => return .misses (← Rk3566.reconnectRound misses)
  | .rk3566, .runNow given => return .status (← Rk3566.runNow given)
  | .rk3566, .ensureApMode => return .status (← Rk3566.ensureApMode)
  | .rk3566, .scan => return .scan (← Rk3566.scan)
  | .a733, .switchThread => return booted (← A733.switchThread)
  | .a733, .reconnectRound misses => return .misses (← A733.reconnectRound misses)
  | .a733, .runNow given => return .status (← A733.runNow given)
  | .a733, .ensureApMode => return .status (← A733.ensureApMode)
  | .a733, .scan => return .scan (← A733.scan)

end WfyApp.SwitchPrograms
