import WfyApp.A733Switch

/-! `wifi_switch_run_now` on either backend, as far as the caller can tell: the
credentials of the join it attempts, if it gets that far, and the status it returns.
On the RK3566 the join itself (`try_sta_only`) is an input, as is everything the
function asks the system. -/

namespace WfyApp.WifiSwitch
open ByteText ProtoDispatch HomeWifi A733Switch

structure Rk3566World where
  switchFree : Bool
  homeFile : Option Bytes
  systemReady : Bool
  trySta : WifiSwitchStatus

structure SwitchResult where
  join : Option (Bytes × Bytes)
  status : WifiSwitchStatus
deriving DecidableEq

def rk3566RunNow (world : Rk3566World) (ssid password : Bytes) : SwitchResult :=
  if !world.switchFree then ⟨none, .errBusy⟩
  else
    match useCredentials .rk3566 128 128 world.homeFile ssid password with
    | none => ⟨none, .errUnknown⟩
    | some credentials =>
        if !world.systemReady then ⟨none, .errConnectFail⟩
        else ⟨some credentials, world.trySta⟩

inductive World where
  | rk3566 (world : Rk3566World)
  | a733 (world : A733World)

def runNow : World → Bytes → Bytes → SwitchResult
  | .rk3566 world, ssid, password => rk3566RunNow world ssid password
  | .a733 world, ssid, password =>
      let run := A733Switch.runNow world ssid password
      ⟨run.join, run.status⟩

/-- A join uses the given credentials, or the stored ones if the name is empty. -/
theorem runNow_join (world : World) (ssid password : Bytes) (credentials : Bytes × Bytes)
    (joined : (runNow world ssid password).join = some credentials) :
    ∃ backend ssidSz passwordSz file,
      useCredentials backend ssidSz passwordSz file ssid password = some credentials := by
  cases world with
  | rk3566 world =>
      simp only [runNow, rk3566RunNow] at joined
      cases source : useCredentials .rk3566 128 128 world.homeFile ssid password with
      | none =>
          rw [source] at joined
          split_ifs at joined
      | some found =>
          rw [source] at joined
          simp only at joined
          split_ifs at joined
          exact ⟨_, _, _, _, source.trans joined⟩
  | a733 world =>
      simp only [runNow, A733Switch.runNow] at joined
      cases source : useCredentials .a733 33 64 world.homeFile ssid password with
      | none =>
          rw [source] at joined
          split_ifs at joined
      | some found =>
          rw [source] at joined
          simp only at joined
          cases quoted : quoteArgs found.1 found.2 with
          | none =>
              rw [quoted] at joined
              split_ifs at joined
          | some q =>
              rw [quoted] at joined
              split_ifs at joined
              exact ⟨_, _, _, _, source.trans joined⟩

theorem useCredentials_nulFree (backend : Backend) (ssidSz passwordSz : Nat) (file : Option Bytes)
    (ssid password : Bytes) (credentials : Bytes × Bytes) (ssid_free : 0 ∉ ssid)
    (password_free : 0 ∉ password)
    (used : useCredentials backend ssidSz passwordSz file ssid password = some credentials) :
    0 ∉ credentials.1 ∧ 0 ∉ credentials.2 := by
  unfold useCredentials at used
  split_ifs at used
  · exact readHomeWifi_without 0 (.inr rfl) backend ssidSz passwordSz file _ _ used
  · rw [← Option.some.inj used]
    exact ⟨ssid_free, password_free⟩

/-- The staged bytes reach the join exactly when none of them is a NUL. -/
theorem runNow_join_staged_iff (world : World) (ssid password : Bytes) (ssid_ne : ssid ≠ [])
    (credentials : Bytes × Bytes)
    (joined : (runNow world (cstr ssid) (cstr password)).join = some credentials) :
    credentials = (ssid, password) ↔ 0 ∉ ssid ∧ 0 ∉ password := by
  obtain ⟨backend, ssidSz, passwordSz, file, used⟩ := runNow_join world _ _ credentials joined
  refine ⟨fun same => ?_, fun free => ?_⟩
  · have plain := useCredentials_nulFree backend ssidSz passwordSz file _ _ credentials
      (zero_not_mem_cstr ssid) (zero_not_mem_cstr password) used
    rw [same] at plain
    exact plain
  · rw [(cstr_eq_self_iff ssid).mpr free.1, (cstr_eq_self_iff password).mpr free.2,
      useCredentials, if_neg ssid_ne] at used
    exact (Option.some.inj used).symm

end WfyApp.WifiSwitch
