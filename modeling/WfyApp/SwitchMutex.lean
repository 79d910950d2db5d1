import WfyApp.SwitchPrograms

/-! The switch mutex in every interleaving of the switching code. Each program is checked
by itself, in the order of its calls; the library's rules then give what holds of all
threads together. A spec says of a program what the results it can return with have to
satisfy, before it has the mutex, after it gave it up, or when it was refused. -/

namespace WfyApp.SwitchMutex
open ProtoDispatch HomeWifi LockPrograms LockPrograms.Script LockPrograms.Prog StepSystem
open SwitchPrograms

def Guarded (part : Part) (c : Command) : Prop := part.exclusive = true ∨ c.writesConfig = true

instance (part : Part) (c : Command) : Decidable (Guarded part c) :=
  inferInstanceAs (Decidable (_ ∨ _))

section Specs
variable {R : Type} {final : Mode → R → Prop} {m : Mode}

theorem safe_unlockWith (r : R) (ends : final .released r) :
    Safe Guarded final .holding (unlockWith r) := ⟨rfl, ends⟩

theorem safe_chooseNetwork (given : Bool) (f : Bool → Program R)
    (rest : ∀ found, Safe Guarded final .holding (f found)) :
    Safe Guarded final .holding (chooseNetwork given >>= f) := by
  cases given with
  | true => exact rest true
  | false => exact safe_held _ _ _ rest

end Specs

theorem readHomeWifi_harmless : readHomeWifi.Calls fun c => ¬Guarded .storage c :=
  (calls_run _).mpr (by decide)

namespace Rk3566
open SwitchPrograms.Rk3566

theorem tryStaOnly_ends : tryStaOnly.Ends (· ≠ .errBusy) := by
  refine ends_bind _ _ fun _ => ends_bind _ _ fun _ => ends_ite _ _ _ (by simp) ?_
  refine ends_bind _ _ fun _ => ends_bind _ _ fun _ => ends_ite _ _ _ (by simp) ?_
  refine ends_bind _ _ fun _ => ends_bind _ _ fun _ => ends_ite _ _ _ (by simp) ?_
  refine ends_bind _ _ fun _ => ends_bind _ _ fun _ => ends_ite _ _ _ (by simp) ?_
  refine ends_bind _ _ fun _ => ends_ite _ _ _ (ends_bind _ _ fun badPsk => ?_) ?_
  · cases badPsk <;> simp
  refine ends_bind _ _ fun _ => ends_bind _ _ fun _ => ends_ite _ _ _ (by simp) ?_
  exact ends_bind _ _ fun _ => ends_ite _ _ _ (by simp) (by simp)

section Specs
variable {R : Type} {final : Mode → R → Prop}

theorem safe_waitForSystemReady (probe : Part) (f : Bool → Program R)
    (rest : ∀ ready, Safe Guarded final .holding (f ready)) :
    Safe Guarded final .holding (waitForSystemReady probe >>= f) := by
  refine safe_bind _ _ (safe_held _ _ _ fun present => safe_ite _ _ _ (fun _ => rest false) fun _ => ?_)
  exact safe_held _ _ _ fun _ => safe_held _ _ _ fun _ => rest true

/-- Before the mutex, with a probe that is not counted as a step of the section. -/
theorem safe_waitForSystemReady_open (f : Bool → Program R)
    (rest : ∀ ready, Safe Guarded final .fresh (f ready)) :
    Safe Guarded final .fresh (waitForSystemReady .bootProbe >>= f) := by
  refine safe_bind _ _ (safe_open _ _ _ (calls_poll _ _ (by decide)) fun present => safe_ite _ _ _
    (fun _ => rest false) fun _ => ?_)
  refine safe_open _ _ _ (calls_poll _ _ (by decide)) fun _ => ?_
  exact safe_open _ _ _ ((calls_run _).mpr (by decide)) fun _ => rest true

theorem safe_joinNow (apWasUp : Bool) (f : WifiSwitchStatus → Program R)
    (rest : ∀ st, st ≠ .errBusy → Safe Guarded final .holding (f st)) :
    Safe Guarded final .holding (joinNow apWasUp >>= f) := by
  have join : Safe Guarded final .holding (within .staJoin tryStaOnly >>= f) :=
    safe_held_ends _ _ _ (ends_mono _ rest tryStaOnly_ends)
  cases apWasUp with
  | true => exact join
  | false =>
      refine safe_bind _ _ (safe_held _ _ _ fun _ => ?_)
      exact safe_within _ _ (calls_of_forall (fun _ _ => rfl) _)
        (ends_mono _ rest tryStaOnly_ends)

theorem safe_settle (apWasUp : Bool) (st : WifiSwitchStatus) (f : Bool → Program R)
    (rest : ∀ done, Safe Guarded final .holding (f done)) :
    Safe Guarded final .holding (settle apWasUp st >>= f) := by
  unfold settle
  split_ifs
  · exact safe_held _ _ _ rest
  · exact safe_held _ _ _ rest
  · exact rest false

end Specs

section Statuses
variable {final : Mode → WifiSwitchStatus → Prop}
  (released : ∀ st, st ≠ .errBusy → final .released st) (refused : final .refused .errBusy)
include released

theorem runNowHeld_safe (given : Bool) : Safe Guarded final .holding (runNowHeld given) := by
  refine safe_chooseNetwork given _ fun found => safe_ite _ _ _
    (fun _ => safe_unlockWith _ (released _ (by simp))) fun _ => ?_
  refine safe_waitForSystemReady _ _ fun ready => safe_ite _ _ _
    (fun _ => safe_unlockWith _ (released _ (by simp))) fun _ => ?_
  refine safe_held _ _ _ fun _ => safe_held _ _ _ fun apWasUp => ?_
  refine safe_joinNow apWasUp _ fun st notBusy => safe_settle apWasUp st _ fun _ => ?_
  exact safe_unlockWith st (released st notBusy)

theorem ensureApModeHeld_safe : Safe Guarded final .holding ensureApModeHeld := by
  refine safe_held _ _ _ fun up => safe_ite _ _ _
    (fun _ => safe_unlockWith _ (released _ (by simp))) fun _ => ?_
  refine safe_waitForSystemReady _ _ fun ready => safe_ite _ _ _
    (fun _ => safe_unlockWith _ (released _ (by simp))) fun _ => ?_
  refine safe_held _ _ _ fun _ => safe_held _ _ _ fun started => safe_ite _ _ _
    (fun _ => safe_unlockWith _ (released _ (by simp))) fun _ => ?_
  exact safe_held _ _ _ fun _ => safe_unlockWith _ (released _ (by simp))

include refused

theorem runNow_safe (given : Bool) : Safe Guarded final .fresh (runNow given) :=
  ⟨rfl, runNowHeld_safe released given, refused⟩

theorem ensureApMode_safe : Safe Guarded final .fresh ensureApMode :=
  ⟨rfl, ensureApModeHeld_safe released, refused⟩

end Statuses

theorem scan_safe {final : Mode → Bool → Prop} (released : ∀ ok, final .released ok)
    (refused : final .refused false) : Safe Guarded final .fresh scan := by
  refine ⟨rfl, ?_, refused⟩
  refine safe_held _ _ _ fun entries => safe_held _ _ _ fun buffer => safe_ite _ _ _
    (fun _ => safe_unlockWith _ (released _)) fun _ => ?_
  refine safe_held _ _ _ fun usable => safe_ite _ _ _
    (fun _ => safe_unlockWith _ (released _)) fun _ => ?_
  exact safe_held _ _ _ fun parsed => safe_unlockWith _ (released _)

theorem isApRunning_harmless : isApRunning.Calls fun c => ¬Guarded .state c :=
  (calls_run _).mpr (by decide)

theorem isConnected_harmless : isConnected.Calls fun c => ¬Guarded .state c := by
  refine calls_bind _ _ ((calls_run _).mpr (by decide)) fun _ => ?_
  exact calls_ite _ _ _ (calls_pure _) ((calls_run _).mpr (by decide))

theorem markNetworkReady_harmless : markNetworkReady.Calls fun c => ¬Guarded .setup c := by
  refine calls_bind _ _ ((calls_run _).mpr (by decide)) fun _ => ?_
  exact calls_ite _ _ _ (calls_pure _) ((calls_run _).mpr (by decide))

theorem restoreAp_safe {R : Type} {final : Mode → R → Prop} (f : Bool → Program R)
    (rest : ∀ done, Safe Guarded final .holding (f done)) :
    Safe Guarded final .holding (restoreAp >>= f) := by
  refine safe_bind _ _ (safe_held _ _ _ fun up => safe_ite _ _ _ (fun _ => rest false) fun _ => ?_)
  exact safe_within _ _ (calls_of_forall (fun _ _ => rfl) _) (ends_of_forall rest _)

theorem reconnectRound_safe {final : Mode → Nat → Prop}
    (ends : ∀ m misses, m ≠ .holding → final m misses) (misses : Nat) :
    Safe Guarded final .fresh (reconnectRound misses) := by
  refine safe_open _ _ _ isApRunning_harmless fun up => safe_ite _ _ _
    (fun _ => ends _ _ (by decide)) fun _ => ?_
  refine safe_open _ _ _ isConnected_harmless fun connected => safe_ite _ _ _
    (fun _ => ends _ _ (by decide)) fun _ => safe_ite _ _ _
    (fun _ => ends _ _ (by decide)) fun _ => ?_
  refine ⟨rfl, ?_, ends _ _ (by decide)⟩
  refine safe_held _ _ _ fun found => safe_ite _ _ _ (fun _ => ?_) fun _ => ?_
  · exact restoreAp_safe _ fun _ => safe_unlockWith _ (ends _ _ (by decide))
  · refine safe_held _ _ _ fun _ => safe_held _ _ _ fun st => safe_ite _ _ _
      (fun _ => safe_unlockWith _ (ends _ _ (by decide))) fun _ => ?_
    exact safe_held _ _ _ fun _ => safe_unlockWith _ (ends _ _ (by decide))

section Boot
variable {final : Mode → Bool → Prop} (ends : ∀ m monitors, m ≠ .holding → final m monitors)
include ends

theorem phaseB_safe : Safe Guarded final .holding phaseB := by
  refine safe_held _ _ _ fun up => safe_ite _ _ _
    (fun _ => safe_unlockWith _ (ends _ _ (by decide))) fun _ => ?_
  exact safe_held _ _ _ fun _ => safe_unlockWith _ (ends _ _ (by decide))

theorem phaseA_safe : Safe Guarded final .holding phaseA := by
  refine safe_held _ _ _ fun st => safe_ite _ _ _ (fun _ => ?_) fun _ => ?_
  · refine safe_release _ (safe_open _ _ _ markNetworkReady_harmless fun _ => ?_)
    exact safe_open _ _ _ ((calls_each _).mpr (by decide)) fun _ => ends _ _ (by decide)
  · exact safe_held _ _ _ fun _ => phaseB_safe ends

theorem switchThread_safe : Safe Guarded final .fresh switchThread := by
  refine safe_open _ _ _ readHomeWifi_harmless fun haveCreds => ?_
  refine safe_waitForSystemReady_open _ fun ready => safe_ite _ _ _
    (fun _ => ends _ _ (by decide)) fun _ => ?_
  refine safe_open _ _ _ ((calls_each _).mpr (by decide)) fun _ => ?_
  refine safe_open _ _ _ ((calls_each _).mpr (by decide)) fun _ => ⟨rfl, ?_⟩
  refine safe_ite _ _ _ (fun _ => ?_) fun _ => phaseB_safe ends
  refine safe_held _ _ _ fun band5 => safe_ite _ _ _ (fun _ => ?_) fun _ => phaseA_safe ends
  exact safe_held _ _ _ fun _ => phaseA_safe ends

end Boot
end Rk3566

namespace A733
open SwitchPrograms.A733

theorem joinFailure_ends : joinFailure.Ends (· ≠ .errBusy) := by
  refine ends_bind _ _ fun _ => ends_ite _ _ _ (by simp) ?_
  exact ends_bind _ _ fun _ => ends_ite _ _ _ (by simp) (by simp)

theorem joinNow_ends : joinNow.Ends (· ≠ .errBusy) := by
  refine ends_bind _ _ fun _ => ends_bind _ _ fun _ => ends_bind _ _ fun _ =>
    ends_ite _ _ _ joinFailure_ends ?_
  refine ends_bind _ _ fun _ => ends_bind _ _ fun _ => ?_
  exact ends_ite _ _ _ (by simp) (by simp)

theorem ensureApModeLocked_ends : ensureApModeLocked.Ends (· ≠ .errBusy) := by
  refine ends_bind _ _ fun _ => ends_ite _ _ _ (by simp) ?_
  refine ends_bind _ _ fun _ => ends_bind _ _ fun _ => ends_ite _ _ _ (by simp) ?_
  refine ends_bind _ _ fun _ => ends_bind _ _ fun _ => ends_ite _ _ _ (by simp) ?_
  refine ends_bind _ _ fun _ => ends_bind _ _ fun _ => ends_ite _ _ _ (by simp) ?_
  exact ends_bind _ _ fun _ => by simp

theorem requireRoot_harmless : requireRootForControl.Calls fun c => ¬Guarded .setup c :=
  (calls_run _).mpr (by decide)

theorem nmConnectionActive_harmless : nmConnectionActive.Calls fun c => ¬Guarded .state c :=
  (calls_run _).mpr (by decide)

theorem isConnected_harmless : isConnected.Calls fun c => ¬Guarded .state c := by
  refine calls_bind _ _ nmConnectionActive_harmless fun _ => ?_
  exact calls_ite _ _ _ (calls_pure _) ((calls_run _).mpr (by decide))

theorem safe_settle {R : Type} {final : Mode → R → Prop} (st : WifiSwitchStatus)
    (f : Unit → Program R) (rest : Safe Guarded final .holding (f ())) :
    Safe Guarded final .holding (settle st >>= f) := by
  unfold settle
  split_ifs
  · exact safe_bind _ _ (safe_held _ _ _ fun _ => rest)
  · exact safe_bind _ _ (safe_held _ _ _ fun _ => rest)

section Statuses
variable {final : Mode → WifiSwitchStatus → Prop} (fresh : final .fresh .errUnknown)
  (released : ∀ st, st ≠ .errBusy → final .released st) (refused : final .refused .errBusy)
include released

theorem runNowHeld_safe (given : Bool) : Safe Guarded final .holding (runNowHeld given) := by
  refine safe_chooseNetwork given _ fun found => safe_ite _ _ _
    (fun _ => safe_unlockWith _ (released _ (by simp))) fun _ => ?_
  refine safe_held _ _ _ fun ready => safe_ite _ _ _
    (fun _ => safe_unlockWith _ (released _ (by simp))) fun _ => ?_
  refine safe_held _ _ _ fun quoted => safe_ite _ _ _
    (fun _ => safe_unlockWith _ (released _ (by simp))) fun _ => ?_
  refine safe_held_ends _ _ _ (ends_mono _ (fun st notBusy => ?_) joinNow_ends)
  exact safe_settle st _ (safe_unlockWith st (released st notBusy))

theorem ensureApModeHeld_safe : Safe Guarded final .holding ensureApModeHeld := by
  refine safe_held _ _ _ fun active => safe_ite _ _ _
    (fun _ => safe_unlockWith _ (released _ (by simp))) fun _ => ?_
  refine safe_held_ends _ _ _ (ends_mono _ (fun st notBusy => ?_) ensureApModeLocked_ends)
  exact safe_unlockWith st (released st notBusy)

include fresh refused

theorem runNow_safe (given : Bool) : Safe Guarded final .fresh (runNow given) := by
  refine safe_open _ _ _ requireRoot_harmless fun root => safe_ite _ _ _
    (fun _ => fresh) fun _ => ?_
  exact ⟨rfl, runNowHeld_safe released given, refused⟩

theorem ensureApMode_safe : Safe Guarded final .fresh ensureApMode := by
  refine safe_open _ _ _ requireRoot_harmless fun root => safe_ite _ _ _
    (fun _ => fresh) fun _ => ?_
  exact ⟨rfl, ensureApModeHeld_safe released, refused⟩

end Statuses

theorem scan_safe {final : Mode → Bool → Prop} (released : ∀ ok, final .released ok)
    (refused : final .refused false) : Safe Guarded final .fresh scan := by
  refine ⟨rfl, ?_, refused⟩
  refine safe_held _ _ _ fun ready => safe_ite _ _ _
    (fun _ => safe_unlockWith _ (released _)) fun _ => ?_
  refine safe_held _ _ _ fun entries => safe_held _ _ _ fun buffer => safe_ite _ _ _
    (fun _ => safe_unlockWith _ (released _)) fun _ => ?_
  refine safe_held _ _ _ fun usable => safe_ite _ _ _
    (fun _ => safe_unlockWith _ (released _)) fun _ => ?_
  exact safe_held _ _ _ fun parsed => safe_unlockWith _ (released _)

theorem reconnectRound_safe {final : Mode → Nat → Prop}
    (ends : ∀ m misses, m ≠ .holding → final m misses) (misses : Nat) :
    Safe Guarded final .fresh (reconnectRound misses) := by
  refine safe_open _ _ _ isConnected_harmless fun connected => safe_ite _ _ _
    (fun _ => ends _ _ (by decide)) fun _ => safe_ite _ _ _
    (fun _ => ends _ _ (by decide)) fun _ => ?_
  refine safe_open _ _ _ readHomeWifi_harmless fun found => safe_ite _ _ _ (fun _ => ?_) fun _ => ?_
  · exact safe_bind _ _ (runNow_safe (ends _ _ (by decide)) (fun _ _ => ends _ _ (by decide))
      (ends _ _ (by decide)) true)
  · refine safe_open _ _ _ nmConnectionActive_harmless fun active => safe_ite _ _ _
      (fun _ => ends _ _ (by decide)) fun _ => ?_
    exact safe_bind _ _ (ensureApMode_safe (ends _ _ (by decide))
      (fun _ _ => ends _ _ (by decide)) (ends _ _ (by decide)))

theorem switchThread_safe {final : Mode → Bool → Prop}
    (ends : ∀ m monitors, m ≠ .holding → final m monitors) :
    Safe Guarded final .fresh switchThread := by
  refine safe_open _ _ _ requireRoot_harmless fun root => safe_ite _ _ _
    (fun _ => ends _ _ (by decide)) fun _ => ?_
  refine safe_open _ _ _ readHomeWifi_harmless fun found => safe_ite _ _ _ (fun _ => ?_) fun _ => ?_
  · exact safe_bind _ _ (runNow_safe (ends _ _ (by decide)) (fun _ _ => ends _ _ (by decide))
      (ends _ _ (by decide)) true)
  · exact safe_bind _ _ (ensureApMode_safe (ends _ _ (by decide))
      (fun _ _ => ends _ _ (by decide)) (ends _ _ (by decide)))

end A733

def Refuses (outcome : Outcome) : Prop := outcome = .status .errBusy

theorem returns_of_not_holding (m : Mode) (outcome : Outcome) (left : m ≠ .holding)
    (other : outcome ≠ .status .errBusy) : Returns Refuses m outcome :=
  ⟨left, fun busy => absurd busy other⟩

theorem returns_released (st : WifiSwitchStatus) (notBusy : st ≠ .errBusy) :
    Returns Refuses .released (.status st) :=
  returns_of_not_holding _ _ (by decide) (by simpa using notBusy)

theorem returns_booted (m : Mode) (monitors : Bool) (left : m ≠ .holding) :
    Returns Refuses m (booted monitors) :=
  returns_of_not_holding _ _ left (by cases monitors <;> simp [booted])

/-- Every entry of either backend by itself keeps the discipline of the mutex. -/
theorem program_safe (backend : Backend) (entry : Entry) :
    (program backend entry).Safe Guarded (Returns Refuses) .fresh := by
  have turned : Returns Refuses .refused (.status .errBusy) := ⟨by decide, fun _ => rfl⟩
  have early : Returns Refuses .fresh (.status .errUnknown) :=
    returns_of_not_holding _ _ (by decide) (by simp)
  have counted : ∀ m misses, m ≠ .holding → Returns Refuses m (.misses misses) :=
    fun m misses left => returns_of_not_holding m _ left (by simp)
  have scanned : ∀ m ok, m ≠ .holding → Returns Refuses m (.scan ok) :=
    fun m ok left => returns_of_not_holding m _ left (by simp)
  cases backend <;> cases entry <;> refine safe_bind _ _ ?_
  case rk3566.switchThread => exact Rk3566.switchThread_safe returns_booted
  case rk3566.reconnectRound misses => exact Rk3566.reconnectRound_safe counted misses
  case rk3566.runNow given => exact Rk3566.runNow_safe returns_released turned given
  case rk3566.ensureApMode => exact Rk3566.ensureApMode_safe returns_released turned
  case rk3566.scan =>
    exact Rk3566.scan_safe (fun ok => scanned _ ok (by decide)) (scanned _ _ (by decide))
  case a733.switchThread => exact A733.switchThread_safe returns_booted
  case a733.reconnectRound misses => exact A733.reconnectRound_safe counted misses
  case a733.runNow given => exact A733.runNow_safe early returns_released turned given
  case a733.ensureApMode => exact A733.ensureApMode_safe early returns_released turned
  case a733.scan =>
    exact A733.scan_safe (fun ok => scanned _ ok (by decide)) (scanned _ _ (by decide))

abbrev SwitchState := State Entry Part Command Outcome
abbrev SwitchLabel := Label Entry Part Command

/-- Thread `i` is in the middle of a call for one of the parts. -/
def Doing (parts : Part → Bool) (s : SwitchState) (i : Nat) : Prop :=
  ∃ t part c next, s.threads i = some t ∧ t.prog = .call part c next ∧ parts part = true

/-- Thread `i` is in the middle of a join, an AP bring-up, a radio recovery or a scan, if it
is not the scan of the boot thread. -/
def InSection : SwitchState → Nat → Prop := Doing Part.exclusive

/-- The same with the scan of the boot thread. -/
def OnRadio : SwitchState → Nat → Prop := Doing fun part => part.exclusive || part == .bootProbe

theorem InSection.inside {s : SwitchState} {i : Nat} (section_ : InSection s i) :
    Inside Guarded s i := by
  obtain ⟨t, part, c, next, thread, at_, exclusive⟩ := section_
  exact ⟨t, part, c, next, thread, at_, .inl exclusive⟩

/-- The call was turned away because the mutex was taken. -/
def RefusedBusy (t : Thread Entry Part Command Outcome) : Prop :=
  .refused ∈ t.trace ∨ t.prog = .ret (.status .errBusy)

theorem switch_serialised (backend : Backend) (ls : List SwitchLabel) (s : SwitchState)
    (reached : exec (step (program backend)) .initial ls = some s) :
    (∀ i j, InSection s i → InSection s j → i = j) ∧
      (∀ i t, s.threads i = some t → (∃ r, t.prog = .ret r) → s.owner ≠ some i) ∧
      (∀ i t, s.threads i = some t → RefusedBusy t → ∀ part c answer,
        .called part c answer ∈ t.trace →
          part.exclusive = false ∧ c.writesConfig = false) := by
  have safe := program_safe backend
  refine ⟨fun i j first second => ?_, fun i t thread returned => ?_,
    fun i t thread refused part c answer member => ?_⟩
  · exact inside_unique safe ls reached i j first.inside second.inside
  · obtain ⟨r, returned⟩ := returned
    exact returned_free safe ls reached i t r thread returned
  · have turned : .refused ∈ t.trace ∨ ∃ r, t.prog = .ret r ∧ Refuses r :=
      refused.imp_right fun returned => ⟨_, returned, rfl⟩
    have clean := refused_clean safe ls reached i t thread turned _ member
    simpa [Guards, Guarded] using clean

/-- The boot thread looks whether the radio takes a scan, and a SCAN worker is scanning. -/
def probeRun : List SwitchLabel :=
  [.start 0 .switchThread, .event 0 (.called .storage .readHomeWifi true), .start 1 .scan,
    .event 1 .locked, .event 1 (.called .setup .malloc true), .event 1 (.called .setup .malloc true),
    .event 0 (.called .setup .accessIface true)]

theorem boot_probe_beside_scan :
    ∃ s, exec (step (program .rk3566)) .initial probeRun = some s ∧ s.owner = some 1 ∧
      OnRadio s 0 ∧ OnRadio s 1 := by
  have ends : ∃ s t₀ t₁ next₀ next₁, exec (step (program .rk3566)) .initial probeRun = some s ∧
      s.owner = some 1 ∧ s.threads 0 = some t₀ ∧ t₀.prog = .call .bootProbe .iwScanTrigger next₀ ∧
      s.threads 1 = some t₁ ∧ t₁.prog = .call .iwScan .iwScan next₁ :=
    ⟨_, _, _, _, _, rfl, rfl, rfl, rfl, rfl, rfl⟩
  obtain ⟨s, t₀, t₁, next₀, next₁, reached, owner, boot, probes, worker, scans⟩ := ends
  exact ⟨s, reached, owner, ⟨t₀, _, _, next₀, boot, probes, rfl⟩, ⟨t₁, _, _, next₁, worker, scans, rfl⟩⟩

/-- A connect holds the mutex; a request for the AP is refused. -/
theorem switch_serialised_refusal :
    ∃ s t, exec (step (program .rk3566)) .initial
        [.start 1 (.runNow true), .event 1 .locked, .start 2 .ensureApMode, .event 2 .refused] =
          some s ∧
      s.threads 2 = some t ∧ RefusedBusy t ∧ s.owner ≠ some 2 := by
  have ends : ∃ s t, exec (step (program .rk3566)) .initial
      [.start 1 (.runNow true), .event 1 .locked, .start 2 .ensureApMode, .event 2 .refused] =
        some s ∧ s.threads 2 = some t ∧ t.prog = .ret (.status .errBusy) := ⟨_, _, rfl, rfl, rfl⟩
  obtain ⟨s, t, reached, thread, returned⟩ := ends
  obtain ⟨-, free, -⟩ := switch_serialised .rk3566 _ s reached
  exact ⟨s, t, reached, thread, .inr returned, free 2 t thread ⟨_, returned⟩⟩

end WfyApp.SwitchMutex
