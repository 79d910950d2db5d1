import WfyApp.SwitchMutex

/-! What `wifi_switch_run_now` leaves behind when a join fails. A call that returns one of
the three statuses of a failed join should have tried to bring the access point up as its
last act with the radio. The A733 always does; the RK3566 only if `hostapd` was running
when the call looked. -/

namespace WfyApp.JoinFallback
open ProtoDispatch HomeWifi LockPrograms LockPrograms.Script LockPrograms.Prog StepSystem
open SwitchPrograms SwitchMutex

abbrev Trace := List (Event Part Command)

def Command.takesDown : Command → Bool
  | .killallWpaSupplicant | .killallHostapd | .nmcliDownAp => true
  | _ => false

/-- The parts of the radio actions up to the release of the mutex, in order. -/
def radioParts : Trace → List Part
  | [] => []
  | .unlocked :: _ => []
  | .called part _ _ :: trace =>
      if part.exclusive then part :: radioParts trace else radioParts trace
  | .locked :: trace => radioParts trace
  | .refused :: trace => radioParts trace

/-- The statuses by which a call says that the join failed. -/
def JoinFailed (st : WifiSwitchStatus) : Prop :=
  st = .errNoSsid ∨ st = .errBadPassword ∨ st = .errConnectFail

/-- The call has begun to take the previous mode down. -/
def TakenDown (trace : Trace) : Prop :=
  ∃ part c answer, .called part c answer ∈ trace ∧ Command.takesDown c = true

/-- If the join failed after the previous mode was taken down, the last thing done with
the radio before the mutex was released is an attempt to bring the AP up. -/
def FallsBack (trace : Trace) (st : WifiSwitchStatus) : Prop :=
  JoinFailed st → TakenDown trace → (radioParts trace).getLast? = some .apBringUp

theorem radioParts_append (first second : Trace) (held : .unlocked ∉ first) :
    radioParts (first ++ second) = radioParts first ++ radioParts second := by
  induction first with
  | nil => rfl
  | cons e first ih =>
      have later := ih fun member => held (List.mem_cons_of_mem _ member)
      cases e with
      | called part c answer =>
          simp only [List.cons_append, radioParts, later]
          split <;> rfl
      | locked | refused => exact later
      | unlocked => exact absurd (List.mem_cons_self ..) held

theorem radioParts_inPart (part : Part) (calls : Trace) (inPart : InPart part calls)
    (exclusive : part.exclusive = true) :
    radioParts calls = List.replicate calls.length part := by
  induction calls with
  | nil => rfl
  | cons e calls ih =>
      obtain ⟨c, answer, rfl⟩ := inPart e (List.mem_cons_self ..)
      have later := ih fun e member => inPart e (List.mem_cons_of_mem _ member)
      rw [radioParts, if_pos exclusive, later]
      rfl

theorem inPart_held {part : Part} {calls : Trace} (inPart : InPart part calls) :
    .unlocked ∉ calls := fun member => by
  obtain ⟨c, answer, same⟩ := inPart _ member
  cases same

theorem inPart_other {part other : Part} {calls : Trace} (inPart : InPart part calls)
    (differs : part ≠ other) (c : Command) (answer : Bool) :
    .called other c answer ∉ calls := fun member => by
  obtain ⟨c', answer', same⟩ := inPart _ member
  cases same
  exact differs rfl

/-- The last radio action before the release belongs to the last part that has one. -/
theorem getLast_radioParts (before calls : Trace) (part : Part) (held : .unlocked ∉ before)
    (inPart : InPart part calls) (exclusive : part.exclusive = true) (some_ : calls ≠ []) :
    (radioParts (before ++ calls ++ [.unlocked])).getLast? = some part := by
  have all : .unlocked ∉ before ++ calls := by
    simp only [List.mem_append, not_or]
    exact ⟨held, inPart_held inPart⟩
  rw [radioParts_append _ _ all, radioParts_append _ _ held, radioParts_inPart part calls inPart
    exclusive]
  simp [radioParts, List.getLast?_append, List.getLast?_replicate, some_]

/-- No step that takes the radio down and no look at its state. -/
def Calm (trace : Trace) : Prop :=
  ∀ part c answer, .called part c answer ∈ trace → part ≠ .state ∧ Command.takesDown c = false

theorem Calm.append {first second : Trace} (calm : Calm first) (more : Calm second) :
    Calm (first ++ second) := fun part c answer member =>
  (List.mem_append.mp member).elim (calm part c answer) (more part c answer)

theorem calm_operation {e : Event Part Command}
    (operation : ∀ part c answer, e ≠ .called part c answer) : Calm [e] :=
  fun part c answer member => absurd (List.mem_singleton.mp member).symm (operation part c answer)

theorem Calm.not_takenDown {trace : Trace} (calm : Calm trace) : ¬TakenDown trace := by
  rintro ⟨part, c, answer, member, down⟩
  rw [(calm part c answer member).2] at down
  cases down

/-- What a call does before it touches the radio, with the mutex or without it. -/
structure Opening (trace : Trace) : Prop where
  calm : Calm trace
  held : .unlocked ∉ trace

namespace Opening
variable {before trace : Trace}

theorem nil : Opening [] :=
  ⟨fun _ _ _ member => absurd member List.not_mem_nil, List.not_mem_nil⟩

theorem locked : Opening [.locked] := ⟨calm_operation (by simp), by simp⟩

theorem append (opening : Opening before) (more : Opening trace) : Opening (before ++ trace) :=
  ⟨opening.calm.append more.calm, fun member =>
    (List.mem_append.mp member).elim opening.held more.held⟩

theorem within {R : Type} {part : Part} {p : Calls R} {r : R} (other : part ≠ .state)
    (harmless : p.Calls fun c => Command.takesDown c = false)
    (path : (Prog.within part p).Reaches trace (.ret r)) : Opening trace := by
  refine ⟨fun part' c answer member => ?_, inPart_held (returns_within path).1⟩
  obtain ⟨c', answer', same⟩ := (returns_within path).1 _ member
  cases same
  exact ⟨other, calls_within harmless path _ _ _ member⟩

theorem chooseNetwork {given found : Bool}
    (path : (chooseNetwork given).Reaches trace (.ret found)) : Opening trace := by
  cases given with
  | true =>
      obtain ⟨rfl, -⟩ := reaches_ret path
      exact nil
  | false => exact within (by decide) ((calls_run _).mpr rfl) path

theorem rk3566Ready {ready : Bool}
    (path : (Rk3566.waitForSystemReady .iwScan).Reaches trace (.ret ready)) : Opening trace := by
  obtain ⟨waited, trace, present, rfl, wait, waits⟩ := returns_bind path
  have opening := within (by decide) (calls_poll _ _ rfl) wait
  cases present with
  | false =>
      obtain ⟨rfl, -⟩ := reaches_ret waits
      simpa using opening
  | true =>
      obtain ⟨probed, trace, _, rfl, probe, probes⟩ := returns_bind waits
      obtain ⟨looked, trace, _, rfl, look, looks⟩ := returns_bind probes
      obtain ⟨rfl, -⟩ := reaches_ret looks
      have rest := (within (by decide) (calls_poll _ _ rfl) probe).append
        (within (by decide) ((calls_run _).mpr rfl) look)
      simpa using opening.append rest

theorem a733Ready {ready : Bool}
    (path : (Prog.within .setup A733.waitForSystemReady).Reaches trace (.ret ready)) :
    Opening trace := by
  refine within (by decide) ?_ path
  refine calls_bind _ _ ((calls_run _).mpr rfl) fun _ => calls_ite _ _ _ (calls_pure _) ?_
  refine calls_bind _ _ ((calls_run _).mpr rfl) fun _ => calls_ite _ _ _ (calls_pure _) ?_
  refine calls_bind _ _ (calls_poll _ _ rfl) fun _ => calls_ite _ _ _ (calls_pure _) ?_
  exact calls_bind _ _ ((calls_each _).mpr (by decide)) fun _ => calls_pure _

theorem left (opening : Opening before) : Calm (before ++ [.unlocked]) :=
  opening.calm.append (calm_operation (by simp))

end Opening

theorem returns_unlockWith {R : Type} {r r' : R} {trace : Trace}
    (path : (unlockWith r).Reaches trace (.ret r')) : trace = [.unlocked] ∧ r' = r := by
  cases trace with
  | nil => cases reaches_nil path
  | cons e trace =>
      obtain ⟨p', happens, rest⟩ := reaches_cons path
      cases e with
      | unlocked =>
          cases happens
          obtain ⟨rfl, same⟩ := reaches_ret rest
          cases same
          exact ⟨rfl, rfl⟩
      | called part c answer | locked | refused => cases happens

/-- A call on the RK3566 that got as far as the join: what it did before it looked for
`hostapd`, the priming AP, the join, and what it did about the outcome. -/
structure Joined (before : Trace) (up : Bool) (primed join after : Trace)
    (st : WifiSwitchStatus) : Prop where
  opening : Opening before
  primes : InPart .apBringUp primed
  joins : InPart .staJoin join
  kills : ∃ answer rest, join = .called .staJoin .killallWpaSupplicant answer :: rest
  settles : if st = .ok then InPart .setup after
    else if up then InPart .apBringUp after ∧ after ≠ [] else after = []

def joinedTrace (before : Trace) (up : Bool) (primed join after : Trace) : Trace :=
  before ++ .called .state .pidofHostapd up :: (primed ++ (join ++ (after ++ [.unlocked])))

inductive Rk3566Path : Trace → WifiSwitchStatus → Prop where
  | early {trace : Trace} {st : WifiSwitchStatus} (calm : Calm trace) : Rk3566Path trace st
  | joined {before primed join after : Trace} {up : Bool} {st : WifiSwitchStatus}
      (went : Joined before up primed join after st) :
      Rk3566Path (joinedTrace before up primed join after) st

namespace Joined
variable {before primed join after : Trace} {up : Bool} {st : WifiSwitchStatus}

theorem takenDown (went : Joined before up primed join after st) :
    TakenDown (joinedTrace before up primed join after) := by
  obtain ⟨answer, rest, rfl⟩ := went.kills
  exact ⟨.staJoin, .killallWpaSupplicant, answer, by simp [joinedTrace], rfl⟩

theorem asked_iff (went : Joined before up primed join after st) :
    .called .state .pidofHostapd false ∈ joinedTrace before up primed join after ↔
      up = false := by
  have inBefore : .called .state .pidofHostapd false ∉ before := fun member =>
    (went.opening.calm _ _ _ member).1 rfl
  have inAfter : .called .state .pidofHostapd false ∉ after := by
    have settles := went.settles
    split_ifs at settles
    · exact inPart_other settles (by decide) _ _
    · exact inPart_other settles.1 (by decide) _ _
    · simp [settles]
  have inPrimed : .called .state .pidofHostapd false ∉ primed :=
    inPart_other went.primes (by decide) _ _
  have inJoin : .called .state .pidofHostapd false ∉ join :=
    inPart_other went.joins (by decide) _ _
  simp [joinedTrace, inBefore, inPrimed, inJoin, inAfter, eq_comm]

/-- After a failed join the last radio action is the AP's if it was up, else the join's. -/
theorem last_failed (went : Joined before up primed join after st) (failed : st ≠ .ok) :
    (radioParts (joinedTrace before up primed join after)).getLast? =
      some (if up then .apBringUp else .staJoin) := by
  have held : .unlocked ∉ before ++ .called .state .pidofHostapd up :: primed := by
    simp only [List.mem_append, List.mem_cons, not_or, reduceCtorEq, not_false_eq_true, true_and]
    exact ⟨went.opening.held, inPart_held went.primes⟩
  have settles := went.settles
  rw [if_neg failed] at settles
  cases up with
  | false =>
      obtain ⟨answer, rest, begins⟩ := went.kills
      have last := getLast_radioParts _ join .staJoin held went.joins rfl (by simp [begins])
      obtain rfl := settles
      simpa [joinedTrace] using last
  | true =>
      have heldJoin : .unlocked ∉ before ++ .called .state .pidofHostapd true :: primed ++ join := by
        rw [List.mem_append, not_or]
        exact ⟨held, inPart_held went.joins⟩
      have last := getLast_radioParts _ after .apBringUp heldJoin settles.1 rfl settles.2
      simpa [joinedTrace] using last

end Joined

theorem enterApMode_path {trace : Trace} {up : Bool}
    (path : (within .apBringUp Rk3566.enterApMode).Reaches trace (.ret up)) :
    InPart .apBringUp trace ∧ trace ≠ [] := by
  refine ⟨(returns_within path).1, ?_⟩
  obtain ⟨answer, rest, rfl⟩ := returns_within_call path
  exact List.cons_ne_nil _ _

theorem tryStaOnly_path {trace : Trace} {st : WifiSwitchStatus}
    (path : (within .staJoin Rk3566.tryStaOnly).Reaches trace (.ret st)) :
    InPart .staJoin trace ∧
      ∃ answer rest, trace = .called .staJoin .killallWpaSupplicant answer :: rest :=
  ⟨(returns_within path).1, returns_within_call path⟩

theorem rk3566_joinNow_path {up : Bool} {trace : Trace} {st : WifiSwitchStatus}
    (path : (Rk3566.joinNow up).Reaches trace (.ret st)) :
    ∃ primed join, trace = primed ++ join ∧ InPart .apBringUp primed ∧ InPart .staJoin join ∧
      ∃ answer rest, join = .called .staJoin .killallWpaSupplicant answer :: rest := by
  cases up with
  | true =>
      obtain ⟨joins, kills⟩ := tryStaOnly_path path
      exact ⟨[], trace, rfl, fun _ member => absurd member List.not_mem_nil, joins, kills⟩
  | false =>
      obtain ⟨primed, join, warmed, rfl, primes, path⟩ := returns_bind path
      obtain ⟨joins, kills⟩ := tryStaOnly_path path
      exact ⟨primed, join, rfl, (enterApMode_path primes).1, joins, kills⟩

theorem rk3566_settle_path {up done : Bool} {trace : Trace} {st : WifiSwitchStatus}
    (path : (Rk3566.settle up st).Reaches trace (.ret done)) :
    if st = .ok then InPart .setup trace
      else if up then InPart .apBringUp trace ∧ trace ≠ [] else trace = [] := by
  unfold Rk3566.settle at path
  split_ifs at path ⊢
  · exact (returns_within path).1
  · exact enterApMode_path path
  · exact (reaches_ret path).1

theorem rk3566_runNowHeld_path {given : Bool} {before trace : Trace} {st : WifiSwitchStatus}
    (opening : Opening before) (path : (Rk3566.runNowHeld given).Reaches trace (.ret st)) :
    Rk3566Path (before ++ trace) st := by
  obtain ⟨chosen, trace, found, rfl, choice, chose⟩ := returns_bind path
  have opening := opening.append (.chooseNetwork choice)
  rw [← List.append_assoc]
  cases found with
  | false =>
      obtain ⟨rfl, rfl⟩ := returns_unlockWith chose
      exact .early opening.left
  | true =>
      obtain ⟨waited, trace, ready, rfl, wait, waits⟩ := returns_bind chose
      have opening := opening.append (.rk3566Ready wait)
      rw [← List.append_assoc]
      cases ready with
      | false =>
          obtain ⟨rfl, rfl⟩ := returns_unlockWith waits
          exact .early opening.left
      | true =>
          obtain ⟨disabled, trace, _, rfl, disable, disables⟩ := returns_bind waits
          have opening := opening.append
            (.within (by decide) ((calls_each _).mpr (by decide)) disable)
          obtain ⟨looked, trace, up, rfl, look, looks⟩ := returns_bind disables
          obtain ⟨joined, trace, st', rfl, join, joins⟩ := returns_bind looks
          obtain ⟨settled, trace, done, rfl, settle, settles⟩ := returns_bind joins
          obtain ⟨rfl, rfl⟩ := returns_unlockWith settles
          obtain ⟨primed, join, rfl, primes, joins, kills⟩ := rk3566_joinNow_path join
          have shape := Rk3566Path.joined ⟨opening, primes, joins, kills,
            rk3566_settle_path settle⟩
          rw [returns_run look]
          simpa [joinedTrace] using shape

theorem rk3566_runNow_path {given : Bool} {trace : Trace} {st : WifiSwitchStatus}
    (path : (Rk3566.runNow given).Reaches trace (.ret st)) : Rk3566Path trace st := by
  have moved : trace ≠ [] := by
    rintro rfl
    cases reaches_nil path
  rcases reaches_tryLock path moved with ⟨rest, rfl, held⟩ | ⟨rest, rfl, busy⟩
  · exact rk3566_runNowHeld_path .locked held
  · obtain ⟨rfl, -⟩ := reaches_ret busy
    exact .early (calm_operation (by simp))

theorem JoinFailed.ne_ok {st : WifiSwitchStatus} (failed : JoinFailed st) : st ≠ .ok := by
  rintro rfl
  simp [JoinFailed] at failed

theorem rk3566_fallsBack_iff {trace : Trace} {st : WifiSwitchStatus} (path : Rk3566Path trace st) :
    FallsBack trace st ↔ ¬(.called .state .pidofHostapd false ∈ trace ∧ JoinFailed st) := by
  cases path with
  | early calm =>
      refine iff_of_true (fun _ down => absurd down calm.not_takenDown) fun both => ?_
      exact (calm _ _ _ both.1).1 rfl
  | @joined before primed join after up _ went =>
      rw [went.asked_iff]
      constructor
      · rintro falls ⟨rfl, failed⟩
        have last := falls failed went.takenDown
        rw [went.last_failed failed.ne_ok] at last
        cases last
      · intro fine failed _
        have wasUp : up = true := by
          cases up with
          | true => rfl
          | false => exact absurd ⟨rfl, failed⟩ fine
        rw [went.last_failed failed.ne_ok, wasUp]
        rfl

/-- On the A733 every join that does not end well is followed by the hotspot. -/
inductive A733Path : Trace → WifiSwitchStatus → Prop where
  | early {trace : Trace} {st : WifiSwitchStatus} (calm : Calm trace) : A733Path trace st
  | joined {before after : Trace} {st : WifiSwitchStatus} (held : .unlocked ∉ before)
      (settles : st ≠ .ok → InPart .apBringUp after ∧ after ≠ []) :
      A733Path (before ++ after ++ [.unlocked]) st

theorem a733_settle_path {trace : Trace} {st : WifiSwitchStatus} {done : Unit} (failed : st ≠ .ok)
    (path : (A733.settle st).Reaches trace (.ret done)) :
    InPart .apBringUp trace ∧ trace ≠ [] := by
  rw [A733.settle, if_neg failed] at path
  obtain ⟨first, second, st', rfl, restore, rest⟩ := returns_bind path
  obtain ⟨rfl, -⟩ := reaches_ret rest
  rw [List.append_nil]
  refine ⟨(returns_within restore).1, ?_⟩
  obtain ⟨answer, rest, rfl⟩ := returns_within_call restore
  exact List.cons_ne_nil _ _

theorem a733_runNowHeld_path {given : Bool} {before trace : Trace} {st : WifiSwitchStatus}
    (opening : Opening before) (path : (A733.runNowHeld given).Reaches trace (.ret st)) :
    A733Path (before ++ trace) st := by
  obtain ⟨chosen, trace, found, rfl, choice, chose⟩ := returns_bind path
  have opening := opening.append (.chooseNetwork choice)
  rw [← List.append_assoc]
  cases found with
  | false =>
      obtain ⟨rfl, rfl⟩ := returns_unlockWith chose
      exact .early opening.left
  | true =>
      obtain ⟨waited, trace, ready, rfl, wait, waits⟩ := returns_bind chose
      have opening := opening.append (.a733Ready wait)
      rw [← List.append_assoc]
      cases ready with
      | false =>
          obtain ⟨rfl, rfl⟩ := returns_unlockWith waits
          exact .early opening.left
      | true =>
          obtain ⟨quoted, trace, fits, rfl, quote, quotes⟩ := returns_bind waits
          have opening := opening.append (.within (by decide) ((calls_run _).mpr rfl) quote)
          rw [← List.append_assoc]
          cases fits with
          | false =>
              obtain ⟨rfl, rfl⟩ := returns_unlockWith quotes
              exact .early opening.left
          | true =>
              obtain ⟨joined, trace, st', rfl, join, joins⟩ := returns_bind quotes
              obtain ⟨settled, trace, done, rfl, settle, settles⟩ := returns_bind joins
              obtain ⟨rfl, rfl⟩ := returns_unlockWith settles
              have held : .unlocked ∉ before ++ chosen ++ waited ++ quoted ++ joined := by
                rw [List.mem_append, not_or]
                exact ⟨opening.held, inPart_held (returns_within join).1⟩
              rw [← List.append_assoc, ← List.append_assoc]
              exact .joined held fun failed => a733_settle_path failed settle

theorem a733_runNow_path {given : Bool} {trace : Trace} {st : WifiSwitchStatus}
    (path : (A733.runNow given).Reaches trace (.ret st)) : A733Path trace st := by
  obtain ⟨checked, trace, root, rfl, check, checks⟩ := returns_bind path
  have opening : Opening checked := .within (by decide) ((calls_run _).mpr rfl) check
  cases root with
  | false =>
      obtain ⟨rfl, -⟩ := reaches_ret checks
      rw [List.append_nil]
      exact .early opening.calm
  | true =>
      have moved : trace ≠ [] := by
        rintro rfl
        cases reaches_nil checks
      rcases reaches_tryLock checks moved with ⟨rest, rfl, held⟩ | ⟨rest, rfl, busy⟩
      · rw [List.append_cons]
        exact a733_runNowHeld_path (opening.append .locked) held
      · obtain ⟨rfl, -⟩ := reaches_ret busy
        exact .early (opening.calm.append (calm_operation (by simp)))

theorem a733_fallsBack {trace : Trace} {st : WifiSwitchStatus} (path : A733Path trace st) :
    FallsBack trace st := by
  intro failed down
  cases path with
  | early calm => exact absurd down calm.not_takenDown
  | joined held settles =>
      obtain ⟨restores, acts⟩ := settles failed.ne_ok
      exact getLast_radioParts _ _ .apBringUp held restores rfl acts

theorem runNow_fallsBack_iff (backend : Backend) (given : Bool) (ls : List SwitchLabel)
    (s : SwitchState) (i : Nat) (t : Thread Entry Part Command Outcome) (st : WifiSwitchStatus)
    (reached : exec (step (program backend)) .initial ls = some s)
    (thread : s.threads i = some t) (entry : t.entry = .runNow given)
    (returned : t.prog = .ret (.status st)) :
    FallsBack t.trace st ↔
      backend = .a733 ∨ .called .state .pidofHostapd false ∉ t.trace ∨ ¬JoinFailed st := by
  have path := trace_replays (program_safe backend) ls reached i t thread
  rw [entry, returned] at path
  cases backend with
  | rk3566 =>
      obtain ⟨st', path, same⟩ := returns_map path
      cases same
      rw [rk3566_fallsBack_iff (rk3566_runNow_path path), not_and_or]
      simp only [reduceCtorEq, false_or]
  | a733 =>
      obtain ⟨st', path, same⟩ := returns_map path
      cases same
      exact iff_of_true (a733_fallsBack (a733_runNow_path path)) (.inl rfl)

def calls (part : Part) (cs : List Command) : Trace := cs.map fun c => .called part c true

def apTrace : Trace :=
  calls .apBringUp [.readBandConf, .killallWpaSupplicant, .killallHostapd, .killallDnsmasq,
    .ipAddrFlush, .ipLinkUp, .ipAddrFlush, .ipAddrAdd, .writeHostapdConf, .killallHostapd,
    .killallDnsmasq, .startHostapd, .pidofHostapd, .startDnsmasq]

def readyTrace : Trace :=
  .locked :: .called .setup .accessIface true :: .called .iwScan .iwScanTrigger true ::
    calls .setup [.hostapdUptime, .writeDisableIpv6, .writeDisableIpv6, .writeDisableIpv6]

def killTrace : Trace :=
  calls .staJoin [.killallWpaSupplicant, .killallDnsmasq, .killallHostapd, .ipAddrFlush]

def restoredTrace : Trace :=
  readyTrace ++ [.called .state .pidofHostapd true] ++ killTrace ++
    [.called .staJoin .ipLinkUp false] ++ apTrace ++ [.unlocked]

def unseenTrace : Trace :=
  readyTrace ++ [.called .state .pidofHostapd false] ++ apTrace ++ killTrace ++
    calls .staJoin [.ipLinkUp, .iwRegSet, .iwRegGet, .malloc, .iwSetManaged, .iwScanTrigger] ++
    List.replicate 6 (.called .staJoin .iwScan false) ++ [.unlocked]

def callAlone (trace : Trace) : List SwitchLabel :=
  .start 1 (.runNow true) :: trace.map (.event 1)

theorem runNow_fallsBack_iff_restored :
    ∃ s t, exec (step (program .rk3566)) .initial (callAlone restoredTrace) = some s ∧
      s.threads 1 = some t ∧ t.prog = .ret (.status .errConnectFail) ∧
      FallsBack t.trace .errConnectFail := by
  have ends : ∃ s, exec (step (program .rk3566)) .initial (callAlone restoredTrace) = some s ∧
      s.threads 1 = some ⟨.runNow true, .ret (.status .errConnectFail), restoredTrace⟩ :=
    ⟨_, rfl, rfl⟩
  obtain ⟨s, reached, thread⟩ := ends
  refine ⟨s, _, reached, thread, rfl, ?_⟩
  exact (runNow_fallsBack_iff .rk3566 true _ s 1 _ _ reached thread rfl rfl).mpr
    (.inr (.inl (by decide)))

theorem runNow_unseen_leaves_no_ap :
    ∃ s t, exec (step (program .rk3566)) .initial (callAlone unseenTrace) = some s ∧
      s.threads 1 = some t ∧ t.entry = .runNow true ∧ t.prog = .ret (.status .errNoSsid) ∧
      TakenDown t.trace ∧ (radioParts t.trace).getLast? = some .staJoin ∧
      ¬FallsBack t.trace .errNoSsid := by
  have ends : ∃ s, exec (step (program .rk3566)) .initial (callAlone unseenTrace) = some s ∧
      s.threads 1 = some ⟨.runNow true, .ret (.status .errNoSsid), unseenTrace⟩ :=
    ⟨_, rfl, rfl⟩
  obtain ⟨s, reached, thread⟩ := ends
  have down : TakenDown unseenTrace := ⟨.staJoin, .killallWpaSupplicant, true, by decide, rfl⟩
  have last : (radioParts unseenTrace).getLast? = some .staJoin := by decide
  refine ⟨s, _, reached, thread, rfl, rfl, down, last, fun falls => ?_⟩
  have claimed := falls (.inl rfl) down
  rw [last] at claimed
  cases claimed

end WfyApp.JoinFallback
