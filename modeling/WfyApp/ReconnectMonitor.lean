import WfyApp.SwitchMutex

/-! The reconnect monitor against the commands of clients. A round of the monitor looks
at the radio, may count a second miss, and only then takes the mutex (RK3566) or calls
`wifi_switch_run_now` (A733) and takes the radio down. The threads of the switching code
run over a state of the radio that their commands change, and that may change by itself
at any time. -/

namespace WfyApp.ReconnectMonitor
open ProtoDispatch HomeWifi LockPrograms LockPrograms.Script LockPrograms.Prog StepSystem
open SwitchPrograms SwitchMutex

structure Radio where
  ap : Bool
  ipv4 : Bool
  link : Bool
deriving DecidableEq, Repr

def Radio.off : Radio := ⟨false, false, false⟩

/-- What `wifi_switch_is_connected` of the backend is meant to find out. -/
def Radio.connected (r : Radio) : Backend → Bool
  | .rk3566 => r.ipv4 && r.link
  | .a733 => !r.ap && r.ipv4

def Radio.shows (r : Radio) : Command → Bool
  | .pidofHostapd | .nmcliShowActive => r.ap
  | .ipAddrShow => r.ipv4
  | .iwLink => r.link
  | _ => false

/-- What a command with the given outcome does to the radio. -/
def Radio.after (r : Radio) : Command → Bool → Radio
  | .killallHostapd, _ => { r with ap := false }
  | .killallWpaSupplicant, _ => { r with link := false }
  | .ipAddrFlush, _ => { r with ipv4 := false }
  | .ipLinkDown, _ => { r with ap := false, link := false }
  | .startHostapd, true => { r with ap := true }
  | .ipAddrAdd, true => { r with ipv4 := true }
  | .udhcpc, true => { r with ipv4 := true }
  | .nmcliDownAp, _ => { r with ap := false }
  | .nmcliDownSta, _ => ⟨r.ap, false, false⟩
  | .nmcliDeleteSta, _ => ⟨r.ap, false, false⟩
  | .nmcliHotspot, true => ⟨true, true, false⟩
  | .nmcliUpAp, true => ⟨true, true, false⟩
  | .nmcliConnect, true => ⟨false, true, true⟩
  | .nmcliUpSta, true => ⟨false, true, true⟩
  | _, _ => r

structure MonitorState where
  switch : SwitchState
  radio : Radio

inductive MonitorLabel where
  | switch (l : SwitchLabel)
  | drift (r : Radio)

def MonitorState.initial (r : Radio) : MonitorState := ⟨.initial, r⟩

def Radio.afterLabel (r : Radio) : MonitorLabel → Radio
  | .switch (.event _ (.called _ c answer)) => r.after c answer
  | .switch _ => r
  | .drift r' => r'

def step (backend : Backend) (s : MonitorState) : MonitorLabel → Option MonitorState
  | .switch l => (LockPrograms.step (program backend) s.switch l).map fun switch =>
      ⟨switch, s.radio.afterLabel (.switch l)⟩
  | .drift r => some ⟨s.switch, r⟩

abbrev SwitchThread := Thread Entry Part Command Outcome

def IsRound (t : SwitchThread) : Prop := ∃ misses, t.entry = .reconnectRound misses

def Unstarted (trace : List (Event Part Command)) : Prop :=
  ∀ part c answer, .called part c answer ∈ trace → part.exclusive = false

def teardownPart : Backend → Part
  | .rk3566 => .radioRecovery
  | .a733 => .staJoin

def TearsDown (backend : Backend) (s : MonitorState) (i : Nat) : Prop :=
  ∃ t c more, s.switch.threads i = some t ∧ IsRound t ∧ Unstarted t.trace ∧
    t.prog = .call (teardownPart backend) c more

def Radio.Down (r : Radio) (backend : Backend) : Prop :=
  r.ap = false ∧ r.connected backend = false

structure Pending (t : SwitchThread) : Prop where
  round : IsRound t
  running : ∀ r, t.prog ≠ .ret r
  unstarted : Unstarted t.trace

/-- A pending round that has looked at the radio and found something missing. -/
structure Watching (t : SwitchThread) : Prop extends Pending t where
  missed : ∃ c, .called .state c false ∈ t.trace

def NoRise (backend : Backend) (r r' : Radio) : Prop :=
  (r'.ap = true → r.ap = true) ∧ (r'.connected backend = true → r.connected backend = true)

/-- A step that cannot make a round act on what is no longer so: nothing comes up while a
round watches, a round's queries say that something is missing only if it is, and on the
A733 a round uses the stored network only if it saw that no AP was active. -/
structure Careful (backend : Backend) (s : MonitorState) (l : MonitorLabel) : Prop where
  steady : ∀ i t, s.switch.threads i = some t → Watching t →
    NoRise backend s.radio (s.radio.afterLabel l)
  truthful : ∀ i t c, l = .switch (.event i (.called .state c false)) →
    s.switch.threads i = some t → IsRound t → s.radio.shows c = false
  noticed : backend = .a733 → ∀ i t,
    l = .switch (.event i (.called .storage .readHomeWifi true)) →
    s.switch.threads i = some t → IsRound t → .called .state .nmcliShowActive false ∈ t.trace

def apQuery : Backend → Command
  | .rk3566 => .pidofHostapd
  | .a733 => .nmcliShowActive

def staQuery : Backend → Command → Bool
  | .rk3566, c => c == .ipAddrShow || c == .iwLink
  | .a733, c => c == .ipAddrShow

/-- What a round has seen to be missing still is. -/
structure RoundInv (backend : Backend) (r : Radio) (trace : List (Event Part Command)) : Prop where
  ap : .called .state (apQuery backend) false ∈ trace → r.ap = false
  sta : ∀ c, staQuery backend c = true → .called .state c false ∈ trace →
    r.connected backend = false
  noticed : backend = .a733 → .called .storage .readHomeWifi true ∈ trace →
    .called .state .nmcliShowActive false ∈ trace

theorem RoundInv.keep {backend : Backend} {r r' : Radio} {trace : List (Event Part Command)}
    (inv : RoundInv backend r trace)
    (steady : (∃ c, .called .state c false ∈ trace) → NoRise backend r r') :
    RoundInv backend r' trace := by
  refine ⟨fun member => ?_, fun c query member => ?_, inv.noticed⟩
  · have before := inv.ap member
    have rise := (steady ⟨_, member⟩).1
    rw [before] at rise
    simpa using rise
  · have before := inv.sta c query member
    have rise := (steady ⟨c, member⟩).2
    rw [before] at rise
    simpa using rise

theorem afterLabel_query {backend : Backend} {r : Radio} {i : Nat} {part : Part} {c : Command}
    {answer : Bool} (query : c = apQuery backend ∨ staQuery backend c = true) :
    r.afterLabel (.switch (.event i (.called part c answer))) = r := by
  have known : c = .pidofHostapd ∨ c = .nmcliShowActive ∨ c = .ipAddrShow ∨ c = .iwLink := by
    cases backend <;> simp [apQuery, staQuery] at query <;> tauto
  rcases known with rfl | rfl | rfl | rfl <;> rfl

theorem shows_apQuery (backend : Backend) (r : Radio) : r.shows (apQuery backend) = r.ap := by
  cases backend <;> rfl

theorem connected_of_shows {backend : Backend} {r : Radio} {c : Command}
    (query : staQuery backend c = true) (missing : r.shows c = false) :
    r.connected backend = false := by
  cases backend with
  | rk3566 =>
      simp only [staQuery, Bool.or_eq_true, beq_iff_eq] at query
      rcases query with rfl | rfl
      · simp only [Radio.shows] at missing
        simp [Radio.connected, missing]
      · simp only [Radio.shows] at missing
        simp [Radio.connected, missing]
  | a733 =>
      simp only [staQuery, beq_iff_eq] at query
      subst query
      simp only [Radio.shows] at missing
      simp [Radio.connected, missing]

theorem RoundInv.event {backend : Backend} {s : MonitorState} {i : Nat} {t : SwitchThread}
    {e : Event Part Command} (careful : Careful backend s (.switch (.event i e)))
    (thread : s.switch.threads i = some t) (round : IsRound t)
    (inv : RoundInv backend (s.radio.afterLabel (.switch (.event i e))) t.trace) :
    RoundInv backend (s.radio.afterLabel (.switch (.event i e))) (t.trace ++ [e]) := by
  refine ⟨fun member => ?_, fun c query member => ?_, fun a733 member => ?_⟩
  · rcases List.mem_append.mp member with before | last
    · exact inv.ap before
    · obtain rfl := (List.mem_singleton.mp last).symm
      rw [afterLabel_query (.inl rfl), ← shows_apQuery backend]
      exact careful.truthful i t _ rfl thread round
  · rcases List.mem_append.mp member with before | last
    · exact inv.sta c query before
    · obtain rfl := (List.mem_singleton.mp last).symm
      rw [afterLabel_query (.inr query)]
      exact connected_of_shows query (careful.truthful i t _ rfl thread round)
  · refine List.mem_append_left _ ?_
    rcases List.mem_append.mp member with before | last
    · exact inv.noticed a733 before
    · obtain rfl := (List.mem_singleton.mp last).symm
      exact careful.noticed a733 i t rfl thread round

structure Inv (backend : Backend) (s : MonitorState) : Prop where
  mutex : LockPrograms.Inv Guarded Refuses (program backend) s.switch
  rounds : ∀ i t, s.switch.threads i = some t → Pending t → RoundInv backend s.radio t.trace

theorem inv_initial (backend : Backend) (r : Radio) : Inv backend (.initial r) :=
  ⟨LockPrograms.inv_initial, fun _ _ absent => by cases absent⟩

theorem RoundInv.steady {backend : Backend} {s : MonitorState} {l : MonitorLabel} {i : Nat}
    {t : SwitchThread} (careful : Careful backend s l) (inv : Inv backend s)
    (thread : s.switch.threads i = some t) (pending : Pending t) :
    RoundInv backend (s.radio.afterLabel l) t.trace :=
  (inv.rounds i t thread pending).keep fun missed =>
    careful.steady i t thread ⟨pending, missed⟩

theorem inv_step (backend : Backend) (s s' : MonitorState) (l : MonitorLabel)
    (careful : Careful backend s l) (inv : Inv backend s) (moved : step backend s l = some s') :
    Inv backend s' := by
  cases l with
  | drift r =>
      cases moved
      exact ⟨inv.mutex, fun i t thread pending => .steady careful inv thread pending⟩
  | switch l =>
      obtain ⟨switch, threads, rfl⟩ := Option.map_eq_some_iff.mp moved
      refine ⟨LockPrograms.inv_step (program_safe backend) l inv.mutex threads,
        fun j t' thread' pending => ?_⟩
      rcases step_thread threads thread' with thread | ⟨k, rfl, rfl⟩ |
        ⟨e, t, p, rfl, thread, happens, rfl⟩
      · exact .steady careful inv thread pending
      · exact ⟨fun member => absurd member List.not_mem_nil,
          fun _ _ member => absurd member List.not_mem_nil,
          fun _ member => absurd member List.not_mem_nil⟩
      · have before : Pending t := by
          refine ⟨pending.round, fun r returned => ?_, fun part c answer member =>
            pending.unstarted part c answer (List.mem_append_left _ member)⟩
          rw [returned] at happens
          cases e <;> cases happens
        exact RoundInv.event careful thread pending.round (.steady careful inv thread before)

theorem rk3566_isConnected_path {trace : List (Event Part Command)}
    (path : (within .state Rk3566.isConnected).Reaches trace (.ret false)) :
    ∃ c, staQuery .rk3566 c = true ∧ .called .state c false ∈ trace := by
  rw [Rk3566.isConnected, within_bind] at path
  obtain ⟨first, second, shown, rfl, address, rest⟩ := returns_bind path
  rw [returns_run address]
  cases shown with
  | false => exact ⟨.ipAddrShow, rfl, by simp⟩
  | true =>
      obtain rfl := returns_run rest
      exact ⟨.iwLink, rfl, by simp⟩

theorem a733_isConnected_path {trace : List (Event Part Command)}
    (path : (within .state A733.isConnected).Reaches trace (.ret false)) :
    trace = [.called .state .nmcliShowActive true] ∨
      trace = [.called .state .nmcliShowActive false, .called .state .ipAddrShow false] := by
  rw [A733.isConnected, within_bind] at path
  obtain ⟨first, second, active, rfl, look, rest⟩ := returns_bind path
  rw [returns_run look]
  cases active with
  | true =>
      obtain ⟨rfl, -⟩ := reaches_ret rest
      exact .inl rfl
  | false =>
      obtain rfl := returns_run rest
      exact .inr rfl

/-- A round of the RK3566 that is about to reset the radio has seen no AP and no
connection. -/
theorem rk3566_sampled {misses : Nat} {trace : List (Event Part Command)} {c : Command}
    {more : Bool → Program Outcome}
    (path : (program .rk3566 (.reconnectRound misses)).Reaches trace
      (.call .radioRecovery c more)) :
    .called .state .pidofHostapd false ∈ trace ∧
      ∃ c, staQuery .rk3566 c = true ∧ .called .state c false ∈ trace := by
  obtain ⟨more, path⟩ := reaches_map_call path
  obtain ⟨looked, trace, up, rfl, look, afterLook⟩ := reaches_past path (by decide)
  rw [returns_run look]
  cases up with
  | true => cases (reaches_ret afterLook).2
  | false =>
      obtain ⟨asked, trace, connected, rfl, ask, afterAsk⟩ := reaches_past afterLook (by decide)
      cases connected with
      | true => cases (reaches_ret afterAsk).2
      | false =>
          obtain ⟨c, query, member⟩ := rk3566_isConnected_path ask
          exact ⟨by simp, c, query, by simp [member]⟩

theorem a733_ensureApMode_admits :
    A733.ensureApMode.Admits fun part _ => part ≠ .staJoin := by
  refine admits_bind _ _ (admits_within _ _ (by simp)) fun _ => admits_ite _ _ _ trivial ⟨?_, trivial⟩
  refine admits_bind _ _ (admits_within _ _ (by simp)) fun _ => admits_ite _ _ _ trivial ?_
  exact admits_bind _ _ (admits_within _ _ (by simp)) fun _ => trivial

theorem a733_restore_admits :
    (do let active ← within .state A733.nmConnectionActive
        if active then pure 0
        else do
          let _ ← A733.ensureApMode
          pure 0 : Program Nat).Admits fun part _ => part ≠ .staJoin := by
  refine admits_bind _ _ (admits_within _ _ (by simp)) fun _ => admits_ite _ _ _ trivial ?_
  exact admits_bind _ _ a733_ensureApMode_admits fun _ => trivial

theorem a733_runNow_admits (given : Bool) :
    (A733.runNow given).Admits fun part _ => part ≠ .state := by
  have settled : ∀ st, (A733.settle st).Admits fun part _ => part ≠ .state := by
    intro st
    unfold A733.settle
    split_ifs <;> exact admits_bind _ _ (admits_within _ _ (by simp)) fun _ => trivial
  have chosen : (chooseNetwork given).Admits fun part _ => part ≠ .state := by
    cases given
    · exact admits_within _ _ (by simp)
    · trivial
  refine admits_bind _ _ (admits_within _ _ (by simp)) fun _ => admits_ite _ _ _ trivial ⟨?_, trivial⟩
  refine admits_bind _ _ chosen fun _ => admits_ite _ _ _ trivial ?_
  refine admits_bind _ _ (admits_within _ _ (by simp)) fun _ => admits_ite _ _ _ trivial ?_
  refine admits_bind _ _ (admits_within _ _ (by simp)) fun _ => admits_ite _ _ _ trivial ?_
  refine admits_bind _ _ (admits_within _ _ (by simp)) fun st => ?_
  exact admits_bind _ _ (settled st) fun _ => trivial

theorem a733_rejoin_admits :
    (do let _ ← A733.runNow true
        pure 0 : Program Nat).Admits fun part _ => part ≠ .state :=
  admits_bind _ _ (a733_runNow_admits true) fun _ => trivial

/-- A round of the A733 that is about to take the radio down has found a stored network;
if it saw that no AP was active, it also saw that the interface had no address. -/
theorem a733_sampled {misses : Nat} {trace : List (Event Part Command)} {c : Command}
    {more : Bool → Program Outcome}
    (path : (program .a733 (.reconnectRound misses)).Reaches trace (.call .staJoin c more)) :
    .called .storage .readHomeWifi true ∈ trace ∧
      (.called .state .nmcliShowActive false ∈ trace → .called .state .ipAddrShow false ∈ trace) := by
  obtain ⟨more, path⟩ := reaches_map_call path
  obtain ⟨asked, trace, connected, rfl, ask, afterAsk⟩ := reaches_past path (by decide)
  cases connected with
  | true => cases (reaches_ret afterAsk).2
  | false =>
      by_cases few : misses + 1 < 2
      · simp only [Bool.false_eq_true, ↓reduceIte, few] at afterAsk
        cases (reaches_ret afterAsk).2
      · simp only [Bool.false_eq_true, ↓reduceIte, few] at afterAsk
        obtain ⟨read, trace, found, rfl, look, afterRead⟩ := reaches_past afterAsk (by decide)
        rw [returns_run look]
        cases found with
        | false =>
            simp only [Bool.false_eq_true, ↓reduceIte] at afterRead
            exact absurd rfl (admits_reaches a733_restore_admits afterRead).1.1
        | true =>
            have noState := (admits_reaches a733_rejoin_admits afterRead).2
            refine ⟨by simp, fun noticed => ?_⟩
            rcases a733_isConnected_path ask with rfl | rfl
            · have later : .called .state .nmcliShowActive false ∈ trace := by simpa using noticed
              exact absurd rfl (noState _ _ _ later)
            · simp

/-- Under the invariant a round takes down nothing that is up. -/
theorem tearsDown_down {backend : Backend} {s : MonitorState} {i : Nat} (inv : Inv backend s)
    (tears : TearsDown backend s i) : s.radio.Down backend := by
  obtain ⟨t, c, more, thread, round, unstarted, at_⟩ := tears
  have path := (inv.mutex.threads i t thread).replay
  have seen := inv.rounds i t thread ⟨round, by simp [at_], unstarted⟩
  obtain ⟨misses, entry⟩ := round
  rw [entry, at_] at path
  cases backend with
  | rk3566 =>
      obtain ⟨noAp, c, query, noSta⟩ := rk3566_sampled path
      exact ⟨seen.ap noAp, seen.sta c query noSta⟩
  | a733 =>
      obtain ⟨stored, noAddress⟩ := a733_sampled path
      have noAp := seen.noticed rfl stored
      exact ⟨seen.ap noAp, seen.sta .ipAddrShow rfl (noAddress noAp)⟩

theorem monitor_tears_down_nothing (backend : Backend) (r : Radio) (ls : List MonitorLabel)
    (s : MonitorState) (reached : exec (step backend) (.initial r) ls = some s)
    (meets : StepsMeet (step backend) (Careful backend) (.initial r) ls) (i : Nat)
    (tears : TearsDown backend s i) : s.radio.Down backend :=
  tearsDown_down
    (exec_of_stepsMeet (step backend) (Inv backend) (Careful backend)
      (fun s l s' careful inv moved => inv_step backend s s' l careful inv moved) ls _ s
      (inv_initial backend r) meets reached) tears

/-- Steps that do nothing to a radio that is off, taken on the RK3566, are careful. -/
theorem stepsMeet_off (ls : List SwitchLabel) (switch : SwitchState)
    (idle : ∀ l ∈ ls, Radio.off.afterLabel (.switch l) = .off) :
    StepsMeet (step .rk3566) (Careful .rk3566) ⟨switch, .off⟩ (ls.map .switch) := by
  induction ls generalizing switch with
  | nil => trivial
  | cons l ls ih =>
      have same := idle l (List.mem_cons_self ..)
      refine ⟨⟨fun i t _ _ => ?_, fun i t c _ _ _ => ?_, by simp⟩, fun next moved => ?_⟩
      · rw [same]
        exact ⟨id, id⟩
      · cases c <;> rfl
      · obtain ⟨switch', -, rfl⟩ := Option.map_eq_some_iff.mp moved
        rw [same]
        exact ih switch' fun l member => idle l (List.mem_cons_of_mem _ member)

def startsRound : SwitchLabel → Bool
  | .start _ (.reconnectRound _) => true
  | _ => false

def NoRounds (s : MonitorState) : Prop := ∀ i t, s.switch.threads i = some t → ¬IsRound t

theorem careful_of_noRounds {s : MonitorState} (none : NoRounds s) (l : MonitorLabel) :
    Careful .rk3566 s l :=
  ⟨fun i t thread watching => absurd watching.round (none i t thread),
    fun i t _ _ thread round => absurd round (none i t thread), by simp⟩

theorem stepsMeet_before (ls : List SwitchLabel) (rest : List MonitorLabel) (s : MonitorState)
    (calm : ∀ l ∈ ls, startsRound l = false) (none : NoRounds s)
    (later : ∀ s', NoRounds s' → StepsMeet (step .rk3566) (Careful .rk3566) s' rest) :
    StepsMeet (step .rk3566) (Careful .rk3566) s (ls.map .switch ++ rest) := by
  induction ls generalizing s with
  | nil => exact later s none
  | cons l ls ih =>
      refine ⟨careful_of_noRounds none _, fun next moved => ?_⟩
      obtain ⟨switch, threads, rfl⟩ := Option.map_eq_some_iff.mp moved
      refine ih _ (fun later member => calm later (List.mem_cons_of_mem l member)) ?_
      intro j t' thread' round
      rcases step_thread threads thread' with thread | ⟨k, rfl, rfl⟩ |
        ⟨e, t, p, rfl, thread, happens, rfl⟩
      · exact none j t' thread round
      · obtain ⟨misses, rfl⟩ := round
        have starts := calm _ List.mem_cons_self
        cases starts
      · exact none j t thread round

def eventsOf (i : Nat) (trace : List (Event Part Command)) : List SwitchLabel :=
  trace.map (.event i)

def outside : Event Part Command → Bool
  | .called part _ _ => !part.exclusive
  | _ => true

theorem unstarted_of_all {trace : List (Event Part Command)} (all : trace.all outside = true) :
    Unstarted trace := fun part c answer member => by
  simpa [outside] using List.all_eq_true.mp all _ member

def allWell (part : Part) (cs : List Command) : List (Event Part Command) :=
  cs.map fun c => .called part c true

def rk3566ToAp : List SwitchLabel :=
  .start 1 .ensureApMode :: eventsOf 1 ([.locked, .called .state .pidofHostapd false] ++
    allWell .setup [.accessIface] ++ allWell .iwScan [.iwScanTrigger] ++
    allWell .setup [.hostapdUptime, .writeDisableIpv6, .writeDisableIpv6, .writeDisableIpv6] ++
    allWell .apBringUp [.readBandConf, .killallWpaSupplicant, .killallHostapd, .killallDnsmasq,
      .ipAddrFlush, .ipLinkUp, .ipAddrFlush, .ipAddrAdd, .writeHostapdConf, .killallHostapd,
      .killallDnsmasq, .startHostapd, .pidofHostapd, .startDnsmasq] ++
    allWell .setup [.writeWifiReady, .iwSetPowerSave] ++ [.unlocked])

def rk3566Misses : List SwitchLabel :=
  .start 0 (.reconnectRound 0) :: eventsOf 0 [.called .state .pidofHostapd false,
    .called .state .ipAddrShow false] ++
  .start 0 (.reconnectRound 1) :: eventsOf 0 [.called .state .pidofHostapd false,
    .called .state .ipAddrShow false, .locked, .called .storage .readHomeWifi true]

/-- The AP that a command has brought up fails, and then the monitor comes. -/
def fallenAp : List MonitorLabel :=
  rk3566ToAp.map .switch ++ .drift .off :: rk3566Misses.map .switch

theorem fallenAp_careful :
    StepsMeet (step .rk3566) (Careful .rk3566) (.initial .off) fallenAp := by
  refine stepsMeet_before rk3566ToAp _ _ (by decide) nofun fun s none => ?_
  refine ⟨careful_of_noRounds none _, fun next moved => ?_⟩
  cases moved
  exact stepsMeet_off rk3566Misses s.switch (by decide)

theorem monitor_tears_down_nothing_fallen :
    ∃ s t, exec (step .rk3566) (.initial .off) fallenAp = some s ∧
      s.switch.threads 1 = some t ∧ t.entry = .ensureApMode ∧ t.prog = .ret (.status .ok) ∧
      TearsDown .rk3566 s 0 ∧ s.radio.Down .rk3566 := by
  have ends : ∃ s t₁ t c more, exec (step .rk3566) (.initial .off) fallenAp = some s ∧
      s.switch.threads 1 = some t₁ ∧ t₁.entry = .ensureApMode ∧ t₁.prog = .ret (.status .ok) ∧
      s.switch.threads 0 = some t ∧ t.entry = .reconnectRound 1 ∧ t.trace.all outside = true ∧
      t.prog = .call .radioRecovery c more :=
    ⟨_, _, _, _, _, rfl, rfl, rfl, rfl, rfl, rfl, rfl, rfl⟩
  obtain ⟨s, t₁, t, c, more, reached, command, called, done, thread, entry, calm, at_⟩ := ends
  have tears : TearsDown .rk3566 s 0 :=
    ⟨t, c, more, thread, ⟨1, entry⟩, unstarted_of_all calm, at_⟩
  exact ⟨s, t₁, reached, command, called, done, tears,
    monitor_tears_down_nothing .rk3566 .off fallenAp s reached fallenAp_careful 0 tears⟩

/-- The command runs between the monitor's second miss and its attempt to take the mutex. -/
def rk3566Race : List SwitchLabel :=
  .start 0 (.reconnectRound 0) :: eventsOf 0 [.called .state .pidofHostapd false,
    .called .state .ipAddrShow false] ++
  .start 0 (.reconnectRound 1) :: eventsOf 0 [.called .state .pidofHostapd false,
    .called .state .ipAddrShow false] ++ rk3566ToAp ++
    eventsOf 0 [.locked, .called .storage .readHomeWifi true]

def a733Ready : List Command :=
  [.which, .which, .accessIface, .nmcliRadioOn, .nmcliSetManaged]

def a733ToAp : List SwitchLabel :=
  .start 1 .ensureApMode :: eventsOf 1 ([.called .setup .geteuid true, .locked,
    .called .state .nmcliShowActive false] ++
    allWell .apBringUp (a733Ready ++ [.readApCredentials, .quoteArguments, .nmcliDownSta,
      .nmcliDownAp, .nmcliDeleteAp, .nmcliRadioOn, .nmcliSetManaged, .nmcliHotspot,
      .nmcliModifyAp, .nmcliDownAp, .nmcliUpAp, .writeWifiReady]) ++ [.unlocked])

def a733Rounds : List SwitchLabel :=
  a733ToAp ++ .start 0 (.reconnectRound 0) :: eventsOf 0 [.called .state .nmcliShowActive true] ++
    .start 0 (.reconnectRound 1) :: eventsOf 0 ([.called .state .nmcliShowActive true,
      .called .storage .readHomeWifi true, .called .setup .geteuid true, .locked] ++
      allWell .setup (a733Ready ++ [.quoteArguments]))

/-- In some run the monitor takes down an AP that a finished command brought up. -/
def TearsDownCommandedAp (backend : Backend) : Prop :=
  ∃ ls s t, exec (step backend) (.initial .off) ls = some s ∧
    s.switch.threads 1 = some t ∧ t.entry = .ensureApMode ∧ t.prog = .ret (.status .ok) ∧
    TearsDown backend s 0 ∧ s.radio.ap = true

theorem tearsDownCommandedAp_of_run {backend : Backend} (ls : List MonitorLabel)
    (ends : ∃ s t₁ t c more, exec (step backend) (.initial .off) ls = some s ∧
      s.switch.threads 1 = some t₁ ∧ t₁.entry = .ensureApMode ∧ t₁.prog = .ret (.status .ok) ∧
      s.switch.threads 0 = some t ∧ t.entry = .reconnectRound 1 ∧ t.trace.all outside = true ∧
      t.prog = .call (teardownPart backend) c more ∧ s.radio.ap = true) :
    TearsDownCommandedAp backend := by
  obtain ⟨s, t₁, t, c, more, reached, command, called, done, thread, entry, calm, at_, up⟩ := ends
  exact ⟨ls, s, t₁, reached, command, called, done,
    ⟨t, c, more, thread, ⟨1, entry⟩, unstarted_of_all calm, at_⟩, up⟩

theorem monitor_tears_down_commanded_ap :
    TearsDownCommandedAp .rk3566 ∧ TearsDownCommandedAp .a733 :=
  ⟨tearsDownCommandedAp_of_run (rk3566Race.map .switch)
      ⟨_, _, _, _, _, rfl, rfl, rfl, rfl, rfl, rfl, rfl, rfl, rfl⟩,
    tearsDownCommandedAp_of_run (a733Rounds.map .switch)
      ⟨_, _, _, _, _, rfl, rfl, rfl, rfl, rfl, rfl, rfl, rfl, rfl⟩⟩

end WfyApp.ReconnectMonitor
