import WfyApp.FlowLocks

/-! The condition of a flow: a coroutine that waits with a buffer in one of its queues is
about to be notified, a fetch finds what the test before it saw, and the states in which
nothing moves any more after a stop. -/

namespace WfyApp.FlowWakeup
open StepSystem FlowInput HeldLocks FlowLocks

variable {π γ σ β : Type} (cfg : Config γ σ)

def Coming (s : State π γ σ β) : Prop := ∃ p, (s.sender p).pending = true

/-- The queue has a buffer, or is about to get one by a thread that holds its mutex. -/
def Filled (s : State π γ σ β) (x : σ) : Prop :=
  s.queue x ≠ [] ∨ ∃ p b, s.sender p = .pushing x b

structure Wakes (s : State π γ σ β) : Prop where
  waiting : ∀ c, s.coroutine c = .waiting → ∀ x ∈ cfg.inSlots c, s.queue x ≠ [] → Coming s
  scanning : ∀ c rest, s.coroutine c = .scanning rest true →
    ∃ seen, cfg.inSlots c = seen ++ rest ∧ ∀ x ∈ seen, s.queue x ≠ [] → Coming s
  testing : ∀ c x rest, s.coroutine c = .testEnable x rest → Filled s x
  locking : ∀ c x rest, s.coroutine c = .atLock x rest → Filled s x
  taking : ∀ c x rest, s.coroutine c = .taking x rest → s.queue x ≠ []
  alive : ∀ c, s.coroutine c ≠ .aborted

theorem wakes_initial (runTimes : Int) : Wakes cfg (initial runTimes : State π γ σ β) := by
  constructor <;> simp [initial]

theorem wakes_sender (s t : State π γ σ β) (h : Wakes cfg s) (coroutine : t.coroutine = s.coroutine)
    (queue : t.queue = s.queue) (coming : Coming s → Coming t)
    (pushing : ∀ p x b, s.sender p = .pushing x b → t.sender p = .pushing x b) : Wakes cfg t := by
  have filled (x : σ) (before : Filled s x) : Filled t x := by
    rcases before with some_buffer | ⟨p, b, here⟩
    · exact .inl (by rwa [queue])
    · exact .inr ⟨p, b, pushing p x b here⟩
  refine ⟨?_, ?_, ?_, ?_, ?_, ?_⟩
  · intro c at_c x inside some_buffer
    exact coming (h.waiting c (by rwa [← coroutine]) x inside (by rwa [← queue]))
  · intro c rest at_c
    obtain ⟨seen, parts, before⟩ := h.scanning c rest (by rwa [← coroutine])
    exact ⟨seen, parts, fun x member some_buffer => coming (before x member (by rwa [← queue]))⟩
  · intro c x rest at_c
    exact filled x (h.testing c x rest (by rwa [← coroutine]))
  · intro c x rest at_c
    exact filled x (h.locking c x rest (by rwa [← coroutine]))
  · intro c x rest at_c
    rw [queue]
    exact h.taking c x rest (by rwa [← coroutine])
  · intro c
    rw [coroutine]
    exact h.alive c

theorem quiet_pending (s : State π γ σ β) (p : π) (q : SendPoint σ β) (quiet : Quiet cfg s p q)
    (pending : (s.sender p).pending = true) : q.pending = true := by
  cases quiet <;> simp_all [SendPoint.pending]

theorem quiet_not_pushing (s : State π γ σ β) (p : π) (q : SendPoint σ β) (quiet : Quiet cfg s p q)
    (x : σ) (b : β) : s.sender p ≠ .pushing x b := by
  cases quiet <;> simp_all

theorem wakes_quiet [DecidableEq π]
    (s : State π γ σ β) (p : π) (q : SendPoint σ β) (quiet : Quiet cfg s p q)
    (h : Wakes cfg s) : Wakes cfg (s.setSender p q) := by
  refine wakes_sender cfg s _ h rfl rfl ?_ ?_
  · rintro ⟨p', pending⟩
    by_cases same : p' = p
    · subst same
      exact ⟨p', by simpa [State.setSender] using quiet_pending cfg s p' q quiet pending⟩
    · exact ⟨p', by simpa [State.setSender, same] using pending⟩
  · intro p' x b pushing
    have other : p' ≠ p := by
      rintro rfl
      exact quiet_not_pushing cfg s p' q quiet x b pushing
    simpa [State.setSender, other] using pushing

/-- A sender that drops the front holds the mutex, so no coroutine is taking there. -/
theorem wakes_drop [DecidableEq π] [DecidableEq σ]
    (s : State π γ σ β) (p : π) (x : σ) (b : β) (item : π × β) (rest : List (π × β))
    (here : s.sender p = .holding x b) (front : s.queue x = item :: rest) (locks : Locks s)
    (h : Wakes cfg s) : Wakes cfg ((s.pop x item rest false).setSender p (.pushing x b)) := by
  have had (y : σ) (some_buffer : ((s.pop x item rest false).setSender p (.pushing x b)).queue y ≠ []) :
      s.queue y ≠ [] := by
    by_cases slot : y = x
    · subst slot
      simp [front]
    · simpa [State.setSender, State.pop, slot] using some_buffer
  have coming (before : Coming s) : Coming ((s.pop x item rest false).setSender p (.pushing x b)) := by
    obtain ⟨p', pending⟩ := before
    have other : p' ≠ p := by
      rintro rfl
      simp [here, SendPoint.pending] at pending
    exact ⟨p', by simpa [State.setSender, State.pop, other] using pending⟩
  have filled (y : σ) (before : Filled s y) :
      Filled ((s.pop x item rest false).setSender p (.pushing x b)) y := by
    by_cases slot : y = x
    · subst slot
      exact .inr ⟨p, b, by simp [State.setSender]⟩
    · rcases before with some_buffer | ⟨p', b', pushing⟩
      · exact .inl (by simpa [State.setSender, State.pop, slot] using some_buffer)
      · have other : p' ≠ p := by
          rintro rfl
          rw [here] at pushing
          cases pushing
        exact .inr ⟨p', b', by simpa [State.setSender, State.pop, other] using pushing⟩
  refine ⟨?_, ?_, ?_, ?_, ?_, h.alive⟩
  · intro c at_c y inside some_buffer
    exact coming (h.waiting c at_c y inside (had y some_buffer))
  · intro c rest' at_c
    obtain ⟨seen, parts, before⟩ := h.scanning c rest' at_c
    exact ⟨seen, parts, fun y member some_buffer => coming (before y member (had y some_buffer))⟩
  · exact fun c y rest' at_c => filled y (h.testing c y rest' at_c)
  · exact fun c y rest' at_c => filled y (h.locking c y rest' at_c)
  · intro c y rest' at_c
    have at_c' : s.coroutine c = .taking y rest' := at_c
    have slot : y ≠ x := by
      rintro rfl
      have clash := locks.slots y (.inl p) (.inr c) (by simp [slotHolder, here, SendPoint.slot])
        (by simp [slotHolder, at_c', RunPoint.slot])
      cases clash
    simpa [State.setSender, State.pop, slot] using h.taking c y rest' at_c

theorem wakes_push [DecidableEq π] [DecidableEq σ]
    (s : State π γ σ β) (p : π) (x : σ) (b : β) (here : s.sender p = .pushing x b)
    (h : Wakes cfg s) : Wakes cfg ((s.push x (p, b)).setSender p (.pushed x)) := by
  have coming : Coming ((s.push x (p, b)).setSender p (.pushed x)) :=
    ⟨p, by simp [State.setSender, SendPoint.pending]⟩
  have filled (y : σ) (before : Filled s y) : Filled ((s.push x (p, b)).setSender p (.pushed x)) y := by
    by_cases slot : y = x
    · subst slot
      exact .inl (by simp [State.setSender, State.push])
    · rcases before with some_buffer | ⟨p', b', pushing⟩
      · exact .inl (by simpa [State.setSender, State.push, slot] using some_buffer)
      · have other : p' ≠ p := by
          rintro rfl
          rw [here] at pushing
          cases pushing
          exact slot rfl
        exact .inr ⟨p', b', by simpa [State.setSender, State.push, other] using pushing⟩
  refine ⟨fun _ _ _ _ _ => coming, ?_, ?_, ?_, ?_, h.alive⟩
  · intro c rest at_c
    obtain ⟨seen, parts, -⟩ := h.scanning c rest at_c
    exact ⟨seen, parts, fun _ _ _ => coming⟩
  · exact fun c y rest at_c => filled y (h.testing c y rest at_c)
  · exact fun c y rest at_c => filled y (h.locking c y rest at_c)
  · intro c y rest at_c
    have before := h.taking c y rest at_c
    by_cases slot : y = x
    · subst slot
      simp [State.setSender, State.push]
    · simpa [State.setSender, State.push, slot] using before

theorem wakes_notify (s t : State π γ σ β) (h : Wakes cfg s)
    (coroutine : ∀ c, t.coroutine c = (s.coroutine c).wake) (queue : t.queue = s.queue)
    (nobody : ∀ c, (s.coroutine c).inCond = false)
    (pushing : ∀ p x b, s.sender p = .pushing x b → t.sender p = .pushing x b) : Wakes cfg t := by
  have same (c : γ) (r : RunPoint σ) (at_c : t.coroutine c = r) (awake : r ≠ .woken) :
      s.coroutine c = r ∧ r ≠ .waiting := by
    rw [coroutine] at at_c
    cases point : s.coroutine c <;> simp_all [RunPoint.wake]
    all_goals
      subst at_c
      simp
  have filled (x : σ) (before : Filled s x) : Filled t x := by
    rcases before with some_buffer | ⟨p, b, here⟩
    · exact .inl (by rwa [queue])
    · exact .inr ⟨p, b, pushing p x b here⟩
  refine ⟨?_, ?_, ?_, ?_, ?_, ?_⟩
  · intro c at_c
    exact absurd rfl (same c _ at_c (by simp)).2
  · intro c rest at_c
    have inside := nobody c
    rw [(same c _ at_c (by simp)).1] at inside
    simp [RunPoint.inCond] at inside
  · exact fun c x rest at_c => filled x (h.testing c x rest (same c _ at_c (by simp)).1)
  · exact fun c x rest at_c => filled x (h.locking c x rest (same c _ at_c (by simp)).1)
  · intro c x rest at_c
    rw [queue]
    exact h.taking c x rest (same c _ at_c (by simp)).1
  · intro c at_c
    exact h.alive c (same c _ at_c (by simp)).1

theorem wakes_send [Fintype π] [DecidableEq π] [Fintype γ] [DecidableEq σ]
    (s t : State π γ σ β) (p : π) (taken : sendStep cfg s p = some t)
    (locks : Locks s) (h : Wakes cfg s) : Wakes cfg t := by
  rcases sendStep_cases cfg s t p taken with ⟨q, quiet, rfl⟩ |
    ⟨x, b, item, rest, here, -, -, front, rfl⟩ | ⟨x, b, here, rfl⟩ | ⟨here, rfl⟩
  · exact wakes_quiet cfg s p q quiet h
  · exact wakes_drop cfg s p x b item rest here front locks h
  · exact wakes_push cfg s p x b here h
  · refine wakes_notify cfg s _ h (fun _ => rfl) rfl ?_ ?_
    · intro c
      cases inside : (s.coroutine c).inCond with
      | false => rfl
      | true =>
        have clash := locks.cond () (.inl p) (.inr (.inl c))
          (by simp [condHolder, here, SendPoint.inCond]) inside
        cases clash
    · intro p' x b pushing
      have other : p' ≠ p := by
        rintro rfl
        rw [here] at pushing
        cases pushing
      simpa [State.setSender, State.notify, other] using pushing

structure Point (s : State π γ σ β) (c : γ) (r : RunPoint σ) : Prop where
  waiting : r = .waiting → ∀ x ∈ cfg.inSlots c, s.queue x ≠ [] → Coming s
  scanning : ∀ rest, r = .scanning rest true →
    ∃ seen, cfg.inSlots c = seen ++ rest ∧ ∀ x ∈ seen, s.queue x ≠ [] → Coming s
  testing : ∀ x rest, r = .testEnable x rest → Filled s x
  locking : ∀ x rest, r = .atLock x rest → Filled s x
  taking : ∀ x rest, r = .taking x rest → s.queue x ≠ []
  alive : r ≠ .aborted

theorem wakes_iff (s : State π γ σ β) : Wakes cfg s ↔ ∀ c, Point cfg s c (s.coroutine c) :=
  ⟨fun h c => ⟨h.waiting c, h.scanning c, h.testing c, h.locking c, h.taking c, h.alive c⟩,
    fun h => ⟨fun c => (h c).waiting, fun c => (h c).scanning, fun c => (h c).testing,
      fun c => (h c).locking, fun c => (h c).taking, fun c => (h c).alive⟩⟩

theorem silent_point (s : State π γ σ β) (c : γ) (r : RunPoint σ) (silent : Silent cfg s c r)
    (h : Wakes cfg s) : Point cfg s c r := by
  cases silent with
  | lockCond here free =>
    exact ⟨by simp, fun rest same => ⟨[], by simp_all, by simp⟩, by simp, by simp, by simp, by simp⟩
  | scan x rest empty here =>
    refine ⟨by simp, ?_, by simp, by simp, by simp, by simp⟩
    intro rest' same
    simp only [RunPoint.scanning.injEq, Bool.and_eq_true, List.isEmpty_iff] at same
    obtain ⟨rfl, rfl, none⟩ := same
    obtain ⟨seen, parts, before⟩ := h.scanning c (x :: rest) here
    refine ⟨seen ++ [x], by simp [parts], ?_⟩
    intro y member some_buffer
    simp only [List.mem_append, List.mem_singleton] at member
    rcases member with earlier | rfl
    · exact before y earlier some_buffer
    · exact absurd none some_buffer
  | wait here =>
    refine ⟨?_, by simp, by simp, by simp, by simp, by simp⟩
    intro _ x inside some_buffer
    obtain ⟨seen, parts, before⟩ := h.scanning c [] here
    rw [List.append_nil] at parts
    exact before x (parts ▸ inside) some_buffer
  | stay x rest here some_buffer =>
    refine ⟨by simp, by simp, ?_, by simp, by simp, by simp⟩
    intro y rest' same
    cases same
    exact .inl some_buffer
  | enabled x rest here on =>
    refine ⟨by simp, by simp, by simp, ?_, by simp, by simp⟩
    intro y rest' same
    cases same
    exact h.testing c x rest here
  | lock x rest here free =>
    refine ⟨by simp, by simp, by simp, by simp, ?_, by simp⟩
    intro y rest' same
    cases same
    rcases h.locking c x rest here with some_buffer | ⟨p, b, pushing⟩
    · exact some_buffer
    · exact absurd (by simp [pushing, SendPoint.slot]) (free.1 p)
  | abort x rest here none => exact absurd none (h.taking c x rest here)
  | quits | goes | found | relock | unlockCond | skip | visited =>
    exact ⟨by simp, by simp, by simp, by simp, by simp, by simp⟩

theorem wakes_coroutine [DecidableEq γ]
    (s t : State π γ σ β) (c : γ) (r : RunPoint σ) (h : Wakes cfg s)
    (coroutine : t.coroutine = Function.update s.coroutine c r) (sender : t.sender = s.sender)
    (queue : t.queue = s.queue) (point : Point cfg s c r) : Wakes cfg t := by
  have coming (before : Coming s) : Coming t := by simpa only [Coming, sender] using before
  have filled (x : σ) (before : Filled s x) : Filled t x := by
    simpa only [Filled, sender, queue] using before
  rw [wakes_iff]
  intro d
  have before : Point cfg s d (t.coroutine d) := by
    by_cases same : d = c
    · subst same
      simpa [coroutine] using point
    · simpa [coroutine, same] using (wakes_iff cfg s).mp h d
  refine ⟨?_, ?_, ?_, ?_, ?_, before.alive⟩
  · intro at_d x inside some_buffer
    exact coming (before.waiting at_d x inside (by rwa [← queue]))
  · intro rest at_d
    obtain ⟨seen, parts, seen_ok⟩ := before.scanning rest at_d
    exact ⟨seen, parts, fun x member some_buffer => coming (seen_ok x member (by rwa [← queue]))⟩
  · exact fun x rest at_d => filled x (before.testing x rest at_d)
  · exact fun x rest at_d => filled x (before.locking x rest at_d)
  · intro x rest at_d
    rw [queue]
    exact before.taking x rest at_d

/-- Taking the front of a slot concerns no other coroutine: the slot is not theirs. -/
theorem wakes_take [DecidableEq π] [DecidableEq γ] [DecidableEq σ]
    (s : State π γ σ β) (c : γ) (x : σ) (rest : List σ) (item : π × β)
    (left : List (π × β)) (here : s.coroutine c = .taking x rest) (front : s.queue x = item :: left)
    (history : History cfg s) (h : Wakes cfg s) :
    Wakes cfg ({ s.pop x item left true with
      inVector := Function.update s.inVector c (s.inVector c ++ [(x, item)]) }.setCoroutine c
        (.visiting rest)) := by
  generalize after : ({ s.pop x item left true with
    inVector := Function.update s.inVector c (s.inVector c ++ [(x, item)]) }.setCoroutine c
      (.visiting rest)) = t
  have sender : t.sender = s.sender := by rw [← after]; rfl
  have coroutine : t.coroutine = Function.update s.coroutine c (.visiting rest) := by rw [← after]; rfl
  have queue (y : σ) (slot : y ≠ x) : t.queue y = s.queue y := by
    rw [← after]
    simp [State.setCoroutine, State.pop, slot]
  have had (y : σ) (some_buffer : t.queue y ≠ []) : s.queue y ≠ [] := by
    by_cases slot : y = x
    · subst slot
      simp [front]
    · rwa [← queue y slot]
  have coming (before : Coming s) : Coming t := by simpa only [Coming, sender] using before
  have mine : x ∈ cfg.inSlots c := history.ahead c x (by simp [here, RunPoint.ahead])
  rw [wakes_iff]
  intro d
  by_cases same : d = c
  · subst same
    rw [coroutine, Function.update_self]
    exact ⟨by simp, by simp, by simp, by simp, by simp, by simp⟩
  have before := (wakes_iff cfg s).mp h d
  have foreign (y : σ) (ahead : y ∈ (s.coroutine d).ahead) : y ≠ x := by
    rintro rfl
    exact same (cfg.separate d c y (history.ahead d y ahead) mine)
  have filled (y : σ) (slot : y ≠ x) (old : Filled s y) : Filled t y := by
    simpa only [Filled, sender, queue y slot] using old
  rw [coroutine, Function.update_of_ne same]
  refine ⟨?_, ?_, ?_, ?_, ?_, before.alive⟩
  · intro at_d y inside some_buffer
    exact coming (before.waiting at_d y inside (had y some_buffer))
  · intro rest' at_d
    obtain ⟨seen, parts, seen_ok⟩ := before.scanning rest' at_d
    exact ⟨seen, parts, fun y member some_buffer => coming (seen_ok y member (had y some_buffer))⟩
  · intro y rest' at_d
    exact filled y (foreign y (by simp [at_d, RunPoint.ahead])) (before.testing y rest' at_d)
  · intro y rest' at_d
    exact filled y (foreign y (by simp [at_d, RunPoint.ahead])) (before.locking y rest' at_d)
  · intro y rest' at_d
    rw [queue y (foreign y (by simp [at_d, RunPoint.ahead]))]
    exact before.taking y rest' at_d

variable [Fintype π] [DecidableEq π] [Fintype γ] [DecidableEq γ] [DecidableEq σ]

theorem wakes_run (s t : State π γ σ β) (c : γ) (taken : runStep cfg s c = some t)
    (history : History cfg s) (h : Wakes cfg s) : Wakes cfg t := by
  have plain (r : RunPoint σ) (busy : r = .processing ∨ r = .testQuit) : Point cfg s c r := by
    rcases busy with rfl | rfl <;> exact ⟨by simp, by simp, by simp, by simp, by simp, by simp⟩
  rcases runStep_cases cfg s t c taken with ⟨r, silent, rfl⟩ | ⟨x, rest, -, -, rfl⟩ |
    ⟨x, rest, item, left, here, front, rfl⟩ | ⟨-, rfl⟩
  · exact wakes_coroutine cfg s _ c r h rfl rfl rfl (silent_point cfg s c r silent h)
  · exact wakes_coroutine cfg s _ c .processing h rfl rfl rfl (plain _ (.inl rfl))
  · exact wakes_take cfg s c x rest item left here front history h
  · exact wakes_coroutine cfg s _ c .testQuit h rfl rfl rfl (plain _ (.inr rfl))

theorem wakes_step (s t : State π γ σ β) (turn : Turn π γ σ β) (history : History cfg s)
    (locks : Locks s) (h : Wakes cfg s) (taken : step cfg s turn = some t) : Wakes cfg t := by
  cases turn with
  | call p x b =>
    simp only [step, sendInput] at taken
    split at taken
    · next idle =>
      split at taken
      · cases taken
        refine wakes_sender cfg s _ h rfl rfl ?_ ?_
        · rintro ⟨p', pending⟩
          have other : p' ≠ p := by
            rintro rfl
            simp [idle, SendPoint.pending] at pending
          exact ⟨p', by simpa [State.setSender, other] using pending⟩
        · intro p' y b' pushing
          have other : p' ≠ p := by
            rintro rfl
            rw [idle] at pushing
            cases pushing
          simpa [State.setSender, other] using pushing
      · cases taken
        exact h
    · cases taken
  | send p => exact wakes_send cfg s t p taken locks h
  | run c => exact wakes_run cfg s t c taken history h
  | wake c =>
    simp only [step, wakeStep] at taken
    split at taken
    · cases taken
      exact wakes_coroutine cfg s _ c .woken h rfl rfl rfl
        ⟨by simp, by simp, by simp, by simp, by simp, by simp⟩
    · cases taken
  | disable =>
    cases taken
    exact wakes_sender cfg s _ h rfl rfl id fun _ _ _ same => same
  | stop =>
    simp only [step] at taken
    unfold stopStep at taken
    split at taken
    case h_3 | h_6 =>
      split at taken
      · cases taken
        exact wakes_sender cfg s _ h rfl rfl id fun _ _ _ same => same
      · cases taken
    case h_4 here =>
      cases taken
      refine wakes_notify cfg s _ h (fun _ => rfl) rfl ?_ fun _ _ _ same => same
      intro c
      cases inside : (s.coroutine c).inCond with
      | false => rfl
      | true =>
        have clash := locks.cond () (.inr (.inr ())) (.inr (.inl c))
          (by simp [condHolder, here, StopPoint.inCond]) inside
        cases clash
    case h_7 => cases taken
    all_goals
      cases taken
      exact wakes_sender cfg s _ h rfl rfl id fun _ _ _ same => same

structure Reached (s : State π γ σ β) : Prop where
  history : History cfg s
  locks : Locks s
  sizes : Sizes cfg s
  wakes : Wakes cfg s

theorem reached_of_exec (runTimes : Int) (turns : List (Turn π γ σ β)) (s : State π γ σ β)
    (reached : exec (step cfg) (initial runTimes) turns = some s) : Reached cfg s :=
  exec_induction (step cfg) (initial runTimes) (Reached cfg)
    ⟨history_initial cfg runTimes, locks_initial runTimes, sizes_initial cfg runTimes,
      wakes_initial cfg runTimes⟩
    (fun s turn t h taken => ⟨history_step cfg s t turn h.history taken,
      locks_step cfg s t turn h.locks taken, sizes_step cfg s t turn h.sizes h.locks taken,
      wakes_step cfg s t turn h.history h.locks h.wakes taken⟩) turns s reached

/-- No wakeup is lost: while a coroutine waits and one of its queues has a buffer, some
sender has still to notify. And the assertion of a fetch holds: the queue it found not
empty has a buffer when the mutex is taken. -/
theorem no_lost_wakeup (runTimes : Int) (turns : List (Turn π γ σ β)) (s : State π γ σ β)
    (reached : exec (step cfg) (initial runTimes) turns = some s) (c : γ) :
    s.coroutine c ≠ .aborted ∧
      (s.coroutine c = .waiting → ∀ x ∈ cfg.inSlots c, s.queue x ≠ [] →
        ∃ p, (s.sender p).pending = true) :=
  ⟨(reached_of_exec cfg runTimes turns s reached).wakes.alive c,
    (reached_of_exec cfg runTimes turns s reached).wakes.waiting c⟩

def pushWhileWaiting : List (Turn Unit Unit Unit Nat) :=
  List.replicate 4 (.run ()) ++ .call () () 7 :: List.replicate 3 (.send ())

theorem no_lost_wakeup_pushed :
    ∃ s, exec (step oneSlot) (initial (-1)) pushWhileWaiting = some s ∧
      s.coroutine () = .waiting ∧ s.queue () ≠ [] ∧ ∃ p, (s.sender p).pending = true := by
  refine ⟨(exec (step oneSlot) (initial (-1)) pushWhileWaiting).get (by decide),
    (Option.some_get _).symm, by decide, by decide, ?_⟩
  exact (no_lost_wakeup oneSlot (-1) pushWhileWaiting _ (Option.some_get _).symm ()).2 (by decide) ()
    (by decide) (by decide)

section Stuck

/-- No thread can take a step of its own: nobody sends, and no wait ends unnotified. -/
def Stuck (s : State π γ σ β) : Prop :=
  (∀ p, sendStep cfg s p = none) ∧ (∀ c, runStep cfg s c = none) ∧ stopStep s = none

theorem condFree_of_stuck (s : State π γ σ β) (stuck : Stuck cfg s) : s.condFree := by
  obtain ⟨senders, coroutines, stopper⟩ := stuck
  refine ⟨?_, ?_, ?_⟩
  · intro p
    have still := senders p
    cases point : s.sender p <;> simp_all [SendPoint.inCond, sendStep]
  · intro c
    have still := coroutines c
    cases point : s.coroutine c with
    | scanning rest empty => cases rest <;> simp_all [runStep]
    | leaving => simp_all [runStep]
    | _ => rfl
  · cases point : s.stopper <;> simp_all [StopPoint.inCond, stopStep]

theorem slotFree_of_stuck (s : State π γ σ β) (stuck : Stuck cfg s) (x : σ) : s.slotFree x := by
  obtain ⟨senders, coroutines, -⟩ := stuck
  refine ⟨?_, ?_⟩
  · intro p
    have still := senders p
    cases point : s.sender p with
    | holding y b =>
      simp only [sendStep, point] at still
      split at still
      · next isFull =>
        split at still
        all_goals try cases still
        next _ none =>
          obtain ⟨positive, reached⟩ := isFull
          simp only [none, List.length_nil] at reached
          omega
      · cases still
    | regained y b room =>
      simp only [sendStep, point] at still
      split at still <;> cases still
    | pushing y b => simp [sendStep, point] at still
    | pushed y => simp [sendStep, point] at still
    | _ => simp [SendPoint.slot]
  · intro c
    have still := coroutines c
    cases point : s.coroutine c with
    | taking y rest =>
      simp only [runStep, point] at still
      split at still <;> cases still
    | _ => simp [RunPoint.slot]

theorem idle_of_stuck (s : State π γ σ β) (stuck : Stuck cfg s) (p : π) : s.sender p = .idle := by
  have still := stuck.1 p
  have slots := slotFree_of_stuck cfg s stuck
  have cond := condFree_of_stuck cfg s stuck
  cases point : s.sender p with
  | idle => rfl
  | holding y b => exact absurd (by simp [point, SendPoint.slot]) ((slots y).1 p)
  | regained y b room => exact absurd (by simp [point, SendPoint.slot]) ((slots y).1 p)
  | atLock y b | sleeping y b | atRelock y b room | pushing y b | pushed y | atCond | atNotify
  | notified => simp [sendStep, point, slots, cond] at still

theorem coroutine_of_stuck (s : State π γ σ β) (stuck : Stuck cfg s) (h : Reached cfg s) (c : γ) :
    s.coroutine c = .exited ∨
      (s.coroutine c = .waiting ∧ ∀ x ∈ cfg.inSlots c, s.queue x = []) := by
  have still := stuck.2.1 c
  have slots := slotFree_of_stuck cfg s stuck
  have cond := condFree_of_stuck cfg s stuck
  cases point : s.coroutine c with
  | exited => exact .inl rfl
  | waiting =>
    refine .inr ⟨rfl, ?_⟩
    intro x inside
    by_contra some_buffer
    obtain ⟨p, pending⟩ := h.wakes.waiting c point x inside some_buffer
    simp [idle_of_stuck cfg s stuck p, SendPoint.pending] at pending
  | aborted => exact absurd point (h.wakes.alive c)
  | scanning rest empty => cases rest <;> simp [runStep, point] at still
  | visiting rest => cases rest <;> simp [runStep, point] at still
  | testEnable x rest =>
    simp only [runStep, point] at still
    split at still <;> cases still
  | taking x rest => exact absurd (by simp [point, RunPoint.slot]) ((slots x).2 c)
  | testQuit | atCond | woken | leaving | atLock x rest | processing =>
    simp [runStep, point, slots, cond] at still

end Stuck

def Joined (s : State π γ σ β) : Prop := s.stopper = .done → ∀ c, s.coroutine c = .exited

theorem joined_step (s t : State π γ σ β) (turn : Turn π γ σ β) (h : Joined s)
    (taken : step cfg s turn = some t) : Joined t := by
  cases turn with
  | call p x b =>
    simp only [step, sendInput] at taken
    split at taken
    · split at taken <;> (cases taken; exact h)
    · cases taken
  | send p =>
    rcases sendStep_cases cfg s t p taken with ⟨q, -, rfl⟩ |
      ⟨x, b, item, rest, -, -, -, -, rfl⟩ | ⟨x, b, -, rfl⟩ | ⟨-, rfl⟩
    · exact h
    · exact h
    · exact h
    · intro done c
      simp [State.setSender, State.notify, h done c, RunPoint.wake]
  | run c =>
    intro done
    have before : s.stopper = .done := by
      rcases runStep_cases cfg s t c taken with ⟨r, -, rfl⟩ | ⟨x, rest, -, -, rfl⟩ |
        ⟨x, rest, item, left, -, -, rfl⟩ | ⟨-, rfl⟩ <;> exact done
    simp [step, runStep, h before c] at taken
  | wake c =>
    simp only [step, wakeStep] at taken
    split at taken
    · next waiting =>
      cases taken
      intro done
      simp [h done c] at waiting
    · cases taken
  | disable =>
    cases taken
    exact h
  | stop =>
    simp only [step] at taken
    unfold stopStep at taken
    split at taken
    case h_3 =>
      split at taken <;> cases taken
      intro done
      cases done
    case h_6 =>
      split at taken
      · next all =>
        cases taken
        exact fun _ => all
      · cases taken
    case h_7 => cases taken
    all_goals
      cases taken
      intro done
      cases done

/-- When nothing moves any more, the stop has been called, every sender is idle, and either
the stop has returned and all coroutines have left, or the stop waits for a coroutine that
waits on the condition with all its queues empty. -/
theorem stop_hangs_only_in_wait (runTimes : Int) (turns : List (Turn π γ σ β)) (s : State π γ σ β)
    (reached : exec (step cfg) (initial runTimes) turns = some s) (stuck : Stuck cfg s) :
    (∀ p, s.sender p = .idle) ∧
      ((s.stopper = .done ∧ ∀ c, s.coroutine c = .exited) ∨
        (s.stopper = .joining ∧ ∃ c, s.coroutine c = .waiting ∧
          ∀ x ∈ cfg.inSlots c, s.queue x = [])) := by
  have known := reached_of_exec cfg runTimes turns s reached
  have joined : Joined s := exec_induction (step cfg) (initial runTimes) Joined
    (fun done => by cases done) (fun s turn t h taken => joined_step cfg s t turn h taken) turns s
    reached
  refine ⟨idle_of_stuck cfg s stuck, ?_⟩
  have still := stuck.2.2
  cases point : s.stopper with
  | done => exact .inl ⟨rfl, joined point⟩
  | joining =>
    refine .inr ⟨rfl, ?_⟩
    have someone : ∃ c, s.coroutine c ≠ .exited := by
      by_contra none
      simp only [not_exists, not_not] at none
      simp [stopStep, point, none] at still
    obtain ⟨c, inside⟩ := someone
    rcases coroutine_of_stuck cfg s stuck known c with exited | waits
    · exact absurd exited inside
    · exact ⟨c, waits⟩
  | before | disabled | atCond | atNotify | notified =>
    simp [stopStep, point, condFree_of_stuck cfg s stuck] at still

/-- The coroutine has tested `quit` when the whole stop up to its join takes place. -/
def stopBeforeWait : List (Turn Unit Unit Unit Nat) :=
  .run () :: List.replicate 5 .stop ++ List.replicate 3 (.run ())

theorem stop_hangs_before_wait :
    ∃ s, exec (step oneSlot) (initial (-1)) stopBeforeWait = some s ∧ Stuck oneSlot s ∧
      s.stopper ≠ .done ∧ (∀ p, s.sender p = .idle) ∧
      ((s.stopper = .done ∧ ∀ c, s.coroutine c = .exited) ∨
        (s.stopper = .joining ∧ ∃ c, s.coroutine c = .waiting ∧
          ∀ x ∈ oneSlot.inSlots c, s.queue x = [])) := by
  have stuck : Stuck oneSlot ((exec (step oneSlot) (initial (-1)) stopBeforeWait).get (by decide)) :=
    ⟨fun _ => rfl, fun _ => rfl, rfl⟩
  refine ⟨(exec (step oneSlot) (initial (-1)) stopBeforeWait).get (by decide),
    (Option.some_get _).symm, stuck, by decide, ?_⟩
  exact stop_hangs_only_in_wait oneSlot (-1) stopBeforeWait _ (Option.some_get _).symm stuck

end WfyApp.FlowWakeup
