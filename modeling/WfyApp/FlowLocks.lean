import WfyApp.FlowInput
import WfyApp.HeldLocks

/-! What the mutexes of a flow guarantee over every interleaving: none has two holders, and
a queue is longer than its limit only by the senders that found room at the same time. -/

namespace WfyApp.FlowLocks
open StepSystem FlowInput HeldLocks

variable {π γ σ β : Type} (cfg : Config γ σ)

def slotHolder (s : State π γ σ β) : π ⊕ γ → σ → Prop
  | .inl p, x => (s.sender p).slot = some x
  | .inr c, x => (s.coroutine c).slot = some x

theorem free_slotHolder (s : State π γ σ β) (x : σ) (free : s.slotFree x) :
    Free (slotHolder s) x := by
  rintro (p | c)
  · exact free.1 p
  · exact free.2 c

def condHolder (s : State π γ σ β) : π ⊕ γ ⊕ Unit → Unit → Prop
  | .inl p, _ => (s.sender p).inCond = true
  | .inr (.inl c), _ => (s.coroutine c).inCond = true
  | .inr (.inr _), _ => s.stopper.inCond = true

theorem free_condHolder (s : State π γ σ β) (free : s.condFree) : Free (condHolder s) () := by
  rintro (p | c | _)
  · simp [condHolder, free.1 p]
  · simp [condHolder, free.2.1 c]
  · simp [condHolder, free.2.2]

theorem quiet_slot (s : State π γ σ β) (p : π) (q : SendPoint σ β) (quiet : Quiet cfg s p q)
    (x : σ) (holds : q.slot = some x) : (s.sender p).slot = some x ∨ s.slotFree x := by
  cases quiet <;> simp_all [SendPoint.slot]

theorem quiet_inCond (s : State π γ σ β) (p : π) (q : SendPoint σ β) (quiet : Quiet cfg s p q)
    (holds : q.inCond = true) : s.condFree := by
  cases quiet <;> simp_all [SendPoint.inCond]

theorem silent_slot (s : State π γ σ β) (c : γ) (r : RunPoint σ) (silent : Silent cfg s c r)
    (x : σ) (holds : r.slot = some x) : s.slotFree x := by
  cases silent <;> simp_all [RunPoint.slot]

theorem silent_inCond (s : State π γ σ β) (c : γ) (r : RunPoint σ) (silent : Silent cfg s c r)
    (holds : r.inCond = true) : (s.coroutine c).inCond = true ∨ s.condFree := by
  cases silent <;> simp_all [RunPoint.inCond]

theorem wake_slot (r : RunPoint σ) : r.wake.slot = r.slot := by
  cases r <;> rfl

theorem wake_inCond (r : RunPoint σ) : r.wake.inCond = r.inCond := by
  cases r <;> rfl

structure Locks (s : State π γ σ β) : Prop where
  slots : Exclusive (slotHolder s)
  cond : Exclusive (condHolder s)

theorem locks_initial (runTimes : Int) : Locks (initial runTimes : State π γ σ β) := by
  constructor
  · rintro x (p | c) t holds
    · simp [slotHolder, initial, SendPoint.slot] at holds
    · simp [slotHolder, initial, RunPoint.slot] at holds
  · rintro l (p | c | u) t holds
    · simp [condHolder, initial, SendPoint.inCond] at holds
    · simp [condHolder, initial, RunPoint.inCond] at holds
    · simp [condHolder, initial, StopPoint.inCond] at holds

/-- A sending thread moves to a point that holds no more, or takes what is free. -/
theorem locks_sender [DecidableEq π] (s t : State π γ σ β) (p : π) (q : SendPoint σ β) (h : Locks s)
    (sender : t.sender = Function.update s.sender p q)
    (slots : ∀ c, (t.coroutine c).slot = (s.coroutine c).slot)
    (conds : ∀ c, (t.coroutine c).inCond = (s.coroutine c).inCond) (stopper : t.stopper = s.stopper)
    (slot : ∀ x, q.slot = some x → (s.sender p).slot = some x ∨ s.slotFree x)
    (cond : q.inCond = true → (s.sender p).inCond = true ∨ s.condFree) : Locks t := by
  constructor
  · refine exclusive_step (slotHolder s) (slotHolder t) (.inl p) h.slots ?_ ?_
    · rintro (p' | c) other x holds
      · have ne : p' ≠ p := by
          rintro rfl
          exact other rfl
        simpa [slotHolder, sender, ne] using holds
      · simpa [slotHolder, slots] using holds
    · intro x holds
      rcases slot x (by simpa [slotHolder, sender] using holds) with held | free
      · exact .inl held
      · exact .inr (free_slotHolder s x free)
  · refine exclusive_step (condHolder s) (condHolder t) (.inl p) h.cond ?_ ?_
    · rintro (p' | c | u) other l holds
      · have ne : p' ≠ p := by
          rintro rfl
          exact other rfl
        simpa [condHolder, sender, ne] using holds
      · simpa [condHolder, conds] using holds
      · simpa [condHolder, stopper] using holds
    · intro l holds
      rcases cond (by simpa [condHolder, sender] using holds) with held | free
      · exact .inl held
      · exact .inr (free_condHolder s free)

theorem locks_coroutine [DecidableEq γ] (s t : State π γ σ β) (c : γ) (r : RunPoint σ) (h : Locks s)
    (coroutine : t.coroutine = Function.update s.coroutine c r) (sender : t.sender = s.sender)
    (stopper : t.stopper = s.stopper)
    (slot : ∀ x, r.slot = some x → (s.coroutine c).slot = some x ∨ s.slotFree x)
    (cond : r.inCond = true → (s.coroutine c).inCond = true ∨ s.condFree) : Locks t := by
  constructor
  · refine exclusive_step (slotHolder s) (slotHolder t) (.inr c) h.slots ?_ ?_
    · rintro (p | d) other x holds
      · simpa [slotHolder, sender] using holds
      · have ne : d ≠ c := by
          rintro rfl
          exact other rfl
        simpa [slotHolder, coroutine, ne] using holds
    · intro x holds
      rcases slot x (by simpa [slotHolder, coroutine] using holds) with held | free
      · exact .inl held
      · exact .inr (free_slotHolder s x free)
  · refine exclusive_step (condHolder s) (condHolder t) (.inr (.inl c)) h.cond ?_ ?_
    · rintro (p | d | u) other l holds
      · simpa [condHolder, sender] using holds
      · have ne : d ≠ c := by
          rintro rfl
          exact other rfl
        simpa [condHolder, coroutine, ne] using holds
      · simpa [condHolder, stopper] using holds
    · intro l holds
      rcases cond (by simpa [condHolder, coroutine] using holds) with held | free
      · exact .inl held
      · exact .inr (free_condHolder s free)

theorem locks_stopper (s t : State π γ σ β) (h : Locks s) (sender : t.sender = s.sender)
    (slots : ∀ c, (t.coroutine c).slot = (s.coroutine c).slot)
    (conds : ∀ c, (t.coroutine c).inCond = (s.coroutine c).inCond)
    (cond : t.stopper.inCond = true → s.stopper.inCond = true ∨ s.condFree) : Locks t := by
  constructor
  · intro x u v first second
    refine h.slots x u v ?_ ?_
    · rcases u with p | c <;> simpa [slotHolder, sender, slots] using first
    · rcases v with p | c <;> simpa [slotHolder, sender, slots] using second
  · refine exclusive_step (condHolder s) (condHolder t) (.inr (.inr ())) h.cond ?_ ?_
    · rintro (p | c | u) other l holds
      · simpa [condHolder, sender] using holds
      · simpa [condHolder, conds] using holds
      · exact absurd rfl other
    · intro l holds
      rcases cond holds with held | free
      · exact .inl held
      · exact .inr (free_condHolder s free)

theorem stopStep_keeps [Fintype π] [Fintype γ] [DecidableEq σ]
    (s t : State π γ σ β) (taken : stopStep s = some t) :
    t.sender = s.sender ∧ t.queue = s.queue := by
  unfold stopStep at taken
  split at taken
  case h_3 | h_6 =>
    split at taken
    · cases taken
      exact ⟨rfl, rfl⟩
    · cases taken
  case h_7 => cases taken
  all_goals
    cases taken
    exact ⟨rfl, rfl⟩

section Step
variable [Fintype π] [DecidableEq π] [Fintype γ] [DecidableEq γ] [DecidableEq σ]

theorem locks_step (s t : State π γ σ β) (turn : Turn π γ σ β) (h : Locks s)
    (taken : step cfg s turn = some t) : Locks t := by
  cases turn with
  | call p x b =>
    simp only [step, sendInput] at taken
    split at taken
    · split at taken
      · cases taken
        exact locks_sender s _ p (.atLock x b) h rfl (fun _ => rfl) (fun _ => rfl) rfl
          (fun y holds => by simp [SendPoint.slot] at holds)
          (fun holds => by simp [SendPoint.inCond] at holds)
      · cases taken
        exact h
    · cases taken
  | send p =>
    rcases sendStep_cases cfg s t p taken with ⟨q, quiet, rfl⟩ |
      ⟨x, b, item, rest, here, -, -, -, rfl⟩ | ⟨x, b, here, rfl⟩ | ⟨here, rfl⟩
    · exact locks_sender s _ p q h rfl (fun _ => rfl) (fun _ => rfl) rfl
        (quiet_slot cfg s p q quiet) (fun holds => .inr (quiet_inCond cfg s p q quiet holds))
    · exact locks_sender s _ p (.pushing x b) h rfl (fun _ => rfl) (fun _ => rfl) rfl
        (fun y holds => .inl (by simpa [here, SendPoint.slot] using holds))
        (fun holds => by simp [SendPoint.inCond] at holds)
    · exact locks_sender s _ p (.pushed x) h rfl (fun _ => rfl) (fun _ => rfl) rfl
        (fun y holds => .inl (by simpa [here, SendPoint.slot] using holds))
        (fun holds => by simp [SendPoint.inCond] at holds)
    · exact locks_sender s _ p .notified h rfl (fun c => wake_slot _) (fun c => wake_inCond _) rfl
        (fun y holds => by simp [SendPoint.slot] at holds)
        (fun _ => .inl (by simp [here, SendPoint.inCond]))
  | run c =>
    rcases runStep_cases cfg s t c taken with ⟨r, silent, rfl⟩ | ⟨x, rest, here, -, rfl⟩ |
      ⟨x, rest, item, left, here, -, rfl⟩ | ⟨here, rfl⟩
    · exact locks_coroutine s _ c r h rfl rfl rfl
        (fun x holds => .inr (silent_slot cfg s c r silent x holds)) (silent_inCond cfg s c r silent)
    · exact locks_coroutine s _ c .processing h rfl rfl rfl
        (fun y holds => by simp [RunPoint.slot] at holds)
        (fun holds => by simp [RunPoint.inCond] at holds)
    · exact locks_coroutine s _ c (.visiting rest) h rfl rfl rfl
        (fun y holds => by simp [RunPoint.slot] at holds)
        (fun holds => by simp [RunPoint.inCond] at holds)
    · exact locks_coroutine s _ c .testQuit h rfl rfl rfl
        (fun y holds => by simp [RunPoint.slot] at holds)
        (fun holds => by simp [RunPoint.inCond] at holds)
  | wake c =>
    simp only [step, wakeStep] at taken
    split at taken
    · cases taken
      exact locks_coroutine s _ c .woken h rfl rfl rfl
        (fun y holds => by simp [RunPoint.slot] at holds)
        (fun holds => by simp [RunPoint.inCond] at holds)
    · cases taken
  | disable =>
    cases taken
    exact locks_stopper s _ h rfl (fun _ => rfl) (fun _ => rfl) .inl
  | stop =>
    simp only [step] at taken
    unfold stopStep at taken
    split at taken
    case h_3 =>
      split at taken
      · next free =>
        cases taken
        exact locks_stopper s _ h rfl (fun _ => rfl) (fun _ => rfl) (fun _ => .inr free)
      · cases taken
    case h_4 here =>
      cases taken
      exact locks_stopper s _ h rfl (fun _ => wake_slot _) (fun _ => wake_inCond _)
        (fun _ => .inl (by simp [here, StopPoint.inCond]))
    case h_6 =>
      split at taken
      · cases taken
        exact locks_stopper s _ h rfl (fun _ => rfl) (fun _ => rfl)
          (fun holds => by simp [StopPoint.inCond] at holds)
      · cases taken
    case h_7 => cases taken
    all_goals
      cases taken
      exact locks_stopper s _ h rfl (fun _ => rfl) (fun _ => rfl)
        (fun holds => by simp [StopPoint.inCond] at holds)

end Step

theorem quiet_blocked (s : State π γ σ β) (p : π) (q : SendPoint σ β) (quiet : Quiet cfg s p q)
    (x : σ) (blocked : q.blockedAt = some x) :
    (s.sender p).blockedAt = some x ∨ cfg.modeWhenFull x = .blocking := by
  cases quiet <;> simp_all [SendPoint.blockedAt]

theorem quiet_committed (s : State π γ σ β) (p : π) (q : SendPoint σ β) (quiet : Quiet cfg s p q)
    (x : σ) (commits : q.committed = some x) : (s.sender p).committed = some x ∨
      ((s.sender p).committed ≠ some x ∧
        (0 < cfg.maxCacheNum x → (s.queue x).length < cfg.maxCacheNum x)) := by
  cases quiet with
  | fits y b here notFull =>
    cases commits
    refine .inr ⟨by simp [here, SendPoint.committed], fun positive => ?_⟩
    unfold full at notFull
    omega
  | test y b here =>
    cases room : decide ((s.queue y).length < cfg.maxCacheNum y) with
    | false => simp [room, SendPoint.committed] at commits
    | true =>
      simp only [room, SendPoint.committed, Option.some.injEq] at commits
      subst commits
      exact .inr ⟨by simp [here, SendPoint.committed], fun _ => of_decide_eq_true room⟩
  | relock y b room here _ =>
    left
    cases room <;> simp_all [SendPoint.committed]
  | resume y b here _ =>
    left
    simpa [here, SendPoint.committed] using commits
  | lock | block | refuse | again | leave | unlock | lockCond | unlockCond =>
    simp [SendPoint.committed] at commits

section Sizes
variable [Fintype π] [DecidableEq σ]

/-- The threads that will put a buffer into the slot without looking at its size again. -/
def committed (s : State π γ σ β) (x : σ) : Nat :=
  count (fun q : SendPoint σ β => decide (q.committed = some x)) s.sender

structure Sizes (s : State π γ σ β) : Prop where
  blocked : ∀ p x, (s.sender p).blockedAt = some x → cfg.modeWhenFull x = .blocking
  bounded : ∀ x, cfg.modeWhenFull x ≠ .blocking → 0 < cfg.maxCacheNum x →
    (s.queue x).length ≤ cfg.maxCacheNum x
  room : ∀ p x b, s.sender p = .pushing x b → cfg.modeWhenFull x ≠ .blocking →
    0 < cfg.maxCacheNum x → (s.queue x).length < cfg.maxCacheNum x
  overrun : ∀ x, cfg.modeWhenFull x = .blocking → 0 < cfg.maxCacheNum x →
    (s.queue x).length + (committed s x : Int) ≤ cfg.maxCacheNum x + Fintype.card π - 1

theorem sizes_initial (runTimes : Int) : Sizes cfg (initial runTimes : State π γ σ β) := by
  have nobody (x : σ) : committed (initial runTimes : State π γ σ β) x = 0 := by
    simp [committed, count, initial, SendPoint.committed]
  refine ⟨?_, ?_, ?_, ?_⟩
  · intro p x blocked
    simp [initial, SendPoint.blockedAt] at blocked
  · intro x _ positive
    simp only [initial, List.length_nil]
    omega
  · intro p x b pushing
    simp [initial] at pushing
  · intro x _ positive
    rw [nobody]
    simp only [initial, List.length_nil]
    omega

theorem sizes_shrink (s t : State π γ σ β) (h : Sizes cfg s) (sender : t.sender = s.sender)
    (shorter : ∀ x, (t.queue x).length ≤ (s.queue x).length) : Sizes cfg t := by
  refine ⟨?_, ?_, ?_, ?_⟩
  · intro p x blocked
    exact h.blocked p x (by rwa [sender] at blocked)
  · intro x mode positive
    have bounded := h.bounded x mode positive
    have := shorter x
    omega
  · intro p x b pushing mode positive
    have room := h.room p x b (by rwa [sender] at pushing) mode positive
    have := shorter x
    omega
  · intro x mode positive
    have overrun := h.overrun x mode positive
    have same : committed t x = committed s x := by rw [committed, sender, committed]
    have := shorter x
    omega

theorem committed_update [DecidableEq π] (s t : State π γ σ β) (p : π) (q : SendPoint σ β) (x : σ)
    (sender : t.sender = Function.update s.sender p q) :
    committed t x + (decide ((s.sender p).committed = some x)).toNat =
      committed s x + (decide (q.committed = some x)).toNat := by
  rw [committed, sender]
  exact count_update (fun q : SendPoint σ β => decide (q.committed = some x)) s.sender p q

theorem sizes_move [DecidableEq π]
    (s t : State π γ σ β) (p : π) (q : SendPoint σ β) (h : Sizes cfg s)
    (sender : t.sender = Function.update s.sender p q) (queue : t.queue = s.queue)
    (blocked : ∀ x, q.blockedAt = some x → cfg.modeWhenFull x = .blocking)
    (room : ∀ x b, q = .pushing x b → cfg.modeWhenFull x ≠ .blocking → 0 < cfg.maxCacheNum x →
      (s.queue x).length < cfg.maxCacheNum x)
    (commits : ∀ x, q.committed = some x → (s.sender p).committed = some x ∨
      ((s.sender p).committed ≠ some x ∧
        (0 < cfg.maxCacheNum x → (s.queue x).length < cfg.maxCacheNum x))) : Sizes cfg t := by
  refine ⟨?_, ?_, ?_, ?_⟩
  · intro p' x at_x
    by_cases same : p' = p
    · subst same
      exact blocked x (by simpa [sender] using at_x)
    · exact h.blocked p' x (by simpa [sender, same] using at_x)
  · simpa only [queue] using h.bounded
  · intro p' x b pushing mode positive
    rw [queue]
    by_cases same : p' = p
    · subst same
      exact room x b (by simpa [sender] using pushing) mode positive
    · exact h.room p' x b (by simpa [sender, same] using pushing) mode positive
  · intro x mode positive
    have overrun := h.overrun x mode positive
    have change := committed_update s t p q x sender
    rw [queue]
    by_cases new : q.committed = some x
    · rcases commits x new with old | ⟨old, enough⟩
      · simp only [new, old, decide_true, Bool.toNat_true] at change
        omega
      · have others : committed s x < Fintype.card π :=
          count_lt _ _ p (by simpa using old)
        have := enough positive
        simp only [new, old, decide_true, decide_false, Bool.toNat_true, Bool.toNat_false] at change
        omega
    · simp only [new, decide_false, Bool.toNat_false] at change
      omega

/-- The thread that pushes is the only one at the slot that holds its mutex. -/
theorem sizes_push [DecidableEq π]
    (s : State π γ σ β) (p : π) (x : σ) (b : β) (h : Sizes cfg s) (locks : Locks s)
    (here : s.sender p = .pushing x b) :
    Sizes cfg ((s.push x (p, b)).setSender p (.pushed x)) := by
  have alone (p' : π) (b' : β) (pushing : s.sender p' = .pushing x b') : p' = p := by
    have same := locks.slots x (.inl p') (.inl p) (by simp [slotHolder, pushing, SendPoint.slot])
      (by simp [slotHolder, here, SendPoint.slot])
    simpa using same
  refine ⟨?_, ?_, ?_, ?_⟩
  · intro p' y blocked
    by_cases same : p' = p
    · subst same
      simp [State.setSender, State.push, SendPoint.blockedAt] at blocked
    · exact h.blocked p' y (by simpa [State.setSender, State.push, same] using blocked)
  · intro y mode positive
    by_cases slot : y = x
    · subst slot
      have room := h.room p y b here mode positive
      simp only [State.setSender, State.push, Function.update_self, List.length_append,
        List.length_singleton]
      omega
    · simpa [State.setSender, State.push, slot] using h.bounded y mode positive
  · intro p' y b' pushing mode positive
    have other : p' ≠ p := by
      rintro rfl
      simp [State.setSender, State.push] at pushing
    have before : s.sender p' = .pushing y b' := by
      simpa [State.setSender, State.push, other] using pushing
    have slot : y ≠ x := by
      rintro rfl
      exact other (alone p' b' before)
    simpa [State.setSender, State.push, slot] using h.room p' y b' before mode positive
  · intro y mode positive
    have overrun := h.overrun y mode positive
    have change := committed_update s ((s.push x (p, b)).setSender p (.pushed x)) p (.pushed x) y rfl
    by_cases slot : y = x
    · subst slot
      simp only [here, SendPoint.committed, decide_true, Bool.toNat_true, reduceCtorEq,
        decide_false, Bool.toNat_false] at change
      simp only [State.setSender, State.push, Function.update_self, List.length_append,
        List.length_singleton] at change ⊢
      omega
    · simp only [here, SendPoint.committed, Option.some.injEq, Ne.symm slot, decide_false,
        Bool.toNat_false, reduceCtorEq] at change
      simp only [State.setSender, State.push, Function.update_of_ne slot] at change ⊢
      omega

theorem sizes_send [DecidableEq π] [Fintype γ]
    (s t : State π γ σ β) (p : π) (h : Sizes cfg s) (locks : Locks s)
    (taken : sendStep cfg s p = some t) : Sizes cfg t := by
  rcases sendStep_cases cfg s t p taken with ⟨q, quiet, rfl⟩ |
    ⟨x, b, item, rest, here, isFull, mode, front, rfl⟩ | ⟨x, b, here, rfl⟩ | ⟨here, rfl⟩
  · refine sizes_move cfg s _ p q h rfl rfl ?_ ?_ (quiet_committed cfg s p q quiet)
    · intro x blocked
      rcases quiet_blocked cfg s p q quiet x blocked with before | mode
      · exact h.blocked p x before
      · exact mode
    · rintro x b rfl mode positive
      cases quiet with
      | fits _ _ here notFull =>
        unfold full at notFull
        omega
      | resume _ _ here _ => exact absurd (h.blocked p x (by simp [here, SendPoint.blockedAt])) mode
  · have popped : Sizes cfg (s.pop x item rest false) := by
      refine sizes_shrink cfg s _ h rfl ?_
      intro y
      by_cases same : y = x
      · subst same
        simp [State.pop, front]
      · simp [State.pop, same]
    have left : 0 < cfg.maxCacheNum x → ((s.pop x item rest false).queue x).length <
        cfg.maxCacheNum x := by
      intro positive
      have bounded := h.bounded x (by simp [mode]) positive
      simp only [front, List.length_cons] at bounded
      simp only [State.pop, Function.update_self]
      omega
    refine sizes_move cfg (s.pop x item rest false) _ p (.pushing x b) popped rfl rfl ?_ ?_ ?_
    · intro y blocked
      simp [SendPoint.blockedAt] at blocked
    · rintro y b' same - positive
      cases same
      exact left positive
    · intro y commits
      cases commits
      exact .inr ⟨by simp [State.pop, here, SendPoint.committed], left⟩
  · exact sizes_push cfg s p x b h locks here
  · refine sizes_move cfg s _ p .notified h rfl rfl ?_ ?_ ?_
    · intro x blocked
      simp [SendPoint.blockedAt] at blocked
    · intro x b same
      cases same
    · intro x commits
      simp [SendPoint.committed] at commits

variable [DecidableEq π] [Fintype γ] [DecidableEq γ]

theorem sizes_step (s t : State π γ σ β) (turn : Turn π γ σ β) (h : Sizes cfg s) (locks : Locks s)
    (taken : step cfg s turn = some t) : Sizes cfg t := by
  cases turn with
  | call p x b =>
    simp only [step, sendInput] at taken
    split at taken
    · split at taken
      · cases taken
        refine sizes_move cfg s _ p (.atLock x b) h rfl rfl ?_ ?_ ?_
        · intro y blocked
          simp [SendPoint.blockedAt] at blocked
        · intro y b' same
          cases same
        · intro y commits
          simp [SendPoint.committed] at commits
      · cases taken
        exact h
    · cases taken
  | send p => exact sizes_send cfg s t p h locks taken
  | run c =>
    rcases runStep_cases cfg s t c taken with ⟨r, -, rfl⟩ | ⟨x, rest, -, -, rfl⟩ |
      ⟨x, rest, item, left, -, front, rfl⟩ | ⟨-, rfl⟩
    · exact sizes_shrink cfg s _ h rfl fun y => Nat.le_refl _
    · exact sizes_shrink cfg s _ h rfl fun y => Nat.le_refl _
    · refine sizes_shrink cfg s _ h rfl ?_
      intro y
      by_cases same : y = x
      · subst same
        simp [State.setCoroutine, State.pop, front]
      · simp [State.setCoroutine, State.pop, same]
    · exact sizes_shrink cfg s _ h rfl fun y => Nat.le_refl _
  | wake c =>
    simp only [step, wakeStep] at taken
    split at taken
    · cases taken
      exact sizes_shrink cfg s _ h rfl fun y => Nat.le_refl _
    · cases taken
  | disable =>
    cases taken
    exact sizes_shrink cfg s _ h rfl fun y => Nat.le_refl _
  | stop =>
    obtain ⟨sender, queue⟩ := stopStep_keeps s t taken
    exact sizes_shrink cfg s t h sender fun y => by rw [queue]

theorem sizes_run (runTimes : Int) (turns : List (Turn π γ σ β)) (s : State π γ σ β)
    (reached : exec (step cfg) (initial runTimes) turns = some s) : Locks s ∧ Sizes cfg s :=
  exec_induction (step cfg) (initial runTimes) (fun s => Locks s ∧ Sizes cfg s)
    ⟨locks_initial runTimes, sizes_initial cfg runTimes⟩
    (fun s turn t h taken => ⟨locks_step cfg s t turn h.1 taken,
      sizes_step cfg s t turn h.2 h.1 taken⟩) turns s reached

end Sizes

variable [Fintype π] [DecidableEq π] [Fintype γ] [DecidableEq γ] [DecidableEq σ]

/-- A queue with a limit never grows beyond it at a slot that drops; at a slot that blocks it
grows beyond it by less than the number of sending threads, because a thread that found
room puts its buffer in without looking again. -/
theorem queue_size_bound (runTimes : Int) (turns : List (Turn π γ σ β)) (s : State π γ σ β)
    (reached : exec (step cfg) (initial runTimes) turns = some s) (x : σ)
    (limited : 0 < cfg.maxCacheNum x) :
    (s.queue x).length ≤ if cfg.modeWhenFull x = .blocking
      then cfg.maxCacheNum x + Fintype.card π - 1 else cfg.maxCacheNum x := by
  have h := (sizes_run cfg runTimes turns s reached).2
  split
  · next blocking =>
    have overrun := h.overrun x blocking limited
    omega
  · next drops => exact h.bounded x drops limited

/-- Two senders sleep at a full slot, the coroutine fetches, and both find room. -/
def bothFindRoom : List (Turn (Fin 2) Unit Unit Nat) :=
  Turn.call 0 () 1 :: List.replicate 7 (Turn.send 0) ++
    [Turn.call 0 () 2, Turn.send 0, Turn.send 0, Turn.call 1 () 3, Turn.send 1, Turn.send 1] ++
    List.replicate 9 (Turn.run ()) ++ [Turn.send 0, Turn.send 1] ++ List.replicate 4 (Turn.send 0) ++
    List.replicate 3 (Turn.send 1)

theorem queue_size_bound_reached :
    ∃ s, exec (step oneSlot) (initial (-1)) bothFindRoom = some s ∧ (s.queue ()).length = 2 ∧
      (s.queue ()).length ≤ if oneSlot.modeWhenFull () = .blocking
        then oneSlot.maxCacheNum () + Fintype.card (Fin 2) - 1 else oneSlot.maxCacheNum () := by
  refine ⟨(exec (step oneSlot) (initial (-1)) bothFindRoom).get (by decide),
    (Option.some_get _).symm, by decide, ?_⟩
  exact queue_size_bound oneSlot (-1) bothFindRoom _ (Option.some_get _).symm () (by decide)

end WfyApp.FlowLocks
