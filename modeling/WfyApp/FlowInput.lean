import WfyApp.StepSystem

/-! The input queues of a flow of the media library under every interleaving: threads that
send buffers (`Flow::SendInput` with `ASyncSendInputCommonBehavior`), the coroutines of the
flow (`FlowCoroutine::WhileRun` with `ASyncFetchInputCommon`), and the thread that stops
the flow (`Flow::StopAllThread`).
Every read or write that another thread can see is a step of its own. A thread holds a
mutex when its program point lies in the mutex's critical section; a mutex is free when
nobody's does. The queues of other thread models and what a coroutine sends down are
outside. -/

namespace WfyApp.FlowInput
open StepSystem

inductive InputMode where
  | blocking
  | dropFront
  | dropCurrent
  deriving DecidableEq, Repr

/-- Where a sending thread is; `room` is what the test without the mutex found. -/
inductive SendPoint (σ β : Type) where
  | idle
  | atLock (x : σ) (b : β)
  | holding (x : σ) (b : β)
  | sleeping (x : σ) (b : β)
  | atRelock (x : σ) (b : β) (room : Bool)
  | regained (x : σ) (b : β) (room : Bool)
  | pushing (x : σ) (b : β)
  | pushed (x : σ)
  | atCond
  | atNotify
  | notified
  deriving DecidableEq, Repr

inductive RunPoint (σ : Type) where
  | testQuit
  | atCond
  | scanning (rest : List σ) (empty : Bool)
  | waiting
  | woken
  | leaving
  | visiting (rest : List σ)
  | testEnable (x : σ) (rest : List σ)
  | atLock (x : σ) (rest : List σ)
  | taking (x : σ) (rest : List σ)
  | processing
  | exited
  | aborted
  deriving DecidableEq, Repr

inductive StopPoint where
  | before
  | disabled
  | atCond
  | atNotify
  | notified
  | joining
  | done
  deriving DecidableEq, Repr

structure Config (γ σ : Type) where
  inSlots : γ → List σ
  maxCacheNum : σ → Int
  modeWhenFull : σ → InputMode
  separate : ∀ c d x, x ∈ inSlots c → x ∈ inSlots d → c = d

/-- The last six fields are histories: what was sent, put into a queue, taken out of it (by
the coroutine or by a sender), fetched in the round so far, and given to `process`. -/
structure State (π γ σ β : Type) where
  sender : π → SendPoint σ β
  coroutine : γ → RunPoint σ
  stopper : StopPoint
  queue : σ → List (π × β)
  enable : Bool
  quit : Bool
  runTimes : Int
  sent : π → σ → List β
  pushed : σ → List (π × β)
  popped : σ → List ((π × β) × Bool)
  inVector : γ → List (σ × (π × β))
  delivered : γ → List (σ × (π × β))

namespace SendPoint
variable {σ β : Type}

def slot : SendPoint σ β → Option σ
  | holding x _ | regained x _ _ | pushing x _ | pushed x => some x
  | _ => none

def inCond : SendPoint σ β → Bool
  | atNotify | notified => true
  | _ => false

def pending : SendPoint σ β → Bool
  | pushed _ | atCond | atNotify => true
  | _ => false

def carried : SendPoint σ β → Option (σ × β)
  | atLock x b | holding x b | sleeping x b | atRelock x b _ | regained x b _ | pushing x b =>
    some (x, b)
  | _ => none

/-- The full slot a thread waits at. -/
def blockedAt : SendPoint σ β → Option σ
  | sleeping x _ | atRelock x _ _ | regained x _ _ => some x
  | _ => none

/-- The slot a thread has found room in and will put its buffer into. -/
def committed : SendPoint σ β → Option σ
  | atRelock x _ true | regained x _ true | pushing x _ => some x
  | _ => none

end SendPoint

namespace RunPoint
variable {σ : Type}

def slot : RunPoint σ → Option σ
  | taking x _ => some x
  | _ => none

def inCond : RunPoint σ → Bool
  | scanning _ _ | leaving => true
  | _ => false

def ahead : RunPoint σ → List σ
  | scanning rest _ | visiting rest => rest
  | testEnable x rest | atLock x rest | taking x rest => x :: rest
  | _ => []

def wake : RunPoint σ → RunPoint σ
  | waiting => woken
  | r => r

end RunPoint

def StopPoint.inCond : StopPoint → Bool
  | .atNotify | .notified => true
  | _ => false

section Model
variable {π γ σ β : Type} [Fintype π] [DecidableEq π] [Fintype γ] [DecidableEq γ] [DecidableEq σ]

namespace State

def slotFree (s : State π γ σ β) (x : σ) : Prop :=
  (∀ p, (s.sender p).slot ≠ some x) ∧ ∀ c, (s.coroutine c).slot ≠ some x

instance (s : State π γ σ β) (x : σ) : Decidable (s.slotFree x) :=
  inferInstanceAs (Decidable (_ ∧ _))

def condFree (s : State π γ σ β) : Prop :=
  (∀ p, (s.sender p).inCond = false) ∧ (∀ c, (s.coroutine c).inCond = false) ∧
    s.stopper.inCond = false

instance (s : State π γ σ β) : Decidable s.condFree := inferInstanceAs (Decidable (_ ∧ _ ∧ _))

def setSender (s : State π γ σ β) (p : π) (q : SendPoint σ β) : State π γ σ β :=
  { s with sender := Function.update s.sender p q }

def setCoroutine (s : State π γ σ β) (c : γ) (r : RunPoint σ) : State π γ σ β :=
  { s with coroutine := Function.update s.coroutine c r }

def notify (s : State π γ σ β) : State π γ σ β :=
  { s with coroutine := fun c => (s.coroutine c).wake }

def push (s : State π γ σ β) (x : σ) (item : π × β) : State π γ σ β :=
  { s with
    queue := Function.update s.queue x (s.queue x ++ [item])
    pushed := Function.update s.pushed x (s.pushed x ++ [item]) }

def pop (s : State π γ σ β) (x : σ) (item : π × β) (rest : List (π × β)) (byCoroutine : Bool) :
    State π γ σ β :=
  { s with
    queue := Function.update s.queue x rest
    popped := Function.update s.popped x (s.popped x ++ [(item, byCoroutine)]) }

end State

variable (cfg : Config γ σ)

def full (s : State π γ σ β) (x : σ) : Prop :=
  0 < cfg.maxCacheNum x ∧ cfg.maxCacheNum x ≤ (s.queue x).length

instance (s : State π γ σ β) (x : σ) : Decidable (full cfg s x) :=
  inferInstanceAs (Decidable (_ ∧ _))

def sendInput (s : State π γ σ β) (p : π) (x : σ) (b : β) : Option (State π γ σ β) :=
  match s.sender p with
  | .idle =>
    if s.enable then
      some ({ s with
        sent := Function.update s.sent p (Function.update (s.sent p) x (s.sent p x ++ [b])) }.setSender
          p (.atLock x b))
    else some s
  | _ => none

/-- The next step of a thread in `ASyncSendInputCommonBehavior`. -/
def sendStep (s : State π γ σ β) (p : π) : Option (State π γ σ β) :=
  match s.sender p with
  | .idle => none
  | .atLock x b => if s.slotFree x then some (s.setSender p (.holding x b)) else none
  | .holding x b =>
    if full cfg s x then
      match cfg.modeWhenFull x, s.queue x with
      | .blocking, _ => some (s.setSender p (.sleeping x b))
      | .dropFront, item :: rest => some ((s.pop x item rest false).setSender p (.pushing x b))
      | .dropFront, [] => none
      | .dropCurrent, _ => some (s.setSender p .idle)
    else some (s.setSender p (.pushing x b))
  | .sleeping x b =>
    some (s.setSender p (.atRelock x b (decide ((s.queue x).length < cfg.maxCacheNum x))))
  | .atRelock x b room =>
    if s.slotFree x then some (s.setSender p (.regained x b room)) else none
  | .regained x b room =>
    if s.enable then some (s.setSender p (if room then .pushing x b else .sleeping x b))
    else some (s.setSender p .idle)
  | .pushing x b => some ((s.push x (p, b)).setSender p (.pushed x))
  | .pushed _ => some (s.setSender p .atCond)
  | .atCond => if s.condFree then some (s.setSender p .atNotify) else none
  | .atNotify => some (s.notify.setSender p .notified)
  | .notified => some (s.setSender p .idle)

/-- The next step of a coroutine: `WhileRun`, `RunOnce` and `ASyncFetchInputCommon`. -/
def runStep (s : State π γ σ β) (c : γ) : Option (State π γ σ β) :=
  match s.coroutine c with
  | .testQuit => some (s.setCoroutine c (if s.quit then .exited else .atCond))
  | .atCond => if s.condFree then some (s.setCoroutine c (.scanning (cfg.inSlots c) true)) else none
  | .scanning (x :: rest) empty =>
    some (s.setCoroutine c (.scanning rest (empty && (s.queue x).isEmpty)))
  | .scanning [] empty => some (s.setCoroutine c (if empty then .waiting else .leaving))
  | .waiting => none
  | .woken => if s.condFree then some (s.setCoroutine c .leaving) else none
  | .leaving => some (s.setCoroutine c (.visiting (cfg.inSlots c)))
  | .visiting (x :: rest) =>
    some (s.setCoroutine c (if (s.queue x).isEmpty then .visiting rest else .testEnable x rest))
  | .visiting [] => some (s.setCoroutine c .processing)
  | .testEnable x rest =>
    if s.enable then some (s.setCoroutine c (.atLock x rest))
    else some ({ s with inVector := Function.update s.inVector c [] }.setCoroutine c .processing)
  | .atLock x rest => if s.slotFree x then some (s.setCoroutine c (.taking x rest)) else none
  | .taking x rest =>
    match s.queue x with
    | [] => some (s.setCoroutine c .aborted)
    | item :: left =>
      some ({ s.pop x item left true with
        inVector := Function.update s.inVector c (s.inVector c ++ [(x, item)]) }.setCoroutine c
          (.visiting rest))
  | .processing =>
    some ({ s with
      runTimes := if 0 < s.runTimes then s.runTimes - 1 else s.runTimes
      delivered := if s.runTimes = 0 then s.delivered
        else Function.update s.delivered c (s.delivered c ++ s.inVector c)
      inVector := Function.update s.inVector c [] }.setCoroutine c .testQuit)
  | .exited => none
  | .aborted => none

def stopStep (s : State π γ σ β) : Option (State π γ σ β) :=
  match s.stopper with
  | .before => some { s with enable := false, stopper := .disabled }
  | .disabled => some { s with quit := true, stopper := .atCond }
  | .atCond => if s.condFree then some { s with stopper := .atNotify } else none
  | .atNotify => some { s.notify with stopper := .notified }
  | .notified => some { s with stopper := .joining }
  | .joining => if ∀ c, s.coroutine c = .exited then some { s with stopper := .done } else none
  | .done => none

/-- A wait may also end without a notification. -/
def wakeStep (s : State π γ σ β) (c : γ) : Option (State π γ σ β) :=
  if s.coroutine c = .waiting then some (s.setCoroutine c .woken) else none

inductive Turn (π γ σ β : Type) where
  | call (p : π) (x : σ) (b : β)
  | send (p : π)
  | run (c : γ)
  | wake (c : γ)
  | disable
  | stop

def step (s : State π γ σ β) : Turn π γ σ β → Option (State π γ σ β)
  | .call p x b => sendInput s p x b
  | .send p => sendStep cfg s p
  | .run c => runStep cfg s c
  | .wake c => wakeStep s c
  | .disable => some { s with enable := false }
  | .stop => stopStep s

def initial (runTimes : Int) : State π γ σ β where
  sender _ := .idle
  coroutine _ := .testQuit
  stopper := .before
  queue _ := []
  enable := true
  quit := false
  runTimes := runTimes
  sent _ _ := []
  pushed _ := []
  popped _ := []
  inVector _ := []
  delivered _ := []

end Model

section Cases
variable {π γ σ β : Type} (cfg : Config γ σ)

inductive Quiet (s : State π γ σ β) (p : π) : SendPoint σ β → Prop where
  | lock (x : σ) (b : β) : s.sender p = .atLock x b → s.slotFree x → Quiet s p (.holding x b)
  | block (x : σ) (b : β) : s.sender p = .holding x b → full cfg s x →
      cfg.modeWhenFull x = .blocking → Quiet s p (.sleeping x b)
  | refuse (x : σ) (b : β) : s.sender p = .holding x b → full cfg s x →
      cfg.modeWhenFull x = .dropCurrent → Quiet s p .idle
  | fits (x : σ) (b : β) : s.sender p = .holding x b → ¬ full cfg s x → Quiet s p (.pushing x b)
  | test (x : σ) (b : β) : s.sender p = .sleeping x b →
      Quiet s p (.atRelock x b (decide ((s.queue x).length < cfg.maxCacheNum x)))
  | relock (x : σ) (b : β) (room : Bool) : s.sender p = .atRelock x b room → s.slotFree x →
      Quiet s p (.regained x b room)
  | resume (x : σ) (b : β) : s.sender p = .regained x b true → s.enable = true →
      Quiet s p (.pushing x b)
  | again (x : σ) (b : β) : s.sender p = .regained x b false → s.enable = true →
      Quiet s p (.sleeping x b)
  | leave (x : σ) (b : β) (room : Bool) : s.sender p = .regained x b room → s.enable = false →
      Quiet s p .idle
  | unlock (x : σ) : s.sender p = .pushed x → Quiet s p .atCond
  | lockCond : s.sender p = .atCond → s.condFree → Quiet s p .atNotify
  | unlockCond : s.sender p = .notified → Quiet s p .idle

/-- Everything a sending thread can do in one step. -/
theorem sendStep_cases [Fintype π] [DecidableEq π] [Fintype γ] [DecidableEq σ]
    (s t : State π γ σ β) (p : π) (taken : sendStep cfg s p = some t) :
    (∃ q, Quiet cfg s p q ∧ t = s.setSender p q) ∨
    (∃ x b item rest, s.sender p = .holding x b ∧ full cfg s x ∧
      cfg.modeWhenFull x = .dropFront ∧ s.queue x = item :: rest ∧
      t = (s.pop x item rest false).setSender p (.pushing x b)) ∨
    (∃ x b, s.sender p = .pushing x b ∧ t = (s.push x (p, b)).setSender p (.pushed x)) ∨
    (s.sender p = .atNotify ∧ t = s.notify.setSender p .notified) := by
  unfold sendStep at taken
  split at taken
  case h_1 => cases taken
  case h_2 x b here =>
    split at taken
    · next free => cases taken; exact .inl ⟨_, .lock x b here free, rfl⟩
    · cases taken
  case h_3 x b here =>
    split at taken
    · next isFull =>
      split at taken
      · next mode => cases taken; exact .inl ⟨_, .block x b here isFull mode, rfl⟩
      · next item rest mode front =>
        cases taken
        exact .inr (.inl ⟨x, b, item, rest, here, isFull, mode, front, rfl⟩)
      · cases taken
      · next mode => cases taken; exact .inl ⟨_, .refuse x b here isFull mode, rfl⟩
    · next notFull => cases taken; exact .inl ⟨_, .fits x b here notFull, rfl⟩
  case h_4 x b here => cases taken; exact .inl ⟨_, .test x b here, rfl⟩
  case h_5 x b room here =>
    split at taken
    · next free => cases taken; exact .inl ⟨_, .relock x b room here free, rfl⟩
    · cases taken
  case h_6 x b room here =>
    split at taken
    · next on =>
      cases taken
      cases room with
      | true => exact .inl ⟨_, .resume x b here on, rfl⟩
      | false => exact .inl ⟨_, .again x b here on, rfl⟩
    · next off =>
      cases taken
      exact .inl ⟨_, .leave x b room here (by simpa using off), rfl⟩
  case h_7 x b here => cases taken; exact .inr (.inr (.inl ⟨x, b, here, rfl⟩))
  case h_8 x here => cases taken; exact .inl ⟨_, .unlock x here, rfl⟩
  case h_9 here =>
    split at taken
    · next free => cases taken; exact .inl ⟨_, .lockCond here free, rfl⟩
    · cases taken
  case h_10 here => cases taken; exact .inr (.inr (.inr ⟨here, rfl⟩))
  case h_11 here => cases taken; exact .inl ⟨_, .unlockCond here, rfl⟩

inductive Silent (s : State π γ σ β) (c : γ) : RunPoint σ → Prop where
  | quits : s.coroutine c = .testQuit → s.quit = true → Silent s c .exited
  | goes : s.coroutine c = .testQuit → s.quit = false → Silent s c .atCond
  | lockCond : s.coroutine c = .atCond → s.condFree → Silent s c (.scanning (cfg.inSlots c) true)
  | scan (x : σ) (rest : List σ) (empty : Bool) : s.coroutine c = .scanning (x :: rest) empty →
      Silent s c (.scanning rest (empty && (s.queue x).isEmpty))
  | wait : s.coroutine c = .scanning [] true → Silent s c .waiting
  | found : s.coroutine c = .scanning [] false → Silent s c .leaving
  | relock : s.coroutine c = .woken → s.condFree → Silent s c .leaving
  | unlockCond : s.coroutine c = .leaving → Silent s c (.visiting (cfg.inSlots c))
  | skip (x : σ) (rest : List σ) : s.coroutine c = .visiting (x :: rest) → s.queue x = [] →
      Silent s c (.visiting rest)
  | stay (x : σ) (rest : List σ) : s.coroutine c = .visiting (x :: rest) → s.queue x ≠ [] →
      Silent s c (.testEnable x rest)
  | visited : s.coroutine c = .visiting [] → Silent s c .processing
  | enabled (x : σ) (rest : List σ) : s.coroutine c = .testEnable x rest → s.enable = true →
      Silent s c (.atLock x rest)
  | lock (x : σ) (rest : List σ) : s.coroutine c = .atLock x rest → s.slotFree x →
      Silent s c (.taking x rest)
  | abort (x : σ) (rest : List σ) : s.coroutine c = .taking x rest → s.queue x = [] →
      Silent s c .aborted

theorem runStep_cases [Fintype π] [Fintype γ] [DecidableEq γ] [DecidableEq σ]
    (s t : State π γ σ β) (c : γ) (taken : runStep cfg s c = some t) :
    (∃ r, Silent cfg s c r ∧ t = s.setCoroutine c r) ∨
    (∃ x rest, s.coroutine c = .testEnable x rest ∧ s.enable = false ∧
      t = { s with inVector := Function.update s.inVector c [] }.setCoroutine c .processing) ∨
    (∃ x rest item left, s.coroutine c = .taking x rest ∧ s.queue x = item :: left ∧
      t = { s.pop x item left true with
        inVector := Function.update s.inVector c (s.inVector c ++ [(x, item)]) }.setCoroutine c
          (.visiting rest)) ∨
    (s.coroutine c = .processing ∧
      t = { s with
        runTimes := if 0 < s.runTimes then s.runTimes - 1 else s.runTimes
        delivered := if s.runTimes = 0 then s.delivered
          else Function.update s.delivered c (s.delivered c ++ s.inVector c)
        inVector := Function.update s.inVector c [] }.setCoroutine c .testQuit) := by
  unfold runStep at taken
  split at taken
  case h_1 here =>
    cases taken
    cases quit : s.quit with
    | true => exact .inl ⟨_, .quits here quit, rfl⟩
    | false => exact .inl ⟨_, .goes here quit, rfl⟩
  case h_2 here =>
    split at taken
    · next free => cases taken; exact .inl ⟨_, .lockCond here free, rfl⟩
    · cases taken
  case h_3 x rest empty here => cases taken; exact .inl ⟨_, .scan x rest empty here, rfl⟩
  case h_4 empty here =>
    cases taken
    cases empty with
    | true => exact .inl ⟨_, .wait here, rfl⟩
    | false => exact .inl ⟨_, .found here, rfl⟩
  case h_5 => cases taken
  case h_6 here =>
    split at taken
    · next free => cases taken; exact .inl ⟨_, .relock here free, rfl⟩
    · cases taken
  case h_7 here => cases taken; exact .inl ⟨_, .unlockCond here, rfl⟩
  case h_8 x rest here =>
    cases taken
    cases queue : s.queue x with
    | nil => exact .inl ⟨_, .skip x rest here queue, rfl⟩
    | cons item left => exact .inl ⟨_, .stay x rest here (by simp [queue]), rfl⟩
  case h_9 here => cases taken; exact .inl ⟨_, .visited here, rfl⟩
  case h_10 x rest here =>
    split at taken
    · next on => cases taken; exact .inl ⟨_, .enabled x rest here on, rfl⟩
    · next off => cases taken; exact .inr (.inl ⟨x, rest, here, by simpa using off, rfl⟩)
  case h_11 x rest here =>
    split at taken
    · next free => cases taken; exact .inl ⟨_, .lock x rest here free, rfl⟩
    · cases taken
  case h_12 x rest here =>
    split at taken
    · next none => cases taken; exact .inl ⟨_, .abort x rest here none, rfl⟩
    · next item left front =>
      cases taken
      exact .inr (.inr (.inl ⟨x, rest, item, left, here, front, rfl⟩))
  case h_13 here => cases taken; exact .inr (.inr (.inr ⟨here, rfl⟩))
  case h_14 => cases taken
  case h_15 => cases taken

theorem quiet_carried [DecidableEq σ]
    (s : State π γ σ β) (p : π) (q : SendPoint σ β) (quiet : Quiet cfg s p q)
    (on : s.enable = true) (x : σ) (blocking : cfg.modeWhenFull x = .blocking) :
    (q.carried.toList.filter fun e => e.1 = x) =
      (s.sender p).carried.toList.filter fun e => e.1 = x := by
  cases quiet with
  | refuse y b here _ mode =>
    have other : y ≠ x := by
      rintro rfl
      rw [mode] at blocking
      cases blocking
    simp [here, SendPoint.carried, other]
  | leave y b room here off => simp [on] at off
  | lock y b here _ | block y b here _ _ | fits y b here _ | test y b here | relock y b _ here _
  | resume y b here _ | again y b here _ | unlock y here | lockCond here _ | unlockCond here =>
    simp [here, SendPoint.carried]

theorem silent_ahead (s : State π γ σ β) (c : γ) (r : RunPoint σ) (silent : Silent cfg s c r)
    (inside : ∀ x ∈ (s.coroutine c).ahead, x ∈ cfg.inSlots c) : ∀ x ∈ r.ahead, x ∈ cfg.inSlots c := by
  cases silent <;> simp_all [RunPoint.ahead]

theorem wake_ahead (r : RunPoint σ) : r.wake.ahead = r.ahead := by
  cases r <;> rfl

end Cases

section History
variable {π γ σ β : Type} [DecidableEq π] [DecidableEq σ] (cfg : Config γ σ)

/-- What the histories say about each other in every reachable state. -/
structure History (s : State π γ σ β) : Prop where
  ahead : ∀ c x, x ∈ (s.coroutine c).ahead → x ∈ cfg.inSlots c
  conserved : ∀ x, (s.popped x).map Prod.fst ++ s.queue x = s.pushed x
  dropped : ∀ x item, (item, false) ∈ s.popped x → cfg.modeWhenFull x = .dropFront
  fetched : s.enable = true → s.runTimes < 0 → ∀ c x, x ∈ cfg.inSlots c →
    ((s.popped x).filter Prod.snd).map Prod.fst =
      ((s.delivered c ++ s.inVector c).filter fun e => e.1 = x).map Prod.snd
  carried : s.enable = true → ∀ x, cfg.modeWhenFull x = .blocking → ∀ p,
    s.sent p x = (((s.pushed x).filter fun e => e.1 = p).map Prod.snd) ++
      ((s.sender p).carried.toList.filter fun e => e.1 = x).map Prod.snd

theorem history_initial (runTimes : Int) : History cfg (initial runTimes : State π γ σ β) := by
  constructor <;> simp [initial, RunPoint.ahead, SendPoint.carried]

theorem history_call (s t : State π γ σ β) (p : π) (x : σ) (b : β)
    (taken : sendInput s p x b = some t) (h : History cfg s) : History cfg t := by
  unfold sendInput at taken
  split at taken
  · next idle =>
    split at taken
    · cases taken
      refine ⟨h.ahead, h.conserved, h.dropped, h.fetched, ?_⟩
      intro on y blocking q
      have before := h.carried on y blocking q
      by_cases same : q = p
      · subst same
        by_cases here : y = x
        · subst here
          simp [State.setSender, SendPoint.carried, before, idle]
        · simp [State.setSender, SendPoint.carried, before, idle, here, Ne.symm here]
      · simpa [State.setSender, same] using before
    · cases taken
      exact h
  · cases taken

theorem history_send [Fintype π] [Fintype γ]
    (s t : State π γ σ β) (p : π) (taken : sendStep cfg s p = some t)
    (h : History cfg s) : History cfg t := by
  rcases sendStep_cases cfg s t p taken with ⟨q, quiet, rfl⟩ |
    ⟨x, b, item, rest, here, isFull, mode, front, rfl⟩ | ⟨x, b, here, rfl⟩ | ⟨here, rfl⟩
  · refine ⟨h.ahead, h.conserved, h.dropped, h.fetched, ?_⟩
    intro on x blocking p'
    have before := h.carried on x blocking p'
    by_cases same : p' = p
    · subst same
      simp only [State.setSender, Function.update_self, quiet_carried cfg s p' q quiet on x blocking]
      exact before
    · simpa [State.setSender, same] using before
  · refine ⟨h.ahead, ?_, ?_, ?_, ?_⟩
    · intro y
      have before := h.conserved y
      by_cases same : y = x
      · subst same
        simpa [State.setSender, State.pop, front] using before
      · simpa [State.setSender, State.pop, same] using before
    · intro y other member
      by_cases same : y = x
      · exact same ▸ mode
      · exact h.dropped y other (by simpa [State.setSender, State.pop, same] using member)
    · intro on endless c y inside
      have before := h.fetched on endless c y inside
      by_cases same : y = x
      · subst same
        simpa [State.setSender, State.pop] using before
      · simpa [State.setSender, State.pop, same] using before
    · intro on y blocking p'
      have before := h.carried on y blocking p'
      by_cases same : p' = p
      · subst same
        simpa [State.setSender, State.pop, SendPoint.carried, here] using before
      · simpa [State.setSender, State.pop, same] using before
  · refine ⟨h.ahead, ?_, h.dropped, h.fetched, ?_⟩
    · intro y
      have before := h.conserved y
      by_cases same : y = x
      · subst same
        simp [State.setSender, State.push, ← before]
      · simpa [State.setSender, State.push, same] using before
    · intro on y blocking p'
      have before := h.carried on y blocking p'
      by_cases same : p' = p
      · subst same
        by_cases slot : y = x
        · subst slot
          simpa [State.setSender, State.push, SendPoint.carried, here] using before
        · simpa [State.setSender, State.push, SendPoint.carried, here, slot, Ne.symm slot] using before
      · by_cases slot : y = x
        · subst slot
          simpa [State.setSender, State.push, same, Ne.symm same] using before
        · simpa [State.setSender, State.push, same, slot] using before
  · refine ⟨?_, h.conserved, h.dropped, h.fetched, ?_⟩
    · intro c x member
      refine h.ahead c x ?_
      simp only [State.setSender, State.notify] at member
      cases point : s.coroutine c <;> simp_all [RunPoint.wake, RunPoint.ahead]
    · intro on x blocking p'
      have before := h.carried on x blocking p'
      by_cases same : p' = p
      · subst same
        simpa [State.setSender, State.notify, SendPoint.carried, here] using before
      · simpa [State.setSender, State.notify, same] using before

theorem history_run [Fintype π] [Fintype γ] [DecidableEq γ] (s t : State π γ σ β) (c : γ)
    (taken : runStep cfg s c = some t)
    (h : History cfg s) : History cfg t := by
  have stays (r : RunPoint σ) (inside : ∀ x ∈ r.ahead, x ∈ cfg.inSlots c) :
      ∀ d x, x ∈ (Function.update s.coroutine c r d).ahead → x ∈ cfg.inSlots d := by
    intro d x member
    by_cases same : d = c
    · subst same
      exact inside x (by simpa using member)
    · exact h.ahead d x (by simpa [same] using member)
  rcases runStep_cases cfg s t c taken with ⟨r, silent, rfl⟩ | ⟨x, rest, here, off, rfl⟩ |
    ⟨x, rest, item, left, here, front, rfl⟩ | ⟨here, rfl⟩
  · exact ⟨stays r (silent_ahead cfg s c r silent (h.ahead c)), h.conserved, h.dropped, h.fetched,
      h.carried⟩
  · refine ⟨stays .processing (by simp [RunPoint.ahead]), h.conserved, h.dropped, ?_, h.carried⟩
    intro on
    simp [State.setCoroutine, off] at on
  · have own : ∀ y ∈ x :: rest, y ∈ cfg.inSlots c := by
      intro y member
      exact h.ahead c y (by simpa [here, RunPoint.ahead] using member)
    refine ⟨stays (.visiting rest) fun y member => own y (List.mem_cons_of_mem x member), ?_, ?_, ?_,
      h.carried⟩
    · intro y
      have before := h.conserved y
      by_cases same : y = x
      · subst same
        simpa [State.setCoroutine, State.pop, front] using before
      · simpa [State.setCoroutine, State.pop, same] using before
    · intro y other member
      refine h.dropped y other ?_
      by_cases same : y = x
      · subst same
        simpa [State.setCoroutine, State.pop] using member
      · simpa [State.setCoroutine, State.pop, same] using member
    · intro on endless d y inside
      have before := h.fetched on endless d y inside
      by_cases slot : y = x
      · subst slot
        -- only this coroutine fetches from the slot
        have mine : d = c := cfg.separate d c y inside (own y (by simp))
        subst mine
        simp only [List.filter_append, List.map_append] at before
        simp [State.setCoroutine, State.pop, before]
      · by_cases same : d = c
        · subst same
          simpa [State.setCoroutine, State.pop, slot, Ne.symm slot] using before
        · simpa [State.setCoroutine, State.pop, slot, same] using before
  · refine ⟨stays .testQuit (by simp [RunPoint.ahead]), h.conserved, h.dropped, ?_, h.carried⟩
    intro on endless d y inside
    have negative : s.runTimes < 0 := by
      simp only [State.setCoroutine] at endless
      split at endless <;> omega
    have before := h.fetched on negative d y inside
    have running : s.runTimes ≠ 0 := by omega
    by_cases same : d = c
    · subst same
      simpa [State.setCoroutine, running] using before
    · simpa [State.setCoroutine, running, same] using before

theorem history_flags (s : State π γ σ β) (coroutine : γ → RunPoint σ) (stopper : StopPoint)
    (enable quit : Bool) (h : History cfg s)
    (ahead : ∀ c, (coroutine c).ahead ⊆ (s.coroutine c).ahead) (on : enable = true → s.enable = true) :
    History cfg { s with
      coroutine := coroutine, stopper := stopper, enable := enable, quit := quit } :=
  ⟨fun c x member => h.ahead c x (ahead c member), h.conserved, h.dropped,
    fun enabled => h.fetched (on enabled), fun enabled => h.carried (on enabled)⟩

theorem history_stop [Fintype π] [Fintype γ]
    (s t : State π γ σ β) (taken : stopStep s = some t) (h : History cfg s) :
    History cfg t := by
  have same : ∀ c, (s.coroutine c).ahead ⊆ (s.coroutine c).ahead := fun c => List.Subset.refl _
  unfold stopStep at taken
  split at taken
  case h_1 =>
    cases taken
    exact history_flags cfg s s.coroutine .disabled false s.quit h same (fun off => by cases off)
  case h_2 => cases taken; exact history_flags cfg s s.coroutine .atCond s.enable true h same id
  case h_3 =>
    split at taken
    · cases taken
      exact history_flags cfg s s.coroutine .atNotify s.enable s.quit h same id
    · cases taken
  case h_4 =>
    cases taken
    exact history_flags cfg s (fun c => (s.coroutine c).wake) .notified s.enable s.quit h
      (fun c => by rw [wake_ahead]; exact List.Subset.refl _) id
  case h_5 => cases taken; exact history_flags cfg s s.coroutine .joining s.enable s.quit h same id
  case h_6 =>
    split at taken
    · cases taken
      exact history_flags cfg s s.coroutine .done s.enable s.quit h same id
    · cases taken
  case h_7 => cases taken

variable [Fintype π] [Fintype γ] [DecidableEq γ]

theorem history_step (s t : State π γ σ β) (turn : Turn π γ σ β) (h : History cfg s)
    (taken : step cfg s turn = some t) : History cfg t := by
  cases turn with
  | call p x b => exact history_call cfg s t p x b taken h
  | send p => exact history_send cfg s t p taken h
  | run c => exact history_run cfg s t c taken h
  | wake c =>
    simp only [step, wakeStep] at taken
    split at taken
    · cases taken
      refine history_flags cfg s _ s.stopper s.enable s.quit h ?_ id
      intro d
      by_cases same : d = c
      · simp [same, RunPoint.ahead]
      · simp [same]
    · cases taken
  | disable =>
    cases taken
    exact history_flags cfg s s.coroutine s.stopper false s.quit h (fun c => List.Subset.refl _)
      (fun off => by cases off)
  | stop => exact history_stop cfg s t taken h

theorem history_run_of (runTimes : Int) (turns : List (Turn π γ σ β)) (s : State π γ σ β)
    (reached : exec (step cfg) (initial runTimes) turns = some s) : History cfg s :=
  exec_induction (step cfg) (initial runTimes) (History cfg) (history_initial cfg runTimes)
    (fun s turn t h taken => history_step cfg s t turn h taken) turns s reached

end History

section Runs
variable {π γ σ β : Type} [Fintype π] [DecidableEq π] [Fintype γ] [DecidableEq γ] [DecidableEq σ]
  (cfg : Config γ σ)

/-- While a flow is enabled and runs without a limit, a blocking slot neither loses, repeats
nor reorders a sender's buffers: those the sender has sent are, in order, those given to
`process`, those fetched in the present round, those in the queue, and the one it still
carries. -/
theorem blocking_slot_in_order (runTimes : Int) (turns : List (Turn π γ σ β)) (s : State π γ σ β)
    (reached : exec (step cfg) (initial runTimes) turns = some s) (on : s.enable = true)
    (endless : s.runTimes < 0) (c : γ) (x : σ) (inside : x ∈ cfg.inSlots c)
    (blocking : cfg.modeWhenFull x = .blocking) (p : π) :
    s.sent p x =
      ((((s.delivered c ++ s.inVector c).filter fun e => e.1 = x).map Prod.snd ++ s.queue x).filter
        fun e => e.1 = p).map Prod.snd ++
      ((s.sender p).carried.toList.filter fun e => e.1 = x).map Prod.snd := by
  have h := history_run_of cfg runTimes turns s reached
  have all : (s.popped x).filter Prod.snd = s.popped x := by
    rw [List.filter_eq_self]
    rintro ⟨item, byCoroutine⟩ member
    cases byCoroutine with
    | true => rfl
    | false =>
      have mode := h.dropped x item member
      rw [blocking] at mode
      cases mode
  rw [h.carried on x blocking p, ← h.conserved x, ← h.fetched on endless c x inside, all]

def oneSlot : Config Unit Unit where
  inSlots _ := [()]
  maxCacheNum _ := 1
  modeWhenFull _ := .blocking
  separate _ _ _ _ _ := rfl

def twoBuffers : List (Turn Unit Unit Unit Nat) :=
  .call () () 7 :: List.replicate 7 (.send ()) ++ List.replicate 9 (.run ()) ++
    [.call () () 8, .send ()]

theorem blocking_slot_two_buffers :
    ∃ s, exec (step oneSlot) (initial (-1)) twoBuffers = some s ∧ s.enable = true ∧
      s.sent () () = [7, 8] ∧
      s.sent () () =
        ((((s.delivered () ++ s.inVector ()).filter fun e => e.1 = ()).map Prod.snd ++
          s.queue ()).filter fun e => e.1 = ()).map Prod.snd ++
        ((s.sender ()).carried.toList.filter fun e => e.1 = ()).map Prod.snd := by
  refine ⟨(exec (step oneSlot) (initial (-1)) twoBuffers).get (by decide),
    (Option.some_get _).symm, by decide, by decide, ?_⟩
  exact blocking_slot_in_order oneSlot (-1) twoBuffers _ (Option.some_get _).symm (by decide)
    (by decide) () () (by decide) (by decide) ()

/-- In every mode, and whether or not the flow is disabled, what is taken out of a queue and
what is in it make up what was put into it, in that order; buffers leave a queue other than
through the coroutine only at slots that drop the front. -/
theorem queue_conserved (runTimes : Int) (turns : List (Turn π γ σ β)) (s : State π γ σ β)
    (reached : exec (step cfg) (initial runTimes) turns = some s) (x : σ) :
    (s.popped x).map Prod.fst ++ s.queue x = s.pushed x ∧
      ∀ item, (item, false) ∈ s.popped x → cfg.modeWhenFull x = .dropFront :=
  ⟨(history_run_of cfg runTimes turns s reached).conserved x,
    (history_run_of cfg runTimes turns s reached).dropped x⟩

end Runs

end WfyApp.FlowInput
