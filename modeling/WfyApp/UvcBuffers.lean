import WfyApp.StepSystem

/-! The buffers that aiserver lends to the UVC process (shm_control_uvc.cpp): messages are
handled one after the other by the receive thread, buffers are sent by another thread. The
peer returns each transmitted message at most once, unchanged and after any delay. Accepted
sends are numbered; the numbers and the record of releases are not part of the program. -/

namespace WfyApp.UvcBuffers
open StepSystem

structure Entry (B : Type) where
  buffer : B
  number : Nat
deriving DecidableEq

structure Message (B : Type) where
  number : Nat
  privData : B
  seq : Int
deriving DecidableEq

inductive Cause where
  | returned (number : Nat)
  | cleared
deriving DecidableEq

structure Release where
  number : Nat
  cause : Cause
deriving DecidableEq

structure Ledger (B : Type) where
  bufList : List (Entry B)
  inFlight : List (Message B)
  accepted : Nat
  released : List Release
deriving DecidableEq

/-- What is left of `doUpdateCameraParams`; the receive thread is idle between messages. -/
inductive Phase where
  | idle
  | unexpected (width height : Int)
  | clearing (width height : Int)
  | configuring (width height : Int) (forceClear : Bool)
  | finishing (forceClear : Bool)
deriving DecidableEq

structure State (B : Type) where
  uvcRunning : Bool
  cameraWidth : Int
  cameraHeight : Int
  phase : Phase
  ledger : Ledger B
deriving DecidableEq

def State.initial (B : Type) : State B := ⟨false, -1, -1, .idle, ⟨[], [], 0, []⟩⟩

inductive Label (B : Type) where
  | send (buffer : Option B) (isFrame : Bool) (seq : Int) (pushed : Bool)
  | start
  | stop
  | recv (message : Message B)
  | config (width height : Int)
  | configStep

section Code
variable {B : Type} [DecidableEq B]

def clearUVCBuffer (k : Ledger B) : Ledger B :=
  { k with
      bufList := []
      released := k.released ++ k.bufList.map fun e => ⟨e.number, .cleared⟩ }

def doRecvUVCBuffer (m : Message B) (k : Ledger B) : Ledger B :=
  match k.bufList.find? (·.buffer = m.privData) with
  | none => { k with inFlight := k.inFlight.erase m }
  | some e =>
      { k with
          bufList := k.bufList.eraseP (·.buffer = m.privData)
          inFlight := k.inFlight.erase m
          released := k.released ++ [⟨e.number, .returned m.number⟩] }

def accept (buffer : B) (seq : Int) (pushed : Bool) (k : Ledger B) : Ledger B :=
  { k with
      bufList := k.bufList ++ [⟨buffer, k.accepted⟩]
      inFlight := if pushed then k.inFlight ++ [⟨k.accepted, buffer, seq⟩] else k.inFlight
      accepted := k.accepted + 1 }

/-- A buffer that is not accepted is given back at once. -/
def sendUVCBuffer (buffer : Option B) (isFrame : Bool) (seq : Int) (pushed : Bool) (s : State B) :
    State B :=
  match buffer with
  | none => s
  | some buffer =>
      if !isFrame then s
      else if !s.uvcRunning then s
      else { s with ledger := accept buffer seq pushed s.ledger }

def doStartUVC (s : State B) : State B := { s with uvcRunning := true }

def doStopUVC (s : State B) : State B :=
  { s with uvcRunning := false, ledger := clearUVCBuffer s.ledger }

def doUpdateCameraParams (width height : Int) (s : State B) : State B :=
  if s.uvcRunning ∧ (s.cameraWidth ≠ width ∨ s.cameraHeight ≠ height) then
    { s with phase := .unexpected width height }
  else { s with phase := .configuring width height false }

/-- A buffer may be sent between any two of the steps. -/
def continueUpdate (s : State B) : Option (State B) :=
  match s.phase with
  | .idle => none
  | .unexpected width height => some { s with uvcRunning := false, phase := .clearing width height }
  | .clearing width height =>
      some { s with ledger := clearUVCBuffer s.ledger, phase := .configuring width height true }
  | .configuring width height forceClear =>
      some { s with cameraWidth := width, cameraHeight := height, phase := .finishing forceClear }
  | .finishing forceClear =>
      some { s with uvcRunning := if forceClear then true else s.uvcRunning, phase := .idle }

def step (s : State B) : Label B → Option (State B)
  | .send buffer isFrame seq pushed => some (sendUVCBuffer buffer isFrame seq pushed s)
  | .start => if s.phase = .idle then some (doStartUVC s) else none
  | .stop => if s.phase = .idle then some (doStopUVC s) else none
  | .recv m =>
      if s.phase = .idle ∧ m ∈ s.ledger.inFlight then
        some { s with ledger := doRecvUVCBuffer m s.ledger }
      else none
  | .config width height =>
      if s.phase = .idle then some (doUpdateCameraParams width height s) else none
  | .configStep => continueUpdate s

end Code

section Ledgers
variable {B : Type}

def releases (n : Nat) (k : Ledger B) : Nat := (k.released.map Release.number).count n

def held (n : Nat) (k : Ledger B) : Nat := (k.bufList.map Entry.number).count n

/-- Each accepted send has been released once, or it is in `bufList` and has not. -/
def Accounted (k : Ledger B) : Prop :=
  ∀ n < k.accepted, releases n k = 1 ∧ held n k = 0 ∨ releases n k = 0 ∧ held n k = 1

/-- No release was caused by the message of another send. -/
def Right (k : Ledger B) : Prop :=
  ∀ r ∈ k.released, ∀ n, r.cause = .returned n → n = r.number

structure Numbered (k : Ledger B) : Prop where
  counted : ∀ n, releases n k + held n k = if n < k.accepted then 1 else 0
  sent : ∀ m ∈ k.inFlight, m.number < k.accepted
  once : (k.inFlight.map Message.number).Nodup

theorem Numbered.accounted {k : Ledger B} (numbered : Numbered k) : Accounted k := by
  intro n before
  have one := numbered.counted n
  rw [if_pos before] at one
  omega

theorem Numbered.entry_lt {k : Ledger B} (numbered : Numbered k) {e : Entry B}
    (member : e ∈ k.bufList) : e.number < k.accepted := by
  have held_pos : 0 < held e.number k := List.count_pos_iff.mpr (List.mem_map_of_mem member)
  have one := numbered.counted e.number
  by_contra beyond
  rw [if_neg beyond] at one
  omega

variable [DecidableEq B]

/-- Right now, and also if any of the outstanding messages came back next. -/
structure Sound (k : Ledger B) : Prop where
  accounted : Accounted k
  right : Right k
  steady : ∀ m ∈ k.inFlight, Right (doRecvUVCBuffer m k)

/-- The first element with the buffer of an outstanding message is that of its own send. -/
def Matched (k : Ledger B) : Prop :=
  ∀ m ∈ k.inFlight, ∀ e, k.bufList.find? (·.buffer = m.privData) = some e → m.number = e.number

theorem right_doRecvUVCBuffer_iff (k : Ledger B) (m : Message B) (right : Right k) :
    Right (doRecvUVCBuffer m k) ↔
      ∀ e, k.bufList.find? (·.buffer = m.privData) = some e → m.number = e.number := by
  rw [doRecvUVCBuffer]
  cases found : k.bufList.find? (·.buffer = m.privData) with
  | none => exact iff_of_true right (by simp)
  | some e =>
      simp only [Right, List.forall_mem_append, List.mem_singleton, forall_eq, Cause.returned.injEq,
        forall_eq', Option.some.injEq]
      exact and_iff_right right

theorem sound_iff (k : Ledger B) (numbered : Numbered k) : Sound k ↔ Right k ∧ Matched k := by
  constructor
  · rintro ⟨-, right, steady⟩
    exact ⟨right, fun m member => (right_doRecvUVCBuffer_iff k m right).mp (steady m member)⟩
  · rintro ⟨right, matched⟩
    exact ⟨numbered.accounted, right,
      fun m member => (right_doRecvUVCBuffer_iff k m right).mpr (matched m member)⟩

omit [DecidableEq B] in
theorem numbered_clearUVCBuffer (k : Ledger B) (numbered : Numbered k) : Numbered (clearUVCBuffer k) := by
  refine ⟨fun n => ?_, numbered.sent, numbered.once⟩
  have one := numbered.counted n
  simp only [releases, held, clearUVCBuffer, List.map_append, List.map_map, List.count_append,
    List.map_nil, List.count_nil, Nat.add_zero] at one ⊢
  exact one

theorem sound_clearUVCBuffer (k : Ledger B) (numbered : Numbered k) (sound : Sound k) :
    Sound (clearUVCBuffer k) := by
  rw [sound_iff _ (numbered_clearUVCBuffer k numbered)]
  refine ⟨fun r member n cause => ?_, fun m _ e found => by cases found⟩
  rcases List.mem_append.mp member with before | now
  · exact sound.right r before n cause
  · obtain ⟨e, -, rfl⟩ := List.mem_map.mp now
    cases cause

theorem bufList_split {k : Ledger B} {m : Message B} {e : Entry B}
    (found : k.bufList.find? (·.buffer = m.privData) = some e) :
    ∃ before after, k.bufList = before ++ e :: after ∧
      k.bufList.eraseP (·.buffer = m.privData) = before ++ after ∧ e.buffer = m.privData := by
  obtain ⟨own, before, after, shape, others⟩ := List.find?_eq_some_iff_append.mp found
  refine ⟨before, after, shape, ?_, by simpa using own⟩
  have first : (e :: after).eraseP (·.buffer = m.privData) = after := by
    simp only [List.eraseP_cons, own, cond_true]
  rw [shape, List.eraseP_append_right _ fun c member => by simpa using others c member, first]

theorem numbered_doRecvUVCBuffer (k : Ledger B) (m : Message B) (numbered : Numbered k) :
    Numbered (doRecvUVCBuffer m k) := by
  rw [doRecvUVCBuffer]
  have sent : ∀ m' ∈ k.inFlight.erase m, m'.number < k.accepted := fun m' member =>
    numbered.sent m' (List.mem_of_mem_erase member)
  have once : ((k.inFlight.erase m).map Message.number).Nodup :=
    (List.erase_sublist.map Message.number).nodup numbered.once
  cases found : k.bufList.find? (·.buffer = m.privData) with
  | none => exact ⟨numbered.counted, sent, once⟩
  | some e =>
      refine ⟨fun n => ?_, sent, once⟩
      obtain ⟨before, after, shape, erased, -⟩ := bufList_split found
      have one := numbered.counted n
      rw [held, shape] at one
      simp only [releases, held, erased, List.map_append, List.map_cons, List.map_nil,
        List.count_append, List.count_cons, List.count_nil] at one ⊢
      omega

theorem find_eraseP_other (list : List (Entry B)) (a b : B) (apart : a ≠ b) :
    (list.eraseP (·.buffer = a)).find? (·.buffer = b) = list.find? (·.buffer = b) := by
  induction list with
  | nil => rfl
  | cons e list ih =>
      by_cases mine : e.buffer = a
      · have other : ¬e.buffer = b := fun same => apart (mine.symm.trans same)
        rw [List.eraseP_cons_of_pos (by simpa using mine), List.find?_cons_of_neg (by simpa using other)]
      · rw [List.eraseP_cons_of_neg (by simpa using mine), List.find?_cons, List.find?_cons, ih]

/-- Two outstanding messages for one buffer: then that buffer is not in the list. -/
theorem matched_apart (k : Ledger B) (numbered : Numbered k) (matched : Matched k)
    (m m' : Message B) (member : m ∈ k.inFlight) (later : m' ∈ k.inFlight.erase m) (e : Entry B)
    (found : k.bufList.find? (·.buffer = m.privData) = some e) : m.privData ≠ m'.privData := by
  intro same
  have still : m' ∈ k.inFlight := List.mem_of_mem_erase later
  have first := matched m member e found
  rw [same] at found
  have second := matched m' still e found
  have equal : m' = m := List.inj_on_of_nodup_map numbered.once still member (second.trans first.symm)
  rw [equal] at later
  exact (List.Nodup.not_mem_erase (List.Nodup.of_map _ numbered.once)) later

theorem matched_doRecvUVCBuffer (k : Ledger B) (m : Message B) (numbered : Numbered k)
    (matched : Matched k) (member : m ∈ k.inFlight) : Matched (doRecvUVCBuffer m k) := by
  rw [doRecvUVCBuffer]
  cases found : k.bufList.find? (·.buffer = m.privData) with
  | none => exact fun m' later => matched m' (List.mem_of_mem_erase later)
  | some e =>
      intro m' later e' found'
      have apart := matched_apart k numbered matched m m' member later e found
      rw [find_eraseP_other k.bufList _ _ apart] at found'
      exact matched m' (List.mem_of_mem_erase later) e' found'

theorem sound_doRecvUVCBuffer (k : Ledger B) (m : Message B) (numbered : Numbered k)
    (sound : Sound k) (member : m ∈ k.inFlight) : Sound (doRecvUVCBuffer m k) := by
  rw [sound_iff _ (numbered_doRecvUVCBuffer k m numbered)]
  have matched := ((sound_iff k numbered).mp sound).2
  exact ⟨sound.steady m member, matched_doRecvUVCBuffer k m numbered matched member⟩

omit [DecidableEq B] in
theorem held_accept (n : Nat) (k : Ledger B) (buffer : B) (seq : Int) (pushed : Bool) :
    held n (accept buffer seq pushed k) = held n k + if k.accepted = n then 1 else 0 := by
  simp only [held, accept, List.map_append, List.map_cons, List.map_nil, List.count_append,
    List.count_cons, List.count_nil, beq_iff_eq, Nat.zero_add]

omit [DecidableEq B] in
theorem counted_accept (k : Ledger B) (buffer : B) (seq : Int) (pushed : Bool) (n : Nat)
    (one : releases n k + held n k = if n < k.accepted then 1 else 0) :
    releases n k + held n (accept buffer seq pushed k) = if n < k.accepted + 1 then 1 else 0 := by
  rw [held_accept]
  rcases Nat.lt_trichotomy n k.accepted with before | rfl | beyond
  · rw [if_pos before] at one
    rw [if_neg (by omega), if_pos (by omega)]
    exact one
  · rw [if_neg (Nat.lt_irrefl _)] at one
    rw [if_pos rfl, if_pos (Nat.lt_succ_self _)]
    omega
  · rw [if_neg (by omega)] at one
    rw [if_neg (by omega), if_neg (by omega)]
    exact one

omit [DecidableEq B] in
theorem numbered_accept (k : Ledger B) (buffer : B) (seq : Int) (pushed : Bool)
    (numbered : Numbered k) : Numbered (accept buffer seq pushed k) := by
  refine ⟨fun n => counted_accept k buffer seq pushed n (numbered.counted n), fun m member => ?_, ?_⟩
  · cases pushed with
    | false => exact Nat.lt_succ_of_lt (numbered.sent m member)
    | true =>
        rcases List.mem_append.mp member with before | now
        · exact Nat.lt_succ_of_lt (numbered.sent m before)
        · rw [List.mem_singleton.mp now]
          exact Nat.lt_succ_self _
  · cases pushed with
    | false => exact numbered.once
    | true =>
        have new : k.accepted ∉ k.inFlight.map Message.number := by
          intro member
          obtain ⟨m, inside, same⟩ := List.mem_map.mp member
          exact absurd (numbered.sent m inside) (by omega)
        simp only [accept, if_true, List.map_append, List.map_cons, List.map_nil]
        exact List.nodup_append'.mpr ⟨numbered.once, List.nodup_singleton _,
          List.disjoint_singleton.mpr new⟩

/-- A send that no outstanding message can be mistaken for: if the buffer is in the list
its message is not transmitted, and if it is not, no earlier message has that buffer. -/
def Fresh (k : Ledger B) (buffer : B) (pushed : Bool) : Prop :=
  (buffer ∈ k.bufList.map Entry.buffer → pushed = false) ∧
    (buffer ∉ k.bufList.map Entry.buffer → ∀ m ∈ k.inFlight, m.privData ≠ buffer)

theorem find_eq_none_iff (list : List (Entry B)) (b : B) :
    list.find? (·.buffer = b) = none ↔ b ∉ list.map Entry.buffer := by
  simp

theorem find_accept (k : Ledger B) (buffer : B) (seq : Int) (pushed : Bool) (b : B) :
    (accept buffer seq pushed k).bufList.find? (·.buffer = b) =
      (k.bufList.find? (·.buffer = b)).or (if buffer = b then some ⟨buffer, k.accepted⟩ else none) := by
  rw [accept, List.find?_append, List.find?_singleton]
  simp only [decide_eq_true_eq]

theorem fresh_of_matched_accept (k : Ledger B) (buffer : B) (seq : Int) (pushed : Bool)
    (numbered : Numbered k) (after : Matched (accept buffer seq pushed k)) :
    Fresh k buffer pushed := by
  refine ⟨fun listed => ?_, fun unlisted m member same => ?_⟩
  · cases pushed with
    | false => rfl
    | true =>
        have found := mt (find_eq_none_iff k.bufList buffer).mp (not_not.mpr listed)
        obtain ⟨e, found⟩ := Option.ne_none_iff_exists'.mp found
        have new : (⟨k.accepted, buffer, seq⟩ : Message B) ∈ (accept buffer seq true k).inFlight :=
          List.mem_append_right _ List.mem_cons_self
        have equal := after _ new e (by rw [find_accept, found, Option.some_or])
        have before := numbered.entry_lt (List.mem_of_find?_eq_some found)
        rw [← equal] at before
        exact absurd before (Nat.lt_irrefl _)
  · have old : m ∈ (accept buffer seq pushed k).inFlight := by
      cases pushed with
      | false => exact member
      | true => exact List.mem_append_left _ member
    have equal := after m old ⟨buffer, k.accepted⟩ (by
      rw [find_accept, same, (find_eq_none_iff k.bufList buffer).mpr unlisted, Option.none_or,
        if_pos rfl])
    have before := numbered.sent m member
    rw [equal] at before
    exact absurd before (Nat.lt_irrefl _)

theorem matched_accept_of_fresh (k : Ledger B) (buffer : B) (seq : Int) (pushed : Bool)
    (matched : Matched k) (fresh : Fresh k buffer pushed) :
    Matched (accept buffer seq pushed k) := by
  obtain ⟨quiet, apart⟩ := fresh
  intro m member e found
  have before : m ∈ k.inFlight → m.number = e.number := by
    intro old
    rw [find_accept] at found
    cases earlier : k.bufList.find? (·.buffer = m.privData) with
    | some e' =>
        rw [earlier, Option.some_or] at found
        exact matched m old e (earlier.trans found)
    | none =>
        rw [earlier, Option.none_or] at found
        split_ifs at found with same
        have unlisted := (find_eq_none_iff _ _).mp earlier
        rw [← same] at unlisted
        exact absurd same.symm (apart unlisted m old)
  cases pushed with
  | false => exact before member
  | true =>
      rcases List.mem_append.mp member with old | now
      · exact before old
      · have unlisted : buffer ∉ k.bufList.map Entry.buffer := fun listed => by cases quiet listed
        rw [List.mem_singleton.mp now, find_accept, (find_eq_none_iff _ _).mpr unlisted,
          Option.none_or, if_pos rfl] at found
        rw [List.mem_singleton.mp now, ← Option.some.inj found]

theorem matched_accept_iff (k : Ledger B) (buffer : B) (seq : Int) (pushed : Bool)
    (numbered : Numbered k) (matched : Matched k) :
    Matched (accept buffer seq pushed k) ↔ Fresh k buffer pushed :=
  ⟨fresh_of_matched_accept k buffer seq pushed numbered,
    matched_accept_of_fresh k buffer seq pushed matched⟩

theorem sound_accept_iff (k : Ledger B) (buffer : B) (seq : Int) (pushed : Bool)
    (numbered : Numbered k) (sound : Sound k) :
    Sound (accept buffer seq pushed k) ↔ Fresh k buffer pushed := by
  obtain ⟨right, matched⟩ := (sound_iff k numbered).mp sound
  rw [sound_iff _ (numbered_accept k buffer seq pushed numbered),
    ← matched_accept_iff k buffer seq pushed numbered matched]
  exact and_iff_right right

end Ledgers

section Runs
variable {B : Type} [DecidableEq B]

def effect (s : State B) : Label B → Ledger B
  | .send (some buffer) true seq pushed =>
      if s.uvcRunning then accept buffer seq pushed s.ledger else s.ledger
  | .stop => clearUVCBuffer s.ledger
  | .recv m => doRecvUVCBuffer m s.ledger
  | .configStep =>
      match s.phase with
      | .clearing _ _ => clearUVCBuffer s.ledger
      | _ => s.ledger
  | _ => s.ledger

theorem step_ledger {s t : State B} {l : Label B} (taken : step s l = some t) :
    t.ledger = effect s l := by
  cases l with
  | send buffer isFrame seq pushed =>
      cases taken
      cases buffer with
      | none => rfl
      | some buffer =>
          cases isFrame with
          | false => rfl
          | true =>
              simp only [sendUVCBuffer, effect]
              cases s.uvcRunning <;> rfl
  | start =>
      obtain ⟨-, ⟨⟩⟩ := Option.ite_none_right_eq_some.mp taken
      rfl
  | stop =>
      obtain ⟨-, ⟨⟩⟩ := Option.ite_none_right_eq_some.mp taken
      rfl
  | recv m =>
      obtain ⟨-, ⟨⟩⟩ := Option.ite_none_right_eq_some.mp taken
      rfl
  | config width height =>
      obtain ⟨-, ⟨⟩⟩ := Option.ite_none_right_eq_some.mp taken
      simp only [doUpdateCameraParams]
      split_ifs <;> rfl
  | configStep =>
      simp only [step, continueUpdate] at taken
      simp only [effect]
      cases phase : s.phase <;> rw [phase] at taken <;> cases taken <;> rfl

theorem recv_inFlight {s t : State B} {m : Message B} (taken : step s (.recv m) = some t) :
    m ∈ s.ledger.inFlight := (Option.ite_none_right_eq_some.mp taken).1.2

theorem numbered_step (s : State B) (l : Label B) (t : State B) (numbered : Numbered s.ledger)
    (taken : step s l = some t) : Numbered t.ledger := by
  rw [step_ledger taken]
  unfold effect
  split
  · split_ifs
    · exact numbered_accept _ _ _ _ numbered
    · exact numbered
  · exact numbered_clearUVCBuffer _ numbered
  · exact numbered_doRecvUVCBuffer _ _ numbered
  · split
    · exact numbered_clearUVCBuffer _ numbered
    · exact numbered
  · exact numbered

def FreshSend (s : State B) : Label B → Prop
  | .send (some buffer) true _ pushed => s.uvcRunning = true → Fresh s.ledger buffer pushed
  | _ => True

theorem sound_step_iff (s : State B) (l : Label B) (t : State B) (numbered : Numbered s.ledger)
    (sound : Sound s.ledger) (taken : step s l = some t) : Sound t.ledger ↔ FreshSend s l := by
  have same : t.ledger = s.ledger → FreshSend s l → (Sound t.ledger ↔ FreshSend s l) := by
    intro unchanged fresh
    rw [unchanged]
    exact iff_of_true sound fresh
  have clear := sound_clearUVCBuffer s.ledger numbered sound
  have ledger := step_ledger taken
  cases l with
  | send buffer isFrame seq pushed =>
      cases buffer with
      | none => exact same ledger trivial
      | some buffer =>
          cases isFrame with
          | false => exact same ledger trivial
          | true =>
              rw [effect] at ledger
              by_cases running : s.uvcRunning = true
              · rw [ledger, if_pos running, sound_accept_iff _ _ _ _ numbered sound, FreshSend]
                exact ⟨fun fresh _ => fresh, fun fresh => fresh running⟩
              · rw [if_neg running] at ledger
                exact same ledger fun still => absurd still running
  | start => exact same ledger trivial
  | stop =>
      rw [ledger]
      exact iff_of_true clear trivial
  | recv m =>
      rw [ledger]
      exact iff_of_true (sound_doRecvUVCBuffer _ m numbered sound (recv_inFlight taken)) trivial
  | config width height => exact same ledger trivial
  | configStep =>
      rw [ledger, effect]
      split
      · exact iff_of_true clear trivial
      · exact iff_of_true sound trivial

omit [DecidableEq B] in
theorem numbered_initial : Numbered (State.initial B).ledger :=
  ⟨fun _ => rfl, by simp [State.initial], List.nodup_nil⟩

theorem sound_initial : Sound (State.initial B).ledger :=
  (sound_iff _ numbered_initial).mpr ⟨by simp [Right, State.initial], by simp [Matched, State.initial]⟩

/-- Over a whole run, every accepted send is in the list or was released just once, by its
own message or by a clear, exactly if every accepted send of the run was fresh. -/
theorem sound_always_iff (ls : List (Label B)) (t : State B)
    (reached : exec step (State.initial B) ls = some t) :
    (∀ initial, initial <+: ls → ∀ s, exec step (State.initial B) initial = some s →
        Sound s.ledger) ↔
      StepsMeet step FreshSend (State.initial B) ls :=
  always_iff_stepsMeet_of_inv step (fun s => Numbered s.ledger) (fun s => Sound s.ledger) FreshSend
    numbered_step sound_step_iff ls _ t numbered_initial sound_initial reached

end Runs

def fairRun : List (Label Nat) :=
  [.start, .send (some 7) true 1 true, .recv ⟨0, 7, 1⟩, .send (some 7) true 2 true]

theorem sound_always_fairRun :
    exec step (State.initial Nat) fairRun =
        some ⟨true, -1, -1, .idle, ⟨[⟨7, 1⟩], [⟨1, 7, 2⟩], 2, [⟨0, .returned 0⟩]⟩⟩ ∧
      ∀ initial, initial <+: fairRun → ∀ s, exec step (State.initial Nat) initial = some s →
        Sound s.ledger := by
  have reached : exec step (State.initial Nat) fairRun =
      some ⟨true, -1, -1, .idle, ⟨[⟨7, 1⟩], [⟨1, 7, 2⟩], 2, [⟨0, .returned 0⟩]⟩⟩ := by decide
  refine ⟨reached, (sound_always_iff fairRun _ reached).mpr ?_⟩
  simp [fairRun, StepsMeet, step, FreshSend, Fresh, State.initial, doStartUVC, sendUVCBuffer, accept,
    doRecvUVCBuffer]

/-- Buffer 7 is sent, the list is cleared by a stop, and after a start the same buffer is
sent again: the late return of the first send releases the second. The same happens when a
change of the resolution clears the list. -/
theorem late_return_releases_other :
    (exec step (State.initial Nat) [.start, .send (some 7) true 1 true, .stop, .start,
        .send (some 7) true 2 true, .recv ⟨0, 7, 1⟩]).map (fun s => s.ledger.released) =
      some [⟨0, .cleared⟩, ⟨1, .returned 0⟩] ∧
    (exec step (State.initial Nat) [.start, .send (some 7) true 1 true, .config 640 480,
        .configStep, .configStep, .configStep, .configStep, .send (some 7) true 2 true,
        .recv ⟨0, 7, 1⟩]).map (fun s => s.ledger.released) =
      some [⟨0, .cleared⟩, ⟨1, .returned 0⟩] := by
  decide

end WfyApp.UvcBuffers
