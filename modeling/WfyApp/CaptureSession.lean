import WfyApp.StepSystem
import WfyApp.ByteText

/-! Capture sessions of the tool server (rkaiq_raw_protocol.cpp and
rkaiq_online_protocol.cpp): the counters that SET_PARAM, START and CHECKSUM share, the
calls they make on the capture device, and the checksum of the payload sent last. -/

namespace WfyApp.CaptureSession
open ByteText StepSystem

inductive DeviceCall where
  | startCapture
  | stopCapture
  | readFrame
deriving DecidableEq, Repr

/-- The static variables of rkaiq_raw_protocol.cpp. -/
structure RawVars where
  captureMode : Nat
  captureFrames : Nat
  captureFramesIndex : Nat
  captureCheckSum : UInt16

def rawInitial : RawVars := ⟨0, 1, 0, 0⟩

def payloadSum (payload : Bytes) : UInt16 :=
  payload.foldl (fun sum c => sum + c.toUInt16) 0

abbrev Frames := Nat → Option Bytes

structure Captured where
  calls : List DeviceCall
  payloads : List Bytes
  read : Nat

def skipFrames (v : RawVars) : List DeviceCall :=
  if v.captureFramesIndex = 0 then List.replicate 5 .readFrame else []

def doCapture (v : RawVars) (frames : Frames) : Captured :=
  ⟨skipFrames v ++ [.readFrame], (frames v.captureFramesIndex).toList, 1⟩

/-- Only the last frame (as the average) and the last one of the first half are sent. -/
def doMultiFrameCallBack (v : RawVars) (frames : Frames) (index : Nat) : List Bytes :=
  if index + 1 = v.captureFrames then (frames index).toList
  else if index + 1 = v.captureFrames / 2 then (frames index).toList
  else []

def multiFrameRange (v : RawVars) : List Nat :=
  if v.captureFramesIndex = 0 then List.range (v.captureFrames / 2)
  else if v.captureFramesIndex = v.captureFrames / 2 then
    List.range' (v.captureFrames / 2) (v.captureFrames - v.captureFrames / 2)
  else []

def doMultiFrameCapture (v : RawVars) (frames : Frames) : Captured :=
  ⟨skipFrames v ++ (multiFrameRange v).map fun _ => .readFrame,
    (multiFrameRange v).flatMap (doMultiFrameCallBack v frames), (multiFrameRange v).length⟩

def capture (v : RawVars) (frames : Frames) : Captured :=
  if v.captureMode = 0 then doCapture v frames else doMultiFrameCapture v frames

def rawCaputureCalls (v : RawVars) (frames : Frames) : List DeviceCall :=
  (if v.captureFramesIndex = 0 then [.startCapture] else []) ++ (capture v frames).calls ++
    if v.captureFramesIndex + (capture v frames).read = v.captureFrames then [.stopCapture] else []

inductive RawCommand where
  | setParam (framenumber multiframe : UInt8)
  | start (frames : Frames)
  | checkSum (value : UInt16)

def RawCommand.calls (v : RawVars) : RawCommand → List DeviceCall
  | setParam _ _ => []
  | start frames => rawCaputureCalls v frames
  | checkSum value => if v.captureCheckSum = value then [] else [.stopCapture]

def RawCommand.vars (v : RawVars) : RawCommand → RawVars
  | setParam framenumber multiframe => ⟨multiframe.toNat, framenumber.toNat, 0, 0⟩
  | start frames =>
      { v with
        captureFramesIndex := v.captureFramesIndex + (capture v frames).read
        captureCheckSum :=
          (capture v frames).payloads.foldl (fun _ payload => payloadSum payload)
            v.captureCheckSum }
  | checkSum _ => v

section Discipline

def deviceAfter (running : Bool) : DeviceCall → Bool
  | .startCapture => true
  | .stopCapture => false
  | .readFrame => running

def allowed (running : Bool) : DeviceCall → Prop
  | .startCapture => running = false
  | .stopCapture => running = true
  | .readFrame => running = true

/-- Every call of the log is made in the right state of the device. -/
def Legal : Bool → List DeviceCall → Prop
  | _, [] => True
  | running, call :: calls => allowed running call ∧ Legal (deviceAfter running call) calls

instance decidableAllowed (running : Bool) : (call : DeviceCall) → Decidable (allowed running call)
  | .startCapture => inferInstanceAs (Decidable (running = false))
  | .stopCapture => inferInstanceAs (Decidable (running = true))
  | .readFrame => inferInstanceAs (Decidable (running = true))

instance decidableLegal : (running : Bool) → (calls : List DeviceCall) →
    Decidable (Legal running calls)
  | _, [] => isTrue trivial
  | running, call :: calls =>
      have := decidableLegal (deviceAfter running call) calls
      inferInstanceAs (Decidable (allowed running call ∧ Legal (deviceAfter running call) calls))

theorem legal_append (running : Bool) (first second : List DeviceCall) :
    Legal running (first ++ second) ↔
      Legal running first ∧ Legal (first.foldl deviceAfter running) second := by
  induction first generalizing running with
  | nil => simp [Legal]
  | cons call first ih => rw [List.cons_append, Legal, Legal, ih, List.foldl_cons, and_assoc]

theorem legal_reads (reads : List DeviceCall) (only : ∀ call ∈ reads, call = .readFrame)
    (running : Bool) : Legal running reads ↔ reads = [] ∨ running = true := by
  induction reads with
  | nil => simp [Legal]
  | cons call reads ih =>
      rw [Legal, only call List.mem_cons_self, deviceAfter,
        ih fun call later => only call (List.mem_cons_of_mem _ later)]
      simp +contextual [allowed]

theorem deviceAfter_reads (reads : List DeviceCall) (only : ∀ call ∈ reads, call = .readFrame)
    (running : Bool) : reads.foldl deviceAfter running = running := by
  induction reads with
  | nil => rfl
  | cons call reads ih =>
      rw [List.foldl_cons, only call List.mem_cons_self, deviceAfter]
      exact ih fun call later => only call (List.mem_cons_of_mem _ later)

theorem capture_reads (v : RawVars) (frames : Frames) :
    ∀ call ∈ (capture v frames).calls, call = .readFrame := by
  intro call made
  have skipped : call ∈ skipFrames v → call = .readFrame := by
    unfold skipFrames
    split_ifs
    · exact List.eq_of_mem_replicate
    · simp
  unfold capture doCapture doMultiFrameCapture at made
  split_ifs at made
  · rcases List.mem_append.mp made with skip | last
    · exact skipped skip
    · simpa using last
  · rcases List.mem_append.mp made with skip | later
    · exact skipped skip
    · obtain ⟨-, -, same⟩ := List.mem_map.mp later
      exact same.symm

theorem legal_stop_if (running : Bool) (p : Prop) [Decidable p] :
    Legal running (if p then [.stopCapture] else []) ↔ (p → running = true) := by
  split_ifs with holds
  · simp [Legal, allowed, holds]
  · simp [Legal, holds]

theorem capture_acts (v : RawVars) (frames : Frames) (later : v.captureFramesIndex ≠ 0) :
    ((capture v frames).calls ≠ [] ∨
      v.captureFramesIndex + (capture v frames).read = v.captureFrames) ↔
    v.captureMode = 0 ∨ v.captureFramesIndex = v.captureFrames / 2 ∨
      v.captureFramesIndex = v.captureFrames := by
  by_cases normal : v.captureMode = 0
  · simp [capture, normal, doCapture]
  · by_cases half : v.captureFramesIndex = v.captureFrames / 2
    · have rest : v.captureFramesIndex + (capture v frames).read = v.captureFrames := by
        rw [capture, if_neg normal, doMultiFrameCapture, multiFrameRange, if_neg later, if_pos half]
        simp only [List.length_range']
        omega
      exact iff_of_true (.inr rest) (.inr (.inl half))
    · simp [capture, normal, doMultiFrameCapture, multiFrameRange, skipFrames, later, half]

/-- A START at index 0 is legal exactly on a stopped device, any other that does something
exactly on a running one. -/
theorem legal_start (v : RawVars) (frames : Frames) (running : Bool) :
    Legal running (rawCaputureCalls v frames) ↔
      if v.captureFramesIndex = 0 then running = false
      else v.captureMode = 0 ∨ v.captureFramesIndex = v.captureFrames / 2 ∨
        v.captureFramesIndex = v.captureFrames → running = true := by
  have reads := capture_reads v frames
  rw [rawCaputureCalls, legal_append, legal_append, legal_stop_if, List.foldl_append,
    deviceAfter_reads _ reads, legal_reads _ reads]
  by_cases first : v.captureFramesIndex = 0
  · simp [first, Legal, allowed, deviceAfter]
  · rw [if_neg first, if_neg first, ← capture_acts v frames first]
    simp only [Legal, List.foldl_nil, true_and]
    tauto

theorem legal_checkSum (v : RawVars) (value : UInt16) (running : Bool) :
    Legal running (RawCommand.calls v (.checkSum value)) ↔
      (value ≠ v.captureCheckSum → running = true) := by
  rw [RawCommand.calls, ← ite_not, legal_stop_if, ne_comm]

structure RawSession where
  vars : RawVars
  log : List DeviceCall

def RawSession.running (s : RawSession) : Bool := s.log.foldl deviceAfter false

def rawStep (s : RawSession) (command : RawCommand) : Option RawSession :=
  some ⟨command.vars s.vars, s.log ++ command.calls s.vars⟩

/-- What the counter says about the device is so. -/
def Agrees (s : RawSession) : RawCommand → Prop
  | .setParam _ _ => True
  | .start _ =>
      if s.vars.captureFramesIndex = 0 then s.running = false
      else s.vars.captureMode = 0 ∨ s.vars.captureFramesIndex = s.vars.captureFrames / 2 ∨
        s.vars.captureFramesIndex = s.vars.captureFrames → s.running = true
  | .checkSum value => value ≠ s.vars.captureCheckSum → s.running = true

theorem legal_calls (s : RawSession) (command : RawCommand) :
    Legal s.running (command.calls s.vars) ↔ Agrees s command := by
  cases command with
  | setParam framenumber multiframe => exact iff_of_true trivial trivial
  | start frames => exact legal_start s.vars frames s.running
  | checkSum value => exact legal_checkSum s.vars value s.running

theorem running_start (v : RawVars) (frames : Frames) (running : Bool) :
    (rawCaputureCalls v frames).foldl deviceAfter running =
      if v.captureFramesIndex + (capture v frames).read = v.captureFrames then false
      else if v.captureFramesIndex = 0 then true else running := by
  rw [rawCaputureCalls, List.foldl_append, List.foldl_append,
    deviceAfter_reads _ (capture_reads v frames)]
  split_ifs <;> rfl

/-- What a sequence of commands says: the last SET_PARAM, the STARTs since then that took frames,
whether a capture is going on, and the sum of the payload sent last. -/
structure Course where
  frames : Nat
  multi : Bool
  starts : Nat
  going : Bool
  sum : UInt16

namespace Course

def initial : Course := ⟨1, false, 0, false, 0⟩

variable (c : Course)

def sent : Option Nat :=
  if c.multi then
    if c.frames ≤ 1 then none
    else if c.starts = 0 then some (c.frames / 2 - 1)
    else if c.starts = 1 then some (c.frames - 1)
    else none
  else some c.starts

/-- A capture of single frames goes on up to the last one, one of many frames takes two STARTs;
with a single frame the latter neither advances nor ends. -/
def next : RawCommand → Course
  | .setParam framenumber multiframe =>
      { c with frames := framenumber.toNat, multi := multiframe ≠ 0, starts := 0, sum := 0 }
  | .start frames =>
      { c with
        starts := if c.multi ∧ c.frames ≤ 1 then c.starts else c.starts + 1
        going :=
          if c.multi then c.frames = 1 ∨ 2 ≤ c.frames ∧ c.starts = 0
          else c.starts + 1 ≠ c.frames
        sum := ((c.sent.bind frames).map payloadSum).getD c.sum }
  | .checkSum value => { c with going := c.going && value = c.sum }

/-- A START is the first one or is made while the capture goes on, not both; a wrong CHECKSUM
comes while it goes on. -/
def InOrder : RawCommand → Prop
  | .setParam _ _ => True
  | .start _ => c.going = decide (0 < c.starts)
  | .checkSum value => value = c.sum ∨ c.going = true

def index : Nat :=
  if c.multi then
    if c.starts = 0 then 0 else if c.starts = 1 then c.frames / 2 else c.frames
  else c.starts

end Course

structure Follows (s : RawSession) (c : Course) : Prop where
  mode : s.vars.captureMode = 0 ↔ c.multi = false
  frames : s.vars.captureFrames = c.frames
  index : s.vars.captureFramesIndex = c.index
  sum : s.vars.captureCheckSum = c.sum
  running : s.running = c.going
  stays : c.multi = true → c.frames ≤ 1 → c.starts = 0

theorem follows_initial : Follows ⟨rawInitial, []⟩ .initial :=
  ⟨by decide, rfl, rfl, rfl, rfl, nofun⟩

theorem Follows.index_eq_zero {s : RawSession} {c : Course} (follows : Follows s c) :
    s.vars.captureFramesIndex = 0 ↔ c.starts = 0 := by
  have stays := follows.stays
  rw [follows.index, Course.index]
  split_ifs with multi none one
  · simp [none]
  · simp only [multi, true_imp_iff] at stays
    omega
  · simp only [multi, true_imp_iff] at stays
    omega
  · rfl

theorem agrees_iff_inOrder {s : RawSession} {c : Course} (follows : Follows s c)
    (command : RawCommand) : Agrees s command ↔ c.InOrder command := by
  cases command with
  | setParam framenumber multiframe => exact Iff.rfl
  | checkSum value =>
      rw [Agrees, Course.InOrder, follows.sum, follows.running]
      tauto
  | start frames =>
      rw [Agrees, Course.InOrder]
      by_cases first : c.starts = 0
      · rw [if_pos (follows.index_eq_zero.mpr first), follows.running]
        simp [first]
      · have acts : s.vars.captureMode = 0 ∨
            s.vars.captureFramesIndex = s.vars.captureFrames / 2 ∨
            s.vars.captureFramesIndex = s.vars.captureFrames := by
          rw [follows.index, follows.frames, follows.mode, Course.index]
          cases c.multi with
          | false => exact .inl rfl
          | true =>
              simp only [first, if_true, if_false]
              split_ifs <;> simp
        rw [if_neg (mt follows.index_eq_zero.mp first), follows.running]
        simp [acts, Nat.pos_of_ne_zero first]

theorem payloads_first_half (v : RawVars) (frames : Frames) (many : 2 ≤ v.captureFrames) :
    (List.range (v.captureFrames / 2)).flatMap (doMultiFrameCallBack v frames) =
      (frames (v.captureFrames / 2 - 1)).toList := by
  obtain ⟨half, same⟩ : ∃ half, v.captureFrames / 2 = half + 1 :=
    Nat.exists_eq_succ_of_ne_zero (by omega)
  have before : (List.range half).flatMap (doMultiFrameCallBack v frames) = [] := by
    refine List.flatMap_eq_nil_iff.mpr fun index inside => ?_
    have below := List.mem_range.mp inside
    rw [doMultiFrameCallBack, if_neg (by omega), if_neg (by omega)]
  rw [same, List.range_succ, List.flatMap_append, before, List.flatMap_singleton,
    doMultiFrameCallBack, if_neg (by omega), if_pos same.symm]
  rfl

theorem payloads_second_half (v : RawVars) (frames : Frames) (many : 2 ≤ v.captureFrames) :
    (List.range' (v.captureFrames / 2) (v.captureFrames - v.captureFrames / 2)).flatMap
        (doMultiFrameCallBack v frames) = (frames (v.captureFrames - 1)).toList := by
  obtain ⟨rest, same⟩ : ∃ rest, v.captureFrames - v.captureFrames / 2 = rest + 1 :=
    Nat.exists_eq_succ_of_ne_zero (by omega)
  have before : (List.range' (v.captureFrames / 2) rest).flatMap
      (doMultiFrameCallBack v frames) = [] := by
    refine List.flatMap_eq_nil_iff.mpr fun index inside => ?_
    have range := List.mem_range'_1.mp inside
    rw [doMultiFrameCallBack, if_neg (by omega), if_neg (by omega)]
  have last : v.captureFrames / 2 + 1 * rest = v.captureFrames - 1 := by omega
  rw [same, List.range'_concat, List.flatMap_append, before, List.flatMap_singleton, last,
    doMultiFrameCallBack, if_pos (by omega)]
  rfl

theorem Follows.capture {s : RawSession} {c : Course} (follows : Follows s c) (frames : Frames) :
    (capture s.vars frames).payloads = (c.sent.bind frames).toList ∧
      s.vars.captureFramesIndex + (capture s.vars frames).read =
        (c.next (.start frames)).index := by
  have zero := follows.index_eq_zero
  obtain ⟨mode, count, index, -, -, stays⟩ := follows
  cases multi : c.multi with
  | false =>
      rw [CaptureSession.capture, if_pos (mode.mpr multi)]
      simp [doCapture, Course.sent, Course.next, Course.index, multi, index]
  | true =>
      rw [CaptureSession.capture, if_neg (by simp [mode, multi]), doMultiFrameCapture,
        multiFrameRange]
      by_cases single : c.frames ≤ 1
      · have none : s.vars.captureFrames / 2 = 0 := by omega
        have first := stays multi single
        simp [Course.sent, Course.next, Course.index, multi, single, first, zero.mpr first, none]
      have many : 2 ≤ s.vars.captureFrames := by omega
      by_cases first : c.starts = 0
      · rw [if_pos (zero.mpr first), payloads_first_half s.vars frames many, zero.mpr first]
        simp [Course.sent, Course.next, Course.index, multi, single, first, count]
      rw [if_neg (mt zero.mp first), index]
      by_cases second : c.starts = 1
      · have half : c.index = s.vars.captureFrames / 2 := by simp [Course.index, multi, second, count]
        have whole : c.frames / 2 + (c.frames - c.frames / 2) = c.frames := by omega
        rw [if_pos half, payloads_second_half s.vars frames many, half]
        simp [Course.sent, Course.next, Course.index, multi, single, second, count, whole]
      · have past : c.index = c.frames := by simp [Course.index, multi, first, second]
        have other : c.index ≠ s.vars.captureFrames / 2 := by omega
        rw [if_neg other, past]
        simp [Course.sent, Course.next, Course.index, multi, single, first, second]

theorem Course.going_start (c : Course) (frames : Frames)
    (stays : c.multi = true → c.frames ≤ 1 → c.starts = 0)
    (ordered : c.InOrder (.start frames)) :
    (c.next (.start frames)).going =
      if (c.next (.start frames)).index = c.frames then false
      else if c.starts = 0 then true else c.going := by
  rw [InOrder] at ordered
  cases multi : c.multi with
  | false =>
      by_cases first : c.starts = 0
      · simp [next, index, multi, first]
      · simp [next, index, multi, first, ordered, Nat.pos_of_ne_zero first]
  | true =>
      by_cases single : c.frames ≤ 1
      · have first := stays multi single
        simp only [next, index, multi, single, first]
        rcases Nat.le_one_iff_eq_zero_or_eq_one.mp single with none | one
        · simp [none]
        · simp [one]
      · have many : 2 ≤ c.frames := by omega
        by_cases first : c.starts = 0
        · have more : c.frames / 2 ≠ c.frames := by omega
          simp [next, index, multi, single, first, many, more]
        · simp [next, index, multi, single, first]
          omega

theorem follows_step {s : RawSession} {c : Course} (follows : Follows s c) (command : RawCommand)
    (ordered : c.InOrder command) :
    Follows ⟨command.vars s.vars, s.log ++ command.calls s.vars⟩ (c.next command) := by
  cases command with
  | setParam framenumber multiframe =>
      refine ⟨?_, rfl, ?_, rfl, ?_, fun _ _ => rfl⟩
      · simp [RawCommand.vars, Course.next, ← UInt8.toNat_inj]
      · simp [RawCommand.vars, Course.next, Course.index]
      · simpa [RawCommand.calls, RawSession.running, Course.next] using follows.running
  | checkSum value =>
      refine ⟨follows.mode, follows.frames, follows.index, follows.sum, ?_, follows.stays⟩
      have running := follows.running
      rw [RawSession.running] at running ⊢
      rw [List.foldl_append, running, RawCommand.calls, follows.sum]
      by_cases same : c.sum = value
      · simp [same, Course.next]
      · simp [same, Ne.symm same, Course.next, deviceAfter]
  | start frames =>
      obtain ⟨payloads, index⟩ := follows.capture frames
      have zero := follows.index_eq_zero
      refine ⟨follows.mode, follows.frames, index, ?_, ?_, ?_⟩
      · simp only [RawCommand.vars, Course.next, payloads, follows.sum]
        cases c.sent.bind frames <;> rfl
      · have running := follows.running
        rw [RawSession.running] at running ⊢
        rw [List.foldl_append, running, RawCommand.calls, running_start, index, follows.frames,
          c.going_start frames follows.stays ordered]
        simp only [zero]
      · intro multi single
        simp only [Course.next] at multi single ⊢
        rw [if_pos ⟨multi, single⟩]
        exact follows.stays multi single

namespace Course
variable (c : Course)

def total : Nat := if c.multi then 2 else c.frames

/-- The parameters are set while no capture goes on, to one frame at least (two in multi-frame
mode); no more STARTs follow than the capture takes, and every CHECKSUM is right. -/
def Regular : RawCommand → Prop
  | .setParam framenumber multiframe =>
      c.going = false ∧ (if multiframe = 0 then 1 else 2) ≤ framenumber.toNat
  | .start _ => c.starts < c.total
  | .checkSum value => value = c.sum

structure Regulated : Prop where
  going : c.going = true ↔ 0 < c.starts ∧ c.starts < c.total
  enough : (if c.multi then 2 else 1) ≤ c.frames
  most : c.starts ≤ c.total

variable {c}

theorem Regulated.inOrder (regulated : c.Regulated) {command : RawCommand}
    (regular : c.Regular command) : c.InOrder command := by
  cases command with
  | setParam framenumber multiframe => trivial
  | checkSum value => exact .inl regular
  | start frames =>
      rw [InOrder, Bool.eq_iff_iff, regulated.going, decide_eq_true_iff]
      exact and_iff_left regular

theorem Regulated.next (regulated : c.Regulated) {command : RawCommand}
    (regular : c.Regular command) : (c.next command).Regulated := by
  obtain ⟨going, enough, most⟩ := regulated
  cases command with
  | setParam framenumber multiframe =>
      refine ⟨?_, ?_, Nat.zero_le _⟩
      · simp [Course.next, regular.1]
      · simpa [Course.next] using regular.2
  | checkSum value =>
      refine ⟨?_, enough, most⟩
      have right : value = c.sum := regular
      simpa [Course.next, right, total] using going
  | start frames =>
      rw [Regular, total] at regular
      cases multi : c.multi with
      | false =>
          simp only [multi, Bool.false_eq_true, if_false] at regular enough
          refine ⟨?_, ?_, ?_⟩ <;> simp [Course.next, total, multi] <;> omega
      | true =>
          simp only [multi, if_true] at regular enough
          have many : ¬c.frames ≤ 1 := by omega
          refine ⟨?_, ?_, ?_⟩ <;> simp [Course.next, total, multi, many] <;> omega

theorem Regulated.going_iff (regulated : c.Regulated) :
    c.going = true ↔ 0 < c.index ∧ c.index < c.frames := by
  obtain ⟨going, enough, most⟩ := regulated
  rw [going, index, total]
  rw [total] at most
  cases multi : c.multi with
  | false => simp
  | true =>
      simp only [multi, if_true] at enough most ⊢
      split_ifs <;> omega

end Course

/-- The device is used as it should be exactly if the commands are in order. If they are regular,
the device runs while the counter is between 0 and the number of frames. -/
theorem capture_discipline_iff (commands : List RawCommand) (s : RawSession)
    (reached : exec rawStep ⟨rawInitial, []⟩ commands = some s) :
    (Legal false s.log ↔ LabelsMeet Course.next Course.InOrder .initial commands) ∧
      (LabelsMeet Course.next Course.Regular .initial commands → Legal false s.log ∧
        (s.running = true ↔
          0 < s.vars.captureFramesIndex ∧ s.vars.captureFramesIndex < s.vars.captureFrames)) := by
  have legal (s t : RawSession) (command : RawCommand) (taken : rawStep s command = some t) :
      Legal false t.log ↔ Legal false s.log ∧ Agrees s command := by
    cases taken
    rw [legal_append, ← legal_calls]
    rfl
  constructor
  · have runs := exec_iff_stepsMeet rawStep (fun _ => True) (fun s => Legal false s.log) Agrees
      (fun _ _ _ _ _ => trivial) (fun s command t _ => legal s t command) commands _ s trivial
      reached
    refine (runs.trans (and_iff_right trivial)).trans ?_
    refine stepsMeet_iff_labelsMeet rawStep Course.next Follows Agrees Course.InOrder ?_ commands _
      s .initial follows_initial reached
    intro s c command t follows taken
    have same := agrees_iff_inOrder follows command
    cases taken
    exact ⟨same, fun agrees => follows_step follows command (same.mp agrees)⟩
  · intro regular
    have kept := exec_of_labelsMeet rawStep Course.next
      (fun s c => Follows s c ∧ c.Regulated ∧ Legal false s.log) Course.Regular
      (by
        rintro s c command t ⟨follows, regulated, before⟩ taken regular
        have ordered := regulated.inOrder regular
        have agrees := (agrees_iff_inOrder follows command).mpr ordered
        refine ⟨?_, regulated.next regular, (legal s t command taken).mpr ⟨before, agrees⟩⟩
        cases taken
        exact follows_step follows command ordered)
      commands _ s .initial ⟨follows_initial, ⟨by decide, by decide, by decide⟩, trivial⟩ reached
      regular
    obtain ⟨follows, regulated, used⟩ := kept
    rw [follows.running, regulated.going_iff, follows.index, follows.frames]
    exact ⟨used, Iff.rfl⟩

def oneFrame : Frames := fun _ => some [1, 2]
def fourFrames : Frames := fun index => some [index.toUInt8, 1]

def regularRun : List RawCommand :=
  [.setParam 4 1, .start fourFrames, .checkSum 2, .start fourFrames, .checkSum 4, .setParam 1 0,
    .start oneFrame, .checkSum 3]

theorem capture_discipline_iff_regular :
    ∃ s, exec rawStep ⟨rawInitial, []⟩ regularRun = some s ∧ Legal false s.log ∧
      s.log.count .startCapture = 2 ∧ s.log.count .readFrame = 15 := by
  refine ⟨_, rfl, ((capture_discipline_iff regularRun _ rfl).2 ?_).1, by decide, by decide⟩
  simp [regularRun, LabelsMeet, Course.Regular, Course.initial, Course.next, Course.total,
    Course.sent, fourFrames, oneFrame, payloadSum]

/-- A second START after the only frame reads from the stopped device, and a checksum that
does not match stops it once more. -/
theorem capture_after_end :
    ∃ s, exec rawStep ⟨rawInitial, []⟩ [.setParam 1 0, .start oneFrame, .start oneFrame] = some s ∧
      s.log = .startCapture :: List.replicate 6 .readFrame ++ [.stopCapture, .readFrame] ∧
      ¬Legal false s.log ∧
      ∃ t, exec rawStep ⟨rawInitial, []⟩ [.setParam 1 0, .start oneFrame, .checkSum 4] = some t ∧
        t.log = .startCapture :: List.replicate 6 .readFrame ++ [.stopCapture, .stopCapture] ∧
        ¬Legal false t.log :=
  ⟨_, rfl, rfl, by decide, _, rfl, rfl, by decide⟩

end Discipline

section Handshake

inductive OnlineKind where
  | onlineRaw
  | yuv
deriving DecidableEq, Repr

inductive CaptureKind where
  | raw
  | online (kind : OnlineKind)
deriving DecidableEq, Repr

inductive Answer where
  | resFailed
  | resSuccess
deriving DecidableEq, Repr

inductive ServerCommand where
  | raw (command : RawCommand)
  | setParam (kind : OnlineKind)
  | start (kind : OnlineKind) (payloads : List Bytes)
  | checkSum (kind : OnlineKind) (value : UInt16)

inductive Event where
  | setParam (kind : CaptureKind)
  | payload (kind : CaptureKind) (bytes : Bytes)
deriving DecidableEq

/-- The variables of the two files (each has a `capture_check_sum` of its own), and what
has happened so far. -/
structure Server where
  raw : RawVars
  onlineCheckSum : UInt16
  events : List Event

def serverInitial : Server := ⟨rawInitial, 0, []⟩

/-- `SendRawData` of the online file keeps the sum, `SendYuvData` does not. -/
def sendOnline : OnlineKind → UInt16 → Bytes → UInt16
  | .onlineRaw, _, payload => payloadSum payload
  | .yuv, stored, _ => stored

def RawCommand.events (v : RawVars) (command : RawCommand) : List Event :=
  match command with
  | setParam _ _ => [.setParam .raw]
  | start frames => (capture v frames).payloads.map (.payload .raw)
  | checkSum _ => []

/-- The cases DATA_ID_CAPTURE_YUV_CHECKSUM and DATA_ID_CAPTURE_ONLINE_RAW_CHECKSUM do
nothing. -/
def serverStep (s : Server) : ServerCommand → Option Server
  | .raw command =>
      some { s with raw := command.vars s.raw, events := s.events ++ command.events s.raw }
  | .setParam kind =>
      some { s with onlineCheckSum := 0, events := s.events ++ [.setParam (.online kind)] }
  | .start kind payloads =>
      some
        { s with
          onlineCheckSum := payloads.foldl (sendOnline kind) s.onlineCheckSum
          events := s.events ++ payloads.map (.payload (.online kind)) }
  | .checkSum _ _ => some s

def sendRawDataResult (captureCheckSum value : UInt16) : Answer :=
  if captureCheckSum = value then .resSuccess else .resFailed

def Server.answer (s : Server) (value : UInt16) : CaptureKind → Option Answer
  | .raw => some (sendRawDataResult s.raw.captureCheckSum value)
  | .online _ => none

def payloadOf (kind : CaptureKind) : Event → Option (Option Bytes)
  | .payload other bytes => if other = kind then some (some bytes) else none
  | .setParam _ => none

def lastPayload (kind : CaptureKind) (events : List Event) : Option Bytes :=
  latest (payloadOf kind) none events

def rawStored : Event → Option UInt16
  | .payload .raw bytes => some (payloadSum bytes)
  | .setParam .raw => some 0
  | _ => none

def rawReset : Event → Option Bool
  | .payload .raw _ => some false
  | .setParam .raw => some true
  | _ => none

/-- A SET_PARAM of the raw capture came after its last payload. -/
def resetSince (events : List Event) : Bool := latest rawReset false events

theorem latest_payloads (stored : UInt16) (events : List Event) (payloads : List Bytes)
    (same : latest rawStored 0 events = stored) :
    latest rawStored 0 (events ++ payloads.map (.payload .raw)) =
      payloads.foldl (fun _ payload => payloadSum payload) stored := by
  induction payloads generalizing stored events with
  | nil => simpa using same
  | cons payload payloads ih =>
      rw [List.map_cons, List.append_cons, List.foldl_cons]
      refine ih _ _ ?_
      rw [latest_concat]
      rfl

theorem latest_of_other (events : List Event) (kind : OnlineKind) (payloads : List Bytes) :
    latest rawStored 0 (events ++ payloads.map (.payload (.online kind))) =
      latest rawStored 0 events := by
  induction payloads using List.reverseRecOn with
  | nil => simp
  | append_singleton payloads payload ih =>
      rw [List.map_append, ← List.append_assoc, List.map_singleton, latest_concat, ih]
      rfl

/-- The sum in rkaiq_raw_protocol.cpp is the one of the last payload, or 0 after a reset. -/
theorem captureCheckSum_eq (commands : List ServerCommand) (s : Server)
    (reached : exec serverStep serverInitial commands = some s) :
    s.raw.captureCheckSum = latest rawStored 0 s.events := by
  refine exec_induction serverStep serverInitial
    (fun s => s.raw.captureCheckSum = latest rawStored 0 s.events) rfl ?_ commands s reached
  intro s command t stored step
  cases command with
  | raw command =>
      cases step
      cases command with
      | setParam framenumber multiframe =>
          simp only [RawCommand.events, latest_concat]
          rfl
      | start frames => exact (latest_payloads _ _ _ stored.symm).symm
      | checkSum value => simpa [RawCommand.events, RawCommand.vars] using stored
  | setParam kind =>
      cases step
      simpa [latest_concat, rawStored] using stored
  | start kind payloads =>
      cases step
      simpa [latest_of_other] using stored
  | checkSum kind value =>
      cases step
      exact stored

theorem latest_rawStored (events : List Event) (payload : Bytes)
    (last : lastPayload .raw events = some payload) :
    latest rawStored 0 events = if resetSince events then 0 else payloadSum payload := by
  induction events using List.reverseRecOn with
  | nil => simp [lastPayload, latest] at last
  | append_singleton events e ih =>
      rw [lastPayload, latest_concat] at last
      rw [resetSince, latest_concat, latest_concat]
      rcases e with ⟨_ | kind⟩ | ⟨_ | kind, bytes⟩
      · rfl
      · exact ih last
      · cases last
        rfl
      · exact ih last

theorem agree_iff (stored value sum : UInt16) :
    (sendRawDataResult stored value = .resSuccess ↔ value = sum) ↔
      stored = sum ∨ value ≠ stored ∧ value ≠ sum := by
  have success : sendRawDataResult stored value = .resSuccess ↔ stored = value := by
    unfold sendRawDataResult
    split_ifs with same <;> simp [same]
  rw [success]
  constructor
  · intro same
    by_cases equal : stored = value
    · exact .inl (equal.trans (same.mp equal))
    · exact .inr ⟨Ne.symm equal, fun is_sum => equal (same.mpr is_sum)⟩
  · rintro (rfl | ⟨other, no_sum⟩)
    · exact eq_comm
    · exact iff_of_false (Ne.symm other) no_sum

/-- Raw captures: the answer is right unless the parameters were set again since the last
payload and the value is one of the two sums in question. Online captures: the answer is
right only to a wrong value, as there is none. -/
theorem checkSum_handshake_iff (commands : List ServerCommand) (s : Server)
    (reached : exec serverStep serverInitial commands = some s) (kind : CaptureKind)
    (payload : Bytes) (last : lastPayload kind s.events = some payload) (value : UInt16) :
    (s.answer value kind = some .resSuccess ↔ value = payloadSum payload) ↔
      match kind with
      | .raw => resetSince s.events = false ∨ payloadSum payload = 0 ∨
          value ≠ 0 ∧ value ≠ payloadSum payload
      | .online _ => value ≠ payloadSum payload := by
  cases kind with
  | raw =>
      have stored := (captureCheckSum_eq commands s reached).trans (latest_rawStored _ _ last)
      rw [Server.answer, Option.some.injEq, agree_iff, stored]
      cases resetSince s.events with
      | false => simp
      | true => simp [eq_comm]
  | online kind => simp [Server.answer]

theorem checkSum_handshake_iff_plain :
    ∃ s, exec serverStep serverInitial [.raw (.setParam 1 0), .raw (.start oneFrame)] = some s ∧
      (s.answer 3 .raw = some .resSuccess ↔ (3 : UInt16) = payloadSum [1, 2]) :=
  ⟨_, rfl, (checkSum_handshake_iff [.raw (.setParam 1 0), .raw (.start oneFrame)] _ rfl .raw [1, 2]
    rfl 3).mpr (.inl rfl)⟩

/-- The right checksum of a YUV or online raw payload is not answered, and a raw one is
refused if the parameters are set before it comes. -/
theorem checkSum_refused :
    (∀ kind, ∃ s, exec serverStep serverInitial [.setParam kind, .start kind [[1, 2]]] = some s ∧
      s.answer (payloadSum [1, 2]) (.online kind) = none) ∧
    ∃ s, exec serverStep serverInitial
        [.raw (.setParam 1 0), .raw (.start oneFrame), .raw (.setParam 1 0)] = some s ∧
      s.answer (payloadSum [1, 2]) .raw = some .resFailed :=
  ⟨fun _ => ⟨_, rfl, rfl⟩, _, rfl, by decide⟩

end Handshake

end WfyApp.CaptureSession
