import WfyApp.CaptureSession
import WfyApp.MultiFrame

/-! A multi-frame session of the tool server (rkaiq_raw_protocol.cpp), with the pixels: the
first START after SET_PARAM zeroes the sums and captures half of the frames, the second
captures the others, and the callback of each frame decides what is sent. -/

namespace WfyApp.FrameSession
open ByteText MultiFrame CaptureSession

/-- The frames of a capture device; a frame has an `int` number of bytes. -/
structure FrameFormat where
  geometry : Geometry
  vicap : Bool
  fits : 2 * geometry.len < 2 ^ 31

def FrameFormat.len (f : FrameFormat) : Nat := f.geometry.len

def frameBytes {len : Nat} (frame : Pixels len) : Bytes :=
  (List.ofFn frame).flatMap fun (p : UInt16) => [p.toUInt8, (p >>> 8).toUInt8]

structure Read (len : Nat) where
  frame : Pixels len
  size : Nat

/-- The buffers of a session, the number of frames read and the payloads sent. -/
structure Store (len : Nat) where
  sums : Sums len
  averaged : Pixels len
  reads : Nat
  sent : List Bytes

structure Session (len : Nat) where
  vars : RawVars
  store : Store len

section Model
variable (f : FrameFormat)

def multiFrameCallBack (captureFrames : Nat) (s : Store f.len) (index : Nat) (r : Read f.len) :
    Store f.len :=
  if 2 * f.len < r.size then s
  else
    let sums := multiFrameAddition s.sums r.frame (!f.vicap)
    if index + 1 = captureFrames then
      let result := multiFrameAverage sums s.averaged (UInt8.ofNat captureFrames)
      { s with
        sums := result.1
        averaged := result.2
        sent := s.sent ++ [(frameBytes result.2).take r.size] }
    else if index + 1 = captureFrames / 2 then
      { s with sums := sums, sent := s.sent ++ [(frameBytes r.frame).take r.size] }
    else { s with sums := sums }

def readFrame (stream : Nat → Read f.len) (captureFrames : Nat) (s : Store f.len) (index : Nat) :
    Store f.len :=
  { multiFrameCallBack f captureFrames s index (stream s.reads) with reads := s.reads + 1 }

def startStore (v : RawVars) (s : Store f.len) : Store f.len :=
  if v.captureFramesIndex = 0 then ⟨0, 0, s.reads + 5, s.sent⟩ else s

def start (stream : Nat → Read f.len) (s : Session f.len) : Session f.len :=
  let store := (multiFrameRange s.vars).foldl (readFrame f stream s.vars.captureFrames)
    (startStore f s.vars s.store)
  ⟨{ s.vars with
      captureFramesIndex := s.vars.captureFramesIndex + (multiFrameRange s.vars).length
      captureCheckSum := (store.sent.drop s.store.sent.length).foldl
        (fun _ payload => payloadSum payload) s.vars.captureCheckSum }, store⟩

def setParam (framenumber multiframe : UInt8) (s : Session f.len) : Session f.len :=
  { s with vars := RawCommand.vars s.vars (.setParam framenumber multiframe) }

def startCalls (s : Session f.len) : List DeviceCall := rawCaputureCalls s.vars fun _ => none

def wholeFrames (frames : Nat → Pixels f.len) : Nat → Read f.len := fun n => ⟨frames n, 2 * f.len⟩

def averageFrame (frames : List (Pixels f.len)) (framenumber : UInt8) : Pixels f.len :=
  fun i => UInt16.ofNat
    ((total (!f.vicap) frames i + framenumber.toNat / 2) / framenumber.toNat)

def captured (frames : Nat → Pixels f.len) (s : Session f.len) (count : Nat) :
    List (Pixels f.len) :=
  (List.range count).map fun k => frames (s.store.reads + 5 + k)

/-- The two START commands after SET_PARAM: the device is stopped by the second, and the
payloads are the middle frame and, if it is supported, the average. -/
structure Sends (frames : Nat → Pixels f.len) (s : Session f.len) (framenumber multiframe : UInt8) :
    Prop where
  running : .stopCapture ∉ startCalls f (setParam f framenumber multiframe s)
  calls : startCalls f (setParam f framenumber multiframe s) ++
      startCalls f (start f (wholeFrames f frames) (setParam f framenumber multiframe s)) =
    .startCapture :: (List.replicate 5 .readFrame ++ List.replicate framenumber.toNat .readFrame) ++
      [.stopCapture]
  sent : (start f (wholeFrames f frames) (start f (wholeFrames f frames)
      (setParam f framenumber multiframe s))).store.sent =
    s.store.sent ++ frameBytes (frames (s.store.reads + 5 + (framenumber.toNat / 2 - 1))) ::
      if averageShift framenumber ≠ none then
        [frameBytes (averageFrame f (captured f frames s framenumber.toNat) framenumber)]
      else []

end Model

section Payloads
variable (f : FrameFormat) (frames : Nat → Pixels f.len) (s : Session f.len)
variable (framenumber multiframe : UInt8)

theorem frameBytes_length {len : Nat} (frame : Pixels len) : (frameBytes frame).length = 2 * len := by
  have each : ∀ l : List UInt16, (l.flatMap fun (p : UInt16) =>
      [p.toUInt8, (p >>> 8).toUInt8]).length = 2 * l.length := by
    intro l
    induction l with
    | nil => rfl
    | cons p l ih =>
        rw [List.flatMap_cons, List.length_append, ih, List.length_cons, List.length_cons,
          List.length_nil, List.length_cons]
        omega
  rw [frameBytes, each, List.length_ofFn]

theorem take_frameBytes {len : Nat} (frame : Pixels len) :
    (frameBytes frame).take (2 * len) = frameBytes frame :=
  List.take_of_length_le (frameBytes_length frame).le

theorem readFrame_whole (store : Store f.len) (index : Nat) :
    readFrame f (wholeFrames f frames) framenumber.toNat store index =
      let sums := multiFrameAddition store.sums (frames store.reads) (!f.vicap)
      if index + 1 = framenumber.toNat then
        ⟨(multiFrameAverage sums store.averaged framenumber).1,
          (multiFrameAverage sums store.averaged framenumber).2, store.reads + 1,
          store.sent ++ [frameBytes (multiFrameAverage sums store.averaged framenumber).2]⟩
      else
        ⟨sums, store.averaged, store.reads + 1, store.sent ++
          if index + 1 = framenumber.toNat / 2 then [frameBytes (frames store.reads)] else []⟩ := by
  simp only [readFrame, multiFrameCallBack, wholeFrames, lt_irrefl, if_false, UInt8.ofNat_toNat,
    take_frameBytes]
  split_ifs
  · rfl
  · rfl
  · rw [List.append_nil]

theorem captured_succ (count : Nat) : captured f frames s (count + 1) =
    captured f frames s count ++ [frames (s.store.reads + 5 + count)] := by
  rw [captured, List.range_succ, List.map_append]
  rfl

/-- The store after the callbacks of the first frames, before the last one. -/
theorem fold_before_last (count : Nat) (less : count < framenumber.toNat)
    (two : 2 ≤ framenumber.toNat) :
    (List.range count).foldl (readFrame f (wholeFrames f frames) framenumber.toNat)
        ⟨0, 0, s.store.reads + 5, s.store.sent⟩ =
      ⟨accumulate (!f.vicap) (captured f frames s count), 0, s.store.reads + 5 + count,
        s.store.sent ++ if framenumber.toNat / 2 ≤ count then
          [frameBytes (frames (s.store.reads + 5 + (framenumber.toNat / 2 - 1)))] else []⟩ := by
  induction count with
  | zero =>
      rw [if_neg (by omega), List.append_nil]
      rfl
  | succ count ih =>
      rw [List.range_succ, List.foldl_append, ih (by omega), List.foldl_cons, List.foldl_nil,
        readFrame_whole, captured_succ, accumulate_concat]
      simp only
      rw [if_neg (by omega)]
      by_cases middle : count + 1 = framenumber.toNat / 2
      · have index : framenumber.toNat / 2 - 1 = count := by omega
        rw [if_pos middle, if_neg (by omega), List.append_nil, if_pos (by omega), index]
        rfl
      · rw [if_neg middle, List.append_nil]
        have same : framenumber.toNat / 2 ≤ count + 1 ↔ framenumber.toNat / 2 ≤ count := by omega
        simp only [same]
        rfl

theorem fold_all (two : 2 ≤ framenumber.toNat) :
    ((List.range framenumber.toNat).foldl (readFrame f (wholeFrames f frames) framenumber.toNat)
        ⟨0, 0, s.store.reads + 5, s.store.sent⟩).sent =
      s.store.sent ++ [frameBytes (frames (s.store.reads + 5 + (framenumber.toNat / 2 - 1))),
        frameBytes (multiFrameAverage (accumulate (!f.vicap)
          (captured f frames s framenumber.toNat)) 0 framenumber).2] := by
  obtain ⟨last, number⟩ : ∃ last, framenumber.toNat = last + 1 := ⟨framenumber.toNat - 1, by omega⟩
  have range : List.range framenumber.toNat = List.range last ++ [last] := by
    rw [number, List.range_succ]
  have all : captured f frames s framenumber.toNat =
      captured f frames s last ++ [frames (s.store.reads + 5 + last)] := by
    rw [number, captured_succ]
  rw [range, List.foldl_append, fold_before_last f frames s framenumber last (by omega) two,
    List.foldl_cons, List.foldl_nil, readFrame_whole, all, accumulate_concat]
  simp only
  rw [if_pos number.symm, if_pos (by omega), List.append_assoc]
  rfl

theorem multiFrameRange_first (v : RawVars) (fresh : v.captureFramesIndex = 0) :
    multiFrameRange v = List.range (v.captureFrames / 2) := by
  rw [multiFrameRange, if_pos fresh]

theorem multiFrameRange_second (v : RawVars) (half : v.captureFramesIndex = v.captureFrames / 2)
    (later : v.captureFramesIndex ≠ 0) :
    multiFrameRange v =
      List.range' (v.captureFrames / 2) (v.captureFrames - v.captureFrames / 2) := by
  rw [multiFrameRange, if_neg later, if_pos half]

theorem start_setParam :
    (start f (wholeFrames f frames) (setParam f framenumber multiframe s)).vars.captureFramesIndex =
        framenumber.toNat / 2 ∧
      (start f (wholeFrames f frames) (setParam f framenumber multiframe s)).vars.captureFrames =
        framenumber.toNat ∧
      (start f (wholeFrames f frames) (setParam f framenumber multiframe s)).vars.captureMode =
        multiframe.toNat ∧
      (start f (wholeFrames f frames) (setParam f framenumber multiframe s)).store =
        (List.range (framenumber.toNat / 2)).foldl
          (readFrame f (wholeFrames f frames) framenumber.toNat)
          ⟨0, 0, s.store.reads + 5, s.store.sent⟩ := by
  have range : multiFrameRange (setParam f framenumber multiframe s).vars =
      List.range (framenumber.toNat / 2) := multiFrameRange_first _ rfl
  refine ⟨?_, rfl, rfl, ?_⟩
  · simp only [start, range, List.length_range]
    exact Nat.zero_add _
  · simp only [start, range]
    rfl

theorem sent_both (two : 2 ≤ framenumber.toNat) :
    (start f (wholeFrames f frames) (start f (wholeFrames f frames)
        (setParam f framenumber multiframe s))).store.sent =
      s.store.sent ++ [frameBytes (frames (s.store.reads + 5 + (framenumber.toNat / 2 - 1))),
        frameBytes (multiFrameAverage (accumulate (!f.vicap)
          (captured f frames s framenumber.toNat)) 0 framenumber).2] := by
  obtain ⟨index, number, -, store⟩ := start_setParam f frames s framenumber multiframe
  generalize start f (wholeFrames f frames) (setParam f framenumber multiframe s) = first at *
  have later : first.vars.captureFramesIndex ≠ 0 := by omega
  have range := multiFrameRange_second first.vars (by rw [index, number]) later
  have joined : List.range (framenumber.toNat / 2) ++
      List.range' (framenumber.toNat / 2) (framenumber.toNat - framenumber.toNat / 2) =
        List.range framenumber.toNat := by
    have count : framenumber.toNat / 2 + (framenumber.toNat - framenumber.toNat / 2) =
        framenumber.toNat := by omega
    have append := List.range'_append_1 (s := 0) (m := framenumber.toNat / 2)
      (n := framenumber.toNat - framenumber.toNat / 2)
    rw [Nat.zero_add, count] at append
    rw [List.range_eq_range', List.range_eq_range', append]
  simp only [start, range, startStore, if_neg later]
  rw [number, store, ← List.foldl_append, joined, fold_all f frames s framenumber two]

theorem startCalls_first (multi : multiframe ≠ 0) (two : 2 ≤ framenumber.toNat) :
    startCalls f (setParam f framenumber multiframe s) =
      .startCapture :: (List.replicate 5 .readFrame ++
        List.replicate (framenumber.toNat / 2) .readFrame) := by
  have mode : (setParam f framenumber multiframe s).vars.captureMode ≠ 0 :=
    fun same => multi (UInt8.toNat_inj.mp same)
  have range : multiFrameRange (setParam f framenumber multiframe s).vars =
      List.range (framenumber.toNat / 2) := multiFrameRange_first _ rfl
  have more : ¬(setParam f framenumber multiframe s).vars.captureFramesIndex +
      framenumber.toNat / 2 = (setParam f framenumber multiframe s).vars.captureFrames := by
    show ¬0 + framenumber.toNat / 2 = framenumber.toNat
    omega
  simp only [startCalls, rawCaputureCalls, capture, if_neg mode, doMultiFrameCapture, range,
    List.length_range, if_neg more, List.map_const', List.append_nil]
  rfl

theorem startCalls_second (multi : multiframe ≠ 0) (two : 2 ≤ framenumber.toNat) :
    startCalls f (start f (wholeFrames f frames) (setParam f framenumber multiframe s)) =
      List.replicate (framenumber.toNat - framenumber.toNat / 2) .readFrame ++ [.stopCapture] := by
  obtain ⟨index, number, same, -⟩ := start_setParam f frames s framenumber multiframe
  generalize start f (wholeFrames f frames) (setParam f framenumber multiframe s) = first at *
  have mode : first.vars.captureMode ≠ 0 := by
    rw [same]
    exact fun zero => multi (UInt8.toNat_inj.mp zero)
  have later : first.vars.captureFramesIndex ≠ 0 := by omega
  have range := multiFrameRange_second first.vars (by rw [index, number]) later
  have all : first.vars.captureFramesIndex + (framenumber.toNat - framenumber.toNat / 2) =
      framenumber.toNat := by omega
  rw [number] at range
  simp only [startCalls, rawCaputureCalls, capture, if_neg mode, doMultiFrameCapture, range,
    List.length_range', number, if_pos all, if_neg later, skipFrames, List.map_const',
    List.nil_append]

theorem calls_both (multi : multiframe ≠ 0) (two : 2 ≤ framenumber.toNat) :
    startCalls f (setParam f framenumber multiframe s) ++
      startCalls f (start f (wholeFrames f frames) (setParam f framenumber multiframe s)) =
    .startCapture :: (List.replicate 5 .readFrame ++ List.replicate framenumber.toNat .readFrame) ++
      [.stopCapture] := by
  have count : framenumber.toNat / 2 + (framenumber.toNat - framenumber.toNat / 2) =
      framenumber.toNat := by omega
  have reads : List.replicate framenumber.toNat DeviceCall.readFrame =
      List.replicate (framenumber.toNat / 2) .readFrame ++
        List.replicate (framenumber.toNat - framenumber.toNat / 2) .readFrame := by
    rw [List.replicate_append_replicate, count]
  rw [startCalls_first f s framenumber multiframe multi two,
    startCalls_second f frames s framenumber multiframe multi two, reads]
  simp only [List.cons_append, List.append_assoc]

theorem average_sent (n : Nat) (supported : averageShift framenumber = some n) :
    (multiFrameAverage (accumulate (!f.vicap) (captured f frames s framenumber.toNat)) 0
      framenumber).2 = averageFrame f (captured f frames s framenumber.toNat) framenumber := by
  have all : (captured f frames s framenumber.toNat).length = framenumber.toNat := by
    rw [captured, List.length_map, List.length_range]
  funext i
  have pixel : (averagePixel n (accumulate (!f.vicap) (captured f frames s framenumber.toNat)
      i)).toNat = (total (!f.vicap) (captured f frames s framenumber.toNat) i +
        framenumber.toNat / 2) / framenumber.toNat :=
    (averaged_pixel f.geometry (!f.vicap) (captured f frames s framenumber.toNat) framenumber n
      supported all i).2.1
  rw [multiFrameAverage_of_some _ _ framenumber n supported, averageFrame, ← pixel]
  rfl

/-- For a number of frames that is refused, the zeroed buffer is sent in place of the average. -/
theorem sent_of_refused (two : 2 ≤ framenumber.toNat) (refused : averageShift framenumber = none) :
    (start f (wholeFrames f frames) (start f (wholeFrames f frames)
        (setParam f framenumber multiframe s))).store.sent =
      s.store.sent ++ [frameBytes (frames (s.store.reads + 5 + (framenumber.toNat / 2 - 1))),
        frameBytes (0 : Pixels f.len)] := by
  rw [sent_both f frames s framenumber multiframe two,
    multiFrameAverage_of_none _ _ framenumber refused]

/-- Exactly the supported numbers of frames keep a session to its two payloads. -/
theorem sends_iff_supported (multi : multiframe ≠ 0) (two : 2 ≤ framenumber.toNat) :
    Sends f frames s framenumber multiframe ↔ averageShift framenumber ≠ none := by
  constructor
  · intro sends refused
    have expected := sends.sent
    rw [sent_of_refused f frames s framenumber multiframe two refused,
      if_neg (not_not.mpr refused)] at expected
    have lengths := congrArg List.length expected
    simp at lengths
  · intro supported
    obtain ⟨n, shift⟩ := Option.ne_none_iff_exists'.mp supported
    refine ⟨?_, calls_both f frames s framenumber multiframe multi two, ?_⟩
    · rw [startCalls_first f s framenumber multiframe multi two]
      simp
    · rw [sent_both f frames s framenumber multiframe two, if_pos supported,
        average_sent f frames s framenumber n shift]

end Payloads

def onePixel : FrameFormat := ⟨⟨1, 1, by decide⟩, true, by decide⟩

def freshSession : Session onePixel.len := ⟨rawInitial, 0, 0, 0, []⟩

theorem two_frames_sent : Sends onePixel (fun _ _ => 0x10) freshSession 2 1 :=
  (sends_iff_supported onePixel (fun _ _ => 0x10) freshSession 2 1 (by decide) (by decide)).mpr
    (by decide)

/-- With three frames the second payload is the zeroed buffer. -/
theorem three_frames_send_zeroes :
    (start onePixel (wholeFrames onePixel fun _ _ => 0x10) (start onePixel
      (wholeFrames onePixel fun _ _ => 0x10) (setParam onePixel 3 1 freshSession))).store.sent =
        [[0x10, 0], [0, 0]] ∧
      ¬Sends onePixel (fun _ _ => 0x10) freshSession 3 1 := by
  have sent : (start onePixel (wholeFrames onePixel fun _ _ => 0x10) (start onePixel
      (wholeFrames onePixel fun _ _ => 0x10) (setParam onePixel 3 1 freshSession))).store.sent =
        [[0x10, 0], [0, 0]] :=
    sent_of_refused onePixel (fun _ _ => 0x10) freshSession 3 1 (by decide) (by decide)
  refine ⟨sent, fun sends => ?_⟩
  have expected := sends.sent
  rw [sent] at expected
  exact absurd (congrArg List.length expected) (by decide)

end WfyApp.FrameSession
