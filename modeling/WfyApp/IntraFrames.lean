import WfyApp.NalSplit
import WfyApp.VideoSource

/-! An intra frame on its way to the stream server: the server flow splits off its parameter
sets and pushes them and the whole frame (`SendMediaToServer`) to the list of each client; the
reader of a client takes them from the list, strips the start code of each and, in an intra
frame, everything before the intra unit (`VideoFramedSource::readFromList`). The list is that
of `VideoSource`, whose reductions may remove what has been pushed.
A failed assertion ends the process and is `none`, like a read outside a buffer. Each
copied buffer lies at an address of its own, with other bytes behind it. -/

namespace WfyApp.IntraFrames
open ByteText NalUnits NalSplit StepSystem
open VideoSource (Source Turn Flags Roomy)

inductive Mark where
  | intra
  | extraIntra
  | predicted
deriving DecidableEq, Repr

structure Packet where
  region : Region
  mark : Mark

def marks : Flags Packet where
  intra p := p.mark = .intra
  extraIntra p := p.mark = .extraIntra
  exclusive p intra := by simp [of_decide_eq_true intra]

/-- The packets of one intra frame; `codec` is the flow's video type. -/
def sendMediaToServer (codec : CodecType) (alloc : Nat → Bool) (address : Nat → Nat)
    (spare : Nat → Bytes) (r : Region) (timestamp : Int) : Option (List Packet) := do
  let spspps ← match codec with
    | .h264 => splitH264Separate alloc r timestamp
    | .h265 => splitH265Separate alloc r timestamp
    | .other => some []
  return spspps.mapIdx (fun i buf => ⟨⟨address i, buf.data, spare i⟩, .extraIntra⟩) ++ [⟨r, .intra⟩]

def readSize (r : Region) (p : Nat) : Option Nat := do
  if (← r.read p) ≠ 0 then
    none
  if (← r.read (p + 1)) ≠ 0 then
    none
  if (← r.read (p + 2)) = 0 then
    if (← r.read (p + 3)) ≠ 1 then
      none
    return 4
  if (← r.read (p + 2)) ≠ 1 then
    none
  return 3

/-- The bytes a client gets from a packet it has taken from its list, and the number cut off
at its limit. -/
def readFromList (codec : CodecType) (fMaxSize : Nat) (packet : Packet) : Option (Bytes × Nat) := do
  let (p, size) ←
    if packet.mark = .intra then
      match ← getIntraFromBuffer packet.region codec with
      | some (p, size) => if size ≤ 0 then none else some (p, size.toNat)
      | none => none
    else if packet.region.stop = 0 then none
    else some (0, packet.region.stop)
  let readSize ← readSize packet.region p
  let fFrameSize := size - readSize
  let taken := min fFrameSize fMaxSize
  return (← packet.region.copy (p + readSize) taken, fFrameSize - taken)

section Stream
variable (code : StartCode) (behind : Bytes)

theorem readSize_unit (r : Region) (front : Bytes) (u : Nal) (rest : Bytes)
    (layout : r.bytes = front ++ (u.coded code ++ rest)) :
    readSize r front.length = some code.bytes.length := by
  have at_code := read_coded code r front u rest layout
  have first := at_code 0 (by cases code <;> decide)
  rw [Nat.add_zero] at first
  cases code with
  | three =>
    simp [readSize, first, at_code 1 (by decide), at_code 2 (by decide), StartCode.bytes]
  | four =>
    simp [readSize, first, at_code 1 (by decide), at_code 2 (by decide), at_code 3 (by decide),
      StartCode.bytes]

def payload (fMaxSize : Nat) (bytes : Bytes) : Bytes × Nat :=
  (bytes.take fMaxSize, bytes.length - min bytes.length fMaxSize)

theorem read_rest (r : Region) (front : Bytes) (u : Nal) (rest : Bytes) (fMaxSize : Nat)
    (layout : r.bytes = front ++ (u.coded code ++ rest)) :
    (do
      let readSize ← readSize r front.length
      let fFrameSize := r.stop - front.length - readSize
      let taken := min fFrameSize fMaxSize
      return (← r.copy (front.length + readSize) taken, fFrameSize - taken)) =
      some (payload fMaxSize (u.bytes ++ rest)) := by
  have stop : r.stop = front.length + (code.bytes.length + (u.bytes ++ rest).length) := by
    simp [Region.stop, layout, Nal.coded]
  have size : r.stop - front.length - code.bytes.length = (u.bytes ++ rest).length := by omega
  have memory : r.memory = (front ++ code.bytes) ++ ((u.bytes ++ rest) ++ r.behind) := by
    simp [Region.memory, layout, Nal.coded]
  have tail : r.memory.drop (front.length + code.bytes.length) = (u.bytes ++ rest) ++ r.behind := by
    rw [memory, ← List.length_append, List.drop_left]
  have inside : front.length + code.bytes.length + min (u.bytes ++ rest).length fMaxSize ≤
      r.memory.length := by
    have long : r.stop ≤ r.memory.length := by
      rw [Region.memory, List.length_append, Region.stop]
      exact Nat.le_add_right _ _
    omega
  have cut : ((u.bytes ++ rest) ++ r.behind).take (min (u.bytes ++ rest).length fMaxSize) =
      (u.bytes ++ rest).take fMaxSize := by
    rw [List.take_append_of_le_length (Nat.min_le_left _ _), List.take_eq_take_iff]
    omega
  simp only [readSize_unit code r front u rest layout, Option.bind_eq_bind, Option.bind_some, size,
    Region.copy, if_pos inside, tail, payload, cut]
  rfl

def codecFlag (codec : CodecType) : UInt8 → Nat := if codec = .h264 then h264Flag else h265Flag

def idrType (codec : CodecType) : Int := if codec = .h265 then 19 else 5

theorem readFromList_unit (codec : CodecType) (fMaxSize address : Nat) (u : Nal) :
    readFromList codec fMaxSize ⟨⟨address, u.coded code, behind⟩, .extraIntra⟩ =
      some (payload fMaxSize u.bytes) := by
  have layout : (Region.mk address (u.coded code) behind).bytes = [] ++ (u.coded code ++ []) := by
    simp
  have rest := read_rest code ⟨address, u.coded code, behind⟩ [] u [] fMaxSize layout
  have some_byte : (Region.mk address (u.coded code) behind).stop ≠ 0 := by
    have long := List.length_pos_of_ne_nil u.nonempty
    simp only [Region.stop, Nal.coded, List.length_append]
    omega
  simp only [List.length_nil, Nat.zero_add, Nat.sub_zero, List.append_nil] at rest
  simpa [readFromList, some_byte] using rest

theorem readFromList_intra (codec : CodecType) (video : codec ≠ .other) (fMaxSize base : Nat)
    (before : List Nal) (idr : Nal) (rest : List Nal)
    (none_before : ∀ v ∈ before, Nal.type codec v ≠ idrType codec)
    (isIdr : Nal.type codec idr = idrType codec) :
    readFromList codec fMaxSize ⟨region code base behind (before ++ idr :: rest), .intra⟩ =
      some (payload fMaxSize (idr.bytes ++ stream code rest)) := by
  have layout : (region code base behind (before ++ idr :: rest)).bytes =
      stream code before ++ (idr.coded code ++ stream code rest) := by
    simp [region, stream]
  have found : getNalu 19 5 (region code base behind (before ++ idr :: rest)) codec =
      some (some ((stream code before).length, ((idr.coded code).length : Int))) :=
    getNalu_found code base behind 19 5 codec video before idr rest none_before isIdr
  have whole := read_rest code (region code base behind (before ++ idr :: rest)) (stream code before) idr
    (stream code rest) fMaxSize layout
  have later : (stream code before).length < (region code base behind (before ++ idr :: rest)).stop := by
    have some_byte := List.length_pos_of_ne_nil idr.nonempty
    simp only [Region.stop, layout, Nal.coded, List.length_append]
    omega
  have positive : ¬ ((region code base behind (before ++ idr :: rest)).stop : Int) -
      (stream code before).length ≤ 0 := by omega
  have size : (((region code base behind (before ++ idr :: rest)).stop : Int) -
      (stream code before).length).toNat =
      (region code base behind (before ++ idr :: rest)).stop - (stream code before).length := by omega
  simpa [readFromList, getIntraFromBuffer, found, positive, size] using whole

theorem flag_of_idr (codec : CodecType) (u : Nal) (isIdr : Nal.type codec u = idrType codec) :
    codecFlag codec u.header = 0 := by
  have typeIs (n : Nat) (small : n < 256) (same : idrType codec = n) :
      codecNalType codec u.header = UInt8.ofNat n := by
    refine UInt8.toNat_inj.mp ?_
    rw [UInt8.toNat_ofNat', Nat.mod_eq_of_lt small]
    rw [Nal.type, same] at isIdr
    exact_mod_cast isIdr
  cases codec with
  | h264 =>
    have five : h264NalType u.header = 5 := typeIs 5 (by decide) rfl
    simp [codecFlag, h264Flag, five]
  | h265 =>
    have nineteen : h265NalType u.header = 19 := typeIs 19 (by decide) rfl
    simp [codecFlag, h265Flag, nineteen]
  | other =>
    have five : h265NalType u.header = 5 := typeIs 5 (by decide) rfl
    simp [codecFlag, h265Flag, five]

theorem leading_before_idr (codec : CodecType) (before : List Nal) (idr : Nal) (rest : List Nal)
    (isIdr : Nal.type codec idr = idrType codec) :
    leading (codecFlag codec) (before ++ idr :: rest) = leading (codecFlag codec) before := by
  have other := flag_of_idr codec idr isIdr
  induction before with
  | nil => simp [leading, other]
  | cons u before ih =>
    simp only [leading, List.cons_append, List.takeWhile_cons] at ih ⊢
    split
    · rw [ih]
    · rfl

theorem mapIdx_buffers (flag : UInt8 → Nat) (type : MediaType) (timestamp : Int)
    (address : Nat → Nat) (spare : Nat → Bytes) (units : List Nal) :
    (units.map (bufferOf code flag type timestamp)).mapIdx
        (fun i buf => (⟨⟨address i, buf.data, spare i⟩, .extraIntra⟩ : Packet)) =
      units.mapIdx fun i u => ⟨⟨address i, u.coded code, spare i⟩, .extraIntra⟩ := by
  induction units generalizing address spare with
  | nil => rfl
  | cons u units ih =>
    rw [List.map_cons, List.mapIdx_cons, List.mapIdx_cons,
      ih (fun i => address (i + 1)) fun i => spare (i + 1)]
    rfl

theorem sendMediaToServer_stream (codec : CodecType) (video : codec ≠ .other) (base : Nat)
    (alloc : Nat → Bool) (address : Nat → Nat) (spare : Nat → Bytes) (timestamp : Int)
    (units : List Nal) (some_unit : units ≠ [])
    (allocated : ∀ k < (leading (codecFlag codec) units).length, alloc k = true) :
    sendMediaToServer codec alloc address spare (region code base behind units) timestamp =
      some ((leading (codecFlag codec) units).mapIdx
          (fun i u => ⟨⟨address i, u.coded code, spare i⟩, .extraIntra⟩) ++
        [⟨region code base behind units, .intra⟩]) := by
  cases codec with
  | h264 =>
    have flag : codecFlag .h264 = h264Flag := rfl
    rw [flag] at allocated ⊢
    have split := splitSeparate_stream code base behind h264Flag .video alloc timestamp units some_unit
    rw [if_pos allocated] at split
    simp [sendMediaToServer, splitH264Separate, split, mapIdx_buffers]
  | h265 =>
    have flag : codecFlag .h265 = h265Flag := rfl
    rw [flag] at allocated ⊢
    have split := splitSeparate_stream code base behind h265Flag .none alloc timestamp units some_unit
    rw [if_pos allocated] at split
    simp [sendMediaToServer, splitH265Separate, split, mapIdx_buffers]
  | other => exact absurd rfl video

theorem mapM_units (codec : CodecType) (fMaxSize : Nat) (address : Nat → Nat)
    (spare : Nat → Bytes) (units : List Nal) :
    (units.mapIdx fun i u => (⟨⟨address i, u.coded code, spare i⟩, .extraIntra⟩ : Packet)).mapM
        (readFromList codec fMaxSize) =
      some (units.map fun u => payload fMaxSize u.bytes) := by
  induction units generalizing address spare with
  | nil => rfl
  | cons u units ih =>
    rw [List.mapIdx_cons, List.mapM_cons, readFromList_unit,
      ih (fun i => address (i + 1)) fun i => spare (i + 1)]
    rfl

/-- The frame and its sets are what the reader hands on without regard to what came before. -/
theorem marked_units (address : Nat → Nat) (spare : Nat → Bytes) (units : List Nal) (r : Region) :
    ∀ p ∈ (units.mapIdx fun i u => (⟨⟨address i, u.coded code, spare i⟩, .extraIntra⟩ : Packet)) ++
        [⟨r, .intra⟩], marks.intra p = true ∨ marks.extraIntra p = true := by
  intro p member
  rcases List.mem_append.mp member with set | frame
  · obtain ⟨i, inside, rfl⟩ := List.mem_mapIdx.mp set
    exact .inr rfl
  · rw [List.mem_singleton.mp frame]
    exact .inl rfl

/-- The leading parameter sets and the frame are pushed. A client whose list was empty, and
from which no reduction removes anything, is handed all of them; what it gets from them is
each set without its start code, and then the frame from its first intra unit on. That is
the units of the frame, one by one, exactly if nothing stands between the parameter sets and
the intra unit and nothing after it. -/
theorem intra_frame_delivered (codec : CodecType) (video : codec ≠ .other) (fMaxSize base : Nat)
    (alloc : Nat → Bool) (address : Nat → Nat) (spare : Nat → Bytes) (timestamp : Int)
    (before : List Nal) (idr : Nal) (rest : List Nal)
    (none_before : ∀ v ∈ before, Nal.type codec v ≠ idrType codec)
    (isIdr : Nal.type codec idr = idrType codec)
    (allocated : ∀ k < (leading (codecFlag codec) (before ++ idr :: rest)).length, alloc k = true) :
    ∃ packets got,
      sendMediaToServer codec alloc address spare (region code base behind (before ++ idr :: rest))
        timestamp = some packets ∧
      (∀ (s t : Source Packet) (turns : List (Turn Packet)), s.cachedBuffers = [] →
        StepsMeet (VideoSource.step (.video marks)) Roomy s turns →
        exec (VideoSource.step (.video marks)) s turns = some t →
        t.pushed = s.pushed ++ packets → t.cachedBuffers = [] →
        t.delivered = s.delivered ++ packets) ∧
      packets.mapM (readFromList codec fMaxSize) = some got ∧
      got = (leading (codecFlag codec) (before ++ idr :: rest)).map (fun u => payload fMaxSize u.bytes) ++
        [payload fMaxSize (idr.bytes ++ stream code rest)] ∧
      (got = (before ++ idr :: rest).map (fun u => payload fMaxSize u.bytes) ↔
        before = leading (codecFlag codec) (before ++ idr :: rest) ∧ rest = []) := by
  have sent := sendMediaToServer_stream code behind codec video base alloc address spare timestamp
    (before ++ idr :: rest) (by simp) allocated
  have ends := leading_before_idr codec before idr rest isIdr
  refine ⟨_, _, sent, ?_, ?_, rfl, ?_⟩
  · intro s t turns empty roomy ran pushed taken
    exact VideoSource.delivered_of_roomy marks s t turns _ empty roomy ran pushed
      (marked_units code address spare _ _) taken
  · rw [List.mapM_append, mapM_units code codec fMaxSize address spare, List.mapM_cons,
      readFromList_intra code behind codec video fMaxSize base before idr rest none_before isIdr]
    rfl
  · rw [ends]
    constructor
    · intro same
      have count := congrArg List.length same
      have shorter : (leading (codecFlag codec) before).length ≤ before.length :=
        (List.takeWhile_sublist _).length_le
      simp only [List.length_append, List.length_map, List.length_cons, List.length_nil] at count
      have whole : (leading (codecFlag codec) before).length = before.length := by omega
      exact ⟨((List.takeWhile_prefix _).eq_of_length whole).symm,
        List.eq_nil_of_length_eq_zero (by omega)⟩
    · rintro ⟨all, rfl⟩
      rw [← all]
      simp [stream]

def smallPackets : List Packet :=
  [⟨⟨8, smallSps.coded .four, []⟩, .extraIntra⟩, ⟨⟨9, smallPps.coded .four, [7]⟩, .extraIntra⟩,
    ⟨region .four 0 [] ([smallSps, smallPps] ++ smallSlice :: []), .intra⟩]

def smallTurns : List (Turn Packet) :=
  smallPackets.flatMap fun packet => [.push packet, .read, .pop]

theorem intra_frame_small :
    ∃ t, exec (VideoSource.step (.video marks)) VideoSource.initial smallTurns = some t ∧
      t.delivered.mapM (readFromList .h264 1000) =
        some [payload 1000 smallSps.bytes, payload 1000 smallPps.bytes,
          payload 1000 smallSlice.bytes] := by
  obtain ⟨packets, got, sent, handed, read, units, -⟩ := intra_frame_delivered .four [] .h264
    (by decide) 1000 0 (fun _ => true) (· + 8) (fun i => List.replicate i 7) 0
    [smallSps, smallPps] smallSlice [] (by decide) (by decide) (fun _ _ => rfl)
  obtain rfl : smallPackets = packets := Option.some.inj (Eq.trans rfl sent)
  have ran : ∃ t, exec (VideoSource.step (.video marks)) VideoSource.initial smallTurns = some t ∧
      t.pushed = [] ++ smallPackets ∧ t.cachedBuffers = [] := ⟨_, rfl, rfl, rfl⟩
  have roomy : StepsMeet (VideoSource.step (.video marks)) Roomy VideoSource.initial smallTurns :=
    VideoSource.roomy_of_few marks _ _ (by decide)
  obtain ⟨t, reached, pushed, taken⟩ := ran
  have delivered := handed VideoSource.initial t smallTurns rfl roomy reached pushed taken
  refine ⟨t, reached, ?_⟩
  have none : (VideoSource.initial : Source Packet).delivered = [] := rfl
  rw [delivered, none, List.nil_append, read, units]
  rfl

end Stream

end WfyApp.IntraFrames
