import WfyApp.NalUnits

/-! What the media library takes out of encoded video: the leading parameter sets as
buffers of their own (`split_h264_separate`, `split_h265_separate`), the first unit of a
type (`FindNaluByType`) and the `Get…FromBuffer` family over it.
The outcome of each allocation is a parameter. -/

namespace WfyApp.NalSplit
open ByteText NalUnits

inductive MediaType where
  | none
  | audio
  | image
  | video
  | text
  deriving DecidableEq, Repr

inductive CodecType where
  | h264
  | h265
  | other
  deriving DecidableEq, Repr

def kExtraIntra : Nat := 1

structure MediaBuffer where
  data : Bytes
  validSize : Nat
  userFlag : Nat
  timestamp : Int
  type : MediaType
  deriving DecidableEq, Repr

def h264NalType (header : UInt8) : UInt8 := header &&& 0x1F

def h265NalType (header : UInt8) : UInt8 := (header &&& 0x7E) >>> 1

def h264Flag (header : UInt8) : Nat :=
  if h264NalType header = 7 ∨ h264NalType header = 8 then kExtraIntra else 0

def h265Flag (header : UInt8) : Nat :=
  if h265NalType header = 32 ∨ h265NalType header = 33 ∨ h265NalType header = 34 then kExtraIntra
  else 0

/-- The length of the first start code, which the callers take for that of all of them. -/
def startLen (r : Region) (nalStart : Nat) : Option Nat :=
  (r.is (nalStart + 2) 1).map fun one => if one then 3 else 4

/-- The loop of the two splitting functions. `alloc k` is the outcome of the `k`-th
allocation; one that fails empties the list. -/
def splitLoop (flag : UInt8 → Nat) (type : MediaType) (alloc : Nat → Bool) (r : Region)
    (timestamp : Int) (startLen : Nat) :
    (fuel nalStart : Nat) → List MediaBuffer → Option (List MediaBuffer)
  | 0, _, _ => none
  | fuel + 1, nalStart, l => do
    if nalStart = r.stop then
      return l
    let nalEnd ← findNaluStartcode r (nalStart + startLen) r.stop
    let size := nalEnd + startLen - (nalStart + startLen)
    let header ← r.read (nalStart + startLen)
    if flag header = 0 then
      return l
    if !alloc l.length then
      return []
    let data ← r.copy nalStart size
    splitLoop flag type alloc r timestamp startLen fuel nalEnd
      (l ++ [⟨data, size, flag header, timestamp, type⟩])

def splitSeparate (flag : UInt8 → Nat) (type : MediaType) (alloc : Nat → Bool) (r : Region)
    (timestamp : Int) : Option (List MediaBuffer) := do
  let nalStart ← findNaluStartcode r 0 r.stop
  let startLen ← startLen r nalStart
  splitLoop flag type alloc r timestamp startLen (r.stop + 1) nalStart []

def splitH264Separate := splitSeparate h264Flag .video

/-- This one does not set the type of its buffers. -/
def splitH265Separate := splitSeparate h265Flag .none

/-- The loop of `FindNaluByType`; the test for the end is made on the unit before. -/
def findLoop (nalType : UInt8 → UInt8) (wanted : Int) (r : Region) (startLen : Nat) :
    (fuel nalStart nalEnd : Nat) → Option (Option (Nat × Int))
  | 0, _, _ => none
  | fuel + 1, nalStart, nalEnd => do
    if nalStart = r.stop then
      return none
    let next ← findNaluStartcode r (nalEnd + startLen) r.stop
    let header ← r.read (nalEnd + startLen)
    if (nalType header).toNat = wanted then
      return some (nalEnd, next - nalEnd)
    findLoop nalType wanted r startLen fuel nalEnd next

def findNaluByType (r : Region) (wanted : Int) (codec : CodecType) :
    Option (Option (Nat × Int)) := do
  if codec ≠ .h264 ∧ codec ≠ .h265 then
    return none
  let nalStart ← findNaluStartcode r 0 r.stop
  let startLen ← startLen r nalStart
  let nalType := if codec = .h264 then h264NalType else h265NalType
  findLoop nalType wanted r startLen (r.stop + 2) nalStart nalStart

def getNalu (h265Type h264Type : Int) (r : Region) (codec : CodecType) :
    Option (Option (Nat × Int)) :=
  match codec with
  | .h265 => findNaluByType r h265Type .h265
  | .h264 => findNaluByType r h264Type .h264
  | .other => some none

def getSpsFromBuffer := getNalu 33 7

def getPpsFromBuffer := getNalu 34 8

def getSpsPpsFromBuffer (r : Region) (codec : CodecType) : Option (Option (Nat × Int)) := do
  match ← getSpsFromBuffer r codec with
  | none => return none
  | some (spsPtr, spsSize) =>
    match ← getPpsFromBuffer r codec with
    | none => return none
    | some (_, ppsSize) => return some (spsPtr, spsSize + ppsSize)

def getIntraFromBuffer (r : Region) (codec : CodecType) : Option (Option (Nat × Int)) :=
  (getNalu 19 5 r codec).map fun found => found.map fun (p, _) => (p, (r.stop : Int) - p)

section Stream
variable (code : StartCode) (base : Nat) (behind : Bytes)

def region (units : List Nal) : Region := ⟨base, stream code units, behind⟩

theorem before_stop (r : Region) (front : Bytes) (u : Nal) (rest : Bytes)
    (layout : r.bytes = front ++ (u.coded code ++ rest)) : front.length ≠ r.stop := by
  have some_byte := List.length_pos_of_ne_nil u.nonempty
  simp only [Region.stop, layout, Nal.coded, List.length_append]
  omega

theorem read_coded (r : Region) (front : Bytes) (u : Nal) (rest : Bytes)
    (layout : r.bytes = front ++ (u.coded code ++ rest)) (k : Nat) (inside : k < code.bytes.length) :
    r.read (front.length + k) = code.bytes[k]? := by
  have valid : front.length + k < r.stop := by
    simp only [Region.stop, layout, Nal.coded, List.length_append]
    omega
  rw [r.read_eq _ valid, layout, List.getElem?_append_right (by omega), Nal.coded,
    List.append_assoc, Nat.add_sub_cancel_left, List.getElem?_append_left inside]

theorem startLen_stream (r : Region) (front : Bytes) (u : Nal) (rest : Bytes)
    (layout : r.bytes = front ++ (u.coded code ++ rest)) :
    startLen r front.length = some code.bytes.length := by
  have read := read_coded code r front u rest layout 2 (by cases code <;> decide)
  cases code <;> simp [startLen, Region.is, read, StartCode.bytes]

theorem read_header (r : Region) (front : Bytes) (u : Nal) (rest : Bytes)
    (layout : r.bytes = front ++ (u.coded code ++ rest)) :
    r.read (front.length + code.bytes.length) = some u.header := by
  have before : r.bytes = (front ++ code.bytes) ++ (u.bytes ++ rest) := by
    simp [layout, Nal.coded]
  have position : front.length + code.bytes.length = (front ++ code.bytes).length := by simp
  have some_byte := List.length_pos_of_ne_nil u.nonempty
  have valid : (front ++ code.bytes).length < r.stop := by
    simp only [Region.stop, before, List.length_append]
    omega
  rw [position, r.read_eq _ valid, before, List.getElem?_append_right le_rfl, Nat.sub_self,
    List.getElem?_append_left some_byte, Nal.header, List.head_eq_getElem]
  exact List.getElem?_eq_getElem some_byte

theorem findNaluStartcode_stream (r : Region) (front : Bytes) (u : Nal) (units : List Nal)
    (layout : r.bytes = front ++ (u.coded code ++ stream code units)) :
    findNaluStartcode r (front.length + code.bytes.length) r.stop =
      some (front.length + (u.coded code).length) := by
  have position : front.length + code.bytes.length = (front ++ code.bytes).length := by simp
  have target : front.length + (u.coded code).length =
      (front ++ code.bytes).length + u.bytes.length := by simp [Nal.coded, Nat.add_assoc]
  cases units with
  | nil =>
    have last : r.bytes = (front ++ code.bytes) ++ u.bytes := by
      simp [layout, Nal.coded, stream]
    have stop : r.stop = (front ++ code.bytes).length + u.bytes.length := by
      rw [Region.stop, last, List.length_append]
    rw [position, findNaluStartcode_last r _ u last, stop, target]
  | cons v units =>
    have next : r.bytes = (front ++ code.bytes) ++
        (u.bytes ++ (code.bytes ++ (v.bytes ++ stream code units))) := by
      simp [layout, Nal.coded, stream]
    rw [position, findNaluStartcode_next r code _ u v _ next, target]

def bufferOf (flag : UInt8 → Nat) (type : MediaType) (timestamp : Int) (u : Nal) : MediaBuffer :=
  ⟨u.coded code, (u.coded code).length, flag u.header, timestamp, type⟩

theorem copy_unit (r : Region) (front : Bytes) (u : Nal) (rest : Bytes)
    (layout : r.bytes = front ++ (u.coded code ++ rest)) :
    r.copy front.length (u.coded code).length = some (u.coded code) := by
  have memory : r.memory = front ++ (u.coded code ++ (rest ++ r.behind)) := by
    simp [Region.memory, layout]
  have inside : front.length + (u.coded code).length ≤ r.memory.length := by
    simp only [memory, List.length_append]
    omega
  rw [Region.copy, if_pos inside, memory, List.drop_left, List.take_left]

section Split
variable (flag : UInt8 → Nat) (type : MediaType) (alloc : Nat → Bool) (timestamp : Int)

/-- The units a splitting function copies: those before the first that is no parameter set. -/
def leading (units : List Nal) : List Nal := units.takeWhile fun u => flag u.header != 0

theorem splitLoop_unit (r : Region) (front : Bytes) (u : Nal) (units : List Nal) (fuel : Nat)
    (l : List MediaBuffer) (layout : r.bytes = front ++ (u.coded code ++ stream code units)) :
    splitLoop flag type alloc r timestamp code.bytes.length (fuel + 1) front.length l =
      if flag u.header = 0 then some l
      else if !alloc l.length then some []
      else splitLoop flag type alloc r timestamp code.bytes.length fuel
        (front.length + (u.coded code).length) (l ++ [bufferOf code flag type timestamp u]) := by
  have unfinished := before_stop code r front u _ layout
  have size : front.length + (u.coded code).length + code.bytes.length -
      (front.length + code.bytes.length) = (u.coded code).length := by omega
  rw [splitLoop, if_neg unfinished]
  simp only [findNaluStartcode_stream code r front u units layout,
    read_header code r front u _ layout, Option.bind_eq_bind, Option.bind_some, size,
    copy_unit code r front u _ layout]
  rfl

theorem splitLoop_stream (r : Region) (front : Bytes) (units : List Nal) (fuel : Nat)
    (l : List MediaBuffer) (layout : r.bytes = front ++ stream code units)
    (enough : units.length < fuel) :
    splitLoop flag type alloc r timestamp code.bytes.length fuel front.length l =
      some (if ∀ k < (leading flag units).length, alloc (l.length + k) = true then
        l ++ (leading flag units).map (bufferOf code flag type timestamp) else []) := by
  induction units generalizing front fuel l with
  | nil =>
    obtain ⟨fuel, rfl⟩ := Nat.exists_eq_succ_of_ne_zero (Nat.ne_of_gt enough)
    have finished : front.length = r.stop := by simp [Region.stop, layout, stream]
    simp [splitLoop, finished, leading]
  | cons u units ih =>
    obtain ⟨fuel, rfl⟩ := Nat.exists_eq_succ_of_ne_zero (show fuel ≠ 0 by omega)
    have here : r.bytes = front ++ (u.coded code ++ stream code units) := by
      rw [layout, stream, List.flatMap_cons, stream]
    rw [splitLoop_unit code flag type alloc timestamp r front u units fuel l here]
    by_cases other : flag u.header = 0
    · have none : leading flag (u :: units) = [] := by simp [leading, other]
      simp [other, none]
    have first : leading flag (u :: units) = u :: leading flag units := by simp [leading, other]
    have count : (∀ k < (leading flag units).length + 1, alloc (l.length + k) = true) ↔
        alloc l.length = true ∧
          ∀ k < (leading flag units).length, alloc (l.length + 1 + k) = true := by
      simp only [Nat.forall_lt_succ_left, Nat.add_zero, Nat.add_assoc, Nat.add_comm 1]
    rw [if_neg other, first, List.length_cons]
    simp only [count]
    cases allocated : alloc l.length with
    | false => simp
    | true =>
      have length : front.length + (u.coded code).length = (front ++ u.coded code).length := by simp
      rw [length, ih (front ++ u.coded code) fuel _ (by rw [here, List.append_assoc])
        (by simp only [List.length_cons] at enough; omega)]
      simp

theorem units_length_le (units : List Nal) : units.length ≤ (stream code units).length := by
  induction units with
  | nil => exact Nat.zero_le _
  | cons u units ih =>
    have some_byte := List.length_pos_of_ne_nil u.nonempty
    simp only [stream, List.flatMap_cons, List.length_append, List.length_cons, Nal.coded] at ih ⊢
    omega

theorem region_begins (u : Nal) (rest : List Nal) :
    findNaluStartcode (region code base behind (u :: rest)) 0
        (region code base behind (u :: rest)).stop = some 0 ∧
      startLen (region code base behind (u :: rest)) 0 = some code.bytes.length := by
  have layout : (region code base behind (u :: rest)).bytes =
      [] ++ (u.coded code ++ stream code rest) := by
    rw [region, stream, List.flatMap_cons, List.nil_append, stream]
  have bytes : (region code base behind (u :: rest)).bytes =
      code.bytes ++ (u.bytes ++ stream code rest) := by
    rw [layout, Nal.coded, List.append_assoc, List.nil_append]
  exact ⟨findNaluStartcode_first _ code u (stream code rest) bytes,
    startLen_stream code _ [] u _ layout⟩

theorem splitSeparate_stream (units : List Nal) (some_unit : units ≠ []) :
    splitSeparate flag type alloc (region code base behind units) timestamp =
      some (if ∀ k < (leading flag units).length, alloc k = true then
        (leading flag units).map (bufferOf code flag type timestamp) else []) := by
  obtain ⟨u, rest, rfl⟩ := List.exists_cons_of_ne_nil some_unit
  obtain ⟨first, length⟩ := region_begins code base behind u rest
  have run := splitLoop_stream code flag type alloc timestamp (region code base behind (u :: rest)) []
    (u :: rest) ((region code base behind (u :: rest)).stop + 1) [] rfl
    (Nat.lt_succ_of_le (units_length_le code (u :: rest)))
  simp only [splitSeparate, first, Option.bind_eq_bind, Option.bind_some]
  rw [List.length_nil] at run
  rw [length, Option.bind_some, run]
  simp

/-- Each splitting function returns the parameter sets before the first other unit, each
with its start code as it stands in the buffer, or nothing if one allocation fails. The
buffers differ in their type: only the first function sets it. -/
theorem split_returns_leading_sets (units : List Nal) (some_unit : units ≠ []) :
    splitH264Separate alloc (region code base behind units) timestamp =
        some (if ∀ k < (leading h264Flag units).length, alloc k = true then
          (leading h264Flag units).map (bufferOf code h264Flag .video timestamp) else []) ∧
      splitH265Separate alloc (region code base behind units) timestamp =
        some (if ∀ k < (leading h265Flag units).length, alloc k = true then
          (leading h265Flag units).map (bufferOf code h265Flag .none timestamp) else []) :=
  ⟨splitSeparate_stream code base behind h264Flag .video alloc timestamp units some_unit,
    splitSeparate_stream code base behind h265Flag .none alloc timestamp units some_unit⟩

def smallSps : Nal := ⟨[0x67, 1], by decide, by decide, clean_of_inside _ (by decide)⟩

def smallPps : Nal := ⟨[0x68, 2], by decide, by decide, clean_of_inside _ (by decide)⟩

def smallSlice : Nal := ⟨[0x65, 0, 0, 3], by decide, by decide, clean_of_inside _ (by decide)⟩

theorem split_small_stream :
    [smallSps, smallPps, smallSlice] ≠ [] ∧
      splitH264Separate (fun _ => true) (region .four 1 [] [smallSps, smallPps, smallSlice]) 8 =
        some [⟨[0, 0, 0, 1, 0x67, 1], 6, kExtraIntra, 8, .video⟩,
          ⟨[0, 0, 0, 1, 0x68, 2], 6, kExtraIntra, 8, .video⟩] :=
  ⟨by simp, (split_returns_leading_sets .four 1 [] (fun _ => true) 8
    [smallSps, smallPps, smallSlice] (by simp)).1⟩

end Split

section Find
variable (nalType : UInt8 → UInt8) (wanted : Int)

theorem findLoop_unit (r : Region) (front : Bytes) (u : Nal) (units : List Nal)
    (fuel nalStart : Nat) (unfinished : nalStart ≠ r.stop)
    (layout : r.bytes = front ++ (u.coded code ++ stream code units)) :
    findLoop nalType wanted r code.bytes.length (fuel + 1) nalStart front.length =
      if (nalType u.header).toNat = wanted then some (some (front.length, ((u.coded code).length : Int)))
      else findLoop nalType wanted r code.bytes.length fuel front.length
        (front.length + (u.coded code).length) := by
  rw [findLoop, if_neg unfinished]
  simp only [findNaluStartcode_stream code r front u units layout,
    read_header code r front u _ layout, Option.bind_eq_bind, Option.bind_some]
  split <;> simp_all

theorem findNaluStartcode_past (r : Region) (p : Nat) (past : r.stop ≤ p) :
    findNaluStartcode r p r.stop = some r.stop := by
  have nowhere : r.stop - 3 - p = 0 := by omega
  rw [findNaluStartcode, findStartcodeInternal_eq r _ _ le_rfl, plainSearch, nowhere]
  simp

/-- What the lookup makes of the byte that it reads behind the end, if there is one: a unit
of no length, or no unit. -/
def strayUnit (stop : Nat) : Option UInt8 → Option (Option (Nat × Int))
  | none => none
  | some b => some (if (nalType b).toNat = wanted then some (stop, 0) else none)

/-- After the last unit the loop looks at the byte a start code after the end, and then
stops. -/
theorem findLoop_end (r : Region) (fuel nalStart : Nat) (unfinished : nalStart ≠ r.stop) :
    findLoop nalType wanted r code.bytes.length (fuel + 2) nalStart r.stop =
      strayUnit nalType wanted r.stop r.behind[code.bytes.length]? := by
  have past := findNaluStartcode_past r (r.stop + code.bytes.length) (Nat.le_add_right _ _)
  have byte : r.read (r.stop + code.bytes.length) = r.behind[code.bytes.length]? := by
    rw [Region.read, Region.memory, Region.stop, List.getElem?_append_right (Nat.le_add_right _ _),
      Nat.add_sub_cancel_left]
  rw [findLoop, if_neg unfinished, past, byte]
  cases r.behind[code.bytes.length]? with
  | none => rfl
  | some b =>
    simp only [Option.bind_eq_bind, Option.bind_some, strayUnit, sub_self]
    split
    · rfl
    · rw [findLoop, if_pos rfl]
      rfl

theorem findLoop_found (r : Region) (front : Bytes) (before : List Nal) (u : Nal)
    (after : List Nal) (fuel nalStart : Nat) (unfinished : nalStart ≠ r.stop)
    (layout : r.bytes = front ++ stream code (before ++ u :: after))
    (none_before : ∀ v ∈ before, ((nalType v.header).toNat : Int) ≠ wanted)
    (found : ((nalType u.header).toNat : Int) = wanted) (enough : before.length < fuel) :
    findLoop nalType wanted r code.bytes.length fuel nalStart front.length =
      some (some (front.length + (stream code before).length, ((u.coded code).length : Int))) := by
  induction before generalizing front fuel nalStart with
  | nil =>
    obtain ⟨fuel, rfl⟩ := Nat.exists_eq_succ_of_ne_zero (Nat.ne_of_gt enough)
    rw [findLoop_unit code nalType wanted r front u after fuel nalStart unfinished layout,
      if_pos found]
    rfl
  | cons v before ih =>
    obtain ⟨fuel, rfl⟩ := Nat.exists_eq_succ_of_ne_zero (show fuel ≠ 0 by omega)
    have here : r.bytes = front ++ (v.coded code ++ stream code (before ++ u :: after)) := layout
    have inside := before_stop code r front v _ here
    have length : front.length + (v.coded code).length = (front ++ v.coded code).length := by simp
    rw [findLoop_unit code nalType wanted r front v _ fuel nalStart unfinished here,
      if_neg (none_before v (by simp)), length,
      ih (front ++ v.coded code) fuel front.length inside (by rw [here, List.append_assoc])
        (fun w member => none_before w (List.mem_cons_of_mem v member))
        (by simp only [List.length_cons] at enough; omega)]
    simp [stream, Nat.add_assoc]

theorem findLoop_missing (r : Region) (front : Bytes) (units : List Nal) (fuel nalStart : Nat)
    (unfinished : nalStart ≠ r.stop) (layout : r.bytes = front ++ stream code units)
    (nowhere : ∀ v ∈ units, ((nalType v.header).toNat : Int) ≠ wanted)
    (enough : units.length + 2 ≤ fuel) :
    findLoop nalType wanted r code.bytes.length fuel nalStart front.length =
      strayUnit nalType wanted r.stop r.behind[code.bytes.length]? := by
  induction units generalizing front fuel nalStart with
  | nil =>
    obtain ⟨fuel, rfl⟩ := Nat.exists_eq_add_of_le' enough
    have finished : front.length = r.stop := by simp [Region.stop, layout, stream]
    rw [finished]
    exact findLoop_end code nalType wanted r fuel nalStart unfinished
  | cons v units ih =>
    obtain ⟨fuel, rfl⟩ := Nat.exists_eq_succ_of_ne_zero (show fuel ≠ 0 by omega)
    have here : r.bytes = front ++ (v.coded code ++ stream code units) := layout
    have inside := before_stop code r front v _ here
    have length : front.length + (v.coded code).length = (front ++ v.coded code).length := by simp
    rw [findLoop_unit code nalType wanted r front v _ fuel nalStart unfinished here,
      if_neg (nowhere v (by simp)), length]
    exact ih (front ++ v.coded code) fuel front.length inside (by rw [here, List.append_assoc])
      (fun w member => nowhere w (List.mem_cons_of_mem v member))
      (by simp only [List.length_cons] at enough; omega)

end Find

def codecNalType (codec : CodecType) : UInt8 → UInt8 :=
  if codec = .h264 then h264NalType else h265NalType

def Nal.type (codec : CodecType) (u : Nal) : Int := (codecNalType codec u.header).toNat

theorem findNaluByType_region (codec : CodecType) (video : codec ≠ .other) (wanted : Int)
    (units : List Nal) (some_unit : units ≠ []) :
    findNaluByType (region code base behind units) wanted codec =
      findLoop (codecNalType codec) wanted (region code base behind units) code.bytes.length
        ((region code base behind units).stop + 2) 0 0 := by
  obtain ⟨u, rest, rfl⟩ := List.exists_cons_of_ne_nil some_unit
  obtain ⟨first, length⟩ := region_begins code base behind u rest
  have known : ¬ (codec ≠ .h264 ∧ codec ≠ .h265) := by cases codec <;> simp_all
  simp only [findNaluByType, first, Option.bind_eq_bind, Option.bind_some, length, codecNalType,
    if_neg known]

theorem zero_ne_stop (units : List Nal) (some_unit : units ≠ []) :
    0 ≠ (region code base behind units).stop := by
  have count := units_length_le code units
  have positive := List.length_pos_of_ne_nil some_unit
  simp only [Region.stop, region]
  omega

theorem findNaluByType_found (codec : CodecType) (video : codec ≠ .other) (wanted : Int)
    (before : List Nal) (u : Nal) (after : List Nal)
    (none_before : ∀ v ∈ before, Nal.type codec v ≠ wanted) (found : Nal.type codec u = wanted) :
    findNaluByType (region code base behind (before ++ u :: after)) wanted codec =
      some (some ((stream code before).length, ((u.coded code).length : Int))) := by
  have nonempty : before ++ u :: after ≠ [] := by simp
  have enough : before.length < (region code base behind (before ++ u :: after)).stop + 2 := by
    have count := units_length_le code (before ++ u :: after)
    simp only [List.length_append, List.length_cons] at count
    simp only [Region.stop, region]
    omega
  rw [findNaluByType_region code base behind codec video wanted _ nonempty]
  simpa using findLoop_found code (codecNalType codec) wanted _ [] before u after _ 0
    (zero_ne_stop code base behind _ nonempty) rfl none_before found enough

theorem findNaluByType_missing (codec : CodecType) (video : codec ≠ .other) (wanted : Int)
    (units : List Nal) (some_unit : units ≠ [])
    (nowhere : ∀ v ∈ units, Nal.type codec v ≠ wanted) :
    findNaluByType (region code base behind units) wanted codec =
      strayUnit (codecNalType codec) wanted (stream code units).length
        behind[code.bytes.length]? := by
  rw [findNaluByType_region code base behind codec video wanted _ some_unit]
  exact findLoop_missing code (codecNalType codec) wanted _ [] units _ 0
    (zero_ne_stop code base behind units some_unit) rfl nowhere
    (Nat.add_le_add_right (units_length_le code units) 2)

def window (bytes : Bytes) (p : Nat) (size : Int) : Bytes := (bytes.drop p).take size.toNat

theorem getNalu_found (h265Type h264Type : Int) (codec : CodecType) (video : codec ≠ .other)
    (before : List Nal) (u : Nal) (after : List Nal)
    (none_before : ∀ v ∈ before, Nal.type codec v ≠ if codec = .h265 then h265Type else h264Type)
    (found : Nal.type codec u = if codec = .h265 then h265Type else h264Type) :
    getNalu h265Type h264Type (region code base behind (before ++ u :: after)) codec =
      some (some ((stream code before).length, ((u.coded code).length : Int))) := by
  cases codec with
  | h264 =>
      exact findNaluByType_found code base behind .h264 video h264Type before u after none_before
        found
  | h265 =>
      exact findNaluByType_found code base behind .h265 video h265Type before u after none_before
        found
  | other => exact absurd rfl video

def spsType (codec : CodecType) : Int := if codec = .h265 then 33 else 7
def ppsType (codec : CodecType) : Int := if codec = .h265 then 34 else 8

theorem prefix_stream_iff (v : Nal) (between after : List Nal) (rest : Bytes)
    (distinct : ∀ w ∈ between, w.header ≠ v.header) :
    v.coded code <+: stream code (between ++ v :: after) ++ rest ↔ between = [] := by
  cases between with
  | nil => simp [stream]
  | cons w between =>
    refine iff_of_false (fun begins => ?_) (by simp)
    have header (x : Nal) (rest : Bytes) :
        (x.coded code ++ rest)[code.bytes.length]? = some x.header := by
      simpa [Region.read, Region.memory] using
        read_header code ⟨0, x.coded code ++ rest, []⟩ [] x rest rfl
    -- the first unit between the two would have the header of the second
    obtain ⟨more, equal⟩ := begins
    have same := congrArg (fun l => l[code.bytes.length]?) equal
    simp only [stream, List.cons_append, List.flatMap_cons, List.append_assoc, header,
      Option.some.injEq] at same
    exact distinct w (by simp) same.symm

theorem window_pair (front : Bytes) (u v : Nal) (rest : Bytes) :
    window (front ++ (u.coded code ++ rest)) front.length
        ((u.coded code).length + (v.coded code).length) = u.coded code ++ v.coded code ↔
      v.coded code <+: rest := by
  have size : ((u.coded code).length + (v.coded code).length : Int).toNat =
      (u.coded code).length + (v.coded code).length := by omega
  rw [window, List.drop_left, size, List.take_length_add_append, List.append_cancel_left_eq,
    List.prefix_iff_eq_take, eq_comm]

end Stream

end WfyApp.NalSplit
