import WfyApp.SocketLoops

/-! Packets between the tool server and AIQ (rkaiq_socket.cpp): the hash, the layout that
`RkAiqSocketClientINETSend` writes, and what `RkAiqSocketClientINETReceive` makes of the
bytes it gets. Allocations succeed. -/

namespace WfyApp.AiqSocket
open ByteText ByteFields SocketLoops

section Hash

def hashM : UInt32 := 0x5bd1e995

def mixWord (h k : UInt32) : UInt32 :=
  let k := k * hashM
  let k := k ^^^ (k >>> 24)
  let k := k * hashM
  (h * hashM) ^^^ k

def mixWords : UInt32 → Bytes → UInt32 × Bytes
  | h, a :: b :: c :: d :: rest => mixWords (mixWord h (UInt32.ofNat (le [a, b, c, d]))) rest
  | h, rest => (h, rest)

def mixTail (h : UInt32) : Bytes → UInt32
  | [a] => (h ^^^ a.toUInt32) * hashM
  | [a, b] => (h ^^^ (b.toUInt32 <<< 8) ^^^ a.toUInt32) * hashM
  | [a, b, c] => (h ^^^ (c.toUInt32 <<< 16) ^^^ (b.toUInt32 <<< 8) ^^^ a.toUInt32) * hashM
  | _ => h

/-- The length is passed as an `int`: only that many bytes are hashed, and none if it is
negative. -/
def murMurHash (data : Bytes) : UInt32 :=
  let len := data.length % 2 ^ 32
  let hashed := if len < 2 ^ 31 then data.take len else []
  let (h, rest) := mixWords (97 ^^^ UInt32.ofNat data.length) hashed
  let h := mixTail h rest
  let h := h ^^^ (h >>> 13)
  let h := h * hashM
  h ^^^ (h >>> 15)

example : murMurHash [97, 98, 99, 100, 101, 102, 103] = 0xc0d84292 := by decide

end Hash

section Layout

def packetOverhead : Nat := 22

def magic : Bytes := [0x52, 0x4B]

/-- A packet as `RkAiqSocketClientINETSend` lays it out. -/
def packet (commandID commandResult : UInt32) (data : Bytes) : Bytes :=
  magic ++ (leBytes 4 (packetOverhead + data.length) ++ (leBytes 4 commandID.toNat ++
    (leBytes 4 commandResult.toNat ++ (leBytes 4 data.length ++
      (data ++ leBytes 4 (murMurHash data).toNat)))))

theorem packet_length (commandID commandResult : UInt32) (data : Bytes) :
    (packet commandID commandResult data).length = packetOverhead + data.length := by
  simp only [packet, magic, List.length_append, leBytes_length, packetOverhead, List.length_cons,
    List.length_nil]
  omega

variable (commandID commandResult : UInt32) (data rest : Bytes)

theorem packet_magic : (packet commandID commandResult data).take 2 = magic := rfl

theorem packet_packetSize (small : packetOverhead + data.length < 2 ^ 32) :
    field 2 4 (packet commandID commandResult data) = packetOverhead + data.length := by
  rw [field, packet, slice_middle magic _ _ 2 4 rfl (leBytes_length _ _), le_leBytes _ _ small]

theorem packet_dataSize (small : data.length < 2 ^ 32) :
    field 14 4 (packet commandID commandResult data) = data.length := by
  have split : packet commandID commandResult data =
      (magic ++ leBytes 4 (packetOverhead + data.length) ++ leBytes 4 commandID.toNat ++
        leBytes 4 commandResult.toNat) ++ (leBytes 4 data.length ++
        (data ++ leBytes 4 (murMurHash data).toNat)) := by
    simp only [packet, List.append_assoc]
  rw [field, split, slice_middle _ _ _ 14 4 (by simp [leBytes_length, magic]) (leBytes_length _ _),
    le_leBytes _ _ small]

theorem packet_data : slice 18 data.length (packet commandID commandResult data) = data := by
  have split : packet commandID commandResult data =
      (magic ++ leBytes 4 (packetOverhead + data.length) ++ leBytes 4 commandID.toNat ++
        leBytes 4 commandResult.toNat ++ leBytes 4 data.length) ++
        (data ++ leBytes 4 (murMurHash data).toNat) := by
    simp only [packet, List.append_assoc]
  rw [split, slice_middle _ _ _ 18 _ (by simp [leBytes_length, magic]) rfl]

theorem packet_dataHash :
    field (18 + data.length) 4 (packet commandID commandResult data) =
      (murMurHash data).toNat := by
  have split : packet commandID commandResult data =
      (magic ++ leBytes 4 (packetOverhead + data.length) ++ leBytes 4 commandID.toNat ++
        leBytes 4 commandResult.toNat ++ leBytes 4 data.length ++ data) ++
        (leBytes 4 (murMurHash data).toNat ++ []) := by
    simp only [packet, List.append_assoc, List.append_nil]
  rw [field, split, slice_middle _ _ _ _ 4 (by simp [leBytes_length, magic]; omega)
    (leBytes_length _ _), le_leBytes _ _ (murMurHash data).toNat_lt]

theorem eq_packet (s data : Bytes) (length : s.length = packetOverhead + data.length)
    (marked : s.take 2 = magic) (size : field 2 4 s = packetOverhead + data.length)
    (dataSize : field 14 4 s = data.length) (content : slice 18 data.length s = data)
    (hash : field (18 + data.length) 4 s = (murMurHash data).toNat) :
    ∃ commandID commandResult, s = packet commandID commandResult data := by
  unfold packetOverhead at length
  have number (offset : Nat) (fits : offset + 4 ≤ s.length) :
      leBytes 4 (field offset 4 s) = slice offset 4 s := by
    have four := leBytes_le (slice offset 4 s)
    rwa [slice_length offset 4 s fits] at four
  have word (offset : Nat) (fits : offset + 4 ≤ s.length) :
      leBytes 4 (UInt32.ofNat (field offset 4 s)).toNat = slice offset 4 s := by
    have small : field offset 4 s < 2 ^ 32 := by
      have bound := le_lt (slice offset 4 s)
      rwa [slice_length offset 4 s fits] at bound
    rw [UInt32.toNat_ofNat', Nat.mod_eq_of_lt small, number offset fits]
  have sizeBytes : leBytes 4 (packetOverhead + data.length) = slice 2 4 s := by
    rw [← size, number 2 (by omega)]
  have dataSizeBytes : leBytes 4 data.length = slice 14 4 s := by
    rw [← dataSize, number 14 (by omega)]
  have hashBytes : leBytes 4 (murMurHash data).toNat = s.drop (18 + data.length) := by
    rw [← hash, number _ (by omega), slice, List.take_of_length_le]
    rw [List.length_drop]
    omega
  refine ⟨UInt32.ofNat (field 6 4 s), UInt32.ofNat (field 10 4 s), ?_⟩
  calc s = s.take 2 ++ s.drop 2 := (List.take_append_drop 2 s).symm
    _ = s.take 2 ++ (slice 2 4 s ++ (slice 6 4 s ++ (slice 10 4 s ++ (slice 14 4 s ++
          (slice 18 data.length s ++ s.drop (18 + data.length)))))) := by
        rw [drop_eq_slice_append 2 4, drop_eq_slice_append (2 + 4) 4,
          drop_eq_slice_append (2 + 4 + 4) 4, drop_eq_slice_append (2 + 4 + 4 + 4) 4,
          drop_eq_slice_append (2 + 4 + 4 + 4 + 4) data.length]
    _ = packet (UInt32.ofNat (field 6 4 s)) (UInt32.ofNat (field 10 4 s)) data := by
        rw [packet, marked, content, sizeBytes, dataSizeBytes, hashBytes, word 6 (by omega),
          word 10 (by omega)]

end Layout

section Receive

def maxPacketSize : Int := 8192

def int32 (x : Int) : Int := x.bmod (2 ^ 32)

def receiveLoop (packetSize : Nat) : CallLoop Int RecvResult where
  request remainSize :=
    if 0 < remainSize then
      some ⟨int32 (packetSize - remainSize),
        if maxPacketSize < remainSize then maxPacketSize else remainSize⟩
    else none
  advance remainSize result := remainSize - result.value

def receiveRest (packetSize : Nat) (chunks : List Bytes) : Transcript RecvResult :=
  (receiveLoop packetSize).run (int32 (packetSize - 6)) (chunks.map .received)

/-- The six bytes of `tmpStr`, of which the first `Receive` may fill only some. -/
def tmpStr (first : Bytes) : Bytes := (first ++ List.replicate 6 0).take 6

/-- What is copied to the caller when 0 is returned; nothing is copied otherwise. A hash
that does not match is logged. -/
def inetReceive (heap : Memory) (dataSize : UInt32) (first : Bytes) (chunks : List Bytes) :
    Option Bytes :=
  let packetSize := field 2 4 (tmpStr first)
  if (tmpStr first).take 2 ≠ magic then none
  else if packetSize = 0 ∨ 200 < (packetSize + 2 ^ 32 - dataSize.toNat) % 2 ^ 32 then none
  else
    let rest := receiveRest packetSize chunks
    if rest.pending ≠ none then none
    else
      let m := stored (writeAt (zeroed packetSize heap) 0 (tmpStr first)) rest.answered
      let size := le (readAt m 14 4)
      let data := readAt m 18 size
      if size ≠ dataSize.toNat then none else some data

def StartsWith (dataSize : UInt32) (stream data : Bytes) : Prop :=
  data.length = dataSize.toNat ∧ packetOverhead + data.length < 2 ^ 32 ∧
    ∃ commandID commandResult, packet commandID commandResult data <+: stream

theorem StartsWith.fields {dataSize : UInt32} {stream data : Bytes}
    (starts : StartsWith dataSize stream data) :
    stream.take 2 = magic ∧ field 2 4 stream = packetOverhead + dataSize.toNat ∧
      packetOverhead + dataSize.toNat ≤ stream.length ∧
      field 14 4 stream = dataSize.toNat ∧ data = slice 18 dataSize.toNat stream ∧
      field (18 + dataSize.toNat) 4 stream = (murMurHash data).toNat := by
  obtain ⟨length, small, commandID, commandResult, begins⟩ := starts
  have long := begins.length_le
  rw [packet_length] at long
  have size := packet_length commandID commandResult data
  unfold packetOverhead at *
  have same (offset width : Nat) (fits : offset + width ≤ 22 + data.length) :
      slice offset width stream = slice offset width (packet commandID commandResult data) :=
    slice_of_initial offset width begins (by omega)
  refine ⟨?_, ?_, by omega, ?_, ?_, ?_⟩
  · exact (same 0 2 (by omega)).trans (packet_magic commandID commandResult data)
  · rw [field, same 2 4 (by omega), ← length]
    exact packet_packetSize commandID commandResult data small
  · rw [field, same 14 4 (by omega), ← length]
    exact packet_dataSize commandID commandResult data (by omega)
  · rw [← length, same 18 _ (by omega), packet_data]
  · rw [field, ← length, same _ 4 (by omega)]
    exact packet_dataHash commandID commandResult data

theorem startsWith_iff (dataSize : UInt32) (stream data : Bytes) :
    StartsWith dataSize stream data ↔
      stream.take 2 = magic ∧ field 2 4 stream = packetOverhead + dataSize.toNat ∧
        packetOverhead + dataSize.toNat ≤ stream.length ∧
        field 14 4 stream = dataSize.toNat ∧ data = slice 18 dataSize.toNat stream ∧
        field (18 + dataSize.toNat) 4 stream = (murMurHash data).toNat := by
  refine ⟨StartsWith.fields, ?_⟩
  rintro ⟨marked, size, long, declared, content, hash⟩
  have length : data.length = dataSize.toNat := by
    rw [content, slice_length]
    unfold packetOverhead at long
    omega
  have begins : stream.take (packetOverhead + dataSize.toNat) <+: stream := List.take_prefix _ _
  have cut : (stream.take (packetOverhead + dataSize.toNat)).length =
      packetOverhead + dataSize.toNat := List.length_take_of_le long
  have small : field 2 4 stream < 2 ^ 32 := by
    have bound := le_lt (slice 2 4 stream)
    rwa [slice_length 2 4 stream (by unfold packetOverhead at long; omega)] at bound
  have same (offset width : Nat) (fits : offset + width ≤ 22 + dataSize.toNat) :
      slice offset width (stream.take (packetOverhead + dataSize.toNat)) =
        slice offset width stream :=
    (slice_of_initial offset width begins (by rw [cut]; exact fits)).symm
  obtain ⟨commandID, commandResult, eq⟩ :=
    eq_packet (stream.take (packetOverhead + dataSize.toNat)) data (by rw [cut, length])
      (by rw [List.take_take, Nat.min_eq_left (by unfold packetOverhead; omega), marked])
      (by rw [field, same 2 4 (by omega), length]; exact size)
      (by rw [field, same 14 4 (by omega), length]; exact declared)
      (by rw [length, same 18 _ (by omega), content])
      (by rw [field, length, same _ 4 (by omega)]; exact hash)
  exact ⟨length, by omega, commandID, commandResult, eq ▸ begins⟩

theorem int32_of_small (x : Int) (low : -(2 ^ 31) ≤ x) (high : x < 2 ^ 31) : int32 x = x := by
  unfold int32
  rw [Int.bmod_eq_of_le_mul_two] <;> omega

theorem arrived_received (chunks : List Bytes) :
    arrived (chunks.map .received) = chunks.flatten := by
  induction chunks with
  | nil => rfl
  | cons chunk chunks ih =>
      rw [List.map_cons, arrived, List.flatMap_cons, List.flatten_cons, ← ih]
      rfl

theorem receive_request (packetSize : Nat) (t : Int) (span : Span)
    (next : (receiveLoop packetSize).request t = some span) :
    0 < t ∧ span.offset = int32 (packetSize - t) ∧ span.length ≤ t := by
  have more : 0 < t := by
    by_contra ended
    simp [receiveLoop, ended] at next
  simp only [receiveLoop, if_pos more, Option.some.injEq] at next
  subst next
  refine ⟨more, rfl, ?_⟩
  dsimp only
  split_ifs with large
  · exact large.le
  · exact le_rfl

def Fits (t : Transcript RecvResult) : Prop :=
  ∀ call ∈ t.answered, call.2.value ≤ call.1.length

instance (t : Transcript RecvResult) : Decidable (Fits t) :=
  inferInstanceAs (Decidable (∀ call ∈ t.answered, call.2.value ≤ call.1.length))

def gathered (packetSize : Nat) (first : Bytes) (chunks : List Bytes) : Bytes :=
  first ++ arrived ((receiveRest packetSize chunks).answered.map Prod.snd)

theorem gathered_initial (packetSize : Nat) (first : Bytes) (chunks : List Bytes) :
    gathered packetSize first chunks <+: first ++ chunks.flatten ∧
      ((receiveRest packetSize chunks).pending ≠ none →
        gathered packetSize first chunks = first ++ chunks.flatten) := by
  obtain ⟨⟨unused, split⟩, all⟩ := answered_results (receiveLoop packetSize)
    (chunks.map .received) (int32 (packetSize - 6))
  rw [← receiveRest] at split all
  rw [← arrived_received, gathered]
  constructor
  · rw [← split, arrived, arrived, List.flatMap_append]
    exact (List.prefix_append_right_inj first).mpr (List.prefix_append _ _)
  · intro more
    rw [all more]

section Plain
variable (heap : Memory) (first : Bytes) (chunks : List Bytes) (packetSize : Nat)
  (whole : first.length = 6) (low : 6 ≤ packetSize) (high : packetSize ≤ 2 ^ 31)
  (fits : Fits (receiveRest packetSize chunks))
include whole low high fits

theorem receiveRest_stored :
    stored (writeAt (zeroed packetSize heap) 0 first) (receiveRest packetSize chunks).answered =
        writeAt (zeroed packetSize heap) 0 (gathered packetSize first chunks) ∧
      (gathered packetSize first chunks).length ≤ packetSize ∧
      ((receiveRest packetSize chunks).pending = none ↔
        (gathered packetSize first chunks).length = packetSize) := by
  have start : int32 (packetSize - 6) = packetSize - 6 := int32_of_small _ (by omega) (by omega)
  obtain ⟨block, t, ⟨nonneg, small⟩, ends, position⟩ := stored_consecutive
    (receiveLoop packetSize) (fun t => 0 ≤ t ∧ t ≤ packetSize - 6) (fun t => packetSize - t)
    (fun span r => (∃ data, r = .received data) ∧ r.value ≤ span.length)
    (by
      intro s span inv next
      obtain ⟨more, offset, -⟩ := receive_request packetSize s span next
      rw [offset, int32_of_small _ (by omega) (by omega)])
    (by
      rintro s span r inv next ⟨⟨data, rfl⟩, short⟩
      obtain ⟨more, -, length⟩ := receive_request packetSize s span next
      simp only [receiveLoop, RecvResult.value, RecvResult.data] at short ⊢
      omega)
    (chunks.map .received) (int32 (packetSize - 6)) (writeAt (zeroed packetSize heap) 0 first)
    (by rw [start]; omega)
    (by
      intro call made
      have used := (answered_results (receiveLoop packetSize) (chunks.map .received)
        (int32 (packetSize - 6))).1.subset (List.mem_map_of_mem made)
      obtain ⟨data, -, same⟩ := List.mem_map.mp used
      exact ⟨⟨data, same.symm⟩, fits call made⟩)
  rw [← receiveRest] at block ends position
  rw [start] at block position
  have six : (packetSize : Int) - (packetSize - 6) = 0 + first.length := by omega
  rw [gathered, List.length_append, whole]
  refine ⟨by rw [block, six, writeAt_append], by omega, ?_⟩
  rw [← ends]
  simp only [receiveLoop]
  split_ifs with more
  · simp only [false_iff]
    omega
  · simp only [true_iff]
    omega

theorem receiveRest_pending :
    (receiveRest packetSize chunks).pending = none ↔
      packetSize ≤ (first ++ chunks.flatten).length := by
  obtain ⟨-, short, ends⟩ :=
    receiveRest_stored (fun _ => 0) first chunks packetSize whole low high fits
  obtain ⟨begins, all⟩ := gathered_initial packetSize first chunks
  constructor
  · intro finished
    rw [← ends.mp finished]
    exact begins.length_le
  · intro enough
    by_contra more
    have incomplete := mt ends.mpr more
    rw [all more] at short incomplete
    omega

end Plain

section Received
variable (dataSize : UInt32) (first : Bytes) (chunks : List Bytes)

/-- The bytes as the receiver counts them: the header is padded to six bytes. -/
def counted : Bytes := tmpStr first ++ chunks.flatten

def declared : Nat := field 2 4 (tmpStr first)

/-- The checks that the receiver makes before it looks at the packet. -/
def Admitted : Prop :=
  (tmpStr first).take 2 = magic ∧
    ¬(declared first = 0 ∨ 200 < (declared first + 2 ^ 32 - dataSize.toNat) % 2 ^ 32) ∧
    declared first ≤ 2 ^ 31 ∧ declared first ≤ (counted first chunks).length

/-- The part of the data size that lies within the packet is the size asked for. -/
def SizeMatches : Prop :=
  ∀ j < 4, 14 + j < declared first →
    (counted first chunks)[14 + j]? = (leBytes 4 dataSize.toNat)[j]?

def image (heap : Memory) : Memory :=
  writeAt (zeroed (declared first) heap) 0 ((counted first chunks).take (max (declared first) 6))

theorem tmpStr_length : (tmpStr first).length = 6 := by
  simp [tmpStr]

variable {first chunks}

theorem receiveRest_short (packetSize : Nat) (chunks : List Bytes) (ended : int32 (packetSize - 6) ≤ 0) :
    receiveRest packetSize chunks = ⟨[], none⟩ :=
  run_ended _ _ _ (if_neg (by omega))

theorem receive_small (heap : Memory) (small : declared first ≤ 2 ^ 31)
    (fits : Fits (receiveRest (declared first) chunks)) :
    ((receiveRest (declared first) chunks).pending = none ↔
        declared first ≤ (counted first chunks).length) ∧
      (declared first ≤ (counted first chunks).length →
        stored (writeAt (zeroed (declared first) heap) 0 (tmpStr first))
          (receiveRest (declared first) chunks).answered = image first chunks heap) := by
  have six := tmpStr_length first
  by_cases short : declared first < 6
  · have none := receiveRest_short (declared first) chunks
      (by rw [int32_of_small _ (by omega) (by omega)]; omega)
    have header : (counted first chunks).take (max (declared first) 6) = tmpStr first := by
      rw [Nat.max_eq_right (by omega), counted, ← six, List.take_left]
    rw [none, image, header]
    refine ⟨iff_of_true rfl ?_, fun _ => rfl⟩
    rw [counted, List.length_append]
    omega
  · have low : 6 ≤ declared first := by omega
    have ends := receiveRest_pending (tmpStr first) chunks (declared first) six low small fits
    obtain ⟨block, -, complete⟩ :=
      receiveRest_stored heap (tmpStr first) chunks (declared first) six low small fits
    refine ⟨ends, fun enough => ?_⟩
    have begins := List.prefix_iff_eq_take.mp
      (gathered_initial (declared first) (tmpStr first) chunks).1
    rw [complete.mp (ends.mpr enough)] at begins
    rw [block, image, Nat.max_eq_left low, counted, ← begins]

/-- A packet of more than 2^31 bytes is never seen: the loop is not entered, and the data size
in the cleared memory is 0. -/
theorem inetReceive_large (heap : Memory) (large : 2 ^ 31 + 6 ≤ declared first) :
    inetReceive heap dataSize first chunks = none := by
  have bound : declared first < 2 ^ 32 := by
    have small := le_lt (slice 2 4 (tmpStr first))
    rwa [slice_length 2 4 _ (by rw [tmpStr_length])] at small
  have wrapped : int32 (declared first - 6) ≤ 0 := by
    unfold int32
    rw [Int.bmod_def]
    omega
  have none := receiveRest_short (declared first) chunks wrapped
  have clear : le (readAt (writeAt (zeroed (declared first) heap) 0 (tmpStr first)) 14 4) = 0 := by
    have zeros : readAt (writeAt (zeroed (declared first) heap) 0 (tmpStr first)) 14 4 =
        [0, 0, 0, 0] := by
      refine (readAt_eq_iff _ 14 [0, 0, 0, 0]).mpr fun i inside => ?_
      have past : i < 4 := inside
      have value : writeAt (zeroed (declared first) heap) 0 (tmpStr first) ((14 + i : Nat) : Int) =
          0 := by
        rw [writeAt_of_le _ _ _ (by rw [tmpStr_length]; omega), zeroed, if_pos (by omega)]
      push_cast at value ⊢
      rw [value]
      interval_cases i <;> rfl
    rw [zeros]
    rfl
  rw [inetReceive, ← declared, none]
  simp only [stored, List.foldl_nil, clear]
  split_ifs with unmarked refused more other
  · rfl
  · rfl
  · rfl
  · rfl
  · omega

theorem inetReceive_small (heap : Memory) (small : declared first ≤ 2 ^ 31)
    (fits : Fits (receiveRest (declared first) chunks)) (data : Bytes) :
    inetReceive heap dataSize first chunks = some data ↔
      Admitted dataSize first chunks ∧
        readAt (image first chunks heap) 14 4 = leBytes 4 dataSize.toNat ∧
        data = readAt (image first chunks heap) 18 dataSize.toNat := by
  obtain ⟨ends, block⟩ := receive_small heap small fits
  have size (m : Memory) : le (readAt m 14 4) = dataSize.toNat ↔
      readAt m 14 4 = leBytes 4 dataSize.toNat := by
    have iff := le_eq_iff (readAt m 14 4) dataSize.toNat
    rw [readAt_length] at iff
    exact iff dataSize.toNat_lt
  rw [inetReceive, Admitted, ← declared]
  by_cases marked : (tmpStr first).take 2 = magic
  swap
  · rw [if_pos marked]
    exact iff_of_false nofun fun all => marked all.1.1
  by_cases refused : declared first = 0 ∨ 200 < (declared first + 2 ^ 32 - dataSize.toNat) % 2 ^ 32
  · rw [if_neg (not_not.mpr marked), if_pos refused]
    exact iff_of_false nofun fun all => all.1.2.1 refused
  rw [if_neg (not_not.mpr marked), if_neg refused]
  by_cases enough : declared first ≤ (counted first chunks).length
  swap
  · simp only [ne_eq, mt ends.mp enough, not_false_eq_true, if_true]
    exact iff_of_false nofun fun all => enough all.1.2.2.2
  simp only [ne_eq, ends.mpr enough, not_true_eq_false, if_false, block enough]
  rw [and_iff_right ⟨marked, refused, small, enough⟩, ← size]
  by_cases same : le (readAt (image first chunks heap) 14 4) = dataSize.toNat
  · rw [if_neg (not_not.mpr same), same, Option.some.injEq, and_iff_right rfl, eq_comm]
  · rw [if_pos same]
    exact iff_of_false nofun fun all => same all.1

variable (first chunks) in
theorem image_of_lt (heap : Memory) (i : Nat) (inside : i < declared first)
    (enough : declared first ≤ (counted first chunks).length) :
    some (image first chunks heap i) = (counted first chunks)[i]? := by
  have long : i < ((counted first chunks).take (max (declared first) 6)).length := by
    rw [List.length_take]
    omega
  rw [image, writeAt_of_lt _ _ i long, List.getElem?_take, if_pos (by omega)]

variable (first chunks) in
theorem image_of_le (heap : Memory) (i : Nat) (header : 6 ≤ i) (outside : declared first ≤ i) :
    image first chunks heap i = heap i := by
  rw [image, writeAt_of_le _ _ i (by rw [List.length_take]; omega), zeroed, if_neg (by omega)]

/-- A packet of the layout is at the beginning of the stream. -/
def Genuine (stream : Bytes) : Prop :=
  stream.take 2 = magic ∧ field 2 4 stream = packetOverhead + dataSize.toNat ∧
    packetOverhead + dataSize.toNat ≤ stream.length ∧ field 14 4 stream = dataSize.toNat ∧
    field (18 + dataSize.toNat) 4 stream = (murMurHash (slice 18 dataSize.toNat stream)).toNat

theorem startsWith_iff_genuine (stream data : Bytes) :
    StartsWith dataSize stream data ↔
      Genuine dataSize stream ∧ data = slice 18 dataSize.toNat stream := by
  rw [startsWith_iff, Genuine]
  constructor
  · rintro ⟨marked, size, long, asked, rfl, hash⟩
    exact ⟨⟨marked, size, long, asked, hash⟩, rfl⟩
  · rintro ⟨⟨marked, size, long, asked, hash⟩, rfl⟩
    exact ⟨marked, size, long, asked, rfl, hash⟩

section Heaps
variable {dataSize} (enough : declared first ≤ (counted first chunks).length)
include enough

theorem read_size_iff (heap : Memory) :
    readAt (image first chunks heap) 14 4 = leBytes 4 dataSize.toNat ↔
      SizeMatches dataSize first chunks ∧
        ∀ j < 4, declared first ≤ 14 + j →
          (leBytes 4 dataSize.toNat)[j]? = some (heap ((14 + j : Nat) : Int)) := by
  have four := leBytes_length 4 dataSize.toNat
  have bytes := readAt_eq_iff (image first chunks heap) 14 (leBytes 4 dataSize.toNat)
  rw [four] at bytes
  refine bytes.trans ⟨fun all => ⟨fun j small inside => ?_, fun j small outside => ?_⟩, ?_⟩
  · rw [all j small]
    exact (image_of_lt first chunks heap (14 + j) inside enough).symm
  · rw [all j small, ← image_of_le first chunks heap (14 + j) (by omega) outside]
    rfl
  · rintro ⟨same, continued⟩ j small
    by_cases inside : 14 + j < declared first
    · rw [← same j small inside]
      exact (image_of_lt first chunks heap (14 + j) inside enough).symm
    · rw [continued j small (by omega), ← image_of_le first chunks heap (14 + j) (by omega) (by omega)]
      rfl

theorem read_data (heap : Memory) (room : 18 + dataSize.toNat ≤ declared first) :
    readAt (image first chunks heap) 18 dataSize.toNat =
      slice 18 dataSize.toNat (counted first chunks) := by
  have long : 18 + dataSize.toNat ≤
      ((counted first chunks).take (max (declared first) 6)).length := by
    rw [List.length_take]
    omega
  rw [image, slice_of_initial 18 _ (List.take_prefix _ _) long]
  exact readAt_writeAt _ _ 18 _ long

end Heaps

def continuing (fill : UInt8) : Memory := fun i =>
  if i < 18 then (leBytes 4 dataSize.toNat)[(i - 14).toNat]?.getD 0 else fill

theorem continuing_size (fill : UInt8) (j : Nat) (small : j < 4) :
    (leBytes 4 dataSize.toNat)[j]? = some (continuing dataSize fill ((14 + j : Nat) : Int)) := by
  have inside : j < (leBytes 4 dataSize.toNat).length := by rwa [leBytes_length]
  have index : (((14 + j : Nat) : Int) - 14).toNat = j := by omega
  rw [continuing, if_pos (by omega), index, List.getElem?_eq_getElem inside]
  rfl

end Received

section Verified
variable (dataSize : UInt32) (first : Bytes) (chunks : List Bytes)

/-- Whatever lies outside the packet, the receiver returns data exactly if the stream begins with
a packet that holds it. -/
def Verified : Prop :=
  ∀ heap data, inetReceive heap dataSize first chunks = some data ↔
    StartsWith dataSize (first ++ chunks.flatten) data

/-- The packets that pass the receiver's checks are those of the layout, and their data are where
the receiver reads them. -/
def Sound : Prop :=
  (Genuine dataSize (first ++ chunks.flatten) →
      Admitted dataSize first chunks ∧ SizeMatches dataSize first chunks) ∧
    (Admitted dataSize first chunks → SizeMatches dataSize first chunks →
      18 + dataSize.toNat ≤ declared first ∧ Genuine dataSize (first ++ chunks.flatten) ∧
        slice 18 dataSize.toNat (counted first chunks) =
          slice 18 dataSize.toNat (first ++ chunks.flatten))

variable {dataSize first chunks}

theorem verified_of_sound (small : declared first ≤ 2 ^ 31)
    (fits : Fits (receiveRest (declared first) chunks)) (sound : Sound dataSize first chunks) :
    Verified dataSize first chunks := by
  intro heap data
  rw [inetReceive_small dataSize heap small fits, startsWith_iff_genuine]
  constructor
  · rintro ⟨admitted, read, rfl⟩
    have enough := admitted.2.2.2
    obtain ⟨room, genuine, same⟩ := sound.2 admitted ((read_size_iff enough heap).mp read).1
    exact ⟨genuine, (read_data enough heap room).trans same⟩
  · rintro ⟨genuine, rfl⟩
    obtain ⟨admitted, asked⟩ := sound.1 genuine
    have enough := admitted.2.2.2
    obtain ⟨room, -, same⟩ := sound.2 admitted asked
    refine ⟨admitted, (read_size_iff enough heap).mpr ⟨asked, fun j _ outside => ?_⟩, ?_⟩
    · omega
    · rw [read_data enough heap room, same]

theorem sound_of_verified (small : declared first ≤ 2 ^ 31)
    (fits : Fits (receiveRest (declared first) chunks)) (verified : Verified dataSize first chunks) :
    Sound dataSize first chunks := by
  have accepted (admitted : Admitted dataSize first chunks)
      (asked : SizeMatches dataSize first chunks) (fill : UInt8) :
      Genuine dataSize (first ++ chunks.flatten) ∧
        readAt (image first chunks (continuing dataSize fill)) 18 dataSize.toNat =
          slice 18 dataSize.toNat (first ++ chunks.flatten) := by
    have read := (read_size_iff admitted.2.2.2 (continuing dataSize fill)).mpr
      ⟨asked, fun j small _ => continuing_size dataSize fill j small⟩
    exact (startsWith_iff_genuine dataSize _ _).mp ((verified _ _).mp
      ((inetReceive_small dataSize _ small fits _).mpr ⟨admitted, read, rfl⟩))
  have returned (genuine : Genuine dataSize (first ++ chunks.flatten)) (heap : Memory) :=
    (inetReceive_small dataSize heap small fits _).mp
      ((verified heap _).mpr ((startsWith_iff_genuine dataSize _ _).mpr ⟨genuine, rfl⟩))
  constructor
  · intro genuine
    obtain ⟨admitted, read, -⟩ := returned genuine fun _ => 0
    exact ⟨admitted, ((read_size_iff admitted.2.2.2 _).mp read).1⟩
  · intro admitted asked
    have enough := admitted.2.2.2
    obtain ⟨genuine, -⟩ := accepted admitted asked 0
    -- a size that lies partly outside the packet could be any
    have header : 18 ≤ declared first := by
      by_contra short
      obtain ⟨-, read, -⟩ := returned genuine fun i => continuing dataSize 0 i + 1
      have last := ((read_size_iff enough _).mp read).2 3 (by omega) (by omega)
      rw [continuing_size dataSize 0 3 (by omega), Option.some.injEq] at last
      exact absurd last (by simp)
    -- and so could data that do
    have room : 18 + dataSize.toNat ≤ declared first := by
      by_contra short
      have value (fill : UInt8) : image first chunks (continuing dataSize fill) (declared first) =
          fill := by
        rw [image_of_le _ _ _ _ (by omega) le_rfl, continuing, if_neg (by omega)]
      have byte (fill : UInt8) :
          (slice 18 dataSize.toNat (first ++ chunks.flatten))[declared first - 18]? = some fill := by
        have place : ((18 : Nat) : Int) + (declared first - 18 : Nat) = declared first := by omega
        have read := readAt_getElem? (image first chunks (continuing dataSize fill)) 18
          dataSize.toNat (declared first - 18) (by omega)
        rw [place, value fill] at read
        rw [← (accepted admitted asked fill).2]
        exact read
      exact absurd ((byte 0).symm.trans (byte 1)) (by decide)
    exact ⟨room, genuine, (read_data enough _ room).symm.trans (accepted admitted asked 0).2⟩

end Verified

def fiveBytes : Bytes := packet 3 0 [1, 2, 3, 4, 5]

end Receive

end WfyApp.AiqSocket
