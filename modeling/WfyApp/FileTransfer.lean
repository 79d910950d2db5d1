import WfyApp.AiqSocket

/-! `HandlerReceiveFile` (rkaiq_protocol.cpp): a file that the tool sends in one packet,
with the sizes that the packet declares taken modulo 2^64. The names in the header are
terminated, and the allocation of the data succeeds. -/

namespace WfyApp.FileTransfer
open ByteText ByteFields StepSystem SocketLoops AiqSocket

def u64 (x : Int) : Int := x % 2 ^ 64

/-- The first chunk in the receive buffer, what `recv` returns within 20 seconds, and the
environment. An allocation of half the address space or more fails. -/
structure Transfer where
  buffer : Bytes
  size : Nat
  size_le : size ≤ buffer.length
  results : List RecvResult
  heap : Memory
  malloc : Bool
  malloc_lt : malloc = true → field 8 8 buffer < 2 ^ 63
  dirExists : Bool
  fileOpens : Bool

inductive Status where
  | transferError
  | timeout
  | dataSizeError
  | hashCheckFail
  | dirError
  | fileSaveError
  | success
deriving DecidableEq, Repr

def Status.message (fileName : Bytes) : Status → Bytes
  | transferError => ascii "##StatusMessage##FileTransfer##Failed##TransferError##"
  | timeout => ascii "##StatusMessage##FileTransfer##Failed##Timeout##"
  | dataSizeError => ascii "##StatusMessage##FileTransfer##Failed##DataSizeError##"
  | hashCheckFail => ascii "##StatusMessage##FileTransfer##Failed##HashCheckFail##"
  | dirError => ascii "##StatusMessage##FileTransfer##Failed##DirError##"
  | fileSaveError => ascii "##StatusMessage##FileTransfer##Failed##FileSaveError##"
  | success => (snprintf 200
      (format (ascii "##StatusMessage##FileTransfer##Success##%s##") [fileName])).text

def fileLoop (packetSize : Nat) : CallLoop Int RecvResult where
  request remainSize :=
    if 0 < remainSize then
      some ⟨u64 (packetSize - remainSize),
        if maxPacketSize < remainSize then maxPacketSize else remainSize⟩
    else none
  advance remainSize result := u64 (remainSize - result.value)

def headerSize : Nat := 424

def headerFields : List Span :=
  [⟨0, 8⟩, ⟨8, 8⟩, ⟨16, 4⟩, ⟨20, 4⟩, ⟨24, 4⟩, ⟨28, 256⟩, ⟨284, 4⟩, ⟨288, 128⟩, ⟨416, 8⟩]

namespace Transfer
variable (t : Transfer)

def packetSize : Nat := field 8 8 t.buffer
def dataSize : Nat := field 416 8 t.buffer

def Rejected : Prop := t.packetSize = 0 ∨ 500 < u64 (t.packetSize - t.dataSize)

instance : Decidable t.Rejected := inferInstanceAs (Decidable (_ ∨ _))

def rest : Transcript RecvResult :=
  (fileLoop t.packetSize).run (u64 (t.packetSize - t.size)) t.results

def packet : Memory :=
  stored (writeAt (zeroed t.packetSize t.heap) 0 (t.buffer.take t.size)) t.rest.answered

def receivedSize : Nat := le (readAt t.packet 416 8)
def receivedData : Bytes := readAt t.packet headerSize t.receivedSize
def receivedHash : Nat := le (readAt t.packet (u64 (headerSize + t.receivedSize)) 4)

/-- The status sent at the end; none if the server crashes on the null pointer. -/
def handlerReceiveFile : Option Status :=
  if t.Rejected then some .transferError
  else if !t.malloc then none
  else if t.rest.pending ≠ none then some .timeout
  else if t.receivedSize ≠ t.dataSize then some .dataSizeError
  else if (murMurHash t.receivedData).toNat ≠ t.receivedHash then some .hashCheckFail
  else if !t.dirExists then some .dirError
  else if !t.fileOpens then some .fileSaveError
  else some .success

def fileName : Bytes := cstr (readAt t.packet 288 128)

def answer : Option Bytes := t.handlerReceiveFile.map (Status.message t.fileName)

def saved : Option Bytes :=
  if t.handlerReceiveFile = some .success then some t.receivedData else none

def accesses : List Span :=
  if t.Rejected then []
  else ⟨0, t.packetSize⟩ :: ⟨0, t.size⟩ :: (t.rest.asked ++
    if t.rest.pending = none then
      headerFields ++ [⟨headerSize, t.receivedSize⟩, ⟨u64 (headerSize + t.receivedSize), 4⟩]
    else [])

def block : Nat := if t.malloc then t.packetSize else 0

def stream : Bytes := t.buffer.take t.size ++ arrived (t.rest.answered.map Prod.snd)

/-- Only well-formed packets are saved, and nothing outside the packet is touched. -/
def WellFormedOnly : Prop :=
  (∀ span ∈ t.accesses, span.Within t.block) ∧
    ∀ data, t.saved = some data →
      t.packetSize = headerSize + t.dataSize + 4 ∧ data = slice headerSize t.dataSize t.stream ∧
        (murMurHash data).toNat = field (headerSize + t.dataSize) 4 t.stream

end Transfer

theorem u64_of_small (x : Int) (low : 0 ≤ x) (high : x < 2 ^ 64) : u64 x = x :=
  Int.emod_eq_of_lt low high

theorem file_request (packetSize : Nat) (s : Int) (span : Span)
    (next : (fileLoop packetSize).request s = some span) :
    0 < s ∧ span.offset = u64 (packetSize - s) ∧ span.length ≤ s ∧ 0 < span.length := by
  have more : 0 < s := by
    by_contra ended
    simp [fileLoop, ended] at next
  simp only [fileLoop, if_pos more, Option.some.injEq] at next
  subst next
  refine ⟨more, rfl, ?_⟩
  dsimp only
  unfold maxPacketSize
  split_ifs with large
  · omega
  · omega

theorem file_request_within (packetSize : Nat) (small : packetSize < 2 ^ 63) (s : Int)
    (inside : s ≤ packetSize) (span : Span) (next : (fileLoop packetSize).request s = some span) :
    span.Within packetSize := by
  obtain ⟨more, offset, short, -⟩ := file_request packetSize s span next
  rw [u64_of_small _ (by omega) (by omega)] at offset
  exact ⟨by omega, by omega⟩

theorem value_ge (r : RecvResult) : -1 ≤ r.value := by
  cases r with
  | received data => simp only [RecvResult.value]; omega
  | failed again => exact le_rfl

/-- Once errors have counted back past the packet, the next call is outside. -/
theorem fileLoop_outside (packetSize : Nat) (small : packetSize < 2 ^ 63) (s : Int)
    (back : packetSize < s) (bounded : s ≤ packetSize + 1) (rs : List RecvResult) :
    ¬∀ span ∈ ((fileLoop packetSize).run s rs).asked, span.Within packetSize := by
  intro all
  have outside : (fileLoop packetSize).request s =
      some ⟨u64 (packetSize - s), if maxPacketSize < s then maxPacketSize else s⟩ :=
    if_pos (by omega)
  have within := (all _ (request_asked _ _ rs _ outside)).2
  obtain ⟨-, -, -, positive⟩ := file_request packetSize _ _ outside
  simp only [u64] at within positive
  omega

/-- The calls stay within the packet exactly if no more errors than bytes have come before
it is complete. -/
theorem fileLoop_within_iff (packetSize : Nat) (small : packetSize < 2 ^ 63)
    (results : List RecvResult) (s : Int) (nonneg : 0 ≤ s) (inside : s ≤ packetSize)
    (fits : Fits ((fileLoop packetSize).run s results)) :
    (∀ span ∈ ((fileLoop packetSize).run s results).asked, span.Within packetSize) ↔
      ∀ initial, initial <+: results → Incomplete s initial →
        0 ≤ packetSize - s + total initial := by
  induction results generalizing s with
  | nil =>
      refine iff_of_true ?_ ?_
      · intro span asked
        exact file_request_within packetSize small s inside span
          (by simpa [CallLoop.run, Transcript.asked] using asked)
      · intro initial before open_yet
        rw [List.prefix_nil.mp before, total_nil]
        omega
  | cons r rs ih =>
      cases next : (fileLoop packetSize).request s with
      | none =>
          have ended : s = 0 := by
            by_contra positive
            simp [fileLoop, show 0 < s by omega] at next
          subst ended
          refine iff_of_true ?_ ?_
          · simp [run_ended _ _ _ next, Transcript.asked]
          · intro initial before open_yet
            have impossible := open_yet [] List.nil_prefix
            simp [total] at impossible
      | some span =>
          obtain ⟨more, -, short, -⟩ := file_request packetSize s span next
          have first_within := file_request_within packetSize small s inside span next
          rw [run_cons _ s r rs span next] at fits
          have value := value_ge r
          have value_le : r.value ≤ span.length := fits (span, r) List.mem_cons_self
          have step : (fileLoop packetSize).advance s r = s - r.value :=
            u64_of_small _ (by omega) (by omega)
          rw [step] at fits
          have rest_fits : Fits ((fileLoop packetSize).run (s - r.value) rs) :=
            fun call later => fits call (List.mem_cons_of_mem _ later)
          have asked := asked_cons (fileLoop packetSize) s r rs span next
          rw [step] at asked
          have first_sum : Incomplete s [] → 0 ≤ packetSize - s + total [] := fun _ => by
            rw [total_nil]
            omega
          have sums (initial : List RecvResult) :
              packetSize - s + total (r :: initial) = packetSize - (s - r.value) + total initial := by
            rw [total_cons]
            ring
          rw [asked, List.forall_mem_cons, and_iff_right first_within, forall_prefix_cons,
            and_iff_right first_sum]
          simp only [incomplete_cons, sums, more, true_and]
          by_cases back : s - r.value ≤ packetSize
          · exact ih (s - r.value) (by omega) back rest_fits
          · refine iff_of_false (fileLoop_outside packetSize small _ (by omega) (by omega) rs) ?_
            intro all
            have sum := all [] List.nil_prefix ((incomplete_nil _).mpr (by omega))
            rw [total_nil] at sum
            omega

theorem parse_within_iff (packetSize receivedSize : Nat) (small : packetSize < 2 ^ 63) :
    (∀ span ∈ headerFields ++
        [⟨headerSize, receivedSize⟩, ⟨u64 (headerSize + receivedSize), 4⟩],
      span.Within packetSize) ↔ headerSize + receivedSize + 4 ≤ packetSize := by
  unfold headerSize
  constructor
  · intro all
    have data : Span.Within ⟨(424 : Nat), receivedSize⟩ packetSize := all _ (by simp)
    have hash : Span.Within ⟨u64 ((424 : Nat) + receivedSize), 4⟩ packetSize := all _ (by simp)
    unfold Span.Within at data hash
    dsimp only at data hash
    rw [u64_of_small _ (by omega) (by omega)] at hash
    omega
  · intro room
    rw [u64_of_small _ (by omega) (by omega)]
    simp only [headerFields, List.cons_append, List.nil_append, List.forall_mem_cons, Span.Within]
    simp
    omega

section Filled

/-- What the packet holds after a result of `recv`: an error counts one byte back. -/
def edit (packet : Bytes) : RecvResult → Bytes
  | .received data => packet ++ data
  | .failed _ => packet.dropLast

def filled (packetSize : Nat) : Bytes → List RecvResult → Bytes
  | packet, [] => packet
  | packet, r :: rs =>
      if packet.length = packetSize then packet else filled packetSize (edit packet r) rs

def Holds (m : Memory) (packet : Bytes) : Prop :=
  ∀ i : Nat, i < packet.length → packet[i]? = some (m i)

theorem Holds.read {m : Memory} {packet : Bytes} (holds : Holds m packet) (offset length : Nat)
    (fits : offset + length ≤ packet.length) :
    readAt m offset length = slice offset length packet := by
  refine List.ext_getElem? fun i => ?_
  by_cases inside : i < length
  · have byte := holds (offset + i) (by omega)
    rw [readAt_getElem? m offset length i inside, slice, List.getElem?_take, if_pos inside,
      List.getElem?_drop, byte]
    push_cast
    rfl
  · rw [List.getElem?_eq_none (by rw [readAt_length]; omega),
      List.getElem?_eq_none (by rw [slice_length _ _ _ fits]; omega)]

theorem Holds.edit {m : Memory} {packet : Bytes} (holds : Holds m packet) (r : RecvResult) :
    Holds (writeAt m packet.length r.data) (edit packet r) := by
  intro i inside
  cases r with
  | received data =>
      rw [FileTransfer.edit, List.length_append] at inside
      rw [FileTransfer.edit, RecvResult.data, List.getElem?_append, writeAt]
      by_cases old : i < packet.length
      · rw [if_pos old, if_pos (by omega)]
        exact holds i old
      · have index : ((i : Int) - packet.length).toNat = i - packet.length := by omega
        rw [if_neg old, if_neg (by omega), index, List.getElem?_eq_getElem (by omega)]
        rfl
  | failed again =>
      rw [RecvResult.data, writeAt_nil]
      rw [FileTransfer.edit, List.length_dropLast] at inside
      rw [FileTransfer.edit, List.getElem?_dropLast, if_pos (by omega)]
      exact holds i (by omega)

theorem edit_length (packet : Bytes) (r : RecvResult) (some_ : 0 ≤ packet.length + r.value) :
    ((edit packet r).length : Int) = packet.length + r.value := by
  cases r with
  | received data => simp [edit, RecvResult.value]
  | failed again =>
      simp only [edit, RecvResult.value, List.length_dropLast] at some_ ⊢
      omega

/-- The loop leaves in memory what the results say, and ends when the packet is complete. -/
theorem run_filled (packetSize : Nat) (small : packetSize < 2 ^ 63) (results : List RecvResult)
    (s : Int) (m : Memory) (packet : Bytes) (nonneg : 0 ≤ s) (length : packet.length = packetSize - s)
    (holds : Holds m packet) (fits : Fits ((fileLoop packetSize).run s results))
    (errors : ∀ initial, initial <+: results → Incomplete s initial →
      0 ≤ packetSize - s + total initial) :
    (((fileLoop packetSize).run s results).pending = none ↔
        (filled packetSize packet results).length = packetSize) ∧
      Holds (stored m ((fileLoop packetSize).run s results).answered)
        (filled packetSize packet results) := by
  induction results generalizing s m packet with
  | nil =>
      refine ⟨?_, holds⟩
      simp only [CallLoop.run, fileLoop, filled]
      split_ifs with more
      · simp only [false_iff]
        omega
      · simp only [true_iff]
        omega
  | cons r rs ih =>
      cases next : (fileLoop packetSize).request s with
      | none =>
          have ended : s = 0 := by
            by_contra positive
            simp [fileLoop, show 0 < s by omega] at next
          have complete : packet.length = packetSize := by omega
          rw [run_ended _ _ _ next, filled, if_pos complete]
          exact ⟨iff_of_true rfl complete, holds⟩
      | some span =>
          obtain ⟨more, offset, short, -⟩ := file_request packetSize s span next
          rw [u64_of_small _ (by omega) (by omega), ← length] at offset
          rw [run_cons _ s r rs span next] at fits ⊢
          have value := value_ge r
          have value_le : r.value ≤ span.length := fits (span, r) List.mem_cons_self
          have step : (fileLoop packetSize).advance s r = s - r.value :=
            u64_of_small _ (by omega) (by omega)
          rw [step] at fits ⊢
          have later : ∀ initial, initial <+: rs → Incomplete (s - r.value) initial →
              0 ≤ packetSize - (s - r.value) + total initial := by
            intro initial before open_yet
            have sum := errors (r :: initial) ((List.prefix_cons_inj r).mpr before)
              ((incomplete_cons s r initial).mpr ⟨more, open_yet⟩)
            rw [total_cons] at sum
            omega
          have room : 0 ≤ packet.length + r.value := by
            by_cases goes_on : 0 < s - r.value
            · have sum := later [] List.nil_prefix ((incomplete_nil _).mpr goes_on)
              rw [total_nil] at sum
              omega
            · omega
          have incomplete : packet.length ≠ packetSize := by omega
          rw [filled, if_neg incomplete, stored, List.foldl_cons, ← stored, offset]
          exact ih (s - r.value) _ (edit packet r) (by omega)
            (by rw [edit_length packet r room]; omega) (holds.edit r)
            (fun call rest => fits call (List.mem_cons_of_mem _ rest)) later

end Filled

namespace Transfer
variable (t : Transfer)

theorem saved_eq_some_iff (data : Bytes) :
    t.saved = some data ↔
      ¬t.Rejected ∧ t.malloc = true ∧ t.rest.pending = none ∧ t.receivedSize = t.dataSize ∧
        (murMurHash t.receivedData).toNat = t.receivedHash ∧
        (t.dirExists = true ∧ t.fileOpens = true) ∧ data = t.receivedData := by
  have success : t.handlerReceiveFile = some .success ↔
      ¬t.Rejected ∧ t.malloc = true ∧ t.rest.pending = none ∧ t.receivedSize = t.dataSize ∧
        (murMurHash t.receivedData).toNat = t.receivedHash ∧
        t.dirExists = true ∧ t.fileOpens = true := by
    rw [handlerReceiveFile]
    split_ifs <;> simp_all
  rw [saved]
  by_cases ends : t.handlerReceiveFile = some .success
  · obtain ⟨accepted, allocated, complete, size, hash, environment⟩ := success.mp ends
    rw [if_pos ends, Option.some.injEq, eq_comm]
    exact ⟨fun same => ⟨accepted, allocated, complete, size, hash, environment, same⟩,
      fun all => all.2.2.2.2.2.2⟩
  · rw [if_neg ends]
    refine iff_of_false nofun fun all => ends (success.mpr ?_)
    exact ⟨all.1, all.2.1, all.2.2.1, all.2.2.2.1, all.2.2.2.2.1, all.2.2.2.2.2.1⟩

theorem accesses_within_iff (accepted : ¬t.Rejected) (allocated : t.malloc = true)
    (inside : t.size ≤ t.packetSize) (fits : Fits t.rest) :
    (∀ span ∈ t.accesses, span.Within t.block) ↔
      (∀ initial, initial <+: t.results → Incomplete (t.packetSize - t.size) initial →
        0 ≤ t.size + total initial) ∧
      (t.rest.pending = none → headerSize + t.receivedSize + 4 ≤ t.packetSize) := by
  have small : t.packetSize < 2 ^ 63 := t.malloc_lt allocated
  have start : u64 (t.packetSize - t.size) = t.packetSize - t.size :=
    u64_of_small _ (by omega) (by omega)
  have loop := fileLoop_within_iff t.packetSize small t.results (t.packetSize - t.size) (by omega)
    (by omega) (by rw [← start]; exact fits)
  rw [← start, ← rest, start, sub_sub_cancel] at loop
  have whole : Span.Within ⟨0, t.packetSize⟩ t.packetSize := ⟨le_rfl, by simp⟩
  have chunk : Span.Within ⟨0, t.size⟩ t.packetSize := ⟨le_rfl, by simpa using inside⟩
  rw [accesses, block, if_neg accepted, if_pos allocated, List.forall_mem_cons,
    and_iff_right whole, List.forall_mem_cons, and_iff_right chunk, List.forall_mem_append, loop]
  refine and_congr_right fun _ => ?_
  split_ifs with complete
  · rw [parse_within_iff _ _ small]
    exact ⟨fun room _ => room, fun room => room complete⟩
  · simp [complete]

def received : Bytes := filled t.packetSize (t.buffer.take t.size) t.results

def Passes (packet : Bytes) : Prop :=
  field 416 8 packet = t.dataSize ∧
    (murMurHash (slice headerSize t.dataSize packet)).toNat =
      field (headerSize + t.dataSize) 4 packet ∧
    t.dirExists = true ∧ t.fileOpens = true

/-- When the packet is handled as it should be. -/
def Benign : Prop :=
  t.Rejected ∨
    t.malloc = true ∧ t.size ≤ t.packetSize ∧
      (∀ initial, initial <+: t.results → Incomplete (t.packetSize - t.size) initial →
        0 ≤ t.size + total initial) ∧
      (t.received.length = t.packetSize →
        headerSize + field 416 8 t.received + 4 ≤ t.packetSize ∧
          (t.Passes t.received → t.packetSize = headerSize + t.dataSize + 4 ∧
            slice headerSize t.dataSize t.received = slice headerSize t.dataSize t.stream ∧
            field (headerSize + t.dataSize) 4 t.received =
              field (headerSize + t.dataSize) 4 t.stream))

section Content
variable (inside : t.size ≤ t.packetSize) (small : t.packetSize < 2 ^ 63) (fits : Fits t.rest)
  (errors : ∀ initial, initial <+: t.results → Incomplete (t.packetSize - t.size) initial →
    0 ≤ t.size + total initial)
include inside small fits errors

theorem packet_holds :
    (t.rest.pending = none ↔ t.received.length = t.packetSize) ∧ Holds t.packet t.received := by
  have start : u64 (t.packetSize - t.size) = t.packetSize - t.size :=
    u64_of_small _ (by omega) (by omega)
  have chunk : (t.buffer.take t.size).length = t.size := List.length_take_of_le t.size_le
  have run := run_filled t.packetSize small t.results (t.packetSize - t.size)
    (writeAt (zeroed t.packetSize t.heap) 0 (t.buffer.take t.size)) (t.buffer.take t.size)
    (by omega) (by omega) (fun i inside => (writeAt_of_lt _ _ i inside).symm)
    (by rw [← start]; exact fits) (by simpa only [sub_sub_cancel] using errors)
  rw [← start] at run
  exact run

theorem content_eq (complete : t.received.length = t.packetSize)
    (room : headerSize + t.receivedSize + 4 ≤ t.packetSize ∨
      headerSize + field 416 8 t.received + 4 ≤ t.packetSize) :
    t.receivedSize = field 416 8 t.received ∧
      t.receivedData = slice headerSize t.receivedSize t.received ∧
      t.receivedHash = field (headerSize + t.receivedSize) 4 t.received := by
  have holds := (t.packet_holds inside small fits errors).2
  unfold headerSize at room
  have size : t.receivedSize = field 416 8 t.received :=
    congrArg le (holds.read 416 8 (by omega))
  refine ⟨size, holds.read 424 _ (by omega), ?_⟩
  rw [receivedHash, field, headerSize, u64_of_small _ (by omega) (by omega)]
  exact congrArg le (holds.read (424 + t.receivedSize) 4 (by omega))

theorem saved_iff_passes (accepted : ¬t.Rejected) (allocated : t.malloc = true)
    (complete : t.received.length = t.packetSize)
    (room : headerSize + field 416 8 t.received + 4 ≤ t.packetSize) (data : Bytes) :
    t.saved = some data ↔
      t.Passes t.received ∧ data = slice headerSize t.dataSize t.received := by
  have ends := (t.packet_holds inside small fits errors).1.mpr complete
  obtain ⟨size, content, hash⟩ := t.content_eq inside small fits errors complete (.inr room)
  rw [saved_eq_some_iff, and_iff_right accepted, and_iff_right allocated, and_iff_right ends,
    Passes, content, hash, ← size]
  constructor
  · intro all
    obtain ⟨same, checked, environment, taken⟩ := all
    rw [same] at checked taken
    exact ⟨⟨same, checked, environment⟩, taken⟩
  · intro all
    obtain ⟨⟨same, checked, environment⟩, taken⟩ := all
    rw [← same] at checked taken
    exact ⟨same, checked, environment, taken⟩

end Content

/-- Only well-formed packets are saved and nothing else is touched, exactly if the packet is
rejected at once, or the first chunk fits, errors never outnumber the bytes received, the data
size in what the packet then holds leaves room for the hash, and, if that passes the checks, it
has the exact size and its data and hash are those of the stream. -/
theorem wellFormedOnly_iff (fits : Fits t.rest) : t.WellFormedOnly ↔ t.Benign := by
  by_cases accepted : t.Rejected
  · refine iff_of_true ⟨by simp [accesses, accepted], ?_⟩ (.inl accepted)
    intro data saved
    exact absurd accepted ((t.saved_eq_some_iff data).mp saved).1
  have positive : 0 < t.packetSize := Nat.pos_of_ne_zero (mt .inl accepted)
  have mem_accesses (span : Span) (early : span = ⟨0, t.packetSize⟩ ∨ span = ⟨0, t.size⟩) :
      span ∈ t.accesses := by
    rw [accesses, if_neg accepted]
    rcases early with rfl | rfl
    · exact List.mem_cons_self
    · exact List.mem_cons_of_mem _ List.mem_cons_self
  rw [WellFormedOnly, Benign, or_iff_right accepted]
  by_cases allocated : t.malloc = true
  swap
  · refine iff_of_false (fun all => ?_) (fun all => allocated all.1)
    have whole := (all.1 _ (mem_accesses _ (.inl rfl))).2
    rw [block, if_neg allocated] at whole
    simp only at whole
    omega
  by_cases inside : t.size ≤ t.packetSize
  swap
  · refine iff_of_false (fun all => ?_) (fun all => inside all.2.1)
    have chunk := (all.1 _ (mem_accesses _ (.inr rfl))).2
    rw [block, if_pos allocated] at chunk
    simp only at chunk
    omega
  have small : t.packetSize < 2 ^ 63 := t.malloc_lt allocated
  rw [t.accesses_within_iff accepted allocated inside fits, and_iff_right allocated,
    and_iff_right inside, and_assoc]
  refine and_congr_right fun errors => ?_
  have ends := (t.packet_holds inside small fits errors).1
  rw [ends]
  by_cases complete : t.received.length = t.packetSize
  swap
  · refine iff_of_true ⟨fun whole => absurd whole complete, fun data saved => ?_⟩
      fun whole => absurd whole complete
    exact absurd (ends.mp ((t.saved_eq_some_iff data).mp saved).2.2.1) complete
  have content := t.content_eq inside small fits errors complete
  have passes := t.saved_iff_passes inside small fits errors accepted allocated complete
  simp only [complete, true_imp_iff]
  constructor
  · rintro ⟨room, only⟩
    rw [(content (.inl room)).1] at room
    refine ⟨room, fun passed => ?_⟩
    obtain ⟨size, data, hash⟩ := only _ ((passes room _).mpr ⟨passed, rfl⟩)
    exact ⟨size, data, passed.2.1.symm.trans hash⟩
  · rintro ⟨room, only⟩
    refine ⟨(content (.inr room)).1 ▸ room, fun data saved => ?_⟩
    obtain ⟨passed, rfl⟩ := (passes room data).mp saved
    obtain ⟨size, same, hash⟩ := only passed
    exact ⟨size, same, passed.2.1.trans hash⟩

end Transfer

def sampleBuffer (declared : Nat) (tail : Bytes) : Bytes :=
  ascii "SendFile" ++ (leBytes 8 declared ++ (List.replicate 400 0 ++ (leBytes 8 1 ++
    ([7] ++ (leBytes 4 0xfbeb9e30 ++ tail)))))

theorem sampleBuffer_packetSize (declared : Nat) (tail : Bytes) (small : declared < 2 ^ 63) :
    field 8 8 (sampleBuffer declared tail) < 2 ^ 63 := by
  rw [field, sampleBuffer, slice_middle (ascii "SendFile") _ _ 8 8 rfl (leBytes_length _ _),
    le_leBytes _ _ (small.trans (by decide))]
  exact small

def sample (declared : Nat) (tail : Bytes) (small : declared < 2 ^ 63) (size : Nat)
    (size_le : size ≤ (sampleBuffer declared tail).length) (results : List RecvResult) :
    Transfer where
  buffer := sampleBuffer declared tail
  size := size
  size_le := size_le
  results := results
  heap := fun _ => 0
  malloc := true
  malloc_lt := fun _ => sampleBuffer_packetSize declared tail small
  dirExists := true
  fileOpens := true

def whole (declared : Nat) (tail : Bytes) (small : declared < 2 ^ 63) : Transfer :=
  sample declared tail small (sampleBuffer declared tail).length le_rfl []

def pieces : Transfer :=
  sample 429 [] (by decide) 424 (by decide +kernel)
    [.received [7, 0x30], .received [0x9e, 0xeb, 0xfb]]

theorem wellFormedOnly_iff_pieces : pieces.WellFormedOnly ∧ pieces.saved = some [7] := by
  refine ⟨(pieces.wellFormedOnly_iff (by decide +kernel)).mpr
    (.inr ⟨rfl, by decide +kernel, ?_, fun _ => ⟨by decide +kernel, fun _ => ?_⟩⟩),
    by decide +kernel⟩
  · intro initial before _
    have nonneg : 0 ≤ total initial := by
      refine List.sum_nonneg fun value member => ?_
      obtain ⟨r, used, rfl⟩ := List.mem_map.mp member
      have given := before.subset used
      simp only [pieces, sample, List.mem_cons, List.not_mem_nil, or_false] at given
      rcases given with rfl | rfl <;> decide
    omega
  · decide +kernel

/-- A packet with one byte too many is saved, and a first chunk longer than the declared
packet is copied over the end of it. -/
theorem malformed_saved :
    ((whole 430 [0] (by decide)).saved = some [7] ∧
      (whole 430 [0] (by decide)).packetSize = 430 ∧ (whole 430 [0] (by decide)).dataSize = 1) ∧
    ⟨0, 429⟩ ∈ (whole 300 [] (by decide)).accesses ∧ (whole 300 [] (by decide)).block = 300 := by
  decide +kernel

end WfyApp.FileTransfer
