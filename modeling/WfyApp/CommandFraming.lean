import WfyApp.ByteFields
import WfyApp.BulkTransfer

/-! How the tool server cuts the byte stream of a client into commands: the receive loop
of tcp_server.cpp calls `HandlerTCPMessage` (rkaiq_protocol.cpp) once for every `recv`,
with a buffer that keeps what earlier calls left in it. -/

namespace WfyApp.CommandFraming
open ByteText ByteFields BulkTransfer

inductive Handler where
  | rawCapMessage
  | onLineMessage
  | checkDevice
  | receiveFile
  | offlineRawProcess
  | messageForward
deriving DecidableEq, Repr

/-- What `cat /proc/rkisp0-vir0` prints. `ExecuteCMD` collects it line by line in an array of
2048 bytes and does not look whether it fits. -/
structure IspFile where
  text : Bytes
  fits : text.length < 2048
  plain : 0 ∉ text

def IspFile.online (file : IspFile) : Bool := decide (ascii "Isp online" <:+: file.text)

/-- What a call of `HandlerTCPMessage` finds: the file, and whether
`DoChangeAppMode(APP_RUN_STATUS_TUNRING)` returns 0. -/
structure Surroundings where
  isp : IspFile
  tuning : Bool

def addressee (command : Bytes) : Handler :=
  if cstr command = ascii "ISP_OFF" then .rawCapMessage
  else if cstr command = ascii "ISP_ON" then .onLineMessage
  else if cstr command = ascii "IGNORE" then .checkDevice
  else if command.take 8 = ascii "SendFile" then .receiveFile
  else if command.take 6 = ascii "OffRAW" then .offlineRawProcess
  else .messageForward

/-- Two of the branches look at something else before they call their handler. -/
def handlerTCPMessage (now : Surroundings) (command : Bytes) : Option Handler :=
  match addressee command with
  | .rawCapMessage => if now.isp.online then none else some .rawCapMessage
  | .messageForward => if now.tuning then some .messageForward else none
  | handler => some handler

def cmdType (command : Bytes) : Nat := field 8 2 command
def cmdID (command : Bytes) : Nat := field 10 2 command
def packetSize (command : Bytes) : Nat := field 8 8 command

def hasParam (command : Bytes) : Bool :=
  0 < field 22 4 command && field 22 4 command < 2 ^ 31

def readsSocket (command : Bytes) : Handler → Bool
  | .rawCapMessage => cmdType command == 0xff && cmdID command == 0xffff && hasParam command
  | .onLineMessage =>
      cmdType command == 0xff && cmdID command == 0xffff && hasParam command ||
        cmdType command == 0x00 && hasParam command || cmdType command == 0x01
  | .checkDevice => false
  | .receiveFile => packetSize command != 0
  | .offlineRawProcess => 0 < packetSize command && packetSize command ≤ 50
  | .messageForward => false

/-- A `CommandData_t` with one of the tool's own identifiers that needs no payload. -/
structure Message where
  bytes : Bytes
  length_eq : bytes.length = commandDataSize
  own : addressee bytes ≠ .messageForward
  complete : readsSocket bytes (addressee bytes) = false

structure Invocation where
  handler : Handler
  command : Bytes
deriving DecidableEq, Repr

def invoke (now : Surroundings) (command : Bytes) : List Invocation :=
  ((handlerTCPMessage now command).map (⟨·, command⟩)).toList

def fill (buffer chunk : Bytes) : Bytes := chunk ++ buffer.drop chunk.length

/-- The loop of `Recvieve` on the chunks that `recv` returns; the n-th call of the handler
finds the n-th surroundings. Once a handler receives by itself, the rest is what `after`
says. -/
def recvieve (after : Bytes → List Bytes → List Invocation) (times : Nat → Surroundings) :
    Nat → Bytes → List Bytes → List Invocation
  | _, _, [] => []
  | n, buffer, chunk :: chunks =>
      let filled := fill buffer chunk
      let command := filled.take commandDataSize
      invoke (times n) command ++
        if (handlerTCPMessage (times n) command).any (readsSocket command) then after filled chunks
        else recvieve after times (n + 1) filled chunks

def segments : List Nat → Bytes → List Bytes
  | [], _ => []
  | size :: sizes, stream => stream.take size :: segments sizes (stream.drop size)

def stream (messages : List Message) : Bytes := messages.flatMap Message.bytes

def Message.call (message : Message) : Invocation := ⟨addressee message.bytes, message.bytes⟩

section Calls
variable (now : Surroundings) (message : Message)

theorem handlerTCPMessage_message : handlerTCPMessage now message.bytes =
    if addressee message.bytes = .rawCapMessage ∧ now.isp.online then none
    else some (addressee message.bytes) := by
  rw [handlerTCPMessage]
  cases kind : addressee message.bytes with
  | messageForward => exact absurd kind message.own
  | _ => simp

theorem invoke_message : invoke now message.bytes =
    if addressee message.bytes = .rawCapMessage ∧ now.isp.online then [] else [message.call] := by
  rw [invoke, handlerTCPMessage_message]
  split_ifs <;> rfl

theorem not_readsSocket_message :
    (handlerTCPMessage now message.bytes).any (readsSocket message.bytes) = false := by
  rw [handlerTCPMessage_message]
  split_ifs
  · rfl
  · exact message.complete

end Calls

section Whole
variable (after : Bytes → List Bytes → List Invocation) (times : Nat → Surroundings)

def handled : Nat → List Message → List Invocation
  | _, [] => []
  | n, message :: messages => invoke (times n) message.bytes ++ handled (n + 1) messages

theorem handled_length_le (n : Nat) (messages : List Message) :
    (handled times n messages).length ≤ messages.length := by
  induction messages generalizing n with
  | nil => exact Nat.le_refl _
  | cons message messages ih =>
      have rest := ih (n + 1)
      rw [handled, List.length_append, List.length_cons, invoke_message]
      split_ifs <;> simp only [List.length_nil, List.length_singleton] <;> omega

theorem handled_eq_iff (n : Nat) (messages : List Message) :
    handled times n messages = messages.map Message.call ↔
      ∀ i message, messages[i]? = some message →
        ¬(addressee message.bytes = .rawCapMessage ∧ (times (n + i)).isp.online) := by
  induction messages generalizing n with
  | nil => simp [handled]
  | cons message messages ih =>
      rw [handled, List.map_cons, invoke_message]
      split_ifs with unheard
      · refine iff_of_false (fun same => ?_) fun each => each 0 message rfl unheard
        have short := handled_length_le times (n + 1) messages
        rw [List.nil_append] at same
        rw [same, List.length_cons, List.length_map] at short
        omega
      · rw [List.singleton_append, List.cons.injEq, and_iff_right rfl, ih (n + 1)]
        constructor
        · intro later i other found
          cases i with
          | zero => cases found; exact unheard
          | succ i => rw [← Nat.succ_add_eq_add_succ]; exact later i other found
        · intro each i other found
          rw [Nat.succ_add_eq_add_succ]
          exact each (i + 1) other found

theorem fill_take (buffer : Bytes) (message : Message) :
    (fill buffer message.bytes).take commandDataSize = message.bytes := by
  rw [fill, ← message.length_eq, List.take_left]

theorem recvieve_whole (n : Nat) (buffer : Bytes) (sizes : List Nat) (messages : List Message)
    (count : sizes.length = messages.length) (each : ∀ size ∈ sizes, size = commandDataSize) :
    recvieve after times n buffer (segments sizes (stream messages)) = handled times n messages := by
  induction sizes generalizing n buffer messages with
  | nil =>
      rw [List.length_eq_zero_iff.mp count.symm]
      rfl
  | cons size sizes ih =>
      cases messages with
      | nil => simp at count
      | cons message messages =>
          have first : (stream (message :: messages)).take size = message.bytes := by
            rw [each size List.mem_cons_self, ← message.length_eq, stream, List.flatMap_cons,
              List.take_left]
          have rest : (stream (message :: messages)).drop size = stream messages := by
            rw [each size List.mem_cons_self, ← message.length_eq, stream, List.flatMap_cons,
              List.drop_left, stream]
          rw [segments, first, rest, handled]
          simp only [recvieve, fill_take, not_readsSocket_message, Bool.false_eq_true, if_false]
          exact congrArg _ (ih _ _ messages (by simpa using count)
            fun size later => each size (List.mem_cons_of_mem _ later))

end Whole

section Probes

def probeHead : Bytes := ascii "IGNORE" ++ List.replicate 65 0

theorem addressee_probe (tag : UInt8) : addressee (probeHead ++ [tag]) = .checkDevice := rfl

def probe (tag : UInt8) : Message where
  bytes := probeHead ++ [tag]
  length_eq := rfl
  own := by rw [addressee_probe]; nofun
  complete := rfl

theorem fill_getElem? (buffer chunk : Bytes) (i : Nat) :
    (fill buffer chunk)[i]? = if i < chunk.length then chunk[i]? else buffer[i]? := by
  rw [fill, List.getElem?_append]
  split_ifs with inside
  · rfl
  · rw [List.getElem?_drop]
    congr 1
    omega

theorem recvieve_probe {after : Bytes → List Bytes → List Invocation}
    {times : Nat → Surroundings} {n : Nat} {buffer chunk : Bytes} {chunks : List Bytes}
    {handler : Handler} {tag : UInt8} {rest : List Invocation}
    (called : handlerTCPMessage (times n) ((fill buffer chunk).take commandDataSize) = some handler)
    (seen : recvieve after times n buffer (chunk :: chunks) = (probe tag).call :: rest) :
    (fill buffer chunk)[71]? = some tag ∧
      recvieve after times (n + 1) (fill buffer chunk) chunks = rest := by
  have same : (⟨handler, (fill buffer chunk).take commandDataSize⟩ : Invocation) = (probe tag).call ∧
      (if readsSocket ((fill buffer chunk).take commandDataSize) handler then
        after (fill buffer chunk) chunks
      else recvieve after times (n + 1) (fill buffer chunk) chunks) = rest := by
    simpa only [recvieve, invoke, called, Option.map_some, Option.toList_some, Option.any_some,
      List.singleton_append, List.cons.injEq] using seen
  have kind : handler = .checkDevice := congrArg Invocation.handler same.1
  have command : (fill buffer chunk).take commandDataSize = (probe tag).bytes :=
    congrArg Invocation.command same.1
  have last : (probe tag).bytes[71]? = some tag := rfl
  rw [← command, List.getElem?_take_of_lt (by decide)] at last
  refine ⟨last, ?_⟩
  rw [← same.2, kind, readsSocket, if_neg Bool.false_ne_true]

/-- Every probe that is seen, of a list in which neighbours differ, needs a chunk of its own
that reaches to its last byte; only the first may be in the buffer already. -/
theorem length_le_of_seen (after : Bytes → List Bytes → List Invocation)
    (times : Nat → Surroundings) (n : Nat) (buffer : Bytes) (chunks : List Bytes)
    (tags : List UInt8) (differ : tags.IsChain (· ≠ ·))
    (seen : recvieve after times n buffer chunks = tags.map fun tag => (probe tag).call) :
    tags.length ≤ chunks.countP (71 < ·.length) + if buffer[71]? = tags.head? then 1 else 0 := by
  induction chunks generalizing n buffer tags with
  | nil =>
      rw [List.map_eq_nil_iff.mp seen.symm]
      exact Nat.zero_le _
  | cons chunk chunks ih =>
      have last := fill_getElem? buffer chunk 71
      rw [List.countP_cons]
      cases called : handlerTCPMessage (times n) ((fill buffer chunk).take commandDataSize) with
      | none =>
          have rest : recvieve after times (n + 1) (fill buffer chunk) chunks =
              tags.map fun tag => (probe tag).call := by
            rw [← seen]
            simp only [recvieve, invoke, called, Option.map_none, Option.toList_none,
              List.nil_append, Option.any_none, Bool.false_eq_true, if_false]
          have bound := ih (n + 1) (fill buffer chunk) tags differ rest
          rw [last] at bound
          by_cases long : 71 < chunk.length
          · simp only [long, decide_true, if_true] at bound ⊢
            split_ifs at bound ⊢ <;> omega
          · simpa only [long, decide_false, if_false, Bool.false_eq_true, Nat.add_zero] using bound
      | some handler =>
          cases tags with
          | nil => exact Nat.zero_le _
          | cons tag tags =>
              obtain ⟨ends, rest⟩ := recvieve_probe called seen
              have bound := ih (n + 1) (fill buffer chunk) tags differ.tail rest
              have other : (fill buffer chunk)[71]? ≠ tags.head? := by
                rw [ends]
                intro same
                exact differ.rel_head? (Option.mem_def.mpr same.symm) rfl
              rw [if_neg other] at bound
              rw [last] at ends
              by_cases long : 71 < chunk.length
              · simp only [long, decide_true, if_true, List.length_cons]
                omega
              · rw [if_neg long] at ends
                rw [List.head?_cons, if_pos ends, List.length_cons]
                omega

def alternate (first second : UInt8) : Nat → List UInt8
  | 0 => []
  | count + 1 => first :: alternate second first count

theorem alternate_length (first second : UInt8) (count : Nat) :
    (alternate first second count).length = count := by
  induction count generalizing first second with
  | zero => rfl
  | succ count ih => rw [alternate, List.length_cons, ih]

theorem alternate_differ (first second : UInt8) (ne : first ≠ second) (count : Nat) :
    (alternate first second count).IsChain (· ≠ ·) := by
  induction count generalizing first second with
  | zero => exact .nil
  | succ count ih =>
      cases count with
      | zero => exact .singleton _
      | succ count => exact .cons_cons ne (ih second first ne.symm)

theorem exists_tags (buffer : Bytes) (count : Nat) :
    ∃ tags : List UInt8, tags.length = count ∧ tags.IsChain (· ≠ ·) ∧
      (0 < count → buffer[71]? ≠ tags.head?) := by
  by_cases stale : buffer[71]? = some 1
  · refine ⟨alternate 2 1 count, alternate_length 2 1 count, alternate_differ 2 1 (by decide) count, ?_⟩
    intro positive
    obtain ⟨count, rfl⟩ := Nat.exists_eq_succ_of_ne_zero positive.ne'
    rw [stale]
    exact fun same => absurd (Option.some.inj same) (by decide)
  · refine ⟨alternate 1 2 count, alternate_length 1 2 count, alternate_differ 1 2 (by decide) count, ?_⟩
    intro positive
    obtain ⟨count, rfl⟩ := Nat.exists_eq_succ_of_ne_zero positive.ne'
    exact stale

end Probes

section Sizes

theorem countP_segments_le (sizes : List Nat) (bytes : Bytes) :
    (segments sizes bytes).countP (71 < ·.length) ≤ sizes.countP (71 < ·) := by
  induction sizes generalizing bytes with
  | nil => exact Nat.le_refl _
  | cons size sizes ih =>
      have rest := ih (bytes.drop size)
      have short : (bytes.take size).length ≤ size := List.length_take_le _ _
      simp only [segments, List.countP_cons, decide_eq_true_eq]
      split_ifs <;> omega

theorem countP_mul_le (sizes : List Nat) :
    commandDataSize * sizes.countP (71 < ·) ≤ sizes.sum := by
  induction sizes with
  | nil => exact Nat.le_refl _
  | cons size sizes ih =>
      simp only [List.countP_cons, decide_eq_true_eq, List.sum_cons, commandDataSize] at *
      split_ifs <;> omega

theorem sizes_eq (sizes : List Nat) (positive : ∀ size ∈ sizes, 1 ≤ size)
    (tight : sizes.sum ≤ commandDataSize * sizes.countP (71 < ·)) :
    ∀ size ∈ sizes, size = commandDataSize := by
  induction sizes with
  | nil => simp
  | cons size sizes ih =>
      have rest := countP_mul_le sizes
      have one := positive size List.mem_cons_self
      simp only [List.countP_cons, decide_eq_true_eq, List.sum_cons, commandDataSize] at *
      have later : ∀ s ∈ sizes, 1 ≤ s := fun s member => positive s (List.mem_cons_of_mem _ member)
      refine List.forall_mem_cons.mpr ⟨?_, ih later ?_⟩
      all_goals split_ifs at tight <;> omega

end Sizes

section Framing

def rawCommand : Message where
  bytes := ascii "ISP_OFF" ++ List.replicate 65 0
  length_eq := rfl
  own := by decide
  complete := by decide

/-- A way of cutting the stream is harmless for all messages exactly if every `recv` returns
one message and no call finds the ISP online. -/
theorem framing_iff (after : Bytes → List Bytes → List Invocation) (times : Nat → Surroundings)
    (buffer : Bytes) (sizes : List Nat) (count : Nat)
    (each : ∀ size ∈ sizes, 1 ≤ size ∧ size ≤ 8192)
    (whole : sizes.sum = commandDataSize * count) :
    (∀ messages : List Message, messages.length = count →
      recvieve after times 0 buffer (segments sizes (stream messages)) =
        messages.map Message.call) ↔
    (∀ size ∈ sizes, size = commandDataSize) ∧ ∀ n < count, (times n).isp.online = false := by
  have lengths (all : ∀ size ∈ sizes, size = commandDataSize) : sizes.length = count := by
    rw [List.sum_eq_card_nsmul sizes commandDataSize all, smul_eq_mul, mul_comm] at whole
    exact Nat.eq_of_mul_eq_mul_left (by decide) whole
  constructor
  · intro framed
    have all : ∀ size ∈ sizes, size = commandDataSize := by
      obtain ⟨tags, length, differ, fresh⟩ := exists_tags buffer count
      have seen := framed (tags.map probe) (by rw [List.length_map, length])
      rw [List.map_map] at seen
      have bound := length_le_of_seen after times 0 buffer _ tags differ seen
      have long := countP_segments_le sizes (stream (tags.map probe))
      refine sizes_eq sizes (fun size member => (each size member).1) ?_
      rw [whole, ← length]
      refine Nat.mul_le_mul_left _ (le_trans ?_ long)
      by_cases positive : 0 < count
      · rwa [if_neg (fresh positive)] at bound
      · omega
    refine ⟨all, fun n before => ?_⟩
    have heard := framed (List.replicate count rawCommand) List.length_replicate
    rw [recvieve_whole after times 0 buffer sizes _ (by rw [lengths all, List.length_replicate]) all,
      handled_eq_iff] at heard
    have offline := heard n rawCommand (by rw [List.getElem?_replicate, if_pos before])
    rw [Nat.zero_add] at offline
    exact Bool.eq_false_iff.mpr fun online => offline ⟨by decide, online⟩
  · rintro ⟨all, offline⟩ messages length
    rw [recvieve_whole after times 0 buffer sizes messages (by rw [lengths all, length]) all,
      handled_eq_iff]
    rintro n message found ⟨-, online⟩
    have before : n < count := by
      rw [← length]
      exact (List.getElem?_eq_some_iff.mp found).1
    rw [Nat.zero_add, offline n before] at online
    cases online

def bareIsp : Surroundings := ⟨⟨[], by decide, by decide⟩, true⟩
def onlineIsp : Surroundings := ⟨⟨ascii "Isp online\n", by decide, by decide⟩, true⟩

theorem framing_iff_pair :
    recvieve (fun _ _ => []) (fun _ => bareIsp) 0 (List.replicate 8192 0)
        (segments [72, 72] (stream [probe 1, rawCommand])) =
      [⟨.checkDevice, (probe 1).bytes⟩, ⟨.rawCapMessage, rawCommand.bytes⟩] :=
  (framing_iff (fun _ _ => []) (fun _ => bareIsp) (List.replicate 8192 0) [72, 72] 2 (by decide)
    rfl).mpr ⟨by decide, fun _ _ => by decide⟩ [probe 1, rawCommand] rfl

/-- Two messages in one `recv`: the second is never handled. One message in two: both
calls see a command that is none. And a raw command while the ISP is online: no call. -/
theorem framing_fails :
    recvieve (fun _ _ => []) (fun _ => bareIsp) 0 (List.replicate 8192 0)
        (segments [144] (stream [probe 1, probe 2])) = [⟨.checkDevice, (probe 1).bytes⟩] ∧
      recvieve (fun _ _ => []) (fun _ => bareIsp) 0 (List.replicate 8192 0)
          (segments [71, 1] (stream [probe 1])) =
        [⟨.checkDevice, (probe 0).bytes⟩, ⟨.messageForward, 1 :: (probe 0).bytes.tail⟩] ∧
      recvieve (fun _ _ => []) (fun _ => onlineIsp) 0 (List.replicate 8192 0)
        (segments [72] (stream [rawCommand])) = [] := by
  refine ⟨?_, ?_, ?_⟩
  · decide +kernel
  · decide +kernel
  · decide +kernel

end Framing

end WfyApp.CommandFraming
