import WfyApp.PacketStream
import WfyApp.ByteText

/-! The 0x55AA frame codec of system_service (protocol.c, protocol.h).
Buffers are byte lists; a NULL pointer is `none`. The encoder returns the bytes
it wrote, whose number is the C return value. A `ProtoFrame` can only be built
with the relations between its length fields that `proto_decode` establishes. -/

namespace WfyApp.ProtoCodec
open PacketStream ByteText

def protoMagic0 : UInt8 := 0x55
def protoMagic1 : UInt8 := 0xAA
def protoHdrLen : Nat := 10
def protoPayloadMax : Nat := 256

def protoTypeReq : UInt8 := 0x00
def protoTypeResp : UInt8 := 0x01

/-- The error values of `proto_status_t`; `PROTO_OK` is `Except.ok`. -/
inductive ProtoStatus where
  | short
  | magic
  | trunc
  | noSpace
  | arg
deriving DecidableEq, Repr

/-- `payload` holds the bytes the C pointer designates, and is empty where that
pointer is NULL. -/
structure ProtoFrame where
  crc : UInt16
  type : UInt8
  seq : UInt8
  commandSet : UInt8
  commandId : UInt8
  msgLen : UInt16
  payload : Bytes
  frameSize : Nat
  payload_length : payload.length = msgLen.toNat
  msgLen_le : msgLen.toNat ≤ protoPayloadMax
  frameSize_eq : frameSize = protoHdrLen + msgLen.toNat
deriving DecidableEq

def ProtoFrame.payloadPtr (f : ProtoFrame) : Option Bytes :=
  if f.msgLen.toNat > 0 then some f.payload else none

def beUInt16 (hi lo : UInt8) : UInt16 := (hi.toUInt16 <<< 8) ||| lo.toUInt16

theorem take_length_of_fits (body : Bytes) (plen : Nat)
    (fits : ¬ protoHdrLen + plen > protoHdrLen + body.length) : (body.take plen).length = plen := by
  rw [List.length_take]
  omega

def protoDecode : Option Bytes → Except ProtoStatus ProtoFrame
  | none => .error .arg
  | some (m0 :: m1 :: c0 :: c1 :: ty :: sq :: cs :: cid :: l0 :: l1 :: body) =>
      if m0 ≠ protoMagic0 ∨ m1 ≠ protoMagic1 then .error .magic
      else if fits : protoHdrLen + (beUInt16 l0 l1).toNat > protoHdrLen + body.length then
        .error .trunc
      else if cap : (beUInt16 l0 l1).toNat > protoPayloadMax then .error .trunc
      else .ok
        { crc := beUInt16 c0 c1
          type := ty
          seq := sq
          commandSet := cs
          commandId := cid
          msgLen := beUInt16 l0 l1
          payload := body.take (beUInt16 l0 l1).toNat
          frameSize := protoHdrLen + (beUInt16 l0 l1).toNat
          payload_length := take_length_of_fits body _ fits
          msgLen_le := Nat.not_lt.mp cap
          frameSize_eq := rfl }
  | some _ => .error .short

def header (crcHi crcLo type seq commandSet commandId : UInt8) (plen : UInt16) : Bytes :=
  [protoMagic0, protoMagic1, crcHi, crcLo, type, seq, commandSet, commandId,
    (plen >>> 8).toUInt8, plen.toUInt8]

def protoEncode (out : Option Nat) (type seq commandSet commandId : UInt8)
    (payload : Option Bytes) (plen : UInt16) : Except ProtoStatus Bytes :=
  match out with
  | none => .error .arg
  | some cap =>
      if plen.toNat > 0 ∧ payload = none then .error .arg
      else if protoHdrLen + plen.toNat > cap then .error .noSpace
      else .ok (header 0x00 0x00 type seq commandSet commandId plen ++
        (payload.getD []).take plen.toNat)

theorem beUInt16_toNat (hi lo : UInt8) :
    (beUInt16 hi lo).toNat = hi.toNat * 256 + lo.toNat := by
  have hhi := hi.toNat_lt
  have hlo := lo.toNat_lt
  have shifted : (hi.toUInt16 <<< 8).toNat = 2 ^ 8 * hi.toNat := by
    simp only [UInt16.toNat_shiftLeft, UInt8.toNat_toUInt16, UInt16.reduceToNat, Nat.reduceMod,
      Nat.shiftLeft_eq]
    omega
  rw [beUInt16, UInt16.toNat_or, shifted, UInt8.toNat_toUInt16,
    ← Nat.two_pow_add_eq_or_of_lt (i := 8) hlo hi.toNat]
  omega

theorem header_length (crcHi crcLo type seq commandSet commandId : UInt8) (plen : UInt16) :
    (header crcHi crcLo type seq commandSet commandId plen).length = protoHdrLen := rfl

theorem shiftRight_toNat (n : UInt16) : (n >>> 8).toUInt8.toNat = n.toNat / 256 := by
  have h := n.toNat_lt
  simp only [UInt16.toNat_toUInt8, UInt16.toNat_shiftRight, UInt16.reduceToNat, Nat.reduceMod,
    Nat.shiftRight_eq_div_pow]
  omega

@[simp] theorem beUInt16_split (n : UInt16) : beUInt16 (n >>> 8).toUInt8 n.toUInt8 = n := by
  apply UInt16.toNat_inj.mp
  rw [beUInt16_toNat, shiftRight_toNat, UInt16.toNat_toUInt8]
  omega

theorem beUInt16_hi (hi lo : UInt8) : (beUInt16 hi lo >>> 8).toUInt8 = hi := by
  apply UInt8.toNat_inj.mp
  have hlo := lo.toNat_lt
  rw [shiftRight_toNat, beUInt16_toNat]
  omega

theorem beUInt16_lo (hi lo : UInt8) : (beUInt16 hi lo).toUInt8 = lo := by
  apply UInt8.toNat_inj.mp
  have hlo := lo.toNat_lt
  rw [UInt16.toNat_toUInt8, beUInt16_toNat]
  omega

def ProtoFrame.wire (f : ProtoFrame) : Bytes :=
  header (f.crc >>> 8).toUInt8 f.crc.toUInt8 f.type f.seq f.commandSet f.commandId f.msgLen ++
    f.payload

theorem ProtoFrame.wire_length (f : ProtoFrame) : f.wire.length = f.frameSize := by
  rw [wire, List.length_append, header_length, f.payload_length, f.frameSize_eq]

theorem ProtoFrame.frameSize_pos (f : ProtoFrame) : 0 < f.frameSize := by
  rw [f.frameSize_eq, protoHdrLen]
  omega

def ProtoFrame.ofPayload (crc : UInt16) (type seq commandSet commandId : UInt8) (plen : UInt16)
    (payload : Bytes) (length : payload.length = plen.toNat)
    (small : plen.toNat ≤ protoPayloadMax) : ProtoFrame where
  crc := crc
  type := type
  seq := seq
  commandSet := commandSet
  commandId := commandId
  msgLen := plen
  payload := payload
  frameSize := protoHdrLen + plen.toNat
  payload_length := length
  msgLen_le := small
  frameSize_eq := rfl

theorem protoDecode_header (crcHi crcLo type seq commandSet commandId : UInt8) (plen : UInt16)
    (payload rest : Bytes) (length : payload.length = plen.toNat)
    (small : plen.toNat ≤ protoPayloadMax) :
    protoDecode (some (header crcHi crcLo type seq commandSet commandId plen ++
      (payload ++ rest))) =
      .ok (.ofPayload (beUInt16 crcHi crcLo) type seq commandSet commandId plen payload
        length small) := by
  have noTrunc : ¬ protoHdrLen + plen.toNat > protoHdrLen + (payload ++ rest).length := by
    rw [List.length_append]
    omega
  have noCap : ¬ plen.toNat > protoPayloadMax := by omega
  have whole : (payload ++ rest).take plen.toNat = payload := by rw [← length, List.take_left]
  simp only [header, List.cons_append, List.nil_append, protoDecode, beUInt16_split, noTrunc,
    noCap, whole, ne_eq, not_true_eq_false, or_self, if_false, dite_false, ProtoFrame.ofPayload]

theorem protoDecode_wire_append (f : ProtoFrame) (rest : Bytes) :
    protoDecode (some (f.wire ++ rest)) = .ok f := by
  rw [ProtoFrame.wire, List.append_assoc,
    protoDecode_header _ _ _ _ _ _ _ _ _ f.payload_length f.msgLen_le, beUInt16_split]
  cases f with
  | mk _ _ _ _ _ _ _ _ _ _ frameSize_eq =>
      subst frameSize_eq
      rfl

/-- Everything `proto_decode` accepts begins with the wire form of what it returns. -/
theorem wire_prefix_of_protoDecode (data : Bytes) (f : ProtoFrame)
    (h : protoDecode (some data) = .ok f) : f.wire <+: data := by
  revert h
  match data with
  | m0 :: m1 :: c0 :: c1 :: ty :: sq :: cs :: cid :: l0 :: l1 :: body =>
      intro h
      simp only [protoDecode] at h
      split at h
      · cases h
      · rename_i magic
        split at h
        · cases h
        · split at h
          · cases h
          · obtain ⟨rfl, rfl⟩ : m0 = protoMagic0 ∧ m1 = protoMagic1 := by
              simpa only [not_or, not_not] using magic
            cases h
            simp only [ProtoFrame.wire, header, beUInt16_hi, beUInt16_lo, List.cons_append,
              List.nil_append, List.cons_prefix_cons, true_and]
            exact List.take_prefix _ _
  | [] | [_] | [_, _] | [_, _, _] | [_, _, _, _] | [_, _, _, _, _] | [_, _, _, _, _, _]
  | [_, _, _, _, _, _, _] | [_, _, _, _, _, _, _, _] | [_, _, _, _, _, _, _, _, _] =>
      intro h
      cases h

theorem protoDecode_eq_ok_iff (data : Bytes) (f : ProtoFrame) :
    protoDecode (some data) = .ok f ↔ f.wire <+: data := by
  constructor
  · exact wire_prefix_of_protoDecode data f
  · rintro ⟨rest, rfl⟩
    exact protoDecode_wire_append f rest

def protoRead (data : Bytes) : Option (ProtoFrame × Nat) :=
  match protoDecode (some data) with
  | .ok f => some (f, f.frameSize)
  | .error _ => none

/-- The frame format is a prefix code, so the stream library applies to it. -/
def protoFraming : Framing ProtoFrame UInt8 where
  wire := ProtoFrame.wire
  read := protoRead
  wire_ne_nil f := List.ne_nil_of_length_pos (by rw [f.wire_length]; exact f.frameSize_pos)
  read_eq_some data f n := by
    rw [f.wire_length, ← protoDecode_eq_ok_iff, protoRead]
    cases protoDecode (some data) with
    | error e => simp
    | ok g => constructor <;> · simp; rintro rfl rfl; exact ⟨rfl, rfl⟩

theorem protoEncode_ok_iff (cap : Nat) (type seq commandSet commandId : UInt8)
    (payload : Option Bytes) (plen : UInt16) (wire : Bytes) :
    protoEncode (some cap) type seq commandSet commandId payload plen = .ok wire ↔
      ¬ (plen.toNat > 0 ∧ payload = none) ∧ protoHdrLen + plen.toNat ≤ cap ∧
      wire = header 0 0 type seq commandSet commandId plen ++
        (payload.getD []).take plen.toNat := by
  simp only [protoEncode]
  split_ifs with null full
  · simp [null]
  · simp only [false_iff]
    omega
  · simp only [Except.ok.injEq, null, not_false_eq_true, true_and]
    constructor
    · rintro rfl
      exact ⟨by omega, rfl⟩
    · rintro ⟨_, rfl⟩
      rfl

theorem protoEncode_decoded (data : Bytes) (f : ProtoFrame) (cap : Nat)
    (h : protoDecode (some data) = .ok f) (room : f.frameSize ≤ cap) :
    protoEncode (some cap) f.type f.seq f.commandSet f.commandId f.payloadPtr f.msgLen =
      .ok (((data.take f.frameSize).set 2 0).set 3 0) := by
  obtain ⟨rest, rfl⟩ := wire_prefix_of_protoDecode data f h
  have room' : protoHdrLen + f.msgLen.toNat ≤ cap := f.frameSize_eq ▸ room
  rw [protoEncode_ok_iff, ← f.wire_length, List.take_left]
  refine ⟨?_, room', ?_⟩
  · rintro ⟨nonempty, null⟩
    simp [ProtoFrame.payloadPtr, nonempty] at null
  · have bytes : (f.payloadPtr.getD []).take f.msgLen.toNat = f.payload := by
      rw [ProtoFrame.payloadPtr, ← f.payload_length]
      split_ifs with some_
      · simp
      · simp [List.length_eq_zero_iff.mp (Nat.eq_zero_of_not_pos some_)]
    rw [bytes]
    rfl

/-- One encoder call and the decoder agree: whatever the call writes, followed by
any bytes at all, decodes to the fields it was given. -/
def CodecAgrees (cap : Nat) (type seq commandSet commandId : UInt8) (payload : Bytes)
    (plen : UInt16) : Prop :=
  ∀ wire, protoEncode (some cap) type seq commandSet commandId (some payload) plen = .ok wire →
    ∀ suffix, ∃ f, protoDecode (some (wire ++ suffix)) = .ok f ∧
      f.type = type ∧ f.seq = seq ∧ f.commandSet = commandSet ∧ f.commandId = commandId ∧
      f.msgLen = plen ∧ f.payload = payload ∧ f.crc = 0 ∧ f.frameSize = wire.length

theorem codecAgrees_of_le (cap : Nat) (type seq commandSet commandId : UInt8) (payload : Bytes)
    (plen : UInt16) (length : payload.length = plen.toNat)
    (small : plen.toNat ≤ protoPayloadMax) :
    CodecAgrees cap type seq commandSet commandId payload plen := by
  intro wire encoded suffix
  obtain ⟨_, _, rfl⟩ := (protoEncode_ok_iff _ _ _ _ _ _ _ _).mp encoded
  have whole : ((some payload).getD []).take plen.toNat = payload := by
    rw [← length]
    exact List.take_length
  rw [whole, List.append_assoc]
  refine ⟨_, protoDecode_header _ _ _ _ _ _ _ _ _ length small,
    rfl, rfl, rfl, rfl, rfl, rfl, rfl, ?_⟩
  rw [List.length_append, header_length, length]
  rfl

/-- The encoder checks only the room in its output buffer, never the payload cap that
the decoder enforces. -/
theorem codecAgrees_iff (cap : Nat) (type seq commandSet commandId : UInt8) (payload : Bytes)
    (plen : UInt16) (length : payload.length = plen.toNat) :
    CodecAgrees cap type seq commandSet commandId payload plen ↔
      payload.length ≤ protoPayloadMax ∨ cap < protoHdrLen + payload.length := by
  rw [length]
  constructor
  · intro agrees
    by_contra! outside
    obtain ⟨large, room⟩ := outside
    obtain ⟨f, _, _, _, _, _, size, _⟩ := agrees _ ((protoEncode_ok_iff _ _ _ _ _ _ _ _).mpr
      ⟨by simp, room, rfl⟩) []
    have bound := f.msgLen_le
    rw [size] at bound
    omega
  · rintro (small | full)
    · exact codecAgrees_of_le cap type seq commandSet commandId payload plen length small
    · intro wire encoded
      obtain ⟨_, room, _⟩ := (protoEncode_ok_iff _ _ _ _ _ _ _ _).mp encoded
      omega

theorem protoCodec_agreement (cap : Nat) (type seq commandSet commandId : UInt8)
    (payload : Bytes) (plen : UInt16) (length : payload.length = plen.toNat) :
    (CodecAgrees cap type seq commandSet commandId payload plen ↔
      payload.length ≤ protoPayloadMax ∨ cap < protoHdrLen + payload.length) ∧
    ∀ data f, protoDecode (some data) = .ok f → ∀ room, f.frameSize ≤ room →
      protoEncode (some room) f.type f.seq f.commandSet f.commandId f.payloadPtr f.msgLen =
        .ok (((data.take f.frameSize).set 2 0).set 3 0) :=
  ⟨codecAgrees_iff cap type seq commandSet commandId payload plen length,
    fun data f decoded room enough => protoEncode_decoded data f room decoded enough⟩

def cafePayload : Bytes := [0x63, 0x61, 0x66, 0x65]

def cafeFrame (crcHi crcLo : UInt8) : Bytes :=
  [0x55, 0xaa, crcHi, crcLo, 0x00, 0x07, 0x01, 0x02, 0x00, 0x04] ++ cafePayload

theorem protoCodec_agreement_cafe :
    (CodecAgrees 64 0 7 1 2 cafePayload 4 ↔
      cafePayload.length ≤ protoPayloadMax ∨ 64 < protoHdrLen + cafePayload.length) ∧
    protoEncode (some 64) 0 7 1 2 (some cafePayload) 4 = .ok (cafeFrame 0 0) ∧
    ∃ f, protoDecode (some (cafeFrame 0x12 0x34 ++ [0x55, 0x0a])) = .ok f ∧
      f.payload = cafePayload ∧ f.crc = 0x1234 ∧ f.frameSize = 14 ∧
      protoEncode (some 14) f.type f.seq f.commandSet f.commandId f.payloadPtr f.msgLen =
        .ok ((((cafeFrame 0x12 0x34 ++ [0x55, 0x0a]).take f.frameSize).set 2 0).set 3 0) := by
  have both := protoCodec_agreement 64 0 7 1 2 cafePayload 4 rfl
  refine ⟨both.1, rfl, _, rfl, rfl, rfl, rfl, ?_⟩
  exact both.2 (cafeFrame 0x12 0x34 ++ [0x55, 0x0a]) _ rfl 14 (by decide)

/-- A payload of 257 bytes is encoded into a buffer of 267 and then not decoded. -/
theorem protoCodec_disagrees_above_cap :
    ¬ CodecAgrees 267 0 1 1 2 (List.replicate 257 0) 257 := by
  rw [codecAgrees_iff 267 0 1 1 2 (List.replicate 257 0) 257 List.length_replicate,
    List.length_replicate]
  decide

end WfyApp.ProtoCodec
