import WfyApp.ProtoCodec

/-! Packing of scan results into PUSH_SCAN_RESULT payloads (proto_dispatch.c), and
the payload format of protocol.h read back.
The packing loop of the source does not advance when an entry does not fit in an
empty frame, so it is modelled with fuel; `none` is a loop that has not ended.
Only the payloads are built here; framing them is the dispatcher's work. -/

namespace WfyApp.ScanPush
open ByteText

def wifiScanSsidMax : Nat := 32
def maxScanEntries : Nat := 64
def scanPushPayloadCap : Nat := 220
def scanPushEntriesPerFrame : Nat := 5

structure WifiScanEntry where
  ssidLen : UInt8
  ssid : Vector UInt8 wifiScanSsidMax
  rssi : Int8
  authType : UInt8
  band : UInt8
deriving DecidableEq

/-- The SSID bytes of an entry, which are not NUL-terminated in the array. -/
def WifiScanEntry.ssidBytes (e : WifiScanEntry) : Bytes := e.ssid.toList.take e.ssidLen.toNat

structure WifiScanEntry.WellFormed (e : WifiScanEntry) : Prop where
  pos : 1 ≤ e.ssidLen.toNat
  le : e.ssidLen.toNat ≤ wifiScanSsidMax

structure ScanList where
  entries : List WifiScanEntry
  length_le : entries.length ≤ maxScanEntries
  wellFormed : ∀ e ∈ entries, e.WellFormed

def WifiScanEntry.wire (e : WifiScanEntry) : Bytes :=
  e.ssidLen :: (e.ssidBytes ++ [e.rssi.toUInt8, e.authType, e.band])

def encodeScanEntry (e : WifiScanEntry) (dstCap : Nat) : Option Bytes :=
  let need := 1 + e.ssidLen.toNat + 3
  if need > dstCap then none else some e.wire

/-- The inner loop: append entries to the frame body until one of the two limits. -/
def fillFrame (body : Bytes) (entryCount : Nat) :
    List WifiScanEntry → Bytes × Nat × List WifiScanEntry
  | [] => (body, entryCount, [])
  | e :: es =>
      if entryCount < scanPushEntriesPerFrame then
        match encodeScanEntry e (scanPushPayloadCap - (3 + body.length)) with
        | none => (body, entryCount, e :: es)
        | some bytes => fillFrame (body ++ bytes) (entryCount + 1) es
      else (body, entryCount, e :: es)

def scanPayload (frameIndex : UInt8) (entries : List WifiScanEntry) : Bytes :=
  let (body, entryCount, rest) := fillFrame [] 0 entries
  frameIndex :: (if rest = [] then 0x01 else 0x00) :: UInt8.ofNat entryCount :: body

def sendScanResults : Nat → UInt8 → List WifiScanEntry → Option (List Bytes)
  | 0, _, _ => none
  | fuel + 1, frameIndex, entries =>
      let rest := (fillFrame [] 0 entries).2.2
      if rest = [] then some [scanPayload frameIndex entries]
      else (sendScanResults fuel (frameIndex + 1) rest).map (scanPayload frameIndex entries :: ·)

structure ScanRecord where
  ssid : Bytes
  rssi : Int8
  authType : UInt8
  band : UInt8
deriving DecidableEq

structure ScanChunk where
  frameIndex : UInt8
  endOfList : Bool
  entries : List ScanRecord
deriving DecidableEq

def parseEntry : Bytes → Option (ScanRecord × Bytes)
  | [] => none
  | n :: rest =>
      if rest.length < n.toNat then none
      else match rest.drop n.toNat with
        | rssi :: authType :: band :: tail =>
            some (⟨rest.take n.toNat, rssi.toInt8, authType, band⟩, tail)
        | _ => none

def parseEntries : Nat → Bytes → Option (List ScanRecord)
  | 0, [] => some []
  | 0, _ :: _ => none
  | k + 1, data => do
      let (r, rest) ← parseEntry data
      let rs ← parseEntries k rest
      pure (r :: rs)

/-- The documented payload: frame index, flags with bit 0 as end of list, number of
entries, and exactly that many entries. -/
def parseScanPush : Bytes → Option ScanChunk
  | frameIndex :: flags :: k :: data =>
      (parseEntries k.toNat data).map (⟨frameIndex, flags &&& 1 != 0, ·⟩)
  | _ => none

def WifiScanEntry.record (e : WifiScanEntry) : ScanRecord :=
  ⟨e.ssidBytes, e.rssi, e.authType, e.band⟩

namespace WifiScanEntry.WellFormed
variable {e : WifiScanEntry} (h : e.WellFormed)
include h

theorem ssidBytes_length : e.ssidBytes.length = e.ssidLen.toNat := by
  have := h.le
  simp only [ssidBytes, List.length_take, Vector.length_toList]
  omega

theorem wire_length : e.wire.length = e.ssidLen.toNat + 4 := by
  simp [wire, h.ssidBytes_length]

theorem encodeScanEntry_eq (cap : Nat) (room : 36 ≤ cap) :
    encodeScanEntry e cap = some e.wire := by
  have := h.le
  simp only [wifiScanSsidMax] at this
  have fits : ¬ 1 + e.ssidLen.toNat + 3 > cap := by omega
  simp [encodeScanEntry, fits]

theorem parseEntry_wire (rest : Bytes) : parseEntry (e.wire ++ rest) = some (e.record, rest) := by
  have size := h.ssidBytes_length
  have long : ¬ (e.ssidBytes ++ ([e.rssi.toUInt8, e.authType, e.band] ++ rest)).length <
      e.ssidLen.toNat := by
    rw [List.length_append]
    omega
  simp only [wire, List.cons_append, List.append_assoc, parseEntry, List.nil_append] at long ⊢
  rw [if_neg long, ← size, List.drop_left, List.take_left]
  rfl

end WifiScanEntry.WellFormed

theorem parseEntries_flatMap_wire (es : List WifiScanEntry) (wf : ∀ e ∈ es, e.WellFormed) :
    parseEntries es.length (es.flatMap WifiScanEntry.wire) =
      some (es.map WifiScanEntry.record) := by
  induction es with
  | nil => rfl
  | cons e es ih =>
      have head := (wf e List.mem_cons_self).parseEntry_wire (es.flatMap WifiScanEntry.wire)
      have tail := ih (fun x member => wf x (List.mem_cons_of_mem _ member))
      simp [parseEntries, head, tail]

theorem flatMap_wire_length_le (es : List WifiScanEntry) (wf : ∀ e ∈ es, e.WellFormed) :
    (es.flatMap WifiScanEntry.wire).length ≤ 36 * es.length := by
  induction es with
  | nil => simp
  | cons e es ih =>
      have head := wf e List.mem_cons_self
      have size := head.wire_length
      have bound := head.le
      have tail := ih (fun x member => wf x (List.mem_cons_of_mem _ member))
      simp only [wifiScanSsidMax] at bound
      simp only [List.flatMap_cons, List.length_append, List.length_cons]
      omega

/-- With well-formed entries only the entry count limits a frame: five entries of the
largest size still leave room below the payload cap. -/
theorem fillFrame_eq (es : List WifiScanEntry) (wf : ∀ e ∈ es, e.WellFormed) (body : Bytes)
    (count : Nat) (small : body.length ≤ 36 * count) (le : count ≤ scanPushEntriesPerFrame) :
    fillFrame body count es =
      (body ++ (es.take (scanPushEntriesPerFrame - count)).flatMap WifiScanEntry.wire,
        count + min (scanPushEntriesPerFrame - count) es.length,
        es.drop (scanPushEntriesPerFrame - count)) := by
  induction es generalizing body count with
  | nil => simp [fillFrame]
  | cons e es ih =>
      simp only [scanPushEntriesPerFrame] at le ih ⊢
      by_cases room : count < 5
      · have head := wf e List.mem_cons_self
        have space : 36 ≤ scanPushPayloadCap - (3 + body.length) := by
          simp only [scanPushPayloadCap]
          omega
        have grown : (body ++ e.wire).length ≤ 36 * (count + 1) := by
          have size := head.wire_length
          have bound := head.le
          simp only [wifiScanSsidMax] at bound
          simp only [List.length_append]
          omega
        have more : 5 - count = (5 - (count + 1)) + 1 := by omega
        simp only [fillFrame, scanPushEntriesPerFrame, room, if_true,
          head.encodeScanEntry_eq _ space]
        rw [ih (fun x member => wf x (List.mem_cons_of_mem _ member)) _ _ grown room, more]
        simp only [List.take_succ_cons, List.flatMap_cons, List.append_assoc, List.drop_succ_cons,
          List.length_cons, Prod.mk.injEq, true_and, and_true]
        omega
      · have full : 5 - count = 0 := by omega
        simp [fillFrame, scanPushEntriesPerFrame, room, full]

theorem fillFrame_start (es : List WifiScanEntry) (wf : ∀ e ∈ es, e.WellFormed) :
    fillFrame [] 0 es = ((es.take 5).flatMap WifiScanEntry.wire, min 5 es.length, es.drop 5) := by
  rw [fillFrame_eq es wf [] 0 (Nat.zero_le _) (Nat.zero_le _)]
  simp [scanPushEntriesPerFrame]

theorem mem_take_wellFormed {es : List WifiScanEntry} (wf : ∀ e ∈ es, e.WellFormed) (n : Nat) :
    ∀ e ∈ es.take n, e.WellFormed := fun e member => wf e (List.mem_of_mem_take member)

theorem mem_drop_wellFormed {es : List WifiScanEntry} (wf : ∀ e ∈ es, e.WellFormed) (n : Nat) :
    ∀ e ∈ es.drop n, e.WellFormed := fun e member => wf e (List.mem_of_mem_drop member)

theorem scanPayload_spec (frameIndex : UInt8) (es : List WifiScanEntry)
    (wf : ∀ e ∈ es, e.WellFormed) :
    (scanPayload frameIndex es).length ≤ scanPushPayloadCap ∧
    parseScanPush (scanPayload frameIndex es) =
      some ⟨frameIndex, decide (es.drop 5 = []), (es.take 5).map WifiScanEntry.record⟩ := by
  have first := mem_take_wellFormed wf 5
  have short : (es.take 5).length ≤ 5 := by simp
  have size := flatMap_wire_length_le (es.take 5) first
  have parsed := parseEntries_flatMap_wire (es.take 5) first
  have count : (UInt8.ofNat (min 5 es.length)).toNat = (es.take 5).length := by
    rw [List.length_take, UInt8.toNat_ofNat_of_lt' (by simp only [UInt8.size]; omega)]
  simp only [scanPayload, fillFrame_start es wf]
  constructor
  · simp only [List.length_cons, scanPushPayloadCap]
    omega
  · simp only [parseScanPush, count, parsed, Option.map_some]
    by_cases done : es.drop 5 = [] <;> simp [done]

/-- What a receiver makes of the payloads of one push sequence. -/
structure Delivers (start : Nat) (es : List WifiScanEntry) (payloads : List Bytes)
    (chunks : List ScanChunk) : Prop where
  parsed : payloads.map parseScanPush = chunks.map some
  entries : chunks.flatMap ScanChunk.entries = es.map WifiScanEntry.record
  indices : chunks.map (·.frameIndex.toNat) = List.range' start chunks.length
  size_le : ∀ p ∈ payloads, p.length ≤ scanPushPayloadCap
  count_le : ∀ c ∈ chunks, c.entries.length ≤ scanPushEntriesPerFrame
  last_ends : ∃ n, chunks.map ScanChunk.endOfList = List.replicate n false ++ [true]

theorem delivers_single (frameIndex : UInt8) (es : List WifiScanEntry)
    (wf : ∀ e ∈ es, e.WellFormed) (done : es.drop 5 = []) :
    Delivers frameIndex.toNat es [scanPayload frameIndex es]
      [⟨frameIndex, true, es.map WifiScanEntry.record⟩] := by
  obtain ⟨size, parsed⟩ := scanPayload_spec frameIndex es wf
  have short : es.length ≤ 5 := by simpa using done
  rw [List.take_of_length_le short] at parsed
  refine ⟨by simp [parsed, done], by simp, by simp, ?_, ?_, 0, rfl⟩
  · intro p member
    rw [List.mem_singleton.mp member]
    exact size
  · intro c member
    rw [List.mem_singleton.mp member, List.length_map]
    exact short

/-- A full frame in front of the frames for the remaining entries. -/
theorem delivers_cons (frameIndex : UInt8) (es : List WifiScanEntry)
    (wf : ∀ e ∈ es, e.WellFormed) (more : es.drop 5 ≠ []) {payloads : List Bytes}
    {chunks : List ScanChunk} (rest : Delivers (frameIndex.toNat + 1) (es.drop 5) payloads chunks) :
    Delivers frameIndex.toNat es (scanPayload frameIndex es :: payloads)
      (⟨frameIndex, false, (es.take 5).map WifiScanEntry.record⟩ :: chunks) := by
  obtain ⟨size, parsed⟩ := scanPayload_spec frameIndex es wf
  obtain ⟨n, ends⟩ := rest.last_ends
  refine ⟨?_, ?_, ?_, ?_, ?_, n + 1, ?_⟩
  · simp [parsed, more, rest.parsed]
  · rw [List.flatMap_cons, rest.entries, ← List.map_append, List.take_append_drop]
  · simp [List.range'_succ, rest.indices]
  · intro p member
    rcases List.mem_cons.mp member with rfl | later
    · exact size
    · exact rest.size_le p later
  · intro c member
    rcases List.mem_cons.mp member with rfl | later
    · simp [scanPushEntriesPerFrame]
    · exact rest.count_le c later
  · rw [List.map_cons, ends, List.replicate_succ, List.cons_append]

theorem sendScanResults_delivers (es : List WifiScanEntry) (wf : ∀ e ∈ es, e.WellFormed)
    (frameIndex : UInt8) (noWrap : frameIndex.toNat + es.length < 256) :
    ∃ payloads chunks,
      (∀ fuel, es.length < fuel → sendScanResults fuel frameIndex es = some payloads) ∧
      Delivers frameIndex.toNat es payloads chunks := by
  induction total : es.length using Nat.strong_induction_on generalizing es frameIndex with
  | _ n ih =>
    by_cases done : es.drop 5 = []
    · refine ⟨_, _, ?_, delivers_single frameIndex es wf done⟩
      intro fuel enough
      obtain ⟨fuel, rfl⟩ := Nat.exists_eq_succ_of_ne_zero (by omega : fuel ≠ 0)
      simp [sendScanResults, fillFrame_start es wf, done]
    · have long : 5 < es.length := by
        by_contra short
        exact done (List.drop_eq_nil_of_le (by omega))
      have shorter : (es.drop 5).length < n := by
        rw [List.length_drop]
        omega
      have next : (frameIndex + 1).toNat = frameIndex.toNat + 1 := by
        rw [UInt8.toNat_add]
        simp only [UInt8.reduceToNat]
        omega
      obtain ⟨payloads, chunks, sent, delivered⟩ := ih _ shorter (es.drop 5)
        (mem_drop_wellFormed wf 5) (frameIndex + 1)
        (by rw [next, List.length_drop]; omega) rfl
      rw [next] at delivered
      refine ⟨_, _, ?_, delivers_cons frameIndex es wf done delivered⟩
      intro fuel enough
      obtain ⟨fuel, rfl⟩ := Nat.exists_eq_succ_of_ne_zero (by omega : fuel ≠ 0)
      simp [sendScanResults, fillFrame_start es wf, done, sent fuel (by omega)]

theorem sendScanResults_roundTrip (es : List WifiScanEntry) (length : es.length ≤ maxScanEntries)
    (wf : ∀ e ∈ es, e.WellFormed) :
    ∃ payloads chunks,
      (∀ fuel, es.length < fuel → sendScanResults fuel 0 es = some payloads) ∧
      Delivers 0 es payloads chunks ∧ (es = [] → payloads = [[0x00, 0x01, 0x00]]) := by
  obtain ⟨payloads, chunks, sent, delivered⟩ := sendScanResults_delivers es wf 0
    (by simp only [maxScanEntries] at length; simp; omega)
  refine ⟨payloads, chunks, sent, delivered, ?_⟩
  rintro rfl
  have empty := sent 1 (by decide)
  simpa [sendScanResults, scanPayload, fillFrame] using empty.symm

def cafeEntry : WifiScanEntry :=
  { ssidLen := 4
    ssid := Vector.ofFn fun i => if i.val = 0 then 0x63 else if i.val = 1 then 0x61
      else if i.val = 2 then 0x66 else if i.val = 3 then 0x65 else 0
    rssi := -60
    authType := 3
    band := 1 }

def sevenEntries : List WifiScanEntry :=
  List.replicate 6 cafeEntry ++ [{ cafeEntry with rssi := -70, band := 0 }]

/-- Five entries fill the first frame, two are left for the second. -/
theorem sendScanResults_roundTrip_seven :
    ∃ payloads chunks,
      (∀ fuel, sevenEntries.length < fuel → sendScanResults fuel 0 sevenEntries = some payloads) ∧
      Delivers 0 sevenEntries payloads chunks ∧
      (sevenEntries = [] → payloads = [[0x00, 0x01, 0x00]]) ∧
      payloads.map List.length = [43, 19] := by
  obtain ⟨payloads, chunks, sent, delivered, empty⟩ := sendScanResults_roundTrip sevenEntries
    (by decide) (by
      intro e member
      have short : e.ssidLen = 4 := by
        rcases List.mem_append.mp member with first | last
        · rw [List.eq_of_mem_replicate first]
          rfl
        · rw [List.mem_singleton.mp last]
          rfl
      exact ⟨by rw [short]; decide, by rw [short]; decide⟩)
  have sizes : (sendScanResults 8 0 sevenEntries).map (List.map List.length) = some [43, 19] := by
    decide
  rw [sent 8 (by decide), Option.map_some, Option.some.injEq] at sizes
  exact ⟨payloads, chunks, sent, delivered, empty, sizes⟩

end WfyApp.ScanPush
