import WfyApp.IwScan
import WfyApp.LogText

/-! `parse_iw_scan` of both backends on texts made of BSS blocks: the blocks are read one by
one, and a name goes through the escapes of `iw` and back. -/

namespace WfyApp.ScanBlocks
open ByteText HomeWifi ScanPush WpaConfig
open IwScan (BssParse TargetScan strtoul decodeIwSsid decodeIwSsid_length_le commitBss commitBss_eq
  isBss lstrip rstrip lineName parseField parseSuites blockLine bssLine parseIwScan deriveAuthType
  freqToScanBand bandByte hexValue escaped EntryOf entry_eq_some paddedSsid)

section Blocks
variable (backend : Backend) (strtod : Bytes → Int)

/-- A text in blocks that start with a line beginning `BSS `, each ended by a line break
where another one follows. -/
structure InBlocks (blocks : List Bytes) : Prop where
  header : ∀ b ∈ blocks, ascii "BSS " <+: b
  single : ∀ b ∈ blocks, ∀ line ∈ (textLines b).tail, ¬ isBss line
  ended : ∀ b ∈ blocks.dropLast, b.getLast? = some newline

def blockRecord (lines : List Bytes) : BssParse := lines.foldl (blockLine backend strtod) .zero

theorem foldl_block (lines : List Bytes) (b : BssParse) (out : List WifiScanEntry)
    (inside : ∀ line ∈ lines, ¬ isBss line) :
    lines.foldl (bssLine backend strtod) (b, out) = (lines.foldl (blockLine backend strtod) b, out) := by
  induction lines generalizing b with
  | nil => rfl
  | cons line lines ih =>
      have first := inside line List.mem_cons_self
      have rest := fun later member => inside later (List.mem_cons_of_mem line member)
      rw [List.foldl_cons, List.foldl_cons, bssLine, if_neg first, ih _ rest]

/-- A block is read from the zero record, and committed by the header of the next one. -/
theorem foldl_blocks (blocks : List (Bytes × List Bytes)) (b : BssParse)
    (out : List WifiScanEntry) (headers : ∀ k ∈ blocks, isBss k.1)
    (inside : ∀ k ∈ blocks, ∀ line ∈ k.2, ¬ isBss line) :
    commitBss
        ((blocks.flatMap fun k => k.1 :: k.2).foldl (bssLine backend strtod)
          (b, out.take maxScanEntries)).1
        ((blocks.flatMap fun k => k.1 :: k.2).foldl (bssLine backend strtod)
          (b, out.take maxScanEntries)).2 =
      (out ++ b.entry.toList ++
        blocks.flatMap fun k => (blockRecord backend strtod k.2).entry.toList).take
          maxScanEntries := by
  induction blocks generalizing b out with
  | nil =>
      rw [List.flatMap_nil, List.flatMap_nil, List.append_nil]
      exact commitBss_eq b out
  | cons k blocks ih =>
      have header := headers k List.mem_cons_self
      have lines := inside k List.mem_cons_self
      have rest := ih (blockRecord backend strtod k.2) (out ++ b.entry.toList)
        (fun later member => headers later (List.mem_cons_of_mem k member))
        (fun later member => inside later (List.mem_cons_of_mem k member))
      rw [List.flatMap_cons, List.foldl_append, List.foldl_cons, bssLine, if_pos header]
      simp only [commitBss_eq]
      rw [foldl_block backend strtod k.2 _ _ lines, List.flatMap_cons, ← List.append_assoc]
      exact rest

theorem entry_zero : BssParse.zero.entry = none := rfl

theorem block_lines (b : Bytes) (header : ascii "BSS " <+: b) :
    ∃ line, textLines b = line :: (textLines b).tail ∧ isBss line := by
  obtain ⟨line, lines, split, begins⟩ :=
    textLines_of_begins (ascii "BSS ") b header (by decide) (by decide)
  exact ⟨line, by rw [split, List.tail_cons], begins⟩

/-- The blocks of a text are read independently of each other. -/
theorem parseIwScan_flatten (blocks : List Bytes) (shape : InBlocks blocks) :
    parseIwScan backend strtod blocks.flatten =
      (blocks.flatMap fun b =>
        (blockRecord backend strtod (textLines b).tail).entry.toList).take maxScanEntries := by
  have lines : blocks.flatMap textLines =
      (blocks.map fun b => ((textLines b).headD [], (textLines b).tail)).flatMap
        fun k => k.1 :: k.2 := by
    rw [List.flatMap_map]
    refine List.flatMap_congr fun b member => ?_
    obtain ⟨line, split, -⟩ := block_lines b (shape.header b member)
    rw [split]
    rfl
  have run := foldl_blocks backend strtod
    (blocks.map fun b => ((textLines b).headD [], (textLines b).tail)) .zero [] ?_ ?_
  · rw [parseIwScan, textLines_flatten blocks shape.ended, lines]
    rw [List.take_nil, entry_zero, Option.toList_none, List.append_nil, List.nil_append] at run
    refine run.trans ?_
    rw [List.flatMap_map]
  · intro k member
    obtain ⟨b, of_blocks, rfl⟩ := List.mem_map.mp member
    obtain ⟨line, split, begins⟩ := block_lines b (shape.header b of_blocks)
    rw [split]
    exact begins
  · intro k member
    obtain ⟨b, of_blocks, rfl⟩ := List.mem_map.mp member
    exact shape.single b of_blocks

theorem inBlocks_singleton (blocks : List Bytes) (shape : InBlocks blocks) (b : Bytes)
    (member : b ∈ blocks) : InBlocks [b] := by
  refine ⟨fun k same => ?_, fun k same => ?_, by simp⟩
  · rw [List.mem_singleton.mp same]
    exact shape.header b member
  · rw [List.mem_singleton.mp same]
    exact shape.single b member

theorem parseIwScan_block (b : Bytes) (shape : InBlocks [b]) :
    parseIwScan backend strtod b = (blockRecord backend strtod (textLines b).tail).entry.toList := by
  have alone := parseIwScan_flatten backend strtod [b] shape
  rw [List.flatten_singleton, List.flatMap_singleton] at alone
  rw [alone]
  exact List.take_of_length_le (le_trans Option.length_toList_le (by decide))

theorem entry_authType {b : BssParse} {e : WifiScanEntry} (made : b.entry = some e) :
    e.rssi = Int8.ofInt (if b.haveSignal then b.rssi else -100) ∧
      e.authType = deriveAuthType b := by
  rw [BssParse.entry] at made
  split_ifs at made
  · obtain ⟨band, -, rfl⟩ := Option.map_eq_some_iff.mp made
    simp_all
  · obtain ⟨band, -, rfl⟩ := Option.map_eq_some_iff.mp made
    simp_all

theorem deriveAuthType_le (b : BssParse) : (deriveAuthType b).toNat ≤ 5 := by
  rw [deriveAuthType]
  split_ifs <;> decide

structure InRange (e : WifiScanEntry) : Prop where
  ssidLen_pos : 1 ≤ e.ssidLen.toNat
  ssidLen_le : e.ssidLen.toNat ≤ 32
  band : e.band = 0 ∨ e.band = 1
  authType : e.authType.toNat ≤ 5

theorem inRange_of_entry {b : BssParse} {e : WifiScanEntry} (made : b.entry = some e) :
    InRange e := by
  obtain ⟨band, entry⟩ := entry_eq_some made
  have le := b.ssid_length_le
  refine ⟨?_, ?_, ?_, ?_⟩
  · rw [entry.ssidLen]
    exact List.length_pos_iff.mpr entry.nonempty
  · rw [entry.ssidLen]
    exact le
  · rw [entry.bandByte]
    cases band with
    | band2g => exact .inl rfl
    | band5g => exact .inr rfl
  · rw [(entry_authType made).2]
    exact deriveAuthType_le b

/-- A text in blocks gives the first 64 of the entries that its blocks give alone, at most
one each, and all entries are in range. -/
theorem parseIwScan_blockwise (blocks : List Bytes) (shape : InBlocks blocks) :
    parseIwScan backend strtod blocks.flatten =
        (blocks.flatMap (parseIwScan backend strtod)).take 64 ∧
      (∀ b ∈ blocks, (parseIwScan backend strtod b).length ≤ 1) ∧
      ∀ e ∈ parseIwScan backend strtod blocks.flatten, InRange e := by
  have alone : ∀ b ∈ blocks, parseIwScan backend strtod b =
      (blockRecord backend strtod (textLines b).tail).entry.toList := fun b member =>
    parseIwScan_block backend strtod b (inBlocks_singleton blocks shape b member)
  have whole := parseIwScan_flatten backend strtod blocks shape
  rw [← List.flatMap_congr alone] at whole
  refine ⟨whole, fun b member => ?_, fun e shown => ?_⟩
  · rw [alone b member]
    exact Option.length_toList_le
  · rw [whole] at shown
    obtain ⟨b, member, made⟩ := List.mem_flatMap.mp (List.mem_of_mem_take shown)
    rw [alone b member] at made
    exact inRange_of_entry (Option.mem_toList.mp made)

end Blocks

theorem parseIwScan_blockwise_two :
    (parseIwScan .rk3566 (fun _ => 0) (IwScan.scanOf (ascii "cafe"))).map
        WifiScanEntry.ssidBytes = [ascii "cafe"] ∧
      parseIwScan .rk3566 (fun _ => 0)
          [IwScan.scanOf (ascii "cafe"), ascii "BSS 1\n\tfreq: 900\n\tSSID: far"].flatten =
        ([IwScan.scanOf (ascii "cafe"), ascii "BSS 1\n\tfreq: 900\n\tSSID: far"].flatMap
          (parseIwScan .rk3566 (fun _ => 0))).take 64 :=
  ⟨by decide +kernel, (parseIwScan_blockwise .rk3566 (fun _ => 0)
    [IwScan.scanOf (ascii "cafe"), ascii "BSS 1\n\tfreq: 900\n\tSSID: far"]
    ⟨by decide +kernel, by decide +kernel, by decide +kernel⟩).1⟩

section Names
variable (backend : Backend) (strtod : Bytes → Int)

structure SsidLine (line : Bytes) : Prop where
  begins : ascii "SSID:" <+: lstrip backend line
  oneLine : newline ∉ line
  named : decodeIwSsid wifiScanSsidMax (rstrip backend (lstrip backend ((lstrip backend line).drop 5))) ≠ []

def blockText (header : Bytes) (lines : List Bytes) : Bytes :=
  (header :: lines).flatMap (· ++ [newline])

structure BlockLines (header : Bytes) (lines : List Bytes) : Prop where
  begins : isBss header
  header_oneLine : newline ∉ header
  inside : ∀ line ∈ lines, ¬ isBss line
  oneLine : ∀ line ∈ lines, newline ∉ line

def mentions (word line : Bytes) : Bool := word <:+: lstrip backend line

def mentionsEap (line : Bytes) : Bool :=
  mentions backend (ascii "EAP") line || mentions backend (ascii "802.1X") line ||
    mentions backend (ascii "Enterprise") line

/-- The lines name the same key management: PSK or not, EAP or not and, without PSK, SAE or
not. -/
def SameSuites (first second : Bytes) : Prop :=
  mentions backend (ascii "PSK") first = mentions backend (ascii "PSK") second ∧
    mentionsEap backend first = mentionsEap backend second ∧
    (mentions backend (ascii "PSK") first = false →
      mentions backend (ascii "SAE") first = mentions backend (ascii "SAE") second)

/-- The records agree in everything but the name and the suites. -/
structure Alike (b c : BssParse) : Prop where
  rssi : b.rssi = c.rssi
  freq : b.freq = c.freq
  haveSignal : b.haveSignal = c.haveSignal
  haveFreq : b.haveFreq = c.haveFreq
  hasPrivacy : b.hasPrivacy = c.hasPrivacy
  hasRsn : b.hasRsn = c.hasRsn
  hasWpa : b.hasWpa = c.hasWpa

theorem alike_parseSuites {b c : BssParse} (alike : Alike b c) (t u : Bytes) :
    Alike (parseSuites b t) (parseSuites c u) :=
  ⟨alike.rssi, alike.freq, alike.haveSignal, alike.haveFreq, alike.hasPrivacy, alike.hasRsn,
    alike.hasWpa⟩

theorem alike_blockLine {b c : BssParse} (alike : Alike b c) (line : Bytes) :
    Alike (blockLine backend strtod b line) (blockLine backend strtod c line) := by
  refine alike_parseSuites ?_ _ _
  obtain ⟨rssi, freq, haveSignal, haveFreq, hasPrivacy, hasRsn, hasWpa⟩ := alike
  unfold parseField
  split_ifs <;> constructor <;> first | assumption | rfl

theorem foldl_alike {b c : BssParse} (alike : Alike b c) (lines : List Bytes) :
    Alike (lines.foldl (blockLine backend strtod) b) (lines.foldl (blockLine backend strtod) c) := by
  induction lines generalizing b c with
  | nil => exact alike
  | cons line lines ih => exact ih (alike_blockLine backend strtod alike line)

theorem parseField_ssid (b : BssParse) (t : Bytes) (begins : ascii "SSID:" <+: t) :
    parseField backend strtod b t =
      { b with
          ssid := decodeIwSsid wifiScanSsidMax (rstrip backend (lstrip backend (t.drop 5)))
          ssid_length_le := decodeIwSsid_length_le _ _
          haveSsid := true } := by
  obtain ⟨rest, rfl⟩ := begins
  rfl

theorem alike_ssid (b : BssParse) (first second : Bytes)
    (begins : ascii "SSID:" <+: lstrip backend first)
    (begins' : ascii "SSID:" <+: lstrip backend second) :
    Alike (blockLine backend strtod b first) (blockLine backend strtod b second) := by
  refine alike_parseSuites ?_ _ _
  rw [parseField_ssid backend strtod b _ begins, parseField_ssid backend strtod b _ begins']
  exact ⟨rfl, rfl, rfl, rfl, rfl, rfl, rfl⟩

theorem parseField_suites (b : BssParse) (t : Bytes) :
    (parseField backend strtod b t).hasSae = b.hasSae ∧
      (parseField backend strtod b t).hasPsk = b.hasPsk ∧
      (parseField backend strtod b t).hasEap = b.hasEap := by
  unfold parseField
  split_ifs <;> exact ⟨rfl, rfl, rfl⟩

theorem blockLine_suites (b : BssParse) (line : Bytes) :
    (blockLine backend strtod b line).hasSae = (b.hasSae || mentions backend (ascii "SAE") line) ∧
      (blockLine backend strtod b line).hasPsk =
        (b.hasPsk || mentions backend (ascii "PSK") line) ∧
      (blockLine backend strtod b line).hasEap = (b.hasEap || mentionsEap backend line) := by
  obtain ⟨sae, psk, eap⟩ := parseField_suites backend strtod b (lstrip backend line)
  simp only [blockLine, parseSuites, sae, psk, eap, mentions, mentionsEap, Bool.or_assoc, and_self]

/-- A suite is on record if it was, or if some line names it. -/
theorem foldl_suites (lines : List Bytes) (b : BssParse) :
    (lines.foldl (blockLine backend strtod) b).hasSae =
        (b.hasSae || lines.any (mentions backend (ascii "SAE"))) ∧
      (lines.foldl (blockLine backend strtod) b).hasPsk =
        (b.hasPsk || lines.any (mentions backend (ascii "PSK"))) ∧
      (lines.foldl (blockLine backend strtod) b).hasEap =
        (b.hasEap || lines.any (mentionsEap backend)) := by
  induction lines generalizing b with
  | nil => simp
  | cons line lines ih =>
      obtain ⟨sae, psk, eap⟩ := blockLine_suites backend strtod b line
      obtain ⟨saes, psks, eaps⟩ := ih (blockLine backend strtod b line)
      simp only [List.foldl_cons, saes, psks, eaps, sae, psk, eap, List.any_cons, Bool.or_assoc,
        and_self]

theorem inBlocks_blockText (header : Bytes) (lines : List Bytes) (shape : BlockLines header lines) :
    InBlocks [blockText header lines] ∧
      (textLines (blockText header lines)).tail = lines.filter (· ≠ []) := by
  have begins : ascii "BSS " <+: header := shape.begins
  have header_ne : header ≠ [] := fun empty => by
    rw [empty] at begins
    exact absurd (List.prefix_nil.mp begins) (by decide)
  have read : textLines (blockText header lines) = header :: lines.filter (· ≠ []) := by
    rw [blockText, textLines_flatMap, List.filter_cons_of_pos (by simpa using header_ne)]
    intro line member
    rcases List.mem_cons.mp member with rfl | later
    · exact shape.header_oneLine
    · exact shape.oneLine line later
  refine ⟨⟨fun b same => ?_, fun b same => ?_, by simp⟩, by rw [read, List.tail_cons]⟩
  · rw [List.mem_singleton.mp same]
    refine begins.trans ?_
    rw [blockText, List.flatMap_cons, List.append_assoc]
    exact List.prefix_append _ _
  · rw [List.mem_singleton.mp same, read, List.tail_cons]
    exact fun line member => shape.inside line (List.mem_of_mem_filter member)

theorem parseIwScan_blockText (header : Bytes) (lines : List Bytes)
    (shape : BlockLines header lines) :
    parseIwScan backend strtod (blockText header lines) =
      (blockRecord backend strtod (lines.filter (· ≠ []))).entry.toList := by
  obtain ⟨block, rest⟩ := inBlocks_blockText header lines shape
  rw [parseIwScan_block backend strtod _ block, rest]

theorem SsidLine.not_isBss {line : Bytes} (names : SsidLine backend line) : ¬ isBss line := by
  rintro ⟨rest, rfl⟩
  obtain ⟨more, begins⟩ := names.begins
  cases backend <;> cases begins

theorem SsidLine.ne_nil {line : Bytes} (names : SsidLine backend line) : line ≠ [] := by
  rintro rfl
  obtain ⟨more, begins⟩ := names.begins
  cases backend <;> cases begins

theorem blockLines_insert {header : Bytes} {before after : List Bytes} {line : Bytes}
    (shape : BlockLines header (before ++ after)) (names : SsidLine backend line) :
    BlockLines header (before ++ line :: after) := by
  refine ⟨shape.begins, shape.header_oneLine, fun l member => ?_, fun l member => ?_⟩
  · rcases List.mem_append.mp member with early | late
    · exact shape.inside l (List.mem_append_left _ early)
    · rcases List.mem_cons.mp late with rfl | later
      · exact names.not_isBss backend
      · exact shape.inside l (List.mem_append_right _ later)
  · rcases List.mem_append.mp member with early | late
    · exact shape.oneLine l (List.mem_append_left _ early)
    · rcases List.mem_cons.mp late with rfl | later
      · exact names.oneLine
      · exact shape.oneLine l (List.mem_append_right _ later)

def namedRecord (before : List Bytes) (line : Bytes) (after : List Bytes) : BssParse :=
  (after.filter (· ≠ [])).foldl (blockLine backend strtod)
    (blockLine backend strtod (blockRecord backend strtod (before.filter (· ≠ []))) line)

theorem parseIwScan_named {header : Bytes} {before after : List Bytes} {line : Bytes}
    (shape : BlockLines header (before ++ after)) (names : SsidLine backend line) :
    parseIwScan backend strtod (blockText header (before ++ line :: after)) =
      (namedRecord backend strtod before line after).entry.toList := by
  rw [parseIwScan_blockText backend strtod _ _ (blockLines_insert backend shape names),
    List.filter_append, List.filter_cons_of_pos (by simpa using names.ne_nil backend),
    blockRecord, List.foldl_append, List.foldl_cons]
  rfl

theorem alike_named (before after : List Bytes) (first second : Bytes)
    (names : SsidLine backend first) (names' : SsidLine backend second) :
    Alike (namedRecord backend strtod before first after)
      (namedRecord backend strtod before second after) :=
  foldl_alike backend strtod
    (alike_ssid backend strtod _ first second names.begins names'.begins) _

theorem deriveAuthType_congr {b c : BssParse} (alike : Alike b c) (psk : b.hasPsk = c.hasPsk)
    (eap : b.hasEap = c.hasEap) (sae : b.hasPsk = false → b.hasSae = c.hasSae) :
    deriveAuthType b = deriveAuthType c := by
  rw [deriveAuthType, deriveAuthType, ← alike.hasRsn, ← alike.hasWpa, ← alike.hasPrivacy, ← psk,
    ← eap]
  cases known : b.hasPsk with
  | false => rw [sae known]
  | true => simp

theorem deriveAuthType_named (before after : List Bytes) (first second : Bytes)
    (names : SsidLine backend first) (names' : SsidLine backend second)
    (same : SameSuites backend first second) :
    deriveAuthType (namedRecord backend strtod before first after) =
      deriveAuthType (namedRecord backend strtod before second after) := by
  obtain ⟨psk, eap, sae⟩ := same
  have suites (line : Bytes) := foldl_suites backend strtod (after.filter (· ≠ []))
    (blockLine backend strtod (blockRecord backend strtod (before.filter (· ≠ []))) line)
  have added (line : Bytes) := blockLine_suites backend strtod
    (blockRecord backend strtod (before.filter (· ≠ []))) line
  refine deriveAuthType_congr (alike_named backend strtod before after first second names names')
    ?_ ?_ ?_
  · rw [namedRecord, namedRecord, (suites first).2.1, (suites second).2.1, (added first).2.1,
      (added second).2.1, psk]
  · rw [namedRecord, namedRecord, (suites first).2.2, (suites second).2.2, (added first).2.2,
      (added second).2.2, eap]
  · rw [namedRecord, namedRecord, (suites first).2.1, (suites first).1, (suites second).1,
      (added first).2.1, (added first).1, (added second).1]
    intro none
    simp only [Bool.or_eq_false_iff] at none
    rw [sae none.1.2]

def probeBefore : List Bytes := [ascii "freq: 2412", ascii "RSN:"]

theorem blockLines_probe (after : List Bytes) (known : after ∈ [[], [ascii "SAE"], [ascii "PSK"]]) :
    BlockLines (ascii "BSS 1") (probeBefore ++ after) := by
  simp only [List.mem_cons, List.not_mem_nil, or_false] at known
  rcases known with rfl | rfl | rfl <;> exact ⟨by decide, by decide, by decide, by decide⟩

theorem blockRecord_probe :
    blockRecord backend strtod (probeBefore.filter (· ≠ [])) =
      { BssParse.zero with freq := 2412, haveFreq := true, hasRsn := true } := by
  cases backend <;> rfl

def rsnAuth (sae psk eap : Bool) : UInt8 :=
  if sae && !psk then 4 else if eap then 5 else if psk || sae then 3 else 0

theorem deriveAuthType_rsn (b : BssParse) (rsn : b.hasRsn = true) (wpa : b.hasWpa = false)
    (privacy : b.hasPrivacy = false) : deriveAuthType b = rsnAuth b.hasSae b.hasPsk b.hasEap := by
  rw [deriveAuthType, rsnAuth, rsn, wpa, privacy]
  simp

theorem rsnAuth_tells : ∀ sae psk eap sae' psk' eap' : Bool,
    rsnAuth sae psk eap = rsnAuth sae' psk' eap' →
    rsnAuth true psk eap = rsnAuth true psk' eap' →
    rsnAuth sae true eap = rsnAuth sae' true eap' →
    psk = psk' ∧ eap = eap' ∧ (psk = false → sae = sae') := by
  decide

theorem foldl_probe (after : List Bytes) (known : after ∈ [[], [ascii "SAE"], [ascii "PSK"]])
    (b : BssParse) :
    Alike ((after.filter (· ≠ [])).foldl (blockLine backend strtod) b) b ∧
      ((after.filter (· ≠ [])).foldl (blockLine backend strtod) b).ssid = b.ssid ∧
      ((after.filter (· ≠ [])).foldl (blockLine backend strtod) b).haveSsid = b.haveSsid := by
  simp only [List.mem_cons, List.not_mem_nil, or_false] at known
  rcases known with rfl | rfl | rfl <;>
    cases backend <;> exact ⟨⟨rfl, rfl, rfl, rfl, rfl, rfl, rfl⟩, rfl, rfl⟩

def probeAuth (line : Bytes) (after : List Bytes) : UInt8 :=
  rsnAuth (mentions backend (ascii "SAE") line || after.any (mentions backend (ascii "SAE")))
    (mentions backend (ascii "PSK") line || after.any (mentions backend (ascii "PSK")))
    (mentionsEap backend line || after.any (mentionsEap backend))

theorem probe_entry (line : Bytes) (names : SsidLine backend line) (after : List Bytes)
    (known : after ∈ [[], [ascii "SAE"], [ascii "PSK"]]) :
    ∃ e, parseIwScan backend strtod (blockText (ascii "BSS 1") (probeBefore ++ line :: after)) = [e] ∧
      e.authType = probeAuth backend line after := by
  have shown := parseIwScan_named backend strtod (blockLines_probe after known) names
  obtain ⟨sae, psk, eap⟩ := blockLine_suites backend strtod
    (blockRecord backend strtod (probeBefore.filter (· ≠ []))) line
  obtain ⟨saes, psks, eaps⟩ := foldl_suites backend strtod (after.filter (· ≠ []))
    (blockLine backend strtod (blockRecord backend strtod (probeBefore.filter (· ≠ []))) line)
  obtain ⟨alike, ssid, haveSsid⟩ := foldl_probe backend strtod after known
    (blockLine backend strtod (blockRecord backend strtod (probeBefore.filter (· ≠ []))) line)
  have kept : after.filter (· ≠ []) = after := by
    simp only [List.mem_cons, List.not_mem_nil, or_false] at known
    rcases known with rfl | rfl | rfl <;> decide
  rw [← namedRecord, kept] at saes psks eaps
  rw [← namedRecord] at alike ssid haveSsid
  rw [blockRecord_probe] at sae psk eap saes psks eaps alike ssid haveSsid
  rw [blockLine, parseField_ssid backend strtod _ _ names.begins] at alike ssid haveSsid
  have named : (namedRecord backend strtod probeBefore line after).ssid.length ≠ 0 := by
    rw [ssid]
    exact fun empty => names.named (List.length_eq_zero_iff.mp empty)
  have known_name : (namedRecord backend strtod probeBefore line after).haveSsid = true := haveSsid
  have known_freq : (namedRecord backend strtod probeBefore line after).haveFreq = true :=
    alike.haveFreq
  have freq : (namedRecord backend strtod probeBefore line after).freq = 2412 := alike.freq
  have inBand : freqToScanBand 2412 = some .band2g := by decide
  have auth := deriveAuthType_rsn _ alike.hasRsn alike.hasWpa alike.hasPrivacy
  rw [saes, psks, eaps, sae, psk, eap] at auth
  rw [BssParse.entry, if_neg (by simp [known_name, named]), if_neg (by simp [known_freq]), freq,
    inBand, Option.map_some, Option.toList_some] at shown
  exact ⟨_, shown, auth⟩

theorem probeAuth_tells (first second : Bytes)
    (same : ∀ after ∈ [[], [ascii "SAE"], [ascii "PSK"]],
      probeAuth backend first after = probeAuth backend second after) :
    SameSuites backend first second := by
  have words : mentions backend (ascii "SAE") (ascii "SAE") = true ∧
      mentions backend (ascii "PSK") (ascii "SAE") = false ∧
      mentionsEap backend (ascii "SAE") = false ∧
      mentions backend (ascii "SAE") (ascii "PSK") = false ∧
      mentions backend (ascii "PSK") (ascii "PSK") = true ∧
      mentionsEap backend (ascii "PSK") = false := by
    cases backend <;> decide
  have alone := same [] (by simp)
  have sae := same [ascii "SAE"] (by simp)
  have psk := same [ascii "PSK"] (by simp)
  simp only [probeAuth, List.any_nil, List.any_cons, words, Bool.or_false, Bool.or_true] at alone sae psk
  exact rsnAuth_tells _ _ _ _ _ _ alone sae psk

/-- The band and the signal of an entry never depend on the name. Its authentication type
is independent of the name in all blocks exactly for lines that name the same suites. -/
theorem names_exchanged_iff (first second : Bytes) (names : SsidLine backend first)
    (names' : SsidLine backend second) :
    (∀ header before after e e', BlockLines header (before ++ after) →
      parseIwScan backend strtod (blockText header (before ++ first :: after)) = [e] →
      parseIwScan backend strtod (blockText header (before ++ second :: after)) = [e'] →
      e.band = e'.band ∧ e.rssi = e'.rssi) ∧
    ((∀ header before after e e', BlockLines header (before ++ after) →
        parseIwScan backend strtod (blockText header (before ++ first :: after)) = [e] →
        parseIwScan backend strtod (blockText header (before ++ second :: after)) = [e'] →
        e.authType = e'.authType) ↔
      SameSuites backend first second) := by
  have made : ∀ line, SsidLine backend line → ∀ header before after e,
      BlockLines header (before ++ after) →
      parseIwScan backend strtod (blockText header (before ++ line :: after)) = [e] →
      (namedRecord backend strtod before line after).entry = some e := by
    intro line names header before after e shape shown
    rw [parseIwScan_named backend strtod shape names] at shown
    exact Option.mem_toList.mp (by rw [shown]; exact List.mem_singleton_self e)
  refine ⟨?_, ?_, ?_⟩
  · intro header before after e e' shape shown shown'
    have one := made first names header before after e shape shown
    have two := made second names' header before after e' shape shown'
    have alike := alike_named backend strtod before after first second names names'
    obtain ⟨band, entry⟩ := entry_eq_some one
    obtain ⟨band', entry'⟩ := entry_eq_some two
    have bands : some band = some band' := by
      rw [← entry.inBand, ← entry'.inBand, alike.freq]
    refine ⟨?_, ?_⟩
    · rw [entry.bandByte, entry'.bandByte, Option.some.inj bands]
    · rw [(entry_authType one).1, (entry_authType two).1, alike.haveSignal, alike.rssi]
  · intro all
    refine probeAuth_tells backend first second fun after known => ?_
    obtain ⟨e, shown, auth⟩ := probe_entry backend strtod first names after known
    obtain ⟨e', shown', auth'⟩ := probe_entry backend strtod second names' after known
    rw [← auth, ← auth']
    exact all _ _ _ e e' (blockLines_probe after known) shown shown'
  · intro same header before after e e' shape shown shown'
    have one := made first names header before after e shape shown
    have two := made second names' header before after e' shape shown'
    rw [(entry_authType one).2, (entry_authType two).2]
    exact deriveAuthType_named backend strtod before after first second names names' same

end Names

theorem names_exchanged_iff_plain :
    SameSuites .rk3566 (ascii "\tSSID: home") (ascii "\tSSID: cafe") ∧
      ∀ header before after e e', BlockLines header (before ++ after) →
        parseIwScan .rk3566 (fun _ => 0)
          (blockText header (before ++ ascii "\tSSID: home" :: after)) = [e] →
        parseIwScan .rk3566 (fun _ => 0)
          (blockText header (before ++ ascii "\tSSID: cafe" :: after)) = [e'] →
        e.authType = e'.authType :=
  ⟨⟨by decide, by decide, by decide⟩,
    (names_exchanged_iff .rk3566 (fun _ => 0) (ascii "\tSSID: home") (ascii "\tSSID: cafe")
      ⟨by decide, by decide, by decide +kernel⟩ ⟨by decide, by decide, by decide +kernel⟩).2.mpr
      ⟨by decide, by decide, by decide⟩⟩

/-- An open network on channel 1 is listed as open if it is called home, as a WPA3 network
if it is called SAE and as an enterprise network if it is called EAP. -/
theorem names_change_auth :
    (parseIwScan .rk3566 (fun _ => 0) (blockText (ascii "BSS 1")
        [ascii "\tfreq: 2412", ascii "\tSSID: home"])).map WifiScanEntry.authType = [0] ∧
      (parseIwScan .rk3566 (fun _ => 0) (blockText (ascii "BSS 1")
        [ascii "\tfreq: 2412", ascii "\tSSID: SAE"])).map WifiScanEntry.authType = [4] ∧
      (parseIwScan .a733 (fun _ => 0) (blockText (ascii "BSS 1")
        [ascii "\tfreq: 2412", ascii "\tSSID: EAP"])).map WifiScanEntry.authType = [5] := by
  decide +kernel

section Printing

def HexDigits (c : UInt8) (digits : Bytes) : Prop :=
  ∃ high low, digits = [high, low] ∧ hexValue high = some (c.toNat / 16) ∧
    hexValue low = some (c.toNat % 16)

variable (hex : UInt8 → Bytes)

def escapeByte (c : UInt8) : Bytes := backslash :: 0x78 :: hex c

/-- A byte as `iw` prints it at either end of a name. -/
def edgeByte (c : UInt8) : Bytes :=
  if 0x21 ≤ c ∧ c ≤ 0x7E ∧ c ≠ backslash then [c] else escapeByte hex c

/-- A byte between others: spaces need no escape there. -/
def innerByte (c : UInt8) : Bytes := if c = 0x20 then [c] else edgeByte hex c

def iwRest : Bytes → Bytes
  | [] => []
  | [c] => edgeByte hex c
  | c :: d :: rest => innerByte hex c ++ iwRest (d :: rest)

/-- A name as `iw` prints it. -/
def iwSsid : Bytes → Bytes
  | [] => []
  | c :: rest => edgeByte hex c ++ iwRest hex rest

theorem decodeIwSsid_plain (room : Nat) (c : UInt8) (rest : Bytes) (other : c ≠ backslash) :
    decodeIwSsid (room + 1) (c :: rest) = c :: decodeIwSsid room rest := by
  have none : escaped (c :: rest) = none := by
    rcases rest with _ | ⟨x, _ | ⟨h, _ | ⟨l, rest⟩⟩⟩ <;> first | rfl | exact if_neg fun both => other both.1
  rw [decodeIwSsid, none]

theorem decodeIwSsid_escape (room : Nat) (c : UInt8) (rest : Bytes) (digits : HexDigits c (hex c)) :
    decodeIwSsid (room + 1) (escapeByte hex c ++ rest) = c :: decodeIwSsid room rest := by
  obtain ⟨high, low, two, high_eq, low_eq⟩ := digits
  have byte : UInt8.ofNat (16 * (c.toNat / 16) + c.toNat % 16) = c := by
    rw [Nat.div_add_mod]
    exact UInt8.ofNat_toNat
  have read : escaped (escapeByte hex c ++ rest) = some (c, rest) := by
    rw [escapeByte, two]
    simp [escaped, high_eq, low_eq, byte, backslash]
  rw [escapeByte] at read ⊢
  rw [List.cons_append] at read ⊢
  rw [decodeIwSsid, read]

theorem decodeIwSsid_edge (room : Nat) (c : UInt8) (rest : Bytes) (digits : HexDigits c (hex c)) :
    decodeIwSsid (room + 1) (edgeByte hex c ++ rest) = c :: decodeIwSsid room rest := by
  rw [edgeByte]
  split_ifs with shown
  · exact decodeIwSsid_plain room c rest shown.2.2
  · exact decodeIwSsid_escape hex room c rest digits

theorem decodeIwSsid_inner (room : Nat) (c : UInt8) (rest : Bytes) (digits : HexDigits c (hex c)) :
    decodeIwSsid (room + 1) (innerByte hex c ++ rest) = c :: decodeIwSsid room rest := by
  rw [innerByte]
  split_ifs with space
  · exact decodeIwSsid_plain room c rest (by rw [space]; decide)
  · exact decodeIwSsid_edge hex room c rest digits

theorem decodeIwSsid_rest (digits : ∀ c, HexDigits c (hex c)) (ssid : Bytes) (room : Nat)
    (le : ssid.length ≤ room) : decodeIwSsid room (iwRest hex ssid) = ssid := by
  induction ssid generalizing room with
  | nil => cases room <;> rfl
  | cons c rest ih =>
      cases room with
      | zero => simp at le
      | succ room =>
          have shorter : rest.length ≤ room := Nat.le_of_succ_le_succ le
          cases rest with
          | nil =>
              have last := decodeIwSsid_edge hex room c [] (digits c)
              rw [List.append_nil] at last
              rw [iwRest, last]
              cases room <;> rfl
          | cons d rest => rw [iwRest, decodeIwSsid_inner hex room c _ (digits c), ih room shorter]

theorem decodeIwSsid_iwSsid (digits : ∀ c, HexDigits c (hex c)) (ssid : Bytes) (room : Nat)
    (le : ssid.length ≤ room) : decodeIwSsid room (iwSsid hex ssid) = ssid := by
  cases ssid with
  | nil => cases room <;> rfl
  | cons c rest =>
      cases room with
      | zero => simp at le
      | succ room =>
          rw [iwSsid, decodeIwSsid_edge hex room c _ (digits c),
            decodeIwSsid_rest hex digits rest room (Nat.le_of_succ_le_succ le)]

def graphic (c : UInt8) : Bool := 0x21 ≤ c && c ≤ 0x7E

theorem hexValue_graphic : ∀ c : UInt8, hexValue c ≠ none → graphic c = true := by
  decide +kernel

theorem edgeByte_graphic (c : UInt8) (digits : HexDigits c (hex c)) :
    edgeByte hex c ≠ [] ∧ ∀ x ∈ edgeByte hex c, graphic x = true := by
  rw [edgeByte]
  split_ifs with shown
  · simp [graphic, shown.1, shown.2.1]
  · obtain ⟨high, low, two, high_eq, low_eq⟩ := digits
    rw [escapeByte, two]
    refine ⟨by simp, fun x member => ?_⟩
    simp only [List.mem_cons, List.not_mem_nil, or_false] at member
    rcases member with rfl | rfl | rfl | rfl
    · decide
    · decide
    · exact hexValue_graphic x (by simp [high_eq])
    · exact hexValue_graphic x (by simp [low_eq])

theorem iwRest_bytes (digits : ∀ c, HexDigits c (hex c)) (ssid : Bytes) :
    ∀ x ∈ iwRest hex ssid, x = 0x20 ∨ graphic x = true := by
  induction ssid with
  | nil => exact fun x member => absurd member List.not_mem_nil
  | cons c rest ih =>
      intro x member
      cases rest with
      | nil => exact .inr ((edgeByte_graphic hex c (digits c)).2 x member)
      | cons d rest =>
          rw [iwRest] at member
          rcases List.mem_append.mp member with first | later
          · rw [innerByte] at first
            split_ifs at first with space
            · exact .inl ((List.mem_singleton.mp first).trans space)
            · exact .inr ((edgeByte_graphic hex c (digits c)).2 x first)
          · exact ih x later

theorem iwRest_last (digits : ∀ c, HexDigits c (hex c)) (ssid : Bytes) (ne : ssid ≠ []) :
    ∃ before x, iwRest hex ssid = before ++ [x] ∧ graphic x = true := by
  induction ssid with
  | nil => exact absurd rfl ne
  | cons c rest ih =>
      cases rest with
      | nil =>
          obtain ⟨some_byte, shown⟩ := edgeByte_graphic hex c (digits c)
          obtain empty | ⟨before, x, split⟩ := List.eq_nil_or_concat (edgeByte hex c)
          · exact absurd empty some_byte
          · rw [List.concat_eq_append] at split
            exact ⟨before, x, split, shown x (by rw [split]; simp)⟩
      | cons d rest =>
          obtain ⟨before, x, split, shown⟩ := ih (List.cons_ne_nil d rest)
          exact ⟨innerByte hex c ++ before, x, by rw [iwRest, split, List.append_assoc], shown⟩

/-- What is printed begins and ends with a graphic character and has no line break. -/
theorem iwSsid_edges (digits : ∀ c, HexDigits c (hex c)) (ssid : Bytes) (ne : ssid ≠ []) :
    (∃ x after, iwSsid hex ssid = x :: after ∧ graphic x = true) ∧
      (∃ before x, iwSsid hex ssid = before ++ [x] ∧ graphic x = true) ∧
      newline ∉ iwSsid hex ssid := by
  obtain ⟨c, rest, rfl⟩ := List.exists_cons_of_ne_nil ne
  obtain ⟨some_byte, shown⟩ := edgeByte_graphic hex c (digits c)
  refine ⟨?_, ?_, ?_⟩
  · obtain ⟨x, after, split⟩ := List.exists_cons_of_ne_nil some_byte
    exact ⟨x, after ++ iwRest hex rest, by rw [iwSsid, split, List.cons_append],
      shown x (by rw [split]; exact List.mem_cons_self)⟩
  · cases rest with
    | nil =>
        obtain ⟨before, x, split, last⟩ := iwRest_last hex digits [c] (List.cons_ne_nil c [])
        exact ⟨before, x, by rw [← split, iwSsid, iwRest, iwRest, List.append_nil], last⟩
    | cons d rest =>
        obtain ⟨before, x, split, last⟩ := iwRest_last hex digits (d :: rest) (List.cons_ne_nil d rest)
        exact ⟨edgeByte hex c ++ before, x, by rw [iwSsid, split, List.append_assoc], last⟩
  · have plain : ¬ (newline = 0x20 ∨ graphic newline = true) := by decide
    intro member
    rcases List.mem_append.mp member with first | later
    · exact plain (.inr (shown newline first))
    · exact plain (iwRest_bytes hex digits rest newline later)

theorem graphic_kept : ∀ c, graphic c = true →
    blank c = false ∧ blankOrEol c = false ∧ isspace c = false := by
  decide +kernel

theorem lstrip_graphic (backend : Backend) (x : UInt8) (after : Bytes) (shown : graphic x = true) :
    lstrip backend (0x20 :: x :: after) = x :: after := by
  obtain ⟨tight, -, tight'⟩ := graphic_kept x shown
  cases backend with
  | rk3566 => exact stripLeft_cons_of_not blank x after tight
  | a733 => exact stripLeft_cons_of_not isspace x after tight'

theorem rstrip_graphic (backend : Backend) (before : Bytes) (x : UInt8) (shown : graphic x = true) :
    rstrip backend (before ++ [x]) = before ++ [x] := by
  obtain ⟨-, tight, tight'⟩ := graphic_kept x shown
  cases backend with
  | rk3566 => exact stripRight_concat_of_not blankOrEol before x tight
  | a733 => exact stripRight_concat_of_not isspace before x tight'

def iwLine (ssid : Bytes) : Bytes := ascii "\tSSID: " ++ iwSsid hex ssid

theorem lstrip_iwLine (backend : Backend) (ssid : Bytes) :
    lstrip backend (iwLine hex ssid) = ascii "SSID:" ++ 0x20 :: iwSsid hex ssid := by
  cases backend <;> rfl

/-- A name of 1 to 32 bytes is read back from the line that `iw` prints for it. -/
theorem blockLine_iwLine (backend : Backend) (strtod : Bytes → Int)
    (digits : ∀ c, HexDigits c (hex c)) (ssid : Bytes) (ne : ssid ≠ []) (le : ssid.length ≤ 32)
    (b : BssParse) :
    textLines (iwLine hex ssid ++ [newline]) = [iwLine hex ssid] ∧ ¬ isBss (iwLine hex ssid) ∧
      (blockLine backend strtod b (iwLine hex ssid)).ssid = ssid ∧
      (blockLine backend strtod b (iwLine hex ssid)).haveSsid = true ∧
      ∀ e, (blockLine backend strtod b (iwLine hex ssid)).entry = some e →
        e.ssidBytes = ssid ∧ e.ssidLen.toNat = ssid.length := by
  obtain ⟨⟨x, after, first, shown⟩, ⟨before, y, last, shown'⟩, oneLine⟩ :=
    iwSsid_edges hex digits ssid ne
  have begins : ascii "SSID:" <+: lstrip backend (iwLine hex ssid) := by
    rw [lstrip_iwLine]
    exact List.prefix_append _ _
  have rest : (lstrip backend (iwLine hex ssid)).drop 5 = 0x20 :: iwSsid hex ssid := by
    rw [lstrip_iwLine]
    rfl
  have name : rstrip backend (lstrip backend ((lstrip backend (iwLine hex ssid)).drop 5)) =
      iwSsid hex ssid := by
    rw [rest, first, lstrip_graphic backend x after shown, ← first, last,
      rstrip_graphic backend before y shown']
  have field := parseField_ssid backend strtod b _ begins
  have decoded : (blockLine backend strtod b (iwLine hex ssid)).ssid = ssid := by
    rw [blockLine, field]
    simp only [parseSuites, name]
    exact decodeIwSsid_iwSsid hex digits ssid wifiScanSsidMax le
  refine ⟨?_, ?_, decoded, ?_, fun e made => ?_⟩
  · have line_free : newline ∉ iwLine hex ssid := by
      have head : newline ∉ ascii "\tSSID: " := by decide
      simp [iwLine, head, oneLine]
    rw [textLines_append_newline, textLines_nil, List.append_nil,
      textLines_of_oneLine _ line_free (by simp [iwLine, ascii])]
  · rintro ⟨more, same⟩
    cases same
  · rw [blockLine, field]
    rfl
  · obtain ⟨band, entry⟩ := entry_eq_some made
    rw [entry.ssidBytes, entry.ssidLen, decoded]
    exact ⟨rfl, rfl⟩

end Printing

theorem hexValue_hexDigit : ∀ n < 16, hexValue (LogText.hexDigit n) = some n := by
  decide

theorem hexDigits_hexByte (c : UInt8) : HexDigits c (LogText.hexByte c) := by
  have small := c.toNat_lt
  exact ⟨_, _, rfl, hexValue_hexDigit _ (by omega), hexValue_hexDigit _ (by omega)⟩

/-- A name that ends in a space and has a backslash and bytes outside ASCII. -/
theorem blockLine_iwLine_escapes :
    iwLine LogText.hexByte [0x63, 0x20, 0xC3, 0xA9, 0x5C, 0x20] =
        ascii "\tSSID: c \\xc3\\xa9\\x5c\\x20" ∧
      (blockLine .a733 (fun _ => 0) .zero
        (iwLine LogText.hexByte [0x63, 0x20, 0xC3, 0xA9, 0x5C, 0x20])).ssid =
          [0x63, 0x20, 0xC3, 0xA9, 0x5C, 0x20] :=
  ⟨by decide +kernel, (blockLine_iwLine LogText.hexByte .a733 (fun _ => 0) hexDigits_hexByte
    [0x63, 0x20, 0xC3, 0xA9, 0x5C, 0x20] (by decide) (by decide) .zero).2.2.1⟩

end WfyApp.ScanBlocks
