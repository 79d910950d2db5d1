import WfyApp.ConfRewrites
import WfyApp.IwScan

/-! From the scan to the configuration of a join (`try_sta_only`, steps 3 and 4): the
frequency that `scan_target_band` settles on, which access points it misses, and whether
the list that `write_wpa_config` writes for the stored band has that frequency. -/

namespace WfyApp.JoinBand
open ByteText HomeWifi WpaConfig FileFaults ConfigUpdates ConfRewrites IwScan

def hitFreq (s : TargetScan) : Option Nat :=
  if s.hit5 ≠ 0 then some s.hit5 else if s.hit24 ≠ 0 then some s.hit24 else none

def captureFreq (ssid : Bytes) (c : Capture) : Option Nat :=
  if c.rc ≠ 0 ∨ ¬ ascii "BSS " <:+: c.text.bytes then none
  else hitFreq ((textLines c.text.bytes).foldl (targetLine ssid) ⟨0, 0, 0⟩)

/-- The frequency that `scan_target_band` settles on, in the first capture that has one. -/
def chosenFreq (ssid : Bytes) (captures : Nat → Capture) : Option Nat :=
  ((List.range maxAttempts).map captures).findSome? (captureFreq (cstr ssid))

theorem hitFreq_eq_preferred (s : TargetScan) (freqs : List Nat)
    (hit24 : s.hit24 = firstHit 0 (fun freq => In24 freq) freqs)
    (hit5 : s.hit5 = firstHit 0 (fun freq => In5 freq) freqs) : hitFreq s = preferred freqs := by
  simp only [hitFreq, hit24, hit5, firstHit, ne_eq, not_true_eq_false, if_false, preferred]
  cases high : freqs.find? (fun freq => In5 freq) with
  | some freq =>
      have inside : In5 freq := by simpa using List.find?_some high
      have pos : freq ≠ 0 := fun zero => not_in5_zero (zero ▸ inside)
      simp [pos]
  | none =>
      cases low : freqs.find? (fun freq => In24 freq) with
      | some freq =>
          have inside : In24 freq := by simpa using List.find?_some low
          have pos : freq ≠ 0 := fun zero => not_in24_zero (zero ▸ inside)
          simp [pos]
      | none => simp

theorem result_missed_iff (s : TargetScan) : s.result = .missed ↔ hitFreq s = none := by
  rw [TargetScan.result, hitFreq]
  by_cases high : s.hit5 = 0
  · by_cases low : s.hit24 = 0
    · simp [high, low]
    · simp only [high, low, ne_eq, not_true_eq_false, not_false_eq_true, or_true, if_true, if_false]
      cases freqToChannel s.hit24 .band2g <;> simp
  · simp only [high, ne_eq, not_false_eq_true, true_or, if_true]
    cases freqToChannel s.hit5 .band5g <;> simp

theorem result_ne_unusable (s : TargetScan) : s.result ≠ .unusable := by
  simp only [TargetScan.result]
  split
  · split <;> simp
  · simp

theorem scanAttempt_place (ssid : Bytes) (c : Capture) :
    (scanAttempt ssid c).place = (captureFreq ssid c).bind placed ∧
      (scanAttempt ssid c = .missed ∨ scanAttempt ssid c = .unusable ↔ captureFreq ssid c = none) := by
  obtain ⟨hit24, hit5⟩ := foldl_targetLine ssid (textLines c.text.bytes) ⟨0, 0, 0⟩
  rw [scanAttempt, captureFreq]
  split_ifs with bad
  · exact ⟨rfl, iff_of_true (.inr rfl) rfl⟩
  · refine ⟨?_, ?_⟩
    · rw [result_place _ _ hit24 hit5, hitFreq_eq_preferred _ _ hit24 hit5]
    · rw [or_iff_left (result_ne_unusable _), result_missed_iff]

theorem scanLoop_eq (ssid : Bytes) (captures : List Capture) :
    scanLoop ssid captures = (captures.findSome? (captureFreq ssid)).bind placed := by
  induction captures with
  | nil => rfl
  | cons c captures ih =>
      obtain ⟨place, ends⟩ := scanAttempt_place ssid c
      rw [scanLoop, List.findSome?_cons]
      cases settled : captureFreq ssid c with
      | none =>
          rcases ends.mpr settled with missed | unusable
          · rw [missed]
            exact ih
          · rw [unusable]
            exact ih
      | some freq =>
          rw [settled, Option.bind_some] at place
          have goes_on := mt ends.mp (by rw [settled]; simp)
          cases attempt : scanAttempt ssid c with
          | unusable => exact absurd (.inr attempt) goes_on
          | missed => exact absurd (.inl attempt) goes_on
          | refused =>
              rw [attempt] at place
              exact place
          | found band channel =>
              rw [attempt] at place
              exact place

/-- `scan_target_band` returns the place of the frequency it settles on. -/
theorem scanTargetBand_eq (ssid : Bytes) (captures : Nat → Capture) :
    scanTargetBand ssid captures = (chosenFreq ssid captures).bind placed :=
  scanLoop_eq (cstr ssid) _

section Config

def freqKey : Bytes := ascii "freq_list="

def configFreqs (file : Bytes) : List Nat :=
  match (((textLines file).map trimLine).filter fun line => freqKey.isPrefixOf line).getLast? with
  | none => []
  | some line => ((line.drop freqKey.length).splitOn 0x20).map strtoul

def listedFreqs : Band → List Nat
  | .band5g => [5180, 5200, 5220, 5240, 5745, 5765, 5785, 5805, 5825]
  | .band2g => [2412, 2417, 2422, 2427, 2432, 2437, 2442, 2447, 2452, 2457, 2462]

theorem filled_eq (texts args : List Bytes) (text arg tail : Bytes)
    (lengths : texts.length = args.length) :
    ∃ before, filled (texts ++ [text]) (args ++ [arg]) tail = before ++ (text ++ (arg ++ tail)) := by
  induction texts generalizing args with
  | nil =>
      cases args with
      | nil => exact ⟨[], rfl⟩
      | cons arg args => cases lengths
  | cons first texts ih =>
      cases args with
      | nil => cases lengths
      | cons value args =>
          obtain ⟨before, shape⟩ := ih args (Nat.succ.inj lengths)
          exact ⟨first ++ (value ++ before), by
            rw [List.cons_append, List.cons_append, filled, shape]
            simp only [List.append_assoc]⟩

theorem templateFreq_ends (keyMgmt : Bytes) :
    ∃ before, templateFreq keyMgmt = before ++ newline :: (indent ++ freqKey) :=
  ⟨[doubleQuote, newline] ++ indent ++ keyMgmt ++ newline :: indent ++ scanSetting, by
    simp [templateFreq, freqKey]⟩

theorem writeWpaConfig_ends (band : Band) (ssid password file : Bytes)
    (wrote : writeWpaConfig band true ssid password = some file) :
    ∃ before, file = before ++ newline :: (indent ++ freqSetting band ++ templateTail) := by
  have ends : ∀ keyMgmt before, ∃ start,
      before ++ (templateFreq keyMgmt ++ (freqList band ++ templateTail)) =
        start ++ newline :: (indent ++ freqSetting band ++ templateTail) := by
    intro keyMgmt before
    obtain ⟨start, shape⟩ := templateFreq_ends keyMgmt
    exact ⟨before ++ start, by simp [shape, freqSetting, freqKey]⟩
  have kept : ∀ text, (if (snprintf 1024 text).length ≥ 1024 then none
      else if true then some (snprintf 1024 text).text else none) = some file → file = text := by
    intro text printed
    split_ifs at printed with long
    rw [← snprintf_text 1024 text (Nat.lt_of_not_le long)]
    exact (Option.some.inj printed).symm
  rw [writeWpaConfig] at wrote
  by_cases empty : password = []
  · simp only [if_pos empty] at wrote
    have plain : ∀ text ∈ [templateHead, templateFreq openSetting], 0x25 ∉ text := by
      intro text member
      refine templates_plain.1 text ?_
      simp only [List.mem_cons, List.not_mem_nil, or_false] at member ⊢
      exact member.imp_right fun same => .inr (.inl same)
    rw [kept _ wrote, openTemplate_eq, format_template _ _ _ (by rfl) plain templates_plain.2]
    obtain ⟨before, shape⟩ := filled_eq [templateHead] [escapeQuotes 256 ssid]
      (templateFreq openSetting) (freqList band) templateTail rfl
    obtain ⟨start, whole⟩ := ends openSetting before
    exact ⟨start, shape.trans whole⟩
  · simp only [if_neg empty] at wrote
    have plain : ∀ text ∈ [templateHead, templateKey, templateFreq securedSetting],
        0x25 ∉ text := by
      intro text member
      refine templates_plain.1 text ?_
      simp only [List.mem_cons, List.not_mem_nil, or_false] at member ⊢
      exact member.imp_right (Or.imp_right fun same => .inr same)
    rw [kept _ wrote, pskTemplate_eq, format_template _ _ _ (by rfl) plain templates_plain.2]
    obtain ⟨before, shape⟩ := filled_eq [templateHead, templateKey]
      [escapeQuotes 256 ssid, escapeQuotes 256 password] (templateFreq securedSetting)
      (freqList band) templateTail rfl
    obtain ⟨start, whole⟩ := ends securedSetting before
    exact ⟨start, shape.trans whole⟩

theorem freqSetting_plain (band : Band) :
    newline ∉ indent ++ freqSetting band ∧ indent ++ freqSetting band ≠ [] ∧
      trimLine (indent ++ freqSetting band) = freqSetting band ∧
      freqKey.isPrefixOf (freqSetting band) = true ∧
      (((freqSetting band).drop freqKey.length).splitOn 0x20).map strtoul = listedFreqs band := by
  cases band <;> decide +kernel

theorem configFreqs_written (band : Band) (ssid password file : Bytes)
    (wrote : writeWpaConfig band true ssid password = some file) :
    configFreqs file = listedFreqs band := by
  obtain ⟨before, rfl⟩ := writeWpaConfig_ends band ssid password file wrote
  obtain ⟨oneLine, ne, trimmed, key, freqs⟩ := freqSetting_plain band
  have tail : textLines (indent ++ freqSetting band ++ templateTail) =
      [indent ++ freqSetting band, networkClose] := textLines_cons _ _ oneLine ne
  have other : freqKey.isPrefixOf (trimLine networkClose) = false := by decide
  rw [configFreqs, textLines_append_newline, tail, List.map_append, List.filter_append]
  simp only [List.map_cons, List.map_nil, List.filter_cons, List.filter_nil, trimmed, key, other,
    if_true, Bool.false_eq_true, if_false, List.getLast?_concat, freqs]

/-- The accepted frequencies that are in the list of their band. -/
def Listed : Band → Nat → Prop
  | .band2g, freq => freq ≤ 2462 ∧ freq % 5 = 2
  | .band5g, freq => freq ≤ 5240 ∧ freq % 20 = 0 ∨ 5745 ≤ freq ∧ freq % 20 = 5

theorem placed_bounds {freq : Nat} {band : Band} {channel : Nat}
    (place : placed freq = some (band, channel)) :
    freqToScanBand freq = some band ∧ freqToChannel freq band = some channel := by
  obtain ⟨band', inBand, mapped⟩ := Option.bind_eq_some_iff.mp place
  obtain ⟨channel', onChannel, same⟩ := Option.map_eq_some_iff.mp mapped
  cases same
  exact ⟨inBand, onChannel⟩

theorem mem_listedFreqs_iff {freq : Nat} {band : Band} {channel : Nat}
    (place : placed freq = some (band, channel)) : freq ∈ listedFreqs band ↔ Listed band freq := by
  have accepted := (placed_bounds place).2
  cases band with
  | band2g =>
      simp only [freqToChannel] at accepted
      simp only [listedFreqs, Listed, List.mem_cons, List.not_mem_nil, or_false]
      split_ifs at accepted <;> omega
  | band5g =>
      simp only [freqToChannel] at accepted
      simp only [listedFreqs, Listed, List.mem_cons, List.not_mem_nil, or_false]
      split_ifs at accepted <;> omega

theorem listedFreqs_band {freq : Nat} {band other : Band} {channel : Nat}
    (place : placed freq = some (band, channel)) (listed : freq ∈ listedFreqs other) :
    other = band := by
  have inBand := (placed_bounds place).1
  have all : ∀ band, ∀ f ∈ listedFreqs band, freqToScanBand f = some band := by
    intro band
    cases band <;> decide
  exact Option.some.inj ((all other freq listed).symm.trans inBand)

/-- The configuration that is written after the scan and the update of the stored band has
the frequency of the chosen access point exactly if the stored band sticks and the list of
the band has the frequency. -/
theorem join_allowed_iff (ssid password file : Bytes) (captures : Nat → Capture) (d d' : ConfDisk)
    (f' : Fault) (band : Band) (channel freq : Nat)
    (found : scanTargetBand ssid captures = some (band, channel))
    (chosen : chosenFreq ssid captures = some freq)
    (returned : run (persistBand band) d .none = (d', some (true, f')))
    (wrote : writeWpaConfig (readBand (HomeWifi.readFileAll 2048 (d' (.conf .band)))) true ssid
      password = some file) :
    freq ∈ configFreqs file ↔ Sticks band (seenLines 2048 (d (.conf .band))) ∧ Listed band freq := by
  have place : placed freq = some (band, channel) := by
    rw [scanTargetBand_eq, chosen, Option.bind_some] at found
    exact found
  rw [configFreqs_written _ _ _ _ wrote, ← (persistBand_returned returned).readBand_iff,
    ← mem_listedFreqs_iff place]
  constructor
  · intro listed
    have same := listedFreqs_band place listed
    rw [same] at listed
    exact ⟨same, listed⟩
  · rintro ⟨same, listed⟩
    rw [same]
    exact listed

def scanAt (freq : Bytes) : Bytes :=
  ascii "BSS 02:00:00:00:01:00\n\tfreq: " ++ freq ++ ascii "\n\tSSID: cafe\n"

def channel6Scan : ScanText := ⟨scanAt (ascii "2437"), by decide +kernel, by decide +kernel⟩

def channel13Scan : ScanText := ⟨scanAt (ascii "2472"), by decide +kernel, by decide +kernel⟩

def emptyDisk : ConfDisk := fun _ => none

theorem persistBand_emptyDisk :
    run (persistBand .band2g) emptyDisk .none = (emptyDisk, some (true, .none)) := rfl

theorem scan_channel6 :
    scanTargetBand (ascii "cafe") (fun _ => ⟨0, channel6Scan⟩) = some (.band2g, 6) ∧
      chosenFreq (ascii "cafe") (fun _ => ⟨0, channel6Scan⟩) = some 2437 := by
  decide +kernel

theorem scan_channel13 :
    scanTargetBand (ascii "cafe") (fun _ => ⟨0, channel13Scan⟩) = some (.band2g, 13) ∧
      chosenFreq (ascii "cafe") (fun _ => ⟨0, channel13Scan⟩) = some 2472 := by
  decide +kernel

def cafeConfig : Bytes := wpaBody .band2g (ascii "cafe") []

theorem cafeConfig_written :
    writeWpaConfig .band2g true (ascii "cafe") [] = some cafeConfig :=
  writeWpaConfig_eq .band2g ⟨ascii "cafe", by decide, by decide⟩ ⟨[], by decide, by decide⟩

def fiveDisk : ConfDisk := bandDisk (some (ascii "BAND=5G\n"))

theorem join_allowed_stored :
    scanTargetBand (ascii "cafe") (fun _ => ⟨0, channel6Scan⟩) = some (.band2g, 6) ∧
      (run (persistBand .band2g) fiveDisk .none).1 (.conf .band) = some (ascii "BAND='2.4G'\n") ∧
      2437 ∈ configFreqs cafeConfig := by
  have success : (run (persistBand .band2g) fiveDisk .none).2 = some (true, .none) := by
    decide +kernel
  have stored : (run (persistBand .band2g) fiveDisk .none).1 (.conf .band) =
      some (ascii "BAND='2.4G'\n") := by decide +kernel
  have read : readBand (HomeWifi.readFileAll 2048
      ((run (persistBand .band2g) fiveDisk .none).1 (.conf .band))) = .band2g := by
    rw [stored]
    decide +kernel
  have sticks : Sticks .band2g (seenLines 2048 (fiveDisk (.conf .band))) :=
    .inr ⟨by decide +kernel, .inl rfl⟩
  refine ⟨scan_channel6.1, stored, ?_⟩
  exact (join_allowed_iff (ascii "cafe") [] cafeConfig (fun _ => ⟨0, channel6Scan⟩) fiveDisk
    (run (persistBand .band2g) fiveDisk .none).1 .none .band2g 6 2437 scan_channel6.1 scan_channel6.2
    (Prod.ext rfl success) (by rw [read]; exact cafeConfig_written)).mpr ⟨sticks, by decide, by decide⟩

/-- A network on channel 13 is found, the band is stored, and the list stops at channel 11. -/
theorem join_not_allowed_channel13 :
    scanTargetBand (ascii "cafe") (fun _ => ⟨0, channel13Scan⟩) = some (.band2g, 13) ∧
      chosenFreq (ascii "cafe") (fun _ => ⟨0, channel13Scan⟩) = some 2472 ∧
      run (persistBand .band2g) emptyDisk .none = (emptyDisk, some (true, .none)) ∧
      writeWpaConfig (readBand (HomeWifi.readFileAll 2048 (emptyDisk (.conf .band)))) true
        (ascii "cafe") [] = some cafeConfig ∧
      2472 ∉ configFreqs cafeConfig := by
  refine ⟨scan_channel13.1, scan_channel13.2, persistBand_emptyDisk, cafeConfig_written, ?_⟩
  rw [configFreqs_written _ _ _ _ cafeConfig_written]
  decide

end Config

section Finds
variable (strtod : Bytes → Int) (ssid : Bytes)

def named (b : BssParse) : Bool := b.haveSsid && decide (b.ssid = ssid)

/-- The blocks of the text that are about this network. What precedes the first header is
no block. -/
def namedBlocks (text : ScanText) : List BssParse :=
  (blocksOf .rk3566 strtod text.bytes).tail.filter (named ssid)

def Accepted (freq : Nat) : Prop := (placed freq).isSome = true
deriving Decidable

/-- `scan_target_band` succeeds with the band and channel of one of the blocks, and with a
5 GHz one if there is such a block that it could use. -/
def Finds (text : ScanText) : Prop :=
  ∃ place, scanTargetBand ssid (fun _ => ⟨0, text⟩) = some place ∧
    (∃ b ∈ namedBlocks strtod ssid text, placed b.freq = some place) ∧
    ((∃ b ∈ namedBlocks strtod ssid text, ∃ channel, placed b.freq = some (.band5g, channel)) →
      place.1 = .band5g)

/-- In each block the frequency comes before the name, there is at most one name, and it is
printed as it is if it is the one that is looked for. `begun` says that the lines are in a
block whose name has not come yet. -/
def tidy : Bool → List Bytes → Bool
  | _, [] => true
  | begun, line :: lines =>
      if isBss line then tidy true lines
      else
        let t := lstrip .rk3566 line
        if ascii "freq:" <+: t then begun && tidy begun lines
        else if ascii "SSID:" <+: t then
          begun && (decide (decodeIwSsid ScanPush.wifiScanSsidMax (lineName .rk3566 t) = ssid) ==
            decide (lineName .rk3566 t = ssid)) && tidy false lines
        else tidy begun lines

section Line
variable (b : BssParse) (line : Bytes)

theorem blockLine_freq (begins : ascii "freq:" <+: lstrip .rk3566 line) :
    (blockLine .rk3566 strtod b line).freq = lineFreq .rk3566 (lstrip .rk3566 line) ∧
      (blockLine .rk3566 strtod b line).haveSsid = b.haveSsid ∧
      (blockLine .rk3566 strtod b line).ssid = b.ssid := by
  obtain ⟨rest, split⟩ := begins
  rw [blockLine, ← split]
  exact ⟨rfl, rfl, rfl⟩

theorem blockLine_ssid (begins : ascii "SSID:" <+: lstrip .rk3566 line) :
    (blockLine .rk3566 strtod b line).freq = b.freq ∧
      (blockLine .rk3566 strtod b line).haveSsid = true ∧
      (blockLine .rk3566 strtod b line).ssid =
        decodeIwSsid ScanPush.wifiScanSsidMax (lineName .rk3566 (lstrip .rk3566 line)) := by
  obtain ⟨rest, split⟩ := begins
  rw [blockLine, ← split]
  exact ⟨rfl, rfl, rfl⟩

theorem blockLine_other (places : ¬ ascii "freq:" <+: lstrip .rk3566 line)
    (names : ¬ ascii "SSID:" <+: lstrip .rk3566 line) :
    (blockLine .rk3566 strtod b line).freq = b.freq ∧
      (blockLine .rk3566 strtod b line).haveSsid = b.haveSsid ∧
      (blockLine .rk3566 strtod b line).ssid = b.ssid := by
  simp only [blockLine, parseSuites, parseField, if_neg places, if_neg names]
  split_ifs <;> exact ⟨rfl, rfl, rfl⟩

end Line

def own (b : BssParse) : List Nat := if named ssid b then [b.freq] else []

theorem own_unnamed (b : BssParse) (unnamed : b.haveSsid = false) : own ssid b = [] := by
  rw [own, named, unnamed, Bool.false_and, if_neg Bool.false_ne_true]

theorem own_congr {b c : BssParse} (freq : c.freq = b.freq) (haveSsid : c.haveSsid = b.haveSsid)
    (name : c.ssid = b.ssid) : own ssid c = own ssid b := by
  rw [own, own, named, named, freq, haveSsid, name]

/-- The lines of a tidy text print the name once for each of its blocks; for the block that
is being read, the line may have passed. -/
theorem sightings_tidy (lines : List Bytes) (b : BssParse) (begun : Bool)
    (unnamed : begun = true → b.haveSsid = false) (orderly : tidy ssid begun lines = true) :
    own ssid b ++ sightings ssid (ssidLines b.freq lines) =
      (bssBlocks .rk3566 strtod b lines).flatMap (own ssid) := by
  induction lines generalizing b begun with
  | nil => simp [ssidLines, sightings, bssBlocks]
  | cons line lines ih =>
      rw [tidy] at orderly
      rw [bssBlocks, ssidLines]
      by_cases header : isBss line
      · rw [if_pos header] at orderly
        have rest := ih .zero true (fun _ => rfl) orderly
        rw [own_unnamed ssid .zero rfl, List.nil_append] at rest
        rw [if_pos header, if_pos header, List.flatMap_cons, ← rest]
        rfl
      rw [if_neg header] at orderly
      rw [if_neg header, if_neg header]
      by_cases places : ascii "freq:" <+: lstrip .rk3566 line
      · obtain ⟨freq, haveSsid, -⟩ := blockLine_freq strtod b line places
        simp only [if_pos places, Bool.and_eq_true] at orderly ⊢
        obtain ⟨rfl, orderly⟩ := orderly
        have later := haveSsid.trans (unnamed rfl)
        have rest := ih _ true (fun _ => later) orderly
        rwa [own_unnamed ssid _ later, freq, ← own_unnamed ssid b (unnamed rfl)] at rest
      by_cases names : ascii "SSID:" <+: lstrip .rk3566 line
      · obtain ⟨freq, haveSsid, name⟩ := blockLine_ssid strtod b line names
        simp only [if_neg places, if_pos names, Bool.and_eq_true, beq_iff_eq] at orderly ⊢
        obtain ⟨⟨rfl, verbatim⟩, orderly⟩ := orderly
        have rest := ih (blockLine .rk3566 strtod b line) false (fun closed => by cases closed) orderly
        have first : own ssid (blockLine .rk3566 strtod b line) =
            if lineName .rk3566 (lstrip .rk3566 line) = ssid then [b.freq] else [] := by
          rw [own, named, haveSsid, name, freq, Bool.true_and, verbatim]
          simp only [decide_eq_true_eq]
        rw [first, freq] at rest
        rw [own_unnamed ssid b (unnamed rfl), List.nil_append, sightings_cons, ← rest]
        split_ifs <;> rfl
      · obtain ⟨freq, haveSsid, name⟩ := blockLine_other strtod b line places names
        simp only [if_neg places, if_neg names] at orderly ⊢
        have rest := ih _ begun (fun still => haveSsid.trans (unnamed still)) orderly
        rwa [own_congr ssid freq haveSsid name, freq] at rest

theorem bssBlocks_tidy (lines : List Bytes) (b : BssParse) (unnamed : b.haveSsid = false)
    (orderly : tidy ssid false lines = true) :
    ∃ first rest, bssBlocks .rk3566 strtod b lines = first :: rest ∧ own ssid first = [] := by
  induction lines generalizing b with
  | nil => exact ⟨b, [], rfl, own_unnamed ssid b unnamed⟩
  | cons line lines ih =>
      rw [tidy] at orderly
      rw [bssBlocks]
      by_cases header : isBss line
      · rw [if_pos header]
        exact ⟨b, _, rfl, own_unnamed ssid b unnamed⟩
      rw [if_neg header] at orderly
      rw [if_neg header]
      by_cases places : ascii "freq:" <+: lstrip .rk3566 line
      · simp only [if_pos places, Bool.false_and] at orderly
        cases orderly
      by_cases names : ascii "SSID:" <+: lstrip .rk3566 line
      · simp only [if_neg places, if_pos names, Bool.false_and] at orderly
        cases orderly
      · simp only [if_neg places, if_neg names] at orderly
        exact ih _ ((blockLine_other strtod b line places names).2.1.trans unnamed) orderly

theorem flatMap_own (blocks : List BssParse) :
    blocks.flatMap (own ssid) = (blocks.filter (named ssid)).map BssParse.freq := by
  induction blocks with
  | nil => rfl
  | cons b blocks ih =>
      rw [List.flatMap_cons, ih, own, List.filter_cons]
      split_ifs <;> rfl

theorem sightings_namedBlocks (text : ScanText) (orderly : tidy ssid false (textLines text.bytes) = true) :
    sightings ssid (ssidLinesOf text) = (namedBlocks strtod ssid text).map BssParse.freq := by
  have all := sightings_tidy strtod ssid (textLines text.bytes) .zero false (fun closed => by cases closed)
    orderly
  obtain ⟨first, rest, blocks, unnamed⟩ := bssBlocks_tidy strtod ssid _ .zero rfl orderly
  rw [own_unnamed ssid .zero rfl, List.nil_append, blocks, List.flatMap_cons, unnamed,
    List.nil_append, flatMap_own] at all
  rw [namedBlocks, blocksOf, blocks]
  exact all

theorem usable_of_block (text : ScanText) (b : BssParse)
    (member : b ∈ (blocksOf .rk3566 strtod text.bytes).tail) : Usable text := by
  have header : ∀ lines c, b ∈ (bssBlocks .rk3566 strtod c lines).tail →
      ∃ line ∈ lines, isBss line := by
    intro lines
    induction lines with
    | nil => simp [bssBlocks]
    | cons line lines ih =>
        intro c member
        by_cases header : isBss line
        · exact ⟨line, List.mem_cons_self, header⟩
        · rw [bssBlocks, if_neg header] at member
          obtain ⟨later, inside, found⟩ := ih _ member
          exact ⟨later, List.mem_cons_of_mem line inside, found⟩
  obtain ⟨line, inside, found⟩ := header _ _ member
  exact found.isInfix.trans (infix_of_mem_textLines _ _ inside)

theorem preferred_eq_some {freqs : List Nat} {freq : Nat} (chosen : preferred freqs = some freq) :
    freq ∈ freqs ∧ ((∃ f ∈ freqs, In5 f) → In5 freq) := by
  rw [preferred] at chosen
  cases high : freqs.find? (fun freq => In5 freq) with
  | some f =>
      rw [high, Option.some_or] at chosen
      cases chosen
      exact ⟨List.mem_of_find?_eq_some high, fun _ => by simpa using List.find?_some high⟩
  | none =>
      rw [high, Option.none_or] at chosen
      refine ⟨List.mem_of_find?_eq_some chosen, ?_⟩
      rintro ⟨f, member, inside⟩
      exact absurd inside (by simpa using List.find?_eq_none.mp high f member)

theorem in5_of_placed {freq channel : Nat} (place : placed freq = some (.band5g, channel)) :
    In5 freq := by
  have inBand := (placed_bounds place).1
  by_contra outside
  rw [freqToScanBand, if_neg outside] at inBand
  split_ifs at inBand
  cases inBand

/-- If a scan has a block of a printable name at an accepted frequency, the network is found
exactly if the preferred one of the lines that print the name leads to such a block. In a
tidy text that is: the first block of that name in the 5 GHz band is at an accepted
frequency, or there is none in that band and the first in the 2.4 GHz band is. -/
theorem scanTargetBand_finds_usable_iff (text : ScanText) (printable : ∀ c ∈ ssid, 0x20 ≤ c ∧ c ≤ 0x7E)
    (there : ∃ b ∈ namedBlocks strtod ssid text, Accepted b.freq) :
    (Finds strtod ssid text ↔
      ∃ freq place, preferred (sightings ssid (ssidLinesOf text)) = some freq ∧
        placed freq = some place ∧
        (∃ b ∈ namedBlocks strtod ssid text, placed b.freq = some place) ∧
        ((∃ b ∈ namedBlocks strtod ssid text, ∃ channel, placed b.freq = some (.band5g, channel)) →
          place.1 = .band5g)) ∧
    (tidy ssid false (textLines text.bytes) = true →
      (Finds strtod ssid text ↔
        ∃ freq, preferred ((namedBlocks strtod ssid text).map BssParse.freq) = some freq ∧
          Accepted freq)) := by
  have nulFree : 0 ∉ ssid := fun zero => absurd (printable 0 zero).1 (by decide)
  obtain ⟨b, member, -⟩ := there
  have usable := usable_of_block strtod text b (List.mem_of_mem_filter member)
  have general : Finds strtod ssid text ↔
      ∃ freq place, preferred (sightings ssid (ssidLinesOf text)) = some freq ∧
        placed freq = some place ∧
        (∃ b ∈ namedBlocks strtod ssid text, placed b.freq = some place) ∧
        ((∃ b ∈ namedBlocks strtod ssid text, ∃ channel, placed b.freq = some (.band5g, channel)) →
          place.1 = .band5g) := by
    simp only [Finds, scanTargetBand_eq_some_iff ssid text nulFree, usable, true_and]
    constructor
    · rintro ⟨place, ⟨freq, chosen, there⟩, rest⟩
      exact ⟨freq, place, chosen, there, rest⟩
    · rintro ⟨freq, place, chosen, there, rest⟩
      exact ⟨place, ⟨freq, chosen, there⟩, rest⟩
  refine ⟨general, fun orderly => ?_⟩
  rw [general, sightings_namedBlocks strtod ssid text orderly]
  constructor
  · rintro ⟨freq, place, chosen, there, -⟩
    exact ⟨freq, chosen, by rw [Accepted, there, Option.isSome_some]⟩
  · rintro ⟨freq, chosen, accepted⟩
    obtain ⟨place, there⟩ := Option.isSome_iff_exists.mp accepted
    obtain ⟨inside, high⟩ := preferred_eq_some chosen
    obtain ⟨c, of_blocks, rfl⟩ := List.mem_map.mp inside
    refine ⟨c.freq, place, chosen, there, ⟨c, of_blocks, there⟩, ?_⟩
    rintro ⟨c', of_blocks', channel, there'⟩
    have in5 := high ⟨c'.freq, List.mem_map_of_mem of_blocks', in5_of_placed there'⟩
    have inBand : freqToScanBand c.freq = some place.1 := (placed_bounds there).1
    rw [freqToScanBand_of_in5 in5] at inBand
    exact (Option.some.inj inBand).symm

end Finds

def twoScan (first second : Bytes) : Bytes := scanAt first ++ scanAt second

def bothBands : ScanText := ⟨twoScan (ascii "2412") (ascii "5180"), by decide +kernel, by decide +kernel⟩

def radarFirst : ScanText := ⟨twoScan (ascii "5260") (ascii "5180"), by decide +kernel, by decide +kernel⟩

def radarBeside : ScanText := ⟨twoScan (ascii "2412") (ascii "5260"), by decide +kernel, by decide +kernel⟩

theorem scanTargetBand_finds_usable_both :
    tidy (ascii "cafe") false (textLines bothBands.bytes) = true ∧
      Finds (fun _ => 0) (ascii "cafe") bothBands := by
  have blocks : (namedBlocks (fun _ => 0) (ascii "cafe") bothBands).map BssParse.freq =
      [2412, 5180] := by decide +kernel
  have there : ∃ b ∈ namedBlocks (fun _ => 0) (ascii "cafe") bothBands, Accepted b.freq := by
    have inside : 2412 ∈ (namedBlocks (fun _ => 0) (ascii "cafe") bothBands).map BssParse.freq := by
      rw [blocks]
      exact List.mem_cons_self
    obtain ⟨b, member, freq⟩ := List.mem_map.mp inside
    exact ⟨b, member, by rw [freq]; decide⟩
  have orderly : tidy (ascii "cafe") false (textLines bothBands.bytes) = true := by decide +kernel
  have finds := (scanTargetBand_finds_usable_iff (fun _ => 0) (ascii "cafe") bothBands
    (by decide +kernel) there).2 orderly
  refine ⟨orderly, finds.mpr ⟨5180, ?_, by decide⟩⟩
  rw [blocks]
  decide

/-- A network with a 5 GHz access point on a DFS channel is not found, though it has another
one on channel 36, or one in the 2.4 GHz band on channel 1. -/
theorem scanTargetBand_misses_usable :
    (namedBlocks (fun _ => 0) (ascii "cafe") radarFirst).map BssParse.freq = [5260, 5180] ∧
      placed 5180 = some (.band5g, 36) ∧
      scanTargetBand (ascii "cafe") (fun _ => ⟨0, radarFirst⟩) = none ∧
      (namedBlocks (fun _ => 0) (ascii "cafe") radarBeside).map BssParse.freq = [2412, 5260] ∧
      placed 2412 = some (.band2g, 1) ∧
      scanTargetBand (ascii "cafe") (fun _ => ⟨0, radarBeside⟩) = none := by
  decide +kernel

end WfyApp.JoinBand
