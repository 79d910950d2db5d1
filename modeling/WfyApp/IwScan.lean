import WfyApp.HomeWifi
import WfyApp.ScanPush
import WfyApp.WpaConfig

/-! The two readers of `iw scan` output (wifi_switch.c): `parse_iw_scan`, which makes the
list for the phone, and `scan_target_band`, which looks up the network to join. Both
backends have the first one, with other characters that `lstrip` and `rstrip` remove. The
conversion of a signal strength, `(int)strtod(..)`, is a parameter. -/

namespace WfyApp.IwScan
open ByteText HomeWifi ScanPush WpaConfig

abbrev ScanText := CString (256 * 1024)

def strtoulMax : Nat := 2 ^ 64 - 1

/-- `strtoul(s, NULL, 10)` with 64-bit `unsigned long`. -/
def strtoul (s : Bytes) : Nat :=
  let t := stripLeft isspace s
  let digits := if t.head? = some 0x2B ∨ t.head? = some 0x2D then t.drop 1 else t
  let value := (digits.takeWhile isDigit).foldl (fun n c => 10 * n + (c.toNat - 0x30)) 0
  if value > strtoulMax then strtoulMax
  else if t.head? = some 0x2D then (2 ^ 64 - value) % 2 ^ 64 else value

def freqToChannel (freq : Nat) : Band → Option Nat
  | .band2g =>
      if 2412 ≤ freq ∧ freq ≤ 2472 then some ((freq - 2407) / 5)
      else if freq = 2484 then some 14 else none
  | .band5g =>
      if 5180 ≤ freq ∧ freq ≤ 5240 then some ((freq - 5000) / 5)
      else if 5745 ≤ freq ∧ freq ≤ 5825 then some ((freq - 5000) / 5) else none

def In24 (freq : Nat) : Prop := 2400 ≤ freq ∧ freq < 2500
deriving Decidable

def In5 (freq : Nat) : Prop := 5000 ≤ freq ∧ freq < 6000
deriving Decidable

def freqToScanBand (freq : Nat) : Option Band :=
  if In24 freq then some .band2g else if In5 freq then some .band5g else none

def bandByte : Band → UInt8
  | .band2g => 0
  | .band5g => 1

structure BssParse where
  ssid : Bytes
  rssi : Int
  freq : Nat
  haveSignal : Bool
  haveFreq : Bool
  haveSsid : Bool
  hasPrivacy : Bool
  hasRsn : Bool
  hasWpa : Bool
  hasSae : Bool
  hasPsk : Bool
  hasEap : Bool
  ssid_length_le : ssid.length ≤ wifiScanSsidMax
deriving DecidableEq

def BssParse.zero : BssParse where
  ssid := []
  rssi := 0
  freq := 0
  haveSignal := false
  haveFreq := false
  haveSsid := false
  hasPrivacy := false
  hasRsn := false
  hasWpa := false
  hasSae := false
  hasPsk := false
  hasEap := false
  ssid_length_le := Nat.zero_le _

def deriveAuthType (b : BssParse) : UInt8 :=
  if b.hasSae && !b.hasPsk then 4
  else if b.hasEap then 5
  else if b.hasRsn && (b.hasPsk || b.hasSae) then 3
  else if b.hasWpa && b.hasPsk then 2
  else if b.hasPrivacy then 1
  else 0

def hexValue (c : UInt8) : Option Nat :=
  if 0x30 ≤ c ∧ c ≤ 0x39 then some (c.toNat - 0x30)
  else if 0x61 ≤ c ∧ c ≤ 0x66 then some (c.toNat - 0x57)
  else if 0x41 ≤ c ∧ c ≤ 0x46 then some (c.toNat - 0x37)
  else none

/-- The byte that an escape at the front stands for, and what follows the escape. -/
def escaped : Bytes → Option (UInt8 × Bytes)
  | slash :: x :: high :: low :: rest =>
      if slash = 0x5C ∧ x = 0x78 then
        match hexValue high, hexValue low with
        | some h, some l => some (UInt8.ofNat (16 * h + l), rest)
        | _, _ => none
      else none
  | _ => none

def decodeIwSsid : Nat → Bytes → Bytes
  | 0, _ => []
  | _ + 1, [] => []
  | room + 1, c :: src =>
      match escaped (c :: src) with
      | some (byte, rest) => byte :: decodeIwSsid room rest
      | none => c :: decodeIwSsid room src

theorem decodeIwSsid_length_le (room : Nat) (src : Bytes) :
    (decodeIwSsid room src).length ≤ room := by
  induction room generalizing src with
  | zero => simp [decodeIwSsid]
  | succ room ih =>
      cases src with
      | nil => simp [decodeIwSsid]
      | cons c src =>
          rw [decodeIwSsid]
          split
          · exact Nat.succ_le_succ (ih _)
          · exact Nat.succ_le_succ (ih _)

def paddedSsid (ssid : Bytes) (le : ssid.length ≤ wifiScanSsidMax) : Vector UInt8 wifiScanSsidMax :=
  ⟨(ssid ++ List.replicate (wifiScanSsidMax - ssid.length) 0).toArray, by
    rw [List.size_toArray, List.length_append, List.length_replicate]
    omega⟩

/-- The entry that `commit_bss` adds for a block, if it is usable. -/
def BssParse.entry (b : BssParse) : Option WifiScanEntry :=
  if b.haveSsid = false ∨ b.ssid.length = 0 then none
  else if b.haveFreq = false then none
  else
    (freqToScanBand b.freq).map fun band =>
      { ssidLen := UInt8.ofNat b.ssid.length
        ssid := paddedSsid b.ssid b.ssid_length_le
        rssi := Int8.ofInt (if b.haveSignal then b.rssi else -100)
        authType := deriveAuthType b
        band := bandByte band }

def commitBss (b : BssParse) (out : List WifiScanEntry) : List WifiScanEntry :=
  match b.entry with
  | some e => if out.length ≥ maxScanEntries then out else out ++ [e]
  | none => out

def isBss (line : Bytes) : Prop := ascii "BSS " <+: line
deriving Decidable

def lstrip : Backend → Bytes → Bytes
  | .rk3566 => stripLeft blank
  | .a733 => stripLeft isspace

def rstrip : Backend → Bytes → Bytes
  | .rk3566 => stripRight blankOrEol
  | .a733 => stripRight isspace

section Parse
variable (backend : Backend) (strtod : Bytes → Int)

def lineFreq (t : Bytes) : Nat := strtoul (lstrip backend (t.drop 5)) % 2 ^ 32

def lineName (t : Bytes) : Bytes := rstrip backend (lstrip backend (t.drop 5))

def parseField (b : BssParse) (t : Bytes) : BssParse :=
  if ascii "freq:" <+: t then { b with freq := lineFreq backend t, haveFreq := true }
  else if ascii "signal:" <+: t then
    { b with rssi := strtod (lstrip backend (t.drop 7)), haveSignal := true }
  else if ascii "SSID:" <+: t then
    { b with
        ssid := decodeIwSsid wifiScanSsidMax (lineName backend t)
        ssid_length_le := decodeIwSsid_length_le _ _
        haveSsid := true }
  else if ascii "capability:" <+: t then
    if ascii "Privacy" <:+: t.drop 11 then { b with hasPrivacy := true } else b
  else if ascii "RSN:" <+: t then { b with hasRsn := true }
  else if ascii "WPA:" <+: t then { b with hasWpa := true }
  else b

def parseSuites (b : BssParse) (t : Bytes) : BssParse :=
  { b with
      hasSae := b.hasSae || ascii "SAE" <:+: t
      hasPsk := b.hasPsk || ascii "PSK" <:+: t
      hasEap := b.hasEap || ascii "EAP" <:+: t || ascii "802.1X" <:+: t ||
        ascii "Enterprise" <:+: t }

/-- What a line that is no BSS header adds to the record of its block. -/
def blockLine (b : BssParse) (line : Bytes) : BssParse :=
  parseSuites (parseField backend strtod b (lstrip backend line)) (lstrip backend line)

def bssLine (state : BssParse × List WifiScanEntry) (line : Bytes) :
    BssParse × List WifiScanEntry :=
  if isBss line then (.zero, commitBss state.1 state.2)
  else (blockLine backend strtod state.1 line, state.2)

def parseIwScan (buf : Bytes) : List WifiScanEntry :=
  let state := (textLines buf).foldl (bssLine backend strtod) (.zero, [])
  commitBss state.1 state.2

end Parse

structure TargetScan where
  curFreq : Nat
  hit24 : Nat
  hit5 : Nat
deriving DecidableEq

def TargetScan.see (s : TargetScan) : TargetScan :=
  if In24 s.curFreq then if s.hit24 = 0 then { s with hit24 := s.curFreq } else s
  else if In5 s.curFreq then if s.hit5 = 0 then { s with hit5 := s.curFreq } else s
  else s

def targetLine (ssid : Bytes) (s : TargetScan) (line : Bytes) : TargetScan :=
  if isBss line then { s with curFreq := 0 }
  else
    let t := lstrip .rk3566 line
    if ascii "freq:" <+: t then { s with curFreq := lineFreq .rk3566 t }
    else if ascii "SSID:" <+: t then
      if s.curFreq ≠ 0 ∧ lineName .rk3566 t = ssid then s.see else s
    else s

inductive Attempt where
  | unusable
  | missed
  | refused
  | found (band : Band) (channel : Nat)
deriving DecidableEq

structure Capture where
  rc : Int
  text : ScanText

def TargetScan.result (s : TargetScan) : Attempt :=
  if s.hit5 ≠ 0 ∨ s.hit24 ≠ 0 then
    let band := if s.hit5 ≠ 0 then Band.band5g else Band.band2g
    match freqToChannel (if s.hit5 ≠ 0 then s.hit5 else s.hit24) band with
    | some channel => .found band channel
    | none => .refused
  else .missed

def scanAttempt (ssid : Bytes) (c : Capture) : Attempt :=
  if c.rc ≠ 0 ∨ ¬ ascii "BSS " <:+: c.text.bytes then .unusable
  else ((textLines c.text.bytes).foldl (targetLine ssid) ⟨0, 0, 0⟩).result

def Attempt.place : Attempt → Option (Band × Nat)
  | .found band channel => some (band, channel)
  | _ => none

def scanLoop (ssid : Bytes) : List Capture → Option (Band × Nat)
  | [] => none
  | c :: captures =>
      match scanAttempt ssid c with
      | .found band channel => some (band, channel)
      | .refused => none
      | .missed | .unusable => scanLoop ssid captures

def maxAttempts : Nat := 6

def scanTargetBand (ssid : Bytes) (captures : Nat → Capture) : Option (Band × Nat) :=
  scanLoop (cstr ssid) ((List.range maxAttempts).map captures)

/-- The blocks of a scan as `parse_iw_scan` has read them when it commits them. -/
def bssBlocks (backend : Backend) (strtod : Bytes → Int) : BssParse → List Bytes → List BssParse
  | b, [] => [b]
  | b, line :: lines =>
      if isBss line then b :: bssBlocks backend strtod .zero lines
      else bssBlocks backend strtod (blockLine backend strtod b line) lines

def blocksOf (backend : Backend) (strtod : Bytes → Int) (buf : Bytes) : List BssParse :=
  bssBlocks backend strtod .zero (textLines buf)

/-- The SSID lines of a scan: the frequency given before the line in its block, 0 if there
is none, and the name as printed. -/
def ssidLines : Nat → List Bytes → List (Nat × Bytes)
  | _, [] => []
  | freq, line :: lines =>
      if isBss line then ssidLines 0 lines
      else
        let t := lstrip .rk3566 line
        if ascii "freq:" <+: t then ssidLines (lineFreq .rk3566 t) lines
        else if ascii "SSID:" <+: t then (freq, lineName .rk3566 t) :: ssidLines freq lines
        else ssidLines freq lines

def ssidLinesOf (text : ScanText) : List (Nat × Bytes) := ssidLines 0 (textLines text.bytes)

def sightings (name : Bytes) (lines : List (Nat × Bytes)) : List Nat :=
  (lines.filter fun line => line.2 = name).map Prod.fst

/-- The first one in the 5 GHz band, or else the first one in the 2.4 GHz band. -/
def preferred (freqs : List Nat) : Option Nat :=
  (freqs.find? fun freq => In5 freq).or (freqs.find? fun freq => In24 freq)

def Usable (text : ScanText) : Prop := ascii "BSS " <:+: text.bytes
deriving Decidable

theorem commitBss_eq (b : BssParse) (out : List WifiScanEntry) :
    commitBss b (out.take maxScanEntries) = (out ++ b.entry.toList).take maxScanEntries := by
  rw [commitBss]
  cases b.entry with
  | none => rw [Option.toList_none, List.append_nil]
  | some e =>
      simp only [List.length_take, Option.toList_some]
      split_ifs with full
      · rw [List.take_append_of_le_length (by omega)]
      · rw [List.take_of_length_le (by omega),
          List.take_of_length_le (by rw [List.length_append, List.length_singleton]; omega)]

theorem foldl_bssLine (backend : Backend) (strtod : Bytes → Int) (lines : List Bytes) (b : BssParse)
    (out : List WifiScanEntry) :
    commitBss (lines.foldl (bssLine backend strtod) (b, out.take maxScanEntries)).1
        (lines.foldl (bssLine backend strtod) (b, out.take maxScanEntries)).2 =
      (out ++ (bssBlocks backend strtod b lines).filterMap BssParse.entry).take maxScanEntries := by
  induction lines generalizing b out with
  | nil =>
      rw [bssBlocks, List.filterMap_cons, List.filterMap_nil]
      simp only [List.foldl_nil, commitBss_eq]
      cases b.entry <;> rfl
  | cons line lines ih =>
      rw [bssBlocks]
      by_cases header : isBss line
      · rw [if_pos header, List.filterMap_cons]
        simp only [List.foldl_cons, bssLine, if_pos header, commitBss_eq, ih]
        cases b.entry <;> simp
      · rw [if_neg header]
        simp only [List.foldl_cons, bssLine, if_neg header, ih]

/-- The list for the phone has an entry for each usable block, up to its capacity. -/
theorem parseIwScan_eq (backend : Backend) (strtod : Bytes → Int) (buf : Bytes) :
    parseIwScan backend strtod buf =
      ((blocksOf backend strtod buf).filterMap BssParse.entry).take maxScanEntries := by
  have run := foldl_bssLine backend strtod (textLines buf) .zero []
  rwa [List.take_nil, List.nil_append] at run

theorem mem_parseIwScan {backend : Backend} {strtod : Bytes → Int} {buf : Bytes} {e : WifiScanEntry}
    (shown : e ∈ parseIwScan backend strtod buf) :
    ∃ b ∈ blocksOf backend strtod buf, b.entry = some e := by
  rw [parseIwScan_eq] at shown
  exact List.mem_filterMap.mp (List.mem_of_mem_take shown)

/-- What is known of an entry from its block. -/
structure EntryOf (b : BssParse) (e : WifiScanEntry) (band : Band) : Prop where
  ssidBytes : e.ssidBytes = b.ssid
  ssidLen : e.ssidLen.toNat = b.ssid.length
  nonempty : b.ssid ≠ []
  inBand : freqToScanBand b.freq = some band
  bandByte : e.band = bandByte band

theorem paddedSsid_take (ssid : Bytes) (le : ssid.length ≤ wifiScanSsidMax) :
    (paddedSsid ssid le).toList.take ssid.length = ssid := by
  rw [paddedSsid, Vector.toList]
  simp

theorem entry_eq_some {b : BssParse} {e : WifiScanEntry} (made : b.entry = some e) :
    ∃ band, EntryOf b e band := by
  rw [BssParse.entry] at made
  by_cases unnamed : b.haveSsid = false ∨ b.ssid.length = 0
  · rw [if_pos unnamed] at made
    cases made
  by_cases unplaced : b.haveFreq = false
  · rw [if_neg unnamed, if_pos unplaced] at made
    cases made
  rw [if_neg unnamed, if_neg unplaced] at made
  obtain ⟨band, inBand, rfl⟩ := Option.map_eq_some_iff.mp made
  have le := b.ssid_length_le
  have length : (UInt8.ofNat b.ssid.length).toNat = b.ssid.length :=
    UInt8.toNat_ofNat_of_lt' (by simp only [wifiScanSsidMax] at le; simp only [UInt8.size]; omega)
  refine ⟨band, ?_, length, fun empty => unnamed (.inr (by rw [empty]; rfl)), inBand, rfl⟩
  rw [WifiScanEntry.ssidBytes, length, paddedSsid_take]

theorem sightings_cons (name : Bytes) (line : Nat × Bytes) (lines : List (Nat × Bytes)) :
    sightings name (line :: lines) =
      if line.2 = name then line.1 :: sightings name lines else sightings name lines := by
  rw [sightings, List.filter_cons]
  simp only [decide_eq_true_eq]
  split_ifs <;> rfl

def firstHit (hit : Nat) (test : Nat → Bool) (freqs : List Nat) : Nat :=
  if hit ≠ 0 then hit else (freqs.find? test).getD 0

theorem not_in24_zero : ¬ In24 0 := by decide

theorem not_in5_zero : ¬ In5 0 := by decide

theorem not_in24_of_in5 {freq : Nat} (inside : In5 freq) : ¬ In24 freq := by
  simp only [In5, In24] at *
  omega

theorem firstHit_cons (hit : Nat) (test : Nat → Bool) (freq : Nat) (freqs : List Nat)
    (zero : test 0 = false) :
    firstHit hit test (freq :: freqs) =
      firstHit (if hit = 0 ∧ test freq = true then freq else hit) test freqs := by
  by_cases none : hit = 0
  · subst none
    cases passed : test freq with
    | true =>
        have pos : freq ≠ 0 := by
          rintro rfl
          rw [zero] at passed
          cases passed
        simp [firstHit, passed, pos]
    | false => simp [firstHit, passed]
  · simp [firstHit, none]

theorem see_hit24 (s : TargetScan) :
    s.see.hit24 = if s.hit24 = 0 ∧ In24 s.curFreq then s.curFreq else s.hit24 := by
  rw [TargetScan.see]
  split_ifs <;> simp_all

theorem see_hit5 (s : TargetScan) :
    s.see.hit5 = if s.hit5 = 0 ∧ In5 s.curFreq then s.curFreq else s.hit5 := by
  have apart : In5 s.curFreq → ¬ In24 s.curFreq := not_in24_of_in5
  rw [TargetScan.see]
  split_ifs <;> simp_all

theorem see_curFreq (s : TargetScan) : s.see.curFreq = s.curFreq := by
  rw [TargetScan.see]
  split_ifs <;> rfl

theorem see_of_zero (s : TargetScan) (zero : s.curFreq = 0) : s.see = s := by
  rw [TargetScan.see, zero, if_neg not_in24_zero, if_neg not_in5_zero]

/-- The loop of `scan_target_band` keeps the first sighting in each band. -/
theorem foldl_targetLine (ssid : Bytes) (lines : List Bytes) (s : TargetScan) :
    (lines.foldl (targetLine ssid) s).hit24 =
        firstHit s.hit24 (fun freq => In24 freq) (sightings ssid (ssidLines s.curFreq lines)) ∧
      (lines.foldl (targetLine ssid) s).hit5 =
        firstHit s.hit5 (fun freq => In5 freq) (sightings ssid (ssidLines s.curFreq lines)) := by
  induction lines generalizing s with
  | nil => simp [ssidLines, sightings, firstHit]
  | cons line lines ih =>
      rw [List.foldl_cons, ssidLines]
      by_cases header : isBss line
      · rw [if_pos header, targetLine, if_pos header]
        exact ih _
      rw [if_neg header, targetLine, if_neg header]
      by_cases places : ascii "freq:" <+: lstrip .rk3566 line
      · simp only [if_pos places]
        exact ih _
      by_cases names : ascii "SSID:" <+: lstrip .rk3566 line
      · simp only [if_neg places, if_pos names]
        rw [sightings_cons]
        by_cases same : lineName .rk3566 (lstrip .rk3566 line) = ssid
        · have seen : (if s.curFreq ≠ 0 ∧ lineName .rk3566 (lstrip .rk3566 line) = ssid then s.see else s) =
              s.see := by
            by_cases zero : s.curFreq = 0
            · rw [if_neg fun both => both.1 zero, see_of_zero s zero]
            · rw [if_pos ⟨zero, same⟩]
          rw [if_pos same, seen, firstHit_cons _ _ _ _ (by decide), firstHit_cons _ _ _ _ (by decide)]
          have rest := ih s.see
          rw [see_hit24, see_hit5, see_curFreq] at rest
          simpa using rest
        · rw [if_neg same, if_neg fun both => same both.2]
          exact ih s
      · simp only [if_neg places, if_neg names]
        exact ih s

theorem scanLoop_same (ssid : Bytes) (c : Capture) (attempts : Nat) :
    scanLoop ssid (List.replicate (attempts + 1) c) = (scanAttempt ssid c).place := by
  induction attempts with
  | zero =>
      rw [List.replicate_one, scanLoop]
      cases scanAttempt ssid c <;> rfl
  | succ attempts ih =>
      rw [List.replicate_succ, scanLoop, ih]
      cases scanAttempt ssid c <;> rfl

theorem freqToScanBand_of_in24 {freq : Nat} (inside : In24 freq) :
    freqToScanBand freq = some .band2g := if_pos inside

theorem freqToScanBand_of_in5 {freq : Nat} (inside : In5 freq) :
    freqToScanBand freq = some .band5g := by
  rw [freqToScanBand, if_neg (not_in24_of_in5 inside), if_pos inside]

def placed (freq : Nat) : Option (Band × Nat) :=
  (freqToScanBand freq).bind fun band => (freqToChannel freq band).map (band, ·)

theorem result_place (s : TargetScan) (freqs : List Nat)
    (hit24 : s.hit24 = firstHit 0 (fun freq => In24 freq) freqs)
    (hit5 : s.hit5 = firstHit 0 (fun freq => In5 freq) freqs) :
    s.result.place = (preferred freqs).bind placed := by
  simp only [TargetScan.result, hit24, hit5, firstHit, ne_eq, not_true_eq_false, if_false, preferred]
  cases high : freqs.find? (fun freq => In5 freq) with
  | some freq =>
      have inside : In5 freq := by simpa using List.find?_some high
      have pos : freq ≠ 0 := fun zero => not_in5_zero (zero ▸ inside)
      simp only [Option.getD_some, pos, not_false_eq_true, true_or, if_true, Option.some_or,
        Option.bind_some, placed, freqToScanBand_of_in5 inside]
      cases freqToChannel freq .band5g <;> rfl
  | none =>
      cases low : freqs.find? (fun freq => In24 freq) with
      | some freq =>
          have inside : In24 freq := by simpa using List.find?_some low
          have pos : freq ≠ 0 := fun zero => not_in24_zero (zero ▸ inside)
          simp only [Option.getD_none, Option.getD_some, pos, not_true_eq_false, not_false_eq_true,
            or_true, if_true, if_false, Option.none_or, Option.bind_some, placed,
            freqToScanBand_of_in24 inside]
          cases freqToChannel freq .band2g <;> rfl
      | none => rfl

/-- `scan_target_band` on one text: the place of the preferred sighting. -/
theorem scanTargetBand_same (ssid : Bytes) (text : ScanText) :
    scanTargetBand ssid (fun _ => ⟨0, text⟩) =
      if Usable text then (preferred (sightings (cstr ssid) (ssidLinesOf text))).bind placed
      else none := by
  have captures : (List.range maxAttempts).map (fun _ => (⟨0, text⟩ : Capture)) =
      List.replicate (5 + 1) ⟨0, text⟩ := by
    rw [List.map_const', List.length_range]
    rfl
  obtain ⟨hit24, hit5⟩ := foldl_targetLine (cstr ssid) (textLines text.bytes) ⟨0, 0, 0⟩
  rw [scanTargetBand, captures, scanLoop_same, scanAttempt]
  by_cases usable : Usable text
  · rw [if_pos usable, if_neg (by simpa [Usable] using usable)]
    exact result_place _ _ hit24 hit5
  · rw [if_neg usable, if_pos (.inr usable)]
    rfl

theorem preferred_of_all {freqs : List Nat} {freq : Nat} (all : ∀ f ∈ freqs, f = freq)
    (inside : freqToScanBand freq ≠ none) :
    preferred freqs = if freqs = [] then none else some freq := by
  cases freqs with
  | nil => rfl
  | cons f freqs =>
      have same : f = freq := all f (List.mem_cons_self ..)
      subst same
      rw [if_neg (List.cons_ne_nil _ _), preferred]
      by_cases high : In5 f
      · rw [List.find?_cons_of_pos (by simpa using high), Option.some_or]
      · have low : In24 f := by
          by_contra outside
          exact inside (by rw [freqToScanBand, if_neg outside, if_neg high])
        have none5 : (f :: freqs).find? (fun freq => In5 freq) = none :=
          List.find?_eq_none.mpr fun g member => by rw [all g member]; simpa using high
        rw [none5, Option.none_or, List.find?_cons_of_pos (by simpa using low)]

theorem mem_sightings (name : Bytes) (lines : List (Nat × Bytes)) (freq : Nat) :
    freq ∈ sightings name lines ↔ ∃ line ∈ lines, line.2 = name ∧ line.1 = freq := by
  simp [sightings, and_assoc]

theorem scanTargetBand_eq_some_iff (ssid : Bytes) (text : ScanText) (nulFree : 0 ∉ ssid)
    (place : Band × Nat) :
    scanTargetBand ssid (fun _ => ⟨0, text⟩) = some place ↔
      Usable text ∧ ∃ freq, preferred (sightings ssid (ssidLinesOf text)) = some freq ∧
        placed freq = some place := by
  rw [scanTargetBand_same, (cstr_eq_self_iff _).mpr nulFree, ite_eq_iff', Option.bind_eq_some_iff]
  by_cases usable : Usable text <;> simp [usable]

/-- If a name is printed at one frequency only, that one is preferred. -/
theorem preferred_sightings_iff (name : Bytes) (lines : List (Nat × Bytes)) {freq : Nat}
    {place : Band × Nat} (inside : freqToScanBand freq ≠ none) (there : placed freq = some place)
    (under : ∀ line ∈ lines, line.2 = name → line.1 = freq) :
    (∃ freq', preferred (sightings name lines) = some freq' ∧ placed freq' = some place) ↔
      ∃ line ∈ lines, line.2 = name := by
  have all : ∀ f ∈ sightings name lines, f = freq := by
    intro f member
    obtain ⟨line, inText, printed, rfl⟩ := (mem_sightings _ _ _).mp member
    exact under line inText printed
  rw [preferred_of_all all inside]
  constructor
  · rintro ⟨freq', chosen, _⟩
    split_ifs at chosen with empty
    obtain ⟨f, member⟩ := List.exists_mem_of_ne_nil _ empty
    obtain ⟨line, inText, printed, _⟩ := (mem_sightings _ _ _).mp member
    exact ⟨line, inText, printed⟩
  · rintro ⟨line, inText, printed⟩
    have member : line.1 ∈ sightings name lines :=
      (mem_sightings _ _ _).mpr ⟨line, inText, printed, rfl⟩
    exact ⟨freq, if_neg (List.ne_nil_of_mem member), there⟩

/-- What `scan_target_band` finds for the name of an entry that the phone was shown. The
entry belongs to some block of the scan, and for each such block whose frequency has a
channel: the lookup gives the entry's band and that channel exactly if the text is usable
and the preferred one among the lines that print the name's own bytes gives them. If all
these lines are under the block's frequency, it is enough that there is one. -/
theorem scanTargetBand_finds_iff (strtod : Bytes → Int) (text : ScanText) (e : WifiScanEntry)
    (shown : e ∈ parseIwScan .rk3566 strtod text.bytes) (nulFree : 0 ∉ e.ssidBytes) :
    (∃ b ∈ blocksOf .rk3566 strtod text.bytes, b.entry = some e) ∧
      ∀ b ∈ blocksOf .rk3566 strtod text.bytes, b.entry = some e → ∀ band channel,
        freqToScanBand b.freq = some band → freqToChannel b.freq band = some channel →
        e.band = bandByte band ∧ e.ssidBytes = b.ssid ∧
        (scanTargetBand e.ssidBytes (fun _ => ⟨0, text⟩) = some (band, channel) ↔
          Usable text ∧ ∃ freq, preferred (sightings e.ssidBytes (ssidLinesOf text)) = some freq ∧
            placed freq = some (band, channel)) ∧
        ((∀ line ∈ ssidLinesOf text, line.2 = e.ssidBytes → line.1 = b.freq) →
          (scanTargetBand e.ssidBytes (fun _ => ⟨0, text⟩) = some (band, channel) ↔
            Usable text ∧ ∃ line ∈ ssidLinesOf text, line.2 = e.ssidBytes)) := by
  have general := scanTargetBand_eq_some_iff e.ssidBytes text nulFree
  refine ⟨mem_parseIwScan shown, fun b _ made band channel inBand onChannel => ?_⟩
  obtain ⟨band', entry⟩ := entry_eq_some made
  have same : band' = band := Option.some.inj (entry.inBand.symm.trans inBand)
  subst same
  have place : placed b.freq = some (band', channel) := by
    rw [placed, inBand, Option.bind_some, onChannel, Option.map_some]
  have inside : freqToScanBand b.freq ≠ none := by
    rw [inBand]
    exact Option.some_ne_none _
  refine ⟨entry.bandByte, entry.ssidBytes, general (band', channel), fun under => ?_⟩
  rw [general, preferred_sightings_iff _ _ inside place under]

def scanOf (name : Bytes) : Bytes :=
  ascii "BSS 02:00:00:00:01:00\n\tfreq: 2412\n\tSSID: " ++ name ++ [newline]

def plainScan : ScanText := ⟨scanOf (ascii "cafe"), by decide +kernel, by decide +kernel⟩

def escapedScan : ScanText :=
  ⟨scanOf (ascii "caf\\xc3\\xa9"), by decide +kernel, by decide +kernel⟩

def plainEntry : WifiScanEntry where
  ssidLen := 4
  ssid := paddedSsid [0x63, 0x61, 0x66, 0x65] (by decide)
  rssi := -100
  authType := 0
  band := 0

theorem plainEntry_shown : plainEntry ∈ parseIwScan .rk3566 (fun _ => 0) plainScan.bytes := by
  decide +kernel

theorem plainEntry_freq :
    ∀ b ∈ blocksOf .rk3566 (fun _ => 0) plainScan.bytes, b.entry = some plainEntry → b.freq = 2412 := by
  decide +kernel

theorem scanTargetBand_finds_iff_plain :
    plainEntry ∈ parseIwScan .rk3566 (fun _ => 0) plainScan.bytes ∧ 0 ∉ plainEntry.ssidBytes ∧
      scanTargetBand plainEntry.ssidBytes (fun _ => ⟨0, plainScan⟩) = some (.band2g, 1) := by
  have nulFree : 0 ∉ plainEntry.ssidBytes := by decide
  obtain ⟨⟨b, member, made⟩, all⟩ :=
    scanTargetBand_finds_iff (fun _ => 0) plainScan plainEntry plainEntry_shown nulFree
  have freq := plainEntry_freq b member made
  obtain ⟨_, _, _, simple⟩ :=
    all b member made .band2g 1 (by rw [freq]; decide) (by rw [freq]; decide)
  refine ⟨plainEntry_shown, nulFree, (simple ?_).mpr ?_⟩
  · rw [freq]
    decide +kernel
  · decide +kernel

/-- The network `café`, whose name `iw` prints with escapes, is listed for the phone and
is the only one, on channel 1; the lookup of its name finds nothing. -/
theorem scanTargetBand_misses_escaped :
    (parseIwScan .rk3566 (fun _ => 0) escapedScan.bytes).map WifiScanEntry.ssidBytes =
        [[0x63, 0x61, 0x66, 0xC3, 0xA9]] ∧
      (parseIwScan .rk3566 (fun _ => 0) escapedScan.bytes).map WifiScanEntry.band = [bandByte .band2g] ∧
      ((blocksOf .rk3566 (fun _ => 0) escapedScan.bytes).filter fun b =>
        b.ssid = [0x63, 0x61, 0x66, 0xC3, 0xA9]).map BssParse.freq = [2412] ∧
      freqToChannel 2412 .band2g = some 1 ∧
      scanTargetBand [0x63, 0x61, 0x66, 0xC3, 0xA9] (fun _ => ⟨0, escapedScan⟩) = none := by
  decide +kernel

end WfyApp.IwScan
