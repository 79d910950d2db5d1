import WfyApp.ByteText

/-! The wpa_supplicant configuration that the RK3566 backend writes for a join
(`escape_quotes`, `write_wpa_config`), and a reader for its network blocks.
The reader takes the value of a setting to be the bytes between the first and the last
double quote of its line, with no escapes. The band and the fate of the file write are
inputs. -/

namespace WfyApp.WpaConfig
open ByteText

inductive Band where
  | band2g
  | band5g
deriving DecidableEq, Repr

def freqList : Band → Bytes
  | .band5g => ascii "5180 5200 5220 5240 5745 5765 5785 5805 5825"
  | .band2g => ascii "2412 2417 2422 2427 2432 2437 2442 2447 2452 2457 2462"

def escapeByte (c : UInt8) : Bytes := if c = doubleQuote then [backslash, c] else [c]

def escapeLoop (dstSz : Nat) : Bytes → Bytes → Bytes
  | [], dst => dst
  | c :: s, dst => if dst.length + 2 < dstSz then escapeLoop dstSz s (dst ++ escapeByte c) else dst

def escapeQuotes (dstSz : Nat) (s : Bytes) : Bytes := escapeLoop dstSz s []

def openTemplate : Bytes :=
  ascii "ctrl_interface=DIR=/var/run/wpa_supplicant GROUP=netdev\n" ++
  ascii "update_config=1\n" ++
  ascii "country=CN\n" ++
  ascii "\n" ++
  ascii "network=\x7b\n" ++
  ascii "    ssid=\"%s\"\n" ++
  ascii "    key_mgmt=NONE\n" ++
  ascii "    scan_ssid=1\n" ++
  ascii "    freq_list=%s\n" ++
  ascii "\x7d\n"

def pskTemplate : Bytes :=
  ascii "ctrl_interface=DIR=/var/run/wpa_supplicant GROUP=netdev\n" ++
  ascii "update_config=1\n" ++
  ascii "country=CN\n" ++
  ascii "\n" ++
  ascii "network=\x7b\n" ++
  ascii "    ssid=\"%s\"\n" ++
  ascii "    psk=\"%s\"\n" ++
  ascii "    key_mgmt=WPA-PSK\n" ++
  ascii "    scan_ssid=1\n" ++
  ascii "    freq_list=%s\n" ++
  ascii "\x7d\n"

/-- The content of the file when the function returns 0. -/
def writeWpaConfig (band : Band) (writeFile : Bool) (ssid password : Bytes) : Option Bytes :=
  let ssidEsc := escapeQuotes 256 ssid
  let pwdEsc := escapeQuotes 256 password
  let body :=
    if password = [] then snprintf 1024 (format openTemplate [ssidEsc, freqList band])
    else snprintf 1024 (format pskTemplate [ssidEsc, pwdEsc, freqList band])
  if body.length ≥ 1024 then none
  else if writeFile then some body.text
  else none

def lineBlank (c : UInt8) : Bool := c == 0x20 || c == 0x09 || c == 0x0D

def trimLine (line : Bytes) : Bytes := stripRight lineBlank (stripLeft lineBlank line)

def networkOpen : Bytes := ascii "network=\x7b"
def networkClose : Bytes := ascii "\x7d"

/-- The settings of each network block; `none` if the last block is not closed. -/
def scanBlocks : Option (List Bytes) → List Bytes → Option (List (List Bytes))
  | none, [] => some []
  | some _, [] => none
  | none, line :: lines =>
      if line = networkOpen then scanBlocks (some []) lines else scanBlocks none lines
  | some block, line :: lines =>
      if line = networkClose then (scanBlocks none lines).map (block :: ·)
      else scanBlocks (some (block ++ [line])) lines

def networkBlocks (file : Bytes) : Option (List (List Bytes)) :=
  scanBlocks none ((textLines file).map trimLine)

/-- What stands between the first and the last double quote. -/
def quotedValue (line : Bytes) : Option Bytes :=
  match line.dropWhile (· != doubleQuote) with
  | [] => none
  | _ :: inner =>
      if doubleQuote ∈ inner then some (inner.rdropWhile (· != doubleQuote)).dropLast else none

def settings (key : Bytes) (block : List Bytes) : List (Option Bytes) :=
  (block.filter fun line => (key ++ [equals]).isPrefixOf line).map quotedValue

def ssidKey : Bytes := ascii "ssid"
def pskKey : Bytes := ascii "psk"

/-- The file describes one network: this name and, unless it is empty, this password. -/
def Describes (file ssid password : Bytes) : Prop :=
  ∃ block, networkBlocks file = some [block] ∧ settings ssidKey block = [some ssid] ∧
    settings pskKey block = if password = [] then [] else [some password]

theorem escapeLoop_eq (dstSz : Nat) (s dst : Bytes)
    (room : dst.length + 2 * s.length + 1 < dstSz) :
    escapeLoop dstSz s dst = dst ++ s.flatMap escapeByte := by
  induction s generalizing dst with
  | nil => simp [escapeLoop]
  | cons c s ih =>
      have grown : (escapeByte c).length ≤ 2 := by
        unfold escapeByte
        split_ifs <;> simp
      rw [List.length_cons] at room
      rw [escapeLoop, if_pos (by omega), ih _ (by rw [List.length_append]; omega),
        List.flatMap_cons, List.append_assoc]

theorem escapeByte_length (c : UInt8) :
    (escapeByte c).length = 1 + [c].count doubleQuote := by
  unfold escapeByte
  split_ifs with quote
  · simp [quote]
  · simp [quote]

theorem flatMap_escapeByte_length (s : Bytes) :
    (s.flatMap escapeByte).length = s.length + s.count doubleQuote := by
  induction s with
  | nil => rfl
  | cons c s ih =>
      have split : (c :: s).count doubleQuote = [c].count doubleQuote + s.count doubleQuote := by
        rw [← List.singleton_append, List.count_append]
      rw [List.flatMap_cons, List.length_append, ih, escapeByte_length, List.length_cons, split]
      omega

/-- Escaping keeps exactly the texts without a double quote. -/
theorem flatMap_escapeByte_eq_iff (s : Bytes) : s.flatMap escapeByte = s ↔ doubleQuote ∉ s := by
  refine ⟨fun same => ?_, fun free => ?_⟩
  · have lengths := flatMap_escapeByte_length s
    rw [same] at lengths
    exact List.count_eq_zero.mp (by omega)
  · have each : ∀ c ∈ s, escapeByte c = [c] := fun c member =>
      if_neg (ne_of_mem_of_not_mem member free)
    rw [List.flatMap_congr each, List.flatMap_singleton']

theorem newline_not_mem_flatMap_escapeByte (s : Bytes) (free : newline ∉ s) :
    newline ∉ s.flatMap escapeByte := by
  intro member
  obtain ⟨c, of_s, inside⟩ := List.mem_flatMap.mp member
  have other : newline ≠ backslash := by decide
  unfold escapeByte at inside
  split_ifs at inside
  · simp only [List.mem_cons, List.not_mem_nil, or_false, other, false_or] at inside
    exact free (inside ▸ of_s)
  · exact free (List.mem_singleton.mp inside ▸ of_s)

def preamble : List Bytes :=
  [ascii "ctrl_interface=DIR=/var/run/wpa_supplicant GROUP=netdev", ascii "update_config=1",
    ascii "country=CN", []]

def openSetting : Bytes := ascii "key_mgmt=NONE"
def securedSetting : Bytes := ascii "key_mgmt=WPA-PSK"
def scanSetting : Bytes := ascii "scan_ssid=1"
def freqSetting (band : Band) : Bytes := ascii "freq_list=" ++ freqList band

def keySettings (password : Bytes) : List Bytes :=
  if password = [] then [openSetting]
  else [quotedLine pskKey (password.flatMap escapeByte), securedSetting]

/-- The settings of the one block, as the writer renders them. -/
def blockSettings (band : Band) (ssid password : Bytes) : List Bytes :=
  quotedLine ssidKey (ssid.flatMap escapeByte) ::
    (keySettings password ++ [scanSetting, freqSetting band])

def indent : Bytes := ascii "    "

def wpaLines (band : Band) (ssid password : Bytes) : List Bytes :=
  preamble ++ networkOpen ::
    ((blockSettings band ssid password).map (indent ++ ·) ++ [networkClose])

def wpaBody (band : Band) (ssid password : Bytes) : Bytes :=
  (wpaLines band ssid password).flatMap (· ++ [newline])

/-- Both templates up to the network name. -/
def templateHead : Bytes :=
  (preamble ++ [networkOpen]).flatMap (· ++ [newline]) ++ indent ++ ssidKey ++
    [equals, doubleQuote]

def templateKey : Bytes := [doubleQuote, newline] ++ indent ++ pskKey ++ [equals, doubleQuote]

def templateFreq (keyMgmt : Bytes) : Bytes :=
  [doubleQuote, newline] ++ indent ++ keyMgmt ++ newline :: indent ++ scanSetting ++
    newline :: indent ++ ascii "freq_list="

def templateTail : Bytes := newline :: networkClose ++ [newline]

theorem openTemplate_eq :
    openTemplate = template [templateHead, templateFreq openSetting] templateTail := by
  simp only [openTemplate, template, templateHead, templateFreq, templateTail, preamble, indent,
    ssidKey, openSetting, scanSetting, networkOpen, networkClose]
  repeat rw [ascii_ofList]
  rfl

theorem pskTemplate_eq :
    pskTemplate =
      template [templateHead, templateKey, templateFreq securedSetting] templateTail := by
  simp only [pskTemplate, template, templateHead, templateKey, templateFreq, templateTail, preamble,
    indent, ssidKey, pskKey, securedSetting, scanSetting, networkOpen, networkClose]
  repeat rw [ascii_ofList]
  rfl

theorem templates_plain :
    (∀ text ∈ [templateHead, templateKey, templateFreq openSetting, templateFreq securedSetting],
      0x25 ∉ text) ∧ 0x25 ∉ templateTail := by
  simp only [templateHead, templateKey, templateFreq, templateTail, preamble, indent, ssidKey,
    pskKey, openSetting, securedSetting, scanSetting, networkOpen, networkClose]
  repeat rw [ascii_ofList]
  decide +kernel

theorem format_openTemplate (band : Band) (ssid : Bytes) :
    format openTemplate [ssid.flatMap escapeByte, freqList band] = wpaBody band ssid [] := by
  have plain : ∀ text ∈ [templateHead, templateFreq openSetting], 0x25 ∉ text := by
    intro text member
    refine templates_plain.1 text ?_
    simp only [List.mem_cons, List.not_mem_nil, or_false] at member ⊢
    exact member.imp_right fun same => .inr (.inl same)
  rw [openTemplate_eq, format_template _ _ _ (by rfl) plain templates_plain.2]
  simp [filled, wpaBody, wpaLines, blockSettings, keySettings, templateHead, templateFreq,
    templateTail, freqSetting, quotedLine]

theorem format_pskTemplate (band : Band) (ssid password : Bytes) (ne : password ≠ []) :
    format pskTemplate [ssid.flatMap escapeByte, password.flatMap escapeByte, freqList band] =
      wpaBody band ssid password := by
  have plain : ∀ text ∈ [templateHead, templateKey, templateFreq securedSetting],
      0x25 ∉ text := by
    intro text member
    refine templates_plain.1 text ?_
    simp only [List.mem_cons, List.not_mem_nil, or_false] at member ⊢
    exact member.imp_right (Or.imp_right fun same => .inr same)
  rw [pskTemplate_eq, format_template _ _ _ (by rfl) plain templates_plain.2]
  simp [filled, wpaBody, wpaLines, blockSettings, keySettings, templateHead, templateKey,
    templateFreq, templateTail, freqSetting, quotedLine, ne]

theorem flatMap_escapeByte_length_le (s : Bytes) :
    (s.flatMap escapeByte).length ≤ 2 * s.length := by
  have count := List.count_le_length (a := doubleQuote) (l := s)
  rw [flatMap_escapeByte_length]
  omega

theorem setting_lengths (band : Band) :
    openSetting.length = 13 ∧ securedSetting.length = 16 ∧ scanSetting.length = 11 ∧
      (freqSetting band).length ≤ 70 ∧ pskKey.length = 3 ∧ ssidKey.length = 4 ∧
      indent.length = 4 ∧
      linesLength preamble + networkOpen.length + linesLength [networkClose] ≤ 100 := by
  simp only [openSetting, securedSetting, scanSetting, freqSetting, freqList, pskKey, ssidKey, indent,
    preamble, networkOpen, networkClose]
  cases band <;>
  · simp only
    repeat rw [ascii_ofList]
    decide +kernel

theorem wpaBody_length (band : Band) (ssid password : Bytes) :
    (wpaBody band ssid password).length ≤ 300 + 2 * ssid.length + 2 * password.length := by
  obtain ⟨unsecured, secured, scan, freq, psk, own, spaces, fixed⟩ := setting_lengths band
  have ssid_le := flatMap_escapeByte_length_le ssid
  have password_le := flatMap_escapeByte_length_le password
  have keys : linesLength ((keySettings password).map (indent ++ ·)) ≤
      40 + 2 * password.length := by
    unfold keySettings
    split_ifs <;>
    · simp only [List.map_cons, List.map_nil, linesLength_cons, linesLength_nil,
        List.length_append, quotedLine_length]
      omega
  rw [wpaBody, length_flatMap_newline, wpaLines, blockSettings, linesLength_append,
    linesLength_cons, linesLength_append, List.map_cons, List.map_append, linesLength_cons,
    linesLength_append, List.length_append, quotedLine_length]
  simp only [List.map_cons, List.map_nil, linesLength_cons, linesLength_nil,
    List.length_append] at fixed ⊢
  omega

theorem writeWpaConfig_eq (band : Band) (ssid : CString 33) (password : CString 64) :
    writeWpaConfig band true ssid.bytes password.bytes =
      some (wpaBody band ssid.bytes password.bytes) := by
  have ssid_lt := ssid.length_lt
  have password_lt := password.length_lt
  have ssid_esc : escapeQuotes 256 ssid.bytes = ssid.bytes.flatMap escapeByte :=
    escapeLoop_eq 256 ssid.bytes [] (by rw [List.length_nil]; omega)
  have password_esc : escapeQuotes 256 password.bytes = password.bytes.flatMap escapeByte :=
    escapeLoop_eq 256 password.bytes [] (by rw [List.length_nil]; omega)
  have short := wpaBody_length band ssid.bytes password.bytes
  have room : (wpaBody band ssid.bytes password.bytes).length < 1024 := by omega
  have body : (if password.bytes = [] then
        snprintf 1024 (format openTemplate [escapeQuotes 256 ssid.bytes, freqList band])
      else snprintf 1024 (format pskTemplate [escapeQuotes 256 ssid.bytes,
        escapeQuotes 256 password.bytes, freqList band])) =
      snprintf 1024 (wpaBody band ssid.bytes password.bytes) := by
    rw [ssid_esc, password_esc]
    split_ifs with empty
    · rw [format_openTemplate, empty]
    · rw [format_pskTemplate band _ _ empty]
  have kept := snprintf_text 1024 (wpaBody band ssid.bytes password.bytes) room
  simp only [writeWpaConfig, body, kept, ite_true]
  exact if_neg (Nat.not_le.mpr room)

theorem trimLine_indent (line : Bytes) : trimLine (indent ++ line) = trimLine line := by
  have spaces : stripLeft lineBlank (indent ++ line) = stripLeft lineBlank line := rfl
  rw [trimLine, trimLine, spaces]

theorem trimLine_quotedLine (c : UInt8) (key value : Bytes) (other : lineBlank c = false) :
    trimLine (quotedLine (c :: key) value) = quotedLine (c :: key) value := by
  have left : stripLeft lineBlank (quotedLine (c :: key) value) = quotedLine (c :: key) value :=
    stripLeft_cons_of_not lineBlank c _ other
  rw [trimLine, left, stripRight_quotedLine lineBlank _ _ (by decide)]

/-- What the reader needs to know about a setting whose text is fixed. -/
structure FixedSetting (line : Bytes) : Prop where
  trimmed : trimLine line = line
  not_close : networkClose ≠ line
  oneLine : newline ∉ line
  not_ssid : (ssidKey ++ [equals]).isPrefixOf line = false
  not_psk : (pskKey ++ [equals]).isPrefixOf line = false

theorem fixedSettings (band : Band) :
    ∀ line ∈ [openSetting, securedSetting, scanSetting, freqSetting band], FixedSetting line := by
  have facts : ∀ line ∈ [openSetting, securedSetting, scanSetting, freqSetting band],
      trimLine line = line ∧ networkClose ≠ line ∧ newline ∉ line ∧
        (ssidKey ++ [equals]).isPrefixOf line = false ∧
        (pskKey ++ [equals]).isPrefixOf line = false := by
    simp only [openSetting, securedSetting, scanSetting, freqSetting, freqList, ssidKey, pskKey,
      networkClose]
    cases band <;>
    · simp only
      repeat rw [ascii_ofList]
      decide +kernel
  intro line member
  obtain ⟨trimmed, not_close, oneLine, not_ssid, not_psk⟩ := facts line member
  exact ⟨trimmed, not_close, oneLine, not_ssid, not_psk⟩

theorem mem_keySettings (password line : Bytes) (member : line ∈ keySettings password) :
    line = quotedLine pskKey (password.flatMap escapeByte) ∨ line = openSetting ∨
      line = securedSetting := by
  unfold keySettings at member
  split_ifs at member
  · exact .inr (.inl (List.mem_singleton.mp member))
  · simp only [List.mem_cons, List.not_mem_nil, or_false] at member
    exact member.imp_right .inr

/-- A setting of the block is the name, the password or a fixed text. -/
theorem mem_blockSettings (band : Band) (ssid password line : Bytes)
    (member : line ∈ blockSettings band ssid password) :
    line = quotedLine ssidKey (ssid.flatMap escapeByte) ∨
      line = quotedLine pskKey (password.flatMap escapeByte) ∨ FixedSetting line := by
  have fixed := fixedSettings band
  simp only [blockSettings, List.mem_cons, List.mem_append, List.not_mem_nil, or_false] at member
  rcases member with own | key | rfl | rfl
  · exact .inl own
  · rcases mem_keySettings password line key with psk | rfl | rfl
    · exact .inr (.inl psk)
    · exact .inr (.inr (fixed _ (by simp)))
    · exact .inr (.inr (fixed _ (by simp)))
  · exact .inr (.inr (fixed _ (by simp)))
  · exact .inr (.inr (fixed _ (by simp)))

theorem blockSettings_trimmed (band : Band) (ssid password : Bytes) :
    (blockSettings band ssid password).map trimLine = blockSettings band ssid password := by
  have each : ∀ line ∈ blockSettings band ssid password, trimLine line = line := by
    intro line member
    rcases mem_blockSettings band ssid password line member with rfl | rfl | fixed
    · exact trimLine_quotedLine 0x73 (ascii "sid") _ (by decide)
    · exact trimLine_quotedLine 0x70 (ascii "sk") _ (by decide)
    · exact fixed.trimmed
  rw [List.map_congr_left each, List.map_id']

theorem scanBlocks_before (before rest : List Bytes) (closed : networkOpen ∉ before) :
    scanBlocks none (before ++ rest) = scanBlocks none rest := by
  induction before with
  | nil => rfl
  | cons line before ih =>
      have head : line ≠ networkOpen := fun same => closed (same ▸ List.mem_cons_self)
      have tail := ih fun member => closed (List.mem_cons_of_mem line member)
      rw [List.cons_append, scanBlocks, if_neg head, tail]

theorem scanBlocks_inside (block lines rest : List Bytes) (inside : networkClose ∉ lines) :
    scanBlocks (some block) (lines ++ rest) = scanBlocks (some (block ++ lines)) rest := by
  induction lines generalizing block with
  | nil => rw [List.nil_append, List.append_nil]
  | cons line lines ih =>
      have head : line ≠ networkClose := fun same => inside (same ▸ List.mem_cons_self)
      have tail := ih (block ++ [line]) fun member => inside (List.mem_cons_of_mem line member)
      rw [List.cons_append, scanBlocks, if_neg head, tail, List.append_assoc,
        List.singleton_append]

theorem scanBlocks_one (before block : List Bytes) (closed : networkOpen ∉ before)
    (inside : networkClose ∉ block) :
    scanBlocks none (before ++ networkOpen :: (block ++ [networkClose])) = some [block] := by
  rw [scanBlocks_before before _ closed, scanBlocks, if_pos rfl, scanBlocks_inside [] _ _ inside,
    scanBlocks, if_pos rfl]
  rfl

theorem networkClose_not_mem_blockSettings (band : Band) (ssid password : Bytes) :
    networkClose ∉ blockSettings band ssid password := by
  have key : ∀ c key value, c ≠ 0x7D → networkClose ≠ quotedLine (c :: key) value := by
    intro c key value other same
    exact other (List.cons.inj same).1.symm
  intro member
  rcases mem_blockSettings band ssid password _ member with own | psk | fixed
  · exact key 0x73 (ascii "sid") _ (by decide) own
  · exact key 0x70 (ascii "sk") _ (by decide) psk
  · exact fixed.not_close rfl

theorem newline_not_mem_blockSettings (band : Band) (ssid password : Bytes)
    (ssid_free : newline ∉ ssid) (password_free : newline ∉ password) :
    ∀ l ∈ blockSettings band ssid password, newline ∉ l := by
  intro l member
  rcases mem_blockSettings band ssid password l member with rfl | rfl | fixed
  · exact newline_not_mem_quotedLine ssidKey _ (by decide)
      (newline_not_mem_flatMap_escapeByte ssid ssid_free)
  · exact newline_not_mem_quotedLine pskKey _ (by decide)
      (newline_not_mem_flatMap_escapeByte password password_free)
  · exact fixed.oneLine

theorem newline_not_mem_wpaLines (band : Band) (ssid password : Bytes) (ssid_free : newline ∉ ssid)
    (password_free : newline ∉ password) : ∀ l ∈ wpaLines band ssid password, newline ∉ l := by
  have fixed : ∀ l ∈ preamble ++ [networkOpen, networkClose], newline ∉ l := by decide
  have spaces : newline ∉ indent := by decide
  have block := newline_not_mem_blockSettings band ssid password ssid_free password_free
  intro l member
  simp only [wpaLines, List.mem_append, List.mem_cons, List.mem_map, List.not_mem_nil,
    or_false] at member
  rcases member with early | rfl | ⟨setting, of_block, rfl⟩ | rfl
  · exact fixed l (List.mem_append_left _ early)
  · exact fixed _ (by simp)
  · rw [List.mem_append, not_or]
    exact ⟨spaces, block setting of_block⟩
  · exact fixed _ (by simp)

/-- Without line breaks in the credentials the file has one block, with these settings. -/
theorem networkBlocks_wpaBody (band : Band) (ssid password : Bytes) (ssid_free : newline ∉ ssid)
    (password_free : newline ∉ password) :
    networkBlocks (wpaBody band ssid password) = some [blockSettings band ssid password] := by
  have head : (preamble.filter (· ≠ [])).map trimLine = preamble.filter (· ≠ []) := by decide
  have marks : trimLine networkOpen = networkOpen ∧ trimLine networkClose = networkClose := by
    decide
  have settings_kept : ((blockSettings band ssid password).map (indent ++ ·)).filter (· ≠ []) =
      (blockSettings band ssid password).map (indent ++ ·) := by
    apply List.filter_eq_self.mpr
    intro l member
    obtain ⟨setting, _, rfl⟩ := List.mem_map.mp member
    rfl
  have settings_trimmed : ((blockSettings band ssid password).map (indent ++ ·)).map trimLine =
      blockSettings band ssid password := by
    have same : trimLine ∘ (indent ++ ·) = trimLine := by
      funext line
      exact trimLine_indent line
    rw [List.map_map, same, blockSettings_trimmed]
  have lines : (textLines (wpaBody band ssid password)).map trimLine =
      preamble.filter (· ≠ []) ++ networkOpen ::
        (blockSettings band ssid password ++ [networkClose]) := by
    rw [wpaBody, textLines_flatMap _
      (newline_not_mem_wpaLines band ssid password ssid_free password_free), wpaLines,
      List.filter_append, List.filter_cons_of_pos (by decide), List.filter_append, settings_kept,
      List.map_append, head, List.map_cons, List.map_append, settings_trimmed, marks.1]
    rfl
  rw [networkBlocks, lines]
  exact scanBlocks_one _ _ (by decide) (networkClose_not_mem_blockSettings band ssid password)

theorem quotedValue_quotedLine (key value : Bytes) (plain : doubleQuote ∉ key ++ [equals]) :
    quotedValue (quotedLine key value) = some value := by
  have start : (quotedLine key value).dropWhile (· != doubleQuote) =
      doubleQuote :: (value ++ [doubleQuote]) := by
    have shape : quotedLine key value =
        (key ++ [equals]) ++ doubleQuote :: (value ++ [doubleQuote]) := by
      simp [quotedLine]
    have skipped : ∀ c ∈ key ++ [equals], (c != doubleQuote) = true := by
      intro c member
      simpa using ne_of_mem_of_not_mem member plain
    rw [shape, List.dropWhile_append_of_pos skipped]
    simp
  have finish : (value ++ [doubleQuote]).rdropWhile (· != doubleQuote) = value ++ [doubleQuote] :=
    List.rdropWhile_concat_neg _ _ _ (by simp)
  rw [quotedValue, start]
  simp only [finish, List.dropLast_concat]
  simp

theorem quotedValue_subset (line value : Bytes) (h : quotedValue line = some value) :
    value ⊆ line := by
  intro x member
  rw [quotedValue] at h
  split at h
  · cases h
  · rename_i quote inner rest
    split_ifs at h
    cases h
    have inside : x ∈ inner :=
      (List.rdropWhile_prefix _ inner).subset (List.mem_of_mem_dropLast member)
    apply (List.dropWhile_suffix (· != doubleQuote)).subset
    rw [rest]
    exact List.mem_cons_of_mem quote inside

theorem settings_ssid (band : Band) (ssid password : Bytes) :
    settings ssidKey (blockSettings band ssid password) = [some (ssid.flatMap escapeByte)] := by
  have fixed := fixedSettings band
  have others : (keySettings password ++ [scanSetting, freqSetting band]).filter
      (fun line => (ssidKey ++ [equals]).isPrefixOf line) = [] := by
    apply List.filter_eq_nil_iff.mpr
    intro line member
    rw [Bool.not_eq_true]
    rcases List.mem_append.mp member with key | tail
    · rcases mem_keySettings password line key with rfl | rfl | rfl
      · rfl
      · exact (fixed _ (by simp)).not_ssid
      · exact (fixed _ (by simp)).not_ssid
    · exact (fixed line (List.mem_cons_of_mem _ (List.mem_cons_of_mem _ tail))).not_ssid
  rw [settings, blockSettings, List.filter_cons_of_pos (by rfl), others, List.map_singleton,
    quotedValue_quotedLine ssidKey _ (by decide)]

theorem settings_psk (band : Band) (ssid password : Bytes) :
    settings pskKey (blockSettings band ssid password) =
      if password = [] then [] else [some (password.flatMap escapeByte)] := by
  have fixed := fixedSettings band
  have tail : [scanSetting, freqSetting band].filter
      (fun line => (pskKey ++ [equals]).isPrefixOf line) = [] := by
    apply List.filter_eq_nil_iff.mpr
    intro line member
    rw [Bool.not_eq_true]
    exact (fixed line (List.mem_cons_of_mem _ (List.mem_cons_of_mem _ member))).not_psk
  have unsecured := (fixed openSetting (by simp)).not_psk
  have secured := (fixed securedSetting (by simp)).not_psk
  rw [settings, blockSettings, List.filter_cons_of_neg (by rw [Bool.not_eq_true]; rfl),
    List.filter_append, tail, List.append_nil]
  unfold keySettings
  split_ifs
  · rw [List.filter_cons_of_neg (by rw [unsecured]; decide)]
    rfl
  · rw [List.filter_cons_of_pos (by rfl), List.filter_cons_of_neg (by rw [secured]; decide),
      List.filter_nil, List.map_singleton, quotedValue_quotedLine pskKey _ (by decide)]

theorem scanBlocks_lines (current : Option (List Bytes)) (lines : List Bytes)
    (blocks : List (List Bytes)) (h : scanBlocks current lines = some blocks) :
    ∀ block ∈ blocks, ∀ line ∈ block, line ∈ current.getD [] ∨ line ∈ lines := by
  induction lines generalizing current blocks with
  | nil =>
      cases current with
      | none =>
          cases h
          simp
      | some block => cases h
  | cons first lines ih =>
      cases current with
      | none =>
          rw [scanBlocks] at h
          split_ifs at h
          all_goals
            intro block of_blocks line of_block
            have found := ih _ _ h block of_blocks line of_block
            simp only [Option.getD_none, Option.getD_some, List.not_mem_nil, false_or] at found ⊢
            exact List.mem_cons_of_mem first found
      | some open_block =>
          rw [scanBlocks] at h
          split_ifs at h
          · obtain ⟨later, found, rfl⟩ := Option.map_eq_some_iff.mp h
            intro block of_blocks line of_block
            rcases List.mem_cons.mp of_blocks with rfl | of_later
            · exact .inl of_block
            · have deeper := ih _ _ found block of_later line of_block
              simp only [Option.getD_none, List.not_mem_nil, false_or] at deeper
              exact .inr (List.mem_cons_of_mem first deeper)
          · intro block of_blocks line of_block
            have found := ih _ _ h block of_blocks line of_block
            simp only [Option.getD_some, List.mem_append, List.mem_singleton] at found ⊢
            rcases found with (old | new) | deeper
            · exact .inl old
            · exact .inr (new ▸ List.mem_cons_self)
            · exact .inr (List.mem_cons_of_mem first deeper)

theorem settings_oneLine (file key value : Bytes) (blocks : List (List Bytes)) (block : List Bytes)
    (scanned : networkBlocks file = some blocks) (of_blocks : block ∈ blocks)
    (set : some value ∈ settings key block) : newline ∉ value := by
  obtain ⟨line, of_block, read⟩ := List.mem_map.mp set
  have of_file := scanBlocks_lines none _ blocks scanned block of_blocks line
    (List.mem_of_mem_filter of_block)
  simp only [Option.getD_none, List.not_mem_nil, false_or, List.mem_map] at of_file
  obtain ⟨raw, of_text, trimmed⟩ := of_file
  intro broken
  have in_line : newline ∈ trimLine raw := trimmed ▸ quotedValue_subset line value read broken
  exact not_mem_textLines newline file raw (.inl rfl) of_text
    (stripLeft_subset lineBlank raw (stripRight_subset lineBlank _ in_line))

theorem Describes.oneLine {file ssid password : Bytes} (h : Describes file ssid password) :
    newline ∉ ssid ∧ newline ∉ password := by
  obtain ⟨block, scanned, own, psk⟩ := h
  refine ⟨settings_oneLine file ssidKey ssid _ block scanned (by simp) (by simp [own]), ?_⟩
  by_cases empty : password = []
  · simp [empty]
  · exact settings_oneLine file pskKey password _ block scanned (by simp) (by simp [psk, empty])

def Plain (value : Bytes) : Prop := doubleQuote ∉ value ∧ newline ∉ value

theorem describes_wpaBody_iff (band : Band) (ssid password : Bytes) :
    Describes (wpaBody band ssid password) ssid password ↔ Plain ssid ∧ Plain password := by
  refine ⟨fun h => ?_, fun plain => ?_⟩
  · have oneLine := h.oneLine
    have blocks := networkBlocks_wpaBody band ssid password oneLine.1 oneLine.2
    obtain ⟨block, scanned, own, psk⟩ := h
    obtain rfl : blockSettings band ssid password = block := by
      simpa [blocks] using scanned
    have ssid_plain : ssid.flatMap escapeByte = ssid := by simpa [settings_ssid] using own
    have password_plain : password.flatMap escapeByte = password := by
      by_cases empty : password = []
      · rw [empty, List.flatMap_nil]
      · simpa [settings_psk, empty] using psk
    exact ⟨⟨(flatMap_escapeByte_eq_iff ssid).mp ssid_plain, oneLine.1⟩,
      (flatMap_escapeByte_eq_iff password).mp password_plain, oneLine.2⟩
  · refine ⟨_, networkBlocks_wpaBody band ssid password plain.1.2 plain.2.2, ?_, ?_⟩
    · rw [settings_ssid, (flatMap_escapeByte_eq_iff ssid).mpr plain.1.1]
    · rw [settings_psk, (flatMap_escapeByte_eq_iff password).mpr plain.2.1]

/-- The file that was written describes the network that was asked for exactly when
neither text holds a double quote or a line break. -/
theorem writeWpaConfig_describes_iff (band : Band) (ssid : CString 33) (password : CString 64) :
    (∀ writeFile file, writeWpaConfig band writeFile ssid.bytes password.bytes = some file →
      Describes file ssid.bytes password.bytes) ↔ Plain ssid.bytes ∧ Plain password.bytes := by
  rw [← describes_wpaBody_iff band]
  refine ⟨fun all => all true _ (writeWpaConfig_eq band ssid password), fun good => ?_⟩
  intro writeFile file written
  cases writeFile with
  | false => simp [writeWpaConfig] at written
  | true =>
      rw [writeWpaConfig_eq] at written
      exact Option.some.inj written ▸ good

/-- The name `a"b` is written, and read back with a backslash that is not part of it. -/
theorem writeWpaConfig_escaped_quote :
    ∃ file, writeWpaConfig .band2g true (ascii "a\"b") (ascii "secret12") = some file ∧
      (networkBlocks file).map (·.map (settings ssidKey)) = some [[some (ascii "a\\\"b")]] ∧
      ¬ Describes file (ascii "a\"b") (ascii "secret12") := by
  have quoted : ¬ (Plain (ascii "a\"b") ∧ Plain (ascii "secret12")) := by
    unfold Plain
    decide
  refine ⟨wpaBody .band2g (ascii "a\"b") (ascii "secret12"),
    writeWpaConfig_eq .band2g ⟨ascii "a\"b", by decide, by decide⟩
      ⟨ascii "secret12", by decide, by decide⟩, ?_,
    fun h => quoted ((describes_wpaBody_iff _ _ _).mp h)⟩
  rw [networkBlocks_wpaBody _ _ _ (by decide) (by decide)]
  exact congrArg (fun values => some [values]) (settings_ssid _ _ _)

end WfyApp.WpaConfig
