import WfyApp.ByteText

/-! The stored home network (/etc/taishan_home_wifi.conf): the writer and the reader
of each backend. A null pointer behaves as the empty string in these functions and is
modelled by it. Whether a file write reaches the disk is an input. -/

namespace WfyApp.HomeWifi
open ByteText

inductive Backend where
  | rk3566
  | a733
deriving DecidableEq, Repr

def hash : UInt8 := 0x23

def blank (c : UInt8) : Bool := c == 0x20 || c == 0x09
def blankOrEol (c : UInt8) : Bool := blank c || c == 0x0D || c == 0x0A

def parseLine : Backend → Bytes → Option (Bytes × Bytes)
  | .rk3566, line =>
      let t := stripRight blankOrEol (stripLeft blank line)
      if t = [] ∨ t.head? = some hash then none
      else (cutAt equals t).map fun cut =>
        (stripRight blankOrEol cut.1,
          unquote (stripRight blankOrEol (stripLeft blank cut.2)))
  | .a733, line =>
      let key := stripLeft isspace line
      if key.head? = some hash ∨ key = [] then none
      else (cutAt equals key).map fun cut =>
        (stripRight isspace cut.1,
          unquote (stripRight isspace (stripLeft isspace (stripLeft isspace cut.2))))

structure HomeFields where
  ssid : Bytes
  password : Bytes
  haveSsid : Bool
deriving DecidableEq

def HomeFields.empty : HomeFields := ⟨[], [], false⟩

/-- The RK3566 reader notes that a name was given, the A733 reader that it is not empty. -/
def marksSsid : Backend → Bytes → Bool
  | .rk3566, _ => true
  | .a733, ssid => ssid ≠ []

def homeSsid : Bytes := ascii "HOME_SSID"
def homePassword : Bytes := ascii "HOME_PASSWORD"

def storeField (backend : Backend) (ssidSz passwordSz : Nat) (fields : HomeFields)
    (field : Bytes × Bytes) : HomeFields :=
  if field.1 = homeSsid then
    let ssid := (snprintf ssidSz field.2).text
    { fields with ssid := ssid, haveSsid := marksSsid backend ssid }
  else if field.1 = homePassword then
    { fields with password := (snprintf passwordSz field.2).text }
  else fields

def readFileAll (bufSz : Nat) (file : Option Bytes) : Option Bytes :=
  file.map fun content => cstr (content.take (bufSz - 1))

def readFields (backend : Backend) (ssidSz passwordSz : Nat) (buf : Bytes) : HomeFields :=
  ((textLines buf).filterMap (parseLine backend)).foldl (storeField backend ssidSz passwordSz)
    .empty

def readHomeWifi : Backend → Nat → Nat → Option Bytes → Option (Bytes × Bytes)
  | .rk3566, ssidSz, passwordSz, file =>
      match readFileAll 2048 file with
      | none => none
      | some buf =>
          let fields := readFields .rk3566 ssidSz passwordSz buf
          if fields.haveSsid = false ∨ fields.ssid = [] then none
          else some (fields.ssid, fields.password)
  | .a733, ssidSz, passwordSz, file =>
      if ssidSz = 0 ∨ passwordSz = 0 then none
      else
        match readFileAll 2048 file with
        | none => none
        | some buf =>
            let fields := readFields .a733 ssidSz passwordSz buf
            if fields.haveSsid then some (fields.ssid, fields.password) else none

/-- The credentials of a join: an empty name stands for the stored network. -/
def useCredentials (backend : Backend) (ssidSz passwordSz : Nat) (file : Option Bytes)
    (ssid password : Bytes) : Option (Bytes × Bytes) :=
  if ssid = [] then readHomeWifi backend ssidSz passwordSz file else some (ssid, password)

def homeTemplate : Backend → Bytes
  | .rk3566 =>
      ascii "# Taishan home WiFi credentials.\n" ++
      ascii "# Managed by system_service; rewritten when BLE provisioning succeeds.\n" ++
      ascii "HOME_SSID=\"%s\"\n" ++
      ascii "HOME_PASSWORD=\"%s\"\n"
  | .a733 =>
      ascii "# Managed by system_service; rewritten when BLE provisioning succeeds.\n" ++
      ascii "HOME_SSID=\"%s\"\n" ++
      ascii "HOME_PASSWORD=\"%s\"\n"

def homeBodySize : Backend → Nat
  | .rk3566 => 1024
  | .a733 => 512

/-- The new content of the file when the function returns 0, and `none` when it returns -1. -/
def persistHomeWifi (backend : Backend) (atomicWrite : Bool) (ssid password : Bytes) :
    Option Bytes :=
  if ssid = [] then none
  else if doubleQuote ∈ ssid ∨ doubleQuote ∈ password then none
  else
    let body := snprintf (homeBodySize backend) (format (homeTemplate backend) [ssid, password])
    if body.length ≥ homeBodySize backend then none
    else if atomicWrite then some body.text
    else none

def homeComments : Backend → List Bytes
  | .rk3566 =>
      [ascii "# Taishan home WiFi credentials.",
        ascii "# Managed by system_service; rewritten when BLE provisioning succeeds."]
  | .a733 => [ascii "# Managed by system_service; rewritten when BLE provisioning succeeds."]

def homeLines (backend : Backend) (ssid password : Bytes) : List Bytes :=
  homeComments backend ++ [quotedLine homeSsid ssid, quotedLine homePassword password]

def homeBody (backend : Backend) (ssid password : Bytes) : Bytes :=
  (homeLines backend ssid password).flatMap (· ++ [newline])

def homeTexts (backend : Backend) : List Bytes :=
  [(homeComments backend).flatMap (· ++ [newline]) ++ homeSsid ++ [equals, doubleQuote],
    [doubleQuote, newline] ++ homePassword ++ [equals, doubleQuote]]

theorem homeTemplate_eq (backend : Backend) :
    homeTemplate backend = template (homeTexts backend) [doubleQuote, newline] := by
  cases backend <;>
  · simp only [homeTemplate, template, homeTexts, homeComments, homeSsid, homePassword]
    repeat rw [ascii_ofList]
    rfl

/-- What the reader needs to know about the fixed texts of the file. -/
structure FixedTexts (backend : Backend) : Prop where
  plain : ∀ text ∈ homeTexts backend, 0x25 ∉ text
  nulFree : 0 ∉ (homeComments backend).flatMap (· ++ [newline])
  oneLine : ∀ l ∈ homeComments backend, newline ∉ l ∧ l ≠ []
  skipped : (homeComments backend).filterMap (parseLine backend) = []
  short : linesLength (homeComments backend) ≤ 110

theorem fixedTexts (backend : Backend) : FixedTexts backend := by
  cases backend <;>
  · constructor <;>
    · simp only [homeTexts, homeComments, homeSsid, homePassword]
      repeat rw [ascii_ofList]
      decide +kernel

theorem format_homeTemplate (backend : Backend) (ssid password : Bytes) :
    format (homeTemplate backend) [ssid, password] = homeBody backend ssid password := by
  rw [homeTemplate_eq, format_template _ _ _ (by rfl) (fixedTexts backend).plain (by decide)]
  simp [filled, homeTexts, homeBody, homeLines, quotedLine]

theorem homeBody_length (backend : Backend) (ssid password : Bytes) :
    (homeBody backend ssid password).length ≤ 140 + ssid.length + password.length := by
  have comments := (fixedTexts backend).short
  have ssid_key : homeSsid.length = 9 := by decide
  have password_key : homePassword.length = 13 := by decide
  have fields : linesLength [quotedLine homeSsid ssid, quotedLine homePassword password] =
      30 + ssid.length + password.length := by
    simp only [linesLength_cons, linesLength_nil, quotedLine_length, ssid_key, password_key]
    omega
  rw [homeBody, length_flatMap_newline, homeLines, linesLength_append, fields]
  omega

theorem persistHomeWifi_eq_some (backend : Backend) (ssid password : Bytes)
    (ssid_ne : ssid ≠ []) (unquoted : ¬ (doubleQuote ∈ ssid ∨ doubleQuote ∈ password))
    (ssid_lt : ssid.length < 33) (password_lt : password.length < 64) :
    persistHomeWifi backend true ssid password = some (homeBody backend ssid password) := by
  have short := homeBody_length backend ssid password
  have room : (homeBody backend ssid password).length < homeBodySize backend := by
    cases backend <;> simp only [homeBodySize] <;> omega
  have kept := snprintf_text (homeBodySize backend) (homeBody backend ssid password) room
  rw [persistHomeWifi, if_neg ssid_ne, if_neg unquoted, format_homeTemplate]
  simp only [kept, ite_true]
  exact if_neg (Nat.not_le.mpr room)

theorem persistHomeWifi_quote (backend : Backend) (atomicWrite : Bool) (ssid password : Bytes)
    (quoted : doubleQuote ∈ ssid ∨ doubleQuote ∈ password) :
    persistHomeWifi backend atomicWrite ssid password = none := by
  rw [persistHomeWifi]
  split_ifs <;> rfl

def IsKey (key : Bytes) : Prop := key = homeSsid ∨ key = homePassword

theorem IsKey.head {key : Bytes} (known : IsKey key) : ∃ rest, key = 0x48 :: rest := by
  rcases known with rfl | rfl <;> exact ⟨_, rfl⟩

theorem IsKey.last {key : Bytes} (known : IsKey key) : ∃ before, key = before ++ [0x44] := by
  rcases known with rfl | rfl
  · exact ⟨ascii "HOME_SSI", rfl⟩
  · exact ⟨ascii "HOME_PASSWOR", rfl⟩

theorem IsKey.equals_not_mem {key : Bytes} (known : IsKey key) : equals ∉ key := by
  rcases known with rfl | rfl <;> decide

theorem stripLeft_quotedLine (p : UInt8 → Bool) (key value : Bytes) (known : IsKey key)
    (other : p 0x48 = false) : stripLeft p (quotedLine key value) = quotedLine key value := by
  obtain ⟨rest, rfl⟩ := known.head
  exact stripLeft_cons_of_not p _ _ other

theorem stripRight_key (p : UInt8 → Bool) (key : Bytes) (known : IsKey key)
    (other : p 0x44 = false) : stripRight p key = key := by
  obtain ⟨before, rfl⟩ := known.last
  exact stripRight_concat_of_not p _ _ other

theorem stripLeft_doubleQuoted (p : UInt8 → Bool) (value : Bytes) (other : p doubleQuote = false) :
    stripLeft p (doubleQuote :: (value ++ [doubleQuote])) =
      doubleQuote :: (value ++ [doubleQuote]) :=
  stripLeft_cons_of_not p _ _ other

theorem stripRight_doubleQuoted (p : UInt8 → Bool) (value : Bytes)
    (other : p doubleQuote = false) :
    stripRight p (doubleQuote :: (value ++ [doubleQuote])) =
      doubleQuote :: (value ++ [doubleQuote]) :=
  stripRight_concat_of_not p (doubleQuote :: value) _ other

/-- A rendered field is read back whatever blanks, `#` or `=` its value holds. -/
theorem parseLine_quotedLine (backend : Backend) (key value : Bytes) (known : IsKey key) :
    parseLine backend (quotedLine key value) = some (key, value) := by
  have cut : cutAt equals (quotedLine key value) =
      some (key, doubleQuote :: (value ++ [doubleQuote])) :=
    cutAt_append equals key _ known.equals_not_mem
  have head : (quotedLine key value).head? = some 0x48 := by
    obtain ⟨rest, rfl⟩ := known.head
    rfl
  have field : ¬ (quotedLine key value = [] ∨ (quotedLine key value).head? = some hash) := by
    rw [head]
    simp [quotedLine, hash]
  cases backend with
  | rk3566 =>
      simp only [parseLine]
      rw [stripLeft_quotedLine blank key value known (by decide),
        stripRight_quotedLine blankOrEol key value (by decide), if_neg field, cut, Option.map_some,
        stripRight_key blankOrEol key known (by decide),
        stripLeft_doubleQuoted blank value (by decide),
        stripRight_doubleQuoted blankOrEol value (by decide), unquote_doubleQuoted]
  | a733 =>
      simp only [parseLine]
      rw [stripLeft_quotedLine isspace key value known (by decide), if_neg (field ∘ Or.symm), cut,
        Option.map_some, stripRight_key isspace key known (by decide),
        stripLeft_doubleQuoted isspace value (by decide),
        stripLeft_doubleQuoted isspace value (by decide),
        stripRight_doubleQuoted isspace value (by decide), unquote_doubleQuoted]

theorem filterMap_homeLines (backend : Backend) (ssid password : Bytes) :
    (homeLines backend ssid password).filterMap (parseLine backend) =
      [(homeSsid, ssid), (homePassword, password)] := by
  rw [homeLines, List.filterMap_append, (fixedTexts backend).skipped, List.nil_append]
  simp [parseLine_quotedLine backend homeSsid ssid (.inl rfl),
    parseLine_quotedLine backend homePassword password (.inr rfl)]

theorem homeLines_plain (backend : Backend) (ssid password : Bytes) (ssid_free : newline ∉ ssid)
    (password_free : newline ∉ password) :
    ∀ l ∈ homeLines backend ssid password, newline ∉ l := by
  intro l member
  simp only [homeLines, List.mem_append, List.mem_cons, List.not_mem_nil, or_false] at member
  rcases member with comment | rfl | rfl
  · exact ((fixedTexts backend).oneLine l comment).1
  · exact newline_not_mem_quotedLine homeSsid ssid (by decide) ssid_free
  · exact newline_not_mem_quotedLine homePassword password (by decide) password_free

theorem homeLines_filter (backend : Backend) (ssid password : Bytes) :
    (homeLines backend ssid password).filter (· ≠ []) = homeLines backend ssid password := by
  have comments : (homeComments backend).filter (· ≠ []) = homeComments backend :=
    List.filter_eq_self.mpr fun l member => by
      simpa using ((fixedTexts backend).oneLine l member).2
  rw [homeLines, List.filter_append, comments]
  simp [quotedLine]

theorem readFields_homeBody (backend : Backend) (ssidSz passwordSz : Nat) (ssid password : Bytes)
    (ssid_free : newline ∉ ssid) (password_free : newline ∉ password)
    (ssid_room : ssid.length < ssidSz) (password_room : password.length < passwordSz) :
    readFields backend ssidSz passwordSz (homeBody backend ssid password) =
      ⟨ssid, password, marksSsid backend ssid⟩ := by
  have keys : homePassword ≠ homeSsid := by decide
  rw [readFields, homeBody, textLines_flatMap _ (homeLines_plain backend _ _ ssid_free password_free),
    homeLines_filter, filterMap_homeLines]
  simp only [List.foldl_cons, List.foldl_nil, storeField, if_neg keys, ite_true,
    snprintf_text ssidSz ssid ssid_room, snprintf_text passwordSz password password_room]

theorem homeBody_nulFree (backend : Backend) (ssid password : Bytes) (ssid_free : 0 ∉ ssid)
    (password_free : 0 ∉ password) : 0 ∉ homeBody backend ssid password := by
  have comments := (fixedTexts backend).nulFree
  have keys : 0 ∉ homeSsid ∧ 0 ∉ homePassword := by decide
  have marks : (0 : UInt8) ≠ equals ∧ (0 : UInt8) ≠ doubleQuote ∧ (0 : UInt8) ≠ newline := by
    decide
  rw [homeBody, homeLines, List.flatMap_append, List.mem_append, not_or]
  refine ⟨comments, ?_⟩
  simp [quotedLine, keys, marks, ssid_free, password_free]

theorem readFileAll_homeBody (backend : Backend) (ssid : CString 33) (password : CString 64) :
    readFileAll 2048 (some (homeBody backend ssid.bytes password.bytes)) =
      some (homeBody backend ssid.bytes password.bytes) := by
  have short := homeBody_length backend ssid.bytes password.bytes
  have ssid_lt := ssid.length_lt
  have password_lt := password.length_lt
  have whole := (cstr_eq_self_iff _).mpr
    (homeBody_nulFree backend _ _ ssid.nulFree password.nulFree)
  rw [readFileAll, Option.map_some, List.take_of_length_le (by omega), whole]

/-- What was written without a line break is read back. -/
theorem readHomeWifi_homeBody (backend : Backend) (ssidSz passwordSz : Nat) (ssid : CString 33)
    (password : CString 64) (ssid_ne : ssid.bytes ≠ []) (ssid_room : 33 ≤ ssidSz)
    (password_room : 64 ≤ passwordSz) (ssid_free : newline ∉ ssid.bytes)
    (password_free : newline ∉ password.bytes) :
    readHomeWifi backend ssidSz passwordSz (some (homeBody backend ssid.bytes password.bytes)) =
      some (ssid.bytes, password.bytes) := by
  have file := readFileAll_homeBody backend ssid password
  have fields := readFields_homeBody backend ssidSz passwordSz _ _ ssid_free password_free
    (ssid.length_lt.trans_le ssid_room) (password.length_lt.trans_le password_room)
  cases backend with
  | rk3566 => simp [readHomeWifi, file, fields, marksSsid, ssid_ne]
  | a733 =>
      have sizes : ¬ (ssidSz = 0 ∨ passwordSz = 0) := by omega
      simp only [readHomeWifi, if_neg sizes, file, fields, marksSsid]
      simp [ssid_ne]

theorem parseLine_value_subset (backend : Backend) (line key value : Bytes)
    (h : parseLine backend line = some (key, value)) : value ⊆ line := by
  cases backend with
  | rk3566 =>
      simp only [parseLine] at h
      split_ifs at h
      obtain ⟨cut, found, pair⟩ := Option.map_eq_some_iff.mp h
      cases pair
      intro x member
      apply stripLeft_subset blank
      apply stripRight_subset blankOrEol
      apply cutAt_value_subset equals _ cut.1 cut.2 found
      exact stripLeft_subset blank _ (stripRight_subset blankOrEol _ (unquote_subset _ member))
  | a733 =>
      simp only [parseLine] at h
      split_ifs at h
      obtain ⟨cut, found, pair⟩ := Option.map_eq_some_iff.mp h
      cases pair
      intro x member
      apply stripLeft_subset isspace
      apply cutAt_value_subset equals _ cut.1 cut.2 found
      exact stripLeft_subset isspace _ (stripLeft_subset isspace _
        (stripRight_subset isspace _ (unquote_subset _ member)))

def HomeFields.Without (c : UInt8) (fields : HomeFields) : Prop :=
  c ∉ fields.ssid ∧ c ∉ fields.password

theorem storeField_without (c : UInt8) (backend : Backend) (ssidSz passwordSz : Nat)
    (fields : HomeFields) (field : Bytes × Bytes) (before : fields.Without c)
    (free : c ∉ field.2) : (storeField backend ssidSz passwordSz fields field).Without c := by
  have kept : ∀ size, c ∉ (snprintf size field.2).text :=
    fun size member => free (List.mem_of_mem_take member)
  rw [storeField]
  split_ifs
  · exact ⟨kept ssidSz, before.2⟩
  · exact ⟨before.1, kept passwordSz⟩
  · exact before

theorem foldl_storeField_without (c : UInt8) (backend : Backend) (ssidSz passwordSz : Nat)
    (entries : List (Bytes × Bytes)) (fields : HomeFields) (before : fields.Without c)
    (free : ∀ entry ∈ entries, c ∉ entry.2) :
    (entries.foldl (storeField backend ssidSz passwordSz) fields).Without c := by
  induction entries generalizing fields with
  | nil => exact before
  | cons entry entries ih =>
      refine ih _ (storeField_without c backend _ _ fields entry before
        (free entry List.mem_cons_self)) ?_
      exact fun later member => free later (List.mem_cons_of_mem entry member)

theorem readFields_without (c : UInt8) (backend : Backend) (ssidSz passwordSz : Nat) (buf : Bytes)
    (free : c = newline ∨ c ∉ buf) : (readFields backend ssidSz passwordSz buf).Without c := by
  refine foldl_storeField_without c backend ssidSz passwordSz _ _ ⟨by simp [HomeFields.empty],
    by simp [HomeFields.empty]⟩ ?_
  intro entry member
  obtain ⟨line, of_file, parsed⟩ := List.mem_filterMap.mp member
  exact fun inside => not_mem_textLines c buf line free of_file
    (parseLine_value_subset backend line entry.1 entry.2 parsed inside)

/-- Whatever the file holds, no value read from it has a line break or a NUL. -/
theorem readHomeWifi_without (c : UInt8) (special : c = newline ∨ c = 0) (backend : Backend)
    (ssidSz passwordSz : Nat) (file : Option Bytes) (ssid password : Bytes)
    (h : readHomeWifi backend ssidSz passwordSz file = some (ssid, password)) :
    c ∉ ssid ∧ c ∉ password := by
  have free : ∀ buf, readFileAll 2048 file = some buf → c = newline ∨ c ∉ buf := by
    intro buf loaded
    refine special.imp_right ?_
    rintro rfl
    obtain ⟨content, _, rfl⟩ := Option.map_eq_some_iff.mp loaded
    exact zero_not_mem_cstr _
  cases backend with
  | rk3566 =>
      simp only [readHomeWifi] at h
      split at h
      · cases h
      · rename_i buf loaded
        split_ifs at h
        cases h
        exact readFields_without c _ _ _ _ (free buf loaded)
  | a733 =>
      simp only [readHomeWifi] at h
      split_ifs at h
      split at h
      · cases h
      · rename_i buf loaded
        split_ifs at h
        cases h
        exact readFields_without c _ _ _ _ (free buf loaded)

/-- Credentials that were stored are the credentials found at the next boot. -/
def RoundTrips (backend : Backend) (ssidSz passwordSz : Nat) (ssid password : Bytes) : Prop :=
  ∀ atomicWrite file, persistHomeWifi backend atomicWrite ssid password = some file →
    readHomeWifi backend ssidSz passwordSz (some file) = some (ssid, password)

/-- The writers refuse a double quote but let a line break through. -/
theorem homeWifi_roundTrips_iff (backend : Backend) (ssidSz passwordSz : Nat) (ssid : CString 33)
    (password : CString 64) (ssid_ne : ssid.bytes ≠ []) (ssid_room : 33 ≤ ssidSz)
    (password_room : 64 ≤ passwordSz) :
    RoundTrips backend ssidSz passwordSz ssid.bytes password.bytes ↔
      (doubleQuote ∈ ssid.bytes ∨ doubleQuote ∈ password.bytes) ∨
        (newline ∉ ssid.bytes ∧ newline ∉ password.bytes) := by
  by_cases quoted : doubleQuote ∈ ssid.bytes ∨ doubleQuote ∈ password.bytes
  · refine iff_of_true ?_ (.inl quoted)
    intro atomicWrite file stored
    rw [persistHomeWifi_quote backend atomicWrite _ _ quoted] at stored
    cases stored
  · have stored := persistHomeWifi_eq_some backend ssid.bytes password.bytes ssid_ne quoted
      ssid.length_lt password.length_lt
    refine ⟨fun trips => .inr ?_, fun h => ?_⟩
    · exact readHomeWifi_without newline (.inl rfl) _ _ _ _ _ _ (trips true _ stored)
    · have free := h.resolve_left quoted
      intro atomicWrite file written
      cases atomicWrite with
      | false => simp [persistHomeWifi] at written
      | true =>
          rw [stored] at written
          cases written
          exact readHomeWifi_homeBody backend _ _ ssid password ssid_ne ssid_room password_room
            free.1 free.2

theorem homeWifi_roundTrips_iff_cafe :
    RoundTrips .a733 33 64 (ascii "cafe=#1 ") (ascii "it's 4 u") ↔
      (doubleQuote ∈ ascii "cafe=#1 " ∨ doubleQuote ∈ ascii "it's 4 u") ∨
        (newline ∉ ascii "cafe=#1 " ∧ newline ∉ ascii "it's 4 u") :=
  homeWifi_roundTrips_iff .a733 33 64 ⟨ascii "cafe=#1 ", by decide, by decide⟩
    ⟨ascii "it's 4 u", by decide, by decide⟩ (by decide) (by decide) (by decide)

/-- A network name with a line break is stored and comes back cut, with a stray quote. -/
theorem homeWifi_line_break :
    persistHomeWifi .rk3566 true (ascii "a\nb") (ascii "pw") =
        some (homeBody .rk3566 (ascii "a\nb") (ascii "pw")) ∧
      readHomeWifi .rk3566 128 128 (some (homeBody .rk3566 (ascii "a\nb") (ascii "pw"))) =
        some (ascii "\"a", ascii "pw") ∧
      ¬ RoundTrips .rk3566 128 128 (ascii "a\nb") (ascii "pw") ∧
      ¬ RoundTrips .a733 33 64 (ascii "a\nb") (ascii "pw") := by
  have stored : ∀ backend, persistHomeWifi backend true (ascii "a\nb") (ascii "pw") =
      some (homeBody backend (ascii "a\nb") (ascii "pw")) := fun backend =>
    persistHomeWifi_eq_some backend _ _ (by decide) (by decide) (by decide) (by decide)
  have broken : ¬ (newline ∉ ascii "a\nb" ∧ newline ∉ ascii "pw") := by decide
  refine ⟨stored .rk3566, by decide +kernel, fun trips => ?_, fun trips => ?_⟩
  · exact broken (readHomeWifi_without newline (.inl rfl) _ _ _ _ _ _ (trips true _ (stored .rk3566)))
  · exact broken (readHomeWifi_without newline (.inl rfl) _ _ _ _ _ _ (trips true _ (stored .a733)))

end WfyApp.HomeWifi
