import WfyApp.ConfigUpdates

/-! Files that are rewritten line by line, and what `read_band` finds after `persist_band`
when all file operations work. The writer replaces the lines with two fixed beginnings; the
reader takes a key with any blanks after it, and only in the first 2047 bytes. -/

namespace WfyApp.ConfRewrites
open ByteText NumberText HomeWifi WpaConfig FileFaults ConfigUpdates

section Rules
variable (rules : List Rule)

def ruleLine (r : Rule) : Bytes := r.text.dropLast

/-- Every rule writes one line, which it applies to, and no two apply to the same line. -/
structure LineRules : Prop where
  ended : ∀ r ∈ rules, r.text = ruleLine r ++ [newline]
  nonempty : ∀ r ∈ rules, ruleLine r ≠ []
  oneLine : ∀ r ∈ rules, newline ∉ ruleLine r
  nulFree : ∀ r ∈ rules, 0 ∉ ruleLine r
  own : ∀ r ∈ rules, r.applies (ruleLine r) = true
  exclusive : ∀ r ∈ rules, ∀ line, r.applies line = true → rules.find? (·.applies line) = some r

def newLine (line : Bytes) : Bytes :=
  match rules.find? (·.applies line) with
  | some r => ruleLine r
  | none => line

def untouched (line : Bytes) : Bool := (rules.find? (·.applies line)).isNone

def missing (lines : List Bytes) : List Rule :=
  rules.filter fun r => lines.all fun line => rules.find? (·.applies line) ≠ some r

def newLines (lines : List Bytes) : List Bytes :=
  lines.map (newLine rules) ++ (missing rules lines).map ruleLine

def written (lines : List Bytes) : Bytes := lines.flatMap (· ++ [newline])

theorem newLine_of_some {line : Bytes} {r : Rule}
    (found : rules.find? (·.applies line) = some r) : newLine rules line = ruleLine r := by
  rw [newLine, found]

theorem newLine_of_none {line : Bytes} (found : rules.find? (·.applies line) = none) :
    newLine rules line = line := by
  rw [newLine, found]

omit rules in
theorem filter_map_fixed (f : Bytes → Bytes) (p : Bytes → Bool) (lines : List Bytes)
    (same : ∀ l ∈ lines, p (f l) = p l) (fixed : ∀ l ∈ lines, p l = true → f l = l) :
    (lines.map f).filter p = lines.filter p := by
  induction lines with
  | nil => rfl
  | cons line lines ih =>
      have rest := ih (fun l member => same l (List.mem_cons_of_mem line member))
        fun l member => fixed l (List.mem_cons_of_mem line member)
      rw [List.map_cons, List.filter_cons, List.filter_cons, rest, same line List.mem_cons_self]
      split_ifs with holds
      · rw [fixed line List.mem_cons_self holds]
      · rfl

theorem foldlM_appendText (cap : Nat) (pieces : List Bytes) (start out : Bytes)
    (rendered : pieces.foldlM (appendText cap) start = some out) : out = start ++ pieces.flatten := by
  induction pieces generalizing start with
  | nil =>
      cases rendered
      simp
  | cons piece pieces ih =>
      rw [List.foldlM_cons] at rendered
      obtain ⟨next, first, rest⟩ := Option.bind_eq_some_iff.mp rendered
      rw [appendText] at first
      split_ifs at first
      cases first
      rw [ih _ rest, List.flatten_cons, List.append_assoc]

theorem foldlM_appendText_of_lt (cap : Nat) (pieces : List Bytes) (start : Bytes)
    (fits : (start ++ pieces.flatten).length < cap) :
    pieces.foldlM (appendText cap) start = some (start ++ pieces.flatten) := by
  induction pieces generalizing start with
  | nil => simp
  | cons piece pieces ih =>
      rw [List.flatten_cons, ← List.append_assoc] at fits
      have room : piece.length < cap - start.length := by
        simp only [List.length_append] at fits
        omega
      rw [List.foldlM_cons, appendText, if_pos room, List.flatten_cons, ← List.append_assoc]
      exact ih (start ++ piece) fits

theorem ruleLine_mem_newLines (lines : List Bytes) {r : Rule} (member : r ∈ rules) :
    ruleLine r ∈ newLines rules lines := by
  by_cases called : ∃ line ∈ lines, rules.find? (·.applies line) = some r
  · obtain ⟨line, of_lines, found⟩ := called
    refine List.mem_append_left _ (List.mem_map.mpr ⟨line, of_lines, ?_⟩)
    exact newLine_of_some rules found
  · refine List.mem_append_right _ (List.mem_map_of_mem (List.mem_filter.mpr ⟨member, ?_⟩))
    simpa using called

variable {rules} (shape : LineRules rules)
include shape

theorem find_ruleLine {r : Rule} (member : r ∈ rules) :
    rules.find? (·.applies (ruleLine r)) = some r :=
  shape.exclusive r member _ (shape.own r member)

theorem rewriteLine_eq (line : Bytes) :
    rewriteLine rules line = newLine rules line ++ [newline] := by
  rw [rewriteLine, newLine]
  cases found : rules.find? (·.applies line) with
  | none => rfl
  | some r => exact shape.ended r (List.mem_of_find?_eq_some found)

theorem rewriteLines_eq (cap : Nat) (lines : List Bytes) :
    rewriteLines cap rules lines =
      ((newLines rules lines).map (· ++ [newline])).foldlM (appendText cap) [] := by
  have texts : (missing rules lines).map Rule.text =
      ((missing rules lines).map ruleLine).map (· ++ [newline]) := by
    rw [List.map_map]
    exact List.map_congr_left fun r member => shape.ended r (List.mem_of_mem_filter member)
  have copies : lines.map (rewriteLine rules) =
      (lines.map (newLine rules)).map (· ++ [newline]) := by
    rw [List.map_map]
    exact List.map_congr_left fun line _ => rewriteLine_eq shape line
  rw [newLines, List.map_append, ← texts, ← copies]
  rfl

theorem rewriteLines_written {cap : Nat} {lines : List Bytes} {out : Bytes}
    (rendered : rewriteLines cap rules lines = some out) : out = written (newLines rules lines) := by
  rw [rewriteLines_eq shape] at rendered
  rw [foldlM_appendText cap _ _ _ rendered, List.nil_append, written, List.flatMap_def]

theorem rewriteLines_of_lt (cap : Nat) (lines : List Bytes)
    (fits : (written (newLines rules lines)).length < cap) :
    rewriteLines cap rules lines = some (written (newLines rules lines)) := by
  rw [written, List.flatMap_def] at fits
  rw [rewriteLines_eq shape, foldlM_appendText_of_lt cap _ [] (by simpa using fits),
    List.nil_append, written, List.flatMap_def]

theorem newLine_ruleLine {r : Rule} (member : r ∈ rules) : newLine rules (ruleLine r) = ruleLine r :=
  newLine_of_some rules (find_ruleLine shape member)

theorem find_newLine (line : Bytes) :
    rules.find? (·.applies (newLine rules line)) = rules.find? (·.applies line) := by
  cases found : rules.find? (·.applies line) with
  | none => rw [newLine_of_none rules found, found]
  | some r => rw [newLine_of_some rules found, find_ruleLine shape (List.mem_of_find?_eq_some found)]

theorem mem_newLines {lines : List Bytes} {line : Bytes} (member : line ∈ newLines rules lines) :
    newLine rules line = line ∧ (line ∈ lines ∨ ∃ r ∈ rules, line = ruleLine r) := by
  rcases List.mem_append.mp member with mapped | added
  · obtain ⟨old, of_lines, rfl⟩ := List.mem_map.mp mapped
    cases found : rules.find? (·.applies old) with
    | none =>
        rw [newLine_of_none rules found, newLine_of_none rules found]
        exact ⟨rfl, .inl of_lines⟩
    | some r =>
        have known := List.mem_of_find?_eq_some found
        rw [newLine_of_some rules found, newLine_ruleLine shape known]
        exact ⟨rfl, .inr ⟨r, known, rfl⟩⟩
  · obtain ⟨r, uncalled, rfl⟩ := List.mem_map.mp added
    have known := List.mem_of_mem_filter uncalled
    exact ⟨newLine_ruleLine shape known, .inr ⟨r, known, rfl⟩⟩

theorem missing_newLines (lines : List Bytes) : missing rules (newLines rules lines) = [] := by
  refine List.filter_eq_nil_iff.mpr fun r member => ?_
  have there := ruleLine_mem_newLines rules lines member
  simp only [List.all_eq_true, decide_eq_true_eq, not_forall, not_not]
  exact ⟨ruleLine r, there, find_ruleLine shape member⟩

/-- The lines that no rule is about stay as they are and in their order. -/
theorem filter_newLines (lines : List Bytes) :
    (newLines rules lines).filter (untouched rules) = lines.filter (untouched rules) := by
  have added : ((missing rules lines).map ruleLine).filter (untouched rules) = [] := by
    refine List.filter_eq_nil_iff.mpr fun line member => ?_
    obtain ⟨r, uncalled, rfl⟩ := List.mem_map.mp member
    rw [untouched, find_ruleLine shape (List.mem_of_mem_filter uncalled)]
    simp
  rw [newLines, List.filter_append, added, List.append_nil]
  refine filter_map_fixed _ _ lines (fun l _ => ?_) fun l _ plain => ?_
  · rw [untouched, untouched, find_newLine shape]
  · exact newLine_of_none rules (Option.isNone_iff_eq_none.mp plain)

theorem newLines_plain (lines : List Bytes) (plain : ∀ l ∈ lines, l ≠ [] ∧ newline ∉ l) :
    ∀ l ∈ newLines rules lines, l ≠ [] ∧ newline ∉ l := by
  intro l member
  rcases (mem_newLines shape member).2 with old | ⟨r, known, rfl⟩
  · exact plain l old
  · exact ⟨shape.nonempty r known, shape.oneLine r known⟩

theorem textLines_written (lines : List Bytes) (plain : ∀ l ∈ lines, l ≠ [] ∧ newline ∉ l) :
    textLines (written (newLines rules lines)) = newLines rules lines := by
  have read := textLines_written_append _ (newLines_plain shape lines plain) []
  rwa [List.append_nil, textLines_nil, List.append_nil] at read

theorem written_nulFree (lines : List Bytes) (free : ∀ l ∈ lines, 0 ∉ l) :
    0 ∉ written (newLines rules lines) := by
  intro zero
  obtain ⟨l, member, inside⟩ := List.mem_flatMap.mp zero
  have text : 0 ∈ l := by simpa [newline] using inside
  rcases (mem_newLines shape member).2 with old | ⟨r, known, rfl⟩
  · exact free l old text
  · exact shape.nulFree r known text

end Rules

theorem readFileAll_nulFree (bufSz : Nat) (text : Bytes) (free : 0 ∉ text) :
    HomeWifi.readFileAll bufSz (some text) = some (text.take (bufSz - 1)) := by
  have clean : 0 ∉ text.take (bufSz - 1) := fun zero => free (List.mem_of_mem_take zero)
  rw [HomeWifi.readFileAll, Option.map_some, (cstr_eq_self_iff _).mpr clean]

theorem run_readFileAll (c : Conf) (bufSz : Nat) (d : ConfDisk) :
    run (ConfigUpdates.readFileAll c bufSz) d .none =
      (d, some (HomeWifi.readFileAll bufSz (d (.conf c)), .none)) := by
  cases file : d (.conf c) with
  | none => exact run_readFileAll_missing c bufSz d .none file
  | some content => exact run_readFileAll_present c bufSz d .none content file

def seenLines (bufSz : Nat) (file : Option Bytes) : List Bytes :=
  ((HomeWifi.readFileAll bufSz file).map textLines).getD []

theorem seenLines_some (bufSz : Nat) (content : Bytes) :
    seenLines bufSz (some content) = textLines (cstr (content.take (bufSz - 1))) := rfl

theorem seenLines_plain (bufSz : Nat) (file : Option Bytes) :
    ∀ l ∈ seenLines bufSz file, l ≠ [] ∧ newline ∉ l := by
  intro l member
  cases file with
  | none => cases member
  | some content =>
      exact ⟨by simpa using List.of_mem_filter member, not_mem_textLines newline _ l (.inl rfl) member⟩

theorem seenLines_nulFree (bufSz : Nat) (file : Option Bytes) :
    ∀ l ∈ seenLines bufSz file, 0 ∉ l := by
  intro l member
  cases file with
  | none => cases member
  | some content => exact not_mem_textLines 0 _ l (.inr (zero_not_mem_cstr _)) member

theorem linesLength_seenLines_le (bufSz : Nat) (pos : 0 < bufSz) (file : Option Bytes) :
    linesLength (seenLines bufSz file) ≤ bufSz := by
  cases file with
  | none => exact Nat.zero_le bufSz
  | some content =>
      have size := linesLength_textLines_le (cstr (content.take (bufSz - 1)))
      have kept := (List.takeWhile_prefix (fun c : UInt8 => c != 0)
        (l := content.take (bufSz - 1))).length_le
      rw [List.length_take] at kept
      rw [seenLines_some]
      rw [cstr] at size ⊢
      omega

section Band

/-- What `read_band` makes of a line, if it takes it for a BAND line. -/
def lineBand (line : Bytes) : Option Band :=
  match parseLine .rk3566 line with
  | none => none
  | some field =>
      if field.1 = bandKey then
        some (if field.2 = ascii "5G" ∨ field.2 = ascii "5g" then .band5g else .band2g)
      else none

/-- The lines that `persist_band` replaces. -/
def recognised (line : Bytes) : Bool := (bandRule .band5g).applies line

def bandLine (band : Band) : Bytes := ruleLine (bandRule band)

theorem readBand_eq (seen : Option Bytes) :
    readBand seen = (((seen.map textLines).getD []).findSome? lineBand).getD .band2g := by
  cases seen with
  | none => rfl
  | some buf =>
      rw [readBand, Option.map_some, Option.getD_some]
      induction textLines buf with
      | nil => rfl
      | cons line lines ih =>
          rw [List.filterMap_cons, List.findSome?_cons]
          cases parsed : parseLine .rk3566 line with
          | none =>
              rw [lineBand, parsed]
              exact ih
          | some field =>
              rw [lineBand, parsed]
              by_cases key : field.1 = bandKey
              · simp [key]
              · simp only [List.find?_cons, key, decide_false, if_false]
                exact ih

theorem recognised_eq (band : Band) (line : Bytes) : (bandRule band).applies line = recognised line := rfl

/-- Every line that is replaced is one that the reader would take. -/
theorem lineBand_of_recognised (line : Bytes) (replaced : recognised line = true) :
    (lineBand line).isSome = true := by
  have cut : ∀ front rest : Bytes, front.head? = some 0x42 → equals ∉ front →
      stripRight blankOrEol front = bandKey → stripLeft blank line = front ++ equals :: rest →
        (lineBand line).isSome = true := by
    intro front rest head free key begins
    have trimmed : stripRight blankOrEol (stripLeft blank line) =
        front ++ equals :: stripRight blankOrEol rest := by
      rw [begins, stripRight_append_of_not _ _ _ _ rfl]
    have first : (front ++ equals :: stripRight blankOrEol rest).head? = some 0x42 := by
      rw [List.head?_append, head, Option.some_or]
    have kept : ¬(front ++ equals :: stripRight blankOrEol rest = [] ∨
        (front ++ equals :: stripRight blankOrEol rest).head? = some hash) := by
      rw [first]
      simp [HomeWifi.hash]
    rw [lineBand, parseLine]
    simp only [trimmed, if_neg kept, cutAt_append equals front _ free, Option.map_some, key, if_true,
      Option.isSome_some]
  have keys : recognised line = ((ascii "BAND=").isPrefixOf (stripLeft blank line) ||
      ((ascii "BAND =").isPrefixOf (stripLeft blank line) || false)) := rfl
  rw [keys, Bool.or_false, Bool.or_eq_true, List.isPrefixOf_iff_prefix, List.isPrefixOf_iff_prefix]
    at replaced
  rcases replaced with ⟨rest, begins⟩ | ⟨rest, begins⟩
  · exact cut bandKey rest rfl (by decide) (by decide) begins.symm
  · exact cut (ascii "BAND ") rest rfl (by decide) (by decide) begins.symm

theorem bandRules (band : Band) : LineRules [bandRule band] := by
  have exclusive : ∀ r ∈ [bandRule band], ∀ line, r.applies line = true →
      [bandRule band].find? (·.applies line) = some r := by
    intro r member line applies
    rw [List.mem_singleton.mp member] at applies ⊢
    rw [List.find?_cons, applies]
  cases band <;>
  exact ⟨by decide, by decide, by decide, by decide, by decide, exclusive⟩

theorem lineBand_bandLine (band : Band) : lineBand (bandLine band) = some band := by
  cases band <;> decide

theorem readBand_cut (band : Band) (k : Nat) (short : k < (bandLine band).length) :
    ((textLines ((bandLine band).take k)).findSome? lineBand).getD .band2g = .band2g := by
  have cut2g : ∀ k < (bandLine .band2g).length,
      ((textLines ((bandLine .band2g).take k)).findSome? lineBand).getD .band2g = .band2g := by decide
  have cut5g : ∀ k < (bandLine .band5g).length,
      ((textLines ((bandLine .band5g).take k)).findSome? lineBand).getD .band2g = .band2g := by decide
  cases band with
  | band2g => exact cut2g k short
  | band5g => exact cut5g k short

section ReadBack
variable (before : List Bytes) (line : Bytes) (after : List Bytes)
  (plain : ∀ l ∈ before, l ≠ [] ∧ newline ∉ l) (quiet : ∀ l ∈ before, lineBand l = none)
  (bound : linesLength before ≤ 2048)
include plain quiet bound

theorem readBand_written :
    readBand (some ((written (before ++ line :: after)).take 2047)) =
      ((textLines ((line ++ newline :: written after).take (2047 - linesLength before))).findSome?
        lineBand).getD .band2g := by
  have shape : written (before ++ line :: after) =
      before.flatMap (· ++ [newline]) ++ (line ++ newline :: written after) := by
    simp [written]
  have silent : before.findSome? lineBand = none := List.findSome?_eq_none_iff.mpr quiet
  rw [readBand_eq, shape, Option.map_some, Option.getD_some,
    textLines_take_written before plain _ _ bound, List.findSome?_append, silent, Option.none_or]

/-- A BAND line that was not replaced is found first. -/
theorem readBand_written_old (band : Band) (ne : line ≠ []) (free : newline ∉ line)
    (whole : linesLength before + line.length ≤ 2047) (read : lineBand line = some band) :
    readBand (some ((written (before ++ line :: after)).take 2047)) = band := by
  obtain ⟨more, lines⟩ := textLines_take_line line (written after) (2047 - linesLength before) ne free
    (by omega)
  rw [readBand_written before line after plain quiet bound, lines, List.findSome?_cons, read,
    Option.getD_some]

theorem readBand_written_new (band : Band) :
    readBand (some ((written (before ++ bandLine band :: after)).take 2047)) = band ↔
      band = .band2g ∨ linesLength before + 9 ≤ 2047 := by
  rw [readBand_written before _ after plain quiet bound]
  by_cases whole : (bandLine band).length ≤ 2047 - linesLength before
  · have ruled := bandRules band
    obtain ⟨more, lines⟩ := textLines_take_line (bandLine band) (written after) _
      (ruled.nonempty _ List.mem_cons_self) (ruled.oneLine _ List.mem_cons_self) whole
    rw [lines, List.findSome?_cons, lineBand_bandLine, Option.getD_some]
    refine iff_of_true rfl ?_
    cases band with
    | band2g => exact .inl rfl
    | band5g =>
        have nine : (bandLine .band5g).length = 9 := by decide
        exact .inr (by omega)
  · have short := Nat.lt_of_not_le whole
    rw [List.take_append_of_le_length (by omega), readBand_cut band _ short]
    cases band with
    | band2g => exact iff_of_true rfl (.inl rfl)
    | band5g =>
        have nine : (bandLine .band5g).length = 9 := by decide
        refine iff_of_false (by decide) ?_
        rintro (other | room)
        · cases other
        · omega

end ReadBack

def isBandLine (line : Bytes) : Bool := (lineBand line).isSome

/-- The first BAND line is one that is replaced, or there is none; and the reader's buffer
takes the new line, unless it may as well miss it. -/
def Sticks (band : Band) (lines : List Bytes) : Prop :=
  (lines.findSome? lineBand).getD .band2g = band ∨
    (lines.find? isBandLine).all recognised = true ∧
      (band = .band2g ∨ linesLength (lines.takeWhile fun l => !isBandLine l) + 9 ≤ 2047)

theorem newLine_band (band : Band) (line : Bytes) :
    newLine [bandRule band] line = if recognised line = true then bandLine band else line := by
  rw [newLine, List.find?_cons, recognised_eq]
  cases recognised line <;> rfl

theorem newLine_quiet (band : Band) (line : Bytes) (quiet : isBandLine line = false) :
    newLine [bandRule band] line = line := by
  rw [newLine_band, if_neg]
  intro replaced
  rw [isBandLine, lineBand_of_recognised line replaced] at quiet
  cases quiet

theorem map_newLine_quiet (band : Band) (lines : List Bytes)
    (quiet : ∀ l ∈ lines, isBandLine l = false) : lines.map (newLine [bandRule band]) = lines :=
  (List.map_congr_left fun l member => newLine_quiet band l (quiet l member)).trans (List.map_id' _)

theorem missing_quiet (band : Band) (lines : List Bytes)
    (quiet : ∀ l ∈ lines, isBandLine l = false) : missing [bandRule band] lines = [bandRule band] := by
  refine List.filter_eq_self.mpr fun r member => ?_
  rw [List.mem_singleton.mp member, List.all_eq_true]
  intro l inside
  have unfound : [bandRule band].find? (·.applies l) = none := by
    rw [List.find?_cons, recognised_eq]
    cases replaced : recognised l with
    | false => rfl
    | true =>
        have quiet_l := quiet l inside
        rw [isBandLine, lineBand_of_recognised l replaced] at quiet_l
        cases quiet_l
  rw [unfound]
  simp

section Quiet
variable (lines : List Bytes) (quiet : ∀ l ∈ lines, isBandLine l = false)
include quiet

theorem lineBand_of_quiet : ∀ l ∈ lines, lineBand l = none := by
  intro l member
  simpa [isBandLine] using quiet l member

theorem takeWhile_quiet_append (rest : List Bytes) :
    (lines ++ rest).takeWhile (fun l => !isBandLine l) =
      lines ++ rest.takeWhile fun l => !isBandLine l := by
  refine List.takeWhile_append_of_pos fun l member => ?_
  rw [quiet l member]
  rfl

end Quiet

theorem readBand_newLines (band : Band) (lines : List Bytes)
    (plain : ∀ l ∈ lines, l ≠ [] ∧ newline ∉ l) (bound : linesLength lines ≤ 2048)
    (other : (lines.findSome? lineBand).getD .band2g ≠ band) :
    readBand (some ((written (newLines [bandRule band] lines)).take 2047)) = band ↔
      Sticks band lines := by
  have stays : Sticks band lines ↔ (lines.find? isBandLine).all recognised = true ∧
      (band = .band2g ∨ linesLength (lines.takeWhile fun l => !isBandLine l) + 9 ≤ 2047) := by
    rw [Sticks, or_iff_right other]
  rw [stays]
  cases found : lines.find? isBandLine with
  | none =>
      have quiet : ∀ l ∈ lines, isBandLine l = false := by simpa using found
      have all : lines.takeWhile (fun l => !isBandLine l) = lines := by
        simpa using takeWhile_quiet_append lines quiet []
      have none := lineBand_of_quiet lines quiet
      rw [newLines, map_newLine_quiet band lines quiet, missing_quiet band lines quiet, all,
        Option.all_none, eq_self, true_and]
      exact readBand_written_new lines [] plain none bound band
  | some line =>
      obtain ⟨taken, before, after, rfl, silent⟩ := List.find?_eq_some_iff_append.mp found
      have quiet : ∀ l ∈ before, isBandLine l = false := by simpa using silent
      have none := lineBand_of_quiet before quiet
      have split : (before ++ line :: after).takeWhile (fun l => !isBandLine l) = before := by
        rw [takeWhile_quiet_append before quiet, List.takeWhile_cons_of_neg (by simp [taken]),
          List.append_nil]
      have plain_before : ∀ l ∈ before, l ≠ [] ∧ newline ∉ l := fun l member =>
        plain l (List.mem_append_left _ member)
      have plain_line := plain line (List.mem_append_right _ List.mem_cons_self)
      rw [linesLength_append, linesLength_cons] at bound
      rw [newLines, List.map_append, List.map_cons, map_newLine_quiet band before quiet,
        List.append_assoc, List.cons_append, newLine_band, split, Option.all_some]
      cases replaced : recognised line with
      | true =>
          rw [if_pos rfl, eq_self, true_and]
          exact readBand_written_new before _ plain_before none (by omega) band
      | false =>
          obtain ⟨old, read⟩ := Option.isSome_iff_exists.mp taken
          have kept := readBand_written_old before line
            (after.map (newLine [bandRule band]) ++
              (missing [bandRule band] (before ++ line :: after)).map ruleLine)
            plain_before none (by omega) old plain_line.1 plain_line.2 (by omega) read
          have first : (before ++ line :: after).findSome? lineBand = some old := by
            rw [List.findSome?_append, List.findSome?_eq_none_iff.mpr none, Option.none_or,
              List.findSome?_cons, read]
          rw [first, Option.getD_some] at other
          rw [if_neg (by decide), kept]
          exact iff_of_false other (by simp)

theorem run_persistBand (band : Band) (d : ConfDisk) :
    run (persistBand band) d .none =
      if readBand (HomeWifi.readFileAll 2048 (d (.conf .band))) = band then (d, some (true, .none))
      else run (rewriteBand band (HomeWifi.readFileAll 2048 (d (.conf .band)))) d .none := by
  rw [persistBand, run_bind, run_readFileAll]
  split_ifs with already
  · simp only [already, if_true]
    rfl
  · simp only [already, if_false]
    rw [lookAgain, run_bind, run_readFileAll]

/-- The file after a success of `persist_band`: nothing was to be done, or it was rewritten. -/
def Persisted (band : Band) (old new : Option Bytes) : Prop :=
  (readBand (HomeWifi.readFileAll 2048 old) = band ∧ new = old) ∨
    (readBand (HomeWifi.readFileAll 2048 old) ≠ band ∧
      new = some (written (newLines [bandRule band] (seenLines 2048 old))))

theorem persistBand_returned {band : Band} {d d' : ConfDisk} {f' : Fault}
    (returned : run (persistBand band) d .none = (d', some (true, f'))) :
    Persisted band (d (.conf .band)) (d' (.conf .band)) := by
  rw [run_persistBand] at returned
  split_ifs at returned with already
  · cases returned
    exact .inl ⟨already, rfl⟩
  · refine .inr ⟨already, ?_⟩
    rw [rewriteBand] at returned
    cases rendered : bandText band (HomeWifi.readFileAll 2048 (d (.conf .band))) with
    | none =>
        rw [rendered] at returned
        cases returned
    | some out =>
        have replaced := (atomicWriteFile_faultless .band out d).1
        rw [rendered] at returned
        simp only at returned
        rw [returned, rewriteLines_written (bandRules band) rendered] at replaced
        exact replaced

theorem Persisted.readBand_iff {band : Band} {old new : Option Bytes}
    (persisted : Persisted band old new) :
    readBand (HomeWifi.readFileAll 2048 new) = band ↔ Sticks band (seenLines 2048 old) := by
  have lines := readBand_eq (HomeWifi.readFileAll 2048 old)
  rcases persisted with ⟨already, rfl⟩ | ⟨other, rfl⟩
  · exact iff_of_true already (.inl (lines.symm.trans already))
  · have free := written_nulFree (bandRules band) _ (seenLines_nulFree 2048 old)
    rw [lines] at other
    rw [readFileAll_nulFree 2048 _ free]
    exact readBand_newLines band _ (seenLines_plain 2048 _) (linesLength_seenLines_le 2048 (by decide) _)
      other

/-- Once `persist_band` has returned 0, `read_band` gives the requested band exactly if
the file was one that sticks to it. -/
theorem persistBand_read_iff (band : Band) (d d' : ConfDisk) (f' : Fault)
    (returned : run (persistBand band) d .none = (d', some (true, f'))) :
    readBand (HomeWifi.readFileAll 2048 (d' (.conf .band))) = band ↔
      Sticks band (seenLines 2048 (d (.conf .band))) :=
  (persistBand_returned returned).readBand_iff

def bandDisk (content : Option Bytes) : ConfDisk
  | .conf .band => content
  | _ => none

theorem persistBand_read_five :
    (run (persistBand .band5g) (bandDisk (some (ascii "BAND = 2.4G\n"))) .none).2 =
        some (true, .none) ∧
      readBand (HomeWifi.readFileAll 2048
        ((run (persistBand .band5g) (bandDisk (some (ascii "BAND = 2.4G\n"))) .none).1
          (.conf .band))) = .band5g := by
  have success : (run (persistBand .band5g) (bandDisk (some (ascii "BAND = 2.4G\n"))) .none).2 =
      some (true, .none) := by decide +kernel
  have sticks : Sticks .band5g (seenLines 2048 (some (ascii "BAND = 2.4G\n"))) :=
    .inr ⟨by decide +kernel, .inr (by decide +kernel)⟩
  exact ⟨success, (persistBand_read_iff .band5g _ _ .none (Prod.ext rfl success)).mpr sticks⟩

/-- Two blanks before the equals sign: the line stays, the new one comes after it, and
the reader still takes the old one. -/
theorem persistBand_misses_blanks :
    (run (persistBand .band5g) (bandDisk (some (ascii "BAND  = 2.4G\n"))) .none).2 =
        some (true, .none) ∧
      (run (persistBand .band5g) (bandDisk (some (ascii "BAND  = 2.4G\n"))) .none).1 (.conf .band) =
        some (ascii "BAND  = 2.4G\nBAND='5G'\n") ∧
      readBand (HomeWifi.readFileAll 2048 (some (ascii "BAND  = 2.4G\nBAND='5G'\n"))) = .band2g := by
  decide +kernel

end Band

end WfyApp.ConfRewrites
