import WfyApp.ConfRewrites

/-! What the updates of hostapd.conf and wifi_band.conf keep of the file when all file
operations work, and what a second update does. Both read the file through a buffer and so
see only its beginning. -/

namespace WfyApp.ConfFrames
open ByteText NumberText HomeWifi WpaConfig FileFaults ConfigUpdates ConfRewrites

/-- There are lines of the kind, and each is a good one. -/
structure Carries (own : Bytes → Bool) (good : Bytes → Prop) (lines : List Bytes) : Prop where
  present : ∃ l ∈ lines, own l = true
  valued : ∀ l ∈ lines, own l = true → good l

def otherLines (own : Bytes → Bool) (lines : List Bytes) : List Bytes :=
  lines.filter fun l => !own l && !l.all isspace

def fileLines (file : Option Bytes) : List Bytes := (file.map textLines).getD []

def ruled (rules : List Rule) (line : Bytes) : Bool := rules.any (·.applies line)

theorem otherLines_eq (own : Bytes → Bool) (lines : List Bytes) :
    otherLines own lines = (lines.filter (!own ·)).filter (!List.all · isspace) := by
  rw [otherLines, List.filter_filter]
  exact List.filter_congr fun l _ => Bool.and_comm _ _

theorem not_ruled (rules : List Rule) (line : Bytes) : (!ruled rules line) = untouched rules line := by
  rw [ruled, untouched, Bool.eq_iff_iff]
  simp

section Rules
variable {rules : List Rule} (shape : LineRules rules) (lines : List Bytes)
include shape

theorem fileLines_written (bufSz : Nat) (file : Option Bytes) :
    fileLines (some (written (newLines rules (seenLines bufSz file)))) =
      newLines rules (seenLines bufSz file) :=
  textLines_written shape _ (seenLines_plain bufSz file)

theorem newLines_carries : ∀ r ∈ rules,
    Carries r.applies (· = ruleLine r) (newLines rules lines) := by
  intro r member
  refine ⟨⟨ruleLine r, ruleLine_mem_newLines rules lines member, shape.own r member⟩, ?_⟩
  intro l inside applies
  rw [← (mem_newLines shape inside).1]
  exact newLine_of_some rules (shape.exclusive r member l applies)

theorem otherLines_newLines :
    otherLines (ruled rules) (newLines rules lines) = otherLines (ruled rules) lines := by
  have plain := filter_newLines shape lines
  rw [otherLines_eq, otherLines_eq]
  simp only [not_ruled, plain]

end Rules

section Cut

/-- What an update restores when it reads only the first `n` bytes: the lines that it has
read but for the line break, those it adds after them, and a line of its own that is cut
behind the beginning by which it is known. -/
inductive Restored (rules : List Rule) (n : Nat) : List Bytes → Prop where
  | short (lines : List Bytes) (fits : linesLength lines ≤ n + 1) : Restored rules n lines
  | between (before : List Bytes) (lower : n ≤ linesLength before)
      (upper : linesLength before ≤ n + 1) :
      Restored rules n (before ++ (missing rules before).map ruleLine)
  | inside (before : List Bytes) (r : Rule) (member : r ∈ rules)
      (lower : linesLength before < n) (upper : n < linesLength before + (ruleLine r).length)
      (known : r.applies ((ruleLine r).take (n - linesLength before)) = true) :
      Restored rules n
        (before ++ ruleLine r :: (missing rules (before ++ [ruleLine r])).map ruleLine)

theorem exists_line_at (m : Nat) (lines : List Bytes) (long : m < linesLength lines) :
    ∃ before line after, lines = before ++ line :: after ∧ linesLength before ≤ m ∧
      m < linesLength before + (line.length + 1) := by
  induction lines generalizing m with
  | nil => exact absurd long (Nat.not_lt_zero m)
  | cons first lines ih =>
      rw [linesLength_cons] at long
      by_cases behind : first.length + 1 ≤ m
      · obtain ⟨before, line, after, rfl, lower, upper⟩ :=
          ih (m - (first.length + 1)) (by omega)
        refine ⟨first :: before, line, after, rfl, ?_, ?_⟩
        all_goals
          rw [linesLength_cons]
          omega
      · exact ⟨[], first, lines, rfl, Nat.zero_le m, by rw [linesLength_nil]; omega⟩

theorem cut_short (n : Nat) (lines : List Bytes) (plain : ∀ l ∈ lines, l ≠ [] ∧ newline ∉ l)
    (fits : linesLength lines ≤ n + 1) : textLines ((written lines).take n) = lines := by
  have read := textLines_take_written lines plain [] n fits
  rwa [List.append_nil, List.take_nil, textLines_nil, List.append_nil] at read

section Before
variable {n : Nat} (before after : List Bytes)
  (plain : ∀ l ∈ before ++ after, l ≠ [] ∧ newline ∉ l) (upper : linesLength before ≤ n + 1)
include plain upper

theorem cut_append : textLines ((written (before ++ after)).take n) =
    before ++ textLines ((written after).take (n - linesLength before)) := by
  rw [written, List.flatMap_append]
  exact textLines_take_written before (fun l member => plain l (List.mem_append_left _ member)) _ n
    upper

theorem cut_between (lower : n ≤ linesLength before) :
    textLines ((written (before ++ after)).take n) = before := by
  rw [cut_append before after plain upper, Nat.sub_eq_zero_of_le lower, List.take_zero, textLines_nil,
    List.append_nil]

end Before

theorem cut_inside {n : Nat} (before : List Bytes) (line : Bytes) (after : List Bytes)
    (plain : ∀ l ∈ before ++ line :: after, l ≠ [] ∧ newline ∉ l) (lower : linesLength before < n)
    (upper : n < linesLength before + line.length) :
    textLines ((written (before ++ line :: after)).take n) =
      before ++ [line.take (n - linesLength before)] := by
  obtain ⟨ne, free⟩ := plain line (List.mem_append_right _ List.mem_cons_self)
  have part : (written (line :: after)).take (n - linesLength before) =
      line.take (n - linesLength before) := by
    rw [written, List.flatMap_cons, List.append_assoc, List.take_append_of_le_length (by omega)]
  have some_left : line.take (n - linesLength before) ≠ [] := by
    rw [Ne, List.take_eq_nil_iff, not_or]
    exact ⟨by omega, ne⟩
  rw [cut_append before _ plain (by omega), part,
    textLines_of_oneLine _ (fun inside => free (List.mem_of_mem_take inside)) some_left]

section Rules
variable {rules : List Rule} (shape : LineRules rules)

theorem missing_congr (before : List Bytes) {line line' : Bytes}
    (same : rules.find? (·.applies line) = rules.find? (·.applies line')) :
    missing rules (before ++ [line]) = missing rules (before ++ [line']) := by
  simp only [missing, List.all_append, List.all_cons, List.all_nil, same]

theorem newLines_concat (before : List Bytes) (line : Bytes)
    (fixed : ∀ l ∈ before, newLine rules l = l) :
    newLines rules (before ++ [line]) =
      before ++ newLine rules line :: (missing rules (before ++ [line])).map ruleLine := by
  have same : before.map (newLine rules) = before :=
    (List.map_congr_left fixed).trans (List.map_id' _)
  rw [newLines, List.map_append, List.map_singleton, same, List.append_assoc, List.singleton_append]

theorem newLines_fixed (before : List Bytes) (fixed : ∀ l ∈ before, newLine rules l = l) :
    newLines rules before = before ++ (missing rules before).map ruleLine := by
  rw [newLines, List.map_congr_left fixed, List.map_id']

theorem linesLength_missing_le (m : Nat) (bounded : ∀ r ∈ rules, (ruleLine r).length ≤ m)
    (seen : List Bytes) :
    linesLength ((missing rules seen).map ruleLine) ≤ rules.length * (m + 1) := by
  have each : ∀ k ∈ ((missing rules seen).map ruleLine).map (fun l => l.length + 1), k ≤ m + 1 := by
    simp only [List.map_map, List.mem_map, Function.comp_apply]
    rintro _ ⟨r, uncalled, rfl⟩
    exact Nat.succ_le_succ (bounded r (List.mem_of_mem_filter uncalled))
  have total := List.sum_le_card_nsmul _ _ each
  rw [List.length_map, List.length_map, smul_eq_mul] at total
  exact total.trans (Nat.mul_le_mul_right _ (List.length_filter_le _ _))

theorem length_newLine_le (m : Nat) (bounded : ∀ r ∈ rules, (ruleLine r).length ≤ m)
    (line : Bytes) : (newLine rules line).length ≤ line.length + m := by
  cases found : rules.find? (·.applies line) with
  | none =>
      rw [newLine_of_none rules found]
      exact Nat.le_add_right _ m
  | some r =>
      rw [newLine_of_some rules found]
      exact (bounded r (List.mem_of_find?_eq_some found)).trans (Nat.le_add_left m _)

section Second
variable {n : Nat} {lines : List Bytes} (plain : ∀ l ∈ lines, l ≠ [] ∧ newline ∉ l)
  (fixed : ∀ l ∈ lines, newLine rules l = l)
include plain fixed

theorem linesLength_cut_le (m : Nat) (bounded : ∀ r ∈ rules, (ruleLine r).length ≤ m) :
    linesLength (newLines rules (textLines ((written lines).take n))) ≤
      n + 1 + m + rules.length * (m + 1) := by
  have added : ∀ seen, linesLength ((missing rules seen).map ruleLine) ≤ rules.length * (m + 1) :=
    linesLength_missing_le m bounded
  by_cases fits : linesLength lines ≤ n + 1
  · have extra := added lines
    rw [cut_short n lines plain fits, newLines_fixed lines fixed, linesLength_append]
    omega
  · obtain ⟨before, line, after, rfl, upper, behind⟩ :=
      exists_line_at (n + 1) lines (Nat.lt_of_not_le fits)
    have kept : ∀ l ∈ before, newLine rules l = l := fun l member =>
      fixed l (List.mem_append_left _ member)
    rcases Nat.lt_or_ge (linesLength before) n with lower | lower
    · have extra := added (before ++ [line.take (n - linesLength before)])
      have last := length_newLine_le m bounded (line.take (n - linesLength before))
      rw [List.length_take] at last
      rw [cut_inside before line after plain lower (by omega), newLines_concat before _ kept,
        linesLength_append, linesLength_cons]
      omega
    · have extra := added before
      rw [cut_between before _ plain upper lower, newLines_fixed before kept, linesLength_append]
      omega

variable (complete : missing rules lines = [])
include shape complete

/-- A second update gives the lines again exactly if it restores them. -/
theorem newLines_cut_iff :
    newLines rules (textLines ((written lines).take n)) = lines ↔ Restored rules n lines := by
  constructor
  · intro again
    by_cases fits : linesLength lines ≤ n + 1
    · exact .short lines fits
    · obtain ⟨before, line, after, rfl, upper, behind⟩ :=
        exists_line_at (n + 1) lines (Nat.lt_of_not_le fits)
      have kept : ∀ l ∈ before, newLine rules l = l := fun l member =>
        fixed l (List.mem_append_left _ member)
      rcases Nat.lt_or_ge (linesLength before) n with lower | lower
      · rw [cut_inside before line after plain lower (by omega), newLines_concat before _ kept,
          List.append_cancel_left_eq, List.cons.injEq] at again
        obtain ⟨completed, rfl⟩ := again
        cases found : rules.find? (·.applies (line.take (n - linesLength before))) with
        | none =>
            -- a line that no rule is about stays cut
            rw [newLine_of_none rules found] at completed
            have length := congrArg List.length completed
            rw [List.length_take] at length
            omega
        | some r =>
            have member := List.mem_of_find?_eq_some found
            rw [newLine_of_some rules found] at completed
            subst completed
            rw [missing_congr before (found.trans (find_ruleLine shape member).symm)]
            exact .inside before r member lower (by omega) (by simpa using List.find?_some found)
      · rw [cut_between before _ plain upper lower, newLines_fixed before kept,
          List.append_cancel_left_eq] at again
        rw [← again]
        exact .between before lower upper
  · intro restored
    cases restored with
    | short _ fits =>
        rw [cut_short n lines plain fits, newLines_fixed lines fixed, complete, List.map_nil,
          List.append_nil]
    | between before lower upper =>
        rw [cut_between before _ plain upper lower, newLines_fixed before fun l member =>
          fixed l (List.mem_append_left _ member)]
    | inside before r member lower upper known =>
        have found := shape.exclusive r member _ known
        rw [cut_inside before _ _ plain lower upper, newLines_concat before _ fun l member =>
          fixed l (List.mem_append_left _ member), newLine_of_some rules found,
          missing_congr before (found.trans (find_ruleLine shape member).symm)]

end Second

include shape

/-- What a second update writes, and when it is what was there. -/
theorem rewriteLines_second (n cap m : Nat) (bounded : ∀ r ∈ rules, (ruleLine r).length ≤ m)
    (room : n + 1 + m + rules.length * (m + 1) < cap) (lines : List Bytes)
    (plain : ∀ l ∈ lines, l ≠ [] ∧ newline ∉ l) (free : ∀ l ∈ lines, 0 ∉ l) :
    ∃ out, rewriteLines cap rules
        (seenLines (n + 1) (some (written (newLines rules lines)))) = some out ∧
      (out = written (newLines rules lines) ↔ Restored rules n (newLines rules lines)) := by
  have plain' := newLines_plain shape lines plain
  have fixed : ∀ l ∈ newLines rules lines, newLine rules l = l := fun l member =>
    (mem_newLines shape member).1
  have seen : seenLines (n + 1) (some (written (newLines rules lines))) =
      textLines ((written (newLines rules lines)).take n) := by
    rw [seenLines, readFileAll_nulFree _ _ (written_nulFree shape lines free)]
    rfl
  have size := linesLength_cut_le (n := n) plain' fixed m bounded
  have fits := Nat.lt_of_le_of_lt size room
  rw [← length_flatMap_newline] at fits
  refine ⟨_, by rw [seen]; exact rewriteLines_of_lt shape cap _ fits, ?_⟩
  rw [← newLines_cut_iff shape plain' fixed (missing_newLines shape lines)]
  constructor
  · intro same
    have read := congrArg textLines same
    have part := seenLines_plain (n + 1) (some (written (newLines rules lines)))
    rw [seen] at part
    rwa [textLines_written shape _ part, textLines_written shape _ plain] at read
  · exact congrArg written

end Rules

end Cut

theorem digits_free (channel : Int) (c : UInt8) (other : c ≠ hyphen) (low : c < 0x30) :
    c ∉ signed channel := by
  have digits : ∀ n, c ∉ decimal n := fun n member =>
    absurd (decimal_digits n c member).1 (UInt8.not_le.mpr low)
  rw [signed]
  split_ifs
  · rw [List.mem_cons, not_or]
    exact ⟨other, digits _⟩
  · exact digits _

theorem hostapdRules_lines (channel : Int) (band : Band) : LineRules (hostapdRules channel band) := by
  have nul := digits_free channel 0 (by decide) (by decide)
  have eol := digits_free channel newline (by decide) (by decide)
  have hw : newline ∉ bandToHwMode band ∧ 0 ∉ bandToHwMode band := by cases band <;> decide
  refine ⟨?_, ?_, ?_, ?_, ?_, ?_⟩
  all_goals
    simp only [hostapdRules, List.forall_mem_cons, List.not_mem_nil, false_implies, implies_true,
      and_true, ruleLine, List.dropLast_concat, Rule.applies, List.any_cons, List.any_nil,
      Bool.or_false]
  · exact ⟨by simp [ascii], by simp [ascii]⟩
  · exact ⟨by simp [eol]; decide, by simp [hw]; decide⟩
  · exact ⟨by simp [nul]; decide, by simp [hw]; decide⟩
  · exact ⟨rfl, rfl⟩
  · refine ⟨fun line applies => ?_, fun line applies => ?_⟩
    · simp only [List.find?_cons, List.any_cons, List.any_nil, Bool.or_false, applies]
    · have unlike : (ascii "channel=").isPrefixOf (stripLeft blank line) = false := by
        rw [List.isPrefixOf_iff_prefix] at applies
        obtain ⟨rest, begins⟩ := applies
        rw [← begins]
        rfl
      simp only [List.find?_cons, List.any_cons, List.any_nil, Bool.or_false, unlike, applies]

section Hostapd
variable {channel : Int} {band : Band} {d d' : ConfDisk} {f' : Fault}

theorem hostapdText_seen (channel : Int) (band : Band) (old : Bytes) :
    (HomeWifi.readFileAll 8192 (some old)).bind (hostapdText channel band) =
      rewriteLines 9216 (hostapdRules channel band) (seenLines 8192 (some old)) := rfl

theorem run_rewriteHostapdChannel (channel : Int) (band : Band) (d : ConfDisk) :
    run (rewriteHostapdChannel channel band) d .none =
      run (writeHostapd ((HomeWifi.readFileAll 8192 (d (.conf .hostapd))).bind
        (hostapdText channel band))) d .none := by
  rw [rewriteHostapdChannel, run_bind, run_readFileAll]

theorem rewriteHostapdChannel_returned
    (returned : run (rewriteHostapdChannel channel band) d .none = (d', some (true, f'))) :
    d' (.conf .hostapd) = some (written
      (newLines (hostapdRules channel band) (seenLines 8192 (d (.conf .hostapd))))) := by
  rw [run_rewriteHostapdChannel] at returned
  cases file : d (.conf .hostapd) with
  | none =>
      rw [file] at returned
      cases returned
  | some old =>
      rw [file] at returned
      cases rendered : (HomeWifi.readFileAll 8192 (some old)).bind (hostapdText channel band) with
      | none =>
          rw [rendered] at returned
          cases returned
      | some new =>
          rw [rendered] at returned
          rw [hostapdText_seen] at rendered
          rw [writeFile_written _ new d d' .none f' returned,
            rewriteLines_written (hostapdRules_lines channel band) rendered]

/-- The other lines are kept exactly if all of them are in the part that was read. -/
theorem rewriteHostapdChannel_kept
    (returned : run (rewriteHostapdChannel channel band) d .none = (d', some (true, f'))) :
    (∀ r ∈ hostapdRules channel band,
      Carries r.applies (· = ruleLine r) (fileLines (d' (.conf .hostapd)))) ∧
    (otherLines (ruled (hostapdRules channel band)) (fileLines (d' (.conf .hostapd))) =
        otherLines (ruled (hostapdRules channel band)) (fileLines (d (.conf .hostapd))) ↔
      otherLines (ruled (hostapdRules channel band)) (seenLines 8192 (d (.conf .hostapd))) =
        otherLines (ruled (hostapdRules channel band)) (fileLines (d (.conf .hostapd)))) := by
  have shape := hostapdRules_lines channel band
  rw [rewriteHostapdChannel_returned returned, fileLines_written shape 8192]
  exact ⟨newLines_carries shape _, by rw [otherLines_newLines shape]⟩

theorem hostapdRules_bounded (int : -2 ^ 31 ≤ channel ∧ channel < 2 ^ 31) :
    ∀ r ∈ hostapdRules channel band, (ruleLine r).length ≤ 19 := by
  have digits := signed_length_le channel 10 (by decide) (by omega)
  have mode : (bandToHwMode band).length ≤ 1 := by cases band <;> decide
  have keys : (ascii "channel=").length = 8 ∧ (ascii "hw_mode=").length = 8 := by decide
  simp only [hostapdRules, List.forall_mem_cons, List.not_mem_nil, false_implies, implies_true,
    and_true, ruleLine, List.dropLast_concat, List.length_append]
  omega

theorem rewriteHostapdChannel_again (int : -2 ^ 31 ≤ channel ∧ channel < 2 ^ 31)
    (returned : run (rewriteHostapdChannel channel band) d .none = (d', some (true, f'))) :
    (run (rewriteHostapdChannel channel band) d' .none).1 (.conf .hostapd) = d' (.conf .hostapd) ↔
      Restored (hostapdRules channel band) 8191 (fileLines (d' (.conf .hostapd))) := by
  have shape := hostapdRules_lines channel band
  obtain ⟨out, rendered, same⟩ := rewriteLines_second shape 8191 9216 19 (hostapdRules_bounded int)
    (by simp [hostapdRules]) _ (seenLines_plain 8192 (d (.conf .hostapd)))
    (seenLines_nulFree 8192 (d (.conf .hostapd)))
  have stored : (run (writeHostapd (some out)) d' .none).1 (.conf .hostapd) = some out := by
    simp only [writeHostapd, run_writeFile, Function.update_self]
  rw [run_rewriteHostapdChannel, rewriteHostapdChannel_returned returned, hostapdText_seen, rendered,
    stored, Option.some_inj, same, fileLines_written shape 8192]

end Hostapd

section BandFile
variable {band : Band} {d d' : ConfDisk} {f' : Fault}

theorem isBandLine_bandLine (band : Band) : isBandLine (bandLine band) = true := by
  rw [isBandLine, lineBand_bandLine, Option.isSome_some]

theorem isBandLine_newLine (band : Band) (line : Bytes) :
    isBandLine (newLine [bandRule band] line) = isBandLine line := by
  rw [newLine_band]
  split_ifs with replaced
  · rw [isBandLine_bandLine, isBandLine, lineBand_of_recognised line replaced]
  · rfl

theorem otherLines_band (band : Band) (lines : List Bytes) :
    otherLines isBandLine (newLines [bandRule band] lines) = otherLines isBandLine lines := by
  have added : ((missing [bandRule band] lines).map ruleLine).filter (!isBandLine ·) = [] := by
    refine List.filter_eq_nil_iff.mpr fun l member => ?_
    obtain ⟨r, uncalled, rfl⟩ := List.mem_map.mp member
    rw [List.mem_singleton.mp (List.mem_of_mem_filter uncalled)]
    have kind : isBandLine (ruleLine (bandRule band)) = true := isBandLine_bandLine band
    rw [kind]
    simp
  have kept : (lines.map (newLine [bandRule band])).filter (!isBandLine ·) =
      lines.filter (!isBandLine ·) := by
    refine filter_map_fixed _ _ lines (fun l _ => ?_) fun l _ plain => ?_
    · rw [isBandLine_newLine]
    · exact newLine_quiet band l (by simpa using plain)
  rw [otherLines_eq, otherLines_eq, newLines, List.filter_append, added, List.append_nil, kept]

theorem carries_newLines_iff (band : Band) (lines : List Bytes) :
    Carries isBandLine (lineBand · = some band) (newLines [bandRule band] lines) ↔
      ∀ l ∈ lines, isBandLine l = true → recognised l = true ∨ lineBand l = some band := by
  have shape := bandRules band
  constructor
  · intro carries l member kind
    by_cases replaced : recognised l = true
    · exact .inl replaced
    · have same : newLine [bandRule band] l = l := by rw [newLine_band, if_neg replaced]
      have stays : l ∈ newLines [bandRule band] lines :=
        List.mem_append_left _ (List.mem_map.mpr ⟨l, member, same⟩)
      exact .inr (carries.valued l stays kind)
  · intro each
    refine ⟨⟨bandLine band, ruleLine_mem_newLines _ lines List.mem_cons_self,
      isBandLine_bandLine band⟩, fun l inside kind => ?_⟩
    obtain ⟨fixed, old | ⟨r, known, rfl⟩⟩ := mem_newLines shape inside
    · rcases each l old kind with replaced | good
      · rw [newLine_band, if_pos replaced] at fixed
        rw [← fixed, lineBand_bandLine]
      · exact good
    · rw [List.mem_singleton.mp known]
      exact lineBand_bandLine band

/-- What a wifi_band.conf must be for an update to do its work: if the band is there
already, a line must say so and none otherwise; if it is not, the lines that are read must
be all there are, and those about the band ones that are replaced. -/
def BandClean (band : Band) (file : Option Bytes) : Prop :=
  if readBand (HomeWifi.readFileAll 2048 file) = band then
    Carries isBandLine (lineBand · = some band) (fileLines file)
  else
    (∀ l ∈ seenLines 2048 file, isBandLine l = true → recognised l = true ∨ lineBand l = some band) ∧
      otherLines isBandLine (seenLines 2048 file) = otherLines isBandLine (fileLines file)

theorem persistBand_kept_iff (returned : run (persistBand band) d .none = (d', some (true, f'))) :
    Carries isBandLine (lineBand · = some band) (fileLines (d' (.conf .band))) ∧
        otherLines isBandLine (fileLines (d' (.conf .band))) =
          otherLines isBandLine (fileLines (d (.conf .band))) ↔
      BandClean band (d (.conf .band)) := by
  rw [BandClean]
  rcases persistBand_returned returned with ⟨already, same⟩ | ⟨other, new⟩
  · rw [if_pos already, same, and_iff_left rfl]
  · rw [if_neg other, new, fileLines_written (bandRules band) 2048, carries_newLines_iff,
      otherLines_band]

theorem bandRule_bounded (band : Band) : ∀ r ∈ [bandRule band], (ruleLine r).length ≤ 11 := by
  cases band <;> decide

theorem persistBand_again (returned : run (persistBand band) d .none = (d', some (true, f'))) :
    (run (persistBand band) d' .none).1 (.conf .band) = d' (.conf .band) ↔
      readBand (HomeWifi.readFileAll 2048 (d' (.conf .band))) = band ∨
        Restored [bandRule band] 2047 (fileLines (d' (.conf .band))) := by
  rw [run_persistBand]
  split_ifs with already
  · exact iff_of_true rfl (.inl already)
  · rw [or_iff_right already]
    rcases persistBand_returned returned with ⟨before, same⟩ | ⟨_, new⟩
    · rw [same] at already
      exact absurd before already
    · have shape := bandRules band
      obtain ⟨out, rendered, same⟩ := rewriteLines_second shape 2047 3072 11 (bandRule_bounded band)
        (by simp) _ (seenLines_plain 2048 (d (.conf .band)))
        (seenLines_nulFree 2048 (d (.conf .band)))
      have text : bandText band (HomeWifi.readFileAll 2048 (d' (.conf .band))) = some out := by
        rw [new]
        exact rendered
      rw [rewriteBand, text, new, fileLines_written shape 2048, ← same]
      simp only [(atomicWriteFile_faultless .band out d').1, Option.some_inj]

end BandFile

/-- Both updates put their lines into the file. They keep the other lines exactly if the
part of the file that they read has all of them. A second update changes nothing exactly if
what it cannot read is what it restores, or it finds the band it is asked for. -/
theorem updates_kept_iff (channel : Int) (band : Band) (d d' : ConfDisk) (f' : Fault) :
    (run (rewriteHostapdChannel channel band) d .none = (d', some (true, f')) →
      ((∀ r ∈ hostapdRules channel band,
            Carries r.applies (· = ruleLine r) (fileLines (d' (.conf .hostapd)))) ∧
          otherLines (ruled (hostapdRules channel band)) (fileLines (d' (.conf .hostapd))) =
            otherLines (ruled (hostapdRules channel band)) (fileLines (d (.conf .hostapd))) ↔
        otherLines (ruled (hostapdRules channel band)) (seenLines 8192 (d (.conf .hostapd))) =
          otherLines (ruled (hostapdRules channel band)) (fileLines (d (.conf .hostapd)))) ∧
      (-2 ^ 31 ≤ channel ∧ channel < 2 ^ 31 →
        ((run (rewriteHostapdChannel channel band) d' .none).1 (.conf .hostapd) =
            d' (.conf .hostapd) ↔
          Restored (hostapdRules channel band) 8191 (fileLines (d' (.conf .hostapd)))))) ∧
    (run (persistBand band) d .none = (d', some (true, f')) →
      (Carries isBandLine (lineBand · = some band) (fileLines (d' (.conf .band))) ∧
          otherLines isBandLine (fileLines (d' (.conf .band))) =
            otherLines isBandLine (fileLines (d (.conf .band))) ↔
        BandClean band (d (.conf .band))) ∧
      ((run (persistBand band) d' .none).1 (.conf .band) = d' (.conf .band) ↔
        readBand (HomeWifi.readFileAll 2048 (d' (.conf .band))) = band ∨
          Restored [bandRule band] 2047 (fileLines (d' (.conf .band))))) := by
  refine ⟨fun returned => ?_, fun returned => ?_⟩
  · obtain ⟨carries, others⟩ := rewriteHostapdChannel_kept returned
    exact ⟨(and_iff_right carries).trans others, fun int => rewriteHostapdChannel_again int returned⟩
  · exact ⟨persistBand_kept_iff returned, persistBand_again returned⟩

def apDisk : ConfDisk
  | .conf .hostapd => some (ascii "channel=1\nssid=ap\n")
  | .conf .band => some (ascii "# band\nBAND=2.4G\n")
  | _ => none

theorem updates_kept_small :
    ((run (rewriteHostapdChannel 6 .band2g) apDisk .none).2 = some (true, .none) ∧
      otherLines (ruled (hostapdRules 6 .band2g)) (fileLines
          ((run (rewriteHostapdChannel 6 .band2g) apDisk .none).1 (.conf .hostapd))) =
        [ascii "ssid=ap"] ∧
      (run (rewriteHostapdChannel 6 .band2g)
          (run (rewriteHostapdChannel 6 .band2g) apDisk .none).1 .none).1 (.conf .hostapd) =
        (run (rewriteHostapdChannel 6 .band2g) apDisk .none).1 (.conf .hostapd)) ∧
    (run (persistBand .band5g) apDisk .none).2 = some (true, .none) ∧
      Carries isBandLine (lineBand · = some .band5g)
        (fileLines ((run (persistBand .band5g) apDisk .none).1 (.conf .band))) ∧
      (run (persistBand .band5g) (run (persistBand .band5g) apDisk .none).1 .none).1 (.conf .band) =
        (run (persistBand .band5g) apDisk .none).1 (.conf .band) := by
  have channel : (run (rewriteHostapdChannel 6 .band2g) apDisk .none).2 = some (true, .none) := by
    decide +kernel
  have success : (run (persistBand .band5g) apDisk .none).2 = some (true, .none) := by decide +kernel
  have clean : BandClean .band5g (apDisk (.conf .band)) := by
    rw [BandClean, if_neg (by decide +kernel)]
    decide +kernel
  have hostapd := (updates_kept_iff 6 .band2g apDisk
    (run (rewriteHostapdChannel 6 .band2g) apDisk .none).1 .none).1 (Prod.ext rfl channel)
  have kept := (updates_kept_iff 6 .band5g apDisk
    (run (persistBand .band5g) apDisk .none).1 .none).2 (Prod.ext rfl success)
  refine ⟨⟨channel, ?_, ?_⟩, success, (kept.1.mpr clean).1, ?_⟩
  · rw [(hostapd.1.mpr (by decide +kernel)).2]
    decide +kernel
  · exact (hostapd.2 (by decide)).mpr (.short _ (by decide +kernel))
  · exact kept.2.mpr (.inr (.short _ (by decide +kernel)))

def comment (n : Nat) : Bytes := HomeWifi.hash :: List.replicate n HomeWifi.hash

theorem not_mem_comment (n : Nat) (c : UInt8) (other : c ≠ HomeWifi.hash) : c ∉ comment n := by
  simp [comment, other]

theorem seenLines_comment (n : Nat) (rest : Bytes) :
    seenLines (n + 2) (some (comment n ++ rest)) = [comment n] := by
  have length : (comment n).length = n + 2 - 1 := by simp [comment]
  have text : cstr (comment n) = comment n := (cstr_eq_self_iff _).mpr (not_mem_comment n 0 (by decide))
  rw [seenLines_some, List.take_left' length, text,
    textLines_of_oneLine _ (not_mem_comment n newline (by decide)) (by simp [comment])]

theorem comment_ne_nil (n : Nat) : comment n ≠ [] := by simp [comment]

def apLines : Bytes := ascii "\nchannel=6\nhw_mode=g\n"

theorem written_comment (n : Nat) :
    written [comment n, ascii "channel=6", ascii "hw_mode=g"] = comment n ++ apLines := by
  have lines : apLines =
      newline :: (ascii "channel=6" ++ newline :: (ascii "hw_mode=g" ++ [newline])) := rfl
  simp [written, lines]

theorem textLines_comment (n : Nat) (rest : Bytes) :
    textLines (comment n ++ newline :: rest) = comment n :: textLines rest :=
  textLines_cons _ _ (not_mem_comment n newline (by decide)) (comment_ne_nil n)

def crowdedConf : Bytes := comment 8190 ++ newline :: ascii "ssid=ap\n"

def crowdedDisk : ConfDisk
  | .conf .hostapd => some crowdedConf
  | _ => none

theorem crowdedConf_rewritten :
    run (rewriteHostapdChannel 6 .band2g) crowdedDisk .none =
      (Function.update crowdedDisk (.conf .hostapd)
        (some (comment 8190 ++ apLines)), some (true, .none)) := by
  have six : signed 6 = [0x36] := by decide +kernel
  have lines : newLines (hostapdRules 6 .band2g) [comment 8190] =
      [comment 8190, ascii "channel=6", ascii "hw_mode=g"] := by
    simp only [hostapdRules, six]
    rfl
  have length : (comment 8190 ++ apLines).length < 9216 := by
    rw [List.length_append, comment, List.length_cons, List.length_replicate]
    decide
  have rendered : (HomeWifi.readFileAll 8192 (some crowdedConf)).bind (hostapdText 6 .band2g) =
      some (comment 8190 ++ apLines) := by
    have seen : seenLines 8192 (some crowdedConf) = [comment 8190] := seenLines_comment 8190 _
    rw [hostapdText_seen, seen, rewriteLines_of_lt (hostapdRules_lines 6 .band2g), lines,
      written_comment]
    rwa [lines, written_comment]
  rw [run_rewriteHostapdChannel, crowdedDisk, rendered, writeHostapd, run_writeFile]

/-- A setting after 8191 bytes is lost; asked for 2.4G and without a file, `persist_band`
succeeds and there is no BAND line; and a second update of a file that goes over the end of
the buffer takes the beginning of the new line for another one. -/
theorem updates_lose_lines :
    (∃ d', run (rewriteHostapdChannel 6 .band2g) crowdedDisk .none = (d', some (true, .none)) ∧
        ascii "ssid=ap" ∈ fileLines (crowdedDisk (.conf .hostapd)) ∧
        ascii "ssid=ap" ∉ fileLines (d' (.conf .hostapd))) ∧
      (run (persistBand .band2g) (bandDisk none) .none).2 = some (true, .none) ∧
      fileLines ((run (persistBand .band2g) (bandDisk none) .none).1 (.conf .band)) = [] ∧
      (run (persistBand .band5g) (bandDisk (some (comment 2043))) .none).1 (.conf .band) =
        some (comment 2043 ++ ascii "\nBAND='5G'\n") ∧
      (run (persistBand .band5g) (bandDisk (some (comment 2043 ++ ascii "\nBAND='5G'\n"))) .none).1
          (.conf .band) = some (comment 2043 ++ ascii "\nBA\nBAND='5G'\n") := by
  have setting : textLines (ascii "ssid=ap\n") = [ascii "ssid=ap"] := by decide
  have settings : textLines (ascii "channel=6\nhw_mode=g\n") =
      [ascii "channel=6", ascii "hw_mode=g"] := by decide
  have old : fileLines (crowdedDisk (.conf .hostapd)) = [comment 8190, ascii "ssid=ap"] := by
    rw [crowdedDisk, fileLines, Option.map_some, Option.getD_some, crowdedConf, textLines_comment,
      setting]
  have new : textLines (comment 8190 ++ apLines) =
      [comment 8190, ascii "channel=6", ascii "hw_mode=g"] :=
    (textLines_comment 8190 (ascii "channel=6\nhw_mode=g\n")).trans (by rw [settings])
  have other : ascii "ssid=ap" ≠ comment 8190 := fun same => by cases congrArg List.head? same
  refine ⟨⟨_, crowdedConf_rewritten, ?_, ?_⟩, by decide +kernel, by decide +kernel, ?_, ?_⟩
  · rw [old]
    exact List.mem_cons_of_mem _ List.mem_cons_self
  · rw [Function.update_self, fileLines, Option.map_some, Option.getD_some, new, List.mem_cons, not_or]
    exact ⟨other, by decide⟩
  · decide +kernel
  · decide +kernel

end WfyApp.ConfFrames
