import WfyApp.ScanText
import WfyApp.TableLoops

/-! The process table of sys_stat.c: `read_proc_stat_one` on the text of /proc/<pid>/stat, and
`sample_all_procs` over the names readdir yields. Only the first 511 bytes of a file are read;
the name of a process may have any bytes, so its end is the last parenthesis. -/

namespace WfyApp.ProcStat
open ByteText NumberText ScanText TableLoops

def leftParen : UInt8 := 0x28
def rightParen : UInt8 := 0x29

@[ext] structure ProcEntry where
  pid : Int32
  comm : CString 16
  ticks : UInt64

abbrev ProcFiles := Bytes → Option Bytes

def procPath (pid : Int32) : Bytes := ascii "/proc/" ++ (signed pid.toInt ++ ascii "/stat")

/-- ` %*c %*d %*d %*d %*d %*d %*u %*u %*u %*u %*u %llu %llu`. -/
def statFormat : List Directive := .blanks :: .skipChar :: (columns false 10 ++ columns true 2)

def readProcStatOne (files : ProcFiles) (pid : Int32) : Option ProcEntry :=
  match files (snprintf 64 (procPath pid)).text with
  | none => none
  | some content =>
      if content.take 511 = [] then none
      else
        let buf := cstr (content.take 511)
        match cutAt leftParen buf, cutAtLast rightParen buf with
        | some (before, _), some (front, p) =>
            -- `rparen <= lparen`
            if front.length ≤ before.length then none
            else
              match (scanf statFormat p).map Number.toUInt64 with
              | [utime, stime] =>
                  some ⟨pid, CString.printed 16 (front.drop (before.length + 1)), utime + stime⟩
              | _ => none
        | _, _ => none

def atoi (b : Bytes) : Int32 :=
  match readNumber b with
  | none => 0
  | some (x, _) => x.toInt32

def sampleName (files : ProcFiles) (name : Bytes) : Option ProcEntry :=
  if name.head?.any isDigit then
    if atoi name ≤ 0 then none else readProcStatOne files (atoi name)
  else none

def sampleAllProcs (files : ProcFiles) (max : Nat) (names : List Bytes) : List ProcEntry :=
  collect (sampleName files) max [] names

section Line

/-- The columns of the kernel's line, in their kernel types. -/
structure StatLine where
  comm : CString 16
  state : UInt8
  letter : isLetter state = true
  ppid : Int32
  pgrp : Int32
  session : Int32
  ttyNr : Int32
  tpgid : Int32
  flags : UInt32
  minflt : UInt64
  cminflt : UInt64
  majflt : UInt64
  cmajflt : UInt64
  utime : UInt64
  stime : UInt64
  more : List Int

def StatLine.skipped (l : StatLine) : List Int :=
  [l.ppid.toInt, l.pgrp.toInt, l.session.toInt, l.ttyNr.toInt, l.tpgid.toInt, l.flags.toNat,
    l.minflt.toNat, l.cminflt.toNat, l.majflt.toNat, l.cmajflt.toNat]

def StatLine.times (l : StatLine) : List Int := [l.utime.toNat, l.stime.toNat]

def StatLine.head (l : StatLine) : Bytes :=
  0x20 :: l.state :: (l.skipped.flatMap column ++ l.times.flatMap column)

def StatLine.tail (l : StatLine) : Bytes := l.more.flatMap column ++ [newline]

def StatLine.text (l : StatLine) (pid : Int32) : Bytes :=
  (signed pid.toInt ++ [0x20]) ++ leftParen :: (l.comm.bytes ++ rightParen :: (l.head ++ l.tail))

variable (l : StatLine) (pid : Int32)

/-- A byte that no column, letter or line end has. -/
structure Foreign (c : UInt8) : Prop where
  blank : c ≠ 0x20
  minus : c ≠ hyphen
  digit : isDigit c = false
  letter : isLetter c = false
  ending : c ≠ newline

theorem foreign_zero : Foreign 0 := by constructor <;> decide
theorem foreign_leftParen : Foreign leftParen := by constructor <;> decide
theorem foreign_rightParen : Foreign rightParen := by constructor <;> decide

theorem Foreign.not_mem_column {c : UInt8} (foreign : Foreign c) (n : Int) : c ∉ column n := by
  intro member
  rcases mem_column n c member with blank | minus | digit
  · exact foreign.blank blank
  · exact foreign.minus minus
  · rw [foreign.digit] at digit
    cases digit

theorem Foreign.not_mem_columns {c : UInt8} (foreign : Foreign c) (ns : List Int) :
    c ∉ ns.flatMap column := by
  intro member
  obtain ⟨n, -, inside⟩ := List.mem_flatMap.mp member
  exact foreign.not_mem_column n inside

theorem Foreign.not_mem_signed {c : UInt8} (foreign : Foreign c) (n : Int) : c ∉ signed n :=
  fun member => foreign.not_mem_column n (List.mem_cons_of_mem _ member)

theorem Foreign.not_mem_head {c : UInt8} (foreign : Foreign c) : c ∉ l.head := by
  intro member
  rcases List.mem_cons.mp member with blank | member
  · exact foreign.blank blank
  rcases List.mem_cons.mp member with state | member
  · have letter := l.letter
    rw [← state, foreign.letter] at letter
    cases letter
  rcases List.mem_append.mp member with skipped | times
  · exact foreign.not_mem_columns _ skipped
  · exact foreign.not_mem_columns _ times

theorem Foreign.not_mem_tail {c : UInt8} (foreign : Foreign c) : c ∉ l.tail := by
  intro member
  rcases List.mem_append.mp member with columns | last
  · exact foreign.not_mem_columns _ columns
  · exact foreign.ending (List.mem_singleton.mp last)

theorem natAbs_toInt_lt (n : Int32) : n.toInt.natAbs < 10 ^ 20 := by
  have low := n.le_toInt
  have high := n.toInt_lt
  norm_num at low high ⊢
  omega

theorem skipped_small : ∀ n ∈ l.skipped, n.natAbs < 10 ^ 20 := by
  have flags := l.flags.toNat_lt
  have minflt := l.minflt.toNat_lt
  have cminflt := l.cminflt.toNat_lt
  have majflt := l.majflt.toNat_lt
  have cmajflt := l.cmajflt.toNat_lt
  simp only [StatLine.skipped, List.forall_mem_cons, natAbs_toInt_lt, Int.natAbs_natCast, true_and]
  norm_num
  omega

theorem times_small : ∀ n ∈ l.times, n.natAbs < 10 ^ 20 := by
  have utime := l.utime.toNat_lt
  have stime := l.stime.toNat_lt
  simp only [StatLine.times, List.forall_mem_cons, Int.natAbs_natCast]
  norm_num
  omega

theorem head_length_le : l.head.length ≤ 266 := by
  have skipped := flatMap_column_length_le l.skipped 20 (by decide) (skipped_small l)
  have times := flatMap_column_length_le l.times 20 (by decide) (times_small l)
  have counts : l.skipped.length = 10 ∧ l.times.length = 2 := ⟨rfl, rfl⟩
  rw [counts.1] at skipped
  rw [counts.2] at times
  rw [StatLine.head, List.length_cons, List.length_cons, List.length_append]
  omega

theorem scanf_head (rest : Bytes) (ends : NumberEnds rest) :
    scanf statFormat (l.head ++ rest) = l.times.map Number.ofInt := by
  have times := scanf_columns true [] l.times rest ends
  have skipped := scanf_columns false (columns true 2 ++ []) l.skipped
    (l.times.flatMap column ++ rest) (numberEnds_flatMap _ _ ends)
  have skip : scanf statFormat (l.head ++ rest) =
      scanf (columns false 10 ++ columns true 2)
        (l.skipped.flatMap column ++ (l.times.flatMap column ++ rest)) := by
    have state : (l.head ++ rest).dropWhile isspace =
        l.state :: (l.skipped.flatMap column ++ (l.times.flatMap column ++ rest)) := by
      rw [StatLine.head, List.cons_append, List.cons_append, List.append_assoc,
        List.dropWhile_cons_of_pos (by decide),
        List.dropWhile_cons_of_neg (by simp [isspace_of_isLetter l.state l.letter])]
    rw [statFormat, scanf, state, scanf]
  rw [skip]
  rw [List.append_nil] at skipped times
  exact skipped.trans times

/-- The line up to `stime`, which is all the parser needs. -/
def StatLine.start : Bytes :=
  signed pid.toInt ++ 0x20 :: leftParen :: (l.comm.bytes ++ rightParen :: l.head)

theorem text_eq : l.text pid = l.start pid ++ l.tail := by
  simp [StatLine.text, StatLine.start]

theorem start_length_le : (l.start pid).length ≤ 511 := by
  have digits := signed_length_le pid.toInt 20 (by decide) (natAbs_toInt_lt pid)
  have name := l.comm.length_lt
  have head := head_length_le l
  simp only [StatLine.start, List.length_append, List.length_cons]
  omega

theorem take_text : (l.text pid).take 511 =
    l.start pid ++ l.tail.take (511 - (l.start pid).length) := by
  rw [text_eq, List.take_append, List.take_of_length_le (start_length_le l pid)]

theorem zero_not_mem_start : 0 ∉ l.start pid := by
  have digits := foreign_zero.not_mem_signed pid.toInt
  have name := l.comm.nulFree
  have head := foreign_zero.not_mem_head l
  simp only [StatLine.start, List.mem_append, List.mem_cons, not_or]
  exact ⟨digits, by decide, by decide, name, by decide, head⟩

theorem cutAt_start (rest : Bytes) : cutAt leftParen (l.start pid ++ rest) =
    some (signed pid.toInt ++ [0x20], l.comm.bytes ++ rightParen :: (l.head ++ rest)) := by
  have shape : l.start pid ++ rest = (signed pid.toInt ++ [0x20]) ++
      leftParen :: (l.comm.bytes ++ rightParen :: (l.head ++ rest)) := by simp [StatLine.start]
  have free : leftParen ∉ signed pid.toInt ++ [0x20] := by
    rw [List.mem_append, not_or]
    exact ⟨foreign_leftParen.not_mem_signed _, by decide⟩
  rw [shape, cutAt_append leftParen _ _ free]

theorem cutAtLast_start (rest : Bytes) (free : rightParen ∉ rest) :
    cutAtLast rightParen (l.start pid ++ rest) =
      some ((signed pid.toInt ++ [0x20]) ++ leftParen :: l.comm.bytes, l.head ++ rest) := by
  have shape : l.start pid ++ rest = ((signed pid.toInt ++ [0x20]) ++
      leftParen :: l.comm.bytes) ++ rightParen :: (l.head ++ rest) := by simp [StatLine.start]
  have later : rightParen ∉ l.head ++ rest := by
    rw [List.mem_append, not_or]
    exact ⟨foreign_rightParen.not_mem_head l, free⟩
  rw [shape, cutAtLast_append rightParen _ _ later]

theorem printed_comm (name : CString 16) : CString.printed 16 name.bytes = name := by
  have short := name.length_lt
  ext1
  rw [CString.printed_bytes 16 _ name.nulFree, List.take_of_length_le (by omega)]

theorem numberEnds_tail : NumberEnds l.tail :=
  numberEnds_flatMap _ _ (numberEnds_cons _ _ (by decide))

theorem snprintf_procPath : (snprintf 64 (procPath pid)).text = procPath pid := by
  have digits := signed_length_le pid.toInt 20 (by decide) (natAbs_toInt_lt pid)
  have around : (ascii "/proc/").length = 6 ∧ (ascii "/stat").length = 5 := ⟨rfl, rfl⟩
  apply snprintf_text
  simp only [snprintf, procPath, List.length_append, around.1, around.2]
  omega

def StatLine.entry : ProcEntry := ⟨pid, l.comm, l.utime + l.stime⟩

/-- What is left of the line after 511 bytes. -/
theorem scan_text (rest : Bytes) (ends : NumberEnds rest) :
    (scanf statFormat (l.head ++ rest)).map Number.toUInt64 = [l.utime, l.stime] := by
  rw [scanf_head l rest ends]
  simp only [StatLine.times, List.map_cons, List.map_nil, Number.toUInt64_ofInt]

theorem readProcStatOne_text (files : ProcFiles)
    (holds : files (procPath pid) = some (l.text pid)) :
    readProcStatOne files pid = some (l.entry pid) := by
  obtain ⟨rest, taken, ends, noZero, noParen⟩ :
      ∃ rest, (l.text pid).take 511 = l.start pid ++ rest ∧ NumberEnds rest ∧ 0 ∉ rest ∧
        rightParen ∉ rest :=
    ⟨_, take_text l pid, numberEnds_take _ _ (numberEnds_tail l),
      fun member => foreign_zero.not_mem_tail l (List.mem_of_mem_take member),
      fun member => foreign_rightParen.not_mem_tail l (List.mem_of_mem_take member)⟩
  have nonempty : l.start pid ++ rest ≠ [] := by simp [StatLine.start]
  have whole : cstr (l.start pid ++ rest) = l.start pid ++ rest := by
    rw [cstr_eq_self_iff, List.mem_append, not_or]
    exact ⟨zero_not_mem_start l pid, noZero⟩
  have later : ¬(signed pid.toInt ++ [0x20] ++ leftParen :: l.comm.bytes).length ≤
      (signed pid.toInt ++ [0x20]).length := by
    simp only [List.length_append, List.length_cons]
    omega
  have name : (signed pid.toInt ++ [0x20] ++ leftParen :: l.comm.bytes).drop
      ((signed pid.toInt ++ [0x20]).length + 1) = l.comm.bytes := by
    rw [List.drop_length_add_append]
    rfl
  simp only [readProcStatOne, snprintf_procPath, holds, taken, if_neg nonempty, whole,
    cutAt_start, cutAtLast_start l pid rest noParen, if_neg later, scan_text l rest ends, name,
    printed_comm]
  rfl

/-- Any name, also one that looks like the columns after it, is read back with both times. -/
theorem readProcStatOne_kernelLine (files : ProcFiles)
    (holds : files (procPath pid) = some (l.text pid)) :
    ∃ e, readProcStatOne files pid = some e ∧ e.pid = pid ∧ e.comm.bytes = l.comm.bytes ∧
      e.ticks = l.utime + l.stime :=
  ⟨l.entry pid, readProcStatOne_text l pid files holds, rfl, rfl, rfl⟩

end Line

/-- A process with the name `) R 1 (`. -/
def trickyLine : StatLine where
  comm := ⟨[0x29, 0x20, 0x52, 0x20, 0x31, 0x20, 0x28], by decide, by decide⟩
  state := 0x53
  letter := by decide
  ppid := 1
  pgrp := -7
  session := 7
  ttyNr := 0
  tpgid := -1
  flags := 4194560
  minflt := 18446744073709551615
  cminflt := 0
  majflt := 3
  cmajflt := 0
  utime := 120
  stime := 34
  more := [0, 0, 20, 0, 1, -5]

theorem trickyLine_read :
    ∃ e, readProcStatOne (fun _ => some (trickyLine.text 7)) 7 = some e ∧ e.pid = 7 ∧
      e.comm.bytes = [0x29, 0x20, 0x52, 0x20, 0x31, 0x20, 0x28] ∧ e.ticks = 154 :=
  readProcStatOne_kernelLine trickyLine 7 (fun _ => some (trickyLine.text 7)) rfl

section Table
variable (files : ProcFiles) (max : Nat)

theorem sampleAllProcs_eq (names : List Bytes) :
    sampleAllProcs files max names = (names.filterMap (sampleName files)).take max :=
  collect_nil_eq (sampleName files) max names

theorem sampleAllProcs_length_le (names : List Bytes) :
    (sampleAllProcs files max names).length ≤ max := by
  rw [sampleAllProcs_eq]
  exact List.length_take_le _ _

/-- A running process, which /proc lists under its number. -/
structure Proc where
  pid : Int32
  positive : 0 < pid
  line : StatLine

def Proc.name (p : Proc) : Bytes := signed p.pid.toInt

theorem atoi_name (p : Proc) : atoi p.name = p.pid := by
  have read := readNumber_signed [] (by simp) p.pid.toInt [] numberEnds_nil
  rw [List.nil_append, List.append_nil] at read
  rw [atoi, Proc.name, read]
  exact Number.toInt32_ofInt p.pid

theorem name_digit (p : Proc) : p.name.head?.any isDigit = true := by
  have positive : ¬p.pid.toInt < 0 := by
    have above := Int32.lt_iff_toInt_lt.mp p.positive
    exact not_lt.mpr above.le
  rw [Proc.name, signed, if_neg positive]
  cases text : decimal p.pid.toInt.natAbs with
  | nil => exact absurd text (decimal_ne_nil _)
  | cons c rest => exact isDigit_decimal _ c (text ▸ List.mem_cons_self)

theorem sampleName_name (p : Proc) (holds : files (procPath p.pid) = some (p.line.text p.pid)) :
    sampleName files p.name = some (p.line.entry p.pid) := by
  rw [sampleName, if_pos (name_digit p), atoi_name, if_neg (Int32.not_le.mpr p.positive),
    readProcStatOne_text p.line p.pid files holds]

/-- The sample has the first `max` processes of the table, each with its name and ticks. -/
theorem sampleAllProcs_table (table : List Proc)
    (holds : ∀ p ∈ table, files (procPath p.pid) = some (p.line.text p.pid)) (names : List Bytes)
    (listed : (names.filter fun name => name.head?.any isDigit) = table.map Proc.name) :
    sampleAllProcs files max names = (table.map fun p => p.line.entry p.pid).take max := by
  have digits : names.filterMap (sampleName files) =
      (names.filter fun name => name.head?.any isDigit).filterMap (sampleName files) := by
    rw [List.filterMap_filter]
    apply List.filterMap_congr
    intro name _
    by_cases digit : name.head?.any isDigit = true
    · simp [digit]
    · simp [sampleName, digit]
  have entries : (table.map Proc.name).filterMap (sampleName files) =
      table.map fun p => p.line.entry p.pid := by
    rw [List.filterMap_map, ← List.filterMap_eq_map]
    apply List.filterMap_congr
    intro p member
    exact sampleName_name files p (holds p member)
  rw [sampleAllProcs_eq, digits, listed, entries]

end Table

end WfyApp.ProcStat
