import WfyApp.ScanText

/-! The CPU line of sys_stat.c: `read_cpu_stat` on the first line of /proc/stat, and
`cpu_stat_diff`, which subtracts 64-bit counters and reports shares of the sum of the
differences. The arithmetic of `float` is any rounding that stays within half a unit of the last
of 24 binary digits in the normal range, as rounding to nearest does. -/

namespace WfyApp.CpuUsage
open ByteText NumberText ScanText

structure CpuStat where
  user : UInt64
  nice : UInt64
  system : UInt64
  idle : UInt64
  iowait : UInt64
  irq : UInt64
  softirq : UInt64
  steal : UInt64
deriving DecidableEq, Repr

section Reading

def fgets (size : Nat) (content : Bytes) : Bytes :=
  let seen := content.take (size - 1)
  seen.takeWhile (· != newline) ++ if newline ∈ seen then [newline] else []

def cpuFormat : List Directive :=
  [.literal 0x63, .literal 0x70, .literal 0x75] ++ columns true 8

/-- Counters that are not read stay 0. -/
def readCpuStat (file : Option Bytes) : Option CpuStat :=
  match file with
  | none => none
  | some content =>
      if content = [] then none
      else
        let read := (scanf cpuFormat (cstr (fgets 256 content))).map Number.toUInt64
        let counter (i : Nat) := read.getD i 0
        some ⟨counter 0, counter 1, counter 2, counter 3, counter 4, counter 5, counter 6, counter 7⟩

def CpuStat.counters (c : CpuStat) : List UInt64 :=
  [c.user, c.nice, c.system, c.idle, c.iowait, c.irq, c.softirq, c.steal]

/-- The kernel's line has two further counters, for guests. -/
def cpuLine (c : CpuStat) (guest guestNice : UInt64) : Bytes :=
  ascii "cpu " ++ (c.counters ++ [guest, guestNice]).flatMap fun n => column n.toNat

theorem counters_small (ns : List UInt64) :
    ∀ n ∈ ns.map fun n => (n.toNat : Int), n.natAbs < 10 ^ 20 := by
  intro n member
  obtain ⟨counter, -, rfl⟩ := List.mem_map.mp member
  have small := counter.toNat_lt
  norm_num at small ⊢
  omega

theorem fgets_line (size : Nat) (line rest : Bytes) (free : newline ∉ line)
    (room : line.length + 2 ≤ size) :
    fgets size (line ++ newline :: rest) = line ++ [newline] := by
  obtain ⟨more, rfl⟩ := Nat.exists_eq_add_of_le room
  have seen : (line ++ newline :: rest).take (line.length + 2 + more - 1) =
      line ++ newline :: rest.take more := by
    rw [List.take_append, List.take_of_length_le (by omega)]
    have left : line.length + 2 + more - 1 - line.length = more + 1 := by omega
    rw [left, List.take_succ_cons]
  have plain : ∀ c ∈ line, (c != newline) = true := by
    intro c member
    exact bne_iff_ne.mpr fun same => free (same ▸ member)
  simp only [fgets, seen]
  rw [List.takeWhile_append_of_pos plain, List.takeWhile_cons_of_neg (by simp), List.append_nil,
    if_pos (by simp)]

theorem mem_cpuLine (c : CpuStat) (guest guestNice : UInt64) (x : UInt8)
    (member : x ∈ cpuLine c guest guestNice) :
    x ∈ ascii "cpu " ∨ x = 0x20 ∨ x = hyphen ∨ isDigit x = true := by
  rcases List.mem_append.mp member with word | numbers
  · exact .inl word
  · obtain ⟨n, -, inside⟩ := List.mem_flatMap.mp numbers
    exact .inr (mem_column n.toNat x inside)

theorem not_mem_cpuLine (c : CpuStat) (guest guestNice : UInt64) (x : UInt8) (below : x < 0x20) :
    x ∉ cpuLine c guest guestNice := by
  have text : ascii "cpu " = [0x63, 0x70, 0x75, 0x20] := rfl
  have word : ∀ y ∈ ascii "cpu ", 0x20 ≤ y := by
    simp [text]
  intro member
  rcases mem_cpuLine c guest guestNice x member with inside | rfl | rfl | digit
  · exact absurd (word x inside) (UInt8.not_le.mpr below)
  · exact absurd below (by decide)
  · exact absurd below (by decide)
  · simp only [isDigit, Bool.and_eq_true, decide_eq_true_eq] at digit
    have low := UInt8.le_iff_toNat_le.mp digit.1
    have high := UInt8.lt_iff_toNat_lt.mp below
    simp at low high
    omega

theorem readCpuStat_cpuLine (c : CpuStat) (guest guestNice : UInt64) (rest : Bytes) :
    readCpuStat (some (cpuLine c guest guestNice ++ newline :: rest)) = some c := by
  have length : (cpuLine c guest guestNice).length + 2 ≤ 256 := by
    have numbers := flatMap_column_length_le
      ((c.counters ++ [guest, guestNice]).map fun n => (n.toNat : Int)) 20 (by decide)
      (counters_small _)
    have word : (ascii "cpu ").length = 4 := rfl
    have count : ((c.counters ++ [guest, guestNice]).map fun n => (n.toNat : Int)).length = 10 := rfl
    rw [List.flatMap_map] at numbers
    rw [cpuLine, List.length_append, word]
    omega
  have text : cstr (fgets 256 (cpuLine c guest guestNice ++ newline :: rest)) =
      cpuLine c guest guestNice ++ [newline] := by
    rw [fgets_line 256 _ rest (not_mem_cpuLine c guest guestNice newline (by decide)) length]
    refine (cstr_eq_self_iff _).mpr fun zero => ?_
    rcases List.mem_append.mp zero with inside | last
    · exact not_mem_cpuLine c guest guestNice 0 (by decide) inside
    · exact absurd (List.mem_singleton.mp last) (by decide)
  have ends : NumberEnds ([guest, guestNice].flatMap (fun n => column n.toNat) ++ [newline]) :=
    numberEnds_cons _ _ rfl
  have read : scanf cpuFormat (cpuLine c guest guestNice ++ [newline]) =
      c.counters.map fun n => Number.ofInt n.toNat := by
    have columns := scanf_columns true [] (c.counters.map fun n => (n.toNat : Int)) _ ends
    rw [List.length_map, List.append_nil, List.flatMap_map, List.map_map, scanf, if_pos rfl,
      List.append_nil] at columns
    rw [cpuLine, List.flatMap_append, List.append_assoc, List.append_assoc]
    exact columns
  have back : (c.counters.map fun n => Number.ofInt n.toNat).map Number.toUInt64 = c.counters := by
    rw [List.map_map]
    exact List.map_id'' Number.toUInt64_ofInt c.counters
  have nonempty : cpuLine c guest guestNice ++ newline :: rest ≠ [] := by simp
  simp only [readCpuStat, if_neg nonempty, text, read, back]
  rfl

end Reading

section Single

/-- Zero and the positive values that are neither too small nor too large for a normal
`float`. -/
def Normal (x : ℚ) : Prop := x = 0 ∨ 1 / 2 ^ 126 ≤ x ∧ x ≤ 2 ^ 127

structure Single where
  fl : ℚ → ℚ
  error : ∀ x, Normal x → |fl x - x| ≤ x / 2 ^ 24

/-- The nearest multiple of the unit in the last of 24 binary digits. -/
def nearest (x : ℚ) : ℚ :=
  let unit : ℚ := 2 ^ (Int.log 2 x - 23)
  round (x / unit) * unit

theorem nearest_error (x : ℚ) (pos : 0 < x) : |nearest x - x| ≤ x / 2 ^ 24 := by
  let unit : ℚ := 2 ^ (Int.log 2 x - 23)
  have unit_pos : 0 < unit := zpow_pos two_pos _
  have unit_le : unit * 2 ^ 23 ≤ x := by
    have digits : unit * 2 ^ 23 = 2 ^ Int.log 2 x := by
      rw [← zpow_natCast, ← zpow_add₀ two_ne_zero]
      congr 1
      norm_num
    rw [digits]
    exact Int.zpow_log_le_self one_lt_two pos
  have scaled : nearest x - x = -((x / unit - round (x / unit)) * unit) := by
    rw [sub_mul, div_mul_cancel₀ x unit_pos.ne', neg_sub]
    rfl
  calc |nearest x - x| = |x / unit - round (x / unit)| * unit := by
        rw [scaled, abs_neg, abs_mul, abs_of_pos unit_pos]
    _ ≤ 1 / 2 * unit := mul_le_mul_of_nonneg_right (abs_sub_round _) unit_pos.le
    _ ≤ x / 2 ^ 24 := by linarith

def Single.nearest : Single where
  fl := CpuUsage.nearest
  error x normal := by
    rcases normal with rfl | ⟨low, -⟩
    · simp [CpuUsage.nearest]
    · exact nearest_error x (lt_of_lt_of_le (by positivity) low)

namespace Single
variable (s : Single)

theorem bounds (x : ℚ) (normal : Normal x) :
    x - x / 2 ^ 24 ≤ s.fl x ∧ s.fl x ≤ x + x / 2 ^ 24 := by
  have close := abs_le.mp (s.error x normal)
  constructor <;> linarith

@[simp] theorem fl_zero : s.fl 0 = 0 := by
  obtain ⟨low, high⟩ := s.bounds 0 (.inl rfl)
  linarith

def share (part total : UInt64) : ℚ :=
  s.fl (s.fl (100 * s.fl part.toNat) / s.fl total.toNat)

@[simp] theorem share_zero (total : UInt64) : s.share 0 total = 0 := by
  simp [share]

theorem normal_toNat (n : UInt64) (ne : n ≠ 0) :
    (1 : ℚ) ≤ n.toNat ∧ (n.toNat : ℚ) ≤ 2 ^ 64 ∧ Normal n.toNat := by
  have pos : 1 ≤ n.toNat := Nat.pos_of_ne_zero fun same => ne (UInt64.toNat_inj.mp same)
  have low : (1 : ℚ) ≤ n.toNat := by exact_mod_cast pos
  have high : (n.toNat : ℚ) ≤ 2 ^ 64 := by exact_mod_cast n.toNat_lt.le
  refine ⟨low, high, .inr ⟨?_, ?_⟩⟩ <;> norm_num at high ⊢ <;> linarith

theorem share_bounds (part total : UInt64) (le : part ≤ total) (pos : total ≠ 0) :
    0 ≤ s.share part total ∧ s.share part total ≤ 100 + 1 / 1000 := by
  by_cases none : part = 0
  · rw [none, share_zero]
    norm_num
  · have order : (part.toNat : ℚ) ≤ total.toNat := by exact_mod_cast UInt64.le_iff_toNat_le.mp le
    obtain ⟨part_pos, part_le, part_normal⟩ := normal_toNat part none
    obtain ⟨total_pos, total_le, total_normal⟩ := normal_toNat total pos
    obtain ⟨part_low, part_high⟩ := s.bounds _ part_normal
    obtain ⟨total_low, total_high⟩ := s.bounds _ total_normal
    obtain ⟨product_low, product_high⟩ := s.bounds (100 * s.fl part.toNat)
      (.inr ⟨by linarith, by linarith⟩)
    have divisor_pos : 0 < s.fl total.toNat := by linarith
    have quotient_le : s.fl (100 * s.fl part.toNat) / s.fl total.toNat ≤ 100 + 1 / 2000 := by
      rw [div_le_iff₀ divisor_pos]
      linarith
    have quotient_ge : 1 / 2 ^ 64 ≤ s.fl (100 * s.fl part.toNat) / s.fl total.toNat := by
      rw [le_div_iff₀ divisor_pos]
      linarith
    obtain ⟨low, high⟩ := s.bounds (s.fl (100 * s.fl part.toNat) / s.fl total.toNat)
      (.inr ⟨by linarith, by linarith⟩)
    rw [share]
    constructor <;> linarith

end Single

def tenths (x : ℚ) : Int := ⌊10 * x + 1 / 2⌋

theorem tenths_bounds (x : ℚ) (nonneg : 0 ≤ x) (le : x ≤ 100 + 1 / 1000) :
    0 ≤ tenths x ∧ tenths x ≤ 1000 := by
  refine ⟨Int.floor_nonneg.mpr (by linarith), Int.lt_add_one_iff.mp (Int.floor_lt.mpr ?_)⟩
  push_cast
  linarith

end Single

section Difference
variable (prev cur : CpuStat)

structure Deltas where
  du : UInt64
  ds : UInt64
  di : UInt64
  dw : UInt64
  total : UInt64
deriving DecidableEq, Repr

def deltas : Deltas :=
  let du := cur.user - prev.user + cur.nice - prev.nice
  let ds := cur.system - prev.system + cur.irq - prev.irq + cur.softirq - prev.softirq
  let di := cur.idle - prev.idle
  let dw := cur.iowait - prev.iowait
  ⟨du, ds, di, dw, du + ds + di + dw + (cur.steal - prev.steal)⟩

structure CpuPct where
  user : ℚ
  sys : ℚ
  iowait : ℚ
  idle : ℚ

def cpuStatDiff (s : Single) : CpuPct :=
  let d := deltas prev cur
  if d.total = 0 then ⟨0, 0, 0, 100⟩
  else ⟨s.share d.du d.total, s.share d.ds d.total, s.share d.dw d.total, s.share d.di d.total⟩

def Reported (x : ℚ) : Prop := 0 ≤ tenths x ∧ tenths x ≤ 1000

/-- No part exceeds the total, and the four percentages are between 0 and 100. -/
structure InRange (s : Single) : Prop where
  user_le : (deltas prev cur).du ≤ (deltas prev cur).total
  sys_le : (deltas prev cur).ds ≤ (deltas prev cur).total
  iowait_le : (deltas prev cur).dw ≤ (deltas prev cur).total
  idle_le : (deltas prev cur).di ≤ (deltas prev cur).total
  user : Reported (cpuStatDiff prev cur s).user
  sys : Reported (cpuStatDiff prev cur s).sys
  iowait : Reported (cpuStatDiff prev cur s).iowait
  idle : Reported (cpuStatDiff prev cur s).idle

def growth (prev cur : UInt64) : Int := cur.toNat - prev.toNat

def userGrowth : Int := growth prev.user cur.user + growth prev.nice cur.nice

def sysGrowth : Int :=
  growth prev.system cur.system + growth prev.irq cur.irq + growth prev.softirq cur.softirq

def idleGrowth : Int := growth prev.idle cur.idle
def iowaitGrowth : Int := growth prev.iowait cur.iowait
def stealGrowth : Int := growth prev.steal cur.steal

def wholeGrowth : Int :=
  userGrowth prev cur + sysGrowth prev cur + idleGrowth prev cur + iowaitGrowth prev cur +
    stealGrowth prev cur

/-- A part of the growth and the rest of it both go forward; or the whole goes back, but not
both of them. -/
def SignsFit (part : Int) : Prop :=
  0 ≤ part ∧ 0 ≤ wholeGrowth prev cur - part ∨
    wholeGrowth prev cur < 0 ∧ (0 ≤ part ∨ 0 ≤ wholeGrowth prev cur - part)

instance (part : Int) : Decidable (SignsFit prev cur part) := inferInstanceAs (Decidable (_ ∨ _))

def PartsFit : Prop :=
  ∀ part ∈ [userGrowth prev cur, sysGrowth prev cur, idleGrowth prev cur, iowaitGrowth prev cur],
    SignsFit prev cur part

instance : Decidable (PartsFit prev cur) := inferInstanceAs (Decidable (∀ _ ∈ _, _))

/-- At one tick per nanosecond a counter moves this far in 36 years. -/
def Moderate : Prop :=
  ∀ c ∈ prev.counters.zip cur.counters, (growth c.1 c.2).natAbs < 2 ^ 60

theorem toNat_growth (prev cur : UInt64) : ((cur - prev).toNat : Int) = growth prev cur % 2 ^ 64 := by
  have small := prev.toNat_lt
  rw [UInt64.toNat_sub, growth]
  omega

theorem toNat_add (a b : UInt64) (x y : Int) (left : (a.toNat : Int) = x % 2 ^ 64)
    (right : (b.toNat : Int) = y % 2 ^ 64) : ((a + b).toNat : Int) = (x + y) % 2 ^ 64 := by
  rw [UInt64.toNat_add]
  omega

theorem toNat_du : ((deltas prev cur).du.toNat : Int) = userGrowth prev cur % 2 ^ 64 := by
  have same : (deltas prev cur).du = (cur.user - prev.user) + (cur.nice - prev.nice) := by
    rw [deltas, add_sub_assoc]
  rw [same]
  exact toNat_add _ _ _ _ (toNat_growth _ _) (toNat_growth _ _)

theorem toNat_ds : ((deltas prev cur).ds.toNat : Int) = sysGrowth prev cur % 2 ^ 64 := by
  have same : (deltas prev cur).ds =
      (cur.system - prev.system) + (cur.irq - prev.irq) + (cur.softirq - prev.softirq) := by
    simp only [deltas, add_sub_assoc]
  rw [same]
  exact toNat_add _ _ _ _ (toNat_add _ _ _ _ (toNat_growth _ _) (toNat_growth _ _))
    (toNat_growth _ _)

theorem toNat_di : ((deltas prev cur).di.toNat : Int) = idleGrowth prev cur % 2 ^ 64 :=
  toNat_growth _ _

theorem toNat_dw : ((deltas prev cur).dw.toNat : Int) = iowaitGrowth prev cur % 2 ^ 64 :=
  toNat_growth _ _

theorem toNat_total : ((deltas prev cur).total.toNat : Int) = wholeGrowth prev cur % 2 ^ 64 :=
  toNat_add _ _ _ _ (toNat_add _ _ _ _ (toNat_add _ _ _ _ (toNat_add _ _ _ _ (toNat_du prev cur)
    (toNat_ds prev cur)) (toNat_di prev cur)) (toNat_dw prev cur)) (toNat_growth _ _)

theorem le_total_iff (part : UInt64) (x : Int) (value : (part.toNat : Int) = x % 2 ^ 64) :
    part ≤ (deltas prev cur).total ↔ x % 2 ^ 64 ≤ wholeGrowth prev cur % 2 ^ 64 := by
  rw [← value, ← toNat_total, UInt64.le_iff_toNat_le, Int.ofNat_le]

theorem signsFit_iff (part : Int) (small : part.natAbs < 2 ^ 63)
    (whole : (wholeGrowth prev cur).natAbs < 2 ^ 63) :
    SignsFit prev cur part ↔ part % 2 ^ 64 ≤ wholeGrowth prev cur % 2 ^ 64 := by
  rw [SignsFit]
  omega

theorem Moderate.sums (moderate : Moderate prev cur) :
    (userGrowth prev cur).natAbs < 2 ^ 63 ∧ (sysGrowth prev cur).natAbs < 2 ^ 63 ∧
      (idleGrowth prev cur).natAbs < 2 ^ 63 ∧ (iowaitGrowth prev cur).natAbs < 2 ^ 63 ∧
        (wholeGrowth prev cur).natAbs < 2 ^ 63 := by
  simp only [Moderate, CpuStat.counters, List.zip_cons_cons, List.zip_nil_right,
    List.forall_mem_cons] at moderate
  obtain ⟨user, nice, system, idle, iowait, irq, softirq, steal, -⟩ := moderate
  simp only [wholeGrowth, userGrowth, sysGrowth, idleGrowth, iowaitGrowth, stealGrowth]
  omega

theorem reported_share (s : Single) (part total : UInt64) (le : part ≤ total) (pos : total ≠ 0) :
    Reported (s.share part total) := by
  obtain ⟨low, high⟩ := s.share_bounds part total le pos
  exact tenths_bounds _ low high

theorem partsFit_iff (moderate : Moderate prev cur) : PartsFit prev cur ↔
    (deltas prev cur).du ≤ (deltas prev cur).total ∧ (deltas prev cur).ds ≤ (deltas prev cur).total ∧
      (deltas prev cur).di ≤ (deltas prev cur).total ∧
        (deltas prev cur).dw ≤ (deltas prev cur).total := by
  obtain ⟨user, sys, idle, iowait, whole⟩ := moderate.sums
  rw [le_total_iff prev cur _ _ (toNat_du prev cur), le_total_iff prev cur _ _ (toNat_ds prev cur),
    le_total_iff prev cur _ _ (toNat_di prev cur), le_total_iff prev cur _ _ (toNat_dw prev cur),
    ← signsFit_iff prev cur _ user whole, ← signsFit_iff prev cur _ sys whole,
    ← signsFit_iff prev cur _ idle whole, ← signsFit_iff prev cur _ iowait whole]
  simp [PartsFit]

theorem growth_nonneg {prev cur : UInt64} (le : prev ≤ cur) : 0 ≤ growth prev cur :=
  Int.sub_nonneg.mpr (Int.ofNat_le.mpr (UInt64.le_iff_toNat_le.mp le))

/-- Counters that do not go back keep the shares in range. -/
theorem partsFit_of_growing (growing : ∀ c ∈ prev.counters.zip cur.counters, c.1 ≤ c.2) :
    PartsFit prev cur := by
  have forward : ∀ c ∈ prev.counters.zip cur.counters, 0 ≤ growth c.1 c.2 :=
    fun c member => growth_nonneg (growing c member)
  simp only [CpuStat.counters, List.zip_cons_cons, List.zip_nil_right, List.forall_mem_cons]
    at forward
  obtain ⟨user, nice, system, idle, iowait, irq, softirq, steal, -⟩ := forward
  simp only [PartsFit, SignsFit, List.forall_mem_cons, wholeGrowth, userGrowth, sysGrowth,
    idleGrowth, iowaitGrowth, stealGrowth]
  refine ⟨.inl ?_, .inl ?_, .inl ?_, .inl ?_, fun _ none => absurd none List.not_mem_nil⟩ <;>
    omega

theorem not_signsFit_of_back (part : Int) (back : part < 0) (whole : 0 ≤ wholeGrowth prev cur) :
    ¬SignsFit prev cur part := by
  rw [SignsFit]
  omega

end Difference

def before : CpuStat := ⟨1000, 0, 500, 5000, 20, 0, 0, 0⟩
def after : CpuStat := ⟨1100, 0, 500, 4999, 20, 0, 0, 0⟩

end WfyApp.CpuUsage
