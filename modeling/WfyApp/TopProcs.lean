import WfyApp.CpuUsage
import WfyApp.ProcStat

/-! `compute_top5` of sys_stat.c: the processes whose ticks grew since the last sample are
copied to a table, and a partial selection sort yields those that grew most. -/

namespace WfyApp.TopProcs
open ByteText CpuUsage ProcStat TableLoops

def sampleSec : Nat := 5
def maxProcs : Nat := 512

def findPrevTicks (prev : List ProcEntry) (pid : Int32) : UInt64 :=
  match prev.find? fun p => p.pid == pid with
  | some p => p.ticks
  | none => 0

/-- The local table; `comm` is copied whole, since it has a terminator within 16 bytes. -/
structure Entry where
  dt : UInt64
  pid : Int32
  comm : CString 16

/-- `dt`, as the comparison of two entries orders it. -/
def Entry.key (e : Entry) : Nat := e.dt.toNat

structure TopResult where
  comm : CString 16
  pid : Int32
  pct : ℚ

def entryOf (prev : List ProcEntry) (p : ProcEntry) : Option Entry :=
  let pt := findPrevTicks prev p.pid
  if p.ticks ≤ pt then none else some ⟨p.ticks - pt, p.pid, p.comm⟩

def pct (s : Single) (clkTck : Int) (dt : UInt64) : ℚ :=
  s.fl (s.fl (100 * s.fl dt.toNat) / s.fl (s.fl sampleSec * s.fl clkTck))

def resultOf (s : Single) (clkTck : Int) (e : Entry) : TopResult := ⟨e.comm, e.pid, pct s clkTck e.dt⟩

structure Top where
  out : List TopResult
  count : Int

def computeTop5 (s : Single) (prev cur : List ProcEntry) (outMax clkTck : Int) : Top :=
  let entries := collect (entryOf prev) maxProcs [] cur
  if entries.length = 0 then ⟨[], 0⟩
  else
    let want := if (entries.length : Int) < outMax then (entries.length : Int) else outMax
    ⟨(partialSort Entry.key entries want.toNat).map (resultOf s clkTck), want⟩

/-- A sample: every process once, at most `MAX_PROCS` of them. -/
structure ProcTable where
  entries : List ProcEntry
  distinct : (entries.map ProcEntry.pid).Nodup
  length_le : entries.length ≤ maxProcs

def ProcTable.sampled (files : ProcFiles) (procs : List Proc) (names : List Bytes)
    (distinct : (procs.map Proc.pid).Nodup)
    (holds : ∀ p ∈ procs, files (procPath p.pid) = some (p.line.text p.pid))
    (listed : (names.filter fun name => name.head?.any isDigit) = procs.map Proc.name) :
    ProcTable where
  entries := sampleAllProcs files maxProcs names
  distinct := by
    rw [sampleAllProcs_table files maxProcs procs holds names listed, List.map_take, List.map_map]
    exact distinct.sublist (List.take_sublist _ _)
  length_le := sampleAllProcs_length_le files maxProcs names

section Ticks
variable (prev cur : ProcTable)

theorem find_of_mem (entries : List ProcEntry) (distinct : (entries.map ProcEntry.pid).Nodup)
    (p : ProcEntry) (member : p ∈ entries) : (entries.find? fun q => q.pid == p.pid) = some p := by
  induction entries with
  | nil => cases member
  | cons q entries ih =>
      rw [List.map_cons, List.nodup_cons] at distinct
      rcases List.mem_cons.mp member with rfl | later
      · rw [List.find?_cons_of_pos (by simp)]
      · have other : q.pid ≠ p.pid :=
          fun same => distinct.1 (same ▸ List.mem_map_of_mem later)
        rw [List.find?_cons_of_neg (by simpa using other), ih distinct.2 later]

theorem findPrevTicks_of_mem (p : ProcEntry) (member : p ∈ prev.entries) :
    findPrevTicks prev.entries p.pid = p.ticks := by
  rw [findPrevTicks, find_of_mem prev.entries prev.distinct p member]

theorem findPrevTicks_of_new (pid : Int32) (fresh : ∀ p ∈ prev.entries, p.pid ≠ pid) :
    findPrevTicks prev.entries pid = 0 := by
  have none : (prev.entries.find? fun p => p.pid == pid) = none := by
    rw [List.find?_eq_none]
    intro p member
    simpa using fresh p member
  rw [findPrevTicks, none]

def growth (p : ProcEntry) : Nat := p.ticks.toNat - (findPrevTicks prev.entries p.pid).toNat

def grown : List ProcEntry := cur.entries.filter fun p => 0 < growth prev p

def entry (p : ProcEntry) : Entry :=
  ⟨p.ticks - findPrevTicks prev.entries p.pid, p.pid, p.comm⟩

theorem growth_pos_iff (p : ProcEntry) :
    0 < growth prev p ↔ ¬p.ticks ≤ findPrevTicks prev.entries p.pid := by
  rw [growth, UInt64.le_iff_toNat_le]
  omega

theorem entryOf_eq (p : ProcEntry) :
    entryOf prev.entries p = if 0 < growth prev p then some (entry prev p) else none := by
  rw [entryOf]
  by_cases more : p.ticks ≤ findPrevTicks prev.entries p.pid
  · rw [if_pos more, if_neg (fun pos => (growth_pos_iff prev p).mp pos more)]
  · rw [if_neg more, if_pos ((growth_pos_iff prev p).mpr more), entry]

theorem key_entry (p : ProcEntry) (pos : 0 < growth prev p) :
    (entry prev p).key = growth prev p := by
  have less := UInt64.not_le.mp ((growth_pos_iff prev p).mp pos)
  rw [Entry.key, entry, growth, UInt64.toNat_sub_of_le _ _ (UInt64.le_of_lt less)]

theorem filterMap_entryOf (entries : List ProcEntry) :
    entries.filterMap (entryOf prev.entries) =
      (entries.filter fun p => 0 < growth prev p).map (entry prev) := by
  induction entries with
  | nil => rfl
  | cons p entries ih =>
      by_cases pos : 0 < growth prev p
      · rw [List.filterMap_cons_some (by rw [entryOf_eq, if_pos pos]), ih,
          List.filter_cons_of_pos (by simpa using pos), List.map_cons]
      · rw [List.filterMap_cons_none (by rw [entryOf_eq, if_neg pos]), ih,
          List.filter_cons_of_neg (by simpa using pos)]

/-- The local table is large enough for all processes that grew. -/
theorem collect_entryOf :
    collect (entryOf prev.entries) maxProcs [] cur.entries = (grown prev cur).map (entry prev) := by
  have room : ((grown prev cur).map (entry prev)).length ≤ maxProcs := by
    rw [List.length_map]
    exact (List.length_filter_le _ _).trans cur.length_le
  rw [collect_nil_eq, filterMap_entryOf, ← grown, List.take_of_length_le room]

theorem mem_grown (p : ProcEntry) :
    p ∈ grown prev cur ↔ p ∈ cur.entries ∧ 0 < growth prev p := by
  rw [grown, List.mem_filter, decide_eq_true_iff]

theorem grown_distinct : ((grown prev cur).map ProcEntry.pid).Nodup :=
  cur.distinct.sublist (List.filter_sublist.map _)

end Ticks

section Selection
variable (s : Single) (prev cur : ProcTable) (outMax clkTck : Int)

/-- `chosen` are the processes that are reported, in the order of the report. -/
structure Selected (chosen : List ProcEntry) (top : Top) : Prop where
  out : top.out = chosen.map fun p => ⟨p.comm, p.pid, pct s clkTck (UInt64.ofNat (growth prev p))⟩
  length : (chosen.length : Int) = max 0 (min outMax (grown prev cur).length)
  count : 0 ≤ outMax → top.count = min outMax (grown prev cur).length
  distinct : (chosen.map ProcEntry.pid).Nodup
  current : ∀ p ∈ chosen, p ∈ cur.entries ∧ 0 < growth prev p
  ordered : chosen.Pairwise fun p q => growth prev q ≤ growth prev p
  largest : ∀ p ∈ cur.entries, p ∉ chosen → ∀ q ∈ chosen, growth prev p ≤ growth prev q

theorem exists_chosen (want : Nat) :
    ∃ chosen rest, Leading (growth prev) (grown prev cur) want chosen rest ∧
      partialSort Entry.key ((grown prev cur).map (entry prev)) want = chosen.map (entry prev) := by
  obtain ⟨others, leading⟩ := partialSort_leading Entry.key ((grown prev cur).map (entry prev)) want
  obtain ⟨all, same, image⟩ := exists_perm_map (entry prev) _ _ leading.perm
  obtain ⟨chosen, rest, rfl, front, back⟩ := List.map_eq_append_iff.mp image
  have positive : ∀ p ∈ chosen ++ rest, 0 < growth prev p :=
    fun p member => ((mem_grown prev cur p).mp (same.mem_iff.mp member)).2
  have keys : ∀ p ∈ chosen ++ rest, ∀ q ∈ chosen ++ rest,
      (entry prev q).key ≤ (entry prev p).key → growth prev q ≤ growth prev p := by
    intro p left q right le
    rwa [key_entry prev p (positive p left), key_entry prev q (positive q right)] at le
  refine ⟨chosen, rest, ⟨same, ?_, ?_, ?_⟩, front.symm⟩
  · have length := leading.length
    rw [← front, List.length_map, List.length_map] at length
    exact length
  · have ordered := leading.ordered
    rw [← front, List.pairwise_map] at ordered
    exact ordered.imp_of_mem fun left right le =>
      keys _ (List.mem_append_left _ left) _ (List.mem_append_left _ right) le
  · intro p left q right
    have le := leading.above (entry prev p) (front ▸ List.mem_map_of_mem left) (entry prev q)
      (back ▸ List.mem_map_of_mem right)
    exact keys p (List.mem_append_left _ left) q (List.mem_append_right _ right) le

theorem resultOf_entry (p : ProcEntry) (pos : 0 < growth prev p) :
    resultOf s clkTck (entry prev p) =
      ⟨p.comm, p.pid, pct s clkTck (UInt64.ofNat (growth prev p))⟩ := by
  have dt : UInt64.ofNat (growth prev p) = (entry prev p).dt := by
    rw [← key_entry prev p pos, Entry.key, UInt64.ofNat_toNat]
  rw [dt, resultOf, entry]

theorem computeTop5_eq (some_grown : (grown prev cur).length ≠ 0) :
    computeTop5 s prev.entries cur.entries outMax clkTck =
      ⟨(partialSort Entry.key ((grown prev cur).map (entry prev))
        (min outMax (grown prev cur).length).toNat).map (resultOf s clkTck),
        min outMax (grown prev cur).length⟩ := by
  have want (n : Int) : (if n < outMax then n else outMax) = min outMax n := by
    rw [min_comm, min_def]
    split_ifs <;> omega
  simp only [computeTop5, collect_entryOf, List.length_map, if_neg some_grown, want]

theorem computeTop5_none (none : (grown prev cur).length = 0) :
    computeTop5 s prev.entries cur.entries outMax clkTck = ⟨[], 0⟩ := by
  simp only [computeTop5, collect_entryOf, List.length_map, if_pos none]

end Selection

end WfyApp.TopProcs
