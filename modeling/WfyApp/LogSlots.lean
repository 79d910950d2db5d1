import WfyApp.ScanText
import WfyApp.StepSystem

/-! The rotation of the log files of system_service: log.c, uart_log.c and sys_stat.c each
keep the number of the last slot in an index file. A start reads it, clears and opens the
next slot, and publishes its number by a rename before it logs anything. A process can be
killed between any two of its file operations. -/

namespace WfyApp.LogSlots
open ByteText NumberText ScanText StepSystem

inductive Kind where
  | system
  | kernel
  | statistics
deriving DecidableEq, Repr

def Kind.maxSlots : Kind → Nat
  | .system => 10
  | .kernel => 20
  | .statistics => 20

def Kind.dir : Kind → Bytes
  | .system => ascii "/system"
  | .kernel => ascii "/uart_log"
  | .statistics => ascii "/sys_stat"

def Kind.indexName : Kind → Bytes
  | .system => ascii "/now_index"
  | .kernel => ascii "/index_now"
  | .statistics => ascii "/index_now"

def Kind.slotName : Kind → Bytes
  | .system => ascii "/system.log."
  | .kernel => ascii "/log."
  | .statistics => ascii "/stat."

/-- `SYSTEM_SERVICE_LOG_ROOT`, short enough for the paths to fit their buffers. -/
structure LogRoot where
  bytes : Bytes
  short : bytes.length ≤ 100

def blackbox : LogRoot := ⟨ascii "/blackbox", by decide⟩

abbrev Disk := Bytes → Option Bytes

/-- The operations that change files. A stream is flushed when it is closed, so the text of
the index arrives in one piece. -/
inductive Op where
  | unlink (p : Bytes)
  | create (p : Bytes)
  | append (p data : Bytes)
  | rename (p q : Bytes)
deriving DecidableEq, Repr

def Op.run : Op → Disk → Disk
  | .unlink p, d => Function.update d p none
  | .create p, d => Function.update d p (some [])
  | .append p data, d => Function.update d p (some ((d p).getD [] ++ data))
  | .rename p q, d => Function.update (Function.update d q (d p)) p none

def Op.files : Op → List Bytes
  | .unlink p => [p]
  | .create p => [p]
  | .append p _ => [p]
  | .rename p q => [p, q]

def Op.destroys : Op → Bytes → Prop
  | .unlink p, file => file = p
  | .create p, file => file = p
  | .append _ _, _ => False
  | .rename p q, file => file = p ∨ file = q

section Model
variable (root : LogRoot) (k : Kind)

def indexFile : Bytes := root.bytes ++ (k.dir ++ k.indexName)

def tmpFile : Bytes := root.bytes ++ (k.dir ++ (k.indexName ++ ascii ".tmp"))

def slotFile (slot : Nat) : Bytes :=
  (snprintf 128 (root.bytes ++ (k.dir ++ (k.slotName ++ decimal slot)))).text

def indexText (slot : Nat) : Bytes := decimal slot ++ [newline]

def readIndex (file : Option Bytes) : Nat :=
  let idx : Int :=
    match file with
    | none => 0
    | some content =>
        match scanf [.number true] content with
        | [] => 0
        | x :: _ => x.toInt32.toInt
  if idx < 0 ∨ (k.maxSlots : Int) < idx then 0 else idx.toNat

/-- The slot of a start; only log.c has the second check. -/
def startSlot (prev : Nat) : Nat :=
  let slot := if k.maxSlots < prev + 1 then 1 else prev + 1
  match k with
  | .system => if slot < 1 then 1 else slot
  | .kernel => slot
  | .statistics => slot

inductive Phase where
  | unlinkSlot
  | openSlot
  | openTmp
  | writeTmp
  | publish
  | logging
deriving DecidableEq, Repr

def Phase.next : Phase → Phase
  | .unlinkSlot => .openSlot
  | .openSlot => .openTmp
  | .openTmp => .writeTmp
  | .writeTmp => .publish
  | .publish => .logging
  | .logging => .logging

def Phase.op (slot : Nat) (data : Bytes) : Phase → Op
  | .unlinkSlot => .unlink (slotFile root k slot)
  | .openSlot => .create (slotFile root k slot)
  | .openTmp => .create (tmpFile root k)
  | .writeTmp => .append (tmpFile root k) (indexText slot)
  | .publish => .rename (tmpFile root k) (indexFile root k)
  | .logging => .append (slotFile root k slot) data

inductive Process where
  | stopped
  | running (slot : Nat) (phase : Phase)
deriving DecidableEq, Repr

structure Event where
  slot : Nat
  op : Op
deriving DecidableEq, Repr

structure State where
  disk : Disk
  process : Process
  events : List Event

inductive Label where
  | start
  | work (data : Bytes)
  | kill
deriving DecidableEq, Repr

def State.initial (disk : Disk) : State := ⟨disk, .stopped, []⟩

def step (s : State) (l : Label) : Option State :=
  match l, s.process with
  | .start, .stopped =>
      let prev := readIndex k (s.disk (indexFile root k))
      some { s with process := .running (startSlot k prev) .unlinkSlot }
  | .work data, .running slot phase =>
      let op := phase.op root k slot data
      some ⟨op.run s.disk, .running slot phase.next, s.events ++ [⟨slot, op⟩]⟩
  | .kill, _ => some { s with process := .stopped }
  | _, _ => none

def Event.publishes (e : Event) : Bool := e.op == .rename (tmpFile root k) (indexFile root k)

def InRange (slot : Nat) : Prop := 1 ≤ slot ∧ slot ≤ k.maxSlots

def Event.writes (e : Event) : Option (Option Bytes) :=
  if e.publishes root k then some (some (indexText e.slot)) else none

/-- What is kept along every history, with the index file `before` the first start. -/
structure Rotated (before : Option Bytes) (s : State) : Prop where
  slots : ∀ e ∈ s.events, InRange k e.slot ∧
    ∀ p ∈ e.op.files, p ∈ [slotFile root k e.slot, tmpFile root k, indexFile root k]
  index : s.disk (indexFile root k) = latest (Event.writes root k) before s.events
  history : ∀ older e between x newer, s.events = older ++ e :: (between ++ x :: newer) →
    e.publishes root k = true → x.op.destroys (slotFile root k e.slot) →
    k.maxSlots - 1 ≤ (between.filter (Event.publishes root k)).length

end Model

section Slots
variable (k : Kind)

theorem startSlot_eq (prev : Nat) :
    startSlot k prev = if k.maxSlots < prev + 1 then 1 else prev + 1 := by
  cases k with
  | system =>
      rw [startSlot]
      split_ifs <;> omega
  | kernel => rfl
  | statistics => rfl

theorem maxSlots_pos : 1 ≤ k.maxSlots := by cases k <;> decide

theorem maxSlots_le : k.maxSlots ≤ 20 := by cases k <;> decide

theorem startSlot_inRange (prev : Nat) : InRange k (startSlot k prev) := by
  have pos := maxSlots_pos k
  rw [InRange, startSlot_eq]
  split_ifs <;> omega

theorem iterate_startSlot (slot n : Nat) (range : InRange k slot) (less : n < k.maxSlots) :
    (startSlot k)^[n] slot =
      if slot + n ≤ k.maxSlots then slot + n else slot + n - k.maxSlots := by
  obtain ⟨low, high⟩ := range
  induction n with
  | zero => rw [Function.iterate_zero_apply, Nat.add_zero, if_pos high]
  | succ n ih =>
      rw [Function.iterate_succ_apply', ih (by omega), startSlot_eq]
      split_ifs <;> omega

/-- A slot is used again after a whole round only. -/
theorem maxSlots_le_of_iterate (slot n : Nat) (range : InRange k slot)
    (again : (startSlot k)^[n + 1] slot = slot) : k.maxSlots ≤ n + 1 := by
  by_contra less
  rw [iterate_startSlot k slot (n + 1) range (by omega)] at again
  have low := range.1
  split_ifs at again <;> omega

theorem readIndex_indexText (slot : Nat) (range : InRange k slot) :
    readIndex k (some (indexText slot)) = slot := by
  have small := maxSlots_le k
  obtain ⟨low, high⟩ := range
  have plain : signed slot = decimal slot := by
    rw [signed, if_neg (by omega), Int.natAbs_natCast]
  have read := readNumber_signed [] (by simp) slot [newline] (numberEnds_cons _ _ (by decide))
  rw [List.nil_append, plain] at read
  have value : (Number.ofInt slot).toInt32.toInt = slot := by
    have back := Number.toInt32_ofInt (Int32.ofInt slot)
    rw [Int32.toInt_ofInt_of_le (by omega) (by omega)] at back
    rw [back, Int32.toInt_ofInt_of_le (by omega) (by omega)]
  have scanned : scanf [.number true] (indexText slot) = [Number.ofInt slot] := by
    rw [scanf, indexText, read]
    rfl
  simp only [readIndex, scanned, value]
  rw [if_neg (by omega), Int.toNat_natCast]

end Slots

section Paths
variable (root : LogRoot) (k : Kind)

theorem slotFile_eq (slot : Nat) (range : InRange k slot) :
    slotFile root k slot = root.bytes ++ (k.dir ++ (k.slotName ++ decimal slot)) := by
  have short := root.short
  have small := maxSlots_le k
  obtain ⟨-, high⟩ := range
  have digits := decimal_length_le slot 2 (by decide) (by omega)
  have names : k.dir.length + k.slotName.length ≤ 19 := by cases k <;> decide
  apply snprintf_text
  simp only [snprintf, List.length_append]
  omega

theorem slotFile_inj (m n : Nat) (left : InRange k m) (right : InRange k n)
    (same : slotFile root k m = slotFile root k n) : m = n := by
  rw [slotFile_eq root k m left, slotFile_eq root k n right] at same
  have names := List.append_cancel_left (List.append_cancel_left same)
  exact decimal_inj m n (List.append_cancel_left names)

theorem slotName_ne (k : Kind) (a b : Bytes) : k.slotName ++ a ≠ k.indexName ++ b := by
  intro same
  have second := congrArg (fun name : Bytes => name[1]?) same
  cases k <;> exact absurd second (by simp [Kind.slotName, Kind.indexName, ascii])

theorem slotFile_ne_indexFile (slot : Nat) (range : InRange k slot) :
    slotFile root k slot ≠ indexFile root k := by
  intro same
  rw [slotFile_eq root k slot range, indexFile, ← List.append_nil k.indexName] at same
  exact slotName_ne k _ _ (List.append_cancel_left (List.append_cancel_left same))

theorem slotFile_ne_tmpFile (slot : Nat) (range : InRange k slot) :
    slotFile root k slot ≠ tmpFile root k := by
  intro same
  rw [slotFile_eq root k slot range, tmpFile] at same
  exact slotName_ne k _ _ (List.append_cancel_left (List.append_cancel_left same))

theorem tmpFile_ne_indexFile : tmpFile root k ≠ indexFile root k := by
  intro same
  have lengths := congrArg List.length same
  have suffix : (ascii ".tmp").length = 4 := rfl
  simp only [tmpFile, indexFile, List.length_append, suffix] at lengths
  omega

end Paths

section Steps
variable (root : LogRoot) (k : Kind)

theorem step_cases (s t : State) (l : Label) (taken : step root k s l = some t) :
    (t.disk = s.disk ∧ t.events = s.events ∧ (t.process = .stopped ∨
      t.process = .running (startSlot k (readIndex k (s.disk (indexFile root k)))) .unlinkSlot)) ∨
    ∃ slot phase data, s.process = .running slot phase ∧
      t = ⟨(phase.op root k slot data).run s.disk, .running slot phase.next,
        s.events ++ [⟨slot, phase.op root k slot data⟩]⟩ := by
  cases l with
  | start =>
      cases now : s.process with
      | stopped =>
          simp only [step, now, Option.some.injEq] at taken
          rw [← taken]
          exact .inl ⟨rfl, rfl, .inr rfl⟩
      | running slot phase => simp [step, now] at taken
  | work data =>
      cases now : s.process with
      | stopped => simp [step, now] at taken
      | running slot phase =>
          simp only [step, now, Option.some.injEq] at taken
          exact .inr ⟨slot, phase, data, rfl, taken.symm⟩
  | kill =>
      simp only [step, Option.some.injEq] at taken
      rw [← taken]
      exact .inl ⟨rfl, rfl, .inl rfl⟩

theorem run_of_not_mem (op : Op) (d : Disk) (p : Bytes) (other : p ∉ op.files) :
    op.run d p = d p := by
  cases op with
  | unlink q => exact Function.update_of_ne (List.ne_of_not_mem_cons other) _ _
  | create q => exact Function.update_of_ne (List.ne_of_not_mem_cons other) _ _
  | append q data => exact Function.update_of_ne (List.ne_of_not_mem_cons other) _ _
  | rename q r =>
      rw [Op.files, List.mem_cons, List.mem_singleton, not_or] at other
      rw [Op.run, Function.update_of_ne other.1, Function.update_of_ne other.2]

variable (slot : Nat) (data : Bytes) (phase : Phase)

theorem op_files : ∀ p ∈ (phase.op root k slot data).files,
    p ∈ [slotFile root k slot, tmpFile root k, indexFile root k] := by
  cases phase <;> simp [Phase.op, Op.files]

theorem publishes_op : Event.publishes root k ⟨slot, phase.op root k slot data⟩ =
    decide (phase = .publish) := by
  cases phase <;> simp [Event.publishes, Phase.op]

/-- Only the first two operations of a start can destroy a slot, and it is their own. -/
theorem destroys_op (other : Nat) (range : InRange k slot) (known : InRange k other)
    (destroys : (phase.op root k slot data).destroys (slotFile root k other)) :
    phase ≠ .logging ∧ other = slot := by
  cases phase with
  | unlinkSlot => exact ⟨by decide, slotFile_inj root k other slot known range destroys⟩
  | openSlot => exact ⟨by decide, slotFile_inj root k other slot known range destroys⟩
  | openTmp => exact absurd destroys (slotFile_ne_tmpFile root k other known)
  | writeTmp => exact destroys.elim
  | publish =>
      exact destroys.elim (fun same => absurd same (slotFile_ne_tmpFile root k other known))
        (fun same => absurd same (slotFile_ne_indexFile root k other known))
  | logging => exact destroys.elim

/-- The index file changes with the rename only. -/
theorem run_op_index (d : Disk) (range : InRange k slot) :
    (phase.op root k slot data).run d (indexFile root k) =
      if phase = .publish then d (tmpFile root k) else d (indexFile root k) := by
  have slot_ne := (slotFile_ne_indexFile root k slot range).symm
  have tmp_ne := (tmpFile_ne_indexFile root k).symm
  cases phase with
  | publish =>
      rw [if_pos rfl, Phase.op, Op.run, Function.update_of_ne tmp_ne, Function.update_self]
  | _ =>
      rw [if_neg (by decide)]
      apply run_of_not_mem
      simpa [Phase.op, Op.files] using by assumption

end Steps

section History
variable (root : LogRoot) (k : Kind)

/-- Where a start is, and what the index and its temporary file hold then. -/
structure Underway (d : Disk) (slot : Nat) (phase : Phase) : Prop where
  range : InRange k slot
  unpublished : phase ≠ .logging → slot = startSlot k (readIndex k (d (indexFile root k)))
  opened : phase = .writeTmp → d (tmpFile root k) = some []
  written : phase = .publish → d (tmpFile root k) = some (indexText slot)

/-- The value of the index counts on from every slot that was published. -/
def Counts (s : State) : Prop :=
  ∀ older e newer, s.events = older ++ e :: newer → e.publishes root k = true →
    readIndex k (s.disk (indexFile root k)) =
      (startSlot k)^[(newer.filter (Event.publishes root k)).length] e.slot

structure Inv (before : Option Bytes) (s : State) : Prop where
  rotated : Rotated root k before s
  counts : Counts root k s
  underway : ∀ slot phase, s.process = .running slot phase → Underway root k s.disk slot phase

theorem inv_initial (disk : Disk) : Inv root k (disk (indexFile root k)) (.initial disk) where
  rotated := ⟨fun _ member => absurd member List.not_mem_nil, rfl,
    fun older e between x newer split => absurd split (by simp [State.initial])⟩
  counts := fun older e newer split => absurd split (by simp [State.initial])
  underway := fun _ _ running => nomatch running

variable (slot : Nat) (data : Bytes) (phase : Phase) (s : State)

theorem underway_next (d : Disk) (now : Underway root k d slot phase) :
    Underway root k ((phase.op root k slot data).run d) slot phase.next := by
  have slot_ne := slotFile_ne_tmpFile root k slot now.range
  have index := run_op_index root k slot data phase d now.range
  refine ⟨now.range, fun open_slot => ?_, fun opened => ?_, fun written => ?_⟩
  · have early : phase ≠ .publish := by
      rintro rfl
      exact open_slot rfl
    have earlier : phase ≠ .logging := by
      rintro rfl
      exact open_slot rfl
    rw [index, if_neg early]
    exact now.unpublished earlier
  · cases phase with
    | openTmp => rw [Phase.op, Op.run, Function.update_self]
    | _ => cases opened
  · cases phase with
    | writeTmp => rw [Phase.op, Op.run, Function.update_self, now.opened rfl, Option.getD_some,
        List.nil_append]
    | _ => cases written

theorem readIndex_run (d : Disk) (now : Underway root k d slot phase) :
    readIndex k ((phase.op root k slot data).run d (indexFile root k)) =
      if phase = .publish then slot else readIndex k (d (indexFile root k)) := by
  rw [run_op_index root k slot data phase d now.range]
  split_ifs with published
  · rw [now.written published, readIndex_indexText k slot now.range]
  · rfl

theorem counts_work (counts : Counts root k s) (now : Underway root k s.disk slot phase) :
    Counts root k ⟨(phase.op root k slot data).run s.disk, .running slot phase.next,
      s.events ++ [⟨slot, phase.op root k slot data⟩]⟩ := by
  intro older e newer split publishes
  show readIndex k ((phase.op root k slot data).run s.disk (indexFile root k)) = _
  rw [readIndex_run root k slot data phase s.disk now]
  rcases (concat_eq_append_cons _ _ _ _ _).mp split with ⟨-, rfl, rfl⟩ | ⟨middle, rfl, earlier⟩
  · rw [publishes_op, decide_eq_true_iff] at publishes
    rw [if_pos publishes]
    rfl
  · have value := counts older e middle earlier publishes
    rw [List.filter_append, List.length_append]
    by_cases published : phase = .publish
    · have one : [(⟨slot, phase.op root k slot data⟩ : Event)].filter (Event.publishes root k) =
          [⟨slot, phase.op root k slot data⟩] := by
        rw [List.filter_singleton, publishes_op, decide_eq_true published]
        rfl
      rw [if_pos published, one, List.length_singleton, Function.iterate_succ_apply', ← value]
      exact now.unpublished (by rw [published]; decide)
    · have none : [(⟨slot, phase.op root k slot data⟩ : Event)].filter (Event.publishes root k) =
          [] := by
        rw [List.filter_singleton, publishes_op, decide_eq_false published]
        rfl
      rw [if_neg published, none, List.length_nil, Nat.add_zero, value]

theorem rotated_work (before : Option Bytes) (inv : Inv root k before s)
    (now : Underway root k s.disk slot phase) :
    Rotated root k before ⟨(phase.op root k slot data).run s.disk, .running slot phase.next,
      s.events ++ [⟨slot, phase.op root k slot data⟩]⟩ where
  slots := by
    intro e member
    rcases List.mem_append.mp member with earlier | last
    · exact inv.rotated.slots e earlier
    · rw [List.mem_singleton.mp last]
      exact ⟨now.range, op_files root k slot data phase⟩
  index := by
    show (phase.op root k slot data).run s.disk (indexFile root k) = _
    rw [run_op_index root k slot data phase s.disk now.range, latest_concat, Event.writes,
      publishes_op]
    by_cases published : phase = .publish
    · rw [if_pos published, if_pos (decide_eq_true published), now.written published]
      rfl
    · rw [if_neg published, if_neg (by simpa using published)]
      exact inv.rotated.index
  history := by
    intro older e between x newer split publishes destroys
    rw [← List.cons_append, ← List.append_assoc] at split
    rcases (concat_eq_append_cons _ _ _ _ _).mp split with ⟨past, rfl, -⟩ | ⟨middle, -, past⟩
    · have known := (inv.rotated.slots e (by rw [past]; simp)).1
      obtain ⟨early, rfl⟩ := destroys_op root k slot data phase e.slot now.range known destroys
      have value := inv.counts older e between past publishes
      have again := now.unpublished early
      rw [value, ← Function.iterate_succ_apply' (startSlot k)] at again
      have round := maxSlots_le_of_iterate k e.slot _ known again.symm
      omega
    · rw [List.append_assoc, List.cons_append] at past
      exact inv.rotated.history older e between x middle past publishes destroys

theorem inv_step (before : Option Bytes) (s : State) (l : Label) (t : State)
    (inv : Inv root k before s) (taken : step root k s l = some t) : Inv root k before t := by
  rcases step_cases root k s t l taken with ⟨disk, events, process⟩ | ⟨slot, phase, data, now, rfl⟩
  · refine ⟨⟨?_, ?_, ?_⟩, ?_, ?_⟩
    · rw [events]
      exact inv.rotated.slots
    · rw [disk, events]
      exact inv.rotated.index
    · rw [events]
      exact inv.rotated.history
    · rw [Counts, disk, events]
      exact inv.counts
    · intro slot phase running
      rcases process with stopped | started
      · rw [stopped] at running
        cases running
      · rw [started] at running
        cases running
        rw [disk]
        exact ⟨startSlot_inRange k _, fun _ => rfl, nofun, nofun⟩
  · have underway := inv.underway slot phase now
    refine ⟨rotated_work root k slot data phase s before inv underway,
      counts_work root k slot data phase s inv.counts underway, ?_⟩
    intro slot' phase' running
    cases running
    exact underway_next root k slot data phase s.disk underway

/-- Whatever the index file held, and whenever the starts are killed. -/
theorem rotation_keeps_history (disk : Disk) (labels : List Label) (s : State)
    (reached : exec (step root k) (.initial disk) labels = some s) :
    Rotated root k (disk (indexFile root k)) s :=
  (exec_induction (step root k) (.initial disk) (Inv root k (disk (indexFile root k)))
    (inv_initial root k disk) (inv_step root k (disk (indexFile root k))) labels s reached).rotated

/-- A start that is killed before the rename, and starts that log one line each, until the
first slot is used again. -/
def roundRun : List Label :=
  [.start, .work [], .work [], .kill] ++
    (List.replicate 11 (.start :: (List.replicate 6 (.work [newline]) ++ [.kill]))).flatten

def publishedSlots (s : State) : List Nat :=
  (s.events.filter (Event.publishes blackbox .system)).map Event.slot

theorem roundRun_published :
    (exec (step blackbox .system) (.initial fun _ => none) roundRun).map publishedSlots =
      some (List.range' 1 10 ++ [1]) := by
  decide +kernel

theorem roundRun_rotated :
    ∃ s, exec (step blackbox .system) (.initial fun _ => none) roundRun = some s ∧
      publishedSlots s = List.range' 1 10 ++ [1] ∧ Rotated blackbox .system none s := by
  obtain ⟨s, reached, slots⟩ := Option.map_eq_some_iff.mp roundRun_published
  exact ⟨s, reached, slots,
    rotation_keeps_history blackbox .system (fun _ => none) roundRun s reached⟩

end History

end WfyApp.LogSlots
