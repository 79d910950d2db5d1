import WfyApp.ServiceLog
import WfyApp.StepSystem

/-! What system_service writes to its log slots. `log_print` of log.c builds a line in a
buffer of 1280 bytes and puts it under the lock of the stream, byte by byte, with the calls
of other threads in between; uart_log.c copies /dev/kmsg with writes that may be short.
Messages are what the format and its arguments print, as texts without NUL. -/

namespace WfyApp.LogOutput
open ByteText LogText NumberText ServiceLog StepSystem

section Line

def levelNumber : LogLevel → Nat
  | .e => 0
  | .w => 1
  | .i => 2
  | .d => 3

def levelChar : LogLevel → UInt8
  | .e => 0x45
  | .w => 0x57
  | .i => 0x49
  | .d => 0x44

structure CText where
  bytes : Bytes
  nulFree : 0 ∉ bytes

structure Call where
  level : LogLevel
  module : Option CText
  message : Option CText
  hour : Nat
  minute : Nat
  second : Nat
  millis : Nat

variable (c : Call)

def Call.tag : Bytes := (c.module.map CText.bytes).getD (ascii "?")

def Call.text : Bytes := (c.message.map CText.bytes).getD []

/-- `[%02d:%02d:%02d.%03ld] [%c] [%s] `. -/
def Call.header : Bytes :=
  0x5B :: (decimalPadded 2 c.hour ++ 0x3A :: (decimalPadded 2 c.minute ++ 0x3A ::
    (decimalPadded 2 c.second ++ 0x2E :: (decimalPadded 3 c.millis ++
      [0x5D, 0x20, 0x5B, levelChar c.level, 0x5D, 0x20, 0x5B] ++ (c.tag ++ [0x5D, 0x20])))))

def printedLength (text : Bytes) : Int := if text.length < 2 ^ 31 then text.length else -1

/-- `if (n < 0) n = 0; if (n >= limit) n = limit - 1;`. -/
def clamp (limit : Nat) (n : Int) : Nat :=
  let n := if n < 0 then 0 else n
  (if limit ≤ n then (limit - 1 : Int) else n).toNat

def Call.headerEnd : Nat := clamp 1280 (printedLength c.header)

/-- `n` after the message; the sum is one of `int`. -/
def Call.lineEnd : Nat := clamp 1279 (Int.bmod (c.headerEnd + printedLength c.text) (2 ^ 32))

def Call.buffer : Bytes :=
  (snprintf 1280 c.header).text.take c.headerEnd ++ (snprintf (1280 - c.headerEnd) c.text).text

def Call.wrote : Nat := c.lineEnd + 1

/-- What `fputs` puts: `line` up to the first NUL. -/
def Call.line : Bytes := cstr (c.buffer.take c.lineEnd ++ [newline])

theorem clamp_eq (limit : Nat) (n : Int) (pos : 0 < limit) :
    clamp limit n = min n.toNat (limit - 1) := by
  simp only [clamp]
  split_ifs <;> omega

theorem printedLength_le (text : Bytes) : printedLength text ≤ text.length := by
  rw [printedLength]
  split_ifs <;> omega

theorem printedLength_bounds (text : Bytes) :
    -1 ≤ printedLength text ∧ printedLength text < 2 ^ 31 := by
  rw [printedLength]
  split_ifs <;> omega

theorem bmod_toNat_le (x : Int) (low : -1 ≤ x) (high : x < 2 ^ 32) :
    (x.bmod (2 ^ 32)).toNat ≤ x.toNat := by
  rw [Int.bmod_def]
  norm_num
  split_ifs <;> omega

theorem headerEnd_le : c.headerEnd ≤ min c.header.length 1279 := by
  have length := printedLength_le c.header
  rw [Call.headerEnd, clamp_eq 1280 _ (by decide)]
  omega

theorem lineEnd_le : c.lineEnd ≤ 1278 := by
  rw [Call.lineEnd, clamp_eq 1279 _ (by decide)]
  exact min_le_right _ _

theorem header_kept : ((snprintf 1280 c.header).text.take c.headerEnd).length = c.headerEnd := by
  have bound := headerEnd_le c
  rw [snprintf, List.length_take, List.length_take]
  omega

theorem buffer_length :
    c.buffer.length = c.headerEnd + min (1279 - c.headerEnd) c.text.length := by
  rw [Call.buffer, List.length_append, header_kept, snprintf, List.length_take]
  omega

/-- `line[n]` is within the texts, so the line has no stale bytes. -/
theorem lineEnd_le_buffer : c.lineEnd ≤ c.buffer.length := by
  have header := headerEnd_le c
  have length := printedLength_le c.text
  have bounds := printedLength_bounds c.text
  have sum := bmod_toNat_le (c.headerEnd + printedLength c.text) (by omega) (by omega)
  rw [buffer_length, Call.lineEnd, clamp_eq 1279 _ (by decide)]
  omega

theorem zero_not_mem_padded (width n : Nat) : 0 ∉ decimalPadded width n := by
  intro member
  rcases List.mem_append.mp member with zeros | digits
  · exact absurd (List.eq_of_mem_replicate zeros) (by decide)
  · exact absurd (decimal_digits n 0 digits).1 (by decide)

theorem zero_not_mem_tag : 0 ∉ c.tag := by
  rw [Call.tag]
  cases c.module with
  | none => decide
  | some name => exact name.nulFree

theorem zero_not_mem_text : 0 ∉ c.text := by
  rw [Call.text]
  cases c.message with
  | none => exact List.not_mem_nil
  | some message => exact message.nulFree

theorem levelChar_ne_zero (level : LogLevel) : levelChar level ≠ 0 := by cases level <;> decide

theorem zero_not_mem_header : 0 ∉ c.header := by
  have letter := (levelChar_ne_zero c.level).symm
  simp [Call.header, zero_not_mem_padded, zero_not_mem_tag, letter]

theorem zero_not_mem_buffer : 0 ∉ c.buffer := by
  rw [Call.buffer, List.mem_append, not_or]
  exact ⟨fun member => zero_not_mem_header c (List.mem_of_mem_take (List.mem_of_mem_take member)),
    fun member => zero_not_mem_text c (List.mem_of_mem_take member)⟩

theorem line_eq : c.line = c.buffer.take c.lineEnd ++ [newline] := by
  rw [Call.line, cstr_eq_self_iff, List.mem_append, not_or]
  exact ⟨fun member => zero_not_mem_buffer c (List.mem_of_mem_take member), by decide⟩

attribute [irreducible] Call.line

theorem line_length : c.line.length = c.wrote := by
  rw [line_eq, List.length_append, List.length_take, min_eq_left (lineEnd_le_buffer c)]
  rfl

theorem line_length_le : c.line.length ≤ 1279 := by
  have bound := lineEnd_le c
  rw [line_length, Call.wrote]
  omega

theorem line_last : c.line.getLast? = some newline := by rw [line_eq, List.getLast?_concat]

theorem buffer_of_small (small : c.header.length < 2 ^ 31) :
    c.buffer = (c.header ++ c.text).take 1279 := by
  have header : c.headerEnd = min c.header.length 1279 := by
    rw [Call.headerEnd, clamp_eq 1280 _ (by decide), printedLength, if_pos small, Int.toNat_natCast]
  have kept : (c.header.take (1280 - 1)).take c.headerEnd = c.header.take 1279 := by
    rw [List.take_take, List.take_eq_take_iff]
    omega
  have left : 1280 - c.headerEnd - 1 = 1279 - c.header.length := by omega
  rw [Call.buffer, snprintf, snprintf, kept, left, ← List.take_append]

/-- As long as the lengths are those of an `int`, a line is the beginning of its text. -/
theorem line_of_small (small : c.header.length + c.text.length < 2 ^ 31) :
    c.line = (c.header ++ c.text).take 1278 ++ [newline] := by
  have header : c.headerEnd = min c.header.length 1279 := by
    rw [Call.headerEnd, clamp_eq 1280 _ (by decide), printedLength, if_pos (by omega),
      Int.toNat_natCast]
  have ending : c.lineEnd = min (c.headerEnd + c.text.length) 1278 := by
    rw [Call.lineEnd, clamp_eq 1279 _ (by decide), printedLength, if_pos (by omega),
      Int.bmod_eq_of_le (by omega) (by omega)]
    omega
  rw [line_eq, buffer_of_small c (by omega), ending, header, List.take_take]
  congr 1
  rw [List.take_eq_take_iff, List.length_append]
  omega

theorem header_length (hour : c.hour < 100) (minute : c.minute < 100) (second : c.second < 100)
    (millis : c.millis < 1000) : c.header.length = 22 + c.tag.length := by
  have two (n : Nat) (small : n < 100) : (decimalPadded 2 n).length = 2 := by
    have digits := decimal_length_le n 2 (by decide) small
    rw [decimalPadded, List.length_append, List.length_replicate]
    omega
  have three : (decimalPadded 3 c.millis).length = 3 := by
    have digits := decimal_length_le c.millis 3 (by decide) millis
    rw [decimalPadded, List.length_append, List.length_replicate]
    omega
  simp only [Call.header, List.length_cons, List.length_append, List.length_nil, two _ hour,
    two _ minute, two _ second, three]
  omega

/-- After the header a line has the text that the dispatcher's log lines are compared by. -/
theorem line_eq_logPrint (hour : c.hour < 100) (minute : c.minute < 100) (second : c.second < 100)
    (millis : c.millis < 1000) (small : c.tag.length + c.text.length < 2 ^ 30)
    (short : c.tag.length ≤ 1256) :
    c.line = c.header ++ (logPrint c.level c.tag c.text).text ++ [newline] := by
  have header := header_length c hour minute second millis
  rw [line_of_small c (by omega), List.take_append, List.take_of_length_le (by omega), header]
  rfl

/-- So the dispatcher's lines are counted as they are here. -/
theorem wrote_eq_size (hour : c.hour < 100) (minute : c.minute < 100) (second : c.second < 100)
    (millis : c.millis < 1000) (small : c.tag.length + c.text.length < 2 ^ 30)
    (short : c.tag.length ≤ 1256) : c.wrote = (logPrint c.level c.tag c.text).size := by
  have line := congrArg List.length (line_eq_logPrint c hour minute second millis small short)
  rw [line_length, List.length_append, List.length_append,
    header_length c hour minute second millis] at line
  exact line

end Line

section Slot
variable {τ : Type}

/-- The line that `log_init` writes before the first call; it is not counted. -/
def banner (slot : Nat) (time : CString 32) : Bytes :=
  ascii "==== system_service boot slot=" ++ decimal slot ++ ascii " time=" ++ time.bytes ++
    ascii " cap=" ++ decimal (perSlotCap / (1024 * 1024)) ++ ascii " MiB ====" ++ [newline]

/-- What the thread with the lock of the stream does next. -/
inductive Held where
  | locked (c : Call)
  | putting (c : Call) (sent : Nat)
  | marking (sent : Nat)
  | unlocking

inductive Ending where
  | filtered
  | dropped
  | appended
deriving DecidableEq

structure Event (τ : Type) where
  thread : τ
  call : Call
  ending : Ending

/-- The slot file and the state of log.c, and beside it the calls so far and how they ended. -/
structure State (τ : Type) where
  file : Bytes
  written : Nat
  full : Bool
  minLevel : LogLevel
  waiting : τ → Option Call
  holder : Option (τ × Held)
  called : List (τ × Call)
  events : List (Event τ)

inductive Label (τ : Type) where
  | setLevel (level : LogLevel)
  | call (t : τ) (c : Call)
  | lock (t : τ)
  | work (t : τ)

def State.initial (start : Bytes) : State τ := ⟨start, 0, false, .i, fun _ => none, none, [], []⟩

def State.work (s : State τ) (t : τ) : Held → State τ
  | .locked c =>
      if s.full then
        { s with holder := some (t, .unlocking), events := s.events ++ [⟨t, c, .dropped⟩] }
      else { s with holder := some (t, .putting c 0) }
  | .putting c sent =>
      match c.line[sent]? with
      | some b => { s with file := s.file ++ [b], holder := some (t, .putting c (sent + 1)) }
      | none =>
          let written := s.written + c.wrote
          { s with
            written := written
            events := s.events ++ [⟨t, c, .appended⟩]
            holder := some (t, if !s.full && perSlotCap ≤ written then .marking 0 else .unlocking) }
  | .marking sent =>
      match fullMarker[sent]? with
      | some b => { s with file := s.file ++ [b], holder := some (t, .marking (sent + 1)) }
      | none => { s with full := true, holder := some (t, .unlocking) }
  | .unlocking => { s with holder := none }

def step [DecidableEq τ] (s : State τ) : Label τ → Option (State τ)
  | .setLevel level => some { s with minLevel := level }
  | .call t c =>
      if s.waiting t ≠ none ∨ s.holder.any (fun held => held.1 = t) then none
      else if levelNumber s.minLevel < levelNumber c.level then
        some { s with
          called := s.called ++ [(t, c)]
          events := s.events ++ [⟨t, c, .filtered⟩] }
      else
        some { s with
          called := s.called ++ [(t, c)]
          waiting := Function.update s.waiting t (some c) }
  | .lock t =>
      match s.waiting t, s.holder with
      | some c, none =>
          some { s with
            waiting := Function.update s.waiting t none
            holder := some (t, .locked c) }
      | _, _ => none
  | .work t =>
      match s.holder with
      | some (u, held) => if u = t then some (s.work t held) else none
      | none => none

def Event.record (e : Event τ) : Option Call := if e.ending = .appended then some e.call else none

def recordsOf (events : List (Event τ)) : List Call := events.filterMap Event.record

def State.records (s : State τ) : List Call := recordsOf s.events

/-- What follows the whole records: a beginning of the next one, or of the marker. -/
def State.tail (s : State τ) : Bytes :=
  match s.holder with
  | some (_, .putting c sent) => c.line.take sent
  | some (_, .marking sent) => fullMarker.take sent
  | _ => if s.full then fullMarker else []

def State.marked (s : State τ) : Bool :=
  match s.holder with
  | some (_, .marking sent) => fullMarker.length ≤ sent
  | _ => s.full

def State.underway [DecidableEq τ] (s : State τ) (t : τ) : Option Call :=
  match s.holder with
  | some (u, .locked c) => if u = t then some c else s.waiting t
  | some (u, .putting c _) => if u = t then some c else s.waiting t
  | _ => s.waiting t

def State.callsOf [DecidableEq τ] (s : State τ) (t : τ) : List Call :=
  (s.called.filter fun p => p.1 = t).map Prod.snd

def State.endedOf [DecidableEq τ] (s : State τ) (t : τ) : List Call :=
  (s.events.filter fun e => e.thread = t).map Event.call

structure Whole [DecidableEq τ] (start : Bytes) (s : State τ) : Prop where
  file : s.file = start ++ (s.records.flatMap Call.line ++ s.tail)
  lines : ∀ c ∈ s.records, c.line.length ≤ 1279 ∧ c.line.getLast? = some newline
  calls : ∀ t, s.callsOf t = s.endedOf t ++ (s.underway t).toList
  bound : s.file.length ≤ start.length + perSlotCap + 1279 + fullMarker.length
  marked : s.marked = true → s.file = start ++ (s.records.flatMap Call.line ++ fullMarker)
  after : s.marked = true → ∀ labels t, exec step s labels = some t → t.file = s.file

structure Inv (start : Bytes) (s : State τ) : Prop where
  file : s.file = start ++ (s.records.flatMap Call.line ++ s.tail)
  written : s.written = (s.records.flatMap Call.line).length
  below : s.written < perSlotCap + 1279
  room : s.full = false → (∀ t sent, s.holder ≠ some (t, .marking sent)) → s.written < perSlotCap
  putting : ∀ t c sent, s.holder = some (t, .putting c sent) → s.full = false
  marking : ∀ t sent, s.holder = some (t, .marking sent) → s.full = false

theorem recordsOf_concat (events : List (Event τ)) (e : Event τ) :
    recordsOf (events ++ [e]) = recordsOf events ++ e.record.toList := by
  rw [recordsOf, List.filterMap_append]
  rfl

theorem take_succ_of_some (text : Bytes) (sent : Nat) (b : UInt8) (next : text[sent]? = some b) :
    text.take (sent + 1) = text.take sent ++ [b] := by
  rw [List.take_add_one, next, Option.toList_some]

theorem take_of_none (text : Bytes) (sent : Nat) (done : text[sent]? = none) :
    text.take sent = text :=
  List.take_of_length_le (List.getElem?_eq_none_iff.mp done)

theorem inv_initial (start : Bytes) : Inv start (State.initial start : State τ) where
  file := (List.append_nil start).symm
  written := rfl
  below := Nat.lt_add_right 1279 perSlotCap_pos
  room := fun _ _ => perSlotCap_pos
  putting := nofun
  marking := nofun

variable (start : Bytes) (s : State τ) (t : τ)

theorem inv_locked (c : Call) (inv : Inv start s) (now : s.holder = some (t, .locked c)) :
    Inv start (s.work t (.locked c)) := by
  have file := inv.file
  simp only [State.tail, now] at file
  rw [State.work]
  by_cases full : s.full = true
  · have kept : recordsOf (s.events ++ [⟨t, c, .dropped⟩]) = s.records := by
      rw [recordsOf_concat]
      exact List.append_nil _
    rw [if_pos full]
    refine ⟨?_, ?_, inv.below, fun other => absurd full (Bool.eq_false_iff.mp other), nofun, nofun⟩
    · simp only [State.records, kept]
      exact file
    · simp only [State.records, kept]
      exact inv.written
  · have open_slot := Bool.eq_false_iff.mpr full
    rw [if_neg full]
    refine ⟨?_, inv.written, inv.below, fun _ _ => ?_, fun _ _ _ _ => open_slot, nofun⟩
    · simp only [State.tail, List.take_zero]
      rwa [if_neg full] at file
    · exact inv.room open_slot (by rw [now]; nofun)

theorem inv_putting_byte (c : Call) (sent : Nat) (b : UInt8) (inv : Inv start s)
    (now : s.holder = some (t, .putting c sent)) (next : c.line[sent]? = some b) :
    Inv start (s.work t (.putting c sent)) := by
  have file := inv.file
  have full := inv.putting t c sent now
  simp only [State.tail, now] at file
  simp only [State.work, next]
  refine ⟨?_, inv.written, inv.below, fun _ _ => ?_, fun _ _ _ _ => full, nofun⟩
  · simp only [State.tail, take_succ_of_some c.line sent b next]
    rw [file, List.append_assoc, List.append_assoc]
    rfl
  · exact inv.room full (by rw [now]; nofun)

/-- After a whole record, the marker or nothing follows. -/
theorem tail_counted (open_slot : s.full = false) (written : Nat) (events : List (Event τ))
    (P : Prop) [Decidable P] : State.tail { s with
      written := written
      events := events
      holder := some (t, if P then .marking 0 else .unlocking) } = [] := by
  by_cases mark : P
  · simp only [State.tail, if_pos mark, List.take_zero]
  · simp only [State.tail, if_neg mark, open_slot, Bool.false_eq_true, if_false]

theorem inv_putting_end (c : Call) (sent : Nat) (inv : Inv start s)
    (now : s.holder = some (t, .putting c sent)) (done : c.line[sent]? = none) :
    Inv start (s.work t (.putting c sent)) := by
  have file := inv.file
  have open_slot := inv.putting t c sent now
  have before := inv.room open_slot (by rw [now]; nofun)
  have length := line_length c
  have short := line_length_le c
  have more : recordsOf (s.events ++ [⟨t, c, .appended⟩]) = s.records ++ [c] := by
    rw [recordsOf_concat]
    rfl
  simp only [State.tail, now, take_of_none c.line sent done] at file
  simp only [State.work, done]
  refine ⟨?_, ?_, ?_, ?_, ?_, fun _ _ _ => open_slot⟩
  · rw [tail_counted s t open_slot, List.append_nil]
    simp only [State.records, more, List.flatMap_append, List.flatMap_singleton]
    exact file
  · simp only [State.records, more, List.flatMap_append, List.length_append,
      List.flatMap_singleton, length]
    rw [inv.written]
    rfl
  · show s.written + c.wrote < _
    omega
  · intro _ unmarked
    show s.written + c.wrote < perSlotCap
    by_contra above
    exact unmarked t 0 (by rw [open_slot, if_pos (by simpa using above)])
  · intro u c' sent' running
    split_ifs at running <;> cases running

theorem inv_marking (sent : Nat) (inv : Inv start s) (now : s.holder = some (t, .marking sent)) :
    Inv start (s.work t (.marking sent)) := by
  have file := inv.file
  have full := inv.marking t sent now
  simp only [State.tail, now] at file
  cases next : fullMarker[sent]? with
  | some b =>
      simp only [State.work, next]
      refine ⟨?_, inv.written, inv.below, fun _ unmarked => absurd rfl (unmarked t (sent + 1)),
        nofun, fun _ _ _ => full⟩
      simp only [State.tail, take_succ_of_some fullMarker sent b next]
      rw [file, List.append_assoc, List.append_assoc]
      rfl
  | none =>
      simp only [State.work, next]
      refine ⟨?_, inv.written, inv.below, nofun, nofun, nofun⟩
      rw [take_of_none fullMarker sent next] at file
      exact file

theorem inv_unlocking (inv : Inv start s) (now : s.holder = some (t, .unlocking)) :
    Inv start (s.work t .unlocking) := by
  have file := inv.file
  simp only [State.tail, now] at file
  exact ⟨file, inv.written, inv.below, fun full _ => inv.room full (by rw [now]; nofun), nofun, nofun⟩

theorem inv_work (held : Held) (inv : Inv start s) (now : s.holder = some (t, held)) :
    Inv start (s.work t held) := by
  cases held with
  | locked c => exact inv_locked start s t c inv now
  | putting c sent =>
      cases next : c.line[sent]? with
      | some b => exact inv_putting_byte start s t c sent b inv now next
      | none => exact inv_putting_end start s t c sent inv now next
  | marking sent => exact inv_marking start s t sent inv now
  | unlocking => exact inv_unlocking start s t inv now

theorem written_add_tail_le (inv : Inv start s) :
    s.written + s.tail.length ≤ perSlotCap + 1279 + fullMarker.length := by
  have below := inv.below
  rw [State.tail]
  split
  · rename_i t c sent now
    have short := line_length_le c
    have room := inv.room (inv.putting t c sent now) (by rw [now]; nofun)
    rw [List.length_take]
    omega
  · rw [List.length_take]
    omega
  · split_ifs
    · omega
    · rw [List.length_nil]
      omega

theorem file_length_le (inv : Inv start s) :
    s.file.length ≤ start.length + perSlotCap + 1279 + fullMarker.length := by
  have parts := written_add_tail_le start s inv
  have written := inv.written
  rw [inv.file, List.length_append, List.length_append]
  omega

theorem tail_of_marked (inv : Inv start s) (marked : s.marked = true) : s.tail = fullMarker := by
  rw [State.marked] at marked
  split at marked
  · rename_i t sent now
    rw [State.tail, now]
    exact List.take_of_length_le (of_decide_eq_true marked)
  · rename_i other
    rw [State.tail]
    split
    · rename_i t c sent now
      rw [inv.putting t c sent now] at marked
      cases marked
    · rename_i t sent now
      exact absurd now (other t sent)
    · rw [if_pos marked]

variable [DecidableEq τ]

/-- What a step does: a thread with the lock works, one takes the lock, or the stream stays
as it is. -/
theorem step_cases (u : State τ) (l : Label τ) (taken : step s l = some u) :
    (∃ t held, s.holder = some (t, held) ∧ u = s.work t held) ∨
    (∃ t c, s.waiting t = some c ∧ s.holder = none ∧ u = { s with
      waiting := Function.update s.waiting t none, holder := some (t, .locked c) }) ∨
    (∃ level, u = { s with minLevel := level }) ∨
    ∃ t c, s.waiting t = none ∧ (∀ held, s.holder ≠ some (t, held)) ∧
      (u = { s with called := s.called ++ [(t, c)], events := s.events ++ [⟨t, c, .filtered⟩] } ∨
        u = { s with
          called := s.called ++ [(t, c)], waiting := Function.update s.waiting t (some c) }) := by
  cases l with
  | setLevel level =>
      exact .inr (.inr (.inl ⟨level, (Option.some.inj taken).symm⟩))
  | call t c =>
      simp only [step] at taken
      split_ifs at taken with busy filtered
      · obtain ⟨idle, free⟩ := not_or.mp busy
        have other : ∀ held, s.holder ≠ some (t, held) := by
          intro held same
          exact free (by rw [same]; simp)
        exact .inr (.inr (.inr ⟨t, c, not_not.mp idle, other, .inl (Option.some.inj taken).symm⟩))
      · obtain ⟨idle, free⟩ := not_or.mp busy
        have other : ∀ held, s.holder ≠ some (t, held) := by
          intro held same
          exact free (by rw [same]; simp)
        exact .inr (.inr (.inr ⟨t, c, not_not.mp idle, other, .inr (Option.some.inj taken).symm⟩))
  | lock t =>
      simp only [step] at taken
      split at taken
      · rename_i c waiting free
        exact .inr (.inl ⟨t, c, waiting, free, (Option.some.inj taken).symm⟩)
      · cases taken
  | work t =>
      cases now : s.holder with
      | none => simp [step, now] at taken
      | some pair =>
          obtain ⟨u', held⟩ := pair
          simp only [step, now] at taken
          split_ifs at taken with same
          subst same
          exact .inl ⟨u', held, rfl, (Option.some.inj taken).symm⟩

theorem inv_step (s : State τ) (l : Label τ) (u : State τ) (inv : Inv start s)
    (taken : step s l = some u) : Inv start u := by
  rcases step_cases s u l taken with ⟨t, held, now, rfl⟩ | ⟨t, c, -, free, rfl⟩ | ⟨level, rfl⟩ |
    ⟨t, c, -, -, rfl | rfl⟩
  · exact inv_work start s t held inv now
  · have file := inv.file
    simp only [State.tail, free] at file
    exact ⟨file, inv.written, inv.below, fun full _ => inv.room full (by rw [free]; nofun), nofun,
      nofun⟩
  · exact ⟨inv.file, inv.written, inv.below, inv.room, inv.putting, inv.marking⟩
  · have kept : recordsOf (s.events ++ [⟨t, c, .filtered⟩]) = s.records := by
      rw [recordsOf_concat]
      exact List.append_nil _
    refine ⟨?_, ?_, inv.below, inv.room, inv.putting, inv.marking⟩
    · simp only [State.records, kept]
      exact inv.file
    · simp only [State.records, kept]
      exact inv.written
  · exact ⟨inv.file, inv.written, inv.below, inv.room, inv.putting, inv.marking⟩

/-- A thread is in one call at a time, and its calls end in the order in which it makes
them. -/
structure Accounted (s : State τ) : Prop where
  single : ∀ t held, s.holder = some (t, held) → s.waiting t = none
  calls : ∀ t, s.callsOf t = s.endedOf t ++ (s.underway t).toList

theorem endedOf_concat (e : Event τ) (u : State τ) (more : u.events = s.events ++ [e]) (t : τ) :
    u.endedOf t = s.endedOf t ++ if e.thread = t then [e.call] else [] := by
  rw [State.endedOf, more, List.filter_append, List.map_append, List.filter_singleton]
  by_cases own : e.thread = t <;> simp [own, State.endedOf]

theorem callsOf_concat (p : τ × Call) (u : State τ) (more : u.called = s.called ++ [p]) (t : τ) :
    u.callsOf t = s.callsOf t ++ if p.1 = t then [p.2] else [] := by
  rw [State.callsOf, more, List.filter_append, List.map_append, List.filter_singleton]
  by_cases own : p.1 = t <;> simp [own, State.callsOf]

theorem accounted_ended (c : Call) (ending : Ending) (held : Held) (u : State τ)
    (acc : Accounted s) (now : s.holder = some (t, held)) (inside : s.underway t = some c)
    (others : ∀ v, v ≠ t → s.underway v = s.waiting v) (called : u.called = s.called)
    (events : u.events = s.events ++ [⟨t, c, ending⟩]) (waiting : u.waiting = s.waiting)
    (after : ∃ held', u.holder = some (t, held')) (done : ∀ v, u.underway v = u.waiting v) :
    Accounted u where
  single := by
    intro v held' running
    obtain ⟨last, mine⟩ := after
    rw [mine] at running
    cases running
    rw [waiting]
    exact acc.single t held now
  calls := by
    intro v
    have same : u.callsOf v = s.callsOf v := by rw [State.callsOf, called, State.callsOf]
    rw [same, acc.calls v, endedOf_concat s ⟨t, c, ending⟩ u events v, done v, waiting]
    by_cases own : t = v
    · subst own
      rw [inside, acc.single t held now, if_pos rfl]
      exact (List.append_nil _).symm
    · rw [others v (Ne.symm own), if_neg own, List.append_nil]

theorem accounted_same (u : State τ) (acc : Accounted s) (called : u.called = s.called)
    (events : u.events = s.events) (waiting : u.waiting = s.waiting)
    (holders : ∀ t held, u.holder = some (t, held) → ∃ held', s.holder = some (t, held'))
    (underway : ∀ v, u.underway v = s.underway v) : Accounted u where
  single := by
    intro v held running
    obtain ⟨held', before⟩ := holders v held running
    rw [waiting]
    exact acc.single v held' before
  calls := by
    intro v
    have calls := acc.calls v
    rw [State.callsOf, State.endedOf] at calls ⊢
    rw [called, events, underway v]
    exact calls

theorem accounted_work (held : Held) (acc : Accounted s) (now : s.holder = some (t, held)) :
    Accounted (s.work t held) := by
  have mine (last : Held) (v : τ) (next : Held) (same : some (t, last) = some (v, next)) :
      ∃ held', s.holder = some (v, held') := by
    cases same
    exact ⟨held, now⟩
  cases held with
  | locked c =>
      have inside (v : τ) : s.underway v = if t = v then some c else s.waiting v := by
        simp only [State.underway, now]
      rw [State.work]
      by_cases full : s.full = true
      · rw [if_pos full]
        exact accounted_ended s t c .dropped _ _ acc now (by rw [inside, if_pos rfl])
          (fun v other => by rw [inside, if_neg (Ne.symm other)]) rfl rfl rfl ⟨_, rfl⟩ fun _ => rfl
      · rw [if_neg full]
        exact accounted_same s _ acc rfl rfl rfl (mine _) fun v => (inside v).symm
  | putting c sent =>
      have inside (v : τ) : s.underway v = if t = v then some c else s.waiting v := by
        simp only [State.underway, now]
      cases next : c.line[sent]? with
      | some b =>
          simp only [State.work, next]
          exact accounted_same s _ acc rfl rfl rfl (mine _) fun v => (inside v).symm
      | none =>
          simp only [State.work, next]
          refine accounted_ended s t c .appended _ _ acc now (by rw [inside, if_pos rfl])
            (fun v other => by rw [inside, if_neg (Ne.symm other)]) rfl rfl rfl ⟨_, rfl⟩ fun v => ?_
          simp only [State.underway]
          split_ifs <;> rfl
  | marking sent =>
      have inside (v : τ) : s.underway v = s.waiting v := by simp only [State.underway, now]
      cases next : fullMarker[sent]? with
      | some b =>
          simp only [State.work, next]
          exact accounted_same s _ acc rfl rfl rfl (mine _) fun v => (inside v).symm
      | none =>
          simp only [State.work, next]
          exact accounted_same s _ acc rfl rfl rfl (mine _) fun v => (inside v).symm
  | unlocking =>
      have inside (v : τ) : s.underway v = s.waiting v := by simp only [State.underway, now]
      exact accounted_same s _ acc rfl rfl rfl nofun fun v => (inside v).symm

theorem underway_of_not_holder (idle : ∀ held, s.holder ≠ some (t, held)) :
    s.underway t = s.waiting t := by
  rw [State.underway]
  split
  · rename_i u c now
    rw [if_neg]
    rintro rfl
    exact idle _ now
  · rename_i u c sent now
    rw [if_neg]
    rintro rfl
    exact idle _ now
  · rfl

theorem accounted_locked (c : Call) (acc : Accounted s) (waits : s.waiting t = some c)
    (free : s.holder = none) :
    Accounted { s with
      waiting := Function.update s.waiting t none, holder := some (t, .locked c) } := by
  have before (v : τ) : s.underway v = s.waiting v := by simp only [State.underway, free]
  refine ⟨?_, fun v => ?_⟩
  · rintro v held ⟨⟩
    exact Function.update_self _ _ _
  · have calls := acc.calls v
    have after : State.underway { s with
        waiting := Function.update s.waiting t none, holder := some (t, .locked c) } v =
          s.waiting v := by
      simp only [State.underway]
      by_cases own : t = v
      · rw [if_pos own, ← own, waits]
      · rw [if_neg own, Function.update_of_ne (Ne.symm own)]
    rw [before v] at calls
    rw [after]
    exact calls

theorem accounted_filtered (c : Call) (acc : Accounted s) (idle : s.waiting t = none)
    (other : ∀ held, s.holder ≠ some (t, held)) :
    Accounted { s with
      called := s.called ++ [(t, c)], events := s.events ++ [⟨t, c, .filtered⟩] } := by
  refine ⟨acc.single, fun v => ?_⟩
  have calls := acc.calls v
  have none_left := underway_of_not_holder s t other
  rw [callsOf_concat s (t, c) _ rfl v, endedOf_concat s ⟨t, c, .filtered⟩ _ rfl v, calls]
  by_cases own : t = v
  · subst own
    show _ = _ ++ _ ++ (s.underway t).toList
    rw [none_left, idle]
    simp
  · show _ = _ ++ _ ++ (s.underway v).toList
    simp [own]

theorem accounted_waiting (c : Call) (acc : Accounted s) (idle : s.waiting t = none)
    (other : ∀ held, s.holder ≠ some (t, held)) :
    Accounted { s with
      called := s.called ++ [(t, c)], waiting := Function.update s.waiting t (some c) } := by
  refine ⟨fun v held now => ?_, fun v => ?_⟩
  · have apart : v ≠ t := by
      rintro rfl
      exact other held now
    rw [← acc.single v held now]
    exact Function.update_of_ne apart _ _
  · have calls := acc.calls v
    rw [callsOf_concat s (t, c) _ rfl v, calls]
    by_cases own : t = v
    · subst own
      have later := underway_of_not_holder { s with
        called := s.called ++ [(t, c)], waiting := Function.update s.waiting t (some c) } t other
      have own_call : Function.update s.waiting t (some c) t = some c := Function.update_self _ _ _
      rw [later, underway_of_not_holder s t other, idle, if_pos rfl, Option.toList_none,
        List.append_nil]
      simp only [own_call, Option.toList_some]
      rfl
    · have same : State.underway { s with
          called := s.called ++ [(t, c)], waiting := Function.update s.waiting t (some c) } v =
            s.underway v := by
        simp only [State.underway, Function.update_of_ne (Ne.symm own)]
      rw [same, if_neg own, List.append_nil]
      rfl

theorem accounted_step (s : State τ) (l : Label τ) (u : State τ) (acc : Accounted s)
    (taken : step s l = some u) : Accounted u := by
  rcases step_cases s u l taken with ⟨t, held, now, rfl⟩ | ⟨t, c, waits, free, rfl⟩ | ⟨level, rfl⟩ |
    ⟨t, c, idle, other, rfl | rfl⟩
  · exact accounted_work s t held acc now
  · exact accounted_locked s t c acc waits free
  · exact accounted_same s _ acc rfl rfl rfl (fun t held now => ⟨held, now⟩) fun _ => rfl
  · exact accounted_filtered s t c acc idle other
  · exact accounted_waiting s t c acc idle other

/-- The file does not grow once it has the marker. -/
theorem marked_step (l : Label τ) (u : State τ) (inv : Inv start s) (marked : s.marked = true)
    (taken : step s l = some u) : u.marked = true ∧ u.file = s.file := by
  rcases step_cases s u l taken with ⟨t, held, now, rfl⟩ | ⟨t, c, -, free, rfl⟩ | ⟨level, rfl⟩ |
    ⟨t, c, -, -, rfl | rfl⟩
  · simp only [State.marked, now] at marked
    cases held with
    | locked c =>
        have full : s.full = true := marked
        rw [State.work, if_pos full]
        exact ⟨full, rfl⟩
    | putting c sent =>
        have full : s.full = true := marked
        rw [inv.putting t c sent now] at full
        cases full
    | marking sent =>
        have done : fullMarker[sent]? = none :=
          List.getElem?_eq_none_iff.mpr (of_decide_eq_true marked)
        simp only [State.work, done, State.marked, and_self]
    | unlocking => exact ⟨marked, rfl⟩
  · simp only [State.marked, free] at marked
    exact ⟨marked, rfl⟩
  · exact ⟨marked, rfl⟩
  · exact ⟨marked, rfl⟩
  · exact ⟨marked, rfl⟩

theorem marked_exec (inv : Inv start s) (marked : s.marked = true) (labels : List (Label τ))
    (u : State τ) (reached : exec step s labels = some u) : u.file = s.file := by
  have kept := exec_induction step s
    (fun u => Inv start u ∧ u.marked = true ∧ u.file = s.file) ⟨inv, marked, rfl⟩
    (fun v l u before taken => by
      obtain ⟨after, same⟩ := marked_step start v l u before.1 before.2.1 taken
      exact ⟨inv_step start v l u before.1 taken, after, same.trans before.2.2⟩)
    labels u reached
  exact kept.2.2

theorem whole_of_inv (inv : Inv start s) (acc : Accounted s) : Whole start s where
  file := inv.file
  lines := fun c _ => ⟨line_length_le c, line_last c⟩
  calls := acc.calls
  bound := file_length_le start s inv
  marked := fun marked => by rw [inv.file, tail_of_marked start s inv marked]
  after := fun marked labels u reached => marked_exec start s inv marked labels u reached

end Slot

section Kernel

@[irreducible] def sizeCap : Nat := 50 * 1024 * 1024

/-- `banner[256]`; the line feed that `ctime` ends with is written over. -/
def kernelBanner (slot : Nat) (now : Int) (ctime : CText) : Bytes :=
  let text := ascii "==== uart_log slot=" ++ decimal slot ++ ascii " boot_time=" ++
    signed now ++ ascii " (" ++ ctime.bytes
  let n := printedLength text
  if 0 < n ∧ n < 250 then text.take (n.toNat - 1) ++ ascii ") ====" ++ [newline] else []

inductive ReadResult where
  | data (d : Bytes) (some_read : d ≠ []) (fits : d.length ≤ 8192)
  | nothing
  | overrun
  | interrupted
  | failed

inductive WriteResult where
  | wrote (n : Nat)
  | interrupted
  | failed

/-- `pending` is what was read and how much of it is written. -/
structure KernelState where
  file : Bytes
  written : Nat
  pending : Option (Bytes × Nat)
  stopped : Bool

inductive KernelLabel where
  | read (r : ReadResult)
  | write (r : WriteResult)

def KernelState.initial (start : Bytes) : KernelState := ⟨start, 0, none, false⟩

def KernelState.counted (s : KernelState) (w : Nat) : KernelState :=
  { s with written := s.written + w, pending := none }

def KernelState.wrote (s : KernelState) (d : Bytes) (w n : Nat) : KernelState :=
  let next := { s with file := s.file ++ (d.drop w).take n, pending := some (d, w + n) }
  if w + n < d.length then next else next.counted (w + n)

def kernelStep (s : KernelState) : KernelLabel → Option KernelState
  | .read r =>
      match s.pending, s.stopped, r with
      | none, false, .data d _ _ =>
          if sizeCap ≤ s.written then some s else some { s with pending := some (d, 0) }
      | none, false, .nothing => some s
      | none, false, .overrun => some s
      | none, false, .interrupted => some s
      | none, false, .failed => some { s with stopped := true }
      | _, _, _ => none
  | .write r =>
      match s.pending, r with
      | some (d, w), .wrote n => if n ≤ d.length - w then some (s.wrote d w n) else none
      | some _, .interrupted => some s
      | some (_, w), .failed => some (s.counted w)
      | none, _ => none

structure KernelInv (start : Bytes) (s : KernelState) : Prop where
  file : s.file.length = start.length + s.written + (s.pending.map Prod.snd).getD 0
  below : s.written ≤ sizeCap + 8192
  pending : ∀ d w, s.pending = some (d, w) →
    s.written < sizeCap ∧ d.length ≤ 8192 ∧ w ≤ d.length

variable (start : Bytes) (s : KernelState)

theorem kernelInv_initial : KernelInv start (.initial start) :=
  ⟨rfl, Nat.zero_le _, nofun⟩

theorem kernelInv_counted (d : Bytes) (w : Nat) (inv : KernelInv start s)
    (now : s.pending = some (d, w)) : KernelInv start (s.counted w) := by
  have file := inv.file
  obtain ⟨room, fits, inside⟩ := inv.pending d w now
  rw [now] at file
  refine ⟨?_, ?_, nofun⟩
  · simp only [KernelState.counted, Option.map_none, Option.getD_none]
    simp only [Option.map_some, Option.getD_some] at file
    omega
  · show s.written + w ≤ _
    omega

theorem kernelInv_wrote (d : Bytes) (w n : Nat) (inv : KernelInv start s)
    (now : s.pending = some (d, w)) (part : n ≤ d.length - w) :
    KernelInv start (s.wrote d w n) := by
  have file := inv.file
  obtain ⟨room, fits, inside⟩ := inv.pending d w now
  rw [now] at file
  have next : KernelInv start
      { s with file := s.file ++ (d.drop w).take n, pending := some (d, w + n) } := by
    refine ⟨?_, inv.below, ?_⟩
    · simp only [Option.map_some, Option.getD_some, List.length_append, List.length_take,
        List.length_drop] at file ⊢
      omega
    · rintro d' w' ⟨⟩
      exact ⟨room, fits, by omega⟩
  simp only [KernelState.wrote]
  split_ifs
  · exact next
  · exact kernelInv_counted start _ d (w + n) next rfl

theorem kernelInv_step (s : KernelState) (l : KernelLabel) (t : KernelState)
    (inv : KernelInv start s) (taken : kernelStep s l = some t) : KernelInv start t := by
  cases l with
  | read r =>
      simp only [kernelStep] at taken
      split at taken
      · rename_i d ne fits now _
        have file := inv.file
        rw [now] at file
        split_ifs at taken with full
        · cases taken
          exact inv
        · cases taken
          refine ⟨file, inv.below, ?_⟩
          rintro d' w' ⟨⟩
          exact ⟨Nat.lt_of_not_le full, fits, Nat.zero_le _⟩
      · cases taken
        exact inv
      · cases taken
        exact inv
      · cases taken
        exact inv
      · cases taken
        exact ⟨inv.file, inv.below, inv.pending⟩
      · cases taken
  | write r =>
      simp only [kernelStep] at taken
      split at taken
      · rename_i d w n now
        split_ifs at taken with part
        cases taken
        exact kernelInv_wrote start s d w n inv now part
      · cases taken
        exact inv
      · rename_i d w now
        cases taken
        exact kernelInv_counted start s d w inv now
      · cases taken

theorem kernel_file_length_le (inv : KernelInv start s) :
    s.file.length ≤ start.length + sizeCap + 8192 := by
  have file := inv.file
  have below := inv.below
  cases now : s.pending with
  | none =>
      rw [now] at file
      simp only [Option.map_none, Option.getD_none] at file
      omega
  | some p =>
      have bounds := inv.pending p.1 p.2 now
      rw [now] at file
      simp only [Option.map_some, Option.getD_some] at file
      omega

end Kernel

/-- Both logs, for every interleaving of calls and every result of the reads and writes. -/
theorem logs_whole_and_bounded :
    (∀ (τ : Type) [DecidableEq τ] (slot : Nat) (time : CString 32) (labels : List (Label τ))
      (s : State τ), exec step (.initial (banner slot time)) labels = some s →
      Whole (banner slot time) s) ∧
    ∀ (slot : Nat) (now : Int) (ctime : CText) (put : Nat) (labels : List KernelLabel)
      (s : KernelState),
      exec kernelStep (.initial ((kernelBanner slot now ctime).take put)) labels = some s →
      s.file.length ≤ (kernelBanner slot now ctime).length + sizeCap + 8192 := by
  refine ⟨?_, ?_⟩
  · intro τ _ slot time labels s reached
    have accounted_initial : Accounted (State.initial (banner slot time) : State τ) :=
      ⟨nofun, fun _ => rfl⟩
    exact whole_of_inv _ s
      (exec_induction step _ (Inv (banner slot time)) (inv_initial _) (inv_step _) labels s reached)
      (exec_induction step _ Accounted accounted_initial accounted_step labels s reached)
  · intro slot now ctime put labels s reached
    have inv := exec_induction kernelStep _ (KernelInv ((kernelBanner slot now ctime).take put))
      (kernelInv_initial _) (kernelInv_step _) labels s reached
    have bound := kernel_file_length_le _ s inv
    rw [List.length_take] at bound
    omega

def startBanner : Bytes := banner 3 ⟨[0x30], by decide, by decide⟩

def helloCall : Call := ⟨.i, none, some ⟨[0x68, 0x69], by decide⟩, 12, 0, 59, 7⟩

def warnCall : Call :=
  ⟨.w, some ⟨ascii "wifi", by decide⟩, some ⟨ascii "busy", by decide⟩, 12, 0, 59, 8⟩

def twoCalls : List (Label Bool) :=
  [.call true helloCall, .call false warnCall, .lock false] ++ List.replicate 34 (.work false) ++
    .lock true :: List.replicate 29 (.work true)

theorem twoCalls_written :
    (exec step (.initial startBanner) twoCalls).map (fun s => (s.file, s.records.length)) =
      some (startBanner ++ (warnCall.line ++ helloCall.line), 2) := by
  decide +kernel

def kernelLabels : List KernelLabel :=
  [.read (.data [0x61, 0x62] (by decide) (by decide)), .write (.wrote 1)]

theorem exec_kernelLabels (start : Bytes) : exec kernelStep (.initial start) kernelLabels =
    some ⟨start ++ [0x61], 0, some ([0x61, 0x62], 1), false⟩ := by
  have room : sizeCap ≠ 0 := by
    rw [sizeCap]
    decide
  simp [exec, kernelLabels, kernelStep, KernelState.initial, KernelState.wrote, room]

theorem logs_whole_and_bounded_two :
    (∃ s, exec step (.initial startBanner) twoCalls = some s ∧
      s.file = startBanner ++ (warnCall.line ++ helloCall.line) ∧ Whole startBanner s) ∧
    ∃ s, exec kernelStep (.initial ((kernelBanner 3 0 ⟨[], by decide⟩).take 5)) kernelLabels =
      some s ∧ s.file.length ≤ (kernelBanner 3 0 ⟨[], by decide⟩).length + sizeCap + 8192 := by
  obtain ⟨s, reached, written⟩ := Option.map_eq_some_iff.mp twoCalls_written
  refine ⟨⟨s, reached, (Prod.mk.inj written).1, ?_⟩, _, exec_kernelLabels _, ?_⟩
  · exact logs_whole_and_bounded.1 Bool 3 ⟨[0x30], by decide, by decide⟩ twoCalls s reached
  · exact logs_whole_and_bounded.2 3 0 ⟨[], by decide⟩ 5 kernelLabels _ (exec_kernelLabels _)

end WfyApp.LogOutput
