import Mathlib

/-! Text as bytes, the way C code handles it: NUL-terminated values, lines taken one
by one with a separator set, trimming at either end, cutting at a character, removing
one layer of quotes, and `%s` formats with a bounded destination.
A C string is modelled by its bytes before the terminator. -/

namespace WfyApp.ByteText

abbrev Bytes := List UInt8

def ascii (s : String) : Bytes := s.toList.map fun c => UInt8.ofNat c.toNat

/-- Rewrites a literal into its characters, which evaluate faster than the string does. -/
theorem ascii_ofList (cs : List Char) :
    ascii (String.ofList cs) = cs.map fun c => UInt8.ofNat c.toNat := by
  rw [ascii, String.toList_ofList]

def newline : UInt8 := 0x0A
def doubleQuote : UInt8 := 0x22
def singleQuote : UInt8 := 0x27
def equals : UInt8 := 0x3D
def backslash : UInt8 := 0x5C
def hyphen : UInt8 := 0x2D

def isspace (c : UInt8) : Bool := c == 0x20 || (0x09 ≤ c && c ≤ 0x0D)
def isLetter (c : UInt8) : Bool := (0x41 ≤ c && c ≤ 0x5A) || (0x61 ≤ c && c ≤ 0x7A) || c == 0x5F
def isDigit (c : UInt8) : Bool := 0x30 ≤ c && c ≤ 0x39

theorem isspace_of_isLetter (c : UInt8) (letter : isLetter c = true) : isspace c = false := by
  revert letter
  revert c
  decide +kernel

/-- The C string stored in a buffer: everything before the first NUL. -/
def cstr (b : Bytes) : Bytes := b.takeWhile (· != 0)

theorem cstr_eq_self_iff (b : Bytes) : cstr b = b ↔ 0 ∉ b := by
  rw [cstr, List.takeWhile_eq_self_iff]
  constructor
  · intro all zero
    simpa using all 0 zero
  · intro free x member
    simpa using ne_of_mem_of_not_mem member free

theorem cstr_concat_zero (b : Bytes) (free : 0 ∉ b) : cstr (b ++ [0]) = b := by
  have kept : ∀ x ∈ b, (x != 0) = true := by
    intro x member
    simpa using ne_of_mem_of_not_mem member free
  rw [cstr, List.takeWhile_append_of_pos kept]
  simp

theorem zero_not_mem_cstr (b : Bytes) : 0 ∉ cstr b := by
  intro zero
  simpa using List.mem_takeWhile_imp zero

/-- A NUL-terminated string in a buffer of `cap` bytes. -/
@[ext] structure CString (cap : Nat) where
  bytes : Bytes
  nulFree : 0 ∉ bytes
  length_lt : bytes.length < cap

/-- The lines `strtok_r(.., "\n", ..)` yields; empty ones are skipped. -/
def textLines (b : Bytes) : List Bytes := (b.splitOn newline).filter (· ≠ [])

theorem textLines_cons (l rest : Bytes) (free : newline ∉ l) (ne : l ≠ []) :
    textLines (l ++ newline :: rest) = l :: textLines rest := by
  rw [textLines, List.splitOn_append_cons_self_of_not_mem free, List.filter_cons_of_pos (by simpa),
    textLines]

theorem textLines_cons_nil (rest : Bytes) : textLines (newline :: rest) = textLines rest := by
  have split : (newline :: rest).splitOn newline = [] :: rest.splitOn newline := by
    simpa using List.splitOn_append_cons_self (a := newline) [] rest
  rw [textLines, split, List.filter_cons_of_neg (by simp), textLines]

@[simp] theorem textLines_nil : textLines [] = [] := rfl

theorem textLines_append_newline (a b : Bytes) :
    textLines (a ++ newline :: b) = textLines a ++ textLines b := by
  rw [textLines, List.splitOn_append_cons_self, List.filter_append, textLines, textLines]

theorem textLines_flatten (texts : List Bytes)
    (ended : ∀ b ∈ texts.dropLast, b.getLast? = some newline) :
    textLines texts.flatten = texts.flatMap textLines := by
  induction texts with
  | nil => rfl
  | cons b texts ih =>
      cases texts with
      | nil => rw [List.flatten_cons, List.flatten_nil, List.append_nil, List.flatMap_singleton]
      | cons next texts =>
          have first := ended b (by simp)
          have rest := ih fun later member => ended later (by simp [member])
          obtain ⟨before, rfl⟩ := List.getLast?_eq_some_iff.mp first
          have same : textLines (before ++ [newline]) = textLines before := by
            rw [textLines_append_newline, textLines_nil, List.append_nil]
          rw [List.flatten_cons, List.append_assoc, List.singleton_append, textLines_append_newline,
            rest]
          simp only [List.flatMap_cons, same]

theorem textLines_of_oneLine (b : Bytes) (oneLine : newline ∉ b) (ne : b ≠ []) :
    textLines b = [b] := by
  rw [textLines, List.splitOn_eq_singleton oneLine, List.filter_cons_of_pos (by simpa using ne),
    List.filter_nil]

theorem textLines_of_begins (start b : Bytes) (begins : start <+: b) (ne : start ≠ [])
    (oneLine : newline ∉ start) : ∃ line lines, textLines b = line :: lines ∧ start <+: line := by
  by_cases broken : newline ∈ b
  · obtain ⟨line, rest, rfl, free⟩ := List.eq_append_cons_of_mem broken
    have inside : start <+: line := by
      rcases List.prefix_or_prefix_of_prefix begins (List.prefix_append line _) with within | beyond
      · exact within
      · obtain ⟨more, rfl⟩ := beyond
        have shorter := (List.prefix_append_right_inj line).mp begins
        rcases more with _ | ⟨c, more⟩
        · exact ⟨[], by simp⟩
        · rw [(List.cons_prefix_cons.mp shorter).1] at oneLine
          simp at oneLine
    have line_ne : line ≠ [] := fun empty => ne (List.prefix_nil.mp (empty ▸ inside))
    exact ⟨line, textLines rest, textLines_cons line rest free line_ne, inside⟩
  · have b_ne : b ≠ [] := fun empty => ne (List.prefix_nil.mp (empty ▸ begins))
    exact ⟨b, [], textLines_of_oneLine b broken b_ne, begins⟩

theorem textLines_flatMap (lines : List Bytes) (plain : ∀ l ∈ lines, newline ∉ l) :
    textLines (lines.flatMap (· ++ [newline])) = lines.filter (· ≠ []) := by
  induction lines with
  | nil => rfl
  | cons l lines ih =>
      have head := plain l List.mem_cons_self
      have tail := ih fun l' member => plain l' (List.mem_cons_of_mem l member)
      rw [List.flatMap_cons, List.append_assoc, List.singleton_append]
      by_cases empty : l = []
      · rw [empty, List.nil_append, textLines_cons_nil, tail, List.filter_cons_of_neg (by simp)]
      · rw [textLines_cons _ _ head empty, tail, List.filter_cons_of_pos (by simpa using empty)]

/-- The size of a text written line by line. -/
def linesLength (lines : List Bytes) : Nat := (lines.map fun l => l.length + 1).sum

theorem linesLength_nil : linesLength [] = 0 := rfl

theorem linesLength_cons (l : Bytes) (lines : List Bytes) :
    linesLength (l :: lines) = l.length + 1 + linesLength lines := by
  rw [linesLength, List.map_cons, List.sum_cons, linesLength]

theorem linesLength_append (a b : List Bytes) :
    linesLength (a ++ b) = linesLength a + linesLength b := by
  rw [linesLength, List.map_append, List.sum_append, linesLength, linesLength]

theorem length_flatMap_newline (lines : List Bytes) :
    (lines.flatMap (· ++ [newline])).length = linesLength lines := by
  rw [List.length_flatMap, linesLength]
  simp

theorem not_mem_splitOn (c : UInt8) (b : Bytes) (free : c = newline ∨ c ∉ b) :
    ∀ l ∈ b.splitOn newline, c ∉ l := by
  induction b with
  | nil => simp
  | cons x xs ih =>
      have tail := ih (free.imp_right fun clean member => clean (List.mem_cons_of_mem x member))
      intro l member
      rw [List.splitOn_cons_eq_if_modifyHead] at member
      by_cases sep : x = newline
      · simp only [sep, beq_self_eq_true, if_true, List.mem_cons] at member
        rcases member with rfl | later
        · exact List.not_mem_nil
        · exact tail l later
      · have other : (x == newline) = false := by simpa using sep
        have head : c ≠ x := by
          rintro rfl
          exact free.elim sep fun clean => clean List.mem_cons_self
        simp only [other, Bool.false_eq_true, if_false] at member
        cases parts : xs.splitOn newline with
        | nil => exact absurd parts (List.splitOn_ne_nil newline xs)
        | cons first rest =>
            rw [parts] at tail member
            rcases List.mem_cons.mp (by simpa using member) with rfl | later
            · have clean := tail first List.mem_cons_self
              simp [head, clean]
            · exact tail l (List.mem_cons_of_mem _ later)

theorem linesLength_splitOn (b : Bytes) : linesLength (b.splitOn newline) = b.length + 1 := by
  induction b with
  | nil => rfl
  | cons x xs ih =>
      rw [List.splitOn_cons_eq_if_modifyHead]
      cases parts : xs.splitOn newline with
      | nil => exact absurd parts (List.splitOn_ne_nil newline xs)
      | cons first rest =>
          rw [parts, linesLength_cons] at ih
          split_ifs
          · rw [linesLength_cons, linesLength_cons, List.length_nil, List.length_cons]
            omega
          · rw [List.modifyHead_cons, linesLength_cons, List.length_cons, List.length_cons]
            omega

theorem linesLength_filter_le (p : Bytes → Bool) (lines : List Bytes) :
    linesLength (lines.filter p) ≤ linesLength lines :=
  (List.filter_sublist.map _).sum_le_sum (by simp)

theorem linesLength_textLines_le (b : Bytes) : linesLength (textLines b) ≤ b.length + 1 :=
  (linesLength_filter_le _ _).trans_eq (linesLength_splitOn b)

section Written
variable (lines : List Bytes) (plain : ∀ l ∈ lines, l ≠ [] ∧ newline ∉ l)
include plain

theorem textLines_written_append (rest : Bytes) :
    textLines (lines.flatMap (· ++ [newline]) ++ rest) = lines ++ textLines rest := by
  induction lines with
  | nil => rfl
  | cons l lines ih =>
      have head := plain l List.mem_cons_self
      have tail := ih fun l' member => plain l' (List.mem_cons_of_mem l member)
      rw [List.flatMap_cons, List.append_assoc, List.append_assoc, List.singleton_append,
        textLines_cons _ _ head.2 head.1, tail, List.cons_append]

/-- A buffer that takes the lines, perhaps without the last line break, and `rest`. -/
theorem textLines_take_written (rest : Bytes) (n : Nat) (bound : linesLength lines ≤ n + 1) :
    textLines ((lines.flatMap (· ++ [newline]) ++ rest).take n) =
      lines ++ textLines (rest.take (n - linesLength lines)) := by
  by_cases within : linesLength lines ≤ n
  · rw [List.take_append, length_flatMap_newline,
      List.take_of_length_le (by rwa [length_flatMap_newline]), textLines_written_append lines plain]
  · obtain rfl | ⟨before, last, rfl⟩ := List.eq_nil_or_concat lines
    · exact absurd (Nat.zero_le n) within
    · rw [List.concat_eq_append] at plain bound within ⊢
      have whole := textLines_written_append _ plain []
      rw [List.append_nil, textLines_nil, List.append_nil] at whole
      have shape : (before ++ [last]).flatMap (· ++ [newline]) =
          (before.flatMap (· ++ [newline]) ++ last) ++ [newline] := by
        rw [List.flatMap_append, List.flatMap_singleton, List.append_assoc]
      have length : (before.flatMap (· ++ [newline]) ++ last).length = n := by
        rw [linesLength_append, linesLength_cons, linesLength_nil] at bound within
        rw [List.length_append, length_flatMap_newline]
        omega
      have none_left : n - linesLength (before ++ [last]) = 0 := by omega
      rw [shape, textLines_append_newline, textLines_nil, List.append_nil] at whole
      rw [shape, List.append_assoc, List.take_left' length, whole, none_left, List.take_zero,
        textLines_nil, List.append_nil]

end Written

theorem textLines_take_line (line rest : Bytes) (n : Nat) (ne : line ≠ []) (free : newline ∉ line)
    (whole : line.length ≤ n) :
    ∃ more, textLines ((line ++ newline :: rest).take n) = line :: more := by
  rw [List.take_append, List.take_of_length_le whole]
  cases room : n - line.length with
  | zero => exact ⟨[], by rw [List.take_zero, List.append_nil, textLines_of_oneLine line free ne]⟩
  | succ k => exact ⟨_, by rw [List.take_succ_cons, textLines_cons line _ free ne]⟩

theorem not_mem_textLines (c : UInt8) (b l : Bytes) (free : c = newline ∨ c ∉ b)
    (member : l ∈ textLines b) : c ∉ l :=
  not_mem_splitOn c b free l (List.mem_of_mem_filter member)

theorem infix_of_mem_textLines (b l : Bytes) (member : l ∈ textLines b) : l <:+: b := by
  induction length : b.length using Nat.strong_induction_on generalizing b with
  | _ n ih =>
      by_cases broken : newline ∈ b
      · obtain ⟨line, rest, rfl, free⟩ := List.eq_append_cons_of_mem broken
        rw [List.length_append, List.length_cons] at length
        rw [textLines_append_newline, List.mem_append] at member
        rcases member with first | later
        · exact (ih _ (by omega) line first rfl).trans (List.prefix_append _ _).isInfix
        · exact (ih _ (by omega) rest later rfl).trans
            (List.suffix_append_of_suffix (List.suffix_cons newline rest)).isInfix
      · have ne : b ≠ [] := by
          rintro rfl
          cases member
        rw [textLines_of_oneLine b broken ne, List.mem_singleton] at member
        rw [member]

/-- `lstrip` and `rstrip` for the characters that satisfy `p`. -/
def stripLeft (p : UInt8 → Bool) (b : Bytes) : Bytes := b.dropWhile p

def stripRight (p : UInt8 → Bool) (b : Bytes) : Bytes := b.rdropWhile p

theorem stripLeft_cons_of_not (p : UInt8 → Bool) (c : UInt8) (b : Bytes) (h : p c = false) :
    stripLeft p (c :: b) = c :: b := by
  simp [stripLeft, h]

theorem stripRight_concat_of_not (p : UInt8 → Bool) (b : Bytes) (c : UInt8) (h : p c = false) :
    stripRight p (b ++ [c]) = b ++ [c] :=
  List.rdropWhile_concat_neg p b c (by simp [h])

theorem stripRight_append_of_not (p : UInt8 → Bool) (a b : Bytes) (c : UInt8) (h : p c = false) :
    stripRight p (a ++ c :: b) = a ++ c :: stripRight p b := by
  induction b using List.reverseRecOn with
  | nil => exact stripRight_concat_of_not p a c h
  | append_singleton b x ih =>
      have shape : a ++ c :: (b ++ [x]) = (a ++ c :: b) ++ [x] := by simp
      rw [shape, stripRight, stripRight, List.rdropWhile_concat, List.rdropWhile_concat]
      split_ifs
      · exact ih
      · simp

theorem stripLeft_subset (p : UInt8 → Bool) (b : Bytes) : stripLeft p b ⊆ b :=
  (List.dropWhile_suffix p).subset

theorem stripRight_subset (p : UInt8 → Bool) (b : Bytes) : stripRight p b ⊆ b :=
  (List.rdropWhile_prefix p b).subset

/-- Cut at the first occurrence of a character, as `strchr` and a NUL store do. -/
def cutAt (c : UInt8) : Bytes → Option (Bytes × Bytes)
  | [] => none
  | x :: xs => if x = c then some ([], xs) else (cutAt c xs).map fun cut => (x :: cut.1, cut.2)

theorem cutAt_append (c : UInt8) (k v : Bytes) (free : c ∉ k) :
    cutAt c (k ++ c :: v) = some (k, v) := by
  induction k with
  | nil => simp [cutAt]
  | cons x xs ih =>
      have head : x ≠ c := fun same => free (same ▸ List.mem_cons_self)
      have tail := ih (fun member => free (List.mem_cons_of_mem _ member))
      simp [cutAt, head, tail]

theorem cutAt_eq_some (c : UInt8) (b k v : Bytes) (h : cutAt c b = some (k, v)) :
    b = k ++ c :: v := by
  induction b generalizing k with
  | nil => cases h
  | cons x xs ih =>
      simp only [cutAt] at h
      split_ifs at h with same
      · cases h
        rw [same, List.nil_append]
      · obtain ⟨⟨k', v'⟩, found, equal⟩ := Option.map_eq_some_iff.mp h
        cases equal
        rw [ih k' found, List.cons_append]

theorem cutAt_value_subset (c : UInt8) (b k v : Bytes) (h : cutAt c b = some (k, v)) : v ⊆ b := by
  intro x member
  rw [cutAt_eq_some c b k v h]
  exact List.mem_append_right k (List.mem_cons_of_mem c member)

def cutAtLast (c : UInt8) (b : Bytes) : Option (Bytes × Bytes) :=
  (cutAt c b.reverse).map fun cut => (cut.2.reverse, cut.1.reverse)

theorem cutAtLast_append (c : UInt8) (k v : Bytes) (free : c ∉ v) :
    cutAtLast c (k ++ c :: v) = some (k, v) := by
  have turned : (k ++ c :: v).reverse = v.reverse ++ c :: k.reverse := by simp
  rw [cutAtLast, turned, cutAt_append c _ _ (by simpa using free)]
  simp

/-- Remove one layer of matching double or single quotes. -/
def unquote (b : Bytes) : Bytes :=
  if 2 ≤ b.length ∧ (b.head? = some doubleQuote ∧ b.getLast? = some doubleQuote ∨
      b.head? = some singleQuote ∧ b.getLast? = some singleQuote)
  then b.tail.dropLast else b

theorem unquote_doubleQuoted (v : Bytes) :
    unquote (doubleQuote :: (v ++ [doubleQuote])) = v := by
  have last : (doubleQuote :: (v ++ [doubleQuote])).getLast? = some doubleQuote := by
    rw [← List.cons_append, List.getLast?_concat]
  simp [unquote, last]

theorem unquote_subset (b : Bytes) : unquote b ⊆ b := by
  rw [unquote]
  split_ifs
  · exact fun x member => List.mem_of_mem_tail (List.mem_of_mem_dropLast member)
  · exact List.Subset.refl b

def quotedLine (key value : Bytes) : Bytes :=
  key ++ equals :: doubleQuote :: (value ++ [doubleQuote])

theorem quotedLine_eq_concat (key value : Bytes) :
    quotedLine key value = (key ++ equals :: doubleQuote :: value) ++ [doubleQuote] := by
  simp [quotedLine]

theorem quotedLine_length (key value : Bytes) :
    (quotedLine key value).length = key.length + value.length + 3 := by
  simp [quotedLine]
  omega

theorem stripRight_quotedLine (p : UInt8 → Bool) (key value : Bytes)
    (other : p doubleQuote = false) :
    stripRight p (quotedLine key value) = quotedLine key value := by
  rw [quotedLine_eq_concat, stripRight_concat_of_not p _ _ other]

theorem newline_not_mem_quotedLine (key value : Bytes) (key_free : newline ∉ key)
    (value_free : newline ∉ value) : newline ∉ quotedLine key value := by
  have marks : newline ≠ equals ∧ newline ≠ doubleQuote := by decide
  simp [quotedLine, marks, key_free, value_free]

/-- A `printf` format with `%s` conversions only. -/
def format : Bytes → List Bytes → Bytes
  | 0x25 :: 0x73 :: rest, arg :: args => arg ++ format rest args
  | c :: rest, args => c :: format rest args
  | [], _ => []

theorem format_cons (c : UInt8) (rest : Bytes) (args : List Bytes) (plain : c ≠ 0x25) :
    format (c :: rest) args = c :: format rest args := by
  rw [format]
  intro rest' arg args' more percent
  exact absurd percent plain

theorem format_conversion (before rest arg : Bytes) (args : List Bytes)
    (plain : 0x25 ∉ before) :
    format (before ++ 0x25 :: 0x73 :: rest) (arg :: args) =
      before ++ (arg ++ format rest args) := by
  induction before with
  | nil => rfl
  | cons c before ih =>
      have head : c ≠ 0x25 := fun same => plain (same ▸ List.mem_cons_self)
      have tail := ih fun member => plain (List.mem_cons_of_mem c member)
      rw [List.cons_append, format_cons _ _ _ head, tail, List.cons_append]

theorem format_plain (text : Bytes) (args : List Bytes) (plain : 0x25 ∉ text) :
    format text args = text := by
  induction text with
  | nil => cases args <;> rfl
  | cons c text ih =>
      have head : c ≠ 0x25 := fun same => plain (same ▸ List.mem_cons_self)
      have tail := ih fun member => plain (List.mem_cons_of_mem c member)
      rw [format_cons _ _ _ head, tail]

/-- A template is its fixed texts, a `%s` after each, and a tail. -/
def template (texts : List Bytes) (tail : Bytes) : Bytes :=
  texts.flatMap (· ++ [0x25, 0x73]) ++ tail

def filled : List Bytes → List Bytes → Bytes → Bytes
  | text :: texts, arg :: args, tail => text ++ (arg ++ filled texts args tail)
  | _, _, tail => tail

theorem format_template (texts args : List Bytes) (tail : Bytes) (lengths : texts.length = args.length)
    (plain : ∀ text ∈ texts, 0x25 ∉ text) (tail_plain : 0x25 ∉ tail) :
    format (template texts tail) args = filled texts args tail := by
  induction texts generalizing args with
  | nil =>
      cases args with
      | nil => exact format_plain tail [] tail_plain
      | cons arg args => cases lengths
  | cons text texts ih =>
      cases args with
      | nil => cases lengths
      | cons arg args =>
          have head := plain text List.mem_cons_self
          have rest := ih args (Nat.succ.inj lengths)
            fun later member => plain later (List.mem_cons_of_mem text member)
          have shape : template (text :: texts) tail =
              text ++ 0x25 :: 0x73 :: template texts tail := by
            simp [template]
          rw [shape, format_conversion _ _ _ _ head, rest, filled]

theorem filled_length (texts args : List Bytes) (tail : Bytes)
    (lengths : texts.length = args.length) :
    (filled texts args tail).length =
      (texts.map List.length).sum + (args.map List.length).sum + tail.length := by
  induction texts generalizing args with
  | nil =>
      cases args with
      | nil => simp [filled]
      | cons arg args => cases lengths
  | cons text texts ih =>
      cases args with
      | nil => cases lengths
      | cons arg args =>
          have rest := ih args (Nat.succ.inj lengths)
          simp only [filled, List.length_append, List.map_cons, List.sum_cons, rest]
          omega

/-- `snprintf` keeps what fits before the terminator and returns the untruncated length. -/
structure Printed where
  text : Bytes
  length : Nat
deriving DecidableEq

def snprintf (cap : Nat) (text : Bytes) : Printed := ⟨text.take (cap - 1), text.length⟩

theorem snprintf_text (cap : Nat) (text : Bytes) (fits : (snprintf cap text).length < cap) :
    (snprintf cap text).text = text :=
  List.take_of_length_le (by simp only [snprintf] at fits; omega)

theorem length_cstr_take_lt (cap : Nat) [NeZero cap] (text : Bytes) :
    (cstr (text.take (cap - 1))).length < cap := by
  have kept := (List.takeWhile_prefix (fun c : UInt8 => c != 0) (l := text.take (cap - 1))).length_le
  have pos := NeZero.pos cap
  rw [List.length_take] at kept
  rw [cstr]
  omega

def CString.printed (cap : Nat) [NeZero cap] (text : Bytes) : CString cap :=
  ⟨cstr (text.take (cap - 1)), zero_not_mem_cstr _, length_cstr_take_lt cap text⟩

theorem CString.printed_bytes (cap : Nat) [NeZero cap] (text : Bytes) (free : 0 ∉ text) :
    (printed cap text).bytes = text.take (cap - 1) :=
  (cstr_eq_self_iff _).mpr fun member => free (List.mem_of_mem_take member)

end WfyApp.ByteText
