import WfyApp.NumberText

/-! The tokens of SQL text, read one byte at a time: words, unsigned numbers, string
literals in single quotes with a doubled quote as the escape, comments, and everything else
as single symbols. Identifiers in quotes are not treated. A text that ends inside a literal
has no tokens. Statements are built from pieces; a piece tells its tokens under a condition
if the text gives those tokens first exactly when the condition holds. -/

namespace WfyApp.SqlText
open ByteText NumberText

inductive Token where
  | word (b : Bytes)
  | number (n : Nat)
  | text (b : Bytes)
  | symbol (c : UInt8)
deriving DecidableEq

def wordByte (c : UInt8) : Bool := isLetter c || isDigit c

def slash : UInt8 := 0x2F
def asterisk : UInt8 := 0x2A

inductive Mode where
  | start
  | word (b : Bytes)
  | number (n : Nat)
  | text (b : Bytes)
  | quote (b : Bytes)
  | hyphen
  | lineComment
  | slash
  | comment
  | asterisk
deriving DecidableEq

def fresh (c : UInt8) : List Token × Mode :=
  if isspace c then ([], .start)
  else if isLetter c then ([], .word [c])
  else if isDigit c then ([], .number (c.toNat - 0x30))
  else if c = singleQuote then ([], .text [])
  else if c = hyphen then ([], .hyphen)
  else if c = slash then ([], .slash)
  else ([.symbol c], .start)

def after (token : Token) (c : UInt8) : List Token × Mode := (token :: (fresh c).1, (fresh c).2)

def Mode.next : Mode → UInt8 → List Token × Mode
  | .start, c => fresh c
  | .word b, c => if wordByte c then ([], .word (b ++ [c])) else after (.word b) c
  | .number n, c =>
      if isDigit c then ([], .number (10 * n + (c.toNat - 0x30))) else after (.number n) c
  | .text b, c => if c = singleQuote then ([], .quote b) else ([], .text (b ++ [c]))
  | .quote b, c => if c = singleQuote then ([], .text (b ++ [c])) else after (.text b) c
  | .hyphen, c => if c = ByteText.hyphen then ([], .lineComment) else after (.symbol ByteText.hyphen) c
  | .lineComment, c => ([], if c = newline then .start else .lineComment)
  | .slash, c => if c = SqlText.asterisk then ([], .comment) else after (.symbol SqlText.slash) c
  | .comment, c => ([], if c = SqlText.asterisk then .asterisk else .comment)
  | .asterisk, c =>
      ([], if c = SqlText.slash then .start
        else if c = SqlText.asterisk then .asterisk else .comment)

def Mode.finish : Mode → Option (List Token)
  | .start | .lineComment | .comment | .asterisk => some []
  | .word b => some [.word b]
  | .number n => some [.number n]
  | .text _ => none
  | .quote b => some [.text b]
  | .hyphen => some [.symbol ByteText.hyphen]
  | .slash => some [.symbol SqlText.slash]

def scan : Mode → Bytes → Option (List Token)
  | m, [] => m.finish
  | m, c :: cs => (scan (m.next c).2 cs).map ((m.next c).1 ++ ·)

def tokens (b : Bytes) : Option (List Token) := scan .start b

/-- The tokens that are complete after some bytes, and the mode then. -/
def run : Mode → Bytes → List Token × Mode
  | m, [] => ([], m)
  | m, c :: cs => ((m.next c).1 ++ (run (m.next c).2 cs).1, (run (m.next c).2 cs).2)

theorem scan_append (m : Mode) (a b : Bytes) :
    scan m (a ++ b) = (scan (run m a).2 b).map ((run m a).1 ++ ·) := by
  induction a generalizing m with
  | nil =>
      rw [List.nil_append, run]
      simp only [List.nil_append, Option.map_id']
  | cons c a ih =>
      rw [List.cons_append, scan, ih, run, Option.map_map]
      congr 1
      funext ts
      simp only [Function.comp_apply, List.append_assoc]

/-- What follows does not continue a word, a number or a literal. -/
def Stops (rest : Bytes) : Prop := ∀ c ∈ rest.head?, wordByte c = false ∧ c ≠ singleQuote

def Anything (_ : Bytes) : Prop := True

theorem stops_nil : Stops [] := by simp [Stops]

theorem stops_cons (c : UInt8) (rest : Bytes) (plain : wordByte c = false) (other : c ≠ singleQuote) :
    Stops (c :: rest) := by
  intro d first
  cases Option.some.inj first
  exact ⟨plain, other⟩

theorem scan_done (m : Mode) (token : Token) (rest : Bytes) (ends : m.finish = some [token])
    (stop : ∀ c, wordByte c = false → c ≠ singleQuote → m.next c = after token c)
    (stops : Stops rest) : scan m rest = (tokens rest).map (token :: ·) := by
  cases rest with
  | nil =>
      rw [scan, ends]
      rfl
  | cons c rest =>
      obtain ⟨plain, other⟩ := stops c rfl
      rw [tokens, scan, scan, stop c plain other, Option.map_map]
      rfl

section Pieces

/-- The piece gives these tokens, whatever comes after it that `ok` allows. -/
def Reads (ok : Bytes → Prop) (a : Bytes) (ts : List Token) : Prop :=
  ∀ rest, ok rest → tokens (a ++ rest) = (tokens rest).map (ts ++ ·)

/-- The piece gives these tokens exactly if the condition holds. -/
def Tells (ok : Bytes → Prop) (a : Bytes) (ts : List Token) (C : Prop) : Prop :=
  ∀ rest more, ok rest →
    (tokens (a ++ rest) = some (ts ++ more) ↔ C ∧ tokens rest = some more)

variable {ok ok' : Bytes → Prop} {a b : Bytes} {ts us : List Token} {C D : Prop}

theorem Reads.tells (reads : Reads ok a ts) : Tells ok a ts True := by
  intro rest more allowed
  rw [reads rest allowed, true_and, Option.map_eq_some_iff]
  simp only [List.append_cancel_left_eq, exists_eq_right]

theorem reads_of_run (ran : SqlText.run .start a = (ts, .start)) : Reads Anything a ts := by
  intro rest _
  rw [tokens, scan_append, ran]
  rfl

theorem Tells.append (first : Tells ok a ts C) (second : Tells ok' b us D)
    (follows : ∀ rest, ok' rest → ok (b ++ rest)) : Tells ok' (a ++ b) (ts ++ us) (C ∧ D) := by
  intro rest more allowed
  rw [List.append_assoc, List.append_assoc, first _ _ (follows rest allowed),
    second rest more allowed, and_assoc]

theorem Tells.congr (tells : Tells ok a ts C) (same : C ↔ D) : Tells ok a ts D := by
  intro rest more allowed
  rw [tells rest more allowed, same]

theorem Tells.of_tokens (tells : Tells ok a ts C) (same : ts = us) : Tells ok a us C := same ▸ tells

theorem Tells.after (second : Tells ok b us D) (reads : Reads Anything a ts) :
    Tells ok (a ++ b) (ts ++ us) D :=
  (reads.tells.append second fun _ _ => trivial).congr (iff_of_eq (true_and D))

theorem Tells.after_fixed (second : Tells ok b us D) (ran : SqlText.run .start a = (ts, .start)) :
    Tells ok (a ++ b) (ts ++ us) D :=
  second.after (reads_of_run ran)

theorem tells_flatMap {α : Type} (sep : Bytes) (sepTokens : List Token) (render : α → Bytes)
    (words : α → List Token) (holds : α → Prop) (xs : List α) (reads : Reads Anything sep sepTokens)
    (stop : ∀ rest, Stops (sep ++ rest))
    (each : ∀ x ∈ xs, Tells Stops (render x) (words x) (holds x)) :
    Tells Stops (xs.flatMap fun x => sep ++ render x) (xs.flatMap fun x => sepTokens ++ words x)
      (∀ x ∈ xs, holds x) := by
  induction xs with
  | nil =>
      intro rest more _
      simp
  | cons x xs ih =>
      have first := (each x List.mem_cons_self).after reads
      have others := ih fun y member => each y (List.mem_cons_of_mem x member)
      rw [List.flatMap_cons, List.flatMap_cons]
      refine (first.append others fun rest stops => ?_).congr List.forall_mem_cons.symm
      cases xs with
      | nil => exact stops
      | cons y ys =>
          rw [List.flatMap_cons, List.append_assoc, List.append_assoc]
          exact stop _

theorem tells_separated {α : Type} (sep : Bytes) (sepTokens : List Token) (render : α → Bytes)
    (words : α → List Token) (holds : α → Prop) (x : α) (xs : List α)
    (reads : Reads Anything sep sepTokens) (stop : ∀ rest, Stops (sep ++ rest))
    (each : ∀ y, Tells Stops (render y) (words y) (holds y)) :
    Tells Stops (render x ++ xs.flatMap fun y => sep ++ render y)
      (words x ++ xs.flatMap fun y => sepTokens ++ words y) (∀ y ∈ x :: xs, holds y) := by
  have more := tells_flatMap sep sepTokens render words holds xs reads stop fun y _ => each y
  refine ((each x).append more fun rest stops => ?_).congr List.forall_mem_cons.symm
  cases xs with
  | nil => exact stops
  | cons y ys =>
      rw [List.flatMap_cons, List.append_assoc, List.append_assoc]
      exact stop _

theorem Tells.tokens_iff (tells : Tells ok a ts C) (allowed : ok []) : tokens a = some ts ↔ C := by
  have whole := tells [] [] allowed
  rw [List.append_nil, List.append_nil] at whole
  rw [whole]
  exact and_iff_left rfl

end Pieces

def isName : Bytes → Bool
  | [] => false
  | c :: w => isLetter c && w.all wordByte

theorem run_word (b w : Bytes) (plain : ∀ d ∈ w, wordByte d = true) :
    run (.word b) w = ([], .word (b ++ w)) := by
  induction w generalizing b with
  | nil => simp [run]
  | cons d w ih =>
      have head := plain d List.mem_cons_self
      have tail := ih (b ++ [d]) fun e member => plain e (List.mem_cons_of_mem d member)
      rw [run]
      simp only [Mode.next, head, if_true, tail, List.append_assoc, List.singleton_append,
        List.nil_append]

theorem reads_name (b : Bytes) (name : isName b = true) : Reads Stops b [.word b] := by
  intro rest stops
  cases b with
  | nil => cases name
  | cons c w => ?_
  rw [isName, Bool.and_eq_true, List.all_eq_true] at name
  obtain ⟨letter, plain⟩ := name
  have first : run .start (c :: w) = ([], .word (c :: w)) := by
    rw [run]
    simp only [Mode.next, fresh, isspace_of_isLetter c letter, letter, if_true, Bool.false_eq_true,
      if_false, run_word [c] w plain, List.singleton_append, List.nil_append]
  rw [tokens, scan_append, first]
  have done := scan_done (.word (c :: w)) (.word (c :: w)) rest rfl
    (fun d other _ => by simp only [Mode.next, other, Bool.false_eq_true, if_false]) stops
  rw [done, Option.map_map]
  rfl

section Numbers

def signedTokens (n : Int) : List Token :=
  if n < 0 then [.symbol hyphen, .number n.natAbs] else [.number n.natAbs]

theorem run_number (v : Nat) (ds : Bytes) (digits : ∀ c ∈ ds, isDigit c = true) :
    run (.number v) ds = ([], .number (ds.foldl digitValue v)) := by
  induction ds generalizing v with
  | nil => rfl
  | cons c ds ih =>
      have head := digits c List.mem_cons_self
      have tail := ih (digitValue v c) fun d member => digits d (List.mem_cons_of_mem c member)
      rw [run]
      simp only [Mode.next, head, if_true, List.foldl_cons, List.nil_append]
      exact tail

theorem fresh_digit (c : UInt8) (digit : isDigit c = true) :
    fresh c = ([], .number (digitValue 0 c)) := by
  revert digit
  revert c
  decide +kernel

theorem run_decimal (m : Mode) (ts : List Token) (n : Nat)
    (ends : ∀ c, isDigit c = true → m.next c = (ts ++ (fresh c).1, (fresh c).2)) :
    run m (decimal n) = (ts, .number n) := by
  have digits := isDigit_decimal n
  have value := foldl_digitValue_decimal n
  cases form : decimal n with
  | nil => exact absurd form (decimal_ne_nil n)
  | cons c ds =>
      rw [form] at digits value
      have head := digits c List.mem_cons_self
      have tail : ∀ d ∈ ds, isDigit d = true := fun d member => digits d (List.mem_cons_of_mem c member)
      rw [run, ends c head, fresh_digit c head]
      simp only [run_number _ ds tail, List.append_nil]
      rw [List.foldl_cons] at value
      rw [value]

theorem not_isDigit_of_not_wordByte (c : UInt8) (other : wordByte c = false) : isDigit c = false := by
  rw [wordByte, Bool.or_eq_false_iff] at other
  exact other.2

theorem scan_number (n : Nat) (rest : Bytes) (stops : Stops rest) :
    scan (.number n) rest = (tokens rest).map (.number n :: ·) :=
  scan_done (.number n) (.number n) rest rfl
    (fun c other _ => by
      simp only [Mode.next, not_isDigit_of_not_wordByte c other, Bool.false_eq_true, if_false]) stops

theorem reads_signed (n : Int) : Reads Stops (signed n) (signedTokens n) := by
  intro rest stops
  rw [signed, signedTokens]
  split_ifs
  · have digits := run_decimal .hyphen [.symbol hyphen] n.natAbs fun c digit => by
      have other : c ≠ hyphen := by
        rintro rfl
        cases digit
      simp only [Mode.next, if_neg other, after, List.singleton_append]
    have first : run .start (hyphen :: decimal n.natAbs) = ([.symbol hyphen], .number n.natAbs) := by
      rw [run]
      exact digits
    rw [tokens, scan_append, first, scan_number _ _ stops, Option.map_map]
    rfl
  · have first := run_decimal .start [] n.natAbs fun c _ => by simp only [Mode.next, List.nil_append]
    rw [tokens, scan_append, first, scan_number _ _ stops, Option.map_map]
    rfl

theorem signedTokens_append_inj (m n : Int) (xs ys : List Token)
    (same : signedTokens m ++ xs = signedTokens n ++ ys) : m = n := by
  rw [signedTokens, signedTokens] at same
  split_ifs at same <;> simp at same <;> omega

/-- A number that is printed as another one. -/
theorem tells_signed (m n : Int) : Tells Stops (signed m) (signedTokens n) (m = n) := by
  intro rest more stops
  by_cases same : m = n
  · subst same
    rw [(reads_signed m).tells rest more stops]
    simp
  · rw [reads_signed m rest stops]
    refine iff_of_false ?_ fun both => same both.1
    intro given
    obtain ⟨others, -, equal⟩ := Option.map_eq_some_iff.mp given
    exact same (signedTokens_append_inj m n _ _ equal)

end Numbers

section Literals

def doubled (v : Bytes) : Bytes := v.flatMap fun c => if c = singleQuote then [c, c] else [c]

theorem doubled_cons (c : UInt8) (v : Bytes) :
    doubled (c :: v) = (if c = singleQuote then [c, c] else [c]) ++ doubled v := by
  rw [doubled, List.flatMap_cons, doubled]

/-- What is read as a literal is the text up to a closing quote, undoubled. -/
theorem scan_text_sound (b acc : Bytes) (ts : List Token) (read : scan (.text acc) b = some ts) :
    ∃ u rest more, b = doubled u ++ singleQuote :: rest ∧ ts = .text (acc ++ u) :: more := by
  induction length : b.length using Nat.strong_induction_on generalizing b acc with
  | _ n ih =>
      cases b with
      | nil => cases read
      | cons c b =>
          rw [List.length_cons] at length
          rw [scan] at read
          by_cases quote : c = singleQuote
          · simp only [Mode.next, if_pos quote, List.nil_append, Option.map_id'] at read
            cases b with
            | nil =>
                cases read
                exact ⟨[], [], [], by rw [quote]; rfl, by rw [List.append_nil]⟩
            | cons d b =>
                rw [List.length_cons] at length
                rw [scan] at read
                by_cases again : d = singleQuote
                · simp only [Mode.next, if_pos again, List.nil_append, Option.map_id'] at read
                  obtain ⟨u, rest, more, shape, first⟩ := ih _ (by omega) b (acc ++ [d]) read rfl
                  refine ⟨singleQuote :: u, rest, more, ?_, ?_⟩
                  · rw [doubled_cons, if_pos rfl, quote, again, shape]
                    rfl
                  · rw [first, again, List.append_assoc, List.singleton_append]
                · simp only [Mode.next, if_neg again, after] at read
                  obtain ⟨more, -, first⟩ := Option.map_eq_some_iff.mp read
                  refine ⟨[], d :: b, (fresh d).1 ++ more, by rw [quote]; rfl, ?_⟩
                  rw [List.append_nil, ← first, List.cons_append]
          · simp only [Mode.next, if_neg quote, List.nil_append, Option.map_id'] at read
            obtain ⟨u, rest, more, shape, first⟩ := ih _ (by omega) b (acc ++ [c]) read rfl
            refine ⟨c :: u, rest, more, ?_, ?_⟩
            · rw [doubled_cons, if_neg quote, shape, List.singleton_append, List.cons_append]
            · rw [first, List.append_assoc, List.singleton_append]

theorem head_of_doubled (w rest rest' : Bytes) (k : Nat)
    (same : w ++ singleQuote :: rest =
      List.replicate (k + 1) singleQuote ++ (doubled w ++ singleQuote :: rest')) :
    rest.head? = some singleQuote := by
  induction w generalizing k with
  | nil =>
      rw [List.nil_append, List.replicate_succ, List.cons_append, List.cons.injEq] at same
      rw [same.2]
      cases k <;> rfl
  | cons c w ih =>
      rw [List.cons_append, List.replicate_succ, List.cons_append, List.cons.injEq] at same
      obtain ⟨rfl, tail⟩ := same
      refine ih (k + 1) (tail.trans ?_)
      rw [doubled_cons, if_pos rfl, List.replicate_succ', List.replicate_succ']
      simp

/-- Doubling keeps the beginning of a text that is closed by one quote only if there are no
quotes in it. -/
theorem not_mem_of_doubled (v rest rest' : Bytes)
    (same : v ++ singleQuote :: rest = doubled v ++ singleQuote :: rest')
    (other : rest.head? ≠ some singleQuote) : singleQuote ∉ v := by
  induction v with
  | nil => exact List.not_mem_nil
  | cons c v ih =>
      rw [doubled_cons] at same
      by_cases quote : c = singleQuote
      · rw [if_pos quote, quote] at same
        exact absurd (head_of_doubled v rest rest' 0 (List.cons.inj same).2) other
      · rw [if_neg quote] at same
        rw [List.mem_cons, not_or]
        exact ⟨fun first => quote first.symm, ih (List.cons.inj same).2⟩

theorem run_text (acc v : Bytes) (free : singleQuote ∉ v) : run (.text acc) v = ([], .text (acc ++ v)) := by
  induction v generalizing acc with
  | nil => simp [run]
  | cons c v ih =>
      have head : c ≠ singleQuote := fun same => free (same ▸ List.mem_cons_self)
      have tail := ih (acc ++ [c]) fun member => free (List.mem_cons_of_mem c member)
      rw [run]
      simp only [Mode.next, if_neg head, tail, List.append_assoc, List.singleton_append,
        List.nil_append]

def literal (v : Bytes) : Bytes := singleQuote :: (v ++ [singleQuote])

theorem scan_literal (v rest : Bytes) :
    tokens (literal v ++ rest) = scan (.text []) (v ++ singleQuote :: rest) := by
  rw [literal, List.cons_append, List.append_assoc, List.singleton_append, tokens, scan]
  exact Option.map_id'

/-- A text put between quotes as it is gives the literal with that value exactly if there is
no quote in it. -/
theorem tells_literal (v : Bytes) : Tells Stops (literal v) [.text v] (singleQuote ∉ v) := by
  intro rest more stops
  have other : rest.head? ≠ some singleQuote := fun first => (stops singleQuote first).2 rfl
  rw [scan_literal]
  by_cases free : singleQuote ∉ v
  · have done := scan_done (.quote v) (.text v) rest rfl
      (fun c _ quote => by simp only [Mode.next, if_neg quote]) stops
    have closed : scan (.text v) (singleQuote :: rest) = scan (.quote v) rest := by
      rw [scan]
      simp only [Mode.next, if_true, List.nil_append, Option.map_id']
    rw [scan_append, run_text [] v free, List.nil_append, closed, done, and_iff_right free]
    simp only [List.nil_append, Option.map_id', List.singleton_append, Option.map_eq_some_iff,
      List.cons.injEq, true_and, exists_eq_right]
  · refine iff_of_false (fun read => free ?_) fun both => free both.1
    obtain ⟨u, rest', more', shape, first⟩ := scan_text_sound _ _ _ read
    rw [List.nil_append, List.singleton_append, List.cons.injEq, Token.text.injEq] at first
    rw [← first.1] at shape
    exact not_mem_of_doubled v rest rest' shape other

end Literals

end WfyApp.SqlText
