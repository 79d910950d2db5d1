import WfyApp.NumberText

/-! The part of `scanf` that reads numbers: white space, single characters, and decimal
integers with an optional sign, which are kept or skipped. A number that does not fit its
type saturates at the range of the conversion and is then cut to the width of the type. -/

namespace WfyApp.ScanText
open ByteText NumberText

structure Number where
  negative : Bool
  magnitude : Nat
deriving DecidableEq, Repr

def Number.ofInt (n : Int) : Number := ⟨decide (n < 0), n.natAbs⟩

def Number.toInt (x : Number) : Int := if x.negative then -x.magnitude else x.magnitude

/-- The conversion `%d`, which goes through a 64-bit `long`. -/
def Number.toInt32 (x : Number) : Int32 := Int32.ofInt (max (-2 ^ 63) (min (2 ^ 63 - 1) x.toInt))

/-- The conversion `%llu`. -/
def Number.toUInt64 (x : Number) : UInt64 :=
  if 2 ^ 64 ≤ x.magnitude then UInt64.ofNat (2 ^ 64 - 1)
  else if x.negative then -UInt64.ofNat x.magnitude else UInt64.ofNat x.magnitude

def plus : UInt8 := 0x2B

def readNumber (b : Bytes) : Option (Number × Bytes) :=
  let t := b.dropWhile isspace
  let digits := if t.head? = some plus ∨ t.head? = some hyphen then t.drop 1 else t
  if digits.takeWhile isDigit = [] then none
  else
    some (⟨decide (t.head? = some hyphen), (digits.takeWhile isDigit).foldl digitValue 0⟩,
      digits.dropWhile isDigit)

inductive Directive where
  | blanks
  | literal (c : UInt8)
  | skipChar
  | number (kept : Bool)
deriving DecidableEq, Repr

/-- The numbers that are kept before the first directive that fails. -/
def scanf : List Directive → Bytes → List Number
  | [], _ => []
  | .blanks :: ds, b => scanf ds (b.dropWhile isspace)
  | .literal c :: ds, b =>
      match b with
      | [] => []
      | x :: rest => if x = c then scanf ds rest else []
  | .skipChar :: ds, b =>
      match b with
      | [] => []
      | _ :: rest => scanf ds rest
  | .number kept :: ds, b =>
      match readNumber b with
      | none => []
      | some (x, rest) => if kept then x :: scanf ds rest else scanf ds rest

/-- What may follow a number. -/
def NumberEnds (rest : Bytes) : Prop := ∀ c ∈ rest.head?, isDigit c = false

theorem numberEnds_nil : NumberEnds [] := by simp [NumberEnds]

theorem numberEnds_cons (c : UInt8) (rest : Bytes) (other : isDigit c = false) :
    NumberEnds (c :: rest) := by
  intro d first
  cases Option.some.inj first
  exact other

theorem numberEnds_take (rest : Bytes) (n : Nat) (ends : NumberEnds rest) :
    NumberEnds (rest.take n) := by
  cases n with
  | zero => exact numberEnds_nil
  | succ n =>
      cases rest with
      | nil => exact numberEnds_nil
      | cons c rest => exact numberEnds_cons c _ (ends c rfl)

theorem takeWhile_decimal (n : Nat) (rest : Bytes) (ends : NumberEnds rest) :
    (decimal n ++ rest).takeWhile isDigit = decimal n := by
  rw [List.takeWhile_append_of_pos (isDigit_decimal n)]
  cases rest with
  | nil => simp
  | cons c rest => rw [List.takeWhile_cons_of_neg (by simp [ends c rfl]), List.append_nil]

theorem dropWhile_decimal (n : Nat) (rest : Bytes) (ends : NumberEnds rest) :
    (decimal n ++ rest).dropWhile isDigit = rest := by
  rw [List.dropWhile_append_of_pos (isDigit_decimal n)]
  cases rest with
  | nil => rfl
  | cons c rest => rw [List.dropWhile_cons_of_neg (by simp [ends c rfl])]

theorem digit_plain (c : UInt8) (digit : isDigit c = true) :
    isspace c = false ∧ c ≠ plus ∧ c ≠ hyphen := by
  simp only [isDigit, Bool.and_eq_true, decide_eq_true_eq] at digit
  have low : 0x30 ≤ c.toNat := UInt8.le_iff_toNat_le.mp digit.1
  have high : c.toNat ≤ 0x39 := UInt8.le_iff_toNat_le.mp digit.2
  refine ⟨?_, ?_, ?_⟩
  · simp only [isspace, Bool.or_eq_false_iff, beq_eq_false_iff_ne, Bool.and_eq_false_imp,
      decide_eq_true_eq, decide_eq_false_iff_not, UInt8.le_iff_toNat_le, ne_eq, ← UInt8.toNat_inj]
    exact ⟨fun same => by simp at same; omega, fun _ less => by simp at less; omega⟩
  · rintro rfl
    exact absurd low (by decide)
  · rintro rfl
    exact absurd low (by decide)

theorem signed_cons (n : Int) : ∃ c rest, signed n = c :: rest ∧ isspace c = false := by
  rw [signed]
  split_ifs
  · exact ⟨hyphen, _, rfl, by decide⟩
  · cases text : decimal n.natAbs with
    | nil => exact absurd text (decimal_ne_nil _)
    | cons c rest =>
        have digit := isDigit_decimal n.natAbs c (text ▸ List.mem_cons_self)
        exact ⟨c, rest, rfl, (digit_plain c digit).1⟩

theorem dropWhile_blanks (blanks : Bytes) (all : ∀ c ∈ blanks, isspace c = true) (n : Int)
    (rest : Bytes) : (blanks ++ (signed n ++ rest)).dropWhile isspace = signed n ++ rest := by
  obtain ⟨c, more, text, other⟩ := signed_cons n
  rw [List.dropWhile_append_of_pos all, text, List.cons_append,
    List.dropWhile_cons_of_neg (by simp [other])]

/-- A printed number is read back, whatever white space is before it. -/
theorem readNumber_signed (blanks : Bytes) (all : ∀ c ∈ blanks, isspace c = true) (n : Int)
    (rest : Bytes) (ends : NumberEnds rest) :
    readNumber (blanks ++ (signed n ++ rest)) = some (Number.ofInt n, rest) := by
  simp only [readNumber, dropWhile_blanks blanks all]
  rw [signed, Number.ofInt]
  by_cases negative : n < 0
  · rw [if_pos negative]
    simp only [List.cons_append, List.head?_cons, or_true, if_true, List.drop_succ_cons,
      List.drop_zero, takeWhile_decimal _ _ ends, dropWhile_decimal _ _ ends,
      foldl_digitValue_decimal, decimal_ne_nil, if_false, negative, decide_true]
  · have plain : (decimal n.natAbs ++ rest).head? ≠ some plus ∧
        (decimal n.natAbs ++ rest).head? ≠ some hyphen := by
      cases text : decimal n.natAbs with
      | nil => exact absurd text (decimal_ne_nil _)
      | cons c more =>
          have digit := digit_plain c (isDigit_decimal n.natAbs c (text ▸ List.mem_cons_self))
          simp only [List.cons_append, List.head?_cons, ne_eq, Option.some.injEq]
          exact digit.2
    rw [if_neg negative, if_neg (not_or.mpr plain)]
    simp only [takeWhile_decimal _ _ ends, dropWhile_decimal _ _ ends, foldl_digitValue_decimal,
      decimal_ne_nil, if_false, plain.2, negative, decide_false]

def column (n : Int) : Bytes := 0x20 :: signed n

theorem numberEnds_column (n : Int) (rest : Bytes) : NumberEnds (column n ++ rest) :=
  numberEnds_cons _ _ (by decide)

theorem scanf_column (kept : Bool) (ds : List Directive) (n : Int) (rest : Bytes)
    (ends : NumberEnds rest) :
    scanf (.blanks :: .number kept :: ds) (column n ++ rest) =
      if kept then Number.ofInt n :: scanf ds rest else scanf ds rest := by
  have blank : (column n ++ rest).dropWhile isspace = [] ++ (signed n ++ rest) :=
    dropWhile_blanks [0x20] (List.forall_mem_singleton.mpr rfl) n rest
  rw [scanf, blank, scanf, readNumber_signed [] (by simp) n rest ends]

/-- The directives for a list of columns. -/
def columns (kept : Bool) (count : Nat) : List Directive :=
  (List.replicate count [.blanks, .number kept]).flatten

theorem columns_succ (kept : Bool) (count : Nat) :
    columns kept (count + 1) = .blanks :: .number kept :: columns kept count := rfl

theorem numberEnds_flatMap (ns : List Int) (rest : Bytes) (ends : NumberEnds rest) :
    NumberEnds (ns.flatMap column ++ rest) := by
  cases ns with
  | nil => exact ends
  | cons n ns =>
      rw [List.flatMap_cons, List.append_assoc]
      exact numberEnds_column n _

theorem scanf_columns (kept : Bool) (ds : List Directive) (ns : List Int) (rest : Bytes)
    (ends : NumberEnds rest) :
    scanf (columns kept ns.length ++ ds) (ns.flatMap column ++ rest) =
      (if kept then ns.map Number.ofInt else []) ++ scanf ds rest := by
  induction ns with
  | nil => cases kept <;> rfl
  | cons n ns ih =>
      rw [List.length_cons, columns_succ, List.flatMap_cons, List.append_assoc, List.cons_append,
        List.cons_append, scanf_column kept _ n _ (numberEnds_flatMap ns rest ends), ih]
      cases kept <;> rfl

theorem mem_column (n : Int) (c : UInt8) (member : c ∈ column n) :
    c = 0x20 ∨ c = hyphen ∨ isDigit c = true := by
  rcases List.mem_cons.mp member with blank | sign
  · exact .inl blank
  · rw [signed] at sign
    split_ifs at sign with negative
    · rcases List.mem_cons.mp sign with minus | digit
      · exact .inr (.inl minus)
      · exact .inr (.inr (isDigit_decimal _ c digit))
    · exact .inr (.inr (isDigit_decimal _ c sign))

theorem flatMap_column_length_le (ns : List Int) (k : Nat) (pos : 0 < k)
    (small : ∀ n ∈ ns, n.natAbs < 10 ^ k) : (ns.flatMap column).length ≤ (k + 2) * ns.length := by
  induction ns with
  | nil => simp
  | cons n ns ih =>
      have first := signed_length_le n k pos (small n List.mem_cons_self)
      have others := ih fun m member => small m (List.mem_cons_of_mem n member)
      rw [List.flatMap_cons, List.length_append, column, List.length_cons, List.length_cons,
        Nat.mul_succ]
      omega

theorem Number.toInt_ofInt (n : Int) : (Number.ofInt n).toInt = n := by
  rw [Number.ofInt, Number.toInt]
  by_cases negative : n < 0 <;> simp only [negative, decide_true, decide_false, if_true, if_false,
    Bool.false_eq_true] <;> omega

theorem Number.toUInt64_ofInt (n : UInt64) : (Number.ofInt n.toNat).toUInt64 = n := by
  have small := n.toNat_lt
  rw [Number.ofInt, Number.toUInt64]
  have plain : ¬(n.toNat : Int) < 0 := by omega
  simp only [Int.natAbs_natCast, plain, decide_false]
  rw [if_neg (by omega), if_neg (by decide), UInt64.ofNat_toNat]

theorem Number.toInt32_ofInt (n : Int32) : (Number.ofInt n.toInt).toInt32 = n := by
  have low := n.le_toInt
  have high := n.toInt_lt
  rw [Number.toInt32, Number.toInt_ofInt, min_eq_right (by omega), max_eq_right (by omega),
    Int32.ofInt_toInt]

end WfyApp.ScanText
