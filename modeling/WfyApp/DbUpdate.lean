import WfyApp.DbRequests

/-! `cmd_update` on a table: a SELECT for the key decides, by the number of rows in its
reply, whether an UPDATE or an INSERT follows. A statement may fail, and then changes
nothing; a SELECT may fail after it has delivered rows. The order of the rows is that in
which the database visits them. -/

namespace WfyApp.DbUpdate
open ByteText SqlText DbRequests

/-- The cells of a row; `none` is NULL. -/
abbrev Row (V : Type) := Name → Option V

/-- A table apart from its rows: its columns, the column that a name stands for (in upper or
lower case), the value that a literal is in a column, and the values of columns that are not
given. -/
structure Table (V : Type) where
  columns : List Name
  columnOf : Name → Name
  lit : Name → Value → V
  defaults : Row V

inductive Outcome where
  | ok
  | error (delivered : Nat)
deriving DecidableEq

structure Reply (V : Type) where
  success : Bool
  jData : List (Row V)

def secondStatement (found : Bool) (table : Name) (key data : List Pair) : Option Statement :=
  if found then updating table key data else insertion table (key ++ data)

section Rows
variable {V : Type} [DecidableEq V] (t : Table V)

def cell (p : Pair) : Option V := some (t.lit (t.columnOf p.column) p.value)

def carries (pairs : List Pair) (row : Row V) : Bool :=
  pairs.all fun p => row (t.columnOf p.column) = cell t p

def assigned (pairs : List Pair) (row : Row V) : Row V :=
  pairs.foldl (fun row p => Function.update row (t.columnOf p.column) (cell t p)) row

/-- The rows after a statement that succeeds, and those that it delivers. An update without
a key has the condition NULL, which no row meets. -/
def execute (rows : List (Row V)) : Statement → List (Row V) × List (Row V)
  | .select _ _ key first =>
      (rows, if first then (rows.filter (carries t key)).take 1 else rows.filter (carries t key))
  | .delete _ key => (rows.filter fun row => !carries t key row, [])
  | .insert _ p ps => (rows ++ [assigned t (p :: ps) t.defaults], [])
  | .update _ p ps key =>
      (rows.map fun row =>
        if key ≠ [] ∧ carries t key row = true then assigned t (p :: ps) row else row, [])

def delivered (outcome : Outcome) (rows : List (Row V)) : List (Row V) :=
  match outcome with
  | .ok => rows
  | .error n => rows.take n

/-- `callback` hands the cells of columns whose names begin with an i to `atoi`. -/
def callbackFails (row : Row V) : Bool :=
  t.columns.any fun c => decide (c.bytes.head? = some 0x69) && decide (row c = none)

/-- The rows and the reply, if the process goes on. A text that is no statement is an error. -/
def rkdbSql (stmt : Option Statement) (outcome : Outcome) (rows : List (Row V)) :
    Option (List (Row V) × Reply V) :=
  match stmt with
  | none => some (rows, ⟨false, []⟩)
  | some s =>
      let jData := delivered outcome (execute t rows s).2
      if jData.any (callbackFails t) then none
      else
        match outcome with
        | .ok => some ((execute t rows s).1, ⟨true, jData⟩)
        | .error _ => some (rows, ⟨false, jData⟩)

def cmdUpdate (table : Name) (key data : List Pair) (first second : Outcome) (rows : List (Row V)) :
    Option (List (Row V) × Reply V) := do
  let (rows, reply) ← rkdbSql t (some (.select .star table key true)) first rows
  let num := reply.jData.length
  rkdbSql t (secondStatement (num ≠ 0) table key data) second rows

/-- The ways in which an update may end: the matching rows carry the data, or a row with key
and data is new, or an error is reported. -/
def Upserted (key data : List Pair) (rows : List (Row V))
    (ended : Option (List (Row V) × Reply V)) : Prop :=
  ∃ rows' reply, ended = some (rows', reply) ∧
    (((∃ row ∈ rows, carries t key row = true) ∧
        List.Forall₂
          (fun row row' =>
            if carries t key row = true then carries t data row' = true else row' = row)
          rows rows') ∨
      ((∀ row ∈ rows, carries t key row = false) ∧
        ∃ row, carries t key row = true ∧ carries t data row = true ∧ rows' = rows ++ [row]) ∨
      (reply.success = false ∧ rows' = rows))

/-- The SELECT fails before it delivers a row that is there, and a second one is inserted; or
it delivers a row that `callback` cannot take; or there is no key, and rows that should carry
the data are left as they are. -/
def Misses (key data : List Pair) (first second : Outcome) (rows : List (Row V)) : Prop :=
  (first = .error 0 ∧ second = .ok ∧ key ++ data ≠ [] ∧ ∃ row ∈ rows, carries t key row = true) ∨
    (first ≠ .error 0 ∧ ∃ row, rows.find? (carries t key) = some row ∧
      (callbackFails t row = true ∨
        (second = .ok ∧ key = [] ∧ data ≠ [] ∧ ∃ other ∈ rows, carries t data other = false)))

end Rows

section Cells
variable {V : Type} [DecidableEq V] (t : Table V)

omit [DecidableEq V] in
theorem assigned_cons (p : Pair) (ps : List Pair) (row : Row V) :
    assigned t (p :: ps) row =
      assigned t ps (Function.update row (t.columnOf p.column) (cell t p)) := rfl

omit [DecidableEq V] in
theorem assigned_other (pairs : List Pair) (row : Row V) (column : Name)
    (other : ∀ p ∈ pairs, t.columnOf p.column ≠ column) :
    assigned t pairs row column = row column := by
  induction pairs generalizing row with
  | nil => rfl
  | cons p ps ih =>
      rw [assigned_cons, ih _ fun q member => other q (List.mem_cons_of_mem p member)]
      exact Function.update_of_ne (other p List.mem_cons_self).symm _ _

omit [DecidableEq V] in
theorem assigned_mem (pairs : List Pair) (row : Row V)
    (distinct : (pairs.map fun p => t.columnOf p.column).Nodup) (p : Pair) (member : p ∈ pairs) :
    assigned t pairs row (t.columnOf p.column) = cell t p := by
  induction pairs generalizing row with
  | nil => cases member
  | cons q qs ih =>
      rw [List.map_cons, List.nodup_cons] at distinct
      rw [assigned_cons]
      cases member with
      | head =>
          have later : ∀ r ∈ qs, t.columnOf r.column ≠ t.columnOf p.column := fun r inside same =>
            distinct.1 (List.mem_map.mpr ⟨r, inside, same⟩)
          rw [assigned_other t qs _ _ later, Function.update_self]
      | tail _ later => exact ih _ distinct.2 later

theorem carries_iff (pairs : List Pair) (row : Row V) :
    carries t pairs row = true ↔ ∀ p ∈ pairs, row (t.columnOf p.column) = cell t p := by
  simp only [carries, List.all_eq_true, decide_eq_true_eq]

theorem carries_append (key data : List Pair) (row : Row V) :
    carries t (key ++ data) row = true ↔ carries t key row = true ∧ carries t data row = true := by
  rw [carries_iff, carries_iff, carries_iff, List.forall_mem_append]

theorem carries_assigned (pairs : List Pair) (row : Row V)
    (distinct : (pairs.map fun p => t.columnOf p.column).Nodup) :
    carries t pairs (assigned t pairs row) = true :=
  (carries_iff t pairs _).mpr (assigned_mem t pairs row distinct)

end Cells

section Statements
variable {V : Type} [DecidableEq V] (t : Table V) (table : Name) (key data : List Pair)
  (rows : List (Row V)) (outcome : Outcome)

theorem execute_probe :
    execute t rows (.select .star table key true) = (rows, (rows.find? (carries t key)).toList) := by
  rw [execute, if_pos rfl, ← List.head?_filter]
  cases rows.filter (carries t key) <;> rfl

theorem rkdbSql_probe :
    rkdbSql t (some (.select .star table key true)) outcome rows =
      if (delivered outcome (rows.find? (carries t key)).toList).any (callbackFails t) then none
      else some (rows, ⟨decide (outcome = .ok),
        delivered outcome (rows.find? (carries t key)).toList⟩) := by
  cases outcome <;>
  · rw [rkdbSql, execute_probe]
    rfl

theorem rkdbSql_silent (s : Statement) (silent : (execute t rows s).2 = []) :
    rkdbSql t (some s) outcome rows =
      if outcome = .ok then some ((execute t rows s).1, ⟨true, []⟩) else some (rows, ⟨false, []⟩) := by
  cases outcome with
  | ok =>
      rw [rkdbSql, silent]
      rfl
  | error n =>
      rw [rkdbSql, silent, delivered, List.take_nil]
      rfl

theorem cmdUpdate_not_found (first : Outcome)
    (nothing : delivered first (rows.find? (carries t key)).toList = []) :
    cmdUpdate t table key data first outcome rows =
      rkdbSql t (insertion table (key ++ data)) outcome rows := by
  rw [cmdUpdate, rkdbSql_probe, nothing]
  rfl

theorem cmdUpdate_found (first : Outcome) (row : Row V)
    (got : delivered first (rows.find? (carries t key)).toList = [row]) :
    cmdUpdate t table key data first outcome rows =
      if callbackFails t row = true then none
      else rkdbSql t (updating table key data) outcome rows := by
  rw [cmdUpdate, rkdbSql_probe, got, List.any_cons, List.any_nil, Bool.or_false]
  split_ifs <;> rfl

theorem upserted_some (rows' : List (Row V)) (reply : Reply V) :
    Upserted t key data rows (some (rows', reply)) ↔
      ((∃ row ∈ rows, carries t key row = true) ∧
        List.Forall₂
          (fun row row' =>
            if carries t key row = true then carries t data row' = true else row' = row)
          rows rows') ∨
      ((∀ row ∈ rows, carries t key row = false) ∧
        ∃ row, carries t key row = true ∧ carries t data row = true ∧ rows' = rows ++ [row]) ∨
      (reply.success = false ∧ rows' = rows) := by
  constructor
  · rintro ⟨_, _, ⟨⟩, ways⟩
    exact ways
  · exact fun ways => ⟨rows', reply, rfl, ways⟩

theorem upserted_error : Upserted t key data rows (some (rows, ⟨false, []⟩)) :=
  ⟨rows, _, rfl, .inr (.inr ⟨rfl, rfl⟩)⟩

theorem not_upserted_none : ¬Upserted t key data rows none := by
  rintro ⟨_, _, same, -⟩
  cases same

theorem upserted_new_iff (row : Row V) (inside : carries t (key ++ data) row = true) :
    Upserted t key data rows (some (rows ++ [row], ⟨true, []⟩)) ↔
      ¬∃ old ∈ rows, carries t key old = true := by
  rw [upserted_some]
  have both := (carries_append t key data row).mp inside
  constructor
  · rintro (⟨-, pairwise⟩ | ⟨unmatched, -⟩ | ⟨error, -⟩)
    · have lengths := pairwise.length_eq
      rw [List.length_append, List.length_singleton] at lengths
      omega
    · rintro ⟨old, member, hit⟩
      rw [unmatched old member] at hit
      cases hit
    · cases error
  · intro unmatched
    refine .inr (.inl ⟨fun old member => ?_, row, both.1, both.2, rfl⟩)
    exact Bool.eq_false_iff.mpr fun hit => unmatched ⟨old, member, hit⟩

theorem upserted_insertion_iff
    (distinct : ((key ++ data).map fun p => t.columnOf p.column).Nodup) :
    Upserted t key data rows (rkdbSql t (insertion table (key ++ data)) outcome rows) ↔
      ¬(outcome = .ok ∧ key ++ data ≠ [] ∧ ∃ old ∈ rows, carries t key old = true) := by
  cases all : key ++ data with
  | nil => exact iff_of_true (upserted_error t key data rows) fun missed => missed.2.1 rfl
  | cons p ps =>
      rw [insertion, rkdbSql_silent t rows outcome _ rfl]
      split_ifs with done
      · have inside := carries_assigned t (key ++ data) t.defaults distinct
        have added := upserted_new_iff t key data rows _ inside
        rw [all] at added
        rw [execute, added, and_iff_right done, and_iff_right (List.cons_ne_nil p ps)]
      · exact iff_of_true (upserted_error t key data rows) fun missed => done missed.1

theorem upserted_update (p : Pair) (ps : List Pair) (keyed : key ≠ [])
    (distinct : ((p :: ps).map fun p => t.columnOf p.column).Nodup)
    (matched : ∃ row ∈ rows, carries t key row = true) :
    Upserted t key (p :: ps) rows
      (some ((execute t rows (.update table p ps key)).1, ⟨true, []⟩)) := by
  refine ⟨_, _, rfl, .inl ⟨matched, ?_⟩⟩
  rw [execute, List.forall₂_map_right_iff, List.forall₂_same]
  intro row _
  by_cases hit : carries t key row = true
  · rw [if_pos hit, if_pos ⟨keyed, hit⟩]
    exact carries_assigned t (p :: ps) row distinct
  · rw [if_neg hit, if_neg fun both => hit both.2]

/-- Without a key, an update leaves all rows as they are. -/
theorem upserted_keyless_iff (p : Pair) (ps : List Pair)
    (matched : ∃ row ∈ rows, carries t [] row = true) :
    Upserted t [] (p :: ps) rows (some ((execute t rows (.update table p ps [])).1, ⟨true, []⟩)) ↔
      ∀ row ∈ rows, carries t (p :: ps) row = true := by
  have kept : (execute t rows (.update table p ps [])).1 = rows := by
    simp only [execute, ne_eq, not_true_eq_false, false_and, if_false, List.map_id']
  obtain ⟨witness, inside, hit⟩ := matched
  rw [kept, upserted_some]
  constructor
  · rintro (⟨-, pairwise⟩ | ⟨unmatched, -⟩ | ⟨error, -⟩)
    · exact List.forall₂_same.mp pairwise
    · rw [unmatched witness inside] at hit
      cases hit
    · cases error
  · exact fun all => .inl ⟨⟨witness, inside, hit⟩, List.forall₂_same.mpr all⟩

theorem upserted_updating_iff (distinct : (data.map fun p => t.columnOf p.column).Nodup)
    (matched : ∃ row ∈ rows, carries t key row = true) :
    Upserted t key data rows (rkdbSql t (updating table key data) outcome rows) ↔
      ¬(outcome = .ok ∧ key = [] ∧ data ≠ [] ∧ ∃ row ∈ rows, carries t data row = false) := by
  cases data with
  | nil => exact iff_of_true (upserted_error t key [] rows) fun missed => missed.2.2.1 rfl
  | cons p ps =>
      rw [updating, rkdbSql_silent t rows outcome _ rfl]
      split_ifs with done
      · by_cases keyed : key = []
        · subst keyed
          rw [upserted_keyless_iff t table rows p ps matched, and_iff_right done, and_iff_right rfl,
            and_iff_right (List.cons_ne_nil p ps)]
          simp only [not_exists, not_and, Bool.not_eq_false]
        · exact iff_of_true (upserted_update t table key rows p ps keyed distinct matched)
            fun missed => keyed missed.2.1
      · exact iff_of_true (upserted_error t key (p :: ps) rows) fun missed => done missed.1

omit [DecidableEq V] in
theorem delivered_option (found : Option (Row V)) :
    delivered outcome found.toList = if outcome = .error 0 then [] else found.toList := by
  cases outcome with
  | ok => rfl
  | error n =>
      cases n with
      | zero => rfl
      | succ n =>
          rw [if_neg (by simp), delivered]
          cases found <;> simp

theorem upserted_iff (first second : Outcome)
    (distinct : ((key ++ data).map fun p => t.columnOf p.column).Nodup) :
    Upserted t key data rows (cmdUpdate t table key data first second rows) ↔
      ¬Misses t key data first second rows := by
  have some_iff : (∃ row ∈ rows, carries t key row = true) ↔
      ∃ row, rows.find? (carries t key) = some row := by
    rw [← Option.isSome_iff_exists, List.find?_isSome]
  by_cases early : first = .error 0
  · have nothing : delivered first (rows.find? (carries t key)).toList = [] := by
      rw [delivered_option, if_pos early]
    rw [cmdUpdate_not_found t table key data rows second first nothing,
      upserted_insertion_iff t table key data rows second distinct, Misses, and_iff_right early,
      or_iff_left fun late => late.1 early]
  · rw [Misses, or_iff_right fun missed => early missed.1, and_iff_right early]
    cases found : rows.find? (carries t key) with
    | none =>
        have nothing : delivered first (rows.find? (carries t key)).toList = [] := by
          rw [delivered_option, if_neg early, found]
          rfl
        rw [cmdUpdate_not_found t table key data rows second first nothing,
          upserted_insertion_iff t table key data rows second distinct, some_iff, found]
        simp
    | some row =>
        have got : delivered first (rows.find? (carries t key)).toList = [row] := by
          rw [delivered_option, if_neg early, found]
          rfl
        have columns : (data.map fun p => t.columnOf p.column).Nodup := by
          rw [List.map_append] at distinct
          exact distinct.of_append_right
        rw [cmdUpdate_found t table key data rows second first row got]
        by_cases fails : callbackFails t row = true
        · rw [if_pos fails]
          refine iff_of_false (not_upserted_none t key data rows) fun holds => ?_
          exact holds ⟨row, rfl, .inl fails⟩
        · rw [if_neg fails,
            upserted_updating_iff t table key data rows second columns (some_iff.mpr ⟨row, found⟩)]
          simp [fails]

end Statements

section Update
variable (getInt : Int64 → Int32)

/-- The text has the tokens of the statement, or of none. -/
def Understood (sql : Bytes) : Option Statement → Prop
  | some s => tokens sql = some s.tokens
  | none => ∀ s : Statement, tokens sql ≠ some s.tokens

theorem understood_of_says {sql : Bytes} {stmt : Option Statement} (said : Says sql stmt) :
    Understood sql stmt := by
  obtain ⟨s, rfl, same⟩ := said
  exact same

theorem tokens_insertion_nil (table : Name) :
    tokens (updateSecond getInt false table [] []) =
      some ([keyword "INSERT", keyword "INTO"] ++ ([.word table.bytes] ++
        [leftParen, leftParen, keyword "null", rightParen, rightParen, keyword "VALUES", leftParen,
          leftParen, keyword "null", rightParen, rightParen, semicolon])) := by
  have ran : run .start (ascii " ((null)) VALUES ((null));") =
      ([leftParen, leftParen, keyword "null", rightParen, rightParen, keyword "VALUES", leftParen,
        leftParen, keyword "null", rightParen, rightParen, semicolon], .start) := rfl
  have values := Reads.tells fun rest (_ : Stops rest) => reads_of_run ran rest trivial
  have named := (reads_column table).tells.append values fun _ _ =>
    stops_cons _ _ (by decide) (by decide)
  have whole : Tells Stops (ascii "INSERT INTO " ++ (table.bytes ++ _))
      ([keyword "INSERT", keyword "INTO"] ++ _) _ := named.after_fixed rfl
  have text : updateSecond getInt false table [] [] =
      ascii "INSERT INTO " ++ (table.bytes ++ ascii " ((null)) VALUES ((null));") := rfl
  rw [text]
  exact (whole.tokens_iff stops_nil).mpr ⟨trivial, trivial⟩

theorem tokens_updating_nil (table : Name) (key : List Pair) (kept : AllKept getInt key) :
    tokens (updateSecond getInt true table key []) =
      some ([keyword "UPDATE"] ++ ([.word table.bytes] ++
        ([keyword "SET", leftParen, keyword "null", rightParen, keyword "WHERE"] ++
          (conditionTokens key ++ [semicolon])))) := by
  have tail := (tells_conditionText getInt key).append tells_semicolon fun rest _ =>
    stops_semicolon rest
  have sets : Tells Stops (ascii " SET (null) WHERE " ++ (str (whereText getInt key) ++ _))
      ([keyword "SET", leftParen, keyword "null", rightParen, keyword "WHERE"] ++ _) _ :=
    tail.after_fixed rfl
  have named := (reads_column table).tells.append sets fun _ _ =>
    stops_cons _ _ (by decide) (by decide)
  have whole : Tells Stops (ascii "UPDATE " ++ (table.bytes ++ _)) ([keyword "UPDATE"] ++ _) _ :=
    named.after_fixed rfl
  have text : updateSecond getInt true table key [] = ascii "UPDATE " ++ (table.bytes ++
      (ascii " SET (null) WHERE " ++ (str (whereText getInt key) ++ ascii ";"))) := rfl
  rw [text]
  exact (whole.tokens_iff stops_nil).mpr ⟨trivial, kept, trivial⟩

theorem understood_second (found : Bool) (table : Name) (key data : List Pair)
    (kept : AllKept getInt (key ++ data)) :
    Understood (updateSecond getInt found table key data)
      (secondStatement found table key data) := by
  by_cases something : if found then data ≠ [] else key ++ data ≠ []
  · exact understood_of_says ((says_second_iff getInt found table key data).mpr ⟨something, kept⟩)
  · cases found with
    | true =>
        cases Decidable.not_not.mp something
        intro s same
        rw [tokens_updating_nil getInt table key (by simpa using kept)] at same
        have heads := congrArg List.head? (Option.some.inj same)
        cases s with
        | update _ p ps _ => cases congrArg (·[3]?) (Option.some.inj same)
        | select _ _ _ _ => exact absurd (Option.some.inj heads) (by decide)
        | delete _ _ => exact absurd (Option.some.inj heads) (by decide)
        | insert _ _ _ => exact absurd (Option.some.inj heads) (by decide)
    | false =>
        obtain ⟨rfl, rfl⟩ := List.append_eq_nil_iff.mp (Decidable.not_not.mp something)
        intro s same
        rw [tokens_insertion_nil] at same
        have heads := congrArg List.head? (Option.some.inj same)
        cases s with
        | insert _ p ps => cases congrArg (·[4]?) (Option.some.inj same)
        | select _ _ _ _ => exact absurd (Option.some.inj heads) (by decide)
        | delete _ _ => exact absurd (Option.some.inj heads) (by decide)
        | update _ _ _ _ => exact absurd (Option.some.inj heads) (by decide)

variable {V : Type} [DecidableEq V]

/-- The texts of an update mean the statements that are executed, and these have the effect of
an upsert exactly if none of three cases occurs. -/
theorem update_upserts_iff (keeps : KeepsFitting getInt) (t : Table V) (table : Name)
    (key data : List Pair) (plain : AllPlain (key ++ data))
    (distinct : ((key ++ data).map fun p => t.columnOf p.column).Nodup) :
    Understood (updateProbe getInt table key) (some (.select .star table key true)) ∧
      (∀ found,
        Understood (updateSecond getInt found table key data)
          (secondStatement found table key data)) ∧
      ∀ first second rows,
        Upserted t key data rows (cmdUpdate t table key data first second rows) ↔
          ¬Misses t key data first second rows := by
  have kept : AllKept getInt (key ++ data) := (allKept_iff_allPlain keeps _).mpr plain
  refine ⟨?_, fun found => understood_second getInt found table key data kept,
    fun first second rows => ?_⟩
  · have keyKept : AllKept getInt key := fun p member => kept p (List.mem_append_left data member)
    exact ((tells_updateProbe getInt table key).tokens_iff stops_nil).mpr keyKept
  · exact upserted_iff t table key data rows first second distinct

def ageColumn : Name := ⟨ascii "iAge", by decide⟩

def faceList : Table Value := ⟨[nameColumn, ageColumn], id, fun _ v => v, fun _ => none⟩

def thirty : Pair := ⟨ageColumn, .int 30⟩
def forty : Pair := ⟨ageColumn, .int 40⟩

def annRow : Row Value := assigned faceList [ann, thirty] faceList.defaults

theorem update_upserts_ann :
    Upserted faceList [ann] [forty] [annRow]
      (cmdUpdate faceList faces [ann] [forty] .ok .ok [annRow]) := by
  have plain : AllPlain ([ann] ++ [forty]) := by
    simp only [AllPlain, List.forall_mem_append, List.forall_mem_singleton]
    refine ⟨?_, ?_⟩
    · rw [ann, Value.Plain]
      decide
    · rw [forty, Value.Plain]
      decide
  have upsert := update_upserts_iff saturating keepsFitting_saturating faceList faces [ann] [forty]
    plain (by decide)
  refine (upsert.2.2 .ok .ok [annRow]).mpr ?_
  rintro (⟨early, -⟩ | ⟨-, row, found, fails | ⟨-, keyless, -⟩⟩)
  · cases early
  · cases found
    revert fails
    decide
  · cases keyless

/-- A busy database at the SELECT leads to a second row, and an update without a key reports
success and changes nothing. -/
theorem update_not_upsert :
    cmdUpdate faceList faces [ann] [forty] (.error 0) .ok [annRow] =
        some ([annRow, assigned faceList [ann, forty] faceList.defaults], ⟨true, []⟩) ∧
      ¬Upserted faceList [ann] [forty] [annRow]
        (cmdUpdate faceList faces [ann] [forty] (.error 0) .ok [annRow]) ∧
      cmdUpdate faceList faces [] [forty] .ok .ok [annRow] = some ([annRow], ⟨true, []⟩) ∧
      ¬Upserted faceList [] [forty] [annRow]
        (cmdUpdate faceList faces [] [forty] .ok .ok [annRow]) := by
  have matched : carries faceList [ann] annRow = true := by decide
  have younger : carries faceList [forty] annRow = false := by decide
  refine ⟨rfl, ?_, rfl, ?_⟩
  · rw [upserted_iff faceList faces [ann] [forty] _ _ _ (by decide)]
    exact fun holds => holds (.inl ⟨rfl, rfl, by simp, annRow, List.mem_cons_self, matched⟩)
  · rw [upserted_iff faceList faces [] [forty] _ _ _ (by decide)]
    exact fun holds => holds (.inr ⟨by decide, annRow, rfl,
      .inr ⟨rfl, rfl, by simp, annRow, List.mem_cons_self, younger⟩⟩)

end Update

end WfyApp.DbUpdate
