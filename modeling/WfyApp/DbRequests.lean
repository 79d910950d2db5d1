import WfyApp.SqlText

/-! The statements that dbserver makes of requests (`cmd_select`, `cmd_delete`, `cmd_insert`,
`cmd_update` in common.c and the builders in rkdb.c), and the statements that the requests
ask for. A value is put into the text as it is. A null pointer is printed as `(null)`.
`json_object_get_int` is json-c's; it is a parameter. -/

namespace WfyApp.DbRequests
open ByteText NumberText SqlText

structure Name where
  bytes : Bytes
  isName : isName bytes = true
deriving DecidableEq

structure Text where
  bytes : Bytes
  nulFree : 0 ∉ bytes
deriving DecidableEq

inductive Value where
  | text (t : Text)
  | int (n : Int64)
deriving DecidableEq

structure Pair where
  column : Name
  value : Value
deriving DecidableEq

/-- What is assumed of `json_object_get_int`: it gives a value of 32 bits as it is. -/
def KeepsFitting (getInt : Int64 → Int32) : Prop :=
  ∀ n : Int64, -2 ^ 31 ≤ n.toInt → n.toInt < 2 ^ 31 → (getInt n).toInt = n.toInt

variable (getInt : Int64 → Int32)

/-- `%s=%d` or `%s='%s'`. -/
def assignment (p : Pair) : Bytes :=
  match p.value with
  | .int n => format (ascii "%s=%s") [p.column.bytes, signed (getInt n).toInt]
  | .text t => format (ascii "%s='%s'") [p.column.bytes, t.bytes]

/-- `%d` or `'%s'`. -/
def valueText : Value → Bytes
  | .int n => signed (getInt n).toInt
  | .text t => format (ascii "'%s'") [t.bytes]

/-- The loops over an object: each pair is printed after what is there already, if
anything is. -/
def printed (sep : Bytes) (render : Pair → Bytes) (start : Option Bytes) (pairs : List Pair) :
    Option Bytes :=
  pairs.foldl
    (fun text p =>
      match text with
      | some tmp => some (tmp ++ sep ++ render p)
      | none => some (render p))
    start

def whereText (key : List Pair) : Option Bytes :=
  printed (ascii " and ") (assignment getInt) none key

def setText (data : List Pair) : Option Bytes :=
  printed (ascii ",") (assignment getInt) none data

def colsText (key data : List Pair) : Option Bytes :=
  printed (ascii ",") (·.column.bytes) (printed (ascii ",") (·.column.bytes) none key) data

def valsText (key data : List Pair) : Option Bytes :=
  printed (ascii ",") (valueText getInt ·.value)
    (printed (ascii ",") (valueText getInt ·.value) none key) data

/-- The argument of `%s`. -/
def str (s : Option Bytes) : Bytes := s.getD (ascii "(null)")

def rkdbInsert (table : Bytes) (cols vals : Option Bytes) : Bytes :=
  format (ascii "INSERT INTO %s (%s) VALUES (%s);") [table, str cols, str vals]

def rkdbUpdate (table : Bytes) (set where_ : Option Bytes) : Bytes :=
  format (ascii "UPDATE %s SET %s WHERE %s;") [table, str set, str where_]

def rkdbDelete (table : Bytes) : Option Bytes → Bytes
  | some where_ => format (ascii "DELETE from %s WHERE %s;") [table, where_]
  | none => format (ascii "DELETE from %s;") [table]

def rkdbSelect (table : Bytes) (colname where_ order limit : Option Bytes) : Bytes :=
  let sql :=
    match colname with
    | some colname => format (ascii "SELECT %s from %s") [colname, table]
    | none => format (ascii "SELECT * from %s") [table]
  let sql :=
    match where_ with
    | some where_ => format (ascii "%s WHERE %s") [sql, where_]
    | none => sql
  let sql :=
    match order with
    | some order => format (ascii "%s ORDER BY %s") [sql, order]
    | none => sql
  match limit with
  | some limit => format (ascii "%s LIMIT %s") [sql, limit]
  | none => sql

/-- The `data` of a Select: nothing, a star, columns, or the number of rows. -/
inductive Columns where
  | absent
  | star
  | names (first : Name) (more : List Name)
  | count (column : Name)

def Columns.text : Columns → Option Bytes
  | .absent => none
  | .star => some (ascii "*")
  | .names first more => some (first.bytes ++ more.flatMap fun name => ascii "," ++ name.bytes)
  | .count column => some (ascii "count(" ++ column.bytes ++ ascii ")")

inductive Request where
  | select (table : Name) (key : List Pair) (data : Columns)
  | delete (table : Name) (key : List Pair)
  | insert (table : Name) (key data : List Pair)
  | update (table : Name) (key data : List Pair)

def cmdSelect (table : Name) (key : List Pair) (data : Columns) : Bytes :=
  rkdbSelect table.bytes data.text (whereText getInt key) none none

def cmdDelete (table : Name) (key : List Pair) : Bytes :=
  rkdbDelete table.bytes (whereText getInt key)

def cmdInsert (table : Name) (key data : List Pair) : Bytes :=
  rkdbInsert table.bytes (colsText key data) (valsText getInt key data)

/-- The two statements of `cmd_update`; the second depends on whether the first gave a row. -/
def updateProbe (table : Name) (key : List Pair) : Bytes :=
  rkdbSelect table.bytes (some (ascii "*")) (whereText getInt key) none (some (ascii "0,1"))

def updateSecond (found : Bool) (table : Name) (key data : List Pair) : Bytes :=
  if found then rkdbUpdate table.bytes (setText getInt data) (whereText getInt key)
  else rkdbInsert table.bytes (colsText key data) (valsText getInt key data)

/-- What is handed to `rkdb_sql`. -/
def statements (found : Bool) : Request → List Bytes
  | .select table key data => [cmdSelect getInt table key data]
  | .delete table key => [cmdDelete getInt table key]
  | .insert table key data => [cmdInsert getInt table key data]
  | .update table key data =>
      [updateProbe getInt table key, updateSecond getInt found table key data]

/-- Statements of the four kinds; an insertion and an update have at least one column. -/
inductive Statement where
  | select (columns : Columns) (table : Name) (key : List Pair) (first : Bool)
  | delete (table : Name) (key : List Pair)
  | insert (table : Name) (first : Pair) (more : List Pair)
  | update (table : Name) (first : Pair) (more : List Pair) (key : List Pair)

def keyword (s : String) : Token := .word (ascii s)
def comma : Token := .symbol 0x2C
def leftParen : Token := .symbol 0x28
def rightParen : Token := .symbol 0x29
def semicolon : Token := .symbol 0x3B
def equalsSign : Token := .symbol equals

def valueTokens : Value → List Token
  | .int n => signedTokens n.toInt
  | .text t => [.text t.bytes]

def pairTokens (p : Pair) : List Token := .word p.column.bytes :: equalsSign :: valueTokens p.value

/-- Items with a separator between them. -/
def separated {α : Type} (sep : Token) (words : α → List Token) (first : α) (more : List α) :
    List Token :=
  words first ++ more.flatMap fun x => [sep] ++ words x

def whereTokens : List Pair → List Token
  | [] => []
  | p :: ps => keyword "WHERE" :: separated (keyword "and") pairTokens p ps

/-- The condition of an update, which is there also if there is no key. -/
def conditionTokens : List Pair → List Token
  | [] => [leftParen, keyword "null", rightParen]
  | p :: ps => separated (keyword "and") pairTokens p ps

def Columns.tokens : Columns → List Token
  | .absent | .star => [.symbol asterisk]
  | .names first more => separated comma (fun name => [.word name.bytes]) first more
  | .count column => [keyword "count", leftParen, .word column.bytes, rightParen]

def Statement.tokens : Statement → List Token
  | .select columns table key first =>
      [keyword "SELECT"] ++ columns.tokens ++ [keyword "from", .word table.bytes] ++
        whereTokens key ++ if first then [keyword "LIMIT", .number 0, comma, .number 1] else []
  | .delete table key =>
      [keyword "DELETE", keyword "from", .word table.bytes] ++ whereTokens key ++ [semicolon]
  | .insert table first more =>
      [keyword "INSERT", keyword "INTO", .word table.bytes, leftParen] ++
        separated comma (fun p => [.word p.column.bytes]) first more ++
        [rightParen, keyword "VALUES", leftParen] ++
        separated comma (fun p => valueTokens p.value) first more ++ [rightParen, semicolon]
  | .update table first more key =>
      [keyword "UPDATE", .word table.bytes, keyword "SET"] ++ separated comma pairTokens first more ++
        [keyword "WHERE"] ++ conditionTokens key ++ [semicolon]

def insertion (table : Name) : List Pair → Option Statement
  | [] => none
  | p :: ps => some (.insert table p ps)

def updating (table : Name) (key : List Pair) : List Pair → Option Statement
  | [] => none
  | p :: ps => some (.update table p ps key)

/-- The statements that a request asks for, if there are such. -/
def asked (found : Bool) : Request → List (Option Statement)
  | .select table key data => [some (.select data table key false)]
  | .delete table key => [some (.delete table key)]
  | .insert table key data => [insertion table (key ++ data)]
  | .update table key data =>
      [some (.select .star table key true),
        if found then updating table key data else insertion table (key ++ data)]

/-- The text has the tokens of the statement. -/
def Says (sql : Bytes) (stmt : Option Statement) : Prop :=
  ∃ s, stmt = some s ∧ tokens sql = some s.tokens

def Value.Plain : Value → Prop
  | .text t => singleQuote ∉ t.bytes
  | .int n => -2 ^ 31 ≤ n.toInt ∧ n.toInt < 2 ^ 31

def AllPlain (pairs : List Pair) : Prop := ∀ p ∈ pairs, p.value.Plain

section Kept

/-- The literal that is printed is the value. -/
def Value.Kept : Value → Prop
  | .text t => singleQuote ∉ t.bytes
  | .int n => (getInt n).toInt = n.toInt

def AllKept (pairs : List Pair) : Prop := ∀ p ∈ pairs, p.value.Kept getInt

variable {getInt}

theorem fits_of_kept {n : Int64} (same : (getInt n).toInt = n.toInt) :
    -2 ^ 31 ≤ n.toInt ∧ n.toInt < 2 ^ 31 :=
  same ▸ ⟨Int32.le_toInt _, Int32.toInt_lt _⟩

theorem Value.kept_iff_plain (keeps : KeepsFitting getInt) (v : Value) :
    v.Kept getInt ↔ v.Plain := by
  cases v with
  | text t => exact Iff.rfl
  | int n => exact ⟨fits_of_kept, fun fits => keeps n fits.1 fits.2⟩

theorem allKept_iff_allPlain (keeps : KeepsFitting getInt) (pairs : List Pair) :
    AllKept getInt pairs ↔ AllPlain pairs :=
  forall₂_congr fun p _ => p.value.kept_iff_plain keeps

end Kept

section Texts

theorem assignment_eq (p : Pair) :
    assignment getInt p = p.column.bytes ++ (ascii "=" ++ valueText getInt p.value) := by
  rw [assignment]
  cases p.value with
  | int n =>
      have shape : format (ascii "%s=%s") [p.column.bytes, signed (getInt n).toInt] =
          p.column.bytes ++ (ascii "=" ++ (signed (getInt n).toInt ++ [])) := rfl
      rw [List.append_nil] at shape
      exact shape
  | text t => rfl

theorem printed_append (sep : Bytes) (render : Pair → Bytes) (text : Bytes) (pairs : List Pair) :
    printed sep render (some text) pairs = some (text ++ pairs.flatMap fun p => sep ++ render p) := by
  induction pairs generalizing text with
  | nil => simp [printed]
  | cons p ps ih =>
      have rest := ih (text ++ sep ++ render p)
      rw [printed] at rest ⊢
      rw [List.foldl_cons, rest, List.flatMap_cons]
      simp only [List.append_assoc]

theorem printed_cons (sep : Bytes) (render : Pair → Bytes) (p : Pair) (ps : List Pair) :
    printed sep render none (p :: ps) = some (render p ++ ps.flatMap fun q => sep ++ render q) :=
  printed_append sep render (render p) ps

theorem printed_printed (sep : Bytes) (render : Pair → Bytes) (key data : List Pair) :
    printed sep render (printed sep render none key) data = printed sep render none (key ++ data) := by
  rw [printed, printed, printed, List.foldl_append]

theorem rkdbInsert_eq (table : Bytes) (cols vals : Option Bytes) :
    rkdbInsert table cols vals = ascii "INSERT INTO " ++ (table ++ (ascii " (" ++ (str cols ++
      (ascii ") VALUES (" ++ (str vals ++ ascii ");"))))) := rfl

theorem rkdbUpdate_eq (table : Bytes) (set where_ : Option Bytes) :
    rkdbUpdate table set where_ = ascii "UPDATE " ++ (table ++ (ascii " SET " ++ (str set ++
      (ascii " WHERE " ++ (str where_ ++ ascii ";"))))) := rfl

theorem rkdbSelect_eq (table colname : Bytes) (where_ limit : Option Bytes) :
    rkdbSelect table (some colname) where_ none limit =
      ascii "SELECT " ++ (colname ++ (ascii " from " ++ (table ++
        ((where_.elim [] (ascii " WHERE " ++ ·)) ++ limit.elim [] (ascii " LIMIT " ++ ·))))) := by
  have head : format (ascii "SELECT %s from %s") [colname, table] =
      ascii "SELECT " ++ (colname ++ (ascii " from " ++ (table ++ []))) := rfl
  have condition (sql w : Bytes) : format (ascii "%s WHERE %s") [sql, w] =
      sql ++ (ascii " WHERE " ++ (w ++ [])) := rfl
  have bound (sql l : Bytes) : format (ascii "%s LIMIT %s") [sql, l] =
      sql ++ (ascii " LIMIT " ++ (l ++ [])) := rfl
  cases where_ <;> cases limit <;>
    simp only [rkdbSelect, head, condition, bound, Option.elim, List.append_nil, List.nil_append,
      List.append_assoc]

end Texts

section Parts

theorem reads_column (name : Name) : Reads Stops name.bytes [.word name.bytes] :=
  reads_name name.bytes name.isName

/-- The pairs of an object, printed one after the other. -/
theorem tells_printed (sep : Bytes) (token : Token) (render : Pair → Bytes)
    (words : Pair → List Token) (holds : Pair → Prop) (p : Pair) (ps : List Pair)
    (reads : Reads Anything sep [token]) (stop : ∀ rest, Stops (sep ++ rest))
    (each : ∀ q, Tells Stops (render q) (words q) (holds q)) :
    Tells Stops (str (printed sep render none (p :: ps))) (separated token words p ps)
      (∀ q ∈ p :: ps, holds q) := by
  rw [printed_cons]
  exact tells_separated sep [token] render words holds p ps reads stop each

theorem stops_comma (rest : Bytes) : Stops (ascii "," ++ rest) :=
  stops_cons _ _ (by decide) (by decide)

theorem reads_comma : Reads Anything (ascii ",") [comma] := reads_of_run rfl

theorem tells_cols (key data : List Pair) (p : Pair) (ps : List Pair) (all : key ++ data = p :: ps) :
    Tells Stops (str (colsText key data)) (separated comma (fun p => [.word p.column.bytes]) p ps)
      True := by
  rw [colsText, printed_printed, all]
  have told := tells_printed (ascii ",") comma (·.column.bytes) (fun p => [.word p.column.bytes])
    (fun _ => True) p ps reads_comma stops_comma fun q => (reads_column q.column).tells
  exact told.congr (by simp)

theorem where_run : run .start (ascii " WHERE ") = ([keyword "WHERE"], .start) := rfl

theorem stops_where (key : List Pair) (rest : Bytes) (stops : Stops rest) :
    Stops ((whereText getInt key).elim [] (ascii " WHERE " ++ ·) ++ rest) := by
  cases key with
  | nil => exact stops
  | cons p ps =>
      rw [whereText, printed_cons]
      exact stops_cons _ _ (by decide) (by decide)

theorem reads_limit :
    Reads Stops (ascii " LIMIT 0,1") [keyword "LIMIT", .number 0, comma, .number 1] := by
  intro rest stops
  have ran : run .start (ascii " LIMIT 0,1") =
      ([keyword "LIMIT", .number 0, comma], .number 1) := rfl
  rw [tokens, scan_append, ran, scan_number _ _ stops, Option.map_map]
  rfl

theorem tells_columns (c : Columns) : Tells Stops (c.text.getD (ascii "*")) c.tokens True := by
  have star : Tells Stops (ascii "*") [.symbol asterisk] True :=
    Reads.tells fun rest _ => reads_of_run rfl rest trivial
  cases c with
  | absent => exact star
  | star => exact star
  | names first more =>
      have told := tells_separated (ascii ",") [comma] Name.bytes (fun name => [.word name.bytes])
        (fun _ => True) first more reads_comma stops_comma fun name => (reads_column name).tells
      exact told.congr (by simp)
  | count column =>
      have close : Tells Stops (ascii ")") [rightParen] True :=
        Reads.tells fun rest _ => reads_of_run rfl rest trivial
      have inner := (reads_column column).tells.append close fun _ _ =>
        stops_cons _ _ (by decide) (by decide)
      have told : Tells Stops (ascii "count(" ++ (column.bytes ++ ascii ")"))
          ([keyword "count", leftParen] ++ ([.word column.bytes] ++ [rightParen])) (True ∧ True) :=
        inner.after_fixed rfl
      rw [← List.append_assoc] at told
      exact told.congr (by simp)

theorem tells_semicolon : Tells Stops (ascii ";") [semicolon] True :=
  Reads.tells fun rest _ => reads_of_run rfl rest trivial

theorem stops_semicolon (rest : Bytes) : Stops (ascii ";" ++ rest) :=
  stops_cons _ _ (by decide) (by decide)

end Parts

section Told

theorem tells_value (v : Value) :
    Tells Stops (valueText getInt v) (valueTokens v) (v.Kept getInt) := by
  cases v with
  | int n => exact tells_signed (getInt n).toInt n.toInt
  | text t => exact tells_literal t.bytes

theorem tells_pair (p : Pair) :
    Tells Stops (assignment getInt p) (pairTokens p) (p.value.Kept getInt) := by
  rw [assignment_eq getInt]
  have sign : Reads Anything (ascii "=") [equalsSign] := reads_of_run rfl
  have right := (tells_value getInt p.value).after sign
  have whole := (reads_column p.column).tells.append right fun rest _ =>
    stops_cons _ _ (by decide) (by decide)
  exact whole.congr (iff_of_eq (true_and _))

theorem tells_condition (p : Pair) (ps : List Pair) :
    Tells Stops (str (whereText getInt (p :: ps))) (separated (keyword "and") pairTokens p ps)
      (AllKept getInt (p :: ps)) :=
  tells_printed (ascii " and ") (keyword "and") (assignment getInt) pairTokens
    (·.value.Kept getInt) p ps (reads_of_run rfl) (fun _ => stops_cons _ _ (by decide) (by decide))
    (tells_pair getInt)

theorem tells_set (p : Pair) (ps : List Pair) :
    Tells Stops (str (setText getInt (p :: ps))) (separated comma pairTokens p ps)
      (AllKept getInt (p :: ps)) :=
  tells_printed (ascii ",") comma (assignment getInt) pairTokens (·.value.Kept getInt) p ps
    reads_comma stops_comma (tells_pair getInt)

theorem tells_vals (key data : List Pair) (p : Pair) (ps : List Pair) (all : key ++ data = p :: ps) :
    Tells Stops (str (valsText getInt key data))
      (separated comma (fun p => valueTokens p.value) p ps) (AllKept getInt (p :: ps)) := by
  rw [valsText, printed_printed, all]
  exact tells_printed (ascii ",") comma _ _ (·.value.Kept getInt) p ps reads_comma stops_comma
    fun q => tells_value getInt q.value

theorem tells_where (key : List Pair) :
    Tells Stops ((whereText getInt key).elim [] (ascii " WHERE " ++ ·)) (whereTokens key)
      (AllKept getInt key) := by
  cases key with
  | nil =>
      intro rest more _
      simp [whereText, printed, whereTokens, AllKept]
  | cons p ps =>
      have told := (tells_condition getInt p ps).after_fixed where_run
      rw [str, whereText, printed_cons, Option.getD_some] at told
      rw [whereText, printed_cons]
      exact told

section Select
variable (table : Name) (key : List Pair) (c : Columns) (limit : Option Bytes)
  (limitTokens : List Token)
  (limited : Tells Stops (limit.elim [] (ascii " LIMIT " ++ ·)) limitTokens True)
  (stop : ∀ rest, Stops rest → Stops (limit.elim [] (ascii " LIMIT " ++ ·) ++ rest))
include limited stop

theorem tells_select :
    Tells Stops
      (rkdbSelect table.bytes (some (c.text.getD (ascii "*"))) (whereText getInt key) none limit)
      ([keyword "SELECT"] ++ c.tokens ++ [keyword "from", .word table.bytes] ++ whereTokens key ++
        limitTokens) (AllKept getInt key) := by
  have tail := (tells_where getInt key).append limited stop
  have named := (reads_column table).tells.append tail fun rest stops => by
    rw [List.append_assoc]
    exact stops_where getInt key _ (stop rest stops)
  have source : Tells Stops (ascii " from " ++ (table.bytes ++ _)) ([keyword "from"] ++ _) _ :=
    named.after_fixed rfl
  have listed := (tells_columns c).append source fun _ _ => stops_cons _ _ (by decide) (by decide)
  have whole : Tells Stops (ascii "SELECT " ++ (c.text.getD (ascii "*") ++ _))
      ([keyword "SELECT"] ++ _) _ := listed.after_fixed rfl
  rw [rkdbSelect_eq]
  refine (whole.congr ?_).of_tokens ?_
  · simp only [true_and, and_true]
  · simp

end Select

theorem tells_cmdSelect (table : Name) (key : List Pair) (data : Columns) :
    Tells Stops (cmdSelect getInt table key data) (Statement.select data table key false).tokens
      (AllKept getInt key) := by
  have nothing : Tells Stops [] [] True := by
    intro rest more _
    simp
  have told := tells_select getInt table key data none [] nothing fun _ stops => stops
  have text : cmdSelect getInt table key data =
      rkdbSelect table.bytes (some (data.text.getD (ascii "*"))) (whereText getInt key) none
        none := by
    cases data <;> rfl
  rw [text]
  exact told

theorem tells_updateProbe (table : Name) (key : List Pair) :
    Tells Stops (updateProbe getInt table key) (Statement.select .star table key true).tokens
      (AllKept getInt key) :=
  tells_select getInt table key .star (some (ascii "0,1")) _ reads_limit.tells
    fun _ _ => stops_cons _ _ (by decide) (by decide)

theorem tells_cmdDelete (table : Name) (key : List Pair) :
    Tells Stops (cmdDelete getInt table key) (Statement.delete table key).tokens
      (AllKept getInt key) := by
  have tail := (tells_where getInt key).append tells_semicolon fun rest _ => stops_semicolon rest
  have named := (reads_column table).tells.append tail fun rest _ => by
    rw [List.append_assoc]
    exact stops_where getInt key _ (stops_semicolon rest)
  have whole : Tells Stops (ascii "DELETE from " ++ (table.bytes ++ _))
      ([keyword "DELETE", keyword "from"] ++ _) _ := named.after_fixed rfl
  have text : cmdDelete getInt table key = ascii "DELETE from " ++ (table.bytes ++
      ((whereText getInt key).elim [] (ascii " WHERE " ++ ·) ++ ascii ";")) := by
    rw [cmdDelete]
    cases whereText getInt key <;> rfl
  rw [text]
  refine (whole.congr ?_).of_tokens ?_
  · simp only [true_and, and_true]
  · simp [Statement.tokens]

theorem tells_rkdbInsert (table : Name) (key data : List Pair) (p : Pair) (ps : List Pair)
    (all : key ++ data = p :: ps) :
    Tells Stops (rkdbInsert table.bytes (colsText key data) (valsText getInt key data))
      (Statement.insert table p ps).tokens (AllKept getInt (key ++ data)) := by
  have close : Tells Stops (ascii ");") [rightParen, semicolon] True :=
    Reads.tells fun rest _ => reads_of_run rfl rest trivial
  have vals := (tells_vals getInt key data p ps all).append close fun _ _ =>
    stops_cons _ _ (by decide) (by decide)
  have between : Tells Stops (ascii ") VALUES (" ++ (str (valsText getInt key data) ++ _))
      ([rightParen, keyword "VALUES", leftParen] ++ _) _ := vals.after_fixed rfl
  have cols := (tells_cols key data p ps all).append between fun _ _ =>
    stops_cons _ _ (by decide) (by decide)
  have opened : Tells Stops (ascii " (" ++ (str (colsText key data) ++ _)) ([leftParen] ++ _) _ :=
    cols.after_fixed rfl
  have named := (reads_column table).tells.append opened fun _ _ =>
    stops_cons _ _ (by decide) (by decide)
  have whole : Tells Stops (ascii "INSERT INTO " ++ (table.bytes ++ _))
      ([keyword "INSERT", keyword "INTO"] ++ _) _ := named.after_fixed rfl
  rw [rkdbInsert_eq, all]
  refine (whole.congr ?_).of_tokens ?_
  · simp only [true_and, and_true]
  · simp [Statement.tokens]

theorem tells_conditionText (key : List Pair) :
    Tells Stops (str (whereText getInt key)) (conditionTokens key) (AllKept getInt key) := by
  cases key with
  | nil =>
      have null : Tells Stops (ascii "(null)") [leftParen, keyword "null", rightParen] True :=
        Reads.tells fun rest _ => reads_of_run rfl rest trivial
      exact null.congr (by simp [AllKept])
  | cons p ps => exact tells_condition getInt p ps

theorem tells_rkdbUpdate (table : Name) (key : List Pair) (p : Pair) (ps : List Pair) :
    Tells Stops (rkdbUpdate table.bytes (setText getInt (p :: ps)) (whereText getInt key))
      (Statement.update table p ps key).tokens (AllKept getInt (key ++ p :: ps)) := by
  have tail := (tells_conditionText getInt key).append tells_semicolon fun rest _ =>
    stops_semicolon rest
  have condition : Tells Stops (ascii " WHERE " ++ (str (whereText getInt key) ++ _))
      ([keyword "WHERE"] ++ _) _ := tail.after_fixed where_run
  have sets := (tells_set getInt p ps).append condition fun _ _ =>
    stops_cons _ _ (by decide) (by decide)
  have opened : Tells Stops (ascii " SET " ++ (str (setText getInt (p :: ps)) ++ _))
      ([keyword "SET"] ++ _) _ := sets.after_fixed rfl
  have named := (reads_column table).tells.append opened fun _ _ =>
    stops_cons _ _ (by decide) (by decide)
  have whole : Tells Stops (ascii "UPDATE " ++ (table.bytes ++ _)) ([keyword "UPDATE"] ++ _) _ :=
    named.after_fixed rfl
  rw [rkdbUpdate_eq]
  refine (whole.congr ?_).of_tokens ?_
  · simp only [true_and, and_true, AllKept, List.forall_mem_append]
    exact and_comm
  · simp [Statement.tokens]

end Told

section Requests

/-- Each statement that is handed over is the one that was asked for. -/
def Conveyed (found : Bool) (r : Request) : Prop :=
  List.Forall₂ Says (statements getInt found r) (asked found r)

theorem says_iff_of_tells {sql : Bytes} {s : Statement} {C : Prop}
    (told : Tells Stops sql s.tokens C) : Says sql (some s) ↔ C := by
  rw [← told.tokens_iff stops_nil]
  simp [Says]

theorem not_says_none (sql : Bytes) : ¬Says sql none := by
  rintro ⟨s, same, -⟩
  cases same

theorem says_insertion_iff (table : Name) (key data : List Pair) :
    Says (rkdbInsert table.bytes (colsText key data) (valsText getInt key data))
        (insertion table (key ++ data)) ↔
      key ++ data ≠ [] ∧ AllKept getInt (key ++ data) := by
  cases all : key ++ data with
  | nil => exact iff_of_false (not_says_none _) fun both => both.1 rfl
  | cons p ps =>
      rw [insertion, says_iff_of_tells (tells_rkdbInsert getInt table key data p ps all), all]
      exact (and_iff_right (List.cons_ne_nil p ps)).symm

theorem says_updating_iff (table : Name) (key data : List Pair) :
    Says (rkdbUpdate table.bytes (setText getInt data) (whereText getInt key))
        (updating table key data) ↔
      data ≠ [] ∧ AllKept getInt (key ++ data) := by
  cases data with
  | nil => exact iff_of_false (not_says_none _) fun both => both.1 rfl
  | cons p ps =>
      rw [updating, says_iff_of_tells (tells_rkdbUpdate getInt table key p ps)]
      exact (and_iff_right (List.cons_ne_nil p ps)).symm

theorem says_second_iff (found : Bool) (table : Name) (key data : List Pair) :
    Says (updateSecond getInt found table key data)
        (if found then updating table key data else insertion table (key ++ data)) ↔
      (if found then data ≠ [] else key ++ data ≠ []) ∧ AllKept getInt (key ++ data) := by
  cases found with
  | true => exact says_updating_iff getInt table key data
  | false => exact says_insertion_iff getInt table key data

theorem says_cmdDelete_iff (table : Name) (key : List Pair) :
    Says (cmdDelete getInt table key) (some (.delete table key)) ↔ AllKept getInt key :=
  says_iff_of_tells (tells_cmdDelete getInt table key)

/-- All values can be put into the text as they are, and an insertion or an update has
something to write. -/
def Conveyable (found : Bool) : Request → Prop
  | .select _ key _ => AllPlain key
  | .delete _ key => AllPlain key
  | .insert _ key data => key ++ data ≠ [] ∧ AllPlain (key ++ data)
  | .update _ key data =>
      (if found then data ≠ [] else key ++ data ≠ []) ∧ AllPlain (key ++ data)

/-- A request becomes the statements that it asks for exactly if no string has a quote and
all integers fit 32 bits (and there is something to insert or to set). -/
theorem conveyed_iff (keeps : KeepsFitting getInt) (found : Bool) (r : Request) :
    Conveyed getInt found r ↔ Conveyable found r := by
  cases r with
  | select table key data =>
      simp only [Conveyed, statements, asked, List.forall₂_cons, List.forall₂_nil_left_iff, and_true]
      rw [says_iff_of_tells (tells_cmdSelect getInt table key data), allKept_iff_allPlain keeps,
        Conveyable]
  | delete table key =>
      simp only [Conveyed, statements, asked, List.forall₂_cons, List.forall₂_nil_left_iff, and_true]
      rw [says_cmdDelete_iff getInt table key, allKept_iff_allPlain keeps, Conveyable]
  | insert table key data =>
      simp only [Conveyed, statements, asked, List.forall₂_cons, List.forall₂_nil_left_iff, and_true]
      rw [cmdInsert, says_insertion_iff getInt table key data, allKept_iff_allPlain keeps,
        Conveyable]
  | update table key data =>
      simp only [Conveyed, statements, asked, List.forall₂_cons, List.forall₂_nil_left_iff, and_true]
      rw [says_iff_of_tells (tells_updateProbe getInt table key), says_second_iff getInt,
        allKept_iff_allPlain keeps, allKept_iff_allPlain keeps, Conveyable]
      refine and_iff_right_of_imp fun both p member => ?_
      exact both.2 p (List.mem_append_left data member)

def nameColumn : Name := ⟨ascii "sName", by decide⟩
def idColumn : Name := ⟨ascii "id", by decide⟩
def faces : Name := ⟨ascii "FaceList", by decide⟩

def saturating (n : Int64) : Int32 := Int32.ofIntClamp n.toInt

theorem keepsFitting_saturating : KeepsFitting saturating := by
  intro n least most
  have most' : n.toInt ≤ 2 ^ 31 - 1 := by omega
  exact Int32.toInt_ofIntClamp least most'

def ann : Pair := ⟨nameColumn, .text ⟨ascii "ann", by decide⟩⟩
def smallId : Pair := ⟨idColumn, .int (-17)⟩

theorem conveyed_iff_ann :
    Conveyed saturating true (.update faces [ann] [smallId]) ∧
      Conveyed saturating false (.update faces [ann] [smallId]) := by
  have plain : AllPlain ([ann] ++ [smallId]) := by
    simp only [AllPlain, List.forall_mem_append, List.forall_mem_singleton]
    refine ⟨?_, ?_⟩
    · rw [ann, Value.Plain]
      decide
    · rw [smallId, Value.Plain]
      decide
  have conveyed (found : Bool) : Conveyed saturating found (.update faces [ann] [smallId]) :=
    (conveyed_iff saturating keepsFitting_saturating found _).mpr ⟨by cases found <;> simp, plain⟩
  exact ⟨conveyed true, conveyed false⟩

def quoteInjection : Pair := ⟨nameColumn, .text ⟨ascii "' or ''='", by decide⟩⟩
def largeId : Pair := ⟨idColumn, .int 4294967296⟩

/-- A name with quotes turns a deletion of its rows into one of all rows. An id beyond 32 bits
is not the one in the statement, whichever of 32 bits takes its place. -/
theorem requests_change_meaning :
    (∀ getInt, tokens (cmdDelete getInt faces [quoteInjection]) =
        some ([keyword "DELETE", keyword "from", .word faces.bytes, keyword "WHERE",
          .word nameColumn.bytes, equalsSign, .text [], keyword "or", .text [], equalsSign,
          .text [], semicolon])) ∧
      ∀ getInt, ¬Conveyed getInt false (.delete faces [quoteInjection]) ∧
        ¬Conveyed getInt false (.delete faces [largeId]) := by
  refine ⟨fun _ => rfl, fun getInt => ?_⟩
  have quoted : ¬AllKept getInt [quoteInjection] := fun all =>
    all quoteInjection List.mem_cons_self (by decide)
  have large : ¬AllKept getInt [largeId] := fun all =>
    absurd (fits_of_kept (all largeId List.mem_cons_self)).2 (by decide)
  constructor
  · rintro (_ | ⟨said, _⟩)
    exact quoted ((says_cmdDelete_iff getInt _ _).mp said)
  · rintro (_ | ⟨said, _⟩)
    exact large ((says_cmdDelete_iff getInt _ _).mp said)

end Requests

end WfyApp.DbRequests
