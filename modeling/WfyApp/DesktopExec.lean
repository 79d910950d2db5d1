import WfyApp.EscapeText

/-! The command line of a desktop file: `XdgDesktopFile::value` and `unEscapeExec` undo the
escapes of the `Exec` value, `parseCombinedArgString` splits it, and `expandExecString` expands
the field codes. Texts are lists of UTF-16 units; which units count as space is left open.
Beside the code stands the encoding that the comments above `unEscapeExec` describe: every
argument in double quotes, with a backslash before each of the four characters it names, and
then the rule for values of type string. The conversion of URLs and the expansion of
environment variables are parameters. -/

namespace WfyApp.DesktopExec
open EscapeText

abbrev QChar := UInt16
abbrev Text := List QChar

def backslash : QChar := 0x5C
def quote : QChar := 0x22
def space : QChar := 0x20

section Model

def doUnEscape (repl : QChar → Option QChar) (str : Text) : Text :=
  unescapeLoop backslash repl (str.length + 1) str 0

def stringRepl (c : QChar) : Option QChar :=
  if c = 0x5C then some 0x5C
  else if c = 0x73 then some 0x20
  else if c = 0x6E then some 0x0A
  else if c = 0x74 then some 0x09
  else if c = 0x72 then some 0x0D
  else none

def unEscape (str : Text) : Text := doUnEscape stringRepl str

/-- The reserved characters; space, tab and newline get a stand-in until the text is split. -/
def execRepl (c : QChar) : Option QChar :=
  if c = 0x20 then some 1
  else if c = 0x09 then some 2
  else if c = 0x0A then some 3
  else if c ∈ [0x22, 0x27, 0x5C, 0x3E, 0x3C, 0x7E, 0x7C, 0x26, 0x3B, 0x24, 0x2A, 0x3F, 0x23, 0x28,
      0x29, 0x60] then some c
  else none

def unEscapeExec (str : Text) : Text := doUnEscape execRepl (unEscape str)

structure Split where
  args : List Text
  tmp : Text
  quoteCount : Nat
  inQuote : Bool

variable (isSpace : QChar → Bool)

def Split.step (s : Split) (c : QChar) : Split :=
  if c = quote then
    if s.quoteCount + 1 = 3 then { s with quoteCount := 0, tmp := s.tmp ++ [c] }
    else { s with quoteCount := s.quoteCount + 1 }
  else
    let inQuote := if s.quoteCount = 1 then !s.inQuote else s.inQuote
    if !inQuote && isSpace c then
      if s.tmp = [] then { s with quoteCount := 0, inQuote := inQuote }
      else ⟨s.args ++ [s.tmp], [], 0, inQuote⟩
    else ⟨s.args, s.tmp ++ [c], 0, inQuote⟩

def Split.finish (s : Split) : List Text := if s.tmp = [] then s.args else s.args ++ [s.tmp]

def parseCombinedArgString (program : Text) : List Text :=
  (program.foldl (Split.step isSpace) ⟨[], [], 0, false⟩).finish

def restore (c : QChar) : QChar :=
  if c = 1 then 0x20 else if c = 2 then 0x09 else if c = 3 then 0x0A else c

def execTokens (raw : Text) : List Text :=
  (parseCombinedArgString isSpace (unEscapeExec (unEscape raw))).map (List.map restore)

/-- What the expansion reads besides the tokens. -/
structure Launch where
  urls : List Text
  icon : Text
  localizedName : Text
  urlArgument : Text → Text
  expandEnvVariables : Text → Text

def code (c : QChar) : Text := [0x25, c]

def doublePercent (t : Text) : Text := t.flatMap fun c => if c = 0x25 then [c, c] else [c]

/-- The arguments a token stands for; the code for the location ends the loop. -/
def expandToken (l : Launch) (token : Text) : Option (List Text) :=
  if token = code 0x66 then some []
  else if token = code 0x46 then some []
  else if token = code 0x75 then some (l.urls.take 1 |>.map l.urlArgument)
  else if token = code 0x55 then some (l.urls.map l.urlArgument)
  else if token = code 0x69 then
    if l.icon = [] then some [] else some [[0x2D, 0x69, 0x63, 0x6F, 0x6E], doublePercent l.icon]
  else if token = code 0x63 then some [doublePercent l.localizedName]
  else if token = code 0x6B then none
  else if token ∈ [code 0x64, code 0x44, code 0x6E, code 0x4E, code 0x76, code 0x6D] then some []
  else some [l.expandEnvVariables token]

def expandTokens (l : Launch) : List Text → List Text
  | [] => []
  | token :: tokens =>
    match expandToken l token with
    | none => []
    | some arguments => arguments ++ expandTokens l tokens

def expandExecString (l : Launch) (application : Bool) (raw : Text) : List Text :=
  if application then expandTokens l (execTokens isSpace raw) else []

end Model

section Documented

/-- Double quote, backtick and dollar sign; with the backslash, what is quoted. -/
def reserved (c : QChar) : Bool := c == quote || c == 0x60 || c == 0x24

def quoteChar (c : QChar) : Text := if reserved c || c == backslash then [backslash, c] else [c]

def quoteArg (a : Text) : Text := quote :: (a.flatMap quoteChar ++ [quote])

def escapeChar (c : QChar) : Text :=
  if c = backslash then [backslash, backslash]
  else if c = 0x0A then [backslash, 0x6E]
  else if c = 0x09 then [backslash, 0x74]
  else if c = 0x0D then [backslash, 0x72]
  else [c]

def joined (write : Text → Text) : List Text → Text
  | [] => []
  | [a] => write a
  | a :: b :: rest => write a ++ space :: joined write (b :: rest)

/-- The value the comments prescribe for a list of arguments. -/
def execValue (args : List Text) : Text := (joined quoteArg args).flatMap escapeChar

/-- Every backslash stands before a quoted character or before one that has no escape. -/
def backslashesSafe : Text → Bool
  | [] => true
  | [c] => c != backslash
  | c :: d :: rest =>
    (c != backslash || reserved d || (execRepl d).isNone) && backslashesSafe (d :: rest)

/-- The arguments that the code gives back. -/
def Survives (a : Text) : Prop :=
  a = [quote] ∨ a ≠ [] ∧ quote ∉ a ∧ backslashesSafe a = true ∧ ∀ c ∈ a, c ≠ 1 ∧ c ≠ 2 ∧ c ≠ 3

end Documented

section Escapes

theorem doUnEscape_eq (repl : QChar → Option QChar) (str : Text) :
    doUnEscape repl str = unescape backslash repl str := by
  have whole := unescapeLoop_eq backslash repl (str.length + 1) [] str (by omega)
  simpa [doUnEscape] using whole

theorem unEscape_flatMap_escapeChar (t : Text) : unEscape (t.flatMap escapeChar) = t := by
  have block (c : QChar) (rest : Text) : unescape backslash stringRepl (escapeChar c ++ rest) =
      [c] ++ unescape backslash stringRepl rest := by
    unfold escapeChar
    split
    · next same => exact unescape_mark_some _ _ _ c rest (by rw [same]; decide)
    · next other =>
      split
      · next same => exact unescape_mark_some _ _ _ c rest (by rw [same]; decide)
      · split
        · next same => exact unescape_mark_some _ _ _ c rest (by rw [same]; decide)
        · split
          · next same => exact unescape_mark_some _ _ _ c rest (by rw [same]; decide)
          · exact unescape_cons_of_ne _ _ c rest other
  have whole := unescape_flatMap backslash stringRepl escapeChar (fun c => [c]) block t []
  rw [unEscape, doUnEscape_eq]
  simpa [unescape] using whole

def halfQuote (c : QChar) : Text := if reserved c then [backslash, c] else [c]

theorem ne_backslash_of_reserved (c : QChar) (special : reserved c = true) : c ≠ backslash := by
  rintro rfl
  revert special
  decide

theorem stringRepl_reserved (c : QChar) (special : reserved c = true) : stringRepl c = none := by
  simp only [reserved, Bool.or_eq_true, beq_iff_eq] at special
  rcases special with (rfl | rfl) | rfl
  · decide
  · decide
  · decide

theorem unescape_quoteChar (c : QChar) (rest : Text) :
    unescape backslash stringRepl (quoteChar c ++ rest) =
      halfQuote c ++ unescape backslash stringRepl rest := by
  unfold quoteChar halfQuote
  cases special : reserved c with
  | true =>
    simp only [Bool.true_or, if_true, List.cons_append, List.nil_append]
    rw [unescape_mark_none _ _ c rest (stringRepl_reserved c special),
      unescape_cons_of_ne _ _ c rest (ne_backslash_of_reserved c special)]
  | false =>
    by_cases same : c = backslash
    · subst same
      exact unescape_mark_some _ _ _ _ rest (by decide)
    · simp only [Bool.false_or, beq_iff_eq, if_neg same, Bool.false_eq_true, if_false]
      exact unescape_cons_of_ne _ _ c rest same

def kept : Text → Text
  | [] => []
  | [c] => if c = backslash then [] else [c]
  | c :: d :: rest =>
    if c = backslash then
      if reserved d then c :: d :: kept rest
      else match execRepl d with
        | some e => e :: kept rest
        | none => c :: kept (d :: rest)
    else c :: kept (d :: rest)

theorem execRepl_reserved (c : QChar) (special : reserved c = true) : execRepl c = some c := by
  simp only [reserved, Bool.or_eq_true, beq_iff_eq] at special
  rcases special with (rfl | rfl) | rfl
  · decide
  · decide
  · decide

theorem unescape_halfQuote (c : QChar) (rest : Text) (other : c ≠ backslash) :
    unescape backslash execRepl (halfQuote c ++ rest) = c :: unescape backslash execRepl rest := by
  unfold halfQuote
  split
  · next special => exact unescape_mark_some _ _ _ c rest (execRepl_reserved c special)
  · exact unescape_cons_of_ne _ _ c rest other

theorem halfQuote_backslash : halfQuote backslash = [backslash] := by decide

theorem unescape_kept (a rest : Text) :
    unescape backslash execRepl (a.flatMap halfQuote ++ quote :: rest) =
      kept a ++ quote :: unescape backslash execRepl rest := by
  have closing : unescape backslash execRepl (quote :: rest) =
      quote :: unescape backslash execRepl rest := unescape_cons_of_ne _ _ _ rest (by decide)
  induction a using kept.induct with
  | case1 => exact closing
  | case2 =>
    -- a backslash at the end takes the closing quote for its symbol
    simp only [List.flatMap_cons, List.flatMap_nil, halfQuote_backslash, kept, if_true]
    exact unescape_mark_some _ _ _ _ rest (by decide)
  | case3 c other =>
    rw [List.flatMap_cons, List.flatMap_nil, List.append_nil, unescape_halfQuote c _ other, closing,
      kept, if_neg other]
    rfl
  | case4 d rest' special ih =>
    have half : halfQuote d = [backslash, d] := by rw [halfQuote, if_pos special]
    rw [kept, if_pos rfl, if_pos special, List.flatMap_cons, List.flatMap_cons, halfQuote_backslash,
      half]
    simp only [List.cons_append, List.nil_append]
    rw [unescape_mark_some _ _ backslash backslash _ (by decide),
      unescape_cons_of_ne _ _ d _ (ne_backslash_of_reserved d special), ih]
  | case5 d rest' plain e found ih =>
    have half : halfQuote d = [d] := by rw [halfQuote, if_neg plain]
    rw [kept, if_pos rfl, if_neg plain, found, List.flatMap_cons, List.flatMap_cons,
      halfQuote_backslash, half]
    simp only [List.cons_append, List.nil_append]
    rw [unescape_mark_some _ _ d e _ found, ih]
  | case6 d rest' plain missing ih =>
    have half : halfQuote d = [d] := by rw [halfQuote, if_neg plain]
    rw [kept, if_pos rfl, if_neg plain, missing, List.flatMap_cons, halfQuote_backslash]
    rw [List.flatMap_cons, half] at ih ⊢
    simp only [List.cons_append, List.nil_append] at ih ⊢
    rw [unescape_mark_none _ _ d _ missing, ih]
  | case7 c d rest' other ih =>
    rw [kept, if_neg other, List.flatMap_cons, List.append_assoc, unescape_halfQuote c _ other, ih]
    rfl

/-- Either nothing is lost or at least one backslash is. -/
theorem kept_cases (a : Text) :
    (backslashesSafe a = true ∧ kept a = a) ∨ (kept a).count backslash < a.count backslash := by
  induction a using kept.induct with
  | case1 => exact .inl ⟨rfl, rfl⟩
  | case2 => exact .inr (by decide)
  | case3 c other => exact .inl ⟨by simp [backslashesSafe, other], by rw [kept, if_neg other]⟩
  | case4 d rest special ih =>
    have other := ne_backslash_of_reserved d special
    rw [kept, if_pos rfl, if_pos special]
    rcases ih with ⟨safe, same⟩ | fewer
    · refine .inl ⟨?_, by rw [same]⟩
      cases rest with
      | nil => simp [backslashesSafe, special, other]
      | cons e rest => simp [backslashesSafe, special, other, safe]
    · exact .inr (by simpa [List.count_cons] using fewer)
  | case5 d rest plain e found ih =>
    -- the backslash goes, and what stands for its symbol is a backslash only if that was
    rw [kept, if_pos rfl, if_neg plain, found]
    have most : (kept rest).count backslash ≤ rest.count backslash := by
      rcases ih with ⟨-, same⟩ | fewer
      · exact Nat.le_of_eq (by rw [same])
      · exact Nat.le_of_lt fewer
    have symbol : e = backslash → d = backslash := by
      intro same
      subst same
      simp only [execRepl] at found
      split at found
      · simp [backslash] at found
      · split at found
        · simp [backslash] at found
        · split at found
          · simp [backslash] at found
          · split at found
            · exact Option.some.inj found
            · cases found
    refine .inr ?_
    simp only [List.count_cons, beq_self_eq_true, if_true]
    by_cases same : e = backslash
    · simp only [same, symbol same, beq_self_eq_true, if_true]
      omega
    · simp only [beq_iff_eq, if_neg same]
      omega
  | case6 d rest plain missing ih =>
    rw [kept, if_pos rfl, if_neg plain, missing]
    rcases ih with ⟨safe, same⟩ | fewer
    · exact .inl ⟨by simp [backslashesSafe, missing, safe], by rw [same]⟩
    · exact .inr (by simpa [List.count_cons] using fewer)
  | case7 c d rest other ih =>
    rw [kept, if_neg other]
    rcases ih with ⟨safe, same⟩ | fewer
    · exact .inl ⟨by simp [backslashesSafe, other, safe], by rw [same]⟩
    · exact .inr (by simpa [List.count_cons, other] using fewer)

theorem kept_of_safe (a : Text) (safe : backslashesSafe a = true) : kept a = a := by
  induction a using kept.induct with
  | case1 => rfl
  | case2 => simp [backslashesSafe] at safe
  | case3 c other => rw [kept, if_neg other]
  | case4 d rest special ih =>
    rw [kept, if_pos rfl, if_pos special]
    cases rest with
    | nil => rfl
    | cons e rest =>
      simp only [backslashesSafe, Bool.and_eq_true] at safe
      rw [ih safe.2.2]
  | case5 d rest plain e found ih => simp [backslashesSafe, plain, found] at safe
  | case6 d rest plain missing ih =>
    simp only [backslashesSafe, Bool.and_eq_true] at safe
    rw [kept, if_pos rfl, if_neg plain, missing, ih safe.2]
  | case7 c d rest other ih =>
    simp only [backslashesSafe, Bool.and_eq_true] at safe
    rw [kept, if_neg other, ih safe.2]

def seen (a : Text) : Text := quote :: (kept a ++ [quote])

theorem unescape_joined_quoteArg (args : List Text) :
    unescape backslash stringRepl (joined quoteArg args) =
      joined (fun a => quote :: (a.flatMap halfQuote ++ [quote])) args := by
  have one (a rest : Text) : unescape backslash stringRepl (quoteArg a ++ rest) =
      quote :: (a.flatMap halfQuote ++ quote :: unescape backslash stringRepl rest) := by
    rw [quoteArg, List.cons_append, unescape_cons_of_ne _ _ quote _ (by decide), List.append_assoc,
      unescape_flatMap backslash stringRepl quoteChar halfQuote unescape_quoteChar,
      List.singleton_append, unescape_cons_of_ne _ _ quote _ (by decide)]
  induction args using joined.induct with
  | case1 => rfl
  | case2 a => simpa [joined, unescape] using one a []
  | case3 a b rest ih =>
    rw [joined, one, unescape_cons_of_ne _ _ space _ (by decide), ih, joined]
    simp

theorem unescape_joined_kept (args : List Text) :
    unescape backslash execRepl (joined (fun a => quote :: (a.flatMap halfQuote ++ [quote])) args) =
      joined seen args := by
  have one (a rest : Text) : unescape backslash execRepl
      (quote :: (a.flatMap halfQuote ++ [quote]) ++ rest) =
      seen a ++ unescape backslash execRepl rest := by
    rw [List.cons_append, unescape_cons_of_ne _ _ quote _ (by decide), List.append_assoc,
      List.singleton_append, unescape_kept, seen]
    simp
  induction args using joined.induct with
  | case1 => rfl
  | case2 a => simpa [joined, unescape] using one a []
  | case3 a b rest ih =>
    rw [joined, one, unescape_cons_of_ne _ _ space _ (by decide), ih, joined]

/-- The three passes over a value written as the comments say. -/
theorem unEscapeExec_execValue (args : List Text) :
    unEscapeExec (unEscape (execValue args)) = joined seen args := by
  rw [execValue, unEscape_flatMap_escapeChar, unEscapeExec, unEscape, doUnEscape_eq, doUnEscape_eq,
    unescape_joined_quoteArg, unescape_joined_kept]

end Escapes

section Splitting
variable (isSpace : QChar → Bool)

def Split.all (s : Split) : Text := s.args.flatten ++ s.tmp

theorem finish_flatten (s : Split) : s.finish.flatten = s.all := by
  unfold Split.finish Split.all
  split
  · next none => simp [none]
  · simp

theorem step_other (s : Split) (c : QChar) (other : c ≠ quote) :
    (s.step isSpace c).quoteCount = 0 ∧
      ((s.step isSpace c).all = s.all ∨ (s.step isSpace c).all = s.all ++ [c]) := by
  simp only [Split.step, if_neg other]
  generalize (if s.quoteCount = 1 then !s.inQuote else s.inQuote) = inQuote
  split
  · split
    · exact ⟨rfl, .inl rfl⟩
    · exact ⟨rfl, .inl (by simp [Split.all])⟩
  · exact ⟨rfl, .inr (by simp [Split.all])⟩

theorem step_quote (s : Split) :
    (s.quoteCount + 1 = 3 ∧ (s.step isSpace quote).quoteCount = 0 ∧
        (s.step isSpace quote).all = s.all ++ [quote]) ∨
      (s.quoteCount + 1 ≠ 3 ∧ (s.step isSpace quote).quoteCount = s.quoteCount + 1 ∧
        (s.step isSpace quote).all = s.all) := by
  simp only [Split.step, if_true]
  split
  · next third => exact .inl ⟨third, rfl, by simp [Split.all]⟩
  · next less => exact .inr ⟨less, rfl, rfl⟩

theorem count_step (s : Split) (c d : QChar) :
    (s.step isSpace c).all.count d ≤ s.all.count d + [c].count d := by
  have grown : (s.step isSpace c).all = s.all ∨ (s.step isSpace c).all = s.all ++ [c] := by
    by_cases same : c = quote
    · subst same
      rcases step_quote isSpace s with ⟨-, -, all⟩ | ⟨-, -, all⟩
      · exact .inr all
      · exact .inl all
    · exact (step_other isSpace s c same).2
  rcases grown with same | longer
  · rw [same]
    omega
  · exact Nat.le_of_eq (by rw [longer, List.count_append])

theorem count_foldl (t : Text) (s : Split) (d : QChar) :
    (t.foldl (Split.step isSpace) s).all.count d ≤ s.all.count d + t.count d := by
  induction t generalizing s with
  | nil => simp
  | cons c t ih =>
    have first := count_step isSpace s c d
    have later := ih (s.step isSpace c)
    rw [List.foldl_cons]
    rw [← List.singleton_append, List.count_append]
    omega

/-- How many quotes a text yields when `k` have been seen directly before it. -/
def emitted : Nat → Text → Nat
  | _, [] => 0
  | k, c :: t =>
    if c = quote then
      if k + 1 = 3 then emitted 0 t + 1 else emitted (k + 1) t
    else emitted 0 t

theorem emitted_foldl (t : Text) (s : Split) :
    (t.foldl (Split.step isSpace) s).all.count quote = s.all.count quote + emitted s.quoteCount t := by
  induction t generalizing s with
  | nil => rfl
  | cons c t ih =>
    rw [List.foldl_cons, ih, emitted]
    by_cases same : c = quote
    · subst same
      rw [if_pos rfl]
      rcases step_quote isSpace s with ⟨third, count, all⟩ | ⟨less, count, all⟩
      · rw [if_pos third, count, all, List.count_append, List.count_singleton_self]
        omega
      · rw [if_neg less, count, all]
    · obtain ⟨count, grown⟩ := step_other isSpace s c same
      rw [if_neg same, count]
      rcases grown with all | all
      · rw [all]
      · rw [all, List.count_append, List.count_singleton]
        simp [same]

theorem emitted_append (k : Nat) (t rest : Text) (c : QChar) (other : c ≠ quote) :
    emitted k (t ++ c :: rest) = emitted k t + emitted 0 rest := by
  induction t generalizing k with
  | nil => simp [emitted, other]
  | cons d t ih =>
    rw [List.cons_append, emitted, emitted]
    split
    · split
      · rw [ih]
        omega
      · exact ih (k + 1)
    · exact ih 0

theorem emitted_le (k : Nat) (t : Text) (small : k ≤ 2) : 3 * emitted k t ≤ k + t.count quote := by
  induction t generalizing k with
  | nil => simp [emitted]
  | cons c t ih =>
    rw [emitted]
    split
    · next same =>
      subst same
      rw [List.count_cons_self]
      split
      · have later := ih 0 (by omega)
        omega
      · have later := ih (k + 1) (by omega)
        omega
    · next other =>
      have later := ih 0 (by omega)
      rw [List.count_cons_of_ne other]
      omega

/-- A quoted text yields fewer quotes than it has, unless it has none or is one. -/
theorem emitted_quoted (b : Text) :
    emitted 0 (quote :: (b ++ [quote])) ≤ b.count quote ∧
      (emitted 0 (quote :: (b ++ [quote])) = b.count quote → quote ∉ b ∨ b = [quote]) := by
  have bound := emitted_le 0 (quote :: (b ++ [quote])) (by omega)
  rw [List.count_cons_self, List.count_append, List.count_singleton_self] at bound
  refine ⟨by omega, ?_⟩
  intro equal
  by_cases none : b.count quote = 0
  · exact .inl (List.count_eq_zero.mp none)
  · refine .inr ?_
    have one : b.count quote = 1 := by omega
    by_cases only : ∀ c ∈ b, c = quote
    · have length : b.length = 1 := by
        rw [← one, List.count_eq_length.mpr (fun c member => (only c member).symm)]
      obtain ⟨c, rfl⟩ := List.length_eq_one_iff.mp length
      rw [only c (by simp)]
    · -- another character breaks the run of quotes
      push Not at only
      obtain ⟨c, member, other⟩ := only
      obtain ⟨x, y, rfl⟩ := List.append_of_mem member
      have parts := emitted_append 0 (quote :: x) (y ++ [quote]) c other
      have first := emitted_le 0 (quote :: x) (by omega)
      have second := emitted_le 0 (y ++ [quote]) (by omega)
      rw [List.count_cons_self] at first
      rw [List.count_append, List.count_singleton_self] at second
      rw [List.count_append, List.count_cons_of_ne other] at one equal
      simp only [List.cons_append, List.append_assoc] at parts equal
      omega

theorem emitted_joined (args : List Text) :
    emitted 0 (joined seen args) ≤ (args.map kept).flatten.count quote ∧
      (emitted 0 (joined seen args) = (args.map kept).flatten.count quote →
        ∀ a ∈ args, quote ∉ kept a ∨ kept a = [quote]) := by
  induction args using joined.induct with
  | case1 => exact ⟨Nat.le_refl _, fun _ a member => absurd member List.not_mem_nil⟩
  | case2 a => simpa [joined, seen] using emitted_quoted (kept a)
  | case3 a b rest ih =>
    have parts := emitted_append 0 (seen a) (joined seen (b :: rest)) space (by decide)
    obtain ⟨most, exactly⟩ := emitted_quoted (kept a)
    rw [← seen] at most exactly
    rw [joined, parts, List.map_cons, List.flatten_cons, List.count_append]
    refine ⟨by omega, ?_⟩
    intro equal c member
    rcases List.mem_cons.mp member with rfl | later
    · exact exactly (by omega)
    · exact ih.2 (by omega) c later

theorem count_joined_seen (args : List Text) :
    (joined seen args).count backslash = (args.map kept).flatten.count backslash := by
  have one (a : Text) : (seen a).count backslash = (kept a).count backslash := by
    rw [seen, List.count_cons_of_ne (by decide), List.count_append]
    simp [quote, backslash]
  induction args using joined.induct with
  | case1 => rfl
  | case2 a => simp [joined, one]
  | case3 a b rest ih =>
    rw [joined, List.count_append, List.count_cons_of_ne (by decide), one, ih]
    simp

structure Collected (s : Split) (args : List Text) (a : Text) : Prop where
  args : s.args = args
  tmp : s.tmp = a
  closed : (s.quoteCount = 1 ∧ s.inQuote = true) ∨ (s.quoteCount = 0 ∧ s.inQuote = false)

theorem foldl_inside (t : Text) (args : List Text) (tmp : Text) (free : quote ∉ t) :
    t.foldl (Split.step isSpace) ⟨args, tmp, 0, true⟩ = ⟨args, tmp ++ t, 0, true⟩ := by
  induction t generalizing tmp with
  | nil => simp
  | cons c t ih =>
    rw [List.mem_cons, not_or] at free
    have one : Split.step isSpace ⟨args, tmp, 0, true⟩ c = ⟨args, tmp ++ [c], 0, true⟩ := by
      simp [Split.step, Ne.symm free.1]
    rw [List.foldl_cons, one, ih (tmp ++ [c]) free.2]
    simp

theorem collected_seen (a : Text) (args : List Text) (survives : Survives a) :
    Collected ((seen a).foldl (Split.step isSpace) ⟨args, [], 0, false⟩) args a := by
  rcases survives with rfl | ⟨nonempty, free, safe, -⟩
  · have three : seen [quote] = [quote, quote, quote] := by decide
    rw [three]
    exact ⟨rfl, rfl, .inr ⟨rfl, rfl⟩⟩
  · rw [seen, kept_of_safe a safe]
    cases a with
    | nil => exact absurd rfl nonempty
    | cons c a =>
      rw [List.mem_cons, not_or] at free
      have opening : Split.step isSpace ⟨args, [], 0, false⟩ quote = ⟨args, [], 1, false⟩ := rfl
      have first : Split.step isSpace ⟨args, [], 1, false⟩ c = ⟨args, [c], 0, true⟩ := by
        simp [Split.step, Ne.symm free.1]
      rw [List.foldl_cons, opening, List.cons_append, List.foldl_cons, first, List.foldl_append,
        foldl_inside isSpace a args [c] free.2]
      exact ⟨rfl, rfl, .inl ⟨rfl, rfl⟩⟩

theorem step_space (s : Split) (args : List Text) (a : Text) (blank : isSpace space = true)
    (nonempty : a ≠ []) (h : Collected s args a) :
    s.step isSpace space = ⟨args ++ [a], [], 0, false⟩ := by
  have other : space ≠ quote := by decide
  obtain ⟨rfl, rfl, closed⟩ := h
  rcases closed with ⟨count, inside⟩ | ⟨count, outside⟩
  · simp [Split.step, other, count, inside, blank, nonempty]
  · simp [Split.step, other, count, outside, blank, nonempty]

theorem survives_ne_nil (a : Text) (survives : Survives a) : a ≠ [] := by
  rcases survives with rfl | plain
  · decide
  · exact plain.1

theorem foldl_joined (args : List Text) (before : List Text) (blank : isSpace space = true)
    (survive : ∀ a ∈ args, Survives a) :
    ((joined seen args).foldl (Split.step isSpace) ⟨before, [], 0, false⟩).finish = before ++ args := by
  induction args using joined.induct generalizing before with
  | case1 => simp [joined, Split.finish]
  | case2 a =>
    have here := survive a (by simp)
    obtain ⟨args, tmp, -⟩ := collected_seen isSpace a before here
    rw [joined, Split.finish, args, tmp, if_neg (survives_ne_nil a here)]
  | case3 a b rest ih =>
    have here := survive a (by simp)
    have collected := collected_seen isSpace a before here
    rw [joined, List.foldl_append, List.foldl_cons,
      step_space isSpace _ before a blank (survives_ne_nil a here) collected,
      ih (before ++ [a]) (fun c member => survive c (List.mem_cons_of_mem a member))]
    simp

theorem ne_nil_concat (args : List Text) (tmp : Text) (nonempty : ∀ a ∈ args, a ≠ [])
    (some : tmp ≠ []) : ∀ a ∈ args ++ [tmp], a ≠ [] := by
  intro a member
  rcases List.mem_append.mp member with early | last
  · exact nonempty a early
  · rw [List.mem_singleton.mp last]
    exact some

theorem finish_ne_nil (t : Text) (s : Split) (nonempty : ∀ a ∈ s.args, a ≠ []) :
    ∀ a ∈ (t.foldl (Split.step isSpace) s).finish, a ≠ [] := by
  induction t generalizing s with
  | nil =>
    by_cases none : s.tmp = []
    · rw [List.foldl_nil, Split.finish, if_pos none]
      exact nonempty
    · rw [List.foldl_nil, Split.finish, if_neg none]
      exact ne_nil_concat s.args s.tmp nonempty none
  | cons c t ih =>
    refine ih (s.step isSpace c) ?_
    unfold Split.step
    split
    · split
      · exact nonempty
      · exact nonempty
    · simp only
      generalize (if s.quoteCount = 1 then !s.inQuote else s.inQuote) = inQuote
      split
      · split
        · exact nonempty
        · next some => exact ne_nil_concat s.args s.tmp nonempty some
      · exact nonempty

end Splitting

section RoundTrip
variable (isSpace : QChar → Bool)

theorem restore_ne (c : QChar) : restore c ≠ 1 ∧ restore c ≠ 2 ∧ restore c ≠ 3 := by
  unfold restore
  split
  · decide
  · next one =>
    split
    · decide
    · next two =>
      split
      · decide
      · next three => exact ⟨one, two, three⟩

theorem restore_plain (a : Text) (plain : ∀ c ∈ a, c ≠ 1 ∧ c ≠ 2 ∧ c ≠ 3) : a.map restore = a := by
  have same : a.map restore = a.map id := by
    apply List.map_congr_left
    intro c member
    obtain ⟨one, two, three⟩ := plain c member
    simp [restore, one, two, three]
  rw [same, List.map_id]

theorem count_restore (t : Text) (c : QChar) (kind : c = backslash ∨ c = quote) :
    (t.map restore).count c = t.count c := by
  have same (d : QChar) : restore d = c ↔ d = c := by
    unfold restore
    split
    · next one => rcases kind with rfl | rfl <;> simp [one, backslash, quote]
    · split
      · next two => rcases kind with rfl | rfl <;> simp [two, backslash, quote]
      · split
        · next three => rcases kind with rfl | rfl <;> simp [three, backslash, quote]
        · rfl
  rw [List.count_eq_countP, List.count_eq_countP, List.countP_map]
  apply List.countP_congr
  intro d member
  simpa using same d

theorem survives_plain (a : Text) (survives : Survives a) : ∀ c ∈ a, c ≠ 1 ∧ c ≠ 2 ∧ c ≠ 3 := by
  rcases survives with rfl | plain
  · intro c member
    rw [List.mem_singleton.mp member]
    decide
  · exact plain.2.2.2

theorem count_execTokens (args : List Text) (c : QChar) (kind : c = backslash ∨ c = quote) :
    (execTokens isSpace (execValue args)).flatten.count c =
      ((joined seen args).foldl (Split.step isSpace) ⟨[], [], 0, false⟩).all.count c := by
  rw [execTokens, unEscapeExec_execValue, ← List.map_flatten, count_restore _ c kind,
    parseCombinedArgString, finish_flatten]

theorem count_kept (args : List Text) :
    (args.map kept).flatten.count backslash ≤ args.flatten.count backslash ∧
      ((args.map kept).flatten.count backslash = args.flatten.count backslash →
        ∀ a ∈ args, backslashesSafe a = true ∧ kept a = a) := by
  induction args with
  | nil => exact ⟨Nat.le_refl _, fun _ a member => absurd member List.not_mem_nil⟩
  | cons a args ih =>
    rw [List.map_cons, List.flatten_cons, List.flatten_cons, List.count_append, List.count_append]
    rcases kept_cases a with ⟨safe, same⟩ | fewer
    · rw [same]
      refine ⟨by omega, ?_⟩
      intro equal b member
      rcases List.mem_cons.mp member with rfl | later
      · exact ⟨safe, same⟩
      · exact ih.2 (by omega) b later
    · exact ⟨by omega, fun equal => by omega⟩

/-- A list of arguments comes back only if no backslash is lost. -/
theorem kept_of_round_trip (args : List Text) (same : execTokens isSpace (execValue args) = args) :
    ∀ a ∈ args, backslashesSafe a = true ∧ kept a = a := by
  have result := count_execTokens isSpace args backslash (.inl rfl)
  have bound := count_foldl isSpace (joined seen args) ⟨[], [], 0, false⟩ backslash
  rw [same] at result
  rw [count_joined_seen, ← result] at bound
  simp only [Split.all, List.flatten_nil, List.nil_append, List.count_nil, Nat.zero_add] at bound
  obtain ⟨most, exactly⟩ := count_kept args
  exact exactly (by omega)

theorem quotes_of_round_trip (args : List Text) (same : execTokens isSpace (execValue args) = args) :
    ∀ a ∈ args, quote ∉ a ∨ a = [quote] := by
  have kept_same := kept_of_round_trip isSpace args same
  have whole : args.map kept = args.map id := by
    apply List.map_congr_left
    intro a member
    exact (kept_same a member).2
  have result := count_execTokens isSpace args quote (.inr rfl)
  rw [same, emitted_foldl] at result
  simp only [Split.all, List.flatten_nil, List.nil_append, List.count_nil, Nat.zero_add] at result
  intro a member
  have quoted := (emitted_joined args).2 (by rw [whole, List.map_id, result]) a member
  rwa [(kept_same a member).2] at quoted

/-- Of the lists of arguments written as the comments prescribe, exactly those come back whose
arguments are all a lone quote or else nonempty, without quotes and stand-ins, and with each
backslash before a quoted character or one that has no escape. -/
theorem exec_round_trip (blank : isSpace space = true) (args : List Text) :
    execTokens isSpace (execValue args) = args ↔ ∀ a ∈ args, Survives a := by
  constructor
  · intro same a member
    rcases quotes_of_round_trip isSpace args same a member with free | lone
    · refine .inr ⟨?_, free, (kept_of_round_trip isSpace args same a member).1, ?_⟩
      · rw [← same, execTokens] at member
        obtain ⟨token, parsed, rfl⟩ := List.mem_map.mp member
        have nonempty := finish_ne_nil isSpace _ ⟨[], [], 0, false⟩ (by simp) token parsed
        simpa using nonempty
      · rw [← same, execTokens] at member
        obtain ⟨token, -, rfl⟩ := List.mem_map.mp member
        intro c inside
        obtain ⟨d, -, rfl⟩ := List.mem_map.mp inside
        exact restore_ne d
    · exact .inl lone
  · intro survive
    rw [execTokens, unEscapeExec_execValue, parseCombinedArgString,
      foldl_joined isSpace args [] blank survive, List.nil_append]
    have plain : args.map (List.map restore) = args.map id := by
      apply List.map_congr_left
      intro a member
      exact restore_plain a (survives_plain a (survive a member))
    rw [plain, List.map_id]

def threeArgs : List Text := [[0x61, 0x20, 0x62], [0x25, 0x75], [0x22]]

theorem exec_round_trip_three :
    execTokens (fun c => c == 0x20) (execValue threeArgs) = threeArgs := by
  refine (exec_round_trip (fun c => c == 0x20) rfl threeArgs).mpr ?_
  intro a member
  simp only [threeArgs, List.mem_cons, List.not_mem_nil, or_false] at member
  rcases member with rfl | rfl | rfl
  · exact .inr ⟨by decide, by decide, by decide, by simp⟩
  · exact .inr ⟨by decide, by decide, by decide, by simp⟩
  · exact .inl rfl

theorem expandToken_eq_none (l : Launch) (token : Text) :
    expandToken l token = none ↔ token = code 0x6B := by
  unfold expandToken
  constructor
  · intro stopped
    by_contra other
    simp only [if_neg other] at stopped
    repeat' split at stopped
    all_goals cases stopped
  · rintro rfl
    rfl

/-- The code for the location of the file ends the command line there. -/
theorem expandTokens_eq (l : Launch) (tokens : List Text) :
    expandTokens l tokens =
      (tokens.takeWhile (· ≠ code 0x6B)).flatMap fun token => (expandToken l token).getD [] := by
  induction tokens with
  | nil => rfl
  | cons token tokens ih =>
    rw [expandTokens]
    by_cases stop : token = code 0x6B
    · rw [(expandToken_eq_none l token).mpr stop]
      simp [stop]
    · obtain ⟨arguments, some⟩ := Option.ne_none_iff_exists'.mp
        (fun none => stop ((expandToken_eq_none l token).mp none))
      simp [some, stop, ih]

end RoundTrip

end WfyApp.DesktopExec
