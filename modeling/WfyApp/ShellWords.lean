import WfyApp.ByteText

/-! How a POSIX shell reads one simple command: quoting, words, and output
redirections. The reader goes byte by byte. Whatever would be expanded, would start
another command or would be a comment makes it stop with `none`, so a result is the
argument vector the program gets. -/

namespace WfyApp.ShellWords
open ByteText

inductive Token where
  | word (value : Bytes)
  | ioNumber (digits : Bytes)
  | great
  | greatAnd
deriving DecidableEq

/-- Where the reader is. A word in progress carries its value so far; `quoted` tells
whether some part of it was quoted. -/
inductive Mode where
  | between
  | plain (value : Bytes) (quoted : Bool)
  | escape (value : Bytes)
  | single (value : Bytes)
  | double (value : Bytes)
  | doubleEscape (value : Bytes)
  | great
deriving DecidableEq

def shellBlank (c : UInt8) : Bool := c == 0x20 || c == 0x09

/-- Bytes that mean something to the shell when they are not quoted: a line break and
`| & ; < ( ) $ ! # % * = ? [ ~`, the braces and the backquote. -/
def shellSpecial (c : UInt8) : Bool :=
  [0x0A, 0x7C, 0x26, 0x3B, 0x3C, 0x28, 0x29, 0x24, 0x21, 0x23, 0x25, 0x2A, 0x3D, 0x3F, 0x5B, 0x7E,
    0x7B, 0x7D, 0x60].contains c

/-- Bytes that are still special between double quotes: `$` and the backquote. -/
def doubleSpecial (c : UInt8) : Bool := c == 0x24 || c == 0x60

def startWord (c : UInt8) : Option Mode :=
  if shellBlank c then some .between
  else if c = singleQuote then some (.single [])
  else if c = doubleQuote then some (.double [])
  else if c = backslash then some (.escape [])
  else if c = 0x3E then some .great
  else if shellSpecial c then none
  else some (.plain [c] false)

def step : Mode → UInt8 → Option (Mode × List Token)
  | .between, c => (startWord c).map fun mode => (mode, [])
  | .plain value quoted, c =>
      if shellBlank c then some (.between, [.word value])
      else if c = singleQuote then some (.single value, [])
      else if c = doubleQuote then some (.double value, [])
      else if c = backslash then some (.escape value, [])
      else if c = 0x3E then
        some (.great, [if !quoted && value.all isDigit then .ioNumber value else .word value])
      else if shellSpecial c then none
      else some (.plain (value ++ [c]) quoted, [])
  | .escape value, c => if c = newline then none else some (.plain (value ++ [c]) true, [])
  | .single value, c =>
      if c = singleQuote then some (.plain value true, []) else some (.single (value ++ [c]), [])
  | .double value, c =>
      if c = doubleQuote then some (.plain value true, [])
      else if c = backslash then some (.doubleEscape value, [])
      else if doubleSpecial c then none
      else some (.double (value ++ [c]), [])
  | .doubleEscape value, c =>
      if c = newline then none
      else if doubleSpecial c || c == doubleQuote || c == backslash then
        some (.double (value ++ [c]), [])
      else some (.double (value ++ [backslash, c]), [])
  | .great, c =>
      if c = 0x26 then some (.between, [.greatAnd])
      else if c = 0x3E || c = 0x7C then none
      else (startWord c).map fun mode => (mode, [.great])

def run : Mode → Bytes → Option (Mode × List Token)
  | mode, [] => some (mode, [])
  | mode, c :: text =>
      (step mode c).bind fun next =>
        (run next.1 text).map fun last => (last.1, next.2 ++ last.2)

def finish : Mode → Option (List Token)
  | .between => some []
  | .plain value _ => some [.word value]
  | _ => none

def tokens (text : Bytes) : Option (List Token) :=
  (run .between text).bind fun last => (finish last.1).map (last.2 ++ ·)

structure Redirect where
  source : Bytes
  duplicate : Bool
  target : Bytes
deriving DecidableEq

structure SimpleCommand where
  argv : List Bytes
  redirects : List Redirect
deriving DecidableEq

def SimpleCommand.argument (value : Bytes) (c : SimpleCommand) : SimpleCommand :=
  { c with argv := value :: c.argv }

def SimpleCommand.redirect (r : Redirect) (c : SimpleCommand) : SimpleCommand :=
  { c with redirects := r :: c.redirects }

def simpleCommand : List Token → Option SimpleCommand
  | [] => some ⟨[], []⟩
  | .word value :: rest => (simpleCommand rest).map (.argument value)
  | .ioNumber digits :: .great :: .word target :: rest =>
      (simpleCommand rest).map (.redirect ⟨digits, false, target⟩)
  | .ioNumber digits :: .greatAnd :: .word target :: rest =>
      (simpleCommand rest).map (.redirect ⟨digits, true, target⟩)
  | .great :: .word target :: rest =>
      (simpleCommand rest).map (.redirect ⟨ascii "1", false, target⟩)
  | .greatAnd :: .word target :: rest =>
      (simpleCommand rest).map (.redirect ⟨ascii "1", true, target⟩)
  | _ => none

def shellParse (text : Bytes) : Option SimpleCommand := (tokens text).bind simpleCommand

theorem run_append (mode : Mode) (a b : Bytes) :
    run mode (a ++ b) = (run mode a).bind fun middle =>
      (run middle.1 b).map fun last => (last.1, middle.2 ++ last.2) := by
  induction a generalizing mode with
  | nil => simp [run]
  | cons c a ih =>
      rw [List.cons_append, run, run]
      cases step mode c with
      | none => rfl
      | some next =>
          simp only [Option.bind_some, ih]
          cases run next.1 a with
          | none => rfl
          | some middle => simp [List.append_assoc, Function.comp_def]

/-- Single quotes around a text, with each single quote in it written as `'\''`. -/
def quoteByte (c : UInt8) : Bytes :=
  if c = singleQuote then [singleQuote, backslash, singleQuote, singleQuote] else [c]

def quoteWord (text : Bytes) : Bytes :=
  singleQuote :: (text.flatMap quoteByte ++ [singleQuote])

theorem run_single_quoteByte (value : Bytes) (c : UInt8) :
    run (.single value) (quoteByte c) = some (.single (value ++ [c]), []) := by
  unfold quoteByte
  split_ifs with quote
  · rw [quote]
    rfl
  · simp [run, step, quote]

theorem run_single_flatMap (value text : Bytes) :
    run (.single value) (text.flatMap quoteByte) = some (.single (value ++ text), []) := by
  induction text generalizing value with
  | nil => simp [run]
  | cons c text ih =>
      rw [List.flatMap_cons, run_append, run_single_quoteByte]
      simp [ih]

/-- A quoted text is read as one word with the text as its value. -/
theorem run_quoteWord (text : Bytes) :
    run .between (quoteWord text) = some (.plain text true, []) := by
  have opening : run .between [singleQuote] = some (.single [], []) := rfl
  have closing : run (.single text) [singleQuote] = some (.plain text true, []) := rfl
  rw [quoteWord, ← List.singleton_append, run_append, opening]
  simp [run_append, run_single_flatMap, closing]

theorem tokens_quoteWord (text : Bytes) : tokens (quoteWord text) = some [.word text] := by
  rw [tokens, run_quoteWord]
  rfl

def textTokens (text : Bytes) : List Token := ((run .between text).map Prod.snd).getD []

/-- The text can stand before a word: it ends between two words. -/
def Separated (text : Bytes) : Prop := run .between text = some (.between, textTokens text)

instance (text : Bytes) : Decidable (Separated text) := by
  unfold Separated
  infer_instance

theorem tokens_separated (text rest : Bytes) (separated : Separated text) :
    tokens (text ++ rest) = (tokens rest).map (textTokens text ++ ·) := by
  rw [tokens, run_append, separated, Option.bind_some, tokens]
  cases run .between rest with
  | none => rfl
  | some last =>
      cases ending : finish last.1 with
      | none => simp [ending]
      | some final => simp [ending, List.append_assoc]

theorem tokens_quoteWord_append (value rest : Bytes) (blank : rest.head? = some 0x20) :
    tokens (quoteWord value ++ rest) = (tokens rest).map (.word value :: ·) := by
  cases rest with
  | nil => cases blank
  | cons c rest =>
      have space : c = 0x20 := Option.some.inj blank
      have ends : run (.plain value true) (c :: rest) =
          (run .between (c :: rest)).map fun last => (last.1, .word value :: last.2) := by
        have first : step (.plain value true) 0x20 = some (.between, [.word value]) := rfl
        have same : step .between 0x20 = some (.between, []) := rfl
        rw [space, run, run, first, same]
        simp
      rw [tokens, run_append, run_quoteWord, Option.bind_some, ends, tokens]
      cases run .between (c :: rest) with
      | none => rfl
      | some last =>
          cases ending : finish last.1 with
          | none => simp [ending]
          | some final => simp [ending]

/-- What the shell makes of a template whose texts separate its quoted arguments. -/
def templateTokens : List Bytes → List Bytes → List Token → List Token
  | text :: texts, value :: values, tail =>
      textTokens text ++ .word value :: templateTokens texts values tail
  | _, _, tail => tail

theorem head_filled (texts args : List Bytes) (tail : Bytes)
    (blanks : ∀ text ∈ texts, text.head? = some 0x20) (blank : tail.head? = some 0x20) :
    (filled texts args tail).head? = some 0x20 := by
  cases texts with
  | nil => simpa [filled] using blank
  | cons text texts =>
      cases args with
      | nil => simpa [filled] using blank
      | cons arg args =>
          have head := blanks text List.mem_cons_self
          rw [filled, List.head?_append, head]
          rfl

theorem tokens_filled (texts values : List Bytes) (tail : Bytes) (tailTokens : List Token)
    (lengths : texts.length = values.length) (separated : ∀ text ∈ texts, Separated text)
    (blanks : ∀ text ∈ texts.tail, text.head? = some 0x20) (blank : tail.head? = some 0x20)
    (ending : tokens tail = some tailTokens) :
    tokens (filled texts (values.map quoteWord) tail) =
      some (templateTokens texts values tailTokens) := by
  induction texts generalizing values with
  | nil => simpa [filled, templateTokens] using ending
  | cons text texts ih =>
      cases values with
      | nil => cases lengths
      | cons value values =>
          have rest := ih values (Nat.succ.inj lengths)
            (fun later member => separated later (List.mem_cons_of_mem text member))
            (fun later member => blanks later (List.mem_of_mem_tail member))
          have space := head_filled texts (values.map quoteWord) tail blanks blank
          rw [List.map_cons, filled, tokens_separated _ _ (separated text List.mem_cons_self),
            tokens_quoteWord_append _ _ space, rest]
          rfl

theorem quoteWord_length (value : Bytes) :
    (quoteWord value).length = (value.flatMap quoteByte).length + 2 := by
  simp [quoteWord]

theorem quoteWord_length_le (value : Bytes) : (quoteWord value).length ≤ 4 * value.length + 2 := by
  have body : (value.flatMap quoteByte).length ≤ 4 * value.length := by
    induction value with
    | nil => simp
    | cons c value ih =>
        have one : (quoteByte c).length ≤ 4 := by
          unfold quoteByte
          split_ifs <;> simp
        rw [List.flatMap_cons, List.length_append, List.length_cons]
        omega
  rw [quoteWord_length]
  omega

theorem zero_not_mem_quoteWord (value : Bytes) (free : 0 ∉ value) : 0 ∉ quoteWord value := by
  have marks : (0 : UInt8) ≠ singleQuote ∧ (0 : UInt8) ≠ backslash := by decide
  have body : 0 ∉ value.flatMap quoteByte := by
    intro member
    obtain ⟨c, of_value, inside⟩ := List.mem_flatMap.mp member
    have other : (0 : UInt8) ≠ c := (ne_of_mem_of_not_mem of_value free).symm
    unfold quoteByte at inside
    split_ifs at inside <;> simp [marks, other] at inside
  simp [quoteWord, marks, body]

end WfyApp.ShellWords
