import Mathlib.Data.List.Basic

/-! Texts with an escape mark. A mark that stands before a replaceable symbol is replaced
together with it; any other mark stays. The loop that edits the text in place, with a search
for the next mark in each round, agrees with one pass from the left. -/

namespace WfyApp.EscapeText

section Text
variable {α : Type} [DecidableEq α] (mark : α) (repl : α → Option α)

def unescape : List α → List α
  | [] => []
  | [c] => [c]
  | c :: d :: rest =>
    if c = mark then
      match repl d with
      | some e => e :: unescape rest
      | none => c :: unescape (d :: rest)
    else c :: unescape (d :: rest)

/-- The text in place: `n` is where the search goes on. -/
def unescapeLoop : Nat → List α → Nat → List α
  | 0, str, _ => str
  | fuel + 1, str, n =>
    match (str.drop n).idxOf? mark with
    | none => str
    | some i =>
      match str[n + i + 1]? with
      | none => str
      | some d =>
        match repl d with
        | some e => unescapeLoop fuel (str.take (n + i) ++ e :: str.drop (n + i + 2)) (n + i + 1)
        | none => unescapeLoop fuel str (n + i + 1)

theorem unescape_cons_of_ne (c : α) (rest : List α) (other : c ≠ mark) :
    unescape mark repl (c :: rest) = c :: unescape mark repl rest := by
  cases rest with
  | nil => rfl
  | cons d rest => rw [unescape, if_neg other]

theorem unescape_mark_some (d e : α) (rest : List α) (found : repl d = some e) :
    unescape mark repl (mark :: d :: rest) = e :: unescape mark repl rest := by
  rw [unescape, if_pos rfl, found]

theorem unescape_mark_none (d : α) (rest : List α) (missing : repl d = none) :
    unescape mark repl (mark :: d :: rest) = mark :: unescape mark repl (d :: rest) := by
  rw [unescape, if_pos rfl, missing]

theorem unescape_append (front rest : List α) (free : mark ∉ front) :
    unescape mark repl (front ++ rest) = front ++ unescape mark repl rest := by
  induction front with
  | nil => rfl
  | cons c front ih =>
    rw [List.mem_cons, not_or] at free
    rw [List.cons_append, unescape_cons_of_ne mark repl c _ (Ne.symm free.1), ih free.2,
      List.cons_append]

theorem unescape_flatMap {β : Type} (code out : β → List α)
    (block : ∀ b rest, unescape mark repl (code b ++ rest) = out b ++ unescape mark repl rest)
    (l : List β) (rest : List α) :
    unescape mark repl (l.flatMap code ++ rest) = l.flatMap out ++ unescape mark repl rest := by
  induction l with
  | nil => rfl
  | cons b l ih => rw [List.flatMap_cons, List.append_assoc, block, ih, List.flatMap_cons,
      List.append_assoc]

theorem idxOf_split (rest : List α) (i : Nat) (found : rest.idxOf? mark = some i) :
    ∃ front more, rest = front ++ mark :: more ∧ mark ∉ front ∧ front.length = i := by
  induction rest generalizing i with
  | nil => cases found
  | cons c rest ih =>
    rw [List.idxOf?_cons] at found
    split at found
    · next here =>
      cases found
      exact ⟨[], rest, by simp [beq_iff_eq.mp here], by simp, rfl⟩
    · next other =>
      obtain ⟨j, later, rfl⟩ := Option.map_eq_some_iff.mp found
      obtain ⟨front, more, rfl, free, rfl⟩ := ih j later
      refine ⟨c :: front, more, rfl, ?_, rfl⟩
      rw [List.mem_cons, not_or]
      exact ⟨fun same => other (by simp [same]), free⟩

/-- With a round for every symbol ahead the loop ends, and `done` is not touched again. -/
theorem unescapeLoop_eq (fuel : Nat) (done rest : List α) (enough : rest.length < fuel) :
    unescapeLoop mark repl fuel (done ++ rest) done.length = done ++ unescape mark repl rest := by
  induction fuel generalizing done rest with
  | zero => omega
  | succ fuel ih =>
    rw [unescapeLoop, List.drop_left]
    split
    · next none =>
      have whole := unescape_append mark repl rest [] (by simpa using none)
      rw [List.append_nil, unescape, List.append_nil] at whole
      rw [whole]
    · next i found =>
      obtain ⟨front, more, rfl, free, rfl⟩ := idxOf_split mark rest i found
      rw [unescape_append mark repl front _ free]
      have next : (done ++ (front ++ mark :: more))[done.length + front.length + 1]? = more.head? := by
        rw [← List.append_assoc, ← List.length_append, List.getElem?_append_right (by omega)]
        simp [List.head?_eq_getElem?]
      rw [next]
      cases more with
      | nil => rfl
      | cons d more =>
        simp only [List.length_append, List.length_cons] at enough
        simp only [List.head?_cons]
        split
        · next e replaced =>
          rw [unescape_mark_some mark repl d e more replaced]
          have before : (done ++ (front ++ mark :: d :: more)).take (done.length + front.length) =
              done ++ front := by
            rw [← List.append_assoc, ← List.length_append, List.take_left]
          have after : (done ++ (front ++ mark :: d :: more)).drop (done.length + front.length + 2) =
              more := by
            rw [← List.append_assoc, ← List.length_append, ← List.drop_drop, List.drop_left]
            rfl
          have moved := ih (done ++ front ++ [e]) more (by omega)
          simp only [List.length_append, List.length_singleton, List.append_assoc,
            List.singleton_append] at moved
          rw [before, after, List.append_assoc, Nat.add_assoc, moved]
        · next missing =>
          rw [unescape_mark_none mark repl d more missing]
          have moved := ih (done ++ front ++ [mark]) (d :: more) (by simp only [List.length_cons]; omega)
          simp only [List.length_append, List.length_singleton, List.append_assoc,
            List.singleton_append] at moved
          rw [Nat.add_assoc, moved]

end Text

end WfyApp.EscapeText
