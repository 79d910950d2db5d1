import Mathlib.Logic.Function.Basic
import Mathlib.Data.List.Nodup

/-! Singly linked lists in a heap. A walk reads one node after the other; reading a cell that
holds no node, because it was freed or never allocated, is `none`. `Links` says which nodes lie
on the way from one pointer to another. -/

namespace WfyApp.HeapLists

structure Node (κ : Type) where
  entry : κ
  next : Option Nat

abbrev Heap (κ : Type) := Nat → Option (Node κ)

section Walks
variable {κ : Type} (heap : Heap κ)

def find (test : κ → Bool) : Nat → Option Nat → Option (Option Nat)
  | _, none => some none
  | 0, some _ => none
  | fuel + 1, some i => do
    let node ← heap i
    if test node.entry then some (some i) else find test fuel node.next

def collect : Nat → Option Nat → Option (List κ)
  | _, none => some []
  | 0, some _ => none
  | fuel + 1, some i => do
    let node ← heap i
    return node.entry :: (← collect fuel node.next)

def last : Nat → Nat → Option Nat
  | 0, _ => none
  | fuel + 1, i => do
    match (← heap i).next with
    | none => some i
    | some j => last fuel j

/-- The nodes on the way from `p` to `q`, each with its entry. -/
def Links (p : Option Nat) (cells : List (Nat × κ)) (q : Option Nat) : Prop :=
  match cells with
  | [] => p = q
  | (i, e) :: rest => p = some i ∧ ∃ next, heap i = some ⟨e, next⟩ ∧ Links next rest q

theorem links_append (p q : Option Nat) (first second : List (Nat × κ)) :
    Links heap p (first ++ second) q ↔ ∃ m, Links heap p first m ∧ Links heap m second q := by
  induction first generalizing p with
  | nil => simp [Links]
  | cons cell first ih =>
    simp only [List.cons_append, Links, ih]
    constructor
    · rintro ⟨start, next, here, m, before, after⟩
      exact ⟨m, ⟨start, next, here, before⟩, after⟩
    · rintro ⟨m, ⟨start, next, here, before⟩, after⟩
      exact ⟨start, next, here, m, before, after⟩

/-- A change of a cell off the way does not show. -/
theorem links_update (p q : Option Nat) (cells : List (Nat × κ)) (i : Nat) (node : Option (Node κ))
    (off : i ∉ cells.map Prod.fst) (h : Links heap p cells q) :
    Links (Function.update heap i node) p cells q := by
  induction cells generalizing p with
  | nil => exact h
  | cons cell cells ih =>
    rw [List.map_cons, List.mem_cons, not_or] at off
    obtain ⟨start, next, here, rest⟩ := h
    refine ⟨start, next, ?_, ih next off.2 rest⟩
    rw [Function.update_of_ne (Ne.symm off.1)]
    exact here

theorem find_skip (test : κ → Bool) (p q : Option Nat) (cells : List (Nat × κ)) (fuel : Nat)
    (h : Links heap p cells q) (off : ∀ cell ∈ cells, test cell.2 = false) :
    find heap test (fuel + cells.length) p = find heap test fuel q := by
  induction cells generalizing p with
  | nil =>
    cases h
    rfl
  | cons cell cells ih =>
    obtain ⟨rfl, next, here, rest⟩ := h
    have here_off := off cell (by simp)
    rw [List.length_cons, ← Nat.add_assoc, find, here]
    simp only [Option.bind_eq_bind, Option.bind_some, here_off, Bool.false_eq_true, if_false]
    exact ih next rest (fun c member => off c (List.mem_cons_of_mem cell member))

theorem find_here (test : κ → Bool) (i : Nat) (e : κ) (next : Option Nat) (fuel : Nat)
    (here : heap i = some ⟨e, next⟩) (holds : test e = true) :
    find heap test (fuel + 1) (some i) = some (some i) := by
  simp [find, here, holds]

/-- On the way to a cell without a node a search finds something or fails. -/
theorem find_dangling (test : κ → Bool) (p : Option Nat) (cells : List (Nat × κ)) (j fuel : Nat)
    (h : Links heap p cells (some j)) (freed : heap j = none) :
    find heap test fuel p = none ∨
      ∃ before k e after, cells = before ++ (k, e) :: after ∧ find heap test fuel p = some (some k) := by
  induction cells generalizing p fuel with
  | nil =>
    cases h
    refine .inl ?_
    cases fuel with
    | zero => rfl
    | succ fuel => simp [find, freed]
  | cons cell cells ih =>
    obtain ⟨rfl, next, here, rest⟩ := h
    cases fuel with
    | zero => exact .inl rfl
    | succ fuel =>
      by_cases holds : test cell.2 = true
      · exact .inr ⟨[], cell.1, cell.2, cells, rfl, by simp [find, here, holds]⟩
      · have later : find heap test (fuel + 1) (some cell.1) = find heap test fuel next := by
          simp [find, here, holds]
        rw [later]
        rcases ih next fuel rest with failed | ⟨before, k, e, after, rfl, found⟩
        · exact .inl failed
        · exact .inr ⟨cell :: before, k, e, after, rfl, found⟩

theorem collect_links (p q : Option Nat) (cells : List (Nat × κ)) (fuel : Nat)
    (h : Links heap p cells q) :
    collect heap (fuel + cells.length) p =
      (collect heap fuel q).map fun rest => cells.map Prod.snd ++ rest := by
  induction cells generalizing p with
  | nil =>
    cases h
    simp
  | cons cell cells ih =>
    obtain ⟨rfl, next, here, rest⟩ := h
    rw [List.length_cons, ← Nat.add_assoc, collect, here]
    simp only [Option.bind_eq_bind, Option.bind_some, ih next rest]
    cases collect heap fuel q with
    | none => rfl
    | some entries => rfl

theorem collect_dangling (p : Option Nat) (cells : List (Nat × κ)) (j fuel : Nat)
    (h : Links heap p cells (some j)) (freed : heap j = none) : collect heap fuel p = none := by
  induction cells generalizing p fuel with
  | nil =>
    cases h
    cases fuel with
    | zero => rfl
    | succ fuel => simp [collect, freed]
  | cons cell cells ih =>
    obtain ⟨rfl, next, here, rest⟩ := h
    cases fuel with
    | zero => rfl
    | succ fuel => simp [collect, here, ih next fuel rest]

theorem last_links (i j : Nat) (e : κ) (cells : List (Nat × κ)) (fuel : Nat)
    (h : Links heap (some i) (cells ++ [(j, e)]) none) :
    last heap (fuel + cells.length + 1) i = some j := by
  induction cells generalizing i with
  | nil =>
    obtain ⟨start, next, here, rfl⟩ := h
    cases start
    simp [last, here]
  | cons cell cells ih =>
    obtain ⟨start, next, here, rest⟩ := h
    cases start
    have more : ∃ k, next = some k := by
      cases cells with
      | nil => exact ⟨j, rest.1⟩
      | cons c cells => exact ⟨c.1, rest.1⟩
    obtain ⟨k, rfl⟩ := more
    rw [List.length_cons, ← Nat.add_assoc, last, here]
    simpa using ih k rest

end Walks

end WfyApp.HeapLists
