import Mathlib.Data.List.Infix
import Mathlib.Order.Basic

/-! Histories, newest first: how many entries in a row have had a property, a counter of them
that falls back when it grows too large, a switch that two kinds of histories set and clear, and
a value that is kept against entries far from it for a limited time. -/

namespace WfyApp.Streaks
variable {α : Type}

def streak (p : α → Bool) : List α → Nat
  | [] => 0
  | newest :: past => if p newest then streak p past + 1 else 0

section Counters

def countOn (cap floor count : Nat) : Nat := if cap < count + 1 then floor else count + 1

/-- The counter is the length, or both have reached `floor`. -/
def Counts (floor counter length : Nat) : Prop :=
  counter = length ∨ floor ≤ counter ∧ floor ≤ length

variable {cap floor counter length : Nat}

theorem counts_zero : Counts floor 0 0 := Or.inl rfl

theorem counts_countOn (room : floor ≤ cap) (counts : Counts floor counter length) :
    Counts floor (countOn cap floor counter) (length + 1) := by
  rw [Counts, countOn] at *
  split <;> omega

theorem counts_lt_iff {k : Nat} (counts : Counts floor counter length) (small : k < floor) :
    k < counter ↔ k < length := by
  rw [Counts] at counts
  omega

end Counters

section Switch
variable (sets clears : List α → Bool)

/-- On at first; a history that sets it goes before one that clears it. -/
def switch : List α → Bool
  | [] => true
  | newest :: past =>
      if sets (newest :: past) then true
      else if clears (newest :: past) then false
      else switch past

theorem switch_eq_false_iff (empty : clears [] = false) (history : List α) :
    switch sets clears history = false ↔
      ∃ past, past <:+ history ∧ clears past = true ∧
        ∀ later, past <:+ later → later <:+ history → sets later = false := by
  induction history with
  | nil =>
      simp only [switch, List.suffix_nil, Bool.true_eq_false, false_iff]
      rintro ⟨past, rfl, cleared, _⟩
      rw [empty] at cleared
      cases cleared
  | cons newest past ih =>
      rw [switch]
      split_ifs with set cleared
      · simp only [false_iff]
        rintro ⟨cut, within, _, never⟩
        rw [never _ within (List.suffix_refl _)] at set
        cases set
      · simp only [true_iff]
        refine ⟨newest :: past, List.suffix_refl _, cleared, fun later below above => ?_⟩
        rw [above.sublist.antisymm below.sublist]
        simpa using set
      · rw [ih]
        constructor
        · rintro ⟨cut, within, was, never⟩
          refine ⟨cut, within.trans (List.suffix_cons _ _), was, fun later below above => ?_⟩
          rcases List.suffix_cons_iff.mp above with rfl | inner
          · simpa using set
          · exact never later below inner
        · rintro ⟨cut, within, was, never⟩
          rcases List.suffix_cons_iff.mp within with rfl | inner
          · exact absurd was cleared
          · exact ⟨cut, inner, was, fun later below above =>
              never later below (above.trans (List.suffix_cons _ _))⟩

end Switch

section Held
variable (near : α → α → Bool) (patience : Nat)

def keep : Option (α × Nat) → α → α × Nat
  | none, new => (new, 0)
  | some (kept, misses), new =>
      if near kept new then (new, 0)
      else if misses + 1 < patience then (kept, misses + 1)
      else (new, 0)

def held : List α → Option (α × Nat)
  | [] => none
  | newest :: past => some (keep near patience (held past) newest)

theorem keep_cases (state : Option (α × Nat)) (new : α) :
    keep near patience state new = (new, 0) ∨
      ∃ kept misses, state = some (kept, misses) ∧ near kept new = false ∧
        misses + 1 < patience ∧ keep near patience state new = (kept, misses + 1) := by
  rcases state with _ | ⟨kept, misses⟩
  · exact Or.inl rfl
  · simp only [keep]
    split_ifs with close early
    · exact Or.inl rfl
    · exact Or.inr ⟨kept, misses, rfl, by simpa using close, early, rfl⟩
    · exact Or.inl rfl

theorem held_spec (positive : 0 < patience) (history : List α) (kept : α) (misses : Nat)
    (now : held near patience history = some (kept, misses)) :
    misses < patience ∧ history[misses]? = some kept ∧
      ∀ newer ∈ history.take misses, near kept newer = false := by
  induction history generalizing kept misses with
  | nil => cases now
  | cons newest past ih =>
      simp only [held, Option.some.injEq] at now
      rcases keep_cases near patience (held near patience past) newest with
        taken | ⟨old, before, was, far, early, same⟩
      · rw [taken] at now
        cases now
        simpa using positive
      · rw [same] at now
        cases now
        obtain ⟨-, entry, all⟩ := ih _ _ was
        refine ⟨early, by simpa using entry, fun newer member => ?_⟩
        rcases List.mem_cons.mp (by simpa using member) with rfl | older
        · exact far
        · exact all newer older

end Held

end WfyApp.Streaks
