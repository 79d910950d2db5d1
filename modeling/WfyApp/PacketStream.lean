import Mathlib

/-! Packets laid end to end in a stream of symbols.
A `Framing` is a prefix code: `read` recognises exactly the inputs that begin
with some `wire a`, and reports how many symbols that packet takes. `frames` is
the greedy walk that stops at the first position where nothing is recognised;
it keeps no remainder between calls. The last theorem says what that costs when
the stream is cut into pieces. -/

namespace WfyApp.PacketStream

structure Framing (α β : Type) where
  wire : α → List β
  read : List β → Option (α × Nat)
  wire_ne_nil : ∀ a, wire a ≠ []
  read_eq_some : ∀ xs a n,
    read xs = some (a, n) ↔ n = (wire a).length ∧ wire a <+: xs

variable {α β : Type} (F : Framing α β)

def walk : Nat → List β → List α
  | 0, _ => []
  | _ + 1, [] => []
  | fuel + 1, x :: xs =>
      match F.read (x :: xs) with
      | none => []
      | some (a, n) => a :: walk fuel ((x :: xs).drop n)

def frames (xs : List β) : List α := walk F xs.length xs

theorem wire_length_pos (a : α) : 0 < (F.wire a).length :=
  List.length_pos_iff.mpr (F.wire_ne_nil a)

theorem read_wire_append (a : α) (rest : List β) :
    F.read (F.wire a ++ rest) = some (a, (F.wire a).length) :=
  (F.read_eq_some _ _ _).mpr ⟨rfl, List.prefix_append _ _⟩

theorem walk_wire_append (a : α) (rest : List β) (fuel : Nat) :
    walk F (fuel + 1) (F.wire a ++ rest) = a :: walk F fuel rest := by
  have found := read_wire_append F a rest
  cases whole : F.wire a ++ rest with
  | nil => exact absurd (List.append_eq_nil_iff.mp whole).1 (F.wire_ne_nil a)
  | cons x xs =>
      rw [whole] at found
      simp only [walk, found]
      rw [← whole, List.drop_left]

theorem walk_of_length_le (fuel : Nat) (xs : List β) (h : xs.length ≤ fuel) :
    walk F fuel xs = frames F xs := by
  induction fuel using Nat.strong_induction_on generalizing xs with
  | _ fuel ih =>
    cases xs with
    | nil => cases fuel <;> rfl
    | cons x xs =>
        cases fuel with
        | zero => simp at h
        | succ fuel =>
            have bound : xs.length ≤ fuel := by simpa using h
            cases found : F.read (x :: xs) with
            | none => simp only [frames, List.length_cons, walk, found]
            | some packet =>
                obtain ⟨a, n⟩ := packet
                obtain ⟨size, _⟩ := (F.read_eq_some _ _ _).mp found
                have pos := wire_length_pos F a
                have shorter : ((x :: xs).drop n).length ≤ xs.length := by
                  simp only [List.length_drop, List.length_cons]
                  omega
                simp only [frames, List.length_cons, walk, found]
                rw [ih fuel (Nat.lt_succ_self _) _ (shorter.trans bound),
                  ih xs.length (Nat.lt_succ_of_le bound) _ shorter]

@[simp] theorem frames_nil : frames F [] = [] := rfl

theorem frames_wire_append (a : α) (rest : List β) :
    frames F (F.wire a ++ rest) = a :: frames F rest := by
  have pos := wire_length_pos F a
  have enough : rest.length ≤ (F.wire a ++ rest).length - 1 := by
    simp only [List.length_append]
    omega
  have split : (F.wire a ++ rest).length = ((F.wire a ++ rest).length - 1) + 1 := by
    simp only [List.length_append]
    omega
  rw [frames, split, walk_wire_append, walk_of_length_le F _ _ enough]

theorem frames_of_read_none (xs : List β) (h : F.read xs = none) : frames F xs = [] := by
  cases xs with
  | nil => rfl
  | cons x xs => simp only [frames, List.length_cons, walk, h]

/-- The walk recognises a whole packet, or stops. -/
theorem frames_cases (xs : List β) :
    (F.read xs = none ∧ frames F xs = []) ∨
    ∃ a rest, xs = F.wire a ++ rest ∧ frames F xs = a :: frames F rest := by
  cases found : F.read xs with
  | none => exact .inl ⟨rfl, frames_of_read_none F xs found⟩
  | some packet =>
      obtain ⟨a, n⟩ := packet
      obtain ⟨_, rest, rfl⟩ := (F.read_eq_some _ _ _).mp found
      exact .inr ⟨a, rest, rfl, frames_wire_append F a rest⟩

theorem frames_flatMap_wire_append (as : List α) (rest : List β) :
    frames F (as.flatMap F.wire ++ rest) = as ++ frames F rest := by
  induction as with
  | nil => rfl
  | cons a as ih =>
      rw [List.flatMap_cons, List.append_assoc, frames_wire_append, ih, List.cons_append]

theorem frames_flatMap_wire (as : List α) : frames F (as.flatMap F.wire) = as := by
  simpa using frames_flatMap_wire_append F as []

/-- What the walk recognises is an initial part of its input, symbol for symbol. -/
theorem wire_frames_initial (xs : List β) :
    (frames F xs).flatMap F.wire <+: xs := by
  induction size : xs.length using Nat.strong_induction_on generalizing xs with
  | _ size ih =>
    obtain ⟨_, stopped⟩ | ⟨a, rest, rfl, continued⟩ := frames_cases F xs
    · rw [stopped]
      exact List.nil_prefix
    · have pos := wire_length_pos F a
      rw [continued, List.flatMap_cons, List.prefix_append_right_inj]
      refine ih rest.length ?_ rest rfl
      rw [← size, List.length_append]
      omega

theorem frames_length_le (xs : List β) :
    ((frames F xs).flatMap F.wire).length ≤ xs.length :=
  (wire_frames_initial F xs).length_le

/-- Walking pieces of a stream separately, with nothing carried over, recovers the
stream's packets exactly when every piece is itself a run of whole packets. -/
theorem flatMap_frames_eq_iff (as : List α) (pieces : List (List β))
    (h : pieces.flatten = as.flatMap F.wire) :
    pieces.flatMap (frames F) = as ↔
      ∃ parts : List (List α), parts.flatten = as ∧
        pieces = parts.map (fun part => part.flatMap F.wire) := by
  constructor
  · intro recovered
    have total : (pieces.map fun piece => ((frames F piece).flatMap F.wire).length).sum =
        (pieces.map List.length).sum := by
      have lengths := congrArg List.length h
      rw [List.length_flatten] at lengths
      rw [lengths, ← recovered, List.flatMap_assoc, List.length_flatMap]
    have whole : ∀ piece ∈ pieces, (frames F piece).flatMap F.wire = piece := by
      intro piece member
      apply (wire_frames_initial F piece).eq_of_length
      by_contra differs
      have smaller := lt_of_le_of_ne (frames_length_le F piece) differs
      have strict := List.sum_lt_sum (fun piece => ((frames F piece).flatMap F.wire).length)
        List.length (fun piece _ => frames_length_le F piece) ⟨piece, member, smaller⟩
      exact absurd total strict.ne
    refine ⟨pieces.map (frames F), ?_, ?_⟩
    · rw [← List.flatMap_def, recovered]
    · rw [List.map_map]
      conv_lhs => rw [← List.map_id pieces]
      exact List.map_congr_left (fun piece member => (whole piece member).symm)
  · rintro ⟨parts, rfl, rfl⟩
    rw [List.flatMap_map]
    simp only [frames_flatMap_wire, List.flatMap_id']

end WfyApp.PacketStream
