import Mathlib

/-! Loops over tables of a fixed size: filling a table up to its capacity, and moving the
largest entries to the front by a selection sort that stops after some rounds. -/

namespace WfyApp.TableLoops

section Collect
variable {α β : Type} (f : α → Option β) (max : Nat)

def collect : List β → List α → List β
  | out, [] => out
  | out, x :: xs => if out.length < max then collect (out ++ (f x).toList) xs else out

theorem collect_eq (out : List β) (xs : List α) (room : out.length ≤ max) :
    collect f max out xs = out ++ (xs.filterMap f).take (max - out.length) := by
  induction xs generalizing out with
  | nil => simp [collect]
  | cons x xs ih =>
      rw [collect]
      by_cases space : out.length < max
      · rw [if_pos space]
        cases value : f x with
        | none => rw [Option.toList_none, List.append_nil, ih out room,
            List.filterMap_cons_none value]
        | some y =>
            have left : max - out.length = max - (out ++ [y]).length + 1 := by
              rw [List.length_append, List.length_singleton]
              omega
            rw [Option.toList_some, ih _ (by rw [List.length_append, List.length_singleton]; omega),
              List.filterMap_cons_some value, left, List.take_succ_cons, List.append_assoc,
              List.singleton_append]
      · have none : max - out.length = 0 := by omega
        rw [if_neg space, none, List.take_zero, List.append_nil]

theorem collect_nil_eq (xs : List α) : collect f max [] xs = (xs.filterMap f).take max :=
  collect_eq f max [] xs (Nat.zero_le _)

end Collect

section Selection
variable {α κ : Type} [LinearOrder κ] (key : α → κ) {k : Nat}

/-- The position of the first largest key among `best` and the later positions `js`. -/
def better (e : Fin k → α) (best : Fin k) (js : List (Fin k)) : Fin k :=
  js.foldl (fun best j => if key (e best) < key (e j) then j else best) best

def bestFrom (e : Fin k → α) (i : Fin k) : Fin k :=
  better key e i ((List.finRange k).filter (i < ·))

def round (e : Fin k → α) (i : Fin k) : Fin k → α := e ∘ Equiv.swap i (bestFrom key e i)

/-- The rounds at the positions `is`; each yields the entry it has moved to its position. -/
def selectAt : (Fin k → α) → List (Fin k) → List α
  | _, [] => []
  | e, i :: is => round key e i i :: selectAt (round key e i) is

def partialSort (entries : List α) (want : Nat) : List α :=
  selectAt key entries.get ((List.finRange entries.length).take want)

theorem better_spec (e : Fin k → α) (best : Fin k) (js : List (Fin k)) :
    (better key e best js = best ∨ better key e best js ∈ js) ∧
      key (e best) ≤ key (e (better key e best js)) ∧
        ∀ j ∈ js, key (e j) ≤ key (e (better key e best js)) := by
  induction js generalizing best with
  | nil => simp [better]
  | cons j js ih =>
      have step : better key e best (j :: js) =
        better key e (if key (e best) < key (e j) then j else best) js := rfl
      rw [step]
      by_cases larger : key (e best) < key (e j)
      · rw [if_pos larger]
        obtain ⟨place, above, all⟩ := ih j
        refine ⟨.inr ?_, larger.le.trans above, List.forall_mem_cons.mpr ⟨above, all⟩⟩
        exact List.mem_cons.mpr place
      · rw [if_neg larger]
        obtain ⟨place, above, all⟩ := ih best
        have first := (not_lt.mp larger).trans above
        exact ⟨place.imp_right (List.mem_cons_of_mem j), above, List.forall_mem_cons.mpr ⟨first, all⟩⟩

theorem le_bestFrom (e : Fin k → α) (i : Fin k) : i ≤ bestFrom key e i := by
  rcases (better_spec key e i ((List.finRange k).filter (i < ·))).1 with same | later
  · exact le_of_eq same.symm
  · exact (of_decide_eq_true (List.mem_filter.mp later).2).le

theorem key_le_bestFrom (e : Fin k → α) (i j : Fin k) (le : i ≤ j) :
    key (e j) ≤ key (e (bestFrom key e i)) := by
  obtain ⟨-, first, later⟩ := better_spec key e i ((List.finRange k).filter (i < ·))
  rcases le.eq_or_lt with rfl | less
  · exact first
  · exact later j (List.mem_filter.mpr ⟨List.mem_finRange j, decide_eq_true less⟩)

theorem round_of_lt (e : Fin k → α) (i a : Fin k) (less : a < i) : round key e i a = e a := by
  have other : a ≠ bestFrom key e i := (less.trans_le (le_bestFrom key e i)).ne
  rw [round, Function.comp_apply, Equiv.swap_apply_of_ne_of_ne less.ne other]

theorem round_self (e : Fin k → α) (i : Fin k) : round key e i i = e (bestFrom key e i) := by
  rw [round, Function.comp_apply, Equiv.swap_apply_left]

theorem round_of_le (e : Fin k → α) (i b : Fin k) (le : i ≤ b) :
    ∃ j, i ≤ j ∧ round key e i b = e j := by
  refine ⟨Equiv.swap i (bestFrom key e i) b, ?_, rfl⟩
  rw [Equiv.swap_apply_def]
  split_ifs
  · exact le_bestFrom key e i
  · exact le_rfl
  · exact le

def Settled (n : Nat) (e : Fin k → α) : Prop :=
  ∀ a b : Fin k, a.val < n → a < b → key (e b) ≤ key (e a)

theorem settled_round (e : Fin k → α) (i : Fin k) (settled : Settled key i.val e) :
    Settled key (i.val + 1) (round key e i) := by
  intro a b early less
  rcases lt_or_ge a i with before | reached
  · rw [round_of_lt key e i a before]
    rcases lt_or_ge b i with inside | outside
    · rw [round_of_lt key e i b inside]
      exact settled a b before less
    · obtain ⟨j, le, moved⟩ := round_of_le key e i b outside
      rw [moved]
      exact settled a j before (before.trans_le le)
  · obtain rfl : a = i := le_antisymm (Fin.mk_le_mk.mpr (Nat.lt_succ_iff.mp early)) reached
    obtain ⟨j, le, moved⟩ := round_of_le key e a b less.le
    rw [moved, round_self]
    exact key_le_bestFrom key e a j le

def rounds (e : Fin k → α) (is : List (Fin k)) : Fin k → α := is.foldl (round key) e

theorem rounds_cons (e : Fin k → α) (i : Fin k) (is : List (Fin k)) :
    rounds key e (i :: is) = rounds key (round key e i) is := rfl

theorem rounds_of_lt (e : Fin k → α) (is : List (Fin k)) (a : Fin k) (later : ∀ i ∈ is, a < i) :
    rounds key e is a = e a := by
  induction is generalizing e with
  | nil => rfl
  | cons i is ih =>
      obtain ⟨first, others⟩ := List.forall_mem_cons.mp later
      rw [rounds_cons, ih _ others, round_of_lt key e i a first]

theorem rounds_perm (e : Fin k → α) (is : List (Fin k)) :
    ∃ σ : Equiv.Perm (Fin k), rounds key e is = e ∘ σ := by
  induction is generalizing e with
  | nil => exact ⟨1, rfl⟩
  | cons i is ih =>
      obtain ⟨σ, same⟩ := ih (round key e i)
      exact ⟨σ.trans (Equiv.swap i (bestFrom key e i)), same⟩

theorem selectAt_eq (e : Fin k → α) (is : List (Fin k)) (order : is.Pairwise (· < ·)) :
    selectAt key e is = is.map (rounds key e is) := by
  induction is generalizing e with
  | nil => rfl
  | cons i is ih =>
      obtain ⟨later, rest⟩ := List.pairwise_cons.mp order
      rw [selectAt, ih _ rest, List.map_cons, rounds_cons, rounds_of_lt key _ is i later]

theorem settled_rounds (e : Fin k → α) (n : Nat) :
    Settled key n (rounds key e ((List.finRange k).take n)) := by
  induction n with
  | zero => exact fun a b early => absurd early (Nat.not_lt_zero _)
  | succ n ih =>
      rw [List.take_add_one]
      cases place : (List.finRange k)[n]? with
      | none =>
          have full : k ≤ n := by simpa using List.getElem?_eq_none_iff.mp place
          rw [Option.toList_none, List.append_nil]
          exact fun a b _ less => ih a b (a.isLt.trans_le full) less
      | some i =>
          obtain ⟨inside, at_n⟩ := List.getElem?_eq_some_iff.mp place
          obtain rfl : i.val = n := by simp [← at_n]
          rw [Option.toList_some, rounds, List.foldl_append]
          exact settled_round key _ i ih

/-- `out` are the `want` largest entries in falling order, and `rest` the others. -/
structure Leading (entries : List α) (want : Nat) (out rest : List α) : Prop where
  perm : (out ++ rest).Perm entries
  length : out.length = min want entries.length
  ordered : out.Pairwise fun a b => key b ≤ key a
  above : ∀ a ∈ out, ∀ b ∈ rest, key b ≤ key a

theorem leading_of_settled (e : Fin k → α) (want : Nat) (settled : Settled key want e) :
    Leading key (List.ofFn e) want ((List.ofFn e).take want) ((List.ofFn e).drop want) where
  perm := by rw [List.take_append_drop]
  length := List.length_take
  ordered := by
    rw [List.pairwise_iff_getElem]
    intro i j left right less
    rw [List.getElem_take, List.getElem_take, List.getElem_ofFn, List.getElem_ofFn]
    rw [List.length_take] at left
    exact settled _ _ (lt_of_lt_of_le left (min_le_left _ _)) less
  above := by
    intro a chosen b other
    obtain ⟨i, left, rfl⟩ := List.mem_take_iff_getElem.mp chosen
    obtain ⟨j, right, rfl⟩ := List.mem_drop_iff_getElem.mp other
    rw [List.getElem_ofFn, List.getElem_ofFn]
    have early := lt_of_lt_of_le left (min_le_left _ _)
    exact settled _ _ early (Fin.mk_lt_mk.mpr (early.trans_le (Nat.le_add_right _ _)))

/-- The rounds yield the largest entries of the table. -/
theorem partialSort_leading (entries : List α) (want : Nat) :
    ∃ rest, Leading key entries want (partialSort key entries want) rest := by
  have order : ((List.finRange entries.length).take want).Pairwise (· < ·) :=
    (List.pairwise_lt_finRange _).sublist (List.take_sublist _ _)
  obtain ⟨σ, moved⟩ := rounds_perm key entries.get ((List.finRange entries.length).take want)
  have same : (List.ofFn (rounds key entries.get
      ((List.finRange entries.length).take want))).Perm entries := by
    have shuffled := Equiv.Perm.ofFn_comp_perm σ entries.get
    rwa [List.ofFn_get, ← moved] at shuffled
  have leading := leading_of_settled key _ want (settled_rounds key entries.get want)
  have out : partialSort key entries want = (List.ofFn (rounds key entries.get
      ((List.finRange entries.length).take want))).take want := by
    rw [partialSort, selectAt_eq key _ _ order, List.ofFn_eq_map, ← List.map_take]
  rw [out]
  exact ⟨_, leading.perm.trans same, by rw [leading.length, same.length_eq], leading.ordered,
    leading.above⟩

end Selection

theorem exists_perm_map {α β : Type} (f : α → β) (l : List β) (m : List α) (perm : l.Perm (m.map f)) :
    ∃ l' : List α, l'.Perm m ∧ l'.map f = l := by
  have images : List.Forall₂ (fun b a => b = f a) (m.map f) m := by
    rw [List.forall₂_map_left_iff, List.forall₂_same]
    exact fun _ _ => rfl
  obtain ⟨l', values, same⟩ := List.perm_comp_forall₂ perm images
  refine ⟨l', same, ?_⟩
  clear perm images same
  induction values with
  | nil => rfl
  | cons value _ ih => rw [List.map_cons, value, ih]

end WfyApp.TableLoops
