import Mathlib

/-! Running minima of a list, and running minima in which one value stands for "nothing seen
yet". Both are compared with the least member of the list; the maxima are the same in the dual
order. -/

namespace WfyApp.RunningExtremes

def members {α : Type} (values : List α) : Set α := {value | value ∈ values}

theorem members_concat {α : Type} (values : List α) (last : α) :
    members (values ++ [last]) = insert last (members values) := by
  ext value
  simp [members, or_comm]

theorem members_cons {α : Type} (first : α) (values : List α) :
    members (first :: values) = insert first (members values) := by
  ext value
  simp [members]

section Minima
variable {α : Type} [LinearOrder α]

def lower (running value : α) : α := if value < running then value else running

/-- The value `none` is taken for one that is not there. -/
def lowerUnless (none running value : α) : α :=
  if value < running ∨ running = none then value else running

theorem lower_eq_min (running value : α) : lower running value = min value running :=
  (min_def_lt value running).symm

theorem isLeast_foldl_lower (running : α) (values : List α) :
    IsLeast (insert running (members values)) (values.foldl lower running) := by
  induction values using List.reverseRecOn with
  | nil => simp [members]
  | append_singleton values last ih =>
      rw [List.foldl_append, members_concat, Set.insert_comm, List.foldl_cons, List.foldl_nil,
        lower_eq_min]
      exact ih.insert last

theorem foldl_lower_isLeast_iff (running : α) (values : List α) :
    IsLeast (members values) (values.foldl lower running) ↔ ∃ value ∈ values, value ≤ running := by
  have least := isLeast_foldl_lower running values
  constructor
  · intro exact
    exact ⟨_, exact.1, least.2 (Set.mem_insert _ _)⟩
  · rintro ⟨value, member, below⟩
    refine ⟨?_, fun other inside => least.2 (Set.mem_insert_of_mem _ inside)⟩
    rcases Set.mem_insert_iff.mp least.1 with start | inside
    · have same : values.foldl lower running = value :=
        le_antisymm (least.2 (Set.mem_insert_of_mem _ member)) (below.trans_eq start.symm)
      rw [same]
      exact member
    · exact inside

section Unless
variable (none : α)

/-- What the running minimum is as long as no value is lost, and when the least one is lost. -/
structure Tracks (values : List α) (running : α) : Prop where
  exact : ¬IsLeast (members values) none → IsLeast (members values) running
  least : IsLeast (members values) none → none ≤ running ∧
    (running = none ↔ values.getLast? = some none)

theorem lowerUnless_eq (running value : α) :
    lowerUnless none running value = if running = none then value else min value running := by
  rw [lowerUnless]
  by_cases unset : running = none
  · rw [if_pos (.inr unset), if_pos unset]
  · rw [if_neg unset, ← lower_eq_min, lower]
    simp only [unset, or_false]

theorem tracks_concat {values : List α} {running : α} (last : α)
    (tracks : Tracks none values running) :
    Tracks none (values ++ [last]) (lowerUnless none running last) := by
  have ends : (values ++ [last]).getLast? = some none ↔ last = none := by simp
  rw [lowerUnless_eq]
  by_cases least : IsLeast (members values) none
  · obtain ⟨above, -⟩ := tracks.least least
    have whole := least.insert last
    rw [← members_concat] at whole
    rcases lt_or_ge last none with below | notBelow
    · -- a smaller value is never lost
      have value : (if running = none then last else min last running) = last := by
        rw [min_eq_left (below.le.trans above), ite_self]
      rw [min_eq_left below.le] at whole
      rw [value]
      exact ⟨fun _ => whole, fun same => absurd (whole.unique same) below.ne⟩
    · rw [min_eq_right notBelow] at whole
      refine ⟨fun other => absurd whole other, fun _ => ?_⟩
      rw [ends]
      split_ifs with unset
      · exact ⟨notBelow, Iff.rfl⟩
      · refine ⟨le_min notBelow above, ⟨fun same => ?_, fun same => ?_⟩⟩
        · exact (min_choice last running).elim (fun first => first ▸ same) fun second =>
            absurd (second.symm.trans same) unset
        · rw [same, min_eq_left above]
  · have exact := tracks.exact least
    have set : running ≠ none := fun same => least (same ▸ exact)
    have whole := exact.insert last
    rw [← members_concat] at whole
    rw [if_neg set]
    refine ⟨fun _ => whole, fun same => ?_⟩
    have value := whole.unique same
    rw [value, ends]
    refine ⟨le_rfl, iff_of_true rfl ?_⟩
    exact (min_choice last running).elim (fun first => first.symm.trans value) fun second =>
      absurd (second.symm.trans value) set

theorem tracks_foldl (first : α) (values : List α) :
    Tracks none (first :: values) (values.foldl (lowerUnless none) first) := by
  induction values using List.reverseRecOn with
  | nil =>
      have alone : IsLeast (members [first]) first := by simp [members]
      refine ⟨fun _ => alone, fun same => ?_⟩
      have value := alone.unique same
      simp [value]
  | append_singleton values last ih =>
      rw [List.foldl_append, List.foldl_cons, List.foldl_nil, ← List.cons_append]
      exact tracks_concat none last ih

/-- A running minimum with a value for "nothing" is the least of the values exactly if that
value is not the least, or comes last. -/
theorem foldl_lowerUnless_isLeast_iff (first : α) (values : List α) :
    IsLeast (members (first :: values)) (values.foldl (lowerUnless none) first) ↔
      (IsLeast (members (first :: values)) none → (first :: values).getLast? = some none) := by
  have tracks := tracks_foldl none first values
  by_cases least : IsLeast (members (first :: values)) none
  · rw [imp_iff_right least, ← (tracks.least least).2]
    exact ⟨fun exact => exact.unique least, fun same => by rwa [same]⟩
  · exact iff_of_true (tracks.exact least) fun same => absurd same least

end Unless

end Minima

section Maxima
variable {α : Type} [LinearOrder α]

def raise (running value : α) : α := if running < value then value else running

def raiseUnless (none running value : α) : α :=
  if running < value ∨ running = none then value else running

theorem isGreatest_foldl_raise (running : α) (values : List α) :
    IsGreatest (insert running (members values)) (values.foldl raise running) :=
  isLeast_foldl_lower (α := αᵒᵈ) running values

theorem foldl_raise_isGreatest_iff (running : α) (values : List α) :
    IsGreatest (members values) (values.foldl raise running) ↔
      ∃ value ∈ values, running ≤ value :=
  foldl_lower_isLeast_iff (α := αᵒᵈ) running values

theorem foldl_raiseUnless_isGreatest_iff (none first : α) (values : List α) :
    IsGreatest (members (first :: values)) (values.foldl (raiseUnless none) first) ↔
      (IsGreatest (members (first :: values)) none → (first :: values).getLast? = some none) :=
  foldl_lowerUnless_isLeast_iff (α := αᵒᵈ) none first values

end Maxima

end WfyApp.RunningExtremes
