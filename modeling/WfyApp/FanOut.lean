import Mathlib.Data.List.Basic
import Mathlib.Data.List.Nodup

/-! A list of receivers, each with its own tag, kept without repetitions by replacing and
removing, and the log of what has been handed to them one after the other, as each receiver
sees it. -/

namespace WfyApp.FanOut
variable {κ ι β : Type} [DecidableEq κ]

theorem lookup_cons_ite (wanted other : κ) (tag : ι) (rest : List (κ × ι)) :
    ((other, tag) :: rest).lookup wanted =
      if wanted = other then some tag else rest.lookup wanted := by
  rw [List.lookup_cons]
  by_cases same : wanted = other
  · simp [same]
  · have different : (wanted == other) = false := by simpa using same
    simp [different, same]

section Receivers

/-- The tag of a receiver that is listed is replaced; another one is added at the end. -/
def upsert (key : κ) (tag : ι) : List (κ × ι) → List (κ × ι)
  | [] => [(key, tag)]
  | (other, old) :: rest =>
      if other = key then (other, tag) :: rest else (other, old) :: upsert key tag rest

def without (key : κ) (receivers : List (κ × ι)) : List (κ × ι) :=
  receivers.filter fun receiver => receiver.1 ≠ key

def Distinct (receivers : List (κ × ι)) : Prop := (receivers.map Prod.fst).Nodup

theorem lookup_upsert (key wanted : κ) (tag : ι) (receivers : List (κ × ι)) :
    (upsert key tag receivers).lookup wanted =
      if wanted = key then some tag else receivers.lookup wanted := by
  induction receivers with
  | nil => rw [upsert, lookup_cons_ite]
  | cons receiver rest ih =>
      obtain ⟨other, old⟩ := receiver
      rw [lookup_cons_ite, upsert]
      by_cases listed : other = key
      · rw [if_pos listed, lookup_cons_ite, listed]
        split_ifs <;> rfl
      · rw [if_neg listed, lookup_cons_ite, ih]
        split_ifs with first second
        · exact absurd (first.symm.trans second) listed
        all_goals rfl

theorem lookup_without (key wanted : κ) (receivers : List (κ × ι)) :
    (without key receivers).lookup wanted =
      if wanted = key then none else receivers.lookup wanted := by
  induction receivers with
  | nil => simp [without]
  | cons receiver rest ih =>
      obtain ⟨other, old⟩ := receiver
      rw [without] at ih
      rw [lookup_cons_ite, without]
      by_cases listed : other = key
      · rw [List.filter_cons_of_neg (by simpa using listed), ih, listed]
        split_ifs <;> rfl
      · rw [List.filter_cons_of_pos (by simpa using listed), lookup_cons_ite, ih]
        split_ifs with first second
        · exact absurd (first.symm.trans second) listed
        all_goals rfl

theorem keys_upsert (key : κ) (tag : ι) (receivers : List (κ × ι)) :
    (upsert key tag receivers).map Prod.fst =
      if key ∈ receivers.map Prod.fst then receivers.map Prod.fst
      else receivers.map Prod.fst ++ [key] := by
  induction receivers with
  | nil => rfl
  | cons receiver rest ih =>
      obtain ⟨other, old⟩ := receiver
      rw [upsert]
      by_cases listed : other = key
      · simp [listed]
      · have apart : ¬key = other := fun same => listed same.symm
        rw [if_neg listed, List.map_cons, ih]
        simp only [List.map_cons, List.mem_cons, apart, false_or]
        split_ifs <;> rfl

theorem distinct_upsert (key : κ) (tag : ι) (receivers : List (κ × ι))
    (distinct : Distinct receivers) : Distinct (upsert key tag receivers) := by
  rw [Distinct, keys_upsert]
  split_ifs with listed
  · exact distinct
  · rw [← List.concat_eq_append]
    exact distinct.concat listed

theorem distinct_without (key : κ) (receivers : List (κ × ι)) (distinct : Distinct receivers) :
    Distinct (without key receivers) :=
  List.Nodup.sublist (List.Sublist.map Prod.fst List.filter_sublist) distinct

end Receivers

section Log

/-- What one receiver has been handed, with the tags it had then. -/
def received (key : κ) (log : List (κ × ι × β)) : List (ι × β) :=
  log.filterMap fun entry => if entry.1 = key then some entry.2 else none

def handOut (receivers : List (κ × ι)) (item : β) : List (κ × ι × β) :=
  receivers.map fun receiver => (receiver.1, receiver.2, item)

@[simp] theorem received_append (key : κ) (first second : List (κ × ι × β)) :
    received key (first ++ second) = received key first ++ received key second :=
  List.filterMap_append

theorem received_handOut_of_notMem (key : κ) (receivers : List (κ × ι)) (item : β)
    (absent : key ∉ receivers.map Prod.fst) : received key (handOut receivers item) = [] := by
  simp only [received, handOut, List.filterMap_map, List.filterMap_eq_nil_iff]
  intro receiver member
  have apart : receiver.1 ≠ key :=
    fun same => absent (same ▸ List.mem_map_of_mem member)
  simp [apart]

theorem received_handOut (key : κ) (receivers : List (κ × ι)) (item : β)
    (distinct : Distinct receivers) :
    received key (handOut receivers item) =
      ((receivers.lookup key).map fun tag => (tag, item)).toList := by
  induction receivers with
  | nil => rfl
  | cons receiver rest ih =>
      obtain ⟨other, tag⟩ := receiver
      obtain ⟨absent, others⟩ := List.nodup_cons.mp distinct
      rw [lookup_cons_ite]
      by_cases same : key = other
      · subst same
        simpa [received, handOut] using received_handOut_of_notMem key rest item absent
      · have apart : ¬other = key := fun equal => same equal.symm
        simpa [received, handOut, same, apart] using ih others

/-- Of items handed out one after the other, a receiver gets all in their order, or none. -/
theorem received_handOuts (key : κ) (receivers : List (κ × ι)) (items : List β)
    (distinct : Distinct receivers) :
    received key (items.flatMap (handOut receivers)) =
      ((receivers.lookup key).map fun tag => items.map fun item => (tag, item)).getD [] := by
  induction items with
  | nil => cases receivers.lookup key <;> rfl
  | cons item items ih =>
      rw [List.flatMap_cons, received_append, ih, received_handOut key receivers item distinct]
      cases receivers.lookup key <;> rfl

end Log

end WfyApp.FanOut
