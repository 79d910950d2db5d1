import WfyApp.FlowInput
import Mathlib.Data.List.Destutter
import Mathlib.Data.List.Sort

/-! The slot tables of a flow while its maps are installed (`Flow::InstallSlotMap` with
`check_slots`, `Input::Init` and `FlowMap::Init`), and the tests of an index in
`Flow::SendInput` and `Flow::SetOutput`.
A failed assertion or an access outside a vector is `none`. A vector that has to grow beyond
its capacity moves its elements, and the move constructor of an initialised slot asserts;
by how much the capacity grows is left open. Threads that already run while another map is
installed are outside. -/

namespace WfyApp.FlowSlots
open StepSystem FlowInput

inductive Model where
  | none
  | asyncCommon
  | asyncAtomic
  | sync
  deriving DecidableEq

inductive HoldInputMode where
  | none
  | holdInput
  | inheritFromInput
  deriving DecidableEq

/-- No mode is the source's `NONE`. -/
structure SlotMap where
  inputSlots : List Int
  threadModel : Model
  modeWhenFull : Option InputMode
  fetchBlock : List Bool
  inputMaxcachenum : List Int
  outputSlots : List Int
  holdInput : List HoldInputMode

structure Input where
  threadModel : Model
  maxCacheNum : Int
  modeWhenFull : Option InputMode
  fetchBlock : Bool
  coroutine : Option Nat

structure Output where
  toQueue : Bool
  holdInput : HoldInputMode

/-- A vector of slots, some of them initialised, and the counter kept beside it. -/
structure Table (κ : Type) where
  slots : List (Option κ)
  capacity : Nat
  num : Nat

def checkSlots (slots : List Int) : Option (List Int) :=
  let sorted := slots.insertionSort (· ≤ ·)
  if (sorted.destutter (· ≠ ·)).length = sorted.length then some sorted else none

namespace Table
variable {κ : Type}

def valid (t : Table κ) (n : Nat) : Bool := (t.slots[n]?).join.isSome

/-- Whether one of the slots has been set; a negative one is looked up in front of the
vector. -/
def taken (t : Table κ) (slots : List Int) : Option Bool :=
  slots.foldlM (fun found i =>
    if (t.slots.length : Int) ≤ i then some found
    else if i < 0 then none
    else some (found || t.valid i.toNat)) false

def resize (grow : Nat → Nat → Nat) (t : Table κ) (n : Nat) : Option (Table κ) :=
  let slots := t.slots ++ List.replicate (n - t.slots.length) none
  if n ≤ t.capacity then some { t with slots := slots }
  else if t.slots.any Option.isSome then none
  else some { t with slots := slots, capacity := grow t.slots.length n }

def init (t : Table κ) (n : Nat) (slot : κ) : Option (Table κ) :=
  if t.valid n then none
  else some { t with slots := t.slots.set n (some slot), num := t.num + 1 }

def initAll (values : Nat → Option κ) (t : Table κ) (slots : List (Nat × Nat)) : Option (Table κ) :=
  slots.foldlM (fun t (n, k) => do t.init n (← values k)) t

def fit (grow : Nat → Nat → Nat) (t : Table κ) (maxIdx : Nat) : Option (Table κ) :=
  if t.slots.length ≤ maxIdx then t.resize grow (maxIdx + 1) else some t

def install (grow : Nat → Nat → Nat) (values : Nat → Option κ) (t : Table κ) (slots : List Nat) :
    Option (Table κ) :=
  match slots.getLast? with
  | none => some t
  | some maxIdx => do (← t.fit grow maxIdx).initAll values slots.zipIdx

def accepts (t : Table κ) (index : Int) : Bool := decide (0 ≤ index) && decide (index < t.num)

end Table

structure Coroutine where
  map : SlotMap
  ins : List Nat
  outs : List Nat

structure Flow where
  inputs : Table Input
  outputs : Table Output
  coroutines : List Coroutine

def empty : Flow := ⟨⟨[], 0, 0⟩, ⟨[], 0, 0⟩, []⟩

/-- What the slot at position `k` of the sorted slots of a map is initialised with; the limits
and the flags of the map are not sorted with them. -/
def inputOf (map : SlotMap) (coroutine k : Nat) : Option Input := do
  let maxCacheNum ← if map.threadModel = .asyncCommon then map.inputMaxcachenum[k]? else some 0
  return {
    threadModel := map.threadModel
    maxCacheNum := maxCacheNum
    modeWhenFull := map.modeWhenFull
    fetchBlock := if map.threadModel = .asyncCommon then map.fetchBlock[k]?.getD true else true
    coroutine := if map.threadModel = .sync then some coroutine else none }

def outputOf (map : SlotMap) (k : Nat) : Output where
  toQueue := map.threadModel = .asyncCommon
  holdInput := map.holdInput[k]?.getD .none

def installSlotMap (grow : Nat → Nat → Nat) (f : Flow) (map : SlotMap) : Option (Flow × Bool) :=
  if map.inputSlots.length > 1 ∧ map.threadModel = .sync then some (f, false)
  else match checkSlots map.inputSlots with
    | none => some (f, false)
    | some ins => do
      if ← f.inputs.taken ins then
        return (f, false)
      match checkSlots map.outputSlots with
      | none => some (f, false)
      | some outs => do
        if ← f.outputs.taken outs then
          return (f, false)
        let inputs ← f.inputs.install grow (inputOf map f.coroutines.length) (ins.map Int.toNat)
        let outputs ← f.outputs.install grow (fun k => some (outputOf map k)) (outs.map Int.toNat)
        let c : Coroutine := ⟨map, ins.map Int.toNat, outs.map Int.toNat⟩
        return (⟨inputs, outputs, f.coroutines ++ [c]⟩, true)

section Tables
variable {κ : Type}

theorem checkSlots_sorted (slots sorted : List Int) (checked : checkSlots slots = some sorted) :
    (sorted.map Int.toNat).Pairwise (· ≤ ·) := by
  simp only [checkSlots] at checked
  split at checked
  · cases checked
    rw [List.pairwise_map]
    refine (List.pairwise_insertionSort (· ≤ ·) slots).imp ?_
    intro a b le
    exact Int.toNat_le_toNat le
  · cases checked

/-- What holds of a table whose slots were bound in the listed order. -/
structure Bound (t : Table κ) (bound : List Nat) : Prop where
  distinct : bound.Nodup
  valid : ∀ n, t.valid n = true ↔ n ∈ bound
  num : t.num = bound.length
  last : ∀ n, t.slots.length = n + 1 → n ∈ bound

structure Filled (t : Table κ) (bound : List Nat) : Prop where
  distinct : bound.Nodup
  valid : ∀ n, t.valid n = true ↔ n ∈ bound
  num : t.num = bound.length

theorem valid_append_none (t : Table κ) (extra n : Nat) :
    (((t.slots ++ List.replicate extra none)[n]?).join.isSome = true) ↔ t.valid n = true := by
  rw [Table.valid]
  by_cases inside : n < t.slots.length
  · rw [List.getElem?_append_left inside]
  · rw [List.getElem?_append_right (by omega), List.getElem?_replicate,
      List.getElem?_eq_none (by omega)]
    split
    · simp
    · simp

theorem resize_filled (grow : Nat → Nat → Nat) (t u : Table κ) (n : Nat) (bound : List Nat)
    (h : Filled t bound) (long : t.slots.length ≤ n) (resized : t.resize grow n = some u) :
    Filled u bound ∧ u.slots.length = n := by
  simp only [Table.resize] at resized
  split at resized
  · cases resized
    exact ⟨⟨h.distinct, fun m => (valid_append_none t _ m).trans (h.valid m), h.num⟩, by simp [long]⟩
  · split at resized
    · cases resized
    · cases resized
      exact ⟨⟨h.distinct, fun m => (valid_append_none t _ m).trans (h.valid m), h.num⟩, by simp [long]⟩

theorem init_filled (t u : Table κ) (n : Nat) (slot : κ) (bound : List Nat) (h : Filled t bound)
    (inside : n < t.slots.length) (made : t.init n slot = some u) :
    Filled u (bound ++ [n]) ∧ u.slots.length = t.slots.length := by
  simp only [Table.init] at made
  split at made
  · cases made
  · next free =>
    cases made
    have fresh : n ∉ bound := fun member => free ((h.valid n).mpr member)
    refine ⟨⟨?_, ?_, ?_⟩, by simp⟩
    · rw [List.nodup_append]
      refine ⟨h.distinct, by simp, ?_⟩
      intro a member b single
      rw [List.mem_singleton.mp single]
      exact fun equal => fresh (equal ▸ member)
    · intro m
      rw [List.mem_append, List.mem_singleton, ← h.valid m, Table.valid, Table.valid]
      by_cases same : m = n
      · simp [same, inside]
      · simp [List.getElem?_set_ne (Ne.symm same), same]
    · simp [h.num]

theorem initAll_filled (values : Nat → Option κ) (slots : List (Nat × Nat)) (t u : Table κ)
    (bound : List Nat) (h : Filled t bound) (inside : ∀ s ∈ slots, s.1 < t.slots.length)
    (made : t.initAll values slots = some u) :
    Filled u (bound ++ slots.map Prod.fst) ∧ u.slots.length = t.slots.length := by
  induction slots generalizing t bound with
  | nil =>
    cases made
    exact ⟨by simpa using h, rfl⟩
  | cons s slots ih =>
    simp only [Table.initAll, List.foldlM_cons, Option.bind_eq_bind, Option.bind_eq_some_iff] at made
    obtain ⟨v, ⟨slot, -, first⟩, rest⟩ := made
    obtain ⟨filled, length⟩ := init_filled t v s.1 slot bound h (inside s (by simp)) first
    have later : ∀ r ∈ slots, r.1 < v.slots.length := by
      intro r member
      rw [length]
      exact inside r (List.mem_cons_of_mem s member)
    obtain ⟨all, total⟩ := ih v (bound ++ [s.1]) filled later rest
    exact ⟨by simpa using all, total.trans length⟩

theorem le_getLast (slots : List Nat) (maxIdx : Nat) (sorted : slots.Pairwise (· ≤ ·))
    (last : slots.getLast? = some maxIdx) : ∀ n ∈ slots, n ≤ maxIdx := by
  obtain ⟨front, rfl⟩ := List.getLast?_eq_some_iff.mp last
  intro n member
  rcases List.mem_append.mp member with early | final
  · exact (List.pairwise_append.mp sorted).2.2 n early maxIdx (by simp)
  · exact (List.mem_singleton.mp final).le

theorem install_bound (grow : Nat → Nat → Nat) (values : Nat → Option κ) (t u : Table κ)
    (slots bound : List Nat) (sorted : slots.Pairwise (· ≤ ·)) (h : Bound t bound)
    (installed : t.install grow values slots = some u) : Bound u (bound ++ slots) := by
  simp only [Table.install] at installed
  split at installed
  · next none =>
    cases installed
    rw [List.getLast?_eq_none_iff.mp none, List.append_nil]
    exact h
  · next maxIdx last =>
    have most := le_getLast slots maxIdx sorted last
    have member : maxIdx ∈ slots := List.mem_of_getLast? last
    have filled : Filled t bound := ⟨h.distinct, h.valid, h.num⟩
    simp only [Option.bind_eq_bind, Option.bind_eq_some_iff] at installed
    obtain ⟨v, grown, made⟩ := installed
    -- a vector that grows ends at the largest slot, any other where it ended before
    have ready : Filled v bound ∧ maxIdx < v.slots.length ∧
        (v.slots.length = maxIdx + 1 ∨ v.slots.length = t.slots.length) := by
      simp only [Table.fit] at grown
      split at grown
      · next long =>
        obtain ⟨kept, length⟩ := resize_filled grow t v (maxIdx + 1) bound filled (by omega) grown
        exact ⟨kept, by omega, .inl length⟩
      · cases grown
        exact ⟨filled, by omega, .inr rfl⟩
    obtain ⟨kept, room, ends⟩ := ready
    have inside : ∀ s ∈ slots.zipIdx, s.1 < v.slots.length := by
      intro s zipped
      have small := most s.1 (List.fst_mem_of_mem_zipIdx zipped)
      omega
    obtain ⟨all, length⟩ := initAll_filled values slots.zipIdx v u bound kept inside made
    rw [List.zipIdx_map_fst] at all
    refine ⟨all.distinct, all.valid, all.num, ?_⟩
    intro n size
    rw [List.mem_append]
    rcases ends with grew | same
    · have equal : n = maxIdx := by omega
      exact .inr (equal ▸ member)
    · exact .inl (h.last n (by omega))

section Stored
variable (values : Nat → Option κ)

def Keeps (t u : Table κ) : Prop :=
  ∀ (m : Nat) (v : κ), t.slots[m]? = some (some v) → u.slots[m]? = some (some v)

theorem init_stores (t u : Table κ) (n : Nat) (slot : κ) (inside : n < t.slots.length)
    (made : t.init n slot = some u) :
    Keeps t u ∧
      u.slots[n]? = some (some slot) ∧ u.slots.length = t.slots.length := by
  simp only [Table.init] at made
  split at made
  · cases made
  · next free =>
    cases made
    refine ⟨fun m v here => ?_, by simp [inside], by simp⟩
    have other : n ≠ m := by
      rintro rfl
      exact free (by simp [Table.valid, here])
    rw [List.getElem?_set_ne other, here]

theorem initAll_stores (slots : List (Nat × Nat)) (t u : Table κ)
    (inside : ∀ s ∈ slots, s.1 < t.slots.length) (made : t.initAll values slots = some u) :
    Keeps t u ∧
      ∀ s ∈ slots, ∃ v, values s.2 = some v ∧ u.slots[s.1]? = some (some v) := by
  induction slots generalizing t with
  | nil =>
    cases made
    exact ⟨fun _ _ here => here, by simp⟩
  | cons s slots ih =>
    simp only [Table.initAll, List.foldlM_cons, Option.bind_eq_bind, Option.bind_eq_some_iff] at made
    obtain ⟨w, ⟨slot, value, first⟩, rest⟩ := made
    obtain ⟨kept, here, length⟩ := init_stores t w s.1 slot (inside s (by simp)) first
    obtain ⟨later, others⟩ := ih w
      (fun r member => length ▸ inside r (List.mem_cons_of_mem s member)) rest
    refine ⟨fun m v old => later m v (kept m v old), ?_⟩
    intro r member
    rcases List.mem_cons.mp member with rfl | more
    · exact ⟨slot, value, later _ _ here⟩
    · exact others r more

theorem fit_stores (grow : Nat → Nat → Nat) (t u : Table κ) (maxIdx : Nat)
    (fits : t.fit grow maxIdx = some u) :
    Keeps t u ∧
      maxIdx < u.slots.length := by
  have longer (m : Nat) (v : κ) (extra : Nat) (here : t.slots[m]? = some (some v)) :
      (t.slots ++ List.replicate extra none)[m]? = some (some v) := by
    obtain ⟨inside, -⟩ := List.getElem?_eq_some_iff.mp here
    rw [List.getElem?_append_left inside, here]
  simp only [Table.fit, Table.resize] at fits
  split_ifs at fits with short fresh set
  · cases fits
    exact ⟨fun m v here => longer m v _ here, by simp; omega⟩
  · cases fits
    exact ⟨fun m v here => longer m v _ here, by simp; omega⟩
  · cases fits
    exact ⟨fun _ _ here => here, by omega⟩

theorem install_stores (grow : Nat → Nat → Nat) (t u : Table κ) (slots : List Nat)
    (sorted : slots.Pairwise (· ≤ ·)) (installed : t.install grow values slots = some u) :
    Keeps t u ∧
      ∀ i n, slots[i]? = some n → ∃ v, values i = some v ∧ u.slots[n]? = some (some v) := by
  simp only [Table.install] at installed
  split at installed
  · next none =>
    cases installed
    rw [List.getLast?_eq_none_iff.mp none]
    exact ⟨fun _ _ here => here, by simp⟩
  · next maxIdx last =>
    have most := le_getLast slots maxIdx sorted last
    simp only [Option.bind_eq_bind, Option.bind_eq_some_iff] at installed
    obtain ⟨w, grown, made⟩ := installed
    obtain ⟨kept, room⟩ := fit_stores grow t w maxIdx grown
    have inside : ∀ s ∈ slots.zipIdx, s.1 < w.slots.length := by
      intro s zipped
      have small := most s.1 (List.fst_mem_of_mem_zipIdx zipped)
      omega
    obtain ⟨later, stored⟩ := initAll_stores values slots.zipIdx w u inside made
    refine ⟨fun m v here => later m v (kept m v here), fun i n found => ?_⟩
    exact stored (n, i) (List.mem_zipIdx_iff_getElem?.mpr found)

end Stored

theorem valid_lt (t : Table κ) (n : Nat) (valid : t.valid n = true) : n < t.slots.length := by
  by_contra outside
  rw [Table.valid, List.getElem?_eq_none (by omega)] at valid
  cases valid

/-- The index test is right exactly if there is no gap between the slots. -/
theorem accepts_iff (t : Table κ) (bound : List Nat) (h : Bound t bound) :
    (∀ index, t.accepts index = true → t.valid index.toNat = true) ↔ t.slots.length = t.num := by
  have below : bound ⊆ List.range t.slots.length := by
    intro n member
    exact List.mem_range.mpr (valid_lt t n ((h.valid n).mpr member))
  have few := (h.distinct.subperm below).length_le
  rw [List.length_range, ← h.num] at few
  constructor
  · intro right
    have all : List.range t.num ⊆ bound := by
      intro n member
      have small := List.mem_range.mp member
      exact (h.valid n).mp (by simpa using right n (by simpa [Table.accepts] using small))
    have same : (List.range t.num).Perm bound :=
      (List.nodup_range.subperm all).perm_of_length_le (by simp [h.num])
    cases size : t.slots.length with
    | zero => omega
    | succ n =>
      have last := List.mem_range.mp (same.mem_iff.mpr (h.last n size))
      omega
  · intro size index accepted
    simp only [Table.accepts, Bool.and_eq_true, decide_eq_true_eq] at accepted
    have same : bound.Perm (List.range t.slots.length) :=
      (h.distinct.subperm below).perm_of_length_le (by simp [size, h.num])
    rw [h.valid, same.mem_iff, List.mem_range]
    omega

end Tables

section Runs
variable (grow : Nat → Nat → Nat)

/-- The slots of the coroutines are the ones that are initialised, each from the map of its
coroutine. -/
structure Installed (f : Flow) : Prop where
  inputs : Bound f.inputs (f.coroutines.flatMap Coroutine.ins)
  outputs : Bound f.outputs (f.coroutines.flatMap Coroutine.outs)
  sorted : ∀ c ∈ f.coroutines,
    ∃ ins, checkSlots c.map.inputSlots = some ins ∧ c.ins = ins.map Int.toNat
  stored : ∀ k c, f.coroutines[k]? = some c → ∀ i n, c.ins[i]? = some n →
    ∃ slot, inputOf c.map k i = some slot ∧ f.inputs.slots[n]? = some (some slot)

/-- A map is refused, and then nothing changes, or both its lists are bound. -/
theorem installSlotMap_cases (f g : Flow) (map : SlotMap) (result : Bool)
    (done : installSlotMap grow f map = some (g, result)) :
    (result = false ∧ g = f) ∨
      ∃ c : Coroutine, result = true ∧ c.map = map ∧
        (∃ ins, checkSlots map.inputSlots = some ins ∧ c.ins = ins.map Int.toNat) ∧
        c.ins.Pairwise (· ≤ ·) ∧ c.outs.Pairwise (· ≤ ·) ∧
        f.inputs.install grow (inputOf map f.coroutines.length) c.ins = some g.inputs ∧
        f.outputs.install grow (fun k => some (outputOf map k)) c.outs = some g.outputs ∧
        g.coroutines = f.coroutines ++ [c] := by
  unfold installSlotMap at done
  split at done
  · cases done
    exact .inl ⟨rfl, rfl⟩
  · split at done
    · cases done
      exact .inl ⟨rfl, rfl⟩
    · next ins checkedIn =>
      simp only [Option.bind_eq_bind, Option.bind_eq_some_iff] at done
      obtain ⟨takenIn, -, done⟩ := done
      cases takenIn with
      | true =>
        cases done
        exact .inl ⟨rfl, rfl⟩
      | false =>
        simp only [Bool.false_eq_true, if_false] at done
        split at done
        · cases done
          exact .inl ⟨rfl, rfl⟩
        · next outs checkedOut =>
          simp only [Option.bind_eq_some_iff] at done
          obtain ⟨takenOut, -, done⟩ := done
          cases takenOut with
          | true =>
            cases done
            exact .inl ⟨rfl, rfl⟩
          | false =>
            simp only [Bool.false_eq_true, if_false, Option.bind_eq_some_iff] at done
            obtain ⟨inputs, installedIn, outputs, installedOut, last⟩ := done
            cases last
            exact .inr ⟨_, rfl, rfl, ⟨ins, checkedIn, rfl⟩, checkSlots_sorted _ ins checkedIn,
              checkSlots_sorted _ outs checkedOut, installedIn, installedOut, rfl⟩

def step (f : Flow) (map : SlotMap) : Option Flow := (installSlotMap grow f map).map Prod.fst

theorem stored_concat (f g : Flow) (c : Coroutine) (h : Installed f)
    (coroutines : g.coroutines = f.coroutines ++ [c])
    (kept : Keeps f.inputs g.inputs)
    (new : ∀ i n, c.ins[i]? = some n → ∃ slot, inputOf c.map f.coroutines.length i = some slot ∧
      g.inputs.slots[n]? = some (some slot)) :
    ∀ k d, g.coroutines[k]? = some d → ∀ i n, d.ins[i]? = some n →
      ∃ slot, inputOf d.map k i = some slot ∧ g.inputs.slots[n]? = some (some slot) := by
  intro k d found i n at_
  rw [coroutines, List.getElem?_append] at found
  split_ifs at found with old
  · obtain ⟨slot, value, here⟩ := h.stored k d found i n at_
    exact ⟨slot, value, kept n slot here⟩
  · obtain ⟨inside, same⟩ := List.getElem?_eq_some_iff.mp found
    rw [List.length_singleton] at inside
    have last : k = f.coroutines.length := by omega
    rw [List.getElem_singleton] at same
    subst same
    rw [last]
    exact new i n at_

theorem installed_step (f g : Flow) (map : SlotMap) (h : Installed f)
    (taken : step grow f map = some g) : Installed g := by
  obtain ⟨⟨g, result⟩, done, rfl⟩ := Option.map_eq_some_iff.mp taken
  rcases installSlotMap_cases grow f g map result done with ⟨-, rfl⟩ | bound
  · exact h
  · obtain ⟨c, -, rfl, checked, sortedIn, sortedOut, installedIn, installedOut, coroutines⟩ := bound
    have inputs := install_bound grow _ _ _ c.ins _ sortedIn h.inputs installedIn
    have outputs := install_bound grow _ _ _ c.outs _ sortedOut h.outputs installedOut
    obtain ⟨kept, new⟩ := install_stores _ grow _ _ c.ins sortedIn installedIn
    refine ⟨by simpa [coroutines] using inputs, by simpa [coroutines] using outputs, ?_,
      stored_concat f g c h coroutines kept new⟩
    intro d member
    rw [coroutines, List.mem_append, List.mem_singleton] at member
    rcases member with old | rfl
    · exact h.sorted d old
    · exact checked

theorem maps_step (f g : Flow) (map : SlotMap) (before : List SlotMap)
    (h : (f.coroutines.map Coroutine.map).Sublist before) (taken : step grow f map = some g) :
    (g.coroutines.map Coroutine.map).Sublist (before ++ [map]) := by
  obtain ⟨⟨g, result⟩, done, rfl⟩ := Option.map_eq_some_iff.mp taken
  rcases installSlotMap_cases grow f g map result done with ⟨-, rfl⟩ | ⟨c, -, rfl, -, -, -, -, -, more⟩
  · exact h.trans (List.sublist_append_left _ _)
  · rw [more, List.map_append]
    exact h.append (List.Sublist.refl _)

theorem separate_of_nodup (lists : List Coroutine)
    (distinct : (lists.flatMap Coroutine.ins).Nodup) (c d : Fin lists.length) (n : Nat)
    (first : n ∈ (lists.get c).ins) (second : n ∈ (lists.get d).ins) : c = d := by
  have apart := (List.nodup_flatMap.mp distinct).2
  rw [List.pairwise_iff_get] at apart
  by_contra different
  rcases lt_or_gt_of_ne different with before | after
  · exact apart c d before first second
  · exact apart d c after second first

def config (f : Flow) (h : Installed f) : Config (Fin f.coroutines.length) Nat where
  inSlots c := (f.coroutines.get c).ins
  maxCacheNum n := ((f.inputs.slots[n]?).join.map Input.maxCacheNum).getD 0
  modeWhenFull n := ((f.inputs.slots[n]?).join.bind Input.modeWhenFull).getD .blocking
  separate := separate_of_nodup f.coroutines h.inputs.distinct

/-- Whatever maps were installed, every initialised slot belongs to one coroutine and was
initialised from the map of that coroutine, with the limit and the flag at the slot's position
among the sorted slots; so the flow is one whose queues `FlowInput` describes. The index
tests of `SendInput` and `SetOutput` let through no slot that was not initialised exactly if
the slots leave no gap, which neither they nor `InstallSlotMap` check. -/
theorem installed_slots (maps : List SlotMap) (f : Flow)
    (reached : exec (step grow) empty maps = some f) :
    (f.coroutines.map Coroutine.map).Sublist maps ∧
      (∀ c ∈ f.coroutines,
        ∃ ins, checkSlots c.map.inputSlots = some ins ∧ c.ins = ins.map Int.toNat) ∧
      (∃ c : Config (Fin f.coroutines.length) Nat,
        (∀ k, c.inSlots k = (f.coroutines.get k).ins) ∧
        ∀ n slot, f.inputs.slots[n]? = some (some slot) →
          (∃ k i, (c.inSlots k)[i]? = some n ∧ inputOf (f.coroutines.get k).map k i = some slot) ∧
            c.maxCacheNum n = slot.maxCacheNum ∧
            ∀ mode, slot.modeWhenFull = some mode → c.modeWhenFull n = mode) ∧
      ((∀ index, f.inputs.accepts index = true → f.inputs.valid index.toNat = true) ↔
        f.inputs.slots.length = f.inputs.num) ∧
      ((∀ index, f.outputs.accepts index = true → f.outputs.valid index.toNat = true) ↔
        f.outputs.slots.length = f.outputs.num) := by
  have start : Installed empty := by
    refine ⟨⟨List.nodup_nil, ?_, rfl, ?_⟩, ⟨List.nodup_nil, ?_, rfl, ?_⟩, ?_, ?_⟩
    all_goals simp [empty, Table.valid]
  have h : Installed f := exec_induction (step grow) empty Installed start
    (fun f map g h taken => installed_step grow f g map h taken) maps f reached
  have accepted : (f.coroutines.map Coroutine.map).Sublist maps :=
    exec_history (step grow) empty (fun maps f => (f.coroutines.map Coroutine.map).Sublist maps)
      (List.Sublist.refl _) (fun maps f map g h taken => maps_step grow f g map maps h taken) maps f
      reached
  refine ⟨accepted, h.sorted, ⟨config f h, fun k => rfl, ?_⟩, accepts_iff _ _ h.inputs,
    accepts_iff _ _ h.outputs⟩
  intro n slot here
  refine ⟨?_, by simp [config, here], fun mode set => by simp [config, here, set]⟩
  have bound := (h.inputs.valid n).mp (by simp [Table.valid, here])
  obtain ⟨c, member, owned⟩ := List.mem_flatMap.mp bound
  obtain ⟨k, rfl⟩ := List.mem_iff_get.mp member
  obtain ⟨i, at_⟩ := List.mem_iff_getElem?.mp owned
  obtain ⟨stored, value, same⟩ := h.stored k _ (List.getElem?_eq_getElem k.isLt) i n at_
  rw [here] at same
  cases same
  exact ⟨k, i, at_, value⟩

def twoMaps : List SlotMap :=
  [⟨[2, 1], .asyncCommon, some .blocking, [], [4, 5], [0], []⟩,
    ⟨[0], .sync, some .dropFront, [], [], [], []⟩]

/-- Slot one has the limit that stood beside slot two. -/
theorem installed_slots_two :
    ∃ f, exec (step fun _ n => n) empty twoMaps = some f ∧
      f.coroutines.map Coroutine.ins = [[1, 2], [0]] ∧
      (f.inputs.slots[1]?.join.map Input.maxCacheNum) = some 4 ∧
      (f.coroutines.map Coroutine.map).Sublist twoMaps ∧
      ((∀ index, f.inputs.accepts index = true → f.inputs.valid index.toNat = true) ↔
        f.inputs.slots.length = f.inputs.num) := by
  refine ⟨(exec (step fun _ n => n) empty twoMaps).get (by decide), (Option.some_get _).symm,
    by decide, by decide, ?_⟩
  obtain ⟨accepted, -, -, tested, -⟩ :=
    installed_slots (fun _ n => n) twoMaps _ (Option.some_get (by decide)).symm
  exact ⟨accepted, tested⟩

end Runs

end WfyApp.FlowSlots
