import WfyApp.FaceBounds
import WfyApp.StepSystem

/-! The frames that the face-line filter draws around detected faces: the table of records that
`process` fills from each detection result and draws on each video frame. The four lines of a frame
are outside the model, and so is what a write behind the end of the table destroys. Integers are
unbounded. -/

namespace WfyApp.FaceFrames
open FaceBounds StepSystem UvcGraph

def maxDrawNum : Nat := 10
def detectRectDiff : Int := 25
def detectActiveCnt : Int := 3

def upAlignTo (value align : Int) : Int := value + align - 1 - (value + align - 1) % align

structure Source where
  srcWidth : Int
  srcHeight : Int
  width_pos : 0 < srcWidth
  height_pos : 0 < srcHeight
  width_grid : 640 ∣ srcWidth
  height_grid : 360 ∣ srcHeight

def Source.clipRatioW (src : Source) : Int := src.srcWidth / 640
def Source.clipRatioH (src : Source) : Int := src.srcHeight / 360

/-- A face of a detection result; its box lies in the grid of the detector. -/
structure Detected where
  id : Int
  box : Box
  score : Binary32
  left_nonneg : 0 ≤ box.left
  left_lt : box.left < box.right
  right_le : box.right ≤ 640
  top_nonneg : 0 ≤ box.top
  top_lt : box.top < box.bottom
  bottom_le : box.bottom ≤ 360

def atMost (x y : Binary32) : Bool := !x.isNaN && !y.isNaN && decide (x.rank ≤ y.rank)

def Detected.allowNew (f : Detected) : Bool := !atMost f.score filterThreshold

structure Record where
  id : Int
  x : Int
  y : Int
  activate : Int
  width : Int
  height : Int
  box : Box
  score : Binary32
deriving DecidableEq, Repr

def Record.cleared : Record := ⟨-1, 0, 0, 0, 0, 0, ⟨0, 0, 0, 0⟩, ⟨0#32⟩⟩

abbrev Index := Fin maxDrawNum
abbrev Table := Index → Record

def detectRcdListInit : Table := fun _ => .cleared

def clearDetectRcd (t : Table) : Table × Bool :=
  (fun k => if 0 < (t k).id ∧ (t k).activate ≤ 0 then .cleared else t k,
    (List.finRange maxDrawNum).any fun k => decide (0 < (t k).id ∧ 0 < (t k).activate))

def findOrder (t : Table) (id : Int) (allowNew : Bool) : Option Index → List Index → Option Index
  | empty, [] => empty
  | empty, i :: is =>
      if (t i).id = id then some i
      else if allowNew ∧ (t i).id < 0 ∧ empty = none then findOrder t id allowNew (some i) is
      else findOrder t id allowNew empty is

def Record.moved (r : Record) (b : Box) : Bool :=
  decide (detectRectDiff < |b.top - r.box.top| ∨ detectRectDiff < |b.bottom - r.box.bottom| ∨
    detectRectDiff < |b.left - r.box.left| ∨ detectRectDiff < |b.right - r.box.right|)

/-- The loop that takes 16 off a size while the far edge is not below the limit. -/
def shrink : Nat → Int → Int → Int → Int
  | 0, _, size, _ => size
  | fuel + 1, pos, size, max => if max ≤ pos + size then shrink fuel pos (size - 16) max else size

def span (low high rate max : Int) : Int × Int :=
  let pos := if low * rate < 0 then 0 else low * rate
  let size := (high - low) * rate
  let fuel := (pos + size - max).toNat + 1
  (upAlignTo pos 2, upAlignTo (shrink fuel pos size max) 2)

def Record.store (src : Source) (r : Record) (b : Box) : Record :=
  let across := span b.left b.right src.clipRatioW src.srcWidth
  let down := span b.top b.bottom src.clipRatioH src.srcHeight
  { r with box := b, x := across.1, width := across.2, y := down.1, height := down.2 }

def Record.activated (r : Record) (id : Int) : Record :=
  { r with activate := detectActiveCnt, id := id }

def Record.update (src : Source) (r : Record) (f : Detected) : Record :=
  if (r.activated f.id).moved f.box then (r.activated f.id).store src f.box else r.activated f.id

def updateDetectRcd (src : Source) (t : Table) (f : Detected) : Table × Int :=
  match findOrder t f.id f.allowNew none (List.finRange maxDrawNum) with
  | none => (t, -1)
  | some k =>
      (Function.update t k ((t k).update src f), if (t k).moved f.box then 1 else 0)

def setScore (t : Table) (i : Nat) (score : Binary32) : Table :=
  fun k => if k.val = i then { t k with score := score } else t k

def afterFace (src : Source) (t : Table) (f : Detected) (i : Nat) : Table :=
  setScore (updateDetectRcd src t f).1 i f.score

/-- The records that a video frame shows while `mNeedDraw` is set. -/
def Record.shown (r : Record) : Bool := decide (0 ≤ r.id ∧ r.activate ≠ 0)

def drawn (t : Table) : List Record := ((List.finRange maxDrawNum).map t).filter Record.shown

def afterDraw (t : Table) : Table :=
  fun k => if (t k).shown then { t k with activate := (t k).activate - 1 } else t k

/-- The filter; the table has no contents before the first detection result, and `face` is the
index of the next face while a result is read. -/
structure State where
  table : Option Table
  face : Option Nat
  needDraw : Bool
  overrun : Bool

def opened : State := ⟨none, none, false, false⟩

inductive Label where
  | result
  | face (f : Detected)
  | resultEnd
  | frame

def step (src : Source) (s : State) : Label → Option State
  | .result => if s.face = none then some { s with table := some detectRcdListInit, face := some 0 }
      else none
  | .face f => s.face.bind fun i => s.table.map fun t =>
      { s with
        table := some (afterFace src t f i)
        face := some (i + 1)
        overrun := s.overrun || decide (maxDrawNum ≤ i) }
  | .resultEnd => s.face.bind fun _ => s.table.map fun t =>
      { s with table := some (clearDetectRcd t).1, face := none, needDraw := (clearDetectRcd t).2 }
  | .frame =>
      if s.face = none then
        some (if s.needDraw then { s with table := s.table.map afterDraw } else s)
      else none

section Span
variable (low high rate grid max : Int)

theorem shrink_of_lt (fuel : Nat) (pos size : Int) (below : pos + size < max) :
    shrink fuel pos size max = size := by
  cases fuel with
  | zero => rfl
  | succ fuel => rw [shrink, if_neg (by omega)]

theorem shrink_of_eq (fuel : Nat) (pos size : Int) (reaches : pos + size = max) :
    shrink (fuel + 1) pos size max = size - 16 := by
  rw [shrink, if_pos reaches.ge, shrink_of_lt max fuel pos (size - 16) (by omega)]

theorem span_eq (nonneg : 0 ≤ low) (inside : high ≤ grid) (pos : 0 < rate)
    (size : max = grid * rate) :
    span low high rate max = (upAlignTo (low * rate) 2,
      upAlignTo (if high < grid then high * rate - low * rate
        else high * rate - low * rate - 16) 2) := by
  have start : ¬ low * rate < 0 := not_lt.mpr (mul_nonneg nonneg pos.le)
  simp only [span, if_neg start, Int.sub_mul]
  split
  · next before =>
      have far : high * rate < grid * rate := Int.mul_lt_mul_of_pos_right before pos
      rw [shrink_of_lt max _ _ _ (by omega)]
  · next border =>
      have same : high = grid := by omega
      rw [shrink_of_eq max _ _ _ (by rw [size, same]; omega)]

structure Fits (pos size max : Int) : Prop where
  pos_even : 2 ∣ pos
  size_even : 2 ∣ size
  nonneg : 0 ≤ pos
  size_pos : 0 < size
  inside : pos + size ≤ max

def Room : Prop := high < grid ∨ 16 < (grid - low) * rate

theorem fits_span_iff (nonneg : 0 ≤ low) (order : low < high) (inside : high ≤ grid)
    (pos : 0 < rate) (size : max = grid * rate) (even : 2 ∣ grid) :
    Fits (span low high rate max).1 (span low high rate max).2 max ↔ Room low high rate grid := by
  have start : 0 ≤ low * rate := mul_nonneg nonneg pos.le
  have wide : low * rate + rate ≤ high * rate := by nlinarith
  have whole : 2 ∣ grid * rate := Dvd.dvd.mul_right even rate
  rw [span_eq low high rate grid max nonneg inside pos size, Room, Int.sub_mul, size]
  by_cases before : high < grid
  · have far : high * rate + rate ≤ grid * rate := by nlinarith
    refine iff_of_true ?_ (.inl before)
    rw [if_pos before]
    simp only [upAlignTo]
    constructor <;> omega
  · have same : high = grid := by omega
    rw [if_neg before, or_iff_right before]
    simp only [same, upAlignTo]
    constructor
    · intro fits
      have := fits.size_pos
      have := fits.size_even
      omega
    · intro room
      constructor <;> omega

end Span

def InFrame (src : Source) (r : Record) : Prop :=
  Fits r.x r.width src.srcWidth ∧ Fits r.y r.height src.srcHeight

/-- A box that does not vanish when it is kept off the right and the lower border. -/
def RoomLeft (src : Source) (b : Box) : Prop :=
  Room b.left b.right src.clipRatioW 640 ∧ Room b.top b.bottom src.clipRatioH 360

theorem Source.clipRatioW_spec (src : Source) :
    0 < src.clipRatioW ∧ src.srcWidth = 640 * src.clipRatioW := by
  have := src.width_pos
  have := src.width_grid
  rw [Source.clipRatioW]
  omega

theorem Source.clipRatioH_spec (src : Source) :
    0 < src.clipRatioH ∧ src.srcHeight = 360 * src.clipRatioH := by
  have := src.height_pos
  have := src.height_grid
  rw [Source.clipRatioH]
  omega

theorem inFrame_store_iff (src : Source) (r : Record) (f : Detected) :
    InFrame src (r.store src f.box) ↔ RoomLeft src f.box := by
  obtain ⟨wide, width⟩ := src.clipRatioW_spec
  obtain ⟨high, height⟩ := src.clipRatioH_spec
  exact and_congr
    (fits_span_iff _ _ _ 640 _ f.left_nonneg f.left_lt f.right_le wide width (by decide))
    (fits_span_iff _ _ _ 360 _ f.top_nonneg f.top_lt f.bottom_le high height (by decide))

section Update
variable (src : Source) (r : Record) (f : Detected)

@[simp] theorem update_id : (r.update src f).id = f.id := by
  rw [Record.update]
  split <;> rfl

@[simp] theorem update_activate : (r.update src f).activate = detectActiveCnt := by
  rw [Record.update]
  split <;> rfl

/-- The frame of an updated record is computed from the new box or stays as it was. -/
theorem inFrame_update_iff :
    InFrame src (r.update src f) ↔
      if r.moved f.box then RoomLeft src f.box else InFrame src r := by
  have same : (r.activated f.id).moved f.box = r.moved f.box := rfl
  rw [Record.update, same]
  split
  · exact inFrame_store_iff src _ f
  · exact Iff.rfl

end Update

/-- The record of a face: the first with its id, or the first empty one if there is none and the
face may be entered. -/
def Holds (t : Table) (f : Detected) (k : Index) : Prop :=
  ((t k).id = f.id ∧ ∀ j < k, (t j).id ≠ f.id) ∨
    ((∀ j, (t j).id ≠ f.id) ∧ f.allowNew = true ∧ (t k).id < 0 ∧ ∀ j < k, 0 ≤ (t j).id)

theorem findOrder_eq (t : Table) (id : Int) (allowNew : Bool) (empty : Option Index)
    (is : List Index) :
    findOrder t id allowNew empty is =
      (is.find? fun i => decide ((t i).id = id)).or
        (empty.or (is.find? fun i => allowNew && decide ((t i).id < 0))) := by
  induction is generalizing empty with
  | nil => simp [findOrder]
  | cons i is ih =>
      rw [findOrder, ih, ih]
      by_cases same : (t i).id = id
      · simp [same]
      · cases empty with
        | some e => simp [same]
        | none =>
            by_cases free : allowNew = true ∧ (t i).id < 0
            · simp [same, free]
            · have skip : (allowNew && decide ((t i).id < 0)) = false := by simpa using free
              simp [same, skip, free]

theorem findOrder_eq_some_iff (t : Table) (f : Detected) (k : Index) :
    findOrder t f.id f.allowNew none (List.finRange maxDrawNum) = some k ↔ Holds t f k := by
  rw [findOrder_eq, ← Fin.find?_eq_find?_finRange, ← Fin.find?_eq_find?_finRange, Option.none_or,
    Option.or_eq_some_iff, Fin.find?_eq_some_iff, Fin.find?_eq_none_iff, Fin.find?_eq_some_iff,
    Holds]
  cases f.allowNew with
  | false => simp
  | true => simp

section Tables
variable (src : Source) (t : Table) (f : Detected) (i : Nat) (score : Binary32) (k : Index)

@[simp] theorem setScore_id : (setScore t i score k).id = (t k).id := by
  rw [setScore]
  split <;> rfl

@[simp] theorem setScore_activate : (setScore t i score k).activate = (t k).activate := by
  rw [setScore]
  split <;> rfl

@[simp] theorem setScore_box : (setScore t i score k).box = (t k).box := by
  rw [setScore]
  split <;> rfl

@[simp] theorem inFrame_setScore : InFrame src (setScore t i score k) ↔ InFrame src (t k) := by
  rw [setScore]
  split <;> exact Iff.rfl

@[simp] theorem shown_iff (r : Record) : r.shown = true ↔ 0 ≤ r.id ∧ r.activate ≠ 0 :=
  decide_eq_true_iff

theorem mem_drawn (r : Record) : r ∈ drawn t ↔ ∃ k, t k = r ∧ r.shown = true := by
  simp only [drawn, List.mem_filter, List.mem_map, List.mem_finRange, true_and, exists_and_right]

theorem drawn_init : drawn detectRcdListInit = [] := by decide

theorem updateDetectRcd_cases :
    ((∀ k, ¬ Holds t f k) ∧ (updateDetectRcd src t f).1 = t) ∨
      ∃ k, Holds t f k ∧
        (updateDetectRcd src t f).1 = Function.update t k ((t k).update src f) := by
  rw [updateDetectRcd]
  cases found : findOrder t f.id f.allowNew none (List.finRange maxDrawNum) with
  | none =>
      refine .inl ⟨fun k holds => ?_, rfl⟩
      rw [(findOrder_eq_some_iff t f k).mpr holds] at found
      cases found
  | some k => exact .inr ⟨k, (findOrder_eq_some_iff t f k).mp found, rfl⟩

/-- Of the records with one id only the first is active. -/
def FirstActive (t : Table) : Prop := ∀ k l, k < l → (t k).id = (t l).id → (t l).activate = 0

theorem firstActive_init : FirstActive detectRcdListInit := fun _ _ _ _ => rfl

/-- A face goes to the first record with its id, or no other record has it. -/
theorem firstActive_update (first : FirstActive t) (holds : Holds t f k) :
    FirstActive (Function.update t k ((t k).update src f)) := by
  intro j l before same
  by_cases here : l = k
  · subst here
    rw [Function.update_self, Function.update_of_ne before.ne, update_id] at same
    rcases holds with ⟨-, earlier⟩ | ⟨absent, -⟩
    · exact absurd same (earlier j before)
    · exact absurd same (absent j)
  · rw [Function.update_of_ne here] at same ⊢
    by_cases there : j = k
    · subst there
      rw [Function.update_self, update_id] at same
      rcases holds with ⟨old, -⟩ | ⟨absent, -⟩
      · exact first j l before (old.trans same)
      · exact absurd same.symm (absent l)
    · rw [Function.update_of_ne there] at same
      exact first j l before same

theorem firstActive_afterDraw (first : FirstActive t) : FirstActive (afterDraw t) := by
  have id_eq (k : Index) : (afterDraw t k).id = (t k).id := by
    rw [afterDraw]
    split <;> rfl
  intro k l before same
  have idle := first k l before (by rwa [id_eq, id_eq] at same)
  rw [afterDraw, if_neg (by simp [idle]), idle]

theorem FirstActive.distinct {t : Table} (first : FirstActive t) (k l : Index)
    (left : (t k).activate ≠ 0) (right : (t l).activate ≠ 0) (same : (t k).id = (t l).id) :
    k = l := by
  rcases lt_trichotomy k l with before | equal | after
  · exact absurd (first k l before same) right
  · exact equal
  · exact absurd (first l k after same.symm) left

/-- While a result is read the records with an id are active. -/
def AllActive (t : Table) : Prop := ∀ k, 0 < (t k).id → 0 < (t k).activate

theorem allActive_init : AllActive detectRcdListInit := by
  intro k named
  exact absurd named (show ¬ (0 : Int) < -1 by decide)

theorem clearDetectRcd_of_allActive (active : AllActive t) : (clearDetectRcd t).1 = t := by
  funext k
  refine if_neg fun idle => ?_
  have := active k idle.1
  omega

theorem allActive_update (active : AllActive t) :
    AllActive (Function.update t k ((t k).update src f)) := by
  intro j named
  by_cases here : j = k
  · subst here
    rw [Function.update_self, update_activate]
    decide
  · rw [Function.update_of_ne here] at named ⊢
    exact active j named

end Tables

/-- What the table keeps: the active records have different ids, and nothing is cleared at the
end of a result. -/
structure Inv (s : State) : Prop where
  first : ∀ t ∈ s.table, FirstActive t
  active : ∀ t ∈ s.table, s.face.isSome → AllActive t

structure Drawable (src : Source) (s : State) : Prop where
  inTable : s.overrun = false
  inFrame : ∀ t ∈ s.table, ∀ r ∈ drawn t, InFrame src r
  distinct : ∀ t ∈ s.table, ∀ k l, (t k).activate ≠ 0 → (t l).activate ≠ 0 →
    (t k).id = (t l).id → k = l

/-- The condition on a face: its index is one of the table's, and if it is recorded under an id
from 0 on, then its box is stored and has room, or it is near a box whose frame can be drawn. -/
def Admits (src : Source) (s : State) : Label → Prop
  | .face f => ∀ i ∈ s.face, ∀ t ∈ s.table, i < maxDrawNum ∧ ∀ k, Holds t f k → 0 ≤ f.id →
      if (t k).moved f.box then RoomLeft src f.box else InFrame src (t k)
  | _ => True

theorem Holds.unique {t : Table} {f : Detected} {k l : Index} (here : Holds t f k)
    (there : Holds t f l) : k = l := by
  rw [← findOrder_eq_some_iff] at here there
  exact Option.some.inj (here.symm.trans there)

section Faces
variable (src : Source) (t : Table) (f : Detected) (i : Nat)

theorem firstActive_afterFace (first : FirstActive t) : FirstActive (afterFace src t f i) := by
  have updated : FirstActive (updateDetectRcd src t f).1 := by
    rcases updateDetectRcd_cases src t f with ⟨-, same⟩ | ⟨k, holds, entered⟩
    · rwa [same]
    · rw [entered]
      exact firstActive_update src t f k first holds
  intro k l before same
  simp only [afterFace, setScore_id, setScore_activate] at same ⊢
  exact updated k l before same

theorem allActive_afterFace (active : AllActive t) : AllActive (afterFace src t f i) := by
  have updated : AllActive (updateDetectRcd src t f).1 := by
    rcases updateDetectRcd_cases src t f with ⟨-, same⟩ | ⟨k, -, entered⟩
    · rwa [same]
    · rw [entered]
      exact allActive_update src t f k active
  intro k named
  simp only [afterFace, setScore_id, setScore_activate] at named ⊢
  exact updated k named

theorem forall_drawn_iff :
    (∀ r ∈ drawn t, InFrame src r) ↔
      ∀ k, 0 ≤ (t k).id ∧ (t k).activate ≠ 0 → InFrame src (t k) := by
  constructor
  · intro all k shown
    exact all (t k) ((mem_drawn t _).mpr ⟨k, rfl, (shown_iff _).mpr shown⟩)
  · intro all r listed
    obtain ⟨k, rfl, shown⟩ := (mem_drawn t r).mp listed
    exact all k ((shown_iff _).mp shown)

theorem drawn_afterFace_iff (good : ∀ r ∈ drawn t, InFrame src r) :
    (∀ r ∈ drawn (afterFace src t f i), InFrame src r) ↔
      ∀ k, Holds t f k → 0 ≤ f.id →
        if (t k).moved f.box then RoomLeft src f.box else InFrame src (t k) := by
  rw [forall_drawn_iff] at good ⊢
  simp only [afterFace, setScore_id, setScore_activate, inFrame_setScore]
  rcases updateDetectRcd_cases src t f with ⟨none, same⟩ | ⟨k, holds, entered⟩
  · rw [same]
    exact iff_of_true good fun k holds => absurd holds (none k)
  · rw [entered]
    constructor
    · intro all l there named
      obtain rfl := holds.unique there
      have fits := all k
      rw [Function.update_self, update_id, update_activate] at fits
      exact (inFrame_update_iff src (t k) f).mp (fits ⟨named, by decide⟩)
    · intro one l
      by_cases here : l = k
      · subst here
        rw [Function.update_self, update_id]
        intro shown
        exact (inFrame_update_iff src (t l) f).mpr (one l holds shown.1)
      · rw [Function.update_of_ne here]
        exact good l

theorem drawn_afterDraw (good : ∀ r ∈ drawn t, InFrame src r) :
    ∀ r ∈ drawn (afterDraw t), InFrame src r := by
  rw [forall_drawn_iff] at good ⊢
  intro k
  rw [afterDraw]
  split
  · next shown => exact fun _ => good k ((shown_iff _).mp shown)
  · exact good k

end Faces

theorem Inv.clear_eq {s : State} (inv : Inv s) (i : Nat) (t : Table) (index : s.face = some i)
    (table : s.table = some t) : (clearDetectRcd t).1 = t :=
  clearDetectRcd_of_allActive t (inv.active t table (by rw [index]; rfl))

/-- What each step does to the filter. -/
theorem step_cases (src : Source) (s s' : State) (l : Label) (taken : step src s l = some s') :
    (l = .result ∧ s' = { s with table := some detectRcdListInit, face := some 0 }) ∨
    (∃ f i t, l = .face f ∧ s.face = some i ∧ s.table = some t ∧
      s' = { s with
        table := some (afterFace src t f i)
        face := some (i + 1)
        overrun := s.overrun || decide (maxDrawNum ≤ i) }) ∨
    (∃ i t, l = .resultEnd ∧ s.face = some i ∧ s.table = some t ∧
      s' = { s with
        table := some (clearDetectRcd t).1
        face := none
        needDraw := (clearDetectRcd t).2 }) ∨
    (l = .frame ∧ s.face = none ∧ (s' = s ∨ s' = { s with table := s.table.map afterDraw })) := by
  cases l with
  | result =>
      rw [step, Option.ite_none_right_eq_some] at taken
      exact .inl ⟨rfl, (Option.some.inj taken.2).symm⟩
  | face f =>
      obtain ⟨i, index, rest⟩ := Option.bind_eq_some_iff.mp taken
      obtain ⟨t, table, result⟩ := Option.map_eq_some_iff.mp rest
      exact .inr (.inl ⟨f, i, t, rfl, index, table, result.symm⟩)
  | resultEnd =>
      obtain ⟨i, index, rest⟩ := Option.bind_eq_some_iff.mp taken
      obtain ⟨t, table, result⟩ := Option.map_eq_some_iff.mp rest
      exact .inr (.inr (.inl ⟨i, t, rfl, index, table, result.symm⟩))
  | frame =>
      rw [step, Option.ite_none_right_eq_some] at taken
      obtain ⟨idle, result⟩ := taken
      refine .inr (.inr (.inr ⟨rfl, idle, ?_⟩))
      split at result
      · exact .inr (Option.some.inj result).symm
      · exact .inl (Option.some.inj result).symm

theorem inv_step (src : Source) (s s' : State) (l : Label) (inv : Inv s)
    (taken : step src s l = some s') : Inv s' := by
  rcases step_cases src s s' l taken with ⟨-, rfl⟩ | ⟨f, i, t, -, index, table, rfl⟩ |
    ⟨i, t, -, index, table, rfl⟩ | ⟨-, idle, rfl | rfl⟩
  · constructor
    · rintro t ⟨⟩
      exact firstActive_init
    · rintro t ⟨⟩ -
      exact allActive_init
  · constructor
    · rintro t' ⟨⟩
      exact firstActive_afterFace src t f i (inv.first t table)
    · rintro t' ⟨⟩ -
      exact allActive_afterFace src t f i (inv.active t table (by rw [index]; rfl))
  · constructor
    · rintro t' ⟨⟩
      rw [inv.clear_eq i t index table]
      exact inv.first t table
    · rintro t' - ⟨⟩
  · exact inv
  · constructor
    · intro t' listed
      obtain ⟨t, table, rfl⟩ := Option.map_eq_some_iff.mp listed
      exact firstActive_afterDraw t (inv.first t table)
    · intro t' _ reading
      rw [idle] at reading
      cases reading

theorem drawable_iff (src : Source) (s : State) (inv : Inv s) :
    Drawable src s ↔
      s.overrun = false ∧ ∀ t ∈ s.table, ∀ r ∈ drawn t, InFrame src r := by
  constructor
  · intro good
    exact ⟨good.inTable, good.inFrame⟩
  · rintro ⟨inTable, inFrame⟩
    exact ⟨inTable, inFrame, fun t table => (inv.first t table).distinct⟩

theorem drawable_step_iff (src : Source) (s : State) (l : Label) (s' : State) (inv : Inv s)
    (good : Drawable src s) (taken : step src s l = some s') :
    Drawable src s' ↔ Admits src s l := by
  rw [drawable_iff src s' (inv_step src s s' l inv taken)]
  rcases step_cases src s s' l taken with ⟨rfl, rfl⟩ | ⟨f, i, t, rfl, index, table, rfl⟩ |
    ⟨i, t, rfl, index, table, rfl⟩ | ⟨rfl, idle, rfl | rfl⟩
  · refine iff_of_true ⟨good.inTable, ?_⟩ trivial
    rintro t ⟨⟩
    rw [drawn_init]
    exact List.forall_mem_nil _
  · simp only [Admits, index, table, Option.mem_some_iff, forall_eq', good.inTable,
      Bool.false_or, decide_eq_false_iff_not, not_le]
    rw [drawn_afterFace_iff src t f i (good.inFrame t table)]
  · refine iff_of_true ⟨good.inTable, ?_⟩ trivial
    rintro t' ⟨⟩
    rw [inv.clear_eq i t index table]
    exact good.inFrame t table
  · exact iff_of_true ⟨good.inTable, good.inFrame⟩ trivial
  · refine iff_of_true ⟨good.inTable, ?_⟩ trivial
    intro t' listed
    obtain ⟨t, table, rfl⟩ := Option.map_eq_some_iff.mp listed
    exact drawn_afterDraw src t (good.inFrame t table)

theorem inv_opened : Inv opened := by
  constructor <;> rintro t ⟨⟩

theorem drawable_opened (src : Source) : Drawable src opened := by
  constructor
  · rfl
  all_goals rintro t ⟨⟩

/-- The frames can be drawn throughout a run exactly when every face is one that the table can
take. -/
theorem drawable_always_iff (src : Source) (ls : List Label) (last : State)
    (reached : exec (step src) opened ls = some last) :
    (∀ initial, initial <+: ls → ∀ s, exec (step src) opened initial = some s → Drawable src s) ↔
      StepsMeet (step src) (Admits src) opened ls :=
  always_iff_stepsMeet_of_inv (step src) Inv (Drawable src) (Admits src)
    (fun s l s' => inv_step src s s' l) (drawable_step_iff src) ls opened last inv_opened
    (drawable_opened src) reached

def fullHdSource : Source := ⟨1920, 1080, by decide, by decide, by decide, by decide⟩

def middleFace : Detected :=
  ⟨1, ⟨200, 100, 300, 220⟩, .one, by decide, by decide, by decide, by decide, by decide, by decide⟩

def cornerFace : Detected :=
  ⟨1, ⟨0, 0, 20, 20⟩, .one, by decide, by decide, by decide, by decide, by decide, by decide⟩

theorem middleFace_drawable :
    (exec (step fullHdSource) opened [.result, .face middleFace, .resultEnd, .frame]).isSome ∧
      ∀ initial, initial <+: [.result, .face middleFace, .resultEnd, .frame] →
        ∀ s, exec (step fullHdSource) opened initial = some s → Drawable fullHdSource s := by
  refine ⟨rfl, (drawable_always_iff fullHdSource _ _ rfl).mpr ?_⟩
  refine ⟨trivial, ?_⟩
  rintro s ⟨⟩
  refine ⟨?_, ?_⟩
  · rintro i ⟨⟩ t ⟨⟩
    refine ⟨by decide, fun k _ _ => ?_⟩
    have away : (detectRcdListInit k).moved middleFace.box = true :=
      show Record.cleared.moved middleFace.box = true by decide
    rw [if_pos away]
    exact ⟨.inl (by decide), .inl (by decide)⟩
  · rintro s ⟨⟩
    refine ⟨trivial, ?_⟩
    rintro s ⟨⟩
    refine ⟨trivial, ?_⟩
    rintro s ⟨⟩
    trivial

theorem cornerFace_without_size :
    ∃ s, exec (step fullHdSource) opened [.result, .face cornerFace, .resultEnd] = some s ∧
      s.needDraw = true ∧
        (∃ t ∈ s.table, (drawn t).map (fun r => (r.x, r.y, r.width, r.height)) = [(0, 0, 0, 0)]) ∧
          ¬ Drawable fullHdSource s := by
  refine ⟨_, rfl, by decide, ⟨_, rfl, by decide⟩, fun good => ?_⟩
  have fits := (forall_drawn_iff fullHdSource _).mp (good.inFrame _ rfl) ⟨0, by decide⟩ (by decide)
  exact absurd fits.1.size_pos (by decide)

/-- A face that every table can take: it is not within `detectRectDiff` of the empty box, and its
box has room. -/
def Ample (src : Source) (s : State) : Label → Prop
  | .face f => (∀ i ∈ s.face, i < maxDrawNum) ∧
      (detectRectDiff < f.box.right ∨ detectRectDiff < f.box.bottom) ∧ RoomLeft src f.box
  | _ => True

/-- A record is as `detectRcdListInit` leaves it or has a frame that can be drawn. -/
def Settled (src : Source) (t : Table) : Prop :=
  ∀ k, InFrame src (t k) ∨ ((t k).box = Record.cleared.box ∧ (t k).id < 0)

theorem settled_afterFace (src : Source) (t : Table) (f : Detected) (i : Nat)
    (settled : Settled src t)
    (large : detectRectDiff < f.box.right ∨ detectRectDiff < f.box.bottom)
    (room : RoomLeft src f.box) : Settled src (afterFace src t f i) := by
  intro l
  simp only [afterFace, setScore_id, setScore_box, inFrame_setScore]
  rcases updateDetectRcd_cases src t f with ⟨-, same⟩ | ⟨k, -, entered⟩
  · rw [same]
    exact settled l
  · rw [entered]
    by_cases here : l = k
    · subst here
      rw [Function.update_self, inFrame_update_iff]
      refine .inl ?_
      split
      · exact room
      · next near =>
          refine (settled l).resolve_right fun empty => near ?_
          have right := le_abs_self f.box.right
          have bottom := le_abs_self f.box.bottom
          simp only [Record.moved, empty.1, Record.cleared, sub_zero, decide_eq_true_iff]
          omega
    · rw [Function.update_of_ne here]
      exact settled l

theorem settled_afterDraw (src : Source) (t : Table) (settled : Settled src t) :
    Settled src (afterDraw t) := by
  intro k
  rw [afterDraw]
  split
  · exact settled k
  · exact settled k

theorem drawable_of_settled (src : Source) (s : State) (inv : Inv s) (inTable : s.overrun = false)
    (settled : ∀ t ∈ s.table, Settled src t) : Drawable src s := by
  rw [drawable_iff src s inv]
  refine ⟨inTable, fun t table => ?_⟩
  rw [forall_drawn_iff]
  intro k shown
  refine (settled t table k).resolve_right fun empty => ?_
  exact absurd shown.1 (not_le.mpr empty.2)

theorem settled_step (src : Source) (s : State) (l : Label) (s' : State) (ample : Ample src s l)
    (start : Inv s ∧ s.overrun = false ∧ ∀ t ∈ s.table, Settled src t)
    (taken : step src s l = some s') :
    Inv s' ∧ s'.overrun = false ∧ ∀ t ∈ s'.table, Settled src t := by
  obtain ⟨inv, inTable, settled⟩ := start
  refine ⟨inv_step src s s' l inv taken, ?_⟩
  rcases step_cases src s s' l taken with ⟨rfl, rfl⟩ | ⟨f, i, t, rfl, index, table, rfl⟩ |
    ⟨i, t, rfl, index, table, rfl⟩ | ⟨rfl, idle, rfl | rfl⟩
  · refine ⟨inTable, ?_⟩
    rintro t ⟨⟩
    exact fun k => .inr ⟨rfl, show (-1 : Int) < 0 by decide⟩
  · obtain ⟨bounded, large, room⟩ := ample
    have below : ¬ maxDrawNum ≤ i := not_le.mpr (bounded i index)
    refine ⟨by simp [inTable, below], ?_⟩
    rintro t' ⟨⟩
    exact settled_afterFace src t f i (settled t table) large room
  · refine ⟨inTable, ?_⟩
    rintro t' ⟨⟩
    rw [inv.clear_eq i t index table]
    exact settled t table
  · exact ⟨inTable, settled⟩
  · refine ⟨inTable, fun t' listed => ?_⟩
    obtain ⟨t, table, rfl⟩ := Option.map_eq_some_iff.mp listed
    exact settled_afterDraw src t (settled t table)

/-- At most ten faces in a result, each ample, never lead to a frame that cannot be drawn. -/
theorem drawable_of_ample (src : Source) (ls : List Label) (last : State)
    (meets : StepsMeet (step src) (Ample src) opened ls)
    (reached : exec (step src) opened ls = some last) : Drawable src last := by
  have start : Inv opened ∧ opened.overrun = false ∧ ∀ t ∈ opened.table, Settled src t := by
    refine ⟨inv_opened, rfl, ?_⟩
    rintro t ⟨⟩
  obtain ⟨inv, inTable, settled⟩ := exec_of_stepsMeet (step src) _ (Ample src)
    (settled_step src) ls opened last start meets reached
  exact drawable_of_settled src last inv inTable settled

end WfyApp.FaceFrames
