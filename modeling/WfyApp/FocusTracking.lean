import WfyApp.Streaks
import WfyApp.TrackWindow

/-! `countRectXY` of eptz_demo with its static variables: the rectangle around the faces is kept
against sudden jumps, the number of persons decides between the small and the large window, and
`clipXY` places it. Calls are listed newest first. Integers are unbounded; the float operations
other than comparisons are parameters. -/

namespace WfyApp.FocusTracking
open Streaks RunningExtremes UvcGraph FaceBounds TrackWindow

structure FloatOps where
  ofInt : Int → Binary32
  add : Binary32 → Binary32 → Binary32

structure Region where
  x : Binary32
  y : Binary32
  w : Binary32
  h : Binary32
deriving DecidableEq, Repr

def Ordered (box : Box) : Prop := box.left ≤ box.right ∧ box.top ≤ box.bottom

instance (box : Box) : Decidable (Ordered box) := inferInstanceAs (Decidable (_ ∧ _))

abbrev Rect := { box : Box // Ordered box }

structure Camera extends Sizes where
  clipWidth : Int
  clipHeigh : Int
  npuWidth_pos : 0 < npuWidth
  npuHeight_pos : 0 < npuHeight
  clipWidth_pos : 0 < clipWidth
  clipWidth_le : clipWidth ≤ srcWidth
  clipHeigh_pos : 0 < clipHeigh
  clipHeigh_le : clipHeigh ≤ srcHeight

structure Call where
  faces : List Face
  lastXY : Region
  ordered : ∀ face ∈ faces, Ordered face.box

/-- The static variables; `clip` is the corner that `clipXY` keeps. -/
structure Tracker where
  jdugeCountSing : Nat
  jdugeCountMulti : Nat
  temp : Option Rect
  fastMoveCount : Nat
  isFocus : Bool
  clip : Int × Int

def initial : Tracker := ⟨0, 0, none, 0, true, (0, 0)⟩

def fastMoveFrmaeJudge : Nat := 10

def personFrmaeJudgeSingle : Nat := 10

def personFrmaeJudgeMulti : Nat := 2

section Faces

theorem scaled_ordered (camera : Camera) (face : Face) (ordered : Ordered face.box) :
    Ordered (scaled camera.toSizes face) := by
  have src : 0 ≤ camera.srcWidth ∧ 0 ≤ camera.srcHeight :=
    ⟨camera.clipWidth_pos.le.trans camera.clipWidth_le,
      camera.clipHeigh_pos.le.trans camera.clipHeigh_le⟩
  have width := Int.tdiv_nonneg (mul_nonneg (sub_nonneg.mpr ordered.1) src.1) camera.npuWidth_pos.le
  have height :=
    Int.tdiv_nonneg (mul_nonneg (sub_nonneg.mpr ordered.2) src.2) camera.npuHeight_pos.le
  exact ⟨le_add_of_nonneg_right width, le_add_of_nonneg_right height⟩

theorem merge_ordered (result rect : Box) (ordered : Ordered result) :
    Ordered (merge countRule result rect) := by
  simp only [Ordered, merge, countRule, raise, lower] at *
  constructor <;> split_ifs <;> omega

theorem detectionLoop_ordered (camera : Camera) (threshold : Binary32) (i : Nat)
    (faces : List Face) (countPerson : Nat) (result : Box)
    (all : ∀ face ∈ faces, Ordered face.box) (ordered : Ordered result) :
    Ordered (detectionLoop countRule threshold camera.toSizes i faces (countPerson, result)).2 := by
  induction faces generalizing i countPerson result with
  | nil => exact ordered
  | cons face faces ih =>
      have rest : ∀ other ∈ faces, Ordered other.box :=
        fun other member => all other (List.mem_cons_of_mem face member)
      rw [detectionLoop]
      split
      · exact ih _ _ _ rest ordered
      · refine ih _ _ _ rest ?_
        split
        · exact scaled_ordered camera face (all face List.mem_cons_self)
        · exact merge_ordered result _ ordered

end Faces

section Calls
variable (ops : FloatOps) (camera : Camera)

def found (call : Call) : Nat × Rect :=
  let loop := detectionLoop countRule facedetectScoreThreshold camera.toSizes 0 call.faces
    (0, ⟨0, 0, 0, 0⟩)
  (loop.1, ⟨loop.2, detectionLoop_ordered camera facedetectScoreThreshold 0 call.faces 0 _
    call.ordered (by decide)⟩)

def moved (temp result : Rect) : Bool :=
  35 < |temp.val.left - result.val.left| || 35 < |temp.val.right - result.val.right| ||
    35 < |temp.val.top - result.val.top| || 35 < |temp.val.bottom - result.val.bottom|

/-- The rectangle is replaced by the kept one while it jumps, for a limited time. -/
def steady (s : Tracker) (result : Rect) : Tracker × Rect :=
  match s.temp with
  | none => ({ s with temp := some result }, result)
  | some temp =>
      if moved temp result then
        if s.fastMoveCount + 1 < fastMoveFrmaeJudge then
          ({ s with fastMoveCount := s.fastMoveCount + 1 }, temp)
        else ({ s with temp := some result, fastMoveCount := 0 }, result)
      else ({ s with temp := some result, fastMoveCount := 0 }, result)

def countPersons (s : Tracker) (countPerson : Nat) : Tracker :=
  if 1 < countPerson then
    { s with jdugeCountMulti := countOn 1000 100 s.jdugeCountMulti, jdugeCountSing := 0 }
  else
    { s with jdugeCountSing := countOn 1000 100 s.jdugeCountSing, jdugeCountMulti := 0 }

def isNeedExpand (lastXY : Region) (current : Rect) : Bool :=
  !(lastXY.x.lt (ops.ofInt current.val.left) && lastXY.y.lt (ops.ofInt current.val.top) &&
    (ops.ofInt current.val.right).lt (ops.add lastXY.x lastXY.w) &&
    (ops.ofInt current.val.bottom).lt (ops.add lastXY.y lastXY.h))

def refocus (s : Tracker) (needExpand : Bool) : Tracker :=
  let isFocus :=
    if personFrmaeJudgeMulti < s.jdugeCountMulti && needExpand then false else s.isFocus
  { s with isFocus := if personFrmaeJudgeSingle < s.jdugeCountSing then true else isFocus }

def request (isFocus : Bool) (rect : Rect) : Request where
  srcW := camera.srcWidth
  srcH := camera.srcHeight
  clipWidth := camera.clipWidth
  clipHeigh := camera.clipHeigh
  isFocues := isFocus
  rect := rect.val
  clipWidth_pos := camera.clipWidth_pos
  clipWidth_le := camera.clipWidth_le
  clipHeigh_pos := camera.clipHeigh_pos
  clipHeigh_le := camera.clipHeigh_le
  columns := rect.property.1
  rows := rect.property.2

/-- The static variables after a call, the window it gives and its result. -/
def countRectXY (s : Tracker) (call : Call) : Tracker × Region × Bool :=
  let (countPerson, rect) := found camera call
  if countPerson = 0 then (s, call.lastXY, s.isFocus)
  else
    let (s, result) := steady s rect
    let s := countPersons s countPerson
    let s := refocus s (isNeedExpand ops call.lastXY result)
    let arrayXY := clipXY s.clip (request camera s.isFocus result)
    let s := { s with clip := (arrayXY.x, arrayXY.y) }
    -- the corner stays where it is while the persons contradict the size of the window
    let contradicts := 0 < s.jdugeCountMulti && s.isFocus || 0 < s.jdugeCountSing && !s.isFocus
    (s, ⟨if contradicts then call.lastXY.x else ops.ofInt arrayXY.x,
      if contradicts then call.lastXY.y else ops.ofInt arrayXY.y,
      ops.ofInt arrayXY.w, ops.ofInt arrayXY.h⟩, s.isFocus)

def after : List Call → Tracker
  | [] => initial
  | call :: past => (countRectXY ops camera (after past) call).1

end Calls

section Persons
variable (ops : FloatOps) (camera : Camera)

theorem countOn_pos (count : Nat) : 0 < countOn 1000 100 count := by
  rw [countOn]
  split <;> omega

/-- The corner is kept if the number of persons contradicts the size of the window. -/
theorem contradicts_eq (s : Tracker) (countPerson : Nat) (expand : Bool) :
    let t := refocus (countPersons s countPerson) expand
    (0 < t.jdugeCountMulti && t.isFocus || 0 < t.jdugeCountSing && !t.isFocus) =
      (decide (1 < countPerson) == t.isFocus) := by
  intro t
  by_cases several : 1 < countPerson
  · have multi : 0 < t.jdugeCountMulti := by
      simp [t, refocus, countPersons, several, countOn_pos]
    have single : t.jdugeCountSing = 0 := by simp [t, refocus, countPersons, several]
    simp [multi, single, several]
  · have multi : t.jdugeCountMulti = 0 := by simp [t, refocus, countPersons, several]
    have single : 0 < t.jdugeCountSing := by
      simp [t, refocus, countPersons, several, countOn_pos]
    simp [multi, single, several]

theorem countPersons_clip (s : Tracker) (countPerson : Nat) :
    (countPersons s countPerson).clip = s.clip := by
  rw [countPersons]
  split <;> rfl

theorem steady_clip (s : Tracker) (result : Rect) : (steady s result).1.clip = s.clip := by
  rw [steady]
  split
  · rfl
  · split_ifs <;> rfl

def tracked (s : Tracker) (call : Call) : Tracker :=
  refocus (countPersons (steady s (found camera call).2).1 (found camera call).1)
    (isNeedExpand ops call.lastXY (steady s (found camera call).2).2)

theorem countRectXY_of_person (s : Tracker) (call : Call) (person : (found camera call).1 ≠ 0) :
    countRectXY ops camera s call =
      let t := tracked ops camera s call
      let several := decide (1 < (found camera call).1)
      let window := clipXY s.clip (request camera t.isFocus (steady s (found camera call).2).2)
      ({ t with clip := (window.x, window.y) },
        ⟨if several = t.isFocus then call.lastXY.x else ops.ofInt window.x,
          if several = t.isFocus then call.lastXY.y else ops.ofInt window.y,
          ops.ofInt window.w, ops.ofInt window.h⟩, t.isFocus) := by
  have clip : (tracked ops camera s call).clip = s.clip :=
    (countPersons_clip _ _).trans (steady_clip s _)
  have corner := contradicts_eq (steady s (found camera call).2).1 (found camera call).1
    (isNeedExpand ops call.lastXY (steady s (found camera call).2).2)
  rw [tracked] at clip
  simp only [countRectXY, person, if_false, tracked, corner, clip, beq_iff_eq]
  rfl

end Persons

/-! What the calls with a person have shown, newest first. -/

section Histories
variable (ops : FloatOps) (camera : Camera)

def rects (calls : List Call) : List Rect :=
  (calls.filter fun call => 0 < (found camera call).1).map fun call => (found camera call).2

def near (kept result : Rect) : Bool := !moved kept result

def kept (s : Tracker) : Option (Rect × Nat) := s.temp.map fun temp => (temp, s.fastMoveCount)

structure Result where
  several : Bool
  expand : Bool
deriving DecidableEq, Repr

def results : List Call → List Result
  | [] => []
  | call :: past =>
      if (found camera call).1 = 0 then results past
      else ⟨1 < (found camera call).1, isNeedExpand ops call.lastXY
        (steady (after ops camera past) (found camera call).2).2⟩ :: results past

def severals (history : List Result) : Nat := streak (fun result => result.several) history

def singles (history : List Result) : Nat := streak (fun result => !result.several) history

/-- At least three results in a row with several persons, who do not fit into the window now. -/
def loses (history : List Result) : Bool :=
  personFrmaeJudgeMulti < severals history && history.head?.any fun newest => newest.expand

/-- At least eleven results in a row with one person. -/
def regains (history : List Result) : Bool := personFrmaeJudgeSingle < singles history

structure Inv (s : Tracker) (seen : List Rect) (history : List Result) : Prop where
  kept : kept s = held near fastMoveFrmaeJudge seen
  fresh : s.temp = none → s.fastMoveCount = 0
  single : Counts 100 s.jdugeCountSing (singles history)
  multi : Counts 100 s.jdugeCountMulti (severals history)
  focus : s.isFocus = switch regains loses history

theorem inv_initial : Inv initial [] [] :=
  ⟨rfl, fun _ => rfl, counts_zero, counts_zero, rfl⟩

theorem steady_eq (s : Tracker) (result : Rect) (fresh : s.temp = none → s.fastMoveCount = 0) :
    steady s result =
      let next := keep near fastMoveFrmaeJudge (kept s) result
      ({ s with temp := some next.1, fastMoveCount := next.2 }, next.1) := by
  obtain ⟨sing, multi, temp, fast, isFocus, clip⟩ := s
  cases temp with
  | none =>
      cases fresh rfl
      rfl
  | some temp =>
      by_cases jump : moved temp result = true
      · simp only [steady, kept, Option.map_some, keep, near, jump, if_true, Bool.not_true,
          Bool.false_eq_true, if_false]
        split_ifs <;> rfl
      · simp [steady, kept, keep, near, jump]

@[simp] theorem countPersons_temp (s : Tracker) (countPerson : Nat) :
    (countPersons s countPerson).temp = s.temp := by
  rw [countPersons]
  split <;> rfl

@[simp] theorem countPersons_fastMoveCount (s : Tracker) (countPerson : Nat) :
    (countPersons s countPerson).fastMoveCount = s.fastMoveCount := by
  rw [countPersons]
  split <;> rfl

@[simp] theorem countPersons_isFocus (s : Tracker) (countPerson : Nat) :
    (countPersons s countPerson).isFocus = s.isFocus := by
  rw [countPersons]
  split <;> rfl

theorem countPersons_counts (s : Tracker) (history : List Result) (countPerson : Nat)
    (expand : Bool) (single : Counts 100 s.jdugeCountSing (singles history))
    (multi : Counts 100 s.jdugeCountMulti (severals history)) :
    Counts 100 (countPersons s countPerson).jdugeCountSing
        (singles (⟨1 < countPerson, expand⟩ :: history)) ∧
      Counts 100 (countPersons s countPerson).jdugeCountMulti
        (severals (⟨1 < countPerson, expand⟩ :: history)) := by
  by_cases several : 1 < countPerson
  · simpa [countPersons, singles, severals, streak, several, counts_zero] using
      counts_countOn (by decide) multi
  · simpa [countPersons, singles, severals, streak, several, counts_zero] using
      counts_countOn (by decide) single

theorem refocus_isFocus (s : Tracker) (newest : Result) (history : List Result)
    (single : Counts 100 s.jdugeCountSing (singles (newest :: history)))
    (multi : Counts 100 s.jdugeCountMulti (severals (newest :: history)))
    (before : s.isFocus = switch regains loses history) :
    (refocus s newest.expand).isFocus = switch regains loses (newest :: history) := by
  have enough : personFrmaeJudgeSingle < s.jdugeCountSing ↔
      personFrmaeJudgeSingle < singles (newest :: history) := counts_lt_iff single (by decide)
  have many : personFrmaeJudgeMulti < s.jdugeCountMulti ↔
      personFrmaeJudgeMulti < severals (newest :: history) := counts_lt_iff multi (by decide)
  simp [refocus, switch, regains, loses, enough, many, before]

theorem inv_tracked (s : Tracker) (seen : List Rect) (history : List Result)
    (inv : Inv s seen history) (call : Call) :
    Inv (tracked ops camera s call) ((found camera call).2 :: seen)
      (⟨1 < (found camera call).1,
        isNeedExpand ops call.lastXY (steady s (found camera call).2).2⟩ :: history) := by
  have entry : held near fastMoveFrmaeJudge ((found camera call).2 :: seen) =
      some (keep near fastMoveFrmaeJudge (kept s) (found camera call).2) := by
    rw [held, inv.kept]
  rw [tracked, steady_eq s (found camera call).2 inv.fresh]
  generalize keep near fastMoveFrmaeJudge (kept s) (found camera call).2 = next at entry
  obtain ⟨single, multi⟩ := countPersons_counts
    { s with temp := some next.1, fastMoveCount := next.2 } history (found camera call).1
    (isNeedExpand ops call.lastXY next.1) inv.single inv.multi
  refine ⟨?_, ?_, single, multi, refocus_isFocus _ _ _ single multi ?_⟩
  · simp [refocus, kept, entry]
  · simp [refocus]
  · simpa using inv.focus

theorem rects_cons_of_none (call : Call) (past : List Call) (none : (found camera call).1 = 0) :
    rects camera (call :: past) = rects camera past := by
  simp [rects, none]

theorem rects_cons_of_some (call : Call) (past : List Call) (some : (found camera call).1 ≠ 0) :
    rects camera (call :: past) = (found camera call).2 :: rects camera past := by
  simp [rects, Nat.pos_of_ne_zero some]

theorem inv_after (calls : List Call) :
    Inv (after ops camera calls) (rects camera calls) (results ops camera calls) := by
  induction calls with
  | nil => exact inv_initial
  | cons call past ih =>
      by_cases none : (found camera call).1 = 0
      · rw [rects_cons_of_none camera call past none, after, countRectXY, results]
        simpa [none] using ih
      · have step := inv_tracked ops camera _ _ _ ih call
        rw [rects_cons_of_some camera call past none, results, if_neg none, after,
          countRectXY_of_person ops camera _ call none]
        exact ⟨step.kept, step.fresh, step.single, step.multi, step.focus⟩

/-- The rectangle for which the window is placed is one of the ten newest, and all newer ones
have jumped away from it. -/
theorem steady_recent (past : List Call) (rect : Rect) :
    ∃ k < fastMoveFrmaeJudge,
      (rect :: rects camera past)[k]? = some (steady (after ops camera past) rect).2 ∧
      ∀ newer ∈ (rect :: rects camera past).take k,
        moved (steady (after ops camera past) rect).2 newer = true := by
  have inv := inv_after ops camera past
  have entry : held near fastMoveFrmaeJudge (rect :: rects camera past) =
      some (keep near fastMoveFrmaeJudge (kept (after ops camera past)) rect) := by
    rw [held, inv.kept]
  rw [steady_eq _ rect inv.fresh]
  generalize keep near fastMoveFrmaeJudge (kept (after ops camera past)) rect = next at entry
  obtain ⟨recent, member, far⟩ :=
    held_spec near fastMoveFrmaeJudge (by decide) _ next.1 next.2 entry
  exact ⟨next.2, recent, member, fun newer among => by simpa [near] using far newer among⟩

/-- The window of a call with a person has the size of the focus mode. Its corner stays where it
was if there are several persons in the small window or one in the large one; otherwise `clipXY`
places it inside the frame, for a rectangle that was found at most nine results ago and from
which all newer ones have jumped away. -/
theorem window_of_recent_rect (call : Call) (past : List Call)
    (person : (found camera call).1 ≠ 0) :
    ∃ rect k, k < fastMoveFrmaeJudge ∧ (rects camera (call :: past))[k]? = some rect ∧
      (∀ newer ∈ (rects camera (call :: past)).take k, moved rect newer = true) ∧
      let focus := (after ops camera (call :: past)).isFocus
      let window := clipXY (after ops camera past).clip (request camera focus rect)
      (0 ≤ window.x ∧ window.x + window.w ≤ camera.srcWidth) ∧
      (0 ≤ window.y ∧ window.y + window.h ≤ camera.srcHeight) ∧
      (countRectXY ops camera (after ops camera past) call).2 =
        (⟨if decide (1 < (found camera call).1) = focus then call.lastXY.x else ops.ofInt window.x,
          if decide (1 < (found camera call).1) = focus then call.lastXY.y else ops.ofInt window.y,
          ops.ofInt window.w, ops.ofInt window.h⟩, focus) := by
  obtain ⟨k, recent, member, far⟩ := steady_recent ops camera past (found camera call).2
  rw [← rects_cons_of_some camera call past person] at member far
  refine ⟨_, k, recent, member, far, ?_⟩
  rw [after, countRectXY_of_person ops camera _ call person]
  have inside := clipXY_inside (request camera (tracked ops camera (after ops camera past) call).isFocus
    (steady (after ops camera past) (found camera call).2).2) (after ops camera past).clip
  exact ⟨inside.1, inside.2, rfl⟩

end Histories

def units (x : Binary32) : Int :=
  let exponent := x.magnitude / 2 ^ 23
  let size : Nat :=
    if exponent = 0 then x.magnitude
    else (2 ^ 23 + x.magnitude % 2 ^ 23) * 2 ^ (exponent - 1)
  if x.bits.msb then -size else size

/-- The nearest float, the even one of two. -/
def nearestFloat (n : Int) : Binary32 :=
  let shift := n.natAbs.log2 - 23
  let kept := n.natAbs / 2 ^ shift
  let rest := 2 * (n.natAbs % 2 ^ shift)
  let up := decide (2 ^ shift < rest) || rest == 2 ^ shift && kept % 2 == 1
  let size := min (shift * 2 ^ 23 + kept + up.toNat) 0x7f800000
  ⟨BitVec.ofNat 32 (if n < 0 then 2 ^ 31 + size else size)⟩

/-- The operations of the hardware on numbers that are finite. -/
def hardware : FloatOps where
  ofInt n := nearestFloat (n * 2 ^ 149)
  add a b := nearestFloat (units a + units b)

example : hardware.ofInt 1 = .one ∧ hardware.ofInt 5 = .five ∧
    hardware.ofInt (2 ^ 24 + 1) = hardware.ofInt (2 ^ 24) ∧
    hardware.add .one (hardware.ofInt 4) = .five := by
  decide +kernel

def demoCamera : Camera where
  srcWidth := 2592
  srcHeight := 1944
  npuWidth := 648
  npuHeight := 486
  npuWidth_ne := by decide
  npuHeight_ne := by decide
  clipWidth := 1296
  clipHeigh := 972
  npuWidth_pos := by decide
  npuHeight_pos := by decide
  clipWidth_pos := by decide
  clipWidth_le := by decide
  clipHeigh_pos := by decide
  clipHeigh_le := by decide

def middleRegion : Region :=
  ⟨hardware.ofInt 648, hardware.ofInt 486, hardware.ofInt 1296, hardware.ofInt 972⟩

def twoPersons : Call where
  faces := [⟨⟨10, 100, 60, 150⟩, .one⟩, ⟨⟨300, 100, 350, 150⟩, .one⟩]
  lastXY := middleRegion
  ordered := by decide +kernel

theorem window_of_recent_rect_twoPersons :
    (found demoCamera twoPersons).1 ≠ 0 ∧
    ∃ rect k, k < fastMoveFrmaeJudge ∧
      (rects demoCamera [twoPersons, twoPersons])[k]? = some rect ∧
      (∀ newer ∈ (rects demoCamera [twoPersons, twoPersons]).take k, moved rect newer = true) ∧
      let focus := (after hardware demoCamera [twoPersons, twoPersons]).isFocus
      let window := clipXY (after hardware demoCamera [twoPersons]).clip
        (request demoCamera focus rect)
      (0 ≤ window.x ∧ window.x + window.w ≤ demoCamera.srcWidth) ∧
      (0 ≤ window.y ∧ window.y + window.h ≤ demoCamera.srcHeight) ∧
      (countRectXY hardware demoCamera (after hardware demoCamera [twoPersons]) twoPersons).2 =
        (⟨if decide (1 < (found demoCamera twoPersons).1) = focus then twoPersons.lastXY.x
            else hardware.ofInt window.x,
          if decide (1 < (found demoCamera twoPersons).1) = focus then twoPersons.lastXY.y
            else hardware.ofInt window.y,
          hardware.ofInt window.w, hardware.ofInt window.h⟩, focus) :=
  ⟨by decide +kernel,
    window_of_recent_rect hardware demoCamera twoPersons [twoPersons] (by decide +kernel)⟩

/-- The focus is lost exactly if at some result there had been three in a row with several
persons, who did not fit into the window, and there have never been eleven in a row with one
person since; the counters that fall back from 1000 to 100 do not disturb this. -/
theorem focus_lost_iff (ops : FloatOps) (camera : Camera) (calls : List Call) :
    (after ops camera calls).isFocus = false ↔
      ∃ past, past <:+ results ops camera calls ∧ loses past = true ∧
        ∀ later, past <:+ later → later <:+ results ops camera calls → regains later = false := by
  rw [(inv_after ops camera calls).focus]
  exact switch_eq_false_iff regains loses rfl (results ops camera calls)

/-- The third such result in a row opens the large window. -/
example : (after hardware demoCamera [twoPersons, twoPersons]).isFocus = true ∧
    (after hardware demoCamera [twoPersons, twoPersons, twoPersons]).isFocus = false := by
  decide +kernel

end WfyApp.FocusTracking
