import WfyApp.FaceBounds

/-! The window that follows a face in eptz_demo: `clipXY` with the corner that its static array
keeps from call to call. -/

namespace WfyApp.TrackWindow
open FaceBounds

/-- The arguments of a call: the frame, the window of the focus mode, and a face box whose
corners may lie outside the frame. -/
structure Request where
  srcW : Int
  srcH : Int
  clipWidth : Int
  clipHeigh : Int
  isFocues : Bool
  rect : Box
  clipWidth_pos : 0 < clipWidth
  clipWidth_le : clipWidth ≤ srcW
  clipHeigh_pos : 0 < clipHeigh
  clipHeigh_le : clipHeigh ≤ srcH
  columns : rect.left ≤ rect.right
  rows : rect.top ≤ rect.bottom

structure Window where
  x : Int
  y : Int
  w : Int
  h : Int
deriving DecidableEq, Repr

def windowSize (isFocues : Bool) (src clip : Int) : Int :=
  if isFocues then clip else clip + (src - clip).tdiv 4 * 3

namespace Request
variable (r : Request)

def clipW : Int := windowSize r.isFocues r.srcW r.clipWidth

def clipH : Int := windowSize r.isFocues r.srcH r.clipHeigh

def width : Int := r.rect.right - r.rect.left

def height : Int := r.rect.bottom - r.rect.top

/-- The nine cases, with the corner of the window in each. -/
def corner : Option (Int × Int) :=
  let x := r.rect.left
  let y := r.rect.top
  let halfW := r.clipW.tdiv 2
  let halfH := r.clipH.tdiv 2
  let midW := r.width.tdiv 2
  let midH := r.height.tdiv 2
  if 0 ≤ x ∧ x ≤ halfW - midW then
    if 0 ≤ y ∧ y ≤ halfH - midH then some (0, 0)
    else if halfH - midH < y ∧ y ≤ r.srcH - halfH + midH then some (0, y + midH - halfH)
    else if r.srcH - halfH - midH < y ∧ y ≤ r.srcH then some (0, r.srcH - r.clipH)
    else none
  else if halfW - midW < x ∧ x ≤ r.srcW - halfW + midW then
    if 0 ≤ y ∧ y ≤ halfH - midH then some (x + midW - halfW, 0)
    else if halfH - midH ≤ y ∧ y ≤ r.srcH - halfH + midH then
      some (x + midW - halfW, y + midH - halfH)
    else if r.srcH - halfH + midH ≤ y ∧ y ≤ r.srcH then
      some (x + midW - halfW, r.srcH - r.clipH)
    else none
  else if r.srcW - halfW + midW < x ∧ x ≤ r.srcW then
    if 0 ≤ y ∧ y ≤ halfH - midH then some (r.srcW - r.clipW, 0)
    else if halfH - midH < y ∧ y ≤ r.srcH - halfH + midH then
      some (r.srcW - r.clipW, y + midH - halfH)
    else if r.srcH - halfH - midH < y ∧ y ≤ r.srcH then
      some (r.srcW - r.clipW, r.srcH - r.clipH)
    else none
  else none

end Request

def limit (value high : Int) : Int :=
  let value := if high < value then high else value
  if value < 0 then 0 else value

/-- A call; `result` is the corner that the static array holds, and it stays in no case. -/
def clipXY (result : Int × Int) (r : Request) : Window :=
  let (x, y) := r.corner.getD result
  ⟨limit x (r.srcW - r.clipW), limit y (r.srcH - r.clipH), r.clipW, r.clipH⟩

def staticCorner (calls : List Request) : Int × Int :=
  calls.foldl (fun result r => ((clipXY result r).x, (clipXY result r).y)) (0, 0)

section Cases
variable (r : Request)

theorem windowSize_bounds (isFocues : Bool) (src clip : Int) (positive : 0 < clip)
    (fits : clip ≤ src) :
    0 < windowSize isFocues src clip ∧ windowSize isFocues src clip ≤ src := by
  rw [windowSize, Int.tdiv_eq_ediv_of_nonneg (by omega)]
  cases isFocues
  · simp only [Bool.false_eq_true, if_false]
    omega
  · exact ⟨positive, fits⟩

theorem windowSize_eq_iff (isFocues : Bool) (src clip : Int) (fits : clip ≤ src) :
    windowSize isFocues src clip = src ↔ clip = src := by
  rw [windowSize, Int.tdiv_eq_ediv_of_nonneg (by omega)]
  cases isFocues
  · simp only [Bool.false_eq_true, if_false]
    omega
  · exact Iff.rfl

theorem limit_eq (value high : Int) (nonneg : 0 ≤ high) :
    limit value high = max 0 (min high value) := by
  simp only [limit]
  omega

def Middle (low size src clip : Int) : Prop :=
  clip / 2 - size / 2 < low ∧ low ≤ src - clip / 2 + size / 2

def CaughtX : Prop :=
  (0 ≤ r.rect.left ∧ r.rect.left ≤ r.srcW) ∨ Middle r.rect.left r.width r.srcW r.clipW

/-- In the middle column the rows begin one pixel earlier. -/
def CaughtY : Prop :=
  (0 ≤ r.rect.top ∧ r.rect.top ≤ r.srcH) ∨ Middle r.rect.top r.height r.srcH r.clipH ∨
    (Middle r.rect.left r.width r.srcW r.clipW ∧ r.rect.top = r.clipH / 2 - r.height / 2)

def target (low size src clip : Int) : Int := max 0 (min (src - clip) (low + size / 2 - clip / 2))

section Sides
variable (low size src clip : Int) (fits : clip ≤ src)
include fits

theorem target_low (early : low ≤ clip / 2 - size / 2) :
    limit 0 (src - clip) = target low size src clip := by
  rw [limit_eq 0 (src - clip) (by omega), target]
  omega

theorem target_middle : limit (low + size / 2 - clip / 2) (src - clip) = target low size src clip :=
  limit_eq _ _ (by omega)

theorem target_high (nonneg : 0 ≤ size) (late : src - clip / 2 + size / 2 ≤ low) :
    limit (src - clip) (src - clip) = target low size src clip := by
  rw [limit_eq _ _ (by omega), target]
  omega

end Sides

structure Sized : Prop where
  clipW_pos : 0 < r.clipW
  clipW_le : r.clipW ≤ r.srcW
  clipH_pos : 0 < r.clipH
  clipH_le : r.clipH ≤ r.srcH
  width_nonneg : 0 ≤ r.width
  height_nonneg : 0 ≤ r.height

theorem sized : Sized r := by
  have columns := r.columns
  have rows := r.rows
  have horizontal := windowSize_bounds r.isFocues r.srcW r.clipWidth r.clipWidth_pos r.clipWidth_le
  have vertical := windowSize_bounds r.isFocues r.srcH r.clipHeigh r.clipHeigh_pos r.clipHeigh_le
  exact ⟨horizontal.1, horizontal.2, vertical.1, vertical.2, by rw [Request.width]; omega,
    by rw [Request.height]; omega⟩

theorem corner_of_caught (caughtX : CaughtX r) (caughtY : CaughtY r) :
    ∃ corner, r.corner = some corner ∧
      limit corner.1 (r.srcW - r.clipW) = target r.rect.left r.width r.srcW r.clipW ∧
      limit corner.2 (r.srcH - r.clipH) = target r.rect.top r.height r.srcH r.clipH := by
  obtain ⟨clipW_pos, clipW_le, clipH_pos, clipH_le, width_nonneg, height_nonneg⟩ := sized r
  have middleX := target_middle r.rect.left r.width r.srcW r.clipW clipW_le
  have middleY := target_middle r.rect.top r.height r.srcH r.clipH clipH_le
  have lowX := target_low r.rect.left r.width r.srcW r.clipW clipW_le
  have lowY := target_low r.rect.top r.height r.srcH r.clipH clipH_le
  have highX := target_high r.rect.left r.width r.srcW r.clipW clipW_le width_nonneg
  have highY := target_high r.rect.top r.height r.srcH r.clipH clipH_le height_nonneg
  simp only [Request.corner, Int.tdiv_eq_ediv_of_nonneg clipW_pos.le,
    Int.tdiv_eq_ediv_of_nonneg clipH_pos.le, Int.tdiv_eq_ediv_of_nonneg width_nonneg,
    Int.tdiv_eq_ediv_of_nonneg height_nonneg]
  rw [CaughtX, Middle] at caughtX
  rw [CaughtY, Middle, Middle] at caughtY
  split_ifs
  · exact ⟨_, rfl, lowX (by omega), lowY (by omega)⟩
  · exact ⟨_, rfl, lowX (by omega), middleY⟩
  · exact ⟨_, rfl, lowX (by omega), highY (by omega)⟩
  · omega
  · exact ⟨_, rfl, middleX, lowY (by omega)⟩
  · exact ⟨_, rfl, middleX, middleY⟩
  · exact ⟨_, rfl, middleX, highY (by omega)⟩
  · omega
  · exact ⟨_, rfl, highX (by omega), lowY (by omega)⟩
  · exact ⟨_, rfl, highX (by omega), middleY⟩
  · exact ⟨_, rfl, highX (by omega), highY (by omega)⟩
  · omega
  · omega

theorem corner_of_missed (missed : ¬(CaughtX r ∧ CaughtY r)) : r.corner = none := by
  obtain ⟨clipW_pos, clipW_le, clipH_pos, clipH_le, width_nonneg, height_nonneg⟩ := sized r
  simp only [Request.corner, Int.tdiv_eq_ediv_of_nonneg clipW_pos.le,
    Int.tdiv_eq_ediv_of_nonneg clipH_pos.le, Int.tdiv_eq_ediv_of_nonneg width_nonneg,
    Int.tdiv_eq_ediv_of_nonneg height_nonneg]
  rw [CaughtX, CaughtY, Middle, Middle] at missed
  split_ifs <;> first | rfl | omega

end Cases

section Calls
variable (r : Request)

/-- The window of the mode's size inside the frame whose corner is the clamped one. -/
structure FollowsFace (window : Window) : Prop where
  w : window.w = r.clipW
  h : window.h = r.clipH
  insideX : 0 ≤ window.x ∧ window.x + window.w ≤ r.srcW
  insideY : 0 ≤ window.y ∧ window.y + window.h ≤ r.srcH
  x : window.x = target r.rect.left r.width r.srcW r.clipW
  y : window.y = target r.rect.top r.height r.srcH r.clipH

theorem limit_bounds (value high : Int) (nonneg : 0 ≤ high) :
    0 ≤ limit value high ∧ limit value high ≤ high := by
  rw [limit_eq value high nonneg]
  omega

theorem clipXY_inside (result : Int × Int) :
    (0 ≤ (clipXY result r).x ∧ (clipXY result r).x + r.clipW ≤ r.srcW) ∧
      (0 ≤ (clipXY result r).y ∧ (clipXY result r).y + r.clipH ≤ r.srcH) := by
  have sizes := sized r
  have boundsX := limit_bounds (r.corner.getD result).1 (r.srcW - r.clipW) (by
    have := sizes.clipW_le
    omega)
  have boundsY := limit_bounds (r.corner.getD result).2 (r.srcH - r.clipH) (by
    have := sizes.clipH_le
    omega)
  simp only [clipXY]
  omega

theorem followsFace_iff (result : Int × Int) :
    FollowsFace r (clipXY result r) ↔
      (clipXY result r).x = target r.rect.left r.width r.srcW r.clipW ∧
        (clipXY result r).y = target r.rect.top r.height r.srcH r.clipH :=
  ⟨fun follows => ⟨follows.x, follows.y⟩, fun corner =>
    ⟨rfl, rfl, (clipXY_inside r result).1, (clipXY_inside r result).2, corner.1, corner.2⟩⟩

theorem clipXY_of_caught (caughtX : CaughtX r) (caughtY : CaughtY r) (result : Int × Int) :
    FollowsFace r (clipXY result r) := by
  obtain ⟨corner, applies, x, y⟩ := corner_of_caught r caughtX caughtY
  rw [followsFace_iff, clipXY, applies]
  exact ⟨x, y⟩

theorem clipXY_of_missed (missed : ¬(CaughtX r ∧ CaughtY r)) (result : Int × Int) :
    ((clipXY result r).x, (clipXY result r).y) =
      (limit result.1 (r.srcW - r.clipW), limit result.2 (r.srcH - r.clipH)) := by
  rw [clipXY, corner_of_missed r missed]
  rfl

def WholeFrame : Prop := r.clipWidth = r.srcW ∧ r.clipHeigh = r.srcH

theorem wholeFrame_iff : WholeFrame r ↔ r.clipW = r.srcW ∧ r.clipH = r.srcH := by
  rw [WholeFrame, Request.clipW, Request.clipH, windowSize_eq_iff _ _ _ r.clipWidth_le,
    windowSize_eq_iff _ _ _ r.clipHeigh_le]

theorem clipXY_of_wholeFrame (whole : WholeFrame r) (result : Int × Int) :
    FollowsFace r (clipXY result r) := by
  obtain ⟨wide, high⟩ := (wholeFrame_iff r).mp whole
  have inside := clipXY_inside r result
  rw [wide, high] at inside
  rw [followsFace_iff, target, target, wide, high]
  omega

def farCorner : Request :=
  { r with
    rect := ⟨r.srcW, r.srcH, r.srcW, r.srcH⟩
    columns := le_rfl
    rows := le_rfl }

theorem staticCorner_farCorner :
    staticCorner [farCorner r] = (r.srcW - r.clipW, r.srcH - r.clipH) := by
  have sizes := sized r
  have positive := sizes.clipW_pos
  have fits := sizes.clipW_le
  have positive' := sizes.clipH_pos
  have fits' := sizes.clipH_le
  have follows := clipXY_of_caught (farCorner r) (.inl ⟨by change 0 ≤ r.srcW; omega, le_rfl⟩)
    (.inl ⟨by change 0 ≤ r.srcH; omega, le_rfl⟩) (0, 0)
  have x := follows.x
  have y := follows.y
  change (clipXY (0, 0) (farCorner r)).x = target r.srcW (r.srcW - r.srcW) r.srcW r.clipW at x
  change (clipXY (0, 0) (farCorner r)).y = target r.srcH (r.srcH - r.srcH) r.srcH r.clipH at y
  change ((clipXY (0, 0) (farCorner r)).x, (clipXY (0, 0) (farCorner r)).y) = _
  rw [x, y, target, target, Prod.mk.injEq]
  omega

/-- The window follows the face whatever was called before exactly if one of the cases applies,
or the window is the whole frame. -/
theorem followsFace_always_iff :
    (∀ earlier, FollowsFace r (clipXY (staticCorner earlier) r)) ↔
      (CaughtX r ∧ CaughtY r) ∨ WholeFrame r := by
  constructor
  · intro always
    refine or_iff_not_imp_left.mpr fun missed => ?_
    -- without a case the corner is the one of the call before, so two histories give two corners
    have first := always []
    have second := always [farCorner r]
    have atStart := Prod.mk.inj (clipXY_of_missed r missed (staticCorner []))
    have afterFar := Prod.mk.inj (clipXY_of_missed r missed (staticCorner [farCorner r]))
    rw [first.x, first.y] at atStart
    rw [second.x, second.y, staticCorner_farCorner] at afterFar
    have fitsW := (sized r).clipW_le
    have fitsH := (sized r).clipH_le
    have sameX := atStart.1.symm.trans afterFar.1
    have sameY := atStart.2.symm.trans afterFar.2
    change limit 0 _ = _ at sameX sameY
    rw [limit_eq _ _ (by omega), limit_eq _ _ (by omega)] at sameX sameY
    rw [wholeFrame_iff]
    constructor <;> omega
  · rintro (⟨caughtX, caughtY⟩ | whole) earlier
    · exact clipXY_of_caught r caughtX caughtY _
    · exact clipXY_of_wholeFrame r whole _

def focused (rect : Box) (columns : rect.left ≤ rect.right) (rows : rect.top ≤ rect.bottom) :
    Request :=
  ⟨1920, 1080, 1280, 720, true, rect, by decide, by decide, by decide, by decide, columns, rows⟩

def central : Request := focused ⟨1500, 400, 1700, 600⟩ (by decide) (by decide)

def stickingOut : Request := focused ⟨-20, 400, 80, 500⟩ (by decide) (by decide)

/-- The window of the call before stays for a face that sticks out of the frame. -/
theorem stickingOut_keeps_window :
    clipXY (staticCorner [central]) stickingOut = ⟨640, 140, 1280, 720⟩ ∧
      clipXY (staticCorner []) stickingOut = ⟨0, 0, 1280, 720⟩ ∧
      ¬FollowsFace stickingOut (clipXY (staticCorner [central]) stickingOut) := by
  refine ⟨by decide, by decide, fun follows => ?_⟩
  exact absurd follows.x (by decide)

end Calls

end WfyApp.TrackWindow
