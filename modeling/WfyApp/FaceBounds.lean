import WfyApp.RunningExtremes
import WfyApp.UvcGraph

/-! The rectangle around the detected faces: `calculatePersonRect` of the face-AE filter and the
detection loop of `countRectXY` in eptz_demo. The loops differ in the test with which an edge of
the running rectangle is replaced. Integers are unbounded. -/

namespace WfyApp.FaceBounds
open RunningExtremes UvcGraph

structure Box where
  left : Int
  top : Int
  right : Int
  bottom : Int
deriving DecidableEq, Repr

structure Face where
  box : Box
  score : Binary32
deriving DecidableEq, Repr

structure Sizes where
  srcWidth : Int
  srcHeight : Int
  npuWidth : Int
  npuHeight : Int
  npuWidth_ne : npuWidth ≠ 0
  npuHeight_ne : npuHeight ≠ 0

/-- A face in the camera's frame; the position and the size are scaled one by one. -/
def scaled (sizes : Sizes) (face : Face) : Box :=
  let x := (face.box.left * sizes.srcWidth).tdiv sizes.npuWidth
  let y := (face.box.top * sizes.srcHeight).tdiv sizes.npuHeight
  let w := ((face.box.right - face.box.left) * sizes.srcWidth).tdiv sizes.npuWidth
  let h := ((face.box.bottom - face.box.top) * sizes.srcHeight).tdiv sizes.npuHeight
  ⟨x, y, x + w, y + h⟩

/-- The new value of an edge, for the two edges near the origin and the two others. -/
structure Rule where
  near : Int → Int → Int
  far : Int → Int → Int

def merge (rule : Rule) (result rect : Box) : Box :=
  ⟨rule.near result.left rect.left, rule.near result.top rect.top,
    rule.far result.right rect.right, rule.far result.bottom rect.bottom⟩

def detectionLoop (rule : Rule) (threshold : Binary32) (sizes : Sizes) :
    Nat → List Face → Nat × Box → Nat × Box
  | _, [], found => found
  | i, face :: faces, (countPerson, result) =>
      if face.score.lt threshold then
        detectionLoop rule threshold sizes (i + 1) faces (countPerson, result)
      else
        let rect := scaled sizes face
        detectionLoop rule threshold sizes (i + 1) faces
          (countPerson + 1, if i = 0 then rect else merge rule result rect)

def personRule : Rule := ⟨lowerUnless 0, raiseUnless 0⟩

def calculatePersonRect (threshold : Binary32) (sizes : Sizes) (faces : List Face) : Option Box :=
  if sizes.srcWidth = 0 ∨ sizes.srcHeight = 0 then none
  else
    let (countPerson, result) := detectionLoop personRule threshold sizes 0 faces (0, ⟨0, 0, 0, 0⟩)
    if countPerson = 0 then none else some result

def countRule : Rule := ⟨lower, raise⟩

def facedetectScoreThreshold : Binary32 := ⟨0x3f400000#32⟩

def countRect (sizes : Sizes) (faces : List Face) : Option Box :=
  let (countPerson, result) :=
    detectionLoop countRule facedetectScoreThreshold sizes 0 faces (0, ⟨0, 0, 0, 0⟩)
  if countPerson = 0 then none else some result

def acceptedBoxes (threshold : Binary32) (sizes : Sizes) (faces : List Face) : List Box :=
  (faces.filter fun face => !face.score.lt threshold).map (scaled sizes)

section Smallest

def Inside (inner outer : Box) : Prop :=
  outer.left ≤ inner.left ∧ outer.top ≤ inner.top ∧
    inner.right ≤ outer.right ∧ inner.bottom ≤ outer.bottom

theorem inside_antisymm {first second : Box} (forth : Inside first second)
    (back : Inside second first) : first = second := by
  obtain ⟨left, top, right, bottom⟩ := forth
  obtain ⟨left', top', right', bottom'⟩ := back
  cases first
  cases second
  simp only [Box.mk.injEq] at *
  exact ⟨le_antisymm left' left, le_antisymm top' top, le_antisymm right right',
    le_antisymm bottom bottom'⟩

structure IsSmallest (boxes : List Box) (rect : Box) : Prop where
  contains : ∀ box ∈ boxes, Inside box rect
  least : ∀ outer, (∀ box ∈ boxes, Inside box outer) → Inside rect outer

theorem isSmallest_unique {boxes : List Box} {first second : Box} (one : IsSmallest boxes first)
    (other : IsSmallest boxes second) : first = second :=
  inside_antisymm (one.least second other.contains) (other.least first one.contains)

@[mk_iff]
structure IsHull (boxes : List Box) (rect : Box) : Prop where
  left : IsLeast (members (boxes.map Box.left)) rect.left
  top : IsLeast (members (boxes.map Box.top)) rect.top
  right : IsGreatest (members (boxes.map Box.right)) rect.right
  bottom : IsGreatest (members (boxes.map Box.bottom)) rect.bottom

theorem isSmallest_of_isHull {boxes : List Box} {rect : Box} (hull : IsHull boxes rect) :
    IsSmallest boxes rect := by
  have edge (f : Box → Int) (box : Box) (member : box ∈ boxes) : f box ∈ members (boxes.map f) :=
    List.mem_map_of_mem member
  constructor
  · intro box member
    exact ⟨hull.left.2 (edge _ box member), hull.top.2 (edge _ box member),
      hull.right.2 (edge _ box member), hull.bottom.2 (edge _ box member)⟩
  · intro outer contains
    obtain ⟨left, atLeft, sameLeft⟩ := List.mem_map.mp hull.left.1
    obtain ⟨top, atTop, sameTop⟩ := List.mem_map.mp hull.top.1
    obtain ⟨right, atRight, sameRight⟩ := List.mem_map.mp hull.right.1
    obtain ⟨bottom, atBottom, sameBottom⟩ := List.mem_map.mp hull.bottom.1
    rw [Inside, ← sameLeft, ← sameTop, ← sameRight, ← sameBottom]
    exact ⟨(contains left atLeft).1, (contains top atTop).2.1, (contains right atRight).2.2.1,
      (contains bottom atBottom).2.2.2⟩

theorem foldl_merge (rule : Rule) (rect : Box) (boxes : List Box) :
    boxes.foldl (merge rule) rect =
      ⟨(boxes.map Box.left).foldl rule.near rect.left, (boxes.map Box.top).foldl rule.near rect.top,
        (boxes.map Box.right).foldl rule.far rect.right,
        (boxes.map Box.bottom).foldl rule.far rect.bottom⟩ := by
  induction boxes generalizing rect with
  | nil => rfl
  | cons box boxes ih => exact ih (merge rule rect box)

theorem isHull_foldl_countRule (first : Box) (rest : List Box) :
    IsHull (first :: rest) (rest.foldl (merge countRule) first) := by
  rw [foldl_merge, isHull_iff]
  simp only [List.map_cons, members_cons]
  exact ⟨isLeast_foldl_lower _ _, isLeast_foldl_lower _ _, isGreatest_foldl_raise _ _,
    isGreatest_foldl_raise _ _⟩

theorem isSmallest_iff_isHull (first : Box) (rest : List Box) (rect : Box) :
    IsSmallest (first :: rest) rect ↔ IsHull (first :: rest) rect := by
  have hull := isHull_foldl_countRule first rest
  refine ⟨fun smallest => ?_, isSmallest_of_isHull⟩
  rw [isSmallest_unique smallest (isSmallest_of_isHull hull)]
  exact hull

/-- A coordinate 0 that is the outermost of its kind is also that of the last box. -/
@[mk_iff]
structure ZerosLast (boxes : List Box) : Prop where
  left : IsLeast (members (boxes.map Box.left)) 0 → (boxes.map Box.left).getLast? = some 0
  top : IsLeast (members (boxes.map Box.top)) 0 → (boxes.map Box.top).getLast? = some 0
  right : IsGreatest (members (boxes.map Box.right)) 0 → (boxes.map Box.right).getLast? = some 0
  bottom : IsGreatest (members (boxes.map Box.bottom)) 0 →
    (boxes.map Box.bottom).getLast? = some 0

theorem isHull_foldl_personRule_iff (first : Box) (rest : List Box) :
    IsHull (first :: rest) (rest.foldl (merge personRule) first) ↔ ZerosLast (first :: rest) := by
  rw [foldl_merge, isHull_iff, zerosLast_iff]
  simp only [List.map_cons, personRule, foldl_lowerUnless_isLeast_iff,
    foldl_raiseUnless_isGreatest_iff]

/-- The boxes reach the origin from all sides. -/
@[mk_iff]
structure AroundOrigin (boxes : List Box) : Prop where
  left : ∃ box ∈ boxes, box.left ≤ 0
  top : ∃ box ∈ boxes, box.top ≤ 0
  right : ∃ box ∈ boxes, 0 ≤ box.right
  bottom : ∃ box ∈ boxes, 0 ≤ box.bottom

theorem isHull_foldl_zero_iff (boxes : List Box) :
    IsHull boxes (boxes.foldl (merge countRule) ⟨0, 0, 0, 0⟩) ↔ AroundOrigin boxes := by
  rw [foldl_merge, isHull_iff, aroundOrigin_iff]
  simp only [countRule, foldl_lower_isLeast_iff, foldl_raise_isGreatest_iff, List.mem_map,
    exists_exists_and_eq_and]

end Smallest

section Loops
variable (threshold : Binary32) (sizes : Sizes)

/-- After the first face the loop merges the accepted boxes. -/
theorem detectionLoop_succ (rule : Rule) (i : Nat) (faces : List Face) (countPerson : Nat)
    (result : Box) :
    detectionLoop rule threshold sizes (i + 1) faces (countPerson, result) =
      (countPerson + (acceptedBoxes threshold sizes faces).length,
        (acceptedBoxes threshold sizes faces).foldl (merge rule) result) := by
  induction faces generalizing i countPerson result with
  | nil => rfl
  | cons face faces ih =>
      rw [detectionLoop]
      cases rejected : face.score.lt threshold
      · simp [ih, acceptedBoxes, rejected]
        omega
      · simp [ih, acceptedBoxes, rejected]

def firstAccepted : List Face → Bool
  | [] => false
  | face :: _ => !face.score.lt threshold

theorem detectionLoop_zero (rule : Rule) (faces : List Face) (first : Box) (rest : List Box)
    (accepted : acceptedBoxes threshold sizes faces = first :: rest) :
    detectionLoop rule threshold sizes 0 faces (0, ⟨0, 0, 0, 0⟩) =
      (rest.length + 1, if firstAccepted threshold faces then rest.foldl (merge rule) first
        else (first :: rest).foldl (merge rule) ⟨0, 0, 0, 0⟩) := by
  cases faces with
  | nil => cases accepted
  | cons face faces =>
      rw [detectionLoop]
      cases rejected : face.score.lt threshold
      · have boxes : acceptedBoxes threshold sizes (face :: faces) =
            scaled sizes face :: acceptedBoxes threshold sizes faces := by
          simp [acceptedBoxes, rejected]
        obtain ⟨rfl, rfl⟩ := List.cons.inj (boxes.symm.trans accepted)
        simp [detectionLoop_succ, firstAccepted, rejected, Nat.add_comm]
      · have boxes : acceptedBoxes threshold sizes (face :: faces) =
            acceptedBoxes threshold sizes faces := by
          simp [acceptedBoxes, rejected]
        rw [boxes] at accepted
        simp [detectionLoop_succ, firstAccepted, rejected, accepted]

/-- A rectangle of zeros is taken for one that is not there. -/
theorem merge_personRule_zero (rect : Box) : merge personRule ⟨0, 0, 0, 0⟩ rect = rect := by
  simp [merge, personRule, lowerUnless, raiseUnless]

theorem calculatePersonRect_eq (faces : List Face) (first : Box) (rest : List Box)
    (accepted : acceptedBoxes threshold sizes faces = first :: rest)
    (sized : sizes.srcWidth ≠ 0 ∧ sizes.srcHeight ≠ 0) :
    calculatePersonRect threshold sizes faces = some (rest.foldl (merge personRule) first) := by
  rw [calculatePersonRect, if_neg (not_or.mpr sized),
    detectionLoop_zero threshold sizes personRule faces first rest accepted]
  simp [merge_personRule_zero]

theorem calculatePersonRect_isSmallest_iff (faces : List Face)
    (accepted : acceptedBoxes threshold sizes faces ≠ [])
    (sized : sizes.srcWidth ≠ 0 ∧ sizes.srcHeight ≠ 0) :
    ∃ rect, calculatePersonRect threshold sizes faces = some rect ∧
      (IsSmallest (acceptedBoxes threshold sizes faces) rect ↔
        ZerosLast (acceptedBoxes threshold sizes faces)) := by
  obtain ⟨first, rest, boxes⟩ := List.exists_cons_of_ne_nil accepted
  refine ⟨_, calculatePersonRect_eq threshold sizes faces first rest boxes sized, ?_⟩
  rw [boxes, isSmallest_iff_isHull, isHull_foldl_personRule_iff]

theorem countRect_isSmallest_iff (faces : List Face)
    (accepted : acceptedBoxes facedetectScoreThreshold sizes faces ≠ []) :
    ∃ rect, countRect sizes faces = some rect ∧
      (IsSmallest (acceptedBoxes facedetectScoreThreshold sizes faces) rect ↔
        firstAccepted facedetectScoreThreshold faces = true ∨
          AroundOrigin (acceptedBoxes facedetectScoreThreshold sizes faces)) := by
  obtain ⟨first, rest, boxes⟩ := List.exists_cons_of_ne_nil accepted
  rw [countRect, detectionLoop_zero facedetectScoreThreshold sizes countRule faces first rest boxes]
  refine ⟨_, rfl, ?_⟩
  rw [boxes, isSmallest_iff_isHull]
  cases firstAccepted facedetectScoreThreshold faces with
  | true => simpa using isHull_foldl_countRule first rest
  | false => simpa using isHull_foldl_zero_iff (first :: rest)

end Loops

/-- The rectangles of both programs are the smallest ones around the accepted boxes exactly under
their conditions. -/
theorem groupRect_isSmallest_iff (threshold : Binary32) (sizes : Sizes) (faces : List Face) :
    (sizes.srcWidth ≠ 0 ∧ sizes.srcHeight ≠ 0 → acceptedBoxes threshold sizes faces ≠ [] →
      ∃ rect, calculatePersonRect threshold sizes faces = some rect ∧
        (IsSmallest (acceptedBoxes threshold sizes faces) rect ↔
          ZerosLast (acceptedBoxes threshold sizes faces))) ∧
    (acceptedBoxes facedetectScoreThreshold sizes faces ≠ [] →
      ∃ rect, countRect sizes faces = some rect ∧
        (IsSmallest (acceptedBoxes facedetectScoreThreshold sizes faces) rect ↔
          firstAccepted facedetectScoreThreshold faces = true ∨
            AroundOrigin (acceptedBoxes facedetectScoreThreshold sizes faces))) :=
  ⟨fun sized accepted => calculatePersonRect_isSmallest_iff threshold sizes faces accepted sized,
    countRect_isSmallest_iff sizes faces⟩

def cameraSizes : Sizes := ⟨1280, 720, 640, 360, by decide, by decide⟩

def filterThreshold : Binary32 := ⟨0x3ecccccd#32⟩

def twoFaces : List Face := [⟨⟨0, 50, 60, 120⟩, .one⟩, ⟨⟨100, 100, 150, 150⟩, .one⟩]

theorem twoFaces_isSmallest :
    (∃ rect, calculatePersonRect filterThreshold cameraSizes twoFaces = some rect ∧
      (IsSmallest (acceptedBoxes filterThreshold cameraSizes twoFaces) rect ↔
        ZerosLast (acceptedBoxes filterThreshold cameraSizes twoFaces))) ∧
    ∃ rect, countRect cameraSizes twoFaces = some rect ∧
      (IsSmallest (acceptedBoxes facedetectScoreThreshold cameraSizes twoFaces) rect ↔
        firstAccepted facedetectScoreThreshold twoFaces = true ∨
          AroundOrigin (acceptedBoxes facedetectScoreThreshold cameraSizes twoFaces)) :=
  ⟨(groupRect_isSmallest_iff filterThreshold cameraSizes twoFaces).1 (by decide) (by decide),
    (groupRect_isSmallest_iff filterThreshold cameraSizes twoFaces).2 (by decide)⟩

def rejectedFirst : List Face := [⟨⟨300, 200, 320, 220⟩, ⟨0#32⟩⟩, ⟨⟨100, 100, 150, 150⟩, .one⟩]

/-- A face at the left border is forgotten, and a rejected face leaves the origin behind. -/
theorem twoFaces_not_isSmallest :
    calculatePersonRect filterThreshold cameraSizes twoFaces = some ⟨200, 100, 300, 300⟩ ∧
    ¬IsSmallest (acceptedBoxes filterThreshold cameraSizes twoFaces) ⟨200, 100, 300, 300⟩ ∧
    countRect cameraSizes rejectedFirst = some ⟨0, 0, 300, 300⟩ ∧
    ¬IsSmallest (acceptedBoxes facedetectScoreThreshold cameraSizes rejectedFirst)
      ⟨0, 0, 300, 300⟩ := by
  refine ⟨by decide, ?_, by decide, ?_⟩
  · intro smallest
    have inside := smallest.contains ⟨0, 100, 120, 240⟩ (by decide)
    exact absurd inside.1 (by decide)
  · intro smallest
    have boxes : acceptedBoxes facedetectScoreThreshold cameraSizes rejectedFirst =
        [⟨200, 200, 300, 300⟩] := by decide
    rw [boxes] at smallest
    have inside := smallest.least ⟨200, 200, 300, 300⟩ (by simp [Inside])
    exact absurd inside.1 (by decide)

end WfyApp.FaceBounds
