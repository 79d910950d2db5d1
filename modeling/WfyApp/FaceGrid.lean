import WfyApp.FaceBounds
import WfyApp.NumberText

/-! The grid weights of the face-AE filter: `calculateResultRect` decides when a rectangle has
moved and sends the cells that it touches, and `faceAE` what is sent without a person. The send
itself (`doIspProcess`) is outside; what it is given is returned. -/

namespace WfyApp.FaceGrid
open ByteText NumberText UvcGraph FaceBounds

def comma : UInt8 := 0x2c

def fastMoveFrameJudge : Int := 5

structure State where
  temp : Option Box
  fastMoveCount : Int
  noPersonCount : Int
deriving DecidableEq, Repr

def moved (temp result : Box) : Prop :=
  40 < |temp.left - result.left| ∨ 40 < |temp.right - result.right| ∨
    40 < |temp.top - result.top| ∨ 40 < |temp.bottom - result.bottom|

instance (temp result : Box) : Decidable (moved temp result) := inferInstanceAs (Decidable (_ ∨ _))

def countUp (first last : Int) : List Int :=
  (List.range (last + 1 - first).toNat).map fun k : Nat => first + (k : Int)

/-- The columns and rows of the cells, from 1; both divide by the width. -/
def gridOf (srcWidth : Int) (result : Box) : Box :=
  let gridW := srcWidth.tdiv 15
  let gridH := srcWidth.tdiv 15
  ⟨result.left.tdiv gridW + 1, result.top.tdiv gridH + 1,
    result.right.tdiv gridW + 1, result.bottom.tdiv gridH + 1⟩

def cellText (grid : Box) (i j : Int) : Bytes :=
  let gridValue := (j - 1) * 15 + i - 1
  if gridValue < 0 ∨ 225 < gridValue then []
  else decimal gridValue.toNat ++
    if (j - 1) * 15 + i ≠ (grid.bottom - 1) * 15 + grid.right then [comma] else []

def sendbuf (grid : Box) : Bytes :=
  (countUp grid.left grid.right).flatMap fun i =>
    (countUp grid.top grid.bottom).flatMap fun j => cellText grid i j

/-- The text that is sent, if any; a grid of width 0 ends the process. -/
def calculateResultRect (srcWidth : Int) (s : State) (rect : Box) : Option (State × Option Bytes) :=
  let temp := s.temp.getD rect
  if moved temp rect then
    let fastMoveCount := s.fastMoveCount + 1
    if fastMoveCount < fastMoveFrameJudge then
      some ({ s with temp := some temp, fastMoveCount }, none)
    else if srcWidth.tdiv 15 = 0 then none
    else some ({ s with temp := some rect, fastMoveCount }, some (sendbuf (gridOf srcWidth rect)))
  else some ({ s with temp := some temp, fastMoveCount := 0 }, none)

def faceAE (threshold : Binary32) (sizes : Sizes) (delayTime : Int) (s : State) (faces : List Face) :
    Option (State × Option Bytes) :=
  match calculatePersonRect threshold sizes faces with
  | some person =>
      (calculateResultRect sizes.srcWidth s person).map fun (t, text) =>
        ({ t with noPersonCount := 0 }, text)
  | none =>
      let noPersonCount := s.noPersonCount + 1
      some ({ s with noPersonCount },
        if noPersonCount = delayTime * 30 then some [comma] else none)

section Cells

theorem mem_countUp (first last x : Int) : x ∈ countUp first last ↔ first ≤ x ∧ x ≤ last := by
  simp only [countUp, List.mem_map, List.mem_range]
  constructor
  · rintro ⟨k, below, rfl⟩
    omega
  · rintro ⟨low, high⟩
    exact ⟨(x - first).toNat, by omega, by omega⟩

theorem nodup_countUp (first last : Int) : (countUp first last).Nodup := by
  refine List.Nodup.map ?_ List.nodup_range
  intro k l same
  simpa using same

theorem countUp_concat (first last : Int) (ordered : first ≤ last) :
    countUp first last = countUp first (last - 1) ++ [last] := by
  have length : (last + 1 - first).toNat = (last - 1 + 1 - first).toNat + 1 := by omega
  rw [countUp, length, List.range_succ, List.map_append, countUp]
  simp
  omega

def Between (a b c d v : Int) : Prop :=
  ∃ col row, (a ≤ col ∧ col ≤ b) ∧ (c ≤ row ∧ row ≤ d) ∧ row * 15 + col = v

def cellValues (a b c d : Int) : List Int :=
  (countUp a b).flatMap fun i => (countUp c d).map fun j => j * 15 + i

theorem mem_cellValues (a b c d v : Int) : v ∈ cellValues a b c d ↔ Between a b c d v := by
  simp only [cellValues, List.mem_flatMap, List.mem_map, mem_countUp]
  constructor
  · rintro ⟨i, column, j, row, same⟩
    exact ⟨i, j, column, row, same⟩
  · rintro ⟨i, j, column, row, same⟩
    exact ⟨i, column, j, row, same⟩

theorem nodup_cellValues (a b c d : Int) (low : 0 ≤ a) (high : b ≤ 14) :
    (cellValues a b c d).Nodup := by
  rw [cellValues, List.nodup_flatMap]
  constructor
  · intro i _
    refine List.Nodup.map ?_ (nodup_countUp c d)
    intro j k same
    simpa using same
  · refine (nodup_countUp a b).imp_of_mem ?_
    intro i k column column' different v first second
    obtain ⟨j, -, same⟩ := List.mem_map.mp first
    obtain ⟨l, -, same'⟩ := List.mem_map.mp second
    rw [mem_countUp] at column column'
    omega

theorem cellValues_concat (a b c d : Int) (columns : a ≤ b) (rows : c ≤ d) :
    ∃ init, cellValues a b c d = init ++ [d * 15 + b] ∧ ∀ v ∈ init, v < d * 15 + b := by
  refine ⟨cellValues a (b - 1) c d ++ cellValues b b c (d - 1), ?_, ?_⟩
  · have column : countUp b b = [b] := by
      simp [countUp]
    rw [cellValues, countUp_concat a b columns, List.flatMap_append]
    simp only [cellValues, column, List.flatMap_cons, List.flatMap_nil, List.append_nil]
    rw [List.append_assoc, countUp_concat c d rows, List.map_append]
    simp
  · intro v member
    rw [List.mem_append, mem_cellValues, mem_cellValues] at member
    rcases member with ⟨i, j, column, row, same⟩ | ⟨i, j, column, row, same⟩ <;> omega

end Cells

section Text

def cellField (last v : Int) : Bytes :=
  if v < 0 ∨ 225 < v then [] else decimal v.toNat ++ if v ≠ last then [comma] else []

theorem countUp_succ (first last : Int) :
    countUp (first + 1) (last + 1) = (countUp first last).map (· + 1) := by
  have length : last + 1 + 1 - (first + 1) = last + 1 - first := by omega
  rw [countUp, countUp, length, List.map_map]
  refine List.map_congr_left fun k _ => ?_
  simp only [Function.comp_apply]
  omega

theorem sendbuf_eq (a b c d : Int) :
    sendbuf ⟨a + 1, c + 1, b + 1, d + 1⟩ =
      (cellValues a b c d).flatMap (cellField (d * 15 + b)) := by
  have cell (i j : Int) : cellText ⟨a + 1, c + 1, b + 1, d + 1⟩ (i + 1) (j + 1) =
      cellField (d * 15 + b) (j * 15 + i) := by
    have value : (j + 1 - 1) * 15 + (i + 1) - 1 = j * 15 + i := by omega
    have separated : (j + 1 - 1) * 15 + (i + 1) ≠ (d + 1 - 1) * 15 + (b + 1) ↔
        j * 15 + i ≠ d * 15 + b := by omega
    simp only [cellText, cellField, value, separated]
  simp only [sendbuf, cellValues, countUp_succ, List.flatMap_map, List.flatMap_assoc, cell]

theorem comma_not_mem_decimal (n : Nat) : comma ∉ decimal n := by
  intro member
  exact absurd (decimal_digits n comma member).1 (by decide)

theorem splitOn_fields (last : Int) (values : List Int) (tail : Bytes)
    (before : ∀ v ∈ values, 0 ≤ v ∧ v < last) :
    (values.flatMap (cellField last) ++ tail).splitOn comma =
      (values.filter (· ≤ 225)).map (fun v => decimal v.toNat) ++ tail.splitOn comma := by
  induction values with
  | nil => rfl
  | cons v values ih =>
      obtain ⟨⟨nonneg, below⟩, rest⟩ := List.forall_mem_cons.mp before
      have fields := ih rest
      by_cases small : v ≤ 225
      · have written : cellField last v = decimal v.toNat ++ [comma] := by
          rw [cellField, if_neg (by omega), if_pos (by omega)]
        rw [List.flatMap_cons, written, List.filter_cons_of_pos (by simpa using small),
          List.append_assoc, List.append_assoc, List.singleton_append,
          List.splitOn_append_cons_self_of_not_mem (comma_not_mem_decimal _), fields]
        rfl
      · have skipped : cellField last v = [] := by
          rw [cellField, if_pos (by omega)]
        rw [List.flatMap_cons, skipped, List.filter_cons_of_neg (by simpa using small),
          List.nil_append, fields]

def Lists (text : Bytes) (numbers : List Nat) : Prop := text.splitOn comma = numbers.map decimal

theorem decimal_map_injective {first second : List Nat}
    (same : first.map decimal = second.map decimal) : first = second :=
  List.map_injective_iff.mpr (fun m n => decimal_inj m n) same

theorem lists_sendbuf_iff (a b c d : Int) (columns : 0 ≤ a ∧ a ≤ b) (rows : 0 ≤ c ∧ c ≤ d)
    (numbers : List Nat) :
    Lists (sendbuf ⟨a + 1, c + 1, b + 1, d + 1⟩) numbers ↔
      d * 15 + b ≤ 225 ∧ numbers = (cellValues a b c d).map Int.toNat := by
  obtain ⟨init, values, below⟩ := cellValues_concat a b c d columns.2 rows.2
  have nonneg : ∀ v ∈ init, 0 ≤ v := by
    intro v member
    have inside : v ∈ cellValues a b c d := values ▸ List.mem_append_left _ member
    obtain ⟨i, j, column, row, rfl⟩ := (mem_cellValues a b c d v).mp inside
    omega
  have fields := splitOn_fields (d * 15 + b) init (cellField (d * 15 + b) (d * 15 + b))
    fun v member => ⟨nonneg v member, below v member⟩
  rw [Lists, sendbuf_eq, values, List.flatMap_append, List.flatMap_singleton, fields]
  by_cases last : d * 15 + b ≤ 225
  · have all : init.filter (· ≤ 225) = init := by
      refine List.filter_eq_self.mpr fun v member => ?_
      have := below v member
      simp only [decide_eq_true_eq]
      omega
    have written : cellField (d * 15 + b) (d * 15 + b) = decimal (d * 15 + b).toNat := by
      rw [cellField, if_neg (by omega), if_neg (by simp), List.append_nil]
    have alone : (decimal (d * 15 + b).toNat).splitOn comma = [decimal (d * 15 + b).toNat] :=
      List.splitOn_eq_singleton (comma_not_mem_decimal _)
    rw [written, all, alone, and_iff_right last]
    constructor
    · intro same
      refine decimal_map_injective ?_
      rw [← same]
      simp
    · rintro rfl
      simp
  · have skipped : cellField (d * 15 + b) (d * 15 + b) = [] := by
      rw [cellField, if_pos (by omega)]
    refine iff_of_false ?_ fun both => last both.1
    intro same
    have empty : [] ∈ numbers.map decimal := by
      rw [← same, skipped]
      simp
    obtain ⟨n, -, none⟩ := List.mem_map.mp empty
    exact decimal_ne_nil n none

end Text

section Touched

def cellOf (size pixel : Int) : Int := min 14 (pixel / (size / 15))

def Touches (width height : Int) (rect : Box) (n : Nat) : Prop :=
  ∃ x y, (rect.left ≤ x ∧ x ≤ rect.right) ∧ (rect.top ≤ y ∧ y ≤ rect.bottom) ∧
    cellOf height y * 15 + cellOf width x = n

variable (size : Int) (large : 15 ≤ size)
include large

theorem cellOf_mono {first second : Int} (ordered : first ≤ second) :
    cellOf size first ≤ cellOf size second :=
  min_le_min_left 14 (Int.ediv_le_ediv (by omega) ordered)

/-- The pixels between two pixels lie in the cells between theirs, and in all of them. -/
theorem exists_cellOf_iff (low high cell : Int) (ordered : low ≤ high) :
    (∃ pixel, (low ≤ pixel ∧ pixel ≤ high) ∧ cellOf size pixel = cell) ↔
      cellOf size low ≤ cell ∧ cell ≤ cellOf size high := by
  have wide : 0 < size / 15 := by omega
  constructor
  · rintro ⟨pixel, ⟨above, below⟩, rfl⟩
    exact ⟨cellOf_mono size large above, cellOf_mono size large below⟩
  · rintro ⟨above, below⟩
    rcases above.eq_or_lt with same | later
    · exact ⟨low, ⟨le_rfl, ordered⟩, same⟩
    · have bounded : cell ≤ 14 := below.trans (min_le_left _ _)
      have reaches : cell ≤ high / (size / 15) := below.trans (min_le_right _ _)
      have starts : low / (size / 15) < cell := by
        rw [cellOf, min_lt_iff] at later
        omega
      refine ⟨cell * (size / 15), ⟨?_, (Int.le_ediv_iff_mul_le wide).mp reaches⟩, ?_⟩
      · exact ((Int.ediv_lt_iff_lt_mul wide).mp starts).le
      · rw [cellOf, Int.mul_ediv_cancel _ wide.ne', min_eq_right bounded]

end Touched

section Agreement

theorem between_bounds {a b c d v : Int} (between : Between a b c d v) :
    c * 15 + a ≤ v ∧ v ≤ d * 15 + b := by
  obtain ⟨col, row, column, inside, rfl⟩ := between
  omega

theorem between_corners (a b c d : Int) (columns : a ≤ b) (rows : c ≤ d) :
    Between a b c d (c * 15 + a) ∧ Between a b c d (d * 15 + b) :=
  ⟨⟨a, c, ⟨le_rfl, columns⟩, ⟨le_rfl, rows⟩, rfl⟩, ⟨b, d, ⟨columns, le_rfl⟩, ⟨rows, le_rfl⟩, rfl⟩⟩

theorem touches_iff (width height : Int) (wide : 15 ≤ width) (high : 15 ≤ height) (rect : Box)
    (columns : rect.left ≤ rect.right) (rows : rect.top ≤ rect.bottom) (n : Nat) :
    Touches width height rect n ↔ Between (cellOf width rect.left) (cellOf width rect.right)
      (cellOf height rect.top) (cellOf height rect.bottom) n := by
  simp only [Between, ← exists_cellOf_iff width wide _ _ _ columns,
    ← exists_cellOf_iff height high _ _ _ rows]
  constructor
  · rintro ⟨x, y, column, row, same⟩
    exact ⟨_, _, ⟨x, column, rfl⟩, ⟨y, row, rfl⟩, same⟩
  · rintro ⟨_, _, ⟨x, column, rfl⟩, ⟨y, row, rfl⟩, same⟩
    exact ⟨x, y, column, row, same⟩

/-- Two blocks of cells, the second of which ends at column 14, are the same exactly if their
corners are: the lowest and the highest number of each lie in the other. -/
theorem between_agree_iff (a b c d first last : Int) (columns : 0 ≤ a ∧ a ≤ b)
    (rows : 0 ≤ c ∧ c ≤ d) (inside : b ≤ 28) (ordered : 0 ≤ first ∧ first ≤ last) :
    (∀ n : Nat, Between a b c d n ↔ Between (min 14 a) (min 14 b) first last n) ↔
      b ≤ 14 ∧ c = first ∧ d = last := by
  constructor
  · intro agree
    have agree' (v : Int) (nonneg : 0 ≤ v) :
        Between a b c d v ↔ Between (min 14 a) (min 14 b) first last v := by
      simpa only [Int.toNat_of_nonneg nonneg] using agree v.toNat
    obtain ⟨lowest, highest⟩ := between_corners a b c d columns.2 rows.2
    obtain ⟨lowest', highest'⟩ :=
      between_corners (min 14 a) (min 14 b) first last (by omega) ordered.2
    have low := (between_bounds ((agree' _ (by omega)).mp lowest)).1
    have high := (between_bounds ((agree' _ (by omega)).mp highest)).2
    have low' := (between_bounds ((agree' _ (by omega)).mpr lowest')).1
    have high' := (between_bounds ((agree' _ (by omega)).mpr highest')).2
    omega
  · rintro ⟨small, rfl, rfl⟩ n
    rw [min_eq_right small, min_eq_right (columns.2.trans small)]

structure InFrame (width height : Int) (rect : Box) : Prop where
  left : 0 ≤ rect.left
  columns : rect.left ≤ rect.right
  right : rect.right < width
  top : 0 ≤ rect.top
  rows : rect.top ≤ rect.bottom
  bottom : rect.bottom < height

/-- The fields of the text are the numbers of the cells that the rectangle touches, each once. -/
def ListsTouched (width height : Int) (rect : Box) (text : Bytes) : Prop :=
  ∃ numbers, Lists text numbers ∧ numbers.Nodup ∧ ∀ n, n ∈ numbers ↔ Touches width height rect n

theorem mem_map_toNat (a b c d : Int) (left : 0 ≤ a) (top : 0 ≤ c) (n : Nat) :
    n ∈ (cellValues a b c d).map Int.toNat ↔ Between a b c d n := by
  simp only [List.mem_map, mem_cellValues]
  constructor
  · rintro ⟨v, between, rfl⟩
    have nonneg := (between_bounds between).1
    rwa [Int.toNat_of_nonneg (by omega)]
  · intro between
    exact ⟨n, between, Int.toNat_natCast n⟩

theorem nodup_map_toNat (a b c d : Int) (left : 0 ≤ a) (small : b ≤ 14) (top : 0 ≤ c) :
    ((cellValues a b c d).map Int.toNat).Nodup := by
  refine (nodup_cellValues a b c d left small).map_on ?_
  intro v member w member' same
  have nonneg := (between_bounds ((mem_cellValues a b c d v).mp member)).1
  have nonneg' := (between_bounds ((mem_cellValues a b c d w).mp member')).1
  omega

theorem gridOf_eq (width height : Int) (rect : Box) (inside : InFrame width height rect) :
    gridOf width rect = ⟨rect.left / (width / 15) + 1, rect.top / (width / 15) + 1,
      rect.right / (width / 15) + 1, rect.bottom / (width / 15) + 1⟩ := by
  obtain ⟨left, columns, right, top, rows, bottom⟩ := inside
  simp only [gridOf, Int.tdiv_eq_ediv_of_nonneg (show 0 ≤ width by omega),
    Int.tdiv_eq_ediv_of_nonneg left, Int.tdiv_eq_ediv_of_nonneg top,
    Int.tdiv_eq_ediv_of_nonneg (left.trans columns), Int.tdiv_eq_ediv_of_nonneg (top.trans rows)]

/-- The cells of the code are those of the frame exactly if the last column is inside the grid,
and dividing by the width gives the same rows as dividing by the height. -/
theorem sendbuf_listsTouched_iff (width height : Int) (wide : 15 ≤ width) (high : 15 ≤ height)
    (rect : Box) (inside : InFrame width height rect) :
    ListsTouched width height rect (sendbuf (gridOf width rect)) ↔
      rect.right / (width / 15) ≤ 14 ∧ rect.top / (width / 15) = cellOf height rect.top ∧
        rect.bottom / (width / 15) = cellOf height rect.bottom := by
  have positive : 0 < width / 15 := by omega
  have columns : 0 ≤ rect.left / (width / 15) ∧
      rect.left / (width / 15) ≤ rect.right / (width / 15) :=
    ⟨Int.ediv_nonneg inside.left positive.le, Int.ediv_le_ediv positive inside.columns⟩
  have rows : 0 ≤ rect.top / (width / 15) ∧
      rect.top / (width / 15) ≤ rect.bottom / (width / 15) :=
    ⟨Int.ediv_nonneg inside.top positive.le, Int.ediv_le_ediv positive inside.rows⟩
  have last : rect.right / (width / 15) ≤ 28 := by
    have right := inside.right
    exact Int.lt_add_one_iff.mp ((Int.ediv_lt_iff_lt_mul positive).mpr (by omega))
  have ordered : 0 ≤ cellOf height rect.top ∧ cellOf height rect.top ≤ cellOf height rect.bottom :=
    ⟨le_min (by decide) (Int.ediv_nonneg inside.top (by omega)), cellOf_mono height high inside.rows⟩
  have bounded : cellOf height rect.bottom ≤ 14 := min_le_left _ _
  have agree := between_agree_iff _ _ _ _ _ _ columns rows last ordered
  simp only [ListsTouched, gridOf_eq width height rect inside,
    lists_sendbuf_iff _ _ _ _ columns rows]
  constructor
  · rintro ⟨_, ⟨-, rfl⟩, -, same⟩
    refine agree.mp fun n => ?_
    rw [← mem_map_toNat _ _ _ _ columns.1 rows.1, same,
      touches_iff width height wide high rect inside.columns inside.rows]
    exact Iff.rfl
  · intro corners
    refine ⟨_, ⟨by omega, rfl⟩, nodup_map_toNat _ _ _ _ columns.1 corners.1 rows.1, fun n => ?_⟩
    rw [mem_map_toNat _ _ _ _ columns.1 rows.1, agree.mpr corners n,
      touches_iff width height wide high rect inside.columns inside.rows]
    exact Iff.rfl

end Agreement

theorem calculateResultRect_text (srcWidth : Int) (s t : State) (rect : Box) (text : Bytes)
    (sent : calculateResultRect srcWidth s rect = some (t, some text)) :
    text = sendbuf (gridOf srcWidth rect) := by
  simp only [calculateResultRect] at sent
  split_ifs at sent
  all_goals simp only [Option.some.injEq, Prod.mk.injEq, reduceCtorEq, and_false] at sent
  exact sent.2.symm

/-- What a round of the filter sends: the cells of the group's rectangle, or a comma when nobody
has been there for a while. -/
theorem faceAE_text (threshold : Binary32) (sizes : Sizes) (delayTime : Int) (s t : State)
    (faces : List Face) (text : Bytes)
    (sent : faceAE threshold sizes delayTime s faces = some (t, some text)) :
    (∃ person, calculatePersonRect threshold sizes faces = some person ∧
      text = sendbuf (gridOf sizes.srcWidth person)) ∨
    (calculatePersonRect threshold sizes faces = none ∧ text = [comma]) := by
  rw [faceAE] at sent
  cases found : calculatePersonRect threshold sizes faces with
  | some person =>
      rw [found] at sent
      obtain ⟨⟨next, sentText⟩, result, same⟩ := Option.map_eq_some_iff.mp sent
      obtain ⟨-, rfl⟩ := Prod.mk.inj same
      exact .inl ⟨person, rfl, calculateResultRect_text sizes.srcWidth s next person text result⟩
  | none =>
      rw [found] at sent
      simp only [Option.some.injEq, Prod.mk.injEq, Option.ite_none_right_eq_some] at sent
      exact .inr ⟨rfl, sent.2.2.symm⟩

/-- Whatever was sent before, a text that is sent lists the touched cells exactly under the
condition. -/
theorem calculateResultRect_listsTouched_iff (width height : Int) (wide : 15 ≤ width)
    (high : 15 ≤ height) (rect : Box) (inside : InFrame width height rect) (s t : State)
    (text : Bytes) (sent : calculateResultRect width s rect = some (t, some text)) :
    ListsTouched width height rect text ↔
      rect.right / (width / 15) ≤ 14 ∧ rect.top / (width / 15) = cellOf height rect.top ∧
        rect.bottom / (width / 15) = cellOf height rect.bottom := by
  rw [calculateResultRect_text width s t rect text sent]
  exact sendbuf_listsTouched_iff width height wide high rect inside

def movingState : State := ⟨some ⟨600, 300, 700, 400⟩, 4, 0⟩

theorem movingState_listsTouched : ∃ t text,
    calculateResultRect 1280 movingState ⟨100, 10, 300, 40⟩ = some (t, some text) ∧
      (ListsTouched 1280 720 ⟨100, 10, 300, 40⟩ text ↔
        300 / (1280 / 15) ≤ (14 : Int) ∧ 10 / (1280 / 15) = cellOf 720 10 ∧
          40 / (1280 / 15) = cellOf 720 40) :=
  ⟨_, _, rfl, calculateResultRect_listsTouched_iff 1280 720 (by decide) (by decide) _
    ⟨by decide, by decide, by decide, by decide, by decide, by decide⟩ movingState _ _ rfl⟩

/-- In a frame of 1280 by 720 a pixel of row 2 is sent as one of row 1. -/
theorem movingState_not_listsTouched : ∃ t text,
    calculateResultRect 1280 movingState ⟨0, 100, 10, 100⟩ = some (t, some text) ∧
      text = ascii "15" ∧ ¬ListsTouched 1280 720 ⟨0, 100, 10, 100⟩ text := by
  refine ⟨_, _, rfl, by decide, ?_⟩
  rintro ⟨numbers, lists, -, touched⟩
  have member : 30 ∈ numbers := (touched 30).mpr ⟨0, 100, by decide, by decide, by decide⟩
  have field : decimal 30 ∈ numbers.map decimal := List.mem_map_of_mem member
  rw [← lists] at field
  exact absurd field (by decide)

end WfyApp.FaceGrid
