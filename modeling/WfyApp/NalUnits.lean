import WfyApp.ByteText
import WfyApp.WordScan

/-! The start-code search of the media library and the functions over encoded video
that rest on it: splitting off the leading parameter sets (`split_h264_separate`,
`split_h265_separate`) and finding a unit by its type (`FindNaluByType` and the
`Get…FromBuffer` family).
A pointer is an offset into the region it points into; a read outside the region, and a
misaligned word read, is a fault, which is `none`. A region is as large as its allocation, of
which a beginning is valid. -/

namespace WfyApp.NalUnits
open ByteText WordScan

/-- A buffer at an address: its valid bytes and the allocated ones behind them. -/
structure Region where
  base : Nat
  bytes : Bytes
  behind : Bytes

namespace Region

def stop (r : Region) : Nat := r.bytes.length

def memory (r : Region) : Bytes := r.bytes ++ r.behind

def read (r : Region) (p : Nat) : Option UInt8 := r.memory[p]?

def is (r : Region) (p : Nat) (v : UInt8) : Option Bool := (r.read p).map (· == v)

def load32 (r : Region) (p : Nat) : Option (BitVec 32) :=
  if (r.base + p) % 4 = 0 then do
    return wordOf (← r.read p) (← r.read (p + 1)) (← r.read (p + 2)) (← r.read (p + 3))
  else none

def copy (r : Region) (p size : Nat) : Option Bytes :=
  if p + size ≤ r.memory.length then some ((r.memory.drop p).take size) else none

theorem read_eq (r : Region) (p : Nat) (inside : p < r.stop) : r.read p = r.bytes[p]? :=
  List.getElem?_append_left inside

end Region

def andAlso (first second : Option Bool) : Option Bool :=
  first.bind fun holds => if holds then second else some false

@[simp] theorem andAlso_some (x y : Bool) : andAlso (some x) (some y) = some (x && y) := by
  cases x <;> rfl

def lookByte (r : Region) (p : Nat) : Option (Option Nat) := do
  if ← andAlso (r.is p 0) (andAlso (r.is (p + 1) 0) (r.is (p + 2) 1)) then
    return some p
  return none

def lookWord (r : Region) (p : Nat) : Option (Option Nat) := do
  if zeroByteTest (← r.load32 p) ≠ 0#32 then
    if ← r.is (p + 1) 0 then
      if ← andAlso (r.is p 0) (r.is (p + 2) 1) then
        return some p
      if ← andAlso (r.is (p + 2) 0) (r.is (p + 3) 1) then
        return some (p + 1)
    if ← r.is (p + 3) 0 then
      if ← andAlso (r.is (p + 2) 0) (r.is (p + 4) 1) then
        return some (p + 2)
      if ← andAlso (r.is (p + 4) 0) (r.is (p + 5) 1) then
        return some (p + 3)
  return none

/-- The positions `end - 3` and `end - 6` are only compared with `p`, which is never
negative, so truncation at zero does not change a comparison. -/
def findStartcodeInternal (r : Region) (p stop : Nat) : Option Nat := do
  let a := p + 4 - (r.base + p) % 4
  match ← strideLoop (lookByte r) 1 (min a (stop - 3)) stop p with
  | .found q => return q
  | .reached p =>
    match ← strideLoop (lookWord r) 4 (stop - 6) stop p with
    | .found q => return q
    | .reached p =>
      match ← strideLoop (lookByte r) 1 (stop - 3) stop p with
      | .found q => return q
      | .reached _ => return stop

def findNaluStartcode (r : Region) (p stop : Nat) : Option Nat := do
  let out ← findStartcodeInternal r p stop
  if p < out ∧ out < stop then
    if ← r.is (out - 1) 0 then
      return out - 1
  return out

def startsAt (bytes : Bytes) (q : Nat) : Bool := [0, 0, 1].isPrefixOf (bytes.drop q)

theorem read_of_lt (r : Region) (p : Nat) (inside : p < r.stop) :
    ∃ b, r.read p = some b := by
  rw [r.read_eq p inside]
  exact ⟨_, List.getElem?_eq_getElem inside⟩

theorem drop_of_read (r : Region) (p : Nat) (b : UInt8) (valid : p < r.stop)
    (here : r.read p = some b) : r.bytes.drop p = b :: r.bytes.drop (p + 1) := by
  rw [r.read_eq p valid] at here
  obtain ⟨inside, equal⟩ := List.getElem?_eq_some_iff.mp here
  rw [List.drop_eq_getElem_cons inside, equal]

theorem startsAt_of_read (r : Region) (q : Nat) (a b c : UInt8) (valid : q + 3 ≤ r.stop)
    (ra : r.read q = some a) (rb : r.read (q + 1) = some b) (rc : r.read (q + 2) = some c) :
    startsAt r.bytes q = (a == 0 && (b == 0 && c == 1)) := by
  rw [startsAt, drop_of_read r q a (by omega) ra, drop_of_read r (q + 1) b (by omega) rb,
    drop_of_read r (q + 2) c (by omega) rc]
  simp only [List.isPrefixOf, Bool.and_true, BEq.comm]

theorem lookByte_eq (r : Region) (p : Nat) (inside : p + 3 ≤ r.stop) :
    lookByte r p = some ((List.range' p 1).find? (startsAt r.bytes)) := by
  obtain ⟨a, ra⟩ := read_of_lt r p (by omega)
  obtain ⟨b, rb⟩ := read_of_lt r (p + 1) (by omega)
  obtain ⟨c, rc⟩ := read_of_lt r (p + 2) (by omega)
  have here := startsAt_of_read r p a b c inside ra rb rc
  cases found : a == 0 && (b == 0 && c == 1) <;>
    simp [lookByte, Region.is, ra, rb, rc, here, found]

theorem load32_of_read (r : Region) (p : Nat) (aligned : (r.base + p) % 4 = 0)
    (a b c d : UInt8) (ra : r.read p = some a) (rb : r.read (p + 1) = some b)
    (rc : r.read (p + 2) = some c) (rd : r.read (p + 3) = some d) :
    r.load32 p = some (wordOf a b c d) := by
  simp [Region.load32, aligned, ra, rb, rc, rd]

theorem lookWord_eq (r : Region) (p : Nat) (aligned : (r.base + p) % 4 = 0)
    (inside : p + 6 ≤ r.stop) :
    lookWord r p = some ((List.range' p 4).find? (startsAt r.bytes)) := by
  obtain ⟨a, ra⟩ := read_of_lt r p (by omega)
  obtain ⟨b, rb⟩ := read_of_lt r (p + 1) (by omega)
  obtain ⟨c, rc⟩ := read_of_lt r (p + 2) (by omega)
  obtain ⟨d, rd⟩ := read_of_lt r (p + 3) (by omega)
  obtain ⟨e, re⟩ := read_of_lt r (p + 4) (by omega)
  obtain ⟨f, rf⟩ := read_of_lt r (p + 5) (by omega)
  have first : startsAt r.bytes p = (b == 0 && (a == 0 && c == 1)) := by
    rw [startsAt_of_read r p a b c (by omega) ra rb rc, Bool.and_left_comm]
  have second := startsAt_of_read r (p + 1) b c d (by omega) rb rc rd
  have third : startsAt r.bytes (p + 2) = (d == 0 && (c == 0 && e == 1)) := by
    rw [startsAt_of_read r (p + 2) c d e (by omega) rc rd re, Bool.and_left_comm]
  have fourth := startsAt_of_read r (p + 3) d e f (by omega) rd re rf
  have word := load32_of_read r p aligned a b c d ra rb rc rd
  have positions : List.range' p 4 = [p, p + 1, p + 2, p + 3] := rfl
  rw [positions]
  simp only [List.find?_cons, List.find?_nil, first, second, third, fourth]
  by_cases test : zeroByteTest (wordOf a b c d) = 0#32
  · -- no byte of the word is zero, so no start code begins in it
    have nonzero := mt (zeroByteTest_wordOf_ne_zero a b c d) (not_not.mpr test)
    simp only [not_or, ← beq_eq_false_iff_ne (α := UInt8)] at nonzero
    obtain ⟨na, nb, nc, nd⟩ := nonzero
    simp [lookWord, word, test, na, nb, nc, nd]
  · simp only [lookWord, word, Region.is, ra, rb, rc, rd, re, rf, Option.map_some, andAlso_some]
    cases b == 0 <;> cases d == 0 <;> cases a == 0 && c == 1 <;> cases c == 0 && d == 1 <;>
      cases c == 0 && e == 1 <;> cases e == 0 && f == 1 <;> simp [test]

def plainSearch (bytes : Bytes) (p stop : Nat) : Nat :=
  ((List.range' p (stop - 3 - p)).find? (startsAt bytes)).getD stop

theorem byteLoop_eq (r : Region) (p limit stop : Nat) (short : limit ≤ stop - 3)
    (inside : stop ≤ r.stop) :
    strideLoop (lookByte r) 1 limit stop p =
      some (covered (startsAt r.bytes) p (limit - p)) := by
  have sound : ∀ q, True → q < limit →
      lookByte r q = some ((List.range' q 1).find? (startsAt r.bytes)) :=
    fun q _ before => lookByte_eq r q (by omega)
  obtain ⟨n, reaches, stops, equal⟩ := strideLoop_eq (lookByte r) (startsAt r.bytes)
    (fun _ => True) 1 limit (fun _ _ => trivial) sound stop p trivial (by omega)
  have count : n * 1 = limit - p := by omega
  rw [equal, count]

/-- The loop over words starts at an address that is a multiple of four, and its last
step ends at most three positions before `stop`. -/
theorem wordLoop_eq (r : Region) (p stop : Nat) (inside : stop ≤ r.stop)
    (aligned : p < stop - 6 → (r.base + p) % 4 = 0) :
    ∃ n, (n = 0 ∨ p + n ≤ stop - 3) ∧ strideLoop (lookWord r) 4 (stop - 6) stop p =
      some (covered (startsAt r.bytes) p n) := by
  by_cases before : p < stop - 6
  · have sound : ∀ q, (r.base + q) % 4 = 0 → q < stop - 6 →
        lookWord r q = some ((List.range' q 4).find? (startsAt r.bytes)) :=
      fun q good near => lookWord_eq r q good (by omega)
    obtain ⟨n, reaches, stops, equal⟩ := strideLoop_eq (lookWord r) (startsAt r.bytes)
      (fun q => (r.base + q) % 4 = 0) 4 (stop - 6) (fun q good => by omega) sound stop p
      (aligned before) (by omega)
    exact ⟨n * 4, by omega, equal⟩
  · refine ⟨0, .inl rfl, ?_⟩
    cases stop <;> simp_all [strideLoop, covered]

theorem plainSearch_of_found (bytes : Bytes) (p stop q : Nat)
    (found : covered (startsAt bytes) p (stop - 3 - p) = .found q) :
    plainSearch bytes p stop = q := by
  unfold covered at found
  rw [plainSearch]
  split at found
  · next here => rw [here]; cases found; rfl
  · cases found

theorem plainSearch_of_reached (bytes : Bytes) (p stop q : Nat)
    (reached : covered (startsAt bytes) p (stop - 3 - p) = .reached q) :
    plainSearch bytes p stop = stop := by
  unfold covered at reached
  rw [plainSearch]
  split at reached
  · cases reached
  · next nowhere => rw [nowhere]; rfl

/-- Whatever the alignment, the three loops together find what the plain search finds,
and no read leaves the buffer. -/
theorem findStartcodeInternal_eq (r : Region) (p stop : Nat) (inside : stop ≤ r.stop) :
    findStartcodeInternal r p stop = some (plainSearch r.bytes p stop) := by
  have offset := Nat.mod_lt (r.base + p) (show 0 < 4 by decide)
  have bytewise := byteLoop_eq r p (min (p + 4 - (r.base + p) % 4) (stop - 3)) stop
    (Nat.min_le_right _ _) inside
  generalize first : min (p + 4 - (r.base + p) % 4) (stop - 3) - p = m at bytewise
  obtain ⟨n, fits, wordwise⟩ := wordLoop_eq r (p + m) stop inside (by omega)
  have rest := byteLoop_eq r (p + m + n) (stop - 3) stop (Nat.le_refl _) inside
  have total : stop - 3 - p = m + (n + (stop - 3 - (p + m + n))) := by omega
  have whole := covered_add (startsAt r.bytes) p m (n + (stop - 3 - (p + m + n)))
  rw [← total] at whole
  simp only [findStartcodeInternal, bytewise]
  cases one : covered (startsAt r.bytes) p m with
  | found q =>
    rw [plainSearch_of_found r.bytes p stop q (by rw [whole, one, Outcome.next])]
    rfl
  | reached q =>
    have position := reached_eq (startsAt r.bytes) p m q one
    subst position
    rw [one, Outcome.next, covered_add] at whole
    simp only [Option.bind_eq_bind, Option.bind_some, wordwise]
    cases two : covered (startsAt r.bytes) (p + m) n with
    | found q =>
      rw [plainSearch_of_found r.bytes p stop q (by rw [whole, two, Outcome.next])]
      rfl
    | reached q =>
      have position := reached_eq (startsAt r.bytes) (p + m) n q two
      subst position
      rw [two, Outcome.next] at whole
      simp only [Option.bind_some, rest, ← whole]
      cases three : covered (startsAt r.bytes) p (stop - 3 - p) with
      | found q => rw [plainSearch_of_found r.bytes p stop q three]; rfl
      | reached q => rw [plainSearch_of_reached r.bytes p stop q three]; rfl

/-- The search returns the first start code that has a byte after it, or `stop` when there
is none; it does so at every address of the buffer and stays inside it. -/
theorem startcode_search_agrees (r : Region) (p stop : Nat) (inside : stop ≤ r.stop) :
    ∃ q, findStartcodeInternal r p stop = some q ∧
      ((p ≤ q ∧ q + 3 < stop ∧ startsAt r.bytes q = true ∧
          ∀ i, p ≤ i → i < q → startsAt r.bytes i = false) ∨
        (q = stop ∧ ∀ i, p ≤ i → i + 3 < stop → startsAt r.bytes i = false)) := by
  refine ⟨_, findStartcodeInternal_eq r p stop inside, ?_⟩
  rw [plainSearch]
  cases first : (List.range' p (stop - 3 - p)).find? (startsAt r.bytes) with
  | some q =>
    left
    obtain ⟨here, member, before⟩ := List.find?_range'_eq_some.mp first
    obtain ⟨above, below⟩ := List.mem_range'_1.mp member
    refine ⟨above, by simp only [Option.getD_some]; omega, here, ?_⟩
    intro i lower upper
    simpa using before i lower upper
  | none =>
    right
    refine ⟨rfl, ?_⟩
    intro i above below
    simpa using List.find?_range'_eq_none.mp first i above (by omega)

theorem startcode_search_unaligned :
    7 ≤ (Region.mk 3 [9, 0, 0, 0, 1, 0x67, 5] []).stop ∧
      ∃ q, findStartcodeInternal ⟨3, [9, 0, 0, 0, 1, 0x67, 5], []⟩ 0 7 = some q ∧
        ((0 ≤ q ∧ q + 3 < 7 ∧ startsAt [9, 0, 0, 0, 1, 0x67, 5] q = true ∧
            ∀ i, 0 ≤ i → i < q → startsAt [9, 0, 0, 0, 1, 0x67, 5] i = false) ∨
          (q = 7 ∧ ∀ i, 0 ≤ i → i + 3 < 7 → startsAt [9, 0, 0, 0, 1, 0x67, 5] i = false)) :=
  ⟨by decide, startcode_search_agrees ⟨3, [9, 0, 0, 0, 1, 0x67, 5], []⟩ 0 7 (by decide)⟩

inductive StartCode where
  | three
  | four
  deriving DecidableEq, Repr

def StartCode.bytes : StartCode → Bytes
  | .three => [0, 0, 1]
  | .four => [0, 0, 0, 1]

/-- One unit as an encoder writes it: it has a header, ends in a nonzero byte and has no
start code inside. -/
structure Nal where
  bytes : Bytes
  nonempty : bytes ≠ []
  last_ne_zero : bytes.getLast nonempty ≠ 0
  clean : ∀ q, startsAt bytes q = false

theorem clean_of_inside (bytes : Bytes) (inside : ∀ q < bytes.length, startsAt bytes q = false)
    (q : Nat) : startsAt bytes q = false := by
  by_cases before : q < bytes.length
  · exact inside q before
  · rw [startsAt, List.drop_eq_nil_of_le (Nat.le_of_not_lt before)]
    rfl

def Nal.header (u : Nal) : UInt8 := u.bytes.head u.nonempty

def Nal.coded (code : StartCode) (u : Nal) : Bytes := code.bytes ++ u.bytes

def stream (code : StartCode) (units : List Nal) : Bytes := units.flatMap (Nal.coded code)

theorem startsAt_append_left (front rest : Bytes) (q : Nat) :
    startsAt (front ++ rest) (front.length + q) = startsAt rest q := by
  rw [startsAt, startsAt, ← List.drop_drop, List.drop_left]

theorem startsAt_unit (u : Nal) (rest : Bytes) (q : Nat) (inside : q < u.bytes.length) :
    startsAt (u.bytes ++ rest) q = false := by
  have own := u.clean q
  have nonempty : u.bytes.drop q ≠ [] := by
    rw [ne_eq, List.drop_eq_nil_iff]
    omega
  have last : (u.bytes.drop q).getLast nonempty ≠ 0 := by
    rw [List.getLast_drop]
    exact u.last_ne_zero
  rw [startsAt] at own
  rw [startsAt, List.drop_append_of_le_length (by omega)]
  -- fewer than three bytes are left of the unit only if the last of them is not zero
  match tail : u.bytes.drop q, nonempty, last, own with
  | [x], _, last, _ =>
    have other : (0 == x) = false := beq_eq_false_iff_ne.mpr (Ne.symm last)
    simp [List.isPrefixOf, other]
  | [x, y], _, last, _ =>
    have other : (0 == y) = false := beq_eq_false_iff_ne.mpr (Ne.symm last)
    simp [List.isPrefixOf, other]
  | x :: y :: z :: _, _, _, own => simpa [List.isPrefixOf] using own

theorem plainSearch_eq_of_first (bytes : Bytes) (p stop q : Nat) (above : p ≤ q)
    (below : q + 3 < stop) (here : startsAt bytes q = true)
    (before : ∀ i, p ≤ i → i < q → startsAt bytes i = false) : plainSearch bytes p stop = q := by
  have found : (List.range' p (stop - 3 - p)).find? (startsAt bytes) = some q := by
    refine List.find?_range'_eq_some.mpr ⟨here, List.mem_range'_1.mpr ⟨above, by omega⟩, ?_⟩
    intro i lower upper
    simp [before i lower upper]
  rw [plainSearch, found, Option.getD_some]

theorem plainSearch_eq_stop (bytes : Bytes) (p stop : Nat)
    (nowhere : ∀ i, p ≤ i → i < stop → startsAt bytes i = false) :
    plainSearch bytes p stop = stop := by
  have missed : (List.range' p (stop - 3 - p)).find? (startsAt bytes) = none := by
    refine List.find?_range'_eq_none.mpr ?_
    intro i lower upper
    simp [nowhere i lower (by omega)]
  rw [plainSearch, missed, Option.getD_none]

section Walk
variable (r : Region) (code : StartCode)

/-- The search stops at a start code before which there is no other one and, unless it
starts there, a nonzero byte: a longer start code is found at its first byte. -/
theorem findNaluStartcode_code (front : Bytes) (v : Nal) (rest : Bytes) (p : Nat)
    (layout : r.bytes = front ++ (code.bytes ++ (v.bytes ++ rest))) (above : p ≤ front.length)
    (clear : ∀ i, p ≤ i → i < front.length → startsAt r.bytes i = false)
    (nonzero : p < front.length → ∃ b, b ≠ 0 ∧ r.read (front.length - 1) = some b) :
    findNaluStartcode r p r.stop = some front.length := by
  have some_byte := List.length_pos_of_ne_nil v.nonempty
  have stop : r.stop = front.length + (code.bytes.length + (v.bytes.length + rest.length)) := by
    simp [Region.stop, layout]
  have here (k : Nat) : startsAt r.bytes (front.length + k) =
      startsAt (code.bytes ++ (v.bytes ++ rest)) k := by rw [layout, startsAt_append_left]
  rw [findNaluStartcode, findStartcodeInternal_eq r _ _ le_rfl]
  cases code with
  | three =>
    have length : StartCode.three.bytes.length = 3 := rfl
    rw [plainSearch_eq_of_first r.bytes p r.stop front.length above (by omega) (here 0) clear]
    by_cases later : p < front.length
    · obtain ⟨b, other, previous⟩ := nonzero later
      simp [Region.is, previous, other]
    · simp [later]
  | four =>
    have length : StartCode.four.bytes.length = 4 := rfl
    have clear' : ∀ i, p ≤ i → i < front.length + 1 → startsAt r.bytes i = false := by
      intro i lower upper
      rcases Nat.lt_or_ge i front.length with inside | outside
      · exact clear i lower inside
      · have position : i = front.length := by omega
        rw [position]
        exact here 0
    have zero : r.read front.length = some 0 := by
      rw [r.read_eq _ (by omega), layout, List.getElem?_append_right le_rfl, Nat.sub_self]
      rfl
    rw [plainSearch_eq_of_first r.bytes p r.stop (front.length + 1) (by omega) (by omega) (here 1)
      clear']
    have inside : p < front.length + 1 ∧ front.length + 1 < r.stop := by omega
    simp [Region.is, inside, zero]

theorem read_last (before : Bytes) (u : Nal) (rest : Bytes)
    (layout : r.bytes = before ++ (u.bytes ++ rest)) :
    r.read (before.length + u.bytes.length - 1) = some (u.bytes.getLast u.nonempty) := by
  have some_byte := List.length_pos_of_ne_nil u.nonempty
  have stop : r.stop = before.length + (u.bytes.length + rest.length) := by
    simp [Region.stop, layout]
  rw [r.read_eq _ (by omega), layout, List.getElem?_append_right (by omega),
    List.getElem?_append_left (by omega), ← List.getLast?_eq_getLast_of_ne_nil,
    List.getLast?_eq_getElem?]
  congr 1
  omega

theorem findNaluStartcode_next (before : Bytes) (u v : Nal) (rest : Bytes)
    (layout : r.bytes = before ++ (u.bytes ++ (code.bytes ++ (v.bytes ++ rest)))) :
    findNaluStartcode r before.length r.stop = some (before.length + u.bytes.length) := by
  have length : (before ++ u.bytes).length = before.length + u.bytes.length := by simp
  rw [← length]
  refine findNaluStartcode_code r code (before ++ u.bytes) v rest before.length
    (by rw [layout, List.append_assoc]) (by omega) ?_ ?_
  · intro i lower upper
    obtain ⟨k, rfl⟩ := Nat.exists_eq_add_of_le lower
    rw [layout, startsAt_append_left]
    exact startsAt_unit u _ k (by omega)
  · intro _
    rw [length]
    exact ⟨_, u.last_ne_zero, read_last r before u _ layout⟩

theorem findNaluStartcode_last (before : Bytes) (u : Nal) (layout : r.bytes = before ++ u.bytes) :
    findNaluStartcode r before.length r.stop = some r.stop := by
  have whole : r.stop = before.length + u.bytes.length := by simp [Region.stop, layout]
  have nowhere : ∀ i, before.length ≤ i → i < r.stop → startsAt r.bytes i = false := by
    intro i lower upper
    obtain ⟨k, rfl⟩ := Nat.exists_eq_add_of_le lower
    rw [layout, startsAt_append_left]
    simpa using startsAt_unit u [] k (by omega)
  rw [findNaluStartcode, findStartcodeInternal_eq r _ _ le_rfl, plainSearch_eq_stop _ _ _ nowhere]
  simp

theorem findNaluStartcode_first (u : Nal) (rest : Bytes)
    (layout : r.bytes = code.bytes ++ (u.bytes ++ rest)) :
    findNaluStartcode r 0 r.stop = some 0 :=
  findNaluStartcode_code r code [] u rest 0 layout (Nat.le_refl _)
    (fun i _ upper => absurd upper (Nat.not_lt_zero i)) (fun later => absurd later (Nat.lt_irrefl 0))

end Walk

end WfyApp.NalUnits
