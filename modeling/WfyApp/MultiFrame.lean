import Mathlib

/-! The averaging of raw frames in multiframe_process.cpp of the tool server: frames of
16-bit pixels are added to 32-bit sums, with the bytes of a pixel swapped on request, and the
sums are divided by a power of two with rounding. -/

namespace WfyApp.MultiFrame

/-- The size of a frame; the product fits the `int` of the loops. -/
structure Geometry where
  width : UInt16
  height : UInt16
  small : width.toNat * height.toNat < 2 ^ 31

def Geometry.len (g : Geometry) : Nat := g.height.toNat * g.width.toNat

abbrev Pixels (len : Nat) := Fin len → UInt16
abbrev Sums (len : Nat) := Fin len → UInt32

section Loops
variable {len : Nat}

def pixel (biToLi : Bool) (p : UInt16) : UInt16 :=
  if biToLi then
    (((p &&& 0xff) <<< 8) &&& 0xff00 : UInt16) ||| (((p &&& 0xff00) >>> 8) &&& 0xff : UInt16)
  else p &&& 0xffff

def multiFrameAddition (sums : Sums len) (frame : Pixels len) (biToLi : Bool) : Sums len :=
  (List.finRange len).foldl
    (fun sums n => Function.update sums n (sums n + (pixel biToLi (frame n)).toUInt32)) sums

/-- The shift for a number of frames; other numbers are refused. -/
def averageShift (frameNumber : UInt8) : Option Nat :=
  if frameNumber = 128 then some 7
  else if frameNumber = 64 then some 6
  else if frameNumber = 32 then some 5
  else if frameNumber = 16 then some 4
  else if frameNumber = 8 then some 3
  else if frameNumber = 4 then some 2
  else if frameNumber = 2 then some 1
  else none

def roundOffset (n : Nat) : UInt16 := UInt16.ofNat (2 ^ (n - 1))

def averagePixel (n : Nat) (sum : UInt32) : UInt32 :=
  (sum + (roundOffset n).toUInt32) >>> UInt32.ofNat n

def multiFrameAverage (sums : Sums len) (out : Pixels len) (frameNumber : UInt8) :
    Sums len × Pixels len :=
  match averageShift frameNumber with
  | none => (sums, out)
  | some n =>
      (List.finRange len).foldl
        (fun now i =>
          (Function.update now.1 i (averagePixel n (now.1 i)),
            Function.update now.2 i (averagePixel n (now.1 i)).toUInt16))
        (sums, out)

end Loops

section Pixel

def swapBytes (p : UInt16) : Nat := 256 * (p.toNat % 256) + p.toNat / 256

def pixelValue (biToLi : Bool) (p : UInt16) : Nat := if biToLi then swapBytes p else p.toNat

theorem high_byte (p : UInt16) :
    (((p &&& 0xff) <<< 8) &&& 0xff00).toNat = 2 ^ 8 * (p.toNat % 256) := by
  have mask : (0xff00 : Nat) = (2 ^ 8 - 1) <<< 8 := rfl
  have low : p.toNat &&& 0xff = p.toNat % 256 := Nat.and_two_pow_sub_one_eq_mod p.toNat 8
  have small : p.toNat % 256 < 256 := Nat.mod_lt _ (by decide)
  have fits : (p.toNat % 256) <<< 8 % 2 ^ 16 = (p.toNat % 256) <<< 8 := by
    rw [Nat.shiftLeft_eq]
    omega
  rw [UInt16.toNat_and, UInt16.toNat_shiftLeft, UInt16.toNat_and]
  show (p.toNat &&& 0xff) <<< 8 % 2 ^ 16 &&& 0xff00 = _
  rw [low, fits, mask, ← Nat.shiftLeft_and_distrib, Nat.and_two_pow_sub_one_eq_mod,
    Nat.mod_eq_of_lt small, Nat.shiftLeft_eq, Nat.mul_comm]

theorem low_byte (p : UInt16) :
    (((p &&& 0xff00) >>> 8) &&& 0xff).toNat = p.toNat / 256 := by
  have small := p.toNat_lt
  have mask : (0xff00 : Nat) >>> 8 = 2 ^ 8 - 1 := rfl
  rw [UInt16.toNat_and, UInt16.toNat_shiftRight, UInt16.toNat_and]
  show (p.toNat &&& 0xff00) >>> 8 &&& (2 ^ 8 - 1) = _
  rw [Nat.shiftRight_and_distrib, mask, Nat.and_two_pow_sub_one_eq_mod,
    Nat.and_two_pow_sub_one_eq_mod, Nat.shiftRight_eq_div_pow]
  omega

theorem toNat_pixel (biToLi : Bool) (p : UInt16) :
    (pixel biToLi p).toNat = pixelValue biToLi p := by
  have small := p.toNat_lt
  cases biToLi with
  | true =>
      have byte : p.toNat / 256 < 2 ^ 8 := by omega
      rw [pixel, if_pos rfl, pixelValue, if_pos rfl, swapBytes, UInt16.toNat_or,
        high_byte, low_byte, ← Nat.two_pow_add_eq_or_of_lt byte]
  | false =>
      rw [pixel, if_neg (by decide), pixelValue, if_neg (by decide), UInt16.toNat_and]
      show p.toNat &&& (2 ^ 16 - 1) = _
      rw [Nat.and_two_pow_sub_one_eq_mod, Nat.mod_eq_of_lt small]

theorem pixelValue_lt (biToLi : Bool) (p : UInt16) : pixelValue biToLi p < 2 ^ 16 := by
  rw [← toNat_pixel]
  exact UInt16.toNat_lt _

end Pixel

section Sums
variable {len : Nat}

theorem foldl_update {α : Type} (f : Fin len → α → α) (is : List (Fin len)) (a : Fin len → α)
    (distinct : is.Nodup) (i : Fin len) :
    is.foldl (fun a n => Function.update a n (f n (a n))) a i = if i ∈ is then f i (a i) else a i := by
  induction is generalizing a with
  | nil => simp
  | cons n is ih =>
      obtain ⟨fresh, rest⟩ := List.nodup_cons.mp distinct
      rw [List.foldl_cons, ih _ rest]
      by_cases same : i = n
      · subst same
        rw [if_neg fresh, if_pos List.mem_cons_self, Function.update_self]
      · rw [Function.update_of_ne same]
        simp [same]

theorem multiFrameAddition_apply (sums : Sums len) (frame : Pixels len) (biToLi : Bool)
    (i : Fin len) :
    multiFrameAddition sums frame biToLi i = sums i + (pixel biToLi (frame i)).toUInt32 := by
  rw [multiFrameAddition, foldl_update (fun n sum => sum + (pixel biToLi (frame n)).toUInt32) _ _
    (List.nodup_finRange len), if_pos (List.mem_finRange i)]

def accumulate (biToLi : Bool) (frames : List (Pixels len)) : Sums len :=
  frames.foldl (fun sums frame => multiFrameAddition sums frame biToLi) 0

def total (biToLi : Bool) (frames : List (Pixels len)) (i : Fin len) : Nat :=
  (frames.map fun frame => pixelValue biToLi (frame i)).sum

theorem accumulate_concat (biToLi : Bool) (frames : List (Pixels len)) (frame : Pixels len) :
    accumulate biToLi (frames ++ [frame]) =
      multiFrameAddition (accumulate biToLi frames) frame biToLi := by
  rw [accumulate, List.foldl_append]
  rfl

theorem total_concat (biToLi : Bool) (frames : List (Pixels len)) (frame : Pixels len)
    (i : Fin len) : total biToLi (frames ++ [frame]) i =
      total biToLi frames i + pixelValue biToLi (frame i) := by
  simp [total]

theorem total_le (biToLi : Bool) (frames : List (Pixels len)) (i : Fin len) :
    total biToLi frames i ≤ frames.length * 65535 := by
  induction frames using List.reverseRecOn with
  | nil => simp [total]
  | append_singleton frames frame ih =>
      have one := pixelValue_lt biToLi (frame i)
      rw [total_concat, List.length_append, List.length_singleton]
      omega

/-- The sums are exact as long as the number of frames fits 16 bits. -/
theorem toNat_accumulate (biToLi : Bool) (frames : List (Pixels len)) (i : Fin len)
    (few : frames.length ≤ 65536) :
    (accumulate biToLi frames i).toNat = total biToLi frames i := by
  induction frames using List.reverseRecOn with
  | nil => rfl
  | append_singleton frames frame ih =>
      rw [List.length_append, List.length_singleton] at few
      have before := total_le biToLi frames i
      have one := pixelValue_lt biToLi (frame i)
      rw [accumulate_concat, total_concat, multiFrameAddition_apply, UInt32.toNat_add,
        UInt16.toNat_toUInt32, toNat_pixel, ih (by omega), Nat.mod_eq_of_lt (by omega)]

end Sums

section Average
variable {len : Nat}

theorem foldl_update_pair {α β : Type} (f : α → α) (h : α → β) (is : List (Fin len))
    (a : Fin len → α) (b : Fin len → β) (distinct : is.Nodup) :
    is.foldl (fun now i => (Function.update now.1 i (f (now.1 i)),
        Function.update now.2 i (h (now.1 i)))) (a, b) =
      (fun i => if i ∈ is then f (a i) else a i, fun i => if i ∈ is then h (a i) else b i) := by
  induction is generalizing a b with
  | nil => simp
  | cons n is ih =>
      obtain ⟨fresh, rest⟩ := List.nodup_cons.mp distinct
      rw [List.foldl_cons, ih _ _ rest]
      refine Prod.ext ?_ ?_
      · funext i
        by_cases same : i = n
        · subst same
          simp [fresh]
        · simp [same]
      · funext i
        by_cases same : i = n
        · subst same
          simp [fresh]
        · simp [same]

theorem multiFrameAverage_of_some (sums : Sums len) (out : Pixels len) (frameNumber : UInt8)
    (n : Nat) (supported : averageShift frameNumber = some n) :
    multiFrameAverage sums out frameNumber =
      (fun i => averagePixel n (sums i), fun i => (averagePixel n (sums i)).toUInt16) := by
  simp only [multiFrameAverage, supported]
  rw [foldl_update_pair (averagePixel n) (fun sum => (averagePixel n sum).toUInt16) _ _ _
    (List.nodup_finRange len)]
  simp only [List.mem_finRange, if_true]

theorem multiFrameAverage_of_none (sums : Sums len) (out : Pixels len) (frameNumber : UInt8)
    (refused : averageShift frameNumber = none) :
    multiFrameAverage sums out frameNumber = (sums, out) := by
  simp only [multiFrameAverage, refused]

theorem averageShift_eq_some (frameNumber : UInt8) (n : Nat)
    (supported : averageShift frameNumber = some n) :
    1 ≤ n ∧ n ≤ 7 ∧ frameNumber.toNat = 2 ^ n := by
  simp only [averageShift] at supported
  split_ifs at supported with h h h h h h h <;> cases supported <;> subst h <;> decide

theorem toNat_averagePixel (n : Nat) (sum : UInt32) (pos : 1 ≤ n) (le : n ≤ 7)
    (small : sum.toNat ≤ 2 ^ n * 65535) :
    sum.toNat + 2 ^ n / 2 < 2 ^ 32 ∧
      (averagePixel n sum).toNat = (sum.toNat + 2 ^ n / 2) / 2 ^ n ∧
        (averagePixel n sum).toNat < 2 ^ 16 := by
  have power : 2 ^ n = 2 * 2 ^ (n - 1) := by rw [← Nat.pow_succ', Nat.succ_eq_add_one]; congr; omega
  have large : 2 ^ (n - 1) ≤ 2 ^ 6 := Nat.pow_le_pow_right (by decide) (by omega)
  have nonzero : 0 < 2 ^ (n - 1) := Nat.two_pow_pos _
  have half : 2 ^ n / 2 = 2 ^ (n - 1) := by omega
  have offset : (roundOffset n).toUInt32.toNat = 2 ^ (n - 1) := by
    rw [UInt16.toNat_toUInt32, roundOffset, UInt16.toNat_ofNat', Nat.mod_eq_of_lt (by omega)]
  have shift : (UInt32.ofNat n).toNat % 32 = n := by
    rw [UInt32.toNat_ofNat', Nat.mod_eq_of_lt (by omega), Nat.mod_eq_of_lt (by omega)]
  have value : (averagePixel n sum).toNat = (sum.toNat + 2 ^ (n - 1)) / 2 ^ n := by
    rw [averagePixel, UInt32.toNat_shiftRight, UInt32.toNat_add, offset, shift,
      Nat.mod_eq_of_lt (by omega), Nat.shiftRight_eq_div_pow]
  rw [half]
  refine ⟨by omega, value, ?_⟩
  rw [value, Nat.div_lt_iff_lt_mul (Nat.two_pow_pos n)]
  omega

end Average

/-- The sums and the averages of `frames`, in the arithmetic of the natural numbers. -/
structure Averaged (g : Geometry) (biToLi : Bool) (frames : List (Pixels g.len))
    (frameNumber : UInt8) (out : Pixels g.len) : Prop where
  exact_sums : ∀ k ≤ frames.length, ∀ i,
    (accumulate biToLi (frames.take k) i).toNat = total biToLi (frames.take k) i
  exact_rounding : ∀ i, total biToLi frames i + frameNumber.toNat / 2 < 2 ^ 32
  exact_store : ∀ i,
    (multiFrameAverage (accumulate biToLi frames) out frameNumber).1 i < 2 ^ 16
  average : ∀ i,
    ((multiFrameAverage (accumulate biToLi frames) out frameNumber).2 i).toNat =
      (total biToLi frames i + frameNumber.toNat / 2) / frameNumber.toNat

theorem averaged_pixel (g : Geometry) (biToLi : Bool) (frames : List (Pixels g.len))
    (frameNumber : UInt8) (n : Nat) (supported : averageShift frameNumber = some n)
    (all : frames.length = frameNumber.toNat) (i : Fin g.len) :
    total biToLi frames i + frameNumber.toNat / 2 < 2 ^ 32 ∧
      (averagePixel n (accumulate biToLi frames i)).toNat =
        (total biToLi frames i + frameNumber.toNat / 2) / frameNumber.toNat ∧
      (averagePixel n (accumulate biToLi frames i)).toNat < 2 ^ 16 := by
  obtain ⟨pos, le, power⟩ := averageShift_eq_some frameNumber n supported
  have few := frameNumber.toNat_lt
  have sums := toNat_accumulate biToLi frames i (by omega)
  have bound := total_le biToLi frames i
  rw [all, power] at bound
  have pixel := toNat_averagePixel n (accumulate biToLi frames i) pos le (by rw [sums]; exact bound)
  rwa [sums, ← power] at pixel

/-- Averaging is exact for the numbers of frames that are supported. -/
theorem multiFrameAverage_exact (g : Geometry) (biToLi : Bool) (frames : List (Pixels g.len))
    (frameNumber : UInt8) (out : Pixels g.len) (supported : averageShift frameNumber ≠ none)
    (all : frames.length = frameNumber.toNat) : Averaged g biToLi frames frameNumber out := by
  obtain ⟨n, shift⟩ := Option.ne_none_iff_exists'.mp supported
  have few := frameNumber.toNat_lt
  have result := multiFrameAverage_of_some (accumulate biToLi frames) out frameNumber n shift
  have pixel := averaged_pixel g biToLi frames frameNumber n shift all
  refine ⟨fun k _ i => ?_, fun i => (pixel i).1, fun i => ?_, fun i => ?_⟩
  · exact toNat_accumulate biToLi _ i ((List.length_take_le _ _).trans (by omega))
  · rw [result, UInt32.lt_iff_toNat_lt]
    exact (pixel i).2.2
  · rw [result, UInt32.toNat_toUInt16, Nat.mod_eq_of_lt (pixel i).2.2]
    exact (pixel i).2.1

/-- Two frames of one pixel, in the byte order of the sensor. -/
theorem multiFrameAverage_exact_two :
    Averaged ⟨1, 1, by decide⟩ true [fun _ => 0x0100, fun _ => 0x0200] 2 (fun _ => 0) :=
  multiFrameAverage_exact ⟨1, 1, by decide⟩ true [fun _ => 0x0100, fun _ => 0x0200] 2 (fun _ => 0)
    (by decide) rfl

end WfyApp.MultiFrame
