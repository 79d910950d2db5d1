import Mathlib

/-! Who holds which lock, read off the program points of the threads. A step of one thread
keeps every lock with at most one holder if it takes only locks nobody held. The number of
threads in some phase changes by the moving thread's own phases only. -/

namespace WfyApp.HeldLocks
variable {T L : Type}

def Exclusive (holds : T → L → Prop) : Prop := ∀ l t u, holds t l → holds u l → t = u

def Free (holds : T → L → Prop) (l : L) : Prop := ∀ t, ¬ holds t l

/-- A step in which only `t` may gain locks, and only free ones. -/
theorem exclusive_step (holds next : T → L → Prop) (t : T) (exclusive : Exclusive holds)
    (others : ∀ u, u ≠ t → ∀ l, next u l → holds u l)
    (own : ∀ l, next t l → holds t l ∨ Free holds l) : Exclusive next := by
  -- a holder other than the moving thread was the holder before
  have known (l : L) (u : T) (holding : next u l) : u = t ∨ holds u l := by
    by_cases same : u = t
    · exact .inl same
    · exact .inr (others u same l holding)
  have clash (l : L) (u : T) (mine : next t l) (holding : holds u l) : u = t := by
    rcases own l mine with held | free
    · exact exclusive l u t holding held
    · exact absurd holding (free u)
  intro l u v first second
  rcases known l u first with rfl | first'
  · rcases known l v second with rfl | second'
    · rfl
    · exact (clash l v first second').symm
  · rcases known l v second with rfl | second'
    · exact clash l u second first'
    · exact exclusive l u v first' second'

section Count
variable [Fintype T] {A : Type}

def count (test : A → Bool) (point : T → A) : Nat := (Finset.univ.filter fun t => test (point t)).card

theorem count_eq_sum (test : A → Bool) (point : T → A) :
    count test point = ∑ t, (test (point t)).toNat := by
  rw [count, Finset.card_filter]
  refine Finset.sum_congr rfl fun t _ => ?_
  cases test (point t) <;> rfl

theorem count_lt (test : A → Bool) (point : T → A) (t : T) (fails : test (point t) = false) :
    count test point < Fintype.card T := by
  refine Finset.card_lt_univ_of_notMem (x := t) ?_
  simp [fails]

theorem count_update [DecidableEq T] (test : A → Bool) (point : T → A) (t : T) (a : A) :
    count test (Function.update point t a) + (test (point t)).toNat =
      count test point + (test a).toNat := by
  have rest : ∑ u ∈ Finset.univ.erase t, (test (Function.update point t a u)).toNat =
      ∑ u ∈ Finset.univ.erase t, (test (point u)).toNat := by
    refine Finset.sum_congr rfl fun u member => ?_
    rw [Function.update_of_ne (Finset.ne_of_mem_erase member)]
  rw [count_eq_sum, count_eq_sum, ← Finset.add_sum_erase _ _ (Finset.mem_univ t),
    ← Finset.add_sum_erase _ (fun u => (test (point u)).toNat) (Finset.mem_univ t), rest,
    Function.update_self]
  omega

end Count

end WfyApp.HeldLocks
