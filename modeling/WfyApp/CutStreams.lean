import Mathlib

/-! Streams with restart points from which elements are removed. A removal is harmless when
the next element that is kept is a restart point: then every other element that is kept
directly follows the one it was sent after. -/

namespace WfyApp.CutStreams
variable {α : Type} (restart : α → Bool)

/-- `Cut sent kept`: `kept` is `sent` without some elements, and the element kept next after
a removed one is a restart point. -/
inductive Cut : List α → List α → Prop where
  | nil : Cut [] []
  | keep (a : α) (sent kept : List α) : Cut sent kept → Cut (a :: sent) (a :: kept)
  | skip (a b : α) (sent kept : List α) : restart b = true → Cut sent (b :: kept) →
      Cut (a :: sent) (b :: kept)

theorem cut_refl (sent : List α) : Cut restart sent sent := by
  induction sent with
  | nil => exact .nil
  | cons a sent ih => exact .keep a sent sent ih

theorem cut_trans (sent kept left : List α) (first : Cut restart sent kept)
    (second : Cut restart kept left) : Cut restart sent left := by
  induction first generalizing left with
  | nil => exact second
  | keep a sent kept _ ih =>
    cases second with
    | keep _ _ left second => exact .keep a sent left (ih left second)
    | skip _ b _ left starts second => exact .skip a b sent left starts (ih _ second)
  | skip a b sent kept starts first ih =>
    cases second with
    | keep _ _ left second => exact .skip a b sent left starts (ih _ (.keep b kept left second))
    | skip _ c _ left restarts second =>
      exact .skip a c sent left restarts (ih _ (.skip b c kept left restarts second))

theorem cut_append (sent kept rest : List α) (cut : Cut restart sent kept) :
    Cut restart (sent ++ rest) (kept ++ rest) := by
  induction cut with
  | nil => exact cut_refl restart rest
  | keep a sent kept _ ih => exact .keep a _ _ ih
  | skip a b sent kept starts _ ih => exact .skip a b _ _ starts ih

theorem cut_block (front block rest : List α) (b : α) (starts : restart b = true) :
    Cut restart (front ++ (block ++ b :: rest)) (front ++ b :: rest) := by
  induction front with
  | nil =>
    induction block with
    | nil => exact cut_refl restart (b :: rest)
    | cons a block ih => exact .skip a b _ rest starts ih
  | cons a front ih => exact .keep a _ _ ih

/-- Kept next to each other, and no restart point: sent next to each other. -/
theorem adjacent_of_cut (sent kept : List α) (cut : Cut restart sent kept) (front rest : List α)
    (a b : α) (parts : kept = front ++ a :: b :: rest) (inside : restart b = false) :
    ∃ before after, sent = before ++ a :: b :: after := by
  induction cut generalizing front with
  | nil => simp at parts
  | keep c sent kept cut ih =>
    cases front with
    | nil =>
      obtain ⟨rfl, rfl⟩ := List.cons.inj parts
      cases cut with
      | keep _ sent _ _ => exact ⟨[], sent, rfl⟩
      | skip _ _ sent _ starts _ => simp [inside] at starts
    | cons d front =>
      obtain ⟨rfl, rfl⟩ := List.cons.inj parts
      obtain ⟨before, after, rfl⟩ := ih front rfl
      exact ⟨c :: before, after, rfl⟩
  | skip c d sent kept starts cut ih =>
    obtain ⟨before, after, rfl⟩ := ih front parts
    exact ⟨c :: before, after, rfl⟩

end WfyApp.CutStreams
