import Mathlib

/-! Runs of a system given by a partial step function with labels. A run is the list of
its labels; a label that is not enabled stops it. The rules derive facts about whole
runs from facts about one step. -/

namespace WfyApp.StepSystem
variable {σ ℓ : Type} (step : σ → ℓ → Option σ)

def exec : σ → List ℓ → Option σ
  | s, [] => some s
  | s, l :: ls => (step s l).bind fun next => exec next ls

theorem exec_append (s : σ) (first second : List ℓ) :
    exec step s (first ++ second) = (exec step s first).bind fun m => exec step m second := by
  induction first generalizing s with
  | nil => rfl
  | cons l first ih =>
      rw [List.cons_append, exec, exec, Option.bind_assoc]
      congr 1
      funext next
      exact ih next

theorem exec_concat (s t : σ) (ls : List ℓ) (l : ℓ) :
    exec step s (ls ++ [l]) = some t ↔ ∃ m, exec step s ls = some m ∧ step m l = some t := by
  rw [exec_append, Option.bind_eq_some_iff]
  simp only [exec, Option.bind_fun_some]

theorem exec_history (start : σ) (P : List ℓ → σ → Prop) (init : P [] start)
    (keep : ∀ ls s l t, P ls s → step s l = some t → P (ls ++ [l]) t) (ls : List ℓ) (s : σ)
    (reached : exec step start ls = some s) : P ls s := by
  induction ls using List.reverseRecOn generalizing s with
  | nil =>
      cases reached
      exact init
  | append_singleton ls l ih =>
      obtain ⟨m, before, last⟩ := (exec_concat step start s ls l).mp reached
      exact keep ls m l s (ih m before) last

theorem exec_induction (start : σ) (P : σ → Prop) (init : P start)
    (keep : ∀ s l t, P s → step s l = some t → P t) (ls : List ℓ) (s : σ)
    (reached : exec step start ls = some s) : P s :=
  exec_history step start (fun _ => P) init (fun _ => keep) ls s reached

/-- Every step of the run is taken in a state in which the condition allows it. -/
def StepsMeet (condition : σ → ℓ → Prop) : σ → List ℓ → Prop
  | _, [] => True
  | s, l :: ls => condition s l ∧ ∀ next, step s l = some next → StepsMeet condition next ls

theorem exec_of_stepsMeet (P : σ → Prop) (condition : σ → ℓ → Prop)
    (keep : ∀ s l t, condition s l → P s → step s l = some t → P t) (ls : List ℓ) (s t : σ)
    (init : P s) (meets : StepsMeet step condition s ls) (reached : exec step s ls = some t) :
    P t := by
  induction ls generalizing s with
  | nil =>
      cases reached
      exact init
  | cons l ls ih =>
      obtain ⟨next, first, rest⟩ := Option.bind_eq_some_iff.mp reached
      exact ih next (keep s l next meets.1 init first) (meets.2 next first) rest

theorem exec_iff_stepsMeet (Inv good : σ → Prop) (condition : σ → ℓ → Prop)
    (keep : ∀ s l t, Inv s → step s l = some t → Inv t)
    (one : ∀ s l t, Inv s → step s l = some t → (good t ↔ good s ∧ condition s l))
    (ls : List ℓ) (s t : σ) (inv : Inv s) (reached : exec step s ls = some t) :
    good t ↔ good s ∧ StepsMeet step condition s ls := by
  induction ls generalizing s with
  | nil =>
      cases reached
      simp [StepsMeet]
  | cons l ls ih =>
      obtain ⟨next, first, rest⟩ := Option.bind_eq_some_iff.mp reached
      rw [ih next (keep s l next inv first) rest, one s l next inv first, StepsMeet, first]
      simp only [Option.some.injEq, forall_eq', and_assoc]

/-- If a step that does not meet a condition leads to a lost state, and lost states stay lost,
then a run that ends in a state that is not lost meets the condition. -/
theorem stepsMeet_of_not_lost (Inv lost : σ → Prop) (condition : σ → ℓ → Prop)
    (keep : ∀ s l t, Inv s → step s l = some t → Inv t)
    (stays : ∀ s l t, Inv s → lost s → step s l = some t → lost t)
    (one : ∀ s l t, Inv s → step s l = some t → ¬condition s l → lost t)
    (ls : List ℓ) (s t : σ) (inv : Inv s) (reached : exec step s ls = some t) (kept : ¬lost t) :
    StepsMeet step condition s ls := by
  induction ls generalizing s with
  | nil => trivial
  | cons l ls ih =>
      obtain ⟨next, first, rest⟩ := Option.bind_eq_some_iff.mp reached
      have invNext := keep s l next inv first
      refine ⟨by_contra fun misses => kept ?_, fun next' taken => ?_⟩
      · have both := exec_induction step next (fun s => Inv s ∧ lost s)
          ⟨invNext, one s l next inv first misses⟩
          (fun s l t both taken => ⟨keep s l t both.1 taken, stays s l t both.1 both.2 taken⟩)
          ls t rest
        exact both.2
      · obtain rfl : next = next' := Option.some.inj (first.symm.trans taken)
        exact ih next invNext rest

theorem forall_prefix_cons {ρ : Type} (r : ρ) (rs : List ρ) (Q : List ρ → Prop) :
    (∀ initial, initial <+: r :: rs → Q initial) ↔
      Q [] ∧ ∀ initial, initial <+: rs → Q (r :: initial) := by
  constructor
  · intro all
    exact ⟨all [] List.nil_prefix,
      fun initial before => all _ ((List.prefix_cons_inj r).mpr before)⟩
  · rintro ⟨first, rest⟩ initial before
    rcases List.prefix_cons_iff.mp before with rfl | ⟨shorter, rfl, inner⟩
    · exact first
    · exact rest shorter inner

/-- If a step from a good state leads to a good one exactly when it meets a condition, then
a run passes through good states only exactly when all its steps do. -/
theorem always_iff_stepsMeet (good : σ → Prop) (condition : σ → ℓ → Prop)
    (one : ∀ s l t, good s → step s l = some t → (good t ↔ condition s l))
    (ls : List ℓ) (s t : σ) (init : good s) (reached : exec step s ls = some t) :
    (∀ initial, initial <+: ls → ∀ m, exec step s initial = some m → good m) ↔
      StepsMeet step condition s ls := by
  induction ls generalizing s with
  | nil =>
      refine iff_of_true ?_ trivial
      intro initial before m same
      rw [List.prefix_nil.mp before] at same
      cases same
      exact init
  | cons l ls ih =>
      obtain ⟨next, first, rest⟩ := Option.bind_eq_some_iff.mp reached
      have start : ∀ m, exec step s [] = some m → good m := by
        intro m same
        cases same
        exact init
      have later (initial : List ℓ) : exec step s (l :: initial) = exec step next initial := by
        rw [exec, first, Option.bind_some]
      rw [forall_prefix_cons, and_iff_right start, StepsMeet, first, ← one s l next init first]
      simp only [later, Option.some.injEq, forall_eq']
      constructor
      · intro all
        have good_next := all [] List.nil_prefix next rfl
        exact ⟨good_next, (ih next good_next rest).mp all⟩
      · rintro ⟨good_next, meets⟩
        exact (ih next good_next rest).mpr meets

theorem always_iff_stepsMeet_of_inv (Inv good : σ → Prop) (condition : σ → ℓ → Prop)
    (keep : ∀ s l t, Inv s → step s l = some t → Inv t)
    (one : ∀ s l t, Inv s → good s → step s l = some t → (good t ↔ condition s l))
    (ls : List ℓ) (s t : σ) (inv : Inv s) (init : good s) (reached : exec step s ls = some t) :
    (∀ initial, initial <+: ls → ∀ m, exec step s initial = some m → good m) ↔
      StepsMeet step condition s ls := by
  have both := always_iff_stepsMeet step (fun s => Inv s ∧ good s) condition
    (fun s l t start taken => by
      rw [and_iff_right (keep s l t start.1 taken), one s l t start.1 start.2 taken])
    ls s t ⟨inv, init⟩ reached
  rw [← both]
  refine forall_congr' fun initial => forall_congr' fun _ => forall_congr' fun m => ?_
  refine forall_congr' fun passed => (and_iff_right ?_).symm
  exact exec_induction step s Inv inv keep initial m passed

theorem stepsMeet_iff_of_kept (Inv : σ → Prop) (first second : σ → ℓ → Prop)
    (keep : ∀ s l t, Inv s → step s l = some t → first s l → Inv t)
    (one : ∀ s l t, Inv s → step s l = some t → (first s l ↔ second s l))
    (ls : List ℓ) (s t : σ) (inv : Inv s) (reached : exec step s ls = some t) :
    StepsMeet step first s ls ↔ StepsMeet step second s ls := by
  induction ls generalizing s with
  | nil => exact Iff.rfl
  | cons l ls ih =>
      obtain ⟨next, taken, rest⟩ := Option.bind_eq_some_iff.mp reached
      rw [StepsMeet, StepsMeet, ← one s l next inv taken, taken]
      simp only [Option.some.injEq, forall_eq']
      exact and_congr_right fun met => ih next (keep s l next inv taken met) rest

theorem stepsMeet_iff_of_inv (Inv : σ → Prop) (first second : σ → ℓ → Prop)
    (keep : ∀ s l t, Inv s → step s l = some t → Inv t)
    (one : ∀ s l t, Inv s → step s l = some t → (first s l ↔ second s l))
    (ls : List ℓ) (s t : σ) (inv : Inv s) (reached : exec step s ls = some t) :
    StepsMeet step first s ls ↔ StepsMeet step second s ls :=
  stepsMeet_iff_of_kept step Inv first second (fun s l t inv taken _ => keep s l t inv taken) one
    ls s t inv reached

section Labels
variable {τ : Type} (next : τ → ℓ → τ)

/-- Every label meets a condition on the labels before it, of which `next` keeps track. -/
def LabelsMeet (condition : τ → ℓ → Prop) : τ → List ℓ → Prop
  | _, [] => True
  | t, l :: ls => condition t l ∧ LabelsMeet condition (next t l) ls

/-- A condition on the states is one on the labels if what is kept of the labels follows the
states for as long as it is met. -/
theorem stepsMeet_iff_labelsMeet (R : σ → τ → Prop) (first : σ → ℓ → Prop)
    (second : τ → ℓ → Prop)
    (one : ∀ s t l s', R s t → step s l = some s' →
      (first s l ↔ second t l) ∧ (first s l → R s' (next t l)))
    (ls : List ℓ) (s s' : σ) (t : τ) (related : R s t) (reached : exec step s ls = some s') :
    StepsMeet step first s ls ↔ LabelsMeet next second t ls := by
  induction ls generalizing s t with
  | nil => exact Iff.rfl
  | cons l ls ih =>
      obtain ⟨middle, taken, rest⟩ := Option.bind_eq_some_iff.mp reached
      obtain ⟨same, keep⟩ := one s t l middle related taken
      rw [StepsMeet, LabelsMeet, ← same, taken]
      simp only [Option.some.injEq, forall_eq']
      exact and_congr_right fun met => ih middle (next t l) (keep met) rest

theorem exec_of_labelsMeet (R : σ → τ → Prop) (condition : τ → ℓ → Prop)
    (keep : ∀ s t l s', R s t → step s l = some s' → condition t l → R s' (next t l))
    (ls : List ℓ) (s s' : σ) (t : τ) (related : R s t) (reached : exec step s ls = some s')
    (meets : LabelsMeet next condition t ls) : R s' (ls.foldl next t) := by
  induction ls generalizing s t with
  | nil =>
      cases reached
      exact related
  | cons l ls ih =>
      obtain ⟨middle, taken, rest⟩ := Option.bind_eq_some_iff.mp reached
      exact ih middle (next t l) (keep s t l middle related taken meets.1) rest meets.2

theorem stepsMeet_of_labelsMeet (R : σ → τ → Prop) (first : σ → ℓ → Prop)
    (second : τ → ℓ → Prop)
    (one : ∀ s t l s', R s t → step s l = some s' → second t l →
      first s l ∧ R s' (next t l))
    (ls : List ℓ) (s s' : σ) (t : τ) (related : R s t) (reached : exec step s ls = some s')
    (meets : LabelsMeet next second t ls) : StepsMeet step first s ls := by
  induction ls generalizing s t with
  | nil => trivial
  | cons l ls ih =>
      obtain ⟨middle, taken, rest⟩ := Option.bind_eq_some_iff.mp reached
      obtain ⟨met, keep⟩ := one s t l middle related taken meets.1
      refine ⟨met, fun next' same => ?_⟩
      obtain rfl : middle = next' := Option.some.inj (taken.symm.trans same)
      exact ih middle (next t l) keep rest meets.2

end Labels

def Preceded {α : Type} (p q : α → Prop) (log : List α) : Prop :=
  ∀ before x after, log = before ++ x :: after → p x → ∃ y ∈ before, q y

theorem preceded_nil {α : Type} (p q : α → Prop) : Preceded p q [] := by
  intro before x after split
  simp at split

theorem concat_eq_append_cons {α : Type} (log before after : List α) (last x : α) :
    log ++ [last] = before ++ x :: after ↔
      (log = before ∧ last = x ∧ after = []) ∨
        ∃ middle, after = middle ++ [last] ∧ log = before ++ x :: middle := by
  constructor
  · intro split
    rcases List.eq_nil_or_concat after with rfl | ⟨middle, final, rfl⟩
    · obtain ⟨same, ends⟩ := List.append_inj' split rfl
      exact .inl ⟨same, List.singleton_inj.mp ends, rfl⟩
    · rw [List.concat_eq_append, ← List.cons_append, ← List.append_assoc] at split
      obtain ⟨same, ends⟩ := List.append_inj' split rfl
      rw [List.concat_eq_append, List.singleton_inj.mp ends]
      exact .inr ⟨middle, rfl, same⟩
  · rintro (⟨rfl, rfl, rfl⟩ | ⟨middle, rfl, rfl⟩)
    · rfl
    · rw [List.append_assoc, List.cons_append]

theorem preceded_concat {α : Type} (p q : α → Prop) (log : List α) (last : α) :
    Preceded p q (log ++ [last]) ↔ Preceded p q log ∧ (p last → ∃ y ∈ log, q y) := by
  refine ⟨fun all => ⟨?_, fun holds => all log last [] rfl holds⟩, fun parts => ?_⟩
  · intro before x after split holds
    refine all before x (after ++ [last]) ?_ holds
    rw [split, List.append_assoc, List.cons_append]
  · intro before x after split holds
    rcases (concat_eq_append_cons log before after last x).mp split with
      ⟨rfl, rfl, -⟩ | ⟨middle, -, earlier⟩
    · exact parts.2 holds
    · exact parts.1 before x middle earlier holds

def latest {ε β : Type} (writes : ε → Option β) (initial : β) (events : List ε) : β :=
  (events.filterMap writes).getLast?.getD initial

theorem latest_concat {ε β : Type} (writes : ε → Option β) (initial : β) (events : List ε)
    (e : ε) :
    latest writes initial (events ++ [e]) = (writes e).getD (latest writes initial events) := by
  cases written : writes e with
  | none => simp [latest, written]
  | some value => simp [latest, written]

end WfyApp.StepSystem
