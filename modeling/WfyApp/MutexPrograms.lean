import Mathlib.Logic.Function.Basic
import WfyApp.StepSystem

/-! Threads that run programs over a shared state and one mutex. A program reads and writes
the state, asks the environment for yes or no, and locks and unlocks at any place, also more
than once. A check of each program by itself (`Prog.Settles`) says how many of its locks are
left, whatever the state and the answers; it carries over to every interleaving. -/

namespace WfyApp.MutexPrograms
open StepSystem

/-- `await` is a condition wait in a loop, `join` waits without the mutex, and `abort` ends
the process. -/
inductive Prog (σ Q R : Type) where
  | ret (r : R)
  | abort
  | lock (next : Prog σ Q R)
  | unlock (next : Prog σ Q R)
  | await (ready : σ → Bool) (next : Prog σ Q R)
  | join (ready : σ → Bool) (next : Prog σ Q R)
  | get (next : σ → Prog σ Q R)
  | set (f : σ → σ) (next : Prog σ Q R)
  | ask (q : Q) (next : Bool → Prog σ Q R)

namespace Prog
variable {σ Q R S : Type}

def bind : Prog σ Q R → (R → Prog σ Q S) → Prog σ Q S
  | ret r, f => f r
  | abort, _ => abort
  | lock next, f => lock (next.bind f)
  | unlock next, f => unlock (next.bind f)
  | await ready next, f => await ready (next.bind f)
  | join ready next, f => join ready (next.bind f)
  | get next, f => get fun s => (next s).bind f
  | set g next, f => set g (next.bind f)
  | ask q next, f => ask q fun answer => (next answer).bind f

instance : Monad (Prog σ Q) where
  pure := ret
  bind := bind

def acquire : Prog σ Q Unit := lock (ret ())

def release : Prog σ Q Unit := unlock (ret ())

/-- One condition wait gives the mutex up and takes it again. -/
def wait : Prog σ Q Unit := unlock (lock (ret ()))

def read : Prog σ Q σ := get ret

def modify (f : σ → σ) : Prog σ Q Unit := set f (ret ())

def guarded (p : Prog σ Q R) : Prog σ Q R := do
  acquire
  let r ← p
  release
  return r

/-- What a program does alone: nobody else holds the mutex or changes the state. -/
def eval (answers : Q → Bool) : Prog σ Q R → σ → Option (R × σ)
  | ret r, s => some (r, s)
  | abort, _ => none
  | lock next, s => next.eval answers s
  | unlock next, s => next.eval answers s
  | await ready next, s => if ready s then next.eval answers s else none
  | join ready next, s => if ready s then next.eval answers s else none
  | get next, s => (next s).eval answers s
  | set f next, s => next.eval answers (f s)
  | ask q next, s => (next (answers q)).eval answers s

section Eval
variable (answers : Q → Bool) (s : σ)

theorem eval_bind (p : Prog σ Q R) (f : R → Prog σ Q S) :
    (p >>= f).eval answers s = (p.eval answers s).bind fun (r, t) => (f r).eval answers t := by
  change (p.bind f).eval answers s = _
  induction p generalizing s with
  | ret r => rfl
  | abort => rfl
  | lock next ih => exact ih s
  | unlock next ih => exact ih s
  | await ready next ih | join ready next ih =>
      simp only [bind, eval]
      split_ifs
      · exact ih s
      · rfl
  | get next ih => exact ih s s
  | set g next ih => exact ih (g s)
  | ask q next ih => exact ih (answers q) s

/-- Alone, the program returns, and the result and the state are as wanted. -/
def Returns (p : Prog σ Q R) (post : R → σ → Prop) : Prop :=
  ∃ r t, p.eval answers s = some (r, t) ∧ post r t

variable {answers s} {post : R → σ → Prop}

@[simp] theorem returns_bind (p : Prog σ Q S) (f : S → Prog σ Q R) :
    Returns answers s (p >>= f) post ↔
      Returns answers s p fun r t => Returns answers t (f r) post := by
  simp only [Returns, eval_bind, Option.bind_eq_some_iff, Prod.exists]
  constructor
  · rintro ⟨r, t, ⟨q, m, first, rest⟩, ends⟩
    exact ⟨q, m, first, r, t, rest, ends⟩
  · rintro ⟨q, m, first, r, t, rest, ends⟩
    exact ⟨r, t, ⟨q, m, first, rest⟩, ends⟩

@[simp] theorem returns_ret (r : R) : Returns answers s (ret r) post ↔ post r s := by
  simp [Returns, eval]

@[simp] theorem returns_pure (r : R) : Returns answers s (pure r) post ↔ post r s := returns_ret r

@[simp] theorem returns_abort : Returns answers s abort post ↔ False := by
  simp [Returns, eval]

@[simp] theorem returns_read {post : σ → σ → Prop} :
    Returns answers s read post ↔ post s s := by
  change Returns answers s (ret s) post ↔ _
  exact returns_ret s

@[simp] theorem returns_modify {post : Unit → σ → Prop} (f : σ → σ) :
    Returns answers s (modify f) post ↔ post () (f s) := by
  change Returns answers (f s) (ret ()) post ↔ _
  exact returns_ret ()

@[simp] theorem returns_ask (q : Q) (next : Bool → Prog σ Q R) :
    Returns answers s (ask q next) post ↔ Returns answers s (next (answers q)) post := Iff.rfl

@[simp] theorem returns_ite (condition : Prop) [Decidable condition] (p q : Prog σ Q R) :
    Returns answers s (if condition then p else q) post ↔
      if condition then Returns answers s p post else Returns answers s q post := by
  split_ifs <;> exact Iff.rfl

@[simp] theorem returns_guarded (p : Prog σ Q R) :
    Returns answers s (guarded p) post ↔ Returns answers s p post := by
  have acquired (post : Unit → σ → Prop) : Returns answers s acquire post ↔ post () s := by
    change Returns answers s (ret ()) post ↔ _
    exact returns_ret ()
  have released (t : σ) (post : Unit → σ → Prop) : Returns answers t release post ↔ post () t := by
    change Returns answers t (ret ()) post ↔ _
    exact returns_ret ()
  simp only [guarded, returns_bind, acquired, released, returns_pure]

/-- If the program returns alone, the result and the state are as wanted. -/
def Ensures (answers : Q → Bool) (s : σ) (p : Prog σ Q R) (post : R → σ → Prop) : Prop :=
  ∀ r t, p.eval answers s = some (r, t) → post r t

@[simp] theorem ensures_bind (p : Prog σ Q S) (f : S → Prog σ Q R) :
    Ensures answers s (p >>= f) post ↔
      Ensures answers s p fun r t => Ensures answers t (f r) post := by
  simp only [Ensures, eval_bind, Option.bind_eq_some_iff, Prod.exists]
  constructor
  · intro all q m first r t rest
    exact all r t ⟨q, m, first, rest⟩
  · rintro all r t ⟨q, m, first, rest⟩
    exact all q m first r t rest

theorem ensures_mono {weaker : R → σ → Prop} (p : Prog σ Q R) (ensured : Ensures answers s p post)
    (weakens : ∀ r t, post r t → weaker r t) : Ensures answers s p weaker :=
  fun r t evaluated => weakens r t (ensured r t evaluated)

/-- A part that leaves the state as it is can be passed over. -/
theorem ensures_bind_unchanged (p : Prog σ Q S) (f : S → Prog σ Q R)
    (unchanged : Ensures answers s p fun _ t => t = s)
    (rest : ∀ r, Ensures answers s (f r) post) : Ensures answers s (p >>= f) post := by
  rw [ensures_bind]
  refine ensures_mono p unchanged ?_
  rintro r t rfl
  exact rest r

@[simp] theorem ensures_ret (r : R) : Ensures answers s (ret r) post ↔ post r s := by
  simp [Ensures, eval]

@[simp] theorem ensures_pure (r : R) : Ensures answers s (pure r) post ↔ post r s := ensures_ret r

@[simp] theorem ensures_abort : Ensures answers s abort post ↔ True := by
  simp [Ensures, eval]

@[simp] theorem ensures_read {post : σ → σ → Prop} :
    Ensures answers s read post ↔ post s s := by
  change Ensures answers s (ret s) post ↔ _
  exact ensures_ret s

@[simp] theorem ensures_modify {post : Unit → σ → Prop} (f : σ → σ) :
    Ensures answers s (modify f) post ↔ post () (f s) := by
  change Ensures answers (f s) (ret ()) post ↔ _
  exact ensures_ret ()

@[simp] theorem ensures_ask (q : Q) (next : Bool → Prog σ Q R) :
    Ensures answers s (ask q next) post ↔ Ensures answers s (next (answers q)) post := Iff.rfl

@[simp] theorem ensures_ite (condition : Prop) [Decidable condition] (p q : Prog σ Q R) :
    Ensures answers s (if condition then p else q) post ↔
      if condition then Ensures answers s p post else Ensures answers s q post := by
  split_ifs <;> exact Iff.rfl

@[simp] theorem ensures_acquire {post : Unit → σ → Prop} :
    Ensures answers s acquire post ↔ post () s := by
  change Ensures answers s (ret ()) post ↔ _
  exact ensures_ret ()

@[simp] theorem ensures_release {post : Unit → σ → Prop} :
    Ensures answers s release post ↔ post () s := by
  change Ensures answers s (ret ()) post ↔ _
  exact ensures_ret ()

@[simp] theorem ensures_guarded (p : Prog σ Q R) :
    Ensures answers s (guarded p) post ↔ Ensures answers s p post := by
  simp only [guarded, ensures_bind, ensures_acquire, ensures_release, ensures_pure]

end Eval

/-- `owed` counts the locks that are not given back, and `clean` says that no answer so far
was bad. -/
def Settles (bad : Q → Bool → Bool) :
    Prog σ Q R → Int → Prop → (R → Int → Prop → Prop) → Prop
  | ret r, owed, clean, post => post r owed clean
  | abort, _, _, _ => True
  | lock next, owed, clean, post => next.Settles bad (owed + 1) clean post
  | unlock next, owed, clean, post => next.Settles bad (owed - 1) clean post
  | await _ next, owed, clean, post => next.Settles bad owed clean post
  | join _ next, owed, clean, post => next.Settles bad owed clean post
  | get next, owed, clean, post => ∀ s, (next s).Settles bad owed clean post
  | set _ next, owed, clean, post => next.Settles bad owed clean post
  | ask q next, owed, clean, post =>
      ∀ answer, (next answer).Settles bad owed (clean ∧ bad q answer = false) post

section Settles
variable {bad : Q → Bool → Bool} {post : R → Int → Prop → Prop} {owed : Int} {clean : Prop}

@[simp] theorem settles_bind (p : Prog σ Q S) (f : S → Prog σ Q R) :
    (p >>= f).Settles bad owed clean post ↔
      p.Settles bad owed clean fun s owed clean => (f s).Settles bad owed clean post := by
  change (p.bind f).Settles bad owed clean post ↔ _
  induction p generalizing owed clean with
  | ret r => exact Iff.rfl
  | abort => exact Iff.rfl
  | lock next ih | unlock next ih | await ready next ih | join ready next ih | set g next ih =>
      exact ih
  | get next ih => exact forall_congr' fun s => ih s
  | ask q next ih => exact forall_congr' fun answer => ih answer

@[simp] theorem settles_pure (r : R) :
    (pure r : Prog σ Q R).Settles bad owed clean post ↔ post r owed clean := Iff.rfl

@[simp] theorem settles_ret (r : R) :
    (ret r : Prog σ Q R).Settles bad owed clean post ↔ post r owed clean := Iff.rfl

@[simp] theorem settles_await (ready : σ → Bool) (next : Prog σ Q R) :
    (await ready next).Settles bad owed clean post ↔ next.Settles bad owed clean post := Iff.rfl

@[simp] theorem settles_join (ready : σ → Bool) (next : Prog σ Q R) :
    (join ready next).Settles bad owed clean post ↔ next.Settles bad owed clean post := Iff.rfl

@[simp] theorem settles_abort : (abort : Prog σ Q R).Settles bad owed clean post ↔ True := Iff.rfl

@[simp] theorem settles_acquire {post : Unit → Int → Prop → Prop} :
    (acquire : Prog σ Q Unit).Settles bad owed clean post ↔ post () (owed + 1) clean := Iff.rfl

@[simp] theorem settles_release {post : Unit → Int → Prop → Prop} :
    (release : Prog σ Q Unit).Settles bad owed clean post ↔ post () (owed - 1) clean := Iff.rfl

@[simp] theorem settles_wait {post : Unit → Int → Prop → Prop} :
    (wait : Prog σ Q Unit).Settles bad owed clean post ↔ post () owed clean := by
  change post () (owed - 1 + 1) clean ↔ _
  rw [Int.sub_add_cancel]

@[simp] theorem settles_read {post : σ → Int → Prop → Prop} :
    (read : Prog σ Q σ).Settles bad owed clean post ↔ ∀ s, post s owed clean := Iff.rfl

@[simp] theorem settles_modify {post : Unit → Int → Prop → Prop} (f : σ → σ) :
    (modify f : Prog σ Q Unit).Settles bad owed clean post ↔ post () owed clean := Iff.rfl

@[simp] theorem settles_guarded (p : Prog σ Q R) :
    (guarded p).Settles bad owed clean post ↔
      p.Settles bad (owed + 1) clean fun r held clean => post r (held - 1) clean := by
  simp only [guarded, settles_bind, settles_acquire, settles_release, settles_pure]

@[simp] theorem settles_ite (condition : Prop) [Decidable condition] (p q : Prog σ Q R) :
    (if condition then p else q).Settles bad owed clean post ↔
      if condition then p.Settles bad owed clean post else q.Settles bad owed clean post := by
  split_ifs <;> exact Iff.rfl

end Settles

/-- All locks are given back unless an answer was bad. -/
def Exact (bad : Q → Bool → Bool) (p : Prog σ Q R) (owed : Int) (clean : Prop) : Prop :=
  p.Settles bad owed clean fun _ owed clean => owed = 0 ↔ clean

end Prog

structure Frame (σ Q R : Type) where
  rest : Prog σ Q R
  acquired : Nat
  released : Nat
  answers : List (Q × Bool)

namespace Frame
variable {σ Q R : Type}

def returned (f : Frame σ Q R) : Option R :=
  match f.rest with
  | .ret r => some r
  | _ => none

def Clean (bad : Q → Bool → Bool) (f : Frame σ Q R) : Prop :=
  ∀ a ∈ f.answers, bad a.1 a.2 = false

def Exact (bad : Q → Bool → Bool) (f : Frame σ Q R) : Prop :=
  f.rest.Exact bad (f.acquired - f.released) (f.Clean bad)

section Exact
variable {bad : Q → Bool → Bool} {f : Frame σ Q R} (exact : f.Exact bad)
include exact

theorem exact_lock (more : Prog σ Q R) (rest : f.rest = .lock more) :
    Frame.Exact bad { f with rest := more, acquired := f.acquired + 1 } := by
  rw [Frame.Exact, rest] at exact
  rw [Frame.Exact]
  push_cast
  rwa [add_sub_right_comm]

theorem exact_unlock (more : Prog σ Q R) (rest : f.rest = .unlock more) :
    Frame.Exact bad { f with rest := more, released := f.released + 1 } := by
  rw [Frame.Exact, rest] at exact
  rw [Frame.Exact]
  push_cast
  rwa [← sub_sub]

/-- A condition wait comes back to the same place with the same count. -/
theorem exact_wait (ready : σ → Bool) (more : Prog σ Q R) (rest : f.rest = .await ready more) :
    Frame.Exact bad { f with rest := .unlock (.lock (.await ready more)) } := by
  rw [Frame.Exact, rest] at exact
  change more.Exact bad (_ - 1 + 1) _
  rwa [Int.sub_add_cancel]

theorem exact_ask (q : Q) (more : Bool → Prog σ Q R) (rest : f.rest = .ask q more) (answer : Bool) :
    Frame.Exact bad { f with rest := more answer, answers := f.answers ++ [(q, answer)] } := by
  rw [Frame.Exact, rest] at exact
  have answers : (∀ a ∈ f.answers ++ [(q, answer)], bad a.1 a.2 = false) ↔
      f.Clean bad ∧ bad q answer = false := by
    simp [Frame.Clean, or_imp, forall_and]
  rw [Frame.Exact, Frame.Clean, answers]
  exact exact answer

theorem exact_returned (r : R) (returned : f.returned = some r) :
    f.acquired = f.released ↔ f.Clean bad := by
  cases rest : f.rest with
  | ret r' =>
      rw [Frame.Exact, rest] at exact
      have ended : (f.acquired : Int) - f.released = 0 ↔ f.Clean bad := exact
      rw [← ended]
      omega
  | _ => simp [Frame.returned, rest] at returned

end Exact

end Frame

abbrev Holder (T : Type) := Option (T × Nat)

structure Sys (T σ Q R : Type) where
  shared : σ
  holder : Holder T
  frames : T → Option (Frame σ Q R)
  dead : Bool

inductive Label (T M : Type) where
  | call (t : T) (m : M)
  | move (t : T) (answer : Bool)
deriving DecidableEq, Repr

section Steps
variable {T M σ Q R : Type} [DecidableEq T]

def Holder.lock (recursive : Bool) (t : T) : Holder T → Option (Holder T)
  | none => some (some (t, 1))
  | some (owner, depth) =>
      if recursive = true ∧ owner = t then some (some (t, depth + 1)) else none

def Holder.unlock (t : T) : Holder T → Holder T
  | none => none
  | some (owner, depth) =>
      if owner = t then if depth ≤ 1 then none else some (t, depth - 1) else some (owner, depth)

def Sys.resume (s : Sys T σ Q R) (t : T) (f : Frame σ Q R) : Sys T σ Q R :=
  { s with frames := Function.update s.frames t (some f) }

theorem resume_frames (s : Sys T σ Q R) (t : T) (f : Frame σ Q R) :
    (s.resume t f).frames = Function.update s.frames t (some f) := rfl

variable (recursive : Bool) (program : T → M → Option (Prog σ Q R))

def advance (s : Sys T σ Q R) (t : T) (answer : Bool) (f : Frame σ Q R) :
    Option (Sys T σ Q R) :=
  match f.rest with
  | .ret _ => none
  | .abort => some { s with dead := true }
  | .lock next => (s.holder.lock recursive t).map fun holder =>
      { s with holder := holder }.resume t { f with rest := next, acquired := f.acquired + 1 }
  | .unlock next => some ({ s with holder := s.holder.unlock t }.resume t
      { f with rest := next, released := f.released + 1 })
  | .await ready next =>
      if ready s.shared then some (s.resume t { f with rest := next })
      else some (s.resume t { f with rest := .unlock (.lock (.await ready next)) })
  | .join ready next => if ready s.shared then some (s.resume t { f with rest := next }) else none
  | .get next => some (s.resume t { f with rest := next s.shared })
  | .set g next => some ({ s with shared := g s.shared }.resume t { f with rest := next })
  | .ask q next =>
      some (s.resume t { f with rest := next answer, answers := f.answers ++ [(q, answer)] })

def idle (f : Option (Frame σ Q R)) : Bool := f.all fun f => f.returned.isSome

def step (s : Sys T σ Q R) : Label T M → Option (Sys T σ Q R)
  | .call t m =>
      if s.dead = false ∧ idle (s.frames t) then
        (program t m).map fun p => s.resume t ⟨p, 0, 0, []⟩
      else none
  | .move t answer =>
      if s.dead = false then (s.frames t).bind (advance recursive s t answer) else none

variable {recursive program} {bad : T → Q → Bool → Bool}

/-- Every thread that runs a call is on a path that the check of its program covers. -/
def Covered (bad : T → Q → Bool → Bool) (s : Sys T σ Q R) : Prop :=
  ∀ t f, s.frames t = some f → f.Exact (bad t)

theorem covered_resume (s : Sys T σ Q R) (t : T) (f : Frame σ Q R) (covered : Covered bad s)
    (exact : f.Exact (bad t)) : Covered bad (s.resume t f) := by
  intro t' f' running
  rw [resume_frames] at running
  by_cases same : t' = t
  · subst same
    rw [Function.update_self] at running
    cases running
    exact exact
  · rw [Function.update_of_ne same] at running
    exact covered t' f' running

theorem covered_advance (s next : Sys T σ Q R) (t : T) (answer : Bool) (f : Frame σ Q R)
    (covered : Covered bad s) (exact : f.Exact (bad t))
    (moved : advance recursive s t answer f = some next) : Covered bad next := by
  have same := exact
  rw [Frame.Exact] at same
  rw [advance] at moved
  cases rest : f.rest with
  | ret r => simp [rest] at moved
  | abort =>
      simp only [rest, Option.some.injEq] at moved
      subst moved
      exact covered
  | lock more =>
      simp only [rest, Option.map_eq_some_iff] at moved
      obtain ⟨holder, -, rfl⟩ := moved
      exact covered_resume _ t _ covered (Frame.exact_lock exact more rest)
  | unlock more =>
      simp only [rest, Option.some.injEq] at moved
      subst moved
      exact covered_resume _ t _ covered (Frame.exact_unlock exact more rest)
  | await ready more =>
      simp only [rest] at moved same
      split_ifs at moved with now
      · cases moved
        exact covered_resume s t _ covered same
      · cases moved
        exact covered_resume s t _ covered (Frame.exact_wait exact ready more rest)
  | join ready more =>
      simp only [rest] at moved same
      split_ifs at moved with now
      cases moved
      exact covered_resume s t _ covered same
  | get more =>
      simp only [rest, Option.some.injEq] at moved same
      subst moved
      exact covered_resume s t _ covered (same s.shared)
  | set g more =>
      simp only [rest, Option.some.injEq] at moved same
      subst moved
      exact covered_resume _ t _ covered same
  | ask q more =>
      simp only [rest, Option.some.injEq] at moved
      subst moved
      exact covered_resume s t _ covered (Frame.exact_ask exact q more rest answer)

theorem covered_step (checked : ∀ t m p, program t m = some p → p.Exact (bad t) 0 True)
    (s next : Sys T σ Q R) (l : Label T M) (covered : Covered bad s)
    (taken : step recursive program s l = some next) : Covered bad next := by
  cases l with
  | call t m =>
      rw [step] at taken
      split_ifs at taken with ready
      obtain ⟨p, found, rfl⟩ := Option.map_eq_some_iff.mp taken
      refine covered_resume s t _ covered ?_
      have clean : Frame.Clean (bad t) (⟨p, 0, 0, []⟩ : Frame σ Q R) ↔ True := by simp [Frame.Clean]
      rw [Frame.Exact, clean]
      exact checked t m p found
  | move t answer =>
      rw [step] at taken
      split_ifs at taken with alive
      obtain ⟨f, running, moved⟩ := Option.bind_eq_some_iff.mp taken
      exact covered_advance s next t answer f covered (covered t f running) moved

/-- In every interleaving, a call that has returned gave back all its locks exactly if none of
its answers was bad. -/
theorem returned_iff (checked : ∀ t m p, program t m = some p → p.Exact (bad t) 0 True)
    (labels : List (Label T M)) (start s : Sys T σ Q R) (fresh : ∀ t, start.frames t = none)
    (run : exec (step recursive program) start labels = some s) (t : T) (f : Frame σ Q R) (r : R)
    (running : s.frames t = some f) (returned : f.returned = some r) :
    f.acquired = f.released ↔ f.Clean (bad t) := by
  have covered : Covered bad start := by
    intro t f running
    rw [fresh t] at running
    cases running
  have all := exec_induction (step recursive program) start (Covered bad) covered
    (fun s l next => covered_step checked s next l) labels s run
  exact Frame.exact_returned (all t f running) r returned

/-- No other thread has the mutex. -/
def Alone (s : Sys T σ Q R) (t : T) : Prop :=
  s.dead = false ∧ ∀ owner depth, s.holder = some (owner, depth) → owner = t

theorem alone_lock (s : Sys T σ Q R) (t : T) (alone : Alone s t) :
    ∃ depth, s.holder.lock true t = some (some (t, depth)) := by
  cases held : s.holder with
  | none => exact ⟨1, rfl⟩
  | some owner =>
      obtain ⟨owner, depth⟩ := owner
      exact ⟨depth + 1, by simp [Holder.lock, alone.2 owner depth held]⟩

theorem alone_unlock (s : Sys T σ Q R) (t owner : T) (depth : Nat) (alone : Alone s t)
    (held : s.holder.unlock t = some (owner, depth)) : owner = t := by
  cases before : s.holder with
  | none => simp [before, Holder.unlock] at held
  | some last =>
      obtain ⟨last, count⟩ := last
      have own := alone.2 last count before
      rw [before, Holder.unlock, if_pos own] at held
      split_ifs at held
      cases held
      rfl

variable (program) in
/-- Moves of the thread lead to the end of its call, with this result and this state. -/
def Finishes (t : T) (r : R) (shared : σ) (s : Sys T σ Q R) : Prop :=
  ∃ labels next f, exec (step true program) s labels = some next ∧ Alone next t ∧
    next.shared = shared ∧ next.frames t = some f ∧ f.returned = some r

theorem finishes_of_advance (t : T) (r : R) (shared : σ) (s next : Sys T σ Q R) (answer : Bool)
    (f : Frame σ Q R) (alone : Alone s t) (running : s.frames t = some f)
    (moved : advance true s t answer f = some next) (later : Finishes program t r shared next) :
    Finishes program t r shared s := by
  obtain ⟨labels, last, g, run, ends⟩ := later
  have taken : step true program s (.move t answer) = some next := by
    rw [step, if_pos alone.1, running]
    exact moved
  refine ⟨.move t answer :: labels, last, g, ?_, ends⟩
  rw [exec, taken]
  exact run

variable (program) in
/-- A thread that has a recursive mutex to itself ends as `eval` tells. -/
theorem finishes_of_eval (answers : Q → Bool) (t : T) (r : R) (shared : σ) (p : Prog σ Q R)
    (s : Sys T σ Q R) (f : Frame σ Q R) (alone : Alone s t) (running : s.frames t = some f)
    (rest : f.rest = p) (evaluated : p.eval answers s.shared = some (r, shared)) :
    Finishes program t r shared s := by
  induction p generalizing s f with
  | ret r' =>
      simp only [Prog.eval, Option.some.injEq, Prod.mk.injEq] at evaluated
      obtain ⟨rfl, rfl⟩ := evaluated
      exact ⟨[], s, f, rfl, alone, rfl, running, by simp [Frame.returned, rest]⟩
  | abort => cases evaluated
  | lock more ih =>
      obtain ⟨depth, locked⟩ := alone_lock s t alone
      refine finishes_of_advance t r shared s _ true f alone running
        (by rw [advance, rest]; exact congrArg (Option.map _) locked) ?_
      exact ih _ _ ⟨alone.1, by simp [Sys.resume]⟩ (Function.update_self ..) rfl evaluated
  | unlock more ih =>
      refine finishes_of_advance t r shared s _ true f alone running (by rw [advance, rest]) ?_
      exact ih _ _ ⟨alone.1, fun owner depth => alone_unlock s t owner depth alone⟩
        (Function.update_self ..) rfl evaluated
  | await ready more ih | join ready more ih =>
      simp only [Prog.eval] at evaluated
      split_ifs at evaluated with now
      refine finishes_of_advance t r shared s _ true f alone running
        (by rw [advance, rest]; exact if_pos now) ?_
      exact ih _ _ alone (Function.update_self ..) rfl evaluated
  | get more ih =>
      refine finishes_of_advance t r shared s _ true f alone running (by rw [advance, rest]) ?_
      exact ih s.shared _ _ alone (Function.update_self ..) rfl evaluated
  | set g more ih =>
      refine finishes_of_advance t r shared s _ true f alone running (by rw [advance, rest]) ?_
      exact ih _ _ alone (Function.update_self ..) rfl evaluated
  | ask q more ih =>
      refine finishes_of_advance t r shared s _ (answers q) f alone running
        (by rw [advance, rest]) ?_
      exact ih (answers q) _ _ alone (Function.update_self ..) rfl evaluated

end Steps

end WfyApp.MutexPrograms
