import Mathlib

/-! Programs of file operations under a single fault: one operation fails, or the process
stops before one. Bytes written to a stream reach the file no later than a successful
close; until then, and when a write or a close fails, the file holds some beginning of
them. -/

namespace WfyApp.FileFaults
variable {P α R T : Type}

inductive FileProg (P α R : Type) where
  | ret (r : R)
  | openRead (p : P) (next : Option (List α) → FileProg P α R)
  | closeRead (p : P) (next : Bool → FileProg P α R)
  | openWrite (p : P) (next : Bool → FileProg P α R)
  | write (p : P) (data : List α) (next : Bool → FileProg P α R)
  | close (p : P) (data : List α) (whole : Bool) (next : Bool → FileProg P α R)
  | rename (p q : P) (next : Bool → FileProg P α R)
  | unlink (p : P) (next : Bool → FileProg P α R)

namespace FileProg

def bind : FileProg P α R → (R → FileProg P α T) → FileProg P α T
  | ret r, f => f r
  | openRead p next, f => openRead p fun content => (next content).bind f
  | closeRead p next, f => closeRead p fun ok => (next ok).bind f
  | openWrite p next, f => openWrite p fun ok => (next ok).bind f
  | write p data next, f => write p data fun ok => (next ok).bind f
  | close p data whole next, f => close p data whole fun ok => (next ok).bind f
  | rename p q next, f => rename p q fun ok => (next ok).bind f
  | unlink p next, f => unlink p fun ok => (next ok).bind f

instance : Monad (FileProg P α) where
  pure := ret
  bind := bind

end FileProg

/-- Operations are counted from the fault's point of view: `0` is the next one. `kept` is
how much of the data under way is in the file when the fault strikes. -/
inductive Fault where
  | none
  | fails (n kept : Nat)
  | stops (n kept : Nat)
deriving DecidableEq, Repr

def Fault.kept : Fault → Nat
  | .none => 0
  | .fails _ kept => kept
  | .stops _ kept => kept

def Fault.tick : Fault → Fault
  | .none => .none
  | .fails 0 _ => .none
  | .fails (n + 1) kept => .fails n kept
  | .stops n kept => .stops (n - 1) kept

def Fault.strikes : Fault → Bool
  | .fails 0 _ => true
  | _ => false

def Fault.halts : Fault → Bool
  | .stops 0 _ => true
  | _ => false

@[simp] theorem tick_none : Fault.none.tick = .none := rfl
@[simp] theorem tick_fails_zero (kept : Nat) : (Fault.fails 0 kept).tick = .none := rfl
@[simp] theorem tick_fails_succ (n kept : Nat) :
    (Fault.fails (n + 1) kept).tick = .fails n kept := rfl
@[simp] theorem tick_stops_succ (n kept : Nat) :
    (Fault.stops (n + 1) kept).tick = .stops n kept := rfl
@[simp] theorem strikes_none : Fault.none.strikes = false := rfl
@[simp] theorem strikes_fails_zero (kept : Nat) : (Fault.fails 0 kept).strikes = true := rfl
@[simp] theorem strikes_fails_succ (n kept : Nat) :
    (Fault.fails (n + 1) kept).strikes = false := rfl
@[simp] theorem strikes_stops (n kept : Nat) : (Fault.stops n kept).strikes = false := rfl
@[simp] theorem halts_none : Fault.none.halts = false := rfl
@[simp] theorem halts_fails (n kept : Nat) : (Fault.fails n kept).halts = false := rfl
@[simp] theorem halts_stops_zero (kept : Nat) : (Fault.stops 0 kept).halts = true := rfl
@[simp] theorem halts_stops_succ (n kept : Nat) :
    (Fault.stops (n + 1) kept).halts = false := rfl

abbrev Disk (P α : Type) := P → Option (List α)

open FileProg in
/-- The disk at the end, and, unless the process was stopped, the result and what is left
of the fault. `whole` says that the stream took all of the data. -/
def run [DecidableEq P] : FileProg P α R → Disk P α → Fault → Disk P α × Option (R × Fault)
  | ret r, d, f => (d, some (r, f))
  | openRead p next, d, f =>
      if f.halts then (d, none)
      else run (next (if f.strikes then none else d p)) d f.tick
  | closeRead _ next, d, f =>
      if f.halts then (d, none) else run (next (!f.strikes)) d f.tick
  | openWrite p next, d, f =>
      if f.halts then (d, none)
      else if f.strikes then run (next false) d f.tick
      else run (next true) (Function.update d p (some [])) f.tick
  | write p data next, d, f =>
      if f.halts then (d, none)
      else run (next (!f.strikes)) (Function.update d p (some (data.take f.kept))) f.tick
  | close p data whole next, d, f =>
      if f.halts then (d, none)
      else if f.strikes then
        run (next false) (Function.update d p (some (data.take f.kept))) f.tick
      else run (next true) (if whole then Function.update d p (some data) else d) f.tick
  | rename p q next, d, f =>
      if f.halts then (d, none)
      else if f.strikes then run (next false) d f.tick
      else run (next true) (Function.update (Function.update d q (d p)) p none) f.tick
  | unlink p next, d, f =>
      if f.halts then (d, none)
      else run (next (!f.strikes)) (if f.strikes then d else Function.update d p none) f.tick

variable [DecidableEq P]

/-- The second program runs on what the first leaves, unless the process has stopped. -/
theorem run_bind (m : FileProg P α R) (g : R → FileProg P α T) (d : Disk P α) (f : Fault) :
    run (m >>= g) d f =
      match run m d f with
      | (d', none) => (d', none)
      | (d', some (r, f')) => run (g r) d' f' := by
  induction m generalizing d f with
  | ret r => rfl
  | openRead p next ih | closeRead p next ih | write p data next ih | unlink p next ih =>
      change (if f.halts then _ else _) = _
      simp only [run]
      cases f.halts
      · exact ih ..
      · rfl
  | openWrite p next ih | close p data whole next ih | rename p q next ih =>
      change (if f.halts then _ else _) = _
      simp only [run]
      cases f.halts
      · cases f.strikes
        · exact ih ..
        · exact ih ..
      · rfl

open FileProg in
/-- The program changes no file but those allowed. -/
def Touches (allowed : P → Prop) : FileProg P α R → Prop
  | ret _ => True
  | openRead _ next => ∀ content, Touches allowed (next content)
  | closeRead _ next => ∀ ok, Touches allowed (next ok)
  | openWrite p next => allowed p ∧ ∀ ok, Touches allowed (next ok)
  | write p _ next => allowed p ∧ ∀ ok, Touches allowed (next ok)
  | close p _ _ next => allowed p ∧ ∀ ok, Touches allowed (next ok)
  | rename p q next => (allowed p ∧ allowed q) ∧ ∀ ok, Touches allowed (next ok)
  | unlink p next => allowed p ∧ ∀ ok, Touches allowed (next ok)

/-- Whatever the fault, other files keep their content. -/
theorem run_other (allowed : P → Prop) {q : P} (other : ¬allowed q) (m : FileProg P α R)
    (touches : Touches allowed m) (d : Disk P α) (f : Fault) : (run m d f).1 q = d q := by
  have ne : ∀ p, allowed p → q ≠ p := fun p fine same => other (same ▸ fine)
  induction m generalizing d f with
  | ret r => rfl
  | openRead p next ih | closeRead p next ih =>
      simp only [run]
      split
      · rfl
      · exact ih _ (touches _) ..
  | openWrite p next ih =>
      simp only [run]
      split_ifs
      · rfl
      · exact ih _ (touches.2 _) ..
      · rw [ih _ (touches.2 _), Function.update_of_ne (ne p touches.1)]
  | write p data next ih =>
      simp only [run]
      split_ifs
      · rfl
      · rw [ih _ (touches.2 _), Function.update_of_ne (ne p touches.1)]
  | close p data whole next ih =>
      simp only [run]
      split_ifs
      · rfl
      · rw [ih _ (touches.2 _), Function.update_of_ne (ne p touches.1)]
      · rw [ih _ (touches.2 _), Function.update_of_ne (ne p touches.1)]
      · exact ih _ (touches.2 _) ..
  | rename p p' next ih =>
      simp only [run]
      split_ifs
      · rfl
      · exact ih _ (touches.2 _) ..
      · rw [ih _ (touches.2 _), Function.update_of_ne (ne p touches.1.1),
          Function.update_of_ne (ne p' touches.1.2)]
  | unlink p next ih =>
      simp only [run]
      split_ifs
      · rfl
      · exact ih _ (touches.2 _) ..
      · rw [ih _ (touches.2 _), Function.update_of_ne (ne p touches.1)]

end WfyApp.FileFaults
