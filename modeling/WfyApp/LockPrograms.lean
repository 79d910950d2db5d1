import WfyApp.StepSystem

/-! Threads that share one mutex. A program is a tree of calls, each with a yes or no
outcome that the environment chooses, and of lock operations; any number of threads run
such programs in any order. A check of each program by itself (`Prog.Safe`) gives what
holds in every interleaving. -/

namespace WfyApp.LockPrograms
open StepSystem

/-- What a thread does between two lock operations. -/
inductive Script (C R : Type) where
  | ret (r : R)
  | call (c : C) (next : Bool → Script C R)

namespace Script
variable {C R T : Type}

def bind : Script C R → (R → Script C T) → Script C T
  | ret r, f => f r
  | call c next, f => call c fun answer => (next answer).bind f

instance : Monad (Script C) where
  pure := ret
  bind := bind

def run (c : C) : Script C Bool := call c ret

def each : List C → Script C Unit
  | [] => ret ()
  | c :: cs => call c fun _ => each cs

def poll (c : C) : Nat → Script C Bool
  | 0 => ret false
  | n + 1 => call c fun answer => if answer then ret true else poll c n

/-- Every call the script can make is allowed. -/
def Calls (allowed : C → Prop) : Script C R → Prop
  | ret _ => True
  | call c next => allowed c ∧ ∀ answer, (next answer).Calls allowed

variable {allowed : C → Prop}

@[simp] theorem calls_pure (r : R) : (pure r : Script C R).Calls allowed := trivial

@[simp] theorem calls_run (c : C) : (run c).Calls allowed ↔ allowed c := by
  simp [run, Calls]

@[simp] theorem calls_each (cs : List C) : (each cs).Calls allowed ↔ ∀ c ∈ cs, allowed c := by
  induction cs with
  | nil => simp [each, Calls]
  | cons c cs ih => simp [each, Calls, ih]

theorem calls_poll (c : C) (n : Nat) (fine : allowed c) : (poll c n).Calls allowed := by
  induction n with
  | zero => trivial
  | succ n ih =>
      refine ⟨fine, fun answer => ?_⟩
      cases answer
      · exact ih
      · trivial

theorem calls_bind (p : Script C R) (f : R → Script C T) (first : p.Calls allowed)
    (rest : ∀ r, (f r).Calls allowed) : (p >>= f).Calls allowed := by
  induction p with
  | ret r => exact rest r
  | call c next ih => exact ⟨first.1, fun answer => ih answer (first.2 answer)⟩

theorem calls_ite (condition : Prop) [Decidable condition] (p q : Script C R)
    (yes : p.Calls allowed) (no : q.Calls allowed) :
    (if condition then p else q).Calls allowed := by
  split <;> assumption

theorem calls_of_forall (fine : ∀ c, allowed c) (p : Script C R) : p.Calls allowed := by
  induction p with
  | ret r => trivial
  | call c next ih => exact ⟨fine c, ih⟩

def Ends (fine : R → Prop) : Script C R → Prop
  | ret r => fine r
  | call _ next => ∀ answer, (next answer).Ends fine

variable {fine : R → Prop}

@[simp] theorem ends_pure (r : R) : (pure r : Script C R).Ends fine ↔ fine r := Iff.rfl

theorem ends_of_forall (all : ∀ r, fine r) (p : Script C R) : p.Ends fine := by
  induction p with
  | ret r => exact all r
  | call c next ih => exact ih

theorem ends_bind (p : Script C T) (f : T → Script C R) (rest : ∀ r, (f r).Ends fine) :
    (p >>= f).Ends fine := by
  induction p with
  | ret r => exact rest r
  | call c next ih => exact ih

theorem ends_mono {weaker : R → Prop} (p : Script C R) (implies : ∀ r, fine r → weaker r)
    (ends : p.Ends fine) : p.Ends weaker := by
  induction p with
  | ret r => exact implies r ends
  | call c next ih => exact fun answer => ih answer (ends answer)

theorem ends_ite (condition : Prop) [Decidable condition] (p q : Script C R)
    (yes : p.Ends fine) (no : q.Ends fine) : (if condition then p else q).Ends fine := by
  split <;> assumption

end Script

inductive Event (S C : Type) where
  | called (s : S) (c : C) (answer : Bool)
  | locked
  | refused
  | unlocked
deriving DecidableEq, Repr

/-- A whole program; `S` names the part of the work a call belongs to. -/
inductive Prog (S C R : Type) where
  | ret (r : R)
  | call (s : S) (c : C) (next : Bool → Prog S C R)
  | tryLock (taken busy : Prog S C R)
  | lock (next : Prog S C R)
  | unlock (next : Prog S C R)

inductive Mode where
  | fresh
  | holding
  | refused
  | released
deriving DecidableEq, Repr

/-- Where a thread stands with the mutex after one more event. -/
def Mode.after {S C : Type} : Mode → Event S C → Mode
  | m, .called _ _ _ => m
  | _, .locked => .holding
  | _, .refused => .refused
  | _, .unlocked => .released

def mode {S C : Type} (trace : List (Event S C)) : Mode := trace.foldl Mode.after .fresh

@[simp] theorem mode_nil {S C : Type} : mode ([] : List (Event S C)) = .fresh := rfl

@[simp] theorem mode_concat {S C : Type} (trace : List (Event S C)) (e : Event S C) :
    mode (trace ++ [e]) = (mode trace).after e := by
  simp [mode]

/-- The moves the mutex and the mode of a thread allow. -/
inductive Move {S C : Type} (guarded : S → C → Prop) (m : Mode) : Event S C → Prop where
  | called (s : S) (c : C) (answer : Bool) (held : guarded s c → m = .holding) :
      Move guarded m (.called s c answer)
  | locked (fresh : m = .fresh) : Move guarded m .locked
  | refused (fresh : m = .fresh) : Move guarded m .refused
  | unlocked (holding : m = .holding) : Move guarded m .unlocked

namespace Prog
variable {S C R T : Type}

def bind : Prog S C R → (R → Prog S C T) → Prog S C T
  | ret r, f => f r
  | call s c next, f => call s c fun answer => (next answer).bind f
  | tryLock taken busy, f => tryLock (taken.bind f) (busy.bind f)
  | lock next, f => lock (next.bind f)
  | unlock next, f => unlock (next.bind f)

instance : Monad (Prog S C) where
  pure := ret
  bind := bind

def within (s : S) : Script C R → Prog S C R
  | .ret r => ret r
  | .call c next => call s c fun answer => within s (next answer)

theorem within_bind (s : S) (p : Script C R) (f : R → Script C T) :
    (within s (p >>= f) : Prog S C T) = within s p >>= fun r => within s (f r) := by
  induction p with
  | ret r => rfl
  | call c next ih => exact congrArg (call s c) (funext ih)

def release : Prog S C Unit := unlock (ret ())

def next [DecidableEq S] [DecidableEq C] : Prog S C R → Event S C → Option (Prog S C R)
  | call s c next, .called s' c' answer => if s = s' ∧ c = c' then some (next answer) else none
  | tryLock taken _, .locked => some taken
  | tryLock _ busy, .refused => some busy
  | lock next, .locked => some next
  | unlock next, .unlocked => some next
  | _, _ => none

theorem next_call [DecidableEq S] [DecidableEq C] {s : S} {c : C} {more : Bool → Prog S C R}
    {e : Event S C} {q : Prog S C R} (happens : (call s c more).next e = some q) :
    ∃ answer, e = .called s c answer ∧ q = more answer := by
  cases e with
  | called s' c' answer =>
      simp only [next] at happens
      split_ifs at happens with same
      obtain ⟨rfl, rfl⟩ := same
      exact ⟨answer, rfl, (Option.some.inj happens).symm⟩
  | locked | refused | unlocked => cases happens

variable (guarded : S → C → Prop)

/-- The program calls what is guarded only while it holds the mutex, takes the mutex at
most once, gives up only what it holds, and ends in a mode that fits its result. -/
def Safe (final : Mode → R → Prop) : Mode → Prog S C R → Prop
  | m, ret r => final m r
  | m, call s c next => (guarded s c → m = .holding) ∧ ∀ answer, Safe final m (next answer)
  | m, tryLock taken busy => m = .fresh ∧ Safe final .holding taken ∧ Safe final .refused busy
  | m, lock next => m = .fresh ∧ Safe final .holding next
  | m, unlock next => m = .holding ∧ Safe final .released next

variable {guarded} {final : Mode → T → Prop} {m : Mode}

theorem safe_bind (p : Prog S C R) (f : R → Prog S C T)
    (safe : Safe guarded (fun m r => Safe guarded final m (f r)) m p) :
    Safe guarded final m (p >>= f) := by
  induction p generalizing m with
  | ret r => exact safe
  | call s c next ih => exact ⟨safe.1, fun answer => ih answer (safe.2 answer)⟩
  | tryLock taken busy ihTaken ihBusy =>
      exact ⟨safe.1, ihTaken safe.2.1, ihBusy safe.2.2⟩
  | lock next ih => exact ⟨safe.1, ih safe.2⟩
  | unlock next ih => exact ⟨safe.1, ih safe.2⟩

theorem safe_within (s : S) (p : Script C T)
    (calls : p.Calls fun c => guarded s c → m = .holding) (ends : p.Ends (final m)) :
    Safe guarded final m (within s p) := by
  induction p with
  | ret r => exact ends
  | call c next ih => exact ⟨calls.1, fun answer => ih answer (calls.2 answer) (ends answer)⟩

theorem safe_held_ends (s : S) (p : Script C R) (f : R → Prog S C T)
    (rest : p.Ends fun r => Safe guarded final .holding (f r)) :
    Safe guarded final .holding (within s p >>= f) :=
  safe_bind _ _ (safe_within s p (Script.calls_of_forall (fun _ _ => rfl) p) rest)

theorem safe_held (s : S) (p : Script C R) (f : R → Prog S C T)
    (rest : ∀ r, Safe guarded final .holding (f r)) :
    Safe guarded final .holding (within s p >>= f) :=
  safe_held_ends s p f (Script.ends_of_forall rest p)

theorem safe_open (s : S) (p : Script C R) (f : R → Prog S C T)
    (harmless : p.Calls fun c => ¬guarded s c) (rest : ∀ r, Safe guarded final m (f r)) :
    Safe guarded final m (within s p >>= f) := by
  refine safe_bind _ _ (safe_within s p ?_ (Script.ends_of_forall rest p))
  induction p with
  | ret r => trivial
  | call c next ih =>
      exact ⟨fun bad => absurd bad harmless.1, fun answer => ih answer (harmless.2 answer)⟩

theorem safe_release (f : Unit → Prog S C T) (rest : Safe guarded final .released (f ())) :
    Safe guarded final .holding (release >>= f) := ⟨rfl, rest⟩

theorem safe_ite (condition : Prop) [Decidable condition] (p q : Prog S C T)
    (yes : condition → Safe guarded final m p) (no : ¬condition → Safe guarded final m q) :
    Safe guarded final m (if condition then p else q) := by
  split
  · exact yes ‹_›
  · exact no ‹_›

/-- A safe program makes only such moves, and stays safe. -/
theorem safe_next [DecidableEq S] [DecidableEq C] (p p' : Prog S C T) (e : Event S C)
    (safe : Safe guarded final m p) (happens : p.next e = some p') :
    Safe guarded final (m.after e) p' ∧ Move guarded m e := by
  cases p with
  | ret r => cases e <;> simp [next] at happens
  | call s c rest =>
      obtain ⟨answer, rfl, rfl⟩ := next_call happens
      exact ⟨safe.2 answer, .called s c answer safe.1⟩
  | tryLock taken busy =>
      cases e with
      | locked =>
          cases happens
          exact ⟨safe.2.1, .locked safe.1⟩
      | refused =>
          cases happens
          exact ⟨safe.2.2, .refused safe.1⟩
      | called s c answer | unlocked => simp [next] at happens
  | lock rest =>
      cases e with
      | locked =>
          cases happens
          exact ⟨safe.2, .locked safe.1⟩
      | called s c answer | refused | unlocked => simp [next] at happens
  | unlock rest =>
      cases e with
      | unlocked =>
          cases happens
          exact ⟨safe.2, .unlocked safe.1⟩
      | called s c answer | locked | refused => simp [next] at happens

/-- The program gets along the trace to what is left of it. -/
def Reaches [DecidableEq S] [DecidableEq C] (p : Prog S C R) (trace : List (Event S C))
    (q : Prog S C R) : Prop := exec Prog.next p trace = some q

theorem bind_eq_ret {p : Prog S C R} {f : R → Prog S C T} {r : T}
    (same : (p >>= f) = ret r) : ∃ a, p = ret a ∧ f a = ret r := by
  cases p with
  | ret a => exact ⟨a, rfl, same⟩
  | call s c rest | tryLock taken busy | lock rest | unlock rest => cases same

section Paths
variable [DecidableEq S] [DecidableEq C] {trace : List (Event S C)}

theorem reaches_nil {p q : Prog S C R} (path : p.Reaches [] q) : q = p :=
  (Option.some.inj path).symm

theorem reaches_cons {p q : Prog S C R} {e : Event S C} (path : p.Reaches (e :: trace) q) :
    ∃ p', p.next e = some p' ∧ p'.Reaches trace q :=
  Option.bind_eq_some_iff.mp path

theorem reaches_ret {r : R} {q : Prog S C R} (path : (ret r : Prog S C R).Reaches trace q) :
    trace = [] ∧ q = ret r := by
  cases trace with
  | nil => exact ⟨rfl, reaches_nil path⟩
  | cons e trace =>
      obtain ⟨p', happens, -⟩ := reaches_cons path
      cases e <;> cases happens

theorem reaches_tryLock {taken busy q : Prog S C R} (path : (tryLock taken busy).Reaches trace q)
    (moved : trace ≠ []) :
    (∃ rest, trace = .locked :: rest ∧ taken.Reaches rest q) ∨
      ∃ rest, trace = .refused :: rest ∧ busy.Reaches rest q := by
  cases trace with
  | nil => exact absurd rfl moved
  | cons e trace =>
      obtain ⟨p', happens, rest⟩ := reaches_cons path
      cases e with
      | locked =>
          cases happens
          exact .inl ⟨trace, rfl, rest⟩
      | refused =>
          cases happens
          exact .inr ⟨trace, rfl, rest⟩
      | called s c answer | unlocked => cases happens

theorem next_bind (p : Prog S C R) (f : R → Prog S C T) (e : Event S C) :
    (∃ r, p = ret r ∧ (p >>= f).next e = (f r).next e) ∨
      (p >>= f).next e = (p.next e).map (· >>= f) := by
  cases p with
  | ret r => exact .inl ⟨r, rfl, rfl⟩
  | call s c rest =>
      refine .inr ?_
      cases e with
      | called s' c' answer =>
          change (if s = s' ∧ c = c' then some (rest answer >>= f) else none) =
            (if s = s' ∧ c = c' then some (rest answer) else none).map (· >>= f)
          split <;> rfl
      | locked | refused | unlocked => rfl
  | tryLock taken busy | lock rest | unlock rest => cases e <;> exact .inr rfl

/-- A path through a sequence ends inside its first part, or goes through it. -/
theorem reaches_bind {p : Prog S C R} {f : R → Prog S C T} {q : Prog S C T}
    (path : (p >>= f).Reaches trace q) :
    (∃ p', p.Reaches trace p' ∧ (∀ r, p' ≠ ret r) ∧ q = p' >>= f) ∨
      ∃ first second r, trace = first ++ second ∧ p.Reaches first (ret r) ∧
        (f r).Reaches second q := by
  induction trace generalizing p with
  | nil =>
      cases p with
      | ret r => exact .inr ⟨[], [], r, rfl, rfl, path⟩
      | call s c rest | tryLock taken busy | lock rest | unlock rest =>
          exact .inl ⟨_, rfl, by simp, reaches_nil path⟩
  | cons e trace ih =>
      obtain ⟨m, happens, rest⟩ := reaches_cons path
      rcases next_bind p f e with ⟨r, rfl, same⟩ | same
      · exact .inr ⟨[], e :: trace, r, rfl, rfl, path⟩
      · rw [same] at happens
        obtain ⟨p', moves, rfl⟩ := Option.map_eq_some_iff.mp happens
        rcases ih rest with ⟨p'', inner, running, rfl⟩ | ⟨first, second, r, rfl, inner, outer⟩
        · exact .inl ⟨p'', Option.bind_eq_some_iff.mpr ⟨p', moves, inner⟩, running, rfl⟩
        · exact .inr ⟨e :: first, second, r, rfl,
            Option.bind_eq_some_iff.mpr ⟨p', moves, inner⟩, outer⟩

theorem returns_bind {p : Prog S C R} {f : R → Prog S C T} {r : T}
    (path : (p >>= f).Reaches trace (ret r)) :
    ∃ first second a, trace = first ++ second ∧ p.Reaches first (ret a) ∧
      (f a).Reaches second (ret r) := by
  rcases reaches_bind path with ⟨p', inner, running, same⟩ | through
  · obtain ⟨a, done, -⟩ := bind_eq_ret same.symm
    exact absurd done (running a)
  · exact through

theorem reaches_map_call {p : Prog S C R} {g : R → T} {s : S} {c : C} {more : Bool → Prog S C T}
    (path : (p >>= fun a => pure (g a)).Reaches trace (call s c more)) :
    ∃ more', p.Reaches trace (call s c more') := by
  rcases reaches_bind path with ⟨p', inner, running, same⟩ | ⟨first, second, r, -, -, rest⟩
  · cases p' with
    | ret r => exact absurd rfl (running r)
    | call s' c' rest =>
        cases same
        exact ⟨rest, inner⟩
    | tryLock taken busy | lock rest | unlock rest => cases same
  · cases (reaches_ret rest).2

theorem returns_map {p : Prog S C R} {g : R → T} {r : T}
    (path : (p >>= fun a => pure (g a)).Reaches trace (ret r)) :
    ∃ a, p.Reaches trace (ret a) ∧ r = g a := by
  obtain ⟨first, second, a, rfl, inner, rest⟩ := returns_bind path
  obtain ⟨rfl, same⟩ := reaches_ret rest
  cases same
  exact ⟨a, (List.append_nil first).symm ▸ inner, rfl⟩

def InPart (s : S) (trace : List (Event S C)) : Prop :=
  ∀ e ∈ trace, ∃ c answer, e = .called s c answer

theorem reaches_within {s : S} {p : Script C R} {q : Prog S C R}
    (path : (within s p).Reaches trace q) :
    InPart s trace ∧ ∃ p', q = within s p' ∧ ∀ fine : R → Prop, p.Ends fine → p'.Ends fine := by
  induction trace generalizing p with
  | nil => exact ⟨fun _ member => absurd member List.not_mem_nil, p, reaches_nil path, fun _ => id⟩
  | cons e trace ih =>
      obtain ⟨m, happens, rest⟩ := reaches_cons path
      cases p with
      | ret r => cases e <;> cases happens
      | call c more =>
          obtain ⟨answer, rfl, rfl⟩ := next_call happens
          obtain ⟨calls, p', left, ends⟩ := ih rest
          refine ⟨fun e member => ?_, p', left, fun fine all => ends fine (all answer)⟩
          rcases List.mem_cons.mp member with rfl | later
          · exact ⟨c, answer, rfl⟩
          · exact calls e later

theorem calls_within {s : S} {p : Script C R} {q : Prog S C R} {allowed : C → Prop}
    (calls : p.Calls allowed) (path : (within s p).Reaches trace q) :
    ∀ part c answer, .called part c answer ∈ trace → allowed c := by
  induction trace generalizing p with
  | nil => exact fun _ _ _ member => absurd member List.not_mem_nil
  | cons e trace ih =>
      obtain ⟨m, happens, rest⟩ := reaches_cons path
      cases p with
      | ret r => cases e <;> cases happens
      | call c more =>
          obtain ⟨answer, rfl, rfl⟩ := next_call happens
          intro part c' answer' member
          rcases List.mem_cons.mp member with same | later
          · cases same
            exact calls.1
          · exact ih (calls.2 answer) rest part c' answer' later

theorem returns_within {s : S} {p : Script C R} {r : R} (path : (within s p).Reaches trace (ret r)) :
    InPart s trace ∧ ∀ fine : R → Prop, p.Ends fine → fine r := by
  obtain ⟨calls, p', same, ends⟩ := reaches_within path
  cases p' with
  | ret r' =>
      cases same
      exact ⟨calls, ends⟩
  | call c more => cases same

/-- A program that is at a call of another part has been through this one. -/
theorem reaches_past {s other : S} {p : Script C R} {f : R → Prog S C T} {c : C}
    {more : Bool → Prog S C T} (path : (within s p >>= f).Reaches trace (call other c more))
    (differs : s ≠ other) :
    ∃ first second r, trace = first ++ second ∧ (within s p).Reaches first (ret r) ∧
      (f r).Reaches second (call other c more) := by
  rcases reaches_bind path with ⟨p', inner, running, same⟩ | through
  · obtain ⟨-, p'', rfl, -⟩ := reaches_within inner
    cases p'' with
    | ret r => exact absurd rfl (running r)
    | call c' rest =>
        cases same
        exact absurd rfl differs
  · exact through

def Admits (allowed : S → C → Prop) : Prog S C R → Prop
  | ret _ => True
  | call s c next => allowed s c ∧ ∀ answer, (next answer).Admits allowed
  | tryLock taken busy => taken.Admits allowed ∧ busy.Admits allowed
  | lock next => next.Admits allowed
  | unlock next => next.Admits allowed

theorem returns_within_call {s : S} {c : C} {more : Bool → Script C R} {r : R}
    (path : (within s (.call c more)).Reaches trace (ret r)) :
    ∃ answer rest, trace = .called s c answer :: rest := by
  cases trace with
  | nil => cases reaches_nil path
  | cons e trace =>
      obtain ⟨m, happens, -⟩ := reaches_cons path
      obtain ⟨answer, rfl, -⟩ := next_call happens
      exact ⟨answer, trace, rfl⟩

theorem returns_run {s : S} {c : C} {r : Bool}
    (path : (within s (Script.run c)).Reaches trace (ret r)) : trace = [.called s c r] := by
  obtain ⟨answer, rest, rfl⟩ := returns_within_call path
  obtain ⟨m, happens, path⟩ := reaches_cons path
  obtain ⟨answer', same, rfl⟩ := next_call happens
  cases same
  obtain ⟨rfl, same⟩ := reaches_ret path
  cases same
  rfl

theorem admits_reaches {allowed : S → C → Prop} {p q : Prog S C R} (admits : p.Admits allowed)
    (path : p.Reaches trace q) :
    q.Admits allowed ∧ ∀ s c answer, .called s c answer ∈ trace → allowed s c := by
  induction trace generalizing p with
  | nil =>
      obtain rfl := reaches_nil path
      exact ⟨admits, fun _ _ _ member => absurd member List.not_mem_nil⟩
  | cons e trace ih =>
      obtain ⟨p', happens, rest⟩ := reaches_cons path
      have step : p'.Admits allowed ∧ ∀ s c answer, e = .called s c answer → allowed s c := by
        cases p with
        | ret r => cases e <;> cases happens
        | call s c more =>
            obtain ⟨answer, rfl, rfl⟩ := next_call happens
            refine ⟨admits.2 answer, fun s' c' answer' same => ?_⟩
            cases same
            exact admits.1
        | tryLock taken busy =>
            cases e <;> cases happens
            · exact ⟨admits.1, by simp⟩
            · exact ⟨admits.2, by simp⟩
        | lock more | unlock more =>
            cases e <;> cases happens
            exact ⟨admits, by simp⟩
      obtain ⟨admitted, calls⟩ := ih step.1 rest
      refine ⟨admitted, fun s c answer member => ?_⟩
      rcases List.mem_cons.mp member with same | later
      · exact step.2 s c answer same.symm
      · exact calls s c answer later

end Paths

section Admits
variable {allowed : S → C → Prop}

theorem admits_bind (p : Prog S C R) (f : R → Prog S C T) (first : p.Admits allowed)
    (rest : ∀ r, (f r).Admits allowed) : (p >>= f).Admits allowed := by
  induction p with
  | ret r => exact rest r
  | call s c next ih => exact ⟨first.1, fun answer => ih answer (first.2 answer)⟩
  | tryLock taken busy ihTaken ihBusy => exact ⟨ihTaken first.1, ihBusy first.2⟩
  | lock next ih => exact ih first
  | unlock next ih => exact ih first

theorem admits_within (s : S) (p : Script C R) (fine : ∀ c, allowed s c) :
    (within s p).Admits allowed := by
  induction p with
  | ret r => trivial
  | call c next ih => exact ⟨fine c, ih⟩

theorem admits_ite (condition : Prop) [Decidable condition] (p q : Prog S C R)
    (yes : p.Admits allowed) (no : q.Admits allowed) :
    (if condition then p else q).Admits allowed := by
  split <;> assumption

end Admits
end Prog

structure Thread (K S C R : Type) where
  entry : K
  prog : Prog S C R
  trace : List (Event S C)

/-- The mutex and the threads; a thread that has not started yet is absent. -/
structure State (K S C R : Type) where
  owner : Option Nat
  threads : Nat → Option (Thread K S C R)

def State.initial {K S C R : Type} : State K S C R := ⟨none, fun _ => none⟩

inductive Label (K S C : Type) where
  | start (i : Nat) (k : K)
  | event (i : Nat) (e : Event S C)
deriving DecidableEq, Repr

def ownerAfter {S C : Type} (i : Nat) : Option Nat → Event S C → Option (Option Nat)
  | owner, .called _ _ _ => some owner
  | none, .locked => some (some i)
  | some _, .locked => none
  | none, .refused => none
  | some j, .refused => some (some j)
  | _, .unlocked => some none

theorem ownerAfter_self {S C : Type} {guarded : S → C → Prop} {i : Nat} {e : Event S C}
    {m : Mode} {before after : Option Nat} (move : Move guarded m e)
    (own : before = some i ↔ m = .holding)
    (holder : ownerAfter i before e = some after) : after = some i ↔ m.after e = .holding := by
  cases move with
  | called s c answer held =>
      cases holder
      exact own
  | locked fresh =>
      cases before with
      | none =>
          cases holder
          exact iff_of_true rfl rfl
      | some j => cases holder
  | refused fresh =>
      cases before with
      | none => cases holder
      | some j =>
          cases holder
          refine iff_of_false (fun mine => ?_) (by simp [Mode.after])
          rw [own.mp mine] at fresh
          cases fresh
  | unlocked holding =>
      cases holder
      exact iff_of_false (by simp) (by simp [Mode.after])

theorem ownerAfter_other {S C : Type} {guarded : S → C → Prop} {i j : Nat} {e : Event S C}
    {m : Mode} {before after : Option Nat} (move : Move guarded m e)
    (own : before = some i ↔ m = .holding) (other : j ≠ i)
    (holder : ownerAfter i before e = some after) : after = some j ↔ before = some j := by
  cases move with
  | called s c answer held =>
      cases holder
      rfl
  | locked fresh =>
      cases before with
      | none =>
          cases holder
          exact iff_of_false (by simpa using Ne.symm other) (by simp)
      | some k => cases holder
  | refused fresh =>
      cases before with
      | none => cases holder
      | some k =>
          cases holder
          rfl
  | unlocked holding =>
      cases holder
      rw [own.mpr holding]
      exact iff_of_false (by simp) (by simpa using Ne.symm other)

section System
variable {K S C R : Type} [DecidableEq S] [DecidableEq C] (entries : K → Prog S C R)

def begins (k : K) : Thread K S C R := ⟨k, entries k, []⟩

/-- A thread that has returned, or has not started, may start any program; every other
move is the next event of a thread, as far as the mutex lets it. -/
def step (s : State K S C R) : Label K S C → Option (State K S C R)
  | .start i k =>
      match s.threads i with
      | none => some { s with threads := Function.update s.threads i (some (begins entries k)) }
      | some ⟨_, .ret _, _⟩ =>
          some { s with threads := Function.update s.threads i (some (begins entries k)) }
      | some _ => none
  | .event i e =>
      (s.threads i).bind fun t =>
        (t.prog.next e).bind fun p =>
          (ownerAfter i s.owner e).map fun owner =>
            ⟨owner, Function.update s.threads i (some ⟨t.entry, p, t.trace ++ [e]⟩)⟩

variable {entries} {s s' : State K S C R}

theorem step_event {i : Nat} {e : Event S C} (moved : step entries s (.event i e) = some s') :
    ∃ t p owner, s.threads i = some t ∧ t.prog.next e = some p ∧
      ownerAfter i s.owner e = some owner ∧
      s' = ⟨owner, Function.update s.threads i (some ⟨t.entry, p, t.trace ++ [e]⟩)⟩ := by
  obtain ⟨t, thread, moved⟩ := Option.bind_eq_some_iff.mp moved
  obtain ⟨p, happens, moved⟩ := Option.bind_eq_some_iff.mp moved
  obtain ⟨owner, holder, rfl⟩ := Option.map_eq_some_iff.mp moved
  exact ⟨t, p, owner, thread, happens, holder, rfl⟩

theorem step_start {i : Nat} {k : K} (moved : step entries s (.start i k) = some s') :
    (s.threads i = none ∨ ∃ t r, s.threads i = some t ∧ t.prog = .ret r) ∧
      s' = { s with threads := Function.update s.threads i (some (begins entries k)) } := by
  simp only [step] at moved
  split at moved
  · cases moved
    exact ⟨.inl ‹_›, rfl⟩
  · cases moved
    exact ⟨.inr ⟨_, _, ‹_›, rfl⟩, rfl⟩
  · cases moved

/-- Where a thread comes from: it was there, it has just begun, or it has just moved. -/
theorem step_thread {l : Label K S C} {j : Nat} {t' : Thread K S C R}
    (moved : step entries s l = some s') (thread' : s'.threads j = some t') :
    s.threads j = some t' ∨ (∃ k, l = .start j k ∧ t' = begins entries k) ∨
      ∃ e t p, l = .event j e ∧ s.threads j = some t ∧ t.prog.next e = some p ∧
        t' = ⟨t.entry, p, t.trace ++ [e]⟩ := by
  cases l with
  | start i k =>
      obtain ⟨-, rfl⟩ := step_start moved
      by_cases same : j = i
      · subst same
        simp only [Function.update_self, Option.some.injEq] at thread'
        exact .inr (.inl ⟨k, rfl, thread'.symm⟩)
      · simp only [Function.update_of_ne same] at thread'
        exact .inl thread'
  | event i e =>
      obtain ⟨t, p, owner, thread, happens, -, rfl⟩ := step_event moved
      by_cases same : j = i
      · subst same
        simp only [Function.update_self, Option.some.injEq] at thread'
        exact .inr (.inr ⟨e, t, p, rfl, thread, happens, thread'.symm⟩)
      · simp only [Function.update_of_ne same] at thread'
        exact .inl thread'

variable (guarded : S → C → Prop) (refusal : R → Prop)

/-- How every program has to end: without the mutex, and with a refusal as its result
only if it was refused. -/
def Returns (m : Mode) (r : R) : Prop := m ≠ .holding ∧ (refusal r → m = .refused)

def Guards : Event S C → Prop
  | .called s c _ => guarded s c
  | _ => False

structure ThreadInv (entries : K → Prog S C R) (t : Thread K S C R) : Prop where
  safe : t.prog.Safe guarded (Returns refusal) (mode t.trace)
  turned : .refused ∈ t.trace → mode t.trace = .refused
  clean : mode t.trace = .fresh ∨ mode t.trace = .refused →
    ∀ e ∈ t.trace, ¬Guards guarded e
  replay : (entries t.entry).Reaches t.trace t.prog

structure Inv (entries : K → Prog S C R) (s : State K S C R) : Prop where
  threads : ∀ i t, s.threads i = some t → ThreadInv guarded refusal entries t
  owner : ∀ i, s.owner = some i ↔ ∃ t, s.threads i = some t ∧ mode t.trace = .holding

variable {guarded refusal}

theorem threadInv_event {t : Thread K S C R} {e : Event S C} {p : Prog S C R}
    (inv : ThreadInv guarded refusal entries t) (happens : t.prog.next e = some p) :
    ThreadInv guarded refusal entries ⟨t.entry, p, t.trace ++ [e]⟩ := by
  obtain ⟨safe, move⟩ := Prog.safe_next t.prog p e inv.safe happens
  refine ⟨by simpa using safe, ?_, ?_, ?_⟩
  · intro member
    simp only [List.mem_append, List.mem_singleton] at member
    rw [mode_concat]
    rcases member with before | rfl
    · rw [inv.turned before] at move ⊢
      cases move with
      | called s c answer held => rfl
      | locked fresh | refused fresh => cases fresh
      | unlocked holding => cases holding
    · rfl
  · rw [mode_concat]
    intro outside e' member
    simp only [List.mem_append, List.mem_singleton] at member
    cases move with
    | called s c answer held =>
        rcases member with before | rfl
        · exact inv.clean outside e' before
        · intro guards
          rw [Mode.after, held guards] at outside
          simp at outside
    | refused fresh =>
        rcases member with before | rfl
        · exact inv.clean (.inl fresh) e' before
        · exact id
    | locked fresh | unlocked holding => simp [Mode.after] at outside
  · exact (exec_concat Prog.next _ _ _ _).mpr ⟨t.prog, inv.replay, happens⟩

theorem threadInv_begins (k : K)
    (safe : (entries k).Safe guarded (Returns refusal) .fresh) :
    ThreadInv guarded refusal entries (begins entries k) :=
  ⟨safe, fun member => absurd member List.not_mem_nil,
    fun _ _ member => absurd member List.not_mem_nil, rfl⟩

theorem inv_initial : Inv guarded refusal entries (.initial : State K S C R) := by
  refine ⟨fun i t absent => ?_, fun i => ?_⟩
  · cases absent
  · simp [State.initial]

theorem returned_not_owner {i : Nat} {t : Thread K S C R} {r : R}
    (inv : Inv guarded refusal entries s) (thread : s.threads i = some t)
    (returned : t.prog = .ret r) : s.owner ≠ some i := by
  intro own
  obtain ⟨t', thread', holding⟩ := (inv.owner i).mp own
  rw [thread] at thread'
  cases thread'
  have ended := (inv.threads i t thread).safe
  rw [returned] at ended
  exact ended.1 holding

theorem threads_step (safe : ∀ k, (entries k).Safe guarded (Returns refusal) .fresh)
    {l : Label K S C} (inv : Inv guarded refusal entries s) (moved : step entries s l = some s')
    (j : Nat) (t' : Thread K S C R) (thread' : s'.threads j = some t') :
    ThreadInv guarded refusal entries t' := by
  rcases step_thread moved thread' with there | ⟨k, -, rfl⟩ | ⟨e, t, p, -, thread, happens, rfl⟩
  · exact inv.threads j t' there
  · exact threadInv_begins k (safe k)
  · exact threadInv_event (inv.threads j t thread) happens

theorem owner_start {i : Nat} {k : K} (inv : Inv guarded refusal entries s)
    (moved : step entries s (.start i k) = some s') (j : Nat) :
    s'.owner = some j ↔ ∃ t, s'.threads j = some t ∧ mode t.trace = .holding := by
  obtain ⟨stopped, rfl⟩ := step_start moved
  by_cases same : j = i
  · subst same
    refine iff_of_false (show s.owner ≠ some j from ?_) (by simp [begins])
    rcases stopped with absent | ⟨t, r, thread, returned⟩
    · intro own
      obtain ⟨t, thread, -⟩ := (inv.owner j).mp own
      rw [absent] at thread
      cases thread
    · exact returned_not_owner inv thread returned
  · simp only [Function.update_of_ne same]
    exact inv.owner j

theorem owner_event {i : Nat} {e : Event S C} (inv : Inv guarded refusal entries s)
    (moved : step entries s (.event i e) = some s') (j : Nat) :
    s'.owner = some j ↔ ∃ t, s'.threads j = some t ∧ mode t.trace = .holding := by
  obtain ⟨t, p, owner, thread, happens, holder, rfl⟩ := step_event moved
  have move := (Prog.safe_next t.prog p e (inv.threads i t thread).safe happens).2
  have own : s.owner = some i ↔ mode t.trace = .holding := by
    rw [inv.owner i, thread]
    simp
  by_cases same : j = i
  · subst same
    rw [ownerAfter_self move own holder]
    simp
  · rw [ownerAfter_other move own same holder, inv.owner j]
    simp only [Function.update_of_ne same]

theorem inv_step (safe : ∀ k, (entries k).Safe guarded (Returns refusal) .fresh)
    (l : Label K S C) (inv : Inv guarded refusal entries s)
    (moved : step entries s l = some s') : Inv guarded refusal entries s' := by
  refine ⟨threads_step safe inv moved, ?_⟩
  cases l with
  | start i k => exact owner_start inv moved
  | event i e => exact owner_event inv moved

/-- The thread is in the middle of guarded work: its next event is a guarded call. -/
def Inside (guarded : S → C → Prop) (s : State K S C R) (i : Nat) : Prop :=
  ∃ t part c next, s.threads i = some t ∧ t.prog = .call part c next ∧ guarded part c

theorem inside_owner {i : Nat} (inv : Inv guarded refusal entries s)
    (inside : Inside guarded s i) : s.owner = some i := by
  obtain ⟨t, part, c, next, thread, at_, guards⟩ := inside
  have safe := (inv.threads i t thread).safe
  rw [at_] at safe
  exact (inv.owner i).mpr ⟨t, thread, safe.1 guards⟩

section Runs
variable (safe : ∀ k, (entries k).Safe guarded (Returns refusal) .fresh)
  (ls : List (Label K S C)) (reached : exec (step entries) .initial ls = some s)
include safe reached

theorem inv_reached : Inv guarded refusal entries s :=
  exec_induction (step entries) .initial (Inv guarded refusal entries) inv_initial
    (fun _ l _ inv moved => inv_step safe l inv moved) ls s reached

theorem inside_unique (i j : Nat) (first : Inside guarded s i) (second : Inside guarded s j) :
    i = j := by
  have inv := inv_reached safe ls reached
  have same := (inside_owner inv first).symm.trans (inside_owner inv second)
  exact Option.some.inj same

theorem returned_free (i : Nat) (t : Thread K S C R) (r : R) (thread : s.threads i = some t)
    (returned : t.prog = .ret r) : s.owner ≠ some i :=
  returned_not_owner (inv_reached safe ls reached) thread returned

theorem refused_clean (i : Nat) (t : Thread K S C R) (thread : s.threads i = some t)
    (turned : .refused ∈ t.trace ∨ ∃ r, t.prog = .ret r ∧ refusal r) :
    ∀ e ∈ t.trace, ¬Guards guarded e := by
  have inv := (inv_reached safe ls reached).threads i t thread
  refine inv.clean (.inr ?_)
  rcases turned with member | ⟨r, returned, refuses⟩
  · exact inv.turned member
  · have ended := inv.safe
    rw [returned] at ended
    exact ended.2 refuses

/-- What a thread has done is an execution of the program it started. -/
theorem trace_replays (i : Nat) (t : Thread K S C R) (thread : s.threads i = some t) :
    (entries t.entry).Reaches t.trace t.prog :=
  ((inv_reached safe ls reached).threads i t thread).replay

end Runs
end System

end WfyApp.LockPrograms
