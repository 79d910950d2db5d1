import WfyApp.StepSystem
import Mathlib.Data.List.Perm.Basic

/-! The pool of media buffers (`BufferPool`), shared by any number of threads: its
constructor, `GetBuffer` with and without waiting, and `PutBuffer` as the last reference to a
media buffer calls it (`__groupe_buffer_free`).
Every call is one step up to its end or its wait, because it holds the mutex; a thread that
was woken takes the mutex again in a step of its own, in any order with the other threads,
and may be woken without a notification. The destructor and a `PutBuffer` of a buffer that
its caller does not hold are outside. -/

namespace WfyApp.BufferPool
open StepSystem

section Model
variable {τ β : Type} [DecidableEq τ] [DecidableEq β]

/-- The buffers the constructor leaves in the pool: all of them or, after a failed
allocation, none. -/
def create (cnt : Int) (alloc : Nat → Option β) : List β :=
  if cnt ≤ 0 then []
  else ((List.range cnt.toNat).mapM alloc).getD []

/-- Where a thread is: outside, in the wait of `GetBuffer`, or woken but without the mutex. -/
inductive Place where
  | outside
  | waiting
  | woken
  deriving DecidableEq

/-- `held` lists which thread was handed which buffer, until its last reference is gone. -/
structure Pool (τ β : Type) where
  readyBuffers : List β
  busyBuffers : List β
  place : τ → Place
  held : List (τ × β)

def initial (created : List β) : Pool τ β := ⟨created, [], fun _ => .outside, []⟩

def take (p : Pool τ β) (t : τ) (mgb : β) (rest : List β) : Pool τ β :=
  { readyBuffers := rest
    busyBuffers := p.busyBuffers ++ [mgb]
    place := Function.update p.place t .outside
    held := p.held ++ [(t, mgb)] }

def getBuffer (p : Pool τ β) (t : τ) (block : Bool) : Pool τ β :=
  match p.readyBuffers with
  | [] => if block then { p with place := Function.update p.place t .waiting } else p
  | mgb :: rest => take p t mgb rest

def resume (p : Pool τ β) (t : τ) : Pool τ β := getBuffer p t true

/-- The pool after `PutBuffer` and the value returned; a notification wakes every thread. -/
def putBuffer (p : Pool τ β) (mgb : β) : Pool τ β × Int :=
  if mgb ∈ p.busyBuffers then
    ({ p with
        readyBuffers := p.readyBuffers ++ [mgb]
        busyBuffers := p.busyBuffers.erase mgb
        place := fun t => if p.place t = .waiting then .woken else p.place t }, 0)
  else (p, -1)

inductive Turn (τ β : Type) where
  | get (t : τ) (block : Bool)
  | wake (t : τ)
  | resume (t : τ)
  | release (t : τ) (mgb : β)

def step (p : Pool τ β) : Turn τ β → Option (Pool τ β)
  | .get t block => if p.place t = .outside then some (getBuffer p t block) else none
  | .wake t =>
    if p.place t = .waiting then some { p with place := Function.update p.place t .woken } else none
  | .resume t => if p.place t = .woken then some (resume p t) else none
  -- any thread may drop the last reference, also while the one that got it waits
  | .release t mgb =>
    if (t, mgb) ∈ p.held then
      some { (putBuffer p mgb).1 with held := p.held.erase (t, mgb) }
    else none

end Model

section Runs
variable {τ β : Type} (created : List β)

structure Kept (p : Pool τ β) : Prop where
  all : (p.readyBuffers ++ p.busyBuffers).Perm created
  busy : p.busyBuffers = p.held.map Prod.snd
  waits : ∀ t, p.place t = .waiting → p.readyBuffers = []

theorem busy_nodup (p : Pool τ β) (distinct : created.Nodup) (h : Kept created p) :
    (p.held.map Prod.snd).Nodup := by
  have both := h.all.nodup_iff.mpr distinct
  rw [← h.busy]
  exact (List.nodup_append.mp both).2.1

theorem mem_busy (p : Pool τ β) (t : τ) (mgb : β) (h : Kept created p) (member : (t, mgb) ∈ p.held) :
    mgb ∈ p.busyBuffers := by
  rw [h.busy]
  exact List.mem_map_of_mem member

variable [DecidableEq τ]

theorem kept_take (p : Pool τ β) (t : τ) (mgb : β) (rest : List β)
    (front : p.readyBuffers = mgb :: rest) (h : Kept created p) : Kept created (take p t mgb rest) := by
  refine ⟨?_, ?_, ?_⟩
  · have all := h.all
    rw [front] at all
    have moved : (rest ++ (p.busyBuffers ++ [mgb])).Perm (mgb :: rest ++ p.busyBuffers) := by
      rw [← List.append_assoc]
      exact List.perm_append_singleton mgb (rest ++ p.busyBuffers)
    exact moved.trans all
  · simp [take, h.busy]
  · -- nobody waits while there is a buffer
    intro u waiting
    by_cases same : u = t
    · simp [take, same] at waiting
    · have before := h.waits u (by simpa [take, same] using waiting)
      simp [front] at before

theorem kept_getBuffer (p : Pool τ β) (t : τ) (block : Bool) (h : Kept created p) :
    Kept created (getBuffer p t block) := by
  unfold getBuffer
  split
  · next empty =>
    split
    · exact ⟨h.all, h.busy, fun _ _ => empty⟩
    · exact h
  · next mgb rest front => exact kept_take created p t mgb rest front h

variable [DecidableEq β]

theorem erase_held (held : List (τ × β)) (t : τ) (mgb : β) (member : (t, mgb) ∈ held)
    (distinct : (held.map Prod.snd).Nodup) :
    (held.map Prod.snd).erase mgb = (held.erase (t, mgb)).map Prod.snd := by
  induction held with
  | nil => cases member
  | cons entry held ih =>
    rw [List.map_cons, List.nodup_cons] at distinct
    by_cases same : entry = (t, mgb)
    · simp [same]
    · have later : (t, mgb) ∈ held := by
        rcases List.mem_cons.mp member with first | later
        · exact absurd first.symm same
        · exact later
      have other : entry.2 ≠ mgb := by
        intro equal
        exact distinct.1 (equal ▸ List.mem_map_of_mem later)
      rw [List.map_cons, List.erase_cons_tail (by simpa using other),
        List.erase_cons_tail (by simpa using same), List.map_cons, ih later distinct.2]

theorem kept_release (p : Pool τ β) (t : τ) (mgb : β) (distinct : created.Nodup)
    (h : Kept created p) (member : (t, mgb) ∈ p.held) :
    Kept created { (putBuffer p mgb).1 with held := p.held.erase (t, mgb) } := by
  have busy := mem_busy created p t mgb h member
  simp only [putBuffer, if_pos busy]
  refine ⟨?_, ?_, ?_⟩
  · have moved : (p.readyBuffers ++ [mgb] ++ p.busyBuffers.erase mgb).Perm
        (p.readyBuffers ++ p.busyBuffers) := by
      rw [List.append_assoc]
      exact (List.perm_cons_erase busy).symm.append_left p.readyBuffers
    exact moved.trans h.all
  · rw [h.busy]
    exact erase_held p.held t mgb member (busy_nodup created p distinct h)
  · intro u waiting
    simp only at waiting
    split at waiting
    · cases waiting
    · next not => exact absurd waiting not

theorem kept_step (p q : Pool τ β) (turn : Turn τ β) (distinct : created.Nodup)
    (h : Kept created p) (taken : step p turn = some q) : Kept created q := by
  cases turn with
  | get t block =>
    obtain ⟨-, result⟩ := Option.ite_none_right_eq_some.mp taken
    cases result
    exact kept_getBuffer created p t block h
  | wake t =>
    obtain ⟨-, result⟩ := Option.ite_none_right_eq_some.mp taken
    cases result
    refine ⟨h.all, h.busy, ?_⟩
    intro u waiting
    by_cases same : u = t
    · simp [same] at waiting
    · exact h.waits u (by simpa [same] using waiting)
  | resume t =>
    obtain ⟨-, result⟩ := Option.ite_none_right_eq_some.mp taken
    cases result
    exact kept_getBuffer created p t true h
  | release t mgb =>
    obtain ⟨member, result⟩ := Option.ite_none_right_eq_some.mp taken
    cases result
    exact kept_release created p t mgb distinct h member

/-- In every order of calls and wakeups the pool loses no buffer, no buffer has two holders,
giving one back succeeds, and a thread that nobody has woken waits only while the clients hold
all of them. -/
theorem pool_exclusive (distinct : created.Nodup) (turns : List (Turn τ β)) (p : Pool τ β)
    (reached : exec step (initial created) turns = some p) :
    (p.readyBuffers ++ p.held.map Prod.snd).Perm created ∧
      (∀ t u mgb, (t, mgb) ∈ p.held → (u, mgb) ∈ p.held → t = u) ∧
      (∀ t mgb, (t, mgb) ∈ p.held → (putBuffer p mgb).2 = 0 ∧ mgb ∉ p.readyBuffers) ∧
      (∀ t, p.place t = .waiting → (p.held.map Prod.snd).Perm created) := by
  have h : Kept created p := exec_induction step (initial created) (Kept created)
    ⟨by simp [initial], rfl, fun t waiting => by simp [initial] at waiting⟩
    (fun p turn q h taken => kept_step created p q turn distinct h taken) turns p reached
  have all := h.all
  rw [h.busy] at all
  have both := List.nodup_append.mp (all.nodup_iff.mpr distinct)
  refine ⟨all, ?_, ?_, ?_⟩
  · intro t u mgb first second
    have same := List.inj_on_of_nodup_map both.2.1 first second rfl
    exact congrArg Prod.fst same
  · intro t mgb member
    refine ⟨by rw [putBuffer, if_pos (mem_busy created p t mgb h member)], ?_⟩
    intro ready
    exact both.2.2 mgb ready mgb (List.mem_map_of_mem member) rfl
  · intro t waiting
    rw [h.waits t waiting, List.nil_append] at all
    exact all

def handOver : List (Turn Bool Nat) :=
  [.get true true, .get false true, .wake false, .resume false, .release true 0, .resume false]

theorem pool_exclusive_hand_over :
    ∃ p, exec step (initial (create 1 some)) handOver = some p ∧
      p.held = [(false, 0)] ∧
      (p.readyBuffers ++ p.held.map Prod.snd).Perm (create 1 some) ∧
      (∀ t u mgb, (t, mgb) ∈ p.held → (u, mgb) ∈ p.held → t = u) := by
  refine ⟨(exec step (initial (create 1 some)) handOver).get (by decide), (Option.some_get _).symm,
    by decide, ?_⟩
  obtain ⟨all, one, -⟩ := pool_exclusive (create 1 some) (by decide) handOver _
    (Option.some_get (by decide)).symm
  exact ⟨all, one⟩

end Runs

end WfyApp.BufferPool
