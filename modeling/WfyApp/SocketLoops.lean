import WfyApp.ByteFields
import WfyApp.StepSystem

/-! Loops around one socket call. A loop shows the range of its buffer that the next call
gets and is updated by the call's result. Counters are exact integers. -/

namespace WfyApp.SocketLoops
open ByteText ByteFields StepSystem

structure Span where
  offset : Int
  length : Int
deriving DecidableEq, Repr

def Span.Within (span : Span) (size : Int) : Prop :=
  0 ≤ span.offset ∧ span.offset + span.length ≤ size

inductive RecvResult where
  | received (data : Bytes)
  | failed (again : Bool)
deriving DecidableEq, Repr

def RecvResult.value : RecvResult → Int
  | received data => data.length
  | failed _ => -1

def RecvResult.data : RecvResult → Bytes
  | received data => data
  | failed _ => []

/-- The next call, if the loop makes one, and the loop's variables after its result. -/
structure CallLoop (σ ρ : Type) where
  request : σ → Option Span
  advance : σ → ρ → σ

structure Transcript (ρ : Type) where
  answered : List (Span × ρ)
  pending : Option Span
deriving DecidableEq

variable {σ τ ρ : Type}

def Transcript.asked (t : Transcript ρ) : List Span := t.answered.map Prod.fst ++ t.pending.toList

/-- The run of a loop on the results; those left when it has ended are not used. -/
def CallLoop.run (loop : CallLoop σ ρ) : σ → List ρ → Transcript ρ
  | s, [] => ⟨[], loop.request s⟩
  | s, r :: rs =>
      match loop.request s with
      | none => ⟨[], none⟩
      | some span =>
          let rest := loop.run (loop.advance s r) rs
          ⟨(span, r) :: rest.answered, rest.pending⟩

theorem run_ended (loop : CallLoop σ ρ) (s : σ) (results : List ρ)
    (ended : loop.request s = none) : loop.run s results = ⟨[], none⟩ := by
  cases results with
  | nil => rw [CallLoop.run, ended]
  | cons r rs => rw [CallLoop.run, ended]

theorem run_cons (loop : CallLoop σ ρ) (s : σ) (r : ρ) (rs : List ρ) (span : Span)
    (next : loop.request s = some span) :
    loop.run s (r :: rs) = ⟨(span, r) :: (loop.run (loop.advance s r) rs).answered,
      (loop.run (loop.advance s r) rs).pending⟩ := by
  rw [CallLoop.run, next]

theorem asked_cons (loop : CallLoop σ ρ) (s : σ) (r : ρ) (rs : List ρ) (span : Span)
    (next : loop.request s = some span) :
    (loop.run s (r :: rs)).asked = span :: (loop.run (loop.advance s r) rs).asked := by
  rw [run_cons loop s r rs span next]
  rfl

theorem request_asked (loop : CallLoop σ ρ) (s : σ) (results : List ρ) (span : Span)
    (next : loop.request s = some span) : span ∈ (loop.run s results).asked := by
  cases results with
  | nil => simp [CallLoop.run, Transcript.asked, next]
  | cons r rs =>
      rw [asked_cons loop s r rs span next]
      exact List.mem_cons_self

/-- Every call is made in a state with what the loop keeps as long as the results are good. -/
theorem asked_of_invariant (loop : CallLoop σ ρ) (Inv : σ → Prop) (good : Span → ρ → Prop)
    (keep : ∀ s span r, Inv s → loop.request s = some span → good span r → Inv (loop.advance s r))
    (results : List ρ) (s : σ) (inv : Inv s)
    (all_good : ∀ call ∈ (loop.run s results).answered, good call.1 call.2) (span : Span)
    (asked : span ∈ (loop.run s results).asked) : ∃ t, Inv t ∧ loop.request t = some span := by
  induction results generalizing s with
  | nil => exact ⟨s, inv, by simpa [CallLoop.run, Transcript.asked] using asked⟩
  | cons r rs ih =>
      cases next : loop.request s with
      | none => simp [run_ended loop s _ next, Transcript.asked] at asked
      | some first =>
          rw [run_cons loop s r rs first next] at all_good
          rw [asked_cons loop s r rs first next] at asked
          rcases List.mem_cons.mp asked with rfl | later
          · exact ⟨s, inv, next⟩
          · exact ih _ (keep s first r inv next (all_good (first, r) List.mem_cons_self))
              (fun call rest => all_good call (List.mem_cons_of_mem _ rest)) later

/-- Two loops that make the same calls from related states have the same runs. -/
theorem run_eq_of_related (first : CallLoop σ ρ) (second : CallLoop τ ρ) (R : σ → τ → Prop)
    (requests : ∀ s t, R s t → first.request s = second.request t)
    (advances : ∀ s t r, R s t → R (first.advance s r) (second.advance t r))
    (results : List ρ) (s : σ) (t : τ) (related : R s t) :
    first.run s results = second.run t results := by
  induction results generalizing s t with
  | nil => rw [CallLoop.run, CallLoop.run, requests s t related]
  | cons r rs ih =>
      rw [CallLoop.run, CallLoop.run, requests s t related, ih _ _ (advances s t r related)]

def sent (buffer : Bytes) (calls : List (Span × Int)) : Bytes :=
  calls.flatMap fun call => (buffer.drop call.1.offset.toNat).take call.2.toNat

theorem sent_consecutive (loop : CallLoop σ Int) (position : σ → Int)
    (starts : ∀ s span, loop.request s = some span → span.offset = position s)
    (moves : ∀ s r, position (loop.advance s r) = position s + r)
    (buffer : Bytes) (results : List Int) (s : σ) (nonneg : 0 ≤ position s)
    (taken : ∀ call ∈ (loop.run s results).answered, 0 ≤ call.2) :
    0 ≤ ((loop.run s results).answered.map Prod.snd).sum ∧
      sent buffer (loop.run s results).answered =
        (buffer.drop (position s).toNat).take
          ((loop.run s results).answered.map Prod.snd).sum.toNat := by
  induction results generalizing s with
  | nil => simp [CallLoop.run, sent]
  | cons r rs ih =>
      cases next : loop.request s with
      | none => simp [run_ended loop s _ next, sent]
      | some span =>
          rw [run_cons loop s r rs span next] at taken ⊢
          have first : 0 ≤ r := taken (span, r) List.mem_cons_self
          obtain ⟨rest_nonneg, rest⟩ := ih (loop.advance s r) (by rw [moves]; omega)
            fun call later => taken call (List.mem_cons_of_mem _ later)
          refine ⟨by simpa using by omega, ?_⟩
          rw [sent, List.flatMap_cons, ← sent, rest, moves, starts s span next, List.map_cons,
            List.sum_cons, Int.toNat_add first rest_nonneg, Int.toNat_add nonneg first,
            List.take_add, List.drop_drop]

def total (results : List RecvResult) : Int := (results.map RecvResult.value).sum

@[simp] theorem total_nil : total [] = 0 := rfl

theorem total_cons (r : RecvResult) (rs : List RecvResult) :
    total (r :: rs) = r.value + total rs := by
  rw [total, List.map_cons, List.sum_cons, total]

def Incomplete (size : Int) (results : List RecvResult) : Prop :=
  ∀ initial, initial <+: results → total initial < size

theorem incomplete_nil (size : Int) : Incomplete size [] ↔ 0 < size := by
  simp [Incomplete]

theorem incomplete_cons (size : Int) (r : RecvResult) (rs : List RecvResult) :
    Incomplete size (r :: rs) ↔ 0 < size ∧ Incomplete (size - r.value) rs := by
  have shift (initial : List RecvResult) :
      total (r :: initial) < size ↔ total initial < size - r.value := by
    rw [total_cons]
    omega
  simp only [Incomplete, forall_prefix_cons, shift]
  rfl

theorem answered_results (loop : CallLoop σ ρ) (results : List ρ) (s : σ) :
    (loop.run s results).answered.map Prod.snd <+: results ∧
      ((loop.run s results).pending ≠ none →
        (loop.run s results).answered.map Prod.snd = results) := by
  induction results generalizing s with
  | nil => simp [CallLoop.run]
  | cons r rs ih =>
      cases next : loop.request s with
      | none => simp [run_ended loop s _ next]
      | some span =>
          rw [run_cons loop s r rs span next]
          obtain ⟨first, all⟩ := ih (loop.advance s r)
          exact ⟨(List.prefix_cons_inj r).mpr first, fun more => congrArg (r :: ·) (all more)⟩

def stored (m : Memory) (calls : List (Span × RecvResult)) : Memory :=
  calls.foldl (fun m call => writeAt m call.1.offset call.2.data) m

def arrived (results : List RecvResult) : Bytes := results.flatMap RecvResult.data

/-- If every call writes where the one before it ended, the bytes arrive as one block; the
last state tells where it ends and whether the loop goes on. -/
theorem stored_consecutive (loop : CallLoop σ RecvResult) (Inv : σ → Prop) (position : σ → Int)
    (good : Span → RecvResult → Prop)
    (starts : ∀ s span, Inv s → loop.request s = some span → span.offset = position s)
    (moves : ∀ s span r, Inv s → loop.request s = some span → good span r →
      Inv (loop.advance s r) ∧ position (loop.advance s r) = position s + r.data.length)
    (results : List RecvResult) (s : σ) (m : Memory) (inv : Inv s)
    (all_good : ∀ call ∈ (loop.run s results).answered, good call.1 call.2) :
    stored m (loop.run s results).answered =
        writeAt m (position s) (arrived ((loop.run s results).answered.map Prod.snd)) ∧
      ∃ t, Inv t ∧ loop.request t = (loop.run s results).pending ∧
        position t =
          position s + (arrived ((loop.run s results).answered.map Prod.snd)).length := by
  induction results generalizing s m with
  | nil => exact ⟨(writeAt_nil m _).symm, s, inv, rfl, by simp [CallLoop.run, arrived]⟩
  | cons r rs ih =>
      cases next : loop.request s with
      | none =>
          rw [run_ended loop s _ next]
          exact ⟨(writeAt_nil m _).symm, s, inv, next, by simp [arrived]⟩
      | some span =>
          rw [run_cons loop s r rs span next] at all_good ⊢
          obtain ⟨kept, moved⟩ := moves s span r inv next (all_good _ List.mem_cons_self)
          obtain ⟨rest, t, last, ends, total⟩ := ih (loop.advance s r)
            (writeAt m (position s) r.data) kept
            fun call later => all_good call (List.mem_cons_of_mem _ later)
          simp only [stored, List.foldl_cons, arrived, List.map_cons, List.flatMap_cons,
            List.length_append, Nat.cast_add] at rest total ⊢
          refine ⟨?_, t, last, ends, by rw [total, moved]; ring⟩
          rw [starts s span inv next, rest, moved, writeAt_append]

end WfyApp.SocketLoops
