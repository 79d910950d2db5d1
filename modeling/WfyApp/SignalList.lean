import WfyApp.HeapLists
import WfyApp.StepSystem

/-! The list of registered signal handlers of the D-Bus client library: registration with its
search for the same handler, removal, and the filter that calls the handlers of a message.
An entry is the interface, the signal and the callback together. The calls come one after the
other; the connection, the match rules and the main loop are outside. Memory that was freed is
not handed out again before the next call reads it: a call that allocates has walked the whole
list before. -/

namespace WfyApp.SignalList
open StepSystem HeapLists

section Model
variable {κ : Type} [DecidableEq κ]

structure State (κ : Type) where
  heap : Heap κ
  fresh : Nat
  signalList : Option Nat

def empty : State κ := ⟨fun _ => none, 0, none⟩

def State.fuel (s : State κ) : Nat := s.fresh + 1

def checkDbusSignal (s : State κ) (e : κ) : Option (Option Nat) :=
  find s.heap (fun x => decide (x = e)) s.fuel s.signalList

def addDbusSignal (s : State κ) (e : κ) : Option (State κ) :=
  let heap := Function.update s.heap s.fresh (some ⟨e, none⟩)
  match s.signalList with
  | none => some ⟨heap, s.fresh + 1, some s.fresh⟩
  | some i => do
    let j ← last s.heap s.fuel i
    let node ← s.heap j
    return ⟨Function.update heap j (some ⟨node.entry, some s.fresh⟩), s.fresh + 1, s.signalList⟩

def registered (s : State κ) (e : κ) : Option (State κ) := do
  match ← checkDbusSignal s e with
  | some _ => return s
  | none => addDbusSignal s e

/-- Only the head is unlinked; of any other node the predecessor keeps its pointer. -/
def unregistered (s : State κ) (e : κ) : Option (State κ) :=
  match s.signalList with
  | none => some s
  | some i => do
    let node ← s.heap i
    if node.entry = e then
      return { s with heap := Function.update s.heap i none, signalList := node.next }
    else match ← find s.heap (fun x => decide (x = e)) s.fuel node.next with
      | some j => return { s with heap := Function.update s.heap j none }
      | none => return s

def monitorChanged (s : State κ) (isSignal : κ → Bool) : Option (List κ) :=
  (collect s.heap s.fuel s.signalList).map (List.filter isSignal)

inductive Call (κ : Type) where
  | register (e : κ)
  | unregister (e : κ)

def step (s : State κ) : Call κ → Option (State κ)
  | .register e => registered s e
  | .unregister e => unregistered s e

end Model

section Registry
variable {κ : Type} [DecidableEq κ]

/-- What the calls mean: entries in the order of their registration, each once. -/
def update (registry : List κ) : Call κ → List κ
  | .register e => if e ∈ registry then registry else registry ++ [e]
  | .unregister e => registry.erase e

def oldest (registry : List κ) : Call κ → Bool
  | .register _ => true
  | .unregister e => decide (e ∉ registry) || decide (registry.head? = some e)

def allOldest (registry : List κ) : List (Call κ) → Bool
  | [] => true
  | call :: calls => oldest registry call && allOldest (update registry call) calls

end Registry

section Runs
variable {κ : Type}

structure Linked (s : State κ) (cells : List (Nat × κ)) : Prop where
  links : Links s.heap s.signalList cells none
  apart : (cells.map Prod.fst).Nodup
  below : ∀ cell ∈ cells, cell.1 < s.fresh
  distinct : (cells.map Prod.snd).Nodup

structure Dangling (s : State κ) (cells : List (Nat × κ)) (freed : Nat) : Prop where
  links : Links s.heap s.signalList cells (some freed)
  apart : (cells.map Prod.fst).Nodup
  gone : s.heap freed = none

theorem length_le_fresh (cells : List (Nat × κ)) (fresh : Nat) (apart : (cells.map Prod.fst).Nodup)
    (below : ∀ cell ∈ cells, cell.1 < fresh) : cells.length ≤ fresh := by
  have inside : cells.map Prod.fst ⊆ List.range fresh := by
    intro i member
    obtain ⟨cell, at_cell, rfl⟩ := List.mem_map.mp member
    exact List.mem_range.mpr (below cell at_cell)
  have short := (apart.subperm inside).length_le
  simpa using short

theorem fuel_eq (s : State κ) (cells : List (Nat × κ)) (h : Linked s cells) :
    ∃ more, s.fuel = more + 1 + cells.length := by
  have short := length_le_fresh cells s.fresh h.apart h.below
  exact ⟨s.fresh - cells.length, by simp only [State.fuel]; omega⟩

theorem monitorChanged_linked (s : State κ) (cells : List (Nat × κ)) (isSignal : κ → Bool)
    (h : Linked s cells) :
    monitorChanged s isSignal = some ((cells.map Prod.snd).filter isSignal) := by
  obtain ⟨more, fuel⟩ := fuel_eq s cells h
  rw [monitorChanged, fuel, collect_links s.heap _ none cells _ h.links]
  simp [collect]

theorem addDbusSignal_linked (s : State κ) (cells : List (Nat × κ)) (e : κ) (h : Linked s cells)
    (absent : e ∉ cells.map Prod.snd) :
    ∃ t, addDbusSignal s e = some t ∧ Linked t (cells ++ [(s.fresh, e)]) := by
  have unused : s.fresh ∉ cells.map Prod.fst := by
    intro member
    obtain ⟨cell, at_cell, same⟩ := List.mem_map.mp member
    exact absurd (h.below cell at_cell) (by omega)
  have apart : ((cells ++ [(s.fresh, e)]).map Prod.fst).Nodup := by
    have extended := h.apart.concat unused
    simpa using extended
  have below : ∀ cell ∈ cells ++ [(s.fresh, e)], cell.1 < s.fresh + 1 := by
    intro cell member
    rcases List.mem_append.mp member with old | new
    · have small := h.below cell old
      omega
    · rw [List.mem_singleton.mp new]
      exact Nat.lt_succ_self _
  have distinct : ((cells ++ [(s.fresh, e)]).map Prod.snd).Nodup := by
    have extended := h.distinct.concat absent
    simpa using extended
  rcases List.eq_nil_or_concat cells with rfl | ⟨front, ⟨j, f⟩, rfl⟩
  · have first : s.signalList = none := h.links
    refine ⟨⟨Function.update s.heap s.fresh (some ⟨e, none⟩), s.fresh + 1, some s.fresh⟩,
      by rw [addDbusSignal, first], ⟨⟨rfl, none, ?_, rfl⟩, apart, below, distinct⟩⟩
    simp
  · simp only [List.concat_eq_append] at *
    obtain ⟨m, before, start, next, here, ending⟩ := (links_append s.heap _ none front _).mp h.links
    cases start
    cases ending
    obtain ⟨i, first⟩ : ∃ i, s.signalList = some i := by
      cases front with
      | nil => exact ⟨j, before⟩
      | cons cell front => exact ⟨cell.1, before.1⟩
    have found : last s.heap s.fuel i = some j := by
      obtain ⟨more, fuel⟩ := fuel_eq s _ h
      have links := h.links
      rw [first] at links
      have walked := last_links s.heap i j f front (more + 1) links
      rw [fuel, List.length_append, List.length_singleton, ← Nat.add_assoc]
      exact walked
    have j_below : j < s.fresh := h.below (j, f) (by simp)
    have j_off : j ∉ front.map Prod.fst := by
      have apart_front := h.apart
      rw [List.map_append, List.nodup_append] at apart_front
      exact fun member => apart_front.2.2 j member j (by simp) rfl
    have fresh_off : s.fresh ∉ front.map Prod.fst := by
      intro member
      exact unused (by rw [List.map_append]; exact List.mem_append_left _ member)
    refine ⟨⟨Function.update (Function.update s.heap s.fresh (some ⟨e, none⟩)) j
      (some ⟨f, some s.fresh⟩), s.fresh + 1, s.signalList⟩, ?_, ⟨?_, apart, below, distinct⟩⟩
    · simp [addDbusSignal, first, found, here]
    rw [List.append_assoc, links_append]
    refine ⟨some j, ?_, rfl, some s.fresh, by simp, rfl, none, ?_, rfl⟩
    · exact links_update _ _ _ front j _ j_off (links_update _ _ _ front s.fresh _ fresh_off before)
    · have other : s.fresh ≠ j := by omega
      simp [Function.update_of_ne other]

variable [DecidableEq κ]

theorem split_at (cells : List (Nat × κ)) (e : κ) (member : e ∈ cells.map Prod.snd) :
    ∃ before i after, cells = before ++ (i, e) :: after ∧ ∀ cell ∈ before, cell.2 ≠ e := by
  induction cells with
  | nil => cases member
  | cons cell cells ih =>
    by_cases same : cell.2 = e
    · exact ⟨[], cell.1, cells, by simp [← same], by simp⟩
    · have later : e ∈ cells.map Prod.snd := by
        rcases List.mem_cons.mp member with first | later
        · exact absurd first.symm same
        · exact later
      obtain ⟨before, i, after, rfl, off⟩ := ih later
      refine ⟨cell :: before, i, after, rfl, ?_⟩
      intro c at_c
      rcases List.mem_cons.mp at_c with rfl | inside
      · exact same
      · exact off c inside

theorem find_split (heap : Heap κ) (p q : Option Nat) (before after : List (Nat × κ)) (i : Nat)
    (e : κ) (more : Nat) (links : Links heap p (before ++ (i, e) :: after) q)
    (off : ∀ cell ∈ before, cell.2 ≠ e) :
    find heap (fun x => decide (x = e)) (more + 1 + before.length) p = some (some i) := by
  obtain ⟨m, front, start, next, here, -⟩ := (links_append heap p q before _).mp links
  subst start
  rw [find_skip heap _ p (some i) before (more + 1) front (fun cell member => by simp [off cell member])]
  exact find_here heap _ i e next more here (by simp)

theorem find_linked_none (s : State κ) (p : Option Nat) (cells : List (Nat × κ)) (e : κ) (more : Nat)
    (links : Links s.heap p cells none) (off : e ∉ cells.map Prod.snd) :
    find s.heap (fun x => decide (x = e)) (more + cells.length) p = some none := by
  have apart : ∀ cell ∈ cells, decide (cell.2 = e) = false := by
    intro cell member
    exact decide_eq_false (fun same => off (same ▸ List.mem_map_of_mem member))
  rw [find_skip s.heap _ p none cells more links apart]
  cases more <;> rfl

theorem registered_linked (s : State κ) (cells : List (Nat × κ)) (e : κ) (h : Linked s cells) :
    ∃ t more, registered s e = some t ∧ Linked t more ∧
      more.map Prod.snd = update (cells.map Prod.snd) (.register e) := by
  obtain ⟨rest, fuel⟩ := fuel_eq s cells h
  by_cases member : e ∈ cells.map Prod.snd
  · obtain ⟨before, i, after, rfl, off⟩ := split_at cells e member
    have found : checkDbusSignal s e = some (some i) := by
      rw [checkDbusSignal, fuel, List.length_append, List.length_cons]
      have walked := find_split s.heap _ none before after i e (rest + (after.length + 1)) h.links off
      rw [← walked]
      congr 1
      omega
    refine ⟨s, _, by simp [registered, found], h, ?_⟩
    rw [update, if_pos member]
  · have missing : checkDbusSignal s e = some none := by
      rw [checkDbusSignal, fuel]
      exact find_linked_none s _ cells e (rest + 1) h.links member
    obtain ⟨t, added, linked⟩ := addDbusSignal_linked s cells e h member
    refine ⟨t, _, by simp [registered, missing, added], linked, ?_⟩
    rw [update, if_neg member, List.map_append, List.map_singleton]

theorem unregistered_linked (s : State κ) (cells : List (Nat × κ)) (e : κ) (h : Linked s cells)
    (good : oldest (cells.map Prod.snd) (.unregister e) = true) :
    ∃ t more, unregistered s e = some t ∧ Linked t more ∧
      more.map Prod.snd = update (cells.map Prod.snd) (.unregister e) := by
  cases cells with
  | nil =>
    have first : s.signalList = none := h.links
    exact ⟨s, [], by rw [unregistered, first], h, rfl⟩
  | cons cell rest =>
    obtain ⟨first, next, here, links⟩ := h.links
    have apart := List.nodup_cons.mp h.apart
    have distinct := List.nodup_cons.mp h.distinct
    by_cases same : cell.2 = e
    · refine ⟨{ s with heap := Function.update s.heap cell.1 none, signalList := next }, rest, ?_,
        ⟨links_update _ _ _ rest cell.1 none apart.1 links, apart.2,
          fun c member => h.below c (List.mem_cons_of_mem cell member), distinct.2⟩, ?_⟩
      · simp [unregistered, first, here, same]
      · simp [update, same]
    · have absent : e ∉ rest.map Prod.snd := by
        simp only [oldest, List.map_cons, List.head?_cons, Bool.or_eq_true, decide_eq_true_eq,
          Option.some.injEq, same, or_false, List.mem_cons, not_or] at good
        exact good.2
      obtain ⟨more, fuel⟩ := fuel_eq s _ h
      have missing := find_linked_none s next rest e (more + 2) links absent
      rw [show more + 2 + rest.length = s.fuel by rw [fuel, List.length_cons]; omega] at missing
      refine ⟨s, cell :: rest, by simp [unregistered, first, here, same, missing], h, ?_⟩
      rw [update, List.erase_of_not_mem]
      simpa [Ne.symm same] using absent

/-- The removal of any other entry leaves a pointer to freed memory. -/
theorem unregistered_dangles (s : State κ) (cells : List (Nat × κ)) (e : κ) (h : Linked s cells)
    (bad : oldest (cells.map Prod.snd) (.unregister e) = false) :
    ∃ t before freed, unregistered s e = some t ∧ Dangling t before freed := by
  simp only [oldest, Bool.or_eq_false_iff, decide_eq_false_iff_not, not_not] at bad
  obtain ⟨before, j, after, rfl, off⟩ := split_at cells e bad.1
  cases before with
  | nil => simp at bad
  | cons cell before =>
    obtain ⟨first, next, here, links⟩ := h.links
    have other : cell.2 ≠ e := off cell (by simp)
    obtain ⟨more, fuel⟩ := fuel_eq s _ h
    have found := find_split s.heap next none before after j e (more + 1 + (after.length + 1)) links
      (fun c member => off c (List.mem_cons_of_mem cell member))
    rw [show more + 1 + (after.length + 1) + 1 + before.length = s.fuel by
      rw [fuel, List.length_append, List.length_cons, List.length_cons]; omega] at found
    have apart := h.apart
    rw [List.map_append, List.nodup_append] at apart
    have off_way : j ∉ (cell :: before).map Prod.fst :=
      fun member => apart.2.2 j member j (by simp) rfl
    obtain ⟨m, front, start, -⟩ := (links_append s.heap _ none (cell :: before) _).mp h.links
    refine ⟨{ s with heap := Function.update s.heap j none }, cell :: before, j, ?_,
      ⟨?_, apart.1, by simp⟩⟩
    · simp [unregistered, first, here, other, found]
    · rw [← start]
      exact links_update _ _ _ _ j none off_way front

/-- The pointer to freed memory never goes away. -/
theorem dangling_step (s t : State κ) (cells : List (Nat × κ)) (freed : Nat) (call : Call κ)
    (h : Dangling s cells freed) (taken : step s call = some t) :
    ∃ before gone, Dangling t before gone := by
  cases call with
  | register e =>
    simp only [step, registered, Option.bind_eq_bind, Option.bind_eq_some_iff] at taken
    obtain ⟨result, checked, done⟩ := taken
    have walked := find_dangling s.heap (fun x => decide (x = e)) s.signalList cells freed s.fuel
      h.links h.gone
    rw [← checkDbusSignal, checked] at walked
    rcases walked with failed | ⟨before, k, f, after, -, found⟩
    · cases failed
    · cases found
      cases done
      exact ⟨cells, freed, h⟩
  | unregister e =>
    cases cells with
    | nil =>
      have first : s.signalList = some freed := h.links
      simp [step, unregistered, first, h.gone] at taken
    | cons cell rest =>
      obtain ⟨first, next, here, links⟩ := h.links
      have apart := List.nodup_cons.mp h.apart
      by_cases same : cell.2 = e
      · simp only [step, unregistered, first, here, same, Option.bind_eq_bind, Option.bind_some,
          if_true, Option.pure_def, Option.some.injEq] at taken
        subst taken
        refine ⟨rest, freed, links_update _ _ _ rest cell.1 none apart.1 links, apart.2, ?_⟩
        by_cases equal : freed = cell.1
        · simp [equal]
        · simp [Function.update_of_ne equal, h.gone]
      · have walked := find_dangling s.heap (fun x => decide (x = e)) next rest freed s.fuel links
          h.gone
        rcases walked with failed | ⟨before, k, f, after, rfl, found⟩
        · simp [step, unregistered, first, here, same, failed] at taken
        · simp only [step, unregistered, first, here, same, found, Option.bind_eq_bind,
            Option.bind_some, if_false, Option.pure_def, Option.some.injEq] at taken
          subst taken
          have whole := h.apart
          rw [← List.cons_append, List.map_append, List.nodup_append] at whole
          have off_way : k ∉ (cell :: before).map Prod.fst :=
            fun member => whole.2.2 k member k (by simp) rfl
          have path := h.links
          rw [← List.cons_append] at path
          obtain ⟨m, front, start, -⟩ := (links_append s.heap _ _ (cell :: before) _).mp path
          refine ⟨cell :: before, k, ?_, whole.1, by simp⟩
          rw [first] at front
          rw [← start]
          exact links_update _ _ _ _ k none off_way front

theorem dangling_run (calls : List (Call κ)) (s : State κ) (cells : List (Nat × κ)) (freed : Nat)
    (isSignal : κ → Bool) (h : Dangling s cells freed) :
    (exec step s calls).bind (fun t => monitorChanged t isSignal) = none := by
  induction calls generalizing s cells freed with
  | nil =>
    have failed := collect_dangling s.heap s.signalList cells freed s.fuel h.links h.gone
    simp [exec, monitorChanged, failed]
  | cons call calls ih =>
    rw [exec]
    cases taken : step s call with
    | none => rfl
    | some t =>
      obtain ⟨before, gone, broken⟩ := dangling_step s t cells freed call h taken
      exact ih t before gone broken

theorem linked_run (calls : List (Call κ)) (s : State κ) (cells : List (Nat × κ))
    (isSignal : κ → Bool) (h : Linked s cells) :
    (exec step s calls).bind (fun t => monitorChanged t isSignal) =
      if allOldest (cells.map Prod.snd) calls then
        some ((calls.foldl update (cells.map Prod.snd)).filter isSignal)
      else none := by
  induction calls generalizing s cells with
  | nil => simp [exec, allOldest, monitorChanged_linked s cells isSignal h]
  | cons call calls ih =>
    cases good : oldest (cells.map Prod.snd) call with
    | true =>
      have next : ∃ t more, step s call = some t ∧ Linked t more ∧
          more.map Prod.snd = update (cells.map Prod.snd) call := by
        cases call with
        | register e => exact registered_linked s cells e h
        | unregister e => exact unregistered_linked s cells e h good
      obtain ⟨t, more, taken, linked, entries⟩ := next
      rw [exec, taken, allOldest, good, Bool.true_and, List.foldl_cons, ← entries]
      exact ih t more linked
    | false =>
      cases call with
      | register e => cases good
      | unregister e =>
        obtain ⟨t, before, freed, taken, broken⟩ := unregistered_dangles s cells e h good
        have removed : step s (.unregister e) = some t := taken
        rw [exec, removed, allOldest, good]
        exact dangling_run calls t before freed isSignal broken

/-- After any calls a message reaches the registered handlers, in the order of their
registration and each once, if every removal so far was of the oldest entry or of none; if one
was not, freed memory is read at the latest now. -/
theorem signals_delivered (calls : List (Call κ)) (isSignal : κ → Bool) :
    (exec step empty calls).bind (fun s => monitorChanged s isSignal) =
      if allOldest [] calls then some ((calls.foldl update []).filter isSignal) else none :=
  linked_run calls empty [] isSignal
    ⟨rfl, List.nodup_nil, fun _ member => absurd member List.not_mem_nil, List.nodup_nil⟩

example : allOldest [] [.register 1, .register 2, .unregister 1, .register 1] = true := by decide

example : allOldest [] [.register 1, .register 2, .unregister 2] = false := by decide

end Runs

end WfyApp.SignalList
