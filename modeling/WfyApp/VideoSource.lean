import WfyApp.CutStreams
import WfyApp.StepSystem

/-! The buffer list between a media flow and one client of the stream server: `Source::Push`
with its two reductions, the wakeup pipe, and the two readers (`VideoFramedSource` and
`CommonFramedSource`, up to the choice of the buffers they hand on).
A reader takes a token from the pipe and then, in a step of its own, the mutex and the front
buffer; a push is one step because all of it happens under the mutex. A pipe write that
fails is outside. -/

namespace WfyApp.VideoSource
open StepSystem CutStreams

structure Flags (α : Type) where
  intra : α → Bool
  extraIntra : α → Bool
  exclusive : ∀ f, intra f = true → extraIntra f = false

def maxCacheNumber : Nat := 60

def setCachedBufSize (oneBufSize current : Nat) : Nat :=
  if 0 < oneBufSize then 1024 * 1024 * 5 / oneBufSize else current

section Model
variable {α : Type}

/-- Of a long list, keeps the leading parameter sets and everything from the last intra
frame on. -/
def h264PacketReduction (flags : Flags α) (l : List α) : List α :=
  if l.length < maxCacheNumber then l
  else match l.reverse.findIdx? flags.intra with
    | none => l
    | some i => l.takeWhile flags.extraIntra ++ l.drop (l.length - 1 - i)

/-- Removes half the permitted number from the front of a list that is too long, with one
token read for each; the read blocks when the pipe is empty. -/
def commonReduction (cachedBufSize : Nat) (l : List α) (tokens : Nat) : Option (List α × Nat) :=
  if l.length > cachedBufSize then
    if cachedBufSize / 2 ≤ tokens then some (l.drop (cachedBufSize / 2), tokens - cachedBufSize / 2)
    else none
  else some (l, tokens)

/-- Video sources and all others. For a muxer source `validSize` is given: `PushNewMuxer`
sets the permitted number before every push, from the size of the buffer. -/
inductive Kind (α : Type) where
  | video (flags : Flags α)
  | common (validSize : Option (α → Nat))

def permitted (validSize : Option (α → Nat)) (current : Nat) (f : α) : Nat :=
  match validSize with
  | some size => setCachedBufSize (size f) current
  | none => current

/-- `pushed` and `popped` are histories, `delivered` what the reader hands on. -/
structure Source (α : Type) where
  cachedBuffers : List α
  cachedBufSize : Nat
  tokens : Nat
  reading : Bool
  gotIframe : Bool
  pushed : List α
  popped : List α
  delivered : List α

inductive Turn (α : Type) where
  | push (f : α)
  | read
  | pop

def push (kind : Kind α) (s : Source α) (f : α) : Option (Source α) :=
  match kind with
  | .video flags =>
    some { s with
      cachedBuffers := h264PacketReduction flags s.cachedBuffers ++ [f]
      tokens := s.tokens + 1
      pushed := s.pushed ++ [f] }
  | .common validSize =>
    let size := permitted validSize s.cachedBufSize f
    (commonReduction size s.cachedBuffers s.tokens).map fun (l, tokens) =>
      { s with
        cachedBuffers := l ++ [f]
        cachedBufSize := size
        tokens := tokens + 1
        pushed := s.pushed ++ [f] }

def read (s : Source α) : Option (Source α) :=
  if !s.reading && 0 < s.tokens then some { s with reading := true, tokens := s.tokens - 1 }
  else none

/-- A video reader skips what comes before the first intra frame, parameter sets apart. -/
def pop (kind : Kind α) (s : Source α) : Option (Source α) :=
  if s.reading then
    match s.cachedBuffers with
    | [] => some { s with reading := false }
    | f :: rest =>
      match kind with
      | .video flags =>
        let gotIframe := s.gotIframe || flags.intra f
        some { s with
          reading := false
          cachedBuffers := rest
          gotIframe := gotIframe
          popped := s.popped ++ [f]
          delivered := if gotIframe || flags.extraIntra f then s.delivered ++ [f] else s.delivered }
      | .common _ =>
        some { s with
          reading := false
          cachedBuffers := rest
          popped := s.popped ++ [f]
          delivered := s.delivered ++ [f] }
  else none

def step (kind : Kind α) (s : Source α) : Turn α → Option (Source α)
  | .push f => push kind s f
  | .read => read s
  | .pop => pop kind s

def initial : Source α := ⟨[], maxCacheNumber, 0, false, false, [], [], []⟩

end Model

section Video
variable {α : Type} (flags : Flags α)

def frames (l : List α) : List α := l.filter fun f => !flags.extraIntra f

theorem frames_append (l m : List α) : frames flags (l ++ m) = frames flags l ++ frames flags m :=
  List.filter_append l m

theorem last_split (l : List α) (i : Nat) (found : l.reverse.findIdx? flags.intra = some i) :
    ∃ front f rest, l = front ++ f :: rest ∧ flags.intra f = true ∧
      l.drop (l.length - 1 - i) = f :: rest := by
  obtain ⟨inside, intra, -⟩ := List.findIdx?_eq_some_iff_getElem.mp found
  rw [List.length_reverse] at inside
  rw [List.getElem_reverse] at intra
  have position : l.length - 1 - i < l.length := by omega
  refine ⟨l.take (l.length - 1 - i), l[l.length - 1 - i], l.drop (l.length - 1 - i + 1), ?_, intra, ?_⟩
  · rw [← List.drop_eq_getElem_cons position, List.take_append_drop]
  · exact List.drop_eq_getElem_cons position

/-- A reduction removes frames directly before an intra frame only. -/
theorem reduction_cut (l : List α) (front : List α) :
    Cut flags.intra (front ++ frames flags l)
      (front ++ frames flags (h264PacketReduction flags l)) := by
  unfold h264PacketReduction
  split
  · exact cut_refl _ _
  · split
    · exact cut_refl _ _
    · next i found =>
      obtain ⟨before, f, rest, parts, intra, dropped⟩ := last_split flags l i found
      have sets : frames flags (l.takeWhile flags.extraIntra) = [] := by
        rw [frames, List.filter_eq_nil_iff]
        intro g member
        simpa using List.mem_takeWhile_imp member
      have kept : frames flags (f :: rest) = f :: frames flags rest := by
        simp [frames, flags.exclusive f intra]
      rw [frames_append, sets, dropped, kept, List.nil_append, parts, frames_append, kept]
      exact cut_block flags.intra front _ _ f intra

theorem reduction_length_le (l : List α) : (h264PacketReduction flags l).length ≤ l.length := by
  unfold h264PacketReduction
  split
  · exact Nat.le_refl _
  · split
    · exact Nat.le_refl _
    · next i found =>
      obtain ⟨before, f, rest, parts, intra, dropped⟩ := last_split flags l i found
      -- the leading parameter sets end before the intra frame
      have leading : (l.takeWhile flags.extraIntra).length ≤ before.length := by
        rw [parts, List.takeWhile_append]
        split
        · simp [flags.exclusive f intra]
        · exact (List.takeWhile_sublist _).length_le
      rw [List.length_append, dropped, parts, List.length_append]
      rw [parts] at leading
      omega

structure Video (s : Source α) : Prop where
  cut : Cut flags.intra (frames flags s.pushed) (frames flags s.popped ++ frames flags s.cachedBuffers)
  got : s.gotIframe = (frames flags s.popped).any flags.intra
  delivered : frames flags s.delivered = (frames flags s.popped).dropWhile fun f => !flags.intra f
  tokens : s.cachedBuffers.length ≤ s.tokens + s.reading.toNat

theorem dropWhile_concat (l : List α) (f : α) :
    (l ++ [f]).dropWhile (fun f => !flags.intra f) =
      if l.any flags.intra || flags.intra f then l.dropWhile (fun f => !flags.intra f) ++ [f]
      else [] := by
  induction l with
  | nil => cases intra : flags.intra f <;> simp [intra]
  | cons g l ih =>
    cases intra : flags.intra g with
    | true => simp [intra]
    | false => simpa [intra] using ih

theorem video_pop (s : Source α) (f : α) (rest : List α) (front : s.cachedBuffers = f :: rest)
    (h : Video flags s) (reading : s.reading = true) :
    Video flags { s with
      reading := false
      cachedBuffers := rest
      gotIframe := s.gotIframe || flags.intra f
      popped := s.popped ++ [f]
      delivered := if s.gotIframe || flags.intra f || flags.extraIntra f then s.delivered ++ [f]
        else s.delivered } := by
  have tokens := h.tokens
  have cut := h.cut
  rw [front] at tokens cut
  simp only [List.length_cons, reading, Bool.toNat_true] at tokens
  cases set : flags.extraIntra f with
  | true =>
    have plain : flags.intra f = false := by
      cases intra : flags.intra f with
      | false => rfl
      | true => simp [flags.exclusive f intra] at set
    refine ⟨?_, ?_, ?_, by simpa using tokens⟩
    · simpa [frames, set] using cut
    · simpa [frames, set, plain] using h.got
    · simpa [frames, set] using h.delivered
  | false =>
    have kept : frames flags (s.popped ++ [f]) = frames flags s.popped ++ [f] := by
      simp [frames, set]
    refine ⟨?_, ?_, ?_, by simpa using tokens⟩
    · simpa [frames, set] using cut
    · simp [kept, h.got]
    · simp only [kept, dropWhile_concat, ← h.got, Bool.or_false]
      have delivered := h.delivered
      cases now : s.gotIframe || flags.intra f with
      | true => simpa [frames, set] using delivered
      | false =>
        have none : (frames flags s.popped).any flags.intra = false := by
          rw [← h.got]
          simp_all
        have nothing : (frames flags s.popped).dropWhile (fun f => !flags.intra f) = [] := by
          rw [List.dropWhile_eq_nil_iff]
          simpa using none
        rw [nothing] at delivered
        simpa using delivered

theorem video_step (s t : Source α) (turn : Turn α) (h : Video flags s)
    (taken : step (.video flags) s turn = some t) : Video flags t := by
  cases turn with
  | push f =>
    cases taken
    refine ⟨?_, h.got, h.delivered, ?_⟩
    · have first := cut_append flags.intra _ _ (frames flags [f]) h.cut
      have second := cut_append flags.intra _ _ (frames flags [f])
        (reduction_cut flags s.cachedBuffers (frames flags s.popped))
      rw [frames_append, frames_append, ← List.append_assoc]
      exact cut_trans flags.intra _ _ _ first second
    · have shorter := reduction_length_le flags s.cachedBuffers
      have tokens := h.tokens
      simp only [List.length_append, List.length_singleton]
      omega
  | read =>
    simp only [step, read] at taken
    split at taken
    · next ready =>
      cases taken
      simp only [Bool.and_eq_true, Bool.not_eq_true', decide_eq_true_eq] at ready
      refine ⟨h.cut, h.got, h.delivered, ?_⟩
      have tokens := h.tokens
      simp only [ready.1, Bool.toNat_false] at tokens
      simp only [Bool.toNat_true]
      omega
    · cases taken
  | pop =>
    simp only [step, pop] at taken
    split at taken
    · next reading =>
      split at taken
      · next none =>
        cases taken
        exact ⟨h.cut, h.got, h.delivered, by simp [none]⟩
      · next f rest front =>
        cases taken
        exact video_pop flags s f rest front h reading
    · cases taken

/-- Whatever the reductions remove, the frames a video client is handed begin with an intra
frame, and every other frame directly follows the frame pushed before it. A buffer that is
in the list never waits without a token in the pipe. -/
theorem no_gap_inside_a_group (turns : List (Turn α)) (s : Source α)
    (reached : exec (step (.video flags)) initial turns = some s) :
    (∀ f rest, frames flags s.delivered = f :: rest → flags.intra f = true) ∧
      (∀ front a b rest, frames flags s.delivered = front ++ a :: b :: rest →
        flags.intra b = false →
        ∃ before after, frames flags s.pushed = before ++ a :: b :: after) ∧
      s.cachedBuffers.length ≤ s.tokens + s.reading.toNat := by
  have h : Video flags s := exec_induction (step (.video flags)) initial (Video flags)
    ⟨.nil, rfl, rfl, Nat.le_refl _⟩ (fun s turn t h taken => video_step flags s t turn h taken)
    turns s reached
  refine ⟨?_, ?_, h.tokens⟩
  · intro f rest first
    rw [h.delivered] at first
    have head := List.head?_dropWhile_not (fun f => !flags.intra f) (frames flags s.popped)
    rw [first] at head
    simpa using head
  · intro front a b rest parts inside
    rw [h.delivered] at parts
    have whole := List.takeWhile_append_dropWhile (p := fun f => !flags.intra f)
      (l := frames flags s.popped)
    refine adjacent_of_cut flags.intra _ _ h.cut
      ((frames flags s.popped).takeWhile (fun f => !flags.intra f) ++ front)
      (rest ++ frames flags s.cachedBuffers) a b ?_ inside
    calc frames flags s.popped ++ frames flags s.cachedBuffers
        = ((frames flags s.popped).takeWhile (fun f => !flags.intra f) ++
            (frames flags s.popped).dropWhile (fun f => !flags.intra f)) ++
          frames flags s.cachedBuffers := by rw [whole]
      _ = _ := by simp [parts]

def Roomy (s : Source α) : Turn α → Prop
  | .push _ => s.cachedBuffers.length < maxCacheNumber
  | .read | .pop => True

def Turn.isPush : Turn α → Bool
  | .push _ => true
  | .read | .pop => false

theorem length_step (s t : Source α) (turn : Turn α) (taken : step (.video flags) s turn = some t) :
    t.cachedBuffers.length ≤ s.cachedBuffers.length + if turn.isPush then 1 else 0 := by
  cases turn with
  | push f =>
    cases taken
    have shorter := reduction_length_le flags s.cachedBuffers
    simp only [List.length_append, List.length_singleton, Turn.isPush, if_true]
    omega
  | read =>
    simp only [step, read] at taken
    split_ifs at taken
    cases taken
    exact Nat.le_add_right _ _
  | pop =>
    simp only [step, pop] at taken
    split at taken
    · split at taken
      · cases taken
        exact Nat.le_add_right _ _
      · next f rest front =>
        cases taken
        show rest.length ≤ _
        rw [front, List.length_cons]
        omega
    · cases taken

theorem roomy_of_few (s : Source α) (turns : List (Turn α))
    (few : s.cachedBuffers.length + turns.countP Turn.isPush ≤ maxCacheNumber) :
    StepsMeet (step (.video flags)) Roomy s turns := by
  induction turns generalizing s with
  | nil => trivial
  | cons turn turns ih =>
    rw [List.countP_cons] at few
    refine ⟨?_, fun t taken => ih t ?_⟩
    · cases turn with
      | push f =>
        simp only [Turn.isPush, if_true] at few
        show s.cachedBuffers.length < maxCacheNumber
        omega
      | read | pop => trivial
    · have grown := length_step flags s t turn taken
      omega

def Queued (s t : Source α) : Prop :=
  ∃ handed more, t.pushed = s.pushed ++ more ∧
    ((∀ f ∈ more, flags.intra f = true ∨ flags.extraIntra f = true) →
      t.delivered = s.delivered ++ handed ∧ more = handed ++ t.cachedBuffers)

theorem queued_pop (s t : Source α) (f : α) (rest : List α) (front : t.cachedBuffers = f :: rest)
    (queued : Queued flags s t) :
    Queued flags s { t with
      reading := false
      cachedBuffers := rest
      gotIframe := t.gotIframe || flags.intra f
      popped := t.popped ++ [f]
      delivered := if t.gotIframe || flags.intra f || flags.extraIntra f then t.delivered ++ [f]
        else t.delivered } := by
  obtain ⟨handed, more, pushed, order⟩ := queued
  refine ⟨handed ++ [f], more, pushed, fun marked => ?_⟩
  obtain ⟨delivered, parts⟩ := order marked
  have own := marked f (by rw [parts, front]; simp)
  have taken : (t.gotIframe || flags.intra f || flags.extraIntra f) = true := by
    rcases own with intra | set
    · simp [intra]
    · simp [set]
  simp only [taken, if_true, delivered, List.append_assoc]
  exact ⟨trivial, by simpa [front] using parts⟩

theorem queued_step (s t u : Source α) (turn : Turn α) (roomy : Roomy t turn)
    (queued : Queued flags s t) (taken : step (.video flags) t turn = some u) :
    Queued flags s u := by
  cases turn with
  | push f =>
    cases taken
    obtain ⟨handed, more, pushed, order⟩ := queued
    refine ⟨handed, more ++ [f], by rw [pushed, List.append_assoc], fun marked => ?_⟩
    obtain ⟨delivered, parts⟩ := order fun g member => marked g (by simp [member])
    have whole : h264PacketReduction flags t.cachedBuffers = t.cachedBuffers := if_pos roomy
    simp only [whole, parts, List.append_assoc]
    exact ⟨delivered, trivial⟩
  | read =>
    simp only [step, read] at taken
    split_ifs at taken
    cases taken
    exact queued
  | pop =>
    simp only [step, pop] at taken
    split at taken
    · split at taken
      · cases taken
        exact queued
      · next f rest front =>
        cases taken
        exact queued_pop flags s t f rest front queued
    · cases taken

/-- As long as nothing is removed, a client is handed every intra frame and parameter set
that is pushed, in order. -/
theorem delivered_of_roomy (s t : Source α) (turns : List (Turn α)) (pushes : List α)
    (empty : s.cachedBuffers = []) (roomy : StepsMeet (step (.video flags)) Roomy s turns)
    (ran : exec (step (.video flags)) s turns = some t) (pushed : t.pushed = s.pushed ++ pushes)
    (marked : ∀ f ∈ pushes, flags.intra f = true ∨ flags.extraIntra f = true)
    (taken : t.cachedBuffers = []) : t.delivered = s.delivered ++ pushes := by
  have start : Queued flags s s := ⟨[], [], by simp, fun _ => ⟨by simp, by simp [empty]⟩⟩
  obtain ⟨handed, more, same, order⟩ := exec_of_stepsMeet _ (Queued flags s) Roomy
    (fun t turn u roomy queued moved => queued_step flags s t u turn roomy queued moved) turns s t
    start roomy ran
  obtain rfl : pushes = more := List.append_cancel_left (pushed.symm.trans same)
  obtain ⟨delivered, parts⟩ := order marked
  rw [delivered, parts, taken, List.append_nil]

def tens : Flags Nat where
  intra f := f % 10 == 0
  extraIntra f := f == 1
  exclusive f intra := by
    cases set : f == 1 with
    | false => rfl
    | true => simp [beq_iff_eq.mp set] at intra

def joinLate : List (Turn Nat) :=
  (List.range' 1 60).map .push ++ [.read, .push 61, .pop, .read, .pop, .read, .pop]

theorem no_gap_joining_late :
    ∃ s, exec (step (.video tens)) initial joinLate = some s ∧
      s.delivered = [1, 60, 61] ∧
      (∀ f rest, frames tens s.delivered = f :: rest → tens.intra f = true) ∧
      (∀ front a b rest, frames tens s.delivered = front ++ a :: b :: rest →
        tens.intra b = false →
        ∃ before after, frames tens s.pushed = before ++ a :: b :: after) ∧
      s.cachedBuffers.length ≤ s.tokens + s.reading.toNat := by
  refine ⟨(exec (step (.video tens)) initial joinLate).get (by decide +kernel),
    (Option.some_get _).symm, by decide +kernel, ?_⟩
  exact no_gap_inside_a_group tens joinLate _ (Option.some_get _).symm

end Video

section Common
variable {α : Type} (validSize : Option (α → Nat))

def Within (bound : Nat) (pushed : List α) : Prop :=
  match validSize with
  | none => maxCacheNumber ≤ bound
  | some size => ∀ f ∈ pushed, 0 < size f ∧ 2 ≤ 1024 * 1024 * 5 / size f ∧
      1024 * 1024 * 5 / size f ≤ bound

def Large (pushed : List α) : Prop :=
  match validSize with
  | none => False
  | some size => ∀ f ∈ pushed, 0 < size f ∧ 1024 * 1024 * 5 / size f < 2

theorem within_push (bound : Nat) (pushed : List α) (f : α)
    (within : Within validSize bound (pushed ++ [f])) : Within validSize bound pushed := by
  cases validSize with
  | none => exact within
  | some size => exact fun g member => within g (List.mem_append_left _ member)

theorem large_push (pushed : List α) (f : α) (large : Large validSize (pushed ++ [f])) :
    Large validSize pushed := by
  cases validSize with
  | none => exact large
  | some size => exact fun g member => large g (List.mem_append_left _ member)

structure Common (s : Source α) : Prop where
  limit : validSize = none → s.cachedBufSize = maxCacheNumber
  tokens : s.cachedBuffers.length = s.tokens + s.reading.toNat
  ordered : (s.delivered ++ s.cachedBuffers).Sublist s.pushed
  bounded : ∀ bound, Within validSize bound s.pushed → s.cachedBuffers.length ≤ bound + 1
  piled : Large validSize s.pushed → s.delivered ++ s.cachedBuffers = s.pushed

theorem permitted_within (s : Source α) (f : α) (bound : Nat) (h : Common validSize s)
    (within : Within validSize bound (s.pushed ++ [f])) :
    2 ≤ permitted validSize s.cachedBufSize f ∧ permitted validSize s.cachedBufSize f ≤ bound := by
  cases validSize with
  | none =>
    have limit := h.limit rfl
    simp only [Within, maxCacheNumber] at within limit
    simp only [permitted]
    omega
  | some size =>
    obtain ⟨positive, two, most⟩ := within f (by simp)
    simp only [permitted, setCachedBufSize, if_pos positive]
    exact ⟨two, most⟩

theorem permitted_large (s : Source α) (f : α) (large : Large validSize (s.pushed ++ [f])) :
    permitted validSize s.cachedBufSize f < 2 := by
  cases validSize with
  | none => exact large.elim
  | some size =>
    obtain ⟨positive, few⟩ := large f (by simp)
    simpa only [permitted, setCachedBufSize, if_pos positive] using few

/-- The pipe has a token for every buffer the reduction removes. -/
theorem commonReduction_spec (s : Source α) (size : Nat)
    (tokens : s.cachedBuffers.length = s.tokens + s.reading.toNat) :
    ∃ l left, commonReduction size s.cachedBuffers s.tokens = some (l, left) ∧
      l <:+ s.cachedBuffers ∧ l.length = left + s.reading.toNat ∧
      (2 ≤ size → l.length ≤ size ∨ l.length < s.cachedBuffers.length) ∧
      (size < 2 → l = s.cachedBuffers) := by
  have few : s.reading.toNat ≤ 1 := Bool.toNat_le _
  by_cases long : s.cachedBuffers.length > size
  · refine ⟨_, _, by rw [commonReduction, if_pos long, if_pos (by omega)], List.drop_suffix _ _, ?_,
      ?_, ?_⟩
    · rw [List.length_drop]
      omega
    · intro two
      rw [List.length_drop]
      omega
    · intro small
      have none : size / 2 = 0 := by omega
      rw [none, List.drop_zero]
  · exact ⟨_, _, by rw [commonReduction, if_neg long], List.suffix_refl _, tokens,
      fun _ => .inl (by omega), fun _ => rfl⟩

theorem common_push (s t : Source α) (f : α) (h : Common validSize s)
    (taken : push (.common validSize) s f = some t) : Common validSize t := by
  obtain ⟨l, left, reduced, suffix, count, shorter, same⟩ :=
    commonReduction_spec s (permitted validSize s.cachedBufSize f) h.tokens
  simp only [push, reduced, Option.map_some] at taken
  cases taken
  refine ⟨?_, ?_, ?_, ?_, ?_⟩
  · intro plain
    subst plain
    exact h.limit rfl
  · simp only [List.length_append, List.length_singleton]
    omega
  · rw [← List.append_assoc]
    refine List.Sublist.append ?_ (List.Sublist.refl [f])
    exact ((List.Sublist.refl s.delivered).append suffix.sublist).trans h.ordered
  · intro bound within
    have before := h.bounded bound (within_push validSize bound s.pushed f within)
    obtain ⟨two, most⟩ := permitted_within validSize s f bound h within
    have now := shorter two
    simp only [List.length_append, List.length_singleton]
    omega
  · intro large
    have before := h.piled (large_push validSize s.pushed f large)
    rw [same (permitted_large validSize s f large), ← List.append_assoc, before]

theorem common_step (s t : Source α) (turn : Turn α) (h : Common validSize s)
    (taken : step (.common validSize) s turn = some t) : Common validSize t := by
  cases turn with
  | push f => exact common_push validSize s t f h taken
  | read =>
    simp only [step, read] at taken
    split at taken
    · next ready =>
      cases taken
      simp only [Bool.and_eq_true, Bool.not_eq_true', decide_eq_true_eq] at ready
      refine ⟨h.limit, ?_, h.ordered, h.bounded, h.piled⟩
      have tokens := h.tokens
      simp only [ready.1, Bool.toNat_false] at tokens
      simp only [Bool.toNat_true]
      omega
    · cases taken
  | pop =>
    simp only [step, pop] at taken
    split at taken
    · next reading =>
      have tokens := h.tokens
      rw [reading, Bool.toNat_true] at tokens
      split at taken
      · next none => simp [none] at tokens
      · next f rest front =>
        cases taken
        refine ⟨h.limit, ?_, ?_, ?_, ?_⟩
        · rw [front, List.length_cons] at tokens
          simpa using tokens
        · simpa [front] using h.ordered
        · intro bound within
          have before := h.bounded bound within
          rw [front, List.length_cons] at before
          exact Nat.le_of_succ_le before
        · intro large
          simpa [front] using h.piled large
    · cases taken

/-- The reads a push makes from the pipe while it holds the mutex never block, and the client
gets buffers in the order of the pushes. The list holds at most one buffer more than the
largest permitted number if that number never falls below two; a muxer source whose buffers
are so large that it does never removes one. -/
theorem common_source_bounded (turns : List (Turn α)) (s : Source α)
    (reached : exec (step (.common validSize)) initial turns = some s) :
    (∀ f, (push (.common validSize) s f).isSome) ∧
      (s.delivered ++ s.cachedBuffers).Sublist s.pushed ∧
      (∀ bound, Within validSize bound s.pushed → s.cachedBuffers.length ≤ bound + 1) ∧
      (Large validSize s.pushed → s.delivered ++ s.cachedBuffers = s.pushed) := by
  have h : Common validSize s := exec_induction (step (.common validSize)) initial
    (Common validSize) ⟨fun _ => rfl, rfl, List.Sublist.refl _, fun _ _ => Nat.zero_le _, fun _ => rfl⟩
    (fun s turn t h taken => common_step validSize s t turn h taken) turns s reached
  refine ⟨?_, h.ordered, h.bounded, h.piled⟩
  intro f
  obtain ⟨l, left, reduced, -⟩ :=
    commonReduction_spec s (permitted validSize s.cachedBufSize f) h.tokens
  simp [push, reduced]

def muxerTurns : List (Turn Nat) :=
  [.push 1310720, .push 1310719, .push 1310718, .push 1310717, .push 1310716, .read,
    .push 1310715, .pop]

theorem common_source_bounded_muxer :
    ∃ s, exec (step (.common (some id))) initial muxerTurns = some s ∧
      s.delivered = [1310718] ∧ s.cachedBuffers = [1310717, 1310716, 1310715] ∧
      s.cachedBuffers.length ≤ 4 + 1 ∧
      (∀ f, (push (.common (some id)) s f).isSome) ∧
      (s.delivered ++ s.cachedBuffers).Sublist s.pushed := by
  refine ⟨(exec (step (.common (some id))) initial muxerTurns).get (by decide),
    (Option.some_get _).symm, by decide, by decide, ?_⟩
  obtain ⟨never, ordered, bounded, -⟩ :=
    common_source_bounded (some id) muxerTurns _ (Option.some_get (by decide)).symm
  exact ⟨bounded 4 (by unfold Within; decide), never, ordered⟩

end Common

end WfyApp.VideoSource
