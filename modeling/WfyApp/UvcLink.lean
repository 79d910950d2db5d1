import WfyApp.UvcGraph

/-! When the UVC field of `mFeature` is set: every sequence of the calls that change it, on a
graph that is built and supports all link modes. -/

namespace WfyApp.UvcLink
open MutexPrograms MutexPrograms.Prog StepSystem UvcGraph

inductive Call where
  | openUVC
  | closeUVC
  | stop
  | setZoom (val : Binary32)
  | setEptz (mode : EptzMode) (val : Int)
  | setFaceLine (enable : Int)
deriving DecidableEq, Repr

namespace Call

def method : Call → Method
  | openUVC => .openUVC
  | closeUVC => .closeUVC
  | stop => .stop
  | setZoom val => .setZoom val
  | setEptz mode val => .setEptz mode val
  | setFaceLine enable => .setFaceLine enable

def closes : Call → Bool
  | closeUVC | stop => true
  | _ => false

/-- The calls that set the field without a look at whether UVC is open. -/
def forces : Call → Bool
  | setEptz .auto val | setEptz .bypassLink val => val != 0
  | setFaceLine enable => enable != 0
  | _ => false

end Call

def supporting (other : Question → Bool) (q : Question) : Bool :=
  match q.call with
  | .hasLinkMode _ => true
  | _ => other q

@[simp] theorem supporting_hasLinkMode (other : Question → Bool) (site : Site) (mode : LinkMode) :
    supporting other ⟨site, .hasLinkMode mode⟩ = true := rfl

def step (s : Ctx) (l : Call × (Question → Bool)) : Option Ctx :=
  (l.1.method.body.eval (supporting l.2) s).map Prod.snd

def Active (s : Ctx) : Prop := s.feature &&& uvcMask ≠ 0

instance (s : Ctx) : Decidable (Active s) := inferInstanceAs (Decidable (_ ≠ _))

section Fields
variable (s : Ctx)

@[simp] theorem setField_and (mask value flags : Flags) :
    setField mask value flags &&& mask = value &&& mask := by
  ext i inside
  simp only [setField, BitVec.getElem_and, BitVec.getElem_or, BitVec.getElem_not]
  cases mask[i] <;> simp

theorem plainField_ne : plainField s &&& uvcMask ≠ 0#32 := by
  rw [plainField]
  split_ifs <;> decide

theorem zoomedField_ne : zoomedField s &&& uvcMask ≠ 0#32 := by
  rw [zoomedField]
  split_ifs
  · decide
  · exact plainField_ne s

variable (active : Active s)
include active

theorem field_ne : s.feature &&& uvcMask &&& uvcMask ≠ 0#32 := by
  rwa [BitVec.and_assoc, BitVec.and_self]

theorem zoomOnField_ne : zoomOnField s &&& uvcMask ≠ 0#32 := by
  rw [zoomOnField]
  split_ifs
  · decide
  · decide
  · exact field_ne s active

theorem zoomOffField_ne : zoomOffField s &&& uvcMask ≠ 0#32 := by
  rw [zoomOffField]
  split_ifs
  · decide
  · exact plainField_ne s
  · exact field_ne s active

end Fields

section Calls
variable {other : Question → Bool} {s : Ctx} (graph : s.taskGraph = true)

@[simp] theorem returns_setUvc (field : Ctx → Flags) (post : Unit → Ctx → Prop) :
    Returns (supporting other) s (setUvc field) post ↔
      post () { s with feature := setField uvcMask (field s) s.feature } := by
  simp [setUvc]

include graph

@[simp] theorem returns_onGraph (site : Site) (call : GraphCall) (post : Bool → Ctx → Prop) :
    Returns (supporting other) s (onGraph site call) post ↔
      post (supporting other ⟨site, call⟩) s := by
  simp [onGraph, graph]

@[simp] theorem returns_selectLinkMode (post : RtRet → Ctx → Prop) :
    Returns (supporting other) s selectLinkMode post ↔
      post .ok { s with links := linkModes s.feature } := by
  simp [selectLinkMode, graph]

/-- The call returns, the graph stays, and the field is then as told. -/
def Leaves (other : Question → Bool) (s : Ctx) (p : Graph RtRet) (active : Prop) : Prop :=
  Returns (supporting other) s p fun _ t => t.taskGraph = true ∧ (Active t ↔ active)

theorem openUVC_leaves : Leaves other s openUVC True := by
  simp [Leaves, openUVC, graph, Active, plainField_ne]

theorem closeUVC_leaves : Leaves other s closeUVC False := by
  simp [Leaves, closeUVC, graph, Active]

theorem stop_leaves : Leaves other s stop False := by
  simp [Leaves, stop, graph, Active]

theorem setZoom_leaves (val : Binary32) : Leaves other s (setZoom val) (Active s) := by
  by_cases closed : s.feature &&& uvcMask = 0#32
  · simp [Leaves, setZoom, graph, Active, closed]
  · have zoomOn := zoomOnField_ne s closed
    have zoomOff := zoomOffField_ne s closed
    simp [Leaves, setZoom, graph, Active, closed, zoomOn, zoomOff]

theorem setPosition_leaves (mode : EptzMode) (val : Int) :
    Leaves other s (setPosition mode val) (Active s) := by
  by_cases closed : s.feature &&& uvcMask = 0#32
  · simp [Leaves, setPosition, graph, Active, closed]
  · simp [Leaves, setPosition, graph, Active, closed, zoomedField_ne]

theorem linkBYPASS_leaves (enable : Bool) :
    Leaves other s (linkBYPASS enable) (Active s ∨ enable = true) := by
  have bypass : featureUvcBypass &&& uvcMask ≠ 0#32 ∧ featureUvcBypass ≠ 0#32 := by decide
  by_cases already : s.feature &&& uvcMask = featureUvcBypass
  · cases enable <;> simp [Leaves, linkBYPASS, graph, Active, already, bypass, zoomedField_ne]
  · cases enable <;> simp [Leaves, linkBYPASS, graph, Active, already, bypass]

theorem enableEPTZ_leaves (enable : Bool) :
    Leaves other s (enableEPTZ enable) (Active s ∨ enable = true) := by
  have eptz : featureEptz &&& uvcMask ≠ 0#32 ∧ featureEptz ≠ 0#32 := by decide
  by_cases already : s.feature &&& uvcMask = featureEptz
  · cases enable <;>
      simp [Leaves, enableEPTZ, invokeGraph, graph, Active, already, eptz, zoomedField_ne]
  · cases enable <;> simp [Leaves, enableEPTZ, graph, Active, already, eptz]

theorem setFaceLine_leaves (enable : Int) :
    Leaves other s (setFaceLine enable) (Active s ∨ enable ≠ 0) := by
  have faceLine : featureFaceLine &&& uvcMask ≠ 0#32 ∧ featureFaceLine ≠ 0#32 := by decide
  by_cases off : enable = 0
  · by_cases already : s.feature &&& uvcMask = featureFaceLine
    · simp [Leaves, setFaceLine, graph, Active, off, already, faceLine, plainField_ne]
    · simp [Leaves, setFaceLine, graph, Active, off, already]
  · by_cases already : s.feature &&& uvcMask = featureFaceLine
    · simp [Leaves, setFaceLine, graph, Active, off, already, faceLine]
    · simp [Leaves, setFaceLine, graph, Active, off, Ne.symm off, already, faceLine]

theorem method_leaves (c : Call) :
    Leaves other s c.method.body (c.closes = false ∧ (Active s ∨ c = .openUVC ∨ c.forces = true)) := by
  cases c with
  | openUVC => simpa [Call.method, Method.body, Call.closes] using openUVC_leaves graph
  | closeUVC => simpa [Call.method, Method.body, Call.closes] using closeUVC_leaves graph
  | stop => simpa [Call.method, Method.body, Call.closes] using stop_leaves graph
  | setZoom val =>
      simpa [Call.method, Method.body, Call.closes, Call.forces] using setZoom_leaves graph val
  | setEptz mode val =>
      cases mode with
      | pan =>
          simpa [Call.method, Method.body, setEptz, Call.closes, Call.forces] using
            setPosition_leaves graph .pan val
      | tilt =>
          simpa [Call.method, Method.body, setEptz, Call.closes, Call.forces] using
            setPosition_leaves graph .tilt val
      | roll => simp [Leaves, Call.method, Method.body, setEptz, Call.closes, Call.forces, graph]
      | auto =>
          simpa [Call.method, Method.body, setEptz, Call.closes, Call.forces] using
            enableEPTZ_leaves graph (val != 0)
      | bypassLink =>
          simpa [Call.method, Method.body, setEptz, Call.closes, Call.forces] using
            linkBYPASS_leaves graph (val != 0)
  | setFaceLine enable =>
      simpa [Call.method, Method.body, Call.closes, Call.forces] using setFaceLine_leaves graph enable

end Calls

section Runs

def Ready (n : Nat) (next : Sys Thread Ctx Question RtRet) : Prop :=
  Alone next (.client n) ∧ idle (next.frames (.client n)) = true

/-- Every sequence is a run of the system of threads, with one client that makes the calls. -/
theorem exec_calls (n : Nat) (s t : Ctx) (labels : List (Call × (Question → Bool)))
    (run : exec step s labels = some t) :
    ∃ moves next, exec (MutexPrograms.step true program) ⟨s, none, fun _ => none, false⟩ moves =
      some next ∧ Ready n next ∧ next.shared = t := by
  induction labels using List.reverseRecOn generalizing t with
  | nil =>
      cases run
      exact ⟨[], _, rfl, ⟨⟨rfl, nofun⟩, rfl⟩, rfl⟩
  | append_singleton labels l ih =>
      obtain ⟨m, before, last⟩ := (exec_concat step s t labels l).mp run
      obtain ⟨moves, sys, reached, ⟨alone, free⟩, rfl⟩ := ih m before
      obtain ⟨⟨ret, t⟩, evaluated, rfl⟩ := Option.map_eq_some_iff.mp last
      have called : MutexPrograms.step true program sys (.call (.client n) (.method l.1.method)) =
          some (sys.resume (.client n) ⟨l.1.method.body, 0, 0, []⟩) := if_pos ⟨alone.1, free⟩
      obtain ⟨more, next, f, ended, alone', shared, running, returned⟩ :=
        finishes_of_eval program (supporting l.2) (.client n) ret t _
          (sys.resume (.client n) ⟨l.1.method.body, 0, 0, []⟩) _ alone (Function.update_self ..) rfl
          evaluated
      refine ⟨moves ++ .call (.client n) (.method l.1.method) :: more, next, ?_, ⟨alone', ?_⟩, shared⟩
      · rw [exec_append, reached, Option.bind_some, exec, called]
        exact ended
      · rw [running]
        simp [idle, returned]

/-- The calls after the last that closes, the latest first. -/
def sinceClosed (calls : List Call) : List Call :=
  calls.reverse.takeWhile fun c => !c.closes

theorem sinceClosed_concat (calls : List Call) (c : Call) :
    sinceClosed (calls ++ [c]) = if c.closes then [] else c :: sinceClosed calls := by
  cases closes : c.closes <;> simp [sinceClosed, closes]

/-- The field is set exactly if a call since the last that closes opens or forces it. -/
theorem active_iff (s : Ctx) (graph : s.taskGraph = true) (closed : ¬Active s)
    (labels : List (Call × (Question → Bool))) :
    ∃ t, exec step s labels = some t ∧ t.taskGraph = true ∧
      (Active t ↔ ∃ c ∈ sinceClosed (labels.map Prod.fst), c = .openUVC ∨ c.forces = true) := by
  induction labels using List.reverseRecOn with
  | nil => exact ⟨s, rfl, graph, by simpa [sinceClosed] using closed⟩
  | append_singleton labels l ih =>
      obtain ⟨m, before, built, active⟩ := ih
      obtain ⟨ret, t, evaluated, stays, changed⟩ := method_leaves built l.1
      refine ⟨t, (exec_concat step s t labels l).mpr ⟨m, before, ?_⟩, stays, ?_⟩
      · rw [step, evaluated]
        rfl
      · rw [changed, active, List.map_append, List.map_singleton, sinceClosed_concat]
        cases closes : l.1.closes with
        | true => simp
        | false => simp [or_comm]

/-- The field is set exactly while UVC is open, if it was opened after the last call that closes
or nothing forced it since then. -/
theorem active_iff_opened_iff (s : Ctx) (graph : s.taskGraph = true) (closed : ¬Active s)
    (labels : List (Call × (Question → Bool))) :
    ∃ t, exec step s labels = some t ∧
      ((Active t ↔ Call.openUVC ∈ sinceClosed (labels.map Prod.fst)) ↔
        Call.openUVC ∈ sinceClosed (labels.map Prod.fst) ∨
          ∀ c ∈ sinceClosed (labels.map Prod.fst), c.forces = false) := by
  obtain ⟨t, run, -, active⟩ := active_iff s graph closed labels
  refine ⟨t, run, ?_⟩
  rw [active]
  by_cases opened : Call.openUVC ∈ sinceClosed (labels.map Prod.fst)
  · exact iff_of_true (iff_of_true ⟨.openUVC, opened, .inl rfl⟩ opened) (.inl opened)
  · rw [iff_false_right opened, or_iff_right opened]
    constructor
    · intro never c member
      exact Bool.eq_false_iff.mpr fun forced => never ⟨c, member, .inr forced⟩
    · rintro none ⟨c, member, rfl | forced⟩
      · exact opened member
      · exact Bool.false_ne_true ((none c member).symm.trans forced)

def builtCtx : Ctx := { Ctx.initial with taskGraph := true }

def openAndZoom : List (Call × (Question → Bool)) :=
  [(.setZoom ⟨0x40000000#32⟩, fun _ => true), (.openUVC, fun _ => true),
    (.setEptz .auto 1, fun _ => true), (.closeUVC, fun _ => true)]

theorem openAndZoom_active : ∃ t, exec step builtCtx openAndZoom = some t ∧
    ((Active t ↔ Call.openUVC ∈ sinceClosed (openAndZoom.map Prod.fst)) ↔
      Call.openUVC ∈ sinceClosed (openAndZoom.map Prod.fst) ∨
        ∀ c ∈ sinceClosed (openAndZoom.map Prod.fst), c.forces = false) :=
  active_iff_opened_iff builtCtx rfl (by decide) openAndZoom

/-- The face line is switched on before UVC is opened. -/
def faceLineFirst : List (Call × (Question → Bool)) := [(.setFaceLine 1, fun _ => true)]

theorem faceLineFirst_active : ∃ t, exec step builtCtx faceLineFirst = some t ∧ Active t ∧
    Call.openUVC ∉ faceLineFirst.map Prod.fst :=
  ⟨_, rfl, by decide, by decide⟩

end Runs

end WfyApp.UvcLink
