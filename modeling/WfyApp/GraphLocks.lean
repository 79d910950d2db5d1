import WfyApp.UvcGraph

/-! The lock balance of `mStateMutex` in `AIUVCGraph`: which answers of the task graph make a
public method or a round of the graph thread end with the mutex locked, in every interleaving
of the threads. -/

namespace WfyApp.GraphLocks
open MutexPrograms MutexPrograms.Prog StepSystem UvcGraph

def checkedParams : List GraphCall :=
  [.updateParams .ispScale0, .updateParams .ispBypass, .updateParams .eptzRga,
    .setConfig .eptzRga .dst, .setConfig .asteriaRga .dst]

/-- A failed step of the setup in the graph thread, or a graph that `openAI` finds without
its link. -/
def spoils (t : Thread) (q : Question) (answer : Bool) : Bool :=
  !answer && match q.site with
    | .setupGraphAndWaitDone => q.call ∈ [.autoBuild, .prepare, .start]
    | .setCameraParams => t = .graph && q.call ∈ checkedParams
    | .openAI => true
    | _ => false

section Specs
variable {t : Thread} {n : Nat} {owed : Int} {clean : Prop} {post : RtRet → Int → Prop → Prop}

@[simp] theorem settles_onGraph (site : Site) (call : GraphCall) (post : Bool → Int → Prop → Prop) :
    (onGraph site call).Settles (spoils t) owed clean post ↔
      ∀ answer, post answer owed (clean ∧ spoils t ⟨site, call⟩ answer = false) := by
  simp only [onGraph, settles_bind, settles_read, settles_ite, settles_abort]
  constructor
  · intro all
    exact all { Ctx.initial with taskGraph := true }
  · intro all s
    split_ifs
    exact all

@[simp] theorem settles_invokeGraph (site : Site) (call : GraphCall) :
    (invokeGraph site call).Settles (spoils t) owed clean post ↔
      post .ok owed (clean ∧ spoils t ⟨site, call⟩ true = false) ∧
        post .failed owed (clean ∧ spoils t ⟨site, call⟩ false = false) := by
  simp [invokeGraph, and_comm]

@[simp] theorem settles_selectLinkMode :
    selectLinkMode.Settles (spoils t) owed clean post ↔ post .ok owed clean := by
  simp only [selectLinkMode, settles_bind, settles_read, settles_ite, settles_abort, settles_pure,
    settles_modify]
  constructor
  · intro all
    exact all { Ctx.initial with taskGraph := true }
  · intro all s
    split_ifs
    exact all

@[simp] theorem settles_setAlgorithms (settings : List (Bool × Detection))
    (post : Unit → Int → Prop → Prop) :
    (setAlgorithms settings).Settles (spoils t) owed clean post ↔ post () owed clean := by
  induction settings with
  | nil => exact Iff.rfl
  | cons setting settings ih => simp [setAlgorithms, setAIAlgorithm, spoils, ih]

@[simp] theorem settles_updateAIAlgorithm :
    updateAIAlgorithm.Settles (spoils t) owed clean post ↔ post .ok owed clean := by
  simp [updateAIAlgorithm, updateDetections]

/-- A public call of `setCameraParams` can fail, but only in the graph thread that spoils
something. -/
@[simp] theorem settles_setCameraParams :
    setCameraParams.Settles (spoils t) owed clean post ↔
      post .ok owed clean ∧ post .failed owed (clean ∧ t ≠ .graph) := by
  simp [setCameraParams, spoils, checkedParams]

@[simp] theorem settles_openAI :
    openAI.Settles (spoils t) owed clean post ↔
      post .errUnsupport owed False ∧ post .ok owed clean := by
  simp [openAI, spoils]

@[simp] theorem settles_enableAIAlgorithm (type : AiType) :
    (enableAIAlgorithm type).Settles (spoils t) owed clean post ↔
      post .errUnsupport owed clean ∧ post .errUnsupport (owed + 1) False ∧ post .ok owed clean := by
  have split (stuck done : Prop) :
      (∀ s : Ctx, if s.detection = 0#32 then stuck ∧ done else done) ↔ stuck ∧ done := by
    constructor
    · intro all
      exact all .initial
    · intro both s
      split_ifs
      · exact both
      · exact both.2
  simp [enableAIAlgorithm, spoils, split]

theorem body_exact (m : Method) : m.body.Exact (spoils (.client n)) 0 True := by
  rw [Exact]
  cases m with
  | prepare => simp [Method.body, UvcGraph.prepare]
  | start => simp [Method.body, UvcGraph.start]
  | stop => simp [Method.body, UvcGraph.stop]
  | deinitializeGraph =>
      simp [Method.body, UvcGraph.deinitializeGraph, UvcGraph.stop, requestRound, spoils]
  | updateCameraParams width height =>
      simp [Method.body, UvcGraph.updateCameraParams, requestRound, spoils]
  | setCameraParams => simp [Method.body]
  | updateNNParams => simp [Method.body, UvcGraph.updateNNParams, spoils]
  | preload scene =>
      cases scene with
      | none => simp [Method.body, UvcGraph.preload]
      | some scene => cases scene <;> simp [Method.body, UvcGraph.preload, spoils]
  | waitUntilDone => simp [Method.body, UvcGraph.waitUntilDone, spoils]
  | invoke privateCmd => cases privateCmd <;> simp [Method.body, UvcGraph.invoke, spoils]
  | selectLinkMode => simp [Method.body]
  | openUVC => simp [Method.body, UvcGraph.openUVC, setUvc]
  | closeUVC => simp [Method.body, UvcGraph.closeUVC, setUvc]
  | linkBYPASS enable => simp [Method.body, UvcGraph.linkBYPASS, setUvc, spoils]
  | enableEPTZ enable => simp [Method.body, UvcGraph.enableEPTZ, setUvc, spoils]
  | setZoom val => simp [Method.body, UvcGraph.setZoom, setUvc, spoils]
  | setEptz mode val =>
      cases mode <;> simp [Method.body, UvcGraph.setEptz, setPosition, UvcGraph.enableEPTZ,
        UvcGraph.linkBYPASS, setUvc, spoils]
  | setFaceAE enable => simp [Method.body, UvcGraph.setFaceAE, spoils]
  | setFaceLine enable => simp [Method.body, UvcGraph.setFaceLine, setUvc, spoils]
  | enableAIAlgorithm type => simp [Method.body]
  | disableAIAlgorithm type => simp [Method.body, UvcGraph.disableAIAlgorithm, closeAI]
  | openAIMatting => simp [Method.body, UvcGraph.openAIMatting, spoils]
  | closeAIMatting =>
      simp [Method.body, UvcGraph.closeAIMatting, UvcGraph.disableAIAlgorithm, closeAI]

theorem threadLoop_exact : threadLoop.Exact (spoils .graph) 0 True := by
  simp [Exact, threadLoop, setupGraphAndWaitDone, setupFailed, spoils]

theorem program_exact (t : Thread) (e : Entry) (p : Graph RtRet) (found : program t e = some p) :
    p.Exact (spoils t) 0 True := by
  cases t with
  | graph =>
      cases e with
      | round =>
          cases found
          exact threadLoop_exact
      | method m => cases found
  | client n =>
      cases e with
      | round => cases found
      | method m =>
          cases found
          exact body_exact m

end Specs

section Runs

def built (rk356x : Bool) : Sys Thread Ctx Question RtRet :=
  ⟨{ Ctx.initial with rk356x := rk356x }, none, fun _ => none, false⟩

/-- In every interleaving, a public method that has returned, or a round of the graph thread
that is over, released the mutex as often as it acquired it exactly if no answer it got spoils
it; it does not matter whether the mutex is recursive. -/
theorem released_eq_acquired_iff (recursive rk356x : Bool) (labels : List (Label Thread Entry))
    (s : Sys Thread Ctx Question RtRet)
    (run : exec (step recursive program) (built rk356x) labels = some s) (t : Thread)
    (f : Frame Ctx Question RtRet) (ret : RtRet) (running : s.frames t = some f)
    (returned : f.returned = some ret) :
    f.acquired = f.released ↔ f.Clean (spoils t) :=
  returned_iff program_exact labels (built rk356x) s (fun _ => rfl) run t f ret running returned

def wholeRound : List (Label Thread Entry) :=
  .call (.client 0) (.method .prepare) :: List.replicate 4 (.move (.client 0) true) ++
    .call .graph .round :: List.replicate 87 (.move .graph true)

theorem wholeRound_released : ∃ s f, exec (step true program) (built true) wholeRound = some s ∧
    s.frames .graph = some f ∧ f.returned = some .ok ∧ f.acquired = 3 ∧
      (f.acquired = f.released ↔ f.Clean (spoils .graph)) :=
  ⟨_, _, rfl, rfl, rfl, rfl, released_eq_acquired_iff true true wholeRound _ rfl _ _ _ rfl rfl⟩

def failedBuild : List (Label Thread Entry) :=
  .call (.client 0) (.method .prepare) :: List.replicate 4 (.move (.client 0) true) ++
    .call .graph .round :: List.replicate 9 (.move .graph true) ++
      List.replicate 2 (.move .graph false)

/-- The round is over with one lock left, and the client of `prepare` cannot go on. -/
theorem failedBuild_locked : ∃ s f, exec (step true program) (built false) failedBuild = some s ∧
    s.frames .graph = some f ∧ f.returned = some .failed ∧ f.acquired = 2 ∧ f.released = 1 ∧
      ∀ answer, step true program s (.move (.client 0) answer) = none :=
  ⟨_, _, rfl, rfl, rfl, rfl, rfl, fun _ => rfl⟩

end Runs

end WfyApp.GraphLocks
