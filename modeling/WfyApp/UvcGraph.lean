import WfyApp.ByteText
import WfyApp.MutexPrograms

/-! The class `AIUVCGraph` of aiserver (ai_uvc_graph.cpp) as programs over its context and
`mStateMutex`: the public methods, the helpers they share and a round of the graph thread.
The task graph itself is outside; a call of it is a question whose answer is its outcome, and
a call through a null pointer ends the process. The parameters of the nodes, the registration
of the callbacks and the branches for `NODE_STATE_DEBUG`, which no build sets, are left out. -/

namespace WfyApp.UvcGraph
open ByteText MutexPrograms MutexPrograms.Prog

structure Binary32 where
  bits : BitVec 32
deriving DecidableEq, Repr

namespace Binary32

def magnitude (x : Binary32) : Nat := (x.bits &&& 0x7fffffff#32).toNat

def isNaN (x : Binary32) : Bool := 0x7f800000 < x.magnitude

/-- The order of the numbers; both zeros are 0. -/
def rank (x : Binary32) : Int := if x.bits.msb then -x.magnitude else x.magnitude

def eq (x y : Binary32) : Bool := !x.isNaN && !y.isNaN && x.rank == y.rank

def lt (x y : Binary32) : Bool := !x.isNaN && !y.isNaN && decide (x.rank < y.rank)

def one : Binary32 := ⟨0x3f800000#32⟩

def five : Binary32 := ⟨0x40a00000#32⟩

end Binary32

/-- `failed` stands for any other code that a call of the task graph returns. -/
inductive RtRet where
  | ok
  | errUnsupport
  | errUnknown
  | errNullPtr
  | failed
deriving DecidableEq, Repr

inductive LinkMode where
  | none
  | uvc
  | eptz
  | uvcBypass
  | uvcZoom
  | faceLine
  | nnIsp
  | nnLinkout
  | aimatting
  | uvcFaceae
deriving DecidableEq, Repr

inductive EptzMode where
  | pan
  | tilt
  | roll
  | auto
  | bypassLink
deriving DecidableEq, Repr

/-- The algorithms by name; a name that is not known belongs to the vendor. -/
inductive AiType where
  | face
  | faceLandmark
  | faceAttribute
  | faceFeature
  | body
  | hand
  | handLandmark
  | vendor (name : Bytes)
deriving DecidableEq, Repr

inductive Detection where
  | face
  | faceDistance
  | faceLandmark
  | faceAttribute
  | faceFeature
  | body
  | hand
  | vendor (name : Bytes)
deriving DecidableEq, Repr

inductive Scene where
  | nn
  | eptz
  | other
deriving DecidableEq, Repr

inductive Node where
  | ispScale0
  | ispBypass
  | zoomRga
  | asteriaFace
  | eptz
  | eptzRga
  | faceLine
  | asteriaRga
  | nn0
  | nn1
  | nn2
deriving DecidableEq, Repr

inductive RgaRole where
  | src
  | dst
deriving DecidableEq, Repr

inductive GraphCall where
  | autoBuild
  | prepare
  | start
  | stop
  | waitUntilDone
  | hasLinkMode (mode : LinkMode)
  | updateParams (node : Node)
  | setConfig (node : Node) (role : RgaRole)
  | setNnConfig (node : Node) (enable : Bool) (detection : Detection)
  | preloadResource (node : Node)
  | resetPosition
  | setFaceaeConfig
  | privateCmd
deriving DecidableEq, Repr

inductive Site where
  | setupGraphAndWaitDone
  | deinitializeGraph
  | updateCameraParams
  | setCameraParams
  | updateNNParams
  | preload
  | openAI
  | setAIAlgorithm
  | enableAIAlgorithm
  | linkBYPASS
  | enableEPTZ
  | setZoom
  | waitUntilDone
  | openAIMatting
  | setFaceAE
  | setFaceLine
  | invoke
deriving DecidableEq, Repr

structure Question where
  site : Site
  call : GraphCall
deriving DecidableEq, Repr

abbrev Flags := BitVec 32

def uvcMask : Flags := 0xf
def nnMask : Flags := 0xf0
def aimattingMask : Flags := 0xf00
def faceaeMask : Flags := 0xf000

def featureUvc : Flags := 0x1
def featureEptz : Flags := 0x2
def featureUvcZoom : Flags := 0x3
def featureFaceLine : Flags := 0x8
def featureUvcBypass : Flags := 0x9
def featureNn : Flags := 0x10
def featureAimatting : Flags := 0x100

def detectFace : Flags := 0x1
def detectFaceLandmark : Flags := 0x2
def detectFaceAttribute : Flags := 0x4
def detectFaceFeature : Flags := 0x8
def detectHand : Flags := 0x100
def detectHandLandmark : Flags := 0x200
def detectBody : Flags := 0x1000
def detectVendor : Flags := 0x10000000

def setField (mask value flags : Flags) : Flags := (flags &&& ~~~mask) ||| value

def forceUseRgaMinHeight : Int := 480
def forceUseRgaMinWidth : Int := 640
def eptzMax : Int := 10

structure Ctx where
  /-- The build defines `RK356X`; nothing changes it. -/
  rk356x : Bool
  zoom : Binary32
  width : Int
  height : Int
  taskGraph : Bool
  running : Bool
  feature : Flags
  request : Bool
  detection : Flags
  eptzVal : EptzMode → Int
  vendorDetections : List (Bytes × Bool)
  cameraWidth : Int
  cameraHeight : Int
  links : List LinkMode
  threadOut : Bool

def Ctx.initial : Ctx where
  rk356x := false
  zoom := .one
  width := 1280
  height := 720
  taskGraph := false
  running := true
  feature := 0
  request := false
  detection := 0
  eptzVal _ := 0
  vendorDetections := []
  cameraWidth := 1280
  cameraHeight := 720
  links := []
  threadOut := false

instance : Inhabited Ctx := ⟨.initial⟩

abbrev Graph := Prog Ctx Question

def onGraph (site : Site) (call : GraphCall) : Graph Bool := do
  if (← read).taskGraph then .ask ⟨site, call⟩ .ret else .abort

def invokeGraph (site : Site) (call : GraphCall) : Graph RtRet := do
  if ← onGraph site call then return .ok else return .failed

section Links

/-- The link of the UVC field, if the field has one of its five values. -/
def uvcLink (field : Flags) : List LinkMode :=
  if field = featureUvc then [.uvc]
  else if field = featureEptz then [.eptz]
  else if field = featureUvcBypass then [.uvcBypass]
  else if field = featureUvcZoom then [.uvcZoom]
  else if field = featureFaceLine then [.faceLine]
  else []

def linkIf (flags mask : Flags) (mode : LinkMode) : LinkMode :=
  if flags &&& mask ≠ 0 then mode else .none

def linkModes (feature : Flags) : List LinkMode :=
  let field := feature &&& uvcMask
  let nnLink : LinkMode := if field = 0 ∨ field = featureUvc then .nnIsp else .nnLinkout
  uvcLink field ++ [linkIf feature nnMask nnLink, linkIf feature aimattingMask .aimatting,
    linkIf feature faceaeMask .uvcFaceae]

def selectLinkMode : Graph RtRet := do
  if !(← read).taskGraph then .abort
  modify fun s => { s with links := linkModes s.feature }
  return .ok

end Links

section Thread

def setCameraParams : Graph RtRet := do
  let s ← read
  -- for a smaller width only the RK356X build sets the scaler
  if forceUseRgaMinWidth < s.width || s.rk356x then
    if !(← onGraph .setCameraParams (.updateParams .ispScale0)) then return .failed
  if !(← onGraph .setCameraParams (.updateParams .ispBypass)) then return .failed
  if !(← onGraph .setCameraParams (.updateParams .eptzRga)) then return .failed
  if !(← onGraph .setCameraParams (.setConfig .eptzRga .dst)) then return .failed
  -- the outcomes of the next four are not looked at
  let _ ← onGraph .setCameraParams (.updateParams .eptz)
  let _ ← onGraph .setCameraParams (.updateParams .faceLine)
  let _ ← onGraph .setCameraParams (.updateParams .zoomRga)
  let _ ← onGraph .setCameraParams (.setConfig .asteriaRga .src)
  invokeGraph .setCameraParams (.setConfig .asteriaRga .dst)

def setAIAlgorithm (enable : Bool) (detection : Detection) : Graph RtRet := do
  if !(← onGraph .setAIAlgorithm (.setNnConfig .nn0 enable detection)) then return .failed
  let _ ← onGraph .setAIAlgorithm (.setNnConfig .nn1 enable detection)
  invokeGraph .setAIAlgorithm (.setNnConfig .nn2 enable detection)

def setAlgorithms : List (Bool × Detection) → Graph Unit
  | [] => pure ()
  | (enable, detection) :: rest => do
      let _ ← setAIAlgorithm enable detection
      setAlgorithms rest

/-- Algorithms are on if their flags are. -/
def updateDetections (mask : Flags) (detections : List Detection) : Graph Unit := do
  let enable := (← read).detection &&& mask != 0
  setAlgorithms (detections.map fun detection => (enable, detection))

def updateAIAlgorithm : Graph RtRet := do
  updateDetections detectFace [.face, .faceDistance]
  updateDetections detectFaceLandmark [.faceLandmark]
  updateDetections detectFaceAttribute [.faceAttribute]
  updateDetections detectFaceFeature [.faceFeature]
  updateDetections detectBody [.body]
  updateDetections (detectHand ||| detectHandLandmark) [.hand]
  setAlgorithms ((← read).vendorDetections.map fun (name, enabled) => (enabled, .vendor name))
  return .ok

/-- The label `__FAILED`: the graph is deleted, and the mutex stays locked. -/
def setupFailed (ret : RtRet) : Graph RtRet := do
  modify fun s => { s with taskGraph := false }
  return ret

/-- The mutex is locked by `threadLoop`. -/
def setupGraphAndWaitDone : Graph RtRet := do
  modify fun s => { s with taskGraph := true }
  if !(← onGraph .setupGraphAndWaitDone .autoBuild) then return ← setupFailed .failed
  let ret ← setCameraParams
  if ret ≠ .ok then return ← setupFailed ret
  if !(← onGraph .setupGraphAndWaitDone .prepare) then return ← setupFailed .failed
  if !(← onGraph .setupGraphAndWaitDone .start) then return ← setupFailed .failed
  let _ ← updateAIAlgorithm
  release
  -- the broadcast
  guarded (pure ())
  let _ ← onGraph .setupGraphAndWaitDone .waitUntilDone
  return .ok

def threadLoop : Graph RtRet := do
  if !(← read).running then
    modify fun s => { s with taskGraph := false, threadOut := true }
    return .ok
  guarded (.await (fun s => s.request) (.ret ()))
  acquire
  modify fun s => { s with request := false, taskGraph := false }
  setupGraphAndWaitDone

end Thread

section Lifecycle

def prepare : Graph RtRet := guarded do
  if (← read).taskGraph then return .ok
  modify fun s => { s with request := true }
  wait
  return .ok

def start : Graph RtRet := pure .ok

def stop : Graph RtRet := do
  modify fun s => { s with feature := 0 }
  let _ ← selectLinkMode
  return .ok

/-- The graph is told to stop, and the thread to take up a new request. -/
def requestRound (site : Site) : Graph Unit := do
  if (← read).taskGraph then
    let _ ← onGraph site .stop
  modify fun s => { s with request := true }

def deinitializeGraph : Graph RtRet := do
  let _ ← stop
  modify fun s => { s with running := false }
  guarded (requestRound .deinitializeGraph)
  .join (fun s => s.threadOut) (.ret ())
  return .ok

def updateCameraParams (width height : Option Int) : Graph RtRet := do
  modify fun s => { s with width := width.getD s.width, height := height.getD s.height }
  let s ← read
  if s.cameraWidth ≠ s.width ∨ s.cameraHeight ≠ s.height then
    guarded do
      requestRound .updateCameraParams
      wait
    modify fun s => { s with cameraWidth := s.width, cameraHeight := s.height }
  return .ok

def updateNNParams : Graph RtRet := invokeGraph .updateNNParams .privateCmd

def preload (scene : Option Scene) : Graph RtRet :=
  match scene with
  | none => pure .errUnknown
  | some .nn => invokeGraph .preload (.preloadResource .nn0)
  | some .eptz => invokeGraph .preload (.preloadResource .asteriaFace)
  | some .other => pure .ok

def waitUntilDone : Graph RtRet := do
  if (← read).taskGraph then invokeGraph .waitUntilDone .waitUntilDone else return .ok

def invoke (privateCmd : Bool) : Graph RtRet := guarded do
  if !(← read).taskGraph then return .errNullPtr
  if privateCmd then invokeGraph .invoke .privateCmd else return .errUnsupport

end Lifecycle

section Uvc

/-- The field with which UVC is shown when nothing else is asked for. -/
def plainField (s : Ctx) : Flags :=
  if s.height ≤ forceUseRgaMinHeight ∨ (s.width = 1024 ∧ s.height = 768) then featureUvcZoom
  else featureUvc

def zoomedField (s : Ctx) : Flags :=
  if !s.zoom.eq .one then featureUvcZoom else plainField s

def setUvc (field : Ctx → Flags) : Graph Unit :=
  modify fun s => { s with feature := setField uvcMask (field s) s.feature }

def openUVC : Graph RtRet := guarded do
  if (← read).feature &&& uvcMask ≠ 0 then return .ok
  setUvc plainField
  let _ ← selectLinkMode
  return .ok

def closeUVC : Graph RtRet := guarded do
  if (← read).feature &&& uvcMask = 0 then return .ok
  setUvc fun _ => 0
  let _ ← selectLinkMode
  return .ok

def linkBYPASS (enable : Bool) : Graph RtRet := guarded do
  if !(← onGraph .linkBYPASS (.hasLinkMode .uvcBypass)) then return .errUnsupport
  let isBYPASS := (← read).feature &&& uvcMask == featureUvcBypass
  if isBYPASS = enable then return .ok
  setUvc fun s => if enable then featureUvcBypass else zoomedField s
  let _ ← selectLinkMode
  return .ok

def enableEPTZ (enable : Bool) : Graph RtRet := guarded do
  if !(← onGraph .enableEPTZ (.hasLinkMode .eptz)) then return .errUnsupport
  let isEPTZ := (← read).feature &&& uvcMask == featureEptz
  if isEPTZ = enable then return .ok
  setUvc fun s => if enable then featureEptz else zoomedField s
  let ret ← if isEPTZ && !enable then invokeGraph .enableEPTZ .resetPosition else pure .ok
  let _ ← selectLinkMode
  return ret

def zoomOnField (s : Ctx) : Flags :=
  let field := s.feature &&& uvcMask
  if field = featureEptz then featureEptz
  else if s.feature &&& featureUvc ≠ 0 then featureUvcZoom
  else field

def zoomOffField (s : Ctx) : Flags :=
  let field := s.feature &&& uvcMask
  if field = featureEptz then featureEptz
  else if field = featureUvcZoom then plainField s
  else field

def setZoom (val : Binary32) : Graph RtRet := guarded do
  if !(← onGraph .setZoom (.hasLinkMode .uvcZoom)) then return .errUnsupport
  if val.lt .one || Binary32.five.lt val then return .errUnknown
  let s ← read
  if !s.taskGraph || s.feature &&& uvcMask = 0 then
    modify fun s => { s with zoom := val }
    return .ok
  if s.zoom.eq val then return .ok
  if s.zoom.eq .one then
    setUvc zoomOnField
    let _ ← selectLinkMode
  else if val.eq .one then
    setUvc zoomOffField
    let _ ← selectLinkMode
  modify fun s => { s with zoom := val }
  return .ok

def setPosition (mode : EptzMode) (val : Int) : Graph RtRet := do
  let val := if eptzMax < |val| then if 0 < val then eptzMax else -eptzMax else val
  guarded do
    let s ← read
    let store : Graph Unit :=
      modify fun s => { s with eptzVal := Function.update s.eptzVal mode val }
    if !s.taskGraph || s.feature &&& uvcMask = 0 then
      store
      return .ok
    if s.zoom.eq .one && forceUseRgaMinWidth ≤ s.width && forceUseRgaMinHeight ≤ s.height then
      store
      return .ok
    setUvc zoomedField
    let _ ← selectLinkMode
    store
    return .ok

def setEptz (mode : EptzMode) (val : Int) : Graph RtRet :=
  match mode with
  | .pan => setPosition .pan val
  | .tilt => setPosition .tilt val
  | .auto => enableEPTZ (val != 0)
  | .bypassLink => linkBYPASS (val != 0)
  | .roll => pure .errUnknown

def setFaceAE (enable : Int) : Graph RtRet := do
  if !(← onGraph .setFaceAE (.hasLinkMode .uvcFaceae)) then return .errUnsupport
  let ret ← if enable ≠ 0 then do
      modify fun s => { s with feature := s.feature ||| faceaeMask }
      pure .ok
    else do
      modify fun s => { s with feature := s.feature &&& ~~~faceaeMask }
      invokeGraph .setFaceAE .setFaceaeConfig
  let _ ← selectLinkMode
  return ret

def setFaceLine (enable : Int) : Graph RtRet := guarded do
  if !(← onGraph .setFaceLine (.hasLinkMode .faceLine)) then return .errUnsupport
  let isFaceLine : Int := if (← read).feature &&& uvcMask = featureFaceLine then 1 else 0
  if isFaceLine = enable then return .ok
  setUvc fun s => if enable ≠ 0 then featureFaceLine else plainField s
  let _ ← selectLinkMode
  return .ok

end Uvc

section Ai

def getDetectionByType : AiType → Flags
  | .face => detectFace
  | .faceLandmark => detectFaceLandmark
  | .faceAttribute => detectFaceAttribute
  | .faceFeature => detectFaceFeature
  | .body => detectBody
  | .hand => detectHand
  | .handLandmark => detectHandLandmark
  | .vendor _ => detectVendor

/-- The map of the vendors, in the order of their names. -/
def setVendor (name : Bytes) (enabled : Bool) : List (Bytes × Bool) → List (Bytes × Bool)
  | [] => [(name, enabled)]
  | (first, flag) :: rest =>
      if name = first then (name, enabled) :: rest
      else if name < first then (name, enabled) :: (first, flag) :: rest
      else (first, flag) :: setVendor name enabled rest

def enableDetection (type : AiType) (s : Ctx) : Ctx :=
  { s with
    vendorDetections := match type with
      | .vendor name => setVendor name true s.vendorDetections
      | _ => s.vendorDetections
    detection := s.detection ||| getDetectionByType type }

/-- The flag of the vendors stays while one of them is on. -/
def disableDetection (type : AiType) (s : Ctx) : Ctx :=
  match type with
  | .vendor name =>
      let vendors := setVendor name false s.vendorDetections
      { s with
        vendorDetections := vendors
        detection := if vendors.any Prod.snd then s.detection else s.detection &&& ~~~detectVendor }
  | _ => { s with detection := s.detection &&& ~~~getDetectionByType type }

def openAI : Graph RtRet := guarded do
  if !(← onGraph .openAI (.hasLinkMode .nnIsp)) then return .errUnsupport
  if (← read).feature &&& nnMask ≠ 0 then return .ok
  modify fun s => { s with feature := setField nnMask featureNn s.feature }
  let _ ← selectLinkMode
  return .ok

def closeAI : Graph RtRet := guarded do
  if (← read).feature &&& nnMask = 0 then return .ok
  modify fun s => { s with feature := setField nnMask 0 s.feature }
  let _ ← selectLinkMode
  return .ok

/-- The mutex is given up around `openAI`; if that fails, the label is behind the unlock. -/
def enableAIAlgorithm (type : AiType) : Graph RtRet := do
  acquire
  if !(← onGraph .enableAIAlgorithm (.hasLinkMode .nnIsp)) then
    release
    return .errUnsupport
  if (← read).detection = 0 then
    release
    let ret ← openAI
    acquire
    if ret ≠ .ok then return ret
  modify (enableDetection type)
  let _ ← updateAIAlgorithm
  release
  return .ok

def disableAIAlgorithm (type : AiType) : Graph RtRet := guarded do
  if (← read).feature &&& aimattingMask ≠ 0 ∧ (type = .face ∨ type = .faceAttribute) then
    return .ok
  modify (disableDetection type)
  if (← read).detection ≠ 0 then
    let _ ← updateAIAlgorithm
  if (← read).detection = 0 then return ← closeAI
  return .ok

def openAIMatting : Graph RtRet := do
  if !(← onGraph .openAIMatting (.hasLinkMode .aimatting)) then return .errUnsupport
  let ret ← enableAIAlgorithm .face
  if ret ≠ .ok then return ret
  let ret ← enableAIAlgorithm .faceFeature
  if ret ≠ .ok then return ret
  modify fun s => { s with feature := setField aimattingMask featureAimatting s.feature }
  let _ ← selectLinkMode
  return .ok

def closeAIMatting : Graph RtRet := do
  if (← read).feature &&& nnMask = 0 then return .ok
  let ret ← disableAIAlgorithm .faceFeature
  if ret ≠ .ok then return .ok
  modify fun s => { s with feature := setField aimattingMask 0 s.feature }
  let _ ← selectLinkMode
  return .ok

end Ai

section Alone
variable {answers : Question → Bool} {s : Ctx}

@[simp] theorem ensures_onGraph (site : Site) (call : GraphCall) (post : Bool → Ctx → Prop) :
    Ensures answers s (onGraph site call) post ↔
      (s.taskGraph = true → post (answers ⟨site, call⟩) s) := by
  cases graph : s.taskGraph <;> simp [onGraph, graph]

@[simp] theorem ensures_selectLinkMode (post : RtRet → Ctx → Prop) :
    Ensures answers s selectLinkMode post ↔
      (s.taskGraph = true → post .ok { s with links := linkModes s.feature }) := by
  cases graph : s.taskGraph <;> simp [selectLinkMode, graph]

end Alone

/-- The public methods; those that set a callback or do nothing are `start`. -/
inductive Method where
  | prepare
  | start
  | stop
  | deinitializeGraph
  | updateCameraParams (width height : Option Int)
  | setCameraParams
  | updateNNParams
  | preload (scene : Option Scene)
  | waitUntilDone
  | invoke (privateCmd : Bool)
  | selectLinkMode
  | openUVC
  | closeUVC
  | linkBYPASS (enable : Bool)
  | enableEPTZ (enable : Bool)
  | setZoom (val : Binary32)
  | setEptz (mode : EptzMode) (val : Int)
  | setFaceAE (enable : Int)
  | setFaceLine (enable : Int)
  | enableAIAlgorithm (type : AiType)
  | disableAIAlgorithm (type : AiType)
  | openAIMatting
  | closeAIMatting
deriving DecidableEq, Repr

def Method.body : Method → Graph RtRet
  | prepare => UvcGraph.prepare
  | start => UvcGraph.start
  | stop => UvcGraph.stop
  | deinitializeGraph => UvcGraph.deinitializeGraph
  | updateCameraParams width height => UvcGraph.updateCameraParams width height
  | setCameraParams => UvcGraph.setCameraParams
  | updateNNParams => UvcGraph.updateNNParams
  | preload scene => UvcGraph.preload scene
  | waitUntilDone => UvcGraph.waitUntilDone
  | invoke privateCmd => UvcGraph.invoke privateCmd
  | selectLinkMode => UvcGraph.selectLinkMode
  | openUVC => UvcGraph.openUVC
  | closeUVC => UvcGraph.closeUVC
  | linkBYPASS enable => UvcGraph.linkBYPASS enable
  | enableEPTZ enable => UvcGraph.enableEPTZ enable
  | setZoom val => UvcGraph.setZoom val
  | setEptz mode val => UvcGraph.setEptz mode val
  | setFaceAE enable => UvcGraph.setFaceAE enable
  | setFaceLine enable => UvcGraph.setFaceLine enable
  | enableAIAlgorithm type => UvcGraph.enableAIAlgorithm type
  | disableAIAlgorithm type => UvcGraph.disableAIAlgorithm type
  | openAIMatting => UvcGraph.openAIMatting
  | closeAIMatting => UvcGraph.closeAIMatting

inductive Thread where
  | graph
  | client (n : Nat)
deriving DecidableEq, Repr

inductive Entry where
  | round
  | method (m : Method)
deriving DecidableEq, Repr

/-- What a thread can start: the graph thread a round, as long as it has not ended, and any
other thread a public method. -/
def program : Thread → Entry → Option (Graph RtRet)
  | .graph, .round => some (.join (fun s => !s.threadOut) threadLoop)
  | .client _, .method m => some m.body
  | _, _ => none

end WfyApp.UvcGraph
