import WfyApp.UvcLink

/-! Which mode the UVC field of `mFeature` shows, over every sequence of the calls that set it,
whatever the task graph supports. The calls are followed by a machine of six modes; beside the
context stands the zoom that a client was last granted. -/

namespace WfyApp.ZoomModes
open MutexPrograms MutexPrograms.Prog StepSystem UvcGraph UvcLink

inductive Mode where
  | closed
  | uvc
  | zoom
  | eptz
  | faceLine
  | bypass
deriving DecidableEq, Repr

namespace Mode

def field : Mode → Flags
  | closed => 0
  | uvc => featureUvc
  | zoom => featureUvcZoom
  | eptz => featureEptz
  | faceLine => featureFaceLine
  | bypass => featureUvcBypass

/-- The modes that a client selects by a call of their own. -/
def Selected (m : Mode) : Prop := m = eptz ∨ m = faceLine ∨ m = bypass

instance (m : Mode) : Decidable m.Selected := inferInstanceAs (Decidable (_ ∨ _))

@[simp] theorem field_and (m : Mode) : m.field &&& uvcMask = m.field := by
  cases m <;> rfl

theorem field_injective : Function.Injective field := by
  intro first second
  cases first <;> cases second <;> decide

@[simp] theorem field_inj {first second : Mode} : first.field = second.field ↔ first = second :=
  field_injective.eq_iff

@[simp] theorem field_eq_zero (m : Mode) : m.field = 0#32 ↔ m = closed := 
  field_injective.eq_iff' rfl

@[simp] theorem field_eq_eptz (m : Mode) : m.field = featureEptz ↔ m = eptz :=
  field_injective.eq_iff' rfl

@[simp] theorem field_eq_uvcZoom (m : Mode) : m.field = featureUvcZoom ↔ m = zoom :=
  field_injective.eq_iff' rfl

@[simp] theorem field_eq_faceLine (m : Mode) : m.field = featureFaceLine ↔ m = faceLine :=
  field_injective.eq_iff' rfl

@[simp] theorem field_eq_bypass (m : Mode) : m.field = featureUvcBypass ↔ m = bypass :=
  field_injective.eq_iff' rfl

end Mode

/-- The resolutions at which a frame is scaled in any case. -/
def Forced (width height : Int) : Prop :=
  height ≤ forceUseRgaMinHeight ∨ (width = 1024 ∧ height = 768)

instance (width height : Int) : Decidable (Forced width height) := inferInstanceAs (Decidable (_ ∨ _))

def plainMode (s : Ctx) : Mode := if Forced s.width s.height then .zoom else .uvc

def zoomedMode (s : Ctx) : Mode := if !s.zoom.eq .one then .zoom else plainMode s

theorem plainField_eq (s : Ctx) : plainField s = (plainMode s).field := by
  rw [plainField, plainMode, apply_ite Mode.field]
  rfl

theorem zoomedField_eq (s : Ctx) : zoomedField s = (zoomedMode s).field := by
  rw [zoomedField, zoomedMode, plainField_eq, apply_ite Mode.field]
  rfl

/-- The mode when the zoom leaves 1.0: the bits of the bypass mode include those of plain UVC. -/
def zoomOnMode : Mode → Mode
  | .uvc | .zoom | .bypass => .zoom
  | m => m

def zoomOffMode (s : Ctx) : Mode → Mode
  | .zoom => plainMode s
  | m => m

/-- A call that switches one of the selected modes. -/
def switched (own rest m : Mode) (enable : Bool) : Mode :=
  if (m == own) = enable then m else if enable then own else rest

def inRange (val : Binary32) : Bool := !(val.lt .one || Binary32.five.lt val)

def afterZoom (s : Ctx) (val : Binary32) (m : Mode) : Mode :=
  if m = .closed ∨ s.zoom.eq val then m
  else if s.zoom.eq .one then zoomOnMode m
  else if val.eq .one then zoomOffMode s m
  else m

def afterPosition (s : Ctx) (m : Mode) : Mode :=
  if s.taskGraph = false ∨ m = .closed then m
  else if s.zoom.eq .one && forceUseRgaMinWidth ≤ s.width && forceUseRgaMinHeight ≤ s.height then m
  else zoomedMode s

def supports (answers : Question → Bool) (site : Site) (mode : LinkMode) : Bool :=
  answers ⟨site, .hasLinkMode mode⟩

def after (answers : Question → Bool) (s : Ctx) (m : Mode) : Call → Mode
  | .openUVC => if m = .closed then plainMode s else m
  | .closeUVC | .stop => .closed
  | .setZoom val => if supports answers .setZoom .uvcZoom && inRange val then afterZoom s val m else m
  | .setEptz .pan _ | .setEptz .tilt _ => afterPosition s m
  | .setEptz .roll _ => m
  | .setEptz .auto val =>
      if supports answers .enableEPTZ .eptz then switched .eptz (zoomedMode s) m (val != 0) else m
  | .setEptz .bypassLink val =>
      if supports answers .linkBYPASS .uvcBypass then switched .bypass (zoomedMode s) m (val != 0)
      else m
  | .setFaceLine enable =>
      if supports answers .setFaceLine .faceLine then switched .faceLine (plainMode s) m (enable != 0)
      else m

/-- Two floats that no comparison tells apart. -/
def Same (x y : Binary32) : Prop := x.isNaN = y.isNaN ∧ x.rank = y.rank

@[simp] theorem same_refl (x : Binary32) : Same x x := ⟨rfl, rfl⟩

theorem same_of_eq {x y : Binary32} (equal : x.eq y = true) : Same x y := by
  simp only [Binary32.eq, Bool.and_eq_true, Bool.not_eq_true', beq_iff_eq] at equal
  exact ⟨equal.1.1.trans equal.1.2.symm, equal.2⟩

theorem same_trans {x y z : Binary32} (first : Same x y) (second : Same y z) : Same x z :=
  ⟨first.1.trans second.1, first.2.trans second.2⟩

theorem eq_one_of_same {x y : Binary32} (same : Same x y) : x.eq .one = y.eq .one := by
  simp only [Binary32.eq, same.1, same.2]

theorem eq_of_eq_one {x y : Binary32} (first : x.eq .one = true) (second : y.eq .one = true) :
    x.eq y = true := by
  simp only [Binary32.eq, Bool.and_eq_true, Bool.not_eq_true', beq_iff_eq] at first second ⊢
  exact ⟨⟨first.1.1, second.1.1⟩, first.2.trans second.2.symm⟩

/-- The zoom that a call is granted. -/
def granted (answers : Question → Bool) : Call → Option Binary32
  | .setZoom val => if supports answers .setZoom .uvcZoom && inRange val then some val else none
  | _ => none

@[mk_iff]
structure Follows (s t : Ctx) (m : Mode) (zoom : Binary32) : Prop where
  shown : t.feature &&& uvcMask = m.field
  zoomed : Same t.zoom zoom
  width : t.width = s.width
  height : t.height = s.height

section Calls
variable {answers : Question → Bool} {s : Ctx}

@[simp] theorem ensures_setUvc (field : Ctx → Flags) (post : Unit → Ctx → Prop) :
    Ensures answers s (setUvc field) post ↔
      post () { s with feature := setField uvcMask (field s) s.feature } := by
  simp [setUvc]

variable {m : Mode} (shown : s.feature &&& uvcMask = m.field)
include shown

theorem openUVC_follows :
    Ensures answers s openUVC fun _ t => Follows s t (after answers s m .openUVC) s.zoom := by
  by_cases closed : m = .closed <;>
    simp [openUVC, shown, after, closed, follows_iff, plainField_eq]

theorem closeUVC_follows :
    Ensures answers s closeUVC fun _ t => Follows s t .closed s.zoom := by
  by_cases closed : m = .closed <;> simp [closeUVC, shown, closed, follows_iff, Mode.field]

omit shown in
theorem stop_follows : Ensures answers s stop fun _ t => Follows s t .closed s.zoom := by
  simp [stop, follows_iff, Mode.field]

theorem linkBYPASS_follows (enable : Bool) :
    Ensures answers s (linkBYPASS enable) fun _ t => Follows s t
      (if supports answers .linkBYPASS .uvcBypass then switched .bypass (zoomedMode s) m enable else m)
      s.zoom := by
  have own : featureUvcBypass &&& uvcMask = Mode.bypass.field := rfl
  cases supported : supports answers .linkBYPASS .uvcBypass <;> rw [supports] at supported
  · simp [linkBYPASS, supported, follows_iff, shown]
  · by_cases already : m = .bypass <;> cases enable <;>
      simp [linkBYPASS, supported, follows_iff, shown, already, switched, zoomedField_eq, own]

theorem enableEPTZ_follows (enable : Bool) :
    Ensures answers s (enableEPTZ enable) fun _ t => Follows s t
      (if supports answers .enableEPTZ .eptz then switched .eptz (zoomedMode s) m enable else m)
      s.zoom := by
  have own : featureEptz &&& uvcMask = Mode.eptz.field := rfl
  cases supported : supports answers .enableEPTZ .eptz <;> rw [supports] at supported
  · simp [enableEPTZ, supported, follows_iff, shown]
  · by_cases already : m = .eptz <;> cases enable <;>
      simp [enableEPTZ, invokeGraph, supported, follows_iff, shown, already, switched,
        zoomedField_eq, own]

theorem setFaceLine_follows (enable : Int) :
    Ensures answers s (setFaceLine enable) fun _ t => Follows s t
      (if supports answers .setFaceLine .faceLine then
        switched .faceLine (plainMode s) m (enable != 0) else m)
      s.zoom := by
  have own : featureFaceLine &&& uvcMask = Mode.faceLine.field := rfl
  cases supported : supports answers .setFaceLine .faceLine <;> rw [supports] at supported
  · simp [setFaceLine, supported, follows_iff, shown]
  · by_cases already : m = .faceLine <;> by_cases off : enable = 0
    · simp [setFaceLine, supported, follows_iff, shown, already, off, switched, plainField_eq]
    · have on : (enable != 0) = true := bne_iff_ne.mpr off
      simp [setFaceLine, supported, follows_iff, shown, already, off, on, switched, own]
    · simp [setFaceLine, supported, follows_iff, shown, already, off, switched]
    · have on : (enable != 0) = true := bne_iff_ne.mpr off
      simp [setFaceLine, supported, follows_iff, shown, already, off, on, Ne.symm off, switched, own]

theorem setPosition_follows (mode : EptzMode) (val : Int) :
    Ensures answers s (setPosition mode val) fun _ t => Follows s t (afterPosition s m) s.zoom := by
  by_cases closed : s.taskGraph = false ∨ m = .closed
  · simp [setPosition, afterPosition, follows_iff, shown, closed]
  · by_cases large : (s.zoom.eq .one = true ∧ forceUseRgaMinWidth ≤ s.width) ∧
        forceUseRgaMinHeight ≤ s.height <;>
      simp [setPosition, afterPosition, follows_iff, shown, closed, zoomedField_eq, large]

theorem zoomOnField_eq : zoomOnField s = (zoomOnMode m).field := by
  have low : s.feature &&& featureUvc = m.field &&& featureUvc := by
    rw [← shown, BitVec.and_assoc]
    rfl
  rw [zoomOnField, shown, low]
  cases m <;> rfl

theorem zoomOffField_eq : zoomOffField s = (zoomOffMode s m).field := by
  rw [zoomOffField, shown]
  cases m with
  | zoom => exact plainField_eq s
  | _ => rfl

theorem setZoom_follows (val : Binary32) :
    Ensures answers s (setZoom val) fun _ t => Follows s t (after answers s m (.setZoom val))
      ((granted answers (.setZoom val)).getD s.zoom) := by
  cases supported : supports answers .setZoom .uvcZoom <;> have asked := supported <;>
    rw [supports] at asked
  · simp [setZoom, after, granted, asked, supported, follows_iff, shown]
  cases range : val.lt .one || Binary32.five.lt val with
  | true => simp [setZoom, after, granted, inRange, range, follows_iff, shown]
  | false =>
      cases graph : s.taskGraph
      · simp [setZoom, graph]
      by_cases closed : m = .closed
      · simp [setZoom, after, granted, inRange, afterZoom, asked, supported, range, closed,
          follows_iff, shown]
      cases same : s.zoom.eq val with
      | true =>
          simp [setZoom, after, granted, inRange, afterZoom, asked, supported, range, closed, same,
            graph, follows_iff, shown, same_of_eq same]
      | false =>
          cases plain : s.zoom.eq .one <;> cases off : val.eq .one <;>
            simp [setZoom, after, granted, inRange, afterZoom, asked, supported, range, closed, same,
              plain, off, graph, follows_iff, shown, zoomOnField_eq shown, zoomOffField_eq shown]

theorem method_follows (c : Call) :
    Ensures answers s c.method.body fun _ t => Follows s t (after answers s m c)
      ((granted answers c).getD s.zoom) := by
  cases c with
  | openUVC => exact openUVC_follows shown
  | closeUVC => exact closeUVC_follows shown
  | stop => exact stop_follows
  | setZoom val => exact setZoom_follows shown val
  | setEptz mode val =>
      cases mode with
      | pan => exact setPosition_follows shown .pan val
      | tilt => exact setPosition_follows shown .tilt val
      | roll => simp [Call.method, Method.body, setEptz, follows_iff, shown, after, granted]
      | auto => exact enableEPTZ_follows shown (val != 0)
      | bypassLink => exact linkBYPASS_follows shown (val != 0)
  | setFaceLine enable => exact setFaceLine_follows shown enable

end Calls

section Sessions

/-- The context, and the zoom of the last `setZoom` that returned `RT_OK`. -/
structure Session where
  ctx : Ctx
  requested : Binary32

def requestedAfter (c : Call) (outcome : RtRet) (old : Binary32) : Binary32 :=
  match c, outcome with
  | .setZoom val, .ok => val
  | _, _ => old

theorem requestedAfter_eq (answers : Question → Bool) (s : Ctx) (c : Call) :
    Ensures answers s c.method.body fun outcome _ =>
      ∀ old, requestedAfter c outcome old = (granted answers c).getD old := by
  cases c with
  | setZoom val =>
      cases supported : supports answers .setZoom .uvcZoom <;> have asked := supported <;>
        rw [supports] at asked <;> cases range : val.lt .one || Binary32.five.lt val <;>
        simp [Call.method, Method.body, setZoom, granted, inRange, requestedAfter, supported, asked,
          range]
  | _ => exact fun _ _ _ _ => rfl

namespace Session

def field (s : Session) : Flags := s.ctx.feature &&& uvcMask

/-- The zoom does not change what the resolution asks for. -/
def ByResolution (s : Session) : Prop :=
  s.requested.eq .one = true ∨ Forced s.ctx.width s.ctx.height

/-- A plain mode is the one that the requested zoom and the resolution ask for. -/
def Honoured (s : Session) : Prop :=
  s.field = featureUvc ∨ s.field = featureUvcZoom →
    s.field = if s.requested.eq .one = false ∨ Forced s.ctx.width s.ctx.height then featureUvcZoom
      else featureUvc

end Session

/-- The calls that may end a mode that a client selected. -/
def mayLeave (m : Mode) : Call → Prop
  | .closeUVC | .stop => True
  | .setEptz .pan _ | .setEptz .tilt _ => True
  | .setEptz .auto val => val = 0 ↔ m = .eptz
  | .setEptz .bypassLink val => val = 0 ↔ m = .bypass
  | .setFaceLine enable => enable = 0 ↔ m = .faceLine
  | .openUVC | .setZoom _ | .setEptz .roll _ => False

def Kept (s : Session) (c : Call) (t : Session) : Prop :=
  ∀ m : Mode, m.Selected → s.field = m.field → t.field ≠ m.field → mayLeave m c

def step (s : Session) (l : Call × (Question → Bool)) : Option Session :=
  (l.1.method.body.eval l.2 s.ctx).map fun (outcome, ctx) =>
    ⟨ctx, requestedAfter l.1 outcome s.requested⟩

def askedMode (zoom : Binary32) (width height : Int) : Mode :=
  if zoom.eq .one = false ∨ Forced width height then .zoom else .uvc

structure Tracks (s : Session) (m : Mode) : Prop where
  shown : s.field = m.field
  zoomed : Same s.ctx.zoom s.requested

section Tracks
variable {s t : Session} {m : Mode}

theorem honoured_iff (tracks : Tracks s m) : s.Honoured ↔
    (m = .uvc ∨ m = .zoom → m = askedMode s.requested s.ctx.width s.ctx.height) := by
  have plain : m.field = featureUvc ↔ m = .uvc := Mode.field_injective.eq_iff' rfl
  have asked : (if s.requested.eq .one = false ∨ Forced s.ctx.width s.ctx.height then featureUvcZoom
      else featureUvc) = (askedMode s.requested s.ctx.width s.ctx.height).field := by
    rw [askedMode, apply_ite Mode.field]
    rfl
  rw [Session.Honoured, tracks.shown, asked, plain, Mode.field_eq_uvcZoom, Mode.field_inj]

theorem kept_iff {next : Mode} (c : Call) (tracks : Tracks s m) (tracks' : Tracks t next) :
    Kept s c t ↔ (m.Selected → next ≠ m → mayLeave m c) := by
  simp only [Kept, tracks.shown, tracks'.shown, Mode.field_inj, ne_eq]
  exact ⟨fun all selected => all m selected rfl, fun all m' selected same => same ▸ all (same ▸ selected)⟩

theorem zoomedMode_eq (tracks : Tracks s m) :
    zoomedMode s.ctx = askedMode s.requested s.ctx.width s.ctx.height := by
  rw [zoomedMode, plainMode, askedMode, eq_one_of_same tracks.zoomed]
  cases s.requested.eq .one <;> simp

theorem plainMode_eq_iff (s : Session) :
    plainMode s.ctx = askedMode s.requested s.ctx.width s.ctx.height ↔ s.ByResolution := by
  rw [plainMode, askedMode, Session.ByResolution]
  cases s.requested.eq .one <;> by_cases forced : Forced s.ctx.width s.ctx.height <;> simp [forced]

theorem step_tracks (l : Call × (Question → Bool)) (tracks : Tracks s m) (taken : step s l = some t) :
    Tracks t (after l.2 s.ctx m l.1) ∧ t.requested = (granted l.2 l.1).getD s.requested ∧
      t.ctx.width = s.ctx.width ∧ t.ctx.height = s.ctx.height := by
  obtain ⟨⟨outcome, ctx⟩, evaluated, rfl⟩ := Option.map_eq_some_iff.mp taken
  have follows := method_follows tracks.shown l.1 outcome ctx evaluated
  have requested := requestedAfter_eq l.2 s.ctx l.1 outcome ctx evaluated s.requested
  refine ⟨⟨follows.shown, ?_⟩, requested, follows.width, follows.height⟩
  change Same ctx.zoom (requestedAfter l.1 outcome s.requested)
  rw [requested]
  refine same_trans follows.zoomed ?_
  cases granted l.2 l.1 with
  | none => exact tracks.zoomed
  | some val => exact same_refl val

end Tracks

/-- What is asked of the mode and the zoom after a call in a mode. -/
def Right (s : Session) (m : Mode) (c : Call) (next : Mode) (zoom : Binary32) : Prop :=
  (next = .uvc ∨ next = .zoom → next = askedMode zoom s.ctx.width s.ctx.height) ∧
    (m.Selected → next ≠ m → mayLeave m c)

def Allowed (s : Session) (l : Call × (Question → Bool)) : Prop :=
  match l.1 with
  | .openUVC => s.field = 0 → s.ByResolution
  | .setFaceLine enable => s.field = featureFaceLine → supports l.2 .setFaceLine .faceLine = true →
      enable = 0 → s.ByResolution
  | .setZoom val => s.field = featureUvcBypass → granted l.2 (.setZoom val) = some val →
      s.requested.eq .one = true → val.eq .one = true
  | _ => True

section Right
variable {s : Session} {m : Mode}

theorem right_asked (c : Call) (may : m.Selected → mayLeave m c) :
    Right s m c (askedMode s.requested s.ctx.width s.ctx.height) s.requested :=
  ⟨fun _ => rfl, fun selected _ => may selected⟩

theorem right_selected (c : Call) (own : Mode) (selected : own.Selected) (may : m ≠ own → mayLeave m c) :
    Right s m c own s.requested := by
  refine ⟨?_, fun _ changed => may changed.symm⟩
  rcases selected with rfl | rfl | rfl <;> rintro (plain | plain) <;> cases plain

theorem right_plainMode_iff (c : Call) (may : m.Selected → mayLeave m c) :
    Right s m c (plainMode s.ctx) s.requested ↔ s.ByResolution := by
  have plain : plainMode s.ctx = .uvc ∨ plainMode s.ctx = .zoom := by
    rw [plainMode]
    split_ifs
    · exact .inr rfl
    · exact .inl rfl
  rw [← plainMode_eq_iff]
  exact ⟨fun right => right.1 plain, fun same => ⟨fun _ => same, fun selected _ => may selected⟩⟩

variable (honoured : m = .uvc ∨ m = .zoom → m = askedMode s.requested s.ctx.width s.ctx.height)
include honoured

theorem right_unchanged (c : Call) : Right s m c m s.requested :=
  ⟨honoured, fun _ changed => absurd rfl changed⟩

theorem right_switched (c : Call) (own : Mode) (selected : own.Selected) (enable : Bool)
    (may : (enable = false ↔ m = own) → mayLeave m c) :
    Right s m c (switched own (askedMode s.requested s.ctx.width s.ctx.height) m enable)
      s.requested := by
  by_cases already : m = own <;> cases enable
  · simpa [switched, already] using right_asked c fun _ => may (iff_of_true rfl already)
  · simpa [switched, already] using right_selected c own selected fun other => absurd already other
  · simpa [switched, already] using right_unchanged honoured c
  · simpa [switched, already] using
      right_selected c own selected fun other => may (iff_of_false Bool.noConfusion other)

theorem openUVC_right_iff :
    Right s m .openUVC (if m = .closed then plainMode s.ctx else m) s.requested ↔
      (m = .closed → s.ByResolution) := by
  by_cases closed : m = .closed
  · have unselected : ¬m.Selected := by rw [closed]; decide
    rw [if_pos closed, right_plainMode_iff _ fun selected => absurd selected unselected]
    exact (imp_iff_right closed).symm
  · rw [if_neg closed]
    exact iff_of_true (right_unchanged honoured _) fun same => absurd same closed

theorem setFaceLine_right_iff (enable : Int) :
    Right s m (.setFaceLine enable) (switched .faceLine (plainMode s.ctx) m (enable != 0))
      s.requested ↔ (m = .faceLine → enable = 0 → s.ByResolution) := by
  by_cases off : enable = 0
  · by_cases already : m = .faceLine
    · have ends := right_plainMode_iff (s := s) (m := m) (.setFaceLine enable)
        fun _ => iff_of_true off already
      simpa [switched, off, already] using ends
    · simpa [switched, off, already] using right_unchanged honoured (.setFaceLine 0)
  · have on : (enable != 0) = true := bne_iff_ne.mpr off
    refine iff_of_true ?_ fun _ same => absurd same off
    have shows := right_selected (s := s) (m := m) (.setFaceLine enable) .faceLine (by decide)
      fun other => iff_of_false off other
    by_cases already : m = .faceLine <;> simpa [switched, on, already] using shows

theorem afterZoom_right_iff (tracks : Tracks s m) (val : Binary32) :
    Right s m (.setZoom val) (afterZoom s.ctx val m) val ↔
      (m = .bypass → s.requested.eq .one = true → val.eq .one = true) := by
  by_cases closed : m = .closed
  · simp [afterZoom, closed, Right, Mode.Selected]
  cases same : s.ctx.zoom.eq val with
  | true =>
      have equal := eq_one_of_same (same_of_eq same)
      have requested := equal.symm.trans (eq_one_of_same tracks.zoomed)
      rw [afterZoom, if_pos (.inr same)]
      refine iff_of_true ⟨?_, fun _ changed => absurd rfl changed⟩ fun _ one => requested ▸ one
      simpa only [askedMode, requested] using honoured
  | false =>
      rw [afterZoom, if_neg (by simp [closed, same]), eq_one_of_same tracks.zoomed]
      cases unit : s.requested.eq .one with
      | true =>
          have unit' := (eq_one_of_same tracks.zoomed).trans unit
          have off : val.eq .one = false :=
            Bool.eq_false_iff.mpr fun one => Bool.false_ne_true (same.symm.trans (eq_of_eq_one unit' one))
          cases m <;> simp [Right, zoomOnMode, askedMode, off, Mode.Selected, mayLeave]
      | false =>
          rw [askedMode, unit] at honoured
          cases off : val.eq .one with
          | true =>
              cases m <;>
                simp [Right, zoomOffMode, plainMode, askedMode, off, Mode.Selected] at honoured ⊢
          | false => cases m <;> simp [Right, askedMode, off] at honoured ⊢

/-- A call leads to the right mode exactly if it meets the condition. -/
theorem right_iff_allowed (tracks : Tracks s m) (l : Call × (Question → Bool)) :
    Right s m l.1 (after l.2 s.ctx m l.1) ((granted l.2 l.1).getD s.requested) ↔ Allowed s l := by
  obtain ⟨c, answers⟩ := l
  have unchanged := right_unchanged honoured c
  cases c with
  | openUVC => simpa [after, granted, Allowed, tracks.shown] using openUVC_right_iff honoured
  | closeUVC | stop => simp [after, granted, Allowed, Right, mayLeave]
  | setZoom val =>
      cases accepted : supports answers .setZoom .uvcZoom && inRange val
      · simpa [after, granted, Allowed, accepted] using unchanged
      · simpa [after, granted, Allowed, accepted, tracks.shown] using
          afterZoom_right_iff honoured tracks val
  | setEptz mode val =>
      have zoomed := zoomedMode_eq tracks
      refine iff_of_true ?_ trivial
      cases mode with
      | pan | tilt =>
          change Right s m _ (afterPosition s.ctx m) s.requested
          rw [afterPosition, zoomed]
          split_ifs
          · exact unchanged
          · exact unchanged
          · exact right_asked _ fun _ => trivial
      | roll => exact unchanged
      | auto =>
          have switches := right_switched honoured (.setEptz .auto val) .eptz (by decide) (val != 0)
            fun own => by simpa [mayLeave] using own
          cases supported : supports answers .enableEPTZ .eptz
          · simpa [after, granted, supported] using unchanged
          · simpa [after, granted, supported, zoomed] using switches
      | bypassLink =>
          have switches := right_switched honoured (.setEptz .bypassLink val) .bypass (by decide)
            (val != 0) fun own => by simpa [mayLeave] using own
          cases supported : supports answers .linkBYPASS .uvcBypass
          · simpa [after, granted, supported] using unchanged
          · simpa [after, granted, supported, zoomed] using switches
  | setFaceLine enable =>
      cases supported : supports answers .setFaceLine .faceLine
      · simpa [after, granted, Allowed, supported] using unchanged
      · simpa [after, granted, Allowed, supported, tracks.shown] using
          setFaceLine_right_iff honoured enable

end Right

/-- After the call a plain mode is the right one, and a selected mode is left only by a call
that may do so. -/
def Respects (s : Session) (l : Call × (Question → Bool)) : Prop :=
  ∀ next, step s l = some next → next.Honoured ∧ Kept s l.1 next

theorem respects_iff_allowed {s t : Session} {m : Mode} (l : Call × (Question → Bool))
    (tracks : Tracks s m) (honoured : s.Honoured) (taken : step s l = some t) :
    Respects s l ↔ Allowed s l := by
  obtain ⟨tracks', requested, width, height⟩ := step_tracks l tracks taken
  rw [← right_iff_allowed ((honoured_iff tracks).mp honoured) tracks, Right, Respects, taken]
  simp only [Option.some.injEq, forall_eq']
  rw [honoured_iff tracks', kept_iff l.1 tracks tracks', requested, width, height]

/-- Every step of a sequence respects the zoom and the selected mode exactly if every step meets
the condition. -/
theorem respects_iff (ctx : Ctx) (closed : ctx.feature &&& uvcMask = 0) (unit : ctx.zoom = .one)
    (labels : List (Call × (Question → Bool))) (t : Session)
    (run : exec step ⟨ctx, .one⟩ labels = some t) :
    StepsMeet step Respects ⟨ctx, .one⟩ labels ↔ StepsMeet step Allowed ⟨ctx, .one⟩ labels := by
  have tracks : Tracks ⟨ctx, .one⟩ .closed := ⟨closed, unit ▸ same_refl _⟩
  have honoured : Session.Honoured ⟨ctx, .one⟩ := by
    rw [honoured_iff tracks]
    rintro (plain | plain) <;> cases plain
  refine stepsMeet_iff_of_kept step (fun s => (∃ m, Tracks s m) ∧ s.Honoured) Respects Allowed
    ?_ ?_ labels _ t ⟨⟨.closed, tracks⟩, honoured⟩ run
  · rintro s l next ⟨⟨m, tracks⟩, -⟩ taken respects
    exact ⟨⟨_, (step_tracks l tracks taken).1⟩, (respects next taken).1⟩
  · rintro s l next ⟨⟨m, tracks⟩, honoured⟩ taken
    exact respects_iff_allowed l tracks honoured taken

def two : Binary32 := ⟨0x40000000#32⟩

def zoomWhileOpen : List (Call × (Question → Bool)) :=
  [(.openUVC, fun _ => true), (.setZoom two, fun _ => true), (.setEptz .auto 1, fun _ => true),
    (.setEptz .auto 0, fun _ => true)]

theorem zoomWhileOpen_respects : ∃ t, exec step ⟨builtCtx, .one⟩ zoomWhileOpen = some t ∧
    (StepsMeet step Respects ⟨builtCtx, .one⟩ zoomWhileOpen ↔
      StepsMeet step Allowed ⟨builtCtx, .one⟩ zoomWhileOpen) :=
  ⟨_, rfl, respects_iff builtCtx rfl rfl zoomWhileOpen _ rfl⟩

def zoomThenOpen : List (Call × (Question → Bool)) :=
  [(.setZoom two, fun _ => true), (.openUVC, fun _ => true)]

def openBypass : List (Call × (Question → Bool)) :=
  [(.openUVC, fun _ => true), (.setEptz .bypassLink 1, fun _ => true)]

/-- A zoom that is set before UVC is opened is not shown, and one that is set later ends the
bypass. -/
theorem zoomThenOpen_plain :
    (∃ t, exec step ⟨builtCtx, .one⟩ zoomThenOpen = some t ∧ t.requested = two ∧
      t.field = featureUvc ∧ ¬t.Honoured) ∧
    ∃ s t, exec step ⟨builtCtx, .one⟩ openBypass = some s ∧
      step s (.setZoom two, fun _ => true) = some t ∧ s.field = featureUvcBypass ∧
      t.field = featureUvcZoom ∧ ¬Kept s (.setZoom two) t :=
  ⟨⟨_, rfl, rfl, by decide, fun honoured => absurd (honoured (.inl rfl)) (by decide)⟩,
    ⟨_, _, rfl, rfl, by decide, by decide, fun kept => kept .bypass (by decide) rfl (by decide)⟩⟩

end Sessions

end WfyApp.ZoomModes
