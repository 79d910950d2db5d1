import WfyApp.UvcLink

/-! Which algorithms `mDetection` and `mVendorDetections` say are on, over every sequence of
clients that switch algorithms and matting. The set is compared with what the clients asked
for last, and with what matting needs while it is open. -/

namespace WfyApp.AiBook
open ByteText MutexPrograms MutexPrograms.Prog StepSystem UvcGraph UvcLink

section Vendors

/-- A map is kept in the order of its keys, which are therefore different. -/
def Sorted (vendors : List (Bytes × Bool)) : Prop := vendors.Pairwise fun a b => a.1 < b.1

theorem mem_setVendor (name : Bytes) (enabled : Bool) (vendors : List (Bytes × Bool))
    (sorted : Sorted vendors) (entry : Bytes × Bool) :
    entry ∈ setVendor name enabled vendors ↔
      entry = (name, enabled) ∨ (entry ∈ vendors ∧ entry.1 ≠ name) := by
  induction vendors with
  | nil => simp [setVendor]
  | cons head rest ih =>
      obtain ⟨first, flag⟩ := head
      obtain ⟨above, sorted⟩ := List.pairwise_cons.mp sorted
      rw [setVendor]
      split_ifs with same below
      · subst same
        have later : ∀ other ∈ rest, other.1 ≠ name := fun other member equal =>
          List.lt_irrefl name (equal ▸ above other member)
        simp only [List.mem_cons]
        constructor
        · rintro (rfl | member)
          · exact .inl rfl
          · exact .inr ⟨.inr member, later entry member⟩
        · rintro (rfl | ⟨rfl | member, other⟩)
          · exact .inl rfl
          · exact absurd rfl other
          · exact .inr member
      · have later : ∀ other ∈ (first, flag) :: rest, other.1 ≠ name := by
          rintro other member rfl
          rcases List.mem_cons.mp member with rfl | member
          · exact List.lt_irrefl _ below
          · exact List.lt_irrefl _ (List.lt_trans below (above other member))
        rw [List.mem_cons]
        exact or_congr_right ⟨fun member => ⟨member, later entry member⟩, And.left⟩
      · rw [List.mem_cons, ih sorted, List.mem_cons]
        constructor
        · rintro (rfl | added | ⟨member, other⟩)
          · exact .inr ⟨.inl rfl, Ne.symm same⟩
          · exact .inl added
          · exact .inr ⟨.inr member, other⟩
        · rintro (added | ⟨rfl | member, other⟩)
          · exact .inr (.inl added)
          · exact .inl rfl
          · exact .inr (.inr ⟨member, other⟩)

theorem sorted_setVendor (name : Bytes) (enabled : Bool) (vendors : List (Bytes × Bool))
    (sorted : Sorted vendors) : Sorted (setVendor name enabled vendors) := by
  induction vendors with
  | nil => exact List.pairwise_singleton _ _
  | cons head rest ih =>
      obtain ⟨first, flag⟩ := head
      obtain ⟨above, sorted'⟩ := List.pairwise_cons.mp sorted
      rw [setVendor]
      split_ifs with same below
      · rw [same]
        exact List.pairwise_cons.mpr ⟨above, sorted'⟩
      · refine List.pairwise_cons.mpr ⟨?_, sorted⟩
        intro entry member
        rcases List.mem_cons.mp member with rfl | later
        · exact below
        · exact List.lt_trans below (above entry later)
      · refine List.pairwise_cons.mpr ⟨?_, ih sorted'⟩
        intro entry member
        rcases (mem_setVendor name enabled rest sorted' entry).mp member with rfl | ⟨later, -⟩
        · exact Std.lt_of_le_of_ne (List.not_lt.mp below) (Ne.symm same)
        · exact above entry later

end Vendors

section Detection

def bit : AiType → Nat
  | .face => 0
  | .faceLandmark => 1
  | .faceAttribute => 2
  | .faceFeature => 3
  | .hand => 8
  | .handLandmark => 9
  | .body => 12
  | .vendor _ => 28

theorem getDetectionByType_eq (type : AiType) :
    getDetectionByType type = BitVec.twoPow 32 (bit type) := by
  cases type <;> rfl

theorem bit_lt (type : AiType) : bit type < 32 := by
  cases type <;> simp [bit]

theorem flag_iff (flags : Flags) (type : AiType) :
    flags &&& getDetectionByType type ≠ 0 ↔ flags.getLsbD (bit type) = true := by
  have nonzero : BitVec.twoPow 32 (bit type) ≠ 0#32 := by
    intro zero
    have selected := congrArg (fun bits => bits.getLsbD (bit type)) zero
    simp [bit_lt] at selected
  rw [getDetectionByType_eq, BitVec.and_twoPow]
  cases flags.getLsbD (bit type) <;> simp [nonzero]

theorem getLsbD_set (flags : Flags) (type : AiType) (i : Nat) :
    (flags ||| getDetectionByType type).getLsbD i = (flags.getLsbD i || decide (i = bit type)) := by
  simp [getDetectionByType_eq, bit_lt, eq_comm]

theorem getLsbD_clear (flags : Flags) (type : AiType) (i : Nat) :
    (flags &&& ~~~getDetectionByType type).getLsbD i = (flags.getLsbD i && decide (i ≠ bit type)) := by
  by_cases inside : i < 32
  · simp [getDetectionByType_eq, inside]
  · simp [BitVec.getLsbD_of_ge flags i (Nat.le_of_not_lt inside)]

def Enabled (s : Ctx) : AiType → Prop
  | .vendor name => (name, true) ∈ s.vendorDetections
  | type => s.detection &&& getDetectionByType type ≠ 0

instance (s : Ctx) (type : AiType) : Decidable (Enabled s type) :=
  match type with
  | .vendor name => inferInstanceAs (Decidable ((name, true) ∈ s.vendorDetections))
  | .face | .faceLandmark | .faceAttribute | .faceFeature | .body | .hand | .handLandmark =>
      inferInstanceAs (Decidable (_ ≠ _))

def IsVendor : AiType → Prop
  | .vendor _ => True
  | _ => False

theorem bit_eq_iff (type other : AiType) :
    bit type = bit other ↔ type = other ∨ (IsVendor type ∧ IsVendor other) := by
  cases type <;> cases other <;> simp [bit, IsVendor]

theorem enabled_iff_getLsbD (s : Ctx) (type : AiType) (builtin : ¬IsVendor type) :
    Enabled s type ↔ s.detection.getLsbD (bit type) = true := by
  cases type with
  | vendor name => exact absurd trivial builtin
  | _ => exact flag_iff s.detection _

/-- The flags are those of types, and the vendors' flag is set if one of them is on. -/
structure Sound (s : Ctx) : Prop where
  known : ∀ i, s.detection.getLsbD i = true → ∃ type, i = bit type
  vendors : ∀ name, s.detection.getLsbD (bit (.vendor name)) = true ↔
    ∃ enabled, (enabled, true) ∈ s.vendorDetections
  sorted : Sorted s.vendorDetections

section Sound
variable {s : Ctx} (sound : Sound s)
include sound

theorem detection_ne_zero : s.detection ≠ 0 ↔ ∃ type, Enabled s type := by
  constructor
  · intro nonzero
    obtain ⟨i, set⟩ : ∃ i, s.detection.getLsbD i = true := by
      by_contra none
      refine nonzero (BitVec.eq_of_getLsbD_eq fun i _ => ?_)
      simpa using fun set => none ⟨i, set⟩
    obtain ⟨type, rfl⟩ := sound.known i set
    by_cases vendor : IsVendor type
    · cases type with
      | vendor name =>
          obtain ⟨enabled, on⟩ := (sound.vendors name).mp set
          exact ⟨.vendor enabled, on⟩
      | _ => cases vendor
    · exact ⟨type, (enabled_iff_getLsbD s type vendor).mpr set⟩
  · rintro ⟨type, enabled⟩ zero
    have set : s.detection.getLsbD (bit type) = true := by
      cases type with
      | vendor name => exact (sound.vendors name).mpr ⟨name, enabled⟩
      | _ => exact (flag_iff s.detection _).mp enabled
    simp [zero] at set

theorem enabled_enable (type other : AiType) :
    Enabled (enableDetection type s) other ↔ other = type ∨ Enabled s other := by
  cases other with
  | vendor name =>
      cases type with
      | vendor added =>
          change (name, true) ∈ setVendor added true s.vendorDetections ↔ _
          rw [mem_setVendor _ _ _ sound.sorted]
          by_cases same : name = added <;> simp [same, Enabled]
      | _ => simp [Enabled, enableDetection]
  | _ => 
      rw [enabled_iff_getLsbD _ _ id, enabled_iff_getLsbD _ _ id]
      change (s.detection ||| _).getLsbD _ = true ↔ _
      rw [getLsbD_set, Bool.or_eq_true, decide_eq_true_iff, bit_eq_iff, or_comm]
      simp [IsVendor]

theorem sound_enable (type : AiType) : Sound (enableDetection type s) := by
  refine ⟨?_, ?_, ?_⟩
  · intro i set
    change (s.detection ||| getDetectionByType type).getLsbD i = true at set
    rw [getLsbD_set, Bool.or_eq_true, decide_eq_true_iff] at set
    exact set.elim (sound.known i) fun same => ⟨type, same⟩
  · intro name
    change (s.detection ||| getDetectionByType type).getLsbD _ = true ↔
      ∃ enabled, Enabled (enableDetection type s) (.vendor enabled)
    rw [getLsbD_set, Bool.or_eq_true, decide_eq_true_iff, bit_eq_iff, sound.vendors]
    simp only [enabled_enable sound]
    cases type with
    | vendor added => exact iff_of_true (.inr (.inr ⟨trivial, trivial⟩)) ⟨added, .inl rfl⟩
    | _ => simp [IsVendor, Enabled]
  · cases type with
    | vendor added => exact sorted_setVendor added true _ sound.sorted
    | _ => exact sound.sorted

theorem enabled_disable (type other : AiType) :
    Enabled (disableDetection type s) other ↔ other ≠ type ∧ Enabled s other := by
  cases other with
  | vendor name =>
      cases type with
      | vendor removed =>
          change (name, true) ∈ setVendor removed false s.vendorDetections ↔ _
          rw [mem_setVendor _ _ _ sound.sorted]
          by_cases same : name = removed <;> simp [same, Enabled]
      | _ => simp [Enabled, disableDetection]
  | _ =>
      rw [enabled_iff_getLsbD _ _ id, enabled_iff_getLsbD _ _ id]
      cases type with
      | vendor removed =>
          simp only [disableDetection]
          split_ifs
          · simp
          · change (s.detection &&& ~~~getDetectionByType (.vendor removed)).getLsbD _ = true ↔ _
            rw [getLsbD_clear]
            simp [bit]
      | _ =>
          change (s.detection &&& ~~~getDetectionByType _).getLsbD _ = true ↔ _
          rw [getLsbD_clear]
          simp [bit]

omit sound in
theorem getLsbD_disable (type : AiType) (i : Nat)
    (set : (disableDetection type s).detection.getLsbD i = true) : s.detection.getLsbD i = true := by
  have cleared (other : AiType)
      (set : (s.detection &&& ~~~getDetectionByType other).getLsbD i = true) :
      s.detection.getLsbD i = true := by
    rw [getLsbD_clear, Bool.and_eq_true] at set
    exact set.1
  cases type with
  | vendor removed =>
      simp only [disableDetection] at set
      split_ifs at set
      · exact set
      · exact cleared (.vendor removed) set
  | _ => exact cleared _ set

theorem sound_disable (type : AiType) : Sound (disableDetection type s) := by
  refine ⟨fun i set => sound.known i (getLsbD_disable type i set), ?_, ?_⟩
  · intro name
    change _ ↔ ∃ enabled, Enabled (disableDetection type s) (.vendor enabled)
    cases type with
    | vendor removed =>
        have some : (setVendor removed false s.vendorDetections).any Prod.snd = true ↔
            ∃ enabled, Enabled (disableDetection (.vendor removed) s) (.vendor enabled) := by
          simp [Enabled, disableDetection]
        rw [← some]
        cases on : (setVendor removed false s.vendorDetections).any Prod.snd with
        | true =>
            obtain ⟨enabled, member⟩ := some.mp on
            have before := ((enabled_disable sound _ _).mp member).2
            simpa [disableDetection, on] using (sound.vendors name).mpr ⟨enabled, before⟩
        | false =>
            simp only [disableDetection, on]
            change (s.detection &&& ~~~getDetectionByType (.vendor removed)).getLsbD _ = true ↔ _
            rw [getLsbD_clear]
            simp [bit]
    | _ =>
        simp only [enabled_disable sound]
        change (s.detection &&& ~~~getDetectionByType _).getLsbD _ = true ↔ _
        rw [getLsbD_clear, Bool.and_eq_true, sound.vendors]
        simp [bit, Enabled]
  · cases type with
    | vendor removed => exact sorted_setVendor removed false _ sound.sorted
    | _ => exact sound.sorted

end Sound

end Detection

section Calls
variable {answers : Question → Bool} {s : Ctx}

theorem setField_and_other (mask other value flags : Flags) (apart : mask &&& other = 0)
    (outside : value &&& other = 0) : setField mask value flags &&& other = flags &&& other := by
  have disjoint (x : Flags) (zero : x &&& other = 0) (i : Nat) :
      (x.getLsbD i && other.getLsbD i) = false := by
    rw [← BitVec.getLsbD_and, zero]
    exact BitVec.getLsbD_zero
  apply BitVec.eq_of_getLsbD_eq
  intro i inside
  have masked := disjoint mask apart i
  have valued := disjoint value outside i
  simp only [setField, BitVec.getLsbD_and, BitVec.getLsbD_or, BitVec.getLsbD_not, inside]
  cases set : other.getLsbD i with
  | false => simp only [Bool.and_false]
  | true =>
      rw [set, Bool.and_true] at masked valued
      simp [masked, valued]

theorem setAIAlgorithm_unchanged (enable : Bool) (detection : Detection) :
    Ensures answers s (setAIAlgorithm enable detection) fun _ t => t = s := by
  simp [setAIAlgorithm, invokeGraph]

theorem setAlgorithms_unchanged (algorithms : List (Bool × Detection)) :
    Ensures answers s (setAlgorithms algorithms) fun _ t => t = s := by
  induction algorithms with
  | nil => simp [setAlgorithms]
  | cons head rest ih =>
      exact ensures_bind_unchanged _ _ (setAIAlgorithm_unchanged head.1 head.2) fun _ => ih

theorem updateDetections_unchanged (mask : Flags) (detections : List Detection) :
    Ensures answers s (updateDetections mask detections) fun _ t => t = s := by
  rw [updateDetections, ensures_bind, ensures_read]
  exact setAlgorithms_unchanged _

/-- The nodes are told which algorithms are on; nothing else happens. -/
theorem updateAIAlgorithm_unchanged :
    Ensures answers s updateAIAlgorithm fun outcome t => outcome = .ok ∧ t = s := by
  have update (mask : Flags) (detections : List Detection) :
      Ensures answers s (updateDetections mask detections) fun _ t => t = s :=
    updateDetections_unchanged mask detections
  refine ensures_bind_unchanged _ _ (update _ _) fun _ => ?_
  refine ensures_bind_unchanged _ _ (update _ _) fun _ => ?_
  refine ensures_bind_unchanged _ _ (update _ _) fun _ => ?_
  refine ensures_bind_unchanged _ _ (update _ _) fun _ => ?_
  refine ensures_bind_unchanged _ _ (update _ _) fun _ => ?_
  refine ensures_bind_unchanged _ _ (update _ _) fun _ => ?_
  rw [ensures_bind, ensures_read]
  exact ensures_bind_unchanged _ _ (setAlgorithms_unchanged _) fun _ => by simp

theorem ensures_updateAIAlgorithm {post : RtRet → Ctx → Prop} (kept : post .ok s) :
    Ensures answers s updateAIAlgorithm post := by
  refine ensures_mono _ updateAIAlgorithm_unchanged ?_
  rintro outcome t ⟨rfl, rfl⟩
  exact kept

/-- NN runs exactly while a flag is set. -/
structure Consistent (s : Ctx) : Prop where
  sound : Sound s
  running : s.feature &&& nnMask ≠ 0 ↔ s.detection ≠ 0

/-- The algorithms that are on afterwards; matting is as before. -/
structure Becomes (s t : Ctx) (enabled : AiType → Prop) : Prop where
  consistent : Consistent t
  matting : t.feature &&& aimattingMask = s.feature &&& aimattingMask
  enabled_iff : ∀ type, Enabled t type ↔ enabled type

theorem enableDetection_ne_zero (type : AiType) : (enableDetection type s).detection ≠ 0 := by
  intro zero
  have set := getLsbD_set s.detection type (bit type)
  change (enableDetection type s).detection.getLsbD _ = _ at set
  simp [zero] at set

structure SameBook (s t : Ctx) : Prop where
  detection : t.detection = s.detection
  vendors : t.vendorDetections = s.vendorDetections
  matting : t.feature &&& aimattingMask = s.feature &&& aimattingMask

theorem SameBook.sound {u : Ctx} (same : SameBook s u) (sound : Sound s) : Sound u := by
  obtain ⟨known, vendors, sorted⟩ := sound
  rw [← same.detection] at known vendors
  rw [← same.vendors] at vendors sorted
  exact ⟨known, vendors, sorted⟩

theorem SameBook.enabled_iff {u : Ctx} (same : SameBook s u) (type : AiType) :
    Enabled u type ↔ Enabled s type := by
  cases type <;> simp only [Enabled, same.detection, same.vendors]

theorem openAI_opens :
    Ensures answers s openAI fun outcome t =>
      (outcome = .ok → SameBook s t ∧ t.feature &&& nnMask ≠ 0) ∧ (outcome ≠ .ok → t = s) := by
  have matting := setField_and_other nnMask aimattingMask featureNn s.feature (by decide) (by decide)
  by_cases running : s.feature &&& nnMask = 0#32
  · simp only [openAI]
    simp only [Bool.not_eq_eq_eq_not, Bool.not_true, BitVec.ofNat_eq_ofNat, ne_eq, ite_not,
      ensures_guarded, ensures_bind, ensures_ite, ensures_pure, reduceCtorEq, IsEmpty.forall_iff,
      not_false_eq_true, forall_const, true_and, not_true_eq_false, and_true,
      ensures_selectLinkMode, ensures_modify, setField_and, ensures_read, Bool.ite_eq_false,
      ensures_onGraph, running, ↓reduceIte, if_true_right]
    exact fun _ _ _ => ⟨⟨rfl, rfl, matting⟩, by decide⟩
  · simp only [openAI, Bool.not_eq_eq_eq_not, Bool.not_true, BitVec.ofNat_eq_ofNat, ne_eq, ite_not,
      ensures_guarded, ensures_bind, ensures_ite, ensures_pure, reduceCtorEq, IsEmpty.forall_iff,
      not_false_eq_true, forall_const, true_and, not_true_eq_false, and_true, ensures_read,
      Bool.ite_eq_false, ensures_onGraph, running, ↓reduceIte, if_true_right]
    exact fun _ _ => ⟨rfl, rfl, rfl⟩

theorem closeAI_closes :
    Ensures answers s closeAI fun outcome t =>
      outcome = .ok ∧ SameBook s t ∧ t.feature &&& nnMask = 0 := by
  have matting := setField_and_other nnMask aimattingMask 0 s.feature (by decide) (by decide)
  by_cases stopped : s.feature &&& nnMask = 0#32
  · simp only [closeAI, BitVec.ofNat_eq_ofNat, ensures_guarded, ensures_bind, ensures_ite,
      ensures_pure, true_and, and_true, ensures_read, stopped, ↓reduceIte]
    exact ⟨rfl, rfl, rfl⟩
  · simp only [closeAI, BitVec.ofNat_eq_ofNat, ensures_guarded, ensures_bind, ensures_ite,
      ensures_pure, true_and, ensures_selectLinkMode, ensures_modify, setField_and, BitVec.zero_and,
      and_true, ensures_read, stopped, ↓reduceIte]
    exact fun _ => ⟨rfl, rfl, matting⟩

theorem becomes_enable {u : Ctx} (sound : Sound s) (same : SameBook s u)
    (running : u.feature &&& nnMask ≠ 0) (type : AiType) :
    Becomes s (enableDetection type u) fun other => other = type ∨ Enabled s other := by
  refine ⟨⟨sound_enable (same.sound sound) type, ?_⟩, same.matting, ?_⟩
  · exact iff_of_true running (enableDetection_ne_zero type)
  · intro other
    rw [enabled_enable (same.sound sound), same.enabled_iff]

theorem enableAIAlgorithm_becomes (consistent : Consistent s) (type : AiType) :
    Ensures answers s (enableAIAlgorithm type) fun outcome t =>
      (outcome = .ok → Becomes s t fun other => other = type ∨ Enabled s other) ∧
        (outcome ≠ .ok → t = s) := by
  by_cases empty : s.detection = 0#32
  · simp only [enableAIAlgorithm, Bool.not_eq_eq_eq_not, Bool.not_true, BitVec.ofNat_eq_ofNat,
      ne_eq, ite_not, ensures_bind, ensures_ite, ensures_pure, reduceCtorEq, IsEmpty.forall_iff,
      not_false_eq_true, forall_const, true_and, not_true_eq_false, and_true, ensures_release,
      ensures_modify, ensures_acquire, ensures_read, Bool.ite_eq_false, ensures_onGraph, empty,
      ↓reduceIte, if_true_right]
    intro _ _ outcome u evaluated
    obtain ⟨opened, failed⟩ := openAI_opens outcome u evaluated
    split_ifs with ok
    · apply ensures_updateAIAlgorithm
      exact becomes_enable consistent.sound (opened ok).1 (opened ok).2 type
    · exact ⟨fun same => absurd same ok, failed⟩
  · simp only [enableAIAlgorithm, Bool.not_eq_eq_eq_not, Bool.not_true, BitVec.ofNat_eq_ofNat,
      ne_eq, ite_not, ensures_bind, ensures_ite, ensures_pure, reduceCtorEq, IsEmpty.forall_iff,
      not_false_eq_true, forall_const, true_and, ensures_release, not_true_eq_false, and_true,
      ensures_modify, ensures_acquire, ensures_read, Bool.ite_eq_false, ensures_onGraph, empty,
      ↓reduceIte, if_true_right]
    intro _ _
    apply ensures_updateAIAlgorithm
    exact becomes_enable consistent.sound ⟨rfl, rfl, rfl⟩ (consistent.running.mpr empty) type

/-- The types whose switching off is ignored while matting is open. -/
def Refused (s : Ctx) (type : AiType) : Prop :=
  s.feature &&& aimattingMask ≠ 0 ∧ (type = .face ∨ type = .faceAttribute)

theorem disableDetection_feature (type : AiType) : (disableDetection type s).feature = s.feature := by
  cases type <;> rfl

theorem becomes_disable {u : Ctx} (sound : Sound s) (type : AiType) (kept : ¬Refused s type)
    (same : SameBook (disableDetection type s) u)
    (running : u.feature &&& nnMask ≠ 0 ↔ u.detection ≠ 0) :
    Becomes s u fun other => Enabled s other ∧ (other = type → Refused s type) := by
  refine ⟨⟨same.sound (sound_disable sound type), running⟩, ?_, ?_⟩
  · rw [same.matting, disableDetection_feature]
  · intro other
    rw [same.enabled_iff, enabled_disable sound, imp_iff_not kept, and_comm]

theorem disableAIAlgorithm_becomes (consistent : Consistent s) (type : AiType) :
    Ensures answers s (disableAIAlgorithm type) fun outcome t => outcome = .ok ∧
      Becomes s t fun other => Enabled s other ∧ (other = type → Refused s type) := by
  rw [disableAIAlgorithm]
  simp only [ensures_guarded, ensures_bind, ensures_read, ensures_ite, ensures_pure, ensures_modify]
  split_ifs with refused nonzero empty
  · exact ⟨trivial, consistent, rfl, fun other => (and_iff_left fun _ => refused).symm⟩
  · apply ensures_updateAIAlgorithm
    simp only [if_neg nonzero]
    have running : (disableDetection type s).feature &&& nnMask ≠ 0 := by
      rw [disableDetection_feature, consistent.running, detection_ne_zero consistent.sound]
      obtain ⟨other, enabled⟩ := (detection_ne_zero (sound_disable consistent.sound type)).mp nonzero
      exact ⟨other, ((enabled_disable consistent.sound type other).mp enabled).2⟩
    exact ⟨trivial, becomes_disable consistent.sound type refused ⟨rfl, rfl, rfl⟩
      (iff_of_true running nonzero)⟩
  · refine ensures_mono _ closeAI_closes ?_
    rintro outcome t ⟨ok, same, stopped⟩
    refine ⟨ok, becomes_disable consistent.sound type refused same ?_⟩
    rw [same.detection]
    exact iff_of_false (not_not.mpr stopped) nonzero
  · exact absurd empty nonzero

def nnSupported (answers : Question → Bool) : Bool :=
  answers ⟨.enableAIAlgorithm, .hasLinkMode .nnIsp⟩

theorem enableAIAlgorithm_ok (type : AiType) :
    Ensures answers s (enableAIAlgorithm type) fun outcome _ =>
      outcome = .ok → nnSupported answers = true := by
  cases supported : nnSupported answers
  · rw [nnSupported] at supported
    simp [enableAIAlgorithm, supported]
  · exact fun _ _ _ _ => rfl

theorem enableAIAlgorithm_succeeds (type : AiType) (nonempty : s.detection ≠ 0)
    (supported : nnSupported answers = true) :
    Ensures answers s (enableAIAlgorithm type) fun outcome _ => outcome = .ok := by
  have running : s.detection ≠ 0#32 := nonempty
  rw [nnSupported] at supported
  simp only [enableAIAlgorithm, Bool.not_eq_eq_eq_not, Bool.not_true, BitVec.ofNat_eq_ofNat, ne_eq,
    ite_not, ensures_bind, ensures_ite, ensures_pure, reduceCtorEq, ensures_release, ensures_modify,
    ite_else_self, ensures_acquire, ensures_read, if_false_left, Bool.not_eq_false, ensures_onGraph,
    supported, true_and, running, ↓reduceIte]
  exact fun _ _ _ _ => trivial

def Matting (s : Ctx) : Prop := s.feature &&& aimattingMask ≠ 0

structure Leaves (t : Ctx) (isOpen : Prop) (enabled : AiType → Prop) : Prop where
  consistent : Consistent t
  matting : Matting t ↔ isOpen
  enabled_iff : ∀ type, Enabled t type ↔ enabled type

theorem leaves_setMatting {t : Ctx} {enabled : AiType → Prop} (becomes : Becomes s t enabled)
    (value : Flags) (inside : value &&& nnMask = 0) :
    Leaves { t with
      feature := setField aimattingMask value t.feature
      links := linkModes (setField aimattingMask value t.feature) }
      (value &&& aimattingMask ≠ 0) enabled := by
  obtain ⟨⟨⟨known, vendors, sorted⟩, running⟩, -, enabled_iff⟩ := becomes
  refine ⟨⟨⟨known, vendors, sorted⟩, ?_⟩, ?_, enabled_iff⟩
  · rw [setField_and_other aimattingMask nnMask value t.feature (by decide) inside]
    exact running
  · rw [Matting, setField_and]

theorem openAIMatting_leaves (consistent : Consistent s) :
    Ensures answers s openAIMatting fun outcome t =>
      (outcome = .ok → Leaves t True fun type =>
        type = .faceFeature ∨ type = .face ∨ Enabled s type) ∧ (outcome ≠ .ok → t = s) := by
  simp only [openAIMatting, Bool.not_eq_eq_eq_not, Bool.not_true, ne_eq, ite_not, ensures_bind,
    ensures_ite, ensures_pure, reduceCtorEq, IsEmpty.forall_iff, not_false_eq_true, forall_const,
    true_and, not_true_eq_false, and_true, ensures_selectLinkMode, ensures_modify,
    Bool.ite_eq_false, ensures_onGraph, if_true_right]
  intro _ _ first u evaluated
  obtain ⟨becomes, failed⟩ := enableAIAlgorithm_becomes consistent .face first u evaluated
  have supported := enableAIAlgorithm_ok .face first u evaluated
  split_ifs with ok
  · have face := becomes ok
    have nonempty : u.detection ≠ 0 :=
      (detection_ne_zero face.consistent.sound).mpr ⟨.face, (face.enabled_iff .face).mpr (.inl rfl)⟩
    intro second v evaluated
    obtain ⟨becomes, -⟩ := enableAIAlgorithm_becomes face.consistent .faceFeature second v evaluated
    have ok := enableAIAlgorithm_succeeds .faceFeature nonempty (supported ok) second v evaluated
    rw [if_pos ok]
    intro _
    obtain ⟨consistent, matting, enabled_iff⟩ :=
      leaves_setMatting (becomes ok) featureAimatting (by decide)
    exact ⟨consistent, matting.trans (iff_of_true (by decide) trivial),
      fun type => (enabled_iff type).trans (or_congr_right (face.enabled_iff type))⟩
  · exact ⟨fun same => absurd same ok, failed⟩

theorem closeAIMatting_leaves (consistent : Consistent s) (needs : Matting s → Enabled s .face) :
    Ensures answers s closeAIMatting fun _ t =>
      Leaves t False fun type => Enabled s type ∧ type ≠ .faceFeature := by
  simp only [closeAIMatting, BitVec.ofNat_eq_ofNat, ne_eq, ite_not, ensures_bind, ensures_ite,
    ensures_pure, ensures_selectLinkMode, ensures_modify, ensures_read]
  split_ifs with stopped
  · have none (type : AiType) : ¬Enabled s type := by
      intro enabled
      exact consistent.running.mpr ((detection_ne_zero consistent.sound).mpr ⟨type, enabled⟩) stopped
    exact ⟨consistent, iff_false_intro fun matting => none _ (needs matting),
      fun type => iff_of_false (none type) fun both => none type both.1⟩
  · intro outcome u evaluated
    obtain ⟨rfl, becomes⟩ := disableAIAlgorithm_becomes consistent .faceFeature outcome u evaluated
    rw [if_pos rfl]
    intro _
    obtain ⟨consistent, matting, enabled_iff⟩ := leaves_setMatting becomes 0 (by decide)
    refine ⟨consistent, matting.trans (iff_of_false (by decide) id), ?_⟩
    intro type
    have allowed : ¬Refused s .faceFeature := by simp [Refused]
    exact (enabled_iff type).trans (and_congr_right fun _ => imp_iff_not allowed)

end Calls

section Sessions

inductive Call where
  | enable (type : AiType)
  | disable (type : AiType)
  | openMatting
  | closeMatting
deriving DecidableEq, Repr

def Call.method : Call → Method
  | enable type => .enableAIAlgorithm type
  | disable type => .disableAIAlgorithm type
  | openMatting => .openAIMatting
  | closeMatting => .closeAIMatting

/-- The context, the last request for each type and whether matting is open. -/
structure Session where
  ctx : Ctx
  requests : AiType → Bool
  matting : Bool

/-- The session after a call; only successful requests for a type are made. -/
def Session.after (s : Session) (ctx : Ctx) : Call → RtRet → Option Session
  | .enable type, .ok => some ⟨ctx, Function.update s.requests type true, s.matting⟩
  | .disable type, .ok => some ⟨ctx, Function.update s.requests type false, s.matting⟩
  | .openMatting, outcome => some ⟨ctx, s.requests, s.matting || outcome == .ok⟩
  | .closeMatting, _ => some ⟨ctx, s.requests, false⟩
  | _, _ => none

def step (s : Session) (l : Call × (Question → Bool)) : Option Session :=
  (l.1.method.body.eval l.2 s.ctx).bind fun (outcome, ctx) => s.after ctx l.1 outcome

/-- The algorithms that are asked for, with those that matting needs while it is open. -/
def Session.Wanted (s : Session) (type : AiType) : Prop :=
  s.requests type = true ∨ (s.matting = true ∧ (type = .face ∨ type = .faceFeature))

instance (s : Session) (type : AiType) : Decidable (s.Wanted type) :=
  inferInstanceAs (Decidable (_ ∨ _))

/-- The algorithms that are on are those that are wanted, and NN runs exactly if there are any. -/
def Session.Agrees (s : Session) : Prop :=
  (∀ type, Enabled s.ctx type ↔ s.Wanted type) ∧
    (s.ctx.feature &&& nnMask ≠ 0 ↔ ∃ type, Enabled s.ctx type)

structure Inv (s : Session) : Prop where
  consistent : Consistent s.ctx
  matting : Matting s.ctx ↔ s.matting = true
  needs : s.matting = true → Enabled s.ctx .face

def Changed (s : Session) (type : AiType) : Call × RtRet → Prop
  | (.enable added, _) => type = added ∨ Enabled s.ctx type
  | (.disable removed, _) => Enabled s.ctx type ∧ (type = removed → Refused s.ctx removed)
  | (.openMatting, .ok) => type = .faceFeature ∨ type = .face ∨ Enabled s.ctx type
  | (.openMatting, _) => Enabled s.ctx type
  | (.closeMatting, _) => Enabled s.ctx type ∧ type ≠ .faceFeature

section Steps
variable {s t : Session}

theorem agrees_iff (consistent : Consistent s.ctx) :
    s.Agrees ↔ ∀ type, Enabled s.ctx type ↔ s.Wanted type := by
  rw [Session.Agrees, consistent.running, detection_ne_zero consistent.sound]
  exact and_iff_left Iff.rfl

theorem step_changes (inv : Inv s) (l : Call × (Question → Bool)) (taken : step s l = some t) :
    ∃ outcome, s.after t.ctx l.1 outcome = some t ∧ Inv t ∧
      ∀ type, Enabled t.ctx type ↔ Changed s type (l.1, outcome) := by
  obtain ⟨c, answers⟩ := l
  obtain ⟨⟨outcome, ctx⟩, evaluated, after⟩ := Option.bind_eq_some_iff.mp taken
  cases c with
  | enable type =>
      obtain ⟨becomes, -⟩ := enableAIAlgorithm_becomes inv.consistent type outcome ctx evaluated
      cases outcome with
      | ok =>
          cases after
          obtain ⟨consistent, matting, enabled_iff⟩ := becomes rfl
          refine ⟨.ok, rfl, ⟨consistent, ?_, ?_⟩, enabled_iff⟩
          · rw [← inv.matting, Matting, Matting, matting]
          · exact fun isOpen => (enabled_iff .face).mpr (.inr (inv.needs isOpen))
      | _ => cases after
  | disable type =>
      obtain ⟨rfl, consistent, matting, enabled_iff⟩ :=
        disableAIAlgorithm_becomes inv.consistent type outcome ctx evaluated
      cases after
      refine ⟨.ok, rfl, ⟨consistent, ?_, ?_⟩, enabled_iff⟩
      · rw [← inv.matting, Matting, Matting, matting]
      · intro isOpen
        refine (enabled_iff .face).mpr ⟨inv.needs isOpen, ?_⟩
        rintro rfl
        exact ⟨inv.matting.mpr isOpen, .inl rfl⟩
  | openMatting =>
      obtain ⟨leaves, failed⟩ := openAIMatting_leaves inv.consistent outcome ctx evaluated
      cases after
      by_cases ok : outcome = .ok
      · subst ok
        obtain ⟨consistent, matting, enabled_iff⟩ := leaves rfl
        refine ⟨.ok, rfl, ⟨consistent, ?_, ?_⟩, enabled_iff⟩
        · simpa using matting
        · exact fun _ => (enabled_iff .face).mpr (.inr (.inl rfl))
      · cases failed ok
        cases outcome with
        | ok => exact absurd rfl ok
        | _ =>
            exact ⟨_, rfl, ⟨inv.consistent, by simpa using inv.matting, by simpa using inv.needs⟩,
              fun _ => Iff.rfl⟩
  | closeMatting =>
      obtain ⟨consistent, matting, enabled_iff⟩ :=
        closeAIMatting_leaves inv.consistent (fun isOpen => inv.needs (inv.matting.mp isOpen)) outcome
          ctx evaluated
      cases after
      refine ⟨outcome, rfl, ⟨consistent, ?_, nofun⟩, enabled_iff⟩
      simpa using matting

/-- The calls after which the clients' requests and those of matting can still be told apart. -/
def Allowed (s : Session) : Call → Prop
  | .enable _ | .openMatting => True
  | .disable type => s.matting = true →
      type ≠ .faceFeature ∧ (type = .faceAttribute → s.requests .faceAttribute = false)
  | .closeMatting =>
      s.requests .faceFeature = false ∧ (s.matting = true → s.requests .face = true)

section Agreement
variable (ctx : Ctx) (agrees : ∀ type, Enabled s.ctx type ↔ s.Wanted type)
include agrees

theorem enable_agrees (added type : AiType) :
    Changed s type (.enable added, .ok) ↔
      Session.Wanted ⟨ctx, Function.update s.requests added true, s.matting⟩ type := by
  by_cases same : type = added <;> simp [Changed, Session.Wanted, agrees, same]

theorem disable_agrees_iff (inv : Inv s) (removed : AiType) :
    (∀ type, Changed s type (.disable removed, .ok) ↔
      Session.Wanted ⟨ctx, Function.update s.requests removed false, s.matting⟩ type) ↔
      Allowed s (.disable removed) := by
  have own : (Changed s removed (.disable removed, .ok) ↔
      Session.Wanted ⟨ctx, Function.update s.requests removed false, s.matting⟩ removed) ↔
      Allowed s (.disable removed) := by
    have refused : Refused s.ctx removed ↔
        s.matting = true ∧ (removed = .face ∨ removed = .faceAttribute) :=
      and_congr_left fun _ => inv.matting
    cases opened : s.matting <;> cases removed <;>
      simp [Changed, Session.Wanted, Allowed, agrees, refused, opened]
  rw [← own]
  refine ⟨fun all => all removed, fun same type => ?_⟩
  by_cases other : type = removed
  · rwa [other]
  · simp [Changed, Session.Wanted, agrees, other]

theorem open_agrees (outcome : RtRet) (type : AiType) :
    Changed s type (.openMatting, outcome) ↔
      Session.Wanted ⟨ctx, s.requests, s.matting || outcome == .ok⟩ type := by
  cases outcome with
  | ok =>
      simp only [Changed, Session.Wanted, agrees]
      cases type <;> simp
  | _ => simp [Changed, Session.Wanted, agrees]

theorem close_agrees_iff (outcome : RtRet) :
    (∀ type, Changed s type (.closeMatting, outcome) ↔
      Session.Wanted ⟨ctx, s.requests, false⟩ type) ↔ Allowed s .closeMatting := by
  simp only [Changed, Session.Wanted, Allowed, agrees]
  constructor
  · intro all
    have feature : s.requests .faceFeature = false := by simpa using all .faceFeature
    refine ⟨feature, fun opened => ?_⟩
    simpa [opened] using all .face
  · rintro ⟨feature, face⟩ type
    by_cases own : type = .faceFeature
    · simp [own, feature]
    · cases opened : s.matting
      · simp [own]
      · by_cases other : type = .face
        · simp [other, face opened]
        · simp [own, other]

end Agreement

/-- One call keeps the agreement exactly if it is allowed. -/
theorem agrees_step_iff (inv : Inv s) (agrees : s.Agrees) (l : Call × (Question → Bool))
    (taken : step s l = some t) : t.Agrees ↔ Allowed s l.1 := by
  obtain ⟨outcome, after, inv', enabled_iff⟩ := step_changes inv l taken
  have agrees' := (agrees_iff inv.consistent).mp agrees
  rw [agrees_iff inv'.consistent]
  simp only [enabled_iff]
  obtain ⟨c, answers⟩ := l
  obtain ⟨ctx, requests, matting⟩ := t
  cases c with
  | enable added =>
      cases outcome with
      | ok =>
          cases after
          exact iff_true_intro fun type => enable_agrees ctx agrees' added type
      | _ => cases after
  | disable removed =>
      cases outcome with
      | ok =>
          cases after
          exact disable_agrees_iff ctx agrees' inv removed
      | _ => cases after
  | openMatting =>
      cases after
      exact iff_true_intro fun type => open_agrees ctx agrees' outcome type
  | closeMatting =>
      cases after
      exact close_agrees_iff ctx agrees' outcome

end Steps

structure Fresh (ctx : Ctx) : Prop where
  detection : ctx.detection = 0
  vendors : ctx.vendorDetections = []
  stopped : ctx.feature &&& nnMask = 0
  closed : ctx.feature &&& aimattingMask = 0

def start (ctx : Ctx) : Session := ⟨ctx, fun _ => false, false⟩

theorem start_none (ctx : Ctx) (fresh : Fresh ctx) (type : AiType) : ¬Enabled ctx type := by
  cases type <;> simp [Enabled, fresh.detection, fresh.vendors]

theorem start_inv (ctx : Ctx) (fresh : Fresh ctx) : Inv (start ctx) := by
  have sound : Sound ctx := by
    refine ⟨?_, ?_, ?_⟩
    · simp [fresh.detection]
    · simp [fresh.detection, fresh.vendors]
    · rw [fresh.vendors]
      exact List.Pairwise.nil
  refine ⟨⟨sound, ?_⟩, ?_, nofun⟩
  · exact iff_of_false (not_not.mpr fresh.stopped) (not_not.mpr fresh.detection)
  · exact iff_of_false (not_not.mpr fresh.closed) Bool.false_ne_true

theorem start_agrees (ctx : Ctx) (fresh : Fresh ctx) : (start ctx).Agrees := by
  rw [agrees_iff (start_inv ctx fresh).consistent]
  intro type
  exact iff_of_false (start_none ctx fresh type) (by simp [start, Session.Wanted])

/-- Over every sequence the algorithms that are on are those that are wanted exactly if every
call is allowed. -/
theorem agrees_always_iff (ctx : Ctx) (fresh : Fresh ctx) (labels : List (Call × (Question → Bool)))
    (t : Session) (run : exec step (start ctx) labels = some t) :
    (∀ initial, initial <+: labels → ∀ s, exec step (start ctx) initial = some s → s.Agrees) ↔
      StepsMeet step (fun s l => Allowed s l.1) (start ctx) labels :=
  always_iff_stepsMeet_of_inv step Inv Session.Agrees (fun s l => Allowed s l.1)
    (fun s l t inv taken => by
      obtain ⟨-, -, inv', -⟩ := step_changes inv l taken
      exact inv')
    (fun s l t inv agrees taken => agrees_step_iff inv agrees l taken)
    labels (start ctx) t (start_inv ctx fresh) (start_agrees ctx fresh) run

def vendorAndMatting : List (Call × (Question → Bool)) :=
  [(.enable (.vendor (ascii "gaze")), fun _ => true), (.enable .face, fun _ => true),
    (.openMatting, fun _ => true), (.closeMatting, fun _ => true),
    (.disable (.vendor (ascii "gaze")), fun _ => true)]

theorem vendorAndMatting_agrees : ∃ t, exec step (start builtCtx) vendorAndMatting = some t ∧
    ((∀ initial, initial <+: vendorAndMatting →
        ∀ s, exec step (start builtCtx) initial = some s → s.Agrees) ↔
      StepsMeet step (fun s l => Allowed s l.1) (start builtCtx) vendorAndMatting) :=
  ⟨_, rfl, agrees_always_iff builtCtx ⟨rfl, rfl, rfl, rfl⟩ vendorAndMatting _ rfl⟩

def mattingOnce : List (Call × (Question → Bool)) :=
  [(.openMatting, fun _ => true), (.closeMatting, fun _ => true)]

def featureThenMatting : List (Call × (Question → Bool)) :=
  (.enable .faceFeature, fun _ => true) :: mattingOnce

/-- Matting leaves the faces on that it switched on, and switches off the features that a client
asked for. -/
theorem mattingOnce_disagrees :
    (∃ t, exec step (start builtCtx) mattingOnce = some t ∧ Enabled t.ctx .face ∧
      ¬t.Wanted .face) ∧
    ∃ t, exec step (start builtCtx) featureThenMatting = some t ∧ ¬Enabled t.ctx .faceFeature ∧
      t.Wanted .faceFeature :=
  ⟨⟨_, rfl, by decide, by decide⟩, ⟨_, rfl, by decide, by decide⟩⟩

end Sessions

end WfyApp.AiBook
