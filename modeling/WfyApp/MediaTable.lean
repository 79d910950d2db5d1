import WfyApp.NumberText
import WfyApp.StepSystem

/-! The table of media devices that `GetMediaInfo` of rkaiq_media.cpp fills: twenty slots,
each with a record for an ISP, an ISPP, a CIF and a DVP device. The devices are visited in the
order of their numbers, and each kind has its own search for a slot. The paths of the other
entities of a device and the lens records are left out. -/

namespace WfyApp.MediaTable
open ByteText NumberText StepSystem

abbrev maxCamNum : Nat := 20
abbrev maxMediaNum : Nat := 20

abbrev Index := Fin maxCamNum

structure Sensor where
  name : Bytes
  devName : Bytes
deriving DecidableEq, Repr

structure Device where
  model : Bytes
  sensors : List Sensor
deriving DecidableEq, Repr

section Sensors
variable (d : Device) (camIndex : Nat)

/-- The first sensor whose name begins as that of the camera; only three characters are
compared, so all cameras from ten on look alike. -/
def linkedSensor : Option Sensor :=
  d.sensors.find? fun s => (ascii "m0" ++ decimal camIndex).take 3 == s.name.take 3

def isLinkSensor : Bool := (linkedSensor d camIndex).isSome

def getSensorName : Bytes := ((linkedSensor d camIndex).map Sensor.name).getD []

def getLinkSensorSubDev : Bytes := ((linkedSensor d camIndex).map Sensor.devName).getD []

end Sensors

inductive Kind where
  | isp
  | ispp
  | cif
  | dvp
deriving DecidableEq, Repr

/-- The record of a device; a path that is empty means that there is none. -/
structure Info where
  modelIdx : Int
  linked : Bool
  sensorName : Bytes
  sensorSubdevPath : Bytes
  mediaDevPath : Bytes
deriving DecidableEq, Repr

abbrev Table := Kind → Index → Info

def put (table : Table) (k : Kind) (i : Index) (info : Info) : Table :=
  fun k' i' => if k' = k ∧ i' = i then info else table k' i'

/-- `index` is the next number of `GetMediaInfo`; a failed assertion ends the process. -/
structure Media where
  table : Table
  camCount : Nat
  index : Nat
  aborted : Bool

-- the constructor leaves `model_idx` of the DVP records unset; nothing here reads it
def emptyInfo : Info := ⟨-1, false, [], [], []⟩

def Media.initial : Media := ⟨fun _ _ => emptyInfo, 0, 0, false⟩

section Registration
variable (id : Nat) (d : Device) (path : Bytes)

inductive Found where
  | slot (i : Index)
  | known
  | nothing
deriving DecidableEq, Repr

/-- The loop that stops at a slot that qualifies and returns at the path itself. -/
def search (qualifies : Index → Bool) (at_path : Index → Bool) : List Index → Found
  | [] => .nothing
  | i :: is =>
      if qualifies i then .slot i
      else if at_path i then .known else search qualifies at_path is

def sensorInfo (old : Info) (camIndex : Nat) : Info where
  modelIdx := id
  linked := isLinkSensor d camIndex
  sensorName := if isLinkSensor d camIndex then getSensorName d camIndex else old.sensorName
  sensorSubdevPath :=
    if isLinkSensor d camIndex then getLinkSensorSubDev d camIndex else old.sensorSubdevPath
  mediaDevPath := path

def assign (k : Kind) (i : Index) (camIndex : Nat) (m : Media) : Media :=
  { m with
    table := put m.table k i (sensorInfo id d path (m.table k i) camIndex)
    camCount := if isLinkSensor d camIndex then m.camCount + 1 else m.camCount }

def isppSwapped (table : Table) : Bool :=
  (table .isp 0).mediaDevPath != [] && (table .isp 1).mediaDevPath != [] &&
    (table .isp 1).modelIdx < (table .isp 0).modelIdx

/-- The slots the ISPP search looks at; `index` stays 0 unless two ISPs are in falling order. -/
def isppOrder (table : Table) : List Index :=
  if isppSwapped table then [1, 0, 2, 3, 4, 5, 6, 7, 8, 9, 10, 11, 12, 13, 14, 15, 16, 17, 18, 19]
  else List.replicate maxCamNum 0

def putIspp (i : Index) (m : Media) : Media :=
  { m with
    table := put m.table .ispp i { m.table .ispp i with modelIdx := id, mediaDevPath := path } }

def getIsppSubDevs (m : Media) : Media :=
  match search (fun i => (m.table .ispp i).mediaDevPath == [])
      (fun i => (m.table .ispp i).mediaDevPath == path) (isppOrder m.table) with
  | .slot i => putIspp id path i m
  | .known => m
  -- the loop ends without a break; `ispp_info` is the last slot it looked at
  | .nothing => putIspp id path ((isppOrder m.table).getLast?.getD 0) m

/-- An empty slot, unless its sensor belongs to a CIF. -/
def ispFits (table : Table) (i : Index) : Bool :=
  (table .isp i).mediaDevPath == [] && !(isLinkSensor d i && (table .cif i).mediaDevPath != [])

def getIspSubDevs (m : Media) : Media :=
  match search (ispFits d m.table) (fun _ => false) (List.finRange maxCamNum) with
  | .slot i => assign id d path .isp i i m
  | _ => m

def linkFits (table : Table) (k : Kind) (i : Index) : Bool :=
  isLinkSensor d i && (table k i).mediaDevPath == []

def getCifSubDevs (m : Media) : Media :=
  match search (linkFits d m.table .cif) (fun i => (m.table .cif i).mediaDevPath == path)
      (List.finRange maxCamNum) with
  | .slot i => assign id d path .cif i i m
  | .known => m
  | .nothing => m

def getDvpSubDevs (m : Media) : Media :=
  match search (linkFits d m.table .dvp) (fun i => (m.table .dvp i).mediaDevPath == path)
      (List.finRange maxCamNum) with
  | .slot i => assign id d path .dvp i i m
  | .known => m
  | .nothing =>
      -- the record is written before the index is checked; `GetSensorName` asserts the index
      if isLinkSensor d maxCamNum then
        { m with
          table := put m.table .dvp 19 { m.table .dvp 19 with modelIdx := id, linked := true }
          camCount := m.camCount + 1
          aborted := true }
      else assign id d path .dvp 19 maxCamNum m

end Registration

def isppModels : List Bytes := [ascii "rkispp0", ascii "rkispp1", ascii "rkispp"]

def ispModels : List Bytes := [ascii "rkisp", ascii "rkisp0", ascii "rkisp1", ascii "rkisp2"]

def cifModels : List Bytes :=
  [ascii "rkcif", ascii "rkcif_mipi_lvds", ascii "rkcif_lite_mipi_lvds", ascii "rkcif-mipi-lvds",
    ascii "rkcif-mipi-lvds1", ascii "rkcif-mipi-lvds2", ascii "rkcif-mipi-lvds3",
    ascii "rkcif-mipi-lvds4", ascii "rkcif-mipi-lvds5"]

def kindOf (d : Device) : Option Kind :=
  if d.model ∈ isppModels then some .ispp
  else if d.model ∈ ispModels then some .isp
  else if d.model ∈ cifModels then some .cif
  else if d.model = ascii "rkcif_dvp" then some .dvp
  else none

def mediaPath (id : Nat) : Bytes := ascii "/dev/media" ++ decimal id

def register (id : Nat) (d : Device) (m : Media) : Media :=
  match kindOf d with
  | some .ispp => getIsppSubDevs id (mediaPath id) m
  | some .isp => getIspSubDevs id d (mediaPath id) m
  | some .cif => getCifSubDevs id d (mediaPath id) m
  | some .dvp => getDvpSubDevs id d (mediaPath id) m
  | none => m

def step (m : Media) (l : Nat × Device) : Option Media :=
  if m.aborted = false ∧ m.index ≤ l.1 ∧ l.1 < maxMediaNum then
    some { register l.1 l.2 m with index := l.1 + 1 }
  else none

section Loss

def Qualifies (m : Media) (d : Device) (i : Index) : Prop :=
  match kindOf d with
  | some .ispp => (m.table .ispp i).mediaDevPath = []
  | some .isp => ispFits d m.table i = true
  | some .cif => linkFits d m.table .cif i = true
  | some .dvp => linkFits d m.table .dvp i = true
  | none => False

/-- A registration loses nothing. -/
structure Kept (m : Media) (d : Device) (next : Media) : Prop where
  overwrites : ∀ k i, (m.table k i).mediaDevPath ≠ [] →
    (next.table k i).mediaDevPath = (m.table k i).mediaDevPath
  twice : ∀ k i j, (next.table k i).mediaDevPath ≠ [] →
    (next.table k i).mediaDevPath = (next.table k j).mediaDevPath → i = j
  unqualified : (∀ i, ¬Qualifies m d i) → next.table = m.table ∧ next.aborted = m.aborted

/-- The first slot is free for an ISPP, or one of all if the search goes through them; a DVP
has a slot that qualifies. -/
def HasRoom (m : Media) (d : Device) : Prop :=
  match kindOf d with
  | some .ispp =>
      if isppSwapped m.table then ∃ i, (m.table .ispp i).mediaDevPath = []
      else (m.table .ispp 0).mediaDevPath = []
  | some .dvp => ∃ i, linkFits d m.table .dvp i = true
  | _ => True

structure Inv (m : Media) : Prop where
  known : ∀ k i, (m.table k i).mediaDevPath ≠ [] →
    ∃ id < m.index, (m.table k i).mediaDevPath = mediaPath id
  unique : ∀ k i j, (m.table k i).mediaDevPath ≠ [] →
    (m.table k i).mediaDevPath = (m.table k j).mediaDevPath → i = j

end Loss

section Search
variable (qualifies at_path : Index → Bool)

theorem search_slot (is : List Index) (i : Index) (found : search qualifies at_path is = .slot i) :
    i ∈ is ∧ qualifies i = true := by
  induction is with
  | nil => cases found
  | cons j is ih =>
      rw [search] at found
      split_ifs at found with fits known
      · cases found
        exact ⟨List.mem_cons_self, fits⟩
      · obtain ⟨member, fit⟩ := ih found
        exact ⟨List.mem_cons_of_mem j member, fit⟩

theorem search_known (is : List Index) (found : search qualifies at_path is = .known) :
    ∃ i ∈ is, at_path i = true := by
  induction is with
  | nil => cases found
  | cons j is ih =>
      rw [search] at found
      split_ifs at found with fits known
      · exact ⟨j, List.mem_cons_self, known⟩
      · obtain ⟨i, member, same⟩ := ih found
        exact ⟨i, List.mem_cons_of_mem j member, same⟩

theorem search_nothing (is : List Index) (found : search qualifies at_path is = .nothing) :
    ∀ i ∈ is, qualifies i = false := by
  induction is with
  | nil => exact fun i member => absurd member List.not_mem_nil
  | cons j is ih =>
      rw [search] at found
      split_ifs at found with fits known
      exact List.forall_mem_cons.mpr ⟨Bool.eq_false_iff.mpr fits, ih found⟩

end Search

theorem mediaPath_ne_nil (id : Nat) : mediaPath id ≠ [] := by
  intro same
  have lengths := congrArg List.length same
  have first : (ascii "/dev/media").length = 10 := rfl
  rw [mediaPath, List.length_append, first, List.length_nil] at lengths
  omega

theorem mediaPath_inj (a b : Nat) (same : mediaPath a = mediaPath b) : a = b :=
  decimal_inj a b (List.append_cancel_left same)

section Outcome
variable (m : Media) (id : Nat) (d : Device)

/-- The record at one slot is replaced by one with the path of the device. -/
structure Assigned (k : Kind) (i : Index) (next : Media) : Prop where
  kind : kindOf d = some k
  table : ∃ info : Info, info.mediaDevPath = mediaPath id ∧ next.table = put m.table k i info
  aborted : next.aborted = m.aborted

theorem fresh_path (inv : Inv m) (later : m.index ≤ id) (k : Kind) (i : Index) :
    (m.table k i).mediaDevPath ≠ mediaPath id := by
  intro same
  obtain ⟨earlier, less, known⟩ := inv.known k i (same ▸ mediaPath_ne_nil id)
  have number := mediaPath_inj id earlier (same ▸ known)
  omega

theorem put_apply (table : Table) (k k' : Kind) (i i' : Index) (info : Info) :
    put table k i info k' i' = if k' = k ∧ i' = i then info else table k' i' := rfl

theorem inv_assigned (k : Kind) (i : Index) (next : Media) (inv : Inv m) (later : m.index ≤ id)
    (assigned : Assigned m id d k i next) (index : next.index = id + 1) : Inv next := by
  obtain ⟨info, path, table⟩ := assigned.table
  have fresh := fresh_path m id inv later
  refine ⟨fun k' j nonempty => ?_, fun k' j j' nonempty same => ?_⟩
  · rw [table, put_apply] at nonempty ⊢
    rw [index]
    split_ifs with here
    · exact ⟨id, by omega, path⟩
    · rw [if_neg here] at nonempty
      obtain ⟨number, less, known⟩ := inv.known k' j nonempty
      exact ⟨number, by omega, known⟩
  · rw [table, put_apply, put_apply] at same
    rw [table, put_apply] at nonempty
    split_ifs at same nonempty with here there there
    · rw [here.2, there.2]
    · exact absurd (path.symm.trans same).symm (fresh k' j')
    · exact absurd (same.trans path) (fresh k' j)
    · exact inv.unique k' j j' nonempty same

theorem kept_assigned (k : Kind) (i : Index) (next : Media) (inv : Inv m) (later : m.index ≤ id)
    (assigned : Assigned m id d k i next) (index : next.index = id + 1)
    (free : (m.table k i).mediaDevPath = []) (fits : Qualifies m d i) : Kept m d next := by
  obtain ⟨info, path, table⟩ := assigned.table
  refine ⟨fun k' j nonempty => ?_, (inv_assigned m id d k i next inv later assigned index).unique,
    fun none => absurd fits (none i)⟩
  rw [table, put_apply, if_neg]
  rintro ⟨rfl, rfl⟩
  exact nonempty free

theorem not_kept_assigned (k : Kind) (i : Index) (next : Media) (inv : Inv m)
    (later : m.index ≤ id) (assigned : Assigned m id d k i next)
    (taken : (m.table k i).mediaDevPath ≠ []) : ¬Kept m d next := by
  intro kept
  obtain ⟨info, path, table⟩ := assigned.table
  have same := kept.overwrites k i taken
  rw [table, put_apply, if_pos ⟨rfl, rfl⟩, path] at same
  exact fresh_path m id inv later k i same.symm

theorem inv_same (next : Media) (inv : Inv m) (later : m.index ≤ next.index)
    (paths : ∀ k i, (next.table k i).mediaDevPath = (m.table k i).mediaDevPath) : Inv next := by
  refine ⟨fun k i nonempty => ?_, fun k i j nonempty same => ?_⟩
  · rw [paths] at nonempty ⊢
    obtain ⟨number, less, known⟩ := inv.known k i nonempty
    exact ⟨number, by omega, known⟩
  · rw [paths] at nonempty
    rw [paths, paths] at same
    exact inv.unique k i j nonempty same

theorem kept_same (next : Media) (inv : Inv m) (table : next.table = m.table)
    (aborted : next.aborted = m.aborted) : Kept m d next := by
  refine ⟨fun k i _ => by rw [table], fun k i j nonempty same => ?_, fun _ => ⟨table, aborted⟩⟩
  rw [table] at nonempty same
  exact inv.unique k i j nonempty same

theorem assigned_assign (k : Kind) (i : Index) (camIndex : Nat) (kind : kindOf d = some k) :
    Assigned m id d k i { assign id d (mediaPath id) k i camIndex m with index := id + 1 } :=
  ⟨kind, ⟨_, rfl, rfl⟩, rfl⟩

theorem assigned_ispp (i : Index) (kind : kindOf d = some .ispp) :
    Assigned m id d .ispp i { putIspp id (mediaPath id) i m with index := id + 1 } :=
  ⟨kind, ⟨_, rfl, rfl⟩, rfl⟩

theorem not_known (qualifies : Index → Bool) (is : List Index) (k : Kind) (inv : Inv m)
    (later : m.index ≤ id) :
    search qualifies (fun i => (m.table k i).mediaDevPath == mediaPath id) is ≠ .known := by
  intro found
  obtain ⟨i, -, same⟩ := search_known _ _ is found
  exact fresh_path m id inv later k i (beq_iff_eq.mp same)

/-- What becomes of a device, with the slots its search accepts. -/
inductive Outcome (next : Media) : Prop where
  | placed (k : Kind) (i : Index) (assigned : Assigned m id d k i next)
      (free : (m.table k i).mediaDevPath = []) (fits : Qualifies m d i) (room : HasRoom m d)
  | skipped (table : next.table = m.table) (aborted : next.aborted = m.aborted)
      (room : HasRoom m d)
  | replaced (i : Index) (assigned : Assigned m id d .ispp i next)
      (taken : (m.table .ispp i).mediaDevPath ≠ []) (full : ¬HasRoom m d)
  | stray (assigned : Assigned m id d .dvp 19 next) (none : ∀ i, ¬Qualifies m d i)
      (full : ¬HasRoom m d)
  | crashed (paths : ∀ k i, (next.table k i).mediaDevPath = (m.table k i).mediaDevPath)
      (aborted : next.aborted = true) (none : ∀ i, ¬Qualifies m d i) (full : ¬HasRoom m d)

variable (inv : Inv m) (later : m.index ≤ id)

theorem outcome_isp (kind : kindOf d = some .isp) :
    Outcome m id d { getIspSubDevs id d (mediaPath id) m with index := id + 1 } := by
  have room : HasRoom m d := by simp only [HasRoom, kind]
  rw [getIspSubDevs]
  cases found : search (ispFits d m.table) (fun _ => false) (List.finRange maxCamNum) with
  | slot i =>
      obtain ⟨-, fits⟩ := search_slot _ _ _ i found
      have free : (m.table .isp i).mediaDevPath = [] := by
        rw [ispFits, Bool.and_eq_true, beq_iff_eq] at fits
        exact fits.1
      have accepted : Qualifies m d i := by simp only [Qualifies, kind, fits]
      exact .placed .isp i (assigned_assign m id d .isp i i kind) free accepted room
  | known => exact .skipped rfl rfl room
  | nothing => exact .skipped rfl rfl room

theorem linkFits_free (k : Kind) (i : Index) (fits : linkFits d m.table k i = true) :
    (m.table k i).mediaDevPath = [] := by
  rw [linkFits, Bool.and_eq_true, beq_iff_eq] at fits
  exact fits.2

theorem mem_isppOrder (i : Index) :
    i ∈ isppOrder m.table ↔ isppSwapped m.table = true ∨ i = 0 := by
  rw [isppOrder]
  split_ifs with swapped
  · refine iff_of_true ?_ (.inl swapped)
    revert i
    decide
  · simp [swapped]

theorem hasRoom_ispp (kind : kindOf d = some .ispp) :
    HasRoom m d ↔ ∃ i ∈ isppOrder m.table, (m.table .ispp i).mediaDevPath = [] := by
  simp only [HasRoom, kind, mem_isppOrder m]
  cases isppSwapped m.table with
  | true => simp
  | false => simp

include inv later

theorem outcome_cif (kind : kindOf d = some .cif) :
    Outcome m id d { getCifSubDevs id d (mediaPath id) m with index := id + 1 } := by
  have room : HasRoom m d := by simp only [HasRoom, kind]
  rw [getCifSubDevs]
  cases found : search (linkFits d m.table .cif)
      (fun i => (m.table .cif i).mediaDevPath == mediaPath id) (List.finRange maxCamNum) with
  | slot i =>
      obtain ⟨-, fits⟩ := search_slot _ _ _ i found
      have accepted : Qualifies m d i := by simp only [Qualifies, kind, fits]
      exact .placed .cif i (assigned_assign m id d .cif i i kind) (linkFits_free m d .cif i fits)
        accepted room
  | known => exact absurd found (not_known m id _ _ .cif inv later)
  | nothing => exact .skipped rfl rfl room

theorem outcome_dvp (kind : kindOf d = some .dvp) :
    Outcome m id d { getDvpSubDevs id d (mediaPath id) m with index := id + 1 } := by
  rw [getDvpSubDevs]
  cases found : search (linkFits d m.table .dvp)
      (fun i => (m.table .dvp i).mediaDevPath == mediaPath id) (List.finRange maxCamNum) with
  | slot i =>
      obtain ⟨-, fits⟩ := search_slot _ _ _ i found
      have accepted : Qualifies m d i := by simp only [Qualifies, kind, fits]
      have room : HasRoom m d := by
        simp only [HasRoom, kind]
        exact ⟨i, fits⟩
      exact .placed .dvp i (assigned_assign m id d .dvp i i kind) (linkFits_free m d .dvp i fits)
        accepted room
  | known => exact absurd found (not_known m id _ _ .dvp inv later)
  | nothing =>
      have rejected (i : Index) : linkFits d m.table .dvp i = false :=
        search_nothing _ _ _ found i (List.mem_finRange i)
      have none : ∀ i, ¬Qualifies m d i := by
        intro i
        simp only [Qualifies, kind, rejected i, Bool.false_eq_true, not_false_eq_true]
      have full : ¬HasRoom m d := by
        simp only [HasRoom, kind, rejected, Bool.false_eq_true, exists_const, not_false_eq_true]
      simp only
      split_ifs with beyond
      · refine .crashed (fun k i => ?_) rfl none full
        change (put m.table .dvp 19 _ k i).mediaDevPath = _
        rw [put_apply]
        split_ifs with here
        · rw [here.1, here.2]
        · rfl
      · exact .stray (assigned_assign m id d .dvp 19 maxCamNum kind) none full

theorem outcome_ispp (kind : kindOf d = some .ispp) :
    Outcome m id d { getIsppSubDevs id (mediaPath id) m with index := id + 1 } := by
  rw [getIsppSubDevs]
  cases found : search (fun i => (m.table .ispp i).mediaDevPath == [])
      (fun i => (m.table .ispp i).mediaDevPath == mediaPath id) (isppOrder m.table) with
  | slot i =>
      obtain ⟨member, fits⟩ := search_slot _ _ _ i found
      have free : (m.table .ispp i).mediaDevPath = [] := beq_iff_eq.mp fits
      have accepted : Qualifies m d i := by simp only [Qualifies, kind, free]
      exact .placed .ispp i (assigned_ispp m id d i kind) free accepted
        ((hasRoom_ispp m d kind).mpr ⟨i, member, free⟩)
  | known => exact absurd found (not_known m id _ _ .ispp inv later)
  | nothing =>
      have taken : ∀ i ∈ isppOrder m.table, (m.table .ispp i).mediaDevPath ≠ [] := by
        intro i member
        exact beq_eq_false_iff_ne.mp (search_nothing _ _ _ found i member)
      have last : (isppOrder m.table).getLast?.getD 0 ∈ isppOrder m.table := by
        rw [isppOrder]
        split_ifs <;> decide
      refine .replaced _ (assigned_ispp m id d _ kind) (taken _ last) fun room => ?_
      obtain ⟨i, member, free⟩ := (hasRoom_ispp m d kind).mp room
      exact taken i member free

theorem outcome_register : Outcome m id d { register id d m with index := id + 1 } := by
  rw [register]
  cases kind : kindOf d with
  | none => exact .skipped rfl rfl (by simp only [HasRoom, kind])
  | some k =>
      cases k with
      | isp => exact outcome_isp m id d kind
      | ispp => exact outcome_ispp m id d inv later kind
      | cif => exact outcome_cif m id d inv later kind
      | dvp => exact outcome_dvp m id d inv later kind

theorem inv_outcome (next : Media) (index : next.index = id + 1)
    (outcome : Outcome m id d next) : Inv next := by
  cases outcome with
  | placed k i assigned => exact inv_assigned m id d k i next inv later assigned index
  | skipped table => exact inv_same m next inv (by omega) fun k i => by rw [table]
  | replaced i assigned => exact inv_assigned m id d .ispp i next inv later assigned index
  | stray assigned => exact inv_assigned m id d .dvp 19 next inv later assigned index
  | crashed paths => exact inv_same m next inv (by omega) paths

theorem kept_iff_of_outcome (next : Media) (index : next.index = id + 1)
    (alive : m.aborted = false) (outcome : Outcome m id d next) :
    Kept m d next ↔ HasRoom m d := by
  cases outcome with
  | placed k i assigned free fits room =>
      exact iff_of_true (kept_assigned m id d k i next inv later assigned index free fits) room
  | skipped table aborted room => exact iff_of_true (kept_same m d next inv table aborted) room
  | replaced i assigned taken full =>
      exact iff_of_false (not_kept_assigned m id d .ispp i next inv later assigned taken) full
  | stray assigned none full =>
      refine iff_of_false (fun kept => ?_) full
      obtain ⟨info, path, table⟩ := assigned.table
      have same := (kept.unqualified none).1
      rw [table] at same
      have record := congrFun (congrFun same .dvp) 19
      rw [put_apply, if_pos ⟨rfl, rfl⟩] at record
      exact fresh_path m id inv later .dvp 19 (record ▸ path)
  | crashed paths aborted none full =>
      refine iff_of_false (fun kept => ?_) full
      have same := (kept.unqualified none).2
      rw [aborted, alive] at same
      cases same

end Outcome

section Runs

theorem inv_initial : Inv .initial :=
  ⟨fun _ _ nonempty => absurd rfl nonempty, fun _ _ _ nonempty => absurd rfl nonempty⟩

theorem step_eq (m : Media) (l : Nat × Device) (next : Media) (taken : step m l = some next) :
    m.aborted = false ∧ m.index ≤ l.1 ∧ next = { register l.1 l.2 m with index := l.1 + 1 } := by
  rw [step] at taken
  split_ifs at taken with enabled
  exact ⟨enabled.1, enabled.2.1, (Option.some.inj taken).symm⟩

theorem inv_step (m : Media) (l : Nat × Device) (next : Media) (inv : Inv m)
    (taken : step m l = some next) : Inv next := by
  obtain ⟨-, later, rfl⟩ := step_eq m l next taken
  exact inv_outcome m l.1 l.2 inv later _ rfl (outcome_register m l.1 l.2 inv later)

/-- No registration of a run loses a device. -/
def NothingLost (devices : List (Nat × Device)) : Prop :=
  StepsMeet step (fun m l => ∀ next, step m l = some next → Kept m l.2 next) .initial devices

/-- A run loses nothing exactly if every ISPP and every DVP it meets has room. -/
theorem nothingLost_iff (devices : List (Nat × Device)) (m : Media)
    (run : exec step .initial devices = some m) :
    NothingLost devices ↔ StepsMeet step (fun m l => HasRoom m l.2) .initial devices := by
  refine stepsMeet_iff_of_inv step Inv _ _ inv_step (fun m l next inv taken => ?_) devices .initial m
    inv_initial run
  obtain ⟨alive, later, same⟩ := step_eq m l next taken
  have one := kept_iff_of_outcome m l.1 l.2 inv later _ rfl alive
    (outcome_register m l.1 l.2 inv later)
  rw [← one, taken, ← same]
  simp only [Option.some.injEq, forall_eq']

def oneCamera : List (Nat × Device) :=
  [(0, ⟨ascii "rkcif", [⟨ascii "m00_b_imx415", ascii "/dev/v4l-subdev2"⟩]⟩),
    (1, ⟨ascii "rkisp0", []⟩), (2, ⟨ascii "rkispp0", []⟩)]

theorem nothingLost_oneCamera : NothingLost oneCamera := by
  refine (nothingLost_iff oneCamera _ rfl).mpr ⟨trivial, fun afterCif cif => ?_⟩
  cases cif
  refine ⟨trivial, fun afterIsp isp => ?_⟩
  cases isp
  exact ⟨rfl, fun _ _ => trivial⟩

def twoIspps : List (Nat × Device) := [(0, ⟨ascii "rkispp0", []⟩), (1, ⟨ascii "rkispp1", []⟩)]

theorem twoIspps_lost : (exec step .initial twoIspps).isSome = true ∧ ¬NothingLost twoIspps := by
  refine ⟨rfl, fun kept => ?_⟩
  have second := (kept.2 _ rfl).1 _ rfl
  have same : mediaPath 1 = mediaPath 0 := second.overwrites .ispp 0 (mediaPath_ne_nil 0)
  cases mediaPath_inj 1 0 same

end Runs

end WfyApp.MediaTable
