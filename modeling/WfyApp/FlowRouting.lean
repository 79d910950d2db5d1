import WfyApp.FanOut
import WfyApp.FlowSlots

/-! How a flow hands its outputs down (flow.cc): `AddDownFlow`, `RemoveDownFlow`, `SetOutput`, and
the part of `RunOnce` that sends what an output slot holds (`SendBufferDown`,
`SendBufferDownFromDeque`, `SendNullBufferDown`, `OutputHoldRelated`). A round copies the list of
receivers under its lock, so one sending is one step between the calls of other threads. What a
receiver does with a buffer is outside, as are the output callback and a thread that sets an output
during a sending. An assertion that fails and an access outside a vector are `none`. -/

namespace WfyApp.FlowRouting
open StepSystem FanOut FlowSlots

/-- A buffer that is sent, and whether it is an output or stands for a round without one. -/
structure Parcel (B : Type) where
  buffer : Option B
  output : Bool
deriving DecidableEq

/-- An output slot; a buffer that is `none` is a null pointer. -/
structure FlowMap (F B : Type) where
  valid : Bool
  toQueue : Bool
  holdInput : HoldInputMode
  flows : List (F × Int)
  cachedBuffers : List (Option B)
  cachedBuffer : Option B

structure State (F B : Type) where
  self : F
  outSlotNum : Nat
  downflowmap : List (FlowMap F B)
  source : Bool
  downFlowNum : Int
  enable : Bool
  related : B → List (Option B)
  sent : List (F × Int × Parcel B)

inductive Label (F B : Type) where
  | addDownFlow (down : F) (outSlotIndex inSlotIndexOfDown : Int)
  | removeDownFlow (down : F)
  | setOutput (output : Option B) (outSlotIndex : Int)
  | sendDown (slot : Nat) (inputs : List (Option B)) (ret : Bool) (fresh : B)
  | disable

section Operations
variable {F B : Type} [DecidableEq F] [DecidableEq B]

def FlowMap.addFlow (fm : FlowMap F B) (flow : F) (index : Int) : FlowMap F B :=
  { fm with flows := upsert flow index fm.flows }

def FlowMap.removeFlow (fm : FlowMap F B) (flow : F) : FlowMap F B :=
  { fm with flows := without flow fm.flows }

def State.completed (s : State F B) : Bool :=
  decide (0 < s.outSlotNum) && decide (s.downflowmap.length = s.outSlotNum)

def State.setMap (s : State F B) (slot : Nat) (fm : FlowMap F B) : State F B :=
  { s with downflowmap := s.downflowmap.set slot fm }

def addDownFlow (s : State F B) (down : F) (outSlotIndex inSlotIndexOfDown : Int) :
    Option (State F B) :=
  if !s.completed then some s
  else if (s.downflowmap.length : Int) ≤ outSlotIndex then some s
  else if s.self = down then some s
  else if outSlotIndex < 0 then none
  else do
    let fm ← s.downflowmap[outSlotIndex.toNat]?
    let t := s.setMap outSlotIndex.toNat (fm.addFlow down inSlotIndexOfDown)
    return { t with downFlowNum := if s.source then s.downFlowNum + 1 else s.downFlowNum }

/-- The counter goes down for every slot, whether the flow was there or not. -/
def removeDownFlow (s : State F B) (down : F) : State F B :=
  if !s.completed then s
  else
    { s with
      downflowmap := s.downflowmap.map fun fm => if fm.valid then fm.removeFlow down else fm
      downFlowNum :=
        if s.source then s.downFlowNum - (s.downflowmap.countP fun fm => fm.valid)
        else s.downFlowNum }

def FlowMap.setOutput (fm : FlowMap F B) (output : Option B) : FlowMap F B :=
  if fm.toQueue then { fm with cachedBuffers := fm.cachedBuffers ++ [output] }
  else { fm with cachedBuffer := output }

def setOutput (s : State F B) (output : Option B) (outSlotIndex : Int) : Option (State F B) :=
  if outSlotIndex < 0 ∨ (s.outSlotNum : Int) ≤ outSlotIndex then some s
  else if !s.enable then some s
  else do
    let fm ← s.downflowmap[outSlotIndex.toNat]?
    if fm.valid then some (s.setMap outSlotIndex.toNat (fm.setOutput output)) else none

def holdInput (related : B → List (Option B)) (out : B) (inputs : List (Option B)) :
    B → List (Option B) :=
  Function.update related out (inputs ++ (related out).drop inputs.length)

/-- A null input is followed here, and a buffer must not be its own input. -/
def inheritFromInput (related : B → List (Option B)) (out : B) (inputs : List (Option B)) :
    Option ((B → List (Option B)) × Nat) := do
  let buffers ← inputs.mapM id
  let inherited := buffers.flatMap related
  if out ∈ buffers then none
  else some (Function.update related out (related out ++ inherited), inherited.length)

/-- The related buffers afterwards and how many were added; an output is asserted. -/
def outputHoldRelated (mode : HoldInputMode) (related : B → List (Option B)) (out : Option B)
    (inputs : List (Option B)) : Option ((B → List (Option B)) × Nat) :=
  match mode, out with
  | .none, _ => some (related, 0)
  | _, none => none
  | .holdInput, some out => some (holdInput related out inputs, inputs.length)
  | .inheritFromInput, some out => inheritFromInput related out inputs

/-- The buffer sent after a failed round, and the related buffers afterwards. -/
def nullBuffer (fm : FlowMap F B) (related : B → List (Option B)) (inputs : List (Option B))
    (fresh : B) : Option ((B → List (Option B)) × Option B) :=
  if fm.holdInput = .none then some (related, none)
  else do
    let (next, count) ← outputHoldRelated fm.holdInput (Function.update related fresh [])
      (some fresh) inputs
    return (next, if 0 < count then some fresh else none)

/-- The inputs are related to the output once for each receiver. -/
def sendBufferDown (fm : FlowMap F B) (related : B → List (Option B)) (inputs : List (Option B)) :
    Option (B → List (Option B)) :=
  fm.flows.foldlM (fun related _ =>
    (outputHoldRelated fm.holdInput related fm.cachedBuffer inputs).map Prod.fst) related

/-- The inputs are related to each output once. -/
def sendBufferDownFromDeque (fm : FlowMap F B) (related : B → List (Option B))
    (inputs : List (Option B)) : Option (B → List (Option B)) :=
  fm.cachedBuffers.foldlM (fun related buffer =>
    (outputHoldRelated fm.holdInput related buffer inputs).map Prod.fst) related

/-- `send_down_func`, which `Start` chooses by the model as `Init` does the queueing. -/
def sendDownFunc (fm : FlowMap F B) (related : B → List (Option B)) (inputs : List (Option B)) :
    Option (B → List (Option B)) :=
  if fm.toQueue then sendBufferDownFromDeque fm related inputs else sendBufferDown fm related inputs

def FlowMap.flushed (fm : FlowMap F B) : FlowMap F B :=
  if fm.toQueue then { fm with cachedBuffers := [] } else { fm with cachedBuffer := none }

def FlowMap.held (fm : FlowMap F B) : List (Option B) :=
  if fm.toQueue then fm.cachedBuffers else [fm.cachedBuffer]

def sendDown (s : State F B) (slot : Nat) (inputs : List (Option B)) (ret : Bool) (fresh : B) :
    Option (State F B) := do
  let fm ← s.downflowmap[slot]?
  if !ret then
    let (related, buffer) ← nullBuffer fm s.related inputs fresh
    return { s with related := related, sent := s.sent ++ handOut fm.flows ⟨buffer, false⟩ }
  else
    let related ← sendDownFunc fm s.related inputs
    let t := s.setMap slot fm.flushed
    return { t with
      related := related
      sent := s.sent ++ fm.held.flatMap fun buffer => handOut fm.flows ⟨buffer, true⟩ }

def step (s : State F B) : Label F B → Option (State F B)
  | .addDownFlow down outSlotIndex inSlotIndexOfDown =>
      addDownFlow s down outSlotIndex inSlotIndexOfDown
  | .removeDownFlow down => some (removeDownFlow s down)
  | .setOutput output outSlotIndex => setOutput s output outSlotIndex
  | .sendDown slot inputs ret fresh => sendDown s slot inputs ret fresh
  | .disable => some { s with enable := false }

def opened (self : F) (source : Bool) (outputs : Table Output) (related : B → List (Option B)) :
    State F B where
  self := self
  outSlotNum := outputs.num
  downflowmap := outputs.slots.map fun slot =>
    match slot with
    | none => ⟨false, false, .none, [], [], none⟩
    | some output => ⟨true, output.toQueue, output.holdInput, [], [], none⟩
  source := source
  downFlowNum := 0
  enable := true
  related := related
  sent := []

end Operations

/-! What the calls do not change, and a change of one slot. -/

section Slots
variable {F B : Type}

structure Config (F : Type) where
  self : F
  outSlotNum : Nat
  slots : List (Bool × Bool)

def config (s : State F B) : Config F :=
  ⟨s.self, s.outSlotNum, s.downflowmap.map fun fm => (fm.valid, fm.toQueue)⟩

def Distinguished (s : State F B) : Prop := ∀ fm ∈ s.downflowmap, Distinct fm.flows

theorem distinguished_setMap (s : State F B) (slot : Nat) (next : FlowMap F B)
    (all : Distinguished s) (distinct : Distinct next.flows) :
    Distinguished (s.setMap slot next) := by
  intro fm member
  rcases List.mem_or_eq_of_mem_set member with old | rfl
  · exact all fm old
  · exact distinct

theorem setMap_getElem? (s : State F B) (slot : Nat) (fm next : FlowMap F B)
    (found : s.downflowmap[slot]? = some fm) (n : Nat) :
    (s.setMap slot next).downflowmap[n]? = if n = slot then some next else s.downflowmap[n]? := by
  have inside : slot < s.downflowmap.length := (List.getElem?_eq_some_iff.mp found).1
  rw [State.setMap, List.getElem?_set]
  by_cases same : n = slot
  · simp [same, inside]
  · rw [if_neg fun equal => same equal.symm, if_neg same]

theorem config_setMap (s : State F B) (slot : Nat) (fm next : FlowMap F B)
    (found : s.downflowmap[slot]? = some fm) (valid : next.valid = fm.valid)
    (toQueue : next.toQueue = fm.toQueue) : config (s.setMap slot next) = config s := by
  have slots : (s.setMap slot next).downflowmap.map (fun fm => (fm.valid, fm.toQueue)) =
      s.downflowmap.map fun fm => (fm.valid, fm.toQueue) := by
    apply List.ext_getElem?
    intro n
    rw [List.getElem?_map, List.getElem?_map, setMap_getElem? s slot fm next found]
    split_ifs with same
    · rw [same, found, Option.map_some, Option.map_some, valid, toQueue]
    · rfl
  rw [config, slots]
  rfl

structure Refilled (fm next : FlowMap F B) : Prop where
  flows : next.flows = fm.flows
  valid : next.valid = fm.valid
  toQueue : next.toQueue = fm.toQueue

theorem refilled_setOutput (fm : FlowMap F B) (output : Option B) :
    Refilled fm (fm.setOutput output) := by
  rw [FlowMap.setOutput]
  split_ifs <;> exact ⟨rfl, rfl, rfl⟩

theorem refilled_flushed (fm : FlowMap F B) : Refilled fm fm.flushed := by
  rw [FlowMap.flushed]
  split_ifs <;> exact ⟨rfl, rfl, rfl⟩

theorem Refilled.kept {s : State F B} {slot : Nat} {fm next : FlowMap F B}
    (refilled : Refilled fm next) (found : s.downflowmap[slot]? = some fm)
    (all : Distinguished s) :
    Distinguished (s.setMap slot next) ∧ config (s.setMap slot next) = config s := by
  have distinct : Distinct next.flows := by
    rw [refilled.flows]
    exact all fm (List.mem_of_getElem? found)
  exact ⟨distinguished_setMap s slot next all distinct,
    config_setMap s slot fm next found refilled.valid refilled.toQueue⟩

namespace Config
variable (c : Config F)

def completed : Bool := decide (0 < c.outSlotNum) && decide (c.slots.length = c.outSlotNum)

def valid (n : Nat) : Bool := ((c.slots[n]?).map Prod.fst).getD false

def toQueue (n : Nat) : Bool := ((c.slots[n]?).map Prod.snd).getD false

def stores (n : Int) : Bool := decide (0 ≤ n) && decide (n < c.outSlotNum)

end Config

theorem config_length (s : State F B) : (config s).slots.length = s.downflowmap.length :=
  List.length_map _

theorem config_completed (s : State F B) : (config s).completed = s.completed := by
  rw [Config.completed, State.completed, config_length]
  rfl

theorem config_toQueue (s : State F B) (slot : Nat) (fm : FlowMap F B)
    (found : s.downflowmap[slot]? = some fm) : (config s).toQueue slot = fm.toQueue := by
  simp [config, Config.toQueue, found]

theorem config_valid (s : State F B) (slot : Nat) :
    (config s).valid slot = ((s.downflowmap[slot]?).map FlowMap.valid).getD false := by
  simp only [config, Config.valid, List.getElem?_map, Option.map_map]
  rfl

theorem setOutput_cases (s t : State F B) (output : Option B) (n : Int)
    (taken : setOutput s output n = some t) :
    (((config s).stores n && s.enable) = false ∧ t = s) ∨
      ∃ fm, ((config s).stores n && s.enable) = true ∧ s.downflowmap[n.toNat]? = some fm ∧
        t = s.setMap n.toNat (fm.setOutput output) := by
  have range : (config s).stores n = true ↔ ¬(n < 0 ∨ (s.outSlotNum : Int) ≤ n) := by
    rw [Config.stores, Bool.and_eq_true, decide_eq_true_eq, decide_eq_true_eq, not_or, not_lt,
      not_le]
    rfl
  rw [setOutput] at taken
  split_ifs at taken with outside disabled
  · have stores : (config s).stores n = false := by
      rw [← Bool.not_eq_true, range]
      exact not_not.mpr outside
    exact .inl ⟨by rw [stores, Bool.false_and], (Option.some.inj taken).symm⟩
  · have enable : s.enable = false := by simpa using disabled
    exact .inl ⟨by rw [enable, Bool.and_false], (Option.some.inj taken).symm⟩
  · obtain ⟨fm, found, result⟩ := Option.bind_eq_some_iff.mp taken
    have enable : s.enable = true := by simpa using disabled
    split_ifs at result
    exact .inr ⟨fm, by rw [range.mpr outside, enable, Bool.and_true], found,
      (Option.some.inj result).symm⟩

theorem held_setOutput (fm : FlowMap F B) (output : Option B) :
    (fm.setOutput output).held = if fm.toQueue then fm.held ++ [output] else [output] := by
  cases queued : fm.toQueue <;> simp [FlowMap.setOutput, FlowMap.held, queued]

def parcels (fm : FlowMap F B) (ret : Bool) (buffer : Option B) : List (Parcel B) :=
  if ret then fm.held.map fun output => ⟨output, true⟩ else [⟨buffer, false⟩]

def configOf (self : F) (outputs : Table Output) : Config F :=
  ⟨self, outputs.num,
    outputs.slots.map fun slot => (slot.isSome, (slot.map Output.toQueue).getD false)⟩

theorem config_opened (self : F) (source : Bool) (outputs : Table Output)
    (related : B → List (Option B)) :
    config (opened self source outputs related) = configOf self outputs := by
  rw [config, configOf, opened, List.map_map]
  congr 2
  funext slot
  cases slot <;> rfl

theorem distinguished_opened (self : F) (source : Bool) (outputs : Table Output)
    (related : B → List (Option B)) :
    Distinguished (opened self source outputs related) := by
  intro fm member
  obtain ⟨slot, -, rfl⟩ := List.mem_map.mp member
  cases slot <;> exact List.nodup_nil

section Sending
variable [DecidableEq B]

theorem sendDown_cases (s t : State F B) (slot : Nat) (inputs : List (Option B)) (ret : Bool)
    (fresh : B) (taken : sendDown s slot inputs ret fresh = some t) :
    ∃ fm related buffer, s.downflowmap[slot]? = some fm ∧
      t = { (if ret then s.setMap slot fm.flushed else s) with
        related := related
        sent := s.sent ++ (parcels fm ret buffer).flatMap (handOut fm.flows) } := by
  obtain ⟨fm, found, result⟩ := Option.bind_eq_some_iff.mp taken
  cases ret with
  | false =>
      obtain ⟨⟨related, buffer⟩, -, result⟩ := Option.bind_eq_some_iff.mp result
      cases result
      exact ⟨fm, related, buffer, found, by simp [parcels]⟩
  | true =>
      rw [if_neg (by simp)] at result
      obtain ⟨related, -, result⟩ := Option.bind_eq_some_iff.mp result
      cases result
      exact ⟨fm, related, none, found, by simp [parcels, List.flatMap_map]⟩

end Sending

end Slots

/-! Each receiver on its own: to which slots it is connected, and what it gets. -/

section Networks
variable {F B : Type} [DecidableEq F]

@[ext] structure Network (F B : Type) where
  link : Nat → F → Option Int
  waiting : Nat → List (Option B)
  got : F → List (Int × Option (Option B))
  enable : Bool

namespace Config
variable (c : Config F)

def connects (down : F) (n : Int) : Bool :=
  c.completed && decide (n < c.slots.length) && decide (c.self ≠ down)

def next (net : Network F B) : Label F B → Network F B
  | .addDownFlow down n index =>
      if c.connects down n then
        { net with link := fun m flow =>
            if m = n.toNat ∧ flow = down then some index else net.link m flow }
      else net
  | .removeDownFlow down =>
      if c.completed then
        { net with link := fun m flow =>
            if c.valid m = true ∧ flow = down then none else net.link m flow }
      else net
  | .setOutput output n =>
      if c.stores n && net.enable then
        let waiting := if c.toQueue n.toNat then net.waiting n.toNat ++ [output] else [output]
        { net with waiting := Function.update net.waiting n.toNat waiting }
      else net
  | .sendDown n _ ret _ =>
      let round := if ret then (net.waiting n).map some else [none]
      { net with
        got := fun flow => net.got flow ++
          ((net.link n flow).map fun index => round.map fun buffer => (index, buffer)).getD []
        waiting :=
          if ret then Function.update net.waiting n (if c.toQueue n then [] else [none])
          else net.waiting }
  | .disable => { net with enable := false }

end Config

def Parcel.arrival (parcel : Parcel B) : Option (Option B) :=
  if parcel.output then some parcel.buffer else none

/-- What a flow received, without the buffers that stand for a failed round. -/
def arrivals (flow : F) (sent : List (F × Int × Parcel B)) : List (Int × Option (Option B)) :=
  (received flow sent).map fun entry => (entry.1, entry.2.arrival)

def network (s : State F B) : Network F B where
  link n flow := (s.downflowmap[n]?).bind fun fm => fm.flows.lookup flow
  waiting n := ((s.downflowmap[n]?).map FlowMap.held).getD []
  got flow := arrivals flow s.sent
  enable := s.enable

def Config.fresh (c : Config F) : Network F B where
  link _ _ := none
  waiting n := if n < c.slots.length then if c.toQueue n then [] else [none] else []
  got _ := []
  enable := true

theorem network_opened (self : F) (source : Bool) (outputs : Table Output)
    (related : B → List (Option B)) :
    network (opened self source outputs related) = (configOf self outputs).fresh := by
  refine Network.ext (funext fun n => funext fun flow => ?_) (funext fun n => ?_) rfl rfl
  · simp only [network, opened, Config.fresh, List.getElem?_map]
    rcases outputs.slots[n]? with _ | _ | output <;> rfl
  · simp only [network, opened, Config.fresh, Config.toQueue, configOf, List.getElem?_map,
      List.length_map]
    by_cases inside : n < outputs.slots.length
    · rw [if_pos inside, List.getElem?_eq_getElem inside]
      rcases outputs.slots[n] with _ | output
      · rfl
      · simp [FlowMap.held]
    · rw [if_neg inside, List.getElem?_eq_none (by omega)]
      rfl

theorem network_link (s : State F B) (slot : Nat) (fm : FlowMap F B)
    (found : s.downflowmap[slot]? = some fm) (flow : F) :
    (network s).link slot flow = fm.flows.lookup flow := by
  simp [network, found]

theorem network_waiting (s : State F B) (slot : Nat) (fm : FlowMap F B)
    (found : s.downflowmap[slot]? = some fm) : (network s).waiting slot = fm.held := by
  simp [network, found]

theorem network_setMap (s : State F B) (slot : Nat) (fm next : FlowMap F B)
    (found : s.downflowmap[slot]? = some fm) :
    network (s.setMap slot next) =
      { network s with
        link := fun n flow => if n = slot then next.flows.lookup flow else (network s).link n flow
        waiting := Function.update (network s).waiting slot next.held } := by
  ext n
  · simp only [network, setMap_getElem? s slot fm next found]
    split_ifs <;> rfl
  · by_cases same : n = slot
    · subst same
      simp [network, setMap_getElem? s n fm next found]
    · simp [network, setMap_getElem? s slot fm next found, same]
  · rfl
  · rfl

/-- What a step keeps, and how each receiver sees it. -/
structure Simulated (s : State F B) (label : Label F B) (t : State F B) : Prop where
  distinguished : Distinguished t
  sameConfig : config t = config s
  sameNetwork : network t = (config s).next (network s) label

theorem config_connects (s : State F B) (down : F) (n : Int) :
    (config s).connects down n = true ↔
      s.completed = true ∧ n < s.downflowmap.length ∧ s.self ≠ down := by
  rw [Config.connects, config_completed, config_length]
  simp only [Bool.and_eq_true, decide_eq_true_eq, and_assoc]
  rfl

theorem addDownFlow_cases (s t : State F B) (down : F) (n index : Int)
    (taken : addDownFlow s down n index = some t) :
    ((config s).connects down n = false ∧ t = s) ∨
      ∃ fm count, (config s).connects down n = true ∧ s.downflowmap[n.toNat]? = some fm ∧
        t = { s.setMap n.toNat (fm.addFlow down index) with downFlowNum := count } := by
  rw [addDownFlow] at taken
  by_cases connects : (config s).connects down n = true
  · obtain ⟨completed, below, other⟩ := (config_connects s down n).mp connects
    rw [if_neg (by simp [completed]), if_neg (by omega), if_neg other] at taken
    by_cases negative : n < 0
    · rw [if_pos negative] at taken
      cases taken
    rw [if_neg negative] at taken
    obtain ⟨fm, found, result⟩ := Option.bind_eq_some_iff.mp taken
    cases result
    exact .inr ⟨fm, _, connects, found, rfl⟩
  · refine .inl ⟨by simpa using connects, ?_⟩
    rw [config_connects] at connects
    by_cases completed : s.completed = true
    swap
    · rw [if_pos (by simpa using completed)] at taken
      exact (Option.some.inj taken).symm
    rw [if_neg (by simp [completed])] at taken
    by_cases beyond : (s.downflowmap.length : Int) ≤ n
    · rw [if_pos beyond] at taken
      exact (Option.some.inj taken).symm
    have itself : s.self = down := by
      by_contra other
      exact connects ⟨completed, by omega, other⟩
    rw [if_neg beyond, if_pos itself] at taken
    exact (Option.some.inj taken).symm

theorem network_relink (s : State F B) (slot : Nat) (fm next : FlowMap F B)
    (found : s.downflowmap[slot]? = some fm) (held : next.held = fm.held) :
    network (s.setMap slot next) =
      { network s with
        link := fun n flow =>
          if n = slot then next.flows.lookup flow else (network s).link n flow } := by
  rw [network_setMap s slot fm next found, held, ← network_waiting s slot fm found,
    Function.update_eq_self]

theorem network_refill (s : State F B) (slot : Nat) (fm next : FlowMap F B)
    (found : s.downflowmap[slot]? = some fm) (flows : next.flows = fm.flows) :
    network (s.setMap slot next) =
      { network s with waiting := Function.update (network s).waiting slot next.held } := by
  rw [network_setMap s slot fm next found, flows]
  refine Network.ext (funext fun n => funext fun flow => ?_) rfl rfl rfl
  by_cases same : n = slot
  · simp only [same, if_true, network_link s slot fm found]
  · simp only [same, if_false]

theorem addDownFlow_simulated (s t : State F B) (down : F) (n index : Int)
    (all : Distinguished s) (taken : addDownFlow s down n index = some t) :
    Simulated s (.addDownFlow down n index) t := by
  rcases addDownFlow_cases s t down n index taken with
    ⟨refused, rfl⟩ | ⟨fm, count, connects, found, rfl⟩
  · exact ⟨all, rfl, by simp [Config.next, refused]⟩
  · have distinct := distinct_upsert down index fm.flows (all fm (List.mem_of_getElem? found))
    refine ⟨distinguished_setMap s _ (fm.addFlow down index) all distinct,
      config_setMap s _ fm (fm.addFlow down index) found rfl rfl, ?_⟩
    refine (network_relink s _ fm (fm.addFlow down index) found rfl).trans ?_
    rw [Config.next, if_pos connects]
    refine Network.ext (funext fun m => funext fun flow => ?_) rfl rfl rfl
    by_cases slot : m = n.toNat
    · subst slot
      simp only [FlowMap.addFlow, lookup_upsert, true_and, if_true, network_link s _ fm found]
    · simp only [slot, false_and, if_false]

theorem removeDownFlow_simulated (s : State F B) (down : F) (all : Distinguished s) :
    Simulated s (.removeDownFlow down) (removeDownFlow s down) := by
  rw [removeDownFlow]
  by_cases completed : s.completed = true
  swap
  · rw [if_pos (by simpa using completed)]
    exact ⟨all, rfl, by simp [Config.next, config_completed, completed]⟩
  rw [if_neg (by simp [completed])]
  refine ⟨?_, ?_, ?_⟩
  · intro fm member
    obtain ⟨old, listed, rfl⟩ := List.mem_map.mp member
    split_ifs
    · exact distinct_without down old.flows (all old listed)
    · exact all old listed
  · rw [config, config, List.map_map]
    congr 2
    funext fm
    simp only [Function.comp_apply]
    split_ifs <;> rfl
  · rw [Config.next, config_completed, if_pos completed]
    refine Network.ext (funext fun n => funext fun flow => ?_) (funext fun n => ?_) rfl rfl
    · simp only [network, config_valid, List.getElem?_map]
      cases found : s.downflowmap[n]? with
      | none => simp
      | some fm =>
          by_cases valid : fm.valid = true
          · simp [valid, FlowMap.removeFlow, lookup_without]
          · simp [valid]
    · simp only [network, List.getElem?_map, Option.map_map]
      congr 2
      funext fm
      simp only [Function.comp_apply]
      split_ifs <;> rfl

theorem setOutput_simulated (s t : State F B) (output : Option B) (n : Int)
    (all : Distinguished s) (taken : setOutput s output n = some t) :
    Simulated s (.setOutput output n) t := by
  rcases setOutput_cases s t output n taken with ⟨refused, rfl⟩ | ⟨fm, stored, found, rfl⟩
  · refine ⟨all, rfl, ?_⟩
    rw [Config.next, if_neg (by simpa [network] using refused)]
  · have refilled := refilled_setOutput fm output
    obtain ⟨distinguished, sameConfig⟩ := refilled.kept found all
    refine ⟨distinguished, sameConfig, ?_⟩
    have accepted : ((config s).stores n && (network s).enable) = true := stored
    rw [network_refill s _ fm _ found refilled.flows, Config.next, if_pos accepted,
      config_toQueue s _ fm found, network_waiting s _ fm found, held_setOutput]

theorem arrivals_handOuts (flow : F) (sent : List (F × Int × Parcel B))
    (receivers : List (F × Int)) (items : List (Parcel B)) (distinct : Distinct receivers) :
    arrivals flow (sent ++ items.flatMap (handOut receivers)) =
      arrivals flow sent ++ ((receivers.lookup flow).map fun index =>
        (items.map Parcel.arrival).map fun buffer => (index, buffer)).getD [] := by
  rw [arrivals, received_append, received_handOuts flow receivers items distinct, List.map_append]
  cases receivers.lookup flow <;> simp [arrivals]

end Networks

section Rounds
variable {F B : Type} [DecidableEq F] [DecidableEq B]

theorem sendDown_simulated (s t : State F B) (slot : Nat) (inputs : List (Option B)) (ret : Bool)
    (fresh : B) (all : Distinguished s) (taken : sendDown s slot inputs ret fresh = some t) :
    Simulated s (.sendDown slot inputs ret fresh) t := by
  obtain ⟨fm, related, buffer, found, rfl⟩ := sendDown_cases s t slot inputs ret fresh taken
  have distinct := all fm (List.mem_of_getElem? found)
  have got : ∀ flow, arrivals flow (s.sent ++ (parcels fm ret buffer).flatMap (handOut fm.flows)) =
      ((config s).next (network s) (.sendDown slot inputs ret fresh)).got flow := by
    intro flow
    rw [arrivals_handOuts flow s.sent fm.flows _ distinct]
    simp only [Config.next, network_link s slot fm found, network_waiting s slot fm found]
    cases ret <;> simp [parcels, Parcel.arrival, network, Function.comp_def]
  cases ret with
  | false => exact ⟨all, rfl, Network.ext rfl rfl (funext got) rfl⟩
  | true =>
      have refilled := refilled_flushed fm
      have held : fm.flushed.held = if fm.toQueue then [] else [none] := by
        cases queued : fm.toQueue <;> simp [FlowMap.flushed, FlowMap.held, queued]
      have seen := network_refill s slot fm fm.flushed found refilled.flows
      have links := congrArg Network.link seen
      have refills := congrArg Network.waiting seen
      obtain ⟨distinguished, sameConfig⟩ := refilled.kept found all
      refine ⟨distinguished, sameConfig, Network.ext links ?_ (funext got) rfl⟩
      refine refills.trans ?_
      rw [held, Config.next, config_toQueue s slot fm found]
      rfl

theorem step_simulated (s t : State F B) (label : Label F B) (all : Distinguished s)
    (taken : step s label = some t) : Simulated s label t := by
  cases label with
  | addDownFlow down n index => exact addDownFlow_simulated s t down n index all taken
  | removeDownFlow down =>
      cases taken
      exact removeDownFlow_simulated s down all
  | setOutput output n => exact setOutput_simulated s t output n all taken
  | sendDown slot inputs ret fresh => exact sendDown_simulated s t slot inputs ret fresh all taken
  | disable =>
      cases taken
      exact ⟨all, rfl, rfl⟩

/-- By induction on the run, from its end: each step is the next of the receivers' views. -/
theorem run_simulated (start s : State F B) (labels : List (Label F B)) (all : Distinguished start)
    (run : exec step start labels = some s) :
    Distinguished s ∧ config s = config start ∧
      network s = labels.foldl (config start).next (network start) := by
  induction labels using List.reverseRecOn generalizing s with
  | nil =>
      cases run
      exact ⟨all, rfl, rfl⟩
  | append_singleton labels label ih =>
      obtain ⟨m, before, last⟩ := (exec_concat step start s labels label).mp run
      obtain ⟨distinguished, sameConfig, sameNetwork⟩ := ih m before
      have one := step_simulated m s label distinguished last
      refine ⟨one.distinguished, one.sameConfig.trans sameConfig, ?_⟩
      rw [one.sameNetwork, sameConfig, sameNetwork, List.foldl_concat]

/-- Whatever calls are made and whatever rounds are sent, each receiver sees its own connections
and outputs and nothing of how the lists are kept. -/
theorem receivers_see_calls (self : F) (source : Bool) (outputs : Table Output)
    (related : B → List (Option B)) (labels : List (Label F B)) (s : State F B)
    (run : exec step (opened self source outputs related) labels = some s) :
    network s = labels.foldl (configOf self outputs).next (configOf self outputs).fresh := by
  have simulated := run_simulated _ s labels (distinguished_opened self source outputs related) run
  rw [simulated.2.2, config_opened, network_opened]

def oneQueue : Table Output := ⟨[some ⟨true, .holdInput⟩], 1, 1⟩

theorem receivers_see_calls_oneQueue :
    ∃ s : State Nat Nat,
      exec step (opened 0 true oneQueue fun _ => [])
        [.addDownFlow 1 0 3, .setOutput (some 5) 0, .addDownFlow 2 0 4, .addDownFlow 1 0 6,
          .sendDown 0 [some 8] true 9, .removeDownFlow 1] = some s ∧
      s.sent = [(1, 6, ⟨some 5, true⟩), (2, 4, ⟨some 5, true⟩)] ∧
      network s = List.foldl (configOf 0 oneQueue).next (configOf 0 oneQueue).fresh
        [.addDownFlow 1 0 3, .setOutput (some 5) 0, .addDownFlow 2 0 4, .addDownFlow 1 0 6,
          .sendDown 0 [some 8] true 9, .removeDownFlow 1] :=
  ⟨_, rfl, rfl, receivers_see_calls 0 true oneQueue (fun _ => []) _ _ rfl⟩

end Rounds

section Delivery
variable {F B : Type}

def storedAt (n : Nat) : Label F B → Option (Option B)
  | .setOutput output m => if m = n then some output else none
  | _ => none

/-- The label neither changes the connections of the flow nor disables the sender. -/
def Steady (down : F) : Label F B → Prop
  | .addDownFlow flow _ _ => flow ≠ down
  | .removeDownFlow flow => flow ≠ down
  | .disable => False
  | _ => True

/-- The flow is connected to one slot, which stores outputs in a queue. -/
structure Connected (c : Config F) (net : Network F B) (down : F) (n : Nat) (index : Int) :
    Prop where
  link : ∀ m, net.link m down = if m = n then some index else none
  stores : c.stores n = true
  toQueue : c.toQueue n = true
  enable : net.enable = true

/-- The flow got `round` in between, all at its index, and what it got and what still waits is
what waited and what was stored, in order. -/
structure Delivered (down : F) (n : Nat) (index : Int) (net : Network F B)
    (stored : List (Option B)) (round : List (Int × Option (Option B))) (next : Network F B) :
    Prop where
  got : next.got down = net.got down ++ round
  atIndex : ∀ entry ∈ round, entry.1 = index
  inOrder : round.filterMap Prod.snd ++ next.waiting n = net.waiting n ++ stored

variable {net : Network F B} {down : F} {n : Nat} {index : Int}

theorem delivered_nothing (next : Network F B) (got : next.got down = net.got down)
    (waiting : next.waiting n = net.waiting n) : Delivered down n index net [] [] next :=
  ⟨by rw [got, List.append_nil], by simp, by rw [waiting]; simp⟩

theorem Delivered.trans {mid next : Network F B} {first second : List (Option B)}
    {round later : List (Int × Option (Option B))}
    (one : Delivered down n index net first round mid)
    (two : Delivered down n index mid second later next) :
    Delivered down n index net (first ++ second) (round ++ later) next where
  got := by rw [two.got, one.got, List.append_assoc]
  atIndex entry member := (List.mem_append.mp member).elim (one.atIndex entry) (two.atIndex entry)
  inOrder := by
    rw [List.filterMap_append, List.append_assoc, two.inOrder, ← List.append_assoc, one.inOrder,
      List.append_assoc]

variable {c : Config F}

theorem Connected.relink (connected : Connected c net down n index) (link : Nat → F → Option Int)
    (same : ∀ m, link m down = net.link m down) :
    Connected c { net with link := link } down n index :=
  ⟨fun m => (same m).trans (connected.link m), connected.stores, connected.toQueue,
    connected.enable⟩

variable [DecidableEq F]

theorem next_connected (connected : Connected c net down n index) (label : Label F B)
    (steady : Steady down label) : Connected c (c.next net label) down n index := by
  cases label with
  | addDownFlow flow m i =>
      have apart : ¬down = flow := fun same => steady same.symm
      rw [Config.next]
      split_ifs
      · exact connected.relink _ fun k => by simp [apart]
      · exact connected
  | removeDownFlow flow =>
      have apart : ¬down = flow := fun same => steady same.symm
      rw [Config.next]
      split_ifs
      · exact connected.relink _ fun k => by simp [apart]
      · exact connected
  | setOutput output m =>
      obtain ⟨link, stores, toQueue, enable⟩ := connected
      rw [Config.next]
      split_ifs <;> exact ⟨link, stores, toQueue, enable⟩
  | sendDown m inputs ret fresh =>
      exact ⟨connected.link, connected.stores, connected.toQueue, connected.enable⟩
  | disable => exact steady.elim

theorem setOutput_delivered (connected : Connected c net down n index) (output : Option B)
    (m : Int) :
    Delivered down n index net (storedAt n (.setOutput output m : Label F B)).toList []
      (c.next net (.setOutput output m)) := by
  by_cases here : m = n
  · subst here
    have accepted : (c.stores n && net.enable) = true := by
      rw [connected.stores, connected.enable, Bool.and_true]
    rw [Config.next, if_pos accepted]
    exact ⟨by simp, by simp, by simp [storedAt, connected.toQueue]⟩
  · have nothing : (storedAt n (.setOutput output m : Label F B)).toList = [] := by
      simp [storedAt, here]
    rw [nothing, Config.next]
    by_cases accepted : (c.stores m && net.enable) = true
    · rw [if_pos accepted]
      have range : 0 ≤ m := by
        rw [Config.stores] at accepted
        simp only [Bool.and_eq_true, decide_eq_true_eq] at accepted
        exact accepted.1.1
      have apart : n ≠ m.toNat := by omega
      exact delivered_nothing _ rfl (Function.update_of_ne apart _ _)
    · rw [if_neg accepted]
      exact delivered_nothing _ rfl rfl

theorem sendDown_delivered (connected : Connected c net down n index) (m : Nat)
    (inputs : List (Option B)) (ret : Bool) (fresh : B) :
    ∃ round, Delivered down n index net [] round (c.next net (.sendDown m inputs ret fresh)) := by
  by_cases here : m = n
  · subst here
    have link : net.link m down = some index := by rw [connected.link, if_pos rfl]
    cases ret with
    | false =>
        exact ⟨[(index, none)], by simp [Config.next, link], by simp, by simp [Config.next]⟩
    | true =>
        refine ⟨(net.waiting m).map fun buffer => (index, some buffer), ?_, by simp, ?_⟩
        · simp [Config.next, link]
        · simp [Config.next, connected.toQueue, List.filterMap_map, Function.comp_def]
  · have link : net.link m down = none := by rw [connected.link, if_neg here]
    refine ⟨[], delivered_nothing _ (by simp [Config.next, link]) ?_⟩
    cases ret with
    | false => rfl
    | true => exact Function.update_of_ne (fun same => here same.symm) _ _

theorem next_delivered (connected : Connected c net down n index) (label : Label F B)
    (steady : Steady down label) :
    ∃ round, Delivered down n index net (storedAt n label).toList round (c.next net label) := by
  cases label with
  | addDownFlow flow m i =>
      refine ⟨[], ?_⟩
      rw [Config.next]
      split_ifs <;> exact delivered_nothing _ rfl rfl
  | removeDownFlow flow =>
      refine ⟨[], ?_⟩
      rw [Config.next]
      split_ifs <;> exact delivered_nothing _ rfl rfl
  | setOutput output m => exact ⟨[], setOutput_delivered connected output m⟩
  | sendDown m inputs ret fresh => exact sendDown_delivered connected m inputs ret fresh
  | disable => exact steady.elim

theorem run_delivered (connected : Connected c net down n index) (labels : List (Label F B))
    (steady : ∀ label ∈ labels, Steady down label) :
    ∃ round, Delivered down n index net (labels.filterMap (storedAt n)) round
      (labels.foldl c.next net) := by
  induction labels generalizing net with
  | nil => exact ⟨[], delivered_nothing _ rfl rfl⟩
  | cons label labels ih =>
      have now := steady label List.mem_cons_self
      obtain ⟨round, one⟩ := next_delivered connected label now
      obtain ⟨later, rest⟩ := ih (next_connected connected label now)
        fun other member => steady other (List.mem_cons_of_mem _ member)
      have stored : (label :: labels).filterMap (storedAt n) =
          (storedAt n label).toList ++ labels.filterMap (storedAt n) := by
        rw [List.filterMap_cons]
        cases storedAt n label <;> rfl
      rw [stored]
      exact ⟨round ++ later, one.trans rest⟩

end Delivery

section Runs
variable {F B : Type} [DecidableEq F] [DecidableEq B]

/-- While a flow is connected to one queueing slot, it gets every output that is stored there,
once and in order, whatever other flows are connected or removed and whatever rounds fail. -/
theorem connected_flow_gets_all (self : F) (source : Bool) (outputs : Table Output)
    (related : B → List (Option B)) (before labels : List (Label F B)) (m s : State F B)
    (first : exec step (opened self source outputs related) before = some m)
    (run : exec step m labels = some s) (down : F) (n : Nat) (index : Int)
    (connected : Connected (configOf self outputs) (network m) down n index)
    (steady : ∀ label ∈ labels, Steady down label) :
    ∃ round, arrivals down s.sent = arrivals down m.sent ++ round ∧
      (∀ entry ∈ round, entry.1 = index) ∧
      round.filterMap Prod.snd ++ (network s).waiting n =
        (network m).waiting n ++ labels.filterMap (storedAt n) := by
  have opening := run_simulated _ m before (distinguished_opened self source outputs related) first
  have simulated := run_simulated m s labels opening.1 run
  have same : config m = configOf self outputs := by rw [opening.2.1, config_opened]
  obtain ⟨round, delivered⟩ := run_delivered connected labels steady
  rw [← same, ← simulated.2.2] at delivered
  exact ⟨round, delivered.got, delivered.atIndex, delivered.inOrder⟩

def oneQueueCalls : List (Label Nat Nat) :=
  [.setOutput (some 5) 0, .sendDown 0 [some 8] false 9, .removeDownFlow 2, .setOutput (some 6) 0,
    .sendDown 0 [some 8] true 10, .setOutput (some 7) 0]

theorem connected_flow_gets_all_oneQueue :
    ∃ m s : State Nat Nat,
      exec step (opened 0 true oneQueue fun _ => []) [.addDownFlow 1 0 3, .addDownFlow 2 0 4] =
        some m ∧
      exec step m oneQueueCalls = some s ∧
      arrivals 1 s.sent = [(3, none), (3, some (some 5)), (3, some (some 6))] ∧
      ∃ round, arrivals 1 s.sent = arrivals 1 m.sent ++ round ∧ (∀ entry ∈ round, entry.1 = 3) ∧
        round.filterMap Prod.snd ++ (network s).waiting 0 =
          (network m).waiting 0 ++ oneQueueCalls.filterMap (storedAt 0) := by
  refine ⟨_, _, rfl, rfl, rfl, connected_flow_gets_all 0 true oneQueue (fun _ => [])
    [.addDownFlow 1 0 3, .addDownFlow 2 0 4] oneQueueCalls _ _ rfl rfl 1 0 3 ⟨?_, rfl, rfl, rfl⟩ ?_⟩
  · intro slot
    cases slot <;> rfl
  · simp [oneQueueCalls, Steady]

end Runs

end WfyApp.FlowRouting
