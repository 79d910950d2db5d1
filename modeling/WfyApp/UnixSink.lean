import WfyApp.ProtoDispatch
import WfyApp.StepSystem

/-! Writing to the clients of the Unix socket (unix_ipc.c), one system call at a time:
`unix_sink_send` with its lock, the end of `client_thread` that marks the descriptor
dead, and the peer that goes away. Any thread may send any frame to any client at any
time. What `write()` does on a connection whose peer has closed depends on the
disposition of SIGPIPE, which the start-up code (main.c) leaves as it is. -/

namespace WfyApp.UnixSink
open ByteText ProtoDispatch StepSystem

inductive StartupCall where
  | logInit
  | startThread (name : String)
  | ignoreSigpipe
deriving DecidableEq

def startup : List StartupCall :=
  [.logInit, .startThread "time_sync_thread", .startThread "uart_log_thread",
    .startThread "sys_stat_thread", .startThread "ble_gatt_thread",
    .startThread "wifi_switch_thread", .startThread "unix_ipc_thread"]

inductive Disposition where
  | endsProcess
  | ignored
deriving DecidableEq

def sigpipe : Disposition := if .ignoreSigpipe ∈ startup then .ignored else .endsProcess

structure Send where
  frame : Bytes
  total : Nat
  total_le : total ≤ frame.length
deriving DecidableEq

def Send.start (frame : Bytes) : Send := ⟨frame, 0, Nat.zero_le _⟩

def Send.Torn (s : Send) : Prop := 0 < s.total ∧ s.total < s.frame.length
deriving Decidable

/-- The thread that has the client's lock, and whether its loop was left by `break` or
not entered. -/
structure Holder where
  thread : Nat
  send : Send
  stopped : Bool
deriving DecidableEq

structure Client where
  fdOpen : Bool
  peerOpen : Bool
  ended : List Send
  holder : Option Holder
  socket : Bytes
deriving DecidableEq

def Client.accepted : Client := ⟨true, true, [], none, []⟩

inductive WriteResult where
  | wrote (n : Nat)
  | zero
  | eintr
  | error
deriving DecidableEq

inductive SinkLabel where
  | lock (thread : Nat) (frame : Bytes)
  | write (result : WriteResult)
  | unlock
  | closeFd
  | peerCloses
deriving DecidableEq

def Client.write (c : Client) (h : Holder) : WriteResult → Option (Client × Bool)
  | .wrote n =>
      if fits : c.peerOpen = true ∧ 1 ≤ n ∧ h.send.total + n ≤ h.send.frame.length then
        some ({ c with
          holder := some { h with send := ⟨h.send.frame, h.send.total + n, fits.2.2⟩ }
          socket := c.socket ++ (h.send.frame.drop h.send.total).take n }, false)
      else none
  | .zero =>
      if c.peerOpen then some ({ c with holder := some { h with stopped := true } }, false) else none
  | .eintr => if c.peerOpen then some (c, false) else none
  | .error =>
      if c.peerOpen ∨ sigpipe = .ignored then
        some ({ c with holder := some { h with stopped := true } }, false)
      else some (c, true)

def Client.step (c : Client) : SinkLabel → Option (Client × Bool)
  | .lock thread frame =>
      match c.holder with
      | none => some ({ c with holder := some ⟨thread, .start frame, !c.fdOpen⟩ }, false)
      | some _ => none
  | .write result =>
      match c.holder with
      | none => none
      | some h =>
          if h.stopped = false ∧ h.send.total < h.send.frame.length then c.write h result else none
  | .unlock =>
      match c.holder with
      | none => none
      | some h =>
          if h.stopped = true ∨ h.send.total = h.send.frame.length then
            some ({ c with ended := c.ended ++ [h.send], holder := none }, false)
          else none
  | .closeFd =>
      match c.holder with
      | none => some ({ c with fdOpen := false }, false)
      | some _ => none
  | .peerCloses => some ({ c with peerOpen := false }, false)

structure Daemon where
  clients : List Client
  alive : Bool
deriving DecidableEq

def Daemon.initial : Daemon := ⟨[], true⟩

inductive Label where
  | accept
  | act (client : Nat) (label : SinkLabel)
deriving DecidableEq

def step (s : Daemon) : Label → Option Daemon
  | .accept => if s.alive then some { s with clients := s.clients ++ [.accepted] } else none
  | .act i l =>
      if s.alive then
        (s.clients[i]?).bind fun c =>
          (c.step l).map fun next => ⟨s.clients.set i next.1, !next.2⟩
      else none

def Client.sends (c : Client) : List Send := c.ended ++ (c.holder.map Holder.send).toList

/-- The bytes that reached the socket are the beginning of complete frames that were
sent, in the order of the sends, and no frame is followed by bytes of another unless it
was written in full. -/
structure Delivered (c : Client) : Prop where
  framed : ∃ fs : List Bytes, fs.Sublist (c.sends.map Send.frame) ∧ c.socket <+: fs.flatten
  unbroken : c.sends.Pairwise fun s t => s.Torn → t.total = 0

inductive Client.Steps (c : Client) : SinkLabel → Client → Bool → Prop where
  | lock (thread : Nat) (frame : Bytes) (free : c.holder = none) :
      Steps c (.lock thread frame)
        { c with holder := some ⟨thread, .start frame, !c.fdOpen⟩ } false
  | wrote (h : Holder) (n : Nat) (held : c.holder = some h) (running : h.stopped = false)
      (peer : c.peerOpen = true) (pos : 1 ≤ n) (fits : h.send.total + n ≤ h.send.frame.length) :
      Steps c (.write (.wrote n))
        { c with
          holder := some { h with send := ⟨h.send.frame, h.send.total + n, fits⟩ }
          socket := c.socket ++ (h.send.frame.drop h.send.total).take n } false
  | stops (h : Holder) (result : WriteResult) (held : c.holder = some h)
      (running : h.stopped = false) (inside : h.send.total < h.send.frame.length)
      (failed : result = .zero ∨ result = .error) (peer : c.peerOpen = true ∨ sigpipe = .ignored) :
      Steps c (.write result) { c with holder := some { h with stopped := true } } false
  | interrupted (peer : c.peerOpen = true) : Steps c (.write .eintr) c false
  | killed (h : Holder) (held : c.holder = some h) (peer : c.peerOpen = false)
      (ends : sigpipe = .endsProcess) : Steps c (.write .error) c true
  | unlock (h : Holder) (held : c.holder = some h)
      (over_ : h.stopped = true ∨ h.send.total = h.send.frame.length) :
      Steps c .unlock { c with ended := c.ended ++ [h.send], holder := none } false
  | closeFd (free : c.holder = none) : Steps c .closeFd { c with fdOpen := false } false
  | peerCloses : Steps c .peerCloses { c with peerOpen := false } false

theorem Client.write_steps {c c' : Client} {h : Holder} {result : WriteResult} {killed : Bool}
    (held : c.holder = some h) (running : h.stopped = false)
    (inside : h.send.total < h.send.frame.length)
    (wrote : c.write h result = some (c', killed)) : c.Steps (.write result) c' killed := by
  cases result with
  | wrote n =>
      rw [Client.write] at wrote
      split_ifs at wrote with fits
      obtain ⟨rfl, rfl⟩ := Prod.mk.inj (Option.some.inj wrote)
      exact .wrote h n held running fits.1 fits.2.1 fits.2.2
  | zero =>
      rw [Client.write] at wrote
      split_ifs at wrote with peer
      obtain ⟨rfl, rfl⟩ := Prod.mk.inj (Option.some.inj wrote)
      exact .stops h .zero held running inside (.inl rfl) (.inl peer)
  | eintr =>
      rw [Client.write] at wrote
      split_ifs at wrote with peer
      obtain ⟨rfl, rfl⟩ := Prod.mk.inj (Option.some.inj wrote)
      exact .interrupted peer
  | error =>
      rw [Client.write] at wrote
      split_ifs at wrote with survives
      · obtain ⟨rfl, rfl⟩ := Prod.mk.inj (Option.some.inj wrote)
        exact .stops h .error held running inside (.inr rfl) survives
      · obtain ⟨rfl, rfl⟩ := Prod.mk.inj (Option.some.inj wrote)
        obtain ⟨peer, ignored⟩ := not_or.mp survives
        exact .killed h held (Bool.eq_false_iff.mpr peer) rfl

theorem Client.step_steps {c c' : Client} {l : SinkLabel} {killed : Bool}
    (stepped : c.step l = some (c', killed)) : c.Steps l c' killed := by
  cases l with
  | lock thread frame =>
      rw [Client.step] at stepped
      split at stepped
      · rename_i free
        obtain ⟨rfl, rfl⟩ := Prod.mk.inj (Option.some.inj stepped)
        exact .lock thread frame free
      · cases stepped
  | write result =>
      rw [Client.step] at stepped
      split at stepped
      · cases stepped
      · rename_i h held
        split_ifs at stepped with running
        exact Client.write_steps held running.1 running.2 stepped
  | unlock =>
      rw [Client.step] at stepped
      split at stepped
      · cases stepped
      · rename_i h held
        split_ifs at stepped with done
        obtain ⟨rfl, rfl⟩ := Prod.mk.inj (Option.some.inj stepped)
        exact .unlock h held done
  | closeFd =>
      rw [Client.step] at stepped
      split at stepped
      · rename_i free
        obtain ⟨rfl, rfl⟩ := Prod.mk.inj (Option.some.inj stepped)
        exact .closeFd free
      · cases stepped
  | peerCloses =>
      obtain ⟨rfl, rfl⟩ := Prod.mk.inj (Option.some.inj stepped)
      exact .peerCloses

/-- What reached the socket is what the sends wrote, in the order of their locks. A send
on a dead descriptor was not started. -/
structure ClientInv (c : Client) : Prop where
  socket : c.socket = c.sends.flatMap fun s => s.frame.take s.total
  dropped : ∀ h, c.holder = some h → c.fdOpen = false → h.stopped = true ∧ h.send.total = 0

theorem clientInv_accepted : ClientInv .accepted :=
  ⟨rfl, fun h held => by cases held⟩

theorem sends_none {c : Client} (free : c.holder = none) : c.sends = c.ended := by
  rw [Client.sends, free, Option.map_none, Option.toList_none, List.append_nil]

theorem sends_some {c : Client} {h : Holder} (held : c.holder = some h) :
    c.sends = c.ended ++ [h.send] := by
  rw [Client.sends, held, Option.map_some, Option.toList_some]

theorem ClientInv.step {c c' : Client} {l : SinkLabel} {killed : Bool} (inv : ClientInv c)
    (steps : c.Steps l c' killed) : ClientInv c' := by
  have written := inv.socket
  cases steps with
  | lock thread frame free =>
      refine ⟨?_, ?_⟩
      · rw [sends_none free] at written
        simp [Client.sends, Send.start, written]
      · intro h same closed
        cases same
        exact ⟨congrArg not closed, rfl⟩
  | wrote h n held running peer pos fits =>
      rw [sends_some held] at written
      refine ⟨?_, ?_⟩
      · simp [Client.sends, written, List.take_add]
      · intro h' same closed
        have dead := (inv.dropped h held closed).1
        rw [running] at dead
        cases dead
  | stops h result held running inside failed peer =>
      rw [sends_some held] at written
      refine ⟨?_, ?_⟩
      · simp [Client.sends, written]
      · intro h' same closed
        cases same
        exact ⟨rfl, (inv.dropped h held closed).2⟩
  | interrupted peer => exact inv
  | killed h held peer ends => exact inv
  | unlock h held done =>
      rw [sends_some held] at written
      refine ⟨?_, ?_⟩
      · simp [Client.sends, written]
      · intro h' same
        cases same
  | closeFd free =>
      refine ⟨written, ?_⟩
      intro h held
      rw [free] at held
      cases held
  | peerCloses => exact ⟨written, inv.dropped⟩

theorem bytes_of_not_torn {s : Send} (whole : ¬ s.Torn) :
    s.frame.take s.total = [] ∨ s.frame.take s.total = s.frame := by
  have le := s.total_le
  rcases Nat.eq_zero_or_pos s.total with none | pos
  · rw [none, List.take_zero]
    exact .inl rfl
  · rw [List.take_of_length_le (by rw [Send.Torn] at whole; omega)]
    exact .inr rfl

theorem framed_of_pairwise (sends : List Send)
    (unbroken : sends.Pairwise fun s t => s.Torn → t.total = 0) :
    ∃ fs : List Bytes, fs.Sublist (sends.map Send.frame) ∧
      (sends.flatMap fun s => s.frame.take s.total) <+: fs.flatten := by
  induction unbroken with
  | nil => exact ⟨[], .slnil, List.nil_prefix⟩
  | @cons s sends later _ ih =>
      obtain ⟨fs, sub, initial⟩ := ih
      rw [List.map_cons, List.flatMap_cons]
      by_cases torn : s.Torn
      · have rest : (sends.flatMap fun t => t.frame.take t.total) = [] := by
          rw [List.flatMap_eq_nil_iff]
          intro t member
          rw [later t member torn, List.take_zero]
        refine ⟨[s.frame], List.singleton_sublist.mpr (List.mem_cons_self ..), ?_⟩
        rw [rest, List.append_nil, List.flatten_singleton]
        exact List.take_prefix _ _
      · rcases bytes_of_not_torn torn with none | all
        · refine ⟨fs, sub.cons _, ?_⟩
          rw [none, List.nil_append]
          exact initial
        · refine ⟨s.frame :: fs, sub.cons_cons _, ?_⟩
          rw [all, List.flatten_cons, List.prefix_append_right_inj]
          exact initial

theorem ClientInv.delivered_iff {c : Client} (inv : ClientInv c) :
    Delivered c ↔ c.sends.Pairwise fun s t => s.Torn → t.total = 0 := by
  refine ⟨fun delivered => delivered.unbroken, fun unbroken => ⟨?_, unbroken⟩⟩
  rw [inv.socket]
  exact framed_of_pairwise c.sends unbroken

/-- A write of at least one byte is made only if no earlier send on the client ended
inside its frame. -/
def WriteAfterWhole (c : Client) : SinkLabel → Prop
  | .write (.wrote _) => ∀ s ∈ c.ended, ¬ s.Torn
  | _ => True

theorem pairwise_concat (sends : List Send) (s : Send) :
    (sends ++ [s]).Pairwise (fun s t => s.Torn → t.total = 0) ↔
      sends.Pairwise (fun s t => s.Torn → t.total = 0) ∧ ∀ t ∈ sends, t.Torn → s.total = 0 := by
  simp [List.pairwise_append]

theorem delivered_step {c c' : Client} {l : SinkLabel} {killed : Bool} (inv : ClientInv c)
    (steps : c.Steps l c' killed) : Delivered c' ↔ Delivered c ∧ WriteAfterWhole c l := by
  rw [inv.delivered_iff, (inv.step steps).delivered_iff]
  cases steps with
  | lock thread frame free =>
      rw [sends_none free, sends_some (h := ⟨thread, .start frame, !c.fdOpen⟩) rfl, pairwise_concat]
      simp [WriteAfterWhole, Send.start]
  | wrote h n held running peer pos fits =>
      rw [sends_some held, sends_some rfl, pairwise_concat, pairwise_concat, WriteAfterWhole]
      constructor
      · rintro ⟨kept, none⟩
        have whole : ∀ t ∈ c.ended, ¬ t.Torn := by
          intro t member torn
          have zero : h.send.total + n = 0 := none t member torn
          omega
        exact ⟨⟨kept, fun t member torn => absurd torn (whole t member)⟩, whole⟩
      · rintro ⟨⟨kept, _⟩, whole⟩
        exact ⟨kept, fun t member torn => absurd torn (whole t member)⟩
  | stops h result held running inside failed peer =>
      rw [sends_some held, sends_some rfl]
      rcases failed with rfl | rfl <;> simp [WriteAfterWhole]
  | interrupted peer => simp [WriteAfterWhole]
  | killed h held peer ends => simp [WriteAfterWhole]
  | unlock h held done =>
      rw [sends_some held, sends_none rfl]
      simp [WriteAfterWhole]
  | closeFd free => simp [WriteAfterWhole, Client.sends]
  | peerCloses => simp [WriteAfterWhole, Client.sends]

inductive Steps (s : Daemon) : Label → Daemon → Prop where
  | accept (alive : s.alive = true) :
      Steps s .accept { s with clients := s.clients ++ [.accepted] }
  | act (i : Nat) (l : SinkLabel) (c c' : Client) (killed : Bool) (alive : s.alive = true)
      (found : s.clients[i]? = some c) (steps : c.Steps l c' killed) :
      Steps s (.act i l) ⟨s.clients.set i c', !killed⟩

theorem step_steps {s s' : Daemon} {l : Label} (stepped : step s l = some s') : Steps s l s' := by
  cases l with
  | accept =>
      rw [step] at stepped
      split_ifs at stepped with alive
      cases stepped
      exact .accept alive
  | act i l =>
      rw [step] at stepped
      split_ifs at stepped with alive
      obtain ⟨c, found, acted⟩ := Option.bind_eq_some_iff.mp stepped
      obtain ⟨⟨c', killed⟩, moved, rfl⟩ := Option.map_eq_some_iff.mp acted
      exact .act i l c c' killed alive found (Client.step_steps moved)

def Inv (s : Daemon) : Prop := ∀ c ∈ s.clients, ClientInv c

theorem inv_step (s : Daemon) (l : Label) (s' : Daemon) (inv : Inv s)
    (stepped : step s l = some s') : Inv s' := by
  cases step_steps stepped with
  | accept alive =>
      intro c member
      rcases List.mem_append.mp member with old | new
      · exact inv c old
      · rw [List.mem_singleton.mp new]
        exact clientInv_accepted
  | act i l c c' killed alive found steps =>
      intro d member
      rcases List.mem_or_eq_of_mem_set member with old | rfl
      · exact inv d old
      · exact (inv c (List.mem_of_getElem? found)).step steps

section Results

/-- What the results of `write()` on a client say: whether the send that took the lock last got
bytes out, and whether a send failed after it had. -/
structure Progress where
  begun : Bool
  cut : Bool

/-- A failure is a result 0 or an error other than EINTR. -/
def Progress.next (p : Progress) : SinkLabel → Progress
  | .lock _ _ => ⟨false, p.cut⟩
  | .write (.wrote _) => ⟨true, p.cut⟩
  | .write .zero | .write .error => ⟨p.begun, p.cut || p.begun⟩
  | .write .eintr | .unlock | .closeFd | .peerCloses => p

def progress (labels : List SinkLabel) : Progress := labels.foldl Progress.next ⟨false, false⟩

/-- Once a `write()` has failed after an earlier one of the same send took bytes, no `write()`
takes bytes. -/
def QuietAfterCut (labels : List SinkLabel) : Prop :=
  ∀ before n after, labels = before ++ .write (.wrote n) :: after → (progress before).cut = false

theorem progress_concat (labels : List SinkLabel) (l : SinkLabel) :
    progress (labels ++ [l]) = (progress labels).next l := by
  rw [progress, List.foldl_append, progress, List.foldl_cons, List.foldl_nil]

theorem quietAfterCut_nil : QuietAfterCut [] := by
  intro before n after same
  simp at same

theorem quietAfterCut_concat (labels : List SinkLabel) (l : SinkLabel) :
    QuietAfterCut (labels ++ [l]) ↔
      QuietAfterCut labels ∧ ∀ n, l = .write (.wrote n) → (progress labels).cut = false := by
  constructor
  · intro quiet
    refine ⟨fun before n after same => quiet before n (after ++ [l]) (by simp [same]), ?_⟩
    rintro n rfl
    exact quiet labels n [] rfl
  · rintro ⟨quiet, last⟩ before n after same
    cases after using List.reverseRecOn with
    | nil =>
        obtain ⟨rfl, single⟩ := List.append_inj' same rfl
        exact last n (List.cons.inj single).1
    | append_singleton after final =>
        have split : labels ++ [l] = (before ++ .write (.wrote n) :: after) ++ [final] := by
          simp [same]
        exact quiet before n after (List.append_inj' split rfl).1

theorem cut_mono (before after : List SinkLabel) (cut : (progress before).cut = true) :
    (progress (before ++ after)).cut = true := by
  induction after using List.reverseRecOn with
  | nil => rw [List.append_nil, cut]
  | append_singleton after l ih =>
      rw [← List.append_assoc, progress_concat]
      cases l with
      | lock thread frame => exact ih
      | write result => cases result <;> simp [Progress.next, ih]
      | unlock | closeFd | peerCloses => exact ih

theorem quietAfterCut_of_not_cut (labels : List SinkLabel) (whole : (progress labels).cut = false) :
    QuietAfterCut labels := by
  intro before n after same
  rw [Bool.eq_false_iff] at whole ⊢
  exact fun cut => whole (same ▸ cut_mono before _ cut)

structure Tracks (c : Client) (p : Progress) : Prop where
  begun : ∀ h, c.holder = some h → (p.begun = true ↔ 0 < h.send.total)
  cut : p.cut = true ↔
    (∃ s ∈ c.ended, s.Torn) ∨ ∃ h, c.holder = some h ∧ h.stopped = true ∧ h.send.Torn

theorem tracks_accepted : Tracks .accepted ⟨false, false⟩ := by
  constructor
  · intro h held
    cases held
  · simp [Client.accepted]

theorem Tracks.cut_running {c : Client} {p : Progress} {h : Holder} (tracks : Tracks c p)
    (held : c.holder = some h) (running : h.stopped = false) :
    p.cut = true ↔ ∃ s ∈ c.ended, s.Torn := by
  simpa [held, running] using tracks.cut

theorem Tracks.step {c c' : Client} {l : SinkLabel} {p : Progress} (tracks : Tracks c p)
    (steps : c.Steps l c' false) : Tracks c' (p.next l) := by
  have cut := tracks.cut
  cases steps with
  | lock thread frame free =>
      refine ⟨?_, ?_⟩
      · rintro h ⟨⟩
        simp [Progress.next, Send.start]
      · simpa [Progress.next, free, Send.start, Send.Torn] using cut
  | wrote h n held running peer pos fits =>
      refine ⟨?_, ?_⟩
      · rintro h' ⟨⟩
        simp [Progress.next]
        omega
      · simp [Progress.next, tracks.cut_running held running, running]
  | stops h result held running inside failed peer =>
      have begun := tracks.begun h held
      have next : p.next (.write result) = ⟨p.begun, p.cut || p.begun⟩ := by
        rcases failed with rfl | rfl <;> rfl
      rw [next]
      refine ⟨?_, ?_⟩
      · rintro h' ⟨⟩
        exact begun
      · simp [tracks.cut_running held running, begun, Send.Torn, inside]
  | interrupted peer => exact tracks
  | unlock h held over_ =>
      have stopped : h.send.Torn → h.stopped = true := fun torn => over_.resolve_right torn.2.ne
      refine ⟨?_, ?_⟩
      · rintro h' ⟨⟩
      · simp [Progress.next, cut, held, and_iff_right_of_imp stopped, or_and_right, exists_or]
  | closeFd free => exact ⟨tracks.begun, tracks.cut⟩
  | peerCloses => exact ⟨tracks.begun, tracks.cut⟩

theorem Tracks.writeAfterWhole_iff {c c' : Client} {l : SinkLabel} {p : Progress} {killed : Bool}
    (tracks : Tracks c p) (steps : c.Steps l c' killed) :
    WriteAfterWhole c l ↔ ∀ n, l = .write (.wrote n) → p.cut = false := by
  cases steps with
  | wrote h n held running peer pos fits =>
      have torn := tracks.cut_running held running
      simp only [WriteAfterWhole, SinkLabel.write.injEq, WriteResult.wrote.injEq, forall_eq']
      rw [Bool.eq_false_iff, ne_eq, torn]
      simp
  | stops h result held running inside failed peer =>
      rcases failed with rfl | rfl <;> simp [WriteAfterWhole]
  | lock | interrupted | killed | unlock | closeFd | peerCloses => simp [WriteAfterWhole]

end Results

def ClientDelivered (i : Nat) (s : Daemon) : Prop := ∀ c, s.clients[i]? = some c → Delivered c

def labelsOf (i : Nat) (labels : List Label) : List SinkLabel :=
  labels.filterMap fun
    | .accept => none
    | .act j l => if j = i then some l else none

theorem delivered_accepted : Delivered .accepted := ⟨⟨[], .slnil, List.nil_prefix⟩, .nil⟩

/-- What is known of a client after some labels of a run: its state against the results of
`write()`, as long as the process is there, and whether all was delivered as promised. -/
structure Followed (i : Nat) (labels : List Label) (s : Daemon) : Prop where
  tracks : s.alive = true → ∀ c, s.clients[i]? = some c → Tracks c (progress (labelsOf i labels))
  absent : s.clients[i]? = none → labelsOf i labels = []
  delivered : ClientDelivered i s ↔ QuietAfterCut (labelsOf i labels)

theorem followed_accept {i : Nat} {labels : List Label} {s : Daemon} (alive : s.alive = true)
    (followed : Followed i labels s) :
    Followed i (labels ++ [.accept]) { s with clients := s.clients ++ [.accepted] } := by
  have same : labelsOf i (labels ++ [.accept]) = labelsOf i labels := by simp [labelsOf]
  have kept : ∀ c, s.clients[i]? = some c → (s.clients ++ [.accepted])[i]? = some c := by
    intro c found
    rw [List.getElem?_append_left (List.getElem?_eq_some_iff.mp found).1]
    exact found
  have old_or_new : ∀ c, (s.clients ++ [.accepted])[i]? = some c →
      s.clients[i]? = some c ∨ s.clients[i]? = none ∧ c = .accepted := by
    intro c found
    rw [List.getElem?_append] at found
    split_ifs at found with below
    · exact .inl found
    · exact .inr ⟨List.getElem?_eq_none (not_lt.mp below),
        List.mem_singleton.mp (List.mem_of_getElem? found)⟩
  refine ⟨fun _ c found => ?_, fun absent => ?_, ?_⟩
  · rw [same]
    rcases old_or_new c found with old | ⟨absent, rfl⟩
    · exact followed.tracks alive c old
    · rw [followed.absent absent]
      exact tracks_accepted
  · rw [same]
    refine followed.absent (Option.eq_none_iff_forall_ne_some.mpr fun c found => ?_)
    cases (kept c found).symm.trans absent
  · rw [same, ← followed.delivered]
    refine ⟨fun all c found => all c (kept c found), fun all c found => ?_⟩
    rcases old_or_new c found with old | ⟨-, rfl⟩
    · exact all c old
    · exact delivered_accepted

theorem followed_own {i : Nat} {labels : List Label} {s : Daemon} {c c' : Client} {l : SinkLabel}
    {killed : Bool} (inv : ClientInv c) (alive : s.alive = true) (found : s.clients[i]? = some c)
    (steps : c.Steps l c' killed) (followed : Followed i labels s) :
    Followed i (labels ++ [.act i l]) ⟨s.clients.set i c', !killed⟩ := by
  have more : labelsOf i (labels ++ [.act i l]) = labelsOf i labels ++ [l] := by simp [labelsOf]
  have own : (s.clients.set i c')[i]? = some c' :=
    List.getElem?_set_self (List.getElem?_eq_some_iff.mp found).1
  have tracks := followed.tracks alive c found
  refine ⟨fun alive' d present => ?_, fun absent => ?_, ?_⟩
  · obtain rfl : c' = d := Option.some.inj (own.symm.trans present)
    obtain rfl : killed = false := by simpa using alive'
    rw [more, progress_concat]
    exact tracks.step steps
  · cases own.symm.trans absent
  · have before := followed.delivered
    simp only [ClientDelivered, found, Option.some.injEq, forall_eq'] at before
    simp only [ClientDelivered, own, Option.some.injEq, forall_eq']
    rw [delivered_step inv steps, before, tracks.writeAfterWhole_iff steps, more,
      quietAfterCut_concat]

theorem followed_step (i : Nat) (labels : List Label) (s : Daemon) (l : Label) (s' : Daemon)
    (inv : Inv s) (followed : Followed i labels s) (stepped : step s l = some s') :
    Followed i (labels ++ [l]) s' := by
  cases step_steps stepped with
  | accept alive => exact followed_accept alive followed
  | act j l c c' killed alive found steps =>
      by_cases own : j = i
      · subst own
        exact followed_own (inv c (List.mem_of_getElem? found)) alive found steps followed
      · have same : labelsOf i (labels ++ [.act j l]) = labelsOf i labels := by
          simp [labelsOf, own]
        have other : (s.clients.set j c')[i]? = s.clients[i]? := List.getElem?_set_ne own
        refine ⟨?_, ?_, ?_⟩
        · rw [same, other]
          exact fun _ => followed.tracks alive
        · rw [same, other]
          exact followed.absent
        · rw [same, ClientDelivered, other]
          exact followed.delivered

/-- For every run and every client: what reached its socket is the beginning of complete frames
in lock order, none followed by another before it was complete, exactly if no `write()` took bytes
after one had failed inside a frame. -/
theorem clientDelivered_iff (i : Nat) (labels : List Label) (s : Daemon)
    (reached : exec step .initial labels = some s) :
    ClientDelivered i s ↔ QuietAfterCut (labelsOf i labels) := by
  have start : Inv .initial := fun c member => by cases member
  have none : Followed i [] .initial := by
    refine ⟨fun _ c found => by simp [Daemon.initial] at found, fun _ => rfl, ?_⟩
    exact iff_of_true (fun c found => by simp [Daemon.initial] at found) quietAfterCut_nil
  have both := exec_history step .initial (fun labels s => Inv s ∧ Followed i labels s)
    ⟨start, none⟩ (fun labels s l s' both stepped =>
      ⟨inv_step s l s' both.1 stepped, followed_step i labels s l s' both.1 both.2 stepped⟩)
    labels s reached
  exact both.2.delivered

def statusReply : Bytes := replyWire (bareRequest 1 .status) [ErrCode.none.byte]

def connectPush : Bytes :=
  frameWire ProtoCodec.protoTypeReq 2 protoCmdsetNetwork NetCommand.pushResult.byte
    [ErrCode.none.byte]

def wholeRun : List Label :=
  [.accept, .act 0 (.lock 0 statusReply), .act 0 (.write (.wrote 5)), .act 0 (.write .eintr),
    .act 0 (.write (.wrote 6)), .act 0 .unlock, .act 0 (.lock 1 connectPush),
    .act 0 (.write (.wrote 11)), .act 0 .unlock]

def tornRun : List Label :=
  [.accept, .act 0 (.lock 0 statusReply), .act 0 (.write (.wrote 5)), .act 0 (.write .error),
    .act 0 .unlock, .act 0 (.lock 1 connectPush), .act 0 (.write (.wrote 11)), .act 0 .unlock]

theorem clientDelivered_iff_whole :
    ∃ s, exec step .initial wholeRun = some s ∧ ClientDelivered 0 s := by
  have ends : ∃ s, exec step .initial wholeRun = some s := ⟨_, rfl⟩
  obtain ⟨s, reached⟩ := ends
  have quiet := quietAfterCut_of_not_cut (labelsOf 0 wholeRun) rfl
  exact ⟨s, reached, (clientDelivered_iff 0 wholeRun s reached).mpr quiet⟩

/-- The push lands inside the unfinished reply; the socket holds no beginning of complete
frames any more. -/
theorem tornRun_not_delivered :
    ∃ s c, exec step .initial tornRun = some s ∧ s.clients[0]? = some c ∧
      c.socket = statusReply.take 5 ++ connectPush ∧
      (¬ ∃ fs : List Bytes, fs.Sublist (c.sends.map Send.frame) ∧ c.socket <+: fs.flatten) ∧
      ¬ Delivered c := by
  have ends : ∃ s c, exec step .initial tornRun = some s ∧ s.clients[0]? = some c ∧
      c.socket = statusReply.take 5 ++ connectPush ∧
      ∀ fs ∈ (c.sends.map Send.frame).sublists, ¬ c.socket <+: fs.flatten :=
    ⟨_, _, rfl, rfl, by decide, by decide⟩
  obtain ⟨s, c, reached, found, socket, none⟩ := ends
  have broken : ¬ ∃ fs : List Bytes, fs.Sublist (c.sends.map Send.frame) ∧
      c.socket <+: fs.flatten := by
    rintro ⟨fs, sub, initial⟩
    exact none fs (List.mem_sublists.mpr sub) initial
  exact ⟨s, c, reached, found, socket, broken, fun delivered => broken delivered.framed⟩

/-- A `write()` is made only on a connection whose peer is still there. -/
def PeerPresent (s : Daemon) : Label → Prop
  | .act i (.write _) => ∀ c, s.clients[i]? = some c → c.peerOpen = true
  | _ => True

theorem sigpipe_eq : sigpipe = .endsProcess := by decide

theorem alive_step (s : Daemon) (l : Label) (s' : Daemon) (stepped : step s l = some s') :
    s'.alive = true ↔ s.alive = true ∧ PeerPresent s l := by
  cases step_steps stepped with
  | accept alive => simp [alive, PeerPresent]
  | act i l c c' killed alive found steps =>
      cases steps with
      | lock thread frame free => simp [alive, PeerPresent]
      | wrote h n held running peer pos fits => simp [alive, PeerPresent, found, peer]
      | stops h result held running inside failed peer =>
          have present := peer.resolve_right (by rw [sigpipe_eq]; decide)
          simp [alive, PeerPresent, found, present]
      | interrupted peer => simp [alive, PeerPresent, found, peer]
      | killed h held peer ends => simp [alive, PeerPresent, found, peer]
      | unlock h held done => simp [alive, PeerPresent]
      | closeFd free => simp [alive, PeerPresent]
      | peerCloses => simp [alive, PeerPresent]

/-- For every run: the daemon is still there exactly if no send has called `write()` on a
connection whose peer had closed. A send on a descriptor that the reader has marked dead
is dropped without writing. -/
theorem daemon_alive_iff (labels : List Label) (s : Daemon)
    (reached : exec step .initial labels = some s) :
    (s.alive = true ↔ StepsMeet step PeerPresent .initial labels) ∧
      ∀ c ∈ s.clients, ∀ h, c.holder = some h → c.fdOpen = false →
        h.stopped = true ∧ h.send.total = 0 := by
  have start : Inv .initial := fun c member => by cases member
  have run := exec_iff_stepsMeet step (fun _ => True) (fun s => s.alive = true) PeerPresent
    (fun _ _ _ _ _ => trivial) (fun s l s' _ => alive_step s l s') labels .initial s trivial reached
  refine ⟨run.trans (and_iff_right rfl), fun c member => ?_⟩
  exact (exec_induction step .initial Inv start (fun s l s' inv => inv_step s l s' inv) labels s
    reached c member).dropped

def closedRun : List Label :=
  [.accept, .act 0 (.lock 0 statusReply), .act 0 (.write (.wrote 11)), .act 0 .unlock,
    .act 0 .peerCloses, .act 0 .closeFd, .act 0 (.lock 1 connectPush)]

theorem daemon_alive_iff_closed :
    ∃ s c h, exec step .initial closedRun = some s ∧ s.clients = [c] ∧ c.holder = some h ∧
      c.peerOpen = false ∧ StepsMeet step PeerPresent .initial closedRun ∧
      h.stopped = true ∧ h.send.total = 0 := by
  have ends : ∃ s c h, exec step .initial closedRun = some s ∧ s.clients = [c] ∧
      c.holder = some h ∧ c.peerOpen = false ∧ c.fdOpen = false ∧ s.alive = true :=
    ⟨_, _, _, rfl, rfl, rfl, rfl, rfl, rfl⟩
  obtain ⟨s, c, h, reached, clients, held, gone, closed, alive⟩ := ends
  have both := daemon_alive_iff closedRun s reached
  have dropped := both.2 c (by simp [clients]) h held closed
  exact ⟨s, c, h, reached, clients, held, gone, both.1.mp alive, dropped⟩

/-- A client sends a request and closes; the reply to it ends the daemon. -/
theorem reply_to_closed_peer_kills :
    ∃ s, exec step .initial
        [.accept, .act 0 .peerCloses, .act 0 (.lock 0 statusReply), .act 0 (.write .error)] =
          some s ∧ s.alive = false :=
  ⟨_, rfl, rfl⟩

end WfyApp.UnixSink
