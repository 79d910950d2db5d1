import WfyApp.SocketLoops

/-! The loops with which rkaiq_raw_protocol.cpp and rkaiq_online_protocol.cpp send a
buffer or receive a payload. An `int` counter can only overflow after a call has been
made outside the buffer, so exact integers lose nothing up to that point. -/

namespace WfyApp.BulkTransfer
open ByteText SocketLoops

def maxPacketSize : Int := 8192

structure SendVars where
  total : Int
  buf : Int

def SendVars.sendSize (s : SendVars) : Int :=
  if s.total < maxPacketSize then s.total else maxPacketSize

/-- The loop that the two `SendRawData` and `SendYuvData` share. -/
def chunkLoop : CallLoop SendVars Int where
  request s := if 0 < s.total then some ⟨s.buf, s.sendSize⟩ else none
  advance s retVal := ⟨s.total - s.sendSize, s.buf + retVal⟩

def onLineGetLoop (paramSize : Int) : CallLoop Int Int where
  request remainSize :=
    if 0 < remainSize then some ⟨paramSize - remainSize, remainSize⟩ else none
  advance _ sendSize := paramSize - sendSize

inductive BulkSend where
  | rawData
  | onlineRawData
  | yuvData
  | onLineGet
deriving DecidableEq, Repr

def BulkSend.run (buffer : Bytes) (results : List Int) : BulkSend → Transcript Int
  | rawData => chunkLoop.run ⟨buffer.length, 0⟩ results
  | onlineRawData => chunkLoop.run ⟨buffer.length, 0⟩ results
  | yuvData => chunkLoop.run ⟨buffer.length, 0⟩ results
  | onLineGet => (onLineGetLoop buffer.length).run buffer.length results

def Taken (span : Span) (result : Int) : Prop := 1 ≤ result ∧ result ≤ span.length

theorem chunk_request (s : SendVars) (span : Span) (next : chunkLoop.request s = some span) :
    0 < s.total ∧ span = ⟨s.buf, s.sendSize⟩ := by
  simp only [chunkLoop] at next
  split_ifs at next with more
  exact ⟨more, (Option.some.inj next).symm⟩

theorem chunk_request_eq_none_iff (s : SendVars) : chunkLoop.request s = none ↔ s.total ≤ 0 := by
  simp only [chunkLoop]
  split_ifs with more
  · exact iff_of_false (by simp) (by omega)
  · exact iff_of_true rfl (by omega)

theorem sendSize_le (s : SendVars) (more : 0 < s.total) : 0 < s.sendSize ∧ s.sendSize ≤ s.total := by
  unfold SendVars.sendSize maxPacketSize
  split_ifs with last
  · exact ⟨more, le_rfl⟩
  · exact ⟨by omega, by omega⟩

theorem chunk_lengths (results : List Int) (s : SendVars) (nonneg : 0 ≤ s.total)
    (finished : (chunkLoop.run s results).pending = none) :
    ((chunkLoop.run s results).answered.map fun call => call.1.length).sum = s.total := by
  induction results generalizing s with
  | nil =>
      have ended := (chunk_request_eq_none_iff s).mp finished
      simp only [CallLoop.run, List.map_nil, List.sum_nil]
      omega
  | cons r rs ih =>
      cases next : chunkLoop.request s with
      | none =>
          have ended := (chunk_request_eq_none_iff s).mp next
          simp only [run_ended chunkLoop s _ next, List.map_nil, List.sum_nil]
          omega
      | some span =>
          obtain ⟨more, rfl⟩ := chunk_request s span next
          have size := sendSize_le s more
          rw [run_cons chunkLoop s r rs _ next] at finished ⊢
          have rest := ih (chunkLoop.advance s r) (by simp only [chunkLoop]; omega) finished
          rw [List.map_cons, List.sum_cons, rest]
          simp only [chunkLoop]
          omega

theorem chunk_within (buffer : Bytes) (results : List Int)
    (taken : ∀ call ∈ (chunkLoop.run ⟨buffer.length, 0⟩ results).answered, Taken call.1 call.2)
    (span : Span) (asked : span ∈ (chunkLoop.run ⟨buffer.length, 0⟩ results).asked) :
    span.Within buffer.length := by
  obtain ⟨t, ⟨start, fits⟩, next⟩ := asked_of_invariant chunkLoop
    (fun t => 0 ≤ t.buf ∧ t.buf + t.total ≤ buffer.length) Taken
    (by
      intro t span r inv next good
      obtain ⟨more, rfl⟩ := chunk_request t span next
      have bounds : 1 ≤ r ∧ r ≤ t.sendSize := good
      simp only [chunkLoop]
      omega)
    results _ ⟨le_rfl, by simp⟩ taken span asked
  obtain ⟨more, rfl⟩ := chunk_request t span next
  have size := sendSize_le t more
  exact ⟨start, by simp only; omega⟩

theorem chunk_sent (buffer : Bytes) (results : List Int)
    (taken : ∀ call ∈ (chunkLoop.run ⟨buffer.length, 0⟩ results).answered, Taken call.1 call.2) :
    sent buffer (chunkLoop.run ⟨buffer.length, 0⟩ results).answered =
      buffer.take ((chunkLoop.run ⟨buffer.length, 0⟩ results).answered.map Prod.snd).sum.toNat := by
  have consecutive := (sent_consecutive chunkLoop SendVars.buf
    (fun s span next => by rw [(chunk_request s span next).2])
    (fun s r => rfl) buffer results ⟨buffer.length, 0⟩ le_rfl
    fun call made => by have := taken call made; unfold Taken at this; omega).2
  simpa using consecutive

theorem chunk_sent_eq_iff (buffer : Bytes) (results : List Int)
    (taken : ∀ call ∈ (chunkLoop.run ⟨buffer.length, 0⟩ results).answered, Taken call.1 call.2)
    (finished : (chunkLoop.run ⟨buffer.length, 0⟩ results).pending = none) :
    sent buffer (chunkLoop.run ⟨buffer.length, 0⟩ results).answered = buffer ↔
      ∀ call ∈ (chunkLoop.run ⟨buffer.length, 0⟩ results).answered, call.2 = call.1.length := by
  have lengths := chunk_lengths results ⟨buffer.length, 0⟩ (by simp) finished
  rw [chunk_sent buffer results taken, List.take_eq_self_iff]
  generalize (chunkLoop.run ⟨buffer.length, 0⟩ results).answered = calls at taken lengths ⊢
  constructor
  · intro enough call made
    by_contra short
    have fewer : (calls.map Prod.snd).sum < (calls.map fun call => call.1.length).sum :=
      List.sum_lt_sum _ _ (fun c h => (taken c h).2)
        ⟨call, made, lt_of_le_of_ne (taken call made).2 short⟩
    have nonneg : 0 ≤ (calls.map Prod.snd).sum := by
      refine List.sum_nonneg fun r taken_r => ?_
      obtain ⟨c, h, rfl⟩ := List.mem_map.mp taken_r
      exact le_trans (by decide) (taken c h).1
    dsimp only at lengths
    omega
  · intro full
    rw [List.map_congr_left full, lengths]
    simp

theorem onLineGet_request (paramSize t : Int) (span : Span)
    (next : (onLineGetLoop paramSize).request t = some span) :
    0 < t ∧ span = ⟨paramSize - t, t⟩ := by
  simp only [onLineGetLoop] at next
  split_ifs at next with more
  exact ⟨more, (Option.some.inj next).symm⟩

theorem onLineGet_within (paramSize : Int) (results : List Int)
    (taken : ∀ call ∈ ((onLineGetLoop paramSize).run paramSize results).answered,
      Taken call.1 call.2)
    (span : Span) (asked : span ∈ ((onLineGetLoop paramSize).run paramSize results).asked) :
    span.Within paramSize := by
  obtain ⟨t, fits, next⟩ := asked_of_invariant (onLineGetLoop paramSize) (· ≤ paramSize) Taken
    (by
      intro t span r fits next good
      have bounds : 1 ≤ r ∧ r ≤ span.length := good
      simp only [onLineGetLoop]
      omega)
    results paramSize le_rfl taken span asked
  obtain ⟨-, rfl⟩ := onLineGet_request paramSize t span next
  exact ⟨by simp only; omega, by simp only; omega⟩

/-- After one short send `OnLineGet` sends parts of the buffer again for ever. -/
theorem onLineGet_pending (paramSize : Int) (results : List Int) (t : Int) (more : 0 < t)
    (less : t < paramSize)
    (taken : ∀ call ∈ ((onLineGetLoop paramSize).run t results).answered, Taken call.1 call.2) :
    ((onLineGetLoop paramSize).run t results).pending ≠ none := by
  have next : (onLineGetLoop paramSize).request t = some ⟨paramSize - t, t⟩ := if_pos more
  induction results generalizing t with
  | nil => simp [CallLoop.run, next]
  | cons r rs ih =>
      rw [run_cons _ t r rs _ next] at taken ⊢
      have first : 1 ≤ r ∧ r ≤ t := taken _ List.mem_cons_self
      have left : (onLineGetLoop paramSize).advance t r = paramSize - r := rfl
      rw [left] at taken ⊢
      exact ih (paramSize - r) (by omega) (by omega)
        (fun call later => taken call (List.mem_cons_of_mem _ later)) (if_pos (by omega))

theorem onLineGet_sent (buffer : Bytes) (results : List Int)
    (taken : ∀ call ∈ ((onLineGetLoop buffer.length).run buffer.length results).answered,
      Taken call.1 call.2)
    (finished : ((onLineGetLoop buffer.length).run buffer.length results).pending = none) :
    sent buffer ((onLineGetLoop buffer.length).run buffer.length results).answered = buffer := by
  cases next : (onLineGetLoop buffer.length).request buffer.length with
  | none =>
      have empty : buffer = [] := by
        simp only [onLineGetLoop] at next
        split_ifs at next with more
        exact List.length_eq_zero_iff.mp (by omega)
      rw [run_ended _ _ _ next, empty]
      rfl
  | some span =>
      obtain ⟨more, rfl⟩ := onLineGet_request _ _ span next
      cases results with
      | nil => simp [CallLoop.run, next] at finished
      | cons r rs =>
          rw [run_cons _ _ r rs _ next] at taken finished ⊢
          have first : 1 ≤ r ∧ r ≤ (buffer.length : Int) := taken _ List.mem_cons_self
          have left : (onLineGetLoop buffer.length).advance buffer.length r = buffer.length - r :=
            rfl
          rw [left] at taken finished ⊢
          by_cases full : r = buffer.length
          · rw [run_ended _ _ rs (if_neg (by omega))]
            simp [sent, full]
          · exact absurd finished (onLineGet_pending _ rs _ (by omega) (by omega)
              fun call later => taken call (List.mem_cons_of_mem _ later))

/-- Nothing is read outside the buffer, and a finished loop has sent it exactly if every
send took what it was asked for; `OnLineGet` finishes only then. -/
theorem bulkSend_exact_iff (kind : BulkSend) (buffer : Bytes) (results : List Int)
    (taken : ∀ call ∈ (kind.run buffer results).answered, Taken call.1 call.2) :
    ((∀ span ∈ (kind.run buffer results).asked, span.Within buffer.length) ∧
      ((kind.run buffer results).pending = none →
        sent buffer (kind.run buffer results).answered = buffer)) ↔
    ((kind.run buffer results).pending = none → kind ≠ .onLineGet →
      ∀ call ∈ (kind.run buffer results).answered, call.2 = call.1.length) := by
  have sent_all {p q : Prop} (holds : p) : (p → q) ↔ q := forall_prop_of_true holds
  have chunked (t : Transcript Int) (same : t = chunkLoop.run ⟨buffer.length, 0⟩ results)
      (taken : ∀ call ∈ t.answered, Taken call.1 call.2) :
      ((∀ span ∈ t.asked, span.Within buffer.length) ∧
        (t.pending = none → sent buffer t.answered = buffer)) ↔
      (t.pending = none → ∀ call ∈ t.answered, call.2 = call.1.length) := by
    subst same
    rw [and_iff_right (chunk_within buffer results taken)]
    exact forall_congr' fun finished => chunk_sent_eq_iff buffer results taken finished
  cases kind with
  | rawData => exact (chunked _ rfl taken).trans (forall_congr' fun _ => (sent_all nofun).symm)
  | onlineRawData => exact (chunked _ rfl taken).trans (forall_congr' fun _ => (sent_all nofun).symm)
  | yuvData => exact (chunked _ rfl taken).trans (forall_congr' fun _ => (sent_all nofun).symm)
  | onLineGet =>
      exact iff_of_true ⟨onLineGet_within _ results taken, onLineGet_sent buffer results taken⟩
        fun _ other => absurd rfl other

theorem bulkSend_exact_iff_full_send :
    sent [1, 2, 3] (BulkSend.run [1, 2, 3] [3] .yuvData).answered = [1, 2, 3] := by
  have run : BulkSend.run [1, 2, 3] [3] .yuvData = ⟨[(⟨0, 3⟩, 3)], none⟩ := rfl
  have taken : ∀ call ∈ (BulkSend.run [1, 2, 3] [3] .yuvData).answered, Taken call.1 call.2 := by
    simp [run, Taken]
  exact ((bulkSend_exact_iff .yuvData [1, 2, 3] [3] taken).mpr (by simp [run])).2 rfl

/-- A send that takes one of two bytes: the loop ends and the other byte is lost. -/
theorem short_send_truncates :
    (BulkSend.run [1, 2] [1] .rawData).pending = none ∧
      sent [1, 2] (BulkSend.run [1, 2] [1] .rawData).answered = [1] := by
  decide

def recvLoop (paramSize : Int) : CallLoop Int RecvResult where
  request remainSize :=
    if 0 < remainSize then some ⟨paramSize - remainSize, remainSize⟩ else none
  advance remainSize result := remainSize - result.value

structure CheckSumVars where
  remainSize : Int
  tryCount : Int
  gaveUp : Bool

def commandDataSize : Nat := 72

/-- The loop of `DoCheckSum`. `recv_size` is a `size_t`, and the difference of it and
`remain_size`, taken as an `int` again, is the one of the integers. -/
def doCheckSumLoop : CallLoop CheckSumVars RecvResult where
  request s :=
    if !s.gaveUp ∧ 0 < s.remainSize then
      some ⟨commandDataSize - s.remainSize, s.remainSize⟩
    else none
  advance s result :=
    let recvSize := UInt64.ofInt result.value
    if recvSize < 0 ∧ result = .failed true then
      { s with tryCount := s.tryCount - 1, gaveUp := s.tryCount - 1 < 0 }
    else { s with remainSize := s.remainSize - result.value }

inductive PayloadLoop where
  | rawOnLineSet (paramSize : Nat)
  | onlineOnLineSet (paramSize : Nat)
  | doCheckSum
deriving DecidableEq, Repr

def PayloadLoop.size : PayloadLoop → Nat
  | rawOnLineSet paramSize => paramSize
  | onlineOnLineSet paramSize => paramSize
  | doCheckSum => commandDataSize

def PayloadLoop.run (results : List RecvResult) : PayloadLoop → Transcript RecvResult
  | rawOnLineSet paramSize => (recvLoop paramSize).run paramSize results
  | onlineOnLineSet paramSize => (recvLoop paramSize).run paramSize results
  | doCheckSum => doCheckSumLoop.run ⟨commandDataSize, 3, false⟩ results

def MayCallAgain (result : RecvResult) : Prop := 0 < result.value ∨ result = .failed true

def timeouts (results : List RecvResult) : Nat := results.count (.failed true)

/-- Every call that is made after some of the results is in range, and none of these
results should have ended the loop. -/
def Disciplined (loop : PayloadLoop) (results : List RecvResult) : Prop :=
  ∀ initial span, initial <+: results → (loop.run initial).pending = some span →
    0 ≤ span.offset ∧ span.offset + span.length = loop.size ∧
      (∀ result ∈ initial, MayCallAgain result) ∧ (loop = .doCheckSum → timeouts initial < 4)

theorem recvLoop_pending (paramSize remainSize : Int) (results : List RecvResult) (span : Span) :
    ((recvLoop paramSize).run remainSize results).pending = some span ↔
      Incomplete remainSize results ∧
        span = ⟨paramSize - remainSize + total results, remainSize - total results⟩ := by
  induction results generalizing remainSize with
  | nil =>
      rw [CallLoop.run, incomplete_nil]
      simp only [recvLoop, total_nil, add_zero, sub_zero]
      split_ifs with more
      · simp [more, eq_comm]
      · simp [more]
  | cons r rs ih =>
      rw [incomplete_cons]
      by_cases more : 0 < remainSize
      · have left : (recvLoop paramSize).advance remainSize r = remainSize - r.value := rfl
        rw [run_cons _ _ r rs ⟨paramSize - remainSize, remainSize⟩ (if_pos more), left,
          ih (remainSize - r.value), and_iff_right more]
        simp only [total_cons]
        ring_nf
      · rw [run_ended _ _ _ (if_neg more)]
        simp [more]

theorem doCheckSum_run (results : List RecvResult) :
    PayloadLoop.doCheckSum.run results =
      (recvLoop commandDataSize).run commandDataSize results := by
  refine run_eq_of_related doCheckSumLoop (recvLoop commandDataSize)
    (fun s t => s.gaveUp = false ∧ s.remainSize = t) ?_ ?_ results _ _ ⟨rfl, rfl⟩
  · rintro s t ⟨going, rfl⟩
    simp [doCheckSumLoop, recvLoop, going]
  · rintro s t r ⟨going, rfl⟩
    simp [doCheckSumLoop, recvLoop, going]

theorem payload_pending (loop : PayloadLoop) (results : List RecvResult) (span : Span) :
    (loop.run results).pending = some span ↔
      Incomplete loop.size results ∧ span = ⟨total results, loop.size - total results⟩ := by
  have shared (size : Nat) : ((recvLoop size).run size results).pending = some span ↔
      Incomplete size results ∧ span = ⟨total results, size - total results⟩ := by
    rw [recvLoop_pending, sub_self, zero_add]
  cases loop with
  | rawOnLineSet paramSize => exact shared paramSize
  | onlineOnLineSet paramSize => exact shared paramSize
  | doCheckSum =>
      rw [doCheckSum_run]
      exact shared commandDataSize

/-- The discipline is kept exactly if, as long as the payload is incomplete, every result
is positive or a timeout, no more timeouts than bytes have come, and `DoCheckSum` has not
seen a fourth timeout. -/
theorem payload_disciplined_iff (loop : PayloadLoop) (results : List RecvResult) :
    Disciplined loop results ↔
      ∀ initial, initial <+: results → Incomplete loop.size initial →
        0 ≤ total initial ∧ (∀ result ∈ initial, MayCallAgain result) ∧
          (loop = .doCheckSum → timeouts initial < 4) := by
  refine forall_congr' fun initial => ?_
  constructor
  · intro calls before open_yet
    obtain ⟨start, -, kept⟩ := calls _ before
      ((payload_pending loop initial _).mpr ⟨open_yet, rfl⟩)
    exact ⟨start, kept⟩
  · intro kept span before next
    obtain ⟨open_yet, rfl⟩ := (payload_pending loop initial span).mp next
    obtain ⟨start, rest⟩ := kept before open_yet
    exact ⟨start, by simp, rest⟩

/-- The peer closes, the socket fails, and five timeouts in a row: each time `recv` is
called again, the last two times with a range that starts before the buffer. -/
theorem payload_loops_go_on :
    ((PayloadLoop.rawOnLineSet 4).run [.received []]).pending = some ⟨0, 4⟩ ∧
      ((PayloadLoop.onlineOnLineSet 4).run [.failed false]).pending = some ⟨-1, 5⟩ ∧
      (PayloadLoop.doCheckSum.run (List.replicate 5 (.failed true))).pending =
        some ⟨-5, 77⟩ := by
  decide

end WfyApp.BulkTransfer
