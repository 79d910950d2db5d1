import WfyApp.ProtoDispatch

/-! The reader thread of one Unix-socket client (unix_ipc.c).
Each `read()` result is dispatched on its own; no bytes are kept from one result to
the next. The socket is a byte stream, so where the results are cut is up to the
kernel. -/

namespace WfyApp.UnixClient
open ProtoCodec ProtoDispatch ByteText PacketStream

def readBufSize : Nat := 2048

inductive ReadResult where
  | data (bytes : Bytes) (pos : 1 ≤ bytes.length) (fits : bytes.length ≤ readBufSize)
  | eintr
  | error
  | eof
deriving DecidableEq

def clientThread {σ : Type} (handle : ProtoFrame → σ → σ) : List ReadResult → σ → σ
  | [], s => s
  | .eintr :: results, s => clientThread handle results s
  | .error :: _, s => s
  | .eof :: _, s => s
  | .data bytes _ _ :: results, s =>
      clientThread handle results (protoDispatchBuffer handle bytes s)

def clientFrames (results : List ReadResult) : List ProtoFrame :=
  clientThread (fun f fs => fs ++ [f]) results []

/-- The pieces of the stream the thread gets to see. -/
def readChunks : List ReadResult → List Bytes
  | [] => []
  | .eintr :: results => readChunks results
  | .error :: _ => []
  | .eof :: _ => []
  | .data bytes _ _ :: results => bytes :: readChunks results

theorem clientThread_eq_foldl {σ : Type} (handle : ProtoFrame → σ → σ)
    (results : List ReadResult) (s : σ) :
    clientThread handle results s =
      ((readChunks results).flatMap (frames protoFraming)).foldl (fun s f => handle f s) s := by
  induction results generalizing s with
  | nil => rfl
  | cons result results ih =>
      cases result with
      | data bytes pos fits =>
          rw [clientThread, ih, protoDispatchBuffer_eq_foldl, readChunks, List.flatMap_cons,
            List.foldl_append]
      | eintr => rw [clientThread, ih, readChunks]
      | error => rfl
      | eof => rfl

theorem clientFrames_eq (results : List ReadResult) :
    clientFrames results = (readChunks results).flatMap (frames protoFraming) := by
  rw [clientFrames, clientThread_eq_foldl, List.foldl_append_eq_append, List.nil_append,
    ← List.flatMap_def, List.flatMap_singleton']

/-- A stream of whole frames is handed over exactly when no `read()` result ends inside
a frame. -/
theorem clientFrames_eq_iff (fs : List ProtoFrame) (results : List ReadResult)
    (stream : (readChunks results).flatten = fs.flatMap ProtoFrame.wire) :
    clientFrames results = fs ↔
      ∃ parts : List (List ProtoFrame), parts.flatten = fs ∧
        readChunks results = parts.map (fun part => part.flatMap ProtoFrame.wire) := by
  rw [clientFrames_eq]
  exact flatMap_frames_eq_iff protoFraming fs (readChunks results) stream

def statusRequest : ProtoFrame := bareRequest 1 .status

def statusTwice : List ReadResult :=
  [.data (statusRequest.wire ++ statusRequest.wire) (by decide) (by decide), .eintr, .eof]

def statusInHalves : List ReadResult :=
  [.data (statusRequest.wire.take 5) (by decide) (by decide),
    .data (statusRequest.wire.drop 5) (by decide) (by decide), .eof]

theorem clientFrames_eq_iff_two_requests :
    clientFrames statusTwice = [statusRequest, statusRequest] ↔
      ∃ parts : List (List ProtoFrame), parts.flatten = [statusRequest, statusRequest] ∧
        readChunks statusTwice = parts.map (fun part => part.flatMap ProtoFrame.wire) :=
  clientFrames_eq_iff [statusRequest, statusRequest] statusTwice (by decide)

/-- One request that arrives in two halves is not handed over at all. -/
theorem clientFrames_split_request :
    (readChunks statusInHalves).flatten = [statusRequest].flatMap ProtoFrame.wire ∧
      clientFrames statusInHalves = [] := by
  decide

end WfyApp.UnixClient
