import OpcUa.Library.Framing
import OpcUa.ServerCore

/-!
`UA_Connection_processChunks`: the chunks of a connection are cut out of the packets as the
network delivers them. Allocations succeed.
-/

namespace OpcUa

open LittleEndian StatusCode Framing

/-! `ua_connection.c` -/

/-- `UA_Connection_processChunk` with everything it can change: the application and the
connection without the stored bytes. -/
structure ProcessChunkCallback (Application : Type) where
  recvBufferSize : Application → BitVec 32
  run : Application → List Byte → StatusCode × Application

variable {Application : Type}

def ackCode : BitVec 32 := 0x4B4341

def isMessageType (code : BitVec 32) : Bool :=
  code == MessageType.msg.code || code == MessageType.err.code || code == MessageType.opn.code ||
    code == helloCode || code == ackCode || code == MessageType.clo.code

def messageTypeAt (message : List Byte) : BitVec 32 :=
  (message.getD 0 0).setWidth 32 + ((message.getD 1 0).setWidth 32 <<< 8) +
    ((message.getD 2 0).setWidth 32 <<< 16)

def isChunkType (byte : Byte) : Bool := byte == 0x43 || byte == 0x46 || byte == 0x41

def nextChunk (recvBufferSize : BitVec 32) (message : List Byte) : Cut StatusCode :=
  if message.length < 8 then .wait
  else if !isMessageType (messageTypeAt message) then .refuse badTcpMessageTypeInvalid
  else if !isChunkType (message.getD 3 0) then .refuse badTcpMessageTypeInvalid
  else
    let chunkLength := (uint32DecodeBinary (chunkInput (message.take 8)) 4).value.toNat
    if chunkLength < 16 ∨ chunkLength > recvBufferSize.toNat then .refuse badTcpMessageTooLarge
    -- the rest of the chunk is in the next packet
    else if chunkLength > message.length then .wait
    else .frame chunkLength

theorem nextChunk_frame {recvBufferSize : BitVec 32} {message : List Byte} {length : Nat}
    (frame : nextChunk recvBufferSize message = .frame length) :
    0 < length ∧ length ≤ message.length := by
  simp only [nextChunk] at frame
  split at frame
  · cases frame
  · split at frame
    · cases frame
    · split at frame
      · cases frame
      · split at frame
        · cases frame
        · split at frame
          · cases frame
          · injection frame
            omega

theorem nextChunk_append {recvBufferSize : BitVec 32} {message : List Byte} (more : List Byte)
    (decided : nextChunk recvBufferSize message ≠ .wait) :
    nextChunk recvBufferSize (message ++ more) = nextChunk recvBufferSize message := by
  by_cases short : message.length < 8
  · rw [nextChunk, if_pos short] at decided
    exact absurd rfl decided
  · have byte (index : Nat) (inside : index < 8) :
        (message ++ more).getD index 0 = message.getD index 0 := by
      rw [List.getD_eq_getElem?_getD, List.getD_eq_getElem?_getD,
        List.getElem?_append_left (by omega)]
    have word : messageTypeAt (message ++ more) = messageTypeAt message := by
      rw [messageTypeAt, messageTypeAt, byte 0 (by decide), byte 1 (by decide), byte 2 (by decide)]
    have header : (message ++ more).take 8 = message.take 8 :=
      List.take_append_of_le_length (by omega)
    have long : ¬(message ++ more).length < 8 := by
      rw [List.length_append]
      omega
    simp only [nextChunk, if_neg short, if_neg long, word, byte 3 (by decide), header] at decided ⊢
    split
    · rfl
    · rename_i known
      rw [if_neg known] at decided
      split
      · rfl
      · rename_i final
        rw [if_neg final] at decided
        split
        · rfl
        · rename_i allowed
          rw [if_neg allowed] at decided
          have whole : ¬(uint32DecodeBinary (chunkInput (message.take 8)) 4).value.toNat >
              message.length := by
            intro missing
            rw [if_pos missing] at decided
            exact decided rfl
          rw [if_neg whole, if_neg (by rw [List.length_append]; omega)]

section

variable (callback : ProcessChunkCallback Application)

def chunkFramer : Framer Application Byte StatusCode where
  cut application := nextChunk (callback.recvBufferSize application)
  process application chunk :=
    match callback.run application chunk with
    | (status, application) => (if status ≠ good then some status else none, application)
  cut_frame _ _ _ frame := nextChunk_frame frame
  cut_refuse _ _ more _ refuse := by
    rw [nextChunk_append more (by rw [refuse]; exact fun wait => nomatch wait), refuse]
  cut_append _ _ more _ frame := by
    rw [nextChunk_append more (by rw [frame]; exact fun wait => nomatch wait), frame]

/-- `UA_Connection_processChunks`: the stored bytes are put in front of the packet, and what is
left behind the last whole chunk is stored. -/
def processChunks (application : Application) (incompleteMessage packet : List Byte) :
    Outcome Application Byte StatusCode :=
  drain (chunkFramer callback) application (incompleteMessage ++ packet)

def processPackets (application : Application) (packets : List (List Byte)) :
    Outcome Application Byte StatusCode :=
  feed (chunkFramer callback) ⟨none, application, [], []⟩ packets

theorem processPackets_eq (application : Application) (packets : List (List Byte)) :
    processPackets callback application packets =
      processChunks callback application [] packets.flatten := by
  cases packets with
  | nil => exact (drain_wait (chunkFramer callback) rfl).symm
  | cons packet packets =>
    rw [processPackets, feed, feed_cons]
    rfl

end

/-- The chunks that are handed to the callback, the error, what becomes of the application and
what is stored for later depend on the bytes of the stream only. The chunks and what is stored
are the stream, or a part of its front if there was an error. -/
theorem packetBoundaries_irrelevant (callback : ProcessChunkCallback Application)
    (application : Application) (packets : List (List Byte)) :
    processPackets callback application packets =
        processPackets callback application [packets.flatten] ∧
      ((processPackets callback application packets).error = none →
        (processPackets callback application packets).frames.flatten ++
          (processPackets callback application packets).rest = packets.flatten) ∧
      (processPackets callback application packets).frames.flatten <+: packets.flatten := by
  have kept := drain_frames (chunkFramer callback) application packets.flatten
  refine ⟨?_, ?_⟩
  · rw [processPackets_eq, processPackets_eq, List.flatten_singleton]
  · rw [processPackets_eq]
    exact kept

end OpcUa
