import Penflow.Lib.Chunks
import Penflow.Protocol.Payloads

/-!
# Frames

A frame is the id of the message, the length of its payload as a `u32`, and the payload.  `readFrame`
reads one off a stream that arrives in chunks; a length above `maxPayloadLen` it refuses before it
reads any of the payload.
-/

namespace Penflow

open Chunks

/-- One message. -/
structure Frame where
  msg_id : UInt8
  payload : List UInt8
  deriving DecidableEq, Repr

/-- `as u32` cuts a length of `2 ^ 32` and more. -/
def encodeFrame (msg_id : UInt8) (payload : List UInt8) : List UInt8 :=
  [msg_id] ++ u32BE (UInt32.ofNat payload.length) ++ payload

/-- The bytes that `write_frame` hands to its one `write_all`. -/
def writeFrame (msg_id : UInt8) (payload : List UInt8) : List UInt8 := encodeFrame msg_id payload

/-- The frame read, or the error, with what is left of the stream. -/
def readFrame (stream : List (List UInt8)) : Except ProtocolError Frame × List (List UInt8) :=
  match readExact 1 stream with
  | none => (.error .io, [])
  | some (msg_id, stream) =>
    match readExact 4 stream with
    | none => (.error .io, [])
    | some (word, stream) =>
      let len := (u32OfBE word).toNat
      if maxPayloadLen < len then (.error (.payloadTooLarge len), stream)
      else
        match readExact len stream with
        | none => (.error .io, [])
        | some (payload, stream) => (.ok ⟨msg_id.headD 0, payload⟩, stream)

@[simp]
theorem encodeFrame_length (msg_id : UInt8) (payload : List UInt8) :
    (encodeFrame msg_id payload).length = 5 + payload.length := by
  rw [encodeFrame, List.length_append, List.length_append, u32BE_length]
  rfl

/-- The bytes of a frame. -/
def Frame.encode (f : Frame) : List UInt8 := encodeFrame f.msg_id f.payload

theorem Frame.encode_length (f : Frame) : f.encode.length = 5 + f.payload.length :=
  encodeFrame_length f.msg_id f.payload

theorem toNat_payload_length {payload : List UInt8} (h : payload.length ≤ maxPayloadLen) :
    (UInt32.ofNat payload.length).toNat = payload.length := by
  rw [maxPayloadLen] at h
  exact UInt32.toNat_ofNat_of_lt' (by rw [UInt32.size]; omega)

/-- **One frame off a stream.** -/
theorem readFrame_encodeFrame {f : Frame} (hf : f.payload.length ≤ maxPayloadLen) {rest : List UInt8}
    {stream : List (List UInt8)} (h : stream.flatten = encodeFrame f.msg_id f.payload ++ rest) :
    ∃ stream', readFrame stream = (.ok f, stream') ∧ stream'.flatten = rest := by
  rw [encodeFrame, List.append_assoc, List.append_assoc] at h
  obtain ⟨s₁, hid, h₁⟩ := readExact_flatten (n := 1) rfl h
  obtain ⟨s₂, hword, h₂⟩ := readExact_flatten (u32BE_length _) h₁
  obtain ⟨s₃, hpayload, h₃⟩ := readExact_flatten rfl h₂
  refine ⟨s₃, ?_, h₃⟩
  rw [readFrame, hid]
  simp only [hword, u32OfBE_u32BE, toNat_payload_length hf]
  rw [if_neg (by omega), hpayload]
  rfl

/-- **A length above the limit**: the error, and the payload unread. -/
theorem readFrame_tooLarge {msg_id : UInt8} {word : UInt32} (hword : maxPayloadLen < word.toNat)
    {rest : List UInt8} {stream : List (List UInt8)}
    (h : stream.flatten = [msg_id] ++ (u32BE word ++ rest)) :
    ∃ stream', readFrame stream = (.error (.payloadTooLarge word.toNat), stream') ∧
      stream'.flatten = rest := by
  obtain ⟨s₁, hid, h₁⟩ := readExact_flatten (n := 1) rfl h
  obtain ⟨s₂, hlen, h₂⟩ := readExact_flatten (u32BE_length _) h₁
  refine ⟨s₂, ?_, h₂⟩
  rw [readFrame, hid]
  simp only [hlen, u32OfBE_u32BE]
  rw [if_pos hword]

end Penflow
