import RemoteView.Wire.Message

/-! # Frames

A frame is the length of its payload as four bytes, most significant first, and the payload. Each
direction has a cap on the length, which is checked before a payload is written or read.
-/

namespace RemoteView

/-- How reading or writing frames ends early. -/
inductive FrameError where
  /-- A payload longer than the cap. -/
  | tooLong (length cap : Nat)
  /-- A length that four bytes cannot hold. -/
  | lengthOverflow
  /-- The stream ended inside a frame or before one. -/
  | endOfStream
  /-- A payload that is not JSON. -/
  | invalidJson
  deriving DecidableEq, Repr

/-- The message of an error that has one of its own. -/
def FrameError.message? : FrameError → Option String
  | .tooLong length cap =>
      some ("frame of " ++ toString length ++ " bytes exceeds cap of " ++ toString cap)
  | .lengthOverflow => some "frame length exceeds u32"
  | .endOfStream => none
  | .invalidJson => none

namespace Frame

/-- The cap on payloads to the server. -/
def clientCap : Nat := 65536

def serverCap : Nat := 1048576

/-- A length as four bytes, most significant first. -/
def header (length : Nat) : List UInt8 :=
  [UInt8.ofNat (length >>> 24), UInt8.ofNat (length >>> 16), UInt8.ofNat (length >>> 8),
    UInt8.ofNat length]

/-- The length that four bytes hold. -/
def lengthOf (a b c d : UInt8) : Nat := ((a.toNat * 256 + b.toNat) * 256 + c.toNat) * 256 + d.toNat

theorem lengthOf_header {length : Nat} (h : length < UInt32.size) :
    lengthOf (UInt8.ofNat (length >>> 24)) (UInt8.ofNat (length >>> 16))
      (UInt8.ofNat (length >>> 8)) (UInt8.ofNat length) = length := by
  simp only [UInt32.size] at h
  simp only [lengthOf, UInt8.toNat_ofNat', Nat.shiftRight_eq_div_pow]
  omega

/-- The bytes of a frame. Nothing is written for a payload above the cap. -/
def write (cap : Nat) (payload : List UInt8) : Except FrameError (List UInt8) :=
  if cap < payload.length then .error (.tooLong payload.length cap)
  else if UInt32.size ≤ payload.length then .error .lengthOverflow
  else .ok (header payload.length ++ payload)

/-- How long the payload after a header is. A length above the cap is refused. -/
def announced (cap : Nat) (a b c d : UInt8) : Except FrameError Nat :=
  let length := lengthOf a b c d
  if cap < length then .error (.tooLong length cap) else .ok length

/-- Read one frame, and say what is left of the stream. A stream that ends early is used up; above
    the cap only the length has been read. -/
def read (cap : Nat) (stream : List UInt8) : Except FrameError (List UInt8) × List UInt8 :=
  match stream with
  | a :: b :: c :: d :: rest =>
      match announced cap a b c d with
      | .error error => (.error error, rest)
      | .ok length =>
          let payload := rest.take length
          if payload.length < length then (.error .endOfStream, [])
          else (.ok payload, rest.drop length)
  | _ => (.error .endOfStream, [])

theorem length_read_lt {cap : Nat} {stream payload rest : List UInt8}
    (h : read cap stream = (.ok payload, rest)) : rest.length < stream.length := by
  match stream with
  | [] | [_] | [_, _] | [_, _, _] => simp [read] at h
  | a :: b :: c :: d :: tail =>
      simp only [read] at h
      split at h
      · simp at h
      · split at h
        · simp at h
        · simp only [Prod.mk.injEq] at h
          rw [← h.2]
          simp only [List.length_drop, List.length_cons]
          omega

/-- Read frames up to the first error: the payloads, the error, and what is left. -/
def readAll (cap : Nat) (stream : List UInt8) : List (List UInt8) × FrameError × List UInt8 :=
  match h : read cap stream with
  | (.error error, rest) => ([], error, rest)
  | (.ok payload, rest) =>
      have := length_read_lt h
      let (payloads, final) := readAll cap rest
      (payload :: payloads, final)
termination_by stream.length

def valueOf (payload : List UInt8) : Except FrameError Json :=
  match Json.parseBytes? payload with
  | some value => .ok value
  | none => .error .invalidJson

/-- The values in a stream from the server, up to the first frame that is too long or not JSON. The
    end of the stream is no error, wherever it is. -/
def readValues (stream : List UInt8) : List Json × Option FrameError :=
  match h : read serverCap stream with
  | (.error .endOfStream, _) => ([], none)
  | (.error error, _) => ([], some error)
  | (.ok payload, rest) =>
      match valueOf payload with
      | .error error => ([], some error)
      | .ok value =>
          have := length_read_lt h
          let (values, final) := readValues rest
          (value :: values, final)
termination_by stream.length

/-- The bytes of a message. -/
def encode (message : ClientMessage) : List UInt8 := message.toJson.render.toUTF8.toList

/-- The payloads that are sent for a list of messages: up to the first message above the cap. -/
def fitting (messages : List ClientMessage) : List (List UInt8) :=
  (messages.map encode).takeWhile fun payload => payload.length ≤ clientCap

/-- The bytes sent for a list of messages: all frames up to the first message above the cap. -/
def writeMessages : List ClientMessage → List UInt8 × Option FrameError
  | [] => ([], none)
  | message :: rest =>
      match write clientCap (encode message) with
      | .error error => ([], some error)
      | .ok bytes =>
          let (others, final) := writeMessages rest
          (bytes ++ others, final)

end Frame

end RemoteView
