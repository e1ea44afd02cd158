import Zetta.Lib.BigEndian

/-!
# Frames of the bridge

Many daemon connections share one byte stream. A frame on it is the id of a stream, a kind,
the length of a payload and the payload. `encodeFrame` writes a frame, `readFrame` reads one
from what has arrived.

* `readFrame_encodeFrame`: a frame is read as it was written, whatever follows it.
* `readFrame_error_of_long`: a frame that is too long fails the link, also before all of it
  has arrived.
-/

namespace Zetta.Zmux

def HEADER_BYTES : ℕ := 9
/-- The largest payload of data. -/
def MAX_PAYLOAD : ℕ := 32 * 1024
/-- The credit that each direction of a stream starts with. -/
def WINDOW : ℕ := 256 * 1024
/-- A frame whose declared length exceeds this is a corrupt link. -/
def MAX_FRAME : ℕ := 1024 * 1024
/-- The stream that is the link itself. -/
def LINK_STREAM : UInt32 := 0

inductive Kind where
  /-- Connect this stream to the daemon. -/
  | «open»
  | data
  /-- The sender will write no more. -/
  | eof
  /-- The stream is gone in both directions. -/
  | close
  /-- The receiver has written this many more bytes. -/
  | credit
  /-- A question to the far side, or its answer. -/
  | info
  deriving DecidableEq

namespace Kind

def toByte : Kind → UInt8
  | «open» => 1
  | data => 2
  | eof => 3
  | close => 4
  | credit => 5
  | info => 6

def fromByte (byte : UInt8) : Option Kind :=
  if byte = 1 then some «open»
  else if byte = 2 then some data
  else if byte = 3 then some eof
  else if byte = 4 then some close
  else if byte = 5 then some credit
  else if byte = 6 then some info
  else none

@[simp]
theorem fromByte_toByte (kind : Kind) : fromByte kind.toByte = some kind := by
  cases kind <;> rfl

end Kind

structure Frame where
  stream : UInt32
  kind : Kind
  payload : List UInt8

/-- A payload whose length fits its field. A longer one is a panic. -/
def Frame.Valid (frame : Frame) : Prop := frame.payload.length < 2 ^ 32

def encodeFrame (frame : Frame) : List UInt8 :=
  beBytes 4 frame.stream.toNat ++ [frame.kind.toByte] ++ beBytes 4 frame.payload.length ++
    frame.payload

/-- Reads one frame. A reader waits while this is `none`: the frame has not arrived yet. -/
def readFrame (bytes : List UInt8) : Option (Except String (Frame × List UInt8)) :=
  if bytes.length < HEADER_BYTES then none
  else
    let stream := UInt32.ofNat (ofBeBytes (bytes.take 4))
    let byte := bytes.getD 4 0
    match Kind.fromByte byte with
    | none => some (.error s!"unknown bridge frame kind {byte}")
    | some kind =>
      let length := ofBeBytes ((bytes.drop 5).take 4)
      let rest := bytes.drop HEADER_BYTES
      if MAX_FRAME < length then
        some (.error s!"bridge frame of {length} bytes exceeds the {MAX_FRAME}-byte limit")
      else if rest.length < length then none
      else some (.ok (⟨stream, kind, rest.take length⟩, rest.drop length))

variable {frame : Frame}

/-- A frame begins with its header. -/
private theorem readFrame_append (h : frame.Valid) (rest : List UInt8) :
    readFrame (encodeFrame frame ++ rest) =
      if MAX_FRAME < frame.payload.length then
        some (.error s!"bridge frame of {frame.payload.length} bytes exceeds the {MAX_FRAME}-byte limit")
      else some (.ok (frame, rest)) := by
  have hheader : encodeFrame frame ++ rest =
      beBytes 4 frame.stream.toNat ++ (frame.kind.toByte ::
        (beBytes 4 frame.payload.length ++ (frame.payload ++ rest))) := by
    simp [encodeFrame]
  have hlength : ¬ (encodeFrame frame ++ rest).length < HEADER_BYTES := by
    simp only [hheader, HEADER_BYTES, List.length_append, List.length_cons, length_beBytes]
    omega
  have hstream : UInt32.ofNat (ofBeBytes ((encodeFrame frame ++ rest).take 4)) = frame.stream := by
    rw [hheader, List.take_left' (length_beBytes 4 _),
      ofBeBytes_beBytes_of_lt frame.stream.toNat_lt, UInt32.ofNat_toNat]
  have hbyte : (encodeFrame frame ++ rest).getD 4 0 = frame.kind.toByte := by
    rw [hheader, List.getD_append_right _ _ _ _ (by simp), length_beBytes]
    rfl
  have hdrop : (encodeFrame frame ++ rest).drop 5 =
      beBytes 4 frame.payload.length ++ (frame.payload ++ rest) := by
    rw [hheader, show 5 = 4 + 1 from rfl, ← List.drop_drop, List.drop_left' (length_beBytes 4 _)]
    rfl
  have hlen : ofBeBytes (((encodeFrame frame ++ rest).drop 5).take 4) = frame.payload.length := by
    rw [hdrop, List.take_left' (length_beBytes 4 _)]
    exact ofBeBytes_beBytes_of_lt h
  have hrest : (encodeFrame frame ++ rest).drop HEADER_BYTES = frame.payload ++ rest := by
    rw [show HEADER_BYTES = 5 + 4 from rfl, ← List.drop_drop, hdrop,
      List.drop_left' (length_beBytes 4 _)]
  have hmore : ¬ (frame.payload ++ rest).length < frame.payload.length := by simp
  rw [readFrame, if_neg hlength]
  simp only [hbyte, Kind.fromByte_toByte, hlen, hrest, hstream, if_neg hmore, List.take_left',
    List.drop_left']

/-- **Round trip**: a frame is read as it was written. -/
theorem readFrame_encodeFrame (h : frame.payload.length ≤ MAX_FRAME) (rest : List UInt8) :
    readFrame (encodeFrame frame ++ rest) = some (.ok (frame, rest)) := by
  have hvalid : frame.Valid := lt_of_le_of_lt h (by decide)
  rw [readFrame_append hvalid, if_neg (not_lt.mpr h)]

/-- A frame that is too long fails the link. -/
theorem readFrame_error_of_long (hvalid : frame.Valid) (h : MAX_FRAME < frame.payload.length)
    (rest : List UInt8) : ∃ e, readFrame (encodeFrame frame ++ rest) = some (.error e) :=
  ⟨_, (readFrame_append hvalid rest).trans (if_pos h)⟩

end Zetta.Zmux
