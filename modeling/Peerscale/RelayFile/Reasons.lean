import Peerscale.Foundation.Json
import Peerscale.Foundation.NetText
import Peerscale.RelayFile.Wire

/-! # Reasons for a failure

A receiver gives its reasons in ERROR and REJECT frames. The payload of an ERROR frame has been
marshalled twice, so that the reader finds no reason in it, and a REJECT frame is for the reader
a frame of the wrong type.
-/

namespace Peerscale.RelayFile

def Library.withJSON (library : Library) : Library :=
  { library with
    marshalReason := Json.marshalField (ascii "Reason")
    unmarshalReason := Json.unmarshalString (ascii "Reason")
    marshalByteSlice := Json.marshalBytes }

def ReadError.text : ReadError → Option GoString
  | .stream => none
  | .remoteError reason => some (ascii "remote error: " ++ reason)
  | .remoteCancelled reason => some (ascii "remote cancelled: " ++ reason)
  | .unexpectedType got want =>
    some (ascii "unexpected frame type " ++ itoa got.toNat ++ ascii ", want " ++ itoa want.toNat)
  | .malformed => none

def Tells (library : Library) (want : UInt8) (decode : Bytes → Option α) (frame : Frame)
    (text : GoString) : Prop :=
  ∃ err message, readJSONFrame library want decode (some frame) = .error err ∧
    err.text = some message ∧ text <:+: message

variable {library : Library} {want : UInt8} {decode : Bytes → Option α} {frame : Frame}
  {text : GoString}

theorem tells_iff (read : readJSONFrame library want decode (some frame) = .error err)
    (isMessage : err.text = some msg) : Tells library want decode frame text ↔ text <:+: msg := by
  constructor
  · rintro ⟨other, otherMessage, otherRead, isOther, contains⟩
    cases read.symm.trans otherRead
    cases isMessage.symm.trans isOther
    exact contains
  · intro contains
    exact ⟨err, msg, read, isMessage, contains⟩

/-- The reader finds a string where it expects a struct. -/
theorem unmarshalReason_twice (library : Library) (why : GoString) :
    library.withJSON.unmarshalReason
      (library.withJSON.marshalByteSlice (library.withJSON.marshalReason why)) = [] := by
  change Json.unmarshalString (ascii "Reason") (Json.marshalBytes _) = []
  rw [Json.unmarshalString, Json.parse_marshalBytes]
  rfl

/-- A reason is told exactly if it is part of what is said anyway. -/
theorem tells_reply_iff (library : Library) (want : UInt8) (decode : Bytes → Option α)
    (text : GoString) :
    (Tells library.withJSON want decode ((Reply.error text).frame library.withJSON) text ↔
        text <:+: ascii "remote error: ") ∧
      (want ≠ frameTypeReject →
        (Tells library.withJSON want decode ((Reply.reject text).frame library.withJSON) text ↔
          text <:+: ascii "unexpected frame type 2, want " ++ itoa want.toNat)) := by
  constructor
  · have read : readJSONFrame library.withJSON want decode
        (some ((Reply.error text).frame library.withJSON)) = .error (.remoteError []) := by
      rw [readJSONFrame, Reply.frame, if_pos rfl, unmarshalReason_twice]
    exact tells_iff read (congrArg some (List.append_nil _))
  intro other
  have notError : frameTypeReject ≠ frameTypeError := by decide
  have notCancel : frameTypeReject ≠ frameTypeCancel := by decide
  have read : readJSONFrame library.withJSON want decode
      (some ((Reply.reject text).frame library.withJSON)) =
        .error (.unexpectedType frameTypeReject want) := by
    rw [readJSONFrame, Reply.frame, if_neg notError, if_neg notCancel, if_pos other.symm]
  exact tells_iff read rfl

def emptyLibrary : Library := .ofTransfer ⟨[], 0, 0, 0, [], 0, []⟩

theorem tells_blank :
    Tells emptyLibrary.withJSON frameTypeAck emptyLibrary.unmarshalAck
        ((Reply.error (ascii " ")).frame emptyLibrary.withJSON) (ascii " ") ∧
      Tells emptyLibrary.withJSON frameTypeAck emptyLibrary.unmarshalAck
        ((Reply.reject (ascii " ")).frame emptyLibrary.withJSON) (ascii " ") := by
  have iff := tells_reply_iff emptyLibrary frameTypeAck emptyLibrary.unmarshalAck (ascii " ")
  exact ⟨iff.1.mpr (by decide), (iff.2 (by decide)).mpr (by decide +kernel)⟩

/-- The text of a mismatch does not arrive, nor does the reason why a file cannot be made. -/
theorem not_tells_reason :
    ¬Tells emptyLibrary.withJSON frameTypeAck emptyLibrary.unmarshalAck
        ((Reply.error (ascii "checksum mismatch")).frame emptyLibrary.withJSON)
        (ascii "checksum mismatch") ∧
      ¬Tells emptyLibrary.withJSON frameTypeAccept emptyLibrary.unmarshalAccept
        ((Reply.reject (ascii "permission denied")).frame emptyLibrary.withJSON)
        (ascii "permission denied") := by
  constructor
  · rintro ⟨err, message, read, isMessage, contains⟩
    have isErr : err = .remoteError [] := by
      cases read
      exact congrArg ReadError.remoteError
        (unmarshalReason_twice emptyLibrary (ascii "checksum mismatch"))
    rw [isErr] at isMessage
    cases isMessage
    revert contains
    decide +kernel
  rintro ⟨err, message, read, isMessage, contains⟩
  cases read
  cases isMessage
  revert contains
  decide +kernel

end Peerscale.RelayFile
