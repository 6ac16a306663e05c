import Peerscale.Foundation.Json
import Peerscale.P2put.Gossip

/-! # Forwarded messages

A message is forwarded as JSON with its length in front. The handler reads the sequence number,
and with gossip the topic, of whatever it gets, and takes frames of up to 2^20 bytes.
-/

namespace Peerscale.P2put.Forwards

inductive Build
  | pubsub
  | nopubsub
  deriving DecidableEq

/-- Without gossip a missing topic is the empty one. -/
structure FwdMsg where
  sender : Bytes
  data : Bytes
  seqno : Bytes
  topic : Option GoString
  deriving DecidableEq

/-- `ReadMsg` and `json.Unmarshal`, which leaves fields that are missing as they are. -/
structure FwdCodec where
  readMsg : Bytes → Option Bytes
  unmarshal : Bytes → Option FwdMsg
  framed : Bytes → Bytes
  reads : readMsg (framed (ascii "\x7b\x7d")) = some (ascii "\x7b\x7d")
  empty : unmarshal (ascii "\x7b\x7d") = some ⟨[], [], [], none⟩

inductive Outcome
  | returned
  | emitted (topic : GoString) (msg : FwdMsg)
  | indexOutOfRange
  | nilDereference
  deriving DecidableEq

/-- `DefaultMsgIdFn` and `fwdMsgID`. -/
def FwdMsg.id (msg : FwdMsg) : Bytes := msg.sender ++ msg.seqno

/-- `binary.BigEndian.Uint64` reads eight bytes. -/
def handlePubSubFwdStream (build : Build) (codec : FwdCodec) (isMsgSeen : Bytes → Bool)
    (stream : Bytes) : Outcome :=
  match (codec.readMsg stream).bind codec.unmarshal with
  | none => .returned
  | some msg =>
    if isMsgSeen msg.id then .returned
    else if msg.seqno.length < 8 then .indexOutOfRange
    else
      match build, msg.topic with
      | .pubsub, none => .nilDereference
      | _, topic => .emitted (topic.getD []) msg

def Outcome.survives : Outcome → Bool
  | .returned | .emitted _ _ => true
  | _ => false

/-- The handler survives exactly messages that it has seen, and those with a sequence number
and, with gossip, a topic. -/
theorem survives_iff (build : Build) (codec : FwdCodec) (isMsgSeen : Bytes → Bool)
    (stream : Bytes) :
    (handlePubSubFwdStream build codec isMsgSeen stream).survives = true ↔
      ∀ raw msg, codec.readMsg stream = some raw → codec.unmarshal raw = some msg →
        isMsgSeen msg.id = false → 8 ≤ msg.seqno.length ∧ (build = .pubsub → msg.topic.isSome) := by
  have decoded : ∀ msg, (codec.readMsg stream).bind codec.unmarshal = some msg ↔
      ∃ raw, codec.readMsg stream = some raw ∧ codec.unmarshal raw = some msg :=
    fun msg => Option.bind_eq_some_iff
  rw [handlePubSubFwdStream]
  cases isMsg : (codec.readMsg stream).bind codec.unmarshal with
  | none =>
    refine iff_of_true rfl fun raw msg read unmarshalled => ?_
    rw [(decoded msg).mpr ⟨raw, read, unmarshalled⟩] at isMsg
    cases isMsg
  | some msg =>
    have only : (∀ raw other, codec.readMsg stream = some raw → codec.unmarshal raw = some other →
        isMsgSeen other.id = false →
          8 ≤ other.seqno.length ∧ (build = .pubsub → other.topic.isSome)) ↔
        (isMsgSeen msg.id = false →
          8 ≤ msg.seqno.length ∧ (build = .pubsub → msg.topic.isSome)) := by
      rcases (decoded msg).mp isMsg with ⟨raw, read, unmarshalled⟩
      grind
    rw [only]
    cases build <;> cases isTopic : msg.topic <;> grind [Outcome.survives]

def fieldless : FwdCodec := ⟨some, fun _ => some ⟨[], [], [], none⟩, id, rfl, rfl⟩

theorem empty_panics :
    let outcome (build : Build) := handlePubSubFwdStream build fieldless (fun _ => false)
      (fieldless.framed (ascii "\x7b\x7d"))
    outcome .pubsub = .indexOutOfRange ∧ outcome .nopubsub = .indexOutOfRange := by
  decide +kernel

def maxFrame : Nat := 2 ^ 20

def fieldText (field : GoString × Bytes) : Bytes :=
  44 :: (Json.marshalString field.1 ++ 58 :: field.2)

def object (fields : List (GoString × Bytes)) : Bytes :=
  123 :: ((fields.flatMap fieldText).drop 1 ++ [125])

def bytesField (name : GoString) (bytes : Bytes) : List (GoString × Bytes) :=
  if bytes = [] then [] else [(name, Json.marshalBytes bytes)]

/-- `json.Marshal` of a message, whose sequence number has eight bytes; `receivedFrom` is the
text of the own ID. -/
def marshal (build : Build) (receivedFrom : GoString) (sender : Bytes) (seqno : Nat)
    (topic : GoString) (data : Bytes) : Bytes :=
  let topicField := [(ascii "topic", Json.marshalString topic)]
  object (bytesField (ascii "from") sender ++ bytesField (ascii "data") data ++
    (ascii "seqno", Json.marshalBytes (bigEndian 8 seqno)) :: match build with
      | .nopubsub => if topic = [] then [] else topicField
      | .pubsub => topicField ++ [(ascii "ID", Json.marshalString []),
          (ascii "ReceivedFrom", Json.marshalString receivedFrom),
          (ascii "ValidatorData", ascii "null"), (ascii "Local", ascii "false")])

theorem length_base64Encode (bytes : Bytes) :
    (base64Encode bytes).length = 4 * ((bytes.length + 2) / 3) := by
  fun_induction base64Encode bytes with
  | case1 | case2 | case3 => simp
  | case4 a b c rest ih =>
    simp only [List.length_append, ih, List.length_cons, List.length_nil]
    omega

theorem length_dataField (nonempty : data ≠ []) :
    ((bytesField (ascii "data") data).flatMap fieldText).length =
      10 + 4 * ((data.length + 2) / 3) := by
  have name : (Json.marshalString (ascii "data")).length = 6 := by decide +kernel
  simp [bytesField, nonempty, fieldText, Json.marshalBytes, name, length_base64Encode]
  omega

theorem length_marshal (build : Build) (receivedFrom : GoString) (sender : Bytes) (seqno : Nat)
    (topic : GoString) (nonempty : data ≠ []) :
    (marshal build receivedFrom sender seqno topic data).length =
      (marshal build receivedFrom sender seqno topic []).length +
        (10 + 4 * ((data.length + 2) / 3)) := by
  have added := length_dataField nonempty
  have comma : 0 < (fieldText (ascii "seqno", Json.marshalBytes (bigEndian 8 seqno))).length :=
    Nat.succ_pos _
  have none : ((bytesField (ascii "data") []).flatMap fieldText).length = 0 := rfl
  simp only [marshal, object, List.flatMap_append, List.flatMap_cons, List.length_cons,
    List.length_append, List.length_drop, List.length_nil] at added none ⊢
  omega

/-- A payload is received exactly if there is room for four bytes instead of three. -/
theorem receivable_iff (build : Build) (receivedFrom : GoString) (sender : Bytes) (seqno : Nat)
    (topic : GoString) (data : Bytes) :
    (marshal build receivedFrom sender seqno topic data).length ≤ maxFrame ↔
      (marshal build receivedFrom sender seqno topic []).length +
        (if data = [] then 0 else 10 + 4 * ((data.length + 2) / 3)) ≤ maxFrame := by
  split
  · rename_i isEmpty
    rw [isEmpty, Nat.add_zero]
  · rename_i nonempty
    rw [length_marshal build receivedFrom sender seqno topic nonempty]

theorem largest_not_receivable :
    let data : Bytes := List.replicate maxPublishSize 0
    data.length ≤ maxPublishSize ∧
      ¬(marshal .nopubsub [] [1] 0 (ascii "news") data).length ≤ maxFrame ∧
      ¬(marshal .pubsub (ascii "1") [1] 0 (ascii "news") data).length ≤ maxFrame := by
  intro data
  have size : data.length = 2 ^ 20 := List.length_replicate
  have nonempty : data ≠ [] := List.ne_nil_of_length_eq_add_one size
  rw [length_marshal _ _ _ _ _ nonempty, length_marshal _ _ _ _ _ nonempty, size]
  simp only [maxFrame, maxPublishSize]
  omega

end Peerscale.P2put.Forwards
