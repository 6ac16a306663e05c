import Peerscale.RelayFile.Conversation
import Peerscale.RelayFile.Resume

/-! # A whole transfer

`SendFile` and `HandleFileStream` in conversation over a lossless, ordered stream.
The plan of the conversation links the counters of both loops: `seq` and the end of
the batch on the one side, the bitmap and `lastAck` on the other.
-/

namespace Peerscale.RelayFile

open Nat Assembly List Reply Party

/-- The session holds exactly the first `count` chunks and has acknowledged
`lastAck` of them. -/
def Holding (file : Outgoing) (config : Config) (count lastAck : Nat) (ses : Session)
    (w : World) : Prop :=
  ∃ assembly : Assembly file.totalChunks, Represents file config [] assembly ses w ∧
    assembly.start = 0 ∧ assembly.InOrder count ∧ assembly.lastAck = lastAck

def Outgoing.boundary (file : Outgoing) (index : Nat) : Nat :=
  min (ackBatch * index) file.totalChunks

def Outgoing.ackCount (file : Outgoing) : Nat := pieceCount ackBatch file.totalChunks

section Receiving

variable {library : Library} {config : Config} {file : Outgoing} {ses : Session} {w : World}
  {cb : Bool}

theorem Accepted.holding (accepted : Accepted file config [] 0 (zero_le _) ses w) :
    Holding file config 0 0 ses w :=
  ⟨_, accepted.represents, rfl, inOrder_opening _, rfl⟩

theorem Assembly.receive_inOrder {asm : Assembly file.totalChunks}
    (fromStart : asm.start = 0) (inOrder : asm.InOrder n)
    (lastAck : asm.lastAck = ackBatch * index) (begun : ackBatch * index ≤ n)
    (unfinished : n < file.boundary (index + 1)) :
    (n + 1 = file.boundary (index + 1) ∧
        (asm.receive n).1.lastAck = n + 1 ∧ (asm.receive n).2 = [n]) ∨
      (n + 1 < file.boundary (index + 1) ∧ (asm.receive n).1.lastAck = ackBatch * index ∧
        (asm.receive n).2 = []) := by
  have next := inOrder.receive
  rw [fromStart, zero_add] at next
  unfold Outgoing.boundary at unfinished ⊢
  rw [mul_add, mul_one] at unfinished ⊢
  have inserted : (asm.insert n).continuous = n + 1 := by
    have ordered : (asm.insert n).InOrder (n + 1) := by simpa [Assembly.InOrder, receive] using next
    rw [ordered.continuous (by rw [insert_start]; omega), insert_start, fromStart, zero_add]
  have due : (asm.insert n).ackDue ↔
      n + 1 = min (ackBatch * index + ackBatch) file.totalChunks := by
    unfold ackDue
    rw [inserted, insert_lastAck, lastAck]
    omega
  by_cases now : n + 1 = min (ackBatch * index + ackBatch) file.totalChunks
  · have sent := acknowledge_of_due (due.mpr now)
    rw [inserted] at sent
    exact .inl ⟨now, sent⟩
  refine .inr ⟨by omega, ?_⟩
  rw [receive, acknowledge_of_not_due (mt due.mp now)]
  exact ⟨(insert_lastAck _ _).trans lastAck, rfl⟩

theorem Holding.receive {index n : Nat} (holding : Holding file config n (ackBatch * index) ses w)
    (lossless : file.Lossless library) (begun : ackBatch * index ≤ n)
    (unfinished : n < file.boundary (index + 1)) :
    ∃ lastAck numbers next post, (receiverParty library config).Performs
        ((Receiver.receiving ses cb 0 (ackBatch * index : Nat)).receive library config
          (.frame (file.dataFrame library n))) w
        ((acks numbers).map (frame library))
        (.receiving next cb 0 (lastAck : Nat)) post ∧
      Holding file config (n + 1) lastAck next post ∧
      ((n + 1 = file.boundary (index + 1) ∧ lastAck = n + 1 ∧ numbers = [n]) ∨
        (n + 1 < file.boundary (index + 1) ∧ lastAck = ackBatch * index ∧ numbers = [])) := by
  rcases holding with ⟨asm, represents, fromStart, inOrder, acknowledged⟩
  have within : n < file.totalChunks := lt_of_lt_of_le unfinished (min_le_right _ _)
  rcases represents.receive lossless within cb 0 with ⟨next, post, ran, follows, extended⟩
  have ordered := inOrder.receive
  rw [fromStart, zero_add] at ordered
  rw [acknowledged] at ran
  refine ⟨(asm.receive n).1.lastAck, (asm.receive n).2, next, post,
    performs_of_run ran extended.sent, ⟨_, follows, ?_, ordered, rfl⟩,
    Assembly.receive_inOrder fromStart inOrder acknowledged begun unfinished⟩
  rw [Assembly.receive, Assembly.acknowledge_start, Assembly.insert_start, fromStart]

theorem Holding.fin {lastAck : Nat} (holding : Holding file config file.totalChunks lastAck ses w)
    (readable : file.Readable library) (acknowledged : Int) :
    ∃ post, (receiverParty library config).Performs
        ((Receiver.receiving ses cb 0 acknowledged).receive library config
          (.frame (file.finFrame library))) w
        [frame library .done] (.ended .delivered) post ∧
      post.files.read (finalPath config file.name) = some file.bytes := by
  rcases holding with ⟨asm, represents, fromStart, inOrder, -⟩
  have whole : heldBytes file [] asm = file.bytes := by
    have covered : file.bytes.length ≤ file.totalChunks * chunkSize :=
      le_pieceCount_mul Outgoing.chunkSize_pos _
    rw [heldBytes_inOrder inOrder, fromStart, zero_mul, drop_zero, take_of_length_le covered]
    exact (splice_length [] _).trans (nil_append _)
  rcases represents.fin (congrArg FinMessage.checksum readable.fin) cb 0 acknowledged with
    ⟨ending, post, ran, delivered, -⟩
  rw [whole] at delivered
  rcases delivered rfl with ⟨ended, inPlace, sent⟩
  subst ending
  exact ⟨post, performs_of_run ran sent, inPlace⟩

theorem performs_init (readable : file.Readable library) (files : Files) :
    ∃ ses post, (receiverParty library config).Performs
        (Receiver.waitInit.receive library config (.frame (initFrame library file 0)))
        ⟨files, Local.fresh cb⟩ [frame library (.accept 0)]
        (.receiving ses cb 0 0) post ∧
      Holding file config 0 0 ses post := by
  rcases @accepted_of_unlinked file config 0 files cb (.inl (by decide)) with
    ⟨ses, post, ran, accepted⟩
  refine ⟨ses, post, ?_, accepted.holding⟩
  have read : readJSONFrame library frameTypeInit library.unmarshalInit
      (some (initFrame library file 0)) = .ok (file.initMessage 0) :=
    readJSONFrame_of_decoded (by decide) (by decide) readable.init
  have reacted : Receiver.waitInit.receive library config (.frame (initFrame library file 0)) =
        handleFileStream config (file.initMessage 0) := by
    simp only [Receiver.receive, read]
  rw [reacted]
  exact performs_of_run ran accepted.sent

end Receiving

section Plan

variable (library : Library) (sendConfig : SendConfig) (config : Config) (file : Outgoing)

abbrev Transfer := Dialogue (senderParty library sendConfig file) (receiverParty library config)

def offered (count : Nat) : List Frame :=
  initFrame library file 0 :: (List.range count).map (file.dataFrame library)

def answered (index : Nat) : List Frame :=
  Reply.frame library (.accept 0) ::
    (acks ((List.range index).map fun batch => file.boundary (batch + 1) - 1)).map
      (Reply.frame library)

def awaited (streams : Streams) : Nat → Sender
  | 0 => .waitAccept streams
  | index + 1 => .waitAck streams (file.boundary (index + 1))

/-- Where both parties stand in a transfer, and how many reactions are to come. -/
inductive Planned (files : Files) (callback : Bool) :
    Nat → (senderParty library sendConfig file).Standing →
      (receiverParty library config).Standing → Prop
  /-- INIT is on its way. -/
  | opening {streams : Streams} {sendWorld : SendWorld}
      (sending : Sending file 0 sendWorld) :
      Planned files callback (file.totalChunks + file.ackCount + 4)
        ⟨.waitAccept streams, sendWorld, offered library file 0, 0⟩
        ⟨.waitInit, ⟨files, Local.fresh callback⟩, [], 0⟩
  /-- ACCEPT, or the ACK of a whole batch, is on its way. -/
  | answered {streams : Streams} {sendWorld : SendWorld} {ses : Session} {w : World}
      {index : Nat} (sending : Sending file index sendWorld)
      (holding : Holding file config (file.boundary index) (file.boundary index) ses w)
      (needed : index ≤ file.ackCount) :
      Planned files callback (file.totalChunks - file.boundary index + (file.ackCount - index) + 3)
        ⟨awaited file streams index, sendWorld, offered library file (file.boundary index), index⟩
        ⟨.receiving ses callback 0 (file.boundary index : Nat), w,
          answered library file index, file.boundary index + 1⟩
  /-- A batch is on its way, and the receiver has read part of it. -/
  | streaming {streams : Streams} {sendWorld : SendWorld} {ses : Session} {w : World}
      {index count : Nat} (sending : Sending file (index + 1) sendWorld)
      (holding : Holding file config count (ackBatch * index) ses w)
      (begun : ackBatch * index ≤ count)
      (unfinished : count < file.boundary (index + 1)) :
      Planned files callback (file.totalChunks - count + (file.ackCount - index) + 2)
        ⟨.waitAck streams (file.boundary (index + 1)), sendWorld,
          offered library file (file.boundary (index + 1)), index + 1⟩
        ⟨.receiving ses callback 0 (ackBatch * index : Nat), w, answered library file index,
          count + 1⟩
  /-- FIN is on its way. -/
  | finishing {streams : Streams} {sendWorld : SendWorld} {ses : Session} {w : World}
      {lastAck : Nat} (sending : Sending file (file.ackCount + 1) sendWorld)
      (holding : Holding file config file.totalChunks lastAck ses w) :
      Planned files callback 2 ⟨.waitDone streams, sendWorld,
          offered library file file.totalChunks ++ [file.finFrame library],
          file.ackCount + 1⟩
        ⟨.receiving ses callback 0 (lastAck : Nat), w,
          answered library file file.ackCount, file.totalChunks + 1⟩
  /-- DONE is on its way. -/
  | delivered {streams : Streams} {sendWorld : SendWorld} {w : World}
      (sending : Sending file (file.ackCount + 1) sendWorld)
      (inPlace : w.files.read (finalPath config file.name) = some file.bytes) :
      Planned files callback 1 ⟨.waitDone streams, sendWorld,
          offered library file file.totalChunks ++ [file.finFrame library],
          file.ackCount + 1⟩
        ⟨.ended .delivered, w, answered library file file.ackCount ++ [Reply.frame library .done],
          file.totalChunks + 2⟩
  | concluded {sendWorld : SendWorld} {w : World}
      (sending : Sending file (file.ackCount + 1) sendWorld)
      (inPlace : w.files.read (finalPath config file.name) = some file.bytes) :
      Planned files callback 0 ⟨.returned none, sendWorld,
          offered library file file.totalChunks ++ [file.finFrame library],
          file.ackCount + 2⟩
        ⟨.ended .delivered, w, answered library file file.ackCount ++ [Reply.frame library .done],
          file.totalChunks + 2⟩

end Plan

section Counting

variable {library : Library} {file : Outgoing} {index : Nat}

theorem lt_ackCount_iff : index < file.ackCount ↔ ackBatch * index < file.totalChunks := by
  rw [mul_comm]
  exact lt_pieceCount_iff (by decide) _ _

theorem boundary_of_lt (more : index < file.ackCount) : file.boundary index = ackBatch * index :=
  min_eq_left (le_of_lt (lt_ackCount_iff.mp more))

theorem boundary_ackCount : file.boundary file.ackCount = file.totalChunks := by
  have beyond := (@lt_ackCount_iff file file.ackCount).not
  unfold Outgoing.boundary
  omega

theorem lt_boundary_succ (more : index < file.ackCount) :
    ackBatch * index < file.boundary (index + 1) := by
  have inside := lt_ackCount_iff.mp more
  unfold Outgoing.boundary
  rw [mul_add, ackBatch] at *
  omega

@[simp] theorem length_offered (n : Nat) : (offered library file n).length = n + 1 := by
  simp [offered]

@[simp] theorem length_answered (index : Nat) :
    (answered library file index).length = index + 1 := by
  simp [answered, acks]

theorem offered_append (x more : Nat) :
    offered library file x ++ (range' x more).map (file.dataFrame library) =
      offered library file (x + more) := by
  rw [offered, offered, cons_append, ← map_append, range_eq_range',
    range_eq_range', ← range'_append_1, zero_add]

theorem answered_succ (index : Nat) :
    answered library file (index + 1) = answered library file index ++
      (acks [file.boundary (index + 1) - 1]).map (frame library) := by
  simp [answered, acks, range_succ]

theorem getElem?_offered (below : seq < n) :
    (offered library file n)[seq + 1]? = some (file.dataFrame library seq) := by
  simp [offered, below]

theorem getElem?_answered (index : Nat) :
    (answered library file (index + 1))[index + 1]? =
      some (frame library (.ack (file.boundary (index + 1) - 1 : Nat))) := by
  rw [answered_succ, getElem?_append_right (by simp)]
  simp [acks]

end Counting

section Planned

variable {library : Library} {sendConfig : SendConfig} {config : Config} {file : Outgoing}
  {files : Files} {cb : Bool} {streams : Streams} {sendWorld : SendWorld}

theorem performs_awaited {index : Nat} {msg : Frame}
    (sending : Sending file index sendWorld) (needed : index ≤ file.ackCount)
    (readable : file.Readable library)
    (arrived : (answered library file index)[index]? = some msg) :
    ∃ post, (senderParty library sendConfig file).Performs
        ((awaited file streams index).receive library sendConfig file (some msg))
        sendWorld (framesFrom library file (file.boundary index))
        (waitFrom file streams (file.boundary index)) post ∧
      Sending file (index + 1) post := by
  cases index with
  | zero =>
    have isAccept : frame library (.accept 0) = msg := by simpa [answered] using arrived
    have read : readJSONFrame library frameTypeAccept library.unmarshalAccept (some msg) =
        .ok 0 := by
      rw [← isAccept]
      exact readJSONFrame_of_decoded (by decide) (by decide) readable.accept
    have start : file.boundary 0 = 0 := zero_min _
    rw [awaited, Sender.receive, read, start]
    exact performs_afterAccept sending
  | succ index =>
    have small := file.totalChunks_le
    have within : file.boundary (index + 1) ≤ file.totalChunks := min_le_right _ _
    have pos := lt_boundary_succ needed
    have isAck := Option.some.inj ((getElem?_answered index).symm.trans arrived)
    have read : readJSONFrame library frameTypeAck library.unmarshalAck (some msg) =
        .ok (Int64.ofNat (file.boundary (index + 1) - 1)) := by
      rw [← isAck, frame, Int64.ofInt_eq_ofNat]
      exact readJSONFrame_of_decoded (by decide) (by decide) (readable.ack _ (by omega))
    rw [awaited, Sender.receive, read]
    dsimp only
    rw [Int64.toInt_ofNat_of_lt (by omega)]
    exact performs_afterAck sending (by omega) within

theorem planned_onwards {index : Nat} {ses : Session} {w : World}
    (sending : Sending file (index + 1) sendWorld)
    (holding : Holding file config (file.boundary index) (file.boundary index)
      ses w) (needed : index ≤ file.ackCount) :
    ∃ fewer, fewer < file.totalChunks - file.boundary index + (file.ackCount - index) + 3 ∧
      Planned library sendConfig config file files cb fewer
        ⟨waitFrom file streams (file.boundary index), sendWorld,
          offered library file (file.boundary index) ++
            framesFrom library file (file.boundary index), index + 1⟩
        ⟨.receiving ses cb 0 (file.boundary index : Nat), w,
          answered library file index, file.boundary index + 1⟩ := by
  unfold framesFrom waitFrom
  rcases Nat.lt_or_eq_of_le needed with more | last
  · have inside := lt_ackCount_iff.mp more
    have ahead := lt_boundary_succ more
    have start := boundary_of_lt more
    have ending : batchEnd file (ackBatch * index) = file.boundary (index + 1) := rfl
    rw [start] at holding
    rw [start, if_pos inside, if_pos inside, ending, offered_append,
      Nat.add_sub_cancel' (Nat.le_of_lt ahead)]
    exact ⟨_, Nat.lt_succ_self _, .streaming sending holding (Nat.le_refl _) ahead⟩
  subst index
  rw [boundary_ackCount] at holding
  rw [boundary_ackCount, if_neg (Nat.lt_irrefl _), if_neg (Nat.lt_irrefl _)]
  exact ⟨2, by omega, .finishing sending holding⟩

theorem performs_afterDone {deadlines : Nat} {msg : Frame}
    (sending : Sending file deadlines sendWorld) (readable : file.Readable library)
    (isDone : frame library .done = msg) :
    ∃ post, (senderParty library sendConfig file).Performs
        ((Sender.waitDone streams).receive library sendConfig file (some msg))
        sendWorld [] (.returned none) post ∧
      Sending file deadlines post := by
  have read : readJSONFrame library frameTypeDone library.unmarshalDone (some msg) =
      .ok true := by
    rw [← isDone]
    exact readJSONFrame_of_decoded (by decide) (by decide) readable.done
  rcases @performs_reportSending library sendConfig file
    { sendWorld with state := .done } .done file.bytes.length file.totalChunks with
      ⟨progress, reported⟩
  rw [Sender.receive, read]
  refine ⟨_, performs_silent rfl rfl (reported.bind (performs_silent rfl rfl
    (performs_silent rfl rfl (performs_silent rfl rfl
      (performs_done _ _))))), sending.file, sending.deadlines⟩

theorem planned_receive (sending : Sending file (index + 1) sendWorld)
    (holding : Holding file config n (ackBatch * index) ses w)
    (lossless : file.Lossless library) (begun : ackBatch * index ≤ n)
    (unfinished : n < file.boundary (index + 1)) :
    ∃ fewer said state post, fewer < file.totalChunks - n + (file.ackCount - index) + 2 ∧
      (receiverParty library config).Performs
        ((Receiver.receiving ses cb 0 (ackBatch * index : Nat)).receive library config
          (.frame (file.dataFrame library n))) w said state post ∧
      Planned library sendConfig config file files cb fewer
        ⟨.waitAck streams (file.boundary (index + 1)), sendWorld,
          offered library file (file.boundary (index + 1)), index + 1⟩
        ⟨state, post, answered library file index ++ said, n + 1 + 1⟩ := by
  have within : file.boundary (index + 1) ≤ file.totalChunks := Nat.min_le_right _ _
  have needed : index < file.ackCount := lt_ackCount_iff.mpr (by omega)
  rcases @Holding.receive library config file ses w cb index n holding
    lossless begun unfinished with ⟨lastAck, numbers, next, post, performs, held, which⟩
  rcases which with ⟨complete, rfl, rfl⟩ | ⟨incomplete, rfl, rfl⟩
  · have answers := @answered_succ library file index
    rw [← complete, Nat.add_sub_cancel] at answers
    refine ⟨file.totalChunks - file.boundary (index + 1) +
      (file.ackCount - (index + 1)) + 3, _, _, post, by omega, performs, ?_⟩
    rw [← answers]
    rw [complete] at held ⊢
    exact .answered sending held needed
  refine ⟨file.totalChunks - (n + 1) + (file.ackCount - index) + 2, _, _, post,
    by omega, performs, ?_⟩
  rw [show (acks []).map (frame library) = [] from rfl, append_nil]
  exact .streaming sending held (by omega) incomplete

theorem plan (lossless : file.Lossless library) (readable : file.Readable library) :
    Dialogue.Plan (Planned library sendConfig config file files cb) where
  left {budget left right msg} planned arrived := by
    cases planned with
    | opening | streaming | finishing | concluded => simp at arrived
    | @answered streams sendWorld ses w index sending holding needed =>
      rcases @performs_awaited library sendConfig file streams sendWorld index _ sending
        needed readable arrived with ⟨post, performs, onwards⟩
      rcases @planned_onwards library sendConfig config file files cb streams post
        index ses w onwards holding needed with ⟨fewer, less, planned⟩
      exact ⟨fewer, _, _, post, less, performs, planned⟩
    | @delivered streams sendWorld w sending inPlace =>
      have isDone : frame library .done = msg := by simpa [getElem?_append_right] using arrived
      rcases @performs_afterDone library sendConfig file streams sendWorld _ _ sending
        readable isDone with ⟨post, performs, onwards⟩
      refine ⟨0, [], .returned none, post, zero_lt_one, performs, ?_⟩
      dsimp only [Party.Standing.advance]
      rw [append_nil]
      exact .concluded onwards inPlace
  right {budget left right msg} planned arrived := by
    cases planned with
    | @opening streams sendWorld sending =>
      have isInit : initFrame library file 0 = msg := by simpa [offered] using arrived
      subst isInit
      rcases @performs_init library config file cb readable files with
        ⟨ses, post, performs, holding⟩
      have start : file.boundary 0 = 0 := zero_min _
      have planned := @Planned.answered library sendConfig config file files cb
        streams sendWorld ses post 0 sending (start ▸ holding) (zero_le _)
      rw [start] at planned
      exact ⟨_, _, _, post, lt_succ_self _, performs, planned⟩
    | answered | delivered | concluded => simp at arrived
    | streaming sending holding begun unfinished =>
      have isData := Option.some.inj ((getElem?_offered unfinished).symm.trans arrived)
      subst isData
      exact planned_receive sending holding lossless begun unfinished
    | @finishing streams sendWorld ses w lastAck sending holding =>
      have isFin : file.finFrame library = msg := by simpa [getElem?_append_right] using arrived
      subst isFin
      rcases @Holding.fin library config file ses w cb lastAck holding readable
        lastAck with ⟨post, performs, inPlace⟩
      exact ⟨1, _, _, post, one_lt_two, performs, .delivered sending inPlace⟩
  halfDuplex planned := by
    cases planned with
    | opening => exact .inl (le_refl _)
    | answered | delivered | concluded => exact .inr (by simp)
    | streaming | finishing => exact .inl (by simp)

end Planned

section Runs

variable {library : Library} {sendConfig : SendConfig} {config : Config} {file : Outgoing}

namespace Transfer

def start (library : Library) (sendConfig : SendConfig) (config : Config) (file : Outgoing)
    (files : Files) (cb : Bool) : Transfer library sendConfig config file where
  left := ⟨sendFile library file, .start file, [], 0⟩
  right := ⟨.done .waitInit, ⟨files, Local.fresh cb⟩, [], 0⟩

/-- Both sides have ended well, having exchanged what they had to, and the file is
in place. -/
structure Finished (transfer : Transfer library sendConfig config file) : Prop where
  returned : transfer.left.program = .done (.returned none)
  ended : transfer.right.program = .done (.ended .delivered)
  inPlace : transfer.right.world.files.read (finalPath config file.name) =
    some file.bytes
  offers : transfer.left.said =
    offered library file file.totalChunks ++ [file.finFrame library]
  answers : transfer.right.said =
    answered library file file.ackCount ++ [Reply.frame library .done]
  /-- One wait for every ACK, and one for DONE. -/
  waits : transfer.left.world.deadlines = file.ackCount + 1

def acksSent (transfer : Transfer library sendConfig config file) : Nat :=
  transfer.right.said.countP fun frame => frame.typ = frameTypeAck

def waits (transfer : Transfer library sendConfig config file) : Nat :=
  transfer.left.world.deadlines

variable {files : Files} {cb : Bool}

theorem follows_start :
    ∃ left right, Dialogue.Follows (Planned library sendConfig config file files cb)
      (file.totalChunks + file.ackCount + 4)
      (start library sendConfig config file files cb) left right := by
  have sending : Sending file 0
      { SendWorld.start file with registered := true, opened := 1 } := ⟨rfl, rfl⟩
  have performs : (senderParty library sendConfig file).Performs
      (sendFile library file) (.start file) [initFrame library file 0]
      (.waitAccept ⟨0, 0⟩) { SendWorld.start file with registered := true, opened := 1 } :=
    performs_silent rfl rfl (performs_silent rfl rfl (performs_written rfl rfl (performs_done _ _)))
  exact ⟨_, _, .opening sending, ⟨performs.ran, performs.said.symm, rfl⟩,
    ⟨rfl, rfl, rfl⟩, le_refl _, le_refl _⟩

theorem finished_of_concluded {tr : Transfer library sendConfig config file}
    (concluded : Dialogue.Concluded (Planned library sendConfig config file files cb) tr) :
    tr.Finished := by
  rcases concluded with ⟨budget, left, right, planned, rfl, heard, understood⟩
  cases planned with
  | opening | finishing => simp at understood
  | answered | delivered => simp at heard
  | streaming =>
    simp only [length_offered] at understood
    omega
  | concluded sending inPlace => exact ⟨rfl, rfl, inPlace, rfl, rfl, sending.deadlines⟩

theorem countP_answered (index : Nat) :
    (answered library file index).countP (fun fr => fr.typ = frameTypeAck) = index := by
  simp [answered, acks, frame, frameTypeAccept, frameTypeAck, countP_map, Function.comp_def]

/-- While the sender waits for an ACK, every earlier wait has been answered by one
ACK, and this one by at most one. -/
theorem acksSent_of_waitAck {tr : Transfer library sendConfig config file}
    (follows : Dialogue.Follows (Planned library sendConfig config file files cb)
      budget tr left right) (waiting : tr.left.program = .done (.waitAck streams seq)) :
    tr.acksSent ≤ tr.waits ∧ tr.waits ≤ tr.acksSent + 1 := by
  have idle := follows.left.eq_idle waiting
  have state : left.state = .waitAck streams seq := by
    rw [idle] at waiting
    exact Program.done.inj waiting
  have bound : ∀ index, right.said = answered library file index →
      tr.right.said.length ≤ tr.acksSent + 1 ∧ tr.acksSent ≤ index := by
    intro index whole
    have total := @countP_answered library file index
    have length := @length_answered library file index
    rw [← whole, follows.right.said] at total length
    rw [countP_append] at total
    rw [length_append] at length
    have rest := @List.countP_le_length _ (fun fr : Frame => decide (fr.typ = frameTypeAck))
      ((receiverParty library config).output tr.right.program tr.right.world)
    unfold acksSent
    omega
  have read := follows.leftHeard
  have planned := follows.planned
  rw [idle] at read
  unfold waits
  rw [idle]
  cases planned with
  | opening | finishing | delivered | concluded => cases state
  | @answered streams sendWorld ses w index sending =>
    have waited : sendWorld.deadlines = index := sending.deadlines
    rcases bound index rfl with ⟨enough, notMore⟩
    change _ ≤ sendWorld.deadlines ∧ sendWorld.deadlines ≤ _
    change index ≤ _ at read
    omega
  | @streaming streams sendWorld ses w index n sending =>
    have waited : sendWorld.deadlines = index + 1 := sending.deadlines
    rcases bound index rfl with ⟨enough, notMore⟩
    change _ ≤ sendWorld.deadlines ∧ sendWorld.deadlines ≤ _
    change index + 1 ≤ _ at read
    omega

end Transfer

variable {outgoing : Outgoing}

/-- A transfer over a stream that loses and reorders nothing, however its buffers
are filled: the two loops never wait for each other, every wait of the sender is
answered by one ACK, and whatever the interleaving the file arrives. INIT asks for
offset 0, so a `.part` file that is there is not resumed from. -/
theorem transfer_completes (lossless : outgoing.Lossless library)
    (readable : outgoing.Readable library) (files : Files) (callback : Bool) {capacity : Nat}
    (positive : 0 < capacity) :
    Inevitable (Dialogue.Step capacity) Transfer.Finished
        (Transfer.start library sendConfig config outgoing files callback) ∧
      ∀ reached, Relation.ReflTransGen (Dialogue.Step capacity)
          (Transfer.start library sendConfig config outgoing files callback) reached →
        (Transfer.Finished reached ∨ ∃ next, Dialogue.Step capacity reached next) ∧
        ∀ streams seq, reached.left.program = .done (.waitAck streams seq) →
          Transfer.acksSent reached ≤ Transfer.waits reached ∧
            Transfer.waits reached ≤ Transfer.acksSent reached + 1 := by
  have planned := @plan library sendConfig config outgoing files callback lossless readable
  rcases @Transfer.follows_start library sendConfig config outgoing files callback with
    ⟨left, right, follows⟩
  constructor
  · exact (planned.inevitable positive follows).mono fun _ => Transfer.finished_of_concluded
  intro reached run
  rcases planned.reachable follows run with ⟨budget, laterLeft, laterRight, later⟩
  refine ⟨(planned.progress positive later).imp_left Transfer.finished_of_concluded, ?_⟩
  intro streams seq waiting
  exact Transfer.acksSent_of_waitAck later waiting

end Runs

def packedGreeting : Outgoing := { greeting with compression := .zstd }

theorem transfer_completes_packedGreeting :
    Inevitable (Dialogue.Step 1) Transfer.Finished
      (Transfer.start (.ofTransfer (packedGreeting.initMessage 0))
        ⟨ascii "session", ascii "peer", true⟩ greetingConfig packedGreeting .empty false) := by
  have readable : packedGreeting.Readable (.ofTransfer (packedGreeting.initMessage 0)) := by
    refine ⟨by simp [Library.ofTransfer], by decide +kernel, ?_, ?_, by decide +kernel⟩
    · intro cs below
      have only : cs = 0 := Nat.lt_one_iff.mp below
      subst cs
      decide +kernel
    · simp [Library.ofTransfer, Outgoing.finMessage, Outgoing.initMessage]
  exact (transfer_completes (fun _ _ _ => Library.ofTransfer_zstdLossless _ _) readable
    .empty false Nat.one_pos).1

end Peerscale.RelayFile
