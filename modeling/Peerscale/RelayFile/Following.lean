import Peerscale.RelayFile.Assembly
import Peerscale.RelayFile.FaultFree
import Peerscale.RelayFile.Outgoing
import Mathlib.Data.List.ReduceOption

/-! # Receiving follows the assembly model

The bitmap and the `.part` file of a session that receives chunks of one file hold
what the assembly model says, chunk by chunk and over whole sequences.
-/

namespace Peerscale.RelayFile

open Program List FileSystem Receiver

def Outgoing.assembled (file : Outgoing) (arrived : List Nat) : Bytes :=
  arrived.flatMap file.chunk

/-- The session's bitmap and `.part` file hold what the assembly says, on top of
the `base` that was there when the session started. -/
structure Represents (outgoing : Outgoing) (config : Config) (base : Bytes)
    (assembly : Assembly outgoing.totalChunks) (ses : Session) (w : World) : Prop where
  belongs : Belongs config (outgoing.initMessage 0) ses
  totalChunks : ses.totalChunks = outgoing.totalChunks
  compression : ses.compression = outgoing.compression
  room : ses.bitmap.length = (outgoing.totalChunks + 63) / 64
  marks : ∀ seq, ses.bitmap.mem seq = assembly.has seq
  short : base.length ≤ assembly.start * chunkSize
  part : ∃ descriptor inode position, ses.tmpFile = some descriptor ∧
    w.files.descriptor descriptor = some ⟨inode, position⟩ ∧
    w.files.link (tmpPath config outgoing.name) = some inode ∧
    w.files.content inode = splice base (assembly.start * chunkSize)
      (outgoing.assembled assembly.arrived) ∧
    -- A start at the very end may lie beyond what can be sought to.
    (assembly.start < outgoing.totalChunks → position =
      assembly.start * chunkSize + (outgoing.assembled assembly.arrived).length)

structure Extends (before after : World) (replies : List Reply) : Prop where
  sent : after.self.sent = before.self.sent ++ replies
  state : after.self.state = before.self.state
  registered : after.self.registered = before.self.registered

def acks (numbers : List Nat) : List Reply := numbers.map fun cs => Reply.ack (cs : Nat)

section Assembling

variable {library : Library} {file : Outgoing} {config : Config} {base : Bytes}
  {asm : Assembly file.totalChunks} {ses : Session} {w : World}

theorem bitmapMaxContinuous_of_marks {asm : Assembly total} {bm : Bitmap}
    (marks : ∀ seq, bm.mem seq = asm.has seq) :
    bitmapMaxContinuous bm total = .ok (asm.continuous : Int) := by
  apply Bitmap.IsContinuous.eq
  refine ⟨asm.continuous_le, ?_, ?_⟩
  · intro seq below
    rw [marks, Assembly.has_of_lt_continuous below]
  · intro short
    rw [marks, Assembly.not_has_continuous short]

section

variable (totalChunks : ses.totalChunks = file.totalChunks)

include totalChunks

theorem ackDue_iff : AckDue ses asm.lastAck asm.continuous ↔ asm.ackDue := by
  have small := file.totalChunks_le
  have lastBound := asm.lastAck_le
  have runBound := asm.continuous_le
  unfold AckDue Assembly.ackDue
  rw [totalChunks, wrap64_of_mem (by omega) (by omega)]
  omega

theorem nextAck_eq : nextAck ses asm.lastAck asm.continuous = asm.acknowledge.1.lastAck := by
  unfold nextAck Assembly.acknowledge
  simp only [ackDue_iff totalChunks]
  split <;> rfl

theorem ackReplies_eq : ackReplies ses asm.lastAck asm.continuous = acks asm.acknowledge.2 := by
  unfold ackReplies acks Assembly.acknowledge
  simp only [ackDue_iff totalChunks]
  split
  · rename_i due
    have positive := due.2
    rw [map_singleton, Int.natCast_sub (by omega)]
    rfl
  · rfl

end

section

variable (represents : Represents file config base asm ses w)

include represents

theorem Represents.acknowledge (replies : List Reply) (reports : List FileProgress) :
    Represents file config base asm.acknowledge.1 ses (w.emitted replies reports) where
  belongs := represents.belongs
  totalChunks := represents.totalChunks
  compression := represents.compression
  room := represents.room
  marks seq := by rw [represents.marks, Assembly.acknowledge_has]
  short := by simpa using represents.short
  part := by simpa using represents.part

theorem Represents.write (within : seq < file.totalChunks) (missing : asm.has seq = false)
    (tmpFile : ses.tmpFile = some fd) :
    Represents file config base (asm.insert seq)
      (ses.afterWrite (ses.bitmap.modify (seq / 64) fun word => word ||| 1#64 <<< (seq % 64))
        (file.chunk seq))
      (w.withFiles (w.files.write fd (file.chunk seq))) where
  belongs := ⟨represents.belongs.tmpPath, represents.belongs.savePath, represents.belongs.checksum⟩
  totalChunks := represents.totalChunks
  compression := represents.compression
  room := by simpa [Session.afterWrite] using represents.room
  marks other := by
    have room := represents.room
    rw [Session.afterWrite, mem_modify (by omega), represents.marks, Assembly.has_insert]
  short := by simpa using represents.short
  part := by
    rcases represents.part with ⟨held, inode, pos, heldFile, cursorAt, linked, content, positioned⟩
    rw [heldFile, Option.some.injEq] at tmpFile
    subst held
    have startBelow : asm.start < file.totalChunks := by
      rw [Assembly.has, Bool.or_eq_false_iff, decide_eq_false_iff_not] at missing
      omega
    have atEnd := positioned startBelow
    have arrived : (asm.insert seq).arrived = asm.arrived ++ [seq] := by
      simp [Assembly.insert, missing]
    have assembled : file.assembled (asm.arrived ++ [seq]) =
        file.assembled asm.arrived ++ file.chunk seq := by
      simp [Outgoing.assembled]
    refine ⟨fd, inode, pos + (file.chunk seq).length, heldFile,
      descriptor_write cursorAt _, ?_, ?_, ?_⟩
    · simpa [World.withFiles] using linked
    · rw [arrived, assembled, Assembly.insert_start, World.withFiles,
        content_write cursorAt, Function.update_self, content, atEnd,
        splice_splice _ _ represents.short]
    intro _
    rw [arrived, assembled, Assembly.insert_start, length_append, atEnd]
    omega

theorem Represents.receive (lossless : file.Lossless library) {seq : Nat}
    (within : seq < file.totalChunks) (cb : Bool) (startSeq : Int) :
    ∃ next post, ((receiving ses cb startSeq asm.lastAck).receive library config
          (.frame (file.dataFrame library seq))).run handle w =
        (.ok (.receiving next cb startSeq (asm.receive seq).1.lastAck), post) ∧
      Represents file config base (asm.receive seq).1 next post ∧
      Extends w post (acks (asm.receive seq).2) := by
  have unpacked := Outgoing.unpackDataFrame_dataFrame lossless within
  rw [← represents.compression] at unpacked
  cases held : asm.has seq with
  | true =>
    have same : asm.insert seq = asm := by simp [Assembly.insert, held]
    have marked : bitmapHas ses.bitmap seq = .ok true := by
      rw [bitmapHas_natCast, represents.marks, held]
    have ran := run_receiveData_of_marked library config cb startSeq asm.lastAck w unpacked
      marked (by
        rw [represents.totalChunks]
        exact bitmapMaxContinuous_of_marks represents.marks)
    rw [nextAck_eq represents.totalChunks, ackReplies_eq represents.totalChunks] at ran
    rw [Assembly.receive, same]
    exact ⟨_, _, ran, represents.acknowledge _ _, rfl, rfl, rfl⟩
  | false =>
    rcases represents.part with ⟨fd, inode, pos, tmpFile, -⟩
    have written := represents.write within held tmpFile
    have unmarked : bitmapHas ses.bitmap seq = .ok false := by
      rw [bitmapHas_natCast, represents.marks, held]
    have ran := run_receiveData_of_unmarked library config cb startSeq asm.lastAck w
      unpacked unmarked tmpFile (bitmapSet_natCast ses.bitmap seq) (by
        rw [represents.totalChunks]
        exact bitmapMaxContinuous_of_marks written.marks)
    rw [← Assembly.insert_lastAck asm seq, nextAck_eq represents.totalChunks,
      ackReplies_eq represents.totalChunks] at ran
    rw [Assembly.insert_lastAck] at ran
    exact ⟨_, _, ran, written.acknowledge _ _, rfl, rfl, rfl⟩

end

/-- What a sender's chunks and the application's cancellations look like to the
session; `none` is a cancellation. -/
def deliveryEvent (library : Library) (file : Outgoing) : Option Nat → Event
  | some seq => .frame (file.dataFrame library seq)
  | none => .cancel

theorem Represents.cancelled (represents : Represents file config base asm ses w) :
    Represents file config base asm ses w.cancelled where
  belongs := represents.belongs
  totalChunks := represents.totalChunks
  compression := represents.compression
  room := represents.room
  marks := represents.marks
  short := represents.short
  part := by
    rw [cancelled_files]
    exact represents.part

theorem Represents.receiveAll (represents : Represents file config base asm ses w)
    (registered : w.self.registered) (lossless : file.Lossless library)
    (cb : Bool) (startSeq : Int) {deliveries : List (Option Nat)}
    (within : ∀ seq, some seq ∈ deliveries → seq < file.totalChunks) :
    ∃ next post, ((receiving ses cb startSeq asm.lastAck).receiveAll library config
          (deliveries.map (deliveryEvent library file))).run handle w =
        (.ok (.receiving next cb startSeq
          (asm.receiveAll deliveries.reduceOption).1.lastAck), post) ∧
      Represents file config base (asm.receiveAll deliveries.reduceOption).1 next post ∧
      post.self.sent = w.self.sent ++ acks (asm.receiveAll deliveries.reduceOption).2 ∧
      post.self.state = (if none ∈ deliveries then .cancelled else w.self.state) ∧
      post.self.registered := by
  induction deliveries generalizing asm ses w with
  | nil =>
    refine ⟨ses, w, rfl, represents, ?_, rfl, registered⟩
    simp [Assembly.receiveAll, acks]
  | cons delivery deliveries ih =>
    have rest : ∀ seq, some seq ∈ deliveries → seq < file.totalChunks :=
      fun seq member => within seq (mem_cons_of_mem _ member)
    cases delivery with
    | none =>
      have nowRegistered : w.cancelled.self.registered := by
        simp [World.cancelled, registered]
      rcases ih represents.cancelled nowRegistered rest with
        ⟨next, post, ran, follows, sent, state, stillRegistered⟩
      refine ⟨next, post, ran, follows, ?_, ?_, stillRegistered⟩
      · rw [sent, cancelled_sent]
        rfl
      · rw [state]
        simp [World.cancelled, registered]
    | some seq =>
      rcases represents.receive lossless (within seq mem_cons_self) cb startSeq with
        ⟨mid, between, stepRan, stepFollows, step⟩
      rcases ih stepFollows (step.registered.trans registered) rest with
        ⟨next, post, ran, follows, sent, state, stillRegistered⟩
      refine ⟨next, post, ?_, follows, ?_, ?_, stillRegistered⟩
      · rw [receiveAll, map_cons, foldlM_cons]
        exact (run_bind_of_ok handle stepRan).trans ran
      · rw [sent, step.sent, reduceOption_cons_of_some, Assembly.receiveAll]
        simp [acks]
      · rw [state, step.state]
        simp

def heldBytes (file : Outgoing) (base : Bytes) (asm : Assembly file.totalChunks) :
    Bytes :=
  splice base (asm.start * chunkSize) (file.assembled asm.arrived)

section

variable (represents : Represents file config base asm ses w)

include represents

theorem Represents.read :
    w.files.read (tmpPath config file.name) = some (heldBytes file base asm) := by
  rcases represents.part with ⟨fd, inode, pos, -, -, linked, content, -⟩
  rw [FileSystem.read, linked, Option.map_some, content, heldBytes]

theorem Represents.named : ses.tmpPath ≠ [] := by
  rw [represents.belongs.tmpPath]
  simp [tmpPath, partSuffix, ascii]

theorem Represents.fin
    (repeated : (library.unmarshalFin (library.marshalFin file.finMessage)).checksum =
      file.checksum) (cb : Bool) (startSeq lastAck : Int) :
    ∃ ending post, ((receiving ses cb startSeq lastAck).receive library config
          (.frame (file.finFrame library))).run handle w =
        (.ok (.ended ending), post) ∧
      (Certifies file.checksum (heldBytes file base asm) → ending = .delivered ∧
        post.files.read (finalPath config file.name) = some (heldBytes file base asm) ∧
        post.self.sent = w.self.sent ++ [.done]) ∧
      (¬Certifies file.checksum (heldBytes file base asm) → ending = .failed ∧
        ∃ why, post.self.sent = w.self.sent ++ [.error why]) := by
  have belongs := represents.belongs
  have checksum : ses.checksum = file.checksum := belongs.checksum
  have found : w.files.read ses.tmpPath = some (heldBytes file base asm) := by
    rw [belongs.tmpPath]
    exact represents.read
  rcases represents.part with ⟨fd, inode, pos, tmpFile, -⟩
  have received := @run_receiveFin library config ses w _ _ fd cb
    (repeated.trans checksum.symm) tmpFile represents.named found
  rw [checksum, belongs.savePath] at received
  exact received

end

end Assembling

section Opening

variable {file : Outgoing} {config : Config} {off : Int64} {files : Files} {callback : Bool}

structure Accepted (outgoing : Outgoing) (config : Config) (base : Bytes) (start : Nat)
    (start_le : start ≤ outgoing.totalChunks) (ses : Session) (w : World) : Prop where
  represents : Represents outgoing config base (.opening start start_le) ses w
  sent : w.self.sent = [.accept start]
  state : w.self.state = .transfer
  registered : w.self.registered

variable {start : Nat}

theorem newBitmap_totalChunks (file : Outgoing) :
    newBitmap file.totalChunks = .ok (replicate ((file.totalChunks + 63) / 64) 0) := by
  have small := file.totalChunks_le
  exact newBitmap_natCast (by omega)

theorem writtenChunks_natCast (length : Nat) :
    writtenChunks length chunkSize = pieceCount chunkSize length := by
  unfold writtenChunks pieceCount
  rw [Int.tmod_eq_emod_of_nonneg (by omega), Int.tdiv_eq_ediv_of_nonneg (by omega)]
  split
  · rw [if_pos (by omega)]
    omega
  · rw [if_neg (by omega)]
    omega

theorem has_opening (start_le : start ≤ total) (seq : Nat) :
    (Assembly.opening start start_le).has seq = decide (seq < start) :=
  Bool.or_false _

theorem continuous_opening (start_le : start ≤ total) :
    (Assembly.opening start start_le).continuous = start :=
  (Assembly.inOrder_opening start_le).continuous start_le

structure Sought (before after : World) (descriptor inode position : Nat) : Prop where
  self : after.self = before.self
  link : after.files.link = before.files.link
  content : after.files.content = before.files.content
  cursorAt : after.files.descriptor descriptor = some ⟨inode, position⟩

variable {inode : Nat}

section

variable {w : World} {fd : Nat} (cursorAt : w.files.descriptor fd = some ⟨inode, 0⟩)

include cursorAt

theorem sought_seek (off : Int) :
    ∃ pos, Sought w (w.seek fd off) fd inode pos ∧ (0 ≤ off → pos = off.toNat) := by
  unfold World.seek
  split
  · exact ⟨0, ⟨rfl, rfl, rfl, cursorAt⟩, fun nonnegative => by omega⟩
  · exact ⟨_, ⟨rfl, link_seek _ _ _, content_seek _ _ _, descriptor_seek cursorAt _⟩, fun _ => rfl⟩

theorem sought_seek_wrap64 (target : Nat) :
    ∃ pos, Sought w (w.seek fd (wrap64 target)) fd inode pos ∧
      (target < 2 ^ 63 → pos = target) := by
  rcases sought_seek cursorAt (wrap64 target) with ⟨pos, sought, positioned⟩
  refine ⟨pos, sought, fun fits => ?_⟩
  rw [wrap64_of_mem (by omega) (by omega), Int.toNat_natCast] at positioned
  exact positioned (by omega)

end

structure PartAt (outgoing : Outgoing) (config : Config) (callback : Bool) (base : Bytes)
    (start inode : Nat) (part : OpenPart) (opened : World) : Prop where
  self : opened.self = { Local.fresh callback with opened := some part.tmpFile }
  started : part.startSeq = start
  room : part.bitmap.length = (outgoing.totalChunks + 63) / 64
  marks : ∀ seq, part.bitmap.mem seq = decide (seq < start)
  short : base.length ≤ start * chunkSize
  cursorAt : opened.files.descriptor part.tmpFile = some ⟨inode, 0⟩
  linked : opened.files.link (tmpPath config outgoing.name) = some inode
  content : opened.files.content inode = base

variable {base : Bytes} {opened : World} {part : OpenPart}

section

variable (partAt : PartAt file config callback base start inode part opened)
  (start_le : start ≤ file.totalChunks)

include partAt start_le

theorem PartAt.marked (seq : Nat) :
    part.bitmap.mem seq = (Assembly.opening start start_le).has seq := by
  rw [partAt.marks, has_opening]

theorem PartAt.accepted (sought : Sought opened moved part.tmpFile inode pos)
    (positioned : start < file.totalChunks → pos = start * chunkSize) :
    Accepted file config base start start_le (newSession config (file.initMessage off) part)
      (moved.sent (.accept start)).stored where
  represents :=
    { belongs := ⟨rfl, rfl, rfl⟩
      totalChunks := file.toInt_totalChunks off
      compression := Compression.ofString_text file.compression
      room := partAt.room
      marks := partAt.marked start_le
      short := partAt.short
      part := by
        refine ⟨part.tmpFile, inode, pos, rfl, sought.cursorAt, ?_, ?_, ?_⟩
        · exact (congrFun sought.link _).trans partAt.linked
        · exact ((congrFun sought.content _).trans partAt.content).trans (splice_nil _ _).symm
        intro notAll
        rw [positioned notAll]
        simp [Outgoing.assembled, Assembly.opening] }
  sent := by simp [World.stored, World.sent, sought.self, partAt.self, Local.fresh]
  state := rfl
  registered := rfl

end

theorem accepted_of_opened (start_le : start ≤ file.totalChunks)
    (ran : (openPart config (file.initMessage off)
      (replicate ((file.totalChunks + 63) / 64) 0)).run handle
        ⟨files, Local.fresh callback⟩ = (.ok (.ok part), opened))
    (partAt : PartAt file config callback base start inode part opened) :
    ∃ ses post, (handleFileStream config (file.initMessage off)).run handle
        ⟨files, Local.fresh callback⟩ = (.ok (.receiving ses callback start start), post) ∧
      Accepted file config base start start_le ses post := by
  have comp := bitmapMaxContinuous_of_marks (partAt.marked start_le)
  rw [continuous_opening] at comp
  have accepted : acceptOffset part start = start := by rw [acceptOffset, partAt.started, max_self]
  have handled := run_handleFileStream
    (by rw [file.toInt_totalChunks]; exact newBitmap_totalChunks file) ran
    (by rw [file.toInt_totalChunks]; exact comp)
  rw [accepted, file.toInt_chunkSize, partAt.self, ← Int.natCast_mul] at handled
  rcases sought_seek_wrap64 partAt.cursorAt (start * chunkSize) with ⟨pos, sought, positioned⟩
  refine ⟨_, _, handled, partAt.accepted start_le sought ?_⟩
  intro notAll
  have inside := (file.lt_totalChunks_iff start).mp notAll
  have fits := file.fits
  exact positioned (by omega)

theorem accepted_of_unlinked
    (fresh : off.toInt ≤ 0 ∨ files.link (tmpPath config file.name) = none) :
    ∃ ses post, (handleFileStream config (file.initMessage off)).run handle
        ⟨files, Local.fresh callback⟩ = (.ok (.receiving ses callback 0 0), post) ∧
      Accepted file config [] 0 (Nat.zero_le _) ses post := by
  rcases create_spec files (tmpPath config file.name) with ⟨inode, linked, content, cursorAt⟩
  apply accepted_of_opened (Nat.zero_le _) (run_openPart_of_unlinked fresh)
  refine ⟨rfl, rfl, by simp, ?_, Nat.zero_le _, cursorAt, linked, content⟩
  intro seq
  rw [mem_replicate_zero]
  rfl

section

variable (asked : 0 < off.toInt) (linked : files.link (tmpPath config file.name) = some inode)

include asked linked

theorem run_openPart_initMessage {length : Nat} (size : (files.content inode).length = length) :
    ∃ marked : Bitmap, (openPart config (file.initMessage off)
          (replicate ((file.totalChunks + 63) / 64) 0)).run handle ⟨files, Local.fresh callback⟩ =
        (.ok (.ok ⟨files.nextDescriptor, marked, length, pieceCount chunkSize length⟩),
          ⟨files.attach inode, { Local.fresh callback with opened := some files.nextDescriptor }⟩) ∧
      marked.length = (file.totalChunks + 63) / 64 ∧
      ∀ seq, marked.mem seq =
        decide (seq < min (pieceCount chunkSize length) file.totalChunks) := by
  have written := writtenChunks_natCast length
  have n : (min (writtenChunks length (file.initMessage off).chunkSize.toInt)
      (file.initMessage off).totalChunks.toInt).toNat =
        min (pieceCount chunkSize length) file.totalChunks := by
    rw [file.toInt_chunkSize, written, file.toInt_totalChunks]
    omega
  rcases bitmapSetBelow_spec (replicate ((file.totalChunks + 63) / 64) 0)
    (min (pieceCount chunkSize length) file.totalChunks) with
      ⟨marked, comp, room, contents⟩
  rw [length_replicate] at room contents
  have opened := @run_openPart_of_linked config (file.initMessage off) _
    ⟨files, Local.fresh callback⟩ inode marked asked linked
    (by rw [file.toInt_chunkSize]; decide) (by rw [size, n]; exact comp)
  rw [file.toInt_chunkSize, size, written] at opened
  refine ⟨marked, opened, room, ?_⟩
  intro seq
  rw [contents (by omega), mem_replicate_zero, Bool.or_false]

theorem accepted_of_linked {length : Nat} (content : files.content inode = base)
    (size : base.length = length) (start_le : pieceCount chunkSize length ≤ file.totalChunks) :
    ∃ ses post, (handleFileStream config (file.initMessage off)).run handle
        ⟨files, Local.fresh callback⟩ = (.ok (.receiving ses callback (pieceCount chunkSize length)
            (pieceCount chunkSize length)), post) ∧
      Accepted file config base (pieceCount chunkSize length) start_le ses post := by
  rcases @run_openPart_initMessage file config off files callback inode asked linked
    length (by rw [content, size]) with ⟨marked, opened, room, marks⟩
  apply accepted_of_opened start_le opened
  rw [Nat.min_eq_left start_le] at marks
  refine ⟨rfl, rfl, room, marks, ?_, descriptor_attach files inode, linked, content⟩
  rw [size]
  exact le_pieceCount_mul Outgoing.chunkSize_pos length

theorem sent_handleFileStream :
    ((handleFileStream config (file.initMessage off)).run handle
        ⟨files, Local.fresh callback⟩).2.self.sent =
      [.accept (pieceCount chunkSize (files.content inode).length)] := by
  rcases @run_openPart_initMessage file config off files callback inode asked linked _
    rfl with ⟨marked, opened, -, marks⟩
  rcases exists_isContinuous marked file.totalChunks with ⟨run, continuous, comp⟩
  have notBeyond : run ≤ pieceCount chunkSize (files.content inode).length := by
    by_contra beyond
    have set := continuous.marked _ (Nat.not_le.mp beyond)
    rw [marks, decide_eq_true_iff] at set
    omega
  have handled := run_handleFileStream
    (by rw [file.toInt_totalChunks]; exact newBitmap_totalChunks file) opened
    (by rw [file.toInt_totalChunks]; exact comp)
  have accepted : acceptOffset ⟨files.nextDescriptor, marked,
      (files.content inode).length, pieceCount chunkSize (files.content inode).length⟩ run =
        pieceCount chunkSize (files.content inode).length :=
    max_eq_left (Int.ofNat_le.mpr notBeyond)
  rw [handled, accepted]
  unfold World.seek
  split <;> rfl

end

end Opening

section InOrder

variable {file : Outgoing} {base : Bytes}

theorem run_receiveAll_append {rcv mid : Receiver} {x y : List Event} {between : World}
    (ran : (rcv.receiveAll library config x).run handle w = (.ok mid, between)) :
    (rcv.receiveAll library config (x ++ y)).run handle w =
      (mid.receiveAll library config y).run handle between := by
  rw [receiveAll, foldlM_append]
  exact run_bind_of_ok handle ran

theorem receiveAll_singleton (rcv : Receiver) (ev : Event) :
    rcv.receiveAll library config [ev] = rcv.receive library config ev := by
  rw [receiveAll, foldlM_cons]
  exact bind_pure _

theorem run_session (handled : (handleFileStream config init).run handle w = (.ok rcv, opened)) :
    (session library config init events).run handle w =
      (rcv.receiveAll library config events).run handle opened :=
  run_bind_of_ok handle handled

theorem heldBytes_inOrder (inOrder : Assembly.InOrder asm n) :
    heldBytes file base asm = splice base (asm.start * chunkSize)
      ((file.bytes.drop (asm.start * chunkSize)).take (n * chunkSize)) := by
  have assembled := flatMap_piece_range' chunkSize file.bytes asm.start n
  rw [heldBytes, Outgoing.assembled, inOrder, ← assembled]
  rfl

theorem Accepted.receiveAll (accepted : Accepted file config base start start_le ses w)
    (lossless : file.Lossless library) {deliveries : List (Option Nat)}
    (inOrder : deliveries.reduceOption = range' start n)
    (within : start + n ≤ file.totalChunks) (cb : Bool) :
    ∃ asm next post, ((receiving ses cb start start).receiveAll library config
          (deliveries.map (deliveryEvent library file))).run handle w =
        (.ok (.receiving next cb start asm.lastAck), post) ∧
      Represents file config base asm next post ∧
      asm.start = start ∧ asm.InOrder n ∧
      post.self.sent = .accept start ::
        acks ((Assembly.opening start start_le).receiveAll (range' start n)).2 ∧
      post.self.state = (if none ∈ deliveries then .cancelled else .transfer) := by
  have bounded : ∀ seq, some seq ∈ deliveries → seq < file.totalChunks := by
    intro seq member
    have listed := reduceOption_mem_iff.mpr member
    rw [inOrder, mem_range'_1] at listed
    omega
  rcases accepted.represents.receiveAll accepted.registered lossless cb start bounded with
    ⟨next, post, ran, represents, sent, state, -⟩
  rw [inOrder] at ran represents sent
  have ordered := (Assembly.inOrder_opening start_le).receiveAll n
  rw [Nat.zero_add] at ordered
  refine ⟨_, next, post, ran, represents, ?_, ordered, ?_, ?_⟩
  · rw [Assembly.receiveAll_start]
    rfl
  · rw [sent, accepted.sent]
    rfl
  · rw [state, accepted.state]

end InOrder

end Peerscale.RelayFile
