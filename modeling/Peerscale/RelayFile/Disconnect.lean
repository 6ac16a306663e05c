import Peerscale.RelayFile.Resume

/-! # Breaking off and coming back

What a session leaves on disk when its stream breaks is what the next session for
the same name finds. The cleanup of a broken session removes the `.part` file, so
nothing is left to resume from unless the session had been cancelled before.
-/

namespace Peerscale.RelayFile

open Program

variable {library : Library} {outgoing : Outgoing} {config : Config} {offset : Int64}
  {files : Files} {callback : Bool}

def acceptReplies (config : Config) (outgoing : Outgoing) (offset : Int64) (files : Files)
    (callback : Bool) : List Reply :=
  ((handleFileStream config (outgoing.initMessage offset)).run handle
    ⟨files, Local.fresh callback⟩).2.self.sent

/-- A session's world after the sender's chunks and the application's
cancellations, and possibly more. -/
def receivedWorld (library : Library) (config : Config) (outgoing : Outgoing) (offset : Int64)
    (files : Files) (callback : Bool) (deliveries : List (Option Nat)) (more : List Event) :
    World :=
  ((session library config (outgoing.initMessage offset)
    (deliveries.map (deliveryEvent library outgoing) ++ more)).run handle
      ⟨files, Local.fresh callback⟩).2

theorem accepted_of_acceptReplies (start_le : start ≤ outgoing.totalChunks)
    (sent : acceptReplies config outgoing offset files callback = [.accept start]) :
    ∃ base ses post, (handleFileStream config (outgoing.initMessage offset)).run handle
        ⟨files, Local.fresh callback⟩ = (.ok (.receiving ses callback start start), post) ∧
      Accepted outgoing config base start start_le ses post := by
  by_cases fresh : offset.toInt ≤ 0 ∨ files.link (tmpPath config outgoing.name) = none
  · rcases @accepted_of_unlinked outgoing config offset files callback fresh with
      ⟨ses, post, handled, accepted⟩
    have zero : start = 0 := by
      have same := sent
      rw [acceptReplies, handled, accepted.sent, List.cons.injEq, Reply.accept.injEq] at same
      omega
    subst zero
    exact ⟨[], ses, post, handled, accepted⟩
  rw [not_or] at fresh
  rcases Option.ne_none_iff_exists'.mp fresh.2 with ⟨inode, linked⟩
  have asked : 0 < offset.toInt := by omega
  have counted : start = pieceCount chunkSize (files.content inode).length := by
    have same := sent
    rw [acceptReplies, sent_handleFileStream asked linked, List.cons.injEq,
      Reply.accept.injEq] at same
    omega
  subst counted
  rcases @accepted_of_linked outgoing config offset files callback inode _ asked linked _
    rfl rfl start_le with ⟨ses, post, handled, accepted⟩
  exact ⟨_, ses, post, handled, accepted⟩

theorem link_release (ses : Session) (files : Files) :
    (ses.release files).link ses.tmpPath = none := by
  unfold Session.release
  cases ses.tmpFile with
  | none | some => simp [FileSystem.remove]

theorem pieceCount_heldBytes {base : Bytes} (inOrder : Assembly.InOrder asm count)
    (short : base.length ≤ asm.start * chunkSize) (positive : 0 < count)
    (within : asm.start + count ≤ outgoing.totalChunks) :
    pieceCount chunkSize (heldBytes outgoing base asm).length = asm.start + count := by
  have inside := (outgoing.lt_totalChunks_iff asm.start).mp (by omega)
  have scaled := Nat.mul_le_mul_right chunkSize positive
  have nonempty : (outgoing.bytes.drop (asm.start * chunkSize)).take (count * chunkSize) ≠ [] := by
    intro empty
    have lengths := congrArg List.length empty
    rw [List.length_take, List.length_drop, List.length_nil] at lengths
    have size := Outgoing.chunkSize_pos
    omega
  have length : (heldBytes outgoing base asm).length =
      min ((asm.start + count) * chunkSize) outgoing.bytes.length := by
    rw [heldBytes_inOrder inOrder, splice_of_length_le short nonempty]
    simp only [List.length_append, List.length_replicate, List.length_take, List.length_drop]
    rw [Nat.add_mul]
    omega
  rw [length]
  exact pieceCount_min Outgoing.chunkSize_pos within

section Break

variable {reoffset : Int64} {recallback : Bool} {deliveries : List (Option Nat)}
  {start count : Nat} {cs : Int} {reason : GoString}

theorem bounds_of_mem_acks {start_le : start ≤ outgoing.totalChunks} (acked : Reply.ack cs ∈
      acks ((Assembly.opening start start_le).receiveAll (List.range' start count)).2) :
    0 < count ∧ 0 ≤ cs ∧ cs + 1 ≤ start + count := by
  rcases List.mem_map.mp acked with ⟨num, mem, eq⟩
  rw [Reply.ack.injEq] at eq
  have held := Assembly.has_of_le_receiveAll mem (Nat.le_refl num)
  have ordered := (Assembly.inOrder_opening start_le).receiveAll count
  have below := (ordered.has_iff num).mp held
  rw [Assembly.receiveAll_start] at below
  have started : (Assembly.opening start start_le).start = start := rfl
  refine ⟨?_, by omega, by omega⟩
  cases count with
  | zero => simp [Assembly.receiveAll] at mem
  | succ => omega

/-- After a break the next session is offered what the broken one left: nothing,
unless it had been cancelled, in which case every chunk received. -/
theorem acceptReplies_after_break (start_le : start ≤ outgoing.totalChunks)
    (accepted : acceptReplies config outgoing offset files callback = [.accept start])
    (lossless : outgoing.Lossless library)
    (inOrder : deliveries.reduceOption = List.range' start count) (positive : 0 < count)
    (within : start + count ≤ outgoing.totalChunks) (again : 0 < reoffset.toInt) :
    acceptReplies config outgoing reoffset
        (receivedWorld library config outgoing offset files callback deliveries
          [.readError reason]).files recallback =
      [.accept (if none ∈ deliveries then start + count else 0 : Nat)] := by
  rcases accepted_of_acceptReplies start_le accepted with ⟨base, ses, opened, handled, x⟩
  rcases x.receiveAll lossless inOrder within callback with
    ⟨asm, next, post, ran, represents, started, ordered, sent, state⟩
  have broken : receivedWorld library config outgoing offset files callback deliveries
      [.readError reason] =
        ((abandon config next (ascii "read: " ++ reason)).run handle post).2 := by
    rw [receivedWorld, run_session handled, run_receiveAll_append ran, receiveAll_singleton]
    rfl
  rw [broken]
  by_cases cancelled : none ∈ deliveries
  · rw [if_pos cancelled] at state
    have terminal : post.isTerminal := by simp [World.isTerminal, state]
    rw [run_abandon_of_terminal _ terminal, if_pos cancelled]
    rcases represents.part with ⟨fd, inode, pos, -, -, linked, content, -⟩
    have size := pieceCount_heldBytes ordered represents.short positive (by omega)
    have resumed := @sent_handleFileStream outgoing config reoffset post.files recallback
      inode again linked
    rw [heldBytes, ← content, started] at size
    rw [size] at resumed
    exact resumed
  rw [if_neg cancelled] at state
  have running : post.isTerminal = false := by simp [World.isTerminal, state]
  rcases @run_abandon config next post (ascii "read: " ++ reason) running
    represents.named with ⟨last, abandoned, lastFiles, -⟩
  have removed : last.files.link (tmpPath config outgoing.name) = none := by
    rw [lastFiles, show tmpPath config outgoing.name = next.tmpPath from
      represents.belongs.tmpPath.symm]
    exact link_release next post.files
  rcases @accepted_of_unlinked outgoing config reoffset last.files recallback
    (.inr removed) with ⟨_, _, handledAgain, y⟩
  rw [abandoned, if_neg cancelled, acceptReplies, handledAgain]
  exact y.sent

/-- Progress acknowledged before a break survives it exactly when the session had
been cancelled by the application. -/
theorem progress_kept_iff (accepted : acceptReplies config outgoing offset files callback =
      [.accept start])
    (lossless : outgoing.Lossless library)
    (inOrder : deliveries.reduceOption = List.range' start count)
    (within : start + count ≤ outgoing.totalChunks)
    (acked : Reply.ack cs ∈ (receivedWorld library config outgoing offset files callback
      deliveries []).self.sent)
    (again : 0 < reoffset.toInt) :
    (∃ startSeq : Int, acceptReplies config outgoing reoffset
        (receivedWorld library config outgoing offset files callback deliveries
          [.readError reason]).files recallback = [.accept startSeq] ∧ cs + 1 ≤ startSeq) ↔
      none ∈ deliveries := by
  have start_le : start ≤ outgoing.totalChunks := by omega
  rcases accepted_of_acceptReplies start_le accepted with ⟨base, ses, opened, handled, first⟩
  rcases first.receiveAll lossless inOrder within callback with
    ⟨assembly, next, after, ran, represents, -, -, sent, -⟩
  rw [receivedWorld, run_session handled, List.append_nil, ran, sent, List.mem_cons] at acked
  rcases bounds_of_mem_acks (acked.resolve_left (by simp)) with ⟨positive, nonnegative, covered⟩
  rw [acceptReplies_after_break start_le accepted lossless inOrder positive within again]
  constructor
  · rintro ⟨startSeq, equal, kept⟩
    rw [List.cons.injEq, Reply.accept.injEq] at equal
    by_contra uncancelled
    rw [if_neg uncancelled] at equal
    omega
  intro cancelled
  rw [if_pos cancelled]
  exact ⟨_, rfl, by omega⟩

theorem progress_kept_after_cancel :
    ∃ startSeq : Int, acceptReplies greetingConfig greeting 1
        (receivedWorld (.ofTransfer (greeting.initMessage 0)) greetingConfig greeting 0
          .empty false [some 0, none] [.readError (ascii "EOF")]).files false =
            [.accept startSeq] ∧ (0 : Int) + 1 ≤ startSeq := by
  have acked : Reply.ack 0 ∈ (receivedWorld (.ofTransfer (greeting.initMessage 0))
      greetingConfig greeting 0 .empty false [some 0, none] []).self.sent := by
    decide +kernel
  have accepted : acceptReplies greetingConfig greeting 0 .empty false = [.accept (0 : Nat)] := by
    decide +kernel
  have inOrder : [some 0, none].reduceOption = List.range' 0 1 := rfl
  exact (progress_kept_iff accepted nofun inOrder (by decide) acked (by decide)).mpr (by decide)

theorem progress_lost_after_break :
    Reply.ack 0 ∈ (receivedWorld (.ofTransfer (greeting.initMessage 0)) greetingConfig
        greeting 0 .empty false [some 0] []).self.sent ∧
      acceptReplies greetingConfig greeting 1
        (receivedWorld (.ofTransfer (greeting.initMessage 0)) greetingConfig greeting 0
          .empty false [some 0] [.readError (ascii "EOF")]).files false = [.accept 0] := by
  exact ⟨by decide +kernel, by decide +kernel⟩

end Break

end Peerscale.RelayFile
