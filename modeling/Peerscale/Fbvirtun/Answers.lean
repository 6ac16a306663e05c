import Peerscale.Fbvirtun.Survival

/-! # What an answer depends on

Answers are made in the read buffer, and the whole buffer is handed out. An answer is therefore
independent of earlier packets only if its packet fills the buffer.
-/

namespace Peerscale.Fbvirtun

open List

def totalLength (bytes : Bytes) : Nat :=
  if (bytes.getD 0 0).toNat / 16 = 4 then ofBigEndian (window bytes 2 2)
  else 40 + ofBigEndian (window bytes 4 2)

section

variable (config : Config) (vtcp : Vtcp)

def answerAfter (pre : List Arrival) (arr : Arrival) : Except Panic (Option Bytes) := do
  let (_, buffer) ← tunReadLoop config vtcp pre
  let (answer, _) ← iteration config vtcp arr buffer
  return answer.written

/-- The answer to the packet is the same after any two histories, and as long as its header
states. -/
def OwnAnswer (arr : Arrival) : Prop :=
  ∀ pre others written otherWritten, answerAfter config vtcp pre arr = .ok written →
    answerAfter config vtcp others arr = .ok otherWritten →
    written = otherWritten ∧ ∀ bytes, written = some bytes → bytes.length = totalLength bytes

/-- The answer states the length of the packet: it is the packet itself, an echo reply, or an
ICMPv6 error in an IPv4 packet. -/
def LengthKept (outcome : Outcome) (header : Header) : Prop :=
  route config outcome.peerIPMap header = .hairpin ∨ outcome.dialing = .reached ∨
    (header.version = 4 ∧ header.proto = 58)

/-- The packet fills the buffer and states so, and the answer keeps that length. -/
def Exact (arr : Arrival) : Prop :=
  arr.data.length = bufferSize ∧ totalLength arr.data = bufferSize ∧
    ∀ header, headerOf arr.data = some header → LengthKept config arr.outcome header

end

section

variable {pre post : Bytes} {low n : Nat}

theorem Holds.totalLength (holds : Holds data pre) (long : 6 ≤ data.length) :
    totalLength pre = totalLength data := by
  rw [Fbvirtun.totalLength, Fbvirtun.totalLength, holds.getD (by omega), holds.window (by omega),
    holds.window (by omega)]

section

variable (touches : Touches (Between low n) pre post)

include touches

theorem touches_getD {index : Nat} (outside : index < low) :
    post.getD index 0 = pre.getD index 0 := by
  have same := touches.elsewhere index fun inside => absurd inside.1 (Nat.not_le.mpr outside)
  rw [getD_eq_getElem?_getD, getD_eq_getElem?_getD, same]

theorem touches_window (outside : start + k ≤ low) : window post start k = window pre start k := by
  apply touches.window_eq
  intro index within inside
  have above := inside.1
  omega

theorem touches_totalLength (four : 4 ≤ low) (six : (pre.getD 0 0).toNat / 16 ≠ 4 → 6 ≤ low) :
    totalLength post = totalLength pre := by
  rw [totalLength, totalLength, touches_getD touches (by omega)]
  split
  · rw [touches_window touches (by omega)]
  · rename_i notFour
    rw [touches_window touches (six notFour)]

end

end

section

variable {data : Bytes} {header : Header} {vtcp : Vtcp} (outcome : Outcome) (config : Config)

theorem keeps_writerOf_behind (fits : data.length ≤ 1904) (parsed : Parsed data header)
    (answers : Answers outcome config data header)
    (room : route config outcome.peerIPMap header = .handled → Room vtcp outcome data header)
    (same : LengthKept config outcome header) :
    ∃ low, 4 ≤ low ∧ (header.version ≠ 4 → 6 ≤ low) ∧
      Keeps (Between low data.length) (writerOf outcome config header (packet data.length)) := by
  rw [writerOf]
  rcases answers with hairpin | ⟨handled, ⟨four, icmp, echo⟩ | ⟨icmp6, echo⟩⟩
  · rw [if_pos hairpin]
    by_cases four : header.version = 4
    · exact ⟨4, by omega, fun notFour => absurd four notFour, keeps_completeChecksums config parsed⟩
    · rw [completeChecksums, if_neg fun darwin => four darwin.2.1]
      exact ⟨6, by omega, fun _ => Nat.le_refl 6, Keeps.pure ()⟩
  · rw [if_neg (by rw [handled]; decide), if_pos icmp]
    have reached : outcome.dialing = .reached := by
      rcases same with hairpin | reached | ⟨-, icmp6⟩
      · rw [handled] at hairpin
        cases hairpin
      · exact reached
      · rw [icmp] at icmp6
        exact absurd icmp6 (by decide)
    have behind := parsed.four_le four echo
    rw [reached]
    exact ⟨4, by omega, fun notFour => absurd four notFour,
      keeps_writeICMPEchoReply4 parsed.long echo.1 fits behind (by omega)⟩
  rw [if_neg (by rw [handled]; decide), if_neg (by rw [icmp6]; decide)]
  by_cases reached : outcome.dialing = .reached
  · rw [reached]
    exact ⟨8, by omega, fun _ => by omega, keeps_writeICMPEchoReply6 echo.1 fits (by omega)⟩
  have four : header.version = 4 := by
    rcases same with hairpin | already | ⟨four, -⟩
    · rw [handled] at hairpin
      cases hairpin
    · exact absurd already reached
    · exact four
  exact ⟨4, by omega, fun notFour => absurd four notFour,
    keeps_answerEcho6 fits echo ((room handled).quote6 icmp6 echo)⟩

section

variable {filled : Bytes} (fits : data.length ≤ 1904) (holds : Holds data filled)
  (parsed : Parsed data header) (answers : Answers outcome config data header)
  (room : route config outcome.peerIPMap header = .handled → Room vtcp outcome data header)

include fits holds parsed answers room

theorem totalLength_of_kept (same : LengthKept config outcome header)
    (ran : writerOf outcome config header (packet data.length) filled = .ok ((), post)) :
    totalLength post = totalLength data := by
  have long := parsed.long
  rcases keeps_writerOf_behind outcome config fits parsed answers room same with
    ⟨low, four, six, keeps⟩
  have version : (filled.getD 0 0).toNat / 16 = header.version := by
    rw [holds.getD (by omega), parsed.version]
  rw [touches_totalLength (keeps.touches ran) four (by rw [version]; exact six),
    holds.totalLength (by omega)]

theorem totalLength_error_lt {post : Bytes} (other : ¬LengthKept config outcome header)
    (ran : writerOf outcome config header (packet data.length) filled = .ok ((), post)) :
    totalLength post < bufferSize := by
  have long := parsed.long
  have unreached : outcome.dialing ≠ .reached := fun reached => other (.inr (.inl reached))
  have keeps := keeps_writerOf vtcp outcome config fits parsed answers room
  have size : filled.length = 1904 := holds.size
  have x : (post.getD 0 0).toNat / 16 = header.version := by
    rw [touches_getD (keeps.touches ran) (by omega), holds.getD (by omega), parsed.version]
  rw [writerOf] at ran
  rcases answers with hairpin | ⟨handled, ⟨four, icmp, echo⟩ | ⟨icmp6, echo⟩⟩
  · exact absurd (.inl hairpin) other
  · rcases answerEcho4_error unreached (packet data.length) header.ihl with ⟨type, code, error⟩
    rw [if_neg (by rw [handled]; decide), if_pos icmp, error] at ran
    have writes := writes_writeICMPError4 type code long fits (parsed.four_le four echo)
      parsed.bound ((room handled).quote4 four icmp echo unreached)
    have written := writes.window_eq ran (by rw [length_bigEndian]; omega)
    have bound := parsed.bound
    rw [length_bigEndian] at written
    rw [totalLength, if_pos (x.trans four), written, ofBigEndian_bigEndian (by omega)]
    change _ < 1904
    omega
  have notFour : header.version ≠ 4 := fun four => other (.inr (.inr ⟨four, icmp6⟩))
  rcases answerEcho6_error unreached (packet data.length) with ⟨type, code, error⟩
  rw [if_neg (by rw [handled]; decide), if_neg (by rw [icmp6]; decide), error] at ran
  have writes := writes_writeICMPError6 type code fits ((room handled).quote6 icmp6 echo unreached)
  have written := writes.window_eq ran (by rw [length_bigEndian]; omega)
  rw [length_bigEndian] at written
  rw [totalLength, x, if_neg notFour, written, ofBigEndian_bigEndian (by omega)]
  change _ < 1904
  omega

end

end

section

variable (config : Config) (vtcp : Vtcp)

theorem answerAfter_of_ran (loop : tunReadLoop config vtcp pre = .ok (answers, buf))
    (ran : iteration config vtcp arr buf = .ok (answer, post)) :
    answerAfter config vtcp pre arr = .ok answer.written := by
  rw [answerAfter, loop]
  change (iteration config vtcp arr buf >>= fun res => pure res.1.written) = _
  rw [ran]
  rfl

theorem answerAfter_eq_ok (ans : answerAfter config vtcp pre arr = .ok written) :
    ∃ buf answer post, buf.length = bufferSize ∧
      iteration config vtcp arr buf = .ok (answer, post) ∧ answer.written = written := by
  cases loop : tunReadLoop config vtcp pre with
  | error =>
    rw [answerAfter, loop] at ans
    cases ans
  | ok held =>
    rcases held with ⟨answers, buf⟩
    have size := iterations_size config vtcp length_replicate loop
    cases ran : iteration config vtcp arr buf with
    | error =>
      rw [answerAfter, loop] at ans
      change (iteration config vtcp arr buf >>= fun res => pure res.1.written) = _ at ans
      rw [ran] at ans
      cases ans
    | ok res =>
      rcases res with ⟨answer, post⟩
      rw [answerAfter_of_ran config vtcp loop ran] at ans
      cases ans
      exact ⟨buf, answer, post, size, ran, rfl⟩

/-- A packet of another version, which is skipped, leaves its bytes in the buffer. -/
def flood : Arrival where
  data := List.replicate bufferSize 0xff
  outcome := alone
  fits := Nat.le_of_eq List.length_replicate

theorem overwrite_all {buf data : Bytes} (same : data.length = buf.length) :
    overwrite buf 0 data = data := by
  have written : window (overwrite buf 0 data) 0 data.length = data := window_overwrite (by omega)
  have length := (touches_overwrite buf 0 data).length
  rw [window, drop_zero, take_of_length_le (by omega)] at written
  exact written

theorem tunReadLoop_flood : ∃ answers,
    tunReadLoop config vtcp [flood] = .ok (answers, replicate bufferSize 0xff) := by
  have skipped : headerOf flood.data = none := by decide +kernel
  have nonempty : 0 < flood.data.length := by decide +kernel
  have ran := iteration_of_skipped config vtcp flood
    (length_replicate : (replicate bufferSize (0 : UInt8)).length = bufferSize)
    nonempty skipped
  rw [overwrite_all (by rw [flood, length_replicate, length_replicate])] at ran
  refine ⟨[.silent], ?_⟩
  rw [tunReadLoop, iterations, InBuffer.bind_of_ok ran]
  rfl

theorem last_of_short {arr : Arrival} (short : arr.data.length < bufferSize)
    (touches : Touches (Between 2 arr.data.length) (overwrite buf 0 arr.data) post) :
    post[bufferSize - 1]? = buf[bufferSize - 1]? := by
  have filled := touches_overwrite buf 0 arr.data
  rw [touches.elsewhere, filled.elsewhere]
  · intro inside
    have below := inside.2
    omega
  intro inside
  have below := inside.2
  omega

theorem exact_of_ownAnswer (own : OwnAnswer config vtcp arr)
    (survivable : Survivable config vtcp arr) (ans : Answered config arr) : Exact config arr := by
  rcases ans with ⟨header, found, answers⟩
  have parsed := headerOf_eq_some found
  have room := survivable.2 header found
  rcases tunReadLoop_flood config vtcp with ⟨floodAnswers, flooded⟩
  have size : (replicate bufferSize (0 : UInt8)).length = bufferSize := length_replicate
  rcases iteration_answers config vtcp arr size survivable found answers with
    ⟨post, wrote, touches, ran⟩
  rcases iteration_answers config vtcp arr length_replicate survivable found answers with
    ⟨other, -, otherTouches, otherRan⟩
  have ⟨same, length⟩ := own [] [flood] _ _ (answerAfter_of_ran config vtcp rfl ran)
    (answerAfter_of_ran config vtcp flooded otherRan)
  have full : arr.data.length = bufferSize := by
    by_contra partly
    have short : arr.data.length < bufferSize := Nat.lt_of_le_of_ne arr.fits partly
    have left := last_of_short short touches
    rw [Option.some.inj same, last_of_short short otherTouches] at left
    exact absurd left (by decide +kernel)
  have holds : Holds arr.data (overwrite (replicate bufferSize 0) 0 arr.data) :=
    Holds.overwrite arr.fits size
  have total : totalLength post = bufferSize := by
    rw [← length post rfl, touches.length]
    exact holds.size
  have kept : LengthKept config arr.outcome header := by
    by_contra other
    have short := totalLength_error_lt arr.outcome config arr.fits holds parsed answers
      room other wrote
    omega
  have stated := totalLength_of_kept arr.outcome config arr.fits holds parsed answers room
    kept wrote
  refine ⟨full, stated.symm.trans total, ?_⟩
  intro another foundAnother
  rw [found] at foundAnother
  cases foundAnother
  exact kept

section

variable {arr : Arrival} (survivable : Survivable config vtcp arr)

include survivable

theorem ownAnswer_of_unanswered (unanswered : ¬Answered config arr) :
    OwnAnswer config vtcp arr := by
  have nothing : ∀ {pre written},
      answerAfter config vtcp pre arr = .ok written → written = none := by
    intro pre written ans
    rcases answerAfter_eq_ok config vtcp ans with ⟨buf, answer, post, size, ran, rfl⟩
    rcases iteration_quiet config vtcp arr size survivable unanswered with ⟨_, quietRan, unwritten⟩
    rw [ran] at quietRan
    cases quietRan
    exact unwritten
  intro pre others written otherWritten ans otherAnswered
  rw [nothing ans, nothing otherAnswered]
  refine ⟨rfl, ?_⟩
  intro bytes some
  cases some

theorem answerAfter_of_exact (found : headerOf arr.data = some header)
    (answers : Answers arr.outcome config arr.data header) (exactly : Exact config arr) :
    ∃ bytes, bytes.length = totalLength bytes ∧ ∀ {pre written},
      answerAfter config vtcp pre arr = .ok written → written = some bytes := by
  rcases exactly with ⟨full, stated, keeps⟩
  have holds : Holds arr.data arr.data := ⟨full, fun _ _ => rfl⟩
  rcases iteration_answers config vtcp arr full survivable found answers with
    ⟨bytes, wrote, touches, -⟩
  rw [overwrite_all rfl] at wrote touches
  refine ⟨bytes, ?_, ?_⟩
  · rw [touches.length, full, totalLength_of_kept arr.outcome config arr.fits holds
      (headerOf_eq_some found) answers (survivable.2 header found) (keeps header found) wrote,
      stated]
  intro pre written ans
  rcases answerAfter_eq_ok config vtcp ans with ⟨buf, answer, post, size, ran, rfl⟩
  rcases iteration_answers config vtcp arr size survivable found answers with
    ⟨_, wroteAgain, -, answerRan⟩
  rw [overwrite_all (full.trans size.symm), wrote] at wroteAgain
  rw [ran] at answerRan
  cases wroteAgain
  cases answerRan
  rfl

theorem ownAnswer_of_exact (ans : Answered config arr) (exactly : Exact config arr) :
    OwnAnswer config vtcp arr := by
  rcases ans with ⟨header, found, answers⟩
  rcases answerAfter_of_exact config vtcp survivable found answers exactly with
    ⟨bytes, length, always⟩
  intro pre others written otherWritten ans otherAnswered
  rw [always ans, always otherAnswered]
  refine ⟨rfl, ?_⟩
  intro handed same
  cases same
  exact length

end

theorem ownAnswer_of_fatal (fatal : ¬Survivable config vtcp arr) : OwnAnswer config vtcp arr := by
  intro pre others written otherWritten ans _
  rcases answerAfter_eq_ok config vtcp ans with ⟨buf, answer, post, size, ran, _⟩
  exact absurd (iteration_of_ok config vtcp arr size ran).1 fatal

/-- The answer depends on its packet alone exactly if there is none out of the buffer, or the
packet fills the buffer. -/
theorem ownAnswer_iff (arrival : Arrival) :
    OwnAnswer config vtcp arrival ↔
      ¬(Survivable config vtcp arrival ∧ Answered config arrival) ∨ Exact config arrival := by
  constructor
  · intro own
    by_cases answers : Survivable config vtcp arrival ∧ Answered config arrival
    · exact .inr (exact_of_ownAnswer config vtcp own answers.1 answers.2)
    · exact .inl answers
  intro condition
  by_cases survivable : Survivable config vtcp arrival
  · by_cases answered : Answered config arrival
    · rcases condition with silent | exactly
      · exact absurd ⟨survivable, answered⟩ silent
      · exact ownAnswer_of_exact config vtcp survivable answered exactly
    · exact ownAnswer_of_unanswered config vtcp survivable answered
  · exact ownAnswer_of_fatal config vtcp survivable

end

def letter : Arrival where
  data := [0x45, 0, 0, 26, 0, 1, 0, 0, 64, 99, 0x66, 0x74, 10, 0, 0, 1, 10, 0, 0, 9] ++
    ascii "SECRET"
  outcome := alone
  fits := by decide

def selfPacket : Arrival where
  data := [0x45, 0, 0, 20, 0, 2, 0, 0, 64, 99, 0x66, 0x81, 10, 0, 0, 1, 10, 0, 0, 1]
  outcome := alone
  fits := by decide

theorem selfPacket_leaks :
    answerAfter homeConfig bareVtcp [] selfPacket =
        .ok (some (selfPacket.data ++ List.replicate 1884 0)) ∧
      answerAfter homeConfig bareVtcp [letter] selfPacket =
        .ok (some (selfPacket.data ++ ascii "SECRET" ++ List.replicate 1878 0)) := by
  decide +kernel

end Peerscale.Fbvirtun
