import Peerscale.Fbvirtun.Handlers

/-! # Which packets the read loop survives

One iteration panics, or it leaves the buffer alone, or it rewrites the packet in place and hands
out the buffer. Which of the three it does depends on the packet and on how it is routed, and not
on what the buffer held before.
-/

namespace Peerscale.Fbvirtun

open InBuffer

structure Parsed (data : Bytes) (header : Header) : Prop where
  version : header.version = (data.getD 0 0).toNat / 16
  long : 20 ≤ data.length
  bound : header.ihl ≤ 60
  four : header.version = 4 → header.ihl = (data.getD 0 0).toNat % 16 * 4
  six : header.version ≠ 4 → header.version = 6 ∧ header.ihl = 40 ∧ 40 ≤ data.length

theorem headerOf_eq_some (found : headerOf data = some header) : Parsed data header := by
  rw [headerOf] at found
  split at found
  · rename_i four
    split at found
    · cases found
    · cases found
      exact ⟨rfl, by omega, by dsimp only; omega, fun _ => rfl, fun other => absurd four other⟩
  rename_i notFour
  split at found
  · rename_i six
    split at found
    · cases found
    cases found
    exact ⟨rfl, by omega, by dsimp only; omega, fun four => absurd four notFour,
      fun _ => ⟨six, rfl, by omega⟩⟩
  · cases found

theorem Parsed.four_le (parsed : Parsed data header) (four : header.version = 4)
    (echo : Echo4 data header.ihl) : 4 ≤ header.ihl := by
  have version := parsed.version
  have length := parsed.four four
  by_contra short
  have zero : header.ihl = 0 := by omega
  have type := echo.2
  rw [zero] at type
  rw [four, type] at version
  exact absurd version (by decide)

/-- The packet reaches as far as its handler slices it: the header length lies inside, and behind
an echo request there is room for what an error quotes. A segment for a connection whose remote
address is nil can be parsed. -/
structure Room (vtcp : Vtcp) (outcome : Outcome) (data : Bytes) (header : Header) : Prop where
  transport : header.version = 4 → header.proto = 1 ∨ header.proto = 6 ∨ header.proto = 17 →
    header.ihl ≤ data.length
  quote4 : header.version = 4 → header.proto = 1 → Echo4 data header.ihl →
    outcome.dialing ≠ .reached → header.ihl + 8 + header.ihl ≤ data.length
  quote6 : header.proto = 58 → Echo6 data → outcome.dialing ≠ .reached → 88 ≤ data.length
  fed : header.proto = 6 →
    Fed vtcp outcome (tcpKeyAt header.src header.dst data header.ihl) (data.drop header.ihl)

def Survivable (config : Config) (vtcp : Vtcp) (arr : Arrival) : Prop :=
  0 < arr.data.length ∧ ∀ header, headerOf arr.data = some header →
      route config arr.outcome.peerIPMap header = .handled → Room vtcp arr.outcome arr.data header

def Echo (data : Bytes) (header : Header) : Prop :=
  header.version = 4 ∧ header.proto = 1 ∧ Echo4 data header.ihl ∨ header.proto = 58 ∧ Echo6 data

def Answer.written : Answer → Option Bytes
  | .inPlace buf => some buf
  | .silent => none
  | .packets _ => none

def Quiet (program : InBuffer Answer) (buf : Bytes) : Prop :=
  ∃ answer, program buf = .ok (answer, buf) ∧ answer.written = none

theorem Quiet.silent (buf : Bytes) : Quiet (pure .silent) buf := ⟨.silent, rfl, rfl⟩

theorem Quiet.bind (reads : Keeps (fun _ => False) prog)
    (later : ∀ val, Quiet (next val) buf) : Quiet (prog >>= next) buf := by
  rcases reads.reads buf with ⟨val, ran⟩
  rcases later val with ⟨answer, ranNext, unwritten⟩
  exact ⟨answer, (bind_of_ok ran).trans ranNext, unwritten⟩

section

variable {data : Bytes} {header : Header} (vtcp : Vtcp) (outcome : Outcome)

theorem quiet_answerICMP (left : hd buf = .ok (none, buf)) :
    Quiet (answerICMP header (packet n) hd) buf := by
  have logged : Quiet (icmpTypeStr (packet n) header.ihl >>= fun _ => pure .silent) buf :=
    Quiet.bind keeps_icmpTypeStr fun _ => Quiet.silent buf
  rcases logged with ⟨answer, ran, unwritten⟩
  exact ⟨answer, (bind_of_ok left).trans ran, unwritten⟩

theorem quiet_handleProtocol (holds : Holds data buf) (fits : data.length ≤ 1904)
    (parsed : Parsed data header) (room : Room vtcp outcome data header)
    (other : ¬Echo data header) :
    Quiet (handleProtocol vtcp outcome header (packet data.length)) buf := by
  rw [handleProtocol]
  split
  · rename_i icmp
    split
    · rename_i four
      exact quiet_answerICMP (handleICMP4_of_not_echo outcome.dialing holds
        (room.transport four (.inl icmp)) fun echo => other (.inl ⟨four, icmp, echo⟩))
    · exact Quiet.silent buf
  split
  · rename_i tcp
    refine Quiet.bind keeps_parsePorts fun _ => ?_
    split
    · rename_i four
      rcases handleTCP4_of_fed vtcp outcome holds fits (room.transport four (.inr (.inl tcp)))
        (room.fed tcp) with ⟨packets, ran⟩
      exact ⟨.packets packets, bind_of_ok ran, rfl⟩
    rename_i notFour
    rcases parsed.six notFour with ⟨-, start, within⟩
    have fed := room.fed tcp
    rw [start] at fed
    rcases handleTCP6_of_fed vtcp outcome holds fits within fed with ⟨packets, ran⟩
    exact ⟨.packets packets, bind_of_ok ran, rfl⟩
  split
  · rename_i udp
    refine Quiet.bind keeps_parsePorts fun _ => ?_
    split
    · rename_i four
      have within := room.transport four (.inr (.inr udp))
      exact Quiet.bind (keeps_datagramAt within fits) fun _ => Quiet.silent buf
    rename_i notFour
    have within := (parsed.six notFour).2.2
    exact Quiet.bind (keeps_datagramAt within fits) fun _ => Quiet.silent buf
  split
  · rename_i icmp6
    exact quiet_answerICMP (handleICMP6_of_not_echo outcome.dialing holds
      fun echo => other (.inr ⟨icmp6, echo⟩))
  · exact Quiet.silent buf

/-! ## Packets that are answered in place -/

theorem answerICMP_of_writer (handles : hd buf = (wr >>= fun _ => some <$> writeTunBuf) buf) :
    answerICMP header pkt hd buf = (wr >>= fun _ => Answer.inPlace <$> writeTunBuf) buf := by
  cases ran : wr buf with
  | ok res =>
    rcases res with ⟨_, post⟩
    rw [bind_of_ok ran] at handles
    have ret : hd buf = .ok (some post, post) := handles
    rw [answerICMP, bind_of_ok ret, bind_of_ok ran]
    rfl
  | error =>
    rw [bind_of_error ran] at handles
    rw [answerICMP, bind_of_error handles, bind_of_error ran]

section

variable (config : Config)

def Answers (data : Bytes) (header : Header) : Prop :=
  route config outcome.peerIPMap header = .hairpin ∨
    route config outcome.peerIPMap header = .handled ∧ Echo data header

def writerOf (header : Header) (pkt : Slice) : InBuffer Unit :=
  if route config outcome.peerIPMap header = .hairpin then completeChecksums config header pkt
  else if header.proto = 1 then answerEcho4 outcome.dialing pkt header.ihl
  else answerEcho6 outcome.dialing pkt

theorem handlePacket_of_answers (holds : Holds data buf)
    (answers : Answers outcome config data header) :
    handlePacket config vtcp outcome header (packet data.length) buf =
      (writerOf outcome config header (packet data.length) >>= fun _ =>
        Answer.inPlace <$> writeTunBuf) buf := by
  rcases answers with hairpin | ⟨handled, ⟨four, icmp, echo⟩ | ⟨icmp6, echo⟩⟩
  · rw [handlePacket, hairpin, writerOf, if_pos hairpin]
    rfl
  · rw [handlePacket, handled, writerOf, if_neg (by rw [handled]; decide), if_pos icmp]
    rw [handleProtocol, if_pos icmp, if_pos four]
    exact answerICMP_of_writer (handleICMP4_of_echo outcome.dialing holds echo)
  rw [handlePacket, handled, writerOf, if_neg (by rw [handled]; decide),
    if_neg (by rw [icmp6]; decide)]
  rw [handleProtocol, if_neg (by rw [icmp6]; decide), if_neg (by rw [icmp6]; decide),
    if_neg (by rw [icmp6]; decide), if_pos icmp6]
  exact answerICMP_of_writer (handleICMP6_of_echo outcome.dialing holds echo)

theorem keeps_completeChecksums (parsed : Parsed data header) :
    Keeps (Between 4 data.length) (completeChecksums config header (packet data.length)) := by
  have long := parsed.long
  rw [completeChecksums]
  split
  · refine (keeps_fixIPChecksum (by omega) (by omega)).bind fun _ => ?_
    split <;> exact keeps_fixTransportChecksum (by omega) (by omega)
  · exact Keeps.pure ()

theorem keeps_answerEcho4 (fits : data.length ≤ 1904) (parsed : Parsed data header)
    (four : header.version = 4) (echo : Echo4 data header.ihl)
    (room : dialing ≠ .reached → header.ihl + 8 + header.ihl ≤ data.length) :
    Keeps (Between 2 data.length) (answerEcho4 dialing (packet data.length) header.ihl) := by
  have behind := parsed.four_le four echo
  by_cases reached : dialing = .reached
  · rw [reached]
    exact keeps_writeICMPEchoReply4 parsed.long echo.1 fits (by omega) (by omega)
  rcases answerEcho4_error reached (packet data.length) header.ihl with ⟨type, code, error⟩
  rw [error]
  exact (writes_writeICMPError4 type code parsed.long fits behind parsed.bound (room reached)).keeps

theorem keeps_answerEcho6 (fits : data.length ≤ 1904) (echo : Echo6 data)
    (room : dialing ≠ .reached → 88 ≤ data.length) :
    Keeps (Between 4 data.length) (answerEcho6 dialing (packet data.length)) := by
  by_cases reached : dialing = .reached
  · rw [reached]
    exact keeps_writeICMPEchoReply6 echo.1 fits (by omega)
  rcases answerEcho6_error reached (packet data.length) with ⟨type, code, error⟩
  rw [error]
  exact (writes_writeICMPError6 type code fits (room reached)).keeps

theorem keeps_writerOf (fits : data.length ≤ 1904) (parsed : Parsed data header)
    (answers : Answers outcome config data header)
    (room : route config outcome.peerIPMap header = .handled → Room vtcp outcome data header) :
    Keeps (Between 2 data.length) (writerOf outcome config header (packet data.length)) := by
  rcases answers with hairpin | ⟨handled, ⟨four, icmp, echo⟩ | ⟨icmp6, echo⟩⟩
  · rw [writerOf, if_pos hairpin]
    exact (keeps_completeChecksums config parsed).mono fun _ => Between.mono (by omega)
  · rw [writerOf, if_neg (by rw [handled]; decide), if_pos icmp]
    exact keeps_answerEcho4 fits parsed four echo ((room handled).quote4 four icmp echo)
  rw [writerOf, if_neg (by rw [handled]; decide), if_neg (by rw [icmp6]; decide)]
  exact (keeps_answerEcho6 fits echo ((room handled).quote6 icmp6 echo)).mono fun _ =>
    Between.mono (by omega)

/-! ## Packets that end the loop -/

theorem fails_handleProtocol_of_beyond (four : header.version = 4)
    (transport : header.proto = 1 ∨ header.proto = 6 ∨ header.proto = 17)
    (beyond : n < header.ihl) : Fails (handleProtocol vtcp outcome header (packet n)) := by
  have ports : Keeps (fun _ => False) (parsePorts (packet n) header.ihl) := keeps_parsePorts
  rw [handleProtocol, if_pos four, if_pos four, if_pos four]
  rcases transport with icmp | tcp | udp
  · rw [if_pos icmp]
    exact (fails_handleICMP4 outcome.dialing beyond).bind
  · rw [if_neg (by rw [tcp]; decide), if_pos tcp]
    exact ports.fails fun _ => (fails_handleTCP4 vtcp outcome beyond).bind
  · rw [if_neg (by rw [udp]; decide), if_neg (by rw [udp]; decide), if_pos udp]
    exact ports.fails fun _ => (fails_datagramAt beyond).bind

theorem handleProtocol_of_not_fed (holds : Holds data buf) (fits : data.length ≤ 1904)
    (parsed : Parsed data header) (tcp : header.proto = 6)
    (stuck : ¬Fed vtcp outcome (tcpKeyAt header.src header.dst data header.ihl)
      (data.drop header.ihl)) :
    ∃ panic, handleProtocol vtcp outcome header (packet data.length) buf = .error panic := by
  have long : 20 ≤ (data.drop header.ihl).length := by
    by_contra short
    exact stuck fun long => absurd long short
  rw [List.length_drop] at long
  have ports : Keeps (fun _ => False) (parsePorts (packet data.length) header.ihl) :=
    keeps_parsePorts
  rcases ports.reads buf with ⟨_, ran⟩
  rw [handleProtocol, if_neg (by rw [tcp]; decide), if_pos tcp, bind_of_ok ran]
  split
  · refine Exists.imp (fun panic => bind_of_error) ?_
    rw [handleTCP4_eq vtcp outcome holds (by omega)]
    exact answerSegment_of_not_fed (holds.drop (by dsimp only; omega)) List.length_drop stuck
  rename_i notFour
  rw [(parsed.six notFour).2.1] at stuck long
  refine Exists.imp (fun panic => bind_of_error) ?_
  rw [handleTCP6_eq vtcp outcome holds fits (by omega)]
  exact answerSegment_of_not_fed (holds.drop (by dsimp only; omega)) List.length_drop stuck

theorem fails_writerOf_of_quote4 (fits : data.length ≤ 1904) (parsed : Parsed data header)
    (handled : route config outcome.peerIPMap header = .handled) (four : header.version = 4)
    (icmp : header.proto = 1) (echo : Echo4 data header.ihl)
    (unreached : outcome.dialing ≠ .reached) (short : data.length < header.ihl + 8 + header.ihl) :
    Fails (writerOf outcome config header (packet data.length)) := by
  rcases answerEcho4_error unreached (packet data.length) header.ihl with ⟨type, code, error⟩
  rw [writerOf, if_neg (by rw [handled]; decide), if_pos icmp, error]
  exact fails_writeICMPError4 type code parsed.long fits (parsed.four_le four echo) echo.1 short

theorem fails_writerOf_of_quote6 (fits : data.length ≤ 1904)
    (handled : route config outcome.peerIPMap header = .handled) (icmp6 : header.proto = 58)
    (echo : Echo6 data) (unreached : outcome.dialing ≠ .reached) (short : data.length < 88) :
    Fails (writerOf outcome config header (packet data.length)) := by
  rcases answerEcho6_error unreached (packet data.length) with ⟨type, code, error⟩
  rw [writerOf, if_neg (by rw [handled]; decide), if_neg (by rw [icmp6]; decide), error]
  exact fails_writeICMPError6 type code fits echo.1 short

theorem handlePacket_panics (holds : Holds data buf) (fits : data.length ≤ 1904)
    (parsed : Parsed data header) (handled : route config outcome.peerIPMap header = .handled)
    (cramped : ¬Room vtcp outcome data header) :
    ∃ panic, handlePacket config vtcp outcome header (packet data.length) buf =
      .error panic := by
  -- The fields of `Room` are the ways to panic.
  by_contra returns
  refine cramped ⟨?_, ?_, ?_, ?_⟩
  · intro four transport
    by_contra beyond
    have fails := fails_handleProtocol_of_beyond vtcp outcome four transport
      (Nat.lt_of_not_le beyond) buf
    rw [handlePacket, handled] at returns
    exact returns fails
  · intro four icmp echo unreached
    by_contra short
    rw [handlePacket_of_answers vtcp outcome config holds
      (.inr ⟨handled, .inl ⟨four, icmp, echo⟩⟩)] at returns
    exact returns ((fails_writerOf_of_quote4 outcome config fits parsed handled four icmp echo
      unreached (Nat.lt_of_not_le short)).bind buf)
  · intro icmp6 echo unreached
    by_contra short
    rw [handlePacket_of_answers vtcp outcome config holds
      (.inr ⟨handled, .inr ⟨icmp6, echo⟩⟩)] at returns
    exact returns ((fails_writerOf_of_quote6 outcome config fits handled icmp6 echo
      unreached (Nat.lt_of_not_le short)).bind buf)
  intro tcp
  by_contra stuck
  rw [handlePacket, handled] at returns
  exact returns (handleProtocol_of_not_fed vtcp outcome holds fits parsed tcp stuck)

theorem quiet_handlePacket (holds : Holds data buf) (fits : data.length ≤ 1904)
    (parsed : Parsed data header)
    (room : route config outcome.peerIPMap header = .handled → Room vtcp outcome data header)
    (unanswered : ¬Answers outcome config data header) :
    Quiet (handlePacket config vtcp outcome header (packet data.length)) buf := by
  rw [handlePacket]
  cases goes : route config outcome.peerIPMap header with
  | hairpin => exact absurd (.inl goes) unanswered
  | forward =>
    dsimp only
    rw [forward]
    split
    · exact Quiet.bind keeps_parsePorts fun _ => Quiet.silent buf
    · exact Quiet.silent buf
  | logged => exact Quiet.silent buf
  | handled =>
    exact quiet_handleProtocol vtcp outcome holds fits parsed (room goes) fun echo =>
      unanswered (.inr ⟨goes, echo⟩)

end

end

section

variable (config : Config) (vtcp : Vtcp) (arr : Arrival) {buf : Bytes}

def Answered : Prop :=
  ∃ header, headerOf arr.data = some header ∧ Answers arr.outcome config arr.data header

theorem receive_eq (data buf : Bytes) : receive data buf = .ok ((), overwrite buf 0 data) :=
  rfl

theorem iteration_empty (empty : arr.data.length = 0) :
    ∃ panic, iteration config vtcp arr buf = .error panic := by
  have fails : Fails (readHeader (packet arr.data.length)) :=
    (Slice.fails_get (Nat.le_of_eq empty)).bind
  rw [iteration, bind_of_ok (receive_eq _ _)]
  exact fails.bind _

section

variable (size : buf.length = bufferSize)

include size

theorem iteration_of_header (nonempty : 0 < arr.data.length)
    (found : headerOf arr.data = some header) :
    iteration config vtcp arr buf =
      handlePacket config vtcp arr.outcome header (packet arr.data.length)
        (overwrite buf 0 arr.data) := by
  have read := readHeader_eq (Holds.overwrite arr.fits size) nonempty
  rw [iteration, bind_of_ok (receive_eq _ _), bind_of_ok read, found]

theorem iteration_of_skipped (nonempty : 0 < arr.data.length) (skipped : headerOf arr.data = none) :
    iteration config vtcp arr buf = .ok (.silent, overwrite buf 0 arr.data) := by
  have read := readHeader_eq (Holds.overwrite arr.fits size) nonempty
  rw [iteration, bind_of_ok (receive_eq _ _), bind_of_ok read, skipped]
  rfl

theorem iteration_panics (fatal : ¬Survivable config vtcp arr) :
    ∃ panic, iteration config vtcp arr buf = .error panic := by
  by_cases empty : arr.data.length = 0
  · exact iteration_empty config vtcp arr empty
  by_contra returns
  refine fatal ⟨Nat.pos_of_ne_zero empty, ?_⟩
  intro header found handled
  by_contra cramped
  rw [iteration_of_header config vtcp arr size (Nat.pos_of_ne_zero empty) found] at returns
  exact returns (handlePacket_panics vtcp arr.outcome config
    (Holds.overwrite arr.fits size) arr.fits (headerOf_eq_some found) handled cramped)

theorem iteration_quiet (survivable : Survivable config vtcp arr)
    (unanswered : ¬Answered config arr) :
    ∃ answer, iteration config vtcp arr buf =
      .ok (answer, overwrite buf 0 arr.data) ∧ answer.written = none := by
  cases found : headerOf arr.data with
  | none => exact ⟨.silent, iteration_of_skipped config vtcp arr size survivable.1 found, rfl⟩
  | some header =>
    rw [iteration_of_header config vtcp arr size survivable.1 found]
    exact quiet_handlePacket vtcp arr.outcome config (Holds.overwrite arr.fits size)
      arr.fits (headerOf_eq_some found) (survivable.2 header found) fun answers =>
        unanswered ⟨header, found, answers⟩

theorem iteration_answers (survivable : Survivable config vtcp arr)
    (found : headerOf arr.data = some header)
    (answers : Answers arr.outcome config arr.data header) :
    ∃ post, writerOf arr.outcome config header (packet arr.data.length)
        (overwrite buf 0 arr.data) = .ok ((), post) ∧
      Touches (Between 2 arr.data.length) (overwrite buf 0 arr.data) post ∧
      iteration config vtcp arr buf = .ok (.inPlace post, post) := by
  have keeps := keeps_writerOf vtcp arr.outcome config arr.fits (headerOf_eq_some found) answers
    (survivable.2 header found)
  rcases keeps (overwrite buf 0 arr.data) with ⟨_, post, ran, touches⟩
  refine ⟨post, ran, touches, ?_⟩
  rw [iteration_of_header config vtcp arr size survivable.1 found,
    handlePacket_of_answers vtcp arr.outcome config (Holds.overwrite arr.fits size) answers,
    bind_of_ok ran]
  rfl

theorem iteration_returns (survivable : Survivable config vtcp arr) :
    ∃ answer post, iteration config vtcp arr buf = .ok (answer, post) ∧
      post.length = bufferSize := by
  have filled := (touches_overwrite buf 0 arr.data).length.trans size
  by_cases ans : Answered config arr
  · rcases ans with ⟨header, found, answers⟩
    rcases iteration_answers config vtcp arr size survivable found answers with
      ⟨post, -, touches, ran⟩
    exact ⟨_, post, ran, touches.length.trans filled⟩
  · rcases iteration_quiet config vtcp arr size survivable ans with ⟨answer, ran, -⟩
    exact ⟨answer, _, ran, filled⟩

theorem iteration_of_ok (ran : iteration config vtcp arr buf = .ok (answer, post)) :
    Survivable config vtcp arr ∧ post.length = bufferSize := by
  have survivable : Survivable config vtcp arr := by
    by_contra fatal
    rcases iteration_panics config vtcp arr size fatal with ⟨panic, panicked⟩
    rw [panicked] at ran
    cases ran
  rcases iteration_returns config vtcp arr size survivable with ⟨_, _, ranAgain, kept⟩
  rw [ran] at ranAgain
  cases ranAgain
  exact ⟨survivable, kept⟩

end

end

section

variable (config : Config) (vtcp : Vtcp)

theorem iterations_return_iff (arrivals : List Arrival) {buf : Bytes}
    (size : buf.length = bufferSize) :
    (∃ answers post, iterations config vtcp arrivals buf = .ok (answers, post)) ↔
      ∀ arr ∈ arrivals, Survivable config vtcp arr := by
  induction arrivals generalizing buf with
  | nil =>
    constructor
    · intro _ arr mem
      cases mem
    · intro _
      exact ⟨[], buf, rfl⟩
  | cons arr arrivals ih =>
    rw [List.forall_mem_cons]
    constructor
    · intro ⟨answers, last, ran⟩
      rcases bind_eq_ok.mp ran with ⟨answer, post, ranFirst, ranRest⟩
      have ⟨survivable, kept⟩ := iteration_of_ok config vtcp arr size ranFirst
      rcases bind_eq_ok.mp ranRest with ⟨rest, final, ranLater, -⟩
      exact ⟨survivable, (ih kept).mp ⟨rest, final, ranLater⟩⟩
    intro ⟨survivable, later⟩
    rcases iteration_returns config vtcp arr size survivable with ⟨answer, post, ranFirst, kept⟩
    rcases (ih kept).mpr later with ⟨answers, last, ranRest⟩
    refine ⟨answer :: answers, last, ?_⟩
    rw [iterations, bind_of_ok ranFirst, bind_of_ok ranRest]
    rfl

theorem iterations_size {buf : Bytes} (size : buf.length = bufferSize)
    (ran : iterations config vtcp arrivals buf = .ok (answers, post)) :
    post.length = bufferSize := by
  induction arrivals generalizing buf answers with
  | nil =>
    cases ran
    exact size
  | cons arr arrivals ih =>
    rcases bind_eq_ok.mp ran with ⟨answer, mid, ranFirst, ranRest⟩
    rcases bind_eq_ok.mp ranRest with ⟨rest, last, ranLater, ret⟩
    cases ret
    exact ih (iteration_of_ok config vtcp arr size ranFirst).2 ranLater

/-- The loop survives exactly the sequences whose packets are all survivable. -/
theorem tunReadLoop_returns_iff (arrivals : List Arrival) :
    (∃ answers buffer, tunReadLoop config vtcp arrivals = .ok (answers, buffer)) ↔
      ∀ arrival ∈ arrivals, Survivable config vtcp arrival :=
  iterations_return_iff config vtcp arrivals List.length_replicate

end

def homeConfig : Config := ⟨false, v4InV6Prefix ++ [10, 0, 0, 1], []⟩

def alone : Outcome := ⟨[], .noPeer, fun _ => none, false, []⟩

def bareVtcp : Vtcp where
  parseSegment _ := none
  segLen _ := 0
  marshal _ := List.replicate 20 0
  header _ := Nat.le_of_eq List.length_replicate.symm

def barePing : Arrival where
  data := [0x45, 0, 0, 28, 0, 1, 0, 0, 64, 1, 0x66, 0xd4, 10, 0, 0, 1, 10, 0, 0, 9,
    8, 0, 0xf7, 0xfd, 0, 1, 0, 1]
  outcome := alone
  fits := by decide

/-- A segment with a data offset of 0, for a connection over a relayed stream. -/
def badOffset : Arrival where
  data := [0x45, 0, 0, 40, 0, 1, 0, 0, 64, 6, 0x66, 0xc3, 10, 0, 0, 1, 10, 0, 0, 9] ++
    List.replicate 20 0
  outcome := { alone with tcpConns := fun _ => some false }
  fits := by decide

theorem barePing_panics :
    tunReadLoop homeConfig bareVtcp [barePing] = .error (.slice 48 28 1904) ∧
      tunReadLoop homeConfig bareVtcp [badOffset] = .error .nilDereference := by
  decide +kernel

end Peerscale.Fbvirtun
