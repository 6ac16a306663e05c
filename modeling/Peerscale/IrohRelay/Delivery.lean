import Peerscale.IrohRelay.Ordering

/-! # A stream from its first byte

A stream is opened, written to over one alive relay, accepted at the other end and read.
The first data frame makes the stream known there and is lost in doing so: the reader
gets what follows it.
-/

namespace Peerscale.IrohRelay

open Relation List Network Function

def Single (link : Link) (conn : RelayConn) : Prop :=
  link.relays.filter (fun relay => relay.state = .alive) = [conn] ∧ conn.ws = .working

variable {conn : RelayConn} {link : Link}

theorem Single.sendTo_eq (single : Single link conn) (permuted : List.Perm order link.relays)
    (r : PublicKey) (fr : Bytes) : sendTo r fr order = .ok (conn.url, datagramMessage r fr) := by
  rw [sendTo_of_single single.1 permuted, RelayConn.sendDatagram, single.2]

structure Funnelled (url : GoString) (total : Bytes) (network : Network) : Prop where
  others : ∀ other, other ≠ url → network.transit other = []
  total : network.written ++ upcoming network.writer = total

variable {post pre : Network}

theorem Funnelled.step {total : Bytes} (single : Single link conn)
    (funnelled : Funnelled conn.url total pre) (stepped : Step link pre post) :
    Funnelled conn.url total post ∧ Settled pre post := by
  cases stepped with
  | @send r fr msg next order url wr permuted sent =>
    rw [single.sendTo_eq permuted, Except.ok.injEq, Prod.mk.injEq] at sent
    obtain ⟨rfl, -⟩ := sent
    refine ⟨⟨?_, ?_⟩, settled_send funnelled.others⟩
    · intro other apart
      rw [transit_send, update_of_ne apart, funnelled.others other apart]
    · rw [← funnelled.total, wr, upcoming]
      exact append_assoc _ _ _
  | @refuse r fr next order err wr permuted refused =>
    rw [single.sendTo_eq permuted] at refused
    cases refused
  | @deliver url msg rest carried =>
    refine ⟨⟨?_, funnelled.total⟩, settled_deliver carried⟩
    intro other apart
    have here : url = conn.url := by
      by_contra elsewhere
      rw [funnelled.others url elsewhere] at carried
      cases carried
    rw [transit_deliver, here, update_of_ne apart, funnelled.others other apart]
  | other | accept | read => exact ⟨⟨funnelled.others, funnelled.total⟩, settled_of_same rfl⟩

structure Unopened (link : Link) (network : Network) : Prop where
  writes : Writes link.receiver link.sid network.writer
  unknown : ∀ (place : Nat) (state : StreamState),
    network.pool.streams[place]? ≠ some ⟨link.sid, link.sender, state⟩
  untouched : ∀ place, network.pool.streams.length ≤ place → network.taken place = []
  flow : ∃ datas, Carries link network.transit datas ∧ (∀ data ∈ datas, data ≠ []) ∧
    datas.flatten = network.written

def Opened (link : Link) (network : Network) : Prop :=
  ∃ place lost, lost ≠ [] ∧ Streaming link place lost network ∧
    (place ∈ network.held ∨ place ∈ network.pool.acceptCh)

theorem Unopened.find_eq_none (unopened : Unopened link net) :
    net.pool.find link.sender link.sid = none := by
  cases found : net.pool.find link.sender link.sid with
  | none => rfl
  | some p =>
    rcases net.pool.known _ _ _ found with ⟨state, has⟩
    exact absurd has (unopened.unknown p state)

theorem Unopened.open (unopened : Unopened link net)
    (room : net.pool.acceptCh.length < acceptCapacity) (carried : net.transit url = msg :: rest) :
    Opened link (net.deliver url msg rest) := by
  rcases unopened.flow with ⟨datas, carries, filled, flow⟩
  rcases carries.deliver carried with ⟨data, remaining, rfl, rfl, carriesOn⟩
  have pool : (net.deliver url (dataMessage link data) rest).pool =
      { (net.pool.ensureManager link.sender).enter link.sender link.sid with
        acceptCh := net.pool.acceptCh ++ [net.pool.streams.length] } := by
    rw [deliver]
    rw [receive_dataMessage_eq, Pool.dispatchStreamFrame_of_unknown unopened.find_eq_none room]
  refine ⟨net.pool.streams.length, data, filled data mem_cons_self, ?_, ?_⟩
  · refine ⟨unopened.writes, ?_, (newStream link.sid link.sender).state, remaining, ?_,
      carriesOn, ?_⟩
    · rw [pool]
      exact (net.pool.ensureManager link.sender).find_enter link.sender link.sid
    · rw [pool]
      exact getElem?_concat_length
    have nothingTaken := unopened.untouched net.pool.streams.length (Nat.le_refl _)
    rw [deliver, nothingTaken, ← flow]
    simp [newStream]
  right
  rw [pool]
  exact mem_append_right _ (mem_singleton_self _)

theorem Unopened.step (unopened : Unopened link pre) (stepped : Step link pre post)
    (settled : Settled pre post) (room : pre.pool.acceptCh.length < acceptCapacity) :
    Unopened link post ∨ Opened link post := by
  rcases unopened.flow with ⟨datas, carries, filled, flow⟩
  have writes := unopened.writes
  cases stepped with
  | @send r fr msg next order url wr permuted sent =>
    rcases data_of_sent writes wr sent with ⟨data, nonempty, rfl, arrives, continues⟩
    refine .inl ⟨continues, unopened.unknown, unopened.untouched, datas ++ [data], ?_, ?_, ?_⟩
    · rw [Network.transit_send, arrives]
      exact carries.send settled.others data
    · intro item mem
      rcases mem_append.mp mem with prev | last
      · exact filled item prev
      · rwa [mem_singleton.mp last]
    · simp [Network.send, ← flow]
  | @refuse r fr next order err wr =>
    rw [wr, writes_perform] at writes
    exact .inl ⟨writes.2 (some err), unopened.unknown, unopened.untouched, datas,
      carries, filled, flow⟩
  | deliver carried => exact .inr (unopened.open room carried)
  | @other msg foreign =>
    have undisturbed := Undisturbed.receive pre.pool foreign
    refine .inl ⟨writes, ?_, ?_, datas, carries, filled, flow⟩
    · intro p state has
      exact unopened.unknown p state ((undisturbed.streams p state).mp has)
    · intro p beyond
      exact unopened.untouched p (undisturbed.grown.trans beyond)
  | accept accepted =>
    rcases Pool.acceptStream_eq_some accepted with ⟨rest, -, rfl⟩
    exact .inl ⟨writes, unopened.unknown, unopened.untouched, datas, carries, filled, flow⟩
  | @read pos n bytes pool held ran =>
    have length := Pool.length_read ran
    refine .inl ⟨writes, ?_, ?_, datas, carries, filled, flow⟩
    · intro p state has
      rcases Pool.read_identity ran has with ⟨prev, found⟩
      exact unopened.unknown p prev found
    intro p beyond
    have beyondBefore : pre.pool.streams.length ≤ p := length.2 ▸ beyond
    rw [Network.read]
    dsimp only
    rw [update_of_ne (by omega), unopened.untouched p beyondBefore]

theorem Opened.step (opened : Opened link pre) (stepped : Step link pre post)
    (settled : Settled pre post) : Opened link post := by
  rcases opened with ⟨p, lost, nonempty, streaming, obtainable⟩
  refine ⟨p, lost, nonempty, streaming.step stepped settled, ?_⟩
  cases stepped with
  | send | refuse => exact obtainable
  | @deliver url msg rest carried =>
    rcases streaming.flow with ⟨state, datas, has, carries, -⟩
    rcases carries.deliver carried with ⟨data, remaining, rfl, rfl, -⟩
    have q := (receive_dataMessage streaming.known has data).2.2
    exact obtainable.imp id fun waiting => q ▸ waiting
  | other foreign =>
    have undisturbed := Undisturbed.receive pre.pool foreign
    exact obtainable.imp id fun waiting => undisturbed.queued p waiting
  | @accept x pool accepted =>
    rcases Pool.acceptStream_eq_some accepted with ⟨rest, q, rfl⟩
    rcases obtainable with held | waiting
    · exact .inl (mem_append_left _ held)
    rw [q] at waiting
    rcases mem_cons.mp waiting with rfl | later
    · exact .inl (mem_append_right _ (mem_singleton_self _))
    · exact .inr later
  | @read pos n bytes pool held ran =>
    rcases Pool.read_eq_some ran with ⟨stream, -, -, rfl⟩
    exact obtainable

/-! ## What the reader gets -/

def openedLink (writer : Pool) (receiver : PublicKey) (relays : List RelayConn) : Link where
  sender := writer.localPub
  receiver := receiver
  sid := (writer.openStream receiver).1.id
  relays := relays

def justOpened (writer reader : Pool) (held : List Nat) (calls : List Bytes) : Network where
  writer := (writer.openStream reader.localPub).1.writeAll calls
  written := []
  transit := fun _ => []
  pool := reader
  held := held
  taken := fun _ => []

/-- A stream with the link's identity that `AcceptStream` returns has given its reader
these bytes, counting those that wait in its buffer. -/
def Network.Yields (network : Network) (link : Link) (bytes : Bytes) : Prop :=
  ∀ place stream, place ∈ network.held ∨ place ∈ network.pool.acceptCh →
    network.pool.streams[place]? = some stream →
    stream.remote = link.sender → stream.id = link.sid →
    network.taken place ++ stream.state.rxBuf = bytes

def RoomyRun (link : Link) : Network → Network → Prop :=
  ReflTransGen fun pre post => Step link pre post ∧ pre.pool.acceptCh.length < acceptCapacity

theorem unopened_justOpened {wr rd : Pool}
    (fresh : ∀ stream ∈ rd.streams, ¬(stream.remote = wr.localPub ∧
      stream.id = (wr.openStream rd.localPub).1.id)) (held : List Nat) (calls : List Bytes) :
    Unopened (openedLink wr rd.localPub relays) (justOpened wr rd held calls) where
  writes := writes_writeAll (wr.openStream rd.localPub).1 calls
  unknown p state has := by exact fresh _ (mem_of_getElem? has) ⟨rfl, rfl⟩
  untouched _ _ := rfl
  flow := ⟨[], ⟨[], rfl, fun _ _ => rfl⟩, by simp, rfl⟩

theorem funnelled_justOpened (wr rd : Pool) (held : List Nat) (calls : List Bytes)
    (url : GoString) : Funnelled url calls.flatten (justOpened wr rd held calls) where
  others _ _ := rfl
  total := upcoming_writeAll (wr.openStream rd.localPub).1 calls

theorem RoomyRun.invariant {total : Bytes} {start final : Network} (single : Single link conn)
    (funnelled : Funnelled conn.url total start) (unopened : Unopened link start)
    (run : RoomyRun link start final) :
    Funnelled conn.url total final ∧ (Unopened link final ∨ Opened link final) := by
  induction run with
  | refl => exact ⟨funnelled, .inl unopened⟩
  | tail _ stepped ih =>
    rcases ih with ⟨funnelled, phase⟩
    rcases funnelled.step single stepped.1 with ⟨funnelledAfter, settled⟩
    refine ⟨funnelledAfter, ?_⟩
    rcases phase with unopened | opened
    · exact unopened.step stepped.1 settled stepped.2
    · exact .inr (opened.step stepped.1 settled)

/-- Once all has been sent and delivered, the reader has got what was written if and only
if nothing was. -/
theorem yields_written_iff {writer reader : Pool} {relays : List RelayConn}
    {conn : RelayConn} {held : List Nat} {calls : List Bytes} {final : Network}
    (alive : relays.filter (fun relay => relay.state = .alive) = [conn])
    (working : conn.ws = .working)
    (fresh : ∀ stream ∈ reader.streams, ¬(stream.remote = writer.localPub ∧
      stream.id = (writer.openStream reader.localPub).1.id))
    (run : RoomyRun (openedLink writer reader.localPub relays)
      (justOpened writer reader held calls) final)
    (sent : final.writer = .done ()) (delivered : ∀ url, final.transit url = []) :
    final.Yields (openedLink writer reader.localPub relays) calls.flatten ↔
      ∀ b ∈ calls, b = [] := by
  have single : Single (openedLink writer reader.localPub relays) conn := ⟨alive, working⟩
  rcases run.invariant single (funnelled_justOpened writer reader held calls conn.url)
    (unopened_justOpened fresh held calls) with ⟨funnelled, phase⟩
  have written : final.written = calls.flatten := by
    have total := funnelled.total
    rwa [sent, upcoming, append_nil] at total
  have arrived : ∀ {link datas}, Carries link final.transit datas → datas = [] := by
    rintro link datas ⟨url, carried, -⟩
    rw [delivered url] at carried
    exact (map_eq_nil_iff.mp carried.symm)
  rw [← flatten_eq_nil_iff]
  rcases phase with unopened | ⟨place, lost, nonempty, streaming, obtainable⟩
  · -- No frame has come, so that none was sent and there is no such stream.
    rcases unopened.flow with ⟨datas, carries, -, flow⟩
    refine iff_of_true ?_ ?_
    · rintro position ⟨id, remote, state⟩ - present rfl rfl
      exact absurd present (unopened.unknown position state)
    · rw [← written, ← flow, arrived carries, flatten_nil]
  -- The stream is there and lacks the first frame.
  rcases streaming.flow with ⟨state, datas, present, carries, flow⟩
  rw [arrived carries, flatten_nil, append_nil, written, append_assoc] at flow
  refine iff_of_false ?_ ?_
  · intro yields
    have same := yields place _ obtainable present rfl rfl
    rw [← flow, self_eq_append_left] at same
    exact nonempty same
  · rw [← flow]
    exact append_ne_nil_of_left_ne_nil nonempty _

/-! ## A greeting that is not heard -/

def greetingLink : Link := openedLink (newPool alice) bob [northRelay]

def greeting : Network := justOpened (newPool alice) (newPool bob) [] [ascii "hi"]

def greetingSent : Network :=
  greeting.send alice northRelay.url (streamFrame greetingLink.sid flagDATA (ascii "hi"))
    (datagramMessage bob (streamFrame greetingLink.sid flagDATA (ascii "hi")))
    (((newPool alice).openStream bob).1.writeAll [])

def greetingArrived : Network :=
  greetingSent.deliver northRelay.url (dataMessage greetingLink (ascii "hi")) []

def greetingAccepted : Network :=
  { greetingArrived with
    pool := { greetingArrived.pool with acceptCh := [] }
    held := [0] }

theorem run_greetingAccepted : RoomyRun greetingLink greeting greetingAccepted := by
  have sends : Step greetingLink greeting greetingSent :=
    step_write_of_short rfl (by decide) (by decide) (List.Perm.refl _) rfl
  have arrives : Step greetingLink greetingSent greetingArrived := Step.deliver (by decide +kernel)
  have waiting : greetingArrived.pool.acceptCh = [0] := by decide +kernel
  have accepts : Step greetingLink greetingArrived greetingAccepted := by
    apply Step.accept
    rw [Pool.acceptStream, waiting]
  have waitingRoom : greetingArrived.pool.acceptCh.length < acceptCapacity := by
    rw [waiting]
    decide
  exact ((ReflTransGen.single ⟨sends, by decide⟩).tail ⟨arrives, by decide⟩).tail
    ⟨accepts, waitingRoom⟩

theorem transit_greetingAccepted (url : GoString) : greetingAccepted.transit url = [] := by
  show greetingArrived.transit url = []
  rw [greetingArrived, transit_deliver, greetingSent, transit_send]
  by_cases here : url = northRelay.url
  · rw [here, update_self]
  · rw [update_of_ne here, update_of_ne here]
    rfl

theorem yields_written_iff_greeting :
    greetingAccepted.Yields greetingLink [ascii "hi"].flatten ↔ ∀ b ∈ [ascii "hi"], b = [] :=
  @yields_written_iff (newPool alice) (newPool bob) [northRelay] northRelay []
    [ascii "hi"] greetingAccepted rfl rfl (by simp [newPool]) run_greetingAccepted rfl
    transit_greetingAccepted

theorem greeting_lost :
    RoomyRun greetingLink greeting greetingAccepted ∧
      greetingAccepted.writer = .done () ∧ (∀ url, greetingAccepted.transit url = []) ∧
      greetingAccepted.held = [0] ∧ greetingAccepted.taken 0 = [] ∧
      greetingAccepted.pool.streams[0]? =
        some ⟨greetingLink.sid, greetingLink.sender, ⟨[], false, false⟩⟩ ∧
      ¬greetingAccepted.Yields greetingLink (ascii "hi") := by
  have present : greetingAccepted.pool.streams[0]? =
      some ⟨greetingLink.sid, greetingLink.sender, ⟨[], false, false⟩⟩ := by
    decide +kernel
  refine ⟨run_greetingAccepted, rfl, transit_greetingAccepted, rfl, rfl, present, ?_⟩
  intro yields
  have heard := yields 0 _ (.inl (mem_singleton_self 0)) present rfl rfl
  exact absurd heard (by decide)

end Peerscale.IrohRelay
