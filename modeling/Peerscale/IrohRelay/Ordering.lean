import Mathlib.Logic.Relation
import Peerscale.IrohRelay.Network

/-! # Order of a stream over several relays

Frames carry no sequence number, and each of them goes to whichever alive relay the loop
over the map meets first. The order of a stream is kept in the runs in which a frame is
handed to a relay only when no other relay still carries one.
-/

namespace Peerscale.IrohRelay

open Relation Function Network

def dataMessage (link : Link) (data : Bytes) : Bytes :=
  forward link.sender (datagramMessage link.receiver (streamFrame link.sid flagDATA data))

/-- One relay carries all the frames in transit, with these data in this order. -/
def Carries (link : Link) (transit : GoString → List Bytes) (datas : List Bytes) : Prop :=
  ∃ url, transit url = datas.map (dataMessage link) ∧ ∀ other, other ≠ url → transit other = []

variable {msg : Bytes} {net : Network} {url : GoString}

theorem data_of_sent {link : Link} {r : PublicKey} {next : Option GoString → WriteProg Unit}
    {order : List RelayConn} (writes : Writes link.receiver link.sid net.writer)
    (wr : net.writer = .perform (.sendTo r fr) next) (sent : sendTo r fr order = .ok (url, msg)) :
    ∃ data, data ≠ [] ∧ fr = streamFrame link.sid flagDATA data ∧
      forward link.sender msg = dataMessage link data ∧
      Writes link.receiver link.sid (next none) := by
  rw [wr, writes_perform] at writes
  rcases writes with ⟨⟨data, nonempty, sends⟩, continues⟩
  rcases WriteOp.sendTo.inj sends with ⟨rfl, rfl⟩
  rw [sendTo_eq_ok sent]
  exact ⟨data, nonempty, rfl, rfl, continues none⟩

/-- A frame is handed over at a time when no other relay carries one. -/
def Settled (pre post : Network) : Prop :=
  ∀ url msg, post.transit url = pre.transit url ++ [msg] →
    ∀ other, other ≠ url → pre.transit other = []

variable {post pre : Network}

theorem Settled.of_length_le
    (shorter : ∀ url, (post.transit url).length ≤ (pre.transit url).length) : Settled pre post := by
  intro url msg added
  have bound := shorter url
  rw [added, List.length_append, List.length_singleton] at bound
  omega

theorem Settled.of_others (others : ∀ other, other ≠ url → pre.transit other = [])
    (same : ∀ other, other ≠ url → post.transit other = pre.transit other) : Settled pre post := by
  intro target msg added
  by_cases here : target = url
  · rwa [here]
  · rw [same target here] at added
    exact absurd added.symm (by simp)

theorem settled_send (others : ∀ other, other ≠ url → net.transit other = []) :
    Settled net (net.send sender url fr msg wr) :=
  Settled.of_others others fun _ apart => update_of_ne apart _ _

theorem Settled.others (settled : Settled net (net.send sender url fr msg wr)) :
    ∀ other, other ≠ url → net.transit other = [] :=
  settled url _ (update_self _ _ _)

theorem settled_deliver (carried : net.transit url = msg :: rest) :
    Settled net (net.deliver url msg rest) := by
  apply Settled.of_length_le
  intro other
  by_cases here : other = url
  · rw [here, transit_deliver, update_self, carried]
    simp
  · rw [transit_deliver, update_of_ne here]

theorem settled_of_same (same : post.transit = pre.transit) : Settled pre post :=
  Settled.of_length_le fun _ => by rw [same]

section Carries

variable {link : Link} {transit : GoString → List Bytes} {datas : List Bytes} {url : GoString}

theorem Carries.at (carries : Carries link transit datas)
    (others : ∀ other, other ≠ url → transit other = []) :
    transit url = datas.map (dataMessage link) := by
  rcases carries with ⟨cur, carried, elsewhere⟩
  by_cases here : url = cur
  · rw [here, carried]
  · rw [elsewhere url here, ← carried, others cur (Ne.symm here)]

theorem Carries.send (carries : Carries link transit datas)
    (others : ∀ other, other ≠ url → transit other = []) (data : Bytes) :
    Carries link (update transit url (transit url ++ [dataMessage link data]))
      (datas ++ [data]) := by
  refine ⟨url, ?_, ?_⟩
  · rw [update_self, carries.at others, List.map_append, List.map_singleton]
  · intro other apart
    rw [update_of_ne apart, others other apart]

theorem Carries.deliver (carries : Carries link transit datas) {msg : Bytes} {rest : List Bytes}
    (carried : transit url = msg :: rest) :
    ∃ data remaining, datas = data :: remaining ∧ msg = dataMessage link data ∧
      Carries link (update transit url rest) remaining := by
  rcases carries with ⟨cur, q, elsewhere⟩
  have here : url = cur := by
    by_contra apart
    rw [elsewhere url apart] at carried
    cases carried
  subst here
  rw [carried] at q
  cases datas with
  | nil => cases q
  | cons data remaining =>
    rw [List.map_cons, List.cons.injEq] at q
    refine ⟨data, remaining, rfl, q.1, url, ?_, ?_⟩
    · rw [update_self, q.2]
    · intro other apart
      rw [update_of_ne apart, elsewhere other apart]

end Carries

/-- The stream is at its place; what its reader missed, what has been read, what is in
the buffer and what is in transit are together what was written. -/
structure Streaming (link : Link) (p : Nat) (lost : Bytes) (network : Network) :
    Prop where
  writes : Writes link.receiver link.sid network.writer
  known : network.pool.find link.sender link.sid = some p
  flow : ∃ state datas,
    network.pool.streams[p]? = some ⟨link.sid, link.sender, state⟩ ∧
    Carries link network.transit datas ∧
    lost ++ network.taken p ++ state.rxBuf ++ datas.flatten = network.written

variable {p : Nat}

theorem receive_dataMessage_eq (link : Link) (pool : Pool) (data : Bytes) :
    pool.receive (dataMessage link data) =
      pool.dispatchStreamFrame link.sender link.sid flagDATA data := by
  rw [Pool.receive, dataMessage, readMessage_forward]

theorem receive_dataMessage {link : Link} {pool : Pool}
    (known : pool.find link.sender link.sid = some p)
    (has : pool.streams[p]? = some ⟨link.sid, link.sender, state⟩) (data : Bytes) :
    (pool.receive (dataMessage link data)).find link.sender link.sid = some p ∧
      (pool.receive (dataMessage link data)).streams[p]? =
        some ⟨link.sid, link.sender, { state with rxBuf := state.rxBuf ++ data }⟩ ∧
      (pool.receive (dataMessage link data)).acceptCh = pool.acceptCh := by
  rw [receive_dataMessage_eq, Pool.dispatchStreamFrame_of_known known]
  refine ⟨?_, ?_, rfl⟩
  · exact (pool.find_ensureManager link.sender link.sender link.sid).trans known
  · exact (pool.ensureManager link.sender).lookup_modify has _

theorem Streaming.step (streaming : Streaming link p lost pre)
    (stepped : Step link pre post) (settled : Settled pre post) : Streaming link p lost post := by
  rcases streaming with ⟨writes, known, state, datas, has, carries, flow⟩
  cases stepped with
  | @send r fr msg next order url wr permuted sent =>
    rcases data_of_sent writes wr sent with ⟨data, -, rfl, arrives, continues⟩
    refine ⟨continues, known, state, datas ++ [data], has, ?_, ?_⟩
    · rw [Network.transit_send, arrives]
      exact carries.send settled.others data
    · simp [Network.send, ← flow]
  | @refuse r fr next order err wr =>
    rw [wr, writes_perform] at writes
    exact ⟨writes.2 (some err), known, state, datas, has, carries, flow⟩
  | @deliver url msg rest carried =>
    rcases carries.deliver carried with ⟨data, remaining, rfl, rfl, carriesOn⟩
    have received := receive_dataMessage known has data
    refine ⟨writes, received.1, _, remaining, received.2.1, carriesOn, ?_⟩
    simp [Network.deliver, ← flow]
  | @other msg foreign =>
    have undisturbed := Undisturbed.receive pre.pool foreign
    exact ⟨writes, undisturbed.find.trans known, state, datas,
      (undisturbed.streams p state).mpr has, carries, flow⟩
  | @accept pos pool accepted =>
    rcases Pool.acceptStream_eq_some accepted with ⟨rest, -, rfl⟩
    exact ⟨writes, known, state, datas, has, carries, flow⟩
  | @read pos n bytes pool held ran =>
    have knownAfter := (Pool.find_read ran link.sender link.sid).trans known
    by_cases here : p = pos
    · subst here
      rcases Pool.read_data has ran with ⟨next, presentAfter, moved⟩
      refine ⟨writes, knownAfter, next, datas, presentAfter, carries, ?_⟩
      have moved : state.rxBuf = bytes ++ next.rxBuf := moved
      simp only [Network.read, ← flow, update_self, moved, List.append_assoc]
    have presentAfter := (Pool.read_elsewhere ran here).trans has
    refine ⟨writes, knownAfter, state, datas, presentAfter, carries, ?_⟩
    simpa only [Network.read, update_of_ne here] using flow

/-- An accepted stream, with none of its frames in transit. The record of what was
written starts with what has reached the reader already. -/
structure Accepted (link : Link) (p : Nat) (network : Network) : Prop where
  writes : Writes link.receiver link.sid network.writer
  held : p ∈ network.held
  known : network.pool.find link.sender link.sid = some p
  quiet : ∀ url, network.transit url = []
  written : ∃ stream, network.pool.streams[p]? = some stream ∧
    network.written = network.taken p ++ stream.state.rxBuf

theorem Accepted.streaming {link : Link} (accepted : Accepted link p net) :
    Streaming link p [] net := by
  rcases net.pool.known _ _ _ accepted.known with ⟨state, has⟩
  rcases accepted.written with ⟨stream, found, written⟩
  obtain rfl := Option.some.inj (found.symm.trans has)
  refine ⟨accepted.writes, accepted.known, state, [], has, ?_, ?_⟩
  · exact ⟨[], accepted.quiet [], fun other _ => accepted.quiet other⟩
  · simp [written]

/-- In every run that hands frames over only when no other relay carries one, the reader
gets the bytes in the order in which they were written. -/
theorem read_order_of_settled {link : Link} {place : Nat} {start final : Network}
    (accepted : Accepted link place start)
    (run : ReflTransGen (fun before after => Step link before after ∧ Settled before after)
      start final) :
    ∃ stream, final.pool.streams[place]? = some stream ∧
      final.taken place ++ stream.state.rxBuf <+: final.written := by
  have streaming : Streaming link place [] final := by
    induction run with
    | refl => exact accepted.streaming
    | tail _ stepped induction => exact induction.step stepped.1 stepped.2
  rcases streaming.flow with ⟨state, datas, present, -, flow⟩
  exact ⟨_, present, datas.flatten, by simpa using flow⟩

def alice : PublicKey := ⟨List.replicate 32 1, rfl⟩
def bob : PublicKey := ⟨List.replicate 32 2, rfl⟩

def northRelay : RelayConn := ⟨ascii "north", .alive, .working⟩
def southRelay : RelayConn := ⟨ascii "south", .alive, .working⟩

def twoRelays : Link where
  sender := alice
  receiver := bob
  sid := 1001
  relays := [northRelay, southRelay]

def bobAccepted : Pool :=
  { (newPool bob).receive (dataMessage twoRelays (ascii "hello")) with acceptCh := [] }

theorem bobAccepted_eq : bobAccepted.find alice twoRelays.sid = some 0 ∧
    bobAccepted.streams = [newStream twoRelays.sid alice] := by
  decide +kernel

def letters (calls : List Bytes) : Network where
  writer := (newStream twoRelays.sid bob).writeAll calls
  written := []
  transit := fun _ => []
  pool := bobAccepted
  held := [0]
  taken := fun _ => []

theorem accepted_letters (calls : List Bytes) : Accepted twoRelays 0 (letters calls) where
  writes := writes_writeAll (newStream twoRelays.sid bob) calls
  held := List.mem_singleton_self 0
  known := bobAccepted_eq.1
  quiet _ := rfl
  written := by
    refine ⟨newStream twoRelays.sid alice, ?_, rfl⟩
    exact (congrArg (fun streams => streams[0]?) bobAccepted_eq.2).trans rfl

def Network.sendLetter (net : Network) (relay : RelayConn) (letter : GoString)
    (calls : List Bytes) : Network :=
  net.send alice relay.url (streamFrame twoRelays.sid flagDATA letter)
    (datagramMessage bob (streamFrame twoRelays.sid flagDATA letter))
    ((newStream twoRelays.sid bob).writeAll calls)

theorem step_sendLetter (wr : net.writer = (newStream twoRelays.sid bob).writeAll (letter :: calls))
    (some : letter ≠ []) (short : letter.length ≤ maxDatagramPayload)
    (permuted : [relay, other].Perm twoRelays.relays) (alive : relay.state = .alive)
    (working : relay.ws = .working) : Step twoRelays net (net.sendLetter relay letter calls) := by
  apply step_write_of_short wr some short permuted
  simp [sendTo, RelayConn.sendDatagram, alive, working, newStream]

def firstArrived : Network :=
  ((letters [ascii "a", ascii "b"]).sendLetter northRelay (ascii "a") [ascii "b"]).deliver
    northRelay.url (dataMessage twoRelays (ascii "a")) []

def lettersArrived : Network :=
  (firstArrived.sendLetter southRelay (ascii "b") []).deliver southRelay.url
    (dataMessage twoRelays (ascii "b")) []

theorem run_lettersArrived :
    ReflTransGen (fun pre post => Step twoRelays pre post ∧ Settled pre post)
      (letters [ascii "a", ascii "b"]) lettersArrived := by
  have sendsFirst : Step twoRelays (letters [ascii "a", ascii "b"])
      ((letters [ascii "a", ascii "b"]).sendLetter northRelay (ascii "a") [ascii "b"]) :=
    step_sendLetter rfl (by decide) (by decide) (List.Perm.refl _) rfl rfl
  have firstSettled : Settled (letters [ascii "a", ascii "b"])
      ((letters [ascii "a", ascii "b"]).sendLetter northRelay (ascii "a") [ascii "b"]) :=
    settled_send fun _ _ => rfl
  have arrives : Step twoRelays
      ((letters [ascii "a", ascii "b"]).sendLetter northRelay (ascii "a") [ascii "b"])
      firstArrived :=
    Step.deliver (by decide +kernel)
  have arrivesSettled : Settled
      ((letters [ascii "a", ascii "b"]).sendLetter northRelay (ascii "a") [ascii "b"])
      firstArrived :=
    settled_deliver (by decide +kernel)
  have emptied : ∀ url, firstArrived.transit url = [] := by
    intro url
    by_cases here : url = northRelay.url
    · rw [here]
      decide +kernel
    rw [firstArrived, transit_deliver, update_of_ne here,
      sendLetter, transit_send, update_of_ne here]
    rfl
  have sendsSecond : Step twoRelays firstArrived
      (firstArrived.sendLetter southRelay (ascii "b") []) :=
    step_sendLetter rfl (by decide) (by decide) (List.Perm.swap _ _ _) rfl rfl
  have secondSettled : Settled firstArrived (firstArrived.sendLetter southRelay (ascii "b") []) :=
    settled_send fun other _ => emptied other
  have ends : Step twoRelays (firstArrived.sendLetter southRelay (ascii "b") [])
      lettersArrived :=
    Step.deliver (by decide +kernel)
  have endsSettled : Settled (firstArrived.sendLetter southRelay (ascii "b") [])
      lettersArrived :=
    settled_deliver (by decide +kernel)
  exact ((ReflTransGen.single ⟨sendsFirst, firstSettled⟩).tail ⟨arrives, arrivesSettled⟩).tail
    ⟨sendsSecond, secondSettled⟩ |>.tail ⟨ends, endsSettled⟩

theorem read_order_of_settled_letters :
    ∃ stream, lettersArrived.pool.streams[0]? = some stream ∧
      lettersArrived.taken 0 ++ stream.state.rxBuf <+: lettersArrived.written ∧
      lettersArrived.taken 0 ++ stream.state.rxBuf = ascii "ab" := by
  have ordered := read_order_of_settled (accepted_letters _) run_lettersArrived
  have present : lettersArrived.pool.streams[0]? =
      some ⟨twoRelays.sid, alice, ⟨ascii "ab", false, false⟩⟩ := by
    decide +kernel
  rcases ordered with ⟨stream, found, ordered⟩
  obtain rfl := Option.some.inj (found.symm.trans present)
  exact ⟨_, present, ordered, rfl⟩

def bothSent : Network :=
  ((letters [ascii "a", ascii "b"]).sendLetter northRelay (ascii "a") [ascii "b"]).sendLetter
    southRelay (ascii "b") []

def secondArrived : Network :=
  bothSent.deliver southRelay.url (dataMessage twoRelays (ascii "b")) []

def secondRead : Network :=
  secondArrived.read 0 (ascii "b") (secondArrived.pool.modify 0 fun state => (state.read 1).2)

theorem run_secondRead :
    ReflTransGen (Step twoRelays) (letters [ascii "a", ascii "b"]) secondRead := by
  have sendsFirst : Step twoRelays (letters [ascii "a", ascii "b"])
      ((letters [ascii "a", ascii "b"]).sendLetter northRelay (ascii "a") [ascii "b"]) :=
    step_sendLetter rfl (by decide) (by decide) (List.Perm.refl _) rfl rfl
  have sendsSecond : Step twoRelays
      ((letters [ascii "a", ascii "b"]).sendLetter northRelay (ascii "a") [ascii "b"])
      bothSent :=
    step_sendLetter rfl (by decide) (by decide) (List.Perm.swap _ _ _) rfl rfl
  have arrives : Step twoRelays bothSent secondArrived := Step.deliver (by decide +kernel)
  have has : secondArrived.pool.streams[0]? =
      some ⟨twoRelays.sid, alice, ⟨ascii "b", false, false⟩⟩ := by
    decide +kernel
  have reads : Step twoRelays secondArrived secondRead :=
    Step.read (List.mem_singleton_self 0) (secondArrived.pool.read_of_present has 1)
  exact ((ReflTransGen.single sendsFirst).tail sendsSecond).tail arrives |>.tail reads

theorem letters_overtake :
    Accepted twoRelays 0 (letters [ascii "a", ascii "b"]) ∧
      ReflTransGen (Step twoRelays) (letters [ascii "a", ascii "b"]) secondRead ∧
      secondRead.taken 0 = ascii "b" ∧ secondRead.written = ascii "ab" ∧
      ¬secondRead.taken 0 <+: secondRead.written := by
  have taken : secondRead.taken 0 = ascii "b" ∧ secondRead.written = ascii "ab" := by decide +kernel
  refine ⟨accepted_letters _, run_secondRead, taken.1, taken.2, ?_⟩
  rw [taken.1, taken.2]
  decide

end Peerscale.IrohRelay
