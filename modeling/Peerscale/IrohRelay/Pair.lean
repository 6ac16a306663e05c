import Peerscale.Foundation.Machine
import Peerscale.IrohRelay.Pool

/-! # Two endpoints

Two endpoints open streams to each other, write to, close and reset those they have, and
accept those the other one has opened. Between them frames may be delayed, overtake each
other and get lost, and an endpoint may be told at any time that the other one is gone.
-/

namespace Peerscale.IrohRelay

inductive Side
  | left
  | right
  deriving DecidableEq

def Side.other : Side → Side
  | .left => .right
  | .right => .left

@[simp] theorem Side.other_other (side : Side) : side.other.other = side := by
  cases side with
  | left | right => rfl

theorem Side.other_ne (side : Side) : side.other ≠ side := by
  cases side with
  | left | right => decide

theorem Side.eq_or_eq_other (side one : Side) : one = side ∨ one = side.other := by
  cases side with
  | left => cases one with
    | left => exact .inl rfl
    | right => exact .inr rfl
  | right => cases one with
    | left => exact .inr rfl
    | right => exact .inl rfl

structure Frame where
  sid : UInt64
  flags : UInt8
  data : Bytes
  deriving DecidableEq

/-- An endpoint with its application. `opened` are the identifiers that `OpenStream` has
handed out, `held` the streams that the application has, and `accepted` those among them
that come from `AcceptStream`. -/
structure Peer where
  pool : Pool
  opened : List UInt64
  held : List Nat
  accepted : List Nat

structure Pair where
  peers : Side → Peer
  transit : Side → List Frame

namespace Pair

def pool (pair : Pair) (side : Side) : Pool := (pair.peers side).pool

def key (pair : Pair) (side : Side) : PublicKey := (pair.pool side).localPub

def withPeer (pair : Pair) (side : Side) (peer : Peer) : Pair :=
  { pair with peers := Function.update pair.peers side peer }

def withTransit (pair : Pair) (side : Side) (frames : List Frame) : Pair :=
  { pair with transit := Function.update pair.transit side frames }

def send (pair : Pair) (side : Side) (frame : Frame) : Pair :=
  pair.withTransit side (pair.transit side ++ [frame])

def message (pair : Pair) (side : Side) (frame : Frame) : Bytes :=
  forward (pair.key side.other)
    (datagramMessage (pair.key side) (streamFrame frame.sid frame.flags frame.data))

def goneMessage (pair : Pair) (side : Side) : Bytes :=
  frameEndpointGone :: (pair.key side.other).bytes

def receive (pair : Pair) (side : Side) (message : Bytes) : Pair :=
  pair.withPeer side { pair.peers side with pool := (pair.pool side).receive message }

def endStream (pair : Pair) (side : Side) (flags : UInt8) :
    Option (Stream × Pool) → Pair
  | none => pair
  | some (stream, pool) =>
    (pair.withPeer side { pair.peers side with pool := pool }).send side.other
      ⟨stream.id, flags, []⟩

inductive Action
  | openStream (side : Side)
  | write (side : Side) (place : Nat) (data : Bytes)
  | close (side : Side) (place : Nat)
  | reset (side : Side) (place : Nat)
  | acceptStream (side : Side)
  | deliver (side : Side) (index : Nat)
  | lose (side : Side) (index : Nat)
  | sendRESET (side : Side) (index : Nat)
  | endpointGone (side : Side)
  deriving DecidableEq

/-- An application uses only streams that it has. A `Write` sends at least one and at most
`maxDatagramPayload` bytes at a time. -/
def act (pair : Pair) : Action → Pair
  | .openStream side =>
    let peer := pair.peers side
    let (stream, place, pool) := peer.pool.openStream (pair.key side.other)
    pair.withPeer side { peer with
      pool := pool, opened := peer.opened ++ [stream.id], held := peer.held ++ [place] }
  | .write side place data =>
    if place ∈ (pair.peers side).held ∧ data ≠ [] ∧ data.length ≤ maxDatagramPayload then
      match (pair.pool side).streams[place]? with
      | none => pair
      | some stream => pair.send side.other ⟨stream.id, flagDATA, data⟩
    else pair
  | .close side place =>
    if place ∈ (pair.peers side).held then
      pair.endStream side flagCLOSE ((pair.pool side).close place)
    else pair
  | .reset side place =>
    if place ∈ (pair.peers side).held then
      pair.endStream side flagRESET ((pair.pool side).reset place)
    else pair
  | .acceptStream side =>
    let peer := pair.peers side
    match peer.pool.acceptStream with
    | none => pair
    | some (place, pool) =>
      pair.withPeer side { peer with
        pool := pool, held := peer.held ++ [place], accepted := peer.accepted ++ [place] }
  | .deliver side index =>
    match (pair.transit side)[index]? with
    | none => pair
    | some frame =>
      (pair.receive side (pair.message side frame)).withTransit side
        ((pair.transit side).eraseIdx index)
  | .lose side index => pair.withTransit side ((pair.transit side).eraseIdx index)
  | .sendRESET side index =>
    let peer := pair.peers side
    match peer.pool.resets[index]? with
    | none => pair
    | some (_, sid) =>
      (pair.withPeer side { peer with
        pool := { peer.pool with resets := peer.pool.resets.eraseIdx index } }).send
        side.other ⟨sid, flagRESET, []⟩
  | .endpointGone side => pair.receive side (pair.goneMessage side)

def nextIdentifier (pair : Pair) (side : Side) : UInt64 :=
  ((pair.pool side).openStream (pair.key side.other)).1.id

def machine : Machine Pair Action := ⟨act⟩

@[simp] theorem machine_act (pair : Pair) (a : Action) : machine.act pair a = pair.act a := rfl

def start (keys : Side → PublicKey) : Pair where
  peers := fun side => { pool := newPool (keys side), opened := [], held := [], accepted := [] }
  transit := fun _ => []

def aliceAndBob : Side → PublicKey
  | .left => ⟨List.replicate 32 3, rfl⟩
  | .right => ⟨List.replicate 32 4, rfl⟩

def Action.side : Action → Side
  | .openStream side => side
  | .write side _ _ => side
  | .close side _ => side
  | .reset side _ => side
  | .acceptStream side => side
  | .deliver side _ => side
  | .lose side _ => side
  | .sendRESET side _ => side
  | .endpointGone side => side

variable {pair : Pair}

section

variable (pair : Pair)

@[simp] theorem peers_withPeer_self (side : Side) (peer : Peer) :
    (pair.withPeer side peer).peers side = peer :=
  Function.update_self _ _ _

@[simp] theorem pool_withPeer_self (side : Side) (peer : Peer) :
    (pair.withPeer side peer).pool side = peer.pool := by
  rw [pool, peers_withPeer_self]

theorem peers_withPeer_of_ne (peer : Peer) (apart : one ≠ side) :
    (pair.withPeer side peer).peers one = pair.peers one :=
  Function.update_of_ne apart _ _

@[simp] theorem peers_withTransit (side : Side) (frames : List Frame) :
    (pair.withTransit side frames).peers = pair.peers := rfl

@[simp] theorem pool_withTransit (side : Side) (frames : List Frame) :
    (pair.withTransit side frames).pool = pair.pool := rfl

@[simp] theorem pool_send (side : Side) (fr : Frame) : (pair.send side fr).pool = pair.pool := rfl

@[simp] theorem peers_send (side : Side) (fr : Frame) :
    (pair.send side fr).peers = pair.peers := rfl

@[simp] theorem transit_withTransit_self (side : Side) (frames : List Frame) :
    (pair.withTransit side frames).transit side = frames :=
  Function.update_self _ _ _

theorem transit_withTransit_of_ne (frames : List Frame) (apart : one ≠ side) :
    (pair.withTransit side frames).transit one = pair.transit one :=
  Function.update_of_ne apart _ _

end

theorem mem_transit_send (mem : fr ∈ (pair.send side other).transit one) :
    fr ∈ pair.transit one ∨ one = side ∧ fr = other := by
  by_cases here : one = side
  · rw [send, here, transit_withTransit_self, List.mem_append, List.mem_singleton] at mem
    rw [here]
    rcases mem with pre | added
    · exact .inl pre
    · exact .inr ⟨rfl, added⟩
  · rw [send, pair.transit_withTransit_of_ne _ here] at mem
    exact .inl mem

theorem mem_transit_erase
    (mem : fr ∈ (pair.withTransit side ((pair.transit side).eraseIdx index)).transit one) :
    fr ∈ pair.transit one := by
  by_cases here : one = side
  · rw [here, transit_withTransit_self] at mem
    rw [here]
    exact List.mem_of_mem_eraseIdx mem
  · rw [pair.transit_withTransit_of_ne _ here] at mem
    exact mem

theorem receive_message (pair : Pair) (side : Side) (fr : Frame) :
    (pair.pool side).receive (pair.message side fr) =
      (pair.pool side).dispatchStreamFrame (pair.key side.other) fr.sid fr.flags
        fr.data := by
  rw [Pool.receive, message, readMessage_forward]

theorem receive_goneMessage (pair : Pair) (side : Side) :
    (pair.pool side).receive (pair.goneMessage side) =
      (pair.pool side).peerGone (pair.key side.other) := by
  rw [Pool.receive, goneMessage, readMessage_gone]

inductive Effect (pair : Pair) : Action → Pair → Prop
  | openStream (side : Side) :
      Effect pair (.openStream side) (pair.withPeer side { pair.peers side with
        pool := ((pair.pool side).openStream (pair.key side.other)).2.2
        opened := (pair.peers side).opened ++ [pair.nextIdentifier side]
        held := (pair.peers side).held ++ [(pair.pool side).streams.length] })
  | write {side : Side} {place : Nat} {stream : Stream} (data : Bytes)
      (held : place ∈ (pair.peers side).held)
      (present : (pair.pool side).streams[place]? = some stream) :
      Effect pair (.write side place data) (pair.send side.other ⟨stream.id, flagDATA, data⟩)
  | endStream {action : Action} {side : Side} {place : Nat} {stream : Stream} {pool : Pool}
      {flags : UInt8} {change : StreamState → StreamState}
      (ends : action = .close side place ∨ action = .reset side place)
      (held : place ∈ (pair.peers side).held)
      (finished : (pair.pool side).finish place change = some (stream, pool))
      (noData : flags ≠ flagDATA) :
      Effect pair action ((pair.withPeer side { pair.peers side with pool := pool }).send
        side.other ⟨stream.id, flags, []⟩)
  | acceptStream {side : Side} {place : Nat} {rest : List Nat}
      (waiting : (pair.pool side).acceptCh = place :: rest) :
      Effect pair (.acceptStream side) (pair.withPeer side { pair.peers side with
        pool := { pair.pool side with acceptCh := rest }
        held := (pair.peers side).held ++ [place]
        accepted := (pair.peers side).accepted ++ [place] })
  | deliver {side : Side} {index : Nat} {frame : Frame}
      (found : (pair.transit side)[index]? = some frame) :
      Effect pair (.deliver side index) ((pair.withPeer side { pair.peers side with
        pool := (pair.pool side).dispatchStreamFrame (pair.key side.other) frame.sid
          frame.flags frame.data }).withTransit side ((pair.transit side).eraseIdx index))
  | lose (side : Side) (index : Nat) :
      Effect pair (.lose side index) (pair.withTransit side ((pair.transit side).eraseIdx index))
  | sendRESET {side : Side} {index : Nat} {entry : PublicKey × UInt64}
      (found : (pair.pool side).resets[index]? = some entry) :
      Effect pair (.sendRESET side index) ((pair.withPeer side { pair.peers side with
        pool := { pair.pool side with resets := (pair.pool side).resets.eraseIdx index } }).send
        side.other ⟨entry.2, flagRESET, []⟩)
  | endpointGone (side : Side) :
      Effect pair (.endpointGone side) (pair.withPeer side { pair.peers side with
        pool := (pair.pool side).peerGone (pair.key side.other) })
  | nothing {action : Action} (notOpen : ∀ side, action ≠ .openStream side)
      (notGone : ∀ side, action ≠ .endpointGone side)
      (noFrame : ∀ side index, action = .deliver side index → (pair.transit side)[index]? = none) :
      Effect pair action pair

theorem Effect.of_finish (ends : a = .close side p ∨ a = .reset side p)
    (held : p ∈ (pair.peers side).held) (finished : ∀ stream pool, ended = some (stream, pool) →
      ∃ change, (pair.pool side).finish p change = some (stream, pool))
    (noData : flags ≠ flagDATA) : Effect pair a (pair.endStream side flags ended) := by
  cases outcome : ended with
  | none =>
    apply Effect.nothing
    · intro one opens
      rcases ends with rfl | rfl <;> cases opens
    · intro one gone
      rcases ends with rfl | rfl <;> cases gone
    · intro one index delivers
      rcases ends with rfl | rfl <;> cases delivers
  | some res =>
    rcases finished res.1 res.2 outcome with ⟨change, done⟩
    exact Effect.endStream ends held done noData

def Action.Quiet : Action → Prop
  | .openStream _ => False
  | .endpointGone _ => False
  | .deliver _ _ => False
  | _ => True

theorem Effect.idle (pair : Pair) (quiet : Action.Quiet a) : Effect pair a pair := by
  refine Effect.nothing ?_ ?_ ?_
  · rintro side rfl
    exact quiet
  · rintro side rfl
    exact quiet
  · rintro side index rfl
    exact quiet.elim

theorem effect_act (pair : Pair) (a : Action) : Effect pair a (pair.act a) := by
  cases a with
  | openStream side => exact Effect.openStream side
  | write side p data =>
    simp only [act]
    split
    · rename_i allowed
      cases has : (pair.pool side).streams[p]? with
      | none => exact Effect.idle pair trivial
      | some => exact Effect.write data allowed.1 has
    · exact Effect.idle pair trivial
  | close side p =>
    simp only [act]
    split
    · rename_i held
      apply Effect.of_finish (.inl rfl) held _ (by decide)
      intro stream pool closed
      rw [Pool.close] at closed
      split at closed
      · cases closed
      · exact ⟨_, closed⟩
    · exact Effect.idle pair trivial
  | reset side p =>
    simp only [act]
    split
    · rename_i held
      exact Effect.of_finish (.inr rfl) held (fun _ _ done => ⟨_, done⟩) (by decide)
    · exact Effect.idle pair trivial
  | acceptStream side =>
    simp only [act]
    split
    · exact Effect.idle pair trivial
    rename_i p post accepted
    rcases Pool.acceptStream_eq_some accepted with ⟨rest, waiting, rfl⟩
    exact Effect.acceptStream waiting
  | deliver side index =>
    simp only [act]
    split
    · rename_i noFrame
      refine Effect.nothing ?_ ?_ ?_
      · intro one same
        cases same
      · intro one same
        cases same
      intro one p same
      cases same
      exact noFrame
    rename_i fr found
    rw [receive, receive_message]
    exact Effect.deliver found
  | lose side index => exact Effect.lose side index
  | sendRESET side index =>
    simp only [act]
    split
    · exact Effect.idle pair trivial
    · rename_i found
      exact Effect.sendRESET found
  | endpointGone side =>
    simp only [act]
    rw [receive, receive_goneMessage]
    exact Effect.endpointGone side

theorem Effect.peers_of_ne (eff : Effect pair a post) (apart : one ≠ a.side) :
    post.peers one = pair.peers one := by
  cases eff with
  | openStream | acceptStream | deliver | sendRESET
  | endpointGone => exact pair.peers_withPeer_of_ne _ apart
  | write | lose | nothing => rfl
  | endStream ends => rcases ends with rfl | rfl <;> exact pair.peers_withPeer_of_ne _ apart

end Pair

end Peerscale.IrohRelay
