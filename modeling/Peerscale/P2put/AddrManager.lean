import Peerscale.Foundation.Machine
import Peerscale.P2put.PeerDB

/-! # The addresses that a node advertises

`GetAll` reads the clock for each circuit address and again for each vouch. A vouch that expires
in between is deleted, while the circuit addresses of its relay stay, and count as valid from
then on.
-/

namespace Peerscale.P2put

structure RelayVouch where
  addrs : List GoString
  expiration : Time

abbrev RelayVouches := AList fun _ : PeerID => RelayVouch

abbrev VouchEntry := Sigma fun _ : PeerID => RelayVouch

/-- `readings` counts how often the clock has been read. -/
structure AddrManager where
  localAddrs : List GoString
  relayCircuitAddrs : List GoString
  relayVouches : RelayVouches
  readings : Nat

def mergeAddrs (existing incoming : List GoString) : List GoString :=
  (existing ++ incoming).foldl (fun out addr => if out.contains addr then out else out ++ [addr]) []

/-- The clock, by the number of the reading, and the relay of a circuit address. -/
structure AddrWorld where
  clock : Nat → Time
  extractRelayPeerID : GoString → Option PeerID
  monotone : ∀ x y, x ≤ y → clock x ≤ clock y

namespace AddrManager

variable (world : AddrWorld)

def validCircuits (vouches : RelayVouches) : Nat → List GoString → List GoString × Nat
  | n, [] => ([], n)
  | n, addr :: rest =>
    match (world.extractRelayPeerID addr).bind vouches.lookup with
    | none =>
      let (valid, last) := validCircuits vouches n rest
      (addr :: valid, last)
    | some vouch =>
      let (valid, last) := validCircuits vouches (n + 1) rest
      (if world.clock n < vouch.expiration then addr :: valid else valid, last)

/-- The second loop: the addresses, the relays whose vouch is deleted, and the next reading. -/
def visitVouches :
    Nat → List VouchEntry → List GoString → List GoString × List PeerID × Nat
  | n, [], out => (out, [], n)
  | n, ⟨id, vouch⟩ :: rest, out =>
    if world.clock n < vouch.expiration then
      visitVouches (n + 1) rest (mergeAddrs out vouch.addrs)
    else
      let (out, deleted, last) := visitVouches (n + 1) rest out
      (out, id :: deleted, last)

def getAll (sh : Shuffle VouchEntry) (m : AddrManager) :
    AddrManager × List GoString × List PeerID :=
  let (circuits, n) := validCircuits world m.relayVouches m.readings m.relayCircuitAddrs
  let (out, deleted, last) :=
    visitVouches world n (sh.order m.relayVouches.entries) (mergeAddrs m.localAddrs circuits)
  (⟨m.localAddrs, circuits, ⟨m.relayVouches.entries.filter fun entry => !deleted.contains entry.1,
    m.relayVouches.nodupKeys.sublist List.filter_sublist⟩, last⟩, out, deleted)

inductive Action
  | setLocal (addrs : List GoString)
  | setRelayCircuit (addrs : List GoString)
  | setRelayVouch (id : PeerID) (addrs : List GoString) (expiry : Time)
  | getAll (sh : Shuffle VouchEntry)

/-- The manager, and the relays whose vouch was deleted after the last supply of an address or
a vouch of theirs. -/
structure Watch where
  m : AddrManager
  lapsed : PeerID → Prop

def Watch.act (w : Watch) : Action → Watch
  | .setLocal addrs => { w with m.localAddrs := addrs }
  | .setRelayCircuit addrs =>
    if addrs = [] then w
    else { w with
      m.relayCircuitAddrs := addrs
      lapsed := fun id => w.lapsed id ∧ ∀ addr ∈ addrs, world.extractRelayPeerID addr ≠ some id }
  | .setRelayVouch id addrs expiry => { w with
      m.relayVouches := w.m.relayVouches.insert id ⟨addrs, expiry⟩
      lapsed := fun other => w.lapsed other ∧ other ≠ id }
  | .getAll sh =>
    let (m, _, deleted) := w.m.getAll world sh
    ⟨m, fun id => w.lapsed id ∨ id ∈ deleted⟩

def machine : Machine Watch Action := ⟨Watch.act world⟩

def start : Watch := ⟨⟨[], [], ∅, 0⟩, fun _ => False⟩

def Live (m : AddrManager) (vouch : RelayVouch) : Prop :=
  world.clock m.readings < vouch.expiration
  deriving Decidable

def Supplied (m : AddrManager) (addr : GoString) : Prop :=
  addr ∈ m.localAddrs ∨
    ∃ entry ∈ m.relayVouches.entries, Live world m entry.2 ∧ addr ∈ entry.2.addrs
  deriving Decidable

def ValidCircuit (m : AddrManager) (addr : GoString) : Prop :=
  addr ∈ m.relayCircuitAddrs ∧ ∀ id vouch, world.extractRelayPeerID addr = some id →
    m.relayVouches.lookup id = some vouch → Live world m vouch

def Sound (w : Watch) : Prop :=
  ∀ addr ∈ w.m.relayCircuitAddrs, ∀ id, world.extractRelayPeerID addr = some id → ¬w.lapsed id

/-- `GetAll` returns nothing twice, and only what is local, or of a vouch that is live when it
begins, or a circuit address whose relay has no vouch that has expired by then. -/
def Current (w : Watch) : Action → Prop
  | .getAll sh =>
    (w.m.getAll world sh).2.1.Nodup ∧ ∀ addr ∈ (w.m.getAll world sh).2.1, Supplied world w.m addr ∨
      ValidCircuit world w.m addr ∧ ∀ id, world.extractRelayPeerID addr = some id → ¬w.lapsed id
  | _ => True

/-- No vouch expires between the first and the last reading of a `GetAll`. -/
def Steady (w : Watch) : Action → Prop
  | .getAll sh => ∀ entry ∈ w.m.relayVouches.entries,
      entry.2.expiration ≤ world.clock ((w.m.getAll world sh).1.readings - 1) →
        ¬Live world w.m entry.2
  | _ => True

theorem mergeAddrs_spec (x y : List GoString) :
    (mergeAddrs x y).Nodup ∧ ∀ addr, addr ∈ mergeAddrs x y ↔ addr ∈ x ++ y := by
  rw [mergeAddrs]
  induction x ++ y using List.reverseRecOn with
  | nil => exact ⟨.nil, fun _ => .rfl⟩
  | append_singleton addrs addr ih =>
    rw [List.foldl_append, List.foldl_cons, List.foldl_nil]
    grind

variable {world}

theorem validCircuits_spec (m : AddrManager) (n : Nat) (addrs : List GoString) :
    n ≤ (validCircuits world m.relayVouches n addrs).2 ∧
      ∀ addr ∈ (validCircuits world m.relayVouches n addrs).1, addr ∈ addrs ∧
        ∀ id vouch, world.extractRelayPeerID addr = some id →
          m.relayVouches.lookup id = some vouch → world.clock n < vouch.expiration := by
  have later (n : Nat) : world.clock n ≤ world.clock (n + 1) := world.monotone _ _ n.le_succ
  fun_induction validCircuits <;> grind

theorem visitVouches_spec (n : Nat) (entries : List VouchEntry) (out : List GoString) :
    let (all, deleted, last) := visitVouches world n entries out
    n ≤ last ∧ (out.Nodup → all.Nodup) ∧ (∀ addr ∈ all, addr ∈ out ∨
        ∃ entry ∈ entries, world.clock n < entry.2.expiration ∧ addr ∈ entry.2.addrs) ∧
      ∀ id ∈ deleted, ∃ entry ∈ entries, entry.1 = id ∧
        entry.2.expiration ≤ world.clock (last - 1) := by
  induction entries generalizing n out with
  | nil => exact ⟨le_rfl, id, fun _ => .inl, nofun⟩
  | cons entry rest ih =>
    have later : world.clock n ≤ world.clock (n + 1) := world.monotone _ _ n.le_succ
    simp only [List.exists_mem_cons_iff]
    rw [visitVouches]
    split
    · rcases mergeAddrs_spec out entry.2.addrs with ⟨distinct, members⟩
      rcases ih (n + 1) (mergeAddrs out entry.2.addrs) with ⟨le, nodup, source, old⟩
      refine ⟨by omega, fun _ => nodup distinct, fun addr mem => ?_, fun id mem =>
        .inr (old id mem)⟩
      have members := members addr
      grind
    rcases ih (n + 1) out with ⟨le, nodup, source, old⟩
    have last := world.monotone _ _ (Nat.le_sub_one_of_lt le)
    grind

theorem getAll_spec (m : AddrManager) (sh : Shuffle VouchEntry) :
    let (next, out, deleted) := m.getAll world sh
    out.Nodup ∧ (∀ addr ∈ out, Supplied world m addr ∨ addr ∈ next.relayCircuitAddrs) ∧
      (∀ addr ∈ next.relayCircuitAddrs, ValidCircuit world m addr) ∧
      ∀ id ∈ deleted, ∃ entry ∈ m.relayVouches.entries, entry.1 = id ∧
        entry.2.expiration ≤ world.clock (next.readings - 1) := by
  rcases validCircuits_spec m m.readings m.relayCircuitAddrs with ⟨le, valid⟩
  rcases visitVouches_spec _ (sh.order m.relayVouches.entries) (mergeAddrs m.localAddrs
    (validCircuits world m.relayVouches m.readings m.relayCircuitAddrs).1) with
    ⟨-, nodup, source, old⟩
  have same (entry) := (sh.perm m.relayVouches.entries).mem_iff (a := entry)
  simp only [same] at source old
  refine ⟨nodup (mergeAddrs_spec ..).1, fun addr mem => ?_, valid, old⟩
  rcases source addr mem with merged | ⟨entry, mem, live, within⟩
  · rcases List.mem_append.mp (((mergeAddrs_spec ..).2 addr).mp merged) with here | circuit
    · exact .inl (.inl here)
    · exact .inr circuit
  · exact .inl (.inr ⟨entry, mem, (world.monotone _ _ le).trans_lt live, within⟩)

theorem sound_act (sound : Sound world w) (steady : Steady world w action) :
    Sound world (w.act world action) := by
  cases action with
  | setLocal addrs => exact sound
  | setRelayCircuit addrs =>
    rw [Watch.act]
    split
    · exact sound
    · exact fun addr mem id via lapsed => lapsed.2 addr mem via
  | setRelayVouch id addrs expiry =>
    exact fun addr mem other via lapsed => sound addr mem other via lapsed.1
  | getAll sh =>
    rcases getAll_spec w.m sh with ⟨-, -, valid, old⟩
    rintro addr mem id via (lapsed | deleted)
    · exact sound addr (valid addr mem).1 id via lapsed
    rcases old id deleted with ⟨entry, stored, rfl, expired⟩
    have live := (valid addr mem).2 _ _ via (AList.mem_lookup_iff.mpr stored)
    exact steady entry stored expired live

theorem current_of_sound (sound : Sound world w) : Current world w action := by
  cases action with
  | getAll sh =>
    rcases getAll_spec w.m sh with ⟨nodup, source, valid, -⟩
    refine ⟨nodup, fun addr mem => (source addr mem).imp_right fun circuit => ?_⟩
    exact ⟨valid addr circuit, sound addr (valid addr circuit).1⟩
  | _ => trivial

theorem current_of_steady (steady : (machine world).Obeys (Steady world) start acts) :
    (machine world).Obeys (Current world) start acts :=
  steady.consequence (show Sound world start from nofun) (fun _ _ => sound_act)
    fun _ _ sound _ => current_of_sound sound

/-- A relay with one circuit address, and a clock that shows the number of the reading. -/
def ticking : AddrWorld where
  clock n := n
  extractRelayPeerID addr := some addr
  monotone _ _ le := Int.ofNat_le.mpr le

def expiring (expiry : Time) : List Action :=
  [.setRelayCircuit [[0]], .setRelayVouch [0] [] expiry, .getAll (.asIs _), .getAll (.asIs _),
    .getAll (.asIs _)]

/-- The vouch is live in the first `GetAll` and has expired when the second one begins. -/
theorem current_expired : (machine ticking).Obeys (Current ticking) start (expiring 2) :=
  current_of_steady ⟨trivial, trivial, by simp only [Steady]; decide, by simp only [Steady]; decide,
    nofun, trivial⟩

theorem advertised_forever : ¬(machine ticking).Obeys (Current ticking) start (expiring 1) := by
  rintro ⟨-, -, -, ⟨-, current⟩, -⟩
  rcases current [0] (by decide) with supplied | ⟨-, valid⟩
  · exact absurd supplied (by decide)
  · exact valid [0] rfl (.inr (by decide))

end AddrManager

end Peerscale.P2put
