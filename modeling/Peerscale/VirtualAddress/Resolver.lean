import Peerscale.Foundation.Crc64
import Peerscale.Foundation.NetText
import Peerscale.P2put.PeerDB
import Peerscale.Softun.Packets

/-! # Peers by virtual addresses

The host part of a virtual address is a hash of the ID of the peer. Three packages find the
peer for an address: each goes through the IDs of the cluster and writes them into a map, so
that the last one of several peers with the same host part is found. softun goes through
the IDs in the order in which they are listed, the others sort them first.
-/

namespace Peerscale.VirtualAddress

open List

open P2put (PeerID PeerDB PeerRecord)

/-- `StringToHostPart`, which the three packages have. -/
def stringToHostPart (id : PeerID) : Nat := (Crc64.checksum id).toNat % 253 + 2

def vlanpfx : GoString := ascii "10.0.0."

def ipv6pfx : GoString := ascii "fd00::"

abbrev Cache := AList fun _ : GoString => PeerID

def fill (keys : PeerID → List GoString) (cache : Cache) (ids : List PeerID) : Cache :=
  ids.foldl (fun cache id => (keys id).foldl (fun cache key => cache.insert key id) cache) cache

section Fill

variable {keys : PeerID → List GoString} {cache : Cache} {key : GoString}

theorem lookup_foldl_insert_of_mem {id : PeerID} {written : List GoString} (mem : key ∈ written) :
    (written.foldl (fun cache key => cache.insert key id) cache).lookup key = some id := by
  induction written using reverseRecOn with
  | nil => cases mem
  | append_singleton prev last ih =>
    rw [foldl_append, foldl_cons, foldl_nil]
    by_cases same : key = last
    · rw [same, AList.lookup_insert]
    · rw [AList.lookup_insert_ne same]
      exact ih ((mem_append.mp mem).resolve_right fun new => same (mem_singleton.mp new))

theorem lookup_foldl_insert_of_notMem {id : PeerID} {written : List GoString}
    (absent : key ∉ written) :
    (written.foldl (fun cache key => cache.insert key id) cache).lookup key =
      cache.lookup key := by
  induction written generalizing cache with
  | nil => rfl
  | cons x written ih =>
    rw [mem_cons, not_or] at absent
    rw [foldl_cons, ih absent.2, AList.lookup_insert_ne absent.1]

theorem fill_concat (ids : List PeerID) (last : PeerID) :
    fill keys cache (ids ++ [last]) =
      (keys last).foldl (fun cache key => cache.insert key last) (fill keys cache ids) := by
  rw [fill, fill, foldl_append]
  rfl

theorem lookup_fill_concat {ids : List PeerID} (mem : key ∈ keys last) :
    (fill keys cache (ids ++ [last])).lookup key = some last := by
  rw [fill_concat]
  exact lookup_foldl_insert_of_mem mem

theorem lookup_fill (cache : Cache) (key : GoString) (ids : List PeerID) :
    (fill keys cache ids).lookup key = cache.lookup key ∧ (∀ id ∈ ids, key ∉ keys id) ∨
      ∃ id ∈ ids, key ∈ keys id ∧ (fill keys cache ids).lookup key = some id := by
  induction ids using reverseRecOn with
  | nil => exact .inl ⟨rfl, nofun⟩
  | append_singleton ids last ih =>
    by_cases written : key ∈ keys last
    · right
      exact ⟨last, mem_append_right _ (mem_singleton_self _), written, lookup_fill_concat written⟩
    rw [fill_concat, lookup_foldl_insert_of_notMem written]
    rcases ih with ⟨unchanged, nobody⟩ | ⟨id, mem, has, found⟩
    · left
      refine ⟨unchanged, ?_⟩
      intro id mem
      rcases mem_append.mp mem with prev | new
      · exact nobody id prev
      · rw [mem_singleton.mp new]
        exact written
    · exact .inr ⟨id, mem_append_left _ mem, has, found⟩

end Fill

def resolve (keys : PeerID → List GoString) (cache : Cache) (ids : List PeerID)
    (address : GoString) : PeerID × Cache :=
  match cache.lookup address with
  | some id => (id, cache)
  | none =>
    let filled := fill keys cache ids
    ((filled.lookup address).getD [], filled)

def softunKeys (id : PeerID) : List GoString :=
  [vlanpfx ++ itoa (stringToHostPart id), ipv6pfx ++ formatInt 16 (stringToHostPart id)]

def connKeys (vlanPfx : GoString) (id : PeerID) : List GoString :=
  [vlanPfx ++ itoa (stringToHostPart id)]

def addrText (addr : Softun.Addr) : GoString :=
  if addr.is6 then ipv6Text addr.bytes else ipv4Text addr.bytes

/-- `softun.peerIDByVirtAddr`, with what `GetClusterPeers` returns. -/
def peerIDByVirtAddr (peerIPs : Cache) (ids : List PeerID) (addr : Softun.Addr) : PeerID × Cache :=
  resolve softunKeys peerIPs ids (addrText addr)

def sortStrings (ids : List PeerID) : List PeerID :=
  (Shuffle.asIs PeerID).sortSlice (fun first second => decide (first < second)) ids

/-- `peeridByConnIP`, of which two packages have a copy. -/
def peeridByConnIP (vlanPfx : GoString) (peerips : Cache) (ids : List PeerID)
    (ipport : GoString) : PeerID × Cache :=
  match splitHostPort ipport with
  | none => ([], peerips)
  | some (rawIP, _) =>
    if rawIP = ascii "127.0.0.1" then ([], peerips)
    else resolve (connKeys vlanPfx) peerips (sortStrings ids) rawIP

def pbtunnelPeeridByConnIP : Cache → List PeerID → GoString → PeerID × Cache :=
  peeridByConnIP vlanpfx

/-- `fbvirtun.peeridByConnIP`. `VlanPfx` is a variable that the program sets. -/
def fbvirtunPeeridByConnIP (vlanPfx : GoString) : Cache → List PeerID → GoString → PeerID × Cache :=
  peeridByConnIP vlanPfx

/-! ## Addresses of the virtual network -/

def virtAddr (host : UInt8) : Softun.Addr := ⟨false, [10, 0, 0, host]⟩

theorem addrText_virtAddr (host : UInt8) :
    addrText (virtAddr host) = vlanpfx ++ itoa host.toNat := by
  have start : itoa 10 ++ [dot] ++ itoa 0 ++ [dot] ++ itoa 0 ++ [dot] = vlanpfx := by decide +kernel
  calc
    addrText (virtAddr host) = itoa 10 ++ ([dot] ++ (itoa 0 ++ ([dot] ++ (itoa 0 ++ ([dot] ++
          (itoa host.toNat ++ [])))))) := rfl
    _ = (itoa 10 ++ [dot] ++ itoa 0 ++ [dot] ++ itoa 0 ++ [dot]) ++ itoa host.toNat := by
      simp only [append_assoc, append_nil]
    _ = vlanpfx ++ itoa host.toNat := by rw [start]

theorem vlan_inj {y : Nat} : vlanpfx ++ itoa x = vlanpfx ++ itoa y ↔ x = y := by
  rw [append_cancel_left_eq]
  exact (formatInt_injective (by decide) (by decide)).eq_iff

theorem vlan_ne_ipv6 (x y : GoString) : vlanpfx ++ x ≠ ipv6pfx ++ y := by
  intro same
  have heads : (49 : UInt8) = 102 := Option.some.inj (congrArg List.head? same)
  exact absurd heads (by decide)

theorem mem_softunKeys {id : PeerID} :
    addrText (virtAddr host) ∈ softunKeys id ↔ stringToHostPart id = host.toNat := by
  rw [addrText_virtAddr, softunKeys, mem_cons, mem_singleton, vlan_inj, eq_comm]
  exact or_iff_left (vlan_ne_ipv6 _ _)

theorem mem_connKeys {id : PeerID} :
    addrText (virtAddr host) ∈ connKeys vlanpfx id ↔ stringToHostPart id = host.toNat := by
  rw [addrText_virtAddr, connKeys, mem_singleton, vlan_inj, eq_comm]

def connIP (host : UInt8) (port : UInt16) : GoString :=
  addrText (virtAddr host) ++ colon :: itoa port.toNat

theorem splitHostPort_connIP (host : UInt8) (port : UInt16) :
    splitHostPort (connIP host port) = some (addrText (virtAddr host), itoa port.toNat) := by
  apply splitHostPort_append _ (itoa_plain _)
  intro byte mem
  rw [addrText_virtAddr, mem_append] at mem
  rcases mem with start | last
  · have all : ∀ byte ∈ vlanpfx, byte ≠ colon ∧ byte ≠ openBracket ∧ byte ≠ closeBracket := by
      decide +kernel
    exact all byte start
  · exact itoa_plain _ byte last

theorem peeridByConnIP_connIP (cache : Cache) (ids : List PeerID) (host : UInt8) (port : UInt16) :
    peeridByConnIP vlanpfx cache ids (connIP host port) =
      resolve (connKeys vlanpfx) cache (sortStrings ids) (addrText (virtAddr host)) := by
  have r : addrText (virtAddr host) ≠ ascii "127.0.0.1" := by
    rw [addrText_virtAddr]
    intro same
    have y : (48 : UInt8) = 50 := Option.some.inj (congrArg (fun text => text[1]?) same)
    exact absurd y (by decide)
  rw [peeridByConnIP, splitHostPort_connIP]
  dsimp only
  rw [if_neg r]

/-! ## One address, one peer -/

def AtMostOne (members : Finset PeerID) (host : UInt8) : Prop :=
  ∀ first ∈ members, ∀ second ∈ members, stringToHostPart first = host.toNat →
    stringToHostPart second = host.toNat → first = second
  deriving Decidable

structure FindAll (ids : List PeerID) (host : UInt8) (answer : PeerID) : Prop where
  softun : (peerIDByVirtAddr ∅ ids (virtAddr host)).1 = answer
  pbtunnel : ∀ port, (pbtunnelPeeridByConnIP ∅ ids (connIP host port)).1 = answer
  fbvirtun : ∀ port, (fbvirtunPeeridByConnIP vlanpfx ∅ ids (connIP host port)).1 = answer

theorem resolve_of_unique {keys : PeerID → List GoString} {members : Finset PeerID}
    {address : GoString} (only : ∀ id ∈ members, address ∈ keys id → id = answer)
    (present : (∃ id ∈ members, address ∈ keys id) ∨ answer = []) {ids : List PeerID}
    (listed : ∀ id, id ∈ ids ↔ id ∈ members) : (resolve keys ∅ ids address).1 = answer := by
  rw [resolve, AList.lookup_empty]
  dsimp only
  rcases lookup_fill ∅ address ids with ⟨unchanged, nobody⟩ | ⟨id, mem, has, found⟩
  · rw [unchanged, AList.lookup_empty]
    rcases present with ⟨id, mem, has⟩ | empty
    · exact absurd has (nobody id ((listed id).mpr mem))
    · exact empty.symm
  · rw [found]
    exact only id ((listed id).mp mem) has

theorem AtMostOne.exists_answer (unique : AtMostOne members host) :
    ∃ answer, (∀ id ∈ members, stringToHostPart id = host.toNat → id = answer) ∧
      ((∃ id ∈ members, stringToHostPart id = host.toNat) ∨ answer = []) := by
  by_cases some : ∃ id ∈ members, stringToHostPart id = host.toNat
  · rcases some with ⟨answer, mem, has⟩
    exact ⟨answer, fun id idMember idHas => unique id idMember answer mem idHas has,
      .inl ⟨answer, mem, has⟩⟩
  · exact ⟨[], fun id mem has => absurd ⟨id, mem, has⟩ some, .inr rfl⟩

theorem AtMostOne.findAll {members : Finset PeerID} (unique : AtMostOne members host) :
    ∃ answer, ∀ ids : List PeerID, (∀ id, id ∈ ids ↔ id ∈ members) → FindAll ids host answer := by
  rcases unique.exists_answer with ⟨answer, only, present⟩
  refine ⟨answer, ?_⟩
  intro ids listed
  have sorted : ∀ id, id ∈ sortStrings ids ↔ id ∈ members := by
    intro id
    rw [sortStrings, Shuffle.mem_sortSlice]
    exact listed id
  have conn : ∀ port, (peeridByConnIP vlanpfx ∅ ids (connIP host port)).1 = answer := by
    intro port
    rw [peeridByConnIP_connIP]
    apply resolve_of_unique _ _ sorted
    · simpa only [mem_connKeys] using only
    · simpa only [mem_connKeys] using present
  refine ⟨?_, conn, conn⟩
  rw [peerIDByVirtAddr]
  apply resolve_of_unique _ _ listed
  · simpa only [mem_softunKeys] using only
  · simpa only [mem_softunKeys] using present

def lastOf {α : Type} [DecidableEq α] (last : α) : Shuffle α where
  order elements := if last ∈ elements then elements.erase last ++ [last] else elements
  perm elements := by
    split
    · rename_i member
      exact List.perm_append_comm.trans (List.perm_cons_erase member).symm
    · exact List.Perm.refl _

theorem exists_shuffle_softun {db : PeerDB} {id : PeerID} {host : UInt8}
    (mem : id ∈ db.members now) (has : stringToHostPart id = host.toNat) :
    ∃ sh, (peerIDByVirtAddr ∅ (db.listIDs sh now) (virtAddr host)).1 = id := by
  rw [PeerDB.members, mem_toFinset, mem_map] at mem
  rcases mem with ⟨rec, present, rfl⟩
  refine ⟨lastOf rec, ?_⟩
  rw [PeerDB.listIDs, lastOf]
  dsimp only
  rw [if_pos present, map_append, map_singleton, peerIDByVirtAddr, resolve, AList.lookup_empty]
  dsimp only
  rw [lookup_fill_concat (mem_softunKeys.mpr has)]
  rfl

/-- On all nodes whose databases have the same fresh peers, and in whatever order these are
listed, the three resolvers find one peer for an address exactly if at most one of the
peers has its host part. -/
theorem one_address_one_peer_iff (db : PeerDB) (now : Time) (host : UInt8) :
    (∃ answer, ∀ (other : PeerDB) (later : Time) (shuffle : Shuffle PeerRecord),
        other.members later = db.members now → FindAll (other.listIDs shuffle later) host answer) ↔
      AtMostOne (db.members now) host := by
  constructor
  · rintro ⟨answer, all⟩ first firstMember second secondMember firstHas secondHas
    rcases exists_shuffle_softun firstMember firstHas with ⟨firstLast, foundFirst⟩
    rcases exists_shuffle_softun secondMember secondHas with ⟨secondLast, foundSecond⟩
    rw [← foundFirst, ← foundSecond, (all db now firstLast rfl).softun,
      (all db now secondLast rfl).softun]
  intro unique
  rcases unique.findAll with ⟨answer, all⟩
  refine ⟨answer, ?_⟩
  intro other later shuffle same
  apply all
  intro id
  rw [PeerDB.mem_listIDs, same]

def firstPeer : PeerID := ascii "12D3KooWL57xtsgYzoJzABbFYjgcTeYtQ292a8S2ejiFbQqJKSCm"

def secondPeer : PeerID := ascii "12D3KooWQDRtpVPzRo5W2taQf8rqd8HZRfMj3hTFcqi6sS4sJBPH"

example : stringToHostPart firstPeer = 160 ∧ stringToHostPart secondPeer = 160 := by
  decide +kernel

def cluster : PeerDB where
  peers := (AList.singleton firstPeer ⟨firstPeer, [], 0⟩).insert secondPeer ⟨secondPeer, [], 0⟩
  ttl := minute
  keyed := by decide +kernel

/-- The resolvers find different peers for 10.0.0.160, and softun finds different ones on
two nodes. -/
theorem cluster_disagrees :
    (peerIDByVirtAddr ∅ (cluster.listIDs (lastOf ⟨firstPeer, [], 0⟩) 0) (virtAddr 160)).1 =
        firstPeer ∧
      (peerIDByVirtAddr ∅ (cluster.listIDs (lastOf ⟨secondPeer, [], 0⟩) 0) (virtAddr 160)).1 =
        secondPeer ∧
      (pbtunnelPeeridByConnIP ∅ (cluster.listIDs (lastOf ⟨firstPeer, [], 0⟩) 0)
        (connIP 160 80)).1 = secondPeer ∧
      (fbvirtunPeeridByConnIP vlanpfx ∅ (cluster.listIDs (lastOf ⟨firstPeer, [], 0⟩) 0)
        (connIP 160 80)).1 = secondPeer ∧
      firstPeer ≠ secondPeer := by
  decide +kernel

end Peerscale.VirtualAddress
