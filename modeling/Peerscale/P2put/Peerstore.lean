import Peerscale.Foundation.Machine
import Peerscale.Foundation.NetText
import Peerscale.P2put.PeerDB

/-! # Saving the peerstore

`savePeerstore` does not write what it has written before. It remembers the sum of the content
before it writes it, so that content whose write fails counts as written.
-/

namespace Peerscale.P2put

def minPeerCount : Nat := 16

/-- An address of the peerstore, and whether its IP is a loopback or a private one. -/
structure StoreAddr where
  text : GoString
  isLocal : Bool

def StoreAddr.isSaved (addr : StoreAddr) : Bool :=
  !addr.isLocal && [ascii "/ip6/", ascii "/udp/", ascii "/quic", ascii "webrtc", ascii "/dns/"].all
    fun part => (Strings.index addr.text part).isNone

/-- `json.Marshal` of the address map, and the MD5 sum in hexadecimal digits. -/
structure PeerstoreCodec where
  marshal : List (PeerID × List GoString) → Bytes
  sum : Bytes → GoString
  digits : ∀ raw, (sum raw).length = 32

structure SaveCall where
  peers : List (PeerID × List StoreAddr)
  failure : Option (Option Bytes)

def SaveCall.addrMap (call : SaveCall) : List (PeerID × List GoString) :=
  (call.peers.filter fun peer => peer.2 ≠ []).map fun peer =>
    (peer.1, (peer.2.filter StoreAddr.isSaved).map StoreAddr.text)

structure PeerstoreFile where
  savedPeerstoreSum : GoString
  file : Option Bytes
  deriving DecidableEq

namespace PeerstoreFile

variable (codec : PeerstoreCodec)

def raw (call : SaveCall) : Bytes := codec.marshal call.addrMap

def savePeerstore (state : PeerstoreFile) (call : SaveCall) : PeerstoreFile × Bool :=
  if call.addrMap.length < minPeerCount then (state, true)
  else
    let cs := codec.sum (raw codec call)
    if cs = state.savedPeerstoreSum then (state, true)
    else
      match call.failure with
      | none => (⟨cs, some (raw codec call)⟩, true)
      | some left => (⟨cs, left⟩, false)

def machine : Machine PeerstoreFile SaveCall where
  act state call := (state.savePeerstore codec call).1

/-- If the call returns nil and there are enough peers, then the file holds them. -/
def Saves (state : PeerstoreFile) (call : SaveCall) : Prop :=
  (state.savePeerstore codec call).2 → minPeerCount ≤ call.addrMap.length →
    (state.savePeerstore codec call).1.file = some (raw codec call)
  deriving Decidable

/-- The write of the call fails and leaves something else in the file. -/
def Loses (state : PeerstoreFile) (call : SaveCall) : Prop :=
  (state.savePeerstore codec call).2 = false ∧
    (state.savePeerstore codec call).1.file ≠ some (raw codec call)
  deriving Decidable

/-- What a write has lost is not to be saved again before another write: no such call is followed
by one with the same content, with only calls between them that have too few peers. -/
def Renews (file : Option Bytes) (calls : List SaveCall) : Prop :=
  ∀ earlier lost few again later, calls = earlier ++ lost :: few ++ again :: later →
    Loses codec ((machine codec).run ⟨[], file⟩ earlier) lost →
      (∀ call ∈ few, call.addrMap.length < minPeerCount) →
        minPeerCount ≤ again.addrMap.length → raw codec again ≠ raw codec lost

/-- The sum is that of a call, and the file holds its content unless the call has lost it and no
write has followed. -/
def Remembers (file : Option Bytes) (calls : List SaveCall) (state : PeerstoreFile) : Prop :=
  state.savedPeerstoreSum = [] ∨
    ∃ call ∈ calls, state.savedPeerstoreSum = codec.sum (raw codec call) ∧
    (state.file = some (raw codec call) ∨ ∃ earlier few, calls = earlier ++ call :: few ∧
      Loses codec ((machine codec).run ⟨[], file⟩ earlier) call ∧
        ∀ other ∈ few, other.addrMap.length < minPeerCount)

variable {codec} {file : Option Bytes} {calls : List SaveCall} {call : SaveCall}
  {state : PeerstoreFile}

theorem run_few (few : ∀ call ∈ calls, call.addrMap.length < minPeerCount) :
    (machine codec).run state calls = state := by
  induction calls with
  | nil => rfl
  | cons call calls ih =>
    have same : (machine codec).act state call = state :=
      congrArg Prod.fst (if_pos (few call List.mem_cons_self))
    rw [Machine.run_cons, same]
    exact ih fun other member => few other (List.mem_cons_of_mem call member)

theorem sum_ne_nil (content : Bytes) : codec.sum content ≠ [] := by
  intro empty
  have digits := codec.digits content
  rw [empty] at digits
  cases digits

theorem Remembers.few (remembers : Remembers codec file calls state)
    (few : call.addrMap.length < minPeerCount) : Remembers codec file (calls ++ [call]) state := by
  refine remembers.imp_right ?_
  rintro ⟨last, member, sum, held | ⟨earlier, others, rfl, loses, small⟩⟩
  · exact ⟨last, List.mem_append_left _ member, sum, .inl held⟩
  refine ⟨last, List.mem_append_left _ member, sum, .inr ⟨earlier, others ++ [call], ?_, loses, ?_⟩⟩
  · rw [List.append_assoc, List.cons_append]
  · simpa [or_imp, forall_and] using ⟨small, few⟩

theorem Remembers.step (remembers : Remembers codec file calls state)
    (reached : (machine codec).run ⟨[], file⟩ calls = state)
    (distinct : ∀ other ∈ calls, codec.sum (raw codec call) = codec.sum (raw codec other) →
      raw codec call = raw codec other)
    (renews : Renews codec file (calls ++ [call])) :
    Saves codec state call ∧
      Remembers codec file (calls ++ [call]) (state.savePeerstore codec call).1 := by
  rw [Saves, savePeerstore]
  split
  case isTrue few => exact ⟨fun _ enough => absurd few (Nat.not_lt.mpr enough), remembers.few few⟩
  case isFalse enough =>
    dsimp only
    split
    case isTrue same =>
      rcases remembers with empty | ⟨last, member, sum, held | ⟨earlier, few, split, loses, small⟩⟩
      · exact absurd (same.trans empty) (sum_ne_nil _)
      · have content := distinct last member (same.trans sum)
        exact ⟨fun _ _ => content ▸ held,
          .inr ⟨last, List.mem_append_left _ member, sum, .inl held⟩⟩
      · have content := distinct last member (same.trans sum)
        rw [split] at renews
        exact absurd content
          (renews earlier last few call [] rfl loses small (Nat.not_lt.mp enough))
    case isFalse other =>
      have member : call ∈ calls ++ [call] := List.mem_concat_self
      cases failure : call.failure with
      | none => exact ⟨fun _ _ => rfl, .inr ⟨call, member, rfl, .inl rfl⟩⟩
      | some left =>
        refine ⟨nofun, .inr ⟨call, member, rfl, ?_⟩⟩
        by_cases held : left = some (raw codec call)
        · exact .inl held
        refine .inr ⟨calls, [], rfl, ?_, nofun⟩
        rw [reached, Loses, savePeerstore, if_neg enough]
        rw [if_neg other, failure]
        exact ⟨rfl, held⟩

theorem savePeerstore_of_same (same : codec.sum (raw codec call) = state.savedPeerstoreSum) :
    state.savePeerstore codec call = (state, true) := by
  simp only [savePeerstore, same, if_true, ite_self]

theorem savedPeerstoreSum_of_fails (fails : (state.savePeerstore codec call).2 = false) :
    ((machine codec).act state call).savedPeerstoreSum = codec.sum (raw codec call) := by
  simp only [machine, savePeerstore] at fails ⊢
  split at fails <;> rename_i few
  · cases fails
  rw [if_neg few]
  split at fails <;> rename_i same
  · cases fails
  rw [if_neg same]
  cases call.failure <;> rfl

/-- If the sums are distinct, then success means that the file holds the addresses exactly if no
content that a write has lost is to be saved again before another write. -/
theorem saves_iff_renews (file : Option Bytes) (calls : List SaveCall)
    (distinct : ∀ first ∈ calls, ∀ second ∈ calls,
      codec.sum (raw codec first) = codec.sum (raw codec second) →
        raw codec first = raw codec second) :
    (machine codec).Obeys (Saves codec) ⟨[], file⟩ calls ↔ Renews codec file calls := by
  constructor
  · rintro obeys earlier lost few again later rfl ⟨failed, other⟩ small enough same
    have saves := obeys.append.2.1
    have remembered := (savedPeerstoreSum_of_fails failed).symm
    rw [← same] at remembered other
    rw [Machine.run_append, Machine.run_cons, run_few small, Saves,
      savePeerstore_of_same remembered] at saves
    exact other (saves rfl enough)
  intro renews
  suffices both : (machine codec).Obeys (Saves codec) ⟨[], file⟩ calls ∧
      Remembers codec file calls ((machine codec).run ⟨[], file⟩ calls) from both.1
  induction calls using List.reverseRecOn with
  | nil => exact ⟨trivial, .inl rfl⟩
  | append_singleton calls call ih =>
    have before : Renews codec file calls := by
      rintro earlier lost few again later rfl
      refine renews earlier lost few again (later ++ [call]) ?_
      simp only [List.append_assoc, List.cons_append]
    have member := fun other => @List.mem_append_left _ other calls [call]
    obtain ⟨obeys, remembers⟩ := ih (fun first isFirst second isSecond =>
      distinct first (member first isFirst) second (member second isSecond)) before
    obtain ⟨saves, next⟩ := remembers.step rfl (fun other isOther =>
      distinct call List.mem_concat_self other (member other isOther)) renews
    rw [Machine.obeys_concat, Machine.run_concat]
    exact ⟨⟨obeys, saves⟩, next⟩

/-- The codec of the examples: the bytes of the map, and a sum of one digit. -/
def plain : PeerstoreCodec where
  marshal peers := peers.flatMap fun peer => peer.1 ++ peer.2.flatten
  sum content := List.replicate 31 48 ++ [content.foldl (· + ·) 0]
  digits _ := rfl

def severalPeers (count : Nat) (failure : Option (Option Bytes)) : SaveCall :=
  ⟨(List.range count).map fun id =>
    ([UInt8.ofNat id], [⟨ascii "/ip4/1.2.3.4/tcp/1", false⟩]), failure⟩

/-- A write fails, and another content is written before that one is saved again. -/
theorem saves_sixteenPeers :
    let calls := [severalPeers 16 (some none), severalPeers 17 none, severalPeers 16 none]
    (machine plain).Obeys (Saves plain) ⟨[], none⟩ calls ∧ Renews plain none calls := by
  intro calls
  have saves : (machine plain).Obeys (Saves plain) ⟨[], none⟩ calls := by decide +kernel
  exact ⟨saves, (saves_iff_renews none calls (by decide +kernel)).mp saves⟩

theorem unsaved_sixteenPeers :
    let full := (machine plain).run ⟨[], none⟩ [severalPeers 16 (some none)]
    (full.savePeerstore plain (severalPeers 16 none)).2 = true ∧
      ¬Saves plain full (severalPeers 16 none) := by
  decide +kernel

end PeerstoreFile

end Peerscale.P2put
