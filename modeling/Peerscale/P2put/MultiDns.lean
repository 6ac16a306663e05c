import Mathlib.Logic.Relation
import Peerscale.Foundation.GoValue

/-! # Resolving DNS addresses

`resolveDNSAddrFully` follows the names in the answers that it gets, as deep as they go. It
comes to an end exactly if they do.
-/

namespace Peerscale.P2put

/-- The packages `multiaddr` and `madns`, and the answers of the servers. -/
structure DnsZone (Addr : Type) where
  newMultiaddr : GoString → Except GoString Addr
  string : Addr → GoString
  protocols : Addr → List GoString
  isMatch : Addr → Bool
  resolve : Addr → List Addr × Option GoString
  parses : ∀ addr, newMultiaddr (string addr) = .ok addr

namespace DnsZone

variable {Addr : Type} (zone : DnsZone Addr)

def hasDNSComponent (addr : Addr) : Bool :=
  (zone.protocols addr).any fun name => name == ascii "dns4" || name == ascii "dns6" ||
    name == ascii "dns" || name == ascii "dnsaddr"

abbrev Resolved := List GoString × List GoString

def gather (find : Addr → Option Resolved) : List Addr → Option Resolved
  | [] => some ([], [])
  | r :: rest =>
    match find r, gather find rest with
    | some (resolved, errs), some (others, otherErrs) =>
      some (resolved ++ others, errs ++ otherErrs)
    | _, _ => none

/-- One turn of the loop, with the function itself for the recursive call. -/
def answer (fully : GoString → Option Resolved) (r : Addr) : Option Resolved :=
  let rStr := zone.string r
  if zone.isMatch r then fully rStr
  else if zone.hasDNSComponent r then
    (fully rStr).map fun sub => (if sub.1.length > 0 then sub.1 else [rStr], sub.2)
  else some ([rStr], [])

/-- `none` if the calls are nested deeper than `fuel`. -/
def resolveDNSAddrFully : Nat → GoString → Option Resolved
  | 0, _ => none
  | fuel + 1, addrStr =>
    match zone.newMultiaddr addrStr with
    | .error err => some ([], [ascii "parse multiaddr: " ++ err])
    | .ok maddr =>
      let (results, err) := zone.resolve maddr
      (gather (zone.answer (resolveDNSAddrFully fuel)) results).map fun found =>
        (found.1, (err.map (ascii "dnsaddr resolve: " ++ ·)).toList ++ found.2)

def Terminates (addrStr : GoString) : Prop :=
  ∃ fuel, (zone.resolveDNSAddrFully fuel addrStr).isSome

/-- `r` is an answer for `addr`, and has to be resolved in turn. -/
def Refers (addr r : Addr) : Prop :=
  r ∈ (zone.resolve addr).1 ∧ (zone.isMatch r || zone.hasDNSComponent r)

/-- `r` is an answer for `addr`, or for one that it refers to, and so on. -/
def Reachable (addr r : Addr) : Prop :=
  ∃ name, Relation.ReflTransGen zone.Refers addr name ∧ r ∈ (zone.resolve name).1

variable {zone}

theorem isSome_gather {find : Addr → Option Resolved} {results : List Addr} :
    (gather find results).isSome ↔ ∀ r ∈ results, (find r).isSome := by
  induction results with
  | nil => simp [gather]
  | cons r rest induction =>
    rw [List.forall_mem_cons, ← induction, gather]
    cases find r <;> cases gather find rest <;> simp

theorem isSome_answer {fully : GoString → Option Resolved} (addr r : Addr)
    (mem : r ∈ (zone.resolve addr).1) :
    (zone.answer fully r).isSome ↔ (zone.Refers addr r → (fully (zone.string r)).isSome) := by
  rw [answer, Refers]
  cases zone.isMatch r <;> cases zone.hasDNSComponent r <;> simp [mem]

theorem isSome_succ (parsed : zone.newMultiaddr addrStr = .ok maddr) :
    (zone.resolveDNSAddrFully (fuel + 1) addrStr).isSome ↔ ∀ r, zone.Refers maddr r →
      (zone.resolveDNSAddrFully fuel (zone.string r)).isSome := by
  rw [resolveDNSAddrFully, parsed]
  rw [Option.isSome_map, isSome_gather]
  constructor
  · intro all r refers
    exact (isSome_answer maddr r refers.1).mp (all r refers.1) refers
  · intro all r mem
    exact (isSome_answer maddr r mem).mpr (all r)

theorem isSome_mono (done : (zone.resolveDNSAddrFully fuel addrStr).isSome) (more : fuel ≤ other) :
    (zone.resolveDNSAddrFully other addrStr).isSome := by
  induction fuel generalizing addrStr other with
  | zero => cases done
  | succ fuel induction =>
    cases other with
    | zero => cases more
    | succ other =>
      cases parsed : zone.newMultiaddr addrStr with
      | error => simp [resolveDNSAddrFully, parsed]
      | ok maddr =>
        rw [isSome_succ parsed] at done ⊢
        exact fun r refers => induction (done r refers) (Nat.le_of_succ_le_succ more)

theorem acc_of_isSome (parsed : zone.newMultiaddr addrStr = .ok maddr)
    (done : (zone.resolveDNSAddrFully fuel addrStr).isSome) :
    Acc (fun r addr => zone.Refers addr r) maddr := by
  induction fuel generalizing addrStr maddr with
  | zero => cases done
  | succ fuel induction =>
    rw [isSome_succ parsed] at done
    exact ⟨_, fun r refers => induction (zone.parses r) (done r refers)⟩

theorem terminates_of_acc (acc : Acc (fun r addr => zone.Refers addr r) maddr)
    (parsed : zone.newMultiaddr addrStr = .ok maddr) : zone.Terminates addrStr := by
  induction acc generalizing addrStr with
  | intro maddr _ induction =>
    -- one depth is enough for all of the finitely many answers
    have enough : ∀ results : List Addr, ∃ fuel, ∀ r ∈ results, zone.Refers maddr r →
        (zone.resolveDNSAddrFully fuel (zone.string r)).isSome := by
      intro results
      induction results with
      | nil => exact ⟨0, nofun⟩
      | cons r rest enough =>
        rcases enough with ⟨fuel, all⟩
        by_cases refers : zone.Refers maddr r
        · rcases induction r refers (zone.parses r) with ⟨other, done⟩
          refine ⟨max fuel other, List.forall_mem_cons.mpr ⟨fun _ => ?_, ?_⟩⟩
          · exact isSome_mono done (Nat.le_max_right _ _)
          · exact fun s mem refers => isSome_mono (all s mem refers) (Nat.le_max_left _ _)
        · exact ⟨fuel, List.forall_mem_cons.mpr ⟨fun other => absurd other refers, all⟩⟩
    rcases enough (zone.resolve maddr).1 with ⟨fuel, all⟩
    exact ⟨fuel + 1, (isSome_succ parsed).mpr fun r refers => all r refers.1 refers⟩

theorem mem_gather {find : Addr → Option Resolved} (found : gather find results = some sum)
    (mem : text ∈ sum.1) : ∃ r ∈ results, ∃ part, find r = some part ∧ text ∈ part.1 := by
  induction results generalizing sum with
  | nil =>
    cases found
    cases mem
  | cons r rest induction =>
    rw [gather] at found
    split at found
    · rename_i x others isFirst isRest
      cases found
      rcases List.mem_append.mp mem with inFirst | inRest
      · exact ⟨r, List.mem_cons_self, _, isFirst, inFirst⟩
      · rcases induction isRest inRest with ⟨s, isMember, part, found, mem⟩
        exact ⟨s, List.mem_cons_of_mem _ isMember, part, found, mem⟩
    · cases found

theorem reachable_of_mem (parsed : zone.newMultiaddr addrStr = .ok maddr)
    (found : zone.resolveDNSAddrFully fuel addrStr = some resolved) (mem : text ∈ resolved.1) :
    ∃ r, zone.Reachable maddr r ∧ text = zone.string r := by
  induction fuel generalizing addrStr maddr resolved with
  | zero => cases found
  | succ fuel induction =>
    rw [resolveDNSAddrFully, parsed] at found
    rcases Option.map_eq_some_iff.mp found with ⟨sum, gathered, rfl⟩
    rcases mem_gather gathered mem with ⟨r, isAnswer, part, answered, inPart⟩
    have deeper : ∀ sub, zone.Refers maddr r →
        zone.resolveDNSAddrFully fuel (zone.string r) = some sub → text ∈ sub.1 →
        ∃ r, zone.Reachable maddr r ∧ text = zone.string r := by
      intro sub refers isSub inSub
      rcases induction (zone.parses r) isSub inSub with ⟨s, ⟨name, path, isAnswer⟩, same⟩
      exact ⟨s, ⟨name, path.head refers, isAnswer⟩, same⟩
    have own : text = zone.string r → ∃ r, zone.Reachable maddr r ∧ text = zone.string r :=
      fun same => ⟨r, ⟨maddr, .refl, isAnswer⟩, same⟩
    rw [answer] at answered
    split at answered
    · rename_i isMatch
      exact deeper part ⟨isAnswer, by rw [isMatch, Bool.true_or]⟩ answered inPart
    · split at answered
      · rename_i hasDNS
        rcases Option.map_eq_some_iff.mp answered with ⟨sub, isSub, rfl⟩
        dsimp only at inPart
        split at inPart
        · exact deeper sub ⟨isAnswer, by rw [hasDNS, Bool.or_true]⟩ isSub inPart
        · exact own (List.mem_singleton.mp inPart)
      · cases answered
        exact own (List.mem_singleton.mp inPart)

variable (zone) in
/-- An address is resolved exactly if it starts no endless chain of references, and what is
returned is reachable from it. -/
theorem terminates_iff (addrStr : GoString) :
    (zone.Terminates addrStr ↔ ∀ maddr, zone.newMultiaddr addrStr = .ok maddr →
      Acc (fun r addr => zone.Refers addr r) maddr) ∧
    ∀ maddr fuel resolved, zone.newMultiaddr addrStr = .ok maddr →
      zone.resolveDNSAddrFully fuel addrStr = some resolved →
      ∀ text ∈ resolved.1, ∃ r, zone.Reachable maddr r ∧ text = zone.string r := by
  refine ⟨⟨fun ⟨fuel, done⟩ maddr parsed => acc_of_isSome parsed done, ?_⟩,
    fun maddr fuel resolved parsed found text member => reachable_of_mem parsed found member⟩
  intro wellFounded
  cases parsed : zone.newMultiaddr addrStr with
  | error => exact ⟨1, by simp [resolveDNSAddrFully, parsed]⟩
  | ok maddr => exact terminates_of_acc (wellFounded maddr parsed) parsed

def circular : DnsZone Bool where
  newMultiaddr text := .ok (text == ascii "/dnsaddr/b")
  string second := if second then ascii "/dnsaddr/b" else ascii "/dnsaddr/a"
  protocols _ := [ascii "dnsaddr"]
  isMatch _ := true
  resolve second := ([!second], none)
  parses second := by cases second <;> rfl

theorem circular_endless : ¬circular.Terminates (ascii "/dnsaddr/a") := by
  rintro ⟨fuel, done⟩
  have endless : ∀ second, ¬Acc (fun r addr => circular.Refers addr r) second := by
    intro second acc
    induction acc with
    | intro second _ induction => exact induction (!second) ⟨List.mem_singleton_self _, rfl⟩
  exact endless false (acc_of_isSome rfl done)

end DnsZone

end Peerscale.P2put
