import Mathlib.Data.List.AList
import Mathlib.Data.List.TakeWhile
import Peerscale.Fbvirtun.ReadLoop
import Peerscale.Foundation.Ipv4
import Peerscale.Foundation.Machine

/-! # TURN permissions

The addresses that the servers of a pool are asked to let through. They come in as texts, from
`HandlePushStream` as texts of remote peers; `AddPermIP` counts the dots, and `permAddresses`
parses what was kept.
-/

namespace Peerscale.P2put

open List

open Fbvirtun (to4 v4InV6Prefix)

def percent : UInt8 := 37

/-- `net.ParseIP`: sixteen bytes, or nil. The first separator tells which of the two parsers
is to be used; that for IPv6 is a parameter. -/
def parseIP (parseIPv6 : GoString → Option Bytes) (text : GoString) : Option Bytes :=
  match text.find? fun byte => byte = dot ∨ byte = colon ∨ byte = percent with
  | none => none
  | some separator =>
    if separator = dot then (parseIPv4 text).map fun bytes => v4InV6Prefix ++ bytes
    else if separator = colon then parseIPv6 text
    else none

theorem parseIP_of_noColon (noColon : colon ∉ text) :
    parseIP parseIPv6 text = (parseIPv4 text).map fun bytes => v4InV6Prefix ++ bytes := by
  have onlyIPv4 : ∀ {bytes}, parseIPv4 text = some bytes → dot ∈ text ∧ percent ∉ text := by
    intro bytes parsed
    obtain ⟨four, rfl⟩ := parseIPv4_eq_some_iff.mp parsed
    constructor
    · rw [← count_pos_iff, count_dot_ipv4Text four]
      decide
    · intro mem
      exact absurd (mem_ipv4Text mem) (by decide)
  rw [parseIP]
  split
  · rename_i noSeparator
    cases parsed : parseIPv4 text with
    | none => rfl
    | some =>
      have isDot := find?_eq_none.mp noSeparator dot (onlyIPv4 parsed).1
      simp at isDot
  rename_i separator found
  have mem := mem_of_find?_eq_some found
  have isSeparator := find?_some found
  rw [decide_eq_true_eq] at isSeparator
  rcases isSeparator with rfl | rfl | rfl
  · exact if_pos rfl
  · exact absurd mem noColon
  cases parsed : parseIPv4 text with
  | none => rfl
  | some => exact absurd mem (onlyIPv4 parsed).2

/-- `AddPermIP` and `RemovePermIP` cut a text at its first colon, and go on if it has three
dots. -/
def permKey (ip : GoString) : Option GoString :=
  if ip = [] then none
  else
    let key := ip.takeWhile (· ≠ colon)
    if key.count dot ≠ 3 then none else some key

theorem permKey_noColon (isKey : permKey ip = some key) : colon ∉ key := by
  rw [permKey] at isKey
  split at isKey
  · cases isKey
  dsimp only at isKey
  split at isKey
  · cases isKey
  rw [← Option.some.inj isKey]
  intro mem
  simpa using mem_takeWhile_imp mem

structure PermIPs where
  permips : AList fun _ : GoString => Int
  noColon : ∀ key ∈ permips.keys, colon ∉ key

namespace PermIPs

def empty : PermIPs where
  permips := ∅
  noColon := nofun

variable (pool : PermIPs)

def addPermIP (ip : GoString) : PermIPs :=
  match isKey : permKey ip with
  | none => pool
  | some key =>
    { permips := pool.permips.insert key 1
      noColon := by
        intro other member
        rcases AList.mem_insert pool.permips |>.mp member with rfl | before
        · exact permKey_noColon isKey
        · exact pool.noColon other before }

def removePermIP (ip : GoString) : PermIPs :=
  match permKey ip with
  | none => pool
  | some key =>
    { permips := pool.permips.erase key
      noColon := fun other member => pool.noColon other (AList.mem_erase.mp member).2 }

/-- The address of each entry, in the order of the map, which is not specified: nil for a text
that is no address. -/
def permAddresses (parseIPv6 : GoString → Option Bytes) : List (Option Bytes) :=
  pool.permips.keys.map (parseIP parseIPv6)

inductive Call
  | addPermIP (ip : GoString)
  | removePermIP (ip : GoString)

def call (pool : PermIPs) : Call → PermIPs
  | .addPermIP ip => pool.addPermIP ip
  | .removePermIP ip => pool.removePermIP ip

def machine : Machine PermIPs Call := ⟨call⟩

variable {pool : PermIPs} {parseIPv6 : GoString → Option Bytes}

theorem mem_addPermIP :
    other ∈ (pool.addPermIP ip).permips ↔ permKey ip = some other ∨ other ∈ pool.permips := by
  rw [addPermIP]
  split
  · rename_i noKey
    simp [noKey]
  · rename_i key isKey
    rw [AList.mem_insert, isKey, Option.some.injEq, eq_comm]

theorem mem_removePermIP :
    other ∈ (pool.removePermIP ip).permips ↔ permKey ip ≠ some other ∧ other ∈ pool.permips := by
  rw [removePermIP]
  split
  · rename_i noKey
    simp [noKey]
  · rename_i key isKey
    rw [AList.mem_erase, isKey, ne_eq, ne_eq, Option.some.injEq, eq_comm]

theorem mem_permAddresses :
    addr ∈ pool.permAddresses parseIPv6 ↔ ∃ key ∈ pool.permips,
      (parseIPv4 key).map (fun bytes => v4InV6Prefix ++ bytes) = addr := by
  rw [permAddresses, mem_map]
  constructor
  · rintro ⟨key, mem, rfl⟩
    exact ⟨key, mem, (parseIP_of_noColon (pool.noColon key mem)).symm⟩
  · rintro ⟨key, mem, rfl⟩
    exact ⟨key, mem, parseIP_of_noColon (pool.noColon key mem)⟩

def Real (parseIPv6 : GoString → Option Bytes) (pool : PermIPs) : Prop :=
  ∀ address ∈ pool.permAddresses parseIPv6, ∃ ip, address = some ip ∧ (to4 ip).isSome

def AddsAddress (_ : PermIPs) : Call → Prop
  | .addPermIP ip => ∀ key, permKey ip = some key →
      ∃ bytes : Bytes, bytes.length = 4 ∧ key = ipv4Text bytes
  | .removePermIP _ => True

theorem real_iff :
    pool.Real parseIPv6 ↔ ∀ key ∈ pool.permips, ∃ bytes : Bytes, bytes.length = 4 ∧
      key = ipv4Text bytes := by
  constructor
  · intro real key mem
    obtain ⟨ip, isIP, -⟩ := real _ (mem_permAddresses.mpr ⟨key, mem, rfl⟩)
    obtain ⟨bytes, parsed, -⟩ := Option.map_eq_some_iff.mp isIP
    exact ⟨bytes, parseIPv4_eq_some_iff.mp parsed⟩
  intro texts addr mem
  obtain ⟨key, isKey, rfl⟩ := mem_permAddresses.mp mem
  obtain ⟨bytes, isText⟩ := texts key isKey
  refine ⟨v4InV6Prefix ++ bytes, ?_, ?_⟩
  · rw [parseIPv4_eq_some_iff.mpr isText, Option.map_some]
  have length : v4InV6Prefix.length = 12 := rfl
  have take : (v4InV6Prefix ++ bytes).take 12 = v4InV6Prefix := take_left' length
  simp [to4, take, length, isText.1]

theorem real_call_iff (real : pool.Real parseIPv6) (req : Call) :
    (pool.call req).Real parseIPv6 ↔ pool.AddsAddress req := by
  rw [real_iff] at real ⊢
  cases req with
  | addPermIP =>
    constructor
    · intro texts key isKey
      exact texts key (mem_addPermIP.mpr (.inl isKey))
    intro adds key mem
    rcases mem_addPermIP.mp mem with isKey | before
    · exact adds key isKey
    · exact real key before
  | removePermIP =>
    refine iff_of_true ?_ trivial
    intro key mem
    exact real key (mem_removePermIP.mp mem).2

inductive Names (bytes : Bytes) : GoString → Prop
  | alone : Names bytes (ipv4Text bytes)
  | withPort (port : GoString) : Names bytes (ipv4Text bytes ++ colon :: port)

section

variable {bytes : Bytes} {ip : GoString} (four : bytes.length = 4) (names : Names bytes ip)

include four names

theorem permKey_of_names : permKey ip = some (ipv4Text bytes) := by
  have n := count_dot_ipv4Text four
  have noColon : ∀ byte ∈ ipv4Text bytes, decide (byte ≠ colon) := by
    intro byte mem
    rw [decide_eq_true_eq]
    rintro rfl
    exact absurd (mem_ipv4Text mem) (by decide)
  have notEmpty : ip ≠ [] ∧ ip.takeWhile (· ≠ colon) = ipv4Text bytes := by
    cases names with
    | alone =>
      refine ⟨?_, takeWhile_eq_self_iff.mpr noColon⟩
      intro empty
      rw [empty] at n
      cases n
    | withPort =>
      refine ⟨by simp, ?_⟩
      rw [takeWhile_append_of_pos noColon]
      simp
  rw [permKey, if_neg notEmpty.1]
  rw [notEmpty.2, if_neg (not_not.mpr n)]

theorem added_of_names :
    some (v4InV6Prefix ++ bytes) ∈ (pool.addPermIP ip).permAddresses parseIPv6 := by
  refine mem_permAddresses.mpr ⟨ipv4Text bytes, ?_, ?_⟩
  · exact mem_addPermIP.mpr (.inl (permKey_of_names four names))
  · rw [parseIPv4_eq_some_iff.mpr ⟨four, rfl⟩, Option.map_some]

theorem removed_of_names :
    some (v4InV6Prefix ++ bytes) ∉ (pool.removePermIP ip).permAddresses parseIPv6 := by
  intro mem
  obtain ⟨key, isKey, isAddress⟩ := mem_permAddresses.mp mem
  obtain ⟨others, parsed, same⟩ := Option.map_eq_some_iff.mp isAddress
  have isOthers : others = bytes := append_cancel_left same
  rw [isOthers] at parsed
  rw [(parseIPv4_eq_some_iff.mp parsed).2] at isKey
  exact (mem_removePermIP.mp isKey).1 (permKey_of_names four names)

end

/-- An address can be added and removed in both of its forms, whatever was called before. All
permissions are for addresses exactly if each text that passes the check of `AddPermIP` is one
up to its first colon. -/
theorem permissions_real_iff (parseIPv6 : GoString → Option Bytes) (calls : List Call) :
    (machine.Always (Real parseIPv6) empty calls ↔ machine.Obeys AddsAddress empty calls) ∧
      ∀ (bytes : Bytes) (ip : GoString), bytes.length = 4 → Names bytes ip →
        some (v4InV6Prefix ++ bytes) ∈
            (machine.run empty (calls ++ [.addPermIP ip])).permAddresses parseIPv6 ∧
          some (v4InV6Prefix ++ bytes) ∉
            (machine.run empty (calls ++ [.removePermIP ip])).permAddresses parseIPv6 := by
  constructor
  · apply Machine.always_iff_obeys_of_step
    · intro pool request real
      exact real_call_iff real request
    · rw [real_iff]
      exact nofun
  intro bytes ip four names
  rw [Machine.run_concat, Machine.run_concat]
  exact ⟨added_of_names four names, removed_of_names four names⟩

theorem withPort_permitted :
    (ascii "10.0.0.1:3478" = ipv4Text [10, 0, 0, 1] ++ colon :: ascii "3478") ∧
      some (v4InV6Prefix ++ [10, 0, 0, 1]) ∈
        (machine.run empty ([] ++ [.addPermIP (ipv4Text [10, 0, 0, 1] ++ colon :: ascii "3478")])
          ).permAddresses fun _ => none :=
  ⟨by decide +kernel,
    ((permissions_real_iff (fun _ => none) []).2 [10, 0, 0, 1] _ rfl (.withPort _)).1⟩

theorem letters_permitted :
    permKey (ascii "a.b.c.d") = some (ascii "a.b.c.d") ∧ ∀ parseIPv6 : GoString → Option Bytes,
        (machine.run empty [.addPermIP (ascii "a.b.c.d")]).permAddresses parseIPv6 = [none] ∧
          ¬machine.Always (Real parseIPv6) empty [.addPermIP (ascii "a.b.c.d")] := by
  refine ⟨rfl, ?_⟩
  intro parseIPv6
  have nil : (machine.run empty [.addPermIP (ascii "a.b.c.d")]).permAddresses parseIPv6 =
      [none] := by
    rfl
  refine ⟨nil, ?_⟩
  intro always
  have real := always [.addPermIP (ascii "a.b.c.d")] [] rfl none
  rw [nil] at real
  obtain ⟨ip, isIP, -⟩ := real List.mem_cons_self
  cases isIP

end PermIPs

end Peerscale.P2put
