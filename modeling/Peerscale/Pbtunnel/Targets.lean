import Peerscale.Foundation.NetText
import Peerscale.Pbtunnel.Datagrams

/-! # Targets of tunnels

`Dial` and `DialUDP` put the port behind the name of the protocol, where `targetAddr` of the
other node looks for it. But the handlers get every stream whose protocol begins with what is
left of their names up to the slash, and `targetAddr` takes what is behind the first
`tunnel/1.0` for a port, whatever it is.
-/

namespace Peerscale.Pbtunnel

open P2put List

structure Settings where
  tunnelTarget : GoString
  tunnelPort : Int

inductive TargetPanic
  | missingTunnelProto (proto : GoString)
  | badPortSuffix (suffix proto : GoString)
  deriving DecidableEq

inductive Target
  | fixed (addr : GoString)
  | loopback (port : Int)
  deriving DecidableEq

def targetAddr (settings : Settings) (proto : GoString) : Except TargetPanic Target :=
  if settings.tunnelTarget ≠ [] then .ok (.fixed settings.tunnelTarget)
  else
    match Strings.index proto tunnelProto with
    | none => .error (.missingTunnelProto proto)
    | some index =>
      let suffix := proto.drop (index + tunnelProto.length)
      if suffix = [] ∨ suffix = ascii "0" then .ok (.loopback settings.tunnelPort)
      else
        match atoi suffix with
        | some port => .ok (.loopback port)
        | none => .error (.badPortSuffix suffix proto)

/-- `Dial` and `DialUDP`: the peer and the protocol for which they open a stream. Two colons
make them panic. -/
def dial (proto : GoString) (settings : Settings) (peerID : GoString) :
    Option (GoString × GoString) :=
  match peerID.splitOn colon with
  | [_] =>
    let sign := if settings.tunnelPort < 0 then [minus] else []
    some (peerID, proto ++ (sign ++ itoa settings.tunnelPort.natAbs))
  | [peer, port] => some (peer, proto ++ port)
  | _ => none

/-- `suffix` is what stands behind the first `tunnelProto`. -/
def Ends (proto suffix : GoString) : Prop :=
  ∃ position, proto.drop position = tunnelProto ++ suffix ∧
    ∀ earlier < position, ¬tunnelProto <+: proto.drop earlier

theorem index_eq_some :
    Strings.index proto tunnelProto = some pos ↔ tunnelProto <+: proto.drop pos ∧
      ∀ prev < pos, ¬tunnelProto <+: proto.drop prev := by
  rw [Strings.index, find?_range_eq_some]
  simp only [ isPrefixOf_iff_prefix, mem_range, Bool.not_eq_true', Bool.eq_false_iff, ne_eq]
  constructor
  · rintro ⟨found, -, x⟩
    exact ⟨found, x⟩
  rintro ⟨found, x⟩
  refine ⟨found, ?_, x⟩
  have long := found.length_le
  rw [length_drop] at long
  have positive : 0 < tunnelProto.length := by decide
  omega

theorem index_of_ends (ends : Ends proto suffix) :
    ∃ pos, Strings.index proto tunnelProto = some pos ∧
      proto.drop (pos + tunnelProto.length) = suffix := by
  rcases ends with ⟨pos, behind, x⟩
  refine ⟨pos, index_eq_some.mpr ⟨?_, x⟩, ?_⟩
  · rw [behind]
    exact prefix_append _ _
  · rw [← drop_drop, behind, drop_left]

theorem ends_of_index (found : Strings.index proto tunnelProto = some pos) :
    Ends proto (proto.drop (pos + tunnelProto.length)) := by
  rcases index_eq_some.mp found with ⟨⟨suffix, behind⟩, x⟩
  refine ⟨pos, ?_, x⟩
  rw [← drop_drop, ← behind, drop_left]

def Usable (port : Int) : Prop := 1 ≤ port ∧ port ≤ 65535

def Selects (settings : Settings) (proto : GoString) : Prop :=
  ∃ port, Usable port ∧ targetAddr settings proto = .ok (.loopback port)

section

variable {settings : Settings} (free : settings.tunnelTarget = [])

include free

theorem targetAddr_of_ends (ends : Ends proto suffix) :
    targetAddr settings proto =
      if suffix = [] ∨ suffix = ascii "0" then .ok (.loopback settings.tunnelPort)
      else
        match atoi suffix with
        | some port => .ok (.loopback port)
        | none => .error (.badPortSuffix suffix proto) := by
  rcases index_of_ends ends with ⟨pos, found, behind⟩
  rw [targetAddr, if_neg (not_not_intro free), found]
  dsimp only
  rw [behind]

theorem selects_iff_ends (usable : Usable settings.tunnelPort) (proto : GoString) :
    Selects settings proto ↔ ∃ suffix, Ends proto suffix ∧
      (suffix = [] ∨ suffix = ascii "0" ∨ ∃ port, Usable port ∧ atoi suffix = some port) := by
  constructor
  · rintro ⟨port, valid, selected⟩
    cases found : Strings.index proto tunnelProto with
    | none =>
      rw [targetAddr, if_neg (not_not_intro free), found] at selected
      cases selected
    | some pos =>
      have ends := ends_of_index found
      generalize proto.drop (pos + tunnelProto.length) = suffix at ends
      rw [targetAddr_of_ends free ends] at selected
      refine ⟨suffix, ends, ?_⟩
      by_cases default : suffix = [] ∨ suffix = ascii "0"
      · exact default.imp_right .inl
      rw [if_neg default] at selected
      cases read : atoi suffix with
      | none =>
        rw [read] at selected
        cases selected
      | some num =>
        rw [read] at selected
        cases selected
        exact .inr (.inr ⟨port, valid, rfl⟩)
  rintro ⟨suffix, ends, what⟩
  rw [Selects, targetAddr_of_ends free ends]
  by_cases default : suffix = [] ∨ suffix = ascii "0"
  · exact ⟨_, usable, if_pos default⟩
  rcases what with empty | zero | ⟨port, valid, read⟩
  · exact absurd (.inl empty) default
  · exact absurd (.inr zero) default
  · refine ⟨port, valid, ?_⟩
    rw [if_neg default, read]

end

inductive Tunnels : GoString → Service → Prop
  | tcp : Tunnels tunnelProto .handleTunnel
  | udp : Tunnels udpTunnelProto .handleUDPTunnel

theorem Tunnels.dispatch (tunnels : Tunnels proto service) (suffix : GoString) :
    handlers.dispatch (fullProtoID (proto ++ suffix)) = some service := by
  cases tunnels <;> rfl

theorem Tunnels.ends (tunnels : Tunnels proto service) (suffix : GoString) :
    Ends (fullProtoID (proto ++ suffix)) suffix := by
  have x : ∀ {proto : GoString} {pos : Nat},
      ((List.range pos).all fun prev => !tunnelProto.isPrefixOf (proto.drop prev)) =
          true → ∀ prev < pos, ¬tunnelProto <+: proto.drop prev := by
    intro proto pos none prev pre starts
    have other := all_eq_true.mp none prev (mem_range.mpr pre)
    rw [ isPrefixOf_iff_prefix.mpr starts] at other
    cases other
  cases tunnels with
  | tcp => exact ⟨7, rfl, x rfl⟩
  | udp => exact ⟨10, rfl, x rfl⟩

theorem dial_port (proto : GoString) (settings : Settings) (plain : colon ∉ peerID) (port : Nat) :
    dial proto settings (peerID ++ colon :: itoa port) = some (peerID, proto ++ itoa port) := by
  have digits : colon ∉ itoa port := fun mem => (itoa_plain port colon mem).1 rfl
  rw [dial, splitOn_append_cons_self_of_not_mem plain, splitOn_eq_singleton digits]

theorem targetAddr_port {settings : Settings} (free : settings.tunnelTarget = [])
    (ends : Ends proto (itoa port)) (usable : Usable port) :
    targetAddr settings proto = .ok (.loopback port) := by
  rw [Usable] at usable
  have read : atoi (itoa port) = some (port : Int) := atoi_itoa (by omega)
  have given : ¬(itoa port = [] ∨ itoa port = ascii "0") := by
    rintro (empty | zero)
    · rw [empty] at read
      cases read
    rw [zero, show atoi (ascii "0") = some 0 by decide +kernel] at read
    have none := Option.some.inj read
    omega
  rw [targetAddr_of_ends free ends, if_neg given, read]

/-- A stream has a usable target exactly if nothing, zero or a usable port stands behind the
first `tunnelProto`. For the ports that are dialled this is so, and they are the targets. -/
theorem targets_iff {settings : Settings} (free : settings.tunnelTarget = [])
    (usable : Usable settings.tunnelPort) {proto : GoString} {service : Service}
    (tunnels : Tunnels proto service) :
    (∀ id, handlers.dispatch id = some service → (Selects settings id ↔ ∃ suffix, Ends id suffix ∧
        (suffix = [] ∨ suffix = ascii "0" ∨ ∃ port, Usable port ∧ atoi suffix = some port))) ∧
    ∀ (dialler : Settings) peerID (port : Nat), colon ∉ peerID → Usable port →
      ∃ name, dial proto dialler (peerID ++ colon :: itoa port) = some (peerID, name) ∧
        handlers.dispatch (fullProtoID name) = some service ∧
        targetAddr settings (fullProtoID name) = .ok (.loopback port) := by
  refine ⟨fun id _ => selects_iff_ends free usable id, ?_⟩
  intro dialler peerID port plain valid
  exact ⟨proto ++ itoa port, dial_port proto dialler plain port, tunnels.dispatch _,
    targetAddr_port free (tunnels.ends _) valid⟩

theorem targets_iff_default :
    handlers.dispatch (fullProtoID (ascii "tunnel/1.0")) = some .handleTunnel ∧
      Selects ⟨[], 9229⟩ (fullProtoID (ascii "tunnel/1.0")) :=
  ⟨Tunnels.tcp.dispatch [], ((targets_iff rfl ⟨by decide, by decide⟩ .tcp).1 _
    (Tunnels.tcp.dispatch [])).mpr ⟨[], Tunnels.tcp.ends [], .inl rfl⟩⟩

theorem targets_missed :
    let settings : Settings := ⟨[], 9229⟩
    (handlers.dispatch (ascii "/d2hub/tunnel/x") = some .handleTunnel ∧
      targetAddr settings (ascii "/d2hub/tunnel/x") =
        .error (.missingTunnelProto (ascii "/d2hub/tunnel/x"))) ∧
    (handlers.dispatch (ascii "/d2hub/udptunnel/1.0x") = some .handleUDPTunnel ∧
      targetAddr settings (ascii "/d2hub/udptunnel/1.0x") =
        .error (.badPortSuffix (ascii "x") (ascii "/d2hub/udptunnel/1.0x"))) ∧
    handlers.dispatch (ascii "/d2hub/tunnel/1.099999") = some .handleTunnel ∧
      targetAddr settings (ascii "/d2hub/tunnel/1.099999") = .ok (.loopback 99999) := by
  decide +kernel

end Peerscale.Pbtunnel
