import Mathlib.Logic.Function.Basic
import Peerscale.Fbvirtun.ReadLoop
import Peerscale.Foundation.Machine

/-! # The table of TCP bridges

A segment is fed to the bridge that is stored under its key, whatever has become of it, and any
segment with a SYN opens one where there is none. Closed bridges are deleted by `tcpCleanup`.
-/

namespace Peerscale.Fbvirtun

open Softun (Segment flagACK flagRST flagSYN)

/-- The connections of `vtcp`. One that is closed ignores segments. -/
structure VirtualTcp (Conn : Type) where
  parseSegment : Bytes → Option Segment
  acceptSYN : Segment → Conn
  handleSegment : Conn → Segment → Conn
  isClosed : Conn → Bool
  ignores : ∀ vc segment, isClosed vc → handleSegment vc segment = vc

structure TcpBridge (Conn : Type) where
  number : Nat
  vc : Conn
  deriving DecidableEq

structure Bridges (Conn : Type) where
  tcpConns : TcpKey → Option (TcpBridge Conn)
  made : Nat

namespace Bridges

variable {Conn : Type} (vtcp : VirtualTcp Conn)

def feedTCP (bridge : TcpBridge Conn) (tcp : Bytes) : TcpBridge Conn :=
  match vtcp.parseSegment tcp with
  | none => bridge
  | some segment => { bridge with vc := vtcp.handleSegment bridge.vc segment }

def newTCPBridge (number : Nat) (tcp : Bytes) (routable : Bool) : Option (TcpBridge Conn) :=
  match vtcp.parseSegment tcp with
  | none => none
  | some segment => if routable then some ⟨number, vtcp.acceptSYN segment⟩ else none

def start : Bridges Conn := ⟨fun _ => none, 0⟩

variable (bridges : Bridges Conn)

/-- `handleTCP4` and `handleTCP6`. A dial to a routable peer succeeds. -/
def handleTCP (key : TcpKey) (tcp : Bytes) (routable : Bool) : Bridges Conn :=
  if tcp.length < 20 then bridges
  else
    match bridges.tcpConns key with
    | some bridge =>
      { bridges with
        tcpConns := Function.update bridges.tcpConns key (some (feedTCP vtcp bridge tcp)) }
    | none =>
      if tcp.getD 13 0 &&& flagSYN = 0 then bridges
      else
        match newTCPBridge vtcp bridges.made tcp routable with
        | none => bridges
        | some bridge => ⟨Function.update bridges.tcpConns key (some bridge), bridges.made + 1⟩

def tcpCleanup : Bridges Conn :=
  { bridges with
    tcpConns := fun key => (bridges.tcpConns key).filter fun bridge => !vtcp.isClosed bridge.vc }

/-- The other steps of a connection are those of its timers and of the remote side. -/
inductive Action (Conn : Type)
  | segment (key : TcpKey) (tcp : Bytes) (routable : Bool)
  | advance (key : TcpKey) (vc : Conn)
  | tcpCleanup

def act : Action Conn → Bridges Conn
  | .segment key tcp routable => bridges.handleTCP vtcp key tcp routable
  | .advance key vc =>
    { bridges with
      tcpConns := Function.update bridges.tcpConns key
        ((bridges.tcpConns key).map fun bridge => { bridge with vc := vc }) }
  | .tcpCleanup => bridges.tcpCleanup vtcp

def machine : Machine (Bridges Conn) (Action Conn) := ⟨act vtcp⟩

structure Synchronizes (tcp : Bytes) (routable : Bool) : Prop where
  header : 20 ≤ tcp.length
  parsed : (vtcp.parseSegment tcp).isSome
  routable : routable
  syn : tcp.getD 13 0 &&& flagSYN ≠ 0

def Attempt (tcp : Bytes) (routable : Bool) : Prop :=
  Synchronizes vtcp tcp routable ∧ tcp.getD 13 0 &&& flagACK = 0

def Unserved (key : TcpKey) : Prop :=
  ∀ bridge, bridges.tcpConns key = some bridge → vtcp.isClosed bridge.vc

def Opened (key : TcpKey) (next : Bridges Conn) : Prop :=
  ∃ vc, next.tcpConns key = some ⟨bridges.made, vc⟩

/-- Where no open bridge is, attempts open one and nothing else does. -/
def OpensForAttempts : Action Conn → Prop
  | .segment key tcp routable => bridges.Unserved vtcp key →
      (bridges.Opened key (bridges.handleTCP vtcp key tcp routable) ↔ Attempt vtcp tcp routable)
  | _ => True

/-- No attempt meets a closed bridge, and no SYN with an ACK comes where there is none. -/
def Timely : Action Conn → Prop
  | .segment key tcp routable =>
    match bridges.tcpConns key with
    | some bridge => vtcp.isClosed bridge.vc → ¬Attempt vtcp tcp routable
    | none => Synchronizes vtcp tcp routable → tcp.getD 13 0 &&& flagACK = 0
  | _ => True

def Numbered : Prop :=
  ∀ key bridge, bridges.tcpConns key = some bridge → bridge.number < bridges.made

variable {vtcp bridges} {key : TcpKey} {tcp : Bytes} {routable : Bool}

@[simp] theorem number_feedTCP (bridge : TcpBridge Conn) :
    (feedTCP vtcp bridge tcp).number = bridge.number := by
  rw [feedTCP]
  split <;> rfl

theorem handleTCP_cases :
    bridges.handleTCP vtcp key tcp routable = bridges ∧
        (bridges.tcpConns key = none → ¬Synchronizes vtcp tcp routable) ∨
      (∃ bridge, bridges.tcpConns key = some bridge ∧ bridges.handleTCP vtcp key tcp routable =
          { bridges with
            tcpConns := Function.update bridges.tcpConns key (some (feedTCP vtcp bridge tcp)) }) ∨
      ∃ vc, bridges.tcpConns key = none ∧ Synchronizes vtcp tcp routable ∧
        bridges.handleTCP vtcp key tcp routable =
          ⟨Function.update bridges.tcpConns key (some ⟨bridges.made, vc⟩), bridges.made + 1⟩ := by
  by_cases short : tcp.length < 20
  · exact .inl ⟨if_pos short, fun _ opens => absurd short (Nat.not_lt.mpr opens.header)⟩
  rw [handleTCP, if_neg short]
  cases isStored : bridges.tcpConns key with
  | some bridge => exact .inr (.inl ⟨bridge, rfl, rfl⟩)
  | none =>
    by_cases syn : tcp.getD 13 0 &&& flagSYN = 0
    · exact .inl ⟨if_pos syn, fun _ opens => opens.syn syn⟩
    rw [if_neg syn, newTCPBridge]
    cases parsed : vtcp.parseSegment tcp with
    | none => exact .inl ⟨rfl, fun _ opens => by simpa [parsed] using opens.parsed⟩
    | some seg =>
      cases isRoutable : routable with
      | false => exact .inl ⟨rfl, fun _ opens => by simpa using opens.routable⟩
      | true =>
        exact .inr (.inr ⟨vtcp.acceptSYN seg, rfl,
          ⟨Nat.not_lt.mp short, by simp [parsed], rfl, syn⟩, rfl⟩)

theorem not_opened_of_stored (numbered : bridges.Numbered)
    (isStored : bridges.tcpConns key = some bridge) :
    ¬bridges.Opened key (bridges.handleTCP vtcp key tcp routable) := by
  have older := numbered key bridge isStored
  rintro ⟨vc, found⟩
  rcases @handleTCP_cases _ vtcp bridges key tcp routable with
    ⟨same, -⟩ | ⟨fed, isFed, next⟩ | ⟨_, missing, -⟩
  · rw [same, isStored, Option.some.injEq] at found
    simp [found] at older
  · rw [isStored, Option.some.injEq] at isFed
    simp only [next, Function.update_self, Option.some.injEq] at found
    have num := @number_feedTCP _ vtcp tcp fed
    rw [found, ← isFed] at num
    exact (Nat.ne_of_lt older) num.symm
  · rw [missing] at isStored
    cases isStored

theorem opened_iff_of_missing (missing : bridges.tcpConns key = none) :
    bridges.Opened key (bridges.handleTCP vtcp key tcp routable) ↔
      Synchronizes vtcp tcp routable := by
  rcases @handleTCP_cases _ vtcp bridges key tcp routable with
    ⟨same, idle⟩ | ⟨fed, isFed, -⟩ | ⟨vc, -, opens, next⟩
  · refine iff_of_false ?_ (idle missing)
    simp [Opened, same, missing]
  · rw [missing] at isFed
    cases isFed
  · exact iff_of_true ⟨vc, by simp [next]⟩ opens

theorem Numbered.update {numbered : bridges.Numbered} {made : Nat} (more : bridges.made ≤ made)
    (older : ∀ stored, bridge = some stored → stored.number < made) :
    Numbered ⟨Function.update bridges.tcpConns key bridge, made⟩ := by
  intro other stored found
  by_cases same : other = key
  · simp [same] at found
    exact older stored found
  · simp [same] at found
    exact (numbered other stored found).trans_le more

theorem Numbered.act (numbered : bridges.Numbered) (a : Action Conn) :
    (bridges.act vtcp a).Numbered := by
  cases a with
  | segment key tcp routable =>
    rw [Bridges.act]
    rcases @handleTCP_cases _ vtcp bridges key tcp routable with
      ⟨same, -⟩ | ⟨fed, isFed, next⟩ | ⟨vc, -, -, next⟩
    · rwa [same]
    · rw [next]
      refine numbered.update le_rfl ?_
      rintro _ ⟨⟩
      rw [number_feedTCP]
      exact numbered key fed isFed
    rw [next]
    refine numbered.update (Nat.le_succ _) ?_
    rintro _ ⟨⟩
    exact Nat.lt_succ_self _
  | advance key =>
    refine numbered.update le_rfl fun bridge changed => ?_
    rw [Option.map_eq_some_iff] at changed
    obtain ⟨pre, isStored, rfl⟩ := changed
    exact numbered key pre isStored
  | tcpCleanup =>
    exact fun other bridge found => numbered other bridge (Option.eq_some_of_filter_eq_some found)

theorem numbered_start : (start : Bridges Conn).Numbered := by
  simp [Numbered, start]

theorem opensForAttempts_iff (numbered : bridges.Numbered) (a : Action Conn) :
    bridges.OpensForAttempts vtcp a ↔ bridges.Timely vtcp a := by
  cases a with
  | segment key =>
    rw [OpensForAttempts, Timely]
    cases isStored : bridges.tcpConns key with
    | some => simp [Unserved, isStored, not_opened_of_stored numbered isStored]
    | none => simp [Unserved, isStored, opened_iff_of_missing isStored, Attempt]
  | advance | tcpCleanup => rfl

/-- Along a run, bridges are opened for attempts and for nothing else exactly if no attempt
meets a closed bridge that has not been cleaned up, and no SYN with an ACK comes without one. -/
theorem attempts_opened_iff (vtcp : VirtualTcp Conn) (actions : List (Action Conn)) :
    (machine vtcp).Obeys (OpensForAttempts vtcp) start actions ↔
      (machine vtcp).Obeys (Timely vtcp) start actions := by
  constructor
  · intro opens
    exact opens.consequence numbered_start (fun bridges action numbered _ => numbered.act action)
      fun bridges action numbered => (opensForAttempts_iff numbered action).mp
  intro timely
  exact timely.consequence numbered_start (fun bridges action numbered _ => numbered.act action)
    fun bridges action numbered => (opensForAttempts_iff numbered action).mpr

def resettable : VirtualTcp Bool where
  parseSegment bytes := some (Softun.segmentOf bytes)
  acceptSYN _ := false
  handleSegment closed segment := closed || segment.flags &&& flagRST ≠ 0
  isClosed closed := closed
  ignores closed segment isClosed := by rw [isClosed, Bool.true_or]

def toServer (flags : UInt8) : Action Bool :=
  .segment ⟨[10, 0, 0, 1], 4000, [10, 0, 0, 2], 80⟩
    (List.replicate 12 0 ++ [0x50, flags] ++ List.replicate 6 0) true

def Action.isSegment : Action Conn → Prop
  | .segment .. => True
  | _ => False

/-- Until the next cleanup a closed bridge stays in the way of all attempts. -/
theorem closed_stays {bridge : TcpBridge Conn} (isClosed : vtcp.isClosed bridge.vc = true)
    (isStored : bridges.tcpConns key = some bridge)
    (segments : (machine vtcp).Obeys (fun _ a => a.isSegment) bridges acts) :
    ((machine vtcp).run bridges acts).tcpConns key = some bridge := by
  refine @Machine.Obeys.invariant _ _ _ _ (fun bridges => bridges.tcpConns key = some bridge)
    _ _ segments isStored ?_
  intro bridges a isStored isSegment
  cases a with
  | segment other tcp routable =>
    have ignored : feedTCP vtcp bridge tcp = bridge := by
      rw [feedTCP]
      split
      · rfl
      · rw [vtcp.ignores _ _ isClosed]
    show (bridges.handleTCP vtcp other tcp routable).tcpConns key = some bridge
    rcases @handleTCP_cases _ vtcp bridges other tcp routable with
      ⟨same, -⟩ | ⟨fed, isFed, next⟩ | ⟨vc, missing, -, next⟩
    · rwa [same]
    all_goals
      rw [next]
      by_cases same : key = other
      · simp_all
      · simpa [same] using isStored
  | advance | tcpCleanup => exact isSegment.elim

theorem reset_stays :
    ((machine resettable).run start [toServer flagSYN, toServer flagRST, toServer flagSYN]).tcpConns
      ⟨[10, 0, 0, 1], 4000, [10, 0, 0, 2], 80⟩ = some ⟨0, true⟩ :=
  @closed_stays _ _ ((machine resettable).run start [toServer flagSYN, toServer flagRST]) _
    [toServer flagSYN] _ rfl rfl ⟨trivial, trivial⟩

theorem attempts_missed :
    ¬(machine resettable).Obeys (OpensForAttempts resettable) start
        [toServer flagSYN, toServer flagRST, toServer flagSYN] ∧
      ¬(machine resettable).Obeys (OpensForAttempts resettable) start
        [toServer (flagSYN ||| flagACK)] := by
  constructor
  · rintro ⟨-, -, opens, -⟩
    have numbered : ((machine resettable).run start
        [toServer flagSYN, toServer flagRST]).Numbered :=
      Machine.invariant numbered_start (fun _ action numbered => numbered.act action) _
    have timely := (opensForAttempts_iff numbered _).mp opens
    exact timely rfl ⟨⟨by decide, by decide, rfl, by decide⟩, by decide⟩
  rintro ⟨opens, -⟩
  have timely := (opensForAttempts_iff numbered_start _).mp opens
  exact absurd (timely ⟨by decide, by decide, rfl, by decide⟩) (by decide)

end Bridges

end Peerscale.Fbvirtun
