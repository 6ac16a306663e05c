import Peerscale.Fbvirtun.Writers
import Peerscale.Foundation.NetText

/-! # The TUN read loop

`tunReadLoop` reads one packet after the other into one buffer, decides by the destination what
becomes of it, and answers from the same buffer or with packets of its own.
-/

namespace Peerscale.Fbvirtun

def v4InV6Prefix : Bytes := List.replicate 10 0 ++ [0xff, 0xff]

/-- `net.IP.To4`. -/
def to4 (ip : Bytes) : Option Bytes :=
  if ip.length = 4 then some ip
  else if ip.length = 16 ∧ ip.take 12 = v4InV6Prefix then some (ip.drop 12)
  else none

/-- `net.IP.Equal`: an IPv4 address is equal to itself in the form of an IPv6 address. -/
def equalIP (ip other : Bytes) : Bool :=
  if ip.length = other.length then ip = other
  else if ip.length = 4 ∧ other.length = 16 then v4InV6Prefix ++ ip = other
  else if ip.length = 16 ∧ other.length = 4 then ip = v4InV6Prefix ++ other
  else false

/-- `net.IP.String`. -/
def ipString (ip : Bytes) : GoString :=
  match to4 ip with
  | some ip4 => ipv4Text ip4
  | none => ipv6Text ip

def ipv4bcast : Bytes := v4InV6Prefix ++ [255, 255, 255, 255]

def isMulticast (ip : Bytes) : Bool :=
  match to4 ip with
  | some ip4 => ip4.getD 0 0 &&& 0xf0 = 0xe0
  | none => ip.length = 16 ∧ ip.getD 0 0 = 0xff

def isLoopback (ip : Bytes) : Bool :=
  match to4 ip with
  | some ip4 => ip4.getD 0 0 = 127
  | none => ip = List.replicate 15 0 ++ [1]

def isLinkLocalUnicast (ip : Bytes) : Bool :=
  match to4 ip with
  | some ip4 => ip4.getD 0 0 = 169 ∧ ip4.getD 1 0 = 254
  | none => ip.length = 16 ∧ ip.getD 0 0 = 0xfe ∧ ip.getD 1 0 &&& 0xc0 = 0x80

/-- What the loop knows of its host: the system and its own addresses. An address that was not
configured is empty. -/
structure Config where
  darwin : Bool
  localIP : Bytes
  localIP6 : Bytes

structure Header where
  version : Nat
  src : Bytes
  dst : Bytes
  proto : UInt8
  ihl : Nat
  deriving DecidableEq

inductive Route
  | hairpin
  | forward
  /-- Broadcast, multicast, loopback and link-local packets are only logged. -/
  | logged
  | handled
  deriving DecidableEq

/-- Where the packet goes while the addresses in `peerIPMap` are those of peers. -/
def route (config : Config) (peerIPMap : List (GoString × GoString)) (header : Header) : Route :=
  if equalIP header.dst config.localIP ∨
      (config.localIP6 ≠ [] ∧ equalIP header.dst config.localIP6) then .hairpin
  else if (peerIPMap.lookup (ipString header.dst)).isSome then .forward
  else if header.version = 4 ∧ equalIP header.dst ipv4bcast then .logged
  else if header.version = 6 ∧ isMulticast header.dst then .logged
  else if isLoopback header.dst then .logged
  else if isLinkLocalUnicast header.dst then .logged
  else .handled

/-- The packets of other versions and those without a whole header are skipped. -/
def readHeader (pkt : Slice) : InBuffer (Option Header) := do
  let first ← pkt.get 0
  let version := first.toNat / 16
  if version = 4 then
    if pkt.length < 20 then return none
    let src ← (← pkt.sub 12 16).bytes
    let dst ← (← pkt.sub 16 20).bytes
    let proto ← pkt.get 9
    return some ⟨version, src, dst, proto, first.toNat % 16 * 4⟩
  else if version = 6 then
    if pkt.length < 40 then return none
    let src ← (← pkt.sub 8 24).bytes
    let dst ← (← pkt.sub 24 40).bytes
    let proto ← pkt.get 6
    return some ⟨version, src, dst, proto, 40⟩
  else return none

def isTCPorUDP (proto : UInt8) : Bool := proto = 6 || proto = 17

def parsePorts (pkt : Slice) (ihl : Nat) : InBuffer (Nat × Nat) := do
  if pkt.length < ihl + 4 then return (0, 0)
  let sport ← (← pkt.dropFirst ihl).unsigned 2
  let dport ← (← pkt.dropFirst (ihl + 2)).unsigned 2
  return (sport, dport)

def icmpTypeStr (pkt : Slice) (ihl : Nat) : InBuffer (Option UInt8) := do
  if pkt.length < ihl + 1 then return none
  return some (← pkt.get ihl)

inductive Dialing
  | noPeer
  | reached
  | deadline
  | refused
  | failed
  deriving DecidableEq

def writeTunBuf : InBuffer Bytes := get

def answerEcho4 (dialing : Dialing) (pkt : Slice) (ihl : Nat) : InBuffer Unit :=
  match dialing with
  | .noPeer => writeICMPDestUnreach4 pkt ihl 1
  | .reached => writeICMPEchoReply4 pkt ihl
  | .deadline => writeICMPTimeExceed4 pkt ihl 1
  | .refused => writeICMPDestUnreach4 pkt ihl 3
  | .failed => writeICMPDestUnreach4 pkt ihl 1

def handleICMP4 (dialing : Dialing) (pkt : Slice) (ihl : Nat) : InBuffer (Option Bytes) := do
  let icmp ← pkt.dropFirst ihl
  if icmp.length < 8 then return none
  if (← icmp.get 0) ≠ 8 then return none
  answerEcho4 dialing pkt ihl
  return some (← writeTunBuf)

def answerEcho6 (dialing : Dialing) (pkt : Slice) : InBuffer Unit :=
  match dialing with
  | .noPeer => writeICMPDestUnreach6 pkt 3
  | .reached => writeICMPEchoReply6 pkt
  | .deadline => writeICMPTimeExceed6 pkt 1
  | .refused => writeICMPDestUnreach6 pkt 4
  | .failed => writeICMPDestUnreach6 pkt 3

def handleICMP6 (dialing : Dialing) (pkt : Slice) : InBuffer (Option Bytes) := do
  if pkt.length < 48 then return none
  if (← pkt.get 40) ≠ 128 then return none
  answerEcho6 dialing pkt
  return some (← writeTunBuf)

/-- The part of `vtcp` that is used here: a segment is marshalled with its whole header. -/
structure Vtcp extends Softun.Parser where
  marshal : Softun.Segment → Bytes
  header : ∀ segment, 20 ≤ (marshal segment).length

structure TcpKey where
  srcIP : Bytes
  srcPort : Nat
  dstIP : Bytes
  dstPort : Nat
  deriving DecidableEq

/-- How the packet finds the rest of the system: the addresses of peers, how a dial for it ends,
the connections that exist with whether their remote address is not nil, and the segments that a
connection sends at once. -/
structure Outcome where
  peerIPMap : List (GoString × GoString)
  dialing : Dialing
  tcpConns : TcpKey → Option Bool
  bridged : Bool
  flushed : List Softun.Segment

def sealSegment (psum : Nat) (tcpSeg : Bytes) : Except Panic Bytes :=
  if tcpSeg.length < 18 then .error (.slice 16 18 tcpSeg.length)
  else
    let cleared := overwrite tcpSeg 16 [0, 0]
    .ok (overwrite cleared 16 (bigEndian 2 (onesComplementSumFold cleared psum)))

def buildPacket4 (srcIP dstIP tcpSeg : Bytes) : Except Panic Bytes := do
  let cleared := [0x45, 0] ++ bigEndian 2 (20 + tcpSeg.length) ++ [0, 0, 0, 0, 64, 6, 0, 0] ++
    srcIP ++ dstIP
  let ip := overwrite cleared 10 (bigEndian 2 (onesComplementSum cleared))
  let tcp ← sealSegment (pseudoChecksum srcIP dstIP 6 (tcpSeg.length % 2 ^ 16)) tcpSeg
  return ip ++ tcp

def buildPacket6 (srcIP dstIP tcpSeg : Bytes) : Except Panic Bytes := do
  let ip := [0x60, 0, 0, 0] ++ bigEndian 2 tcpSeg.length ++ [6, 64] ++ srcIP ++ dstIP
  let tcp ← sealSegment (pseudoChecksum6 srcIP dstIP 6 (tcpSeg.length % 2 ^ 16)) tcpSeg
  return ip ++ tcp

def writeTun (pkt : Bytes) : Bytes := pkt.take bufferSize

def resetSegment (tcp : Slice) : InBuffer Softun.Segment := do
  let flags ← tcp.get 13
  let srcPort ← (← tcp.sub 2 4).unsigned 2
  let dstPort ← (← tcp.sub 0 2).unsigned 2
  if flags &&& Softun.flagACK ≠ 0 then
    let seq ← (← tcp.sub 8 12).unsigned 4
    return ⟨srcPort, dstPort, seq, 0, Softun.flagRST, []⟩
  else
    let dataOff := (← tcp.get 12).toNat / 16 * 4
    let dataLen := tcp.length + 2 ^ 32 - dataOff + (if flags &&& 1 ≠ 0 then 1 else 0)
    let seq ← (← tcp.sub 4 8).unsigned 4
    return ⟨srcPort, dstPort, 0, (seq + dataLen) % 2 ^ 32, Softun.flagRST ||| Softun.flagACK, []⟩

section

variable (vtcp : Vtcp) (outcome : Outcome)

def sendReset (build : Bytes → Except Panic Bytes) (tcp : Slice) : InBuffer (List Bytes) := do
  let segment ← resetSegment tcp
  return [writeTun (← build (vtcp.marshal segment))]

def sendRST4 (tcp : Slice) (srcIP dstIP : Bytes) : InBuffer (List Bytes) :=
  sendReset vtcp (buildPacket4 dstIP srcIP) tcp

def sendRST6 (tcp : Slice) (srcIP dstIP : Bytes) : InBuffer (List Bytes) :=
  sendReset vtcp (buildPacket6 dstIP srcIP) tcp

/-- What the connection sends, in packets with the addresses in the other direction. -/
def flush (build : Bytes → Except Panic Bytes) : InBuffer (List Bytes) :=
  outcome.flushed.mapM fun segment => do return writeTun (← build (vtcp.marshal segment))

/-- A segment that cannot be parsed is logged with the remote address. -/
def feedTCP (addressed : Bool) (tcp : Slice) (sent : InBuffer (List Bytes)) :
    InBuffer (List Bytes) := do
  match vtcp.parseSegment (← tcp.bytes) with
  | some _ => sent
  | none => if addressed then return [] else throw .nilDereference

/-- A segment is for the connection that exists or for a new one, or it is reset. -/
def answerTCP (key : TcpKey) (tcp : Slice) (flags : UInt8) (sent reset : InBuffer (List Bytes)) :
    InBuffer (List Bytes) :=
  match outcome.tcpConns key with
  | some addressed => feedTCP vtcp addressed tcp sent
  | none =>
    if flags &&& Softun.flagSYN = 0 then reset
    else if outcome.bridged then sent
    else reset

def tcpKeyFrom4 (pkt : Slice) (ihl : Nat) (srcIP dstIP : Bytes) : InBuffer TcpKey := do
  let srcPort ← (← pkt.dropFirst ihl).unsigned 2
  let dstPort ← (← pkt.dropFirst (ihl + 2)).unsigned 2
  return ⟨srcIP, srcPort, dstIP, dstPort⟩

def handleTCP4 (pkt : Slice) (ihl : Nat) (srcIP dstIP : Bytes) : InBuffer (List Bytes) := do
  let tcp ← pkt.dropFirst ihl
  if tcp.length < 20 then return []
  let flags ← tcp.get 13
  let key ← tcpKeyFrom4 pkt ihl srcIP dstIP
  answerTCP vtcp outcome key tcp flags (flush vtcp outcome (buildPacket4 dstIP srcIP))
    (sendRST4 vtcp tcp srcIP dstIP)

def handleTCP6 (pkt : Slice) (srcIP dstIP : Bytes) : InBuffer (List Bytes) := do
  let tcp ← pkt.dropFirst 40
  if tcp.length < 20 then return []
  let flags ← tcp.get 13
  let srcPort ← (← tcp.sub 0 2).unsigned 2
  let dstPort ← (← tcp.sub 2 4).unsigned 2
  answerTCP vtcp outcome ⟨srcIP, srcPort, dstIP, dstPort⟩ tcp flags
    (flush vtcp outcome (buildPacket6 dstIP srcIP)) (sendRST6 vtcp tcp srcIP dstIP)

end

def datagramAt (offset : Nat) (pkt : Slice) : InBuffer (Option (Nat × Nat × Bytes)) := do
  let udp ← pkt.dropFirst offset
  if udp.length < 8 then return none
  let srcPort ← (← udp.sub 0 2).unsigned 2
  let dstPort ← (← udp.sub 2 4).unsigned 2
  return some (srcPort, dstPort, ← (← udp.dropFirst 8).bytes)

def handleUDP4 (pkt : Slice) (ihl : Nat) : InBuffer (Option (Nat × Nat × Bytes)) :=
  datagramAt ihl pkt

def handleUDP6 (pkt : Slice) : InBuffer (Option (Nat × Nat × Bytes)) := datagramAt 40 pkt

inductive Answer
  | silent
  | inPlace (buffer : Bytes)
  | packets (packets : List Bytes)
  deriving DecidableEq

section

variable (config : Config) (vtcp : Vtcp) (outcome : Outcome) (header : Header) (pkt : Slice)

def completeChecksums : InBuffer Unit := do
  if config.darwin ∧ header.version = 4 ∧ isTCPorUDP header.proto then
    fixIPChecksum pkt
    if header.proto = 6 then fixTCPChecksum pkt header.ihl else fixUDPChecksum pkt header.ihl

def hairpin : InBuffer Answer := do
  completeChecksums config header pkt
  return .inPlace (← writeTunBuf)

def forward : InBuffer Answer := do
  if isTCPorUDP header.proto then
    let _ ← parsePorts pkt header.ihl
  return .silent

def answerICMP (handler : InBuffer (Option Bytes)) : InBuffer Answer := do
  match ← handler with
  | some buffer => return .inPlace buffer
  | none =>
    let _ ← icmpTypeStr pkt header.ihl
    return .silent

def handleProtocol : InBuffer Answer := do
  if header.proto = 1 then
    if header.version = 4 then
      answerICMP header pkt (handleICMP4 outcome.dialing pkt header.ihl)
    else return .silent
  else if header.proto = 6 then
    let _ ← parsePorts pkt header.ihl
    if header.version = 4 then
      return .packets (← handleTCP4 vtcp outcome pkt header.ihl header.src header.dst)
    else return .packets (← handleTCP6 vtcp outcome pkt header.src header.dst)
  else if header.proto = 17 then
    let _ ← parsePorts pkt header.ihl
    if header.version = 4 then
      let _ ← handleUDP4 pkt header.ihl
      return .silent
    else
      let _ ← handleUDP6 pkt
      return .silent
  else if header.proto = 58 then
    answerICMP header pkt (handleICMP6 outcome.dialing pkt)
  else return .silent

def handlePacket : InBuffer Answer :=
  match route config outcome.peerIPMap header with
  | .hairpin => hairpin config header pkt
  | .forward => forward header pkt
  | .logged => pure .silent
  | .handled => handleProtocol vtcp outcome header pkt

end

structure Arrival where
  data : Bytes
  outcome : Outcome
  fits : data.length ≤ bufferSize

section

variable (config : Config) (vtcp : Vtcp)

def receive (data : Bytes) : InBuffer Unit := fun buffer => .ok ((), overwrite buffer 0 data)

def iteration (arrival : Arrival) : InBuffer Answer := do
  receive arrival.data
  match ← readHeader (packet arrival.data.length) with
  | none => return .silent
  | some header => handlePacket config vtcp arrival.outcome header (packet arrival.data.length)

def iterations : List Arrival → InBuffer (List Answer)
  | [] => pure []
  | arrival :: arrivals => do
      let answer ← iteration config vtcp arrival
      return answer :: (← iterations arrivals)

def tunReadLoop (arrivals : List Arrival) : Except Panic (List Answer × Bytes) :=
  iterations config vtcp arrivals (List.replicate bufferSize 0)

end

end Peerscale.Fbvirtun
