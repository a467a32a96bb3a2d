import HyperDHT.Compact.Ipv4
import HyperDHT.Routing.NodeId

/-!
# RPC messages and peer ids

The two messages of the RPC layer (`messages.hpp`) as the rest of the program sees them once
they are decoded, the command numbers, and the id that belongs to an address (`rpc.cpp`,
`compute_peer_id`).

## Main definitions

* `Rpc.Request`, `Rpc.Response` — the messages.
* `Rpc.peerIdBytes`, `Rpc.computePeerId` — the six bytes of an address, and their digest.

## Main results

* `Rpc.peerIdBytes_injective` — different addresses have different bytes.

## Design

The digest function BLAKE2b is a parameter of everything that hashes.
-/

set_option autoImplicit false

namespace HyperDHT.Rpc

open Compact Routing

/-! ## Commands -/

/-- The commands of the base protocol, which carry the internal flag. -/
def cmdPing : UInt32 := 0
def cmdPingNat : UInt32 := 1
def cmdFindNode : UInt32 := 2
def cmdDownHint : UInt32 := 3
def cmdDelayedPing : UInt32 := 4

/-- The commands of connections and of the store, which do not carry it. -/
def cmdPeerHandshake : UInt32 := 0
def cmdPeerHolepunch : UInt32 := 1
def cmdFindPeer : UInt32 := 2
def cmdLookup : UInt32 := 3
def cmdAnnounce : UInt32 := 4
def cmdUnannounce : UInt32 := 5
def cmdMutablePut : UInt32 := 6
def cmdMutableGet : UInt32 := 7
def cmdImmutablePut : UInt32 := 8
def cmdImmutableGet : UInt32 := 9

/-- The errors of a request to store a mutable value. -/
def errSeqReused : UInt32 := 16
def errSeqTooLow : UInt32 := 17

/-! ## Messages -/

/-- A request. The address `toAddr` is that of the receiver. -/
structure Request where
  tid : UInt16 := 0
  toAddr : Ipv4Address
  id : Option NodeId := none
  token : Option (List.Vector UInt8 32) := none
  command : UInt32 := 0
  target : Option NodeId := none
  value : Option (List UInt8) := none
  internal : Bool := false
  deriving DecidableEq

/-- A response. The address `fromAddr`, which the wire calls `to`, is how the responder sees us. -/
structure Response where
  tid : UInt16 := 0
  fromAddr : Ipv4Address := Ipv4Address.zero
  id : Option NodeId := none
  token : Option (List.Vector UInt8 32) := none
  closerNodes : List Ipv4Address := []
  error : Option UInt32 := none
  value : Option (List UInt8) := none
  deriving DecidableEq

/-! ## Peer ids -/

/-- The four octets of an address and its port, low byte first. -/
def peerIdBytes (addr : Ipv4Address) : List UInt8 :=
  addr.host.toList ++ [UInt8.ofNat addr.port.toNat, UInt8.ofNat (addr.port.toNat / 256)]

/-- The id of an address: the digest of its six bytes. -/
def computePeerId (blake2b : List UInt8 → NodeId) (addr : Ipv4Address) : NodeId :=
  blake2b (peerIdBytes addr)

lemma peerIdBytes_injective : Function.Injective peerIdBytes := by
  intro a b h
  have hlen : a.host.toList.length = b.host.toList.length := by simp
  obtain ⟨hhost, hport⟩ := List.append_inj h hlen
  simp only [List.cons.injEq, and_true] at hport
  have hlow := congrArg UInt8.toNat hport.1
  have hhigh := congrArg UInt8.toNat hport.2
  simp only [UInt8.toNat_ofNat'] at hlow hhigh
  have ha : a.port.toNat < 2 ^ 16 := UInt16.toNat_lt _
  have hb : b.port.toNat < 2 ^ 16 := UInt16.toNat_lt _
  have hp : a.port = b.port := UInt16.toNat_inj.1 (by omega)
  have hh : a.host = b.host := List.Vector.eq _ _ hhost
  cases a
  cases b
  simp_all

end HyperDHT.Rpc
