import StreamUP.Protocol.AuthEncryptionTypes
import StreamUP.Protocol.Connection
import StreamUP.Protocol.SendPacketPool

/-! The protocol object of `Protocol.h`: the members its operations read and update. -/

namespace StreamUP

open Machine

/-- A received datagram: the bytes of `[buffer, buffer + length)`, counted by a `size_t`. -/
structure Packet where
  buffer : List Byte
  addressable : buffer.length < sizeCount

/-- The arguments `uint8_t *data, int length` of a call: as many bytes as an `int` can count. -/
structure DataArgument where
  bytes : List Byte
  countable : (bytes.length : Int) ≤ intMax

/-- What an `int` can count, a `size_t` can. -/
theorem DataArgument.addressable (data : DataArgument) : data.bytes.length < sizeCount := by
  -- Sizes are counted by a wider type than lengths.
  have bound := data.countable
  simp only [intMax, sizeCount] at bound ⊢
  omega

/-- The protocol object. An `SSL_CTX` or a key is known by its address, null being none. -/
structure Protocol where
  ctx : Option Nat
  identityPrivateKey : Option Nat
  identityPublicKey : Option Nat
  cipherSuitesAvailable : List Security.CipherSuite
  supportedEphemeralGroups : List Security.EphemeralKeyGroup
  allowInsecureConnections : Bool
  sendPacketPool : SendPacketPool
  connectionManager : ConnectionManager

namespace Protocol

/-- The members of a new object, given its context: an empty pool with margin 32, no connections. -/
def initial (ctx : Option Nat) (cipherSuitesAvailable : List Security.CipherSuite)
    (supportedEphemeralGroups : List Security.EphemeralKeyGroup)
    (privateKey publicKey : Option Nat) (allowInsecureConnections : Bool) : Protocol where
  -- The handlers are left out, as no operation here calls them.
  ctx := ctx
  identityPrivateKey := privateKey
  identityPublicKey := publicKey
  cipherSuitesAvailable := cipherSuitesAvailable
  supportedEphemeralGroups := supportedEphemeralGroups
  allowInsecureConnections := allowInsecureConnections
  sendPacketPool := .new 32
  connectionManager := .new

/--
`ephemeralGroupRank`: the position of the group in the server's list, or -1.

Lower ranks are preferred.
The code counts in an `int`, so lists of more groups than an `int` can count are left out.
-/
def ephemeralGroupRank (self : Protocol) (group : Security.EphemeralKeyGroup) : Int :=
  -- The first occurrence counts.
  match self.supportedEphemeralGroups.findIdx? (group == ·) with
  | some i => i
  | none => -1

/-- A rank is never below -1, and it is -1 exactly for the groups the server does not support. -/
theorem ephemeralGroupRank_eq_neg_one {self : Protocol} {group : Security.EphemeralKeyGroup} :
    self.ephemeralGroupRank group = -1 ↔ group ∉ self.supportedEphemeralGroups := by
  -- A position is never negative, so only the missing group has rank -1.
  unfold ephemeralGroupRank
  cases found : self.supportedEphemeralGroups.findIdx? (group == ·) with
  | none =>
    have absent := List.findIdx?_eq_none_iff.mp found
    simp only [true_iff]
    intro member
    simpa using absent group member
  | some i =>
    obtain ⟨inside, matched, _⟩ := List.findIdx?_eq_some_iff_getElem.mp found
    have member := List.getElem_mem inside
    rw [← eq_of_beq matched] at member
    simp [member]

end Protocol

/-- A new server with one suite and one group that requires secure connections. -/
def secureServer : Protocol :=
  .initial none [.tlsAes128GcmSha256] [.secp256r1] none none false

end StreamUP
