import StreamUP.Data.ReadBufferWrapper
import StreamUP.Protocol.ClientHello
import StreamUP.Protocol.Protocol

/-! `Protocol::acceptClientHandshake`: the parser of a client hello, guard by guard. -/

namespace StreamUP

open Machine Refinement Security BufferUtil

/-- What the function returns when it does not run to its end. -/
inductive AcceptClientHandshakeResult where
  | illFormedHandshake
  | secureConnectionRequired
  /-- A `return` without a result. -/
  | noResult
  deriving DecidableEq, Repr

/-- The parser's sections end with a result, or stop the whole function early. -/
abbrev Parser : Type → Type := Except (Stop AcceptClientHandshakeResult)

/-- The variables of the ephemeral key section. -/
structure KeyNegotiation where
  keyGroupRank : Int
  /-- Uninitialised until a group is chosen. -/
  choosenKeyGroup : Option EphemeralKeyGroup
  /-- The array, uninitialised where no key has been copied. -/
  ephemeralKey : List (Option Byte)
  /-- Record of the keys read so far, which the code does not keep. -/
  entries : List KeyEntry
  deriving DecidableEq, Repr

/-- The variables at their declarations. -/
def KeyNegotiation.start : KeyNegotiation where
  -- The rank -1 stands for no group at all.
  keyGroupRank := -1
  choosenKeyGroup := none
  ephemeralKey := List.replicate maxEphemeralKeyValueLength none
  entries := []

/-- The variables in scope when the function runs to its end. -/
structure Handshake where
  supVersions : List Byte
  cipherSuitesNegotiated : List CipherSuite
  /-- The key section, entered only when the client counts some ciphers. -/
  keys : Option KeyNegotiation
  deriving DecidableEq, Repr

/-- The keys the function read, none when it did not enter the key section. -/
def Handshake.entries (handshake : Handshake) : List KeyEntry :=
  handshake.keys.elim [] KeyNegotiation.entries

/-- `buffer.read(supVersions[i])`. -/
def readSUPVersion (i : Nat) (state : List Byte × ReadBufferWrapper) :
    Parser (List Byte × ReadBufferWrapper) := do
  -- The vector has as many slots as the loop has rounds.
  let (value, buffer) ← state.2.readUInt8
  let supVersions ← storeAt state.1 i value
  return (supVersions, buffer)

/-- The version section: a count below the bound, and that many version bytes. -/
def readSUPVersions (buffer : ReadBufferWrapper) : Parser (List Byte × ReadBufferWrapper) := do
  -- Each count is read behind a guard for it and in front of a guard for what it counts.
  require (← buffer.checkReadableBytes 1) .illFormedHandshake
  let (numSUPVersions, buffer) ← buffer.readUInt8
  require (numSUPVersions.toNat < maxNumberNegotiables) .illFormedHandshake
  require (← buffer.checkReadableBytes (1 * numSUPVersions.toNat)) .illFormedHandshake
  forLoop readSUPVersion numSUPVersions.toNat (List.replicate numSUPVersions.toNat 0, buffer)

/-- One round of the cipher loop, which looks up its own index and leaves the buffer alone. -/
def negotiateCipherSuite (i : Nat) (state : List CipherSuite × ReadBufferWrapper) :
    Parser (List CipherSuite × ReadBufferWrapper) :=
  -- The two bytes of the id are never read.
  match idToCipherSuite i with
  | none => .ok state
  | some cipher => .ok (state.1 ++ [cipher], state.2)

/-- The cipher section: a count below the bound, room for that many ids, and the cipher loop. -/
def readCipherSuites (buffer : ReadBufferWrapper) :
    Parser ((Nat × List CipherSuite) × ReadBufferWrapper) := do
  -- The guard asks for the bytes of the ids, but the loop leaves the cursor in front of them.
  require (← buffer.checkReadableBytes 1) .illFormedHandshake
  let (numCipherSuites, buffer) ← buffer.readUInt8
  require (numCipherSuites.toNat < maxNumberNegotiables) .illFormedHandshake
  require (← buffer.checkReadableBytes (2 * numCipherSuites.toNat)) .illFormedHandshake
  let (cipherSuitesNegotiated, buffer) ←
    forLoop negotiateCipherSuite numCipherSuites.toNat ([], buffer)
  return ((numCipherSuites.toNat, cipherSuitesNegotiated), buffer)

namespace Protocol

/-- The rest of a round of the key loop, once the key has been copied: choose its group or not. -/
def considerKeyGroup (self : Protocol) (keys : KeyNegotiation) (ephemeralKeyTypeInt : Byte) :
    KeyNegotiation :=
  -- A lower rank wins, and among equal ranks the first key.
  match getEphemeralKeyGroup ephemeralKeyTypeInt.toNat with
  | none => keys
  | some group =>
    let rank := self.ephemeralGroupRank group
    if rank = -1 then keys
    else if keys.keyGroupRank = -1 ∨ rank < keys.keyGroupRank then
      { keys with keyGroupRank := rank, choosenKeyGroup := some group }
    else keys

/-- One round of the key loop. The key is copied before its group is looked at. -/
def readEphemeralKey (self : Protocol) (_ : Nat) (state : KeyNegotiation × ReadBufferWrapper) :
    Parser (KeyNegotiation × ReadBufferWrapper) := do
  -- From here on the early returns of the function give no result.
  require (← state.2.checkReadableBytes (1 + 2)) .noResult
  let (ephemeralKeyTypeInt, buffer) ← state.2.readUInt8
  let (ephemeralKeyLength, buffer) ← buffer.readUInt16
  require (ephemeralKeyLength.toNat ≤ maxEphemeralKeyValueLength) .noResult
  require (← buffer.checkReadableBytes ephemeralKeyLength.toNat) .noResult
  let (ephemeralKey, buffer) ← buffer.readToArray state.1.ephemeralKey ephemeralKeyLength.toNat
  let entry := ⟨ephemeralKeyTypeInt, (ephemeralKey.take ephemeralKeyLength.toNat).reduceOption⟩
  let keys := { state.1 with ephemeralKey, entries := state.1.entries ++ [entry] }
  return (self.considerKeyGroup keys ephemeralKeyTypeInt, buffer)

/-- The key section: a count below the bound, the key loop, and a group that must be chosen. -/
def readEphemeralKeys (self : Protocol) (buffer : ReadBufferWrapper) :
    Parser (KeyNegotiation × ReadBufferWrapper) := do
  -- A rank still at -1 means that no key is of a supported group.
  require (← buffer.checkReadableBytes 1) .noResult
  let (numClientEphemeralKeys, buffer) ← buffer.readUInt8
  require (numClientEphemeralKeys.toNat < maxNumberNegotiables) .noResult
  let (keys, buffer) ←
    forLoop self.readEphemeralKey numClientEphemeralKeys.toNat (.start, buffer)
  require (keys.keyGroupRank ≠ -1) .noResult
  return (keys, buffer)

/-- `acceptClientHandshake`: its variables and its cursor at the end, or how it left early. -/
def acceptClientHandshake (self : Protocol) (data : DataArgument) :
    Parser (Handshake × ReadBufferWrapper) := do
  -- The policy looks at the count of the ciphers, not at what was negotiated.
  let buffer := ReadBufferWrapper.new data.bytes
  let (supVersions, buffer) ← readSUPVersions buffer
  let ((numCipherSuites, cipherSuitesNegotiated), buffer) ← readCipherSuites buffer
  require (!(numCipherSuites == 0 && !self.allowInsecureConnections)) .secureConnectionRequired
  if numCipherSuites ≠ 0 then
    let (keys, buffer) ← self.readEphemeralKeys buffer
    return (⟨supVersions, cipherSuitesNegotiated, some keys⟩, buffer)
  return (⟨supVersions, cipherSuitesNegotiated, none⟩, buffer)

end Protocol

end StreamUP
