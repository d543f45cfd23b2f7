import StreamUP.Foundation.Machine

/-! The cipher suites and key groups of `AuthEncryptionTypes.h`, and their numbers on the wire. -/

namespace StreamUP.Security

/-- `enum class CipherSuite`. -/
inductive CipherSuite where
  | tlsAes128GcmSha256
  | tlsAes256GcmSha384
  | tlsChacha20Poly1305Sha256
  deriving DecidableEq, Repr

/-- The value of an enumerator. -/
def CipherSuite.id : CipherSuite → Int
  -- The enumerators carry the values TLS 1.3 assigns to the suites.
  | .tlsAes128GcmSha256 => 0x1301
  | .tlsAes256GcmSha384 => 0x1302
  | .tlsChacha20Poly1305Sha256 => 0x1303

/-- The suite an id stands for; every other id is unknown. -/
def idToCipherSuite (id : Int) : Option CipherSuite :=
  -- The cases of the `switch`, the default being no suite.
  if id = 0x1301 then some .tlsAes128GcmSha256
  else if id = 0x1302 then some .tlsAes256GcmSha384
  else if id = 0x1303 then some .tlsChacha20Poly1305Sha256
  else none

/-- `enum class EphemeralKeyGroup`. -/
inductive EphemeralKeyGroup where
  | x448
  | x25519
  | secp384r1
  | secp256r1
  deriving DecidableEq, Repr

/-- Longest value of an ephemeral key: `1024 / sizeof(uint8_t)`. -/
def maxEphemeralKeyValueLength : Nat := 1024 / 1

/-- The group a key type stands for; every other type is unknown. -/
def getEphemeralKeyGroup (id : Int) : Option EphemeralKeyGroup :=
  -- The cases of the `switch`, the default being no group.
  if id = 30 then some .x448
  else if id = 29 then some .x25519
  else if id = 24 then some .secp384r1
  else if id = 23 then some .secp256r1
  else none

/-- The ids of suites are exactly the known ids. -/
theorem idToCipherSuite_eq_some {id : Int} {suite : CipherSuite} :
    idToCipherSuite id = some suite ↔ suite.id = id := by
  -- Each of the three ids stands for one suite, and no other id for any.
  unfold idToCipherSuite
  cases suite <;> simp only [CipherSuite.id] <;> split_ifs <;> simp <;> omega

/-- No suite has an id small enough to be the index of a cipher in a hello. -/
theorem idToCipherSuite_of_small {id : Nat} (small : id < 0x1301) : idToCipherSuite id = none := by
  -- The smallest id of a suite is 4865.
  unfold idToCipherSuite
  rw [if_neg (by omega), if_neg (by omega), if_neg (by omega)]

end StreamUP.Security
