import StreamUP.Protocol.HandshakeLaws

/-! The cipher section against what the client sent: its suites, and where the cursor ends up. -/

namespace StreamUP

open Machine Refinement Security BufferUtil

/-- A hello up to its cipher section, and the bytes behind it. -/
structure CipherHello where
  versions : List Byte
  ciphers : List (BitVec 16)
  rest : List Byte
  fewVersions : versions.length < maxNumberNegotiables
  fewCiphers : ciphers.length < maxNumberNegotiables
  countable : ((versionsFormat.encode versions
    ++ (ciphersFormat.encode ciphers ++ rest)).length : Int) ≤ intMax

namespace CipherHello

/-- The bytes that arrive. -/
def data (hello : CipherHello) : DataArgument where
  bytes := versionsFormat.encode hello.versions
    ++ (ciphersFormat.encode hello.ciphers ++ hello.rest)
  countable := hello.countable

/--
The code negotiates what the client sent.

Behind the versions, the cipher section leaves the suites of the ids in their order, and the
cursor behind the ids.
-/
def Negotiated (hello : CipherHello) : Prop :=
  -- The section begins with the count, which takes up one byte.
  ∃ supVersions buffer cipherSuitesNegotiated behind,
    readSUPVersions (.new hello.data.bytes) = .ok (supVersions, buffer) ∧
    readCipherSuites buffer = .ok ((hello.ciphers.length, cipherSuitesNegotiated), behind) ∧
    cipherSuitesNegotiated = hello.ciphers.filterMap (fun id => idToCipherSuite id.toNat) ∧
    behind.getReadIndex = buffer.getReadIndex + 1 + 2 * hello.ciphers.length

/-- The versions are read as they were sent. -/
theorem decode_versions (hello : CipherHello) :
    versionsFormat.decode hello.data.bytes
      = some (hello.versions, ciphersFormat.encode hello.ciphers ++ hello.rest) :=
  -- Every byte is a version.
  versionsFormat.decode_encode _ _ ⟨hello.fewVersions, fun _ _ => trivial⟩

/-- The ciphers are counted as they were sent. -/
theorem cipherCount_eq (hello : CipherHello) :
    ∃ behind, cipherCount (ciphersFormat.encode hello.ciphers ++ hello.rest)
      = some (hello.ciphers.length, behind) := by
  have decoded := ciphersFormat.decode_encode hello.ciphers hello.rest
    ⟨hello.fewCiphers, fun _ _ => trivial⟩
  -- The format reads the count, and then as many ids.
  rw [decode_ciphers] at decoded
  simp only [Option.map_eq_some_iff, Prod.exists, Prod.mk.injEq] at decoded
  obtain ⟨count, behind, counted, ids, _⟩ := decoded
  refine ⟨behind, ?_⟩
  rw [counted, ← ids]
  simp [cipherIds]

/-- The cipher section leaves no suites, and the cursor right behind the count. -/
theorem readCipherSuites_eq (hello : CipherHello) :
    ∃ buffer behind, readSUPVersions (.new hello.data.bytes) = .ok (hello.versions, buffer) ∧
      readCipherSuites buffer = .ok ((hello.ciphers.length, []), behind) ∧
      behind.readIndex = buffer.readIndex + 1 := by
  have placed := ReadBufferWrapper.positioned_new hello.data.addressable
  obtain ⟨⟨versions, buffer⟩, ran, rfl, placed, same⟩ :=
    (readSUPVersions_follows placed).ok_of_some hello.decode_versions
  obtain ⟨left, counted⟩ := hello.cipherCount_eq
  obtain ⟨⟨_, behind⟩, ran', rfl, placed', same'⟩ :=
    (readCipherSuites_follows placed).ok_of_some counted
  refine ⟨buffer, behind, ran, ran', ?_⟩
  -- Both cursors are known by the bytes they have left to read.
  have before := placed.readIndex_add
  have after := placed'.readIndex_add
  have one := (length_of_cipherCount counted).1
  have total : behind.length = buffer.length := congrArg List.length same'
  simp only at before after
  omega

/-- The ciphers of a hello are negotiated as they were sent exactly when there are none. -/
theorem negotiated_iff (hello : CipherHello) : hello.Negotiated ↔ hello.ciphers = [] := by
  obtain ⟨buffer, behind, ran, ran', moved⟩ := hello.readCipherSuites_eq
  constructor
  · intro negotiated
    obtain ⟨_, other, _, behind', again, again', _, passed⟩ := negotiated
    -- The code has one result, and its cursor has not passed any id.
    rw [ran, Except.ok.injEq, Prod.mk.injEq] at again
    obtain ⟨_, rfl⟩ := again
    rw [ran', Except.ok.injEq, Prod.mk.injEq] at again'
    obtain ⟨_, rfl⟩ := again'
    simp only [ReadBufferWrapper.getReadIndex] at passed
    have none : hello.ciphers.length = 0 := by omega
    exact List.length_eq_zero_iff.mp none
  · intro empty
    refine ⟨_, buffer, [], behind, ran, ran', ?_, ?_⟩
    · rw [empty]
      rfl
    · rw [empty]
      exact moved

/-- A hello that offers the suite 0x1301. -/
def offeringOne : CipherHello where
  versions := []
  ciphers := [0x1301]
  rest := []
  fewVersions := by decide
  fewCiphers := by decide
  countable := by decide

/-- The suite that is offered is not negotiated, and the cursor stays in front of its id. -/
theorem offeringOne_not_negotiated : ¬ offeringOne.Negotiated := by
  -- The list that the code builds is empty, where it should have one suite.
  intro negotiated
  obtain ⟨_, _, _, _, ran, ran', suites, _⟩ := negotiated
  cases ran
  cases ran'
  contradiction

end CipherHello

end StreamUP
