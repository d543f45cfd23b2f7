import StreamUP.Protocol.HandshakeLaws

/-! Handshakes cut short and handshakes with bytes behind them: the parser on two lengths. -/

namespace StreamUP

open Machine Refinement Security BufferUtil

/-- A cipher count with room for its ids has it in a longer input, too. -/
theorem cipherCount_append {bytes behind : List Byte} {count : Nat}
    (counted : cipherCount bytes = some (count, behind)) (tail : List Byte) :
    cipherCount (bytes ++ tail) = some (count, behind ++ tail) := by
  -- More bytes never make the guard for the ids fail.
  simp only [cipherCount, Option.bind_eq_some_iff, Prod.exists, Option.ite_none_right_eq_some,
    Option.some.injEq, Prod.mk.injEq] at counted ⊢
  obtain ⟨_, _, decoded, room, rfl, rfl⟩ := counted
  refine ⟨_, _, countFormat.decode_append decoded tail, ?_, rfl, rfl⟩
  rw [List.length_append]
  omega

variable {self : Protocol} {bytes rest : List Byte}

/-- The key section reads the same keys from a longer input. -/
theorem keysMeaning_append {keys : KeyNegotiation}
    (meant : self.keysMeaning bytes = some (keys, rest)) (tail : List Byte) :
    self.keysMeaning (bytes ++ tail) = some (keys, rest ++ tail) := by
  -- The keys are a format, and the choice among them does not look at the bytes.
  obtain ⟨entries, read, chosen, supported⟩ := keysMeaning_eq_some.mp meant
  exact keysMeaning_eq_some.mpr ⟨entries, keySectionFormat.decode_append read tail, chosen,
    supported⟩

/-- The whole function reads the same handshake from a longer input. -/
theorem handshakeMeaning_append {handshake : Handshake}
    (meant : self.handshakeMeaning bytes = some (handshake, rest)) (tail : List Byte) :
    self.handshakeMeaning (bytes ++ tail) = some (handshake, rest ++ tail) := by
  -- Section by section, what follows is passed on.
  simp only [Protocol.handshakeMeaning, Option.bind_eq_some_iff, Prod.exists] at meant ⊢
  obtain ⟨versions, behind, decoded, count, left, counted, ending⟩ := meant
  refine ⟨versions, behind ++ tail, versionsFormat.decode_append decoded tail, count,
    left ++ tail, cipherCount_append counted tail, ?_⟩
  by_cases empty : count = 0
  · -- Without ciphers the flag decides, and nothing more is read.
    rw [if_pos empty] at ending ⊢
    split at ending
    · rename_i insecure
      rw [if_pos insecure]
      simp only [Option.some.injEq, Prod.mk.injEq] at ending
      obtain ⟨rfl, rfl⟩ := ending
      rfl
    · contradiction
  · rw [if_neg empty] at ending ⊢
    simp only [Option.map_eq_some_iff, Prod.exists, Prod.mk.injEq] at ending ⊢
    obtain ⟨keys, _, read, rfl, rfl⟩ := ending
    exact ⟨keys, _, keysMeaning_append read tail, rfl, rfl⟩

/-- What is accepted is accepted with bytes behind it, with the same result and the same cursor. -/
theorem accepted_append {data longer : DataArgument} {handshake : Handshake}
    {buffer : ReadBufferWrapper} {tail : List Byte}
    (accepted : self.acceptClientHandshake data = .ok (handshake, buffer))
    (extended : longer.bytes = data.bytes ++ tail) :
    ∃ behind, self.acceptClientHandshake longer = .ok (handshake, behind) ∧
      behind.getReadIndex = buffer.getReadIndex := by
  obtain ⟨⟨_, left⟩, meant, rfl, placed, same⟩ :=
    (acceptClientHandshake_follows self data).some_of_ok accepted
  have meant' := handshakeMeaning_append meant tail
  rw [← extended] at meant'
  obtain ⟨⟨_, behind⟩, accepted', rfl, placed', same'⟩ :=
    (acceptClientHandshake_follows self longer).ok_of_some meant'
  refine ⟨behind, accepted', ?_⟩
  -- Both cursors have left what they have not read, which differs by the bytes behind.
  have before := placed.readIndex_add
  have after := placed'.readIndex_add
  have total : buffer.length = data.bytes.length := congrArg List.length same
  have total' : behind.length = data.bytes.length + tail.length := by
    rw [← List.length_append, ← extended]
    exact congrArg List.length same'
  simp only [List.length_append] at before after
  simp only [ReadBufferWrapper.getReadIndex]
  omega

/--
The bytes that a handshake was read from decide it.

With fewer of them it is rejected by an early return, and what follows them does not matter.
-/
theorem acceptClientHandshake_decided {data : DataArgument} {handshake : Handshake}
    {buffer : ReadBufferWrapper}
    (accepted : self.acceptClientHandshake data = .ok (handshake, buffer)) :
    (∀ short : DataArgument, short.bytes <+: data.bytes →
        short.bytes.length < buffer.getReadIndex →
        ∃ result, self.acceptClientHandshake short = .error (.returned result)) ∧
      ∀ longer : DataArgument, data.bytes <+: longer.bytes →
        ∃ behind, self.acceptClientHandshake longer = .ok (handshake, behind) ∧
          behind.getReadIndex = buffer.getReadIndex := by
  constructor
  · intro short front cut
    obtain ⟨tail, extended⟩ := front
    cases ran : self.acceptClientHandshake short with
    | error stop =>
      -- The parser never faults, so it has returned early.
      have returns := (acceptClientHandshake_follows self short).admitted_of_error ran
      cases stop with
      | returned result => exact ⟨result, rfl⟩
      | fault fault => exact returns.elim
    | ok result =>
      -- A handshake read from the shorter input would be the one read from the longer one.
      obtain ⟨other, cursor⟩ := result
      obtain ⟨behind, accepted', moved⟩ := accepted_append ran extended.symm
      rw [accepted, Except.ok.injEq, Prod.mk.injEq] at accepted'
      obtain ⟨_, rfl⟩ := accepted'
      obtain ⟨_, _, _, placed, same⟩ := (acceptClientHandshake_follows self short).some_of_ok ran
      have inside : cursor.readIndex ≤ cursor.length := placed.inside
      have total : cursor.length = short.bytes.length := congrArg List.length same
      simp only [ReadBufferWrapper.getReadIndex] at moved cut
      omega
  · intro longer front
    obtain ⟨tail, extended⟩ := front
    exact accepted_append accepted extended.symm

/-- A hello without versions, with one cipher, one key of type 23, and some bytes behind it. -/
def helloAndMore (behind : List Byte) (few : behind.length ≤ 2) : DataArgument where
  bytes := [0, 1, 1, 23, 0, 0] ++ behind
  countable := by
    simp only [List.length_append, List.length_cons, List.length_nil, intMax]
    omega

/-- The beginning of it, with one byte missing. -/
def helloCut : DataArgument where
  bytes := [0, 1, 1, 23, 0]
  countable := by decide

/-- Six bytes of it decide the handshake: five are too few, and the eighth does not matter. -/
theorem helloAndMore_decided :
    ∃ handshake buffer, secureServer.acceptClientHandshake (helloAndMore [7] (Nat.le_succ 1))
        = .ok (handshake, buffer) ∧ buffer.getReadIndex = 6 ∧
      (∃ result, secureServer.acceptClientHandshake helloCut = .error (.returned result)) ∧
      ∃ behind, secureServer.acceptClientHandshake (helloAndMore [7, 9] (Nat.le_refl 2))
        = .ok (handshake, behind) ∧ behind.getReadIndex = 6 := by
  -- The id of the cipher is read as the count and the type of a key, which is of length zero.
  have decoded : versionsFormat.decode (helloAndMore [7] (Nat.le_succ 1)).bytes
      = some ([], [1, 1, 23, 0, 0, 7]) := by
    rfl
  have counted : cipherCount [1, 1, 23, 0, 0, 7] = some (1, [1, 23, 0, 0, 7]) := by rfl
  have read : keySectionFormat.decode [1, 23, 0, 0, 7] = some ([⟨23, []⟩], [7]) := by rfl
  have supported : secureServer.Supports ⟨23, []⟩ :=
    ⟨.secp256r1, by rfl, List.mem_singleton.mpr rfl⟩
  obtain ⟨buffer, accepted, index⟩ := acceptClientHandshake_of_keys secureServer decoded counted
    Nat.one_ne_zero read ⟨_, List.mem_singleton.mpr rfl, supported⟩
  have six : buffer.getReadIndex = 6 := Nat.add_right_cancel index
  have decided := acceptClientHandshake_decided accepted
  refine ⟨_, buffer, accepted, six, ?_, ?_⟩
  · apply decided.1 helloCut ⟨[0, 7], rfl⟩
    rw [six]
    exact Nat.lt_succ_self 5
  · obtain ⟨behind, accepted', moved⟩ := decided.2 (helloAndMore [7, 9] (Nat.le_refl 2)) ⟨[9], rfl⟩
    exact ⟨behind, accepted', moved.trans six⟩

end StreamUP
