import StreamUP.Foundation.Family
import StreamUP.Protocol.PoolHistories

/-! What a packet holds: the calls made on it, and nothing else that happens around it. -/

namespace StreamUP

open Fallible Machine BufferUtil

/-- What a client does to a packet in its hands. -/
inductive PacketAction (Address : Type) where
  | write (t : Arithmetic) (value : t.Value)
  | writeFromArray (src : List Byte) (numBytes : Int)
  | setWriteIndex (index : Int)
  | setAddress (address : Address)

namespace SendPacket

variable {Address : Type}

/-- The packet after its holder has acted on it. -/
def act (host : Endian) (packet : SendPacket Address) :
    PacketAction Address → Except Fault (SendPacket Address)
  | .write t value => do
    let (_, data) ← packet.data.write host t value
    return { packet with data }
  | .writeFromArray src numBytes => do
    let data ← packet.data.writeFromArray src numBytes
    return { packet with data }
  | .setWriteIndex index => .ok { packet with data := packet.data.setWriteIndex index }
  | .setAddress address => .ok { packet with address }

/-- The constructor has made the packet, of some size. -/
def Fresh [Inhabited Address] (packet : SendPacket Address) : Prop :=
  ∃ size, intMin ≤ size ∧ size ≤ intMax ∧ new size = .ok packet

end SendPacket

/-- The packet a call changes, and how; calls of the pool change none. -/
def PoolCall.target {Address : Type} : PoolCall Address → Option (Nat × PacketAction Address)
  | .write packet t value => some (packet, .write t value)
  | .writeFromArray packet src numBytes => some (packet, .writeFromArray src numBytes)
  | .setWriteIndex packet index => some (packet, .setWriteIndex index)
  | .setAddress packet address => some (packet, .setAddress address)
  | .addClassSize _ | .getSendPacket _ | .releaseSendPacket _ | .destroy _ => none

namespace PoolState

variable {Address : Type} {state next : PoolState Address}

/-- A client changes a packet that it holds, and nothing else. -/
theorem touch_ok {packet : Nat}
    {change : SendPacket Address → Except Fault (SendPacket Address)}
    (touched : state.touch packet change = .ok next) :
    ∃ pkt changed, packet ∈ state.held ∧ state.heap[packet]? = some pkt ∧
      change pkt = .ok changed ∧ next = { state with heap := state.heap.set packet changed } := by
  unfold touch at touched
  split at touched
  · contradiction
  · rename_i pkt there
    split at touched
    · rename_i holds
      simp only [bind_eq_ok, pure_eq_ok, Except.ok.injEq] at touched
      obtain ⟨changed, made, rfl⟩ := touched
      exact ⟨pkt, changed, holds, there, made, rfl⟩
    · contradiction

variable [Inhabited Address]

/-- A call on a packet is made by its holder, and changes that packet alone. -/
theorem step_of_target {host : Endian} {call : PoolCall Address} {packet : Nat}
    {action : PacketAction Address} (aimed : call.target = some (packet, action))
    (stepped : state.step host call = .ok next) :
    ∃ pkt changed, packet ∈ state.held ∧ state.heap[packet]? = some pkt ∧
      pkt.act host action = .ok changed ∧
      next = { state with heap := state.heap.set packet changed } := by
  -- The four calls on packets are the four actions.
  cases call with
  | write packet t value =>
    cases aimed
    exact touch_ok stepped
  | writeFromArray packet src numBytes =>
    cases aimed
    exact touch_ok stepped
  | setWriteIndex packet index =>
    cases aimed
    exact touch_ok stepped
  | setAddress packet address =>
    cases aimed
    exact touch_ok stepped
  | addClassSize bufferSize => contradiction
  | getSendPacket bufferSize => contradiction
  | releaseSendPacket packet => contradiction
  | destroy packet => contradiction

/-- All other calls leave the packets as they are, and may add a new one. -/
theorem step_of_no_target {host : Endian} {call : PoolCall Address} (unaimed : call.target = none)
    (stepped : state.step host call = .ok next) :
    ∃ born, next.heap = state.heap ++ born ∧ ∀ pkt ∈ born, pkt.Fresh := by
  have unchanged : ∃ born : List (SendPacket Address),
      state.heap = state.heap ++ born ∧ ∀ pkt ∈ born, pkt.Fresh :=
    ⟨[], by rw [List.append_nil], fun _ member => absurd member List.not_mem_nil⟩
  cases call with
  | addClassSize bufferSize =>
    cases stepped
    exact unchanged
  | getSendPacket bufferSize =>
    simp only [step] at stepped
    split at stepped
    · rename_i packet heap pool handed
      cases stepped
      rcases SendPacketPool.getSendPacket_cases handed with reused | allocated
      · obtain ⟨classSize, vec, _, rfl, _⟩ := reused
        exact unchanged
      · -- Only here is a packet made.
        obtain ⟨size, made, _⟩ := allocated
        obtain ⟨pkt, fresh, _, rfl⟩ := SendPacketPool.makeUnique_ok made
        refine ⟨[pkt], rfl, fun other member => ?_⟩
        rw [List.mem_singleton.mp member]
        exact ⟨toInt size, (toInt_mem size).1, (toInt_mem size).2, fresh⟩
    · cases stepped
      exact unchanged
  | releaseSendPacket packet =>
    cases packet with
    | none =>
      cases stepped
      exact unchanged
    | some packet =>
      simp only [step, bind_eq_ok, pure_eq_ok, Except.ok.injEq] at stepped
      obtain ⟨held, _, rfl⟩ := stepped
      exact unchanged
  | destroy packet =>
    simp only [step, bind_eq_ok, pure_eq_ok, Except.ok.injEq] at stepped
    obtain ⟨held, _, rfl⟩ := stepped
    exact unchanged
  | write packet t value => contradiction
  | writeFromArray packet src numBytes => contradiction
  | setWriteIndex packet index => contradiction
  | setAddress packet address => contradiction

/-- The packets of a pool are members that act on their own. -/
theorem packets_members (host : Endian) :
    Family.Members (step host) (fun state : PoolState Address => state.heap) (SendPacket.act host)
      PoolCall.target SendPacket.Fresh where
  acts := by
    intro state call next packet action aimed stepped
    obtain ⟨pkt, changed, _, there, acted, rfl⟩ := step_of_target aimed stepped
    exact ⟨pkt, changed, there, acted, rfl⟩
  grows := fun _ _ _ unaimed stepped => step_of_no_target unaimed stepped

end PoolState

end StreamUP
