import StreamUP.Foundation.Overlay
import StreamUP.Protocol.PacketHistories

/-! The receive loop around a protocol: one array for all datagrams, and one count of bytes. -/

namespace StreamUP

open Fallible Machine Overlay

/-- `buf.size()`. -/
def receiveSize : Nat := 2048

/-- Turns of the loop: what `receive_from` does, and what `RAND_bytes` would leave. -/
inductive Reception where
  /-- A datagram arrives; the socket drops what lies beyond the array. -/
  | received (datagram : List Byte) (random : ConnectionId)
  /-- It throws `would_block`, and the inner loop is left until the next round. -/
  | wouldBlock
  /-- It throws another error, which is reported, and the turn goes on. -/
  | failed (random : ConnectionId)

/-- Places where the loop has no further meaning. -/
inductive LoopFault where
  /-- The count is read before it has a value. -/
  | uninitialised
  | machine (fault : Fault)
  deriving DecidableEq, Repr

/-- A packet that has been handed to a connection: its bytes `[buffer, buffer + length)`. -/
structure Handled where
  connection : Nat
  bytes : List Byte
  deriving DecidableEq, Repr

/-- A protocol, and the packets that its connections have handled so far. -/
structure Router where
  protocol : Protocol
  handled : List Handled

/-- A connection has been found for a packet, and handles it. -/
def Router.handle (router : Router) (found : Nat × Protocol) (bytes : List Byte) : Router where
  -- `handlePacket` has an empty body, so that the packet is only recorded.
  protocol := found.2
  handled := router.handled ++ [⟨found.1, bytes⟩]

/-- Route a packet and let the connection handle it. -/
def Router.step (router : Router) (delivery : Delivery) : Except Fault Router := do
  let found ← router.protocol.getConnectionForPacket delivery.packet delivery.random
  return router.handle found delivery.packet.buffer

/-- The variables of the loop: the array, the count, and what the packets go to. -/
structure ReceiveLoop where
  buf : List Byte
  /-- `size_t n`, which has no value before it is assigned. -/
  n : Option Nat
  router : Router
  sized : buf.length = receiveSize

namespace ReceiveLoop

/-- Before the first round, with the array value-initialised. -/
def start (protocol : Protocol) : ReceiveLoop where
  buf := List.replicate receiveSize 0
  n := none
  router := { protocol, handled := [] }
  sized := List.length_replicate

/-- The bytes that the pointer of a packet reaches, whatever its length: all of the array. -/
def packet (loop : ReceiveLoop) : Packet where
  buffer := loop.buf
  addressable := by
    rw [loop.sized]
    simp only [receiveSize, sizeCount]
    omega

/-- `receive_from` of a datagram: it lies at the front of the array, and is counted. -/
def receive (loop : ReceiveLoop) (datagram : List Byte) : ReceiveLoop :=
  let stored := datagram.take receiveSize
  { loop with
    buf := overlay loop.buf 0 stored
    n := some stored.length
    sized := by
      have room : 0 + stored.length ≤ loop.buf.length := by
        rw [loop.sized, Nat.zero_add]
        exact List.length_take_le ..
      rw [length_overlay room, loop.sized] }

/-- The rest of a turn: the packet is routed, and its connection handles it. -/
def dispatch (loop : ReceiveLoop) (random : ConnectionId) : Except LoopFault ReceiveLoop :=
  match loop.n with
  | none => .error .uninitialised
  | some n =>
    -- The id is read without a look at the length, so from the array as a whole.
    match loop.router.protocol.getConnectionForPacket loop.packet random with
    | .error fault => .error (.machine fault)
    | .ok found => .ok { loop with router := loop.router.handle found (loop.buf.take n) }

/-- One turn of the inner loop. -/
def step (loop : ReceiveLoop) : Reception → Except LoopFault ReceiveLoop
  | .received datagram random => (loop.receive datagram).dispatch random
  -- The next round declares the count anew; `advance_time` has an empty body.
  | .wouldBlock => .ok { loop with n := none }
  -- Nothing has been received, and the turn goes on with what the last one left.
  | .failed random => loop.dispatch random

end ReceiveLoop

/-- The datagram of a turn, cut to the size of the array as the socket cuts it. -/
def Reception.datagram? : Reception → Option (List Byte)
  | .received datagram _ => some (datagram.take receiveSize)
  | .wouldBlock | .failed _ => none

/--
The delivery that a turn stands for, if it receives something.

The packet is one of its own, and holds as much of the datagram as the array of the loop takes.
-/
def Reception.delivery? : Reception → Option Delivery
  | .received datagram random => some
    { packet :=
        { buffer := datagram.take receiveSize
          addressable := by
            have short := List.length_take_le receiveSize datagram
            simp only [receiveSize, sizeCount] at short ⊢
            omega }
      random }
  | .wouldBlock | .failed _ => none

/-- What `RAND_bytes` would leave for a turn that goes on to route something. -/
def Reception.random? : Reception → Option ConnectionId
  | .received _ random | .failed random => some random
  | .wouldBlock => none

/-- The datagrams that have come in, each cut to the size of the array. -/
def datagrams (receptions : List Reception) : List (List Byte) :=
  receptions.filterMap Reception.datagram?

/-- The id in front of the array: each byte is that of the last datagram long enough to have one. -/
def staleId (seen : List (List Byte)) : ConnectionId :=
  -- Bytes that no datagram has reached are zero.
  Vector.ofFn fun position => (lastAt (seen.map fun datagram => (0, datagram)) position).getD 0

/-- The connection for an id: the one in the table, or else a new one. -/
def Protocol.connectionFor (self : Protocol) (id random : ConnectionId) : Nat × Protocol :=
  match self.connectionManager.getConnection id with
  | some connection => (connection, self)
  | none => self.createNewConnection random

/-- An id in the table stands for the connection there. -/
theorem Protocol.connectionFor_known {self : Protocol} {id : ConnectionId} {connection : Nat}
    (found : self.connectionManager.getConnection id = some connection) (random : ConnectionId) :
    self.connectionFor id random = (connection, self) := by
  simp only [connectionFor, found]

/-- An id that is not in the table gets the next connection. -/
theorem Protocol.connectionFor_unknown {self : Protocol} {id : ConnectionId}
    (missing : self.connectionManager.getConnection id = none) (random : ConnectionId) :
    self.connectionFor id random = self.createNewConnection random := by
  simp only [connectionFor, missing]

namespace ReceiveLoop

variable {loop next : ReceiveLoop} {receptions : List Reception}

theorem datagrams_append (before after : List Reception) :
    datagrams (before ++ after) = datagrams before ++ datagrams after :=
  List.filterMap_append

/-- Datagrams as far as the array takes them fit into it. -/
theorem datagrams_room {run : Nat × List Byte}
    (member : run ∈ (datagrams receptions).map fun datagram => (0, datagram)) :
    run.1 + run.2.length ≤ (List.replicate receiveSize (0 : Byte)).length := by
  obtain ⟨datagram, among, rfl⟩ := List.mem_map.mp member
  obtain ⟨reception, _, taken⟩ := List.mem_filterMap.mp among
  -- What is taken of a datagram is no longer than the array.
  cases reception with
  | received whole random =>
    cases taken
    simp only [Nat.zero_add, List.length_replicate]
    exact List.length_take_le ..
  | wouldBlock => contradiction
  | failed random => contradiction

/--
What the variables of the loop hold after some turns.

The datagrams lie over each other in the array, and the count is that of the last one.
-/
structure Holds (loop : ReceiveLoop) (receptions : List Reception) : Prop where
  laid : loop.buf = overlayAll (List.replicate receiveSize 0)
    ((datagrams receptions).map fun datagram => (0, datagram))
  counted : ∀ n, loop.n = some n → ∃ datagram, (datagrams receptions).getLast? = some datagram ∧
    n = datagram.length ∧ loop.buf.take n = datagram

/-- A packet of the loop carries the id in front of the array. -/
theorem Holds.carries (holds : Holds loop receptions) :
    loop.packet.Carries (staleId (datagrams receptions)) := by
  have size : loop.buf.length = receiveSize := loop.sized
  have room : ∀ run ∈ (datagrams receptions).map fun datagram => (0, datagram),
      run.1 + run.2.length ≤ (List.replicate receiveSize (0 : Byte)).length :=
    fun run member => datagrams_room member
  show loop.buf.take connectionIdSize = _
  apply List.ext_getElem?
  intro position
  by_cases inside : position < connectionIdSize
  · -- The byte is that of the last datagram to cover it, or else it is still zero.
    have short : position < receiveSize := by
      simp only [connectionIdSize, receiveSize] at inside ⊢
      omega
    rw [List.getElem?_take_of_lt inside, holds.laid, getElem?_overlayAll room,
      List.getElem?_replicate, if_pos short]
    have slot : position < (staleId (datagrams receptions)).toList.length := by
      rw [Vector.length_toList]
      exact inside
    rw [List.getElem?_eq_getElem slot]
    simp only [staleId, Vector.getElem_toList, Vector.getElem_ofFn]
    cases lastAt ((datagrams receptions).map fun datagram => (0, datagram)) position <;> rfl
  · have beyond := Nat.le_of_not_lt inside
    rw [List.getElem?_eq_none (by rw [List.length_take]; omega),
      List.getElem?_eq_none (by rw [Vector.length_toList]; exact beyond)]

/-- Without a count there is nothing to make a packet of. -/
theorem dispatch_none (empty : loop.n = none) (random : ConnectionId) :
    loop.dispatch random = .error .uninitialised := by
  simp only [dispatch, empty]

/-- With a count, a packet is routed by the id it carries. -/
theorem dispatch_some {n : Nat} {id : ConnectionId} (counted : loop.n = some n)
    (carries : loop.packet.Carries id) (random : ConnectionId) :
    loop.dispatch random = .ok
      { loop with
        router := loop.router.handle (loop.router.protocol.connectionFor id random)
          (loop.buf.take n) } := by
  simp only [dispatch, counted, getConnectionForPacket_eq _ carries]
  rfl

/-- Nothing is in the array before the first round. -/
theorem holds_start (protocol : Protocol) : Holds (start protocol) [] where
  laid := rfl
  counted := fun n counted => by contradiction

/-- A datagram lies at the front of the array, over the ones before it. -/
theorem take_receive (loop : ReceiveLoop) (datagram : List Byte) :
    (loop.receive datagram).buf.take (datagram.take receiveSize).length
      = datagram.take receiveSize := by
  have front : (overlay loop.buf 0 (datagram.take receiveSize)).take
      (0 + (datagram.take receiveSize).length) = loop.buf.take 0 ++ datagram.take receiveSize :=
    take_add_overlay (Nat.zero_le _)
  rw [Nat.zero_add, List.take_zero, List.nil_append] at front
  exact front

/-- Receiving lays one more datagram over the others. -/
theorem Holds.receive (holds : Holds loop receptions) (datagram : List Byte)
    (random : ConnectionId) :
    Holds (loop.receive datagram) (receptions ++ [.received datagram random]) := by
  have newest : datagrams (receptions ++ [.received datagram random])
      = datagrams receptions ++ [datagram.take receiveSize] := datagrams_append _ _
  refine ⟨?_, ?_⟩
  · rw [newest, List.map_append, overlayAll_append, ← holds.laid]
    rfl
  · intro n counted
    cases counted
    rw [newest, List.getLast?_concat]
    exact ⟨_, rfl, rfl, take_receive loop datagram⟩

/-- A turn that receives nothing leaves the array as it is. -/
theorem Holds.idle (holds : Holds loop receptions) {reception : Reception}
    (nothing : reception.datagram? = none) : Holds loop (receptions ++ [reception]) := by
  have same : datagrams (receptions ++ [reception]) = datagrams receptions := by
    rw [datagrams_append]
    simp [datagrams, nothing]
  exact ⟨same ▸ holds.laid, same ▸ holds.counted⟩

/-- The rest of a turn touches neither the array nor the count. -/
theorem Holds.dispatch (holds : Holds loop receptions) {random : ConnectionId}
    (dispatched : loop.dispatch random = .ok next) : Holds next receptions ∧ next.n = loop.n := by
  cases counted : loop.n with
  | none =>
    rw [dispatch_none counted] at dispatched
    contradiction
  | some n =>
    rw [dispatch_some counted holds.carries] at dispatched
    cases dispatched
    exact ⟨⟨holds.laid, holds.counted⟩, counted⟩

/-- A turn keeps track of the datagrams that have come in. -/
theorem Holds.step (holds : Holds loop receptions) {reception : Reception}
    (stepped : loop.step reception = .ok next) : Holds next (receptions ++ [reception]) := by
  cases reception with
  | received datagram random => exact ((holds.receive datagram random).dispatch stepped).1
  | wouldBlock =>
    cases stepped
    have before : Holds loop (receptions ++ [.wouldBlock]) := holds.idle rfl
    exact ⟨before.laid, fun n counted => by contradiction⟩
  | failed random => exact ((holds.idle rfl).dispatch stepped).1

/-- A datagram that comes in is always routed. -/
theorem Holds.received_ok (holds : Holds loop receptions) (datagram : List Byte)
    (random : ConnectionId) : ∃ next, loop.step (.received datagram random) = .ok next :=
  ⟨_, dispatch_some rfl (holds.receive datagram random).carries random⟩

/-- After any turns, the array and the count are those of the datagrams that have come in. -/
theorem run_holds {protocol : Protocol}
    (arrived : Run.run ReceiveLoop.step (start protocol) receptions = .ok loop) :
    Holds loop receptions := by
  induction receptions using List.reverseRecOn generalizing loop with
  | nil =>
    cases arrived
    exact holds_start protocol
  | append_singleton receptions last ih =>
    obtain ⟨middle, sofar, stepped⟩ := (Run.run_snoc_ok _).mp arrived
    exact (ih sofar).step stepped

/--
A turn hands on the last datagram that has come in, by an id that may be older in part.

It is handed on as far as the array takes it.
After an error of the socket that is the datagram of an earlier turn, which is handled again.
Where a datagram is too short for an id, the other bytes of the id are those of older datagrams.
-/
theorem handled_stale {protocol : Protocol} {reception : Reception} {random : ConnectionId}
    (arrived : Run.run ReceiveLoop.step (start protocol) receptions = .ok loop)
    (routes : reception.random? = some random) (stepped : loop.step reception = .ok next) :
    ∃ datagram, (datagrams (receptions ++ [reception])).getLast? = some datagram ∧
      next.router = loop.router.handle (loop.router.protocol.connectionFor
        (staleId (datagrams (receptions ++ [reception]))) random) datagram := by
  have holds := run_holds arrived
  -- Receiving comes first, and what is dispatched is what the array holds then.
  have dispatched : ∀ before : ReceiveLoop, before.router = loop.router →
      Holds before (receptions ++ [reception]) → before.dispatch random = .ok next →
      ∃ datagram, (datagrams (receptions ++ [reception])).getLast? = some datagram ∧
        next.router = loop.router.handle (loop.router.protocol.connectionFor
          (staleId (datagrams (receptions ++ [reception]))) random) datagram := by
    intro before same holds dispatched
    cases counted : before.n with
    | none =>
      rw [dispatch_none counted] at dispatched
      contradiction
    | some n =>
      rw [dispatch_some counted holds.carries] at dispatched
      cases dispatched
      obtain ⟨datagram, last, _, front⟩ := holds.counted n counted
      exact ⟨datagram, last, by rw [same, front]⟩
  cases reception with
  | received datagram drawn =>
    cases routes
    exact dispatched (loop.receive datagram) rfl (holds.receive datagram random) stepped
  | wouldBlock => contradiction
  | failed drawn =>
    cases routes
    exact dispatched loop rfl (holds.idle rfl) stepped

/-- A datagram that starts with the id a connection is about to get. -/
def sevens : ConnectionId := Vector.replicate connectionIdSize 7

/-- An empty datagram goes to the connection of the datagram before it. -/
theorem handled_stale_empty :
    ∃ loop next, Run.run ReceiveLoop.step (start secureServer) [.received sevens.toList sevens]
        = .ok loop ∧
      loop.step (.received [] (Vector.replicate connectionIdSize 1)) = .ok next ∧
      ∃ datagram, (datagrams [.received sevens.toList sevens,
          .received [] (Vector.replicate connectionIdSize 1)]).getLast? = some datagram ∧
        next.router = loop.router.handle (loop.router.protocol.connectionFor
          (staleId (datagrams [.received sevens.toList sevens,
            .received [] (Vector.replicate connectionIdSize 1)]))
          (Vector.replicate connectionIdSize 1)) datagram := by
  obtain ⟨loop, first⟩ := (holds_start secureServer).received_ok sevens.toList sevens
  have arrived : Run.run ReceiveLoop.step (start secureServer)
      [.received sevens.toList sevens] = .ok loop := (Run.run_cons_ok _).mpr ⟨loop, first, rfl⟩
  obtain ⟨next, stepped⟩ := (run_holds arrived).received_ok [] (Vector.replicate connectionIdSize 1)
  exact ⟨loop, next, arrived, stepped, handled_stale arrived rfl stepped⟩

/-- A datagram has come in since the last time the inner loop was left. -/
def Counted (receptions : List Reception) : Prop :=
  ∃ earlier datagram random between,
    receptions = earlier ++ .received datagram random :: between ∧ .wouldBlock ∉ between

/-- Behind a turn that receives nothing, it is the turns before that count. -/
theorem counted_concat_failed {random : ConnectionId} :
    Counted (receptions ++ [.failed random]) ↔ Counted receptions := by
  constructor
  · rintro ⟨earlier, datagram, drawn, between, split, inside⟩
    -- The last turn is not the one that has received.
    cases between using List.reverseRecOn with
    | nil =>
      have last := (List.append_inj' split rfl).2
      simp at last
    | append_singleton between last =>
      rw [← List.cons_append, ← List.append_assoc] at split
      have front := (List.append_inj' split rfl).1
      exact ⟨earlier, datagram, drawn, between, front,
        fun member => inside (List.mem_append_left _ member)⟩
  · rintro ⟨earlier, datagram, drawn, between, rfl, inside⟩
    refine ⟨earlier, datagram, drawn, between ++ [.failed random], by simp, ?_⟩
    rw [List.mem_append, not_or]
    exact ⟨inside, by simp⟩

/-- Where the inner loop has just been left, nothing counts. -/
theorem not_counted_concat_wouldBlock : ¬ Counted (receptions ++ [.wouldBlock]) := by
  rintro ⟨earlier, datagram, drawn, between, split, inside⟩
  cases between using List.reverseRecOn with
  | nil =>
    have last := (List.append_inj' split rfl).2
    simp at last
  | append_singleton between last =>
    rw [← List.cons_append, ← List.append_assoc] at split
    have same := (List.append_inj' split rfl).2
    exact inside (by simp [← List.singleton_inj.mp same])

/-- The count has a value exactly when a datagram has come in since the inner loop was left. -/
theorem counted_iff {protocol : Protocol}
    (arrived : Run.run ReceiveLoop.step (start protocol) receptions = .ok loop) :
    loop.n.isSome ↔ Counted receptions := by
  -- The induction is on the end of the run, whose last turn decides.
  induction receptions using List.reverseRecOn generalizing loop with
  | nil =>
    cases arrived
    refine iff_of_false (by simp [start]) ?_
    rintro ⟨earlier, datagram, drawn, between, split, _⟩
    simp at split
  | append_singleton receptions last ih =>
    obtain ⟨middle, sofar, stepped⟩ := (Run.run_snoc_ok _).mp arrived
    have holds := run_holds sofar
    cases last with
    | received datagram random =>
      have same := ((holds.receive datagram random).dispatch stepped).2
      refine iff_of_true (by rw [same]; rfl) ?_
      exact ⟨receptions, datagram, random, [], rfl, List.not_mem_nil⟩
    | wouldBlock =>
      cases stepped
      exact iff_of_false (by simp) not_counted_concat_wouldBlock
    | failed random =>
      rw [(holds.dispatch stepped).2, counted_concat_failed]
      exact ih sofar

/-- A turn fails exactly when the socket does while the count has no value. -/
theorem step_error_iff (holds : Holds loop receptions) {reception : Reception}
    {fault : LoopFault} : loop.step reception = .error fault ↔
      loop.n = none ∧ fault = .uninitialised ∧ ∃ random, reception = .failed random := by
  cases reception with
  | received datagram random =>
    -- What has just come in has been counted.
    obtain ⟨next, received⟩ := holds.received_ok datagram random
    simp [received]
  | wouldBlock => simp [step]
  | failed random =>
    cases counted : loop.n with
    | none => simp [step, dispatch_none counted, eq_comm]
    | some n => simp [step, dispatch_some counted holds.carries]

/--
The loop never reads outside its array, and it has one way to go wrong.

It reads a count that has no value, when the socket fails before a datagram has come in.
-/
theorem run_fault_iff (protocol : Protocol) (receptions : List Reception) :
    (∀ fault, Run.run ReceiveLoop.step (start protocol) receptions = .error fault →
      fault = .uninitialised) ∧
    ((∃ fault, Run.run ReceiveLoop.step (start protocol) receptions = .error fault) ↔
      ∃ before random after, receptions = before ++ .failed random :: after ∧
        ¬ Counted before) := by
  refine ⟨fun fault failed => ?_, ?_, ?_⟩
  · obtain ⟨_, _, _, _, _, sofar, fails⟩ := (Run.run_eq_error_iff _).mp failed
    exact ((step_error_iff (run_holds sofar)).mp fails).2.1
  · rintro ⟨fault, failed⟩
    obtain ⟨before, _, after, loop, split, sofar, fails⟩ := (Run.run_eq_error_iff _).mp failed
    -- At the first turn that fails the count has no value.
    obtain ⟨none, _, random, rfl⟩ := (step_error_iff (run_holds sofar)).mp fails
    refine ⟨before, random, after, split, fun counted => ?_⟩
    rw [← counted_iff sofar, none] at counted
    contradiction
  · rintro ⟨before, random, after, rfl, empty⟩
    cases sofar : Run.run ReceiveLoop.step (start protocol) before with
    | error fault =>
      -- The run goes wrong even earlier.
      exact ⟨fault, by rw [Run.run_append, sofar]; rfl⟩
    | ok loop =>
      rw [← counted_iff sofar, Bool.not_eq_true, Option.isSome_eq_false_iff,
        Option.isNone_iff_eq_none] at empty
      have fails := (step_error_iff (run_holds sofar)).mpr ⟨empty, rfl, random, rfl⟩
      exact ⟨.uninitialised, (Run.run_eq_error_iff _).mpr
        ⟨before, .failed random, after, loop, rfl, sofar, fails⟩⟩

end ReceiveLoop

/-- A turn that receives enough for an id, or leaves the inner loop. -/
def Reception.Usable : Reception → Prop
  | .received datagram _ => connectionIdSize ≤ datagram.length
  | .wouldBlock => True
  | .failed _ => False

namespace ReceiveLoop

/-- A datagram that is long enough carries the same id in the array and on its own. -/
theorem received_refines (loop : ReceiveLoop) {datagram : List Byte} {random : ConnectionId}
    {delivery : Delivery} (long : connectionIdSize ≤ datagram.length)
    (stands : (Reception.received datagram random).delivery? = some delivery) :
    ∃ next, loop.step (.received datagram random) = .ok next ∧
      loop.router.step delivery = .ok next.router := by
  obtain ⟨content, drawn⟩ : delivery.packet.buffer = datagram.take receiveSize ∧
      delivery.random = random := by
    cases stands
    exact ⟨rfl, rfl⟩
  have enough : connectionIdSize ≤ delivery.packet.buffer.length := by
    rw [content, List.length_take]
    simp only [connectionIdSize, receiveSize] at long ⊢
    omega
  obtain ⟨id, carries⟩ := Packet.exists_carries enough
  -- The array begins with the datagram.
  have front : (loop.receive datagram).buf.take delivery.packet.buffer.length
      = delivery.packet.buffer := by
    rw [content]
    exact take_receive loop datagram
  have shared : (loop.receive datagram).packet.Carries id := by
    have shorter : (loop.receive datagram).buf.take connectionIdSize
        = delivery.packet.buffer.take connectionIdSize := by
      rw [← front, List.take_take, Nat.min_eq_left enough]
    exact shorter.trans carries
  refine ⟨_, dispatch_some rfl shared random, ?_⟩
  rw [← content, front]
  simp only [Router.step, getConnectionForPacket_eq _ carries, ok_bind, pure_eq_ok, drawn]
  rfl

/--
Without failures and short datagrams, the shared array does not show.

The loop then does to the protocol and its connections what the datagrams do on their own.
Datagrams longer than the array are cut on both sides, as the rest never reaches the program.
-/
theorem run_refines_router (loop : ReceiveLoop) {receptions : List Reception}
    (usable : ∀ reception ∈ receptions, reception.Usable) :
    ∃ final, Run.run ReceiveLoop.step loop receptions = .ok final ∧
      Run.run Router.step loop.router (receptions.filterMap Reception.delivery?)
        = .ok final.router := by
  -- The induction follows the run, so the state of the loop stays quantified over.
  induction receptions generalizing loop with
  | nil => exact ⟨loop, rfl, rfl⟩
  | cons reception rest ih =>
    rw [List.forall_mem_cons] at usable
    obtain ⟨now, later⟩ := usable
    cases reception with
    | received datagram random =>
      obtain ⟨next, stepped, routed⟩ := received_refines loop now rfl
      obtain ⟨final, arrived, rest_routed⟩ := ih next later
      exact ⟨final, (Run.run_cons_ok _).mpr ⟨next, stepped, arrived⟩,
        (Run.run_cons_ok _).mpr ⟨next.router, routed, rest_routed⟩⟩
    | wouldBlock =>
      obtain ⟨final, arrived, routed⟩ := ih { loop with n := none } later
      exact ⟨final, (Run.run_cons_ok _).mpr ⟨_, rfl, arrived⟩, routed⟩
    | failed random => exact absurd now (fun never => never)

/-- Two rounds with a datagram each are as good as the two datagrams. -/
theorem run_refines_router_rounds :
    ∃ final, Run.run ReceiveLoop.step (start secureServer)
        [.received sevens.toList sevens, .wouldBlock, .received sevens.toList sevens] = .ok final ∧
      Run.run Router.step { protocol := secureServer, handled := [] }
        ([.received sevens.toList sevens, .wouldBlock, .received sevens.toList sevens].filterMap
          Reception.delivery?) = .ok final.router := by
  refine run_refines_router (start secureServer) ?_
  -- Both datagrams are an id long.
  simp [Reception.Usable]

end ReceiveLoop

end StreamUP
