import Mathlib.Tactic.Common
import Coap.Proofs.Engine.Outbound
import Coap.Proofs.Engine.Scene

namespace Coap.Engine.Shows

/-!
# Messages on their way out of a conversation

A message that fits a single datagram is sent as it is. If it is confirmable, it
stays in the queue until it is acknowledged; if not, it is done.
-/

variable {engine : Engine} {setting : Setting} {nextId : MessageId} {scene : Scene}
variable {message : Message} {target : SocketAddress} {bytes : List UInt8}

theorem responded
    (shows : engine.Shows setting nextId scene)
    (key_eq : message.key = setting.token) :
    (engine.responded message).Shows setting nextId scene := by
  unfold Engine.responded responseSend
  dsimp only
  split
  · rw [key_eq]
    exact shows.get_expected
  · exact shows

/-- Once sent, a confirmable message waits and any other one is done. -/
theorem releaseUnconfirmed
    (shows : engine.Shows setting nextId scene)
    (message : Message) :
    (engine.releaseUnconfirmed message).Shows setting nextId
      (if message.kind = .confirmable then scene
        else
          { scene with
            queue := scene.queue.filter fun entry => Pool.idOf entry ≠ message.id
            named := scene.named.filter fun name => name ≠ message.id }) := by
  unfold Engine.releaseUnconfirmed Pool.releaseUnconfirmed
  split
  · exact shows
  · exact shows.discard message.id

/-- A message that fits a single datagram is sent. -/
theorem dispatch_of_single
    (shows : engine.Shows setting nextId scene)
    (key_eq : message.key = setting.token)
    (single : (engine.responded message).needsTransfer message = false)
    (routed : message.target? = some target)
    (written : Wire.encode message = .ok bytes) :
    (engine.dispatch message).Shows setting nextId
      (if message.kind = .confirmable then
          { scene with sent := scene.sent ++ [⟨target, bytes⟩] }
        else
          { scene with
            queue := scene.queue.filter fun entry => Pool.idOf entry ≠ message.id
            named := scene.named.filter fun name => name ≠ message.id
            sent := scene.sent ++ [⟨target, bytes⟩] }) := by
  have transmitted := ((shows.responded key_eq).transmit written target).2
  rw [dispatch_of_pass single, routed]
  exact transmitted.releaseUnconfirmed message

/-- A payload that is short enough needs no transfer. -/
theorem needsTransfer_of_short
    (shows : engine.Shows setting nextId scene)
    (key_eq : message.key = setting.token)
    (short : message.bodyLength ≤ setting.arq.maxPayload) :
    (engine.responded message).needsTransfer message = false := by
  have arq_eq := (shows.responded key_eq).arq_eq
  unfold needsTransfer exceedsSingleBlock
  rw [arq_eq, decide_eq_false (Nat.not_lt.mpr short),
    Bool.and_false, Bool.false_and]

end Coap.Engine.Shows
