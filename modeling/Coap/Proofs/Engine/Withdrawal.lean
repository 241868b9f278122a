import Mathlib.Tactic.Common
import Coap.Proofs.Engine.Discipline
import Coap.Proofs.Wire.Recoding

namespace Coap

/-!
# Tokens that are out of use

A poll sends messages of the queue only, each under its own token. So a token that
no queued message has, and under which no transfer is in progress, is not sent again
until a message with it is queued. Which tokens the queue can have at all is told by
the messages that were queued: what is queued beside them are the fragments of those
that have to be sent in blocks.
-/

namespace Wire

/-- The key of a message is the text of the token in its datagram. -/
theorem key_eq_ofBytes (message : Message) :
    message.key = Hex.ofBytes (message.token.elim [] Token.bytes) := by
  unfold Message.key
  cases message.token <;> rfl

/-- A datagram begins with a header and a token. -/
theorem exists_rest_of_encode
    {message : Message}
    {bytes : List UInt8}
    (written : encode message = .ok bytes) :
    ∃ rest,
      bytes = encodeHeader message (message.token.elim [] Token.bytes).length ++
        (message.token.elim [] Token.bytes ++ rest) := by
  have short := ((encode_eq_ok_iff message).mp ⟨bytes, written⟩).1
  unfold encode at written
  dsimp only at written
  rw [if_neg (Nat.not_lt.mpr short)] at written
  cases optionsWritten : encodeOptions 0 (sortByNumber message.options) with
  | error cause => simp [optionsWritten, bind, Except.bind] at written
  | ok options =>
      simp only [optionsWritten, bind, Except.bind, pure, Except.pure,
        Except.ok.injEq] at written
      exact ⟨options ++ encodePayload message.body, by simp [← written]⟩

/-- A datagram is written for messages with one token only. -/
theorem key_eq_of_encode
    {first second : Message}
    {bytes : List UInt8}
    (writesFirst : encode first = .ok bytes)
    (writesSecond : encode second = .ok bytes) :
    first.key = second.key := by
  have short {message : Message} (writes : encode message = .ok bytes) :=
    ((encode_eq_ok_iff message).mp ⟨bytes, writes⟩).1
  let layout (message : Message) : Layout :=
    ⟨message.kind, message.code, message.id,
      message.token.elim [] Token.bytes, [], []⟩
  obtain ⟨rest, bytes_eq⟩ := exists_rest_of_encode writesFirst
  obtain ⟨others, same⟩ := exists_rest_of_encode writesSecond
  rw [bytes_eq] at same
  obtain ⟨header_eq, same⟩ := List.append_inj same rfl
  have length_eq :=
    (@Layout.header_inj (layout first) (layout second) (short writesFirst)
      (short writesSecond) header_eq).2.2.2
  rw [key_eq_ofBytes, key_eq_ofBytes, (List.append_inj same length_eq).1]

end Wire

namespace Engine

theorem key_fragmentOf
    (state : SendState)
    (block : Block)
    (id : MessageId) :
    (fragmentOf state block id).key = state.whole.key := by
  rw [fragmentOf_frame]
  rfl

/-- Messages like this one are sent in blocks. -/
def IsCut
    (arq : ArqConfig)
    (message : Message) :
    Prop :=
  ∃ engine : Engine, engine.arq = arq ∧ engine.needsTransfer message = true

end Engine

namespace Discipline

variable {arq : ArqConfig}

/-- Nothing with the token is queued, and no transfer is in progress under it. -/
def without
    (arq : ArqConfig)
    (token : TokenKey) :
    Discipline arq where
  queues := fun _ message _ _ => message.key ≠ token
  transfers := fun filed whole _ => whole.key = filed ∧ filed ≠ token
  rests := id
  cuts := by
    rintro filed hooks state number block id _ ⟨rfl, different⟩ _
    rw [Engine.key_fragmentOf]
    exact different
  completes := by
    rintro filed whole hooks ⟨rfl, different⟩
    exact different
  starts := by
    intro engine message hooks _ _ different
    have key_eq := Engine.key_transferMessage message
    exact ⟨⟨key_eq, different⟩, key_eq, different⟩

/--
What is queued is on the ledger, or it is the message of a transfer, or one of its
fragments. Every transfer is of a message on the ledger that is sent in blocks.
-/
def recorded
    (arq : ArqConfig)
    (ledger : List Message) :
    Discipline arq where
  queues := fun _ message hooks _ =>
    ¬ Engine.IsPieceHook hooks ∧
        (∃ asked ∈ ledger,
          message.id = asked.id ∧ message.key = asked.key ∧
            (message = asked ∨ Engine.IsCut arq asked)) ∨
      Engine.IsPieceHook hooks ∧ Engine.IsPiece message ∧
        ∃ asked ∈ ledger, message.key = asked.key ∧ Engine.IsCut arq asked
  transfers := fun token whole hooks =>
    ¬ Engine.IsPieceHook hooks ∧ whole.key = token ∧
      ∃ asked ∈ ledger,
        whole.id = asked.id ∧ whole.key = asked.key ∧ Engine.IsCut arq asked
  rests := id
  cuts := by
    rintro token hooks state number block id serial
      ⟨_, _, asked, member, _, key_eq, isCut⟩ _
    refine .inr ⟨⟨token, serial, rfl⟩, ⟨state, block, id, rfl⟩, asked,
      member, ?_, isCut⟩
    rw [Engine.key_fragmentOf]
    exact key_eq
  completes := by
    rintro token whole hooks ⟨unhooked, _, asked, member, id_eq, key_eq, isCut⟩
    exact .inl ⟨unhooked, asked, member, id_eq, key_eq, .inr isCut⟩
  starts := by
    rintro engine message hooks arq_eq needs
      (⟨unhooked, asked, member, id_eq, key_eq, isAsked⟩ | ⟨_, piece, _⟩)
    · have isCut : Engine.IsCut arq asked := by
        rcases isAsked with rfl | isCut
        · exact ⟨engine, arq_eq, needs⟩
        · exact isCut
      have ofTransfer : (Engine.transferMessage message).key = message.key ∧
          ∃ asked ∈ ledger, (Engine.transferMessage message).id = asked.id ∧
            (Engine.transferMessage message).key = asked.key ∧
              Engine.IsCut arq asked := by
        rw [Engine.key_transferMessage, Engine.id_transferMessage]
        exact ⟨rfl, asked, member, id_eq, key_eq, isCut⟩
      exact ⟨⟨unhooked, ofTransfer⟩, Engine.not_isPieceHook none none, ofTransfer⟩
    · cases needs.symm.trans (piece.needsTransfer_eq_false engine)

end Discipline

namespace Engine

variable {engine : Engine}

/-! ## What a poll sends -/

theorem blockwiseSend_sent
    (engine : Engine)
    (message : Message)
    (cell : Option SocketAddress) :
    (engine.blockwiseSend message cell).state.sent = engine.sent := by
  cases needs : engine.needsTransfer message with
  | false => rw [blockwiseSend_of_pass needs]
  | true =>
      rcases Nat.eq_zero_or_pos engine.arq.maxPayload with zero | positive
      · rw [blockwiseSend_of_zero needs zero]
        rfl
      · rw [blockwiseSend_of_needsTransfer needs positive]
        exact (dispatchFragments_evolves _ _ _).sent_eq

/--
What is taken to the socket is sent under its token, or a notice
under the same token.
-/
theorem dispatch_sent
    (engine : Engine)
    (message : Message) :
    ∃ sent,
      (engine.dispatch message).sent = engine.sent ++ sent ∧
        ∀ datagram ∈ sent, ∃ current : Message,
          current.key = message.key ∧ Wire.encode current = .ok datagram.bytes := by
  have unsent : ((engine.responded message).blockwiseSend message
    message.target?).state.sent =
      engine.sent := by
    obtain ⟨expected, responded_eq⟩ := responded_spec engine message
    rw [blockwiseSend_sent, responded_eq]
  rcases engine.dispatch_cases message with stays | ⟨current, _, key_eq, _, leaves⟩
  · refine ⟨[], ?_, fun datagram member => absurd member List.not_mem_nil⟩
    rw [stays, unsent, List.append_nil]
  · obtain ⟨refusals, sent, transmitted_eq, writes⟩ :=
      ((engine.responded message).blockwiseSend message
        message.target?).state.transmitTo_spec current message.target?
    refine ⟨sent, ?_,
      fun datagram member => ⟨current, key_eq, writes datagram member⟩⟩
    rw [leaves, transmitted_eq, ← unsent]
    rfl

/-- A poll sends nothing but a message that is queued, under its token. -/
theorem poll_sent (engine : Engine) :
    ∃ sent,
      engine.poll.2.sent = engine.sent ++ sent ∧
        ∀ datagram ∈ sent, ∃ id entry,
          engine.pool.entries.Stores id entry ∧
            ∀ written, Wire.encode written = .ok datagram.bytes →
              written.key = entry.message.key := by
  have unsent : engine.next.2.sent = engine.sent := engine.next_shrinks.sent_eq
  rw [poll_snd]
  cases picked : engine.next.1 with
  | none =>
      refine ⟨[], ?_, fun datagram member => absurd member List.not_mem_nil⟩
      rw [List.append_nil]
      exact unsent
  | some message =>
      obtain ⟨id, entry, stores, rfl, _⟩ := awake_of_next picked
      obtain ⟨sent, sent_eq, writes⟩ := engine.next.2.dispatch_sent entry.message
      rw [unsent] at sent_eq
      refine ⟨sent, sent_eq,
        fun datagram member => ⟨id, entry, stores, fun written isWritten => ?_⟩⟩
      obtain ⟨current, key_eq, isCurrent⟩ := writes datagram member
      exact (Wire.key_eq_of_encode isWritten isCurrent).trans key_eq

/-- A token that is out of use is not sent. -/
theorem Obeys.poll_sent_without
    {arq : ArqConfig}
    {token : TokenKey}
    (obeys : engine.Obeys (.without arq token)) :
    ∃ sent,
      engine.poll.2.sent = engine.sent ++ sent ∧
        ∀ datagram ∈ sent, ∀ written,
          Wire.encode written = .ok datagram.bytes → written.key ≠ token := by
  obtain ⟨sent, sent_eq, queued⟩ := engine.poll_sent
  refine ⟨sent, sent_eq, fun datagram member written isWritten => ?_⟩
  obtain ⟨id, entry, stores, sameKey⟩ := queued datagram member
  rw [sameKey written isWritten]
  exact obeys.queued id entry stores

/-! ## Messages that are sent in blocks -/

/-- A transfer with the token is in progress, or one of its fragments is queued. -/
def SendsInBlocks
    (engine : Engine)
    (token : TokenKey) :
    Prop :=
  (engine.outgoing.find? token).isSome ∨
    ∃ id entry,
      engine.pool.entries.Stores id entry ∧ IsPieceHook entry.hooks ∧
        entry.message.key = token

namespace Obeys

variable {arq : ArqConfig} {ledger : List Message} {token : TokenKey}

/-- What is sent in blocks was queued as a message that has to be. -/
theorem exists_cut
    (obeys : engine.Obeys (.recorded arq ledger))
    (inBlocks : engine.SendsInBlocks token) :
    ∃ asked ∈ ledger, asked.key = token ∧ engine.needsTransfer asked = true := by
  have needs {asked : Message} (isCut : IsCut arq asked) :
      engine.needsTransfer asked = true := by
    obtain ⟨other, arq_eq, otherNeeds⟩ := isCut
    rw [needsTransfer_congr (obeys.arq_eq.trans arq_eq.symm)]
    exact otherNeeds
  rcases inBlocks with inProgress | ⟨id, entry, stores, hooked, rfl⟩
  · obtain ⟨transfer, found⟩ := Option.isSome_iff_exists.mp inProgress
    obtain ⟨_, rfl, asked, member, _, key_eq, isCut⟩ :=
      obeys.filed token transfer found
    exact ⟨asked, member, key_eq.symm, needs isCut⟩
  · obtain ⟨_, _, asked, member, key_eq, isCut⟩ :=
      (obeys.queued id entry stores).resolve_left fun unhooked => unhooked.1 hooked
    exact ⟨asked, member, key_eq.symm, needs isCut⟩

/--
Outside of transfers, a token is queued under the identifiers that
are on the ledger.
-/
theorem exists_asked
    (obeys : engine.Obeys (.recorded arq ledger))
    (whole : ¬ engine.SendsInBlocks token)
    {id : MessageId}
    {entry : PoolEntry}
    (stores : engine.pool.entries.Stores id entry)
    (hasToken : entry.message.key = token) :
    ∃ asked ∈ ledger, asked.id = id ∧ asked.key = token := by
  rcases obeys.queued id entry stores with
      ⟨_, asked, member, id_eq, key_eq, _⟩ | ⟨hooked, _⟩
  · exact ⟨asked, member, id_eq.symm.trans (obeys.keyed id entry stores),
      key_eq.symm.trans hasToken⟩
  · exact absurd (.inr ⟨id, entry, stores, hooked, hasToken⟩) whole

end Obeys

end Engine

end Coap
