import Coap.Stage

namespace Coap

/-!
# Scripted stages

A scripted stage notes what it sees, changes what its script says, and decides as
its script says. Stacks of scripted stages show how a stack treats any mixture of
decisions.
-/

/-- What a scripted stage saw. -/
structure StageNote where
  name : String
  id : MessageId
  code : Code
  cell : Option SocketAddress
deriving DecidableEq, Repr

/-- How a scripted stage decides. -/
inductive ScriptedDecision where
  /-- Decide without an error. -/
  | settle (verdict : Verdict)
  /-- Report a missing payload under the token of the message. -/
  | missingPayload
  /-- Report a block that is not confirmable under the token of the message. -/
  | nonConfirmableBlock
  /-- Report that the message has no destination. -/
  | noDestination
  | blockError (cause : BlockError)
deriving DecidableEq, Repr

/-- The result of a decision on a message. -/
def ScriptedDecision.result
    (decision : ScriptedDecision)
    (message : Message) :
    Except StageError Verdict :=
  match decision with
  | .settle verdict => .ok verdict
  | .missingPayload => .error (.missingPayload message.key)
  | .nonConfirmableBlock => .error (.nonConfirmableBlock message.key)
  | .noDestination => .error (.transmit (.noDestination message.id))
  | .blockError cause => .error (.block cause)

/-- What a scripted stage changes and how it decides. -/
structure StageScript where
  redirect : Option SocketAddress := none
  recode : Option Code := none
  decision : ScriptedDecision
deriving DecidableEq, Repr

/-- The stage that follows a script. -/
def StageScript.toStage
    (name : String)
    (script : StageScript) :
    Stage (List StageNote) :=
  { name := name
    run := fun notes message cell =>
      let changed := { message with code := script.recode.getD message.code }
      { state := notes ++ [⟨name, message.id, message.code, cell⟩]
        message := changed
        cell := script.redirect.or cell
        result := script.decision.result changed } }

/--
The stages that follow some scripts, named by their positions from `first` on.
-/
def StageScript.toStages
    (first : Nat) :
    List StageScript →
    List (Stage (List StageNote))
  | [] => []
  | script :: rest =>
      script.toStage ("l" ++ toString first) :: toStages (first + 1) rest

end Coap
