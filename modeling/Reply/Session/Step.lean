import Reply.Message
import Reply.Payload.Basic

namespace Reply

/-!
# Steps, scripts and answers

A step asks one thing of the reply in hand.  A completion handler is given by a
script, a finite list of steps it carries out on the finished reply; a step may
itself attach a handler with a script of its own, to any depth.
-/

/-- One thing asked of the reply in hand. -/
inductive Step
  | setField (name : String) (octets : Octets)
  | readField (name : String)
  | setStatus (code : Nat)
  | readStatus
  | setVersion (version : Version)
  | append (text : String)
  | setBody (text : String)
  | keepAlive (keep : Bool)
  | readKeepAlive
  | frame
  | clear
  | setPayload (payload : Payload)
  | insertPayload (key : String) (value : Payload)
  | pushPayload (value : Payload)
  | render
  | readTag
  | expect (tag : Option String)
  | revalidate
  | finalize
  | readCompleted
  | readAlive
  | setHandler (name : String) (script : List (String × Step))
  | releaseHandler (name : String)
  | invokeHandler (name : String)
  | attachHandler (name : String)
  | setProbe (flag : String)
  | setFlag (flag : String) (up : Bool)
  | releaseProbe (name : String)
  | attachProbe (name : String)
  | checkProbe (name : String)
  | relocate (slot : String)
  | unsupported

/-- Steps, each with the word it is reported under. -/
abbrev Script :=
  List (String × Step)

/-!
## Answers

What a step or a command answers: a value, a failure of the operation, or a
refusal when what it asks for is not there or not possible.
-/

/-- Why something asked for cannot be done at all. -/
inductive Refusal
  | noSlot
  | noHandler
  | noProbe
  | unsupported
  deriving DecidableEq

/-- The answer to a step or a command. -/
inductive Answer
  | done
  | truth (value : Bool)
  | text (value : String)
  | textOrNone (value : Option String)
  | count (value : Nat)
  | handler (found : Bool)
  | probe (found : Bool)
  | message (message : Message String)
  | failed (failure : Failure)
  | refused (refusal : Refusal)

/-!
## Weight

The weight of a script bounds the work of playing it, including the work of
the handlers it attaches.
-/

mutual

/-- What a step may set going: itself, its report, and what it attaches. -/
def Step.weight : Step → Nat
  | .setHandler _ script => 5 + scriptWeight script
  | _ => 3

/-- The weight of all steps of a script. -/
def scriptWeight : List (String × Step) → Nat
  | [] => 0
  | (_, step) :: rest => step.weight + scriptWeight rest

end

/-- Every step weighs at least three. -/
theorem Step.three_le_weight (step : Step) :
    3 ≤ step.weight := by
  cases step <;> simp only [Step.weight] <;> omega

end Reply
