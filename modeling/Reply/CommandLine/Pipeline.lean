import Reply.CommandLine.Demonstration

namespace Reply

/-!
# The tasks of the demonstration

Producer and finisher run as tasks of their own beside the owner of the connection,
and the three take turns in any order, where a turn is what a party does until it
waits again.  A reply passes from one to the next through a
mailbox that is used once: whoever waits at it goes on when it is filled, or when it
is closed because nobody is left to fill it.  The owner waits for the two tasks one
after the other, and then for the reply.
-/

namespace Demonstration

/-- What passes one reply on, once. -/
inductive Mailbox
  | empty
  | filled (reply : Buffered Courier)
  | closed

/-- What the owner of the connection waits for, or what came of it. -/
inductive Owner
  | awaitsProducer
  | awaitsFinisher
  | awaitsReply
  | ended (result : Except Fault (Message String))

/-- Whether the owner has gone, and with it its end of the mailbox. -/
def Owner.hasEnded : Owner → Bool
  | .ended _ => true
  | _ => false

/-- The tasks, how far each has come, and what passes between them. -/
structure Pipeline where
  flags : Flags
  produced : Option (Except Failure Unit)
  finished : Bool
  owner : Owner
  stage : Mailbox
  delivery : Mailbox

/-- Who takes turns. -/
inductive Party
  | producer
  | finisher
  | owner

namespace Pipeline

/-- Nobody has taken a turn. -/
def start : Pipeline where
  flags := .empty
  produced := none
  finished := false
  owner := .awaitsProducer
  stage := .empty
  delivery := .empty

/-- The producer ends without a reply, and the handler is lost with its reply. -/
def losing (pipeline : Pipeline) (outcome : Except Failure Unit) : Pipeline :=
  { pipeline with
    produced := some outcome
    stage := .closed
    delivery := .closed }

/-- The producer makes the reply and sends it on while somebody is to take it. -/
def produce? (code : Nat) (pipeline : Pipeline) : Option Pipeline :=
  match pipeline.produced with
  | some _ => none
  | none =>
      match produce pipeline.flags code with
      | .error failure => some (pipeline.losing (.error failure))
      | .ok none => some (pipeline.losing (.ok ()))
      | .ok (some reply) =>
          if pipeline.finished then
            some (pipeline.losing (.ok ()))
          else
            some
              { pipeline with
                produced := some (.ok ())
                stage := .filled reply }

/-- What the finisher's handler sends to the owner, who may have gone. -/
def handOver
    (pipeline : Pipeline)
    (reply : Buffered Courier)
    (held : Option String) :
    Mailbox :=
  match conclude reply held with
  | some finished =>
      if pipeline.owner.hasEnded then .closed else .filled finished
  | none => .closed

/-- The finisher takes the reply, if there will be one, and concludes it. -/
def finish? (held : Option String) (pipeline : Pipeline) : Option Pipeline :=
  match pipeline.finished, pipeline.stage with
  | false, .filled reply =>
      some
        { pipeline with
          finished := true
          stage := .closed
          delivery := pipeline.handOver reply held }
  | false, .closed => some { pipeline with finished := true }
  | _, _ => none

/-- The owner goes on when what it waits for is there. -/
def own? (pipeline : Pipeline) : Option Pipeline :=
  match pipeline.owner with
  | .awaitsProducer =>
      match pipeline.produced with
      | none => none
      | some (.error failure) =>
          some { pipeline with owner := .ended (.error (.failed failure)) }
      | some (.ok ()) => some { pipeline with owner := .awaitsFinisher }
  | .awaitsFinisher =>
      if pipeline.finished then
        some { pipeline with owner := .awaitsReply }
      else
        none
  | .awaitsReply =>
      match pipeline.delivery with
      | .empty => none
      | .closed => some { pipeline with owner := .ended (.error .undelivered) }
      | .filled reply =>
          some
            { pipeline with
              flags := pipeline.flags.put connection false
              delivery := .closed
              owner := .ended ((transport reply).mapError Fault.failed) }
  | .ended _ => none

/-- One turn of a party, unless it has to wait or has ended. -/
def turn?
    (code : Nat)
    (held : Option String)
    (party : Party)
    (pipeline : Pipeline) :
    Option Pipeline :=
  match party with
  | .producer => pipeline.produce? code
  | .finisher => pipeline.finish? held
  | .owner => pipeline.own?

/-- Turns in an order; nothing comes of it if somebody in it cannot go on. -/
def follow?
    (code : Nat)
    (held : Option String)
    (order : List Party)
    (pipeline : Pipeline) :
    Option Pipeline :=
  order.foldlM (fun reached party => reached.turn? code held party) pipeline

end Pipeline

end Demonstration

end Reply
