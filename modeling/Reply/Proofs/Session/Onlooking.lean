import Reply.Proofs.Session.Asking
import Reply.Proofs.Session.Finalizing

namespace Reply

/-!
# Scripts that look on

A script that only reads the reply it is given and sets flags leaves the reply as
it is: playing it reports its answers, sets the flags and nothing else.
-/

namespace Step

/-- Whether a step leaves the reply alone: it reads it, or it sets a flag. -/
def looksOn : Step → Bool
  | .readField _ => true
  | .readStatus => true
  | .readKeepAlive => true
  | .readTag => true
  | .readCompleted => true
  | .readAlive => true
  | .setFlag _ _ => true
  | .checkProbe _ => true
  | .unsupported => true
  | _ => false

/-- The flag that a step sets, if it does. -/
def signal? : Step → Option (String × Bool)
  | .setFlag flag up => some (flag, up)
  | _ => none

end Step

/-- The flags that a script sets, in order. -/
def signals (script : Script) : List (String × Bool) :=
  script.filterMap fun line => line.2.signal?

/-- The session after flags were set. -/
def Session.signalled
    (session : Session)
    (signals : List (String × Bool)) :
    Session :=
  { session with flags := session.flags.signalled signals }

/-- An event that reports the answer to a step of a script. -/
def Event.IsReport (event : Event) : Prop :=
  ∃ handler word answer, event = .reported handler word answer

/-- A step that looks on sets its flag, if it has one, and nothing else. -/
theorem Step.apply_of_looksOn
    (session : Session)
    (reply : Response)
    {step : Step}
    (onlooking : step.looksOn = true) :
    ∃ answer,
      step.apply session reply =
        ⟨session.signalled step.signal?.toList, reply, answer, [],
          .nothing⟩ := by
  cases step with
  | readField | readStatus | readKeepAlive | readTag | readCompleted
  | readAlive | unsupported | setFlag =>
      exact ⟨_, rfl⟩
  | checkProbe name =>
      simp only [apply, Session.checkProbe]
      split <;> exact ⟨_, rfl⟩
  | _ => contradiction

/-- Playing a script that looks on reports its answers and sets its flags. -/
theorem Machine.run_of_onlooking
    {machine : Machine}
    {reply : Response}
    {below : List Response}
    {handler : String}
    {script : Script}
    {later : List Task}
    (onlooking : ∀ line ∈ script, line.2.looksOn = true)
    (hand : machine.hand = reply :: below)
    (planned : machine.tasks = .play handler script :: later) :
    ∃ reports,
      (∀ event ∈ reports, event.IsReport) ∧
        machine.run =
          ({ machine with
            session := machine.session.signalled (signals script)
            tasks := later
            trace := machine.trace ++ reports } : Machine).run := by
  induction script generalizing machine with
  | nil =>
      refine ⟨[], by simp, ?_⟩
      rw [run_of_step? (step?_of_cons planned), List.append_nil]
      rfl
  | cons line rest inductionHypothesis =>
      rcases line with ⟨word, step⟩
      obtain ⟨first, others⟩ := List.forall_mem_cons.mp onlooking
      obtain ⟨answer, applied⟩ :=
        step.apply_of_looksOn machine.session reply first
      -- The reply stays on top, so the rest of the script finds it there again.
      have played :
          ({ machine with tasks := later } : Machine).perform
              (.play handler ((word, step) :: rest)) =
            { machine with
              session := machine.session.signalled step.signal?.toList
              tasks :=
                .report handler word answer ::
                  .play handler rest :: later } := by
        simp only [perform, play, hand, applied, note, follow, List.map_nil,
          List.append_nil]
      obtain ⟨reports, only, reached⟩ :=
        inductionHypothesis others
          (show
            ({ machine with
              session := machine.session.signalled step.signal?.toList
              tasks := .play handler rest :: later
              trace :=
                machine.trace ++ [.reported handler word answer] } :
              Machine).hand = reply :: below
            from hand)
          rfl
      refine ⟨.reported handler word answer :: reports, ?_, ?_⟩
      · exact List.forall_mem_cons.mpr ⟨⟨_, _, _, rfl⟩, only⟩
      · have same :
            (machine.session.signalled step.signal?.toList).signalled
                (signals rest) =
              machine.session.signalled (signals ((word, step) :: rest)) := by
          simp only [signals, List.filterMap_cons]
          cases step.signal? <;> rfl
        rw [run_of_step? (step?_of_cons planned), played,
          run_of_step? (step?_of_cons rfl)]
        refine reached.trans ?_
        rw [same, List.append_assoc]
        rfl

/--
The handler that is due plays its script on the reply in hand, then the reply goes
back into its slot.
-/
theorem Machine.run_of_due
    {session : Session}
    {reply : Response}
    {due : Option Handler}
    {slot : String}
    {guarded : Bool}
    {trace : List Event}
    (onlooking :
      ∀ handler ∈ due, ∀ line ∈ handler.script, line.2.looksOn = true)
    (free : session.slots.get? slot = none) :
    ∃ reports,
      (∀ event ∈ reports, event.IsReport) ∧
        (Machine.mk session [reply]
            ((due.toList.map fun handler =>
                .play handler.name handler.script) ++
              [.shelve slot guarded])
            trace).run =
          ⟨{ session.signalled
                (due.toList.flatMap fun handler => signals handler.script) with
              slots := session.slots.put slot ⟨reply, guarded⟩ },
            [], [], trace ++ reports⟩ := by
  cases due with
  | none =>
      refine ⟨[], by simp, ?_⟩
      rw [run_of_shelve rfl rfl free, run_of_rested rfl, List.append_nil]
      rfl
  | some handler =>
      obtain ⟨reports, only, played⟩ :=
        @run_of_onlooking
          ⟨session, [reply],
            [.play handler.name handler.script, .shelve slot guarded], trace⟩
          reply [] handler.name handler.script [.shelve slot guarded]
          (onlooking handler rfl) rfl rfl
      have shelved :=
        @run_of_shelve
          ⟨session.signalled (signals handler.script), [reply],
            [.shelve slot guarded], trace ++ reports⟩
          reply [] slot guarded [] rfl rfl free
      refine ⟨reports, only, (played.trans shelved).trans ?_⟩
      rw [run_of_rested rfl, Option.toList_some, List.flatMap_singleton]
      rfl

namespace Session

variable
    {session : Session}
    {slot : String}
    {content : Holding}

/-- Finalizing fires the handler that is due, whose script looks on. -/
theorem perform_finalize_onlooking
    (present : session.slots.get? slot = some content)
    (onlooking :
      ∀ handler ∈ content.reply.finalize.value.2,
        ∀ line ∈ handler.script, line.2.looksOn = true) :
    ∃ reports,
      (∀ event ∈ reports, event.IsReport) ∧
        session.perform (.act slot (.ask .finalize)) =
          ⟨{ session.signalled
                (content.reply.finalize.value.2.toList.flatMap fun handler =>
                  signals handler.script) with
              slots :=
                (session.slots.erase slot).put slot
                  ⟨content.reply.finalize.value.1, content.guarded⟩ },
            .done,
            content.reply.finalize.notes.map Event.noted ++
                (content.reply.finalize.value.2.toList.map fun handler =>
                  .fired handler.serial handler.name
                    content.reply.finalize.value.1
                    (Probe.isAlive session.flags
                      content.reply.finalize.value.1.probe)) ++
              reports⟩ := by
  obtain ⟨reports, only, reached⟩ :=
    Machine.run_of_due onlooking
      (show (session.emptied slot).slots.get? slot = none
        from get?_emptied_self)
  refine ⟨reports, only, ?_⟩
  rw [perform_ask_finalize present, Machine.finalize_eq rfl]
  dsimp only [Machine.holding]
  rw [reached]
  rfl

/-- Firing a released handler, whose script looks on. -/
theorem perform_invoke_onlooking
    (present : session.slots.get? slot = some content)
    {name : String}
    {handler : Handler}
    (found : session.handlers.get? name = some handler)
    (onlooking : ∀ line ∈ handler.script, line.2.looksOn = true) :
    ∃ reports,
      (∀ event ∈ reports, event.IsReport) ∧
        session.perform (.act slot (.ask (.invokeHandler name))) =
          ⟨{ session.signalled (signals handler.script) with
              slots :=
                (session.slots.erase slot).put slot content
              handlers := session.handlers.erase name },
            .done,
            .fired handler.serial handler.name content.reply
                (Probe.isAlive session.flags content.reply.probe) ::
              reports⟩ := by
  have due :
      ∀ other ∈ some handler, ∀ line ∈ other.script,
        line.2.looksOn = true := by
    intro other member
    exact Option.some.inj member ▸ onlooking
  obtain ⟨reports, only, reached⟩ :=
    @Machine.run_of_due
      { session.emptied slot with handlers := session.handlers.erase name }
      content.reply (some handler) slot content.guarded
      [.fired handler.serial handler.name content.reply
        (Probe.isAlive session.flags content.reply.probe)]
      due get?_emptied_self
  have started :
      (Command.act slot (.ask (.invokeHandler name))).start session =
        (.done,
          ⟨{ session.emptied slot with
              handlers := session.handlers.erase name },
            [content.reply],
            [.play handler.name handler.script,
              .shelve slot content.guarded],
            [.fired handler.serial handler.name content.reply
              (Probe.isAlive session.flags content.reply.probe)]⟩) := by
    have kept : (session.emptied slot).handlers.get? name = some handler :=
      found
    simp only [Command.start, present, Action.start, ask, Step.apply,
      invokeHandler, kept]
    rfl
  refine ⟨reports, only, ?_⟩
  simp only [perform, started]
  refine
    (congrArg
      (fun finished : Machine =>
        (⟨finished.session, .done, finished.trace⟩ : Outcome))
      reached).trans ?_
  rw [Option.toList_some, List.flatMap_singleton]
  rfl

end Session

end Reply
