import NamedArguments.Extraction

/-!
Sessions of a program with its settings. Operations use the settings directly, or
by way of loggers and extractions, and the environment and the files around the
program may change between them. A session is what an operation finds: what
settings are read from, and the settings once they are loaded.
-/
namespace NamedArguments

open Settings (Surroundings Store Environment Finder Access)

/-- What a program does that may involve its settings, or what changes around it. -/
inductive Operation : Type 1 where
  | get (path : String)
  | has (path : String)
  | all
  | origin
  | set (values : Value)
  | reset
  /-- A logger is given a message. -/
  | log (logger : Logger) (severity : Level) (message : String)
  | extract {σ : Type} (m : Option (Mapping σ)) (schema : Schema) (buffer : Option Buffer)
      (request : Extraction.Request) (state : σ)
  /-- Other environment variables are set. -/
  | environment (environment : Environment)
  /-- There are other files, or the search for them comes to something else. -/
  | files (finder : Finder)

/-- What an operation answers. -/
inductive Answer : Type 1 where
  | done
  | value (v : Value)
  | flag (b : Bool)
  | name (origin : Option String)
  /-- What a logger's own writer gets. -/
  | written (lines : List Line)
  /-- The outcome of an extraction with all that it leaves behind. -/
  | extracted {σ : Type} (outcome : Except Fault Nat) (mapping : σ) (buffer : Option Buffer)
  | fault (fault : Fault)

/-- What an operation finds. -/
@[ext]
structure Session where
  around : Surroundings
  store : Store

/-- What an operation comes to. -/
structure Effect : Type 1 where
  answer : Answer
  session : Session
  /-- The lines written to the console on the way. -/
  lines : List Line

namespace Session

/-- A session in which nothing is loaded yet. -/
def fresh (around : Surroundings) : Session := { around, store := Settings.reset }

/-- The effect of an access to the settings. -/
def accessed {α : Type} (session : Session) (access : Access α) (answer : α → Answer) : Effect :=
  { answer :=
      match access.outcome with
      | .ok x => answer x
      | .error fault => .fault fault
    session := { session with store := access.store }
    lines := access.lines }

/-- The effect of an operation. -/
def perform (session : Session) : Operation → Effect
  | .get path => session.accessed (Settings.get session.around session.store path) .value
  | .has path => session.accessed (Settings.has session.around session.store path) .flag
  | .all => session.accessed (Settings.all session.around session.store) .value
  | .origin => session.accessed (Settings.origin session.around session.store) .name
  | .set values =>
    session.accessed (Settings.set session.around session.store values) fun _ => .done
  | .reset => { answer := .done, session := fresh session.around, lines := [] }
  | .log logger severity message =>
    session.accessed (logger.write session.around session.store severity message) .written
  | .extract m schema buffer request state =>
    let result :=
      Extraction.underSettings session.around session.store m schema buffer request state
    { answer := .extracted result.outcome result.mapping result.buffer
      session := { session with store := result.store }
      lines := result.lines }
  | .environment environment =>
    { answer := .done
      session := { session with around := { session.around with environment } }
      lines := [] }
  | .files finder =>
    { answer := .done
      session := { session with around := { session.around with finder } }
      lines := [] }

/-- The session that operations leave behind. -/
def after (session : Session) : List Operation → Session
  | [] => session
  | operation :: rest => (session.perform operation).session.after rest

end Session

/-- An operation together with what it found. -/
structure Event : Type 1 where
  before : Session
  operation : Operation

def Event.effect (event : Event) : Effect := event.before.perform event.operation

/-- What happens in a session, operation by operation. -/
def Session.events (session : Session) : List Operation → List Event
  | [] => []
  | operation :: rest =>
    { before := session, operation } :: (session.perform operation).session.events rest

theorem Session.after_append (session : Session) (operations more : List Operation) :
    session.after (operations ++ more) = (session.after operations).after more := by
  induction operations generalizing session with
  | nil => rfl
  | cons operation rest ih => exact ih _

theorem Session.events_append (session : Session) (operations more : List Operation) :
    session.events (operations ++ more) =
      session.events operations ++ (session.after operations).events more := by
  induction operations generalizing session with
  | nil => rfl
  | cons operation rest ih => simp only [List.cons_append, events, after, ih]

end NamedArguments
