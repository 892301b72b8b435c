import UpdatePosture.Log

/-!
# Dialogues

A dialogue asks queries one at a time and ends in a value or a failure. Its state is the list of the queries
asked so far, oldest first. Whoever answers sees that list, so that an answer may depend on what was asked
before, as the answer of a machine that changes does. What is logged on the way is collected beside.
-/

namespace UpdatePosture

abbrev Dialogue (Query : Type) : Type → Type := ExceptT Failure (StateT (List Query) Logged)

namespace Dialogue

variable {Query : Type} {α : Type}

/-- Answers a query, given the queries before it. -/
abbrev Responder (Query Answer : Type) := List Query → Query → Answer

/-- The entry at a position, or the last one, or `fallback` if there are none. -/
def entryAt (entries : List α) (position : Nat) (fallback : α) : α :=
  (entries[position]? <|> entries.getLast?).getD fallback

/-- Answers the queries of each kind from a list, one entry a query and the last one over and over. -/
def scripted {Kind Answer : Type} [DecidableEq Kind] (kind : Query → Kind) (answers : Kind → List Answer)
    (fallback : Answer) : Responder Query Answer := fun asked query =>
  entryAt (answers (kind query)) (asked.countP (kind · = kind query)) fallback

/-- Puts one query. -/
def ask (respond : Responder Query (Except Failure α)) (query : Query) : Dialogue Query α :=
  ExceptT.mk fun asked => ⟨(respond asked query, asked ++ [query]), []⟩

/-- Adds to the log. -/
def log (events : List LogEvent) : Dialogue Query Unit :=
  ExceptT.mk fun asked => ⟨(.ok (), asked), events⟩

/-- Logs what there is to say of the value, once there is one. -/
def logging (events : α → List LogEvent) (dialogue : Dialogue Query α) : Dialogue Query α := do
  let value ← dialogue
  log (events value)
  return value

/-- Goes on without a value if the dialogue fails, and logs the failure; the queries stay asked. -/
def attempt (dialogue : Dialogue Query α) (event : Failure → LogEvent) : Dialogue Query (Option α) :=
  tryCatch (some <$> dialogue) fun failure => logging (fun _ => [event failure]) (pure none)

/-- The outcome of a dialogue with the queries it asked, and what it logged. -/
def course (dialogue : Dialogue Query α) : Logged (Except Failure α × List Query) :=
  StateT.run (ExceptT.run dialogue) []

/-- The outcome of a dialogue and the queries it asked. -/
def transcript (dialogue : Dialogue Query α) : Except Failure α × List Query :=
  dialogue.course.value

end Dialogue

end UpdatePosture
