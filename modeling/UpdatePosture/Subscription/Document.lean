import UpdatePosture.Json.Reader
import UpdatePosture.Json.Record
import UpdatePosture.Subscription
import UpdatePosture.Text.Cut
import UpdatePosture.Tool.Run

/-!
# The status document of a subscription

The subscription tool answers with a JSON document that says whether the machine is attached and lists
services. Of each service the name and two remarks matter: whether the subscription covers it and whether it
is switched on. Without a subscription the services do not count, but they still have to be well formed.

Whoever asks for the subscription is given a reader of documents (`StatusReader`), because what is wrong with a
document that is not accepted is said in the reader's words. `StatusDocument.plainReader` is one.
-/

namespace UpdatePosture

open Json (Field)

/-- A service as the document lists it. -/
structure ListedService where
  name : String
  entitled : Option String
  status : Option String
  deriving DecidableEq, Repr

namespace ListedService

def fields : List Field :=
  [.required "name", .optional "entitled" .null, .optional "status" .null]

def ofJson? (json : Json) : Option ListedService := do
  let [name, entitled, status] ← json.fields? fields | none
  return ⟨← name.string?, ← entitled.nullable? Json.string?, ← status.nullable? Json.string?⟩

def isEntitled (service : ListedService) : Bool := service.entitled == some "yes"

def isEnabled (service : ListedService) : Bool := service.status == some "enabled"

end ListedService

structure StatusDocument where
  attached : Bool
  services : List ListedService
  deriving DecidableEq, Repr

namespace StatusDocument

def fields : List Field :=
  [.required "attached", .optional "services" (.array [])]

def ofJson? (json : Json) : Option StatusDocument := do
  let [attached, services] ← json.fields? fields | none
  return ⟨← attached.bool?, ← services.list? ListedService.ofJson?⟩

/-- Reads a document; white space around it does not count. -/
def parse? (text : String) : Option StatusDocument :=
  (Json.parse? (String.ofList (Text.trim text.toList))).bind ofJson?

/-- The buckets of the services that a remark is true of. -/
def named (document : StatusDocument) (remark : ListedService → Bool) : List Bucket :=
  (document.services.filter remark).filterMap fun service => Bucket.ofName? service.name

/-- The subscription that a document tells of. -/
def subscription (document : StatusDocument) : Subscription :=
  if document.attached then
    .ofServices (document.named (·.isEntitled)) (document.named (·.isEnabled))
  else .unattached

/-- A reader of few words. -/
def plainReader (text : String) : Except String StatusDocument :=
  (parse? text).elim (.error "not a status document") .ok

end StatusDocument

/-- Reads a document, or says what is wrong with it. -/
abbrev StatusReader := String → Except String StatusDocument

namespace Subscription

/-- A failure to learn of the subscription. -/
def failure (cause : Cause) : Failure := ⟨.pro, .readSubscription, cause⟩

def event (subscription : Subscription) : LogEvent :=
  .subscriptionRead subscription.attached subscription.entitled.toList.length subscription.enabled.toList.length

/-- The subscription, from a dialogue that yields the document. -/
def ask {Q : Type} (reader : StatusReader) (status : Dialogue Q String) : Dialogue Q Subscription :=
  Dialogue.logging (fun subscription => [subscription.event]) do
    match reader (← status) with
    | .ok document => return document.subscription
    | .error reason => throw (failure (.unreadableSubscription reason))

/-- How long the document may take, in milliseconds. -/
def statusTimeout : Nat := 60000

def statusRequest : Request where
  program := "pro"
  args := ["status", "--format", "json", "--all"]
  env := []
  source := .pro
  action := .readSubscription
  timeout := some statusTimeout

/-- The document on the machine. -/
def status (execute : Executor) (timeout : Option Nat) : Dialogue Request String :=
  (statusRequest.limited timeout).perform execute

end Subscription

end UpdatePosture
