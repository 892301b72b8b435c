import UpdatePosture.Bucket

/-!
# Subscriptions

What the machine's subscription gives access to, and what that means for an update.
-/

namespace UpdatePosture

structure Subscription where
  attached : Bool
  /-- The services that are switched on. -/
  enabled : BucketSet
  /-- The services that the subscription covers. -/
  entitled : BucketSet
  deriving DecidableEq, Repr

namespace Subscription

/-- No subscription. -/
def unattached : Subscription := ⟨false, ∅, ∅⟩

instance : Inhabited Subscription := ⟨unattached⟩

/-- The subscription with these services; only services that need a subscription are kept. -/
def ofServices (entitled enabled : List Bucket) : Subscription where
  attached := true
  enabled := .ofList (enabled.filter (·.isEsm))
  entitled := .ofList (entitled.filter (·.isEsm))

end Subscription

/-- What stands between the machine and an update. -/
inductive Availability where
  | upgradeAvailable
  | pendingAttach
  | pendingEnable
  | upgradeUnavailable
  deriving DecidableEq, Repr

namespace Availability

def all : List Availability :=
  [upgradeAvailable, pendingAttach, pendingEnable, upgradeUnavailable]

def name : Availability → String
  | upgradeAvailable => "upgrade_available"
  | pendingAttach => "pending_attach"
  | pendingEnable => "pending_enable"
  | upgradeUnavailable => "upgrade_unavailable"

def ofName? (text : String) : Option Availability :=
  all.find? fun availability => availability.name == text

theorem ofName?_name (availability : Availability) : ofName? availability.name = some availability := by
  cases availability <;> decide +kernel

end Availability

/-- Whether updates of `service` can be installed. Standard updates always can; the others need a
subscription that covers the service, and the service switched on. -/
def Subscription.availability (subscription : Subscription) (service : Bucket) : Availability :=
  if service = .standardSecurity then .upgradeAvailable
  else if subscription.attached ∧ service ∈ subscription.enabled then .upgradeAvailable
  else if !subscription.attached then .pendingAttach
  else if service ∈ subscription.entitled then .pendingEnable
  else .upgradeUnavailable

end UpdatePosture
