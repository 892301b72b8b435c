import UpdatePosture.Apt.Requests
import UpdatePosture.Listing
import UpdatePosture.Manifest
import UpdatePosture.Snap
import UpdatePosture.Subscription.Document

/-!
# Sessions on a machine

A session puts the questions that the program answers to the tools of a machine. The report asks for the
subscription first and then for the packages; a listing asks for the packages alone.
-/

namespace UpdatePosture

structure Session where
  table : OriginTable
  /-- How many packages are asked about at a time. -/
  chunkSize : Nat
  /-- The limit for lists of packages, in milliseconds, if it is not the usual one. -/
  listTimeout : Option Nat
  /-- The limit for the subscription, in milliseconds, if it is not the usual one. -/
  statusTimeout : Option Nat
  reader : StatusReader
  execute : Executor

namespace Session

def packages (session : Session) : Dialogue Request (List InstalledPackage) :=
  Apt.installedPackages (Apt.tools session.execute session.listTimeout) session.chunkSize

def manifestLines (session : Session) : Dialogue Request (List String) :=
  Apt.manifestLines (Apt.tools session.execute session.listTimeout)

def subscription (session : Session) : Dialogue Request Subscription :=
  Subscription.ask session.reader (Subscription.status session.execute session.statusTimeout)

def containers (session : Session) : Dialogue Request (List ContainerPackage) :=
  Snap.packages (Snap.list session.execute)

def report (session : Session) : Dialogue Request Report := do
  let subscription ← session.subscription
  let packages ← session.packages
  Dialogue.log (Report.buildLog session.table packages subscription)
  return Report.build session.table packages subscription

def partition (session : Session) : Dialogue Request Partition :=
  session.table.partition <$> Dialogue.logging session.table.partitionLog session.packages

def listing (session : Session) (kind : ListingKind) : Dialogue Request Listing :=
  Listing.build session.table kind <$> Dialogue.logging (Listing.buildLog session.table kind) session.partition

def manifest (session : Session) : Dialogue Request Manifest :=
  Manifest.ask session.manifestLines session.containers

end Session

end UpdatePosture
