import Mathlib
import UpdatePosture.Proofs.Manifest
import UpdatePosture.Proofs.Session

/-!
# What a session is asked for

A session is asked for one thing after another: for reports, listings and manifests, and for the parts that they
are made of. A task knows nothing of the tasks before it, but whoever answers knows their requests. Main
statement: after any requests, each task ends as its steps say (`ends_carryOut`).
-/

namespace UpdatePosture

open Dialogue

/-! ## The steps of a manifest -/

/-- The manifest is made of two answers, the second of which may be missing. -/
def IsManifestOf (texts : List (Option String)) (manifest : Manifest) : Prop :=
  ∃ (installed : String) (containers : Option String), texts = [some installed, containers] ∧
    manifest =
      Manifest.build ((Apt.installedRows installed).map (·.manifestLine)) (containers.elim [] Snap.read)

namespace Session

variable (session : Session)

/-- The list of container packages. It can be done without if it is not to be had at all. -/
def containersStep (earlier : List Request) : Step where
  request := Snap.request
  flaw? := fun _ => none
  optional :=
    match Snap.request.answer session.execute earlier with
    | .ok _ => false
    | .error failure => decide (failure.kind = .unavailable)

def manifestStepsAfter (earlier : List Request) : List Step :=
  [session.queryStep .installed, session.containersStep (earlier ++ [(session.queryStep .installed).request])]

/-- The listing is made of these answers, all of them there are. -/
def IsListingOf (kind : ListingKind) (texts : List (Option String)) (listing : Listing) : Prop :=
  ∃ replies : Apt.Replies, texts = replies.texts ∧
    listing = Listing.build session.table kind (session.table.partition replies.packages)

end Session

section Parts

variable (session : Session) (earlier : List Request)

theorem problem?_snapRequest : Snap.request.problem? = none := by
  decide +kernel

theorem kind_ne_of_needed {failure : Failure} (hneeded : (session.containersStep earlier).optional = false)
    (h : Snap.request.textOf (session.execute earlier Snap.request) = .error failure) :
    failure.kind ≠ .unavailable := by
  intro hkind
  rw [← Request.answer_of_problem? problem?_snapRequest] at h
  simp [Session.containersStep, h, hkind] at hneeded

/-- Container packages that are not to be had are none. Any other failure to list them is passed on. -/
theorem ends_containers :
    Ends session.execute earlier [session.containersStep earlier]
      (fun texts containers => ∃ list : Option String, texts = [list] ∧ containers = list.elim [] Snap.read)
      (runFrom session.containers earlier) := by
  have hhanded := Request.handed_of_problem? problem?_snapRequest
  have hrun : runFrom (Snap.list session.execute) earlier =
      (Snap.request.answer session.execute earlier, earlier ++ [Snap.request]) := by
    rw [Snap.list, Request.runFrom_perform, hhanded]
  rw [Session.containers, runFrom_snapPackages, hrun]
  cases hanswer : Snap.request.answer session.execute earlier with
  | ok list =>
    have hfailure : (session.containersStep earlier).failure? session.execute earlier = none :=
      Step.failure?_of_ok hanswer
    refine .completed (passes_singleton (.inr hfailure)) ⟨some list, ?_, rfl⟩
    exact congrArg (fun answer => [answer.toOption]) hanswer
  | error failure =>
    have hfailure : (session.containersStep earlier).failure? session.execute earlier = some failure :=
      Step.failure?_of_error hanswer
    have hoptional : (session.containersStep earlier).optional = decide (failure.kind = .unavailable) := by
      simp only [Session.containersStep, hanswer]
    -- the handler and the step ask the same thing of the failure
    by_cases hkind : failure.kind = .unavailable
    · simp only [hkind, if_true]
      refine .completed (passes_singleton (.inl ?_)) ⟨none, ?_, rfl⟩
      · rw [hoptional]
        exact decide_eq_true hkind
      · exact congrArg (fun answer => [answer.toOption]) hanswer
    · simp only [hkind, if_false]
      rw [← hhanded]
      refine .stopped_singleton ?_ hfailure
      rw [hoptional]
      exact decide_eq_false hkind

theorem ends_manifestLines :
    Ends session.execute earlier [session.queryStep .installed]
      (fun texts lines => ∃ installed : String, texts = [some installed] ∧
        lines = (Apt.installedRows installed).map (·.manifestLine))
      (runFrom session.manifestLines earlier) := by
  show Ends _ _ ([session.queryStep .installed] ++ []) _ _
  refine (ends_query session earlier .installed rfl).bind fun installed hinstalled => Ends.pure ?_
  exact ⟨installed, by rw [hinstalled, List.append_nil], rfl⟩

theorem ends_manifest :
    Ends session.execute earlier (session.manifestStepsAfter earlier) IsManifestOf
      (runFrom session.manifest earlier) := by
  show Ends _ _ ([session.queryStep .installed] ++ ([session.containersStep _] ++ [])) _ _
  refine (ends_manifestLines session earlier).bind fun lines hlines => ?_
  refine (ends_containers session _).bind fun containers hcontainers => Ends.pure ?_
  obtain ⟨installed, hinstalled, rfl⟩ := hlines
  obtain ⟨list, hlist, rfl⟩ := hcontainers
  refine ⟨installed, list, ?_, rfl⟩
  rw [hinstalled, List.append_nil]
  exact congrArg _ hlist

theorem ends_partition :
    Ends session.execute earlier (session.indexStepsAfter earlier)
      (fun texts partition => ∃ replies : Apt.Replies, texts = replies.texts ∧
        partition = session.table.partition replies.packages)
      (runFrom session.partition earlier) := by
  refine ((ends_packages session earlier).logging _).map fun texts packages hpackages => ?_
  obtain ⟨replies, htexts, rfl⟩ := hpackages
  exact ⟨replies, htexts, rfl⟩

theorem ends_listing (kind : ListingKind) :
    Ends session.execute earlier (session.indexStepsAfter earlier) (session.IsListingOf kind)
      (runFrom (session.listing kind) earlier) := by
  refine ((ends_partition session earlier).logging _).map fun texts partition hpartition => ?_
  obtain ⟨replies, htexts, rfl⟩ := hpartition
  exact ⟨replies, htexts, rfl⟩

end Parts

/-! ## Tasks -/

/-- What a session can be asked for. -/
inductive Task where
  | subscription
  | packages
  | manifestLines
  | containers
  | report
  | partition
  | listing (kind : ListingKind)
  | manifest
  deriving DecidableEq, Repr

namespace Session

variable (session : Session)

/-- Does what is asked for, whatever comes of it. -/
def carryOut : Task → Dialogue Request Unit
  | .subscription => (fun _ => ()) <$> session.subscription
  | .packages => (fun _ => ()) <$> session.packages
  | .manifestLines => (fun _ => ()) <$> session.manifestLines
  | .containers => (fun _ => ()) <$> session.containers
  | .report => (fun _ => ()) <$> session.report
  | .partition => (fun _ => ()) <$> session.partition
  | .listing kind => (fun _ => ()) <$> session.listing kind
  | .manifest => (fun _ => ()) <$> session.manifest

/-- The steps of a task that is carried out after other requests. -/
def steps (earlier : List Request) : Task → List Step
  | .subscription => [session.statusStep]
  | .packages | .partition | .listing _ => session.indexStepsAfter earlier
  | .manifestLines => [session.queryStep .installed]
  | .containers => [session.containersStep earlier]
  | .report => session.reportStepsAfter earlier
  | .manifest => session.manifestStepsAfter earlier

/-- The requests of tasks that are carried out one after the other, however each of them ends. -/
def history (tasks : List Task) : List Request :=
  tasks.foldl (fun earlier task => (runFrom (session.carryOut task) earlier).2) []

end Session

/-- A task ends in success once all its steps are taken, or else with the first step that it needs and that does
not come off. -/
theorem ends_carryOut (session : Session) (earlier : List Request) (task : Task) :
    Ends session.execute earlier (session.steps earlier task) (fun _ _ => True)
      (runFrom (session.carryOut task) earlier) := by
  cases task with
  | subscription => exact (ends_subscription session earlier).map fun _ _ _ => trivial
  | packages => exact (ends_packages session earlier).map fun _ _ _ => trivial
  | manifestLines => exact (ends_manifestLines session earlier).map fun _ _ _ => trivial
  | containers => exact (ends_containers session earlier).map fun _ _ _ => trivial
  | report => exact (ends_reportAfter session earlier).map fun _ _ _ => trivial
  | partition => exact (ends_partition session earlier).map fun _ _ _ => trivial
  | listing kind => exact (ends_listing session earlier kind).map fun _ _ _ => trivial
  | manifest => exact (ends_manifest session earlier).map fun _ _ _ => trivial

end UpdatePosture
