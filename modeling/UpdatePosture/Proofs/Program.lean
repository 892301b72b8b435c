import Mathlib
import UpdatePosture.Program
import UpdatePosture.Proofs.Session.Tasks
import UpdatePosture.Proofs.Settings

/-!
# How the program ends

Given a command, the program either writes one document, which is all of the report, the listing or the manifest
that it was asked for, or writes nothing to standard output and one line to standard error about the first thing
that it could not do without. Main statement: `concludes_run`.
-/

namespace UpdatePosture

open Dialogue

/-! ## Who is asked -/

/-- All steps about packages are questions to the package tools. -/
theorem exists_of_mem_indexStepsAfter {session : Session} {earlier : List Request} {step : Step}
    (h : step ∈ session.indexStepsAfter earlier) : ∃ query, step = session.queryStep query := by
  rcases List.mem_cons.mp h with rfl | h
  · exact ⟨_, rfl⟩
  rcases List.mem_cons.mp h with rfl | h
  · exact ⟨_, rfl⟩
  obtain ⟨names, -, h⟩ := List.mem_flatMap.mp h
  rcases List.mem_pair.mp h with rfl | rfl
  · exact ⟨_, rfl⟩
  · exact ⟨_, rfl⟩

theorem program_queryStep (session : Session) (query : Apt.Query) :
    (session.queryStep query).request.program = "dpkg-query" ∨
      (session.queryStep query).request.program = "apt-cache" := by
  cases query with
  | installed => exact .inl rfl
  | packageFiles | policy names | details names => exact .inr rfl

/-! ## Commands -/

namespace Command

/-- All steps of a command, should none of them end it. -/
def steps (session : Session) : Command → List Step
  | securityStatus _ none => session.reportSteps
  | securityStatus _ (some _) => session.indexStepsAfter []
  | manifest => session.manifestStepsAfter []

/-- The document is what the command asks for, made of all these answers and in the format that is asked for. -/
def IsDocumentOf (session : Session) : Command → List (Option String) → String → Prop
  | securityStatus format none, texts, document =>
      ∃ report, session.IsReportOf texts report ∧ document = report.render format
  | securityStatus format (some kind), texts, document =>
      ∃ listing, session.IsListingOf kind texts listing ∧ document = listing.render format
  | manifest, texts, document => ∃ manifest, IsManifestOf texts manifest ∧ document = manifest.render

theorem ends_document (command : Command) (session : Session) :
    Ends session.execute [] (command.steps session) (command.IsDocumentOf session)
      (command.document session).transcript := by
  rw [transcript_eq_runFrom]
  cases command with
  | securityStatus format listing =>
    cases listing with
    | none => exact (ends_report session).map fun _ report hreport => ⟨report, hreport, rfl⟩
    | some kind => exact (ends_listing session [] kind).map fun _ listing hlisting => ⟨listing, hlisting, rfl⟩
  | manifest => exact (ends_manifest session []).map fun _ manifest hmanifest => ⟨manifest, hmanifest, rfl⟩

end Command

/-! ## Runs of the program -/

/-- Where no event is to be shown, nothing is. -/
theorem Logger.text_eq_empty {logger : Logger} {verbose : Bool} {events : List LogEvent}
    (h : ∀ event ∈ events, logger.shows verbose event = false) : logger.text verbose events = "" := by
  have hnone : events.filter (logger.shows verbose) = [] :=
    List.filter_eq_nil_iff.mpr fun event hevent => by simp [h event hevent]
  rw [text, hnone]
  rfl

theorem ExitReport.failure_eq (log context : String) (failure : Failure) :
    ExitReport.failure log context failure =
      ⟨1, "", log ++ ("Error: " ++ context ++ ": " ++ failure.kind.name ++ ": " ++ failure.message ++ "\n")⟩ := by
  unfold ExitReport.failure Failure.display
  simp only [String.append_assoc, toString]

namespace Program

/-- What is shown of the log. -/
def shownLog (invocation : Invocation) (host : Host) : String :=
  host.logger.text invocation.verbose (log invocation host)

/-- How a run ends that has a command, and the requests that it hands over. -/
inductive Concludes (invocation : Invocation) (host : Host) : ExitReport × List Request → Prop
  /-- Without a series, nothing is asked for. -/
  | noSeries {failure : Failure} :
      Settings.resolve invocation.series host.release = .error failure →
      Concludes invocation host
        (⟨1, "", shownLog invocation host ++ ("Error: could not determine the release series: " ++
          failure.kind.name ++ ": " ++ failure.message ++ "\n")⟩, [])
  /-- All steps that are needed have come off, and the document is made of all answers. -/
  | written {settings : Settings} {document : String} :
      Settings.resolve invocation.series host.release = .ok settings →
      Passes host.execute [] (invocation.command.steps (settings.session host)) →
      invocation.command.IsDocumentOf (settings.session host)
        (answers host.execute [] (invocation.command.steps (settings.session host))) document →
      Concludes invocation host
        (⟨0, document, shownLog invocation host⟩,
          (invocation.command.steps (settings.session host)).map (·.request))
  /-- The step is the first that is needed and does not come off. Its failure is in its own name, if the executor
  names what was asked for in its failures. -/
  | failed {settings : Settings} {done : List Step} {step : Step} {rest : List Step} {failure : Failure} :
      Settings.resolve invocation.series host.release = .ok settings →
      invocation.command.steps (settings.session host) = done ++ step :: rest →
      Passes host.execute [] done → step.optional = false →
      step.failure? host.execute (done.map (·.request)) = some failure →
      (host.execute.Tags → (failure.source, failure.action) = step.purpose) →
      Concludes invocation host
        (⟨1, "", shownLog invocation host ++ ("Error: " ++ invocation.command.context ++ ": " ++ failure.kind.name ++
          ": " ++ failure.message ++ "\n")⟩, done.map (·.request) ++ step.request.handed)

theorem concludes_perform (invocation : Invocation) (host : Host) :
    Concludes invocation host (perform invocation host) := by
  unfold perform
  cases hsettings : Settings.resolve invocation.series host.release with
  | error failure =>
    show Concludes invocation host (ExitReport.failure (shownLog invocation host) seriesContext failure, [])
    rw [ExitReport.failure_eq]
    exact .noSeries hsettings
  | ok settings =>
    have hends := invocation.command.ends_document (settings.session host)
    simp only
    generalize (invocation.command.document (settings.session host)).transcript = result at hends ⊢
    cases hends with
    | completed hpasses hdocument => exact .written hsettings hpasses hdocument
    | @stopped done step rest failure hcut hdone hneeded hfailure hpurpose =>
      simp only
      rw [ExitReport.failure_eq]
      exact .failed hsettings hcut hdone hneeded hfailure hpurpose

variable {invocation : Invocation} {host : Host} {result : ExitReport × List Request}

/-- What is handed over are the first requests of the command's steps. -/
theorem Concludes.requests_prefix (h : Concludes invocation host result) :
    result.2 = [] ∨ ∃ settings, Settings.resolve invocation.series host.release = .ok settings ∧
      result.2 <+: (invocation.command.steps (settings.session host)).map (·.request) := by
  cases h with
  | noSeries hsettings => exact .inl rfl
  | written hsettings hpasses hdocument => exact .inr ⟨_, hsettings, List.prefix_rfl⟩
  | failed hsettings hcut hdone hneeded hfailure hpurpose =>
    refine .inr ⟨_, hsettings, ?_⟩
    rw [hcut]
    exact append_handed_prefix _ _ _

/-- A listing has no use for the subscription or for container packages. -/
theorem Concludes.program_of_listing (h : Concludes invocation host result) {format : OutputFormat}
    {kind : ListingKind} (hcommand : invocation.command = .securityStatus format (some kind)) :
    ∀ request ∈ result.2, request.program = "dpkg-query" ∨ request.program = "apt-cache" := by
  intro request hrequest
  rcases h.requests_prefix with hnone | ⟨settings, -, hstart⟩
  · rw [hnone] at hrequest
    cases hrequest
  · rw [hcommand] at hstart
    obtain ⟨step, hstep, rfl⟩ := List.mem_map.mp (hstart.subset hrequest)
    obtain ⟨query, rfl⟩ := exists_of_mem_indexStepsAfter hstep
    exact program_queryStep _ query

theorem problem?_installedRequest : (Apt.installedRequest .listInstalled).problem? = none := by
  decide +kernel

/-- Whatever the series, the requests of a manifest are these two. -/
theorem map_request_manifestSteps (name : String) (host : Host) :
    (Command.manifest.steps ((Settings.ofSeries name).session host)).map (·.request) =
      [Apt.installedRequest .listInstalled, Snap.request] := rfl

theorem Concludes.requests_of_manifest (h : Concludes invocation host result)
    (hcommand : invocation.command = .manifest) :
    result.2 <+: [Apt.installedRequest .listInstalled, Snap.request] := by
  rcases h.requests_prefix with hnone | ⟨settings, hsettings, hstart⟩
  · rw [hnone]
    exact List.nil_prefix
  · obtain ⟨name, -, rfl⟩ := Settings.resolve_eq_ok_iff.mp hsettings
    rwa [hcommand, map_request_manifestSteps] at hstart

/-- A list of two is cut before the first or before the second. -/
theorem eq_append_cons_of_pair {α : Type} {first second item : α} {done rest : List α}
    (h : [first, second] = done ++ item :: rest) : done = [] ∧ item = first ∨ done = [first] ∧ item = second := by
  rcases done with _ | ⟨one, _ | ⟨two, done⟩⟩
  · exact .inl ⟨rfl, (List.cons.inj h).1.symm⟩
  · simp only [List.cons_append, List.nil_append, List.cons.injEq] at h
    exact .inr ⟨by rw [h.1], h.2.1.symm⟩
  · simp at h

/-- Only two things keep a manifest from being written: that the package database cannot be had, and that the
container packages cannot be had although there is a tool for them. -/
theorem Concludes.failure_of_manifest (h : Concludes invocation host result)
    (hcommand : invocation.command = .manifest) {settings : Settings}
    (hsettings : Settings.resolve invocation.series host.release = .ok settings) (hcode : result.1.code ≠ 0) :
    (∃ failure, (Apt.installedRequest .listInstalled).textOf
        (host.execute [] (Apt.installedRequest .listInstalled)) = .error failure) ∨
      ∃ failure, Snap.request.textOf (host.execute [Apt.installedRequest .listInstalled] Snap.request) =
        .error failure ∧ failure.kind ≠ .unavailable := by
  cases h with
  | noSeries hnone =>
    rw [hsettings] at hnone
    cases hnone
  | written hsettings' hpasses hdocument => exact absurd rfl hcode
  | @failed settings' done step rest failure hsettings' hcut hdone hneeded hfailure hpurpose =>
    obtain ⟨name, -, rfl⟩ := Settings.resolve_eq_ok_iff.mp hsettings'
    rw [hcommand] at hcut
    rcases eq_append_cons_of_pair hcut with ⟨rfl, rfl⟩ | ⟨rfl, rfl⟩
    · rcases Step.textOf_or_flaw?_of_failure? problem?_installedRequest hfailure with
        herror | ⟨text, cause, -, hflaw, -⟩
      · exact .inl ⟨failure, herror⟩
      · cases hflaw
    · rcases Step.textOf_or_flaw?_of_failure? problem?_snapRequest hfailure with
        herror | ⟨text, cause, -, hflaw, -⟩
      · exact .inr ⟨failure, herror, kind_ne_of_needed _ _ hneeded herror⟩
      · cases hflaw

/-- Given a command, the program ends as `Concludes` says; where no event of the log is to be shown, nothing but the
line about a failure stands on standard error. A listing asks none but the package tools. A manifest asks the package
database and then for the container packages, and it fails, once there is a series, only if the first cannot be had,
or the second cannot although there is a tool for them. Nothing is assumed of the parser of the command line but that
it accepts these words. -/
theorem concludes_run {parse : ArgumentParser} {words : List String} {environment : Option String}
    {invocation : Invocation} (h : parse words environment = .ok invocation) (host : Host) :
    Concludes invocation host (run parse words environment host) ∧
    ((∀ event ∈ log invocation host, host.logger.shows invocation.verbose event = false) →
      shownLog invocation host = "") ∧
    (∀ format kind, invocation.command = .securityStatus format (some kind) →
      ∀ request ∈ (run parse words environment host).2,
        request.program = "dpkg-query" ∨ request.program = "apt-cache") ∧
    (invocation.command = .manifest →
      (run parse words environment host).2 <+: [Apt.installedRequest .listInstalled, Snap.request] ∧
      ∀ settings, Settings.resolve invocation.series host.release = .ok settings →
        (run parse words environment host).1.code ≠ 0 →
        (∃ failure, (Apt.installedRequest .listInstalled).textOf
            (host.execute [] (Apt.installedRequest .listInstalled)) = .error failure) ∨
          ∃ failure, Snap.request.textOf (host.execute [Apt.installedRequest .listInstalled] Snap.request) =
            .error failure ∧ failure.kind ≠ .unavailable) := by
  have hrun : run parse words environment host = perform invocation host := by
    rw [run, h]
  have hconcludes : Concludes invocation host (run parse words environment host) :=
    hrun ▸ concludes_perform invocation host
  refine ⟨hconcludes, Logger.text_eq_empty, ?_, ?_⟩
  · intro format kind hcommand
    exact hconcludes.program_of_listing hcommand
  · intro hcommand
    refine ⟨hconcludes.requests_of_manifest hcommand, fun settings hsettings hcode => ?_⟩
    exact hconcludes.failure_of_manifest hcommand hsettings hcode

/-! ### Two machines -/

/-- One package is installed and has an update. Its details are not to be had, and there are no container packages. -/
def officeRun (request : Request) : Run :=
  match request.program, request.args with
  | "pro", _ => .finished ⟨.exited 0, Text.Utf8.encode "\x7b\"attached\": false\x7d", []⟩
  | "dpkg-query", _ => .finished ⟨.exited 0, Text.Utf8.encode "ii \tcurl\t8.5\n", []⟩
  | "apt-cache", ["policy"] =>
      .finished ⟨.exited 0, Text.Utf8.encode " 500 repo\n     release o=Ubuntu,a=jammy-security,c=main\n", []⟩
  | "apt-cache", "policy" :: _ =>
      .finished ⟨.exited 0, Text.Utf8.encode
        "curl:\n  Candidate: 8.6\n  Version table:\n     8.6 500\n        500 repo\n", []⟩
  | program, _ => .notStarted (request.failure (.notStarted program ⟨true, "No such file or directory"⟩))

def officeHost : Host where
  release := ⟨"/etc/os-release", .ok (Text.Utf8.encode "VERSION_CODENAME=jammy\n")⟩
  execute := fun _ => officeRun
  reader := StatusDocument.plainReader
  logger := .plain

/-- No program may be run. -/
def lockedHost : Host where
  release := ⟨"/etc/os-release", .error ⟨true, "No such file or directory"⟩⟩
  execute := fun _ request =>
    .notStarted (request.failure (.notStarted request.program ⟨false, "Permission denied"⟩))
  reader := StatusDocument.plainReader
  logger := .plain

/-- Runs the program where no series is in the environment. -/
def runOn (host : Host) (words : List String) : ExitReport × List Request :=
  run (CommandLine.parser fun _ => "") words none host

/-- The summary of the packages, with a line about the only update. -/
def officeReport : String :=
  "1 package installed:\n  1 package from Ubuntu Main/Restricted repository\n\n" ++
  "To get more information about the packages, run\n    secstat security-status --help\n" ++
  "for a list of available options.\n\n1 standard security update available.\n\n" ++
  "No additional security updates for Ubuntu Main/Restricted available with esm-infra.\n" ++
  "Attach this machine to an Ubuntu Pro subscription to receive them.\n\n" ++
  "No additional security updates for Ubuntu Universe/Multiverse available with esm-apps.\n" ++
  "Attach this machine to an Ubuntu Pro subscription to receive them.\n\n"

theorem runOn_report : (runOn officeHost ["security-status"]).1 =
    ⟨0, officeReport, "WARN apt-cache show failed; download sizes unknown\n"⟩ := by
  decide +kernel

theorem runOn_listing : (runOn officeHost ["security-status", "--thirdparty"]).1 =
    ⟨0, "1 package installed:\n  0 packages from third parties\n\n" ++
      "There are no third-party packages installed on this system.\n",
      "WARN apt-cache show failed; download sizes unknown\n"⟩ := by
  decide +kernel

theorem runOn_manifest : runOn officeHost ["manifest"] =
    (⟨0, "\x7b\"manifest_data\":\"curl\\t8.5\\n\"\x7d\n", ""⟩,
      [Apt.installedRequest .listInstalled, Snap.request]) := by
  decide +kernel

theorem runOn_locked : runOn lockedHost ["-v", "manifest", "--series", "jammy"] =
    (⟨1, "", "DEBUG resolved configuration\nError: failed to build the package manifest: ProcessFailure: " ++
      "could not start dpkg-query: Permission denied\n"⟩, [Apt.installedRequest .listInstalled]) := by
  decide +kernel

/-- A report and a listing with a warning beside them, a manifest, and a failure with what is shown of the log. -/
theorem concludes_run_officeHost :
    (Concludes ⟨.securityStatus .text none, none, false⟩ officeHost (runOn officeHost ["security-status"]) ∧
      (runOn officeHost ["security-status"]).1.stdout = officeReport) ∧
    ((∀ request ∈ (runOn officeHost ["security-status", "--thirdparty"]).2,
        request.program = "dpkg-query" ∨ request.program = "apt-cache") ∧
      (runOn officeHost ["security-status", "--thirdparty"]).1.stdout =
        "1 package installed:\n  0 packages from third parties\n\n" ++
          "There are no third-party packages installed on this system.\n") ∧
    (Concludes ⟨.manifest, none, false⟩ officeHost (runOn officeHost ["manifest"]) ∧
      shownLog ⟨.manifest, none, false⟩ officeHost = "" ∧
      (runOn officeHost ["manifest"]).1 = ⟨0, "\x7b\"manifest_data\":\"curl\\t8.5\\n\"\x7d\n", ""⟩) ∧
    Concludes ⟨.manifest, some "jammy", true⟩ lockedHost (runOn lockedHost ["-v", "manifest", "--series", "jammy"]) ∧
      ((∃ failure, (Apt.installedRequest .listInstalled).textOf
          (lockedHost.execute [] (Apt.installedRequest .listInstalled)) = .error failure) ∨
        ∃ failure, Snap.request.textOf (lockedHost.execute [Apt.installedRequest .listInstalled] Snap.request) =
          .error failure ∧ failure.kind ≠ .unavailable) ∧
      (runOn lockedHost ["-v", "manifest", "--series", "jammy"]).1 =
        ⟨1, "", "DEBUG resolved configuration\nError: failed to build the package manifest: ProcessFailure: " ++
          "could not start dpkg-query: Permission denied\n"⟩ := by
  have hreport : CommandLine.parser (fun _ => "") ["security-status"] none =
      .ok ⟨.securityStatus .text none, none, false⟩ := by decide +kernel
  have hlisting : CommandLine.parser (fun _ => "") ["security-status", "--thirdparty"] none =
      .ok ⟨.securityStatus .text (some .thirdParty), none, false⟩ := by decide +kernel
  have hmanifest : CommandLine.parser (fun _ => "") ["manifest"] none = .ok ⟨.manifest, none, false⟩ := by
    decide +kernel
  have hlocked : CommandLine.parser (fun _ => "") ["-v", "manifest", "--series", "jammy"] none =
      .ok ⟨.manifest, some "jammy", true⟩ := by decide +kernel
  have hjammy : Settings.resolve (some "jammy") lockedHost.release = .ok (.ofSeries "jammy") := by decide +kernel
  refine ⟨⟨(concludes_run hreport officeHost).1, by rw [runOn_report]⟩,
    ⟨(concludes_run hlisting officeHost).2.2.1 .text .thirdParty rfl, by rw [runOn_listing]⟩,
    ⟨(concludes_run hmanifest officeHost).1, (concludes_run hmanifest officeHost).2.1 (by decide +kernel),
      by rw [runOn_manifest]⟩,
    (concludes_run hlocked lockedHost).1,
    ((concludes_run hlocked lockedHost).2.2.2 rfl).2 (.ofSeries "jammy") hjammy ?_, by rw [runOn_locked]⟩
  change (runOn lockedHost ["-v", "manifest", "--series", "jammy"]).1.code ≠ 0
  rw [runOn_locked]
  decide

end Program

end UpdatePosture
