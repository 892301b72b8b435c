import Mathlib
import UpdatePosture.Proofs.Apt.Index
import UpdatePosture.Proofs.Rows
import UpdatePosture.Proofs.Tool.Course
import UpdatePosture.Session

/-!
# How a report ends

A report asks for the subscription, for the installed packages, for the package files, and then for the version
tables and the details of each chunk of packages. It can do without details. Everything else it needs, and it
fails with the first thing that it cannot have. Main statement: `transcript_report`.
-/

namespace UpdatePosture

open Dialogue

/-! ## The answers behind a report -/

namespace Apt

def ChunkReply.texts (reply : ChunkReply) : List (Option String) :=
  [some reply.policy, reply.details]

/-- The answers that replies hold, in the order in which they were given. -/
def Replies.texts (replies : Replies) : List (Option String) :=
  some replies.installed :: some replies.packageFiles :: replies.chunks.flatMap (·.texts)

end Apt

namespace Session

variable (session : Session)

/-- The report is made of these answers, all of them there are. -/
def IsReportOf (texts : List (Option String)) (report : Report) : Prop :=
  ∃ (text : String) (document : StatusDocument) (replies : Apt.Replies),
    texts = some text :: replies.texts ∧ session.reader text = .ok document ∧
      report = Report.build session.table replies.packages document.subscription

/-! ## The steps of a report -/

/-- What is answered about the subscription has to be readable. -/
def statusStep : Step where
  request := Subscription.statusRequest.limited session.statusTimeout
  flaw? := fun text =>
    match session.reader text with
    | .ok _ => none
    | .error reason => some (.unreadableSubscription reason)
  optional := false

/-- A question to the package tools. Only details can be done without. -/
def queryStep (query : Apt.Query) : Step where
  request := query.request.limited session.listTimeout
  flaw? := fun _ => none
  optional :=
    match query with
    | .details _ => true
    | _ => false

/-- The names of the installed packages, each once. There are none if they cannot be had. -/
def installedNames : List String :=
  match (session.queryStep .installed).request.answer session.execute [session.statusStep.request] with
  | .ok text => ((Apt.installedRows text).map (·.name)).eraseDups
  | .error _ => []

/-- The names that are asked about at a time. -/
def chunks : List (List String) :=
  Apt.chunks session.chunkSize session.installedNames

def chunkSteps (names : List String) : List Step :=
  [session.queryStep (.policy names), session.queryStep (.details names)]

/-- The steps about packages. -/
def indexSteps : List Step :=
  session.queryStep .installed :: session.queryStep .packageFiles :: session.chunks.flatMap session.chunkSteps

/-- All steps of a report, should none of them end it. -/
def reportSteps : List Step :=
  session.statusStep :: session.indexSteps

/-! The same when other requests came before. -/

def installedNamesAfter (earlier : List Request) : List String :=
  match (session.queryStep .installed).request.answer session.execute earlier with
  | .ok text => ((Apt.installedRows text).map (·.name)).eraseDups
  | .error _ => []

def chunksAfter (earlier : List Request) : List (List String) :=
  Apt.chunks session.chunkSize (session.installedNamesAfter earlier)

def indexStepsAfter (earlier : List Request) : List Step :=
  session.queryStep .installed :: session.queryStep .packageFiles ::
    (session.chunksAfter earlier).flatMap session.chunkSteps

def reportStepsAfter (earlier : List Request) : List Step :=
  session.statusStep :: session.indexStepsAfter (earlier ++ [session.statusStep.request])

end Session

/-! ## The parts of a report -/

section Parts

variable (session : Session) (earlier : List Request)

theorem ends_subscription :
    Ends session.execute earlier [session.statusStep]
      (fun texts subscription => ∃ text document, texts = [some text] ∧
        session.reader text = .ok document ∧ subscription = document.subscription)
      (runFrom session.subscription earlier) := by
  refine Ends.logging (Ends.perform_bind rfl ?_ ?_) _
  · intro text earlier hflaw
    cases hread : session.reader text with
    | error reason => simp [Session.statusStep, hread] at hflaw
    | ok document => exact ⟨document.subscription, rfl, text, document, rfl, hread, rfl⟩
  · intro text earlier cause hflaw
    cases hread : session.reader text with
    | error reason =>
      obtain rfl : Cause.unreadableSubscription reason = cause := by
        simpa [Session.statusStep, hread] using hflaw
      rfl
    | ok document => simp [Session.statusStep, hread] at hflaw

/-- The answer to a query that is needed is passed on as it is. -/
theorem ends_query (query : Apt.Query) (hneeded : (session.queryStep query).optional = false) :
    Ends session.execute earlier [session.queryStep query] (fun texts text => texts = [some text])
      (runFrom (Apt.tools session.execute session.listTimeout query) earlier) := by
  have hstep : session.queryStep query = ⟨(session.queryStep query).request, fun _ => none, false⟩ := by
    rw [← hneeded]
    rfl
  rw [hstep]
  exact Ends.perform _

/-- A query that was answered is fit. -/
theorem answer_of_answers {query : Apt.Query} {text : String}
    (h : answers session.execute earlier [session.queryStep query] = [some text]) :
    (session.queryStep query).request.answer session.execute earlier = .ok text := by
  cases hanswer : (session.queryStep query).request.answer session.execute earlier with
  | error cause => simp [answers, hanswer, Except.toOption] at h
  | ok found => simpa [answers, hanswer, Except.toOption] using h

/-- The details of some names can be asked for when their version tables can. -/
theorem problem?_details (names : List String) :
    (session.queryStep (.details names)).request.problem? =
      (session.queryStep (.policy names)).request.problem? := by
  refine Request.problem?_args (session.queryStep (.policy names)).request ("show" :: names) ?_
  have hcommand : ("show" == "" || Request.hasNul "show") = ("policy" == "" || Request.hasNul "policy") := by
    decide +kernel
  show ("show" :: names).any _ = ("policy" :: names).any _
  rw [List.any_cons, List.any_cons, hcommand]

/-- Once the version tables have been had, nothing that becomes of the details ends the report. -/
theorem ends_askChunk (files : Apt.PackageFiles) (names : List String) :
    Ends session.execute earlier (session.chunkSteps names) (fun texts reply => texts = reply.texts)
      (runFrom (Apt.askChunk (Apt.tools session.execute session.listTimeout) files names) earlier) := by
  show Ends _ _ ([session.queryStep (.policy names)] ++ ([session.queryStep (.details names)] ++ [])) _ _
  refine ((ends_query session earlier (.policy names) rfl).logging _).bind fun policy hpolicy => ?_
  have hfit : (session.queryStep (.details names)).request.problem? = none := by
    rw [problem?_details]
    exact Request.problem?_eq_none_of_answer (answer_of_answers session earlier hpolicy)
  refine (Ends.attempt hfit (fun _ => none) _).bind fun details hdetails => Ends.pure ?_
  rw [hpolicy, hdetails]
  rfl

theorem chunksAfter_of_answer {installed : String}
    (h : (session.queryStep .installed).request.answer session.execute earlier = .ok installed) :
    session.chunksAfter earlier =
      Apt.chunks session.chunkSize ((Apt.firstRows (Apt.installedRows installed)).map (·.name)) := by
  rw [Session.chunksAfter, Session.installedNamesAfter, h, Apt.map_name_firstRows]

theorem ends_askAll :
    Ends session.execute earlier (session.indexStepsAfter earlier) (fun texts replies => texts = replies.texts)
      (runFrom (Apt.askAll (Apt.tools session.execute session.listTimeout) session.chunkSize) earlier) := by
  show Ends _ _ ([session.queryStep .installed] ++ ([session.queryStep .packageFiles] ++
    (session.chunksAfter earlier).flatMap session.chunkSteps)) _ _
  refine (ends_query session _ .installed rfl).bind fun installed hinstalled => ?_
  refine (ends_query session _ .packageFiles rfl).bind fun packageFiles hfiles => ?_
  rw [chunksAfter_of_answer session earlier (answer_of_answers session earlier hinstalled),
    ← List.append_nil (List.flatMap _ _)]
  have hchunks := Ends.mapM fun names earlier => ends_askChunk session earlier (.read packageFiles) names
  refine (hchunks _ _).bind fun replies hreplies => Ends.pure ?_
  rw [hinstalled, hfiles, hreplies, List.append_nil]
  rfl

theorem ends_packages :
    Ends session.execute earlier (session.indexStepsAfter earlier)
      (fun texts packages => ∃ replies : Apt.Replies, texts = replies.texts ∧ packages = replies.packages)
      (runFrom session.packages earlier) :=
  ((ends_askAll session earlier).logging _).map fun _ replies htexts => ⟨replies, htexts, rfl⟩

theorem ends_reportAfter :
    Ends session.execute earlier (session.reportStepsAfter earlier) session.IsReportOf
      (runFrom session.report earlier) := by
  rw [Session.reportStepsAfter, ← List.append_nil (session.indexStepsAfter _)]
  show Ends _ _ ([session.statusStep] ++ (session.indexStepsAfter _ ++ [])) _ _
  refine (ends_subscription session earlier).bind fun subscription hsubscription => ?_
  refine (ends_packages session _).bind fun packages hpackages => Ends.pure ?_
  obtain ⟨text, document, htext, hdocument, rfl⟩ := hsubscription
  obtain ⟨replies, hreplies, rfl⟩ := hpackages
  refine ⟨text, document, replies, ?_, hdocument, rfl⟩
  rw [htext, List.append_nil]
  exact congrArg _ hreplies

theorem ends_report :
    Ends session.execute [] session.reportSteps session.IsReportOf (runFrom session.report []) :=
  ends_reportAfter session []

/-- Each chunk takes two questions about versions. -/
theorem map_purpose_flatMap_chunkSteps (chunks : List (List String)) :
    (chunks.flatMap session.chunkSteps).map (·.purpose) =
      .replicate (2 * chunks.length) (.apt, .listVersions) := by
  induction chunks with
  | nil => rfl
  | cons names chunks ih =>
    rw [List.flatMap_cons, List.map_append, ih, List.length_cons, Nat.mul_succ, Nat.add_comm,
      List.replicate_add]
    rfl

end Parts

/-! ## The whole report -/

/-- The installed names are those in the rows of the text that the package database answers. -/
theorem installedNames_of_answer {session : Session} {text : String} {rows : List (String × String)}
    (h : (session.queryStep .installed).request.answer session.execute [session.statusStep.request] = .ok text)
    (hrows : RowsOf Apt.InstalledLine (Text.lines text.toList) rows) :
    session.installedNames = (rows.map (·.1)).eraseDups := by
  rw [Session.installedNames, h, Apt.rowsOf_iff.mp hrows, List.map_map]
  rfl

/-- A report is built of all its answers, or fails with the first step that it needs and that does not come off;
then the requests stop there. The steps ask for the subscription, for the installed packages, for the package
files, and then twice about each chunk of the names of the installed packages, which are the names that stand in
the rows of the package database, each once. -/
theorem transcript_report (session : Session) :
    Ends session.execute [] session.reportSteps session.IsReportOf session.report.transcript ∧
    session.reportSteps.map (·.purpose) =
      (.pro, .readSubscription) :: (.dpkg, .listInstalled) :: (.apt, .listVersions) ::
        .replicate (2 * session.chunks.length) (.apt, .listVersions) ∧
    session.chunks.flatten = session.installedNames ∧
    (∀ chunk ∈ session.chunks, chunk ≠ [] ∧ chunk.length ≤ max 1 session.chunkSize) ∧
    ∀ text rows, (session.queryStep .installed).request.answer session.execute [session.statusStep.request] = .ok text →
      RowsOf Apt.InstalledLine (Text.lines text.toList) rows →
        session.installedNames = (rows.map (·.1)).eraseDups := by
  refine ⟨ends_report session, ?_, Apt.flatten_chunks _ _, fun _ => Apt.ne_nil_and_length_le_of_mem_chunks,
    fun _ _ => installedNames_of_answer⟩
  rw [Session.reportSteps, Session.indexSteps, List.map_cons, List.map_cons, List.map_cons,
    map_purpose_flatMap_chunkSteps]
  rfl

/-! ## A machine on which something goes wrong -/

/-- Two packages are installed, and no tool knows more of them. The details of one are not to be had. What becomes
of the version tables of the other is left open. -/
def surveyRun (output : ToolOutput) (request : Request) : ToolOutput :=
  match request.program, request.args with
  | "pro", _ => ⟨.exited 0, Text.Utf8.encode "\x7b\"attached\": false\x7d", []⟩
  | "dpkg-query", _ => ⟨.exited 0, Text.Utf8.encode "ii \tbash\t5.1\nrc \tftp\t0.17\nii \tvim\t9.0\n", []⟩
  | _, ["show", "bash"] => ⟨.exited 100, [], Text.Utf8.encode "E: No packages found\n"⟩
  | _, ["policy", "vim"] => output
  | _, _ => ⟨.exited 0, [], []⟩

/-- A session that asks about one package at a time. -/
def surveySession (output : ToolOutput) : Session where
  table := .ofSeries "jammy"
  chunkSize := 1
  listTimeout := none
  statusTimeout := none
  reader := StatusDocument.plainReader
  execute := fun _ request => .finished (surveyRun output request)

theorem installed_survey :
    (surveySession ⟨.exited 0, [], []⟩).report.transcript.1.toOption.map (·.summary.installed) = some 2 := by
  decide +kernel

/-- Without the details of a package there is a report; without version tables there is none, and no details are
asked for. -/
theorem transcript_report_survey :
    let answered := surveySession ⟨.exited 0, [], []⟩
    let killed := surveySession ⟨.terminated, [], []⟩
    (Ends answered.execute [] answered.reportSteps answered.IsReportOf answered.report.transcript ∧
      answered.installedNames = ["bash", "vim"] ∧
      answered.report.transcript.1.toOption.map (·.summary.installed) = some 2 ∧
      answered.report.transcript.2.map (·.args) =
        [["status", "--format", "json", "--all"], ["-W", "-f", Apt.rowFormat], ["policy"], ["policy", "bash"],
          ["show", "bash"], ["policy", "vim"], ["show", "vim"]]) ∧
    Ends killed.execute [] killed.reportSteps killed.IsReportOf killed.report.transcript ∧
      killed.execute.Tags ∧
      killed.report.transcript =
        (.error ⟨.apt, .listVersions, .terminated⟩, answered.report.transcript.2.dropLast) := by
  intro answered killed
  obtain ⟨hanswered, -, -, -, hnames⟩ := transcript_report answered
  have hrows : RowsOf Apt.InstalledLine (Text.lines "ii \tbash\t5.1\nrc \tftp\t0.17\nii \tvim\t9.0\n".toList)
      [("bash", "5.1"), ("vim", "9.0")] := Apt.rowsOf_iff.mpr (by cbv)
  refine ⟨⟨hanswered, hnames _ _ ?_ hrows, installed_survey, ?_⟩, (transcript_report killed).1, ?_, ?_⟩
  · decide +kernel
  · decide +kernel
  · rintro earlier request failure (h | h) <;> cases h
  · decide +kernel

end UpdatePosture
