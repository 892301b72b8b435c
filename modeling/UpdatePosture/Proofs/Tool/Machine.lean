import Mathlib
import UpdatePosture.Proofs.Session
import UpdatePosture.Proofs.Tool.Wait
import UpdatePosture.Tool.Machine

/-!
# Nothing but whole texts

A machine that starts tools and waits for them answers requests as waiting allows: a text that it answers is all that
the tool wrote before it ended (`Machine.Wrote`), and what it fails with is the failure of the request. So no text
that was cut short gets into a report. Main statement: `Machine.ends_report`.
-/

namespace UpdatePosture

open Dialogue WaitEvent

namespace Machine

/-- Whatever is started, nothing is written to a pipe after its end was read. -/
def Faithful (machine : Machine) : Prop :=
  ∀ earlier request events, machine.happening earlier request = .started events → WaitEvent.Faithful events

/-- The tool was started and ended with code zero in time, its pipes were read to their end, and the text is all that
it wrote on standard output. -/
def Wrote (machine : Machine) (earlier : List Request) (request : Request) (text : String) : Prop :=
  ∃ events, machine.happening earlier request = .started events ∧
    Completes request.timeout events ⟨.exited 0, written .stdout events, written .stderr events⟩ ∧
    Text.Utf8.decode (written .stdout events) = .ok text

end Machine

/-- A text is taken from a tool only if it ended with code zero. -/
theorem ToolOutput.text_eq_ok_iff {output : ToolOutput} {text : String} :
    output.text = .ok text ↔ output.status = .exited 0 ∧ Text.Utf8.decode output.stdout = .ok text := by
  unfold ToolOutput.text
  split
  next hstatus => cases Text.Utf8.decode output.stdout <;> simp [hstatus, Except.mapError]
  next code hcode hstatus =>
    have hnonzero : code ≠ 0 := hcode
    simp [hstatus, hnonzero]
  next hstatus => simp [hstatus]

section Machine

variable {machine : Machine} {earlier : List Request} {request : Request}

/-- A run is finished only if the program was started and its output is complete. -/
theorem completes_of_runOn? {events : List WaitEvent} {output : ToolOutput}
    (h : request.runOn? (.started events) = some (.finished output)) : Completes request.timeout events output := by
  rw [Request.runOn?, Request.await?, Option.map_map] at h
  obtain ⟨result, hwait, hresult⟩ := Option.map_eq_some_iff.mp h
  rcases concludes request.timeout events with hpending | ⟨whole, hcompletes⟩ | ⟨cause, hexpires⟩ | ⟨cause, hfails⟩
  · rw [wait?_of_pending hpending] at hwait
    cases hwait
  · rw [wait?_of_completes hcompletes] at hwait
    cases hwait
    cases hresult
    exact hcompletes
  · rw [wait?_of_expires hexpires] at hwait
    cases hwait
    cases hresult
  · rw [wait?_of_fails hfails] at hwait
    cases hwait
    cases hresult

theorem Machine.wrote_of_answer (hfaithful : machine.Faithful) {text : String}
    (h : request.answer machine.executor earlier = .ok text) : machine.Wrote earlier request text := by
  rw [Request.answer_of_problem? (Request.problem?_eq_none_of_answer h)] at h
  cases hrun : machine.executor earlier request with
  | notStarted failure | notAwaited failure =>
    rw [hrun] at h
    cases h
  | finished output =>
    have hends := machine.runOn?_happening earlier request
    rw [hrun] at h hends
    have htext : output.text = .ok text := by
      cases hout : output.text with
      | ok found => simpa [Request.textOf, hout, Except.mapError] using h
      | error cause => simp [Request.textOf, hout, Except.mapError] at h
    obtain ⟨hstatus, hdecode⟩ := ToolOutput.text_eq_ok_iff.mp htext
    cases hhappening : machine.happening earlier request with
    | refused error =>
      rw [hhappening] at hends
      cases hends
    | started events =>
      rw [hhappening] at hends
      have hcompletes := completes_of_runOn? hends
      obtain ⟨hstdout, hstderr⟩ := hcompletes.eq_written (hfaithful _ _ _ hhappening)
      obtain ⟨status, stdout, stderr⟩ := output
      subst hstatus hstdout hstderr
      exact ⟨events, hhappening, hcompletes, hdecode⟩

/-- The answer to a step is at the place of the step. -/
theorem getElem?_answers (execute : Executor) (earlier : List Request) (done : List Step) (step : Step)
    (rest : List Step) :
    (answers execute earlier (done ++ step :: rest))[done.length]? =
      some (step.request.answer execute (earlier ++ done.map (·.request))).toOption := by
  induction done generalizing earlier with
  | nil => simp [answers]
  | cons first done ih => simp [answers, ih]

/-- A report on a machine is made of texts that tools wrote from beginning to end, each at the step that it answers.
Where there is no report, the failure names what a step asked for, and of whom. -/
theorem Machine.ends_report (hfaithful : machine.Faithful) {session : Session}
    (hexecute : session.execute = machine.executor) :
    (∃ report texts, session.report.transcript = (.ok report, session.reportSteps.map (·.request)) ∧
        session.IsReportOf texts report ∧
        ∀ done step rest, session.reportSteps = done ++ step :: rest → ∀ text, texts[done.length]? = some (some text) →
          machine.Wrote (done.map (·.request)) step.request text) ∨
      ∃ failure, session.report.transcript.1 = .error failure ∧
        ∃ step ∈ session.reportSteps, (failure.source, failure.action) = step.purpose := by
  have hends : Ends session.execute [] session.reportSteps session.IsReportOf session.report.transcript :=
    UpdatePosture.ends_report session
  generalize session.report.transcript = result at hends ⊢
  cases hends with
  | completed hpasses hreport =>
    refine .inl ⟨_, _, rfl, hreport, fun done step rest hcut text htext => ?_⟩
    rw [hcut, getElem?_answers, List.nil_append] at htext
    refine wrote_of_answer hfaithful ?_
    rw [← hexecute]
    cases hanswer : step.request.answer session.execute (done.map (·.request)) with
    | ok found => simpa [hanswer, Except.toOption] using htext
    | error failure => simp [hanswer, Except.toOption] at htext
  | @stopped done step rest failure hcut hdone hneeded hfailure hpurpose =>
    refine .inr ⟨failure, rfl, step, ?_, hpurpose (hexecute ▸ machine.tags_executor)⟩
    rw [hcut]
    exact List.mem_append_right _ List.mem_cons_self

end Machine

/-! ## A machine on which every program comes to its end -/

/-- What happens when a program writes its output and ends. -/
def Happening.ofOutput (output : ToolOutput) : Happening :=
  .started [.wrote .stdout output.stdout, .wrote .stderr output.stderr, .closed .stdout, .closed .stderr,
    .ended output.status]

def Machine.ofOutputs (output : Request → ToolOutput) : Machine where
  happening := fun _ request => .ofOutput (output request)
  ends := fun _ _ => rfl

theorem Machine.executor_ofOutputs (output : Request → ToolOutput) :
    (ofOutputs output).executor = fun _ request => .finished (output request) := rfl

theorem Machine.faithful_ofOutputs (output : Request → ToolOutput) : (ofOutputs output).Faithful := by
  rintro earlier request events ⟨⟩
  simp [WaitEvent.Faithful]

/-- The report of the survey is made of whole texts, which the machine wrote. -/
theorem ends_report_survey :
    let machine := Machine.ofOutputs (surveyRun ⟨.exited 0, [], []⟩)
    let session := surveySession ⟨.exited 0, [], []⟩
    ∃ report texts, session.report.transcript.1 = .ok report ∧ session.IsReportOf texts report ∧
      ∀ done step rest, session.reportSteps = done ++ step :: rest → ∀ text, texts[done.length]? = some (some text) →
        machine.Wrote (done.map (·.request)) step.request text := by
  intro machine session
  have hexecute : session.execute = machine.executor := (Machine.executor_ofOutputs _).symm
  rcases Machine.ends_report (Machine.faithful_ofOutputs _) hexecute with
    ⟨report, texts, hreport, hmade, hwrote⟩ | ⟨failure, hfailure, -⟩
  · exact ⟨report, texts, congrArg Prod.fst hreport, hmade, hwrote⟩
  · have hinstalled : session.report.transcript.1.toOption.map (·.summary.installed) = some 2 := installed_survey
    rw [hfailure] at hinstalled
    cases hinstalled

end UpdatePosture
