import Mathlib
import UpdatePosture.Proofs.Dialogue
import UpdatePosture.Tool.Run

/-!
# Courses of dialogues with tools

A dialogue with tools takes steps, and each step makes a request. It ends at the first step that it needs and
that does not come off; then no later request is made (`Ends`). Main statements: dialogues that follow each
other take their steps one after the other (`Ends.bind`), and so does a dialogue about the items of a list
(`Ends.mapM`).
-/

namespace UpdatePosture

open Dialogue

/-! ## One request -/

namespace Request

/-- What comes of a request after others were handed over: the text that is answered, or what is wrong. Of an
unfit request nothing comes, whatever the executor does. -/
def answer (execute : Executor) (earlier : List Request) (request : Request) : Except Failure String :=
  match request.problem? with
  | some problem => .error (request.failure (.unfitRequest problem))
  | none => request.textOf (execute earlier request)

/-- The request, if it is fit to be handed over. -/
def handed (request : Request) : List Request :=
  if request.problem? = none then [request] else []

variable {execute : Executor} {request : Request} {earlier : List Request}

theorem problem?_eq_none_of_answer {text : String} (h : request.answer execute earlier = .ok text) :
    request.problem? = none := by
  cases hproblem : request.problem? with
  | none => rfl
  | some problem => simp [answer, hproblem] at h

theorem answer_of_problem? (h : request.problem? = none) :
    request.answer execute earlier = request.textOf (execute earlier request) := by
  rw [answer, h]

/-- Other arguments make no difference to what is wrong with a request if they are as fit. -/
theorem problem?_args (request : Request) (args : List String)
    (h : (args.any fun arg => arg == "" || hasNul arg) = request.args.any fun arg => arg == "" || hasNul arg) :
    { request with args := args }.problem? = request.problem? := by
  simp only [problem?, h]

theorem handed_of_problem? (h : request.problem? = none) : request.handed = [request] :=
  if_pos h

theorem runFrom_perform (execute : Executor) (request : Request) (earlier : List Request) :
    runFrom (request.perform execute) earlier = (request.answer execute earlier, earlier ++ request.handed) := by
  unfold perform answer handed
  cases hproblem : request.problem? with
  | some problem => simp
  | none => simp

/-- What is wrong with a request names it, if the executor does. -/
theorem purpose_of_answer {failure : Failure} (htags : execute.Tags)
    (h : request.answer execute earlier = .error failure) :
    failure.source = request.source ∧ failure.action = request.action := by
  unfold answer at h
  cases hproblem : request.problem? with
  | some problem =>
    rw [hproblem] at h
    cases h
    exact ⟨rfl, rfl⟩
  | none =>
    rw [hproblem] at h
    cases hrun : execute earlier request with
    | notStarted reported =>
      rw [hrun] at h
      cases h
      exact htags earlier request failure (.inl hrun)
    | notAwaited reported =>
      rw [hrun] at h
      cases h
      exact htags earlier request failure (.inr hrun)
    | finished output =>
      rw [hrun] at h
      cases htext : output.text with
      | error cause =>
        simp only [textOf, htext, Except.mapError] at h
        cases h
        exact ⟨rfl, rfl⟩
      | ok text => simp [textOf, htext, Except.mapError] at h

end Request

/-! ## Steps -/

/-- A request that a dialogue makes, and what it takes for the dialogue to go on. -/
structure Step where
  request : Request
  /-- What makes a text useless that is answered. -/
  flaw? : String → Option Cause
  /-- Whether the dialogue goes on without the answer. -/
  optional : Bool

namespace Step

/-- What a step asks for, and of whom. -/
def purpose (step : Step) : Source × Action :=
  (step.request.source, step.request.action)

/-- Why a step does not come off, if it does not. -/
def failure? (execute : Executor) (earlier : List Request) (step : Step) : Option Failure :=
  match step.request.answer execute earlier with
  | .error failure => some failure
  | .ok text => (step.flaw? text).map step.request.failure

variable {execute : Executor} {earlier : List Request} {step : Step} {failure : Failure}

theorem failure?_of_error (h : step.request.answer execute earlier = .error failure) :
    step.failure? execute earlier = some failure := by
  rw [failure?, h]

theorem failure?_of_ok {text : String} (h : step.request.answer execute earlier = .ok text) :
    step.failure? execute earlier = (step.flaw? text).map step.request.failure := by
  rw [failure?, h]

/-- A step that does not come off fails in its own name. -/
theorem purpose_of_failure? (htags : execute.Tags) (h : step.failure? execute earlier = some failure) :
    (failure.source, failure.action) = step.purpose := by
  cases hanswer : step.request.answer execute earlier with
  | error reported =>
    rw [failure?_of_error hanswer] at h
    obtain rfl := Option.some.inj h
    obtain ⟨hsource, haction⟩ := Request.purpose_of_answer htags hanswer
    rw [hsource, haction, purpose]
  | ok text =>
    rw [failure?_of_ok hanswer] at h
    obtain ⟨cause, -, rfl⟩ := Option.map_eq_some_iff.mp h
    rfl

/-- If the request of a step is fit, the step fails for a reason that lies in what comes of the request. -/
theorem textOf_or_flaw?_of_failure? (hfit : step.request.problem? = none)
    (h : step.failure? execute earlier = some failure) :
    step.request.textOf (execute earlier step.request) = .error failure ∨
      ∃ text cause, step.request.textOf (execute earlier step.request) = .ok text ∧ step.flaw? text = some cause ∧
        failure = step.request.failure cause := by
  have hanswer : step.request.answer execute earlier = step.request.textOf (execute earlier step.request) :=
    Request.answer_of_problem? hfit
  cases hrun : step.request.textOf (execute earlier step.request) with
  | error reported =>
    rw [failure?_of_error (hanswer.trans hrun)] at h
    exact .inl (congrArg _ (Option.some.inj h))
  | ok text =>
    rw [failure?_of_ok (hanswer.trans hrun)] at h
    obtain ⟨cause, hflaw, rfl⟩ := Option.map_eq_some_iff.mp h
    exact .inr ⟨text, cause, rfl, hflaw, rfl⟩

end Step

/-- All steps come off that are needed, when they are taken one after the other. -/
def Passes (execute : Executor) (earlier : List Request) (steps : List Step) : Prop :=
  ∀ done step rest, steps = done ++ step :: rest →
    step.optional ∨ step.failure? execute (earlier ++ done.map (·.request)) = none

/-- The answers to steps that are taken one after the other; `none` where there is no answer. -/
def answers (execute : Executor) (earlier : List Request) : List Step → List (Option String)
  | [] => []
  | step :: steps =>
      (step.request.answer execute earlier).toOption :: answers execute (earlier ++ [step.request]) steps

section Course

variable {execute : Executor} {earlier : List Request} {step : Step} {first steps : List Step}

theorem passes_nil : Passes execute earlier [] := by
  intro done step rest h
  simp at h

theorem passes_append (hfirst : Passes execute earlier first)
    (hsteps : Passes execute (earlier ++ first.map (·.request)) steps) :
    Passes execute earlier (first ++ steps) := by
  intro done step rest h
  rcases List.append_eq_append_iff.mp h with ⟨between, rfl, hbetween⟩ | ⟨between, hfirst', hbetween⟩
  · rw [List.map_append, ← List.append_assoc]
    exact hsteps between step rest hbetween
  · cases between with
    | nil =>
      obtain rfl : first = done := by simpa using hfirst'
      simpa using hsteps [] step rest (by simpa using hbetween.symm)
    | cons other between =>
      obtain ⟨rfl, -⟩ := List.cons.inj hbetween
      exact hfirst done step between hfirst'

theorem passes_singleton (h : step.optional ∨ step.failure? execute earlier = none) :
    Passes execute earlier [step] := by
  intro done other rest hcut
  cases done with
  | nil =>
    obtain ⟨rfl, -⟩ := List.cons.inj hcut
    simpa using h
  | cons _ done => simp at hcut

theorem answers_singleton (execute : Executor) (earlier : List Request) (step : Step) :
    answers execute earlier [step] = [(step.request.answer execute earlier).toOption] := rfl

theorem answers_append (execute : Executor) (earlier : List Request) (first steps : List Step) :
    answers execute earlier (first ++ steps) =
      answers execute earlier first ++ answers execute (earlier ++ first.map (·.request)) steps := by
  induction first generalizing earlier with
  | nil => simp [answers]
  | cons step first ih => simp [answers, ih]

end Course

/-- A request that is held back leaves what was handed over before it. -/
theorem append_handed_prefix (done : List Step) (step : Step) (rest : List Step) :
    done.map (·.request) ++ step.request.handed <+: (done ++ step :: rest).map (·.request) := by
  rw [List.map_append, List.map_cons, List.prefix_append_right_inj]
  unfold Request.handed
  split
  · exact ⟨rest.map (·.request), rfl⟩
  · exact List.nil_prefix

/-! ## How dialogues end -/

/-- How a dialogue ends that takes steps after some requests: with a value `made` of the answers, once all
requests are handed over and all steps that are needed have come off, or with the failure of the first needed
step that does not come off, where the requests end. The failure names what that step asks for, and of whom, if
the executor names it in its own failures. -/
inductive Ends {α : Type} (execute : Executor) (earlier : List Request) (steps : List Step)
    (made : List (Option String) → α → Prop) : Except Failure α × List Request → Prop
  | completed {value : α} : Passes execute earlier steps → made (answers execute earlier steps) value →
      Ends execute earlier steps made (.ok value, earlier ++ steps.map (·.request))
  | stopped {done : List Step} {step : Step} {rest : List Step} {failure : Failure} :
      steps = done ++ step :: rest → Passes execute earlier done → step.optional = false →
      step.failure? execute (earlier ++ done.map (·.request)) = some failure →
      (execute.Tags → (failure.source, failure.action) = step.purpose) →
      Ends execute earlier steps made (.error failure, earlier ++ done.map (·.request) ++ step.request.handed)

namespace Ends

variable {α β : Type} {execute : Executor} {earlier : List Request} {first steps : List Step}

theorem pure {made : List (Option String) → α → Prop} {value : α} (h : made [] value) :
    Ends execute earlier [] made (runFrom (Pure.pure value) earlier) := by
  have hend : Ends execute earlier [] made (.ok value, earlier ++ ([] : List Step).map (·.request)) :=
    .completed passes_nil h
  rwa [List.map_nil, List.append_nil] at hend

/-- What ends after some steps have come off ends that way when these steps are counted in. -/
theorem of_passes {made : List (Option String) → α → Prop} {result : Except Failure α × List Request}
    (hfirst : Passes execute earlier first)
    (h : Ends execute (earlier ++ first.map (·.request)) steps
      (fun texts => made (answers execute earlier first ++ texts)) result) :
    Ends execute earlier (first ++ steps) made result := by
  cases h with
  | completed hpasses hmade =>
    rw [← answers_append] at hmade
    have hend := Ends.completed (passes_append hfirst hpasses) hmade
    rwa [List.map_append, ← List.append_assoc] at hend
  | @stopped done step rest failure hcut hdone hneeded hfailure hpurpose =>
    have hcut' : first ++ steps = (first ++ done) ++ step :: rest := by rw [hcut, List.append_assoc]
    have hfailure' : step.failure? execute (earlier ++ (first ++ done).map (·.request)) = some failure := by
      rwa [List.map_append, ← List.append_assoc]
    have hend : Ends execute earlier (first ++ steps) made _ :=
      .stopped hcut' (passes_append hfirst hdone) hneeded hfailure' hpurpose
    rwa [List.map_append, ← List.append_assoc earlier] at hend

/-- The second dialogue takes its steps when the first has completed its own. If the first stops, its steps
are all the same followed by those that would have come. -/
theorem bind {dialogue : Dialogue Request α} {next : α → Dialogue Request β}
    {before : List (Option String) → α → Prop} {made : List (Option String) → β → Prop}
    (h : Ends execute earlier first before (runFrom dialogue earlier))
    (hnext : ∀ value, before (answers execute earlier first) value →
      Ends execute (earlier ++ first.map (·.request)) steps
        (fun texts => made (answers execute earlier first ++ texts))
        (runFrom (next value) (earlier ++ first.map (·.request)))) :
    Ends execute earlier (first ++ steps) made (runFrom (dialogue >>= next) earlier) := by
  rw [runFrom_bind]
  generalize runFrom dialogue earlier = result at h ⊢
  cases h with
  | completed hpasses hvalue => exact of_passes hpasses (hnext _ hvalue)
  | @stopped done step rest failure hcut hdone hneeded hfailure hpurpose =>
    have hcut' : first ++ steps = done ++ step :: (rest ++ steps) := by
      rw [hcut, List.append_assoc, List.cons_append]
    exact .stopped hcut' hdone hneeded hfailure hpurpose

theorem stopped_singleton {step : Step} {made : List (Option String) → α → Prop} {failure : Failure}
    (hneeded : step.optional = false) (hfailure : step.failure? execute earlier = some failure) :
    Ends execute earlier [step] made (.error failure, earlier ++ step.request.handed) := by
  have hend : Ends execute earlier [step] made (_, earlier ++ ([] : List Step).map (·.request) ++ _) :=
    .stopped rfl passes_nil hneeded (by simpa using hfailure) fun htags => Step.purpose_of_failure? htags hfailure
  rwa [List.map_nil, List.append_nil] at hend

/-- A request whose text is read on the spot, and is of no use if it has a flaw. -/
theorem perform_bind {step : Step} {read : String → Dialogue Request α} {made : List (Option String) → α → Prop}
    (hneeded : step.optional = false)
    (hread : ∀ text earlier, step.flaw? text = none →
      ∃ value, runFrom (read text) earlier = (.ok value, earlier) ∧ made [some text] value)
    (hflaw : ∀ text earlier cause, step.flaw? text = some cause →
      runFrom (read text) earlier = (.error (step.request.failure cause), earlier)) :
    Ends execute earlier [step] made (runFrom (step.request.perform execute >>= read) earlier) := by
  rw [runFrom_bind, Request.runFrom_perform]
  cases hanswer : step.request.answer execute earlier with
  | error failure => exact stopped_singleton hneeded (Step.failure?_of_error hanswer)
  | ok text =>
    have hhanded := Request.handed_of_problem? (Request.problem?_eq_none_of_answer hanswer)
    have hfailure := Step.failure?_of_ok hanswer
    show Ends execute earlier [step] made (runFrom (read text) (earlier ++ step.request.handed))
    cases hflawed : step.flaw? text with
    | some cause =>
      rw [hflaw text _ cause hflawed]
      rw [hflawed] at hfailure
      exact stopped_singleton hneeded hfailure
    | none =>
      obtain ⟨value, hrun, hmade⟩ := hread text (earlier ++ step.request.handed) hflawed
      rw [hflawed] at hfailure
      rw [hrun, hhanded]
      refine .completed (passes_singleton (.inr hfailure)) ?_
      rwa [answers_singleton, hanswer]

theorem perform (request : Request) :
    Ends execute earlier [⟨request, fun _ => none, false⟩] (fun texts text => texts = [some text])
      (runFrom (request.perform execute) earlier) := by
  rw [← bind_pure (request.perform execute)]
  exact perform_bind rfl (fun text _ _ => ⟨text, rfl, rfl⟩) nofun

/-- A request that the dialogue can do without is handed over all the same, if it is fit. -/
theorem attempt {request : Request} (hfit : request.problem? = none) (flaw? : String → Option Cause)
    (event : Failure → LogEvent) :
    Ends execute earlier [⟨request, flaw?, true⟩] (fun texts text => texts = [text])
      (runFrom (Dialogue.attempt (request.perform execute) event) earlier) := by
  rw [runFrom_attempt, Request.runFrom_perform, Request.handed_of_problem? hfit]
  exact .completed (passes_singleton (.inl rfl)) rfl

/-- To log something makes no difference to how a dialogue ends. -/
theorem logging {made : List (Option String) → α → Prop} {dialogue : Dialogue Request α}
    (h : Ends execute earlier steps made (runFrom dialogue earlier)) (events : α → List LogEvent) :
    Ends execute earlier steps made (runFrom (Dialogue.logging events dialogue) earlier) := by
  rwa [runFrom_logging]

theorem map {image : α → β} {dialogue : Dialogue Request α} {before : List (Option String) → α → Prop}
    {made : List (Option String) → β → Prop} (h : Ends execute earlier steps before (runFrom dialogue earlier))
    (hmade : ∀ texts value, before texts value → made texts (image value)) :
    Ends execute earlier steps made (runFrom (image <$> dialogue) earlier) := by
  rw [map_eq_pure_bind, ← List.append_nil steps]
  refine h.bind fun value hvalue => pure ?_
  rw [List.append_nil]
  exact hmade _ value hvalue

/-- A dialogue about a list, of which each item makes known the answers that its value is made of. -/
theorem mapM {about : β → Dialogue Request α} {steps : β → List Step} {told : α → List (Option String)}
    (h : ∀ item earlier,
      Ends execute earlier (steps item) (fun texts value => texts = told value) (runFrom (about item) earlier))
    (items : List β) (earlier : List Request) :
    Ends execute earlier (items.flatMap steps) (fun texts values => texts = values.flatMap told)
      (runFrom (items.mapM about) earlier) := by
  induction items generalizing earlier with
  | nil => exact pure rfl
  | cons item items ih =>
    rw [List.mapM_cons, List.flatMap_cons]
    refine (h item earlier).bind fun value hvalue => ?_
    rw [← List.append_nil (items.flatMap steps)]
    refine (ih _).bind fun values hvalues => pure ?_
    rw [hvalue, hvalues, List.append_nil, List.flatMap_cons]

end Ends

end UpdatePosture
