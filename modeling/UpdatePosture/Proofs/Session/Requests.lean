import Mathlib
import UpdatePosture.Proofs.Session.Tasks

/-!
# The requests of a session

Only fit requests are handed over, whatever the answers are, and each has the limit that is set for its source.
A session asks about names that it was told. If it was told no name that is unfit, and no limit of zero is set,
none of its requests is ever held back, so that nothing but an answer makes a task fail. Main statement:
`requests_of_task`.
-/

namespace UpdatePosture

open Dialogue

/-! ## What is handed over -/

namespace Request

theorem validate_eq_ok_iff {request : Request} : request.validate = .ok () ↔ request.problem? = none := by
  unfold validate
  cases request.problem? <;> simp

theorem onlyAsks_perform {sort : Request → Prop} {execute : Executor} {request : Request}
    (h : request.problem? = none → sort request) : OnlyAsks sort (request.perform execute) := by
  unfold perform
  cases hproblem : request.problem? with
  | some problem => exact .throw _
  | none => exact .ask (h hproblem)

end Request

namespace Session

/-- The limit of requests to a source: for the package tools and for the subscription what is set, if anything. -/
def limit (session : Session) : Source → Option Nat
  | .apt | .dpkg => some (session.listTimeout.getD Apt.listTimeout)
  | .pro => some (session.statusTimeout.getD Subscription.statusTimeout)
  | .snap => some Snap.listTimeout
  | .release => none

/-- What a session may hand over. -/
structure Allows (session : Session) (request : Request) : Prop where
  fit : request.validate = .ok ()
  limit : request.timeout = session.limit request.source

end Session

section Allows

variable (session : Session)

theorem onlyAsks_status : OnlyAsks session.Allows (Subscription.status session.execute session.statusTimeout) := by
  refine Request.onlyAsks_perform fun hfit => ⟨Request.validate_eq_ok_iff.mpr hfit, ?_⟩
  show (session.statusTimeout <|> some Subscription.statusTimeout) =
    some (session.statusTimeout.getD Subscription.statusTimeout)
  cases session.statusTimeout <;> rfl

theorem onlyAsks_tools (query : Apt.Query) :
    OnlyAsks session.Allows (Apt.tools session.execute session.listTimeout query) := by
  refine Request.onlyAsks_perform fun hfit => ⟨Request.validate_eq_ok_iff.mpr hfit, ?_⟩
  have hlimit : (session.listTimeout <|> some Apt.listTimeout) =
      some (session.listTimeout.getD Apt.listTimeout) := by
    cases session.listTimeout <;> rfl
  cases query <;> exact hlimit

theorem onlyAsks_subscription : OnlyAsks session.Allows session.subscription := by
  refine OnlyAsks.logging ((onlyAsks_status session).bind fun text => ?_) _
  cases session.reader text with
  | ok document => exact .pure _
  | error reason => exact .throw _

theorem onlyAsks_packages : OnlyAsks session.Allows session.packages := by
  have hchunk (files : Apt.PackageFiles) (names : List String) :
      OnlyAsks session.Allows (Apt.askChunk (Apt.tools session.execute session.listTimeout) files names) :=
    ((onlyAsks_tools session (.policy names)).logging _).bind fun _ =>
      ((onlyAsks_tools session (.details names)).attempt _).bind fun _ => .pure _
  refine OnlyAsks.map (OnlyAsks.logging ?_ _) _
  refine (onlyAsks_tools session .installed).bind fun installed => ?_
  refine (onlyAsks_tools session .packageFiles).bind fun packageFiles => ?_
  exact (OnlyAsks.mapM (hchunk (.read packageFiles)) _).bind fun _ => .pure _

theorem onlyAsks_manifestLines : OnlyAsks session.Allows session.manifestLines :=
  (onlyAsks_tools session .installed).bind fun _ => .pure _

theorem onlyAsks_containers : OnlyAsks session.Allows session.containers := by
  have hlist : OnlyAsks session.Allows (Snap.list session.execute) :=
    Request.onlyAsks_perform fun hfit => ⟨Request.validate_eq_ok_iff.mpr hfit, rfl⟩
  refine (hlist.map Snap.read).tryCatch fun failure => ?_
  by_cases hkind : failure.kind = .unavailable
  · rw [if_pos hkind]
    exact (OnlyAsks.pure _).logging _
  · rw [if_neg hkind]
    exact .throw _

theorem onlyAsks_report : OnlyAsks session.Allows session.report :=
  (onlyAsks_subscription session).bind fun _ => (onlyAsks_packages session).bind fun _ =>
    (OnlyAsks.log _).bind fun _ => .pure _

theorem onlyAsks_partition : OnlyAsks session.Allows session.partition :=
  ((onlyAsks_packages session).logging _).map _

theorem onlyAsks_manifest : OnlyAsks session.Allows session.manifest :=
  (onlyAsks_manifestLines session).bind fun _ => (onlyAsks_containers session).bind fun _ =>
    (OnlyAsks.log _).bind fun _ => .pure _

theorem onlyAsks_carryOut (task : Task) : OnlyAsks session.Allows (session.carryOut task) := by
  cases task with
  | subscription => exact (onlyAsks_subscription session).map _
  | packages => exact (onlyAsks_packages session).map _
  | manifestLines => exact (onlyAsks_manifestLines session).map _
  | containers => exact (onlyAsks_containers session).map _
  | report => exact (onlyAsks_report session).map _
  | partition => exact (onlyAsks_partition session).map _
  | listing kind => exact (((onlyAsks_partition session).logging _).map _).map _
  | manifest => exact (onlyAsks_manifest session).map _

theorem history_concat (tasks : List Task) (task : Task) :
    session.history (tasks ++ [task]) = (runFrom (session.carryOut task) (session.history tasks)).2 :=
  List.foldl_concat _ _ _ _

/-- Each task adds to the requests before it none that is not allowed. -/
theorem allows_of_mem_history (tasks : List Task) : ∀ request ∈ session.history tasks, session.Allows request := by
  induction tasks using List.reverseRecOn with
  | nil => exact nofun
  | append_singleton tasks task ih =>
    rw [history_concat]
    exact (onlyAsks_carryOut session task _).forall_mem ih

end Allows

/-! ## What is asked about -/

/-- No request about some names is the one that asks about no names. -/
theorem policy_ne_packageFiles (session : Session) {names : List String} (h : names ≠ []) :
    (session.queryStep (.policy names)).request ≠ (session.queryStep .packageFiles).request := by
  intro heq
  have hargs : "policy" :: names = ["policy"] := congrArg Request.args heq
  exact h (List.cons.inj hargs).2

namespace Request

/-- An argument that makes no request unfit. -/
def IsFitArgument (arg : String) : Prop :=
  arg ≠ "" ∧ '\x00' ∉ arg.toList

instance (arg : String) : Decidable (IsFitArgument arg) :=
  inferInstanceAs (Decidable (_ ∧ _))

theorem problem?_eq_none {request : Request} (hprogram : request.program ≠ "")
    (hargs : ∀ arg ∈ request.args, IsFitArgument arg) (henv : request.env = [("LC_ALL", "C")] ∨ request.env = [])
    (htimeout : request.timeout ≠ some 0) : request.problem? = none := by
  have hargs' : (request.args.any fun arg => arg == "" || hasNul arg) = false := by
    refine List.any_eq_false.mpr fun arg harg => ?_
    obtain ⟨hne, hnul⟩ := hargs arg harg
    simp [hne, hasNul, hnul]
  unfold problem?
  rw [if_neg hprogram, hargs']
  rcases henv with henv | henv
  · rw [henv]
    simp [hasNul, htimeout]
  · rw [henv]
    simp [htimeout]

end Request

/-- The names that the package database tells of are fit if its text is. -/
theorem Apt.isFitArgument_of_mem_installedRows {text : String} {row : InstalledRow} (hnul : '\x00' ∉ text.toList)
    (h : row ∈ installedRows text) : Request.IsFitArgument row.name := by
  obtain ⟨line, hline, state, name, version, rest, hcolumns, -, hname, -, rfl⟩ := exists_of_mem_installedRows h
  have hcolumn : name ∈ line.splitOn '\t' := by rw [hcolumns]; simp
  have hsubset : Text.trim name ⊆ text.toList := fun c hc =>
    Text.subset_of_mem_lines hline (Text.subset_of_mem_splitOn hcolumn (Text.trim_subset name hc))
  refine ⟨?_, ?_⟩
  · simpa using hname
  · rw [String.toList_ofList]
    exact fun hc => hnul (hsubset hc)

namespace Session

/-- A program was asked for something and its answer was this text. -/
def Heard (session : Session) (history : List Request) (program text : String) : Prop :=
  ∃ before request after, history = before ++ request :: after ∧ request.program = program ∧
    request.textOf (session.execute before request) = .ok text

theorem Heard.of_prefix {session : Session} {history more : List Request} {program text : String}
    (h : session.Heard history program text) (hmore : history <+: more) : session.Heard more program text := by
  obtain ⟨before, request, after, rfl, hprogram, htext⟩ := h
  obtain ⟨later, rfl⟩ := hmore
  exact ⟨before, request, after ++ later, by simp, hprogram, htext⟩

/-- No text that the package database was heard to answer holds the character that ends texts. -/
def HeardNoNul (session : Session) (history : List Request) : Prop :=
  ∀ text, session.Heard history "dpkg-query" text → '\x00' ∉ text.toList

end Session

section Fit

variable {session : Session} {earlier : List Request}

/-- Neither what is set nor what is usual is a limit of zero. -/
theorem limit_ne_zero {limit : Option Nat} {usual : Nat} (h : limit ≠ some 0) (husual : usual ≠ 0) :
    (limit <|> some usual) ≠ some 0 := by
  cases limit with
  | none => simpa using husual
  | some limit => exact h

theorem problem?_statusStep (hlimit : session.statusTimeout ≠ some 0) :
    session.statusStep.request.problem? = none := by
  have hprogram : "pro" ≠ "" := by decide
  have hargs : ∀ arg ∈ ["status", "--format", "json", "--all"], Request.IsFitArgument arg := by decide +kernel
  exact Request.problem?_eq_none hprogram hargs (.inr rfl) (limit_ne_zero hlimit (by decide))

theorem problem?_queryStep {query : Apt.Query} (hlimit : session.listTimeout ≠ some 0)
    (hargs : ∀ arg ∈ query.request.args, Request.IsFitArgument arg) :
    (session.queryStep query).request.problem? = none := by
  have hprogram : query.request.program ≠ "" := by
    cases query <;> exact of_decide_eq_true rfl
  have henv : query.request.env = [("LC_ALL", "C")] := by
    cases query <;> rfl
  have htimeout : query.request.timeout = some Apt.listTimeout := by
    cases query <;> rfl
  refine Request.problem?_eq_none hprogram hargs (.inl henv) ?_
  show (session.listTimeout <|> query.request.timeout) ≠ some 0
  rw [htimeout]
  exact limit_ne_zero hlimit (by decide)

theorem problem?_installedStep (hlimit : session.listTimeout ≠ some 0) :
    (session.queryStep .installed).request.problem? = none :=
  problem?_queryStep hlimit (by decide +kernel)

theorem problem?_of_mem_chunkSteps {names : List String} {step : Step} (hlimit : session.listTimeout ≠ some 0)
    (hnames : ∀ name ∈ names, Request.IsFitArgument name) (h : step ∈ session.chunkSteps names) :
    step.request.problem? = none := by
  rcases List.mem_pair.mp h with rfl | rfl
  · exact problem?_queryStep hlimit (List.forall_mem_cons.mpr ⟨by decide +kernel, hnames⟩)
  · exact problem?_queryStep hlimit (List.forall_mem_cons.mpr ⟨by decide +kernel, hnames⟩)

/-- A name that is asked about was told by the package database, once that was asked. -/
theorem isFitArgument_of_mem_chunksAfter {chunk : List String} {more : List Request}
    (hnul : session.HeardNoNul (earlier ++ (session.queryStep .installed).request :: more))
    (h : chunk ∈ session.chunksAfter earlier) : ∀ name ∈ chunk, Request.IsFitArgument name := by
  intro name hname
  -- chunks are cut from an answer, so where there are any, the answer has been heard
  cases hanswer : (session.queryStep .installed).request.answer session.execute earlier with
  | error failure => simp [Session.chunksAfter, Session.installedNamesAfter, hanswer, Apt.chunks] at h
  | ok text =>
    have hfit := Request.problem?_eq_none_of_answer hanswer
    have htext : (session.queryStep .installed).request.textOf
        (session.execute earlier (session.queryStep .installed).request) = .ok text := by
      rwa [Request.answer_of_problem? hfit] at hanswer
    rw [chunksAfter_of_answer session earlier hanswer] at h
    have hmem := List.mem_flatten.mpr ⟨chunk, h, hname⟩
    rw [Apt.flatten_chunks] at hmem
    obtain ⟨row, hrow, rfl⟩ := List.mem_map.mp hmem
    exact Apt.isFitArgument_of_mem_installedRows (hnul text ⟨earlier, _, more, rfl, rfl, htext⟩)
      ((Apt.firstRows_sublist _).subset hrow)

variable {done rest : List Step} {step : Step}

/-- By the time that names are asked about, the package database has been asked. -/
theorem problem?_of_indexStepsAfter (hlimit : session.listTimeout ≠ some 0)
    (hcut : session.indexStepsAfter earlier = done ++ step :: rest)
    (hnul : session.HeardNoNul (earlier ++ done.map (·.request))) : step.request.problem? = none := by
  -- the first two steps ask about no names, and every later one comes after them
  cases done with
  | nil =>
    obtain ⟨hstep, -⟩ := List.cons.inj hcut
    rw [← hstep]
    exact problem?_installedStep hlimit
  | cons first done =>
    obtain ⟨hfirst, hcut⟩ := List.cons.inj hcut
    rw [List.map_cons, ← hfirst] at hnul
    cases done with
    | nil =>
      obtain ⟨hstep, -⟩ := List.cons.inj hcut
      rw [← hstep]
      exact problem?_queryStep hlimit (by decide +kernel)
    | cons second done =>
      obtain ⟨-, hcut⟩ := List.cons.inj hcut
      have hmem : step ∈ (session.chunksAfter earlier).flatMap session.chunkSteps := by
        rw [hcut]
        exact List.mem_append_right done List.mem_cons_self
      obtain ⟨chunk, hchunk, hmem⟩ := List.mem_flatMap.mp hmem
      exact problem?_of_mem_chunkSteps hlimit (isFitArgument_of_mem_chunksAfter hnul hchunk) hmem

/-- Every step that a task comes to is fit. -/
theorem problem?_of_steps {task : Task} (hlist : session.listTimeout ≠ some 0)
    (hstatus : session.statusTimeout ≠ some 0) (hcut : session.steps earlier task = done ++ step :: rest)
    (hnul : session.HeardNoNul (earlier ++ done.map (·.request))) : step.request.problem? = none := by
  have hmem : step ∈ session.steps earlier task := by
    rw [hcut]
    exact List.mem_append_right done List.mem_cons_self
  cases task with
  | subscription =>
    rw [List.mem_singleton.mp hmem]
    exact problem?_statusStep hstatus
  | packages | partition | listing kind => exact problem?_of_indexStepsAfter hlist hcut hnul
  | manifestLines =>
    rw [List.mem_singleton.mp hmem]
    exact problem?_installedStep hlist
  | containers =>
    rw [List.mem_singleton.mp hmem]
    exact problem?_snapRequest
  | report =>
    -- the status comes first, and then the report goes on as the index does
    cases done with
    | nil =>
      obtain ⟨hstep, -⟩ := List.cons.inj hcut
      rw [← hstep]
      exact problem?_statusStep hstatus
    | cons first done =>
      obtain ⟨hfirst, hcut⟩ := List.cons.inj hcut
      refine problem?_of_indexStepsAfter hlist hcut ?_
      rwa [List.append_assoc, hfirst]
  | manifest =>
    rcases List.mem_pair.mp hmem with rfl | rfl
    · exact problem?_installedStep hlist
    · exact problem?_snapRequest

end Fit

/-! ## How tasks end whose requests are fit -/

/-- How steps end of which none is refused: in success when all requests are handed over, or else with a step
whose request was handed over like those before it, and for a reason that lies in what came of that request. -/
inductive Unrefused {α : Type} (execute : Executor) (earlier : List Request) (steps : List Step) :
    Except Failure α × List Request → Prop
  | completed {value : α} : Unrefused execute earlier steps (.ok value, earlier ++ steps.map (·.request))
  | stopped {done : List Step} {step : Step} {rest : List Step} {failure : Failure} :
      steps = done ++ step :: rest →
      (step.request.textOf (execute (earlier ++ done.map (·.request)) step.request) = .error failure ∨
        ∃ text cause, step.request.textOf (execute (earlier ++ done.map (·.request)) step.request) = .ok text ∧
          step.flaw? text = some cause ∧ failure = step.request.failure cause) →
      Unrefused execute earlier steps (.error failure, earlier ++ done.map (·.request) ++ [step.request])

theorem Ends.unrefused {α : Type} {execute : Executor} {earlier : List Request} {steps : List Step}
    {made : List (Option String) → α → Prop} {result : Except Failure α × List Request}
    (h : Ends execute earlier steps made result)
    (hfit : ∀ done step rest, steps = done ++ step :: rest → earlier ++ done.map (·.request) <+: result.2 →
      step.request.problem? = none) : Unrefused execute earlier steps result := by
  cases h with
  | completed hpasses hmade => exact .completed
  | @stopped done step rest failure hcut hdone hneeded hfailure hpurpose =>
    have hproblem := hfit done step rest hcut (List.prefix_append _ _)
    rw [Request.handed_of_problem? hproblem]
    exact .stopped hcut (Step.textOf_or_flaw?_of_failure? hproblem hfailure)

/-- After any tasks, the next one hands over only what it may, and does so step by step; each chunk that it asks
about has names in it. If no limit of zero is set and no text of the package database holds a character that ends
texts, then none of its requests is refused. -/
theorem requests_of_task (session : Session) (tasks : List Task) (task : Task) :
    let earlier := session.history tasks
    let result := runFrom (session.carryOut task) earlier
    (∀ request ∈ result.2, request.validate = .ok () ∧ request.timeout = session.limit request.source) ∧
    Ends session.execute earlier (session.steps earlier task) (fun _ _ => True) result ∧
    (∀ before, ∀ chunk ∈ session.chunksAfter before, chunk ≠ [] ∧
      (session.queryStep (.policy chunk)).request ≠ (session.queryStep .packageFiles).request) ∧
    (session.listTimeout ≠ some 0 → session.statusTimeout ≠ some 0 → session.HeardNoNul result.2 →
      Unrefused session.execute earlier (session.steps earlier task) result) := by
  intro earlier result
  have hends : Ends session.execute earlier (session.steps earlier task) (fun _ _ => True) result :=
    ends_carryOut session earlier task
  refine ⟨?_, hends, ?_, ?_⟩
  · intro request hrequest
    have hallows := (onlyAsks_carryOut session task earlier).forall_mem (allows_of_mem_history session tasks) request
      hrequest
    exact ⟨hallows.fit, hallows.limit⟩
  · intro before chunk hchunk
    have hne := (Apt.ne_nil_and_length_le_of_mem_chunks hchunk).1
    exact ⟨hne, policy_ne_packageFiles session hne⟩
  · intro hlist hstatus hnul
    refine hends.unrefused fun done step rest hcut hstart => ?_
    exact problem?_of_steps hlist hstatus hcut fun text hheard => hnul text (hheard.of_prefix hstart)

/-- One package is installed, of which no tool knows more, on a machine without a subscription. -/
def plainMachine : Executor := fun _ request =>
  match request.program with
  | "dpkg-query" => .finished ⟨.exited 0, Text.Utf8.encode "ii \tbash\t5.1\n", []⟩
  | "pro" => .finished ⟨.exited 0, Text.Utf8.encode "\x7b\"attached\": false\x7d", []⟩
  | _ => .finished ⟨.exited 0, [], []⟩

def plainSession : Session where
  table := .ofSeries "jammy"
  chunkSize := 1
  listTimeout := some 5
  statusTimeout := none
  reader := StatusDocument.plainReader
  execute := plainMachine

theorem unrefused_plainSession :
    let earlier := plainSession.history [.manifest]
    Unrefused plainMachine earlier (plainSession.steps earlier .report)
      (runFrom (plainSession.carryOut .report) earlier) := by
  refine (requests_of_task plainSession [.manifest] .report).2.2.2 (by decide) (by decide) ?_
  rintro text ⟨before, request, after, -, hprogram, htext⟩
  have hanswer : request.textOf (plainSession.execute before request) = .ok "ii \tbash\t5.1\n" := by
    unfold plainSession plainMachine
    simp only [hprogram]
    cbv
  rw [hanswer] at htext
  rw [← Except.ok.inj htext]
  decide

end UpdatePosture
