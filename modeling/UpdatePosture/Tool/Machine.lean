import UpdatePosture.Tool.Wait

/-!
# Machines

A machine starts the program of a request, or says why it cannot, and a program that was started is waited for.
Whatever happens, there is an end to it; so a machine carries out requests, and its failures name what was asked
for, and of whom (`Machine.tags_executor`).
-/

namespace UpdatePosture

/-- What happens when a request is handed over. -/
inductive Happening where
  | refused (error : SystemError)
  | started (events : List WaitEvent)
  deriving Repr

/-- The run that a request comes to, if what happens brings it to an end. -/
def Request.runOn? (request : Request) : Happening → Option Run
  | .refused error => some (.notStarted (request.failure (.notStarted request.program error)))
  | .started events =>
      (request.await? events).map fun
        | .ok output => .finished output
        | .error failure => .notAwaited failure

/-- What happens to each request, given the requests before it. -/
structure Machine where
  happening : List Request → Request → Happening
  ends : ∀ earlier (request : Request), (request.runOn? (happening earlier request)).isSome

namespace Machine

/-- Carries out requests by what happens to them. -/
def executor (machine : Machine) : Executor := fun earlier request =>
  (request.runOn? (machine.happening earlier request)).get (machine.ends earlier request)

theorem runOn?_happening (machine : Machine) (earlier : List Request) (request : Request) :
    request.runOn? (machine.happening earlier request) = some (machine.executor earlier request) :=
  (Option.some_get _).symm

theorem tags_executor (machine : Machine) : machine.executor.Tags := by
  intro earlier request failure h
  have hrun := machine.runOn?_happening earlier request
  cases hhappening : machine.happening earlier request with
  | refused error =>
    rw [hhappening] at hrun
    rw [← Option.some.inj hrun] at h
    rcases h with h | h <;> cases h
    exact ⟨rfl, rfl⟩
  | started events =>
    rw [hhappening, Request.runOn?, Request.await?, Option.map_map] at hrun
    obtain ⟨result, -, hresult⟩ := Option.map_eq_some_iff.mp hrun
    rw [← hresult] at h
    cases result with
    | ok output => rcases h with h | h <;> cases h
    | error cause => rcases h with h | h <;> cases h; exact ⟨rfl, rfl⟩

end Machine

end UpdatePosture
