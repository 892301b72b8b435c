import Mathlib
import UpdatePosture.Apt.Requests
import UpdatePosture.Tool.Wait

/-!
# Waiting passes on all or nothing

What comes of waiting is said here by the events alone, whatever their order. Waiting goes on as long as the tool runs
(`StillRuns`); once the tool has ended in time, the pipes are read one after the other, each within its window
(`InWindow`, `Turn`). The output is passed on only if both pipes were read to their end, and then it is all that was
written to them; in every other case that ends there is a failure of the request, whose kind tells whether something
took too long or went wrong (`Outcome`). Main statement: `await?_eq_iff`.
-/

namespace UpdatePosture

theorem Request.await?_of_error {request : Request} {events : List WaitEvent} {failure : Failure}
    (h : wait? request.timeout events = some (.error failure.cause)) (hsource : failure.source = request.source)
    (haction : failure.action = request.action) : request.await? events = some (.error failure) := by
  rw [await?, h, Option.map_some, Except.mapError, Request.failure, ← hsource, ← haction]

namespace WaitEvent

/-! ## What has happened to a pipe -/

/-- The bytes that an event writes to a stream. -/
def bytesOn (stream : Stream) : WaitEvent → List UInt8
  | wrote other bytes => if other = stream then bytes else []
  | _ => []

/-- The bytes that are written to a stream, one after the other. -/
def written (stream : Stream) (events : List WaitEvent) : List UInt8 :=
  events.flatMap (bytesOn stream)

/-- Nothing is written to a pipe after its end was read: it has an end only when nobody can write to it any more. -/
def Faithful (events : List WaitEvent) : Prop :=
  events.Pairwise fun earlier later => ∀ stream bytes, earlier = closed stream → later ≠ wrote stream bytes

/-- The pipe was neither read to its end nor broken. -/
structure IsOpen (stream : Stream) (events : List WaitEvent) : Prop where
  not_closed : closed stream ∉ events
  not_broken : ∀ reason, broke stream reason ∉ events

/-- The pipe was read to its end, and these bytes were written to it before. -/
def ReadsToEnd (stream : Stream) (events : List WaitEvent) (bytes : List UInt8) : Prop :=
  ∃ before after, events = before ++ closed stream :: after ∧ IsOpen stream before ∧ bytes = written stream before

/-- Reading the pipe failed before its end. -/
def Breaks (stream : Stream) (events : List WaitEvent) (reason : String) : Prop :=
  ∃ before after, events = before ++ broke stream reason :: after ∧ IsOpen stream before

section Pipe

variable {stream : Stream} {events rest : List WaitEvent} {bytes : List UInt8} {reason : String}

theorem isOpen_nil (stream : Stream) : IsOpen stream [] :=
  ⟨List.not_mem_nil, fun _ => List.not_mem_nil⟩

theorem isOpen_concat {event : WaitEvent} :
    IsOpen stream (events ++ [event]) ↔
      IsOpen stream events ∧ event ≠ closed stream ∧ ∀ reason, event ≠ broke stream reason := by
  constructor
  · rintro ⟨hclosed, hbroken⟩
    simp only [List.mem_append, List.mem_singleton, not_or] at hclosed hbroken
    exact ⟨⟨hclosed.1, fun reason => (hbroken reason).1⟩, Ne.symm hclosed.2, fun reason => Ne.symm (hbroken reason).2⟩
  · rintro ⟨⟨hclosed, hbroken⟩, hnotClosed, hnotBroken⟩
    constructor <;> simp_all [eq_comm]

theorem written_concat (stream : Stream) (events : List WaitEvent) (event : WaitEvent) :
    written stream (events ++ [event]) = written stream events ++ bytesOn stream event := by
  simp [written]

theorem ReadsToEnd.append (h : ReadsToEnd stream events bytes) (rest : List WaitEvent) :
    ReadsToEnd stream (events ++ rest) bytes := by
  obtain ⟨before, after, rfl, hopen, rfl⟩ := h
  exact ⟨before, after ++ rest, by simp, hopen, rfl⟩

theorem Breaks.append (h : Breaks stream events reason) (rest : List WaitEvent) :
    Breaks stream (events ++ rest) reason := by
  obtain ⟨before, after, rfl, hopen⟩ := h
  exact ⟨before, after ++ rest, by simp, hopen⟩

/-- What a pipe may have come to. -/
theorem isOpen_or_ended (stream : Stream) (events : List WaitEvent) :
    IsOpen stream events ∨ (∃ bytes, ReadsToEnd stream events bytes) ∨ ∃ reason, Breaks stream events reason := by
  induction events using List.reverseRecOn with
  | nil => exact .inl (isOpen_nil stream)
  | append_singleton events event ih =>
    rcases ih with hopen | ⟨bytes, hreads⟩ | ⟨reason, hbreaks⟩
    · by_cases hclosed : event = closed stream
      · exact .inr (.inl ⟨_, events, [], by rw [hclosed], hopen, rfl⟩)
      · by_cases hbroken : ∃ reason, event = broke stream reason
        · obtain ⟨reason, rfl⟩ := hbroken
          exact .inr (.inr ⟨reason, events, [], rfl, hopen⟩)
        · exact .inl (isOpen_concat.mpr ⟨hopen, hclosed, not_exists.mp hbroken⟩)
    · exact .inr (.inl ⟨bytes, hreads.append _⟩)
    · exact .inr (.inr ⟨reason, hbreaks.append _⟩)

/-- Where nothing is written after the end, what was written before is all. -/
theorem ReadsToEnd.eq_written (h : ReadsToEnd stream events bytes) (hfaithful : Faithful events) :
    bytes = written stream events := by
  obtain ⟨before, after, rfl, -, rfl⟩ := h
  have hnothing : ∀ event ∈ after, bytesOn stream event = [] := by
    intro event hevent
    have hlater := List.rel_of_pairwise_cons (List.pairwise_append.mp hfaithful).2.1 hevent
    cases event with
    | wrote other bytes => exact if_neg fun hother => hlater stream bytes rfl (by rw [hother])
    | _ => rfl
  rw [written, written, List.flatMap_append, List.flatMap_cons, List.flatMap_eq_nil_iff.mpr hnothing]
  exact (List.append_nil _).symm

end Pipe

/-! ## The pipes that a run leads to -/

/-- The state of the pipes after the events. -/
def pipesAfter (events : List WaitEvent) : Pipes :=
  events.foldl Pipes.after .fresh

theorem pipesAfter_concat (events : List WaitEvent) (event : WaitEvent) :
    pipesAfter (events ++ [event]) = (pipesAfter events).after event :=
  List.foldl_concat ..

end WaitEvent

open WaitEvent

/-- The pipe of a stream. -/
def Pipes.of (pipes : Pipes) : Stream → Pipe
  | .stdout => pipes.stdout
  | .stderr => pipes.stderr

section Pipes

variable {stream : Stream} {events : List WaitEvent} {pipes : Pipes}

theorem Pipes.of_update (pipes : Pipes) (change : Pipe → Pipe) (stream other : Stream) :
    (pipes.update change stream).of other = if stream = other then change (pipes.of other) else pipes.of other := by
  cases stream <;> cases other <;> rfl

/-- A pipe that is not read any more stays as it is. -/
theorem Pipes.of_after (h : ∀ bytes, pipes.of stream ≠ .reading bytes) (event : WaitEvent) :
    (pipes.after event).of stream = pipes.of stream := by
  cases event with
  | wrote other bytes | closed other | broke other reason =>
    rw [after, of_update]
    cases hpipe : pipes.of stream with
    | reading before => exact absurd hpipe (h before)
    | complete before | broken before => exact ite_self _
  | _ => rfl

theorem Pipes.of_foldl_after (h : ∀ bytes, pipes.of stream ≠ .reading bytes) (rest : List WaitEvent) :
    (rest.foldl after pipes).of stream = pipes.of stream := by
  induction rest generalizing pipes with
  | nil => rfl
  | cons event rest ih =>
    have hevent := of_after h event
    rw [List.foldl_cons, ih (by rwa [hevent]), hevent]

theorem of_pipesAfter_of_isOpen (h : IsOpen stream events) :
    (pipesAfter events).of stream = .reading (written stream events) := by
  induction events using List.reverseRecOn with
  | nil => cases stream <;> rfl
  | append_singleton events event ih =>
    obtain ⟨hopen, hclosed, hbroken⟩ := isOpen_concat.mp h
    rw [pipesAfter_concat, written_concat]
    cases event with
    | wrote other bytes =>
      rw [Pipes.after, Pipes.of_update, ih hopen, bytesOn]
      split <;> simp [Pipe.wrote]
    | closed other =>
      rw [Pipes.after, Pipes.of_update, if_neg fun hother => hclosed (by rw [hother]), ih hopen]
      simp [bytesOn]
    | broke other reason =>
      rw [Pipes.after, Pipes.of_update, if_neg fun hother => hbroken reason (by rw [hother]), ih hopen]
      simp [bytesOn]
    | _ => simp [Pipes.after, bytesOn, ih hopen]

theorem of_pipesAfter_of_readsToEnd {bytes : List UInt8} (h : ReadsToEnd stream events bytes) :
    (pipesAfter events).of stream = .complete bytes := by
  obtain ⟨before, after, rfl, hopen, rfl⟩ := h
  have hclosed : ((pipesAfter before).after (closed stream)).of stream = .complete (written stream before) := by
    rw [Pipes.after, Pipes.of_update, if_pos rfl, of_pipesAfter_of_isOpen hopen, Pipe.closed]
  rw [pipesAfter, List.foldl_append, List.foldl_cons, ← pipesAfter, Pipes.of_foldl_after (by simp [hclosed]), hclosed]

theorem of_pipesAfter_of_breaks {reason : String} (h : Breaks stream events reason) :
    (pipesAfter events).of stream = .broken reason := by
  obtain ⟨before, after, rfl, hopen⟩ := h
  have hbroken : ((pipesAfter before).after (broke stream reason)).of stream = .broken reason := by
    rw [Pipes.after, Pipes.of_update, if_pos rfl, of_pipesAfter_of_isOpen hopen, Pipe.broke]
  rw [pipesAfter, List.foldl_append, List.foldl_cons, ← pipesAfter, Pipes.of_foldl_after (by simp [hbroken]), hbroken]

end Pipes

/-! ## How far waiting has come -/

namespace WaitEvent

/-- The event ends the time for which the tool itself is waited for. -/
def stops (limit : Option Nat) : WaitEvent → Bool
  | ended _ | lost _ => true
  | limitReached => limit.isSome
  | _ => false

/-- The tool is still waited for. -/
def StillRuns (limit : Option Nat) (events : List WaitEvent) : Prop :=
  ∀ event ∈ events, stops limit event = false

/-- The tool ended with this status before its time was up, and no window has run out since. -/
def InWindow (limit : Option Nat) (status : ExitStatus) (events : List WaitEvent) : Prop :=
  ∃ before drain, events = before ++ ended status :: drain ∧ StillRuns limit before ∧ windowOver ∉ drain

/-- The pipe is the one to be read now: standard output comes first, and standard error once that is complete. -/
def Turn (stream : Stream) (events : List WaitEvent) : Prop :=
  stream = .stderr → ∃ bytes, ReadsToEnd .stdout events bytes

section Progress

variable {limit : Option Nat} {status : ExitStatus} {events : List WaitEvent} {event : WaitEvent}

theorem stillRuns_concat :
    StillRuns limit (events ++ [event]) ↔ StillRuns limit events ∧ stops limit event = false := by
  simp [StillRuns, or_imp, forall_and]

theorem inWindow_of_stillRuns (h : StillRuns limit events) (status : ExitStatus) :
    InWindow limit status (events ++ [ended status]) :=
  ⟨events, [], rfl, h, List.not_mem_nil⟩

theorem InWindow.concat (h : InWindow limit status events) (hevent : event ≠ windowOver) :
    InWindow limit status (events ++ [event]) := by
  obtain ⟨before, drain, rfl, hruns, hwindow⟩ := h
  refine ⟨before, drain ++ [event], by simp, hruns, ?_⟩
  simp [hwindow, hevent.symm]

/-- Either both pipes are complete, or it is the turn of one that is open or broken. -/
theorem complete_or_turn (events : List WaitEvent) :
    (∃ stdout stderr, ReadsToEnd .stdout events stdout ∧ ReadsToEnd .stderr events stderr) ∨
      ∃ stream, Turn stream events ∧ (IsOpen stream events ∨ ∃ reason, Breaks stream events reason) := by
  rcases isOpen_or_ended .stdout events with hopen | ⟨stdout, hstdout⟩ | hbreaks
  · exact .inr ⟨.stdout, nofun, .inl hopen⟩
  · rcases isOpen_or_ended .stderr events with hopen | ⟨stderr, hstderr⟩ | hbreaks
    · exact .inr ⟨.stderr, fun _ => ⟨stdout, hstdout⟩, .inl hopen⟩
    · exact .inl ⟨stdout, stderr, hstdout, hstderr⟩
    · exact .inr ⟨.stderr, fun _ => ⟨stdout, hstdout⟩, .inr hbreaks⟩
  · exact .inr ⟨.stdout, nofun, .inr hbreaks⟩

end Progress

end WaitEvent

/-! ## The state that a run leads to -/

namespace WaitState

variable {limit : Option Nat} {status : ExitStatus} {events seen : List WaitEvent} {stream : Stream}

theorem afterEvents_concat (limit : Option Nat) (events : List WaitEvent) (event : WaitEvent) :
    afterEvents limit (events ++ [event]) = step limit (afterEvents limit events) event :=
  List.foldl_concat ..

theorem foldl_step_finished (limit : Option Nat) (result : Except Cause ToolOutput) (rest : List WaitEvent) :
    rest.foldl (step limit) (finished result) = finished result := by
  induction rest with
  | nil => rfl
  | cons event rest ih => exact ih

/-- What waiting has come to stays, whatever happens later. -/
theorem afterEvents_of_prefix {result : Except Cause ToolOutput} (h : afterEvents limit seen = finished result)
    (hseen : seen <+: events) : afterEvents limit events = finished result := by
  obtain ⟨rest, rfl⟩ := hseen
  rw [afterEvents, List.foldl_append, ← afterEvents, h, foldl_step_finished]

theorem step_running {pipes : Pipes} {event : WaitEvent} (h : stops limit event = false) :
    step limit (running pipes) event = running (pipes.after event) := by
  cases event with
  | ended | lost => cases h
  | limitReached =>
    obtain rfl : limit = none := by simpa [stops] using h
    rfl
  | _ => rfl

theorem afterEvents_of_stillRuns (h : StillRuns limit events) :
    afterEvents limit events = running (pipesAfter events) := by
  induction events using List.reverseRecOn with
  | nil => rfl
  | append_singleton events event ih =>
    obtain ⟨hruns, hevent⟩ := stillRuns_concat.mp h
    rw [afterEvents_concat, ih hruns, step_running hevent, pipesAfter_concat]

theorem step_draining {pipes : Pipes} {event : WaitEvent} (h : event ≠ .windowOver) :
    step limit (draining status pipes) event = settle status (pipes.after event) := by
  cases event with
  | windowOver => exact absurd rfl h
  | _ => rfl

/-- Once the tool has ended, an event within the window leads to what the pipes have come to by then. -/
theorem step_settle {pipes : Pipes} {event : WaitEvent} (h : event ≠ .windowOver) :
    step limit (settle status pipes) event = settle status (pipes.after event) := by
  have hkept : ∀ stream, (∀ bytes, pipes.of stream ≠ .reading bytes) →
      (pipes.after event).of stream = pipes.of stream := fun _ hstream => Pipes.of_after hstream event
  cases hout : pipes.stdout with
  | reading before =>
    have hdraining : settle status pipes = draining status pipes := by simp only [settle, hout]
    rw [hdraining, step_draining h]
  | broken reason =>
    have hout' : (pipes.after event).stdout = .broken reason := (hkept .stdout (by simp [Pipes.of, hout])).trans hout
    simp only [settle, hout, hout', step]
  | complete stdout =>
    have hout' : (pipes.after event).stdout = .complete stdout := (hkept .stdout (by simp [Pipes.of, hout])).trans hout
    cases herr : pipes.stderr with
    | reading before =>
      have hdraining : settle status pipes = draining status pipes := by simp only [settle, hout, herr]
      rw [hdraining, step_draining h]
    | complete stderr | broken reason =>
      have herr' := (hkept .stderr (by simp [Pipes.of, herr])).trans herr
      simp only [Pipes.of] at herr'
      simp only [settle, hout, hout', herr, herr', step]

theorem afterEvents_of_inWindow (h : InWindow limit status seen) :
    afterEvents limit seen = settle status (pipesAfter seen) := by
  obtain ⟨before, drain, rfl, hruns, hwindow⟩ := h
  induction drain using List.reverseRecOn with
  | nil =>
    rw [afterEvents_concat, afterEvents_of_stillRuns hruns, pipesAfter_concat]
    rfl
  | append_singleton drain event ih =>
    simp only [List.mem_append, List.mem_singleton, not_or] at hwindow
    rw [← List.cons_append, ← List.append_assoc, afterEvents_concat, ih hwindow.1, step_settle (Ne.symm hwindow.2),
      ← pipesAfter_concat]

theorem settle_of_readsToEnd {stdout stderr : List UInt8} (hstdout : ReadsToEnd .stdout seen stdout)
    (hstderr : ReadsToEnd .stderr seen stderr) :
    settle status (pipesAfter seen) = finished (.ok ⟨status, stdout, stderr⟩) := by
  have hout : (pipesAfter seen).stdout = .complete stdout := of_pipesAfter_of_readsToEnd hstdout
  have herr : (pipesAfter seen).stderr = .complete stderr := of_pipesAfter_of_readsToEnd hstderr
  simp only [settle, hout, herr]

theorem settle_of_breaks {reason : String} (hturn : Turn stream seen) (h : Breaks stream seen reason) :
    settle status (pipesAfter seen) = finished (.error (.readFailed stream reason)) := by
  cases stream with
  | stdout =>
    have hout : (pipesAfter seen).stdout = .broken reason := of_pipesAfter_of_breaks h
    simp only [settle, hout]
  | stderr =>
    obtain ⟨stdout, hstdout⟩ := hturn rfl
    have hout : (pipesAfter seen).stdout = .complete stdout := of_pipesAfter_of_readsToEnd hstdout
    have herr : (pipesAfter seen).stderr = .broken reason := of_pipesAfter_of_breaks h
    simp only [settle, hout, herr]

theorem settle_of_isOpen (hturn : Turn stream seen) (h : IsOpen stream seen) :
    settle status (pipesAfter seen) = draining status (pipesAfter seen) ∧ (pipesAfter seen).awaited = stream := by
  cases stream with
  | stdout =>
    have hout : (pipesAfter seen).stdout = .reading _ := of_pipesAfter_of_isOpen h
    simp only [settle, Pipes.awaited, hout, and_self]
  | stderr =>
    obtain ⟨stdout, hstdout⟩ := hturn rfl
    have hout : (pipesAfter seen).stdout = .complete stdout := of_pipesAfter_of_readsToEnd hstdout
    have herr : (pipesAfter seen).stderr = .reading _ := of_pipesAfter_of_isOpen h
    simp only [settle, Pipes.awaited, hout, herr, and_self]

end WaitState

/-! ## What waiting comes to -/

namespace WaitEvent

/-- The tool ended in time, and both pipes were read to their end before their windows ran out. -/
def Completes (limit : Option Nat) (events : List WaitEvent) (output : ToolOutput) : Prop :=
  ∃ seen, seen <+: events ∧ InWindow limit output.status seen ∧ ReadsToEnd .stdout seen output.stdout ∧
    ReadsToEnd .stderr seen output.stderr

/-- Something took too long. -/
inductive Expires (limit : Option Nat) (events : List WaitEvent) : Cause → Prop
  | limit {milliseconds : Nat} {seen : List WaitEvent} : limit = some milliseconds →
      seen ++ [limitReached] <+: events → StillRuns limit seen → Expires limit events (.noExit milliseconds)
  | window {status : ExitStatus} {stream : Stream} {seen : List WaitEvent} : seen ++ [windowOver] <+: events →
      InWindow limit status seen → Turn stream seen → IsOpen stream seen → Expires limit events (.stillOpen stream)

/-- Something could not be awaited or read. -/
inductive Fails (limit : Option Nat) (events : List WaitEvent) : Cause → Prop
  | wait {reason : String} {seen : List WaitEvent} : seen ++ [lost reason] <+: events → StillRuns limit seen →
      Fails limit events (.waitFailed reason)
  | read {status : ExitStatus} {stream : Stream} {reason : String} {seen : List WaitEvent} : seen <+: events →
      InWindow limit status seen → Turn stream seen → Breaks stream seen reason →
      Fails limit events (.readFailed stream reason)

/-- The tool still runs, or it is within the window of a pipe that is still open. -/
inductive Pending (limit : Option Nat) (events : List WaitEvent) : Prop
  | running : StillRuns limit events → Pending limit events
  | draining {status : ExitStatus} {stream : Stream} : InWindow limit status events → Turn stream events →
      IsOpen stream events → Pending limit events

/-- What waiting for a request comes to. -/
inductive Outcome (request : Request) (events : List WaitEvent) : Option (Except Failure ToolOutput) → Prop
  /-- All that was written is passed on. -/
  | complete {output : ToolOutput} : Completes request.timeout events output →
      output.stdout = written .stdout events → output.stderr = written .stderr events →
      Outcome request events (some (.ok output))
  | expired {failure : Failure} : Expires request.timeout events failure.cause →
      failure.source = request.source → failure.action = request.action → failure.kind = .timeout →
      Outcome request events (some (.error failure))
  | failed {failure : Failure} : Fails request.timeout events failure.cause →
      failure.source = request.source → failure.action = request.action → failure.kind = .processFailure →
      Outcome request events (some (.error failure))
  | pending : Pending request.timeout events → Outcome request events none

section Outcome

variable {limit : Option Nat} {status : ExitStatus} {events : List WaitEvent} {cause : Cause} {output : ToolOutput}

/-- One of these is the case. -/
def Concludes (limit : Option Nat) (events : List WaitEvent) : Prop :=
  Pending limit events ∨ (∃ output, Completes limit events output) ∨ (∃ cause, Expires limit events cause) ∨
    ∃ cause, Fails limit events cause

theorem concludes_of_inWindow (h : InWindow limit status events) : Concludes limit events := by
  rcases complete_or_turn events with ⟨stdout, stderr, hstdout, hstderr⟩ | ⟨stream, hturn, hopen | ⟨reason, hbreaks⟩⟩
  · exact .inr (.inl ⟨⟨status, stdout, stderr⟩, events, List.prefix_rfl, h, hstdout, hstderr⟩)
  · exact .inl (.draining h hturn hopen)
  · exact .inr (.inr (.inr ⟨_, .read List.prefix_rfl h hturn hbreaks⟩))

/-- One event after a run that is still pending: it goes on, or this event decides. -/
theorem Pending.concat (h : Pending limit events) (event : WaitEvent) : Concludes limit (events ++ [event]) := by
  cases h with
  | running hruns =>
    cases hstops : stops limit event with
    | false => exact .inl (.running (stillRuns_concat.mpr ⟨hruns, hstops⟩))
    | true =>
      cases event with
      | ended status => exact concludes_of_inWindow (inWindow_of_stillRuns hruns status)
      | lost reason => exact .inr (.inr (.inr ⟨_, .wait List.prefix_rfl hruns⟩))
      | limitReached =>
        obtain ⟨milliseconds, hlimit⟩ := Option.isSome_iff_exists.mp hstops
        exact .inr (.inr (.inl ⟨_, .limit hlimit List.prefix_rfl hruns⟩))
      | wrote | closed | broke | windowOver => cases hstops
  | draining hwindow hturn hopen =>
    by_cases hevent : event = windowOver
    · subst hevent
      exact .inr (.inr (.inl ⟨_, .window List.prefix_rfl hwindow hturn hopen⟩))
    · exact concludes_of_inWindow (hwindow.concat hevent)

theorem Completes.append (h : Completes limit events output) (rest : List WaitEvent) :
    Completes limit (events ++ rest) output := by
  obtain ⟨seen, hseen, hdone⟩ := h
  exact ⟨seen, hseen.trans (List.prefix_append ..), hdone⟩

theorem Expires.append (h : Expires limit events cause) (rest : List WaitEvent) :
    Expires limit (events ++ rest) cause := by
  rcases h with ⟨hlimit, hseen, hruns⟩ | ⟨hseen, hwindow, hturn, hopen⟩
  · exact .limit hlimit (hseen.trans (List.prefix_append ..)) hruns
  · exact .window (hseen.trans (List.prefix_append ..)) hwindow hturn hopen

theorem Fails.append (h : Fails limit events cause) (rest : List WaitEvent) : Fails limit (events ++ rest) cause := by
  rcases h with ⟨hseen, hruns⟩ | ⟨hseen, hwindow, hturn, hbreaks⟩
  · exact .wait (hseen.trans (List.prefix_append ..)) hruns
  · exact .read (hseen.trans (List.prefix_append ..)) hwindow hturn hbreaks

theorem concludes (limit : Option Nat) (events : List WaitEvent) : Concludes limit events := by
  induction events using List.reverseRecOn with
  | nil => exact .inl (.running fun _ hevent => absurd hevent List.not_mem_nil)
  | append_singleton events event ih =>
    rcases ih with hpending | ⟨output, hcompletes⟩ | ⟨cause, hexpires⟩ | ⟨cause, hfails⟩
    · exact hpending.concat event
    · exact .inr (.inl ⟨output, hcompletes.append _⟩)
    · exact .inr (.inr (.inl ⟨cause, hexpires.append _⟩))
    · exact .inr (.inr (.inr ⟨cause, hfails.append _⟩))

theorem wait?_of_prefix {seen : List WaitEvent} {result : Except Cause ToolOutput}
    (h : WaitState.afterEvents limit seen = .finished result) (hseen : seen <+: events) :
    wait? limit events = some result := by
  rw [wait?, WaitState.afterEvents_of_prefix h hseen]

theorem wait?_of_completes (h : Completes limit events output) : wait? limit events = some (.ok output) := by
  obtain ⟨seen, hseen, hwindow, hstdout, hstderr⟩ := h
  exact wait?_of_prefix
    ((WaitState.afterEvents_of_inWindow hwindow).trans (WaitState.settle_of_readsToEnd hstdout hstderr)) hseen

theorem wait?_of_expires (h : Expires limit events cause) : wait? limit events = some (.error cause) := by
  rcases h with ⟨rfl, hseen, hruns⟩ | ⟨hseen, hwindow, hturn, hopen⟩
  · refine wait?_of_prefix ?_ hseen
    rw [WaitState.afterEvents_concat, WaitState.afterEvents_of_stillRuns hruns, WaitState.step]
  · refine wait?_of_prefix ?_ hseen
    obtain ⟨hdraining, hawaited⟩ := WaitState.settle_of_isOpen hturn hopen
    rw [WaitState.afterEvents_concat, WaitState.afterEvents_of_inWindow hwindow, hdraining, WaitState.step, hawaited]

theorem wait?_of_fails (h : Fails limit events cause) : wait? limit events = some (.error cause) := by
  rcases h with ⟨hseen, hruns⟩ | ⟨hseen, hwindow, hturn, hbreaks⟩
  · refine wait?_of_prefix ?_ hseen
    rw [WaitState.afterEvents_concat, WaitState.afterEvents_of_stillRuns hruns, WaitState.step]
  · exact wait?_of_prefix
      ((WaitState.afterEvents_of_inWindow hwindow).trans (WaitState.settle_of_breaks hturn hbreaks)) hseen

theorem wait?_of_pending (h : Pending limit events) : wait? limit events = none := by
  rcases h with hruns | ⟨hwindow, hturn, hopen⟩
  · rw [wait?, WaitState.afterEvents_of_stillRuns hruns]
  · rw [wait?, WaitState.afterEvents_of_inWindow hwindow, (WaitState.settle_of_isOpen hturn hopen).1]

theorem Expires.kind_eq (h : Expires limit events cause) : cause.kind = .timeout := by
  cases h <;> rfl

theorem Fails.kind_eq (h : Fails limit events cause) : cause.kind = .processFailure := by
  cases h <;> rfl

/-- What was passed on is all that was written, up to the end of the run. -/
theorem Completes.eq_written (h : Completes limit events output) (hfaithful : Faithful events) :
    output.stdout = written .stdout events ∧ output.stderr = written .stderr events := by
  obtain ⟨seen, ⟨rest, rfl⟩, -, hstdout, hstderr⟩ := h
  exact ⟨(hstdout.append rest).eq_written hfaithful, (hstderr.append rest).eq_written hfaithful⟩

end Outcome

/-- What waiting returns, for every order of the events. -/
theorem await?_eq_iff {request : Request} {events : List WaitEvent} {result : Option (Except Failure ToolOutput)}
    (hfaithful : Faithful events) : request.await? events = result ↔ Outcome request events result := by
  constructor
  · rintro rfl
    rcases concludes request.timeout events with hpending | ⟨output, hcompletes⟩ | ⟨cause, hexpires⟩ | ⟨cause, hfails⟩
    · rw [Request.await?, wait?_of_pending hpending]
      exact .pending hpending
    · obtain ⟨hstdout, hstderr⟩ := hcompletes.eq_written hfaithful
      rw [Request.await?, wait?_of_completes hcompletes]
      exact .complete hcompletes hstdout hstderr
    · rw [Request.await?, wait?_of_expires hexpires]
      exact .expired hexpires rfl rfl hexpires.kind_eq
    · rw [Request.await?, wait?_of_fails hfails]
      exact .failed hfails rfl rfl hfails.kind_eq
  · intro h
    cases h with
    | complete hcompletes => rw [Request.await?, wait?_of_completes hcompletes]; rfl
    | expired hexpires hsource haction =>
      rw [Request.await?_of_error (wait?_of_expires hexpires) hsource haction]
    | failed hfails hsource haction =>
      rw [Request.await?_of_error (wait?_of_fails hfails) hsource haction]
    | pending hpending => rw [Request.await?, wait?_of_pending hpending]; rfl

/-- The tool ends before either pipe does; both are closed in time, standard error first. -/
def lateRun : List WaitEvent :=
  [wrote .stdout [104], wrote .stderr [33], wrote .stdout [105], ended (.exited 0), closed .stderr,
    wrote .stdout [10], closed .stdout, windowOver]

/-- Somebody else holds standard output open for longer than the window, and writes on it. -/
def heldRun : List WaitEvent :=
  [wrote .stdout [104], closed .stderr, ended (.exited 0), wrote .stdout [105], windowOver, wrote .stdout [10],
    closed .stdout]

theorem outcome_lateRun_heldRun :
    Faithful lateRun ∧ Faithful heldRun ∧
      Outcome (Apt.installedRequest .listInstalled) lateRun (some (.ok ⟨.exited 0, [104, 105, 10], [33]⟩)) ∧
      Outcome (Apt.installedRequest .listInstalled) heldRun
        (some (.error ⟨.dpkg, .listInstalled, .stillOpen .stdout⟩)) := by
  have hlate : Faithful lateRun := by simp [Faithful, lateRun]
  have hheld : Faithful heldRun := by simp [Faithful, heldRun]
  exact ⟨hlate, hheld, (await?_eq_iff hlate).mp rfl, (await?_eq_iff hheld).mp rfl⟩

end WaitEvent

end UpdatePosture
