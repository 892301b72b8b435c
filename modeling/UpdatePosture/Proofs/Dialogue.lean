import Mathlib
import UpdatePosture.Dialogue

/-!
# Runs of dialogues

What a dialogue comes to when it goes on after some queries (`runFrom`), one equation for each way to make a
dialogue. Main statements: what each item of a list is good for on its own, it is good for in a dialogue about
the whole list (`forall_of_runFrom_mapM`), what the items make known, the list makes known in their order
(`exists_of_runFrom_mapM`), and a dialogue put together from others asks for nothing that these do not ask for
(`OnlyAsks`).
-/

namespace UpdatePosture.Dialogue

variable {Query α β : Type}

/-- The outcome of a dialogue that goes on after some queries, and all queries that were asked by its end. What is
logged on the way is left out. -/
def runFrom (dialogue : Dialogue Query α) (asked : List Query) : Except Failure α × List Query :=
  (StateT.run (ExceptT.run dialogue) asked).value

theorem transcript_eq_runFrom (dialogue : Dialogue Query α) : dialogue.transcript = dialogue.runFrom [] := rfl

/-! ## One equation for each way to make a dialogue -/

@[simp] theorem runFrom_pure (value : α) (asked : List Query) :
    runFrom (pure value) asked = (.ok value, asked) := rfl

theorem runFrom_bind (dialogue : Dialogue Query α) (next : α → Dialogue Query β) (asked : List Query) :
    runFrom (dialogue >>= next) asked =
      match runFrom dialogue asked with
      | (.ok value, asked') => runFrom (next value) asked'
      | (.error failure, asked') => (.error failure, asked') := by
  unfold runFrom ExceptT.run StateT.run
  simp only [bind, ExceptT.bind, ExceptT.mk, StateT.bind]
  cases dialogue asked with
  | mk run log => obtain ⟨outcome | outcome, asked'⟩ := run <;> rfl

theorem runFrom_map (image : α → β) (dialogue : Dialogue Query α) (asked : List Query) :
    runFrom (image <$> dialogue) asked =
      ((runFrom dialogue asked).1.map image, (runFrom dialogue asked).2) := by
  rw [map_eq_pure_bind, runFrom_bind]
  cases runFrom dialogue asked with
  | mk outcome asked' => cases outcome <;> rfl

@[simp] theorem runFrom_ask (respond : Responder Query (Except Failure α)) (query : Query)
    (asked : List Query) : runFrom (ask respond query) asked = (respond asked query, asked ++ [query]) := rfl

@[simp] theorem runFrom_throw (failure : Failure) (asked : List Query) :
    runFrom (throw failure : Dialogue Query α) asked = (.error failure, asked) := rfl

theorem runFrom_tryCatch (dialogue : Dialogue Query α) (handle : Failure → Dialogue Query α)
    (asked : List Query) :
    runFrom (tryCatch dialogue handle) asked =
      match runFrom dialogue asked with
      | (.ok value, asked') => (.ok value, asked')
      | (.error failure, asked') => runFrom (handle failure) asked' := by
  unfold runFrom ExceptT.run StateT.run
  simp only [tryCatch, tryCatchThe, MonadExceptOf.tryCatch, ExceptT.tryCatch, ExceptT.mk, bind, StateT.bind]
  cases dialogue asked with
  | mk run log => obtain ⟨outcome | outcome, asked'⟩ := run <;> rfl

/-- To log something changes neither what is asked nor what comes of it. -/
@[simp] theorem runFrom_logging (events : α → List LogEvent) (dialogue : Dialogue Query α) (asked : List Query) :
    runFrom (logging events dialogue) asked = runFrom dialogue asked := by
  unfold logging
  rw [runFrom_bind]
  rcases runFrom dialogue asked with ⟨outcome | outcome, asked'⟩ <;> rfl

theorem runFrom_attempt (dialogue : Dialogue Query α) (event : Failure → LogEvent) (asked : List Query) :
    runFrom (attempt dialogue event) asked =
      (.ok (runFrom dialogue asked).1.toOption, (runFrom dialogue asked).2) := by
  rw [attempt, runFrom_tryCatch, runFrom_map]
  cases (runFrom dialogue asked).1 <;> rfl

/-! ## Dialogues that end in a value -/

theorem exists_of_runFrom_bind {dialogue : Dialogue Query α} {next : α → Dialogue Query β}
    {asked asked' : List Query} {value : β} (h : runFrom (dialogue >>= next) asked = (.ok value, asked')) :
    ∃ first between, runFrom dialogue asked = (.ok first, between) ∧
      runFrom (next first) between = (.ok value, asked') := by
  rw [runFrom_bind] at h
  cases hfirst : runFrom dialogue asked with
  | mk outcome between =>
    rw [hfirst] at h
    cases outcome with
    | ok first => exact ⟨first, between, rfl, h⟩
    | error failure => cases h

theorem exists_of_runFrom_map {image : α → β} {dialogue : Dialogue Query α} {asked asked' : List Query}
    {value : β} (h : runFrom (image <$> dialogue) asked = (.ok value, asked')) :
    ∃ first, runFrom dialogue asked = (.ok first, asked') ∧ image first = value := by
  rw [runFrom_map] at h
  cases hfirst : runFrom dialogue asked with
  | mk outcome between =>
    rw [hfirst] at h
    cases outcome with
    | ok first => cases h; exact ⟨first, rfl, rfl⟩
    | error failure => cases h

/-- A dialogue about a list in which nothing goes wrong asks what it asks about each item. -/
theorem runFrom_mapM_of_ok {about : β → Dialogue Query α} {value : β → α} {queries : β → List Query}
    (h : ∀ item asked, runFrom (about item) asked = (.ok (value item), asked ++ queries item))
    (items : List β) (asked : List Query) :
    runFrom (items.mapM about) asked = (.ok (items.map value), asked ++ items.flatMap queries) := by
  induction items generalizing asked with
  | nil => simp
  | cons item items ih =>
    simp only [List.mapM_cons, runFrom_bind, h, ih, runFrom_pure, List.map_cons, List.flatMap_cons,
      List.append_assoc]

/-- What holds of a value once its item has been dealt with, and goes on to hold as more is asked, holds of all
values in the end. -/
theorem forall_of_runFrom_mapM {about : β → Dialogue Query α} (holds : List Query → α → Prop)
    (hkeep : ∀ asked asked' value, asked <+: asked' → holds asked value → holds asked' value)
    (habout : ∀ item asked value asked', runFrom (about item) asked = (.ok value, asked') →
      asked <+: asked' ∧ holds asked' value)
    {items : List β} {asked asked' : List Query} {values : List α}
    (h : runFrom (items.mapM about) asked = (.ok values, asked')) :
    asked <+: asked' ∧ ∀ value ∈ values, holds asked' value := by
  induction items generalizing asked values with
  | nil =>
    rw [List.mapM_nil, runFrom_pure] at h
    cases h
    exact ⟨List.prefix_rfl, nofun⟩
  | cons item items ih =>
    rw [List.mapM_cons] at h
    obtain ⟨value, between, hvalue, h⟩ := exists_of_runFrom_bind h
    obtain ⟨more, between', hmore, h⟩ := exists_of_runFrom_bind h
    rw [runFrom_pure] at h
    cases h
    obtain ⟨hfirst, hholds⟩ := habout item asked value between hvalue
    obtain ⟨hrest, hall⟩ := ih hmore
    exact ⟨hfirst.trans hrest, List.forall_mem_cons.mpr ⟨hkeep _ _ _ hrest hholds, hall⟩⟩

/-! ## What is asked -/

/-- More queries were asked after these, all of one sort. -/
def AsksMore (sort : Query → Prop) (asked asked' : List Query) : Prop :=
  ∃ queries, asked' = asked ++ queries ∧ ∀ query ∈ queries, sort query

section AsksMore

variable {sort : Query → Prop} {asked asked' between : List Query}

theorem AsksMore.refl (asked : List Query) : AsksMore sort asked asked :=
  ⟨[], (List.append_nil asked).symm, nofun⟩

theorem AsksMore.trans (hfirst : AsksMore sort asked between) (hsecond : AsksMore sort between asked') :
    AsksMore sort asked asked' := by
  obtain ⟨first, rfl, hfirst⟩ := hfirst
  obtain ⟨second, rfl, hsecond⟩ := hsecond
  exact ⟨first ++ second, List.append_assoc .., List.forall_mem_append.mpr ⟨hfirst, hsecond⟩⟩

theorem AsksMore.forall_mem (h : AsksMore sort asked asked') (hasked : ∀ query ∈ asked, sort query) :
    ∀ query ∈ asked', sort query := by
  obtain ⟨queries, rfl, hqueries⟩ := h
  exact List.forall_mem_append.mpr ⟨hasked, hqueries⟩

end AsksMore

/-- Whatever was asked before and whatever is answered, the dialogue asks for nothing but queries of one sort. -/
def OnlyAsks (sort : Query → Prop) (dialogue : Dialogue Query α) : Prop :=
  ∀ asked, AsksMore sort asked (runFrom dialogue asked).2

namespace OnlyAsks

variable {sort : Query → Prop}

theorem pure (value : α) : OnlyAsks sort (Pure.pure value : Dialogue Query α) :=
  .refl

theorem throw (failure : Failure) : OnlyAsks sort (MonadExcept.throw failure : Dialogue Query α) :=
  .refl

theorem ask {respond : Responder Query (Except Failure α)} {query : Query} (h : sort query) :
    OnlyAsks sort (Dialogue.ask respond query) :=
  fun _ => ⟨[query], rfl, List.forall_mem_singleton.mpr h⟩

theorem bind {dialogue : Dialogue Query α} {next : α → Dialogue Query β} (h : OnlyAsks sort dialogue)
    (hnext : ∀ value, OnlyAsks sort (next value)) : OnlyAsks sort (dialogue >>= next) := by
  intro asked
  have hfirst := h asked
  rw [runFrom_bind]
  cases hrun : runFrom dialogue asked with
  | mk outcome between =>
    rw [hrun] at hfirst
    cases outcome with
    | ok value => exact hfirst.trans (hnext value between)
    | error failure => exact hfirst

theorem tryCatch {dialogue : Dialogue Query α} {handle : Failure → Dialogue Query α} (h : OnlyAsks sort dialogue)
    (hhandle : ∀ failure, OnlyAsks sort (handle failure)) : OnlyAsks sort (tryCatch dialogue handle) := by
  intro asked
  have hfirst := h asked
  rw [runFrom_tryCatch]
  cases hrun : runFrom dialogue asked with
  | mk outcome between =>
    rw [hrun] at hfirst
    cases outcome with
    | ok value => exact hfirst
    | error failure => exact hfirst.trans (hhandle failure between)

theorem map {dialogue : Dialogue Query α} (h : OnlyAsks sort dialogue) (image : α → β) :
    OnlyAsks sort (image <$> dialogue) := by
  rw [map_eq_pure_bind]
  exact h.bind fun value => pure (image value)

theorem log (events : List LogEvent) : OnlyAsks sort (Dialogue.log events : Dialogue Query Unit) :=
  .refl

theorem logging {dialogue : Dialogue Query α} (h : OnlyAsks sort dialogue) (events : α → List LogEvent) :
    OnlyAsks sort (Dialogue.logging events dialogue) := by
  intro asked
  rw [runFrom_logging]
  exact h asked

theorem attempt {dialogue : Dialogue Query α} (h : OnlyAsks sort dialogue) (event : Failure → LogEvent) :
    OnlyAsks sort (Dialogue.attempt dialogue event) :=
  (h.map some).tryCatch fun _ => (pure none).logging _

theorem mapM {about : β → Dialogue Query α} (h : ∀ item, OnlyAsks sort (about item)) (items : List β) :
    OnlyAsks sort (items.mapM about) := by
  induction items with
  | nil => exact pure []
  | cons item items ih =>
    rw [List.mapM_cons]
    exact (h item).bind fun _ => ih.bind fun _ => pure _

end OnlyAsks

/-! ## Dialogues that come to the same -/

section RunFrom

variable {first second : Dialogue Query α}

theorem runFrom_bind_congr {next next' : α → Dialogue Query β} (h : runFrom first = runFrom second)
    (hnext : ∀ value, runFrom (next value) = runFrom (next' value)) :
    runFrom (first >>= next) = runFrom (second >>= next') := by
  funext asked
  simp only [runFrom_bind, h, hnext]

theorem runFrom_mapM_congr {about about' : β → Dialogue Query α}
    (h : ∀ item, runFrom (about item) = runFrom (about' item)) (items : List β) :
    runFrom (items.mapM about) = runFrom (items.mapM about') := by
  induction items with
  | nil => rfl
  | cons item items ih =>
    simp only [List.mapM_cons]
    exact runFrom_bind_congr (h item) fun _ => runFrom_bind_congr ih fun _ => rfl

theorem runFrom_ask_congr {first second : Responder Query (Except Failure α)} {query : Query}
    (h : ∀ asked, first asked query = second asked query) : runFrom (ask first query) = runFrom (ask second query) := by
  funext asked
  rw [runFrom_ask, runFrom_ask, h]

/-- A query that may fail and whose answer is not looked at might as well have been put to anybody. -/
theorem runFrom_attempt_ask_bind (first second : Responder Query (Except Failure α)) (event : Failure → LogEvent)
    (query : Query) (next : Dialogue Query β) :
    runFrom (attempt (ask first query) event >>= fun _ => next) =
      runFrom (attempt (ask second query) event >>= fun _ => next) := by
  funext asked
  simp only [runFrom_bind, runFrom_attempt, runFrom_ask]

end RunFrom

/-- Taking images of the values in the end is taking the image of each value when it comes. -/
theorem map_mapM {γ : Type} (image : β → γ) (about : α → Dialogue Query β) (items : List α) :
    List.map image <$> items.mapM about = items.mapM fun item => image <$> about item := by
  induction items with
  | nil => simp
  | cons item items ih =>
    rw [List.mapM_cons, List.mapM_cons, ← ih]
    simp

/-- Dialogues whose values have one image put the same queries and end alike. -/
theorem runFrom_of_map_eq {image : α → β} {first second : Dialogue Query α}
    (h : runFrom (image <$> first) = runFrom (image <$> second)) (asked : List Query) :
    (runFrom first asked).2 = (runFrom second asked).2 ∧
      ((∃ failure, (runFrom first asked).1 = .error failure ∧ (runFrom second asked).1 = .error failure) ∨
        ∃ value other, (runFrom first asked).1 = .ok value ∧ (runFrom second asked).1 = .ok other ∧
          image value = image other) := by
  have hruns := congrFun h asked
  simp only [runFrom_map, Prod.mk.injEq] at hruns
  obtain ⟨houtcome, hasked⟩ := hruns
  refine ⟨hasked, ?_⟩
  cases hfirst : (runFrom first asked).1 <;> cases hsecond : (runFrom second asked).1 <;>
    rw [hfirst, hsecond] at houtcome
  case error.error => exact .inl ⟨_, rfl, by rw [Except.error.inj houtcome]⟩
  case ok.ok => exact .inr ⟨_, _, rfl, rfl, Except.ok.inj houtcome⟩
  all_goals cases houtcome

/-! ## Answers that were given -/

/-- Among the queries that were asked is one that was answered like this when it was asked. -/
def Answered (respond : Responder Query (Except Failure α)) (asked : List Query) (query : Query)
    (answer : α) : Prop :=
  ∃ before after, asked = before ++ query :: after ∧ respond before query = .ok answer

variable {respond : Responder Query (Except Failure α)} {asked asked' : List Query} {query : Query} {answer : α}

theorem Answered.of_prefix (h : Answered respond asked query answer) (hmore : asked <+: asked') :
    Answered respond asked' query answer := by
  obtain ⟨before, after, rfl, hanswer⟩ := h
  obtain ⟨more, rfl⟩ := hmore
  exact ⟨before, after ++ more, by simp, hanswer⟩

/-! ## The answers in their order -/

/-- Queries that are put after others, each with the answer that it gets. -/
def answersTo (respond : Responder Query (Except Failure α)) (asked : List Query) :
    List Query → List (Query × Except Failure α)
  | [] => []
  | query :: queries => (query, respond asked query) :: answersTo respond (asked ++ [query]) queries

theorem answersTo_append (respond : Responder Query (Except Failure α)) (asked first second : List Query) :
    answersTo respond asked (first ++ second) =
      answersTo respond asked first ++ answersTo respond (asked ++ first) second := by
  induction first generalizing asked with
  | nil => simp [answersTo]
  | cons query first ih => simp [answersTo, ih]

/-- If each item makes known what is picked from its answers, a list makes known what is picked from all of them. -/
theorem exists_of_runFrom_mapM {γ δ : Type} {about : β → Dialogue Query γ} (told : γ → List δ)
    {pick : Query × Except Failure α → Option δ}
    (habout : ∀ item asked value asked', runFrom (about item) asked = (.ok value, asked') →
      ∃ queries, asked' = asked ++ queries ∧ (answersTo respond asked queries).filterMap pick = told value)
    {items : List β} {values : List γ} (h : runFrom (items.mapM about) asked = (.ok values, asked')) :
    ∃ queries, asked' = asked ++ queries ∧
      (answersTo respond asked queries).filterMap pick = values.flatMap told := by
  induction items generalizing asked values with
  | nil =>
    rw [List.mapM_nil, runFrom_pure] at h
    cases h
    exact ⟨[], (List.append_nil _).symm, rfl⟩
  | cons item items ih =>
    rw [List.mapM_cons] at h
    obtain ⟨value, between, hvalue, h⟩ := exists_of_runFrom_bind h
    obtain ⟨more, between', hmore, h⟩ := exists_of_runFrom_bind h
    rw [runFrom_pure] at h
    cases h
    obtain ⟨first, rfl, hfirst⟩ := habout item asked value between hvalue
    obtain ⟨rest, rfl, hrest⟩ := ih hmore
    refine ⟨first ++ rest, List.append_assoc .., ?_⟩
    rw [answersTo_append, List.filterMap_append, hfirst, hrest, List.flatMap_cons]

end UpdatePosture.Dialogue
