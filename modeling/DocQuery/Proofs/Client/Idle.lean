import DocQuery.Proofs.Client.History
import DocQuery.Proofs.Collection.Validity
/-!
# Idle events

A call whose arguments are not valid is refused before the transport is
touched, and a question only looks. Which events are idle in this sense is
said of the events alone, by the validity of arguments, and agrees with
what a client does (`isIdle_eq`). So idle events can be left out of a run,
all of them or some, without a change to anything else (`run_filter`): the
log, the replies that are left, and the answers to all other events.
-/

namespace DocQuery

/-- **Whether an event leaves no trace**: a question, a call that is not
valid, or a text that gives no descriptor. -/
def Event.isIdle : Event → Bool
  | call _ asked => !asked.isValid
  | execute descriptor => (Request.read? descriptor).isNone
  | push _ => false
  | clear => false
  | name _ => true
  | source _ => true
  | toQuery _ _ => true
  | scope _ => true
  | lastRequest => true

namespace Client

variable (c : Client) {event : Event}

/-- An event is idle exactly if it sends nothing, queues nothing and is no
clear. -/
theorem isIdle_eq (event : Event) : event.isIdle =
    ((c.request? event).isNone && event.pushed?.isNone && !event.isClear) := by
  have hrefused : ∀ x : Except Error Request, x.toOption.isNone = !x.isOk := by
    intro x
    cases x <;> rfl
  cases event with
  | call path call =>
    have hvalid := (c.collection path).isOk_request c.config.scope call
    rw [request?, hrefused, hvalid, Event.isIdle]
    simp [Event.pushed?, Event.isClear]
  | execute descriptor =>
    have hread : (Request.read descriptor).isOk = (Request.read? descriptor).isSome := by
      rw [Request.read]
      cases Request.read? descriptor <;> rfl
    rw [request?, hrefused, hread, Option.not_isSome, Event.isIdle]
    simp [Event.pushed?, Event.isClear]
  | push | clear | name | source | toQuery | scope | lastRequest => rfl

/-- **An idle event leaves the client as it is.** -/
theorem step_of_isIdle (h : event.isIdle) : (c.step event).2 = c := by
  rw [c.isIdle_eq event, Bool.and_eq_true, Bool.and_eq_true] at h
  obtain ⟨⟨hrequest, hpushed⟩, hclear⟩ := h
  rcases c.step_cases event with ⟨request, hr, -, -⟩ | ⟨reply, rfl⟩ | rfl | ⟨-, -, hstep⟩
  · rw [hr] at hrequest
    exact absurd hrequest Bool.false_ne_true
  · exact absurd hpushed Bool.false_ne_true
  · exact absurd hclear Bool.false_ne_true
  · exact hstep

/-- **A call that is not valid is answered with an error**, and the client
stays as it is. -/
theorem step_of_not_isValid (path : Option Text) {call : Call} (h : call.isValid = false) :
    ∃ e, c.step (.call path call) = (.error e, c) := by
  have hrefused := (c.collection path).isOk_request c.config.scope call
  rw [h] at hrefused
  cases hrequest : (c.collection path).request c.config.scope call with
  | ok request =>
    rw [hrequest] at hrefused
    exact absurd hrefused.symm Bool.false_ne_true
  | error e =>
    refine ⟨e, ?_⟩
    rw [step, hrequest, send]

/-- A run is the answer to its first event and the run of the others. -/
theorem run_cons (event : Event) (rest : List Event) : c.run (event :: rest) =
    (((c.step event).1, (c.step event).2.transport.sent) :: ((c.step event).2.run rest).1,
      ((c.step event).2.run rest).2) := rfl

variable {keep : Event → Bool}

/-- What remains of a run when idle events are left out: the client is the
same at the end, and each event that is kept has the answer it had. -/
theorem run_keep (hkeep : ∀ event : Event, event.isIdle = false → keep event)
    (events : List Event) :
    c.run (events.filter keep) =
      (((events.zip (c.run events).1).filter (keep ·.1)).map (·.2), (c.run events).2) := by
  induction events generalizing c with
  | nil => rfl
  | cons event rest ih =>
    have hrest := ih (c.step event).2
    rw [run_cons, List.zip_cons_cons, List.filter_cons, List.filter_cons]
    cases hevent : keep event with
    | true =>
      simp only [if_true, run_cons, hrest, List.map_cons]
    | false =>
      -- the event that is left out is idle, so the others meet the same client
      have hidle : event.isIdle := by
        cases hidle : event.isIdle with
        | true => rfl
        | false => exact absurd (hkeep event hidle) (by simp [hevent])
      rw [c.step_of_isIdle hidle] at hrest ⊢
      simpa only [hevent, Bool.false_eq_true, if_false] using hrest

/-- A refused call can be left out wherever it stands. -/
theorem run_refused {call : Call} (h : call.isValid = false) (before : List Event)
    (path : Option Text) (after : List Event) : ∃ e,
      c.run (before ++ .call path call :: after) =
        ((c.run before).1 ++
            (.error e, (c.run before).2.transport.sent) :: ((c.run before).2.run after).1,
          (c.run (before ++ after)).2) := by
  obtain ⟨e, hstep⟩ := (c.run before).2.step_of_not_isValid path h
  refine ⟨e, ?_⟩
  rw [run_append, run_append, run_cons, hstep]

/-- **Refused calls and questions leave no trace.** Let the events that
are kept of a run be any that include all events that are not idle. Left
to themselves they come to the same client, with the same log and the same
replies left, and each is answered as it was, with the same number of
requests sent. And wherever a call that is not valid stands in a run, and
on whatever collection, it is answered with an error, sends nothing and
takes no reply from the events behind it. -/
theorem run_filter (c : Client) {keep : Event → Bool}
    (hkeep : ∀ event : Event, event.isIdle = false → keep event) (events : List Event) :
    (c.run (events.filter keep)).2 = (c.run events).2 ∧
    (c.run (events.filter keep)).1 =
      ((events.zip (c.run events).1).filter (keep ·.1)).map (·.2) ∧
    ∀ before path call after, call.isValid = false → ∃ e,
      c.run (before ++ .call path call :: after) =
        ((c.run before).1 ++
            (.error e, (c.run before).2.transport.sent) :: ((c.run before).2.run after).1,
          (c.run (before ++ after)).2) := by
  have hrun := c.run_keep hkeep events
  rw [hrun]
  refine ⟨rfl, rfl, ?_⟩
  intro before path call after hcall
  exact c.run_refused hcall before path after

/-- Events of which five are idle: calls with an id, a list of ids, a
document and a group of steps that are not valid, and a question. -/
def mixedEvents : List Event :=
  [.call none (.find .null), .push (.response (.bool true)),
    .call (some "a.b".toList) (.deleteMany (.arr [.arr []])), .call none .status,
    .call none (.update (.str ['7']) (.bool true)), .lastRequest,
    .call (some "c".toList) (.get [.filterGroup .and [.orderBy (.raw ['x']) ['?']]]),
    .call none .commitTransaction]

/-- The three events that are not idle come to the same client by
themselves: the first request takes the failure that was queued before,
the second takes the reply that was queued in between. -/
theorem run_filter_mixed :
    (∀ event : Event, event.isIdle = false → !event.isIdle) ∧
    (mixedEvents.filter (!·.isIdle)).length = 3 ∧
    (failingClient.run (mixedEvents.filter (!·.isIdle))).2 = (failingClient.run mixedEvents).2 ∧
    (failingClient.run (mixedEvents.filter (!·.isIdle))).1 =
      [(.ok .done, 0), (.error (.transport "down".toList), 1),
        (.ok (.response (.bool true)), 2)] ∧
    (Call.find .null).isValid = false ∧ ∃ e,
      failingClient.run ([] ++ .call none (.find .null) :: [.call none .status]) =
        ([(.error e, 0), (.error (.transport "down".toList), 1)],
          (failingClient.run [.call none .status]).2) := by
  have hkeep : ∀ event : Event, event.isIdle = false → !event.isIdle := by
    intro event h
    rw [h]
    rfl
  obtain ⟨hclient, hanswers, hrefused⟩ := run_filter failingClient hkeep mixedEvents
  refine ⟨hkeep, rfl, hclient, hanswers.trans rfl, rfl, ?_⟩
  obtain ⟨e, hrun⟩ := hrefused [] none (.find .null) [.call none .status] rfl
  exact ⟨e, hrun.trans rfl⟩

end Client

end DocQuery
