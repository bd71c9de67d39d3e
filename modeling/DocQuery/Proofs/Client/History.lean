import DocQuery.Client.Run
/-!
# The history of a client

What the transport of a client holds, told from what has happened and not
from the state: the log is the requests of the accepted events, and the
replies that were taken, with those still queued behind them, are the
replies that were queued. Both count from the last time the transport was
cleared. Each law is one step lemma and an induction over the run; a run
is then described at each of its events (`run_history`).
-/

namespace DocQuery

/-! ## What events say -/

namespace Event

/-- Whether an event clears the transport. -/
def isClear : Event → Bool
  | clear => true
  | _ => false

/-- The reply that an event queues. -/
def pushed? : Event → Option Reply
  | push reply => some reply
  | _ => none

/-- The events since the transport was last cleared: all of them, if it
never was. -/
def sinceClear : List Event → List Event
  | [] => []
  | event :: rest => if (event :: rest).any isClear then sinceClear rest else event :: rest

theorem sinceClear_of_not_clear : ∀ {events : List Event}, events.any isClear = false →
    sinceClear events = events
  | [], _ => rfl
  | _ :: _, h => by rw [sinceClear, if_neg (by simp [h])]

end Event

namespace Client

/-- **The request that an event hands to the transport**: that of a call
whose arguments are valid, or the descriptor that a text gives. -/
def request? (c : Client) : Event → Option Request
  | .call path call => ((c.collection path).request c.config.scope call).toOption
  | .execute descriptor => (Request.read descriptor).toOption
  | _ => none

/-- The reply that an event uses up: the next one, if a request is
sent. -/
def taken? (c : Client) (event : Event) : Option Reply :=
  (c.request? event).bind fun _ => c.transport.replies.head?

/-- The replies that a run uses up after the transport was last cleared,
in that order. -/
def taken (c : Client) : List Event → List Reply
  | [] => []
  | event :: rest =>
    let later := taken (c.step event).2 rest
    if (event :: rest).any Event.isClear then later else (c.taken? event).toList ++ later

/-- **What a request is answered with**: `null` from an empty queue, and
from any other the first reply, which is gone then. A response gives its
body and a failure its reason. -/
inductive Answered : List Reply → Except Error Answer → List Reply → Prop
  | null : Answered [] (.ok (.response .null)) []
  | response {body : Json} {left : List Reply} :
      Answered (.response body :: left) (.ok (.response body)) left
  | failure {reason : Text} {left : List Reply} :
      Answered (.failure reason :: left) (.error (.transport reason)) left

/-- A client with a transport that was built with replies. -/
def start (config : Config) (replies : List Reply) : Client := ⟨config, { replies }⟩

/-! ## One step -/

variable (c : Client) {event : Event}

/-- **What a step can be**: a request is sent, a reply is queued, the
transport is cleared, or the client stays as it is. -/
theorem step_cases (event : Event) :
    (∃ request, c.request? event = some request ∧ event.pushed? = none ∧
      c.step event = c.send (.ok request)) ∨
    (∃ reply, event = .push reply) ∨ event = .clear ∨
    (c.request? event = none ∧ event.pushed? = none ∧ (c.step event).2 = c) := by
  cases event with
  | call path call =>
    cases h : (c.collection path).request c.config.scope call with
    | ok request => exact .inl ⟨request, by rw [request?, h]; rfl, rfl, by rw [step, h]⟩
    | error e =>
      exact .inr (.inr (.inr ⟨by rw [request?, h]; rfl, rfl, by rw [step, h]; rfl⟩))
  | execute descriptor =>
    cases h : Request.read descriptor with
    | ok request => exact .inl ⟨request, by rw [request?, h]; rfl, rfl, by rw [step, h]⟩
    | error e =>
      exact .inr (.inr (.inr ⟨by rw [request?, h]; rfl, rfl, by rw [step, h]; rfl⟩))
  | push reply => exact .inr (.inl ⟨reply, rfl⟩)
  | clear => exact .inr (.inr (.inl rfl))
  | name | source | toQuery | scope | lastRequest => exact .inr (.inr (.inr ⟨rfl, rfl, rfl⟩))

/-- **What sending does**: the request is recorded once, and answered from
the queue. -/
theorem send_ok (request : Request) : ∃ answer left,
    c.send (.ok request) = (answer, ⟨c.config, ⟨c.transport.log ++ [request], left⟩⟩) ∧
    Answered c.transport.replies answer left := by
  cases hreplies : c.transport.replies with
  | nil => exact ⟨_, _, by rw [send, Recorder.send, hreplies]; rfl, .null⟩
  | cons reply rest =>
    cases reply with
    | response body => exact ⟨_, _, by rw [send, Recorder.send, hreplies]; rfl, .response⟩
    | failure reason => exact ⟨_, _, by rw [send, Recorder.send, hreplies]; rfl, .failure⟩

/-- What answers a request is taken from the front of the queue. -/
theorem Answered.toList_append {queue left : List Reply} {answer : Except Error Answer}
    (h : Answered queue answer left) : queue.head?.toList ++ left = queue := by
  cases h <;> rfl

/-- An event that has a request sends it. -/
theorem step_of_request? {request : Request} (h : c.request? event = some request) :
    c.step event = c.send (.ok request) := by
  rcases c.step_cases event with ⟨request', hr, -, hstep⟩ | ⟨reply, rfl⟩ | rfl | ⟨hr, -, -⟩
  · rw [hr] at h
    cases h
    exact hstep
  · cases h
  · cases h
  · rw [hr] at h
    cases h

/-- And it does not clear the transport. -/
theorem not_isClear_of_request? {request : Request} (h : c.request? event = some request) :
    event.isClear = false := by
  cases event with
  | clear => cases h
  | _ => rfl

/-- A cleared transport is a new one. -/
theorem transport_step_clear (h : event.isClear) : (c.step event).2.transport = {} := by
  cases event with
  | clear => rfl
  | _ => cases h

/-- No event changes the settings. -/
theorem config_step (event : Event) : (c.step event).2.config = c.config := by
  rcases c.step_cases event with ⟨request, -, -, h⟩ | ⟨reply, rfl⟩ | rfl | ⟨-, -, h⟩
  · obtain ⟨answer, left, hsend, -⟩ := c.send_ok request
    rw [h, hsend]
  · rfl
  · rfl
  · rw [h]

/-- So what is sent for an event does not depend on the events before. -/
theorem request?_step (event : Event) : (c.step event).2.request? = c.request? := by
  have hrequest : ∀ c' : Client, c'.config = c.config → c'.request? = c.request? := by
    rintro ⟨_, _⟩ rfl
    funext other
    cases other with
    | call path => cases path <;> rfl
    | _ => rfl
  exact hrequest _ (c.config_step event)

/-- **A step adds to the log what it sends.** -/
theorem log_step (hclear : event.isClear = false) :
    (c.step event).2.transport.log = c.transport.log ++ (c.request? event).toList := by
  rcases c.step_cases event with ⟨request, hr, -, h⟩ | ⟨reply, rfl⟩ | rfl | ⟨hr, -, h⟩
  · obtain ⟨answer, left, hsend, -⟩ := c.send_ok request
    rw [h, hsend, hr]
    rfl
  · exact (List.append_nil _).symm
  · cases hclear
  · rw [h, hr]
    exact (List.append_nil _).symm

/-- **A step takes from the front of the queue what answers it and adds at
the end what it queues.** -/
theorem replies_step (hclear : event.isClear = false) :
    (c.taken? event).toList ++ (c.step event).2.transport.replies =
      c.transport.replies ++ event.pushed?.toList := by
  rcases c.step_cases event with ⟨request, hr, hp, h⟩ | ⟨reply, rfl⟩ | rfl | ⟨hr, hp, h⟩
  · obtain ⟨answer, left, hsend, hanswered⟩ := c.send_ok request
    rw [h, hsend, hp, taken?, hr]
    exact hanswered.toList_append.trans (List.append_nil _).symm
  · rfl
  · cases hclear
  · rw [h, hp, taken?, hr]
    exact (List.append_nil _).symm

/-! ## Runs -/

/-- A run can be stopped anywhere and gone on with. -/
theorem run_append (xs ys : List Event) : c.run (xs ++ ys) =
    ((c.run xs).1 ++ ((c.run xs).2.run ys).1, ((c.run xs).2.run ys).2) := by
  induction xs generalizing c with
  | nil => rfl
  | cons event rest ih =>
    change (((c.step event).1, (c.step event).2.transport.sent) ::
        ((c.step event).2.run (rest ++ ys)).1, ((c.step event).2.run (rest ++ ys)).2) = _
    rw [ih]
    rfl

theorem request?_run (events : List Event) : (c.run events).2.request? = c.request? := by
  induction events generalizing c with
  | nil => rfl
  | cons event rest ih => exact (ih (c.step event).2).trans (c.request?_step event)

theorem config_run (events : List Event) : (c.run events).2.config = c.config := by
  induction events generalizing c with
  | nil => rfl
  | cons event rest ih => exact (ih (c.step event).2).trans (c.config_step event)

/-- **The log of a run** is what it sent since the last clear, behind what
was there if there was none. -/
theorem log_run (events : List Event) : (c.run events).2.transport.log =
    (if events.any Event.isClear then [] else c.transport.log) ++
      (Event.sinceClear events).filterMap c.request? := by
  induction events generalizing c with
  | nil => exact (List.append_nil _).symm
  | cons event rest ih =>
    have hrun := ih (c.step event).2
    rw [c.request?_step event] at hrun
    change ((c.step event).2.run rest).2.transport.log = _
    rw [hrun, Event.sinceClear, List.any_cons]
    cases hrest : rest.any Event.isClear with
    | true =>
      -- a later clear makes what this event has sent not count
      simp
    | false =>
      rw [Event.sinceClear_of_not_clear hrest]
      cases hclear : event.isClear with
      | true =>
        -- clearing leaves an empty log
        rw [transport_step_clear c hclear]
        rfl
      | false =>
        rw [c.log_step hclear]
        cases hr : c.request? event <;> simp [hr]

/-- **The queue of a run**: what it used up since the last clear and what
is left are what it queued since then, behind what was there if there was
none. -/
theorem replies_run (events : List Event) :
    c.taken events ++ (c.run events).2.transport.replies =
      (if events.any Event.isClear then [] else c.transport.replies) ++
        (Event.sinceClear events).filterMap Event.pushed? := by
  induction events generalizing c with
  | nil => exact (List.append_nil _).symm
  | cons event rest ih =>
    have hrun := ih (c.step event).2
    change c.taken (event :: rest) ++ ((c.step event).2.run rest).2.transport.replies = _
    rw [taken, Event.sinceClear, List.any_cons]
    cases hrest : rest.any Event.isClear with
    | true => simpa [hrest] using hrun
    | false =>
      rw [Event.sinceClear_of_not_clear hrest, hrest] at hrun
      rw [Event.sinceClear_of_not_clear hrest]
      cases hclear : event.isClear with
      | true =>
        rw [transport_step_clear c hclear] at hrun
        exact hrun
      | false =>
        have hstep := c.replies_step hclear
        -- what this event takes comes before what later ones take, what it queues
        -- before what they queue, and `hstep` exchanges the two around the queue
        simp only [Bool.or_false, Bool.false_eq_true, if_false, List.append_assoc] at hrun ⊢
        rw [hrun, ← List.append_assoc, hstep, List.append_assoc]
        cases hp : event.pushed? <;> simp [hp]

/-- What a run uses up behind events is what it uses up of the queue that
they leave, unless it clears the transport. -/
theorem taken_append {ys : List Event} (h : ys.any Event.isClear = false) (xs : List Event) :
    c.taken (xs ++ ys) = c.taken xs ++ (c.run xs).2.taken ys := by
  induction xs generalizing c with
  | nil => rfl
  | cons event rest ih =>
    have hclear : (event :: rest ++ ys).any Event.isClear = (event :: rest).any Event.isClear := by
      rw [List.any_append, h, Bool.or_false]
    change c.taken (event :: (rest ++ ys)) = _
    rw [taken, taken, ih, ← List.cons_append, hclear]
    cases (event :: rest).any Event.isClear with
    | true => rfl
    | false => exact (List.append_assoc _ _ _).symm

/-- **A request behind a run** is recorded once, behind those of the run,
and answered from the queue that the run has left. -/
theorem run_concat_of_request? (events : List Event) {request : Request}
    (h : c.request? event = some request) : ∃ answer left,
    c.run (events ++ [event]) =
      ((c.run events).1 ++ [(answer, (c.run events).2.transport.sent + 1)],
        ⟨c.config, ⟨(c.run events).2.transport.log ++ [request], left⟩⟩) ∧
    Answered (c.run events).2.transport.replies answer left := by
  have hrequest : (c.run events).2.request? event = some request :=
    (congrFun (c.request?_run events) event).trans h
  obtain ⟨answer, left, hsend, hanswered⟩ := (c.run events).2.send_ok request
  have hstep : (c.run events).2.step event =
      (answer, ⟨c.config, ⟨(c.run events).2.transport.log ++ [request], left⟩⟩) := by
    rw [step_of_request? _ hrequest, hsend, config_run]
  refine ⟨answer, left, ?_, hanswered⟩
  rw [run_append, run, hstep]
  simp [run, Recorder.sent]

/-- And it uses up the first reply of that queue and no other. -/
theorem taken_concat_of_request? (events : List Event) {request : Request}
    (h : c.request? event = some request) :
    c.taken (events ++ [event]) =
      c.taken events ++ (c.run events).2.transport.replies.head?.toList := by
  have hclear : [event].any Event.isClear = false := by
    rw [List.any_cons, c.not_isClear_of_request? h]
    rfl
  have hrequest : (c.run events).2.request? event = some request :=
    (congrFun (c.request?_run events) event).trans h
  have htaken : (c.run events).2.taken [event] =
      (c.run events).2.transport.replies.head?.toList := by
    rw [taken, hclear, taken, taken?, hrequest]
    exact List.append_nil _
  rw [taken_append c hclear, htaken]

/-- **The history of a client.** After any run of a client whose transport
was built with replies, the log is the requests of the accepted events
since the last clear, in their order. The replies used up since then, with
those still queued behind them, are the replies queued since then. And the
next request is recorded once, is answered with the first of the queued
replies, be it a response or a failure, or with `null` where there is none,
and uses up that reply and no other. -/
theorem run_history (config : Config) (replies : List Reply) (events : List Event) :
    let c := ((start config replies).run events).2
    c.transport.log = (Event.sinceClear events).filterMap (start config replies).request? ∧
    (start config replies).taken events ++ c.transport.replies =
      (if events.any Event.isClear then [] else replies) ++
        (Event.sinceClear events).filterMap Event.pushed? ∧
    ∀ next request, (start config replies).request? next = some request → ∃ answer left,
      (start config replies).run (events ++ [next]) =
        (((start config replies).run events).1 ++ [(answer, c.transport.sent + 1)],
          ⟨config, ⟨c.transport.log ++ [request], left⟩⟩) ∧
      (start config replies).taken (events ++ [next]) =
        (start config replies).taken events ++ c.transport.replies.head?.toList ∧
      Answered c.transport.replies answer left := by
  intro c
  refine ⟨?_, replies_run _ events, fun next request hnext => ?_⟩
  · have hlog := (start config replies).log_run events
    rwa [show (start config replies).transport.log = [] from rfl, ite_self,
      List.nil_append] at hlog
  · obtain ⟨answer, left, hrun, hanswered⟩ :=
      (start config replies).run_concat_of_request? events hnext
    exact ⟨answer, left, hrun, taken_concat_of_request? _ events hnext, hanswered⟩

/-- A client whose first reply is a failure. -/
def failingClient : Client := start { database := "books".toList } [.failure "down".toList]

/-- Events around a clear: before it a request takes that failure and a
reply is queued, after it a response and a failure are queued and a call is
refused. -/
def clearedEvents : List Event :=
  [.call none .status, .push (.response (.bool true)), .clear,
    .push (.response (.str "done".toList)), .push (.failure "reset".toList),
    .call (some "a.b".toList) (.find .null)]

/-- After those events no request counts and two replies do. The next
request is answered with the body of the response, the one after it fails
for the reason of the failure, and both are recorded. -/
theorem run_history_cleared :
    (failingClient.run clearedEvents).2.transport.log = [] ∧
    (failingClient.run clearedEvents).2.transport.replies =
      [.response (.str "done".toList), .failure "reset".toList] ∧
    failingClient.run (clearedEvents ++ [.call none .status]) =
      ((failingClient.run clearedEvents).1 ++ [(.ok (.response (.str "done".toList)), 1)],
        ⟨failingClient.config, ⟨[⟨.get, Request.statusAction, [], true⟩],
          [.failure "reset".toList]⟩⟩) ∧
    failingClient.run (clearedEvents ++ [.call none .status] ++ [.call none .commitTransaction]) =
      ((failingClient.run (clearedEvents ++ [.call none .status])).1 ++
          [(.error (.transport "reset".toList), 2)],
        ⟨failingClient.config, ⟨[⟨.get, Request.statusAction, [], true⟩,
          .ofQuery "COMMIT".toList false], []⟩⟩) := by
  obtain ⟨hlog, hreplies, hnext⟩ :=
    run_history failingClient.config failingClient.transport.replies clearedEvents
  obtain ⟨-, -, hlater⟩ := run_history failingClient.config failingClient.transport.replies
    (clearedEvents ++ [.call none .status])
  obtain ⟨answer, left, hrun, -, hanswered⟩ :=
    hnext (.call none .status) ⟨.get, Request.statusAction, [], true⟩ rfl
  obtain ⟨failed, rest, hrun', -, hfailed⟩ :=
    hlater (.call none .commitTransaction) (.ofQuery "COMMIT".toList false) rfl
  have hbody : Answered [.response (.str "done".toList), .failure "reset".toList] answer left :=
    hanswered
  have hreason : Answered [.failure "reset".toList] failed rest := hfailed
  refine ⟨hlog, hreplies, ?_, ?_⟩
  · cases hbody
    exact hrun
  · cases hreason
    exact hrun'

end Client

end DocQuery
