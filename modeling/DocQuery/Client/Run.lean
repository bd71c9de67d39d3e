import DocQuery.Collection
import DocQuery.Config
/-!
# Client runs

A transport that sends nothing keeps every request it is handed, in
order, and answers from a queue of replies, the oldest first. A reply is
used up by the request that it answers, a failure like a response; when
none is left the answer is `null`.

A client is a configuration and a transport, and a run is a list of events
on it: calls on the default collection or on any other, requests handed to
the transport as they are, replies queued, the transport cleared, and
questions that change nothing. A call whose arguments are refused is not
sent and uses up no reply.
-/

namespace DocQuery

/-! ## The recording transport -/

/-- An answer prepared for a request to come. -/
inductive Reply
  | response (body : Json)
  | failure (reason : Text)

/-- The answer that a reply gives. -/
def Reply.answer : Reply → Except Error Json
  | response body => .ok body
  | failure reason => .error (.transport reason)

/-- The state of the transport. -/
structure Recorder where
  /-- The requests so far, the oldest first. -/
  log : List Request := []
  /-- The replies that are left, the next first. -/
  replies : List Reply := []

namespace Recorder

/-- A reply more at the end of the queue. -/
def push (r : Recorder) (reply : Reply) : Recorder := { r with replies := r.replies ++ [reply] }

/-- **A request is recorded and answered.** -/
def send (r : Recorder) (request : Request) : Except Error Json × Recorder :=
  match r.replies with
  | [] => (.ok .null, ⟨r.log ++ [request], []⟩)
  | reply :: rest => (reply.answer, ⟨r.log ++ [request], rest⟩)

/-- The latest request. -/
def last? (r : Recorder) : Option Request := r.log.getLast?

/-- How many requests there are. -/
def sent (r : Recorder) : Nat := r.log.length

end Recorder

/-! ## Events and runs -/

/-- What happens to a client. A collection that is not given is the
default one. -/
inductive Event
  | call (path : Option Text) (call : Call)
  /-- The text of a descriptor, handed to the transport. -/
  | execute (descriptor : Text)
  | push (reply : Reply)
  | clear
  /-- The path of a collection. -/
  | name (path : Option Text)
  /-- The name of a collection in queries. -/
  | source (path : Option Text)
  /-- The query of a scope. -/
  | toQuery (path : Option Text) (steps : List Step)
  | scope (steps : List Step)
  | lastRequest

/-- What an event is answered with. -/
inductive Answer
  | done
  | text (t : Text)
  | scope (s : Scope)
  | request (r : Option Request)
  | response (body : Json)

/-- Settings and a transport. -/
structure Client where
  /-- The settings, which no event changes. -/
  config : Config
  /-- The state of the transport. -/
  transport : Recorder

namespace Client

/-- The collection that an event gives, or the default one. -/
def collection (c : Client) : Option Text → Collection
  | some path => ⟨path⟩
  | none => c.config.collection

/-- A request that could be built is sent, and an error is passed on. -/
def send (c : Client) : Except Error Request → Except Error Answer × Client
  | .ok request =>
    let (answer, transport) := c.transport.send request
    (.response <$> answer, { c with transport })
  | .error e => (.error e, c)

/-- **The answer to an event, and the client after it.** -/
def step (c : Client) : Event → Except Error Answer × Client
  | .call path call => c.send ((c.collection path).request c.config.scope call)
  | .execute descriptor => c.send (Request.read descriptor)
  | .push reply => (.ok .done, { c with transport := c.transport.push reply })
  | .clear => (.ok .done, { c with transport := {} })
  | .name path => (.ok (.text (c.collection path).path), c)
  | .source path => (.ok (.text (c.collection path).source), c)
  | .toQuery path steps =>
    ((fun s => .text ((c.collection path).query s)) <$> c.config.scope.takeAll steps, c)
  | .scope steps => (.scope <$> c.config.scope.takeAll steps, c)
  | .lastRequest => (.ok (.request c.transport.last?), c)

/-- **A run**: the answer to each event with the number of requests then
recorded, and the client at the end. -/
def run (c : Client) : List Event → List (Except Error Answer × Nat) × Client
  | [] => ([], c)
  | event :: rest =>
    let (answer, c) := c.step event
    let (answers, final) := run c rest
    ((answer, c.transport.sent) :: answers, final)

end Client

end DocQuery
