import GraphHarness.Harness.Protocol
import GraphHarness.Trace.Simulation

/-!
# The daemon's client (`client/mod.rs`, `daemon/server.rs`)

`send_request` sends a text and takes the next frame for the answer. There are no request
ids. The daemon answers every text it gets with one text, in order, and its stream may
carry other frames in between.

> `answers_own_iff` — every response that is returned answers the request of the same
> call **exactly if no call takes a response after one whose request has reached the
> daemon has taken something else**.

A connection keeps how many requests have reached the daemon and how many texts have been
read. While these are equal, the next text is the answer to the next request; a call that
gives up after its request was delivered leaves the client one answer behind
(`behind_of_strays`), and nothing ever catches up (`behind_step`).

TLS and the framing of the WebSocket are not modelled: a send succeeds or fails, and if it
fails the text may have gone out or not. Frames that are no text are answered by nobody, and
end the call with an error.
-/

namespace GraphHarness.DaemonClient

open Protocol (Request Response)
open Trace (after after_append after_invariant invariant_throughout)

/-- A frame of the daemon. A text is the answer to the request with a number. -/
inductive Frame where
  | text (answerTo : Nat) (parsed : Except String Response)
  | close
  | other
  | error (message : String)

/-- A connection to the daemon: the requests that have reached it, how many of them it has
answered, and the frames that have not been read. `read` counts the texts that have. -/
structure Connection where
  delivered : List Request
  answered : Nat
  inbox : List Frame
  read : Nat

/-- What the daemon does: it answers the next request, or sends a frame that is no text. -/
inductive Move where
  | answer (parsed : Except String Response)
  | close
  | other
  | error (message : String)

/-- How the send of a request ends. One that fails may have reached the daemon. -/
inductive Send where
  | sent
  | failed (message : String) (reached : Bool)

/-- One call of `send_request`, with what happens during it: whether the request is
serialized and sent, and what the daemon does before the client reads a frame. A stream
that has nothing to read then has ended. -/
structure Call where
  request : Request
  serialize : Option String
  send : Send
  moves : List Move

/-- A response that is returned, and the number of the request that it answers. -/
structure Reply where
  answerTo : Nat
  response : Response

namespace Connection

/-- A connection that was just opened. -/
def new : Connection := ⟨[], 0, [], 0⟩

/-- What the daemon or the network does meanwhile. -/
def move (connection : Connection) : Move → Connection
  | .answer parsed =>
    if connection.answered < connection.delivered.length then
      { connection with
        answered := connection.answered + 1
        inbox := connection.inbox ++ [.text connection.answered parsed] }
    else connection
  | .close => { connection with inbox := connection.inbox ++ [.close] }
  | .other => { connection with inbox := connection.inbox ++ [.other] }
  | .error message => { connection with inbox := connection.inbox ++ [.error message] }

/-- The request has reached the daemon. -/
def deliver (connection : Connection) (request : Request) : Connection :=
  { connection with delivered := connection.delivered ++ [request] }

/-- `ws.next()` and the match on what it yields. -/
def receive (connection : Connection) : Connection × Except String Reply :=
  match connection.inbox with
  | .text n parsed :: inbox =>
    ({ connection with inbox := inbox, read := connection.read + 1 },
      match parsed with
      | .ok response => .ok ⟨n, response⟩
      | .error _ => .error "Failed to parse daemon response")
  | .close :: inbox => ({ connection with inbox := inbox }, .error "Connection closed by daemon")
  | .error e :: inbox => ({ connection with inbox := inbox }, .error ("WebSocket error: " ++ e))
  | .other :: inbox =>
    ({ connection with inbox := inbox }, .error "Unexpected message type from daemon")
  | [] => (connection, .error "Connection closed unexpectedly")

/-- `send_request`: the message is sent, and the next text is taken for the answer. -/
def sendRequest (connection : Connection) (call : Call) : Connection × Except String Reply :=
  match call.serialize with
  | some e => (connection, .error e)
  | none =>
    match call.send with
    | .failed e reached =>
      (if reached then connection.deliver call.request else connection, .error e)
    | .sent => (call.moves.foldl move (connection.deliver call.request)).receive

/-- What the call finds when it reads: the frames that have come by then. -/
def waiting (connection : Connection) (call : Call) : List Frame :=
  (call.moves.foldl move (connection.deliver call.request)).inbox

/-- The request reaches the daemon, and the call does not take a text for it. -/
def Strays (connection : Connection) (call : Call) : Prop :=
  call.serialize = none ∧ match call.send with
    | .failed _ reached => reached = true
    | .sent => ∀ n parsed, (connection.waiting call).head? ≠ some (.text n parsed)

/-- The call takes a text, and it is a response. -/
def TakesResponse (connection : Connection) (call : Call) : Prop :=
  call.serialize = none ∧ call.send = .sent ∧
    ∃ n response, (connection.waiting call).head? = some (.text n (.ok response))

/-- A response that is returned answers the request of the call: as many requests have
reached the daemon before it as the answer's number says. -/
def AnswersOwn (connection : Connection) (call : Call) : Prop :=
  ∀ reply, (connection.sendRequest call).2 = .ok reply →
    reply.answerTo = connection.delivered.length

/-! ## The order of the answers -/

end Connection

/-- Which request a frame answers. -/
def Frame.number : Frame → Option Nat
  | .text n _ => some n
  | _ => none

namespace Connection

/-- The texts that are waiting are the answers that have not been read, in order. -/
structure Ordered (connection : Connection) : Prop where
  texts : connection.inbox.filterMap Frame.number =
    List.range' connection.read (connection.answered - connection.read)
  read_le : connection.read ≤ connection.answered
  answered_le : connection.answered ≤ connection.delivered.length

/-- A new connection is in order. -/
theorem ordered_new : new.Ordered := ⟨rfl, Nat.le_refl _, Nat.le_refl _⟩

variable {connection : Connection}

/-- The daemon answers in the order of the requests. -/
theorem ordered_move (h : connection.Ordered) (m : Move) : (connection.move m).Ordered := by
  obtain ⟨htexts, hread, hanswered⟩ := h
  -- a frame that is no text adds no answer
  have hother : ∀ frame : Frame, frame.number = none →
      (connection.inbox ++ [frame]).filterMap Frame.number =
        List.range' connection.read (connection.answered - connection.read) := by
    intro frame hframe
    simp [hframe, htexts]
  cases m with
  | answer parsed =>
    unfold move
    dsimp only
    split
    next hlt =>
      refine ⟨?_, Nat.le_succ_of_le hread, hlt⟩
      have hsub : connection.answered + 1 - connection.read =
          connection.answered - connection.read + 1 := by omega
      have hlast : connection.read + (connection.answered - connection.read) =
          connection.answered := by omega
      simp only [List.filterMap_append, htexts, hsub, List.range'_concat, Nat.one_mul, hlast]
      rfl
    next => exact ⟨htexts, hread, hanswered⟩
  | close => exact ⟨hother .close rfl, hread, hanswered⟩
  | other => exact ⟨hother .other rfl, hread, hanswered⟩
  | error message => exact ⟨hother (.error message) rfl, hread, hanswered⟩

/-- A request delivered keeps the order. -/
theorem ordered_deliver (h : connection.Ordered) (request : Request) :
    (connection.deliver request).Ordered := by
  refine ⟨h.texts, h.read_le, ?_⟩
  show connection.answered ≤ (connection.delivered ++ [request]).length
  rw [List.length_append]
  exact Nat.le_add_right_of_le h.answered_le

/-- What the daemon does delivers and reads nothing. -/
theorem move_counts (connection : Connection) (m : Move) :
    (connection.move m).delivered = connection.delivered ∧
      (connection.move m).read = connection.read := by
  cases m with
  | answer parsed =>
    unfold move
    dsimp only
    split
    next => exact ⟨rfl, rfl⟩
    next => exact ⟨rfl, rfl⟩
  | _ => exact ⟨rfl, rfl⟩

/-- What the daemon does leaves the requests and what has been read alone. -/
theorem moves_spec (moves : List Move) : ∀ {connection : Connection}, connection.Ordered →
    (moves.foldl move connection).Ordered ∧
      (moves.foldl move connection).delivered = connection.delivered ∧
      (moves.foldl move connection).read = connection.read := by
  induction moves with
  | nil => intro connection h; exact ⟨h, rfl, rfl⟩
  | cons m moves ih =>
    intro connection h
    obtain ⟨hordered, hdelivered, hread⟩ := ih (ordered_move h m)
    obtain ⟨hdelivered', hread'⟩ := connection.move_counts m
    exact ⟨hordered, hdelivered.trans hdelivered', hread.trans hread'⟩

/-- The next text is the first answer that has not been read. -/
theorem texts_of_head (h : connection.Ordered) {n : Nat} {parsed : Except String Response}
    {inbox : List Frame} (hinbox : connection.inbox = .text n parsed :: inbox) :
    n = connection.read ∧ connection.read < connection.answered ∧
      inbox.filterMap Frame.number =
        List.range' (connection.read + 1) (connection.answered - (connection.read + 1)) := by
  have htexts := h.texts
  rw [hinbox, List.filterMap_cons] at htexts
  cases hcount : connection.answered - connection.read with
  | zero => simp [Frame.number, hcount] at htexts
  | succ count =>
    rw [hcount, List.range'_succ] at htexts
    obtain ⟨hn, hrest⟩ := List.cons.inj htexts
    refine ⟨hn, by omega, ?_⟩
    rw [hrest]
    congr 1
    omega

/-- What a read does: a text is the answer that is next, and anything else is dropped. -/
theorem receive_spec (h : connection.Ordered) : connection.receive.1.Ordered ∧
    connection.receive.1.delivered = connection.delivered ∧
    match connection.inbox.head? with
    | some (.text n parsed) => n = connection.read ∧
      connection.receive.1.read = connection.read + 1 ∧ connection.receive.2 = match parsed with
        | .ok response => .ok ⟨n, response⟩
        | .error _ => .error "Failed to parse daemon response"
    | _ =>
      connection.receive.1.read = connection.read ∧ ∃ e, connection.receive.2 = .error e := by
  obtain ⟨htexts, hread, hanswered⟩ := h
  unfold receive
  split
  next n parsed inbox hinbox =>
    obtain ⟨hn, hlt, hrest⟩ := texts_of_head ⟨htexts, hread, hanswered⟩ hinbox
    rw [hinbox]
    exact ⟨⟨hrest, hlt, hanswered⟩, rfl, hn, rfl, rfl⟩
  next inbox hinbox =>
    rw [hinbox] at htexts ⊢
    exact ⟨⟨htexts, hread, hanswered⟩, rfl, rfl, _, rfl⟩
  next e inbox hinbox =>
    rw [hinbox] at htexts ⊢
    exact ⟨⟨htexts, hread, hanswered⟩, rfl, rfl, _, rfl⟩
  next inbox hinbox =>
    rw [hinbox] at htexts ⊢
    exact ⟨⟨htexts, hread, hanswered⟩, rfl, rfl, _, rfl⟩
  next hinbox =>
    refine ⟨⟨htexts, hread, hanswered⟩, rfl, ?_⟩
    rw [hinbox]
    exact ⟨rfl, _, rfl⟩

/-! ## One call -/

/-- What a call does to the two counts, and what it returns. -/
structure CallSpec (connection : Connection) (call : Call)
    (result : Connection × Except String Reply) : Prop where
  ordered : result.1.Ordered
  strays : connection.Strays call → result.1.read = connection.read ∧
    result.1.delivered.length = connection.delivered.length + 1
  keeps : ¬ connection.Strays call →
    result.1.read + connection.delivered.length = connection.read + result.1.delivered.length
  takes : connection.TakesResponse call → ∃ reply, result.2 = .ok reply
  own : ∀ reply, result.2 = .ok reply →
    connection.TakesResponse call ∧ reply.answerTo = connection.read

/-- A call whose request is sent: it takes the next frame for the answer. -/
theorem sent_spec (h : connection.Ordered) (request : Request) (moves : List Move) :
    CallSpec connection ⟨request, none, .sent, moves⟩
      (moves.foldl move (connection.deliver request)).receive := by
  obtain ⟨hordered, hdelivered, hread⟩ := moves_spec moves (ordered_deliver h request)
  obtain ⟨hreceived, hsame, hresult⟩ := receive_spec hordered
  have hwaiting : connection.waiting ⟨request, none, .sent, moves⟩ =
      (moves.foldl move (connection.deliver request)).inbox := rfl
  have hlength : (moves.foldl move (connection.deliver request)).receive.1.delivered.length =
      connection.delivered.length + 1 := by
    rw [hsame, hdelivered]
    exact List.length_append
  split at hresult
  next n parsed hhead =>
    obtain ⟨hn, hreads, hreturns⟩ := hresult
    refine ⟨hreceived, ?_, ?_, ?_, ?_⟩
    · intro hstrays
      exact absurd hhead (hwaiting ▸ hstrays.2 n parsed)
    · intro _
      rw [hreads, hlength, hread, Nat.add_right_comm]
      rfl
    · intro htakes
      obtain ⟨n', response, hresponse⟩ := htakes.2.2
      rw [hwaiting, hhead] at hresponse
      obtain ⟨_, rfl⟩ := Frame.text.inj (Option.some.inj hresponse)
      exact ⟨_, hreturns⟩
    · intro reply hreply
      rw [hreturns] at hreply
      cases parsed with
      | error e => cases hreply
      | ok response =>
        obtain rfl := Except.ok.inj hreply
        exact ⟨⟨rfl, rfl, n, response, hhead⟩, hn.trans hread⟩
  next hother =>
    obtain ⟨hreads, e, hreturns⟩ := hresult
    have hnone : ∀ n parsed, (connection.waiting ⟨request, none, .sent, moves⟩).head? ≠
        some (.text n parsed) := by
      intro n parsed hhead
      exact hother n parsed hhead
    refine ⟨hreceived, ?_, ?_, ?_, ?_⟩
    · intro _
      exact ⟨hreads.trans hread, hlength⟩
    · intro hkeeps
      exact absurd ⟨rfl, hnone⟩ hkeeps
    · intro htakes
      obtain ⟨n, response, hhead⟩ := htakes.2.2
      exact absurd hhead (hnone n _)
    · intro reply hreply
      rw [hreturns] at hreply
      cases hreply

/-- What one call does, by what it returns. -/
theorem sendRequest_spec (h : connection.Ordered) (call : Call) :
    CallSpec connection call (connection.sendRequest call) := by
  obtain ⟨request, serialize, send, moves⟩ := call
  unfold sendRequest
  dsimp only
  cases serialize with
  | some e =>
    refine ⟨h, ?_, fun _ => rfl, ?_, ?_⟩
    · intro hstrays
      cases hstrays.1
    · intro htakes
      cases htakes.1
    · intro reply hreply
      cases hreply
  | none =>
    cases send with
    | failed e reached =>
      dsimp only
      cases reached with
      | true =>
        refine ⟨ordered_deliver h request, ?_, ?_, ?_, ?_⟩
        · intro _
          exact ⟨rfl, List.length_append⟩
        · intro hkeeps
          exact absurd ⟨rfl, rfl⟩ hkeeps
        · intro htakes
          cases htakes.2.1
        · intro reply hreply
          cases hreply
      | false =>
        refine ⟨h, ?_, fun _ => rfl, ?_, ?_⟩
        · intro hstrays
          cases hstrays.2
        · intro htakes
          cases htakes.2.1
        · intro reply hreply
          cases hreply
    | sent => exact sent_spec h request moves

/-! ## Runs -/

/-- An answer that has been asked for has not been read. -/
def Behind (connection : Connection) : Prop := connection.read < connection.delivered.length

/-- A client that is behind stays behind. -/
theorem behind_step {call : Call} (h : connection.Ordered ∧ connection.Behind) :
    (connection.sendRequest call).1.Ordered ∧ (connection.sendRequest call).1.Behind := by
  have hspec := sendRequest_spec h.1 call
  have hbehind : connection.read < connection.delivered.length := h.2
  refine ⟨hspec.ordered, ?_⟩
  unfold Behind
  by_cases hstrays : connection.Strays call
  · obtain ⟨hread, hlength⟩ := hspec.strays hstrays
    omega
  · have hkeeps := hspec.keeps hstrays
    omega

/-- A call that gives up with its request delivered leaves the client behind. -/
theorem behind_of_strays {call : Call} (h : connection.Ordered) (hstrays : connection.Strays call) :
    (connection.sendRequest call).1.Ordered ∧ (connection.sendRequest call).1.Behind := by
  have hspec := sendRequest_spec h call
  obtain ⟨hread, hlength⟩ := hspec.strays hstrays
  have hle := Nat.le_trans h.read_le h.answered_le
  refine ⟨hspec.ordered, ?_⟩
  unfold Behind
  omega

/-- The order holds after any calls. -/
theorem ordered_after (calls : List Call) : (after sendRequest new calls).Ordered :=
  after_invariant Ordered (fun _ call h => (sendRequest_spec h call).ordered) ordered_new

/-- As long as no call strays, all answers have been read. -/
theorem read_all {calls : List Call}
    (h : ∀ earlier call later, calls = earlier ++ call :: later →
      ¬ (after sendRequest new earlier).Strays call) :
    (after sendRequest new calls).read = (after sendRequest new calls).delivered.length := by
  let settled (c : Connection) : Prop := c.Ordered ∧ c.read = c.delivered.length
  have hstep : ∀ (c : Connection) (call : Call), settled c → ¬ c.Strays call →
      settled (c.sendRequest call).1 := by
    intro c call hc hstrays
    have hspec := sendRequest_spec hc.1 call
    have hkeeps := hspec.keeps hstrays
    have hread := hc.2
    exact ⟨hspec.ordered, by omega⟩
  have hstart : settled new := ⟨ordered_new, rfl⟩
  exact (invariant_throughout settled hstep calls [] hstart (by simpa using h)).2

/-- For every sequence of calls on a connection, whatever fails in them, and any frames
that the daemon sends between its answers: each response that a call returns answers the
call's own request exactly if, once a call whose request has reached the daemon has taken
no text for it, no later call takes a response. -/
theorem answers_own_iff (calls : List Call) :
    (∀ earlier call later, calls = earlier ++ call :: later →
      (after sendRequest new earlier).AnswersOwn call) ↔
    ∀ earlier stray middle call later, calls = earlier ++ stray :: (middle ++ call :: later) →
      (after sendRequest new earlier).Strays stray →
      ¬ (after sendRequest new (earlier ++ stray :: middle)).TakesResponse call := by
  constructor
  · intro hown earlier stray middle call later heq hstrays htakes
    have hbehind : (after sendRequest new (earlier ++ stray :: middle)).Ordered ∧
        (after sendRequest new (earlier ++ stray :: middle)).Behind := by
      let strayed := ((after sendRequest new earlier).sendRequest stray).1
      rw [after_append]
      show (after sendRequest strayed middle).Ordered ∧ (after sendRequest strayed middle).Behind
      exact after_invariant (fun c : Connection => c.Ordered ∧ c.Behind)
        (fun _ _ h => behind_step h) (behind_of_strays (ordered_after earlier) hstrays)
    have hspec := sendRequest_spec hbehind.1 call
    obtain ⟨reply, hreply⟩ := hspec.takes htakes
    have hanswer := hown (earlier ++ stray :: middle) call later (by simp [heq]) reply hreply
    -- the response is an earlier answer than the one to this call
    have hread := (hspec.own reply hreply).2
    have hlate : (after sendRequest new (earlier ++ stray :: middle)).read <
        (after sendRequest new (earlier ++ stray :: middle)).delivered.length := hbehind.2
    rw [← hread, hanswer] at hlate
    exact absurd hlate (Nat.lt_irrefl _)
  · intro hstays earlier call later heq reply hreply
    have hspec := sendRequest_spec (ordered_after earlier) call
    obtain ⟨htakes, hanswer⟩ := hspec.own reply hreply
    rw [hanswer]
    refine read_all ?_
    intro before stray middle hearlier hstrays
    refine hstays before stray middle call later ?_ hstrays ?_
    · rw [heq, hearlier, List.append_assoc, List.cons_append]
    · rw [← hearlier]
      exact htakes

/-- A ping arrives before the answer to a `StopService`: the call fails, and the next one
is given that answer for its own. -/
theorem ping_shifts_answers : ¬ ∀ calls earlier call later, calls = earlier ++ call :: later →
    (after sendRequest new earlier).AnswersOwn call := by
  intro hown
  let api : Call := ⟨.stopService "api", none, .sent, [.other]⟩
  let web : Call := ⟨.stopService "web", none, .sent, [.answer (.ok .success)]⟩
  have hanswer := hown [api, web] [api] web [] rfl ⟨0, .success⟩ rfl
  cases hanswer

end Connection

end GraphHarness.DaemonClient
