/-
What the wall says to a recorder, as data. A dialogue asks a request and
goes on with the answer, or lets time pass, or is done with a result.
Nothing is sent here: whoever has a recorder at hand runs the dialogue,
and whoever reasons about it looks at the requests it asks.
-/
import VideoWall.Recorder.Failure
import VideoWall.Text.Base64
import VideoWall.Url.Edit

namespace VideoWall.Recorder

-- ========================================================== requests

/-- The methods in use. -/
inductive Method where
  | get
  | post
  deriving DecidableEq, Repr

/-- A method as a request line has it. -/
def Method.name : Method → String
  | .get => "GET"
  | .post => "POST"

/-- A user name and a password. -/
structure Login where
  username : String
  password : String
  deriving DecidableEq, Repr

/-- A request. The address holds no credentials; they are the login.
The answer is waited for as long as `timeout` says, in milliseconds. -/
structure Request where
  method : Method
  url : Url
  login : Option Login := none
  body : Option String := none
  timeout : Nat
  deriving DecidableEq

/-- The value of the header that authorizes a request. -/
def Login.header (l : Login) : String :=
  "Basic " ++ String.ofList
    (Text.Base64.encode (Text.Utf8.encode (l.username.toList ++ ':' :: l.password.toList)))

/-- The method and the target, as the first line of a request has them. -/
def Request.line (r : Request) : String := r.method.name ++ " " ++ r.url.target

/-- What comes back: an answer, nothing in time, or nothing at all. -/
inductive Answer where
  | reply (status : Nat) (body : List UInt8)
  | late
  | disrupted (d : Disruption)
  deriving DecidableEq, Repr

-- ========================================================= dialogues

/-- A dialogue with a result. Pauses are in milliseconds. -/
inductive Dialogue (α : Type) where
  | done (a : α)
  | ask (request : Request) (next : Answer → Dialogue α)
  | pause (duration : Nat) (next : Dialogue α)

namespace Dialogue

variable {α β σ : Type}

/-- Goes on with another dialogue. -/
def andThen : Dialogue α → (α → Dialogue β) → Dialogue β
  | done a, f => f a
  | ask request next, f => ask request fun answer => (next answer).andThen f
  | pause duration next, f => pause duration (next.andThen f)

instance : Monad Dialogue where
  pure := done
  bind := andThen

/-- Runs a dialogue against someone who answers and remembers. -/
def run (answer : σ → Request → Answer × σ) : Dialogue α → σ → α × σ
  | done a, s => (a, s)
  | ask request next, s =>
      let (a, s) := answer s request
      (next a).run answer s
  | pause _ next, s => next.run answer s

end Dialogue

end VideoWall.Recorder
