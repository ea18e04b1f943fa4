/-
What can go wrong between the wall and the recorder. A failure names the
address it is about; a failure of the connection or of the answer's form
also has causes, the nearest first.
-/
import VideoWall.Report

namespace VideoWall.Recorder

/-- Why a request had no answer: nobody could be reached, the connection
broke off, or the address is none that requests go to. -/
inductive Disruption where
  | unreachable
  | dropped
  | wrongScheme
  deriving DecidableEq, Repr

/-- What is said about a request to an address that had no answer. -/
def Disruption.causes (address : String) : Disruption → List String
  | .unreachable =>
      ["error sending request for url (" ++ address ++ ")", "client error (Connect)",
        "tcp connect error", "Network is unreachable (os error 101)"]
  | .dropped =>
      ["error sending request for url (" ++ address ++ ")", "client error (SendRequest)",
        "connection closed before message completed"]
  | .wrongScheme =>
      ["builder error for url (" ++ address ++ ")", "URL scheme is not allowed"]

/-- A failed request. Where a request had no answer, `sent` is the
address without credentials. -/
inductive Failure where
  | invalidBase (text : String)
  | network (url sent : String) (disruption : Disruption)
  | timeout (url : String)
  | status (url : String) (code : Nat)
  | decode (url : String) (category : Json.Category) (cause : String)
  deriving DecidableEq, Repr

namespace Failure

/-- What led to a failure, the nearest cause last. -/
def causes : Failure → List String
  | .network _ sent disruption => disruption.causes sent
  | .decode _ _ cause => ["error decoding response body", cause]
  | _ => []

/-- What is said about a failure, which includes its nearest cause. -/
def message (f : Failure) : String :=
  let nearest := f.causes.headD ""
  match f with
  | .invalidBase text => "invalid server URL '" ++ text ++ "'"
  | .network url _ _ => "request to " ++ url ++ " failed: " ++ nearest
  | .timeout url => "request to " ++ url ++ " timed out"
  | .status url code => url ++ " returned HTTP " ++ toString code
  | .decode url _ _ => "failed decoding response from " ++ url ++ ": " ++ nearest

/-- A failure with its causes, and whether it is about JSON. -/
def report (f : Failure) : Report where
  chain := f.message :: f.causes
  category := match f with
    | .decode _ category _ => some category
    | _ => none

/-- Whether other credentials could help. -/
def isUnauthorized : Failure → Bool
  | .status _ code => code = 401 || code = 403
  | _ => false

end Failure

end VideoWall.Recorder
