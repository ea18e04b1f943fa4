/-
The deletion of recordings as a job of the recorder: it is submitted,
and then watched until the recorder says that it is complete.
-/
import VideoWall.Recorder.Client

namespace VideoWall.Recorder.DeletionJob

/-- Why no job was submitted: nothing was selected, or the recorder did
not take it. -/
inductive Refusal where
  | nothingSelected (warning : String)
  | failed (report : Report)
  deriving DecidableEq, Repr

/-- Submits a job for a selection: its name. -/
def submit (c : Client) (s : Selection) : Dialogue (Except Refusal String) := do
  match s.request with
  | .error warning => pure (.error (.nothingSelected warning))
  | .ok body => do
      match ← c.batchDelete body with
      | .ok job => pure (.ok job)
      | .error f => pure (.error (.failed (f.report.within "batch delete request failed")))

/-- What was seen of a job: the records so far, and how it ended. -/
structure Watched where
  records : List DeletionProgress
  ending : Except Report DeletionProgress

/-- Watches a job from record to record, `polls` of them at most, with
pauses between them. -/
def watch (c : Client) (job : String) (interval : Nat) : (polls : Nat) → Dialogue Watched
  | 0 => pure ⟨[], .error (.plain ("job " ++ job ++ " is still running"))⟩
  | polls + 1 => do
      match ← c.deletionProgress job with
      | .error f => pure ⟨[], .error (f.report.within ("failed reading progress of job " ++ job))⟩
      | .ok p =>
          if p.complete then pure ⟨[p], .ok p⟩
          else
            .pause interval do
              let w ← watch c job interval polls
              pure { w with records := p :: w.records }

end VideoWall.Recorder.DeletionJob
