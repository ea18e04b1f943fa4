/-
The media element of a stream: one source at a time, the latest frame,
whether it plays, and what lies over it.

Many hands write to an element: the session that owns it, the engine it
plays with, and the decoder behind that, any of which may be late. So
every effective change of source starts a new epoch, every write carries
the epoch it was made for, and a write for another epoch than the
current one is refused and changes nothing. A refresh of the source is a
new epoch too, but keeps the last frame on screen until the new epoch
has one of its own.
-/
import VideoWall.Media.Frame
import VideoWall.Url.Basic

namespace VideoWall.Media

/-- What lies over the video of a tile. -/
inductive TileOverlay where
  | none
  | error (message : String)
  | playPrompt
  deriving DecidableEq, Repr, Inhabited

/-- A media element. -/
structure Element where
  source : Option Url := .none
  epoch : Nat := 0
  frame : Option Frame := .none
  frameSeq : Nat := 0
  playing : Bool := false
  muted : Bool := false
  overlay : TileOverlay := .none
  status : String := "idle"
  deriving DecidableEq, Inhabited

namespace Element

/-- An element on which nothing has happened. -/
def idle : Element := {}

-- ========================================================== sources

/-- Points the element at a source and blanks it. -/
def setSource (e : Element) (url : Url) : Element :=
  { e with
    epoch := e.epoch + 1, source := some url, frame := none, playing := false,
    overlay := .none, status := "connecting" }

/-- Re-issues the source; the last frame stays. -/
def refreshSource (e : Element) (url : Url) : Element :=
  { e with epoch := e.epoch + 1, source := some url }

/-- Whether an element shows nothing and plays nothing. -/
def isDetached (e : Element) : Bool :=
  e.source.isNone && e.frame.isNone && e.overlay = .none && !e.playing

/-- Drops the source, the frame and the overlay. An element without any
of them is left alone. -/
def detach (e : Element) : Element :=
  if e.isDetached then e
  else
    { e with
      epoch := e.epoch + 1, source := none, frame := none, playing := false,
      overlay := .none, status := "idle" }

-- =========================================================== writes

/-- A write for an epoch. -/
inductive Write where
  | playing (muted : Bool)
  | error (message : String)
  | playPrompt
  | status (text : String)
  | frame (width height : Nat) (rgb : Array UInt8)
  deriving DecidableEq

/-- Whether the element takes a write for `epoch`. A frame needs a source
to belong to. -/
def accepts (e : Element) (epoch : Nat) : Write → Bool
  | .frame _ _ _ => e.epoch = epoch && e.source.isSome
  | _ => e.epoch = epoch

/-- What an accepted write changes. -/
def apply (e : Element) : Write → Element
  | .playing muted =>
      { e with playing := true, muted, overlay := .none, status := "playing" }
  | .error message =>
      { e with playing := false, overlay := .error message, status := message }
  | .playPrompt =>
      { e with playing := false, overlay := .playPrompt, status := "waiting for play" }
  | .status text => { e with status := text }
  | .frame width height rgb =>
      let seq := e.frameSeq + 1
      { e with frameSeq := seq, frame := some ⟨width, height, seq, e.epoch, rgb⟩ }

/-- Writes for an epoch: the new element, unchanged if the write was
refused, and whether it was accepted. -/
def write (e : Element) (epoch : Nat) (w : Write) : Element × Bool :=
  if e.accepts epoch w then (e.apply w, true) else (e, false)

/-- The element after a write, accepted or not. -/
def after (e : Element) (epoch : Nat) (w : Write) : Element := (e.write epoch w).1

-- ============================================================ views

/-- The size of the picture that is shown. -/
def native? (e : Element) : Option (Nat × Nat) := e.frame.map fun f => (f.width, f.height)

end Element

-- ==================================================== waiting for video

/-- What one look at an element tells somebody who waits for a frame of
`epoch`: it has one, it has moved on, or he has to wait. -/
inductive FrameCheck where
  | arrived
  | superseded
  | waiting
  deriving DecidableEq, Repr

/-- Looks once. -/
def Element.checkFrame (e : Element) (epoch : Nat) : FrameCheck :=
  if e.epoch ≠ epoch then .superseded
  else if e.frame.any (·.epoch = epoch) then .arrived
  else .waiting

/-- Somebody who waits for a frame. He subscribed when `seen` frames had
been announced, so an announcement after that wakes him even when it
came before he began to wait. -/
structure FrameWait where
  epoch : Nat
  deadline : Nat
  seen : Nat
  deriving DecidableEq, Repr

namespace FrameWait

/-- Whether something was announced that has not been seen. -/
def notified (w : FrameWait) (announced : Nat) : Bool := w.seen ≠ announced

/-- Looks at the element when there is reason to: the answer, or the
waiter as he goes on waiting. -/
def check (w : FrameWait) (e : Element) (announced : Nat) : FrameWait ⊕ Bool :=
  match e.checkFrame w.epoch with
  | .arrived => .inr true
  | .superseded => .inr false
  | .waiting => .inl { w with seen := announced }

/-- One round of waiting at time `now`: announcements come before the
deadline, and at the deadline the answer is no. -/
def poll (w : FrameWait) (now : Nat) (e : Element) (announced : Nat) : FrameWait ⊕ Bool :=
  let next := if w.notified announced then w.check e announced else .inl w
  match next with
  | .inr answer => .inr answer
  | .inl w => if w.deadline ≤ now then .inr false else .inl w

/-- Starts to wait: subscribes, and looks once. -/
def start (epoch deadline : Nat) (e : Element) (announced : Nat) : FrameWait ⊕ Bool :=
  check ⟨epoch, deadline, announced⟩ e announced

end FrameWait

end VideoWall.Media
