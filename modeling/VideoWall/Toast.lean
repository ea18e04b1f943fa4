/-
Short notices to the user. On the live screen they are toasts: the
newest few are kept, and each one is shown for a while.
-/
namespace VideoWall

/-- How grave a notice is. -/
inductive Severity where
  | info
  | success
  | warning
  | error
  deriving DecidableEq, Repr, Inhabited

/-- The short name of a severity. -/
def Severity.tag : Severity → String
  | .info => "info"
  | .success => "ok"
  | .warning => "warn"
  | .error => "error"

/-- A notice, and when it was given, in milliseconds. -/
structure Toast where
  severity : Severity
  message : String
  created : Nat
  deriving DecidableEq, Repr

/-- The toasts that are kept, oldest first. -/
structure Toasts where
  lifetime : Nat := 4000
  queue : List Toast := []
  deriving DecidableEq, Repr, Inhabited

namespace Toasts

/-- The most toasts that are kept. -/
def capacity : Nat := 5

/-- The last `n` items of a list. -/
def newest {α : Type} (n : Nat) (l : List α) : List α := l.drop (l.length - n)

/-- Adds a toast. The oldest ones make room. -/
def push (t : Toasts) (toast : Toast) : Toasts :=
  { t with queue := newest capacity (t.queue ++ [toast]) }

/-- Whether a toast is still shown. One from the future is. -/
def isLive (t : Toasts) (now : Nat) (toast : Toast) : Bool := now - toast.created < t.lifetime

/-- Drops the toasts that are no longer shown; those that are left are
the ones to show. -/
def visibleAt (t : Toasts) (now : Nat) : Toasts := { t with queue := t.queue.filter (t.isLive now) }

end Toasts

end VideoWall
