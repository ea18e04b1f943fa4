/-
The dates that a refresh clock is set to.

# The law

A clock that begins is set a whole interval away, and that is the only thing
that a date is counted from (`History.date_begun`). A refresh that is made
sets the next one at most as far away, since it is made when it is due. So
no session ever holds a date that is further than an interval behind all
that has happened (`History.dates_run`).
-/
import VideoWall.Proofs.Player.RefreshClock

namespace VideoWall.Player

open Media

-- ============================================================== sessions

namespace Session

variable {cfg : Settings} {supply : Supply} {now t : Nat} {signal : Signal}
variable {x : Session} {e : Element} {m : Move}

/-- No refresh is due after some time. -/
def NotDueAfter (t : Nat) (x : Session) : Prop := ∀ due, x.refreshAt = some due → due ≤ t

/-- A refresh that is made in time is followed by one within an interval. -/
private theorem nextRefresh_le (cfg : Settings) {due : Nat} (hdue : due ≤ now) :
    nextRefresh cfg due now ≤ now + cfg.refreshInterval := by
  unfold nextRefresh
  split
  · exact Nat.le_refl _
  · omega

/-- A step keeps the date, or sets one within an interval. -/
theorem Lands.date_le (h : x.Lands cfg supply now e signal m) {due : Nat}
    (hdue : m.session.refreshAt = some due) :
    x.refreshAt = some due ∨ due ≤ now + cfg.refreshInterval := by
  rcases h.ticks.dated with hset | hanew
  · rw [hset] at hdue
    cases h with
    | refreshes _ hclock _ hmade | skips _ hclock _ hmade =>
        rw [clockFor_refreshDue hclock] at hdue
        cases hdue
        exact Or.inr (nextRefresh_le cfg hmade)
    | _ => exact Or.inl hdue
  · rw [hanew] at hdue
    cases hdue
    exact Or.inr (Nat.le_refl _)

/-- Dates that are set up to some time are not after an interval later. -/
theorem NotDueAfter.step (h : x.NotDueAfter (t + cfg.refreshInterval)) (ht : now ≤ t)
    (hlands : x.Lands cfg supply now e signal m) :
    m.session.NotDueAfter (t + cfg.refreshInterval) := by
  intro due hdue
  rcases hlands.date_le hdue with hold | hle
  · exact h due hold
  · omega

/-- A step leaves the range of the clock only where a whole interval from now
does. -/
theorem Lands.late (h : x.Lands cfg supply now e signal m) (htimed : x.InTime)
    (hlate : ¬ m.session.InTime) : ¬ Clock.IsInstant (now + cfg.refreshInterval) := by
  intro hinstant
  refine hlate fun due hdue => ?_
  rcases h.date_le hdue with hold | hle
  · exact htimed due hold
  · exact hinstant.of_le hle

end Session

-- =========================================================== histories

/-- Nothing happens after some time. -/
def Event.notAfter (t : Nat) : Event → Prop
  | .activity (.signal _ _ now _) => now ≤ t
  | _ => True

/-- A date is kept up to some time. -/
private theorem carried_notDueAfter (cfg : Settings) (t : Nat) :
    Carried errandNote cfg (Event.notAfter t)
      (fun _ x _ => x.NotDueAfter (t + cfg.refreshInterval)) where
  fresh _ _ _ _ := fun _ hdue => by cases hdue
  wish _ _ _ h := h
  write _ _ _ _ _ h := h
  step _ _ _ _ ht _ hlands _ h := h.step ht hlands

namespace History

variable {name : String} {supply : Supply} {now due t : Nat} {signal : Signal} {x : Session}

/-- The date that a signal makes the session of a stream set, when the session
comes to rest with a clock that begins, for the first time or anew. -/
def begun? (h : History) (name : String) (supply : Supply) (now : Nat) (signal : Signal) :
    Option Nat := do
  let x ← h.players.sessions.get? name
  let m ← x.step? h.players.settings supply now signal (h.players.element name)
  let clock := x.clockFor h.players.settings now signal
  if m.session.point = .resting ∧ (clock.2 = true ∨ clock.1 = none) then m.session.refreshAt
  else none

/-- A clock that begins is set a whole interval away. -/
theorem date_begun (settings : Settings) (supported : Bool) (events : List Event)
    (h : ((opened settings supported).run events).begun? name supply now signal = some due) :
    due = now + settings.refreshInterval := by
  have hsound := sound_run settings supported events
  have hsettings : ((opened settings supported).run events).players.settings = settings :=
    settings_run _ _
  generalize (opened settings supported).run events = h' at h hsound hsettings
  subst hsettings
  simp only [begun?, Option.bind_eq_bind, Option.bind_eq_some_iff] at h
  obtain ⟨x, hx, m, hstep, hdate⟩ := h
  have hrule := Session.step_of_step? hstep
  have hlands := ((hsound.players name).session x hx).lands hrule
  split at hdate
  case isTrue hbegins =>
    rw [hlands.ticks.anew hbegins.1 hbegins.2] at hdate
    exact (Option.some.inj hdate).symm
  case isFalse => cases hdate

/-- No date is further than an interval behind all that has happened. -/
theorem dates_run (settings : Settings) (supported : Bool) {events : List Event}
    (hevents : ∀ event ∈ events, event.notAfter t)
    (hx : ((opened settings supported).run events).players.sessions.get? name = some x)
    (hdue : x.refreshAt = some due) : due ≤ t + settings.refreshInterval :=
  (carried_notDueAfter settings t).opened supported events hevents name x hx due hdue

end History

end VideoWall.Player
