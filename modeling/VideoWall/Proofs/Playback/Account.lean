/-
What a loop does while it plays a stream, and what comes of it.

# Acts

A loop asks for something or waits at each of its points
(`FetchLoop.arrival`), hears what the outside gives, and finds out what
has come of a segment or of a playlist (`FetchLoop.outcomes`): a segment
is finished, or something fails. `FetchLoop.account` is the list of all
this in a whole run. The outcomes are told from what the outside gave,
not from the count of failures that the loop keeps.

# Moods

`Mood` is what matters of a loop for what it may do next: how many
failures there have been since the last segment that was finished, and
whether the loop is free to act, is kept waiting, has just failed, or is
about to leave. `Mood.Goes` are the rules. The mood of a loop where it
waits is `FetchLoop.mood`, and the account of a run is a walk from mood to
mood (`FetchLoop.walk_account`), if no wait is too long for a clock: those
that playlists ask for (`Media.Measured`) and the pauses after failures
(`PausesFit`).
-/
import VideoWall.Proofs.Playback.Incidents
import VideoWall.Proofs.Playlist.Clock
import VideoWall.Proofs.Walks

-- =============================================================== measures

namespace VideoWall.Playlist

open Numeral

/-- A number of seconds that a playlist may reasonably give. -/
def Timely (x : Float) : Prop := x.isFinite = true ∧ x < 1000000000

/-- A segment whose duration a clock can hold, and after whose number another
one comes. -/
structure Segment.Measured (s : Segment) : Prop where
  duration : Timely s.duration
  sequence : s.sequence < maxWord64

/-- A playlist whose durations a clock can hold. -/
structure Media.Measured (p : Media) : Prop where
  target : Timely p.targetDuration
  segments : ∀ s ∈ p.segments, s.Measured

variable {p : Media} {s : Segment} {x : Float}

/-- A time that is waited for is a number. -/
private theorem Timely.isNaN (h : Timely x) : x.isNaN = false := by
  have hfinite : (parts x).isFinite = true := h.1
  rw [isNaN_eq]
  cases hparts : parts x with
  | notANumber =>
      rw [hparts] at hfinite
      cases hfinite
  | infinity s | zero s | finite s m e hm => rfl

/-- What is timely is far below the longest duration. -/
private theorem Timely.lt_maxSeconds (h : Timely x) : x < doubleOfNat maxSeconds := by
  have hbillion : height 1000000000 = .at 1000000000 := by
    have hparts : parts 1000000000
        = .finite .positive (1000000000 * 2 ^ 23) (-23) (by decide) := rfl
    rw [height_of_parts hparts]
    unfold value
    norm_num
  have hbelow := (lt_positive_iff hbillion).1 h.2
  rw [lt_positive_iff height_maxSeconds]
  cases hheight : height x with
  | nowhere | top =>
      rw [hheight] at hbelow
      exact hbelow.elim
  | low => exact trivial
  | «at» v =>
      rw [hheight] at hbelow
      exact lt_trans hbelow (by norm_num)

/-- A measured playlist has an interval between its reloads. -/
private theorem Media.Measured.reloadInterval? (h : p.Measured) :
    ∃ d, p.reloadInterval? = some d := by
  obtain ⟨d, hd, -, -⟩ := Media.reloadInterval?_of_number h.target.isNaN
  exact ⟨d, hd⟩

/-- A measured segment spaces its units. -/
private theorem Segment.Measured.spacing? (h : s.Measured) {n : Nat} (hn : 1 ≤ n) :
    ∃ d, s.spacing? n = some d :=
  Option.isSome_iff_exists.1
    (s.spacing?_isSome_iff.2 (Or.inr h.duration.lt_maxSeconds) n hn)

end VideoWall.Playlist

namespace VideoWall.Playback

open Playlist Recorder Transport

-- =================================================================== acts

/-- What a loop does, hears and finds out. -/
inductive Act where
  | asks (address : Url)
  | decodes (unit : AccessUnit)
  | waits (duration : Nat)
  | hears (g : Given)
  | finishes (number : Nat)
  | fails (t : Trouble)
  | reports (r : Report)
  | stops
  | crashes

/-- Every playlist that the outside gives is measured, and its segments can
be numbered. -/
def Given.Measured : Given → Prop
  | .playlist (.ok text) =>
      parse text ≠ .error .sequenceOverflow ∧ ∀ p, parse text = .ok (.media p) → p.Measured
  | _ => True

/-- Whether the outside ends the loop: it is cancelled, or the decoder is gone
since the element has moved on. -/
def Given.ends : Given → Bool
  | .cancelled | .taken (.gone true) => true
  | _ => false

namespace FetchLoop

variable {cfg : FetchSettings} {l : FetchLoop} {s : Segment} {left : List Segment} {g : Given}

/-- What a loop does where it comes to wait. -/
def arrival (l : FetchLoop) : Act :=
  match l.point with
  | .fetching _ address _ => .asks address
  | .feeding _ _ unit _ _ => .decodes unit
  | .spacing _ duration _ _ => .waits duration
  | .pausing duration _ => .waits duration
  | .reloading => .asks l.address
  | .crashed => .crashes
  | .ended none => .stops
  | .ended (some r) => .reports r

/-- Whether a loop waits for what the outside gives. -/
def heeds (l : FetchLoop) (g : Given) : Bool :=
  match l.point, g with
  | .ended _, _ | .crashed, _ => false
  | _, .cancelled => true
  | .fetching .., .segment _ | .feeding .., .taken _ | .spacing .., .timePassed
  | .pausing .., .timePassed | .reloading, .playlist _ => true
  | _, _ => false

/-- To go on with a round fails at once if the segment ahead has no address. -/
def begun (l : FetchLoop) (left : List Segment) : List Act :=
  match l.ahead left with
  | [] => []
  | s :: _ =>
      match Url.join l.address s.uri.toList with
      | .ok _ => []
      | .error cause => [.fails (.segmentAddress s.uri cause)]

/-- A segment is through, and the round goes on. -/
def through (l : FetchLoop) (s : Segment) (left : List Segment) : List Act :=
  .finishes s.sequence :: { l with next := some (s.sequence + 1) }.begun left

/-- What comes of the bytes of a segment. -/
def got (l : FetchLoop) (s : Segment) (left : List Segment)
    (bytes : Except Failure (List UInt8)) : List Act :=
  match bytes with
  | .error f => [.fails (.segmentFetch s.sequence f)]
  | .ok bytes =>
      match demux bytes with
      | .error e => [.fails (.segmentData e)]
      | .ok [] => l.through s left
      | .ok (_ :: _) => []

/-- What comes of reading the playlist again. -/
def reread (l : FetchLoop) (text : Except Failure (List Char)) : List Act :=
  match text with
  | .error f => [.fails (.reload f)]
  | .ok text =>
      match parse text with
      | .error e => [.fails (.playlist e)]
      | .ok (.master _) => [.fails .becameMaster]
      | .ok (.media p) => { l with playlist := p, next := nextIn l.next p }.begun p.segments

/-- What comes of what the outside gives. -/
def outcomes (l : FetchLoop) (g : Given) : List Act :=
  match l.point, g with
  | .fetching s _ left, .segment bytes => l.got s left bytes
  | .feeding .., .taken (.gone false) => [.fails .decoderGone]
  | .spacing s _ [] left, .timePassed => l.through s left
  | .pausing _ .round, .timePassed => l.begun l.playlist.segments
  | .reloading, .playlist text => l.reread text
  | _, _ => []

/-- What happens when the outside gives something. -/
def acts (cfg : FetchSettings) (l : FetchLoop) (g : Given) : List Act :=
  if l.heeds g then .hears g :: (l.outcomes g ++ [(l.step cfg g).arrival]) else []

/-- What happens from a loop on. -/
def actsOf (cfg : FetchSettings) (l : FetchLoop) : List Given → List Act
  | [] => []
  | g :: later => l.acts cfg g ++ (l.step cfg g).actsOf cfg later

/-- The loop after all that the outside gives. -/
def after (cfg : FetchSettings) (l : FetchLoop) (given : List Given) : FetchLoop :=
  given.foldl (step cfg) l

/-- A loop that is about to go through its first playlist. -/
def fresh (address : Url) (p : Media) : FetchLoop := { address, playlist := p, next := p.liveEdge? }

/-- What happens in a whole run. -/
def account (cfg : FetchSettings) (address : Url) (initial : Media) (given : List Given) :
    List Act :=
  (fresh address initial).begun initial.segments
    ++ (start cfg address initial).arrival :: (start cfg address initial).actsOf cfg given

end FetchLoop

-- ================================================================== moods

/-- How a loop is disposed, with its failures since a segment was finished. -/
inductive Mood where
  | free (failures : Nat)
  | asking (failures : Nat)
  | timed (failures : Nat)
  | failed (failures : Nat) (t : Trouble)
  | leaving (failures : Nat)
  | over (failures : Nat)

/-- The pauses that come before the budget is spent are durations. -/
def PausesFit (cfg : FetchSettings) : Prop :=
  ∀ k, 1 ≤ k → k < cfg.maxFailures → FetchLoop.pauseAfter cfg k < maxSeconds * 1000000000

namespace Mood

/-- What may happen in each mood, and the mood after it. -/
inductive Goes (cfg : FetchSettings) : Mood → Act → Mood → Prop where
  | asks (k : Nat) (address : Url) : Goes cfg (.free k) (.asks address) (.asking k)
  | decodes (k : Nat) (unit : AccessUnit) : Goes cfg (.free k) (.decodes unit) (.asking k)
  | waits (k duration : Nat) : Goes cfg (.free k) (.waits duration) (.timed k)
  | finishes (k number : Nat) : Goes cfg (.free k) (.finishes number) (.free 0)
  | fails (k : Nat) (t : Trouble) : Goes cfg (.free k) (.fails t) (.failed (k + 1) t)
  | pauses {k : Nat} (t : Trouble) (hk : k < cfg.maxFailures) :
      Goes cfg (.failed k t) (.waits (FetchLoop.pauseAfter cfg k)) (.timed k)
  | reports {k : Nat} (t : Trouble) (hk : cfg.maxFailures ≤ k) :
      Goes cfg (.failed k t) (.reports t.report) (.over k)
  | answered (k : Nat) {g : Given} (hg : g.ends = false) :
      Goes cfg (.asking k) (.hears g) (.free k)
  | timePassed (k : Nat) : Goes cfg (.timed k) (.hears .timePassed) (.free k)
  | dismissed (k : Nat) {g : Given} (hg : g.ends = true) :
      Goes cfg (.asking k) (.hears g) (.leaving k)
  | cancelled (k : Nat) : Goes cfg (.timed k) (.hears .cancelled) (.leaving k)
  | stops (k : Nat) : Goes cfg (.leaving k) .stops (.over k)

end Mood

namespace FetchLoop

variable {cfg : FetchSettings} {l : FetchLoop} {s : Segment} {left : List Segment} {g : Given}

/-- The mood of a loop where it waits. -/
def mood (l : FetchLoop) : Mood :=
  match l.point with
  | .fetching .. | .feeding .. | .reloading => .asking l.failures
  | .spacing .. | .pausing .. => .timed l.failures
  | .crashed | .ended _ => .over l.failures

/-- All that a loop has of playlists is measured, and it has not crashed. -/
structure Fit (l : FetchLoop) : Prop where
  playlist : l.playlist.Measured
  work : ∀ s left, l.point.work? = some (s, left) → s.Measured ∧ ∀ r ∈ left, r.Measured
  whole : l.point ≠ .crashed

/-- A walk of a loop from a mood to where it waits next. -/
def Comes (cfg : FetchSettings) (a : Mood) (t : List Act) (l : FetchLoop) : Prop :=
  Walk (Mood.Goes cfg) a (t ++ [l.arrival]) l.mood ∧ l.Fit

-- ------------------------------------------------------ between segments

/-- A loop that rests has done nothing further. -/
private theorem comes_rest (cfg : FetchSettings) (h : l.playlist.Measured) :
    Comes cfg (.free l.failures) [] l.rest := by
  obtain ⟨d, hd⟩ := h.reloadInterval?
  unfold rest
  rw [hd]
  exact ⟨.single (.waits _ d), h, nofun, nofun⟩

/-- A failure is followed by its pause, or by the end. -/
theorem comes_fail (hpauses : PausesFit cfg) (h : l.playlist.Measured) (t : Trouble)
    (next : AfterPause) : Comes cfg (.free l.failures) [.fails t] (l.fail cfg t next) := by
  unfold fail
  dsimp only
  by_cases hspent : cfg.maxFailures ≤ l.failures + 1
  · rw [if_pos hspent]
    exact ⟨.step (.fails _ t) (.single (.reports t hspent)), h, nofun, nofun⟩
  · rw [if_neg hspent, if_pos (hpauses _ (by omega) (by omega))]
    exact ⟨.step (.fails _ t) (.single (.pauses t (by omega))), h, nofun, nofun⟩

/-- What a loop tells when it plays its segments comes from the mood it is in.
-/
theorem comes_begun (hpauses : PausesFit cfg) (h : l.playlist.Measured)
    (hleft : ∀ r ∈ left, r.Measured) :
    Comes cfg (.free l.failures) (l.begun left) (l.play cfg left) := by
  rw [play_eq]
  unfold begun
  cases hahead : l.ahead left with
  | nil => exact comes_rest cfg h
  | cons s rest =>
      have hsub : ∀ r ∈ s :: rest, r.Measured := by
        intro r hr
        rw [← hahead] at hr
        unfold ahead at hr
        split at hr
        · cases hr
        · exact hleft r ((List.dropWhile_sublist _).subset hr)
      unfold tries
      dsimp only
      cases Url.join l.address s.uri.toList with
      | error cause => exact comes_fail hpauses h _ _
      | ok address =>
          refine ⟨.single (.asks _ address), h, ?_, nofun⟩
          rintro s' left' ⟨⟩
          exact ⟨hsub s List.mem_cons_self, fun r hr => hsub r (List.mem_cons_of_mem s hr)⟩

/-- A segment that is finished sets the count back. -/
theorem comes_through (hpauses : PausesFit cfg) (h : l.playlist.Measured)
    (hleft : ∀ r ∈ left, r.Measured) (k : Nat) :
    Comes cfg (.free k) (l.through s left) (l.played cfg s left) := by
  obtain ⟨hwalk, hfit⟩ := comes_begun (l := { l with failures := 0, next := some (s.sequence + 1) })
    hpauses h hleft
  exact ⟨.step (.finishes k _) hwalk, hfit⟩

-- ----------------------------------------------------------- at a segment

/-- What a loop tells of a fetched segment comes from the mood it is in. -/
private theorem comes_got (hpauses : PausesFit cfg) (h : l.playlist.Measured) (hs : s.Measured)
    (hleft : ∀ r ∈ left, r.Measured) (bytes : Except Failure (List UInt8)) :
    Comes cfg (.free l.failures) (l.got s left bytes) (l.takeSegment cfg s left bytes) := by
  unfold got takeSegment
  cases bytes with
  | error f => exact comes_fail hpauses h _ _
  | ok bytes =>
      dsimp only
      cases demux bytes with
      | error e => exact comes_fail hpauses h _ _
      | ok units =>
          cases units with
          | nil => exact comes_through hpauses h hleft _
          | cons u units =>
              obtain ⟨d, hd⟩ := hs.spacing? (n := (u :: units).length) (Nat.succ_pos _)
              dsimp only
              rw [hd]
              refine ⟨.single (.decodes _ u), h, ?_, nofun⟩
              rintro s' left' ⟨⟩
              exact ⟨hs, hleft⟩

/-- What a loop tells of a playlist read again comes from the mood it is in. -/
private theorem comes_reread (hpauses : PausesFit cfg) (h : l.playlist.Measured)
    (text : Except Failure (List Char)) (hg : (Given.playlist text).Measured) :
    Comes cfg (.free l.failures) (l.reread text) (l.takePlaylist cfg text) := by
  unfold reread takePlaylist
  cases text with
  | error f => exact comes_fail hpauses h _ _
  | ok text =>
      dsimp only
      cases hparse : parse text with
      | error e => exact comes_fail hpauses h _ _
      | ok playlist =>
          cases playlist with
          | master variants => exact comes_fail hpauses h _ _
          | media p =>
              have hp := hg.2 p hparse
              exact comes_begun (l := { l with playlist := p, next := nextIn l.next p })
                hpauses hp hp.segments

-- ------------------------------------------------------------------- runs

/-- What a loop does not heed leaves it as it is. -/
theorem step_of_not_heeds (h : l.heeds g = false) : l.step cfg g = l := by
  unfold heeds at h
  unfold step
  cases hpoint : l.point with
  | ended fatal | crashed => rfl
  | pausing duration next =>
      rw [hpoint] at h
      cases next with
      | reload | round => cases g <;> first | rfl | cases h
  | fetching s address left | feeding s d u units left | spacing s d units left | reloading =>
      rw [hpoint] at h
      cases g <;> first | rfl | cases h

/-- What happens in a step is a walk to where the loop waits then. -/
def Follows (cfg : FetchSettings) (l : FetchLoop) (g : Given) : Prop :=
  Walk (Mood.Goes cfg) l.mood (l.acts cfg g) (l.step cfg g).mood ∧ (l.step cfg g).Fit

theorem follows_ignored (h : l.Fit) (hheeds : l.heeds g = false) : Follows cfg l g := by
  unfold Follows acts
  rw [hheeds, step_of_not_heeds hheeds]
  exact ⟨.stay _, h⟩

/-- A loop that heeds an answer goes where its mood goes upon hearing it. -/
theorem follows_heard (hheeds : l.heeds g = true) {a b : Mood} (hmood : l.mood = a)
    (hgoes : Mood.Goes cfg a (.hears g) b) (hcomes : Comes cfg b (l.outcomes g) (l.step cfg g)) :
    Follows cfg l g := by
  unfold Follows acts
  rw [if_pos hheeds, hmood]
  exact ⟨.step hgoes hcomes.1, hcomes.2⟩

/-- A cancellation finds nothing out. -/
theorem outcomes_cancelled (l : FetchLoop) : l.outcomes .cancelled = [] := by
  unfold outcomes
  cases l.point with
  | spacing s d units left =>
      cases units with
      | nil => rfl
      | cons u units => rfl
  | pausing d next =>
      cases next with
      | reload => rfl
      | round => rfl
  | _ => rfl

/-- A loop that is told to end does so at once. -/
theorem follows_ended (hheeds : l.heeds g = true) {a : Mood} (hmood : l.mood = a)
    (hgoes : Mood.Goes cfg a (.hears g) (.leaving l.failures)) (houtcomes : l.outcomes g = [])
    (hstep : l.step cfg g = { l with point := .ended none }) (h : l.Fit) : Follows cfg l g := by
  refine follows_heard hheeds hmood hgoes ?_
  rw [houtcomes, hstep]
  exact ⟨.single (.stops _), h.playlist, nofun, nofun⟩

/-- The loop waits for the bytes of a segment. -/
theorem follows_fetching (hpauses : PausesFit cfg) (h : l.Fit) {address : Url}
    (hpoint : l.point = .fetching s address left) (g : Given) : Follows cfg l g := by
  have hmood : l.mood = .asking l.failures := by unfold mood; rw [hpoint]
  have hwork := h.work s left (by rw [hpoint]; rfl)
  cases g with
  | segment bytes =>
      refine follows_heard (by unfold heeds; rw [hpoint]) hmood (.answered _ rfl) ?_
      unfold outcomes step
      rw [hpoint]
      exact comes_got hpauses h.playlist hwork.1 hwork.2 bytes
  | cancelled =>
      exact follows_ended (by unfold heeds; rw [hpoint]) hmood (.dismissed _ rfl)
        (outcomes_cancelled l) (by unfold step; rw [hpoint]) h
  | _ => exact follows_ignored h (by unfold heeds; rw [hpoint])

/-- The loop waits for the decoder. -/
theorem follows_feeding (hpauses : PausesFit cfg) (h : l.Fit) {spacing : Nat} {u : AccessUnit}
    {units : List AccessUnit} (hpoint : l.point = .feeding s spacing u units left) (g : Given) :
    Follows cfg l g := by
  have hmood : l.mood = .asking l.failures := by unfold mood; rw [hpoint]
  have hwork := h.work s left (by rw [hpoint]; rfl)
  cases g with
  | taken t =>
      rcases t with _ | _ | _
      · refine follows_heard (by unfold heeds; rw [hpoint]) hmood (.answered _ rfl) ?_
        unfold outcomes step
        rw [hpoint]
        refine ⟨.single (.waits _ spacing), h.playlist, ?_, nofun⟩
        rintro s' left' ⟨⟩
        exact hwork
      · refine follows_heard (by unfold heeds; rw [hpoint]) hmood (.answered _ rfl) ?_
        unfold outcomes step
        rw [hpoint]
        exact comes_fail hpauses h.playlist _ _
      · exact follows_ended (by unfold heeds; rw [hpoint]) hmood (.dismissed _ rfl)
          (by unfold outcomes; rw [hpoint]) (by unfold step; rw [hpoint]) h
  | cancelled =>
      exact follows_ended (by unfold heeds; rw [hpoint]) hmood (.dismissed _ rfl)
        (outcomes_cancelled l) (by unfold step; rw [hpoint]) h
  | _ => exact follows_ignored h (by unfold heeds; rw [hpoint])

/-- The loop waits between two units of a segment, or after the last. -/
theorem follows_spacing (hpauses : PausesFit cfg) (h : l.Fit) {spacing : Nat}
    {units : List AccessUnit} (hpoint : l.point = .spacing s spacing units left) (g : Given) :
    Follows cfg l g := by
  have hmood : l.mood = .timed l.failures := by unfold mood; rw [hpoint]
  have hwork := h.work s left (by rw [hpoint]; rfl)
  cases g with
  | timePassed =>
      refine follows_heard (by unfold heeds; rw [hpoint]) hmood (.timePassed _) ?_
      unfold outcomes step feed
      rw [hpoint]
      cases units with
      | nil => exact comes_through hpauses h.playlist hwork.2 _
      | cons u units =>
          refine ⟨.single (.decodes _ u), h.playlist, ?_, nofun⟩
          rintro s' left' ⟨⟩
          exact hwork
  | cancelled =>
      exact follows_ended (by unfold heeds; rw [hpoint]) hmood (.cancelled _)
        (outcomes_cancelled l) (by unfold step; rw [hpoint]) h
  | _ => exact follows_ignored h (by unfold heeds; rw [hpoint])

/-- The loop pauses between rounds. -/
theorem follows_pausing (hpauses : PausesFit cfg) (h : l.Fit) {duration : Nat} {next : AfterPause}
    (hpoint : l.point = .pausing duration next) (g : Given) : Follows cfg l g := by
  have hmood : l.mood = .timed l.failures := by unfold mood; rw [hpoint]
  cases g with
  | timePassed =>
      refine follows_heard (by unfold heeds; rw [hpoint]) hmood (.timePassed _) ?_
      unfold outcomes step
      rw [hpoint]
      cases next with
      | reload => exact ⟨.single (.asks _ l.address), h.playlist, nofun, nofun⟩
      | round => exact comes_begun hpauses h.playlist h.playlist.segments
  | cancelled =>
      exact follows_ended (by unfold heeds; rw [hpoint]) hmood (.cancelled _)
        (outcomes_cancelled l) (by unfold step; rw [hpoint]) h
  | _ => exact follows_ignored h (by unfold heeds; rw [hpoint])

/-- The loop waits for the playlist. -/
theorem follows_reloading (hpauses : PausesFit cfg) (h : l.Fit) (hpoint : l.point = .reloading)
    (g : Given) (hg : g.Measured) : Follows cfg l g := by
  have hmood : l.mood = .asking l.failures := by unfold mood; rw [hpoint]
  cases g with
  | playlist text =>
      refine follows_heard (by unfold heeds; rw [hpoint]) hmood (.answered _ rfl) ?_
      unfold outcomes step
      rw [hpoint]
      exact comes_reread hpauses h.playlist text hg
  | cancelled =>
      exact follows_ended (by unfold heeds; rw [hpoint]) hmood (.dismissed _ rfl)
        (outcomes_cancelled l) (by unfold step; rw [hpoint]) h
  | _ => exact follows_ignored h (by unfold heeds; rw [hpoint])

/-- Whatever the outside gives, what happens then is a walk. -/
theorem follows_step (hpauses : PausesFit cfg) (h : l.Fit) (g : Given) (hg : g.Measured) :
    Follows cfg l g := by
  cases hpoint : l.point with
  | fetching s address left => exact follows_fetching hpauses h hpoint g
  | feeding s spacing u units left => exact follows_feeding hpauses h hpoint g
  | spacing s spacing units left => exact follows_spacing hpauses h hpoint g
  | pausing duration next => exact follows_pausing hpauses h hpoint g
  | reloading => exact follows_reloading hpauses h hpoint g hg
  | crashed => exact absurd hpoint h.whole
  | ended fatal => exact follows_ignored h (by unfold heeds; rw [hpoint])

/-- Over a whole run the acts of a loop are a walk of its mood. -/
theorem follows_run (hpauses : PausesFit cfg) (h : l.Fit) (given : List Given)
    (hgiven : ∀ g ∈ given, g.Measured) :
    Walk (Mood.Goes cfg) l.mood (l.actsOf cfg given) (l.after cfg given).mood
      ∧ (l.after cfg given).Fit := by
  induction given generalizing l with
  | nil => exact ⟨.stay _, h⟩
  | cons g later ih =>
      obtain ⟨hwalk, hfit⟩ := follows_step hpauses h g (hgiven g List.mem_cons_self)
      obtain ⟨hlater, hlast⟩ := ih hfit fun g' hg' => hgiven g' (List.mem_cons_of_mem g hg')
      exact ⟨hwalk.append hlater, hlast⟩

/-- The account of a run is a walk from freedom to the mood of the loop that
the run leads to, which has not crashed. -/
theorem walk_account (hpauses : PausesFit cfg) (address : Url) {initial : Media}
    (hinitial : initial.Measured) {given : List Given} (hgiven : ∀ g ∈ given, g.Measured) :
    Walk (Mood.Goes cfg) (.free 0) (account cfg address initial given)
        ((start cfg address initial).after cfg given).mood
      ∧ ((start cfg address initial).after cfg given).Fit := by
  obtain ⟨hwalk, hfit⟩ := comes_begun (l := fresh address initial) hpauses hinitial
    hinitial.segments
  obtain ⟨hlater, hlast⟩ := follows_run hpauses hfit given hgiven
  refine ⟨?_, hlast⟩
  unfold account
  rw [List.append_cons]
  exact hwalk.append hlater

/-- The last thing in an account is where the loop has come to wait. -/
theorem account_last (cfg : FetchSettings) (address : Url) (initial : Media)
    (given : List Given) : ∃ earlier, account cfg address initial given
      = earlier ++ [((start cfg address initial).after cfg given).arrival] := by
  have hrun : ∀ (given : List Given) (l : FetchLoop), ∃ earlier,
      l.arrival :: l.actsOf cfg given = earlier ++ [(l.after cfg given).arrival] := by
    intro given
    induction given with
    | nil => exact fun l => ⟨[], rfl⟩
    | cons g later ih =>
        intro l
        obtain ⟨earlier, hearlier⟩ := ih (l.step cfg g)
        unfold actsOf acts
        cases hheeds : l.heeds g with
        | false =>
            have hstep : l.step cfg g = l := step_of_not_heeds hheeds
            refine ⟨earlier, ?_⟩
            show l.arrival :: ([] ++ (l.step cfg g).actsOf cfg later)
              = earlier ++ [((l.step cfg g).after cfg later).arrival]
            rw [← hearlier, hstep]
            rfl
        | true =>
            refine ⟨l.arrival :: .hears g :: (l.outcomes g ++ earlier), ?_⟩
            show l.arrival :: ((.hears g :: (l.outcomes g ++ [(l.step cfg g).arrival]))
              ++ (l.step cfg g).actsOf cfg later) = _
            simp only [List.cons_append, List.append_assoc, List.nil_append, hearlier]
            rfl
  obtain ⟨earlier, hearlier⟩ := hrun given (start cfg address initial)
  refine ⟨(fresh address initial).begun initial.segments ++ earlier, ?_⟩
  unfold account
  rw [hearlier, List.append_assoc]

end FetchLoop

end VideoWall.Playback
