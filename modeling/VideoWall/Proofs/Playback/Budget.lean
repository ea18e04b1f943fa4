/-
How many failures in a row a loop puts up with.

# Semantics

`FetchLoop.account` tells what a loop does, hears and finds out in a run.
`Budgeted` is what is promised of it: that each failure within the budget
is followed by its pause and by nothing else, that the one that spends the
budget is reported and is the end, and that there is no other end but
where the outside asks for it.

# Main statement

`FetchLoop.failure_budget`: every run is budgeted, and a loop that wants
nothing any more has stopped or reported. The pause after the `k`-th
failure doubles from one failure to the next up to a factor of
`2 ^ 32 - 1`, where it stays (`FetchLoop.pauseAfter_of_le`,
`FetchLoop.pauses_do_not_double`). Nor can it be longer than a duration, so
that the pauses of a budget have to fit.

Each promise is read off the walk that the account is
(`FetchLoop.walk_account`), where the mood counts the same failures as the
account does (`Mood.failures_of_walk`).
-/
import VideoWall.Proofs.Playback.Account
import VideoWall.Proofs.Playback.Order

namespace VideoWall.Playback

open Playlist Recorder Transport

-- ============================================================== accounts

/-- A failure is one more, and a segment that is finished sets the count
back. -/
def Act.count (failures : Nat) : Act → Nat
  | .fails _ => failures + 1
  | .finishes _ => 0
  | _ => failures

/-- The failures since the last segment that was finished. -/
def streak (t : List Act) : Nat := t.foldl Act.count 0

/-- Failures are treated within a budget.

- `pauses`: after the `k`-th failure in a row, below the budget, the loop
  waits at once, and then nothing happens but that the time passes, or that
  the loop is cancelled and stops.
- `spends`: the failure that reaches the budget is reported and is the last
  that happens; no failure is beyond it.
- `reports`: nothing else is ever reported, and nothing happens after.
- `stops`: without a report a loop ends where it has been cancelled or has
  heard that the decoder is gone since the element has moved on, and
  nowhere else.
- `whole`: it never crashes. -/
structure Budgeted (cfg : FetchSettings) (t : List Act) : Prop where
  pauses : ∀ before trouble after, t = before ++ .fails trouble :: after →
    streak before + 1 < cfg.maxFailures →
    ∃ rest, after
        = .waits (cfg.backoff * 1000000 * min (2 ^ streak before) (2 ^ 32 - 1)) :: rest
      ∧ (rest = [] ∨ (∃ later, rest = .hears .timePassed :: later)
        ∨ rest = [.hears .cancelled, .stops])
  spends : ∀ before trouble after, t = before ++ .fails trouble :: after →
    cfg.maxFailures ≤ streak before + 1 →
    streak before + 1 = cfg.maxFailures ∧ after = [.reports trouble.report]
  reports : ∀ before r after, t = before ++ .reports r :: after →
    after = [] ∧ ∃ earlier trouble, before = earlier ++ [.fails trouble]
      ∧ r = trouble.report ∧ streak earlier + 1 = cfg.maxFailures
  stops : ∀ before after, t = before ++ .stops :: after →
    after = [] ∧ ∃ earlier g, before = earlier ++ [.hears g]
      ∧ (g = .cancelled ∨ g = .taken (.gone true))
  whole : Act.crashes ∉ t

-- ================================================================= walks

namespace Mood

variable {cfg : FetchSettings} {a b : Mood} {x : Act} {t : List Act} {k : Nat} {trouble : Trouble}

/-- The failures that a mood counts. -/
def failures : Mood → Nat
  | .free k | .asking k | .timed k | .failed k _ | .leaving k | .over k => k

/-- Below the budget, or at it where a failure is still to be answered. -/
def Within (m : Nat) : Mood → Prop
  | .free k | .asking k | .timed k => k < m
  | .failed k _ => k ≤ m
  | .leaving _ | .over _ => True

/-- Each act counts the failures on. -/
private theorem failures_of_goes (h : Goes cfg a x b) : b.failures = Act.count a.failures x := by
  cases h <;> rfl

/-- A mood counts the failures that have happened. -/
theorem failures_of_walk (h : Walk (Goes cfg) a t b) :
    b.failures = t.foldl Act.count a.failures := by
  induction h with
  | stay a => rfl
  | step hgoes _ ih => rw [ih, failures_of_goes hgoes, List.foldl_cons]

/-- No act takes the failures past their budget. -/
private theorem within_of_goes (hm : 1 ≤ cfg.maxFailures) (h : Goes cfg a x b)
    (ha : a.Within cfg.maxFailures) : b.Within cfg.maxFailures := by
  cases h with
  | finishes k number => exact hm
  | fails k t => exact ha
  | pauses t hk => exact hk
  | _ => first | exact ha | exact trivial

/-- The failures stay within their budget. -/
private theorem within_of_walk (hm : 1 ≤ cfg.maxFailures) (h : Walk (Goes cfg) a t b)
    (ha : a.Within cfg.maxFailures) : b.Within cfg.maxFailures := by
  induction h with
  | stay a => exact ha
  | step hgoes _ ih => exact ih (within_of_goes hm hgoes ha)

/-- Nothing happens when all is over. -/
theorem eq_nil_of_over (h : Walk (Goes cfg) (.over k) t b) : t = [] := by
  cases h with
  | stay => rfl
  | step hgoes _ => cases hgoes

/-- Moods that a loop does not wait in: it is about to answer a failure, or to
leave. -/
def Passing : Mood → Prop
  | .failed _ _ | .leaving _ => True
  | _ => False

/-- To leave is to stop. -/
private theorem eq_stops_of_leaving (h : Walk (Goes cfg) (.leaving k) t b) (hb : ¬ b.Passing) :
    t = [.stops] := by
  cases h with
  | stay => exact absurd trivial hb
  | step hgoes hlater =>
      cases hgoes
      rw [eq_nil_of_over hlater]

/-- A failure within the budget is followed by its pause. -/
private theorem pauses_of_failed (h : Walk (Goes cfg) (.failed k trouble) t b) (hb : ¬ b.Passing)
    (hk : k < cfg.maxFailures) :
    ∃ rest, t = .waits (FetchLoop.pauseAfter cfg k) :: rest
      ∧ (rest = [] ∨ (∃ later, rest = .hears .timePassed :: later)
        ∨ rest = [.hears .cancelled, .stops]) := by
  cases h with
  | stay => exact absurd trivial hb
  | step hgoes hlater =>
      cases hgoes with
      | reports _ hspent => omega
      | pauses _ _ =>
          refine ⟨_, rfl, ?_⟩
          cases hlater with
          | stay => exact Or.inl rfl
          | step hgoes hlater =>
              cases hgoes with
              | timePassed => exact Or.inr (Or.inl ⟨_, rfl⟩)
              | cancelled =>
                  rw [eq_stops_of_leaving hlater hb]
                  exact Or.inr (Or.inr rfl)

/-- A failure that reaches the budget is reported, and that is the end. -/
private theorem reports_of_failed (h : Walk (Goes cfg) (.failed k trouble) t b) (hb : ¬ b.Passing)
    (hk : cfg.maxFailures ≤ k) : t = [.reports trouble.report] := by
  cases h with
  | stay => exact absurd trivial hb
  | step hgoes hlater =>
      cases hgoes with
      | pauses _ hlt => omega
      | reports _ _ => rw [eq_nil_of_over hlater]

/-- What has come to a failure has come by one that happened. -/
private theorem fails_of_failed (h : Walk (Goes cfg) (.free 0) t (.failed k trouble)) :
    ∃ earlier, t = earlier ++ [.fails trouble] ∧ streak earlier + 1 = k := by
  rcases List.eq_nil_or_concat t with rfl | ⟨earlier, x, rfl⟩
  · cases h
  · rw [List.concat_eq_append] at h ⊢
    obtain ⟨c, hwalk, hgoes⟩ := h.last
    have hcount := failures_of_walk hwalk
    cases hgoes
    exact ⟨earlier, rfl, congrArg (· + 1) hcount.symm⟩

/-- What is about to leave has heard why. -/
private theorem heard_of_leaving (h : Walk (Goes cfg) (.free 0) t (.leaving k)) :
    ∃ earlier g, t = earlier ++ [.hears g] ∧ (g = .cancelled ∨ g = .taken (.gone true)) := by
  rcases List.eq_nil_or_concat t with rfl | ⟨earlier, x, rfl⟩
  · cases h
  · rw [List.concat_eq_append] at h ⊢
    obtain ⟨c, -, hgoes⟩ := h.last
    cases hgoes with
    | @dismissed k g hends =>
        refine ⟨earlier, g, rfl, ?_⟩
        cases g with
        | cancelled => exact Or.inl rfl
        | taken u =>
            cases u with
            | accepted => cases hends
            | gone movedOn =>
                cases movedOn with
                | true => exact Or.inr rfl
                | false => cases hends
        | segment bytes | timePassed | playlist text => cases hends
    | cancelled k => exact ⟨earlier, _, rfl, Or.inl rfl⟩

/-- A walk from freedom to where a loop waits is budgeted. -/
private theorem budgeted_of_walk (hm : 1 ≤ cfg.maxFailures) (h : Walk (Goes cfg) (.free 0) t b)
    (hb : ¬ b.Passing) : Budgeted cfg t where
  pauses := by
    rintro before trouble after rfl hk
    obtain ⟨c, d, hbefore, hgoes, hafter⟩ := h.at_place
    -- the mood counts the failures since the last success, and so does the streak
    have hcount := failures_of_walk hbefore
    cases hgoes with
    | fails k _ =>
        change k = streak before at hcount
        subst hcount
        exact pauses_of_failed hafter hb hk
  spends := by
    rintro before trouble after rfl hk
    obtain ⟨c, d, hbefore, hgoes, hafter⟩ := h.at_place
    have hcount := failures_of_walk hbefore
    have hwithin := within_of_walk hm hbefore hm
    cases hgoes with
    | fails k _ =>
        change k = streak before at hcount
        change k < cfg.maxFailures at hwithin
        subst hcount
        exact ⟨by omega, reports_of_failed hafter hb hk⟩
  reports := by
    rintro before r after rfl
    obtain ⟨c, d, hbefore, hgoes, hafter⟩ := h.at_place
    have hwithin := within_of_walk hm hbefore hm
    cases hgoes with
    | @reports k trouble hk =>
        change k ≤ cfg.maxFailures at hwithin
        obtain ⟨earlier, rfl, hstreak⟩ := fails_of_failed hbefore
        exact ⟨eq_nil_of_over hafter, earlier, trouble, rfl, rfl, by omega⟩
  stops := by
    rintro before after rfl
    obtain ⟨c, d, hbefore, hgoes, hafter⟩ := h.at_place
    cases hgoes with
    | stops k => exact ⟨eq_nil_of_over hafter, heard_of_leaving hbefore⟩
  whole := by
    intro hcrash
    obtain ⟨before, after, rfl⟩ := List.append_of_mem hcrash
    obtain ⟨c, d, -, hgoes, -⟩ := h.at_place
    cases hgoes

end Mood

-- ================================================================== runs

namespace FetchLoop

/-- Up to the thirty-second failure in a row, each pause is twice the one
before. -/
private theorem pauseAfter_of_le (cfg : FetchSettings) {k : Nat} (hk : k ≤ 32) :
    pauseAfter cfg k = cfg.backoff * 1000000 * 2 ^ (k - 1) := by
  have hpow : 2 ^ (k - 1) ≤ 2 ^ 31 := Nat.pow_le_pow_right (by decide) (by omega)
  show cfg.backoff * 1000000 * min (2 ^ (k - 1)) 4294967295 = _
  rw [Nat.min_eq_left (by omega)]

/-- A loop is never in passing where it waits. -/
private theorem not_passing_mood (l : FetchLoop) : ¬ l.mood.Passing := by
  unfold mood
  cases l.point <;> exact fun h => h

/-- Whatever becomes of segments, playlists and the decoder, failures are
treated within the budget, and a loop that wants nothing any more has
stopped or reported. Its playlists have to be measured, and the pauses of
the budget durations. -/
theorem failure_budget (cfg : FetchSettings) (address : Url) (initial : Media)
    (given : List Given) (hm : 1 ≤ cfg.maxFailures) (hpauses : PausesFit cfg)
    (hinitial : initial.Measured) (hgiven : ∀ g ∈ given, g.Measured) :
    Budgeted cfg (account cfg address initial given)
      ∧ (((start cfg address initial).after cfg given).wish = .nothing →
          ∃ earlier, account cfg address initial given = earlier ++ [.stops]
            ∨ ∃ r, account cfg address initial given = earlier ++ [.reports r]) := by
  obtain ⟨hwalk, hfit⟩ := walk_account hpauses address hinitial hgiven
  refine ⟨Mood.budgeted_of_walk hm hwalk (not_passing_mood _), ?_⟩
  obtain ⟨earlier, hlast⟩ := account_last cfg address initial given
  intro hwish
  refine ⟨earlier, ?_⟩
  rw [hlast]
  generalize (start cfg address initial).after cfg given = l at hwish hfit
  unfold wish at hwish
  unfold arrival
  cases hpoint : l.point with
  | crashed => exact absurd hpoint hfit.whole
  | ended fatal =>
      cases fatal with
      | none => exact Or.inl rfl
      | some r => exact Or.inr ⟨r, rfl⟩
  | _ =>
      rw [hpoint] at hwish
      cases hwish

private theorem measured_yard : yard.Measured := by
  refine ⟨⟨by decide, by decide⟩, fun s hs => ?_⟩
  simp only [yard, List.mem_cons, List.not_mem_nil, or_false] at hs
  rcases hs with rfl | rfl
  · exact ⟨⟨by decide, by decide⟩, by decide⟩
  · exact ⟨⟨by decide, by decide⟩, by decide⟩

/-- Neither the segment nor the playlist is to be had, and each pause
passes. -/
def outage : List Given :=
  [.segment (.error (.timeout "f.ts")), .timePassed,
    .playlist (.error (.timeout "index.m3u8")), .timePassed]

/-- Outages, one after the other. -/
def outages (n : Nat) : List Given := (List.replicate n outage).flatten

/-- However many outages there are, they are measured. -/
private theorem measured_outages (n : Nat) : ∀ g ∈ outages n, g.Measured := by
  intro g hg
  obtain ⟨round, hround, hmem⟩ := List.mem_flatten.1 hg
  rw [(List.mem_replicate.1 hround).2] at hmem
  simp only [outage, List.mem_cons, List.not_mem_nil, or_false] at hmem
  rcases hmem with rfl | rfl | rfl | rfl <;> trivial

private theorem pausesFit_default : PausesFit {} := by
  intro k hk hlt
  change k < 3 at hlt
  rw [pauseAfter_of_le {} (by omega)]
  have hpow : 2 ^ (k - 1) ≤ 2 ^ 1 := Nat.pow_le_pow_right (by decide) (by omega)
  show 500 * 1000000 * 2 ^ (k - 1) < maxSeconds * 1000000000
  unfold maxSeconds
  omega

/-- The third failure in a row spends the budget. -/
theorem failure_budget_of_outages :
    (account {} yardAddress yard (outages 2)).getLast?
        = some (.reports (Trouble.segmentFetch 6 (.timeout "f.ts")).report)
      ∧ Budgeted {} (account {} yardAddress yard (outages 2))
      ∧ (((start {} yardAddress yard).after {} (outages 2)).wish = .nothing →
          ∃ earlier, account {} yardAddress yard (outages 2) = earlier ++ [.stops]
            ∨ ∃ r, account {} yardAddress yard (outages 2) = earlier ++ [.reports r]) :=
  ⟨rfl, failure_budget {} yardAddress yard (outages 2) (by decide) pausesFit_default
    measured_yard (measured_outages 2)⟩

set_option maxRecDepth 4000 in
/-- With a budget large enough the pauses do not go on doubling: the one
after the thirty-third failure falls short. And doubled often enough a
pause is no duration, which is the end of the loop without a word. -/
theorem pauses_do_not_double :
    (∃ before trouble after,
      account ⟨40, 500⟩ yardAddress yard (outages 16 ++ [.segment (.error (.timeout "f.ts"))])
          = before ++ .fails trouble :: after
        ∧ streak before + 1 = 33
        ∧ ∀ rest, after ≠ .waits (500 * 1000000 * 2 ^ streak before) :: rest)
      ∧ (account ⟨20, 18446744073709551615⟩ yardAddress yard (outages 6)).getLast?
        = some .crashes := by
  refine ⟨⟨account ⟨40, 500⟩ yardAddress yard (outages 16)
    ++ [.hears (.segment (.error (.timeout "f.ts")))], .segmentFetch 6 (.timeout "f.ts"),
    [.waits (500 * 1000000 * 4294967295)], rfl, rfl, ?_⟩, rfl⟩
  intro rest h
  have hstreak : streak (account ⟨40, 500⟩ yardAddress yard (outages 16)
    ++ [.hears (.segment (.error (.timeout "f.ts")))]) = 32 := rfl
  rw [hstreak] at h
  injection h with h
  injection h with h
  omega

end FetchLoop

end VideoWall.Playback
