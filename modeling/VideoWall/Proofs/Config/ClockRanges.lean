/-
Which settings the clock can bear.

# The ranges

The settings are words of 64 bits, and those that count seconds may be as
large as these (`Config.InWords`, which every configuration that is read
satisfies). A duration may be that long, a point of time may not be that far
away.

# The law

Every setting becomes a duration, and so does every doubled interval of
polling, since the interval stays within the largest one; so no task crashes.
The refresh clock is what is left: a date is the present time and a whole
interval, and nothing keeps the interval as small as that takes. So sessions
are safe just while it is (`Config.clock_in_range`).
-/
import VideoWall.Config.Check
import VideoWall.Proofs.Json.Records
import VideoWall.Proofs.Player.Attached
import VideoWall.Proofs.Polling.History

namespace VideoWall

namespace Config

open Json

/-- The numbers of the polling section fit their words. -/
structure Detection.InWords (d : Detection) : Prop where
  baseInterval : d.baseInterval < UInt64.size
  maxInterval : d.maxInterval < UInt64.size
  errorThreshold : d.errorThreshold < UInt32.size

/-- The numbers of the playback section fit their words. -/
structure Playback.InWords (p : Playback) : Prop where
  refreshSeconds : p.refreshSeconds < UInt64.size
  retryDelay : p.retryDelay < UInt64.size
  playTimeoutSeconds : p.playTimeoutSeconds < UInt64.size

/-- The numbers of a configuration fit their words. -/
structure InWords (c : Config) : Prop where
  requestTimeout : c.requestTimeout < UInt64.size
  detection : c.detection.InWords
  playback : c.playback.InWords

-- ============================================================== reading

theorem inWords_detection : Decoder.Yields Detection.InWords Detection.reading.decode := by
  apply Record.keeps
  · exact ⟨by decide, by decide, by decide⟩
  · simp only [Detection.reading, List.forall_mem_cons]
    refine ⟨?_, ?_, ?_, by simp⟩
    · exact keeps_field (yields_decodeNat 64 _)
        (fun _ _ hv h => ⟨hv, h.maxInterval, h.errorThreshold⟩) _ _
    · exact keeps_field (yields_decodeNat 64 _)
        (fun _ _ hv h => ⟨h.baseInterval, hv, h.errorThreshold⟩) _ _
    · exact keeps_field (yields_decodeNat 32 _)
        (fun _ _ hv h => ⟨h.baseInterval, h.maxInterval, hv⟩) _ _

theorem inWords_playback : Decoder.Yields Playback.InWords Playback.reading.decode := by
  apply Record.keeps
  · exact ⟨by decide, by decide, by decide⟩
  · simp only [Playback.reading, List.forall_mem_cons]
    refine ⟨?_, ?_, ?_, ?_, ?_, ?_, by simp⟩
    · exact keeps_field (yields_decodeNat 64 _)
        (fun _ _ hv h => ⟨hv, h.retryDelay, h.playTimeoutSeconds⟩) _ _
    · exact keeps_field (yields_decodeNat 64 _)
        (fun _ _ hv h => ⟨h.refreshSeconds, hv, h.playTimeoutSeconds⟩) _ _
    · exact keeps_field (yields_decodeNat 64 _)
        (fun _ _ hv h => ⟨h.refreshSeconds, h.retryDelay, hv⟩) _ _
    · exact keeps_apart (fun _ _ h => ⟨h.refreshSeconds, h.retryDelay, h.playTimeoutSeconds⟩) _ _
    · exact keeps_apart (fun _ _ h => ⟨h.refreshSeconds, h.retryDelay, h.playTimeoutSeconds⟩) _ _
    · exact keeps_apart (fun _ _ h => ⟨h.refreshSeconds, h.retryDelay, h.playTimeoutSeconds⟩) _ _

/-- A configuration is read in words, whatever it says. -/
theorem inWords_reading : Decoder.Yields InWords reading.decode := by
  apply Record.keeps
  · exact ⟨by decide, ⟨by decide, by decide, by decide⟩, ⟨by decide, by decide, by decide⟩⟩
  · simp only [reading, List.forall_mem_cons]
    refine ⟨?_, ?_, ?_, ?_, ?_, ?_, ?_, by simp⟩
    · exact keeps_apart (fun _ _ h => ⟨h.requestTimeout, h.detection, h.playback⟩) _ _
    · exact keeps_apart (fun _ _ h => ⟨h.requestTimeout, h.detection, h.playback⟩) _ _
    · exact keeps_apart (fun _ _ h => ⟨h.requestTimeout, h.detection, h.playback⟩) _ _
    · exact keeps_field (yields_decodeNat 64 _) (fun _ _ hv h => ⟨hv, h.detection, h.playback⟩) _ _
    · exact keeps_field inWords_detection (fun _ _ hv h => ⟨h.requestTimeout, hv, h.playback⟩) _ _
    · exact keeps_field inWords_playback (fun _ _ hv h => ⟨h.requestTimeout, h.detection, hv⟩) _ _
    · exact keeps_apart (fun _ _ h => ⟨h.requestTimeout, h.detection, h.playback⟩) _ _

/-- Whatever is read from a text has its numbers in words, and a command line
overrides none of them. -/
theorem inWords_parse {text : List Char} {c : Config} (h : (parse text).toOption = some c)
    (o : Override) : (c.override o).InWords := by
  cases hread : parse text with
  | error e =>
      rw [hread] at h
      cases h
  | ok found =>
      rw [hread] at h
      cases h
      have hwords : c.InWords := inWords_reading.decode hread
      exact ⟨hwords.requestTimeout, hwords.detection, hwords.playback⟩

-- ============================================================= in force

/-- The times that a configuration puts in force, in milliseconds. -/
def times (c : Config) : List Nat :=
  [c.polling.baseInterval, c.polling.maxInterval, c.polling.requestTimeout,
    c.sessions.refreshInterval, c.sessions.retryDelay, c.playTimeout * 1000]

variable {c : Config}

/-- All times of a configuration in words are durations. -/
private theorem isDuration_times (h : c.InWords) : ∀ ms ∈ c.times, Clock.IsDuration ms := by
  have hrequest := h.requestTimeout
  obtain ⟨hbase, hmax, -⟩ := h.detection
  obtain ⟨hrefresh, hretry, hplay⟩ := h.playback
  simp only [times, List.forall_mem_cons, Clock.IsDuration, Playlist.maxSeconds, polling, sessions,
    playTimeout, timeoutInForce, leastTimeout]
  simp only [UInt64.size] at hrequest hbase hmax hrefresh hretry hplay
  refine ⟨?_, ?_, ?_, ?_, ?_, ?_, by simp⟩ <;> omega

/-- The longest interval of polling has a double. -/
private theorem isDuration_longest (h : c.InWords) : Clock.IsDuration (c.polling.longest * 2) := by
  obtain ⟨hbase, hmax, -⟩ := h.detection
  simp only [UInt64.size] at hbase hmax
  simp only [Clock.IsDuration, Playlist.maxSeconds, Polling.Settings.longest, polling]
  omega

/-- The clock can show a whole interval from now just when the seconds stay in
its range. -/
private theorem isInstant_refresh (now : Nat) :
    Clock.IsInstant (now + c.sessions.refreshInterval)
      ↔ now / 1000 + max c.playback.refreshSeconds 1 < Clock.maxSeconds := by
  unfold Clock.IsInstant Clock.maxSeconds sessions
  dsimp only
  omega

-- =============================================================== the law

/-- The times of a configuration are durations, and so is every interval that
polling doubles, so that no task crashes. A date that a session sets as its
refresh clock begins is a point of time just when the seconds of the interval,
counted from now, stay in range; and while they do, no session crashes, and so
is every date that one holds. -/
theorem clock_in_range (c : Config) (hwords : c.InWords) :
    (∀ ms ∈ c.times, Clock.IsDuration ms)
      ∧ (∀ events : List Polling.Poller.Event,
          let p := ({ settings := c.polling } : Polling.Poller).run events
          (∀ t, p.Has t → Clock.IsDuration (t.backoff.interval * 2))
            ∧ ∀ name, p.hasCrashed name = false)
      ∧ ∀ (supported : Bool) (events : List Player.Event) (name : String),
        let h := (Player.History.opened c.sessions supported).run events
        (∀ supply now signal due, h.begun? name supply now signal = some due →
            (Clock.IsInstant due
              ↔ now / 1000 + max c.playback.refreshSeconds 1 < Clock.maxSeconds))
          ∧ ∀ latest, (∀ event ∈ events, event.notAfter latest) →
            latest / 1000 + max c.playback.refreshSeconds 1 < Clock.maxSeconds →
            h.players.hasCrashed name = false
              ∧ ∀ x due, h.players.sessions.get? name = some x → x.refreshAt = some due →
                Clock.IsInstant due := by
  refine ⟨isDuration_times hwords, fun events => ⟨fun t ht => ?_, fun name => ?_⟩,
    fun supported events name => ⟨fun supply now signal due hbegun => ?_,
      fun latest hevents hsmall => ⟨?_, fun x due hx hdue => ?_⟩⟩⟩
  · have hpaced := (Polling.Poller.paced_new c.polling).run events
    exact (isDuration_longest hwords).of_le (Nat.mul_le_mul_right 2 (hpaced.within t ht))
  · have hpaced := (Polling.Poller.paced_new c.polling).run events
    rw [Bool.eq_false_iff]
    exact fun hcrashed => hpaced.late hcrashed (isDuration_longest hwords)
  · rw [Player.History.date_begun c.sessions supported events hbegun]
    exact isInstant_refresh now
  · exact Player.History.hasCrashed_run (Player.History.sound_opened c.sessions supported) hevents
      ((isInstant_refresh latest).2 hsmall) name rfl
  · have hlatest := Player.History.dates_run c.sessions supported hevents hx hdue
    exact ((isInstant_refresh latest).2 hsmall).of_le hlatest

/-- A configuration that refreshes every thirty seconds. -/
def frequent : Config := { server := "http://[::1]:8080" }

/-- Its times, the doubled interval of a stream that is polled, and the date of
the first refresh: when the stream comes to play, and from then on. -/
theorem frequent_in_range :
    (frequent.InWords ∧ frequent.check = .ok ())
      ∧ (1000 ∈ frequent.times ∧ Clock.IsDuration 1000)
      ∧ ((({ settings := frequent.polling } : Polling.Poller).run [.enable "gate"]).Has
          ⟨1, ⟨1000, 0⟩, .fresh⟩ ∧ Clock.IsDuration (1000 * 2))
      ∧ 0 / 1000 + max frequent.playback.refreshSeconds 1 < Clock.maxSeconds
      ∧ (((Player.History.opened frequent.sessions true).run
          (Player.History.yardPlays default).dropLast).begun? "yard" ⟨.ok default, .ok 1⟩ 0
            (.played (.ok ())) = some 30000 ∧ Clock.IsInstant 30000)
      ∧ (((Player.History.opened frequent.sessions true).run
          (Player.History.yardPlays default)).players.sessions.get? "yard"
            = some { point := .resting, phase := .playing, epoch := 1, engine := some 1,
                     refreshAt := some 30000 } ∧ Clock.IsInstant 30000) := by
  have hwords : frequent.InWords :=
    ⟨by decide, ⟨by decide, by decide, by decide⟩, ⟨by decide, by decide, by decide⟩⟩
  have haccepted : frequent.check = .ok () := rfl
  obtain ⟨htimes, hpolling, hsessions⟩ := clock_in_range frequent hwords
  have hlisted : 1000 ∈ frequent.times := by decide
  have hpolled : (({ settings := frequent.polling } : Polling.Poller).run [.enable "gate"]).Has
      ⟨1, ⟨1000, 0⟩, .fresh⟩ := ⟨"gate", Or.inl rfl⟩
  have hsmall : 0 / 1000 + max frequent.playback.refreshSeconds 1 < Clock.maxSeconds := by decide
  have hbegun : ((Player.History.opened frequent.sessions true).run
      (Player.History.yardPlays default).dropLast).begun? "yard" ⟨.ok default, .ok 1⟩ 0
        (.played (.ok ())) = some 30000 := by decide
  have hheld : ((Player.History.opened frequent.sessions true).run
      (Player.History.yardPlays default)).players.sessions.get? "yard"
        = some { point := .resting, phase := .playing, epoch := 1, engine := some 1,
                 refreshAt := some 30000 } := by decide
  have hevents : ∀ event ∈ Player.History.yardPlays default, event.notAfter 0 := by
    simp [Player.History.yardPlays, Player.Event.notAfter]
  have hdate := (hsessions true (Player.History.yardPlays default).dropLast "yard").1 _ _ _ _ hbegun
  have hdates := (hsessions true (Player.History.yardPlays default) "yard").2 0 hevents hsmall
  exact ⟨⟨hwords, haccepted⟩, ⟨hlisted, htimes 1000 hlisted⟩, 
    ⟨hpolled, (hpolling _).1 _ hpolled⟩, hsmall, ⟨hbegun, hdate.2 hsmall⟩,
    ⟨hheld, hdates.2 _ _ hheld rfl⟩⟩

/-- A configuration that leaves the source alone for as long as its word can
tell. -/
def patient : Config :=
  { server := "http://[::1]:8080", playback := { refreshSeconds := 18446744073709551615 } }

/-- It is read and accepted, and the first date that a session sets under it
is none that the clock can show. -/
theorem patient_out_of_range :
    (parse ("\x7b\"server\":\"http://[::1]:8080\",\"player\":"
        ++ "\x7b\"refresh_interval_secs\":18446744073709551615\x7d\x7d").toList).toOption
          = some patient
      ∧ patient.InWords ∧ patient.check = .ok ()
      ∧ ((Player.History.opened patient.sessions true).run
          (Player.History.yardPlays default).dropLast).begun? "yard" ⟨.ok default, .ok 1⟩ 0
            (.played (.ok ())) = some 18446744073709551615000
      ∧ ¬ Clock.IsInstant 18446744073709551615000 := by
  have hread : (parse ("\x7b\"server\":\"http://[::1]:8080\",\"player\":"
      ++ "\x7b\"refresh_interval_secs\":18446744073709551615\x7d\x7d").toList).toOption
        = some patient := by
    decide +kernel
  refine ⟨hread, inWords_parse hread {}, rfl, by decide, ?_⟩
  unfold Clock.IsInstant
  decide

end Config

end VideoWall
