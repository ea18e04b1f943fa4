/-
Trials against a scripted recorder.

A scripted recorder answers what it is asked, so a dialogue with it is one of
the ways in which the dialogue can go, and it remembers the requests of that
(`comesTo_converse`). What is rehearsed against it adds nothing of its own. A
rehearsed engine gives its loop what the loop wants, so the loop has always
come from its start by a run (`loop_of_rehearsal`). And a live screen on trial
is one of the histories of a live screen (`screen_of_trial`), unless somebody
writes to its streams or feeds behind its back.

What is told of a rehearsal can be read again: bytes (`bytes_ofBytes`) and the
phases of sessions (`phase?_phaseName`).
-/
import VideoWall.Proofs.Console.History
import VideoWall.Proofs.Playback.Account
import VideoWall.Proofs.Recorder.Talks
import VideoWall.Rehearsal.Notation
import VideoWall.Rehearsal.Player

namespace VideoWall.Rehearsal

-- ================================================================= recorders

section Recorders

open Recorder Recorder.Talks

variable {α : Type} {s : Server} {d : Dialogue α}

/-- The requests that a dialogue asks, in order. -/
def requestsOf (turns : List Turn) : List Request :=
  turns.filterMap fun
    | .asks request => some request
    | _ => none

/-- A recorder that can be reached remembers what it was asked. -/
private theorem asked_answer (h : s.reachable = true) (r : Request) :
    (s.answer r).2 = { s with asked := r :: s.asked } := by
  unfold Server.answer
  rw [if_neg (by simp [h])]

/-- A dialogue with a scripted recorder is one of the ways in which it can go,
and the recorder remembers its requests, the last one in front. -/
theorem comesTo_converse (h : s.reachable = true) (d : Dialogue α) :
    ∃ turns, ComesTo d turns (s.converse d).1
      ∧ (s.converse d).2 = { s with asked := (requestsOf turns).reverse ++ s.asked } := by
  induction d generalizing s with
  | done a => exact ⟨[], .done a, rfl⟩
  | ask request next ih =>
      have hanswer := asked_answer h request
      obtain ⟨turns, hcomes, hasked⟩ := ih (s.answer request).1 (s := (s.answer request).2)
        (by rw [hanswer]; exact h)
      refine ⟨_, .ask (s.answer request).1 hcomes, ?_⟩
      refine hasked.trans ?_
      rw [hanswer]
      simp [requestsOf]
  | pause duration next ih =>
      obtain ⟨turns, hcomes, hasked⟩ := ih h
      exact ⟨_, .pause hcomes, hasked⟩

end Recorders

-- =================================================================== engines

section Engines

open Playback

variable {e e' : RehearsedEngine} {cfg : FetchSettings} {l : FetchLoop}

/-- What an engine does for its loop is to give it what it wants. -/
private theorem serve_inv {limit : Nat} (h : e.serve limit = some e') :
    e'.settings = e.settings ∧ ∃ loop wake g wake', e.loop = some (loop, wake)
      ∧ loop.heeds g = true ∧ e'.loop = some (loop.step e.settings g, wake') := by
  unfold RehearsedEngine.serve at h
  split at h
  case h_1 => cases h
  case h_2 loop wake hloop =>
    dsimp only at h
    unfold FetchLoop.wish at h
    unfold FetchLoop.heeds
    cases hpoint : loop.point with
    | fetching s address left =>
        simp only [hpoint] at h
        cases h
        exact ⟨rfl, loop, wake, _, _, hloop, by rw [hpoint], rfl⟩
    | feeding s spacing u units left =>
        simp only [hpoint] at h
        cases h
        exact ⟨rfl, loop, wake, .taken .accepted, _, hloop, by rw [hpoint], rfl⟩
    | spacing s duration units left | pausing duration next =>
        simp only [hpoint] at h
        split_ifs at h
        cases h
        exact ⟨rfl, loop, wake, .timePassed, _, hloop, by rw [hpoint], rfl⟩
    | reloading =>
        simp only [hpoint] at h
        cases h
        exact ⟨rfl, loop, wake, _, _, hloop, by rw [hpoint], rfl⟩
    | crashed | ended fatal =>
        simp only [hpoint] at h
        cases h

/-- All that a loop is given, one thing after the other, is what it waits
for. -/
def Heeded (cfg : FetchSettings) (l : FetchLoop) (given : List Given) : Prop :=
  ∀ before g later, given = before ++ g :: later → (l.after cfg before).heeds g = true

/-- One more answer is heeded when the loop heeds it there. -/
theorem Heeded.concat {given : List Given} {g : Given} (h : Heeded cfg l given)
    (hg : (l.after cfg given).heeds g = true) : Heeded cfg l (given ++ [g]) := by
  intro before x later hsplit
  rcases List.eq_nil_or_concat later with rfl | ⟨front, last, rfl⟩
  · obtain ⟨rfl, hx⟩ := List.append_inj' hsplit rfl
    obtain rfl := (List.cons.inj hx).1
    exact hg
  · rw [List.concat_eq_append, ← List.cons_append, ← List.append_assoc] at hsplit
    exact h before x front (List.append_inj' hsplit rfl).1

/-- The loop of an engine has come from another one by a run, in which it was
given what it waited for. -/
def Plays (cfg : FetchSettings) (l : FetchLoop) (e : RehearsedEngine) : Prop :=
  e.settings = cfg ∧ ∃ given wake, Heeded cfg l given ∧ e.loop = some (l.after cfg given, wake)

/-- An engine that is served plays on. -/
private theorem Plays.serve (h : Plays cfg l e) {limit : Nat} (hserve : e.serve limit = some e') :
    Plays cfg l e' := by
  obtain ⟨rfl, given, wake, hheeded, hloop⟩ := h
  obtain ⟨hsettings, loop, _, g, wake', hbefore, hheeds, hafter⟩ := serve_inv hserve
  obtain ⟨rfl, -⟩ := Prod.mk.inj (Option.some.inj (hloop.symm.trans hbefore))
  refine ⟨hsettings, given ++ [g], wake', hheeded.concat hheeds, ?_⟩
  rw [hafter, FetchLoop.after, FetchLoop.after, List.foldl_append]
  rfl

/-- An engine that is run plays on. -/
private theorem Plays.runUntil (h : Plays cfg l e) (limit fuel : Nat) :
    Plays cfg l (e.runUntil limit fuel) := by
  induction fuel generalizing e with
  | zero => exact h
  | succ fuel ih =>
      unfold RehearsedEngine.runUntil
      split
      case h_1 => exact h
      case h_2 next hserve => exact ih (h.serve hserve)

/-- What time it is does not bear on what an engine plays. -/
private theorem Plays.at_time (h : Plays cfg l e) (now : Nat) : Plays cfg l { e with now } := h

/-- An engine that is waited for plays on. -/
theorem Plays.waits (h : Plays cfg l e) (durations : List Nat) :
    Plays cfg l (durations.foldl RehearsedEngine.wait e) := by
  induction durations generalizing e with
  | nil => exact h
  | cons duration rest ih => exact ih ((h.runUntil _ _).at_time _)

/-- What an engine is told to play starts the loop of the playlist that was
found. -/
private theorem plays_attach {source : Url} (h : e.attach source = (e', .ok ())) :
    ∃ address playlist,
      (e.server.converse (resolve e.client source)).1 = .ok (address, playlist)
        ∧ Plays e.settings (FetchLoop.start e.settings address playlist) e' := by
  unfold RehearsedEngine.attach at h
  dsimp only at h
  split at h
  case h_1 => cases h
  case h_2 address playlist hfound =>
    obtain ⟨rfl, -⟩ := Prod.mk.inj h
    exact ⟨address, playlist, hfound, rfl, [], _, fun _ _ _ hnone => by simp at hnone, rfl⟩

/-- The loop of a rehearsed engine is always one that a run of segments leads
to, however long is waited: it starts with the playlist that was found, and it
is given what it waits for. -/
theorem loop_of_rehearsal {source : Url} (h : e.attach source = (e', .ok ()))
    (durations : List Nat) :
    ∃ address playlist given wake,
      (e.server.converse (resolve e.client source)).1 = .ok (address, playlist)
        ∧ Heeded e.settings (FetchLoop.start e.settings address playlist) given
        ∧ (durations.foldl RehearsedEngine.wait e').loop
          = some ((FetchLoop.start e.settings address playlist).after e.settings given, wake) := by
  obtain ⟨address, playlist, hfound, hplays⟩ := plays_attach h
  obtain ⟨-, given, wake, hheeded, hloop⟩ := hplays.waits durations
  exact ⟨address, playlist, given, wake, hfound, hheeded, hloop⟩

end Engines

-- =================================================================== screens

section Screens

open Console Recorder

variable {c c' c'' : Console} {t : ScreenTrial}

/-- A live screen has become another one by events, whatever calls were made
before. -/
def Becomes (c c' : Console) : Prop :=
  ∃ events : List Console.Event, ∀ calls,
    ((⟨c, calls⟩ : Console.History).run events).console = c'

theorem Becomes.refl (c : Console) : Becomes c c := ⟨[], fun _ => rfl⟩

theorem Becomes.single (event : Console.Event)
    (h : ∀ calls, ((⟨c, calls⟩ : Console.History).after event).console = c') : Becomes c c' :=
  ⟨[event], h⟩

theorem Becomes.trans (h : Becomes c c') (h' : Becomes c' c'') : Becomes c c'' := by
  obtain ⟨before, hbefore⟩ := h
  obtain ⟨later, hlater⟩ := h'
  refine ⟨before ++ later, fun calls => ?_⟩
  rw [Console.History.run_append,
    ← hlater ((⟨c, calls⟩ : Console.History).run before).calls, ← hbefore calls]

/-- A message is an event of the console. -/
theorem becomes_say (c : Console) (now : Nat) (severity : Severity) (message : String) :
    Becomes c (c.say now severity message) :=
  .single (.toast now severity message) fun _ => rfl

/-- An errand that has been run is a load that came to its end, or a toast. -/
theorem becomes_run (t : ScreenTrial) (errand : Errand) :
    Becomes t.console (t.run errand).console := by
  cases errand with
  | load serial =>
      dsimp only [ScreenTrial.run]
      split_ifs with hpending
      · exact .single (.loaded serial t.now _) fun _ => rfl
      · exact .refl _
  | snapshot stream element detections =>
      dsimp only [ScreenTrial.run]
      cases t.takeSnapshot stream element detections with
      | ok path => exact becomes_say _ _ _ _
      | error r => exact becomes_say _ _ _ _
  | nudge camera direction =>
      dsimp only [ScreenTrial.run]
      cases (t.server.converse (camera.nudge direction)).1 with
      | ok done => exact .refl _
      | error r => exact becomes_say _ _ _ _
  | home camera =>
      dsimp only [ScreenTrial.run]
      cases (t.server.converse camera.home).1 with
      | ok done => exact becomes_say _ _ _ _
      | error r => exact becomes_say _ _ _ _

theorem becomes_foldl {α : Type} {f : ScreenTrial → α → ScreenTrial}
    (hf : ∀ t a, Becomes t.console (f t a).console) (l : List α) (t : ScreenTrial) :
    Becomes t.console (l.foldl f t).console := by
  induction l generalizing t with
  | nil => exact .refl _
  | cons a rest ih => exact (hf t a).trans (ih (f t a))

/-- A key is an event of the console. -/
theorem becomes_press (t : ScreenTrial) (k : Key) : Becomes t.console (t.press k).1.console := by
  have hkey : Becomes t.console (t.console.press t.now k).1 := .single (.key t.now k) fun _ => rfl
  unfold ScreenTrial.press
  split
  case h_1 console hpress =>
    rwa [hpress] at hkey
  case h_2 console errands hpress =>
    rw [hpress] at hkey
    exact hkey.trans (becomes_foldl becomes_run _ { t with console })

/-- A task of the wall's poller takes a signal. -/
theorem becomes_withPoller {now : Nat} {stream : String} {signal : Polling.Signal}
    {poller : Polling.Poller}
    (h : t.console.wall.poller.step? now stream signal = some poller) :
    Becomes t.console (t.withPoller poller).console := by
  refine .single (.polling (.signal stream now signal)) fun made => ?_
  simp only [Console.History.after, Console.History.wall, Wall.History.after,
    Polling.Poller.act, h, Option.getD_some]
  rfl

/-- A poll is an event of the console. -/
theorem becomes_poll (t : ScreenTrial) (stream : String) (signal : Polling.Signal) :
    Becomes t.console (t.poll stream signal).console := by
  unfold ScreenTrial.poll
  split
  case h_1 => exact .refl _
  case h_2 poller hasks =>
    dsimp only
    split
    case h_1 => exact becomes_withPoller hasks
    case h_2 later hhears => exact (becomes_withPoller hasks).trans (becomes_withPoller hhears)

theorem becomes_pollIfDue (t : ScreenTrial) (stream : String) :
    Becomes t.console (t.pollIfDue stream).console := by
  unfold ScreenTrial.pollIfDue
  split
  · exact becomes_poll t stream _
  · exact becomes_poll t stream _
  · exact .refl _

/-- A screen that settles goes through events of the console. -/
theorem becomes_settle (t : ScreenTrial) : Becomes t.console t.settle.console :=
  (becomes_foldl becomes_run t.waiting { t with waiting := [] }).trans
    (becomes_foldl becomes_pollIfDue _ _)

/-- Whether a cue is what a user does, what a load brings or what time
brings. -/
def ScreenCue.isPlain : ScreenCue → Bool
  | .key _ | .reload | .toast .. | .draw .. | .awaitLoad | .awaitToast _ | .awaitFeed _
  | .requests => true
  | _ => false

/-- A plain cue is events of the console. -/
theorem becomes_perform {cue : ScreenCue} (h : cue.isPlain = true) (t : ScreenTrial) :
    Becomes t.console (t.perform cue).1.console := by
  cases cue with
  | key k => exact becomes_press t k
  | reload => exact .single .reload fun _ => rfl
  | toast severity text => exact becomes_say _ _ _ _
  | draw width height styled => exact .single (.draw t.now width height) fun _ => rfl
  | awaitLoad => exact becomes_settle t
  | awaitToast k => exact (becomes_press t k).trans (becomes_settle _)
  | awaitFeed stream =>
      have hsettles := becomes_settle (t.passInterval stream)
      have hpasses : (t.passInterval stream).console = t.console := by
        unfold ScreenTrial.passInterval
        split <;> rfl
      rwa [hpasses] at hsettles
  | requests => exact .refl _
  | _ => cases h

/-- A live screen on trial is one of the histories of a live screen, unless
somebody writes to its streams or feeds behind its back. -/
theorem screen_of_trial (t : ScreenTrial) {cues : List ScreenCue}
    (hcues : ∀ cue ∈ cues, cue.isPlain = true) (calls : List (String × Player.Call)) :
    ∃ events : List Console.Event,
      (cues.foldl (fun t cue => (t.perform cue).1) t).console
        = ((⟨t.console, calls⟩ : Console.History).run events).console := by
  have hrun : Becomes t.console (cues.foldl (fun t cue => (t.perform cue).1) t).console := by
    induction cues generalizing t with
    | nil => exact .refl _
    | cons cue rest ih =>
        obtain ⟨hcue, hrest⟩ := List.forall_mem_cons.1 hcues
        exact (becomes_perform hcue t).trans (ih _ hrest)
  obtain ⟨events, hevents⟩ := hrun
  exact ⟨events, (hevents calls).symm⟩

end Screens

-- ================================================================== notation

section Notes

open Text

/-- Pairs of digits are read as the bytes that they were written for. -/
private theorem toBytes?_flatMap (bytes : List UInt8) :
    Hex.toBytes? (bytes.flatMap Hex.ofByte) = some bytes := by
  induction bytes with
  | nil => rfl
  | cons b rest ih =>
      have hhigh := Hex.digit?_lower (b.toNat / 16) (by have := b.toNat_lt; omega)
      have hlow := Hex.digit?_lower (b.toNat % 16) (Nat.mod_lt _ (by decide))
      have hbyte : (b.toNat / 16 * 16 + b.toNat % 16).toUInt8 = b := by
        rw [Nat.div_add_mod']
        exact UInt8.ofNat_toNat
      rw [List.flatMap_cons, Hex.ofByte, List.cons_append, List.cons_append, List.nil_append,
        Hex.toBytes?, hhigh, hlow, ih]
      exact congrArg (fun c => some (c :: rest)) hbyte

/-- Bytes are read as they are written. -/
theorem bytes_ofBytes (bytes : List UInt8) :
    Notation.bytes (.text (Hex.ofBytes bytes)) = bytes := by
  show (Hex.toBytes? (Hex.ofBytes bytes).toList).getD [] = bytes
  rw [Hex.ofBytes, String.toList_ofList, toBytes?_flatMap]
  rfl

/-- A phase is read as it is written. -/
theorem phase?_phaseName (p : Player.Phase) : Notation.phase? (Account.phaseName p) = some p := by
  cases p <;> rfl

end Notes

end VideoWall.Rehearsal
